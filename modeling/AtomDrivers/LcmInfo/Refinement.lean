/-
The driver and the byte file in lockstep.

One call finds the bytes and the positions of the file in the driver's state and
leaves them there, and its reply is the file's answer.  The rule for runs then
compares whole histories, and the reported changes say where each byte that is
read comes from.
-/
import AtomDrivers.LcmInfo.ByteFile

namespace AtomDrivers
namespace LcmInfo

open Linux Storage ByteFile

/-- One call of the driver and of the file agree, and the reply explains what
happened to the bytes. -/
def StepAgrees (f : ByteFile) : Option (Lcminfo × Reply) → Option (ByteFile × Answer) → Prop :=
  Option.Rel fun p q => Refines p.1 q.1 ∧ p.2.answer = q.2 ∧ Explains f.bytes q.1.bytes p.2

theorem Refines.fPos_none {s : Lcminfo} {f : ByteFile} (h : Refines s f) {file : Nat}
    (hf : f.pos file = none) : s.fPos file = none := by
  simp [h.fPos, hf]

theorem Refines.fPos_some {s : Lcminfo} {f : ByteFile} (h : Refines s f) {file : Nat}
    {p : Position} (hf : f.pos file = some p) : s.fPos file = some p.toLoff := by
  simp [h.fPos, hf]

theorem Refines.update {s : Lcminfo} {f : ByteFile} (h : Refines s f) (file : Nat)
    (p : Option Position) :
    Function.update s.fPos file (p.map Position.toLoff) =
      fun i => (Function.update f.pos file p i).map Position.toLoff := by
  funext i
  by_cases hi : i = file
  · subst hi
    simp
  · simp [hi, h.fPos]

theorem Refines.update_self {s : Lcminfo} {f : ByteFile} (h : Refines s f) {file : Nat}
    {p : Position} (hf : f.pos file = some p) :
    Function.update s.fPos file (some p.toLoff) = fun i => (f.pos i).map Position.toLoff := by
  rw [← h.fPos_some hf, Function.update_eq_self, h.fPos]

theorem transfer_agrees {s : Lcminfo} {f : ByteFile} (h : Refines s f) (hsem : s.dev.sem ≠ 0)
    (file : Nat) (pos : Option Loff) {op : LcminfoDev → Loff → Option (LcminfoDev × Loff × Reply)}
    {spec : Cells UInt8 lcminfoSize → Nat → Cells UInt8 lcminfoSize × List UInt8 × Nat}
    (hop : CarriesOut op spec) :
    StepAgrees f (transfer s file pos op) (f.transfer file pos spec) := by
  cases hf : f.pos file with
  | none =>
    simp only [transfer, ByteFile.transfer, hf, h.fPos_none hf]
    exact .none
  | some p =>
    cases pos with
    | none =>
      obtain ⟨dev, reply, hrun, hdata, hsize, hans, hexp, hn⟩ := hop s.dev p.toLoff f.bytes
        h.data h.size hsem
      rw [Position.toLoff_toNat] at hrun hdata hans hexp hn
      have hneg : ¬ (p.toLoff.toInt < 0) := by rw [Position.toLoff_toInt]; omega
      have hret : (0 : Int) ≤ reply.ret := by
        have hr := congrArg Answer.ret hans
        simp only [Reply.answer] at hr
        omega
      rw [← Position.toLoff_advance (by omega)] at hrun
      simp only [transfer, ByteFile.transfer, hf, h.fPos_some hf, Option.bind_eq_bind,
        Option.bind_some, Option.getD_none, if_neg hneg, hrun, hret, and_self, if_true]
      exact .some ⟨⟨hdata, hsize, h.update file (some _)⟩, hans, hexp⟩
    | some q =>
      by_cases hneg : q.toInt < 0
      · simp only [transfer, ByteFile.transfer, hf, h.fPos_some hf, Option.bind_eq_bind,
          Option.bind_some, Option.getD_some, if_pos hneg]
        exact .none
      · obtain ⟨dev, reply, hrun, hdata, hsize, hans, hexp, _⟩ := hop s.dev q f.bytes
          h.data h.size hsem
        simp only [transfer, ByteFile.transfer, hf, h.fPos_some hf, Option.bind_eq_bind,
          Option.bind_some, Option.getD_some, if_neg hneg, hrun, reduceCtorEq, false_and, if_false]
        exact .some ⟨⟨hdata, hsize, h.update_self hf⟩, hans, hexp⟩

theorem lcminfoUnlockedIoctl_clean (dev : LcminfoDev) :
    lcminfoUnlockedIoctl lcminfoIocClean dev =
      ({ dev with data := splice dev.data 0 (List.replicate dev.size 0) },
        { ret := 0, access := some (.memset 0 dev.size) }) := by
  have hmagic : iocType lcminfoIocClean = lcminfoIocMagic := by decide
  have htest : lcminfoIocClean ≠ lcminfoIocTest := by decide
  simp [lcminfoUnlockedIoctl, hmagic, htest]

theorem unguarded_step {s : Lcminfo} {f : ByteFile} (h : Refines s f) {op : FileOp}
    (hop : op.Clamped) : StepAgrees f (unguarded.step s op) (byteFile.step f op) := by
  have hfree : Refines { s with dev := { s.dev with sem := 1 } } f := ⟨h.data, h.size, h.fPos⟩
  cases op with
  | opened file uid =>
    cases hf : f.pos file with
    | none =>
      have hopen : (lcminfoOpen uid { s.dev with sem := 1 }).data = f.bytes.flat ∧
          (lcminfoOpen uid { s.dev with sem := 1 }).size = lcminfoSize := by
        unfold lcminfoOpen
        split <;> exact ⟨h.data, h.size⟩
      simp only [unguarded, FileOp.call, lcminfo, byteFile, hf, h.fPos_none hf]
      exact .some ⟨⟨hopen.1, hopen.2, h.update file (some 0)⟩, rfl, Explains.quiet _ _⟩
    | some p =>
      simp only [unguarded, FileOp.call, lcminfo, byteFile, hf, h.fPos_some hf]
      exact .none
  | release file =>
    cases hf : f.pos file with
    | none =>
      simp only [unguarded, FileOp.call, lcminfo, byteFile, hf, h.fPos_none hf]
      exact .none
    | some p =>
      simp only [unguarded, FileOp.call, lcminfo, byteFile, hf, h.fPos_some hf]
      exact .some ⟨⟨h.data, h.size, h.update file none⟩, rfl, Explains.quiet _ _⟩
  | read file pos size =>
    exact transfer_agrees hfree (by simp) file pos (read_carriesOut hop)
  | write file pos buf =>
    exact transfer_agrees hfree (by simp) file pos (write_carriesOut hop)
  | llseek file offset whence =>
    cases hf : f.pos file with
    | none =>
      simp only [unguarded, FileOp.call, lcminfo, byteFile, hf, h.fPos_none hf]
      exact .none
    | some p =>
      simp only [unguarded, FileOp.call, lcminfo, byteFile, hf, h.fPos_some hf,
        Option.bind_eq_bind, Option.bind_some, lcminfoLlseek_eq]
      cases hseek : ByteFile.seek p offset.toInt whence with
      | none =>
        exact .some ⟨⟨h.data, h.size, h.update_self hf⟩, rfl, Explains.quiet _ _⟩
      | some q =>
        exact .some ⟨⟨h.data, h.size, h.update file (some q)⟩, rfl, Explains.quiet _ _⟩
  | clean file =>
    cases hf : f.pos file with
    | none =>
      simp only [unguarded, FileOp.call, lcminfo, byteFile, hf, h.fPos_none hf]
      exact .none
    | some p =>
      simp only [unguarded, FileOp.call, lcminfo, byteFile, hf, h.fPos_some hf,
        Option.bind_eq_bind, Option.bind_some, lcminfoUnlockedIoctl_clean]
      refine .some ⟨⟨?_, h.size, h.fPos⟩, rfl, ⟨rfl, fun access ha => ?_, rfl⟩⟩
      · simp only [h.data, h.size, Cells.flat_fill, splice]
        simp
      · simp only [Option.some.injEq] at ha
        rw [← ha, Access.Inside, h.size]

theorem unguarded_lockstep :
    Machine.Lockstep unguarded byteFile FileOp.Clamped id Refines Reply.answer :=
  fun _ _ _ h hop => Machine.rel_imp (fun _ _ hpq => ⟨hpq.1, hpq.2.1⟩) (unguarded_step h hop)

theorem refines_initial : Refines initial zeroed :=
  ⟨(Cells.flat_fill 0).symm, rfl, rfl⟩

/-! ## Histories -/

/-- All changes that the replies report, in order. -/
def changes (replies : List Reply) : List (Cells.Change UInt8) := replies.flatMap Reply.changes

/-- The bytes after these replies. -/
def written (replies : List Reply) : Cells UInt8 lcminfoSize :=
  (Cells.fill 0).applyAll (changes replies)

theorem written_append (replies : List Reply) (reply : Reply) :
    written (replies ++ [reply]) = (written replies).applyAll reply.changes := by
  simp [written, changes, Cells.applyAll_append]

/-- What the replies of a run say about the bytes of its last state. -/
structure Recorded (s : Lcminfo) (replies : List Reply) : Prop where
  refined : ∃ f, Refines s f ∧ f.bytes = written replies
  inside : ∀ reply ∈ replies, ∀ access, reply.access = some access → access.Inside
  explained : ∀ before reply after, replies = before ++ reply :: after →
    ∃ bytes', Explains (written before) bytes' reply

theorem Recorded.snoc {s t : Lcminfo} {replies : List Reply} {op : FileOp} {reply : Reply}
    (h : Recorded s replies) (hop : op.Clamped) (hstep : unguarded.step s op = some (t, reply)) :
    Recorded t (replies ++ [reply]) := by
  obtain ⟨f, href, hbytes⟩ := h.refined
  have hagree := unguarded_step href hop
  rw [hstep] at hagree
  cases hfile : byteFile.step f op with
  | none => rw [hfile] at hagree; cases hagree
  | some q =>
    rw [hfile] at hagree
    cases hagree with
    | some hq =>
      obtain ⟨href', _, hexp⟩ := hq
      rw [hbytes] at hexp
      refine ⟨⟨q.1, href', ?_⟩, fun r hr => ?_, fun before r after heq => ?_⟩
      · rw [written_append]
        exact hexp.changes
      · rcases List.mem_append.mp hr with hr | hr
        · exact h.inside r hr
        · rw [List.mem_singleton.mp hr]
          exact hexp.inside
      · -- the new reply is the last one, or `r` was explained before
        obtain ⟨rfl, rfl⟩ | ⟨after', hinit⟩ := Machine.snoc_split heq
        · exact ⟨q.1.bytes, hexp⟩
        · exact h.explained before r after' hinit

theorem recorded_run {ops : List FileOp} {t : Lcminfo} {replies : List Reply}
    (hops : ∀ op ∈ ops, op.Clamped) (h : unguarded.run initial ops = some (t, replies)) :
    Recorded t replies := by
  have hJ := Machine.run_history
    (J := fun s done rs => (∀ op ∈ done, FileOp.Clamped op) → Recorded s rs)
    (fun s done rs op u r ih hstep hall =>
      (ih fun o ho => hall o (List.mem_append_left [op] ho)).snoc (hall op (by simp)) hstep)
    (fun _ => ⟨⟨zeroed, refines_initial, rfl⟩, by simp, by simp⟩) h
  exact hJ hops

/-- Each byte a reply hands out is the one last written at its position. -/
def ReadsLastWritten (replies : List Reply) : Prop :=
  ∀ before reply after, replies = before ++ reply :: after →
    ∀ k (h : k < reply.toUser.length), ∃ p count, reply.access = some (.load p count) ∧
      reply.toUser[k] = Cells.lastAt 0 (p + k) (changes before)

theorem Recorded.readsLastWritten {s : Lcminfo} {replies : List Reply} (h : Recorded s replies) :
    ReadsLastWritten replies := by
  intro before reply after heq k hk
  obtain ⟨bytes', hexp⟩ := h.explained before reply after heq
  have htoUser := hexp.toUser
  cases hacc : reply.access with
  | none => simp [hacc, htoUser] at hk
  | some access =>
    cases access with
    | load p count =>
      refine ⟨p, count, rfl, ?_⟩
      simp only [hacc] at htoUser
      simp only [htoUser] at hk ⊢
      rw [Cells.getElem_read]
      exact Cells.applyAll_at _ _ _
    | store p bytes => simp [hacc, htoUser] at hk
    | memset c count => simp [hacc, htoUser] at hk

theorem Recorded.position_le {s : Lcminfo} {replies : List Reply} (h : Recorded s replies)
    {file : Nat} {p : Loff} (hp : s.fPos file = some p) : p.toNat ≤ lcminfoSize := by
  obtain ⟨f, href, _⟩ := h.refined
  rw [href.fPos, Option.map_eq_some_iff] at hp
  obtain ⟨q, _, rfl⟩ := hp
  rw [Position.toLoff_toNat]
  omega

/-- Leaving the semaphore aside, the driver is a file of 4096 bytes. -/
theorem lcminfo_refines_byteFile (ops : List FileOp) (hops : ∀ op ∈ ops, op.Clamped) :
    Machine.Agree Refines (List.map Reply.answer) (unguarded.run initial ops)
        (byteFile.run zeroed ops) ∧
      ∀ t replies, unguarded.run initial ops = some (t, replies) →
        ReadsLastWritten replies ∧
        (∀ reply ∈ replies, ∀ access, reply.access = some access → access.Inside) ∧
        ∀ file p, t.fPos file = some p → p.toNat ≤ lcminfoSize := by
  constructor
  · have hrun := unguarded_lockstep.run refines_initial hops
    rwa [List.map_id] at hrun
  · intro t replies hrun
    have hrec := recorded_run hops hrun
    exact ⟨hrec.readsLastWritten, hrec.inside, fun _ _ => hrec.position_le⟩

theorem lcminfo_refines_byteFile_write :
    Machine.Agree Refines (List.map Reply.answer)
      (unguarded.run initial
        [.opened 0 0, .write 0 none [7, 8, 9], .llseek 0 1 seekSet, .read 0 none 2, .clean 0])
      (byteFile.run zeroed
        [.opened 0 0, .write 0 none [7, 8, 9], .llseek 0 1 seekSet, .read 0 none 2, .clean 0]) :=
  (lcminfo_refines_byteFile _ (by simp [FileOp.Clamped])).1

end LcmInfo
end AtomDrivers
