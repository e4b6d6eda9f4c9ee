/-
How a lustre loop device is detached.

`loop_clr_fd` waits for the thread, and the thread goes only when it finds
`lo_pending` at 0.  If no submitter is on its way through `loop_make_request` then, a
detach that returns leaves no bio behind.  A detach that has come to wait gets what it
waits for while no submitter stands between its insertion and its `atomic_inc`: the
thread ends what it holds and then the list, in as few transfers as the list can be cut
into, and goes.  A bio that an earlier life left behind keeps the thread from ever
going.
-/
import AtomDrivers.Lloop.Accounting

namespace AtomDrivers
namespace Lloop

/-! ## What a detach that returns says -/

/-- No submitter stands between the first test of `loop_make_request` and its
`atomic_inc`. -/
def NoSubmitter {κ : Type*} (sh : Shared κ) : Prop :=
  sh.uncounted = 0 ∧ ∀ k, sh.phase k ≠ .checked ∧ sh.phase k ≠ .admitted

/-- The thread finds `lo_pending` at 0 only while there is no submitter. -/
def ReadQuiet {κ σ η : Type*} (s : Device κ σ η) (a : Act κ) : Prop :=
  a = .readPending → s.shared.loPending = 0 → NoSubmitter s.shared

instance {κ : Type*} [Fintype κ] (sh : Shared κ) : Decidable (NoSubmitter sh) :=
  inferInstanceAs (Decidable (_ ∧ _))

instance {κ σ η : Type*} [DecidableEq κ] [Fintype κ] (s : Device κ σ η) (a : Act κ) :
    Decidable (ReadQuiet s a) := inferInstanceAs (Decidable (_ → _ → _))

/-- The thread has found nothing pending, and may have gone since. -/
def Found {κ η : Type*} (sh : Shared κ) (v : Thread η) : Prop :=
  v = .unpending ∨ sh.control = .clearingFd ∧ sh.loSem ≠ 0

/-- Nothing is pending, and nothing is about to be. -/
def Still {κ : Type*} (sh : Shared κ) : Prop := sh.loPending = 0 ∧ NoSubmitter sh

section Found

variable {κ π : Type*} {w : Nat} {command : κ → Command} {bios : κ → Bio π w}
  {maxSegments : Nat} {t t' : Device κ (Queue κ) (List κ)} {sh : Shared κ} {q : Queue κ}
  {v : Thread (List κ)} {lf : Life κ} {os : List (Out κ)} {o : Out κ} {a : Act κ}

namespace Accounted

theorem thread_of_found (h : Accounted ⟨sh, q, v⟩ lf) (hfound : Found sh v) :
    sh.loState = .rundown ∧ (v = .unpending ∨ v = .absent) := by
  rcases hfound with rfl | ⟨hcontrol, hsem⟩
  · exact ⟨h.relies, Or.inl rfl⟩
  · have hstate := h.coupled.clearingFd hcontrol
    exact ⟨hstate, Or.inr ((h.coupled.rundown hstate).2.2.resolve_left hsem).2⟩

/-- Where there is nothing left that could be found, all bios have ended. -/
theorem all_ended (h : Accounted ⟨sh, q, v⟩ lf) (hfound : Found sh v) (hstill : Still sh) :
    lf.stranded = [] ∧ lf.inserted = lf.ended ∧ q.bios = [] := by
  obtain ⟨hstate, hthread⟩ := h.thread_of_found hfound
  have hcontrol := (h.coupled.rundown hstate).1
  have hclearing : lf.clearing = false := by
    rw [← Bool.not_eq_true, h.clearing]
    simp [show sh.control = .clearingFd from hcontrol]
  have hempty : v.hand = [] ∧ v.held = 0 := by
    rcases hthread with rfl | rfl <;> exact ⟨rfl, rfl⟩
  have hpending : sh.loPending = 0 := hstill.1
  have huncounted : sh.uncounted = 0 := hstill.2.1
  have hkept := h.kept
  have hbalance := h.balance
  simp only [hempty.1, hempty.2, hpending, huncounted, List.length_nil] at hkept hbalance
  have hfront : lf.ended <+: lf.inserted := by simpa using hkept.ended_prefix
  have hle := hfront.length_le
  have hstranded : lf.stranded = [] := List.eq_nil_of_length_eq_zero (by omega)
  have hended : lf.inserted = lf.ended := (hfront.eq_of_length (by omega)).symm
  refine ⟨hstranded, hended, ?_⟩
  cases hlate : lf.late with
  | true => exact (hkept.all_lost hclearing hlate).2.2.1
  | false =>
    have hall := hkept.all_there hclearing hlate
    rw [hended, List.nil_append] at hall
    exact List.self_eq_append_right.mp hall

end Accounted

/-- What the thread found stays so until the detach returns. -/
theorem found_step [DecidableEq κ] (hbios : Submittable bios maxSegments) (h : Accounted t lf)
    (hstill : Found t.shared t.thread → Still t.shared) (hread : ReadQuiet t a)
    (hstep : (machine (listed bios maxSegments) command).step t a = some (t', o))
    (hfound : Found t'.shared t'.thread) : Still t'.shared := by
  have hthread := h.thread_of_found
  cases listedStep_of_step hbios hstep with
  -- A submitter that goes on is one that there was.
  | checked k hphase hbound =>
    have hrundown := (hthread hfound).1
    rw [hbound] at hrundown
    cases hrundown
  | rejected k hphase => exact absurd hphase ((hstill hfound).2.2 k).1
  | accepted k hphase => exact absurd hphase ((hstill hfound).2.2 k).1
  | inserted k hphase => exact absurd hphase ((hstill hfound).2.2 k).2
  | counted n huncounted =>
    have hzero := (hstill hfound).2.1
    rw [huncounted] at hzero
    cases hzero
  | unchecked | attachRefused | detachRefused => exact hstill hfound
  | @started sh _ envOk =>
    have hcontrol : sh.control = .settingFd := h.coupled.starting.1
    rcases hfound with hfound | ⟨hfound, _⟩
    · cases envOk <;> cases hfound
    · rw [hcontrol] at hfound
      cases hfound
  | foundNone hzero => exact ⟨hzero, hread rfl hzero⟩
  | exited | stayed => exact hstill (Or.inl rfl)
  -- Elsewhere the thread has not found anything.
  | woken | foundSome | missed | fetched | asserted | crashed | handled | ended | settled =>
    have hafter := hthread (Or.inr (hfound.resolve_left (by simp)))
    simp at hafter
  | attaching readOnly hfree hunbound =>
    have hcoupled := h.coupled
    simp only [Coupled, hfree, hunbound] at hcoupled
    rcases hfound with hfound | ⟨hfound, _⟩
    · exact absurd (hcoupled.1.symm.trans hfound) (by simp)
    · cases hfound
  | tailCleared hbefore =>
    rcases hfound with hfound | ⟨hfound, _⟩
    · exact absurd ((h.coupled.emptying (Or.inl hbefore)).2.1.symm.trans hfound) (by simp)
    · cases hfound
  | bioCleared spawned hbefore =>
    obtain ⟨_, rfl, _⟩ := h.coupled.emptying (Or.inr hbefore)
    rcases hfound with hfound | ⟨hfound, _⟩
    · cases spawned <;> cases hfound
    · cases hfound
  | detaching hfree hbound =>
    have hcoupled := h.coupled
    simp only [Coupled, hfree, hbound] at hcoupled
    exact hstill (Or.inl (hfound.resolve_right fun hright => hright.2 hcoupled.2))
  | attachDone | detachDone =>
    exact hstill (Or.inl (hfound.resolve_right fun hright => by cases hright.1))

theorem still_of_found [DecidableEq κ] (hbios : Submittable bios maxSegments)
    {as : List (Act κ)} (h : listedRun bios maxSegments command as = some (t, os))
    (hquiet : (machine (listed bios maxSegments) command).AllSteps ReadQuiet bootListed as)
    (hfound : Found t.shared t.thread) : Still t.shared := by
  have hJ := Machine.run_history_of_allSteps
    (J := fun t _ os => Accounted t (life os) ∧ (Found t.shared t.thread → Still t.shared))
    (fun s bs ps a u o hJ hread hstep => ⟨life_snoc ps o ▸ accounted_step hbios hJ.1 hstep,
      found_step hbios hJ.1 hJ.2 hread hstep⟩)
    ⟨accounted_boot, fun hfound => by
      rcases hfound with hfound | ⟨hfound, _⟩ <;> cases hfound⟩ hquiet h
  exact hJ.2 hfound

end Found

/-- A detach that returns leaves no bio behind, neither of its life nor of an earlier
one, as long as the thread finds `lo_pending` at 0 only while no submitter is on its
way. -/
theorem ended_of_clrFdDone {κ π : Type*} {w : Nat} [DecidableEq κ] [Fintype κ]
    {command : κ → Command} {bios : κ → Bio π w} {maxSegments : Nat} {as : List (Act κ)}
    {s s' : Device κ (Links κ) (Option κ)} {os : List (Out κ)} {o : Out κ}
    (hbios : Submittable bios maxSegments)
    (h : linkedRun bios maxSegments command as = some (s, os))
    (hquiet : (machine (linked bios maxSegments) command).AllSteps ReadQuiet bootLinked as)
    (hstep : s.clrFdDone = some (s', o)) :
    (life os).stranded = [] ∧ (life os).inserted = (life os).ended ∧ s.queued = some [] := by
  obtain ⟨t, hlisted, hstands⟩ := exists_listed hbios h
  have hquiet' := ((lockstep command hbios).allSteps_iff (P := ReadQuiet) (Q := ReadQuiet)
    (fun s t a hs => by rw [ReadQuiet, ReadQuiet, hs.shared]; rfl) stands_boot as).mp hquiet
  rw [List.map_id] at hquiet'
  have hfound : Found t.shared t.thread := by
    rw [← hstands.shared]
    simp only [Device.clrFdDone] at hstep
    split at hstep
    · next n hcontrol hsem => exact Or.inr ⟨hcontrol, by omega⟩
    · cases hstep
  have hall := (accounted_run hbios hlisted).all_ended hfound
    (still_of_found hbios hlisted hquiet' hfound)
  refine ⟨hall.1, hall.2.1, ?_⟩
  rw [hstands.queued_eq, hall.2.2]

/-- A bio is transferred, and then the device is detached. -/
theorem ended_of_clrFdDone_two : ∃ s s' os,
    linkedRun twoBios 2 (fun _ => .read) (attachRun false ++ submitRun 1 ++ transferRun ++
      detachRun) = some (s, os) ∧ s.clrFdDone = some (s', .returned 0) ∧
    (life os).inserted = [1] ∧
      (life os).stranded = [] ∧ (life os).inserted = (life os).ended ∧ s.queued = some [] := by
  have hrun : linkedRun twoBios 2 (fun _ => .read) (attachRun false ++ submitRun 1 ++
      transferRun ++ detachRun) = some (_, _) := rfl
  exact ⟨_, _, _, hrun, rfl, rfl,
    ended_of_clrFdDone (.of_width_32 fun _ => Nat.le_succ 1) hrun (by decide) rfl⟩

/-! ## A detach that waits -/

/-- What `loop_thread` does, when every `do_bio_lustrebacked` returns `ret`, whether
(`asks`) or not it gets to the file. -/
def Act.OfThread {κ : Type*} (asks : Bool) (ret : Int) : Act κ → Prop
  | .wake => True
  | .readPending => True
  | .readState => True
  | .fetch => True
  | .assertPending => True
  | .handle b r => b = asks ∧ r = ret
  | .endio => True
  | .settle => True
  | _ => False

def Out.ended? {κ : Type*} : Out κ → Option κ
  | .ended k _ => some k
  | _ => none

def Out.handled? {κ : Type*} : Out κ → Option (List κ)
  | .handled ks _ => some ks
  | _ => none

/-- The thread is under way. -/
def Thread.Working {η : Type*} : Thread η → Prop
  | .waiting => True
  | .active => True
  | .unpending => True
  | .fetching => True
  | .fetched _ _ => True
  | .handling _ _ => True
  | .ending _ _ _ => True
  | _ => False

theorem Thread.Rel.working {η θ : Type*} {r : η → θ → Prop} {u : Thread η} {v : Thread θ}
    (h : Thread.Rel r u v) (hu : u.Working) : v.Working := by
  cases h <;> exact hu

section Drain

variable {κ π : Type*} {w : Nat} [DecidableEq κ] (command : κ → Command) (bios : κ → Bio π w)
  (maxSegments : Nat) (asks : Bool) (ret : Int)

/-- The thread alone leads from `t` to `t'`. -/
def ThreadRun (t : Device κ (Queue κ) (List κ)) (os : List (Out κ))
    (t' : Device κ (Queue κ) (List κ)) : Prop :=
  ∃ as, (∀ a ∈ as, Act.OfThread asks ret a) ∧
    (machine (listed bios maxSegments) command).run t as = some (t', os)

variable {command bios maxSegments asks ret}

theorem ThreadRun.single {t t' : Device κ (Queue κ) (List κ)} {a : Act κ} {o : Out κ}
    (ha : Act.OfThread asks ret a)
    (h : (machine (listed bios maxSegments) command).step t a = some (t', o)) :
    ThreadRun command bios maxSegments asks ret t [o] t' :=
  ⟨[a], by simpa using ha, Machine.run_singleton h⟩

theorem ThreadRun.trans {t u t' : Device κ (Queue κ) (List κ)} {os ps : List (Out κ)}
    (h : ThreadRun command bios maxSegments asks ret t os u)
    (h' : ThreadRun command bios maxSegments asks ret u ps t') :
    ThreadRun command bios maxSegments asks ret t (os ++ ps) t' := by
  obtain ⟨as, has, hrun⟩ := h
  obtain ⟨bs, hbs, hrun'⟩ := h'
  refine ⟨as ++ bs, fun a ha => ?_, Machine.run_append hrun hrun'⟩
  exact (List.mem_append.mp ha).elim (has a) (hbs a)

/-- What ending `n` bios does to the shared data, but for where the bios are. -/
structure Settled (sh sh' : Shared κ) (n : Nat) : Prop where
  uncounted : sh'.uncounted = sh.uncounted
  pending : sh'.loPending = sh.loPending - n
  state : sh'.loState = sh.loState
  sem : sh'.loSem = sh.loSem
  control : sh'.control = sh.control

variable (command bios maxSegments asks ret) in
/-- The bios in hand end, one after the other. -/
theorem exists_ends (sh : Shared κ) (l ks : List κ) (n : Nat) (r : Int) :
    ∃ sh' os, ThreadRun command bios maxSegments asks ret ⟨sh, .joined l, .ending ks n r⟩ os
        ⟨sh', .joined l, .waiting⟩ ∧ Settled sh sh' n ∧ os.filterMap Out.ended? = ks ∧
      os.filterMap Out.handled? = [] := by
  induction ks generalizing sh with
  | nil =>
    refine ⟨{ sh with loPending := sh.loPending - n }, [.silent], ?_, ⟨rfl, rfl, rfl, rfl, rfl⟩,
      rfl, rfl⟩
    exact .single (a := .settle) trivial rfl
  | cons k ks ih =>
    obtain ⟨sh', os, hrun, hsettled, hended, hhandled⟩ := ih (sh.setPhase k .idle)
    have hfirst : ThreadRun command bios maxSegments asks ret ⟨sh, .joined l, .ending (k :: ks) n r⟩
        [.ended k r] ⟨sh.setPhase k .idle, .joined l, .ending ks n r⟩ :=
      .single (a := .endio) trivial rfl
    refine ⟨sh', _, hfirst.trans hrun, ⟨hsettled.uncounted, hsettled.pending, hsettled.state,
      hsettled.sem, hsettled.control⟩, ?_, ?_⟩
    · rw [List.filterMap_append, hended]
      rfl
    · rw [List.filterMap_append, hhandled]
      rfl

variable (command bios maxSegments asks ret) in
/-- The thread does the transfer of the bios in hand and ends them. -/
theorem exists_handles (sh : Shared κ) (l ks : List κ) (n : Nat) :
    ∃ sh' os, ThreadRun command bios maxSegments asks ret ⟨sh, .joined l, .handling ks n⟩ os
        ⟨sh', .joined l, .waiting⟩ ∧ Settled sh sh' n ∧ os.filterMap Out.ended? = ks ∧
      os.filterMap Out.handled? = [ks] := by
  obtain ⟨sh', os, hrun, hsettled, hended, hhandled⟩ :=
    exists_ends command bios maxSegments asks ret sh l ks n ret
  have hfirst : ThreadRun command bios maxSegments asks ret ⟨sh, .joined l, .handling ks n⟩
      [.handled ks asks] ⟨sh, .joined l, .ending ks n ret⟩ :=
    .single (a := .handle asks ret) ⟨rfl, rfl⟩ rfl
  refine ⟨sh', _, hfirst.trans hrun, hsettled, ?_, ?_⟩
  · rw [List.filterMap_append, hended]
    rfl
  · rw [List.filterMap_append, hhandled]
    rfl

variable (command bios maxSegments asks ret) in
theorem exists_asserts {sh : Shared κ} {n : Nat} (hn : n ≤ sh.loPending) (l ks : List κ) :
    ∃ sh' os, ThreadRun command bios maxSegments asks ret ⟨sh, .joined l, .fetched ks n⟩ os
        ⟨sh', .joined l, .waiting⟩ ∧ Settled sh sh' n ∧ os.filterMap Out.ended? = ks ∧
      os.filterMap Out.handled? = [ks] := by
  obtain ⟨sh', os, hrun, hsettled, hended, hhandled⟩ :=
    exists_handles command bios maxSegments asks ret sh l ks n
  have hfirst : ThreadRun command bios maxSegments asks ret ⟨sh, .joined l, .fetched ks n⟩ [.silent]
      ⟨sh, .joined l, .handling ks n⟩ := by
    refine .single (a := .assertPending) trivial ?_
    simp only [machine, Device.step, Device.assertPending, if_pos hn]
  refine ⟨sh', _, hfirst.trans hrun, hsettled, ?_, ?_⟩
  · rw [List.filterMap_append, hended]
    rfl
  · rw [List.filterMap_append, hhandled]
    rfl

variable (command asks ret) in
/-- The thread takes the first batch of a list all of which is counted. -/
theorem exists_fetches (hbios : Submittable bios maxSegments) {sh : Shared κ} {l : List κ}
    (hl : l ≠ []) (hpending : sh.loPending = l.length) :
    ∃ sh' os, ThreadRun command bios maxSegments asks ret ⟨sh, .joined l, .fetching⟩ os
        ⟨sh', .joined (l.drop (batch bios maxSegments l).length), .waiting⟩ ∧
      Settled sh sh' (batch bios maxSegments l).length ∧
      os.filterMap Out.ended? = batch bios maxSegments l ∧
      os.filterMap Out.handled? = [batch bios maxSegments l] := by
  have hne := batch_ne_nil hbios hl
  have hle := (prefix_batch bios maxSegments l).length_le
  obtain ⟨sh', os, hrun, hsettled, hended, hhandled⟩ :=
    exists_asserts command bios maxSegments asks ret
      (show ((batch bios maxSegments l).length : Int) ≤ sh.loPending by omega)
      (l.drop (batch bios maxSegments l).length) (batch bios maxSegments l)
  have hcount : (batch bios maxSegments l).length ≠ 0 := fun hzero =>
    hne (List.eq_nil_of_length_eq_zero hzero)
  have hfirst : ThreadRun command bios maxSegments asks ret ⟨sh, .joined l, .fetching⟩ [.silent]
      ⟨sh, .joined (l.drop (batch bios maxSegments l).length),
        .fetched (batch bios maxSegments l) (batch bios maxSegments l).length⟩ := by
    refine .single (a := .fetch) trivial ?_
    simp only [machine, Device.step, Device.fetch, listed, listGet_eq hbios, Queue.bios,
      Queue.withBios, if_neg hcount]
  refine ⟨sh', _, hfirst.trans hrun, hsettled, ?_, ?_⟩
  · rw [List.filterMap_append, hended]
    rfl
  · rw [List.filterMap_append, hhandled]
    rfl

/-- A thread that is to go down does not sleep. -/
theorem wakes {sh : Shared κ} (hrundown : sh.loState = .rundown) (l : List κ) :
    ThreadRun command bios maxSegments asks ret ⟨sh, .joined l, .waiting⟩ [.silent]
      ⟨sh, .joined l, .active⟩ := by
  refine .single (a := .wake) trivial ?_
  simp [machine, Device.step, Device.wake, loopActive, hrundown]

/-- A thread that has found nothing pending goes when it is to go down. -/
theorem exits {sh : Shared κ} (hrundown : sh.loState = .rundown) (l : List κ) :
    ThreadRun command bios maxSegments asks ret ⟨sh, .joined l, .unpending⟩ [.exited]
      ⟨{ sh with loSem := sh.loSem + 1 }, .joined l, .absent⟩ := by
  refine .single (a := .readState) trivial ?_
  simp [machine, Device.step, Device.readState, hrundown]

omit [DecidableEq κ] in
theorem greedy_cons (hbios : Submittable bios maxSegments) {l : List κ} (hl : l ≠ [])
    (parts : List (List κ))
    (h : Batch.Greedy (OneTransfer bios maxSegments) (l.drop (batch bios maxSegments l).length)
      parts) :
    Batch.Greedy (OneTransfer bios maxSegments) l (batch bios maxSegments l :: parts) := by
  have hlongest : Batch.Longest (OneTransfer bios maxSegments) (batch bios maxSegments l) l :=
    Batch.longest_first l
  have hcons := Batch.Greedy.cons (batch_ne_nil hbios hl)
    ((batch_append_drop bios maxSegments l).symm ▸ hlongest) h
  rwa [batch_append_drop] at hcons

variable (command asks ret) in
/-- A thread that is to go down ends the list `l`, in the greedy batches, and goes. -/
theorem exists_drains (hbios : Submittable bios maxSegments) {l : List κ} {sh : Shared κ}
    (hrundown : sh.loState = .rundown) (hpending : sh.loPending = l.length) :
    ∃ sh' os, ThreadRun command bios maxSegments asks ret ⟨sh, .joined l, .active⟩ os
        ⟨sh', .joined [], .absent⟩ ∧
      sh'.control = sh.control ∧ sh'.loSem = sh.loSem + 1 ∧ os.filterMap Out.ended? = l ∧
      Batch.Greedy (OneTransfer bios maxSegments) l (os.filterMap Out.handled?) := by
  induction hn : l.length using Nat.strong_induction_on generalizing l sh with
  | _ n ih =>
    by_cases hl : l = []
    · subst hl
      have hzero : sh.loPending = 0 := hpending
      have hread : ThreadRun command bios maxSegments asks ret ⟨sh, .joined [], .active⟩ [.silent]
          ⟨sh, .joined [], .unpending⟩ := by
        refine .single (a := .readPending) trivial ?_
        simp [machine, Device.step, Device.readPending, hzero]
      exact ⟨_, _, hread.trans (exits hrundown []), rfl, rfl, rfl, .nil⟩
    · have hpos : 0 < l.length := List.length_pos_iff.mpr hl
      have hread : ThreadRun command bios maxSegments asks ret ⟨sh, .joined l, .active⟩ [.silent]
          ⟨sh, .joined l, .fetching⟩ := by
        refine .single (a := .readPending) trivial ?_
        have hne : ¬ sh.loPending = 0 := by omega
        simp [machine, Device.step, Device.readPending, hne]
      obtain ⟨sh₁, os₁, hrun₁, hsettled, hended₁, hhandled₁⟩ :=
        exists_fetches command asks ret hbios hl hpending
      have hcons := greedy_cons hbios hl
      have hbatch := batch_ne_nil hbios hl
      have hsplit := batch_append_drop bios maxSegments l
      generalize batch bios maxSegments l = b at *
      have hlength := congrArg List.length hsplit
      rw [List.length_append] at hlength
      have hb : 0 < b.length := List.length_pos_iff.mpr hbatch
      have hrundown₁ : sh₁.loState = .rundown := hsettled.state.trans hrundown
      have hpending₁ : sh₁.loPending = (l.drop b.length).length := by
        rw [hsettled.pending, hpending]
        omega
      obtain ⟨sh₂, os₂, hrun₂, hcontrol, hsem, hended₂, hgreedy⟩ :=
        ih (l.drop b.length).length (by omega) hrundown₁ hpending₁ rfl
      have hall := hread.trans (hrun₁.trans ((wakes hrundown₁ (l.drop b.length)).trans hrun₂))
      refine ⟨sh₂, _, hall, hcontrol.trans hsettled.control, ?_, ?_, ?_⟩
      · rw [hsem, hsettled.sem]
      · rw [List.filterMap_append, List.filterMap_append, List.filterMap_append, hended₁, hended₂]
        exact hsplit
      · rw [List.filterMap_append, List.filterMap_append, List.filterMap_append, hhandled₁]
        exact hcons _ hgreedy

/-- The same from where the thread next waits. -/
theorem exists_continues (hbios : Submittable bios maxSegments) {sh sh₁ : Shared κ}
    {l l₁ : List κ} {v : Thread (List κ)} {os₁ : List (Out κ)} {n : Nat}
    (hrun : ThreadRun command bios maxSegments asks ret ⟨sh, .joined l, v⟩ os₁
      ⟨sh₁, .joined l₁, .waiting⟩)
    (hsettled : Settled sh sh₁ n) (hrundown : sh.loState = .rundown)
    (hpending : sh.loPending = l₁.length + n) :
    ∃ sh' os₂, ThreadRun command bios maxSegments asks ret ⟨sh, .joined l, v⟩ (os₁ ++ os₂)
        ⟨sh', .joined [], .absent⟩ ∧
      sh'.control = sh.control ∧ sh'.loSem = sh.loSem + 1 ∧ os₂.filterMap Out.ended? = l₁ ∧
      Batch.Greedy (OneTransfer bios maxSegments) l₁ (os₂.filterMap Out.handled?) := by
  have hrundown₁ : sh₁.loState = .rundown := hsettled.state.trans hrundown
  have hpending₁ : sh₁.loPending = l₁.length := by
    rw [hsettled.pending, hpending]
    omega
  obtain ⟨sh', os₂, hrun₂, hcontrol, hsem, hended, hgreedy⟩ :=
    exists_drains command asks ret hbios hrundown₁ hpending₁
  refine ⟨sh', [.silent] ++ os₂, hrun.trans ((wakes hrundown₁ l₁).trans hrun₂),
    hcontrol.trans hsettled.control, ?_, ?_, ?_⟩
  · rw [hsem, hsettled.sem]
  · rw [List.filterMap_append, hended]
    rfl
  · rw [List.filterMap_append]
    exact hgreedy

variable (command asks ret) in
/-- A thread under way, on which a detach waits, ends what it holds and then the list,
unless it has found nothing pending too early. -/
theorem exists_detaches (hbios : Submittable bios maxSegments) {sh : Shared κ} {l : List κ}
    {v : Thread (List κ)} {lf : Life κ} (hacc : Accounted ⟨sh, .joined l, v⟩ lf)
    (hcontrol : sh.control = .clearingFd) (hworking : v.Working)
    (hfound : v = .unpending → sh.loPending = 0) (huncounted : sh.uncounted = 0)
    (hlate : lf.late = false) (hstranded : lf.stranded = []) :
    ∃ sh' os', ThreadRun command bios maxSegments asks ret ⟨sh, .joined l, v⟩ os'
        ⟨sh', .joined [], .absent⟩ ∧
      sh'.control = .clearingFd ∧ sh'.loSem = 1 ∧ os'.filterMap Out.ended? = v.hand ++ l ∧
      ∃ first parts, os'.filterMap Out.handled? = first ++ parts ∧ first.length ≤ 1 ∧
        Batch.Greedy (OneTransfer bios maxSegments) l parts := by
  have hcoupled : Coupled sh v := hacc.coupled
  have hrelies : v.Relies sh := hacc.relies
  have habsent : v ≠ .absent := by
    rintro rfl
    exact hworking
  have hbalance : sh.loPending + sh.uncounted = l.length + v.held + lf.stranded.length :=
    hacc.queue_balance habsent hlate
  rw [huncounted, hstranded, List.length_nil] at hbalance
  have hrundown : sh.loState = .rundown := hcoupled.clearingFd hcontrol
  have hsem : sh.loSem = 0 :=
    (hcoupled.rundown hrundown).2.2.resolve_right fun hone => habsent hone.2
  cases v with
  | waiting =>
    obtain ⟨sh', os₂, hrun, hc, hs, hended, hgreedy⟩ :=
      exists_drains command asks ret hbios hrundown
        (show sh.loPending = l.length by simpa [Thread.held] using hbalance)
    refine ⟨sh', _, (wakes hrundown l).trans hrun, hc.trans hcontrol, by omega, ?_, [], _, rfl,
      Nat.zero_le 1, hgreedy⟩
    rw [List.filterMap_append, hended]
    rfl
  | active =>
    obtain ⟨sh', os₂, hrun, hc, hs, hended, hgreedy⟩ :=
      exists_drains command asks ret hbios hrundown
        (show sh.loPending = l.length by simpa [Thread.held] using hbalance)
    exact ⟨sh', os₂, hrun, hc.trans hcontrol, by omega, hended, [], _, rfl, Nat.zero_le 1, hgreedy⟩
  | unpending =>
    have hpending : sh.loPending = l.length := by simpa [Thread.held] using hbalance
    obtain rfl : l = [] := List.eq_nil_of_length_eq_zero (by have := hfound rfl; omega)
    exact ⟨_, _, exits hrundown [], hcontrol, by simp [hsem], rfl, [], [], rfl, Nat.zero_le 1, .nil⟩
  | fetching =>
    have hpending : sh.loPending = l.length := by simpa [Thread.held] using hbalance
    have hpos : 0 < sh.loPending := hrelies
    have hl : l ≠ [] := by
      intro hnil
      rw [hnil, List.length_nil] at hpending
      omega
    obtain ⟨sh₁, os₁, hrun₁, hsettled, hended₁, hhandled₁⟩ :=
      exists_fetches command asks ret hbios hl hpending
    have hcons := greedy_cons hbios hl
    have hsplit := batch_append_drop bios maxSegments l
    generalize batch bios maxSegments l = b at *
    have hlength := congrArg List.length hsplit
    rw [List.length_append] at hlength
    obtain ⟨sh', os₂, hrun, hc, hs, hended, hgreedy⟩ :=
      exists_continues hbios hrun₁ hsettled hrundown (by omega)
    refine ⟨sh', _, hrun, hc.trans hcontrol, by omega, ?_, [], _, ?_, Nat.zero_le 1,
      hcons _ hgreedy⟩
    · rw [List.filterMap_append, hended₁, hended]
      exact hsplit
    · rw [List.filterMap_append, hhandled₁]
      rfl
  | fetched ks n =>
    have hpending : sh.loPending = l.length + n := by simpa [Thread.held] using hbalance
    obtain ⟨sh₁, os₁, hrun₁, hsettled, hended₁, hhandled₁⟩ :=
      exists_asserts command bios maxSegments asks ret
        (show (n : Int) ≤ sh.loPending by omega) l ks
    obtain ⟨sh', os₂, hrun, hc, hs, hended, hgreedy⟩ :=
      exists_continues hbios hrun₁ hsettled hrundown hpending
    refine ⟨sh', _, hrun, hc.trans hcontrol, by omega, ?_, [ks], _, ?_, Nat.le_refl 1, hgreedy⟩
    · rw [List.filterMap_append, hended₁, hended]
      rfl
    · rw [List.filterMap_append, hhandled₁]
  | handling ks n =>
    have hpending : sh.loPending = l.length + n := by simpa [Thread.held] using hbalance
    obtain ⟨sh₁, os₁, hrun₁, hsettled, hended₁, hhandled₁⟩ :=
      exists_handles command bios maxSegments asks ret sh l ks n
    obtain ⟨sh', os₂, hrun, hc, hs, hended, hgreedy⟩ :=
      exists_continues hbios hrun₁ hsettled hrundown hpending
    refine ⟨sh', _, hrun, hc.trans hcontrol, by omega, ?_, [ks], _, ?_, Nat.le_refl 1, hgreedy⟩
    · rw [List.filterMap_append, hended₁, hended]
      rfl
    · rw [List.filterMap_append, hhandled₁]
  | ending ks n r =>
    have hpending : sh.loPending = l.length + n := by simpa [Thread.held] using hbalance
    obtain ⟨sh₁, os₁, hrun₁, hsettled, hended₁, hhandled₁⟩ :=
      exists_ends command bios maxSegments asks ret sh l ks n r
    obtain ⟨sh', os₂, hrun, hc, hs, hended, hgreedy⟩ :=
      exists_continues hbios hrun₁ hsettled hrundown hpending
    refine ⟨sh', _, hrun, hc.trans hcontrol, by omega, ?_, [], _, ?_, Nat.zero_le 1, hgreedy⟩
    · rw [List.filterMap_append, hended₁, hended]
      rfl
    · rw [List.filterMap_append, hhandled₁]
  | _ => exact hworking.elim

end Drain

/-- A detach that waits for a thread under way can return, by what the thread does
alone: while no submitter stands before its `atomic_inc` and no earlier life left a
bio behind, the thread ends the bios in hand and those of the list in order, those of
the list in the fewest transfers there are.  A thread that has found `lo_pending` at 0
must find it so still: it does not look again. -/
theorem exists_detach {κ π : Type*} {w : Nat} [DecidableEq κ] [Fintype κ]
    {command : κ → Command} {bios : κ → Bio π w} {maxSegments : Nat} {as : List (Act κ)}
    {s : Device κ (Links κ) (Option κ)} {os : List (Out κ)}
    (hbios : Submittable bios maxSegments)
    (h : linkedRun bios maxSegments command as = some (s, os))
    (hcontrol : s.shared.control = .clearingFd) (hworking : s.thread.Working)
    (hfound : s.thread = .unpending → s.shared.loPending = 0) (huncounted : s.shared.uncounted = 0)
    (hstranded : (life os).stranded = []) (asks : Bool) (ret : Int) :
    ∃ hand queue as' s' s'' os' first parts,
      s.inHand = some hand ∧ s.queued = some queue ∧ (∀ a ∈ as', Act.OfThread asks ret a) ∧
      (machine (linked bios maxSegments) command).run s as' = some (s', os') ∧
      s'.clrFdDone = some (s'', .returned 0) ∧ s''.queued = some [] ∧
      os'.filterMap Out.ended? = hand ++ queue ∧
      os'.filterMap Out.handled? = first ++ parts ∧ first.length ≤ 1 ∧ parts.flatten = queue ∧
      (∀ b ∈ parts, OneTransfer bios maxSegments b) ∧
      ∀ other : List (List κ), (∀ b ∈ other, OneTransfer bios maxSegments b) →
        other.flatten = queue →
        parts.length ≤ other.length := by
  obtain ⟨t, hlisted, hstands⟩ := exists_listed hbios h
  have hacc := accounted_run hbios hlisted
  have hworking' : t.thread.Working := hstands.thread.working hworking
  obtain ⟨sh, q, v⟩ := t
  have hfound' : v = .unpending → sh.loPending = 0 := by
    have hshared : s.shared = sh := hstands.shared
    rw [← hshared]
    exact fun hv => hfound (hstands.thread.unpending_iff.mpr hv)
  have habsent : v ≠ .absent := by
    rintro rfl
    exact hworking'
  obtain ⟨hlate, l, rfl⟩ := hacc.joined habsent hstranded
  have hshared : s.shared = sh := hstands.shared
  rw [hshared] at hcontrol huncounted
  obtain ⟨sh', os', ⟨as', hthread, hrun⟩, hc, hs, hended, first, parts, hhandled, hfirst,
    hgreedy⟩ := exists_detaches command asks ret hbios hacc hcontrol hworking' hfound'
      huncounted hlate hstranded
  have hagree := (lockstep command hbios).run hstands fun a (_ : a ∈ as') => trivial
  rw [List.map_id, hrun] at hagree
  cases hlinked : (machine (linked bios maxSegments) command).run s as' with
  | none => rw [hlinked] at hagree; cases hagree
  | some p =>
    rw [hlinked] at hagree
    cases hagree with
    | some hp =>
      have hstands' := hp.1
      have hout : p.2.map id = os' := hp.2
      rw [List.map_id] at hout
      have hdone : p.1.clrFdDone = some ({ p.1 with
          shared :=
            { p.1.shared with
              loSem := 0
              readOnly := false
              loState := .unbound
              control := .free } }, .returned 0) := by
        have hshared' : p.1.shared = sh' := hstands'.shared
        simp only [Device.clrFdDone, hshared', hc, hs]
      refine ⟨v.hand, l, as', p.1, _, os', first, parts, hstands.inHand_eq, hstands.queued_eq,
        hthread, by rw [hlinked, ← hout], hdone, hstands'.queued_eq, hended, hhandled, hfirst,
        hgreedy.flatten, hgreedy.fits_of_mem, fun other hother hflat => ?_⟩
      exact hgreedy.minimal (fun l m hm hl => hl.suffix hm) hother hflat

theorem exists_detach_one : ∃ s os,
    linkedRun twoBios 2 (fun _ => .read) (attachRun false ++ submitRun 1 ++ [.count, .clrFd]) =
      some (s, os) ∧
    ∃ hand queue as' s' s'' os' first parts,
      s.inHand = some hand ∧ s.queued = some queue ∧ (∀ a ∈ as', Act.OfThread true (-5) a) ∧
      (machine (linked twoBios 2) fun _ => .read).run s as' = some (s', os') ∧
      s'.clrFdDone = some (s'', .returned 0) ∧ s''.queued = some [] ∧
      os'.filterMap Out.ended? = hand ++ queue ∧
      os'.filterMap Out.handled? = first ++ parts ∧ first.length ≤ 1 ∧ parts.flatten = queue ∧
      (∀ b ∈ parts, OneTransfer twoBios 2 b) ∧
      ∀ other : List (List (Fin 2)), (∀ b ∈ other, OneTransfer twoBios 2 b) →
        other.flatten = queue → parts.length ≤ other.length := by
  have hrun : linkedRun twoBios 2 (fun _ => .read)
    (attachRun false ++ submitRun 1 ++ [.count, .clrFd]) = some (_, _) := rfl
  exact ⟨_, _, hrun, exists_detach (.of_width_32 fun _ => Nat.le_succ 1) hrun rfl trivial
    (fun hthread => by cases hthread) rfl rfl true (-5)⟩

end Lloop
end AtomDrivers
