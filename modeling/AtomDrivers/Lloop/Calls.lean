/-
The calls of a lustre loop device and the device.

In `Attach` a `loop_set_fd` or `loop_clr_fd` is one step, and `loop_thread` no more than
a flag.  In `Device` each of the two is several actions among those of the submitters
and of the thread.  What the runs of the device return is what a sequence of such calls
returns, and between two calls the flag says whether the thread is there.

The calls that never come back are those of the device: while its holder of the mutex
waits and there is no thread to wake it, no run returns.
-/
import AtomDrivers.Machine.Refine
import AtomDrivers.Lloop.Attach
import AtomDrivers.Lloop.Accounting

namespace AtomDrivers
namespace Lloop

open Linux

inductive FdCall (φ : Type*)
  | setFd (file : φ) (env : AttachEnv)
  | clrFd (count : Int) (ends : Bool)

/-- The calls on one device, with `lloop_mutex` held. -/
def fdMachine {n : Nat} {φ ι : Type*} [DecidableEq φ] (files : φ → FileInfo ι) (sectorBits : Nat)
    (i : Fin n) : Machine (Module n φ) (FdCall φ) (Reply n) :=
  ⟨fun m c =>
    if m.stuck then none
    else
      match c with
      | .setFd file env => some (loopSetFd files sectorBits m i file env)
      | .clrFd count ends => some (loopClrFd m i count ends)⟩

/-- What a caller sees of an output. -/
def Out.reply? {κ : Type*} (n : Nat) : Out κ → Option (Reply n)
  | .returned err => some (.done err none)
  | _ => none

section Serving

variable {n : Nat} {κ φ : Type*}

/-- What a device in `Attach` says of the device between its calls and during one. -/
def Lo.Shows (lo : Lo φ) (sh : Shared κ) (v : Thread (List κ)) : Prop :=
  match sh.control with
  | .free =>
    lo.loState = sh.loState ∧ lo.readOnly = sh.readOnly ∧ (lo.alive = true ↔ v ≠ .absent)
  | .clearingFd => lo.loState = .bound ∧ (v ≠ .absent ∨ sh.loSem ≠ 0 → lo.alive = true)
  | _ => lo.loState = .unbound

/-- No call is on its way in `Attach`, and its device is that of `Device`. -/
structure Serving (i : Fin n) (t : Device κ (Queue κ) (List κ)) (m : Module n φ) : Prop where
  accounted : ∃ lf, Accounted t lf
  shows : (m.lo i).Shows t.shared t.thread
  file : (m.lo i).loState = .bound → (m.lo i).loBackingFile ≠ none
  whole : (m.lo i).loOffset = 0 ∧ (m.lo i).loSizelimit = 0
  refcnt : (m.lo i).loRefcnt = 0
  stuck : m.stuck = false

theorem serving_boot (i : Fin n) :
    Serving i (bootListed : Device κ (Queue κ) (List κ)) (fresh n φ) where
  accounted := ⟨.first, accounted_boot⟩
  shows := ⟨rfl, rfl, by simp [fresh, Lo.zeroed, bootListed]⟩
  file := fun h => by cases h
  whole := ⟨rfl, rfl⟩
  refcnt := rfl
  stuck := rfl

theorem Lo.Shows.congr {lo : Lo φ} {sh sh' : Shared κ} {v : Thread (List κ)} (h : lo.Shows sh v)
    (hcontrol : sh'.control = sh.control) (hstate : sh'.loState = sh.loState)
    (hreadOnly : sh'.readOnly = sh.readOnly) (hsem : sh'.loSem = sh.loSem) : lo.Shows sh' v := by
  unfold Lo.Shows at h ⊢
  rw [hcontrol, hstate, hreadOnly, hsem]
  exact h

/-- The thread goes on. -/
theorem Lo.Shows.move {lo : Lo φ} {sh : Shared κ} {v v' : Thread (List κ)} (h : lo.Shows sh v)
    (hv : v ≠ .absent) (hv' : v' ≠ .absent) : lo.Shows sh v' := by
  unfold Lo.Shows at h ⊢
  split
  · next hcontrol =>
    rw [hcontrol] at h
    exact ⟨h.1, h.2.1, h.2.2.trans (by simp [hv, hv'])⟩
  · next hcontrol =>
    rw [hcontrol] at h
    exact ⟨h.1, fun _ => h.2 (Or.inl hv)⟩
  · next hfree hclearing =>
    split at h
    · next hcontrol => exact absurd hcontrol hfree
    · next hcontrol => exact absurd hcontrol hclearing
    · exact h

/-- A device that is being attached is still a free one for its caller. -/
theorem Lo.Shows.attaching {lo : Lo φ} {sh : Shared κ} {v : Thread (List κ)} (h : lo.Shows sh v)
    (hfree : sh.control ≠ .free) (hclearing : sh.control ≠ .clearingFd) :
    lo.loState = .unbound := by
  unfold Lo.Shows at h
  split at h
  · next hcontrol => exact absurd hcontrol hfree
  · next hcontrol => exact absurd hcontrol hclearing
  · exact h

theorem Lo.Shows.of_attaching {lo : Lo φ} {sh : Shared κ} {v : Thread (List κ)}
    (hfree : sh.control ≠ .free) (hclearing : sh.control ≠ .clearingFd)
    (h : lo.loState = .unbound) : lo.Shows sh v := by
  unfold Lo.Shows
  split
  · next hcontrol => exact absurd hcontrol hfree
  · next hcontrol => exact absurd hcontrol hclearing
  · exact h

end Serving

/-! ## Each step is a call or none -/

section Steps

variable {n : Nat} {κ π φ ι : Type*} {w sectorBits : Nat} [DecidableEq φ] {files : φ → FileInfo ι}
  {command : κ → Command} {bios : κ → Bio π w} {maxSegments : Nat} {i : Fin n} {m : Module n φ}
  {sh : Shared κ} {q : Queue κ} {v : Thread (List κ)}

variable (files sectorBits) in
/-- An attachment that the device has done. -/
theorem setFd_serving (h : Serving i ⟨sh, q, v⟩ m) (hunbound : (m.lo i).loState = .unbound)
    {file : φ} (hfile : (files file).isReg = true ∧ (files file).isLustre = true) (envOk : Bool) :
    ∃ m', (fdMachine files sectorBits i).run m [.setFd file ⟨true, none, true, 0, true, envOk⟩] =
        some (m', [.done 0 none]) ∧ m'.stuck = false ∧
      m'.lo i = { m.lo i with
        loDevice := true
        readOnly := !(files file).writable
        loBackingFile := some file
        loSizelimit := 0
        loState := .bound
        alive := envOk } := by
  refine ⟨{ (m.setLo i { m.lo i with
        loDevice := true
        readOnly := !(files file).writable
        loBackingFile := some file
        loSizelimit := 0
        loState := .bound
        alive := envOk }) with moduleRefs := m.moduleRefs + 1 }, ?_, h.stuck, setLo_self i _⟩
  refine Machine.run_singleton ?_
  simp [fdMachine, h.stuck, loopSetFd, hunbound, hfile, getLoopSize, h.whole, Module.setLo]

variable (files sectorBits) in
/-- A detach that the device has done. -/
theorem clrFd_serving (h : Serving i ⟨sh, q, v⟩ m) (hbound : (m.lo i).loState = .bound)
    (halive : (m.lo i).alive = true) :
    ∃ m', (fdMachine files sectorBits i).run m [.clrFd 0 true] = some (m', [.done 0 none]) ∧
      m'.stuck = false ∧ m'.lo i = .zeroed := by
  obtain ⟨filp, hfilp⟩ := Option.ne_none_iff_exists'.mp (h.file hbound)
  have hrefcnt : (m.lo i).loRefcnt = 0 := h.refcnt
  refine ⟨{ (m.setLo i .zeroed).fput filp with moduleRefs := m.moduleRefs - 1 }, ?_, h.stuck,
    setLo_self i _⟩
  refine Machine.run_singleton ?_
  simp [fdMachine, h.stuck, loopClrFd, hbound, hfilp, halive, hrefcnt, Module.setLo, Lo.zeroed]

/-- Each step of the device is a call that returns what it does, or none. -/
theorem exists_calls_step [DecidableEq κ] (hbios : Submittable bios maxSegments)
    (hfiles : ∀ readOnly, ∃ file, ((files file).isReg = true ∧ (files file).isLustre = true) ∧
      (files file).writable = !readOnly)
    {t t' : Device κ (Queue κ) (List κ)} {a : Act κ} {o : Out κ} (h : Serving i t m)
    (hstep : (machine (listed bios maxSegments) command).step t a = some (t', o)) :
    ∃ cs replies m', (fdMachine files sectorBits i).run m cs = some (m', replies) ∧
      Serving i t' m' ∧ replies.map id = (o.reply? n).toList := by
  obtain ⟨lf, hacc⟩ := h.accounted
  have hacc' : ∃ lf, Accounted t' lf := ⟨_, accounted_step hbios hacc hstep⟩
  have hshows := h.shows
  -- The device takes no call and `Attach` sees the same device.
  have hstutter : o.reply? n = none → (m.lo i).Shows t'.shared t'.thread →
      ∃ cs replies m', (fdMachine files sectorBits i).run m cs = some (m', replies) ∧
        Serving i t' m' ∧ replies.map id = (o.reply? n).toList := fun ho hafter =>
    ⟨[], [], m, rfl, ⟨hacc', hafter, h.file, h.whole, h.refcnt, h.stuck⟩, by rw [ho]; rfl⟩
  cases listedStep_of_step hbios hstep with
  | checked | rejected | accepted | inserted | counted =>
    exact hstutter rfl (hshows.congr rfl rfl rfl rfl)
  | unchecked => exact hstutter rfl hshows
  | @started sh _ envOk =>
    have hcontrol : sh.control = .settingFd := hacc.coupled.starting.1
    exact hstutter rfl (.of_attaching (by simp [hcontrol]) (by simp [hcontrol])
      (hshows.attaching (by simp [hcontrol]) (by simp [hcontrol])))
  | woken | foundNone | foundSome | stayed | missed | fetched | asserted | crashed | handled =>
    exact hstutter rfl (hshows.move (by simp) (by simp))
  | ended | settled =>
    exact hstutter rfl ((hshows.move (by simp) (by simp)).congr rfl rfl rfl rfl)
  | @exited sh _ hrundown =>
    have hcontrol : sh.control = .clearingFd := (hacc.coupled.rundown hrundown).1
    simp only [Lo.Shows, hcontrol] at hshows
    refine hstutter rfl ?_
    simp only [Lo.Shows, hcontrol]
    exact ⟨hshows.1, fun _ => hshows.2 (Or.inl (by simp))⟩
  | @attaching sh _ v readOnly hfree hunbound =>
    simp only [Lo.Shows, hfree] at hshows
    exact hstutter rfl (.of_attaching (by simp) (by simp) (hshows.1.trans hunbound))
  | @attachRefused sh q v readOnly hfree hstate =>
    obtain ⟨file, -, -⟩ := hfiles readOnly
    simp only [Lo.Shows, hfree] at hshows
    have hne : (m.lo i).loState ≠ .unbound := fun heq => hstate (hshows.1.symm.trans heq)
    refine ⟨[.setFd file cleanEnv], [.done (-EBUSY) none], m, Machine.run_singleton ?_,
      ⟨hacc', h.shows, h.file, h.whole, h.refcnt, h.stuck⟩, rfl⟩
    simp [fdMachine, h.stuck, loopSetFd, cleanEnv, hne]
  | tailCleared hbefore | bioCleared spawned hbefore =>
    exact hstutter rfl (.of_attaching (by simp) (by simp)
      (hshows.attaching (by simp [hbefore]) (by simp [hbefore])))
  | @attachDone sh q v k hsetting hsem =>
    obtain ⟨file, hfile, hwritable⟩ := hfiles sh.readOnly
    have hunbound := hshows.attaching (by simp [hsetting]) (by simp [hsetting])
    obtain ⟨m', hrun, hstuck, hlo⟩ := setFd_serving sectorBits files h hunbound hfile
      (decide (v ≠ .absent))
    have hbound : sh.loState = .bound := by
      have hcoupled := hacc.coupled
      simp only [Coupled, hsetting, hsem] at hcoupled
      cases hstate : sh.loState with
      | bound => rfl
      | unbound => rw [hstate] at hcoupled; exact absurd hcoupled.2 (Nat.succ_ne_zero k)
      | rundown => rw [hstate] at hcoupled; exact hcoupled.elim
    refine ⟨_, _, m', hrun, ⟨hacc', ?_, by simp [hlo], by simp [hlo, h.whole],
      by simp [hlo, h.refcnt], hstuck⟩, rfl⟩
    simp [Lo.Shows, hlo, hwritable, hbound]
  | @detaching sh q v hfree hbound =>
    have hcoupled := hacc.coupled
    simp only [Coupled, hfree, hbound] at hcoupled
    simp only [Lo.Shows, hfree] at hshows
    refine hstutter rfl ⟨hshows.1.trans hbound, fun halive => ?_⟩
    exact hshows.2.2.mpr (halive.resolve_right fun hsem => hsem hcoupled.2)
  | @detachRefused sh q v hfree hstate =>
    simp only [Lo.Shows, hfree] at hshows
    have hne : (m.lo i).loState ≠ .bound := fun heq => hstate (hshows.1.symm.trans heq)
    refine ⟨[.clrFd 0 true], [.done (- ENXIO) none], m, Machine.run_singleton ?_,
      ⟨hacc', h.shows, h.file, h.whole, h.refcnt, h.stuck⟩, rfl⟩
    simp [fdMachine, h.stuck, loopClrFd, hne]
  | @detachDone sh q v k hclearing hsem =>
    simp only [Lo.Shows, hclearing] at hshows
    have halive := hshows.2 (Or.inr (by omega))
    obtain ⟨m', hrun, hstuck, hlo⟩ := clrFd_serving sectorBits files h hshows.1
      halive
    have habsent : v = .absent := by
      have hcoupled : Coupled sh v := hacc.coupled
      have hrundown := hcoupled.rundown (hcoupled.clearingFd hclearing)
      exact (hrundown.2.2.resolve_left (by omega)).2
    refine ⟨_, _, m', hrun, ⟨hacc', ?_, by simp [hlo, Lo.zeroed], by simp [hlo, Lo.zeroed],
      by simp [hlo, Lo.zeroed], hstuck⟩, rfl⟩
    simp [Lo.Shows, hlo, Lo.zeroed, habsent]

end Steps

/-! ## Linked bios -/

section Linked

variable {n : Nat} {κ π φ ι : Type*} {w sectorBits : Nat} [DecidableEq φ] [DecidableEq κ]
  [Fintype κ] {files : φ → FileInfo ι} {command : κ → Command} {bios : κ → Bio π w}
  {maxSegments : Nat}

/-- What a run of the device returns is what a sequence of calls on a device of `Attach`
returns.  Between two calls this device is in the state of the other, and its flag says
whether the thread is there. -/
theorem exists_calls (hbios : Submittable bios maxSegments)
    (hfiles : ∀ readOnly, ∃ file, ((files file).isReg = true ∧ (files file).isLustre = true) ∧
      (files file).writable = !readOnly)
    (i : Fin n) {as : List (Act κ)} {s : Device κ (Links κ) (Option κ)} {os : List (Out κ)}
    (h : linkedRun bios maxSegments command as = some (s, os)) :
    ∃ cs replies m, (fdMachine files sectorBits i).run (fresh n φ) cs = some (m, replies) ∧
      replies = os.filterMap (Out.reply? n) ∧
      (s.shared.control = .free →
        (m.lo i).loState = s.shared.loState ∧ (m.lo i).readOnly = s.shared.readOnly ∧
          ((m.lo i).alive = true ↔ s.thread ≠ .absent)) := by
  obtain ⟨t, hlisted, hstands⟩ := exists_listed hbios h
  obtain ⟨cs, replies, m, hrun, hserving, hreplies⟩ :=
    Machine.exists_run_of_steps (N := fdMachine files sectorBits i) (R := Serving i)
      (fun _ _ _ _ _ hR hstep => exists_calls_step hbios hfiles hR hstep) (serving_boot i) hlisted
  rw [List.map_id] at hreplies
  refine ⟨cs, replies, m, hrun, hreplies, fun hfree => ?_⟩
  have hshows := hserving.shows
  rw [← hstands.shared] at hshows
  simp only [Lo.Shows, hfree] at hshows
  exact ⟨hshows.1, hshows.2.1, hshows.2.2.trans (not_congr hstands.thread.absent_iff.symm)⟩

end Linked

/-! ## Calls that never come back -/

/-- The holder of the mutex waits, and nobody is left to wake it. -/
structure Device.Forsaken {κ σ η : Type*} (s : Device κ σ η) : Prop where
  waits : s.shared.control = .settingFd ∨ s.shared.control = .clearingFd
  sem : s.shared.loSem = 0
  thread : s.thread = .absent

section Forsaken

variable {κ π : Type*} {w : Nat} [DecidableEq κ] {command : κ → Command} {bios : κ → Bio π w}
  {maxSegments : Nat}

theorem forsaken_step (hbios : Submittable bios maxSegments)
    {t t' : Device κ (Queue κ) (List κ)} {a : Act κ} {o : Out κ} (h : t.Forsaken)
    (hstep : (machine (listed bios maxSegments) command).step t a = some (t', o)) :
    t'.Forsaken ∧ ∀ err, o ≠ .returned err := by
  obtain ⟨hwaits, hsem, hthread⟩ := h
  cases listedStep_of_step hbios hstep with
  | checked | unchecked | rejected | accepted | inserted | counted =>
    exact ⟨⟨hwaits, hsem, hthread⟩, by simp⟩
  -- The holder of the mutex waits.
  | attaching _ hcontrol | attachRefused _ hcontrol | bioCleared _ hcontrol =>
    rcases hwaits with hwaits | hwaits <;> exact absurd (hcontrol.symm.trans hwaits) (by simp)
  | detaching hcontrol | detachRefused hcontrol | tailCleared hcontrol =>
    rcases hwaits with hwaits | hwaits <;> exact absurd (hcontrol.symm.trans hwaits) (by simp)
  | attachDone k _ hone | detachDone k _ hone => exact absurd (hsem.symm.trans hone) (by simp)
  -- There is no thread.
  | _ => cases hthread

/-- A call that waits where there is no thread never comes back. -/
theorem never_returns [Fintype κ] (hbios : Submittable bios maxSegments) {as bs : List (Act κ)}
    {s s' : Device κ (Links κ) (Option κ)} {os ps : List (Out κ)}
    (h : linkedRun bios maxSegments command as = some (s, os)) (hforsaken : s.Forsaken)
    (hrest : (machine (linked bios maxSegments) command).run s bs = some (s', ps)) (err : Int) :
    .returned err ∉ ps := by
  obtain ⟨t, hlisted, hstands⟩ := exists_listed hbios h
  have ht : t.Forsaken := ⟨hstands.shared ▸ hforsaken.waits, hstands.shared ▸ hforsaken.sem,
    hstands.thread.absent_iff.mp hforsaken.thread⟩
  have hagree := (lockstep command hbios).run hstands fun a (_ : a ∈ bs) => trivial
  rw [List.map_id, hrest] at hagree
  cases hrun : (machine (listed bios maxSegments) command).run t bs with
  | none =>
    rw [hrun] at hagree
    cases hagree
  | some p =>
    rw [hrun] at hagree
    cases hagree with
    | some hp =>
      have hall := Machine.run_outputs (I := Device.Forsaken) (A := fun _ => True)
        (P := fun o => ∀ err, o ≠ .returned err)
        (fun _ _ _ _ hI _ hstep => forsaken_step hbios hI hstep) ht (fun _ _ => trivial) hrun
      have hout : ps.map id = p.2 := hp.2
      rw [List.map_id] at hout
      exact fun hmem => hall.2 _ (hout ▸ hmem) err rfl

end Forsaken

end Lloop
end AtomDrivers
