/-
Writes on a read-only loop device.

`loop_make_request` tests `lo_flags` once, some time before it inserts the bio, and
`loop_clr_fd` clears them.  A write that is tested between two lives and inserted in a
read-only one is sent to the file that is attached then.  No write is with a read-only
device, or about to be, throughout exactly those runs in which no read-only file is
attached while a write stands between its test and its insertion.  The file counts as
attached from the second store of `loop_set_fd` on: what is inserted up to there goes
with the list.
-/
import AtomDrivers.Lloop.Accounting

namespace AtomDrivers
namespace Lloop

section ReadOnly

variable {κ : Type*} (command : κ → Command)

/-- `loop_set_fd` is about to empty the list. -/
def Emptying (sh : Shared κ) : Prop := sh.control = .beforeTail ∨ sh.control = .beforeBio

/-- While a read-only file is attached, no write is admitted or among `ks`. -/
def NoWrite (sh : Shared κ) (ks : List κ) : Prop :=
  sh.readOnly = true → ¬ Emptying sh → ∀ k, command k = .write → sh.phase k ≠ .admitted ∧ k ∉ ks

/-- No write is admitted when a read-only file is attached. -/
def AttachClean {σ η : Type*} (s : Device κ σ η) (a : Act κ) : Prop :=
  ∀ spawned, a = .clearBio spawned → s.shared.control = .beforeBio → s.shared.readOnly = true →
    ∀ k, command k = .write → s.shared.phase k ≠ .admitted

variable {command}

theorem NoWrite.of_subset {sh sh' : Shared κ} {ks ks' : List κ} (h : NoWrite command sh ks)
    (hreadOnly : sh'.readOnly = sh.readOnly) (hcontrol : Emptying sh → Emptying sh')
    (hphase : ∀ k, sh'.phase k = .admitted → sh.phase k = .admitted) (hks : ks' ⊆ ks) :
    NoWrite command sh' ks' := fun hro hattached k hk =>
  have hbefore := h (hreadOnly ▸ hro) (fun hempty => hattached (hcontrol hempty)) k hk
  ⟨fun hadmitted => hbefore.1 (hphase k hadmitted), fun hmem => hbefore.2 (hks hmem)⟩

end ReadOnly

section Steps

variable {κ π : Type*} {w : Nat} [DecidableEq κ] {command : κ → Command} {bios : κ → Bio π w}
  {maxSegments : Nat} {t t' : Device κ (Queue κ) (List κ)} {lf : Life κ} {o : Out κ} {a : Act κ}

/-- A bio that goes to a place other than the one behind the test. -/
theorem phase_admitted {sh : Shared κ} {k j : κ} {p : Phase} (hp : p ≠ .admitted)
    (hj : (sh.setPhase k p).phase j = .admitted) : sh.phase j = .admitted := by
  have hj' : Function.update sh.phase k p j = .admitted := hj
  by_cases heq : j = k
  · rw [heq, Function.update_self] at hj'
    exact absurd hj' hp
  · rwa [Function.update_of_ne heq] at hj'

theorem noWrite_step (hbios : Submittable bios maxSegments) (hacc : Accounted t lf)
    (h : NoWrite command t.shared (t.thread.hand ++ t.list.bios)) (hclean : AttachClean command t a)
    (hstep : (machine (listed bios maxSegments) command).step t a = some (t', o)) :
    NoWrite command t'.shared (t'.thread.hand ++ t'.list.bios) := by
  cases listedStep_of_step hbios hstep with
  | checked | rejected =>
    exact h.of_subset rfl id (fun j => phase_admitted (by simp)) (List.Subset.refl _)
  | @accepted sh _ _ k _ hcommand =>
    intro hro hattached j hj
    have hbefore := h hro hattached j hj
    have hne : j ≠ k := by
      intro heq
      have hro' : sh.readOnly = true := hro
      rw [← heq, hj, hro'] at hcommand
      cases hcommand
    exact ⟨fun hadmitted => hbefore.1
      ((Function.update_of_ne hne _ sh.phase).symm.trans hadmitted), hbefore.2⟩
  | @inserted sh q v k hadmitted =>
    intro hro hattached j hj
    have hbefore := h hro hattached j hj
    refine ⟨fun hadm => hbefore.1 (phase_admitted (by simp) hadm), fun hmem => ?_⟩
    rcases List.mem_append.mp hmem with hmem | hmem
    · exact hbefore.2 (List.mem_append_left _ hmem)
    · rcases Queue.mem_bios_add hmem with rfl | hmem
      · exact hbefore.1 hadmitted
      · exact hbefore.2 (List.mem_append_right _ hmem)
  | started envOk => cases envOk <;> exact h.of_subset rfl id (fun _ => id) (List.Subset.refl _)
  | @fetched sh q hne =>
    refine h.of_subset rfl id (fun _ => id) ?_
    simp only [Thread.hand, Queue.bios_withBios_drop]
    rw [batch_append_drop bios maxSegments q.bios]
    exact List.Subset.refl q.bios
  | @ended sh l k =>
    exact h.of_subset rfl id (fun j => phase_admitted (by simp)) (List.subset_cons_self k _)
  | attaching => exact fun _ hattached => absurd (Or.inl rfl) hattached
  | tailCleared => exact fun _ hattached => absurd (Or.inr rfl) hattached
  | @bioCleared sh q v spawned hbefore =>
    obtain ⟨_, rfl, _⟩ := hacc.coupled.emptying (Or.inr hbefore)
    intro hro _ k hk
    refine ⟨hclean spawned rfl hbefore hro k hk, ?_⟩
    rw [Queue.bios_clearBio]
    cases spawned <;> exact List.not_mem_nil
  | attachDone n hsetting =>
    refine h.of_subset rfl (fun hempty => ?_) (fun _ => id) (List.Subset.refl _)
    simp [Emptying, hsetting] at hempty
  | detaching hfree =>
    refine h.of_subset rfl (fun hempty => ?_) (fun _ => id) (List.Subset.refl _)
    simp [Emptying, hfree] at hempty
  | detachDone =>
    intro hro
    cases hro
  -- The rest changes neither the flags nor the places, and no bio comes to the list.
  | _ => exact h.of_subset rfl id (fun _ => id) (List.Subset.refl _)

/-- An attachment shows a write that is admitted. -/
theorem attachClean_of_noWrite
    (h : ∀ t' o, (machine (listed bios maxSegments) command).step t a = some (t', o) →
      NoWrite command t'.shared (t'.thread.hand ++ t'.list.bios)) : AttachClean command t a := by
  intro spawned ha hcontrol hro k hk
  subst ha
  have hstep : (machine (listed bios maxSegments) command).step t (.clearBio spawned) =
      some ({ t with
        shared := { t.shared with control := .settingFd }
        list := t.list.clearBio
        thread := if spawned then .starting else t.thread }, .attached) := by
    simp only [machine, Device.step, Device.clearBio, hcontrol, listed]
  exact (h _ _ hstep hro (by simp [Emptying]) k hk).1

theorem noWrite_allStates_iff (hbios : Submittable bios maxSegments) (as : List (Act κ)) :
    (machine (listed bios maxSegments) command).AllStates
        (fun t => NoWrite command t.shared (t.thread.hand ++ t.list.bios)) bootListed as ↔
      (machine (listed bios maxSegments) command).AllSteps (AttachClean command) bootListed as := by
  have hboot : NoWrite command (bootListed : Device κ (Queue κ) (List κ)).shared
      ((bootListed : Device κ (Queue κ) (List κ)).thread.hand ++ bootListed.list.bios) :=
    fun hro => by cases hro
  rw [Machine.allStates_iff_steps (Q := fun t : Device κ (Queue κ) (List κ) =>
    NoWrite command t.shared (t.thread.hand ++ t.list.bios)) hboot]
  refine Machine.allSteps_iff_of_invariant
    (I := fun t => NoWrite command t.shared (t.thread.hand ++ t.list.bios) ∧ ∃ lf, Accounted t lf)
    (fun t a hI => ?_) (fun t a t' o hI hclean hstep => ?_) ⟨hboot, .first, accounted_boot⟩ as
  · obtain ⟨hno, lf, hacc⟩ := hI
    exact ⟨attachClean_of_noWrite,
      fun hclean t' o hstep => noWrite_step hbios hacc hno hclean hstep⟩
  · obtain ⟨hno, lf, hacc⟩ := hI
    exact ⟨noWrite_step hbios hacc hno hclean hstep, lf.after o, accounted_step hbios hacc hstep⟩

end Steps

/-- The linked device in a state without a write that it should not have. -/
def Device.KeepsReadOnly {κ : Type*} [Fintype κ] (command : κ → Command)
    (s : Device κ (Links κ) (Option κ)) : Prop :=
  ∀ hand queue, s.inHand = some hand → s.queued = some queue →
    NoWrite command s.shared (hand ++ queue)

theorem Stands.keepsReadOnly_iff {κ : Type*} [Fintype κ] (command : κ → Command)
    {s : Device κ (Links κ) (Option κ)} {t : Device κ (Queue κ) (List κ)} (h : Stands s t) :
    s.KeepsReadOnly command ↔ NoWrite command t.shared (t.thread.hand ++ t.list.bios) := by
  rw [Device.KeepsReadOnly, h.inHand_eq, h.queued_eq, h.shared]
  constructor
  · intro hkeeps
    exact hkeeps _ _ rfl rfl
  · intro hno hand queue hhand hqueue
    cases hhand
    cases hqueue
    exact hno

section Linked

variable {κ π : Type*} {w : Nat} [DecidableEq κ] [Fintype κ] {command : κ → Command}
  {bios : κ → Bio π w} {maxSegments : Nat}

/-- No write is with a read-only device, or past its test, in any state of a run
exactly if no read-only file is attached in it while a write is past its test. -/
theorem keepsReadOnly_allStates_iff (hbios : Submittable bios maxSegments) (as : List (Act κ)) :
    (machine (linked bios maxSegments) command).AllStates (Device.KeepsReadOnly command)
        bootLinked as ↔
      (machine (linked bios maxSegments) command).AllSteps (AttachClean command) bootLinked as := by
  have hlockstep := lockstep command hbios
  have hstates := hlockstep.allStates_iff
    (fun s t hs => hs.keepsReadOnly_iff command) stands_boot as
  have hsteps := hlockstep.allSteps_iff (P := AttachClean command) (Q := AttachClean command)
    (fun s t a hs => by rw [AttachClean, AttachClean, hs.shared]; rfl) stands_boot as
  rw [List.map_id] at hstates hsteps
  rw [hstates, hsteps]
  exact noWrite_allStates_iff hbios as

/-- A write is tested in the first life and inserted in a read-only one. -/
theorem keepsReadOnly_allStates_iff_two :
    let as := attachRun false ++ [.check 0, .accept 0] ++ detachRun ++ [.clrFdDone] ++
      attachRun true ++ [.insert 0]
    ((machine (linked twoBios 2) fun _ => .write).AllStates (Device.KeepsReadOnly fun _ => .write)
        bootLinked as ↔
      (machine (linked twoBios 2) fun _ => .write).AllSteps (AttachClean fun _ => .write)
        bootLinked as) ∧
    (∃ s os, linkedRun twoBios 2 (fun _ => .write) as = some (s, os) ∧
      s.shared.readOnly = true ∧ s.queued = some [0]) :=
  ⟨keepsReadOnly_allStates_iff (.of_width_32 fun _ => Nat.le_succ 1) _, _, _, rfl, rfl, rfl⟩

end Linked

end Lloop
end AtomDrivers
