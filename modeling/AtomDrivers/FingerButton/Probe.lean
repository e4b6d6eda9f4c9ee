/-
Interrupts that cut into the probe.

`fingerbutton_probe` opens the line first, sets the flag next and initialises the
work item last.  Between these statements an interrupt finds a handler that relies
on the flag and on the work item.  The probe is safe exactly when no interrupt is
delivered before the work item is initialised.
-/
import AtomDrivers.FingerButton.Irq

namespace AtomDrivers
namespace FingerButton

/-- The statement of `fingerbutton_probe` that comes next. -/
inductive ProbePoint
  | requestIrq
  | setIrqEnable
  | initWork
  | ret
  | returned
  deriving DecidableEq, Repr

structure Probing where
  point : ProbePoint
  workInit : Bool
  button : Button
  deriving DecidableEq, Repr

/-- The module before its first probe. -/
def loaded : Probing := { point := .requestIrq, workInit := false, button := unbound }

/-- One statement; `requestIrq` is the answer of `request_irq`, which opens the
line when it succeeds. -/
def probeStatement (requestIrq : Int) (s : Probing) : Option Probing :=
  match s.point with
  | .requestIrq =>
    if requestIrq ≠ 0 then some { s with point := .returned }
    else some { s with point := .setIrqEnable, button := { s.button with depth := 0 } }
  | .setIrqEnable =>
    some { s with point := .initWork, button := { s.button with irqEnable := true } }
  | .initWork =>
    some { point := .ret, workInit := true, button := { s.button with irqWork := false } }
  | .ret => some { s with point := .returned }
  | .returned => none

inductive ProbingAction
  | probe (requestIrq : Int)
  | irq
  | workStart
  | workPoll (gpioIn : Nat)
  | workFinish
  deriving DecidableEq, Repr

/-- A step of the button while the probe stays where it is. -/
def besideProbe (a : ButtonAction) (s : Probing) : Option (Probing × List ButtonEvent) :=
  (button.step s.button a).map fun (button, es) => ({ s with button }, es)

/-- A work item that is not initialised has no function to run. -/
def probing : Machine Probing ProbingAction (List ButtonEvent) where
  step s
    | .probe requestIrq => (probeStatement requestIrq s).map fun s => (s, [])
    | .irq => besideProbe .irq s
    | .workStart => if s.workInit then besideProbe .workStart s else none
    | .workPoll gpioIn => besideProbe (.workPoll gpioIn) s
    | .workFinish => besideProbe .workFinish s

/-- The handler leaves the line masked and queues an initialised work item, no
queued work item is initialised again, and at the return of the probe the flag says
whether the line is open. -/
def SafeStep (s : Probing) (a : ProbingAction) : Prop :=
  ∀ t es, probing.step s a = some (t, es) →
    (.irqRouting ∈ es → t.button.depth ≠ 0) ∧
    (∀ new, .scheduleWork new ∈ es → s.workInit = true) ∧
    ((∃ requestIrq, a = .probe requestIrq) → s.point = .initWork → s.button.irqWork = false) ∧
    (s.point ≠ .returned → t.point = .returned →
      (t.button.irqEnable = true ↔ t.button.depth = 0))

/-- No interrupt is delivered between the success of `request_irq` and the end of
`INIT_WORK`. -/
def Uninterrupted (s : Probing) (a : ProbingAction) : Prop :=
  a = .irq → s.point ≠ .setIrqEnable ∧ s.point ≠ .initWork

/-- The state at each point of a probe that nothing has cut into. -/
def Ordered (s : Probing) : Prop :=
  match s.point with
  | .requestIrq => s = loaded
  | .setIrqEnable =>
    s = { loaded with point := .setIrqEnable, button := { unbound with depth := 0 } }
  | .initWork => s = { loaded with point := .initWork, button := probed }
  | .ret | .returned => Balanced s.button ∧ (s.workInit = true ∨ s.button = unbound)

/-! ## The statements alone -/

/-- Nothing cuts in: the statements come to the probe as a whole. -/
theorem probe_alone (requestIrq : Int) :
    ∃ n, probing.run loaded (List.replicate n (.probe requestIrq)) =
      some ({ point := .returned, workInit := decide (requestIrq = 0),
              button := (fingerbuttonProbe requestIrq unbound).1 }, List.replicate n []) := by
  by_cases hret : requestIrq = 0
  · subst hret
    exact ⟨4, rfl⟩
  · refine ⟨1, ?_⟩
    have hstep : probing.step loaded (.probe requestIrq) =
        some ({ loaded with point := .returned }, []) := by
      simp [probing, probeStatement, loaded, hret]
    rw [List.replicate_one, Machine.run_singleton hstep]
    simp [fingerbuttonProbe, hret, loaded]

/-! ## One step -/

theorem besideProbe_button {s t : Probing} {a : ButtonAction} {es : List ButtonEvent}
    (h : besideProbe a s = some (t, es)) :
    button.step s.button a = some (t.button, es) ∧ t = { s with button := t.button } := by
  simp only [besideProbe, Option.map_eq_some_iff, Prod.exists, Prod.mk.injEq] at h
  obtain ⟨b, os, hstep, rfl, rfl⟩ := h
  exact ⟨hstep, rfl⟩

/-- Either nothing is queued and an open line belongs to a probe that has not come
to its end, or the flag and the work item are set up. -/
theorem Ordered.cases {s : Probing} (hs : Ordered s) :
    (s.button.irqWork = false ∧ s.button.phase = .idle ∧
      (s.button.depth = 0 → s.point = .setIrqEnable ∨ s.point = .initWork)) ∨
    (Balanced s.button ∧ s.workInit = true ∧ (s.point = .ret ∨ s.point = .returned)) := by
  unfold Ordered at hs
  cases hpoint : s.point with
  | requestIrq =>
    rw [hpoint] at hs
    obtain rfl : s = loaded := hs
    exact Or.inl ⟨rfl, rfl, fun hd => by cases hd⟩
  | setIrqEnable =>
    rw [hpoint] at hs
    refine Or.inl ⟨?_, ?_, fun _ => Or.inl rfl⟩
    · exact congrArg (fun s => s.button.irqWork) hs
    · exact congrArg (fun s => s.button.phase) hs
  | initWork =>
    rw [hpoint] at hs
    refine Or.inl ⟨?_, ?_, fun _ => Or.inr rfl⟩
    · exact congrArg (fun s => s.button.irqWork) hs
    · exact congrArg (fun s => s.button.phase) hs
  | ret =>
    rw [hpoint] at hs
    rcases hs.2 with hinit | hunbound
    · exact Or.inr ⟨hs.1, hinit, Or.inl rfl⟩
    · exact Or.inl (by simp [hunbound, unbound])
  | returned =>
    rw [hpoint] at hs
    rcases hs.2 with hinit | hunbound
    · exact Or.inr ⟨hs.1, hinit, Or.inr rfl⟩
    · exact Or.inl (by simp [hunbound, unbound])

theorem ordered_of_balanced {s : Probing} (hb : Balanced s.button) (hinit : s.workInit = true)
    (hpoint : s.point = .ret ∨ s.point = .returned) : Ordered s := by
  unfold Ordered
  rcases hpoint with hpoint | hpoint
  · rw [hpoint]
    exact ⟨hb, Or.inl hinit⟩
  · rw [hpoint]
    exact ⟨hb, Or.inl hinit⟩

/-- The probe's own statements are safe and keep the order. -/
theorem probe_safe {s t : Probing} {requestIrq : Int} {es : List ButtonEvent} (hs : Ordered s)
    (h : probing.step s (.probe requestIrq) = some (t, es)) :
    es = [] ∧ Ordered t ∧ (s.point = .initWork → s.button.irqWork = false) ∧
      (t.point = .returned → (t.button.irqEnable = true ↔ t.button.depth = 0)) := by
  simp only [probing, Option.map_eq_some_iff, Prod.mk.injEq] at h
  obtain ⟨u, hu, rfl, rfl⟩ := h
  unfold Ordered at hs
  unfold probeStatement at hu
  cases hpoint : s.point with
  | requestIrq =>
    rw [hpoint] at hs hu
    obtain rfl : s = loaded := hs
    by_cases hret : requestIrq = 0
    · simp only [hret, ne_eq, not_true_eq_false, if_false, Option.some.injEq] at hu
      subst hu
      exact ⟨rfl, rfl, by simp, by simp⟩
    · simp only [hret, ne_eq, not_false_eq_true, if_true, Option.some.injEq] at hu
      subst hu
      exact ⟨rfl, ⟨rfl, Or.inr rfl⟩, by simp, fun _ => by decide⟩
  | setIrqEnable =>
    rw [hpoint] at hs hu
    obtain rfl :
        s = { loaded with point := .setIrqEnable, button := { unbound with depth := 0 } } := hs
    cases hu
    exact ⟨rfl, rfl, by simp, by simp⟩
  | initWork =>
    rw [hpoint] at hs hu
    obtain rfl : s = { loaded with point := .initWork, button := probed } := hs
    cases hu
    exact ⟨rfl, ⟨rfl, Or.inl rfl⟩, fun _ => rfl, by simp⟩
  | ret =>
    rw [hpoint] at hs hu
    cases hu
    exact ⟨rfl, hs, by simp, fun _ => hs.1.depth_eq_zero_iff.symm⟩
  | returned =>
    rw [hpoint] at hu
    cases hu

/-- The steps of the work item. -/
def WorkStep (a : ButtonAction) : Prop :=
  a = .workStart ∨ (∃ gpioIn, a = .workPoll gpioIn) ∨ a = .workFinish

/-- The work item runs after its initialisation only. -/
theorem work_safe {s t : Probing} {a : ButtonAction} {es : List ButtonEvent} (hs : Ordered s)
    (ha : WorkStep a) (h : besideProbe a s = some (t, es)) :
    t.point = s.point ∧ Ordered t ∧ .irqRouting ∉ es ∧ ∀ new, .scheduleWork new ∉ es := by
  obtain ⟨hstep, ht⟩ := besideProbe_button h
  rcases hs.cases with ⟨hwork, hidle, -⟩ | ⟨hb, hinit, hpoint⟩
  · have hstuck : button.step s.button a = none := by
      rcases ha with rfl | ⟨gpioIn, rfl⟩ | rfl
      · simp [button, hwork]
      · simp [button, hidle]
      · simp [button, hidle]
    rw [hstuck] at hstep
    cases hstep
  · have hb' : Balanced t.button := (balanced_step hb hstep).1
    have hsame : t.point = s.point := by rw [ht]
    have hinit' : t.workInit = true := by rw [ht]; exact hinit
    refine ⟨hsame, ordered_of_balanced hb' hinit' (by rw [hsame]; exact hpoint), ?_⟩
    obtain ⟨hirq, -⟩ | ⟨-, -, -, -, rfl⟩ | ⟨-, -, ⟨-, rfl⟩ | ⟨-, rfl⟩⟩ | ⟨-, -, -, rfl⟩ |
      ⟨hclient, -⟩ | ⟨e, hclient, -⟩ := button_step_cases hb hstep
    · rcases ha with rfl | ⟨gpioIn, rfl⟩ | rfl <;> cases hirq
    · simp
    · simp
    · simp
    · by_cases he : s.button.irqEnable = true <;> simp [he]
    · rcases ha with rfl | ⟨gpioIn, rfl⟩ | rfl <;> cases hclient
    · rcases ha with rfl | ⟨gpioIn, rfl⟩ | rfl <;> simp at hclient

/-- A handler that finds the flag and the work item set up does its part. -/
theorem irq_safe {s t : Probing} {es : List ButtonEvent} (hs : Ordered s)
    (hcut : s.point ≠ .setIrqEnable ∧ s.point ≠ .initWork)
    (h : besideProbe .irq s = some (t, es)) :
    t.point = s.point ∧ Ordered t ∧ t.button.depth ≠ 0 ∧ s.workInit = true := by
  obtain ⟨hstep, ht⟩ := besideProbe_button h
  simp only [button, Option.ite_none_right_eq_some, Option.some.injEq] at hstep
  obtain ⟨hd, hrouting⟩ := hstep
  rcases hs.cases with ⟨-, -, hopen⟩ | ⟨hb, hinit, hpoint⟩
  · rcases hopen hd with hpoint | hpoint
    · exact absurd hpoint hcut.1
    · exact absurd hpoint hcut.2
  · rw [fingerbuttonIrqRouting_eq hb hd, Prod.mk.injEq] at hrouting
    have hsame : t.point = s.point := by rw [ht]
    have hinit' : t.workInit = true := by rw [ht]; exact hinit
    have hb' : Balanced t.button := by rw [← hrouting.1]; rfl
    refine ⟨hsame, ordered_of_balanced hb' hinit' (by rw [hsame]; exact hpoint), ?_, hinit⟩
    rw [← hrouting.1]
    exact Nat.one_ne_zero

theorem irq_schedules {s : Probing} (hd : s.button.depth = 0) :
    ∃ t es new, probing.step s .irq = some (t, es) ∧ .scheduleWork new ∈ es := by
  have hstep : probing.step s .irq =
      some ({ s with button := (fingerbuttonIrqRouting s.button).1 },
        (fingerbuttonIrqRouting s.button).2) := by
    simp only [probing, besideProbe, button, hd, if_true, Option.map_some]
  refine ⟨_, _, !(fingerbuttonDisableIrqNosync s.button).1.irqWork, hstep, ?_⟩
  simp [fingerbuttonIrqRouting]

/-- An interrupt in between queues a work item that is not initialised. -/
theorem irq_cut {s : Probing} (hs : Ordered s)
    (hcut : s.point = .setIrqEnable ∨ s.point = .initWork) : ¬ SafeStep s .irq := by
  have hearly : s.workInit = false ∧ s.button.depth = 0 := by
    unfold Ordered at hs
    rcases hcut with hpoint | hpoint
    · rw [hpoint] at hs
      rw [hs]
      exact ⟨rfl, rfl⟩
    · rw [hpoint] at hs
      rw [hs]
      exact ⟨rfl, rfl⟩
  intro hsafe
  obtain ⟨t, es, new, hstep, hmem⟩ := irq_schedules hearly.2
  have hinit := (hsafe t es hstep).2.1 new hmem
  rw [hearly.1] at hinit
  cases hinit

theorem workStart_beside {s t : Probing} {es : List ButtonEvent}
    (h : probing.step s .workStart = some (t, es)) : besideProbe .workStart s = some (t, es) := by
  simp only [probing, Option.ite_none_right_eq_some] at h
  exact h.2

theorem safeStep_work {s : Probing} {a : ProbingAction} {b : ButtonAction} (hs : Ordered s)
    (hb : WorkStep b) (hprobe : ∀ requestIrq, a ≠ .probe requestIrq)
    (hbeside : ∀ t es, probing.step s a = some (t, es) → besideProbe b s = some (t, es)) :
    SafeStep s a := by
  intro t es h
  obtain ⟨hpoint, -, hrouting, hschedule⟩ := work_safe hs hb (hbeside t es h)
  refine ⟨fun hmem => absurd hmem hrouting, fun new hmem => absurd hmem (hschedule new),
    fun hp => ?_, fun hbefore hafter => ?_⟩
  · obtain ⟨requestIrq, rfl⟩ := hp
    exact absurd rfl (hprobe requestIrq)
  · rw [hpoint] at hafter
    exact absurd hafter hbefore

theorem uninterrupted_of_ne {s : Probing} {a : ProbingAction} (ha : a ≠ .irq) :
    Uninterrupted s a :=
  fun hirq => absurd hirq ha

theorem safeStep_iff {s : Probing} {a : ProbingAction} (hs : Ordered s) :
    SafeStep s a ↔ Uninterrupted s a := by
  cases a with
  | probe requestIrq =>
    refine ⟨fun _ => uninterrupted_of_ne (by simp), fun _ t es h => ?_⟩
    obtain ⟨rfl, -, hinit, hret⟩ := probe_safe hs h
    exact ⟨by simp, by simp, fun _ => hinit, fun _ => hret⟩
  | irq =>
    constructor
    · intro hsafe _
      exact ⟨fun hpoint => irq_cut hs (Or.inl hpoint) hsafe,
        fun hpoint => irq_cut hs (Or.inr hpoint) hsafe⟩
    · intro hcut t es h
      obtain ⟨hpoint, -, hdepth, hinit⟩ := irq_safe hs (hcut rfl) h
      refine ⟨fun _ => hdepth, fun _ _ => hinit, fun hp => ?_, fun hbefore hafter => ?_⟩
      · obtain ⟨requestIrq, hp⟩ := hp
        cases hp
      · rw [hpoint] at hafter
        exact absurd hafter hbefore
  | workStart =>
    exact iff_of_true (safeStep_work hs (Or.inl rfl) (by simp) fun t es h => workStart_beside h)
      (uninterrupted_of_ne (by simp))
  | workPoll gpioIn =>
    exact iff_of_true
      (safeStep_work hs (Or.inr (Or.inl ⟨gpioIn, rfl⟩)) (by simp) fun t es h => h)
      (uninterrupted_of_ne (by simp))
  | workFinish =>
    exact iff_of_true (safeStep_work hs (Or.inr (Or.inr rfl)) (by simp) fun t es h => h)
      (uninterrupted_of_ne (by simp))

theorem ordered_step {s t : Probing} {a : ProbingAction} {es : List ButtonEvent}
    (hs : Ordered s) (ha : Uninterrupted s a) (h : probing.step s a = some (t, es)) :
    Ordered t := by
  cases a with
  | probe requestIrq => exact (probe_safe hs h).2.1
  | irq => exact (irq_safe hs (ha rfl) h).2.1
  | workStart => exact (work_safe hs (Or.inl rfl) (workStart_beside h)).2.1
  | workPoll gpioIn => exact (work_safe hs (Or.inr (Or.inl ⟨gpioIn, rfl⟩)) h).2.1
  | workFinish => exact (work_safe hs (Or.inr (Or.inr rfl)) h).2.1

/-! ## Runs -/

/-- In every interleaving, the probe is safe exactly when no interrupt is delivered
between the success of `request_irq` and the end of `INIT_WORK`. -/
theorem safe_throughout_iff (as : List ProbingAction) :
    probing.AllSteps SafeStep loaded as ↔ probing.AllSteps Uninterrupted loaded as :=
  Machine.allSteps_iff_of_invariant (I := Ordered) (fun _ _ hs => safeStep_iff hs)
    (fun _ _ _ _ hs ha hstep => ordered_step hs ha hstep) (show Ordered loaded from rfl) as

/-- A button that is held at boot. -/
theorem held_at_boot : ¬ probing.AllSteps SafeStep loaded [.probe 0, .irq] := by
  intro h
  have hopen : probing.step loaded (.probe 0) =
      some ({ loaded with point := .setIrqEnable, button := { unbound with depth := 0 } }, []) :=
    rfl
  have hs : Ordered
      { loaded with point := .setIrqEnable, button := { unbound with depth := 0 } } := rfl
  exact irq_cut hs (Or.inl rfl) (h.2 _ _ hopen).1

end FingerButton
end AtomDrivers
