/-
Unbinding the LED driver.

`_atom_remove` takes the four registrations back and leaves the timer and the
work item as they are.  A file that is still open reaches the ioctl after it.  The
LED is quiet after a removal exactly when nothing was in flight at the removal and
nobody asks for the LED while the driver is unbound.
-/
import AtomDrivers.Led.Probe
import AtomDrivers.Led.Chain

namespace AtomDrivers
namespace Led

/-- `bound` says whether a probe has succeeded since the last removal. -/
structure AtomDevice where
  light : AtomLight
  bound : Bool
  deriving DecidableEq, Repr

inductive DeviceAction
  | timer (a : AtomAction)
  | remove
  | probe (k : ProbeAnswers)

inductive DeviceEvent
  | entry (e : Entry AtomResource)
  | timer (e : AtomEvent)
  deriving DecidableEq, Repr

/-- A probe in the device core. -/
def bind (k : ProbeAnswers) (light : AtomLight) : AtomDevice × List DeviceEvent :=
  let (r, light) := atomProbe k light
  ({ light, bound := decide (r.ret = 0) }, r.entries.map .entry)

/-- The timer, the work item and open files outlive a removal. -/
def atomDevice : Machine AtomDevice DeviceAction (List DeviceEvent) where
  step s
    | .timer a =>
      (atomTimer.step s.light.timer a).map fun (timer, es) =>
        ({ s with light := { s.light with timer } }, es.map .timer)
    | .remove =>
      if s.bound then some ({ s with bound := false }, atomRemove.map .entry) else none
    | .probe k => if s.bound then none else some (bind k s.light)

/-- The driver after the first probe. -/
def bindLoaded (k : ProbeAnswers) : AtomDevice := (bind k atomLoaded).1

/-- After the step, an unbound driver has nothing in flight.  The step selects no
pin state for an unbound driver, and a probe finds nothing in flight. -/
def NoActivity (s : AtomDevice) (a : DeviceAction) : Prop :=
  ∀ t es, atomDevice.step s a = some (t, es) →
    (t.bound = false → Stopped t.light.timer) ∧
    (s.bound = false → ∀ e, .timer e ∈ es → ¬ DrivesPin e) ∧
    ∀ k, a = .probe k → Stopped s.light.timer

/-- A removal finds nothing in flight, and an unbound driver gets neither of the
two ioctls. -/
def CleanUnbind (s : AtomDevice) : DeviceAction → Prop
  | .remove => Stopped s.light.timer
  | .timer (.ioctl cmd) => s.bound = false → cmd ≠ atomWriteOn ∧ cmd ≠ atomWriteOff
  | _ => True

/-- An unbound driver has nothing in flight. -/
def UnboundStopped (s : AtomDevice) : Prop := s.bound = false → Stopped s.light.timer

theorem bind_unboundStopped (k : ProbeAnswers) {light : AtomLight} (h : Stopped light.timer) :
    UnboundStopped (bind k light).1 := by
  intro hunbound
  have hret : (atomProbe k light).1.ret ≠ 0 := by simpa [bind] using hunbound
  show Stopped (atomProbe k light).2.timer
  rw [atomProbe_timer, if_neg hret]
  exact h

theorem unboundStopped_bindLoaded (k : ProbeAnswers) : UnboundStopped (bindLoaded k) :=
  bind_unboundStopped k ⟨rfl, rfl⟩

/-! ## One step -/

/-- A stopped driver that gets neither ioctl does nothing. -/
theorem stopped_still {s t : AtomTimer} {a : AtomAction} {es : List AtomEvent} (hs : Stopped s)
    (hon : a ≠ .ioctl atomWriteOn) (hoff : a ≠ .ioctl atomWriteOff)
    (h : atomTimer.step s a = some (t, es)) : t = s ∧ es = [] := by
  rcases atomTimer_step_cases h with ⟨ha, -⟩ | ⟨ha, -⟩ | ⟨-, ht, hes⟩ | ⟨-, harmed, -⟩ |
    ⟨-, hpending, -⟩
  · exact absurd ha hon
  · exact absurd ha hoff
  · exact ⟨ht, hes⟩
  · rw [hs.1] at harmed
    cases harmed
  · rw [hs.2] at hpending
    cases hpending

theorem timer_step_iff {s t : AtomDevice} {a : AtomAction} {es : List DeviceEvent} :
    atomDevice.step s (.timer a) = some (t, es) ↔
      ∃ timer os, atomTimer.step s.light.timer a = some (timer, os) ∧
        t = { s with light := { s.light with timer } } ∧ es = os.map .timer := by
  simp only [atomDevice, Option.map_eq_some_iff, Prod.exists, Prod.mk.injEq]
  constructor
  · intro h
    obtain ⟨timer, os, hstep, ht, hes⟩ := h
    exact ⟨timer, os, hstep, ht.symm, hes.symm⟩
  · intro h
    obtain ⟨timer, os, hstep, ht, hes⟩ := h
    exact ⟨timer, os, hstep, ht.symm, hes.symm⟩

theorem ioctl_step (s : AtomDevice) (cmd : BitVec 32) :
    atomDevice.step s (.timer (.ioctl cmd)) =
      some ({ s with light := { s.light with timer := (constantAtomIoctl cmd s.light.timer).1 } },
        (constantAtomIoctl cmd s.light.timer).2.map .timer) := rfl

theorem remove_step_iff {s t : AtomDevice} {es : List DeviceEvent} :
    atomDevice.step s .remove = some (t, es) ↔
      s.bound = true ∧ t = { s with bound := false } ∧ es = atomRemove.map .entry := by
  simp only [atomDevice, Option.ite_none_right_eq_some, Option.some.injEq, Prod.mk.injEq]
  exact and_congr_right fun _ => and_congr eq_comm eq_comm

theorem probe_step_iff {s t : AtomDevice} {k : ProbeAnswers} {es : List DeviceEvent} :
    atomDevice.step s (.probe k) = some (t, es) ↔
      s.bound = false ∧ (t, es) = bind k s.light := by
  simp only [atomDevice, Option.ite_none_left_eq_some, Option.some.injEq, Bool.not_eq_true]
  exact and_congr_right fun _ => eq_comm

theorem no_timer_entry (e : AtomEvent) (es : List (Entry AtomResource)) :
    DeviceEvent.timer e ∉ es.map DeviceEvent.entry := by simp

theorem noActivity_timer_iff {s : AtomDevice} {a : AtomAction} (hs : UnboundStopped s) :
    NoActivity s (.timer a) ↔
      (s.bound = false → a ≠ .ioctl atomWriteOn ∧ a ≠ .ioctl atomWriteOff) := by
  constructor
  · intro h hunbound
    constructor
    · intro hon
      subst hon
      have hstopped := (h _ _ (ioctl_step s atomWriteOn)).1 hunbound
      cases hstopped.1
    · intro hoff
      subst hoff
      have hlow : DeviceEvent.timer .pinOutputLow ∈
          (constantAtomIoctl atomWriteOff s.light.timer).2.map DeviceEvent.timer := by
        simp [constantAtomIoctl_off]
      exact (h _ _ (ioctl_step s atomWriteOff)).2.1 hunbound _ hlow (Or.inl rfl)
  · intro h t es hstep
    obtain ⟨timer, os, hone, rfl, rfl⟩ := timer_step_iff.mp hstep
    have hstill : s.bound = false → timer = s.light.timer ∧ os = [] := fun hunbound =>
      stopped_still (hs hunbound) (h hunbound).1 (h hunbound).2 hone
    refine ⟨fun hunbound => ?_, fun hunbound e he => ?_, fun k hk => by cases hk⟩
    · rw [(hstill hunbound).1]
      exact hs hunbound
    · rw [(hstill hunbound).2] at he
      cases he

theorem noActivity_iff {s : AtomDevice} {a : DeviceAction} (hs : UnboundStopped s) :
    NoActivity s a ↔ CleanUnbind s a := by
  cases a with
  | timer a =>
    rw [noActivity_timer_iff hs]
    cases a with
    | ioctl cmd => simp [CleanUnbind]
    | expire => simp [CleanUnbind]
    | work => simp [CleanUnbind]
  | remove =>
    constructor
    · intro h
      cases hbound : s.bound with
      | false => exact hs hbound
      | true => exact (h _ _ (remove_step_iff.mpr ⟨hbound, rfl, rfl⟩)).1 rfl
    · intro hstopped t es hstep
      obtain ⟨-, rfl, rfl⟩ := remove_step_iff.mp hstep
      exact ⟨fun _ => hstopped, fun _ e he => absurd he (no_timer_entry e _),
        fun k hk => by cases hk⟩
  | probe k =>
    refine ⟨fun _ => trivial, fun _ t es hstep => ?_⟩
    obtain ⟨hunbound, hbind⟩ := probe_step_iff.mp hstep
    cases hbind
    exact ⟨bind_unboundStopped k (hs hunbound), fun _ e he => absurd he (no_timer_entry e _),
      fun _ _ => hs hunbound⟩

theorem cleanUnbind_keeps {s t : AtomDevice} {a : DeviceAction} {es : List DeviceEvent}
    (hs : UnboundStopped s) (ha : CleanUnbind s a) (h : atomDevice.step s a = some (t, es)) :
    UnboundStopped t :=
  ((noActivity_iff hs).mpr ha t es h).1

/-! ## Runs -/

/-- In every run after the first probe, no activity survives a removal exactly
when each removal finds nothing in flight and no unbound driver is asked for the
LED. -/
theorem noActivity_throughout_iff (k : ProbeAnswers) (as : List DeviceAction) :
    atomDevice.AllSteps NoActivity (bindLoaded k) as ↔
      atomDevice.AllSteps CleanUnbind (bindLoaded k) as :=
  Machine.allSteps_iff_of_invariant (I := UnboundStopped) (fun _ _ hs => noActivity_iff hs)
    (fun _ _ _ _ hs ha hstep => cleanUnbind_keeps hs ha hstep) (unboundStopped_bindLoaded k) as

/-- Every call of the first probe succeeds. -/
def allSucceed : ProbeAnswers where
  allocChrdevRegion := none
  cdevAdd := none
  classCreate := none
  deviceCreate := none
  devmPinctrlGet := none
  pinctrlLookupState _ := none

/-- A removal while the LED blinks leaves the timer armed. -/
theorem timer_survives : (bindLoaded allSucceed).bound = true ∧
    ¬ atomDevice.AllSteps NoActivity (bindLoaded allSucceed)
      [.timer (.ioctl atomWriteOn), .remove] := by
  refine ⟨rfl, fun h => ?_⟩
  have hremove := (h.2 _ _ (ioctl_step _ atomWriteOn)).1
  have hstopped := (hremove _ _ (remove_step_iff.mpr ⟨rfl, rfl, rfl⟩)).1 rfl
  cases hstopped.1

end Led
end AtomDrivers
