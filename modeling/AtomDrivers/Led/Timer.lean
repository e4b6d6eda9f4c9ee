/-
The timer-driven LED of `atom_five`.

A high-resolution timer queues a work item, and the work item drives the pin and
starts the timer again, so that one of the two is in flight for as long as the
LED blinks.  The user starts and stops the blinking through the ioctl.  The
four kinds of step are atomic and may come in any order.
-/
import AtomDrivers.Machine.Run
import AtomDrivers.Linux.Ioctl

namespace AtomDrivers
namespace Led

open Linux

def atomBufSize : Nat := 100

/-- `sizeof(atom_data_buf)`: an `int` and the text buffer. -/
def atomDataBufSize : Nat := 4 + atomBufSize

def atomWriteInt : BitVec 32 := iow 0xAA 0x10 atomDataBufSize
def atomWriteOff : BitVec 32 := iow 0xAA 0x11 4
def atomWriteOn : BitVec 32 := iow 0xAA 0x12 4

/-- The state of `atom_timer.c`: whether `work_timer` is armed, whether
`workTimeOut` is queued, the flag `timer_running`, and the static `index` of
`work_timeOutFunc`. -/
structure AtomTimer where
  workTimer : Bool
  workTimeOut : Bool
  timerRunning : Bool
  index : Nat
  deriving DecidableEq, Repr

/-- What a step does to the kernel and to the pin. -/
inductive AtomEvent
  | hrtimerStart
  | hrtimerCancel
  | scheduleWork (queued : Bool)
  | pinOutputLow
  | pinOutputHigh
  deriving DecidableEq, Repr

def timerStart (s : AtomTimer) : AtomTimer × List AtomEvent :=
  ({ s with timerRunning := true, workTimer := true }, [.hrtimerStart])

def timerStop (s : AtomTimer) : AtomTimer × List AtomEvent :=
  if s.timerRunning then
    ({ s with workTimer := false, timerRunning := false }, [.hrtimerCancel])
  else (s, [])

/-- The timer callback.  It returns `HRTIMER_NORESTART`, and queueing a work
item that is already pending has no effect. -/
def dwFpKeyWork (s : AtomTimer) : AtomTimer × List AtomEvent :=
  ({ s with workTimer := false, workTimeOut := true }, [.scheduleWork (!s.workTimeOut)])

/-- `index` as `work_timeOutFunc` leaves it. -/
def nextIndex (index : Nat) : Nat := (if index = 10 then 0 else index) + 1

def workTimeOutFunc (s : AtomTimer) : AtomTimer × List AtomEvent :=
  let index := nextIndex s.index
  let pin := if index ≤ 8 then AtomEvent.pinOutputLow else .pinOutputHigh
  let (s', es) := timerStart { s with index := index }
  (s', pin :: es)

def constantAtomIoctl (cmd : BitVec 32) (s : AtomTimer) : AtomTimer × List AtomEvent :=
  if cmd = atomWriteInt then (s, [])
  else if cmd = atomWriteOff then
    let (s', es) := timerStop s
    (s', es ++ [.pinOutputLow])
  else if cmd = atomWriteOn then timerStart s
  else (s, [])

def dwFpKeySysInit (s : AtomTimer) : AtomTimer :=
  { s with workTimeOut := false, workTimer := false }

/-- The driver after its first probe. -/
def atomIdle : AtomTimer :=
  dwFpKeySysInit { workTimer := false, workTimeOut := false, timerRunning := false, index := 0 }

inductive AtomAction
  | ioctl (cmd : BitVec 32)
  | expire
  | work
  deriving DecidableEq, Repr

/-- An expiry needs an armed timer and an execution a pending work item.  The
kernel clears the pending bit before it calls the work function. -/
def atomTimer : Machine AtomTimer AtomAction (List AtomEvent) where
  step s
    | .ioctl cmd => some (constantAtomIoctl cmd s)
    | .expire => if s.workTimer then some (dwFpKeyWork s) else none
    | .work =>
      if s.workTimeOut then some (workTimeOutFunc { s with workTimeOut := false }) else none

/-! ## What one step does -/

theorem constantAtomIoctl_on (s : AtomTimer) : constantAtomIoctl atomWriteOn s = timerStart s := rfl

theorem constantAtomIoctl_off (s : AtomTimer) :
    constantAtomIoctl atomWriteOff s =
      ((timerStop s).1, (timerStop s).2 ++ [.pinOutputLow]) := rfl

theorem constantAtomIoctl_other {cmd : BitVec 32} (hon : cmd ≠ atomWriteOn)
    (hoff : cmd ≠ atomWriteOff) (s : AtomTimer) : constantAtomIoctl cmd s = (s, []) := by
  simp [constantAtomIoctl, hon, hoff]

theorem timerStop_fst (s : AtomTimer) :
    (timerStop s).1 =
      { s with workTimer := s.workTimer && !s.timerRunning, timerRunning := false } := by
  obtain ⟨armed, pending, running, index⟩ := s
  cases running <;> simp [timerStop]

/-- Every step of the driver, by the kind of its action. -/
theorem atomTimer_step_cases {s t : AtomTimer} {a : AtomAction} {es : List AtomEvent}
    (h : atomTimer.step s a = some (t, es)) :
    (a = .ioctl atomWriteOn ∧ (t, es) = timerStart s) ∨
    (a = .ioctl atomWriteOff ∧ t = (timerStop s).1 ∧
      es = (timerStop s).2 ++ [.pinOutputLow]) ∨
    ((∃ cmd, a = .ioctl cmd ∧ cmd ≠ atomWriteOn ∧ cmd ≠ atomWriteOff) ∧ t = s ∧ es = []) ∨
    (a = .expire ∧ s.workTimer = true ∧ (t, es) = dwFpKeyWork s) ∨
    (a = .work ∧ s.workTimeOut = true ∧
      (t, es) = workTimeOutFunc { s with workTimeOut := false }) := by
  cases a with
  | ioctl cmd =>
    simp only [atomTimer, Option.some.injEq] at h
    by_cases hon : cmd = atomWriteOn
    · subst hon
      exact Or.inl ⟨rfl, by rw [← h, constantAtomIoctl_on]⟩
    · by_cases hoff : cmd = atomWriteOff
      · subst hoff
        rw [constantAtomIoctl_off] at h
        exact Or.inr (Or.inl ⟨rfl, (congrArg Prod.fst h).symm, (congrArg Prod.snd h).symm⟩)
      · rw [constantAtomIoctl_other hon hoff] at h
        exact Or.inr (Or.inr (Or.inl ⟨⟨cmd, rfl, hon, hoff⟩, (congrArg Prod.fst h).symm,
          (congrArg Prod.snd h).symm⟩))
  | expire =>
    simp only [atomTimer, Option.ite_none_right_eq_some, Option.some.injEq] at h
    exact Or.inr (Or.inr (Or.inr (Or.inl ⟨rfl, h.1, h.2.symm⟩)))
  | work =>
    simp only [atomTimer, Option.ite_none_right_eq_some, Option.some.injEq] at h
    exact Or.inr (Or.inr (Or.inr (Or.inr ⟨rfl, h.1, h.2.symm⟩)))

/-! ## The flag and the timer -/

/-- An armed timer has its flag set, so `timer_stop` does not skip it. -/
def ArmedRunning (s : AtomTimer) : Prop := s.workTimer = true → s.timerRunning = true

theorem armedRunning_preserved : atomTimer.Preserves ArmedRunning := by
  intro s a t es hs h
  rcases atomTimer_step_cases h with ⟨-, h⟩ | ⟨-, rfl, -⟩ | ⟨-, rfl, -⟩ | ⟨-, -, h⟩ | ⟨-, -, h⟩
  · cases h
    exact fun _ => rfl
  · rw [timerStop_fst]
    intro harmed
    simp only [Bool.and_eq_true, Bool.not_eq_true'] at harmed
    rw [hs harmed.1] at harmed
    exact absurd harmed.2 (by decide)
  · exact hs
  · cases h
    intro harmed
    cases harmed
  · cases h
    exact fun _ => rfl

theorem armedRunning_reachable {s : AtomTimer} (h : atomTimer.Reachable atomIdle s) :
    ArmedRunning s :=
  armedRunning_preserved.reachable (fun harmed => absurd harmed (by decide)) h

end Led
end AtomDrivers
