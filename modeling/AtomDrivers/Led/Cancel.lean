/-
Stopping the LED.

`ATOM_WRITE_OFF` cancels the timer and leaves a queued work item in flight.  The
work item then drives the pin and arms the timer again, with `timer_running` set
as if the user had started the blinking.  An `ATOM_WRITE_OFF` is honoured
exactly when no work item is pending at that moment.
-/
import AtomDrivers.Led.Timer

namespace AtomDrivers
namespace Led

/-- The event neither drives the pin high nor arms the timer. -/
def Quiet (e : AtomEvent) : Prop := e ≠ .pinOutputHigh ∧ e ≠ .hrtimerStart

/-- After an `ATOM_WRITE_OFF` taken in `s`, every run without an
`ATOM_WRITE_ON` is quiet. -/
def OffHonoured (s : AtomTimer) : Prop :=
  ∀ u es as t os, atomTimer.step s (.ioctl atomWriteOff) = some (u, es) →
    atomTimer.run u as = some (t, os) → (∀ a ∈ as, a ≠ .ioctl atomWriteOn) →
    ∀ o ∈ os, ∀ e ∈ o, Quiet e

/-- Neither token is in flight. -/
def Stopped (s : AtomTimer) : Prop := s.workTimer = false ∧ s.workTimeOut = false

/-- Without an `ATOM_WRITE_ON` a stopped driver stays stopped and quiet. -/
theorem stopped_step {s t : AtomTimer} {a : AtomAction} {es : List AtomEvent} (hs : Stopped s)
    (ha : a ≠ .ioctl atomWriteOn) (h : atomTimer.step s a = some (t, es)) :
    Stopped t ∧ ∀ e ∈ es, Quiet e := by
  rcases atomTimer_step_cases h with
    ⟨hon, -⟩ | ⟨-, rfl, rfl⟩ | ⟨-, rfl, rfl⟩ | ⟨-, harmed, -⟩ | ⟨-, hpending, -⟩
  · exact absurd hon ha
  · refine ⟨by simp [timerStop_fst, Stopped, hs.1, hs.2], fun e he => ?_⟩
    rcases List.mem_append.mp he with he | he
    · unfold timerStop at he
      split at he
      · rw [List.mem_singleton.mp he]
        exact ⟨by decide, by decide⟩
      · simp at he
    · rw [List.mem_singleton.mp he]
      exact ⟨by decide, by decide⟩
  · exact ⟨hs, by simp⟩
  · rw [hs.1] at harmed
    cases harmed
  · rw [hs.2] at hpending
    cases hpending

/-- Turning the LED off cancels the timer whenever it is armed. -/
theorem timerStop_stopped {s : AtomTimer} (hs : ArmedRunning s) (hp : s.workTimeOut = false) :
    Stopped (timerStop s).1 := by
  rw [timerStop_fst]
  refine ⟨?_, hp⟩
  cases harmed : s.workTimer with
  | false => rfl
  | true => simp [hs harmed]

/-- An execution of the work item arms the timer. -/
theorem work_arms {s : AtomTimer} (hp : s.workTimeOut = true) :
    ∃ t es, atomTimer.step s .work = some (t, es) ∧ .hrtimerStart ∈ es := by
  refine ⟨_, _, by simp only [atomTimer, hp, if_true]; rfl, ?_⟩
  simp

theorem timerStop_workTimeOut (s : AtomTimer) : (timerStop s).1.workTimeOut = s.workTimeOut := by
  rw [timerStop_fst]

/-- In every reachable state, an `ATOM_WRITE_OFF` is honoured exactly when no
work item is pending. -/
theorem offHonoured_iff {s : AtomTimer} (h : atomTimer.Reachable atomIdle s) :
    OffHonoured s ↔ s.workTimeOut = false := by
  constructor
  · intro hoff
    by_contra hp
    rw [Bool.not_eq_false] at hp
    obtain ⟨t, es, hwork, hmem⟩ :=
      work_arms (s := (timerStop s).1) (by rw [timerStop_workTimeOut, hp])
    have hquiet := hoff _ _ [.work] t [es] (by rfl) (Machine.run_singleton hwork)
      (by simp) es (by simp) _ hmem
    exact hquiet.2 rfl
  · intro hp u es as t os hstep hrun hon
    have hu : Stopped u := by
      simp only [atomTimer, constantAtomIoctl_off, Option.some.injEq, Prod.mk.injEq] at hstep
      rw [← hstep.1]
      exact timerStop_stopped (armedRunning_reachable h) hp
    exact (Machine.run_outputs (P := fun o => ∀ e ∈ o, Quiet e)
      (fun s a t o hs ha hone => stopped_step hs ha hone) hu hon hrun).2

/-- In every run, all the `ATOM_WRITE_OFF`s are honoured exactly when each of
them is taken with no work item pending. -/
theorem offs_honoured_iff (as : List AtomAction) :
    atomTimer.AllSteps (fun s a => a = .ioctl atomWriteOff → OffHonoured s) atomIdle as ↔
      atomTimer.AllSteps (fun s a => a = .ioctl atomWriteOff → s.workTimeOut = false)
        atomIdle as :=
  Machine.allSteps_congr (fun _ _ hu => imp_congr_right fun _ => offHonoured_iff hu) as

/-- The state reached by an `ATOM_WRITE_ON` and one expiry. -/
def blinking : AtomTimer :=
  { workTimer := false, workTimeOut := true, timerRunning := true, index := 0 }

theorem blinking_reachable : atomTimer.Reachable atomIdle blinking :=
  ⟨[.ioctl atomWriteOn, .expire], [[.hrtimerStart], [.scheduleWork true]], by decide⟩

/-- The work item queued before an `ATOM_WRITE_OFF` arms the timer after it. -/
theorem off_not_honoured : atomTimer.Reachable atomIdle blinking ∧ ¬ OffHonoured blinking :=
  ⟨blinking_reachable, fun h => absurd ((offHonoured_iff blinking_reachable).mp h) (by decide)⟩

end Led
end AtomDrivers
