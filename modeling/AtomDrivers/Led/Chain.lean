/-
The blink chain.

The armed timer and the pending work item are the two tokens that keep the LED
blinking, and `timer_running` stands for both of them.  The flag is set whenever
the timer is armed, so stopping never skips an armed timer, and while the flag is
set one of the tokens is in flight, so the blinking ends by an `ATOM_WRITE_OFF`
only.
-/
import AtomDrivers.Led.Cancel

namespace AtomDrivers
namespace Led

/-- A set flag has a token in flight. -/
def RunningInFlight (s : AtomTimer) : Prop :=
  s.timerRunning = true → s.workTimer = true ∨ s.workTimeOut = true

/-- The flag is set and a token is in flight. -/
def Chained (s : AtomTimer) : Prop :=
  s.timerRunning = true ∧ (s.workTimer = true ∨ s.workTimeOut = true)

theorem chained_timerStart (s : AtomTimer) : Chained (timerStart s).1 := ⟨rfl, Or.inl rfl⟩

theorem runningInFlight_preserved : atomTimer.Preserves RunningInFlight := by
  intro s a t es hs h
  rcases atomTimer_step_cases h with ⟨-, h⟩ | ⟨-, rfl, -⟩ | ⟨-, rfl, -⟩ | ⟨-, -, h⟩ | ⟨-, -, h⟩
  · cases h
    exact fun _ => Or.inl rfl
  · rw [timerStop_fst]
    intro hrunning
    cases hrunning
  · exact hs
  · cases h
    exact fun _ => Or.inr rfl
  · cases h
    exact fun _ => Or.inl rfl

theorem runningInFlight_reachable {s : AtomTimer} (h : atomTimer.Reachable atomIdle s) :
    RunningInFlight s :=
  runningInFlight_preserved.reachable (fun hrunning => absurd hrunning (by decide)) h

/-! ## Until the next stop -/

theorem chained_step {s t : AtomTimer} {a : AtomAction} {es : List AtomEvent} (hs : Chained s)
    (ha : a ≠ .ioctl atomWriteOff) (h : atomTimer.step s a = some (t, es)) : Chained t := by
  rcases atomTimer_step_cases h with
    ⟨-, h⟩ | ⟨hoff, -⟩ | ⟨-, rfl, -⟩ | ⟨-, -, h⟩ | ⟨-, -, h⟩
  · cases h
    exact chained_timerStart s
  · exact absurd hoff ha
  · exact hs
  · cases h
    exact ⟨hs.1, Or.inr rfl⟩
  · cases h
    exact ⟨rfl, Or.inl rfl⟩

theorem chained_run {s t : AtomTimer} {as : List AtomAction} {os : List (List AtomEvent)}
    (hs : Chained s) (has : ∀ a ∈ as, a ≠ .ioctl atomWriteOff)
    (h : atomTimer.run s as = some (t, os)) : Chained t :=
  (Machine.run_outputs (P := fun _ => True)
    (fun _ _ _ _ hs ha hstep => ⟨chained_step hs ha hstep, trivial⟩) hs has h).1

/-- The event drives the pin. -/
def DrivesPin (e : AtomEvent) : Prop := e = .pinOutputLow ∨ e = .pinOutputHigh

/-- The tokens alone drive the pin again. -/
def BlinksOn (s : AtomTimer) : Prop :=
  ∃ as t os, (∀ a ∈ as, a = .expire ∨ a = .work) ∧ atomTimer.run s as = some (t, os) ∧
    ∃ es ∈ os, ∃ e ∈ es, DrivesPin e

theorem blinksOn_pending {s : AtomTimer} (h : s.workTimeOut = true) : BlinksOn s := by
  have hwork : atomTimer.step s .work = some (workTimeOutFunc { s with workTimeOut := false }) := by
    simp [atomTimer, h]
  refine ⟨[.work], _, _, by simp, Machine.run_singleton hwork, _, List.mem_singleton.mpr rfl, _,
    List.mem_cons_self, ?_⟩
  split
  · exact Or.inl rfl
  · exact Or.inr rfl

/-- An armed timer queues the work item, which drives the pin. -/
theorem blinksOn {s : AtomTimer} (hs : Chained s) : BlinksOn s := by
  rcases hs.2 with harmed | hpending
  · have hexpire : atomTimer.step s .expire = some (dwFpKeyWork s) := by
      simp [atomTimer, harmed]
    obtain ⟨as, t, os, has, hrun, es, hes, hpin⟩ := blinksOn_pending (s := (dwFpKeyWork s).1) rfl
    exact ⟨.expire :: as, t, (dwFpKeyWork s).2 :: os, by simpa using has,
      Machine.run_cons hexpire hrun, es, List.mem_cons_of_mem _ hes, hpin⟩
  · exact blinksOn_pending hpending

/-! ## Every reachable state -/

/-- An armed timer is never skipped by `timer_stop`, a set flag has a token in
flight, and after an `ATOM_WRITE_ON` the pin is driven again and again until the
next `ATOM_WRITE_OFF`. -/
theorem chain_kept {s : AtomTimer} (h : atomTimer.Reachable atomIdle s) :
    ((s.workTimer = true → s.timerRunning = true) ∧ (timerStop s).1.workTimer = false) ∧
    (s.timerRunning = true → s.workTimer = true ∨ s.workTimeOut = true) ∧
    ∀ u es as t os, atomTimer.step s (.ioctl atomWriteOn) = some (u, es) →
      (∀ a ∈ as, a ≠ .ioctl atomWriteOff) → atomTimer.run u as = some (t, os) →
      Chained t ∧ BlinksOn t := by
  have harmed : ArmedRunning s := armedRunning_reachable h
  have hskip : (timerStop s).1.workTimer = false := by
    rw [timerStop_fst]
    cases hs : s.workTimer with
    | false => rfl
    | true => simp [harmed hs]
  refine ⟨⟨harmed, hskip⟩, runningInFlight_reachable h, ?_⟩
  intro u es as t os hon has hrun
  have hu : Chained u := by
    simp only [atomTimer, constantAtomIoctl_on, Option.some.injEq] at hon
    have hfst : (timerStart s).1 = u := congrArg Prod.fst hon
    rw [← hfst]
    exact chained_timerStart s
  have ht : Chained t := chained_run hu has hrun
  exact ⟨ht, blinksOn ht⟩

theorem chain_kept_blinking :
    ((blinking.workTimer = true → blinking.timerRunning = true) ∧
      (timerStop blinking).1.workTimer = false) ∧
    (blinking.timerRunning = true → blinking.workTimer = true ∨ blinking.workTimeOut = true) ∧
    ∀ u es as t os, atomTimer.step blinking (.ioctl atomWriteOn) = some (u, es) →
      (∀ a ∈ as, a ≠ .ioctl atomWriteOff) → atomTimer.run u as = some (t, os) →
      Chained t ∧ BlinksOn t :=
  chain_kept blinking_reachable

end Led
end AtomDrivers
