/-
The duty cycle of the blinking LED.

`work_timeOutFunc` drives the pin low in its first eight executions of ten and high
in the other two.  Its static `index` counts the executions and nothing else writes
it, so the executions of a run follow the cycle from the phase the run starts in,
whatever stops and starts lie between them.
-/
import AtomDrivers.Led.Timer
import AtomDrivers.Machine.Cyclic

namespace AtomDrivers
namespace Led

/-- What the events drive the pin to, in order. -/
def pinEvents (es : List AtomEvent) : List AtomEvent :=
  es.filter fun e => e = .pinOutputLow ∨ e = .pinOutputHigh

/-- What each execution of `work_timeOutFunc` in a run drives the pin to. -/
def executions (as : List AtomAction) (os : List (List AtomEvent)) : List (List AtomEvent) :=
  (as.zip os).filterMap fun p => if p.1 = .work then some (pinEvents p.2) else none

/-- Eight times low and two times high. -/
def cycle : List (List AtomEvent) :=
  List.replicate 8 [.pinOutputLow] ++ List.replicate 2 [.pinOutputHigh]

structure DutyCycle (w : List (List AtomEvent)) : Prop where
  low : w.count [.pinOutputLow] = 8
  high : w.count [.pinOutputHigh] = 2
  adjacent : Cyclic.Next [.pinOutputHigh] [.pinOutputHigh] w

theorem cycle_dutyCycle : DutyCycle cycle :=
  ⟨by decide, by decide, 8, by decide, by decide, by decide⟩

/-- Ten executions that follow the cycle, from whichever phase. -/
theorem dutyCycle_of_follows {w : List (List AtomEvent)} {k : Nat} (h : Cyclic.Follows cycle k w)
    (hlen : w.length = 10) : DutyCycle w :=
  ⟨(h.count hlen _).trans cycle_dutyCycle.low, (h.count hlen _).trans cycle_dutyCycle.high,
    h.next hlen cycle_dutyCycle.adjacent⟩

/-! ## One step -/

theorem nextIndex_le {index : Nat} (h : index ≤ 10) : nextIndex index ≤ 10 := by
  unfold nextIndex
  split <;> omega

theorem nextIndex_mod (index : Nat) : nextIndex index % 10 = (index + 1) % 10 := by
  unfold nextIndex
  split <;> omega

/-- The comparison with 8 reads the cycle at the index before the execution. -/
theorem cycle_at : ∀ index ≤ 10, cycle[index % cycle.length]? =
    some [if nextIndex index ≤ 8 then AtomEvent.pinOutputLow else .pinOutputHigh] := by
  decide

theorem pinEvents_work (s : AtomTimer) :
    pinEvents (workTimeOutFunc s).2 =
      [if nextIndex s.index ≤ 8 then .pinOutputLow else .pinOutputHigh] := by
  simp only [workTimeOutFunc, timerStart]
  split <;> rfl

theorem timerStop_index (s : AtomTimer) : (timerStop s).1.index = s.index := by
  rw [timerStop_fst]

/-- Only an execution moves the index, by one phase. -/
theorem index_step {s t : AtomTimer} {a : AtomAction} {es : List AtomEvent}
    (h : atomTimer.step s a = some (t, es)) :
    (a ≠ .work ∧ t.index = s.index) ∨
      (a = .work ∧ t.index = nextIndex s.index ∧
        (t, es) = workTimeOutFunc { s with workTimeOut := false }) := by
  rcases atomTimer_step_cases h with
    ⟨rfl, h⟩ | ⟨rfl, rfl, -⟩ | ⟨⟨cmd, rfl, -⟩, rfl, -⟩ | ⟨rfl, -, h⟩ | ⟨rfl, -, h⟩
  · cases h
    exact Or.inl ⟨by simp, rfl⟩
  · exact Or.inl ⟨by simp, timerStop_index s⟩
  · exact Or.inl ⟨by simp, rfl⟩
  · cases h
    exact Or.inl ⟨by simp, rfl⟩
  · refine Or.inr ⟨rfl, ?_, h⟩
    cases h
    rfl

/-! ## Every run -/

/-- A run from `s` to `t` with these executions keeps the cycle. -/
structure KeepsCycle (s t : AtomTimer) (w : List (List AtomEvent)) : Prop where
  index : t.index ≤ 10
  phase : t.index % 10 = (s.index + w.length) % 10
  follows : Cyclic.Follows cycle s.index w

theorem keepsCycle_run {s t : AtomTimer} {as : List AtomAction} {os : List (List AtomEvent)}
    (hs : s.index ≤ 10) (h : atomTimer.run s as = some (t, os)) :
    KeepsCycle s t (executions as os) := by
  induction as generalizing s os with
  | nil =>
    simp only [Machine.run_nil, Option.some.injEq, Prod.mk.injEq] at h
    obtain ⟨rfl, rfl⟩ := h
    exact ⟨hs, rfl, Cyclic.follows_nil _ _⟩
  | cons a as ih =>
    obtain ⟨u, es, os', hstep, hrun, rfl⟩ := Machine.run_cons_iff.mp h
    rcases index_step hstep with ⟨ha, hu⟩ | ⟨rfl, hu, hwork⟩
    · have hskip : executions (a :: as) (es :: os') = executions as os' := by
        simp [executions, ha]
      have hrest := ih (by omega) hrun
      rw [hskip]
      exact ⟨hrest.index, by rw [hrest.phase, hu], by rw [← hu]; exact hrest.follows⟩
    · have hexec : executions (.work :: as) (es :: os') = pinEvents es :: executions as os' := by
        simp [executions]
      have hrest := ih (by rw [hu]; exact nextIndex_le hs) hrun
      have hnext : u.index % 10 = (s.index + 1) % 10 := by rw [hu, nextIndex_mod]
      have hes : es = (workTimeOutFunc { s with workTimeOut := false }).2 :=
        congrArg Prod.snd hwork
      have hpin : cycle[s.index % cycle.length]? = some (pinEvents es) := by
        rw [hes, pinEvents_work]
        exact cycle_at s.index hs
      rw [hexec]
      refine ⟨hrest.index, ?_, Cyclic.follows_cons_iff.mpr ⟨hpin, hrest.follows.congr hnext⟩⟩
      rw [hrest.phase, List.length_cons]
      omega

/-- Any ten executions in a row drive the pin low eight times and high twice, the
two next to each other in the cyclic order of the ten; the index stays in 0..10; and
the executions run through the cycle phase by phase, with any stops and starts of
the timer between them. -/
theorem duty_cycle {t : AtomTimer} {as : List AtomAction} {os : List (List AtomEvent)}
    (h : atomTimer.run atomIdle as = some (t, os)) :
    (∀ before w after, executions as os = before ++ w ++ after → w.length = 10 → DutyCycle w) ∧
      t.index ≤ 10 ∧
      ∀ n, n < (executions as os).length → (executions as os)[n]? = cycle[n % 10]? := by
  have hkeeps := keepsCycle_run (Nat.zero_le 10) h
  refine ⟨fun before w after hsplit hlen => ?_, hkeeps.index, fun n hn => ?_⟩
  · have hfollows := hkeeps.follows
    rw [hsplit, Cyclic.follows_append_iff, Cyclic.follows_append_iff] at hfollows
    exact dutyCycle_of_follows hfollows.1.2 hlen
  · have hphase : atomIdle.index + n = n := Nat.zero_add n
    rw [hkeeps.follows n hn, hphase]
    rfl

/-- Seven executions, a stop, a start and four more. -/
def restarted : List AtomAction :=
  [.ioctl atomWriteOn] ++ (List.replicate 7 [.expire, .work]).flatten ++
    [.ioctl atomWriteOff, .ioctl atomWriteOn] ++ (List.replicate 4 [.expire, .work]).flatten

/-- The ten executions behind the first one lie across the stop. -/
theorem duty_cycle_restarted :
    ∃ t os, atomTimer.run atomIdle restarted = some (t, os) ∧
      (executions restarted os).length = 11 ∧ DutyCycle ((executions restarted os).drop 1) ∧
      t.index ≤ 10 ∧ (executions restarted os)[10]? = cycle[0]? := by
  obtain ⟨⟨t, os⟩, hrun⟩ := Option.ne_none_iff_exists'.mp
    (show atomTimer.run atomIdle restarted ≠ none by decide)
  have hlen : (executions restarted os).length = 11 := by
    have hall : (atomTimer.run atomIdle restarted).map
        (fun p => (executions restarted p.2).length) = some 11 := by decide
    rw [hrun] at hall
    exact Option.some.inj hall
  obtain ⟨hwindow, hindex, hphase⟩ := duty_cycle hrun
  have hsplit : executions restarted os =
      (executions restarted os).take 1 ++ (executions restarted os).drop 1 ++ [] := by
    rw [List.append_nil, List.take_append_drop]
  refine ⟨t, os, hrun, hlen, hwindow _ _ _ hsplit (by rw [List.length_drop, hlen]), hindex, ?_⟩
  exact hphase 10 (by omega)

end Led
end AtomDrivers
