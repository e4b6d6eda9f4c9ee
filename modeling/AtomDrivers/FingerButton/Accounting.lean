/-
Interrupt accounting of the fingerprint button.

In every run the flag agrees with the kernel's disable depth, which never passes
one.  In a run in which no other code calls the three functions, the line is
masked exactly while a press is being handled, and the presses reported are one
down and one up for each delivered interrupt.
-/
import AtomDrivers.FingerButton.Irq

namespace AtomDrivers
namespace FingerButton

def reports (es : List ButtonEvent) : List Bool :=
  es.filterMap fun
    | .buttonDown down => some down
    | _ => none

/-- The reports of `n` presses, each a down and an up. -/
def presses : Nat → List Bool
  | 0 => []
  | n + 1 => presses n ++ [true, false]

/-- A work item is pending or executing. -/
def Handling (s : Button) : Prop := s.irqWork = true ∨ s.phase ≠ .idle

/-- The reports after `n` delivered interrupts.  A pending work item has reported
nothing yet, and one that waits for the release has reported its down. -/
def reported (s : Button) (n : Nat) : List Bool :=
  match s.phase with
  | .idle => presses (if s.irqWork then n - 1 else n)
  | .pressed => presses (n - 1) ++ [true]
  | .released => presses n

/-- What holds after `n` delivered interrupts and the events `es`. -/
structure Accounted (s : Button) (n : Nat) (es : List ButtonEvent) : Prop where
  masked : s.depth ≠ 0 ↔ Handling s
  single : s.irqWork = true → s.phase = .idle
  delivered : Handling s → 0 < n
  queues : es.count (.scheduleWork true) = n
  fresh : .scheduleWork false ∉ es
  reports : reports es = reported s n

theorem reports_append (es fs : List ButtonEvent) : reports (es ++ fs) = reports es ++ reports fs :=
  List.filterMap_append

theorem presses_pred {n : Nat} (hn : 0 < n) : presses (n - 1) ++ [true, false] = presses n := by
  obtain ⟨m, rfl⟩ := Nat.exists_eq_succ_of_ne_zero (Nat.ne_of_gt hn)
  rfl

theorem accounted_probed : Accounted probed 0 [] where
  masked := by simp [probed, fingerbuttonProbe, Handling, unbound]
  single := by simp [probed, fingerbuttonProbe]
  delivered := by simp [probed, fingerbuttonProbe, Handling, unbound]
  queues := rfl
  fresh := by simp
  reports := rfl

theorem accounted_irq {s t : Button} {n : Nat} {es fs : List ButtonEvent} (hb : Balanced s)
    (hs : Accounted s n es) (h : button.step s .irq = some (t, fs)) :
    Accounted t (n + 1) (es ++ fs) := by
  obtain ⟨-, hd, rfl, rfl⟩ | ⟨ha, -⟩ | ⟨⟨_, ha⟩, -⟩ | ⟨ha, -⟩ | ⟨ha, -⟩ |
    ⟨_, ⟨ha, -⟩ | ⟨ha, -⟩, -⟩ := button_step_cases hb h
  -- An open line means that no press is being handled.
  · have hopen : ¬ Handling s := fun hh => absurd hd (hs.masked.mpr hh)
    have hidle : s.phase = .idle := by
      by_contra hp
      exact hopen (Or.inr hp)
    have hclear : s.irqWork = false := by
      by_contra hw
      exact hopen (Or.inl (by simpa using hw))
    have hrep := hs.reports
    simp only [reported, hidle, hclear] at hrep
    exact {
      masked := by simp [Handling]
      single := fun _ => hidle
      delivered := fun _ => Nat.succ_pos n
      queues := by simp [List.count_append, hs.queues, hclear]
      fresh := by simp [hs.fresh, hclear]
      reports := by
        rw [reports_append, hrep]
        simp [FingerButton.reports, reported, hidle] }
  all_goals cases ha

/-- The work item starts and reports the press. -/
theorem accounted_started {s : Button} {n : Nat} {es : List ButtonEvent} (hs : Accounted s n es)
    (hw : s.irqWork = true) (hidle : s.phase = .idle) :
    Accounted { s with irqWork := false, phase := .pressed } n (es ++ [.buttonDown true]) := by
  have hrep := hs.reports
  simp only [reported, hidle, hw, if_true] at hrep
  exact {
    masked := by simpa [Handling, hw] using hs.masked.mpr (Or.inl hw)
    single := by simp
    delivered := fun _ => hs.delivered (Or.inl hw)
    queues := by simp [List.count_append, hs.queues]
    fresh := by simp [hs.fresh]
    reports := by
      rw [reports_append, hrep]
      rfl }

/-- The poll sees the button released. -/
theorem accounted_released {s : Button} {n : Nat} {es : List ButtonEvent} (hs : Accounted s n es)
    (hpressed : s.phase = .pressed) :
    Accounted { s with phase := .released } n (es ++ [.buttonDown false]) := by
  have hhandling : Handling s := Or.inr (by simp [hpressed])
  have hrep := hs.reports
  simp only [reported, hpressed] at hrep
  exact {
    masked := by simpa [Handling] using hs.masked.mpr hhandling
    single := fun hw => absurd (hs.single hw) (by simp [hpressed])
    delivered := fun _ => hs.delivered hhandling
    queues := by simp [List.count_append, hs.queues]
    fresh := by simp [hs.fresh]
    reports := by
      rw [reports_append, hrep, List.append_assoc]
      exact presses_pred (hs.delivered hhandling) }

/-- The work item opens the line again. -/
theorem accounted_finished {s : Button} {n : Nat} {es : List ButtonEvent} (hs : Accounted s n es)
    (hreleased : s.phase = .released) :
    Accounted { s with depth := 0, irqEnable := true, phase := .idle } n
      (es ++ if s.irqEnable then [] else [.enableIrq 1]) := by
  have hclear : s.irqWork = false := by
    by_contra hw
    have hidle := hs.single (by simpa using hw)
    rw [hreleased] at hidle
    cases hidle
  have hrep := hs.reports
  simp only [reported, hreleased] at hrep
  exact {
    masked := by simp [Handling, hclear]
    single := fun _ => rfl
    delivered := fun hh => absurd hh (by simp [Handling, hclear])
    queues := by
      rw [List.count_append, hs.queues]
      split <;> simp
    fresh := by
      have hfresh := hs.fresh
      split <;> simpa
    reports := by
      rw [reports_append, hrep]
      split <;> simp [FingerButton.reports, reported, hclear] }

theorem accounted_work {s t : Button} {n : Nat} {a : ButtonAction} {es fs : List ButtonEvent}
    (hb : Balanced s) (hs : Accounted s n es) (ha : ¬ a.External) (hirq : a ≠ .irq)
    (h : button.step s a = some (t, fs)) : Accounted t n (es ++ fs) := by
  obtain ⟨rfl, -⟩ | ⟨-, hw, hidle, rfl, rfl⟩ | ⟨-, hpressed, hpoll⟩ | ⟨-, hreleased, rfl, rfl⟩ |
    ⟨rfl, -⟩ | ⟨_, ⟨rfl, -⟩ | ⟨rfl, -⟩, -⟩ := button_step_cases hb h
  · exact absurd rfl hirq
  · exact accounted_started hs hw hidle
  · obtain ⟨rfl, rfl⟩ | ⟨rfl, rfl⟩ := hpoll
    · rw [List.append_nil]
      exact hs
    · exact accounted_released hs hpressed
  · exact accounted_finished hs hreleased
  · exact absurd trivial ha
  · exact absurd trivial ha
  · exact absurd trivial ha

theorem accounted_run {t : Button} {as : List ButtonAction} {os : List (List ButtonEvent)}
    (hrun : button.run probed as = some (t, os)) (ha : ∀ a ∈ as, ¬ a.External) :
    Accounted t (as.count .irq) os.flatten := by
  have hJ := Machine.run_history
    (J := fun s bs ps => (∀ b ∈ bs, ¬ b.External) →
      Balanced s ∧ Accounted s (bs.count .irq) ps.flatten)
    (fun s bs ps a u o ih hstep hall => by
      obtain ⟨hb, hs⟩ := ih fun b hmem => hall b (List.mem_append_left [a] hmem)
      refine ⟨(balanced_step hb hstep).1, ?_⟩
      rw [List.flatten_append, List.flatten_singleton, List.count_append]
      by_cases hirq : a = .irq
      · subst hirq
        exact accounted_irq hb hs hstep
      · have hnone : [a].count .irq = 0 := List.count_eq_zero.mpr (by simpa using Ne.symm hirq)
        rw [hnone, Nat.add_zero]
        exact accounted_work hb hs (hall a (by simp)) hirq hstep)
    (fun _ => ⟨show Balanced probed from rfl, accounted_probed⟩) hrun
  exact (hJ ha).2

/-- The accounting of every run from a successful probe, and of every run in
which no other code calls the three functions. -/
theorem interrupt_accounting {t : Button} {as : List ButtonAction} {os : List (List ButtonEvent)}
    (hrun : button.run probed as = some (t, os)) :
    ((t.depth = 0 ↔ t.irqEnable = true) ∧ t.depth ≤ 1 ∧
      ∀ d, .enableIrq d ∈ os.flatten → d ≠ 0) ∧
    ((∀ a ∈ as, ¬ a.External) →
      (t.depth ≠ 0 ↔ Handling t) ∧
      os.flatten.count (.scheduleWork true) = as.count .irq ∧
      .scheduleWork false ∉ os.flatten ∧
      reports os.flatten = reported t (as.count .irq)) := by
  obtain ⟨hb, henables⟩ := balanced_run hrun
  refine ⟨⟨hb.depth_eq_zero_iff, hb.depth_le_one, fun d hd => ?_⟩, fun ha => ?_⟩
  · obtain ⟨es, hes, hmem⟩ := List.mem_flatten.mp hd
    exact henables es hes d hmem
  · have hs := accounted_run hrun ha
    exact ⟨hs.masked, hs.queues, hs.fresh, hs.reports⟩

/-- One press, from its interrupt to its last report. -/
def onePress : List ButtonAction := [.irq, .workStart, .workPoll 1, .workFinish]

theorem interrupt_accounting_press :
    ∃ os, button.run probed onePress = some (probed, os) ∧
      ((probed.depth = 0 ↔ probed.irqEnable = true) ∧ probed.depth ≤ 1 ∧
        ∀ d, .enableIrq d ∈ os.flatten → d ≠ 0) ∧
      (probed.depth ≠ 0 ↔ Handling probed) ∧
      os.flatten.count (.scheduleWork true) = 1 ∧ .scheduleWork false ∉ os.flatten ∧
      reports os.flatten = reported probed 1 := by
  have hrun : button.run probed onePress =
      some (probed, [[.irqRouting, .disableIrqNosync, .scheduleWork true], [.buttonDown true],
        [.buttonDown false], [.enableIrq 1]]) := by decide
  obtain ⟨hflag, haccounts⟩ := interrupt_accounting hrun
  exact ⟨_, hrun, hflag, haccounts (by simp [onePress, ButtonAction.External])⟩

end FingerButton
end AtomDrivers
