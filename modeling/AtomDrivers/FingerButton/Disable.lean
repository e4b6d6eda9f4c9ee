/-
Masking the button from other code.

`fingerbutton_disable_irq` leaves no trace when a press is being handled, since
the line is already masked and the flag already false.  The work item then opens
the line at its end, for the caller who asked to keep it masked.  A disable is
honoured exactly when no work item is pending or executing at that moment.
-/
import AtomDrivers.FingerButton.Accounting

namespace AtomDrivers
namespace FingerButton

/-- After a `fingerbutton_disable_irq` called in `s`, no run without a caller's
`fingerbutton_enable_irq` enters the handler. -/
def DisableHonoured (s : Button) : Prop :=
  ∀ u es as t os, button.step s .clientDisable = some (u, es) →
    button.run u as = some (t, os) → (∀ a ∈ as, a ≠ .clientEnable) →
    ∀ o ∈ os, .irqRouting ∉ o

/-- The line is masked and nothing is in flight that would open it. -/
structure Quiesced (s : Button) : Prop where
  depth : s.depth = 1
  irqEnable : s.irqEnable = false
  irqWork : s.irqWork = false
  phase : s.phase = .idle

theorem Quiesced.balanced {s : Button} (hs : Quiesced s) : Balanced s := by
  rw [Balanced, hs.depth, hs.irqEnable]
  rfl

theorem quiesced_step {s t : Button} {a : ButtonAction} {es : List ButtonEvent} (hs : Quiesced s)
    (ha : a ≠ .clientEnable) (h : button.step s a = some (t, es)) :
    Quiesced t ∧ .irqRouting ∉ es := by
  obtain ⟨-, hd, -⟩ | ⟨-, hw, -⟩ | ⟨-, hpressed, -⟩ | ⟨-, hreleased, -⟩ | ⟨henable, -⟩ |
    ⟨e, -, rfl, rfl⟩ := button_step_cases hs.balanced h
  · rw [hs.depth] at hd
    cases hd
  · rw [hs.irqWork] at hw
    cases hw
  · rw [hs.phase] at hpressed
    cases hpressed
  · rw [hs.phase] at hreleased
    cases hreleased
  · exact absurd henable ha
  · exact ⟨⟨rfl, rfl, hs.irqWork, hs.phase⟩, by simp [hs.irqEnable]⟩

/-! ## The way back into the handler -/

/-- Some run without a caller's enable enters the handler. -/
def Delivers (s : Button) : Prop :=
  ∃ as t os, button.run s as = some (t, os) ∧ (∀ a ∈ as, a ≠ .clientEnable) ∧
    ∃ o ∈ os, .irqRouting ∈ o

theorem Delivers.step {s u : Button} {a : ButtonAction} {es : List ButtonEvent}
    (hstep : button.step s a = some (u, es)) (ha : a ≠ .clientEnable) (h : Delivers u) :
    Delivers s := by
  obtain ⟨as, t, os, hrun, hall, o, ho, hmem⟩ := h
  exact ⟨a :: as, t, es :: os, Machine.run_cons hstep hrun, List.forall_mem_cons.mpr ⟨ha, hall⟩,
    o, List.mem_cons_of_mem es ho, hmem⟩

theorem delivers_open {s : Button} (hs : s.depth = 0) : Delivers s := by
  refine ⟨[.irq], _, [_], Machine.run_singleton (by simp only [button, hs, if_true]; rfl),
    by simp, _, List.mem_singleton.mpr rfl, ?_⟩
  simp

theorem delivers_released {s : Button} (hb : Balanced s) (hs : s.phase = .released) :
    Delivers s := by
  have hfinish : button.step s .workFinish =
      some ({ s with depth := 0, irqEnable := true, phase := .idle },
        if s.irqEnable then [] else [.enableIrq 1]) := by
    simp [button, hs, irqWorkFinish_eq hb]
  exact Delivers.step hfinish (by simp) (delivers_open rfl)

theorem delivers_pressed {s : Button} (hb : Balanced s) (hs : s.phase = .pressed) :
    Delivers s := by
  have hpoll : button.step s (.workPoll 1) =
      some ({ s with phase := .released }, [.buttonDown false]) := by
    simp [button, hs, irqWorkPoll]
  have hb' : Balanced { s with phase := .released } := hb
  exact Delivers.step hpoll (by simp) (delivers_released hb' rfl)

/-- A press that is being handled ends with an open line. -/
theorem delivers_handling {s : Button} (hb : Balanced s) (hs : Handling s) : Delivers s := by
  cases hphase : s.phase with
  | idle =>
    have hw : s.irqWork = true := by
      rcases hs with hw | hp
      · exact hw
      · exact absurd hphase hp
    have hstart : button.step s .workStart =
        some ({ s with irqWork := false, phase := .pressed }, [.buttonDown true]) := by
      simp [button, hw, hphase, irqWorkStart]
    have hb' : Balanced { s with irqWork := false, phase := .pressed } := hb
    exact Delivers.step hstart (by simp) (delivers_pressed hb' rfl)
  | pressed => exact delivers_pressed hb hphase
  | released => exact delivers_released hb hphase

/-! ## When a disable is honoured -/

theorem clientDisable_step {s : Button} (hb : Balanced s) :
    button.step s .clientDisable =
      some ({ s with depth := 1, irqEnable := false },
        if s.irqEnable then [.disableIrq] else []) := by
  simp only [button, fingerbuttonDisableIrq, disableWith_eq hb]

theorem disableHonoured_iff {s : Button} (h : button.Reachable probed s) :
    DisableHonoured s ↔ ¬ Handling s := by
  have hb := balanced_reachable h
  have hb' : Balanced { s with depth := 1, irqEnable := false } := rfl
  constructor
  · intro hdisable hhandling
    have hstill : Handling { s with depth := 1, irqEnable := false } := hhandling
    obtain ⟨as, t, os, hrun, hall, o, ho, hmem⟩ := delivers_handling hb' hstill
    exact hdisable _ _ as t os (clientDisable_step hb) hrun hall o ho hmem
  · intro hnot u es as t os hstep hrun hall
    rw [clientDisable_step hb, Option.some.injEq, Prod.mk.injEq] at hstep
    have hu : Quiesced u := by
      rw [← hstep.1]
      refine ⟨rfl, rfl, ?_, ?_⟩
      · by_contra hw
        exact hnot (Or.inl (by simpa using hw))
      · by_contra hp
        exact hnot (Or.inr hp)
    exact (Machine.run_outputs (fun s a t o hs ha hone => quiesced_step hs ha hone)
      hu hall hrun).2

/-- In every run, all the callers' disables are honoured exactly when each of
them is made with no work item pending or executing. -/
theorem disables_honoured_iff (as : List ButtonAction) :
    button.AllSteps (fun s a => a = .clientDisable → DisableHonoured s) probed as ↔
      button.AllSteps (fun s a => a = .clientDisable → s.irqWork = false ∧ s.phase = .idle)
        probed as := by
  refine Machine.allSteps_congr (fun s a hs => imp_congr_right fun _ => ?_) as
  rw [disableHonoured_iff hs]
  simp [Handling]

/-- The state after one delivered interrupt. -/
def pressQueued : Button := { depth := 1, irqEnable := false, irqWork := true, phase := .idle }

theorem pressQueued_reachable : button.Reachable probed pressQueued :=
  ⟨[.irq], [[.irqRouting, .disableIrqNosync, .scheduleWork true]], by decide⟩

/-- A disable during a press is undone by the end of the press. -/
theorem disable_not_honoured :
    button.Reachable probed pressQueued ∧ ¬ DisableHonoured pressQueued :=
  ⟨pressQueued_reachable,
    fun h => (disableHonoured_iff pressQueued_reachable).mp h (Or.inl rfl)⟩

end FingerButton
end AtomDrivers
