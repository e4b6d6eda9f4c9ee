/-
The interrupt, the work item and the callers of the fingerprint button.

The interrupt handler masks its line and queues a work item.  The work item
reports the press, sleeps until the button is released, reports the release and
opens the line again.  Other code masks and opens the line through the same
three functions, and all of them share the flag `irq_enable`.  The work item is
split at its sleeps, so every other step may fall between its start and its end.
-/
import AtomDrivers.Machine.Run

namespace AtomDrivers
namespace FingerButton

/-- Where the work function is: not running, asleep before it reads the pin
again, or asleep before it opens the line. -/
inductive WorkPhase
  | idle
  | pressed
  | released
  deriving DecidableEq, Repr

/-- `depth` is the kernel's count of nested disables of `fingerbutton_irq`, and
`irqWork` says whether the work item is pending. -/
structure Button where
  depth : Nat
  irqEnable : Bool
  irqWork : Bool
  phase : WorkPhase
  deriving DecidableEq, Repr

inductive ButtonEvent
  | enableIrq (depth : Nat)
  | disableIrq
  | disableIrqNosync
  | irqRouting
  | scheduleWork (new : Bool)
  | buttonDown (down : Bool)
  deriving DecidableEq, Repr

/-- The kernel's `enable_irq`.  At depth 0 it warns and changes nothing. -/
def enableIrq (s : Button) : Button × List ButtonEvent :=
  ({ s with depth := s.depth - 1 }, [.enableIrq s.depth])

def fingerbuttonEnableIrq (s : Button) : Button × List ButtonEvent :=
  if s.irqEnable = false then
    let (s', es) := enableIrq s
    ({ s' with irqEnable := true }, es)
  else (s, [])

/-- Both disabling functions are this one around the kernel's `disable_irq` or
`disable_irq_nosync`.  The first also waits for a running handler, and a handler
is one step here. -/
def disableWith (e : ButtonEvent) (s : Button) : Button × List ButtonEvent :=
  if s.irqEnable then ({ s with depth := s.depth + 1, irqEnable := false }, [e])
  else (s, [])

def fingerbuttonDisableIrq : Button → Button × List ButtonEvent :=
  disableWith .disableIrq

def fingerbuttonDisableIrqNosync : Button → Button × List ButtonEvent :=
  disableWith .disableIrqNosync

def fingerbuttonIrqRouting (s : Button) : Button × List ButtonEvent :=
  let (s', es) := fingerbuttonDisableIrqNosync s
  ({ s' with irqWork := true }, .irqRouting :: es ++ [.scheduleWork (!s'.irqWork)])

/-- `fingerbutton_irq_work` up to its first sleep. -/
def irqWorkStart (s : Button) : Button × List ButtonEvent :=
  ({ s with irqWork := false, phase := .pressed }, [.buttonDown true])

/-- One turn of the loop that waits for the release, up to the next sleep. -/
def irqWorkPoll (gpioIn : Nat) (s : Button) : Button × List ButtonEvent :=
  if gpioIn = 0 then (s, [])
  else ({ s with phase := .released }, [.buttonDown false])

def irqWorkFinish (s : Button) : Button × List ButtonEvent :=
  fingerbuttonEnableIrq { s with phase := .idle }

/-- `fingerbutton_probe` from `request_irq` on.  A successful request leaves the
line open, and `INIT_WORK` clears the pending bit. -/
def fingerbuttonProbe (requestIrq : Int) (s : Button) : Button × Int :=
  if requestIrq ≠ 0 then (s, requestIrq)
  else ({ s with depth := 0, irqEnable := true, irqWork := false }, 0)

/-- The module before its first probe: a line nobody requested is masked. -/
def unbound : Button := { depth := 1, irqEnable := false, irqWork := false, phase := .idle }

def probed : Button := (fingerbuttonProbe 0 unbound).1

inductive ButtonAction
  | irq
  | workStart
  | workPoll (gpioIn : Nat)
  | workFinish
  | clientEnable
  | clientDisable
  | clientDisableNosync
  deriving DecidableEq, Repr

/-- The three actions of other code. -/
def ButtonAction.External : ButtonAction → Prop
  | .clientEnable | .clientDisable | .clientDisableNosync => True
  | _ => False

/-- An interrupt needs an open line, and the work function does not run twice at
a time. -/
def button : Machine Button ButtonAction (List ButtonEvent) where
  step s
    | .irq => if s.depth = 0 then some (fingerbuttonIrqRouting s) else none
    | .workStart => if s.irqWork ∧ s.phase = .idle then some (irqWorkStart s) else none
    | .workPoll gpioIn => if s.phase = .pressed then some (irqWorkPoll gpioIn s) else none
    | .workFinish => if s.phase = .released then some (irqWorkFinish s) else none
    | .clientEnable => some (fingerbuttonEnableIrq s)
    | .clientDisable => some (fingerbuttonDisableIrq s)
    | .clientDisableNosync => some (fingerbuttonDisableIrqNosync s)

/-! ## The flag and the depth -/

/-- The flag says whether the line is open, and a masked line is masked once. -/
def Balanced (s : Button) : Prop := s.depth = if s.irqEnable then 0 else 1

theorem Balanced.depth_eq_zero_iff {s : Button} (h : Balanced s) :
    s.depth = 0 ↔ s.irqEnable = true := by
  unfold Balanced at h
  cases he : s.irqEnable <;> simp [h, he]

theorem Balanced.depth_le_one {s : Button} (h : Balanced s) : s.depth ≤ 1 := by
  unfold Balanced at h
  split at h <;> omega

/-- Opening the line, whoever does it, leaves it open and calls `enable_irq` at
depth 1 at most. -/
theorem fingerbuttonEnableIrq_eq {s : Button} (h : Balanced s) :
    fingerbuttonEnableIrq s =
      ({ s with depth := 0, irqEnable := true },
        if s.irqEnable then [] else [.enableIrq 1]) := by
  obtain ⟨depth, irqEnable, irqWork, phase⟩ := s
  have hdepth : depth = if irqEnable then 0 else 1 := h
  cases irqEnable <;> simp [fingerbuttonEnableIrq, enableIrq, hdepth]

theorem disableWith_eq {s : Button} (h : Balanced s) (e : ButtonEvent) :
    disableWith e s =
      ({ s with depth := 1, irqEnable := false }, if s.irqEnable then [e] else []) := by
  obtain ⟨depth, irqEnable, irqWork, phase⟩ := s
  have hdepth : depth = if irqEnable then 0 else 1 := h
  cases irqEnable <;> simp [disableWith, hdepth]

/-- A delivered interrupt finds the flag set, so its handler masks the line. -/
theorem fingerbuttonIrqRouting_eq {s : Button} (h : Balanced s) (hd : s.depth = 0) :
    fingerbuttonIrqRouting s =
      ({ s with depth := 1, irqEnable := false, irqWork := true },
        [.irqRouting, .disableIrqNosync, .scheduleWork (!s.irqWork)]) := by
  simp [fingerbuttonIrqRouting, fingerbuttonDisableIrqNosync, disableWith_eq h,
    h.depth_eq_zero_iff.mp hd]

theorem irqWorkFinish_eq {s : Button} (h : Balanced s) :
    irqWorkFinish s =
      ({ s with depth := 0, irqEnable := true, phase := .idle },
        if s.irqEnable then [] else [.enableIrq 1]) := by
  have hidle : Balanced { s with phase := .idle } := h
  rw [irqWorkFinish, fingerbuttonEnableIrq_eq hidle]

/-- Every step from a state whose flag agrees with the line, by the kind of its
action. -/
theorem button_step_cases {s t : Button} {a : ButtonAction} {es : List ButtonEvent}
    (hs : Balanced s) (h : button.step s a = some (t, es)) :
    (a = .irq ∧ s.depth = 0 ∧ t = { s with depth := 1, irqEnable := false, irqWork := true } ∧
      es = [.irqRouting, .disableIrqNosync, .scheduleWork (!s.irqWork)]) ∨
    (a = .workStart ∧ s.irqWork = true ∧ s.phase = .idle ∧
      t = { s with irqWork := false, phase := .pressed } ∧ es = [.buttonDown true]) ∨
    ((∃ gpioIn, a = .workPoll gpioIn) ∧ s.phase = .pressed ∧
      (t = s ∧ es = [] ∨ t = { s with phase := .released } ∧ es = [.buttonDown false])) ∨
    (a = .workFinish ∧ s.phase = .released ∧
      t = { s with depth := 0, irqEnable := true, phase := .idle } ∧
      es = if s.irqEnable then [] else [.enableIrq 1]) ∨
    (a = .clientEnable ∧ t = { s with depth := 0, irqEnable := true } ∧
      es = if s.irqEnable then [] else [.enableIrq 1]) ∨
    (∃ e, (a = .clientDisable ∧ e = .disableIrq ∨
        a = .clientDisableNosync ∧ e = .disableIrqNosync) ∧
      t = { s with depth := 1, irqEnable := false } ∧ es = if s.irqEnable then [e] else []) := by
  cases a with
  | irq =>
    simp only [button, Option.ite_none_right_eq_some, Option.some.injEq] at h
    obtain ⟨hd, h⟩ := h
    rw [fingerbuttonIrqRouting_eq hs hd] at h
    cases h
    exact Or.inl ⟨rfl, hd, rfl, rfl⟩
  | workStart =>
    simp only [button, Option.ite_none_right_eq_some, Option.some.injEq] at h
    obtain ⟨⟨hw, hidle⟩, h⟩ := h
    cases h
    exact Or.inr (Or.inl ⟨rfl, hw, hidle, rfl, rfl⟩)
  | workPoll gpioIn =>
    simp only [button, Option.ite_none_right_eq_some, Option.some.injEq] at h
    obtain ⟨hpressed, h⟩ := h
    refine Or.inr (Or.inr (Or.inl ⟨⟨gpioIn, rfl⟩, hpressed, ?_⟩))
    unfold irqWorkPoll at h
    split at h
    · cases h
      exact Or.inl ⟨rfl, rfl⟩
    · cases h
      exact Or.inr ⟨rfl, rfl⟩
  | workFinish =>
    simp only [button, Option.ite_none_right_eq_some, Option.some.injEq] at h
    obtain ⟨hreleased, h⟩ := h
    rw [irqWorkFinish_eq hs] at h
    cases h
    exact Or.inr (Or.inr (Or.inr (Or.inl ⟨rfl, hreleased, rfl, rfl⟩)))
  | clientEnable =>
    simp only [button, Option.some.injEq] at h
    rw [fingerbuttonEnableIrq_eq hs] at h
    cases h
    exact Or.inr (Or.inr (Or.inr (Or.inr (Or.inl ⟨rfl, rfl, rfl⟩))))
  | clientDisable =>
    simp only [button, Option.some.injEq] at h
    rw [fingerbuttonDisableIrq, disableWith_eq hs] at h
    cases h
    exact Or.inr (Or.inr (Or.inr (Or.inr (Or.inr ⟨_, Or.inl ⟨rfl, rfl⟩, rfl, rfl⟩))))
  | clientDisableNosync =>
    simp only [button, Option.some.injEq] at h
    rw [fingerbuttonDisableIrqNosync, disableWith_eq hs] at h
    cases h
    exact Or.inr (Or.inr (Or.inr (Or.inr (Or.inr ⟨_, Or.inr ⟨rfl, rfl⟩, rfl, rfl⟩))))

/-- No call of `enable_irq` is made at depth 0. -/
def EnablesMasked (es : List ButtonEvent) : Prop := ∀ d, .enableIrq d ∈ es → d ≠ 0

theorem enablesMasked_of_ne {es : List ButtonEvent} (h : ∀ d, .enableIrq d ∉ es) :
    EnablesMasked es :=
  fun d hd => absurd hd (h d)

theorem balanced_step {s t : Button} {a : ButtonAction} {es : List ButtonEvent}
    (hs : Balanced s) (h : button.step s a = some (t, es)) : Balanced t ∧ EnablesMasked es := by
  have henable : EnablesMasked (if s.irqEnable then [] else [.enableIrq 1]) := by
    intro d hd
    split at hd
    · simp at hd
    · simp only [List.mem_singleton, ButtonEvent.enableIrq.injEq] at hd
      omega
  obtain ⟨-, -, rfl, rfl⟩ | ⟨-, -, -, rfl, rfl⟩ | ⟨-, -, hpoll⟩ | ⟨-, -, rfl, rfl⟩ |
    ⟨-, rfl, rfl⟩ | ⟨e, he, rfl, rfl⟩ := button_step_cases hs h
  · exact ⟨rfl, enablesMasked_of_ne (by simp)⟩
  · exact ⟨hs, enablesMasked_of_ne (by simp)⟩
  · obtain ⟨rfl, rfl⟩ | ⟨rfl, rfl⟩ := hpoll
    · exact ⟨hs, enablesMasked_of_ne (by simp)⟩
    · exact ⟨hs, enablesMasked_of_ne (by simp)⟩
  · exact ⟨rfl, henable⟩
  · exact ⟨rfl, henable⟩
  · refine ⟨rfl, enablesMasked_of_ne fun d hd => ?_⟩
    split at hd
    · obtain ⟨-, rfl⟩ | ⟨-, rfl⟩ := he
      · simp at hd
      · simp at hd
    · simp at hd

theorem balanced_run {t : Button} {as : List ButtonAction} {os : List (List ButtonEvent)}
    (h : button.run probed as = some (t, os)) : Balanced t ∧ ∀ es ∈ os, EnablesMasked es :=
  Machine.run_outputs (A := fun _ => True)
    (fun _ _ _ _ hs _ hstep => balanced_step hs hstep) (show Balanced probed from rfl)
    (fun _ _ => trivial) h

theorem balanced_reachable {s : Button} (h : button.Reachable probed s) : Balanced s := by
  obtain ⟨as, os, hrun⟩ := h
  exact (balanced_run hrun).1

end FingerButton
end AtomDrivers
