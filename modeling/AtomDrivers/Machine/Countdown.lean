/-
One-shot countdowns.

A countdown is off or has some ticks left.  A tick at 0 fires it and turns it
off, and any other tick only lowers it.  So a countdown that starts with `c`
ticks left fires in its tick number `c`, counted from 0, and never again.
-/
import Mathlib.Data.List.Basic

namespace AtomDrivers
namespace Countdown

/-- The countdown after one tick. -/
def tick : Option Nat → Option Nat
  | none => none
  | some 0 => none
  | some (c + 1) => some c

/-- Whether the next tick fires. -/
def Due (c : Option Nat) : Prop := c = some 0

instance (c : Option Nat) : Decidable (Due c) := inferInstanceAs (Decidable (c = some 0))

/-- The countdown after `n` ticks. -/
def after (c : Option Nat) : Nat → Option Nat
  | 0 => c
  | n + 1 => tick (after c n)

@[simp] theorem after_zero (c : Option Nat) : after c 0 = c := rfl

theorem after_succ (c : Option Nat) (n : Nat) : after c (n + 1) = tick (after c n) := rfl

theorem after_tick (c : Option Nat) (n : Nat) : after (tick c) n = after c (n + 1) := by
  induction n with
  | zero => rfl
  | succ n ih => rw [after_succ, ih, after_succ c (n + 1)]

theorem after_none (n : Nat) : after none n = none := by
  induction n with
  | zero => rfl
  | succ n ih => rw [after_succ, ih, tick]

theorem after_some (c n : Nat) : after (some c) n = if n ≤ c then some (c - n) else none := by
  induction n with
  | zero => simp
  | succ n ih =>
    rw [after_succ, ih]
    by_cases hn : n ≤ c
    · rw [if_pos hn]
      by_cases hlast : n = c
      · have hzero : c - n = 0 := by omega
        rw [hzero, if_neg (by omega), tick]
      · have hsucc : c - n = c - (n + 1) + 1 := by omega
        rw [hsucc, if_pos (by omega), tick]
    · rw [if_neg hn, if_neg (by omega), tick]

theorem due_after_some {c n : Nat} : Due (after (some c) n) ↔ n = c := by
  rw [after_some, Due]
  split
  · simp only [Option.some.injEq]
    omega
  · simp only [reduceCtorEq, false_iff]
    omega

theorem not_due_after_none (n : Nat) : ¬ Due (after none n) := by
  rw [after_none]
  simp [Due]

/-- The countdown fires within the first `n` ticks. -/
def Fired (c : Option Nat) (n : Nat) : Prop := ∃ k < n, Due (after c k)

instance (c : Option Nat) (n : Nat) : Decidable (Fired c n) :=
  inferInstanceAs (Decidable (∃ k < n, Due (after c k)))

theorem fired_zero (c : Option Nat) : ¬ Fired c 0 := by
  intro h
  obtain ⟨k, hk, _⟩ := h
  omega

theorem fired_succ {c : Option Nat} {n : Nat} :
    Fired c (n + 1) ↔ Fired c n ∨ Due (after c n) := by
  constructor
  · intro h
    obtain ⟨k, hk, hdue⟩ := h
    by_cases hlast : k = n
    · exact Or.inr (hlast ▸ hdue)
    · exact Or.inl ⟨k, by omega, hdue⟩
  · intro h
    obtain ⟨k, hk, hdue⟩ | hdue := h
    · exact ⟨k, by omega, hdue⟩
    · exact ⟨n, by omega, hdue⟩

theorem fired_tick {c : Option Nat} {n : Nat} : Fired c (n + 1) ↔ Due c ∨ Fired (tick c) n := by
  induction n with
  | zero => simp [fired_succ, fired_zero]
  | succ n ih => rw [fired_succ, ih, fired_succ, after_tick, or_assoc]

theorem fired_some {c n : Nat} : Fired (some c) n ↔ c < n := by
  constructor
  · intro h
    obtain ⟨k, hk, hdue⟩ := h
    rw [due_after_some] at hdue
    omega
  · exact fun h => ⟨c, h, due_after_some.mpr rfl⟩

/-- No countdown fires twice. -/
theorem not_due_of_fired {c : Option Nat} {n : Nat} (h : Fired c n) : ¬ Due (after c n) := by
  obtain ⟨k, hk, hdue⟩ := h
  cases c with
  | none => exact not_due_after_none n
  | some c =>
    rw [due_after_some] at hdue ⊢
    omega

theorem not_fired_none (n : Nat) : ¬ Fired none n := by
  intro h
  obtain ⟨k, _, hdue⟩ := h
  exact not_due_after_none k hdue

/-- What is sent at a first tick and at the `n` ticks behind it is sent once. -/
theorem sent_once {β : Type*} (c n : Nat) (v : β) :
    ((if c = 0 then [v] else []) ++ if Fired (tick (some c)) n then [v] else []) =
      if c ≤ n then [v] else [] := by
  have hsplit : c ≤ n ↔ c = 0 ∨ Fired (tick (some c)) n := by
    have htick := fired_tick (c := some c) (n := n)
    rw [fired_some, Due, Option.some.injEq] at htick
    rw [← htick]
    omega
  by_cases hzero : c = 0
  · have hnot : ¬ Fired (tick (some c)) n := by
      rw [hzero]
      exact not_fired_none n
    rw [if_pos hzero, if_neg hnot, if_pos (hsplit.mpr (Or.inl hzero)), List.append_nil]
  · rw [if_neg hzero, List.nil_append]
    simp only [hsplit, hzero, false_or]

end Countdown
end AtomDrivers
