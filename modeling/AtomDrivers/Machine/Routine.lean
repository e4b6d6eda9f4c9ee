/-
Computations over a state that read a hidden input.

Two runs differ in the hidden input only.  `Same R m m'` says that they end in
equal states and with results that `R` relates, and `Blind m` that the hidden
input makes no difference to `m`.  The rules follow the shape of a computation:
a rule for `bind` hands the relation of the first part to the second.
-/
import Mathlib.Data.Option.Basic
import Mathlib.Data.List.Basic

namespace AtomDrivers

universe u

/-- `η` is the hidden input. -/
def Routine (η σ α : Type u) := η → σ → α × σ

namespace Routine

variable {η σ α β γ δ : Type u}

instance : Monad (Routine η σ) where
  pure a := fun _ s => (a, s)
  bind m f := fun h s => f (m h s).1 h (m h s).2

theorem bind_apply (m : Routine η σ α) (f : α → Routine η σ β) (h : η) (s : σ) :
    (m >>= f) h s = f (m h s).1 h (m h s).2 := rfl

/-- A step that sees the state only. -/
def modifyGet (f : σ → α × σ) : Routine η σ α := fun _ s => f s

def modify (f : σ → σ) : Routine η σ PUnit := modifyGet fun s => (.unit, f s)

/-! ## Two runs -/

def Same (R : α → β → Prop) (m : Routine η σ α) (m' : Routine η σ β) : Prop :=
  ∀ h h' s, R (m h s).1 (m' h' s).1 ∧ (m h s).2 = (m' h' s).2

/-- The hidden input makes no difference. -/
def Blind (m : Routine η σ α) : Prop := Same Eq m m

theorem blind_iff {m : Routine η σ α} : Blind m ↔ ∀ h h' s, m h s = m h' s := by
  constructor
  · intro hm h h' s
    exact Prod.ext (hm h h' s).1 (hm h h' s).2
  · intro hm h h' s
    rw [hm h h' s]
    exact ⟨rfl, rfl⟩

theorem Same.pure {R : α → β → Prop} {a : α} {b : β} (h : R a b) :
    Same R (pure a : Routine η σ α) (pure b) :=
  fun _ _ _ => ⟨h, rfl⟩

theorem Same.bind {R : α → β → Prop} {S : γ → δ → Prop} {m : Routine η σ α} {m' : Routine η σ β}
    {f : α → Routine η σ γ} {f' : β → Routine η σ δ} (hm : Same R m m')
    (hf : ∀ a b, R a b → Same S (f a) (f' b)) : Same S (m >>= f) (m' >>= f') := by
  intro h h' s
  have hfirst := hm h h' s
  have hrest := hf _ _ hfirst.1 h h' (m h s).2
  rw [bind_apply, bind_apply, ← hfirst.2]
  exact hrest

theorem Same.ite {S : α → β → Prop} {p : Prop} [Decidable p] {m n : Routine η σ α}
    {m' n' : Routine η σ β} (hm : p → Same S m m') (hn : ¬ p → Same S n n') :
    Same S (if p then m else n) (if p then m' else n') := by
  by_cases hp : p
  · rw [if_pos hp, if_pos hp]
    exact hm hp
  · rw [if_neg hp, if_neg hp]
    exact hn hp

theorem Blind.pure (a : α) : Blind (pure a : Routine η σ α) := Same.pure rfl

theorem Blind.modifyGet (f : σ → α × σ) : Blind (modifyGet f : Routine η σ α) :=
  fun _ _ _ => ⟨rfl, rfl⟩

theorem Blind.modify (f : σ → σ) : Blind (modify f : Routine η σ PUnit) := Blind.modifyGet _

theorem Same.bind_eq {S : γ → δ → Prop} {m m' : Routine η σ α} {f : α → Routine η σ γ}
    {f' : α → Routine η σ δ} (hm : Same Eq m m') (hf : ∀ a, Same S (f a) (f' a)) :
    Same S (m >>= f) (m' >>= f') :=
  hm.bind fun a _ hab => hab ▸ hf a

theorem Blind.bind {m : Routine η σ α} {f : α → Routine η σ β} (hm : Blind m)
    (hf : ∀ a, Blind (f a)) : Blind (m >>= f) :=
  Same.bind_eq hm hf

theorem Blind.ite {p : Prop} [Decidable p] {m n : Routine η σ α} (hm : p → Blind m)
    (hn : ¬ p → Blind n) : Blind (if p then m else n) :=
  Same.ite hm hn

/-! ## Logs -/

/-- A log that the computation only adds to. -/
def Grows (log : σ → List γ) (m : Routine η σ α) : Prop := ∀ h s, log s <+: log (m h s).2

theorem Grows.pure {log : σ → List γ} (a : α) : Grows log (pure a : Routine η σ α) :=
  fun _ _ => List.prefix_refl _

theorem Grows.bind {log : σ → List γ} {m : Routine η σ α} {f : α → Routine η σ β}
    (hm : Grows log m) (hf : ∀ a, Grows log (f a)) : Grows log (m >>= f) :=
  fun h s => (hm h s).trans (hf _ h _)

theorem Grows.ite {log : σ → List γ} {p : Prop} [Decidable p] {m n : Routine η σ α}
    (hm : Grows log m) (hn : Grows log n) : Grows log (if p then m else n) := by
  by_cases hp : p
  · rwa [if_pos hp]
  · rwa [if_neg hp]

/-- What two runs have logged so far agrees when their final logs do. -/
theorem eq_of_initial {l l' m : List γ} (h : l <+: m) (h' : l' <+: m)
    (hlen : l.length = l'.length) : l = l' :=
  (List.prefix_of_prefix_length_le h h' (Nat.le_of_eq hlen)).eq_of_length hlen

end Routine
end AtomDrivers
