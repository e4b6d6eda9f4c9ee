/-
Lists of nodes linked through memory.

`Chain next first l stop` says that the links lead from `first` through exactly
the nodes of `l` to `stop`.  The links determine the nodes, and a chain that ends
visits none twice.  What is done to a chain is done to one link: a chain is
extended behind its last node and cut behind any node, and a change to the link of
a node outside it does not matter.
-/
import Mathlib.Data.List.Basic
import Mathlib.Data.List.Nodup
import Mathlib.Logic.Function.Basic

namespace AtomDrivers
namespace Storage

variable {κ : Type*}

def Chain (next : κ → Option κ) : Option κ → List κ → Option κ → Prop
  | first, [], stop => first = stop
  | first, k :: l, stop => first = some k ∧ Chain next (next k) l stop

namespace Chain

variable {next : κ → Option κ} {first stop : Option κ} {l m : List κ} {k : κ}

@[simp] theorem nil_iff : Chain next first [] stop ↔ first = stop := Iff.rfl

@[simp] theorem cons_iff :
    Chain next first (k :: l) stop ↔ first = some k ∧ Chain next (next k) l stop := Iff.rfl

theorem append_iff :
    Chain next first (l ++ m) stop ↔
      ∃ middle, Chain next first l middle ∧ Chain next middle m stop := by
  induction l generalizing first with
  | nil => simp
  | cons k l ih =>
    rw [List.cons_append, cons_iff, ih]
    constructor
    · intro h
      obtain ⟨hk, middle, hl, hm⟩ := h
      exact ⟨middle, ⟨hk, hl⟩, hm⟩
    · intro h
      obtain ⟨middle, ⟨hk, hl⟩, hm⟩ := h
      exact ⟨hk, middle, hl, hm⟩

/-- A chain with a node starts at its first node. -/
theorem first_eq (h : Chain next first l none) : first = l.head? := by
  cases l with
  | nil => exact h
  | cons k l => exact h.1

/-- The links determine the nodes up to the end. -/
theorem unique (hl : Chain next first l none) (hm : Chain next first m none) : l = m := by
  induction l generalizing first m with
  | nil =>
    cases m with
    | nil => rfl
    | cons k m =>
      have hnone : first = none := hl
      rw [hnone] at hm
      cases hm.1
  | cons k l ih =>
    cases m with
    | nil =>
      have hnone : first = none := hm
      rw [hnone] at hl
      cases hl.1
    | cons k' m =>
      have hsame : some k = some k' := hl.1.symm.trans hm.1
      cases hsame
      rw [ih hl.2 hm.2]

/-- A chain that ends comes to no node twice: from there on it would go round. -/
theorem nodup (h : Chain next first l none) : l.Nodup := by
  induction l generalizing first with
  | nil => exact List.nodup_nil
  | cons k l ih =>
    refine List.nodup_cons.mpr ⟨fun hk => ?_, ih h.2⟩
    obtain ⟨before, after, rfl⟩ := List.append_of_mem hk
    obtain ⟨middle, _, hrest⟩ := append_iff.mp h.2
    have hagain : before ++ k :: after = after := unique h.2 hrest.2
    have hlength := congrArg List.length hagain
    rw [List.length_append, List.length_cons] at hlength
    omega

/-- Only the links of the nodes matter. -/
theorem congr {next' : κ → Option κ} (h : ∀ k ∈ l, next' k = next k) :
    Chain next' first l stop ↔ Chain next first l stop := by
  induction l generalizing first with
  | nil => exact Iff.rfl
  | cons a l ih =>
    rw [cons_iff, cons_iff, h a List.mem_cons_self,
      ih fun k hk => h k (List.mem_cons_of_mem a hk)]

section Changes

variable [DecidableEq κ] {v : Option κ}

/-- The link of a node outside the chain does not matter. -/
theorem update_of_notMem (hk : k ∉ l) :
    Chain (Function.update next k v) first l stop ↔ Chain next first l stop :=
  congr fun a ha => Function.update_of_ne (fun heq : a = k => hk (heq ▸ ha)) _ _

/-- The link of the last node says where the chain goes on. -/
theorem update_last (h : Chain next first (l ++ [k]) none) :
    Chain (Function.update next k v) first (l ++ [k]) v := by
  have hk : k ∉ l := fun hmem =>
    (List.nodup_append.mp h.nodup).2.2 k hmem k List.mem_cons_self rfl
  obtain ⟨middle, hl, hlast⟩ := append_iff.mp h
  refine append_iff.mpr ⟨middle, (update_of_notMem hk).mpr hl, hlast.1, ?_⟩
  exact Function.update_self k v next

/-- A node is linked behind the last one. -/
theorem snoc {b : κ} (h : Chain next first (l ++ [k]) none) (hb : b ∉ l ++ [k])
    (hlink : next b = none) :
    Chain (Function.update next k (some b)) first (l ++ [k] ++ [b]) none := by
  have hkb : b ≠ k := fun heq => hb (by simp [heq])
  refine append_iff.mpr ⟨some b, h.update_last, rfl, ?_⟩
  rw [nil_iff, Function.update_of_ne hkb, hlink]

/-- A chain is cut behind a node: one part ends there, the other starts at its link. -/
theorem cut (h : Chain next first (l ++ k :: m) none) :
    Chain (Function.update next k none) first (l ++ [k]) none ∧
      Chain (Function.update next k none) (next k) m none := by
  have hnodup : (k :: m).Nodup := (List.nodup_append.mp h.nodup).2.1
  have hkl : k ∉ l := fun hmem =>
    (List.nodup_append.mp h.nodup).2.2 k hmem k List.mem_cons_self rfl
  obtain ⟨middle, hl, hrest⟩ := append_iff.mp h
  constructor
  · refine append_iff.mpr ⟨middle, (update_of_notMem hkl).mpr hl, hrest.1, ?_⟩
    exact Function.update_self k none next
  · exact (update_of_notMem (List.nodup_cons.mp hnodup).1).mpr hrest.2

end Changes

/-! ## Following the links -/

/-- The nodes from `first` on, `none` where the end is not reached in `fuel` nodes. -/
def follow (next : κ → Option κ) : Nat → Option κ → Option (List κ)
  | _, none => some []
  | 0, some _ => none
  | fuel + 1, some k => (follow next fuel (next k)).map (k :: ·)

theorem follow_eq {fuel : Nat} (h : Chain next first l none) (hfuel : l.length ≤ fuel) :
    follow next fuel first = some l := by
  induction l generalizing first fuel with
  | nil =>
    have hnone : first = none := h
    rw [hnone]
    cases fuel <;> rfl
  | cons k l ih =>
    obtain ⟨hk, hl⟩ := h
    cases fuel with
    | zero => simp at hfuel
    | succ fuel =>
      rw [hk, follow, ih hl (by simpa using hfuel)]
      rfl

end Chain
end Storage
end AtomDrivers
