/-
Walks that stop early.

`upTo stop` is the part of a list that a walk gets through when it stops behind the
first entry that `stop` holds of.
-/
import Mathlib.Data.List.Basic

namespace AtomDrivers

variable {ι : Type*} (stop : ι → Bool)

def upTo : List ι → List ι
  | [] => []
  | i :: is => if stop i then [i] else i :: upTo is

theorem upTo_all {is : List ι} (h : ∀ i ∈ is, stop i = false) : upTo stop is = is := by
  induction is with
  | nil => rfl
  | cons i is ih =>
    have hi : stop i = false := h i List.mem_cons_self
    rw [upTo, hi, ih fun k hk => h k (List.mem_cons_of_mem _ hk)]
    rfl

theorem upTo_split {before after : List ι} {j : ι} (h : ∀ i ∈ before, stop i = false)
    (hj : stop j = true) : upTo stop (before ++ j :: after) = before ++ [j] := by
  induction before with
  | nil => rw [List.nil_append, List.nil_append, upTo, if_pos hj]
  | cons i before ih =>
    have hi : stop i = false := h i List.mem_cons_self
    rw [List.cons_append, upTo, hi, ih fun k hk => h k (List.mem_cons_of_mem _ hk)]
    rfl

theorem mem_of_mem_upTo {is : List ι} {i : ι} (h : i ∈ upTo stop is) : i ∈ is := by
  induction is with
  | nil => cases h
  | cons k is ih =>
    rw [upTo] at h
    split at h
    · rw [List.mem_singleton.mp h]
      exact List.mem_cons_self
    · rcases List.mem_cons.mp h with rfl | h
      · exact List.mem_cons_self
      · exact List.mem_cons_of_mem _ (ih h)

/-- A walk runs through or stops at a first entry. -/
theorem all_or_first (is : List ι) :
    (∀ i ∈ is, stop i = false) ∨
      ∃ before j after, is = before ++ j :: after ∧ (∀ i ∈ before, stop i = false) ∧
        stop j = true := by
  cases hfind : is.find? stop with
  | none =>
    refine Or.inl fun i hi => ?_
    simpa using List.find?_eq_none.mp hfind i hi
  | some j =>
    obtain ⟨hj, before, after, hsplit, hbefore⟩ := List.find?_eq_some_iff_append.mp hfind
    exact Or.inr ⟨before, j, after, hsplit, fun i hi => by simpa using hbefore i hi, hj⟩

end AtomDrivers
