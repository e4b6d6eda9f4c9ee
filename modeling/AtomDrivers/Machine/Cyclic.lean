/-
Lists that follow a cyclic word.

A list follows a word from phase `k` when its entries are those of the word, read
round and round from there.  A stretch as long as the word is then the word turned,
so it holds the same entries as often, and entries that are next to each other in
the cyclic order of the word are so in the stretch.
-/
import Mathlib.Data.List.Rotate

namespace AtomDrivers
namespace Cyclic

variable {α : Type*} {word u w : List α} {k : Nat}

def Follows (word : List α) (k : Nat) (w : List α) : Prop :=
  ∀ i, i < w.length → w[i]? = word[(k + i) % word.length]?

theorem follows_nil (word : List α) (k : Nat) : Follows word k [] := by
  intro i hi
  exact absurd hi (Nat.not_lt_zero i)

theorem follows_cons_iff {a : α} :
    Follows word k (a :: w) ↔ word[k % word.length]? = some a ∧ Follows word (k + 1) w := by
  constructor
  · intro h
    refine ⟨(h 0 (Nat.zero_lt_succ _)).symm, fun i hi => ?_⟩
    have hphase : k + 1 + i = k + (i + 1) := by omega
    have hnext := h (i + 1) (Nat.succ_lt_succ hi)
    rwa [List.getElem?_cons_succ, ← hphase] at hnext
  · intro h i hi
    cases i with
    | zero => exact h.1.symm
    | succ i =>
      have hphase : k + (i + 1) = k + 1 + i := by omega
      rw [List.getElem?_cons_succ, hphase]
      exact h.2 i (Nat.lt_of_succ_lt_succ hi)

/-- Only the phase within the word matters. -/
theorem Follows.congr {k' : Nat} (hk : k % word.length = k' % word.length) (h : Follows word k w) :
    Follows word k' w := by
  intro i hi
  rw [h i hi, Nat.add_mod, hk, ← Nat.add_mod]

theorem follows_append_iff :
    Follows word k (u ++ w) ↔ Follows word k u ∧ Follows word (k + u.length) w := by
  induction u generalizing k with
  | nil => simp [follows_nil]
  | cons a u ih =>
    have hphase : k + 1 + u.length = k + (u.length + 1) := by omega
    rw [List.cons_append, follows_cons_iff, follows_cons_iff, ih, and_assoc, List.length_cons,
      hphase]

/-- A stretch of the word's own length is the word turned. -/
theorem Follows.eq_rotate (h : Follows word k w) (hlen : w.length = word.length) :
    w = word.rotate k := by
  apply List.ext_getElem?
  intro i
  by_cases hi : i < w.length
  · rw [h i hi, List.getElem?_rotate (by omega), Nat.add_comm]
  · rw [List.getElem?_eq_none (by omega),
      List.getElem?_eq_none (by rw [List.length_rotate]; omega)]

theorem Follows.count [BEq α] (h : Follows word k w) (hlen : w.length = word.length) (a : α) :
    w.count a = word.count a := by
  rw [h.eq_rotate hlen]
  exact (List.rotate_perm word k).count_eq a

/-- `b` comes next behind `a`, where the first entry comes behind the last. -/
def Next (a b : α) (w : List α) : Prop :=
  ∃ i < w.length, w[i]? = some a ∧ w[(i + 1) % w.length]? = some b

/-- Turning by `k` leads to every position. -/
theorem exists_turn {n j : Nat} (k : Nat) (hj : j < n) : ∃ i < n, (i + k) % n = j := by
  have hk : k % n < n := Nat.mod_lt k (by omega)
  refine ⟨(j + (n - k % n)) % n, Nat.mod_lt _ (by omega), ?_⟩
  have hsum : j + (n - k % n) + k % n = j + n := by omega
  rw [Nat.mod_add_mod, ← Nat.add_mod_mod, hsum, Nat.add_mod_right, Nat.mod_eq_of_lt hj]

theorem turn_next (i k n : Nat) : ((i + 1) % n + k) % n = ((i + k) % n + 1) % n := by
  have hcomm : i + 1 + k = i + k + 1 := by omega
  rw [Nat.mod_add_mod, Nat.mod_add_mod, hcomm]

theorem Next.rotate {a b : α} (h : Next a b word) (k : Nat) : Next a b (word.rotate k) := by
  obtain ⟨j, hj, ha, hb⟩ := h
  obtain ⟨i, hi, hturn⟩ := exists_turn k hj
  have hnext : (i + 1) % word.length < word.length := Nat.mod_lt _ (by omega)
  refine ⟨i, by rwa [List.length_rotate], ?_, ?_⟩
  · rw [List.getElem?_rotate hi, hturn]
    exact ha
  · rw [List.length_rotate, List.getElem?_rotate hnext, turn_next, hturn]
    exact hb

theorem Follows.next {a b : α} (h : Follows word k w) (hlen : w.length = word.length)
    (hc : Next a b word) : Next a b w := by
  rw [h.eq_rotate hlen]
  exact hc.rotate k

end Cyclic
end AtomDrivers
