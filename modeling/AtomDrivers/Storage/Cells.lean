/-
Fixed arrays of cells, read and written at any position.

A `Cells α N` is a total function from its `N` positions, so no access can be
outside it.  Reads and writes at an arbitrary position are cut at the end.  A
flat array is the list of its cells, where `slice` reads a stretch and `splice`
overwrites one.  `flat_read` and `flat_write` say that these are `read` and
`write` as long as the stretch is inside.
-/
import Mathlib.Data.List.OfFn
import Mathlib.Data.List.TakeDrop
import Mathlib.Tactic.Ring

namespace AtomDrivers
namespace Storage

variable {α : Type*} {N : Nat}

/-- `l` with `bs` written over the cells from `p` on. -/
def splice (l : List α) (p : Nat) (bs : List α) : List α :=
  l.take p ++ bs ++ l.drop (p + bs.length)

def slice (l : List α) (p n : Nat) : List α := (l.drop p).take n

theorem length_slice {l : List α} {p n : Nat} (h : p + n ≤ l.length) :
    (slice l p n).length = n := by
  simp only [slice, List.length_take, List.length_drop]
  omega

theorem getElem?_splice {l bs : List α} {p : Nat} (h : p ≤ l.length) (i : Nat) :
    (splice l p bs)[i]? =
      if i < p then l[i]? else if i < p + bs.length then bs[i - p]? else l[i]? := by
  have htake : (l.take p).length = p := List.length_take_of_le h
  rw [splice, List.append_assoc]
  by_cases hp : i < p
  · rw [if_pos hp, List.getElem?_append_left (by omega), List.getElem?_take_of_lt hp]
  · rw [if_neg hp, List.getElem?_append_right (by omega), htake]
    by_cases hb : i < p + bs.length
    · rw [if_pos hb, List.getElem?_append_left (by omega)]
    · rw [if_neg hb, List.getElem?_append_right (by omega), List.getElem?_drop]
      congr 1
      omega

def Cells (α : Type*) (N : Nat) : Type _ := Fin N → α

namespace Cells

/-- The cells from `p` on, at most `n` of them. -/
def read (c : Cells α N) (p n : Nat) : List α :=
  List.ofFn fun k : Fin (min n (N - p)) => c ⟨p + k, by omega⟩

/-- `bs` written from `p` on, as far as the array reaches. -/
def write (c : Cells α N) (p : Nat) (bs : List α) : Cells α N :=
  fun i => if h : p ≤ i ∧ i < p + bs.length then bs[i - p] else c i

def fill (a : α) : Cells α N := fun _ => a

@[simp] theorem length_read (c : Cells α N) (p n : Nat) : (c.read p n).length = min n (N - p) := by
  simp [read]

theorem getElem_read (c : Cells α N) {p n k : Nat} (h : k < (c.read p n).length) :
    (c.read p n)[k] = c ⟨p + k, by rw [length_read] at h; omega⟩ := by
  simp [read]

/-- Only the part of a request that fits matters. -/
theorem read_min (c : Cells α N) (p n : Nat) : c.read p (min n (N - p)) = c.read p n := by
  apply List.ext_getElem
  · simp only [length_read]
    omega
  · intro k hk hk'
    rw [getElem_read, getElem_read]

theorem read_of_le (c : Cells α N) {p : Nat} (h : N ≤ p) (n : Nat) : c.read p n = [] := by
  apply List.eq_nil_of_length_eq_zero
  rw [length_read]
  omega

theorem write_of_mem (c : Cells α N) {p : Nat} {bs : List α} {i : Fin N} (hp : p ≤ i)
    (hb : i < p + bs.length) : c.write p bs i = bs[i - p] := by
  rw [write, dif_pos ⟨hp, hb⟩]

theorem write_of_not_mem (c : Cells α N) {p : Nat} {bs : List α} {i : Fin N}
    (h : ¬ (p ≤ i ∧ i < p + bs.length)) : c.write p bs i = c i := by
  rw [write, dif_neg h]

theorem write_take (c : Cells α N) (p : Nat) (bs : List α) :
    c.write p (bs.take (min bs.length (N - p))) = c.write p bs := by
  funext i
  have hi := i.isLt
  by_cases h : p ≤ i ∧ i < p + bs.length
  · rw [write_of_mem c h.1 h.2, write_of_mem c h.1 (by rw [List.length_take]; omega)]
    exact List.getElem_take
  · rw [write_of_not_mem c h, write_of_not_mem c (by rw [List.length_take]; omega)]

theorem write_of_le (c : Cells α N) {p : Nat} (h : N ≤ p) (bs : List α) : c.write p bs = c := by
  funext i
  have hi := i.isLt
  exact write_of_not_mem c (by omega)

/-! ## Flat arrays -/

def flat (c : Cells α N) : List α := List.ofFn (n := N) c

@[simp] theorem length_flat (c : Cells α N) : c.flat.length = N := List.length_ofFn

theorem getElem?_flat (c : Cells α N) (i : Nat) :
    c.flat[i]? = if h : i < N then some (c ⟨i, h⟩) else none :=
  List.getElem?_ofFn

theorem getElem_flat (c : Cells α N) {i : Nat} (h : i < c.flat.length) :
    c.flat[i] = c ⟨i, by rwa [length_flat] at h⟩ :=
  List.getElem_ofFn h

theorem flat_read (c : Cells α N) {p n : Nat} (h : p + n ≤ N) :
    slice c.flat p n = c.read p n := by
  apply List.ext_getElem
  · rw [length_slice (by rwa [length_flat]), length_read]
    omega
  · intro k hk hk'
    rw [getElem_read]
    simp only [slice, List.getElem_take, List.getElem_drop]
    exact getElem_flat c _

theorem flat_write (c : Cells α N) {p : Nat} {bs : List α} (h : p + bs.length ≤ N) :
    splice c.flat p bs = (c.write p bs).flat := by
  apply List.ext_getElem?
  intro i
  rw [getElem?_splice (by rw [length_flat]; omega), getElem?_flat, getElem?_flat]
  by_cases hi : i < N
  · rw [dif_pos hi, dif_pos hi]
    by_cases hmem : p ≤ i ∧ i < p + bs.length
    · rw [if_neg (by omega), if_pos hmem.2, write_of_mem c hmem.1 hmem.2]
      exact List.getElem?_eq_getElem (by omega)
    · rw [write_of_not_mem c hmem]
      split
      · rfl
      · rw [if_neg (by omega)]
  · rw [dif_neg hi, if_neg (by omega), if_neg (by omega), dif_neg hi]

theorem flat_fill (a : α) : (fill a : Cells α N).flat = List.replicate N a :=
  List.ofFn_const N a

/-! ## Histories -/

/-- One change of an array. -/
inductive Change (α : Type*)
  | store (p : Nat) (bs : List α)
  | fill (a : α)

def apply (c : Cells α N) : Change α → Cells α N
  | .store p bs => c.write p bs
  | .fill a => fill a

/-- What a change leaves at position `i`, if it touches it. -/
def Change.at (i : Nat) : Change α → Option α
  | .store p bs => if p ≤ i then bs[i - p]? else none
  | .fill a => some a

/-- What the last change that touched position `i` left there, or `a`. -/
def lastAt (a : α) (i : Nat) : List (Change α) → α
  | [] => a
  | ch :: chs => lastAt ((ch.at i).getD a) i chs

theorem apply_at (c : Cells α N) (ch : Change α) (i : Fin N) :
    c.apply ch i = (ch.at i).getD (c i) := by
  cases ch with
  | fill a => rfl
  | store p bs =>
    rw [apply, Change.at]
    by_cases hp : p ≤ i
    · by_cases hb : i < p + bs.length
      · rw [if_pos hp, write_of_mem c hp hb, List.getElem?_eq_getElem (by omega)]
        rfl
      · rw [if_pos hp, write_of_not_mem c (by omega), List.getElem?_eq_none (by omega)]
        rfl
    · rw [if_neg hp, write_of_not_mem c (by omega)]
      rfl

def applyAll (c : Cells α N) (chs : List (Change α)) : Cells α N := chs.foldl apply c

theorem applyAll_append (c : Cells α N) (chs chs' : List (Change α)) :
    c.applyAll (chs ++ chs') = (c.applyAll chs).applyAll chs' :=
  List.foldl_append

/-- A cell holds what the last change that touched it left there. -/
theorem applyAll_at (c : Cells α N) (chs : List (Change α)) (i : Fin N) :
    c.applyAll chs i = lastAt (c i) i chs := by
  induction chs generalizing c with
  | nil => rfl
  | cons ch chs ih =>
    rw [applyAll, List.foldl_cons, ← applyAll, ih, apply_at, lastAt]

end Cells
end Storage
end AtomDrivers
