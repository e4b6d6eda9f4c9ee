/-
Transfers in chunks.

`inChunks` covers a length by operations on whole chunks, one after the other, and one
on the rest, which is a fold over chunks of which the last one may be smaller.  Reads
and writes of adjacent stretches join.
-/
import AtomDrivers.Storage.Cells
import Mathlib.Data.List.Basic

namespace AtomDrivers
namespace Storage

section Chunks

variable {σ : Type*} {chunk len : Nat} {op : Nat → Nat → σ → σ}

/-- `op i n` transfers `n` cells from the start of chunk `i` on. -/
def inChunks (chunk : Nat) (op : Nat → Nat → σ → σ) (len : Nat) (s : σ) : σ :=
  let s := (List.range (len / chunk)).foldl (fun s i => op i chunk s) s
  if len % chunk ≠ 0 then op (len / chunk) (len % chunk) s else s

/-- The chunks that it takes to cover `n` cells. -/
def chunksOf (chunk n : Nat) : Nat := (n + (chunk - 1)) / chunk

theorem chunksOf_mul (hchunk : 0 < chunk) (i : Nat) : chunksOf chunk (i * chunk) = i := by
  rw [chunksOf, Nat.add_comm, Nat.add_mul_div_right _ _ hchunk, Nat.div_eq_of_lt (by omega),
    Nat.zero_add]

theorem chunksOf_mul_add {i n : Nat} (hpos : 0 < n) (hn : n ≤ chunk) :
    chunksOf chunk (i * chunk + n) = i + 1 := by
  have hrest : (n + (chunk - 1)) / chunk = 1 := by
    rw [Nat.div_eq_of_lt_le] <;> omega
  rw [chunksOf, Nat.add_assoc, Nat.add_comm, Nat.add_mul_div_right _ _ (by omega), hrest,
    Nat.add_comm]

theorem mul_lt_of_lt_chunksOf {i : Nat} (h : i < chunksOf chunk len) : i * chunk < len := by
  rcases Nat.eq_zero_or_pos chunk with rfl | hchunk
  · simp [chunksOf] at h
  · have hmul := (Nat.le_div_iff_mul_le hchunk).mp (Nat.succ_le_of_lt h)
    rw [Nat.succ_mul] at hmul
    omega

theorem le_chunksOf_mul (hchunk : 0 < chunk) (len : Nat) : len ≤ chunksOf chunk len * chunk := by
  have hlt := Nat.lt_mul_div_succ (len + (chunk - 1)) hchunk
  rw [Nat.mul_succ, Nat.mul_comm] at hlt
  rw [chunksOf]
  omega

variable (op len) in
/-- Whole chunks and a rest are chunks of which the last one may be smaller. -/
theorem inChunks_eq_foldl (hchunk : 0 < chunk) (s : σ) :
    inChunks chunk op len s =
      (List.range (chunksOf chunk len)).foldl
        (fun s i => op i (min chunk (len - i * chunk)) s) s := by
  have hdiv : len / chunk * chunk + len % chunk = len := Nat.div_add_mod' len chunk
  have hwhole : ∀ rounds, rounds ≤ len / chunk →
      (List.range rounds).foldl (fun s i => op i chunk s) s =
        (List.range rounds).foldl (fun s i => op i (min chunk (len - i * chunk)) s) s := by
    intro rounds hrounds
    refine List.foldl_ext _ _ _ fun s i hi => ?_
    have hmul : (i + 1) * chunk ≤ len / chunk * chunk :=
      Nat.mul_le_mul_right chunk (by have := List.mem_range.mp hi; omega)
    rw [Nat.succ_mul] at hmul
    rw [Nat.min_eq_left (by omega)]
  rw [inChunks, hwhole _ (Nat.le_refl _)]
  by_cases hrest : len % chunk = 0
  · have hcount : chunksOf chunk len = len / chunk := by
      rw [← chunksOf_mul hchunk (len / chunk), show len / chunk * chunk = len by omega]
    rw [if_neg (not_not.mpr hrest), hcount]
  · have hlt := Nat.mod_lt len hchunk
    have hcount : chunksOf chunk len = len / chunk + 1 := by
      rw [← chunksOf_mul_add (i := len / chunk) (Nat.pos_of_ne_zero hrest) hlt.le, hdiv]
    rw [if_pos hrest, hcount, List.range_succ, List.foldl_append]
    have hmin : min chunk (len - len / chunk * chunk) = len % chunk := by omega
    simp only [List.foldl_cons, List.foldl_nil, hmin]

end Chunks

namespace Cells

variable {α : Type*} {N : Nat}

theorem read_append (c : Cells α N) (p m n : Nat) :
    c.read p m ++ c.read (p + m) n = c.read p (m + n) := by
  apply List.ext_getElem
  · rw [List.length_append, length_read, length_read, length_read]
    omega
  · intro k hk hk'
    rw [List.getElem_append, getElem_read]
    have hm := length_read c p m
    by_cases hlt : k < (c.read p m).length
    · rw [dif_pos hlt, getElem_read]
    · rw [dif_neg hlt, getElem_read]
      rw [length_read] at hk' hlt
      congr 2
      omega

theorem write_append (c : Cells α N) (p : Nat) (bs bs' : List α) :
    (c.write p bs).write (p + bs.length) bs' = c.write p (bs ++ bs') := by
  funext i
  by_cases hlast : p + bs.length ≤ i ∧ i < p + bs.length + bs'.length
  · rw [write_of_mem _ hlast.1 hlast.2, write_of_mem c (by omega)
      (by rw [List.length_append]; omega), List.getElem_append_right (by omega)]
    congr 1
    omega
  · rw [write_of_not_mem _ hlast]
    by_cases hfirst : p ≤ i ∧ i < p + bs.length
    · rw [write_of_mem c hfirst.1 hfirst.2, write_of_mem c hfirst.1
        (by rw [List.length_append]; omega), List.getElem_append_left (by omega)]
    · rw [write_of_not_mem c hfirst, write_of_not_mem c (by rw [List.length_append]; omega)]

end Cells
end Storage
end AtomDrivers
