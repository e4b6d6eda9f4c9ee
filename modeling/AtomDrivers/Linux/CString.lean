/-
Strings in memory.

A string is what lies in memory before the first byte 0.  Memory is the list of the
bytes from the address of the string to the end of what is mapped, and a function
that finds no 0 there faults.  An array is a list of its bytes, and a function that
writes behind its end overruns it.
-/
import Mathlib.Data.List.Basic
import Mathlib.Data.List.Infix
import Mathlib.Data.Nat.Find

namespace AtomDrivers
namespace Linux

/-- The string at the start of the memory. -/
def cString : List UInt8 → Option (List UInt8)
  | [] => none
  | b :: mem => if b = 0 then some [] else (cString mem).map (b :: ·)

theorem cString_eq_some_iff {mem s : List UInt8} :
    cString mem = some s ↔ 0 ∉ s ∧ ∃ rest, mem = s ++ 0 :: rest := by
  induction mem generalizing s with
  | nil => simp [cString]
  | cons b mem ih =>
    rw [cString]
    by_cases hb : b = 0
    · rw [if_pos hb]
      constructor
      · intro h
        obtain rfl : [] = s := Option.some.inj h
        exact ⟨by simp, mem, by rw [hb, List.nil_append]⟩
      · rintro ⟨hs, rest, hmem⟩
        cases s with
        | nil => rfl
        | cons c s =>
          have hc : b = c := (List.cons.inj hmem).1
          exact absurd (hc ▸ hb ▸ List.mem_cons_self) hs
    · rw [if_neg hb, Option.map_eq_some_iff]
      constructor
      · rintro ⟨s, hs, rfl⟩
        obtain ⟨hzero, rest, rfl⟩ := ih.mp hs
        exact ⟨by simp [hzero, Ne.symm hb], rest, rfl⟩
      · rintro ⟨hs, rest, hmem⟩
        cases s with
        | nil => exact absurd (List.cons.inj hmem).1 hb
        | cons c s =>
          obtain ⟨rfl, htail⟩ := List.cons.inj hmem
          exact ⟨s, ih.mpr ⟨fun h => hs (List.mem_cons_of_mem b h), rest, htail⟩, rfl⟩

theorem cString_terminated {s : List UInt8} (h : 0 ∉ s) (rest : List UInt8) :
    cString (s ++ 0 :: rest) = some s :=
  cString_eq_some_iff.mpr ⟨h, rest, rfl⟩

/-- The memory behind a string does not matter. -/
theorem cString_append {mem s : List UInt8} (h : cString mem = some s) (beyond : List UInt8) :
    cString (mem ++ beyond) = some s := by
  obtain ⟨hs, rest, rfl⟩ := cString_eq_some_iff.mp h
  rw [List.append_assoc, List.cons_append]
  exact cString_terminated hs _

theorem cString_length {mem s : List UInt8} (h : cString mem = some s) : s.length < mem.length := by
  obtain ⟨hs, rest, rfl⟩ := cString_eq_some_iff.mp h
  simp

/-- Bytes without a 0. -/
structure CName where
  chars : List UInt8
  nonzero : 0 ∉ chars

/-! ## Searching -/

/-- The offset of the first occurrence of `key` in a string. -/
def strstr (key : List UInt8) : List UInt8 → Option Nat
  | [] => if key.isPrefixOf [] then some 0 else none
  | b :: s => if key.isPrefixOf (b :: s) then some 0 else (strstr key s).map (· + 1)

section Search

variable {key s : List UInt8}

theorem strstr_head (h : key <+: s) : strstr key s = some 0 := by
  have hprefix := List.isPrefixOf_iff_prefix.mpr h
  cases s with
  | nil => rw [strstr, if_pos hprefix]
  | cons b s => rw [strstr, if_pos hprefix]

theorem strstr_cons {b : UInt8} (h : ¬ key <+: b :: s) :
    strstr key (b :: s) = (strstr key s).map (· + 1) := by
  rw [strstr, if_neg fun hp => h (List.isPrefixOf_iff_prefix.mp hp)]

theorem strstr_eq_some_iff {i : Nat} :
    strstr key s = some i ↔ key <+: s.drop i ∧ ∀ j < i, ¬ key <+: s.drop j := by
  induction s generalizing i with
  | nil =>
    by_cases hkey : key <+: []
    · rw [strstr_head hkey, Option.some.injEq]
      constructor
      · rintro rfl
        exact ⟨hkey, fun j hj => absurd hj (Nat.not_lt_zero j)⟩
      · rintro ⟨-, hfirst⟩
        by_contra hne
        exact hfirst 0 (by omega) hkey
    · have hnone : strstr key [] = none :=
        if_neg fun hp => hkey (List.isPrefixOf_iff_prefix.mp hp)
      rw [hnone, List.drop_nil]
      exact iff_of_false (by simp) fun h => hkey h.1
  | cons b s ih =>
    by_cases hkey : key <+: b :: s
    · rw [strstr_head hkey, Option.some.injEq]
      constructor
      · rintro rfl
        exact ⟨hkey, fun j hj => absurd hj (Nat.not_lt_zero j)⟩
      · rintro ⟨-, hfirst⟩
        by_contra hne
        exact hfirst 0 (by omega) hkey
    · rw [strstr_cons hkey, Option.map_eq_some_iff]
      constructor
      · rintro ⟨k, hk, rfl⟩
        obtain ⟨hfound, hfirst⟩ := ih.mp hk
        refine ⟨hfound, fun j hj => ?_⟩
        cases j with
        | zero => exact hkey
        | succ j => exact hfirst j (by omega)
      · rintro ⟨hfound, hfirst⟩
        cases i with
        | zero => exact absurd hfound hkey
        | succ i => exact ⟨i, ih.mpr ⟨hfound, fun j hj => hfirst (j + 1) (by omega)⟩, rfl⟩

theorem strstr_eq_none_iff : strstr key s = none ↔ ∀ i, ¬ key <+: s.drop i := by
  constructor
  · intro h i hi
    have hsome : ∃ i, key <+: s.drop i := ⟨i, hi⟩
    have hfound := strstr_eq_some_iff.mpr
      ⟨Nat.find_spec hsome, fun j hj => Nat.find_min hsome hj⟩
    rw [h] at hfound
    cases hfound
  · intro h
    cases hs : strstr key s with
    | none => rfl
    | some i => exact absurd (strstr_eq_some_iff.mp hs).1 (h i)

end Search

/-! ## Writing -/

/-- The bytes at the start of an array are written, unless they overrun it. -/
def overwrite (dst bs : List UInt8) : Option (List UInt8) :=
  if bs.length ≤ dst.length then some (bs ++ dst.drop bs.length) else none

/-- What `strcat` writes ends in a 0. -/
def strcat (dst src : List UInt8) : Option (List UInt8) := do
  let s ← cString dst
  overwrite dst (s ++ src ++ [0])

/-- At most `size` bytes of the text `out` and its 0. -/
def snprintf (dst : List UInt8) (size : Nat) (out : List UInt8) : Option (List UInt8) :=
  if size = 0 then some dst else overwrite dst (out.take (size - 1) ++ [0])

/-- An array of `cap` bytes holds a string. -/
structure Holds (cap : Nat) (dst s : List UInt8) : Prop where
  length : dst.length = cap
  string : cString dst = some s

theorem Holds.lt {cap : Nat} {dst s : List UInt8} (h : Holds cap dst s) : s.length < cap :=
  h.length ▸ cString_length h.string

/-- An array that starts out zeroed. -/
theorem holds_zeroed {cap : Nat} (h : 0 < cap) : Holds cap (List.replicate cap 0) [] := by
  obtain ⟨n, rfl⟩ : ∃ n, cap = n + 1 := ⟨cap - 1, by omega⟩
  exact ⟨List.length_replicate, rfl⟩

section Write

variable {cap : Nat} {dst s src : List UInt8}

theorem overwrite_string (hlen : dst.length = cap) (hs : 0 ∉ s) (hfits : s.length < cap) :
    ∃ dst', overwrite dst (s ++ [0]) = some dst' ∧ Holds cap dst' s := by
  have hle : (s ++ [0]).length ≤ dst.length := by
    rw [List.length_append, List.length_singleton]
    omega
  refine ⟨_, if_pos hle, ?_, ?_⟩
  · rw [List.length_append, List.length_drop]
    omega
  · rw [List.append_assoc]
    exact cString_terminated hs _

theorem overwrite_string_none (hlen : dst.length = cap) (hfits : ¬ s.length < cap) :
    overwrite dst (s ++ [0]) = none := by
  refine if_neg ?_
  rw [List.length_append, List.length_singleton]
  omega

theorem Holds.strcat (h : Holds cap dst s) (hsrc : 0 ∉ src) (hfits : s.length + src.length < cap) :
    ∃ dst', Linux.strcat dst src = some dst' ∧ Holds cap dst' (s ++ src) := by
  have hzero : 0 ∉ s ++ src := by
    simp [(cString_eq_some_iff.mp h.string).1, hsrc]
  have hlen : (s ++ src).length < cap := by rwa [List.length_append]
  rw [Linux.strcat, h.string]
  exact overwrite_string h.length hzero hlen

theorem Holds.strcat_none (h : Holds cap dst s) (src : List UInt8)
    (hfits : ¬ s.length + src.length < cap) :
    Linux.strcat dst src = none := by
  rw [Linux.strcat, h.string]
  exact overwrite_string_none h.length (by rwa [List.length_append])

theorem Holds.snprintf (h : Holds cap dst s) {size : Nat} {out : List UInt8} (hout : 0 ∉ out)
    (hsize : size ≤ cap) (hfits : out.length < size) :
    ∃ dst', Linux.snprintf dst size out = some dst' ∧ Holds cap dst' out := by
  have htake : out.take (size - 1) = out := List.take_of_length_le (by omega)
  rw [Linux.snprintf, if_neg (by omega), htake]
  exact overwrite_string h.length hout (by omega)

end Write

end Linux
end AtomDrivers
