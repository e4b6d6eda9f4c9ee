/-
Hexadecimal numbers in strings.

`strsep` cuts a string at the first delimiter, and `kstrtou32` reads a number in base
16 that fills a whole string but for one newline at its end.  A number that has been
written in hexadecimal is read again.
-/
import Mathlib.Data.BitVec
import Mathlib.Data.Nat.Digits.Defs
import Mathlib.Data.Nat.Digits.Lemmas

namespace AtomDrivers
namespace Linux

/-- The part before the first delimiter, and the rest if there is one. -/
def strsep (delim : UInt8) : List UInt8 → List UInt8 × Option (List UInt8)
  | [] => ([], none)
  | c :: s =>
    if c = delim then ([], some s)
    else
      let (token, rest) := strsep delim s
      (c :: token, rest)

/-- `_tolower` -/
def toLower (c : UInt8) : UInt8 := c ||| 0x20

def hexVal (c : UInt8) : Option Nat :=
  if 48 ≤ c.toNat ∧ c.toNat ≤ 57 then some (c.toNat - 48)
  else if 97 ≤ (toLower c).toNat ∧ (toLower c).toNat ≤ 102 then
    some ((toLower c).toNat - 97 + 10)
  else none

/-- `_parse_integer` in base 16: the digits at the start, and what is behind them. -/
def parseHex : List UInt8 → List Nat × List UInt8
  | [] => ([], [])
  | c :: s =>
    match hexVal c with
    | none => ([], c :: s)
    | some d =>
      let (ds, rest) := parseHex s
      (d :: ds, rest)

def hexValue (ds : List Nat) : Nat := ds.foldl (fun r d => r * 16 + d) 0

/-- `_parse_integer_fixup_radix` in base 16. -/
def fixupRadix (s : List UInt8) : List UInt8 :=
  if s.head? = some 48 ∧ s.tail.head?.map toLower = some 120 then s.drop 2 else s

/-- With base 16 and `none` for each error, of which the result keeps nothing. -/
def kstrtou32 (s : List UInt8) : Option (BitVec 32) :=
  let s := if s.head? = some 43 then s.tail else s
  let (ds, rest) := parseHex (fixupRadix s)
  let rest := if rest.head? = some 10 then rest.tail else rest
  if ds = [] ∨ 2 ^ 32 ≤ hexValue ds ∨ rest ≠ [] then none
  else some (BitVec.ofNat 32 (hexValue ds))

def hexChar (d : Nat) : UInt8 := UInt8.ofNat (if d < 10 then 48 + d else 87 + d)

/-- The digits of a number, highest first. -/
def hexDigits (n : Nat) : List Nat := if n = 0 then [0] else (Nat.digits 16 n).reverse

/-- What `printf` writes for `%x`. -/
def hex (n : Nat) : List UInt8 := (hexDigits n).map hexChar

/-! ## Cutting -/

section Strsep

variable {delim : UInt8} {s : List UInt8}

theorem strsep_of_not_mem (h : delim ∉ s) : strsep delim s = (s, none) := by
  induction s with
  | nil => rfl
  | cons c s ih =>
    obtain ⟨hc, hs⟩ := not_or.mp fun hmem => h (List.mem_cons.mpr hmem)
    rw [strsep, if_neg (Ne.symm hc), ih hs]

theorem strsep_append (h : delim ∉ s) (rest : List UInt8) :
    strsep delim (s ++ delim :: rest) = (s, some rest) := by
  induction s with
  | nil => exact if_pos rfl
  | cons c s ih =>
    obtain ⟨hc, hs⟩ := not_or.mp fun hmem => h (List.mem_cons.mpr hmem)
    rw [List.cons_append, strsep, if_neg (Ne.symm hc), ih hs]

/-- There is no rest exactly if the delimiter does not occur. -/
theorem strsep_rest_iff : (strsep delim s).2 = none ↔ delim ∉ s := by
  induction s with
  | nil => exact iff_of_true rfl List.not_mem_nil
  | cons c s ih =>
    by_cases hc : c = delim
    · rw [strsep, if_pos hc]
      exact iff_of_false (by simp) (by simp [hc])
    · rw [strsep, if_neg hc]
      show (strsep delim s).2 = none ↔ _
      rw [ih, List.mem_cons, not_or]
      exact ⟨fun h => ⟨Ne.symm hc, h⟩, fun h => h.2⟩

end Strsep

/-! ## Digits -/

theorem hexDigits_lt (n : Nat) : ∀ d ∈ hexDigits n, d < 16 := by
  unfold hexDigits
  split
  · simp
  · intro d hd
    exact Nat.digits_lt_base (by decide) (List.mem_reverse.mp hd)

theorem hexValue_hexDigits (n : Nat) : hexValue (hexDigits n) = n := by
  unfold hexValue hexDigits
  split
  · next h => simp [h]
  · have hstep : (fun d r : Nat => r * 16 + d) = fun d r => (d : Nat) + 16 * r := by
      funext d r
      omega
    have hvalue := Nat.ofDigits_digits 16 n
    rw [Nat.ofDigits_eq_foldr] at hvalue
    rw [List.foldl_reverse]
    exact (congrArg (fun f => List.foldr f 0 (Nat.digits 16 n)) hstep).trans hvalue

theorem hexDigits_ne_nil (n : Nat) : hexDigits n ≠ [] := by
  unfold hexDigits
  split
  · simp
  · next h => simpa [Nat.digits_eq_nil_iff_eq_zero] using h

theorem hexDigits_length_le_iff {n k : Nat} (hk : 0 < k) :
    (hexDigits n).length ≤ k ↔ n < 16 ^ k := by
  unfold hexDigits
  split
  · next h =>
    subst h
    exact iff_of_true hk (Nat.pow_pos (by decide))
  · rw [List.length_reverse]
    exact Nat.digits_length_le_iff (by decide) n

theorem hexVal_hexChar {d : Nat} (h : d < 16) : hexVal (hexChar d) = some d := by
  have hall : ∀ d < 16, hexVal (hexChar d) = some d := by decide
  exact hall d h

/-- The digits are no blanks, no signs and no `x`. -/
theorem hexChar_ne {d : Nat} (h : d < 16) :
    hexChar d ≠ 0 ∧ hexChar d ≠ 32 ∧ hexChar d ≠ 43 ∧ toLower (hexChar d) ≠ 120 := by
  have hall : ∀ d < 16, hexChar d ≠ 0 ∧ hexChar d ≠ 32 ∧ hexChar d ≠ 43 ∧
      toLower (hexChar d) ≠ 120 := by
    decide
  exact hall d h

theorem mem_hex {n : Nat} {c : UInt8} (h : c ∈ hex n) : ∃ d < 16, hexChar d = c := by
  obtain ⟨d, hd, rfl⟩ := List.mem_map.mp h
  exact ⟨d, hexDigits_lt n d hd, rfl⟩

/-! ## Reading what is written -/

theorem parseHex_digits {ds : List Nat} (h : ∀ d ∈ ds, d < 16) {rest : List UInt8}
    (hrest : ∀ c ∈ rest.head?, hexVal c = none) :
    parseHex (ds.map hexChar ++ rest) = (ds, rest) := by
  induction ds with
  | nil =>
    cases rest with
    | nil => rfl
    | cons c rest =>
      show parseHex (c :: rest) = ([], c :: rest)
      rw [parseHex, hrest c rfl]
  | cons d ds ih =>
    rw [List.map_cons, List.cons_append, parseHex, hexVal_hexChar (h d List.mem_cons_self)]
    simp only [ih fun e he => h e (List.mem_cons_of_mem d he)]

theorem fixupRadix_of_ne {s : List UInt8} (h : ∀ c ∈ s, toLower c ≠ 120) : fixupRadix s = s := by
  apply if_neg
  intro ⟨_, hx⟩
  obtain ⟨c, hc, hlower⟩ := Option.map_eq_some_iff.mp hx
  exact h c (List.mem_of_mem_tail (List.mem_of_head? hc)) hlower

/-- A number is read again, at the end of the string or before a newline there. -/
theorem kstrtou32_hex {n : Nat} (h : n < 2 ^ 32) {tail : List UInt8}
    (htail : tail = [] ∨ tail = [10]) : kstrtou32 (hex n ++ tail) = some (BitVec.ofNat 32 n) := by
  have hchars : ∀ c ∈ hex n ++ tail, c ≠ 43 ∧ toLower c ≠ 120 := by
    intro c hc
    rcases List.mem_append.mp hc with hc | hc
    · obtain ⟨d, hd, rfl⟩ := mem_hex hc
      exact ⟨(hexChar_ne hd).2.2.1, (hexChar_ne hd).2.2.2⟩
    · rcases htail with rfl | rfl
      · cases hc
      · rw [List.mem_singleton.mp hc]
        decide
  have hsign : ¬ (hex n ++ tail).head? = some 43 := fun hhead =>
    (hchars 43 (List.mem_of_head? hhead)).1 rfl
  have hparse : parseHex (hex n ++ tail) = (hexDigits n, tail) := by
    apply parseHex_digits (hexDigits_lt n)
    intro c hc
    rcases htail with rfl | rfl
    · cases hc
    · cases hc
      decide
  have hrest : (if tail.head? = some 10 then tail.tail else tail) = [] := by
    rcases htail with rfl | rfl <;> rfl
  simp only [kstrtou32, if_neg hsign, fixupRadix_of_ne fun c hc => (hchars c hc).2, hparse, hrest]
  rw [if_neg, hexValue_hexDigits]
  rintro (hnil | hlarge | hne)
  · exact hexDigits_ne_nil n hnil
  · rw [hexValue_hexDigits] at hlarge
    omega
  · exact hne rfl

/-- With anything else behind it, nothing is read. -/
theorem kstrtou32_hex_behind (n : Nat) {c : UInt8} {rest : List UInt8} (hc : hexVal c = none)
    (hnewline : c ≠ 10) (hx : ∀ b ∈ c :: rest, toLower b ≠ 120) :
    kstrtou32 (hex n ++ c :: rest) = none := by
  have hchars : ∀ b ∈ hex n ++ c :: rest, toLower b ≠ 120 := by
    intro b hb
    rcases List.mem_append.mp hb with hb | hb
    · obtain ⟨d, hd, rfl⟩ := mem_hex hb
      exact (hexChar_ne hd).2.2.2
    · exact hx b hb
  have hsign : ¬ (hex n ++ c :: rest).head? = some 43 := by
    obtain ⟨d, ds, hds⟩ := List.exists_cons_of_ne_nil (hexDigits_ne_nil n)
    have hd : d < 16 := hexDigits_lt n d (hds ▸ List.mem_cons_self)
    rw [hex, hds, List.map_cons, List.cons_append, List.head?_cons]
    exact fun h => (hexChar_ne hd).2.2.1 (Option.some.inj h)
  have hparse : parseHex (hex n ++ c :: rest) = (hexDigits n, c :: rest) :=
    parseHex_digits (hexDigits_lt n) fun b hb => by cases hb; exact hc
  have hrest : (if (c :: rest).head? = some 10 then (c :: rest).tail else c :: rest) =
      c :: rest := if_neg fun h => hnewline (Option.some.inj h)
  simp only [kstrtou32, if_neg hsign, fixupRadix_of_ne hchars, hparse, hrest]
  exact if_pos (Or.inr (Or.inr (List.cons_ne_nil c rest)))

end Linux
end AtomDrivers
