/-
Decimal numbers in strings.

`printf` writes the shortest digits of a number, and `simple_strtol` reads digits up
to the first byte that is none.  What is written is read again, up to the width of
the machine integer.
-/
import Mathlib.Data.Nat.Digits.Defs
import Mathlib.Data.Nat.Digits.Lemmas

namespace AtomDrivers
namespace Linux

def digitChar (d : Nat) : UInt8 := UInt8.ofNat (48 + d)

def minusChar : UInt8 := 45

/-- The digits of a number, highest first. -/
def decimalDigits (n : Nat) : List Nat := if n = 0 then [0] else (Nat.digits 10 n).reverse

def decimal (n : Nat) : List UInt8 := (decimalDigits n).map digitChar

/-- What `printf` writes for `%d`. -/
def printInt (v : Int) : List UInt8 :=
  if v < 0 then minusChar :: decimal v.natAbs else decimal v.natAbs

def isDigit (c : UInt8) : Bool := 48 ≤ c.toNat && c.toNat ≤ 57

/-- `_parse_integer` in base 10, which wraps around. -/
def parseInteger : List UInt8 → BitVec 64 → BitVec 64
  | [], res => res
  | c :: s, res =>
    if isDigit c then parseInteger s (res * 10 + BitVec.ofNat 64 (c.toNat - 48)) else res

def simpleStrtoull (s : List UInt8) : BitVec 64 := parseInteger s 0

def simpleStrtol (s : List UInt8) : BitVec 64 :=
  if s.head? = some minusChar then -simpleStrtoull s.tail else simpleStrtoull s

/-! ## Digits -/

theorem decimalDigits_lt (n : Nat) : ∀ d ∈ decimalDigits n, d < 10 := by
  unfold decimalDigits
  split
  · simp
  · intro d hd
    exact Nat.digits_lt_base (by decide) (List.mem_reverse.mp hd)

theorem decimalDigits_value (n : Nat) : (decimalDigits n).foldl (fun r d => r * 10 + d) 0 = n := by
  unfold decimalDigits
  split
  · next h => simp [h]
  · have hstep : (fun d r : Nat => r * 10 + d) = fun d r => (d : Nat) + 10 * r := by
      funext d r
      omega
    have hvalue := Nat.ofDigits_digits 10 n
    rw [Nat.ofDigits_eq_foldr] at hvalue
    rw [List.foldl_reverse]
    exact (congrArg (fun f => List.foldr f 0 (Nat.digits 10 n)) hstep).trans hvalue

theorem decimalDigits_ne_nil (n : Nat) : decimalDigits n ≠ [] := by
  unfold decimalDigits
  split
  · simp
  · next h => simpa [Nat.digits_eq_nil_iff_eq_zero] using h

theorem decimalDigits_length {n k : Nat} (hk : 0 < k) (h : n < 10 ^ k) :
    (decimalDigits n).length ≤ k := by
  unfold decimalDigits
  split
  · exact hk
  · rw [List.length_reverse]
    exact (Nat.digits_length_le_iff (by decide) n).mpr h

theorem digitChar_toNat {d : Nat} (h : d < 10) : (digitChar d).toNat = 48 + d := by
  rw [digitChar, UInt8.toNat_ofNat']
  omega

theorem isDigit_digitChar {d : Nat} (h : d < 10) : isDigit (digitChar d) = true := by
  rw [isDigit, digitChar_toNat h]
  simp
  omega

/-! ## Reading what is written -/

theorem parseInteger_digits {ds : List Nat} (h : ∀ d ∈ ds, d < 10) (n : Nat) :
    parseInteger (ds.map digitChar) (BitVec.ofNat 64 n) =
      BitVec.ofNat 64 (ds.foldl (fun r d => r * 10 + d) n) := by
  induction ds generalizing n with
  | nil => rfl
  | cons d ds ih =>
    have hd : d < 10 := h d List.mem_cons_self
    have hval : (digitChar d).toNat - 48 = d := by
      rw [digitChar_toNat hd]
      omega
    have hstep : BitVec.ofNat 64 n * 10 + BitVec.ofNat 64 d = BitVec.ofNat 64 (n * 10 + d) := by
      rw [BitVec.ofNat_add, BitVec.ofNat_mul]
      rfl
    rw [List.map_cons, parseInteger, if_pos (isDigit_digitChar hd), hval, hstep]
    exact ih (fun e he => h e (List.mem_cons_of_mem d he)) _

theorem simpleStrtoull_decimal (n : Nat) : simpleStrtoull (decimal n) = BitVec.ofNat 64 n := by
  have hdigits := parseInteger_digits (decimalDigits_lt n) 0
  rwa [decimalDigits_value] at hdigits

/-- No digit is a minus sign. -/
theorem decimal_head (n : Nat) : (decimal n).head? ≠ some minusChar := by
  obtain ⟨d, ds, hds⟩ := List.exists_cons_of_ne_nil (decimalDigits_ne_nil n)
  have hd : d < 10 := decimalDigits_lt n d (hds ▸ List.mem_cons_self)
  rw [decimal, hds, List.map_cons, List.head?_cons]
  intro h
  have hval := congrArg UInt8.toNat (Option.some.inj h)
  rw [digitChar_toNat hd] at hval
  have hminus : minusChar.toNat = 45 := rfl
  omega

theorem simpleStrtol_printInt (v : Int) : simpleStrtol (printInt v) = BitVec.ofInt 64 v := by
  unfold printInt
  by_cases hneg : v < 0
  · have hv : v = -(v.natAbs : Int) := by omega
    rw [if_pos hneg, simpleStrtol, List.head?_cons, if_pos rfl, List.tail_cons,
      simpleStrtoull_decimal]
    conv_rhs => rw [hv, BitVec.ofInt_neg, BitVec.ofInt_natCast]
  · have hv : v = (v.natAbs : Int) := by omega
    rw [if_neg hneg, simpleStrtol, if_neg (decimal_head _), simpleStrtoull_decimal]
    conv_rhs => rw [hv, BitVec.ofInt_natCast]

/-! ## What is written -/

theorem decimal_nonzero (n : Nat) : 0 ∉ decimal n := by
  intro h
  obtain ⟨d, hd, hzero⟩ := List.mem_map.mp h
  have hval := congrArg UInt8.toNat hzero
  rw [digitChar_toNat (decimalDigits_lt n d hd)] at hval
  have h0 : (0 : UInt8).toNat = 0 := rfl
  omega

theorem printInt_nonzero (v : Int) : 0 ∉ printInt v := by
  unfold printInt
  split
  · intro h
    rcases List.mem_cons.mp h with h | h
    · exact absurd h (by decide)
    · exact decimal_nonzero _ h
  · exact decimal_nonzero _

theorem printInt_length {v : Int} {k : Nat} (hk : 0 < k) (h : v.natAbs < 10 ^ k) :
    (printInt v).length ≤ k + 1 := by
  have hlen : (decimal v.natAbs).length ≤ k := by
    rw [decimal, List.length_map]
    exact decimalDigits_length hk h
  unfold printInt
  split
  · rw [List.length_cons]
    omega
  · omega

end Linux
end AtomDrivers
