/-
Reading words and numbers with `sscanf`.

A format is a list of conversions with blanks between them.  `sscanf` stops at the
first conversion that finds nothing and gives the values converted up to there.  Each
conversion skips blanks first, so that words with single blanks between them are read
one after another, and a number ends where its digits end, within a word or not.
-/
import AtomDrivers.Linux.Decimal
import AtomDrivers.Linux.Hex

namespace AtomDrivers
namespace Linux

/-- `isspace` -/
def isSpace (c : UInt8) : Bool := 9 ≤ c.toNat && c.toNat ≤ 13 || c.toNat = 32 || c.toNat = 160

def skipSpaces (s : List UInt8) : List UInt8 := s.dropWhile isSpace

inductive Directive
  | blank
  | x
  | d
  | s
  deriving DecidableEq, Repr

inductive Scanned
  | int (v : BitVec 32)
  | str (s : List UInt8)
  deriving DecidableEq, Repr

/-- `%x`, behind the blanks: the number and what follows it. -/
def scanHex (str : List UInt8) : Option (BitVec 32 × List UInt8) :=
  if str.head?.bind hexVal = none then none
  else
    let (ds, rest) := parseHex (fixupRadix str)
    some (BitVec.ofNat 32 (hexValue ds), rest)

/-- `%d`, behind the blanks. -/
def scanInt (str : List UInt8) : Option (BitVec 32 × List UInt8) :=
  let digits := if str.head? = some minusChar then str.tail else str
  if (digits.head?.map isDigit).getD false = false then none
  else some ((simpleStrtol str).setWidth 32, digits.dropWhile isDigit)

/-- `%s`, behind the blanks. -/
def scanWord (str : List UInt8) : List UInt8 × List UInt8 :=
  (str.takeWhile fun c => !isSpace c, str.dropWhile fun c => !isSpace c)

/-- The string is without its 0. -/
def sscanf : List UInt8 → List Directive → List Scanned
  | _, [] => []
  | str, .blank :: fmt => sscanf (skipSpaces str) fmt
  | str, .x :: fmt =>
    if str = [] then []
    else
      match scanHex (skipSpaces str) with
      | none => []
      | some (v, rest) => .int v :: sscanf rest fmt
  | str, .d :: fmt =>
    if str = [] then []
    else
      match scanInt (skipSpaces str) with
      | none => []
      | some (v, rest) => .int v :: sscanf rest fmt
  | str, .s :: fmt =>
    if str = [] then []
    else
      let (w, rest) := scanWord (skipSpaces str)
      .str w :: sscanf rest fmt

/-! ## Words -/

/-- A word that `%s` reads: bytes that are neither blanks nor 0. -/
structure Word where
  chars : List UInt8
  nonempty : chars ≠ []
  solid : ∀ c ∈ chars, isSpace c = false ∧ c ≠ 0

/-- A string that is empty or starts with a blank. -/
def Ends (rest : List UInt8) : Prop := ∀ c ∈ rest.head?, isSpace c = true

theorem ends_nil : Ends [] := fun _ h => by cases h

theorem ends_blank (rest : List UInt8) : Ends (32 :: rest) := fun _ h => by
  cases h
  rfl

theorem isSpace_mem {c : UInt8} (h : isSpace c = true) :
    c.toNat ∈ [9, 10, 11, 12, 13, 32, 160] := by
  simp only [isSpace, Bool.or_eq_true, Bool.and_eq_true, decide_eq_true_eq] at h
  simp only [List.mem_cons, List.not_mem_nil, or_false]
  omega

theorem isSpace_no_digit {c : UInt8} (h : isSpace c = true) :
    hexVal c = none ∧ isDigit c = false ∧ c ≠ minusChar := by
  have hall : ∀ n ∈ [9, 10, 11, 12, 13, 32, 160],
      hexVal (UInt8.ofNat n) = none ∧ isDigit (UInt8.ofNat n) = false ∧
        UInt8.ofNat n ≠ minusChar := by
    decide
  have hc := hall c.toNat (isSpace_mem h)
  rwa [UInt8.ofNat_toNat] at hc

section Words

variable (w : Word) {rest : List UInt8}

theorem Word.exists_cons : ∃ c s, w.chars = c :: s ∧ isSpace c = false := by
  obtain ⟨c, s, hw⟩ := List.exists_cons_of_ne_nil w.nonempty
  exact ⟨c, s, hw, (w.solid c (hw ▸ List.mem_cons_self)).1⟩

theorem skipSpaces_word (rest : List UInt8) : skipSpaces (w.chars ++ rest) = w.chars ++ rest := by
  obtain ⟨c, s, hw, hc⟩ := w.exists_cons
  rw [hw]
  simp [skipSpaces, hc]

theorem skipSpaces_blank (s : List UInt8) : skipSpaces (32 :: s) = skipSpaces s := rfl

theorem scanWord_word (hrest : Ends rest) : scanWord (w.chars ++ rest) = (w.chars, rest) := by
  have hall : ∀ c ∈ w.chars, (!isSpace c) = true := fun c hc => by simp [(w.solid c hc).1]
  rw [scanWord, List.takeWhile_append_of_pos hall, List.dropWhile_append_of_pos hall]
  cases rest with
  | nil => simp
  | cons c rest =>
    have hc : isSpace c = true := hrest c rfl
    simp [hc]

theorem sscanf_word (hrest : Ends rest) (fmt : List Directive) :
    sscanf (w.chars ++ rest) (.s :: fmt) = .str w.chars :: sscanf rest fmt := by
  have hne : w.chars ++ rest ≠ [] := fun h => w.nonempty (List.append_eq_nil_iff.mp h).1
  rw [sscanf, if_neg hne, skipSpaces_word, scanWord_word w hrest]

end Words

/-! ## Numbers in words -/

section Numbers

variable {s rest : List UInt8}

theorem Ends.not_hex (h : Ends rest) : ∀ c ∈ rest.head?, hexVal c = none :=
  fun c hc => (isSpace_no_digit (h c hc)).1

/-- The digits stop at the end of a word. -/
theorem parseHex_append (h : Ends rest) :
    parseHex (s ++ rest) = ((parseHex s).1, (parseHex s).2 ++ rest) := by
  induction s with
  | nil =>
    cases rest with
    | nil => rfl
    | cons c rest =>
      show parseHex (c :: rest) = ([], c :: rest)
      rw [parseHex, h.not_hex c rfl]
  | cons c s ih =>
    rw [List.cons_append, parseHex, parseHex, ih]
    cases hexVal c with
    | none => rfl
    | some d => rfl

theorem parseHex_rest : ∀ c ∈ (parseHex s).2.head?, hexVal c = none := by
  induction s with
  | nil => simp [parseHex]
  | cons b s ih =>
    rw [parseHex]
    cases hb : hexVal b with
    | none =>
      intro c hc
      cases hc
      exact hb
    | some d => exact ih

theorem parseHex_suffix (s : List UInt8) : (parseHex s).2 <:+ s := by
  induction s with
  | nil => exact List.suffix_refl []
  | cons b s ih =>
    rw [parseHex]
    cases hexVal b with
    | none => exact List.suffix_refl (b :: s)
    | some d => exact ih.trans (List.suffix_cons b s)

/-- No blank is an `x`. -/
theorem toLower_of_isSpace {c : UInt8} (h : isSpace c = true) : toLower c ≠ 120 := by
  have hall : ∀ n ∈ [9, 10, 11, 12, 13, 32, 160], toLower (UInt8.ofNat n) ≠ 120 := by
    decide
  have hc := hall c.toNat (isSpace_mem h)
  rwa [UInt8.ofNat_toNat] at hc

theorem fixupRadix_append (hne : s ≠ []) (h : Ends rest) :
    fixupRadix (s ++ rest) = fixupRadix s ++ rest := by
  match s, hne with
  | [b], _ =>
    have hright : fixupRadix [b] = [b] := if_neg (by simp)
    rw [hright]
    apply if_neg
    rintro ⟨_, hx⟩
    obtain ⟨c, hc, hlower⟩ := Option.map_eq_some_iff.mp hx
    exact toLower_of_isSpace (h c hc) hlower
  | b :: c :: s, _ =>
    by_cases hx : b = 48 ∧ toLower c = 120
    · simp [fixupRadix, hx]
    · simp [fixupRadix, hx]

theorem fixupRadix_suffix (s : List UInt8) : fixupRadix s <:+ s := by
  unfold fixupRadix
  split
  · exact List.drop_suffix 2 s
  · exact List.suffix_refl s

/-- `%x` does not look behind the word. -/
theorem scanHex_append (hne : s ≠ []) (h : Ends rest) :
    scanHex (s ++ rest) = (scanHex s).map fun r => (r.1, r.2 ++ rest) := by
  have hhead : (s ++ rest).head? = s.head? := List.head?_append_of_ne_nil s hne
  unfold scanHex
  rw [hhead, fixupRadix_append hne h, parseHex_append h]
  split <;> rfl

/-- What `%x` leaves of a word starts with no digit, so that it stands for nothing when
it is read again. -/
theorem scanHex_rest {v : BitVec 32} {more : List UInt8} (h : scanHex s = some (v, more)) :
    more <:+ s ∧ ∀ c ∈ more.head?, hexVal c = none := by
  unfold scanHex at h
  split at h
  · cases h
  · cases h
    exact ⟨(parseHex_suffix _).trans (fixupRadix_suffix s), parseHex_rest⟩

theorem scanHex_none {str : List UInt8} (h : ∀ c ∈ str.head?, hexVal c = none) :
    scanHex str = none := by
  apply if_pos
  cases str with
  | nil => rfl
  | cons c str => exact h c rfl

end Numbers

/-! ## Two numbers -/

section Two

variable (w t : Word) {rest : List UInt8}

theorem sscanf_hex (hrest : Ends rest) (fmt : List Directive) :
    sscanf (w.chars ++ rest) (.x :: fmt) =
      match scanHex w.chars with
      | none => []
      | some (v, more) => .int v :: sscanf (more ++ rest) fmt := by
  have hne : w.chars ++ rest ≠ [] := fun h => w.nonempty (List.append_eq_nil_iff.mp h).1
  rw [sscanf, if_neg hne, skipSpaces_word, scanHex_append w.nonempty hrest]
  cases scanHex w.chars with
  | none => rfl
  | some r => rfl

theorem scanHex_solid {v : BitVec 32} {more : List UInt8} (h : scanHex w.chars = some (v, more)) :
    ∀ c ∈ more, isSpace c = false :=
  fun c hc => (w.solid c ((scanHex_rest h).1.subset hc)).1

/-- A second number is read exactly if the first one fills its word. -/
theorem sscanf_hex_hex (hrest : Ends rest) :
    sscanf (w.chars ++ 32 :: (t.chars ++ rest)) [.x, .blank, .x] =
      match scanHex w.chars with
      | none => []
      | some (v, more) => .int v ::
          if more = [] then
            match scanHex t.chars with
            | none => []
            | some (u, _) => [.int u]
          else [] := by
  rw [sscanf_hex w (ends_blank _)]
  cases hv : scanHex w.chars with
  | none => rfl
  | some r =>
    obtain ⟨v, more⟩ := r
    have hsolid := scanHex_solid w hv
    have hstop := (scanHex_rest hv).2
    show Scanned.int v :: sscanf (skipSpaces (more ++ 32 :: (t.chars ++ rest))) [.x] = _
    congr 1
    cases more with
    | nil =>
      show sscanf (skipSpaces (t.chars ++ rest)) [.x] = _
      rw [skipSpaces_word, sscanf_hex t hrest]
      cases scanHex t.chars with
      | none => rfl
      | some r => rfl
    | cons c more =>
      have hc : isSpace c = false := hsolid c List.mem_cons_self
      have hskip : skipSpaces (c :: more ++ 32 :: (t.chars ++ rest)) =
          c :: more ++ 32 :: (t.chars ++ rest) := by simp [skipSpaces, hc]
      have hnone : scanHex (c :: more ++ 32 :: (t.chars ++ rest)) = none :=
        scanHex_none fun b hb => hstop b hb
      rw [hskip, sscanf, if_neg (by simp), hskip, hnone]
      simp

end Two

/-! ## What is printed -/

section Printed

variable {rest : List UInt8}

theorem hexChar_solid {d : Nat} (h : d < 16) : isSpace (hexChar d) = false ∧ hexChar d ≠ 0 := by
  have hall : ∀ d < 16, isSpace (hexChar d) = false ∧ hexChar d ≠ 0 := by decide
  exact hall d h

theorem digitChar_solid {d : Nat} (h : d < 10) :
    isSpace (digitChar d) = false ∧ digitChar d ≠ 0 := by
  have hall : ∀ d < 10, isSpace (digitChar d) = false ∧ digitChar d ≠ 0 := by decide
  exact hall d h

/-- A number written with `%x`. -/
def hexWord (n : Nat) : Word where
  chars := hex n
  nonempty := by simpa [hex] using hexDigits_ne_nil n
  solid c hc := by
    obtain ⟨d, hd, rfl⟩ := mem_hex hc
    exact hexChar_solid hd

theorem decimal_ne_nil (n : Nat) : decimal n ≠ [] := by
  simpa [decimal] using decimalDigits_ne_nil n

/-- A number written with `%d`. -/
def intWord (v : Int) : Word where
  chars := printInt v
  nonempty := by
    unfold printInt
    split
    · simp
    · exact decimal_ne_nil v.natAbs
  solid c hc := by
    have hdigits : ∀ c ∈ decimal v.natAbs, isSpace c = false ∧ c ≠ 0 := by
      intro c hc
      obtain ⟨d, hd, rfl⟩ := List.mem_map.mp hc
      exact digitChar_solid (decimalDigits_lt _ d hd)
    unfold printInt at hc
    split at hc
    · rcases List.mem_cons.mp hc with rfl | hc
      · decide
      · exact hdigits c hc
    · exact hdigits c hc

theorem scanHex_hex (n : Nat) : scanHex (hex n) = some (BitVec.ofNat 32 n, []) := by
  have hchars : ∀ c ∈ hex n, toLower c ≠ 120 := fun c hc => by
    obtain ⟨d, hd, rfl⟩ := mem_hex hc
    exact (hexChar_ne hd).2.2.2
  have hparse : parseHex (hex n) = (hexDigits n, []) := by
    have hdigits : parseHex ((hexDigits n).map hexChar ++ []) = (hexDigits n, []) :=
      parseHex_digits (hexDigits_lt n) (by simp)
    rwa [List.append_nil] at hdigits
  have hhead : (hex n).head?.bind hexVal ≠ none := by
    obtain ⟨d, ds, hds⟩ := List.exists_cons_of_ne_nil (hexDigits_ne_nil n)
    rw [hex, hds, List.map_cons, List.head?_cons, Option.bind_some,
      hexVal_hexChar (hexDigits_lt n d (hds ▸ List.mem_cons_self))]
    simp
  rw [scanHex, if_neg hhead, fixupRadix_of_ne hchars, hparse]
  simp only [hexValue_hexDigits]

/-- The digits stop at the end of a word. -/
theorem parseInteger_append {s : List UInt8} (h : Ends rest) (res : BitVec 64) :
    parseInteger (s ++ rest) res = parseInteger s res := by
  induction s generalizing res with
  | nil =>
    cases rest with
    | nil => rfl
    | cons c rest =>
      have hc : isDigit c = false := (isSpace_no_digit (h c rfl)).2.1
      show parseInteger (c :: rest) res = res
      simp [parseInteger, hc]
  | cons c s ih =>
    rw [List.cons_append, parseInteger, parseInteger, ih]

theorem simpleStrtol_append {s : List UInt8} (hne : s ≠ []) (h : Ends rest) :
    simpleStrtol (s ++ rest) = simpleStrtol s := by
  obtain ⟨c, s, rfl⟩ := List.exists_cons_of_ne_nil hne
  have hstop (s : List UInt8) : simpleStrtoull (s ++ rest) = simpleStrtoull s :=
    parseInteger_append h 0
  unfold simpleStrtol
  rw [hstop]
  by_cases hminus : c = minusChar
  · simp [hminus, hstop]
  · simp [hminus]

/-- The digits of a number and what is behind them. -/
theorem decimal_append_digits (n : Nat) (h : Ends rest) :
    ((decimal n ++ rest).head?.map isDigit).getD false = true ∧
      (decimal n ++ rest).dropWhile isDigit = rest := by
  have hall : ∀ c ∈ decimal n, isDigit c = true := fun c hc => by
    obtain ⟨d, hd, rfl⟩ := List.mem_map.mp hc
    exact isDigit_digitChar (decimalDigits_lt n d hd)
  constructor
  · obtain ⟨c, s, hs⟩ := List.exists_cons_of_ne_nil (decimal_ne_nil n)
    simp [hs, hall c (hs ▸ List.mem_cons_self)]
  · rw [List.dropWhile_append_of_pos hall]
    cases rest with
    | nil => rfl
    | cons c rest =>
      have hc : isDigit c = false := (isSpace_no_digit (h c rfl)).2.1
      simp [hc]

theorem scanInt_printInt (v : Int) (h : Ends rest) :
    scanInt (printInt v ++ rest) = some (BitVec.ofInt 32 v, rest) := by
  have hvalue : (simpleStrtol (printInt v ++ rest)).setWidth 32 = BitVec.ofInt 32 v := by
    rw [simpleStrtol_append (s := printInt v) (intWord v).nonempty h, simpleStrtol_printInt]
    apply BitVec.eq_of_toNat_eq
    rw [BitVec.toNat_setWidth, BitVec.toNat_ofInt, BitVec.toNat_ofInt]
    omega
  have hdigits : (if (printInt v ++ rest).head? = some minusChar then (printInt v ++ rest).tail
      else printInt v ++ rest) = decimal v.natAbs ++ rest := by
    unfold printInt
    split
    · simp
    · have hhead := decimal_head v.natAbs
      obtain ⟨c, s, hs⟩ := List.exists_cons_of_ne_nil (decimal_ne_nil v.natAbs)
      rw [hs] at hhead ⊢
      exact if_neg hhead
  obtain ⟨hdigit, hdrop⟩ := decimal_append_digits v.natAbs h
  unfold scanInt
  rw [hvalue, hdigits]
  simp only [hdigit, hdrop, Bool.true_eq_false, if_false]

theorem sscanf_int (v : Int) (h : Ends rest) (fmt : List Directive) :
    sscanf (printInt v ++ rest) (.d :: fmt) = .int (BitVec.ofInt 32 v) :: sscanf rest fmt := by
  have hskip : skipSpaces (printInt v ++ rest) = printInt v ++ rest :=
    skipSpaces_word (intWord v) rest
  have hne : printInt v ++ rest ≠ [] := fun hnil =>
    (intWord v).nonempty (List.append_eq_nil_iff.mp hnil).1
  rw [sscanf, if_neg hne, hskip, scanInt_printInt v h]

/-- `%s %s %d %x` reads two words and two numbers again. -/
theorem sscanf_words (w t : Word) (v : Int) (n : Nat) (h : Ends rest) :
    sscanf (w.chars ++ 32 :: (t.chars ++ 32 :: (printInt v ++ 32 :: (hex n ++ rest))))
      [.s, .blank, .s, .blank, .d, .blank, .x] =
        [.str w.chars, .str t.chars, .int (BitVec.ofInt 32 v), .int (BitVec.ofNat 32 n)] := by
  have hint : ∀ s, skipSpaces (32 :: (printInt v ++ s)) = printInt v ++ s :=
    skipSpaces_word (intWord v)
  have hhex : skipSpaces (32 :: (hex n ++ rest)) = hex n ++ rest :=
    skipSpaces_word (hexWord n) rest
  have hlast : sscanf (hex n ++ rest) [.x] = [.int (BitVec.ofNat 32 n)] := by
    have hscan := sscanf_hex (hexWord n) h []
    rw [show (hexWord n).chars = hex n from rfl, scanHex_hex] at hscan
    exact hscan
  rw [sscanf_word w (ends_blank _), sscanf, skipSpaces_blank, skipSpaces_word,
    sscanf_word t (ends_blank _), sscanf, hint, sscanf_int v (ends_blank _), sscanf, hhex, hlast]

end Printed

end Linux
end AtomDrivers
