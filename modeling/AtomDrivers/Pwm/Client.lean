/-
The clients of the LED driver.

The client of `atom_three` writes a tag to its text and prints the command over it;
the text command of its driver is that of `atom_four`.  The client of `atom_four`
keeps its levels in bytes and passes the address of one of them, where the driver
fetches an `int`.
-/
import AtomDrivers.Pwm.Ioctl

namespace AtomDrivers
namespace Pwm

open Linux Led

/-! ## The text command -/

/-- "amtom_for_test" -/
def mFlag : List UInt8 := [97, 109, 116, 111, 109, 95, 102, 111, 114, 95, 116, 101, 115, 116]

/-- The text of the global `_atom_buf1`, which starts zeroed. -/
def clientText (atomFlagLed : BitVec 32) : Option (List UInt8) := do
  let text ← strcat (List.replicate atomBufSize 0) mFlag
  snprintf text (atomBufSize - mFlag.length) (ledKey ++ printInt atomFlagLed.toInt)

/-- The structure that the client passes. -/
def clientBuf (text : List UInt8) : List UInt8 := List.replicate atomArgSize 0 ++ text

/-- A number is printed whole, ends inside the text and is decoded as it was. -/
def RoundTrips (v : BitVec 32) : Prop :=
  ∃ text, clientText v = some text ∧ text.length = atomBufSize ∧
    cString text = some (ledKey ++ printInt v.toInt) ∧
    ∀ beyond s, writeInt (clientBuf text) beyond s =
      (some 0, { s with
        printed := s.printed ++ [.data 0 (ledKey ++ printInt v.toInt), .arg v] })

theorem command_nonzero (v : Int) : 0 ∉ ledKey ++ printInt v := by
  rw [List.mem_append, not_or]
  exact ⟨by decide, printInt_nonzero v⟩

/-- Ten digits and a sign behind the key. -/
theorem command_length (v : BitVec 32) :
    (ledKey ++ printInt v.toInt).length < atomBufSize - mFlag.length := by
  have habs : v.toInt.natAbs < 10 ^ 10 := by
    have hlo := v.le_toInt
    have hhi := v.toInt_lt
    omega
  have hlen := printInt_length (by decide) habs
  have hkey : ledKey.length = 9 := rfl
  have hroom : atomBufSize - mFlag.length = 86 := rfl
  rw [List.length_append, hkey, hroom]
  omega

theorem clientText_holds (v : BitVec 32) :
    ∃ text, clientText v = some text ∧ Holds atomBufSize text (ledKey ++ printInt v.toInt) := by
  have hzeroed : Holds atomBufSize (List.replicate atomBufSize 0) [] := holds_zeroed (by decide)
  have hflag : 0 ∉ mFlag := by decide
  obtain ⟨tagged, htag, hholds⟩ := hzeroed.strcat hflag (by decide)
  obtain ⟨text, htext, hcommand⟩ := hholds.snprintf (command_nonzero v.toInt)
    (Nat.sub_le atomBufSize mFlag.length) (command_length v)
  refine ⟨text, ?_, hcommand⟩
  rw [clientText, htag]
  exact htext

/-- The number that is read is the one that was printed, up to 32 bits. -/
theorem simpleStrtol_int (v : BitVec 32) : (simpleStrtol (printInt v.toInt)).setWidth 32 = v := by
  rw [simpleStrtol_printInt]
  exact setWidth_signExtend v

/-- Every command of the client of `atom_three` comes back from its driver. -/
theorem client_roundTrips (v : BitVec 32) : RoundTrips v := by
  obtain ⟨text, htext, hholds⟩ := clientText_holds v
  refine ⟨text, htext, hholds.length, hholds.string, fun beyond s => ?_⟩
  have hdrop : (clientBuf text).drop atomArgSize = text := List.drop_left' List.length_replicate
  have htake : (clientBuf text).take atomArgSize = List.replicate atomArgSize 0 :=
    List.take_left' List.length_replicate
  have hzero : intOf (List.replicate atomArgSize 0) = 0 := by decide
  have hfirst : strstr ledKey (ledKey ++ printInt v.toInt) = some 0 :=
    strstr_head (List.prefix_append _ _)
  have hnumber : (ledKey ++ printInt v.toInt).drop (0 + ledKey.length) = printInt v.toInt := by
    rw [Nat.zero_add]
    exact List.drop_left
  rw [writeInt, hdrop, htake, hzero, cString_append hholds.string]
  simp only [hfirst, hnumber, simpleStrtol_int, List.append_assoc, List.cons_append,
    List.nil_append]

/-! ## Levels -/

/-- A table of levels, `buf_flag` of the client of `atom_four`. -/
structure LevelTable where
  levels : List UInt8
  level_le : ∀ l ∈ levels, l ≤ 100

/-- The table lies at an address of the user. -/
def LiesAt (call : AtomCall) (bufFlag : BitVec 64) (table : LevelTable) : Prop :=
  ∀ k (h : k < table.levels.length), call.user (bufFlag + BitVec.ofNat 64 k) = table.levels[k]

/-- The argument is fetched from the table and selects the level of entry `i`. -/
def SelectsLevel (call : AtomCall) (bufFlag : BitVec 64) (table : LevelTable)
    (i : Fin table.levels.length) (s : AtomPwm) : Prop :=
  i + atomArgSize ≤ table.levels.length ∧
    ∃ setting, (atomIoctlCore call atomWriteOn (bufFlag + BitVec.ofNat 64 i) s).2.pwm =
        some setting ∧
      setting.den = 100 ∧ setting.mol.toInt = (table.levels[i]).toNat ∧
      0 ≤ setting.mol.toInt ∧ setting.mol.toInt ≤ setting.den.toInt

/-- The next three entries are there and are 0. -/
def ZerosBehind (table : LevelTable) (i : Nat) : Prop :=
  ∀ k ∈ [1, 2, 3], table.levels[i + k]? = some 0

theorem intOf_level {b0 b1 b2 b3 : UInt8} (h : b0 ≤ 100) :
    (intOf [b0, b1, b2, b3]).toInt = b0.toNat ↔ b1 = 0 ∧ b2 = 0 ∧ b3 = 0 := by
  have hb0 : b0.toNat ≤ 100 := h
  have hb1 := b1.toNat_lt
  have hb2 := b2.toNat_lt
  have hb3 := b3.toNat_lt
  have hnat : (intOf [b0, b1, b2, b3]).toNat =
      b0.toNat + 256 * (b1.toNat + 256 * (b2.toNat + 256 * b3.toNat)) := by
    rw [intOf, BitVec.toNat_ofNat]
    refine Nat.mod_eq_of_lt ?_
    simp only [ofBytes, List.foldr_cons, List.foldr_nil]
    omega
  rw [BitVec.toInt_eq_toNat_cond, hnat]
  simp only [← UInt8.toNat_inj, UInt8.toNat_zero]
  split
  · omega
  · omega

section Table

variable {call : AtomCall} {bufFlag : BitVec 64} {table : LevelTable} {i : Nat}

theorem userBytes_table (hlies : LiesAt call bufFlag table) {n : Nat}
    (h : i + n ≤ table.levels.length) :
    call.userBytes (bufFlag + BitVec.ofNat 64 i) n = (table.levels.drop i).take n := by
  apply List.ext_getElem
  · rw [userBytes_length, List.length_take, List.length_drop]
    omega
  · intro k hk hk'
    rw [userBytes_length] at hk
    have hin : i + k < table.levels.length := by omega
    simp only [AtomCall.userBytes, List.getElem_map, List.getElem_range, BitVec.add_assoc,
      ← BitVec.ofNat_add, List.getElem_take, List.getElem_drop]
    exact hlies (i + k) hin

/-- The four entries that are fetched. -/
theorem entries_table (h : i + atomArgSize ≤ table.levels.length) :
    ∃ b0 b1 b2 b3 rest, table.levels.drop i = b0 :: b1 :: b2 :: b3 :: rest := by
  have hlen : 4 ≤ (table.levels.drop i).length := by
    have hsize : atomArgSize = 4 := rfl
    rw [List.length_drop]
    omega
  match table.levels.drop i, hlen with
  | b0 :: b1 :: b2 :: b3 :: rest, _ => exact ⟨b0, b1, b2, b3, rest, rfl⟩

theorem ZerosBehind.inside (h : ZerosBehind table i) : i + atomArgSize ≤ table.levels.length := by
  obtain ⟨hlt, -⟩ := List.getElem?_eq_some_iff.mp (h 3 (by decide))
  exact hlt

end Table

/-- The level is the one of the entry exactly when three zeros follow it. -/
theorem selectsLevel_iff (call : AtomCall) (bufFlag : BitVec 64) (table : LevelTable)
    (i : Fin table.levels.length) (s : AtomPwm) (hlies : LiesAt call bufFlag table)
    (hcopied : atomArgSize ≤ call.copy.copied) :
    SelectsLevel call bufFlag table i s ↔ ZerosBehind table i := by
  by_cases hinside : i + atomArgSize ≤ table.levels.length
  · obtain ⟨b0, b1, b2, b3, rest, hdrop⟩ := entries_table hinside
    have hlevel : table.levels[i] = b0 := by
      have hget : (table.levels.drop i)[0]? = some b0 := by rw [hdrop]; rfl
      rw [List.getElem?_drop] at hget
      exact (List.getElem?_eq_some_iff.mp hget).2
    have hle : b0 ≤ 100 := hlevel ▸ table.level_le _ (List.getElem_mem _)
    have hfetched : call.userBytes (bufFlag + BitVec.ofNat 64 i) atomArgSize =
        [b0, b1, b2, b3] := by
      rw [userBytes_table hlies hinside, hdrop]
      rfl
    have hzeros : ZerosBehind table i ↔ b1 = 0 ∧ b2 = 0 ∧ b3 = 0 := by
      simp [ZerosBehind, ← List.getElem?_drop, hdrop]
    obtain ⟨hcmd, -⟩ | ⟨hcmd, -⟩ | ⟨-, -, hrun⟩ :=
      performed_writeOn s (bufFlag + BitVec.ofNat 64 i) hcopied
    · exact absurd hcmd (by decide)
    · exact absurd hcmd (by decide)
    · unfold SelectsLevel
      rw [hrun, hfetched, hzeros, ← intOf_level hle]
      constructor
      · rintro ⟨-, setting, hset, -, hmol, -⟩
        obtain rfl := Option.some.inj hset
        exact hmol.trans (by rw [hlevel])
      · intro hmol
        have hle' : (b0.toNat : Int) ≤ 100 := Int.ofNat_le.mpr hle
        have hden : (100 : BitVec 32).toInt = 100 := rfl
        refine ⟨hinside, _, rfl, rfl, hlevel ▸ hmol, ?_, ?_⟩
        · rw [hmol]
          exact Int.natCast_nonneg _
        · rw [hmol, hden]
          exact hle'
  · exact iff_of_false (fun h => hinside h.1) fun h => hinside h.inside

/-- User memory with a table at 0x1000, of which everything can be read. -/
def tableCall (table : LevelTable) : AtomCall where
  user a := table.levels.getD (a - 0x1000).toNat 0
  copy := { copied := 4096 }
  stack := unreadableCall.stack

/-- A level in the first byte of an `int`. -/
def paddedTable : LevelTable := { levels := [30, 0, 0, 0], level_le := by simp }

theorem padded_level :
    SelectsLevel (tableCall paddedTable) 0x1000 paddedTable ⟨0, by decide⟩
      { pin := .enLow, pwm := none, printed := [] } :=
  (selectsLevel_iff (tableCall paddedTable) 0x1000 paddedTable ⟨0, by decide⟩ _
    (by unfold LiesAt; decide) (by decide)).mpr (by unfold ZerosBehind; decide)

/-- `buf_flag` -/
def bufFlagTable : LevelTable :=
  { levels := [5, 15, 25, 35, 50, 60, 75, 80, 90, 0], level_le := by simp }

/-- For level 5 the PWM gets 0x23190f05. -/
theorem neighbours_in_level :
    ¬ SelectsLevel (tableCall bufFlagTable) 0x1000 bufFlagTable ⟨0, by decide⟩
      { pin := .enLow, pwm := none, printed := [] } := by
  rintro ⟨-, setting, hset, -, hmol, -⟩
  have hrun : (atomIoctlCore (tableCall bufFlagTable) atomWriteOn 0x1000
      { pin := .enLow, pwm := none, printed := [] }).2.pwm =
        some { den := 100, mol := 0x23190f05 } := by
    decide
  have hsetting : { den := 100, mol := 0x23190f05 } = setting :=
    Option.some.inj (hrun.symm.trans hset)
  rw [← hsetting] at hmol
  exact absurd hmol (by decide)

end Pwm
end AtomDrivers
