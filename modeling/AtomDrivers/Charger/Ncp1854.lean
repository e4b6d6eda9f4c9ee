/-
The registers of the ncp1854 charger and their file in sysfs.

A setter is one read-modify-write of a field, in which a failed read leaves zeros.  The
file takes commands of text: a register and a value are written, a register alone of at
most three bytes is read, and the file shows the byte that was read last.  Commands
written with a blank between two numbers make the file a port to the registers, whatever
the chip does to them meanwhile.  A longer command without a blank makes the driver
follow a null pointer, and so does any command while no client has been probed.
-/
import AtomDrivers.Charger.Bq24296
import AtomDrivers.Linux.CString
import AtomDrivers.Linux.Decimal
import AtomDrivers.Linux.Errno
import AtomDrivers.Linux.Hex
import AtomDrivers.Machine.Refine
import AtomDrivers.Storage.Slots

namespace AtomDrivers
namespace Charger

open Storage Linux

/-- What `i2c_master_send` returns to the two transactions of a call. -/
structure SendAnswers where
  read : Int
  write : Int
  deriving DecidableEq, Repr

section Interface

variable (k : SendAnswers)

/-- The byte that a failed read leaves is `returnData`. -/
def ncp1854ReadByte (cmd returnData : BitVec 8) (chip : Chip) : Int × BitVec 8 :=
  if k.read < 0 then (0, returnData) else (1, chip cmd)

def ncp1854WriteByte (cmd writeData : BitVec 8) (chip : Chip) : Int × Chip :=
  if k.write < 0 then (0, chip) else (1, Function.update chip cmd writeData)

def ncp1854ReadInterface (regNum mask : BitVec 8) (shift : Nat) (chip : Chip) :
    Int × BitVec 8 :=
  let (ret, reg) := ncp1854ReadByte k regNum 0 chip
  let reg := (reg.setWidth 32 &&& (mask.setWidth 32 <<< shift)).setWidth 8
  (ret, (reg.setWidth 32 >>> shift).setWidth 8)

def ncp1854ConfigInterface (regNum val mask : BitVec 8) (shift : Nat) (chip : Chip) :
    Int × Chip :=
  let (_, reg) := ncp1854ReadByte k regNum 0 chip
  let reg := (reg.setWidth 32 &&& ~~~(mask.setWidth 32 <<< shift)).setWidth 8
  let reg := (reg.setWidth 32 ||| (val.setWidth 32 <<< shift)).setWidth 8
  ncp1854WriteByte k regNum reg chip

end Interface

/-! ## The setters and getters -/

inductive NcpSetter
  | reset | chgEn | otgEn | fctryMode | tjWarnOpt | tchgRst | intMask
  | wdtoDis | chgtoDis | pwrPath | transEn | iinsetPinEn | iinlimEn | aiclEn
  | ctrlVbat | ichgHigh | ieoc | ichg | iweak | ctrlVfet | iinlim | iinlimTa
  deriving DecidableEq, Repr

/-- The fields that are read only. -/
inductive NcpStatus
  | state | batfet | statint | faultint | usbCfg | vfetOk
  deriving DecidableEq, Repr

/-- `con n` is the number of register n, and the rest are the masks and shifts. -/
structure Ncp1854Header where
  con : Nat → BitVec 8
  field : NcpSetter → Field 8
  status : NcpStatus → Field 8

section Fields

variable (hdr : Ncp1854Header)

def ncp1854Set (n : Nat) (f : Field 8) (val : BitVec 32) (k : SendAnswers) (chip : Chip) :
    Int × Chip :=
  ncp1854ConfigInterface k (hdr.con n) (val.setWidth 8) f.mask f.shift chip

/-- The value lands in the low byte of an `unsigned int`. -/
def ncp1854Get (n : Nat) (f : Field 8) (k : SendAnswers) (chip : Chip) : BitVec 32 :=
  (ncp1854ReadInterface k (hdr.con n) f.mask f.shift chip).2.setWidth 32

def ncp1854GetChipStatus := ncp1854Get hdr 0 (hdr.status .state)
def ncp1854GetBatfet := ncp1854Get hdr 0 (hdr.status .batfet)
def ncp1854GetStatint := ncp1854Get hdr 0 (hdr.status .statint)
def ncp1854GetFaultint := ncp1854Get hdr 0 (hdr.status .faultint)
def ncp1854SetReset := ncp1854Set hdr 1 (hdr.field .reset)
def ncp1854SetChgEn := ncp1854Set hdr 1 (hdr.field .chgEn)
def ncp1854SetOtgEn := ncp1854Set hdr 1 (hdr.field .otgEn)
def ncp1854GetOtgEn := ncp1854Get hdr 1 (hdr.field .otgEn)
def ncp1854SetFctryMode := ncp1854Set hdr 1 (hdr.field .fctryMode)
def ncp1854SetTjWarnOpt := ncp1854Set hdr 1 (hdr.field .tjWarnOpt)
def ncp1854GetUsbCfg := ncp1854Get hdr 1 (hdr.status .usbCfg)
def ncp1854SetTchgRst := ncp1854Set hdr 1 (hdr.field .tchgRst)
def ncp1854SetIntMask := ncp1854Set hdr 1 (hdr.field .intMask)
def ncp1854SetWdtoDis := ncp1854Set hdr 2 (hdr.field .wdtoDis)
def ncp1854SetChgtoDis := ncp1854Set hdr 2 (hdr.field .chgtoDis)
def ncp1854SetPwrPath := ncp1854Set hdr 2 (hdr.field .pwrPath)
def ncp1854SetTransEn := ncp1854Set hdr 2 (hdr.field .transEn)
def ncp1854SetIinsetPinEn := ncp1854Set hdr 2 (hdr.field .iinsetPinEn)
def ncp1854SetIinlimEn := ncp1854Set hdr 2 (hdr.field .iinlimEn)
def ncp1854SetAiclEn := ncp1854Set hdr 2 (hdr.field .aiclEn)
def ncp1854GetVfetOk := ncp1854Get hdr 8 (hdr.status .vfetOk)
def ncp1854SetCtrlVbat := ncp1854Set hdr 14 (hdr.field .ctrlVbat)
def ncp1854SetIchgHigh := ncp1854Set hdr 15 (hdr.field .ichgHigh)
def ncp1854SetIeoc := ncp1854Set hdr 15 (hdr.field .ieoc)
def ncp1854SetIchg := ncp1854Set hdr 15 (hdr.field .ichg)
def ncp1854GetIchg := ncp1854Get hdr 15 (hdr.field .ichg)
def ncp1854SetIweak := ncp1854Set hdr 16 (hdr.field .iweak)
def ncp1854SetCtrlVfet := ncp1854Set hdr 16 (hdr.field .ctrlVfet)
def ncp1854SetIinlim := ncp1854Set hdr 16 (hdr.field .iinlim)
def ncp1854SetIinlimTa := ncp1854Set hdr 17 (hdr.field .iinlimTa)

def NcpSetter.call : NcpSetter → BitVec 32 → SendAnswers → Chip → Int × Chip
  | reset => ncp1854SetReset hdr
  | chgEn => ncp1854SetChgEn hdr
  | otgEn => ncp1854SetOtgEn hdr
  | fctryMode => ncp1854SetFctryMode hdr
  | tjWarnOpt => ncp1854SetTjWarnOpt hdr
  | tchgRst => ncp1854SetTchgRst hdr
  | intMask => ncp1854SetIntMask hdr
  | wdtoDis => ncp1854SetWdtoDis hdr
  | chgtoDis => ncp1854SetChgtoDis hdr
  | pwrPath => ncp1854SetPwrPath hdr
  | transEn => ncp1854SetTransEn hdr
  | iinsetPinEn => ncp1854SetIinsetPinEn hdr
  | iinlimEn => ncp1854SetIinlimEn hdr
  | aiclEn => ncp1854SetAiclEn hdr
  | ctrlVbat => ncp1854SetCtrlVbat hdr
  | ichgHigh => ncp1854SetIchgHigh hdr
  | ieoc => ncp1854SetIeoc hdr
  | ichg => ncp1854SetIchg hdr
  | iweak => ncp1854SetIweak hdr
  | ctrlVfet => ncp1854SetCtrlVfet hdr
  | iinlim => ncp1854SetIinlim hdr
  | iinlimTa => ncp1854SetIinlimTa hdr

/-- The number of the register that holds the setter's field. -/
def NcpSetter.con : NcpSetter → Nat
  | reset | chgEn | otgEn | fctryMode | tjWarnOpt | tchgRst | intMask => 1
  | wdtoDis | chgtoDis | pwrPath | transEn | iinsetPinEn | iinlimEn | aiclEn => 2
  | ctrlVbat => 14
  | ichgHigh | ieoc | ichg => 15
  | iweak | ctrlVfet | iinlim => 16
  | iinlimTa => 17

/-- What is read is the field of the register, and 0 where the read fails. -/
theorem readInterface_eq (k : SendAnswers) (regNum : BitVec 8) (f : Field 8) (chip : Chip) :
    (ncp1854ReadInterface k regNum f.mask f.shift chip).2 =
      if k.read < 0 then 0 else f.get (chip regNum) := by
  by_cases hread : k.read < 0
  · simp only [ncp1854ReadInterface, ncp1854ReadByte, if_pos hread, Field.int_get]
    simp [Field.get]
  · simp only [ncp1854ReadInterface, ncp1854ReadByte, if_neg hread, Field.int_get]

theorem ncp1854Get_eq (n : Nat) (f : Field 8) (k : SendAnswers) (chip : Chip) :
    ncp1854Get hdr n f k chip =
      (if k.read < 0 then 0 else f.get (chip (hdr.con n))).setWidth 32 := by
  rw [ncp1854Get, readInterface_eq]

theorem NcpSetter.call_eq (s : NcpSetter) :
    s.call hdr = ncp1854Set hdr s.con (hdr.field s) := by
  cases s <;> rfl

end Fields

/-! ## The file in sysfs -/

/-- The chip and `g_reg_value_ncp1854`. -/
structure Ncp1854 where
  chip : Chip
  gRegValue : BitVec 8

/-- A blank. -/
def blank : UInt8 := 32

def newline : UInt8 := 10

/-- The buffer of a store holds a 0 behind the bytes that were written. -/
def bufferString (text : List UInt8) : List UInt8 := text.takeWhile (· ≠ 0)

/-- A number that is none leaves the 0 that the variable starts with. -/
def number (s : List UInt8) : BitVec 32 := (kstrtou32 s).getD 0

/-- `none` where the driver reads from `NULL`, which `strsep` gives for a string of
which nothing is left. -/
def storeNcp1854Access (k : SendAnswers) (text : List UInt8) (s : Ncp1854) : Option Ncp1854 :=
  if text.length ≠ 0 then
    if 3 < text.length then
      let (addr, pvalue) := strsep blank (bufferString text)
      let regAddress := number addr
      match pvalue with
      | none => none
      | some p =>
        let (val, _) := strsep blank p
        let regValue := number val
        some { s with chip := (ncp1854ConfigInterface k (regAddress.setWidth 8)
          (regValue.setWidth 8) 0xff 0 s.chip).2 }
    else
      let regAddress := number (bufferString text)
      some { s with gRegValue :=
        (ncp1854ReadInterface k (regAddress.setWidth 8) 0xff 0 s.chip).2 }
  else some s

def showNcp1854Access (s : Ncp1854) : List UInt8 := decimal s.gRegValue.toNat ++ [newline]

/-- `new_client`, and what the stores work on when there is one. -/
structure NcpDriver where
  newClient : Bool
  file : Ncp1854

/-- `kmalloc` overwrites `new_client` also where it fails.  What the rest of the probe
writes to the chip is left to the actions that change it. -/
def ncp1854DriverProbe (kmalloc : Bool) (d : NcpDriver) : Int × NcpDriver :=
  if kmalloc then (0, { d with newClient := true })
  else (-ENOMEM, { d with newClient := false })

/-- Without a client, a store of any text ends at a null pointer: `strsep` gives one, or
the transaction follows `new_client`. -/
def NcpDriver.store (k : SendAnswers) (text : List UInt8) (d : NcpDriver) : Option NcpDriver :=
  if d.newClient = false ∧ text.length ≠ 0 then none
  else (storeNcp1854Access k text d.file).map fun file => { d with file }

/-- `changed` is what the chip does to its registers by itself or at the call of others. -/
inductive Access
  | driverProbe (kmalloc : Bool)
  | changed (chip : Chip)
  | store (text : List UInt8) (answers : SendAnswers)
  | cat

/-- What is shown; a store that follows a null pointer has no successor. -/
def ncpAccess : Machine NcpDriver Access (List UInt8) where
  step d
    | .driverProbe kmalloc => some ((ncp1854DriverProbe kmalloc d).2, [])
    | .changed chip => some ({ d with file := { d.file with chip } }, [])
    | .store text k => (d.store k text).map fun d => (d, [])
    | .cat => some (d, showNcp1854Access d.file)

/-! ## Commands that crash -/

section Crash

theorem storeNcp1854Access_eq_none_iff (k : SendAnswers) (text : List UInt8) (s : Ncp1854) :
    storeNcp1854Access k text s = none ↔ 3 < text.length ∧ blank ∉ bufferString text := by
  by_cases hlong : 3 < text.length
  · have hpos : text.length ≠ 0 := by omega
    rw [← strsep_rest_iff, storeNcp1854Access, if_pos hpos, if_pos hlong]
    cases hrest : (strsep blank (bufferString text)).2 with
    | none => simp [hrest, hlong]
    | some p => simp [hrest]
  · refine iff_of_false ?_ fun h => hlong h.1
    rw [storeNcp1854Access, if_neg hlong]
    split <;> simp

theorem exists_store_iff (k : SendAnswers) (text : List UInt8) (d : NcpDriver) :
    (∃ t, d.store k text = some t) ↔
      (text ≠ [] → d.newClient = true) ∧ (3 < text.length → blank ∈ bufferString text) := by
  by_cases hnull : d.newClient = false ∧ text.length ≠ 0
  · refine iff_of_false ?_ fun h => ?_
    · rintro ⟨t, ht⟩
      rw [NcpDriver.store, if_pos hnull] at ht
      cases ht
    · have hclient := h.1 (List.ne_nil_of_length_pos (by omega))
      rw [hnull.1] at hclient
      cases hclient
  · have hclient : text ≠ [] → d.newClient = true := by
      intro htext
      by_contra hfalse
      exact hnull ⟨by simpa using hfalse, by simpa using htext⟩
    rw [NcpDriver.store, if_neg hnull, ← Option.isSome_iff_exists, Option.isSome_map,
      ← Option.ne_none_iff_isSome, ne_eq, storeNcp1854Access_eq_none_iff]
    constructor
    · intro h
      exact ⟨hclient, fun hlong => by_contra fun hblank => h ⟨hlong, hblank⟩⟩
    · rintro ⟨_, h⟩ ⟨hlong, hblank⟩
      exact hblank (h hlong)

/-- Whether the last probe so far has got a client. -/
def clientAfter : Bool → List Access → Bool
  | client, [] => client
  | _, .driverProbe kmalloc :: as => clientAfter kmalloc as
  | client, .changed _ :: as => clientAfter client as
  | client, .store _ _ :: as => clientAfter client as
  | client, .cat :: as => clientAfter client as

theorem newClient_run {d t : NcpDriver} {as : List Access} {os : List (List UInt8)}
    (h : ncpAccess.run d as = some (t, os)) : t.newClient = clientAfter d.newClient as := by
  induction as generalizing d os with
  | nil =>
    cases h
    rfl
  | cons a as ih =>
    obtain ⟨u, o, os', hstep, hrest, _⟩ := Machine.run_cons_iff.mp h
    rw [ih hrest]
    cases a with
    | driverProbe kmalloc =>
      cases hstep
      cases kmalloc <;> rfl
    | changed chip =>
      cases hstep
      rfl
    | store text k =>
      have hstore : d.store k text = some u := by
        simpa [ncpAccess] using congrArg (Option.map Prod.fst) hstep
      have hsame : u.newClient = d.newClient := by
        rw [NcpDriver.store] at hstore
        split at hstore
        · cases hstore
        · obtain ⟨file, _, rfl⟩ := Option.map_eq_some_iff.mp hstore
          rfl
      rw [hsame]
      rfl
    | cat =>
      cases hstep
      rfl

/-- A run follows no null pointer exactly if each text that is stored comes when the last
probe has got a client, and has a blank before its first 0 when it has more than three
bytes. -/
theorem exists_run_iff (d : NcpDriver) (as : List Access) :
    (∃ t os, ncpAccess.run d as = some (t, os)) ↔
      ∀ before text k after, as = before ++ .store text k :: after →
        (text ≠ [] → clientAfter d.newClient before = true) ∧
          (3 < text.length → blank ∈ bufferString text) := by
  constructor
  · rintro ⟨t, os, hrun⟩ before text k after rfl
    obtain ⟨u, os₁, os₂, hbefore, hrest, _⟩ := Machine.run_append_iff.mp hrun
    obtain ⟨v, o, _, hstep, _⟩ := Machine.run_cons_iff.mp hrest
    rw [← newClient_run hbefore]
    apply (exists_store_iff k text u).mp
    exact ⟨v, by simpa [ncpAccess] using congrArg (Option.map Prod.fst) hstep⟩
  · intro hall
    rw [Machine.exists_run_iff_split]
    intro before a after heq u os hbefore
    cases a with
    | driverProbe kmalloc => exact ⟨_, _, rfl⟩
    | changed chip => exact ⟨_, _, rfl⟩
    | cat => exact ⟨_, _, rfl⟩
    | store text k =>
      have hgood := hall before text k after heq
      rw [← newClient_run hbefore] at hgood
      obtain ⟨v, hv⟩ := (exists_store_iff k text u).mpr hgood
      exact ⟨v, [], by simp only [ncpAccess, hv, Option.map_some]⟩

end Crash

/-! ## The file as a port to the registers -/

inductive Command
  | changed (chip : Chip)
  | write (reg val : BitVec 8) (answers : SendAnswers)
  | read (reg : BitVec 8) (answers : SendAnswers)
  | cat

/-- How a command is put to the file. -/
def Command.access : Command → Access
  | changed chip => .changed chip
  | write reg val k => .store (hex reg.toNat ++ blank :: (hex val.toNat ++ [newline])) k
  | read reg k => .store (hex reg.toNat ++ [newline]) k
  | cat => .cat

/-- The registers, and the byte that was read last. -/
def registers : Machine (Chip × BitVec 8) Command (Option (BitVec 8)) where
  step s
    | .changed chip => some ((chip, s.2), none)
    | .write reg val k =>
      some ((if k.write < 0 then s.1 else Function.update s.1 reg val, s.2), none)
    | .read reg k => some ((s.1, if k.read < 0 then 0 else s.1 reg), none)
    | .cat => some (s, some s.2)

/-- What the file shows. -/
def shown : Option (BitVec 8) → List UInt8
  | none => []
  | some val => decimal val.toNat ++ [newline]

/-- Both transactions succeed. -/
def SendAnswers.Works (k : SendAnswers) : Prop := 0 ≤ k.read ∧ 0 ≤ k.write

section Commands

variable {k : SendAnswers}

theorem config_byte (k : SendAnswers) (regNum val : BitVec 8) (chip : Chip) :
    (ncp1854ConfigInterface k regNum val 0xff 0 chip).2 =
      if k.write < 0 then chip else Function.update chip regNum val := by
  have hput : ∀ reg, _ = val := fun reg =>
    (config_put Field.byte reg val).trans (Field.byte_put reg val)
  by_cases hwrite : k.write < 0
  · simp only [ncp1854ConfigInterface, ncp1854WriteByte, if_pos hwrite]
  · simp only [ncp1854ConfigInterface, ncp1854WriteByte, if_neg hwrite]
    exact congrArg (Function.update chip regNum) (hput _)

theorem read_byte (k : SendAnswers) (regNum : BitVec 8) (chip : Chip) :
    (ncp1854ReadInterface k regNum 0xff 0 chip).2 = if k.read < 0 then 0 else chip regNum := by
  have hbyte := readInterface_eq k regNum Field.byte chip
  rwa [Field.byte_get] at hbyte

theorem number_hex (val : BitVec 8) {tail : List UInt8} (htail : tail = [] ∨ tail = [newline]) :
    (number (hex val.toNat ++ tail)).setWidth 8 = val := by
  have hlt := val.isLt
  rw [number, kstrtou32_hex (by omega) htail]
  apply BitVec.eq_of_toNat_eq
  simp only [Option.getD_some, BitVec.toNat_setWidth, BitVec.toNat_ofNat]
  omega

theorem hex_chars (n : Nat) : ∀ c ∈ hex n, c ≠ 0 ∧ c ≠ blank := by
  intro c hc
  obtain ⟨d, hd, rfl⟩ := mem_hex hc
  exact ⟨(hexChar_ne hd).1, (hexChar_ne hd).2.1⟩

theorem hex_length_pos (n : Nat) : 0 < (hex n).length := by
  rw [hex, List.length_map]
  exact List.length_pos_iff.mpr (hexDigits_ne_nil n)

theorem bufferString_eq {text : List UInt8} (h : ∀ c ∈ text, c ≠ 0) :
    bufferString text = text := by
  induction text with
  | nil => rfl
  | cons c text ih =>
    have hc : c ≠ 0 := h c List.mem_cons_self
    have hrest : bufferString text = text := ih fun d hd => h d (List.mem_cons_of_mem c hd)
    rw [bufferString] at hrest ⊢
    rw [List.takeWhile_cons, if_pos (decide_eq_true hc), hrest]

theorem store_write (k : SendAnswers) (reg val : BitVec 8) (s : Ncp1854) :
    storeNcp1854Access k (hex reg.toNat ++ blank :: (hex val.toNat ++ [newline])) s =
      some { s with chip := if k.write < 0 then s.chip else Function.update s.chip reg val } := by
  have hreg := hex_length_pos reg.toNat
  have hval := hex_length_pos val.toNat
  have hlength : (hex reg.toNat ++ blank :: (hex val.toNat ++ [newline])).length =
      (hex reg.toNat).length + (hex val.toNat).length + 2 := by
    simp
    omega
  have hbuffer : bufferString (hex reg.toNat ++ blank :: (hex val.toNat ++ [newline])) =
      hex reg.toNat ++ blank :: (hex val.toNat ++ [newline]) := by
    apply bufferString_eq
    intro c hc
    simp only [List.mem_append, List.mem_cons, List.not_mem_nil, or_false] at hc
    rcases hc with hc | rfl | hc | rfl
    · exact (hex_chars _ c hc).1
    · decide
    · exact (hex_chars _ c hc).1
    · decide
  have haddr : strsep blank (hex reg.toNat ++ blank :: (hex val.toNat ++ [newline])) =
      (hex reg.toNat, some (hex val.toNat ++ [newline])) :=
    strsep_append (fun h => (hex_chars _ _ h).2 rfl) _
  have hvalue : strsep blank (hex val.toNat ++ [newline]) = (hex val.toNat ++ [newline], none) := by
    apply strsep_of_not_mem
    intro hmem
    rcases List.mem_append.mp hmem with hmem | hmem
    · exact (hex_chars _ _ hmem).2 rfl
    · exact absurd (List.mem_singleton.mp hmem) (by decide)
  have hnumber := number_hex reg (Or.inl rfl)
  rw [List.append_nil] at hnumber
  rw [storeNcp1854Access, if_pos (by omega), if_pos (by omega), hbuffer, haddr]
  simp only [hvalue, hnumber, number_hex val (Or.inr rfl), config_byte]

theorem store_read (k : SendAnswers) (reg : BitVec 8) (s : Ncp1854) :
    storeNcp1854Access k (hex reg.toNat ++ [newline]) s =
      some { s with gRegValue := if k.read < 0 then 0 else s.chip reg } := by
  have hlength : (hex reg.toNat).length ≤ 2 := by
    have hlt := reg.isLt
    rw [hex, List.length_map, hexDigits_length_le_iff (by decide)]
    exact hlt
  have hbuffer : bufferString (hex reg.toNat ++ [newline]) = hex reg.toNat ++ [newline] := by
    apply bufferString_eq
    intro c hc
    rcases List.mem_append.mp hc with hc | hc
    · exact (hex_chars _ c hc).1
    · rw [List.mem_singleton.mp hc]
      decide
  have htext : (hex reg.toNat ++ [newline]).length = (hex reg.toNat).length + 1 := by simp
  rw [storeNcp1854Access, if_pos (by omega), if_neg (by omega), hbuffer]
  simp only [number_hex reg (Or.inr rfl), read_byte]

/-- Put to the file, commands do what they mean. -/
theorem file_lockstep :
    Machine.Lockstep registers ncpAccess (fun _ => True) Command.access
      (fun s d => d = { newClient := true, file := { chip := s.1, gRegValue := s.2 } }) shown := by
  rintro s _ c rfl _
  have hclient : ∀ text : List UInt8, ¬ (true = false ∧ text.length ≠ 0) := fun _ h => by cases h.1
  cases c with
  | changed chip => exact Option.Rel.some ⟨rfl, rfl⟩
  | write reg val k =>
    simp only [ncpAccess, Command.access, NcpDriver.store, if_neg (hclient _), store_write,
      Option.map_some]
    exact Option.Rel.some ⟨rfl, rfl⟩
  | read reg k =>
    simp only [ncpAccess, Command.access, NcpDriver.store, if_neg (hclient _), store_read,
      Option.map_some]
    exact Option.Rel.some ⟨rfl, rfl⟩
  | cat => exact Option.Rel.some ⟨rfl, rfl⟩

/-- The registers after commands, of which those whose transaction fails write nothing. -/
def registersAfter : Chip → List Command → Chip
  | chip, [] => chip
  | _, .changed chip :: cs => registersAfter chip cs
  | chip, .write reg val k :: cs =>
    registersAfter (if k.write < 0 then chip else Function.update chip reg val) cs
  | chip, .read _ _ :: cs => registersAfter chip cs
  | chip, .cat :: cs => registersAfter chip cs

theorem registersAfter_append (chip : Chip) (cs ds : List Command) :
    registersAfter chip (cs ++ ds) = registersAfter (registersAfter chip cs) ds := by
  induction cs generalizing chip with
  | nil => rfl
  | cons c cs ih => cases c <;> exact ih _

theorem registers_run {cs : List Command} {s t : Chip × BitVec 8}
    {os : List (Option (BitVec 8))} (h : registers.run s cs = some (t, os)) :
    t.1 = registersAfter s.1 cs ∧ ((∀ reg k, .read reg k ∉ cs) → t.2 = s.2) := by
  induction cs generalizing s os with
  | nil =>
    cases h
    exact ⟨rfl, fun _ => rfl⟩
  | cons c cs ih =>
    obtain ⟨u, o, os', hstep, hrest, rfl⟩ := Machine.run_cons_iff.mp h
    obtain ⟨hchip, hlast⟩ := ih hrest
    have hnone : (∀ reg k, .read reg k ∉ c :: cs) → ∀ reg k, .read reg k ∉ cs :=
      fun hread reg k hmem => hread reg k (List.mem_cons_of_mem c hmem)
    cases c with
    | changed chip =>
      cases hstep
      exact ⟨hchip, fun hread => hlast (hnone hread)⟩
    | write reg val k =>
      cases hstep
      exact ⟨hchip, fun hread => hlast (hnone hread)⟩
    | read reg k =>
      cases hstep
      exact ⟨hchip, fun hread => absurd List.mem_cons_self (hread reg k)⟩
    | cat =>
      cases hstep
      exact ⟨hchip, fun hread => hlast (hnone hread)⟩

/-- Once there is a client, whatever the chip does meanwhile and whatever the bus
answers: commands that write put their bytes into the registers, where the bus lets them
through, and the file shows what the register of the last command that reads held when
the command came, or 0 when its transaction failed. -/
theorem shown_last_read {d : NcpDriver} (hclient : d.newClient = true)
    (before between : List Command) (reg : BitVec 8) (k : SendAnswers)
    (hbetween : ∀ r k', .read r k' ∉ between) :
    ∃ t os, ncpAccess.run d ((before ++ Command.read reg k :: (between ++ [Command.cat])).map
        Command.access) = some (t, os) ∧
      t.file.chip = registersAfter d.file.chip (before ++ between) ∧
      os.getLast? = some (shown
        (some (if k.read < 0 then 0 else registersAfter d.file.chip before reg))) := by
  have htotal : ∀ s c, ∃ t o, registers.step s c = some (t, o) := fun s c => by
    cases c <;> exact ⟨_, _, rfl⟩
  obtain ⟨u, os₁, hbefore⟩ := Machine.exists_run htotal (d.file.chip, d.file.gRegValue) before
  obtain ⟨v, os₂, hafter⟩ := Machine.exists_run htotal
    (u.1, if k.read < 0 then 0 else u.1 reg) between
  have hall : registers.run (d.file.chip, d.file.gRegValue)
      (before ++ Command.read reg k :: (between ++ [Command.cat])) =
        some (v, os₁ ++ none :: (os₂ ++ [some v.2])) :=
    Machine.run_append hbefore
      (Machine.run_cons rfl (Machine.run_append hafter (Machine.run_singleton rfl)))
  have hstart : d = { newClient := true, file := d.file } := by rw [← hclient]
  have hagree := file_lockstep.run (s := (d.file.chip, d.file.gRegValue)) hstart
    fun c (_ : c ∈ before ++ Command.read reg k :: (between ++ [Command.cat])) => trivial
  rw [hall] at hagree
  obtain ⟨hu, -⟩ := registers_run hbefore
  obtain ⟨hv, hkept⟩ := registers_run hafter
  cases hfile : ncpAccess.run d
      ((before ++ Command.read reg k :: (between ++ [Command.cat])).map Command.access) with
  | none =>
    rw [hfile] at hagree
    cases hagree
  | some p =>
    rw [hfile] at hagree
    cases hagree with
    | some hp =>
      refine ⟨p.1, p.2, rfl, ?_, ?_⟩
      · rw [hp.1, registersAfter_append, ← hu]
        exact hv
      · have hlast : (os₁ ++ none :: (os₂ ++ [some v.2])).getLast? = some (some v.2) := by
          rw [← List.cons_append, ← List.append_assoc, List.getLast?_concat]
        rw [← hp.2, List.getLast?_map, hlast, hkept hbetween, ← hu]
        rfl

def answered : SendAnswers := { read := 1, write := 2 }

theorem answered_works : answered.Works := ⟨by decide, by decide⟩

/-- A register that clears itself shows what it held when it was read. -/
theorem shown_last_read_cleared :
    ∃ t os, ncpAccess.run { newClient := true, file := { chip := fun _ => 0, gRegValue := 0 } }
        (([Command.write 4 0x17 answered] ++
          Command.read 4 answered :: ([Command.changed fun _ => 0] ++ [.cat])).map
            Command.access) = some (t, os) ∧
      t.file.chip = registersAfter (fun _ => 0)
        ([Command.write 4 0x17 answered] ++ [Command.changed fun _ => 0]) ∧
      os.getLast? = some (shown (some 0x17)) :=
  shown_last_read rfl [.write 4 0x17 answered] [.changed fun _ => 0] 4 answered
    (by simp)

theorem hex_length_le_one (val : BitVec 8) : (hex val.toNat).length ≤ 1 ↔ val < 16 := by
  rw [hex, List.length_map, hexDigits_length_le_iff (by decide), BitVec.lt_def]
  rfl

/-- Without a newline, a command that writes one digit to a register of one digit is
taken for one that reads register 0; any other does what it means. -/
theorem store_unterminated (hk : k.Works) (reg val : BitVec 8) (s : Ncp1854) :
    storeNcp1854Access k (hex reg.toNat ++ blank :: hex val.toNat) s =
      some (if reg < 16 ∧ val < 16 then { s with gRegValue := s.chip 0 }
        else { s with chip := Function.update s.chip reg val }) := by
  have hreg := hex_length_pos reg.toNat
  have hval := hex_length_pos val.toNat
  have hreg' := hex_length_le_one reg
  have hval' := hex_length_le_one val
  have hlength : (hex reg.toNat ++ blank :: hex val.toNat).length =
      (hex reg.toNat).length + (hex val.toNat).length + 1 := by
    simp
    omega
  have hbuffer : bufferString (hex reg.toNat ++ blank :: hex val.toNat) =
      hex reg.toNat ++ blank :: hex val.toNat := by
    apply bufferString_eq
    intro c hc
    simp only [List.mem_append, List.mem_cons] at hc
    rcases hc with hc | rfl | hc
    · exact (hex_chars _ c hc).1
    · decide
    · exact (hex_chars _ c hc).1
  by_cases hshort : reg < 16 ∧ val < 16
  · have hnumber : number (hex reg.toNat ++ blank :: hex val.toNat) = 0 := by
      rw [number, kstrtou32_hex_behind _ (by decide) (by decide) fun b hb => ?_]
      · rfl
      · rcases List.mem_cons.mp hb with rfl | hb
        · decide
        · obtain ⟨d, hd, rfl⟩ := mem_hex hb
          exact (hexChar_ne hd).2.2.2
    have hone := hreg'.mpr hshort.1
    have hone' := hval'.mpr hshort.2
    rw [storeNcp1854Access, if_pos (by omega), if_neg (by omega), hbuffer, if_pos hshort]
    have hread : ¬ k.read < 0 := by have := hk.1; omega
    simp only [hnumber]
    rw [show (0 : BitVec 32).setWidth 8 = 0 from rfl, read_byte, if_neg hread]
  · have hlong : 3 < (hex reg.toNat ++ blank :: hex val.toNat).length := by
      by_contra hle
      exact hshort ⟨hreg'.mp (by omega), hval'.mp (by omega)⟩
    have haddr : strsep blank (hex reg.toNat ++ blank :: hex val.toNat) =
        (hex reg.toNat, some (hex val.toNat)) :=
      strsep_append (fun h => (hex_chars _ _ h).2 rfl) _
    have hvalue : strsep blank (hex val.toNat) = (hex val.toNat, none) :=
      strsep_of_not_mem fun h => (hex_chars _ _ h).2 rfl
    have hnumber := fun n : BitVec 8 => number_hex n (Or.inl rfl)
    simp only [List.append_nil] at hnumber
    have hwrite : ¬ k.write < 0 := by have := hk.2; omega
    rw [storeNcp1854Access, if_pos (by omega), if_pos hlong, hbuffer, haddr, if_neg hshort]
    simp only [hvalue, hnumber, config_byte, if_neg hwrite]

theorem store_unterminated_digits :
    storeNcp1854Access answered (hex (2 : BitVec 8).toNat ++ blank :: hex (7 : BitVec 8).toNat)
        { chip := fun _ => 1, gRegValue := 0 } =
      some (if (2 : BitVec 8) < 16 ∧ (7 : BitVec 8) < 16 then
          { chip := fun _ => 1, gRegValue := 1 }
        else { chip := Function.update (fun _ => 1) 2 7, gRegValue := 0 }) :=
  store_unterminated answered_works 2 7 _

end Commands

/-! ## The setters, call by call -/

structure NcpCall where
  setter : NcpSetter
  val : BitVec 32
  answers : SendAnswers
  deriving DecidableEq, Repr

section Setters

variable (hdr : Ncp1854Header)

/-- The output is what `ncp1854_config_interface` returns. -/
def ncpCharger : Machine Chip NcpCall Int where
  step chip c :=
    let r := c.setter.call hdr c.val c.answers chip
    some (r.2, r.1)

/-- The call changes its own field alone. -/
def NcpOwnField (chip : Chip) (c : NcpCall) : Prop :=
  let reg := hdr.con c.setter.con
  ∀ chip' ret, (ncpCharger hdr).step chip c = some (chip', ret) →
    (∀ r, r ≠ reg → chip' r = chip r) ∧ (hdr.field c.setter).SameOutside (chip' reg) (chip reg)

/-- The bits of the value that spill over are set in the register, and when the read
fails, they are all that the register has beside the field. -/
def NcpContained (chip : Chip) (c : NcpCall) : Prop :=
  let reg := chip (hdr.con c.setter.con)
  let f := hdr.field c.setter
  0 ≤ c.answers.write →
    if 0 ≤ c.answers.read then f.spill (c.val.setWidth 8) &&& ~~~reg = 0#8
    else f.spill (c.val.setWidth 8) = reg &&& ~~~f.bits

variable {hdr} {chip : Chip}

theorem ncp1854Set_eq (n : Nat) (f : Field 8) (val : BitVec 32) (k : SendAnswers) :
    ncp1854Set hdr n f val k chip =
      if k.write < 0 then (0, chip)
      else (1, Function.update chip (hdr.con n)
        (f.put (if k.read < 0 then 0 else chip (hdr.con n)) (val.setWidth 8))) := by
  by_cases hread : k.read < 0
  · simp only [ncp1854Set, ncp1854ConfigInterface, ncp1854ReadByte, ncp1854WriteByte,
      if_pos hread, config_put]
  · simp only [ncp1854Set, ncp1854ConfigInterface, ncp1854ReadByte, ncp1854WriteByte,
      if_neg hread, config_put]

/-- What is put into an empty register is the value and what spills over. -/
theorem put_zero_sameOutside_iff (f : Field 8) (reg val : BitVec 8) :
    f.SameOutside (f.put 0 val) reg ↔ f.spill val = reg &&& ~~~f.bits := by
  have hput : f.put 0 val &&& ~~~f.bits = f.spill val := by
    rw [Field.put, Field.spill]
    simp
  rw [Field.SameOutside, hput]

theorem ncpOwnField_iff (chip : Chip) (c : NcpCall) :
    NcpOwnField hdr chip c ↔ NcpContained hdr chip c := by
  have hcall : c.setter.call hdr c.val c.answers chip = _ :=
    (congrFun (congrFun (congrFun (NcpSetter.call_eq hdr c.setter) _) _) _).trans
      (ncp1854Set_eq c.setter.con (hdr.field c.setter) c.val c.answers)
  by_cases hwrite : c.answers.write < 0
  · refine iff_of_true (fun chip' ret hstep => ?_) fun h => absurd h (by omega)
    simp only [ncpCharger, hcall, if_pos hwrite, Option.some.injEq, Prod.mk.injEq] at hstep
    rw [← hstep.1]
    exact ⟨fun _ _ => rfl, rfl⟩
  · have hown : NcpOwnField hdr chip c ↔ (hdr.field c.setter).SameOutside
        ((hdr.field c.setter).put (if c.answers.read < 0 then 0 else
          chip (hdr.con c.setter.con)) (c.val.setWidth 8)) (chip (hdr.con c.setter.con)) := by
      constructor
      · intro h
        have hsame := (h _ _ rfl).2
        simp only [hcall, if_neg hwrite, Function.update_self] at hsame
        exact hsame
      · intro h chip' ret hstep
        simp only [ncpCharger, hcall, if_neg hwrite, Option.some.injEq, Prod.mk.injEq] at hstep
        rw [← hstep.1]
        refine ⟨fun r hr => Function.update_of_ne hr _ _, ?_⟩
        rw [Function.update_self]
        exact h
    have hcontained : NcpContained hdr chip c ↔
        if 0 ≤ c.answers.read then
          (hdr.field c.setter).spill (c.val.setWidth 8) &&& ~~~chip (hdr.con c.setter.con) = 0#8
        else (hdr.field c.setter).spill (c.val.setWidth 8) =
          chip (hdr.con c.setter.con) &&& ~~~(hdr.field c.setter).bits :=
      ⟨fun h => h (by omega), fun h _ => h⟩
    rw [hown, hcontained]
    by_cases hread : c.answers.read < 0
    · rw [if_pos hread, if_neg (by omega)]
      exact put_zero_sameOutside_iff _ _ _
    · rw [if_neg hread, if_pos (by omega)]
      exact Field.put_sameOutside_iff _ _ _

/-- In every sequence of calls, whatever the bus answers, all of them keep to their own
fields exactly if each call whose write succeeds spills no new bits over, and what it
spills over is the rest of the register where its read has failed. -/
theorem ncpOwnField_throughout_iff (hdr : Ncp1854Header) (chip : Chip) (cs : List NcpCall) :
    (ncpCharger hdr).AllSteps (NcpOwnField hdr) chip cs ↔
      (ncpCharger hdr).AllSteps (NcpContained hdr) chip cs :=
  Machine.allSteps_congr (fun chip c _ => ncpOwnField_iff chip c) cs

end Setters

end Charger
end AtomDrivers
