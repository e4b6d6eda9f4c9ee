/-
The registers of the bq24296 charger.

Every setter is one read-modify-write of a field over the I2C bus.  The result of
the read is overwritten by the result of the write, and the value is shifted in
without being cut to the mask.  A call touches its own field only, and reports what
it did, exactly when a write that succeeds follows a read that succeeded and the
value has no bits beyond the mask but those that are set already.
-/
import AtomDrivers.Machine.Run
import AtomDrivers.Storage.Field
import Mathlib.Logic.Function.Basic

namespace AtomDrivers
namespace Charger

open Storage

inductive Setter
  | enHiz | vindpm | iinlim | regRst | wdtRst | chgConfig | sysMin | boostLim | ichg | iprechg
  | iterm | vreg | batlowv | vrechg | enTerm | watchdog | enTimer | chgTimer | treg | tmr2xEn
  | batfetDisable | intMask
  deriving DecidableEq, Repr

/-- `con n` is the number of register n, and `field` holds the masks and shifts. -/
structure Bq24296Header where
  i2cOk : BitVec 32
  con : Fin 8 → BitVec 8
  field : Setter → Field 8

/-- Register numbers to bytes. -/
abbrev Chip := BitVec 8 → BitVec 8

/-- The two transactions of a call: what they return, and the byte that a failed
read leaves in the buffer. -/
structure I2cAnswers where
  read : BitVec 32
  left : BitVec 8
  write : BitVec 32
  deriving DecidableEq, Repr

section Interface

variable (hdr : Bq24296Header)

/-- The platform's `i2c_write_read` of one byte: the register number goes out of the
buffer and the byte comes in. -/
def i2cWriteRead (k : I2cAnswers) (buffer : BitVec 8) (chip : Chip) : BitVec 32 × BitVec 8 :=
  (k.read, if k.read = hdr.i2cOk then chip buffer else k.left)

def i2cWrite (k : I2cAnswers) (writeData : BitVec 8 × BitVec 8) (chip : Chip) :
    BitVec 32 × Chip :=
  (k.write,
    if k.write = hdr.i2cOk then Function.update chip writeData.1 writeData.2 else chip)

def bq24296ReadByte (k : I2cAnswers) (addr : BitVec 8) (chip : Chip) : BitVec 32 × BitVec 8 :=
  let dataBuffer := addr
  i2cWriteRead hdr k dataBuffer chip

def bq24296WriteByte (k : I2cAnswers) (addr value : BitVec 8) (chip : Chip) : BitVec 32 × Chip :=
  i2cWrite hdr k (addr, value) chip

/-- The shifts are done in `int`, and each assignment cuts the result to a byte. -/
def bq24296ConfigInterface (k : I2cAnswers) (regNum val mask : BitVec 8) (shift : Nat)
    (chip : Chip) : BitVec 32 × Chip :=
  let (_, reg) := bq24296ReadByte hdr k regNum chip
  let reg := (reg.setWidth 32 &&& ~~~(mask.setWidth 32 <<< shift)).setWidth 8
  let reg := (reg.setWidth 32 ||| (val.setWidth 32 <<< shift)).setWidth 8
  bq24296WriteByte hdr k regNum reg chip

/-! ## The setters -/

/-- The setters return nothing; the result of the interface is kept for what is said
about it. -/
def bq24296Set (regNum : BitVec 8) (f : Field 8) (val : BitVec 32) (k : I2cAnswers) (chip : Chip) :
    BitVec 32 × Chip :=
  bq24296ConfigInterface hdr k regNum (val.setWidth 8) f.mask f.shift chip

def bq24296SetEnHiz := bq24296Set hdr (hdr.con 0) (hdr.field .enHiz)
def bq24296SetVindpm := bq24296Set hdr (hdr.con 0) (hdr.field .vindpm)
def bq24296SetIinlim := bq24296Set hdr (hdr.con 0) (hdr.field .iinlim)
def bq24296SetRegRst := bq24296Set hdr (hdr.con 1) (hdr.field .regRst)
def bq24296SetWdtRst := bq24296Set hdr (hdr.con 1) (hdr.field .wdtRst)
def bq24296SetChgConfig := bq24296Set hdr (hdr.con 1) (hdr.field .chgConfig)
def bq24296SetSysMin := bq24296Set hdr (hdr.con 1) (hdr.field .sysMin)
def bq24296SetBoostLim := bq24296Set hdr (hdr.con 1) (hdr.field .boostLim)
def bq24296SetIchg := bq24296Set hdr (hdr.con 2) (hdr.field .ichg)
def bq24296SetIprechg := bq24296Set hdr (hdr.con 3) (hdr.field .iprechg)
def bq24296SetIterm := bq24296Set hdr (hdr.con 3) (hdr.field .iterm)
def bq24296SetVreg := bq24296Set hdr (hdr.con 4) (hdr.field .vreg)
def bq24296SetBatlowv := bq24296Set hdr (hdr.con 4) (hdr.field .batlowv)
def bq24296SetVrechg := bq24296Set hdr (hdr.con 4) (hdr.field .vrechg)
def bq24296SetEnTerm := bq24296Set hdr (hdr.con 5) (hdr.field .enTerm)
def bq24296SetWatchdog := bq24296Set hdr (hdr.con 5) (hdr.field .watchdog)
def bq24296SetEnTimer := bq24296Set hdr (hdr.con 5) (hdr.field .enTimer)
def bq24296SetChgTimer := bq24296Set hdr (hdr.con 5) (hdr.field .chgTimer)
def bq24296SetTreg := bq24296Set hdr (hdr.con 6) (hdr.field .treg)
def bq24296SetTmr2xEn := bq24296Set hdr (hdr.con 7) (hdr.field .tmr2xEn)
def bq24296SetBatfetDisable := bq24296Set hdr (hdr.con 7) (hdr.field .batfetDisable)
def bq24296SetIntMask := bq24296Set hdr (hdr.con 7) (hdr.field .intMask)

def Setter.call : Setter → BitVec 32 → I2cAnswers → Chip → BitVec 32 × Chip
  | enHiz => bq24296SetEnHiz hdr
  | vindpm => bq24296SetVindpm hdr
  | iinlim => bq24296SetIinlim hdr
  | regRst => bq24296SetRegRst hdr
  | wdtRst => bq24296SetWdtRst hdr
  | chgConfig => bq24296SetChgConfig hdr
  | sysMin => bq24296SetSysMin hdr
  | boostLim => bq24296SetBoostLim hdr
  | ichg => bq24296SetIchg hdr
  | iprechg => bq24296SetIprechg hdr
  | iterm => bq24296SetIterm hdr
  | vreg => bq24296SetVreg hdr
  | batlowv => bq24296SetBatlowv hdr
  | vrechg => bq24296SetVrechg hdr
  | enTerm => bq24296SetEnTerm hdr
  | watchdog => bq24296SetWatchdog hdr
  | enTimer => bq24296SetEnTimer hdr
  | chgTimer => bq24296SetChgTimer hdr
  | treg => bq24296SetTreg hdr
  | tmr2xEn => bq24296SetTmr2xEn hdr
  | batfetDisable => bq24296SetBatfetDisable hdr
  | intMask => bq24296SetIntMask hdr

/-- The register that holds the setter's field. -/
def Setter.con : Setter → Fin 8
  | enHiz | vindpm | iinlim => 0
  | regRst | wdtRst | chgConfig | sysMin | boostLim => 1
  | ichg => 2
  | iprechg | iterm => 3
  | vreg | batlowv | vrechg => 4
  | enTerm | watchdog | enTimer | chgTimer => 5
  | treg => 6
  | tmr2xEn | batfetDisable | intMask => 7

theorem Setter.call_eq (s : Setter) :
    s.call hdr = bq24296Set hdr (hdr.con s.con) (hdr.field s) := by
  cases s <;> rfl

end Interface

/-! ## Sequences of calls -/

structure Call where
  setter : Setter
  val : BitVec 32
  answers : I2cAnswers
  deriving DecidableEq, Repr

section Calls

variable (hdr : Bq24296Header)

/-- The output is what `bq24296_config_interface` returns. -/
def charger : Machine Chip Call (BitVec 32) where
  step chip c :=
    let r := c.setter.call hdr c.val c.answers chip
    some (r.2, r.1)

/-- The call changes its field alone, and nothing when a transaction fails, and it
reports success only when both succeeded and the field holds the value. -/
def OwnField (chip : Chip) (c : Call) : Prop :=
  let reg := hdr.con c.setter.con
  let f := hdr.field c.setter
  ∀ chip' ret, (charger hdr).step chip c = some (chip', ret) →
    ((∀ r, r ≠ reg → chip' r = chip r) ∧ f.SameOutside (chip' reg) (chip reg)) ∧
    (c.answers.read ≠ hdr.i2cOk ∨ c.answers.write ≠ hdr.i2cOk → chip' = chip) ∧
    (ret = hdr.i2cOk → c.answers.read = hdr.i2cOk ∧ c.answers.write = hdr.i2cOk ∧
      (f.get (chip' reg)).setWidth 32 = c.val &&& f.mask.setWidth 32)

/-- A write that succeeds follows a read that succeeded, and the bits of the value
that spill over are set in the register. -/
def Contained (chip : Chip) (c : Call) : Prop :=
  c.answers.write = hdr.i2cOk →
    c.answers.read = hdr.i2cOk ∧
      (hdr.field c.setter).spill (c.val.setWidth 8) &&& ~~~chip (hdr.con c.setter.con) = 0#8

/-! ## One call -/

/-- In bytes, the interface puts the value into the field. -/
theorem config_put (f : Field 8) (reg val : BitVec 8) :
    (((reg.setWidth 32 &&& ~~~(f.mask.setWidth 32 <<< f.shift)).setWidth 8).setWidth 32 |||
      (val.setWidth 32 <<< f.shift)).setWidth 8 = f.put reg val := by
  refine BitVec.eq_of_getLsbD_eq fun i hi => ?_
  have hi' : i < 32 := by omega
  have hsub : i - f.shift < 32 := by omega
  simp only [Field.put, Field.bits, BitVec.getLsbD_setWidth, BitVec.getLsbD_or,
    BitVec.getLsbD_and, BitVec.getLsbD_not, BitVec.getLsbD_shiftLeft, hi, hi', hsub, decide_true,
    Bool.true_and]

variable {hdr} {chip : Chip} {k : I2cAnswers}

theorem set_failed (regNum : BitVec 8) (f : Field 8) (val : BitVec 32)
    (hwrite : k.write ≠ hdr.i2cOk) :
    bq24296Set hdr regNum f val k chip = (k.write, chip) := by
  simp only [bq24296Set, bq24296ConfigInterface, bq24296WriteByte, i2cWrite, if_neg hwrite]

theorem set_written (regNum : BitVec 8) (f : Field 8) (val : BitVec 32)
    (hread : k.read = hdr.i2cOk) (hwrite : k.write = hdr.i2cOk) :
    bq24296Set hdr regNum f val k chip =
      (hdr.i2cOk, Function.update chip regNum (f.put (chip regNum) (val.setWidth 8))) := by
  simp only [bq24296Set, bq24296ConfigInterface, bq24296WriteByte, i2cWrite, bq24296ReadByte,
    i2cWriteRead, if_pos hread, if_pos hwrite, config_put]
  rw [hwrite]

theorem charger_step_iff {chip chip' : Chip} {c : Call} {ret : BitVec 32} :
    (charger hdr).step chip c = some (chip', ret) ↔
      bq24296Set hdr (hdr.con c.setter.con) (hdr.field c.setter) c.val c.answers chip =
        (ret, chip') := by
  simp only [charger, Setter.call_eq, Option.some.injEq, Prod.ext_iff]
  exact and_comm

theorem setWidth_and_mask (val : BitVec 32) (mask : BitVec 8) :
    (val.setWidth 8 &&& mask).setWidth 32 = val &&& mask.setWidth 32 := by
  refine BitVec.eq_of_getLsbD_eq fun i hi => ?_
  simp only [BitVec.getLsbD_setWidth, BitVec.getLsbD_and, hi, decide_true, Bool.true_and]
  by_cases hlow : i < 8
  · simp [hlow]
  · simp [hlow, BitVec.getLsbD_of_ge mask i (by omega)]

theorem ownField_iff (chip : Chip) (c : Call) : OwnField hdr chip c ↔ Contained hdr chip c := by
  by_cases hwrite : c.answers.write = hdr.i2cOk
  · by_cases hread : c.answers.read = hdr.i2cOk
    · have hset : bq24296Set hdr (hdr.con c.setter.con) (hdr.field c.setter) c.val c.answers chip =
          (hdr.i2cOk, Function.update chip (hdr.con c.setter.con)
            ((hdr.field c.setter).put (chip (hdr.con c.setter.con)) (c.val.setWidth 8))) :=
        set_written _ _ _ hread hwrite
      have hspill := (hdr.field c.setter).put_sameOutside_iff (chip (hdr.con c.setter.con))
        (c.val.setWidth 8)
      constructor
      · intro hown _
        have hsame := (hown _ _ (charger_step_iff.mpr hset)).1.2
        rw [Function.update_self] at hsame
        exact ⟨hread, hspill.mp hsame⟩
      · intro hcontained chip' ret hstep
        rw [charger_step_iff, hset, Prod.mk.injEq] at hstep
        obtain ⟨rfl, rfl⟩ := hstep
        refine ⟨⟨fun r hr => Function.update_of_ne hr _ _, ?_⟩, fun hfailed => ?_,
          fun _ => ⟨hread, hwrite, ?_⟩⟩
        · rw [Function.update_self]
          exact hspill.mpr (hcontained hwrite).2
        · rcases hfailed with h | h
          · exact absurd hread h
          · exact absurd hwrite h
        · rw [Function.update_self, Field.get_put, setWidth_and_mask]
    · refine iff_of_false (fun hown => ?_) fun hcontained => hread (hcontained hwrite).1
      -- the failed read is not reported
      have hret := (hown _ _ (charger_step_iff.mpr rfl)).2.2
      exact hread (hret hwrite).1
  · refine iff_of_true (fun chip' ret hstep => ?_) fun h => absurd h hwrite
    rw [charger_step_iff, set_failed _ _ _ hwrite, Prod.mk.injEq] at hstep
    obtain ⟨rfl, rfl⟩ := hstep
    exact ⟨⟨fun _ _ => rfl, rfl⟩, fun _ => rfl, fun h => absurd h hwrite⟩

/-- In every sequence of calls, all of them touch their own field only and report
what they did exactly when every write that succeeds follows a read that succeeded
and puts no new bits outside its field. -/
theorem ownField_throughout_iff (hdr : Bq24296Header) (chip : Chip) (cs : List Call) :
    (charger hdr).AllSteps (OwnField hdr) chip cs ↔
      (charger hdr).AllSteps (Contained hdr) chip cs :=
  Machine.allSteps_congr (fun chip c _ => ownField_iff chip c) cs

/-- The upper six bits of every register, where the charge current lies. -/
def upperFields : Bq24296Header where
  i2cOk := 0
  con n := BitVec.ofNat 8 n
  field _ := { mask := 0x3f, shift := 2, fits := by decide }

/-- The read fails and leaves the register number in the buffer. -/
def readFails : Call where
  setter := .ichg
  val := 0x10
  answers := { read := 1, left := 2, write := 0 }

/-- A failed read is written back and reported as a success. -/
theorem failed_read_written :
    ¬ (charger upperFields).AllSteps (OwnField upperFields) (fun _ => 0x60) [readFails] := by
  intro h
  have hcontained : Contained upperFields (fun _ => 0x60) readFails := (ownField_iff _ _).mp h.1
  exact absurd (hcontained rfl).1 (by decide)

end Calls

end Charger
end AtomDrivers
