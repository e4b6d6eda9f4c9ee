/-
The requests of the LED driver of `atom_four`.

`_atom_ioctl_core` copies the argument to its stack, does not look at how much of it
has arrived, and returns 0 whatever happens.  The text command searches the memory
from its text on, and reads the number behind the place it is given, also where the
key was not found.  A read outside the mapped memory is a fault of the kernel.
-/
import AtomDrivers.Linux.CString
import AtomDrivers.Linux.Decimal
import AtomDrivers.Linux.Memory
import AtomDrivers.Led.Timer

namespace AtomDrivers
namespace Pwm

open Linux Led

inductive AtomPin
  | enLow
  | enHigh
  | pwm2Out
  deriving DecidableEq, Repr

/-- What `open_pwm` is given. -/
structure PwmSetting where
  den : BitVec 32
  mol : BitVec 32
  deriving DecidableEq, Repr

/-- What the text command prints of its argument. -/
inductive Printed
  | data (atomFlag : BitVec 32) (text : List UInt8)
  | arg (atomArg : BitVec 32)
  deriving DecidableEq, Repr

structure AtomPwm where
  pin : AtomPin
  pwm : Option PwmSetting
  printed : List Printed
  deriving DecidableEq, Repr

def openPwm (den mol : BitVec 32) (s : AtomPwm) : AtomPwm := { s with pwm := some { den, mol } }

def closePwm (s : AtomPwm) : AtomPwm := { s with pwm := none }

def atomSubLedPinPwm2OutPwm (s : AtomPwm) : AtomPwm := { s with pin := .pwm2Out }

def atomEnPinOutputLow (s : AtomPwm) : AtomPwm := { s with pin := .enLow }

def constantAtomIoctl (cmd : BitVec 32) (arg : BitVec 64) (s : AtomPwm) : AtomPwm :=
  if cmd = atomWriteInt then atomSubLedPinPwm2OutPwm s
  else if cmd = atomWriteOff then atomEnPinOutputLow (closePwm s)
  else if cmd = atomWriteOn then openPwm 100 (arg.setWidth 32) (atomSubLedPinPwm2OutPwm s)
  else s

/-- `sizeof(int)` -/
def atomArgSize : Nat := 4

/-- The variables of one call on the stack, with their old content and the mapped
memory behind them. -/
structure AtomStack where
  atomBuf1 : List UInt8
  atomArg : List UInt8
  beyond : List UInt8
  atomBuf1_length : atomBuf1.length = atomDataBufSize
  atomArg_length : atomArg.length = atomArgSize

/-- What a call finds. -/
structure AtomCall where
  user : BitVec 64 → UInt8
  copy : UserCopy
  stack : AtomStack

/-- "atom_Led=" -/
def ledKey : List UInt8 := [97, 116, 111, 109, 95, 76, 101, 100, 61]

/-- The value of an `int` in memory. -/
def intOf (bs : List UInt8) : BitVec 32 := BitVec.ofNat 32 (ofBytes bs)

/-- ATOM_WRITE_INT after the copy.  The result is `none` when the kernel faults. -/
def writeInt (atomBuf1 beyond : List UInt8) (s : AtomPwm) : Option Int × AtomPwm :=
  match cString (atomBuf1.drop atomArgSize ++ beyond) with
  | none => (none, s)
  | some text =>
    let s := { s with
      printed := s.printed ++ [.data (intOf (atomBuf1.take atomArgSize)) text] }
    match strstr ledKey text with
    | none => (none, s)
    | some off =>
      let atomArg := (simpleStrtol (text.drop (off + ledKey.length))).setWidth 32
      (some 0, { s with printed := s.printed ++ [.arg atomArg] })

namespace AtomCall

variable (call : AtomCall)

def userBytes (arg : BitVec 64) (n : Nat) : List UInt8 :=
  (List.range n).map fun k => call.user (arg + BitVec.ofNat 64 k)

/-- The destination after `copy_from_user`, whose result is dropped. -/
def copied (dst : List UInt8) (arg : BitVec 64) : List UInt8 :=
  (copyFromUser call.copy dst (call.userBytes arg dst.length)).1

end AtomCall

def atomIoctlCore (call : AtomCall) (cmd : BitVec 32) (arg : BitVec 64) (s : AtomPwm) :
    Option Int × AtomPwm :=
  if cmd = atomWriteInt then
    writeInt (call.copied call.stack.atomBuf1 arg) call.stack.beyond s
  else if cmd = atomWriteOff ∨ cmd = atomWriteOn then
    let atomArg := intOf (call.copied call.stack.atomArg arg)
    (some 0, constantAtomIoctl cmd (atomArg.signExtend 64) s)
  else (some 0, s)

/-! ## Decoding -/

/-- The text in an array and the number behind the first occurrence of the key. -/
structure Decodes (buf text : List UInt8) (n : BitVec 32) : Prop where
  string : cString buf = some text
  number : ∃ off, ledKey <+: text.drop off ∧ (∀ j < off, ¬ ledKey <+: text.drop j) ∧
    n = (simpleStrtol (text.drop (off + ledKey.length))).setWidth 32

section Request

variable (call : AtomCall) (cmd : BitVec 32) (arg : BitVec 64) (s : AtomPwm)

/-- What the command does with its whole argument. -/
def Performed (r : Option Int × AtomPwm) : Prop :=
  (cmd = atomWriteInt ∧ atomDataBufSize ≤ call.copy.copied ∧
    ∃ text n, Decodes ((call.userBytes arg atomDataBufSize).drop atomArgSize) text n ∧
      r = (some 0, { s with
        printed := s.printed ++ [.data (intOf (call.userBytes arg atomArgSize)) text, .arg n] })) ∨
  (cmd = atomWriteOff ∧ atomArgSize ≤ call.copy.copied ∧
    r = (some 0, { s with pin := .enLow, pwm := none })) ∨
  (cmd = atomWriteOn ∧ atomArgSize ≤ call.copy.copied ∧
    r = (some 0, { s with
      pin := .pwm2Out
      pwm := some { den := 100, mol := intOf (call.userBytes arg atomArgSize) } }))

/-- An error that leaves the pin and the PWM alone. -/
def Rejected (r : Option Int × AtomPwm) : Prop :=
  ∃ ret : Int, ret < 0 ∧ r.1 = some ret ∧ r.2.pin = s.pin ∧ r.2.pwm = s.pwm

def DecodesOrRejects : Prop :=
  Performed call cmd arg s (atomIoctlCore call cmd arg s) ∨
    Rejected s (atomIoctlCore call cmd arg s)

/-- The argument of a command arrives whole, and a text ends inside its array and has
the key in it. -/
def WellFormed : Prop :=
  (cmd = atomWriteInt ∧ atomDataBufSize ≤ call.copy.copied ∧
    ∃ text, cString ((call.userBytes arg atomDataBufSize).drop atomArgSize) = some text ∧
      ∃ off, ledKey <+: text.drop off) ∨
  ((cmd = atomWriteOff ∨ cmd = atomWriteOn) ∧ atomArgSize ≤ call.copy.copied)

end Request

section Steps

variable {call : AtomCall} {arg : BitVec 64} (s : AtomPwm)

theorem userBytes_length (n : Nat) : (call.userBytes arg n).length = n := by
  simp [AtomCall.userBytes]

theorem userBytes_take {n k : Nat} (h : k ≤ n) :
    (call.userBytes arg n).take k = call.userBytes arg k := by
  rw [AtomCall.userBytes, ← List.map_take, List.take_range, Nat.min_eq_left h]
  rfl

theorem copied_whole {dst : List UInt8} {n : Nat} (hlen : dst.length = n)
    (h : n ≤ call.copy.copied) : call.copied dst arg = call.userBytes arg n := by
  rw [AtomCall.copied, hlen]
  refine congrArg Prod.fst (copyFromUser_done ?_ ?_)
  · rw [userBytes_length, hlen]
  · rwa [userBytes_length]

/-- An `int` survives the way through `unsigned long`. -/
theorem setWidth_signExtend (v : BitVec 32) : (v.signExtend 64).setWidth 32 = v := by
  refine BitVec.eq_of_getLsbD_eq fun i hi => ?_
  have hi' : i < 64 := by omega
  rw [BitVec.getLsbD_setWidth, BitVec.getLsbD_signExtend]
  simp [hi, hi']

theorem writeInt_decodes {atomBuf1 text : List UInt8}
    (hstring : cString (atomBuf1.drop atomArgSize) = some text)
    (hkey : ∃ off, ledKey <+: text.drop off) (beyond : List UInt8) :
    ∃ n, Decodes (atomBuf1.drop atomArgSize) text n ∧
      writeInt atomBuf1 beyond s = (some 0, { s with
        printed := s.printed ++ [.data (intOf (atomBuf1.take atomArgSize)) text, .arg n] }) := by
  obtain ⟨off, hoff⟩ : ∃ off, strstr ledKey text = some off := by
    cases hs : strstr ledKey text with
    | none =>
      obtain ⟨i, hi⟩ := hkey
      exact absurd hi (strstr_eq_none_iff.mp hs i)
    | some off => exact ⟨off, rfl⟩
  obtain ⟨hfound, hfirst⟩ := strstr_eq_some_iff.mp hoff
  refine ⟨_, ⟨hstring, off, hfound, hfirst, rfl⟩, ?_⟩
  simp [writeInt, cString_append hstring, hoff]

theorem writeInt_ret (atomBuf1 beyond : List UInt8) :
    (writeInt atomBuf1 beyond s).1 = none ∨ (writeInt atomBuf1 beyond s).1 = some 0 := by
  unfold writeInt
  split
  · exact .inl rfl
  · simp only
    split
    · exact .inl rfl
    · exact .inr rfl

/-- No request is answered with an error. -/
theorem atomIoctlCore_ret (call : AtomCall) (cmd : BitVec 32) (arg : BitVec 64) :
    (atomIoctlCore call cmd arg s).1 = none ∨ (atomIoctlCore call cmd arg s).1 = some 0 := by
  unfold atomIoctlCore
  split
  · exact writeInt_ret s _ _
  · split
    · exact .inr rfl
    · exact .inr rfl

theorem performed_writeInt {call : AtomCall} {arg : BitVec 64}
    (hwhole : atomDataBufSize ≤ call.copy.copied) {text : List UInt8}
    (hstring : cString ((call.userBytes arg atomDataBufSize).drop atomArgSize) = some text)
    (hkey : ∃ off, ledKey <+: text.drop off) :
    Performed call atomWriteInt arg s (atomIoctlCore call atomWriteInt arg s) := by
  obtain ⟨n, hdecodes, hrun⟩ := writeInt_decodes s hstring hkey call.stack.beyond
  refine .inl ⟨rfl, hwhole, text, n, hdecodes, ?_⟩
  rw [userBytes_take (by decide)] at hrun
  rw [atomIoctlCore, if_pos rfl, copied_whole call.stack.atomBuf1_length hwhole]
  exact hrun

theorem performed_writeOff {call : AtomCall} (arg : BitVec 64)
    (hwhole : atomArgSize ≤ call.copy.copied) :
    Performed call atomWriteOff arg s (atomIoctlCore call atomWriteOff arg s) :=
  .inr (.inl ⟨rfl, hwhole, rfl⟩)

theorem performed_writeOn {call : AtomCall} (arg : BitVec 64)
    (hwhole : atomArgSize ≤ call.copy.copied) :
    Performed call atomWriteOn arg s (atomIoctlCore call atomWriteOn arg s) := by
  refine .inr (.inr ⟨rfl, hwhole, ?_⟩)
  rw [← setWidth_signExtend (intOf (call.userBytes arg atomArgSize)),
    ← copied_whole call.stack.atomArg_length hwhole]
  rfl

end Steps

/-- A request is decoded or rejected exactly when it is well formed. -/
theorem decodesOrRejects_iff (call : AtomCall) (cmd : BitVec 32) (arg : BitVec 64)
    (s : AtomPwm) : DecodesOrRejects call cmd arg s ↔ WellFormed call cmd arg := by
  constructor
  · rintro (hperformed | ⟨ret, hneg, hret, -⟩)
    · obtain ⟨hcmd, hwhole, text, n, hdecodes, -⟩ | ⟨hcmd, hwhole, -⟩ | ⟨hcmd, hwhole, -⟩ :=
        hperformed
      · obtain ⟨off, hfound, -⟩ := hdecodes.number
        exact .inl ⟨hcmd, hwhole, text, hdecodes.string, off, hfound⟩
      · exact .inr ⟨.inl hcmd, hwhole⟩
      · exact .inr ⟨.inr hcmd, hwhole⟩
    · -- no error is ever returned
      rcases atomIoctlCore_ret s call cmd arg with hfault | hzero
      · rw [hfault] at hret
        cases hret
      · rw [hzero] at hret
        cases hret
        exact absurd hneg (by decide)
  · rintro (⟨rfl, hwhole, text, hstring, hkey⟩ | ⟨rfl | rfl, hwhole⟩)
    · exact .inl (performed_writeInt s hwhole hstring hkey)
    · exact .inl (performed_writeOff s arg hwhole)
    · exact .inl (performed_writeOn s arg hwhole)

/-- A call whose argument cannot be read, with 37 in the old `atom_arg`. -/
def unreadableCall : AtomCall where
  user _ := 0
  copy := { copied := 0 }
  stack :=
    { atomBuf1 := List.replicate atomDataBufSize 0
      atomArg := [37, 0, 0, 0]
      beyond := []
      atomBuf1_length := List.length_replicate
      atomArg_length := rfl }

/-- The LED is switched on with what lay on the stack. -/
theorem stale_level :
    ¬ DecodesOrRejects unreadableCall atomWriteOn 0
      { pin := .enLow, pwm := none, printed := [] } := by
  have hrun : atomIoctlCore unreadableCall atomWriteOn 0
      { pin := .enLow, pwm := none, printed := [] } =
        (some 0, { pin := .pwm2Out, pwm := some { den := 100, mol := 37 }, printed := [] }) := by
    decide
  rintro (hperformed | ⟨ret, hneg, hret, -⟩)
  · obtain ⟨hcmd, -⟩ | ⟨hcmd, -⟩ | ⟨-, hwhole, -⟩ := hperformed
    · exact absurd hcmd (by decide)
    · exact absurd hcmd (by decide)
    · exact absurd hwhole (by decide)
  · rw [hrun] at hret
    cases hret
    exact absurd hneg (by decide)

end Pwm
end AtomDrivers
