/-
The lcminfo character device.

The device owns 4096 bytes behind one semaphore.  `read` and `write` take the
semaphore, cut the request at the end of the bytes and copy.  A position is a
signed 64-bit `loff_t`, a request's size is cut to 32 bits, and every open file
has a position of its own.  One action of `lcminfo` is one completed call.
-/
import AtomDrivers.Machine.Run
import AtomDrivers.Linux.Ioctl
import AtomDrivers.Linux.Errno
import AtomDrivers.Storage.Cells
import Mathlib.Logic.Function.Basic

namespace AtomDrivers
namespace LcmInfo

open Linux Storage

abbrev Loff := BitVec 64

def lcminfoSize : Nat := 4096

def lcminfoIocMagic : Nat := 'Z'.toNat

def lcminfoIocTest : BitVec 32 := io lcminfoIocMagic 0

def lcminfoIocClean : BitVec 32 := io lcminfoIocMagic 1

structure LcminfoDev where
  data : List UInt8
  size : Nat
  sem : Nat
  lcminfoUOwner : Nat
  lcminfoUCount : BitVec 32
  deriving DecidableEq, Repr

/-- The device as a successful `lcminfo_init` leaves it. -/
def lcminfoInit : LcminfoDev :=
  { data := List.replicate lcminfoSize 0, size := lcminfoSize, sem := 1, lcminfoUOwner := 0,
    lcminfoUCount := 0 }

/-- What a call does to the stretch of `data` it names. -/
inductive Access
  | load (p count : Nat)
  | store (p : Nat) (bytes : List UInt8)
  | memset (c : UInt8) (count : Nat)
  deriving DecidableEq, Repr

structure Reply where
  ret : Int
  toUser : List UInt8 := []
  access : Option Access := none
  deriving DecidableEq, Repr

def lcminfoOpen (uid : Nat) (dev : LcminfoDev) : LcminfoDev :=
  let dev := if dev.lcminfoUCount = 0 then { dev with lcminfoUOwner := uid } else dev
  { dev with lcminfoUCount := dev.lcminfoUCount + 1 }

def lcminfoRelease (dev : LcminfoDev) : LcminfoDev :=
  { dev with lcminfoUCount := dev.lcminfoUCount - 1 }

/-- At count 0 the caller sleeps, and only a signal makes the call return. -/
def downInterruptible (signal : Bool) (dev : LcminfoDev) : Option (LcminfoDev × Int) :=
  if signal then some (dev, -EINTR)
  else if dev.sem = 0 then none
  else some ({ dev with sem := dev.sem - 1 }, 0)

def up (dev : LcminfoDev) : LcminfoDev := { dev with sem := dev.sem + 1 }

/-- `int ret = count` -/
def retCount (count : Nat) : Int := (BitVec.ofNat 32 count).toInt

/-- `unsigned int count = size`, and never more than what is left after `p`. -/
def countAt (p size : Nat) : Nat :=
  let count := size % 2 ^ 32
  if lcminfoSize - p < count then lcminfoSize - p else count

def lcminfoRead (size : Nat) (signal : Bool) (copy : UserCopy) (dev : LcminfoDev) (ppos : Loff) :
    Option (LcminfoDev × Loff × Reply) := do
  let (dev, err) ← downInterruptible signal dev
  if err ≠ 0 then return (dev, ppos, { ret := -ERESTARTSYS })
  let p := ppos.toNat
  if lcminfoSize < p then return (dev, ppos, { ret := 0 })
  let count := countAt p size
  let (toUser, left) := copyToUser copy (slice dev.data p count)
  if left ≠ 0 then
    return (up dev, ppos, { ret := -EFAULT, toUser, access := some (.load p count) })
  return (up dev, ppos + BitVec.ofNat 64 count,
    { ret := retCount count, toUser, access := some (.load p count) })

def lcminfoWrite (buf : List UInt8) (signal : Bool) (copy : UserCopy) (dev : LcminfoDev)
    (ppos : Loff) : Option (LcminfoDev × Loff × Reply) := do
  let (dev, err) ← downInterruptible signal dev
  if err ≠ 0 then return (dev, ppos, { ret := -ERESTARTSYS })
  let p := ppos.toNat
  if lcminfoSize ≤ p then return (dev, ppos, { ret := 0 })
  let count := countAt p buf.length
  let (stored, left) := copyFromUser copy (slice dev.data p count) (buf.take count)
  let dev := { dev with data := splice dev.data p stored }
  if left ≠ 0 then
    return (up dev, ppos, { ret := -EFAULT, access := some (.store p stored) })
  return (up dev, ppos + BitVec.ofNat 64 count,
    { ret := retCount count, access := some (.store p stored) })

def seekSet : Int := 0
def seekCur : Int := 1
def seekEnd : Int := 2

def lcminfoLlseek (offset : Loff) (whence : Int) (fPos : Loff) : Loff × Int :=
  let newpos : Option Loff :=
    if whence = seekSet then some offset
    else if whence = seekCur then some (fPos + offset)
    else if whence = seekEnd then some (BitVec.ofNat 64 (lcminfoSize - 1) + offset)
    else none
  match newpos with
  | none => (fPos, -EINVAL)
  | some newpos =>
    if newpos.toInt < 0 ∨ (lcminfoSize : Int) < newpos.toInt then (fPos, -EINVAL)
    else (newpos, newpos.toInt)

def lcminfoUnlockedIoctl (cmd : BitVec 32) (dev : LcminfoDev) : LcminfoDev × Reply :=
  if iocType cmd ≠ lcminfoIocMagic then (dev, { ret := -ENOTTY })
  else if cmd = lcminfoIocTest then (dev, { ret := 0 })
  else if cmd = lcminfoIocClean then
    ({ dev with data := splice dev.data 0 (List.replicate dev.size 0) },
      { ret := 0, access := some (.memset 0 dev.size) })
  else (dev, { ret := -EINVAL })

/-! ## What one read and one write do -/

theorem lcminfoRead_signal (size : Nat) (copy : UserCopy) (dev : LcminfoDev) (ppos : Loff) :
    lcminfoRead size true copy dev ppos = some (dev, ppos, { ret := -ERESTARTSYS }) := rfl

theorem lcminfoWrite_signal (buf : List UInt8) (copy : UserCopy) (dev : LcminfoDev)
    (ppos : Loff) :
    lcminfoWrite buf true copy dev ppos = some (dev, ppos, { ret := -ERESTARTSYS }) := rfl

section Taken

variable {dev : LcminfoDev} {ppos : Loff}

theorem down_free (h : dev.sem ≠ 0) :
    downInterruptible false dev = some ({ dev with sem := dev.sem - 1 }, 0) := by
  simp [downInterruptible, h]

theorem up_down (h : dev.sem ≠ 0) (data : List UInt8) :
    up { dev with data, sem := dev.sem - 1 } = { dev with data } := by
  have hsem : dev.sem - 1 + 1 = dev.sem := by omega
  simp only [up, hsem]

/-- Past the end the semaphore stays taken. -/
theorem lcminfoRead_past (h : dev.sem ≠ 0) (hp : lcminfoSize < ppos.toNat) (size : Nat)
    (copy : UserCopy) : lcminfoRead size false copy dev ppos =
      some ({ dev with sem := dev.sem - 1 }, ppos, { ret := 0 }) := by
  simp [lcminfoRead, down_free h, hp]

theorem lcminfoWrite_past (h : dev.sem ≠ 0) (hp : lcminfoSize ≤ ppos.toNat) (buf : List UInt8)
    (copy : UserCopy) : lcminfoWrite buf false copy dev ppos =
      some ({ dev with sem := dev.sem - 1 }, ppos, { ret := 0 }) := by
  simp [lcminfoWrite, down_free h, hp]

theorem lcminfoRead_inside (h : dev.sem ≠ 0) (hp : ppos.toNat ≤ lcminfoSize) (size : Nat)
    (copy : UserCopy) : lcminfoRead size false copy dev ppos =
      let p := ppos.toNat
      let count := countAt p size
      let (toUser, left) := copyToUser copy (slice dev.data p count)
      if left ≠ 0 then some (dev, ppos, { ret := -EFAULT, toUser, access := some (.load p count) })
      else some (dev, ppos + BitVec.ofNat 64 count,
        { ret := retCount count, toUser, access := some (.load p count) }) := by
  have hlt : ¬ lcminfoSize < ppos.toNat := by omega
  have hup := up_down h dev.data
  simp [lcminfoRead, down_free h, hlt, hup]

theorem lcminfoWrite_inside (h : dev.sem ≠ 0) (hp : ppos.toNat < lcminfoSize) (buf : List UInt8)
    (copy : UserCopy) : lcminfoWrite buf false copy dev ppos =
      let p := ppos.toNat
      let count := countAt p buf.length
      let (stored, left) := copyFromUser copy (slice dev.data p count) (buf.take count)
      let dev := { dev with data := splice dev.data p stored }
      if left ≠ 0 then some (dev, ppos, { ret := -EFAULT, access := some (.store p stored) })
      else some (dev, ppos + BitVec.ofNat 64 count,
        { ret := retCount count, access := some (.store p stored) }) := by
  have hle : ¬ lcminfoSize ≤ ppos.toNat := by omega
  have hup := up_down h
  simp [lcminfoWrite, down_free h, hle, hup]

end Taken

/-! ## Open files -/

/-- The device and the position of each open file. -/
structure Lcminfo where
  dev : LcminfoDev
  fPos : Nat → Option Loff

def initial : Lcminfo := { dev := lcminfoInit, fPos := fun _ => none }

/-- `pos` is the position a `pread` or `pwrite` brings along. -/
inductive Call
  | opened (file uid : Nat)
  | release (file : Nat)
  | read (file : Nat) (pos : Option Loff) (size : Nat) (signal : Bool) (copy : UserCopy)
  | write (file : Nat) (pos : Option Loff) (buf : List UInt8) (signal : Bool) (copy : UserCopy)
  | llseek (file : Nat) (offset : Loff) (whence : Int)
  | unlockedIoctl (file : Nat) (cmd : BitVec 32)

/-- A plain `read` or `write` starts at the file's position and moves it unless
it fails.  The VFS lets no negative position through. -/
def transfer (s : Lcminfo) (file : Nat) (pos : Option Loff)
    (op : LcminfoDev → Loff → Option (LcminfoDev × Loff × Reply)) : Option (Lcminfo × Reply) := do
  let fPos ← s.fPos file
  let start := pos.getD fPos
  if start.toInt < 0 then none
  else
    let (dev, ppos, reply) ← op s.dev start
    let fPos := if pos = none ∧ 0 ≤ reply.ret then ppos else fPos
    return ({ dev, fPos := Function.update s.fPos file (some fPos) }, reply)

def lcminfo : Machine Lcminfo Call Reply where
  step s
    | .opened file uid =>
      match s.fPos file with
      | some _ => none
      | none => some ({ dev := lcminfoOpen uid s.dev,
                        fPos := Function.update s.fPos file (some 0) }, { ret := 0 })
    | .release file => do
      let _ ← s.fPos file
      return ({ dev := lcminfoRelease s.dev, fPos := Function.update s.fPos file none },
        { ret := 0 })
    | .read file pos size signal copy => transfer s file pos (lcminfoRead size signal copy)
    | .write file pos buf signal copy => transfer s file pos (lcminfoWrite buf signal copy)
    | .llseek file offset whence => do
      let fPos ← s.fPos file
      let (newpos, ret) := lcminfoLlseek offset whence fPos
      return ({ s with fPos := Function.update s.fPos file (some newpos) }, { ret })
    | .unlockedIoctl file cmd => do
      let _ ← s.fPos file
      let (dev, reply) := lcminfoUnlockedIoctl cmd s.dev
      return ({ s with dev }, reply)

end LcmInfo
end AtomDrivers
