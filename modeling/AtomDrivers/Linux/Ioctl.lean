/-
Ioctl command words.

A command word carries a direction, the size of the argument, a type byte and a
number.  The drivers build their words with `_IO` and `_IOW` and take them apart
with `_IOC_DIR`, `_IOC_TYPE` and `_IOC_SIZE`.
-/
import Mathlib.Algebra.Group.Nat.Defs
import Mathlib.Algebra.GroupWithZero.Nat

namespace AtomDrivers
namespace Linux

def iocNone : Nat := 0
def iocWrite : Nat := 1
def iocRead : Nat := 2

def ioc (dir type nr size : Nat) : BitVec 32 :=
  BitVec.ofNat 32 (dir <<< 30 ||| size <<< 16 ||| type <<< 8 ||| nr)

/-- `_IO(type, nr)` -/
def io (type nr : Nat) : BitVec 32 := ioc iocNone type nr 0

/-- `_IOW(type, nr, size)` -/
def iow (type nr size : Nat) : BitVec 32 := ioc iocWrite type nr size

def iocDir (cmd : BitVec 32) : Nat := cmd.toNat >>> 30

def iocType (cmd : BitVec 32) : Nat := (cmd.toNat >>> 8) % 2 ^ 8

def iocSize (cmd : BitVec 32) : Nat := (cmd.toNat >>> 16) % 2 ^ 14

/-- `_IOC_WRITE & _IOC_DIR(cmd)`: the caller hands an argument in. -/
def iocWrites (cmd : BitVec 32) : Bool := iocDir cmd % 2 = 1

/-- `_IOC_READ & _IOC_DIR(cmd)`: the caller gets an argument back. -/
def iocReads (cmd : BitVec 32) : Bool := iocDir cmd / 2 = 1

end Linux
end AtomDrivers
