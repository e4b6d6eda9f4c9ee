/-
Error numbers and the copies between user and kernel memory.

A user copy that faults has moved a prefix of the bytes and returns how many are
missing.  `copy_from_user` may then have cleared the rest of its destination.
-/
import Mathlib.Data.List.Basic

namespace AtomDrivers
namespace Linux

def EPERM : Int := 1
def EINTR : Int := 4
def EIO : Int := 5
def EAGAIN : Int := 11
def ENOMEM : Int := 12
def EFAULT : Int := 14
def EBUSY : Int := 16
def EINVAL : Int := 22
def ENOTTY : Int := 25
def ERESTARTSYS : Int := 512
def ENOIOCTLCMD : Int := 515

/-- How far one user copy gets, and whether a copy into the kernel that faults
clears what it did not fill. -/
structure UserCopy where
  copied : Nat
  zeroed : Bool := false
  deriving DecidableEq, Repr

/-- The bytes that reach the user, and the number that do not. -/
def copyToUser (copy : UserCopy) (src : List UInt8) : List UInt8 × Nat :=
  (src.take copy.copied, src.length - copy.copied)

/-- What the destination holds afterwards, and the number of bytes not copied. -/
def copyFromUser (copy : UserCopy) (dst src : List UInt8) : List UInt8 × Nat :=
  let stored := src.take copy.copied
  let rest := dst.drop stored.length
  (stored ++ (if copy.zeroed then rest.map fun _ => 0 else rest), src.length - copy.copied)

theorem copyToUser_done {copy : UserCopy} {src : List UInt8} (h : src.length ≤ copy.copied) :
    copyToUser copy src = (src, 0) := by
  rw [copyToUser, List.take_of_length_le h, Nat.sub_eq_zero_of_le h]

theorem copyFromUser_done {copy : UserCopy} {dst src : List UInt8}
    (hlen : dst.length ≤ src.length) (h : src.length ≤ copy.copied) :
    copyFromUser copy dst src = (src, 0) := by
  simp [copyFromUser, List.take_of_length_le h, List.drop_of_length_le hlen,
    Nat.sub_eq_zero_of_le h]

theorem length_copyFromUser (copy : UserCopy) {dst src : List UInt8}
    (hlen : dst.length = src.length) : (copyFromUser copy dst src).1.length = src.length := by
  simp only [copyFromUser]
  split <;> simp only [List.length_append, List.length_map, List.length_drop, List.length_take] <;>
    omega

/-- The prefix that got through, and the destination or zeros behind it. -/
theorem getElem?_copyFromUser (copy : UserCopy) {dst src : List UInt8}
    (hlen : dst.length = src.length) {k : Nat} (hk : k < src.length) :
    (copyFromUser copy dst src).1[k]? =
      some (if k < copy.copied then src[k] else if copy.zeroed then 0 else dst[k]) := by
  have htake : (src.take copy.copied).length = min copy.copied src.length := List.length_take
  by_cases hcopied : k < copy.copied
  · rw [if_pos hcopied, copyFromUser, List.getElem?_append_left (by omega),
      List.getElem?_take_of_lt hcopied, List.getElem?_eq_getElem hk]
  · have hrest : (src.take copy.copied).length = copy.copied := by omega
    have hback : copy.copied + (k - copy.copied) = k := by omega
    rw [if_neg hcopied, copyFromUser, List.getElem?_append_right (by omega), hrest]
    split
    · rw [List.getElem?_map, List.getElem?_drop, hback, List.getElem?_eq_getElem (by omega)]
      rfl
    · rw [List.getElem?_drop, hback, List.getElem?_eq_getElem (by omega)]

end Linux
end AtomDrivers
