/-
What the device is for: 4096 bytes of random access.

`ByteFile` is the purpose of the driver in its own terms, an array of bytes with
a position for each open file that cannot leave it.  Leaving the semaphore
aside, the driver with succeeding user copies and this file move in lockstep.
What the driver reads is then what was written last.
-/
import AtomDrivers.LcmInfo.Device
import AtomDrivers.Machine.Refine

namespace AtomDrivers
namespace LcmInfo

open Linux Storage

/-- The calls of the file interface. -/
inductive FileOp
  | opened (file uid : Nat)
  | release (file : Nat)
  | read (file : Nat) (pos : Option Loff) (size : Nat)
  | write (file : Nat) (pos : Option Loff) (buf : List UInt8)
  | llseek (file : Nat) (offset : Loff) (whence : Int)
  | clean (file : Nat)

/-- The size of a transfer is at most `INT_MAX`. -/
def FileOp.Clamped : FileOp → Prop
  | .read _ _ size => size ≤ 2 ^ 31 - 1
  | .write _ _ buf => buf.length ≤ 2 ^ 31 - 1
  | _ => True

/-- The call of the driver, with user copies that succeed. -/
def FileOp.call : FileOp → Call
  | .opened file uid => .opened file uid
  | .release file => .release file
  | .read file pos size => .read file pos size false { copied := size }
  | .write file pos buf => .write file pos buf false { copied := buf.length }
  | .llseek file offset whence => .llseek file offset whence
  | .clean file => .unlockedIoctl file lcminfoIocClean

/-- The driver without its semaphore: every call finds it free. -/
def unguarded : Machine Lcminfo FileOp Reply where
  step s op := lcminfo.step { s with dev := { s.dev with sem := 1 } } op.call

/-! ## The file -/

abbrev Position := Fin (lcminfoSize + 1)

def Position.toLoff (p : Position) : Loff := BitVec.ofNat 64 p

def Position.advance (p : Position) (n : Nat) : Position :=
  ⟨min (p + n) lcminfoSize, by omega⟩

structure ByteFile where
  bytes : Cells UInt8 lcminfoSize
  pos : Nat → Option Position

namespace ByteFile

def zeroed : ByteFile := { bytes := Cells.fill 0, pos := fun _ => none }

structure Answer where
  ret : Int
  bytes : List UInt8 := []

/-- A transfer moves the file's own position and no other. -/
def transfer (f : ByteFile) (file : Nat) (pos : Option Loff)
    (op : Cells UInt8 lcminfoSize → Nat → Cells UInt8 lcminfoSize × List UInt8 × Nat) :
    Option (ByteFile × Answer) :=
  match f.pos file, pos with
  | none, _ => none
  | some p, none =>
    let (bytes, out, n) := op f.bytes p
    some ({ bytes, pos := Function.update f.pos file (some (p.advance n)) },
      { ret := n, bytes := out })
  | some _, some q =>
    if q.toInt < 0 then none
    else
      let (bytes, out, n) := op f.bytes q.toNat
      some ({ f with bytes }, { ret := n, bytes := out })

/-- Where an offset is counted from. -/
def seekBase (p : Position) (whence : Int) : Option Nat :=
  if whence = seekSet then some 0
  else if whence = seekCur then some p
  else if whence = seekEnd then some (lcminfoSize - 1)
  else none

def seekFrom (offset : Int) (base : Nat) : Option Position :=
  if h : 0 ≤ base + offset ∧ base + offset ≤ lcminfoSize then
    some ⟨(base + offset).toNat, by omega⟩
  else none

def seek (p : Position) (offset whence : Int) : Option Position :=
  (seekBase p whence).bind (seekFrom offset)

end ByteFile

open ByteFile

def byteFile : Machine ByteFile FileOp Answer where
  step f
    | .opened file _ =>
      match f.pos file with
      | some _ => none
      | none => some ({ f with pos := Function.update f.pos file (some 0) }, { ret := 0 })
    | .release file =>
      match f.pos file with
      | none => none
      | some _ => some ({ f with pos := Function.update f.pos file none }, { ret := 0 })
    | .read file pos size =>
      f.transfer file pos fun bytes p =>
        (bytes, bytes.read p size, min size (lcminfoSize - p))
    | .write file pos buf =>
      f.transfer file pos fun bytes p =>
        (bytes.write p buf, [], min buf.length (lcminfoSize - p))
    | .llseek file offset whence =>
      match f.pos file with
      | none => none
      | some p =>
        match seek p offset.toInt whence with
        | none => some (f, { ret := -EINVAL })
        | some q => some ({ f with pos := Function.update f.pos file (some q) }, { ret := q })
    | .clean file =>
      match f.pos file with
      | none => none
      | some _ => some ({ f with bytes := Cells.fill 0 }, { ret := 0 })

/-! ## The driver refines the file -/

structure Refines (s : Lcminfo) (f : ByteFile) : Prop where
  data : s.dev.data = f.bytes.flat
  size : s.dev.size = lcminfoSize
  fPos : s.fPos = fun file => (f.pos file).map Position.toLoff

/-- What a caller sees of a reply. -/
def Reply.answer (reply : Reply) : Answer := { ret := reply.ret, bytes := reply.toUser }

theorem toInt_ofNat_small {n : Nat} (h : n ≤ lcminfoSize) : (BitVec.ofNat 64 n).toInt = n := by
  have hsize : lcminfoSize = 4096 := rfl
  rw [BitVec.toInt_eq_toNat_of_lt] <;> rw [BitVec.toNat_ofNat] <;> omega

@[simp] theorem Position.toLoff_toNat (p : Position) : p.toLoff.toNat = p := by
  have hp := p.isLt
  have hsize : lcminfoSize = 4096 := rfl
  rw [Position.toLoff, BitVec.toNat_ofNat]
  omega

@[simp] theorem Position.toLoff_toInt (p : Position) : p.toLoff.toInt = p :=
  toInt_ofNat_small (by omega)

theorem Position.toLoff_advance {p : Position} {n : Nat} (h : p + n ≤ lcminfoSize) :
    (p.advance n).toLoff = p.toLoff + BitVec.ofNat 64 n := by
  rw [Position.toLoff, Position.advance, Position.toLoff, ← BitVec.ofNat_add]
  congr 1
  exact Nat.min_eq_left h

theorem retCount_eq {count : Nat} (h : count ≤ lcminfoSize) : retCount count = count := by
  have hsize : lcminfoSize = 4096 := rfl
  rw [retCount, BitVec.toInt_eq_toNat_of_lt] <;> rw [BitVec.toNat_ofNat] <;> omega

theorem countAt_min (p size : Nat) : countAt p size = min (size % 2 ^ 32) (lcminfoSize - p) := by
  simp only [countAt]
  split <;> omega

theorem countAt_le (p size : Nat) : countAt p size ≤ size ∧ countAt p size ≤ lcminfoSize - p := by
  rw [countAt_min]
  omega

theorem countAt_eq {p size : Nat} (h : size ≤ 2 ^ 31 - 1) :
    countAt p size = min size (lcminfoSize - p) := by
  have hmod : size % 2 ^ 32 = size := Nat.mod_eq_of_lt (by omega)
  rw [countAt_min, hmod]

/-- The 64-bit sum passes the range check exactly when the exact sum does. -/
theorem seek_check {base : Nat} (hb : base ≤ lcminfoSize) (offset : Loff) :
    ((BitVec.ofNat 64 base + offset).toInt < 0 ∨
        (lcminfoSize : Int) < (BitVec.ofNat 64 base + offset).toInt) ↔
      ¬ (0 ≤ base + offset.toInt ∧ base + offset.toInt ≤ lcminfoSize) := by
  have hlo := BitVec.le_toInt offset
  have hhi := BitVec.toInt_lt (x := offset)
  rw [BitVec.toInt_add, toInt_ofNat_small hb, Int.bmod]
  norm_num [lcminfoSize] at *
  omega

theorem seek_sum {base : Nat} (hb : base ≤ lcminfoSize) {offset : Loff}
    (h0 : 0 ≤ base + offset.toInt) (h1 : base + offset.toInt ≤ lcminfoSize) :
    BitVec.ofNat 64 base + offset = BitVec.ofNat 64 (base + offset.toInt).toNat := by
  apply BitVec.eq_of_toInt_eq
  rw [BitVec.toInt_add, toInt_ofNat_small hb, toInt_ofNat_small (by omega), Int.bmod]
  norm_num [lcminfoSize] at *
  omega

/-- What `lcminfo_llseek` returns for a target, if the target is in range. -/
def landed (fPos : Loff) : Option Position → Loff × Int
  | none => (fPos, -EINVAL)
  | some q => (q.toLoff, (q : Nat))

theorem landed_seekFrom {base : Nat} (hb : base ≤ lcminfoSize) (fPos offset : Loff) :
    (let newpos := BitVec.ofNat 64 base + offset
      if newpos.toInt < 0 ∨ (lcminfoSize : Int) < newpos.toInt then (fPos, -EINVAL)
      else (newpos, newpos.toInt)) = landed fPos (seekFrom offset.toInt base) := by
  by_cases h : 0 ≤ base + offset.toInt ∧ base + offset.toInt ≤ lcminfoSize
  · have hin := not_not_intro h
    rw [← seek_check hb] at hin
    simp only [if_neg hin, seekFrom, dif_pos h, landed, Position.toLoff]
    rw [seek_sum hb h.1 h.2, toInt_ofNat_small (by omega)]
  · simp only [if_pos ((seek_check hb offset).mpr h), seekFrom, dif_neg h, landed]

theorem lcminfoLlseek_eq (p : Position) (offset : Loff) (whence : Int) :
    lcminfoLlseek offset whence p.toLoff =
      landed p.toLoff (ByteFile.seek p offset.toInt whence) := by
  by_cases hset : whence = seekSet
  · simpa [lcminfoLlseek, ByteFile.seek, seekBase, hset] using
      landed_seekFrom (Nat.zero_le _) p.toLoff offset
  · by_cases hcur : whence = seekCur
    · have hbase : (p : Nat) ≤ lcminfoSize := by omega
      simp only [lcminfoLlseek, ByteFile.seek, seekBase, if_neg hset, if_pos hcur,
        Option.bind_some]
      exact landed_seekFrom hbase p.toLoff offset
    · by_cases hend : whence = seekEnd
      · simp only [lcminfoLlseek, ByteFile.seek, seekBase, if_neg hset, if_neg hcur, if_pos hend,
          Option.bind_some]
        exact landed_seekFrom (Nat.sub_le _ _) p.toLoff offset
      · simp only [lcminfoLlseek, ByteFile.seek, seekBase, if_neg hset, if_neg hcur, if_neg hend,
          Option.bind_none]
        rfl

/-! ## What one call does to the bytes -/

/-- The changes a reply reports. -/
def Reply.changes (reply : Reply) : List (Cells.Change UInt8) :=
  match reply.access with
  | none => []
  | some (.load _ _) => []
  | some (.store p bytes) => [.store p bytes]
  | some (.memset c _) => [.fill c]

def Access.Inside : Access → Prop
  | .load p count => p + count ≤ lcminfoSize
  | .store p bytes => p + bytes.length ≤ lcminfoSize
  | .memset _ count => count = lcminfoSize

/-- The bytes of `reply` and its changes are those of a call that finds
`bytes` and leaves `bytes'`. -/
structure Explains (bytes bytes' : Cells UInt8 lcminfoSize) (reply : Reply) : Prop where
  changes : bytes' = bytes.applyAll reply.changes
  inside : ∀ access, reply.access = some access → access.Inside
  toUser : reply.toUser =
    match reply.access with
    | some (.load p count) => bytes.read p count
    | _ => []

theorem Explains.quiet (bytes : Cells UInt8 lcminfoSize) (ret : Int) :
    Explains bytes bytes { ret } :=
  ⟨rfl, fun _ h => by simp at h, rfl⟩

/-- `op` carries out `spec` and reports `n` bytes moved. -/
def CarriesOut (op : LcminfoDev → Loff → Option (LcminfoDev × Loff × Reply))
    (spec : Cells UInt8 lcminfoSize → Nat → Cells UInt8 lcminfoSize × List UInt8 × Nat) : Prop :=
  ∀ (dev : LcminfoDev) (ppos : Loff) (bytes : Cells UInt8 lcminfoSize),
    dev.data = bytes.flat → dev.size = lcminfoSize → dev.sem ≠ 0 →
    ∃ dev' reply,
      op dev ppos = some (dev', ppos + BitVec.ofNat 64 (spec bytes ppos.toNat).2.2, reply) ∧
      dev'.data = (spec bytes ppos.toNat).1.flat ∧ dev'.size = lcminfoSize ∧
      reply.answer = { ret := (spec bytes ppos.toNat).2.2, bytes := (spec bytes ppos.toNat).2.1 } ∧
      Explains bytes (spec bytes ppos.toNat).1 reply ∧
      (spec bytes ppos.toNat).2.2 ≤ lcminfoSize - ppos.toNat

/-- A read that does not fault returns what is left from its position on. -/
theorem lcminfoRead_whole {dev : LcminfoDev} {ppos : Loff} (hsem : dev.sem ≠ 0)
    (hp : ppos.toNat ≤ lcminfoSize) (size : Nat) :
    lcminfoRead size false { copied := size } dev ppos =
      let count := countAt ppos.toNat size
      some (dev, ppos + BitVec.ofNat 64 count,
        { ret := count, toUser := slice dev.data ppos.toNat count,
          access := some (.load ppos.toNat count) }) := by
  have hcount := countAt_le ppos.toNat size
  have hret := retCount_eq (hcount.2.trans (Nat.sub_le _ _))
  have hcopy : copyToUser { copied := size } (slice dev.data ppos.toNat (countAt ppos.toNat size)) =
      (slice dev.data ppos.toNat (countAt ppos.toNat size), 0) :=
    copyToUser_done ((List.length_take_le _ _).trans hcount.1)
  rw [lcminfoRead_inside hsem hp]
  simp only [hcopy, hret, ne_eq, not_true_eq_false, if_false]

theorem read_carriesOut {size : Nat} (hsize : size ≤ 2 ^ 31 - 1) :
    CarriesOut (lcminfoRead size false { copied := size }) fun bytes p =>
      (bytes, bytes.read p size, min size (lcminfoSize - p)) := by
  intro dev ppos bytes hdata hdev hsem
  by_cases hp : lcminfoSize < ppos.toNat
  · have hzero : min size (lcminfoSize - ppos.toNat) = 0 := by omega
    have hnil : bytes.read ppos.toNat size = [] := bytes.read_of_le (by omega) size
    refine ⟨{ dev with sem := dev.sem - 1 }, { ret := 0 }, ?_, hdata, hdev, ?_,
      Explains.quiet bytes 0, Nat.min_le_right _ _⟩
    · simp [hzero, lcminfoRead_past hsem hp]
    · simp [Reply.answer, hzero, hnil]
  · have hcount := countAt_eq (p := ppos.toNat) hsize
    have hslice : slice dev.data ppos.toNat (countAt ppos.toNat size) =
        bytes.read ppos.toNat size := by
      rw [hdata, hcount, Cells.flat_read bytes (by omega), Cells.read_min]
    have hrun := lcminfoRead_whole hsem (Nat.le_of_not_lt hp) size
    simp only [hslice] at hrun
    rw [hcount] at hrun
    refine ⟨dev, _, hrun, hdata, hdev, rfl, ⟨rfl, fun access h => ?_, ?_⟩, Nat.min_le_right _ _⟩
    · simp only [Option.some.injEq] at h
      rw [← h, Access.Inside]
      omega
    · exact (Cells.read_min bytes _ _).symm

theorem write_carriesOut {buf : List UInt8} (hsize : buf.length ≤ 2 ^ 31 - 1) :
    CarriesOut (lcminfoWrite buf false { copied := buf.length }) fun bytes p =>
      (bytes.write p buf, [], min buf.length (lcminfoSize - p)) := by
  intro dev ppos bytes hdata hdev hsem
  by_cases hp : lcminfoSize ≤ ppos.toNat
  · have hzero : min buf.length (lcminfoSize - ppos.toNat) = 0 := by omega
    have hsame : bytes.write ppos.toNat buf = bytes := bytes.write_of_le hp buf
    refine ⟨{ dev with sem := dev.sem - 1 }, { ret := 0 }, ?_, ?_, hdev, ?_, ?_,
      Nat.min_le_right _ _⟩
    · simp [hzero, lcminfoWrite_past hsem hp]
    · simpa only [hsame] using hdata
    · simp [Reply.answer, hzero]
    · simpa only [hsame] using Explains.quiet bytes 0
  · have hcount := countAt_eq (p := ppos.toNat) hsize
    have hlen : (buf.take (countAt ppos.toNat buf.length)).length =
        countAt ppos.toNat buf.length := by
      rw [List.length_take, hcount]
      omega
    have hcopy : copyFromUser { copied := buf.length }
        (slice dev.data ppos.toNat (countAt ppos.toNat buf.length))
        (buf.take (countAt ppos.toNat buf.length)) =
        (buf.take (countAt ppos.toNat buf.length), 0) := by
      refine copyFromUser_done ?_ ?_
      · rw [hlen, length_slice]
        rw [hdata, Cells.length_flat, hcount]
        omega
      · rw [hlen, hcount]
        exact Nat.min_le_left _ _
    have hrun := lcminfoWrite_inside hsem (Nat.lt_of_not_le hp) buf { copied := buf.length }
    simp only [hcopy, ne_eq, not_true_eq_false, if_false] at hrun
    rw [hcount, retCount_eq (by omega)] at hrun
    rw [hcount] at hlen
    have hwrite : bytes.write ppos.toNat (buf.take (min buf.length (lcminfoSize - ppos.toNat))) =
        bytes.write ppos.toNat buf := Cells.write_take bytes _ _
    refine ⟨_, _, hrun, ?_, hdev, rfl, ⟨?_, fun access h => ?_, rfl⟩, Nat.min_le_right _ _⟩
    · rw [hdata, Cells.flat_write bytes (by rw [hlen]; omega), hwrite]
    · exact hwrite.symm
    · simp only [Option.some.injEq] at h
      rw [← h, Access.Inside, hlen]
      omega

end LcmInfo
end AtomDrivers
