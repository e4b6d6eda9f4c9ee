/-
Heap buffers, stack variables and user copies of one kernel call.

`kmalloc` leaves a buffer with whatever its memory held before, and a stack
variable starts in the same way.  This old content is the hidden input.  What the
allocations and copies answer is given by the environment, one entry for each in
turn, and so is the memory behind the end of a buffer, where an access outside
lands.
-/
import AtomDrivers.Linux.Errno
import AtomDrivers.Machine.Routine
import Mathlib.Algebra.Group.Nat.Defs
import Mathlib.Algebra.GroupWithZero.Nat

namespace AtomDrivers
namespace Linux

/-- Memory from an address on. -/
abbrev Bytes := Nat → UInt8

namespace Bytes

def read (b : Bytes) (off n : Nat) : List UInt8 := (List.range n).map fun k => b (off + k)

def write (b : Bytes) (off : Nat) (bs : List UInt8) : Bytes :=
  fun i => if off ≤ i then bs.getD (i - off) (b i) else b i

/-- The bytes that code outside has stored. -/
def patch (b : Bytes) (stored : Nat → Option UInt8) : Bytes := fun i => (stored i).getD (b i)

theorem read_write (b : Bytes) (off : Nat) (bs : List UInt8) :
    (b.write off bs).read off bs.length = bs := by
  apply List.ext_getElem
  · simp [read]
  · intro i hi hi'
    simp [read, write, List.getD, hi']

/-- A read beside a write. -/
theorem read_write_of_disjoint (b : Bytes) {off off' n : Nat} {bs : List UInt8}
    (h : off' + n ≤ off ∨ off + bs.length ≤ off') :
    (b.write off bs).read off' n = b.read off' n := by
  refine List.map_congr_left fun k hk => ?_
  have hlt : k < n := List.mem_range.mp hk
  by_cases hoff : off ≤ off' + k
  · have hge : bs.length ≤ off' + k - off := by omega
    simp [write, hoff, List.getD, hge]
  · simp [write, hoff]

def fill (b : Bytes) (value : UInt8) (n : Nat) : Bytes := fun i => if i < n then value else b i

/-- `memcpy` of `n` bytes. -/
def copy (dst src : Bytes) (n : Nat) : Bytes := fun i => if i < n then src i else dst i

def zero : Bytes := fun _ => 0

end Bytes

/-- The number in little-endian bytes. -/
def ofBytes (bs : List UInt8) : Nat := bs.foldr (fun b n => b.toNat + 256 * n) 0

def toBytes (count n : Nat) : List UInt8 :=
  (List.range count).map fun k => UInt8.ofNat (n / 256 ^ k)

theorem toBytes_succ (count n : Nat) :
    toBytes (count + 1) n = UInt8.ofNat n :: toBytes count (n / 256) := by
  simp only [toBytes, List.range_succ_eq_map, List.map_cons, List.map_map, Nat.pow_zero,
    Nat.div_one]
  refine congrArg _ (List.map_congr_left fun k _ => ?_)
  rw [Function.comp_apply, Nat.succ_eq_add_one, Nat.pow_succ, Nat.mul_comm, Nat.div_div_eq_div_mul]

theorem ofBytes_toBytes (count n : Nat) : ofBytes (toBytes count n) = n % 256 ^ count := by
  induction count generalizing n with
  | zero => simp [toBytes, ofBytes, Nat.mod_one]
  | succ count ih =>
    have hrest : ofBytes (toBytes (count + 1) n) =
        n % 256 + 256 * ofBytes (toBytes count (n / 256)) := by
      rw [toBytes_succ]
      simp [ofBytes]
    rw [hrest, ih, Nat.pow_succ, Nat.mul_comm (256 ^ count), Nat.mod_mul]

def Bytes.u32 (b : Bytes) (off : Nat) : BitVec 32 := BitVec.ofNat 32 (ofBytes (b.read off 4))

def Bytes.u64 (b : Bytes) (off : Nat) : BitVec 64 := BitVec.ofNat 64 (ofBytes (b.read off 8))

/-- What `kmalloc` returns. -/
structure Buffer where
  id : Nat
  addr : BitVec 64
  size : Nat
  bytes : Bytes

/-- The old content of the buffers, in the order of their allocation, and of the
stack variables. -/
structure Stale (ν : Type) where
  heap : Nat → Bytes
  stack : ν → Bytes

structure Env where
  user : Nat → BitVec 64 → UInt8
  copy : Nat → UserCopy
  alloc : Nat → Option (BitVec 64)
  beyond : Nat → Bytes

inductive HeapEvent
  | alloc (id size : Nat)
  | free (id : Nat)
  | access (id off n : Nat)
  deriving DecidableEq, Repr

/-- Bytes that reached user memory. -/
structure Delivery where
  addr : BitVec 64
  bytes : List UInt8
  deriving DecidableEq, Repr

/-- The state of the driver, the counts of what has been asked of the
environment, and the logs. -/
structure Kernel (σ : Type) where
  dev : σ
  allocs : Nat := 0
  copies : Nat := 0
  calls : Nat := 0
  heap : List HeapEvent := []
  user : List Delivery := []

section Calls

variable {ν σ : Type} (env : Env)

def kmalloc (n : Nat) : Routine (Stale ν) (Kernel σ) (Option Buffer) := fun stale s =>
  match env.alloc s.allocs with
  | none => (none, { s with allocs := s.allocs + 1 })
  | some addr =>
    (some { id := s.allocs, addr, size := n,
            bytes := (env.beyond s.allocs).copy (stale.heap s.allocs) n },
      { s with allocs := s.allocs + 1, heap := s.heap ++ [.alloc s.allocs n] })

def logHeap (e : HeapEvent) : Routine (Stale ν) (Kernel σ) Unit :=
  Routine.modify fun s => { s with heap := s.heap ++ [e] }

def kfree (b : Buffer) : Routine (Stale ν) (Kernel σ) Unit := logHeap (.free b.id)

/-- The destination afterwards, and the number of bytes that are missing. -/
def copyIn (dst : Bytes) (src : BitVec 64) (n : Nat) : Routine (Stale ν) (Kernel σ) (Bytes × Nat) :=
  Routine.modifyGet fun s =>
    let found := (List.range n).map fun k => env.user s.copies (src + BitVec.ofNat 64 k)
    let copied := copyFromUser (env.copy s.copies) (dst.read 0 n) found
    ((dst.write 0 copied.1, copied.2), { s with copies := s.copies + 1 })

def copyOut (dst : BitVec 64) (src : Bytes) (n : Nat) : Routine (Stale ν) (Kernel σ) Nat :=
  Routine.modifyGet fun s =>
    let copied := copyToUser (env.copy s.copies) (src.read 0 n)
    (copied.2, { s with
      copies := s.copies + 1
      user := s.user ++ [{ addr := dst, bytes := copied.1 }] })

/-- `if (copy_to_user(..)) return -EFAULT;` and the rest of the function. -/
def copyOutThen (dst : BitVec 64) (src : Bytes) (n : Nat)
    (rest : Routine (Stale ν) (Kernel σ) Int) : Routine (Stale ν) (Kernel σ) Int := do
  let missing ← copyOut env dst src n
  if missing ≠ 0 then pure (-EFAULT) else rest

namespace Buffer

/-- The bytes of a copy from the user, and the number that are missing. -/
def copyIn (b : Buffer) (src : BitVec 64) (n : Nat) :
    Routine (Stale ν) (Kernel σ) (Buffer × Nat) := do
  logHeap (.access b.id 0 n)
  let (bytes, missing) ← Linux.copyIn env b.bytes src n
  pure ({ b with bytes }, missing)

def copyOut (dst : BitVec 64) (b : Buffer) (n : Nat) : Routine (Stale ν) (Kernel σ) Nat := do
  logHeap (.access b.id 0 n)
  Linux.copyOut env dst b.bytes n

def memset (b : Buffer) (value : UInt8) (n : Nat) : Routine (Stale ν) (Kernel σ) Buffer := do
  logHeap (.access b.id 0 n)
  pure { b with bytes := b.bytes.fill value n }

def read (b : Buffer) (off n : Nat) : Routine (Stale ν) (Kernel σ) (List UInt8) := do
  logHeap (.access b.id off n)
  pure (b.bytes.read off n)

def write (b : Buffer) (off : Nat) (bs : List UInt8) : Routine (Stale ν) (Kernel σ) Buffer := do
  logHeap (.access b.id off bs.length)
  pure { b with bytes := b.bytes.write off bs }

end Buffer

end Calls

/-! ## Old content -/

/-- Two buffers that differ in their old content at most. -/
structure Buffer.Alike (b b' : Buffer) : Prop where
  id : b.id = b'.id
  addr : b.addr = b'.addr
  size : b.size = b'.size
  beyond : ∀ i, b.size ≤ i → b.bytes i = b'.bytes i

section Blind

open Routine

variable {ν σ : Type} (env : Env)

/-- Two copies of `n` bytes agree as far as they reach the user. -/
theorem take_read_congr {b b' : Bytes} {k n : Nat} (h : ∀ i < min k n, b i = b' i) :
    (b.read 0 n).take k = (b'.read 0 n).take k := by
  apply List.ext_getElem
  · simp [Bytes.read]
  · intro i hi hi'
    simp only [List.length_take, Bytes.read, List.length_map, List.length_range] at hi
    simp only [Bytes.read, List.getElem_take, List.getElem_map, List.getElem_range, Nat.zero_add]
    exact h i hi

theorem read_take_inj {b b' : Bytes} {k n : Nat} (h : (b.read 0 n).take k = (b'.read 0 n).take k) :
    ∀ i < min k n, b i = b' i := by
  intro i hi
  have hlen : i < ((b.read 0 n).take k).length := by
    simp only [List.length_take, Bytes.read, List.length_map, List.length_range]
    exact hi
  have hget := List.getElem_of_eq h hlen
  simpa [Bytes.read] using hget

theorem blind_logHeap (e : HeapEvent) : Blind (logHeap e : Routine (Stale ν) (Kernel σ) Unit) :=
  Blind.modify _

theorem blind_kfree (b : Buffer) : Blind (kfree b : Routine (Stale ν) (Kernel σ) Unit) :=
  blind_logHeap _

theorem blind_copyIn (dst : Bytes) (src : BitVec 64) (n : Nat) :
    Blind (copyIn env dst src n : Routine (Stale ν) (Kernel σ) (Bytes × Nat)) :=
  Blind.modifyGet _

theorem blind_copyOut (dst : BitVec 64) (src : Bytes) (n : Nat) :
    Blind (copyOut env dst src n : Routine (Stale ν) (Kernel σ) Nat) :=
  Blind.modifyGet _

theorem grows_logHeap (e : HeapEvent) :
    Grows Kernel.user (logHeap e : Routine (Stale ν) (Kernel σ) Unit) :=
  fun _ _ => List.prefix_refl _

theorem Buffer.blind_copyIn (b : Buffer) (src : BitVec 64) (n : Nat) :
    Blind (b.copyIn env src n : Routine (Stale ν) (Kernel σ) (Buffer × Nat)) :=
  (blind_logHeap _).bind fun _ => (Linux.blind_copyIn env _ _ _).bind fun _ => Blind.pure _

theorem Buffer.blind_copyOut (dst : BitVec 64) (b : Buffer) (n : Nat) :
    Blind (Buffer.copyOut env dst b n : Routine (Stale ν) (Kernel σ) Nat) :=
  (blind_logHeap _).bind fun _ => Linux.blind_copyOut env _ _ _

theorem Buffer.blind_read (b : Buffer) (off n : Nat) :
    Blind (b.read off n : Routine (Stale ν) (Kernel σ) (List UInt8)) :=
  (blind_logHeap _).bind fun _ => Blind.pure _

theorem Buffer.blind_write (b : Buffer) (off : Nat) (bs : List UInt8) :
    Blind (b.write off bs : Routine (Stale ν) (Kernel σ) Buffer) :=
  (blind_logHeap _).bind fun _ => Blind.pure _

/-! ### Copies from the user -/

/-- A whole copy hides what was there. -/
theorem write_copy (b old : Bytes) {bs : List UInt8} {n : Nat} (h : bs.length = n) :
    (b.copy old n).write 0 bs = b.write 0 bs := by
  funext i
  by_cases hi : i < n
  · have hlt : i < bs.length := by omega
    simp [Bytes.write, List.getD, hlt]
  · simp [Bytes.write, Bytes.copy, hi]

theorem copyIn_whole (dst : Bytes) (src : BitVec 64) {n : Nat} {s : Kernel σ}
    (h : n ≤ (env.copy s.copies).copied) (stale : Stale ν) :
    copyIn env dst src n stale s =
      ((dst.write 0 ((List.range n).map fun k => env.user s.copies (src + BitVec.ofNat 64 k)), 0),
        { s with copies := s.copies + 1 }) := by
  have hdone : copyFromUser (env.copy s.copies) (dst.read 0 n)
      ((List.range n).map fun k => env.user s.copies (src + BitVec.ofNat 64 k)) =
        ((List.range n).map fun k => env.user s.copies (src + BitVec.ofNat 64 k), 0) :=
    copyFromUser_done (by simp [Bytes.read]) (by simpa using h)
  simp only [copyIn, Routine.modifyGet, hdone]

theorem copyIn_snd (dst : Bytes) (src : BitVec 64) (n : Nat) (s : Kernel σ) (stale : Stale ν) :
    (copyIn env dst src n stale s).1.2 = n - (env.copy s.copies).copied := by
  simp [copyIn, Routine.modifyGet, copyFromUser]

theorem Buffer.copyIn_snd (b : Buffer) (src : BitVec 64) (n : Nat) (s : Kernel σ)
    (stale : Stale ν) : (b.copyIn env src n stale s).1.2 = n - (env.copy s.copies).copied :=
  Linux.copyIn_snd env b.bytes src n _ stale

/-! ### Copies to the user -/

/-- A copy depends on the bytes that reach the user. -/
theorem copyOut_congr {b b' : Bytes} {n : Nat} {s : Kernel σ}
    (h : ∀ i < min (env.copy s.copies).copied n, b i = b' i) (dst : BitVec 64)
    (stale stale' : Stale ν) : copyOut env dst b n stale s = copyOut env dst b' n stale' s := by
  have hread : (b.read 0 n).take (env.copy s.copies).copied =
      (b'.read 0 n).take (env.copy s.copies).copied := take_read_congr h
  have hlen : (b.read 0 n).length = (b'.read 0 n).length := by simp [Bytes.read]
  simp only [copyOut, Routine.modifyGet, copyToUser, hread, hlen]

theorem copyOut_fst (dst : BitVec 64) (b : Bytes) (n : Nat) (stale : Stale ν) (s : Kernel σ) :
    (copyOut env dst b n stale s).1 = n - (env.copy s.copies).copied := by
  simp [copyOut, Routine.modifyGet, copyToUser, Bytes.read]

theorem grows_copyOut (dst : BitVec 64) (src : Bytes) (n : Nat) :
    Grows Kernel.user (copyOut env dst src n : Routine (Stale ν) (Kernel σ) Nat) :=
  fun _ _ => List.prefix_append _ _

section Then

variable {rest rest' : Routine (Stale ν) (Kernel σ) Int}

theorem blind_copyOutThen (dst : BitVec 64) (src : Bytes) (n : Nat) (hrest : Blind rest) :
    Blind (copyOutThen env dst src n rest) :=
  (blind_copyOut env dst src n).bind fun _ => Blind.ite (fun _ => Blind.pure _) fun _ => hrest

theorem grows_copyOutThen (dst : BitVec 64) (src : Bytes) (n : Nat)
    (hrest : Grows Kernel.user rest) : Grows Kernel.user (copyOutThen env dst src n rest) :=
  (grows_copyOut env dst src n).bind fun _ => Grows.ite (Grows.pure _) hrest

/-- The first delivery stays in front. -/
theorem copyOutThen_sends (dst : BitVec 64) (src : Bytes) (n : Nat)
    (hrest : Grows Kernel.user rest) (stale : Stale ν) (s : Kernel σ) :
    s.user ++ [{ addr := dst, bytes := (src.read 0 n).take (env.copy s.copies).copied }] <+:
      (copyOutThen env dst src n rest stale s).2.user :=
  (Grows.ite (p := (copyOut env dst src n stale s).1 ≠ 0) (Grows.pure _) hrest) stale
    (copyOut env dst src n stale s).2

theorem copyOutThen_whole (dst : BitVec 64) (src : Bytes) {n : Nat} {s : Kernel σ}
    (h : n ≤ (env.copy s.copies).copied) (stale : Stale ν) :
    copyOutThen env dst src n rest stale s = rest stale (copyOut env dst src n stale s).2 := by
  have hzero : n - (env.copy s.copies).copied = 0 := by omega
  unfold copyOutThen
  rw [bind_apply, copyOut_fst, hzero]
  rfl

/-- The rest is run after a whole copy only. -/
theorem copyOutThen_congr {b b' : Bytes} {n : Nat} {s : Kernel σ}
    (h : ∀ i < min (env.copy s.copies).copied n, b i = b' i) (dst : BitVec 64)
    {stale stale' : Stale ν}
    (hrest : n ≤ (env.copy s.copies).copied →
      rest stale (copyOut env dst b' n stale' s).2 =
        rest' stale' (copyOut env dst b' n stale' s).2) :
    copyOutThen env dst b n rest stale s = copyOutThen env dst b' n rest' stale' s := by
  have hcopy := copyOut_congr env h dst stale stale'
  by_cases hn : n ≤ (env.copy s.copies).copied
  · rw [copyOutThen_whole env dst b hn, copyOutThen_whole env dst b' hn, hcopy]
    exact hrest hn
  · have hne : n - (env.copy s.copies).copied ≠ 0 := by omega
    unfold copyOutThen
    rw [bind_apply, bind_apply, hcopy, copyOut_fst]
    simp only [if_pos hne]
    rfl

end Then

theorem same_kmalloc (n : Nat) :
    Same (Option.Rel fun b b' => b.Alike b' ∧ b.size = n)
      (kmalloc env n : Routine (Stale ν) (Kernel σ) (Option Buffer)) (kmalloc env n) := by
  intro stale stale' s
  cases haddr : env.alloc s.allocs with
  | none =>
    simp only [kmalloc, haddr]
    exact ⟨.none, trivial⟩
  | some addr =>
    simp only [kmalloc, haddr]
    refine ⟨.some ⟨⟨rfl, rfl, rfl, fun i hi => ?_⟩, rfl⟩, trivial⟩
    have hout : ¬ i < n := Nat.not_lt.mpr hi
    simp [Bytes.copy, hout]

/-- Filling the whole buffer removes the old content. -/
theorem Buffer.Alike.fill {b b' : Buffer} (h : b.Alike b') (value : UInt8) :
    ({ b with bytes := b.bytes.fill value b.size } : Buffer) =
      { b' with bytes := b'.bytes.fill value b.size } := by
  have hbytes : b.bytes.fill value b.size = b'.bytes.fill value b.size := by
    funext i
    by_cases hi : i < b.size
    · simp [Bytes.fill, hi]
    · simp only [Bytes.fill, if_neg hi]
      exact h.beyond i (Nat.not_lt.mp hi)
  rw [hbytes, Buffer.mk.injEq]
  exact ⟨h.id, h.addr, h.size, rfl⟩

theorem Buffer.Alike.memset {b b' : Buffer} {n : Nat} (h : b.Alike b' ∧ b.size = n)
    (value : UInt8) :
    Same Eq (b.memset value n : Routine (Stale ν) (Kernel σ) Buffer) (b'.memset value n) := by
  obtain ⟨h, rfl⟩ := h
  unfold Buffer.memset
  rw [h.fill value, h.id]
  exact (blind_logHeap _).bind fun _ => Blind.pure _

/-- A buffer that is cleared before its first use is no secret. -/
theorem blind_kmalloc_memset {α : Type} (value : UInt8) (n : Nat)
    {none' : Routine (Stale ν) (Kernel σ) α} {f : Buffer → Routine (Stale ν) (Kernel σ) α}
    (hnone : Blind none') (hf : ∀ b, Blind (f b)) :
    Blind (do
      match ← kmalloc env n with
      | none => none'
      | some b => do
        let b ← b.memset value n
        f b) := by
  refine (same_kmalloc env n).bind fun b b' hb => ?_
  cases hb with
  | none => exact hnone
  | some hab => exact (Buffer.Alike.memset hab value).bind_eq hf

end Blind

/-! ## Filled buffers -/

theorem fill_copy (b old : Bytes) (value : UInt8) (n : Nat) :
    (b.copy old n).fill value n = b.fill value n := by
  funext i
  by_cases hi : i < n
  · simp [Bytes.fill, hi]
  · simp [Bytes.fill, Bytes.copy, hi]

section Cleared

open Routine

variable {ν σ α : Type} (env : Env)

/-- The buffer of an allocation that is filled at once. -/
def clearedBuffer (s : Kernel σ) (addr : BitVec 64) (value : UInt8) (n : Nat) : Buffer where
  id := s.allocs
  addr := addr
  size := n
  bytes := (env.beyond s.allocs).fill value n

theorem kmalloc_memset_some {s : Kernel σ} {addr : BitVec 64} (h : env.alloc s.allocs = some addr)
    (value : UInt8) (n : Nat) {none' : Routine (Stale ν) (Kernel σ) α}
    {f : Buffer → Routine (Stale ν) (Kernel σ) α} (stale : Stale ν) :
    (do
      match ← kmalloc env n with
      | none => none'
      | some b => do
        let b ← b.memset value n
        f b : Routine (Stale ν) (Kernel σ) α) stale s =
      f (clearedBuffer env s addr value n) stale
        { s with allocs := s.allocs + 1
                 heap := s.heap ++ [.alloc s.allocs n] ++ [.access s.allocs 0 n] } := by
  have hfill := fill_copy (env.beyond s.allocs) (stale.heap s.allocs) value n
  rw [bind_apply]
  simp only [kmalloc, h]
  rw [clearedBuffer, ← hfill]
  rfl

theorem kmalloc_memset_none {s : Kernel σ} (h : env.alloc s.allocs = none) (value : UInt8) (n : Nat)
    {none' : Routine (Stale ν) (Kernel σ) α} {f : Buffer → Routine (Stale ν) (Kernel σ) α}
    (stale : Stale ν) :
    (do
      match ← kmalloc env n with
      | none => none'
      | some b => do
        let b ← b.memset value n
        f b : Routine (Stale ν) (Kernel σ) α) stale s =
      none' stale { s with allocs := s.allocs + 1 } := by
  rw [bind_apply]
  simp only [kmalloc, h]

end Cleared

end Linux
end AtomDrivers
