/-
What the drivers are handed, and what becomes of their answer.

Every slot of the parameters that points to a kernel buffer while the drivers run
is overwritten again: with the pointer of the user, or with the value fetched from
the buffer.
-/
import AtomDrivers.Camera.Feature

namespace AtomDrivers
namespace Camera

open Linux Routine

/-- The memory after a copy of `n` bytes from the user. -/
def fetched (env : Env) (copies : Nat) (dst : Bytes) (src : BitVec 64) (n : Nat) : Bytes :=
  dst.write 0 (copyFromUser (env.copy copies) (dst.read 0 n)
    ((List.range n).map fun k => env.user copies (src + BitVec.ofNat 64 k))).1

def withSlot (para : Bytes) (slot : Nat) (value : BitVec 64) : Bytes :=
  para.write (sizeofSlot * slot) (toBytes sizeofSlot value.toNat)

def slotOf (para : Bytes) (slot : Nat) : BitVec 64 := para.u64 (sizeofSlot * slot)

theorem slotOf_withSlot (para : Bytes) (slot : Nat) (value : BitVec 64) :
    slotOf (withSlot para slot value) slot = value := by
  have hlen : (toBytes sizeofSlot value.toNat).length = sizeofSlot := by simp [toBytes]
  have hread : (withSlot para slot value).read (sizeofSlot * slot) sizeofSlot =
      toBytes sizeofSlot value.toNat := by
    have hback := Bytes.read_write para (sizeofSlot * slot) (toBytes sizeofSlot value.toNat)
    rwa [hlen] at hback
  have hnum : ofBytes (toBytes sizeofSlot value.toNat) = value.toNat := by
    rw [ofBytes_toBytes]
    exact Nat.mod_eq_of_lt value.isLt
  unfold slotOf Bytes.u64
  rw [show (8 : Nat) = sizeofSlot from rfl, hread, hnum, BitVec.ofNat_toNat, BitVec.setWidth_eq]

theorem slotOf_withSlot_of_ne (para : Bytes) {slot slot' : Nat} (h : slot' ≠ slot)
    (value : BitVec 64) : slotOf (withSlot para slot value) slot' = slotOf para slot' := by
  have hlen : (toBytes sizeofSlot value.toNat).length = sizeofSlot := by simp [toBytes]
  have hread : (withSlot para slot value).read (sizeofSlot * slot') 8 =
      para.read (sizeofSlot * slot') 8 := by
    refine Bytes.read_write_of_disjoint para ?_
    rw [hlen, sizeofSlot]
    omega
  unfold slotOf Bytes.u64
  rw [hread]

section Handed

variable (env : Env) (allocs copies : Nat)

/-- The address of the `k`-th buffer from now on. -/
def bufferAddr (k : Nat) : BitVec 64 := (env.alloc (allocs + k)).getD 0

/-- Its content when it has been filled. -/
def filled (k : Nat) (fill : UInt8) (n : Nat) : Bytes := (env.beyond (allocs + k)).fill fill n

def auxHanded (a : Aux) (para : Bytes) : Bytes :=
  match a.copy with
  | .fromUser => fetched env copies (filled env allocs 0 a.fill a.size) (slotOf para a.slot) a.size
  | _ => filled env allocs 0 a.fill a.size

/-- The parameters as the drivers get them. -/
def handed (para : Bytes) (len : BitVec 32) : Exchange → FeaturePara
  | .value =>
    { para := withSlot para 1 (bufferAddr env allocs 0)
      aux := fun _ => filled env allocs 0 0 sizeofUint32
      len := len }
  | .values =>
    { para := withSlot (withSlot para 0 (bufferAddr env allocs 0)) 1 (bufferAddr env allocs 1)
      aux := fun k =>
        if k = 0 then filled env allocs 0 0 sizeofUint32 else filled env allocs 1 0 sizeofUint32
      len := len }
  | .aux a =>
    { para := withSlot para a.slot (bufferAddr env allocs 0)
      aux := fun _ => auxHanded env allocs copies a para
      len := len }
  | .plain => { para := para, aux := fun _ => Bytes.zero, len := len }

/-- Every buffer has been allocated. -/
def buffersAllocated : Exchange → Bool
  | .value | .aux _ => (env.alloc allocs).isSome
  | .values => (env.alloc allocs).isSome && (env.alloc (allocs + 1)).isSome
  | .plain => true

end Handed

/-- The parameters when the drivers have answered. -/
def restored (para : Bytes) (answer : FeaturePara) : Exchange → Bytes
  | .value => withSlot answer.para 1 (((answer.aux 0).u32 0).setWidth 64)
  | .values =>
    withSlot (withSlot answer.para 0 (((answer.aux 0).u32 0).setWidth 64)) 1
      (((answer.aux 1).u32 0).setWidth 64)
  | .aux a => withSlot answer.para a.slot (slotOf para a.slot)
  | .plain => answer.para

/-- Each slot that pointed to a kernel buffer holds the user's pointer or the value
fetched from the buffer. -/
def SlotsRestored (para : Bytes) (answer : FeaturePara) (back : Bytes) : Exchange → Prop
  | .value => slotOf back 1 = ((answer.aux 0).u32 0).setWidth 64
  | .values =>
    slotOf back 0 = ((answer.aux 0).u32 0).setWidth 64 ∧
      slotOf back 1 = ((answer.aux 1).u32 0).setWidth 64
  | .aux a => slotOf back a.slot = slotOf para a.slot
  | .plain => True

theorem slotsRestored (para : Bytes) (answer : FeaturePara) (ex : Exchange) :
    SlotsRestored para answer (restored para answer ex) ex := by
  cases ex with
  | value => exact slotOf_withSlot _ 1 _
  | values =>
    refine ⟨?_, slotOf_withSlot _ 1 _⟩
    exact (slotOf_withSlot_of_ne _ (by decide) _).trans (slotOf_withSlot _ 0 _)
  | aux a => exact slotOf_withSlot _ a.slot _
  | plain => trivial

section Serve

variable (hdr : FeatureHeader) (world : World) (arg : FeatureControlArg)

/-- The rest of `serveValues` when both buffers are there. -/
def askValues (para : Buffer) (len : BitVec 32) (pValue0 pValue1 : Buffer) :
    SensorM (Option Served) := do
  let pValue1 ← pValue1.memset 0 sizeofUint32
  let pValue0 ← pValue0.memset 0 sizeofUint32
  let para ← writeSlot para 0 pValue0.addr
  let para ← writeSlot para 1 pValue1.addr
  let (ret, para, aux, len) ←
    sensorFeatureControl hdr world arg.invokeCamera para
      (fun k => if k = 0 then pValue0.bytes else pValue1.bytes) len
  let para ← writeSlot para 0 (((aux 0).u32 0).setWidth 64)
  let para ← writeSlot para 1 (((aux 1).u32 0).setWidth 64)
  kfree pValue0
  kfree pValue1
  pure (some { ret, para, len })

/-- The return value of the drivers and what they leave. -/
def answered (ex : Exchange) (s : Kernel Sensors) (para : Bytes) (len : BitVec 32) :
    BitVec 32 × FeaturePara :=
  (kdMultiSensorFeatureControl hdr.toSensorHeader world arg.invokeCamera
    (handed world.env s.allocs s.copies para len ex) s.calls s.dev).1

def servedAs (ex : Exchange) (s : Kernel Sensors) (para : Buffer) (len : BitVec 32) :
    Option Served :=
  if buffersAllocated world.env s.allocs ex then
    let answer := answered hdr world arg ex s para.bytes len
    some { ret := answer.1
           para := { para with bytes := restored para.bytes answer.2 ex }
           len := answer.2.len }
  else none

variable (stale : Stale StackVar) (s : Kernel Sensors) (para : Buffer) (len : BitVec 32)

theorem serveValue_result :
    (serveValue hdr world arg para len stale s).1 = servedAs hdr world arg .value s para len := by
  unfold servedAs answered
  cases haddr : world.env.alloc s.allocs with
  | none =>
    simp only [buffersAllocated, haddr]
    exact congrArg Prod.fst (kmalloc_memset_none world.env haddr 0 sizeofUint32 stale)
  | some addr =>
    have hbuf : bufferAddr world.env s.allocs 0 = addr := by simp [bufferAddr, haddr]
    simp only [buffersAllocated, haddr, handed, hbuf]
    exact congrArg Prod.fst (kmalloc_memset_some world.env haddr 0 sizeofUint32 stale)

theorem serveValues_result :
    (serveValues hdr world arg para len stale s).1 = servedAs hdr world arg .values s para len := by
  unfold servedAs answered serveValues
  rw [bind_apply, bind_apply]
  cases h0 : world.env.alloc s.allocs with
  | none =>
    simp only [buffersAllocated, kmalloc, h0]
    cases world.env.alloc (s.allocs + 1) with
    | none => rfl
    | some addr1 => rfl
  | some addr0 =>
    cases h1 : world.env.alloc (s.allocs + 1) with
    | none =>
      simp only [buffersAllocated, kmalloc, h0, h1]
      rfl
    | some addr1 =>
      have hbuf0 : bufferAddr world.env s.allocs 0 = addr0 := by simp [bufferAddr, h0]
      have hbuf1 : bufferAddr world.env s.allocs 1 = addr1 := by simp [bufferAddr, h1]
      have hfill0 := fill_copy (world.env.beyond s.allocs) (stale.heap s.allocs) 0 sizeofUint32
      have hfill1 :=
        fill_copy (world.env.beyond (s.allocs + 1)) (stale.heap (s.allocs + 1)) 0 sizeofUint32
      simp only [buffersAllocated, h0, h1, handed, hbuf0, hbuf1, filled, Nat.add_zero, ← hfill0,
        ← hfill1, kmalloc]
      rfl

theorem serveAux_result (a : Aux) :
    (serveAux hdr world a arg para len stale s).1 =
      servedAs hdr world arg (.aux a) s para len := by
  obtain ⟨slot, size, fill, copy⟩ := a
  unfold servedAs answered
  -- the user's pointer is read before the allocation
  let read := (readSlot para slot stale s).2
  cases haddr : world.env.alloc s.allocs with
  | none =>
    simp only [buffersAllocated, haddr]
    exact congrArg Prod.fst (kmalloc_memset_none world.env (s := read) haddr fill size stale)
  | some addr =>
    have hbuf : bufferAddr world.env s.allocs 0 = addr := by simp [bufferAddr, haddr]
    simp only [buffersAllocated, haddr, handed, hbuf]
    refine (congrArg Prod.fst
      (kmalloc_memset_some world.env (s := read) haddr fill size stale)).trans ?_
    cases copy with
    | fromUser => rfl
    | toUser => rfl
    | toUserSized => rfl

/-- What a request is answered with. -/
theorem serve_result :
    (serve hdr world arg para len stale s).1 =
      servedAs hdr world arg (exchange hdr (hdr.feature arg.featureId)) s para len := by
  unfold serve
  cases exchange hdr (hdr.feature arg.featureId) with
  | value => exact serveValue_result hdr world arg stale s para len
  | values => exact serveValues_result hdr world arg stale s para len
  | aux a => exact serveAux_result hdr world arg stale s para len a
  | plain => rfl

end Serve

end Camera
end AtomDrivers
