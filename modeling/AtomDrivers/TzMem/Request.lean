/-
Requests to the block device of released secure memory.

`do_tzmem_blk_request` takes the requests off its queue and serves them segment by
segment.  A segment goes to the trusted application in chunks of at most
`KREE_RELEASECM_MAX_SIZE` bytes, whose results are not looked at.  What the application
does is left open (`App`): a segment inside is reported as done whatever that is, and
its buffer holds what the calls have stored.  Where the application keeps a memory
(`App.Keeps`), the device is one flat array of bytes, on which each segment is a single
transfer.  The range check can be outwitted by an overflow exactly where an
`unsigned long` cannot hold twice the size.
-/
import AtomDrivers.Storage.Chunks
import AtomDrivers.Linux.Errno

namespace AtomDrivers
namespace TzMem

open Storage

/-- `KREE_RELEASECM_MAX_SIZE` -/
def kreeReleasecmMaxSize : Nat := 4096

/-- `rq_data_dir` -/
inductive DataDir
  | read
  | write
  deriving DecidableEq, Repr

/-- The trusted application behind a session: what a call does to it, and which bytes of
the buffer a read stores. -/
structure App (σ τ : Type*) where
  kreeReadSecurechunkmem : σ → BitVec 32 → BitVec 32 → τ → τ × (Nat → Option UInt8)
  kreeWriteSecurechunkmem : σ → BitVec 32 → BitVec 32 → List UInt8 → τ → τ

/-- The buffer of a segment; `blk_rq_cur_bytes` is an `unsigned int`. -/
structure Segment where
  buffer : List UInt8
  small : buffer.length < 2 ^ 32

structure Request where
  dir : DataDir
  pos : Nat
  segments : List Segment

/-- What `__blk_end_request_cur` is told, and the buffer then. -/
structure Completion where
  err : Int
  buffer : List UInt8
  deriving DecidableEq, Repr

/-- A buffer in whose `n` bytes from `p` on a call has stored. -/
def overlay (buffer : List UInt8) (p n : Nat) (stored : Nat → Option UInt8) : List UInt8 :=
  buffer.mapIdx fun k b => if p ≤ k ∧ k < p + n then (stored (k - p)).getD b else b

section Driver

variable {σ τ : Type*} (w : Nat) (app : App σ τ) (session : σ)

variable {w}

/-- The offset of chunk `i`, which the application takes as a `uint32_t`. -/
def chunkOffset (start : BitVec w) (i : Nat) : BitVec 32 :=
  (start + (BitVec.ofNat 32 (i * kreeReleasecmMaxSize)).setWidth w).setWidth 32

def readChunk (start : BitVec w) (i n : Nat) (s : τ × List UInt8) : τ × List UInt8 :=
  let (tz, stored) :=
    app.kreeReadSecurechunkmem session (chunkOffset start i) (BitVec.ofNat 32 n) s.1
  (tz, overlay s.2 (BitVec.ofNat 32 (i * kreeReleasecmMaxSize)).toNat n stored)

def writeChunk (start : BitVec w) (i n : Nat) (s : τ × List UInt8) : τ × List UInt8 :=
  (app.kreeWriteSecurechunkmem session (chunkOffset start i) (BitVec.ofNat 32 n)
    (slice s.2 (BitVec.ofNat 32 (i * kreeReleasecmMaxSize)).toNat n) s.1, s.2)

/-- The range check. -/
def Inside (size : BitVec 32) (start len : BitVec w) : Prop :=
  ¬ (size.setWidth w < start + len ∨ size.setWidth w < start ∨ size.setWidth w < len)

instance (size : BitVec 32) (start len : BitVec w) : Decidable (Inside size start len) :=
  inferInstanceAs (Decidable (¬ _))

variable (w)

/-- One round of the loop, up to `__blk_end_request_cur`. -/
def doSegment (size : BitVec 32) (dir : DataDir) (pos : Nat) (seg : Segment) (tz : τ) :
    τ × Completion :=
  let start := BitVec.ofNat w (pos * 512)
  let len := BitVec.ofNat w seg.buffer.length
  if Inside size start len then
    let (tz, buffer) :=
      match dir with
      | .read =>
        inChunks kreeReleasecmMaxSize (readChunk app session start) len.toNat (tz, seg.buffer)
      | .write =>
        inChunks kreeReleasecmMaxSize (writeChunk app session start) len.toNat (tz, seg.buffer)
    (tz, { err := 0, buffer })
  else (tz, { err := - Linux.EIO, buffer := seg.buffer })

/-- `__blk_end_request_cur` goes on to the next segment, behind the sectors of this one. -/
def doSegments (size : BitVec 32) (dir : DataDir) :
    Nat → List Segment → τ → τ × List Completion
  | _, [], tz => (tz, [])
  | pos, seg :: segs, tz =>
    let (tz, c) := doSegment w app session size dir pos seg tz
    let (tz, cs) := doSegments size dir (pos + seg.buffer.length / 512) segs tz
    (tz, c :: cs)

def doTzmemBlkRequest (size : BitVec 32) : List Request → τ → τ × List (List Completion)
  | [], tz => (tz, [])
  | req :: q, tz =>
    let (tz, cs) := doSegments w app session size req.dir req.pos req.segments tz
    let (tz, css) := doTzmemBlkRequest size q tz
    (tz, cs :: css)

end Driver

/-! ## The range check -/

section Range

variable {w : Nat} {size : BitVec 32} {p n : Nat}

theorem inside_ofNat (hw : 32 ≤ w) (hp : p < 2 ^ w) (hn : n < 2 ^ 32) :
    Inside size (BitVec.ofNat w p) (BitVec.ofNat w n) ↔
      (p + n) % 2 ^ w ≤ size.toNat ∧ p ≤ size.toNat ∧ n ≤ size.toNat := by
  have hpow : 2 ^ 32 ≤ 2 ^ w := Nat.pow_le_pow_right (by decide) hw
  have hsize : (size.setWidth w).toNat = size.toNat := by
    rw [BitVec.toNat_setWidth, Nat.mod_eq_of_lt (by have := size.isLt; omega)]
  have hstart : (BitVec.ofNat w p).toNat = p := by
    rw [BitVec.toNat_ofNat, Nat.mod_eq_of_lt hp]
  have hlen : (BitVec.ofNat w n).toNat = n := by
    rw [BitVec.toNat_ofNat, Nat.mod_eq_of_lt (by omega)]
  rw [Inside, BitVec.lt_def, BitVec.lt_def, BitVec.lt_def, BitVec.toNat_add, hsize, hstart, hlen]
  omega

/-- What lies inside passes. -/
theorem inside_of_le (hw : 32 ≤ w) (hle : p + n ≤ size.toNat) :
    Inside size (BitVec.ofNat w p) (BitVec.ofNat w n) := by
  have hpow : 2 ^ 32 ≤ 2 ^ w := Nat.pow_le_pow_right (by decide) hw
  have hsize := size.isLt
  rw [inside_ofNat hw (by omega) (by omega), Nat.mod_eq_of_lt (by omega)]
  omega

theorem sum_mod_le_iff {W size start last : Nat} (hlt : last + size < W)
    (hlast : start ≤ size → start ≤ last) (hle : last ≤ size) :
    (start + n) % W ≤ size ∧ start ≤ size ∧ n ≤ size ↔ start + n ≤ size := by
  constructor
  · intro ⟨hsum, hstart, hlen⟩
    have hstart' := hlast hstart
    rwa [Nat.mod_eq_of_lt (by omega)] at hsum
  · intro hinside
    have hstart' := hlast (by omega)
    rw [Nat.mod_eq_of_lt (by omega)]
    omega

/-- If a transfer of the whole size at the last sector does not overflow, only what lies
inside passes. -/
theorem inside_iff_le (hw : 32 ≤ w) (size : BitVec 32)
    (hwrap : size.toNat / 512 * 512 + size.toNat < 2 ^ w) {pos n : Nat} (hpos : pos * 512 < 2 ^ w)
    (hn : n < 2 ^ 32) :
    Inside size (BitVec.ofNat w (pos * 512)) (BitVec.ofNat w n) ↔
      pos * 512 + n ≤ size.toNat := by
  have hlast : pos * 512 ≤ size.toNat → pos * 512 ≤ size.toNat / 512 * 512 := fun hstart =>
    Nat.mul_le_mul_right 512 ((Nat.le_div_iff_mul_le (by decide)).mpr hstart)
  rw [inside_ofNat hw hpos hn]
  exact sum_mod_le_iff hwrap hlast (Nat.div_mul_le_self _ _)

/-- Of the sectors that an `unsigned long` can address, only what lies inside passes,
exactly if a transfer of the whole size at the last sector does not overflow. -/
theorem inside_iff_le_iff (hw : 32 ≤ w) (size : BitVec 32) :
    (∀ pos n : Nat, pos * 512 < 2 ^ w → n < 2 ^ 32 →
      (Inside size (BitVec.ofNat w (pos * 512)) (BitVec.ofNat w n) ↔
        pos * 512 + n ≤ size.toNat)) ↔
    size.toNat / 512 * 512 + size.toNat < 2 ^ w := by
  have hpow : 2 ^ 32 ≤ 2 ^ w := Nat.pow_le_pow_right (by decide) hw
  have hsize := size.isLt
  constructor
  · intro hall
    by_contra hge
    have hover := hall (size.toNat / 512) size.toNat (by omega) hsize
    rw [inside_ofNat hw (by omega) hsize] at hover
    have hmod : (size.toNat / 512 * 512 + size.toNat) % 2 ^ w =
        size.toNat / 512 * 512 + size.toNat - 2 ^ w := by
      rw [Nat.mod_eq_sub_mod (by omega), Nat.mod_eq_of_lt (by omega)]
    have hle := hover.mp ⟨by omega, by omega, Nat.le_refl _⟩
    omega
  · intro hwrap pos n hpos hn
    exact inside_iff_le hw size hwrap hpos hn

theorem inside_iff_le_iff_64 :
    (∀ pos n : Nat, pos * 512 < 2 ^ 64 → n < 2 ^ 32 →
      (Inside 4096 (BitVec.ofNat 64 (pos * 512)) (BitVec.ofNat 64 n) ↔
        pos * 512 + n ≤ (4096 : BitVec 32).toNat)) ↔
    (4096 : BitVec 32).toNat / 512 * 512 + (4096 : BitVec 32).toNat < 2 ^ 64 :=
  inside_iff_le_iff (by decide) 4096

end Range

/-! ## The calls for a segment -/

section Calls

variable {σ τ : Type*}

/-- Offset and size of the first `m` chunks of `len` bytes from `p` on. -/
def firstCalls (p len m : Nat) : List (Nat × Nat) :=
  (List.range m).map fun i =>
    (p + i * kreeReleasecmMaxSize, min kreeReleasecmMaxSize (len - i * kreeReleasecmMaxSize))

def chunkCalls (p len : Nat) : List (Nat × Nat) :=
  firstCalls p len (chunksOf kreeReleasecmMaxSize len)

/-- Offset and bytes of the first `m` chunks of a buffer. -/
def firstWrites (p : Nat) (buffer : List UInt8) (m : Nat) : List (Nat × List UInt8) :=
  (List.range m).map fun i =>
    (p + i * kreeReleasecmMaxSize, slice buffer (i * kreeReleasecmMaxSize) kreeReleasecmMaxSize)

def chunkWrites (p : Nat) (buffer : List UInt8) : List (Nat × List UInt8) :=
  firstWrites p buffer (chunksOf kreeReleasecmMaxSize buffer.length)

/-- What reads one after the other do, with what each of them stores. -/
def App.reads (app : App σ τ) (session : σ) (calls : List (Nat × Nat)) (tz : τ) :
    τ × List (Nat → Option UInt8) :=
  calls.foldl (fun s call =>
    let (tz, stored) := app.kreeReadSecurechunkmem session (BitVec.ofNat 32 call.1)
      (BitVec.ofNat 32 call.2) s.1
    (tz, s.2 ++ [stored])) (tz, [])

/-- What writes one after the other do. -/
def App.writes (app : App σ τ) (session : σ) (calls : List (Nat × List UInt8)) (tz : τ) : τ :=
  calls.foldl (fun tz call =>
    app.kreeWriteSecurechunkmem session (BitVec.ofNat 32 call.1) (BitVec.ofNat 32 call.2.length)
      call.2 tz) tz

/-- The buffer behind the reads of its chunks. -/
def collected (answers : List (Nat → Option UInt8)) (buffer : List UInt8) : List UInt8 :=
  buffer.mapIdx fun k b =>
    ((answers[k / kreeReleasecmMaxSize]?).bind fun stored =>
      stored (k % kreeReleasecmMaxSize)).getD b

theorem kreeReleasecmMaxSize_pos : 0 < kreeReleasecmMaxSize := by decide

theorem firstCalls_succ (p len m : Nat) :
    firstCalls p len (m + 1) = firstCalls p len m ++ [(p + m * kreeReleasecmMaxSize,
      min kreeReleasecmMaxSize (len - m * kreeReleasecmMaxSize))] := by
  rw [firstCalls, List.range_succ, List.map_append]
  rfl

theorem firstWrites_succ (p : Nat) (buffer : List UInt8) (m : Nat) :
    firstWrites p buffer (m + 1) = firstWrites p buffer m ++ [(p + m * kreeReleasecmMaxSize,
      slice buffer (m * kreeReleasecmMaxSize) kreeReleasecmMaxSize)] := by
  rw [firstWrites, List.range_succ, List.map_append]
  rfl

/-- The chunks lie in the stretch. -/
theorem chunkCalls_le {p len : Nat} {call : Nat × Nat} (h : call ∈ chunkCalls p len) :
    p ≤ call.1 ∧ call.1 + call.2 ≤ p + len := by
  obtain ⟨i, hi, rfl⟩ := List.mem_map.mp h
  have hlt := mul_lt_of_lt_chunksOf (List.mem_range.mp hi)
  simp only
  omega

theorem chunkWrites_le {p : Nat} {buffer : List UInt8} {call : Nat × List UInt8}
    (h : call ∈ chunkWrites p buffer) :
    p ≤ call.1 ∧ call.1 + call.2.length ≤ p + buffer.length := by
  obtain ⟨i, hi, rfl⟩ := List.mem_map.mp h
  have hlt := mul_lt_of_lt_chunksOf (List.mem_range.mp hi)
  simp only [slice, List.length_take, List.length_drop]
  omega

/-- The chunks make up the buffer. -/
theorem firstWrites_flatMap (p : Nat) (buffer : List UInt8) (m : Nat) :
    (firstWrites p buffer m).flatMap Prod.snd = buffer.take (m * kreeReleasecmMaxSize) := by
  induction m with
  | zero => simp [firstWrites]
  | succ m ih =>
    rw [firstWrites_succ, List.flatMap_append, ih, Nat.succ_mul, List.take_add]
    simp [slice]

theorem chunkWrites_flatMap (p : Nat) (buffer : List UInt8) :
    (chunkWrites p buffer).flatMap Prod.snd = buffer := by
  rw [chunkWrites, firstWrites_flatMap]
  exact List.take_of_length_le (le_chunksOf_mul kreeReleasecmMaxSize_pos _)

theorem App.reads_snoc (app : App σ τ) (session : σ) (calls : List (Nat × Nat))
    (call : Nat × Nat) (tz : τ) :
    app.reads session (calls ++ [call]) tz =
      ((app.kreeReadSecurechunkmem session (BitVec.ofNat 32 call.1) (BitVec.ofNat 32 call.2)
          (app.reads session calls tz).1).1,
        (app.reads session calls tz).2 ++ [(app.kreeReadSecurechunkmem session
          (BitVec.ofNat 32 call.1) (BitVec.ofNat 32 call.2)
          (app.reads session calls tz).1).2]) := by
  rw [App.reads, List.foldl_append]
  rfl

theorem App.writes_snoc (app : App σ τ) (session : σ) (calls : List (Nat × List UInt8))
    (call : Nat × List UInt8) (tz : τ) :
    app.writes session (calls ++ [call]) tz =
      app.kreeWriteSecurechunkmem session (BitVec.ofNat 32 call.1)
        (BitVec.ofNat 32 call.2.length) call.2 (app.writes session calls tz) := by
  rw [App.writes, List.foldl_append]
  rfl

end Calls

section Segments

variable {σ τ : Type*} {w p n len : Nat} {app : App σ τ} {session : σ} {size : BitVec 32}

theorem ofNat_toNat_of_lt (h : n < 2 ^ 32) : (BitVec.ofNat 32 n).toNat = n := by
  rw [BitVec.toNat_ofNat, Nat.mod_eq_of_lt h]

theorem chunkOffset_eq (hw : 32 ≤ w) {i : Nat} (h : p + i * kreeReleasecmMaxSize < 2 ^ 32) :
    chunkOffset (BitVec.ofNat w p) i = BitVec.ofNat 32 (p + i * kreeReleasecmMaxSize) := by
  have hpow : 2 ^ 32 ≤ 2 ^ w := Nat.pow_le_pow_right (by decide) hw
  have hstart : (BitVec.ofNat w p).toNat = p := by
    rw [BitVec.toNat_ofNat, Nat.mod_eq_of_lt (by omega)]
  have hmul : ((BitVec.ofNat 32 (i * kreeReleasecmMaxSize)).setWidth w).toNat =
      i * kreeReleasecmMaxSize := by
    rw [BitVec.toNat_setWidth, ofNat_toNat_of_lt (by omega), Nat.mod_eq_of_lt (by omega)]
  have hsum : p + i * kreeReleasecmMaxSize < 2 ^ w := by omega
  apply BitVec.eq_of_toNat_eq
  rw [chunkOffset, BitVec.toNat_setWidth, BitVec.toNat_add, hstart, hmul, Nat.mod_eq_of_lt hsum,
    BitVec.toNat_ofNat]

theorem collected_nil (buffer : List UInt8) : collected [] buffer = buffer := by
  apply List.ext_getElem?
  simp [collected]

/-- One more chunk is collected. -/
theorem overlay_collected {answers : List (Nat → Option UInt8)} {buffer : List UInt8}
    (stored : Nat → Option UInt8) :
    overlay (collected answers buffer) (answers.length * kreeReleasecmMaxSize)
        (min kreeReleasecmMaxSize (buffer.length - answers.length * kreeReleasecmMaxSize)) stored =
      collected (answers ++ [stored]) buffer := by
  apply List.ext_getElem?
  intro k
  simp only [overlay, collected, List.getElem?_mapIdx]
  cases hb : buffer[k]? with
  | none => rfl
  | some b =>
    have hk : k < buffer.length := (List.getElem?_eq_some_iff.mp hb).1
    have hdiv := Nat.div_add_mod k kreeReleasecmMaxSize
    have hmod := Nat.mod_lt k kreeReleasecmMaxSize_pos
    simp only [Option.map_some, Option.some.injEq]
    by_cases hbefore : k / kreeReleasecmMaxSize < answers.length
    · have hmul : (k / kreeReleasecmMaxSize + 1) * kreeReleasecmMaxSize ≤
          answers.length * kreeReleasecmMaxSize := Nat.mul_le_mul_right _ hbefore
      rw [Nat.succ_mul] at hmul
      rw [if_neg (by rw [Nat.mul_comm] at hdiv; omega), List.getElem?_append_left hbefore]
    · by_cases hhere : k / kreeReleasecmMaxSize = answers.length
      · rw [hhere, Nat.mul_comm] at hdiv
        rw [if_pos (by omega), hhere, List.getElem?_concat_length, List.getElem?_eq_none
          (Nat.le_refl _), ← show k - answers.length * kreeReleasecmMaxSize =
            k % kreeReleasecmMaxSize by omega]
        rfl
      · have hmul : (answers.length + 1) * kreeReleasecmMaxSize ≤
            k / kreeReleasecmMaxSize * kreeReleasecmMaxSize := Nat.mul_le_mul_right _ (by omega)
        rw [Nat.succ_mul] at hmul
        rw [if_neg (by rw [Nat.mul_comm] at hdiv; omega), List.getElem?_eq_none (by omega),
          List.getElem?_eq_none (by rw [List.length_append, List.length_singleton]; omega)]

variable (app session) in
theorem foldl_readChunk (hw : 32 ≤ w) {buffer : List UInt8} (hle : p + buffer.length < 2 ^ 32)
    (tz : τ) {m : Nat} (hm : m ≤ chunksOf kreeReleasecmMaxSize buffer.length) :
    (app.reads session (firstCalls p buffer.length m) tz).2.length = m ∧
    (List.range m).foldl (fun s i => readChunk app session (BitVec.ofNat w p) i
        (min kreeReleasecmMaxSize (buffer.length - i * kreeReleasecmMaxSize)) s) (tz, buffer) =
      ((app.reads session (firstCalls p buffer.length m) tz).1,
        collected (app.reads session (firstCalls p buffer.length m) tz).2 buffer) := by
  induction m with
  | zero =>
    refine ⟨rfl, ?_⟩
    show (tz, buffer) = (tz, collected [] buffer)
    rw [collected_nil]
  | succ m ih =>
    obtain ⟨hlength, hfold⟩ := ih (by omega)
    have hlt := mul_lt_of_lt_chunksOf (show m < chunksOf kreeReleasecmMaxSize buffer.length by
      omega)
    rw [firstCalls_succ, App.reads_snoc, List.range_succ, List.foldl_append, hfold]
    refine ⟨by rw [List.length_append, hlength]; rfl, ?_⟩
    simp only [List.foldl_cons, List.foldl_nil, readChunk]
    rw [chunkOffset_eq hw (by omega), ofNat_toNat_of_lt (by omega), ← overlay_collected, hlength]

variable (app session) in
/-- A read of a segment is the reads of its chunks. -/
theorem inChunks_read (hw : 32 ≤ w) {buffer : List UInt8} (hle : p + buffer.length < 2 ^ 32)
    (tz : τ) :
    inChunks kreeReleasecmMaxSize (readChunk app session (BitVec.ofNat w p)) buffer.length
        (tz, buffer) =
      ((app.reads session (chunkCalls p buffer.length) tz).1,
        collected (app.reads session (chunkCalls p buffer.length) tz).2 buffer) := by
  rw [inChunks_eq_foldl _ _ kreeReleasecmMaxSize_pos]
  exact (foldl_readChunk app session hw hle tz (Nat.le_refl _)).2

variable (app session) in
/-- A write of a segment is the writes of its chunks. -/
theorem inChunks_write (hw : 32 ≤ w) {buffer : List UInt8} (hle : p + buffer.length < 2 ^ 32)
    (tz : τ) :
    inChunks kreeReleasecmMaxSize (writeChunk app session (BitVec.ofNat w p)) buffer.length
        (tz, buffer) = (app.writes session (chunkWrites p buffer) tz, buffer) := by
  have hall : ∀ m, m ≤ chunksOf kreeReleasecmMaxSize buffer.length →
      (List.range m).foldl (fun s i => writeChunk app session (BitVec.ofNat w p) i
          (min kreeReleasecmMaxSize (buffer.length - i * kreeReleasecmMaxSize)) s) (tz, buffer) =
        (app.writes session (firstWrites p buffer m) tz, buffer) := by
    intro m hm
    induction m with
    | zero => rfl
    | succ m ih =>
      have hlt := mul_lt_of_lt_chunksOf (show m < chunksOf kreeReleasecmMaxSize buffer.length by
        omega)
      have hslice : slice buffer (m * kreeReleasecmMaxSize)
            (min kreeReleasecmMaxSize (buffer.length - m * kreeReleasecmMaxSize)) =
          slice buffer (m * kreeReleasecmMaxSize) kreeReleasecmMaxSize := by
        rw [slice, slice, ← List.length_drop, List.take_eq_take_min (i := kreeReleasecmMaxSize)]
      have hlength : (slice buffer (m * kreeReleasecmMaxSize) kreeReleasecmMaxSize).length =
          min kreeReleasecmMaxSize (buffer.length - m * kreeReleasecmMaxSize) := by
        rw [slice, List.length_take, List.length_drop]
      rw [firstWrites_succ, App.writes_snoc, List.range_succ, List.foldl_append, ih (by omega)]
      simp only [List.foldl_cons, List.foldl_nil, writeChunk]
      rw [chunkOffset_eq hw (by omega), ofNat_toNat_of_lt (by omega), hslice, hlength]
  rw [inChunks_eq_foldl _ _ kreeReleasecmMaxSize_pos]
  exact hall _ (Nat.le_refl _)

theorem ofNat_length_toNat (hw : 32 ≤ w) (seg : Segment) :
    (BitVec.ofNat w seg.buffer.length).toNat = seg.buffer.length := by
  have hpow : 2 ^ 32 ≤ 2 ^ w := Nat.pow_le_pow_right (by decide) hw
  have hsmall := seg.small
  rw [BitVec.toNat_ofNat, Nat.mod_eq_of_lt (by omega)]

variable (app session) in
theorem doSegment_read (hw : 32 ≤ w) {pos : Nat} {seg : Segment}
    (hle : pos * 512 + seg.buffer.length ≤ size.toNat) (tz : τ) :
    doSegment w app session size .read pos seg tz =
      ((app.reads session (chunkCalls (pos * 512) seg.buffer.length) tz).1,
        { err := 0
          buffer := collected
            (app.reads session (chunkCalls (pos * 512) seg.buffer.length) tz).2 seg.buffer }) := by
  have hsize := size.isLt
  simp only [doSegment, if_pos (inside_of_le hw hle), ofNat_length_toNat hw]
  rw [inChunks_read app session hw (by omega)]

variable (app session) in
theorem doSegment_write (hw : 32 ≤ w) {pos : Nat} {seg : Segment}
    (hle : pos * 512 + seg.buffer.length ≤ size.toNat) (tz : τ) :
    doSegment w app session size .write pos seg tz =
      (app.writes session (chunkWrites (pos * 512) seg.buffer) tz,
        { err := 0, buffer := seg.buffer }) := by
  have hsize := size.isLt
  simp only [doSegment, if_pos (inside_of_le hw hle), ofNat_length_toNat hw]
  rw [inChunks_write app session hw (by omega)]

variable (app session) in
/-- A segment inside is reported as done whatever the application does with its calls,
which are one for each chunk, in order, and stay in the segment.  A read leaves each byte
of the buffer as the call for its chunk has stored it or as it was, and a write hands
over exactly the bytes of the buffer. -/
theorem doSegment_inside (hw : 32 ≤ w) {pos : Nat} {seg : Segment}
    (hle : pos * 512 + seg.buffer.length ≤ size.toNat) (tz : τ) :
    (doSegment w app session size .read pos seg tz =
        ((app.reads session (chunkCalls (pos * 512) seg.buffer.length) tz).1,
          { err := 0
            buffer := collected
              (app.reads session (chunkCalls (pos * 512) seg.buffer.length) tz).2 seg.buffer }) ∧
      ∀ call ∈ chunkCalls (pos * 512) seg.buffer.length, pos * 512 ≤ call.1 ∧
        call.1 + call.2 ≤ pos * 512 + seg.buffer.length) ∧
    doSegment w app session size .write pos seg tz =
        (app.writes session (chunkWrites (pos * 512) seg.buffer) tz,
          { err := 0, buffer := seg.buffer }) ∧
      (∀ call ∈ chunkWrites (pos * 512) seg.buffer, pos * 512 ≤ call.1 ∧
        call.1 + call.2.length ≤ pos * 512 + seg.buffer.length) ∧
      (chunkWrites (pos * 512) seg.buffer).flatMap Prod.snd = seg.buffer :=
  ⟨⟨doSegment_read app session hw hle tz, fun _ hcall => chunkCalls_le hcall⟩,
    doSegment_write app session hw hle tz, fun _ hcall => chunkWrites_le hcall,
    chunkWrites_flatMap _ _⟩

/-- Two chunks of sevens. -/
def sevens : Segment where
  buffer := List.replicate 8192 7
  small := by
    rw [List.length_replicate]
    decide

/-- It serves only every second call, with eights. -/
def everySecond : App Unit Nat where
  kreeReadSecurechunkmem _ _ _ n := (n + 1, fun _ => if n % 2 = 1 then some 8 else none)
  kreeWriteSecurechunkmem _ _ _ _ n := n + 1

theorem doSegment_inside_sevens :
    doSegment 32 everySecond () 8192 .read 0 sevens 0 =
        (2, { err := 0, buffer := collected [fun _ => none, fun _ => some 8] sevens.buffer }) ∧
      (doSegment 32 everySecond () 8192 .write 0 sevens 0).2 =
        { err := 0, buffer := sevens.buffer } := by
  have hlength : sevens.buffer.length = 8192 := List.length_replicate
  have hreads : everySecond.reads () (chunkCalls (0 * 512) 8192) 0 =
      (2, [fun _ => none, fun _ => some 8]) := rfl
  have hle : 0 * 512 + sevens.buffer.length ≤ (8192 : BitVec 32).toNat := by
    rw [hlength]
    decide
  obtain ⟨⟨hread, _⟩, hwrite, _⟩ := doSegment_inside everySecond () (Nat.le_refl 32) hle 0
  rw [hread, hwrite, hlength, hreads]
  exact ⟨rfl, rfl⟩

end Segments

/-! ## The device as one flat array -/

section Disk

variable {N : Nat} (size : Nat)

/-- One transfer, refused behind the size. -/
def Disk.segment (dir : DataDir) (p : Nat) (buffer : List UInt8) (disk : Cells UInt8 N) :
    Cells UInt8 N × Completion :=
  if p + buffer.length ≤ size then
    match dir with
    | .read => (disk, { err := 0, buffer := disk.read p buffer.length })
    | .write => (disk.write p buffer, { err := 0, buffer })
  else (disk, { err := - Linux.EIO, buffer })

def Disk.segments (dir : DataDir) :
    Nat → List Segment → Cells UInt8 N → Cells UInt8 N × List Completion
  | _, [], disk => (disk, [])
  | p, seg :: segs, disk =>
    let (disk, c) := Disk.segment size dir p seg.buffer disk
    let (disk, cs) := Disk.segments dir (p + seg.buffer.length) segs disk
    (disk, c :: cs)

def Disk.serve : List Request → Cells UInt8 N → Cells UInt8 N × List (List Completion)
  | [], disk => (disk, [])
  | req :: q, disk =>
    let (disk, cs) := Disk.segments size req.dir (req.pos * 512) req.segments disk
    let (disk, css) := Disk.serve q disk
    (disk, cs :: css)

end Disk

/-- The bytes of some segments. -/
def bytesOf : List Segment → Nat
  | [] => 0
  | seg :: segs => seg.buffer.length + bytesOf segs

/-- Segments of whole sectors, all of whose places an `unsigned long` can hold. -/
structure Request.Addressable (w : Nat) (req : Request) : Prop where
  sectors : ∀ seg ∈ req.segments, seg.buffer.length % 512 = 0
  fits : req.pos * 512 + bytesOf req.segments < 2 ^ w

section Refines

variable {σ τ : Type*} {N w p : Nat} {app : App σ τ} {session : σ} {mem : τ → Cells UInt8 N}
  {size : BitVec 32}

/-- In a session, the application keeps a memory of `N` bytes: what lies inside is read
and written there, and a read leaves it as it is. -/
structure App.Keeps (app : App σ τ) (session : σ) (mem : τ → Cells UInt8 N) : Prop where
  read : ∀ (offset size : BitVec 32) (tz : τ), offset.toNat + size.toNat ≤ N →
    mem (app.kreeReadSecurechunkmem session offset size tz).1 = mem tz ∧
      ∀ (k : Nat) (hk : offset.toNat + k < N), k < size.toNat →
        (app.kreeReadSecurechunkmem session offset size tz).2 k =
          some (mem tz ⟨offset.toNat + k, hk⟩)
  write : ∀ (offset size : BitVec 32) (bytes : List UInt8) (tz : τ),
    offset.toNat + size.toNat ≤ N → bytes.length = size.toNat →
      mem (app.kreeWriteSecurechunkmem session offset size bytes tz) =
        (mem tz).write offset.toNat bytes

theorem App.Keeps.writes (h : app.Keeps session mem) {buffer : List UInt8}
    (hle : p + buffer.length ≤ N) (hN : p + buffer.length < 2 ^ 32) (tz : τ) :
    mem (app.writes session (chunkWrites p buffer) tz) = (mem tz).write p buffer := by
  have hall : ∀ m, m ≤ chunksOf kreeReleasecmMaxSize buffer.length →
      mem (app.writes session (firstWrites p buffer m) tz) =
        (mem tz).write p (buffer.take (m * kreeReleasecmMaxSize)) := by
    intro m hm
    induction m with
    | zero =>
      funext j
      rw [Cells.write_of_not_mem _ (by simp)]
      rfl
    | succ m ih =>
      have hlt := mul_lt_of_lt_chunksOf (show m < chunksOf kreeReleasecmMaxSize buffer.length by
        omega)
      have hchunk : (slice buffer (m * kreeReleasecmMaxSize) kreeReleasecmMaxSize).length ≤
          buffer.length - m * kreeReleasecmMaxSize := by
        rw [slice, List.length_take, List.length_drop]
        exact Nat.min_le_right _ _
      have hoffset : (BitVec.ofNat 32 (p + m * kreeReleasecmMaxSize)).toNat =
          p + m * kreeReleasecmMaxSize := ofNat_toNat_of_lt (by omega)
      have hlength := ofNat_toNat_of_lt (show (slice buffer (m * kreeReleasecmMaxSize)
        kreeReleasecmMaxSize).length < 2 ^ 32 by omega)
      have htake : (buffer.take (m * kreeReleasecmMaxSize)).length = m * kreeReleasecmMaxSize := by
        rw [List.length_take]
        omega
      rw [firstWrites_succ, App.writes_snoc, h.write _ _ _ _ (by rw [hoffset, hlength]; omega)
        hlength.symm, ih (by omega), hoffset, Nat.succ_mul, List.take_add, ← Cells.write_append,
        htake]
      rfl
  rw [chunkWrites, hall _ (Nat.le_refl _),
    List.take_of_length_le (le_chunksOf_mul kreeReleasecmMaxSize_pos _)]

/-- Reads find the memory as it is, each its own chunk. -/
theorem App.Keeps.reads (h : app.Keeps session mem) {len : Nat} (hle : p + len ≤ N)
    (hN : p + len < 2 ^ 32) (tz : τ) {m : Nat} (hm : m ≤ chunksOf kreeReleasecmMaxSize len) :
    mem (app.reads session (firstCalls p len m) tz).1 = mem tz ∧
      (app.reads session (firstCalls p len m) tz).2.length = m ∧
      ∀ i < m, ∀ k (hk : p + i * kreeReleasecmMaxSize + k < N),
        k < min kreeReleasecmMaxSize (len - i * kreeReleasecmMaxSize) →
        ((app.reads session (firstCalls p len m) tz).2[i]?.bind fun stored => stored k) =
          some (mem tz ⟨p + i * kreeReleasecmMaxSize + k, hk⟩) := by
  induction m with
  | zero => exact ⟨rfl, rfl, fun i hi => absurd hi (Nat.not_lt_zero i)⟩
  | succ m ih =>
    obtain ⟨hmem, hlength, hstored⟩ := ih (by omega)
    have hlt := mul_lt_of_lt_chunksOf (show m < chunksOf kreeReleasecmMaxSize len by omega)
    have hoffset : (BitVec.ofNat 32 (p + m * kreeReleasecmMaxSize)).toNat =
        p + m * kreeReleasecmMaxSize := ofNat_toNat_of_lt (by omega)
    have hsize := ofNat_toNat_of_lt (show min kreeReleasecmMaxSize
      (len - m * kreeReleasecmMaxSize) < 2 ^ 32 by omega)
    have hread := h.read (BitVec.ofNat 32 (p + m * kreeReleasecmMaxSize))
      (BitVec.ofNat 32 (min kreeReleasecmMaxSize (len - m * kreeReleasecmMaxSize)))
      (app.reads session (firstCalls p len m) tz).1 (by rw [hoffset, hsize]; omega)
    rw [firstCalls_succ, App.reads_snoc]
    refine ⟨hread.1.trans hmem, by rw [List.length_append, hlength]; rfl, fun i hi k hk hlt' => ?_⟩
    by_cases heq : i = m
    · subst heq
      have hone := hread.2 k (by rw [hoffset]; exact hk) (by rw [hsize]; exact hlt')
      simp only [hoffset, hmem] at hone
      rw [List.getElem?_append_right (by omega), hlength, Nat.sub_self]
      exact hone
    · rw [List.getElem?_append_left (by omega)]
      exact hstored i (by omega) k hk hlt'

theorem App.Keeps.collected_eq (h : app.Keeps session mem) {buffer : List UInt8}
    (hle : p + buffer.length ≤ N) (hN : p + buffer.length < 2 ^ 32) (tz : τ) :
    collected (app.reads session (chunkCalls p buffer.length) tz).2 buffer =
      (mem tz).read p buffer.length := by
  obtain ⟨_, _, hstored⟩ := h.reads hle hN tz (Nat.le_refl _)
  apply List.ext_getElem
  · rw [collected, List.length_mapIdx, Cells.length_read]
    omega
  · intro k hk hk'
    have hklt : k < buffer.length := by rwa [collected, List.length_mapIdx] at hk
    have hdiv := Nat.div_add_mod' k kreeReleasecmMaxSize
    have hmod := Nat.mod_lt k kreeReleasecmMaxSize_pos
    have hchunk : k / kreeReleasecmMaxSize < chunksOf kreeReleasecmMaxSize buffer.length := by
      rw [Nat.div_lt_iff_lt_mul kreeReleasecmMaxSize_pos]
      exact Nat.lt_of_lt_of_le hklt (le_chunksOf_mul kreeReleasecmMaxSize_pos _)
    have hone := hstored _ hchunk (k % kreeReleasecmMaxSize) (by omega) (by omega)
    rw [Cells.getElem_read]
    simp only [collected, List.getElem_mapIdx, chunkCalls, hone, Option.getD_some]
    congr 2
    omega

theorem doSegment_eq (hw : 32 ≤ w) (h : app.Keeps session mem) (hN : size.toNat ≤ N)
    (hwrap : size.toNat / 512 * 512 + size.toNat < 2 ^ w) {pos : Nat} (hpos : pos * 512 < 2 ^ w)
    (dir : DataDir) (seg : Segment) (tz : τ) :
    mem (doSegment w app session size dir pos seg tz).1 =
        (Disk.segment size.toNat dir (pos * 512) seg.buffer (mem tz)).1 ∧
      (doSegment w app session size dir pos seg tz).2 =
        (Disk.segment size.toNat dir (pos * 512) seg.buffer (mem tz)).2 := by
  have hcheck := inside_iff_le hw size hwrap hpos seg.small
  by_cases hle : pos * 512 + seg.buffer.length ≤ size.toNat
  · have hlt : pos * 512 + seg.buffer.length < 2 ^ 32 := Nat.lt_of_le_of_lt hle size.isLt
    simp only [Disk.segment, if_pos hle]
    cases dir with
    | read =>
      rw [doSegment_read app session hw hle]
      exact ⟨(h.reads (hle.trans hN) hlt tz (Nat.le_refl _)).1, by
        rw [h.collected_eq (hle.trans hN) hlt]⟩
    | write =>
      rw [doSegment_write app session hw hle]
      exact ⟨h.writes (hle.trans hN) hlt tz, rfl⟩
  · simp only [doSegment, Disk.segment, if_neg fun h => hle (hcheck.mp h), if_neg hle]
    exact ⟨trivial, trivial⟩

theorem doSegments_eq (hw : 32 ≤ w) (h : app.Keeps session mem) (hN : size.toNat ≤ N)
    (hwrap : size.toNat / 512 * 512 + size.toNat < 2 ^ w) (dir : DataDir) {pos : Nat}
    {segs : List Segment} (hsectors : ∀ seg ∈ segs, seg.buffer.length % 512 = 0)
    (hfits : pos * 512 + bytesOf segs < 2 ^ w) (tz : τ) :
    mem (doSegments w app session size dir pos segs tz).1 =
        (Disk.segments size.toNat dir (pos * 512) segs (mem tz)).1 ∧
      (doSegments w app session size dir pos segs tz).2 =
        (Disk.segments size.toNat dir (pos * 512) segs (mem tz)).2 := by
  induction segs generalizing pos tz with
  | nil => exact ⟨rfl, rfl⟩
  | cons seg segs ih =>
    rw [bytesOf] at hfits
    have hdiv : seg.buffer.length / 512 * 512 = seg.buffer.length :=
      Nat.div_mul_cancel (Nat.dvd_of_mod_eq_zero (hsectors seg List.mem_cons_self))
    have hnext : (pos + seg.buffer.length / 512) * 512 = pos * 512 + seg.buffer.length := by
      rw [Nat.add_mul, hdiv]
    have hrest : (pos + seg.buffer.length / 512) * 512 + bytesOf segs < 2 ^ w := by
      rw [hnext, Nat.add_assoc]
      exact hfits
    obtain ⟨hpool, hdone⟩ := doSegment_eq hw h hN hwrap
      (Nat.lt_of_le_of_lt (Nat.le_add_right _ _) hfits) dir seg tz
    obtain ⟨hpools, hdones⟩ := ih (fun s hs => hsectors s (List.mem_cons_of_mem seg hs)) hrest
      (doSegment w app session size dir pos seg tz).1
    rw [hnext, hpool] at hpools hdones
    simp only [doSegments, Disk.segments]
    rw [hpools, hdone, hdones]
    exact ⟨rfl, rfl⟩

theorem doTzmemBlkRequest_eq (hw : 32 ≤ w) (h : app.Keeps session mem)
    (hN : size.toNat ≤ N) (hwrap : size.toNat / 512 * 512 + size.toNat < 2 ^ w)
    {q : List Request} (hq : ∀ req ∈ q, req.Addressable w) (tz : τ) :
    mem (doTzmemBlkRequest w app session size q tz).1 = (Disk.serve size.toNat q (mem tz)).1 ∧
      (doTzmemBlkRequest w app session size q tz).2 = (Disk.serve size.toNat q (mem tz)).2 := by
  induction q generalizing tz with
  | nil => exact ⟨rfl, rfl⟩
  | cons req q ih =>
    have hreq := hq req List.mem_cons_self
    obtain ⟨hpool, hdone⟩ :=
      doSegments_eq hw h hN hwrap req.dir hreq.sectors hreq.fits tz
    obtain ⟨hpools, hdones⟩ := ih (fun r hr => hq r (List.mem_cons_of_mem req hr))
      (doSegments w app session size req.dir req.pos req.segments tz).1
    rw [hpool] at hpools hdones
    simp only [doTzmemBlkRequest, Disk.serve]
    rw [hpools, hdone, hdones]
    exact ⟨rfl, rfl⟩

end Refines

/-! ## What a read finds -/

section Stores

variable {N : Nat} {size : Nat}

/-- What the segments of a request store, where they are inside. -/
def storesFrom (size : Nat) : Nat → List Segment → List (Cells.Change UInt8)
  | _, [] => []
  | p, seg :: segs =>
    (if p + seg.buffer.length ≤ size then [.store p seg.buffer] else []) ++
      storesFrom size (p + seg.buffer.length) segs

def Request.stores (size : Nat) (req : Request) : List (Cells.Change UInt8) :=
  match req.dir with
  | .read => []
  | .write => storesFrom size (req.pos * 512) req.segments

theorem segments_read (p : Nat) (segs : List Segment) (disk : Cells UInt8 N) :
    (Disk.segments size .read p segs disk).1 = disk := by
  induction segs generalizing p with
  | nil => rfl
  | cons seg segs ih =>
    have hone : (Disk.segment size .read p seg.buffer disk).1 = disk := by
      rw [Disk.segment]
      split <;> rfl
    rw [Disk.segments]
    simp only [hone]
    exact ih (p + seg.buffer.length)

theorem segments_write (p : Nat) (segs : List Segment) (disk : Cells UInt8 N) :
    (Disk.segments size .write p segs disk).1 = disk.applyAll (storesFrom size p segs) := by
  induction segs generalizing p disk with
  | nil => rfl
  | cons seg segs ih =>
    rw [Disk.segments, storesFrom, Cells.applyAll_append]
    simp only [ih]
    congr 1
    rw [Disk.segment]
    split <;> rfl

theorem serve_eq (q : List Request) (disk : Cells UInt8 N) :
    (Disk.serve size q disk).1 = disk.applyAll (q.flatMap (Request.stores size)) := by
  induction q generalizing disk with
  | nil => rfl
  | cons req q ih =>
    rw [Disk.serve, List.flatMap_cons, Cells.applyAll_append]
    simp only [ih]
    congr 1
    rw [Request.stores]
    cases req.dir with
    | read => exact segments_read _ _ _
    | write => exact segments_write _ _ _

/-- A read inside is one transfer of all its segments. -/
theorem segments_inside {p : Nat} {segs : List Segment} (hle : p + bytesOf segs ≤ size)
    (disk : Cells UInt8 N) :
    (∀ c ∈ (Disk.segments size .read p segs disk).2, c.err = 0) ∧
      (Disk.segments size .read p segs disk).2.flatMap Completion.buffer =
        disk.read p (bytesOf segs) := by
  induction segs generalizing p with
  | nil => exact ⟨by simp [Disk.segments], by simp [Disk.segments, bytesOf, Cells.read]⟩
  | cons seg segs ih =>
    rw [bytesOf] at hle ⊢
    obtain ⟨herr, hbytes⟩ := ih (p := p + seg.buffer.length) (by omega)
    have hone : Disk.segment size .read p seg.buffer disk =
        (disk, { err := 0, buffer := disk.read p seg.buffer.length }) := by
      rw [Disk.segment, if_pos (by omega)]
    rw [Disk.segments, hone]
    refine ⟨fun c hc => ?_, ?_⟩
    · rcases List.mem_cons.mp hc with rfl | hc
      · rfl
      · exact herr c hc
    · simp only [List.flatMap_cons, hbytes, Cells.read_append]

theorem serve_append (q r : List Request) (disk : Cells UInt8 N) :
    (Disk.serve size (q ++ r) disk).2 =
      (Disk.serve size q disk).2 ++ (Disk.serve size r (Disk.serve size q disk).1).2 := by
  induction q generalizing disk with
  | nil => rfl
  | cons req q ih =>
    rw [List.cons_append, Disk.serve]
    simp only [ih]
    rfl

end Stores

section Reads

variable {σ τ : Type*} {N w : Nat} {app : App σ τ} {session : σ} {mem : τ → Cells UInt8 N}
  {size : BitVec 32}

/-- As long as the application keeps a memory and the range check cannot overflow: a read
inside, behind any queue of requests of whole sectors, finds in each of its bytes what
the last write of the queue that covers it and lies inside has stored there, or else what
was there at first. -/
theorem read_last_stored (hw : 32 ≤ w) (h : app.Keeps session mem) (hN : size.toNat ≤ N)
    (hwrap : size.toNat / 512 * 512 + size.toNat < 2 ^ w) {q : List Request} {req : Request}
    (hq : ∀ r ∈ q ++ [req], r.Addressable w) (hdir : req.dir = .read)
    (hle : req.pos * 512 + bytesOf req.segments ≤ size.toNat) (tz : τ) :
    ∃ css cs, (doTzmemBlkRequest w app session size (q ++ [req]) tz).2 = css ++ [cs] ∧
      (∀ c ∈ cs, c.err = 0) ∧ (cs.flatMap Completion.buffer).length = bytesOf req.segments ∧
      ∀ k : Fin N, req.pos * 512 ≤ k → (k : Nat) < req.pos * 512 + bytesOf req.segments →
        (cs.flatMap Completion.buffer)[(k : Nat) - req.pos * 512]? =
          some (Cells.lastAt (mem tz k) k (q.flatMap (Request.stores size.toNat))) := by
  have hdone := (doTzmemBlkRequest_eq hw h hN hwrap hq tz).2
  obtain ⟨herr, hbytes⟩ := segments_inside hle (Disk.serve size.toNat q (mem tz)).1
  refine ⟨(Disk.serve size.toNat q (mem tz)).2,
    (Disk.segments size.toNat .read (req.pos * 512) req.segments
      (Disk.serve size.toNat q (mem tz)).1).2, ?_, herr, ?_, fun k hge hlt => ?_⟩
  · rw [hdone, serve_append]
    simp only [Disk.serve, hdir]
  · rw [hbytes, Cells.length_read]
    omega
  · rw [hbytes, ← Cells.applyAll_at, ← serve_eq, List.getElem?_eq_getElem, Cells.getElem_read]
    · have hbound : req.pos * 512 + (k - req.pos * 512) < N := by
        rw [Nat.add_sub_cancel' hge]
        exact k.isLt
      have hk : (⟨req.pos * 512 + (k - req.pos * 512), hbound⟩ : Fin N) = k :=
        Fin.ext (Nat.add_sub_cancel' hge)
      rw [hk]
    · rw [Cells.length_read]
      omega

/-- A plain memory of `N` bytes. -/
def plain (σ : Type*) (N : Nat) : App σ (Cells UInt8 N) where
  kreeReadSecurechunkmem _ offset size c :=
    (c, fun k => if k < size.toNat then c.flat[offset.toNat + k]? else none)
  kreeWriteSecurechunkmem _ offset _ bytes c := c.write offset.toNat bytes

theorem plain_keeps (session : σ) (N : Nat) :
    (plain σ N).Keeps session (fun c => c) where
  read offset size tz _ := by
    refine ⟨rfl, fun k hk hlt => ?_⟩
    simp only [plain, if_pos hlt, Cells.getElem?_flat, dif_pos hk]
  write offset size bytes tz _ _ := rfl

def transferSevens (dir : DataDir) : Request where
  dir
  pos := 0
  segments := [sevens]

theorem read_last_stored_sevens :
    ∃ css cs, (doTzmemBlkRequest 32 (plain Unit 8192) () 8192
        ([transferSevens .write] ++ [transferSevens .read]) (Cells.fill 0)).2 = css ++ [cs] ∧
      (∀ c ∈ cs, c.err = 0) ∧
      (cs.flatMap Completion.buffer).length = bytesOf (transferSevens .read).segments := by
  have hlength : sevens.buffer.length = 8192 := List.length_replicate
  have hbytes : bytesOf [sevens] = 8192 := by rw [bytesOf, hlength, bytesOf]
  have hsize : (8192 : BitVec 32).toNat = 8192 := by decide
  have hsum : ∀ dir, (transferSevens dir).pos * 512 + bytesOf (transferSevens dir).segments =
      8192 := fun dir => by
    show 0 * 512 + bytesOf [sevens] = 8192
    rw [hbytes]
  have haddressable : ∀ dir, (transferSevens dir).Addressable 32 := fun dir =>
    { sectors := fun seg hseg => by rw [List.mem_singleton.mp hseg, hlength]
      fits := by
        rw [hsum]
        decide }
  have hq : ∀ r ∈ [transferSevens .write] ++ [transferSevens .read], r.Addressable 32 := by
    intro r hr
    rcases List.mem_append.mp hr with hr | hr
    · rw [List.mem_singleton.mp hr]
      exact haddressable .write
    · rw [List.mem_singleton.mp hr]
      exact haddressable .read
  have hle : (transferSevens .read).pos * 512 + bytesOf (transferSevens .read).segments ≤
      (8192 : BitVec 32).toNat := by
    rw [hsum, hsize]
  have hwrap : (8192 : BitVec 32).toNat / 512 * 512 + (8192 : BitVec 32).toNat < 2 ^ 32 := by
    rw [hsize]
    decide
  obtain ⟨css, cs, hdone, herr, hlen, _⟩ := read_last_stored (Nat.le_refl 32)
    (plain_keeps () 8192) (Nat.le_of_eq hsize) hwrap hq rfl hle (Cells.fill 0)
  exact ⟨css, cs, hdone, herr, hlen⟩

end Reads

end TzMem
end AtomDrivers
