/-
What a failed write leaves.

`lcminfo_write` copies from the user straight into the live bytes, so a fault leaves
the prefix that got through, and zeros behind it where the copy clears what it did not
fill.  Everything else is as it was before the call: the position, the semaphore, and
every byte outside the stretch the call would have written.
-/
import AtomDrivers.LcmInfo.ByteFile

namespace AtomDrivers
namespace LcmInfo

open Linux Storage

/-- A write that fails leaves the bytes, the position and the semaphore as they were. -/
def FailsClean (buf : List UInt8) (signal : Bool) (copy : UserCopy) (dev : LcminfoDev)
    (ppos : Loff) : Prop :=
  ∀ dev' ppos' reply, lcminfoWrite buf signal copy dev ppos = some (dev', ppos', reply) →
    reply.ret < 0 → dev'.data = dev.data ∧ ppos' = ppos ∧ dev'.sem = dev.sem

/-- What a copy of `src` to `p` that faults leaves. -/
def leftBy (copy : UserCopy) (src : List UInt8) (p : Nat) (bytes : Cells UInt8 lcminfoSize) :
    Cells UInt8 lcminfoSize :=
  fun i =>
    if h : p ≤ i ∧ i < p + src.length then
      if i - p < copy.copied then src[i - p] else if copy.zeroed then 0 else bytes i
    else bytes i

/-- The bytes that got through were there already, and where the rest is cleared it was
zero. -/
def Harmless (copy : UserCopy) (src : List UInt8) (p : Nat) (bytes : Cells UInt8 lcminfoSize) :
    Prop :=
  ∀ i : Fin lcminfoSize, p ≤ i → i < p + src.length →
    (i - p < copy.copied → src[i - p]? = some (bytes i)) ∧
      (copy.copied ≤ i - p → copy.zeroed = true → bytes i = 0)

theorem leftBy_eq_iff (copy : UserCopy) (src : List UInt8) (p : Nat)
    (bytes : Cells UInt8 lcminfoSize) :
    leftBy copy src p bytes = bytes ↔ Harmless copy src p bytes := by
  constructor
  · intro h i hp hend
    have hi := congrFun h i
    rw [leftBy, dif_pos ⟨hp, hend⟩] at hi
    refine ⟨fun hcopied => ?_, fun hcopied hzeroed => ?_⟩
    · rw [if_pos hcopied] at hi
      rw [List.getElem?_eq_getElem (by omega), hi]
    · rw [if_neg (by omega), if_pos hzeroed] at hi
      exact hi.symm
  · intro h
    funext i
    by_cases hmem : p ≤ i ∧ i < p + src.length
    · obtain ⟨hstored, hcleared⟩ := h i hmem.1 hmem.2
      rw [leftBy, dif_pos hmem]
      by_cases hcopied : i - p < copy.copied
      · have hbyte := hstored hcopied
        rw [List.getElem?_eq_getElem (by omega), Option.some.injEq] at hbyte
        rw [if_pos hcopied, hbyte]
      · rw [if_neg hcopied]
        split
        · rename_i hzeroed
          exact (hcleared (by omega) hzeroed).symm
        · rfl
    · rw [leftBy, dif_neg hmem]

/-! ## The copy -/

/-- Stored into the bytes, the copy leaves what `leftBy` says. -/
theorem splice_copyFromUser (copy : UserCopy) (bytes : Cells UInt8 lcminfoSize) {p : Nat}
    {src : List UInt8} (hfit : p + src.length ≤ lcminfoSize) :
    splice bytes.flat p (copyFromUser copy (slice bytes.flat p src.length) src).1 =
      (leftBy copy src p bytes).flat := by
  have hdst : (slice bytes.flat p src.length).length = src.length :=
    length_slice (by rwa [Cells.length_flat])
  have hlen := length_copyFromUser copy hdst
  rw [Cells.flat_write bytes (by rwa [hlen])]
  congr 1
  funext i
  by_cases hmem : p ≤ i ∧ i < p + src.length
  · have hbyte := getElem?_copyFromUser copy hdst (k := i - p) (by omega)
    rw [List.getElem?_eq_getElem (by omega), Option.some.injEq] at hbyte
    have hold : (slice bytes.flat p src.length)[(i : Nat) - p] = bytes i := by
      simp only [slice, List.getElem_take, List.getElem_drop, Cells.getElem_flat]
      congr 1
      apply Fin.ext
      simp only
      omega
    rw [Cells.write_of_mem bytes hmem.1 (by omega), hbyte, leftBy, dif_pos hmem, hold]
  · rw [Cells.write_of_not_mem bytes (by omega), leftBy, dif_neg hmem]

/-! ## One call -/

/-- The bytes of the user that a write at `p` takes. -/
def source (buf : List UInt8) (p : Nat) : List UInt8 := buf.take (countAt p buf.length)

theorem length_source (buf : List UInt8) (p : Nat) :
    (source buf p).length = countAt p buf.length :=
  List.length_take_of_le (countAt_le p buf.length).1

/-- The stretch as the copy leaves it. -/
def stored (copy : UserCopy) (buf data : List UInt8) (p : Nat) : List UInt8 :=
  (copyFromUser copy (slice data p (countAt p buf.length)) (source buf p)).1

theorem splice_stored (copy : UserCopy) (buf : List UInt8) (bytes : Cells UInt8 lcminfoSize)
    {p : Nat} (hp : p < lcminfoSize) :
    splice bytes.flat p (stored copy buf bytes.flat p) =
      (leftBy copy (source buf p) p bytes).flat := by
  have hlen := length_source buf p
  have hle := (countAt_le p buf.length).2
  rw [stored, ← hlen]
  exact splice_copyFromUser copy bytes (by omega)

/-- The only ways to a negative result are a signal and a fault. -/
theorem lcminfoWrite_failed {buf : List UInt8} {signal : Bool} {copy : UserCopy}
    {dev dev' : LcminfoDev} {ppos ppos' : Loff} {reply : Reply}
    (h : lcminfoWrite buf signal copy dev ppos = some (dev', ppos', reply)) (hret : reply.ret < 0) :
    ppos' = ppos ∧ ((signal = true ∧ dev' = dev) ∨
      (signal = false ∧ ppos.toNat < lcminfoSize ∧
        dev' = { dev with
          data := splice dev.data ppos.toNat (stored copy buf dev.data ppos.toNat) })) := by
  cases signal with
  | true =>
    rw [lcminfoWrite_signal, Option.some.injEq, Prod.mk.injEq, Prod.mk.injEq] at h
    exact ⟨h.2.1.symm, Or.inl ⟨rfl, h.1.symm⟩⟩
  | false =>
    have hsem : dev.sem ≠ 0 := by
      intro hzero
      simp [lcminfoWrite, downInterruptible, hzero] at h
    by_cases hp : lcminfoSize ≤ ppos.toNat
    · rw [lcminfoWrite_past hsem hp, Option.some.injEq, Prod.mk.injEq, Prod.mk.injEq] at h
      rw [← h.2.2] at hret
      exact absurd hret (by decide)
    · have hcount : countAt ppos.toNat buf.length ≤ lcminfoSize :=
        (countAt_le ppos.toNat buf.length).2.trans (Nat.sub_le _ _)
      rw [lcminfoWrite_inside hsem (by omega)] at h
      simp only at h
      split at h
      · rw [Option.some.injEq, Prod.mk.injEq, Prod.mk.injEq] at h
        exact ⟨h.2.1.symm, Or.inr ⟨rfl, by omega, h.1.symm⟩⟩
      · -- a write that succeeds returns its count
        rw [Option.some.injEq, Prod.mk.injEq, Prod.mk.injEq] at h
        rw [← h.2.2] at hret
        simp only [retCount_eq hcount] at hret
        omega

/-- A write that fails leaves the position, the semaphore and the rest of the device as
they were.  When it was interrupted it leaves the bytes too, and when it faulted only
the stretch it was to write differs, by what the copy left there. -/
theorem failedWrite_leaves {buf : List UInt8} {signal : Bool} {copy : UserCopy}
    {dev dev' : LcminfoDev} {ppos ppos' : Loff} {reply : Reply} {bytes : Cells UInt8 lcminfoSize}
    (hdata : dev.data = bytes.flat)
    (h : lcminfoWrite buf signal copy dev ppos = some (dev', ppos', reply))
    (hret : reply.ret < 0) :
    let src := source buf ppos.toNat
    ppos' = ppos ∧ dev'.sem = dev.sem ∧
      dev' = { dev with data :=
        (if signal then bytes else leftBy copy src ppos.toNat bytes).flat } ∧
      (dev'.data = dev.data ↔ signal = true ∨ Harmless copy src ppos.toNat bytes) := by
  obtain ⟨hpos, ⟨rfl, rfl⟩ | ⟨rfl, hp, rfl⟩⟩ := lcminfoWrite_failed h hret
  · refine ⟨hpos, rfl, ?_, by simp⟩
    rw [if_pos rfl, ← hdata]
  · rw [hdata, splice_stored copy buf bytes hp]
    refine ⟨hpos, rfl, rfl, ?_⟩
    simp only [Bool.false_eq_true, false_or, ← leftBy_eq_iff]
    exact List.ofFn_injective.eq_iff

/-- One of two bytes gets through. -/
theorem failedWrite_leaves_first :
    ∃ dev' ppos' reply,
      lcminfoWrite [7, 8] false { copied := 1 } lcminfoInit 0 = some (dev', ppos', reply) ∧
      reply.ret < 0 ∧
      let src := source [7, 8] 0
      ppos' = 0 ∧ dev'.sem = lcminfoInit.sem ∧
        dev' = { lcminfoInit with data :=
          (if false then Cells.fill 0 else leftBy { copied := 1 } src 0 (Cells.fill 0)).flat } ∧
        (dev'.data = lcminfoInit.data ↔
          false = true ∨ Harmless { copied := 1 } src 0 (Cells.fill 0)) :=
  ⟨_, _, _, rfl, by decide, failedWrite_leaves (Cells.flat_fill 0).symm rfl (by decide)⟩

theorem failed_write_stored :
    ¬ FailsClean [7, 8] false { copied := 1 } lcminfoInit 0 := by
  intro h
  have hbyte := congrArg List.head? (h _ _ _ rfl (by decide)).1
  exact absurd hbyte (by decide)

end LcmInfo
end AtomDrivers
