/-
Where a seek lands.

Reading comes to its end at 4096, the first position where nothing is left, and a
seek may go there, but `lcminfo_llseek` counts `SEEK_END` from the byte before it.
Every other whence lands on the exact sum, whether or not the 64-bit addition wraps.
A `SEEK_END` by -k is therefore followed by a read that starts one byte early.
-/
import AtomDrivers.LcmInfo.ByteFile

namespace AtomDrivers
namespace LcmInfo

open Linux Storage ByteFile

/-- The end of the device, where reading first returns 0. -/
def deviceEnd : Nat := lcminfoSize

/-- A read of any size returns 0 and moves nothing. -/
def ReadsNothing (p : Loff) : Prop :=
  ∀ (dev : LcminfoDev) (size : Nat), dev.sem ≠ 0 →
    ∃ reply, lcminfoRead size false { copied := size } dev p = some (dev, p, reply) ∧
      reply.ret = 0 ∧ reply.toUser = []

/-- The position `offset` names, if the exact sum lies on the device. -/
def seekTarget (p : Position) (offset whence : Int) : Option Position :=
  if whence = seekSet then seekFrom offset 0
  else if whence = seekCur then seekFrom offset p
  else if whence = seekEnd then seekFrom offset deviceEnd
  else none

/-- The seek sets and returns the target, or refuses and leaves the position. -/
def SeekAgrees (p : Position) (offset : Loff) (whence : Int) : Prop :=
  lcminfoLlseek offset whence p.toLoff = landed p.toLoff (seekTarget p offset.toInt whence)

/-- `file` is open at `p`, the semaphore is free and there are 4096 bytes. -/
structure OpenAt (s : Lcminfo) (file : Nat) (p : Position) : Prop where
  fPos : s.fPos file = some p.toLoff
  sem : s.dev.sem ≠ 0
  length : s.dev.data.length = lcminfoSize

def backFromEnd (k : Nat) : Loff := -BitVec.ofNat 64 k

/-- `SEEK_END` by -k and a read return the last `k` bytes. -/
def TailAgrees (s : Lcminfo) (file k size : Nat) : Prop :=
  ∃ t seek read, lcminfo.run s [.llseek file (backFromEnd k) seekEnd,
      .read file none size false { copied := size }] = some (t, [seek, read]) ∧
    read.ret = k ∧ read.toUser = s.dev.data.drop (deviceEnd - k)

/-- The read is for exactly `k` bytes and the last `k + 1` are all the same, or all
bytes are read and the file was at their start already. -/
def Coincides (s : Lcminfo) (p : Position) (k size : Nat) : Prop :=
  let count := size % 2 ^ 32
  (k < deviceEnd ∧ count = k ∧
      ∃ b, s.dev.data.drop (deviceEnd - 1 - k) = List.replicate (k + 1) b) ∨
    (k = deviceEnd ∧ (p : Nat) = 0 ∧ k ≤ count)

/-! ## The end -/

/-- A read that does not fault, at any position up to the end. -/
theorem read_at (p : Position) {dev : LcminfoDev} (hsem : dev.sem ≠ 0) (size : Nat) :
    lcminfoRead size false { copied := size } dev p.toLoff =
      some (dev, p.toLoff + BitVec.ofNat 64 (countAt p size),
        { ret := countAt p size, toUser := slice dev.data p (countAt p size),
          access := some (.load p (countAt p size)) }) := by
  have hp : p.toLoff.toNat ≤ lcminfoSize := by rw [Position.toLoff_toNat]; omega
  rw [lcminfoRead_whole hsem hp, Position.toLoff_toNat]

theorem readsNothing_iff (p : Position) : ReadsNothing p.toLoff ↔ (p : Nat) = deviceEnd := by
  constructor
  · intro h
    obtain ⟨reply, hread, hret, _⟩ := h lcminfoInit 1 (by decide)
    rw [read_at p (by decide), countAt_min, Option.some.injEq, Prod.mk.injEq,
      Prod.mk.injEq] at hread
    rw [← hread.2.2] at hret
    simp only [deviceEnd] at hret ⊢
    omega
  · intro h dev size hsem
    have hcount : countAt p size = 0 := by
      rw [countAt_min, h]
      exact Nat.min_eq_right (by simp [deviceEnd])
    have hstay : p.toLoff + BitVec.ofNat 64 0 = p.toLoff := BitVec.add_zero _
    rw [read_at p hsem, hcount, hstay]
    exact ⟨_, rfl, rfl, rfl⟩

/-! ## Seeking -/

theorem landed_inj {fPos : Loff} {a b : Option Position} :
    landed fPos a = landed fPos b ↔ a = b := by
  refine ⟨fun h => ?_, fun h => by rw [h]⟩
  have hret := congrArg Prod.snd h
  cases a with
  | none =>
    cases b with
    | none => rfl
    | some q => exact absurd hret (by simp only [landed, EINVAL]; omega)
  | some q =>
    cases b with
    | none => exact absurd hret (by simp only [landed, EINVAL]; omega)
    | some r =>
      simp only [landed, Int.natCast_inj] at hret
      rw [Fin.ext hret]

/-- The sums from the two bases differ by one, so the seeks agree only where both are
off the device. -/
theorem seekFrom_end_iff (offset : Int) :
    seekFrom offset (lcminfoSize - 1) = seekFrom offset deviceEnd ↔
      offset < -deviceEnd ∨ 1 < offset := by
  have hlast : ((lcminfoSize - 1 : Nat) : Int) = 4095 := rfl
  have hend : (deviceEnd : Int) = 4096 := rfl
  have hsize : (lcminfoSize : Int) = 4096 := rfl
  by_cases hfromLast : 0 ≤ ((lcminfoSize - 1 : Nat) : Int) + offset ∧
      ((lcminfoSize - 1 : Nat) : Int) + offset ≤ lcminfoSize
  · by_cases hfromEnd : 0 ≤ (deviceEnd : Int) + offset ∧ (deviceEnd : Int) + offset ≤ lcminfoSize
    · simp only [seekFrom, dif_pos hfromLast, dif_pos hfromEnd, Option.some.injEq, Fin.mk.injEq]
      omega
    · simp only [seekFrom, dif_pos hfromLast, dif_neg hfromEnd, reduceCtorEq, false_iff]
      omega
  · by_cases hfromEnd : 0 ≤ (deviceEnd : Int) + offset ∧ (deviceEnd : Int) + offset ≤ lcminfoSize
    · simp only [seekFrom, dif_neg hfromLast, dif_pos hfromEnd, reduceCtorEq, false_iff]
      omega
    · simp only [seekFrom, dif_neg hfromLast, dif_neg hfromEnd, true_iff]
      omega

theorem seekAgrees_iff (p : Position) (offset : Loff) (whence : Int) :
    SeekAgrees p offset whence ↔
      (whence = seekEnd → offset.toInt < -deviceEnd ∨ 1 < offset.toInt) := by
  rw [SeekAgrees, lcminfoLlseek_eq, landed_inj, ByteFile.seek, seekBase, seekTarget]
  by_cases hset : whence = seekSet
  · simp [hset, seekSet, seekEnd]
  · by_cases hcur : whence = seekCur
    · simp [hcur, seekSet, seekCur, seekEnd]
    · by_cases hend : whence = seekEnd
      · rw [if_neg hset, if_neg hcur, if_pos hend, if_neg hset, if_neg hcur, if_pos hend,
          Option.bind_some, seekFrom_end_iff]
        exact ⟨fun h _ => h, fun h => h hend⟩
      · simp [hset, hcur, hend]

/-! ## The last bytes -/

/-- A list that is its own shift by one is constant. -/
theorem take_eq_drop_one_iff {α : Type*} {l : List α} {n : Nat} (h : l.length = n + 1) :
    l.take n = l.drop 1 ↔ ∃ b, l = List.replicate (n + 1) b := by
  constructor
  · intro hshift
    induction n generalizing l with
    | zero =>
      obtain ⟨b, rfl⟩ := List.length_eq_one_iff.mp h
      exact ⟨b, rfl⟩
    | succ n ih =>
      obtain ⟨b, rest, rfl⟩ := List.exists_cons_of_length_eq_add_one h
      obtain ⟨b', rest', rfl⟩ := List.exists_cons_of_length_eq_add_one (Nat.succ.inj h)
      simp only [List.take_succ_cons, List.drop_one, List.tail_cons, List.cons.injEq] at hshift
      obtain ⟨rfl, htail⟩ := hshift
      obtain ⟨c, hc⟩ := ih (l := b :: rest') (Nat.succ.inj h) (by simpa using htail)
      rw [List.replicate_succ, List.cons.injEq] at hc
      obtain ⟨rfl, rfl⟩ := hc
      exact ⟨b, rfl⟩
  · intro hconst
    obtain ⟨b, rfl⟩ := hconst
    simp

theorem backFromEnd_toInt {k : Nat} (hk : k ≤ deviceEnd) : (backFromEnd k).toInt = -k := by
  have hsize : deviceEnd = 4096 := rfl
  have hlo := toInt_ofNat_small hk
  rw [backFromEnd, BitVec.toInt_neg, hlo, Int.bmod_eq_of_le (by omega) (by omega)]

theorem llseek_back (p : Position) {k : Nat} (hk : k ≤ deviceEnd) :
    lcminfoLlseek (backFromEnd k) seekEnd p.toLoff =
      landed p.toLoff (seekFrom (-k) (lcminfoSize - 1)) := by
  rw [lcminfoLlseek_eq, backFromEnd_toInt hk]
  rfl

/-- Short of all bytes, the seek lands one byte early. -/
theorem llseek_back_early (p : Position) {k : Nat} (hk : k < deviceEnd) :
    ∃ q : Position, (q : Nat) = deviceEnd - 1 - k ∧
      (lcminfoLlseek (backFromEnd k) seekEnd p.toLoff).1 = q.toLoff := by
  have hend : deviceEnd = 4096 := rfl
  have hlast : ((lcminfoSize - 1 : Nat) : Int) = 4095 := rfl
  have hsize : (lcminfoSize : Int) = 4096 := rfl
  refine ⟨⟨((lcminfoSize - 1 : Nat) + -(k : Int)).toNat, by omega⟩, by simp only; omega, ?_⟩
  rw [llseek_back p (by omega), seekFrom, dif_pos (by omega), landed]

/-- By all bytes, it is refused. -/
theorem llseek_back_whole (p : Position) :
    (lcminfoLlseek (backFromEnd deviceEnd) seekEnd p.toLoff).1 = p.toLoff := by
  have hend : (deviceEnd : Int) = 4096 := rfl
  have hlast : ((lcminfoSize - 1 : Nat) : Int) = 4095 := rfl
  rw [llseek_back p (Nat.le_refl _), seekFrom, dif_neg (by omega), landed]

/-- The read starts where the seek has left the file. -/
theorem tailAgrees_iff {s : Lcminfo} {file : Nat} {p q : Position} (hs : OpenAt s file p)
    {k size : Nat} (hq : (lcminfoLlseek (backFromEnd k) seekEnd p.toLoff).1 = q.toLoff) :
    TailAgrees s file k size ↔
      countAt q size = k ∧ slice s.dev.data q k = s.dev.data.drop (deviceEnd - k) := by
  have hneg : ¬ q.toLoff.toInt < 0 := by rw [Position.toLoff_toInt]; omega
  have hseek : lcminfo.step s (.llseek file (backFromEnd k) seekEnd) =
      some ({ s with fPos := Function.update s.fPos file (some q.toLoff) },
        { ret := (lcminfoLlseek (backFromEnd k) seekEnd p.toLoff).2 }) := by
    simp only [lcminfo, hs.fPos, Option.bind_eq_bind, Option.bind_some, hq, Option.pure_def]
  have hread : ∃ t, lcminfo.step { s with fPos := Function.update s.fPos file (some q.toLoff) }
      (.read file none size false { copied := size }) =
        some (t,
          { ret := countAt q size, toUser := slice s.dev.data q (countAt q size),
            access := some (.load q (countAt q size)) }) := by
    simp only [lcminfo, transfer, Function.update_self, Option.bind_eq_bind, Option.bind_some,
      Option.getD_none, if_neg hneg, read_at q hs.sem]
    exact ⟨_, rfl⟩
  obtain ⟨t, hread⟩ := hread
  have hrun := Machine.run_cons hseek (Machine.run_singleton hread)
  constructor
  · intro h
    obtain ⟨t', seek, read, hrun', hret, hbytes⟩ := h
    rw [hrun] at hrun'
    cases hrun'
    have hcount : countAt q size = k := Int.natCast_inj.mp hret
    exact ⟨hcount, by rw [← hbytes, hcount]⟩
  · intro h
    refine ⟨t, _, _, hrun, by rw [h.1], ?_⟩
    rw [← h.2, h.1]

theorem tailAgrees_iff_coincides {s : Lcminfo} {file : Nat} {p : Position}
    (hs : OpenAt s file p) {k : Nat} (hk : k ≤ deviceEnd) (size : Nat) :
    TailAgrees s file k size ↔ Coincides s p k size := by
  have hend : deviceEnd = lcminfoSize := rfl
  have hlen := hs.length
  rcases Nat.lt_or_eq_of_le hk with hlt | rfl
  · obtain ⟨q, hq, hland⟩ := llseek_back_early p hlt
    have htail : (s.dev.data.drop q).length = k + 1 := by
      rw [List.length_drop]
      omega
    have hdrop : (s.dev.data.drop q).drop 1 = s.dev.data.drop (deviceEnd - k) := by
      rw [List.drop_drop]
      congr 1
      omega
    rw [tailAgrees_iff hs hland, slice, ← hdrop, take_eq_drop_one_iff htail, countAt_min]
    simp only [Coincides, hlt, Nat.ne_of_lt hlt, true_and, false_and, or_false, ← hq]
    refine and_congr_left fun _ => ?_
    omega
  · rw [tailAgrees_iff hs (llseek_back_whole p), countAt_min]
    simp only [Coincides, Nat.lt_irrefl, false_and, true_and, false_or, Nat.sub_self,
      List.drop_zero]
    constructor
    · intro h
      exact ⟨by omega, by omega⟩
    · intro h
      refine ⟨by omega, ?_⟩
      rw [slice, h.1, List.drop_zero, List.take_of_length_le (by omega)]

/-- The end is where reading first returns 0; a seek agrees with it exactly when it is
no `SEEK_END` or its target is off the device either way; and `SEEK_END` by -k brings
the last `k` bytes in coincidences only. -/
theorem seek_agrees_iff (p : Position) (offset : Loff) (whence : Int) :
    (ReadsNothing p.toLoff ↔ (p : Nat) = deviceEnd) ∧
      (SeekAgrees p offset whence ↔
        (whence = seekEnd → offset.toInt < -deviceEnd ∨ 1 < offset.toInt)) ∧
      ∀ (s : Lcminfo) (file : Nat), OpenAt s file p → ∀ k ≤ deviceEnd, ∀ size,
        (TailAgrees s file k size ↔ Coincides s p k size) :=
  ⟨readsNothing_iff p, seekAgrees_iff p offset whence,
    fun _ _ hs _ hk size => tailAgrees_iff_coincides hs hk size⟩

/-- A file just opened. -/
def opened : Lcminfo := { initial with fPos := fun _ => some 0 }

theorem opened_openAt : OpenAt opened 0 0 :=
  ⟨rfl, by decide, List.length_replicate⟩

theorem seek_agrees_iff_opened :
    TailAgrees opened 0 1 1 ↔ Coincides opened 0 1 1 :=
  (seek_agrees_iff 0 0 seekEnd).2.2 opened 0 opened_openAt 1 (by decide) 1

/-- `SEEK_END` by 0 lands on the last byte. -/
theorem end_on_last_byte :
    lcminfoLlseek 0 seekEnd 0 = (4095, 4095) ∧ ¬ SeekAgrees 0 0 seekEnd := by
  refine ⟨by decide, fun h => ?_⟩
  rcases (seekAgrees_iff 0 0 seekEnd).mp h rfl with h | h <;> exact absurd h (by decide)

end LcmInfo
end AtomDrivers
