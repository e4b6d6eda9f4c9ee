/-
What the drivers leave unwritten.

A walk over the slots stops at the first error.  GETINFO hands nothing over then,
and of a resolution only those bytes are written that a driver stored before the
stop.
-/
import AtomDrivers.Camera.Sensors

namespace AtomDrivers
namespace Camera

open Linux

section Walk

variable {α : Type} {slots : Nat → Slot} {selected : Slot → Bool}
  {body : Nat → α → BitVec 32 × α}

/-- A walk fails when a selected driver does. -/
theorem overSlots_fails {ret : Nat → BitVec 32} (hbody : ∀ i a, (body i a).1 = ret i)
    (is : List Nat) (a : α) :
    (overSlots slots selected body is a).1 ≠ errorNone ↔
      ∃ i ∈ is, ((slots i).active ∧ selected (slots i)) ∧ ret i ≠ errorNone := by
  induction is generalizing a with
  | nil => simp [overSlots]
  | cons i is ih =>
    by_cases hsel : (slots i).active ∧ selected (slots i)
    · by_cases hret : ret i = errorNone
      · have hstep : overSlots slots selected body (i :: is) a =
            overSlots slots selected body is (body i a).2 := by
          simp [overSlots, hsel, hbody, hret]
        rw [hstep, ih]
        simp [hret]
      · have hstep : overSlots slots selected body (i :: is) a = body i a := by
          simp [overSlots, hsel, hbody, hret]
        rw [hstep, hbody]
        simp [hsel, hret]
    · have hstep : overSlots slots selected body (i :: is) a =
          overSlots slots selected body is a := by
        simp only [overSlots, if_neg hsel]
      rw [hstep, ih]
      simp [hsel]

end Walk

section Written

variable (hdr : SensorHeader) (world : World)

/-- Slot `i` answers for sensor `k`. -/
def Answers (slots : Nat → Slot) (i k : Nat) : Prop :=
  (slots i).active ∧ sensorIndex hdr (slots i).invokeSocketIdx = some k

/-- The driver of some slot fails in the `call`-th walk. -/
def InfoFails (call : Nat) (slots : Nat → Slot) : Prop :=
  ∃ i < hdr.maxInvokeDrivers, ∃ k, Answers hdr slots i k ∧ (world.sensor call i).ret ≠ errorNone

/-- In the `call`-th walk a driver stores byte `x` of the resolution of sensor `k`,
and the drivers asked before it succeed. -/
def ResolutionWritten (call : Nat) (slots : Nat → Slot) (k x : Nat) : Prop :=
  ∃ i < hdr.maxInvokeDrivers, Answers hdr slots i k ∧
    ((world.sensor call i).resolution x).isSome ∧
    ∀ j < i, ∀ l, Answers hdr slots j l → (world.sensor call j).ret = errorNone

variable {hdr world} {call : Nat} {slots : Nat → Slot}

theorem askInfo_fst (i : Nat) (a : (Nat → Bytes) × (Nat → Bytes)) :
    (askInfo hdr world call slots i a).1 =
      match sensorIndex hdr (slots i).invokeSocketIdx with
      | some _ => (world.sensor call i).ret
      | none => errorNone := by
  unfold askInfo
  cases sensorIndex hdr (slots i).invokeSocketIdx <;> rfl

theorem walkInfo_fails (a : (Nat → Bytes) × (Nat → Bytes)) :
    (overSlots slots (fun _ => true) (askInfo hdr world call slots) hdr.slots a).1 ≠ errorNone ↔
      InfoFails hdr world call slots := by
  rw [overSlots_fails askInfo_fst]
  constructor
  · intro h
    obtain ⟨i, hi, ⟨hactive, _⟩, hret⟩ := h
    cases hk : sensorIndex hdr (slots i).invokeSocketIdx with
    | none => simp [hk] at hret
    | some k =>
      simp only [hk] at hret
      exact ⟨i, List.mem_range.mp hi, k, ⟨hactive, hk⟩, hret⟩
  · intro h
    obtain ⟨i, hi, k, ⟨hactive, hk⟩, hret⟩ := h
    refine ⟨i, List.mem_range.mpr hi, ⟨hactive, rfl⟩, ?_⟩
    simpa only [hk] using hret

/-- A failed GETINFO leaves both structures as they were. -/
theorem getInfo_of_fails (h : InfoFails hdr world call slots) (info config : Nat → Bytes) :
    (kdMultiSensorGetInfo hdr world call slots info config).2 = (info, config) := by
  have hfails := (walkInfo_fails (fun _ => Bytes.zero, fun _ => Bytes.zero)).mpr h
  unfold kdMultiSensorGetInfo
  simp only [if_pos hfails]

/-- Otherwise every byte is written. -/
theorem getInfo_of_not_fails (h : ¬ InfoFails hdr world call slots)
    (info config info' config' : Nat → Bytes) :
    let r := (kdMultiSensorGetInfo hdr world call slots info config).2
    let r' := (kdMultiSensorGetInfo hdr world call slots info' config').2
    (∀ k, ∀ x < hdr.sizeofSensorInfo, r.1 k x = r'.1 k x) ∧
      ∀ k, ∀ x < hdr.sizeofSensorConfig, r.2 k x = r'.2 k x := by
  have hok := (walkInfo_fails (fun _ => Bytes.zero, fun _ => Bytes.zero)).not.mpr h
  unfold kdMultiSensorGetInfo
  simp only [if_neg hok]
  constructor
  · intro k x hx
    simp only [Bytes.copy, if_pos hx]
  · intro k x hx
    simp only [Bytes.copy, if_pos hx]

/-- What becomes of the information does not depend on the configurations. -/
theorem getInfo_info (info config config' : Nat → Bytes) :
    (kdMultiSensorGetInfo hdr world call slots info config).2.1 =
      (kdMultiSensorGetInfo hdr world call slots info config').2.1 := by
  simp only [kdMultiSensorGetInfo]
  split
  · rfl
  · rfl

/-! ## Resolutions -/

/-- `ResolutionWritten` for the slots from `i` on. -/
def WrittenFrom (hdr : SensorHeader) (world : World) (call : Nat) (slots : Nat → Slot)
    (k x i n : Nat) : Prop :=
  ∃ m, i ≤ m ∧ m < i + n ∧ Answers hdr slots m k ∧
    ((world.sensor call m).resolution x).isSome ∧
    ∀ j, i ≤ j → j < m → ∀ l, Answers hdr slots j l → (world.sensor call j).ret = errorNone

/-- The first slot of the rest either answers for some sensor or is passed over. -/
theorem writtenFrom_succ {k x i n : Nat} :
    WrittenFrom hdr world call slots k x i (n + 1) ↔
      (Answers hdr slots i k ∧ ((world.sensor call i).resolution x).isSome) ∨
        ((∀ l, Answers hdr slots i l → (world.sensor call i).ret = errorNone) ∧
          WrittenFrom hdr world call slots k x (i + 1) n) := by
  constructor
  · intro h
    obtain ⟨m, him, hm, hans, hstored, hbefore⟩ := h
    by_cases hi : m = i
    · subst hi
      exact Or.inl ⟨hans, hstored⟩
    · refine Or.inr ⟨hbefore i (Nat.le_refl i) (by omega), m, by omega, by omega, hans, hstored, ?_⟩
      intro j hj hjm
      exact hbefore j (by omega) hjm
  · intro h
    obtain ⟨hans, hstored⟩ | ⟨hfirst, m, him, hm, hans, hstored, hbefore⟩ := h
    · exact ⟨i, Nat.le_refl i, by omega, hans, hstored, fun j hj hji => by omega⟩
    · refine ⟨m, by omega, by omega, hans, hstored, fun j hj hjm => ?_⟩
      by_cases hji : j = i
      · subst hji
        exact hfirst
      · exact hbefore j (by omega) hjm

theorem writtenFrom_zero {k x i : Nat} : ¬ WrittenFrom hdr world call slots k x i 0 := by
  intro h
  obtain ⟨m, him, hm, _⟩ := h
  omega

/-- The walk from slot `i` on. -/
def walkResolution (hdr : SensorHeader) (world : World) (call : Nat) (slots : Nat → Slot)
    (i n : Nat) (p : Nat → Bytes) : Nat → Bytes :=
  (overSlots slots (fun _ => true) (askResolution hdr world call slots) (List.range' i n) p).2

/-- A slot that answers for no sensor is passed over. -/
theorem walkResolution_skip {i : Nat} (h : ∀ l, ¬ Answers hdr slots i l) (n : Nat)
    (p : Nat → Bytes) :
    walkResolution hdr world call slots i (n + 1) p =
      walkResolution hdr world call slots (i + 1) n p := by
  unfold walkResolution
  rw [List.range'_succ]
  by_cases hactive : (slots i).active
  · cases hk : sensorIndex hdr (slots i).invokeSocketIdx with
    | none => simp [overSlots, askResolution, hactive, hk]
    | some l => exact absurd ⟨hactive, hk⟩ (h l)
  · simp [overSlots, hactive]

theorem walkResolution_answers {i l : Nat} (h : Answers hdr slots i l) (n : Nat)
    (p : Nat → Bytes) :
    walkResolution hdr world call slots i (n + 1) p =
      let p' := Function.update p l ((p l).patch (world.sensor call i).resolution)
      if (world.sensor call i).ret = errorNone then
        walkResolution hdr world call slots (i + 1) n p'
      else p' := by
  unfold walkResolution
  rw [List.range'_succ]
  by_cases hret : (world.sensor call i).ret = errorNone
  · simp [overSlots, askResolution, h.1, h.2, hret]
  · simp [overSlots, askResolution, h.1, h.2, hret]

/-- What a patch of the buffer `l` does to a byte of the buffer `k`. -/
theorem update_patch_byte (p : Nat → Bytes) (k l x : Nat) (stored : Nat → Option UInt8) :
    Function.update p l ((p l).patch stored) k x =
      (if k = l then stored x else none).getD (p k x) := by
  by_cases hkl : k = l
  · subst hkl
    simp [Bytes.patch]
  · simp [hkl]

/-- A slot stores at a byte of the resolution it answers with. -/
theorem stored_isSome {k l i : Nat} (hl : Answers hdr slots i l) (stored : Option UInt8) :
    (if k = l then stored else none).isSome ↔ Answers hdr slots i k ∧ stored.isSome := by
  by_cases hkl : k = l
  · subst hkl
    simp [hl]
  · have hnot : ¬ Answers hdr slots i k := fun h => hkl (Option.some.inj (h.2.symm.trans hl.2))
    simp [hkl, hnot]

/-- A byte after a walk is the last one stored, or the one from before. -/
theorem walkResolution_byte (k x i n : Nat) :
    ∃ v : Option UInt8, (v.isSome ↔ WrittenFrom hdr world call slots k x i n) ∧
      ∀ p, walkResolution hdr world call slots i n p k x = v.getD (p k x) := by
  induction n generalizing i with
  | zero => exact ⟨none, by simp [writtenFrom_zero], fun p => rfl⟩
  | succ n ih =>
    obtain ⟨v, hv, hrest⟩ := ih (i + 1)
    by_cases hnone : ∀ l, ¬ Answers hdr slots i l
    · refine ⟨v, ?_, fun p => ?_⟩
      · rw [writtenFrom_succ, hv]
        constructor
        · intro h
          exact Or.inr ⟨fun l hl => absurd hl (hnone l), h⟩
        · intro h
          obtain ⟨hans, _⟩ | ⟨_, h⟩ := h
          · exact absurd hans (hnone k)
          · exact h
      · rw [walkResolution_skip hnone, hrest]
    · obtain ⟨l, hl⟩ := not_forall_not.mp hnone
      -- what this slot itself stores at the byte
      let u : Option UInt8 := if k = l then (world.sensor call i).resolution x else none
      have hu : u.isSome ↔ Answers hdr slots i k ∧ ((world.sensor call i).resolution x).isSome :=
        stored_isSome hl _
      have hstep := fun p => update_patch_byte p k l x (world.sensor call i).resolution
      by_cases hret : (world.sensor call i).ret = errorNone
      · refine ⟨v.or u, ?_, fun p => ?_⟩
        · have hfirst : ∀ m, Answers hdr slots i m → (world.sensor call i).ret = errorNone :=
            fun _ _ => hret
          rw [writtenFrom_succ, ← hu, ← hv, Option.isSome_or, Bool.or_eq_true]
          tauto
        · rw [walkResolution_answers hl]
          simp only [if_pos hret]
          rw [hrest, hstep]
          cases v <;> rfl
      · refine ⟨u, ?_, fun p => ?_⟩
        · have hstop : ¬ ∀ m, Answers hdr slots i m → (world.sensor call i).ret = errorNone :=
            fun h => hret (h l hl)
          rw [writtenFrom_succ, ← hu]
          simp [hstop]
        · rw [walkResolution_answers hl]
          simp only [if_neg hret]
          exact hstep p

/-- A byte of a resolution that is written does not depend on what was there; any
other byte is what was there. -/
theorem getResolution_byte (hdr : SensorHeader) (world : World) (call : Nat) (slots : Nat → Slot)
    (k x : Nat) :
    ∃ v : Option UInt8, (v.isSome ↔ ResolutionWritten hdr world call slots k x) ∧
      ∀ p, (kdMultiSensorGetResolution hdr world call slots p).2 k x = v.getD (p k x) := by
  obtain ⟨v, hv, hbyte⟩ : ∃ v : Option UInt8,
      (v.isSome ↔ WrittenFrom hdr world call slots k x 0 hdr.maxInvokeDrivers) ∧
        ∀ p, walkResolution hdr world call slots 0 hdr.maxInvokeDrivers p k x = v.getD (p k x) :=
    walkResolution_byte k x 0 hdr.maxInvokeDrivers
  refine ⟨v, ?_, fun p => ?_⟩
  · rw [hv]
    simp only [WrittenFrom, ResolutionWritten, Nat.zero_le, true_and, Nat.zero_add, true_imp_iff]
  · rw [← hbyte p, walkResolution, ← List.range_eq_range']
    rfl

end Written

end Camera
end AtomDrivers
