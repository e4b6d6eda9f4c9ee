/-
Selecting drivers.

`kdSetDriver` overwrites the slots one after the other and returns at the first one
whose driver has no function table.  The slots before it are then switched and the
ones behind it are not, and the index and the bus are those of the new selection.
-/
import AtomDrivers.Camera.StaleBytes
import AtomDrivers.Machine.Until
import Mathlib.Data.Nat.Find

namespace AtomDrivers
namespace Camera

section Select

variable (hdr : CameraHeader) (world : World)

def socketOf (index : BitVec 32) : BitVec 32 :=
  (index &&& hdr.kdimgsensorDualMaskMsb) >>> hdr.kdimgsensorDualShift

def drvIdxOf (index : BitVec 32) : Nat := (index &&& hdr.kdimgsensorDualMaskLsb).toNat

/-- The slot gets a socket and a driver. -/
def Chosen (index : BitVec 32) : Prop :=
  socketOf hdr index ≠ hdr.dualCameraNoneSensor ∧ drvIdxOf hdr index < hdr.maxNumOfSupportSensor

instance (index : BitVec 32) : Decidable (Chosen hdr index) :=
  inferInstanceAs (Decidable (_ ≠ _ ∧ _ < _))

def initOf (index : BitVec 32) : Option (Option Nat) :=
  (world.sensorList (drvIdxOf hdr index)).sensorInit

/-- There is a socket for the driver, but no function table. -/
def refused (index : BitVec 32) : Bool :=
  decide (Chosen hdr index) && (initOf hdr world index).join.isNone

/-- A slot is as a selection asks for it. -/
def Configured (index : BitVec 32) (slot : Slot) : Prop :=
  if Chosen hdr index then
    slot.bEnableDriver = true ∧ slot.pInvokeSensorFunc.isSome = true ∧
      initOf hdr world index = some slot.pInvokeSensorFunc ∧
      slot.invokeSensorNameStr = (world.sensorList (drvIdxOf hdr index)).drvname
  else slot.bEnableDriver = false

/-- An error leaves everything as it was, and success every slot as asked for. -/
def SelectsAtomically (pDrvIndex : Nat → BitVec 32) (cam : Sensors) : Prop :=
  let r := kdSetDriver hdr world pDrvIndex cam
  (r.1 ≠ 0 → (∀ i, r.2.slots i = cam.slots i) ∧ r.2.i2cBusNum = cam.i2cBusNum ∧
    r.2.drvIndex = cam.drvIndex) ∧
  (r.1 = 0 → ∀ i < hdr.maxInvokeDrivers, Configured hdr world (pDrvIndex i) (r.2.slots i))

/-- Up to the first slot that is refused, everything already is as asked for. -/
def AlreadySelected (pDrvIndex : Nat → BitVec 32) (cam : Sensors) : Prop :=
  ∀ j < hdr.maxInvokeDrivers, refused hdr world (pDrvIndex j) = true →
    (∀ i < j, refused hdr world (pDrvIndex i) = false) →
    cam.drvIndex = pDrvIndex 0 ∧
    cam.i2cBusNum = i2cBusOf hdr.toSensorHeader (socketOf hdr (pDrvIndex j)) ∧
    (∀ i < j, (cam.slots i).invokeSocketIdx = socketOf hdr (pDrvIndex i) ∧
      Configured hdr world (pDrvIndex i) (cam.slots i)) ∧
    (cam.slots j).invokeSocketIdx = socketOf hdr (pDrvIndex j) ∧
    (cam.slots j).bEnableDriver = false ∧
    (initOf hdr world (pDrvIndex j) = some none → (cam.slots j).pInvokeSensorFunc = none)

/-! ## One slot -/

/-- What becomes of a slot. -/
def switched (index : BitVec 32) (slot : Slot) : Slot :=
  let slot := { slot with bEnableDriver := false, invokeSocketIdx := socketOf hdr index }
  if Chosen hdr index then
    match initOf hdr world index with
    | none => slot
    | some none => { slot with pInvokeSensorFunc := none }
    | some (some func) =>
      { slot with
        pInvokeSensorFunc := some func
        bEnableDriver := true
        invokeSensorNameStr := (world.sensorList (drvIdxOf hdr index)).drvname }
  else slot

theorem setDriverSlot_eq (index : BitVec 32) (i : Nat) (cam : Sensors) :
    setDriverSlot hdr world index i cam =
      (!refused hdr world index,
        { cam with
          slots := Function.update cam.slots i (switched hdr world index (cam.slots i))
          i2cBusNum :=
            if socketOf hdr index = hdr.dualCameraNoneSensor then cam.i2cBusNum
            else i2cBusOf hdr.toSensorHeader (socketOf hdr index) }) := by
  unfold setDriverSlot
  by_cases hnone : socketOf hdr index = hdr.dualCameraNoneSensor
  · have hchosen : ¬ Chosen hdr index := fun h => h.1 hnone
    simp only [refused, switched, hchosen, if_pos hnone, decide_false, Bool.false_and, if_false]
    exact if_pos hnone
  · have hnone' : ¬ (index &&& hdr.kdimgsensorDualMaskMsb) >>> hdr.kdimgsensorDualShift =
        hdr.dualCameraNoneSensor := hnone
    by_cases hidx : drvIdxOf hdr index < hdr.maxNumOfSupportSensor
    · have hchosen : Chosen hdr index := ⟨hnone, hidx⟩
      have hidx' : (index &&& hdr.kdimgsensorDualMaskLsb).toNat < hdr.maxNumOfSupportSensor := hidx
      simp only [refused, switched, hchosen, if_neg hnone, if_neg hnone', if_pos hidx',
        decide_true, Bool.true_and, if_true]
      rcases hinit : initOf hdr world index with _ | _ | func
      · have hentry : (world.sensorList
            (index &&& hdr.kdimgsensorDualMaskLsb).toNat).sensorInit = none := hinit
        rw [hentry]
        rfl
      · have hentry : (world.sensorList
            (index &&& hdr.kdimgsensorDualMaskLsb).toNat).sensorInit = some none := hinit
        rw [hentry]
        rfl
      · have hentry : (world.sensorList
            (index &&& hdr.kdimgsensorDualMaskLsb).toNat).sensorInit = some (some func) := hinit
        rw [hentry]
        rfl
    · have hchosen : ¬ Chosen hdr index := fun h => hidx h.2
      have hidx' : ¬ (index &&& hdr.kdimgsensorDualMaskLsb).toNat < hdr.maxNumOfSupportSensor :=
        hidx
      simp only [refused, switched, hchosen, if_neg hnone, if_neg hnone', if_neg hidx',
        decide_false, Bool.false_and, if_false]
      rfl

/-- A slot that was switched is as asked for. -/
theorem configured_switched {index : BitVec 32} (h : refused hdr world index = false)
    (slot : Slot) : Configured hdr world index (switched hdr world index slot) := by
  unfold Configured switched
  by_cases hchosen : Chosen hdr index
  · simp only [refused, hchosen, decide_true, Bool.true_and] at h
    simp only [if_pos hchosen]
    rcases hinit : initOf hdr world index with _ | _ | func
    · simp [hinit] at h
    · simp [hinit] at h
    · exact ⟨rfl, rfl, rfl, rfl⟩
  · simp only [if_neg hchosen]

theorem switched_socket (index : BitVec 32) (slot : Slot) :
    (switched hdr world index slot).invokeSocketIdx = socketOf hdr index := by
  unfold switched
  by_cases hchosen : Chosen hdr index
  · simp only [if_pos hchosen]
    rcases initOf hdr world index with _ | _ | func
    · rfl
    · rfl
    · rfl
  · simp only [if_neg hchosen]

/-- A slot is not changed by what it already is. -/
theorem switched_eq_iff {index : BitVec 32} (h : refused hdr world index = false) (slot : Slot) :
    switched hdr world index slot = slot ↔
      slot.invokeSocketIdx = socketOf hdr index ∧ Configured hdr world index slot := by
  obtain ⟨bEnableDriver, pInvokeSensorFunc, invokeSocketIdx, invokeSensorNameStr⟩ := slot
  constructor
  · intro hsame
    have hconfigured := configured_switched hdr world h
      { bEnableDriver, pInvokeSensorFunc, invokeSocketIdx, invokeSensorNameStr }
    rw [hsame] at hconfigured
    refine ⟨?_, hconfigured⟩
    rw [← switched_socket hdr world index, hsame]
  · intro ⟨hsocket, hconfigured⟩
    unfold Configured at hconfigured
    unfold switched
    by_cases hchosen : Chosen hdr index
    · rw [if_pos hchosen] at hconfigured
      obtain ⟨henable, hsome, hinit, hname⟩ := hconfigured
      obtain ⟨func, hfunc⟩ := Option.isSome_iff_exists.mp hsome
      simp only at hsocket henable hfunc hinit hname
      simp [hchosen, hinit, hfunc, hsocket, henable, hname]
    · rw [if_neg hchosen] at hconfigured
      simp only at hsocket hconfigured
      simp [hchosen, hsocket, hconfigured]

theorem switched_refused_iff {index : BitVec 32} (h : refused hdr world index = true)
    (slot : Slot) :
    switched hdr world index slot = slot ↔
      slot.invokeSocketIdx = socketOf hdr index ∧ slot.bEnableDriver = false ∧
        (initOf hdr world index = some none → slot.pInvokeSensorFunc = none) := by
  obtain ⟨bEnableDriver, pInvokeSensorFunc, invokeSocketIdx, invokeSensorNameStr⟩ := slot
  rw [refused, Bool.and_eq_true] at h
  have hchosen : Chosen hdr index := of_decide_eq_true h.1
  unfold switched
  simp only [if_pos hchosen]
  rcases hinit : initOf hdr world index with _ | _ | func
  · simp only [Slot.mk.injEq]
    exact ⟨fun hsame => ⟨hsame.2.2.1.symm, hsame.1.symm, fun hno => by cases hno⟩,
      fun hsame => ⟨hsame.2.1.symm, trivial, hsame.1.symm, trivial⟩⟩
  · simp only [Slot.mk.injEq]
    exact ⟨fun hsame => ⟨hsame.2.2.1.symm, hsame.1.symm, fun _ => hsame.2.1.symm⟩,
      fun hsame => ⟨hsame.2.1.symm, (hsame.2.2 trivial).symm, hsame.1.symm, trivial⟩⟩
  · rw [hinit] at h
    cases h.2

/-! ## The walk over the slots -/

variable (pDrvIndex : Nat → BitVec 32)

/-- The slots of a list are switched. -/
def switchAll (is : List Nat) (cam : Sensors) : Sensors :=
  is.foldl (fun cam i => (setDriverSlot hdr world (pDrvIndex i) i cam).2) cam

theorem setDriver_go (is : List Nat) (cam : Sensors) :
    kdSetDriver.go hdr world pDrvIndex is cam =
      (if is.any fun i => refused hdr world (pDrvIndex i) then - Linux.EIO else 0,
        switchAll hdr world pDrvIndex (upTo (fun i => refused hdr world (pDrvIndex i)) is)
          cam) := by
  induction is generalizing cam with
  | nil => rfl
  | cons i is ih =>
    have hret : (setDriverSlot hdr world (pDrvIndex i) i cam).1 =
        !refused hdr world (pDrvIndex i) := by rw [setDriverSlot_eq]
    rw [kdSetDriver.go, upTo]
    by_cases hrefused : refused hdr world (pDrvIndex i) = true
    · simp only [hret, List.any_cons, hrefused, Bool.not_true, Bool.false_eq_true, if_false,
        Bool.true_or, if_true]
      rfl
    · rw [Bool.not_eq_true] at hrefused
      simp only [hret, List.any_cons, hrefused, Bool.not_false, if_true, Bool.false_or,
        Bool.false_eq_true, if_false, ih]
      rfl

theorem switchAll_slots {is : List Nat} (hnodup : is.Nodup) (cam : Sensors) (k : Nat) :
    (switchAll hdr world pDrvIndex is cam).slots k =
      if k ∈ is then switched hdr world (pDrvIndex k) (cam.slots k) else cam.slots k := by
  induction is generalizing cam with
  | nil => rfl
  | cons i is ih =>
    obtain ⟨hi, hrest⟩ := List.nodup_cons.mp hnodup
    rw [switchAll, List.foldl_cons, ← switchAll, ih hrest, setDriverSlot_eq]
    by_cases hk : k = i
    · subst hk
      simp [hi]
    · simp [hk]

theorem switchAll_drvIndex (is : List Nat) (cam : Sensors) :
    (switchAll hdr world pDrvIndex is cam).drvIndex = cam.drvIndex := by
  induction is generalizing cam with
  | nil => rfl
  | cons i is ih =>
    rw [switchAll, List.foldl_cons, ← switchAll, ih, setDriverSlot_eq]

/-- The bus is the one of the last slot with a socket. -/
theorem switchAll_bus {j : Nat} (hj : socketOf hdr (pDrvIndex j) ≠ hdr.dualCameraNoneSensor)
    (is : List Nat) (cam : Sensors) :
    (switchAll hdr world pDrvIndex (is ++ [j]) cam).i2cBusNum =
      i2cBusOf hdr.toSensorHeader (socketOf hdr (pDrvIndex j)) := by
  rw [switchAll, List.foldl_append, List.foldl_cons, List.foldl_nil, setDriverSlot_eq]
  exact if_neg hj

/-! ## The selection -/

variable {hdr world pDrvIndex}

theorem setDriver_accepted (h : ∀ i < hdr.maxInvokeDrivers,
      refused hdr world (pDrvIndex i) = false) (cam : Sensors) :
    kdSetDriver hdr world pDrvIndex cam =
      (0, switchAll hdr world pDrvIndex (List.range hdr.maxInvokeDrivers)
        { cam with drvIndex := pDrvIndex 0 }) := by
  have hnone : ∀ i ∈ List.range hdr.maxInvokeDrivers, refused hdr world (pDrvIndex i) = false :=
    fun i hi => h i (List.mem_range.mp hi)
  have hany : ((List.range hdr.maxInvokeDrivers).any fun i => refused hdr world (pDrvIndex i)) =
      false := List.any_eq_false.mpr fun i hi => by simp [hnone i hi]
  rw [kdSetDriver, SensorHeader.slots, setDriver_go, hany, upTo_all _ hnone]
  rfl

theorem setDriver_refused {j : Nat} (hj : j < hdr.maxInvokeDrivers)
    (hrefused : refused hdr world (pDrvIndex j) = true)
    (hbefore : ∀ i < j, refused hdr world (pDrvIndex i) = false) (cam : Sensors) :
    kdSetDriver hdr world pDrvIndex cam =
      (- Linux.EIO, switchAll hdr world pDrvIndex (List.range j ++ [j])
        { cam with drvIndex := pDrvIndex 0 }) := by
  obtain ⟨m, hm⟩ := Nat.exists_eq_add_of_lt hj
  have hsplit : List.range hdr.maxInvokeDrivers =
      List.range j ++ j :: (List.range m).map fun k => j + (k + 1) := by
    rw [hm, Nat.add_assoc, List.range_add, List.range_succ_eq_map, List.map_cons, List.map_map]
    rfl
  have hany : ((List.range hdr.maxInvokeDrivers).any fun i => refused hdr world (pDrvIndex i)) =
      true := List.any_eq_true.mpr ⟨j, List.mem_range.mpr hj, hrefused⟩
  rw [kdSetDriver, SensorHeader.slots, setDriver_go, hany, hsplit,
    upTo_split _ (fun i hi => hbefore i (List.mem_range.mp hi)) hrefused]
  rfl

theorem alreadySelected_iff {j : Nat} (hj : j < hdr.maxInvokeDrivers)
    (hrefused : refused hdr world (pDrvIndex j) = true)
    (hbefore : ∀ i < j, refused hdr world (pDrvIndex i) = false) (cam : Sensors) :
    AlreadySelected hdr world pDrvIndex cam ↔
      cam.drvIndex = pDrvIndex 0 ∧
      cam.i2cBusNum = i2cBusOf hdr.toSensorHeader (socketOf hdr (pDrvIndex j)) ∧
      ∀ i < j + 1, switched hdr world (pDrvIndex i) (cam.slots i) = cam.slots i := by
  have hslots : (∀ i < j + 1, switched hdr world (pDrvIndex i) (cam.slots i) = cam.slots i) ↔
      (∀ i < j, (cam.slots i).invokeSocketIdx = socketOf hdr (pDrvIndex i) ∧
        Configured hdr world (pDrvIndex i) (cam.slots i)) ∧
      (cam.slots j).invokeSocketIdx = socketOf hdr (pDrvIndex j) ∧
      (cam.slots j).bEnableDriver = false ∧
      (initOf hdr world (pDrvIndex j) = some none → (cam.slots j).pInvokeSensorFunc = none) := by
    rw [Nat.forall_lt_succ_right, switched_refused_iff hdr world hrefused]
    refine and_congr_left fun _ => forall₂_congr fun i hi => ?_
    exact switched_eq_iff hdr world (hbefore i hi) (cam.slots i)
  rw [hslots]
  constructor
  · exact fun h => h j hj hrefused hbefore
  · intro h k hk hrefused' hbefore'
    have hkj : k = j := by
      rcases Nat.lt_trichotomy k j with hlt | heq | hlt
      · rw [hbefore k hlt] at hrefused'
        cases hrefused'
      · exact heq
      · rw [hbefore' j hlt] at hrefused
        cases hrefused
    subst hkj
    exact h

theorem selectsAtomically_accepted
    (hall : ∀ i < hdr.maxInvokeDrivers, refused hdr world (pDrvIndex i) = false) (cam : Sensors) :
    SelectsAtomically hdr world pDrvIndex cam := by
  unfold SelectsAtomically
  rw [setDriver_accepted hall]
  refine ⟨fun hne => absurd rfl hne, fun _ i hi => ?_⟩
  rw [switchAll_slots hdr world pDrvIndex List.nodup_range, if_pos (List.mem_range.mpr hi)]
  exact configured_switched hdr world (hall i hi) _

theorem selectsAtomically_refused {j : Nat} (hj : j < hdr.maxInvokeDrivers)
    (hrefused : refused hdr world (pDrvIndex j) = true)
    (hbefore : ∀ i < j, refused hdr world (pDrvIndex i) = false) (cam : Sensors) :
    SelectsAtomically hdr world pDrvIndex cam ↔ AlreadySelected hdr world pDrvIndex cam := by
  have hchosen : Chosen hdr (pDrvIndex j) := by
    rw [refused, Bool.and_eq_true] at hrefused
    exact of_decide_eq_true hrefused.1
  have hnodup : (List.range j ++ [j]).Nodup := List.range_succ ▸ List.nodup_range
  have hmem (i : Nat) : i ∈ List.range j ++ [j] ↔ i < j + 1 := by
    rw [← List.range_succ, List.mem_range]
  rw [alreadySelected_iff hj hrefused hbefore]
  unfold SelectsAtomically
  rw [setDriver_refused hj hrefused hbefore]
  simp only [switchAll_slots hdr world pDrvIndex hnodup, hmem, switchAll_drvIndex,
    switchAll_bus hdr world pDrvIndex hchosen.1]
  constructor
  · intro h
    obtain ⟨hslots, hbus, hidx⟩ := h.1 (by decide)
    refine ⟨hidx.symm, hbus.symm, fun i hi => ?_⟩
    have hslot := hslots i
    rwa [if_pos hi] at hslot
  · intro ⟨hidx, hbus, hslots⟩
    refine ⟨fun _ => ⟨fun i => ?_, hbus.symm, hidx.symm⟩, fun hzero => absurd hzero (by decide)⟩
    by_cases hi : i < j + 1
    · rw [if_pos hi]
      exact hslots i hi
    · rw [if_neg hi]

end Select

/-- A selection is atomic exactly when everything up to the first refused slot
already was as asked for. -/
theorem selectsAtomically_iff (hdr : CameraHeader) (world : World) (pDrvIndex : Nat → BitVec 32)
    (cam : Sensors) :
    SelectsAtomically hdr world pDrvIndex cam ↔ AlreadySelected hdr world pDrvIndex cam := by
  by_cases hall : ∀ i < hdr.maxInvokeDrivers, refused hdr world (pDrvIndex i) = false
  · refine iff_of_true (selectsAtomically_accepted hall cam) fun j hj hrefused _ => ?_
    rw [hall j hj] at hrefused
    cases hrefused
  · have hexists : ∃ j, j < hdr.maxInvokeDrivers ∧ refused hdr world (pDrvIndex j) = true := by
      simpa using hall
    obtain ⟨hj, hrefused⟩ := Nat.find_spec hexists
    have hbefore : ∀ i < Nat.find hexists, refused hdr world (pDrvIndex i) = false := by
      intro i hi
      have hnot := Nat.find_min hexists hi
      have hlt : i < hdr.maxInvokeDrivers := Nat.lt_trans hi hj
      simpa [hlt] using hnot
    exact selectsAtomically_refused hj hrefused hbefore cam

/-- The main camera has a driver and the second one has not. -/
def halfSupported : World :=
  { quietWorld with
    sensorList := fun i =>
      if i = 0 then { sensorInit := some (some 0), drvname := "imx" }
      else { sensorInit := none, drvname := "" } }

/-- The error leaves the first slot switched. -/
theorem half_selected :
    ¬ SelectsAtomically resolutionHeader halfSupported
      (fun i => if i = 0 then 0x10000 else 0x20001) bootSensors := by
  intro h
  have hslot := (h.1 (by decide)).1 0
  revert hslot
  decide

end Camera
end AtomDrivers
