/-
The multi-sensor layer of the camera.

A few slots each hold the function table of a sensor driver and the socket its
camera sits in.  Every `kd_MultiSensor` function walks over the enabled slots,
calls the drivers it is meant for and stops at the first error.  What the drivers
and the power rails answer is given: a driver's answer is its return value and
the bytes it stores through each pointer it gets.
-/
import AtomDrivers.Camera.I2c
import AtomDrivers.Camera.Sync
import AtomDrivers.Linux.Memory

namespace AtomDrivers
namespace Camera

open Linux

/-- The sockets and sizes of the image sensor headers. -/
structure SensorHeader where
  dualCameraNoneSensor : BitVec 32
  dualCameraMainSensor : BitVec 32
  dualCameraSubSensor : BitVec 32
  dualCameraMain2Sensor : BitVec 32
  maxInvokeDrivers : Nat
  sizeofSensorInfo : Nat
  sizeofSensorConfig : Nat
  sizeofSensorResolutionInfo : Nat
  sizeofExposureWindow : Nat
  sensorInfo_pos : 0 < sizeofSensorInfo
  i2c : I2cHeader

def errorNone : BitVec 32 := 0

/-- The function table of a driver is known by a number. -/
structure Slot where
  bEnableDriver : Bool
  pInvokeSensorFunc : Option Nat
  invokeSocketIdx : BitVec 32
  invokeSensorNameStr : String
  deriving DecidableEq, Repr

/-- One `kdCISModulePowerOn`. -/
structure PowerCall where
  slot : Nat
  on : Bool
  ret : BitVec 32
  deriving DecidableEq, Repr

structure Sensors where
  slots : Nat → Slot
  drvIndex : BitVec 32
  i2cBusNum : BitVec 32
  currentSensorIdx : BitVec 32
  isSearchSensor : Bool
  newSensorExpGain : SensorSync
  setExpGainDoneFlag : Bool
  /-- `ginfo`, `ginfo1` .. `ginfo4` -/
  ginfo : Nat → Nat → Bytes
  cameralistUsing : String
  foundCameraNum : Nat
  power : List PowerCall

/-- The bytes stored through one pointer. -/
abbrev Stored := Nat → Option UInt8

structure SensorResult where
  ret : BitVec 32
  info : Stored := fun _ => none
  config : Stored := fun _ => none
  resolution : Stored := fun _ => none
  imageWindow : Stored := fun _ => none
  para : Stored := fun _ => none
  /-- Behind the kernel pointers in the parameters. -/
  aux : Nat → Stored := fun _ _ => none
  featureParaLen : Option (BitVec 32) := none

/-- The parameters of a feature request as a driver gets them: the parameter
block, the kernel buffers it points to and the length. -/
structure FeaturePara where
  para : Bytes
  aux : Nat → Bytes
  len : BitVec 32

structure SensorEntry where
  /-- `none` is a NULL `SensorInit`; otherwise the function table it yields. -/
  sensorInit : Option (Option Nat)
  drvname : String

/-- The answers to the `n`-th walk over the slots. -/
structure World where
  env : Env
  sensor : Nat → Nat → SensorResult
  /-- A feature request may be answered by what it says. -/
  feature : Nat → Nat → FeaturePara → SensorResult := fun call i _ => sensor call i
  power : Nat → Nat → Bool → BitVec 32
  sensorList : Nat → SensorEntry
  waitEvent : Bool → BitVec 32 → Int

inductive StackVar
  | info (i : Nat)
  | config (round i : Nat)
  | sensorResolution (i : Nat)
  deriving DecidableEq, Repr

abbrev SensorM (α : Type) := Routine (Stale StackVar) (Kernel Sensors) α

/-- One walk over the slots. -/
def walk {α : Type} (f : Nat → Sensors → α × Sensors) : SensorM α :=
  Routine.modifyGet fun s =>
    let r := f s.calls s.dev
    (r.1, { s with dev := r.2, calls := s.calls + 1 })

section Slots

variable (hdr : SensorHeader) (world : World)

def SensorHeader.slots : List Nat := List.range hdr.maxInvokeDrivers

/-- `g_bEnableDriver[i] && g_pInvokeSensorFunc[i]` -/
def Slot.active (slot : Slot) : Bool := slot.bEnableDriver && slot.pInvokeSensorFunc.isSome

/-- Two sensors are told apart: 0 is the main socket, 1 the other two. -/
def sensorIndex (socket : BitVec 32) : Option Nat :=
  if socket = hdr.dualCameraMainSensor then some 0
  else if socket = hdr.dualCameraMain2Sensor ∨ socket = hdr.dualCameraSubSensor then some 1
  else none

def i2cBusOf (socket : BitVec 32) : BitVec 32 :=
  if socket = hdr.dualCameraSubSensor then hdr.i2c.busNum2 else hdr.i2c.busNum1

/-- `body` for the active slots that are selected, up to the first error. -/
def overSlots {α : Type} (slots : Nat → Slot) (selected : Slot → Bool)
    (body : Nat → α → BitVec 32 × α) : List Nat → α → BitVec 32 × α
  | [], a => (errorNone, a)
  | i :: is, a =>
    if (slots i).active ∧ selected (slots i) then
      let r := body i a
      if r.1 ≠ errorNone then r else overSlots slots selected body is r.2
    else overSlots slots selected body is a

theorem overSlots_keeps {α : Type} {slots : Nat → Slot} {selected : Slot → Bool}
    {body : Nat → α → BitVec 32 × α} {I : α → Prop} (hbody : ∀ i a, I a → I (body i a).2)
    (is : List Nat) {a : α} (h : I a) : I (overSlots slots selected body is a).2 := by
  induction is generalizing a with
  | nil => exact h
  | cons i is ih =>
    by_cases hsel : (slots i).active ∧ selected (slots i)
    · simp only [overSlots, if_pos hsel]
      by_cases hfail : (body i a).1 ≠ errorNone
      · rw [if_pos hfail]
        exact hbody i a h
      · rw [if_neg hfail]
        exact ih (hbody i a h)
    · simp only [overSlots, if_neg hsel]
      exact ih h

/-- A walk on a part of what the body works on. -/
theorem overSlots_map {α β : Type} (slots : Nat → Slot) (selected : Slot → Bool)
    (body : Nat → α → BitVec 32 × α) (part : Nat → β → BitVec 32 × β) (f : α → β)
    (hbody : ∀ i a, part i (f a) = ((body i a).1, f (body i a).2)) (is : List Nat) (a : α) :
    overSlots slots selected part is (f a) =
      ((overSlots slots selected body is a).1, f (overSlots slots selected body is a).2) := by
  induction is generalizing a with
  | nil => rfl
  | cons i is ih =>
    by_cases hsel : (slots i).active ∧ selected (slots i)
    · simp only [overSlots, if_pos hsel, hbody]
      by_cases hfail : (body i a).1 ≠ errorNone
      · rw [if_pos hfail, if_pos hfail]
      · rw [if_neg hfail, if_neg hfail]
        exact ih (body i a).2
    · simp only [overSlots, if_neg hsel]
      exact ih a

def powerOn (call i : Nat) (on : Bool) (cam : Sensors) : BitVec 32 × Sensors :=
  let ret := world.power call i on
  (ret, { cam with power := cam.power ++ [{ slot := i, on, ret }] })

/-- From tail to head. -/
def kdMultiSensorOpen (call : Nat) (cam : Sensors) : BitVec 32 × Sensors :=
  overSlots cam.slots (fun slot => cam.currentSensorIdx &&& slot.invokeSocketIdx ≠ 0)
    (fun i cam =>
      let powered := powerOn world call i true cam
      if powered.1 ≠ errorNone then powered
      else
        let cam := { powered.2 with i2cBusNum := i2cBusOf hdr (cam.slots i).invokeSocketIdx }
        let ret := (world.sensor call i).ret
        if ret ≠ errorNone then (ret, (powerOn world call i false cam).2) else (ret, cam))
    hdr.slots.reverse cam

def askInfo (call : Nat) (slots : Nat → Slot) (i : Nat) (a : (Nat → Bytes) × (Nat → Bytes)) :
    BitVec 32 × (Nat → Bytes) × (Nat → Bytes) :=
  match sensorIndex hdr (slots i).invokeSocketIdx with
  | some k =>
    let result := world.sensor call i
    (result.ret, Function.update a.1 k ((a.1 k).patch result.info),
      Function.update a.2 k ((a.2 k).patch result.config))
  | none => (errorNone, a)

/-- Both sensors are asked into cleared locals, which are handed over when all
drivers have succeeded. -/
def kdMultiSensorGetInfo (call : Nat) (slots : Nat → Slot)
    (pSensorInfo pSensorConfigData : Nat → Bytes) :
    BitVec 32 × (Nat → Bytes) × (Nat → Bytes) :=
  let r := overSlots slots (fun _ => true) (askInfo hdr world call slots) hdr.slots
    (fun _ => Bytes.zero, fun _ => Bytes.zero)
  if r.1 ≠ errorNone then (r.1, pSensorInfo, pSensorConfigData)
  else (errorNone, fun k => (pSensorInfo k).copy (r.2.1 k) hdr.sizeofSensorInfo,
    fun k => (pSensorConfigData k).copy (r.2.2 k) hdr.sizeofSensorConfig)

def askResolution (call : Nat) (slots : Nat → Slot) (i : Nat) (pRes : Nat → Bytes) :
    BitVec 32 × (Nat → Bytes) :=
  match sensorIndex hdr (slots i).invokeSocketIdx with
  | some k =>
    let result := world.sensor call i
    (result.ret, Function.update pRes k ((pRes k).patch result.resolution))
  | none => (errorNone, pRes)

def kdMultiSensorGetResolution (call : Nat) (slots : Nat → Slot) (pSensorResolution : Nat → Bytes) :
    BitVec 32 × (Nat → Bytes) :=
  overSlots slots (fun _ => true) (askResolution hdr world call slots) hdr.slots pSensorResolution

def FeaturePara.answer (p : FeaturePara) (result : SensorResult) : FeaturePara where
  para := p.para.patch result.para
  aux k := (p.aux k).patch (result.aux k)
  len := result.featureParaLen.getD p.len

def kdMultiSensorFeatureControl (invokeCamera : BitVec 32) (p : FeaturePara) (call : Nat)
    (cam : Sensors) : (BitVec 32 × FeaturePara) × Sensors :=
  let r := overSlots cam.slots (fun slot => invokeCamera = slot.invokeSocketIdx)
    (fun i (a : FeaturePara × Sensors) =>
      let result := world.feature call i a.1
      (result.ret, a.1.answer result,
        { a.2 with i2cBusNum := i2cBusOf hdr (cam.slots i).invokeSocketIdx }))
    hdr.slots (p, cam)
  ((r.1, r.2.1), r.2.2)

def featureControl (invokeCamera : BitVec 32) (p : FeaturePara) :
    SensorM (BitVec 32 × FeaturePara) :=
  walk (kdMultiSensorFeatureControl hdr world invokeCamera p)

/-- The exposure window and the sensor configuration, as the drivers leave them. -/
structure ControlPara where
  imageWindow : Bytes
  sensorConfigData : Bytes

def kdMultiSensorControl (invokeCamera : BitVec 32) (p : ControlPara) :
    SensorM (BitVec 32 × ControlPara) := do
  let r ← walk fun call cam =>
    let r := overSlots cam.slots (fun slot => invokeCamera = slot.invokeSocketIdx)
      (fun i (a : ControlPara × Sensors) =>
        let result := world.sensor call i
        (result.ret,
          { imageWindow := a.1.imageWindow.patch result.imageWindow
            sensorConfigData := a.1.sensorConfigData.patch result.config },
          { a.2 with i2cBusNum := i2cBusOf hdr (cam.slots i).invokeSocketIdx }))
      hdr.slots (p, cam)
    (((r.1, r.2.1), cam.slots 1), r.2.2)
  if r.1.1 ≠ errorNone then pure r.1
  else if r.2.bEnableDriver then do
    -- SUSPEND and RESUME with one byte of parameters, their answers are dropped
    let frameSync : FeaturePara := { para := Bytes.zero, aux := fun _ => Bytes.zero, len := 0 }
    let suspended ← featureControl hdr world r.2.invokeSocketIdx frameSync
    let _ ← featureControl hdr world r.2.invokeSocketIdx suspended.2
    pure (errorNone, r.1.2)
  else pure (errorNone, r.1.2)

def kdMultiSensorClose (call : Nat) (cam : Sensors) : BitVec 32 × Sensors :=
  overSlots cam.slots (fun slot => cam.currentSensorIdx &&& slot.invokeSocketIdx ≠ 0)
    (fun i cam =>
      let cam := { cam with i2cBusNum := i2cBusOf hdr (cam.slots i).invokeSocketIdx }
      ((world.sensor call i).ret, (powerOn world call i false cam).2))
    hdr.slots cam

/-- `kdModulePowerOn` asks the rails of every enabled slot. -/
def kdModulePowerOn (on : Bool) (call : Nat) (cam : Sensors) : BitVec 32 × Sensors :=
  go hdr.slots cam
where
  go : List Nat → Sensors → BitVec 32 × Sensors
    | [], cam => (errorNone, cam)
    | i :: is, cam =>
      if (cam.slots i).bEnableDriver then
        let powered := powerOn world call i on cam
        if powered.1 ≠ errorNone then powered else go is powered.2
      else go is cam

end Slots

end Camera
end AtomDrivers
