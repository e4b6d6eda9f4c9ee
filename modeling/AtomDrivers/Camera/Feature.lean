/-
The feature requests of the camera.

`adopt_CAMERA_HW_FeatureControl` copies the parameters in, hands them to the
drivers and copies them back.  Three switches over the feature decide what is
copied in, which slots of the parameters point to kernel buffers while the
drivers run, and what is copied back.
-/
import AtomDrivers.Camera.Sensors

namespace AtomDrivers
namespace Camera

open Linux

/-- `MSDK_SENSOR_FEATURE_ENUM`, as far as it is told apart. -/
inductive Feature
  | setEshutter | setGain | setGainAndEshutter | setEshutterGain | setSensorSync
  | setIspMasterClockFreq | setRegister | getRegister | setCctRegister | setEngRegister
  | setItemInfo | getItemInfo | getEngInfo | setVideoMode | setYuvCmd | moveFocusLens
  | setAfWindow | setAeWindow | setCalibrationData | setAutoFlickerMode | getEvAwbRef
  | getShutterGainAwbGain | getExifInfo | getDelayInfo | getAeAwbLockInfo
  | setMaxFrameRateByScenario | getDefaultFrameRateByScenario | setTestPattern
  | getTestPatternChecksumValue | setObLock | setSensorOtpAwbCmd | setSensorOtpLscCmd
  | getTemperatureValue | setFramerate | setHdr | getCropInfo | getVcInfo
  | setIhdrShutterGain | setHdrShutter | getAeFlashlightInfo | getTriggerFlashlightInfo
  | setYuv3aCmd | setAwbGain | setMinMaxFps | getPdafInfo | getPdafData
  | getSensorPdafCapacity | getResolution | getPeriod | getPixelClockFreq
  | getRegisterDefault | getConfigPara | getGroupCount | getLensDriverId
  | cameraParaToSensor | sensorToCameraPara | singleFocusMode | cancelAf | constantAf
  | infinityAf | autotestCmd | getAeStatus | getAfStatus | getAwbStatus | getAfInf
  | getAfMacro | getAfMaxNumFocusAreas | getAeMaxNumMeteringAreas | checkSensorId
  | getSensorN3dStreamToVsyncTime | other
  deriving DecidableEq, Repr

namespace Feature

/-- The auto focus commands have no parameters. -/
def withoutPara : Feature → Bool
  | .singleFocusMode | .cancelAf | .constantAf | .infinityAf => true
  | _ => false

/-- The first switch: the parameters are copied from the user. -/
def copiedIn : Feature → Bool
  | .setEshutter | .setGain | .setIspMasterClockFreq | .setRegister | .getRegister
  | .setCctRegister | .setEngRegister | .setItemInfo | .getItemInfo | .getEngInfo
  | .setVideoMode | .setYuvCmd | .moveFocusLens | .setAfWindow | .setCalibrationData
  | .setAutoFlickerMode | .getEvAwbRef | .getShutterGainAwbGain | .setAeWindow
  | .getExifInfo | .getDelayInfo | .getAeAwbLockInfo | .setMaxFrameRateByScenario
  | .getDefaultFrameRateByScenario | .setTestPattern | .getTestPatternChecksumValue
  | .setObLock | .setSensorOtpAwbCmd | .setSensorOtpLscCmd | .getTemperatureValue
  | .setFramerate | .setHdr | .getCropInfo | .getVcInfo | .setIhdrShutterGain
  | .setHdrShutter | .getAeFlashlightInfo | .getTriggerFlashlightInfo | .setYuv3aCmd
  | .setAwbGain | .setMinMaxFps | .getPdafInfo | .getPdafData | .getSensorPdafCapacity => true
  | _ => false

/-- The third switch: the parameters are copied back. -/
def copiedBack : Feature → Bool
  | .getEvAwbRef | .getShutterGainAwbGain | .getExifInfo | .getDelayInfo
  | .getAeAwbLockInfo | .getResolution | .getPeriod | .getPixelClockFreq | .getRegister
  | .getRegisterDefault | .getConfigPara | .getGroupCount | .getLensDriverId
  | .getItemInfo | .getEngInfo | .getAfStatus | .getAeStatus | .getAwbStatus | .getAfInf
  | .getAfMacro | .getAfMaxNumFocusAreas | .getTriggerFlashlightInfo | .setYuv3aCmd
  | .getAeFlashlightInfo | .getAeMaxNumMeteringAreas | .checkSensorId
  | .getDefaultFrameRateByScenario | .setTestPattern | .getTestPatternChecksumValue
  | .getTemperatureValue | .setFramerate | .setHdr | .setIhdrShutterGain
  | .setHdrShutter | .getCropInfo | .getVcInfo | .setMinMaxFps | .getPdafInfo
  | .getSensorPdafCapacity => true
  | _ => false

end Feature

/-- `ACDK_SENSOR_FEATURECONTROL_STRUCT` -/
structure FeatureControlArg where
  invokeCamera : BitVec 32
  featureId : BitVec 32
  pFeaturePara : BitVec 64
  pFeatureParaLen : BitVec 64
  deriving DecidableEq, Repr

/-- The members of `ACDK_KD_SENSOR_SYNC_STRUCT` that are read. -/
inductive SyncMember
  | u2SensorNewExpTime | u2SensorNewGain | u2ISPNewRGain | u2ISPNewGrGain | u2ISPNewGbGain
  | u2ISPNewBGain | uSensorExpDelayFrame | uSensorGainDelayFrame | uISPGainDelayFrame
  deriving DecidableEq, Repr

def SyncMember.width : SyncMember → Nat
  | .uSensorExpDelayFrame | .uSensorGainDelayFrame | .uISPGainDelayFrame => 1
  | _ => 2

/-- The features and structures of the headers. -/
structure FeatureHeader extends SensorHeader where
  feature : BitVec 32 → Feature
  syncOffset : SyncMember → Nat
  sizeofAeAwbRef : Nat
  sizeofWinsizeInfo : Nat
  sizeofVcInfo : Nat
  sizeofPdBlockInfo : Nat
  sizeofExifInfo : Nat
  sizeofAeAwbCur : Nat
  sizeofDelayInfo : Nat
  sizeofFlashlightAeInfo : Nat

def sizeofUint32 : Nat := 4

def sizeofSlot : Nat := 8

def pdafDataSize : Nat := 4096

/-- What is done with a kernel buffer besides handing it to the drivers. -/
inductive AuxCopy
  | fromUser
  | toUser
  /-- as many bytes as slot 2 of the parameters says -/
  | toUserSized
  deriving DecidableEq, Repr

/-- A slot of the parameters holds a user pointer, and a buffer of the kernel
takes its place while the drivers run. -/
structure Aux where
  slot : Nat
  size : Nat
  fill : UInt8 := 0
  copy : AuxCopy := .toUser
  deriving DecidableEq, Repr

/-- The cases of the second switch. -/
inductive Exchange
  /-- slot 1 points to a value -/
  | value
  /-- slots 0 and 1 point to a value each -/
  | values
  | aux (aux : Aux)
  | plain
  deriving DecidableEq, Repr

section FeatureControl

variable (hdr : FeatureHeader) (world : World)

def exchange : Feature → Exchange
  | .getDefaultFrameRateByScenario | .getSensorPdafCapacity => .value
  | .getAeAwbLockInfo | .autotestCmd => .values
  | .getEvAwbRef => .aux { slot := 0, size := hdr.sizeofAeAwbRef }
  | .getCropInfo => .aux { slot := 1, size := hdr.sizeofWinsizeInfo }
  | .getVcInfo => .aux { slot := 1, size := hdr.sizeofVcInfo }
  | .getPdafInfo => .aux { slot := 1, size := hdr.sizeofPdBlockInfo }
  | .setAfWindow | .setAeWindow => .aux { slot := 0, size := sizeofUint32 * 6, copy := .fromUser }
  | .getExifInfo => .aux { slot := 0, size := hdr.sizeofExifInfo }
  | .getShutterGainAwbGain => .aux { slot := 0, size := hdr.sizeofAeAwbCur }
  | .getDelayInfo => .aux { slot := 0, size := hdr.sizeofDelayInfo }
  | .getAeFlashlightInfo => .aux { slot := 0, size := hdr.sizeofFlashlightAeInfo }
  | .getPdafData => .aux { slot := 1, size := pdafDataSize, fill := 0xff, copy := .toUserSized }
  | _ => .plain

def readSlot (para : Buffer) (slot : Nat) : SensorM (BitVec 64) := do
  let bs ← para.read (sizeofSlot * slot) sizeofSlot
  pure (BitVec.ofNat 64 (ofBytes bs))

def writeSlot (para : Buffer) (slot : Nat) (value : BitVec 64) : SensorM Buffer :=
  para.write (sizeofSlot * slot) (toBytes sizeofSlot value.toNat)

/-- `g_pSensorFunc->SensorFeatureControl`, with the buffers the parameters point
to. -/
def sensorFeatureControl (invokeCamera : BitVec 32) (para : Buffer) (aux : Nat → Bytes)
    (len : BitVec 32) : SensorM (BitVec 32 × Buffer × (Nat → Bytes) × BitVec 32) := do
  let (ret, p) ← featureControl hdr.toSensorHeader world invokeCamera
    { para := para.bytes, aux, len }
  pure (ret, { para with bytes := p.para }, p.aux, p.len)

/-! ## Copying in -/

def setNewSensorExpGain (f : SensorSync → SensorSync) : SensorM Unit :=
  Routine.modify fun s =>
    { s with dev := { s.dev with newSensorExpGain := f s.dev.newSensorExpGain } }

/-- The delays are off again. -/
def resetDelayFrames (g : SensorSync) : SensorSync :=
  { g with uSensorExpDelayFrame := 0xFF, uSensorGainDelayFrame := 0xFF, uISPGainDelayFrame := 0xFF }

/-- The two bytes a deferred or immediate command points to. -/
def syncPara (value : BitVec 16) (len : BitVec 32) : FeaturePara where
  para := Bytes.zero.write 0 (toBytes 2 value.toNat)
  aux _ := Bytes.zero
  len := len

/-- Each command sets `FeatureParaLen` anew, and its driver may change it. -/
def issueCommands : List SyncCommand → BitVec 32 → SensorM (BitVec 32)
  | [], len => pure len
  | c :: cs, _ => do
    let (_, p) ← featureControl hdr.toSensorHeader world c.camera (syncPara c.value 2)
    issueCommands cs p.len

def readMember {w : Nat} (para : Buffer) (m : SyncMember) : SensorM (BitVec w) := do
  let bs ← para.read (hdr.syncOffset m) m.width
  pure (BitVec.ofNat w (ofBytes bs))

def readSensorSync (para : Buffer) : SensorM SensorSync := do
  let u2SensorNewExpTime ← readMember hdr para .u2SensorNewExpTime
  let u2SensorNewGain ← readMember hdr para .u2SensorNewGain
  let u2ISPNewRGain ← readMember hdr para .u2ISPNewRGain
  let u2ISPNewGrGain ← readMember hdr para .u2ISPNewGrGain
  let u2ISPNewGbGain ← readMember hdr para .u2ISPNewGbGain
  let u2ISPNewBGain ← readMember hdr para .u2ISPNewBGain
  let uSensorExpDelayFrame ← readMember hdr para .uSensorExpDelayFrame
  let uSensorGainDelayFrame ← readMember hdr para .uSensorGainDelayFrame
  let uISPGainDelayFrame ← readMember hdr para .uISPGainDelayFrame
  pure { u2ISPNewRGain, u2ISPNewGrGain, u2ISPNewGbGain, u2ISPNewBGain, u2SensorNewExpTime,
         u2SensorNewGain, uSensorExpDelayFrame, uSensorGainDelayFrame, uISPGainDelayFrame }

/-- The second command gets the length the first one left. -/
def kdSetExpGain (invokeCamera : BitVec 32) : SensorM Unit := do
  let g ← Routine.modifyGet fun s =>
    (s.dev.newSensorExpGain, { s with dev := { s.dev with setExpGainDoneFlag := false } })
  let (_, p) ← featureControl hdr.toSensorHeader world invokeCamera
    (syncPara g.u2SensorNewExpTime 2)
  let _ ← featureControl hdr.toSensorHeader world invokeCamera (syncPara g.u2SensorNewGain p.len)
  Routine.modify fun s => { s with dev := { s.dev with setExpGainDoneFlag := true } }

def resetBefore (feature : Feature) : SensorM Unit :=
  if feature = .setEshutter ∨ feature = .setGain then setNewSensorExpGain resetDelayFrames
  else pure ()

/-- The common case, the only one that frees the parameters after a fault. -/
def copyPara (arg : FeatureControlArg) (para : Buffer) (len : BitVec 32) :
    SensorM (Option (Buffer × BitVec 32)) := do
  let (para, missing) ← para.copyIn world.env arg.pFeaturePara len.toNat
  if missing ≠ 0 then do
    kfree para
    pure none
  else pure (some (para, len))

/-- SENSOR_FEATURE_SET_SENSOR_SYNC -/
def copySensorSync (arg : FeatureControlArg) (para : Buffer) (len : BitVec 32) :
    SensorM (Option (Buffer × BitVec 32)) := do
  let (para, missing) ← para.copyIn world.env arg.pFeaturePara len.toNat
  if missing ≠ 0 then pure none
  else do
    let info ← readSensorSync hdr para
    setNewSensorExpGain fun _ => (setSensorSync arg.invokeCamera info).1
    let len ← issueCommands hdr world (setSensorSync arg.invokeCamera info).2 len
    pure (some (para, len))

/-- SENSOR_FEATURE_SET_ESHUTTER_GAIN -/
def copyEshutterGain (arg : FeatureControlArg) (para : Buffer) (len : BitVec 32) :
    SensorM (Option (Buffer × BitVec 32)) := do
  let (para, missing) ← para.copyIn world.env arg.pFeaturePara len.toNat
  if missing ≠ 0 then pure none
  else do
    let u2SensorNewExpTime ← readMember hdr para .u2SensorNewExpTime
    let u2SensorNewGain ← readMember hdr para .u2SensorNewGain
    setNewSensorExpGain fun g => { g with u2SensorNewExpTime, u2SensorNewGain }
    kdSetExpGain hdr world arg.invokeCamera
    pure (some (para, len))

/-- `none` is a fault. -/
def copyParaIn (arg : FeatureControlArg) (para : Buffer) (len : BitVec 32) :
    SensorM (Option (Buffer × BitVec 32)) := do
  resetBefore (hdr.feature arg.featureId)
  if (hdr.feature arg.featureId).copiedIn then copyPara world arg para len
  else if hdr.feature arg.featureId = .setSensorSync then copySensorSync hdr world arg para len
  else if hdr.feature arg.featureId = .setEshutterGain then copyEshutterGain hdr world arg para len
  else pure (some (para, len))

/-! ## Asking the drivers -/

/-- What the drivers have made of a request. -/
structure Served where
  ret : BitVec 32
  para : Buffer
  len : BitVec 32

def serveValue (arg : FeatureControlArg) (para : Buffer) (len : BitVec 32) :
    SensorM (Option Served) := do
  match ← kmalloc world.env sizeofUint32 with
  | none => pure none
  | some pValue => do
    let pValue ← pValue.memset 0 sizeofUint32
    let para ← writeSlot para 1 pValue.addr
    let (ret, para, aux, len) ←
      sensorFeatureControl hdr world arg.invokeCamera para (fun _ => pValue.bytes) len
    let para ← writeSlot para 1 (((aux 0).u32 0).setWidth 64)
    kfree pValue
    pure (some { ret, para, len })

/-- Both buffers are asked for before either is checked. -/
def serveValues (arg : FeatureControlArg) (para : Buffer) (len : BitVec 32) :
    SensorM (Option Served) := do
  let pValue0 ← kmalloc world.env sizeofUint32
  let pValue1 ← kmalloc world.env sizeofUint32
  match pValue0, pValue1 with
  | some pValue0, some pValue1 => do
    let pValue1 ← pValue1.memset 0 sizeofUint32
    let pValue0 ← pValue0.memset 0 sizeofUint32
    let para ← writeSlot para 0 pValue0.addr
    let para ← writeSlot para 1 pValue1.addr
    let (ret, para, aux, len) ←
      sensorFeatureControl hdr world arg.invokeCamera para
        (fun k => if k = 0 then pValue0.bytes else pValue1.bytes) len
    let para ← writeSlot para 0 (((aux 0).u32 0).setWidth 64)
    let para ← writeSlot para 1 (((aux 1).u32 0).setWidth 64)
    kfree pValue0
    kfree pValue1
    pure (some { ret, para, len })
  | _, _ => pure none

/-- The copy behind the user's pointer, whose failure is only logged. -/
def auxOut (a : Aux) (usrPtr : BitVec 64) (buf para : Buffer) : SensorM Unit :=
  match a.copy with
  | .fromUser => pure ()
  | .toUser => do
    let _ ← buf.copyOut world.env usrPtr a.size
  | .toUserSized => do
    let size ← readSlot para 2
    let _ ← buf.copyOut world.env usrPtr (size.setWidth 32).toNat

def auxIn (a : Aux) (usrPtr : BitVec 64) (buf : Buffer) : SensorM Buffer :=
  match a.copy with
  | .fromUser => do
    let (buf, _) ← buf.copyIn world.env usrPtr a.size
    pure buf
  | _ => pure buf

def serveAux (a : Aux) (arg : FeatureControlArg) (para : Buffer) (len : BitVec 32) :
    SensorM (Option Served) := do
  let usrPtr ← readSlot para a.slot
  match ← kmalloc world.env a.size with
  | none => pure none
  | some buf => do
    let buf ← buf.memset a.fill a.size
    let para ← writeSlot para a.slot buf.addr
    let buf ← auxIn world a usrPtr buf
    let (ret, para, aux, len) ←
      sensorFeatureControl hdr world arg.invokeCamera para (fun _ => buf.bytes) len
    auxOut world a usrPtr { buf with bytes := aux 0 } para
    kfree buf
    let para ← writeSlot para a.slot usrPtr
    pure (some { ret, para, len })

def servePlain (arg : FeatureControlArg) (para : Buffer) (len : BitVec 32) :
    SensorM (Option Served) := do
  let (ret, para, _, len) ←
    sensorFeatureControl hdr world arg.invokeCamera para (fun _ => Bytes.zero) len
  pure (some { ret, para, len })

def serve (arg : FeatureControlArg) (para : Buffer) (len : BitVec 32) : SensorM (Option Served) :=
  match exchange hdr (hdr.feature arg.featureId) with
  | .value => serveValue hdr world arg para len
  | .values => serveValues hdr world arg para len
  | .aux a => serveAux hdr world a arg para len
  | .plain => servePlain hdr world arg para len

/-! ## The request -/

/-- The number of bytes that are missing. -/
def copyParaBack (arg : FeatureControlArg) (served : Served) : SensorM Nat :=
  if (hdr.feature arg.featureId).copiedBack then
    served.para.copyOut world.env arg.pFeaturePara served.len.toNat
  else pure 0

def copyParaOut (arg : FeatureControlArg) (served : Served) : SensorM Int := do
  let missing ← copyParaBack hdr world arg served
  kfree served.para
  if missing ≠ 0 then pure (-EFAULT)
  else
    copyOutThen world.env arg.pFeatureParaLen
      (Bytes.zero.write 0 (toBytes sizeofUint32 served.len.toNat)) sizeofUint32
      (pure served.ret.toInt)

def adoptCameraHwFeatureControl (arg : FeatureControlArg) : SensorM Int := do
  if (hdr.feature arg.featureId).withoutPara = false ∧
      (arg.pFeaturePara = 0 ∨ arg.pFeatureParaLen = 0) then
    pure (-EFAULT)
  else do
    let (len, missing) ← copyIn world.env Bytes.zero arg.pFeatureParaLen sizeofUint32
    if missing ≠ 0 then pure (-EFAULT)
    else do
      let len := len.u32 0
      match ← kmalloc world.env len.toNat with
      | none => pure (-ENOMEM)
      | some para => do
        let para ← para.memset 0 len.toNat
        match ← copyParaIn hdr world arg para len with
        | none => pure (-EFAULT)
        | some (para, len) => do
          match ← serve hdr world arg para len with
          | none => pure (-ENOMEM)
          | some served => copyParaOut hdr world arg served

end FeatureControl

end Camera
end AtomDrivers
