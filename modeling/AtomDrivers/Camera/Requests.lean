/-
The requests of the camera ioctl.

The command words and the structures come from headers: a word is decoded to a
request, and each structure is read out of the bytes it arrives in.  Requests
that look at their argument have the write bit in their word.
-/
import AtomDrivers.Camera.Feature
import AtomDrivers.Linux.Ioctl
import Mathlib.Logic.Function.Basic

namespace AtomDrivers
namespace Camera

open Linux

/-- The requests of `CAMERA_HW_Ioctl`. -/
inductive Command
  | setDriver
  | open'
  | getinfo
  | getresolution2
  | getinfo2
  | featureconctrol
  | control
  | close
  | checkIsAlive
  | getSocketPos
  | setI2cbus
  | releaseI2cTriggerLock
  | setShutterGainWaitDone
  | setCurrentSensor
  | setMclkPll
  | setGpio
  | getIspClk
  deriving DecidableEq, Repr

def Command.takesArgument : Command → Bool
  | .open' | .close | .checkIsAlive | .setI2cbus | .releaseI2cTriggerLock | .getIspClk => false
  | _ => true

/-- `ACDK_SENSOR_GETINFO_STRUCT` -/
structure GetInfoArg where
  pInfo : Nat → BitVec 64
  pConfig : Nat → BitVec 64

/-- `IMAGESENSOR_GETINFO_STRUCT` -/
structure GetInfo2Arg where
  sensorId : BitVec 32
  pInfo : BitVec 64
  pSensorResolution : BitVec 64
  deriving DecidableEq, Repr

/-- `ACDK_SENSOR_CONTROL_STRUCT` -/
structure ControlArg where
  invokeCamera : BitVec 32
  pImageWindow : BitVec 64
  pSensorConfigData : BitVec 64
  deriving DecidableEq, Repr

/-- The members of `MSDK_SENSOR_INFO_STRUCT` that GETINFO2 reads. -/
inductive InfoMember
  | sensorPreviewResolutionX | sensorPreviewResolutionY | sensorFullResolutionX
  | sensorFullResolutionY | sensorClockFreq | sensorCameraPreviewFrameRate
  | sensorVideoFrameRate | sensorStillCaptureFrameRate | sensorWebCamCaptureFrameRate
  | sensorClockPolarity | sensorClockFallingPolarity | sensorClockRisingCount
  | sensorClockFallingCount | sensorClockDividCount | sensorPixelClockCount
  | sensorDataLatchCount | sensorHsyncPolarity | sensorVsyncPolarity
  | sensorInterruptDelayLines | sensorResetActiveHigh | sensorResetDelayCount
  | sensroInterfaceType | sensorOutputDataFormat | sensorMIPILaneNumber
  | captureDelayFrame | previewDelayFrame | videoDelayFrame | highSpeedVideoDelayFrame
  | slimVideoDelayFrame | custom1DelayFrame | custom2DelayFrame | custom3DelayFrame
  | custom4DelayFrame | custom5DelayFrame | yuvAwbDelayFrame | yuvEffectDelayFrame
  | sensorGrabStartX | sensorGrabStartY | sensorDrivingCurrent | sensorMasterClockSwitch
  | aeShutDelayFrame | aeSensorGainDelayFrame | aeISPGainDelayFrame
  | mipiDataLowPwr2HighSpeedTermDelayCount | mipiDataLowPwr2HighSpeedSettleDelayCount
  | mipiCLKLowPwr2HighSpeedTermDelayCount | sensorWidthSampling | sensorHightSampling
  | sensorPacketECCOrder | mipisensorType | ihdrLEFirstLine | ihdrSupport | sensorModeNum
  | settleDelayMode | pdafSupport | dpcmInfo | perFrameCTLSupport | scamDataNumber
  | scamDDREn | scamCLKINV
  deriving DecidableEq, Repr

/-- The members of `ACDK_SENSOR_INFO2_STRUCT` that GETINFO2 sets.  A number tells
the scenario: preview, capture, video, high speed video, slim video, and 5 to 9
for custom 1 to 5. -/
inductive Info2Member
  | same (m : InfoMember)
  | sensorGrabStartX (scenario : Fin 10)
  | sensorGrabStartY (scenario : Fin 10)
  | mipiDataLowPwr2HSSettleDelayM (scenario : Fin 5)
  | imgsensorDpcmType (scenario : Fin 5)
  deriving DecidableEq, Repr

/-- The scenario and the member that a member is copied from.  These three are
not copied under their own name. -/
def Info2Member.source : Info2Member → Option (Nat × InfoMember)
  | .same .sensorGrabStartX | .same .sensorGrabStartY | .same .dpcmInfo => none
  | .same m => some (0, m)
  | .sensorGrabStartX scenario => some (scenario, .sensorGrabStartX)
  | .sensorGrabStartY scenario => some (scenario, .sensorGrabStartY)
  | .mipiDataLowPwr2HSSettleDelayM scenario =>
    some (scenario, .mipiDataLowPwr2HighSpeedSettleDelayCount)
  | .imgsensorDpcmType scenario => some (scenario, .dpcmInfo)

structure CameraHeader extends FeatureHeader where
  command : BitVec 32 → Option Command
  argument_written : ∀ w c, command w = some c → c.takesArgument → iocWrites w
  featureControlArg : Bytes → FeatureControlArg
  getInfoArg : Bytes → GetInfoArg
  getInfo2Arg : Bytes → GetInfo2Arg
  controlArg : Bytes → ControlArg
  /-- `ACDK_SENSOR_PRESOLUTION_STRUCT` -/
  pResolution : Bytes → Nat → BitVec 64
  sizeofSensorInfo2 : Nat
  infoMember : Bytes → InfoMember → BitVec 32
  /-- A cleared structure with these members set. -/
  sensorInfo2 : (Info2Member → Option (BitVec 32)) → Bytes
  kdimgsensorDualMaskMsb : BitVec 32
  kdimgsensorDualMaskLsb : BitVec 32
  kdimgsensorDualShift : Nat
  maxNumOfSupportSensor : Nat
  imgsensorSocketPosNone : BitVec 32
  imgsensorSocketPosLeft : BitVec 32
  imgsensorSocketPosRight : BitVec 32
  errorSensorConnectFail : BitVec 32
  hz : BitVec 32

section Requests

variable (hdr : CameraHeader) (world : World)

def getSensors : SensorM Sensors := Routine.modifyGet fun s => (s.dev, s)

def setSensors (f : Sensors → Sensors) : SensorM Unit :=
  Routine.modify fun s => { s with dev := f s.dev }

def stackVars (v : Nat → StackVar) : SensorM (Nat → Bytes) :=
  fun stale s => (fun i => stale.stack (v i), s)

/-- The value of `return err ? -EIO : err`. -/
def eioOf (err : BitVec 32) : Int := if err ≠ 0 then - Linux.EIO else 0

/-! ## Selecting drivers -/

/-- One slot of `kdSetDriver`; `false` is the early return. -/
def setDriverSlot (index : BitVec 32) (i : Nat) (cam : Sensors) : Bool × Sensors :=
  let socket := (index &&& hdr.kdimgsensorDualMaskMsb) >>> hdr.kdimgsensorDualShift
  let drvIdx := (index &&& hdr.kdimgsensorDualMaskLsb).toNat
  let slot := { cam.slots i with bEnableDriver := false, invokeSocketIdx := socket }
  if socket = hdr.dualCameraNoneSensor then
    (true, { cam with slots := Function.update cam.slots i slot })
  else
    let cam := { cam with i2cBusNum := i2cBusOf hdr.toSensorHeader socket }
    if drvIdx < hdr.maxNumOfSupportSensor then
      match (world.sensorList drvIdx).sensorInit with
      | none => (false, { cam with slots := Function.update cam.slots i slot })
      | some func =>
        let slot := { slot with pInvokeSensorFunc := func }
        if func = none then (false, { cam with slots := Function.update cam.slots i slot })
        else
          let slot := { slot with
            bEnableDriver := true
            invokeSensorNameStr := (world.sensorList drvIdx).drvname }
          (true, { cam with slots := Function.update cam.slots i slot })
    else (true, { cam with slots := Function.update cam.slots i slot })

def kdSetDriver (pDrvIndex : Nat → BitVec 32) (cam : Sensors) : Int × Sensors :=
  go hdr.slots { cam with drvIndex := pDrvIndex 0 }
where
  go : List Nat → Sensors → Int × Sensors
    | [], cam => (0, cam)
    | i :: is, cam =>
      let r := setDriverSlot hdr world (pDrvIndex i) i cam
      if r.1 then go is r.2 else (- Linux.EIO, r.2)

/-! ## Opening, closing and searching -/

def adoptCameraHwOpen : SensorM Int := do
  let err ← walk (kdMultiSensorOpen hdr.toSensorHeader world)
  pure (eioOf err)

def adoptCameraHwClose : SensorM Int := do
  let _ ← walk (kdMultiSensorClose hdr.toSensorHeader world)
  setNewSensorExpGain resetDelayFrames
  pure 0

def numOfCameras : Nat := 2

/-- A found camera goes into the list with the label of the first slot. -/
def recordCamera (i : Nat) (cam : Sensors) : Sensors :=
  if cam.foundCameraNum < numOfCameras then
    let socket := (cam.slots 0).invokeSocketIdx
    let label := if socket = 0x02 then "(front)" else if socket = 0x01 then "(back)" else ""
    { cam with
      foundCameraNum := cam.foundCameraNum + 1
      cameralistUsing :=
        cam.cameralistUsing ++ (cam.slots i).invokeSensorNameStr ++ label ++ "\t" }
  else cam

/-- All slots share one `sensorID` and one length. -/
def searchSensors (sensorID : Bytes) (retLen err : BitVec 32) : List Nat → SensorM (BitVec 32)
  | [] => pure err
  | i :: is => do
    let cam ← getSensors
    let socket := (cam.slots i).invokeSocketIdx
    if socket = hdr.dualCameraNoneSensor then searchSensors sensorID retLen err is
    else do
      let (_, p) ← featureControl hdr.toSensorHeader world socket
        { para := sensorID, aux := fun _ => Bytes.zero, len := retLen }
      let id := p.para.u32 0
      if id = 0 ∨ id = 0xFFFFFFFF then
        searchSensors p.para p.len hdr.errorSensorConnectFail is
      else do
        setSensors (recordCamera i)
        searchSensors p.para p.len errorNone is

def adoptCameraHwCheckIsAlive : SensorM Int := do
  let _ ← walk (kdModulePowerOn hdr.toSensorHeader world true)
  setSensors fun cam => { cam with currentSensorIdx := 0, isSearchSensor := true }
  let err ← searchSensors hdr world Bytes.zero 0 0 hdr.slots
  let _ ← walk (kdMultiSensorClose hdr.toSensorHeader world)
  let _ ← walk (kdModulePowerOn hdr.toSensorHeader world false)
  setSensors fun cam => { cam with isSearchSensor := false }
  pure (eioOf err)

/-! ## Asking for information -/

/-- The drivers' errors are not looked at, and neither are failed copies. -/
def adoptCameraHwGetResolution (pResolution : Nat → BitVec 64) : SensorM Int := do
  match ← kmalloc world.env hdr.sizeofSensorResolutionInfo with
  | none => pure (-ENOMEM)
  | some pRes0 => do
    match ← kmalloc world.env hdr.sizeofSensorResolutionInfo with
    | none => do
      kfree pRes0
      pure (-ENOMEM)
    | some pRes1 => do
      let pRes ← walk fun call cam =>
        ((kdMultiSensorGetResolution hdr.toSensorHeader world call cam.slots
          fun k => if k = 0 then pRes0.bytes else pRes1.bytes).2, cam)
      let _ ← Buffer.copyOut world.env (pResolution 0) { pRes0 with bytes := pRes 0 }
        hdr.sizeofSensorResolutionInfo
      let _ ← Buffer.copyOut world.env (pResolution 1) { pRes1 with bytes := pRes 1 }
        hdr.sizeofSensorResolutionInfo
      kfree pRes0
      kfree pRes1
      pure 0

def copyInfos (arg : GetInfoArg) (info config : Nat → Bytes) : List Nat → SensorM Int
  | [] => pure 0
  | i :: is =>
    copyOutThen world.env (arg.pInfo i) (info i) hdr.sizeofSensorInfo
      (copyOutThen world.env (arg.pConfig i) (config i) hdr.sizeofSensorConfig
        (copyInfos arg info config is))

def adoptCameraHwGetInfo (arg : GetInfoArg) : SensorM Int := do
  let info ← stackVars .info
  let config ← stackVars (.config 0)
  if arg.pInfo 0 = 0 ∨ arg.pInfo 1 = 0 ∨ arg.pConfig 0 = 0 ∨ arg.pConfig 1 = 0 then
    pure (-EFAULT)
  else do
    let r ← walk fun call cam =>
      (kdMultiSensorGetInfo hdr.toSensorHeader world call cam.slots info config, cam)
    copyInfos hdr world arg r.2.1 r.2.2 [0, 1]

/-- One `SensorGetInfo` into a pair of `ginfo`.  The configurations are not
looked at afterwards. -/
def getInfoRound (round : Nat) : SensorM Unit := do
  let config ← stackVars (.config round)
  walk fun call cam =>
    let r := kdMultiSensorGetInfo hdr.toSensorHeader world call cam.slots (cam.ginfo round) config
    ((), { cam with ginfo := Function.update cam.ginfo round r.2.1 })

def getInfoRounds : List Nat → SensorM Unit
  | [] => pure ()
  | round :: rounds => do
    getInfoRound hdr world round
    getInfoRounds rounds

def sensorIdNum (sensorId : BitVec 32) : Nat :=
  if sensorId = hdr.dualCameraMainSensor then 0 else 1

/-- `SensorInfo`, from the five scenarios of the first pass and the five of the
second. -/
def fillSensorInfo2 (idNum : Nat) (first second : Nat → Nat → Bytes) : Bytes :=
  hdr.sensorInfo2 fun m => m.source.map fun (scenario, m) =>
    hdr.infoMember (if scenario < 5 then first scenario idNum else second (scenario - 5) idNum) m

/-- The second step of GETINFO2. -/
def getInfo2Resolution (arg : GetInfo2Arg) (sensorResolution : Nat → Bytes) : SensorM Int := do
  let resolution ← walk fun call cam =>
    ((kdMultiSensorGetResolution hdr.toSensorHeader world call cam.slots sensorResolution).2, cam)
  copyOutThen world.env arg.pSensorResolution (resolution (sensorIdNum hdr arg.sensorId))
    hdr.sizeofSensorResolutionInfo (pure 0)

def adoptCameraHwGetInfo2 (arg : GetInfo2Arg) : SensorM Int := do
  let sensorResolution ← stackVars .sensorResolution
  getInfoRounds hdr world (List.range 5)
  let first ← getSensors
  getInfoRounds hdr world (List.range 5)
  let second ← getSensors
  let idNum := sensorIdNum hdr arg.sensorId
  copyOutThen world.env arg.pInfo (fillSensorInfo2 hdr idNum first.ginfo second.ginfo)
    hdr.sizeofSensorInfo2 (getInfo2Resolution hdr world arg sensorResolution)

def adoptCameraHwControl (arg : ControlArg) : SensorM Int := do
  if arg.pImageWindow = 0 ∨ arg.pSensorConfigData = 0 then pure (-EFAULT)
  else do
    let (imageWindow, missing) ← copyIn world.env Bytes.zero arg.pImageWindow
      hdr.sizeofExposureWindow
    if missing ≠ 0 then pure (-EFAULT)
    else do
      let (sensorConfigData, missing) ← copyIn world.env Bytes.zero arg.pSensorConfigData
        hdr.sizeofSensorConfig
      if missing ≠ 0 then pure (-EFAULT)
      else do
        let (ret, p) ← kdMultiSensorControl hdr.toSensorHeader world arg.invokeCamera
          { imageWindow, sensorConfigData }
        copyOutThen world.env arg.pImageWindow p.imageWindow hdr.sizeofExposureWindow
          (copyOutThen world.env arg.pSensorConfigData p.sensorConfigData hdr.sizeofSensorConfig
            (pure ret.toInt))

/-! ## Small requests -/

def kdGetSocketPostion (socketPos : BitVec 32) : BitVec 32 :=
  if socketPos = hdr.dualCameraMainSensor then hdr.imgsensorSocketPosRight
  else if socketPos = hdr.dualCameraMain2Sensor then hdr.imgsensorSocketPosLeft
  else hdr.imgsensorSocketPosNone

def msToJiffies (ms : BitVec 32) : BitVec 32 := (ms * hdr.hz + 512) >>> 10

def kdSensorSetExpGainWaitDone (time : BitVec 32) : SensorM Int := do
  let cam ← getSensors
  if world.waitEvent cam.setExpGainDoneFlag (msToJiffies hdr time) = 0 then pure (-EAGAIN)
  else pure 0

/-! ## The dispatcher -/

/-- The return value and the argument buffer afterwards. -/
def request (command : Option Command) (pBuff : Bytes) : SensorM (Int × Bytes) :=
  let unchanged (m : SensorM Int) : SensorM (Int × Bytes) := do
    let ret ← m
    pure (ret, pBuff)
  match command with
  | some .setDriver => unchanged (Routine.modifyGet fun s =>
      let r := kdSetDriver hdr world (fun i => pBuff.u32 (4 * i)) s.dev
      (r.1, { s with dev := r.2 }))
  | some .open' => unchanged (adoptCameraHwOpen hdr world)
  | some .getinfo => unchanged (adoptCameraHwGetInfo hdr world (hdr.getInfoArg pBuff))
  | some .getresolution2 => unchanged (adoptCameraHwGetResolution hdr world (hdr.pResolution pBuff))
  | some .getinfo2 => unchanged (adoptCameraHwGetInfo2 hdr world (hdr.getInfo2Arg pBuff))
  | some .featureconctrol =>
    unchanged (adoptCameraHwFeatureControl hdr.toFeatureHeader world (hdr.featureControlArg pBuff))
  | some .control => unchanged (adoptCameraHwControl hdr world (hdr.controlArg pBuff))
  | some .close => unchanged (adoptCameraHwClose hdr world)
  | some .checkIsAlive => unchanged (adoptCameraHwCheckIsAlive hdr world)
  | some .getSocketPos =>
    pure (0, pBuff.write 0 (toBytes sizeofUint32 (kdGetSocketPostion hdr (pBuff.u32 0)).toNat))
  | some .setI2cbus | some .releaseI2cTriggerLock | some .getIspClk => pure (0, pBuff)
  | some .setShutterGainWaitDone =>
    unchanged (kdSensorSetExpGainWaitDone hdr world (pBuff.u32 0))
  | some .setCurrentSensor => unchanged (do
      setSensors fun cam => { cam with currentSensorIdx := pBuff.u32 0 }
      pure 0)
  -- the clock multiplexer and the pins are outside
  | some .setMclkPll | some .setGpio => pure (0, pBuff)
  | none => pure (-EPERM, pBuff)

/-- The end of the argument buffer. -/
def finish (pBuff : Buffer) (ret : Int) (missing : Nat) : SensorM Int := do
  kfree pBuff
  if missing ≠ 0 then pure (-EFAULT) else pure ret

def reply (cmd : BitVec 32) (param : BitVec 64) (ret : Int) (pBuff : Buffer) : SensorM Int :=
  if iocReads cmd then do
    let missing ← pBuff.copyOut world.env param (iocSize cmd)
    finish pBuff ret missing
  else finish pBuff ret 0

def answer (cmd : BitVec 32) (param : BitVec 64) (pBuff : Buffer) : SensorM Int := do
  let (ret, bytes) ← request hdr world (hdr.command cmd) pBuff.bytes
  reply world cmd param ret { pBuff with bytes }

def answerWith (cmd : BitVec 32) (param : BitVec 64) (pBuff : Buffer) : SensorM Int := do
  let (pBuff, missing) ← pBuff.copyIn world.env param (iocSize cmd)
  if missing ≠ 0 then do
    kfree pBuff
    pure (-EFAULT)
  else answer hdr world cmd param pBuff

def cameraHwIoctl (cmd : BitVec 32) (param : BitVec 64) : SensorM Int := do
  if iocDir cmd = iocNone then do
    -- `pBuff` stays NULL, and no such command looks at it
    let (ret, _) ← request hdr world (hdr.command cmd) Bytes.zero
    pure ret
  else do
    match ← kmalloc world.env (iocSize cmd) with
    | none => pure (-ENOMEM)
    | some pBuff =>
      if iocWrites cmd then answerWith hdr world cmd param pBuff
      else answer hdr world cmd param pBuff

end Requests

end Camera
end AtomDrivers
