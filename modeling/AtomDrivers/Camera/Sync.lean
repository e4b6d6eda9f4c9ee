/-
Exposure and gain kept for the vertical sync.

A SET_SENSOR_SYNC request leaves an exposure time, a gain and four ISP gains with
a delay in frames for each group.  A delay of 0 is due at once and 0xFF is off.
The request itself is the first tick of all three delays, every vertical sync is
another one, and the ISP gains wait at 0 until they are read.
-/
import AtomDrivers.Machine.Run
import AtomDrivers.Machine.Countdown

namespace AtomDrivers
namespace Camera

/-- `ACDK_KD_SENSOR_SYNC_STRUCT` -/
structure SensorSync where
  u2ISPNewRGain : BitVec 16
  u2ISPNewGrGain : BitVec 16
  u2ISPNewGbGain : BitVec 16
  u2ISPNewBGain : BitVec 16
  u2SensorNewExpTime : BitVec 16
  u2SensorNewGain : BitVec 16
  uSensorExpDelayFrame : BitVec 8
  uSensorGainDelayFrame : BitVec 8
  uISPGainDelayFrame : BitVec 8
  deriving DecidableEq, Repr

/-- The static `g_NewSensorExpGain`. -/
def newSensorExpGain : SensorSync :=
  { u2ISPNewRGain := 128, u2ISPNewGrGain := 128, u2ISPNewGbGain := 128, u2ISPNewBGain := 128,
    u2SensorNewExpTime := 1000, u2SensorNewGain := 640, uSensorExpDelayFrame := 0xFF,
    uSensorGainDelayFrame := 0xFF, uISPGainDelayFrame := 0xFF }

inductive SyncFeature
  | setEshutter
  | setGain
  deriving DecidableEq, Repr

/-- A `SensorFeatureControl` of this layer, with the value it points at. -/
structure SyncCommand where
  camera : BitVec 32
  feature : SyncFeature
  value : BitVec 16
  deriving DecidableEq, Repr

/-- One tick of a delay that issues `cmd` when it is due. -/
def delayTick (cmd : SyncCommand) (delay : BitVec 8) : BitVec 8 × List SyncCommand :=
  if delay = 0 then (0xFF, [cmd])
  else if delay ≠ 0xFF then (delay - 1, [])
  else (delay, [])

/-- The ISP gains stop at 0. -/
def ispTick (delay : BitVec 8) : BitVec 8 :=
  if delay ≠ 0xFF ∧ delay ≠ 0 then delay - 1 else delay

/-- One tick of all three delays, with the commands for `camera`. -/
def syncTick (camera : BitVec 32) (g : SensorSync) : SensorSync × List SyncCommand :=
  let eshutter := delayTick ⟨camera, .setEshutter, g.u2SensorNewExpTime⟩ g.uSensorExpDelayFrame
  let gain := delayTick ⟨camera, .setGain, g.u2SensorNewGain⟩ g.uSensorGainDelayFrame
  ({ g with
      uSensorExpDelayFrame := eshutter.1
      uSensorGainDelayFrame := gain.1
      uISPGainDelayFrame := ispTick g.uISPGainDelayFrame },
    eshutter.2 ++ gain.2)

/-- The SET_SENSOR_SYNC case of `adopt_CAMERA_HW_FeatureControl`.  It overwrites
every field that is kept. -/
def setSensorSync (invokeCamera : BitVec 32) (info : SensorSync) : SensorSync × List SyncCommand :=
  let expDelay :=
    if info.u2SensorNewExpTime = 0 ∨ info.u2SensorNewExpTime = 0xFFFF then 0xFF
    else info.uSensorExpDelayFrame
  syncTick invokeCamera { info with uSensorExpDelayFrame := expDelay }

section Main

variable (dualCameraMainSensor : BitVec 32)

def kdSensorSyncFunctionPtr (g : SensorSync) : SensorSync × List SyncCommand :=
  syncTick dualCameraMainSensor g

/-- The four gains, red first, or zeros while they are not due. -/
def kdGetRawGainInfoPtr (g : SensorSync) : SensorSync × List (BitVec 16) :=
  if g.uISPGainDelayFrame = 0 then
    ({ g with uISPGainDelayFrame := 0xFF },
      [g.u2ISPNewRGain, g.u2ISPNewGrGain, g.u2ISPNewGbGain, g.u2ISPNewBGain])
  else (g, [0, 0, 0, 0])

inductive FrameAction
  | vsync
  | rawGain
  deriving DecidableEq, Repr

/-- `rawGain` is empty for a vertical sync. -/
structure FrameOutput where
  commands : List SyncCommand := []
  rawGain : List (BitVec 16) := []
  deriving DecidableEq, Repr

/-- Frames between two requests. -/
def frames : Machine SensorSync FrameAction FrameOutput where
  step g
    | .vsync =>
      let (g, commands) := kdSensorSyncFunctionPtr dualCameraMainSensor g
      some (g, { commands })
    | .rawGain =>
      let (g, rawGain) := kdGetRawGainInfoPtr g
      some (g, { rawGain })

/-- What a frame does, by its kind. -/
theorem frames_step_cases {g t : SensorSync} {a : FrameAction} {o : FrameOutput}
    (h : (frames dualCameraMainSensor).step g a = some (t, o)) :
    (a = .vsync ∧ t = (syncTick dualCameraMainSensor g).1 ∧
      o = { commands := (syncTick dualCameraMainSensor g).2 }) ∨
    (a = .rawGain ∧ t = (kdGetRawGainInfoPtr g).1 ∧
      o = { rawGain := (kdGetRawGainInfoPtr g).2 }) := by
  cases a with
  | vsync =>
    left
    simp only [frames, Option.some.injEq, Prod.mk.injEq] at h
    exact ⟨rfl, h.1.symm, h.2.symm⟩
  | rawGain =>
    right
    simp only [frames, Option.some.injEq, Prod.mk.injEq] at h
    exact ⟨rfl, h.1.symm, h.2.symm⟩

end Main

/-! ## Delays as countdowns -/

/-- The frames a delay byte stands for. -/
def framesLeft (delay : BitVec 8) : Option Nat := if delay = 0xFF then none else some delay.toNat

theorem framesLeft_eq_zero {delay : BitVec 8} : Countdown.Due (framesLeft delay) ↔ delay = 0 := by
  unfold framesLeft Countdown.Due
  by_cases hoff : delay = 0xFF
  · subst hoff
    decide
  · rw [if_neg hoff, Option.some.injEq]
    constructor
    · intro h
      exact BitVec.eq_of_toNat_eq h
    · intro h
      rw [h]
      rfl

/-- A running delay that is not due goes down by one and stays running. -/
theorem pred_delay {delay : BitVec 8} (hzero : delay ≠ 0) :
    (delay - 1).toNat = delay.toNat - 1 ∧ delay - 1 ≠ 0xFF := by
  have hpos : delay.toNat ≠ 0 := fun h => hzero (BitVec.eq_of_toNat_eq h)
  have hlt := delay.isLt
  have hpred : (delay - 1).toNat = delay.toNat - 1 := by
    rw [BitVec.toNat_sub]
    simp only [BitVec.toNat_ofNat, BitVec.ofNat_eq_ofNat]
    omega
  refine ⟨hpred, fun h => ?_⟩
  have hnat := congrArg BitVec.toNat h
  rw [hpred] at hnat
  have h255 : (0xFF : BitVec 8).toNat = 255 := rfl
  omega

/-- A delay byte ticks as a countdown, and its command is issued when it fires. -/
theorem delayTick_eq (cmd : SyncCommand) (delay : BitVec 8) :
    framesLeft (delayTick cmd delay).1 = Countdown.tick (framesLeft delay) ∧
      (delayTick cmd delay).2 = if Countdown.Due (framesLeft delay) then [cmd] else [] := by
  simp only [framesLeft_eq_zero]
  by_cases hzero : delay = 0
  · subst hzero
    exact ⟨rfl, rfl⟩
  · by_cases hoff : delay = 0xFF
    · subst hoff
      exact ⟨rfl, rfl⟩
    · have hpos : delay.toNat ≠ 0 := fun h => hzero (BitVec.eq_of_toNat_eq h)
      obtain ⟨hpred, hoff'⟩ := pred_delay hzero
      obtain ⟨k, hk⟩ := Nat.exists_eq_succ_of_ne_zero hpos
      simp only [delayTick, if_neg hzero, ne_eq, hoff, not_false_eq_true, if_true, framesLeft,
        if_neg hoff', hpred, and_true]
      rw [hk]
      rfl

theorem ispTick_toNat {delay : BitVec 8} (h : delay ≠ 0xFF) :
    ispTick delay ≠ 0xFF ∧ (ispTick delay).toNat = delay.toNat - 1 := by
  by_cases hzero : delay = 0
  · subst hzero
    exact ⟨by decide, rfl⟩
  · have hrunning : delay ≠ 0xFF ∧ delay ≠ 0 := ⟨h, hzero⟩
    obtain ⟨hpred, hoff⟩ := pred_delay hzero
    rw [ispTick, if_pos hrunning]
    exact ⟨hoff, hpred⟩

end Camera
end AtomDrivers
