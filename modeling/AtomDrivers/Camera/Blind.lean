/-
Requests whose outcome does not depend on old memory.

Every buffer of a feature request is cleared before its first use, and the
drivers' answers are given, so the old content of the heap and of the stack makes
no difference to it.  The same holds for the requests without local buffers.
-/
import AtomDrivers.Camera.Requests

namespace AtomDrivers
namespace Camera

open Linux Routine

section Steps

variable (hdr : CameraHeader) (world : World)

theorem blind_walk {α : Type} (f : Nat → Sensors → α × Sensors) : Blind (walk f) :=
  Blind.modifyGet _

theorem blind_getSensors : Blind getSensors := Blind.modifyGet _

theorem blind_setSensors (f : Sensors → Sensors) : Blind (setSensors f) := Blind.modify _

theorem blind_setNewSensorExpGain (f : SensorSync → SensorSync) : Blind (setNewSensorExpGain f) :=
  Blind.modify _

theorem blind_featureControl (invokeCamera : BitVec 32) (p : FeaturePara) :
    Blind (featureControl hdr.toSensorHeader world invokeCamera p) :=
  blind_walk _

theorem blind_readSlot (para : Buffer) (slot : Nat) : Blind (readSlot para slot) :=
  (para.blind_read _ _).bind fun _ => Blind.pure _

theorem blind_writeSlot (para : Buffer) (slot : Nat) (value : BitVec 64) :
    Blind (writeSlot para slot value) :=
  para.blind_write _ _

theorem blind_sensorFeatureControl (invokeCamera : BitVec 32) (para : Buffer) (aux : Nat → Bytes)
    (len : BitVec 32) :
    Blind (sensorFeatureControl hdr.toFeatureHeader world invokeCamera para aux len) :=
  (blind_featureControl hdr world _ _).bind fun _ => Blind.pure _

end Steps

/-! ## Feature requests -/

section Feature

variable (hdr : CameraHeader) (world : World)

theorem blind_issueCommands (cs : List SyncCommand) (len : BitVec 32) :
    Blind (issueCommands hdr.toFeatureHeader world cs len) := by
  induction cs generalizing len with
  | nil => exact Blind.pure _
  | cons c cs ih => exact (blind_featureControl hdr world _ _).bind fun r => ih r.2.len

theorem blind_readMember {w : Nat} (para : Buffer) (m : SyncMember) :
    Blind (readMember (w := w) hdr.toFeatureHeader para m) :=
  (para.blind_read _ _).bind fun _ => Blind.pure _

theorem blind_readSensorSync (para : Buffer) :
    Blind (readSensorSync hdr.toFeatureHeader para) := by
  refine (blind_readMember hdr para _).bind fun _ => ?_
  refine (blind_readMember hdr para _).bind fun _ => ?_
  refine (blind_readMember hdr para _).bind fun _ => ?_
  refine (blind_readMember hdr para _).bind fun _ => ?_
  refine (blind_readMember hdr para _).bind fun _ => ?_
  refine (blind_readMember hdr para _).bind fun _ => ?_
  refine (blind_readMember hdr para _).bind fun _ => ?_
  refine (blind_readMember hdr para _).bind fun _ => ?_
  exact (blind_readMember hdr para _).bind fun _ => Blind.pure _

theorem blind_kdSetExpGain (invokeCamera : BitVec 32) :
    Blind (kdSetExpGain hdr.toFeatureHeader world invokeCamera) := by
  refine (Blind.modifyGet _).bind fun g => ?_
  refine (blind_featureControl hdr world _ _).bind fun r => ?_
  exact (blind_featureControl hdr world _ _).bind fun _ => Blind.modify _

theorem blind_copyParaIn (arg : FeatureControlArg) (para : Buffer) (len : BitVec 32) :
    Blind (copyParaIn hdr.toFeatureHeader world arg para len) := by
  have hcopy := para.blind_copyIn (ν := StackVar) (σ := Sensors) world.env arg.pFeaturePara
    len.toNat
  have hreset : Blind (resetBefore (hdr.feature arg.featureId)) :=
    Blind.ite (fun _ => blind_setNewSensorExpGain _) fun _ => Blind.pure _
  have hpara : Blind (copyPara world arg para len) :=
    hcopy.bind fun c => Blind.ite (fun _ => (blind_kfree _).bind fun _ => Blind.pure _)
      fun _ => Blind.pure _
  have hsync : Blind (copySensorSync hdr.toFeatureHeader world arg para len) := by
    refine hcopy.bind fun c => Blind.ite (fun _ => Blind.pure _) fun _ => ?_
    refine (blind_readSensorSync hdr _).bind fun info => ?_
    refine (blind_setNewSensorExpGain _).bind fun _ => ?_
    exact (blind_issueCommands hdr world _ _).bind fun _ => Blind.pure _
  have hexp : Blind (copyEshutterGain hdr.toFeatureHeader world arg para len) := by
    refine hcopy.bind fun c => Blind.ite (fun _ => Blind.pure _) fun _ => ?_
    refine (blind_readMember hdr _ _).bind fun _ => (blind_readMember hdr _ _).bind fun _ => ?_
    refine (blind_setNewSensorExpGain _).bind fun _ => ?_
    exact (blind_kdSetExpGain hdr world _).bind fun _ => Blind.pure _
  refine hreset.bind fun _ => Blind.ite (fun _ => hpara) fun _ => ?_
  exact Blind.ite (fun _ => hsync) fun _ => Blind.ite (fun _ => hexp) fun _ => Blind.pure _

theorem blind_serveValue (arg : FeatureControlArg) (para : Buffer) (len : BitVec 32) :
    Blind (serveValue hdr.toFeatureHeader world arg para len) := by
  refine blind_kmalloc_memset world.env 0 sizeofUint32 (Blind.pure _) fun pValue => ?_
  refine (blind_writeSlot _ _ _).bind fun para => ?_
  refine (blind_sensorFeatureControl hdr world _ _ _ _).bind fun r => ?_
  refine (blind_writeSlot _ _ _).bind fun para => ?_
  exact (blind_kfree _).bind fun _ => Blind.pure _

theorem blind_serveValues (arg : FeatureControlArg) (para : Buffer) (len : BitVec 32) :
    Blind (serveValues hdr.toFeatureHeader world arg para len) := by
  refine (same_kmalloc world.env sizeofUint32).bind fun b0 b0' h0 => ?_
  refine (same_kmalloc world.env sizeofUint32).bind fun b1 b1' h1 => ?_
  cases h0 with
  | none => cases h1 <;> exact Blind.pure _
  | some h0 =>
    cases h1 with
    | none => exact Blind.pure _
    | some h1 =>
      refine (Buffer.Alike.memset h1 0).bind_eq fun pValue1 => ?_
      refine (Buffer.Alike.memset h0 0).bind_eq fun pValue0 => ?_
      refine (blind_writeSlot _ _ _).bind fun para => ?_
      refine (blind_writeSlot _ _ _).bind fun para => ?_
      refine (blind_sensorFeatureControl hdr world _ _ _ _).bind fun r => ?_
      refine (blind_writeSlot _ _ _).bind fun para => ?_
      refine (blind_writeSlot _ _ _).bind fun para => ?_
      refine (blind_kfree _).bind fun _ => ?_
      exact (blind_kfree _).bind fun _ => Blind.pure _

theorem blind_auxIn (a : Aux) (usrPtr : BitVec 64) (buf : Buffer) :
    Blind (auxIn world a usrPtr buf) := by
  unfold auxIn
  cases a.copy with
  | fromUser => exact (buf.blind_copyIn _ _ _).bind fun _ => Blind.pure _
  | toUser => exact Blind.pure _
  | toUserSized => exact Blind.pure _

theorem blind_auxOut (a : Aux) (usrPtr : BitVec 64) (buf para : Buffer) :
    Blind (auxOut world a usrPtr buf para) := by
  unfold auxOut
  cases a.copy with
  | fromUser => exact Blind.pure _
  | toUser => exact (buf.blind_copyOut _ _ _).bind fun _ => Blind.pure _
  | toUserSized =>
    refine (blind_readSlot _ _).bind fun size => ?_
    exact (buf.blind_copyOut _ _ _).bind fun _ => Blind.pure _

theorem blind_serveAux (a : Aux) (arg : FeatureControlArg) (para : Buffer) (len : BitVec 32) :
    Blind (serveAux hdr.toFeatureHeader world a arg para len) := by
  refine (blind_readSlot _ _).bind fun usrPtr => ?_
  refine blind_kmalloc_memset world.env a.fill a.size (Blind.pure _) fun buf => ?_
  refine (blind_writeSlot _ _ _).bind fun para => ?_
  refine (blind_auxIn world _ _ _).bind fun buf => ?_
  refine (blind_sensorFeatureControl hdr world _ _ _ _).bind fun r => ?_
  refine (blind_auxOut world _ _ _ _).bind fun _ => ?_
  refine (blind_kfree _).bind fun _ => ?_
  exact (blind_writeSlot _ _ _).bind fun _ => Blind.pure _

theorem blind_serve (arg : FeatureControlArg) (para : Buffer) (len : BitVec 32) :
    Blind (serve hdr.toFeatureHeader world arg para len) := by
  unfold serve
  cases exchange hdr.toFeatureHeader (hdr.feature arg.featureId) with
  | value => exact blind_serveValue hdr world arg para len
  | values => exact blind_serveValues hdr world arg para len
  | aux a => exact blind_serveAux hdr world a arg para len
  | plain => exact (blind_sensorFeatureControl hdr world _ _ _ _).bind fun _ => Blind.pure _

theorem blind_copyParaOut (arg : FeatureControlArg) (served : Served) :
    Blind (copyParaOut hdr.toFeatureHeader world arg served) := by
  have hback : Blind (copyParaBack hdr.toFeatureHeader world arg served) :=
    Blind.ite (fun _ => Buffer.blind_copyOut _ _ _ _) fun _ => Blind.pure _
  refine hback.bind fun missing => (blind_kfree _).bind fun _ => ?_
  refine Blind.ite (fun _ => Blind.pure _) fun _ => ?_
  exact blind_copyOutThen _ _ _ _ (Blind.pure _)

/-- No feature request looks at old memory. -/
theorem blind_featureRequest (arg : FeatureControlArg) :
    Blind (adoptCameraHwFeatureControl hdr.toFeatureHeader world arg) := by
  refine Blind.ite (fun _ => Blind.pure _) fun _ => ?_
  refine (blind_copyIn _ _ _ _).bind fun c => Blind.ite (fun _ => Blind.pure _) fun _ => ?_
  refine blind_kmalloc_memset world.env 0 _ (Blind.pure _) fun para => ?_
  refine (blind_copyParaIn hdr world arg para _).bind fun c => ?_
  cases c with
  | none => exact Blind.pure _
  | some c =>
    refine (blind_serve hdr world arg c.1 c.2).bind fun served => ?_
    cases served with
    | none => exact Blind.pure _
    | some served => exact blind_copyParaOut hdr world arg served

end Feature

/-! ## Requests without an argument -/

/-- No user copy is made, and the hidden input makes no difference. -/
structure Quiet {α : Type} (m : SensorM α) : Prop where
  blind : Blind m
  copies : ∀ stale s, (m stale s).2.copies = s.copies

section Quiet

variable {α β : Type}

theorem Quiet.pure (a : α) : Quiet (pure a) := ⟨Blind.pure a, fun _ _ => rfl⟩

theorem Quiet.bind {m : SensorM α} {f : α → SensorM β} (hm : Quiet m) (hf : ∀ a, Quiet (f a)) :
    Quiet (m >>= f) :=
  ⟨hm.blind.bind fun a => (hf a).blind,
    fun stale s => ((hf _).copies stale _).trans (hm.copies stale s)⟩

theorem Quiet.ite {p : Prop} [Decidable p] {m n : SensorM α} (hm : Quiet m) (hn : Quiet n) :
    Quiet (if p then m else n) := by
  by_cases hp : p
  · rwa [if_pos hp]
  · rwa [if_neg hp]

theorem quiet_walk (f : Nat → Sensors → α × Sensors) : Quiet (walk f) :=
  ⟨blind_walk f, fun _ _ => rfl⟩

theorem quiet_setSensors (f : Sensors → Sensors) : Quiet (setSensors f) :=
  ⟨blind_setSensors f, fun _ _ => rfl⟩

variable (hdr : CameraHeader) (world : World)

theorem quiet_open : Quiet (adoptCameraHwOpen hdr world) :=
  (quiet_walk _).bind fun _ => Quiet.pure _

theorem quiet_close : Quiet (adoptCameraHwClose hdr world) := by
  have hreset : Quiet (setNewSensorExpGain resetDelayFrames) :=
    ⟨blind_setNewSensorExpGain _, fun _ _ => rfl⟩
  exact (quiet_walk _).bind fun _ => hreset.bind fun _ => Quiet.pure _

theorem quiet_searchSensors (sensorID : Bytes) (retLen err : BitVec 32) (is : List Nat) :
    Quiet (searchSensors hdr world sensorID retLen err is) := by
  have hget : Quiet getSensors := ⟨blind_getSensors, fun _ _ => rfl⟩
  induction is generalizing sensorID retLen err with
  | nil => exact Quiet.pure _
  | cons i is ih =>
    refine hget.bind fun cam => Quiet.ite (ih _ _ _) ?_
    refine (quiet_walk _).bind fun r => Quiet.ite (ih _ _ _) ?_
    exact (quiet_setSensors _).bind fun _ => ih _ _ _

theorem quiet_checkIsAlive : Quiet (adoptCameraHwCheckIsAlive hdr world) := by
  refine (quiet_walk _).bind fun _ => (quiet_setSensors _).bind fun _ => ?_
  refine (quiet_searchSensors hdr world _ _ _ _).bind fun err => ?_
  refine (quiet_walk _).bind fun _ => (quiet_walk _).bind fun _ => ?_
  exact (quiet_setSensors _).bind fun _ => Quiet.pure _

/-- Without an argument the buffer passes through unread. -/
theorem request_noArgument {command : Option Command} (h : ∀ c ∈ command, c.takesArgument = false) :
    ∃ m : SensorM Int, Quiet m ∧
      ∀ pBuff, request hdr world command pBuff = (do let ret ← m; pure (ret, pBuff)) := by
  cases command with
  | none => exact ⟨pure (-EPERM), Quiet.pure _, fun _ => rfl⟩
  | some c =>
    have harg : c.takesArgument = false := h c rfl
    cases c with
    | open' => exact ⟨_, quiet_open hdr world, fun _ => rfl⟩
    | close => exact ⟨_, quiet_close hdr world, fun _ => rfl⟩
    | checkIsAlive => exact ⟨_, quiet_checkIsAlive hdr world, fun _ => rfl⟩
    | setI2cbus => exact ⟨pure 0, Quiet.pure _, fun _ => rfl⟩
    | releaseI2cTriggerLock => exact ⟨pure 0, Quiet.pure _, fun _ => rfl⟩
    | getIspClk => exact ⟨pure 0, Quiet.pure _, fun _ => rfl⟩
    | _ => exact absurd harg (by decide)

end Quiet

/-! ## Requests whose buffers are cleared -/

section Others

variable (hdr : CameraHeader) (world : World)

theorem blind_multiSensorControl (invokeCamera : BitVec 32) (p : ControlPara) :
    Blind (kdMultiSensorControl hdr.toSensorHeader world invokeCamera p) := by
  refine (blind_walk _).bind fun r => Blind.ite (fun _ => Blind.pure _) fun _ => ?_
  refine Blind.ite (fun _ => ?_) fun _ => Blind.pure _
  refine (blind_featureControl hdr world _ _).bind fun _ => ?_
  exact (blind_featureControl hdr world _ _).bind fun _ => Blind.pure _

theorem blind_control (arg : ControlArg) : Blind (adoptCameraHwControl hdr world arg) := by
  refine Blind.ite (fun _ => Blind.pure _) fun _ => ?_
  refine (blind_copyIn _ _ _ _).bind fun c => Blind.ite (fun _ => Blind.pure _) fun _ => ?_
  refine (blind_copyIn _ _ _ _).bind fun c => Blind.ite (fun _ => Blind.pure _) fun _ => ?_
  refine (blind_multiSensorControl hdr world _ _).bind fun r => ?_
  exact blind_copyOutThen _ _ _ _ (blind_copyOutThen _ _ _ _ (Blind.pure _))

theorem blind_waitDone (time : BitVec 32) : Blind (kdSensorSetExpGainWaitDone hdr world time) :=
  blind_getSensors.bind fun _ => Blind.ite (fun _ => Blind.pure _) fun _ => Blind.pure _

/-- These have local buffers that are not cleared. -/
def Command.asksInfo : Command → Bool
  | .getinfo | .getresolution2 | .getinfo2 => true
  | _ => false

theorem asksInfo_of_noArgument {c : Command} (h : c.takesArgument = false) :
    c.asksInfo = false := by
  cases c <;> first | rfl | exact absurd h (by decide)

theorem blind_request {command : Option Command} (h : ∀ c ∈ command, c.asksInfo = false)
    (pBuff : Bytes) : Blind (request hdr world command pBuff) := by
  by_cases harg : ∀ c ∈ command, c.takesArgument = false
  · obtain ⟨m, hm, hrequest⟩ := request_noArgument hdr world harg
    rw [hrequest]
    exact hm.blind.bind fun _ => Blind.pure _
  · have hret : ∀ {m : SensorM Int}, Blind m → Blind (do let ret ← m; pure (ret, pBuff)) :=
      fun hm => hm.bind fun _ => Blind.pure _
    cases command with
    | none => simp at harg
    | some c =>
      have hinfo : c.asksInfo = false := h c rfl
      cases c with
      | setDriver => exact hret (Blind.modifyGet _)
      | featureconctrol => exact hret (blind_featureRequest hdr world _)
      | control => exact hret (blind_control hdr world _)
      | setShutterGainWaitDone => exact hret (blind_waitDone hdr world _)
      | setCurrentSensor => exact hret ((blind_setSensors _).bind fun _ => Blind.pure _)
      | getSocketPos => exact Blind.pure _
      | setMclkPll => exact Blind.pure _
      | setGpio => exact Blind.pure _
      | getinfo => exact absurd hinfo (by decide)
      | getresolution2 => exact absurd hinfo (by decide)
      | getinfo2 => exact absurd hinfo (by decide)
      | _ => exact absurd (by simp [Command.takesArgument]) harg

end Others

end Camera
end AtomDrivers
