/-
The 32-bit ioctl path of the camera.

Five requests carry a structure with pointers.  `CAMERA_HW_Ioctl_Compat`
translates it member by member into an area above the caller's stack, hands that
area to the native handler and copies some members back.  The members are named
as in the source, and a member that is no array is its element 0.
-/
import AtomDrivers.Linux.Moves
import Mathlib.Algebra.Group.Nat.Defs
import Mathlib.Algebra.GroupWithZero.Nat
import Mathlib.Data.BitVec

namespace AtomDrivers
namespace Camera

open Linux

inductive Member
  | invokeCamera
  | featureId
  | pFeaturePara
  | pFeatureParaLen
  | scenarioId (i : Nat)
  | pImageWindow
  | pSensorConfigData
  | sensorId
  | pInfo (i : Nat)
  | pSensorResolution
  | pConfig (i : Nat)
  | pResolution (i : Nat)
  deriving DecidableEq, Repr

/-- The bytes a member takes in the native structure. -/
def Member.width : Member → Nat
  | .invokeCamera | .featureId | .scenarioId _ | .sensorId => 4
  | _ => 8

abbrev Struct32 := Member → BitVec 32

abbrev Struct64 := Member → BitVec 64

/-- The requests whose structure is translated. -/
inductive Request
  | getinfo
  | featureconctrol
  | control
  | getinfo2
  | getresolution2
  deriving DecidableEq, Repr

/-- The members the native handler of a request reads. -/
def Request.members : Request → List Member
  | .getinfo => [.scenarioId 0, .scenarioId 1, .pInfo 0, .pInfo 1, .pConfig 0, .pConfig 1]
  | .featureconctrol => [.invokeCamera, .featureId, .pFeaturePara, .pFeatureParaLen]
  | .control => [.invokeCamera, .scenarioId 0, .pImageWindow, .pSensorConfigData]
  | .getinfo2 => [.sensorId, .pInfo 0, .pSensorResolution]
  | .getresolution2 => [.pResolution 0, .pResolution 1]

/-- The native size of each structure, as the compiler lays it out. -/
structure Abi where
  sizeof : Request → Nat
  members_fit : ∀ r, (r.members.map Member.width).sum ≤ sizeof r

def sizeofPointer : Nat := 8

/-- `err = get_user(..)` -/
def fresh (src dst : Member) : Move Member Member := { src, dst, fresh := true }

/-- `err |= get_user(..)` -/
def also (src dst : Member) : Move Member Member := { src, dst }

def compatGetAcdkSensorGetinfoStruct : List (Move Member Member) :=
  [fresh (.scenarioId 0) (.scenarioId 0), fresh (.scenarioId 1) (.scenarioId 1),
    fresh (.pInfo 0) (.pInfo 0), fresh (.pInfo 1) (.pInfo 1),
    fresh (.pInfo 0) (.pConfig 0), fresh (.pInfo 1) (.pConfig 1)]

def compatPutAcdkSensorGetinfoStruct : List (Move Member Member) :=
  [fresh (.scenarioId 0) (.scenarioId 0), fresh (.scenarioId 1) (.scenarioId 1)]

def compatGetImagesensorGetinfoStruct : List (Move Member Member) :=
  [fresh .sensorId .sensorId, also (.pInfo 0) (.pInfo 0),
    also .pSensorResolution .pSensorResolution]

def compatPutImagesensorGetinfoStruct : List (Move Member Member) :=
  [fresh .sensorId .sensorId]

def compatGetAcdkSensorFeaturecontrolStruct : List (Move Member Member) :=
  [fresh .invokeCamera .invokeCamera, also .featureId .featureId,
    also .pFeaturePara .pFeaturePara, also .pFeatureParaLen .pFeatureParaLen]

def compatPutAcdkSensorFeaturecontrolStruct : List (Move Member Member) :=
  [fresh .invokeCamera .invokeCamera, also .featureId .featureId,
    also .pFeaturePara .pFeaturePara, also .pFeatureParaLen .pFeatureParaLen]

def compatGetAcdkSensorControlStruct : List (Move Member Member) :=
  [fresh .invokeCamera .invokeCamera, also (.scenarioId 0) (.scenarioId 0),
    also .pImageWindow .pImageWindow, also .pSensorConfigData .pSensorConfigData]

def compatPutAcdkSensorControlStruct : List (Move Member Member) :=
  [fresh .invokeCamera .invokeCamera, also (.scenarioId 0) (.scenarioId 0)]

def compatGetAcdkSensorResolutionInfoStruct : List (Move Member Member) :=
  [fresh (.pResolution 0) (.pResolution 0), fresh (.pResolution 1) (.pResolution 1)]

def compatPutAcdkSensorResolutionInfoStruct : List (Move Member Member) := []

def compatGet : Request → List (Move Member Member)
  | .getinfo => compatGetAcdkSensorGetinfoStruct
  | .featureconctrol => compatGetAcdkSensorFeaturecontrolStruct
  | .control => compatGetAcdkSensorControlStruct
  | .getinfo2 => compatGetImagesensorGetinfoStruct
  | .getresolution2 => compatGetAcdkSensorResolutionInfoStruct

def compatPut : Request → List (Move Member Member)
  | .getinfo => compatPutAcdkSensorGetinfoStruct
  | .featureconctrol => compatPutAcdkSensorFeaturecontrolStruct
  | .control => compatPutAcdkSensorControlStruct
  | .getinfo2 => compatPutImagesensorGetinfoStruct
  | .getresolution2 => compatPutAcdkSensorResolutionInfoStruct

/-- The length asked of `compat_alloc_user_space`: `sizeof(*data)`, and
`sizeof(data)` in one place. -/
def areaLength (abi : Abi) : Request → Nat
  | .getresolution2 => sizeofPointer
  | r => abi.sizeof r

/-- `compat_ptr`, and the widening of an unsigned member. -/
def compatPtr (p : BitVec 32) : BitVec 64 := p.setWidth 64

def ptrToCompat (p : BitVec 64) : BitVec 32 := p.setWidth 32

/-- The commands whose argument needs no translation. -/
inductive PlainCommand
  | tOpen
  | tClose
  | tCheckIsAlive
  | setDriver
  | getSocketPos
  | setI2cbus
  | releaseI2cTriggerLock
  | setShutterGainWaitDone
  | setMclkPll
  | setCurrentSensor
  | setGpio
  | getIspClk
  deriving DecidableEq, Repr

inductive CompatCommand
  | request (r : Request)
  | plain (cmd : PlainCommand)
  | other
  deriving DecidableEq, Repr

/-- A call of the native handler.  A translated request comes with the length of
the area its structure was built in. -/
inductive NativeCall
  | request (r : Request) (length : Nat) (data : Struct64)
  | plain (cmd : PlainCommand) (arg : BitVec 64)

/-- `data32` is the caller's structure afterwards. -/
structure CompatReply where
  ret : Int
  invoked : Option NativeCall
  data32 : Struct32

section Ioctl

variable (abi : Abi) (unlockedIoctl : NativeCall → Int × Struct64)

/-- One translated request.  `area` is what the area of `compat_alloc_user_space`
holds, or `none` for NULL. -/
def compatRequest (r : Request) (area : Option Struct64) (fault : Nat → Bool)
    (data32 : Struct32) : CompatReply :=
  match area with
  | none => { ret := -EFAULT, invoked := none, data32 }
  | some area =>
    let data := translate compatPtr (compatGet r) fault data32 area 0
    if data.2 ≠ 0 then { ret := data.2.toInt, invoked := none, data32 }
    else
      let call := .request r (areaLength abi r) data.1
      let back := translate ptrToCompat (compatPut r)
        (fun k => fault (k + 2 * (compatGet r).length)) (unlockedIoctl call).2 data32 0
      { ret := (unlockedIoctl call).1, invoked := some call, data32 := back.1 }

end Ioctl

/-- `fOp` is the file's native handler, where it has one. -/
def cameraHwIoctlCompat (abi : Abi) (fOp : Option (NativeCall → Int × Struct64))
    (cmd : CompatCommand) (arg : BitVec 64) (area : Option Struct64) (fault : Nat → Bool)
    (data32 : Struct32) : CompatReply :=
  match fOp with
  | none => { ret := -ENOTTY, invoked := none, data32 }
  | some unlockedIoctl =>
    match cmd with
    | .request r => compatRequest abi unlockedIoctl r area fault data32
    | .plain cmd =>
      { ret := (unlockedIoctl (.plain cmd arg)).1, invoked := some (.plain cmd arg), data32 }
    | .other => { ret := -ENOIOCTLCMD, invoked := none, data32 }

/-! ## When the translation is right -/

/-- The accesses of the translation of `r`. -/
def accesses (r : Request) : Nat := 2 * (compatGet r).length

/-- The handler is given every member it reads in an area that holds the
structure. -/
def Received (abi : Abi) (r : Request) (data32 : Struct32) (call : Option NativeCall) : Prop :=
  ∃ length data, call = some (.request r length data) ∧
    (∀ f ∈ r.members, data f = compatPtr (data32 f)) ∧ abi.sizeof r ≤ length

def Refused (reply : CompatReply) : Prop := reply.invoked = none ∧ reply.ret ≠ 0

/-- The request is passed on faithfully when no access of its translation
faults, and refused otherwise. -/
def Translated (abi : Abi) (r : Request) (area : Option Struct64) (fault : Nat → Bool)
    (data32 : Struct32) (reply : CompatReply) : Prop :=
  if area.isSome ∧ NoFault fault (accesses r) then Received abi r data32 reply.invoked
  else Refused reply

/-- One of the last two accesses of the translation of `r` faults. -/
def LastFaults (r : Request) (fault : Nat → Bool) : Prop :=
  ¬ NoFault (fun k => fault (k + (accesses r - 2))) 2

/-- Where the translation of `r` is right. -/
def Sound (r : Request) (area : Option Struct64) (fault : Nat → Bool) (data32 : Struct32) : Prop :=
  area = none ∨
    match r with
    | .getinfo =>
      LastFaults r fault ∨
        NoFault fault (accesses r) ∧ ∀ i < 2, data32 (.pConfig i) = data32 (.pInfo i)
    | .getresolution2 => LastFaults r fault
    | _ => True

theorem compatPtr_injective {p q : BitVec 32} : compatPtr p = compatPtr q ↔ p = q := by
  constructor
  · intro h
    have hnat := congrArg BitVec.toNat h
    simp only [compatPtr, BitVec.toNat_setWidth] at hnat
    apply BitVec.eq_of_toNat_eq
    have hp := p.isLt
    have hq := q.isLt
    omega
  · exact congrArg compatPtr

theorem compatGet_nodup (r : Request) : ((compatGet r).map Move.dst).Nodup := by
  cases r <;> decide

section Request

variable (abi : Abi) (unlockedIoctl : NativeCall → Int × Struct64) {r : Request}
  {fault : Nat → Bool} {data32 : Struct32} {area : Struct64}

/-- With an area, a request is right exactly when its faults are reported and
what is passed on without one is what the caller gave. -/
theorem translated_iff :
    Translated abi r (some area) fault data32
        (compatRequest abi unlockedIoctl r (some area) fault data32) ↔
      ((translate compatPtr (compatGet r) fault data32 area 0).2 = 0 →
        NoFault fault (accesses r)) ∧
      (NoFault fault (accesses r) →
        (∀ f ∈ r.members,
          (translate compatPtr (compatGet r) fault data32 area 0).1 f = compatPtr (data32 f)) ∧
        abi.sizeof r ≤ areaLength abi r) := by
  by_cases hfault : NoFault fault (accesses r)
  · have herr := translate_noFault compatPtr hfault data32 area
    simp only [Translated, Option.isSome_some, hfault, true_and, if_true, compatRequest, herr,
      ne_eq, not_true_eq_false, if_false, Received, Option.some.injEq, NativeCall.request.injEq,
      imp_self, forall_const]
    constructor
    · intro h
      obtain ⟨length, data, ⟨rfl, rfl⟩, hmem, hfit⟩ := h
      exact ⟨hmem, hfit⟩
    · intro h
      obtain ⟨hmem, hfit⟩ := h
      exact ⟨_, _, ⟨rfl, rfl⟩, hmem, hfit⟩
  · rw [Translated, if_neg fun h => hfault h.2]
    by_cases herr : (translate compatPtr (compatGet r) fault data32 area 0).2 = 0
    · simp only [compatRequest, Refused, herr, ne_eq, not_true_eq_false, if_false, reduceCtorEq,
        false_and, hfault, imp_false]
    · have hret : (translate compatPtr (compatGet r) fault data32 area 0).2.toInt ≠ 0 := by
        intro h
        exact herr (BitVec.eq_of_toInt_eq h)
      simp only [compatRequest, Refused, herr, ne_eq, not_false_eq_true, if_true, hret, and_self,
        hfault, false_imp_iff]

theorem translated_member (hfault : NoFault fault (accesses r)) {f : Member}
    (hf : ∃ m ∈ compatGet r, m.src = f ∧ m.dst = f) :
    (translate compatPtr (compatGet r) fault data32 area 0).1 f = compatPtr (data32 f) := by
  obtain ⟨m, hm, hsrc, hdst⟩ := hf
  have hvalue := translate_dst compatPtr (compatGet_nodup r) hfault data32 area 0 hm
  rwa [hsrc, hdst] at hvalue

/-- A converter is right when it collects every error and moves every member to
its own place. -/
theorem translated_of_collecting {m : Move Member Member} {ms : List (Move Member Member)}
    (hr : compatGet r = [] ++ m :: ms) (hfresh : m.fresh = true)
    (hms : ∀ n ∈ ms, n.fresh = false)
    (hmem : ∀ f ∈ r.members, ∃ m ∈ compatGet r, m.src = f ∧ m.dst = f)
    (harea : areaLength abi r = abi.sizeof r) :
    Translated abi r (some area) fault data32
      (compatRequest abi unlockedIoctl r (some area) fault data32) := by
  rw [translated_iff]
  refine ⟨fun herr => ?_, fun hfault => ⟨fun f hf => ?_, Nat.le_of_eq harea.symm⟩⟩
  · rw [hr, translate_err_fresh compatPtr [] hfresh hms] at herr
    rw [accesses, hr]
    exact herr
  · exact translated_member hfault (hmem f hf)

/-- What is reported when the last member starts afresh. -/
theorem reported_of_last_fresh (as : List (Move Member Member)) {m : Move Member Member}
    (hr : compatGet r = as ++ [m]) (hfresh : m.fresh = true) :
    (translate compatPtr (compatGet r) fault data32 area 0).2 = 0 ↔ ¬ LastFaults r fault := by
  have hlen : accesses r - 2 = 2 * as.length := by
    rw [accesses, hr, List.length_append, List.length_singleton]
    omega
  rw [LastFaults, not_not, hlen, hr, translate_err_fresh compatPtr as hfresh (by simp)]
  rfl

theorem not_lastFaults (hfault : NoFault fault (accesses r)) (hr : 2 ≤ accesses r) :
    ¬ LastFaults r fault := by
  rw [LastFaults, not_not]
  intro k hk
  exact hfault _ (by omega)

theorem translated_getinfo : Translated abi .getinfo (some area) fault data32
      (compatRequest abi unlockedIoctl .getinfo (some area) fault data32) ↔
    LastFaults .getinfo fault ∨
      NoFault fault (accesses .getinfo) ∧ ∀ i < 2, data32 (.pConfig i) = data32 (.pInfo i) := by
  have hvalue : NoFault fault (accesses .getinfo) → ∀ m ∈ compatGet .getinfo,
      (translate compatPtr (compatGet .getinfo) fault data32 area 0).1 m.dst =
        compatPtr (data32 m.src) :=
    fun hfault m hm => translate_dst compatPtr (compatGet_nodup _) hfault data32 area 0 hm
  rw [translated_iff, reported_of_last_fresh (compatGetAcdkSensorGetinfoStruct.take 5)
    (m := fresh (.pInfo 1) (.pConfig 1)) rfl rfl]
  constructor
  · intro h
    obtain ⟨hreport, hread⟩ := h
    by_cases hlast : LastFaults .getinfo fault
    · exact Or.inl hlast
    · have hfault := hreport hlast
      have hmem := (hread hfault).1
      refine Or.inr ⟨hfault, fun i hi => ?_⟩
      have hcfg : ∀ i, fresh (.pInfo i) (.pConfig i) ∈ compatGet .getinfo →
          .pConfig i ∈ Request.getinfo.members → data32 (.pConfig i) = data32 (.pInfo i) := by
        intro i hm hr
        have hto : (translate compatPtr (compatGet .getinfo) fault data32 area 0).1 (.pConfig i) =
            compatPtr (data32 (.pInfo i)) := hvalue hfault _ hm
        rw [hmem _ hr] at hto
        exact compatPtr_injective.mp hto
      match i with
      | 0 => exact hcfg 0 (by decide) (by decide)
      | 1 => exact hcfg 1 (by decide) (by decide)
  · intro h
    obtain hlast | ⟨hfault, hsame⟩ := h
    · exact ⟨fun h => absurd hlast h,
        fun hfault => absurd hlast (not_lastFaults hfault (by decide))⟩
    · refine ⟨fun _ => hfault, fun _ => ⟨fun f hf => ?_, Nat.le_refl _⟩⟩
      simp only [Request.members, List.mem_cons, List.not_mem_nil, or_false] at hf
      rcases hf with rfl | rfl | rfl | rfl | rfl | rfl
      · exact hvalue hfault (fresh _ _) (by decide)
      · exact hvalue hfault (fresh _ _) (by decide)
      · exact hvalue hfault (fresh _ _) (by decide)
      · exact hvalue hfault (fresh _ _) (by decide)
      · rw [hsame 0 (by omega)]
        exact hvalue hfault (fresh (.pInfo 0) (.pConfig 0)) (by decide)
      · rw [hsame 1 (by omega)]
        exact hvalue hfault (fresh (.pInfo 1) (.pConfig 1)) (by decide)

/-- Two pointers do not fit where one was asked for. -/
theorem getresolution2_too_small :
    ¬ abi.sizeof .getresolution2 ≤ areaLength abi .getresolution2 := by
  have hfit := abi.members_fit .getresolution2
  have hsum : (Request.getresolution2.members.map Member.width).sum = 16 := rfl
  rw [hsum] at hfit
  show ¬ abi.sizeof .getresolution2 ≤ 8
  omega

theorem translated_getresolution2 : Translated abi .getresolution2 (some area) fault data32
      (compatRequest abi unlockedIoctl .getresolution2 (some area) fault data32) ↔
    LastFaults .getresolution2 fault := by
  rw [translated_iff, reported_of_last_fresh [fresh (.pResolution 0) (.pResolution 0)]
    (m := fresh (.pResolution 1) (.pResolution 1)) rfl rfl]
  constructor
  · intro h
    obtain ⟨hreport, hread⟩ := h
    by_contra hlast
    exact getresolution2_too_small abi (hread (hreport hlast)).2
  · intro hlast
    exact ⟨fun h => absurd hlast h,
      fun hfault => absurd hlast (not_lastFaults hfault (by decide))⟩

end Request

theorem translated_no_area (abi : Abi) (unlockedIoctl : NativeCall → Int × Struct64) (r : Request)
    (fault : Nat → Bool) (data32 : Struct32) :
    Translated abi r none fault data32 (compatRequest abi unlockedIoctl r none fault data32) := by
  simp [Translated, Refused, compatRequest, EFAULT]

/-- For every request, structure, area and pattern of faults: the native handler
gets the caller's structure, or the faulting request is refused, exactly where
the translation is sound. -/
theorem compat_translated_iff (abi : Abi) (unlockedIoctl : NativeCall → Int × Struct64)
    (r : Request) (arg : BitVec 64) (area : Option Struct64) (fault : Nat → Bool)
    (data32 : Struct32) :
    Translated abi r area fault data32
        (cameraHwIoctlCompat abi (some unlockedIoctl) (.request r) arg area fault data32) ↔
      Sound r area fault data32 := by
  cases area with
  | none => exact iff_of_true (translated_no_area abi unlockedIoctl r fault data32) (Or.inl rfl)
  | some area =>
    simp only [Sound, reduceCtorEq, false_or]
    cases r with
    | getinfo => exact translated_getinfo abi unlockedIoctl
    | featureconctrol =>
      exact iff_of_true (translated_of_collecting abi unlockedIoctl rfl rfl (by decide)
        (by decide) rfl) trivial
    | control =>
      exact iff_of_true (translated_of_collecting abi unlockedIoctl rfl rfl (by decide)
        (by decide) rfl) trivial
    | getinfo2 =>
      exact iff_of_true (translated_of_collecting abi unlockedIoctl rfl rfl (by decide)
        (by decide) rfl) trivial
    | getresolution2 => exact translated_getresolution2 abi unlockedIoctl

/-- The structures of a 64-bit kernel, holding the members read and no others. -/
def packedAbi : Abi where
  sizeof r := (r.members.map Member.width).sum
  members_fit _ := Nat.le_refl _

/-- A GETINFO whose accesses all succeed reaches the native handler with the
caller's `pInfo` in place of its `pConfig`. -/
theorem getinfo_not_translated :
    ¬ Translated packedAbi .getinfo (some fun _ => 0) (fun _ => false)
        (fun f => if f = .pConfig 0 then 0x2000 else 0x1000)
        (cameraHwIoctlCompat packedAbi (some fun _ => (0, fun _ => 0)) (.request .getinfo) 0
          (some fun _ => 0) (fun _ => false)
          (fun f => if f = .pConfig 0 then 0x2000 else 0x1000)) := by
  intro h
  rcases (translated_getinfo packedAbi _).mp h with hlast | ⟨_, hsame⟩
  · exact hlast fun _ _ => rfl
  · exact absurd (hsame 0 (by omega)) (by decide)

end Camera
end AtomDrivers
