/-
The power supplies of the sensors.

The probe of the first camera asks for the regulators of the supplies, each as long as
it has none.  An error pointer counts as one, so what the first probe that finds the node
gets is kept for good.  `_hwPowerOn` looks for NULL and for an error pointer before it
uses a regulator, and `_hwPowerDown` only for an error pointer.
-/
import AtomDrivers.Linux.Errno
import AtomDrivers.Linux.Pointer
import AtomDrivers.Machine.Ledger
import AtomDrivers.Machine.Run

namespace AtomDrivers
namespace Camera

open Linux

/-! ## The character devices -/

inductive CharDrv
  | region
  | cdev
  | added
  | cls
  | device
  deriving DecidableEq, Repr

/-- An added cdev needs its structure and its number, and a device its class and its
number. -/
def CharDrv.users : CharDrv → List CharDrv
  | .region => [.added, .device]
  | .cdev => [.added]
  | .added => []
  | .cls => [.device]
  | .device => []

/-- What the kernel answers to one registration. -/
structure CharDrvAnswers where
  allocChrdevRegion : Outcome
  cdevAlloc : Bool
  cdevAdd : Outcome
  classCreate : Outcome
  deviceCreate : Outcome
  deriving DecidableEq, Repr

/-- The return value, what is acquired and released, and the device. -/
structure CharDrvResult where
  ret : Int
  entries : List (Entry CharDrv)
  sensorDevice : Pointer

/-- Nothing looks at whether the device is an error pointer. -/
def registerCameraHwCharDrv (k : CharDrvAnswers) : CharDrvResult :=
  let sensorDevice := Pointer.null
  if k.allocChrdevRegion ≠ none then { ret := - EAGAIN, entries := [], sensorDevice }
  else
    let entries := [Entry.acquire CharDrv.region]
    if k.cdevAlloc = false then
      { ret := - ENOMEM, entries := entries ++ [.release .region], sensorDevice }
    else
      let entries := entries ++ [.acquire .cdev]
      if k.cdevAdd ≠ none then
        { ret := - EAGAIN, entries := entries ++ [.release .region], sensorDevice }
      else
        let entries := entries ++ [.acquire .added]
        match k.classCreate with
        | some e => { ret := (Pointer.err e).ptrErr, entries, sensorDevice }
        | none =>
          let entries := entries ++ [.acquire .cls]
          { ret := 0
            entries := entries ++ if k.deviceCreate = none then [.acquire .device] else []
            sensorDevice := .ofOutcome k.deviceCreate }

/-- Its `sensor_device` is a variable of its own. -/
def registerCameraHwCharDrv2 (k : CharDrvAnswers) : Int × List (Entry CharDrv) :=
  ((registerCameraHwCharDrv k).ret, (registerCameraHwCharDrv k).entries)

def unregisterCameraHwCharDrv : List (Entry CharDrv) :=
  [.release .added, .release .cdev, .release .region, .release .device, .release .cls]

/-! ## The regulators -/

/-- The ones that `_hwPowerOn` and `_hwPowerDown` know. -/
inductive Supply
  | vcama
  | vcamd
  | vcamio
  | vcamaf
  deriving DecidableEq, Repr

def Supply.name : Supply → String
  | .vcama => "vcama"
  | .vcamd => "vcamd"
  | .vcamio => "vcamio"
  | .vcamaf => "vcamaf"

/-- `other` are the remaining values of the enumeration. -/
inductive KdRegulatorType
  | vcama
  | vcamd
  | vcamio
  | vcamaf
  | other (n : Nat)
  deriving DecidableEq, Repr

structure Regulators where
  regVcama : Pointer
  regVcamd : Pointer
  regVcamio : Pointer
  regVcamaf : Pointer
  regSubVcamd : Pointer
  deriving DecidableEq, Repr

namespace Regulators

variable (r : Regulators)

def reg : Supply → Pointer
  | .vcama => r.regVcama
  | .vcamd => r.regVcamd
  | .vcamio => r.regVcamio
  | .vcamaf => r.regVcamaf

/-- One of the four is still asked for. -/
def anyNull : Bool :=
  r.regVcama = .null || r.regVcamd = .null || r.regVcamio = .null || r.regVcamaf = .null

end Regulators

/-- The static variables, and the `of_node` of the sensor device. -/
structure Module where
  sensorDevice : Pointer
  ofNode : Option String
  regulators : Regulators
  deriving DecidableEq, Repr

def Module.reg (s : Module) (p : Supply) : Pointer := s.regulators.reg p

/-- What the kernel answers when the regulators are asked for: whether there is a node,
whether it has the property `vcama_sub`, and what a device with some node gets for a
name. -/
structure RegulatorAnswers where
  node : Bool
  vcamaSub : Bool
  regulatorGet : Option String → String → Outcome

/-- `if (reg == NULL) reg = regulator_get(sensor_device, name)` -/
def getOnce (get : String → Outcome) (name : String) (reg : Pointer) : Pointer :=
  if reg = .null then .ofOutcome (get name) else reg

/-- The requests of the branch without the property. -/
def getRegulators (get : String → Outcome) (r : Regulators) : Regulators :=
  { r with
    regVcama := getOnce get "vcama" r.regVcama
    regVcamd := getOnce get "vcamd" r.regVcamd
    regVcamio := getOnce get "vcamio" r.regVcamio
    regVcamaf := getOnce get "vcamaf" r.regVcamaf }

def cameraHwNode : String := "mediatek,camera_hw"

/-- `none` where the kernel reads through a bad pointer: `regulator_get` reads the name
of its device, and the other branch the device's node. -/
def getCamRegulator (k : RegulatorAnswers) (s : Module) : Option (Bool × Module) :=
  if k.node = false then some (false, s)
  else if k.vcamaSub = false then
    if s.sensorDevice.isErr && s.regulators.anyNull then none
    else
      some (true, { s with regulators := getRegulators (k.regulatorGet s.ofNode) s.regulators })
  else if s.sensorDevice ≠ .object then none
  else
    let kdNode := s.ofNode
    let s := { s with ofNode := some cameraHwNode }
    let r := getRegulators (k.regulatorGet s.ofNode) s.regulators
    let r := { r with
      regSubVcamd := getOnce (k.regulatorGet s.ofNode) "vcamd_sub" r.regSubVcamd }
    some (true, { s with regulators := r, ofNode := kdNode })

/-! ## The power calls -/

inductive RegulatorCall
  | setVoltage (p : Supply) (min max : Int)
  | enable (p : Supply)
  | isEnabled (p : Supply)
  | disable (p : Supply)
  deriving DecidableEq, Repr

structure PowerReply where
  ret : Bool
  calls : List RegulatorCall
  deriving DecidableEq, Repr

structure PowerOnAnswers where
  setVoltage : Outcome
  enable : Outcome
  deriving DecidableEq, Repr

def KdRegulatorType.supply : KdRegulatorType → Option Supply
  | .vcama => some .vcama
  | .vcamd => some .vcamd
  | .vcamio => some .vcamio
  | .vcamaf => some .vcamaf
  | .other _ => none

def hwPowerOn (type : KdRegulatorType) (powerVolt : Int) (k : PowerOnAnswers) (s : Module) :
    PowerReply :=
  match type.supply with
  | none => { ret := false, calls := [] }
  | some p =>
    if s.reg p ≠ .null ∧ (s.reg p).isErr = false then
      let calls := [.setVoltage p powerVolt powerVolt]
      if k.setVoltage ≠ none then { ret := false, calls }
      else
        let calls := calls ++ [.enable p]
        if k.enable ≠ none then { ret := false, calls } else { ret := true, calls }
    else { ret := false, calls := [] }

/-- `none` where `regulator_is_enabled` reads through NULL.  Its answer is logged. -/
def hwPowerDown (type : KdRegulatorType) (disable : Outcome) (s : Module) : Option PowerReply :=
  match type.supply with
  | none => some { ret := false, calls := [] }
  | some p =>
    if (s.reg p).isErr = false then
      if s.reg p = .null then none
      else some { ret := decide (disable = none), calls := [.isEnabled p, .disable p] }
    else some { ret := false, calls := [] }

/-! ## The module -/

/-- What the kernel answers to one probe. -/
structure ProbeAnswers where
  charDrv : CharDrvAnswers
  regulator : RegulatorAnswers

/-- The device is a new one, without a node. -/
def cameraHwI2cProbe (k : ProbeAnswers) (s : Module) : Option (Int × Module) :=
  let r := registerCameraHwCharDrv k.charDrv
  let s := { s with sensorDevice := r.sensorDevice, ofNode := none }
  if r.ret ≠ 0 then some (r.ret, s)
  else
    match getCamRegulator k.regulator s with
    | none => none
    | some (_, s) => some (0, s)

def cameraHwI2cProbe2 (k : CharDrvAnswers) : Int := (registerCameraHwCharDrv2 k).1

def cameraHwI2cRemove : Int := 0

inductive ModuleAction
  | probe (k : ProbeAnswers)
  | probe2 (k : CharDrvAnswers)
  | remove
  | powerOn (type : KdRegulatorType) (powerVolt : Int) (k : PowerOnAnswers)
  | powerDown (type : KdRegulatorType) (disable : Outcome)

inductive ModuleReply
  | ret (ret : Int)
  | power (reply : PowerReply)
  deriving DecidableEq, Repr

/-- A step is `none` where the kernel stops at a bad pointer. -/
def cameraModule : Machine Module ModuleAction ModuleReply where
  step s
    | .probe k => (cameraHwI2cProbe k s).map fun (ret, s) => (s, .ret ret)
    | .probe2 k => some (s, .ret (cameraHwI2cProbe2 k))
    | .remove => some (s, .ret cameraHwI2cRemove)
    | .powerOn type powerVolt k => some (s, .power (hwPowerOn type powerVolt k s))
    | .powerDown type disable => (hwPowerDown type disable s).map fun reply => (s, .power reply)

def Module.loaded : Module where
  sensorDevice := .null
  ofNode := none
  regulators := {
    regVcama := .null
    regVcamd := .null
    regVcamio := .null
    regVcamaf := .null
    regSubVcamd := .null }

/-! ## What a registration leaves -/

section Registration

variable {k : CharDrvAnswers}

/-- All but `device_create`. -/
def CharDrvAnswers.Succeeds (k : CharDrvAnswers) : Prop :=
  k.allocChrdevRegion = none ∧ k.cdevAlloc = true ∧ k.cdevAdd = none ∧ k.classCreate = none

instance : Decidable k.Succeeds :=
  inferInstanceAs (Decidable (k.allocChrdevRegion = none ∧ k.cdevAlloc = true ∧
    k.cdevAdd = none ∧ k.classCreate = none))

theorem registerCameraHwCharDrv_succeeds (h : k.Succeeds) :
    registerCameraHwCharDrv k =
      { ret := 0
        entries := [.acquire .region, .acquire .cdev, .acquire .added, .acquire .cls] ++
          if k.deviceCreate = none then [.acquire .device] else []
        sensorDevice := .ofOutcome k.deviceCreate } := by
  obtain ⟨hregion, hcdev, hadd, hclass⟩ := h
  simp [registerCameraHwCharDrv, hregion, hcdev, hadd, hclass]

theorem registerCameraHwCharDrv_ret : (registerCameraHwCharDrv k).ret = 0 ↔ k.Succeeds := by
  constructor
  · intro hret
    unfold registerCameraHwCharDrv at hret
    by_cases hregion : k.allocChrdevRegion = none
    · cases hcdev : k.cdevAlloc with
      | false => simp [hregion, hcdev, ENOMEM] at hret
      | true =>
        by_cases hadd : k.cdevAdd = none
        · cases hclass : k.classCreate with
          | none => exact ⟨hregion, hcdev, hadd, hclass⟩
          | some e =>
            have hpos : 0 < e.no := e.pos
            simp [hregion, hcdev, hadd, hclass, Pointer.ptrErr] at hret
            omega
        · simp [hregion, hcdev, hadd, EAGAIN] at hret
    · simp [hregion, EAGAIN] at hret
  · intro h
    rw [registerCameraHwCharDrv_succeeds h]

/-- What is held after it, whether or not it fails: nothing before `cdev_alloc`, then
the structure for good, and after `cdev_add` all there is. -/
theorem registerCameraHwCharDrv_held (r : CharDrv) :
    Ledger.post (registerCameraHwCharDrv k).entries Ledger.nothing r = true ↔
      k.allocChrdevRegion = none ∧ k.cdevAlloc = true ∧
        (r = .cdev ∨ k.cdevAdd = none ∧ (r = .region ∨ r = .added ∨
          k.classCreate = none ∧ (r = .cls ∨ k.deviceCreate = none))) := by
  unfold registerCameraHwCharDrv
  by_cases hregion : k.allocChrdevRegion = none
  · cases hcdev : k.cdevAlloc with
    | false => cases r <;> simp [hregion, Ledger.post, Entry.post, Ledger.nothing]
    | true =>
      by_cases hadd : k.cdevAdd = none
      · cases hclass : k.classCreate with
        | some e =>
          cases r <;> simp [hregion, hadd, Ledger.post, Entry.post, Ledger.nothing]
        | none =>
          by_cases hdevice : k.deviceCreate = none
          · cases r <;> simp [hregion, hadd, hdevice, Ledger.post, Entry.post]
          · cases r <;> simp [hregion, hadd, hdevice, Ledger.post, Entry.post, Ledger.nothing]
      · cases r <;> simp [hregion, hadd, Ledger.post, Entry.post, Ledger.nothing]
  · simp [hregion, Ledger.post, Ledger.nothing]

/-- A registration leaves nothing exactly if one of its first two calls fails. -/
theorem registerCameraHwCharDrv_nothing :
    Ledger.post (registerCameraHwCharDrv k).entries Ledger.nothing = Ledger.nothing ↔
      k.allocChrdevRegion ≠ none ∨ k.cdevAlloc = false := by
  rw [funext_iff]
  constructor
  · intro hall
    by_contra hnot
    obtain ⟨hregion, hcdev⟩ := not_or.mp hnot
    have hheld := (registerCameraHwCharDrv_held (k := k) .cdev).mpr
      ⟨not_not.mp hregion, by simpa using hcdev, Or.inl rfl⟩
    rw [hall .cdev] at hheld
    cases hheld
  · intro hfail r
    show _ = false
    by_contra hheld
    obtain ⟨hregion, hcdev, _⟩ :=
      (registerCameraHwCharDrv_held r).mp (by simpa using hheld)
    rcases hfail with hfail | hfail
    · exact hfail hregion
    · rw [hcdev] at hfail
      cases hfail

/-- `UnregisterCAMERA_HWCharDrv`, which nothing calls, gives up all that there is. -/
theorem unregisterCameraHwCharDrv_nothing (h : k.Succeeds) :
    Ledger.post ((registerCameraHwCharDrv k).entries ++ unregisterCameraHwCharDrv)
      Ledger.nothing = Ledger.nothing := by
  funext r
  rw [registerCameraHwCharDrv_succeeds h]
  split <;> cases r <;> rfl

end Registration

/-! ## The first probe that finds the node -/

section First

variable {get : String → Outcome} {k : RegulatorAnswers} {s t : Module} {a : ModuleAction}
  {as : List ModuleAction} {p : Supply}

/-- What the probe gets for a supply. -/
def RegulatorAnswers.got (k : RegulatorAnswers) (p : Supply) : Outcome :=
  k.regulatorGet (if k.vcamaSub = true then some cameraHwNode else none) p.name

/-- The answers of a probe that comes to ask for the regulators and finds the node. -/
def ModuleAction.found : ModuleAction → Option RegulatorAnswers
  | .probe k => if k.charDrv.Succeeds ∧ k.regulator.node = true then some k.regulator else none
  | _ => none

def firstFound (as : List ModuleAction) : Option RegulatorAnswers :=
  as.findSome? ModuleAction.found

theorem firstFound_snoc (as : List ModuleAction) (a : ModuleAction) :
    firstFound (as ++ [a]) = (firstFound as).or a.found := by
  rw [firstFound, List.findSome?_append]
  simp [firstFound]

/-- The regulators are the ones that were got first. -/
def Kept (first : Option RegulatorAnswers) (s : Module) : Prop :=
  ∀ p, s.reg p = match first with
    | none => .null
    | some k => .ofOutcome (k.got p)

theorem getRegulators_reg (get : String → Outcome) (r : Regulators) (p : Supply) :
    (getRegulators get r).reg p = getOnce get p.name (r.reg p) := by
  cases p <;> rfl

theorem getCamRegulator_reg {b : Bool} (hnew : s.ofNode = none)
    (h : getCamRegulator k s = some (b, t)) :
    t.reg p = if k.node = true then
      if s.reg p = .null then .ofOutcome (k.got p) else s.reg p else s.reg p := by
  unfold getCamRegulator at h
  cases hnode : k.node with
  | false =>
    simp only [hnode, if_true, Option.some.injEq, Prod.mk.injEq] at h
    rw [← h.2]
    rfl
  | true =>
    cases hsub : k.vcamaSub with
    | false =>
      simp only [hnode, hsub, reduceCtorEq, if_false, if_true] at h
      split at h
      · cases h
      · cases h
        show (getRegulators _ s.regulators).reg p = _
        rw [getRegulators_reg, hnew, RegulatorAnswers.got, hsub]
        rfl
    | true =>
      simp only [hnode, hsub, reduceCtorEq, if_false] at h
      split at h
      · cases h
      · cases h
        show (getRegulators _ s.regulators).reg p = _
        rw [getRegulators_reg, RegulatorAnswers.got, hsub]
        rfl

/-- A step asks for a regulator as long as there is none. -/
theorem step_reg {o : ModuleReply} (h : cameraModule.step s a = some (t, o)) (p : Supply) :
    t.reg p = match a.found with
      | none => s.reg p
      | some k => if s.reg p = .null then .ofOutcome (k.got p) else s.reg p := by
  cases a with
  | probe k =>
    obtain ⟨⟨ret, u⟩, hprobe, heq⟩ := Option.map_eq_some_iff.mp h
    cases heq
    unfold cameraHwI2cProbe at hprobe
    by_cases hret : (registerCameraHwCharDrv k.charDrv).ret = 0
    · have hsucceeds := registerCameraHwCharDrv_ret.mp hret
      simp only [hret, ne_eq, not_true_eq_false, if_false] at hprobe
      split at hprobe
      · cases hprobe
      · next hget =>
        cases hprobe
        rw [getCamRegulator_reg rfl hget, ModuleAction.found]
        by_cases hnode : k.regulator.node = true
        · have hfound := And.intro hsucceeds hnode
          simp only [hnode, hfound, and_self, if_true]
          rfl
        · rw [if_neg hnode, if_neg fun hfound => hnode hfound.2]
          rfl
    · simp only [hret, ne_eq, not_false_eq_true, if_true] at hprobe
      cases hprobe
      rw [ModuleAction.found, if_neg fun hfound => hret (registerCameraHwCharDrv_ret.mpr hfound.1)]
      rfl
  | probe2 k =>
    cases h
    rfl
  | remove =>
    cases h
    rfl
  | powerOn type powerVolt k =>
    cases h
    rfl
  | powerDown type disable =>
    obtain ⟨reply, _, heq⟩ := Option.map_eq_some_iff.mp h
    cases heq
    rfl

theorem run_kept {os : List ModuleReply} (h : cameraModule.run .loaded as = some (t, os)) :
    Kept (firstFound as) t := by
  refine Machine.run_history (J := fun s as _ => Kept (firstFound as) s) ?_ ?_ h
  · intro s as os a t o hkept hstep p
    rw [step_reg hstep p, firstFound_snoc, hkept p]
    cases firstFound as with
    | none =>
      cases a.found with
      | none => rfl
      | some k => rfl
    | some first =>
      cases a.found with
      | none => rfl
      | some k => exact if_neg (Pointer.ofOutcome_ne_null _)
  · intro p
    cases p <;> rfl

end First

/-! ## What the power calls do -/

section Power

variable {s t : Module} {as : List ModuleAction} {os : List ModuleReply}
  {first : Option RegulatorAnswers} {type : KdRegulatorType}

/-- The supply of a type was got when the node was first found. -/
def Powered (type : KdRegulatorType) (first : Option RegulatorAnswers) : Prop :=
  ∃ p k, type.supply = some p ∧ first = some k ∧ k.got p = none

theorem Kept.reg_none (h : Kept none s) (p : Supply) : s.reg p = .null := h p

theorem Kept.reg_some {r : RegulatorAnswers} (h : Kept (some r) s) (p : Supply) :
    s.reg p = .ofOutcome (r.got p) := h p

theorem powered_some {r : RegulatorAnswers} {p : Supply} (h : type.supply = some p) :
    Powered type (some r) ↔ r.got p = none := by
  constructor
  · rintro ⟨q, l, hq, hl, hgot⟩
    rw [h] at hq
    cases hq
    cases hl
    exact hgot
  · exact fun hgot => ⟨p, r, h, rfl, hgot⟩

theorem not_powered_none : ¬ Powered type none := by
  rintro ⟨_, _, _, hfirst, _⟩
  cases hfirst

theorem not_powered_other (h : type.supply = none) : ¬ Powered type first := by
  rintro ⟨_, _, htype, _⟩
  rw [h] at htype
  cases htype

theorem hwPowerOn_ret_iff (h : Kept first s) (powerVolt : Int) (k : PowerOnAnswers) :
    (hwPowerOn type powerVolt k s).ret = true ↔
      Powered type first ∧ k.setVoltage = none ∧ k.enable = none := by
  unfold hwPowerOn
  cases htype : type.supply with
  | none => simp [not_powered_other htype]
  | some p =>
    cases first with
    | none => simp [h.reg_none p, not_powered_none]
    | some r =>
      rw [powered_some htype]
      simp only [h.reg_some p]
      cases r.got p with
      | some e => simp [Pointer.ofOutcome, Pointer.isErr]
      | none =>
        by_cases hset : k.setVoltage = none
        · by_cases henable : k.enable = none
          · simp [Pointer.ofOutcome, Pointer.isErr, hset, henable]
          · simp [Pointer.ofOutcome, Pointer.isErr, hset, henable]
        · simp [Pointer.ofOutcome, Pointer.isErr, hset]

theorem hwPowerDown_eq_none_iff (h : Kept first s) (disable : Outcome) :
    hwPowerDown type disable s = none ↔ type.supply ≠ none ∧ first = none := by
  unfold hwPowerDown
  cases htype : type.supply with
  | none => simp
  | some p =>
    cases first with
    | none => simp [h.reg_none p, Pointer.isErr]
    | some r =>
      simp only [h.reg_some p]
      cases r.got p with
      | none => simp [Pointer.ofOutcome, Pointer.isErr]
      | some e => simp [Pointer.ofOutcome, Pointer.isErr]

theorem hwPowerDown_ret_iff (h : Kept first s) (disable : Outcome) :
    (∃ reply, hwPowerDown type disable s = some reply ∧ reply.ret = true) ↔
      Powered type first ∧ disable = none := by
  unfold hwPowerDown
  cases htype : type.supply with
  | none => simp [not_powered_other htype]
  | some p =>
    cases first with
    | none => simp [h.reg_none p, Pointer.isErr, not_powered_none]
    | some r =>
      rw [powered_some htype]
      simp only [h.reg_some p]
      cases r.got p with
      | none => simp [Pointer.ofOutcome, Pointer.isErr]
      | some e => simp [Pointer.ofOutcome, Pointer.isErr]

/-- Whatever happened since, a supply can be switched exactly if the first probe that
found the node got its regulator. -/
theorem power_iff_first_got (h : cameraModule.run .loaded as = some (t, os))
    (type : KdRegulatorType) (powerVolt : Int) (k : PowerOnAnswers) (disable : Outcome) :
    ((hwPowerOn type powerVolt k t).ret = true ↔
      Powered type (firstFound as) ∧ k.setVoltage = none ∧ k.enable = none) ∧
    ((∃ reply, hwPowerDown type disable t = some reply ∧ reply.ret = true) ↔
      Powered type (firstFound as) ∧ disable = none) :=
  ⟨hwPowerOn_ret_iff (run_kept h) powerVolt k, hwPowerDown_ret_iff (run_kept h) disable⟩

/-- `-EPROBE_DEFER` -/
def deferral : ErrNo := { no := 517, pos := by decide, le := by decide }

/-- Everything is there but, at times, the regulator of the lens. -/
def lensProbe (lens : Outcome) : ProbeAnswers where
  charDrv := {
    allocChrdevRegion := none
    cdevAlloc := true
    cdevAdd := none
    classCreate := none
    deviceCreate := none }
  regulator := {
    node := true
    vcamaSub := false
    regulatorGet := fun _ name => if name = "vcamaf" then lens else none }

/-- The camera is bound again when the regulator of the lens is there. -/
def lensRebound : List ModuleAction :=
  [.probe (lensProbe (some deferral)), .remove, .probe (lensProbe none)]

def lensModule : Module where
  sensorDevice := .object
  ofNode := none
  regulators := {
    regVcama := .object
    regVcamd := .object
    regVcamio := .object
    regVcamaf := .err deferral
    regSubVcamd := .null }

/-- The lens stays without power. -/
theorem lens_without_power :
    cameraModule.run .loaded lensRebound = some (lensModule, [.ret 0, .ret 0, .ret 0]) ∧
    (hwPowerOn .vcamaf 2800000 { setVoltage := none, enable := none } lensModule).ret ≠ true := by
  have hrun : cameraModule.run .loaded lensRebound =
      some (lensModule, [.ret 0, .ret 0, .ret 0]) := rfl
  have hpower := (power_iff_first_got hrun .vcamaf 2800000
    { setVoltage := none, enable := none } none).1
  have hfirst : firstFound lensRebound = some (lensProbe (some deferral)).regulator := rfl
  refine ⟨hrun, fun hret => ?_⟩
  have hgot := (hpower.mp hret).1
  rw [hfirst, powered_some rfl] at hgot
  cases hgot

end Power

/-! ## Where the kernel stops -/

section Stops

variable {s : Module} {first : Option RegulatorAnswers}

/-- A probe that finds the node has a device, or needs none as it asks for nothing, and
no supply is switched off before the node was found. -/
def SafeAfter (first : Option RegulatorAnswers) : ModuleAction → Prop
  | .probe k => k.charDrv.Succeeds → k.regulator.node = true →
      k.charDrv.deviceCreate = none ∨ k.regulator.vcamaSub = false ∧ first ≠ none
  | .powerDown type _ => type.supply ≠ none → first ≠ none
  | _ => True

theorem Kept.anyNull_iff (h : Kept first s) : s.regulators.anyNull = true ↔ first = none := by
  have hA := h .vcama
  have hD := h .vcamd
  have hIO := h .vcamio
  have hAF := h .vcamaf
  simp only [Module.reg, Regulators.reg] at hA hD hIO hAF
  rw [Regulators.anyNull, hA, hD, hIO, hAF]
  cases first with
  | none => simp
  | some k => simp

theorem getCamRegulator_stops_iff {k : RegulatorAnswers} {o : Outcome} (h : Kept first s)
    (hdevice : s.sensorDevice = .ofOutcome o) :
    getCamRegulator k s = none ↔
      k.node = true ∧ o ≠ none ∧ (k.vcamaSub = true ∨ first = none) := by
  have hnull := h.anyNull_iff
  unfold getCamRegulator
  cases hnode : k.node with
  | false => simp
  | true =>
    cases hsub : k.vcamaSub with
    | false =>
      simp only [hdevice, reduceCtorEq, if_false, if_true, Pointer.isErr_ofOutcome]
      cases o with
      | none => simp
      | some e => simp [← hnull]
    | true =>
      simp only [hdevice, reduceCtorEq, if_false]
      cases o with
      | none => simp [Pointer.ofOutcome]
      | some e => simp [Pointer.ofOutcome]

theorem step_stops_iff (h : Kept first s) (a : ModuleAction) :
    (∃ t o, cameraModule.step s a = some (t, o)) ↔ SafeAfter first a := by
  cases a with
  | probe k =>
    have hprobe : (∃ t o, cameraModule.step s (.probe k) = some (t, o)) ↔
        cameraHwI2cProbe k s ≠ none := by
      show (∃ t o, (cameraHwI2cProbe k s).map _ = some (t, o)) ↔ _
      cases cameraHwI2cProbe k s <;> simp
    rw [hprobe]
    by_cases hsucceeds : k.charDrv.Succeeds
    · have hkept : Kept first { s with
          sensorDevice := .ofOutcome k.charDrv.deviceCreate, ofNode := none } := h
      have hstops := getCamRegulator_stops_iff (k := k.regulator) hkept rfl
      have hget : cameraHwI2cProbe k s = none ↔ getCamRegulator k.regulator { s with
          sensorDevice := .ofOutcome k.charDrv.deviceCreate, ofNode := none } = none := by
        unfold cameraHwI2cProbe
        rw [registerCameraHwCharDrv_succeeds hsucceeds]
        simp only [ne_eq, not_true_eq_false, if_false]
        split
        · next hnone => simp [hnone]
        · next hsome => simp [hsome]
      rw [ne_eq, hget, hstops]
      cases hsub : k.regulator.vcamaSub with
      | false =>
        simp only [SafeAfter, hsucceeds, hsub]
        tauto
      | true =>
        simp only [SafeAfter, hsucceeds, hsub]
        tauto
    · have hret := mt registerCameraHwCharDrv_ret.mp hsucceeds
      simp [cameraHwI2cProbe, SafeAfter, hret, hsucceeds]
  | probe2 k => exact iff_of_true ⟨_, _, rfl⟩ trivial
  | remove => exact iff_of_true ⟨_, _, rfl⟩ trivial
  | powerOn type powerVolt k => exact iff_of_true ⟨_, _, rfl⟩ trivial
  | powerDown type disable =>
    have hnone : hwPowerDown type disable s = none ↔ type.supply ≠ none ∧ first = none :=
      hwPowerDown_eq_none_iff h disable
    have hstep : (∃ t o, cameraModule.step s (.powerDown type disable) = some (t, o)) ↔
        hwPowerDown type disable s ≠ none := by
      show (∃ t o, (hwPowerDown type disable s).map _ = some (t, o)) ↔ _
      cases hwPowerDown type disable s <;> simp
    rw [hstep, ne_eq, hnone, SafeAfter]
    tauto

/-- The kernel stops nowhere exactly if each action is safe after those before it. -/
theorem runs_to_end_iff (as : List ModuleAction) :
    (∃ t os, cameraModule.run .loaded as = some (t, os)) ↔
      ∀ before a after, as = before ++ a :: after → SafeAfter (firstFound before) a := by
  constructor
  · rintro ⟨t, os, hrun⟩ before a after rfl
    obtain ⟨u, os₁, os₂, hbefore, hrest, _⟩ := Machine.run_append_iff.mp hrun
    obtain ⟨v, o, _, hone, _⟩ := Machine.run_cons_iff.mp hrest
    exact (step_stops_iff (run_kept hbefore) a).mp ⟨v, o, hone⟩
  · intro hall
    rw [Machine.exists_run_iff_split]
    intro before a after heq u os hrun
    exact (step_stops_iff (run_kept hrun) a).mpr (hall before a after heq)

end Stops

end Camera
end AtomDrivers
