/-
Binding the LED driver.

`_atom_probe` makes four registrations, looks up the pins and starts the timer
module.  Its error path is driven by two status variables that start at 0: the
cdev is deleted when `err` is 0 and the region given back when `ret` is 0.  A
probe does all of its work or none of it exactly when the region is allocated
and, unless the cdev or the class fails, nothing later fails either.
-/
import AtomDrivers.Machine.Ledger
import AtomDrivers.Linux.Pointer
import AtomDrivers.Led.Timer

namespace AtomDrivers
namespace Led

open Linux

/-- What the kernel answers to one `_atom_probe`. -/
structure ProbeAnswers where
  allocChrdevRegion : Outcome
  cdevAdd : Outcome
  classCreate : Outcome
  deviceCreate : Outcome
  devmPinctrlGet : Outcome
  pinctrlLookupState : String → Outcome

inductive AtomResource
  | region
  | cdev
  | cls
  | device
  deriving DecidableEq, Repr

/-- The static variables of `atom_light.c` and the timer module behind
`g_atom_InitFunc`. -/
structure AtomLight where
  atomCtrl : Pointer
  atomEnH : Pointer
  atomEnL : Pointer
  atomPinPwm2OutPwm : Pointer
  atomClass : Pointer
  atomDevice : Pointer
  atomInitFunc : Bool
  timer : AtomTimer
  deriving DecidableEq, Repr

/-- The module as it is loaded. -/
def atomLoaded : AtomLight where
  atomCtrl := .null
  atomEnH := .null
  atomEnL := .null
  atomPinPwm2OutPwm := .null
  atomClass := .null
  atomDevice := .null
  atomInitFunc := false
  timer := { workTimer := false, workTimeOut := false, timerRunning := false, index := 0 }

/-- The error of a pointer, or what was there before. -/
def retOf (p : Pointer) (ret : Int) : Int := if p.isErr then p.ptrErr else ret

def atomGpioInit (k : ProbeAnswers) (s : AtomLight) : Int × AtomLight :=
  let ctrl := Pointer.ofOutcome k.devmPinctrlGet
  let enH := Pointer.ofOutcome (k.pinctrlLookupState "flashlight_en1")
  let enL := Pointer.ofOutcome (k.pinctrlLookupState "flashlight_en0")
  let pwm := Pointer.ofOutcome (k.pinctrlLookupState "pin_pwm2_out_pwm")
  (retOf pwm (retOf enL (retOf enH (retOf ctrl 0))),
    { s with atomCtrl := ctrl, atomEnH := enH, atomEnL := enL, atomPinPwm2OutPwm := pwm })

/-- The return value and the registrations made and undone. -/
structure ProbeResult where
  ret : Int
  entries : List (Entry AtomResource)
  deriving DecidableEq, Repr

/-- `_atom_probe_error`, with what was registered so far. -/
def atomProbeError (ret err : Int) (made : List (Entry AtomResource)) : ProbeResult where
  ret := -1
  entries := made ++ (if err = 0 then [.release .cdev] else []) ++
    (if ret = 0 then [.release .region] else [])

/-- The registration that a call makes when it succeeds. -/
def made (o : Outcome) (r : AtomResource) : List (Entry AtomResource) :=
  if o = none then [.acquire r] else []

/-- `constant_atom_Init` and the `atom_open` behind it. -/
def constantAtomOpen (s : AtomLight) : AtomLight :=
  { s with atomInitFunc := true, timer := dwFpKeySysInit s.timer }

def atomProbe (k : ProbeAnswers) (s : AtomLight) : ProbeResult × AtomLight :=
  let ret := k.allocChrdevRegion.toInt
  let entries := made k.allocChrdevRegion .region
  if ret ≠ 0 then (atomProbeError ret 0 entries, s)
  else
    let err := k.cdevAdd.toInt
    let entries := entries ++ made k.cdevAdd .cdev
    if err ≠ 0 then (atomProbeError ret err entries, s)
    else
      let s := { s with atomClass := Pointer.ofOutcome k.classCreate }
      let entries := entries ++ made k.classCreate .cls
      if s.atomClass.isErr then (atomProbeError ret err entries, s)
      else
        let s := { s with atomDevice := Pointer.ofOutcome k.deviceCreate }
        let entries := entries ++ made k.deviceCreate .device
        -- `device_create` never returns NULL
        if s.atomDevice = .null then (atomProbeError ret err entries, s)
        else
          -- the result of `_atom_gpio_init` is dropped
          ({ ret := 0, entries }, constantAtomOpen (atomGpioInit k s).2)

/-- `_atom_remove` -/
def atomRemove : List (Entry AtomResource) :=
  [.release .cdev, .release .region, .release .device, .release .cls]

/-! ## All or nothing -/

/-- The handles that the pin functions pass on are no error pointers. -/
def PinsValid (s : AtomLight) : Prop :=
  s.atomCtrl = .object ∧ s.atomEnL = .object ∧ s.atomEnH = .object ∧
    s.atomPinPwm2OutPwm = .object

/-- No registration lies in another. -/
def apart (_ : AtomResource) : List AtomResource := []

/-- A probe that fails has undone each registration it made once and nothing
else, and a probe that succeeds has made them all. -/
def AllOrNothing (s : AtomLight) (k : ProbeAnswers) : Prop :=
  let (r, t) := atomProbe k s
  (r.ret ≠ 0 → Ledger.Fair apart Ledger.nothing r.entries ∧
    ∀ x, Ledger.post r.entries Ledger.nothing x = false) ∧
  (r.ret = 0 → (∀ x, Ledger.post r.entries Ledger.nothing x = true) ∧ PinsValid t)

/-- The region is allocated, and where the cdev and the class are made the rest
succeeds. -/
def Orderly (k : ProbeAnswers) : Prop :=
  k.allocChrdevRegion = none ∧
    (k.cdevAdd = none → k.classCreate = none →
      k.deviceCreate = none ∧ k.devmPinctrlGet = none ∧
      ∀ name ∈ ["flashlight_en0", "flashlight_en1", "pin_pwm2_out_pwm"],
        k.pinctrlLookupState name = none)

section Answers

variable {k : ProbeAnswers} {s : AtomLight}

theorem atomProbe_noRegion {e : ErrNo} (hregion : k.allocChrdevRegion = some e) :
    atomProbe k s = ({ ret := -1, entries := [.release .cdev] }, s) := by
  simp [atomProbe, atomProbeError, made, hregion]

theorem atomProbe_noCdev {e : ErrNo} (hregion : k.allocChrdevRegion = none)
    (hcdev : k.cdevAdd = some e) :
    atomProbe k s = ({ ret := -1, entries := [.acquire .region, .release .region] }, s) := by
  simp [atomProbe, atomProbeError, made, hregion, hcdev]

theorem atomProbe_noClass {e : ErrNo} (hregion : k.allocChrdevRegion = none)
    (hcdev : k.cdevAdd = none) (hclass : k.classCreate = some e) :
    atomProbe k s =
      ({ ret := -1,
         entries := [.acquire .region, .acquire .cdev, .release .cdev, .release .region] },
        { s with atomClass := .err e }) := by
  simp [atomProbe, atomProbeError, made, hregion, hcdev, hclass, Pointer.ofOutcome,
    Pointer.isErr]

/-- After the class nothing fails. -/
theorem atomProbe_class (hregion : k.allocChrdevRegion = none) (hcdev : k.cdevAdd = none)
    (hclass : k.classCreate = none) :
    atomProbe k s =
      ({ ret := 0,
         entries := [.acquire .region, .acquire .cdev, .acquire .cls] ++
           made k.deviceCreate .device },
        constantAtomOpen (atomGpioInit k
          { s with atomClass := .object, atomDevice := Pointer.ofOutcome k.deviceCreate }).2) := by
  simp [atomProbe, made, hregion, hcdev, hclass, Pointer.ofOutcome_eq_object.mpr, Pointer.isErr]

/-- A probe that fails leaves the timer module alone. -/
theorem atomProbe_timer (k : ProbeAnswers) (s : AtomLight) :
    (atomProbe k s).2.timer =
      if (atomProbe k s).1.ret = 0 then dwFpKeySysInit s.timer else s.timer := by
  cases hregion : k.allocChrdevRegion with
  | some e => simp [atomProbe_noRegion hregion]
  | none =>
    cases hcdev : k.cdevAdd with
    | some e => simp [atomProbe_noCdev hregion hcdev]
    | none =>
      cases hclass : k.classCreate with
      | some e => simp [atomProbe_noClass hregion hcdev hclass]
      | none => simp [atomProbe_class hregion hcdev hclass, constantAtomOpen, atomGpioInit]

theorem pinsValid_gpioInit :
    PinsValid (constantAtomOpen (atomGpioInit k s).2) ↔
      k.devmPinctrlGet = none ∧ ∀ name ∈ ["flashlight_en0", "flashlight_en1", "pin_pwm2_out_pwm"],
        k.pinctrlLookupState name = none := by
  simp [PinsValid, constantAtomOpen, atomGpioInit, Pointer.ofOutcome_eq_object]

theorem allOrNothing_failed {r : ProbeResult} {t : AtomLight} (hprobe : atomProbe k s = (r, t))
    (hret : r.ret ≠ 0) :
    AllOrNothing s k ↔ Ledger.Fair apart Ledger.nothing r.entries ∧
      ∀ x, Ledger.post r.entries Ledger.nothing x = false := by
  rw [AllOrNothing, hprobe]
  exact ⟨fun h => h.1 hret, fun h => ⟨fun _ => h, fun hzero => absurd hzero hret⟩⟩

theorem allOrNothing_done {r : ProbeResult} {t : AtomLight} (hprobe : atomProbe k s = (r, t))
    (hret : r.ret = 0) :
    AllOrNothing s k ↔ (∀ x, Ledger.post r.entries Ledger.nothing x = true) ∧ PinsValid t := by
  rw [AllOrNothing, hprobe]
  exact ⟨fun h => h.2 hret, fun h => ⟨fun hne => absurd hret hne, fun _ => h⟩⟩

/-- Behind the class the device alone can be missing. -/
theorem post_made_device (o : Outcome) :
    (∀ x, Ledger.post ([Entry.acquire AtomResource.region, .acquire .cdev, .acquire .cls] ++
      made o .device) Ledger.nothing x = true) ↔ o = none := by
  cases o with
  | some e =>
    have hmissing : Ledger.post ([Entry.acquire AtomResource.region, .acquire .cdev,
        .acquire .cls] ++ made (some e) .device) Ledger.nothing .device = false := rfl
    refine ⟨fun h => ?_, fun h => by cases h⟩
    have hdevice := h .device
    rw [hmissing] at hdevice
    cases hdevice
  | none =>
    refine ⟨fun _ => rfl, fun _ x => ?_⟩
    cases x <;> rfl

theorem allOrNothing_iff : AllOrNothing s k ↔ Orderly k := by
  unfold Orderly
  cases hregion : k.allocChrdevRegion with
  | some e =>
    -- the cdev was never made
    have hunfair : ¬ Ledger.Fair apart Ledger.nothing [Entry.release AtomResource.cdev] := by decide
    rw [allOrNothing_failed (atomProbe_noRegion hregion) (by simp)]
    exact iff_of_false (fun h => hunfair h.1) fun h => by cases h.1
  | none =>
    cases hcdev : k.cdevAdd with
    | some e =>
      rw [allOrNothing_failed (atomProbe_noCdev hregion hcdev) (by simp)]
      refine iff_of_true ⟨by decide, fun x => ?_⟩ ⟨rfl, fun h => by cases h⟩
      cases x <;> rfl
    | none =>
      cases hclass : k.classCreate with
      | some e =>
        rw [allOrNothing_failed (atomProbe_noClass hregion hcdev hclass) (by simp)]
        refine iff_of_true ⟨by decide, fun x => ?_⟩ ⟨rfl, fun _ h => by cases h⟩
        cases x <;> rfl
      | none =>
        rw [allOrNothing_done (atomProbe_class hregion hcdev hclass) rfl, post_made_device,
          pinsValid_gpioInit]
        simp only [true_and, true_imp_iff]

end Answers

/-! ## Sequences of probes -/

/-- One attempt after the other. -/
def atomAttempts : Machine AtomLight ProbeAnswers ProbeResult where
  step s k := some ((atomProbe k s).2, (atomProbe k s).1)

/-- In every sequence of attempts, each one does all of its work or none of it
exactly when the answers to it are orderly. -/
theorem attempts_allOrNothing_iff (s : AtomLight) (ks : List ProbeAnswers) :
    atomAttempts.AllSteps AllOrNothing s ks ↔ ∀ k ∈ ks, Orderly k := by
  have hpointwise := Machine.allSteps_congr (M := atomAttempts) (P := AllOrNothing)
    (Q := fun _ k => Orderly k) (fun _ _ _ => allOrNothing_iff) (s := s) ks
  rw [hpointwise]
  exact Machine.allSteps_forall (fun _ _ => ⟨_, _, rfl⟩) s ks

/-- `-ENOMEM` -/
def noMemory : ErrNo := { no := 12, pos := by decide, le := by decide }

/-- Only the device fails. -/
def deviceFails : ProbeAnswers where
  allocChrdevRegion := none
  cdevAdd := none
  classCreate := none
  deviceCreate := some noMemory
  devmPinctrlGet := none
  pinctrlLookupState _ := none

/-- A probe without a device returns 0. -/
theorem probe_incomplete : ¬ atomAttempts.AllSteps AllOrNothing atomLoaded [deviceFails] := by
  intro h
  have horderly : Orderly deviceFails := allOrNothing_iff.mp h.1
  cases (horderly.2 rfl rfl).1

end Led
end AtomDrivers
