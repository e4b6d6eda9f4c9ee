/-
The charger detection of the PMIC.

A detection drives the data lines in four ways and reads a comparator each time; at
most three of the readings are taken, and they tell the charger types apart.  The
registers are set at the start and every step but the last switches off what it
switched on, so a reading is taken with the same settings each time.
-/
import Mathlib.Data.Option.Basic

namespace AtomDrivers
namespace Charger

inductive ChargerType
  | chargerUnknown | standardHost | chargingHost | nonstandardCharger | standardCharger
  | apple21ACharger
  deriving DecidableEq, Repr

/-- The `PMIC_RG_BC11` registers, and whether the data lines are switched to the
detection. -/
structure Bc11 where
  detect : Bool
  biasEn : Nat
  vsrcEn : Nat
  vrefVth : Nat
  cmpEn : Nat
  ipuEn : Nat
  ipdEn : Nat
  rst : Nat
  bbCtrl : Nat
  deriving DecidableEq, Repr

section Steps

-- what `PMIC_RGS_BC11_CMP_OUT` reads under given settings
variable (cmpOut : Bc11 → Nat)

def hwBc11Init (r : Bc11) : Bc11 :=
  { r with
    detect := true, biasEn := 1, vsrcEn := 0, vrefVth := 0, cmpEn := 0, ipuEn := 0, ipdEn := 0,
    rst := 1, bbCtrl := 1 }

def hwBc11DCD (r : Bc11) : Nat × Bc11 :=
  let r := { r with ipuEn := 2, ipdEn := 1, vrefVth := 1, cmpEn := 2 }
  let wChargerAvail := cmpOut r
  (wChargerAvail, { r with ipuEn := 0, ipdEn := 0, cmpEn := 0, vrefVth := 0 })

def hwBc11StepA1 (r : Bc11) : Nat × Bc11 :=
  let r := { r with ipdEn := 1, vrefVth := 0, cmpEn := 1 }
  let wChargerAvail := cmpOut r
  (wChargerAvail, { r with ipdEn := 0, cmpEn := 0 })

def hwBc11StepA2 (r : Bc11) : Nat × Bc11 :=
  let r := { r with vsrcEn := 2, ipdEn := 1, vrefVth := 0, cmpEn := 1 }
  let wChargerAvail := cmpOut r
  (wChargerAvail, { r with vsrcEn := 0, ipdEn := 0, cmpEn := 0 })

def hwBc11StepB2 (r : Bc11) : Nat × Bc11 :=
  let r := { r with ipuEn := 2, vrefVth := 1, cmpEn := 1 }
  let wChargerAvail := cmpOut r
  let r := if wChargerAvail = 0 then { r with vsrcEn := 2 } else r
  (wChargerAvail, { r with ipuEn := 0, cmpEn := 0, vrefVth := 0 })

def hwBc11Done (r : Bc11) : Bc11 :=
  { r with
    vsrcEn := 0, vrefVth := 0, cmpEn := 0, ipuEn := 0, ipdEn := 0, biasEn := 0, detect := false }

/-- `gChrTypeNum` is what is remembered already; the result is remembered next. -/
def hwChargingGetChargerType (gChrTypeNum : ChargerType) (r : Bc11) : ChargerType × Bc11 :=
  if gChrTypeNum ≠ .chargerUnknown then (gChrTypeNum, r)
  else
    let r := hwBc11Init r
    let (dcd, r) := hwBc11DCD cmpOut r
    let (chrTypeNum, r) :=
      if dcd = 1 then
        let (a1, r) := hwBc11StepA1 cmpOut r
        (if a1 = 1 then .apple21ACharger else .nonstandardCharger, r)
      else
        let (a2, r) := hwBc11StepA2 cmpOut r
        if a2 = 1 then
          let (b2, r) := hwBc11StepB2 cmpOut r
          (if b2 = 1 then .standardCharger else .chargingHost, r)
        else (.standardHost, r)
    (chrTypeNum, hwBc11Done r)

end Steps

/-! ## Chargers -/

/-- The registers while nothing is driven. -/
def bc11Idle : Bc11 :=
  { detect := true, biasEn := 1, vsrcEn := 0, vrefVth := 0, cmpEn := 0, ipuEn := 0, ipdEn := 0,
    rst := 1, bbCtrl := 1 }

/-- The registers at each of the four readings. -/
def atDCD : Bc11 := { bc11Idle with ipuEn := 2, ipdEn := 1, vrefVth := 1, cmpEn := 2 }
def atA1 : Bc11 := { bc11Idle with ipdEn := 1, cmpEn := 1 }
def atA2 : Bc11 := { bc11Idle with vsrcEn := 2, ipdEn := 1, cmpEn := 1 }
def atB2 : Bc11 := { bc11Idle with ipuEn := 2, vrefVth := 1, cmpEn := 1 }

/-- How the comparator reads with a charger of the type attached. -/
def Identifies (cmpOut : Bc11 → Nat) : ChargerType → Prop
  | .chargerUnknown => False
  | .standardHost => cmpOut atDCD = 0 ∧ cmpOut atA2 = 0
  | .chargingHost => cmpOut atDCD = 0 ∧ cmpOut atA2 = 1 ∧ cmpOut atB2 = 0
  | .standardCharger => cmpOut atDCD = 0 ∧ cmpOut atA2 = 1 ∧ cmpOut atB2 = 1
  | .nonstandardCharger => cmpOut atDCD = 1 ∧ cmpOut atA1 = 0
  | .apple21ACharger => cmpOut atDCD = 1 ∧ cmpOut atA1 = 1

/-- A charger determines the readings. -/
structure AttachedCharger where
  type : ChargerType
  cmpOut : Bc11 → Nat
  identifies : Identifies cmpOut type

theorem AttachedCharger.type_known (c : AttachedCharger) : c.type ≠ .chargerUnknown := by
  intro h
  have hid := c.identifies
  rw [h] at hid
  exact hid

/-- A detection finds the type of the charger that is attached. -/
theorem hwCharging_detects (c : AttachedCharger) (r : Bc11) :
    (hwChargingGetChargerType c.cmpOut .chargerUnknown r).1 = c.type := by
  obtain ⟨type, cmpOut, hid⟩ := c
  have hinit : hwBc11Init r = bc11Idle := rfl
  have hdcd : hwBc11DCD cmpOut bc11Idle = (cmpOut atDCD, bc11Idle) := rfl
  have ha1 : hwBc11StepA1 cmpOut bc11Idle = (cmpOut atA1, bc11Idle) := rfl
  have ha2 : hwBc11StepA2 cmpOut bc11Idle = (cmpOut atA2, bc11Idle) := rfl
  have hb2 : (hwBc11StepB2 cmpOut bc11Idle).1 = cmpOut atB2 := rfl
  simp only [hwChargingGetChargerType, hinit, hdcd, ha1, ha2, hb2, ne_eq, not_true_eq_false,
    if_false]
  cases type with
  | chargerUnknown => exact hid.elim
  | standardHost => simp [hid.1, hid.2]
  | chargingHost => simp [hid.1, hid.2.1, hid.2.2]
  | nonstandardCharger => simp [hid.1, hid.2]
  | standardCharger => simp [hid.1, hid.2.1, hid.2.2]
  | apple21ACharger => simp [hid.1, hid.2]

end Charger
end AtomDrivers
