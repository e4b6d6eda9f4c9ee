/-
The charging current and the charger that is attached.

`bq24296_charging_enable` chooses the limits by a type that it remembers, and detects
the type only while none is remembered and a charger is attached.  Nothing forgets it
again, so the limits follow the first charger that a call has found.  They are those of
the charger that is attached now until a `STANDARD_CHARGER` found first is gone.
-/
import AtomDrivers.Charger.Bc11
import AtomDrivers.Charger.Bq24296

namespace AtomDrivers
namespace Charger

/-- `PRECC_BATVOL`, in millivolts. -/
def preccBatvol : Int := 2800

/-- `KAL_TRUE` -/
def kalTrue : BitVec 32 := 1

/-- What is attached, the static `g_chr_type_num`, and the registers of the detection. -/
structure Charging where
  attached : Option AttachedCharger
  gChrTypeNum : ChargerType
  bc11 : Bc11

/-- The setters that are called, with their values, in order. -/
abbrev SetterCalls := List (Setter × BitVec 32)

/-- `upmu_is_chr_det` sees whether a charger is attached. -/
def detectCharger (s : Charging) : Charging :=
  match s.attached with
  | none => s
  | some charger =>
    if s.gChrTypeNum = .chargerUnknown then
      let (gChrTypeNum, bc11) := hwChargingGetChargerType charger.cmpOut s.gChrTypeNum s.bc11
      { s with gChrTypeNum, bc11 }
    else s

/-- The input limit and the charge current for a type. -/
def chargingLimits (gChrTypeNum : ChargerType) (batVal : Int) : SetterCalls :=
  if gChrTypeNum = .standardCharger then
    [(.iinlim, 0x6), if batVal < preccBatvol then (.ichg, 0x0) else (.ichg, 0x17)]
  else if gChrTypeNum = .standardHost ∨ gChrTypeNum = .chargingHost ∨
      gChrTypeNum = .nonstandardCharger then
    [(.iinlim, 0x2), (.ichg, 0)]
  else [(.iinlim, 0x2), (.ichg, 0)]

/-- `batVal` is what `get_i_sense_volt` measures. -/
def bq24296ChargingEnable (bEnable : BitVec 32) (batVal : Int) (s : Charging) :
    Charging × SetterCalls :=
  let s := detectCharger s
  (s, chargingLimits s.gChrTypeNum batVal ++
    [(.enHiz, 0x0), (.chgConfig, if bEnable = kalTrue then 0x1 else 0x0), (.wdtRst, 0x1)])

/-- `plug` attaches a charger, swaps it for another one or, with `none`, detaches it. -/
inductive ChargingAction
  | plug (charger : Option AttachedCharger)
  | chargingEnable (bEnable : BitVec 32) (batVal : Int)

def charging : Machine Charging ChargingAction SetterCalls where
  step s
    | .plug attached => some ({ s with attached }, [])
    | .chargingEnable bEnable batVal => some (bq24296ChargingEnable bEnable batVal s)

/-- Nothing attached and nothing remembered. -/
def booted (bc11 : Bc11) : Charging :=
  { attached := none, gChrTypeNum := .chargerUnknown, bc11 }

/-! ## What a call writes -/

def typeOf : Option AttachedCharger → ChargerType
  | none => .chargerUnknown
  | some charger => charger.type

/-- The values written with one setter. -/
def written (setter : Setter) (calls : SetterCalls) : List (BitVec 32) :=
  calls.filterMap fun c => if c.1 = setter then some c.2 else none

/-- The limits are those of a charger of this type. -/
structure LimitsOf (type : ChargerType) (batVal : Int) (calls : SetterCalls) : Prop where
  limit : 0x6 ∈ written .iinlim calls → type = .standardCharger
  current : (∃ code ∈ written .ichg calls, 0 < code) →
    type = .standardCharger ∧ preccBatvol ≤ batVal
  other : type ≠ .standardCharger → written .iinlim calls = [0x2] ∧ written .ichg calls = [0]

/-- A call writes the limits of the charger that is attached. -/
def FollowsAttached (s : Charging) (a : ChargingAction) : Prop :=
  ∀ bEnable batVal, a = .chargingEnable bEnable batVal → ∀ t calls,
    charging.step s a = some (t, calls) → LimitsOf (typeOf s.attached) batVal calls

theorem chargingLimits_eq (type : ChargerType) (batVal : Int) :
    chargingLimits type batVal =
      [(.iinlim, if type = .standardCharger then 0x6 else 0x2),
        (.ichg, if type = .standardCharger ∧ preccBatvol ≤ batVal then 0x17 else 0)] := by
  unfold chargingLimits
  by_cases hstandard : type = .standardCharger
  · by_cases hlow : batVal < preccBatvol
    · simp [hstandard, hlow, Int.not_le.mpr hlow]
    · simp [hstandard, hlow, Int.not_lt.mp hlow]
  · simp [hstandard]

/-- Each limit is written once. -/
theorem written_limits (bEnable : BitVec 32) (batVal : Int) (s : Charging) :
    let type := (detectCharger s).gChrTypeNum
    let calls := (bq24296ChargingEnable bEnable batVal s).2
    written .iinlim calls = [if type = .standardCharger then 0x6 else 0x2] ∧
      written .ichg calls =
        [if type = .standardCharger ∧ preccBatvol ≤ batVal then 0x17 else 0] := by
  simp only [bq24296ChargingEnable, chargingLimits_eq]
  exact ⟨rfl, rfl⟩

/-- The type a call goes by decides which limits it writes. -/
theorem limitsOf_iff (type : ChargerType) (bEnable : BitVec 32) (batVal : Int) (s : Charging) :
    LimitsOf type batVal (bq24296ChargingEnable bEnable batVal s).2 ↔
      ((detectCharger s).gChrTypeNum = .standardCharger → type = .standardCharger) := by
  obtain ⟨hlimit, hcurrent⟩ := written_limits bEnable batVal s
  constructor
  · intro h hstandard
    refine h.limit ?_
    rw [hlimit, if_pos hstandard]
    exact List.mem_singleton.mpr rfl
  · intro h
    refine ⟨fun hmem => ?_, fun hmem => ?_, fun hother => ?_⟩
    · rw [hlimit, List.mem_singleton] at hmem
      by_contra hne
      rw [if_neg fun hstandard => hne (h hstandard)] at hmem
      exact absurd hmem (by decide)
    · obtain ⟨code, hcode, hpos⟩ := hmem
      rw [hcurrent, List.mem_singleton] at hcode
      by_contra hne
      rw [if_neg fun hboth => hne ⟨h hboth.1, hboth.2⟩] at hcode
      rw [hcode] at hpos
      exact absurd hpos (by decide)
    · have hnot : (detectCharger s).gChrTypeNum ≠ .standardCharger := fun hs => hother (h hs)
      rw [hlimit, hcurrent, if_neg hnot, if_neg fun hboth => hnot hboth.1]
      exact ⟨rfl, rfl⟩

/-! ## What is remembered -/

/-- The charger that is attached after these actions. -/
def attachedAfter : Option AttachedCharger → List ChargingAction → Option AttachedCharger
  | attached, [] => attached
  | _, .plug attached :: as => attachedAfter attached as
  | attached, .chargingEnable _ _ :: as => attachedAfter attached as

/-- The charger that is attached at the first call that finds one. -/
def firstFound : Option AttachedCharger → List ChargingAction → Option AttachedCharger
  | _, [] => none
  | _, .plug attached :: as => firstFound attached as
  | attached, .chargingEnable _ _ :: as => attached.or (firstFound attached as)

theorem attachedAfter_append (attached : Option AttachedCharger) (as bs : List ChargingAction) :
    attachedAfter attached (as ++ bs) = attachedAfter (attachedAfter attached as) bs := by
  induction as generalizing attached with
  | nil => rfl
  | cons a as ih => cases a <;> exact ih _

theorem firstFound_append (attached : Option AttachedCharger) (as bs : List ChargingAction) :
    firstFound attached (as ++ bs) =
      (firstFound attached as).or (firstFound (attachedAfter attached as) bs) := by
  induction as generalizing attached with
  | nil => rfl
  | cons a as ih =>
    cases a with
    | plug c => exact ih c
    | chargingEnable bEnable batVal =>
      simp only [List.cons_append, firstFound, attachedAfter, ih, Option.or_assoc]

theorem detectCharger_attached (s : Charging) : (detectCharger s).attached = s.attached := by
  unfold detectCharger
  split
  · rfl
  · split <;> rfl

/-- A call remembers what it finds if nothing was remembered. -/
theorem detectCharger_type {s : Charging} {first : Option AttachedCharger}
    (h : s.gChrTypeNum = typeOf first) :
    (detectCharger s).gChrTypeNum = typeOf (first.or s.attached) := by
  obtain ⟨attached, g, bc11⟩ := s
  simp only at h
  subst h
  cases attached with
  | none => simp [detectCharger]
  | some c =>
    cases first with
    | none => exact hwCharging_detects c bc11
    | some d => simp [detectCharger, typeOf, d.type_known]

/-- The state after a run, by its actions alone. -/
structure Remembers (s : Charging) (as : List ChargingAction) : Prop where
  attached : s.attached = attachedAfter none as
  type : s.gChrTypeNum = typeOf (firstFound none as)

theorem Remembers.snoc {s t : Charging} {as : List ChargingAction} {a : ChargingAction}
    {calls : SetterCalls} (h : Remembers s as) (hstep : charging.step s a = some (t, calls)) :
    Remembers t (as ++ [a]) := by
  cases a with
  | plug c =>
    simp only [charging, Option.some.injEq, Prod.mk.injEq] at hstep
    rw [← hstep.1]
    refine ⟨by rw [attachedAfter_append]; rfl, ?_⟩
    rw [firstFound_append, firstFound, firstFound, Option.or_none]
    exact h.type
  | chargingEnable bEnable batVal =>
    simp only [charging, Option.some.injEq] at hstep
    have ht : t = detectCharger s := (congrArg Prod.fst hstep).symm
    rw [ht]
    refine ⟨?_, ?_⟩
    · rw [detectCharger_attached, attachedAfter_append]
      exact h.attached
    · rw [detectCharger_type h.type, firstFound_append, firstFound, firstFound, Option.or_none,
        h.attached]

theorem remembers_run {bc11 : Bc11} {s : Charging} {as : List ChargingAction}
    {os : List SetterCalls} (h : charging.run (booted bc11) as = some (s, os)) : Remembers s as :=
  Machine.run_history (J := fun s as _ => Remembers s as)
    (fun _ _ _ _ _ _ hs hstep => hs.snoc hstep) ⟨rfl, rfl⟩ h

theorem charging_total (s : Charging) (a : ChargingAction) :
    ∃ t calls, charging.step s a = some (t, calls) := by
  cases a <;> exact ⟨_, _, rfl⟩

/-! ## Every sequence of plugs and calls -/

/-- When the first charger that a call finds is a `STANDARD_CHARGER`, one is attached at
every call from there on. -/
def StandardKept (as : List ChargingAction) : Prop :=
  ∀ before bEnable batVal after, as = before ++ .chargingEnable bEnable batVal :: after →
    typeOf (firstFound none (before ++ [.chargingEnable bEnable batVal])) = .standardCharger →
    typeOf (attachedAfter none before) = .standardCharger

theorem followsAttached_iff {s : Charging} {before : List ChargingAction} (hs : Remembers s before)
    (bEnable : BitVec 32) (batVal : Int) :
    FollowsAttached s (.chargingEnable bEnable batVal) ↔
      (typeOf (firstFound none (before ++ [.chargingEnable bEnable batVal])) = .standardCharger →
        typeOf (attachedAfter none before) = .standardCharger) := by
  have hfirst : (detectCharger s).gChrTypeNum =
      typeOf (firstFound none (before ++ [.chargingEnable bEnable batVal])) :=
    (hs.snoc (a := .chargingEnable bEnable batVal) rfl).type
  rw [← hfirst, ← hs.attached]
  constructor
  · intro h
    exact (limitsOf_iff _ bEnable batVal s).mp (h bEnable batVal rfl _ _ rfl)
  · intro h bEnable' batVal' ha t calls hstep
    cases ha
    simp only [charging, Option.some.injEq] at hstep
    have hcalls : calls = (bq24296ChargingEnable bEnable batVal s).2 :=
      (congrArg Prod.snd hstep).symm
    rw [hcalls]
    exact (limitsOf_iff _ bEnable batVal s).mpr h

/-- Over every sequence of plugs and calls, each call writes the limits of the charger
that is attached exactly when a `STANDARD_CHARGER` that was found first stays attached, or
is replaced by another one, at all later calls. -/
theorem follows_throughout_iff (bc11 : Bc11) (as : List ChargingAction) :
    charging.AllSteps FollowsAttached (booted bc11) as ↔ StandardKept as := by
  rw [Machine.allSteps_iff_split]
  constructor
  · intro h before bEnable batVal after heq
    obtain ⟨s, os, hrun⟩ := Machine.exists_run charging_total (booted bc11) before
    exact (followsAttached_iff (remembers_run hrun) bEnable batVal).mp
      (h before _ after heq s os hrun)
  · intro h before a after heq s os hrun
    cases a with
    | plug c =>
      intro bEnable batVal ha
      cases ha
    | chargingEnable bEnable batVal =>
      exact (followsAttached_iff (remembers_run hrun) bEnable batVal).mpr
        (h before bEnable batVal after heq)

/-- A wall charger. -/
def wallCharger : AttachedCharger where
  type := .standardCharger
  cmpOut r := if r = atDCD then 0 else 1
  identifies := ⟨by decide, by decide, by decide⟩

/-- The port of a computer. -/
def computerPort : AttachedCharger where
  type := .standardHost
  cmpOut _ := 0
  identifies := ⟨rfl, rfl⟩

/-- Swapped for a computer's port, a wall charger leaves it its 2 A. -/
theorem computer_port_at_2A :
    ¬ charging.AllSteps FollowsAttached (booted bc11Idle)
      [.plug (some wallCharger), .chargingEnable kalTrue 3000, .plug (some computerPort),
        .chargingEnable kalTrue 3000] := by
  intro h
  have hlast := Machine.allSteps_iff_split.mp h [.plug (some wallCharger),
    .chargingEnable kalTrue 3000, .plug (some computerPort)] _ [] rfl _ _ rfl
  have hlimits := (hlast _ _ rfl _ _ rfl).other (by decide)
  exact absurd hlimits.1 (by decide)

end Charger
end AtomDrivers
