/-
The lists of driver names.

The names of the panel drivers and those of the sensor drivers are appended to arrays
of fixed size, up to an entry that ends the list, and nobody looks at the room that
is left.  The sensor drivers are listed by the first call that finds the static `i`
at 0, which is then the number of the drivers.
-/
import AtomDrivers.Linux.CString
import AtomDrivers.Machine.Run

namespace AtomDrivers
namespace Procfs

open Linux

/-- The entries before the first one without a name. -/
def names : List (Option CName) → List CName
  | [] => []
  | none :: _ => []
  | some name :: rest => name :: names rest

/-- Each name with `sep` behind it. -/
def listing (sep : List UInt8) (entries : List (Option CName)) : List UInt8 :=
  (names entries).flatMap fun name => name.chars ++ sep

/-- The room that a list takes. -/
def listSize (sep : List UInt8) : List (Option CName) → Nat
  | [] => 0
  | none :: _ => 0
  | some name :: rest => name.chars.length + sep.length + listSize sep rest

/-- The loop over the entries. -/
def strcatNames (sep : List UInt8) : List (Option CName) → List UInt8 → Option (List UInt8)
  | [], dst => some dst
  | none :: _, dst => some dst
  | some name :: rest, dst => do
    let dst ← strcat dst name.chars
    let dst ← strcat dst sep
    strcatNames sep rest dst

section Listing

variable {sep : List UInt8}

theorem listing_cons (name : CName) (rest : List (Option CName)) :
    listing sep (some name :: rest) = name.chars ++ sep ++ listing sep rest := by
  simp [listing, names]

theorem listing_length (entries : List (Option CName)) :
    (listing sep entries).length = listSize sep entries := by
  induction entries with
  | nil => rfl
  | cons e rest ih =>
    cases e with
    | none => rfl
    | some name =>
      rw [listing_cons, List.length_append, List.length_append, ih]
      rfl

theorem names_take (entries : List (Option CName)) (k : Nat) :
    names (entries.take k) <+: names entries := by
  induction entries generalizing k with
  | nil => simp
  | cons e rest ih =>
    cases k with
    | zero => exact List.nil_prefix
    | succ k =>
      cases e with
      | none => exact List.nil_prefix
      | some name => exact (List.prefix_cons_inj name).mpr (ih k)

theorem listing_take_length (sep : List UInt8) (entries : List (Option CName)) (k : Nat) :
    (listing sep (entries.take k)).length ≤ (listing sep entries).length := by
  obtain ⟨rest, hrest⟩ := names_take entries k
  unfold listing
  rw [← hrest, List.flatMap_append, List.length_append]
  exact Nat.le_add_right _ _

variable {cap : Nat} {dst s : List UInt8}

/-- The names are appended while there is room. -/
theorem strcatNames_holds (hsep : 0 ∉ sep) (entries : List (Option CName)) (h : Holds cap dst s)
    (hfits : s.length + (listing sep entries).length < cap) :
    ∃ dst', strcatNames sep entries dst = some dst' ∧
      Holds cap dst' (s ++ listing sep entries) := by
  induction entries generalizing dst s with
  | nil => exact ⟨dst, rfl, by rwa [listing, names, List.flatMap_nil, List.append_nil]⟩
  | cons e rest ih =>
    cases e with
    | none => exact ⟨dst, rfl, by rwa [listing, names, List.flatMap_nil, List.append_nil]⟩
    | some name =>
      rw [listing_cons, List.length_append, List.length_append] at hfits
      obtain ⟨named, hnamed, h⟩ := h.strcat name.nonzero (by omega)
      have hroom : (s ++ name.chars).length + sep.length < cap := by
        rw [List.length_append]
        omega
      obtain ⟨parted, hparted, h⟩ := h.strcat hsep hroom
      have hrest : (s ++ name.chars ++ sep).length + (listing sep rest).length < cap := by
        rw [List.length_append, List.length_append]
        omega
      obtain ⟨dst', hdst, h⟩ := ih h hrest
      refine ⟨dst', ?_, ?_⟩
      · rw [strcatNames, hnamed, Option.bind_eq_bind, Option.bind_some, hparted]
        exact hdst
      · rw [listing_cons, ← List.append_assoc, ← List.append_assoc]
        exact h

/-- The first piece without room overruns the array. -/
theorem strcatNames_none (hsep : 0 ∉ sep) (entries : List (Option CName)) (h : Holds cap dst s)
    (hfits : ¬ s.length + (listing sep entries).length < cap) :
    strcatNames sep entries dst = none := by
  induction entries generalizing dst s with
  | nil => exact absurd h.lt hfits
  | cons e rest ih =>
    cases e with
    | none => exact absurd h.lt hfits
    | some name =>
      rw [listing_cons, List.length_append, List.length_append] at hfits
      rw [strcatNames, Option.bind_eq_bind]
      by_cases hname : s.length + name.chars.length < cap
      · obtain ⟨named, hnamed, h⟩ := h.strcat name.nonzero hname
        rw [hnamed, Option.bind_some]
        by_cases hroom : (s ++ name.chars).length + sep.length < cap
        · obtain ⟨parted, hparted, h⟩ := h.strcat hsep hroom
          rw [hparted, Option.bind_some]
          refine ih h ?_
          rw [List.length_append, List.length_append]
          omega
        · rw [h.strcat_none sep hroom, Option.bind_none]
      · rw [h.strcat_none name.chars hname, Option.bind_none]

end Listing

/-! ## The panel drivers -/

/-- LCM_SUPPORT_LENGTH -/
def lcmSupportLength : Nat := 512

def twoSpaces : List UInt8 := [32, 32]

/-- `lcmlist_supported` as it is printed. -/
def lcmlistSupported (lcmDriverList : List (Option CName)) : Option (List UInt8) := do
  let dst ← strcatNames twoSpaces lcmDriverList (List.replicate lcmSupportLength 0)
  strcat dst []

/-- After each iteration the array holds the names so far. -/
def LcmListFits (lcmDriverList : List (Option CName)) : Prop :=
  ∀ k, ∃ dst,
    strcatNames twoSpaces (lcmDriverList.take k) (List.replicate lcmSupportLength 0) = some dst ∧
      Holds lcmSupportLength dst (listing twoSpaces (lcmDriverList.take k))

theorem lcmListFits_iff (lcmDriverList : List (Option CName)) :
    LcmListFits lcmDriverList ↔ (listing twoSpaces lcmDriverList).length < lcmSupportLength := by
  have hzeroed : Holds lcmSupportLength (List.replicate lcmSupportLength 0) [] :=
    holds_zeroed (by decide)
  constructor
  · intro h
    obtain ⟨dst, -, hholds⟩ := h lcmDriverList.length
    rw [List.take_length] at hholds
    exact hholds.lt
  · intro h k
    have hlen := listing_take_length twoSpaces lcmDriverList k
    have hfits : ([] : List UInt8).length + (listing twoSpaces (lcmDriverList.take k)).length <
        lcmSupportLength := by
      rw [List.length_nil]
      omega
    exact strcatNames_holds (by decide) _ hzeroed hfits

/-! ## The sensor drivers -/

/-- CAMERA_SUPPORT_LENGTH -/
def cameraSupportLength : Nat := 1024

def tab : List UInt8 := [9]

/-- The members of `ACDK_KD_SENSOR_INIT_FUNCTION_STRUCT` that are listed. -/
structure SensorInitEntry where
  sensorId : BitVec 32
  drvname : CName

/-- A sensor id of 0 ends the list. -/
def SensorInitEntry.name (e : SensorInitEntry) : Option CName :=
  if e.sensorId = 0 then none else some e.drvname

/-- The static `i` and the array. -/
structure SensorNames where
  i : Nat
  cameralistSupported : List UInt8

def sensorNamesBoot : SensorNames where
  i := 0
  cameralistSupported := List.replicate cameraSupportLength 0

section Sensors

variable (kdSensorList : List SensorInitEntry)

def sensorEntries : List (Option CName) := kdSensorList.map SensorInitEntry.name

/-- The argument says whether `ppSensorList` is there. -/
def kdGetSensorInitFuncList (ppSensorList : Bool) (s : SensorNames) : Option (SensorNames × Nat) :=
  if ppSensorList = false then some (s, 1)
  else if s.i = 0 then do
    let dst ← strcatNames tab (sensorEntries kdSensorList) (List.replicate cameraSupportLength 0)
    some ({ i := (names (sensorEntries kdSensorList)).length, cameralistSupported := dst }, 0)
  else some (s, 0)

/-- An overrun ends the run. -/
def sensorNames : Machine SensorNames Bool Nat where
  step s ppSensorList := kdGetSensorInitFuncList kdSensorList ppSensorList s

def SensorsListed (s : SensorNames) : Prop :=
  Holds cameraSupportLength s.cameralistSupported (listing tab (sensorEntries kdSensorList))

/-- The list is right after any calls of which one had somewhere to put it. -/
def ListsSensorsOnce : Prop :=
  ∀ calls : List Bool, true ∈ calls →
    ∃ t rets, (sensorNames kdSensorList).run sensorNamesBoot calls = some (t, rets) ∧
      SensorsListed kdSensorList t

variable {kdSensorList}

/-- The call that makes the list. -/
theorem getList_first {s : SensorNames} (hi : s.i = 0)
    (hfits : (listing tab (sensorEntries kdSensorList)).length < cameraSupportLength) :
    ∃ t, kdGetSensorInitFuncList kdSensorList true s = some (t, 0) ∧
      SensorsListed kdSensorList t := by
  have hzeroed : Holds cameraSupportLength (List.replicate cameraSupportLength 0) [] :=
    holds_zeroed (by decide)
  have hroom : ([] : List UInt8).length + (listing tab (sensorEntries kdSensorList)).length <
      cameraSupportLength := by
    rwa [List.length_nil, Nat.zero_add]
  obtain ⟨dst, hdst, hholds⟩ :=
    strcatNames_holds (by decide) (sensorEntries kdSensorList) hzeroed hroom
  refine ⟨{ i := (names (sensorEntries kdSensorList)).length, cameralistSupported := dst }, ?_,
    hholds⟩
  simp [kdGetSensorInitFuncList, hi, hdst]

theorem getList_overruns {s : SensorNames} (hi : s.i = 0)
    (hfits : ¬ (listing tab (sensorEntries kdSensorList)).length < cameraSupportLength) :
    kdGetSensorInitFuncList kdSensorList true s = none := by
  have hzeroed : Holds cameraSupportLength (List.replicate cameraSupportLength 0) [] :=
    holds_zeroed (by decide)
  have hroom : ¬ ([] : List UInt8).length + (listing tab (sensorEntries kdSensorList)).length <
      cameraSupportLength := by
    rwa [List.length_nil, Nat.zero_add]
  have hnone := strcatNames_none (by decide) (sensorEntries kdSensorList) hzeroed hroom
  simp [kdGetSensorInitFuncList, hi, hnone]

/-- A call makes the list or leaves it as it is. -/
theorem getList_step (hfits : (listing tab (sensorEntries kdSensorList)).length <
    cameraSupportLength) (ppSensorList : Bool) {s : SensorNames}
    (hready : s.i = 0 ∨ SensorsListed kdSensorList s) :
    ∃ t ret, kdGetSensorInitFuncList kdSensorList ppSensorList s = some (t, ret) ∧
      (t.i = 0 ∨ SensorsListed kdSensorList t) ∧
      (ppSensorList = true ∨ SensorsListed kdSensorList s → SensorsListed kdSensorList t) := by
  cases ppSensorList with
  | false => exact ⟨s, 1, rfl, hready, fun h => h.resolve_left (by decide)⟩
  | true =>
    by_cases hi : s.i = 0
    · obtain ⟨t, hstep, hlisted⟩ := getList_first hi hfits
      exact ⟨t, 0, hstep, .inr hlisted, fun _ => hlisted⟩
    · have hlisted := hready.resolve_left hi
      refine ⟨s, 0, ?_, hready, fun _ => hlisted⟩
      simp [kdGetSensorInitFuncList, hi]

theorem getList_run (hfits : (listing tab (sensorEntries kdSensorList)).length <
    cameraSupportLength) (calls : List Bool) {s : SensorNames}
    (hready : s.i = 0 ∨ SensorsListed kdSensorList s) :
    ∃ t rets, (sensorNames kdSensorList).run s calls = some (t, rets) ∧
      (true ∈ calls ∨ SensorsListed kdSensorList s → SensorsListed kdSensorList t) := by
  induction calls generalizing s with
  | nil => exact ⟨s, [], rfl, fun h => h.resolve_left (by simp)⟩
  | cons call calls ih =>
    obtain ⟨u, ret, hstep, hready', hlisted⟩ := getList_step hfits call hready
    obtain ⟨t, rets, hrun, hlast⟩ := ih hready'
    refine ⟨t, ret :: rets, Machine.run_cons hstep hrun, fun h => hlast ?_⟩
    rcases h with hmem | hs
    · rcases List.mem_cons.mp hmem with hcall | hcalls
      · exact .inr (hlisted (.inl hcall.symm))
      · exact .inl hcalls
    · exact .inr (hlisted (.inr hs))

theorem listsSensorsOnce_iff : ListsSensorsOnce kdSensorList ↔
    (listing tab (sensorEntries kdSensorList)).length < cameraSupportLength := by
  constructor
  · intro h
    by_contra hfits
    obtain ⟨t, rets, hrun, -⟩ := h [true] (by decide)
    obtain ⟨u, ret, rets', hstep, -⟩ := Machine.run_cons_iff.mp hrun
    have hboot : sensorNamesBoot.i = 0 := rfl
    have hnone : (sensorNames kdSensorList).step sensorNamesBoot true = none :=
      getList_overruns hboot hfits
    rw [hnone] at hstep
    cases hstep
  · intro hfits calls hcall
    obtain ⟨t, rets, hrun, hlast⟩ := getList_run hfits calls (s := sensorNamesBoot) (.inl rfl)
    exact ⟨t, rets, hrun, hlast (.inl hcall)⟩

end Sensors

/-! ## Both -/

/-- Neither array is overrun, and each holds its list, exactly when the names and what is
behind them are shorter than the array. -/
theorem driverLists_iff (lcmDriverList : List (Option CName))
    (kdSensorList : List SensorInitEntry) :
    (LcmListFits lcmDriverList ∧ ListsSensorsOnce kdSensorList) ↔
      listSize twoSpaces lcmDriverList < lcmSupportLength ∧
        listSize tab (sensorEntries kdSensorList) < cameraSupportLength := by
  rw [lcmListFits_iff, listsSensorsOnce_iff, listing_length, listing_length]

/-- "otm9605a_dsi" -/
def panelName : CName where
  chars := [111, 116, 109, 57, 54, 48, 53, 97, 95, 100, 115, 105]
  nonzero := by decide

/-- The names of 37 panel drivers and their spaces take 518 bytes. -/
theorem panels_overrun :
    ¬ (LcmListFits (List.replicate 37 (some panelName)) ∧ ListsSensorsOnce []) := by
  rintro ⟨h, -⟩
  obtain ⟨dst, -, hholds⟩ := h 37
  have hall : (List.replicate 37 (some panelName)).take 37 = List.replicate 37 (some panelName) :=
    List.take_of_length_le (by decide)
  have hlt := hholds.lt
  rw [hall, listing_length] at hlt
  exact absurd hlt (by decide)

end Procfs
end AtomDrivers
