/-
What the charger is told.

Each setter sends a whole register over the bus: the content that its read has found,
with its own field replaced.  What the chip does to its registers between the calls is
left open, since some clear themselves, and so is what the bus answers.  The registers as
they were sent last hold every setting made so far, at every moment, exactly when the
calls find the settings of their siblings as they were made.  `bq24296_charging_enable`
sends five registers, with the limits of the charger that was found first.
-/
import AtomDrivers.Charger.Charging
import AtomDrivers.Storage.Slots

namespace AtomDrivers
namespace Charger

open Storage

/-- The field of a setter. -/
def slot (hdr : Bq24296Header) (s : Setter) : Slot (BitVec 8) 8 where
  reg := hdr.con s.con
  field := hdr.field s

/-- No bit belongs to two fields. -/
def Bq24296Header.Apart (hdr : Bq24296Header) : Prop :=
  ∀ s t, s ≠ t → (slot hdr s).Apart (slot hdr t)

/-- The field can hold the value. -/
def Bq24296Header.Fits (hdr : Bq24296Header) (c : Setter × BitVec 32) : Prop :=
  (hdr.field c.1).Fits (c.2.setWidth 8)

instance (hdr : Bq24296Header) (c : Setter × BitVec 32) : Decidable (hdr.Fits c) :=
  inferInstanceAs (Decidable (Field.Fits _ _))

/-- Masks and shifts with the fields of each register side by side. -/
def sideBySide : Bq24296Header where
  i2cOk := 0
  con n := BitVec.ofNat 8 n
  field
    | .enHiz => { mask := 0x1#8, shift := 7, fits := by decide }
    | .vindpm => { mask := 0xf#8, shift := 3, fits := by decide }
    | .iinlim => { mask := 0x7#8, shift := 0, fits := by decide }
    | .regRst => { mask := 0x1#8, shift := 7, fits := by decide }
    | .wdtRst => { mask := 0x1#8, shift := 6, fits := by decide }
    | .chgConfig => { mask := 0x3#8, shift := 4, fits := by decide }
    | .sysMin => { mask := 0x7#8, shift := 1, fits := by decide }
    | .boostLim => { mask := 0x1#8, shift := 0, fits := by decide }
    | .ichg => { mask := 0x3f#8, shift := 2, fits := by decide }
    | .iprechg => { mask := 0xf#8, shift := 4, fits := by decide }
    | .iterm => { mask := 0xf#8, shift := 0, fits := by decide }
    | .vreg => { mask := 0x3f#8, shift := 2, fits := by decide }
    | .batlowv => { mask := 0x1#8, shift := 1, fits := by decide }
    | .vrechg => { mask := 0x1#8, shift := 0, fits := by decide }
    | .enTerm => { mask := 0x1#8, shift := 7, fits := by decide }
    | .watchdog => { mask := 0x3#8, shift := 4, fits := by decide }
    | .enTimer => { mask := 0x1#8, shift := 3, fits := by decide }
    | .chgTimer => { mask := 0x3#8, shift := 1, fits := by decide }
    | .treg => { mask := 0x3#8, shift := 0, fits := by decide }
    | .tmr2xEn => { mask := 0x1#8, shift := 6, fits := by decide }
    | .batfetDisable => { mask := 0x1#8, shift := 5, fits := by decide }
    | .intMask => { mask := 0x3#8, shift := 0, fits := by decide }

def allSetters : List Setter :=
  [.enHiz, .vindpm, .iinlim, .regRst, .wdtRst, .chgConfig, .sysMin, .boostLim, .ichg, .iprechg,
    .iterm, .vreg, .batlowv, .vrechg, .enTerm, .watchdog, .enTimer, .chgTimer, .treg, .tmr2xEn,
    .batfetDisable, .intMask]

theorem mem_allSetters (s : Setter) : s ∈ allSetters := by
  cases s <;> decide

theorem sideBySide_apart : sideBySide.Apart := by
  have hall : ∀ s ∈ allSetters, ∀ t ∈ allSetters, s ≠ t →
      (slot sideBySide s).Apart (slot sideBySide t) := by
    decide +kernel
  exact fun s t hne => hall s (mem_allSetters s) t (mem_allSetters t) hne

/-! ## What the calls send -/

/-- A call, and what the registers of the chip hold when it comes. -/
structure Exchange extends Call where
  registers : Chip

section Exchanges

variable (hdr : Bq24296Header)

/-- What the read of the call leaves in the buffer. -/
def Exchange.seen (x : Exchange) : BitVec 8 :=
  (bq24296ReadByte hdr x.answers (hdr.con x.setter.con) x.registers).2

/-- The register that the call writes, and what it writes there. -/
def Exchange.sent (x : Exchange) : Option (BitVec 8 × BitVec 8) :=
  if x.answers.write = hdr.i2cOk then
    some (hdr.con x.setter.con,
      (x.setter.call hdr x.val x.answers x.registers).2 (hdr.con x.setter.con))
  else none

/-- The setting that the call makes. -/
def Exchange.made (x : Exchange) : Option (Setter × BitVec 8) :=
  if x.answers.write = hdr.i2cOk then some (x.setter, x.val.setWidth 8) else none

/-- Each register as it was sent last holds the settings that were made last. -/
def SettingsSent (xs : List Exchange) : Prop :=
  ∀ s val, lastFor s (xs.filterMap (Exchange.made hdr)) = some val →
    ∃ b, lastFor (hdr.con s.con) (xs.filterMap (Exchange.sent hdr)) = some b ∧
      (hdr.field s).get b = val

/-- When the write of the call succeeds, its read has found the other settings of the
register as they were made last. -/
def SettingsFound (xs : List Exchange) (x : Exchange) : Prop :=
  x.answers.write = hdr.i2cOk → ∀ s ≠ x.setter, hdr.con s.con = hdr.con x.setter.con →
    ∀ val, lastFor s (xs.filterMap (Exchange.made hdr)) = some val →
      (hdr.field s).get (x.seen hdr) = val

variable {hdr}

/-- The call as an update of its slot. -/
def Exchange.update (hdr : Bq24296Header) (x : Exchange) : Option (Update Setter 8) :=
  if x.answers.write = hdr.i2cOk then
    some { target := x.setter, seen := x.seen hdr, val := x.val.setWidth 8 }
  else none

theorem Exchange.made_eq (x : Exchange) : x.made hdr = (x.update hdr).map Update.set := by
  unfold Exchange.made Exchange.update
  split <;> rfl

/-- The interface sends what the read found, with the field replaced. -/
theorem Exchange.sent_eq (x : Exchange) :
    x.sent hdr = (x.update hdr).map (Update.sent (slot hdr)) := by
  unfold Exchange.sent Exchange.update
  split
  next hwrite =>
    have hbyte : (x.setter.call hdr x.val x.answers x.registers).2 (hdr.con x.setter.con) =
        (hdr.field x.setter).put (x.seen hdr) (x.val.setWidth 8) := by
      simp only [Setter.call_eq, bq24296Set, bq24296ConfigInterface, bq24296WriteByte, i2cWrite,
        if_pos hwrite, Function.update_self, config_put]
      rfl
    rw [hbyte]
    rfl
  next => rfl

theorem made_filterMap (xs : List Exchange) :
    xs.filterMap (Exchange.made hdr) =
      (xs.filterMap (Exchange.update hdr)).map Update.set := by
  rw [List.map_filterMap]
  exact congrArg (fun f => List.filterMap f xs) (funext Exchange.made_eq)

theorem sent_filterMap (xs : List Exchange) :
    xs.filterMap (Exchange.sent hdr) =
      (xs.filterMap (Exchange.update hdr)).map (Update.sent (slot hdr)) := by
  rw [List.map_filterMap]
  exact congrArg (fun f => List.filterMap f xs) (funext Exchange.sent_eq)

theorem settingsSent_iff (xs : List Exchange) :
    SettingsSent hdr xs ↔ Settled (slot hdr) (xs.filterMap (Exchange.update hdr)) := by
  rw [SettingsSent, made_filterMap, sent_filterMap]
  rfl

theorem settingsFound_iff (xs : List Exchange) (x : Exchange) :
    SettingsFound hdr xs x ↔ ∀ u, x.update hdr = some u →
      SeenAsSet (slot hdr) (xs.filterMap (Exchange.update hdr)) u := by
  rw [SettingsFound, made_filterMap]
  by_cases hwrite : x.answers.write = hdr.i2cOk
  · have hupdate : x.update hdr =
        some { target := x.setter, seen := x.seen hdr, val := x.val.setWidth 8 } := if_pos hwrite
    constructor
    · intro h u hu
      rw [hupdate, Option.some.injEq] at hu
      subst hu
      exact h hwrite
    · intro h _
      exact h _ hupdate
  · have hupdate : x.update hdr = none := if_neg hwrite
    refine iff_of_true (fun h => absurd h hwrite) fun u hu => ?_
    rw [hupdate] at hu
    cases hu

/-- Whatever the chip does between the calls and whatever the bus answers: at every
moment the registers, as they were sent last, hold every setting made so far exactly when
each call whose write succeeds finds the settings beside its own as they were made. -/
theorem settings_sent_iff (hapart : hdr.Apart) {xs : List Exchange}
    (hfits : ∀ x ∈ xs, hdr.Fits (x.setter, x.val)) :
    (∀ before after, xs = before ++ after → SettingsSent hdr before) ↔
      ∀ before x after, xs = before ++ x :: after → SettingsFound hdr before x := by
  have hupdates : ∀ x ∈ xs, ∀ u, x.update hdr = some u →
      (slot hdr u.target).field.Fits u.val := by
    intro x hx u hu
    unfold Exchange.update at hu
    split at hu
    next =>
      cases hu
      exact hfits x hx
    next => cases hu
  simp only [settingsSent_iff, settingsFound_iff]
  exact settled_throughout_iff (Exchange.update hdr) hapart hupdates

/-- The bus works, and register 0 comes back without its input limit. -/
def limitCleared : List Exchange :=
  [{ setter := .iinlim, val := 0x6, answers := { read := 0, left := 0, write := 0 },
     registers := fun _ => 0 },
    { setter := .enHiz, val := 0x0, answers := { read := 0, left := 0, write := 0 },
      registers := fun _ => 0 }]

/-- The limit is sent, and then sent as 0. -/
theorem settings_sent_iff_cleared :
    ¬ ∀ before after, limitCleared = before ++ after → SettingsSent sideBySide before := by
  have hfits : ∀ x ∈ limitCleared, sideBySide.Fits (x.setter, x.val) := by
    intro x hx
    simp only [limitCleared, List.mem_cons, List.not_mem_nil, or_false] at hx
    rcases hx with rfl | rfl <;> decide
  intro h
  have hfound := (settings_sent_iff sideBySide_apart hfits).mp h [limitCleared[0]] limitCleared[1]
    [] rfl
  exact absurd (hfound rfl .iinlim (by decide) rfl 0x6 rfl) (by decide)

end Exchanges

/-! ## What the charging sends -/

section Charging

variable {hdr : Bq24296Header}

/-- When its write succeeds, a call for a setting sends the content that its read has
found, with the value in the field. -/
def Sends (hdr : Bq24296Header) (c : Setter × BitVec 32) (x : Exchange) : Prop :=
  x.answers.write = hdr.i2cOk → ∃ b, x.sent hdr = some (hdr.con c.1.con, b) ∧
    (hdr.field c.1).get b = c.2.setWidth 8 ∧ (hdr.field c.1).SameOutside b (x.seen hdr)

/-- The settings that `bq24296_charging_enable` makes for a type, in order. -/
def chargingCalls (type : ChargerType) (bEnable : BitVec 32) (batVal : Int) : SetterCalls :=
  [(.iinlim, if type = .standardCharger then 0x6 else 0x2),
    (.ichg, if type = .standardCharger ∧ preccBatvol ≤ batVal then 0x17 else 0),
    (.enHiz, 0x0), (.chgConfig, if bEnable = kalTrue then 0x1 else 0x0), (.wdtRst, 0x1)]

theorem chargingEnable_calls (bEnable : BitVec 32) (batVal : Int) (s : Charging) :
    (bq24296ChargingEnable bEnable batVal s).2 =
      chargingCalls (detectCharger s).gChrTypeNum bEnable batVal := by
  rw [bq24296ChargingEnable, chargingLimits_eq]
  rfl

/-- The values that `bq24296_charging_enable` writes. -/
def chargingValues : SetterCalls :=
  [(.iinlim, 0x6), (.iinlim, 0x2), (.ichg, 0x0), (.ichg, 0x17), (.enHiz, 0x0), (.chgConfig, 0x1),
    (.chgConfig, 0x0), (.wdtRst, 0x1)]

theorem chargingCalls_values (type : ChargerType) (bEnable : BitVec 32) (batVal : Int) :
    ∀ c ∈ chargingCalls type bEnable batVal, c ∈ chargingValues := by
  intro c hc
  simp only [chargingCalls, List.mem_cons, List.not_mem_nil, or_false] at hc
  rcases hc with rfl | rfl | rfl | rfl | rfl
  · split <;> simp [chargingValues]
  · split <;> simp [chargingValues]
  · simp [chargingValues]
  · split <;> simp [chargingValues]
  · simp [chargingValues]

theorem sends_of_fits {x : Exchange} (hfits : hdr.Fits (x.setter, x.val)) :
    Sends hdr (x.setter, x.val) x := by
  intro hwrite
  refine ⟨(hdr.field x.setter).put (x.seen hdr) (x.val.setWidth 8), ?_,
    Field.Fits.get_put hfits _, Field.Fits.sameOutside hfits _⟩
  rw [Exchange.sent_eq, Exchange.update, if_pos hwrite]
  rfl

/-- Every call in every run of plugs and calls makes the settings for the charger that was
found first and for what it is asked, and each of them sends its register as the chip has
shown it, but for the field. -/
theorem charging_sends (hfits : ∀ c ∈ chargingValues, hdr.Fits c) {bc11 : Bc11}
    {before : List ChargingAction} {bEnable : BitVec 32} {batVal : Int} {s : Charging}
    {os : List SetterCalls} {calls : SetterCalls}
    (h : charging.run (booted bc11) (before ++ [.chargingEnable bEnable batVal]) =
      some (s, os ++ [calls])) :
    calls = chargingCalls
        (typeOf (firstFound none (before ++ [.chargingEnable bEnable batVal]))) bEnable batVal ∧
      ∀ xs : List Exchange, xs.map (fun x => (x.setter, x.val)) = calls →
        List.Forall₂ (Sends hdr) calls xs := by
  obtain ⟨u, os₁, os₂, hfirst, hlast, hos⟩ := Machine.run_append_iff.mp h
  obtain ⟨v, calls', os₃, hstep, hnil, rfl⟩ := Machine.run_cons_iff.mp hlast
  cases hnil
  have hsame : calls = calls' := by simpa using congrArg List.getLast? hos
  simp only [charging, Option.some.injEq] at hstep
  have htype : (detectCharger u).gChrTypeNum =
      typeOf (firstFound none (before ++ [.chargingEnable bEnable batVal])) :=
    ((remembers_run hfirst).snoc (a := .chargingEnable bEnable batVal) rfl).type
  have hcalls : calls = chargingCalls
      (typeOf (firstFound none (before ++ [.chargingEnable bEnable batVal]))) bEnable batVal := by
    rw [hsame, ← htype, ← chargingEnable_calls, hstep]
  refine ⟨hcalls, fun xs hxs => ?_⟩
  have hvalues := chargingCalls_values
    (typeOf (firstFound none (before ++ [.chargingEnable bEnable batVal]))) bEnable batVal
  rw [← hcalls, ← hxs] at hvalues
  rw [← hxs, List.forall₂_map_left_iff, List.forall₂_same]
  intro x hx
  exact sends_of_fits (hfits _ (hvalues _ (List.mem_map_of_mem hx)))

/-- Registers that answer with all ones. -/
def onesRead (c : Setter × BitVec 32) : Exchange where
  setter := c.1
  val := c.2
  answers := { read := 0, left := 0, write := 0 }
  registers := fun _ => 0xff

/-- A wall charger gets 2 A, over registers of all ones. -/
theorem charging_sends_wall :
    List.Forall₂ (Sends sideBySide) (chargingCalls .standardCharger kalTrue 3000)
      ((chargingCalls .standardCharger kalTrue 3000).map onesRead) := by
  have hrun : charging.run (booted bc11Idle)
      ([.plug (some wallCharger)] ++ [.chargingEnable kalTrue 3000]) =
        some (_, [[]] ++ [chargingCalls .standardCharger kalTrue 3000]) := rfl
  exact (charging_sends (by decide) hrun).2 _ rfl

end Charging

/-! ## The status -/

/-- The register and the fields of the status. -/
structure StatusHeader where
  con8 : BitVec 8
  vbusStat : Field 8
  chrgStat : Field 8
  vsysStat : Field 8

section Getters

variable (hdr : Bq24296Header) (status : StatusHeader)

def bq24296ReadInterface (k : I2cAnswers) (regNum mask : BitVec 8) (shift : Nat) (chip : Chip) :
    BitVec 32 × BitVec 8 :=
  let (ret, reg) := bq24296ReadByte hdr k regNum chip
  let reg := (reg.setWidth 32 &&& (mask.setWidth 32 <<< shift)).setWidth 8
  (ret, (reg.setWidth 32 >>> shift).setWidth 8)

/-- The getters return the value whatever the interface returns. -/
def bq24296Get (regNum : BitVec 8) (f : Field 8) (k : I2cAnswers) (chip : Chip) : BitVec 32 :=
  (bq24296ReadInterface hdr k regNum f.mask f.shift chip).2.setWidth 32

def bq24296GetSystemStatus := bq24296Get hdr status.con8 Field.byte
def bq24296GetVbusStat := bq24296Get hdr status.con8 status.vbusStat
def bq24296GetChrgStat := bq24296Get hdr status.con8 status.chrgStat
def bq24296GetVsysStat := bq24296Get hdr status.con8 status.vsysStat

/-- A getter returns the field of what its read has left in the buffer, which after a
failed read is not the register. -/
theorem bq24296Get_eq (regNum : BitVec 8) (f : Field 8) (k : I2cAnswers) (chip : Chip) :
    bq24296Get hdr regNum f k chip =
      (f.get (if k.read = hdr.i2cOk then chip regNum else k.left)).setWidth 32 := by
  simp only [bq24296Get, bq24296ReadInterface, bq24296ReadByte, i2cWriteRead, Field.int_get]

end Getters

end Charger
end AtomDrivers
