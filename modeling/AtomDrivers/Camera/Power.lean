/-
Power of the sensors.

Opening powers the selected slots on from tail to head and stops at the first
failure, where it powers off the failing slot alone.  Closing powers them off from
head to tail and stops behind the first driver that fails to close.  The slots
already opened, and those not yet closed, keep their power.

A sensor is known by what `kdCISModulePowerOn` gets to name it, so that slots may
share one.  A power-on takes effect when it succeeds.  Which answers of a power-off
mean that the power is off is left open.
-/
import AtomDrivers.Machine.Run
import AtomDrivers.Machine.Until
import AtomDrivers.Camera.StaleBytes

namespace AtomDrivers
namespace Camera

open Linux Routine

/-- The socket and the name of a sensor. -/
abbrev Rail := BitVec 32 × String

def Slot.rail (slot : Slot) : Rail := (slot.invokeSocketIdx, slot.invokeSensorNameStr)

section Rails

variable (off : BitVec 32 → Bool) (slots : Nat → Slot)

def PowerCall.effect (c : PowerCall) (rails : Rail → Bool) : Rail → Bool :=
  if c.on then
    if c.ret = errorNone then Function.update rails (slots c.slot).rail true else rails
  else if off c.ret then Function.update rails (slots c.slot).rail false else rails

/-- The sensors that have power after the calls. -/
def powered : List PowerCall → (Rail → Bool) → Rail → Bool
  | [], rails => rails
  | c :: cs, rails => powered cs (c.effect off slots rails)

theorem powered_append (cs ds : List PowerCall) (rails : Rail → Bool) :
    powered off slots (cs ++ ds) rails = powered off slots ds (powered off slots cs rails) := by
  induction cs generalizing rails with
  | nil => rfl
  | cons c cs ih => exact ih _

/-- Successful power-ons add their sensors. -/
theorem powered_ons (ks : List Nat) (rails : Rail → Bool) (r : Rail) :
    powered off slots (ks.map fun k => { slot := k, on := true, ret := errorNone }) rails r = true ↔
      rails r = true ∨ ∃ k ∈ ks, (slots k).rail = r := by
  induction ks generalizing rails with
  | nil => simp [powered]
  | cons k ks ih =>
    rw [List.map_cons, powered, ih]
    by_cases hk : (slots k).rail = r
    · simp [PowerCall.effect, hk]
    · simp [PowerCall.effect, Function.update_of_ne (Ne.symm hk), hk]

/-- Only sensors that are called for get power. -/
theorem powered_named {cs : List PowerCall} {rails : Rail → Bool} {r : Rail}
    (h : powered off slots cs rails r = true) :
    rails r = true ∨ ∃ c ∈ cs, (slots c.slot).rail = r := by
  induction cs generalizing rails with
  | nil => exact Or.inl h
  | cons c cs ih =>
    rcases ih h with heffect | ⟨d, hd, hrail⟩
    · by_cases hc : (slots c.slot).rail = r
      · exact Or.inr ⟨c, List.mem_cons_self, hc⟩
      · refine Or.inl ?_
        unfold PowerCall.effect at heffect
        split at heffect
        · split at heffect
          · rwa [Function.update_of_ne (Ne.symm hc)] at heffect
          · exact heffect
        · split at heffect
          · rwa [Function.update_of_ne (Ne.symm hc)] at heffect
          · exact heffect
    · exact Or.inr ⟨d, List.mem_cons_of_mem _ hd, hrail⟩

/-- Power-offs remove the sensors they take effect on. -/
theorem powered_offs (answer : Nat → BitVec 32) (ks : List Nat) (rails : Rail → Bool) (r : Rail) :
    powered off slots (ks.map fun k => { slot := k, on := false, ret := answer k }) rails r = true ↔
      rails r = true ∧ ∀ k ∈ ks, off (answer k) = true → (slots k).rail ≠ r := by
  induction ks generalizing rails with
  | nil => simp [powered]
  | cons k ks ih =>
    rw [List.map_cons, powered, ih]
    by_cases hoff : off (answer k) = true
    · by_cases hk : (slots k).rail = r
      · simp [PowerCall.effect, hk, hoff]
      · simp [PowerCall.effect, Function.update_of_ne (Ne.symm hk), hk, hoff]
    · simp [PowerCall.effect, hoff]

end Rails

/-! ## The two walks -/

/-- A walk whose body only makes power calls. -/
theorem overSlots_calls {slots : Nat → Slot} {selected : Slot → Bool}
    {body : Nat → Sensors → BitVec 32 × Sensors} {calls : Nat → List PowerCall}
    {fails : Nat → Bool}
    (hbody : ∀ i cam, (body i cam).2.power = cam.power ++ calls i ∧
      (body i cam).2.slots = cam.slots ∧
      (body i cam).2.currentSensorIdx = cam.currentSensorIdx ∧
      ((body i cam).1 = errorNone ↔ fails i = false)) (is : List Nat) (cam : Sensors) :
    (overSlots slots selected body is cam).2.power = cam.power ++
        (upTo fails (is.filter fun i => (slots i).active && selected (slots i))).flatMap calls ∧
      (overSlots slots selected body is cam).2.slots = cam.slots ∧
      (overSlots slots selected body is cam).2.currentSensorIdx = cam.currentSensorIdx ∧
      ((overSlots slots selected body is cam).1 = errorNone ↔
        ∀ i ∈ is.filter fun i => (slots i).active && selected (slots i), fails i = false) := by
  induction is generalizing cam with
  | nil => simp [overSlots, upTo]
  | cons i is ih =>
    obtain ⟨hpower, hslots, hidx, hret⟩ := hbody i cam
    by_cases hi : (slots i).active = true ∧ selected (slots i) = true
    · have hfilter : (i :: is).filter (fun i => (slots i).active && selected (slots i)) =
          i :: is.filter fun i => (slots i).active && selected (slots i) := by
        simp [hi.1, hi.2]
      rw [overSlots, if_pos hi, hfilter]
      by_cases hfail : fails i = true
      · have hne : (body i cam).1 ≠ errorNone := fun h => by simp [hret.mp h] at hfail
        rw [if_pos hne, upTo, if_pos hfail]
        refine ⟨by simpa using hpower, hslots, hidx, ?_⟩
        simp [hne, hfail]
      · have heq : (body i cam).1 = errorNone := hret.mpr (by simpa using hfail)
        obtain ⟨hpower', hslots', hidx', hret'⟩ := ih (body i cam).2
        have hstay : fails i = false := by simpa using hfail
        rw [if_neg (by simpa using heq), upTo, if_neg hfail]
        refine ⟨?_, hslots'.trans hslots, hidx'.trans hidx, ?_⟩
        · rw [hpower', hpower, List.flatMap_cons, List.append_assoc]
        · rw [hret', List.forall_mem_cons]
          exact (and_iff_right hstay).symm
    · have hfilter : (i :: is).filter (fun i => (slots i).active && selected (slots i)) =
          is.filter fun i => (slots i).active && selected (slots i) := by
        rw [List.filter_cons_of_neg (by simpa using hi)]
      rw [overSlots, if_neg hi, hfilter]
      exact ih cam

section Walks

variable (hdr : SensorHeader) (world : World)

/-- The active slots that `g_CurrentSensorIdx` selects. -/
def selectedSlots (cam : Sensors) (is : List Nat) : List Nat :=
  is.filter fun i =>
    (cam.slots i).active && decide (cam.currentSensorIdx &&& (cam.slots i).invokeSocketIdx ≠ 0)

def openFails (call i : Nat) : Bool :=
  decide (world.power call i true ≠ errorNone ∨ (world.sensor call i).ret ≠ errorNone)

def closeFails (call i : Nat) : Bool := decide ((world.sensor call i).ret ≠ errorNone)

/-- The calls made for one slot. -/
def openCalls (call i : Nat) : List PowerCall :=
  { slot := i, on := true, ret := world.power call i true } ::
    if world.power call i true = errorNone ∧ (world.sensor call i).ret ≠ errorNone then
      [{ slot := i, on := false, ret := world.power call i false }]
    else []

def closeCall (call i : Nat) : PowerCall :=
  { slot := i, on := false, ret := world.power call i false }

theorem multiSensorOpen_calls (call : Nat) (cam : Sensors) :
    let ks := selectedSlots cam hdr.slots.reverse
    let r := kdMultiSensorOpen hdr world call cam
    r.2.power = cam.power ++ (upTo (openFails world call) ks).flatMap (openCalls world call) ∧
      r.2.slots = cam.slots ∧ r.2.currentSensorIdx = cam.currentSensorIdx ∧
      (r.1 = errorNone ↔ ∀ k ∈ ks, openFails world call k = false) := by
  refine overSlots_calls (fun i cam => ?_) hdr.slots.reverse cam
  by_cases hpower : world.power call i true = errorNone
  · by_cases hsensor : (world.sensor call i).ret = errorNone
    · simp [powerOn, openCalls, openFails, hpower, hsensor]
    · simp [powerOn, openCalls, openFails, hpower, hsensor]
  · simp [powerOn, openCalls, openFails, hpower]

theorem multiSensorClose_calls (call : Nat) (cam : Sensors) :
    let ks := selectedSlots cam hdr.slots
    let r := kdMultiSensorClose hdr world call cam
    r.2.power = cam.power ++ (upTo (closeFails world call) ks).map (closeCall world call) ∧
      r.2.slots = cam.slots ∧ r.2.currentSensorIdx = cam.currentSensorIdx ∧
      (r.1 = errorNone ↔ ∀ k ∈ ks, closeFails world call k = false) := by
  simp only [List.map_eq_flatMap]
  refine overSlots_calls (fun i cam => ?_) hdr.slots cam
  simp [powerOn, closeCall, closeFails]

end Walks

/-! ## Sequences of requests -/

inductive PowerRequest
  | open'
  | close
  deriving DecidableEq, Repr

section Requests

variable (hdr : CameraHeader) (world : World) (stale : Stale StackVar) (off : BitVec 32 → Bool)

/-- Requests under one driver and sensor selection. -/
def cameraPower : Machine (Kernel Sensors) PowerRequest Int where
  step s
    | .open' =>
      let r := adoptCameraHwOpen hdr world stale s
      some (r.2, r.1)
    | .close =>
      let r := adoptCameraHwClose hdr world stale s
      some (r.2, r.1)

/-- The sensors that have power. -/
def hot (s : Kernel Sensors) : Rail → Bool := powered off s.dev.slots s.dev.power fun _ => false

/-- A failed open leaves no sensor with power.  A close powers every selected sensor
off and leaves none with power. -/
def PowerBalanced (s : Kernel Sensors) (a : PowerRequest) : Prop :=
  ∀ t ret, (cameraPower hdr world stale).step s a = some (t, ret) →
    (a = .open' → ret ≠ 0 → ∀ r, hot off t r = false) ∧
    (a = .close →
      (∀ k ∈ selectedSlots s.dev hdr.slots, ∃ c ∈ t.dev.power.drop s.dev.power.length,
        c.on = false ∧ off c.ret = true ∧ (s.dev.slots c.slot).rail = (s.dev.slots k).rail) ∧
      ∀ r, hot off t r = false)

/-- The open that fails at `j`, behind the slots `before`, powers nothing on but what
it powers off: the first power-on fails, or all the power there is belongs to the
sensor of `j` and is taken off. -/
def UndoneAt (s : Kernel Sensors) (before : List Nat) (j : Nat) : Prop :=
  if world.power s.calls j true ≠ errorNone then before = [] ∧ ∀ r, hot off s r = false
  else off (world.power s.calls j false) = true ∧
    (∀ k ∈ before, (s.dev.slots k).rail = (s.dev.slots j).rail) ∧
    ∀ r, hot off s r = true → r = (s.dev.slots j).rail

/-- The close gets to the sensor of every selected slot. -/
def ClosesAll (s : Kernel Sensors) : Prop :=
  let ks := selectedSlots s.dev hdr.slots
  ∀ k ∈ ks, ∃ i ∈ upTo (closeFails world s.calls) ks,
    off (world.power s.calls i false) = true ∧ (s.dev.slots i).rail = (s.dev.slots k).rail

def Undone (s : Kernel Sensors) : PowerRequest → Prop
  | .open' => ∀ before j after, selectedSlots s.dev hdr.slots.reverse = before ++ j :: after →
      (∀ k ∈ before, openFails world s.calls k = false) → openFails world s.calls j = true →
      UndoneAt world off s before j
  | .close => ClosesAll hdr world off s

end Requests

/-! ## One open -/

section Open

variable {hdr : CameraHeader} {world : World} {stale : Stale StackVar} {off : BitVec 32 → Bool}
  {s : Kernel Sensors}

theorem open_step (hdr : CameraHeader) (world : World) (stale : Stale StackVar)
    (s : Kernel Sensors) :
    (cameraPower hdr world stale).step s .open' =
      some ({ s with
          dev := (kdMultiSensorOpen hdr.toSensorHeader world s.calls s.dev).2
          calls := s.calls + 1 },
        eioOf (kdMultiSensorOpen hdr.toSensorHeader world s.calls s.dev).1) := rfl

theorem eioOf_eq_zero {err : BitVec 32} : eioOf err = 0 ↔ err = errorNone := by
  unfold eioOf
  split
  · rename_i h
    exact iff_of_false (by decide) h
  · rename_i h
    exact iff_of_true rfl (not_not.mp h)

/-- The slots before the failing one have power. -/
theorem flatMap_openCalls {call j : Nat} {before : List Nat}
    (h : ∀ k ∈ before, openFails world call k = false) :
    (before ++ [j]).flatMap (openCalls world call) =
      (before.map fun k => { slot := k, on := true, ret := errorNone }) ++
        openCalls world call j := by
  induction before with
  | nil => simp
  | cons k before ih =>
    have hk : world.power call k true = errorNone ∧ (world.sensor call k).ret = errorNone := by
      simpa [openFails] using h k List.mem_cons_self
    have hcalls : openCalls world call k = [{ slot := k, on := true, ret := errorNone }] := by
      simp [openCalls, hk.1, hk.2]
    rw [List.cons_append, List.flatMap_cons, hcalls,
      ih fun i hi => h i (List.mem_cons_of_mem _ hi)]
    rfl

/-- The sensors that have power when the walk gets to `j`. -/
def hotBefore (off : BitVec 32 → Bool) (s : Kernel Sensors) (before : List Nat) : Rail → Bool :=
  powered off s.dev.slots (before.map fun k => { slot := k, on := true, ret := errorNone })
    (hot off s)

/-- What has power after the open that fails at `j`. -/
theorem hot_failed {before after : List Nat} {j : Nat}
    (hsplit : selectedSlots s.dev hdr.slots.reverse = before ++ j :: after)
    (hbefore : ∀ k ∈ before, openFails world s.calls k = false)
    (hj : openFails world s.calls j = true) (r : Rail) :
    powered off s.dev.slots (kdMultiSensorOpen hdr.toSensorHeader world s.calls s.dev).2.power
        (fun _ => false) r =
      powered off s.dev.slots (openCalls world s.calls j) (hotBefore off s before) r := by
  have hcalls := (multiSensorOpen_calls hdr.toSensorHeader world s.calls s.dev).1
  rw [hsplit, upTo_split _ hbefore hj, flatMap_openCalls hbefore] at hcalls
  rw [hcalls, powered_append, powered_append]
  rfl

theorem hotBefore_iff {before : List Nat} {r : Rail} :
    hotBefore off s before r = true ↔
      hot off s r = true ∨ ∃ k ∈ before, (s.dev.slots k).rail = r :=
  powered_ons off s.dev.slots before (hot off s) r

/-- Without power at `j` nothing is taken back. -/
theorem undoneAt_iff_noPower {before : List Nat} {j : Nat}
    (hpower : world.power s.calls j true ≠ errorNone) :
    (∀ r, powered off s.dev.slots (openCalls world s.calls j) (hotBefore off s before) r = false) ↔
      UndoneAt world off s before j := by
  have hcalls : powered off s.dev.slots (openCalls world s.calls j) (hotBefore off s before) =
      hotBefore off s before := by
    simp [openCalls, hpower, powered, PowerCall.effect]
  rw [UndoneAt, if_pos hpower, hcalls]
  simp only [← Bool.not_eq_true, hotBefore_iff, not_or]
  constructor
  · intro h
    refine ⟨?_, fun r => (h r).1⟩
    cases before with
    | nil => rfl
    | cons k before => exact absurd ⟨k, List.mem_cons_self, rfl⟩ (h (s.dev.slots k).rail).2
  · intro h r
    obtain ⟨rfl, hhot⟩ := h
    exact ⟨hhot r, by simp⟩

/-- A driver that does not open has its own power taken back. -/
theorem powered_noSensor {before : List Nat} {j : Nat}
    (hpower : world.power s.calls j true = errorNone)
    (hsensor : (world.sensor s.calls j).ret ≠ errorNone) (r : Rail) :
    powered off s.dev.slots (openCalls world s.calls j) (hotBefore off s before) r = true ↔
      (r = (s.dev.slots j).rail ∨ hotBefore off s before r = true) ∧
        (off (world.power s.calls j false) = true → (s.dev.slots j).rail ≠ r) := by
  have hcalls : powered off s.dev.slots (openCalls world s.calls j) (hotBefore off s before) =
      powered off s.dev.slots
        ([j].map fun k => { slot := k, on := false, ret := world.power s.calls k false })
        (Function.update (hotBefore off s before) (s.dev.slots j).rail true) := by
    simp [openCalls, hpower, hsensor, powered, PowerCall.effect]
  have hoff := powered_offs off s.dev.slots (fun k => world.power s.calls k false) [j]
    (Function.update (hotBefore off s before) (s.dev.slots j).rail true) r
  rw [hcalls, hoff, List.forall_mem_singleton]
  by_cases hr : r = (s.dev.slots j).rail
  · simp [hr]
  · rw [Function.update_of_ne hr]
    simp [hr]

theorem undoneAt_iff_noSensor {before : List Nat} {j : Nat}
    (hpower : world.power s.calls j true = errorNone)
    (hsensor : (world.sensor s.calls j).ret ≠ errorNone) :
    (∀ r, powered off s.dev.slots (openCalls world s.calls j) (hotBefore off s before) r = false) ↔
      UndoneAt world off s before j := by
  rw [UndoneAt, if_neg (not_not.mpr hpower)]
  simp only [← Bool.not_eq_true, powered_noSensor hpower hsensor, not_and]
  constructor
  · intro h
    have htaken : off (world.power s.calls j false) = true := by
      by_contra hkept
      exact h _ (Or.inl rfl) fun hoff => absurd hoff hkept
    have hother : ∀ r, hotBefore off s before r = true → r = (s.dev.slots j).rail := by
      intro r hon
      by_contra hne
      exact h r (Or.inr hon) fun _ => Ne.symm hne
    exact ⟨htaken, fun k hk => hother _ (hotBefore_iff.mpr (Or.inr ⟨k, hk, rfl⟩)),
      fun r hr => hother r (hotBefore_iff.mpr (Or.inl hr))⟩
  · intro h r hon hkept
    obtain ⟨htaken, hsame, hhot⟩ := h
    have hne : (s.dev.slots j).rail ≠ r := hkept htaken
    rcases hon with hr | hon
    · exact hne hr.symm
    · rcases hotBefore_iff.mp hon with hr | ⟨k, hk, hrail⟩
      · exact hne (hhot r hr).symm
      · exact hne ((hsame k hk).symm.trans hrail)

/-- The open that fails at `j` leaves nothing exactly when it undoes what has power. -/
theorem undoneAt_iff {before : List Nat} {j : Nat} (hj : openFails world s.calls j = true) :
    (∀ r, powered off s.dev.slots (openCalls world s.calls j) (hotBefore off s before) r = false) ↔
      UndoneAt world off s before j := by
  by_cases hpower : world.power s.calls j true = errorNone
  · have hsensor : (world.sensor s.calls j).ret ≠ errorNone := by
      simpa [openFails, hpower] using hj
    exact undoneAt_iff_noSensor hpower hsensor
  · exact undoneAt_iff_noPower hpower

theorem balanced_open_iff :
    PowerBalanced hdr world stale off s .open' ↔ Undone hdr world off s .open' := by
  obtain ⟨hpower, hslots, -, hret⟩ := multiSensorOpen_calls hdr.toSensorHeader world s.calls s.dev
  have hhot : ∀ r, hot off { s with
      dev := (kdMultiSensorOpen hdr.toSensorHeader world s.calls s.dev).2
      calls := s.calls + 1 } r =
        powered off s.dev.slots
          (kdMultiSensorOpen hdr.toSensorHeader world s.calls s.dev).2.power
          (fun _ => false) r := by
    intro r
    show powered off (kdMultiSensorOpen hdr.toSensorHeader world s.calls s.dev).2.slots _ _ r = _
    rw [hslots]
  constructor
  · intro h before j after hsplit hbefore hj
    have hfailed : eioOf (kdMultiSensorOpen hdr.toSensorHeader world s.calls s.dev).1 ≠ 0 := by
      rw [ne_eq, eioOf_eq_zero, hret]
      intro hall
      rw [hsplit] at hall
      rw [hall j (by simp)] at hj
      cases hj
    have hnone := (h _ _ (open_step hdr world stale s)).1 rfl hfailed
    refine (undoneAt_iff hj).mp fun r => ?_
    rw [← hot_failed hsplit hbefore hj, ← hhot]
    exact hnone r
  · intro h t ret hstep
    rw [open_step, Option.some.injEq, Prod.mk.injEq] at hstep
    obtain ⟨rfl, rfl⟩ := hstep
    refine ⟨fun _ hfailed r => ?_, fun hclose => by cases hclose⟩
    rw [ne_eq, eioOf_eq_zero, hret] at hfailed
    rcases all_or_first (openFails world s.calls) (selectedSlots s.dev hdr.slots.reverse) with
      hall | ⟨before, j, after, hsplit, hbefore, hj⟩
    · exact absurd hall hfailed
    · rw [hhot, hot_failed hsplit hbefore hj]
      exact (undoneAt_iff hj).mpr (h before j after hsplit hbefore hj) r

end Open

/-! ## One close -/

section Close

variable {hdr : CameraHeader} {world : World} {stale : Stale StackVar} {off : BitVec 32 → Bool}
  {s t : Kernel Sensors} {ret : Int}

/-- The power calls of a close, and what it keeps. -/
theorem close_step (h : (cameraPower hdr world stale).step s .close = some (t, ret)) :
    t.dev.power = s.dev.power ++
        (upTo (closeFails world s.calls) (selectedSlots s.dev hdr.slots)).map
          (closeCall world s.calls) ∧
      t.dev.slots = s.dev.slots ∧ t.dev.currentSensorIdx = s.dev.currentSensorIdx := by
  obtain ⟨hpower, hslots, hidx, -⟩ := multiSensorClose_calls hdr.toSensorHeader world s.calls s.dev
  simp only [cameraPower, Option.some.injEq, Prod.mk.injEq] at h
  rw [← h.1]
  exact ⟨hpower, hslots, hidx⟩

/-- Power belongs to selected sensors. -/
def HotSelected (hdr : CameraHeader) (off : BitVec 32 → Bool) (s : Kernel Sensors) : Prop :=
  ∀ r, hot off s r = true → ∃ k ∈ selectedSlots s.dev hdr.slots, (s.dev.slots k).rail = r

/-- What has power after a close. -/
theorem hot_closed (h : (cameraPower hdr world stale).step s .close = some (t, ret)) (r : Rail) :
    hot off t r = true ↔ hot off s r = true ∧
      ∀ i ∈ upTo (closeFails world s.calls) (selectedSlots s.dev hdr.slots),
        off (world.power s.calls i false) = true → (s.dev.slots i).rail ≠ r := by
  obtain ⟨hpower, hslots, -⟩ := close_step h
  rw [hot, hpower, hslots, powered_append]
  exact powered_offs off s.dev.slots (fun k => world.power s.calls k false) _ _ r

theorem balanced_close_iff (hs : HotSelected hdr off s) :
    PowerBalanced hdr world stale off s .close ↔ Undone hdr world off s .close := by
  constructor
  · intro h k hk
    obtain ⟨hcalls, -⟩ := (h _ _ rfl).2 rfl
    obtain ⟨c, hc, -, hoff, hrail⟩ := hcalls k hk
    rw [(close_step rfl).1, List.drop_left] at hc
    obtain ⟨i, hi, rfl⟩ := List.mem_map.mp hc
    exact ⟨i, hi, hoff, hrail⟩
  · intro h t ret hstep
    refine ⟨by simp, fun _ => ⟨fun k hk => ?_, fun r => ?_⟩⟩
    · obtain ⟨i, hi, hoff, hrail⟩ := h k hk
      rw [(close_step hstep).1, List.drop_left]
      exact ⟨closeCall world s.calls i, List.mem_map.mpr ⟨i, hi, rfl⟩, rfl, hoff, hrail⟩
    · rw [← Bool.not_eq_true, hot_closed hstep]
      intro hhot
      obtain ⟨k, hk, rfl⟩ := hs r hhot.1
      obtain ⟨i, hi, hoff, hrail⟩ := h k hk
      exact hhot.2 i hi hoff hrail

end Close

/-! ## Runs -/

section Runs

variable {hdr : CameraHeader} {world : World} {stale : Stale StackVar} {off : BitVec 32 → Bool}
  {s t : Kernel Sensors} {a : PowerRequest} {ret : Int}

theorem selectedSlots_congr {cam cam' : Sensors} (hslots : cam'.slots = cam.slots)
    (hidx : cam'.currentSensorIdx = cam.currentSensorIdx) (is : List Nat) :
    selectedSlots cam' is = selectedSlots cam is := by
  rw [selectedSlots, selectedSlots, hslots, hidx]

theorem mem_selectedSlots_reverse {cam : Sensors} {is : List Nat} {k : Nat} :
    k ∈ selectedSlots cam is.reverse ↔ k ∈ selectedSlots cam is := by
  simp [selectedSlots]

theorem openCalls_slot {call i : Nat} {c : PowerCall} (h : c ∈ openCalls world call i) :
    c.slot = i := by
  unfold openCalls at h
  split at h
  · rcases List.mem_cons.mp h with rfl | h
    · rfl
    · rw [List.mem_singleton.mp h]
  · rw [List.mem_singleton.mp h]

/-- Requests give power to selected sensors only. -/
theorem hotSelected_step (hs : HotSelected hdr off s)
    (h : (cameraPower hdr world stale).step s a = some (t, ret)) : HotSelected hdr off t := by
  cases a with
  | open' =>
    obtain ⟨hpower, hslots, hidx, -⟩ :=
      multiSensorOpen_calls hdr.toSensorHeader world s.calls s.dev
    rw [open_step, Option.some.injEq, Prod.mk.injEq] at h
    obtain ⟨rfl, -⟩ := h
    intro r hr
    have hsel := selectedSlots_congr hslots hidx hdr.slots
    simp only [hot, hslots, hpower, powered_append] at hr
    simp only [hsel, hslots]
    rcases powered_named off s.dev.slots hr with hold | ⟨c, hc, hrail⟩
    · exact hs r hold
    · obtain ⟨k, hk, hck⟩ := List.mem_flatMap.mp hc
      have hmem := mem_selectedSlots_reverse.mp (mem_of_mem_upTo _ hk)
      exact ⟨k, hmem, by rw [← openCalls_slot hck, hrail]⟩
  | close =>
    obtain ⟨-, hslots, hidx⟩ := close_step h
    intro r hr
    rw [selectedSlots_congr hslots hidx, hslots]
    exact hs r ((hot_closed h r).mp hr).1

/-- The state with an empty log: no sensor has power. -/
def unpowered (s : Kernel Sensors) : Kernel Sensors := { s with dev := { s.dev with power := [] } }

/-- In every sequence of requests, no sensor keeps its power after a failed open or a
close exactly when each open that fails undoes what has power and each close gets to
every selected sensor. -/
theorem power_balanced_iff (hdr : CameraHeader) (world : World) (stale : Stale StackVar)
    (off : BitVec 32 → Bool) (s : Kernel Sensors) (as : List PowerRequest) :
    (cameraPower hdr world stale).AllSteps (PowerBalanced hdr world stale off) (unpowered s) as ↔
      (cameraPower hdr world stale).AllSteps (Undone hdr world off) (unpowered s) as := by
  refine Machine.allSteps_iff_of_invariant (I := HotSelected hdr off) (fun s a hs => ?_)
    (fun _ _ _ _ hs _ hstep => hotSelected_step hs hstep) (fun r hr => by cases hr) as
  cases a with
  | open' => exact balanced_open_iff
  | close => exact balanced_close_iff hs

end Runs

/-- Two sensors, in sockets 1 and 2, both selected. -/
def twoSensors : Sensors :=
  { bootSensors with
    slots := fun i =>
      { bEnableDriver := true, pInvokeSensorFunc := some 0,
        invokeSocketIdx := BitVec.ofNat 32 (i + 1), invokeSensorNameStr := "imx" }
    currentSensorIdx := 3 }

/-- The driver in slot 0 does not open. -/
def secondFails : World :=
  { quietWorld with sensor := fun _ i => { ret := if i = 0 then 1 else errorNone } }

/-- The sensor in slot 1 keeps its power. -/
theorem sensor_left_powered :
    ¬ (cameraPower resolutionHeader secondFails (staleOf 0)).AllSteps
      (PowerBalanced resolutionHeader secondFails (staleOf 0) fun _ => true)
      (unpowered { dev := twoSensors }) [.open'] := by
  intro h
  have hnone := (h.1 _ _ rfl).1 rfl (by decide) (2, "imx")
  exact absurd hnone (by decide)

end Camera
end AtomDrivers
