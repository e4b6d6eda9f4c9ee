/-
The list of the cameras in use.

`adopt_CAMERA_HW_CheckIsAlive` asks the sensors for their ids, slot by slot, and adds
the cameras it finds to `cameralist_using`, up to two.  One variable receives the
ids of all sensors, a camera found again is added again, the label is the one of the
first slot, and a slot's socket may be answered by the sensor of another slot.  What the
list should hold is told by the sensors' own answers, whichever slot they were asked
for: the first two different cameras that were detected, in this order.
-/
import AtomDrivers.Camera.StaleBytes
import AtomDrivers.Machine.Run

namespace AtomDrivers
namespace Camera

open Linux Routine

/-- A camera is known by its socket and the name of its driver. -/
structure FoundCamera where
  socket : BitVec 32
  drvname : String
  deriving DecidableEq, Repr

def labelOf (socket : BitVec 32) : String :=
  if socket = 0x02 then "(front)" else if socket = 0x01 then "(back)" else ""

/-- What `cameralist_using` says of one camera. -/
structure CameraItem where
  drvname : String
  label : String
  deriving DecidableEq, Repr

def CameraItem.text (entry : CameraItem) : String := entry.drvname ++ entry.label ++ "\t"

namespace FoundCamera

def entry (camera : FoundCamera) : CameraItem where
  drvname := camera.drvname
  label := labelOf camera.socket

/-- The first two different cameras. -/
def firstTwo (detected : List FoundCamera) : List FoundCamera :=
  detected.eraseDups.take numOfCameras

def listing (detected : List FoundCamera) : String :=
  String.join ((firstTwo detected).map fun camera => camera.entry.text)

/-- The cameras of `found` that are new and have a place among the first two. -/
def fitting (detected found : List FoundCamera) : List FoundCamera :=
  (found.removeAll detected).eraseDups.take (numOfCameras - detected.eraseDups.length)

theorem firstTwo_append (detected found : List FoundCamera) :
    firstTwo (detected ++ found) = firstTwo detected ++ fitting detected found := by
  rw [firstTwo, List.eraseDups_append, List.take_append]
  rfl

theorem listing_append (detected found : List FoundCamera) :
    listing (detected ++ found) =
      listing detected ++
        String.join ((fitting detected found).map fun camera => camera.entry.text) := by
  rw [listing, firstTwo_append, List.map_append, String.join_append]
  rfl

/-- Behind two different cameras no other has a place. -/
theorem fitting_full {detected : List FoundCamera} (h : numOfCameras ≤ detected.eraseDups.length)
    (found : List FoundCamera) : fitting detected found = [] := by
  rw [fitting, Nat.sub_eq_zero_of_le h, List.take_zero]

theorem mem_of_mem_fitting {camera : FoundCamera} {detected found : List FoundCamera}
    (h : camera ∈ fitting detected found) : camera ∈ found := by
  have hmem := List.mem_eraseDups.mp (List.mem_of_mem_take h)
  exact List.mem_of_mem_filter hmem

end FoundCamera

def Slot.camera (slot : Slot) : FoundCamera :=
  { socket := slot.invokeSocketIdx, drvname := slot.invokeSensorNameStr }

section Search

variable (hdr : CameraHeader) (world : World)

/-! ## What the sensors answer -/

/-- A slot whose sensor was asked, and the answer. -/
structure Answer where
  slot : Nat
  result : SensorResult

def validId (id : BitVec 32) : Bool := id ≠ 0 && id ≠ 0xFFFFFFFF

/-- The id that the sensors stored last, byte for byte. -/
def lastId (answers : List Answer) : BitVec 32 :=
  (answers.foldl (fun id answer => id.patch answer.result.para) Bytes.zero).u32 0

/-- The id in a sensor's own answer. -/
def Answer.id (answer : Answer) : BitVec 32 := lastId [answer]

/-- The cameras whose own sensors answered with an id. -/
def detectedIn (slots : Nat → Slot) (answers : List Answer) : List FoundCamera :=
  (answers.filter fun answer => validId answer.id).map fun answer => (slots answer.slot).camera

/-- The shared `sensorID` and length. -/
def sharedPara (sensorID : Bytes) (retLen : BitVec 32) : FeaturePara :=
  { para := sensorID, aux := fun _ => Bytes.zero, len := retLen }

/-- What a sensor is asked with, behind the answers of a search. -/
def paraAfter (answers : List Answer) : FeaturePara :=
  sharedPara (answers.foldl (fun id answer => id.patch answer.result.para) Bytes.zero)
    (answers.foldl (fun len answer => answer.result.featureParaLen.getD len) 0)

section Answers

variable (slots : Nat → Slot)

/-- The answers to a request for a socket: of all sensors in it, up to the first error. -/
def answersTo (call : Nat) (socket : BitVec 32) : List Nat → FeaturePara → List Answer
  | [], _ => []
  | j :: js, p =>
    if (slots j).active ∧ socket = (slots j).invokeSocketIdx then
      let result := world.feature call j p
      { slot := j, result } ::
        if result.ret ≠ errorNone then [] else answersTo call socket js (p.answer result)
    else answersTo call socket js p

/-- The answers to the request for slot `i`, behind those to earlier requests. -/
def answersFor (call : Nat) (i : Nat) (heard : List Answer) : List Answer :=
  answersTo world slots call (slots i).invokeSocketIdx hdr.slots (paraAfter heard)

/-- The cameras that a search detects, whichever slot their sensors are asked for. -/
def detections : List Nat → Nat → List Answer → List FoundCamera
  | [], _, _ => []
  | i :: is, call, heard =>
    if (slots i).invokeSocketIdx = hdr.dualCameraNoneSensor then detections is call heard
    else
      let answers := answersFor hdr world slots call i heard
      detectedIn slots answers ++ detections is (call + 1) (heard ++ answers)

end Answers

theorem mem_answersTo {slots : Nat → Slot} {call : Nat} {socket : BitVec 32} {answer : Answer}
    {js : List Nat} {p : FeaturePara} (h : answer ∈ answersTo world slots call socket js p) :
    (slots answer.slot).invokeSocketIdx = socket := by
  induction js generalizing p with
  | nil => cases h
  | cons j js ih =>
    rw [answersTo] at h
    split at h
    · next hasked =>
      rcases List.mem_cons.mp h with rfl | h
      · exact hasked.2.symm
      · split at h
        · cases h
        · exact ih h
    · exact ih h

/-- What a walk leaves in the parameters is what the answers stored. -/
theorem overSlots_answers (slots : Nat → Slot) (call : Nat) (socket : BitVec 32) (js : List Nat)
    (p : FeaturePara) :
    (overSlots slots (fun slot => socket = slot.invokeSocketIdx)
      (fun j p => ((world.feature call j p).ret, p.answer (world.feature call j p))) js p).2 =
    (answersTo world slots call socket js p).foldl (fun p answer => p.answer answer.result) p := by
  induction js generalizing p with
  | nil => rfl
  | cons j js ih =>
    by_cases hasked : (slots j).active ∧ socket = (slots j).invokeSocketIdx
    · have hselected : (slots j).active = true ∧
          decide (socket = (slots j).invokeSocketIdx) = true := by simpa using hasked
      simp only [overSlots, answersTo, if_pos hasked, if_pos hselected]
      by_cases hfail : (world.feature call j p).ret ≠ errorNone
      · rw [if_pos hfail, if_pos hfail]
        rfl
      · rw [if_neg hfail, if_neg hfail]
        exact ih _
    · have hselected : ¬ ((slots j).active = true ∧
          decide (socket = (slots j).invokeSocketIdx) = true) := by simpa using hasked
      simp only [overSlots, answersTo, if_neg hasked, if_neg hselected]
      exact ih p

theorem foldl_answer (answers : List Answer) (p : FeaturePara) :
    (answers.foldl (fun p answer => p.answer answer.result) p).para =
        answers.foldl (fun id answer => id.patch answer.result.para) p.para ∧
      (answers.foldl (fun p answer => p.answer answer.result) p).len =
        answers.foldl (fun len answer => answer.result.featureParaLen.getD len) p.len := by
  induction answers generalizing p with
  | nil => exact ⟨rfl, rfl⟩
  | cons answer answers ih => exact ih (p.answer answer.result)

/-! ## The walks of a search -/

/-- The list and the count are those of the cameras. -/
structure Listed (cam : Sensors) (detected : List FoundCamera) : Prop where
  list : cam.cameralistUsing = FoundCamera.listing detected
  count : cam.foundCameraNum = (FoundCamera.firstTwo detected).length

/-- What a search looks at besides the answers. -/
structure SameSearch (cam cam' : Sensors) : Prop where
  slots : cam'.slots = cam.slots
  list : cam'.cameralistUsing = cam.cameralistUsing
  count : cam'.foundCameraNum = cam.foundCameraNum

theorem sameSearch_refl (cam : Sensors) : SameSearch cam cam := ⟨rfl, rfl, rfl⟩

theorem SameSearch.trans {cam cam' cam'' : Sensors} (h : SameSearch cam cam')
    (h' : SameSearch cam' cam'') : SameSearch cam cam'' :=
  ⟨h'.slots.trans h.slots, h'.list.trans h.list, h'.count.trans h.count⟩

theorem SameSearch.listed {cam cam' : Sensors} (h : SameSearch cam cam')
    {detected : List FoundCamera} (hcam : Listed cam detected) : Listed cam' detected :=
  ⟨h.list.trans hcam.list, h.count.trans hcam.count⟩

theorem sameSearch_powerOn (on : Bool) (call : Nat) (cam : Sensors) :
    SameSearch cam (kdModulePowerOn hdr.toSensorHeader world on call cam).2 := by
  unfold kdModulePowerOn
  suffices hgo : ∀ (is : List Nat) (cam : Sensors),
      SameSearch cam (kdModulePowerOn.go world on call is cam).2 from hgo _ cam
  intro is
  induction is with
  | nil => exact sameSearch_refl
  | cons i is ih =>
    intro cam
    have hone : SameSearch cam (powerOn world call i on cam).2 := ⟨rfl, rfl, rfl⟩
    unfold kdModulePowerOn.go
    split
    · simp only
      split
      · exact hone
      · exact hone.trans (ih _)
    · exact ih cam

theorem sameSearch_close (call : Nat) (cam : Sensors) :
    SameSearch cam (kdMultiSensorClose hdr.toSensorHeader world call cam).2 :=
  overSlots_keeps (I := SameSearch cam) (fun _ _ h => h.trans ⟨rfl, rfl, rfl⟩) hdr.slots
    (sameSearch_refl cam)

theorem sameSearch_featureControl (invokeCamera : BitVec 32) (p : FeaturePara) (call : Nat)
    (cam : Sensors) :
    SameSearch cam
      (kdMultiSensorFeatureControl hdr.toSensorHeader world invokeCamera p call cam).2 :=
  overSlots_keeps (I := fun a : FeaturePara × Sensors => SameSearch cam a.2)
    (fun _ _ h => h.trans ⟨rfl, rfl, rfl⟩) hdr.slots (sameSearch_refl cam)

/-- The request for slot `i` leaves what all answers so far have stored. -/
theorem featureControl_left (call i : Nat) (heard : List Answer) (cam : Sensors) :
    let r := kdMultiSensorFeatureControl hdr.toSensorHeader world (cam.slots i).invokeSocketIdx
      (paraAfter heard) call cam
    let answers := heard ++ answersFor hdr world cam.slots call i heard
    r.1.2.para = (paraAfter answers).para ∧ r.1.2.len = (paraAfter answers).len := by
  have hpart := overSlots_map cam.slots
    (fun slot => (cam.slots i).invokeSocketIdx = slot.invokeSocketIdx)
    (fun i (a : FeaturePara × Sensors) =>
      ((world.feature call i a.1).ret, a.1.answer (world.feature call i a.1),
        { a.2 with i2cBusNum := i2cBusOf hdr.toSensorHeader (cam.slots i).invokeSocketIdx }))
    (fun j p => ((world.feature call j p).ret, p.answer (world.feature call j p)))
    Prod.fst (fun _ _ => rfl) hdr.slots (paraAfter heard, cam)
  have hleft := (congrArg Prod.snd hpart).symm.trans
    (overSlots_answers world cam.slots call (cam.slots i).invokeSocketIdx hdr.slots
      (paraAfter heard))
  obtain ⟨hpara, hlen⟩ := foldl_answer (answersFor hdr world cam.slots call i heard)
    (paraAfter heard)
  constructor
  · refine (congrArg FeaturePara.para hleft).trans (hpara.trans ?_)
    simp only [paraAfter, sharedPara, List.foldl_append]
  · refine (congrArg FeaturePara.len hleft).trans (hlen.trans ?_)
    simp only [paraAfter, sharedPara, List.foldl_append]

/-! ## One search -/

/-- The entry that the code would add for slot `i`. -/
def entryFor (slots : Nat → Slot) (i : Nat) : CameraItem where
  drvname := (slots i).invokeSensorNameStr
  label := labelOf (slots 0).invokeSocketIdx

/-- What the sensors say at slot `i`.  `id` is the id stored last, and `fitting` are the
new cameras that answered the request for this slot. -/
structure FairSlot (slots : Nat → Slot) (i : Nat) (id : BitVec 32)
    (fitting : List FoundCamera) : Prop where
  none : fitting = [] → validId id = false
  some : fitting ≠ [] → validId id = true
  own : fitting ≠ [] → fitting = [(slots i).camera]
  label : fitting ≠ [] →
    labelOf (slots 0).invokeSocketIdx = labelOf (slots i).invokeSocketIdx

/-- At a slot the code adds the entries of the cameras that fit, exactly if the slot is
fair. -/
theorem fairSlot_iff {slots : Nat → Slot} {i : Nat} {id : BitVec 32} {fitting : List FoundCamera}
    (hsocket : ∀ camera ∈ fitting, camera.socket = (slots i).invokeSocketIdx) :
    FairSlot slots i id fitting ↔
      (if validId id then [entryFor slots i] else []) = fitting.map FoundCamera.entry := by
  cases fitting with
  | nil =>
    constructor
    · intro h
      rw [h.none rfl]
      rfl
    · intro h
      refine ⟨fun _ => ?_, fun hne => absurd rfl hne, fun hne => absurd rfl hne,
        fun hne => absurd rfl hne⟩
      cases hvalid : validId id with
      | false => rfl
      | true =>
        rw [hvalid] at h
        cases h
  | cons camera rest =>
    have hcamera := hsocket camera List.mem_cons_self
    constructor
    · intro h
      have hne : camera :: rest ≠ [] := List.cons_ne_nil _ _
      rw [h.own hne, h.some hne, if_pos rfl]
      simp only [List.map_cons, List.map_nil, entryFor, FoundCamera.entry, Slot.camera,
        h.label hne]
    · intro h
      cases hvalid : validId id with
      | false =>
        rw [hvalid] at h
        cases h
      | true =>
        rw [hvalid, if_pos rfl, List.map_cons] at h
        obtain ⟨hentry, hrest⟩ := List.cons.inj h
        have hnil : rest = [] := List.map_eq_nil_iff.mp hrest.symm
        simp only [entryFor, FoundCamera.entry, CameraItem.mk.injEq, hcamera] at hentry
        refine ⟨fun hnil => absurd hnil (List.cons_ne_nil _ _), fun _ => hvalid, fun _ => ?_,
          fun _ => hentry.2⟩
        rw [hnil, Slot.camera, hentry.1, ← hcamera]

/-- Every slot that is reached while less than two cameras are detected is fair. -/
def SlotsFair (slots : Nat → Slot) :
    List Nat → Nat → List Answer → List FoundCamera → Prop
  | [], _, _, _ => True
  | i :: is, call, heard, detected =>
    if (slots i).invokeSocketIdx = hdr.dualCameraNoneSensor then
      SlotsFair slots is call heard detected
    else
      let answers := answersFor hdr world slots call i heard
      let found := detectedIn slots answers
      (detected.eraseDups.length < numOfCameras →
        FairSlot slots i (lastId (heard ++ answers)) (FoundCamera.fitting detected found)) ∧
      SlotsFair slots is (call + 1) (heard ++ answers) (detected ++ found)

theorem recordCamera_slots (i : Nat) (cam : Sensors) : (recordCamera i cam).slots = cam.slots := by
  unfold recordCamera
  split <;> rfl

section Full

variable {cam : Sensors} {detected : List FoundCamera} (h : Listed cam detected)
include h

theorem Listed.count_lt_iff : cam.foundCameraNum < numOfCameras ↔
    detected.eraseDups.length < numOfCameras := by
  rw [h.count, FoundCamera.firstTwo, List.length_take]
  omega

/-- No place is left, or the slot is fair. -/
theorem listed_record {i : Nat} {id : BitVec 32} {found : List FoundCamera}
    (hsocket : ∀ camera ∈ found, camera.socket = (cam.slots i).invokeSocketIdx)
    (hfair : detected.eraseDups.length < numOfCameras →
      FairSlot cam.slots i id (FoundCamera.fitting detected found)) :
    Listed (if validId id then recordCamera i cam else cam) (detected ++ found) := by
  by_cases hroom : detected.eraseDups.length < numOfCameras
  · have hcount := h.count_lt_iff.mpr hroom
    have hentries := (fairSlot_iff fun camera hcamera =>
      hsocket camera (FoundCamera.mem_of_mem_fitting hcamera)).mp (hfair hroom)
    have htexts := congrArg (fun entries => String.join (entries.map CameraItem.text)) hentries
    have hlength := congrArg List.length hentries
    simp only [List.map_map, List.length_map] at htexts hlength
    refine ⟨?_, ?_⟩
    · rw [FoundCamera.listing_append, ← h.list]
      refine Eq.trans ?_ (congrArg (cam.cameralistUsing ++ ·) htexts)
      cases validId id with
      | false => simp
      | true =>
        simp [recordCamera, hcount, entryFor, CameraItem.text, labelOf, String.append_assoc]
    · rw [FoundCamera.firstTwo_append, List.length_append, ← h.count, ← hlength]
      cases validId id with
      | false => rfl
      | true => simp [recordCamera, hcount]
  · have hcount : ¬ cam.foundCameraNum < numOfCameras := mt h.count_lt_iff.mp hroom
    have hsame : (if validId id then recordCamera i cam else cam) = cam := by
      rw [recordCamera, if_neg hcount, ite_self]
    have hfull := FoundCamera.fitting_full (Nat.le_of_not_lt hroom) found
    rw [hsame]
    refine ⟨?_, ?_⟩
    · rw [FoundCamera.listing_append, hfull, ← h.list]
      simp
    · rw [FoundCamera.firstTwo_append, hfull, List.append_nil, h.count]

end Full

theorem searchSensors_none {i : Nat} {s : Kernel Sensors}
    (h : (s.dev.slots i).invokeSocketIdx = hdr.dualCameraNoneSensor) (sensorID : Bytes)
    (retLen err : BitVec 32) (is : List Nat) (stale : Stale StackVar) :
    searchSensors hdr world sensorID retLen err (i :: is) stale s =
      searchSensors hdr world sensorID retLen err is stale s := by
  show (if (s.dev.slots i).invokeSocketIdx = hdr.dualCameraNoneSensor then _ else _ :
    SensorM (BitVec 32)) stale s = _
  rw [if_pos h]

/-- The state behind the walk for slot `i`. -/
def askedSlot (s : Kernel Sensors) (i : Nat) (heard : List Answer) : Kernel Sensors :=
  { s with
    dev := (kdMultiSensorFeatureControl hdr.toSensorHeader world (s.dev.slots i).invokeSocketIdx
      (paraAfter heard) s.calls s.dev).2
    calls := s.calls + 1 }

/-- The state behind a slot with a socket. -/
def searchedSlot (s : Kernel Sensors) (i : Nat) (heard : List Answer) : Kernel Sensors :=
  let asked := askedSlot hdr world s i heard
  let id := lastId (heard ++ answersFor hdr world s.dev.slots s.calls i heard)
  { asked with dev := if validId id then recordCamera i asked.dev else asked.dev }

theorem searchSensors_some {i : Nat} {s : Kernel Sensors}
    (h : (s.dev.slots i).invokeSocketIdx ≠ hdr.dualCameraNoneSensor) (heard : List Answer)
    (err : BitVec 32) (is : List Nat) (stale : Stale StackVar) :
    let p := paraAfter heard
    let p' := paraAfter (heard ++ answersFor hdr world s.dev.slots s.calls i heard)
    ∃ err', searchSensors hdr world p.para p.len err (i :: is) stale s =
      searchSensors hdr world p'.para p'.len err' is stale (searchedSlot hdr world s i heard) := by
  intro p p'
  obtain ⟨hpara, hlen⟩ := featureControl_left hdr world s.calls i heard s.dev
  have hstep : searchSensors hdr world p.para p.len err (i :: is) stale s =
      (if p'.para.u32 0 = 0 ∨ p'.para.u32 0 = 0xFFFFFFFF then
        searchSensors hdr world p'.para p'.len hdr.errorSensorConnectFail is
      else do
        setSensors (recordCamera i)
        searchSensors hdr world p'.para p'.len errorNone is : SensorM (BitVec 32)) stale
        (askedSlot hdr world s i heard) := by
    show (if (s.dev.slots i).invokeSocketIdx = hdr.dualCameraNoneSensor then _ else _ :
      SensorM (BitVec 32)) stale s = _
    rw [if_neg h]
    simp only [p', ← hpara, ← hlen]
    rfl
  have hlast : lastId (heard ++ answersFor hdr world s.dev.slots s.calls i heard) =
    p'.para.u32 0 := rfl
  rw [hstep, searchedSlot, hlast]
  by_cases hid : p'.para.u32 0 = 0 ∨ p'.para.u32 0 = 0xFFFFFFFF
  · have hvalid : validId (p'.para.u32 0) = false := by
      rcases hid with hid | hid <;> simp [validId, hid]
    rw [if_pos hid, hvalid]
    exact ⟨hdr.errorSensorConnectFail, rfl⟩
  · have hvalid : validId (p'.para.u32 0) = true := by
      simpa [validId, not_or] using hid
    rw [if_neg hid, hvalid]
    exact ⟨errorNone, rfl⟩

theorem listed_slot {s : Kernel Sensors} {detected : List FoundCamera} (h : Listed s.dev detected)
    (i : Nat) (heard : List Answer) :
    let answers := answersFor hdr world s.dev.slots s.calls i heard
    let found := detectedIn s.dev.slots answers
    (detected.eraseDups.length < numOfCameras → FairSlot s.dev.slots i (lastId (heard ++ answers))
      (FoundCamera.fitting detected found)) →
    Listed (searchedSlot hdr world s i heard).dev (detected ++ found) ∧
      (searchedSlot hdr world s i heard).dev.slots = s.dev.slots := by
  intro answers found hfair
  have hsame : SameSearch s.dev (askedSlot hdr world s i heard).dev :=
    sameSearch_featureControl hdr world _ _ s.calls s.dev
  have hsocket : ∀ camera ∈ found, camera.socket = (s.dev.slots i).invokeSocketIdx := by
    intro camera hcamera
    obtain ⟨answer, hanswer, rfl⟩ := List.mem_map.mp hcamera
    exact mem_answersTo world (List.mem_of_mem_filter hanswer)
  rw [← hsame.slots] at hsocket hfair
  refine ⟨listed_record (hsame.listed h) hsocket hfair, ?_⟩
  simp only [searchedSlot]
  split
  · exact (recordCamera_slots i _).trans hsame.slots
  · exact hsame.slots

/-- By induction on the slots that are left: what is listed are the cameras
detected so far. -/
theorem searchSensors_lists (stale : Stale StackVar) (is : List Nat) {s : Kernel Sensors}
    (err : BitVec 32) (heard : List Answer) {detected : List FoundCamera}
    (h : Listed s.dev detected)
    (hfair : SlotsFair hdr world s.dev.slots is s.calls heard detected) :
    Listed (searchSensors hdr world (paraAfter heard).para (paraAfter heard).len err is stale
        s).2.dev
      (detected ++ detections hdr world s.dev.slots is s.calls heard) := by
  induction is generalizing s heard err detected with
  | nil =>
    rw [detections, List.append_nil]
    exact h
  | cons i is ih =>
    by_cases hnone : (s.dev.slots i).invokeSocketIdx = hdr.dualCameraNoneSensor
    · rw [searchSensors_none hdr world hnone]
      simp only [SlotsFair, if_pos hnone] at hfair
      simp only [detections, if_pos hnone]
      exact ih err heard h hfair
    · simp only [SlotsFair, if_neg hnone] at hfair
      obtain ⟨hthis, hrest⟩ := hfair
      obtain ⟨err', hstep⟩ := searchSensors_some hdr world hnone heard err is stale
      obtain ⟨hlisted, hslots⟩ := listed_slot hdr world h i heard hthis
      rw [hstep]
      simp only [detections, if_neg hnone, ← List.append_assoc]
      have hnext := ih err' (heard ++ answersFor hdr world s.dev.slots s.calls i heard) hlisted
      rw [hslots] at hnext
      exact hnext hrest

/-! ## Sequences of requests -/

/-- The kernel, and every camera detected so far. -/
structure Search where
  kernel : Kernel Sensors
  detected : List FoundCamera

inductive SearchRequest
  | setDriver (pDrvIndex : Nat → BitVec 32)
  | checkIsAlive (stale : Stale StackVar)

/-- What a CHECK_IS_ALIVE detects; the power is switched on before. -/
def detectedBy (s : Kernel Sensors) : List FoundCamera :=
  detections hdr world s.dev.slots hdr.slots (s.calls + 1) []

/-- KDIMGSENSORIOC_X_SET_DRIVER and KDIMGSENSORIOC_T_CHECK_IS_ALIVE -/
def cameraSearch : Machine Search SearchRequest Int where
  step s
    | .setDriver pDrvIndex =>
      let r := kdSetDriver hdr world pDrvIndex s.kernel.dev
      some ({ s with kernel := { s.kernel with dev := r.2 } }, r.1)
    | .checkIsAlive stale =>
      let r := adoptCameraHwCheckIsAlive hdr world stale s.kernel
      some ({ kernel := r.2, detected := s.detected ++ detectedBy hdr world s.kernel }, r.1)

theorem checkIsAlive_lists (stale : Stale StackVar) {s : Kernel Sensors}
    {detected : List FoundCamera} (h : Listed s.dev detected)
    (hfair : SlotsFair hdr world s.dev.slots hdr.slots (s.calls + 1) [] detected) :
    Listed (adoptCameraHwCheckIsAlive hdr world stale s).2.dev
      (detected ++ detectedBy hdr world s) := by
  let on := kdModulePowerOn hdr.toSensorHeader world true s.calls s.dev
  let start : Kernel Sensors :=
    { s with dev := { on.2 with currentSensorIdx := 0, isSearchSensor := true }
             calls := s.calls + 1 }
  have hon : SameSearch s.dev on.2 := sameSearch_powerOn hdr world true s.calls s.dev
  have hstart : SameSearch s.dev start.dev := hon.trans ⟨rfl, rfl, rfl⟩
  let found := (searchSensors hdr world Bytes.zero 0 0 hdr.slots stale start).2
  have hfound : Listed found.dev (detected ++ detectedBy hdr world s) := by
    have hsearch := searchSensors_lists hdr world stale hdr.slots 0 [] (hstart.listed h)
      (by rw [hstart.slots]; exact hfair)
    rw [hstart.slots] at hsearch
    exact hsearch
  let closed := kdMultiSensorClose hdr.toSensorHeader world found.calls found.dev
  have hclosed : SameSearch found.dev closed.2 := sameSearch_close hdr world found.calls found.dev
  have hoff := sameSearch_powerOn hdr world false (found.calls + 1) closed.2
  have hend : SameSearch found.dev (adoptCameraHwCheckIsAlive hdr world stale s).2.dev :=
    (hclosed.trans hoff).trans ⟨rfl, rfl, rfl⟩
  exact hend.listed hfound

theorem setDriverSlot_list (index : BitVec 32) (i : Nat) (cam : Sensors) :
    let r := setDriverSlot hdr world index i cam
    r.2.cameralistUsing = cam.cameralistUsing ∧ r.2.foundCameraNum = cam.foundCameraNum := by
  simp only [setDriverSlot]
  split
  · exact ⟨rfl, rfl⟩
  · split
    · split
      · exact ⟨rfl, rfl⟩
      · split <;> exact ⟨rfl, rfl⟩
    · exact ⟨rfl, rfl⟩

theorem setDriver_list (pDrvIndex : Nat → BitVec 32) (cam : Sensors) :
    (kdSetDriver hdr world pDrvIndex cam).2.cameralistUsing = cam.cameralistUsing ∧
      (kdSetDriver hdr world pDrvIndex cam).2.foundCameraNum = cam.foundCameraNum := by
  unfold kdSetDriver
  suffices hgo : ∀ (is : List Nat) (cam : Sensors),
      (kdSetDriver.go hdr world pDrvIndex is cam).2.cameralistUsing = cam.cameralistUsing ∧
        (kdSetDriver.go hdr world pDrvIndex is cam).2.foundCameraNum = cam.foundCameraNum from
    hgo _ { cam with drvIndex := pDrvIndex 0 }
  intro is
  induction is with
  | nil => exact fun _ => ⟨rfl, rfl⟩
  | cons i is ih =>
    intro cam
    obtain ⟨hlist, hcount⟩ := setDriverSlot_list hdr world (pDrvIndex i) i cam
    unfold kdSetDriver.go
    simp only
    split
    · obtain ⟨hlist', hcount'⟩ := ih (setDriverSlot hdr world (pDrvIndex i) i cam).2
      exact ⟨hlist'.trans hlist, hcount'.trans hcount⟩
    · exact ⟨hlist, hcount⟩

/-- The list reports the first two different cameras. -/
def Reports (s : Search) : Prop :=
  s.kernel.dev.cameralistUsing = FoundCamera.listing s.detected

/-- What the sensors say to a request. -/
def SearchesFair (s : Search) : SearchRequest → Prop
  | .setDriver _ => True
  | .checkIsAlive _ =>
    SlotsFair hdr world s.kernel.dev.slots hdr.slots (s.kernel.calls + 1) [] s.detected

theorem listed_step {s t : Search} {request : SearchRequest} {ret : Int}
    (h : Listed s.kernel.dev s.detected) (hfair : SearchesFair hdr world s request)
    (hstep : (cameraSearch hdr world).step s request = some (t, ret)) :
    Listed t.kernel.dev t.detected := by
  cases request with
  | setDriver pDrvIndex =>
    cases hstep
    obtain ⟨hlist, hcount⟩ := setDriver_list hdr world pDrvIndex s.kernel.dev
    exact ⟨hlist.trans h.list, hcount.trans h.count⟩
  | checkIsAlive stale =>
    cases hstep
    exact checkIsAlive_lists hdr world stale h hfair

/-- Nothing has been listed or detected. -/
def noneFound (kernel : Kernel Sensors) : Search where
  kernel := { kernel with dev := { kernel.dev with cameralistUsing := "", foundCameraNum := 0 } }
  detected := []

end Search

/-- In every sequence of requests, the list reports the first two different cameras, as
long as every slot is fair that is reached while less than two are detected. -/
theorem reports_throughout (hdr : CameraHeader) (world : World) (kernel : Kernel Sensors)
    (requests : List SearchRequest)
    (hfair : (cameraSearch hdr world).AllSteps (SearchesFair hdr world) (noneFound kernel)
      requests) :
    (cameraSearch hdr world).AllStates Reports (noneFound kernel) requests := by
  have hstart : Listed (noneFound kernel).kernel.dev (noneFound kernel).detected := ⟨rfl, rfl⟩
  exact Machine.allStates_of_invariant (I := fun s : Search => Listed s.kernel.dev s.detected)
    (fun _ hs => hs.list) (fun _ _ _ _ hs hfair hstep => listed_step hdr world hs hfair hstep)
    hstart hfair

/-- A sensor in the main socket, with its id in the first byte. -/
def mainCamera : World :=
  { quietWorld with
    feature := fun _ _ _ =>
      { ret := errorNone, para := fun k => if k = 0 then some 0x31 else none }
    sensorList := fun _ => { sensorInit := some (some 0), drvname := "imx" } }

def selectMain : SearchRequest := .setDriver fun i => if i = 0 then 0x10000 else 0

def selectSub : SearchRequest := .setDriver fun i => if i = 0 then 0x20000 else 0

theorem reports_mainCamera :
    (cameraSearch resolutionHeader mainCamera).AllStates Reports (noneFound { dev := bootSensors })
      [selectMain, .checkIsAlive (staleOf 0), selectSub, .checkIsAlive (staleOf 0)] := by
  have hfair : ∀ {slots : Nat → Slot} {call : Nat} {detected : List FoundCamera},
      (slots 0).invokeSocketIdx ≠ resolutionHeader.dualCameraNoneSensor →
      (slots 1).invokeSocketIdx = resolutionHeader.dualCameraNoneSensor →
      FairSlot slots 0 (lastId (answersFor resolutionHeader mainCamera slots call 0 []))
        (FoundCamera.fitting detected
          (detectedIn slots (answersFor resolutionHeader mainCamera slots call 0 []))) →
      SlotsFair resolutionHeader mainCamera slots [0, 1] call [] detected := by
    intro slots call detected hmain hsub hslot
    rw [SlotsFair, if_neg hmain]
    refine ⟨fun _ => hslot, ?_⟩
    rw [SlotsFair, if_pos hsub]
    trivial
  refine reports_throughout resolutionHeader mainCamera _ _ ⟨trivial, fun t ret hstep => ?_⟩
  cases hstep
  refine ⟨hfair (by decide) (by decide) ⟨by decide, by decide, by decide, by decide⟩,
    fun t ret hstep => ?_⟩
  cases hstep
  refine ⟨trivial, fun t ret hstep => ?_⟩
  cases hstep
  refine ⟨hfair (by decide) (by decide) ⟨by decide, by decide, by decide, by decide⟩,
    fun _ _ _ => trivial⟩

/-- A second search lists the camera again. -/
theorem camera_listed_twice :
    ¬ (cameraSearch resolutionHeader mainCamera).AllStates Reports
      (noneFound { dev := bootSensors })
      [selectMain, .checkIsAlive (staleOf 0), .checkIsAlive (staleOf 0)] := by
  intro h
  have hlast : _ = _ := h.last rfl
  revert hlast
  decide

end Camera
end AtomDrivers
