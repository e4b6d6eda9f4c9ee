/-
Kernel addresses in feature requests.

While the drivers run, some slots of the parameters hold the addresses of kernel
buffers.  Two runs whose buffers lie at different addresses still give the user
the same bytes when the drivers answer by what the addresses point to.
-/
import AtomDrivers.Linux.Relocate
import AtomDrivers.Camera.Handed
import AtomDrivers.Camera.StaleBytes

namespace AtomDrivers
namespace Camera

open Linux Routine

/-- The slots that point to kernel buffers while the drivers run. -/
def pointerSlots : Exchange → List Nat
  | .value => [1]
  | .values => [0, 1]
  | .aux a => [a.slot]
  | .plain => []

/-- The offset is inside one of the slots. -/
def InSlots (slots : List Nat) (i : Nat) : Prop :=
  ∃ k ∈ slots, sizeofSlot * k ≤ i ∧ i < sizeofSlot * k + sizeofSlot

/-- The same parameters, but for the addresses in the slots. -/
structure SameData (slots : List Nat) (p p' : FeaturePara) : Prop where
  para : ∀ i, ¬ InSlots slots i → p.para i = p'.para i
  aux : p.aux = p'.aux
  len : p.len = p'.len

/-- The drivers answer by the values and the data pointed to, and store no
address. -/
def AddressBlind (world : World) (slots : List Nat) : Prop :=
  ∀ call i p p', SameData slots p p' → world.feature call i p = world.feature call i p'

def World.relocate (world : World) (alloc : Nat → Option (BitVec 64)) : World :=
  { world with env := world.env.relocate alloc }

section Drivers

variable {hdr : FeatureHeader} {world : World} {alloc : Nat → Option (BitVec 64)}
  {slots : List Nat}

theorem sameData_refl (p : FeaturePara) : SameData slots p p := ⟨fun _ _ => rfl, rfl, rfl⟩

theorem sameData_answer {p p' : FeaturePara} (h : SameData slots p p') (result : SensorResult) :
    SameData slots (p.answer result) (p'.answer result) := by
  refine ⟨fun i hi => ?_, ?_, ?_⟩
  · simp [FeaturePara.answer, Bytes.patch, h.para i hi]
  · simp [FeaturePara.answer, h.aux]
  · simp [FeaturePara.answer, h.len]

/-- Two walks with one body. -/
theorem overSlots_same {α : Type} (slots : Nat → Slot) (selected : Slot → Bool)
    (body : Nat → α → BitVec 32 × α) (R : α → α → Prop)
    (hbody : ∀ i a a', R a a' → (body i a).1 = (body i a').1 ∧ R (body i a).2 (body i a').2)
    (is : List Nat) {a a' : α} (h : R a a') :
    (overSlots slots selected body is a).1 = (overSlots slots selected body is a').1 ∧
      R (overSlots slots selected body is a).2 (overSlots slots selected body is a').2 := by
  induction is generalizing a a' with
  | nil => exact ⟨rfl, h⟩
  | cons i is ih =>
    obtain ⟨hret, hrest⟩ := hbody i a a' h
    by_cases hsel : (slots i).active ∧ selected (slots i)
    · simp only [overSlots, if_pos hsel]
      rw [hret]
      by_cases hfail : (body i a').1 ≠ errorNone
      · rw [if_pos hfail, if_pos hfail]
        exact ⟨hret, hrest⟩
      · rw [if_neg hfail, if_neg hfail]
        exact ih hrest
    · simp only [overSlots, if_neg hsel]
      exact ih h

theorem multiSensorFeatureControl_same (hdr : FeatureHeader)
    (alloc : Nat → Option (BitVec 64)) (hblind : AddressBlind world slots)
    (invokeCamera : BitVec 32) {p p' : FeaturePara} (h : SameData slots p p') (call : Nat)
    (cam : Sensors) :
    let r := kdMultiSensorFeatureControl hdr.toSensorHeader world invokeCamera p call cam
    let r' := kdMultiSensorFeatureControl hdr.toSensorHeader (world.relocate alloc) invokeCamera
      p' call cam
    (r.1.1 = r'.1.1 ∧ SameData slots r.1.2 r'.1.2) ∧ r.2 = r'.2 := by
  let body := fun i (a : FeaturePara × Sensors) =>
    let result := world.feature call i a.1
    (result.ret, a.1.answer result,
      { a.2 with i2cBusNum := i2cBusOf hdr.toSensorHeader (cam.slots i).invokeSocketIdx })
  let R := fun a a' : FeaturePara × Sensors => SameData slots a.1 a'.1 ∧ a.2 = a'.2
  have hbody : ∀ i a a', R a a' → (body i a).1 = (body i a').1 ∧ R (body i a).2 (body i a').2 := by
    intro i a a' h
    simp only [body, hblind call i a.1 a'.1 h.1, h.2]
    exact ⟨trivial, sameData_answer h.1 _, rfl⟩
  obtain ⟨hret, hdata, hcam⟩ := overSlots_same cam.slots
    (fun slot => invokeCamera = slot.invokeSocketIdx) body R hbody hdr.slots
    (show R (p, cam) (p', cam) from ⟨h, rfl⟩)
  exact ⟨⟨hret, hdata⟩, hcam⟩

theorem same_featureControl (hblind : AddressBlind world slots) (invokeCamera : BitVec 32)
    {p p' : FeaturePara} (h : SameData slots p p') :
    Same (fun r r' => r.1 = r'.1 ∧ SameData slots r.2 r'.2)
      (featureControl hdr.toSensorHeader world invokeCamera p)
      (featureControl hdr.toSensorHeader (world.relocate alloc) invokeCamera p') := by
  intro _ _ s
  obtain ⟨hresult, hcam⟩ := multiSensorFeatureControl_same hdr alloc hblind
    invokeCamera h s.calls s.dev
  refine ⟨hresult, ?_⟩
  simp only [featureControl, walk, Routine.modifyGet, hcam]

end Drivers

/-! ## The parameters -/

section Slots

variable {slots : List Nat} {para para' : Buffer}

theorem same_readSlot (h : Twin (InSlots slots) para para') {k : Nat} (hk : k ∉ slots) :
    Same Eq (readSlot para k) (readSlot para' k) := by
  refine Same.bind_eq (h.same_read fun i hlo hhi hi => ?_) fun _ => Blind.pure _
  obtain ⟨j, hj, hlo', hhi'⟩ := hi
  have hjk : j = k := by
    simp only [sizeofSlot] at hlo hhi hlo' hhi'
    omega
  exact hk (hjk ▸ hj)

/-- A slot that another run writes differently is hidden, and one that both write
alike no longer is. -/
theorem same_writeSlot (slots' : List Nat) (h : Twin (InSlots slots) para para') {k : Nat}
    {v v' : BitVec 64} (hv : v = v' ∨ k ∈ slots') (hkept : ∀ j ∈ slots, j = k ∨ j ∈ slots') :
    Same (Twin (InSlots slots')) (writeSlot para k v) (writeSlot para' k v') := by
  have hlen : ∀ v : BitVec 64, (toBytes sizeofSlot v.toNat).length = sizeofSlot := by
    simp [toBytes]
  refine h.same_write ((hlen v).trans (hlen v').symm) (fun i hlo hhi hi => ?_)
    fun i hi hi' => ?_
  · rw [hlen] at hhi
    rcases hv with rfl | hk
    · rfl
    · exact absurd ⟨k, hk, hlo, hhi⟩ hi
  · obtain ⟨j, hj, hlo, hhi⟩ := hi
    rcases hkept j hj with rfl | hj'
    · rw [hlen]
      exact ⟨hlo, hhi⟩
    · exact absurd ⟨j, hj', hlo, hhi⟩ hi'

theorem twin_bare (h : Twin (InSlots []) para para') : Twin Bare para para' :=
  ⟨h.id, h.size, fun i _ => h.bytes i fun ⟨_, hk, _⟩ => by cases hk⟩

theorem twin_slots (h : Twin Bare para para') : Twin (InSlots []) para para' :=
  ⟨h.id, h.size, fun i _ => h.bytes i fun hi => hi⟩

end Slots

section Serve

variable {hdr : FeatureHeader} {world : World} {alloc : Nat → Option (BitVec 64)}
  {slots : List Nat} {para para' : Buffer}

theorem same_sensorFeatureControl (hblind : AddressBlind world slots) (invokeCamera : BitVec 32)
    (h : Twin (InSlots slots) para para') (aux : Nat → Bytes) (len : BitVec 32) :
    Same (fun r r' => r.1 = r'.1 ∧ Twin (InSlots slots) r.2.1 r'.2.1 ∧ r.2.2 = r'.2.2)
      (sensorFeatureControl hdr world invokeCamera para aux len)
      (sensorFeatureControl hdr (world.relocate alloc) invokeCamera para' aux len) := by
  have hdata : SameData slots { para := para.bytes, aux, len }
      { para := para'.bytes, aux, len } := ⟨h.bytes, rfl, rfl⟩
  refine (same_featureControl hblind invokeCamera hdata).bind fun r r' hr => ?_
  obtain ⟨hret, hpara, haux, hlen⟩ := hr
  exact Same.pure ⟨hret, ⟨h.id, h.size, hpara⟩, Prod.ext haux hlen⟩

/-- Two answers that differ in the address of the parameters at most. -/
structure SameServed (served served' : Served) : Prop where
  ret : served.ret = served'.ret
  para : Twin Bare served.para served'.para
  len : served.len = served'.len

variable (halloc : ∀ k, (world.env.alloc k).isSome = (alloc k).isSome)
  (arg : FeatureControlArg) (len : BitVec 32)

include halloc

theorem same_serveValue (hblind : AddressBlind world [1]) (h : Twin Bare para para') :
    Same (Option.Rel SameServed) (serveValue hdr world arg para len)
      (serveValue hdr (world.relocate alloc) arg para' len) := by
  refine same_kmalloc_memset world.env halloc 0 sizeofUint32 (Same.pure .none)
    fun pValue pValue' hvalue => ?_
  refine (same_writeSlot [1] (twin_slots h) (Or.inr (by simp)) (by simp)).bind
    fun para para' h => ?_
  rw [hvalue.bytes_eq]
  refine (same_sensorFeatureControl hblind arg.invokeCamera h _ len).bind
    fun ⟨ret, para, aux, len⟩ ⟨ret', para', aux', len'⟩ hr => ?_
  obtain ⟨hret, hpara, hrest⟩ := hr
  obtain ⟨rfl, rfl⟩ := Prod.mk.inj hrest
  refine (same_writeSlot [] hpara (Or.inl rfl) (by simp)).bind fun para para' h => ?_
  refine Same.bind_eq hvalue.same_kfree fun _ => ?_
  exact Same.pure (.some ⟨hret, twin_bare h, rfl⟩)

theorem same_serveValues (hblind : AddressBlind world [0, 1]) (h : Twin Bare para para') :
    Same (Option.Rel SameServed) (serveValues hdr world arg para len)
      (serveValues hdr (world.relocate alloc) arg para' len) := by
  refine (placed_kmalloc world.env halloc sizeofUint32).bind fun b0 b0' h0 => ?_
  refine (placed_kmalloc world.env halloc sizeofUint32).bind fun b1 b1' h1 => ?_
  cases h0 with
  | none => cases h1 <;> exact Same.pure .none
  | some h0 =>
    cases h1 with
    | none => exact Same.pure .none
    | some h1 =>
      refine (h1.same_memset 0).bind fun pValue1 pValue1' h1 => ?_
      refine (h0.same_memset 0).bind fun pValue0 pValue0' h0 => ?_
      refine (same_writeSlot [0] (twin_slots h) (Or.inr (by simp)) (by simp)).bind
        fun para para' h => ?_
      refine (same_writeSlot [0, 1] h (Or.inr (by simp)) (by simp)).bind fun para para' h => ?_
      rw [h0.bytes_eq, h1.bytes_eq]
      refine (same_sensorFeatureControl hblind arg.invokeCamera h _ len).bind
        fun ⟨ret, para, aux, len⟩ ⟨ret', para', aux', len'⟩ hr => ?_
      obtain ⟨hret, hpara, hrest⟩ := hr
      obtain ⟨rfl, rfl⟩ := Prod.mk.inj hrest
      refine (same_writeSlot [1] hpara (Or.inl rfl) (by simp)).bind fun para para' h => ?_
      refine (same_writeSlot [] h (Or.inl rfl) (by simp)).bind fun para para' h => ?_
      refine Same.bind_eq h0.same_kfree fun _ => Same.bind_eq h1.same_kfree fun _ => ?_
      exact Same.pure (.some ⟨hret, twin_bare h, rfl⟩)

omit halloc in
theorem same_auxIn (a : Aux) (usrPtr : BitVec 64) {buf buf' : Buffer} (h : Twin Bare buf buf') :
    Same (Twin Bare) (auxIn world a usrPtr buf) (auxIn (world.relocate alloc) a usrPtr buf') := by
  unfold auxIn
  cases a.copy with
  | fromUser =>
    refine (h.same_copyIn world.env alloc usrPtr a.size).bind fun r r' hr => ?_
    exact Same.pure hr.1
  | toUser => exact Same.pure h
  | toUserSized => exact Same.pure h

omit halloc in
theorem same_auxOut (a : Aux) (ha : a.slot < 2) (usrPtr : BitVec 64) {buf buf' : Buffer}
    (hbuf : Twin Bare buf buf') (h : Twin (InSlots [a.slot]) para para') :
    Same Eq (auxOut world a usrPtr buf para)
      (auxOut (world.relocate alloc) a usrPtr buf' para') := by
  unfold auxOut
  cases a.copy with
  | fromUser => exact Same.pure rfl
  | toUser =>
    exact Same.bind_eq (hbuf.same_copyOut world.env alloc usrPtr a.size) fun _ => Blind.pure _
  | toUserSized =>
    have hsize : 2 ∉ [a.slot] := by
      rw [List.mem_singleton]
      omega
    refine Same.bind_eq (same_readSlot h hsize) fun size => ?_
    exact Same.bind_eq (hbuf.same_copyOut world.env alloc usrPtr _) fun _ => Blind.pure _

theorem same_serveAux (a : Aux) (ha : a.slot < 2) (hblind : AddressBlind world [a.slot])
    (h : Twin Bare para para') :
    Same (Option.Rel SameServed) (serveAux hdr world a arg para len)
      (serveAux hdr (world.relocate alloc) a arg para' len) := by
  refine Same.bind_eq (same_readSlot (twin_slots h) List.not_mem_nil) fun usrPtr => ?_
  refine same_kmalloc_memset world.env halloc a.fill a.size (Same.pure .none)
    fun buf buf' hbuf => ?_
  refine (same_writeSlot [a.slot] (twin_slots h) (Or.inr (by simp)) (by simp)).bind
    fun para para' h => ?_
  refine (same_auxIn a usrPtr hbuf).bind fun buf buf' hbuf => ?_
  rw [hbuf.bytes_eq]
  refine (same_sensorFeatureControl hblind arg.invokeCamera h _ len).bind
    fun ⟨ret, para, aux, len⟩ ⟨ret', para', aux', len'⟩ hr => ?_
  obtain ⟨hret, hpara, hrest⟩ := hr
  obtain ⟨rfl, rfl⟩ := Prod.mk.inj hrest
  have hanswered : Twin Bare { buf with bytes := aux 0 } { buf' with bytes := aux 0 } :=
    ⟨hbuf.id, hbuf.size, fun _ _ => rfl⟩
  refine Same.bind_eq (same_auxOut a ha usrPtr hanswered hpara) fun _ => ?_
  refine Same.bind_eq hbuf.same_kfree fun _ => ?_
  refine (same_writeSlot [] hpara (Or.inl rfl) (by simp)).bind fun para para' h => ?_
  exact Same.pure (.some ⟨hret, twin_bare h, rfl⟩)

omit halloc in
theorem exchange_slot {f : Feature} {a : Aux} (h : exchange hdr f = .aux a) : a.slot < 2 := by
  unfold exchange at h
  split at h <;> cases h <;> simp

theorem same_serve
    (hblind : AddressBlind world (pointerSlots (exchange hdr (hdr.feature arg.featureId))))
    (h : Twin Bare para para') :
    Same (Option.Rel SameServed) (serve hdr world arg para len)
      (serve hdr (world.relocate alloc) arg para' len) := by
  unfold serve
  cases hex : exchange hdr (hdr.feature arg.featureId) with
  | value =>
    rw [hex] at hblind
    exact same_serveValue halloc arg len hblind h
  | values =>
    rw [hex] at hblind
    exact same_serveValues halloc arg len hblind h
  | aux a =>
    rw [hex] at hblind
    exact same_serveAux halloc arg len a (exchange_slot hex) hblind h
  | plain =>
    rw [hex] at hblind
    refine (same_sensorFeatureControl hblind arg.invokeCamera (twin_slots h) _ len).bind
      fun ⟨ret, para, aux, len⟩ ⟨ret', para', aux', len'⟩ hr => ?_
    obtain ⟨hret, hpara, hrest⟩ := hr
    obtain ⟨rfl, rfl⟩ := Prod.mk.inj hrest
    exact Same.pure (.some ⟨hret, twin_bare hpara, rfl⟩)

end Serve

/-! ## The request -/

section Request

variable {hdr : FeatureHeader} {world : World} {alloc : Nat → Option (BitVec 64)}
  {slots : List Nat} {para para' : Buffer}

theorem same_issueCommands (hblind : AddressBlind world slots) (cs : List SyncCommand)
    (len : BitVec 32) :
    Same Eq (issueCommands hdr world cs len) (issueCommands hdr (world.relocate alloc) cs len) := by
  induction cs generalizing len with
  | nil => exact Blind.pure _
  | cons c cs ih =>
    refine (same_featureControl hblind c.camera (sameData_refl (syncPara c.value 2))).bind
      fun ⟨ret, p⟩ ⟨ret', p'⟩ hr => ?_
    have hlen : p.len = p'.len := hr.2.len
    simp only [hlen]
    exact ih _

theorem same_kdSetExpGain (hblind : AddressBlind world slots) (invokeCamera : BitVec 32) :
    Same Eq (kdSetExpGain hdr world invokeCamera)
      (kdSetExpGain hdr (world.relocate alloc) invokeCamera) := by
  refine Same.bind_eq (Blind.modifyGet _) fun g => ?_
  refine (same_featureControl hblind invokeCamera
    (sameData_refl (syncPara g.u2SensorNewExpTime 2))).bind fun ⟨ret, p⟩ ⟨ret', p'⟩ hr => ?_
  have hlen : p.len = p'.len := hr.2.len
  simp only [hlen]
  refine (same_featureControl hblind invokeCamera (sameData_refl _)).bind fun _ _ _ => ?_
  exact Blind.modify _

theorem same_readMember {w : Nat} (h : Twin Bare para para') (m : SyncMember) :
    Same Eq (readMember (w := w) hdr para m) (readMember hdr para' m) :=
  Same.bind_eq (h.same_read fun _ _ _ hi => hi) fun _ => Blind.pure _

theorem same_readSensorSync (h : Twin Bare para para') :
    Same Eq (readSensorSync hdr para) (readSensorSync hdr para') := by
  refine Same.bind_eq (same_readMember h _) fun _ => ?_
  refine Same.bind_eq (same_readMember h _) fun _ => ?_
  refine Same.bind_eq (same_readMember h _) fun _ => ?_
  refine Same.bind_eq (same_readMember h _) fun _ => ?_
  refine Same.bind_eq (same_readMember h _) fun _ => ?_
  refine Same.bind_eq (same_readMember h _) fun _ => ?_
  refine Same.bind_eq (same_readMember h _) fun _ => ?_
  refine Same.bind_eq (same_readMember h _) fun _ => ?_
  exact Same.bind_eq (same_readMember h _) fun _ => Blind.pure _

/-- The same parameters in two buffers. -/
def SameGiven (c c' : Buffer × BitVec 32) : Prop := Twin Bare c.1 c'.1 ∧ c.2 = c'.2

variable (arg : FeatureControlArg) (len : BitVec 32)

theorem same_copyParaIn (hblind : AddressBlind world slots) (h : Twin Bare para para') :
    Same (Option.Rel SameGiven) (copyParaIn hdr world arg para len)
      (copyParaIn hdr (world.relocate alloc) arg para' len) := by
  have hcopy := h.same_copyIn (ν := StackVar) (σ := Sensors) world.env alloc arg.pFeaturePara
    len.toNat
  have hreset : Same Eq (resetBefore (hdr.feature arg.featureId))
      (resetBefore (hdr.feature arg.featureId)) :=
    Blind.ite (fun _ => Blind.modify _) fun _ => Blind.pure _
  have hpara : Same (Option.Rel SameGiven) (copyPara world arg para len)
      (copyPara (world.relocate alloc) arg para' len) := by
    refine hcopy.bind fun ⟨para, missing⟩ ⟨para', missing'⟩ hc => ?_
    obtain ⟨h, rfl⟩ := hc
    refine Same.ite (fun _ => ?_) fun _ => Same.pure (.some ⟨h, rfl⟩)
    exact Same.bind_eq h.same_kfree fun _ => Same.pure .none
  have hsync : Same (Option.Rel SameGiven) (copySensorSync hdr world arg para len)
      (copySensorSync hdr (world.relocate alloc) arg para' len) := by
    refine hcopy.bind fun ⟨para, missing⟩ ⟨para', missing'⟩ hc => ?_
    obtain ⟨h, rfl⟩ := hc
    refine Same.ite (fun _ => Same.pure .none) fun _ => ?_
    refine Same.bind_eq (same_readSensorSync h) fun info => ?_
    refine Same.bind_eq (Blind.modify _) fun _ => ?_
    refine Same.bind_eq (same_issueCommands hblind _ _) fun len => ?_
    exact Same.pure (.some ⟨h, rfl⟩)
  have hexp : Same (Option.Rel SameGiven) (copyEshutterGain hdr world arg para len)
      (copyEshutterGain hdr (world.relocate alloc) arg para' len) := by
    refine hcopy.bind fun ⟨para, missing⟩ ⟨para', missing'⟩ hc => ?_
    obtain ⟨h, rfl⟩ := hc
    refine Same.ite (fun _ => Same.pure .none) fun _ => ?_
    refine Same.bind_eq (same_readMember h _) fun u2SensorNewExpTime => ?_
    refine Same.bind_eq (same_readMember h _) fun u2SensorNewGain => ?_
    refine Same.bind_eq (Blind.modify _) fun _ => ?_
    refine Same.bind_eq (same_kdSetExpGain hblind arg.invokeCamera) fun _ => ?_
    exact Same.pure (.some ⟨h, rfl⟩)
  refine Same.bind_eq hreset fun _ => Same.ite (fun _ => hpara) fun _ => ?_
  refine Same.ite (fun _ => hsync) fun _ => Same.ite (fun _ => hexp) fun _ => ?_
  exact Same.pure (.some ⟨h, rfl⟩)

theorem same_copyParaOut {served served' : Served} (h : SameServed served served') :
    Same Eq (copyParaOut hdr world arg served)
      (copyParaOut hdr (world.relocate alloc) arg served') := by
  have hback : Same Eq (copyParaBack hdr world arg served)
      (copyParaBack hdr (world.relocate alloc) arg served') := by
    unfold copyParaBack
    rw [h.len]
    refine Same.ite (fun _ => ?_) fun _ => Blind.pure _
    exact h.para.same_copyOut world.env alloc arg.pFeaturePara _
  refine Same.bind_eq hback fun missing => Same.bind_eq h.para.same_kfree fun _ => ?_
  refine Same.ite (fun _ => Blind.pure _) fun _ => ?_
  rw [h.len, h.ret]
  exact blind_copyOutThen world.env _ _ _ (Blind.pure _)

/-- No address shows. -/
theorem same_featureRequest
    (halloc : ∀ k, (world.env.alloc k).isSome = (alloc k).isSome)
    (hblind : AddressBlind world (pointerSlots (exchange hdr (hdr.feature arg.featureId)))) :
    Same Eq (adoptCameraHwFeatureControl hdr world arg)
      (adoptCameraHwFeatureControl hdr (world.relocate alloc) arg) := by
  refine Same.ite (fun _ => Blind.pure _) fun _ => ?_
  refine Same.bind_eq (blind_copyIn world.env _ _ _) fun c => ?_
  refine Same.ite (fun _ => Blind.pure _) fun _ => ?_
  refine same_kmalloc_memset world.env halloc 0 _ (Blind.pure _) fun para para' h => ?_
  refine (same_copyParaIn arg _ hblind h).bind fun c c' hc => ?_
  cases hc with
  | none => exact Blind.pure _
  | @some c c' hc =>
    obtain ⟨para, len⟩ := c
    obtain ⟨para', len'⟩ := c'
    obtain ⟨hpara, rfl⟩ := hc
    refine (same_serve halloc arg len hblind hpara).bind fun served served' hserved => ?_
    cases hserved with
    | none => exact Blind.pure _
    | some hserved => exact same_copyParaOut arg hserved

/-- Two runs with buffers at different addresses return the same value and give the
user the same bytes.  The parameters that are copied back have no address in their
slots. -/
theorem addresses_hidden (hdr : FeatureHeader) (world : World) (arg : FeatureControlArg)
    (alloc : Nat → Option (BitVec 64))
    (halloc : ∀ k, (world.env.alloc k).isSome = (alloc k).isSome)
    (hblind : AddressBlind world (pointerSlots (exchange hdr (hdr.feature arg.featureId))))
    (stale : Stale StackVar) (s : Kernel Sensors) :
    ((adoptCameraHwFeatureControl hdr world arg stale s).1 =
        (adoptCameraHwFeatureControl hdr (world.relocate alloc) arg stale s).1 ∧
      (adoptCameraHwFeatureControl hdr world arg stale s).2.user =
        (adoptCameraHwFeatureControl hdr (world.relocate alloc) arg stale s).2.user) ∧
    ∀ t para len served, (serve hdr world arg para len stale t).1 = some served →
      SlotsRestored para.bytes
        (answered hdr world arg (exchange hdr (hdr.feature arg.featureId)) t para.bytes len).2
        served.para.bytes (exchange hdr (hdr.feature arg.featureId)) := by
  have hsame := same_featureRequest arg halloc hblind stale stale s
  refine ⟨⟨hsame.1, congrArg Kernel.user hsame.2⟩, fun t para len served hserved => ?_⟩
  rw [serve_result, servedAs] at hserved
  split at hserved
  · cases hserved
    exact slotsRestored _ _ _
  · cases hserved

end Request

def frameRateHeader : CameraHeader :=
  { resolutionHeader with feature := fun _ => .getDefaultFrameRateByScenario }

/-- The frame rate depends on the scenario in slot 0. -/
def scenarioWorld : World :=
  { quietWorld with
    feature := fun _ _ p =>
      { ret := errorNone, aux := fun _ x => if x = 0 then some (p.para 0 + 30) else none } }

def oneSensor : Sensors :=
  { bootSensors with
    slots := fun i =>
      { bEnableDriver := decide (i = 0), pInvokeSensorFunc := some 0, invokeSocketIdx := 1,
        invokeSensorNameStr := "imx" } }

/-- The length at 0x4001 is 112. -/
def frameRateRequest : FeatureControlArg :=
  { invokeCamera := 1, featureId := 0, pFeaturePara := 0x4000, pFeatureParaLen := 0x4001 }

def elsewhere (k : Nat) : Option (BitVec 64) := some (BitVec.ofNat 64 (0x900000 + 0x40 * k))

theorem scenarioWorld_blind :
    AddressBlind scenarioWorld (pointerSlots (exchange frameRateHeader.toFeatureHeader
      (frameRateHeader.feature frameRateRequest.featureId))) := by
  intro call i p p' h
  have hscenario : p.para 0 = p'.para 0 := by
    refine h.para 0 fun hin => ?_
    obtain ⟨k, hk, hlo, hhi⟩ := hin
    simp [pointerSlots, exchange, frameRateHeader] at hk
    subst hk
    simp [sizeofSlot] at hlo
  simp [scenarioWorld, hscenario]

theorem addresses_hidden_frameRate :
    (adoptCameraHwFeatureControl frameRateHeader.toFeatureHeader scenarioWorld frameRateRequest
        (staleOf 0) { dev := oneSensor }).2.user =
      (adoptCameraHwFeatureControl frameRateHeader.toFeatureHeader
        (scenarioWorld.relocate elsewhere) frameRateRequest (staleOf 0)
        { dev := oneSensor }).2.user :=
  (addresses_hidden frameRateHeader.toFeatureHeader scenarioWorld frameRateRequest elsewhere
    (fun _ => rfl) scenarioWorld_blind (staleOf 0) { dev := oneSensor }).1.2

end Camera
end AtomDrivers
