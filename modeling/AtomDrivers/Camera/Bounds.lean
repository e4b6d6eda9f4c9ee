/-
Feature requests inside their buffers.

The length of the parameters comes from the user and is never compared with what
the feature reads: slots of 64 bits, the structure of the vertical sync, the size
in slot 2.  The drivers may change it before the parameters are copied back.
-/
import AtomDrivers.Linux.Bounds
import AtomDrivers.Camera.Handed
import AtomDrivers.Camera.StaleBytes

namespace AtomDrivers
namespace Camera

open Linux Routine

section Steps

variable (hdr : FeatureHeader) (world : World) {η : Stale StackVar} {s : Kernel Sensors}
  {para : Buffer}

theorem audit_walk {α : Type} (hs : Numbered s) (f : Nat → Sensors → α × Sensors) :
    Audit (walk f) η s True :=
  audit_of_heap hs rfl rfl

theorem audit_readSlot (hs : Numbered s) (hp : Held s para) (slot : Nat) :
    Audit (readSlot para slot) η s (sizeofSlot * (slot + 1) ≤ para.size) := by
  have hread := audit_read (η := η) hs hp (sizeofSlot * slot) sizeofSlot
  exact hread.before fun hn => audit_pure hn _

theorem audit_writeSlot (hs : Numbered s) (hp : Held s para) (slot : Nat) (value : BitVec 64) :
    Audit (writeSlot para slot value) η s (sizeofSlot * (slot + 1) ≤ para.size) := by
  have hlen : (toBytes sizeofSlot value.toNat).length = sizeofSlot := by simp [toBytes]
  have hwrite := audit_write (η := η) hs hp (sizeofSlot * slot)
    (toBytes sizeofSlot value.toNat)
  rw [hlen] at hwrite
  exact hwrite

theorem audit_featureControl (hs : Numbered s) (invokeCamera : BitVec 32) (p : FeaturePara) :
    Audit (featureControl hdr.toSensorHeader world invokeCamera p) η s True :=
  audit_walk hs _

theorem audit_sensorFeatureControl (hs : Numbered s) (invokeCamera : BitVec 32) (para : Buffer)
    (aux : Nat → Bytes) (len : BitVec 32) :
    Audit (sensorFeatureControl hdr world invokeCamera para aux len) η s True := by
  have hcontrol := audit_featureControl (η := η) hdr world hs invokeCamera
    { para := para.bytes, aux, len }
  exact hcontrol.before fun hn => audit_pure hn _

end Steps

section Serve

variable (hdr : FeatureHeader) (world : World) (arg : FeatureControlArg)
  {η : Stale StackVar} {s : Kernel Sensors}

/-- What an exchange needs of parameters of `size` bytes. -/
def SlotsFit (ex : Exchange) (s : Kernel Sensors) (para : Buffer) (len : BitVec 32) : Prop :=
  match ex with
  | .value | .values => buffersAllocated world.env s.allocs ex = true → sizeofSlot * 2 ≤ para.size
  | .aux a =>
    sizeofSlot * (a.slot + 1) ≤ para.size ∧
      (buffersAllocated world.env s.allocs ex = true → a.copy = .toUserSized →
        sizeofSlot * 3 ≤ para.size ∧
          ((slotOf (answered hdr world arg ex s para.bytes len).2.para 2).setWidth 32).toNat ≤
            a.size)
  | .plain => True

theorem audit_serveValue (hs : Numbered s) {para : Buffer} (hp : Held s para) (len : BitVec 32) :
    Audit (serveValue hdr world arg para len) η s
      (SlotsFit hdr world arg .value s para len) := by
  refine audit_kmalloc_memset world.env hs (fun hnone hn => ?_)
    (fun addr hsome hn hbuf hgrows => ?_)
  · exact (audit_pure hn _).congr (by simp [SlotsFit, buffersAllocated, hnone])
  · refine Audit.congr (c := sizeofSlot * 2 ≤ para.size ∧ sizeofSlot * 2 ≤ para.size) ?_
      (by simp [SlotsFit, buffersAllocated, hsome])
    refine (audit_writeSlot hn (hp.mono hgrows) 1 addr).bind fun hn hg => ?_
    refine (audit_sensorFeatureControl hdr world hn _ _ _ _).after fun hn hg' => ?_
    refine (audit_writeSlot hn ?_ 1 _).before fun hn => ?_
    · exact ((hp.mono hgrows).mono hg).mono hg'
    · exact (audit_kfree hn _).after fun hn _ => audit_pure hn _

theorem audit_askValues (hs : Numbered s) {para pValue0 pValue1 : Buffer} (hp : Held s para)
    (h0 : Held s pValue0) (h1 : Held s pValue1) (hsize0 : pValue0.size = sizeofUint32)
    (hsize1 : pValue1.size = sizeofUint32) (len : BitVec 32) :
    Audit (askValues hdr world arg para len pValue0 pValue1) η s
      (sizeofSlot * 2 ≤ para.size) := by
  refine Audit.congr (c := sizeofSlot * 1 ≤ para.size ∧ sizeofSlot * 2 ≤ para.size ∧
    sizeofSlot * 1 ≤ para.size ∧ sizeofSlot * 2 ≤ para.size) ?_ ?_
  · refine ((audit_memset hs h1 0 sizeofUint32).congr
      (iff_true_intro (Nat.le_of_eq hsize1.symm))).after fun hn hg => ?_
    have hp := hp.mono hg
    refine ((audit_memset hn (h0.mono hg) 0 sizeofUint32).congr
      (iff_true_intro (Nat.le_of_eq hsize0.symm))).after fun hn hg => ?_
    have hp := hp.mono hg
    refine (audit_writeSlot hn hp 0 _).bind fun hn hg => ?_
    have hp := hp.mono hg
    refine Audit.bind (audit_writeSlot hn ?_ 1 _) fun hn hg => ?_
    · exact hp
    have hp := hp.mono hg
    refine (audit_sensorFeatureControl hdr world hn _ _ _ _).after fun hn hg => ?_
    have hp := hp.mono hg
    refine Audit.bind (audit_writeSlot hn ?_ 0 _) fun hn hg => ?_
    · exact hp
    have hp := hp.mono hg
    refine Audit.before (audit_writeSlot hn ?_ 1 _) fun hn => ?_
    · exact hp
    refine (audit_kfree hn _).after fun hn _ => ?_
    exact (audit_kfree hn _).after fun hn _ => audit_pure hn _
  · simp only [sizeofSlot]
    omega

theorem audit_serveValues (hs : Numbered s) {para : Buffer} (hp : Held s para) (len : BitVec 32) :
    Audit (serveValues hdr world arg para len) η s
      (SlotsFit hdr world arg .values s para len) := by
  have h0 := isSome_kmalloc (η := η) (s := s) world.env sizeofUint32
  have h1 := isSome_kmalloc (η := η)
    (s := (kmalloc world.env sizeofUint32 η s).2) world.env sizeofUint32
  rw [allocs_kmalloc] at h1
  have hfits : SlotsFit hdr world arg .values s para len ↔
      ((kmalloc world.env sizeofUint32 η s).1.isSome = true →
        (kmalloc world.env sizeofUint32 η
          (kmalloc world.env sizeofUint32 η s).2).1.isSome = true →
        sizeofSlot * 2 ≤ para.size) := by
    simp [SlotsFit, buffersAllocated, h0, h1]
  refine Audit.congr ?_ hfits.symm
  refine (audit_kmalloc world.env hs sizeofUint32).after fun hn hg => ?_
  have hp := hp.mono hg
  refine (audit_kmalloc world.env hn sizeofUint32).after fun hn hg' => ?_
  have hp := hp.mono hg'
  rcases hb0 : (kmalloc world.env sizeofUint32 η s).1 with _ | b0
  · exact (audit_pure hn _).congr (by simp)
  · rcases hb1 : (kmalloc world.env sizeofUint32 η
      (kmalloc world.env sizeofUint32 η s).2).1 with _ | b1
    · exact (audit_pure hn _).congr (by simp)
    · obtain ⟨hheld0, hsize0⟩ := held_kmalloc world.env hb0
      obtain ⟨hheld1, hsize1⟩ := held_kmalloc world.env hb1
      have hasked := audit_askValues (η := η) hdr world arg hn hp (hheld0.mono hg') hheld1 hsize0
        hsize1 len
      exact hasked.congr (by simp)

theorem audit_auxIn (a : Aux) (usrPtr : BitVec 64) (hs : Numbered s) {buf : Buffer}
    (hb : Held s buf) (hsize : a.size = buf.size) :
    Audit (auxIn world a usrPtr buf) η s True := by
  unfold auxIn
  cases a.copy with
  | fromUser =>
    have hcopy := audit_copyIn (η := η) world.env hs hb usrPtr a.size
    exact (hcopy.congr (iff_true_intro (Nat.le_of_eq hsize))).after fun hn _ => audit_pure hn _
  | toUser => exact audit_pure hs _
  | toUserSized => exact audit_pure hs _

/-- The copy from the user changes the bytes only. -/
theorem auxIn_buffer (a : Aux) (usrPtr : BitVec 64) (buf : Buffer) (η : Stale StackVar)
    (s : Kernel Sensors) :
    (auxIn world a usrPtr buf η s).1.id = buf.id ∧
      (auxIn world a usrPtr buf η s).1.size = buf.size := by
  unfold auxIn
  cases a.copy with
  | fromUser => exact ⟨rfl, rfl⟩
  | toUser => exact ⟨rfl, rfl⟩
  | toUserSized => exact ⟨rfl, rfl⟩

theorem audit_auxOut (a : Aux) (usrPtr : BitVec 64) (hs : Numbered s) {buf para : Buffer}
    (hb : Held s buf) (hp : Held s para) (hsize : a.size = buf.size) :
    Audit (auxOut world a usrPtr buf para) η s
      (a.copy = .toUserSized → sizeofSlot * 3 ≤ para.size ∧
        ((slotOf para.bytes 2).setWidth 32).toNat ≤ a.size) := by
  unfold auxOut
  cases a.copy with
  | fromUser => exact (audit_pure hs _).congr (by simp)
  | toUser =>
    have hcopy := audit_copyOut (η := η) world.env hs hb usrPtr a.size
    refine Audit.after (hcopy.congr (iff_true_intro (Nat.le_of_eq hsize))) fun hn _ => ?_
    exact (audit_pure hn _).congr (by simp)
  | toUserSized =>
    refine Audit.congr (c := sizeofSlot * 3 ≤ para.size ∧
      ((slotOf para.bytes 2).setWidth 32).toNat ≤ buf.size) ?_ (by simp [hsize])
    refine (audit_readSlot hs hp 2).bind fun hn hg => ?_
    exact (audit_copyOut world.env hn (hb.mono hg) usrPtr _).before fun hn => audit_pure hn _

/-- The drivers are asked and the buffer is handed over. -/
theorem audit_auxAsk (a : Aux) (usrPtr : BitVec 64) (hs : Numbered s) {buf para : Buffer}
    (hb : Held s buf) (hp : Held s para) (hsize : a.size = buf.size) (len : BitVec 32) :
    Audit (do
      let (ret, para, aux, len) ←
        sensorFeatureControl hdr world arg.invokeCamera para (fun _ => buf.bytes) len
      auxOut world a usrPtr { buf with bytes := aux 0 } para
      kfree buf
      let para ← writeSlot para a.slot usrPtr
      pure (some ({ ret, para, len } : Served))) η s
      ((a.copy = .toUserSized → sizeofSlot * 3 ≤ para.size ∧
        ((slotOf (kdMultiSensorFeatureControl hdr.toSensorHeader world arg.invokeCamera
          { para := para.bytes, aux := fun _ => buf.bytes, len := len } s.calls s.dev).1.2.para
            2).setWidth 32).toNat ≤ a.size) ∧
        sizeofSlot * (a.slot + 1) ≤ para.size) := by
  refine (audit_sensorFeatureControl hdr world hs _ _ _ _).after fun hn hg => ?_
  have hbuf := hb.mono hg
  have hpara := hp.mono hg
  refine Audit.bind (audit_auxOut world a usrPtr hn ?_ ?_ ?_) fun hn hg => ?_
  · exact hbuf
  · exact hpara
  · exact hsize
  · refine (audit_kfree hn _).after fun hn hg' => ?_
    refine Audit.before (audit_writeSlot hn ?_ a.slot usrPtr) fun hn => audit_pure hn _
    exact (hpara.mono hg).mono hg'

/-- What the drivers are handed when the buffer is allocated. -/
theorem answered_aux (a : Aux) {addr : BitVec 64} (haddr : world.env.alloc s.allocs = some addr)
    (para : Buffer) (len : BitVec 32) (η : Stale StackVar) :
    let read := readSlot para a.slot η s
    let buf := clearedBuffer world.env read.2 addr a.fill a.size
    let written := writeSlot para a.slot addr η (afterFill read.2 a.size)
    let copied := auxIn world a read.1 buf η written.2
    (answered hdr world arg (.aux a) s para.bytes len).2 =
      (kdMultiSensorFeatureControl hdr.toSensorHeader world arg.invokeCamera
        { para := written.1.bytes, aux := fun _ => copied.1.bytes, len := len } copied.2.calls
        copied.2.dev).1.2 := by
  obtain ⟨slot, size, fill, copy⟩ := a
  have hbuf : bufferAddr world.env s.allocs 0 = addr := by simp [bufferAddr, haddr]
  unfold answered
  rw [handed, hbuf]
  cases copy with
  | fromUser => rfl
  | toUser => rfl
  | toUserSized => rfl

theorem audit_serveAux (a : Aux) (hs : Numbered s) {para : Buffer} (hp : Held s para)
    (len : BitVec 32) :
    Audit (serveAux hdr world a arg para len) η s
      (SlotsFit hdr world arg (.aux a) s para len) := by
  let read := readSlot para a.slot η s
  cases haddr : world.env.alloc s.allocs with
  | none =>
    refine Audit.congr (c := sizeofSlot * (a.slot + 1) ≤ para.size)
      ?_ (by simp [SlotsFit, buffersAllocated, haddr])
    refine (audit_readSlot hs hp a.slot).before fun hn => ?_
    refine audit_kmalloc_memset world.env hn (fun _ hn => audit_pure hn _) fun addr hsome => ?_
    exact absurd (hsome.symm.trans haddr) (by simp)
  | some addr =>
    let buf := clearedBuffer world.env read.2 addr a.fill a.size
    let written := writeSlot para a.slot addr η (afterFill read.2 a.size)
    let copied := auxIn world a read.1 buf η written.2
    obtain ⟨hid, hsize⟩ := auxIn_buffer world a read.1 buf η written.2
    have hanswer := answered_aux hdr world arg a haddr para len η
    refine Audit.congr (c := sizeofSlot * (a.slot + 1) ≤ para.size ∧
      sizeofSlot * (a.slot + 1) ≤ para.size ∧
      (a.copy = .toUserSized → sizeofSlot * 3 ≤ para.size ∧
        ((slotOf (answered hdr world arg (.aux a) s para.bytes len).2.para 2).setWidth 32).toNat ≤
          a.size) ∧
        sizeofSlot * (a.slot + 1) ≤ para.size) ?_ ?_
    · rw [hanswer]
      refine (audit_readSlot hs hp a.slot).bind fun hn hg => ?_
      have hp := hp.mono hg
      refine audit_kmalloc_memset world.env hn (fun hnone => ?_) fun addr' hsome hn hbuf hg => ?_
      · exact absurd (hnone.symm.trans haddr) (by simp)
      · obtain rfl : addr' = addr := Option.some.inj (hsome.symm.trans haddr)
        have hp := hp.mono hg
        refine (audit_writeSlot hn hp a.slot addr').bind fun hn hg => ?_
        refine (audit_auxIn world a read.1 hn (hbuf.mono hg) rfl).after fun hn hg' => ?_
        have hheld : Held copied.2 copied.1 := by
          rw [Held, hid, hsize]
          exact (hbuf.mono hg).mono hg'
        refine audit_auxAsk hdr world arg a read.1 hn hheld ?_ hsize.symm len
        exact (hp.mono hg).mono hg'
    · simp only [SlotsFit, buffersAllocated, haddr, Option.isSome_some, true_imp_iff]
      constructor
      · rintro ⟨hslot, -, hsized, -⟩
        exact ⟨hslot, hsized⟩
      · rintro ⟨hslot, hsized⟩
        exact ⟨hslot, hslot, hsized, hslot⟩

theorem audit_serve (hs : Numbered s) {para : Buffer} (hp : Held s para) (len : BitVec 32) :
    Audit (serve hdr world arg para len) η s
      (SlotsFit hdr world arg (exchange hdr (hdr.feature arg.featureId)) s para len) := by
  unfold serve
  cases exchange hdr (hdr.feature arg.featureId) with
  | value => exact audit_serveValue hdr world arg hs hp len
  | values => exact audit_serveValues hdr world arg hs hp len
  | aux a => exact audit_serveAux hdr world arg a hs hp len
  | plain =>
    refine (audit_sensorFeatureControl hdr world hs _ _ _ _).after fun hn _ => ?_
    exact audit_pure hn _

end Serve

/-! ## Copying in and back -/

section Copies

variable (hdr : FeatureHeader) (world : World) (arg : FeatureControlArg)
  {η : Stale StackVar} {s : Kernel Sensors}

theorem audit_setNewSensorExpGain (hs : Numbered s) (f : SensorSync → SensorSync) :
    Audit (setNewSensorExpGain f) η s True :=
  audit_of_heap hs rfl rfl

theorem audit_issueCommands (cs : List SyncCommand) (hs : Numbered s) (len : BitVec 32) :
    Audit (issueCommands hdr world cs len) η s True := by
  induction cs generalizing s len with
  | nil => exact audit_pure hs _
  | cons c cs ih =>
    refine (audit_featureControl hdr world hs _ _).after fun hn _ => ?_
    exact ih hn _

theorem audit_kdSetExpGain (hs : Numbered s) (invokeCamera : BitVec 32) :
    Audit (kdSetExpGain hdr world invokeCamera) η s True := by
  refine Audit.after (audit_of_heap hs rfl rfl) fun hn _ => ?_
  refine (audit_featureControl hdr world hn _ _).after fun hn _ => ?_
  refine (audit_featureControl hdr world hn _ _).after fun hn _ => ?_
  exact audit_of_heap hn rfl rfl

theorem audit_resetBefore (hs : Numbered s) (feature : Feature) :
    Audit (resetBefore feature) η s True := by
  unfold resetBefore
  refine (Audit.ite (fun _ => audit_setNewSensorExpGain hs _) fun _ => audit_pure hs _).congr ?_
  exact iff_of_eq (ite_self True)

theorem copies_resetBefore (f : Feature) : (resetBefore f η s).2.copies = s.copies := by
  unfold resetBefore
  split <;> rfl

def MemberFits (size : Nat) (m : SyncMember) : Prop := hdr.syncOffset m + m.width ≤ size

/-- A member is read before others. -/
theorem audit_readMember {α : Type} {w : Nat} (hs : Numbered s) {para : Buffer} (hp : Held s para)
    (m : SyncMember) {ms : List SyncMember} {f : BitVec w → SensorM α}
    (hf : ∀ v t, Numbered t → Held t para →
      Audit (f v) η t (∀ k ∈ ms, MemberFits hdr para.size k)) :
    Audit (readMember hdr para m >>= f) η s (∀ k ∈ m :: ms, MemberFits hdr para.size k) := by
  refine Audit.congr ?_ List.forall_mem_cons.symm
  have hread : Audit (readMember (w := w) hdr para m) η s (MemberFits hdr para.size m) :=
    (audit_read hs hp (hdr.syncOffset m) m.width).before fun hn => audit_pure hn _
  exact hread.bind fun hn hg => hf _ _ hn (hp.mono hg)

/-- The members that a feature reads. -/
def membersRead : Feature → List SyncMember
  | .setSensorSync => [.u2SensorNewExpTime, .u2SensorNewGain, .u2ISPNewRGain, .u2ISPNewGrGain,
      .u2ISPNewGbGain, .u2ISPNewBGain, .uSensorExpDelayFrame, .uSensorGainDelayFrame,
      .uISPGainDelayFrame]
  | .setEshutterGain => [.u2SensorNewExpTime, .u2SensorNewGain]
  | _ => []

theorem audit_readSensorSync (hs : Numbered s) {para : Buffer} (hp : Held s para) :
    Audit (readSensorSync hdr para) η s
      (∀ m ∈ membersRead .setSensorSync, MemberFits hdr para.size m) := by
  refine audit_readMember hdr hs hp _ fun _ t hs hp => ?_
  refine audit_readMember hdr hs hp _ fun _ t hs hp => ?_
  refine audit_readMember hdr hs hp _ fun _ t hs hp => ?_
  refine audit_readMember hdr hs hp _ fun _ t hs hp => ?_
  refine audit_readMember hdr hs hp _ fun _ t hs hp => ?_
  refine audit_readMember hdr hs hp _ fun _ t hs hp => ?_
  refine audit_readMember hdr hs hp _ fun _ t hs hp => ?_
  refine audit_readMember hdr hs hp _ fun _ t hs hp => ?_
  refine audit_readMember hdr hs hp _ fun _ t hs hp => ?_
  exact (audit_pure hs _).congr (by simp)

/-- The members are read when the parameters have arrived. -/
def SyncFits (copies : Nat) (len : BitVec 32) (size : Nat) : Prop :=
  len.toNat ≤ (world.env.copy copies).copied →
    ∀ m ∈ membersRead (hdr.feature arg.featureId), MemberFits hdr size m

theorem audit_copyPara (hs : Numbered s) {para : Buffer} (hp : Held s para) {len : BitVec 32}
    (hsize : len.toNat ≤ para.size) : Audit (copyPara world arg para len) η s True := by
  refine audit_copyIn_bind world.env hs hp arg.pFeaturePara hsize (fun _ para t hn hp _ => ?_)
    fun _ para missing t hne hn => ?_
  · exact audit_pure hn _
  · simp only [if_pos hne]
    exact (audit_kfree hn _).after fun hn _ => audit_pure hn _

/-- The common part of the two requests that read members. -/
theorem audit_copySync {ms : List SyncMember} (hs : Numbered s) {para : Buffer}
    (hp : Held s para) {len : BitVec 32} (hsize : len.toNat ≤ para.size)
    {f : Buffer × Nat → SensorM (Option (Buffer × BitVec 32))}
    (hmissing : ∀ para missing, missing ≠ 0 → f (para, missing) = pure none)
    (hf : ∀ para t, Numbered t → Held t para →
      Audit (f (para, 0)) η t (∀ m ∈ ms, MemberFits hdr para.size m)) :
    Audit (para.copyIn world.env arg.pFeaturePara len.toNat >>= f) η s
      (len.toNat ≤ (world.env.copy s.copies).copied →
        ∀ m ∈ ms, MemberFits hdr para.size m) := by
  refine audit_copyIn_bind world.env hs hp arg.pFeaturePara hsize
    (fun hwhole para' t hn hp hsize => ?_) fun hshort para' missing t hne hn => ?_
  · rw [← hsize]
    exact (hf para' t hn hp).congr ⟨fun h _ => h, fun h => h hwhole⟩
  · rw [hmissing para' missing hne]
    exact (audit_pure hn _).congr (forall_prop_of_false hshort).symm

theorem audit_copySensorSync (hs : Numbered s) {para : Buffer} (hp : Held s para)
    {len : BitVec 32} (hsize : len.toNat ≤ para.size) :
    Audit (copySensorSync hdr world arg para len) η s
      (len.toNat ≤ (world.env.copy s.copies).copied →
        ∀ m ∈ membersRead .setSensorSync, MemberFits hdr para.size m) := by
  refine audit_copySync hdr world arg hs hp hsize (fun para missing hne => if_pos hne)
    fun para t hn hp => ?_
  refine (audit_readSensorSync hdr hn hp).before fun hn => ?_
  refine (audit_setNewSensorExpGain hn _).after fun hn _ => ?_
  exact (audit_issueCommands hdr world _ hn _).after fun hn _ => audit_pure hn _

theorem audit_copyEshutterGain (hs : Numbered s) {para : Buffer} (hp : Held s para)
    {len : BitVec 32} (hsize : len.toNat ≤ para.size) :
    Audit (copyEshutterGain hdr world arg para len) η s
      (len.toNat ≤ (world.env.copy s.copies).copied →
        ∀ m ∈ membersRead .setEshutterGain, MemberFits hdr para.size m) := by
  refine audit_copySync hdr world arg hs hp hsize (fun para missing hne => if_pos hne)
    fun para t hn hp => ?_
  refine audit_readMember hdr hn hp _ fun _ t hn hp => ?_
  refine audit_readMember hdr hn hp _ fun _ t hn hp => ?_
  refine Audit.congr (c := True) ?_ (by simp)
  refine (audit_setNewSensorExpGain hn _).after fun hn _ => ?_
  exact (audit_kdSetExpGain hdr world hn _).after fun hn _ => audit_pure hn _

theorem membersRead_other {f : Feature} (hsync : f ≠ .setSensorSync)
    (hexp : f ≠ .setEshutterGain) : membersRead f = [] := by
  cases f with
  | setSensorSync => exact absurd rfl hsync
  | setEshutterGain => exact absurd rfl hexp
  | _ => rfl

/-- The parameters that are copied as they are have no members. -/
theorem membersRead_of_copiedIn {f : Feature} (h : f.copiedIn = true) : membersRead f = [] :=
  membersRead_other (fun hf => by rw [hf] at h; cases h) fun hf => by rw [hf] at h; cases h

theorem audit_copyParaIn (hs : Numbered s) {para : Buffer} (hp : Held s para) {len : BitVec 32}
    (hsize : len.toNat ≤ para.size) :
    Audit (copyParaIn hdr world arg para len) η s
      (SyncFits hdr world arg s.copies len para.size) := by
  unfold SyncFits
  refine (audit_resetBefore hs (hdr.feature arg.featureId)).after fun hn hg => ?_
  have hp := hp.mono hg
  have hcopies := copies_resetBefore (η := η) (s := s) (hdr.feature arg.featureId)
  by_cases hin : (hdr.feature arg.featureId).copiedIn = true
  · rw [if_pos hin]
    refine (audit_copyPara world arg hn hp hsize).congr ?_
    simp [membersRead_of_copiedIn hin]
  · rw [if_neg hin]
    by_cases hsync : hdr.feature arg.featureId = .setSensorSync
    · have hread := audit_copySensorSync (η := η) hdr world arg hn hp hsize
      rw [hcopies, ← hsync] at hread
      rw [if_pos hsync]
      exact hread
    · rw [if_neg hsync]
      by_cases hexp : hdr.feature arg.featureId = .setEshutterGain
      · have hread := audit_copyEshutterGain (η := η) hdr world arg hn hp hsize
        rw [hcopies, ← hexp] at hread
        rw [if_pos hexp]
        exact hread
      · rw [if_neg hexp]
        exact (audit_pure hn _).congr (by simp [membersRead_other hsync hexp])

theorem audit_copyParaOut (hs : Numbered s) {served : Served}
    (hp : (hdr.feature arg.featureId).copiedBack = true → Held s served.para) :
    Audit (copyParaOut hdr world arg served) η s
      ((hdr.feature arg.featureId).copiedBack = true →
        served.len.toNat ≤ served.para.size) := by
  have hback : Audit (copyParaBack hdr world arg served) η s
      ((hdr.feature arg.featureId).copiedBack = true →
        served.len.toNat ≤ served.para.size) := by
    unfold copyParaBack
    by_cases h : (hdr.feature arg.featureId).copiedBack = true
    · rw [if_pos h]
      exact (audit_copyOut world.env hs (hp h) _ _).congr ⟨fun hle _ => hle, fun hle => hle h⟩
    · rw [if_neg h]
      exact (audit_pure hs _).congr (forall_prop_of_false h).symm
  refine hback.before fun hn => (audit_kfree hn _).after fun hn _ => ?_
  refine Audit.congr (Audit.ite (fun _ => audit_pure hn _) fun _ => ?_) (iff_of_eq (ite_self True))
  refine Audit.after (audit_of_heap hn rfl rfl) fun hn _ => ?_
  exact Audit.congr (Audit.ite (fun _ => audit_pure hn _) fun _ => audit_pure hn _)
    (iff_of_eq (ite_self True))

end Copies

/-! ## The request -/

section Request

variable (hdr : FeatureHeader) (world : World) (arg : FeatureControlArg)
  {η : Stale StackVar} {s : Kernel Sensors}

/-- The drivers leave a length that the buffer can be copied back with. -/
def LenFits (ex : Exchange) (s : Kernel Sensors) (para : Buffer) (len : BitVec 32) : Prop :=
  (hdr.feature arg.featureId).copiedBack = true → buffersAllocated world.env s.allocs ex = true →
    (answered hdr world arg ex s para.bytes len).2.len.toNat ≤ para.size

theorem audit_serveOut (hs : Numbered s) {para : Buffer} (hp : Held s para) (len : BitVec 32) :
    Audit (do
      match ← serve hdr world arg para len with
      | none => pure (-ENOMEM)
      | some served => copyParaOut hdr world arg served) η s
      (SlotsFit hdr world arg (exchange hdr (hdr.feature arg.featureId)) s para len ∧
        LenFits hdr world arg (exchange hdr (hdr.feature arg.featureId)) s para len) := by
  have hresult := serve_result hdr world arg η s para len
  refine (audit_serve hdr world arg hs hp len).bind fun hn hg => ?_
  rw [hresult, servedAs]
  by_cases halloc : buffersAllocated world.env s.allocs
      (exchange hdr (hdr.feature arg.featureId)) = true
  · rw [if_pos halloc]
    refine (audit_copyParaOut hdr world arg hn fun _ => ?_).congr ?_
    · exact hp.mono hg
    · exact ⟨fun h hback _ => h hback, fun h hback => h hback halloc⟩
  · rw [if_neg halloc]
    exact (audit_pure hn _).congr (iff_of_true trivial fun _ h => absurd h halloc)

/-- Parameters that nobody looks at. -/
theorem audit_plainOut (hs : Numbered s)
    (hplain : exchange hdr (hdr.feature arg.featureId) = .plain)
    (hback : (hdr.feature arg.featureId).copiedBack = false) (para : Buffer) (len : BitVec 32) :
    Audit (do
      match ← serve hdr world arg para len with
      | none => pure (-ENOMEM)
      | some served => copyParaOut hdr world arg served) η s True := by
  have hserve : serve hdr world arg para len = servePlain hdr world arg para len := by
    unfold serve
    rw [hplain]
  have hplainly : Audit (servePlain hdr world arg para len) η s True :=
    (audit_sensorFeatureControl hdr world hs _ _ _ _).after fun hn _ => audit_pure hn _
  rw [hserve]
  refine hplainly.after fun hn _ => ?_
  refine (audit_copyParaOut hdr world arg hn fun h => ?_).congr (by simp [hback])
  simp [hback] at h

/-- The requests that change the kept exposure and gain. -/
def Feature.changesExpGain : Feature → Bool
  | .setEshutter | .setGain | .setSensorSync | .setEshutterGain => true
  | _ => false

theorem exchange_of_changes {f : Feature} (h : f.changesExpGain = true) :
    exchange hdr f = .plain ∧ f.copiedBack = false := by
  cases f with
  | setEshutter => exact ⟨rfl, rfl⟩
  | setGain => exact ⟨rfl, rfl⟩
  | setSensorSync => exact ⟨rfl, rfl⟩
  | setEshutterGain => exact ⟨rfl, rfl⟩
  | _ => cases h

theorem membersRead_of_keeps {f : Feature} (h : f.changesExpGain = false) : membersRead f = [] :=
  membersRead_other (fun hf => by rw [hf] at h; cases h) fun hf => by rw [hf] at h; cases h

/-- The other requests copy the parameters, or do not. -/
theorem copyParaIn_of_keeps (h : (hdr.feature arg.featureId).changesExpGain = false)
    (para : Buffer) (len : BitVec 32) :
    copyParaIn hdr world arg para len =
      if (hdr.feature arg.featureId).copiedIn then copyPara world arg para len
      else pure (some (para, len)) := by
  unfold copyParaIn resetBefore
  cases hf : hdr.feature arg.featureId with
  | setEshutter => simp [hf, Feature.changesExpGain] at h
  | setGain => simp [hf, Feature.changesExpGain] at h
  | setSensorSync => simp [hf, Feature.changesExpGain] at h
  | setEshutterGain => simp [hf, Feature.changesExpGain] at h
  | _ => rfl

theorem copyPara_whole {para : Buffer} {len : BitVec 32}
    (h : len.toNat ≤ (world.env.copy s.copies).copied) :
    copyPara world arg para len η s =
      (some ({ para with
          bytes := fetched world.env s.copies para.bytes arg.pFeaturePara len.toNat }, len),
        { s with
          copies := s.copies + 1
          heap := s.heap ++ [.access para.id 0 len.toNat] }) := by
  have hmissing := para.copyIn_snd world.env arg.pFeaturePara len.toNat s η
  have hzero : ¬ (para.copyIn world.env arg.pFeaturePara len.toNat η s).1.2 ≠ 0 := by omega
  show (if (para.copyIn world.env arg.pFeaturePara len.toNat η s).1.2 ≠ 0 then _ else _ :
    SensorM (Option (Buffer × BitVec 32))) η _ = _
  rw [if_neg hzero]
  rfl

theorem copyPara_short {para : Buffer} {len : BitVec 32}
    (h : ¬ len.toNat ≤ (world.env.copy s.copies).copied) :
    (copyPara world arg para len η s).1 = none := by
  have hmissing := para.copyIn_snd world.env arg.pFeaturePara len.toNat s η
  have hne : (para.copyIn world.env arg.pFeaturePara len.toNat η s).1.2 ≠ 0 := by omega
  show ((if (para.copyIn world.env arg.pFeaturePara len.toNat η s).1.2 ≠ 0 then _ else _ :
    SensorM (Option (Buffer × BitVec 32))) η _).1 = _
  rw [if_pos hne]
  rfl

/-- The parameters behind the first switch. -/
def given (s : Kernel Sensors) (para : Buffer) (len : BitVec 32) : Buffer :=
  if (hdr.feature arg.featureId).copiedIn then
    { para with bytes := fetched world.env s.copies para.bytes arg.pFeaturePara len.toNat }
  else para

def behindGiven (s : Kernel Sensors) : Kernel Sensors :=
  { s with copies := if (hdr.feature arg.featureId).copiedIn then s.copies + 1 else s.copies }

/-- What a request needs of parameters of the given length. -/
def ParaFits (s : Kernel Sensors) (para : Buffer) (len : BitVec 32) : Prop :=
  SyncFits hdr world arg s.copies len para.size ∧
    (((hdr.feature arg.featureId).copiedIn = true →
        len.toNat ≤ (world.env.copy s.copies).copied) →
      SlotsFit hdr world arg (exchange hdr (hdr.feature arg.featureId))
          (behindGiven hdr arg s) (given hdr world arg s para len) len ∧
        LenFits hdr world arg (exchange hdr (hdr.feature arg.featureId))
          (behindGiven hdr arg s) (given hdr world arg s para len) len)

theorem audit_handle (hs : Numbered s) {para : Buffer} (hp : Held s para) {len : BitVec 32}
    (hsize : len.toNat = para.size) :
    Audit (do
      match ← copyParaIn hdr world arg para len with
      | none => pure (-EFAULT)
      | some (para, len) => do
        match ← serve hdr world arg para len with
        | none => pure (-ENOMEM)
        | some served => copyParaOut hdr world arg served) η s
      (ParaFits hdr world arg s para len) := by
  have hcopied := audit_copyParaIn (η := η) hdr world arg hs hp (Nat.le_of_eq hsize)
  cases hchanges : (hdr.feature arg.featureId).changesExpGain with
  | true =>
    obtain ⟨hplain, hback⟩ := exchange_of_changes hdr hchanges
    refine (hcopied.before fun hn => ?_).congr ?_
    · cases hresult : (copyParaIn hdr world arg para len η s).1 with
      | none => exact audit_pure hn _
      | some c => exact audit_plainOut hdr world arg hn hplain hback c.1 c.2
    · simp [ParaFits, hplain, SlotsFit, LenFits, hback]
  | false =>
    have hsync : SyncFits hdr world arg s.copies len para.size := by
      intro _ m hm
      rw [membersRead_of_keeps hchanges] at hm
      cases hm
    rw [copyParaIn_of_keeps hdr world arg hchanges]
    by_cases hin : (hdr.feature arg.featureId).copiedIn = true
    · rw [if_pos hin]
      by_cases hwhole : len.toNat ≤ (world.env.copy s.copies).copied
      · refine (audit_copyPara world arg hs hp (Nat.le_of_eq hsize)).after fun hn hg => ?_
        have hp := hp.mono hg
        rw [copyPara_whole world arg hwhole] at hn hp ⊢
        refine (audit_serveOut hdr world arg hn ?_ len).congr ?_
        · exact hp
        · simp only [ParaFits, given, behindGiven, hin, if_true, hsync, hwhole, true_and,
            true_imp_iff]
          exact Iff.rfl
      · refine (audit_copyPara world arg hs hp (Nat.le_of_eq hsize)).after fun hn hg => ?_
        rw [copyPara_short world arg hwhole]
        exact (audit_pure hn _).congr (by simp [ParaFits, hsync, hin, hwhole])
    · rw [if_neg hin]
      refine Audit.after (audit_pure hs _) fun hn _ => ?_
      refine (audit_serveOut hdr world arg hn hp len).congr ?_
      simp only [ParaFits, given, behindGiven, hin, Bool.false_eq_true, if_false, hsync, true_and,
        false_imp_iff, true_imp_iff]
      exact Iff.rfl

/-- The length that the user gives. -/
def givenLen : BitVec 32 :=
  (fetched world.env 0 Bytes.zero arg.pFeatureParaLen sizeofUint32).u32 0

/-- The pointers are there, and the length can be read. -/
def Accepted : Prop :=
  ¬ ((hdr.feature arg.featureId).withoutPara = false ∧
      (arg.pFeaturePara = 0 ∨ arg.pFeatureParaLen = 0)) ∧
    sizeofUint32 ≤ (world.env.copy 0).copied

/-- The parameters are as long as the request, its answer and the drivers need. -/
def RequestFits (cam : Sensors) : Prop :=
  Accepted hdr world arg → ∀ addr, world.env.alloc 0 = some addr →
    ParaFits hdr world arg { dev := cam, allocs := 1, copies := 1 }
      (clearedBuffer world.env { dev := cam } addr 0 (givenLen world arg).toNat)
      (givenLen world arg)

theorem audit_featureRequest (cam : Sensors) :
    Audit (adoptCameraHwFeatureControl hdr world arg) η { dev := cam }
      (RequestFits hdr world arg cam) := by
  have hs : Numbered ({ dev := cam } : Kernel Sensors) := ⟨by simp, by simp, by simp⟩
  unfold adoptCameraHwFeatureControl
  by_cases hguard : (hdr.feature arg.featureId).withoutPara = false ∧
      (arg.pFeaturePara = 0 ∨ arg.pFeatureParaLen = 0)
  · rw [if_pos hguard]
    exact (audit_pure hs _).congr (iff_of_true trivial fun h => absurd hguard h.1)
  · rw [if_neg hguard]
    have hmissing := copyIn_snd world.env Bytes.zero arg.pFeatureParaLen sizeofUint32
      ({ dev := cam } : Kernel Sensors) η
    refine Audit.after (audit_of_heap hs rfl rfl) fun hn _ => ?_
    by_cases hwhole : sizeofUint32 ≤ (world.env.copy 0).copied
    · have hzero : ¬ (Linux.copyIn world.env Bytes.zero arg.pFeatureParaLen sizeofUint32 η
          ({ dev := cam } : Kernel Sensors)).1.2 ≠ 0 := by
        rw [hmissing]
        simpa using Nat.sub_eq_zero_of_le hwhole
      have haccepted : RequestFits hdr world arg cam ↔ ∀ addr, world.env.alloc 0 = some addr →
          ParaFits hdr world arg { dev := cam, allocs := 1, copies := 1 }
            (clearedBuffer world.env { dev := cam } addr 0 (givenLen world arg).toNat)
            (givenLen world arg) :=
        forall_prop_of_true ⟨hguard, hwhole⟩
      simp only [if_neg hzero]
      refine Audit.congr ?_ haccepted.symm
      refine audit_kmalloc_memset world.env hn (fun hnone hn => ?_)
        fun addr hsome hn hheld hg => ?_
      · have hnone' : world.env.alloc 0 = none := hnone
        exact (audit_pure hn _).congr (by simp [hnone'])
      · have hsome' : world.env.alloc 0 = some addr := hsome
        refine (audit_handle hdr world arg hn hheld rfl).congr ?_
        simp only [hsome', Option.some.injEq, forall_eq']
        exact Iff.rfl
    · have hne : (Linux.copyIn world.env Bytes.zero arg.pFeatureParaLen sizeofUint32 η
          ({ dev := cam } : Kernel Sensors)).1.2 ≠ 0 := by
        rw [hmissing]
        show sizeofUint32 - (world.env.copy 0).copied ≠ 0
        omega
      simp only [if_pos hne]
      exact (audit_pure hn _).congr (iff_of_true trivial fun h => absurd h.2 hwhole)

/-- Every access of a request is inside its buffer exactly when the parameters are
long enough. -/
theorem featureControl_inBounds_iff (hdr : FeatureHeader) (world : World)
    (arg : FeatureControlArg) (stale : Stale StackVar) (cam : Sensors) :
    InBounds (adoptCameraHwFeatureControl hdr world arg stale { dev := cam }).2.heap ↔
      RequestFits hdr world arg cam := by
  rw [(audit_featureRequest hdr world arg cam).inBounds_iff]
  have hempty : InBounds ({ dev := cam } : Kernel Sensors).heap := by
    intro id off n h
    cases h
  exact and_iff_right hempty

end Request

def cropHeader : CameraHeader := { resolutionHeader with feature := fun _ => .getCropInfo }

/-- The length at 0x4002 is 0. -/
def emptyCrop : FeatureControlArg :=
  { invokeCamera := 1, featureId := 0, pFeaturePara := 0x4000, pFeatureParaLen := 0x4002 }

/-- The user pointer in slot 1 is read from parameters without a byte. -/
theorem slot_outside :
    ¬ InBounds (adoptCameraHwFeatureControl cropHeader.toFeatureHeader quietWorld emptyCrop
      (staleOf 0) { dev := bootSensors }).2.heap := by
  intro h
  have hlog : (adoptCameraHwFeatureControl cropHeader.toFeatureHeader quietWorld emptyCrop
      (staleOf 0) { dev := bootSensors }).2.heap =
        [.alloc 0 0, .access 0 0 0, .access 0 0 0, .access 0 8 8, .alloc 1 4, .access 1 0 4,
          .access 0 8 8, .access 1 0 4, .free 1, .access 0 8 8, .access 0 0 0, .free 0] := by
    decide
  rw [hlog] at h
  obtain ⟨size, hsize, hle⟩ := h 0 8 8 (by decide)
  have hzero : size = 0 := by simpa using hsize
  omega

end Camera
end AtomDrivers
