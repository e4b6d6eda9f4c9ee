/-
The buffers of a feature request.

The parameters and the buffers they point to are allocated one after the other, and
each early return frees what its author thought of.  A payload of the vertical sync
that does not arrive leaves the parameters behind, and so does every allocation that
fails after theirs.
-/
import AtomDrivers.Linux.Live
import AtomDrivers.Camera.Bounds

namespace AtomDrivers
namespace Camera

open Linux Routine

section Steps

variable (hdr : FeatureHeader) (world : World) {η : Stale StackVar} {s : Kernel Sensors}

theorem logs_walk {α : Type} (f : Nat → Sensors → α × Sensors) : Logs (walk f) η s [] 0 :=
  logs_modifyGet rfl rfl

theorem logs_featureControl (invokeCamera : BitVec 32) (p : FeaturePara) :
    Logs (featureControl hdr.toSensorHeader world invokeCamera p) η s [] 0 :=
  logs_walk _

theorem logs_sensorFeatureControl (invokeCamera : BitVec 32) (para : Buffer) (aux : Nat → Bytes)
    (len : BitVec 32) :
    Logs (sensorFeatureControl hdr world invokeCamera para aux len) η s [] 0 :=
  (logs_featureControl hdr world invokeCamera _).after (logs_pure _)

theorem logs_readSlot (para : Buffer) (slot : Nat) : Logs (readSlot para slot) η s [] 0 :=
  (logs_read para _ _).after (logs_pure _)

theorem logs_writeSlot (para : Buffer) (slot : Nat) (value : BitVec 64) :
    Logs (writeSlot para slot value) η s [] 0 :=
  logs_write para _ _

theorem logs_readMember {w : Nat} (para : Buffer) (m : SyncMember) :
    Logs (readMember hdr para m : SensorM (BitVec w)) η s [] 0 :=
  (logs_read para _ _).after (logs_pure _)

theorem logs_issueCommands (cs : List SyncCommand) (len : BitVec 32) :
    Logs (issueCommands hdr world cs len) η s [] 0 := by
  induction cs generalizing s len with
  | nil => exact logs_pure _
  | cons c cs ih => exact (logs_featureControl hdr world _ _).after (ih _)

theorem logs_setNewSensorExpGain (f : SensorSync → SensorSync) :
    Logs (setNewSensorExpGain f) η s [] 0 :=
  logs_modifyGet rfl rfl

theorem logs_kdSetExpGain (invokeCamera : BitVec 32) :
    Logs (kdSetExpGain hdr world invokeCamera) η s [] 0 := by
  refine Logs.after (logs_modifyGet rfl rfl) ?_
  refine (logs_featureControl hdr world _ _).after ?_
  exact (logs_featureControl hdr world _ _).after (logs_modifyGet rfl rfl)

end Steps

/-! ## Asking the drivers -/

section Serve

variable (hdr : FeatureHeader) (world : World) (arg : FeatureControlArg)
  {η : Stale StackVar} {s : Kernel Sensors}

/-- The numbers of the buffers that an exchange asks for. -/
def askedFor (allocs : Nat) : Exchange → List Nat
  | .value | .aux _ => [allocs]
  | .values => [allocs, allocs + 1]
  | .plain => []

/-- The buffers are freed when all of them are there. -/
def exchangeEntries (env : Env) (allocs : Nat) (ex : Exchange) : List (Entry Nat) :=
  (askedFor allocs ex).flatMap (acquired env) ++
    if buffersAllocated env allocs ex then (askedFor allocs ex).map .release else []

theorem logs_serveValue (para : Buffer) (len : BitVec 32) :
    Logs (serveValue hdr world arg para len) η s (exchangeEntries world.env s.allocs .value) 1 := by
  cases haddr : world.env.alloc s.allocs with
  | none =>
    have hes : exchangeEntries world.env s.allocs .value = [] := by
      simp [exchangeEntries, askedFor, buffersAllocated, acquired, haddr]
    rw [hes]
    exact logs_kmalloc_memset_none world.env haddr (logs_pure _)
  | some addr =>
    have hes : exchangeEntries world.env s.allocs .value =
        [.acquire s.allocs, .release s.allocs] := by
      simp [exchangeEntries, askedFor, buffersAllocated, acquired, haddr]
    rw [hes]
    refine logs_kmalloc_memset_some (k := 0) world.env haddr ?_
    refine (logs_writeSlot para 1 _).after ?_
    refine (logs_sensorFeatureControl hdr world _ _ _ _).after ?_
    refine (logs_writeSlot _ 1 _).after ?_
    exact (logs_kfree rfl).before (logs_pure _)

theorem logs_auxIn (a : Aux) (usrPtr : BitVec 64) (buf : Buffer) :
    Logs (auxIn world a usrPtr buf) η s [] 0 := by
  unfold auxIn
  split
  · exact (logs_copyIn world.env buf usrPtr a.size).after (logs_pure _)
  · exact logs_pure _

theorem logs_auxOut (a : Aux) (usrPtr : BitVec 64) (buf para : Buffer) :
    Logs (auxOut world a usrPtr buf para) η s [] 0 := by
  unfold auxOut
  split
  · exact logs_pure _
  · exact (logs_copyOut world.env buf usrPtr a.size).after (logs_pure _)
  · refine (logs_readSlot para 2).after ?_
    exact (logs_copyOut world.env buf usrPtr _).after (logs_pure _)

theorem logs_serveAux (a : Aux) (para : Buffer) (len : BitVec 32) :
    Logs (serveAux hdr world a arg para len) η s
      (exchangeEntries world.env s.allocs (.aux a)) 1 := by
  -- the user's pointer is read before the allocation
  let read := readSlot para a.slot η s
  refine (logs_readSlot para a.slot).after ?_
  cases haddr : world.env.alloc s.allocs with
  | none =>
    have hes : exchangeEntries world.env s.allocs (.aux a) = [] := by
      simp [exchangeEntries, askedFor, buffersAllocated, acquired, haddr]
    rw [hes]
    exact logs_kmalloc_memset_none world.env (s := read.2) haddr (logs_pure _)
  | some addr =>
    have hes : exchangeEntries world.env s.allocs (.aux a) =
        [.acquire s.allocs, .release s.allocs] := by
      simp [exchangeEntries, askedFor, buffersAllocated, acquired, haddr]
    have hid (buf : Buffer) (t : Kernel Sensors) : (auxIn world a read.1 buf η t).1.id = buf.id :=
      (auxIn_buffer world a read.1 buf η t).1
    rw [hes]
    refine logs_kmalloc_memset_some (s := read.2) (k := 0) world.env haddr ?_
    refine (logs_writeSlot para a.slot _).after ?_
    refine (logs_auxIn world a _ _).after ?_
    refine (logs_sensorFeatureControl hdr world _ _ _ _).after ?_
    refine (logs_auxOut world a _ _ _).after ?_
    refine (logs_kfree (hid _ _)).before ?_
    exact (logs_writeSlot _ a.slot _).after (logs_pure _)

theorem logs_askValues (para : Buffer) (len : BitVec 32) {pValue0 pValue1 : Buffer} {id0 id1 : Nat}
    (h0 : pValue0.id = id0) (h1 : pValue1.id = id1) :
    Logs (askValues hdr world arg para len pValue0 pValue1) η s
      [.release id0, .release id1] 0 := by
  refine (logs_memset pValue1 0 sizeofUint32).after ?_
  refine (logs_memset pValue0 0 sizeofUint32).after ?_
  refine (logs_writeSlot para 0 _).after ?_
  refine (logs_writeSlot _ 1 _).after ?_
  refine (logs_sensorFeatureControl hdr world _ _ _ _).after ?_
  refine (logs_writeSlot _ 0 _).after ?_
  refine (logs_writeSlot _ 1 _).after ?_
  refine (logs_kfree h0).bind (n := 0) (k := 0) ?_
  exact (logs_kfree h1).before (logs_pure _)

theorem logs_serveValues (para : Buffer) (len : BitVec 32) :
    Logs (serveValues hdr world arg para len) η s
      (exchangeEntries world.env s.allocs .values) 2 := by
  let first := kmalloc world.env sizeofUint32 η s
  let second := kmalloc world.env sizeofUint32 η first.2
  have hallocs : first.2.allocs = s.allocs + 1 := allocs_kmalloc world.env sizeofUint32
  have hsome0 : first.1.isSome = (world.env.alloc s.allocs).isSome :=
    isSome_kmalloc world.env sizeofUint32
  have hsome1 : second.1.isSome = (world.env.alloc (s.allocs + 1)).isSome :=
    hallocs ▸ isSome_kmalloc world.env sizeofUint32
  have h0 : Logs (kmalloc world.env sizeofUint32) η s (acquired world.env s.allocs) 1 :=
    logs_kmalloc world.env sizeofUint32
  have h1 : Logs (kmalloc world.env sizeofUint32) η first.2
      (acquired world.env (s.allocs + 1)) 1 := hallocs ▸ logs_kmalloc world.env sizeofUint32
  have hes : exchangeEntries world.env s.allocs .values =
      acquired world.env s.allocs ++ (acquired world.env (s.allocs + 1) ++
        if buffersAllocated world.env s.allocs .values then
          [.release s.allocs, .release (s.allocs + 1)] else []) := by
    simp [exchangeEntries, askedFor]
  rw [hes]
  refine h0.bind (k := 1) (h1.bind (k := 0) ?_)
  rcases hb0 : (kmalloc world.env sizeofUint32 η s).1 with _ | b0
  · have hnone : buffersAllocated world.env s.allocs .values = false := by
      simp [buffersAllocated, ← hsome0, first, hb0]
    rw [hnone]
    exact logs_pure _
  · rcases hb1 : (kmalloc world.env sizeofUint32 η
      (kmalloc world.env sizeofUint32 η s).2).1 with _ | b1
    · have hnone : buffersAllocated world.env s.allocs .values = false := by
        simp [buffersAllocated, ← hsome1, second, first, hb1]
      rw [hnone]
      exact logs_pure _
    · have hboth : buffersAllocated world.env s.allocs .values = true := by
        simp [buffersAllocated, ← hsome0, ← hsome1, first, second, hb0, hb1]
      have hid0 : b0.id = s.allocs := kmalloc_id world.env hb0
      have hid1 : b1.id = s.allocs + 1 := (kmalloc_id world.env hb1).trans hallocs
      rw [hboth]
      exact logs_askValues hdr world arg para len hid0 hid1

theorem logs_serve (para : Buffer) (len : BitVec 32) :
    Logs (serve hdr world arg para len) η s
      (exchangeEntries world.env s.allocs (exchange hdr (hdr.feature arg.featureId)))
      (askedFor s.allocs (exchange hdr (hdr.feature arg.featureId))).length := by
  unfold serve
  cases exchange hdr (hdr.feature arg.featureId) with
  | value => exact logs_serveValue hdr world arg para len
  | values => exact logs_serveValues hdr world arg para len
  | aux a => exact logs_serveAux hdr world arg a para len
  | plain => exact (logs_sensorFeatureControl hdr world _ _ _ _).after (logs_pure _)

end Serve

/-! ## Copying in and back -/

section Copies

variable (hdr : FeatureHeader) (world : World) (arg : FeatureControlArg)
  {η : Stale StackVar} {s : Kernel Sensors} {para : Buffer} {len : BitVec 32}

/-- The parameters of the request are copied from the user. -/
def Feature.fetches (f : Feature) : Prop :=
  f.copiedIn = true ∨ f = .setSensorSync ∨ f = .setEshutterGain

/-- A request whose fault leaves the parameters behind. -/
def Feature.forgets (f : Feature) : Prop := f = .setSensorSync ∨ f = .setEshutterGain

instance (f : Feature) : Decidable f.fetches := inferInstanceAs (Decidable (_ ∨ _))

instance (f : Feature) : Decidable f.forgets := inferInstanceAs (Decidable (_ ∨ _))

/-- The entries of a computation that hands the parameters on. -/
structure HandsOn (m : SensorM (Option (Buffer × BitVec 32))) (η : Stale StackVar)
    (s : Kernel Sensors) (id : Nat) : Prop where
  logs : Logs m η s [] 0
  some : ∃ para len, (m η s).1 = some (para, len) ∧ para.id = id

/-- The entries of one that stops. -/
structure Stops (m : SensorM (Option (Buffer × BitVec 32))) (η : Stale StackVar)
    (s : Kernel Sensors) (es : List (Entry Nat)) : Prop where
  logs : Logs m η s es 0
  none : (m η s).1 = none

theorem handsOn_pure : HandsOn (pure (some (para, len))) η s para.id :=
  ⟨logs_pure _, para, len, rfl, rfl⟩

theorem HandsOn.after {α : Type} {m : SensorM α} {f : α → SensorM (Option (Buffer × BitVec 32))}
    {id : Nat} (hm : Logs m η s [] 0) (hf : HandsOn (f (m η s).1) η (m η s).2 id) :
    HandsOn (m >>= f) η s id :=
  ⟨hm.after hf.logs, hf.some⟩

theorem Stops.after {α : Type} {m : SensorM α} {f : α → SensorM (Option (Buffer × BitVec 32))}
    {es : List (Entry Nat)} (hm : Logs m η s [] 0) (hf : Stops (f (m η s).1) η (m η s).2 es) :
    Stops (m >>= f) η s es :=
  ⟨hm.after hf.logs, hf.none⟩

theorem handsOn_copyIn {f : Buffer × Nat → SensorM (Option (Buffer × BitVec 32))}
    (h : len.toNat ≤ (world.env.copy s.copies).copied)
    (hf : ∀ para' t, para'.id = para.id → HandsOn (f (para', 0)) η t para.id) :
    HandsOn (para.copyIn world.env arg.pFeaturePara len.toNat >>= f) η s para.id := by
  have hmissing := para.copyIn_snd world.env arg.pFeaturePara len.toNat s η
  have hzero : (para.copyIn world.env arg.pFeaturePara len.toNat η s).1.2 = 0 := by omega
  have hpair : (para.copyIn world.env arg.pFeaturePara len.toNat η s).1 =
      ((para.copyIn world.env arg.pFeaturePara len.toNat η s).1.1, 0) := Prod.ext rfl hzero
  refine HandsOn.after (logs_copyIn world.env para arg.pFeaturePara len.toNat) ?_
  rw [hpair]
  exact hf _ _ rfl

theorem stops_copyIn {f : Buffer × Nat → SensorM (Option (Buffer × BitVec 32))}
    {es : List (Entry Nat)} (h : ¬ len.toNat ≤ (world.env.copy s.copies).copied)
    (hf : ∀ para' missing t, missing ≠ 0 → para'.id = para.id →
      Stops (f (para', missing)) η t es) :
    Stops (para.copyIn world.env arg.pFeaturePara len.toNat >>= f) η s es := by
  have hmissing := para.copyIn_snd world.env arg.pFeaturePara len.toNat s η
  have hne : (para.copyIn world.env arg.pFeaturePara len.toNat η s).1.2 ≠ 0 := by omega
  exact Stops.after (logs_copyIn world.env para arg.pFeaturePara len.toNat) (hf _ _ _ hne rfl)

/-- A fault after which nothing is freed. -/
theorem stops_forgetting {f : Buffer × Nat → SensorM (Option (Buffer × BitVec 32))}
    (h : ¬ len.toNat ≤ (world.env.copy s.copies).copied)
    (hf : ∀ para' missing, missing ≠ 0 → f (para', missing) = pure none) :
    Stops (para.copyIn world.env arg.pFeaturePara len.toNat >>= f) η s [] := by
  refine stops_copyIn world arg h fun para' missing t hne _ => ?_
  rw [hf para' missing hne]
  exact ⟨logs_pure _, rfl⟩

theorem logs_readSensorSync : Logs (readSensorSync hdr para) η s [] 0 := by
  refine (logs_readMember hdr para _).after ?_
  refine (logs_readMember hdr para _).after ?_
  refine (logs_readMember hdr para _).after ?_
  refine (logs_readMember hdr para _).after ?_
  refine (logs_readMember hdr para _).after ?_
  refine (logs_readMember hdr para _).after ?_
  refine (logs_readMember hdr para _).after ?_
  refine (logs_readMember hdr para _).after ?_
  exact (logs_readMember hdr para _).after (logs_pure _)

theorem logs_resetBefore (f : Feature) : Logs (resetBefore f) η s [] 0 := by
  unfold resetBefore
  split
  · exact logs_setNewSensorExpGain _
  · exact logs_pure _

/-- Parameters that arrive, or are not needed, are handed on. -/
theorem handsOn_copyParaIn (para : Buffer)
    (h : (hdr.feature arg.featureId).fetches → len.toNat ≤ (world.env.copy s.copies).copied) :
    HandsOn (copyParaIn hdr world arg para len) η s para.id := by
  refine HandsOn.after (logs_resetBefore _) ?_
  rw [← copies_resetBefore (η := η) (s := s) (hdr.feature arg.featureId)] at h
  by_cases hin : (hdr.feature arg.featureId).copiedIn = true
  · rw [if_pos hin]
    refine handsOn_copyIn world arg (h (.inl hin)) fun para' t hid => ?_
    exact hid ▸ handsOn_pure
  rw [if_neg hin]
  by_cases hsync : hdr.feature arg.featureId = .setSensorSync
  · rw [if_pos hsync]
    refine handsOn_copyIn world arg (h (.inr (.inl hsync))) fun para' t hid => ?_
    refine HandsOn.after (logs_readSensorSync hdr) ?_
    refine HandsOn.after (logs_setNewSensorExpGain _) ?_
    exact HandsOn.after (logs_issueCommands hdr world _ _) (hid ▸ handsOn_pure)
  rw [if_neg hsync]
  by_cases hexp : hdr.feature arg.featureId = .setEshutterGain
  · rw [if_pos hexp]
    refine handsOn_copyIn world arg (h (.inr (.inr hexp))) fun para' t hid => ?_
    refine HandsOn.after (logs_readMember hdr para' _) ?_
    refine HandsOn.after (logs_readMember hdr para' _) ?_
    refine HandsOn.after (logs_setNewSensorExpGain _) ?_
    exact HandsOn.after (logs_kdSetExpGain hdr world _) (hid ▸ handsOn_pure)
  · rw [if_neg hexp]
    exact handsOn_pure

/-- A fault frees the parameters in the common case only. -/
theorem stops_copyParaIn (para : Buffer) (hfetches : (hdr.feature arg.featureId).fetches)
    (h : ¬ len.toNat ≤ (world.env.copy s.copies).copied) :
    Stops (copyParaIn hdr world arg para len) η s
      (if (hdr.feature arg.featureId).forgets then [] else [.release para.id]) := by
  refine Stops.after (logs_resetBefore _) ?_
  rw [← copies_resetBefore (η := η) (s := s) (hdr.feature arg.featureId)] at h
  by_cases hin : (hdr.feature arg.featureId).copiedIn = true
  · have hforgets : ¬ (hdr.feature arg.featureId).forgets := by
      rintro (hf | hf) <;> rw [hf] at hin <;> cases hin
    rw [if_pos hin, if_neg hforgets]
    refine stops_copyIn world arg h fun para' missing t hne hid => ?_
    show Stops (if missing ≠ 0 then _ else _) η t _
    rw [if_pos hne]
    exact ⟨(logs_kfree hid).before (logs_pure _), rfl⟩
  rw [if_neg hin]
  by_cases hsync : hdr.feature arg.featureId = .setSensorSync
  · have hforgets : (hdr.feature arg.featureId).forgets := .inl hsync
    rw [if_pos hsync, if_pos hforgets]
    exact stops_forgetting world arg h fun para' missing hne => if_pos hne
  rw [if_neg hsync]
  have hexp : hdr.feature arg.featureId = .setEshutterGain :=
    (hfetches.resolve_left hin).resolve_left hsync
  have hforgets : (hdr.feature arg.featureId).forgets := .inr hexp
  rw [if_pos hexp, if_pos hforgets]
  exact stops_forgetting world arg h fun para' missing hne => if_pos hne

/-- Every path back frees the parameters. -/
theorem logs_copyParaOut {served : Served} {id : Nat} (hid : served.para.id = id) :
    Logs (copyParaOut hdr world arg served) η s [.release id] 0 := by
  have hback : Logs (copyParaBack hdr world arg served) η s [] 0 := by
    unfold copyParaBack
    split
    · exact logs_copyOut world.env _ _ _
    · exact logs_pure _
  refine hback.after ((logs_kfree hid).before ?_)
  split
  · exact logs_pure _
  · exact logs_copyOutThen world.env _ _ _ fun t => logs_pure _

end Copies

/-! ## The request -/

section Request

variable (hdr : FeatureHeader) (world : World) (arg : FeatureControlArg)
  {η : Stale StackVar} {s : Kernel Sensors} {para : Buffer} {len : BitVec 32}

/-- The drivers are asked and the parameters are copied back, if the buffers are there. -/
theorem logs_serveOut (para : Buffer) (len : BitVec 32) :
    Logs (do
      match ← serve hdr world arg para len with
      | none => pure (-ENOMEM)
      | some served => copyParaOut hdr world arg served) η s
      (exchangeEntries world.env s.allocs (exchange hdr (hdr.feature arg.featureId)) ++
        if buffersAllocated world.env s.allocs (exchange hdr (hdr.feature arg.featureId)) then
          [.release para.id] else [])
      (askedFor s.allocs (exchange hdr (hdr.feature arg.featureId))).length := by
  have hresult := serve_result hdr world arg η s para len
  refine (logs_serve hdr world arg para len).bind (k := 0) ?_
  rw [hresult, servedAs]
  by_cases halloc : buffersAllocated world.env s.allocs
      (exchange hdr (hdr.feature arg.featureId)) = true
  · rw [if_pos halloc, if_pos halloc]
    exact logs_copyParaOut hdr world arg rfl
  · rw [if_neg halloc, if_neg halloc]
    exact logs_pure _

/-- Parameters that are copied from the user arrive whole. -/
def Arrives : Prop :=
  (hdr.feature arg.featureId).fetches →
    (givenLen world arg).toNat ≤ (world.env.copy 1).copied

instance : Decidable (Arrives hdr world arg) := inferInstanceAs (Decidable (_ → _))

/-- The entries of a request that is accepted and gets its parameters. -/
def requestEntries : List (Entry Nat) :=
  if Arrives hdr world arg then
    exchangeEntries world.env 1 (exchange hdr (hdr.feature arg.featureId)) ++
      if buffersAllocated world.env 1 (exchange hdr (hdr.feature arg.featureId)) then
        [.release 0] else []
  else if (hdr.feature arg.featureId).forgets then [] else [.release 0]

theorem logs_handle (para : Buffer) (hid : para.id = 0) (hcopies : s.copies = 1)
    (hallocs : s.allocs = 1) :
    ∃ n, Logs (do
      match ← copyParaIn hdr world arg para (givenLen world arg) with
      | none => pure (-EFAULT)
      | some (para, len) => do
        match ← serve hdr world arg para len with
        | none => pure (-ENOMEM)
        | some served => copyParaOut hdr world arg served) η s
      (requestEntries hdr world arg) n := by
  unfold requestEntries
  by_cases harrives : Arrives hdr world arg
  · have hwhole : (hdr.feature arg.featureId).fetches →
        (givenLen world arg).toNat ≤ (world.env.copy s.copies).copied := by
      rw [hcopies]
      exact harrives
    obtain ⟨hlogs, para', len', hsome, hpara⟩ :=
      handsOn_copyParaIn (η := η) hdr world arg para hwhole
    rw [if_pos harrives]
    refine ⟨(askedFor 1 (exchange hdr (hdr.feature arg.featureId))).length, hlogs.after ?_⟩
    rw [hsome]
    have hserve := logs_serveOut (η := η)
      (s := (copyParaIn hdr world arg para (givenLen world arg) η s).2) hdr world
      arg para' len'
    rw [hlogs.allocs, hallocs, hpara, hid] at hserve
    exact hserve
  · obtain ⟨hfetches, hshort⟩ := Classical.not_imp.mp harrives
    obtain ⟨hlogs, hnone⟩ :=
      stops_copyParaIn (η := η) hdr world arg para hfetches (hcopies ▸ hshort)
    rw [if_neg harrives, ← hid]
    refine ⟨0, hlogs.before ?_⟩
    rw [hnone]
    exact logs_pure _

instance : Decidable (Accepted hdr world arg) := inferInstanceAs (Decidable (_ ∧ _))

theorem logs_featureRequest (cam : Sensors) :
    ∃ n, Logs (adoptCameraHwFeatureControl hdr world arg) η { dev := cam }
      (if Accepted hdr world arg ∧ (world.env.alloc 0).isSome then
        .acquire 0 :: requestEntries hdr world arg else []) n := by
  let s : Kernel Sensors := { dev := cam }
  unfold adoptCameraHwFeatureControl
  by_cases hguard : (hdr.feature arg.featureId).withoutPara = false ∧
      (arg.pFeaturePara = 0 ∨ arg.pFeatureParaLen = 0)
  · rw [if_pos hguard, if_neg fun h => h.1.1 hguard]
    exact ⟨0, logs_pure _⟩
  rw [if_neg hguard]
  let read := Linux.copyIn world.env Bytes.zero arg.pFeatureParaLen sizeofUint32 η s
  have hmissing : read.1.2 = sizeofUint32 - (world.env.copy 0).copied :=
    copyIn_snd world.env Bytes.zero arg.pFeatureParaLen sizeofUint32 s η
  have hread : Logs (Linux.copyIn world.env Bytes.zero arg.pFeatureParaLen sizeofUint32) η s [] 0 :=
    logs_modifyGet rfl rfl
  by_cases hwhole : sizeofUint32 ≤ (world.env.copy 0).copied
  · have hzero : ¬ read.1.2 ≠ 0 := by omega
    cases haddr : world.env.alloc 0 with
    | none =>
      refine ⟨1 + 0, hread.after ?_⟩
      show Logs (if read.1.2 ≠ 0 then _ else _) η read.2 _ _
      rw [if_neg hzero, if_neg (by simp)]
      exact logs_kmalloc_memset_none world.env haddr (logs_pure _)
    | some addr =>
      let filled := clearedBuffer world.env read.2 addr 0 (givenLen world arg).toNat
      obtain ⟨n, hhandle⟩ := logs_handle (η := η)
        (s := afterFill read.2 (givenLen world arg).toNat) hdr world arg filled rfl rfl rfl
      refine ⟨1 + n, hread.after ?_⟩
      show Logs (if read.1.2 ≠ 0 then _ else _) η read.2 _ _
      rw [if_neg hzero, if_pos ⟨⟨hguard, hwhole⟩, rfl⟩]
      exact logs_kmalloc_memset_some world.env haddr hhandle
  · have hne : read.1.2 ≠ 0 := by omega
    refine ⟨0, hread.after ?_⟩
    show Logs (if read.1.2 ≠ 0 then _ else _) η read.2 _ _
    rw [if_pos hne, if_neg fun h => hwhole h.1.2]
    exact logs_pure _

/-- The request gets no further than to its parameters, or each of its buffers is there and
its parameters arrive if it would forget them. -/
def Releases : Prop :=
  Accepted hdr world arg → (world.env.alloc 0).isSome →
    ((hdr.feature arg.featureId).forgets → Arrives hdr world arg) ∧
      (Arrives hdr world arg →
        buffersAllocated world.env 1 (exchange hdr (hdr.feature arg.featureId)))

theorem exchangeEntries_allocated {env : Env} {allocs : Nat} {ex : Exchange}
    (h : buffersAllocated env allocs ex = true) :
    exchangeEntries env allocs ex =
      (askedFor allocs ex).map .acquire ++ (askedFor allocs ex).map .release := by
  unfold exchangeEntries
  rw [if_pos h]
  cases ex with
  | value => simp_all [askedFor, acquired, buffersAllocated]
  | aux a => simp_all [askedFor, acquired, buffersAllocated]
  | values => simp_all [askedFor, acquired, buffersAllocated]
  | plain => rfl

/-- Nothing is freed of an exchange that misses a buffer. -/
theorem not_released {env : Env} {allocs : Nat} {ex : Exchange}
    (h : ¬ buffersAllocated env allocs ex = true) (id : Nat) :
    .release id ∉ exchangeEntries env allocs ex := by
  unfold exchangeEntries
  rw [if_neg h, List.append_nil]
  intro hmem
  obtain ⟨k, -, hk⟩ := List.mem_flatMap.mp hmem
  unfold acquired at hk
  split at hk
  · simp at hk
  · simp at hk

theorem askedFor_nodup (ex : Exchange) : (0 :: askedFor 1 ex).Nodup := by
  cases ex with
  | value => decide
  | aux a => simp [askedFor]
  | values => decide
  | plain => decide

theorem allFreed_arrived {log : List HeapEvent}
    (hlog : ledger log = .acquire 0 :: requestEntries hdr world arg)
    (harrives : Arrives hdr world arg) :
    AllFreed log ↔ buffersAllocated world.env 1 (exchange hdr (hdr.feature arg.featureId)) := by
  let ids := askedFor 1 (exchange hdr (hdr.feature arg.featureId))
  unfold requestEntries at hlog
  rw [if_pos harrives] at hlog
  by_cases halloc : buffersAllocated world.env 1 (exchange hdr (hdr.feature arg.featureId)) = true
  · have hall : ledger log = (0 :: ids).map .acquire ++ (ids ++ [0]).map .release := by
      rw [hlog, if_pos halloc, exchangeEntries_allocated halloc]
      simp [ids]
    have hperm : (0 :: ids).Perm (ids ++ [0]) := (List.perm_append_singleton 0 ids).symm
    exact iff_of_true (allFreed_of_all hall (askedFor_nodup _) hperm) halloc
  · rw [if_neg halloc, List.append_nil] at hlog
    refine iff_of_false (not_allFreed 0 ?_ ?_) halloc
    · rw [hlog]
      exact List.mem_cons_self
    · rw [hlog]
      simpa using not_released halloc 0

theorem allFreed_short {log : List HeapEvent}
    (hlog : ledger log = .acquire 0 :: requestEntries hdr world arg)
    (harrives : ¬ Arrives hdr world arg) :
    AllFreed log ↔ ¬ (hdr.feature arg.featureId).forgets := by
  unfold requestEntries at hlog
  rw [if_neg harrives] at hlog
  by_cases hforgets : (hdr.feature arg.featureId).forgets
  · rw [if_pos hforgets] at hlog
    refine iff_of_false (not_allFreed 0 ?_ ?_) (not_not_intro hforgets)
    · rw [hlog]
      exact List.mem_cons_self
    · rw [hlog]
      simp
  · rw [if_neg hforgets] at hlog
    have hall : ledger log = [0].map .acquire ++ [0].map .release := hlog
    exact iff_of_true (allFreed_of_all hall (by decide) (.refl _)) hforgets

/-- A request frees every buffer that it allocates, and frees it once, exactly when no
path is taken that forgets one. -/
theorem featureControl_releases_iff (hdr : FeatureHeader) (world : World)
    (arg : FeatureControlArg) (stale : Stale StackVar) (cam : Sensors) :
    AllFreed (adoptCameraHwFeatureControl hdr world arg stale { dev := cam }).2.heap ↔
      Releases hdr world arg := by
  obtain ⟨n, hentries, -⟩ := logs_featureRequest (η := stale) hdr world arg cam
  have hnil : ledger ({ dev := cam } : Kernel Sensors).heap = [] := rfl
  rw [hnil, List.nil_append] at hentries
  by_cases hin : Accepted hdr world arg ∧ (world.env.alloc 0).isSome
  · rw [if_pos hin] at hentries
    unfold Releases
    rw [forall_prop_of_true hin.1, forall_prop_of_true hin.2]
    by_cases harrives : Arrives hdr world arg
    · rw [allFreed_arrived hdr world arg hentries harrives]
      exact ⟨fun h => ⟨fun _ => harrives, fun _ => h⟩, fun h => h.2 harrives⟩
    · rw [allFreed_short hdr world arg hentries harrives]
      exact ⟨fun h => ⟨fun hforgets => absurd hforgets h, fun h' => absurd h' harrives⟩,
        fun h hforgets => harrives (h.1 hforgets)⟩
  · rw [if_neg hin] at hentries
    have hall : ledger (adoptCameraHwFeatureControl hdr world arg stale { dev := cam }).2.heap =
        [].map .acquire ++ [].map .release := hentries
    refine iff_of_true (allFreed_of_all hall (by decide) (.refl _)) fun hacc hsome => ?_
    exact absurd ⟨hacc, hsome⟩ hin

end Request

def eshutterHeader : CameraHeader := { resolutionHeader with feature := fun _ => .setEshutterGain }

/-- The payload of the request does not arrive. -/
def unreadable : World :=
  { quietWorld with
    env := { quietWorld.env with
      copy := fun k => if k = 1 then { copied := 0 } else { copied := 4096 } } }

/-- The length at 0x4001 is 112. -/
def eshutterGain : FeatureControlArg :=
  { invokeCamera := 1, featureId := 0, pFeaturePara := 0x4000, pFeatureParaLen := 0x4001 }

/-- The fault leaves the parameters allocated. -/
theorem eshutter_leaks :
    ¬ AllFreed (adoptCameraHwFeatureControl eshutterHeader.toFeatureHeader unreadable eshutterGain
      (staleOf 0) { dev := bootSensors }).2.heap := by
  have hledger : ledger (adoptCameraHwFeatureControl eshutterHeader.toFeatureHeader unreadable
      eshutterGain (staleOf 0) { dev := bootSensors }).2.heap = [.acquire 0] := by
    decide
  refine not_allFreed 0 ?_ ?_
  · rw [hledger]
    exact List.mem_cons_self
  · rw [hledger]
    decide

end Camera
end AtomDrivers
