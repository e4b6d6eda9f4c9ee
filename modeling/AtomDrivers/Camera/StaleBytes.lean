/-
Old kernel memory in the replies of the camera ioctl.

Two runs of `CAMERA_HW_Ioctl` differ in the old content of the heap and of the
stack.  They give the user the same bytes unless a reply hands out memory that
nobody has written: the argument buffer of a word that reads without writing, the
structures of a failed GETINFO, and the resolutions that no driver has stored.
-/
import AtomDrivers.Camera.Replies

namespace AtomDrivers
namespace Camera

open Linux Routine

section Ioctl

variable (hdr : CameraHeader) (world : World) (cam : Sensors) (cmd : BitVec 32) (param : BitVec 64)

/-- The return value and what reaches the user. -/
def outcome (stale : Stale StackVar) : Int × List Delivery :=
  let r := cameraHwIoctl hdr world cmd param stale { dev := cam }
  (r.1, r.2.user)

/-- Old memory makes no difference to the user. -/
def NoStaleBytes : Prop :=
  ∀ stale stale', outcome hdr world cam cmd param stale = outcome hdr world cam cmd param stale'

/-- The argument as it is copied in. -/
def argument : Bytes :=
  (world.env.beyond 0).write 0
    ((List.range (iocSize cmd)).map fun k => world.env.user 0 (param + BitVec.ofNat 64 k))

/-- The argument buffer is allocated and filled. -/
def Arrived : Prop :=
  (world.env.alloc 0).isSome ∧ iocSize cmd ≤ (world.env.copy 0).copied

/-- The state in which a request with an argument is served. -/
def served : Kernel Sensors :=
  { dev := cam, allocs := 1, copies := 1,
    heap := [.alloc 0 (iocSize cmd), .access 0 0 (iocSize cmd)] }

/-- No reply hands out what nobody has written.  The first two replies are those of
the argument buffer and of requests with unfilled local buffers. -/
def Filled : Prop :=
  (iocReads cmd → ¬ iocWrites cmd →
    world.env.alloc 0 = none ∨ iocSize cmd = 0 ∨ (world.env.copy 0).copied = 0) ∧
  (iocWrites cmd → Arrived world cmd →
    match hdr.command cmd with
    | some .getinfo =>
      GetInfoFilled hdr world (hdr.getInfoArg (argument world cmd param)) (served cam cmd)
    | some .getresolution2 => GetResolutionFilled hdr world (served cam cmd)
    | some .getinfo2 =>
      GetInfo2Filled hdr world (hdr.getInfo2Arg (argument world cmd param)) (served cam cmd)
    | _ => True)

variable {hdr world cam cmd param}

theorem noArgument_of_unwritten (hdr : CameraHeader) (h : ¬ iocWrites cmd) :
    ∀ c ∈ hdr.command cmd, c.takesArgument = false := by
  intro c hc
  by_contra harg
  exact h (hdr.argument_written cmd c hc (by simpa using harg))

theorem dir_of_writes (h : iocWrites cmd) : iocDir cmd ≠ iocNone := by
  intro hdir
  simp [iocWrites, hdir, iocNone] at h

/-! ## Arguments -/

/-- The buffer as it is allocated. -/
def oldBuffer (world : World) (cmd : BitVec 32) (a : BitVec 64) (stale : Stale StackVar) :
    Buffer where
  id := 0
  addr := a
  size := iocSize cmd
  bytes := (world.env.beyond 0).copy (stale.heap 0) (iocSize cmd)

/-- The state after its allocation. -/
def allocated (cam : Sensors) (cmd : BitVec 32) : Kernel Sensors :=
  { dev := cam, allocs := 1, heap := [.alloc 0 (iocSize cmd)] }

theorem ioctl_allocated (hdir : iocDir cmd ≠ iocNone) {a : BitVec 64}
    (ha : world.env.alloc 0 = some a) (stale : Stale StackVar) :
    cameraHwIoctl hdr world cmd param stale { dev := cam } =
      (if iocWrites cmd then answerWith hdr world cmd param (oldBuffer world cmd a stale)
        else answer hdr world cmd param (oldBuffer world cmd a stale)) stale
        (allocated cam cmd) := by
  unfold cameraHwIoctl
  rw [if_neg hdir, bind_apply]
  simp only [kmalloc, ha]
  rfl

theorem ioctl_noMemory (hdir : iocDir cmd ≠ iocNone) (ha : world.env.alloc 0 = none)
    (stale : Stale StackVar) :
    cameraHwIoctl hdr world cmd param stale { dev := cam } =
      (-ENOMEM, { dev := cam, allocs := 1 }) := by
  unfold cameraHwIoctl
  rw [if_neg hdir, bind_apply]
  simp only [kmalloc, ha]
  rfl

theorem copyIn_argument (cam : Sensors) (param a : BitVec 64)
    (h : iocSize cmd ≤ (world.env.copy 0).copied) (stale : Stale StackVar) :
    (oldBuffer world cmd a stale).copyIn world.env param (iocSize cmd) stale (allocated cam cmd) =
      (({ id := 0, addr := a, size := iocSize cmd, bytes := argument world cmd param }, 0),
        served cam cmd) := by
  unfold Buffer.copyIn
  rw [bind_apply, bind_apply, copyIn_whole world.env _ param (by exact h)]
  simp only [oldBuffer]
  rw [write_copy _ _ (by simp)]
  rfl

theorem ioctl_arrived (hdr : CameraHeader) (cam : Sensors) (param : BitVec 64)
    (hw : iocWrites cmd) (h : Arrived world cmd) :
    ∃ a, ∀ stale, cameraHwIoctl hdr world cmd param stale { dev := cam } =
      answer hdr world cmd param
        { id := 0, addr := a, size := iocSize cmd, bytes := argument world cmd param } stale
        (served cam cmd) := by
  obtain ⟨a, ha⟩ := Option.isSome_iff_exists.mp h.1
  refine ⟨a, fun stale => ?_⟩
  rw [ioctl_allocated (dir_of_writes hw) ha, if_pos hw, answerWith, bind_apply,
    copyIn_argument cam param a h.2]
  rfl

/-- Without the argument no request is served. -/
theorem ioctl_notArrived (hw : iocWrites cmd) (h : ¬ Arrived world cmd)
    (stale stale' : Stale StackVar) :
    cameraHwIoctl hdr world cmd param stale { dev := cam } =
      cameraHwIoctl hdr world cmd param stale' { dev := cam } := by
  cases ha : world.env.alloc 0 with
  | none => rw [ioctl_noMemory (dir_of_writes hw) ha, ioctl_noMemory (dir_of_writes hw) ha]
  | some a =>
    have hmissing : iocSize cmd - (world.env.copy 0).copied ≠ 0 := by
      have hshort : ¬ iocSize cmd ≤ (world.env.copy 0).copied := fun hle => h ⟨by simp [ha], hle⟩
      omega
    have hfault : ∀ old, ((oldBuffer world cmd a old).copyIn world.env param (iocSize cmd) old
        (allocated cam cmd)).1.2 ≠ 0 := by
      intro old
      rw [Buffer.copyIn_snd]
      exact hmissing
    rw [ioctl_allocated (dir_of_writes hw) ha, ioctl_allocated (dir_of_writes hw) ha, if_pos hw,
      if_pos hw, answerWith, answerWith, bind_apply, bind_apply]
    simp only [if_pos (hfault _)]
    rfl

/-- A word that does not write brings no argument. -/
theorem ioctl_unwritten (cam : Sensors) (param : BitVec 64) (hw : ¬ iocWrites cmd)
    (hno : ∀ c ∈ hdr.command cmd, c.takesArgument = false) (hdir : iocDir cmd ≠ iocNone)
    {a : BitVec 64} (ha : world.env.alloc 0 = some a) :
    ∃ ret s, s.copies = 0 ∧ ∀ stale, cameraHwIoctl hdr world cmd param stale { dev := cam } =
      reply world cmd param ret (oldBuffer world cmd a stale) stale s := by
  obtain ⟨m, hm, hrequest⟩ := request_noArgument hdr world hno
  let old : Stale StackVar := { heap := fun _ => Bytes.zero, stack := fun _ => Bytes.zero }
  refine ⟨(m old (allocated cam cmd)).1, (m old (allocated cam cmd)).2, hm.copies old _,
    fun stale => ?_⟩
  rw [ioctl_allocated hdir ha, if_neg hw, answer, hrequest, bind_apply, bind_apply,
    blind_iff.mp hm.blind stale old]
  rfl

/-! ## Replies -/

theorem blind_finish (pBuff : Buffer) (ret : Int) (missing : Nat) :
    Blind (finish pBuff ret missing) :=
  (blind_kfree _).bind fun _ => Blind.ite (fun _ => Blind.pure _) fun _ => Blind.pure _

theorem grows_finish (pBuff : Buffer) (ret : Int) (missing : Nat) :
    Grows Kernel.user (finish pBuff ret missing) :=
  (grows_logHeap _).bind fun _ => Grows.ite (Grows.pure _) (Grows.pure _)

theorem blind_reply (ret : Int) (pBuff : Buffer) : Blind (reply world cmd param ret pBuff) := by
  refine Blind.ite (fun _ => ?_) fun _ => blind_finish _ _ _
  exact (pBuff.blind_copyOut _ _ _).bind fun missing => blind_finish _ _ _

theorem grows_reply (ret : Int) (pBuff : Buffer) :
    Grows Kernel.user (reply world cmd param ret pBuff) := by
  refine Grows.ite ?_ (grows_finish _ _ _)
  exact Grows.bind ((grows_logHeap _).bind fun _ => grows_copyOut _ _ _ _) fun missing =>
    grows_finish _ _ _

/-- A reply hands out the buffer. -/
theorem reply_sends (hr : iocReads cmd) (ret : Int) (pBuff : Buffer) (stale : Stale StackVar)
    (s : Kernel Sensors) :
    s.user ++ [{ addr := param,
                 bytes := (pBuff.bytes.read 0 (iocSize cmd)).take
                   (world.env.copy s.copies).copied }] <+:
      (reply world cmd param ret pBuff stale s).2.user := by
  let copied := pBuff.copyOut world.env param (iocSize cmd) stale s
  rw [reply, if_pos hr]
  exact grows_finish pBuff ret copied.1 stale copied.2

/-- Nothing is seen of a buffer that is not handed out. -/
theorem reply_hidden {s : Kernel Sensors}
    (h : iocReads cmd → iocSize cmd = 0 ∨ (world.env.copy s.copies).copied = 0) (ret : Int)
    (b b' : Buffer) (hid : b.id = b'.id) (stale stale' : Stale StackVar) :
    reply world cmd param ret b stale s = reply world cmd param ret b' stale' s := by
  have hfinish : ∀ missing t, finish b ret missing stale t = finish b' ret missing stale' t := by
    intro missing t
    have hsame : finish b ret missing = finish b' ret missing := by
      rw [finish, finish, kfree, kfree, hid]
    rw [hsame]
    exact blind_iff.mp (blind_finish b' ret missing) stale stale' t
  by_cases hr : iocReads cmd
  · have hcopy : b.copyOut world.env param (iocSize cmd) stale s =
        b'.copyOut world.env param (iocSize cmd) stale' s := by
      unfold Buffer.copyOut
      rw [bind_apply, bind_apply, hid]
      refine copyOut_congr world.env (fun i hi => ?_) param stale stale'
      have hzero := h hr
      have hlt : i < min (world.env.copy s.copies).copied (iocSize cmd) := hi
      omega
    rw [reply, reply, if_pos hr, if_pos hr, bind_apply, bind_apply, hcopy]
    exact hfinish _ _
  · rw [reply, reply, if_neg hr, if_neg hr]
    exact hfinish _ _

/-! ## Old memory in the outcome -/

/-- A served request is the same in both runs. -/
theorem request_same (h : Filled hdr world cam cmd param) (hw : iocWrites cmd)
    (harrived : Arrived world cmd) (stale stale' : Stale StackVar) :
    request hdr world (hdr.command cmd) (argument world cmd param) stale (served cam cmd) =
      request hdr world (hdr.command cmd) (argument world cmd param) stale' (served cam cmd) := by
  have hfilled := h.2 hw harrived
  have hret : ∀ {m : SensorM Int}, m stale (served cam cmd) = m stale' (served cam cmd) →
      (do let ret ← m; pure (ret, argument world cmd param) : SensorM (Int × Bytes)) stale
          (served cam cmd) =
        (do let ret ← m; pure (ret, argument world cmd param) : SensorM (Int × Bytes)) stale'
          (served cam cmd) := by
    intro m hm
    rw [bind_apply, bind_apply, hm]
    rfl
  cases hc : hdr.command cmd with
  | none => rfl
  | some c =>
    rw [hc] at hfilled
    by_cases hinfo : c.asksInfo = false
    · exact blind_iff.mp (blind_request hdr world (by simpa using hinfo) _) stale stale' _
    · cases c with
      | getinfo => exact hret (getInfo_same hfilled stale stale')
      | getresolution2 => exact hret (getResolution_same _ hfilled stale stale')
      | getinfo2 => exact hret (getInfo2_same hfilled stale stale')
      | _ => exact absurd rfl hinfo

theorem noStaleBytes_of_filled (h : Filled hdr world cam cmd param) :
    NoStaleBytes hdr world cam cmd param := by
  intro stale stale'
  have hsame : cameraHwIoctl hdr world cmd param stale { dev := cam } =
      cameraHwIoctl hdr world cmd param stale' { dev := cam } := by
    by_cases hw : iocWrites cmd
    · by_cases harrived : Arrived world cmd
      · obtain ⟨a, hrun⟩ := ioctl_arrived hdr cam param hw harrived
        rw [hrun, hrun, answer, bind_apply, bind_apply, request_same h hw harrived stale stale']
        exact blind_iff.mp (blind_reply _ _) stale stale' _
      · exact ioctl_notArrived hw harrived stale stale'
    · have hno := noArgument_of_unwritten hdr hw
      by_cases hdir : iocDir cmd = iocNone
      · have hblind : Blind (request hdr world (hdr.command cmd) Bytes.zero) :=
          blind_request hdr world (fun c hc => asksInfo_of_noArgument (hno c hc)) _
        have hrun : Blind (cameraHwIoctl hdr world cmd param) := by
          unfold cameraHwIoctl
          rw [if_pos hdir]
          exact hblind.bind fun _ => Blind.pure _
        exact blind_iff.mp hrun stale stale' _
      · cases ha : world.env.alloc 0 with
        | none => rw [ioctl_noMemory hdir ha, ioctl_noMemory hdir ha]
        | some a =>
          obtain ⟨ret, s, hcopies, hrun⟩ := ioctl_unwritten cam param hw hno hdir ha
          rw [hrun, hrun]
          refine reply_hidden (fun hr => ?_) ret (oldBuffer world cmd a stale)
            (oldBuffer world cmd a stale') rfl stale stale'
          have hreply := h.1 hr hw
          rw [ha] at hreply
          rw [hcopies]
          simpa using hreply
  rw [outcome, outcome, hsame]

/-- Memory that holds one byte everywhere. -/
def staleOf (b : UInt8) : Stale StackVar where
  heap _ _ := b
  stack _ _ := b

theorem last_bytes {l l' : List Delivery} {a a' : BitVec 64} {bs bs' : List UInt8}
    (h : l ++ [{ addr := a, bytes := bs }] = l' ++ [{ addr := a', bytes := bs' }]) : bs = bs' :=
  (Delivery.mk.inj (List.singleton_inj.mp (List.append_inj' h rfl).2)).2

/-- What both runs are known to send is the same. -/
theorem sent_eq (h : NoStaleBytes hdr world cam cmd param) {sent : Stale StackVar → List Delivery}
    (hsent : ∀ stale,
      sent stale <+: (cameraHwIoctl hdr world cmd param stale { dev := cam }).2.user)
    (hlen : ∀ stale stale', (sent stale).length = (sent stale').length) (stale stale') :
    sent stale = sent stale' := by
  have hsame := congrArg Prod.snd (h stale stale')
  have hstale := hsent stale
  rw [show (cameraHwIoctl hdr world cmd param stale { dev := cam }).2.user =
    (cameraHwIoctl hdr world cmd param stale' { dev := cam }).2.user from hsame] at hstale
  exact eq_of_initial hstale (hsent stale') (hlen stale stale')

/-- What a served request sends stays in front of the reply. -/
theorem request_sends (hdr : CameraHeader) (cam : Sensors) (param : BitVec 64)
    (hw : iocWrites cmd) (harrived : Arrived world cmd) (stale : Stale StackVar) :
    (request hdr world (hdr.command cmd) (argument world cmd param) stale (served cam cmd)).2.user
      <+: (cameraHwIoctl hdr world cmd param stale { dev := cam }).2.user := by
  obtain ⟨a, hrun⟩ := ioctl_arrived hdr cam param hw harrived
  rw [hrun, answer, bind_apply]
  exact grows_reply _ _ stale _

/-- A reply without a filled argument buffer shows. -/
theorem replyFilled_of_noStaleBytes (h : NoStaleBytes hdr world cam cmd param)
    (hr : iocReads cmd) (hw : ¬ iocWrites cmd) :
    world.env.alloc 0 = none ∨ iocSize cmd = 0 ∨ (world.env.copy 0).copied = 0 := by
  by_contra hnot
  have hno := noArgument_of_unwritten hdr hw
  have hdir : iocDir cmd ≠ iocNone := by
    intro hdir
    simp [iocReads, hdir, iocNone] at hr
  cases ha : world.env.alloc 0 with
  | none => exact hnot (Or.inl ha)
  | some a =>
    obtain ⟨ret, s, hcopies, hrun⟩ := ioctl_unwritten cam param hw hno hdir ha
    have hsent : ∀ stale, s.user ++ [
        { addr := param,
          bytes := ((oldBuffer world cmd a stale).bytes.read 0 (iocSize cmd)).take
            (world.env.copy s.copies).copied }] <+:
        (cameraHwIoctl hdr world cmd param stale { dev := cam }).2.user := by
      intro stale
      rw [hrun stale]
      exact reply_sends hr ret (oldBuffer world cmd a stale) stale s
    have hbytes := last_bytes (sent_eq h hsent (by simp) (staleOf 0) (staleOf 1))
    rw [hcopies] at hbytes
    have hfirst : (0 : UInt8) = 1 := by
      have hsize : 0 < iocSize cmd := by omega
      have hzero := read_take_inj hbytes 0 (by omega)
      simp [oldBuffer, Bytes.copy, hsize, staleOf] at hzero
    exact absurd hfirst (by decide)

/-- What the handler of a served request sends, in both runs. -/
theorem handlerSent_eq (h : NoStaleBytes hdr world cam cmd param) (hw : iocWrites cmd)
    (harrived : Arrived world cmd) {handler : SensorM Int}
    (hrequest : request hdr world (hdr.command cmd) (argument world cmd param) =
      do let ret ← handler; pure (ret, argument world cmd param))
    {sent : Stale StackVar → List Delivery}
    (hsent : ∀ stale, sent stale <+: (handler stale (served cam cmd)).2.user)
    (hlen : ∀ stale stale', (sent stale).length = (sent stale').length) (stale stale') :
    sent stale = sent stale' := by
  refine sent_eq h (fun old => (hsent old).trans ?_) hlen stale stale'
  have hfront := request_sends hdr cam param hw harrived old
  rw [hrequest] at hfront
  exact hfront

theorem getInfoFilled_of_noStaleBytes (h : NoStaleBytes hdr world cam cmd param)
    (hw : iocWrites cmd) (harrived : Arrived world cmd) (hc : hdr.command cmd = some .getinfo) :
    GetInfoFilled hdr world (hdr.getInfoArg (argument world cmd param)) (served cam cmd) := by
  by_contra hnot
  simp only [GetInfoFilled, not_or, not_not] at hnot
  obtain ⟨hnull, hfails, hcopied⟩ := hnot
  have hnull' : ¬ ((hdr.getInfoArg (argument world cmd param)).pInfo 0 = 0 ∨
      (hdr.getInfoArg (argument world cmd param)).pInfo 1 = 0 ∨
      (hdr.getInfoArg (argument world cmd param)).pConfig 0 = 0 ∨
      (hdr.getInfoArg (argument world cmd param)).pConfig 1 = 0) := by
    tauto
  have hbytes := last_bytes (handlerSent_eq h hw harrived (by rw [hc]; rfl)
    (getInfo_left hnull' hfails) (by simp) (staleOf 0) (staleOf 1))
  have hfirst : (0 : UInt8) = 1 := by
    have hpos := hdr.sensorInfo_pos
    exact read_take_inj hbytes 0 (by omega)
  exact absurd hfirst (by decide)

theorem oldResolution_ne {s : Kernel Sensors} {x : Nat} (hx : x < hdr.sizeofSensorResolutionInfo)
    (k : Nat) :
    oldResolution hdr world s (staleOf 0) k x ≠ oldResolution hdr world s (staleOf 1) k x := by
  unfold oldResolution
  by_cases hk : k = 0
  · simp [hk, Bytes.copy, hx, staleOf]
  · simp [hk, Bytes.copy, hx, staleOf]

theorem getResolutionFilled_of_noStaleBytes (h : NoStaleBytes hdr world cam cmd param)
    (hw : iocWrites cmd) (harrived : Arrived world cmd)
    (hc : hdr.command cmd = some .getresolution2) :
    GetResolutionFilled hdr world (served cam cmd) := by
  cases h₀ : world.env.alloc 1 with
  | none => exact Or.inl h₀
  | some a₀ =>
    cases h₁ : world.env.alloc 2 with
    | none => exact Or.inr (Or.inl h₁)
    | some a₁ =>
      obtain ⟨heap, hrun⟩ := getResolution_eq (hdr.pResolution (argument world cmd param))
        (s := served cam cmd) h₀ h₁
      have hprefix : ∀ stale, [] ++
          [resolutionDelivery hdr world (hdr.pResolution (argument world cmd param))
            (served cam cmd) stale 0] ++
          [resolutionDelivery hdr world (hdr.pResolution (argument world cmd param))
            (served cam cmd) stale 1] <+:
          (adoptCameraHwGetResolution hdr world (hdr.pResolution (argument world cmd param)) stale
            (served cam cmd)).2.user := by
        intro stale
        rw [hrun stale]
        exact List.prefix_refl _
      have hsent := handlerSent_eq h hw harrived (by rw [hc]; rfl) hprefix (by simp)
        (staleOf 0) (staleOf 1)
      have hbytes₀ := last_bytes (List.append_inj' hsent rfl).1
      have hbytes₁ := last_bytes hsent
      refine Or.inr (Or.inr fun k hk x hx => ?_)
      match k with
      | 0 => exact written_of_resolutionSent hbytes₀ hx (oldResolution_ne (by omega) 0)
      | 1 => exact written_of_resolutionSent hbytes₁ hx (oldResolution_ne (by omega) 1)

theorem getInfo2Filled_of_noStaleBytes (h : NoStaleBytes hdr world cam cmd param)
    (hw : iocWrites cmd) (harrived : Arrived world cmd) (hc : hdr.command cmd = some .getinfo2) :
    GetInfo2Filled hdr world (hdr.getInfo2Arg (argument world cmd param)) (served cam cmd) := by
  by_cases hwhole : hdr.sizeofSensorInfo2 ≤ (world.env.copy 1).copied
  · obtain ⟨first, hleft⟩ := getInfo2_left (hdr.getInfo2Arg (argument world cmd param))
      (s := served cam cmd) hwhole
    have hbytes := last_bytes (handlerSent_eq h hw harrived (by rw [hc]; rfl) hleft (by simp)
      (staleOf 0) (staleOf 1))
    refine Or.inr fun x hx => written_of_resolutionSent hbytes hx ?_
    show (0 : UInt8) ≠ 1
    decide
  · exact Or.inl (by
      show (world.env.copy 1).copied < hdr.sizeofSensorInfo2
      omega)

/-- For every word, argument, driver configuration and pattern of results: old
kernel memory makes no difference to the user exactly when the replies hand out
filled memory. -/
theorem noStaleBytes_iff :
    NoStaleBytes hdr world cam cmd param ↔ Filled hdr world cam cmd param := by
  constructor
  · intro h
    refine ⟨fun hr hw => replyFilled_of_noStaleBytes h hr hw, fun hw harrived => ?_⟩
    cases hc : hdr.command cmd with
    | none => trivial
    | some c =>
      cases c with
      | getinfo => exact getInfoFilled_of_noStaleBytes h hw harrived hc
      | getresolution2 => exact getResolutionFilled_of_noStaleBytes h hw harrived hc
      | getinfo2 => exact getInfo2Filled_of_noStaleBytes h hw harrived hc
      | _ => trivial
  · exact noStaleBytes_of_filled

end Ioctl

/-! ## Before any driver is selected -/

/-- `_IOWR('i', 10, ..)` for a structure of two pointers. -/
def resolutionWord : BitVec 32 := ioc (iocRead + iocWrite) 'i'.toNat 10 16

/-- Headers with one request, and resolutions of four bytes. -/
def resolutionHeader : CameraHeader where
  dualCameraNoneSensor := 0
  dualCameraMainSensor := 1
  dualCameraSubSensor := 2
  dualCameraMain2Sensor := 4
  maxInvokeDrivers := 2
  sizeofSensorInfo := 4
  sizeofSensorConfig := 4
  sizeofSensorResolutionInfo := 4
  sizeofExposureWindow := 4
  sensorInfo_pos := by decide
  i2c := { dmaFlag := 1, filterMsg := 2, enextFlag := 4, pollingFlag := 8, busNum1 := 0,
           busNum2 := 2, dma_ne_zero := by decide, dma_filter := by decide,
           dma_polling := by decide }
  feature _ := .other
  syncOffset
    | .u2ISPNewRGain => 0
    | .u2ISPNewGrGain => 2
    | .u2ISPNewGbGain => 4
    | .u2ISPNewBGain => 6
    | .u2SensorNewExpTime => 8
    | .u2SensorNewGain => 10
    | .uSensorExpDelayFrame => 12
    | .uSensorGainDelayFrame => 13
    | .uISPGainDelayFrame => 14
  sizeofAeAwbRef := 4
  sizeofWinsizeInfo := 4
  sizeofVcInfo := 4
  sizeofPdBlockInfo := 4
  sizeofExifInfo := 4
  sizeofAeAwbCur := 4
  sizeofDelayInfo := 4
  sizeofFlashlightAeInfo := 4
  command w := if w = resolutionWord then some .getresolution2 else none
  argument_written := by
    intro w c hw _
    by_cases h : w = resolutionWord
    · rw [h]
      decide
    · simp [h] at hw
  featureControlArg b :=
    { invokeCamera := b.u32 0, featureId := b.u32 4, pFeaturePara := b.u64 8,
      pFeatureParaLen := b.u64 16 }
  getInfoArg b := { pInfo := fun i => b.u64 (8 + 8 * i), pConfig := fun i => b.u64 (24 + 8 * i) }
  getInfo2Arg b := { sensorId := b.u32 0, pInfo := b.u64 8, pSensorResolution := b.u64 16 }
  controlArg b :=
    { invokeCamera := b.u32 0, pImageWindow := b.u64 8, pSensorConfigData := b.u64 16 }
  pResolution b i := b.u64 (8 * i)
  sizeofSensorInfo2 := 4
  infoMember b _ := b.u32 0
  sensorInfo2 _ := Bytes.zero
  kdimgsensorDualMaskMsb := 0xFFFF0000
  kdimgsensorDualMaskLsb := 0x0000FFFF
  kdimgsensorDualShift := 16
  maxNumOfSupportSensor := 16
  imgsensorSocketPosNone := 0
  imgsensorSocketPosLeft := 1
  imgsensorSocketPosRight := 2
  errorSensorConnectFail := 6
  hz := 100

/-- Every allocation and copy succeeds, and both pointers are 0x7000. -/
def quietWorld : World where
  env := { user := fun _ a => if a.toNat % 8 = 1 then 0x70 else 0
           copy := fun _ => { copied := 4096 }
           alloc := fun id => some (BitVec.ofNat 64 (0x100000 + 0x1000 * id))
           beyond := fun _ => Bytes.zero }
  sensor _ _ := { ret := errorNone }
  power _ _ _ := errorNone
  sensorList _ := { sensorInit := none, drvname := "" }
  waitEvent _ _ := 1

/-- The camera after the module is loaded. -/
def bootSensors : Sensors where
  slots _ := { bEnableDriver := false, pInvokeSensorFunc := none, invokeSocketIdx := 0,
               invokeSensorNameStr := "" }
  drvIndex := 0
  i2cBusNum := 0
  currentSensorIdx := 0
  isSearchSensor := false
  newSensorExpGain := newSensorExpGain
  setExpGainDoneFlag := false
  ginfo _ _ := Bytes.zero
  cameralistUsing := ""
  foundCameraNum := 0
  power := []

/-- GETRESOLUTION2 without a driver hands out two fresh buffers. -/
theorem resolution_leaks_heap :
    ¬ NoStaleBytes resolutionHeader quietWorld bootSensors resolutionWord 0x4000 := by
  intro h
  exact absurd (h (staleOf 0) (staleOf 1)) (by decide)

end Camera
end AtomDrivers
