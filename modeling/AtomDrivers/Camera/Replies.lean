/-
Unwritten bytes in the replies of the camera requests.

Three requests hand out memory of their own.  GETINFO gives the structures of the
drivers, GETRESOLUTION2 two fresh buffers, and GETINFO2 one of two resolutions
after ten walks over the slots.  For each of them this file says which bytes must
have been written, that the reply is then the same whatever the memory held, and
what the reply gives away otherwise.
-/
import AtomDrivers.Camera.Blind
import AtomDrivers.Camera.Written

namespace AtomDrivers
namespace Camera

open Linux Routine

section Replies

variable {hdr : CameraHeader} {world : World}

/-! ## GETINFO -/

/-- Nothing unwritten is handed out by GETINFO: a pointer is NULL, no driver
fails, or the first copy moves nothing. -/
def GetInfoFilled (hdr : CameraHeader) (world : World) (arg : GetInfoArg) (s : Kernel Sensors) :
    Prop :=
  (arg.pInfo 0 = 0 ∨ arg.pInfo 1 = 0 ∨ arg.pConfig 0 = 0 ∨ arg.pConfig 1 = 0) ∨
    ¬ InfoFails hdr.toSensorHeader world s.calls s.dev.slots ∨
    (world.env.copy s.copies).copied = 0

theorem copyInfos_congr (arg : GetInfoArg) {info config info' config' : Nat → Bytes}
    (hinfo : ∀ k, ∀ x < hdr.sizeofSensorInfo, info k x = info' k x)
    (hconfig : ∀ k, ∀ x < hdr.sizeofSensorConfig, config k x = config' k x) (is : List Nat)
    (stale stale' : Stale StackVar) (s : Kernel Sensors) :
    copyInfos hdr world arg info config is stale s =
      copyInfos hdr world arg info' config' is stale' s := by
  induction is generalizing s with
  | nil => rfl
  | cons i is ih =>
    refine copyOutThen_congr _ (fun x hx => hinfo i x (by omega)) _ fun _ => ?_
    exact copyOutThen_congr _ (fun x hx => hconfig i x (by omega)) _ fun _ => ih _

theorem grows_copyInfos (arg : GetInfoArg) (info config : Nat → Bytes) (is : List Nat) :
    Grows Kernel.user (copyInfos hdr world arg info config is) := by
  induction is with
  | nil => exact Grows.pure _
  | cons i is ih => exact grows_copyOutThen _ _ _ _ (grows_copyOutThen _ _ _ _ ih)

theorem getInfo_eq {arg : GetInfoArg}
    (hnull : ¬ (arg.pInfo 0 = 0 ∨ arg.pInfo 1 = 0 ∨ arg.pConfig 0 = 0 ∨ arg.pConfig 1 = 0))
    (stale : Stale StackVar) (s : Kernel Sensors) :
    adoptCameraHwGetInfo hdr world arg stale s =
      let r := (kdMultiSensorGetInfo hdr.toSensorHeader world s.calls s.dev.slots
        (fun i => stale.stack (.info i)) fun i => stale.stack (.config 0 i)).2
      copyInfos hdr world arg r.1 r.2 [0, 1] stale { s with calls := s.calls + 1 } := by
  unfold adoptCameraHwGetInfo
  simp only [bind_apply, if_neg hnull]
  rfl

theorem getInfo_same {arg : GetInfoArg} {s : Kernel Sensors}
    (h : GetInfoFilled hdr world arg s) (stale stale' : Stale StackVar) :
    adoptCameraHwGetInfo hdr world arg stale s = adoptCameraHwGetInfo hdr world arg stale' s := by
  by_cases hnull : arg.pInfo 0 = 0 ∨ arg.pInfo 1 = 0 ∨ arg.pConfig 0 = 0 ∨ arg.pConfig 1 = 0
  · unfold adoptCameraHwGetInfo
    simp only [bind_apply, if_pos hnull]
    rfl
  · rw [getInfo_eq hnull, getInfo_eq hnull]
    by_cases hfails : InfoFails hdr.toSensorHeader world s.calls s.dev.slots
    · have hzero : (world.env.copy s.copies).copied = 0 := by
        rcases h with h | h | h
        · exact absurd h hnull
        · exact absurd hfails h
        · exact h
      have hpos := hdr.sensorInfo_pos
      rw [getInfo_of_fails hfails, getInfo_of_fails hfails]
      refine copyOutThen_congr _ (fun x hx => ?_) _ fun hwhole => ?_
      · simp only [hzero] at hx
        omega
      · simp only [hzero] at hwhole
        omega
    · have hagree := getInfo_of_not_fails hfails (fun i => stale.stack (.info i))
        (fun i => stale.stack (.config 0 i)) (fun i => stale'.stack (.info i))
        fun i => stale'.stack (.config 0 i)
      exact copyInfos_congr arg hagree.1 hagree.2 _ _ _ _

/-- After a failed driver the first copy hands out the stack. -/
theorem getInfo_left {arg : GetInfoArg} {s : Kernel Sensors}
    (hnull : ¬ (arg.pInfo 0 = 0 ∨ arg.pInfo 1 = 0 ∨ arg.pConfig 0 = 0 ∨ arg.pConfig 1 = 0))
    (hfails : InfoFails hdr.toSensorHeader world s.calls s.dev.slots) (stale : Stale StackVar) :
    s.user ++ [{ addr := arg.pInfo 0,
                 bytes := ((stale.stack (.info 0)).read 0 hdr.sizeofSensorInfo).take
                   (world.env.copy s.copies).copied }] <+:
      (adoptCameraHwGetInfo hdr world arg stale s).2.user := by
  rw [getInfo_eq hnull, getInfo_of_fails hfails]
  have hrest : Grows Kernel.user (copyOutThen world.env (arg.pConfig 0) (stale.stack (.config 0 0))
      hdr.sizeofSensorConfig (copyInfos hdr world arg (fun i => stale.stack (.info i))
        (fun i => stale.stack (.config 0 i)) [1])) :=
    grows_copyOutThen _ _ _ _ (grows_copyInfos arg _ _ _)
  exact copyOutThen_sends world.env (arg.pInfo 0) (stale.stack (.info 0)) hdr.sizeofSensorInfo
    hrest stale { s with calls := s.calls + 1 }

/-! ## GETRESOLUTION2 -/

/-- Every byte of a resolution that reaches the user has been written. -/
def GetResolutionFilled (hdr : CameraHeader) (world : World) (s : Kernel Sensors) : Prop :=
  world.env.alloc s.allocs = none ∨ world.env.alloc (s.allocs + 1) = none ∨
    ∀ k < 2, ∀ x < min (world.env.copy (s.copies + k)).copied hdr.sizeofSensorResolutionInfo,
      ResolutionWritten hdr.toSensorHeader world s.calls s.dev.slots k x

/-- The two buffers as they are allocated. -/
def oldResolution (hdr : CameraHeader) (world : World) (s : Kernel Sensors)
    (stale : Stale StackVar) : Nat → Bytes :=
  fun k => if k = 0 then
      (world.env.beyond s.allocs).copy (stale.heap s.allocs) hdr.sizeofSensorResolutionInfo
    else (world.env.beyond (s.allocs + 1)).copy (stale.heap (s.allocs + 1))
      hdr.sizeofSensorResolutionInfo

/-- What the user gets of resolution `k` in copy `copy`, after the walk `call`. -/
def resolutionSent (hdr : CameraHeader) (world : World) (call copy : Nat) (slots : Nat → Slot)
    (old : Nat → Bytes) (k : Nat) : List UInt8 :=
  (((kdMultiSensorGetResolution hdr.toSensorHeader world call slots old).2 k).read 0
    hdr.sizeofSensorResolutionInfo).take (world.env.copy copy).copied

/-- The delivery of resolution `k`. -/
def resolutionDelivery (hdr : CameraHeader) (world : World) (pResolution : Nat → BitVec 64)
    (s : Kernel Sensors) (stale : Stale StackVar) (k : Nat) : Delivery where
  addr := pResolution k
  bytes := resolutionSent hdr world s.calls (s.copies + k) s.dev.slots
    (oldResolution hdr world s stale) k

theorem getResolution_eq (pResolution : Nat → BitVec 64) {s : Kernel Sensors} {a₀ a₁ : BitVec 64}
    (h₀ : world.env.alloc s.allocs = some a₀) (h₁ : world.env.alloc (s.allocs + 1) = some a₁) :
    ∃ heap, ∀ stale, adoptCameraHwGetResolution hdr world pResolution stale s =
      (0, { dev := s.dev, allocs := s.allocs + 2, copies := s.copies + 2, calls := s.calls + 1,
            heap,
            user := s.user ++ [resolutionDelivery hdr world pResolution s stale 0] ++
              [resolutionDelivery hdr world pResolution s stale 1] }) := by
  let n := hdr.sizeofSensorResolutionInfo
  refine ⟨s.heap ++ [.alloc s.allocs n] ++ [.alloc (s.allocs + 1) n] ++ [.access s.allocs 0 n] ++
    [.access (s.allocs + 1) 0 n] ++ [.free s.allocs] ++ [.free (s.allocs + 1)], fun stale => ?_⟩
  unfold adoptCameraHwGetResolution
  simp only [bind_apply, kmalloc, h₀, h₁]
  rfl

/-- Without memory nothing is handed out. -/
theorem getResolution_noMemory (pResolution : Nat → BitVec 64) {s : Kernel Sensors}
    (h : world.env.alloc s.allocs = none ∨ world.env.alloc (s.allocs + 1) = none)
    (stale stale' : Stale StackVar) :
    adoptCameraHwGetResolution hdr world pResolution stale s =
      adoptCameraHwGetResolution hdr world pResolution stale' s := by
  unfold adoptCameraHwGetResolution
  cases h₀ : world.env.alloc s.allocs with
  | none =>
    simp only [bind_apply, kmalloc, h₀]
    rfl
  | some a₀ =>
    have h₁ : world.env.alloc (s.allocs + 1) = none := by simpa [h₀] using h
    simp only [bind_apply, kmalloc, h₀, h₁]
    rfl

/-- Written bytes do not depend on what the buffers held. -/
theorem resolutionSent_congr {call copy k : Nat} {slots : Nat → Slot}
    (h : ∀ x < min (world.env.copy copy).copied hdr.sizeofSensorResolutionInfo,
      ResolutionWritten hdr.toSensorHeader world call slots k x) (old old' : Nat → Bytes) :
    resolutionSent hdr world call copy slots old k =
      resolutionSent hdr world call copy slots old' k := by
  refine take_read_congr fun x hx => ?_
  obtain ⟨v, hv, hbyte⟩ := getResolution_byte hdr.toSensorHeader world call slots k x
  rw [hbyte, hbyte]
  cases v with
  | none => exact absurd (hv.mpr (h x hx)) (by decide)
  | some b => rfl

/-- Unwritten bytes are sent as they were. -/
theorem written_of_resolutionSent {call copy k x : Nat} {slots : Nat → Slot}
    {old old' : Nat → Bytes}
    (h : resolutionSent hdr world call copy slots old k =
      resolutionSent hdr world call copy slots old' k)
    (hx : x < min (world.env.copy copy).copied hdr.sizeofSensorResolutionInfo)
    (hold : old k x ≠ old' k x) : ResolutionWritten hdr.toSensorHeader world call slots k x := by
  obtain ⟨v, hv, hbyte⟩ := getResolution_byte hdr.toSensorHeader world call slots k x
  have hsame := read_take_inj h x hx
  rw [hbyte, hbyte] at hsame
  cases v with
  | none => exact absurd hsame hold
  | some b => exact hv.mp rfl

theorem getResolution_same (pResolution : Nat → BitVec 64) {s : Kernel Sensors}
    (h : GetResolutionFilled hdr world s) (stale stale' : Stale StackVar) :
    adoptCameraHwGetResolution hdr world pResolution stale s =
      adoptCameraHwGetResolution hdr world pResolution stale' s := by
  cases h₀ : world.env.alloc s.allocs with
  | none => exact getResolution_noMemory pResolution (Or.inl h₀) stale stale'
  | some a₀ =>
    cases h₁ : world.env.alloc (s.allocs + 1) with
    | none => exact getResolution_noMemory pResolution (Or.inr h₁) stale stale'
    | some a₁ =>
      have hwritten : ∀ k < 2, ∀ x < min (world.env.copy (s.copies + k)).copied
          hdr.sizeofSensorResolutionInfo,
          ResolutionWritten hdr.toSensorHeader world s.calls s.dev.slots k x := by
        simpa [GetResolutionFilled, h₀, h₁] using h
      obtain ⟨heap, hrun⟩ := getResolution_eq pResolution h₀ h₁
      have hsent : ∀ k < 2, resolutionDelivery hdr world pResolution s stale k =
          resolutionDelivery hdr world pResolution s stale' k := by
        intro k hk
        rw [resolutionDelivery, resolutionDelivery, resolutionSent_congr (hwritten k hk)]
      rw [hrun, hrun, hsent 0 (by omega), hsent 1 (by omega)]

/-! ## GETINFO2 -/

/-- The resolution is asked for in the eleventh walk, when the first copy was
whole, and its written bytes are handed out. -/
def GetInfo2Filled (hdr : CameraHeader) (world : World) (arg : GetInfo2Arg) (s : Kernel Sensors) :
    Prop :=
  (world.env.copy s.copies).copied < hdr.sizeofSensorInfo2 ∨
    ∀ x < min (world.env.copy (s.copies + 1)).copied hdr.sizeofSensorResolutionInfo,
      ResolutionWritten hdr.toSensorHeader world (s.calls + 10) s.dev.slots
        (sensorIdNum hdr arg.sensorId) x

/-- The state after `n` rounds. -/
def roundsDone (s : Kernel Sensors) (ginfo : Nat → Nat → Bytes) (n : Nat) : Kernel Sensors :=
  { s with dev := { s.dev with ginfo }, calls := s.calls + n }

theorem roundsDone_roundsDone (s : Kernel Sensors) (g g' : Nat → Nat → Bytes) (m n : Nat) :
    roundsDone (roundsDone s g m) g' n = roundsDone s g' (m + n) := by
  simp only [roundsDone, Nat.add_assoc]

theorem getInfoRound_eq (hdr : CameraHeader) (world : World) (round : Nat) (s : Kernel Sensors) :
    ∃ ginfo, ∀ stale, getInfoRound hdr world round stale s = ((), roundsDone s ginfo 1) := by
  refine ⟨Function.update s.dev.ginfo round (kdMultiSensorGetInfo hdr.toSensorHeader world s.calls
    s.dev.slots (s.dev.ginfo round) fun _ => Bytes.zero).2.1, fun stale => ?_⟩
  rw [getInfo_info _ _ fun i => stale.stack (.config round i)]
  rfl

theorem getInfoRounds_eq (hdr : CameraHeader) (world : World) (rounds : List Nat)
    (s : Kernel Sensors) :
    ∃ ginfo, ∀ stale, getInfoRounds hdr world rounds stale s =
      ((), roundsDone s ginfo rounds.length) := by
  induction rounds generalizing s with
  | nil => exact ⟨s.dev.ginfo, fun _ => rfl⟩
  | cons round rounds ih =>
    obtain ⟨g, hround⟩ := getInfoRound_eq hdr world round s
    obtain ⟨ginfo, hrest⟩ := ih (roundsDone s g 1)
    refine ⟨ginfo, fun stale => ?_⟩
    rw [getInfoRounds, bind_apply, hround, hrest, roundsDone_roundsDone, List.length_cons,
      Nat.add_comm 1]

/-- Both passes leave old memory alone. -/
theorem getInfo2_eq (arg : GetInfo2Arg) (s : Kernel Sensors) :
    ∃ info ginfo, ∀ stale, adoptCameraHwGetInfo2 hdr world arg stale s =
      copyOutThen world.env arg.pInfo info hdr.sizeofSensorInfo2
        (getInfo2Resolution hdr world arg fun i => stale.stack (.sensorResolution i)) stale
        (roundsDone s ginfo 10) := by
  obtain ⟨first, hfirst⟩ := getInfoRounds_eq hdr world (List.range 5) s
  obtain ⟨second, hsecond⟩ := getInfoRounds_eq hdr world (List.range 5) (roundsDone s first 5)
  refine ⟨fillSensorInfo2 hdr (sensorIdNum hdr arg.sensorId) first second, second, fun stale => ?_⟩
  have hten : roundsDone (roundsDone s first 5) second 5 = roundsDone s second 10 :=
    roundsDone_roundsDone s first second 5 5
  have hrounds : getInfoRounds hdr world (List.range 5) stale
      (getInfoRounds hdr world (List.range 5) stale s).2 = ((), roundsDone s second 10) := by
    rw [hfirst stale, ← hten]
    exact hsecond stale
  show copyOutThen world.env arg.pInfo
    (fillSensorInfo2 hdr (sensorIdNum hdr arg.sensorId)
      (getInfoRounds hdr world (List.range 5) stale s).2.dev.ginfo
      (getInfoRounds hdr world (List.range 5) stale
        (getInfoRounds hdr world (List.range 5) stale s).2).2.dev.ginfo)
    hdr.sizeofSensorInfo2
    (getInfo2Resolution hdr world arg fun i => stale.stack (.sensorResolution i)) stale
    (getInfoRounds hdr world (List.range 5) stale
      (getInfoRounds hdr world (List.range 5) stale s).2).2 = _
  rw [hrounds, hfirst]
  rfl

theorem getInfo2_same {arg : GetInfo2Arg} {s : Kernel Sensors}
    (h : GetInfo2Filled hdr world arg s) (stale stale' : Stale StackVar) :
    adoptCameraHwGetInfo2 hdr world arg stale s =
      adoptCameraHwGetInfo2 hdr world arg stale' s := by
  obtain ⟨info, ginfo, hrun⟩ := getInfo2_eq arg s
  rw [hrun, hrun]
  refine copyOutThen_congr _ (fun _ _ => rfl) _ fun hwhole => ?_
  have hwritten : ∀ x < min (world.env.copy (s.copies + 1)).copied hdr.sizeofSensorResolutionInfo,
      ResolutionWritten hdr.toSensorHeader world (s.calls + 10) s.dev.slots
        (sensorIdNum hdr arg.sensorId) x := by
    rcases h with h | h
    · have hlt : ¬ hdr.sizeofSensorInfo2 ≤ (world.env.copy s.copies).copied := by omega
      exact absurd hwhole hlt
    · exact h
  refine copyOutThen_congr _ (fun x hx => ?_) _ fun _ => rfl
  exact read_take_inj (resolutionSent_congr hwritten (fun i => stale.stack (.sensorResolution i))
    fun i => stale'.stack (.sensorResolution i)) x hx

theorem getInfo2Resolution_sends (arg : GetInfo2Arg) (old : Nat → Bytes)
    (stale : Stale StackVar) (s : Kernel Sensors) :
    s.user ++ [{ addr := arg.pSensorResolution,
                 bytes := resolutionSent hdr world s.calls s.copies s.dev.slots old
                   (sensorIdNum hdr arg.sensorId) }] <+:
      (getInfo2Resolution hdr world arg old stale s).2.user :=
  copyOutThen_sends world.env arg.pSensorResolution
    ((kdMultiSensorGetResolution hdr.toSensorHeader world s.calls s.dev.slots old).2
      (sensorIdNum hdr arg.sensorId))
    hdr.sizeofSensorResolutionInfo (Grows.pure 0) stale { s with calls := s.calls + 1 }

/-- Two deliveries of a GETINFO2 reply whose first copy is whole. -/
theorem getInfo2_left (arg : GetInfo2Arg) {s : Kernel Sensors}
    (hwhole : hdr.sizeofSensorInfo2 ≤ (world.env.copy s.copies).copied) :
    ∃ first, ∀ stale, s.user ++ [first] ++ [
        { addr := arg.pSensorResolution,
          bytes := resolutionSent hdr world (s.calls + 10) (s.copies + 1) s.dev.slots
            (fun i => stale.stack (.sensorResolution i)) (sensorIdNum hdr arg.sensorId) }] <+:
      (adoptCameraHwGetInfo2 hdr world arg stale s).2.user := by
  obtain ⟨info, ginfo, hrun⟩ := getInfo2_eq arg s
  refine ⟨{ addr := arg.pInfo,
            bytes := (info.read 0 hdr.sizeofSensorInfo2).take (world.env.copy s.copies).copied },
    fun stale => ?_⟩
  rw [hrun, copyOutThen_whole world.env arg.pInfo info (s := roundsDone s ginfo 10) hwhole]
  exact getInfo2Resolution_sends arg (fun i => stale.stack (.sensorResolution i)) stale
    (copyOut world.env arg.pInfo info hdr.sizeofSensorInfo2 stale (roundsDone s ginfo 10)).2

end Replies

end Camera
end AtomDrivers
