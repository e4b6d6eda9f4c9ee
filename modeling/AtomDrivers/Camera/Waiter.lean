/-
Who waits for the exposure with the mutex taken.

`CAMERA_HW_Ioctl` takes `kdCam_Mutex` first and gives it back last, and
`kdSensorSetExpGainWaitDone` sleeps in between.  The flag it sleeps on is set by
`kdSetExpGain`, which only the request of another client can reach, with the mutex
taken.  Clients enter, take the mutex, are served, sleep, wake up and leave one
step at a time, in any order.
-/
import AtomDrivers.Camera.StaleBytes
import AtomDrivers.Camera.Handed
import AtomDrivers.Machine.Run

namespace AtomDrivers
namespace Camera

open Linux Routine

/-- `wait_event_interruptible_timeout` on a condition: what it returns without
sleeping, `none` when it sleeps. -/
structure WaitEvent where
  atOnce : Bool → BitVec 32 → Option Int
  atOnce_true : ∀ jiffies, (atOnce true jiffies).isSome = true
  atOnce_false : ∀ jiffies, jiffies ≠ 0 → atOnce false jiffies = none

inductive Phase
  | user
  /-- at `mutex_lock` -/
  | entering (cmd : BitVec 32) (param : BitVec 64)
  | inside (cmd : BitVec 32) (param : BitVec 64)
  /-- on `kd_sensor_wait_queue` -/
  | asleep (cmd : BitVec 32) (param : BitVec 64) (stale : Stale StackVar) (pBuff : Buffer)
  /-- at `mutex_unlock` -/
  | leaving (ret : Int)

def Phase.holds : Phase → Bool
  | .inside _ _ | .asleep _ _ _ _ | .leaving _ => true
  | _ => false

def Phase.sleeps : Phase → Bool
  | .asleep _ _ _ _ => true
  | _ => false

theorem Phase.holds_of_sleeps {phase : Phase} (h : phase.sleeps = true) : phase.holds = true := by
  cases phase with
  | asleep cmd param stale pBuff => rfl
  | _ => cases h

structure Clients where
  kernel : Kernel Sensors
  kdCamMutex : Option Nat
  client : Nat → Phase

inductive Move
  | issue (c : Nat) (cmd : BitVec 32) (param : BitVec 64)
  | lock (c : Nat)
  | serve (c : Nat) (stale : Stale StackVar)
  /-- with some jiffies left -/
  | wake (c : Nat) (left : Nat)
  | timeOut (c : Nat)
  | signal (c : Nat)
  | unlock (c : Nat)

namespace Clients

def goTo (s : Clients) (c : Nat) (phase : Phase) : Clients :=
  { s with client := Function.update s.client c phase }

@[simp] theorem goTo_kernel (s : Clients) (c : Nat) (phase : Phase) :
    (s.goTo c phase).kernel = s.kernel := rfl

@[simp] theorem goTo_kdCamMutex (s : Clients) (c : Nat) (phase : Phase) :
    (s.goTo c phase).kdCamMutex = s.kdCamMutex := rfl

@[simp] theorem goTo_self (s : Clients) (c : Nat) (phase : Phase) :
    (s.goTo c phase).client c = phase := by simp [goTo]

theorem goTo_of_ne (s : Clients) {c d : Nat} (h : d ≠ c) (phase : Phase) :
    (s.goTo c phase).client d = s.client d := by simp [goTo, h]

end Clients

section Clients

variable (hdr : CameraHeader) (world : World) (wait : WaitEvent)

/-- A waiting request up to the wait, with what it returns before that. -/
def upToWait (cmd : BitVec 32) (param : BitVec 64) : SensorM (Int ⊕ Buffer) := do
  match ← kmalloc world.env (iocSize cmd) with
  | none => pure (.inl (-ENOMEM))
  | some pBuff => do
    let (pBuff, missing) ← pBuff.copyIn world.env param (iocSize cmd)
    if missing ≠ 0 then do
      kfree pBuff
      pure (.inl (-EFAULT))
    else pure (.inr pBuff)

def fromWait (cmd : BitVec 32) (param : BitVec 64) (pBuff : Buffer) (timeout : Int) :
    SensorM Int :=
  reply world cmd param (if timeout = 0 then -EAGAIN else 0) pBuff

namespace Clients

def afterWait (s : Clients) (c : Nat) (cmd : BitVec 32) (param : BitVec 64)
    (stale : Stale StackVar) (pBuff : Buffer) (timeout : Int) : Clients :=
  let r := fromWait world cmd param pBuff timeout stale s.kernel
  { s with kernel := r.2 }.goTo c (.leaving r.1)

/-- Only the wait lets other clients move. -/
def serve (s : Clients) (c : Nat) (cmd : BitVec 32) (param : BitVec 64)
    (stale : Stale StackVar) : Clients :=
  if hdr.command cmd = some .setShutterGainWaitDone then
    let r := upToWait world cmd param stale s.kernel
    match r.1 with
    | .inl ret => { s with kernel := r.2 }.goTo c (.leaving ret)
    | .inr pBuff =>
      match wait.atOnce r.2.dev.setExpGainDoneFlag (msToJiffies hdr (pBuff.bytes.u32 0)) with
      | some timeout => { s with kernel := r.2 }.afterWait world c cmd param stale pBuff timeout
      | none => { s with kernel := r.2 }.goTo c (.asleep cmd param stale pBuff)
  else
    let r := cameraHwIoctl hdr world cmd param stale s.kernel
    { s with kernel := r.2 }.goTo c (.leaving r.1)

end Clients

/-- The output is the value that the ioctl returns. -/
def cameraClients : Machine Clients Move (Option Int) where
  step s
    | .issue c cmd param =>
      match s.client c with
      | .user => some (s.goTo c (.entering cmd param), none)
      | _ => none
    | .lock c =>
      match s.client c, s.kdCamMutex with
      | .entering cmd param, none =>
        some ({ s with kdCamMutex := some c }.goTo c (.inside cmd param), none)
      | _, _ => none
    | .serve c stale =>
      match s.client c with
      | .inside cmd param => some (s.serve hdr world wait c cmd param stale, none)
      | _ => none
    | .wake c left =>
      match s.client c, s.kernel.dev.setExpGainDoneFlag with
      | .asleep cmd param stale pBuff, true =>
        some (s.afterWait world c cmd param stale pBuff (left + 1 : Nat), none)
      | _, _ => none
    | .timeOut c =>
      match s.client c with
      | .asleep cmd param stale pBuff =>
        -- the condition is looked at once more
        let timeout := if s.kernel.dev.setExpGainDoneFlag then 1 else 0
        some (s.afterWait world c cmd param stale pBuff timeout, none)
      | _ => none
    | .signal c =>
      match s.client c with
      | .asleep cmd param stale pBuff =>
        some (s.afterWait world c cmd param stale pBuff (-ERESTARTSYS), none)
      | _ => none
    | .unlock c =>
      match s.client c with
      | .leaving ret => some ({ s with kdCamMutex := none }.goTo c .user, some ret)
      | _ => none

/-! ## The parts of a waiting request -/

theorem kdSensorSetExpGainWaitDone_eq (time : BitVec 32) (stale : Stale StackVar)
    (s : Kernel Sensors) :
    kdSensorSetExpGainWaitDone hdr world time stale s =
      (if world.waitEvent s.dev.setExpGainDoneFlag (msToJiffies hdr time) = 0 then -EAGAIN else 0,
        s) := by
  show (if world.waitEvent s.dev.setExpGainDoneFlag (msToJiffies hdr time) = 0 then pure (-EAGAIN)
    else pure 0 : SensorM Int) stale s = _
  by_cases htime : world.waitEvent s.dev.setExpGainDoneFlag (msToJiffies hdr time) = 0
  · rw [if_pos htime, if_pos htime]
    rfl
  · rw [if_neg htime, if_neg htime]
    rfl

section Parts

variable {hdr} {cmd : BitVec 32} (h : hdr.command cmd = some .setShutterGainWaitDone)
include h

theorem answer_wait (param : BitVec 64) (pBuff : Buffer) :
    answer hdr world cmd param pBuff = (do
      let cam ← getSensors
      fromWait world cmd param pBuff
        (world.waitEvent cam.setExpGainDoneFlag (msToJiffies hdr (pBuff.bytes.u32 0)))) := by
  funext stale s
  unfold answer request
  simp only [h, bind_apply, kdSensorSetExpGainWaitDone_eq]
  rfl

/-- With the parts put together again, it is the request of the dispatcher. -/
theorem cameraHwIoctl_wait (param : BitVec 64) :
    cameraHwIoctl hdr world cmd param = (do
      match ← upToWait world cmd param with
      | .inl ret => pure ret
      | .inr pBuff => do
        let cam ← getSensors
        fromWait world cmd param pBuff
          (world.waitEvent cam.setExpGainDoneFlag (msToJiffies hdr (pBuff.bytes.u32 0)))) := by
  have hwrites : iocWrites cmd = true := hdr.argument_written cmd _ h rfl
  have hdir : iocDir cmd ≠ iocNone := by
    intro hnone
    rw [iocWrites, hnone] at hwrites
    exact absurd hwrites (by decide)
  funext stale s
  unfold cameraHwIoctl upToWait
  rw [if_neg hdir]
  cases halloc : world.env.alloc s.allocs with
  | none =>
    simp only [bind_apply, kmalloc, halloc]
    rfl
  | some addr =>
    simp only [bind_apply, kmalloc, halloc, hwrites, if_true, answerWith]
    split
    · rfl
    · rw [answer_wait world h]
      rfl

end Parts

/-- What a client waits with. -/
def waitArgument (k : Kernel Sensors) (stale : Stale StackVar) (cmd : BitVec 32)
    (param : BitVec 64) : Bytes :=
  fetched world.env k.copies
    ((world.env.beyond k.allocs).copy (stale.heap k.allocs) (iocSize cmd)) param (iocSize cmd)

/-- The buffer is there and the argument whole. -/
def WaitArrived (k : Kernel Sensors) (cmd : BitVec 32) : Prop :=
  (world.env.alloc k.allocs).isSome = true ∧ iocSize cmd ≤ (world.env.copy k.copies).copied

theorem upToWait_dev (cmd : BitVec 32) (param : BitVec 64) (stale : Stale StackVar)
    (k : Kernel Sensors) : (upToWait world cmd param stale k).2.dev = k.dev := by
  unfold upToWait
  rw [bind_apply]
  cases halloc : world.env.alloc k.allocs with
  | none =>
    simp only [kmalloc, halloc]
    rfl
  | some addr =>
    simp only [kmalloc, halloc, bind_apply]
    split <;> rfl

theorem upToWait_arrived {k : Kernel Sensors} {cmd : BitVec 32} (h : WaitArrived world k cmd)
    (param : BitVec 64) (stale : Stale StackVar) :
    ∃ pBuff, (upToWait world cmd param stale k).1 = .inr pBuff ∧
      pBuff.bytes = waitArgument world k stale cmd param := by
  obtain ⟨addr, halloc⟩ := Option.isSome_iff_exists.mp h.1
  have hmissing := Buffer.copyIn_snd world.env
    { id := k.allocs, addr := addr, size := iocSize cmd,
      bytes := (world.env.beyond k.allocs).copy (stale.heap k.allocs) (iocSize cmd) }
    param (iocSize cmd)
    { k with allocs := k.allocs + 1, heap := k.heap ++ [.alloc k.allocs (iocSize cmd)] } stale
  have hzero := Nat.sub_eq_zero_of_le h.2
  rw [hzero] at hmissing
  unfold upToWait
  simp only [bind_apply, kmalloc, halloc, hmissing]
  exact ⟨_, rfl, rfl⟩

theorem upToWait_left {k : Kernel Sensors} {cmd : BitVec 32} (h : ¬ WaitArrived world k cmd)
    (param : BitVec 64) (stale : Stale StackVar) :
    ∃ ret, (upToWait world cmd param stale k).1 = .inl ret := by
  unfold upToWait
  rw [bind_apply]
  cases halloc : world.env.alloc k.allocs with
  | none =>
    simp only [kmalloc, halloc]
    exact ⟨_, rfl⟩
  | some addr =>
    have hshort : ¬ iocSize cmd ≤ (world.env.copy k.copies).copied := by
      intro hle
      exact h ⟨by simp [halloc], hle⟩
    have hmissing := Buffer.copyIn_snd world.env
      { id := k.allocs, addr := addr, size := iocSize cmd,
        bytes := (world.env.beyond k.allocs).copy (stale.heap k.allocs) (iocSize cmd) }
      param (iocSize cmd)
      { k with allocs := k.allocs + 1, heap := k.heap ++ [.alloc k.allocs (iocSize cmd)] } stale
    have hne : iocSize cmd - (world.env.copy k.copies).copied ≠ 0 := by omega
    simp only [kmalloc, halloc, bind_apply, hmissing, if_pos hne]
    exact ⟨_, rfl⟩

/-! ## One move -/

section Moves

variable {hdr world wait}

theorem serve_asleep {s : Clients} {cmd : BitVec 32} {param : BitVec 64}
    {stale : Stale StackVar} (hcommand : hdr.command cmd = some .setShutterGainWaitDone)
    (harrived : WaitArrived world s.kernel cmd)
    (hwait : wait.atOnce s.kernel.dev.setExpGainDoneFlag
      (msToJiffies hdr ((waitArgument world s.kernel stale cmd param).u32 0)) = none) (c : Nat) :
    ∃ kernel pBuff, s.serve hdr world wait c cmd param stale =
        { s with kernel }.goTo c (.asleep cmd param stale pBuff) ∧
      kernel.dev = s.kernel.dev := by
  obtain ⟨pBuff, hpBuff, hbytes⟩ := upToWait_arrived world harrived param stale
  unfold Clients.serve
  simp only [if_pos hcommand, hpBuff, hbytes, upToWait_dev, hwait]
  exact ⟨_, pBuff, rfl, upToWait_dev world cmd param stale s.kernel⟩

variable (hdr world wait) in
/-- A served client leaves, or sleeps in the state of before. -/
theorem serve_cases (s : Clients) (c : Nat) (cmd : BitVec 32) (param : BitVec 64)
    (stale : Stale StackVar) :
    (∃ kernel ret,
      s.serve hdr world wait c cmd param stale = { s with kernel }.goTo c (.leaving ret)) ∨
    (∃ kernel pBuff, s.serve hdr world wait c cmd param stale =
        { s with kernel }.goTo c (.asleep cmd param stale pBuff) ∧
      kernel.dev = s.kernel.dev ∧
      hdr.command cmd = some .setShutterGainWaitDone ∧ WaitArrived world s.kernel cmd ∧
      wait.atOnce s.kernel.dev.setExpGainDoneFlag
        (msToJiffies hdr ((waitArgument world s.kernel stale cmd param).u32 0)) = none) := by
  by_cases hcommand : hdr.command cmd = some .setShutterGainWaitDone
  · by_cases harrived : WaitArrived world s.kernel cmd
    · cases hwait : wait.atOnce s.kernel.dev.setExpGainDoneFlag
          (msToJiffies hdr ((waitArgument world s.kernel stale cmd param).u32 0)) with
      | some timeout =>
        obtain ⟨pBuff, hpBuff, hbytes⟩ := upToWait_arrived world harrived param stale
        refine Or.inl ?_
        unfold Clients.serve
        simp only [if_pos hcommand, hpBuff, hbytes, upToWait_dev, hwait]
        exact ⟨_, _, rfl⟩
      | none =>
        obtain ⟨kernel, pBuff, hserve, hdev⟩ := serve_asleep hcommand harrived hwait c
        exact Or.inr ⟨kernel, pBuff, hserve, hdev, hcommand, harrived, rfl⟩
    · obtain ⟨ret, hret⟩ := upToWait_left world harrived param stale
      refine Or.inl ?_
      unfold Clients.serve
      simp only [if_pos hcommand, hret]
      exact ⟨_, _, rfl⟩
  · refine Or.inl ?_
    unfold Clients.serve
    rw [if_neg hcommand]
    exact ⟨_, _, rfl⟩

/-- What a step can do. -/
theorem step_cases {s t : Clients} {move : Move} {o : Option Int}
    (h : (cameraClients hdr world wait).step s move = some (t, o)) :
    (∃ c cmd param, move = .issue c cmd param ∧ s.client c = .user ∧
      t = s.goTo c (.entering cmd param)) ∨
    (∃ c cmd param, move = .lock c ∧ s.kdCamMutex = none ∧
      t = { s with kdCamMutex := some c }.goTo c (.inside cmd param)) ∨
    (∃ c stale cmd param, move = .serve c stale ∧ s.client c = .inside cmd param ∧
      t = s.serve hdr world wait c cmd param stale) ∨
    (∃ c kernel ret, ((∃ left, move = .wake c left ∧ s.kernel.dev.setExpGainDoneFlag = true) ∨
        move = .timeOut c ∨ move = .signal c) ∧
      (s.client c).sleeps = true ∧ t = { s with kernel }.goTo c (.leaving ret)) ∨
    (∃ c, move = .unlock c ∧ (s.client c).holds = true ∧
      t = { s with kdCamMutex := none }.goTo c .user) := by
  cases move with
  | issue c cmd param =>
    simp only [cameraClients] at h
    split at h
    · rename_i huser
      cases h
      exact Or.inl ⟨c, cmd, param, rfl, huser, rfl⟩
    · cases h
  | lock c =>
    simp only [cameraClients] at h
    split at h
    · rename_i cmd param hentering hfree
      cases h
      exact Or.inr (Or.inl ⟨c, cmd, param, rfl, hfree, rfl⟩)
    · cases h
  | serve c stale =>
    simp only [cameraClients] at h
    split at h
    · rename_i cmd param hinside
      cases h
      exact Or.inr (Or.inr (Or.inl ⟨c, stale, cmd, param, rfl, hinside, rfl⟩))
    · cases h
  | wake c left =>
    simp only [cameraClients] at h
    split at h
    · rename_i hasleep hflag
      cases h
      exact Or.inr (Or.inr (Or.inr (Or.inl
        ⟨c, _, _, Or.inl ⟨left, rfl, hflag⟩, by simp [hasleep, Phase.sleeps], rfl⟩)))
    · cases h
  | timeOut c =>
    simp only [cameraClients] at h
    split at h
    · rename_i hasleep
      cases h
      exact Or.inr (Or.inr (Or.inr (Or.inl
        ⟨c, _, _, Or.inr (Or.inl rfl), by simp [hasleep, Phase.sleeps], rfl⟩)))
    · cases h
  | signal c =>
    simp only [cameraClients] at h
    split at h
    · rename_i hasleep
      cases h
      exact Or.inr (Or.inr (Or.inr (Or.inl
        ⟨c, _, _, Or.inr (Or.inr rfl), by simp [hasleep, Phase.sleeps], rfl⟩)))
    · cases h
  | unlock c =>
    simp only [cameraClients] at h
    split at h
    · rename_i hleaving
      cases h
      exact Or.inr (Or.inr (Or.inr (Or.inr ⟨c, rfl, by simp [hleaving, Phase.holds], rfl⟩)))
    · cases h

/-- Who is past `mutex_lock` owns the mutex. -/
structure Owned (s : Clients) : Prop where
  owner : ∀ c, (s.client c).holds = true → s.kdCamMutex = some c

theorem Owned.unique {s : Clients} (h : Owned s) {c d : Nat} (hc : (s.client c).holds = true)
    (hd : (s.client d).holds = true) : d = c :=
  Option.some_inj.mp ((h.owner d hd).symm.trans (h.owner c hc))

/-- One client changes its phase and keeps the mutex as it is. -/
theorem Owned.goTo {s : Clients} (h : Owned s) {c : Nat} {phase : Phase} (kernel : Kernel Sensors)
    (hc : phase.holds = true → (s.client c).holds = true) :
    Owned ({ s with kernel }.goTo c phase) := by
  refine ⟨fun d hd => ?_⟩
  by_cases hdc : d = c
  · subst hdc
    rw [Clients.goTo_self] at hd
    exact h.owner d (hc hd)
  · rw [Clients.goTo_of_ne _ hdc] at hd
    exact h.owner d hd

theorem owned_step {s t : Clients} {move : Move} {o : Option Int} (h : Owned s)
    (hstep : (cameraClients hdr world wait).step s move = some (t, o)) : Owned t := by
  obtain ⟨c, cmd, param, _, _, rfl⟩ | ⟨c, cmd, param, _, hfree, rfl⟩ |
    ⟨c, stale, cmd, param, _, hinside, rfl⟩ | ⟨c, kernel, ret, _, hsleeps, rfl⟩ |
    ⟨c, _, hholds, rfl⟩ := step_cases hstep
  · exact h.goTo s.kernel fun hentering => by cases hentering
  · refine ⟨fun d hd => ?_⟩
    by_cases hdc : d = c
    · rw [hdc]
      rfl
    · rw [Clients.goTo_of_ne _ hdc] at hd
      have howner : s.kdCamMutex = some d := h.owner d hd
      rw [hfree] at howner
      cases howner
  · have hholds : (s.client c).holds = true := by simp [hinside, Phase.holds]
    obtain ⟨kernel, ret, hserve⟩ | ⟨kernel, pBuff, hserve, _⟩ :=
      serve_cases hdr world wait s c cmd param stale
    · rw [hserve]
      exact h.goTo kernel fun _ => hholds
    · rw [hserve]
      exact h.goTo kernel fun _ => hholds
  · exact h.goTo kernel fun _ => Phase.holds_of_sleeps hsleeps
  · refine ⟨fun d hd => ?_⟩
    by_cases hdc : d = c
    · rw [hdc, Clients.goTo_self] at hd
      cases hd
    · rw [Clients.goTo_of_ne _ hdc] at hd
      exact absurd (h.unique hholds hd) hdc

/-- The client sleeps on the flag and keeps out everyone who could set it. -/
def Excludes (s : Clients) (c : Nat) : Prop :=
  (s.client c).sleeps = true ∧ s.kernel.dev.setExpGainDoneFlag = false ∧ s.kdCamMutex = some c

/-- Nobody else is served. -/
theorem excludes_serve {s : Clients} (h : Owned s) {c : Nat} (hc : Excludes s c) {d : Nat}
    (hdc : d ≠ c) (stale : Stale StackVar) :
    (cameraClients hdr world wait).step s (.serve d stale) = none := by
  cases hstep : (cameraClients hdr world wait).step s (.serve d stale) with
  | none => rfl
  | some p =>
    simp only [cameraClients] at hstep
    split at hstep
    · rename_i hinside
      have hd : (s.client d).holds = true := by simp [hinside, Phase.holds]
      exact absurd (h.unique (Phase.holds_of_sleeps hc.1) hd) hdc
    · cases hstep

/-- Only the time or a signal ends it. -/
theorem excludes_step {s t : Clients} {move : Move} {o : Option Int} (h : Owned s) {c : Nat}
    (hc : Excludes s c) (hstep : (cameraClients hdr world wait).step s move = some (t, o)) :
    Excludes t c ∨ move = .timeOut c ∨ move = .signal c := by
  obtain ⟨hsleeps, hflag, hmutex⟩ := hc
  have hholds : (s.client c).holds = true := Phase.holds_of_sleeps hsleeps
  obtain ⟨d, cmd, param, _, huser, rfl⟩ | ⟨d, cmd, param, _, hfree, rfl⟩ |
    ⟨d, stale, cmd, param, _, hinside, rfl⟩ | ⟨d, kernel, ret, hmove, hd, rfl⟩ |
    ⟨d, rfl, hd, rfl⟩ := step_cases hstep
  · have hdc : c ≠ d := by
      intro hcd
      rw [hcd, huser] at hsleeps
      cases hsleeps
    refine Or.inl ⟨?_, hflag, hmutex⟩
    rwa [Clients.goTo_of_ne _ hdc]
  · rw [hfree] at hmutex
    cases hmutex
  · have hcd : d = c := h.unique hholds (by simp [hinside, Phase.holds])
    rw [← hcd, hinside] at hsleeps
    cases hsleeps
  · have hcd : d = c := h.unique hholds (Phase.holds_of_sleeps hd)
    obtain ⟨left, _, hset⟩ | rfl | rfl := hmove
    · rw [hflag] at hset
      cases hset
    · exact Or.inr (Or.inl (by rw [hcd]))
    · exact Or.inr (Or.inr (by rw [hcd]))
  · have hcd : d = c := h.unique hholds hd
    simp only [cameraClients] at hstep
    split at hstep
    · rename_i hleaving
      rw [← hcd, hleaving] at hsleeps
      cases hsleeps
    · cases hstep

/-- No client excludes the one it waits for. -/
def NoExclusion (s : Clients) : Prop := ∀ c, ¬ Excludes s c

variable (hdr world wait) in
/-- A served wait returns at once: the flag is set, or there is no time to wait. -/
def ReturnsAtOnce (s : Clients) : Move → Prop
  | .serve c stale => ∀ cmd param, s.client c = .inside cmd param →
      hdr.command cmd = some .setShutterGainWaitDone → WaitArrived world s.kernel cmd →
      s.kernel.dev.setExpGainDoneFlag = true ∨
        (msToJiffies hdr ((waitArgument world s.kernel stale cmd param).u32 0) = 0 ∧
          (wait.atOnce false 0).isSome = true)
  | _ => True

theorem atOnce_eq_none_iff (wait : WaitEvent) (flag : Bool) (jiffies : BitVec 32) :
    wait.atOnce flag jiffies = none ↔
      ¬ (flag = true ∨ (jiffies = 0 ∧ (wait.atOnce false 0).isSome = true)) := by
  rw [← Option.not_isSome_iff_eq_none, not_iff_not]
  cases flag with
  | true => simp [wait.atOnce_true]
  | false =>
    by_cases hjiffies : jiffies = 0
    · simp [hjiffies]
    · have hsome : (wait.atOnce false jiffies).isSome = false := by
        rw [wait.atOnce_false jiffies hjiffies]
        rfl
      rw [hsome]
      refine iff_of_false Bool.false_ne_true ?_
      rintro (hflag | hzero)
      · exact Bool.false_ne_true hflag
      · exact hjiffies hzero.1

theorem noExclusion_step {s t : Clients} {move : Move} {o : Option Int} (h : Owned s)
    (hs : NoExclusion s) (hmove : ReturnsAtOnce hdr world wait s move)
    (hstep : (cameraClients hdr world wait).step s move = some (t, o)) : NoExclusion t := by
  intro d hd
  -- whoever slept before and is not the one who moves still sleeps in the state of before
  obtain ⟨c, cmd, param, _, _, rfl⟩ | ⟨c, cmd, param, _, hfree, rfl⟩ |
    ⟨c, stale, cmd, param, rfl, hinside, rfl⟩ | ⟨c, kernel, ret, _, hc, rfl⟩ |
    ⟨c, _, _, rfl⟩ := step_cases hstep
  · by_cases hdc : d = c
    · rw [hdc, Excludes, Clients.goTo_self] at hd
      cases hd.1
    · rw [Excludes, Clients.goTo_of_ne _ hdc] at hd
      exact hs d hd
  · by_cases hdc : d = c
    · rw [hdc, Excludes, Clients.goTo_self] at hd
      cases hd.1
    · rw [Excludes, Clients.goTo_of_ne _ hdc] at hd
      have howner : s.kdCamMutex = some d := h.owner d (Phase.holds_of_sleeps hd.1)
      rw [hfree] at howner
      cases howner
  · have hholds : (s.client c).holds = true := by simp [hinside, Phase.holds]
    obtain ⟨kernel, ret, hserve⟩ | ⟨kernel, pBuff, hserve, hdev, hcommand, harrived, hwait⟩ :=
      serve_cases hdr world wait s c cmd param stale
    · rw [hserve] at hd
      by_cases hdc : d = c
      · rw [hdc, Excludes, Clients.goTo_self] at hd
        cases hd.1
      · rw [Excludes, Clients.goTo_of_ne _ hdc] at hd
        exact hdc (h.unique hholds (Phase.holds_of_sleeps hd.1))
    · exact (atOnce_eq_none_iff wait _ _).mp hwait (hmove cmd param hinside hcommand harrived)
  · by_cases hdc : d = c
    · rw [hdc, Excludes, Clients.goTo_self] at hd
      cases hd.1
    · rw [Excludes, Clients.goTo_of_ne _ hdc] at hd
      exact hdc (h.unique (Phase.holds_of_sleeps hc) (Phase.holds_of_sleeps hd.1))
  · cases hd.2.2

theorem noExclusion_step_iff {s : Clients} (h : Owned s) (hs : NoExclusion s) (move : Move) :
    (∀ t o, (cameraClients hdr world wait).step s move = some (t, o) → NoExclusion t) ↔
      ReturnsAtOnce hdr world wait s move := by
  constructor
  · intro hall
    cases move with
    | serve c stale =>
      intro cmd param hinside hcommand harrived
      by_contra hnot
      have hwait := (atOnce_eq_none_iff wait _ _).mpr hnot
      obtain ⟨kernel, pBuff, hserve, hdev⟩ := serve_asleep hcommand harrived hwait c
      have hstep : (cameraClients hdr world wait).step s (.serve c stale) =
          some (s.serve hdr world wait c cmd param stale, none) := by
        simp only [cameraClients, hinside]
      refine hall _ _ hstep c ?_
      rw [hserve]
      refine ⟨by simp [Phase.sleeps], ?_, h.owner c (by simp [hinside, Phase.holds])⟩
      have hflag := (not_or.mp hnot).1
      rw [Bool.not_eq_true] at hflag
      rw [Clients.goTo_kernel, hdev]
      exact hflag
    | _ => trivial
  · exact fun hmove t o hstep => noExclusion_step h hs hmove hstep

end Moves

/-! ## Every run -/

/-- No client is in the driver. -/
def allOutside (kernel : Kernel Sensors) : Clients where
  kernel := kernel
  kdCamMutex := none
  client _ := .user

/-- Over a run of clients that move in any order, no sleeping client keeps out the
one it waits for exactly when every served wait returns at once. -/
theorem noExclusion_throughout_iff (hdr : CameraHeader) (world : World) (wait : WaitEvent)
    (kernel : Kernel Sensors) (moves : List Move) :
    (cameraClients hdr world wait).AllStates NoExclusion (allOutside kernel) moves ↔
      (cameraClients hdr world wait).AllSteps (ReturnsAtOnce hdr world wait) (allOutside kernel)
        moves := by
  have howned : Owned (allOutside kernel) := ⟨fun c hc => by cases hc⟩
  have hs : NoExclusion (allOutside kernel) := fun c hc => by cases hc.1
  rw [Machine.allStates_iff_steps hs]
  exact Machine.allSteps_iff_of_invariant (I := fun s => Owned s ∧ NoExclusion s)
    (fun s move h => noExclusion_step_iff h.1 h.2 move)
    (fun s move t o h hmove hstep =>
      ⟨owned_step h.1 hstep, noExclusion_step h.1 h.2 hmove hstep⟩) ⟨howned, hs⟩ moves

/-- KDIMGSENSORIOC_X_SET_SHUTTER_GAIN_WAIT_DONE -/
def waitDoneWord : BitVec 32 := iow 0x69 30 4

def waitHeader : CameraHeader :=
  { resolutionHeader with
    command := fun w => if w = waitDoneWord then some .setShutterGainWaitDone else none
    argument_written := by
      intro w c hw _
      by_cases h : w = waitDoneWord
      · rw [h]
        decide
      · simp [h] at hw }

def sleepsIfClear : WaitEvent where
  atOnce flag _ := if flag then some 1 else none
  atOnce_true _ := rfl
  atOnce_false _ _ := rfl

/-- One client waits after the module is loaded. -/
theorem waiter_excludes :
    ¬ (cameraClients waitHeader quietWorld sleepsIfClear).AllStates NoExclusion
      (allOutside { dev := bootSensors })
      [.issue 0 waitDoneWord 0x4001, .lock 0, .serve 0 (staleOf 0)] := by
  intro h
  exact h.last rfl 0 ⟨rfl, rfl, rfl⟩

end Clients

end Camera
end AtomDrivers
