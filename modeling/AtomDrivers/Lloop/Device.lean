/-
The parties of a lustre loop device.

Submitters run `loop_make_request`, one thread runs `loop_thread`, and whoever holds
`lloop_mutex` runs `loop_set_fd` or `loop_clr_fd`.  An action is what one of them
does under `lo_lock` or between two accesses to shared data, and a run is any
interleaving of actions.  `loop_set_fd` empties the list without the lock: its two
stores are two actions, and an insertion may come between them.  (A store in the midst
of an insertion would be a race of plain accesses, of which nothing is said.)  A
submitter that has inserted its bio is only known by the `atomic_inc` it still has to
do.

An `LASSERT` that fails hangs the thread it fails in.  The one of `loop_get_bio` also
keeps `lo_lock`; it fails for no bio that the block layer submits, and nothing is said
of the runs behind it.  The pending list is taken as its operations (`PendingList`),
so that the same device runs on linked bios and on a `Queue`.
-/
import AtomDrivers.Machine.Run
import AtomDrivers.Linux.Errno
import AtomDrivers.Lloop.Queue

namespace AtomDrivers
namespace Lloop

open Linux

inductive LoState
  | unbound
  | bound
  | rundown
  deriving DecidableEq, Repr

/-- `bio_rw`. -/
inductive Command
  | read
  | write
  | reada
  | other
  deriving DecidableEq, Repr

/-- Where a bio is: with its owner, in `loop_make_request` behind one of its two
tests, or with the device. -/
inductive Phase
  | idle
  | checked
  | admitted
  | pending
  deriving DecidableEq, Repr

/-- Where the holder of `lloop_mutex` is: in `loop_set_fd` before its store to
`lo_biotail` or to `lo_bio`, or in the `down(&lo->lo_sem)` of one of the two. -/
inductive Control
  | free
  | beforeTail
  | beforeBio
  | settingFd
  | clearingFd
  deriving DecidableEq, Repr

structure Shared (κ : Type*) where
  phase : κ → Phase
  /-- Submitters between the insertion and `atomic_inc`. -/
  uncounted : Nat
  loPending : Int
  loState : LoState
  readOnly : Bool
  loSem : Nat
  control : Control

/-- Where `loop_thread` is.  `bio` and `count` are its variables. -/
inductive Thread (η : Type*)
  | absent
  | starting
  | waiting
  | active
  | unpending
  | fetching
  | fetched (bio : η) (count : Nat)
  | handling (bio : η) (count : Nat)
  | ending (bio : η) (count : Nat) (ret : Int)
  /-- `LASSERT(count <= atomic_read(&lo->lo_pending))` failed. -/
  | crashed (bio : η) (count : Nat)
  /-- `LASSERT(first->bi_vcnt <= LLOOP_MAX_SEGMENTS)` failed. -/
  | locked
  deriving DecidableEq, Repr

/-- The operations of a device on its pending list. -/
structure PendingList (κ σ η : Type*) where
  clearTail : σ → σ
  clearBio : σ → σ
  loopAddBio : σ → κ → σ
  loopGetBio : σ → Option (σ × Got η)
  /-- What the loop of `do_bio_lustrebacked` goes through. -/
  bios : σ → η → Option (List κ)
  /-- One iteration of the loop of `loop_handle_bio`. -/
  pop : σ → η → Option (κ × σ × η)

structure Device (κ σ η : Type*) where
  shared : Shared κ
  list : σ
  thread : Thread η

inductive Act (κ : Type*)
  | check (k : κ)
  | accept (k : κ)
  | insert (k : κ)
  | count
  | start (envOk : Bool)
  | wake
  | readPending
  | readState
  | fetch
  | assertPending
  /-- `asks` says whether `cl_io_init` succeeds, so that the file is asked. -/
  | handle (asks : Bool) (ret : Int)
  | endio
  | settle
  | setFd (readOnly : Bool)
  | clearTail
  | clearBio (spawned : Bool)
  | setFdDone
  | clrFd
  | clrFdDone
  deriving DecidableEq, Repr

inductive Out (κ : Type*)
  | silent
  | rejected (k : κ)
  | inserted (k : κ)
  | missing
  | lbug
  | handled (ks : List κ) (asks : Bool)
  | ended (k : κ) (ret : Int)
  | exited
  | untailed
  | attached
  | returned (err : Int)
  deriving DecidableEq, Repr

/-- `LLIOC` callers see `-ENXIO` for a device that is not bound. -/
def ENXIO : Int := 6

namespace Shared

variable {κ : Type*} [DecidableEq κ]

def setPhase (sh : Shared κ) (k : κ) (p : Phase) : Shared κ :=
  { sh with phase := Function.update sh.phase k p }

end Shared

/-- `loop_active`. -/
def loopActive {κ : Type*} (sh : Shared κ) : Bool :=
  decide (sh.loPending ≠ 0) || decide (sh.loState = .rundown)

/-- The command tests of `loop_make_request`. -/
def refused (command : Command) (readOnly : Bool) : Bool :=
  match command with
  | .write => readOnly
  | .reada => false
  | .read => false
  | .other => true

namespace Device

variable {κ σ η : Type*} [DecidableEq κ]

section Submitters

variable (L : PendingList κ σ η) (command : κ → Command) (s : Device κ σ η)

def check (k : κ) : Option (Device κ σ η × Out κ) :=
  if s.shared.phase k = .idle then
    if s.shared.loState = .bound then
      some ({ s with shared := s.shared.setPhase k .checked }, .silent)
    else some (s, .rejected k)
  else none

def accept (k : κ) : Option (Device κ σ η × Out κ) :=
  if s.shared.phase k = .checked then
    if refused (command k) s.shared.readOnly then
      some ({ s with shared := s.shared.setPhase k .idle }, .rejected k)
    else some ({ s with shared := s.shared.setPhase k .admitted }, .silent)
  else none

def insert (k : κ) : Option (Device κ σ η × Out κ) :=
  if s.shared.phase k = .admitted then
    some ({ s with
      shared := { s.shared.setPhase k .pending with uncounted := s.shared.uncounted + 1 }
      list := L.loopAddBio s.list k }, .inserted k)
  else none

def count : Option (Device κ σ η × Out κ) :=
  match s.shared.uncounted with
  | 0 => none
  | n + 1 =>
    some ({ s with
      shared := { s.shared with uncounted := n, loPending := s.shared.loPending + 1 } }, .silent)

end Submitters

/-! ## `loop_thread` -/

section Thread

variable (L : PendingList κ σ η) (s : Device κ σ η)

def start (envOk : Bool) : Option (Device κ σ η × Out κ) :=
  match s.thread with
  | .starting =>
    some ({ s with
      shared := { s.shared with loState := .bound, loSem := s.shared.loSem + 1 }
      thread := if envOk then .waiting else .absent }, .silent)
  | _ => none

def wake : Option (Device κ σ η × Out κ) :=
  match s.thread with
  | .waiting => if loopActive s.shared then some ({ s with thread := .active }, .silent) else none
  | _ => none

def readPending : Option (Device κ σ η × Out κ) :=
  match s.thread with
  | .active =>
    if s.shared.loPending = 0 then some ({ s with thread := .unpending }, .silent)
    else some ({ s with thread := .fetching }, .silent)
  | _ => none

def readState : Option (Device κ σ η × Out κ) :=
  match s.thread with
  | .unpending =>
    if s.shared.loState = .rundown then
      some ({ s with
        shared := { s.shared with loSem := s.shared.loSem + 1 }
        thread := .absent }, .exited)
    else some ({ s with thread := .fetching }, .silent)
  | _ => none

def fetch : Option (Device κ σ η × Out κ) :=
  match s.thread with
  | .fetching =>
    match L.loopGetBio s.list with
    | none => none
    | some (list, .lbug) => some ({ s with list := list, thread := .locked }, .lbug)
    | some (list, .got bio count) =>
      if count = 0 then some ({ s with list := list, thread := .waiting }, .missing)
      else some ({ s with list := list, thread := .fetched bio count }, .silent)
  | _ => none

def assertPending : Option (Device κ σ η × Out κ) :=
  match s.thread with
  | .fetched bio count =>
    if (count : Int) ≤ s.shared.loPending then
      some ({ s with thread := .handling bio count }, .silent)
    else some ({ s with thread := .crashed bio count }, .lbug)
  | _ => none

def handle (asks : Bool) (ret : Int) : Option (Device κ σ η × Out κ) :=
  match s.thread with
  | .handling bio count =>
    match L.bios s.list bio with
    | none => none
    | some ks => some ({ s with thread := .ending bio count ret }, .handled ks asks)
  | _ => none

def endio : Option (Device κ σ η × Out κ) :=
  match s.thread with
  | .ending bio count ret =>
    match L.pop s.list bio with
    | none => none
    | some (k, list, bio') =>
      some ({ s with
        shared := s.shared.setPhase k .idle
        list := list
        thread := .ending bio' count ret }, .ended k ret)
  | _ => none

def settle : Option (Device κ σ η × Out κ) :=
  match s.thread with
  | .ending bio count _ =>
    match L.pop s.list bio with
    | none =>
      some ({ s with
        shared := { s.shared with loPending := s.shared.loPending - count }
        thread := .waiting }, .silent)
    | some _ => none
  | _ => none

end Thread

/-! ## `loop_set_fd` and `loop_clr_fd` -/

section Control

variable (L : PendingList κ σ η) (s : Device κ σ η)

def setFd (readOnly : Bool) : Option (Device κ σ η × Out κ) :=
  match s.shared.control with
  | .free =>
    if s.shared.loState = .unbound then
      some ({ s with
        shared := { s.shared with readOnly := readOnly, control := .beforeTail } }, .silent)
    else some (s, .returned (-EBUSY))
  | _ => none

/-- `lo->lo_biotail = NULL` -/
def clearTail : Option (Device κ σ η × Out κ) :=
  match s.shared.control with
  | .beforeTail =>
    some ({ s with
      shared := { s.shared with control := .beforeBio }
      list := L.clearTail s.list }, .untailed)
  | _ => none

/-- `lo->lo_bio = NULL` and `kthread_run` -/
def clearBio (spawned : Bool) : Option (Device κ σ η × Out κ) :=
  match s.shared.control with
  | .beforeBio =>
    some ({ s with
      shared := { s.shared with control := .settingFd }
      list := L.clearBio s.list
      thread := if spawned then .starting else s.thread }, .attached)
  | _ => none

def setFdDone : Option (Device κ σ η × Out κ) :=
  match s.shared.control, s.shared.loSem with
  | .settingFd, n + 1 =>
    some ({ s with shared := { s.shared with loSem := n, control := .free } }, .returned 0)
  | _, _ => none

def clrFd : Option (Device κ σ η × Out κ) :=
  match s.shared.control with
  | .free =>
    if s.shared.loState = .bound then
      some ({ s with
        shared := { s.shared with loState := .rundown, control := .clearingFd } }, .silent)
    else some (s, .returned (- ENXIO))
  | _ => none

def clrFdDone : Option (Device κ σ η × Out κ) :=
  match s.shared.control, s.shared.loSem with
  | .clearingFd, n + 1 =>
    some ({ s with
      shared :=
        { s.shared with
          loSem := n
          readOnly := false
          loState := .unbound
          control := .free } }, .returned 0)
  | _, _ => none

end Control

def step (L : PendingList κ σ η) (command : κ → Command) (s : Device κ σ η) :
    Act κ → Option (Device κ σ η × Out κ)
  | .check k => s.check k
  | .accept k => s.accept command k
  | .insert k => s.insert L k
  | .count => s.count
  | .start envOk => s.start envOk
  | .wake => s.wake
  | .readPending => s.readPending
  | .readState => s.readState
  | .fetch => s.fetch L
  | .assertPending => s.assertPending
  | .handle asks ret => s.handle L asks ret
  | .endio => s.endio L
  | .settle => s.settle L
  | .setFd readOnly => s.setFd readOnly
  | .clearTail => s.clearTail L
  | .clearBio spawned => s.clearBio L spawned
  | .setFdDone => s.setFdDone
  | .clrFd => s.clrFd
  | .clrFdDone => s.clrFdDone

end Device

def machine {κ σ η : Type*} [DecidableEq κ] (L : PendingList κ σ η) (command : κ → Command) :
    Machine (Device κ σ η) (Act κ) (Out κ) :=
  ⟨fun s a => s.step L command a⟩

/-- The device as `lloop_init` leaves it. -/
def Shared.boot {κ : Type*} : Shared κ where
  phase := fun _ => .idle
  uncounted := 0
  loPending := 0
  loState := .unbound
  readOnly := false
  loSem := 0
  control := .free

/-! ## The two pending lists -/

section Lists

variable {κ π : Type*} {w : Nat} [DecidableEq κ] (bios : κ → Bio π w) (maxSegments : Nat)

/-- Bios linked through memory. -/
def linked [Fintype κ] : PendingList κ (Links κ) (Option κ) where
  clearTail lo := { lo with loBiotail := none }
  clearBio lo := { lo with loBio := none }
  loopAddBio lo bio := lo.loopAddBio bio
  loopGetBio lo := lo.loopGetBio bios maxSegments
  bios lo bio := Storage.Chain.follow lo.biNext (Fintype.card κ) bio
  pop lo bio :=
    match bio with
    | none => none
    | some k =>
      some (k, { lo with biNext := Function.update lo.biNext k none }, lo.biNext k)

/-- A queue, and the bios that were taken from it. -/
def listed : PendingList κ (Queue κ) (List κ) where
  clearTail := Queue.clearTail
  clearBio := Queue.clearBio
  loopAddBio := Queue.add
  loopGetBio q :=
    let r := listGet bios maxSegments q.bios
    some (q.withBios r.1, r.2)
  bios _ ks := some ks
  pop q ks :=
    match ks with
    | [] => none
    | k :: ks => some (k, q, ks)

def bootLinked : Device κ (Links κ) (Option κ) where
  shared := .boot
  list := { biNext := fun _ => none, loBio := none, loBiotail := none }
  thread := .absent

def bootListed : Device κ (Queue κ) (List κ) where
  shared := .boot
  list := .joined []
  thread := .absent

/-- A run of the device on linked bios. -/
def linkedRun [Fintype κ] (command : κ → Command) (as : List (Act κ)) :
    Option (Device κ (Links κ) (Option κ) × List (Out κ)) :=
  (machine (linked bios maxSegments) command).run bootLinked as

def listedRun (command : κ → Command) (as : List (Act κ)) :
    Option (Device κ (Queue κ) (List κ) × List (Out κ)) :=
  (machine (listed bios maxSegments) command).run bootListed as

end Lists

/-! ## What a step on a queue can do -/

section Steps

variable {κ π : Type*} {w : Nat} [DecidableEq κ] {command : κ → Command} {bios : κ → Bio π w}
  {maxSegments : Nat}

/-- The branches of all actions, on bios that the block layer submits. -/
inductive ListedStep (bios : κ → Bio π w) (maxSegments : Nat) (command : κ → Command) :
    Device κ (Queue κ) (List κ) → Act κ → Device κ (Queue κ) (List κ) → Out κ → Prop
  | checked {sh q v} (k : κ) (hphase : sh.phase k = .idle) (hbound : sh.loState = .bound) :
    ListedStep bios maxSegments command ⟨sh, q, v⟩ (.check k) ⟨sh.setPhase k .checked, q, v⟩ .silent
  | unchecked {sh q v} (k : κ) (hphase : sh.phase k = .idle) (hstate : sh.loState ≠ .bound) :
    ListedStep bios maxSegments command ⟨sh, q, v⟩ (.check k) ⟨sh, q, v⟩ (.rejected k)
  | rejected {sh q v} (k : κ) (hphase : sh.phase k = .checked)
      (hcommand : refused (command k) sh.readOnly = true) :
    ListedStep bios maxSegments command ⟨sh, q, v⟩ (.accept k) ⟨sh.setPhase k .idle, q, v⟩
      (.rejected k)
  | accepted {sh q v} (k : κ) (hphase : sh.phase k = .checked)
      (hcommand : refused (command k) sh.readOnly = false) :
    ListedStep bios maxSegments command ⟨sh, q, v⟩ (.accept k) ⟨sh.setPhase k .admitted, q, v⟩
      .silent
  | inserted {sh q v} (k : κ) (hphase : sh.phase k = .admitted) :
    ListedStep bios maxSegments command ⟨sh, q, v⟩ (.insert k)
      ⟨{ sh.setPhase k .pending with uncounted := sh.uncounted + 1 }, q.add k, v⟩ (.inserted k)
  | counted {sh q v} (n : Nat) (huncounted : sh.uncounted = n + 1) :
    ListedStep bios maxSegments command ⟨sh, q, v⟩ .count
      ⟨{ sh with uncounted := n, loPending := sh.loPending + 1 }, q, v⟩ .silent
  | started {sh q} (envOk : Bool) :
    ListedStep bios maxSegments command ⟨sh, q, .starting⟩ (.start envOk)
      ⟨{ sh with loState := .bound, loSem := sh.loSem + 1 }, q, if envOk then .waiting else .absent⟩
      .silent
  | woken {sh q} (hactive : loopActive sh = true) :
    ListedStep bios maxSegments command ⟨sh, q, .waiting⟩ .wake ⟨sh, q, .active⟩ .silent
  | foundNone {sh q} (hzero : sh.loPending = 0) :
    ListedStep bios maxSegments command ⟨sh, q, .active⟩ .readPending ⟨sh, q, .unpending⟩ .silent
  | foundSome {sh q} (hne : sh.loPending ≠ 0) :
    ListedStep bios maxSegments command ⟨sh, q, .active⟩ .readPending ⟨sh, q, .fetching⟩ .silent
  | exited {sh q} (hrundown : sh.loState = .rundown) :
    ListedStep bios maxSegments command ⟨sh, q, .unpending⟩ .readState
      ⟨{ sh with loSem := sh.loSem + 1 }, q, .absent⟩ .exited
  | stayed {sh q} (hstate : sh.loState ≠ .rundown) :
    ListedStep bios maxSegments command ⟨sh, q, .unpending⟩ .readState ⟨sh, q, .fetching⟩ .silent
  | missed {sh q} (hnil : q.bios = []) :
    ListedStep bios maxSegments command ⟨sh, q, .fetching⟩ .fetch ⟨sh, q, .waiting⟩ .missing
  | fetched {sh q} (hne : q.bios ≠ []) :
    ListedStep bios maxSegments command ⟨sh, q, .fetching⟩ .fetch
      ⟨sh, q.withBios (q.bios.drop (batch bios maxSegments q.bios).length),
        .fetched (batch bios maxSegments q.bios) (batch bios maxSegments q.bios).length⟩ .silent
  | asserted {sh q ks} {n : Nat} (hle : (n : Int) ≤ sh.loPending) :
    ListedStep bios maxSegments command ⟨sh, q, .fetched ks n⟩ .assertPending
      ⟨sh, q, .handling ks n⟩ .silent
  | crashed {sh q ks} {n : Nat} (hlt : ¬ (n : Int) ≤ sh.loPending) :
    ListedStep bios maxSegments command ⟨sh, q, .fetched ks n⟩ .assertPending
      ⟨sh, q, .crashed ks n⟩ .lbug
  | handled {sh q ks n} (asks : Bool) (ret : Int) :
    ListedStep bios maxSegments command ⟨sh, q, .handling ks n⟩ (.handle asks ret)
      ⟨sh, q, .ending ks n ret⟩ (.handled ks asks)
  | ended {sh q k ks n ret} :
    ListedStep bios maxSegments command ⟨sh, q, .ending (k :: ks) n ret⟩ .endio
      ⟨sh.setPhase k .idle, q, .ending ks n ret⟩ (.ended k ret)
  | settled {sh q n ret} :
    ListedStep bios maxSegments command ⟨sh, q, .ending [] n ret⟩ .settle
      ⟨{ sh with loPending := sh.loPending - n }, q, .waiting⟩ .silent
  | attaching {sh q v} (readOnly : Bool) (hfree : sh.control = .free)
      (hunbound : sh.loState = .unbound) :
    ListedStep bios maxSegments command ⟨sh, q, v⟩ (.setFd readOnly)
      ⟨{ sh with readOnly := readOnly, control := .beforeTail }, q, v⟩ .silent
  | attachRefused {sh q v} (readOnly : Bool) (hfree : sh.control = .free)
      (hstate : sh.loState ≠ .unbound) :
    ListedStep bios maxSegments command ⟨sh, q, v⟩ (.setFd readOnly) ⟨sh, q, v⟩
      (.returned (-EBUSY))
  | tailCleared {sh q v} (hbefore : sh.control = .beforeTail) :
    ListedStep bios maxSegments command ⟨sh, q, v⟩ .clearTail
      ⟨{ sh with control := .beforeBio }, q.clearTail, v⟩ .untailed
  | bioCleared {sh q v} (spawned : Bool) (hbefore : sh.control = .beforeBio) :
    ListedStep bios maxSegments command ⟨sh, q, v⟩ (.clearBio spawned)
      ⟨{ sh with control := .settingFd }, q.clearBio, if spawned then .starting else v⟩ .attached
  | attachDone {sh q v} (n : Nat) (hsetting : sh.control = .settingFd) (hsem : sh.loSem = n + 1) :
    ListedStep bios maxSegments command ⟨sh, q, v⟩ .setFdDone
      ⟨{ sh with loSem := n, control := .free }, q, v⟩ (.returned 0)
  | detaching {sh q v} (hfree : sh.control = .free) (hbound : sh.loState = .bound) :
    ListedStep bios maxSegments command ⟨sh, q, v⟩ .clrFd
      ⟨{ sh with loState := .rundown, control := .clearingFd }, q, v⟩ .silent
  | detachRefused {sh q v} (hfree : sh.control = .free) (hstate : sh.loState ≠ .bound) :
    ListedStep bios maxSegments command ⟨sh, q, v⟩ .clrFd ⟨sh, q, v⟩ (.returned (- ENXIO))
  | detachDone {sh q v} (n : Nat) (hclearing : sh.control = .clearingFd) (hsem : sh.loSem = n + 1) :
    ListedStep bios maxSegments command ⟨sh, q, v⟩ .clrFdDone
      ⟨{ sh with loSem := n, readOnly := false, loState := .unbound, control := .free }, q, v⟩
      (.returned 0)

theorem listedStep_of_step (hbios : Submittable bios maxSegments)
    {t t' : Device κ (Queue κ) (List κ)} {a : Act κ} {o : Out κ}
    (hstep : (machine (listed bios maxSegments) command).step t a = some (t', o)) :
    ListedStep bios maxSegments command t a t' o := by
  obtain ⟨sh, q, v⟩ := t
  cases a with
  | check k =>
    simp only [machine, Device.step, Device.check] at hstep
    split at hstep
    · next hphase =>
      split at hstep <;> cases hstep
      · next hbound => exact .checked k hphase hbound
      · next hstate => exact .unchecked k hphase hstate
    · cases hstep
  | accept k =>
    simp only [machine, Device.step, Device.accept] at hstep
    split at hstep
    · next hphase =>
      split at hstep <;> cases hstep
      · next hcommand => exact .rejected k hphase hcommand
      · next hcommand => exact .accepted k hphase (by simpa using hcommand)
    · cases hstep
  | insert k =>
    simp only [machine, Device.step, Device.insert] at hstep
    split at hstep <;> cases hstep
    next hphase => exact .inserted k hphase
  | count =>
    simp only [machine, Device.step, Device.count] at hstep
    split at hstep <;> cases hstep
    next n huncounted => exact .counted n huncounted
  | start envOk =>
    cases v with
    | starting =>
      cases hstep
      exact .started envOk
    | _ => cases hstep
  | wake =>
    cases v with
    | waiting =>
      simp only [machine, Device.step, Device.wake] at hstep
      split at hstep <;> cases hstep
      next hactive => exact .woken hactive
    | _ => cases hstep
  | readPending =>
    cases v with
    | active =>
      simp only [machine, Device.step, Device.readPending] at hstep
      split at hstep <;> cases hstep
      · next hzero => exact .foundNone hzero
      · next hne => exact .foundSome hne
    | _ => cases hstep
  | readState =>
    cases v with
    | unpending =>
      simp only [machine, Device.step, Device.readState] at hstep
      split at hstep <;> cases hstep
      · next hrundown => exact .exited hrundown
      · next hstate => exact .stayed hstate
    | _ => cases hstep
  | fetch =>
    cases v with
    | fetching =>
      simp only [machine, Device.step, Device.fetch, listed, listGet_eq hbios] at hstep
      by_cases hnil : q.bios = []
      · have hsame : q.withBios [] = q := by
          have hself := q.withBios_self
          rwa [hnil] at hself
        rw [hnil] at hstep
        simp only [List.drop_nil, hsame] at hstep
        cases hstep
        exact .missed hnil
      · have hlength : (batch bios maxSegments q.bios).length ≠ 0 := fun hzero =>
          batch_ne_nil hbios hnil (List.length_eq_zero_iff.mp hzero)
        rw [if_neg hlength] at hstep
        cases hstep
        exact .fetched hnil
    | _ => cases hstep
  | assertPending =>
    cases v with
    | fetched ks n =>
      simp only [machine, Device.step, Device.assertPending] at hstep
      split at hstep <;> cases hstep
      · next hle => exact .asserted hle
      · next hlt => exact .crashed hlt
    | _ => cases hstep
  | handle asks ret =>
    cases v with
    | handling ks n =>
      cases hstep
      exact .handled asks ret
    | _ => cases hstep
  | endio =>
    cases v with
    | ending ks n ret =>
      cases ks with
      | nil => cases hstep
      | cons k ks =>
        cases hstep
        exact .ended
    | _ => cases hstep
  | settle =>
    cases v with
    | ending ks n ret =>
      cases ks with
      | cons k ks => cases hstep
      | nil =>
        cases hstep
        exact .settled
    | _ => cases hstep
  | setFd readOnly =>
    simp only [machine, Device.step, Device.setFd] at hstep
    split at hstep
    · next hfree =>
      split at hstep <;> cases hstep
      · next hunbound => exact .attaching readOnly hfree hunbound
      · next hstate => exact .attachRefused readOnly hfree hstate
    · cases hstep
  | clearTail =>
    simp only [machine, Device.step, Device.clearTail] at hstep
    split at hstep <;> cases hstep
    next hbefore => exact .tailCleared hbefore
  | clearBio spawned =>
    simp only [machine, Device.step, Device.clearBio] at hstep
    split at hstep <;> cases hstep
    next hbefore => exact .bioCleared spawned hbefore
  | setFdDone =>
    simp only [machine, Device.step, Device.setFdDone] at hstep
    split at hstep <;> cases hstep
    next n hsetting hsem => exact .attachDone n hsetting hsem
  | clrFd =>
    simp only [machine, Device.step, Device.clrFd] at hstep
    split at hstep
    · next hfree =>
      split at hstep <;> cases hstep
      · next hbound => exact .detaching hfree hbound
      · next hstate => exact .detachRefused hfree hstate
    · cases hstep
  | clrFdDone =>
    simp only [machine, Device.step, Device.clrFdDone] at hstep
    split at hstep <;> cases hstep
    next n hclearing hsem => exact .detachDone n hclearing hsem

end Steps

/-! ## Runs to look at -/

/-- A file is attached, and the thread waits. -/
def attachRun (readOnly : Bool) : List (Act (Fin 2)) :=
  [.setFd readOnly, .clearTail, .clearBio true, .start true, .setFdDone]

/-- A submitter goes up to its insertion. -/
def submitRun (k : Fin 2) : List (Act (Fin 2)) := [.check k, .accept k, .insert k]

/-- The thread takes the counted bio, transfers it and ends it. -/
def transferRun : List (Act (Fin 2)) :=
  [.count, .wake, .readPending, .fetch, .assertPending, .handle true 0, .endio, .settle]

/-- The thread takes two bios before the second one is counted. -/
def earlyFetch : List (Act (Fin 2)) :=
  attachRun false ++ submitRun 0 ++ submitRun 1 ++ [.count, .wake, .readPending, .fetch]

/-- A detach finds nothing pending, and the thread goes. -/
def detachRun : List (Act (Fin 2)) := [.clrFd, .wake, .readPending, .readState]

/-- A bio is counted only when the life it was inserted in is over. -/
def lateCount : List (Act (Fin 2)) :=
  attachRun false ++ submitRun 0 ++ detachRun ++ [.clrFdDone] ++ attachRun false ++
    [.count, .wake, .readPending]

/-- A bio is inserted between the two stores of the next attachment. -/
def lateInsert : List (Act (Fin 2)) :=
  attachRun false ++ [.check 0, .accept 0] ++ detachRun ++
    [.clrFdDone, .setFd false, .clearTail, .insert 0, .clearBio true, .start true, .setFdDone] ++
    submitRun 1

end Lloop
end AtomDrivers
