/-
Attaching files to lustre loop devices.

`lloop_ioctl` attaches a lustre file to the first free device and detaches a device by
its number, `lo_ioctl` detaches the device it is called on, and `lo_open` and
`lo_release` count who has a device open.  All but the last two hold `lloop_mutex`, so
that one call after the other is seen here.  `loop_thread` is reduced to whether it is
there, and to whether it ends while a detach waits for it.  A call that never comes
back keeps the mutex: it leaves the module stuck, and no other call gets through.

In every reachable state the references that the module holds are those of the attached
devices, and no file is attached twice.
-/
import AtomDrivers.Linux.Pointer
import AtomDrivers.Lloop.Device
import Mathlib.Algebra.Order.BigOperators.Group.Finset
import Mathlib.Algebra.Order.Ring.Int

namespace AtomDrivers
namespace Lloop

open Linux

def ENOENT : Int := 2
def ENODEV : Int := 19
def EFBIG : Int := 27

/-- What `loop_set_fd` and `lloop_ioctl` read of a `struct file`. -/
structure FileInfo (ι : Type*) where
  inode : ι
  isReg : Bool
  isLustre : Bool
  writable : Bool
  deriving DecidableEq, Repr

/-- `struct lloop_device`, as far as these calls use it.  `alive` says that
`loop_thread` runs. -/
structure Lo (φ : Type*) where
  loRefcnt : Int
  loOffset : BitVec 64
  loSizelimit : BitVec 64
  readOnly : Bool
  loBackingFile : Option φ
  loDevice : Bool
  loState : LoState
  alive : Bool

/-- A device as `kzalloc` leaves it. -/
def Lo.zeroed {φ : Type*} : Lo φ where
  loRefcnt := 0
  loOffset := 0
  loSizelimit := 0
  readOnly := false
  loBackingFile := none
  loDevice := false
  loState := .unbound
  alive := false

/-- The devices, and the references of the module to files and to itself. -/
structure Module (n : Nat) (φ : Type*) where
  lo : Fin n → Lo φ
  fileRefs : φ → Int
  moduleRefs : Int
  /-- How often others have each device open. -/
  opens : Fin n → Nat
  stuck : Bool

/-- What an attachment meets: whether the number can be stored, what
`blkdev_get_by_dev` returns, whether the module can be held, the size of the file, and
whether `kthread_run` and `cl_env_get` succeed. -/
structure AttachEnv where
  putUser : Bool
  blkdev : Outcome
  moduleGet : Bool
  size : BitVec 64
  spawned : Bool
  envOk : Bool
  deriving DecidableEq, Repr

/-- `ends` says whether `loop_thread`, if it is there, finds `lo_pending` at 0 while
the detach waits. -/
inductive Call (n : Nat) (φ : Type*)
  | open (i : Fin n)
  | release (i : Fin n)
  | attach (file : φ) (env : AttachEnv)
  | detachBydev (major minor : Nat) (ends : Bool)
  | detach (i : Fin n) (ends : Bool)
  | info (i : Fin n) (copied : Bool)
  deriving DecidableEq, Repr

/-- The error and, for an attachment, the number it stored for the caller; or the
call oopses or never comes back. -/
inductive Reply (n : Nat)
  | opened
  | done (err : Int) (reported : Option (Fin n))
  | oops
  | hangs
  deriving DecidableEq, Repr

/-- `get_loop_size`. -/
def getLoopSize {φ : Type*} (lo : Lo φ) (size : BitVec 64) : BitVec 64 :=
  let loopsize := size - lo.loOffset
  if (0 : BitVec 64).slt lo.loSizelimit ∧ lo.loSizelimit.slt loopsize then
    lo.loSizelimit.sshiftRight 9
  else loopsize.sshiftRight 9

section Calls

variable {n : Nat} {φ ι : Type*} [DecidableEq φ] [DecidableEq ι] (files : φ → FileInfo ι)
  (lloopMajor sectorBits : Nat)

namespace Module

def setLo (m : Module n φ) (i : Fin n) (lo : Lo φ) : Module n φ :=
  { m with lo := Function.update m.lo i lo }

def getFile (m : Module n φ) (file : φ) : Module n φ :=
  { m with fileRefs := Function.update m.fileRefs file (m.fileRefs file + 1) }

def fput (m : Module n φ) (file : φ) : Module n φ :=
  { m with fileRefs := Function.update m.fileRefs file (m.fileRefs file - 1) }

/-- `lo_open`. -/
def loOpen (m : Module n φ) (i : Fin n) : Module n φ :=
  m.setLo i { m.lo i with loRefcnt := (m.lo i).loRefcnt + 1 }

/-- `lo_release`. -/
def loRelease (m : Module n φ) (i : Fin n) : Module n φ :=
  m.setLo i { m.lo i with loRefcnt := (m.lo i).loRefcnt - 1 }

end Module

/-- `loop_set_fd`, called with `lloop_mutex` held. -/
def loopSetFd (m : Module n φ) (i : Fin n) (file : φ) (env : AttachEnv) :
    Module n φ × Reply n :=
  if env.moduleGet = false then (m, .done (-ENODEV) none)
  else if (m.lo i).loState ≠ .unbound then (m, .done (-EBUSY) none)
  else if ¬ ((files file).isReg ∧ (files file).isLustre) then (m, .done (-EINVAL) none)
  else
    let size := getLoopSize (m.lo i) env.size
    if (size.setWidth sectorBits).setWidth 64 ≠ size then (m, .done (-EFBIG) none)
    else
      let lo := { m.lo i with
        loDevice := true
        readOnly := !(files file).writable
        loBackingFile := some file
        loSizelimit := 0 }
      let held := { m with moduleRefs := m.moduleRefs + 1 }
      if env.spawned then
        (held.setLo i { lo with loState := .bound, alive := env.envOk }, .done 0 none)
      else ({ held.setLo i lo with stuck := true }, .hangs)

/-- `loop_clr_fd`, called with `lloop_mutex` held. -/
def loopClrFd (m : Module n φ) (i : Fin n) (count : Int) (ends : Bool) : Module n φ × Reply n :=
  if (m.lo i).loState ≠ .bound then (m, .done (- ENXIO) none)
  else if count < (m.lo i).loRefcnt then (m, .done (-EBUSY) none)
  else
    match (m.lo i).loBackingFile with
    | none => (m, .done (-EINVAL) none)
    | some filp =>
      if (m.lo i).alive && ends then
        let lo := { m.lo i with
          loBackingFile := none
          loDevice := false
          loOffset := 0
          loSizelimit := 0
          readOnly := false
          loState := .unbound
          alive := false }
        ({ (m.setLo i lo).fput filp with moduleRefs := m.moduleRefs - 1 }, .done 0 none)
      else
        ({ m.setLo i { m.lo i with loState := .rundown } with stuck := true }, .hangs)

/-- The loop of `LL_IOC_LLOOP_ATTACH`: the device that has the file and the first
free one.  `none` where a device that is not free has no file to look at. -/
def scan (m : Module n φ) (file : φ) :
    List (Fin n) → Option (Fin n) → Option (Option (Fin n) × Option (Fin n))
  | [], free => some (none, free)
  | i :: is, free =>
    if (m.lo i).loState = .unbound then scan m file is (free.orElse fun _ => some i)
    else
      match (m.lo i).loBackingFile with
      | none => none
      | some f =>
        if (files f).inode = (files file).inode then some (some i, free) else scan m file is free

/-- `LL_IOC_LLOOP_ATTACH`. -/
def attach (m : Module n φ) (file : φ) (env : AttachEnv) : Module n φ × Reply n :=
  match scan files m file (List.finRange n) none with
  | none => (m, .oops)
  | some (none, some i) =>
    if env.putUser = false then (m, .done (-EFAULT) none)
    else
      match env.blkdev with
      | some e => (m, .done (-e.no) (some i))
      | none =>
        match loopSetFd files sectorBits ((m.loOpen i).getFile file) i file env with
        | (m', .done err _) =>
          if err = 0 then (m', .done err (some i))
          else ((m'.fput file).loRelease i, .done err (some i))
        | (m', reply) => (m', reply)
  | some _ => (m, .done (-EBUSY) none)

/-- `blkdev_put` behind a `loop_clr_fd` that returned 0. -/
def putBack (i : Fin n) : Module n φ × Reply n → Module n φ × Reply n
  | (m, .done err reported) => if err = 0 then (m.loRelease i, .done err reported) else
      (m, .done err reported)
  | (m, reply) => (m, reply)

/-- `LL_IOC_LLOOP_DETACH_BYDEV`. -/
def detachBydev (m : Module n φ) (major minor : Nat) (ends : Bool) : Module n φ × Reply n :=
  if major ≠ lloopMajor then (m, .done (-EINVAL) none)
  else if h : minor < n then
    if (m.lo ⟨minor, h⟩).loState ≠ .bound then (m, .done (-EINVAL) none)
    else putBack ⟨minor, h⟩ (loopClrFd m ⟨minor, h⟩ 1 ends)
  else (m, .done (-EINVAL) none)

/-- `LL_IOC_LLOOP_INFO`; only the error is kept. -/
def info (m : Module n φ) (i : Fin n) (copied : Bool) : Reply n :=
  if (m.lo i).loBackingFile = none then .done (-ENOENT) none
  else if copied then .done 0 none
  else .done (-EFAULT) none

/-- One call. -/
def call (m : Module n φ) : Call n φ → Option (Module n φ × Reply n)
  | .open i =>
    some ({ m.loOpen i with opens := Function.update m.opens i (m.opens i + 1) }, .opened)
  | .release i =>
    match m.opens i with
    | 0 => none
    | k + 1 => some ({ m.loRelease i with opens := Function.update m.opens i k }, .opened)
  | .attach file env => if m.stuck then none else some (attach files sectorBits m file env)
  | .detachBydev major minor ends =>
    if m.stuck then none else some (detachBydev lloopMajor m major minor ends)
  | .detach i ends =>
    if m.stuck ∨ m.opens i = 0 then none else some (putBack i (loopClrFd m i 2 ends))
  | .info i copied => if m.stuck ∨ m.opens i = 0 then none else some (m, info m i copied)

def lloop : Machine (Module n φ) (Call n φ) (Reply n) :=
  ⟨call files lloopMajor sectorBits⟩

/-- The module as `lloop_init` leaves it. -/
def fresh (n : Nat) (φ : Type*) : Module n φ where
  lo := fun _ => .zeroed
  fileRefs := fun _ => 0
  moduleRefs := 0
  opens := fun _ => 0
  stuck := false

end Calls

/-! ## The invariant -/

section Balanced

variable {n : Nat} {φ ι : Type*} [DecidableEq φ] [DecidableEq ι] {files : φ → FileInfo ι}
  {m : Module n φ}

/-- One if the device has a file. -/
def Lo.attached {φ : Type*} (lo : Lo φ) : Int := if lo.loBackingFile.isSome then 1 else 0

/-- One if the device has this file. -/
def Lo.has {φ : Type*} [DecidableEq φ] (file : φ) (lo : Lo φ) : Int :=
  if lo.loBackingFile = some file then 1 else 0

/-- The references are those of the attached devices, no file is attached twice, and a
device without a file is as it was at first. -/
structure Balanced (files : φ → FileInfo ι) (m : Module n φ) : Prop where
  refcnt : ∀ i, (m.lo i).loRefcnt = m.opens i + (m.lo i).attached
  fileRefs : ∀ file, m.fileRefs file = ∑ i, (m.lo i).has file
  moduleRefs : m.moduleRefs = ∑ i, (m.lo i).attached
  distinct : ∀ i j f g, (m.lo i).loBackingFile = some f → (m.lo j).loBackingFile = some g →
    (files f).inode = (files g).inode → i = j
  detached : ∀ i, (m.lo i).loBackingFile = none →
    m.lo i = { Lo.zeroed with loRefcnt := (m.lo i).loRefcnt }
  whole : ∀ i, (m.lo i).loOffset = 0 ∧ (m.lo i).loSizelimit = 0
  bound : m.stuck = false → ∀ i, (m.lo i).loBackingFile ≠ none →
    (m.lo i).loState = .bound ∧ (m.lo i).loDevice = true

omit [DecidableEq ι] in
theorem balanced_fresh : Balanced files (fresh n φ) where
  refcnt := fun _ => rfl
  fileRefs := fun file => by simp [fresh, Lo.has, Lo.zeroed]
  moduleRefs := by simp [fresh, Lo.attached, Lo.zeroed]
  distinct := fun i j f g hf _ _ => by cases hf
  detached := fun _ _ => rfl
  whole := fun _ => ⟨rfl, rfl⟩
  bound := fun _ i hi => absurd rfl hi

omit [DecidableEq φ] in
@[simp] theorem setLo_self (i : Fin n) (lo : Lo φ) : (m.setLo i lo).lo i = lo := by
  simp [Module.setLo]

omit [DecidableEq φ] in
theorem setLo_of_ne {i j : Fin n} (h : j ≠ i) (lo : Lo φ) : (m.setLo i lo).lo j = m.lo j := by
  simp [Module.setLo, h]

omit [DecidableEq φ] in
/-- A sum over the devices when one of them changes. -/
theorem sum_setLo (g : Lo φ → Int) (i : Fin n) (lo : Lo φ) :
    ∑ j, g ((m.setLo i lo).lo j) = ∑ j, g (m.lo j) - g (m.lo i) + g lo := by
  have hrest : ∑ j ∈ Finset.univ.erase i, g ((m.setLo i lo).lo j) =
      ∑ j ∈ Finset.univ.erase i, g (m.lo j) :=
    Finset.sum_congr rfl fun j hj => by rw [setLo_of_ne (Finset.ne_of_mem_erase hj)]
  rw [← Finset.add_sum_erase _ _ (Finset.mem_univ i), hrest, setLo_self,
    ← Finset.add_sum_erase _ _ (Finset.mem_univ i)]
  omega

/-- What was counted up is counted down again. -/
theorem loRelease_fput_getFile_loOpen (i : Fin n) (file : φ) :
    ((((m.loOpen i).getFile file).fput file).loRelease i) = m := by
  have hlo : Function.update (Function.update m.lo i
        { m.lo i with loRefcnt := (m.lo i).loRefcnt + 1 }) i
        { m.lo i with loRefcnt := (m.lo i).loRefcnt + 1 - 1 } = m.lo := by
    rw [Function.update_idem, Int.add_sub_cancel, Function.update_eq_self]
  have hfiles : Function.update (Function.update m.fileRefs file (m.fileRefs file + 1)) file
        (m.fileRefs file + 1 - 1) = m.fileRefs := by
    rw [Function.update_idem, Int.add_sub_cancel, Function.update_eq_self]
  simp only [Module.loRelease, Module.fput, Module.getFile, Module.loOpen, Module.setLo,
    Function.update_self]
  rw [hlo, hfiles]

omit [DecidableEq ι] in
/-- One device changes, and the references with it. -/
theorem Balanced.set (h : Balanced files m) (m' : Module n φ) {i : Fin n} (lo : Lo φ)
    (hlo : m'.lo = (m.setLo i lo).lo) (hopens : ∀ j, j ≠ i → m'.opens j = m.opens j)
    (hrefcnt : lo.loRefcnt = m'.opens i + lo.attached)
    (hfileRefs : ∀ file, m'.fileRefs file = m.fileRefs file - (m.lo i).has file + lo.has file)
    (hmoduleRefs : m'.moduleRefs = m.moduleRefs - (m.lo i).attached + lo.attached)
    (hdistinct : ∀ f, lo.loBackingFile = some f → ∀ j, j ≠ i → ∀ g,
      (m.lo j).loBackingFile = some g → (files f).inode ≠ (files g).inode)
    (hdetached : lo.loBackingFile = none → lo = { Lo.zeroed with loRefcnt := lo.loRefcnt })
    (hwhole : lo.loOffset = 0 ∧ lo.loSizelimit = 0)
    (hbound : m'.stuck = false → m.stuck = false ∧
      (lo.loBackingFile ≠ none → lo.loState = .bound ∧ lo.loDevice = true)) :
    Balanced files m' where
  refcnt := fun j => by
    rw [hlo]
    by_cases hj : j = i
    · rw [hj, setLo_self, hrefcnt]
    · rw [setLo_of_ne hj, hopens j hj, h.refcnt j]
  fileRefs := fun file => by
    rw [hlo, hfileRefs, sum_setLo (Lo.has file), h.fileRefs]
  moduleRefs := by
    rw [hlo, hmoduleRefs, sum_setLo Lo.attached, h.moduleRefs]
  distinct := fun a b f g hf hg hinode => by
    rw [hlo] at hf hg
    by_cases ha : a = i
    · by_cases hb : b = i
      · rw [ha, hb]
      · rw [ha, setLo_self] at hf
        rw [setLo_of_ne hb] at hg
        exact absurd hinode (hdistinct f hf b hb g hg)
    · rw [setLo_of_ne ha] at hf
      by_cases hb : b = i
      · rw [hb, setLo_self] at hg
        exact absurd hinode.symm (hdistinct g hg a ha f hf)
      · rw [setLo_of_ne hb] at hg
        exact h.distinct a b f g hf hg hinode
  detached := fun j hj => by
    rw [hlo] at hj ⊢
    by_cases hji : j = i
    · rw [hji, setLo_self] at hj ⊢
      exact hdetached hj
    · rw [setLo_of_ne hji] at hj ⊢
      exact h.detached j hj
  whole := fun j => by
    rw [hlo]
    by_cases hji : j = i
    · rw [hji, setLo_self]
      exact hwhole
    · rw [setLo_of_ne hji]
      exact h.whole j
  bound := fun hstuck j hj => by
    obtain ⟨hm, hi⟩ := hbound hstuck
    rw [hlo] at hj ⊢
    by_cases hji : j = i
    · rw [hji, setLo_self] at hj ⊢
      exact hi hj
    · rw [setLo_of_ne hji] at hj ⊢
      exact h.bound hm j hj

/-! ### The scan -/

section Scan

variable {file : φ} {is : List (Fin n)} {free : Option (Fin n)}

variable (file free) in
/-- No device has the file: the scan finds the first free one. -/
theorem scan_none (h : Balanced files m)
    (hother : ∀ i ∈ is, ∀ f, (m.lo i).loBackingFile = some f →
      (files f).inode ≠ (files file).inode) :
    scan files m file is free =
      some (none, free.or (is.find? fun i => decide ((m.lo i).loState = .unbound))) := by
  induction is generalizing free with
  | nil => rw [scan, List.find?_nil, Option.or_none]
  | cons i is ih =>
    have hrest := fun j hj => hother j (List.mem_cons_of_mem i hj)
    rw [scan]
    by_cases hunbound : (m.lo i).loState = .unbound
    · rw [if_pos hunbound, ih _ hrest, List.find?_cons_of_pos (by simpa using hunbound)]
      cases free <;> rfl
    · rw [if_neg hunbound, List.find?_cons_of_neg (by simpa using hunbound)]
      cases hback : (m.lo i).loBackingFile with
      | none =>
        rw [h.detached i hback] at hunbound
        exact absurd rfl hunbound
      | some f =>
        simp only [if_neg (hother i List.mem_cons_self f hback)]
        exact ih _ hrest

variable (free) in
/-- A device has the file: the scan stops at one. -/
theorem scan_some (h : Balanced files m) (hstuck : m.stuck = false)
    (hsame : ∃ i ∈ is, ∃ f, (m.lo i).loBackingFile = some f ∧
      (files f).inode = (files file).inode) :
    ∃ i free', scan files m file is free = some (some i, free') := by
  induction is generalizing free with
  | nil =>
    obtain ⟨i, hi, _⟩ := hsame
    cases hi
  | cons i is ih =>
    rw [scan]
    obtain ⟨j, hj, f, hf, hinode⟩ := hsame
    by_cases hunbound : (m.lo i).loState = .unbound
    · rw [if_pos hunbound]
      refine ih _ ⟨j, ?_, f, hf, hinode⟩
      rcases List.mem_cons.mp hj with rfl | hj
      · have hbound := (h.bound hstuck j (by simp [hf])).1
        rw [hunbound] at hbound
        cases hbound
      · exact hj
    · rw [if_neg hunbound]
      cases hback : (m.lo i).loBackingFile with
      | none =>
        rw [h.detached i hback] at hunbound
        exact absurd rfl hunbound
      | some g =>
        simp only
        by_cases hg : (files g).inode = (files file).inode
        · rw [if_pos hg]
          exact ⟨i, free, rfl⟩
        · rw [if_neg hg]
          refine ih _ ⟨j, ?_, f, hf, hinode⟩
          rcases List.mem_cons.mp hj with rfl | hj
          · rw [hf] at hback
            cases hback
            exact absurd hinode hg
          · exact hj

end Scan

/-! ### Attaching -/

/-- The device with the file. -/
def Lo.withFile (files : φ → FileInfo ι) (lo : Lo φ) (file : φ) : Lo φ :=
  { lo with
    loRefcnt := lo.loRefcnt + 1
    loDevice := true
    readOnly := !(files file).writable
    loBackingFile := some file
    loSizelimit := 0 }

/-- The module that has attached the file to the device, or is about to. -/
def Module.holding (m : Module n φ) (i : Fin n) (file : φ) (lo : Lo φ) : Module n φ :=
  { (m.setLo i lo).getFile file with moduleRefs := m.moduleRefs + 1 }

/-- The device that an attachment of `file` would take: the first free one, if no
device has the file. -/
structure Takes (files : φ → FileInfo ι) (m : Module n φ) (file : φ) (i : Fin n) : Prop where
  other : ∀ j f, (m.lo j).loBackingFile = some f → (files f).inode ≠ (files file).inode
  first : (List.finRange n).find? (fun j => decide ((m.lo j).loState = .unbound)) = some i

omit [DecidableEq φ] [DecidableEq ι] in
theorem Takes.unbound {file : φ} {i : Fin n} (h : Takes files m file i) :
    (m.lo i).loState = .unbound := by
  simpa using List.find?_some h.first

/-- The tests of `loop_set_fd` and of `lloop_ioctl` before it. -/
structure Passes (files : φ → FileInfo ι) (sectorBits : Nat) (lo : Lo φ) (file : φ)
    (env : AttachEnv) : Prop where
  putUser : env.putUser = true
  blkdev : env.blkdev = none
  moduleGet : env.moduleGet = true
  regular : (files file).isReg = true
  lustre : (files file).isLustre = true
  size : ((getLoopSize lo env.size).setWidth sectorBits).setWidth 64 = getLoopSize lo env.size

omit [DecidableEq ι] in
variable (files) in
/-- `loop_set_fd` on a device that is free: one of the tests fails and nothing has
changed, or the file is there. -/
theorem loopSetFd_cases {i : Fin n} (file : φ) (sectorBits : Nat) (env : AttachEnv)
    (hunbound : (m.lo i).loState = .unbound) :
    (∃ err, loopSetFd files sectorBits ((m.loOpen i).getFile file) i file env =
        ((m.loOpen i).getFile file, .done err none) ∧ err < 0 ∧
      ¬ Passes files sectorBits (m.lo i) file env) ∨
    (env.putUser = true → env.blkdev = none → Passes files sectorBits (m.lo i) file env) ∧
      loopSetFd files sectorBits ((m.loOpen i).getFile file) i file env =
        if env.spawned then
          (m.holding i file { (m.lo i).withFile files file with
            loState := .bound
            alive := env.envOk }, .done 0 none)
        else ({ m.holding i file ((m.lo i).withFile files file) with stuck := true }, .hangs) := by
  have hstate : (((m.loOpen i).getFile file).lo i).loState = .unbound := by
    simpa [Module.loOpen, Module.getFile] using hunbound
  have hsize : ∀ size, getLoopSize (((m.loOpen i).getFile file).lo i) size =
      getLoopSize (m.lo i) size := fun size => by
    simp [Module.loOpen, Module.getFile, getLoopSize]
  rw [loopSetFd]
  by_cases hget : env.moduleGet = true
  · rw [if_neg (by simp [hget]), if_neg (by simp [hstate])]
    by_cases hfile : (files file).isReg = true ∧ (files file).isLustre = true
    · rw [if_neg (not_not.mpr hfile), hsize]
      by_cases hfits : ((getLoopSize (m.lo i) env.size).setWidth sectorBits).setWidth 64 =
          getLoopSize (m.lo i) env.size
      · refine Or.inr ⟨fun hput hblk => ⟨hput, hblk, hget, hfile.1, hfile.2, hfits⟩, ?_⟩
        rw [if_neg (not_not.mpr hfits)]
        simp [Module.holding, Lo.withFile, Module.loOpen, Module.getFile, Module.setLo]
      · refine Or.inl ⟨-EFBIG, ?_, by decide, fun hp => hfits hp.size⟩
        simp only [if_pos hfits]
    · refine Or.inl ⟨-EINVAL, ?_, by decide, fun hp => hfile ⟨hp.regular, hp.lustre⟩⟩
      rw [if_pos hfile]
  · refine Or.inl ⟨-ENODEV, ?_, by decide, fun hp => hget hp.moduleGet⟩
    rw [if_pos (by simpa using hget)]

/-- What becomes of an attachment: it fails and leaves no trace, or it takes the first
free device, and does not come back if the thread cannot be started. -/
theorem attach_cases (h : Balanced files m) (hstuck : m.stuck = false) (sectorBits : Nat)
    (file : φ) (env : AttachEnv) :
    (∃ err reported, attach files sectorBits m file env = (m, .done err reported) ∧ err < 0 ∧
      ∀ i, Takes files m file i → ¬ Passes files sectorBits (m.lo i) file env) ∨
    ∃ i, Takes files m file i ∧ Passes files sectorBits (m.lo i) file env ∧
      attach files sectorBits m file env =
        if env.spawned then
          (m.holding i file { (m.lo i).withFile files file with
            loState := .bound
            alive := env.envOk }, .done 0 (some i))
        else ({ m.holding i file ((m.lo i).withFile files file) with stuck := true }, .hangs) := by
  by_cases hsame : ∃ i ∈ List.finRange n, ∃ f, (m.lo i).loBackingFile = some f ∧
      (files f).inode = (files file).inode
  · obtain ⟨i, free', hscan⟩ := scan_some none h hstuck hsame
    refine Or.inl ⟨-EBUSY, none, ?_, by decide, fun j hj => ?_⟩
    · rw [attach, hscan]
    · obtain ⟨k, _, f, hf, hinode⟩ := hsame
      exact absurd hinode (hj.other k f hf)
  · have hother : ∀ j f, (m.lo j).loBackingFile = some f →
        (files f).inode ≠ (files file).inode := fun j f hf hinode =>
      hsame ⟨j, List.mem_finRange j, f, hf, hinode⟩
    have hscan := scan_none file none h fun j (_ : j ∈ List.finRange n) =>
      hother j
    rw [Option.none_or] at hscan
    cases hfirst : (List.finRange n).find? fun j => decide ((m.lo j).loState = .unbound) with
    | none =>
      rw [hfirst] at hscan
      refine Or.inl ⟨-EBUSY, none, ?_, by decide, fun j hj => ?_⟩
      · rw [attach, hscan]
      · have hj' := hj.first
        rw [hfirst] at hj'
        cases hj'
    | some i =>
      rw [hfirst] at hscan
      have htakes : Takes files m file i := ⟨hother, hfirst⟩
      have hunique : ∀ j, Takes files m file j → j = i := fun j hj => by
        have hj' := hj.first
        rw [hfirst] at hj'
        exact (Option.some.inj hj').symm
      have hfails : ¬ Passes files sectorBits (m.lo i) file env →
          ∀ j, Takes files m file j → ¬ Passes files sectorBits (m.lo j) file env :=
        fun hnot j hj => by rwa [hunique j hj]
      have hset := loopSetFd_cases files file sectorBits env
        htakes.unbound
      rw [attach, hscan]
      by_cases hput : env.putUser = true
      · cases hblk : env.blkdev with
        | some e =>
          refine Or.inl ⟨-e.no, some i, by simp [hput], ?_, hfails fun hp => ?_⟩
          · have := e.pos
            omega
          · have hnone := hp.blkdev
            rw [hblk] at hnone
            cases hnone
        | none =>
          rcases hset with ⟨err, hset, herr, hnot⟩ | ⟨hp, hset⟩
          · refine Or.inl ⟨err, some i, ?_, herr, hfails fun hp => hnot hp⟩
            simp only [hput, hset, if_neg herr.ne, loRelease_fput_getFile_loOpen]
            simp
          · refine Or.inr ⟨i, htakes, hp hput hblk, ?_⟩
            simp only [hput, hset]
            by_cases hspawned : env.spawned = true
            · simp [hspawned]
            · simp [hspawned]
      · refine Or.inl ⟨-EFAULT, none, by simp [hput], by decide, hfails fun hp => ?_⟩
        exact hput hp.putUser

/-! ### Detaching -/

/-- The module that has given the file of a device back. -/
def Module.released (m : Module n φ) (i : Fin n) (filp : φ) : Module n φ :=
  { (m.setLo i { Lo.zeroed with loRefcnt := (m.lo i).loRefcnt - 1 }).fput filp with
    moduleRefs := m.moduleRefs - 1 }

/-- The module with a detach that waits for ever. -/
def Module.waiting (m : Module n φ) (i : Fin n) : Module n φ :=
  { m.setLo i { m.lo i with loState := .rundown } with stuck := true }

omit [DecidableEq ι] in
/-- What becomes of a detach: it fails and changes nothing, or the device has a file
and no more openers than it allows, and all depends on whether there is a thread that
ends. -/
theorem putBack_cases (h : Balanced files m) (hstuck : m.stuck = false) (i : Fin n) (count : Int)
    (ends : Bool) :
    (∃ err, putBack i (loopClrFd m i count ends) = (m, .done err none) ∧ err < 0 ∧
      ((m.lo i).loBackingFile = none ∨ count < m.opens i + 1)) ∨
    ∃ filp, (m.lo i).loBackingFile = some filp ∧ m.opens i + 1 ≤ count ∧
      putBack i (loopClrFd m i count ends) =
        if (m.lo i).alive && ends then (m.released i filp, .done 0 none)
        else (m.waiting i, .hangs) := by
  cases hfile : (m.lo i).loBackingFile with
  | none =>
    have hstate : (m.lo i).loState ≠ .bound := by
      rw [h.detached i hfile]
      simp [Lo.zeroed]
    refine Or.inl ⟨-6, ?_, by decide, Or.inl rfl⟩
    rw [loopClrFd, if_pos hstate]
    rfl
  | some filp =>
    obtain ⟨hbound, hdevice⟩ := h.bound hstuck i (by simp [hfile])
    have hrefcnt : (m.lo i).loRefcnt = m.opens i + 1 := by
      rw [h.refcnt i, Lo.attached, hfile]
      rfl
    rw [loopClrFd, if_neg (not_not.mpr hbound), hrefcnt, hfile]
    by_cases hcount : count < (m.opens i : Int) + 1
    · rw [if_pos hcount]
      exact Or.inl ⟨-EBUSY, rfl, by decide, Or.inr hcount⟩
    · rw [if_neg hcount]
      refine Or.inr ⟨filp, rfl, by omega, ?_⟩
      by_cases hends : ((m.lo i).alive && ends) = true
      · rw [if_pos hends]
        simp [hends, putBack, Module.released, Module.loRelease, Module.fput, Module.setLo,
          Lo.zeroed]
      · rw [if_neg hends]
        simp [hends, putBack, Module.waiting]

/-! ### Every call keeps the invariant -/

omit [DecidableEq ι] in
/-- A device changes that keeps its file. -/
theorem Balanced.keep (h : Balanced files m) (m' : Module n φ) (i : Fin n) {lo : Lo φ}
    (hlo : m'.lo = (m.setLo i lo).lo) (hopens : ∀ j, j ≠ i → m'.opens j = m.opens j)
    (hfile : lo.loBackingFile = (m.lo i).loBackingFile)
    (hrefcnt : lo.loRefcnt - (m.lo i).loRefcnt = m'.opens i - m.opens i)
    (hrest : lo = { m.lo i with loRefcnt := lo.loRefcnt, loState := lo.loState })
    (hstate : lo.loState = (m.lo i).loState ∨ m'.stuck = true ∧ lo.loBackingFile ≠ none)
    (hrefs : m'.fileRefs = m.fileRefs) (hmodule : m'.moduleRefs = m.moduleRefs)
    (hstuck : m'.stuck = false → m.stuck = false) : Balanced files m' := by
  have hattached : lo.attached = (m.lo i).attached := by rw [Lo.attached, Lo.attached, hfile]
  have hhas : ∀ file, lo.has file = (m.lo i).has file := fun file => by
    rw [Lo.has, Lo.has, hfile]
  refine h.set m' lo hlo hopens ?_ ?_ ?_ ?_ ?_ ?_ ?_
  · have hbefore := h.refcnt i
    rw [hattached]
    omega
  · intro file
    rw [hrefs, hhas]
    omega
  · rw [hmodule, hattached]
    omega
  · intro f hf j hj g hg hinode
    exact hj (h.distinct i j f g (hfile ▸ hf) hg hinode).symm
  · intro hnone
    rcases hstate with hstate | ⟨_, hsome⟩
    · rw [hrest, hstate, h.detached i (hfile ▸ hnone)]
    · exact absurd hnone hsome
  · rw [hrest]
    exact h.whole i
  · intro hm'
    refine ⟨hstuck hm', fun hsome => ?_⟩
    obtain ⟨hbound, hdevice⟩ := h.bound (hstuck hm') i (hfile ▸ hsome)
    rcases hstate with hstate | ⟨htrue, _⟩
    · exact ⟨hstate.trans hbound, by rw [hrest]; exact hdevice⟩
    · rw [htrue] at hm'
      cases hm'

omit [DecidableEq ι] in
theorem Balanced.released (h : Balanced files m) (hstuck : m.stuck = false) {i : Fin n} {filp : φ}
    (hfile : (m.lo i).loBackingFile = some filp) : Balanced files (m.released i filp) := by
  refine h.set (m.released i filp) _ rfl (fun _ _ => rfl) ?_ ?_ ?_ ?_ (fun _ => rfl)
    ⟨rfl, rfl⟩ (fun _ => ⟨hstuck, fun hne => absurd rfl hne⟩)
  · have hrefcnt := h.refcnt i
    rw [Lo.attached, hfile] at hrefcnt
    simp only [Module.released, Module.fput, Module.setLo, Lo.attached, Lo.zeroed] at hrefcnt ⊢
    simp only [Option.isSome_some, if_true] at hrefcnt
    simp
    omega
  · intro file
    by_cases heq : file = filp
    · rw [heq]
      simp [Module.released, Module.fput, Module.setLo, Lo.has, hfile, Lo.zeroed]
    · simp [Module.released, Module.fput, Module.setLo, Lo.has, hfile, Lo.zeroed, heq, Ne.symm heq]
  · simp [Module.released, Module.fput, Lo.attached, hfile, Lo.zeroed]
  · intro f hf
    cases hf

omit [DecidableEq ι] in
theorem Takes.free {file : φ} {i : Fin n} (h : Takes files m file i) (hbalanced : Balanced files m)
    (hstuck : m.stuck = false) : (m.lo i).loBackingFile = none := by
  by_contra hsome
  have hbound := (hbalanced.bound hstuck i hsome).1
  rw [h.unbound] at hbound
  cases hbound

omit [DecidableEq ι] in
theorem Balanced.holding (h : Balanced files m) {i : Fin n} {file : φ}
    (htakes : Takes files m file i) (hstuck : m.stuck = false) (lo : Lo φ) {m' : Module n φ}
    (hlo : lo = { (m.lo i).withFile files file with loState := lo.loState, alive := lo.alive })
    (hm' : m' = { m.holding i file lo with stuck := m'.stuck })
    (hbound : m'.stuck = false → lo.loState = .bound) : Balanced files m' := by
  have hfree := htakes.free h hstuck
  have hfile : lo.loBackingFile = some file := by rw [hlo]; rfl
  rw [hm']
  refine h.set _ lo rfl (fun _ _ => rfl) ?_ ?_ ?_ ?_ ?_ ?_
    (fun hm => ⟨hstuck, fun _ => ⟨hbound hm, by rw [hlo]; rfl⟩⟩)
  · have hrefcnt := h.refcnt i
    rw [Lo.attached, hfree] at hrefcnt
    have hcount : lo.loRefcnt = (m.lo i).loRefcnt + 1 := by rw [hlo]; rfl
    rw [hcount, hrefcnt, Lo.attached, hfile]
    simp [Module.holding, Module.getFile, Module.setLo]
  · intro f
    by_cases heq : f = file
    · rw [heq]
      simp [Module.holding, Module.getFile, Module.setLo, Lo.has, hfile, hfree]
    · simp [Module.holding, Module.getFile, Module.setLo, Lo.has, hfile, hfree, heq, Ne.symm heq]
  · simp [Module.holding, Lo.attached, hfile, hfree]
  · intro f hf j _ g hg hinode
    rw [hfile] at hf
    cases hf
    exact htakes.other j g hg hinode.symm
  · intro hnone
    rw [hfile] at hnone
    cases hnone
  · rw [hlo]
    exact ⟨(h.whole i).1, rfl⟩

variable {lloopMajor sectorBits : Nat}

variable (sectorBits) in
theorem balanced_attach (h : Balanced files m) (hstuck : m.stuck = false) (file : φ)
    (env : AttachEnv) : Balanced files (attach files sectorBits m file env).1 ∧
      (attach files sectorBits m file env).2 ≠ .oops := by
  rcases attach_cases h hstuck sectorBits file env with
    ⟨err, reported, hattach, _⟩ | ⟨i, htakes, _, hattach⟩
  · rw [hattach]
    exact ⟨h, by simp⟩
  · rw [hattach]
    by_cases hspawned : env.spawned = true
    · rw [if_pos hspawned]
      exact ⟨h.holding htakes hstuck { (m.lo i).withFile files file with
        loState := .bound
        alive := env.envOk } rfl rfl fun _ => rfl, by simp⟩
    · rw [if_neg hspawned]
      exact ⟨h.holding htakes hstuck ((m.lo i).withFile files file) rfl rfl
        (fun hm => by cases hm), by simp⟩

omit [DecidableEq ι] in
theorem balanced_putBack (h : Balanced files m) (hstuck : m.stuck = false) (i : Fin n)
    (count : Int) (ends : Bool) : Balanced files (putBack i (loopClrFd m i count ends)).1 ∧
      (putBack i (loopClrFd m i count ends)).2 ≠ .oops := by
  rcases putBack_cases h hstuck i count ends with ⟨err, hput, _⟩ | ⟨filp, hfile, _, hput⟩
  · rw [hput]
    exact ⟨h, by simp⟩
  · rw [hput]
    by_cases hends : ((m.lo i).alive && ends) = true
    · rw [if_pos hends]
      exact ⟨h.released hstuck hfile, by simp⟩
    · rw [if_neg hends]
      refine ⟨h.keep (m.waiting i) i rfl (fun _ _ => rfl) rfl ?_ rfl (Or.inr ⟨rfl, ?_⟩) rfl rfl
        (fun hm => by cases hm), by simp⟩
      · simp [Module.waiting, Module.setLo]
      · simp [hfile]

omit [DecidableEq ι] in
variable (lloopMajor) in
/-- `LL_IOC_LLOOP_DETACH_BYDEV` is refused or is a detach with one opener less. -/
theorem detachBydev_cases (h : Balanced files m) (hstuck : m.stuck = false) (major minor : Nat)
    (ends : Bool) :
    (detachBydev lloopMajor m major minor ends = (m, .done (-EINVAL) none) ∧
      ¬ (major = lloopMajor ∧ ∃ hi : minor < n, (m.lo ⟨minor, hi⟩).loBackingFile ≠ none)) ∨
    ∃ hi : minor < n, major = lloopMajor ∧ (m.lo ⟨minor, hi⟩).loBackingFile ≠ none ∧
      detachBydev lloopMajor m major minor ends =
        putBack ⟨minor, hi⟩ (loopClrFd m ⟨minor, hi⟩ 1 ends) := by
  rw [detachBydev]
  by_cases hmajor : major = lloopMajor
  · rw [if_neg (not_not.mpr hmajor)]
    by_cases hi : minor < n
    · rw [dif_pos hi]
      by_cases hbound : (m.lo ⟨minor, hi⟩).loState = .bound
      · rw [if_neg (not_not.mpr hbound)]
        refine Or.inr ⟨hi, hmajor, fun hnone => ?_, rfl⟩
        rw [h.detached _ hnone] at hbound
        cases hbound
      · rw [if_pos hbound]
        exact Or.inl ⟨rfl, fun ⟨_, _, hsome⟩ => hbound (h.bound hstuck _ hsome).1⟩
    · rw [dif_neg hi]
      exact Or.inl ⟨rfl, fun ⟨_, hlt, _⟩ => hi hlt⟩
  · rw [if_pos hmajor]
    exact Or.inl ⟨rfl, fun ⟨hm, _⟩ => hmajor hm⟩

theorem balanced_step (h : Balanced files m) {c : Call n φ} {m' : Module n φ} {reply : Reply n}
    (hstep : (lloop files lloopMajor sectorBits).step m c = some (m', reply)) :
    Balanced files m' ∧ reply ≠ .oops := by
  have hcall : call files lloopMajor sectorBits m c = some (m', reply) := hstep
  cases c with
  | «open» i =>
    cases hcall
    refine ⟨h.keep _ i rfl (fun j hj => Function.update_of_ne hj _ _) rfl ?_ rfl (Or.inl rfl)
      rfl rfl id, by simp⟩
    simp
  | release i =>
    rw [call] at hcall
    cases hopens : m.opens i with
    | zero =>
      rw [hopens] at hcall
      cases hcall
    | succ k =>
      rw [hopens] at hcall
      cases hcall
      refine ⟨h.keep _ i rfl (fun j hj => Function.update_of_ne hj _ _) rfl ?_ rfl
        (Or.inl rfl) rfl rfl id, by simp⟩
      simp [hopens]
  | attach file env =>
    rw [call] at hcall
    split at hcall
    · cases hcall
    · next hstuck =>
      have hkept := balanced_attach sectorBits h (by simpa using hstuck) file env
      rw [Option.some.inj hcall] at hkept
      exact hkept
  | detachBydev major minor ends =>
    rw [call] at hcall
    split at hcall
    · cases hcall
    · next hstuck =>
      have hstuck' : m.stuck = false := by simpa using hstuck
      rcases detachBydev_cases lloopMajor h hstuck' major minor ends with
        ⟨hrefused, _⟩ | ⟨hi, _, _, hput⟩
      · rw [hrefused] at hcall
        cases hcall
        exact ⟨h, by simp⟩
      · have hkept := balanced_putBack h hstuck' ⟨minor, hi⟩ 1 ends
        rw [← hput, Option.some.inj hcall] at hkept
        exact hkept
  | detach i ends =>
    rw [call] at hcall
    split at hcall
    · cases hcall
    · next hstuck =>
      have hstuck' : m.stuck = false := by
        rw [not_or] at hstuck
        simpa using hstuck.1
      have hkept := balanced_putBack h hstuck' i 2 ends
      rw [Option.some.inj hcall] at hkept
      exact hkept
  | info i copied =>
    rw [call] at hcall
    split at hcall
    · cases hcall
    · cases hcall
      refine ⟨h, ?_⟩
      rw [info]
      split
      · simp
      · split <;> simp

theorem balanced_run {cs : List (Call n φ)} {replies : List (Reply n)}
    (hrun : (lloop files lloopMajor sectorBits).run (fresh n φ) cs = some (m, replies)) :
    Balanced files m ∧ .oops ∉ replies := by
  have hall := Machine.run_outputs (M := lloop files lloopMajor sectorBits) (A := fun _ => True)
    (P := fun reply => reply ≠ .oops) (fun s c t reply hs _ hstep => balanced_step hs hstep)
    balanced_fresh (fun _ _ => trivial) hrun
  exact ⟨hall.1, fun hmem => hall.2 _ hmem rfl⟩

/-- Two files of two inodes. -/
def twoFiles (i : Fin 2) : FileInfo (Fin 2) where
  inode := i
  isReg := true
  isLustre := true
  writable := true

/-- An attachment on which all goes well. -/
def cleanEnv : AttachEnv where
  putUser := true
  blkdev := none
  moduleGet := true
  size := 4096
  spawned := true
  envOk := true

/-- In every run each device is counted once by each opener and once by its attachment,
the references to files and to the module are those of the attached devices, no inode is
attached twice, and no call oopses. -/
theorem references_eq {cs : List (Call n φ)} {replies : List (Reply n)}
    (hrun : (lloop files lloopMajor sectorBits).run (fresh n φ) cs = some (m, replies)) :
    (∀ i, (m.lo i).loRefcnt = m.opens i + (m.lo i).attached) ∧
    (∀ file, m.fileRefs file = ∑ i, (m.lo i).has file) ∧
    m.moduleRefs = ∑ i, (m.lo i).attached ∧
    (∀ i j f g, (m.lo i).loBackingFile = some f → (m.lo j).loBackingFile = some g →
      (files f).inode = (files g).inode → i = j) ∧ .oops ∉ replies := by
  obtain ⟨h, hoops⟩ := balanced_run hrun
  exact ⟨h.refcnt, h.fileRefs, h.moduleRefs, h.distinct, hoops⟩

theorem references_eq_two : ∃ m replies,
    (lloop twoFiles 253 64).run (fresh 2 (Fin 2))
      [.attach 0 cleanEnv, .open 0, .attach 0 cleanEnv, .attach 1 cleanEnv, .detach 0 true] =
        some (m, replies) ∧
    (∀ i, (m.lo i).loRefcnt = m.opens i + (m.lo i).attached) ∧
    (∀ file, m.fileRefs file = ∑ i, (m.lo i).has file) ∧
    m.moduleRefs = ∑ i, (m.lo i).attached ∧
    (∀ i j f g, (m.lo i).loBackingFile = some f → (m.lo j).loBackingFile = some g →
      (twoFiles f).inode = (twoFiles g).inode → i = j) ∧ .oops ∉ replies := by
  have hrun : (lloop twoFiles 253 64).run (fresh 2 (Fin 2))
      [.attach 0 cleanEnv, .open 0, .attach 0 cleanEnv, .attach 1 cleanEnv, .detach 0 true] =
        some (_, _) := rfl
  exact ⟨_, _, hrun, references_eq hrun⟩

/-! ### When an attachment succeeds -/

omit [DecidableEq ι] in
/-- A device is free as long as the module has fewer references than devices. -/
theorem exists_free_iff (h : Balanced files m) :
    (∃ i, (m.lo i).loBackingFile = none) ↔ m.moduleRefs < n := by
  have hle : ∀ i, (m.lo i).attached ≤ 1 := fun i => by
    rw [Lo.attached]
    split <;> omega
  have hcard : ∑ _i : Fin n, (1 : Int) = n := by simp
  rw [h.moduleRefs, ← hcard]
  constructor
  · intro hfree
    obtain ⟨i, hi⟩ := hfree
    refine Finset.sum_lt_sum (fun j _ => hle j) ⟨i, Finset.mem_univ i, ?_⟩
    simp [Lo.attached, hi]
  · intro hlt
    by_contra hnone
    have hall : ∀ i ∈ Finset.univ, (m.lo i).attached = 1 := fun i _ => by
      have hsome : (m.lo i).loBackingFile.isSome = true :=
        Option.isSome_iff_ne_none.mpr fun hi => hnone ⟨i, hi⟩
      rw [Lo.attached, if_pos hsome]
    rw [Finset.sum_congr rfl hall] at hlt
    exact absurd hlt (lt_irrefl _)

omit [DecidableEq ι] in
theorem exists_takes_iff (h : Balanced files m) (hstuck : m.stuck = false) (file : φ) :
    (∃ i, Takes files m file i) ↔
      (∀ j f, (m.lo j).loBackingFile = some f → (files f).inode ≠ (files file).inode) ∧
        m.moduleRefs < n := by
  constructor
  · intro htakes
    obtain ⟨i, hi⟩ := htakes
    exact ⟨hi.other, (exists_free_iff h).mp ⟨i, hi.free h hstuck⟩⟩
  · intro ⟨hother, hlt⟩
    obtain ⟨i, hi⟩ := (exists_free_iff h).mpr hlt
    have hunbound : (m.lo i).loState = .unbound := by rw [h.detached i hi]; rfl
    have hfind : ((List.finRange n).find? fun j => decide ((m.lo j).loState = .unbound)).isSome :=
      List.find?_isSome.mpr ⟨i, List.mem_finRange i, by simpa using hunbound⟩
    obtain ⟨j, hj⟩ := Option.isSome_iff_exists.mp hfind
    exact ⟨j, hother, hj⟩

omit [DecidableEq ι] [DecidableEq φ] in
theorem getLoopSize_whole {lo : Lo φ} (hlo : lo.loOffset = 0 ∧ lo.loSizelimit = 0)
    (size : BitVec 64) : getLoopSize lo size = size.sshiftRight 9 := by
  rw [getLoopSize, hlo.1, hlo.2, if_neg (by simp)]
  simp

/-- What an attachment of `file` needs of the file and of the kernel. -/
structure Attachable (files : φ → FileInfo ι) (sectorBits : Nat) (file : φ) (env : AttachEnv) :
    Prop where
  putUser : env.putUser = true
  blkdev : env.blkdev = none
  moduleGet : env.moduleGet = true
  regular : (files file).isReg = true
  lustre : (files file).isLustre = true
  size : ((env.size.sshiftRight 9).setWidth sectorBits).setWidth 64 = env.size.sshiftRight 9
  spawned : env.spawned = true

/-- An attachment returns 0 exactly if the file is not attached yet, a device is free,
and nothing fails on the way; one that returns an error has changed nothing. -/
theorem attach_done_iff {cs : List (Call n φ)} {replies : List (Reply n)}
    (hrun : (lloop files lloopMajor sectorBits).run (fresh n φ) cs = some (m, replies))
    (hstuck : m.stuck = false) (file : φ) (env : AttachEnv) :
    ((∃ m' i, attach files sectorBits m file env = (m', .done 0 (some i))) ↔
      (∀ j f, (m.lo j).loBackingFile = some f → (files f).inode ≠ (files file).inode) ∧
        m.moduleRefs < n ∧ Attachable files sectorBits file env) ∧
    ∀ m' err reported, attach files sectorBits m file env = (m', .done err reported) → err ≠ 0 →
      m' = m := by
  have h := (balanced_run hrun).1
  rcases attach_cases h hstuck sectorBits file env with
    ⟨err, reported, hattach, herr, hnot⟩ | ⟨i, htakes, hpasses, hattach⟩
  · rw [hattach]
    constructor
    · constructor
      · intro ⟨m', i, hdone⟩
        cases hdone
        omega
      · intro ⟨hother, hlt, hok⟩
        obtain ⟨i, hi⟩ := (exists_takes_iff h hstuck file).mpr ⟨hother, hlt⟩
        refine absurd ⟨hok.putUser, hok.blkdev, hok.moduleGet, hok.regular, hok.lustre, ?_⟩
          (hnot i hi)
        rw [getLoopSize_whole (h.whole i)]
        exact hok.size
    · intro m' err' reported' hdone _
      exact (congrArg Prod.fst hdone).symm
  · obtain ⟨hother, hlt⟩ := (exists_takes_iff h hstuck file).mp ⟨i, htakes⟩
    rw [hattach]
    by_cases hspawned : env.spawned = true
    · rw [if_pos hspawned]
      constructor
      · constructor
        · intro _
          have hsize := hpasses.size
          rw [getLoopSize_whole (h.whole i)] at hsize
          exact ⟨hother, hlt, hpasses.putUser, hpasses.blkdev, hpasses.moduleGet, hpasses.regular,
            hpasses.lustre, hsize, hspawned⟩
        · intro _
          exact ⟨_, i, rfl⟩
      · intro m' err reported hdone herr
        cases hdone
        exact absurd rfl herr
    · rw [if_neg hspawned]
      constructor
      · constructor
        · intro ⟨m', i', hdone⟩
          cases hdone
        · intro ⟨_, _, hok⟩
          exact absurd hok.spawned hspawned
      · intro m' err reported hdone _
        cases hdone

theorem attach_done_iff_two : ∃ m replies,
    (lloop twoFiles 253 64).run (fresh 2 (Fin 2)) [.attach 0 cleanEnv, .open 0] =
      some (m, replies) ∧
    ((∃ m' i, attach twoFiles 64 m 1 cleanEnv = (m', .done 0 (some i))) ↔
      (∀ j f, (m.lo j).loBackingFile = some f → (twoFiles f).inode ≠ (twoFiles 1).inode) ∧
        m.moduleRefs < (2 : Nat) ∧ Attachable twoFiles 64 1 cleanEnv) ∧
    ∀ m' err reported, attach twoFiles 64 m 1 cleanEnv = (m', .done err reported) → err ≠ 0 →
      m' = m := by
  have hrun : (lloop twoFiles 253 64).run (fresh 2 (Fin 2)) [.attach 0 cleanEnv, .open 0] =
    some (_, _) := rfl
  exact ⟨_, _, hrun, attach_done_iff hrun rfl 1 cleanEnv⟩

/-! ### From an attachment to the detach -/

/-- A detach of the device. -/
def Call.Detaches (lloopMajor : Nat) (i : Fin n) : Call n φ → Prop
  | .detachBydev major minor _ => major = lloopMajor ∧ minor = i
  | .detach j _ => j = i
  | _ => False

instance (lloopMajor : Nat) (i : Fin n) (c : Call n φ) : Decidable (c.Detaches lloopMajor i) :=
  match c with
  | .detachBydev major minor _ => inferInstanceAs (Decidable (major = lloopMajor ∧ minor = i))
  | .detach j _ => inferInstanceAs (Decidable (j = i))
  | .open _ => .isFalse id
  | .release _ => .isFalse id
  | .attach _ _ => .isFalse id
  | .info _ _ => .isFalse id

/-- The call does not detach the device, or tries in vain. -/
def Spares (files : φ → FileInfo ι) (lloopMajor sectorBits : Nat) (i : Fin n) (m : Module n φ)
    (c : Call n φ) : Prop :=
  c.Detaches lloopMajor i →
    (call files lloopMajor sectorBits m c).map Prod.snd ≠ some (.done 0 none)

instance (lloopMajor sectorBits : Nat) (i : Fin n) (m : Module n φ) (c : Call n φ) :
    Decidable (Spares files lloopMajor sectorBits i m c) := inferInstanceAs (Decidable (_ → _))

/-- The device has the file, and a thread or none. -/
structure Lo.Serves (lo : Lo φ) (file : φ) (alive : Bool) : Prop where
  file : lo.loBackingFile = some file
  alive : lo.alive = alive

omit [DecidableEq φ] in
theorem serves_of_ne {i j : Fin n} {file : φ} {alive : Bool} (hne : j ≠ i)
    (h : (m.lo j).Serves file alive) (lo : Lo φ) : ((m.setLo i lo).lo j).Serves file alive := by
  rwa [setLo_of_ne hne]

omit [DecidableEq ι] in
theorem serves_putBack (h : Balanced files m) (hstuck : m.stuck = false) {i j : Fin n} {file : φ}
    {alive : Bool} (hserves : (m.lo j).Serves file alive) (count : Int) (ends : Bool)
    (hspares : j = i → (putBack i (loopClrFd m i count ends)).2 ≠ .done 0 none) :
    ((putBack i (loopClrFd m i count ends)).1.lo j).Serves file alive := by
  rcases putBack_cases h hstuck i count ends with ⟨err, hput, _⟩ | ⟨filp, hfile, _, hput⟩
  · rw [hput]
    exact hserves
  · rw [hput] at hspares ⊢
    by_cases hends : ((m.lo i).alive && ends) = true
    · rw [if_pos hends] at hspares ⊢
      exact serves_of_ne (fun heq => hspares heq rfl) hserves _
    · rw [if_neg hends]
      by_cases hji : j = i
      · rw [← hji, Module.waiting, setLo_self]
        exact ⟨hserves.file, hserves.alive⟩
      · exact serves_of_ne hji hserves _

/-- A device keeps its file, and its thread, until it is detached. -/
theorem serves_step (h : Balanced files m) {c : Call n φ} {m' : Module n φ} {reply : Reply n}
    {i : Fin n} {file : φ} {alive : Bool} (hserves : (m.lo i).Serves file alive)
    (hspares : Spares files lloopMajor sectorBits i m c)
    (hstep : (lloop files lloopMajor sectorBits).step m c = some (m', reply)) :
    (m'.lo i).Serves file alive := by
  have hcall : call files lloopMajor sectorBits m c = some (m', reply) := hstep
  have hreply : c.Detaches lloopMajor i → reply ≠ .done 0 none := fun hdetaches hzero =>
    hspares hdetaches (by rw [hcall, hzero]; rfl)
  have hrefcnt : ∀ (j : Fin n) (count : Int),
      ((m.setLo j { m.lo j with loRefcnt := count }).lo i).Serves file alive := fun j count => by
    by_cases hj : i = j
    · rw [← hj, setLo_self]
      exact ⟨hserves.file, hserves.alive⟩
    · exact serves_of_ne hj hserves _
  cases c with
  | «open» j =>
    cases hcall
    exact hrefcnt j _
  | release j =>
    rw [call] at hcall
    cases hopens : m.opens j with
    | zero =>
      rw [hopens] at hcall
      cases hcall
    | succ k =>
      rw [hopens] at hcall
      cases hcall
      exact hrefcnt j _
  | attach f env =>
    rw [call] at hcall
    split at hcall
    · cases hcall
    · next hstuck =>
      have hstuck' : m.stuck = false := by simpa using hstuck
      rcases attach_cases h hstuck' sectorBits f env with
        ⟨err, reported, hattach, _⟩ | ⟨j, htakes, _, hattach⟩
      · rw [hattach] at hcall
        cases hcall
        exact hserves
      · have hne : i ≠ j := fun heq => by
          have hfree := htakes.free h hstuck'
          rw [← heq, hserves.file] at hfree
          cases hfree
        rw [hattach] at hcall
        split at hcall
        · cases hcall
          exact serves_of_ne hne hserves _
        · cases hcall
          exact serves_of_ne hne hserves _
  | detachBydev major minor ends =>
    rw [call] at hcall
    split at hcall
    · cases hcall
    · next hstuck =>
      have hstuck' : m.stuck = false := by simpa using hstuck
      rcases detachBydev_cases lloopMajor h hstuck' major minor ends with
        ⟨hrefused, _⟩ | ⟨hi, rfl, _, hput⟩
      · rw [hrefused] at hcall
        cases hcall
        exact hserves
      · have hkept := serves_putBack (i := ⟨minor, hi⟩) h hstuck' hserves 1 ends fun heq => by
          rw [← hput, Option.some.inj hcall]
          exact hreply ⟨rfl, by rw [heq]⟩
        rw [← hput, Option.some.inj hcall] at hkept
        exact hkept
  | detach j ends =>
    rw [call] at hcall
    split at hcall
    · cases hcall
    · next hstuck =>
      have hstuck' : m.stuck = false := by
        rw [not_or] at hstuck
        simpa using hstuck.1
      have hkept := serves_putBack (i := j) h hstuck' hserves 2 ends fun heq => by
        rw [Option.some.inj hcall]
        exact hreply heq.symm
      rw [Option.some.inj hcall] at hkept
      exact hkept
  | info j copied =>
    rw [call] at hcall
    split at hcall
    · cases hcall
    · cases hcall
      exact hserves

theorem serves_run (h : Balanced files m) {i : Fin n} {file : φ} {alive : Bool}
    (hserves : (m.lo i).Serves file alive) {cs : List (Call n φ)}
    (hspares : (lloop files lloopMajor sectorBits).AllSteps
      (Spares files lloopMajor sectorBits i) m cs) {m' : Module n φ} {replies : List (Reply n)}
    (hrun : (lloop files lloopMajor sectorBits).run m cs = some (m', replies)) :
    Balanced files m' ∧ (m'.lo i).Serves file alive :=
  Machine.run_history_of_allSteps
    (J := fun s _ _ => Balanced files s ∧ (s.lo i).Serves file alive)
    (fun _ _ _ _ _ _ hs hc hstep =>
      ⟨(balanced_step hs.1 hstep).1, serves_step hs.1 hs.2 hc hstep⟩)
    ⟨h, hserves⟩ hspares hrun

/-- An attachment that returned 0 took the first free device. -/
theorem attach_done (h : Balanced files m) {m' : Module n φ} {file : φ} {env : AttachEnv}
    {i : Fin n} (hstep : (lloop files lloopMajor sectorBits).step m (.attach file env) =
      some (m', .done 0 (some i))) :
    m.stuck = false ∧ Takes files m file i ∧
      m' = m.holding i file { (m.lo i).withFile files file with
        loState := .bound
        alive := env.envOk } := by
  have hcall : call files lloopMajor sectorBits m (.attach file env) =
    some (m', .done 0 (some i)) := hstep
  rw [call] at hcall
  split at hcall
  · cases hcall
  · next hstuck =>
    have hstuck' : m.stuck = false := by simpa using hstuck
    rcases attach_cases h hstuck' sectorBits file env with
      ⟨err, reported, hattach, herr, _⟩ | ⟨j, htakes, _, hattach⟩
    · rw [hattach] at hcall
      cases hcall
      omega
    · rw [hattach] at hcall
      split at hcall
      · cases hcall
        exact ⟨hstuck', htakes, rfl⟩
      · cases hcall

/-- Whatever was called since an attachment but a detach of the device that returned 0,
a detach by the number that was reported is refused while somebody has the device open.
As soon as nobody has, it gives the file back if the thread got its environment and
ends, so that without any call in between the module is as it was.  Otherwise it never
comes back. -/
theorem detachBydev_attached {cs₁ cs₂ : List (Call n φ)} {m₁ m₂ : Module n φ}
    {replies₁ replies₂ : List (Reply n)} {file : φ} {env : AttachEnv} {i : Fin n}
    (hrun : (lloop files lloopMajor sectorBits).run (fresh n φ) cs₁ = some (m, replies₁))
    (hattach : (lloop files lloopMajor sectorBits).step m (.attach file env) =
      some (m₁, .done 0 (some i)))
    (hrest : (lloop files lloopMajor sectorBits).run m₁ cs₂ = some (m₂, replies₂))
    (hspares : (lloop files lloopMajor sectorBits).AllSteps
      (Spares files lloopMajor sectorBits i) m₁ cs₂) (hstuck : m₂.stuck = false) (ends : Bool) :
    (m₂.opens i ≠ 0 → detachBydev lloopMajor m₂ lloopMajor i ends = (m₂, .done (-EBUSY) none)) ∧
    (m₂.opens i = 0 → env.envOk = true → ends = true → ∃ m₃,
      detachBydev lloopMajor m₂ lloopMajor i ends = (m₃, .done 0 none) ∧
      m₃.lo = Function.update m₂.lo i .zeroed ∧ m₃.opens = m₂.opens ∧
      m₃.fileRefs = Function.update m₂.fileRefs file (m₂.fileRefs file - 1) ∧
      m₃.moduleRefs = m₂.moduleRefs - 1 ∧ (cs₂ = [] → m₃ = m)) ∧
    (m₂.opens i = 0 → env.envOk = false ∨ ends = false → ∃ m₃,
      detachBydev lloopMajor m₂ lloopMajor i ends = (m₃, .hangs) ∧ m₃.stuck = true) := by
  have h := (balanced_run hrun).1
  obtain ⟨hstuck₀, htakes, hm₁⟩ := attach_done h hattach
  have hserves₁ : (m₁.lo i).Serves file env.envOk := by
    rw [hm₁]
    exact ⟨by simp [Module.holding, Module.getFile, Lo.withFile],
      by simp [Module.holding, Module.getFile]⟩
  obtain ⟨h₂, hserves⟩ := serves_run (balanced_step h hattach).1 hserves₁ hspares hrest
  obtain ⟨hbound, _⟩ := h₂.bound hstuck i (by simp [hserves.file])
  have hrefcnt : (m₂.lo i).loRefcnt = m₂.opens i + 1 := by
    rw [h₂.refcnt i, Lo.attached, hserves.file]
    rfl
  have hdetach : detachBydev lloopMajor m₂ lloopMajor i ends =
      putBack i (loopClrFd m₂ i 1 ends) := by
    rw [detachBydev, if_neg (not_not.mpr rfl), dif_pos i.isLt, if_neg (not_not.mpr hbound)]
  have hput : m₂.opens i = 0 → putBack i (loopClrFd m₂ i 1 ends) =
      if env.envOk && ends then (m₂.released i file, .done 0 none)
      else (m₂.waiting i, .hangs) := by
    intro hopens
    rcases putBack_cases h₂ hstuck i 1 ends with ⟨_, _, _, hnone | hlt⟩ | ⟨filp, hfilp, _, hput⟩
    · rw [hserves.file] at hnone
      cases hnone
    · omega
    · rw [hserves.file] at hfilp
      cases hfilp
      rw [hserves.alive] at hput
      exact hput
  rw [hdetach]
  refine ⟨fun hopens => ?_, fun hopens henv hends => ?_, fun hopens hnever => ?_⟩
  · rw [loopClrFd, if_neg (not_not.mpr hbound), if_pos (by omega)]
    rfl
  · have hcount : (m₂.lo i).loRefcnt - 1 = 0 := by omega
    rw [hput hopens, if_pos (by simp [henv, hends])]
    refine ⟨_, rfl, ?_, rfl, rfl, rfl, ?_⟩
    · simp only [Module.released, Module.fput, Module.setLo, hcount]
      rfl
    · rintro rfl
      simp only [Machine.run_nil, Option.some.injEq, Prod.mk.injEq] at hrest
      obtain rfl := hrest.1
      have hlo : m.lo i = { Lo.zeroed with loRefcnt := 0 } := by
        have hopens₀ : m.opens i = 0 := by rw [hm₁] at hopens; exact hopens
        have hcount₀ : (m.lo i).loRefcnt = 0 := by
          rw [h.refcnt i, hopens₀, Lo.attached, htakes.free h hstuck₀]
          rfl
        rw [h.detached i (htakes.free h hstuck₀), hcount₀]
      have hback : Function.update m.lo i { Lo.zeroed with loRefcnt := 0 } = m.lo := by
        rw [← hlo, Function.update_eq_self]
      rw [Module.released, hcount, hm₁]
      simp [Module.fput, Module.holding, Module.getFile, Module.setLo, hback]
  · have hwaits : ¬ (env.envOk && ends) = true := by
      rcases hnever with henv | hends
      · simp [henv]
      · simp [hends]
    rw [hput hopens, if_neg hwaits]
    exact ⟨_, rfl, rfl⟩

theorem detachBydev_attached_two : ∃ m m₁ m₂ replies₁ replies₂,
    (lloop twoFiles 253 64).run (fresh 2 (Fin 2)) [.attach 0 cleanEnv] = some (m, replies₁) ∧
    (lloop twoFiles 253 64).step m (.attach 1 cleanEnv) = some (m₁, .done 0 (some 1)) ∧
    (lloop twoFiles 253 64).run m₁ [.open 1, .detachBydev 253 1 true, .release 1] =
      some (m₂, replies₂) ∧ .done (-EBUSY) none ∈ replies₂ ∧
    ∃ m₃, detachBydev 253 m₂ 253 (1 : Fin 2) true = (m₃, .done 0 none) ∧
      m₃.fileRefs = Function.update m₂.fileRefs 1 (m₂.fileRefs 1 - 1) := by
  have hrun : (lloop twoFiles 253 64).run (fresh 2 (Fin 2)) [.attach 0 cleanEnv] =
    some ((attach twoFiles 64 (fresh 2 (Fin 2)) 0 cleanEnv).1, [.done 0 (some 0)]) := rfl
  have hattach : (lloop twoFiles 253 64).step
      (attach twoFiles 64 (fresh 2 (Fin 2)) 0 cleanEnv).1 (.attach 1 cleanEnv) =
    some (_, .done 0 (some (1 : Fin 2))) := rfl
  -- The device is open when its detach is tried.
  have hspares : (lloop twoFiles 253 64).AllSteps (Spares twoFiles 253 64 1)
      (attach twoFiles 64 (attach twoFiles 64 (fresh 2 (Fin 2)) 0 cleanEnv).1 1 cleanEnv).1
      [.open 1, .detachBydev 253 1 true, .release 1] := by
    decide
  obtain ⟨_, hback, _⟩ := detachBydev_attached hrun hattach rfl hspares rfl true
  obtain ⟨m₃, hdone, _, _, hrefs, _⟩ := hback rfl rfl rfl
  exact ⟨_, _, _, _, _, hrun, hattach, rfl, by decide, m₃, hdone, hrefs⟩

end Balanced

end Lloop
end AtomDrivers
