/-
The disk of released secure memory on demand.

`tzmem_blk_probe` makes the disk at the first access to its device number.  It lists
the disk while the size in `_tzmem_diskInfo` is still 0, and opens the session that the
requests need only then.  So the requests that `add_disk` itself makes are refused, and
where the session cannot be opened the disk stays listed without a queue.
-/
import AtomDrivers.Machine.Ledger
import AtomDrivers.Machine.Run
import AtomDrivers.TzMem.Request

namespace AtomDrivers
namespace TzMem

open Storage

/-- The answers of the trusted application are a `TZ_RESULT`. -/
def tzResultSuccess : Int := 0

/-- What one probe acquires; `listed` stands for the entry that `add_disk` makes. -/
inductive Resource
  | disk
  | queue
  | poolSession
  | listed
  | session
  deriving DecidableEq, Repr

/-- A listed disk needs its queue and its structure. -/
def inside : Resource → List Resource
  | .disk | .queue => [.listed]
  | .poolSession | .listed | .session => []

structure PoolsizeAnswers where
  createSession : Int
  getSecurechunkReleaseSize : Int
  size : BitVec 32
  closeSession : Int
  deriving DecidableEq, Repr

/-- A session that cannot be closed stays open. -/
def closePoolSession (ret : Int) : List (Entry Resource) :=
  if ret = tzResultSuccess then [.release .poolSession] else []

/-- `_tzmem_get_poolsize`; the size is that of the answers. -/
def tzmemGetPoolsize (k : PoolsizeAnswers) : Int × List (Entry Resource) :=
  if k.createSession ≠ tzResultSuccess then (k.createSession, [])
  else if k.getSecurechunkReleaseSize ≠ tzResultSuccess then
    (k.getSecurechunkReleaseSize, .acquire .poolSession :: closePoolSession k.closeSession)
  else (k.closeSession, .acquire .poolSession :: closePoolSession k.closeSession)

/-- What one probe is answered; `scan` are the requests that `add_disk` makes. -/
structure ProbeAnswers where
  allocDisk : Bool
  blkInitQueue : Bool
  poolsize : PoolsizeAnswers
  scan : List Request
  createSession : Int

/-- `tzmem_diskinfo_t`; a disk and a session go by the number of the probe that made them. -/
structure DiskInfo where
  size : BitVec 32
  poolSize : BitVec 32
  disk : Option Nat
  session : Option Nat
  deriving DecidableEq, Repr

/-- The disk whose object a probe returns, with none for `ERR_PTR(-ENOMEM)`, what it
acquired and released, and the answers to the requests of `add_disk`. -/
structure Probed where
  kobj : Option Nat
  entries : List (Entry Resource)
  scanned : List (List Completion)

structure System (τ : Type*) where
  diskInfo : DiskInfo
  tz : τ
  probes : Nat

section Driver

variable {τ : Type*} (w : Nat) (app : App (Option Nat) τ)

/-- Probe number `n`. -/
def tzmemBlkProbe (n : Nat) (k : ProbeAnswers) (d : DiskInfo) (tz : τ) :
    DiskInfo × τ × Probed :=
  match d.disk with
  | some disk => (d, tz, { kobj := some disk, entries := [], scanned := [] })
  | none =>
    if k.allocDisk = false then (d, tz, { kobj := none, entries := [], scanned := [] })
    else if k.blkInitQueue = false then
      (d, tz, { kobj := none, entries := [.acquire .disk, .release .disk], scanned := [] })
    else
      let (ret, pool) := tzmemGetPoolsize k.poolsize
      let entries := [.acquire .disk, .acquire .queue] ++ pool
      if ret ≠ 0 then
        (d, tz, { kobj := none, entries := entries ++ [.release .queue, .release .disk],
                  scanned := [] })
      else
        let (tz, scanned) := doTzmemBlkRequest w app d.session d.size k.scan tz
        let entries := entries ++ [.acquire .listed]
        if k.createSession ≠ tzResultSuccess then
          (d, tz, { kobj := none, entries := entries ++ [.release .queue, .release .disk],
                    scanned })
        else
          ({ size := k.poolsize.size, poolSize := k.poolsize.size, disk := some n,
             session := some n },
            tz, { kobj := some n, entries := entries ++ [.acquire .session], scanned })

inductive Action
  | probe (k : ProbeAnswers)
  | request (q : List Request)

/-- What one action acquires and releases, and what it answers to requests. -/
structure Shown where
  kobj : Option Nat
  entries : List (Entry (Nat × Resource))
  completions : List (List Completion)

/-- The requests that an action makes. -/
def Action.requests : Action → List Request
  | .probe k => k.scan
  | .request q => q

def tzmem : Machine (System τ) Action Shown where
  step s
    | .probe k =>
      let (d, tz, p) := tzmemBlkProbe w app s.probes k s.diskInfo s.tz
      some ({ diskInfo := d, tz, probes := s.probes + 1 },
        { kobj := p.kobj, entries := Ledger.tag s.probes p.entries, completions := p.scanned })
    | .request q =>
      let (tz, css) := doTzmemBlkRequest w app s.diskInfo.session s.diskInfo.size q s.tz
      some ({ s with tz }, { kobj := none, entries := [], completions := css })

end Driver

/-- `_tzmem_diskInfo` as it is loaded. -/
def loaded {τ : Type*} (tz : τ) : System τ where
  diskInfo := { size := 0, poolSize := 0, disk := none, session := none }
  tz
  probes := 0

def ledger (os : List Shown) : List (Entry (Nat × Resource)) := os.flatMap Shown.entries

def held (os : List Shown) : Nat × Resource → Bool := Ledger.post (ledger os) Ledger.nothing

/-! ## One probe -/

section Probe

variable {τ : Type*} {w : Nat} {app : App (Option Nat) τ} {n : Nat} {k : ProbeAnswers}
  {d : DiskInfo} {tz : τ}

/-- The probe comes to `add_disk`. -/
def Lists (d : DiskInfo) (k : ProbeAnswers) : Prop :=
  d.disk = none ∧ k.allocDisk = true ∧ k.blkInitQueue = true ∧ (tzmemGetPoolsize k.poolsize).1 = 0

/-- It opens no session then. -/
def Loses (d : DiskInfo) (k : ProbeAnswers) : Prop :=
  Lists d k ∧ k.createSession ≠ tzResultSuccess

instance (d : DiskInfo) (k : ProbeAnswers) : Decidable (Lists d k) :=
  inferInstanceAs (Decidable (_ ∧ _))

instance (d : DiskInfo) (k : ProbeAnswers) : Decidable (Loses d k) :=
  inferInstanceAs (Decidable (_ ∧ _))

theorem tzmemGetPoolsize_entries (k : PoolsizeAnswers) :
    (tzmemGetPoolsize k).2 = [] ∨ (tzmemGetPoolsize k).2 = [.acquire .poolSession] ∨
      (tzmemGetPoolsize k).2 = [.acquire .poolSession, .release .poolSession] := by
  by_cases hcreate : k.createSession = tzResultSuccess
  · have hentries : (tzmemGetPoolsize k).2 =
        .acquire .poolSession :: closePoolSession k.closeSession := by
      rw [tzmemGetPoolsize, if_neg (not_not.mpr hcreate)]
      split <;> rfl
    rw [hentries, closePoolSession]
    split
    · exact Or.inr (Or.inr rfl)
    · exact Or.inr (Or.inl rfl)
  · left
    rw [tzmemGetPoolsize, if_pos hcreate]

/-- Where the size is found, the session for it is closed. -/
theorem tzmemGetPoolsize_success {k : PoolsizeAnswers} (h : (tzmemGetPoolsize k).1 = 0) :
    (tzmemGetPoolsize k).2 = [.acquire .poolSession, .release .poolSession] := by
  unfold tzmemGetPoolsize at h ⊢
  split at h
  · rename_i hcreate
    exact absurd h hcreate
  · split at h
    · rename_i hget
      exact absurd h hget
    · rename_i hcreate hget
      have hclose : k.closeSession = tzResultSuccess := h
      rw [if_neg hcreate, if_neg hget, closePoolSession, if_pos hclose]

variable (w app n tz) in
/-- A probe that does not come to `add_disk` holds at most the session that it could
not close. -/
theorem tzmemBlkProbe_early (hdisk : d.disk = none) (h : ¬ Lists d k) :
    ∃ entries, tzmemBlkProbe w app n k d tz =
        (d, tz, { kobj := none, entries, scanned := [] }) ∧
      Ledger.Fair inside Ledger.nothing entries ∧
      ∀ r ∈ [Resource.disk, .queue, .listed, .session],
        Ledger.post entries Ledger.nothing r = false := by
  by_cases halloc : k.allocDisk = false
  · refine ⟨[], ?_, trivial, fun r _ => rfl⟩
    simp only [tzmemBlkProbe, hdisk, halloc, if_pos]
  · by_cases hqueue : k.blkInitQueue = false
    · refine ⟨[.acquire .disk, .release .disk], ?_, by decide, by decide⟩
      simp [tzmemBlkProbe, hdisk, halloc, hqueue]
    · have hret : (tzmemGetPoolsize k.poolsize).1 ≠ 0 := fun hzero =>
        h ⟨hdisk, by simpa using halloc, by simpa using hqueue, hzero⟩
      refine ⟨[.acquire .disk, .acquire .queue] ++ (tzmemGetPoolsize k.poolsize).2 ++
        [.release .queue, .release .disk], ?_, ?_⟩
      · simp [tzmemBlkProbe, hdisk, halloc, hqueue, hret]
      · rcases tzmemGetPoolsize_entries k.poolsize with hpool | hpool | hpool <;> rw [hpool] <;>
          exact ⟨by decide, by decide⟩

/-- What a probe leaves that makes the disk, and one that loses it. -/
def madeEntries : List (Entry Resource) :=
  [.acquire .disk, .acquire .queue, .acquire .poolSession, .release .poolSession,
    .acquire .listed, .acquire .session]

def lostEntries : List (Entry Resource) :=
  [.acquire .disk, .acquire .queue, .acquire .poolSession, .release .poolSession,
    .acquire .listed, .release .queue, .release .disk]

theorem madeEntries_fair : Ledger.Fair inside Ledger.nothing madeEntries := by decide

theorem madeEntries_post :
    ∀ r ∈ [Resource.disk, .queue, .listed, .session],
      Ledger.post madeEntries Ledger.nothing r = true := by
  decide

theorem lostEntries_not_fair : ¬ Ledger.Fair inside Ledger.nothing lostEntries := by decide

theorem lostEntries_post :
    ∀ r ∈ [Resource.disk, .queue, .session],
      Ledger.post lostEntries Ledger.nothing r = false := by
  decide

theorem tzmemBlkProbe_lost (h : Loses d k) :
    tzmemBlkProbe w app n k d tz =
      (d, (doTzmemBlkRequest w app d.session d.size k.scan tz).1,
        { kobj := none, entries := lostEntries,
          scanned := (doTzmemBlkRequest w app d.session d.size k.scan tz).2 }) := by
  obtain ⟨⟨hdisk, halloc, hqueue, hsize⟩, hsession⟩ := h
  simp only [tzmemBlkProbe, hdisk, halloc, hqueue, hsize, tzmemGetPoolsize_success hsize]
  rw [if_pos hsession]
  rfl

theorem tzmemBlkProbe_made (h : Lists d k) (hsession : k.createSession = tzResultSuccess) :
    tzmemBlkProbe w app n k d tz =
      ({ size := k.poolsize.size, poolSize := k.poolsize.size, disk := some n, session := some n },
        (doTzmemBlkRequest w app d.session d.size k.scan tz).1,
        { kobj := some n, entries := madeEntries,
          scanned := (doTzmemBlkRequest w app d.session d.size k.scan tz).2 }) := by
  obtain ⟨hdisk, halloc, hqueue, hsize⟩ := h
  simp only [tzmemBlkProbe, hdisk, halloc, hqueue, hsize, tzmemGetPoolsize_success hsize]
  rw [if_neg (not_not.mpr hsession)]
  rfl

/-- A later probe gives the disk that there is. -/
theorem tzmemBlkProbe_again {disk : Nat} (h : d.disk = some disk) :
    tzmemBlkProbe w app n k d tz =
      (d, tz, { kobj := some disk, entries := [], scanned := [] }) := by
  rw [tzmemBlkProbe, h]

/-- What a probe acquires and releases is fair unless it loses a listed disk. -/
theorem tzmemBlkProbe_fair_iff :
    Ledger.Fair inside Ledger.nothing (tzmemBlkProbe w app n k d tz).2.2.entries ↔
      ¬ Loses d k := by
  by_cases hlists : Lists d k
  · by_cases hsession : k.createSession = tzResultSuccess
    · rw [tzmemBlkProbe_made hlists hsession]
      exact ⟨fun _ h => h.2 hsession, fun _ => madeEntries_fair⟩
    · rw [tzmemBlkProbe_lost ⟨hlists, hsession⟩]
      exact ⟨fun h => absurd h lostEntries_not_fair, fun h => absurd ⟨hlists, hsession⟩ h⟩
  · have hfair : Ledger.Fair inside Ledger.nothing
        (tzmemBlkProbe w app n k d tz).2.2.entries := by
      cases hdisk : d.disk with
      | some disk =>
        rw [tzmemBlkProbe_again hdisk]
        trivial
      | none =>
        obtain ⟨entries, heq, hentries, _⟩ := tzmemBlkProbe_early w app n tz hdisk hlists
        rw [heq]
        exact hentries
    exact ⟨fun _ h => hlists h.1, fun _ => hfair⟩

end Probe

/-! ## Every run -/

section Runs

variable {τ : Type*} {w : Nat} {app : App (Option Nat) τ} {s t : System τ} {os : List Shown}
  {o : Shown}

/-- The probe that has made the disk, if any, holds all it needs; no other holds more
than a listed disk and the session it could not close. -/
structure Holds (s : System τ) (os : List Shown) : Prop where
  later : ∀ m r, s.probes ≤ m → held os (m, r) = false
  own : ∀ r ∈ [Resource.disk, .queue, .session], ∀ m,
    held os (m, r) = decide (s.diskInfo.disk = some m)
  listed : ∀ m, s.diskInfo.disk = some m → held os (m, .listed) = true
  session : s.diskInfo.session = s.diskInfo.disk
  size : s.diskInfo.disk = none → s.diskInfo.size = 0

theorem held_snoc (os : List Shown) (o : Shown) :
    held (os ++ [o]) = Ledger.post o.entries (held os) := by
  rw [held, ledger, List.flatMap_append, Ledger.post_append]
  simp [held, ledger]

theorem Holds.nothing_later (h : Holds s os) :
    (fun r => held os (s.probes, r)) = Ledger.nothing := by
  funext r
  exact h.later s.probes r (Nat.le_refl _)

theorem Holds.held_probe (h : Holds s os) {entries : List (Entry Resource)}
    (hentries : o.entries = Ledger.tag s.probes entries) (m : Nat) (r : Resource) :
    held (os ++ [o]) (m, r) =
      if m = s.probes then Ledger.post entries Ledger.nothing r else held os (m, r) := by
  rw [held_snoc, hentries, Ledger.post_tag, h.nothing_later]

theorem Holds.disk_lt (h : Holds s os) {m : Nat} (hdisk : s.diskInfo.disk = some m) :
    m < s.probes := by
  by_contra hge
  have hheld := h.listed m hdisk
  rw [h.later m .listed (by omega)] at hheld
  cases hheld

/-- A probe that makes no disk keeps the invariant. -/
theorem Holds.probe_same (h : Holds s os) {entries : List (Entry Resource)}
    (hentries : o.entries = Ledger.tag s.probes entries)
    (hpost : ∀ r ∈ [Resource.disk, .queue, .session],
      Ledger.post entries Ledger.nothing r = false) (tz : τ) :
    Holds { diskInfo := s.diskInfo, tz, probes := s.probes + 1 } (os ++ [o]) where
  later m r hm := by
    have hm' : s.probes + 1 ≤ m := hm
    rw [h.held_probe hentries, if_neg (by omega)]
    exact h.later m r (by omega)
  own r hr m := by
    rw [h.held_probe hentries]
    by_cases hm : m = s.probes
    · have hdisk : s.diskInfo.disk ≠ some m := fun hdisk => by
        have hlt := h.disk_lt hdisk
        omega
      rw [if_pos hm, hpost r hr]
      exact (decide_eq_false hdisk).symm
    · rw [if_neg hm]
      exact h.own r hr m
  listed m hdisk := by
    have hlt := h.disk_lt hdisk
    rw [h.held_probe hentries, if_neg (by omega)]
    exact h.listed m hdisk
  session := h.session
  size := h.size

theorem Holds.probe_made (h : Holds s os) (hdisk : s.diskInfo.disk = none)
    (hentries : o.entries = Ledger.tag s.probes madeEntries) (size : BitVec 32) (tz : τ) :
    Holds { diskInfo := { size, poolSize := size, disk := some s.probes,
                          session := some s.probes }
            tz, probes := s.probes + 1 } (os ++ [o]) where
  later m r hm := by
    have hm' : s.probes + 1 ≤ m := hm
    rw [h.held_probe hentries, if_neg (by omega)]
    exact h.later m r (by omega)
  own r hr m := by
    rw [h.held_probe hentries]
    by_cases hm : m = s.probes
    · rw [if_pos hm, hm]
      have hmade := madeEntries_post r (by simp at hr ⊢; tauto)
      rw [hmade]
      exact (decide_eq_true rfl).symm
    · rw [if_neg hm, h.own r hr m, hdisk]
      have hne : some s.probes ≠ some m := fun heq => hm (Option.some.inj heq).symm
      exact (decide_eq_false (by simp)).trans (decide_eq_false hne).symm
  listed m hm := by
    obtain rfl : s.probes = m := Option.some.inj hm
    rw [h.held_probe hentries, if_pos rfl]
    exact madeEntries_post .listed (by simp)
  session := rfl
  size hnone := by cases hnone

variable (w app) in
theorem step_request (s : System τ) (q : List Request) :
    (tzmem w app).step s (.request q) =
      some ({ s with tz := (doTzmemBlkRequest w app s.diskInfo.session s.diskInfo.size q s.tz).1 },
        { kobj := none, entries := [],
          completions := (doTzmemBlkRequest w app s.diskInfo.session s.diskInfo.size q s.tz).2 }) :=
  rfl

/-- All that a probe can do: give the disk that there is, fail before `add_disk`, lose
the listed disk, or make the disk. -/
theorem step_probe_cases {k : ProbeAnswers}
    (h : (tzmem w app).step s (.probe k) = some (t, o)) :
    (∃ disk, s.diskInfo.disk = some disk ∧ t = { s with probes := s.probes + 1 } ∧
      o = { kobj := some disk, entries := Ledger.tag s.probes [], completions := [] }) ∨
    (s.diskInfo.disk = none ∧ ¬ Lists s.diskInfo k ∧ t = { s with probes := s.probes + 1 } ∧
      ∃ entries, o = { kobj := none, entries := Ledger.tag s.probes entries, completions := [] } ∧
        Ledger.Fair inside Ledger.nothing entries ∧
        ∀ r ∈ [Resource.disk, .queue, .listed, .session],
          Ledger.post entries Ledger.nothing r = false) ∨
    (Loses s.diskInfo k ∧
      t = { diskInfo := s.diskInfo
            tz := (doTzmemBlkRequest w app s.diskInfo.session s.diskInfo.size k.scan s.tz).1
            probes := s.probes + 1 } ∧
      o = { kobj := none
            entries := Ledger.tag s.probes lostEntries
            completions :=
              (doTzmemBlkRequest w app s.diskInfo.session s.diskInfo.size k.scan s.tz).2 }) ∨
    (Lists s.diskInfo k ∧ k.createSession = tzResultSuccess ∧
      t = { diskInfo := { size := k.poolsize.size, poolSize := k.poolsize.size,
                          disk := some s.probes, session := some s.probes }
            tz := (doTzmemBlkRequest w app s.diskInfo.session s.diskInfo.size k.scan s.tz).1
            probes := s.probes + 1 } ∧
      o = { kobj := some s.probes
            entries := Ledger.tag s.probes madeEntries
            completions :=
              (doTzmemBlkRequest w app s.diskInfo.session s.diskInfo.size k.scan s.tz).2 }) := by
  cases hdisk : s.diskInfo.disk with
  | some disk =>
    simp only [tzmem, tzmemBlkProbe_again hdisk, Option.some.injEq, Prod.mk.injEq] at h
    exact Or.inl ⟨disk, rfl, h.1.symm, h.2.symm⟩
  | none =>
    by_cases hlists : Lists s.diskInfo k
    · by_cases hsession : k.createSession = tzResultSuccess
      · simp only [tzmem, tzmemBlkProbe_made hlists hsession, Option.some.injEq,
          Prod.mk.injEq] at h
        exact Or.inr (Or.inr (Or.inr ⟨hlists, hsession, h.1.symm, h.2.symm⟩))
      · simp only [tzmem, tzmemBlkProbe_lost ⟨hlists, hsession⟩, Option.some.injEq,
          Prod.mk.injEq] at h
        exact Or.inr (Or.inr (Or.inl ⟨⟨hlists, hsession⟩, h.1.symm, h.2.symm⟩))
    · obtain ⟨entries, heq, hfair, hpost⟩ :=
        tzmemBlkProbe_early w app s.probes s.tz hdisk hlists
      simp only [tzmem, heq, Option.some.injEq, Prod.mk.injEq] at h
      exact Or.inr (Or.inl ⟨rfl, hlists, h.1.symm, entries, h.2.symm, hfair, hpost⟩)

theorem Holds.step (h : Holds s os) {a : Action} (hstep : (tzmem w app).step s a = some (t, o)) :
    Holds t (os ++ [o]) := by
  cases a with
  | request q =>
    cases hstep
    have hheld : ∀ o : Shown, o.entries = [] → held (os ++ [o]) = held os := fun o ho => by
      rw [held_snoc, ho]
      rfl
    exact ⟨by rw [hheld _ rfl]; exact h.later, by rw [hheld _ rfl]; exact h.own,
      by rw [hheld _ rfl]; exact h.listed, h.session, h.size⟩
  | probe k =>
    obtain ⟨_, _, rfl, rfl⟩ | ⟨_, _, rfl, entries, rfl, _, hpost⟩ | ⟨_, rfl, rfl⟩ |
      ⟨hlists, _, rfl, rfl⟩ := step_probe_cases hstep
    · exact h.probe_same rfl (fun r _ => rfl) _
    · exact h.probe_same rfl (fun r hr => hpost r (by simp at hr ⊢; tauto)) _
    · exact h.probe_same rfl lostEntries_post _
    · exact h.probe_made hlists.1 rfl _ _

theorem holds_loaded (tz : τ) : Holds (loaded tz) [] :=
  ⟨fun _ _ _ => rfl, fun _ _ _ => rfl, fun _ h => (by cases h), rfl, fun _ => rfl⟩

theorem holds_run {tz : τ} {as : List Action}
    (h : (tzmem w app).run (loaded tz) as = some (t, os)) : Holds t os :=
  Machine.run_history (J := fun s _ os => Holds s os)
    (fun _ _ _ _ _ _ hs hstep => hs.step hstep) (holds_loaded tz) h

/-- The entries of a probe are fair behind those of the probes before it exactly if
they are fair alone. -/
theorem Holds.fair_probe (h : Holds s os) {entries : List (Entry Resource)} :
    Ledger.Fair (Ledger.insideTagged inside) (held os) (Ledger.tag s.probes entries) ↔
      Ledger.Fair inside Ledger.nothing entries := by
  rw [Ledger.fair_tag, h.nothing_later]

theorem Holds.fair_step (h : Holds s os) {a : Action}
    (hstep : (tzmem w app).step s a = some (t, o)) :
    Ledger.Fair (Ledger.insideTagged inside) (held os) o.entries ↔
      ∀ k, a = .probe k → ¬ Loses s.diskInfo k := by
  cases a with
  | request q =>
    cases hstep
    refine ⟨fun _ k heq => ?_, fun _ => trivial⟩
    cases heq
  | probe k =>
    have hfair : o.entries = Ledger.tag s.probes
        (tzmemBlkProbe w app s.probes k s.diskInfo s.tz).2.2.entries := by
      cases hstep
      rfl
    rw [hfair, h.fair_probe, tzmemBlkProbe_fair_iff]
    refine ⟨fun hnot k' heq => ?_, fun hall => hall k rfl⟩
    cases heq
    exact hnot

/-- In any run nothing is given back that is not held or that a listed disk needs,
exactly if no probe fails to open the session of the disk it has listed. -/
theorem fair_iff_sessions {tz : τ} {as : List Action}
    (h : (tzmem w app).run (loaded tz) as = some (t, os)) :
    Ledger.Fair (Ledger.insideTagged inside) Ledger.nothing (ledger os) ↔
      (tzmem w app).AllSteps (fun s a => ∀ k, a = .probe k → ¬ Loses s.diskInfo k)
        (loaded tz) as := by
  have hgen : ∀ (as : List Action) (s : System τ) (before os : List Shown), Holds s before →
      (tzmem w app).run s as = some (t, os) →
      (Ledger.Fair (Ledger.insideTagged inside) (held before) (ledger os) ↔
        (tzmem w app).AllSteps (fun s a => ∀ k, a = .probe k → ¬ Loses s.diskInfo k) s as) := by
    intro as
    induction as with
    | nil =>
      intro s before os _ hrun
      cases hrun
      exact ⟨fun _ => trivial, fun _ => trivial⟩
    | cons a as ih =>
      intro s before os hs hrun
      obtain ⟨u, o, os', hone, hrest, rfl⟩ := Machine.run_cons_iff.mp hrun
      have hledger : ledger (o :: os') = o.entries ++ ledger os' := rfl
      rw [hledger, Ledger.fair_append, hs.fair_step hone, ← held_snoc,
        ih u (before ++ [o]) os' (hs.step hone) hrest]
      refine and_congr_right fun _ => ⟨fun hall v p hv => ?_, fun hall => hall u o hone⟩
      rw [hone] at hv
      cases hv
      exact hall
  exact hgen as (loaded tz) [] os (holds_loaded tz) h

/-- A probe to which everything is answered well, but for the session. -/
def answers (createSession : Int) : ProbeAnswers where
  allocDisk := true
  blkInitQueue := true
  poolsize := { createSession := 0, getSecurechunkReleaseSize := 0, size := 8192,
                closeSession := 0 }
  scan := []
  createSession

theorem fair_iff_sessions_two :
    ∃ t os, (tzmem 32 (plain (Option Nat) 8192)).run (loaded (Cells.fill 0))
        [.probe (answers 1), .probe (answers 0)] = some (t, os) ∧
      (Ledger.Fair (Ledger.insideTagged inside) Ledger.nothing (ledger os) ↔
        (tzmem 32 (plain (Option Nat) 8192)).AllSteps
          (fun s a => ∀ k, a = .probe k → ¬ Loses s.diskInfo k) (loaded (Cells.fill 0))
          [.probe (answers 1), .probe (answers 0)]) :=
  ⟨_, _, rfl, fair_iff_sessions rfl⟩

/-- In any run, a disk, its queue and its session are held exactly for the probe
whose disk `_tzmem_diskInfo` has, which is listed then, and nothing is held of a probe
still to come. -/
theorem held_iff_published {tz : τ} {as : List Action}
    (h : (tzmem w app).run (loaded tz) as = some (t, os)) (m : Nat) :
    (∀ r ∈ [Resource.disk, .queue, .session],
      (held os (m, r) = true ↔ t.diskInfo.disk = some m)) ∧
    (t.diskInfo.disk = some m → held os (m, .listed) = true ∧ t.diskInfo.session = some m) := by
  have hholds := holds_run h
  refine ⟨fun r hr => ?_, fun hdisk => ⟨hholds.listed m hdisk, hholds.session.trans hdisk⟩⟩
  rw [hholds.own r hr m]
  exact decide_eq_true_iff

theorem held_iff_published_two :
    ∃ t os, (tzmem 32 (plain (Option Nat) 8192)).run (loaded (Cells.fill 0))
        [.probe (answers 1), .probe (answers 0)] = some (t, os) ∧
      (∀ r ∈ [Resource.disk, .queue, .session],
        (held os (1, r) = true ↔ t.diskInfo.disk = some 1)) ∧
      (t.diskInfo.disk = some 1 → held os (1, .listed) = true ∧ t.diskInfo.session = some 1) := by
  have hrun : (tzmem 32 (plain (Option Nat) 8192)).run (loaded (Cells.fill 0))
    [.probe (answers 1), .probe (answers 0)] = some (_, _) := rfl
  exact ⟨_, _, hrun, held_iff_published hrun 1⟩

end Runs

/-! ## Requests between the probes -/

/-- What `set_capacity` is told, in sectors. -/
def DiskInfo.capacity (d : DiskInfo) : Nat := d.size.toNat / 512

/-- All the segments have bytes. -/
def Request.Full (req : Request) : Prop := ∀ seg ∈ req.segments, seg.buffer ≠ []

/-- The request lies within the disk. -/
def Request.Within (capacity : Nat) (req : Request) : Prop :=
  req.pos * 512 + bytesOf req.segments ≤ capacity * 512

theorem Request.Within.le {d : DiskInfo} {req : Request} (h : req.Within d.capacity) :
    req.pos * 512 + bytesOf req.segments ≤ d.size.toNat := by
  have hround : d.capacity * 512 ≤ d.size.toNat := by
    rw [DiskInfo.capacity]
    exact Nat.div_mul_le_self d.size.toNat 512
  unfold Request.Within at h
  exact Nat.le_trans h hround

/-- The sectors of a segment take no more than its bytes. -/
theorem sectors_le {p l b z : Nat} (h : p * 512 + (l + b) ≤ z) :
    (p + l / 512) * 512 + b ≤ z := by
  calc (p + l / 512) * 512 + b = p * 512 + (l / 512 * 512 + b) := by
        rw [Nat.add_mul, Nat.add_assoc]
    _ ≤ p * 512 + (l + b) :=
        Nat.add_le_add_left (Nat.add_le_add_right (Nat.div_mul_le_self l 512) b) _
    _ ≤ z := h

theorem first_le {p l b z : Nat} (h : p * 512 + (l + b) ≤ z) : p * 512 + l ≤ z := by
  omega

section Requests

variable {τ : Type*} {w : Nat} {app : App (Option Nat) τ} {session : Option Nat}
  {size : BitVec 32}

theorem not_inside_zero (hw : 32 ≤ w) {n : Nat} (hn : n < 2 ^ 32) (hpos : n ≠ 0)
    (start : BitVec w) : ¬ Inside 0 start (BitVec.ofNat w n) := by
  have hpow : 2 ^ 32 ≤ 2 ^ w := Nat.pow_le_pow_right (by decide) hw
  have hlen : (BitVec.ofNat w n).toNat = n := by
    rw [BitVec.toNat_ofNat, Nat.mod_eq_of_lt (by omega)]
  have hzero : ((0 : BitVec 32).setWidth w).toNat = 0 := by simp
  intro hinside
  apply hinside
  right; right
  rw [BitVec.lt_def, hlen, hzero]
  omega

theorem doSegments_refused (hw : 32 ≤ w) (dir : DataDir) {segs : List Segment}
    (hfull : ∀ seg ∈ segs, seg.buffer ≠ []) (pos : Nat) (tz : τ) :
    doSegments w app session 0 dir pos segs tz =
      (tz, segs.map fun seg => { err := - Linux.EIO, buffer := seg.buffer }) := by
  induction segs generalizing pos with
  | nil => rfl
  | cons seg segs ih =>
    have hone : doSegment w app session 0 dir pos seg tz =
        (tz, { err := - Linux.EIO, buffer := seg.buffer }) := by
      have hlength : seg.buffer.length ≠ 0 := fun h =>
        hfull seg List.mem_cons_self (List.eq_nil_of_length_eq_zero h)
      simp only [doSegment, if_neg (not_inside_zero hw seg.small hlength _)]
    simp only [doSegments, hone, List.map_cons]
    rw [ih fun s hs => hfull s (List.mem_cons_of_mem seg hs)]

/-- As long as the size is 0 the application is not called. -/
theorem doTzmemBlkRequest_refused (hw : 32 ≤ w) {q : List Request} (hfull : ∀ req ∈ q, req.Full)
    (tz : τ) :
    doTzmemBlkRequest w app session 0 q tz = (tz, q.map fun req => req.segments.map fun seg =>
      { err := - Linux.EIO, buffer := seg.buffer }) := by
  induction q with
  | nil => rfl
  | cons req q ih =>
    simp only [doTzmemBlkRequest, List.map_cons,
      doSegments_refused hw req.dir (hfull req List.mem_cons_self)]
    rw [ih fun r hr => hfull r (List.mem_cons_of_mem req hr)]

theorem doSegments_inside (hw : 32 ≤ w) (dir : DataDir) {segs : List Segment} {pos : Nat}
    (hle : pos * 512 + bytesOf segs ≤ size.toNat) (tz : τ) :
    ∀ c ∈ (doSegments w app session size dir pos segs tz).2, c.err = 0 := by
  induction segs generalizing pos tz with
  | nil => exact fun c hc => absurd hc List.not_mem_nil
  | cons seg segs ih =>
    rw [bytesOf] at hle
    have hnext : (pos + seg.buffer.length / 512) * 512 + bytesOf segs ≤ size.toNat :=
      sectors_le hle
    have hone : (doSegment w app session size dir pos seg tz).2.err = 0 := by
      have hinside : Inside size (BitVec.ofNat w (pos * 512))
          (BitVec.ofNat w seg.buffer.length) := inside_of_le hw (first_le hle)
      simp only [doSegment, if_pos hinside]
    intro c hc
    simp only [doSegments, List.mem_cons] at hc
    rcases hc with rfl | hc
    · exact hone
    · exact ih hnext _ c hc

theorem doTzmemBlkRequest_inside (hw : 32 ≤ w) {q : List Request}
    (hle : ∀ req ∈ q, req.pos * 512 + bytesOf req.segments ≤ size.toNat) (tz : τ) :
    ∀ cs ∈ (doTzmemBlkRequest w app session size q tz).2, ∀ c ∈ cs, c.err = 0 := by
  induction q generalizing tz with
  | nil => exact fun cs hcs => absurd hcs List.not_mem_nil
  | cons req q ih =>
    intro cs hcs
    simp only [doTzmemBlkRequest, List.mem_cons] at hcs
    rcases hcs with rfl | hcs
    · exact doSegments_inside hw req.dir (hle req List.mem_cons_self) tz
    · exact ih (fun r hr => hle r (List.mem_cons_of_mem req hr)) _ cs hcs

variable {s t : System τ} {os : List Shown} {o : Shown}

end Requests

end TzMem
end AtomDrivers
