/-
Who gives the semaphore back.

`lcminfo_read` past the end and `lcminfo_write` at the end return between taking
the semaphore and giving it back.  The count is 1 after every call of a run
exactly when no call of the run is one of these.
-/
import AtomDrivers.LcmInfo.Device

namespace AtomDrivers
namespace LcmInfo

open Linux Storage

/-- The semaphore is free, so a read or write that a signal could end completes
without one. -/
structure Returned (s : Lcminfo) : Prop where
  sem : s.dev.sem = 1
  read : ∀ file pos size copy, (lcminfo.step s (.read file pos size true copy)).isSome →
    (lcminfo.step s (.read file pos size false copy)).isSome
  write : ∀ file pos buf copy, (lcminfo.step s (.write file pos buf true copy)).isSome →
    (lcminfo.step s (.write file pos buf false copy)).isSome

/-- The call does not take the semaphore at a position where it keeps it. -/
def GivesBack (s : Lcminfo) : Call → Prop
  | .read file pos _ signal _ =>
    signal = true ∨ ∀ fPos, s.fPos file = some fPos → (pos.getD fPos).toNat ≤ lcminfoSize
  | .write file pos _ signal _ =>
    signal = true ∨ ∀ fPos, s.fPos file = some fPos → (pos.getD fPos).toNat < lcminfoSize
  | _ => True

theorem transfer_eq_some {s t : Lcminfo} {file : Nat} {pos : Option Loff} {reply : Reply}
    {op : LcminfoDev → Loff → Option (LcminfoDev × Loff × Reply)}
    (h : transfer s file pos op = some (t, reply)) :
    ∃ fPos ppos, s.fPos file = some fPos ∧ ¬ (pos.getD fPos).toInt < 0 ∧
      op s.dev (pos.getD fPos) = some (t.dev, ppos, reply) ∧
      t.fPos = Function.update s.fPos file
        (some (if pos = none ∧ 0 ≤ reply.ret then ppos else fPos)) := by
  unfold transfer at h
  cases hf : s.fPos file with
  | none => simp [hf] at h
  | some fPos =>
    simp only [hf, Option.bind_eq_bind, Option.bind_some] at h
    split at h
    · simp at h
    · rename_i hneg
      cases hop : op s.dev (pos.getD fPos) with
      | none => simp [hop] at h
      | some p =>
        obtain ⟨dev, ppos, reply'⟩ := p
        simp only [hop, Option.bind_some, Option.pure_def, Option.some.injEq, Prod.mk.injEq] at h
        obtain ⟨rfl, rfl⟩ := h
        exact ⟨fPos, ppos, rfl, hneg, hop, rfl⟩

theorem transfer_isSome {s : Lcminfo} {file : Nat} {pos : Option Loff}
    {op : LcminfoDev → Loff → Option (LcminfoDev × Loff × Reply)} :
    (transfer s file pos op).isSome ↔ ∃ fPos, s.fPos file = some fPos ∧
      ¬ (pos.getD fPos).toInt < 0 ∧ (op s.dev (pos.getD fPos)).isSome := by
  unfold transfer
  cases hf : s.fPos file with
  | none => simp
  | some fPos =>
    by_cases hneg : (pos.getD fPos).toInt < 0
    · simp [hneg]
    · cases hop : op s.dev (pos.getD fPos) <;> simp [hneg, hop, Int.not_lt.mp hneg]

theorem lcminfoRead_isSome {dev : LcminfoDev} (h : dev.sem ≠ 0) (size : Nat) (copy : UserCopy)
    (ppos : Loff) : (lcminfoRead size false copy dev ppos).isSome := by
  by_cases hp : lcminfoSize < ppos.toNat
  · rw [lcminfoRead_past h hp]
    rfl
  · rw [lcminfoRead_inside h (by omega)]
    simp only
    split <;> rfl

theorem lcminfoWrite_isSome {dev : LcminfoDev} (h : dev.sem ≠ 0) (buf : List UInt8)
    (copy : UserCopy) (ppos : Loff) : (lcminfoWrite buf false copy dev ppos).isSome := by
  by_cases hp : lcminfoSize ≤ ppos.toNat
  · rw [lcminfoWrite_past h hp]
    rfl
  · rw [lcminfoWrite_inside h (by omega)]
    simp only
    split <;> rfl

theorem returned_iff {s : Lcminfo} : Returned s ↔ s.dev.sem = 1 := by
  constructor
  · exact fun h => h.sem
  · intro h
    have hfree : s.dev.sem ≠ 0 := by omega
    refine ⟨h, fun file pos size copy hcall => ?_, fun file pos buf copy hcall => ?_⟩
    · obtain ⟨fPos, hf, hneg, _⟩ := transfer_isSome.mp hcall
      exact transfer_isSome.mpr ⟨fPos, hf, hneg, lcminfoRead_isSome hfree size copy _⟩
    · obtain ⟨fPos, hf, hneg, _⟩ := transfer_isSome.mp hcall
      exact transfer_isSome.mpr ⟨fPos, hf, hneg, lcminfoWrite_isSome hfree buf copy _⟩

/-! ## One call -/

theorem lcminfoRead_sem {dev dev' : LcminfoDev} {ppos ppos' : Loff} {reply : Reply} {size : Nat}
    {signal : Bool} {copy : UserCopy} (hs : dev.sem = 1)
    (h : lcminfoRead size signal copy dev ppos = some (dev', ppos', reply)) :
    dev'.sem = 1 ↔ signal = true ∨ ppos.toNat ≤ lcminfoSize := by
  have hfree : dev.sem ≠ 0 := by omega
  cases signal with
  | true =>
    rw [lcminfoRead_signal, Option.some.injEq, Prod.mk.injEq] at h
    simp [← h.1, hs]
  | false =>
    by_cases hp : lcminfoSize < ppos.toNat
    · rw [lcminfoRead_past hfree hp, Option.some.injEq, Prod.mk.injEq] at h
      simp [← h.1, hs, hp]
    · have hdev : dev' = dev := by
        rw [lcminfoRead_inside hfree (by omega)] at h
        simp only at h
        split at h <;>
        · rw [Option.some.injEq, Prod.mk.injEq] at h
          exact h.1.symm
      simp [hdev, hs, Nat.le_of_not_lt hp]

theorem lcminfoWrite_sem {dev dev' : LcminfoDev} {ppos ppos' : Loff} {reply : Reply}
    {buf : List UInt8} {signal : Bool} {copy : UserCopy} (hs : dev.sem = 1)
    (h : lcminfoWrite buf signal copy dev ppos = some (dev', ppos', reply)) :
    dev'.sem = 1 ↔ signal = true ∨ ppos.toNat < lcminfoSize := by
  have hfree : dev.sem ≠ 0 := by omega
  cases signal with
  | true =>
    rw [lcminfoWrite_signal, Option.some.injEq, Prod.mk.injEq] at h
    simp [← h.1, hs]
  | false =>
    by_cases hp : lcminfoSize ≤ ppos.toNat
    · rw [lcminfoWrite_past hfree hp, Option.some.injEq, Prod.mk.injEq] at h
      simp [← h.1, hs, hp]
    · have hsem : dev'.sem = dev.sem := by
        rw [lcminfoWrite_inside hfree (by omega)] at h
        simp only at h
        split at h <;>
        · rw [Option.some.injEq, Prod.mk.injEq] at h
          rw [← h.1]
      simp [hsem, hs, Nat.lt_of_not_le hp]

@[simp] theorem lcminfoOpen_sem (uid : Nat) (dev : LcminfoDev) :
    (lcminfoOpen uid dev).sem = dev.sem := by
  unfold lcminfoOpen
  split <;> rfl

@[simp] theorem lcminfoUnlockedIoctl_sem (cmd : BitVec 32) (dev : LcminfoDev) :
    (lcminfoUnlockedIoctl cmd dev).1.sem = dev.sem := by
  unfold lcminfoUnlockedIoctl
  split
  · rfl
  · split
    · rfl
    · split <;> rfl

theorem step_sem {s t : Lcminfo} {call : Call} {reply : Reply} (hs : s.dev.sem = 1)
    (h : lcminfo.step s call = some (t, reply)) : t.dev.sem = 1 ↔ GivesBack s call := by
  cases call with
  | opened file uid =>
    simp only [lcminfo] at h
    split at h
    · simp at h
    · rw [Option.some.injEq, Prod.mk.injEq] at h
      simp [← h.1, hs, GivesBack]
  | release file =>
    simp only [lcminfo, Option.bind_eq_bind, Option.bind_eq_some_iff, Option.pure_def,
      Option.some.injEq, Prod.mk.injEq] at h
    obtain ⟨_, _, rfl, _⟩ := h
    simp [lcminfoRelease, hs, GivesBack]
  | read file pos size signal copy =>
    obtain ⟨fPos, ppos, hf, _, hop, _⟩ := transfer_eq_some h
    rw [lcminfoRead_sem hs hop]
    simp [GivesBack, hf]
  | write file pos buf signal copy =>
    obtain ⟨fPos, ppos, hf, _, hop, _⟩ := transfer_eq_some h
    rw [lcminfoWrite_sem hs hop]
    simp [GivesBack, hf]
  | llseek file offset whence =>
    simp only [lcminfo, Option.bind_eq_bind, Option.bind_eq_some_iff, Option.pure_def,
      Option.some.injEq, Prod.mk.injEq] at h
    obtain ⟨_, _, rfl, _⟩ := h
    simp [hs, GivesBack]
  | unlockedIoctl file cmd =>
    simp only [lcminfo, Option.bind_eq_bind, Option.bind_eq_some_iff, Option.pure_def,
      Option.some.injEq, Prod.mk.injEq] at h
    obtain ⟨_, _, rfl, _⟩ := h
    simp [hs, GivesBack]

/-! ## Every run -/

/-- Over a run of completed calls, the semaphore is back after each call exactly
when every call gives it back. -/
theorem returned_throughout_iff {t : Lcminfo} {calls : List Call} {replies : List Reply}
    (h : lcminfo.run initial calls = some (t, replies)) :
    lcminfo.AllStates Returned initial calls ↔ lcminfo.AllSteps GivesBack initial calls := by
  refine Machine.allStates_iff_allSteps (fun s call u reply hs hstep => ?_)
    (returned_iff.mpr rfl) h
  rw [returned_iff]
  exact step_sem hs.sem hstep

theorem returned_throughout_iff_seek :
    lcminfo.AllStates Returned initial
        [.opened 0 0, .llseek 0 4096 seekSet, .read 0 none 1 false { copied := 1 }] ↔
      lcminfo.AllSteps GivesBack initial
        [.opened 0 0, .llseek 0 4096 seekSet, .read 0 none 1 false { copied := 1 }] :=
  returned_throughout_iff rfl

/-- A write to the full device returns 0 with the semaphore taken. -/
theorem semaphore_lost :
    ∃ t replies, lcminfo.run initial
        [.opened 0 0, .llseek 0 4096 seekSet, .write 0 none [7] false { copied := 1 }] =
          some (t, replies) ∧ ¬ Returned t :=
  ⟨_, _, rfl, fun h => absurd h.sem (by decide)⟩

end LcmInfo
end AtomDrivers
