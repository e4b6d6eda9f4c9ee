/-
Buffers that are freed.

The allocations and releases in the log of the heap are the entries of a ledger.
`Logs m η s es n` says that `m`, from `s` on and with the old content `η`, adds the
entries `es` and asks for `n` buffers.  The rules follow the shape of a computation
and put the entries of its parts behind one another.
-/
import AtomDrivers.Linux.Bounds
import AtomDrivers.Machine.Ledger

namespace AtomDrivers
namespace Linux

open Routine

def HeapEvent.entry : HeapEvent → Option (Entry Nat)
  | .alloc id _ => some (.acquire id)
  | .free id => some (.release id)
  | .access _ _ _ => none

def ledger (log : List HeapEvent) : List (Entry Nat) := log.filterMap HeapEvent.entry

theorem ledger_append (log log' : List HeapEvent) :
    ledger (log ++ log') = ledger log ++ ledger log' := List.filterMap_append

/-- Every buffer is freed while it is live, and none is live at the end. -/
structure AllFreed (log : List HeapEvent) : Prop where
  fair : Ledger.Fair (fun _ => []) Ledger.nothing (ledger log)
  none_live : ∀ id, Ledger.post (ledger log) Ledger.nothing id = false

/-- As many releases as allocations. -/
theorem AllFreed.count {log : List HeapEvent} (h : AllFreed log) (id : Nat) :
    (ledger log).count (.release id) = (ledger log).count (.acquire id) :=
  Ledger.count_release (fun _ => []) h.fair (h.none_live id)

/-- Buffers that are all allocated and then freed in any order. -/
theorem allFreed_of_all {log : List HeapEvent} {ids freed : List Nat}
    (h : ledger log = ids.map .acquire ++ freed.map .release) (hnodup : ids.Nodup)
    (hperm : ids.Perm freed) : AllFreed log := by
  have hheld (id : Nat) :
      Ledger.post (ids.map .acquire) Ledger.nothing id = decide (id ∈ freed) := by
    simp [Ledger.post_acquires, Ledger.nothing, hperm.mem_iff]
  refine ⟨?_, fun id => ?_⟩
  · rw [h, Ledger.fair_append]
    refine ⟨Ledger.fair_acquires _ hnodup fun _ _ => rfl,
      Ledger.fair_releases (hperm.nodup hnodup) fun id hid => ?_⟩
    rw [hheld]
    exact decide_eq_true hid
  · rw [h, Ledger.post_append, Ledger.post_releases, hheld]
    simp

/-- A buffer that is allocated and never freed. -/
theorem not_allFreed {log : List HeapEvent} (id : Nat) (hacquire : .acquire id ∈ ledger log)
    (hrelease : .release id ∉ ledger log) : ¬ AllFreed log := by
  intro h
  have hcount := h.count id
  rw [List.count_eq_zero.mpr hrelease] at hcount
  have hpos := List.count_pos_iff.mpr hacquire
  omega

section Rules

variable {ν σ α β : Type}

structure Logs (m : Routine (Stale ν) (Kernel σ) α) (η : Stale ν) (s : Kernel σ)
    (es : List (Entry Nat)) (n : Nat) : Prop where
  entries : ledger (m η s).2.heap = ledger s.heap ++ es
  allocs : (m η s).2.allocs = s.allocs + n

variable {m : Routine (Stale ν) (Kernel σ) α} {f : α → Routine (Stale ν) (Kernel σ) β}
  {η : Stale ν} {s : Kernel σ} {es fs : List (Entry Nat)} {n k : Nat}

theorem Logs.congr (h : Logs m η s es n) (hes : es = fs) : Logs m η s fs n := hes ▸ h

theorem Logs.bind (hm : Logs m η s es n) (hf : Logs (f (m η s).1) η (m η s).2 fs k) :
    Logs (m >>= f) η s (es ++ fs) (n + k) where
  entries := by rw [bind_apply, hf.entries, hm.entries, List.append_assoc]
  allocs := by rw [bind_apply, hf.allocs, hm.allocs, Nat.add_assoc]

/-- A first part that leaves the buffers alone. -/
theorem Logs.after (hm : Logs m η s [] 0) (hf : Logs (f (m η s).1) η (m η s).2 fs k) :
    Logs (m >>= f) η s fs k := by
  have hboth := hm.bind hf
  rwa [List.nil_append, Nat.zero_add] at hboth

/-- A second part that leaves them alone. -/
theorem Logs.before (hm : Logs m η s es n) (hf : Logs (f (m η s).1) η (m η s).2 [] 0) :
    Logs (m >>= f) η s es n := by
  have hboth := hm.bind hf
  rwa [List.append_nil, Nat.add_zero] at hboth

theorem Logs.of_run {t : Kernel σ} {m' : Routine (Stale ν) (Kernel σ) α} (h : Logs m' η t fs k)
    (hrun : m η s = m' η t) (hentries : ledger t.heap = ledger s.heap ++ es)
    (hallocs : t.allocs = s.allocs + n) : Logs m η s (es ++ fs) (n + k) where
  entries := by rw [hrun, h.entries, hentries, List.append_assoc]
  allocs := by rw [hrun, h.allocs, hallocs, Nat.add_assoc]

theorem logs_of_heap (hheap : ledger (m η s).2.heap = ledger s.heap)
    (hallocs : (m η s).2.allocs = s.allocs) : Logs m η s [] 0 where
  entries := by rw [hheap, List.append_nil]
  allocs := hallocs

theorem logs_pure (a : α) : Logs (pure a : Routine (Stale ν) (Kernel σ) α) η s [] 0 :=
  logs_of_heap rfl rfl

theorem logs_modifyGet {g : Kernel σ → α × Kernel σ} (hheap : (g s).2.heap = s.heap)
    (hallocs : (g s).2.allocs = s.allocs) :
    Logs (Routine.modifyGet g : Routine (Stale ν) (Kernel σ) α) η s [] 0 :=
  logs_of_heap (congrArg ledger hheap) hallocs

theorem logs_kfree {b : Buffer} {id : Nat} (h : b.id = id) :
    Logs (kfree b : Routine (Stale ν) (Kernel σ) Unit) η s [.release id] 0 where
  entries := h ▸ ledger_append s.heap [.free b.id]
  allocs := rfl

theorem logs_access (id off len : Nat) :
    Logs (logHeap (.access id off len) : Routine (Stale ν) (Kernel σ) Unit) η s [] 0 where
  entries := ledger_append s.heap [.access id off len]
  allocs := rfl

section Calls

variable (env : Env)

/-- The entry of an allocation that succeeds. -/
def acquired (id : Nat) : List (Entry Nat) :=
  if (env.alloc id).isSome then [.acquire id] else []

theorem logs_kmalloc (len : Nat) :
    Logs (kmalloc env len : Routine (Stale ν) (Kernel σ) (Option Buffer)) η s
      (acquired env s.allocs) 1 := by
  refine ⟨?_, allocs_kmalloc env len⟩
  cases haddr : env.alloc s.allocs with
  | none => simp [kmalloc, acquired, haddr]
  | some addr =>
    simp only [kmalloc, acquired, haddr]
    exact ledger_append s.heap [.alloc s.allocs len]

theorem kmalloc_id {len : Nat} {b : Buffer}
    (h : (kmalloc env len η s : Option Buffer × Kernel σ).1 = some b) : b.id = s.allocs := by
  cases haddr : env.alloc s.allocs with
  | none => simp [kmalloc, haddr] at h
  | some addr =>
    simp only [kmalloc, haddr, Option.some.injEq] at h
    rw [← h]

variable (b : Buffer)

theorem logs_memset (value : UInt8) (len : Nat) :
    Logs (b.memset value len : Routine (Stale ν) (Kernel σ) Buffer) η s [] 0 :=
  (logs_access b.id 0 len).after (logs_pure _)

theorem logs_read (off len : Nat) :
    Logs (b.read off len : Routine (Stale ν) (Kernel σ) (List UInt8)) η s [] 0 :=
  (logs_access b.id off len).after (logs_pure _)

theorem logs_write (off : Nat) (bs : List UInt8) :
    Logs (b.write off bs : Routine (Stale ν) (Kernel σ) Buffer) η s [] 0 :=
  (logs_access b.id off bs.length).after (logs_pure _)

theorem logs_copyIn (src : BitVec 64) (len : Nat) :
    Logs (b.copyIn env src len : Routine (Stale ν) (Kernel σ) (Buffer × Nat)) η s [] 0 :=
  (logs_access b.id 0 len).after ((logs_modifyGet rfl rfl).after (logs_pure _))

theorem logs_copyOut (dst : BitVec 64) (len : Nat) :
    Logs (b.copyOut env dst len : Routine (Stale ν) (Kernel σ) Nat) η s [] 0 :=
  (logs_access b.id 0 len).after (logs_modifyGet rfl rfl)

theorem logs_copyOutThen (dst : BitVec 64) (src : Bytes) (len : Nat)
    {rest : Routine (Stale ν) (Kernel σ) Int} (hrest : ∀ t, Logs rest η t [] 0) :
    Logs (copyOutThen env dst src len rest) η s [] 0 := by
  refine Logs.after (logs_modifyGet rfl rfl) ?_
  split
  · exact logs_pure _
  · exact hrest _

end Calls

/-! ## Filled buffers -/

section Filled

variable (env : Env) {value : UInt8} {len : Nat} {none' : Routine (Stale ν) (Kernel σ) α}
  {g : Buffer → Routine (Stale ν) (Kernel σ) α}

theorem logs_kmalloc_memset_none (h : env.alloc s.allocs = none)
    (hnone : Logs none' η { s with allocs := s.allocs + 1 } es k) :
    Logs (do
      match ← kmalloc env len with
      | none => none'
      | some b => do
        let b ← b.memset value len
        g b) η s es (1 + k) := by
  have hheap : ledger s.heap = ledger s.heap ++ [] := (List.append_nil _).symm
  exact hnone.of_run (kmalloc_memset_none env h value len η) hheap rfl

theorem logs_kmalloc_memset_some {addr : BitVec 64} (h : env.alloc s.allocs = some addr)
    (hsome : Logs (g (clearedBuffer env s addr value len)) η (afterFill s len) es k) :
    Logs (do
      match ← kmalloc env len with
      | none => none'
      | some b => do
        let b ← b.memset value len
        g b) η s (.acquire s.allocs :: es) (1 + k) := by
  have hfill : (afterFill s len).heap =
      s.heap ++ ([.alloc s.allocs len] ++ [.access s.allocs 0 len]) := List.append_assoc _ _ _
  have hheap : ledger (afterFill s len).heap = ledger s.heap ++ [.acquire s.allocs] := by
    rw [hfill, ledger_append]
    rfl
  exact hsome.of_run (kmalloc_memset_some env h value len η) hheap rfl

end Filled

end Rules

end Linux
end AtomDrivers
