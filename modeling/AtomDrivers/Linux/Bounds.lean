/-
Accesses inside their buffers.

The log of the heap tells for every access whether it lies within the bytes that
were allocated.  `Audit m η s c` says that the accesses `m` makes from `s` on, with
the old content `η`, do so exactly when `c` holds.  The rules follow the shape of a
computation and collect the conditions of its parts.
-/
import AtomDrivers.Linux.Memory

namespace AtomDrivers
namespace Linux

open Routine

/-- Every access lies within the bytes of its buffer. -/
def InBounds (log : List HeapEvent) : Prop :=
  ∀ id off n, .access id off n ∈ log → ∃ size, .alloc id size ∈ log ∧ off + n ≤ size

section Log

variable {ν σ α β : Type}

/-- Buffers are numbered by their allocation. -/
structure Numbered (s : Kernel σ) : Prop where
  alloc_lt : ∀ id n, .alloc id n ∈ s.heap → id < s.allocs
  alloc_inj : ∀ id m n, .alloc id m ∈ s.heap → .alloc id n ∈ s.heap → m = n
  access_lt : ∀ id off n, .access id off n ∈ s.heap → id < s.allocs

/-- A failed allocation uses up its number. -/
theorem Numbered.skip {s : Kernel σ} (hs : Numbered s) :
    Numbered { s with allocs := s.allocs + 1 } where
  alloc_lt id m h := Nat.lt_succ_of_lt (hs.alloc_lt id m h)
  alloc_inj := hs.alloc_inj
  access_lt id off m h := Nat.lt_succ_of_lt (hs.access_lt id off m h)

theorem Numbered.fresh {s : Kernel σ} (hs : Numbered s) (n : Nat) :
    .alloc s.allocs n ∉ s.heap :=
  fun h => Nat.lt_irrefl _ (hs.alloc_lt s.allocs n h)

theorem Numbered.alloc {s : Kernel σ} (hs : Numbered s) (n : Nat) :
    Numbered { s with allocs := s.allocs + 1, heap := s.heap ++ [.alloc s.allocs n] } where
  alloc_lt := by
    intro id m h
    simp only [List.mem_append, List.mem_singleton, HeapEvent.alloc.injEq] at h
    rcases h with h | h
    · exact Nat.lt_succ_of_lt (hs.alloc_lt id m h)
    · exact h.1 ▸ Nat.lt_succ_self _
  alloc_inj := by
    intro id m m' h h'
    simp only [List.mem_append, List.mem_singleton, HeapEvent.alloc.injEq] at h h'
    rcases h with h | h
    · rcases h' with h' | h'
      · exact hs.alloc_inj id m m' h h'
      · exact absurd (h'.1 ▸ h) (hs.fresh m)
    · rcases h' with h' | h'
      · exact absurd (h.1 ▸ h') (hs.fresh m')
      · exact h.2.trans h'.2.symm
  access_lt := by
    intro id off m h
    have hmem : .access id off m ∈ s.heap := by simpa using h
    exact Nat.lt_succ_of_lt (hs.access_lt id off m hmem)

/-- No access has been to the new buffer. -/
theorem Numbered.inBounds_alloc {s : Kernel σ} (hs : Numbered s) (n : Nat) :
    InBounds (s.heap ++ [.alloc s.allocs n]) ↔ InBounds s.heap := by
  constructor
  · intro h id off m hmem
    obtain ⟨size, hsize, hle⟩ := h id off m (List.mem_append_left _ hmem)
    rw [List.mem_append, List.mem_singleton] at hsize
    rcases hsize with hsize | hsize
    · exact ⟨size, hsize, hle⟩
    · cases hsize
      exact absurd (hs.access_lt _ off m hmem) (Nat.lt_irrefl _)
  · intro h id off m hmem
    obtain ⟨size, hsize, hle⟩ := h id off m (by simpa using hmem)
    exact ⟨size, List.mem_append_left _ hsize, hle⟩

def Held (s : Kernel σ) (b : Buffer) : Prop := .alloc b.id b.size ∈ s.heap

theorem Numbered.access {s : Kernel σ} (hs : Numbered s) {b : Buffer} (hb : Held s b)
    (off n : Nat) : Numbered { s with heap := s.heap ++ [.access b.id off n] } where
  alloc_lt := by
    intro id m h
    exact hs.alloc_lt id m (by simpa using h)
  alloc_inj := by simpa using hs.alloc_inj
  access_lt := by
    intro id off' n' h
    rw [List.mem_append, List.mem_singleton] at h
    rcases h with h | h
    · exact hs.access_lt id off' n' h
    · cases h
      exact hs.alloc_lt b.id b.size hb

theorem Numbered.inBounds_access {s : Kernel σ} (hs : Numbered s) {b : Buffer} (hb : Held s b)
    (off n : Nat) :
    InBounds (s.heap ++ [.access b.id off n]) ↔ InBounds s.heap ∧ off + n ≤ b.size := by
  constructor
  · intro h
    refine ⟨fun id off' n' hmem => ?_, ?_⟩
    · simpa using h id off' n' (List.mem_append_left _ hmem)
    · obtain ⟨size, hsize, hle⟩ := h b.id off n (by simp)
      have halloc : .alloc b.id size ∈ s.heap := by simpa using hsize
      rwa [hs.alloc_inj b.id b.size size hb halloc]
  · intro h id off' n' hmem
    rw [List.mem_append, List.mem_singleton] at hmem
    rcases hmem with hmem | hmem
    · obtain ⟨size, hsize, hle⟩ := h.1 id off' n' hmem
      exact ⟨size, List.mem_append_left _ hsize, hle⟩
    · cases hmem
      exact ⟨b.size, List.mem_append_left _ hb, h.2⟩

theorem Held.mono {s t : Kernel σ} {b : Buffer} (h : Held s b) (hst : s.heap <+: t.heap) :
    Held t b :=
  hst.subset h

structure Audit (m : Routine (Stale ν) (Kernel σ) α) (η : Stale ν) (s : Kernel σ)
    (c : Prop) : Prop where
  numbered : Numbered (m η s).2
  grows : s.heap <+: (m η s).2.heap
  inBounds_iff : InBounds (m η s).2.heap ↔ InBounds s.heap ∧ c

variable {m : Routine (Stale ν) (Kernel σ) α} {f : α → Routine (Stale ν) (Kernel σ) β}
  {η : Stale ν} {s : Kernel σ} {c d : Prop}

theorem Audit.congr (h : Audit m η s c) (hcd : c ↔ d) : Audit m η s d :=
  ⟨h.numbered, h.grows, h.inBounds_iff.trans (and_congr_right fun _ => hcd)⟩

theorem Audit.bind (hm : Audit m η s c)
    (hf : Numbered (m η s).2 → s.heap <+: (m η s).2.heap →
      Audit (f (m η s).1) η (m η s).2 d) : Audit (m >>= f) η s (c ∧ d) := by
  have hrest := hf hm.numbered hm.grows
  refine ⟨hrest.numbered, hm.grows.trans hrest.grows, ?_⟩
  rw [bind_apply, hrest.inBounds_iff, hm.inBounds_iff, and_assoc]

/-- A first part without an access. -/
theorem Audit.after (hm : Audit m η s True)
    (hf : Numbered (m η s).2 → s.heap <+: (m η s).2.heap →
      Audit (f (m η s).1) η (m η s).2 c) : Audit (m >>= f) η s c :=
  (hm.bind hf).congr (iff_of_eq (true_and c))

/-- A second part without an access. -/
theorem Audit.before (hm : Audit m η s c)
    (hf : Numbered (m η s).2 → Audit (f (m η s).1) η (m η s).2 True) :
    Audit (m >>= f) η s c :=
  (hm.bind fun hn _ => hf hn).congr (iff_of_eq (and_true c))

theorem Audit.ite {p : Prop} [Decidable p] {n : Routine (Stale ν) (Kernel σ) α}
    (hm : p → Audit m η s c) (hn : ¬ p → Audit n η s d) :
    Audit (if p then m else n) η s (if p then c else d) := by
  by_cases hp : p
  · rw [if_pos hp, if_pos hp]
    exact hm hp
  · rw [if_neg hp, if_neg hp]
    exact hn hp

/-- `m` comes down to another computation without an access outside. -/
theorem Audit.of_run {t : Kernel σ} {m' : Routine (Stale ν) (Kernel σ) α}
    (h : Audit m' η t c) (hrun : m η s = m' η t) (hgrows : s.heap <+: t.heap)
    (hin : InBounds t.heap ↔ InBounds s.heap) : Audit m η s c := by
  refine ⟨?_, ?_, ?_⟩
  · rw [hrun]
    exact h.numbered
  · rw [hrun]
    exact hgrows.trans h.grows
  · rw [hrun, h.inBounds_iff, hin]

/-- The heap is left alone. -/
theorem audit_of_heap (hs : Numbered s) (hheap : (m η s).2.heap = s.heap)
    (hallocs : (m η s).2.allocs = s.allocs) : Audit m η s True := by
  refine ⟨⟨?_, ?_, ?_⟩, hheap ▸ List.prefix_refl _, by rw [hheap, and_true]⟩
  · rw [hheap, hallocs]
    exact hs.alloc_lt
  · rw [hheap]
    exact hs.alloc_inj
  · rw [hheap, hallocs]
    exact hs.access_lt

theorem audit_pure (hs : Numbered s) (a : α) :
    Audit (pure a : Routine (Stale ν) (Kernel σ) α) η s True :=
  audit_of_heap hs rfl rfl

theorem audit_kfree (hs : Numbered s) (b : Buffer) :
    Audit (kfree b : Routine (Stale ν) (Kernel σ) Unit) η s True := by
  have hheap : (kfree b η s).2.heap = s.heap ++ [.free b.id] := rfl
  have hallocs : (kfree b η s).2.allocs = s.allocs := rfl
  refine ⟨⟨?_, ?_, ?_⟩, List.prefix_append _ _, ?_⟩
  · simpa [hheap, hallocs] using hs.alloc_lt
  · simpa [hheap] using hs.alloc_inj
  · simpa [hheap, hallocs] using hs.access_lt
  · simp [hheap, InBounds]

/-- An access to a buffer in hand. -/
theorem audit_access (hs : Numbered s) {b : Buffer} (hb : Held s b) (off n : Nat) :
    Audit (logHeap (.access b.id off n) : Routine (Stale ν) (Kernel σ) Unit) η s
      (off + n ≤ b.size) :=
  ⟨hs.access hb off n, List.prefix_append _ _, hs.inBounds_access hb off n⟩

section Calls

variable (env : Env)

theorem audit_kmalloc (hs : Numbered s) (n : Nat) :
    Audit (kmalloc env n : Routine (Stale ν) (Kernel σ) (Option Buffer)) η s True := by
  cases haddr : env.alloc s.allocs with
  | none =>
    have hrun : (kmalloc env n η s).2 = { s with allocs := s.allocs + 1 } := by
      simp only [kmalloc, haddr]
    refine ⟨?_, ?_, ?_⟩
    · rw [hrun]
      exact hs.skip
    · exact hrun ▸ List.prefix_refl s.heap
    · rw [hrun, and_true]
  | some addr =>
    have hrun : (kmalloc env n η s).2 =
        { s with allocs := s.allocs + 1, heap := s.heap ++ [.alloc s.allocs n] } := by
      simp only [kmalloc, haddr]
    refine ⟨?_, ?_, ?_⟩
    · rw [hrun]
      exact hs.alloc n
    · rw [hrun]
      exact List.prefix_append _ _
    · rw [hrun, and_true]
      exact hs.inBounds_alloc n

theorem isSome_kmalloc (n : Nat) :
    (kmalloc env n η s).1.isSome = (env.alloc s.allocs).isSome := by
  cases haddr : env.alloc s.allocs with
  | none => simp [kmalloc, haddr]
  | some addr => simp [kmalloc, haddr]

theorem allocs_kmalloc (n : Nat) : (kmalloc env n η s).2.allocs = s.allocs + 1 := by
  cases haddr : env.alloc s.allocs with
  | none => simp [kmalloc, haddr]
  | some addr => simp [kmalloc, haddr]

theorem held_kmalloc {n : Nat} {b : Buffer} (h : (kmalloc env n η s).1 = some b) :
    Held (kmalloc env n η s).2 b ∧ b.size = n := by
  cases haddr : env.alloc s.allocs with
  | none => simp [kmalloc, haddr] at h
  | some addr =>
    simp only [kmalloc, haddr, Option.some.injEq] at h
    subst h
    simp [Held, kmalloc, haddr]

end Calls

section Buffers

variable (env : Env) {b : Buffer}

theorem audit_memset (hs : Numbered s) (hb : Held s b) (value : UInt8) (n : Nat) :
    Audit (b.memset value n : Routine (Stale ν) (Kernel σ) Buffer) η s (n ≤ b.size) := by
  have haccess := audit_access (η := η) hs hb 0 n
  rw [Nat.zero_add] at haccess
  exact haccess.before fun hn => audit_pure hn _

theorem audit_read (hs : Numbered s) (hb : Held s b) (off n : Nat) :
    Audit (b.read off n : Routine (Stale ν) (Kernel σ) (List UInt8)) η s
      (off + n ≤ b.size) := by
  have haccess := audit_access (η := η) hs hb off n
  exact haccess.before fun hn => audit_pure hn _

theorem audit_write (hs : Numbered s) (hb : Held s b) (off : Nat) (bs : List UInt8) :
    Audit (b.write off bs : Routine (Stale ν) (Kernel σ) Buffer) η s
      (off + bs.length ≤ b.size) := by
  have haccess := audit_access (η := η) hs hb off bs.length
  exact haccess.before fun hn => audit_pure hn _

theorem audit_copyIn (hs : Numbered s) (hb : Held s b) (src : BitVec 64) (n : Nat) :
    Audit (b.copyIn env src n : Routine (Stale ν) (Kernel σ) (Buffer × Nat)) η s
      (n ≤ b.size) := by
  have haccess := audit_access (η := η) hs hb 0 n
  rw [Nat.zero_add] at haccess
  exact haccess.before fun hn => audit_of_heap hn rfl rfl

theorem audit_copyOut (hs : Numbered s) (hb : Held s b) (dst : BitVec 64) (n : Nat) :
    Audit (b.copyOut env dst n : Routine (Stale ν) (Kernel σ) Nat) η s (n ≤ b.size) := by
  have haccess := audit_access (η := η) hs hb 0 n
  rw [Nat.zero_add] at haccess
  exact haccess.before fun hn => audit_of_heap hn rfl rfl

/-- A copy from the user that fits, and what is done when it is whole or short. -/
theorem audit_copyIn_bind (hs : Numbered s) (hb : Held s b) (src : BitVec 64) {n : Nat}
    (hn : n ≤ b.size) {f : Buffer × Nat → Routine (Stale ν) (Kernel σ) α}
    (hwhole : n ≤ (env.copy s.copies).copied → ∀ b' t, Numbered t → Held t b' →
      b'.size = b.size → Audit (f (b', 0)) η t c)
    (hshort : ¬ n ≤ (env.copy s.copies).copied → ∀ b' missing t, missing ≠ 0 → Numbered t →
      Audit (f (b', missing)) η t c) : Audit (b.copyIn env src n >>= f) η s c := by
  have hcopy := (audit_copyIn (η := η) env hs hb src n).congr (iff_true_intro hn)
  have hmissing := b.copyIn_snd env src n s η
  refine hcopy.after fun ht hg => ?_
  have hheld := hb.mono hg
  have hpair : (b.copyIn env src n η s).1 =
      ((b.copyIn env src n η s).1.1, (b.copyIn env src n η s).1.2) := rfl
  rw [hpair, hmissing]
  by_cases hcopied : n ≤ (env.copy s.copies).copied
  · rw [Nat.sub_eq_zero_of_le hcopied]
    exact hwhole hcopied _ _ ht hheld rfl
  · exact hshort hcopied _ _ _ (by omega) ht

end Buffers

/-! ## Filled buffers -/

section Filled

variable (env : Env)

/-- After the allocation of `n` bytes that are filled at once. -/
def afterFill (s : Kernel σ) (n : Nat) : Kernel σ :=
  { s with
    allocs := s.allocs + 1
    heap := s.heap ++ [.alloc s.allocs n] ++ [.access s.allocs 0 n] }

theorem held_afterFill (s : Kernel σ) (addr : BitVec 64) (value : UInt8) (n : Nat) :
    Held (afterFill s n) (clearedBuffer env s addr value n) := by
  simp [Held, afterFill, clearedBuffer]

theorem grows_afterFill (s : Kernel σ) (n : Nat) : s.heap <+: (afterFill s n).heap :=
  (List.prefix_append _ _).trans (List.prefix_append _ _)

/-- The fill is inside the new buffer. -/
theorem audit_afterFill (hs : Numbered s) (n : Nat) :
    Numbered (afterFill s n) ∧ (InBounds (afterFill s n).heap ↔ InBounds s.heap) := by
  have hn := hs.alloc n
  have hheld : Held { s with allocs := s.allocs + 1, heap := s.heap ++ [.alloc s.allocs n] }
      { id := s.allocs, addr := 0, size := n, bytes := Bytes.zero } := by
    simp [Held]
  have hin := hn.inBounds_access hheld 0 n
  refine ⟨hn.access hheld 0 n, hin.trans ?_⟩
  rw [hs.inBounds_alloc n, Nat.zero_add]
  exact and_iff_left (Nat.le_refl n)

theorem audit_kmalloc_memset (hs : Numbered s) {value : UInt8} {n : Nat}
    {none' : Routine (Stale ν) (Kernel σ) α} {f : Buffer → Routine (Stale ν) (Kernel σ) α}
    (hnone : env.alloc s.allocs = none → Numbered { s with allocs := s.allocs + 1 } →
      Audit none' η { s with allocs := s.allocs + 1 } c)
    (hsome : ∀ addr, env.alloc s.allocs = some addr → Numbered (afterFill s n) →
      Held (afterFill s n) (clearedBuffer env s addr value n) →
      s.heap <+: (afterFill s n).heap →
      Audit (f (clearedBuffer env s addr value n)) η (afterFill s n) c) :
    Audit (do
      match ← kmalloc env n with
      | none => none'
      | some b => do
        let b ← b.memset value n
        f b) η s c := by
  cases haddr : env.alloc s.allocs with
  | none =>
    exact (hnone haddr hs.skip).of_run (kmalloc_memset_none env haddr value n η)
      (List.prefix_refl _) Iff.rfl
  | some addr =>
    obtain ⟨hnumbered, hin⟩ := audit_afterFill hs n
    have hgrows := grows_afterFill s n
    exact (hsome addr haddr hnumbered (held_afterFill env s addr value n) hgrows).of_run
      (kmalloc_memset_some env haddr value n η) hgrows hin

end Filled

end Log

end Linux
end AtomDrivers
