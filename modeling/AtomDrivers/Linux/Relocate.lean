/-
Two runs whose buffers lie at different addresses.

Everything else that the environment answers is the same.  Two buffers of the runs
are twins when they agree outside the offsets that may hold an address.
-/
import AtomDrivers.Linux.Memory

namespace AtomDrivers
namespace Linux

open Routine

/-- The same allocations at other addresses. -/
def Env.relocate (env : Env) (alloc : Nat → Option (BitVec 64)) : Env := { env with alloc }

structure Twin (hidden : Nat → Prop) (b b' : Buffer) : Prop where
  id : b.id = b'.id
  size : b.size = b'.size
  bytes : ∀ i, ¬ hidden i → b.bytes i = b'.bytes i

/-- Nothing is hidden. -/
def Bare (_ : Nat) : Prop := False

theorem Twin.bytes_eq {b b' : Buffer} (h : Twin Bare b b') : b.bytes = b'.bytes :=
  funext fun i => h.bytes i fun hi => hi

section Twins

variable {ν σ α β γ δ : Type} {hidden hidden' : Nat → Prop} {b b' : Buffer}

theorem Twin.same_kfree (h : Twin hidden b b') :
    Same Eq (kfree b : Routine (Stale ν) (Kernel σ) Unit) (kfree b') := by
  unfold kfree
  rw [h.id]
  exact blind_logHeap _

/-- A read beside the hidden offsets. -/
theorem Twin.same_read (h : Twin hidden b b') {off n : Nat}
    (hn : ∀ i, off ≤ i → i < off + n → ¬ hidden i) :
    Same Eq (b.read off n : Routine (Stale ν) (Kernel σ) (List UInt8)) (b'.read off n) := by
  have hread : b.bytes.read off n = b'.bytes.read off n := by
    refine List.map_congr_left fun k hk => ?_
    have hlt : k < n := List.mem_range.mp hk
    exact h.bytes _ (hn _ (by omega) (by omega))
  unfold Buffer.read
  rw [hread, h.id]
  exact (blind_logHeap _).bind fun _ => Blind.pure _

/-- A write may hide the offsets it goes to, or lay them bare. -/
theorem Twin.same_write (h : Twin hidden b b') {off : Nat} {bs bs' : List UInt8}
    (hlen : bs.length = bs'.length)
    (hwritten : ∀ i, off ≤ i → i < off + bs.length → ¬ hidden' i → bs = bs')
    (hkept : ∀ i, hidden i → ¬ hidden' i → off ≤ i ∧ i < off + bs.length) :
    Same (Twin hidden') (b.write off bs : Routine (Stale ν) (Kernel σ) Buffer)
      (b'.write off bs') := by
  unfold Buffer.write
  rw [h.id, hlen]
  refine Same.bind_eq (blind_logHeap _) fun _ => Same.pure ⟨rfl, h.size, fun i hi => ?_⟩
  by_cases hin : off ≤ i ∧ i < off + bs.length
  · have hlt : i - off < bs.length := by omega
    have hlt' : i - off < bs'.length := by omega
    have hbs := hwritten i hin.1 hin.2 hi
    simp [Bytes.write, hin.1, List.getD, ← hbs, hlt]
  · have hbare : ¬ hidden i := fun hhid => hin (hkept i hhid hi)
    by_cases hoff : off ≤ i
    · have hge : bs.length ≤ i - off := by omega
      have hge' : bs'.length ≤ i - off := by omega
      simpa [Bytes.write, hoff, List.getD, hge, hge'] using h.bytes i hbare
    · simpa [Bytes.write, hoff] using h.bytes i hbare

section Copies

variable (env : Env) (alloc : Nat → Option (BitVec 64))

theorem Twin.same_copyIn (h : Twin Bare b b') (src : BitVec 64) (n : Nat) :
    Same (fun r r' => Twin Bare r.1 r'.1 ∧ r.2 = r'.2)
      (b.copyIn env src n : Routine (Stale ν) (Kernel σ) (Buffer × Nat))
      (b'.copyIn (env.relocate alloc) src n) := by
  unfold Buffer.copyIn
  rw [h.id, h.bytes_eq]
  refine Same.bind_eq (blind_logHeap _) fun _ => ?_
  refine Same.bind_eq (blind_copyIn env b'.bytes src n) fun r => ?_
  exact Same.pure ⟨⟨rfl, h.size, fun _ _ => rfl⟩, rfl⟩

theorem Twin.same_copyOut (h : Twin Bare b b') (dst : BitVec 64) (n : Nat) :
    Same Eq (b.copyOut env dst n : Routine (Stale ν) (Kernel σ) Nat)
      (b'.copyOut (env.relocate alloc) dst n) := by
  unfold Buffer.copyOut
  rw [h.id, h.bytes_eq]
  exact Same.bind_eq (blind_logHeap _) fun _ => blind_copyOut env dst b'.bytes n

end Copies

/-! ## Allocations -/

/-- Two fresh buffers of one allocation. -/
structure Placed (n : Nat) (b b' : Buffer) : Prop where
  id : b.id = b'.id
  size : b.size = n
  size' : b'.size = n
  beyond : ∀ i, n ≤ i → b.bytes i = b'.bytes i

section Allocations

variable (env : Env) {alloc : Nat → Option (BitVec 64)}

theorem placed_kmalloc (halloc : ∀ k, (env.alloc k).isSome = (alloc k).isSome) (n : Nat) :
    Same (Option.Rel (Placed n))
      (kmalloc env n : Routine (Stale ν) (Kernel σ) (Option Buffer))
      (kmalloc (env.relocate alloc) n) := by
  intro stale stale' s
  have hsome := halloc s.allocs
  cases haddr : env.alloc s.allocs with
  | none =>
    have haddr' : (env.relocate alloc).alloc s.allocs = none := by
      rw [haddr] at hsome
      exact Option.not_isSome_iff_eq_none.mp (by simp [Env.relocate, ← hsome])
    simp only [kmalloc, haddr, haddr']
    exact ⟨.none, trivial⟩
  | some addr =>
    obtain ⟨addr', haddr'⟩ : ∃ addr', (env.relocate alloc).alloc s.allocs = some addr' := by
      rw [haddr] at hsome
      exact Option.isSome_iff_exists.mp hsome.symm
    simp only [kmalloc, haddr, haddr']
    refine ⟨.some ⟨rfl, rfl, rfl, fun i hi => ?_⟩, trivial⟩
    have hout : ¬ i < n := Nat.not_lt.mpr hi
    simp [Bytes.copy, hout, Env.relocate]

theorem Placed.same_memset {n : Nat} (h : Placed n b b') (value : UInt8) :
    Same (Twin Bare) (b.memset value n : Routine (Stale ν) (Kernel σ) Buffer)
      (b'.memset value n) := by
  unfold Buffer.memset
  rw [h.id]
  refine Same.bind_eq (blind_logHeap _) fun _ => ?_
  refine Same.pure ⟨rfl, h.size.trans h.size'.symm, fun i _ => ?_⟩
  by_cases hi : i < n
  · simp [Bytes.fill, hi]
  · simpa [Bytes.fill, hi] using h.beyond i (Nat.not_lt.mp hi)

theorem same_kmalloc_memset (halloc : ∀ k, (env.alloc k).isSome = (alloc k).isSome)
    (value : UInt8) (n : Nat) {S : α → β → Prop} {none' : Routine (Stale ν) (Kernel σ) α}
    {none'' : Routine (Stale ν) (Kernel σ) β} {f : Buffer → Routine (Stale ν) (Kernel σ) α}
    {f' : Buffer → Routine (Stale ν) (Kernel σ) β} (hnone : Same S none' none'')
    (hf : ∀ b b', Twin Bare b b' → Same S (f b) (f' b')) :
    Same S
      (do
        match ← kmalloc env n with
        | none => none'
        | some b => do
          let b ← b.memset value n
          f b)
      (do
        match ← kmalloc (env.relocate alloc) n with
        | none => none''
        | some b => do
          let b ← b.memset value n
          f' b) := by
  refine (placed_kmalloc env halloc n).bind fun b b' hb => ?_
  cases hb with
  | none => exact hnone
  | some hplaced => exact (hplaced.same_memset value).bind hf

end Allocations

end Twins

end Linux
end AtomDrivers
