/-
Structures in user memory, translated member by member.

Each member is fetched with `get_user` and stored in the other structure with
`put_user`.  The errors are collected with a bitwise or, and a converter may
start the collection afresh at any member.  A fault does not end the
translation: a faulting `get_user` yields 0, and a faulting `put_user` leaves
the member as it was.
-/
import AtomDrivers.Linux.Errno
import Mathlib.Logic.Function.Basic

namespace AtomDrivers
namespace Linux

/-- One member.  With `fresh` the error of its `get_user` replaces the errors
collected before it. -/
structure Move (μ ν : Type*) where
  src : μ
  dst : ν
  fresh : Bool := false
  deriving DecidableEq, Repr

def userErr (fault : Bool) : BitVec 32 := if fault then BitVec.ofInt 32 (-EFAULT) else 0

variable {μ ν α β : Type*} [DecidableEq ν] [Zero α]

/-- `fault k` says whether the `k`-th access from here on faults. -/
def moveMember (conv : α → β) (m : Move μ ν) (fault : Nat → Bool) (data : μ → α) (out : ν → β)
    (err : BitVec 32) : (ν → β) × BitVec 32 :=
  let x := if fault 0 then 0 else data m.src
  let err := if m.fresh then userErr (fault 0) else err ||| userErr (fault 0)
  let out := if fault 1 then out else Function.update out m.dst (conv x)
  (out, err ||| userErr (fault 1))

def translate (conv : α → β) : List (Move μ ν) → (Nat → Bool) → (μ → α) → (ν → β) → BitVec 32 →
    (ν → β) × BitVec 32
  | [], _, _, out, err => (out, err)
  | m :: ms, fault, data, out, err =>
    let moved := moveMember conv m fault data out err
    translate conv ms (fun k => fault (k + 2)) data moved.1 moved.2

theorem userErr_eq_zero {fault : Bool} : userErr fault = 0 ↔ fault = false := by
  cases fault <;> decide

theorem or_eq_zero {a b : BitVec 32} : a ||| b = 0 ↔ a = 0 ∧ b = 0 :=
  BitVec.or_eq_zero_iff

theorem translate_append (conv : α → β) (as bs : List (Move μ ν)) (fault : Nat → Bool)
    (data : μ → α) (out : ν → β) (err : BitVec 32) :
    translate conv (as ++ bs) fault data out err =
      translate conv bs (fun k => fault (k + 2 * as.length)) data
        (translate conv as fault data out err).1 (translate conv as fault data out err).2 := by
  induction as generalizing fault out err with
  | nil => rfl
  | cons a as ih =>
    rw [List.cons_append, translate, translate, ih]
    have hshift : ∀ k, k + 2 * as.length + 2 = k + 2 * (a :: as).length := by
      intro k
      rw [List.length_cons]
      omega
    simp only [hshift]

/-! ## Collected errors -/

/-- The first `n` accesses succeed. -/
def NoFault (fault : Nat → Bool) (n : Nat) : Prop := ∀ k < n, fault k = false

instance (fault : Nat → Bool) (n : Nat) : Decidable (NoFault fault n) :=
  inferInstanceAs (Decidable (∀ k < n, fault k = false))

theorem noFault_add_two {fault : Nat → Bool} {n : Nat} :
    NoFault fault (n + 2) ↔
      fault 0 = false ∧ fault 1 = false ∧ NoFault (fun k => fault (k + 2)) n := by
  constructor
  · intro h
    exact ⟨h 0 (by omega), h 1 (by omega), fun k hk => h (k + 2) (by omega)⟩
  · intro h k hk
    obtain ⟨h0, h1, h⟩ := h
    match k with
    | 0 => exact h0
    | 1 => exact h1
    | k + 2 => exact h k (by omega)

/-- While nothing starts afresh, every fault is reported. -/
theorem translate_err (conv : α → β) {ms : List (Move μ ν)} (hms : ∀ m ∈ ms, m.fresh = false)
    (fault : Nat → Bool) (data : μ → α) (out : ν → β) (err : BitVec 32) :
    (translate conv ms fault data out err).2 = 0 ↔ err = 0 ∧ NoFault fault (2 * ms.length) := by
  induction ms generalizing fault out err with
  | nil => simp [translate, NoFault]
  | cons m ms ih =>
    have hm := hms m List.mem_cons_self
    have hlen : 2 * (m :: ms).length = 2 * ms.length + 2 := by
      rw [List.length_cons]
      omega
    rw [translate, hlen, noFault_add_two, ih fun n hn => hms n (List.mem_cons_of_mem m hn)]
    simp only [moveMember, hm, Bool.false_eq_true, if_false, or_eq_zero, userErr_eq_zero]
    tauto

/-- Only the faults from the last fresh member on are reported. -/
theorem translate_err_fresh (conv : α → β) (as : List (Move μ ν)) {m : Move μ ν}
    {ms : List (Move μ ν)} (hm : m.fresh = true) (hms : ∀ m ∈ ms, m.fresh = false)
    (fault : Nat → Bool) (data : μ → α) (out : ν → β) (err : BitVec 32) :
    (translate conv (as ++ m :: ms) fault data out err).2 = 0 ↔
      NoFault (fun k => fault (k + 2 * as.length)) (2 * (m :: ms).length) := by
  have hlen : 2 * (m :: ms).length = 2 * ms.length + 2 := by
    rw [List.length_cons]
    omega
  rw [translate_append, translate, translate_err conv hms, hlen, noFault_add_two]
  simp only [moveMember, hm, if_true, or_eq_zero, userErr_eq_zero]
  tauto

theorem translate_noFault (conv : α → β) {ms : List (Move μ ν)} {fault : Nat → Bool}
    (hfault : NoFault fault (2 * ms.length)) (data : μ → α) (out : ν → β) :
    (translate conv ms fault data out 0).2 = 0 := by
  induction ms generalizing fault out with
  | nil => rfl
  | cons m ms ih =>
    have hlen : 2 * (m :: ms).length = 2 * ms.length + 2 := by
      rw [List.length_cons]
      omega
    rw [hlen, noFault_add_two] at hfault
    obtain ⟨h0, h1, hrest⟩ := hfault
    have herr : (moveMember conv m fault data out 0).2 = 0 := by
      simp only [moveMember, h0, h1]
      split <;> rfl
    rw [translate, herr]
    exact ih hrest _

/-! ## Translated members -/

theorem translate_other (conv : α → β) {ms : List (Move μ ν)} {y : ν}
    (hy : ∀ m ∈ ms, m.dst ≠ y) (fault : Nat → Bool) (data : μ → α) (out : ν → β)
    (err : BitVec 32) : (translate conv ms fault data out err).1 y = out y := by
  induction ms generalizing fault out err with
  | nil => rfl
  | cons m ms ih =>
    rw [translate, ih fun n hn => hy n (List.mem_cons_of_mem m hn)]
    simp only [moveMember]
    split
    · rfl
    · rw [Function.update_of_ne (hy m List.mem_cons_self).symm]

/-- Without a fault every member arrives. -/
theorem translate_dst (conv : α → β) {ms : List (Move μ ν)} (hnodup : (ms.map Move.dst).Nodup)
    {fault : Nat → Bool} (hfault : NoFault fault (2 * ms.length)) (data : μ → α) (out : ν → β)
    (err : BitVec 32) {m : Move μ ν} (hm : m ∈ ms) :
    (translate conv ms fault data out err).1 m.dst = conv (data m.src) := by
  induction ms generalizing fault out err with
  | nil => simp at hm
  | cons n ms ih =>
    have hlen : 2 * (n :: ms).length = 2 * ms.length + 2 := by
      rw [List.length_cons]
      omega
    rw [hlen, noFault_add_two] at hfault
    obtain ⟨h0, h1, hrest⟩ := hfault
    rw [List.map_cons, List.nodup_cons] at hnodup
    rw [translate]
    rcases List.mem_cons.mp hm with rfl | hm
    · have hother : ∀ k ∈ ms, k.dst ≠ m.dst := by
        intro k hk he
        rw [← he] at hnodup
        exact hnodup.1 (List.mem_map_of_mem hk)
      rw [translate_other conv hother]
      simp [moveMember, h0, h1]
    · exact ih hnodup.2 hrest _ _ hm

end Linux
end AtomDrivers
