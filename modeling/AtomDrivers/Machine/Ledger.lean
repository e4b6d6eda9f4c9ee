/-
What is acquired and released.

A list of entries takes a set of held resources to another.  The entries are fair
when each resource is free when it is acquired and held when it is released, and
when nothing inside a resource is held at its release.  Along fair entries every
release answers one acquisition, so that with nothing held before and after the
two are equally many.

Resources of several rounds are told apart by a tag, and the entries of one round
are fair in the whole ledger exactly if they are fair on their own.
-/
import Mathlib.Data.List.Basic
import Mathlib.Data.List.Count
import Mathlib.Logic.Function.Basic

namespace AtomDrivers

inductive Entry (ρ : Type*)
  | acquire (r : ρ)
  | release (r : ρ)
  deriving DecidableEq, Repr

namespace Entry

variable {ρ τ : Type*}

def map (f : ρ → τ) : Entry ρ → Entry τ
  | acquire r => acquire (f r)
  | release r => release (f r)

variable [DecidableEq ρ] (inside : ρ → List ρ)

/-- What is held after the entry. -/
def post : Entry ρ → (ρ → Bool) → ρ → Bool
  | acquire r, held => Function.update held r true
  | release r, held => Function.update held r false

/-- `inside r` are the resources that lie in `r`. -/
def Fair (held : ρ → Bool) : Entry ρ → Prop
  | acquire r => held r = false
  | release r => held r = true ∧ ∀ q ∈ inside r, held q = false

instance (held : ρ → Bool) (e : Entry ρ) : Decidable (e.Fair inside held) := by
  cases e with
  | acquire r => exact inferInstanceAs (Decidable (held r = false))
  | release r => exact inferInstanceAs (Decidable (held r = true ∧ ∀ q ∈ inside r, held q = false))

end Entry

namespace Ledger

variable {ρ : Type*}

def nothing : ρ → Bool := fun _ => false

section Entries

variable [DecidableEq ρ] (inside : ρ → List ρ)

def post : List (Entry ρ) → (ρ → Bool) → ρ → Bool
  | [], held => held
  | e :: es, held => post es (e.post held)

def Fair : (ρ → Bool) → List (Entry ρ) → Prop
  | _, [] => True
  | held, e :: es => e.Fair inside held ∧ Fair (e.post held) es

instance : ∀ (held : ρ → Bool) (es : List (Entry ρ)), Decidable (Fair inside held es)
  | _, [] => inferInstanceAs (Decidable True)
  | held, e :: es =>
    have := instDecidableFair (e.post held) es
    inferInstanceAs (Decidable (e.Fair inside held ∧ Fair inside (e.post held) es))

theorem post_append (es fs : List (Entry ρ)) (held : ρ → Bool) :
    post (es ++ fs) held = post fs (post es held) := by
  induction es generalizing held with
  | nil => rfl
  | cons e es ih => exact ih (e.post held)

theorem fair_append {es fs : List (Entry ρ)} {held : ρ → Bool} :
    Fair inside held (es ++ fs) ↔ Fair inside held es ∧ Fair inside (post es held) fs := by
  induction es generalizing held with
  | nil => simp [Fair, post]
  | cons e es ih =>
    rw [List.cons_append, Fair, Fair, ih, and_assoc]
    rfl

/-- What was acquired is released or still held. -/
theorem count_balance {es : List (Entry ρ)} {held : ρ → Bool} (h : Fair inside held es) (r : ρ) :
    es.count (.acquire r) + (held r).toNat = es.count (.release r) + (post es held r).toNat := by
  induction es generalizing held with
  | nil => rfl
  | cons e es ih =>
    have hrest := ih h.2
    rw [post]
    cases e with
    | acquire q =>
      have hfree : held q = false := h.1
      by_cases hq : q = r
      · subst hq
        rw [List.count_cons_self, List.count_cons_of_ne (by simp), hfree]
        simp only [Entry.post, Function.update_self] at hrest
        simp only [Entry.post, Bool.toNat_false]
        simp only [Bool.toNat_true] at hrest
        omega
      · rw [List.count_cons_of_ne (by simpa using hq), List.count_cons_of_ne (by simp)]
        rw [Entry.post, Function.update_of_ne (Ne.symm hq)] at hrest
        exact hrest
    | release q =>
      have hheld : held q = true := h.1.1
      by_cases hq : q = r
      · subst hq
        rw [List.count_cons_self, List.count_cons_of_ne (by simp), hheld]
        simp only [Entry.post, Function.update_self, Bool.toNat_false] at hrest
        simp only [Entry.post, Bool.toNat_true]
        omega
      · rw [List.count_cons_of_ne (by simp), List.count_cons_of_ne (by simpa using hq)]
        rw [Entry.post, Function.update_of_ne (Ne.symm hq)] at hrest
        exact hrest

/-- With nothing held before and after, each resource is released as often as it
is acquired. -/
theorem count_release {es : List (Entry ρ)} (h : Fair inside nothing es) {r : ρ}
    (hend : post es nothing r = false) : es.count (.release r) = es.count (.acquire r) := by
  have hbalance := count_balance inside h r
  rw [hend] at hbalance
  exact hbalance.symm

/-! ## All at once -/

theorem post_acquires (rs : List ρ) (held : ρ → Bool) (r : ρ) :
    post (rs.map .acquire) held r = (decide (r ∈ rs) || held r) := by
  induction rs generalizing held with
  | nil => simp [post]
  | cons q rs ih =>
    rw [List.map_cons, post, ih]
    by_cases hq : r = q
    · subst hq
      simp [Entry.post]
    · simp [Entry.post, hq]

theorem post_releases (rs : List ρ) (held : ρ → Bool) (r : ρ) :
    post (rs.map .release) held r = (!decide (r ∈ rs) && held r) := by
  induction rs generalizing held with
  | nil => simp [post]
  | cons q rs ih =>
    rw [List.map_cons, post, ih]
    by_cases hq : r = q
    · subst hq
      simp [Entry.post]
    · simp [Entry.post, hq]

theorem fair_acquires {rs : List ρ} {held : ρ → Bool} (hnodup : rs.Nodup)
    (hfree : ∀ r ∈ rs, held r = false) : Fair inside held (rs.map .acquire) := by
  induction rs generalizing held with
  | nil => trivial
  | cons q rs ih =>
    obtain ⟨hq, hrest⟩ := List.nodup_cons.mp hnodup
    refine ⟨hfree q List.mem_cons_self, ih hrest fun r hr => ?_⟩
    have hne : r ≠ q := fun h => hq (h ▸ hr)
    rw [Entry.post, Function.update_of_ne hne]
    exact hfree r (List.mem_cons_of_mem q hr)

/-- Nothing lies inside anything. -/
theorem fair_releases {rs : List ρ} {held : ρ → Bool} (hnodup : rs.Nodup)
    (hheld : ∀ r ∈ rs, held r = true) : Fair (fun _ => []) held (rs.map .release) := by
  induction rs generalizing held with
  | nil => trivial
  | cons q rs ih =>
    obtain ⟨hq, hrest⟩ := List.nodup_cons.mp hnodup
    refine ⟨⟨hheld q List.mem_cons_self, by simp⟩, ih hrest fun r hr => ?_⟩
    have hne : r ≠ q := fun h => hq (h ▸ hr)
    rw [Entry.post, Function.update_of_ne hne]
    exact hheld r (List.mem_cons_of_mem q hr)

/-- Nothing lies in them. -/
theorem fair_releases_of_free {rs : List ρ} {held : ρ → Bool} (hnodup : rs.Nodup)
    (hheld : ∀ r ∈ rs, held r = true) (hfree : ∀ r ∈ rs, ∀ q ∈ inside r, held q = false) :
    Fair inside held (rs.map .release) := by
  induction rs generalizing held with
  | nil => trivial
  | cons p rs ih =>
    obtain ⟨hp, hrest⟩ := List.nodup_cons.mp hnodup
    refine ⟨⟨hheld p List.mem_cons_self, hfree p List.mem_cons_self⟩,
      ih hrest (fun r hr => ?_) fun r hr q hq => ?_⟩
    · have hne : r ≠ p := fun h => hp (h ▸ hr)
      rw [Entry.post, Function.update_of_ne hne]
      exact hheld r (List.mem_cons_of_mem p hr)
    · by_cases hqp : q = p
      · rw [hqp, Entry.post, Function.update_self]
      · rw [Entry.post, Function.update_of_ne hqp]
        exact hfree r (List.mem_cons_of_mem p hr) q hq

/-- What lies in a resource is released before it: its rank is smaller. -/
theorem fair_releases_of_rank (rank : ρ → Nat) {rs : List ρ} {held : ρ → Bool}
    (hsorted : rs.Pairwise fun q r => rank q < rank r) (hheld : ∀ r ∈ rs, held r = true)
    (hinside : ∀ r ∈ rs, ∀ q ∈ inside r, held q = true → q ∈ rs ∧ rank q < rank r) :
    Fair inside held (rs.map .release) := by
  induction rs generalizing held with
  | nil => trivial
  | cons p rs ih =>
    obtain ⟨hp, hrest⟩ := List.pairwise_cons.mp hsorted
    have hne : ∀ r ∈ rs, r ≠ p := fun r hr heq => by
      have hlt := hp r hr
      rw [heq] at hlt
      omega
    refine ⟨⟨hheld p List.mem_cons_self, fun q hq => ?_⟩, ih hrest (fun r hr => ?_) ?_⟩
    · by_contra hnot
      have hmem := hinside p List.mem_cons_self q hq (by simpa using hnot)
      rcases List.mem_cons.mp hmem.1 with rfl | hq'
      · omega
      · have hlt := hp q hq'
        omega
    · rw [Entry.post, Function.update_of_ne (hne r hr)]
      exact hheld r (List.mem_cons_of_mem p hr)
    · intro r hr q hq hq'
      by_cases hqp : q = p
      · rw [hqp, Entry.post, Function.update_self] at hq'
        cases hq'
      · rw [Entry.post, Function.update_of_ne hqp] at hq'
        obtain ⟨hmem, hlt⟩ := hinside r (List.mem_cons_of_mem p hr) q hq hq'
        exact ⟨(List.mem_cons.mp hmem).resolve_left hqp, hlt⟩

/-- Of releases that are fair, none is of a resource in which one still lies. -/
theorem Fair.released_before {before after : List ρ} {r : ρ} {held : ρ → Bool}
    (h : Fair inside held ((before ++ r :: after).map .release)) {q : ρ} (hq : q ∈ inside r)
    (hbefore : q ∉ before) : held q = false := by
  rw [List.map_append, fair_append] at h
  have hpost := h.2.1.2 q hq
  rw [post_releases] at hpost
  simpa [hbefore] using hpost

/-- What is acquired and then released is not held. -/
theorem post_acquires_releases {rs qs : List ρ} (hmem : ∀ r ∈ rs, r ∈ qs) (r : ρ) :
    post (rs.map .acquire ++ qs.map .release) nothing r = false := by
  rw [post_append, post_releases, post_acquires]
  by_cases hr : r ∈ rs
  · simp [hmem r hr]
  · simp [hr, nothing]

end Entries

/-! ## One after another -/

section Each

variable (ok : Nat → Bool)

/-- A loop that acquires resources from number `i` on, `n` of them, until one cannot
be had: the number it comes to. -/
def each : Nat → Nat → Nat
  | 0, i => i
  | n + 1, i => if ok i then each n (i + 1) else i

theorem each_le (n i : Nat) : i ≤ each ok n i ∧ each ok n i ≤ i + n := by
  induction n generalizing i with
  | zero => exact ⟨Nat.le_refl i, Nat.le_refl i⟩
  | succ n ih =>
    rw [each]
    split
    · have hrest := ih (i + 1)
      omega
    · omega

/-- It comes to the end exactly if all are had. -/
theorem each_eq_iff (n i : Nat) : each ok n i = i + n ↔ ∀ j, i ≤ j → j < i + n → ok j = true := by
  induction n generalizing i with
  | zero => exact ⟨fun _ j hle hlt => by omega, fun _ => rfl⟩
  | succ n ih =>
    rw [each]
    split
    · rename_i hi
      rw [show i + (n + 1) = i + 1 + n by omega, ih (i + 1)]
      constructor
      · intro hall j hle hlt
        rcases Nat.eq_or_lt_of_le hle with rfl | hlt'
        · exact hi
        · exact hall j hlt' hlt
      · intro hall j hle hlt
        exact hall j (by omega) hlt
    · rename_i hi
      refine ⟨fun heq => by omega, fun hall => absurd (hall i (Nat.le_refl i) (by omega)) hi⟩

end Each

/-! ## Rounds -/

section Tagged

variable {κ : Type*} (inside : ρ → List ρ)

/-- The entries of round `n`. -/
def tag (n : κ) (es : List (Entry ρ)) : List (Entry (κ × ρ)) := es.map (Entry.map (Prod.mk n))

/-- A resource lies in resources of its own round. -/
def insideTagged (r : κ × ρ) : List (κ × ρ) := (inside r.2).map (Prod.mk r.1)

theorem entry_fair_tag {n : κ} {e : Entry ρ} {held : κ × ρ → Bool} :
    (e.map (Prod.mk n)).Fair (insideTagged inside) held ↔
      e.Fair inside fun q => held (n, q) := by
  cases e with
  | acquire r => exact Iff.rfl
  | release r => simp [Entry.map, Entry.Fair, insideTagged]

variable [DecidableEq κ] [DecidableEq ρ]

theorem entry_post_tag (n : κ) (e : Entry ρ) (held : κ × ρ → Bool) (m : κ) (r : ρ) :
    (e.map (Prod.mk n)).post held (m, r) =
      if m = n then e.post (fun q => held (n, q)) r else held (m, r) := by
  by_cases hm : m = n
  · subst hm
    cases e <;> simp [Entry.map, Entry.post, Function.update_apply]
  · cases e <;> simp [Entry.map, Entry.post, hm]

theorem post_tag (n : κ) (es : List (Entry ρ)) (held : κ × ρ → Bool) (m : κ) (r : ρ) :
    post (tag n es) held (m, r) =
      if m = n then post es (fun q => held (n, q)) r else held (m, r) := by
  induction es generalizing held with
  | nil =>
    by_cases hm : m = n
    · simp [tag, post, hm]
    · simp [tag, post, hm]
  | cons e es ih =>
    have hround : (fun q => (e.map (Prod.mk n)).post held (n, q)) =
        e.post fun q => held (n, q) := by
      funext q
      rw [entry_post_tag, if_pos rfl]
    show post (tag n es) ((e.map (Prod.mk n)).post held) (m, r) = _
    rw [ih, hround]
    by_cases hm : m = n
    · rw [if_pos hm, if_pos hm]
      rfl
    · rw [if_neg hm, if_neg hm, entry_post_tag, if_neg hm]

theorem fair_tag {n : κ} {es : List (Entry ρ)} {held : κ × ρ → Bool} :
    Fair (insideTagged inside) held (tag n es) ↔ Fair inside (fun q => held (n, q)) es := by
  induction es generalizing held with
  | nil => exact Iff.rfl
  | cons e es ih =>
    have hround : (fun q => (e.map (Prod.mk n)).post held (n, q)) =
        e.post fun q => held (n, q) := by
      funext q
      rw [entry_post_tag, if_pos rfl]
    show _ ∧ Fair (insideTagged inside) ((e.map (Prod.mk n)).post held) (tag n es) ↔ _
    rw [entry_fair_tag, ih, hround]
    rfl

end Tagged

end Ledger
end AtomDrivers
