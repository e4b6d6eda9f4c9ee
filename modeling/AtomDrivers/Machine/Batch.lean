/-
Cutting a list into batches from the front.

A batch is a start of the list whose entries agree in a key and whose weights fit
into a capacity, and the longest one is taken each time.  What may stand in one
batch is closed under taking stretches, and for every such property the greedy
cutting has the fewest pieces (`Greedy.minimal`): a piece of any other cutting never
reaches beyond the greedy one that starts at or before it.
-/
import Mathlib.Data.List.Infix

namespace AtomDrivers
namespace Batch

variable {α β : Type*}

/-! ## Greedy cuttings -/

section Greedy

variable (fits : List α → Prop)

/-- `b` is the longest start of `l` that fits. -/
def Longest (b l : List α) : Prop :=
  b <+: l ∧ fits b ∧ ∀ m, m <+: l → fits m → m <+: b

inductive Greedy : List α → List (List α) → Prop
  | nil : Greedy [] []
  | cons {b l : List α} {parts : List (List α)} (hb : b ≠ []) (h : Longest fits b (b ++ l))
      (rest : Greedy l parts) : Greedy (b ++ l) (b :: parts)

variable {fits}

namespace Greedy

theorem flatten {l : List α} {parts : List (List α)} (h : Greedy fits l parts) :
    parts.flatten = l := by
  induction h with
  | nil => rfl
  | cons _ _ _ ih => rw [List.flatten_cons, ih]

theorem fits_of_mem {l : List α} {parts : List (List α)} (h : Greedy fits l parts) :
    ∀ b ∈ parts, fits b := by
  induction h with
  | nil => simp
  | cons _ hlongest _ ih =>
    intro b hb
    rcases List.mem_cons.mp hb with rfl | hb
    · exact hlongest.2.1
    · exact ih b hb

/-- No list is cut in fewer pieces, not even a longer one that ends with it. -/
theorem minimal_of_suffix (hfits : ∀ l m, m <:+ l → fits l → fits m) {other : List (List α)}
    (hother : ∀ b ∈ other, fits b) {l : List α} {parts : List (List α)}
    (hl : l <:+ other.flatten) (h : Greedy fits l parts) : parts.length ≤ other.length := by
  induction other generalizing l parts with
  | nil =>
    have hnil : l = [] := List.suffix_nil.mp hl
    cases h with
    | nil => exact Nat.le_refl _
    | cons hb _ _ => exact absurd (List.append_eq_nil_iff.mp hnil).1 hb
  | cons o os ih =>
    have hos : ∀ b ∈ os, fits b := fun b hb => hother b (List.mem_cons_of_mem o hb)
    have hskip : ∀ {m : List α} {ps : List (List α)}, m <:+ os.flatten → Greedy fits m ps →
        ps.length ≤ os.length := fun hm hps => ih hos hm hps
    obtain ⟨before, heq⟩ := hl
    rw [List.flatten_cons] at heq
    rcases List.append_eq_append_iff.mp heq with ⟨piece, ho, hrest⟩ | ⟨gap, _, hrest⟩
    · -- `l` starts inside the first piece, and its first batch takes the rest of it
      cases h with
      | nil => exact Nat.zero_le _
      | @cons b rest ps hb hlongest hrestGreedy =>
        have hpiece : fits piece :=
          hfits o piece ⟨before, ho.symm⟩ (hother o List.mem_cons_self)
        have hprefix : piece <+: b :=
          hlongest.2.2 piece ⟨os.flatten, hrest.symm⟩ hpiece
        obtain ⟨more, rfl⟩ := hprefix
        rw [List.append_assoc, List.append_cancel_left_eq] at hrest
        exact Nat.succ_le_succ (hskip ⟨more, hrest⟩ hrestGreedy)
    · exact Nat.le_succ_of_le (hskip ⟨gap, hrest.symm⟩ h)

/-- No cutting into pieces that fit has fewer pieces. -/
theorem minimal (hfits : ∀ l m, m <:+ l → fits l → fits m) {l : List α}
    {parts other : List (List α)} (h : Greedy fits l parts) (hother : ∀ b ∈ other, fits b)
    (hflat : other.flatten = l) : parts.length ≤ other.length :=
  minimal_of_suffix hfits hother (hflat ▸ List.suffix_refl _) h

end Greedy
end Greedy

/-! ## One key and a capacity -/

def total (weight : α → Nat) : List α → Nat
  | [] => 0
  | a :: l => weight a + total weight l

theorem total_append (weight : α → Nat) (l m : List α) :
    total weight (l ++ m) = total weight l + total weight m := by
  induction l with
  | nil => rw [List.nil_append, total, Nat.zero_add]
  | cons a l ih =>
    rw [List.cons_append, total, total, ih]
    omega

/-- The longest start whose entries meet `p` and whose weights fit into `room`. -/
def take (p : α → Bool) (weight : α → Nat) : Nat → List α → List α
  | _, [] => []
  | room, a :: l =>
    if p a = true ∧ weight a ≤ room then a :: take p weight (room - weight a) l else []

section Take

variable {p : α → Bool} {weight : α → Nat} {room : Nat} {l m : List α} {a : α}

theorem take_prefix : take p weight room l <+: l := by
  induction l generalizing room with
  | nil => exact List.nil_prefix
  | cons a l ih =>
    rw [take]
    split
    · exact (List.prefix_cons_inj a).mpr ih
    · exact List.nil_prefix

theorem of_mem_take (h : a ∈ take p weight room l) : p a = true := by
  induction l generalizing room with
  | nil => simp [take] at h
  | cons b l ih =>
    rw [take] at h
    split at h
    · next hb =>
      rcases List.mem_cons.mp h with rfl | h
      · exact hb.1
      · exact ih h
    · simp at h

theorem total_take : total weight (take p weight room l) ≤ room := by
  induction l generalizing room with
  | nil => exact Nat.zero_le _
  | cons a l ih =>
    rw [take]
    split
    · next ha =>
      have hrest : total weight (take p weight (room - weight a) l) ≤ room - weight a := ih
      rw [total]
      omega
    · exact Nat.zero_le _

/-- Every start that would do is part of the one taken. -/
theorem prefix_take (hm : m <+: l) (hp : ∀ a ∈ m, p a = true) (hroom : total weight m ≤ room) :
    m <+: take p weight room l := by
  induction m generalizing l room with
  | nil => exact List.nil_prefix
  | cons a m ih =>
    obtain ⟨rest, rfl⟩ := hm
    rw [total] at hroom
    rw [List.cons_append, take, if_pos ⟨hp a List.mem_cons_self, by omega⟩]
    refine (List.prefix_cons_inj a).mpr (ih ⟨rest, rfl⟩ ?_ (by omega))
    exact fun b hb => hp b (List.mem_cons_of_mem a hb)

theorem take_ne_nil (hp : p a = true) (hroom : weight a ≤ room) :
    take p weight room (a :: l) ≠ [] := by
  rw [take, if_pos ⟨hp, hroom⟩]
  exact List.cons_ne_nil _ _

end Take

/-- What may stand in one batch. -/
def Fits (key : α → β) (weight : α → Nat) (cap : Nat) (l : List α) : Prop :=
  (∀ a ∈ l, ∀ b ∈ l, key a = key b) ∧ total weight l ≤ cap

section Fits

variable {key : α → β} {weight : α → Nat} {cap : Nat}

theorem Fits.suffix {l m : List α} (hm : m <:+ l) (h : Fits key weight cap l) :
    Fits key weight cap m := by
  obtain ⟨before, rfl⟩ := hm
  have hcap := h.2
  rw [total_append] at hcap
  refine ⟨fun a ha b hb => h.1 a ?_ b ?_, by omega⟩
  · exact List.mem_append_right before ha
  · exact List.mem_append_right before hb

variable [DecidableEq β]

/-- The entries like the first one, as far as they fit. -/
def first (key : α → β) (weight : α → Nat) (cap : Nat) : List α → List α
  | [] => []
  | a :: l => take (fun b => decide (key b = key a)) weight cap (a :: l)

theorem prefix_first (l : List α) : first key weight cap l <+: l := by
  cases l with
  | nil => exact List.nil_prefix
  | cons a l => exact take_prefix

theorem first_ne_nil {a : α} {l : List α} (h : weight a ≤ cap) :
    first key weight cap (a :: l) ≠ [] := by
  have hkey : decide (key a = key a) = true := decide_eq_true rfl
  exact take_ne_nil (p := fun b => decide (key b = key a)) hkey h

theorem fits_first (l : List α) : Fits key weight cap (first key weight cap l) := by
  cases l with
  | nil => exact ⟨by simp [first], Nat.zero_le _⟩
  | cons a l =>
    refine ⟨fun b hb b' hb' => ?_, total_take⟩
    have hkey : key b = key a := by simpa using of_mem_take hb
    have hkey' : key b' = key a := by simpa using of_mem_take hb'
    rw [hkey, hkey']

theorem longest_first (l : List α) :
    Longest (Fits key weight cap) (first key weight cap l) l := by
  refine ⟨prefix_first l, fits_first l, fun m hm hfits => ?_⟩
  cases m with
  | nil => exact List.nil_prefix
  | cons b m =>
    obtain ⟨rest, rfl⟩ := hm
    refine prefix_take ⟨rest, rfl⟩ (fun a ha => ?_) hfits.2
    exact decide_eq_true (hfits.1 a ha b List.mem_cons_self)

end Fits

end Batch
end AtomDrivers
