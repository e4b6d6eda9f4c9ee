/-
Registers that are written field by field.

A slot is a field of a register, and two slots are apart when they have no bit in
common.  An update writes a value into a slot over the content that it has seen in the
register, and sends the whole content that comes out.  Whatever the registers do between
the updates, what was sent to each of them last holds all that was set in it, at every
moment, exactly when each update finds the other slots of its register as they were set.
-/
import AtomDrivers.Storage.Field

namespace AtomDrivers
namespace Storage

namespace Field

variable {w : Nat} (f : Field w)

/-- The value has no bit beyond the mask. -/
def Fits (val : BitVec w) : Prop := val &&& ~~~f.mask = 0#w

instance (val : BitVec w) : Decidable (f.Fits val) := inferInstanceAs (Decidable (_ = _))

variable {f} {val : BitVec w}

theorem Fits.and_mask (h : f.Fits val) : val &&& f.mask = val := by
  refine BitVec.eq_of_getLsbD_eq fun i hi => ?_
  have hbit := congrArg (fun b => b.getLsbD i) h
  simp only [BitVec.getLsbD_and, BitVec.getLsbD_not, hi, decide_true, Bool.true_and,
    BitVec.getLsbD_zero] at hbit
  rw [BitVec.getLsbD_and]
  cases hval : val.getLsbD i with
  | false => rfl
  | true =>
    rw [hval, Bool.true_and, Bool.not_eq_eq_eq_not, Bool.not_false] at hbit
    rw [hbit]
    rfl

theorem Fits.spill (h : f.Fits val) : f.spill val = 0#w := by
  have hmask := h.and_mask
  refine BitVec.eq_of_getLsbD_eq fun i hi => ?_
  rw [Field.spill, bits, ← hmask]
  simp only [BitVec.getLsbD_and, BitVec.getLsbD_not, BitVec.getLsbD_shiftLeft, hi, decide_true,
    Bool.true_and, BitVec.getLsbD_zero]
  cases hlt : decide (i < f.shift) with
  | true => rfl
  | false =>
    cases hbit : f.mask.getLsbD (i - f.shift) with
    | true => simp
    | false => simp

/-- A value that fits leaves the rest of the register alone. -/
theorem Fits.sameOutside (h : f.Fits val) (reg : BitVec w) : f.SameOutside (f.put reg val) reg := by
  rw [put_sameOutside_iff, h.spill]
  simp

theorem Fits.get_put (h : f.Fits val) (reg : BitVec w) : f.get (f.put reg val) = val := by
  rw [Field.get_put, h.and_mask]

/-- A field reads its own bits only. -/
theorem get_congr {reg reg' : BitVec w}
    (h : ∀ i < w, f.bits.getLsbD i = true → reg.getLsbD i = reg'.getLsbD i) :
    f.get reg = f.get reg' := by
  refine BitVec.eq_of_getLsbD_eq fun i hi => ?_
  simp only [get, BitVec.getLsbD_and, BitVec.getLsbD_ushiftRight]
  cases hmask : f.mask.getLsbD i with
  | false => simp
  | true =>
    have hlt : i + f.shift < w := f.shift_lt_of_mask hmask
    have hlt' : f.shift + i < w := by omega
    have hbits : f.bits.getLsbD (f.shift + i) = true := by
      have hge : ¬ f.shift + i < f.shift := by omega
      have hback : f.shift + i - f.shift = i := by omega
      simp [bits, hlt', hge, hback, hmask]
    rw [h (f.shift + i) hlt' hbits]

/-- A field that has no bit of another is read past it. -/
theorem Fits.get_put_of_apart {g : Field w} (h : f.Fits val) (hapart : g.bits &&& f.bits = 0#w)
    (reg : BitVec w) : g.get (f.put reg val) = g.get reg := by
  apply get_congr
  intro i hi hbits
  have hboth := congrArg (fun b => b.getLsbD i) hapart
  simp only [BitVec.getLsbD_and, hbits, Bool.true_and, BitVec.getLsbD_zero] at hboth
  exact (f.sameOutside_iff _ _).mp (h.sameOutside reg) i hi hboth

/-- The field read in the arithmetic of `int`. -/
theorem int_get (f : Field 8) (reg : BitVec 8) :
    (((reg.setWidth 32 &&& (f.mask.setWidth 32 <<< f.shift)).setWidth 8).setWidth 32 >>>
      f.shift).setWidth 8 = f.get reg := by
  apply BitVec.eq_of_getLsbD_eq
  intro i hi
  have hi' : i < 32 := by omega
  have hback : f.shift + i - f.shift = i := by omega
  have hge : ¬ f.shift + i < f.shift := by omega
  simp only [get, BitVec.getLsbD_setWidth, BitVec.getLsbD_and, BitVec.getLsbD_ushiftRight,
    BitVec.getLsbD_shiftLeft, hi, hi', hback, hge, decide_true, decide_false, Bool.true_and,
    Bool.not_false]
  cases hmask : f.mask.getLsbD i with
  | false => simp
  | true =>
    have hlt : i + f.shift < 8 := f.shift_lt_of_mask hmask
    have hlt' : f.shift + i < 8 := by omega
    have hlt'' : f.shift + i < 32 := by omega
    simp [hlt', hlt'']

/-- The whole register. -/
def byte : Field 8 where
  mask := 0xff
  shift := 0
  fits := by decide

theorem byte_fits (val : BitVec 8) : byte.Fits val := by
  simp [Fits, byte]

theorem byte_get (reg : BitVec 8) : byte.get reg = reg := by
  have hfits := (byte_fits reg).and_mask
  simpa [get, byte] using hfits

theorem byte_put (reg val : BitVec 8) : byte.put reg val = val := by
  rw [← byte_get (byte.put reg val), get_put, (byte_fits val).and_mask]

end Field

structure Slot (ρ : Type*) (w : Nat) where
  reg : ρ
  field : Field w

/-- No bit belongs to both. -/
def Slot.Apart {ρ : Type*} {w : Nat} (s t : Slot ρ w) : Prop :=
  s.reg = t.reg → s.field.bits &&& t.field.bits = 0#w

instance {ρ : Type*} {w : Nat} [DecidableEq ρ] (s t : Slot ρ w) : Decidable (s.Apart t) :=
  inferInstanceAs (Decidable (_ → _))

/-- A value for a slot, and what was seen in the register of the slot. -/
structure Update (ι : Type*) (w : Nat) where
  target : ι
  seen : BitVec w
  val : BitVec w

section Updates

variable {ρ ι : Type*} {w : Nat} [DecidableEq ρ] [DecidableEq ι]

/-- The last of these pairs that is for a given key. -/
def lastFor {κ β : Type*} [DecidableEq κ] (k : κ) (ps : List (κ × β)) : Option β :=
  (ps.reverse.find? fun p => p.1 = k).map Prod.snd

theorem lastFor_concat {κ β : Type*} [DecidableEq κ] (k : κ) (ps : List (κ × β)) (p : κ × β) :
    lastFor k (ps ++ [p]) = if p.1 = k then some p.2 else lastFor k ps := by
  by_cases h : p.1 = k
  · simp [lastFor, h]
  · simp [lastFor, h]

variable (slot : ι → Slot ρ w)

/-- What an update sends, and the register that it sends it to. -/
def Update.sent (u : Update ι w) : ρ × BitVec w :=
  ((slot u.target).reg, (slot u.target).field.put u.seen u.val)

def Update.set (u : Update ι w) : ι × BitVec w := (u.target, u.val)

/-- What was sent to a register last holds what was set in its slots last. -/
def Settled (us : List (Update ι w)) : Prop :=
  ∀ i val, lastFor i (us.map Update.set) = some val →
    ∃ b, lastFor (slot i).reg (us.map (Update.sent slot)) = some b ∧ (slot i).field.get b = val

/-- The update has seen in the other slots of its register what was set in them last. -/
def SeenAsSet (us : List (Update ι w)) (u : Update ι w) : Prop :=
  ∀ i, i ≠ u.target → (slot i).reg = (slot u.target).reg →
    ∀ val, lastFor i (us.map Update.set) = some val → (slot i).field.get u.seen = val

variable {slot} {us : List (Update ι w)}

theorem settled_concat_iff (hapart : ∀ i j, i ≠ j → (slot i).Apart (slot j)) {u : Update ι w}
    (hfits : (slot u.target).field.Fits u.val) (hus : Settled slot us) :
    Settled slot (us ++ [u]) ↔ SeenAsSet slot us u := by
  have hset : ∀ i, lastFor i ((us ++ [u]).map Update.set) =
      if u.target = i then some u.val else lastFor i (us.map Update.set) := fun i => by
    rw [List.map_append, List.map_singleton, lastFor_concat]
    rfl
  have hsent : ∀ i, lastFor (slot i).reg ((us ++ [u]).map (Update.sent slot)) =
      if (slot u.target).reg = (slot i).reg then some ((slot u.target).field.put u.seen u.val)
      else lastFor (slot i).reg (us.map (Update.sent slot)) := fun i => by
    rw [List.map_append, List.map_singleton, lastFor_concat]
    rfl
  have hpast : ∀ i, i ≠ u.target → (slot i).reg = (slot u.target).reg →
      (slot i).field.get ((slot u.target).field.put u.seen u.val) =
        (slot i).field.get u.seen := fun i hne hreg =>
    hfits.get_put_of_apart (hapart i u.target hne hreg) u.seen
  constructor
  · intro h i hne hreg val hval
    have hlast : lastFor i ((us ++ [u]).map Update.set) = some val := by
      rw [hset, if_neg (Ne.symm hne), hval]
    obtain ⟨b, hb, hget⟩ := h i val hlast
    rw [hsent, if_pos hreg.symm, Option.some.injEq] at hb
    rw [← hpast i hne hreg, hb, hget]
  · intro h i val hval
    rw [hset] at hval
    by_cases htarget : u.target = i
    · rw [if_pos htarget, Option.some.injEq] at hval
      subst htarget hval
      exact ⟨_, by rw [hsent, if_pos rfl], hfits.get_put u.seen⟩
    · rw [if_neg htarget] at hval
      by_cases hreg : (slot u.target).reg = (slot i).reg
      · refine ⟨_, by rw [hsent, if_pos hreg], ?_⟩
        rw [hpast i (Ne.symm htarget) hreg.symm]
        exact h i (Ne.symm htarget) hreg.symm val hval
      · obtain ⟨b, hb, hget⟩ := hus i val hval
        exact ⟨b, by rw [hsent, if_neg hreg, hb], hget⟩

/-- Over events of which some are updates, everything that was set stands at every moment
in what was sent last exactly when each update has seen the slots beside it as they were
set. -/
theorem settled_throughout_iff {α : Type*} (update : α → Option (Update ι w)) {as : List α}
    (hapart : ∀ i j, i ≠ j → (slot i).Apart (slot j))
    (hfits : ∀ a ∈ as, ∀ u, update a = some u → (slot u.target).field.Fits u.val) :
    (∀ before after, as = before ++ after → Settled slot (before.filterMap update)) ↔
      ∀ before a after, as = before ++ a :: after → ∀ u, update a = some u →
        SeenAsSet slot (before.filterMap update) u := by
  constructor
  · intro h before a after heq u hu
    have hmem : a ∈ as := by
      rw [heq]
      exact List.mem_append_right _ List.mem_cons_self
    have hnext := h (before ++ [a]) after (by rw [heq, List.append_assoc]; rfl)
    rw [List.filterMap_append, List.filterMap_cons_some hu, List.filterMap_nil] at hnext
    exact (settled_concat_iff hapart (hfits a hmem u hu) (h before _ heq)).mp hnext
  · intro h before
    induction before using List.reverseRecOn with
    | nil =>
      intro _ _ i val hval
      cases hval
    | append_singleton before a ih =>
      intro after heq
      have hsplit : as = before ++ a :: after := by rw [heq, List.append_assoc]; rfl
      have hbefore := ih (a :: after) hsplit
      have hmem : a ∈ as := by
        rw [hsplit]
        exact List.mem_append_right _ List.mem_cons_self
      rw [List.filterMap_append]
      cases hu : update a with
      | none =>
        rw [List.filterMap_cons_none hu, List.filterMap_nil, List.append_nil]
        exact hbefore
      | some u =>
        rw [List.filterMap_cons_some hu, List.filterMap_nil]
        exact (settled_concat_iff hapart (hfits a hmem u hu) hbefore).mpr
          (h before a after hsplit u hu)

end Updates

end Storage
end AtomDrivers
