/-
The pending list of a lustre loop device.

The bios of a device hang together by their `bi_next`.  `loop_add_bio` links one
behind `lo_biotail`, and `loop_get_bio` walks from `lo_bio` with a pointer to the
link it looks at, takes the start of the list that goes the same way and fits into
one transfer, and cuts it off.  `loop_set_fd` empties the list by two stores without
the lock, first to `lo_biotail` and then to `lo_bio`.  What the device stands for is a
list with its tail, or a list without one, or a tail without a list (`Links.Holds`).

An `unsigned long` has `w` bits.  `loop_get_bio` keeps the flags of the first bio in
an `int`, so that they are compared after the way through 32 bits (`asInt`).
-/
import AtomDrivers.Storage.Chain
import AtomDrivers.Machine.Batch
import Mathlib.Data.Fintype.Card

namespace AtomDrivers
namespace Lloop

open Storage

/-- `struct bio_vec`. -/
structure BioVec (π : Type*) where
  bvPage : π
  bvOffset : Nat
  bvLen : Nat
  deriving DecidableEq, Repr

/-- `struct bio` without its link.  `segments` is what `bio_for_each_segment` goes
through. -/
structure Bio (π : Type*) (w : Nat) where
  biRw : BitVec w
  biSector : Nat
  biVcnt : Nat
  segments : List (BioVec π)
  deriving DecidableEq, Repr

/-- An `unsigned long` stored in an `int` and taken back. -/
def asInt {w : Nat} (x : BitVec w) : BitVec w := (x.setWidth 32).signExtend w

theorem asInt_of_width_32 (x : BitVec 32) : asInt x = x := by
  rw [asInt, BitVec.setWidth_eq, BitVec.signExtend_eq]

/-- `lo_bio`, `lo_biotail` and the `bi_next` of every bio. -/
structure Links (κ : Type*) where
  biNext : κ → Option κ
  loBio : Option κ
  loBiotail : Option κ

/-- A `struct bio **`: the place of a link. -/
inductive Slot (κ : Type*)
  | loBio
  | biNext (k : κ)
  deriving DecidableEq, Repr

/-- What `loop_get_bio` comes to: its first assertion fails, or it returns
`count` with `*req` set. -/
inductive Got (η : Type*)
  | lbug
  | got (req : η) (count : Nat)
  deriving DecidableEq, Repr

namespace Links

variable {κ π : Type*} {w : Nat}

def deref (lo : Links κ) : Slot κ → Option κ
  | .loBio => lo.loBio
  | .biNext k => lo.biNext k

/-- The loop of `loop_get_bio`, `none` where it goes round. -/
def walk (bios : κ → Bio π w) (maxSegments : Nat) (rw : BitVec w) (lo : Links κ) :
    Nat → Slot κ → Nat → Nat → Option (Slot κ × Nat)
  | 0, _, _, _ => none
  | fuel + 1, bio, pageCount, count =>
    match lo.deref bio with
    | none => some (bio, count)
    | some k =>
      if (bios k).biRw = rw then
        if maxSegments < pageCount + (bios k).biVcnt then some (bio, count)
        else
          walk bios maxSegments rw lo fuel (.biNext k) (pageCount + (bios k).biVcnt) (count + 1)
      else some (bio, count)

variable [DecidableEq κ]

def store (lo : Links κ) (v : Option κ) : Slot κ → Links κ
  | .loBio => { lo with loBio := v }
  | .biNext k => { lo with biNext := Function.update lo.biNext k v }

def loopAddBio (lo : Links κ) (bio : κ) : Links κ :=
  match lo.loBiotail with
  | some tail =>
    { lo with
      biNext := Function.update lo.biNext tail (some bio)
      loBiotail := some bio }
  | none => { lo with loBio := some bio, loBiotail := some bio }

variable [Fintype κ]

/-- More bios than there are cannot be passed without going round. -/
def loopGetBio (bios : κ → Bio π w) (maxSegments : Nat) (lo : Links κ) :
    Option (Links κ × Got (Option κ)) :=
  match lo.loBio with
  | none => some (lo, .got none 0)
  | some first =>
    if maxSegments < (bios first).biVcnt then some (lo, .lbug)
    else
      match walk bios maxSegments (asInt (bios first).biRw) lo (Fintype.card κ + 1) .loBio 0 0 with
      | none => none
      | some (bio, count) =>
        match lo.deref bio with
        | some rest =>
          some (({ lo with loBio := some rest } : Links κ).store none bio, .got (some first) count)
        | none =>
          some ({ lo with loBiotail := none, loBio := none }, .got (some first) count)

end Links

/-! ## Lists -/

section Lists

variable {κ π : Type*} {w : Nat}

/-- The bios at the front that go into one transfer. -/
def batch (bios : κ → Bio π w) (maxSegments : Nat) (l : List κ) : List κ :=
  Batch.first (fun k => (bios k).biRw) (fun k => (bios k).biVcnt) maxSegments l

/-- What may go into one transfer. -/
def OneTransfer (bios : κ → Bio π w) (maxSegments : Nat) : List κ → Prop :=
  Batch.Fits (fun k => (bios k).biRw) (fun k => (bios k).biVcnt) maxSegments

def listGet (bios : κ → Bio π w) (maxSegments : Nat) : List κ → List κ × Got (List κ)
  | [] => ([], .got [] 0)
  | first :: l =>
    if maxSegments < (bios first).biVcnt then (first :: l, .lbug)
    else
      let b := batch bios maxSegments (first :: l)
      ((first :: l).drop b.length, .got b b.length)

/-- What the block layer promises of the bios it submits: their flags survive the
`int` of `loop_get_bio`, which on 64 bits leaves no priority in them, and they keep to
`blk_queue_max_segments`. -/
structure Submittable (bios : κ → Bio π w) (maxSegments : Nat) : Prop where
  flags : ∀ k, asInt (bios k).biRw = (bios k).biRw
  segments : ∀ k, (bios k).biVcnt ≤ maxSegments

theorem Submittable.of_width_32 {bios : κ → Bio π 32} {maxSegments : Nat}
    (h : ∀ k, (bios k).biVcnt ≤ maxSegments) : Submittable bios maxSegments :=
  ⟨fun k => asInt_of_width_32 (bios k).biRw, h⟩

/-- Two bios of one page, on a machine with 32 bits. -/
def twoBios (k : Fin 2) : Bio Nat 32 where
  biRw := 0
  biSector := 8 * k
  biVcnt := 1
  segments := [{ bvPage := k, bvOffset := 0, bvLen := 4096 }]

section Batch

variable {bios : κ → Bio π w} {maxSegments : Nat}

variable (bios maxSegments) in
theorem prefix_batch (l : List κ) : batch bios maxSegments l <+: l := Batch.prefix_first l

theorem batch_ne_nil (hbios : Submittable bios maxSegments) {l : List κ} (hl : l ≠ []) :
    batch bios maxSegments l ≠ [] := by
  cases l with
  | nil => exact absurd rfl hl
  | cons k l => exact Batch.first_ne_nil (hbios.segments k)

variable (bios maxSegments) in
theorem batch_append_drop (l : List κ) :
    batch bios maxSegments l ++ l.drop (batch bios maxSegments l).length = l :=
  List.prefix_iff_eq_append.mp (prefix_batch bios maxSegments l)

/-- Of bios that the block layer submits, a list gives its first batch. -/
theorem listGet_eq (hbios : Submittable bios maxSegments) (l : List κ) :
    listGet bios maxSegments l =
      (l.drop (batch bios maxSegments l).length,
        .got (batch bios maxSegments l) (batch bios maxSegments l).length) := by
  cases l with
  | nil => rfl
  | cons first l => rw [listGet, if_neg (Nat.not_lt.mpr (hbios.segments first))]

end Batch
end Lists

/-! ## What the links stand for -/

/-- `lo_bio` with the bios behind it, and `lo_biotail`. -/
inductive Queue (κ : Type*)
  /-- `lo_biotail` is the last of the bios. -/
  | joined (l : List κ)
  /-- `lo_biotail` is NULL. -/
  | untailed (l : List κ)
  /-- `lo_bio` is NULL, and `lo_biotail` is not. -/
  | headless (tail : κ)
  deriving DecidableEq, Repr

namespace Queue

variable {κ : Type*}

/-- The bios from `lo_bio` on. -/
def bios : Queue κ → List κ
  | .joined l => l
  | .untailed l => l
  | .headless _ => []

/-- `lo_biotail` -/
def tail : Queue κ → Option κ
  | .joined l => l.getLast?
  | .untailed _ => none
  | .headless k => some k

def add (q : Queue κ) (k : κ) : Queue κ :=
  match q with
  | .joined l => .joined (l ++ [k])
  | .untailed _ => .joined [k]
  | .headless _ => .headless k

/-- Other bios from `lo_bio` on. -/
def withBios (q : Queue κ) (l : List κ) : Queue κ :=
  match q with
  | .joined _ => .joined l
  | .untailed _ => .untailed l
  | .headless k => .headless k

def clearTail (q : Queue κ) : Queue κ := .untailed q.bios

def clearBio (q : Queue κ) : Queue κ :=
  match q.tail with
  | none => .joined []
  | some k => .headless k

@[simp] theorem withBios_self (q : Queue κ) : q.withBios q.bios = q := by
  cases q <;> rfl

@[simp] theorem bios_clearBio (q : Queue κ) : q.clearBio.bios = [] := by
  rw [clearBio]
  cases q.tail <;> rfl

@[simp] theorem tail_clearBio (q : Queue κ) : q.clearBio.tail = q.tail := by
  rw [clearBio]
  cases q.tail <;> rfl

/-- Fewer bios from `lo_bio` on. -/
theorem bios_withBios_drop (q : Queue κ) (n : Nat) :
    (q.withBios (q.bios.drop n)).bios = q.bios.drop n := by
  cases q with
  | headless k => exact List.drop_nil.symm
  | _ => rfl

theorem tail_add (q : Queue κ) (k : κ) : (q.add k).tail = some k := by
  cases q with
  | joined l => exact List.getLast?_concat
  | _ => rfl

theorem mem_bios_add {q : Queue κ} {j k : κ} (h : j ∈ (q.add k).bios) : j = k ∨ j ∈ q.bios := by
  cases q with
  | joined l => exact (List.mem_append.mp h).symm.imp_left List.mem_singleton.mp
  | untailed l => exact Or.inl (List.mem_singleton.mp h)
  | headless tail => cases h

theorem nodup_bios_add {q : Queue κ} {k : κ} (h : q.bios.Nodup) (hk : k ∉ q.bios) :
    (q.add k).bios.Nodup := by
  cases q with
  | joined l => exact List.nodup_append.mpr ⟨h, List.nodup_singleton k, fun j hj i hi heq =>
      hk (List.mem_singleton.mp hi ▸ heq ▸ hj)⟩
  | untailed l => exact List.nodup_singleton k
  | headless tail => exact List.nodup_nil

/-- What is taken from `lo_bio` on leaves `lo_biotail`, or takes it along. -/
theorem tail_withBios_drop {q : Queue κ} {b l : List κ} {k : κ} (hsplit : b ++ l = q.bios)
    (hnodup : q.bios.Nodup) (htail : (q.withBios l).tail = some k) :
    q.tail = some k ∧ (k ∈ b → k ∉ q.bios) := by
  cases q with
  | joined l' =>
    have hlast : l.getLast? = some k := htail
    have hjoined : l' = b ++ l := hsplit.symm
    have hmem : k ∈ l := List.mem_of_getLast? hlast
    refine ⟨?_, fun hb => ?_⟩
    · rw [Queue.tail, hjoined, List.getLast?_append, hlast]
      rfl
    · rw [← hsplit] at hnodup
      exact absurd rfl ((List.nodup_append.mp hnodup).2.2 k hb k hmem)
  | untailed l' => cases htail
  | headless tail => exact ⟨htail, fun _ => List.not_mem_nil⟩

end Queue

namespace Links

variable {κ π : Type*} {w : Nat} {bios : κ → Bio π w} {maxSegments : Nat}

/-- The device stands for `q`. -/
structure Holds (lo : Links κ) (q : Queue κ) : Prop where
  chain : Chain lo.biNext lo.loBio q.bios none
  tail : lo.loBiotail = q.tail

namespace Holds

variable {lo : Links κ} {q : Queue κ}

theorem clearTail (h : lo.Holds q) : Holds { lo with loBiotail := none } q.clearTail :=
  ⟨h.chain, rfl⟩

theorem clearBio (h : lo.Holds q) : Holds { lo with loBio := none } q.clearBio :=
  ⟨by rw [q.bios_clearBio]; rfl, by rw [q.tail_clearBio]; exact h.tail⟩

variable [DecidableEq κ]

/-- A link of a bio that is not pending does not matter. -/
theorem update (h : lo.Holds q) {k : κ} (hk : k ∉ q.bios) (v : Option κ) :
    ({ lo with biNext := Function.update lo.biNext k v } : Links κ).Holds q :=
  ⟨(Chain.update_of_notMem hk).mpr h.chain, h.tail⟩

theorem loopAddBio (h : lo.Holds q) {bio : κ} (hbio : bio ∉ q.bios)
    (hlink : lo.biNext bio = none) : (lo.loopAddBio bio).Holds (q.add bio) := by
  cases q with
  | joined l =>
    rcases List.eq_nil_or_concat' l with rfl | ⟨before, last, rfl⟩
    · have htail : lo.loBiotail = none := h.tail
      rw [Links.loopAddBio, htail]
      exact ⟨⟨rfl, hlink⟩, rfl⟩
    · have htail : lo.loBiotail = some last := by rw [h.tail, Queue.tail, List.getLast?_concat]
      rw [Links.loopAddBio, htail]
      exact ⟨h.chain.snoc hbio hlink, by rw [Queue.add, Queue.tail, List.getLast?_concat]⟩
  | untailed l =>
    have htail : lo.loBiotail = none := h.tail
    rw [Links.loopAddBio, htail]
    exact ⟨⟨rfl, hlink⟩, rfl⟩
  | headless k =>
    have htail : lo.loBiotail = some k := h.tail
    rw [Links.loopAddBio, htail]
    exact ⟨h.chain, rfl⟩

end Holds

/-- Only the link of `lo_biotail` is written. -/
theorem loopAddBio_biNext [DecidableEq κ] {lo : Links κ} (bio : κ) {k : κ}
    (hk : lo.loBiotail ≠ some k) : (lo.loopAddBio bio).biNext k = lo.biNext k := by
  cases htail : lo.loBiotail with
  | none => rw [loopAddBio, htail]
  | some tail =>
    have hne : k ≠ tail := fun heq => hk (by rw [htail, heq])
    rw [loopAddBio, htail]
    exact Function.update_of_ne hne _ _

section Walk

/-- The place behind the bios `b`, when the walk came from `bio`. -/
def slotAfter (bio : Slot κ) (b : List κ) : Slot κ :=
  match b.getLast? with
  | none => bio
  | some k => .biNext k

variable (bios) in
/-- The walk goes behind the longest batch. -/
theorem walk_eq {lo : Links κ} (rw : BitVec w) {l : List κ} {fuel : Nat} (bio : Slot κ)
    {pageCount : Nat} (count : Nat) (hchain : Chain lo.biNext (lo.deref bio) l none)
    (hfuel : l.length < fuel) (hpages : pageCount ≤ maxSegments) :
    walk bios maxSegments rw lo fuel bio pageCount count =
      some (slotAfter bio (Batch.take (fun k => decide ((bios k).biRw = rw))
          (fun k => (bios k).biVcnt) (maxSegments - pageCount) l),
        count + (Batch.take (fun k => decide ((bios k).biRw = rw))
          (fun k => (bios k).biVcnt) (maxSegments - pageCount) l).length) := by
  induction l generalizing fuel bio pageCount count with
  | nil =>
    cases fuel with
    | zero => exact absurd hfuel (Nat.not_lt_zero _)
    | succ fuel =>
      have hend : lo.deref bio = none := hchain
      rw [walk, hend]
      rfl
  | cons k l ih =>
    cases fuel with
    | zero => exact absurd hfuel (Nat.not_lt_zero _)
    | succ fuel =>
      obtain ⟨hk, hrest⟩ := hchain
      rw [walk, hk, Batch.take]
      by_cases hrw : (bios k).biRw = rw
      · by_cases hfits : maxSegments < pageCount + (bios k).biVcnt
        · have hroom : ¬ (bios k).biVcnt ≤ maxSegments - pageCount := by omega
          simp only [if_pos hrw, if_pos hfits, hroom, and_false, if_false]
          rfl
        · have hroom : (bios k).biVcnt ≤ maxSegments - pageCount := by omega
          have hleft : maxSegments - pageCount - (bios k).biVcnt =
              maxSegments - (pageCount + (bios k).biVcnt) := by omega
          simp only [if_pos hrw, if_neg hfits, decide_eq_true hrw, hroom, and_self, if_true,
            hleft]
          rw [ih (.biNext k) (count + 1) hrest (by simpa using hfuel) (by omega)]
          refine congrArg some (Prod.ext ?_ ?_)
          · rw [slotAfter, slotAfter, List.getLast?_cons]
            cases hlast : List.getLast? (Batch.take (fun k => decide ((bios k).biRw = rw))
                (fun k => (bios k).biVcnt) (maxSegments - (pageCount + (bios k).biVcnt)) l) <;> rfl
          · simp only [List.length_cons]
            omega
      · simp only [if_neg hrw, decide_eq_false hrw, Bool.false_eq_true, false_and, if_false]
        rfl

end Walk

section Get

variable [DecidableEq κ] [Fintype κ] {lo : Links κ} {q : Queue κ}

/-- What is left of the links when the batch `b` was cut off from `lo_bio` on, and `req`
points to it. -/
structure CutOff (lo lo' : Links κ) (q : Queue κ) (b : List κ) (req : Option κ) : Prop where
  holds : lo'.Holds (q.withBios (q.bios.drop b.length))
  hand : Chain lo'.biNext req b none
  others : ∀ k, k ∉ b → lo'.biNext k = lo.biNext k

/-- The bios from `lo_bio` on come to an end, so that `loop_get_bio` comes back, with the
batch. -/
theorem loopGetBio_eq (hbios : Submittable bios maxSegments) (h : lo.Holds q) :
    ∃ lo' req,
      lo.loopGetBio bios maxSegments =
        some (lo', .got req (batch bios maxSegments q.bios).length) ∧
      CutOff lo lo' q (batch bios maxSegments q.bios) req := by
  have hchain := h.chain
  cases hl : q.bios with
  | nil =>
    rw [hl] at hchain
    have hnone : lo.loBio = none := hchain
    refine ⟨lo, none, by rw [loopGetBio, hnone]; rfl, ?_, rfl, fun k _ => rfl⟩
    rw [hl, List.drop_nil, ← hl, q.withBios_self]
    exact h
  | cons first l =>
    rw [hl] at hchain
    have hfirst : lo.loBio = some first := hchain.1
    have hlength : (first :: l).length < Fintype.card κ + 1 :=
      Nat.lt_succ_of_le hchain.nodup.length_le_card
    have hwalk := walk_eq bios (bios first).biRw .loBio 0 hchain hlength
      (Nat.zero_le maxSegments)
    rw [Nat.sub_zero, Nat.zero_add] at hwalk
    change walk bios maxSegments (bios first).biRw lo (Fintype.card κ + 1) .loBio 0 0 =
      some (slotAfter .loBio (batch bios maxSegments (first :: l)),
        (batch bios maxSegments (first :: l)).length) at hwalk
    have hprefix : batch bios maxSegments (first :: l) <+: first :: l := Batch.prefix_first _
    have hne : batch bios maxSegments (first :: l) ≠ [] :=
      Batch.first_ne_nil (hbios.segments first)
    generalize hb : batch bios maxSegments (first :: l) = b at *
    rcases List.eq_nil_or_concat' b with rfl | ⟨front, last, rfl⟩
    · exact absurd rfl hne
    obtain ⟨rest, hrest⟩ := hprefix
    have hdrop : q.bios.drop (front ++ [last]).length = rest := by
      rw [hl, ← hrest, List.drop_left]
    have hbiosrest : (q.withBios rest).bios = rest := hdrop ▸ q.bios_withBios_drop _
    have hslot : slotAfter Slot.loBio (front ++ [last]) = .biNext last := by
      rw [slotAfter, List.getLast?_concat]
    rw [hslot] at hwalk
    rw [loopGetBio, hfirst]
    simp only [if_neg (Nat.not_lt.mpr (hbios.segments first)), hbios.flags first, hwalk, deref]
    rw [← hrest, List.append_assoc, List.singleton_append] at hchain
    have hcut := hchain.cut
    obtain ⟨_, _, hlink⟩ := Chain.append_iff.mp hchain
    have hnext : lo.biNext last = rest.head? := hlink.2.first_eq
    cases rest with
    | nil =>
      have hend : lo.biNext last = none := hnext
      simp only [hend]
      refine ⟨_, _, rfl, ⟨?_, ?_⟩, ?_, fun k _ => rfl⟩
      · rw [hdrop, hbiosrest]
        rfl
      · rw [hdrop]
        cases q with
        | headless k => cases hl
        | _ => rfl
      · rw [← hfirst]
        exact hchain
    | cons r rest =>
      have hmore : lo.biNext last = some r := hnext
      simp only [hmore]
      refine ⟨_, _, rfl, ⟨?_, ?_⟩, ?_, fun k hk => ?_⟩
      · rw [hdrop, hbiosrest]
        exact hmore ▸ hcut.2
      · rw [hdrop]
        refine h.tail.trans ?_
        cases q with
        | joined l' =>
          have hjoined : l' = front ++ [last] ++ r :: rest := hl.trans hrest.symm
          rw [Queue.tail, Queue.withBios, Queue.tail, hjoined, List.getLast?_append,
            List.getLast?_cons]
          rfl
        | untailed l' => rfl
        | headless k => cases hl
      · rw [← hfirst]
        exact hcut.1
      · have hkne : k ≠ last := fun heq => hk (by simp [heq])
        exact Function.update_of_ne hkne _ _

end Get

end Links
end Lloop
end AtomDrivers
