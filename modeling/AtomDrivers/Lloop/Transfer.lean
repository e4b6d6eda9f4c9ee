/-
The transfer of one batch of bios.

`do_bio_lustrebacked` goes through the bios from `head`, writes the page and the
offset of every segment into two arrays of `LLOOP_MAX_SEGMENTS` entries, and hands
these to the file.  A batch that `loop_get_bio` took fills the arrays without
reaching behind them, and what it hands over are the vectors of its bios one after the
other.

Offsets are counted in a `pgoff_t` of `w` bits, so that on a machine with 32 bits a
position from 4 GiB on comes out at another place of the file.
-/
import AtomDrivers.Lloop.Accounting
import Mathlib.Tactic.Ring

namespace AtomDrivers
namespace Lloop

/-- What stops `do_bio_lustrebacked`: a `BUG_ON`, an `LASSERT`, a write behind an
array. -/
inductive Fault
  | bug
  | lassert
  | beyond
  deriving DecidableEq, Repr

/-- `struct ll_dio_pages`. -/
structure Pvec (π : Type*) (w : Nat) where
  ldpPages : List π
  ldpOffsets : List (BitVec w)
  deriving DecidableEq, Repr

section Definitions

variable {π : Type*} {w : Nat} (pageCacheSize maxSegments : Nat) (loOffset : Int)

/-- The first `n` entries of the arrays. -/
def Pvec.entries (pvec : Pvec π w) (n : Nat) : List (π × BitVec w) :=
  (pvec.ldpPages.take n).zip (pvec.ldpOffsets.take n)

/-- The loop over the segments of one bio. -/
def fillSegments : List (BioVec π) → Pvec π w → Nat → BitVec w → Except Fault (Pvec π w × Nat)
  | [], pvec, pageCount, _ => .ok (pvec, pageCount)
  | bvec :: rest, pvec, pageCount, offset =>
    if bvec.bvOffset ≠ 0 ∨ bvec.bvLen ≠ pageCacheSize then .error .bug
    else if pageCount < pvec.ldpPages.length ∧ pageCount < pvec.ldpOffsets.length then
      fillSegments rest
        { ldpPages := pvec.ldpPages.set pageCount bvec.bvPage
          ldpOffsets := pvec.ldpOffsets.set pageCount offset }
        (pageCount + 1) (offset + BitVec.ofNat w bvec.bvLen)
    else .error .beyond

/-- Where a bio starts in the file. -/
def Bio.start (bio : Bio π w) : BitVec w :=
  BitVec.ofNat w (bio.biSector <<< 9) + BitVec.ofInt w loOffset

/-- The loop over the bios. -/
def fillBios (rw : BitVec w) : List (Bio π w) → Pvec π w → Nat → Except Fault (Pvec π w × Nat)
  | [], pvec, pageCount => .ok (pvec, pageCount)
  | bio :: rest, pvec, pageCount =>
    if asInt rw ≠ bio.biRw then .error .lassert
    else
      match fillSegments pageCacheSize bio.segments pvec pageCount (bio.start loOffset) with
      | .error e => .error e
      | .ok (pvec, pageCount) =>
        if maxSegments < pageCount then .error .lassert else fillBios rw rest pvec pageCount

/-- What `do_bio_lustrebacked` asks of the file: the direction and the vector that it
hands to `ll_direct_rw_pages`.  The arrays hold what earlier calls left in them. -/
def request (pvec : Pvec π w) : List (Bio π w) → Except Fault (BitVec w × List (π × BitVec w))
  | [] => .error .lassert
  | head :: rest =>
    match fillBios pageCacheSize maxSegments loOffset head.biRw (head :: rest) pvec 0 with
    | .error e => .error e
    | .ok (pvec, pageCount) => .ok (asInt head.biRw, pvec.entries pageCount)

/-- The pages of one bio, each with its offset. -/
def vectorFrom : BitVec w → List (BioVec π) → List (π × BitVec w)
  | _, [] => []
  | offset, bvec :: rest =>
    (bvec.bvPage, offset) :: vectorFrom (offset + BitVec.ofNat w bvec.bvLen) rest

def Bio.vector (bio : Bio π w) : List (π × BitVec w) :=
  vectorFrom (bio.start loOffset) bio.segments

/-- `do_bio_lustrebacked`, where `init` is the result of a `cl_io_init` that failed
and `bytes` what the file returns for its vector. -/
def doBioLustrebacked (init : Option Int) (bytes : BitVec w → List (π × BitVec w) → Int)
    (pvec : Pvec π w) (head : List (Bio π w)) : Except Fault Int :=
  match init with
  | some result => .ok result
  | none =>
    match request pageCacheSize maxSegments loOffset pvec head with
    | .error e => .error e
    | .ok (rw, vector) =>
      if bytes rw vector = vector.length * pageCacheSize then .ok 0 else .ok (bytes rw vector)

end Definitions

/-- A bio of whole pages, no more than it says. -/
structure Bio.WholePages {π : Type*} {w : Nat} (pageCacheSize : Nat) (bio : Bio π w) : Prop where
  pages : ∀ bvec ∈ bio.segments, bvec.bvOffset = 0 ∧ bvec.bvLen = pageCacheSize
  count : bio.segments.length ≤ bio.biVcnt

section Filling

variable {π : Type*} {w pageCacheSize maxSegments : Nat} {loOffset : Int} {pvec : Pvec π w}

theorem take_succ_set {α : Type*} {l : List α} {n : Nat} (h : n < l.length) (a : α) :
    (l.set n a).take (n + 1) = l.take n ++ [a] := by
  have hlength : (l.take n ++ [a]).length = n + 1 := by
    rw [List.length_append, List.length_take, List.length_singleton]
    omega
  rw [List.set_eq_take_append_cons_drop, if_pos h, List.append_cons, List.take_left' hlength]

/-- Room for `n` entries. -/
def Pvec.Room (pvec : Pvec π w) (n : Nat) : Prop :=
  n ≤ pvec.ldpPages.length ∧ n ≤ pvec.ldpOffsets.length

/-- The segments of a bio go behind the entries there are. -/
theorem fillSegments_eq {segments : List (BioVec π)} {pageCount : Nat} (offset : BitVec w)
    (hpages : ∀ bvec ∈ segments, bvec.bvOffset = 0 ∧ bvec.bvLen = pageCacheSize)
    (hroom : pvec.Room (pageCount + segments.length)) :
    ∃ pvec', fillSegments pageCacheSize segments pvec pageCount offset =
        .ok (pvec', pageCount + segments.length) ∧
      pvec'.entries (pageCount + segments.length) =
        pvec.entries pageCount ++ vectorFrom offset segments ∧
      ∀ n, pvec.Room n → pvec'.Room n := by
  induction segments generalizing pvec pageCount offset with
  | nil => exact ⟨pvec, rfl, by simp [vectorFrom], fun n hn => hn⟩
  | cons bvec rest ih =>
    obtain ⟨hoffset, hlen⟩ := hpages bvec List.mem_cons_self
    have hlt : pageCount < pvec.ldpPages.length ∧ pageCount < pvec.ldpOffsets.length := by
      rw [List.length_cons] at hroom
      exact ⟨by have := hroom.1; omega, by have := hroom.2; omega⟩
    have hcount : pageCount + 1 + rest.length = pageCount + (rest.length + 1) := by omega
    have hroom' : Pvec.Room { ldpPages := pvec.ldpPages.set pageCount bvec.bvPage
                              ldpOffsets := pvec.ldpOffsets.set pageCount offset }
        (pageCount + 1 + rest.length) := by
      rw [Pvec.Room, List.length_set, List.length_set, hcount]
      exact hroom
    obtain ⟨pvec', hfill, hentries, hkeep⟩ := ih
      (offset + BitVec.ofNat w bvec.bvLen)
      (fun b hb => hpages b (List.mem_cons_of_mem bvec hb)) hroom'
    rw [hcount] at hfill hentries
    refine ⟨pvec', ?_, ?_, fun n hn => hkeep n ?_⟩
    · rw [fillSegments, if_neg (by simp [hoffset, hlen]), if_pos hlt, List.length_cons]
      exact hfill
    · rw [List.length_cons, hentries, vectorFrom]
      simp only [Pvec.entries]
      rw [take_succ_set hlt.1, take_succ_set hlt.2, List.zip_append, List.append_assoc]
      · rfl
      · rw [List.length_take, List.length_take]
        omega
    · simpa [Pvec.Room] using hn

variable (loOffset) in
theorem fillBios_eq {rw : BitVec w} {bs : List (Bio π w)} (pageCount : Nat)
    (hrw : ∀ bio ∈ bs, bio.biRw = asInt rw) (hpages : ∀ bio ∈ bs, bio.WholePages pageCacheSize)
    (hfit : pageCount + Batch.total (fun bio => bio.segments.length) bs ≤ maxSegments)
    (hroom : pvec.Room maxSegments) :
    ∃ pvec' n, fillBios pageCacheSize maxSegments loOffset rw bs pvec pageCount = .ok (pvec', n) ∧
      pvec'.entries n = pvec.entries pageCount ++ bs.flatMap (Bio.vector loOffset) := by
  induction bs generalizing pvec pageCount with
  | nil => exact ⟨pvec, pageCount, rfl, by simp⟩
  | cons bio rest ih =>
    rw [Batch.total] at hfit
    have hsegments : pvec.Room (pageCount + bio.segments.length) :=
      ⟨by have := hroom.1; omega, by have := hroom.2; omega⟩
    obtain ⟨pvec', hfill, hentries, hkeep⟩ :=
      fillSegments_eq (bio.start loOffset) (hpages bio List.mem_cons_self).pages hsegments
    obtain ⟨pvec'', n, hrest, hall⟩ := ih (pageCount + bio.segments.length)
      (fun b hb => hrw b (List.mem_cons_of_mem bio hb))
      (fun b hb => hpages b (List.mem_cons_of_mem bio hb)) (by omega) (hkeep _ hroom)
    refine ⟨pvec'', n, ?_, ?_⟩
    · have hsame : ¬ asInt rw ≠ bio.biRw := fun hne =>
        hne (hrw bio List.mem_cons_self).symm
      have hle : ¬ maxSegments < pageCount + bio.segments.length := by omega
      rw [fillBios, if_neg hsame, hfill]
      simp only [if_neg hle]
      exact hrest
    · rw [hall, hentries, List.flatMap_cons, List.append_assoc]
      rfl

end Filling

/-! ## Batches -/

section Batches

variable {κ π : Type*} {w pageCacheSize maxSegments : Nat} {bios : κ → Bio π w} {loOffset : Int}
  {pvec : Pvec π w}

theorem total_segments_le (ks : List κ) (hpages : ∀ k, (bios k).WholePages pageCacheSize) :
    Batch.total (fun bio => bio.segments.length) (ks.map bios) ≤
      Batch.total (fun k => (bios k).biVcnt) ks := by
  induction ks with
  | nil => exact Nat.le_refl 0
  | cons k ks ih =>
    have hcount := (hpages k).count
    rw [List.map_cons, Batch.total, Batch.total]
    omega

/-- A batch is handed over as its bios one after the other, whatever the arrays held. -/
theorem request_batch (hbios : Submittable bios maxSegments)
    (hpages : ∀ k, (bios k).WholePages pageCacheSize) (hroom : pvec.Room maxSegments)
    {k : κ} {ks : List κ} (hfits : OneTransfer bios maxSegments (k :: ks)) :
    request pageCacheSize maxSegments loOffset pvec ((k :: ks).map bios) =
      .ok ((bios k).biRw, (k :: ks).flatMap fun j => (bios j).vector loOffset) := by
  have htotal := total_segments_le (k :: ks) hpages
  have hcap := hfits.2
  have hrw : ∀ bio ∈ (k :: ks).map bios, bio.biRw = asInt (bios k).biRw := by
    intro bio hbio
    obtain ⟨j, hj, rfl⟩ := List.mem_map.mp hbio
    rw [hbios.flags k]
    exact hfits.1 j hj k List.mem_cons_self
  obtain ⟨pvec', n, hfill, hentries⟩ := fillBios_eq loOffset 0 hrw
    (fun bio hbio => by
      obtain ⟨j, _, rfl⟩ := List.mem_map.mp hbio
      exact hpages j)
    (by omega) hroom
  rw [List.map_cons] at hfill hentries ⊢
  rw [request, hfill]
  simp only [hentries, hbios.flags k]
  rw [Pvec.entries, List.take_zero, List.zip_nil_left, List.nil_append, ← List.map_cons,
    List.flatMap_map]

/-- The bios of a batch end without an error exactly if the file moves all its pages,
or none of their bytes. -/
theorem doBioLustrebacked_batch (hbios : Submittable bios maxSegments)
    (hpages : ∀ k, (bios k).WholePages pageCacheSize) (hroom : pvec.Room maxSegments)
    {k : κ} {ks : List κ} (hfits : OneTransfer bios maxSegments (k :: ks))
    {bytes : BitVec w → List (π × BitVec w) → Int} {vector : List (π × BitVec w)}
    (hvector : vector = (k :: ks).flatMap fun j => (bios j).vector loOffset) :
    doBioLustrebacked pageCacheSize maxSegments loOffset none bytes pvec ((k :: ks).map bios) =
        .ok 0 ↔
      bytes (bios k).biRw vector = vector.length * pageCacheSize ∨
        bytes (bios k).biRw vector = 0 := by
  rw [doBioLustrebacked, request_batch hbios hpages hroom hfits, ← hvector]
  show (if bytes (bios k).biRw vector = vector.length * pageCacheSize then Except.ok 0
    else .ok (bytes (bios k).biRw vector)) = Except.ok 0 ↔ _
  by_cases hall : bytes (bios k).biRw vector = vector.length * pageCacheSize
  · simp [hall]
  · simp [hall]

end Batches

/-! ## Runs -/

/-- The batches given to `do_bio_lustrebacked` in the present life, each with whether
`cl_io_init` succeeded. -/
def transfers {κ : Type*} (os : List (Out κ)) : List (List κ × Bool) :=
  os.foldl (fun batches o =>
    match o with
    | .attached => []
    | .handled ks asks => batches ++ [(ks, asks)]
    | _ => batches) []

/-- The batches that got to the file. -/
def toFile {κ : Type*} (batches : List (List κ × Bool)) : List (List κ) :=
  (batches.filter Prod.snd).map Prod.fst

/-- The bios that were given to `do_bio_lustrebacked` and have not ended. -/
def Thread.underway {κ : Type*} : Thread (List κ) → List κ
  | .ending ks _ _ => ks
  | _ => []

/-- The bios that are to be given to it next. -/
def Thread.ready {κ : Type*} : Thread (List κ) → Option (List κ)
  | .fetched ks _ => some ks
  | .handling ks _ => some ks
  | _ => none

/-- Neither the start of a life, nor a transfer, nor an end. -/
def Out.Quiet {κ : Type*} : Out κ → Prop
  | .attached => False
  | .handled _ _ => False
  | .ended _ _ => False
  | _ => True

section Runs

variable {κ π : Type*} {w : Nat} [DecidableEq κ] {command : κ → Command} {bios : κ → Bio π w}
  {maxSegments : Nat} {t t' : Device κ (Queue κ) (List κ)} {os : List (Out κ)} {lf : Life κ}
  {o : Out κ} {a : Act κ}

omit [DecidableEq κ] in
variable (os) in
theorem transfers_quiet (ho : o.Quiet) : transfers (os ++ [o]) = transfers os ∧
    (life (os ++ [o])).ended = (life os).ended := by
  rw [transfers, List.foldl_append, life_snoc]
  cases o with
  | attached => exact ho.elim
  | handled ks asks => exact ho.elim
  | ended k ret => exact ho.elim
  | _ => exact ⟨rfl, rfl⟩

/-- What a step can do to the bios on their way through the thread. -/
theorem thread_step (hbios : Submittable bios maxSegments) (hacc : Accounted t lf)
    (hstep : (machine (listed bios maxSegments) command).step t a = some (t', o)) :
    (o.Quiet ∧ t'.thread.underway = t.thread.underway ∧
      (t'.thread.ready = none ∨ t'.thread.ready = t.thread.ready)) ∨
    (o.Quiet ∧ t'.thread.underway = [] ∧ t.thread.underway = [] ∧
      ∃ l, l ≠ [] ∧ t'.thread.ready = some (batch bios maxSegments l)) ∨
    (∃ ks asks, o = .handled ks asks ∧ t.thread.ready = some ks ∧ t.thread.underway = [] ∧
      t'.thread.underway = ks ∧ t'.thread.ready = none) ∨
    (∃ k ret, o = .ended k ret ∧ t.thread.underway = k :: t'.thread.underway ∧
      t'.thread.ready = none) ∨
    o = .attached ∧ t'.thread.underway = [] ∧ t'.thread.ready = none := by
  cases listedStep_of_step hbios hstep with
  | started envOk => cases envOk <;> exact Or.inl ⟨trivial, rfl, Or.inl rfl⟩
  | @fetched sh q hne => exact Or.inr (Or.inl ⟨trivial, rfl, rfl, q.bios, hne, rfl⟩)
  | @handled _ _ ks _ asks =>
    exact Or.inr (Or.inr (Or.inl ⟨ks, asks, rfl, rfl, rfl, rfl, rfl⟩))
  | @ended _ _ k _ _ ret => exact Or.inr (Or.inr (Or.inr (Or.inl ⟨k, ret, rfl, rfl, rfl⟩)))
  | bioCleared spawned hbefore =>
    obtain ⟨_, rfl, _⟩ := hacc.coupled.emptying (Or.inr hbefore)
    refine Or.inr (Or.inr (Or.inr (Or.inr ⟨rfl, ?_⟩)))
    cases spawned <;> exact ⟨rfl, rfl⟩
  | woken | foundNone | foundSome | exited | stayed | missed | crashed | settled =>
    exact Or.inl ⟨trivial, rfl, Or.inl rfl⟩
  | _ => exact Or.inl ⟨trivial, rfl, Or.inr rfl⟩

/-- A batch that can be given to `do_bio_lustrebacked`. -/
def Proper (bios : κ → Bio π w) (maxSegments : Nat) (ks : List κ) : Prop :=
  ks ≠ [] ∧ OneTransfer bios maxSegments ks

/-- The batches of this life are proper, and make up what ended and what is under
way. -/
structure Transferred (bios : κ → Bio π w) (maxSegments : Nat) (t : Device κ (Queue κ) (List κ))
    (os : List (Out κ)) : Prop where
  flat : ((transfers os).map Prod.fst).flatten = (life os).ended ++ t.thread.underway
  done : ∀ b ∈ transfers os, Proper bios maxSegments b.1
  ready : ∀ ks, t.thread.ready = some ks → Proper bios maxSegments ks

theorem transferred_step (hbios : Submittable bios maxSegments) (hacc : Accounted t (life os))
    (h : Transferred bios maxSegments t os)
    (hstep : (machine (listed bios maxSegments) command).step t a = some (t', o)) :
    Transferred bios maxSegments t' (os ++ [o]) := by
  rcases thread_step hbios hacc hstep with ⟨ho, hunderway, hready⟩ |
    ⟨ho, hunderway, hbefore, l, hl, hready⟩ | ⟨ks, asks, rfl, hready, hbefore, hunderway, hnone⟩ |
    ⟨k, ret, rfl, hunderway, hnone⟩ | ⟨rfl, hunderway, hnone⟩
  · obtain ⟨htransfers, hended⟩ := transfers_quiet os ho
    refine ⟨by rw [htransfers, hended, hunderway, h.flat], htransfers ▸ h.done, fun ks hks => ?_⟩
    rcases hready with hready | hready
    · rw [hready] at hks
      cases hks
    · exact h.ready ks (hready ▸ hks)
  · obtain ⟨htransfers, hended⟩ := transfers_quiet os ho
    refine ⟨by rw [htransfers, hended, hunderway, h.flat, hbefore], htransfers ▸ h.done,
      fun ks hks => ?_⟩
    rw [hready] at hks
    cases hks
    exact ⟨batch_ne_nil hbios hl, Batch.fits_first l⟩
  · have htransfers : transfers (os ++ [.handled ks asks]) = transfers os ++ [(ks, asks)] := by
      rw [transfers, List.foldl_append]
      rfl
    refine ⟨?_, fun b hb => ?_, fun b hb => ?_⟩
    · rw [htransfers, life_snoc, List.map_append, List.flatten_append, h.flat, hbefore, hunderway]
      simp [Life.after]
    · rw [htransfers] at hb
      rcases List.mem_append.mp hb with hb | hb
      · exact h.done b hb
      · rw [List.mem_singleton.mp hb]
        exact h.ready ks hready
    · rw [hnone] at hb
      cases hb
  · have htransfers : transfers (os ++ [.ended k ret]) = transfers os := by
      rw [transfers, List.foldl_append]
      rfl
    refine ⟨?_, htransfers ▸ h.done, fun b hb => ?_⟩
    · rw [htransfers, life_snoc, h.flat, hunderway]
      simp [Life.after]
    · rw [hnone] at hb
      cases hb
  · have htransfers : transfers (os ++ [.attached]) = [] := by
      rw [transfers, List.foldl_append]
      rfl
    refine ⟨?_, fun b hb => ?_, fun b hb => ?_⟩
    · rw [htransfers, life_snoc, hunderway]
      rfl
    · rw [htransfers] at hb
      cases hb
    · rw [hnone] at hb
      cases hb

theorem transferred_run (hbios : Submittable bios maxSegments) {as : List (Act κ)}
    (h : listedRun bios maxSegments command as = some (t, os)) :
    Transferred bios maxSegments t os := by
  have hJ := Machine.run_history
    (J := fun t _ os => Accounted t (life os) ∧ Transferred bios maxSegments t os)
    (fun _ _ os _ _ o hJ hstep => ⟨life_snoc os o ▸ accounted_step hbios hJ.1 hstep,
      transferred_step hbios hJ.1 hJ.2 hstep⟩)
    ⟨accounted_boot, rfl, by simp [transfers], by simp [bootListed, Thread.ready]⟩ h
  exact hJ.2

end Runs

/-- What the bios `ks` ask of the file, each page with its direction and offset. -/
def asked {κ π : Type*} {w : Nat} (bios : κ → Bio π w) (loOffset : Int) (ks : List κ) :
    List (BitVec w × π × BitVec w) :=
  ks.flatMap fun k => ((bios k).vector loOffset).map (Prod.mk (bios k).biRw)

theorem asked_toFile {κ π : Type*} {w : Nat} (bios : κ → Bio π w) (loOffset : Int)
    (batches : List (List κ × Bool)) :
    (toFile batches).flatMap (asked bios loOffset) =
      asked bios loOffset (((batches.flatMap fun b => b.1.map fun k => (k, b.2)).filter
        Prod.snd).map Prod.fst) := by
  induction batches with
  | nil => rfl
  | cons b batches ih =>
    obtain ⟨ks, asks⟩ := b
    have htail : toFile ((ks, asks) :: batches) =
        (if asks then [ks] else []) ++ toFile batches := by
      cases asks <;> rfl
    have hhead : (((ks.map fun k => (k, asks)).filter Prod.snd).map Prod.fst) =
        if asks then ks else [] := by
      cases asks <;> simp [List.filter_map, Function.comp_def]
    rw [htail, List.flatMap_append, ih, List.flatMap_cons, List.filter_append, List.map_append,
      hhead]
    cases asks with
    | true => simp [asked]
    | false => simp [asked]

theorem map_fst_marked {κ : Type*} (batches : List (List κ × Bool)) :
    (batches.flatMap fun b => b.1.map fun k => (k, b.2)).map Prod.fst =
      (batches.map Prod.fst).flatten := by
  induction batches with
  | nil => rfl
  | cons b batches ih =>
    rw [List.flatMap_cons, List.map_append, ih, List.map_map, List.map_cons, List.flatten_cons]
    simp [Function.comp_def]

section Linked

variable {κ π : Type*} {w : Nat} {command : κ → Command} {bios : κ → Bio π w}
  {maxSegments pageCacheSize : Nat} {os : List (Out κ)}

/-- The vector of a batch is what its bios ask for, one after the other. -/
theorem exists_request (hbios : Submittable bios maxSegments)
    (hpages : ∀ k, (bios k).WholePages pageCacheSize) {pvec : Pvec π w}
    (hroom : pvec.Room maxSegments) (loOffset : Int) {ks : List κ}
    (h : Proper bios maxSegments ks) :
    ∃ rw vector, request pageCacheSize maxSegments loOffset pvec (ks.map bios) = .ok (rw, vector) ∧
      vector.map (Prod.mk rw) = asked bios loOffset ks := by
  cases ks with
  | nil => exact absurd rfl h.1
  | cons k ks =>
    refine ⟨_, _, request_batch hbios hpages hroom h.2, ?_⟩
    rw [List.map_flatMap, asked]
    refine List.flatMap_congr fun j hj => ?_
    have hkey : (bios k).biRw = (bios j).biRw := h.2.1 k List.mem_cons_self j hj
    rw [hkey]

variable [DecidableEq κ] [Fintype κ]

end Linked

theorem twoBios_wholePages (k : Fin 2) : (twoBios k).WholePages 4096 where
  pages := by simp [twoBios]
  count := Nat.le_refl 1

section Positions

variable {π : Type*} {w pageCacheSize : Nat}

theorem vectorFrom_getElem? {segments : List (BioVec π)} (offset : BitVec w)
    (hpages : ∀ bvec ∈ segments, bvec.bvOffset = 0 ∧ bvec.bvLen = pageCacheSize) (i : Nat) :
    (vectorFrom offset segments)[i]? =
      segments[i]?.map fun bvec => (bvec.bvPage, offset + BitVec.ofNat w (i * pageCacheSize)) := by
  induction segments generalizing offset i with
  | nil => simp [vectorFrom]
  | cons bvec rest ih =>
    cases i with
    | zero => simp [vectorFrom]
    | succ i =>
      have hlen := (hpages bvec List.mem_cons_self).2
      rw [vectorFrom, List.getElem?_cons_succ, List.getElem?_cons_succ,
        ih _ (fun b hb => hpages b (List.mem_cons_of_mem bvec hb)), hlen]
      congr 1
      funext b
      rw [BitVec.add_assoc, ← BitVec.ofNat_add, Nat.add_mul, Nat.one_mul,
        Nat.add_comm pageCacheSize]

theorem start_add {bio : Bio π w} (loOffset n : Nat) :
    (bio.start loOffset + BitVec.ofNat w n).toNat =
      (bio.biSector * 512 + loOffset + n) % 2 ^ w := by
  have hstart : bio.start loOffset + BitVec.ofNat w n =
      BitVec.ofNat w (bio.biSector * 512 + loOffset + n) := by
    rw [Bio.start, BitVec.ofInt_natCast, ← BitVec.ofNat_add, ← BitVec.ofNat_add,
      Nat.shiftLeft_eq]
  rw [hstart, BitVec.toNat_ofNat]

/-- Each page of a bio goes to its place in the file exactly if the place of the last
one can be written in a `pgoff_t`. -/
theorem vector_positions_iff {bio : Bio π w} (hpages : bio.WholePages pageCacheSize)
    (hsegments : bio.segments ≠ []) (loOffset : Nat) :
    (∀ (i : Nat) (page : π) (x : BitVec w), (bio.vector loOffset)[i]? = some (page, x) →
      x.toNat = bio.biSector * 512 + loOffset + i * pageCacheSize) ↔
    bio.biSector * 512 + loOffset + (bio.segments.length - 1) * pageCacheSize < 2 ^ w := by
  have hpos : 0 < bio.segments.length := List.length_pos_iff.mpr hsegments
  constructor
  · intro hall
    have hlast : bio.segments.length - 1 < bio.segments.length := by omega
    have hget := vectorFrom_getElem? (bio.start loOffset) hpages.pages
      (bio.segments.length - 1)
    rw [List.getElem?_eq_getElem hlast] at hget
    have hplace := hall (bio.segments.length - 1) _ _ hget
    rw [start_add] at hplace
    rw [← hplace]
    exact Nat.mod_lt _ (Nat.two_pow_pos w)
  · intro hlt i page x hget
    rw [Bio.vector, vectorFrom_getElem? _ hpages.pages] at hget
    have hi : i < bio.segments.length := by
      by_contra hge
      rw [List.getElem?_eq_none (by omega)] at hget
      cases hget
    rw [List.getElem?_eq_getElem hi, Option.map_some, Option.some.injEq, Prod.mk.injEq] at hget
    have hle : i * pageCacheSize ≤ (bio.segments.length - 1) * pageCacheSize :=
      Nat.mul_le_mul_right pageCacheSize (by omega)
    rw [← hget.2, start_add, Nat.mod_eq_of_lt (by omega)]

/-- Of a device of `capacity` sectors, with pages of `n`, every page has its place
exactly if the place of the last one can be written in a `pgoff_t`. -/
theorem capacity_positions_iff (page : π) (n capacity : Nat) :
    (∀ bio : Bio π w, bio.WholePages (n * 512) → bio.segments ≠ [] →
      bio.biSector + bio.segments.length * n ≤ capacity →
      ∀ (i : Nat) (p : π) (x : BitVec w), (bio.vector 0)[i]? = some (p, x) →
        x.toNat = bio.biSector * 512 + i * (n * 512)) ↔
    capacity < n ∨ (capacity - n) * 512 < 2 ^ w := by
  constructor
  · intro hall
    by_cases hsmall : capacity < n
    · exact Or.inl hsmall
    · let last : Bio π w :=
        { biRw := 0
          biSector := capacity - n
          biVcnt := 1
          segments := [{ bvPage := page, bvOffset := 0, bvLen := n * 512 }] }
      have hwhole : last.WholePages (n * 512) := ⟨by simp [last], Nat.le_refl 1⟩
      have hne : last.segments ≠ [] := List.cons_ne_nil _ _
      have hinside : last.biSector + last.segments.length * n ≤ capacity := by
        change capacity - n + 1 * n ≤ capacity
        omega
      have hplaces := (vector_positions_iff hwhole hne 0).mp fun i p x hget => by
        rw [hall last hwhole hne hinside i p x hget, Nat.add_zero]
      right
      simpa [last] using hplaces
  · intro hfits bio hwhole hne hinside i p x hget
    have hpos : 0 < bio.segments.length := List.length_pos_iff.mpr hne
    have hle : n ≤ bio.segments.length * n := Nat.le_mul_of_pos_left n hpos
    have hlast : (bio.segments.length - 1) * n + n = bio.segments.length * n := by
      rw [← Nat.succ_mul]
      congr 1
      omega
    have hplace : bio.biSector * 512 + 0 + (bio.segments.length - 1) * (n * 512) < 2 ^ w := by
      have hsplit : (bio.segments.length - 1) * (n * 512) =
          (bio.segments.length - 1) * n * 512 := (Nat.mul_assoc _ _ _).symm
      have hcapacity : ¬ capacity < n := by omega
      have hroom := hfits.resolve_left hcapacity
      have hbefore : bio.biSector + (bio.segments.length - 1) * n ≤ capacity - n := by omega
      calc bio.biSector * 512 + 0 + (bio.segments.length - 1) * (n * 512)
          = (bio.biSector + (bio.segments.length - 1) * n) * 512 := by rw [hsplit]; ring
        _ ≤ (capacity - n) * 512 := Nat.mul_le_mul_right 512 hbefore
        _ < 2 ^ w := hroom
    have hall := (vector_positions_iff hwhole hne 0).mpr hplace i p x hget
    rwa [Nat.add_zero] at hall

end Positions

end Lloop
end AtomDrivers
