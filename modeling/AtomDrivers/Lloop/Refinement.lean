/-
Linked bios stand for a queue.

The device on linked bios and the device on a `Queue` take the same actions and show
the same, whatever the interleaving.  What carries this is who owns which links: a
bio that is pending or in the hands of `loop_thread` is linked behind its
predecessor, the two chains share no bio, every other bio comes with no link, and
`lo_biotail` is a bio that is pending but not in hand, even if no link leads to it.
-/
import AtomDrivers.Lloop.Device
import AtomDrivers.Machine.Refine

namespace AtomDrivers
namespace Lloop

open Storage

/-- Threads at one place, with related values of `bio`. -/
inductive Thread.Rel {η θ : Type*} (r : η → θ → Prop) : Thread η → Thread θ → Prop
  | absent : Rel r .absent .absent
  | starting : Rel r .starting .starting
  | waiting : Rel r .waiting .waiting
  | active : Rel r .active .active
  | unpending : Rel r .unpending .unpending
  | fetching : Rel r .fetching .fetching
  | fetched {bio : η} {ks : θ} {n : Nat} (h : r bio ks) : Rel r (.fetched bio n) (.fetched ks n)
  | handling {bio : η} {ks : θ} {n : Nat} (h : r bio ks) : Rel r (.handling bio n) (.handling ks n)
  | ending {bio : η} {ks : θ} {n : Nat} {ret : Int} (h : r bio ks) :
    Rel r (.ending bio n ret) (.ending ks n ret)
  | crashed {bio : η} {ks : θ} {n : Nat} (h : r bio ks) : Rel r (.crashed bio n) (.crashed ks n)
  | locked : Rel r .locked .locked

/-- The bios that the thread holds. -/
def Thread.hand {κ : Type*} : Thread (List κ) → List κ
  | .fetched ks _ => ks
  | .handling ks _ => ks
  | .ending ks _ _ => ks
  | .crashed ks _ => ks
  | _ => []

theorem Thread.Rel.imp_hand {κ η : Type*} {r r' : η → List κ → Prop} {t : Thread η}
    {u : Thread (List κ)} (h : Thread.Rel r t u)
    (himp : ∀ bio, r bio u.hand → r' bio u.hand) : Thread.Rel r' t u := by
  cases h with
  | absent => exact .absent
  | starting => exact .starting
  | waiting => exact .waiting
  | active => exact .active
  | unpending => exact .unpending
  | fetching => exact .fetching
  | fetched h => exact .fetched (himp _ h)
  | handling h => exact .handling (himp _ h)
  | ending h => exact .ending (himp _ h)
  | crashed h => exact .crashed (himp _ h)
  | locked => exact .locked

theorem Thread.Rel.absent_iff {η θ : Type*} {r : η → θ → Prop} {t : Thread η} {u : Thread θ}
    (h : Thread.Rel r t u) : t = .absent ↔ u = .absent := by
  cases h <;> simp

theorem Thread.Rel.unpending_iff {η θ : Type*} {r : η → θ → Prop} {t : Thread η} {u : Thread θ}
    (h : Thread.Rel r t u) : t = .unpending ↔ u = .unpending := by
  cases h <;> simp

section Stands

variable {κ : Type*}

/-- `next` leads from `bio` through `ks`. -/
def Hand (next : κ → Option κ) (bio : Option κ) (ks : List κ) : Prop := Chain next bio ks none

theorem Hand.follow [Fintype κ] {next : κ → Option κ} {bio : Option κ} {ks : List κ}
    (h : Hand next bio ks) : Chain.follow next (Fintype.card κ) bio = some ks :=
  h.follow_eq h.nodup.length_le_card

/-- The bios from `lo_bio` on. -/
def Device.queued [Fintype κ] (s : Device κ (Links κ) (Option κ)) : Option (List κ) :=
  Chain.follow s.list.biNext (Fintype.card κ) s.list.loBio

/-- The bios from the thread's `bio` on. -/
def Device.inHand [Fintype κ] (s : Device κ (Links κ) (Option κ)) : Option (List κ) :=
  match s.thread with
  | .fetched bio _ => Chain.follow s.list.biNext (Fintype.card κ) bio
  | .handling bio _ => Chain.follow s.list.biNext (Fintype.card κ) bio
  | .ending bio _ _ => Chain.follow s.list.biNext (Fintype.card κ) bio
  | .crashed bio _ => Chain.follow s.list.biNext (Fintype.card κ) bio
  | _ => some []

/-- The device `s` on linked bios stands for the device `t` on a queue. -/
structure Stands (s : Device κ (Links κ) (Option κ)) (t : Device κ (Queue κ) (List κ)) : Prop where
  shared : s.shared = t.shared
  holds : s.list.Holds t.list
  thread : Thread.Rel (Hand s.list.biNext) s.thread t.thread
  nodup : (t.thread.hand ++ t.list.bios).Nodup
  pending : ∀ k ∈ t.thread.hand ++ t.list.bios, t.shared.phase k = .pending
  tail : ∀ k, t.list.tail = some k → t.shared.phase k = .pending ∧ k ∉ t.thread.hand
  links : ∀ k, t.shared.phase k ≠ .pending → s.list.biNext k = none

theorem stands_boot : Stands (bootLinked : Device κ (Links κ) (Option κ)) bootListed where
  shared := rfl
  holds := ⟨rfl, rfl⟩
  thread := .absent
  nodup := List.nodup_nil
  pending := by simp [bootListed, Thread.hand, Queue.bios]
  tail := by simp [bootListed, Queue.tail]
  links := fun _ _ => rfl

namespace Stands

variable {s : Device κ (Links κ) (Option κ)} {t : Device κ (Queue κ) (List κ)}

theorem notMem_list (h : Stands s t) {k : κ} (hk : t.shared.phase k ≠ .pending) : k ∉ t.list.bios :=
  fun hmem => hk (h.pending k (List.mem_append_right _ hmem))

theorem notMem_hand (h : Stands s t) {k : κ} (hk : t.shared.phase k ≠ .pending) :
    k ∉ t.thread.hand :=
  fun hmem => hk (h.pending k (List.mem_append_left _ hmem))

/-- `lo_biotail` is pending. -/
theorem loBiotail_ne (h : Stands s t) {k : κ} (hk : t.shared.phase k ≠ .pending) :
    s.list.loBiotail ≠ some k := fun htail =>
  hk (h.tail k (h.holds.tail.symm.trans htail)).1

/-- What does not change where a bio is. -/
theorem withShared (h : Stands s t) (sh : Shared κ) (hphase : sh.phase = t.shared.phase) :
    Stands { s with shared := sh } { t with shared := sh } where
  shared := rfl
  holds := h.holds
  thread := h.thread
  nodup := h.nodup
  pending := fun k hk => hphase ▸ h.pending k hk
  tail := fun k hk => hphase ▸ h.tail k hk
  links := fun k hk => h.links k (hphase ▸ hk)

/-- The thread goes to a place where it holds nothing, or holds what it held. -/
theorem withThread (h : Stands s t) {u : Thread (Option κ)} {v : Thread (List κ)}
    (hthread : Thread.Rel (Hand s.list.biNext) u v)
    (hhand : v.hand = [] ∨ v.hand = t.thread.hand) :
    Stands { s with thread := u } { t with thread := v } := by
  rcases hhand with hhand | hhand
  · refine ⟨h.shared, h.holds, hthread, ?_, fun k hk => ?_, fun k hk => ?_, h.links⟩
    · simp only [hhand]
      exact (List.nodup_append.mp h.nodup).2.1
    · simp only [hhand] at hk
      exact h.pending k (List.mem_append_right _ hk)
    · simp only [hhand]
      exact ⟨(h.tail k hk).1, List.not_mem_nil⟩
  · refine ⟨h.shared, h.holds, hthread, ?_, fun k hk => ?_, fun k hk => ?_, h.links⟩
    · simp only [hhand]
      exact h.nodup
    · simp only [hhand] at hk
      exact h.pending k hk
    · simp only [hhand]
      exact h.tail k hk

theorem queued_eq [Fintype κ] (h : Stands s t) : s.queued = some t.list.bios :=
  Hand.follow h.holds.chain

theorem inHand_eq [Fintype κ] (h : Stands s t) : s.inHand = some t.thread.hand := by
  obtain ⟨sh, lo, u⟩ := s
  obtain ⟨sh', q, v⟩ := t
  have hthread := h.thread
  cases hthread with
  | fetched hhand => exact hhand.follow
  | handling hhand => exact hhand.follow
  | ending hhand => exact hhand.follow
  | crashed hhand => exact hhand.follow
  | _ => rfl

section Phases

variable [DecidableEq κ]

/-- A bio that is not with the device goes from one place to another. -/
theorem setPhase (h : Stands s t) {k : κ} (hk : t.shared.phase k ≠ .pending) (p : Phase) :
    Stands { s with shared := s.shared.setPhase k p }
      { t with shared := t.shared.setPhase k p } where
  shared := by simp only [h.shared]
  holds := h.holds
  thread := h.thread
  nodup := h.nodup
  pending := fun j hj => by
    have hne : j ≠ k := fun heq => hk (heq ▸ h.pending j hj)
    exact (Function.update_of_ne hne _ _).trans (h.pending j hj)
  tail := fun j hj => by
    obtain ⟨hpending, hhand⟩ := h.tail j hj
    have hne : j ≠ k := fun heq => hk (heq ▸ hpending)
    exact ⟨(Function.update_of_ne hne _ _).trans hpending, hhand⟩
  links := fun j hj => by
    by_cases heq : j = k
    · rw [heq]
      exact h.links k hk
    · exact h.links j fun hpend => hj ((Function.update_of_ne heq _ _).trans hpend)

end Phases

end Stands
end Stands

section Steps

variable {κ π : Type*} {w : Nat} {command : κ → Command} {bios : κ → Bio π w} {maxSegments : Nat}
  {s : Device κ (Links κ) (Option κ)} {t : Device κ (Queue κ) (List κ)}

/-- Neither can, or both can, stand for one another and show the same. -/
abbrev Agree (x : Option (Device κ (Links κ) (Option κ) × Out κ))
    (y : Option (Device κ (Queue κ) (List κ) × Out κ)) : Prop :=
  Machine.Agree Stands id x y

theorem Stands.agree (h : Stands s t) (o : Out κ) : Agree (some (s, o)) (some (t, o)) :=
  .some ⟨h, rfl⟩

/-! ## Steps that leave the list alone -/

theorem agree_count (h : Stands s t) : Agree s.count t.count := by
  obtain ⟨sh, lo, u⟩ := s
  obtain ⟨sh', q, v⟩ := t
  obtain rfl : sh = sh' := h.shared
  simp only [Device.count]
  cases huncounted : sh.uncounted with
  | zero => exact .none
  | succ n => exact .some ⟨h.withShared _ rfl, rfl⟩

theorem agree_start (h : Stands s t) (envOk : Bool) : Agree (s.start envOk) (t.start envOk) := by
  obtain ⟨sh, lo, u⟩ := s
  obtain ⟨sh', q, v⟩ := t
  obtain rfl : sh = sh' := h.shared
  have hthread := h.thread
  cases hthread with
  | starting =>
    have hstarted : Stands ⟨sh, lo, if envOk then .waiting else .absent⟩
        ⟨sh, q, if envOk then .waiting else .absent⟩ := by
      cases envOk with
      | false => exact h.withThread .absent (Or.inl rfl)
      | true => exact h.withThread .waiting (Or.inl rfl)
    exact .some ⟨hstarted.withShared _ rfl, rfl⟩
  | _ => exact .none

theorem agree_wake (h : Stands s t) : Agree s.wake t.wake := by
  obtain ⟨sh, lo, u⟩ := s
  obtain ⟨sh', q, v⟩ := t
  obtain rfl : sh = sh' := h.shared
  have hthread := h.thread
  cases hthread with
  | waiting =>
    simp only [Device.wake]
    by_cases hactive : loopActive sh = true
    · rw [if_pos hactive, if_pos hactive]
      exact (h.withThread .active (Or.inl rfl)).agree _
    · rw [if_neg hactive, if_neg hactive]
      exact .none
  | _ => exact .none

theorem agree_readPending (h : Stands s t) : Agree s.readPending t.readPending := by
  obtain ⟨sh, lo, u⟩ := s
  obtain ⟨sh', q, v⟩ := t
  obtain rfl : sh = sh' := h.shared
  have hthread := h.thread
  cases hthread with
  | active =>
    simp only [Device.readPending]
    by_cases hzero : sh.loPending = 0
    · rw [if_pos hzero, if_pos hzero]
      exact (h.withThread .unpending (Or.inl rfl)).agree _
    · rw [if_neg hzero, if_neg hzero]
      exact (h.withThread .fetching (Or.inl rfl)).agree _
  | _ => exact .none

theorem agree_readState (h : Stands s t) : Agree s.readState t.readState := by
  obtain ⟨sh, lo, u⟩ := s
  obtain ⟨sh', q, v⟩ := t
  obtain rfl : sh = sh' := h.shared
  have hthread := h.thread
  cases hthread with
  | unpending =>
    simp only [Device.readState]
    by_cases hrundown : sh.loState = .rundown
    · rw [if_pos hrundown, if_pos hrundown]
      have hexit := h.withThread .absent (Or.inl rfl)
      exact (hexit.withShared { sh with loSem := sh.loSem + 1 } rfl).agree _
    · rw [if_neg hrundown, if_neg hrundown]
      exact (h.withThread .fetching (Or.inl rfl)).agree _
  | _ => exact .none

theorem agree_assertPending (h : Stands s t) : Agree s.assertPending t.assertPending := by
  obtain ⟨sh, lo, u⟩ := s
  obtain ⟨sh', q, v⟩ := t
  obtain rfl : sh = sh' := h.shared
  have hthread := h.thread
  cases hthread with
  | @fetched bio ks n hhand =>
    simp only [Device.assertPending]
    by_cases hle : (n : Int) ≤ sh.loPending
    · rw [if_pos hle, if_pos hle]
      exact (h.withThread (.handling hhand) (Or.inr rfl)).agree _
    · rw [if_neg hle, if_neg hle]
      exact (h.withThread (.crashed hhand) (Or.inr rfl)).agree _
  | _ => exact .none

theorem agree_setFd (h : Stands s t) (readOnly : Bool) :
    Agree (s.setFd readOnly) (t.setFd readOnly) := by
  obtain ⟨sh, lo, u⟩ := s
  obtain ⟨sh', q, v⟩ := t
  obtain rfl : sh = sh' := h.shared
  simp only [Device.setFd]
  cases hcontrol : sh.control with
  | free =>
    by_cases hunbound : sh.loState = .unbound
    · simp only [if_pos hunbound]
      exact .some ⟨h.withShared _ rfl, rfl⟩
    · simp only [if_neg hunbound]
      exact h.agree _
  | _ => exact .none

theorem agree_setFdDone (h : Stands s t) : Agree s.setFdDone t.setFdDone := by
  obtain ⟨sh, lo, u⟩ := s
  obtain ⟨sh', q, v⟩ := t
  obtain rfl : sh = sh' := h.shared
  simp only [Device.setFdDone]
  cases hcontrol : sh.control with
  | settingFd =>
    cases hsem : sh.loSem with
    | zero => exact .none
    | succ n => exact .some ⟨h.withShared _ rfl, rfl⟩
  | _ => exact .none

theorem agree_clrFd (h : Stands s t) : Agree s.clrFd t.clrFd := by
  obtain ⟨sh, lo, u⟩ := s
  obtain ⟨sh', q, v⟩ := t
  obtain rfl : sh = sh' := h.shared
  simp only [Device.clrFd]
  cases hcontrol : sh.control with
  | free =>
    by_cases hbound : sh.loState = .bound
    · simp only [if_pos hbound]
      exact .some ⟨h.withShared _ rfl, rfl⟩
    · simp only [if_neg hbound]
      exact h.agree _
  | _ => exact .none

theorem agree_clrFdDone (h : Stands s t) : Agree s.clrFdDone t.clrFdDone := by
  obtain ⟨sh, lo, u⟩ := s
  obtain ⟨sh', q, v⟩ := t
  obtain rfl : sh = sh' := h.shared
  simp only [Device.clrFdDone]
  cases hcontrol : sh.control with
  | clearingFd =>
    cases hsem : sh.loSem with
    | zero => exact .none
    | succ n => exact .some ⟨h.withShared _ rfl, rfl⟩
  | _ => exact .none

variable [DecidableEq κ]

theorem agree_check (h : Stands s t) (k : κ) : Agree (s.check k) (t.check k) := by
  obtain ⟨sh, lo, u⟩ := s
  obtain ⟨sh', q, v⟩ := t
  obtain rfl : sh = sh' := h.shared
  simp only [Device.check]
  by_cases hidle : sh.phase k = .idle
  · have hk : sh.phase k ≠ .pending := by simp [hidle]
    rw [if_pos hidle, if_pos hidle]
    by_cases hbound : sh.loState = .bound
    · rw [if_pos hbound, if_pos hbound]
      exact (h.setPhase hk .checked).agree _
    · rw [if_neg hbound, if_neg hbound]
      exact h.agree _
  · rw [if_neg hidle, if_neg hidle]
    exact .none

theorem agree_accept (h : Stands s t) (k : κ) :
    Agree (s.accept command k) (t.accept command k) := by
  obtain ⟨sh, lo, u⟩ := s
  obtain ⟨sh', q, v⟩ := t
  obtain rfl : sh = sh' := h.shared
  simp only [Device.accept]
  by_cases hchecked : sh.phase k = .checked
  · have hk : sh.phase k ≠ .pending := by simp [hchecked]
    rw [if_pos hchecked, if_pos hchecked]
    by_cases hrefused : refused (command k) sh.readOnly = true
    · rw [if_pos hrefused, if_pos hrefused]
      exact (h.setPhase hk .idle).agree _
    · rw [if_neg hrefused, if_neg hrefused]
      exact (h.setPhase hk .admitted).agree _
  · rw [if_neg hchecked, if_neg hchecked]
    exact .none

/-! ## Steps on the list -/

variable [Fintype κ]

theorem agree_insert (h : Stands s t) (k : κ) :
    Agree (s.insert (linked bios maxSegments) k) (t.insert (listed bios maxSegments) k) := by
  obtain ⟨sh, lo, u⟩ := s
  obtain ⟨sh', q, v⟩ := t
  obtain rfl : sh = sh' := h.shared
  simp only [Device.insert]
  by_cases hadmitted : sh.phase k = .admitted
  · have hk : sh.phase k ≠ .pending := by simp [hadmitted]
    have hqueue : k ∉ q.bios := h.notMem_list hk
    have hhand : k ∉ v.hand := h.notMem_hand hk
    have hpending : ∀ j, j = k ∨ sh.phase j = .pending →
        Function.update sh.phase k .pending j = .pending := fun j hj => by
      by_cases heq : j = k
      · rw [heq, Function.update_self]
      · rw [Function.update_of_ne heq]
        exact hj.resolve_left heq
    rw [if_pos hadmitted, if_pos hadmitted]
    refine .some ⟨⟨rfl, h.holds.loopAddBio hqueue (h.links k hk), ?_, ?_, ?_, ?_, ?_⟩, rfl⟩
    · -- the link that changes belongs to `lo_biotail`, which is not in hand
      refine h.thread.imp_hand fun bio hbio => (Chain.congr fun j hj => ?_).mpr hbio
      exact Links.loopAddBio_biNext k fun htail =>
        (h.tail j (h.holds.tail.symm.trans htail)).2 hj
    · refine List.nodup_append.mpr ⟨(List.nodup_append.mp h.nodup).1, ?_, fun j hj i hi => ?_⟩
      · exact q.nodup_bios_add (List.nodup_append.mp h.nodup).2.1 hqueue
      · rcases q.mem_bios_add hi with rfl | hi
        · exact fun heq => hhand (heq ▸ hj)
        · exact (List.nodup_append.mp h.nodup).2.2 j hj i hi
    · intro j hj
      refine hpending j ?_
      rcases List.mem_append.mp hj with hj | hj
      · exact Or.inr (h.pending j (List.mem_append_left _ hj))
      · exact (q.mem_bios_add hj).imp id fun hj => h.pending j (List.mem_append_right _ hj)
    · intro j hj
      have heq : j = k := (Option.some.inj ((q.tail_add k).symm.trans hj)).symm
      exact ⟨hpending j (Or.inl heq), heq ▸ hhand⟩
    · intro j hj
      have heq : j ≠ k := fun heq => hj (hpending j (Or.inl heq))
      have hold : sh.phase j ≠ .pending := fun hpend => hj (hpending j (Or.inr hpend))
      exact (Links.loopAddBio_biNext k (h.loBiotail_ne hold)).trans (h.links j hold)
  · rw [if_neg hadmitted, if_neg hadmitted]
    exact .none

theorem agree_fetch (hbios : Submittable bios maxSegments) (h : Stands s t) :
    Agree (s.fetch (linked bios maxSegments)) (t.fetch (listed bios maxSegments)) := by
  obtain ⟨sh, lo, u⟩ := s
  obtain ⟨sh', q, v⟩ := t
  obtain rfl : sh = sh' := h.shared
  have hthread := h.thread
  cases hthread with
  | fetching =>
    obtain ⟨lo', req, hget, hcut⟩ := Links.loopGetBio_eq hbios h.holds
    have hlist := listGet_eq hbios q.bios
    have hsplit := batch_append_drop bios maxSegments q.bios
    have hbios' := q.bios_withBios_drop (batch bios maxSegments q.bios).length
    simp only [Device.fetch, linked, listed, hget, hlist]
    generalize hb : batch bios maxSegments q.bios = b at *
    have hholds : lo'.Holds (q.withBios (q.bios.drop b.length)) := hcut.holds
    generalize hq : q.withBios (q.bios.drop b.length) = q' at *
    have hmem : ∀ k, k ∈ b ++ q'.bios ↔ k ∈ q.bios := fun k => by rw [hbios', hsplit]
    have hlinks : ∀ k, sh.phase k ≠ .pending → lo'.biNext k = none := fun k hk => by
      have hkb : k ∉ b := fun hmem' =>
        h.notMem_list hk ((hmem k).mp (List.mem_append_left _ hmem'))
      rw [hcut.others k hkb]
      exact h.links k hk
    have hnodup : (b ++ q'.bios).Nodup := by
      rw [hbios', hsplit]
      exact h.nodup
    have htail : ∀ k, q'.tail = some k → sh.phase k = .pending ∧ k ∉ b := fun k hk => by
      rw [← hq] at hk
      obtain ⟨hold, hkb⟩ := Queue.tail_withBios_drop hsplit h.nodup hk
      exact ⟨(h.tail k hold).1, fun hmem' =>
        hkb hmem' ((hmem k).mp (List.mem_append_left _ hmem'))⟩
    by_cases hzero : b.length = 0
    · rw [if_pos hzero, if_pos hzero]
      refine .some ⟨⟨rfl, hholds, .waiting, (List.nodup_append.mp hnodup).2.1, fun k hk => ?_,
        fun k hk => ⟨(htail k hk).1, List.not_mem_nil⟩, hlinks⟩, rfl⟩
      exact h.pending k ((hmem k).mp (List.mem_append_right _ hk))
    · rw [if_neg hzero, if_neg hzero]
      exact .some ⟨⟨rfl, hholds, .fetched hcut.hand, hnodup,
        fun k hk => h.pending k ((hmem k).mp hk), htail, hlinks⟩, rfl⟩
  | _ => exact .none

theorem agree_handle (h : Stands s t) (asks : Bool) (ret : Int) :
    Agree (s.handle (linked bios maxSegments) asks ret)
      (t.handle (listed bios maxSegments) asks ret) := by
  obtain ⟨sh, lo, u⟩ := s
  obtain ⟨sh', q, v⟩ := t
  obtain rfl : sh = sh' := h.shared
  have hthread := h.thread
  cases hthread with
  | @handling bio ks n hhand =>
    simp only [Device.handle, linked, listed, hhand.follow]
    exact (h.withThread (.ending hhand) (Or.inr rfl)).agree _
  | _ => exact .none

theorem agree_endio (h : Stands s t) :
    Agree (s.endio (linked bios maxSegments)) (t.endio (listed bios maxSegments)) := by
  obtain ⟨sh, lo, u⟩ := s
  obtain ⟨sh', q, v⟩ := t
  obtain rfl : sh = sh' := h.shared
  have hthread := h.thread
  cases hthread with
  | @ending bio ks n ret hhand =>
    cases ks with
    | nil =>
      obtain rfl : bio = none := hhand
      exact .none
    | cons k ks =>
      obtain ⟨rfl, hrest⟩ := hhand
      have hnodup : (k :: (ks ++ q.bios)).Nodup := h.nodup
      obtain ⟨hk, hnodup⟩ := List.nodup_cons.mp hnodup
      refine .some ⟨⟨rfl, ?_, .ending ?_, hnodup, fun j hj => ?_, fun j hj => ?_, fun j hj => ?_⟩,
        rfl⟩
      · exact h.holds.update (fun hl => hk (List.mem_append_right _ hl)) none
      · exact (Chain.update_of_notMem fun hks => hk (List.mem_append_left _ hks)).mpr hrest
      · have hne : j ≠ k := fun heq => hk (heq ▸ hj)
        exact (Function.update_of_ne hne _ _).trans (h.pending j (List.mem_cons_of_mem k hj))
      · obtain ⟨hpending, hhand⟩ := h.tail j hj
        have hne : j ≠ k := fun heq => hhand (heq ▸ List.mem_cons_self)
        exact ⟨(Function.update_of_ne hne _ _).trans hpending,
          fun hks => hhand (List.mem_cons_of_mem k hks)⟩
      · by_cases heq : j = k
        · rw [heq]
          exact Function.update_self k _ _
        · refine (Function.update_of_ne heq _ _).trans (h.links j fun hpend => hj ?_)
          exact (Function.update_of_ne heq _ _).trans hpend
  | _ => exact .none

theorem agree_settle (h : Stands s t) :
    Agree (s.settle (linked bios maxSegments)) (t.settle (listed bios maxSegments)) := by
  obtain ⟨sh, lo, u⟩ := s
  obtain ⟨sh', q, v⟩ := t
  obtain rfl : sh = sh' := h.shared
  have hthread := h.thread
  cases hthread with
  | @ending bio ks n ret hhand =>
    cases ks with
    | nil =>
      obtain rfl : bio = none := hhand
      have hwait := h.withThread .waiting (Or.inl rfl)
      exact (hwait.withShared { sh with loPending := sh.loPending - n } rfl).agree _
    | cons k ks =>
      obtain ⟨rfl, _⟩ := hhand
      exact .none
  | _ => exact .none

theorem agree_clearTail (h : Stands s t) :
    Agree (s.clearTail (linked bios maxSegments)) (t.clearTail (listed bios maxSegments)) := by
  obtain ⟨sh, lo, u⟩ := s
  obtain ⟨sh', q, v⟩ := t
  obtain rfl : sh = sh' := h.shared
  simp only [Device.clearTail]
  cases hcontrol : sh.control with
  | beforeTail =>
    exact .some ⟨⟨rfl, h.holds.clearTail, h.thread, h.nodup, h.pending,
      (fun k hk => by cases hk), h.links⟩, rfl⟩
  | _ => exact .none

theorem agree_clearBio (h : Stands s t) (spawned : Bool) :
    Agree (s.clearBio (linked bios maxSegments) spawned)
      (t.clearBio (listed bios maxSegments) spawned) := by
  obtain ⟨sh, lo, u⟩ := s
  obtain ⟨sh', q, v⟩ := t
  obtain rfl : sh = sh' := h.shared
  simp only [Device.clearBio]
  cases hcontrol : sh.control with
  | beforeBio =>
    have hnodup : (v.hand ++ q.clearBio.bios).Nodup := by
      rw [q.bios_clearBio, List.append_nil]
      exact (List.nodup_append.mp h.nodup).1
    have hpending : ∀ k ∈ v.hand ++ q.clearBio.bios, sh.phase k = .pending := fun k hk => by
      rw [q.bios_clearBio, List.append_nil] at hk
      exact h.pending k (List.mem_append_left _ hk)
    have hcleared : Stands ⟨sh, { lo with loBio := none }, u⟩ ⟨sh, q.clearBio, v⟩ :=
      ⟨rfl, h.holds.clearBio, h.thread, hnodup, hpending,
        fun k hk => h.tail k (q.tail_clearBio ▸ hk), h.links⟩
    cases spawned with
    | true =>
      have hspawned := hcleared.withThread (v := .starting) .starting (Or.inl rfl)
      exact .some ⟨hspawned.withShared { sh with control := .settingFd } rfl, rfl⟩
    | false => exact .some ⟨hcleared.withShared { sh with control := .settingFd } rfl, rfl⟩
  | _ => exact .none

/-! ## Runs -/

variable (command) in
theorem lockstep (hbios : Submittable bios maxSegments) :
    Machine.Lockstep (machine (linked bios maxSegments) command)
      (machine (listed bios maxSegments) command) (fun _ => True) id Stands id := by
  intro s t a h _
  cases a with
  | check k => exact agree_check h k
  | accept k => exact agree_accept h k
  | insert k => exact agree_insert h k
  | count => exact agree_count h
  | start envOk => exact agree_start h envOk
  | wake => exact agree_wake h
  | readPending => exact agree_readPending h
  | readState => exact agree_readState h
  | fetch => exact agree_fetch hbios h
  | assertPending => exact agree_assertPending h
  | handle asks ret => exact agree_handle h asks ret
  | endio => exact agree_endio h
  | settle => exact agree_settle h
  | setFd readOnly => exact agree_setFd h readOnly
  | clearTail => exact agree_clearTail h
  | clearBio spawned => exact agree_clearBio h spawned
  | setFdDone => exact agree_setFdDone h
  | clrFd => exact agree_clrFd h
  | clrFdDone => exact agree_clrFdDone h

/-- A run on linked bios is a run on a queue. -/
theorem exists_listed (hbios : Submittable bios maxSegments) {as : List (Act κ)}
    {s : Device κ (Links κ) (Option κ)} {os : List (Out κ)}
    (h : linkedRun bios maxSegments command as = some (s, os)) :
    ∃ t, listedRun bios maxSegments command as = some (t, os) ∧ Stands s t := by
  have hrel := (lockstep command hbios).run stands_boot fun a (_ : a ∈ as) => trivial
  rw [List.map_id] at hrel
  change Machine.Agree Stands (List.map id) (linkedRun bios maxSegments command as)
    (listedRun bios maxSegments command as) at hrel
  rw [h] at hrel
  cases hlisted : listedRun bios maxSegments command as with
  | none =>
    rw [hlisted] at hrel
    cases hrel
  | some q =>
    rw [hlisted] at hrel
    cases hrel with
    | some hq =>
      have hout : os.map id = q.2 := hq.2
      rw [List.map_id] at hout
      exact ⟨q.1, by rw [hout], hq.1⟩

/-- The linked device takes the actions that the device on a queue takes and shows the
same; the links lead through the queue and through the bios in hand, and `lo_biotail` is
the tail. -/
theorem linked_runs_as_listed (hbios : Submittable bios maxSegments) (as : List (Act κ)) :
    Option.Rel (fun p q => p.2 = q.2 ∧ p.1.shared = q.1.shared ∧ p.1.queued = some q.1.list.bios ∧
        p.1.list.loBiotail = q.1.list.tail ∧ p.1.inHand = some q.1.thread.hand)
      (linkedRun bios maxSegments command as) (listedRun bios maxSegments command as) := by
  have hrun := (lockstep command hbios).run stands_boot fun a (_ : a ∈ as) => trivial
  rw [List.map_id] at hrun
  refine Machine.rel_imp (fun p q h => ?_) hrun
  have hout : p.2 = q.2 := by rw [← h.2, List.map_id]
  exact ⟨hout, h.1.shared, h.1.queued_eq, h.1.holds.tail, h.1.inHand_eq⟩

theorem linked_runs_as_listed_two :
    Option.Rel (fun p q => p.2 = q.2 ∧ p.1.shared = q.1.shared ∧ p.1.queued = some q.1.list.bios ∧
        p.1.list.loBiotail = q.1.list.tail ∧ p.1.inHand = some q.1.thread.hand)
      (linkedRun twoBios 1 (fun _ => .read) lateInsert)
      (listedRun twoBios 1 (fun _ => .read) lateInsert) :=
  linked_runs_as_listed (Submittable.of_width_32 fun _ => Nat.le_refl 1) _

end Steps

end Lloop
end AtomDrivers
