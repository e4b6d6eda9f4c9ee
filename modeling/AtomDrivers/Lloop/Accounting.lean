/-
What becomes of the bios of a lustre loop device.

A life begins when `loop_set_fd` has emptied the list by its second store.  The outputs
of a run say which bios were inserted and ended in the present life, and which were
left behind in earlier ones (`Life`).  In every run the bios inserted in a life are
those that ended, those that the thread holds and those of the list, in this order,
unless one was inserted between the two stores the life began with: then `lo_bio` is
NULL behind `lo_biotail`, and no bio of this life is ever seen again.  `lo_pending` is
what it should be but for the submitters between their insertion and their `atomic_inc`
and for the bios left behind, which it counts for ever.

`Accounted` is the invariant.  Beside this accounting it says in which states the
thread can be: `lo_sem` and `lo_state` follow the holder of the mutex, and the thread
looks for a bio only while `lo_pending` is positive.
-/
import AtomDrivers.Lloop.Refinement

namespace AtomDrivers
namespace Lloop

/-! ## Lives -/

structure Life (κ : Type*) where
  /-- Inserted in earlier lives and never ended. -/
  stranded : List κ
  inserted : List κ
  ended : List κ
  /-- Between the two stores of `loop_set_fd`. -/
  clearing : Bool
  /-- A bio was inserted there when the life began, or has been now. -/
  late : Bool
  deriving DecidableEq, Repr

def Life.after {κ : Type*} (lf : Life κ) : Out κ → Life κ
  | .untailed => { lf with clearing := true, late := false }
  | .attached =>
    { lf with
      stranded := lf.stranded ++ lf.inserted.drop lf.ended.length
      inserted := []
      ended := []
      clearing := false }
  | .inserted k => { lf with inserted := lf.inserted ++ [k], late := lf.late || lf.clearing }
  | .ended k _ => { lf with ended := lf.ended ++ [k] }
  | _ => lf

def Life.first {κ : Type*} : Life κ where
  stranded := []
  inserted := []
  ended := []
  clearing := false
  late := false

/-- What the outputs say. -/
def life {κ : Type*} (os : List (Out κ)) : Life κ := os.foldl Life.after .first

theorem life_snoc {κ : Type*} (os : List (Out κ)) (o : Out κ) :
    life (os ++ [o]) = (life os).after o := by
  rw [life, List.foldl_append]
  rfl

/-- Where the bios of a life are. -/
inductive Kept {κ : Type*} : Life κ → List κ → Queue κ → Prop
  | whole {stranded ended hand l : List κ} :
    Kept ⟨stranded, ended ++ (hand ++ l), ended, false, false⟩ hand (.joined l)
  | lost {stranded inserted : List κ} (tail : κ) (hstranded : stranded ≠ []) :
    Kept ⟨stranded, inserted, [], false, true⟩ [] (.headless tail)
  | clearing {stranded ended rest l : List κ} :
    Kept ⟨stranded, ended ++ rest, ended, true, false⟩ [] (.untailed l)
  | late {stranded ended rest l : List κ} (hrest : rest ≠ []) (hl : l ≠ []) :
    Kept ⟨stranded, ended ++ rest, ended, true, true⟩ [] (.joined l)

section Kept

variable {κ : Type*} {lf : Life κ} {hand ks : List κ} {q : Queue κ}

theorem Kept.insert (h : Kept lf hand q) (k : κ) :
    Kept (lf.after (.inserted k)) hand (q.add k) := by
  cases h with
  | whole =>
    simp only [Life.after, Queue.add, List.append_assoc]
    exact .whole
  | lost tail hstranded => exact .lost k hstranded
  | clearing =>
    simp only [Life.after, Queue.add, List.append_assoc]
    exact .late (by simp) (List.cons_ne_nil _ _)
  | late hrest hl =>
    simp only [Life.after, Queue.add, List.append_assoc]
    exact .late (by simp) (by simp)

/-- Bios go from the queue into the hand. -/
theorem Kept.fetch (h : Kept lf [] q) (hlf : lf.clearing = false) {b l : List κ}
    (hsplit : b ++ l = q.bios) (hb : b ≠ []) : Kept lf b (q.withBios l) := by
  cases h with
  | whole =>
    have hjoined := hsplit.symm
    simp only [Queue.bios] at hjoined
    rw [hjoined, List.nil_append]
    exact .whole
  | lost tail hstranded => exact absurd (List.append_eq_nil_iff.mp hsplit).1 hb
  | clearing => cases hlf
  | late => cases hlf

/-- The first bio in hand ends. -/
theorem Kept.endio {k : κ} (h : Kept lf (k :: ks) q) (ret : Int) :
    Kept (lf.after (.ended k ret)) ks q := by
  generalize hhand : k :: ks = hand at h
  cases h with
  | whole =>
    subst hhand
    simp only [Life.after, List.cons_append]
    rw [List.append_cons]
    exact .whole
  | _ => cases hhand

theorem Kept.clearTail (h : Kept lf [] q) (hlf : lf.clearing = false) :
    Kept (lf.after .untailed) [] q.clearTail := by
  cases h with
  | whole => exact .clearing
  | lost => exact @Kept.clearing κ _ [] _ []
  | clearing => cases hlf
  | late => cases hlf

theorem Kept.clearBio (h : Kept lf [] q) (hlf : lf.clearing = true) :
    Kept (lf.after .attached) [] q.clearBio := by
  cases h with
  | whole => cases hlf
  | lost => cases hlf
  | clearing => exact @Kept.whole κ _ [] [] []
  | @late stranded ended rest l hrest hl =>
    obtain ⟨before, last, rfl⟩ := (List.eq_nil_or_concat' l).resolve_left hl
    simp only [Life.after, Queue.clearBio, Queue.tail, List.getLast?_concat, List.drop_left]
    exact .lost last fun hnil => hrest (List.append_eq_nil_iff.mp hnil).2

/-- The bios that have ended were inserted first. -/
theorem Kept.ended_prefix (h : Kept lf hand q) : lf.ended ++ hand <+: lf.inserted := by
  cases h with
  | whole =>
    rw [← List.append_assoc]
    exact List.prefix_append _ _
  | lost tail hstranded => exact List.nil_prefix
  | clearing =>
    rw [List.append_nil]
    exact List.prefix_append _ _
  | late =>
    rw [List.append_nil]
    exact List.prefix_append _ _

theorem Kept.all_there (h : Kept lf hand q) (hlf : lf.clearing = false)
    (hlate : lf.late = false) : lf.inserted = lf.ended ++ (hand ++ q.bios) := by
  cases h with
  | whole => rfl
  | lost => cases hlate
  | clearing => cases hlf
  | late => cases hlf

theorem Kept.all_lost (h : Kept lf hand q) (hlf : lf.clearing = false) (hlate : lf.late = true) :
    lf.ended = [] ∧ hand = [] ∧ q.bios = [] ∧ lf.stranded ≠ [] := by
  cases h with
  | whole => cases hlate
  | lost tail hstranded => exact ⟨rfl, rfl, rfl, hstranded⟩
  | clearing => cases hlf
  | late => cases hlf

end Kept

/-- How many bios the thread has still to subtract from `lo_pending`. -/
def Thread.held {η : Type*} : Thread η → Nat
  | .fetched _ n => n
  | .handling _ n => n
  | .ending _ n _ => n
  | .crashed _ n => n
  | _ => 0

/-- What the holder of the mutex, `lo_state`, `lo_sem` and the thread have to do with
each other. -/
def Coupled {κ η : Type*} (sh : Shared κ) (v : Thread η) : Prop :=
  match sh.control, sh.loState with
  | .free, .unbound => v = .absent ∧ sh.loSem = 0
  | .free, .bound => v ≠ .starting ∧ sh.loSem = 0
  | .beforeTail, .unbound => v = .absent ∧ sh.loSem = 0
  | .beforeBio, .unbound => v = .absent ∧ sh.loSem = 0
  | .settingFd, .unbound => (v = .starting ∨ v = .absent) ∧ sh.loSem = 0
  | .settingFd, .bound => v ≠ .starting ∧ sh.loSem = 1
  | .clearingFd, .rundown => v ≠ .starting ∧ (sh.loSem = 0 ∨ sh.loSem = 1 ∧ v = .absent)
  | _, _ => False

/-- What the thread relies on where it is. -/
def Thread.Relies {κ : Type*} (sh : Shared κ) : Thread (List κ) → Prop
  | .active => 0 < sh.loPending ∨ sh.loState = .rundown
  | .unpending => sh.loState = .rundown
  | .fetching => 0 < sh.loPending
  | .fetched ks n => n = ks.length ∧ 0 < n
  | .handling ks n => n = ks.length ∧ (n : Int) ≤ sh.loPending
  | .ending _ n _ => (n : Int) ≤ sh.loPending
  | _ => True

/-- `lf` is what the outputs say. -/
structure Accounted {κ : Type*} (t : Device κ (Queue κ) (List κ)) (lf : Life κ) : Prop where
  coupled : Coupled t.shared t.thread
  relies : t.thread.Relies t.shared
  nonneg : 0 ≤ t.shared.loPending
  kept : Kept lf t.thread.hand t.list
  clearing : lf.clearing = true ↔ t.shared.control = .beforeBio
  balance : t.shared.loPending + t.shared.uncounted + lf.ended.length + t.thread.hand.length =
    lf.inserted.length + t.thread.held + lf.stranded.length

theorem accounted_boot {κ : Type*} :
    Accounted (bootListed : Device κ (Queue κ) (List κ)) .first where
  coupled := ⟨rfl, rfl⟩
  relies := trivial
  nonneg := Int.le_refl 0
  kept := @Kept.whole κ [] [] [] []
  clearing := by simp [Life.first, bootListed, Shared.boot]
  balance := rfl

section Moves

variable {κ η : Type*} {sh sh' : Shared κ} {v u : Thread η}

/-- A thread that runs may go anywhere but to its start. -/
theorem Coupled.move (h : Coupled sh v) (hv : v ≠ .absent) (hv' : v ≠ .starting)
    (hu : u ≠ .starting) : Coupled sh u := by
  unfold Coupled at h ⊢
  split at h
  · exact absurd h.1 hv
  · exact ⟨hu, h.2⟩
  · exact absurd h.1 hv
  · exact absurd h.1 hv
  · exact (h.1.elim hv' hv).elim
  · exact ⟨hu, h.2⟩
  · exact ⟨hu, h.2.imp_right fun hsem => absurd hsem.2 hv⟩
  · exact h.elim

theorem Coupled.starting (h : Coupled sh (.starting : Thread η)) :
    sh.control = .settingFd ∧ sh.loState = .unbound ∧ sh.loSem = 0 := by
  unfold Coupled at h
  split at h
  · cases h.1
  · exact absurd rfl h.1
  · cases h.1
  · cases h.1
  · next hcontrol hstate => exact ⟨hcontrol, hstate, h.2⟩
  · exact absurd rfl h.1
  · exact absurd rfl h.1
  · exact h.elim

theorem Coupled.rundown (h : Coupled sh v) (hstate : sh.loState = .rundown) :
    sh.control = .clearingFd ∧ v ≠ .starting ∧ (sh.loSem = 0 ∨ sh.loSem = 1 ∧ v = .absent) := by
  unfold Coupled at h
  rw [hstate] at h
  cases hcontrol : sh.control with
  | clearingFd =>
    rw [hcontrol] at h
    exact ⟨rfl, h⟩
  | _ => rw [hcontrol] at h; exact h.elim

/-- A detach waits only while the device goes down. -/
theorem Coupled.clearingFd (h : Coupled sh v) (hcontrol : sh.control = .clearingFd) :
    sh.loState = .rundown := by
  unfold Coupled at h
  rw [hcontrol] at h
  cases hstate : sh.loState with
  | rundown => rfl
  | _ => rw [hstate] at h; exact h.elim

/-- The list is emptied while there is no thread. -/
theorem Coupled.emptying (h : Coupled sh v)
    (hcontrol : sh.control = .beforeTail ∨ sh.control = .beforeBio) :
    sh.loState = .unbound ∧ v = .absent ∧ sh.loSem = 0 := by
  unfold Coupled at h
  cases hstate : sh.loState with
  | unbound =>
    rw [hstate] at h
    rcases hcontrol with hcontrol | hcontrol
    · rw [hcontrol] at h
      exact ⟨rfl, h⟩
    · rw [hcontrol] at h
      exact ⟨rfl, h⟩
  | _ =>
    rw [hstate] at h
    rcases hcontrol with hcontrol | hcontrol
    · rw [hcontrol] at h
      exact h.elim
    · rw [hcontrol] at h
      exact h.elim

theorem Coupled.congr (hcontrol : sh'.control = sh.control) (hstate : sh'.loState = sh.loState)
    (hsem : sh'.loSem = sh.loSem) : Coupled sh' v ↔ Coupled sh v := by
  unfold Coupled
  rw [hcontrol, hstate, hsem]

end Moves

section Steps

variable {κ : Type*} {sh sh' : Shared κ} {q : Queue κ} {v u : Thread (List κ)} {lf lf' : Life κ}

theorem Thread.Relies.mono (h : v.Relies sh) (hpending : sh.loPending ≤ sh'.loPending)
    (hstate : sh.loState = .rundown → sh'.loState = .rundown) : v.Relies sh' := by
  cases v with
  | active => exact h.imp (fun hpos => by omega) hstate
  | unpending => exact hstate h
  | fetching => exact Int.lt_of_lt_of_le h hpending
  | handling ks n => exact ⟨h.1, h.2.trans hpending⟩
  | ending ks n ret => exact Int.le_trans h hpending
  | _ => exact h

namespace Accounted

/-- A thread that runs does so while the list is not being emptied. -/
theorem not_clearing (h : Accounted ⟨sh, q, v⟩ lf) (hv : v ≠ .absent) : lf.clearing = false := by
  rw [← Bool.not_eq_true, h.clearing]
  exact fun hcontrol => hv (h.coupled.emptying (Or.inr hcontrol)).2.1

/-- The thread moves with what it holds. -/
theorem move (h : Accounted ⟨sh, q, v⟩ lf) (hv : v ≠ .absent) (hv' : v ≠ .starting)
    (hu : u ≠ .starting) (hhand : u.hand = v.hand) (hheld : u.held = v.held)
    (hrelies : u.Relies sh) : Accounted ⟨sh, q, u⟩ lf where
  coupled := h.coupled.move hv hv' hu
  relies := hrelies
  nonneg := h.nonneg
  kept := hhand ▸ h.kept
  clearing := h.clearing
  balance := by
    rw [hheld, hhand]
    exact h.balance

/-- The shared data change, but for what is counted. -/
theorem withShared (h : Accounted ⟨sh, q, v⟩ lf) (hcoupled : Coupled sh' v)
    (hrelies : v.Relies sh') (hnonneg : 0 ≤ sh'.loPending)
    (hcontrol : sh'.control = .beforeBio ↔ sh.control = .beforeBio)
    (hbalance : sh'.loPending + sh'.uncounted = sh.loPending + sh.uncounted) :
    Accounted ⟨sh', q, v⟩ lf where
  coupled := hcoupled
  relies := hrelies
  nonneg := hnonneg
  kept := h.kept
  clearing := h.clearing.trans hcontrol.symm
  balance := by
    have hbefore := h.balance
    simp only at hbefore hbalance ⊢
    omega

/-- Nothing changes but where bios are that are not with the device. -/
theorem withPhase (h : Accounted ⟨sh, q, v⟩ lf) (phase : κ → Phase) :
    Accounted ⟨{ sh with phase := phase }, q, v⟩ lf :=
  h.withShared ((Coupled.congr rfl rfl rfl).mpr h.coupled) (h.relies.mono (Int.le_refl _) id)
    h.nonneg Iff.rfl rfl

/-- In a life that began without a late insertion, `lo_pending` counts the list. -/
theorem queue_balance (h : Accounted ⟨sh, q, v⟩ lf) (hv : v ≠ .absent)
    (hlate : lf.late = false) :
    sh.loPending + sh.uncounted = q.bios.length + v.held + lf.stranded.length := by
  have hbalance := h.balance
  have hinserted := congrArg List.length (h.kept.all_there (h.not_clearing hv) hlate)
  simp only [List.length_append] at hbalance hinserted
  omega

/-- While the thread holds bios, the life has lost none. -/
theorem not_late (h : Accounted ⟨sh, q, v⟩ lf) (hv : v ≠ .absent) (hhand : v.hand ≠ []) :
    lf.late = false := by
  rw [← Bool.not_eq_true]
  exact fun hlate => hhand (h.kept.all_lost (h.not_clearing hv) hlate).2.1

/-- Where no life has left a bio behind, the list is as `loop_add_bio` made it. -/
theorem joined (h : Accounted ⟨sh, q, v⟩ lf) (hv : v ≠ .absent) (hstranded : lf.stranded = []) :
    lf.late = false ∧ ∃ l, q = .joined l := by
  have hclearing := h.not_clearing hv
  have hkept : Kept lf v.hand q := h.kept
  generalize v.hand = hand at hkept
  cases hkept with
  | whole => exact ⟨rfl, _, rfl⟩
  | lost tail hne => exact absurd hstranded hne
  | clearing => cases hclearing
  | late => cases hclearing

end Accounted

/-! ### Every step keeps the accounts -/

variable {π : Type*} {w : Nat} {command : κ → Command} {bios : κ → Bio π w} {maxSegments : Nat}
  {t t' : Device κ (Queue κ) (List κ)} {o : Out κ}

theorem accounted_insert [DecidableEq κ] (h : Accounted ⟨sh, q, v⟩ lf) (k : κ) :
    Accounted ⟨{ sh.setPhase k .pending with uncounted := sh.uncounted + 1 }, q.add k, v⟩
      (lf.after (.inserted k)) where
  coupled := (Coupled.congr rfl rfl rfl).mpr h.coupled
  relies := h.relies.mono (Int.le_refl _) id
  nonneg := h.nonneg
  kept := h.kept.insert k
  clearing := h.clearing
  balance := by
    have hbalance := h.balance
    simp only [Life.after, Shared.setPhase, List.length_append, List.length_singleton] at hbalance ⊢
    push_cast at hbalance ⊢
    omega

theorem accounted_count (h : Accounted ⟨sh, q, v⟩ lf) {n : Nat}
    (huncounted : sh.uncounted = n + 1) :
    Accounted ⟨{ sh with uncounted := n, loPending := sh.loPending + 1 }, q, v⟩ lf := by
  have hnonneg : 0 ≤ sh.loPending := h.nonneg
  refine h.withShared ((Coupled.congr rfl rfl rfl).mpr h.coupled)
    (h.relies.mono (Int.le_add_one (Int.le_refl _)) id) (Int.le_add_one hnonneg) Iff.rfl ?_
  simp only [huncounted]
  push_cast
  omega

theorem accounted_start (h : Accounted ⟨sh, q, .starting⟩ lf) (envOk : Bool) :
    Accounted ⟨{ sh with loState := .bound, loSem := sh.loSem + 1 }, q,
      if envOk then .waiting else .absent⟩ lf := by
  obtain ⟨hcontrol, _, hsem⟩ := h.coupled.starting
  have hcontrol' : sh.control = .settingFd := hcontrol
  have hsem' : sh.loSem = 0 := hsem
  have hkept : Kept lf [] q := h.kept
  have hbalance := h.balance
  refine ⟨?_, ?_, h.nonneg, ?_, h.clearing, ?_⟩
  · simp only [Coupled, hcontrol', hsem']
    cases envOk <;> simp
  · cases envOk <;> exact trivial
  · cases envOk <;> exact hkept
  · cases envOk <;> exact hbalance

theorem accounted_exit (h : Accounted ⟨sh, q, .unpending⟩ lf) :
    Accounted ⟨{ sh with loSem := sh.loSem + 1 }, q, .absent⟩ lf := by
  have hrundown : sh.loState = .rundown := h.relies
  have hcoupled : Coupled sh (.unpending : Thread (List κ)) := h.coupled
  have hcontrol := (hcoupled.rundown hrundown).1
  have hzero : sh.loSem = 0 :=
    (hcoupled.rundown hrundown).2.2.resolve_right fun hone => by cases hone.2
  refine ⟨?_, trivial, h.nonneg, h.kept, h.clearing, h.balance⟩
  simp [Coupled, hcontrol, hrundown, hzero]

theorem accounted_fetch (hbios : Submittable bios maxSegments) (h : Accounted ⟨sh, q, .fetching⟩ lf)
    (hne : q.bios ≠ []) :
    Accounted ⟨sh, q.withBios (q.bios.drop (batch bios maxSegments q.bios).length),
      .fetched (batch bios maxSegments q.bios) (batch bios maxSegments q.bios).length⟩ lf := by
  have hbatch := batch_ne_nil hbios hne
  have hkept : Kept lf [] q := h.kept
  have hbalance := h.balance
  refine ⟨h.coupled.move (by simp) (by simp) (by simp), ⟨rfl, List.length_pos_iff.mpr hbatch⟩,
    h.nonneg, hkept.fetch (h.not_clearing (by simp)) (batch_append_drop bios maxSegments q.bios)
      hbatch, h.clearing, ?_⟩
  simp only [Thread.hand, Thread.held, List.length_nil] at hbalance ⊢
  omega

theorem accounted_endio [DecidableEq κ] {k : κ} {ks : List κ} {n : Nat} {ret : Int}
    (h : Accounted ⟨sh, q, .ending (k :: ks) n ret⟩ lf) :
    Accounted ⟨sh.setPhase k .idle, q, .ending ks n ret⟩ (lf.after (.ended k ret)) where
  coupled := (Coupled.congr rfl rfl rfl).mpr (h.coupled.move (by simp) (by simp) (by simp))
  relies := h.relies
  nonneg := h.nonneg
  kept := h.kept.endio ret
  clearing := h.clearing
  balance := by
    have hbalance := h.balance
    simp only [Life.after, Shared.setPhase, Thread.hand, Thread.held, List.length_cons,
      List.length_append, List.length_nil] at hbalance ⊢
    push_cast at hbalance ⊢
    omega

theorem accounted_settle {n : Nat} {ret : Int} (h : Accounted ⟨sh, q, .ending [] n ret⟩ lf) :
    Accounted ⟨{ sh with loPending := sh.loPending - n }, q, .waiting⟩ lf := by
  have hrelies : (n : Int) ≤ sh.loPending := h.relies
  have hbalance := h.balance
  refine ⟨(Coupled.congr rfl rfl rfl).mpr (h.coupled.move (by simp) (by simp) (by simp)), trivial,
    ?_, h.kept, h.clearing, ?_⟩
  · simp only
    omega
  · simp only [Thread.hand, Thread.held] at hbalance ⊢
    omega

theorem accounted_clearTail (h : Accounted ⟨sh, q, v⟩ lf) (hbefore : sh.control = .beforeTail) :
    Accounted ⟨{ sh with control := .beforeBio }, q.clearTail, v⟩ (lf.after .untailed) := by
  obtain ⟨hunbound, rfl, hsem⟩ := h.coupled.emptying (Or.inl hbefore)
  have hlf : lf.clearing = false := by
    rw [← Bool.not_eq_true, h.clearing]
    simp [hbefore]
  have hkept : Kept lf [] q := h.kept
  refine ⟨?_, trivial, h.nonneg, hkept.clearTail hlf, by simp [Life.after], h.balance⟩
  have hunbound' : sh.loState = .unbound := hunbound
  have hsem' : sh.loSem = 0 := hsem
  simp [Coupled, hunbound', hsem']

theorem accounted_clearBio (h : Accounted ⟨sh, q, v⟩ lf) (hbefore : sh.control = .beforeBio)
    (spawned : Bool) :
    Accounted ⟨{ sh with control := .settingFd }, q.clearBio, if spawned then .starting else v⟩
      (lf.after .attached) := by
  obtain ⟨hunbound, rfl, hsem⟩ := h.coupled.emptying (Or.inr hbefore)
  have hunbound' : sh.loState = .unbound := hunbound
  have hsem' : sh.loSem = 0 := hsem
  have hkept : Kept lf [] q := h.kept
  have hafter := hkept.clearBio (h.clearing.mpr hbefore)
  have hprefix := hkept.ended_prefix.length_le
  have hbalance := h.balance
  have hhand : (if spawned then .starting else .absent : Thread (List κ)).hand = [] := by
    cases spawned <;> rfl
  have hheld : (if spawned then .starting else .absent : Thread (List κ)).held = 0 := by
    cases spawned <;> rfl
  refine ⟨?_, ?_, h.nonneg, hhand ▸ hafter, by simp [Life.after], ?_⟩
  · simp only [Coupled, hunbound']
    cases spawned <;> simp [hsem']
  · cases spawned <;> exact trivial
  · simp only [Thread.hand, Thread.held, List.length_append, List.length_nil] at hbalance hprefix
    simp only [hhand, hheld, Life.after, List.length_append, List.length_drop, List.length_nil]
    omega

theorem accounted_attachDone (h : Accounted ⟨sh, q, v⟩ lf) {n : Nat}
    (hsetting : sh.control = .settingFd) (hsem : sh.loSem = n + 1) :
    Accounted ⟨{ sh with loSem := n, control := .free }, q, v⟩ lf := by
  have hcoupled := h.coupled
  simp only [Coupled, hsetting, hsem] at hcoupled
  refine h.withShared ?_ (h.relies.mono (Int.le_refl _) id) h.nonneg (by simp [hsetting]) rfl
  cases hstate : sh.loState with
  | unbound =>
    rw [hstate] at hcoupled
    exact absurd hcoupled.2 (Nat.succ_ne_zero n)
  | bound =>
    rw [hstate] at hcoupled
    simp only [Coupled]
    exact ⟨hcoupled.1, Nat.succ.inj hcoupled.2⟩
  | rundown =>
    rw [hstate] at hcoupled
    exact hcoupled.elim

theorem accounted_detachDone (h : Accounted ⟨sh, q, v⟩ lf) {n : Nat}
    (hclearing : sh.control = .clearingFd) (hsem : sh.loSem = n + 1) :
    Accounted ⟨{ sh with loSem := n, readOnly := false, loState := .unbound, control := .free }, q,
      v⟩ lf := by
  have hcoupled : Coupled sh v := h.coupled
  have hrundown := hcoupled.rundown (hcoupled.clearingFd hclearing)
  obtain ⟨hone, rfl⟩ := hrundown.2.2.resolve_left (by omega)
  have hn : n = 0 := by omega
  exact h.withShared ⟨rfl, hn⟩ trivial h.nonneg (by simp [hclearing]) rfl

theorem accounted_step [DecidableEq κ] (hbios : Submittable bios maxSegments) {a : Act κ}
    (h : Accounted t lf)
    (hstep : (machine (listed bios maxSegments) command).step t a = some (t', o)) :
    Accounted t' (lf.after o) := by
  cases listedStep_of_step hbios hstep with
  | checked | rejected | accepted => exact h.withPhase _
  | unchecked | attachRefused | detachRefused => exact h
  | inserted k => exact accounted_insert h k
  | counted n huncounted => exact accounted_count h huncounted
  | started envOk => exact accounted_start h envOk
  | @woken sh q hactive =>
    refine h.move (by simp) (by simp) (by simp) rfl rfl ?_
    have hnonneg : 0 ≤ sh.loPending := h.nonneg
    simp only [loopActive, ne_eq, Bool.or_eq_true, decide_eq_true_eq] at hactive
    exact hactive.imp_left fun hne => by omega
  | foundNone hzero =>
    have hrelies := h.relies.resolve_left (by simp only [hzero]; omega)
    exact h.move (by simp) (by simp) (by simp) rfl rfl hrelies
  | @foundSome sh q hne =>
    have hnonneg : 0 ≤ sh.loPending := h.nonneg
    refine h.move (by simp) (by simp) (by simp) rfl rfl ?_
    change 0 < sh.loPending
    omega
  | exited => exact accounted_exit h
  | stayed hstate => exact absurd h.relies hstate
  | missed => exact h.move (by simp) (by simp) (by simp) rfl rfl trivial
  | fetched hne => exact accounted_fetch hbios h hne
  | asserted hle =>
    exact h.move (by simp) (by simp) (by simp) rfl rfl ⟨h.relies.1, hle⟩
  | crashed => exact h.move (by simp) (by simp) (by simp) rfl rfl trivial
  | handled => exact h.move (by simp) (by simp) (by simp) rfl rfl h.relies.2
  | ended => exact accounted_endio h
  | settled => exact accounted_settle h
  | attaching readOnly hfree hunbound =>
    have hcoupled := h.coupled
    simp only [Coupled, hfree, hunbound] at hcoupled
    exact h.withShared (by simpa [Coupled, hunbound] using hcoupled)
      (h.relies.mono (Int.le_refl _) id) h.nonneg (by simp [hfree]) rfl
  | tailCleared hbefore => exact accounted_clearTail h hbefore
  | bioCleared spawned hbefore => exact accounted_clearBio h hbefore spawned
  | attachDone n hsetting hsem => exact accounted_attachDone h hsetting hsem
  | detaching hfree hbound =>
    have hcoupled := h.coupled
    simp only [Coupled, hfree, hbound] at hcoupled
    exact h.withShared ⟨hcoupled.1, Or.inl hcoupled.2⟩ (h.relies.mono (Int.le_refl _) fun _ => rfl)
      h.nonneg (by simp [hfree]) rfl
  | detachDone n hclearing hsem => exact accounted_detachDone h hclearing hsem

theorem accounted_run [DecidableEq κ] (hbios : Submittable bios maxSegments)
    {as : List (Act κ)} {os : List (Out κ)}
    (h : listedRun bios maxSegments command as = some (t, os)) : Accounted t (life os) :=
  Machine.run_history (J := fun t _ os => Accounted t (life os))
    (fun _ _ os _ _ o hacc hstep => life_snoc os o ▸ accounted_step hbios hacc hstep)
    accounted_boot h

end Steps

/-! ## Linked bios -/

section Linked

variable {κ π : Type*} {w : Nat} [DecidableEq κ] [Fintype κ] {command : κ → Command}
  {bios : κ → Bio π w} {maxSegments : Nat} {as : List (Act κ)}
  {s s' : Device κ (Links κ) (Option κ)} {os : List (Out κ)} {o : Out κ}

/-- In a life that began without a late insertion the bios end in the order in which
they were inserted, each at most once, and none is missing but those in hand and those
of the list.  In another life none ends, and none is on the list. -/
theorem inserted_eq (hbios : Submittable bios maxSegments)
    (h : linkedRun bios maxSegments command as = some (s, os))
    (hcontrol : s.shared.control ≠ .beforeBio) :
    ∃ hand queue, s.inHand = some hand ∧ s.queued = some queue ∧ (hand ++ queue).Nodup ∧
      ((life os).late = false → (life os).inserted = (life os).ended ++ hand ++ queue) ∧
      ((life os).late = true → (life os).ended = [] ∧ hand = [] ∧ queue = []) := by
  obtain ⟨t, hlisted, hstands⟩ := exists_listed hbios h
  have hacc := accounted_run hbios hlisted
  have hclearing : (life os).clearing = false := by
    rw [← Bool.not_eq_true, hacc.clearing, ← hstands.shared]
    exact hcontrol
  refine ⟨t.thread.hand, t.list.bios, hstands.inHand_eq, hstands.queued_eq, hstands.nodup,
    fun hlate => ?_, fun hlate => ?_⟩
  · rw [hacc.kept.all_there hclearing hlate, List.append_assoc]
  · obtain ⟨hended, hhand, hqueue, _⟩ := hacc.kept.all_lost hclearing hlate
    exact ⟨hended, hhand, hqueue⟩

/-- Two bios in hand, and one that is lost. -/
theorem inserted_eq_two :
    (∃ s os, linkedRun twoBios 2 (fun _ => .read) earlyFetch = some (s, os) ∧
      (life os).inserted = [0, 1] ∧ ∃ hand queue, s.inHand = some hand ∧
        (life os).inserted = (life os).ended ++ hand ++ queue) ∧
    ∃ s os, linkedRun twoBios 2 (fun _ => .read) lateInsert = some (s, os) ∧
      (life os).inserted = [1] ∧ s.queued = some [] := by
  have hearly : linkedRun twoBios 2 (fun _ => .read) earlyFetch = some (_, _) := rfl
  have hlate : linkedRun twoBios 2 (fun _ => .read) lateInsert = some (_, _) := rfl
  obtain ⟨hand, queue, hhand, _, _, hwhole, _⟩ :=
    inserted_eq (.of_width_32 fun _ => Nat.le_succ 1) hearly (by decide)
  obtain ⟨_, queue', _, hqueue', _, _, hlost⟩ :=
    inserted_eq (.of_width_32 fun _ => Nat.le_succ 1) hlate (by decide)
  refine ⟨⟨_, _, hearly, rfl, hand, queue, hhand, hwhole rfl⟩, _, _, hlate, rfl, ?_⟩
  rw [hqueue', (hlost rfl).2.2]

/-- The assertion on `lo_pending` fails exactly where more submitters stand between
their insertion and their `atomic_inc` than bios are behind the ones in hand. -/
theorem assertPending_lbug_iff (hbios : Submittable bios maxSegments)
    (h : linkedRun bios maxSegments command as = some (s, os))
    (hstep : s.assertPending = some (s', o)) :
    ∃ queue, s.queued = some queue ∧
      (o = .lbug ↔ queue.length + (life os).stranded.length < s.shared.uncounted) := by
  obtain ⟨t, hlisted, hstands⟩ := exists_listed hbios h
  have hacc := accounted_run hbios hlisted
  refine ⟨t.list.bios, hstands.queued_eq, ?_⟩
  obtain ⟨sh, lo, u⟩ := s
  obtain ⟨sh', q, v⟩ := t
  obtain rfl : sh = sh' := hstands.shared
  have hthread := hstands.thread
  cases hthread with
  | @fetched bio ks n hhand =>
    obtain ⟨hn, hpos⟩ : n = ks.length ∧ 0 < n := hacc.relies
    have hks : ks ≠ [] := List.length_pos_iff.mp (hn ▸ hpos)
    have hbalance := hacc.queue_balance (by simp) (hacc.not_late (by simp) hks)
    simp only [Thread.held] at hbalance
    simp only [Device.assertPending] at hstep
    split at hstep
    · next hle =>
      cases hstep
      simp only [reduceCtorEq, false_iff, Nat.not_lt]
      omega
    · next hlt =>
      cases hstep
      simp only [true_iff]
      omega
  | _ => cases hstep

theorem assertPending_lbug_iff_two : ∃ s s' os,
    linkedRun twoBios 2 (fun _ => .read) earlyFetch = some (s, os) ∧
      s.assertPending = some (s', .lbug) ∧ ∃ queue, s.queued = some queue ∧
        (Out.lbug = (.lbug : Out (Fin 2)) ↔
          queue.length + (life os).stranded.length < s.shared.uncounted) := by
  have hrun : linkedRun twoBios 2 (fun _ => .read) earlyFetch = some (_, _) := rfl
  exact ⟨_, _, _, hrun, rfl,
    assertPending_lbug_iff (.of_width_32 fun _ => Nat.le_succ 1) hrun rfl⟩

/-- Where the thread reads `lo_pending`, it finds nothing pending exactly if as many
submitters stand before their `atomic_inc` as bios were inserted, in this life or
earlier, and have not ended. -/
theorem readPending_zero_iff (hbios : Submittable bios maxSegments)
    (h : linkedRun bios maxSegments command as = some (s, os)) (hactive : s.thread = .active) :
    s.shared.loPending = 0 ↔
      s.shared.uncounted + (life os).ended.length =
        (life os).inserted.length + (life os).stranded.length := by
  obtain ⟨t, hlisted, hstands⟩ := exists_listed hbios h
  have hacc := accounted_run hbios hlisted
  obtain ⟨sh, lo, u⟩ := s
  obtain ⟨sh', q, v⟩ := t
  obtain rfl : sh = sh' := hstands.shared
  have hthread := hstands.thread
  rw [hactive] at hthread
  cases hthread
  have hbalance := hacc.balance
  simp only [Thread.hand, Thread.held, List.length_nil] at hbalance ⊢
  omega

/-- The thread goes while a bio is on the list. -/
theorem readPending_zero_iff_two : ∃ s os,
    linkedRun twoBios 2 (fun _ => .read) (attachRun false ++ submitRun 0 ++ [.clrFd, .wake]) =
      some (s, os) ∧
    s.shared.loPending = 0 ∧ ∃ s' os',
      (machine (linked twoBios 2) fun _ => .read).run s [.readPending, .readState] =
        some (s', os') ∧ os' = [.silent, .exited] ∧ s'.queued = some [0] := by
  have hrun : linkedRun twoBios 2 (fun _ => .read)
    (attachRun false ++ submitRun 0 ++ [.clrFd, .wake]) = some (_, _) := rfl
  exact ⟨_, _, hrun, (readPending_zero_iff (.of_width_32 fun _ => Nat.le_succ 1) hrun rfl).mpr rfl,
    _, _, rfl, rfl, rfl⟩

/-- The thread misses a bio only in a life behind one that left a bio behind. -/
theorem stranded_of_missing (hbios : Submittable bios maxSegments)
    (h : linkedRun bios maxSegments command as = some (s, os))
    (hstep : s.fetch (linked bios maxSegments) = some (s', .missing)) :
    (life os).stranded ≠ [] := by
  obtain ⟨t, hlisted, hstands⟩ := exists_listed hbios h
  have hacc := accounted_run hbios hlisted
  have hagree := agree_fetch hbios hstands
  rw [hstep] at hagree
  cases hfetch : t.fetch (listed bios maxSegments) with
  | none =>
    rw [hfetch] at hagree
    cases hagree
  | some p =>
    obtain ⟨t', o⟩ := p
    rw [hfetch] at hagree
    have hout : Out.missing = o := by
      cases hagree with
      | some hp => exact hp.2
    subst hout
    have hlistedStep : ListedStep bios maxSegments command t .fetch t' .missing :=
      listedStep_of_step hbios hfetch
    cases hlistedStep with
    | @missed sh q hnil =>
      have hpos : 0 < sh.loPending := hacc.relies
      cases hlate : (life os).late with
      | true => exact (hacc.kept.all_lost (hacc.not_clearing (by simp)) hlate).2.2.2
      | false =>
        have hbalance := hacc.queue_balance (by simp) hlate
        rw [hnil] at hbalance
        simp only [Thread.held, List.length_nil] at hbalance
        intro hstranded
        rw [hstranded, List.length_nil] at hbalance
        omega

theorem stranded_of_missing_two : ∃ s s' os,
    linkedRun twoBios 2 (fun _ => .read) lateCount = some (s, os) ∧
      s.fetch (linked twoBios 2) = some (s', .missing) ∧ (life os).stranded ≠ [] := by
  have hrun : linkedRun twoBios 2 (fun _ => .read) lateCount = some (_, _) := rfl
  exact ⟨_, _, _, hrun, rfl,
    stranded_of_missing (.of_width_32 fun _ => Nat.le_succ 1) hrun rfl⟩

end Linked

end Lloop
end AtomDrivers
