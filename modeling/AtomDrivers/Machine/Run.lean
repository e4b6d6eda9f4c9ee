/-
Labelled machines and their runs.

A machine takes one action at a time.  An action is either impossible in a state
or leads to one successor and shows one output, so a run is determined by the
state it starts from and its list of actions.  Nothing here names a driver: the
later modules instantiate `Machine` with a state, its actions and what each
action lets the outside see, and use the rules of this file for every statement
about runs of any length.

`run_history` is the one induction.  Its invariant may speak about the actions
taken and the outputs shown so far, and the other rules about whole runs are read
off it.  `AllSteps` and `AllStates` say that every step and every state of a
run has a property, and `allSteps_iff_split` finds each step behind the run of the
actions before it.  `allStates_iff_allSteps` turns an exact description of one
step into an exact description of a run.
-/
import Mathlib.Logic.Basic
import Mathlib.Data.List.Basic

namespace AtomDrivers

/-- A labelled machine.  `step s a` is `none` where the action `a` cannot be
taken in `s`, and otherwise the state it leads to with the output it shows. -/
structure Machine (σ α ω : Type*) where
  step : σ → α → Option (σ × ω)

namespace Machine

variable {σ α ω : Type*} {M : Machine σ α ω}

/-- The state a list of actions leads to, with one output for each action. -/
def run (M : Machine σ α ω) : σ → List α → Option (σ × List ω)
  | s, [] => some (s, [])
  | s, a :: as =>
    match M.step s a with
    | none => none
    | some (u, o) =>
      match M.run u as with
      | none => none
      | some (t, os) => some (t, o :: os)

def Reachable (M : Machine σ α ω) (s t : σ) : Prop :=
  ∃ as os, M.run s as = some (t, os)

@[simp] theorem run_nil (s : σ) : M.run s [] = some (s, []) := rfl

theorem run_cons_iff {s t : σ} {a : α} {as : List α} {os : List ω} :
    M.run s (a :: as) = some (t, os) ↔
      ∃ u o os', M.step s a = some (u, o) ∧ M.run u as = some (t, os') ∧ os = o :: os' := by
  constructor
  · intro h
    rw [run] at h
    cases hstep : M.step s a with
    | none => simp [hstep] at h
    | some p =>
      obtain ⟨u, o⟩ := p
      cases hrun : M.run u as with
      | none => simp [hstep, hrun] at h
      | some q =>
        obtain ⟨v, os'⟩ := q
        simp only [hstep, hrun, Option.some.injEq, Prod.mk.injEq] at h
        exact ⟨u, o, os', rfl, by rw [hrun, h.1], h.2.symm⟩
  · intro h
    obtain ⟨u, o, os', hstep, hrun, rfl⟩ := h
    rw [run, hstep]
    simp only [hrun]

theorem run_cons {s u t : σ} {a : α} {o : ω} {as : List α} {os : List ω}
    (hstep : M.step s a = some (u, o)) (hrun : M.run u as = some (t, os)) :
    M.run s (a :: as) = some (t, o :: os) :=
  run_cons_iff.mpr ⟨u, o, os, hstep, hrun, rfl⟩

theorem run_singleton {s t : σ} {a : α} {o : ω} (hstep : M.step s a = some (t, o)) :
    M.run s [a] = some (t, [o]) :=
  run_cons hstep (run_nil t)

theorem run_append_iff {s t : σ} {as bs : List α} {os : List ω} :
    M.run s (as ++ bs) = some (t, os) ↔
      ∃ u os₁ os₂, M.run s as = some (u, os₁) ∧ M.run u bs = some (t, os₂) ∧
        os = os₁ ++ os₂ := by
  induction as generalizing s os with
  | nil => simp
  | cons a as ih =>
    rw [List.cons_append, run_cons_iff]
    constructor
    · intro h
      obtain ⟨u, o, os', hstep, hrest, rfl⟩ := h
      obtain ⟨v, os₁, os₂, has, hbs, rfl⟩ := ih.mp hrest
      exact ⟨v, o :: os₁, os₂, run_cons hstep has, hbs, rfl⟩
    · intro h
      obtain ⟨v, os₁, os₂, has, hbs, rfl⟩ := h
      obtain ⟨u, o, os', hstep, hrest, rfl⟩ := run_cons_iff.mp has
      exact ⟨u, o, os' ++ os₂, hstep, ih.mpr ⟨v, os', os₂, hrest, hbs, rfl⟩, rfl⟩

theorem run_append {s u t : σ} {as bs : List α} {os₁ os₂ : List ω}
    (has : M.run s as = some (u, os₁)) (hbs : M.run u bs = some (t, os₂)) :
    M.run s (as ++ bs) = some (t, os₁ ++ os₂) :=
  run_append_iff.mpr ⟨u, os₁, os₂, has, hbs, rfl⟩

theorem run_length {s t : σ} {as : List α} {os : List ω} (h : M.run s as = some (t, os)) :
    os.length = as.length := by
  induction as generalizing s os with
  | nil =>
    simp only [run_nil, Option.some.injEq, Prod.mk.injEq] at h
    rw [← h.2]
    rfl
  | cons a as ih =>
    obtain ⟨u, o, os', _, hrest, rfl⟩ := run_cons_iff.mp h
    rw [List.length_cons, List.length_cons, ih hrest]

namespace Reachable

theorem refl (s : σ) : M.Reachable s s := ⟨[], [], rfl⟩

theorem run {s u t : σ} {as : List α} {os : List ω} (h : M.Reachable s u)
    (hrun : M.run u as = some (t, os)) : M.Reachable s t := by
  obtain ⟨bs, os', hbs⟩ := h
  exact ⟨bs ++ as, os' ++ os, run_append hbs hrun⟩

theorem step {s u t : σ} {a : α} {o : ω} (h : M.Reachable s u)
    (hstep : M.step u a = some (t, o)) : M.Reachable s t :=
  h.run (run_singleton hstep)

end Reachable

/-- An entry of `as ++ [b]` is the last one or an entry of `as`. -/
theorem snoc_split {as before after : List α} {a b : α} (h : as ++ [b] = before ++ a :: after) :
    (b = a ∧ as = before) ∨ ∃ after', as = before ++ a :: after' := by
  rcases List.eq_nil_or_concat after with rfl | ⟨after', last, rfl⟩
  · have hlast := List.append_inj' h rfl
    exact Or.inl ⟨List.singleton_inj.mp hlast.2, hlast.1⟩
  · have hsplit : as ++ [b] = (before ++ a :: after') ++ [last] := by
      rw [h]
      simp
    exact Or.inr ⟨after', (List.append_inj' hsplit rfl).1⟩

/-! ## Invariants of runs -/

/-- A property of the state, the actions taken and the outputs shown so far
holds at the end of a run when it holds at the start and every step keeps it. -/
theorem run_history {J : σ → List α → List ω → Prop}
    (hstep : ∀ s as os a t o, J s as os → M.step s a = some (t, o) → J t (as ++ [a]) (os ++ [o]))
    {s t : σ} {as : List α} {os : List ω} (h₀ : J s [] []) (h : M.run s as = some (t, os)) :
    J t as os := by
  suffices hgen : ∀ (as : List α) (s : σ) (bs : List α) (os ps : List ω), J s bs ps →
      M.run s as = some (t, os) → J t (bs ++ as) (ps ++ os) from
    hgen as s [] os [] h₀ h
  intro as
  induction as with
  | nil =>
    intro s bs os ps hJ hrun
    simp only [run_nil, Option.some.injEq, Prod.mk.injEq] at hrun
    obtain ⟨rfl, rfl⟩ := hrun
    simpa using hJ
  | cons a as ih =>
    intro s bs os ps hJ hrun
    obtain ⟨u, o, os', hone, hrest, rfl⟩ := run_cons_iff.mp hrun
    have hnext := ih u (bs ++ [a]) os' (ps ++ [o]) (hstep s bs ps a u o hJ hone) hrest
    simpa using hnext

/-- A property of states is kept when no step loses it. -/
def Preserves (M : Machine σ α ω) (I : σ → Prop) : Prop :=
  ∀ s a t o, I s → M.step s a = some (t, o) → I t

theorem Preserves.run {I : σ → Prop} (hI : M.Preserves I) {s t : σ} {as : List α} {os : List ω}
    (hs : I s) (h : M.run s as = some (t, os)) : I t :=
  run_history (J := fun u _ _ => I u) (fun s _ _ a t o hs hstep => hI s a t o hs hstep) hs h

theorem Preserves.reachable {I : σ → Prop} (hI : M.Preserves I) {s t : σ} (hs : I s)
    (h : M.Reachable s t) : I t := by
  obtain ⟨as, os, hrun⟩ := h
  exact hI.run hs hrun

/-- A property of outputs holds of every output of a run that takes only
actions of one kind, when an invariant kept by these actions gives it. -/
theorem run_outputs {I : σ → Prop} {A : α → Prop} {P : ω → Prop}
    (hstep : ∀ s a t o, I s → A a → M.step s a = some (t, o) → I t ∧ P o)
    {s t : σ} {as : List α} {os : List ω} (hs : I s) (hA : ∀ a ∈ as, A a)
    (h : M.run s as = some (t, os)) : I t ∧ ∀ o ∈ os, P o := by
  have hJ := run_history (J := fun u bs ps => (∀ a ∈ bs, A a) → I u ∧ ∀ o ∈ ps, P o)
    (fun u bs ps a v o ih hone hall => by
      have hu := ih fun b hb => hall b (List.mem_append_left [a] hb)
      have hv := hstep u a v o hu.1 (hall a (by simp)) hone
      refine ⟨hv.1, fun p hp => ?_⟩
      rcases List.mem_append.mp hp with hp | hp
      · exact hu.2 p hp
      · rw [List.mem_singleton.mp hp]
        exact hv.2)
    (fun _ => ⟨hs, by simp⟩) h
  exact hJ hA

/-! ## Properties of every step and every state of a run -/

/-- `P` holds of each action of the run, in the state the action is taken in. -/
def AllSteps (M : Machine σ α ω) (P : σ → α → Prop) : σ → List α → Prop
  | _, [] => True
  | s, a :: as => P s a ∧ ∀ t o, M.step s a = some (t, o) → M.AllSteps P t as

/-- `Q` holds of each state of the run, the first and the last included. -/
def AllStates (M : Machine σ α ω) (Q : σ → Prop) : σ → List α → Prop
  | s, [] => Q s
  | s, a :: as => Q s ∧ ∀ t o, M.step s a = some (t, o) → M.AllStates Q t as

/-- The steps of one run can be gone through. -/
instance decidableAllSteps {P : σ → α → Prop} [∀ s a, Decidable (P s a)] :
    ∀ (s : σ) (as : List α), Decidable (M.AllSteps P s as)
  | _, [] => .isTrue trivial
  | s, a :: as =>
    match hstep : M.step s a with
    | none =>
      decidable_of_iff (P s a) ⟨fun ha => ⟨ha, fun t o ht => by rw [hstep] at ht; cases ht⟩,
        And.left⟩
    | some (u, o) =>
      have := decidableAllSteps (P := P) u as
      decidable_of_iff (P s a ∧ M.AllSteps P u as)
        ⟨fun h => ⟨h.1, fun t p ht => by
            rw [hstep] at ht
            cases ht
            exact h.2⟩,
          fun h => ⟨h.1, h.2 u o hstep⟩⟩

theorem AllStates.head {Q : σ → Prop} {s : σ} {as : List α} (h : M.AllStates Q s as) : Q s := by
  cases as with
  | nil => exact h
  | cons a as => exact h.1

theorem AllStates.last {Q : σ → Prop} {s t : σ} {as : List α} {os : List ω}
    (h : M.AllStates Q s as) (hrun : M.run s as = some (t, os)) : Q t := by
  induction as generalizing s os with
  | nil =>
    simp only [run_nil, Option.some.injEq, Prod.mk.injEq] at hrun
    rw [← hrun.1]
    exact h
  | cons a as ih =>
    obtain ⟨u, o, os', hstep, hrest, _⟩ := run_cons_iff.mp hrun
    exact ih (h.2 u o hstep) hrest

/-- Every state is the first one or the one after a step. -/
theorem allStates_iff_steps {Q : σ → Prop} {s : σ} (hs : Q s) (as : List α) :
    M.AllStates Q s as ↔ M.AllSteps (fun s a => ∀ t o, M.step s a = some (t, o) → Q t) s as := by
  induction as generalizing s with
  | nil => exact ⟨fun _ => trivial, fun _ => hs⟩
  | cons a as ih =>
    constructor
    · intro hall
      exact ⟨fun t o hstep => (hall.2 t o hstep).head,
        fun t o hstep => (ih (hall.2 t o hstep).head).mp (hall.2 t o hstep)⟩
    · intro hall
      exact ⟨hs, fun t o hstep => (ih (hall.1 t o hstep)).mpr (hall.2 t o hstep)⟩

/-- The steps of a run are its actions, each in the state that those before it lead to. -/
theorem allSteps_iff_split {P : σ → α → Prop} {s : σ} {as : List α} :
    M.AllSteps P s as ↔ ∀ before a after, as = before ++ a :: after →
      ∀ u os, M.run s before = some (u, os) → P u a := by
  induction as generalizing s with
  | nil => simp [AllSteps]
  | cons b as ih =>
    constructor
    · intro hall before a after heq u os hrun
      cases before with
      | nil =>
        simp only [List.nil_append, List.cons.injEq] at heq
        simp only [run_nil, Option.some.injEq, Prod.mk.injEq] at hrun
        rw [← heq.1, ← hrun.1]
        exact hall.1
      | cons c before =>
        simp only [List.cons_append, List.cons.injEq] at heq
        obtain ⟨rfl, hrest⟩ := heq
        obtain ⟨v, o, os', hstep, htail, _⟩ := run_cons_iff.mp hrun
        exact ih.mp (hall.2 v o hstep) before a after hrest u os' htail
    · intro hsplit
      refine ⟨hsplit [] b as rfl s [] rfl, fun v o hstep => ih.mpr ?_⟩
      intro before a after heq u os hrun
      exact hsplit (b :: before) a after (by rw [heq, List.cons_append]) u (o :: os)
        (run_cons hstep hrun)

/-- `run_history` for the runs whose steps meet `C`. -/
theorem run_history_of_allSteps {C : σ → α → Prop} {J : σ → List α → List ω → Prop}
    (hstep : ∀ s as os a t o, J s as os → C s a → M.step s a = some (t, o) →
      J t (as ++ [a]) (os ++ [o]))
    {s t : σ} {as : List α} {os : List ω} (h₀ : J s [] []) (hC : M.AllSteps C s as)
    (h : M.run s as = some (t, os)) : J t as os := by
  have hJ := run_history (s := s)
    (J := fun u bs ps => (M.run s bs = some (u, ps) ∧ (M.AllSteps C s bs → J u bs ps)))
    (fun u bs ps a v o ih hone => by
      have hrun : M.run s (bs ++ [a]) = some (v, ps ++ [o]) :=
        run_append ih.1 (run_singleton hone)
      refine ⟨hrun, fun hall => ?_⟩
      have hsplit := allSteps_iff_split.mp hall
      have hbefore : M.AllSteps C s bs := allSteps_iff_split.mpr
        fun before b after heq w qs hw =>
          hsplit before b (after ++ [a]) (by rw [heq]; simp) w qs hw
      exact hstep u bs ps a v o (ih.2 hbefore) (hsplit bs a [] rfl u ps ih.1) hone)
    ⟨rfl, fun _ => h₀⟩ h
  exact hJ.2 hC

/-- Two properties of steps that agree in every reachable state hold of the same
runs. -/
theorem allSteps_congr {P Q : σ → α → Prop} {s : σ}
    (h : ∀ u a, M.Reachable s u → (P u a ↔ Q u a)) (as : List α) :
    M.AllSteps P s as ↔ M.AllSteps Q s as := by
  rw [allSteps_iff_split, allSteps_iff_split]
  constructor
  · intro hall before a after heq u os hrun
    exact (h u a ⟨before, os, hrun⟩).mp (hall before a after heq u os hrun)
  · intro hall before a after heq u os hrun
    exact (h u a ⟨before, os, hrun⟩).mpr (hall before a after heq u os hrun)

/-- A machine that is never stuck takes every list of actions. -/
theorem exists_run (hstep : ∀ s a, ∃ t o, M.step s a = some (t, o)) (s : σ) (as : List α) :
    ∃ t os, M.run s as = some (t, os) := by
  induction as generalizing s with
  | nil => exact ⟨s, [], rfl⟩
  | cons a as ih =>
    obtain ⟨t, o, ht⟩ := hstep s a
    obtain ⟨u, os, hrun⟩ := ih t
    exact ⟨u, o :: os, run_cons ht hrun⟩

/-- A list of actions is taken to its end exactly if none of its actions is stuck
where the ones before it lead. -/
theorem exists_run_iff_split {s : σ} {as : List α} :
    (∃ t os, M.run s as = some (t, os)) ↔
      ∀ before a after, as = before ++ a :: after →
        ∀ u os, M.run s before = some (u, os) → ∃ v o, M.step u a = some (v, o) := by
  constructor
  · rintro ⟨t, os, hrun⟩ before a after rfl u os₁ hbefore
    obtain ⟨u', os₂, os₃, hbefore', hrest, _⟩ := run_append_iff.mp hrun
    rw [hbefore] at hbefore'
    cases hbefore'
    obtain ⟨v, o, _, hone, _⟩ := run_cons_iff.mp hrest
    exact ⟨v, o, hone⟩
  · intro hall
    induction as generalizing s with
    | nil => exact ⟨s, [], rfl⟩
    | cons a as ih =>
      obtain ⟨v, o, hone⟩ := hall [] a as rfl s [] rfl
      obtain ⟨t, os, hrest⟩ := ih fun before b after heq u os hbefore =>
        hall (a :: before) b after (by rw [heq]; rfl) u (o :: os) (run_cons hone hbefore)
      exact ⟨t, o :: os, run_cons hone hrest⟩

/-- A property of actions alone holds of the steps of a machine that is never
stuck when it holds of the actions. -/
theorem allSteps_forall {C : α → Prop} (hstep : ∀ s a, ∃ t o, M.step s a = some (t, o)) (s : σ)
    (as : List α) : M.AllSteps (fun _ a => C a) s as ↔ ∀ a ∈ as, C a := by
  rw [allSteps_iff_split]
  constructor
  · intro hall a ha
    obtain ⟨before, after, heq⟩ := List.append_of_mem ha
    obtain ⟨u, os, hrun⟩ := exists_run hstep s before
    exact hall before a after heq u os hrun
  · intro hall before a after heq _ _ _
    exact hall a (by rw [heq]; simp)

/-- Where `P` and `C` agree on the steps from states that meet `I`, and the steps
that meet `C` keep `I`, the two hold of the same runs. -/
theorem allSteps_iff_of_invariant {I : σ → Prop} {P C : σ → α → Prop}
    (hiff : ∀ s a, I s → (P s a ↔ C s a))
    (hkeep : ∀ s a t o, I s → C s a → M.step s a = some (t, o) → I t) {s : σ} (hs : I s)
    (as : List α) : M.AllSteps P s as ↔ M.AllSteps C s as := by
  induction as generalizing s with
  | nil => exact Iff.rfl
  | cons a as ih =>
    constructor
    · intro hall
      have hC : C s a := (hiff s a hs).mp hall.1
      exact ⟨hC, fun t o hstep => (ih (hkeep s a t o hs hC hstep)).mp (hall.2 t o hstep)⟩
    · intro hall
      exact ⟨(hiff s a hs).mpr hall.1,
        fun t o hstep => (ih (hkeep s a t o hs hall.1 hstep)).mpr (hall.2 t o hstep)⟩

/-- An invariant that the steps meeting `C` keep holds throughout the runs of such
steps, with all that follows from it. -/
theorem allStates_of_invariant {I Q : σ → Prop} {C : σ → α → Prop} (hQ : ∀ s, I s → Q s)
    (hkeep : ∀ s a t o, I s → C s a → M.step s a = some (t, o) → I t) {s : σ} (hs : I s)
    {as : List α} (h : M.AllSteps C s as) : M.AllStates Q s as := by
  induction as generalizing s with
  | nil => exact hQ s hs
  | cons a as ih =>
    exact ⟨hQ s hs, fun t o hstep => ih (hkeep s a t o hs h.1 hstep) (h.2 t o hstep)⟩

/-- Where a step keeps `Q` exactly if it meets `P`, a run keeps `Q` throughout
exactly if all its steps meet `P`. -/
theorem allStates_iff_allSteps {Q : σ → Prop} {P : σ → α → Prop}
    (hstep : ∀ s a t o, Q s → M.step s a = some (t, o) → (Q t ↔ P s a))
    {s t : σ} {as : List α} {os : List ω} (hs : Q s) (h : M.run s as = some (t, os)) :
    M.AllStates Q s as ↔ M.AllSteps P s as := by
  induction as generalizing s os with
  | nil => exact ⟨fun _ => trivial, fun _ => hs⟩
  | cons a as ih =>
    obtain ⟨u, o, os', hone, hrest, rfl⟩ := run_cons_iff.mp h
    have hiff := hstep s a u o hs hone
    constructor
    · intro hall
      have hu := hall.2 u o hone
      refine ⟨hiff.mp hu.head, fun v p hv => ?_⟩
      rw [hone] at hv
      cases hv
      exact (ih hu.head hrest).mp hu
    · intro hall
      have hu : Q u := hiff.mpr hall.1
      refine ⟨hs, fun v p hv => ?_⟩
      rw [hone] at hv
      cases hv
      exact (ih hu hrest).mpr (hall.2 u o hone)

end Machine
end AtomDrivers
