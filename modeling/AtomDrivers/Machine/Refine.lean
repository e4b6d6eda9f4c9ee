/-
Two machines in lockstep.

Each action of the first machine means an action of the second.  In related
states either neither can take it, or both take it, end in related states and
show the same, where the first machine's output is seen through a view.  A
single induction carries this to runs.

`exists_run_of_steps` is for a second machine whose one action stands for many of the
first one's.
-/
import AtomDrivers.Machine.Run

namespace AtomDrivers
namespace Machine

variable {σ τ α β ω ψ : Type*}

theorem rel_imp {γ δ : Type*} {r r' : γ → δ → Prop} (h : ∀ x y, r x y → r' x y) {x : Option γ}
    {y : Option δ} (hxy : Option.Rel r x y) : Option.Rel r' x y := by
  cases hxy with
  | some hr => exact .some (h _ _ hr)
  | none => exact .none

/-- The two outcomes of one action agree. -/
def Agree (R : σ → τ → Prop) (view : ω → ψ) : Option (σ × ω) → Option (τ × ψ) → Prop :=
  Option.Rel fun p q => R p.1 q.1 ∧ view p.2 = q.2

/-- Lockstep for the actions that meet `A`. -/
def Lockstep (M : Machine σ α ω) (N : Machine τ β ψ) (A : α → Prop) (meaning : α → β)
    (R : σ → τ → Prop) (view : ω → ψ) : Prop :=
  ∀ s t a, R s t → A a → Agree R view (M.step s a) (N.step t (meaning a))

theorem Lockstep.run {M : Machine σ α ω} {N : Machine τ β ψ} {A : α → Prop} {meaning : α → β}
    {R : σ → τ → Prop} {view : ω → ψ} (h : Lockstep M N A meaning R view) {s : σ} {t : τ}
    {as : List α} (hR : R s t) (hA : ∀ a ∈ as, A a) :
    Agree R (List.map view) (M.run s as) (N.run t (as.map meaning)) := by
  induction as generalizing s t with
  | nil => exact .some ⟨hR, rfl⟩
  | cons a as ih =>
    have hstep := h s t a hR (hA a List.mem_cons_self)
    rw [List.map_cons, Machine.run, Machine.run]
    cases hM : M.step s a with
    | none =>
      rw [hM] at hstep
      cases hN : N.step t (meaning a) with
      | none => exact .none
      | some q => rw [hN] at hstep; cases hstep
    | some p =>
      rw [hM] at hstep
      cases hN : N.step t (meaning a) with
      | none => rw [hN] at hstep; cases hstep
      | some q =>
        rw [hN] at hstep
        cases hstep with
        | some hpq =>
          have hrest := ih hpq.1 fun b hb => hA b (List.mem_cons_of_mem a hb)
          cases hMs : M.run p.1 as with
          | none =>
            rw [hMs] at hrest
            cases hNs : N.run q.1 (as.map meaning) with
            | none => simp only [hMs, hNs]; exact .none
            | some v => rw [hNs] at hrest; cases hrest
          | some u =>
            rw [hMs] at hrest
            cases hNs : N.run q.1 (as.map meaning) with
            | none => rw [hNs] at hrest; cases hrest
            | some v =>
              rw [hNs] at hrest
              cases hrest with
              | some huv =>
                simp only [hMs, hNs]
                exact .some ⟨huv.1, by rw [List.map_cons, hpq.2, huv.2]⟩

/-- Where related states meet corresponding conditions on their steps, so do
whole runs. -/
theorem Lockstep.allSteps_iff {M : Machine σ α ω} {N : Machine τ β ψ} {meaning : α → β}
    {R : σ → τ → Prop} {view : ω → ψ} (h : Lockstep M N (fun _ => True) meaning R view)
    {P : σ → α → Prop} {Q : τ → β → Prop}
    (hPQ : ∀ s t a, R s t → (P s a ↔ Q t (meaning a))) {s : σ} {t : τ} (hR : R s t)
    (as : List α) : M.AllSteps P s as ↔ N.AllSteps Q t (as.map meaning) := by
  induction as generalizing s t with
  | nil => exact Iff.rfl
  | cons a as ih =>
    have hstep := h s t a hR trivial
    rw [List.map_cons, AllSteps, AllSteps, hPQ s t a hR]
    refine and_congr_right fun _ => ?_
    cases hM : M.step s a with
    | none =>
      rw [hM] at hstep
      cases hN : N.step t (meaning a) with
      | none => simp
      | some q => rw [hN] at hstep; cases hstep
    | some p =>
      rw [hM] at hstep
      cases hN : N.step t (meaning a) with
      | none => rw [hN] at hstep; cases hstep
      | some q =>
        rw [hN] at hstep
        cases hstep with
        | some hpq =>
          constructor
          · intro hall u o hu
            cases hu
            exact (ih hpq.1).mp (hall p.1 p.2 rfl)
          · intro hall u o hu
            cases hu
            exact (ih hpq.1).mpr (hall q.1 q.2 rfl)

/-- Corresponding properties of states hold throughout the same runs. -/
theorem Lockstep.allStates_iff {M : Machine σ α ω} {N : Machine τ β ψ} {meaning : α → β}
    {R : σ → τ → Prop} {view : ω → ψ} (h : Lockstep M N (fun _ => True) meaning R view)
    {P : σ → Prop} {Q : τ → Prop} (hPQ : ∀ s t, R s t → (P s ↔ Q t)) {s : σ} {t : τ} (hR : R s t)
    (as : List α) : M.AllStates P s as ↔ N.AllStates Q t (as.map meaning) := by
  induction as generalizing s t with
  | nil => exact hPQ s t hR
  | cons a as ih =>
    have hstep := h s t a hR trivial
    rw [List.map_cons, AllStates, AllStates, hPQ s t hR]
    refine and_congr_right fun _ => ?_
    cases hM : M.step s a with
    | none =>
      rw [hM] at hstep
      cases hN : N.step t (meaning a) with
      | none => simp
      | some q => rw [hN] at hstep; cases hstep
    | some p =>
      rw [hM] at hstep
      cases hN : N.step t (meaning a) with
      | none => rw [hN] at hstep; cases hstep
      | some q =>
        rw [hN] at hstep
        cases hstep with
        | some hpq =>
          constructor
          · intro hall u o hu
            cases hu
            exact (ih hpq.1).mp (hall p.1 p.2 rfl)
          · intro hall u o hu
            cases hu
            exact (ih hpq.1).mpr (hall q.1 q.2 rfl)

/-- Where each step of the first machine is matched by a run of the second that shows
as much, so is each run. -/
theorem exists_run_of_steps {χ : Type*} {M : Machine σ α ω} {N : Machine τ β ψ}
    {R : σ → τ → Prop} {view : ω → Option χ} {see : ψ → χ}
    (hstep : ∀ s t a s' o, R s t → M.step s a = some (s', o) →
      ∃ bs ps t', N.run t bs = some (t', ps) ∧ R s' t' ∧ ps.map see = (view o).toList)
    {s s' : σ} {t : τ} {as : List α} {os : List ω} (hR : R s t)
    (h : M.run s as = some (s', os)) :
    ∃ bs ps t', N.run t bs = some (t', ps) ∧ R s' t' ∧ ps.map see = os.filterMap view := by
  induction as generalizing s t os with
  | nil =>
    simp only [run_nil, Option.some.injEq, Prod.mk.injEq] at h
    obtain ⟨rfl, rfl⟩ := h
    exact ⟨[], [], t, rfl, hR, rfl⟩
  | cons a as ih =>
    obtain ⟨u, o, os', hone, hrest, rfl⟩ := run_cons_iff.mp h
    obtain ⟨bs, ps, v, hbs, hv, hps⟩ := hstep s t a u o hR hone
    obtain ⟨cs, qs, t', hcs, ht', hqs⟩ := ih hv hrest
    refine ⟨bs ++ cs, ps ++ qs, t', run_append hbs hcs, ht', ?_⟩
    rw [List.map_append, hps, hqs]
    cases hview : view o <;> simp [hview]

end Machine
end AtomDrivers
