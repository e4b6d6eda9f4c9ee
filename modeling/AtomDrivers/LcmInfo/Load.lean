/-
Loading and unloading the panel information module.

`lcminfo_init` acquires six resources in turn and jumps into a chain of labels
when one of them fails.  The chain does not mirror the order of the acquisitions:
a load that fails after the first allocation keeps the region or the data buffer,
and a failed device frees the memory of a cdev that is still registered.
-/
import AtomDrivers.Machine.Run
import AtomDrivers.Machine.Ledger
import AtomDrivers.Linux.Errno
import AtomDrivers.Linux.Pointer

namespace AtomDrivers
namespace LcmInfo
namespace Load

open Linux

inductive LcmResource
  | region
  | devp
  | data
  | cdev
  | cls
  | device
  deriving DecidableEq, Repr

/-- The cdev is a member of `struct lcminfo_dev`. -/
def LcmResource.inside : LcmResource → List LcmResource
  | .devp => [.cdev]
  | _ => []

/-- What the kernel answers to one `lcminfo_init`. -/
structure LoadAnswers where
  registerChrdevRegion : Outcome
  kmallocDevp : Bool
  kmallocData : Bool
  cdevAdd : Outcome
  classCreate : Outcome
  deviceCreate : Outcome
  deriving DecidableEq, Repr

/-- The static pointers of the module.  `lcminfo_devp` is NULL or points to a
structure, whose `data` may be NULL. -/
structure LcmModule where
  lcminfoDevp : Option Bool
  lcminfoClass : Pointer
  deriving DecidableEq, Repr

structure LoadResult where
  ret : Int
  entries : List (Entry LcmResource)
  statics : LcmModule
  deriving DecidableEq, Repr

/-- What is acquired by a call that succeeds. -/
def acquired (ok : Bool) (r : LcmResource) : List (Entry LcmResource) :=
  if ok then [.acquire r] else []

/-- `kfree`, which takes NULL. -/
def kfreeOf (ptr : Bool) (r : LcmResource) : List (Entry LcmResource) :=
  if ptr then [.release r] else []

/-- `class_destroy`, which does nothing for NULL and for an error pointer. -/
def classDestroy (ptr : Pointer) : List (Entry LcmResource) :=
  if ptr = .object then [.release .cls] else []

/-! ## The labels -/

def cleanup (result : Int) (m : LcmModule) (entries : List (Entry LcmResource)) : LoadResult where
  ret := result
  entries := entries ++ kfreeOf m.lcminfoDevp.isSome .devp
  statics := m

def unregister (result : Int) (m : LcmModule) (entries : List (Entry LcmResource)) : LoadResult :=
  cleanup result m (entries ++ [.release .region])

def failDevice (result : Int) (m : LcmModule) (entries : List (Entry LcmResource)) : LoadResult :=
  unregister result m (entries ++ classDestroy m.lcminfoClass)

def failClass (result : Int) (m : LcmModule) (entries : List (Entry LcmResource)) : LoadResult :=
  failDevice result m (entries ++ [.release .cdev])

def lcminfoInit (k : LoadAnswers) : LoadResult :=
  let m : LcmModule := { lcminfoDevp := none, lcminfoClass := .null }
  -- `lcminfo_major` is 255, so the region has a static number
  let result := k.registerChrdevRegion.toInt
  let entries := acquired k.registerChrdevRegion.isNone .region
  if result < 0 then { ret := result, entries, statics := m }
  else
    let m := { m with lcminfoDevp := if k.kmallocDevp then some false else none }
    let entries := entries ++ acquired k.kmallocDevp .devp
    if m.lcminfoDevp = none then unregister (-ENOMEM) m entries
    else
      let m := { m with lcminfoDevp := some k.kmallocData }
      let entries := entries ++ acquired k.kmallocData .data
      if k.kmallocData = false then cleanup (-ENOMEM) m entries
      else
        -- `lcminfo_setup_cdev`
        let result := k.cdevAdd.toInt
        let entries := entries ++ acquired k.cdevAdd.isNone .cdev
        if result ≠ 0 then cleanup result m entries
        else
          let m := { m with lcminfoClass := Pointer.ofOutcome k.classCreate }
          let entries := entries ++ acquired k.classCreate.isNone .cls
          if m.lcminfoClass.isErr then failClass m.lcminfoClass.ptrErr m entries
          else
            let classDev := Pointer.ofOutcome k.deviceCreate
            let entries := entries ++ acquired k.deviceCreate.isNone .device
            if classDev.isErr then failDevice classDev.ptrErr m entries
            else { ret := 0, entries, statics := m }

def lcminfoExit (m : LcmModule) : List (Entry LcmResource) :=
  (if m.lcminfoClass ≠ .null then [.release .device] ++ classDestroy m.lcminfoClass else []) ++
  (match m.lcminfoDevp with
    | some data => [.release .cdev] ++ kfreeOf data .data ++ [.release .devp]
    | none => []) ++
  [.release .region]

/-! ## The module over its loads -/

/-- `loaded` is the load that the module is in memory from, with its statics.  The
ledger tells the resources of the loads apart. -/
structure Loader where
  loads : Nat
  loaded : Option (Nat × LcmModule)
  ledger : List (Entry (Nat × LcmResource))
  deriving DecidableEq, Repr

inductive LoaderAction
  | load (k : LoadAnswers)
  | unload
  deriving DecidableEq, Repr

/-- The output is what `lcminfo_init` returns; `lcminfo_exit` returns nothing. -/
def loader : Machine Loader LoaderAction (Option Int) where
  step s
    | .load k =>
      if s.loaded = none then
        let r := lcminfoInit k
        some ({ loads := s.loads + 1
                loaded := if r.ret = 0 then some (s.loads, r.statics) else none
                ledger := s.ledger ++ Ledger.tag s.loads r.entries }, some r.ret)
      else none
    | .unload =>
      match s.loaded with
      | some (n, m) =>
        some ({ s with loaded := none, ledger := s.ledger ++ Ledger.tag n (lcminfoExit m) }, none)
      | none => none

def noLoads : Loader := { loads := 0, loaded := none, ledger := [] }

/-- Nothing is released that is not held, the structure is not freed under its
cdev, and without a loaded module nothing is held and all that was acquired was
released once. -/
structure Accounted (s : Loader) : Prop where
  fair : Ledger.Fair (Ledger.insideTagged LcmResource.inside) Ledger.nothing s.ledger
  returned : s.loaded = none → ∀ r, Ledger.post s.ledger Ledger.nothing r = false ∧
    s.ledger.count (.release r) = s.ledger.count (.acquire r)

/-- The load fails before it holds more than the region, or not at all. -/
def CleanLoad (k : LoadAnswers) : Prop :=
  k.registerChrdevRegion ≠ none ∨ k.kmallocDevp = false ∨
    (k.kmallocData = true ∧ k.cdevAdd = none ∧ k.classCreate = none ∧ k.deviceCreate = none)

/-! ## One load -/

/-- The six acquisitions. -/
def allAcquired : List (Entry LcmResource) :=
  [.acquire .region, .acquire .devp, .acquire .data, .acquire .cdev, .acquire .cls,
    .acquire .device]

/-- The statics of a loaded module. -/
def allSet : LcmModule := { lcminfoDevp := some true, lcminfoClass := .object }

/-- Every load, by the call that fails. -/
theorem lcminfoInit_cases (k : LoadAnswers) :
    (k.registerChrdevRegion ≠ none ∧ (lcminfoInit k).ret ≠ 0 ∧ (lcminfoInit k).entries = []) ∨
    (k.registerChrdevRegion = none ∧ k.kmallocDevp = false ∧ (lcminfoInit k).ret ≠ 0 ∧
      (lcminfoInit k).entries = [.acquire .region, .release .region]) ∨
    (k.registerChrdevRegion = none ∧ k.kmallocDevp = true ∧ (lcminfoInit k).ret ≠ 0 ∧
      (k.kmallocData = false ∧
        (lcminfoInit k).entries = [.acquire .region, .acquire .devp, .release .devp] ∨
      k.cdevAdd ≠ none ∧
        (lcminfoInit k).entries =
          [.acquire .region, .acquire .devp, .acquire .data, .release .devp] ∨
      k.classCreate ≠ none ∧
        (lcminfoInit k).entries =
          [.acquire .region, .acquire .devp, .acquire .data, .acquire .cdev, .release .cdev,
            .release .region, .release .devp] ∨
      k.deviceCreate ≠ none ∧
        (lcminfoInit k).entries =
          [.acquire .region, .acquire .devp, .acquire .data, .acquire .cdev, .acquire .cls,
            .release .cls, .release .region, .release .devp])) ∨
    (k.registerChrdevRegion = none ∧ k.kmallocDevp = true ∧ k.kmallocData = true ∧
      k.cdevAdd = none ∧ k.classCreate = none ∧ k.deviceCreate = none ∧
      lcminfoInit k = { ret := 0, entries := allAcquired, statics := allSet }) := by
  obtain ⟨region, devp, data, cdev, cls, device⟩ := k
  cases region with
  | some e => simp [lcminfoInit, acquired]
  | none =>
    cases devp with
    | false => simp [lcminfoInit, acquired, unregister, cleanup, kfreeOf, ENOMEM]
    | true =>
      cases data with
      | false => simp [lcminfoInit, acquired, cleanup, kfreeOf, ENOMEM]
      | true =>
        cases cdev with
        | some e => simp [lcminfoInit, acquired, cleanup, kfreeOf]
        | none =>
          cases cls with
          | some e =>
            simp [lcminfoInit, acquired, failClass, failDevice, unregister, cleanup, kfreeOf,
              classDestroy]
          | none =>
            cases device with
            | some e =>
              simp [lcminfoInit, acquired, failDevice, unregister, cleanup, kfreeOf, classDestroy]
            | none =>
              simp [lcminfoInit, acquired, Pointer.ofOutcome, Pointer.isErr, allAcquired, allSet]

/-- The load is fair on its own and returns everything when it fails. -/
def Settled (r : LoadResult) : Prop :=
  Ledger.Fair LcmResource.inside Ledger.nothing r.entries ∧
    (r.ret ≠ 0 → ∀ x, Ledger.post r.entries Ledger.nothing x = false)

theorem allAcquired_fair :
    Ledger.Fair LcmResource.inside Ledger.nothing allAcquired := by decide

theorem post_allAcquired (x : LcmResource) :
    Ledger.post allAcquired Ledger.nothing x = true := by
  cases x <;> rfl

/-- What a failed load leaves behind. -/
theorem not_settled_of_held {r : LoadResult} (x : LcmResource) (hret : r.ret ≠ 0)
    (hx : Ledger.post r.entries Ledger.nothing x = true) : ¬ Settled r := by
  intro h
  rw [h.2 hret x] at hx
  cases hx

theorem settled_iff (k : LoadAnswers) : Settled (lcminfoInit k) ↔ CleanLoad k := by
  rcases lcminfoInit_cases k with ⟨hregion, -, hentries⟩ | ⟨hregion, hdevp, -, hentries⟩ |
    ⟨hregion, hdevp, hret, hlate⟩ | ⟨hregion, -, hdata, hcdev, hclass, hdevice, hinit⟩
  · refine ⟨fun _ => Or.inl hregion, fun _ => ?_⟩
    rw [Settled, hentries]
    exact ⟨trivial, fun _ _ => rfl⟩
  · refine ⟨fun _ => Or.inr (Or.inl hdevp), fun _ => ?_⟩
    rw [Settled, hentries]
    refine ⟨by decide, fun _ x => ?_⟩
    cases x <;> rfl
  · -- the structure was allocated, so the failure comes too late
    have hlost : ¬ Settled (lcminfoInit k) := by
      rcases hlate with ⟨-, hentries⟩ | ⟨-, hentries⟩ | ⟨-, hentries⟩ | ⟨-, hentries⟩
      · exact not_settled_of_held .region hret (by rw [hentries]; rfl)
      · exact not_settled_of_held .region hret (by rw [hentries]; rfl)
      · exact not_settled_of_held .data hret (by rw [hentries]; rfl)
      · exact not_settled_of_held .data hret (by rw [hentries]; rfl)
    refine ⟨fun h => absurd h hlost, fun hclean => ?_⟩
    rcases hclean with h | h | ⟨hdata, hcdev, hclass, hdevice⟩
    · exact absurd hregion h
    · rw [hdevp] at h
      cases h
    · simp [hdata, hcdev, hclass, hdevice] at hlate
  · refine ⟨fun _ => Or.inr (Or.inr ⟨hdata, hcdev, hclass, hdevice⟩), fun _ => ?_⟩
    rw [Settled, hinit]
    exact ⟨allAcquired_fair, fun hret => absurd rfl hret⟩

/-! ## Runs -/

/-- The loaded module holds all of its own resources, and nothing else is held. -/
structure Consistent (s : Loader) : Prop where
  fair : Ledger.Fair (Ledger.insideTagged LcmResource.inside) Ledger.nothing s.ledger
  held : ∀ n x, Ledger.post s.ledger Ledger.nothing (n, x) =
    decide (s.loaded.map Prod.fst = some n)
  statics : ∀ n m, s.loaded = some (n, m) → m = allSet

theorem consistent_noLoads : Consistent noLoads :=
  ⟨trivial, fun _ _ => rfl, fun _ _ h => by cases h⟩

theorem Consistent.accounted {s : Loader} (hs : Consistent s) : Accounted s := by
  refine ⟨hs.fair, fun hnone r => ?_⟩
  have hfree : Ledger.post s.ledger Ledger.nothing r = false := by
    rw [hs.held r.1 r.2, hnone]
    rfl
  exact ⟨hfree, Ledger.count_release _ hs.fair hfree⟩

/-- The state after a load. -/
def loadedState (s : Loader) (k : LoadAnswers) : Loader where
  loads := s.loads + 1
  loaded := if (lcminfoInit k).ret = 0 then some (s.loads, (lcminfoInit k).statics) else none
  ledger := s.ledger ++ Ledger.tag s.loads (lcminfoInit k).entries

theorem load_step_iff {s t : Loader} {k : LoadAnswers} {o : Option Int} :
    loader.step s (.load k) = some (t, o) ↔
      s.loaded = none ∧ t = loadedState s k ∧ o = some (lcminfoInit k).ret := by
  simp only [loader, Option.ite_none_right_eq_some, Option.some.injEq, Prod.mk.injEq]
  exact and_congr_right fun _ => and_congr eq_comm eq_comm

theorem unload_step_iff {s t : Loader} {o : Option Int} :
    loader.step s .unload = some (t, o) ↔
      ∃ n m, s.loaded = some (n, m) ∧ o = none ∧
        t = { s with loaded := none, ledger := s.ledger ++ Ledger.tag n (lcminfoExit m) } := by
  cases hloaded : s.loaded with
  | none => simp [loader, hloaded]
  | some p =>
    obtain ⟨n, m⟩ := p
    simp only [loader, hloaded, Option.some.injEq, Prod.mk.injEq]
    constructor
    · intro h
      exact ⟨n, m, ⟨rfl, rfl⟩, h.2.symm, h.1.symm⟩
    · intro h
      obtain ⟨n', m', ⟨rfl, rfl⟩, rfl, rfl⟩ := h
      exact ⟨rfl, rfl⟩

/-- Without a loaded module every round starts with nothing. -/
theorem Consistent.round {s : Loader} (hs : Consistent s) (hnone : s.loaded = none) (n : Nat) :
    (fun x => Ledger.post s.ledger Ledger.nothing (n, x)) = Ledger.nothing := by
  funext x
  rw [hs.held, hnone]
  rfl

theorem loadedState_fair {s : Loader} {k : LoadAnswers} (hs : Consistent s)
    (hnone : s.loaded = none) :
    Ledger.Fair (Ledger.insideTagged LcmResource.inside) Ledger.nothing (loadedState s k).ledger ↔
      Ledger.Fair LcmResource.inside Ledger.nothing (lcminfoInit k).entries := by
  rw [loadedState, Ledger.fair_append, Ledger.fair_tag, hs.round hnone]
  exact and_iff_right hs.fair

theorem loadedState_post {s : Loader} {k : LoadAnswers} (hs : Consistent s)
    (hnone : s.loaded = none) (n : Nat) (x : LcmResource) :
    Ledger.post (loadedState s k).ledger Ledger.nothing (n, x) =
      (decide (n = s.loads) && Ledger.post (lcminfoInit k).entries Ledger.nothing x) := by
  rw [loadedState, Ledger.post_append, Ledger.post_tag, hs.round hnone]
  by_cases hn : n = s.loads
  · simp [hn]
  · rw [if_neg hn, hs.held, hnone]
    simp [hn]

/-- A load is accounted for exactly when it settles. -/
theorem loadedState_accounted_iff {s : Loader} {k : LoadAnswers} (hs : Consistent s)
    (hnone : s.loaded = none) : Accounted (loadedState s k) ↔ Settled (lcminfoInit k) := by
  constructor
  · intro h
    refine ⟨(loadedState_fair hs hnone).mp h.fair, fun hret x => ?_⟩
    have hfree := (h.returned (if_neg hret) (s.loads, x)).1
    rw [loadedState_post hs hnone] at hfree
    simpa using hfree
  · intro h
    have hfair := (loadedState_fair hs hnone).mpr h.1
    refine ⟨hfair, fun hgone r => ?_⟩
    have hret : (lcminfoInit k).ret ≠ 0 := by
      intro hret
      rw [loadedState, if_pos hret] at hgone
      cases hgone
    have hfree : Ledger.post (loadedState s k).ledger Ledger.nothing r = false := by
      rw [loadedState_post hs hnone r.1 r.2, h.2 hret, Bool.and_false]
    exact ⟨hfree, Ledger.count_release _ hfair hfree⟩

theorem lcminfoInit_success {k : LoadAnswers} (hret : (lcminfoInit k).ret = 0) :
    lcminfoInit k = { ret := 0, entries := allAcquired, statics := allSet } := by
  rcases lcminfoInit_cases k with ⟨-, hfail, -⟩ | ⟨-, -, hfail, -⟩ | ⟨-, -, hfail, -⟩ |
    ⟨-, -, -, -, -, -, hinit⟩
  · exact absurd hret hfail
  · exact absurd hret hfail
  · exact absurd hret hfail
  · exact hinit

theorem loadedState_consistent {s : Loader} {k : LoadAnswers} (hs : Consistent s)
    (hnone : s.loaded = none) (h : Settled (lcminfoInit k)) : Consistent (loadedState s k) := by
  refine ⟨(loadedState_fair hs hnone).mpr h.1, fun n x => ?_, fun n m hloaded => ?_⟩
  · rw [loadedState_post hs hnone]
    by_cases hret : (lcminfoInit k).ret = 0
    · rw [lcminfoInit_success hret, post_allAcquired, Bool.and_true]
      simp [loadedState, hret, eq_comm]
    · rw [h.2 hret, Bool.and_false]
      simp [loadedState, hret]
  · by_cases hret : (lcminfoInit k).ret = 0
    · simp only [loadedState, hret, if_true, Option.some.injEq, Prod.mk.injEq] at hloaded
      rw [← hloaded.2, lcminfoInit_success hret]
    · simp [loadedState, hret] at hloaded

/-- An unload gives everything back. -/
theorem unloaded_consistent {s : Loader} {n : Nat} (hs : Consistent s)
    (hloaded : s.loaded = some (n, allSet)) :
    Consistent { s with
      loaded := none
      ledger := s.ledger ++ Ledger.tag n (lcminfoExit allSet) } := by
  have hall : (fun x => Ledger.post s.ledger Ledger.nothing (n, x)) = fun _ => true := by
    funext x
    rw [hs.held, hloaded]
    simp
  have hexit : Ledger.Fair LcmResource.inside (fun _ => true) (lcminfoExit allSet) := by decide
  have hback : ∀ x, Ledger.post (lcminfoExit allSet) (fun _ => true) x = false := by
    intro x
    cases x <;> rfl
  refine ⟨?_, fun m x => ?_, fun _ _ h => by cases h⟩
  · rw [Ledger.fair_append, Ledger.fair_tag, hall]
    exact ⟨hs.fair, hexit⟩
  · rw [Ledger.post_append, Ledger.post_tag, hall]
    by_cases hm : m = n
    · rw [if_pos hm, hback]
      rfl
    · rw [if_neg hm, hs.held, hloaded]
      simp [Ne.symm hm]

/-- The loads that start from a module that is not in memory are clean. -/
def CleanStep (s : Loader) : LoaderAction → Prop
  | .load k => s.loaded = none → CleanLoad k
  | .unload => True

theorem accounted_step_iff {s : Loader} {a : LoaderAction} (hs : Consistent s) :
    (∀ t o, loader.step s a = some (t, o) → Accounted t) ↔ CleanStep s a := by
  cases a with
  | load k =>
    constructor
    · intro h hnone
      have hacc := h _ _ (load_step_iff.mpr ⟨hnone, rfl, rfl⟩)
      exact (settled_iff k).mp ((loadedState_accounted_iff hs hnone).mp hacc)
    · intro h t o hstep
      obtain ⟨hnone, rfl, -⟩ := load_step_iff.mp hstep
      exact (loadedState_accounted_iff hs hnone).mpr ((settled_iff k).mpr (h hnone))
  | unload =>
    refine ⟨fun _ => trivial, fun _ t o hstep => ?_⟩
    obtain ⟨n, m, hloaded, -, rfl⟩ := unload_step_iff.mp hstep
    obtain rfl := hs.statics n m hloaded
    exact (unloaded_consistent hs hloaded).accounted

theorem consistent_step {s t : Loader} {a : LoaderAction} {o : Option Int} (hs : Consistent s)
    (ha : CleanStep s a) (h : loader.step s a = some (t, o)) : Consistent t := by
  cases a with
  | load k =>
    obtain ⟨hnone, rfl, -⟩ := load_step_iff.mp h
    exact loadedState_consistent hs hnone ((settled_iff k).mpr (ha hnone))
  | unload =>
    obtain ⟨n, m, hloaded, -, rfl⟩ := unload_step_iff.mp h
    obtain rfl := hs.statics n m hloaded
    exact unloaded_consistent hs hloaded

/-- In every sequence of loads and unloads, the resources are accounted for in
every state exactly when each load that fails does so in the registration of the
region or in the first allocation. -/
theorem accounted_throughout_iff (as : List LoaderAction) :
    loader.AllStates Accounted noLoads as ↔ loader.AllSteps CleanStep noLoads as := by
  rw [Machine.allStates_iff_steps consistent_noLoads.accounted]
  exact Machine.allSteps_iff_of_invariant (I := Consistent) (fun _ _ hs => accounted_step_iff hs)
    (fun _ _ _ _ hs ha hstep => consistent_step hs ha hstep) consistent_noLoads as

/-- Only the allocation of the data buffer fails. -/
def dataFails : LoadAnswers where
  registerChrdevRegion := none
  kmallocDevp := true
  kmallocData := false
  cdevAdd := none
  classCreate := none
  deviceCreate := none

/-- The failed load keeps the region. -/
theorem region_leaked : ¬ loader.AllStates Accounted noLoads [.load dataFails] := by
  intro h
  have hstep : loader.step noLoads (.load dataFails) =
      some (loadedState noLoads dataFails, some (-ENOMEM)) := rfl
  have hacc : Accounted (loadedState noLoads dataFails) := (h.2 _ _ hstep).head
  have hfree := (hacc.returned rfl (0, .region)).1
  have hheld : Ledger.post (loadedState noLoads dataFails).ledger Ledger.nothing (0, .region) =
      true := by decide
  rw [hheld] at hfree
  cases hfree

end Load
end LcmInfo
end AtomDrivers
