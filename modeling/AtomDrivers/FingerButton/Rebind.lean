/-
Binding the button again.

`node` is a static cursor: each probe goes on searching the device tree behind the
node that the last one found.  `fingerbutton_remove` gives nothing back, so the
handler stays installed.  With one matching node every second search finds nothing,
and the others meet the handler of the first probe.
-/
import AtomDrivers.FingerButton.Irq
import AtomDrivers.Linux.Errno
import Mathlib.Data.List.Basic

namespace AtomDrivers
namespace FingerButton

open Linux

/-- `irq` is what the node's interrupt is mapped to. -/
structure TreeNode where
  compatible : String
  irq : Nat
  deriving DecidableEq, Repr

def TreeNode.fingerbuttonOfMatch (n : TreeNode) : Bool := n.compatible = "mediatek,fingerbutton"

/-- The nodes in the order of a search.  One of them matches, and its interrupt is
a valid one. -/
structure DeviceTree where
  nodes : List TreeNode
  target : Nat
  fingerbutton : TreeNode
  found : nodes[target]? = some fingerbutton
  valid : fingerbutton.irq ≠ 0
  only : ∀ i n, nodes[i]? = some n → (n.fingerbuttonOfMatch = true ↔ i = target)

namespace DeviceTree

variable (tree : DeviceTree)

/-- The first matching node at or behind a place. -/
def firstFrom (start : Nat) : Option Nat :=
  ((tree.nodes.drop start).findIdx? TreeNode.fingerbuttonOfMatch).map (start + ·)

/-- The kernel's `of_find_matching_node`, strictly behind `from`. -/
def ofFindMatchingNode (node : Option Nat) : Option Nat :=
  match node with
  | none => tree.firstFrom 0
  | some i => tree.firstFrom (i + 1)

/-- The kernel's `irq_of_parse_and_map`, which maps no node to 0. -/
def irqOfParseAndMap (node : Option Nat) : Nat :=
  match node.bind fun i => tree.nodes[i]? with
  | some n => n.irq
  | none => 0

end DeviceTree

/-- The static variables, the interrupts with an installed handler, and whether the
driver is bound. -/
structure Driver where
  node : Option Nat
  fingerbuttonIrq : Nat
  installed : List Nat
  bound : Bool
  button : Button
  deriving DecidableEq, Repr

section Driver

variable (tree : DeviceTree) (noIrq : Int)

/-- `request_irq` without `IRQF_SHARED`; `noIrq` is its answer for interrupt 0. -/
def requestIrq (irq : Nat) (installed : List Nat) : Int :=
  if irq ∈ installed then -EBUSY else if irq = 0 then noIrq else 0

def fingerbuttonDriverProbe (s : Driver) : Int × Driver :=
  let node := tree.ofFindMatchingNode s.node
  let irq := tree.irqOfParseAndMap node
  let ret := requestIrq noIrq irq s.installed
  let (button, ret) := fingerbuttonProbe ret s.button
  (ret, { s with
    node
    fingerbuttonIrq := irq
    installed := if ret = 0 then irq :: s.installed else s.installed
    bound := decide (ret = 0)
    button })

/-- It logs its name. -/
def fingerbuttonRemove (s : Driver) : Driver := s

inductive DriverAction
  | probe
  | remove
  | button (a : ButtonAction)
  deriving DecidableEq, Repr

/-- The output is the value the probe returns. -/
def driver : Machine Driver DriverAction (Option Int) where
  step s
    | .probe =>
      if s.bound then none
      else
        let (ret, t) := fingerbuttonDriverProbe tree noIrq s
        some (t, some ret)
    | .remove => if s.bound then some ({ fingerbuttonRemove s with bound := false }, none) else none
    | .button a => (button.step s.button a).map fun (button, _) => ({ s with button }, none)

/-- The module before its first probe. -/
def fresh : Driver :=
  { node := none, fingerbuttonIrq := 0, installed := [], bound := false, button := unbound }

/-- A probe finds the node and its interrupt and returns 0, and a removal leaves no
handler and no pending work item. -/
def BindStep (s : Driver) (a : DriverAction) : Prop :=
  ∀ t o, (driver tree noIrq).step s a = some (t, o) →
    (a = .probe → t.node = some tree.target ∧ t.fingerbuttonIrq = tree.fingerbutton.irq ∧
      o = some 0) ∧
    (a = .remove → t.installed = [] ∧ t.button.irqWork = false)

end Driver

/-! ## The search -/

namespace DeviceTree

variable {tree : DeviceTree}

theorem fingerbutton_matches : tree.fingerbutton.fingerbuttonOfMatch = true :=
  (tree.only tree.target tree.fingerbutton tree.found).mpr rfl

theorem find_first : tree.ofFindMatchingNode none = some tree.target := by
  have hlt : tree.target < tree.nodes.length := (List.getElem?_eq_some_iff.mp tree.found).1
  have hget : tree.nodes[tree.target] = tree.fingerbutton :=
    (List.getElem?_eq_some_iff.mp tree.found).2
  have hidx : tree.nodes.findIdx? TreeNode.fingerbuttonOfMatch = some tree.target := by
    rw [List.findIdx?_eq_some_iff_getElem]
    refine ⟨hlt, by rw [hget]; exact fingerbutton_matches, fun j hj hmatch => ?_⟩
    have hj' : j < tree.nodes.length := by omega
    have heq := (tree.only j _ (List.getElem?_eq_getElem hj')).mp hmatch
    omega
  simp [ofFindMatchingNode, firstFrom, hidx]

/-- Behind the matching node there is no other. -/
theorem find_next : tree.ofFindMatchingNode (some tree.target) = none := by
  have hidx : (tree.nodes.drop (tree.target + 1)).findIdx? TreeNode.fingerbuttonOfMatch = none := by
    rw [List.findIdx?_eq_none_iff]
    intro n hn
    obtain ⟨i, hi⟩ := List.mem_iff_getElem?.mp hn
    rw [List.getElem?_drop] at hi
    by_contra hmatch
    have heq := (tree.only _ n hi).mp (by simpa using hmatch)
    omega
  simp [ofFindMatchingNode, firstFrom, hidx]

theorem irq_target : tree.irqOfParseAndMap (some tree.target) = tree.fingerbutton.irq := by
  simp [irqOfParseAndMap, tree.found]

end DeviceTree

/-! ## Probes -/

section Probes

variable {tree : DeviceTree} {noIrq : Int} {s : Driver}

/-- With no handler installed the first search leads to a bound driver. -/
theorem probe_first (hnode : s.node = none) (hfree : s.installed = []) :
    fingerbuttonDriverProbe tree noIrq s =
      (0, { s with
        node := some tree.target
        fingerbuttonIrq := tree.fingerbutton.irq
        installed := [tree.fingerbutton.irq]
        bound := true
        button := (fingerbuttonProbe 0 s.button).1 }) := by
  have hret : requestIrq noIrq tree.fingerbutton.irq [] = 0 := by
    simp [requestIrq, tree.valid]
  simp [fingerbuttonDriverProbe, hnode, DeviceTree.find_first, DeviceTree.irq_target, hret, hfree,
    fingerbuttonProbe]

/-- Behind the node the search finds no interrupt. -/
theorem probe_second (hnode : s.node = some tree.target) :
    (fingerbuttonDriverProbe tree noIrq s).2.node = none := by
  simp [fingerbuttonDriverProbe, hnode, DeviceTree.find_next]

/-- From the start it meets the handler of the first probe. -/
theorem probe_third (hnode : s.node = none) (hbusy : tree.fingerbutton.irq ∈ s.installed) :
    (fingerbuttonDriverProbe tree noIrq s).1 = -EBUSY ∧
      (fingerbuttonDriverProbe tree noIrq s).2.node = some tree.target := by
  have hret : requestIrq noIrq tree.fingerbutton.irq s.installed = -EBUSY := by
    simp [requestIrq, hbusy]
  simp [fingerbuttonDriverProbe, hnode, DeviceTree.find_first, DeviceTree.irq_target, hret,
    fingerbuttonProbe, EBUSY]

end Probes

/-! ## Steps -/

section Steps

variable {tree : DeviceTree} {noIrq : Int} {s t : Driver} {o : Option Int}

theorem probe_step_iff :
    (driver tree noIrq).step s .probe = some (t, o) ↔
      s.bound = false ∧ t = (fingerbuttonDriverProbe tree noIrq s).2 ∧
        o = some (fingerbuttonDriverProbe tree noIrq s).1 := by
  simp only [driver, Option.ite_none_left_eq_some, Bool.not_eq_true, Option.some.injEq,
    Prod.mk.injEq]
  exact and_congr_right fun _ => and_congr eq_comm eq_comm

theorem remove_step_iff :
    (driver tree noIrq).step s .remove = some (t, o) ↔
      s.bound = true ∧ t = { s with bound := false } ∧ o = none := by
  simp only [driver, fingerbuttonRemove, Option.ite_none_right_eq_some, Option.some.injEq,
    Prod.mk.injEq]
  exact and_congr_right fun _ => and_congr eq_comm eq_comm

theorem button_step_fields {a : ButtonAction}
    (h : (driver tree noIrq).step s (.button a) = some (t, o)) :
    t = { s with button := t.button } := by
  simp only [driver, Option.map_eq_some_iff, Prod.exists, Prod.mk.injEq] at h
  obtain ⟨b, -, -, rfl, -⟩ := h
  rfl

/-! ## The first binding -/

/-- Before its first probe, or bound by it. -/
def FirstBinding (tree : DeviceTree) (s : Driver) : Prop :=
  (s.bound = false ∧ s.node = none ∧ s.installed = []) ∨
    (s.bound = true ∧ s.installed = [tree.fingerbutton.irq])

/-- No bound driver is removed. -/
def NeverUnbound (s : Driver) (a : DriverAction) : Prop := s.bound = true → a ≠ .remove

theorem bindStep_iff {a : DriverAction} (hs : FirstBinding tree s) :
    BindStep tree noIrq s a ↔ NeverUnbound s a := by
  cases a with
  | probe =>
    refine iff_of_true (fun t o h => ?_) fun _ => by simp
    obtain ⟨hunbound, rfl, rfl⟩ := probe_step_iff.mp h
    rcases hs with ⟨-, hnode, hfree⟩ | ⟨hbound, -⟩
    · rw [probe_first hnode hfree]
      exact ⟨fun _ => ⟨rfl, rfl, rfl⟩, fun hremove => by cases hremove⟩
    · rw [hbound] at hunbound
      cases hunbound
  | remove =>
    constructor
    · intro hstep hbound _
      have hfree := ((hstep _ _ (remove_step_iff.mpr ⟨hbound, rfl, rfl⟩)).2 rfl).1
      rcases hs with ⟨hunbound, -⟩ | ⟨-, hinstalled⟩
      · rw [hbound] at hunbound
        cases hunbound
      · rw [hinstalled] at hfree
        cases hfree
    · intro hnever t o h
      exact absurd rfl (hnever (remove_step_iff.mp h).1)
  | button a =>
    exact iff_of_true (fun t o _ => ⟨by simp, by simp⟩) fun _ => by simp

theorem firstBinding_step {a : DriverAction} (hs : FirstBinding tree s) (ha : NeverUnbound s a)
    (h : (driver tree noIrq).step s a = some (t, o)) : FirstBinding tree t := by
  cases a with
  | probe =>
    obtain ⟨hunbound, rfl, -⟩ := probe_step_iff.mp h
    rcases hs with ⟨-, hnode, hfree⟩ | ⟨hbound, -⟩
    · rw [probe_first hnode hfree]
      exact Or.inr ⟨rfl, rfl⟩
    · rw [hbound] at hunbound
      cases hunbound
  | remove => exact absurd rfl (ha (remove_step_iff.mp h).1)
  | button a =>
    rw [button_step_fields h]
    exact hs

/-- In every run, the probes find the node and succeed and the removals give
everything back exactly when no removal takes place. -/
theorem bindings_iff (tree : DeviceTree) (noIrq : Int) (as : List DriverAction) :
    (driver tree noIrq).AllSteps (BindStep tree noIrq) fresh as ↔
      (driver tree noIrq).AllSteps NeverUnbound fresh as :=
  Machine.allSteps_iff_of_invariant (I := FirstBinding tree) (fun _ _ hs => bindStep_iff hs)
    (fun _ _ _ _ hs ha hstep => firstBinding_step hs ha hstep) (Or.inl ⟨rfl, rfl, rfl⟩) as

/-! ## Later probes -/

/-- The cursor is at the node or at the start, and behind a first probe the handler
stays. -/
structure Cycled (tree : DeviceTree) (s : Driver) : Prop where
  node : s.node = none ∨ s.node = some tree.target
  free : s.installed = [] → s.node = none
  busy : s.installed ≠ [] → tree.fingerbutton.irq ∈ s.installed

theorem cycled_probe (hs : Cycled tree s) :
    Cycled tree (fingerbuttonDriverProbe tree noIrq s).2 := by
  by_cases hfree : s.installed = []
  · rw [probe_first (hs.free hfree) hfree]
    exact ⟨Or.inr rfl, by simp, fun _ => by simp⟩
  · have hbusy : tree.fingerbutton.irq ∈ s.installed := hs.busy hfree
    have hkept : tree.fingerbutton.irq ∈ (fingerbuttonDriverProbe tree noIrq s).2.installed := by
      simp only [fingerbuttonDriverProbe]
      split
      · exact List.mem_cons_of_mem _ hbusy
      · exact hbusy
    refine ⟨?_, fun h => ?_, fun _ => hkept⟩
    · rcases hs.node with hnode | hnode
      · exact Or.inr (probe_third hnode hbusy).2
      · exact Or.inl (probe_second hnode)
    · rw [h] at hkept
      cases hkept

theorem cycled_step {a : DriverAction} (hs : Cycled tree s)
    (h : (driver tree noIrq).step s a = some (t, o)) : Cycled tree t := by
  cases a with
  | probe =>
    obtain ⟨-, rfl, -⟩ := probe_step_iff.mp h
    exact cycled_probe hs
  | remove =>
    obtain ⟨-, rfl, -⟩ := remove_step_iff.mp h
    exact ⟨hs.node, hs.free, hs.busy⟩
  | button a =>
    rw [button_step_fields h]
    exact ⟨hs.node, hs.free, hs.busy⟩

/-- Behind the first probe no other finds the node and succeeds. -/
theorem later_probe_fails (hr : (driver tree noIrq).Reachable fresh s) (hbusy : s.installed ≠ [])
    (h : (driver tree noIrq).step s .probe = some (t, o)) :
    ¬ (t.node = some tree.target ∧ o = some 0) := by
  have hs : Cycled tree s := Machine.Preserves.reachable
    (fun _ _ _ _ hs hstep => cycled_step hs hstep)
    ⟨Or.inl rfl, fun _ => rfl, fun h => absurd rfl h⟩ hr
  obtain ⟨-, rfl, rfl⟩ := probe_step_iff.mp h
  intro hbound
  rcases hs.node with hnode | hnode
  · rw [(probe_third hnode (hs.busy hbusy)).1] at hbound
    cases hbound.2
  · rw [probe_second hnode] at hbound
    cases hbound.1

end Steps

/-- A device tree with the button alone. -/
def oneNode : DeviceTree where
  nodes := [{ compatible := "mediatek,fingerbutton", irq := 67 }]
  target := 0
  fingerbutton := { compatible := "mediatek,fingerbutton", irq := 67 }
  found := rfl
  valid := by decide
  only := by
    intro i n h
    cases i with
    | zero =>
      cases h
      exact iff_of_true rfl rfl
    | succ i => cases h

/-- One cycle leaves the handler installed. -/
theorem handler_left : ¬ (driver oneNode (-EINVAL)).AllSteps (BindStep oneNode (-EINVAL)) fresh
    [.probe, .remove] := by
  intro h
  have hprobe : (driver oneNode (-EINVAL)).step fresh .probe =
      some ((fingerbuttonDriverProbe oneNode (-EINVAL) fresh).2, some 0) := by
    rw [probe_step_iff]
    exact ⟨rfl, rfl, by rw [probe_first rfl rfl]⟩
  have hremove := (h.2 _ _ hprobe).1
  have hbound : (fingerbuttonDriverProbe oneNode (-EINVAL) fresh).2.bound = true := by
    rw [probe_first rfl rfl]
  have hfree := ((hremove _ _ (remove_step_iff.mpr ⟨hbound, rfl, rfl⟩)).2 rfl).1
  rw [probe_first rfl rfl] at hfree
  cases hfree

end FingerButton
end AtomDrivers
