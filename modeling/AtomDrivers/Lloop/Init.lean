/-
Loading and unloading the module.

`lloop_init` acquires what the devices need and on an error goes back through labels
that give it up again.  Whatever fails, all of it is given up, and `lloop_exit` gives up
all that a successful `lloop_init` holds, each thing before what it needs.  The labels
do not keep to that order: they free the devices while the ioctls that use them are
still registered.  Only where there are no `disks` do these ioctls use nothing:
`lloop_ioctl` leaves with `-ENODEV`.
-/
import AtomDrivers.Linux.Errno
import AtomDrivers.Machine.Ledger
import Mathlib.Data.List.Nodup

namespace AtomDrivers
namespace Lloop

/-- `MAX_LOOP_DEFAULT` -/
def maxLoopDefault : Int := 16

/-- The number of devices that the parameter `max_loop` asks for. -/
def loopCount (maxLoop : Int) : Nat :=
  if maxLoop < 1 ∨ maxLoop > 256 then maxLoopDefault.toNat else maxLoop.toNat

/-- `listed i` stands for the entry that `add_disk` makes for disk `i`. -/
inductive Resource
  | blkdev
  | iocontrol
  | loopDev
  | disks
  | disk (i : Nat)
  | queue (i : Nat)
  | listed (i : Nat)
  deriving DecidableEq, Repr

/-- What needs a resource: a listed disk its queue, its structure and its major, a disk
and a queue the arrays that keep them, and the ioctls all the devices, once `disks` has
been set. -/
def users (n : Nat) (disks : Bool) : Resource → List Resource
  | .blkdev => (List.range n).map .listed
  | .iocontrol => []
  | .loopDev => (if disks then [.iocontrol] else []) ++ (List.range n).map .queue
  | .disks => .iocontrol :: (List.range n).map .disk
  | .disk i => [.listed i]
  | .queue i => [.listed i]
  | .listed _ => []

/-- What the kernel answers to one `lloop_init`. -/
structure InitAnswers where
  registerBlkdev : Int
  iocontrolRegister : Bool
  loopDev : Bool
  disks : Bool
  allocDisk : Nat → Bool
  blkAllocQueue : Nat → Bool

/-- The return value, and what is acquired and released. -/
structure InitResult where
  ret : Int
  entries : List (Entry Resource)

/-- `for (i = 0; i < n; i++)` -/
def upTo (r : Nat → Resource) (n : Nat) : List Resource := (List.range n).map r

/-- `while (i--)` -/
def downFrom (r : Nat → Resource) (i : Nat) : List Resource := (List.range i).reverse.map r

/-- Nothing is registered under a magic of `NULL`. -/
def outMem1 (magic : Bool) (entries : List (Entry Resource)) : InitResult where
  ret := - Linux.ENOMEM
  entries := entries ++ [.release .blkdev] ++ if magic then [.release .iocontrol] else []

def outMem2 (entries : List (Entry Resource)) : InitResult :=
  outMem1 true (entries ++ [.release .loopDev])

def outMem3 (i : Nat) (entries : List (Entry Resource)) : InitResult :=
  outMem2 (entries ++ (downFrom .disk i).map .release ++ [.release .disks])

def outMem4 (n i : Nat) (entries : List (Entry Resource)) : InitResult :=
  outMem3 n (entries ++ (downFrom .queue i).map .release)

def lloopInit (maxLoop : Int) (k : InitAnswers) : InitResult :=
  let n := loopCount maxLoop
  if k.registerBlkdev < 0 then { ret := - Linux.EIO, entries := [] }
  else
    let entries := [Entry.acquire Resource.blkdev]
    if k.iocontrolRegister = false then outMem1 false entries
    else
      let entries := entries ++ [.acquire .iocontrol]
      if k.loopDev = false then outMem1 true entries
      else
        let entries := entries ++ [.acquire .loopDev]
        if k.disks = false then outMem2 entries
        else
          let i := Ledger.each k.allocDisk n 0
          let entries := entries ++ [.acquire .disks] ++ (upTo .disk i).map .acquire
          if i < n then outMem3 i entries
          else
            let i := Ledger.each k.blkAllocQueue n 0
            let entries := entries ++ (upTo .queue i).map .acquire
            if i < n then outMem4 n i entries
            else { ret := 0, entries := entries ++ (upTo .listed n).map .acquire }

/-- What one round of the loop in `lloop_exit` gives up. -/
def exitRound (i : Nat) : List Resource := [.listed i, .queue i, .disk i]

def lloopExit (n : Nat) : List Resource :=
  [.iocontrol] ++ (List.range n).flatMap exitRound ++ [.blkdev, .disks, .loopDev]

/-! ## What is taken -/

section Taken

variable {n : Nat} {maxLoop : Int} {k : InitAnswers}

/-- The four calls before the loops succeed. -/
def InitAnswers.Starts (k : InitAnswers) : Prop :=
  0 ≤ k.registerBlkdev ∧ k.iocontrolRegister = true ∧ k.loopDev = true ∧ k.disks = true

/-- Every call succeeds. -/
def InitAnswers.Succeeds (n : Nat) (k : InitAnswers) : Prop :=
  k.Starts ∧ ∀ i < n, k.allocDisk i = true ∧ k.blkAllocQueue i = true

/-- What `i` disks and `j` queues are taken after. -/
def taken (i j : Nat) : List Resource :=
  [.blkdev, .iocontrol, .loopDev, .disks] ++ upTo .disk i ++ upTo .queue j

def takenAll (n : Nat) : List Resource := taken n n ++ upTo .listed n

theorem mem_upTo {r : Nat → Resource} {x : Resource} : x ∈ upTo r n ↔ ∃ i < n, r i = x := by
  simp [upTo]

theorem upTo_nodup {r : Nat → Resource} (hinj : Function.Injective r) : (upTo r n).Nodup :=
  List.nodup_range.map hinj

theorem taken_nodup (i j : Nat) : (taken i j).Nodup := by
  have hdisk : (upTo .disk i).Nodup := upTo_nodup fun _ _ h => Resource.disk.inj h
  have hqueue : (upTo .queue j).Nodup := upTo_nodup fun _ _ h => Resource.queue.inj h
  refine List.Nodup.append (List.Nodup.append (by decide) hdisk ?_) hqueue ?_
  · intro x hx hx'
    obtain ⟨_, _, rfl⟩ := mem_upTo.mp hx'
    simp at hx
  · intro x hx hx'
    obtain ⟨_, _, rfl⟩ := mem_upTo.mp hx'
    simp [upTo] at hx

theorem takenAll_nodup (n : Nat) : (takenAll n).Nodup := by
  have hlisted : (upTo .listed n).Nodup := upTo_nodup fun _ _ h => Resource.listed.inj h
  refine (taken_nodup n n).append hlisted fun x hx hx' => ?_
  obtain ⟨_, _, rfl⟩ := mem_upTo.mp hx'
  simp [taken, upTo] at hx

end Taken

/-! ## What every call gives up -/

section Answers

variable {n : Nat} {maxLoop : Int} {k : InitAnswers}

theorem downFrom_perm (r : Nat → Resource) (i : Nat) : (downFrom r i).Perm (upTo r i) :=
  (List.reverse_perm (List.range i)).map r

/-- What the labels give up from the devices on. -/
def given (i j : Nat) : List Resource :=
  downFrom .queue j ++ downFrom .disk i ++ [.disks] ++ [.loopDev, .blkdev, .iocontrol]

theorem taken_perm_given (i j : Nat) : (taken i j).Perm (given i j) := by
  have hends : [Resource.blkdev, .iocontrol, .loopDev, .disks].Perm
      ([.disks] ++ [.loopDev, .blkdev, .iocontrol]) := by decide
  have hdisks := (downFrom_perm .disk i).symm
  have hqueues := (downFrom_perm .queue j).symm
  calc taken i j
      = [.blkdev, .iocontrol, .loopDev, .disks] ++ (upTo .disk i ++ upTo .queue j) := by
        rw [taken, List.append_assoc]
    _ |>.Perm ([.disks] ++ [.loopDev, .blkdev, .iocontrol] ++
          (downFrom .disk i ++ downFrom .queue j)) := hends.append (hdisks.append hqueues)
    _ |>.Perm (downFrom .queue j ++ downFrom .disk i ++
          ([.disks] ++ [.loopDev, .blkdev, .iocontrol])) :=
        List.perm_append_comm.trans (List.perm_append_comm.append_right _)
    _ = given i j := by
        rw [given, ← List.append_assoc]

theorem outMem1_ret (magic : Bool) (entries : List (Entry Resource)) :
    (outMem1 magic entries).ret ≠ 0 := by
  show - Linux.ENOMEM ≠ 0
  decide

@[simp] theorem upTo_zero (r : Nat → Resource) : upTo r 0 = [] := rfl

@[simp] theorem downFrom_zero (r : Nat → Resource) : downFrom r 0 = [] := rfl

/-- What an error before the loops has taken, and in which order it is given up. -/
def early : List (List Resource × List Resource) :=
  [([], []), ([.blkdev], [.blkdev]), ([.blkdev, .iocontrol], [.blkdev, .iocontrol]),
    ([.blkdev, .iocontrol, .loopDev], [.loopDev, .blkdev, .iocontrol])]

/-- All that `lloop_init` can do: succeed, fail before it has the disks, or fail with
them. -/
theorem lloopInit_cases (maxLoop : Int) (k : InitAnswers) :
    (k.Succeeds (loopCount maxLoop) ∧ lloopInit maxLoop k =
      { ret := 0, entries := (takenAll (loopCount maxLoop)).map .acquire }) ∨
    (¬ k.Starts ∧ (lloopInit maxLoop k).ret ≠ 0 ∧
      ∃ p ∈ early, (.loopDev ∈ p.1 → k.disks = false) ∧
        (lloopInit maxLoop k).entries = p.1.map .acquire ++ p.2.map .release) ∨
    (k.Starts ∧ ¬ k.Succeeds (loopCount maxLoop) ∧ (lloopInit maxLoop k).ret ≠ 0 ∧
      ∃ rs before : List Resource, rs.Nodup ∧ rs.Perm (before ++ [.loopDev, .blkdev, .iocontrol]) ∧
        Resource.iocontrol ∉ before ∧ (lloopInit maxLoop k).entries =
          rs.map .acquire ++
            (before ++ [Resource.loopDev, .blkdev, .iocontrol]).map .release) := by
  obtain ⟨n, hn⟩ : ∃ n, loopCount maxLoop = n := ⟨_, rfl⟩
  rw [hn]
  by_cases hmajor : k.registerBlkdev < 0
  · have hinit : lloopInit maxLoop k = { ret := - Linux.EIO, entries := [] } := by
      simp [lloopInit, hmajor]
    refine Or.inr (Or.inl
      ⟨fun h => by have := h.1; omega, ?_, ([], []), by simp [early], by simp, ?_⟩) <;> rw [hinit]
    · decide
    · rfl
  by_cases hmagic : k.iocontrolRegister = false
  · have hinit : lloopInit maxLoop k = outMem1 false [.acquire .blkdev] := by
      simp [lloopInit, hmajor, hmagic]
    refine Or.inr (Or.inl ⟨fun h => ?_, ?_, ([.blkdev], [.blkdev]), by simp [early],
      by simp, ?_⟩)
    · rw [h.2.1] at hmagic
      cases hmagic
    · rw [hinit]
      decide
    · rw [hinit]
      rfl
  by_cases hloop : k.loopDev = false
  · have hinit : lloopInit maxLoop k = outMem1 true [.acquire .blkdev, .acquire .iocontrol] := by
      simp [lloopInit, hmajor, hmagic, hloop]
    refine Or.inr (Or.inl ⟨fun h => ?_, ?_, ([.blkdev, .iocontrol], [.blkdev, .iocontrol]),
      by simp [early], by simp, ?_⟩)
    · rw [h.2.2.1] at hloop
      cases hloop
    · rw [hinit]
      decide
    · rw [hinit]
      rfl
  by_cases hdisks : k.disks = false
  · have hinit : lloopInit maxLoop k =
        outMem2 [.acquire .blkdev, .acquire .iocontrol, .acquire .loopDev] := by
      simp [lloopInit, hmajor, hmagic, hloop, hdisks]
    refine Or.inr (Or.inl ⟨fun h => ?_, ?_, ([.blkdev, .iocontrol, .loopDev],
      [.loopDev, .blkdev, .iocontrol]), by simp [early], fun _ => hdisks, ?_⟩)
    · rw [h.2.2.2] at hdisks
      cases hdisks
    · rw [hinit]
      decide
    · rw [hinit]
      rfl
  have hstarts : k.Starts :=
    ⟨by omega, by simpa using hmagic, by simpa using hloop, by simpa using hdisks⟩
  have hi := (Ledger.each_le k.allocDisk n 0).2
  have hdiskAll := Ledger.each_eq_iff k.allocDisk n 0
  obtain ⟨i, hi'⟩ : ∃ i, Ledger.each k.allocDisk n 0 = i := ⟨_, rfl⟩
  rw [hi'] at hi hdiskAll
  by_cases hless : i < n
  · have hinit : lloopInit maxLoop k = outMem3 i ((taken i 0).map .acquire) := by
      simp [lloopInit, hn, hmajor, hmagic, hloop, hdisks, hi', hless, taken]
    refine Or.inr (Or.inr ⟨hstarts, fun h => ?_, ?_, taken i 0, downFrom .disk i ++ [.disks],
      taken_nodup i 0, ?_, ?_, ?_⟩)
    · have hall := hdiskAll.mpr fun j _ hj => (h.2 j (by omega)).1
      omega
    · rw [hinit]
      exact outMem1_ret true _
    · exact taken_perm_given i 0
    · simp [downFrom]
    · rw [hinit]
      simp [outMem3, outMem2, outMem1]
  have hi : i = n := by omega
  subst hi
  have hj := (Ledger.each_le k.blkAllocQueue i 0).2
  have hqueueAll := Ledger.each_eq_iff k.blkAllocQueue i 0
  obtain ⟨j, hj'⟩ : ∃ j, Ledger.each k.blkAllocQueue i 0 = j := ⟨_, rfl⟩
  rw [hj'] at hj hqueueAll
  by_cases hless' : j < i
  · have hinit : lloopInit maxLoop k = outMem4 i j ((taken i j).map .acquire) := by
      simp [lloopInit, hn, hmajor, hmagic, hloop, hdisks, hi', hj', hless', taken]
    refine Or.inr (Or.inr ⟨hstarts, fun h => ?_, ?_, taken i j,
      downFrom .queue j ++ downFrom .disk i ++ [.disks], taken_nodup i j, ?_, ?_, ?_⟩)
    · have hall := hqueueAll.mpr fun m _ hm => (h.2 m (by omega)).2
      omega
    · rw [hinit]
      exact outMem1_ret true _
    · exact taken_perm_given i j
    · simp [downFrom]
    · rw [hinit]
      simp [outMem4, outMem3, outMem2, outMem1]
  have hj : j = i := by omega
  subst hj
  refine Or.inl ⟨⟨hstarts, fun m hm => ⟨?_, ?_⟩⟩, ?_⟩
  · exact hdiskAll.mp (by omega) m (Nat.zero_le m) (by omega)
  · exact hqueueAll.mp (by omega) m (Nat.zero_le m) (by omega)
  · simp [lloopInit, hn, hmajor, hmagic, hloop, hdisks, hi', hj', taken, takenAll]

theorem early_nodup : ∀ p ∈ early, p.1.Nodup ∧ p.1.Perm p.2 := by
  decide

theorem early_mem : ∀ p ∈ early, ∀ r ∈ p.1, r = .blkdev ∨ r = .iocontrol ∨ r = .loopDev := by
  decide

/-! ## Nothing stays behind -/

/-- The order in which `lloop_exit` gives things up. -/
def exitRank (n : Nat) : Resource → Nat
  | .iocontrol => 0
  | .listed i => 3 * i + 1
  | .queue i => 3 * i + 2
  | .disk i => 3 * i + 3
  | .blkdev => 3 * n + 4
  | .disks => 3 * n + 5
  | .loopDev => 3 * n + 6

theorem exitRank_round {i : Nat} {r : Resource} (h : r ∈ exitRound i) :
    3 * i + 1 ≤ exitRank n r ∧ exitRank n r ≤ 3 * i + 3 := by
  simp only [exitRound, List.mem_cons, List.not_mem_nil, or_false] at h
  rcases h with rfl | rfl | rfl <;> simp only [exitRank] <;> omega

theorem lloopExit_sorted (n : Nat) :
    (lloopExit n).Pairwise fun q r => exitRank n q < exitRank n r := by
  have hrounds : ((List.range n).flatMap exitRound).Pairwise
      fun q r => exitRank n q < exitRank n r := by
    refine List.pairwise_flatMap.mpr ⟨fun i _ => by simp [exitRound, exitRank], ?_⟩
    refine List.pairwise_lt_range.imp fun {i j} hlt q hq r hr => ?_
    have hqi := exitRank_round (n := n) hq
    have hrj := exitRank_round (n := n) hr
    omega
  have hlast : [Resource.blkdev, .disks, .loopDev].Pairwise
      fun q r => exitRank n q < exitRank n r := by
    simp [exitRank]
  have hbound : ∀ r ∈ (List.range n).flatMap exitRound, 0 < exitRank n r ∧
      exitRank n r < 3 * n + 4 := by
    intro r hr
    obtain ⟨i, hi, hround⟩ := List.mem_flatMap.mp hr
    have hi' := List.mem_range.mp hi
    have hbounds := exitRank_round (n := n) hround
    omega
  rw [lloopExit]
  refine List.pairwise_append.mpr ⟨List.pairwise_append.mpr
    ⟨List.pairwise_singleton _ _, hrounds, ?_⟩, hlast, ?_⟩
  · intro q hq r hr
    rw [List.mem_singleton.mp hq]
    exact (hbound r hr).1
  · intro q hq r hr
    have hr' : 3 * n + 4 ≤ exitRank n r := by
      simp only [List.mem_cons, List.not_mem_nil, or_false] at hr
      rcases hr with rfl | rfl | rfl <;> simp only [exitRank] <;> omega
    rcases List.mem_append.mp hq with hq | hq
    · rw [List.mem_singleton.mp hq]
      show 0 < exitRank n r
      omega
    · have hq' := (hbound q hq).2
      omega

theorem mem_lloopExit {r : Resource} : r ∈ lloopExit n ↔ r ∈ takenAll n := by
  cases r <;> simp [lloopExit, takenAll, taken, upTo, exitRound]

/-- What is in use lies in the list behind it. -/
theorem users_lloopExit {q r : Resource} (hr : r ∈ lloopExit n) (hq : q ∈ users n k.disks r) :
    q ∈ lloopExit n ∧ exitRank n q < exitRank n r := by
  rw [mem_lloopExit] at hr ⊢
  cases r with
  | blkdev =>
    obtain ⟨i, hi, rfl⟩ := List.mem_map.mp hq
    have hi' := List.mem_range.mp hi
    refine ⟨by simp [takenAll, upTo, hi'], ?_⟩
    simp only [exitRank]
    omega
  | iocontrol => cases hq
  | loopDev =>
    rcases List.mem_append.mp hq with hq | hq
    · obtain rfl : q = .iocontrol := by
        split at hq
        · simpa using hq
        · cases hq
      exact ⟨by simp [takenAll, taken], by simp [exitRank]⟩
    · obtain ⟨i, hi, rfl⟩ := List.mem_map.mp hq
      have hi' := List.mem_range.mp hi
      refine ⟨by simp [takenAll, taken, upTo, hi'], ?_⟩
      simp only [exitRank]
      omega
  | disks =>
    rcases List.mem_cons.mp hq with rfl | hq
    · exact ⟨by simp [takenAll, taken], by simp [exitRank]⟩
    · obtain ⟨i, hi, rfl⟩ := List.mem_map.mp hq
      have hi' := List.mem_range.mp hi
      refine ⟨by simp [takenAll, taken, upTo, hi'], ?_⟩
      simp only [exitRank]
      omega
  | disk i =>
    obtain rfl := List.mem_singleton.mp hq
    have hi : i < n := by simpa [takenAll, taken, upTo] using hr
    exact ⟨by simp [takenAll, upTo, hi], by simp [exitRank]⟩
  | queue i =>
    obtain rfl := List.mem_singleton.mp hq
    have hi : i < n := by simpa [takenAll, taken, upTo] using hr
    exact ⟨by simp [takenAll, upTo, hi], by simp [exitRank]⟩
  | listed i => cases hq

/-- Whatever the kernel answers: `lloop_init` returns 0 exactly if all its calls
succeed.  If not, it has given up each thing it took, once; and if so, `lloop_exit`
gives up all it holds, each thing once and before what it needs. -/
theorem lloopInit_exit (maxLoop : Int) (k : InitAnswers) :
    ((lloopInit maxLoop k).ret = 0 ↔ k.Succeeds (loopCount maxLoop)) ∧
    ((lloopInit maxLoop k).ret ≠ 0 →
      Ledger.Fair (fun _ => []) Ledger.nothing (lloopInit maxLoop k).entries ∧
      ∀ r, Ledger.post (lloopInit maxLoop k).entries Ledger.nothing r = false) ∧
    ((lloopInit maxLoop k).ret = 0 →
      Ledger.Fair (users (loopCount maxLoop) k.disks) Ledger.nothing
        ((lloopInit maxLoop k).entries ++ (lloopExit (loopCount maxLoop)).map .release) ∧
      ∀ r, Ledger.post ((lloopInit maxLoop k).entries ++
        (lloopExit (loopCount maxLoop)).map .release) Ledger.nothing r = false) := by
  have hback : ∀ rs qs : List Resource, rs.Nodup → rs.Perm qs →
      Ledger.Fair (fun _ => []) Ledger.nothing (rs.map .acquire ++ qs.map .release) ∧
        ∀ r, Ledger.post (rs.map .acquire ++ qs.map .release) Ledger.nothing r = false := by
    intro rs qs hnodup hperm
    refine ⟨(Ledger.fair_append _).mpr ⟨Ledger.fair_acquires _ hnodup fun _ _ => rfl,
      Ledger.fair_releases (hperm.nodup hnodup) fun r hr => ?_⟩,
      Ledger.post_acquires_releases fun r hr => hperm.mem_iff.mp hr⟩
    rw [Ledger.post_acquires, decide_eq_true (hperm.mem_iff.mpr hr)]
    rfl
  obtain ⟨hall, hinit⟩ | ⟨hnot, hret, p, hp, _, hentries⟩ |
    ⟨_, hnot, hret, rs, before, hnodup, hperm, _, hentries⟩ := lloopInit_cases maxLoop k
  · rw [hinit]
    refine ⟨⟨fun _ => hall, fun _ => rfl⟩, fun h => absurd rfl h, fun _ => ⟨?_, ?_⟩⟩
    · refine (Ledger.fair_append _).mpr
        ⟨Ledger.fair_acquires _ (takenAll_nodup _) fun _ _ => rfl, ?_⟩
      refine Ledger.fair_releases_of_rank _ (exitRank (loopCount maxLoop)) (lloopExit_sorted _)
        (fun r hr => ?_) fun r hr q hq _ => users_lloopExit hr hq
      rw [Ledger.post_acquires, decide_eq_true (mem_lloopExit.mp hr)]
      rfl
    · exact Ledger.post_acquires_releases fun r hr => mem_lloopExit.mpr hr
  · refine ⟨⟨fun h => absurd h hret, fun h => absurd h.1 hnot⟩, fun _ => ?_,
      fun h => absurd h hret⟩
    rw [hentries]
    exact hback p.1 p.2 (early_nodup p hp).1 (early_nodup p hp).2
  · refine ⟨⟨fun h => absurd h hret, fun h => absurd h hnot⟩, fun _ => ?_,
      fun h => absurd h hret⟩
    rw [hentries]
    exact hback rs _ hnodup hperm

/-- Nothing is given up by `lloop_init` while something still needs it, exactly if it
succeeds or fails before it has the disks: an error behind `disks` frees the devices
before their ioctls are taken away. -/
theorem lloopInit_fair_iff (maxLoop : Int) (k : InitAnswers) :
    Ledger.Fair (users (loopCount maxLoop) k.disks) Ledger.nothing (lloopInit maxLoop k).entries ↔
      (k.Starts → k.Succeeds (loopCount maxLoop)) := by
  obtain ⟨hall, hinit⟩ | ⟨hnot, _, p, hp, hdisks, hentries⟩ |
    ⟨hstarts, hnot, _, rs, before, _, hperm, hbefore, hentries⟩ := lloopInit_cases maxLoop k
  · rw [hinit]
    exact ⟨fun _ _ => hall,
      fun _ => Ledger.fair_acquires _ (takenAll_nodup _) fun _ _ => rfl⟩
  · refine ⟨fun _ h => absurd h hnot, fun _ => ?_⟩
    obtain ⟨hnodup, hperm⟩ := early_nodup p hp
    have hmem := early_mem p hp
    rw [hentries]
    refine (Ledger.fair_append _).mpr ⟨Ledger.fair_acquires _ hnodup fun _ _ => rfl,
      Ledger.fair_releases_of_free _ (hperm.nodup hnodup) (fun r hr => ?_) fun r hr q hq => ?_⟩
    · rw [Ledger.post_acquires, decide_eq_true (hperm.mem_iff.mpr hr)]
      rfl
    · have hr' := hperm.mem_iff.mpr hr
      have hfree : q ∉ p.1 := by
        intro hq'
        rcases hmem r hr' with rfl | rfl | rfl
        · obtain ⟨i, _, rfl⟩ := List.mem_map.mp hq
          simpa using hmem _ hq'
        · cases hq
        · simp only [users, hdisks hr', List.mem_append] at hq
          obtain ⟨i, _, rfl⟩ := List.mem_map.mp (hq.resolve_left (by simp))
          simpa using hmem _ hq'
      rw [Ledger.post_acquires, decide_eq_false hfree]
      rfl
  · refine ⟨fun hfair => ?_, fun h => absurd (h hstarts) hnot⟩
    rw [hentries, Ledger.fair_append] at hfair
    have huser : Resource.iocontrol ∈ users (loopCount maxLoop) k.disks .loopDev := by
      simp [users, hstarts.2.2.2]
    have hfree := hfair.2.released_before _ huser hbefore
    rw [Ledger.post_acquires, decide_eq_true (hperm.mem_iff.mpr (by simp))] at hfree
    cases hfree

end Answers

end Lloop
end AtomDrivers
