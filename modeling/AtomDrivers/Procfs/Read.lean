/-
Reading the driver lists.

Each of the four files prints its list straight to the address it is given, whatever
the size of the read, and everything behind position 0 is the end of the file.  A
read that asks for less than the list gets more than it asked for, and `sprintf`
stores one byte more than it counts.
-/
import AtomDrivers.Procfs.Names

namespace AtomDrivers
namespace Procfs

open Linux

/-- A static array with a string in it. -/
structure CArray (cap : Nat) where
  bytes : List UInt8
  text : CName
  holds : Holds cap bytes text.chars

/-- What the files show. -/
structure Drivers where
  /-- `mtkfb_find_lcm_driver()` -/
  lcmDriver : CName
  lcmDriverList : List (Option CName)
  cameralistUsing : CArray 256
  cameralistSupported : CArray cameraSupportLength

/-- What a read returns and what it stores in the caller's buffer. -/
structure ReadReply where
  ret : Nat
  written : List UInt8
  deriving DecidableEq, Repr

def newline : List UInt8 := [10]

/-- The common body: the size is not looked at.  The new position is returned, and
nothing when an array is overrun. -/
def procRead (text : Option (List UInt8)) (_size ppos : Nat) : Option (Nat × ReadReply) :=
  if ppos ≠ 0 then some (ppos, { ret := 0, written := [] })
  else do
    let text ← text
    let page := text ++ newline
    some (ppos + page.length, { ret := page.length, written := page ++ [0] })

/-- LCM_USING_LENGTH -/
def lcmUsingLength : Nat := 256

section Files

variable (d : Drivers)

def lcmlistUsingProcRead : Nat → Nat → Option (Nat × ReadReply) :=
  procRead do
    let lcmlistUsing ← strcat (List.replicate lcmUsingLength 0) d.lcmDriver.chars
    cString lcmlistUsing

def lcmlistSupportedProcRead : Nat → Nat → Option (Nat × ReadReply) :=
  procRead do
    let lcmlistSupported ← lcmlistSupported d.lcmDriverList
    cString lcmlistSupported

def cameralistUsingProcRead : Nat → Nat → Option (Nat × ReadReply) :=
  procRead do
    let cameralistUsing ← strcat d.cameralistUsing.bytes []
    cString cameralistUsing

def cameralistSupportedProcRead : Nat → Nat → Option (Nat × ReadReply) :=
  procRead do
    let cameralistSupported ← strcat d.cameralistSupported.bytes []
    cString cameralistSupported

inductive ProcFile
  | lcmlistUsing
  | lcmlistSupported
  | cameralistUsing
  | cameralistSupported
  deriving DecidableEq, Repr

def ProcFile.read : ProcFile → Nat → Nat → Option (Nat × ReadReply)
  | .lcmlistUsing => lcmlistUsingProcRead d
  | .lcmlistSupported => lcmlistSupportedProcRead d
  | .cameralistUsing => cameralistUsingProcRead d
  | .cameralistSupported => cameralistSupportedProcRead d

/-- The reads of one open file, with the position as the state. -/
def openFile (file : ProcFile) : Machine Nat Nat ReadReply where
  step ppos size := file.read d size ppos

/-! ## What a reader expects -/

/-- The list in a file. -/
def ProcFile.text : ProcFile → List UInt8
  | .lcmlistUsing => d.lcmDriver.chars
  | .lcmlistSupported => listing twoSpaces d.lcmDriverList
  | .cameralistUsing => d.cameralistUsing.text.chars
  | .cameralistSupported => d.cameralistSupported.text.chars

/-- The list and a newline. -/
def ProcFile.contents (file : ProcFile) : List UInt8 := file.text d ++ newline

/-- The read stores as many bytes as it returns, or one more if a terminating 0 is
not counted. -/
def ReadReply.Counts (terminator : Bool) (reply : ReadReply) : Prop :=
  reply.written.length = reply.ret ∨
    (terminator = true ∧ reply.written.length = reply.ret + 1)

/-- Every read keeps to its size, and the reads before the first that returns 0 yield
the contents. -/
def ReadsWhole (terminator : Bool) (file : ProcFile) (sizes : Nat → Nat) : Prop :=
  ∃ replies : Nat → ReadReply,
    (∀ n, ∃ ppos, (openFile d file).run 0 ((List.range n).map sizes) =
      some (ppos, (List.range n).map replies)) ∧
    (∀ k, (replies k).written.length ≤ sizes k ∧ (replies k).Counts terminator) ∧
    ∃ m, (replies m).ret = 0 ∧ (∀ k < m, (replies k).ret ≠ 0) ∧
      (List.range m).flatMap (fun k => (replies k).written.take (replies k).ret) =
        file.contents d

/-- The list fits in the local array it is made in. -/
def ProcFile.Fits : ProcFile → Prop
  | .lcmlistUsing => d.lcmDriver.chars.length < lcmUsingLength
  | .lcmlistSupported => listSize twoSpaces d.lcmDriverList < lcmSupportLength
  | .cameralistUsing | .cameralistSupported => True

end Files

section Reads

variable {d : Drivers} {file : ProcFile}

/-- What `strcat` has made is printed. -/
theorem cString_strcat {cap : Nat} {dst s : List UInt8} (h : Holds cap dst s) {src : List UInt8}
    (hsrc : 0 ∉ src) (hfits : s.length + src.length < cap) :
    (strcat dst src).bind cString = some (s ++ src) := by
  obtain ⟨dst', hdst, hholds⟩ := h.strcat hsrc hfits
  rw [hdst]
  exact hholds.string

theorem cString_static {cap : Nat} (a : CArray cap) :
    (strcat a.bytes []).bind cString = some a.text.chars := by
  rw [cString_strcat a.holds List.not_mem_nil a.holds.lt, List.append_nil]

theorem lcmlistSupported_fits {entries : List (Option CName)}
    (h : (listing twoSpaces entries).length < lcmSupportLength) :
    (lcmlistSupported entries).bind cString = some (listing twoSpaces entries) := by
  have hzeroed : Holds lcmSupportLength (List.replicate lcmSupportLength 0) [] :=
    holds_zeroed (by decide)
  have hspaces : 0 ∉ twoSpaces := by decide
  obtain ⟨dst, hdst, hholds⟩ := strcatNames_holds hspaces entries hzeroed
    (by rwa [List.length_nil, Nat.zero_add])
  rw [lcmlistSupported, hdst]
  show (strcat dst []).bind cString = _
  rw [cString_strcat hholds List.not_mem_nil hholds.lt, List.append_nil, List.nil_append]

theorem lcmlistSupported_overruns {entries : List (Option CName)}
    (h : ¬ (listing twoSpaces entries).length < lcmSupportLength) :
    lcmlistSupported entries = none := by
  have hzeroed : Holds lcmSupportLength (List.replicate lcmSupportLength 0) [] :=
    holds_zeroed (by decide)
  have hspaces : 0 ∉ twoSpaces := by decide
  rw [lcmlistSupported, strcatNames_none hspaces entries hzeroed
    (by rwa [List.length_nil, Nat.zero_add])]
  rfl

/-- Each file prints its list when the list fits, and overruns an array otherwise. -/
theorem read_eq (d : Drivers) (file : ProcFile) : ∃ text, file.read d = procRead text ∧
    (file.Fits d → text = some (file.text d)) ∧ (¬ file.Fits d → text = none) := by
  cases file with
  | lcmlistUsing =>
    have hzeroed : Holds lcmUsingLength (List.replicate lcmUsingLength 0) [] :=
      holds_zeroed (by decide)
    refine ⟨_, rfl, fun h => ?_, fun h => ?_⟩
    · exact cString_strcat hzeroed d.lcmDriver.nonzero (by rwa [List.length_nil, Nat.zero_add])
    · have hnone := hzeroed.strcat_none d.lcmDriver.chars
        (by rwa [List.length_nil, Nat.zero_add])
      rw [hnone]
      rfl
  | lcmlistSupported =>
    refine ⟨_, rfl, fun h => ?_, fun h => ?_⟩
    · exact lcmlistSupported_fits ((listing_length _).trans_lt h)
    · rw [lcmlistSupported_overruns fun hlt => h ((listing_length _).symm.trans_lt hlt)]
      rfl
  | cameralistUsing => exact ⟨_, rfl, fun _ => cString_static _, fun h => absurd trivial h⟩
  | cameralistSupported => exact ⟨_, rfl, fun _ => cString_static _, fun h => absurd trivial h⟩

/-- A read at position 0. -/
theorem read_first (hfits : file.Fits d) (size : Nat) :
    (openFile d file).step 0 size =
      some ((file.contents d).length,
        { ret := (file.contents d).length, written := file.contents d ++ [0] }) := by
  obtain ⟨text, hread, hsome, -⟩ := read_eq d file
  show file.read d size 0 = _
  rw [hread, hsome hfits]
  simp [procRead, ProcFile.contents]

theorem read_overruns (hfits : ¬ file.Fits d) (size : Nat) :
    (openFile d file).step 0 size = none := by
  obtain ⟨text, hread, -, hnone⟩ := read_eq d file
  show file.read d size 0 = _
  rw [hread, hnone hfits]
  rfl

theorem read_behind {ppos : Nat} (h : ppos ≠ 0) (size : Nat) :
    (openFile d file).step ppos size = some (ppos, { ret := 0, written := [] }) := by
  cases file with
  | lcmlistUsing => exact if_pos h
  | lcmlistSupported => exact if_pos h
  | cameralistUsing => exact if_pos h
  | cameralistSupported => exact if_pos h

theorem contents_pos (d : Drivers) (file : ProcFile) : 0 < (file.contents d).length := by
  rw [ProcFile.contents, List.length_append]
  exact Nat.lt_add_left _ (by decide)

/-- The replies to any sequence of reads. -/
def reply (d : Drivers) (file : ProcFile) (k : Nat) : ReadReply :=
  if k = 0 then { ret := (file.contents d).length, written := file.contents d ++ [0] }
  else { ret := 0, written := [] }

theorem openFile_run (hfits : file.Fits d) (sizes : Nat → Nat) (n : Nat) :
    (openFile d file).run 0 ((List.range n).map sizes) =
      some (if n = 0 then 0 else (file.contents d).length, (List.range n).map (reply d file)) := by
  induction n with
  | zero => rfl
  | succ n ih =>
    rw [List.range_succ, List.map_append, List.map_append, if_neg (Nat.succ_ne_zero n)]
    refine Machine.run_append ih (Machine.run_singleton ?_)
    by_cases hn : n = 0
    · subst hn
      exact read_first hfits (sizes 0)
    · have hpos : (file.contents d).length ≠ 0 := Nat.pos_iff_ne_zero.mp (contents_pos d file)
      rw [if_neg hn, reply, if_neg hn]
      exact read_behind hpos (sizes n)

/-- The first reply decides. -/
theorem first_reply {sizes : Nat → Nat} {replies : Nat → ReadReply}
    (hruns : ∀ n, ∃ ppos, (openFile d file).run 0 ((List.range n).map sizes) =
      some (ppos, (List.range n).map replies)) :
    file.Fits d ∧ replies 0 = reply d file 0 := by
  obtain ⟨ppos, hrun⟩ := hruns 1
  obtain ⟨u, o, os, hstep, -, hreplies⟩ := Machine.run_cons_iff.mp hrun
  have ho : replies 0 = o := (List.cons.inj hreplies).1
  by_cases hfits : file.Fits d
  · rw [read_first hfits] at hstep
    have hpair := Option.some.inj hstep
    exact ⟨hfits, ho.trans (congrArg Prod.snd hpair).symm⟩
  · rw [read_overruns hfits] at hstep
    cases hstep

/-- The terminating 0 is stored and not counted. -/
theorem reply_length (d : Drivers) (file : ProcFile) :
    (reply d file 0).written.length = (file.contents d).length + 1 := by
  simp [reply]

theorem readsWhole_of_fits {sizes : Nat → Nat} (hfits : file.Fits d)
    (hsize : (file.contents d).length < sizes 0) : ReadsWhole d true file sizes := by
  have hpos := contents_pos d file
  refine ⟨reply d file, fun n => ⟨_, openFile_run hfits sizes n⟩, fun k => ?_, 1, rfl,
    fun k hk => ?_, ?_⟩
  · by_cases hk : k = 0
    · subst hk
      rw [reply_length]
      exact ⟨hsize, .inr ⟨rfl, reply_length d file⟩⟩
    · rw [reply, if_neg hk]
      exact ⟨Nat.zero_le _, .inl rfl⟩
  · obtain rfl : k = 0 := by omega
    exact Nat.pos_iff_ne_zero.mp hpos
  · simp [reply]

end Reads

/-- No read counts all that it stores.  Apart from the terminating 0, a file is read
right exactly when its list fits and the first read asks for more than the contents. -/
theorem readsWhole_iff (d : Drivers) (file : ProcFile) (sizes : Nat → Nat) :
    ¬ ReadsWhole d false file sizes ∧
      (ReadsWhole d true file sizes ↔ file.Fits d ∧ (file.contents d).length < sizes 0) := by
  constructor
  · rintro ⟨replies, hruns, hright, -⟩
    obtain ⟨hfits, hfirst⟩ := first_reply hruns
    have hcounts := (hright 0).2
    rw [hfirst] at hcounts
    rcases hcounts with hlen | ⟨hfalse, -⟩
    · rw [reply_length] at hlen
      have hret : (reply d file 0).ret = (file.contents d).length := rfl
      omega
    · cases hfalse
  · constructor
    · rintro ⟨replies, hruns, hright, -⟩
      obtain ⟨hfits, hfirst⟩ := first_reply hruns
      have hsize := (hright 0).1
      rw [hfirst, reply_length] at hsize
      exact ⟨hfits, hsize⟩
    · rintro ⟨hfits, hsize⟩
      exact readsWhole_of_fits hfits hsize

/-- Two panel drivers, of which one has a name. -/
def somePanels : Drivers where
  lcmDriver := panelName
  lcmDriverList := [some panelName, none]
  cameralistUsing :=
    { bytes := List.replicate 256 0
      text := { chars := [], nonzero := List.not_mem_nil }
      holds := holds_zeroed (by decide) }
  cameralistSupported :=
    { bytes := List.replicate cameraSupportLength 0
      text := { chars := [], nonzero := List.not_mem_nil }
      holds := holds_zeroed (by decide) }

/-- A read of one byte gets sixteen. -/
theorem read_beyond_size : ¬ ReadsWhole somePanels true .lcmlistSupported (fun _ => 1) := by
  rintro ⟨replies, hruns, hright, -⟩
  obtain ⟨hfits, hfirst⟩ := first_reply hruns
  have hsize := (hright 0).1
  rw [hfirst, reply_length] at hsize
  exact absurd hsize (by decide)

end Procfs
end AtomDrivers
