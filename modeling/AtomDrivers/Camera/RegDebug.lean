/-
Sensor registers through files in procfs.

A text of two hexadecimal numbers writes a register, a text that starts with one reads
it, and only a text that starts with none is looked at as a debug command, which is two
words and two numbers.  A debug command whose first word starts with a letter from a to f
or with a digit therefore reads a register, or writes one.  What comes out goes to the
enabled slots of one socket, up to the first driver that fails.
-/
import AtomDrivers.Camera.StaleBytes
import AtomDrivers.Linux.Errno
import AtomDrivers.Linux.Scan

namespace AtomDrivers
namespace Camera

open Linux

/-- The sizes of the structures, and of the two arrays in the second one. -/
structure DebugHeader extends SensorHeader where
  sizeofRegInfo : Nat
  sizeofDbgInfo : Nat
  sizeofDebugStruct : Nat
  sizeofDebugSubstruct : Nat

/-- `MSDK_SENSOR_REG_INFO_STRUCT` -/
structure SensorReg where
  regAddr : BitVec 32
  regData : BitVec 32
  deriving DecidableEq, Repr

/-- `MSDK_SENSOR_DBG_IMGSENSOR_INFO_STRUCT`, with its arrays whole. -/
structure DebugSensor where
  debugStruct : List UInt8
  debugSubstruct : List UInt8
  isGet : BitVec 32
  value : BitVec 32
  deriving DecidableEq, Repr

inductive DebugFeature
  | setRegister (r : SensorReg)
  | getRegister (r : SensorReg)
  | debugImgsensor (d : DebugSensor)
  deriving DecidableEq, Repr

/-- What the driver of a slot is handed.  The pointer to the length is the length. -/
structure DebugDelivery where
  slot : Nat
  feature : DebugFeature
  pFeatureParaLen : Nat
  deriving DecidableEq, Repr

/-- What the drivers return and leave in the structure, behind earlier deliveries. -/
structure DebugDrivers where
  setRegister : List DebugDelivery → Nat → SensorReg → BitVec 32 × SensorReg
  getRegister : List DebugDelivery → Nat → SensorReg → BitVec 32 × SensorReg
  debugImgsensor : List DebugDelivery → Nat → DebugSensor → BitVec 32 × DebugSensor

/-- `sizeof(regBuf)` -/
def regBufSize : Nat := 64

/-- The string in `regBuf`, unless the copy fails. -/
def regBufString (copy : UserCopy) (buffer : List UInt8) : Option (List UInt8) :=
  let count := buffer.length
  let u4CopyBufSize := if count < regBufSize - 1 then count else regBufSize - 1
  let (copied, missing) :=
    copyFromUser copy (List.replicate u4CopyBufSize 0) (buffer.take u4CopyBufSize)
  if missing ≠ 0 then none
  else some ((copied ++ List.replicate (regBufSize - u4CopyBufSize) 0).takeWhile (· ≠ 0))

/-- What a text asks for. -/
inductive DebugRequest
  | write (r : SensorReg)
  | read (r : SensorReg)
  | command (d : DebugSensor)
  | nothing
  deriving DecidableEq, Repr

/-- The array that `%s` has stored a word in, behind `memset`. -/
def charArray (size : Nat) (w : List UInt8) : List UInt8 := w ++ List.replicate (size - w.length) 0

section Files

variable (hdr : DebugHeader)

/-- Each word that `%s` has read leaves room for the 0 behind it. -/
def WordsFit : List Scanned → Prop
  | .str debugStruct :: .str debugSubstruct :: _ =>
    debugStruct.length < hdr.sizeofDebugStruct ∧ debugSubstruct.length < hdr.sizeofDebugSubstruct
  | .str debugStruct :: _ => debugStruct.length < hdr.sizeofDebugStruct
  | _ => True

instance (scanned : List Scanned) : Decidable (WordsFit hdr scanned) := by
  unfold WordsFit
  split <;> infer_instance

/-- `debug` is for the first file, which alone takes debug commands.  `none` is a word that
leaves its array. -/
def regDebugRequest (debug : Bool) (regBuf : List UInt8) : Option DebugRequest :=
  match sscanf regBuf [.x, .blank, .x] with
  | [.int regAddr, .int regData] => some (.write { regAddr, regData })
  | _ =>
    match sscanf regBuf [.x] with
    | [.int regAddr] => some (.read { regAddr, regData := 0 })
    | _ =>
      if debug then
        let scanned := sscanf regBuf [.s, .blank, .s, .blank, .d, .blank, .x]
        if WordsFit hdr scanned then
          match scanned with
          | [.str debugStruct, .str debugSubstruct, .int isGet, .int value] =>
            some (.command
              { debugStruct := charArray hdr.sizeofDebugStruct debugStruct
                debugSubstruct := charArray hdr.sizeofDebugSubstruct debugSubstruct
                isGet, value })
          | _ => some .nothing
        else none
      else some .nothing

variable (drivers : DebugDrivers) (slots : Nat → Slot) (socket : BitVec 32)

/-- `SensorFeatureControl` of the multi-sensor layer, to which `g_pSensorFunc` points. -/
def debugFeatureControl {α : Type} (feature : α → DebugFeature)
    (driver : List DebugDelivery → Nat → α → BitVec 32 × α) (size : Nat) (p : α)
    (log : List DebugDelivery) : α × List DebugDelivery :=
  (overSlots slots (fun slot => socket = slot.invokeSocketIdx)
    (fun i (a : α × List DebugDelivery) =>
      let result := driver a.2 i a.1
      (result.1, result.2,
        a.2 ++ [{ slot := i, feature := feature a.1, pFeatureParaLen := size }]))
    hdr.slots (p, log)).2

/-- What is delivered to the drivers. -/
def DebugRequest.deliveries : DebugRequest → List DebugDelivery
  | .write sensorReg =>
    let (sensorReg, log) := debugFeatureControl hdr slots socket .setRegister drivers.setRegister
      hdr.sizeofRegInfo sensorReg []
    (debugFeatureControl hdr slots socket .getRegister drivers.getRegister hdr.sizeofRegInfo
      sensorReg log).2
  | .read sensorReg =>
    (debugFeatureControl hdr slots socket .getRegister drivers.getRegister hdr.sizeofRegInfo
      sensorReg []).2
  | .command debugSensor =>
    (debugFeatureControl hdr slots socket .debugImgsensor drivers.debugImgsensor
      hdr.sizeofDbgInfo debugSensor []).2
  | .nothing => []

def regDebug (debug : Bool) (copy : UserCopy) (buffer : List UInt8) :
    Option (Int × List DebugDelivery) :=
  match regBufString copy buffer with
  | none => some (- EFAULT, [])
  | some regBuf => (regDebugRequest hdr debug regBuf).map fun request =>
    (buffer.length, request.deliveries hdr drivers slots socket)

def cameraHwRegDebug : UserCopy → List UInt8 → Option (Int × List DebugDelivery) :=
  regDebug hdr drivers slots hdr.dualCameraMainSensor true

def cameraHwRegDebug2 : UserCopy → List UInt8 → Option (Int × List DebugDelivery) :=
  regDebug hdr drivers slots hdr.dualCameraMain2Sensor false

def cameraHwRegDebug3 : UserCopy → List UInt8 → Option (Int × List DebugDelivery) :=
  regDebug hdr drivers slots hdr.dualCameraSubSensor false

end Files

/-! ## Which drivers get something -/

section Deliveries

variable (hdr : DebugHeader) (drivers : DebugDrivers) (slots : Nat → Slot) (socket : BitVec 32)

/-- The slots of a socket whose drivers are called. -/
def enabledSlots (is : List Nat) : List Nat :=
  is.filter fun i => (slots i).active && socket = (slots i).invokeSocketIdx

variable {slots socket}

/-- One call goes to the enabled slots in their order, not always to all of them.  The
first one gets the structure as it is. -/
theorem overSlots_delivers {α : Type} (feature : α → DebugFeature)
    (driver : List DebugDelivery → Nat → α → BitVec 32 × α) (size : Nat) (is : List Nat)
    (p : α) (log : List DebugDelivery) :
    ∃ new, (overSlots slots (fun slot => socket = slot.invokeSocketIdx)
        (fun i (a : α × List DebugDelivery) => ((driver a.2 i a.1).1, (driver a.2 i a.1).2,
          a.2 ++ [{ slot := i, feature := feature a.1, pFeatureParaLen := size }]))
        is (p, log)).2.2 = log ++ new ∧
      (∀ x ∈ new, ∃ q, x.feature = feature q) ∧
      new.map DebugDelivery.slot <+: enabledSlots slots socket is ∧
      new.head? = (enabledSlots slots socket is).head?.map fun i =>
        { slot := i, feature := feature p, pFeatureParaLen := size } := by
  induction is generalizing p log with
  | nil => exact ⟨[], by simp [overSlots], by simp, by simp, rfl⟩
  | cons i is ih =>
    by_cases hsel : (slots i).active ∧ socket = (slots i).invokeSocketIdx
    · have hslots : enabledSlots slots socket (i :: is) = i :: enabledSlots slots socket is :=
        List.filter_cons_of_pos (by simpa using hsel)
      have hselected : (slots i).active = true ∧
          decide (socket = (slots i).invokeSocketIdx) = true := by simpa using hsel
      simp only [overSlots, if_pos hselected, hslots]
      by_cases hfail : (driver log i p).1 ≠ errorNone
      · rw [if_pos hfail]
        exact ⟨[_], rfl, by simp, by simp, rfl⟩
      · rw [if_neg hfail]
        obtain ⟨new, hlog, hfeature, hstart, -⟩ := ih (driver log i p).2
          (log ++ [{ slot := i, feature := feature p, pFeatureParaLen := size }])
        refine ⟨{ slot := i, feature := feature p, pFeatureParaLen := size } :: new, ?_, ?_, ?_,
          rfl⟩
        · rw [hlog, List.append_assoc]
          rfl
        · intro x hx
          rcases List.mem_cons.mp hx with rfl | hx
          · exact ⟨p, rfl⟩
          · exact hfeature x hx
        · rw [List.map_cons]
          exact (List.prefix_cons_inj i).mpr hstart
    · have hslots : enabledSlots slots socket (i :: is) = enabledSlots slots socket is :=
        List.filter_cons_of_neg (by simpa using hsel)
      have hskip : ¬ ((slots i).active = true ∧
          decide (socket = (slots i).invokeSocketIdx) = true) := by simpa using hsel
      simp only [overSlots, if_neg hskip, hslots]
      exact ih p log

variable (slots socket)

theorem debugFeatureControl_delivers {α : Type} (feature : α → DebugFeature)
    (driver : List DebugDelivery → Nat → α → BitVec 32 × α) (size : Nat) (p : α)
    (log : List DebugDelivery) :
    ∃ new, (debugFeatureControl hdr slots socket feature driver size p log).2 = log ++ new ∧
      (∀ x ∈ new, ∃ q, x.feature = feature q) ∧
      new.map DebugDelivery.slot <+: enabledSlots slots socket hdr.slots ∧
      new.head? = (enabledSlots slots socket hdr.slots).head?.map fun i =>
        { slot := i, feature := feature p, pFeatureParaLen := size } :=
  overSlots_delivers feature driver size hdr.slots p log

theorem slot_mem_of_map {new : List DebugDelivery} {is : List Nat}
    (h : new.map DebugDelivery.slot <+: is) : ∀ x ∈ new, x.slot ∈ is := fun _ hx =>
  h.subset (List.mem_map_of_mem hx)

/-- A write is delivered as one exactly if a slot is enabled. -/
theorem write_deliveries (r : SensorReg) :
    let log := (DebugRequest.write r).deliveries hdr drivers slots socket
    (∀ x ∈ log, x.slot ∈ enabledSlots slots socket hdr.slots) ∧
      (¬ ∃ x ∈ log, ∃ d, x.feature = .debugImgsensor d) ∧
      ((∃ x ∈ log, ∃ r, x.feature = .setRegister r) ↔
        enabledSlots slots socket hdr.slots ≠ []) := by
  obtain ⟨set, hset, hsets, hsetSlots, hhead⟩ := debugFeatureControl_delivers hdr slots socket
    .setRegister drivers.setRegister hdr.sizeofRegInfo r []
  obtain ⟨get, hget, hgets, hgetSlots, -⟩ := debugFeatureControl_delivers hdr slots socket
    .getRegister drivers.getRegister hdr.sizeofRegInfo
    (debugFeatureControl hdr slots socket .setRegister drivers.setRegister hdr.sizeofRegInfo r []).1
    set
  have hlog : (DebugRequest.write r).deliveries hdr drivers slots socket = set ++ get := by
    rw [← hget]
    rw [List.nil_append] at hset
    rw [← hset]
    rfl
  rw [hlog]
  refine ⟨fun x hx => ?_, ?_, ?_⟩
  · rcases List.mem_append.mp hx with hx | hx
    · exact slot_mem_of_map hsetSlots x hx
    · exact slot_mem_of_map hgetSlots x hx
  · rintro ⟨x, hx, d, hd⟩
    rcases List.mem_append.mp hx with hx | hx
    · obtain ⟨q, hq⟩ := hsets x hx
      rw [hq] at hd
      cases hd
    · obtain ⟨q, hq⟩ := hgets x hx
      rw [hq] at hd
      cases hd
  · constructor
    · rintro ⟨x, hx, _⟩ hnone
      rw [hnone] at hsetSlots hgetSlots
      rcases List.mem_append.mp hx with hx | hx
      · exact List.not_mem_nil (slot_mem_of_map hsetSlots x hx)
      · exact List.not_mem_nil (slot_mem_of_map hgetSlots x hx)
    · intro hsome
      obtain ⟨i, is, his⟩ := List.exists_cons_of_ne_nil hsome
      rw [his] at hhead
      exact ⟨_, List.mem_append_left _ (List.mem_of_mem_head? hhead), r, rfl⟩

/-- A read is delivered as nothing else. -/
theorem read_deliveries (r : SensorReg) :
    let log := (DebugRequest.read r).deliveries hdr drivers slots socket
    (∀ x ∈ log, x.slot ∈ enabledSlots slots socket hdr.slots) ∧
      (¬ ∃ x ∈ log, ∃ d, x.feature = .debugImgsensor d) ∧
      ¬ ∃ x ∈ log, ∃ r, x.feature = .setRegister r := by
  obtain ⟨get, hget, hgets, hgetSlots, -⟩ := debugFeatureControl_delivers hdr slots socket
    .getRegister drivers.getRegister hdr.sizeofRegInfo r []
  have hlog : (DebugRequest.read r).deliveries hdr drivers slots socket = get := hget
  rw [hlog]
  refine ⟨slot_mem_of_map hgetSlots, ?_, ?_⟩
  · rintro ⟨x, hx, d, hd⟩
    obtain ⟨q, hq⟩ := hgets x hx
    rw [hq] at hd
    cases hd
  · rintro ⟨x, hx, q, hd⟩
    obtain ⟨q', hq⟩ := hgets x hx
    rw [hq] at hd
    cases hd

/-- A debug command is delivered exactly if a slot is enabled, to the first of them as it
is. -/
theorem command_deliveries (d : DebugSensor) :
    let log := (DebugRequest.command d).deliveries hdr drivers slots socket
    ((∃ x ∈ log, ∃ d, x.feature = .debugImgsensor d) ↔
        enabledSlots slots socket hdr.slots ≠ []) ∧
      (¬ ∃ x ∈ log, ∃ r, x.feature = .setRegister r) ∧
      log.map DebugDelivery.slot <+: enabledSlots slots socket hdr.slots ∧
      log.head? = (enabledSlots slots socket hdr.slots).head?.map fun i =>
        { slot := i, feature := .debugImgsensor d, pFeatureParaLen := hdr.sizeofDbgInfo } := by
  obtain ⟨new, hnew, hfeature, hslots, hhead⟩ := debugFeatureControl_delivers hdr slots socket
    .debugImgsensor drivers.debugImgsensor hdr.sizeofDbgInfo d []
  have hlog : (DebugRequest.command d).deliveries hdr drivers slots socket = new := hnew
  rw [hlog]
  refine ⟨⟨?_, ?_⟩, ?_, hslots, hhead⟩
  · rintro ⟨x, hx, _⟩
    exact List.ne_nil_of_mem (slot_mem_of_map hslots x hx)
  · intro hsome
    obtain ⟨i, is, his⟩ := List.exists_cons_of_ne_nil hsome
    rw [his] at hhead
    exact ⟨_, List.mem_of_mem_head? hhead, _, rfl⟩
  · rintro ⟨x, hx, r, hr⟩
    obtain ⟨q, hq⟩ := hfeature x hx
    rw [hr] at hq
    cases hq

end Deliveries

/-! ## What comes into the buffer -/

section Buffer

variable {copy : UserCopy} {text : List UInt8}

/-- A text of at most 63 bytes that are not 0 is the string. -/
theorem regBufString_text (hsize : text.length < regBufSize) (hzero : 0 ∉ text)
    (hcopy : text.length ≤ copy.copied) : regBufString copy text = some text := by
  have hcount : (if text.length < regBufSize - 1 then text.length else regBufSize - 1) =
      text.length := by
    split <;> omega
  have hall : ∀ c ∈ text, decide (c ≠ 0) = true := fun c hc =>
    decide_eq_true fun heq => hzero (heq ▸ hc)
  have hcopied : copyFromUser copy (List.replicate text.length 0) text = (text, 0) :=
    copyFromUser_done (by simp) hcopy
  have hrest : 0 < regBufSize - text.length := by omega
  unfold regBufString
  simp only [hcount, List.take_length, hcopied, ne_eq, not_true_eq_false, if_false]
  rw [List.takeWhile_append_of_pos hall]
  obtain ⟨n, hn⟩ : ∃ n, regBufSize - text.length = n + 1 :=
    ⟨_, (Nat.succ_pred_eq_of_pos hrest).symm⟩
  rw [hn, List.replicate_succ]
  simp

end Buffer

/-! ## What a text asks for -/

section Texts

variable {hdr : DebugHeader} {s t : Word} {rest : List UInt8}

/-- It starts with a hexadecimal digit. -/
def StartsHex (w : Word) : Prop := w.chars.head?.bind hexVal ≠ none

/-- It is a hexadecimal number, with nothing behind its digits. -/
def IsHex (w : Word) : Prop := ∃ v, scanHex w.chars = some (v, [])

theorem scanHex_eq_none_iff (w : Word) : scanHex w.chars = none ↔ ¬ StartsHex w := by
  unfold scanHex StartsHex
  split <;> simp_all

theorem IsHex.startsHex {w : Word} (h : IsHex w) : StartsHex w := by
  obtain ⟨v, hv⟩ := h
  by_contra hnot
  rw [(scanHex_eq_none_iff w).mpr hnot] at hv
  cases hv

/-- A text whose first word starts with a digit is for a register, in every file, and
writes it exactly if the whole word is a number and the second one starts with a digit. -/
theorem regDebugRequest_register (debug : Bool) (hrest : Ends rest) (hs : StartsHex s) :
    (∃ r, regDebugRequest hdr debug (s.chars ++ 32 :: (t.chars ++ rest)) = some (.write r)) ∧
        IsHex s ∧ StartsHex t ∨
      (∃ r, regDebugRequest hdr debug (s.chars ++ 32 :: (t.chars ++ rest)) = some (.read r)) ∧
        ¬ (IsHex s ∧ StartsHex t) := by
  obtain ⟨⟨regAddr, more⟩, hscan⟩ := Option.ne_none_iff_exists'.mp
    (mt (scanHex_eq_none_iff s).mp (not_not.mpr hs))
  have htwo := sscanf_hex_hex s t hrest
  have hone := sscanf_hex s (ends_blank (t.chars ++ rest)) []
  simp only [hscan] at htwo hone
  have hnumber : IsHex s ↔ more = [] := by
    constructor
    · rintro ⟨v, hv⟩
      rw [hscan] at hv
      cases hv
      rfl
    · rintro rfl
      exact ⟨regAddr, hscan⟩
  unfold regDebugRequest
  rw [htwo, hone]
  by_cases hmore : more = []
  · rw [if_pos hmore]
    cases hsecond : scanHex t.chars with
    | none =>
      refine Or.inr ⟨⟨{ regAddr, regData := 0 }, by simp [sscanf]⟩, fun h => ?_⟩
      exact (scanHex_eq_none_iff t).mp hsecond h.2
    | some r =>
      refine Or.inl ⟨⟨{ regAddr, regData := r.1 }, by simp⟩, hnumber.mpr hmore, ?_⟩
      by_contra hnot
      rw [(scanHex_eq_none_iff t).mpr hnot] at hsecond
      cases hsecond
  · rw [if_neg hmore]
    exact Or.inr ⟨⟨{ regAddr, regData := 0 }, by simp [sscanf]⟩, fun h => hmore (hnumber.mp h.1)⟩

/-- The numbers of a write come back, in every file. -/
theorem regDebugRequest_write (debug : Bool) (regAddr regData : BitVec 32) (hrest : Ends rest) :
    regDebugRequest hdr debug (hex regAddr.toNat ++ 32 :: (hex regData.toNat ++ rest)) =
      some (.write { regAddr, regData }) := by
  have htwo := sscanf_hex_hex (hexWord regAddr.toNat) (hexWord regData.toNat) hrest
  have hhex : ∀ v : BitVec 32, scanHex (hexWord v.toNat).chars = some (v, []) := fun v => by
    rw [show (hexWord v.toNat).chars = hex v.toNat from rfl, scanHex_hex, BitVec.ofNat_toNat,
      BitVec.setWidth_eq]
  simp only [hhex] at htwo
  unfold regDebugRequest
  rw [show (hexWord regAddr.toNat).chars = hex regAddr.toNat from rfl,
    show (hexWord regData.toNat).chars = hex regData.toNat from rfl] at htwo
  rw [htwo]
  simp

/-- A debug command. -/
def debugText (s t : Word) (isGet value : BitVec 32) (tail : List UInt8) : List UInt8 :=
  s.chars ++ 32 :: (t.chars ++ 32 :: (printInt isGet.toInt ++ 32 :: (hex value.toNat ++ tail)))

/-- Both words fit into their arrays. -/
def Fit (hdr : DebugHeader) (s t : Word) : Prop :=
  s.chars.length < hdr.sizeofDebugStruct ∧ t.chars.length < hdr.sizeofDebugSubstruct

instance : Decidable (Fit hdr s t) := inferInstanceAs (Decidable (_ ∧ _))

/-- What a debug command is made of. -/
def debugSensorOf (hdr : DebugHeader) (s t : Word) (isGet value : BitVec 32) : DebugSensor where
  debugStruct := charArray hdr.sizeofDebugStruct s.chars
  debugSubstruct := charArray hdr.sizeofDebugSubstruct t.chars
  isGet
  value

theorem regDebugRequest_debug (isGet value : BitVec 32) {tail : List UInt8} (htail : Ends tail)
    (hs : ¬ StartsHex s) :
    regDebugRequest hdr true (debugText s t isGet value tail) =
      if Fit hdr s t then some (.command (debugSensorOf hdr s t isGet value)) else none := by
  have hnone : scanHex s.chars = none := (scanHex_eq_none_iff s).mpr hs
  have htwo := sscanf_hex s (ends_blank
    (t.chars ++ 32 :: (printInt isGet.toInt ++ 32 :: (hex value.toNat ++ tail)))) [.blank, .x]
  have hone := sscanf_hex s (ends_blank
    (t.chars ++ 32 :: (printInt isGet.toInt ++ 32 :: (hex value.toNat ++ tail)))) []
  simp only [hnone] at htwo hone
  have hwords := sscanf_words s t isGet.toInt value.toNat htail
  rw [BitVec.ofInt_toInt, BitVec.ofNat_toNat, BitVec.setWidth_eq] at hwords
  unfold regDebugRequest debugText
  rw [htwo, hone, hwords]
  by_cases hfit : Fit hdr s t
  · have hwordsFit : WordsFit hdr
        [.str s.chars, .str t.chars, .int isGet, .int value] := hfit
    simp [hfit, hwordsFit, debugSensorOf]
  · have hwordsFit : ¬ WordsFit hdr
        [.str s.chars, .str t.chars, .int isGet, .int value] := hfit
    simp [hfit, hwordsFit]

theorem debugText_nonzero {isGet value : BitVec 32} {tail : List UInt8} (htail : 0 ∉ tail) :
    0 ∉ debugText s t isGet value tail := by
  have hw (w : Word) : 0 ∉ w.chars := fun h => (w.solid 0 h).2 rfl
  have hint : 0 ∉ printInt isGet.toInt := hw (intWord isGet.toInt)
  have hhex : 0 ∉ hex value.toNat := hw (hexWord value.toNat)
  simp [debugText, hw, hint, hhex, htail]

theorem ends_tail {tail : List UInt8} (htail : tail = [] ∨ tail = [10]) : Ends tail := by
  rcases htail with rfl | rfl
  · exact ends_nil
  · intro c hc
    cases hc
    rfl

theorem zero_not_mem_tail {tail : List UInt8} (htail : tail = [] ∨ tail = [10]) : 0 ∉ tail := by
  rcases htail with rfl | rfl <;> decide

/-- A debug text comes into the buffer as it is. -/
theorem cameraHwRegDebug_text (drivers : DebugDrivers) (slots : Nat → Slot) {copy : UserCopy}
    {isGet value : BitVec 32} {tail : List UInt8} (htail : 0 ∉ tail)
    (hsize : (debugText s t isGet value tail).length < regBufSize)
    (hcopy : (debugText s t isGet value tail).length ≤ copy.copied) :
    cameraHwRegDebug hdr drivers slots copy (debugText s t isGet value tail) =
      (regDebugRequest hdr true (debugText s t isGet value tail)).map fun request =>
        (((debugText s t isGet value tail).length : Int),
          request.deliveries hdr drivers slots hdr.dualCameraMainSensor) := by
  unfold cameraHwRegDebug regDebug
  rw [regBufString_text hsize (debugText_nonzero htail) hcopy]

/-- `af` -/
def afWord : Word where
  chars := [97, 102]
  nonempty := List.cons_ne_nil _ _
  solid := List.forall_mem_cons.mpr ⟨by decide, List.forall_mem_singleton.mpr (by decide)⟩

/-- `12` -/
def twelveWord : Word where
  chars := [49, 50]
  nonempty := List.cons_ne_nil _ _
  solid := List.forall_mem_cons.mpr ⟨by decide, List.forall_mem_singleton.mpr (by decide)⟩

/-- One enabled slot, in the main socket. -/
def mainSlots (i : Nat) : Slot where
  bEnableDriver := i = 0
  pInvokeSensorFunc := some 0
  invokeSocketIdx := 1
  invokeSensorNameStr := "main"

def debugHeader : DebugHeader where
  toSensorHeader := resolutionHeader.toSensorHeader
  sizeofRegInfo := 8
  sizeofDbgInfo := 40
  sizeofDebugStruct := 16
  sizeofDebugSubstruct := 16

/-- Drivers that succeed and store nothing. -/
def quietDrivers : DebugDrivers where
  setRegister _ _ r := (errorNone, r)
  getRegister _ _ r := (errorNone, r)
  debugImgsensor _ _ d := (errorNone, d)

end Texts

end Camera
end AtomDrivers
