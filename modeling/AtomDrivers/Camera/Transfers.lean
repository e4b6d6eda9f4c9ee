/-
What the register accessors report.

A read should return 0 when its address has been sent and all it asked for has been
received, and a write when some attempt has sent all its bytes.  The reads check
what came, one of them against a fixed number.  The writes try again and return 0
in any case.  A burst hands over a count word: a number of segments above their
length, where no number means one.
-/
import AtomDrivers.Camera.I2cMode
import Mathlib.Data.Nat.Find
import Mathlib.Algebra.Order.Ring.Nat

namespace AtomDrivers
namespace Camera

/-! ## Attempts -/

section Attempts

variable (ok : Int → Bool)

/-- An attempt is made when those before have failed. -/
theorem lt_attempts_iff (bus : Nat → Int) (n k : Nat) :
    k < attempts ok bus n ↔ k < n ∧ ∀ j < k, ok (bus j) = false := by
  induction n generalizing bus k with
  | zero => simp [attempts]
  | succ n ih =>
    cases hok : ok (bus 0) with
    | true =>
      simp only [attempts, hok, if_true]
      constructor
      · intro hk
        exact ⟨by omega, fun j hj => by omega⟩
      · intro ⟨_, hall⟩
        by_contra hk
        rw [hall 0 (by omega)] at hok
        cases hok
    | false =>
      simp only [attempts, hok, Bool.false_eq_true, if_false]
      cases k with
      | zero => exact iff_of_true (by omega) ⟨by omega, fun j hj => by omega⟩
      | succ k =>
        rw [Nat.add_lt_add_iff_right, ih, Nat.add_lt_add_iff_right]
        refine and_congr_right fun _ => ⟨fun hall j hj => ?_, fun hall j hj => ?_⟩
        · cases j with
          | zero => exact hok
          | succ j => exact hall j (by omega)
        · exact hall (j + 1) (by omega)

/-- Some attempt is made whose result is accepted exactly when one of the results
is. -/
theorem exists_attempt_iff (bus : Nat → Int) (n : Nat) :
    (∃ k < attempts ok bus n, ok (bus k) = true) ↔ ∃ k < n, ok (bus k) = true := by
  constructor
  · intro ⟨k, hk, hok⟩
    exact ⟨k, ((lt_attempts_iff ok bus n k).mp hk).1, hok⟩
  · intro hexists
    obtain ⟨hlt, hok⟩ := Nat.find_spec hexists
    refine ⟨Nat.find hexists, (lt_attempts_iff ok bus n _).mpr ⟨hlt, fun j hj => ?_⟩, hok⟩
    have hnot := Nat.find_min hexists hj
    have hj' : j < n := Nat.lt_trans hj hlt
    simpa [hj'] using hnot

end Attempts

/-! ## Count words -/

/-- The bytes that a count word asks for. -/
def covered (count : Nat) : Nat := max 1 (count / 2 ^ 16) * (count % 2 ^ 16)

/-- The count word of a burst covers its bytes. -/
def CoversBytes (bytes transferLength : Nat) : Prop :=
  bytes = transferLength ∨
    (transferLength ≠ 0 ∧ (bytes < transferLength ∨ transferLength ∣ bytes))

theorem burstCount_parts {bytes transferLength : Nat} (h : transferLength < 2 ^ 16)
    (hne : bytes ≠ transferLength) :
    burstCount bytes transferLength / 2 ^ 16 = bytes / transferLength ∧
      burstCount bytes transferLength % 2 ^ 16 = transferLength := by
  have hsum : burstCount bytes transferLength =
      bytes / transferLength * 2 ^ 16 + transferLength := by
    rw [burstCount, if_neg hne, ← Nat.shiftLeft_add_eq_or_of_lt h, Nat.shiftLeft_eq]
  rw [hsum]
  omega

theorem covers_iff {bytes transferLength : Nat} (h : transferLength < 2 ^ 16) :
    ((bytes ≠ transferLength → transferLength ≠ 0) ∧
      bytes ≤ covered (burstCount bytes transferLength)) ↔ CoversBytes bytes transferLength := by
  unfold CoversBytes covered
  by_cases heq : bytes = transferLength
  · have hcount : burstCount bytes transferLength = transferLength := by
      rw [burstCount, if_pos heq]
    have hdiv : transferLength / 2 ^ 16 = 0 := Nat.div_eq_of_lt h
    rw [hcount, hdiv, Nat.mod_eq_of_lt h]
    simp [heq]
  · obtain ⟨hdiv, hmod⟩ := burstCount_parts h heq
    rw [hdiv, hmod]
    simp only [heq, false_or, not_false_eq_true, ne_eq, true_imp_iff]
    refine and_congr_right fun hzero => ?_
    by_cases hlt : bytes < transferLength
    · have hone : max 1 0 * transferLength = transferLength := Nat.one_mul transferLength
      rw [Nat.div_eq_of_lt hlt, hone]
      exact iff_of_true (by omega) (Or.inl hlt)
    · have hpos : 0 < bytes / transferLength := Nat.div_pos (by omega) (by omega)
      have hmax : max 1 (bytes / transferLength) = bytes / transferLength := by omega
      have hle := Nat.div_mul_le_self bytes transferLength
      rw [hmax, or_iff_right hlt]
      constructor
      · intro hcovered
        exact Dvd.intro_left _ (Nat.le_antisymm hle hcovered)
      · intro hdvd
        exact Nat.le_of_eq (Nat.div_mul_cancel hdvd).symm

/-! ## The reports -/

/-- Some attempt has sent all of `bytes` bytes: the bus returns the count it was
given, and the count covers them. -/
def SentWhole (bus : Nat → Int) (bytes : Nat) (covers : Nat → Nat) (reply : I2cReply) : Prop :=
  ∃ k transfer, reply.transfers[k]? = some transfer ∧ bus k = transfer.count ∧
    bytes ≤ covers transfer.count

/-- A write reports 0 exactly when some attempt has sent everything. -/
def WriteReports (bus : Nat → Int) (bytes : Nat) (reply : I2cReply) : Prop :=
  reply.ret = 0 ↔ SentWhole bus bytes id reply

/-- A burst does so too, and counts all its bytes without dividing by 0. -/
def BurstReports (bus : Nat → Int) (bytes transferLength : Nat) (alloc : Bool)
    (reply : I2cReply) : Prop :=
  (reply.ret = 0 ↔ SentWhole bus bytes covered reply) ∧
    (bytes ≤ maxCmdLen →
      (alloc = true → bytes ≠ transferLength → transferLength ≠ 0) ∧
        ∀ transfer ∈ reply.transfers, bytes ≤ covered transfer.count)

section Transfers

variable (hdr : I2cHeader) (bus : Nat → Int) (s : I2c)

/-- A call reports what the bus has done. -/
def ReportsTransfer (call : I2cCall) : Prop :=
  let reply := (call.exec hdr bus s).2
  match call with
  | .readReg _ _ => reply.ret = 0 ↔ bus 0 = 2 ∧ bus 1 = 1
  | .readRegI2C sendData sizeRecvData _ =>
    reply.ret = 0 ↔ bus 0 = sendData.length ∧ bus 1 = sizeRecvData.toNat
  | .multiReadReg _ _ number => reply.ret = 0 ↔ bus 0 = 2 ∧ bus 1 = number.toNat
  | .writeReg _ _ bytes _ => WriteReports bus (bytes.toNat + 2) reply
  | .writeRegI2C sendData _ => WriteReports bus sendData.length reply
  | .multiWriteReg data _ => WriteReports bus data.length reply
  | .burstWriteRegMulti data _ transferLength alloc =>
    BurstReports bus data.length transferLength.toNat alloc reply
  | .setI2CBusNum _ | .searching _ => True

/-- The results on which a call reports what the bus has done. -/
def Truthful : I2cCall → Prop
  | .multiReadReg _ _ number =>
    number = 1 ∨ bus 0 ≠ 2 ∨ (bus 1 ≠ 1 ∧ bus 1 ≠ number.toNat)
  | .writeReg _ _ bytes _ => 2 < bytes.toNat ∨ ∃ k < 4, bus k = (bytes.toNat + 2 : Nat)
  | .writeRegI2C sendData _ => ∃ k < 4, bus k = sendData.length
  | .multiWriteReg data _ => bus 0 = data.length
  | .burstWriteRegMulti data _ transferLength alloc =>
    maxCmdLen < data.length ∨ alloc = false ∨
      (CoversBytes data.length transferLength.toNat ∧
        ∃ k < 3, bus k = burstCount data.length transferLength.toNat ∧
          ∀ j < k, bus j % 2 ^ 16 ≠ transferLength.toNat)
  | _ => True

theorem sendRecv_ret (c : I2cClient) (cmd : List UInt8) (number : Nat) (expected : Int) :
    (sendRecv c cmd number expected bus).ret = 0 ↔ bus 0 = cmd.length ∧ bus 1 = expected := by
  unfold sendRecv
  by_cases hsend : bus 0 = cmd.length
  · by_cases hrecv : bus 1 = expected
    · simp [hsend, hrecv]
    · simp [hsend, hrecv]
  · simp [hsend]

theorem sentWhole_replicate {bytes n : Nat} {covers : Nat → Nat} {transfer : Transfer}
    {ret : Int} (hcovers : bytes ≤ covers transfer.count) :
    SentWhole bus bytes covers { ret, transfers := List.replicate n transfer } ↔
      ∃ k < n, bus k = transfer.count := by
  unfold SentWhole
  constructor
  · intro ⟨k, t, hget, hbus, _⟩
    obtain ⟨hk, hget⟩ := List.getElem?_eq_some_iff.mp hget
    rw [List.getElem_replicate] at hget
    rw [List.length_replicate] at hk
    exact ⟨k, hk, by rw [hbus, hget]⟩
  · intro ⟨k, hk, hbus⟩
    exact ⟨k, transfer, by simp [hk], hbus, hcovers⟩

/-- A write that tries up to `n` times until the whole count is reported. -/
theorem writeReports_attempts (bytes : Nat) {transfer : Transfer} (hcount : transfer.count = bytes)
    (n : Nat) :
    WriteReports bus bytes
        { ret := 0
          transfers := List.replicate (attempts (fun r => r = (bytes : Int)) bus n) transfer } ↔
      ∃ k < n, bus k = bytes := by
  have hexists := exists_attempt_iff (fun r => r = (bytes : Int)) bus n
  simp only [decide_eq_true_eq] at hexists
  unfold WriteReports
  rw [sentWhole_replicate bus (Nat.le_of_eq hcount.symm), hcount, hexists]
  exact ⟨fun h => h.mp rfl, fun h => ⟨fun _ => h, fun _ => rfl⟩⟩

theorem not_sentWhole (bytes : Nat) (covers : Nat → Nat) (ret : Int) :
    ¬ SentWhole bus bytes covers { ret } := by
  intro ⟨k, transfer, hget, _⟩
  simp at hget

theorem writeReg_reports (addr : BitVec 16) (data bytes : BitVec 32) (i2cId : BitVec 16) :
    ReportsTransfer hdr bus s (.writeReg addr data bytes i2cId) ↔
      Truthful bus (.writeReg addr data bytes i2cId) := by
  simp only [ReportsTransfer, Truthful, I2cCall.exec, iWriteReg]
  by_cases hlong : 2 < bytes.toNat
  · rw [if_pos hlong]
    refine iff_of_true ?_ (Or.inl hlong)
    exact iff_of_false (by simp) (not_sentWhole bus _ id (-1))
  · rw [if_neg hlong, or_iff_right hlong]
    let c := clearDma hdr { s.selected hdr with addr := deviceAddr i2cId }
    let send : Transfer :=
      { client := c, payload := .cpu (writeCmd addr data bytes.toNat), count := bytes.toNat + 2 }
    show WriteReports bus (bytes.toNat + 2)
      { ret := 0
        transfers := List.replicate
          (attempts (fun r => r = ((bytes.toNat + 2 : Nat) : Int)) bus 4) send } ↔ _
    exact writeReports_attempts bus (bytes.toNat + 2) rfl 4

/-- One attempt. -/
theorem multiWriteReg_reports (data : List UInt8) (i2cId : BitVec 16) :
    ReportsTransfer hdr bus s (.multiWriteReg data i2cId) ↔ bus 0 = data.length := by
  let c := { s.selected hdr with addr := deviceAddr i2cId }
  let send : Transfer :=
    { client := { c with extFlag := c.extFlag ||| hdr.dmaFlag }, payload := .dma data
      count := data.length }
  have hcount : data.length ≤ id send.count := Nat.le_refl _
  show WriteReports bus data.length { ret := 0, transfers := List.replicate 1 send } ↔ _
  unfold WriteReports
  rw [sentWhole_replicate bus hcount]
  simp [send]

/-- A burst that is not sent reports an error. -/
theorem burstReports_unsent {bytes : Nat} {alloc : Bool} {ret : Int} (hret : ret ≠ 0)
    (h : bytes ≤ maxCmdLen → alloc = false) (transferLength : Nat) :
    BurstReports bus bytes transferLength alloc { ret } := by
  refine ⟨iff_of_false hret (not_sentWhole bus bytes covered ret), fun hle => ?_⟩
  rw [h hle]
  exact ⟨fun halloc => absurd halloc Bool.false_ne_true, fun transfer hmem => by cases hmem⟩

/-- A burst that is sent reports 0. -/
theorem burstReports_sent {bytes transferLength : Nat} (hlong : ¬ maxCmdLen < bytes)
    (hlength : transferLength < 2 ^ 16) {transfer : Transfer}
    (hcount : transfer.count = burstCount bytes transferLength) :
    BurstReports bus bytes transferLength true
        { ret := 0
          transfers := List.replicate
            (attempts (fun r => r % 2 ^ 16 = (transferLength : Int)) bus 3) transfer } ↔
      CoversBytes bytes transferLength ∧ ∃ k < 3, bus k = burstCount bytes transferLength ∧
        ∀ j < k, bus j % 2 ^ 16 ≠ transferLength := by
  have hfirst : attempts (fun r => r % 2 ^ 16 = (transferLength : Int)) bus 3 ≠ 0 := by
    simp only [attempts]
    split <;> omega
  have hmem : transfer ∈ List.replicate
      (attempts (fun r => r % 2 ^ 16 = (transferLength : Int)) bus 3) transfer :=
    List.mem_replicate.mpr ⟨hfirst, rfl⟩
  have hsent : (∃ k < attempts (fun r => r % 2 ^ 16 = (transferLength : Int)) bus 3,
      bus k = burstCount bytes transferLength) ↔
      ∃ k < 3, bus k = burstCount bytes transferLength ∧
        ∀ j < k, bus j % 2 ^ 16 ≠ transferLength := by
    simp only [lt_attempts_iff, decide_eq_false_iff_not]
    exact ⟨fun ⟨k, ⟨hk, hall⟩, hbus⟩ => ⟨k, hk, hbus, hall⟩,
      fun ⟨k, hk, hbus, hall⟩ => ⟨k, ⟨hk, hall⟩, hbus⟩⟩
  constructor
  · intro ⟨hreport, hcovers⟩
    obtain ⟨hdivision, htransfers⟩ := hcovers (Nat.le_of_not_lt hlong)
    have hcovered := htransfers transfer hmem
    have hwhole := (sentWhole_replicate bus hcovered).mp (hreport.mp rfl)
    rw [hcount] at hcovered hwhole
    exact ⟨(covers_iff hlength).mp ⟨hdivision rfl, hcovered⟩, hsent.mp hwhole⟩
  · intro ⟨hcovers, hwhole⟩
    obtain ⟨hdivision, hcovered⟩ := (covers_iff hlength).mpr hcovers
    rw [← hcount] at hcovered
    refine ⟨iff_of_true rfl ((sentWhole_replicate bus hcovered).mpr ?_),
      fun _ => ⟨fun _ => hdivision, fun t ht => ?_⟩⟩
    · rw [hcount]
      exact hsent.mpr hwhole
    · rw [List.eq_of_mem_replicate ht]
      exact hcovered

theorem burst_reports (data : List UInt8) (i2cId transferLength : BitVec 16) (alloc : Bool) :
    ReportsTransfer hdr bus s (.burstWriteRegMulti data i2cId transferLength alloc) ↔
      Truthful bus (.burstWriteRegMulti data i2cId transferLength alloc) := by
  simp only [ReportsTransfer, Truthful, I2cCall.exec, iBurstWriteRegMulti]
  by_cases hlong : maxCmdLen < data.length
  · rw [if_pos hlong]
    have hle : data.length ≤ maxCmdLen → alloc = false :=
      fun hle => absurd hle (Nat.not_le_of_lt hlong)
    exact iff_of_true (burstReports_unsent bus (Int.one_ne_zero) hle _) (Or.inl hlong)
  · rw [if_neg hlong, or_iff_right hlong]
    cases alloc with
    | false =>
      have hret : (-1 : Int) ≠ 0 := by decide
      exact iff_of_true (burstReports_unsent bus hret (fun _ => rfl) _) (Or.inl rfl)
    | true =>
      refine (burstReports_sent bus hlong transferLength.isLt rfl).trans ?_
      simp

end Transfers

/-- An accessor reports what the bus has done exactly on these results. -/
theorem reports_iff (hdr : I2cHeader) (bus : Nat → Int) (s : I2c) (call : I2cCall) :
    ReportsTransfer hdr bus s call ↔ Truthful bus call := by
  cases call with
  | readReg addr i2cId => exact iff_of_true (sendRecv_ret bus _ (readCmd addr) 1 1) trivial
  | readRegI2C sendData sizeRecvData i2cId =>
    exact iff_of_true (sendRecv_ret bus _ sendData _ sizeRecvData.toNat) trivial
  | multiReadReg addr i2cId number =>
    have hret : (((I2cCall.multiReadReg addr i2cId number).exec hdr bus s).2.ret = 0 ↔
        bus 0 = 2 ∧ bus 1 = 1) := sendRecv_ret bus _ (readCmd addr) number.toNat 1
    simp only [ReportsTransfer, Truthful]
    rw [hret, and_congr_right_iff]
    by_cases hsend : bus 0 = 2
    · have hnumber : number = 1 ↔ number.toNat = 1 := by
        rw [← BitVec.toNat_inj]
        rfl
      simp only [hsend, true_imp_iff, ne_eq, not_true_eq_false, false_or, hnumber]
      omega
    · exact iff_of_true (fun h => absurd h hsend) (Or.inr (Or.inl hsend))
  | writeReg addr data bytes i2cId => exact writeReg_reports hdr bus s addr data bytes i2cId
  | writeRegI2C sendData i2cId => exact writeReports_attempts bus sendData.length rfl 4
  | burstWriteRegMulti data i2cId transferLength alloc =>
    exact burst_reports hdr bus s data i2cId transferLength alloc
  | multiWriteReg data i2cId => exact multiWriteReg_reports hdr bus s data i2cId
  | setI2CBusNum i2cBusNum => exact Iff.rfl
  | searching search => exact Iff.rfl

/-- Four bytes are read and the read fails. -/
theorem multiRead_fails :
    ¬ ReportsTransfer sampleHeader (fun k => if k = 0 then 2 else 4) quietI2c
      (.multiReadReg 0x3000 0x20 4) := by
  unfold ReportsTransfer
  decide

end Camera
end AtomDrivers
