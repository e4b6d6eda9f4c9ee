/-
Transfer modes that leak.

An accessor with an ordinary buffer needs a client whose DMA flag is clear.
Whether it gets one depends on the calls before it.  `modes` keeps, for each
bus, the mode its last mode-setting call left, and moves in lockstep with the
clients.  The flag is clear in every such transfer of a run exactly when no call
of the run that leaves the mode alone follows a burst on its bus.
-/
import AtomDrivers.Camera.I2c
import AtomDrivers.Machine.Refine

namespace AtomDrivers
namespace Camera

/-- Which bus is selected, and for each bus whether its last mode was DMA. -/
structure I2cMode where
  bus2 : Bool
  dma1 : Bool
  dma2 : Bool
  deriving DecidableEq, Repr

def I2cMode.set (m : I2cMode) (dma : Bool) : I2cMode :=
  if m.bus2 then { m with dma2 := dma } else { m with dma1 := dma }

def I2cMode.dma (m : I2cMode) : Bool := if m.bus2 then m.dma2 else m.dma1

/-- The mode after a call.  The readers set it on bus 1 only, and
`iMultiReadReg` on neither. -/
def I2cCall.mode (hdr : I2cHeader) (m : I2cMode) : I2cCall → I2cMode
  | .readReg .. | .readRegI2C .. => if m.bus2 then m else m.set false
  | .multiReadReg .. | .searching _ => m
  | .writeReg .. | .writeRegI2C .. => m.set false
  | .burstWriteRegMulti data _ _ alloc =>
    if data.length ≤ maxCmdLen ∧ alloc then m.set true else m
  | .multiWriteReg .. => m.set true
  | .setI2CBusNum i2cBusNum =>
    if i2cBusNum ≠ hdr.busNum2 ∧ i2cBusNum ≠ hdr.busNum1 then m
    else { m with bus2 := i2cBusNum ≠ hdr.busNum1 }

def modes (hdr : I2cHeader) : Machine I2cMode I2cCall Unit where
  step m call := some (call.mode hdr m, ())

/-- A call that leaves the mode of its bus alone does not follow a burst. -/
def ModeSafe (m : I2cMode) : I2cCall → Prop
  | .multiReadReg .. => m.dma = false
  | .readReg .. | .readRegI2C .. => m.bus2 = false ∨ m.dma2 = false
  | _ => True

section Flags

variable (hdr : I2cHeader)

def DmaClear (c : I2cClient) : Prop := c.extFlag &&& hdr.dmaFlag = 0

instance (c : I2cClient) : Decidable (DmaClear hdr c) :=
  inferInstanceAs (Decidable (c.extFlag &&& hdr.dmaFlag = 0))

/-- Setting or clearing other bits leaves `d` alone. -/
theorem and_of_disjoint {d f : BitVec 32} (h : d &&& f = 0) (x : BitVec 32) :
    (x ||| f) &&& d = x &&& d ∧ (x &&& ~~~f) &&& d = x &&& d := by
  have hbit : ∀ i, d.getLsbD i = true → f.getLsbD i = false := by
    intro i hd
    have hi := congrArg (fun v => v.getLsbD i) h
    simpa [hd] using hi
  constructor
  · apply BitVec.eq_of_getLsbD_eq
    intro i hi
    simp only [BitVec.getLsbD_and, BitVec.getLsbD_or]
    cases hd : d.getLsbD i with
    | false => simp
    | true => simp [hbit i hd]
  · apply BitVec.eq_of_getLsbD_eq
    intro i hi
    simp only [BitVec.getLsbD_and, BitVec.getLsbD_not, hi, decide_true, Bool.true_and]
    cases hd : d.getLsbD i with
    | false => simp
    | true => simp [hbit i hd]

theorem or_and_self (x d : BitVec 32) : (x ||| d) &&& d = d := by
  apply BitVec.eq_of_getLsbD_eq
  intro i hi
  simp only [BitVec.getLsbD_and, BitVec.getLsbD_or]
  cases x.getLsbD i <;> cases d.getLsbD i <;> rfl

theorem dmaClear_clearDma (c : I2cClient) : DmaClear hdr (clearDma hdr c) := by
  simp [DmaClear, clearDma, BitVec.and_assoc]

theorem dmaClear_filterAck (search : Bool) (c : I2cClient) :
    DmaClear hdr (filterAck hdr search c) ↔ DmaClear hdr c := by
  have hfilter := and_of_disjoint hdr.dma_filter c.extFlag
  unfold filterAck DmaClear
  split
  · rw [hfilter.1]
  · rw [hfilter.2]

theorem not_dmaClear_burstFlags (c : I2cClient) : ¬ DmaClear hdr (burstFlags hdr c) := by
  have hpolling := and_of_disjoint hdr.dma_polling (c.extFlag ||| hdr.enextFlag ||| hdr.dmaFlag)
  rw [DmaClear, burstFlags, hpolling.2, or_and_self]
  exact hdr.dma_ne_zero

theorem not_dmaClear_or (c : I2cClient) :
    ¬ DmaClear hdr { c with extFlag := c.extFlag ||| hdr.dmaFlag } := by
  rw [DmaClear, or_and_self]
  exact hdr.dma_ne_zero

end Flags

/-! ## The clients and their modes in lockstep -/

/-- The mode of each bus is the DMA flag of its client. -/
structure InMode (hdr : I2cHeader) (s : I2c) (m : I2cMode) : Prop where
  bus2 : m.bus2 = !s.onBus1 hdr
  dma1 : m.dma1 = false ↔ DmaClear hdr s.pstI2Cclient
  dma2 : m.dma2 = false ↔ DmaClear hdr s.pstI2Cclient2

section Lockstep

variable {hdr : I2cHeader} {s : I2c} {m : I2cMode}

theorem InMode.dma (h : InMode hdr s m) : m.dma = false ↔ DmaClear hdr (s.selected hdr) := by
  unfold I2cMode.dma I2c.selected
  rw [h.bus2]
  cases s.onBus1 hdr with
  | true => simpa using h.dma1
  | false => simpa using h.dma2

theorem InMode.set (h : InMode hdr s m) {c : I2cClient} (dma : Bool)
    (hc : dma = false ↔ DmaClear hdr c) : InMode hdr (s.setSelected hdr c) (m.set dma) := by
  unfold I2cMode.set I2c.setSelected
  have hbus := h.bus2
  cases hb : s.onBus1 hdr with
  | true =>
    rw [hb] at hbus
    simp only [hbus, Bool.not_true, Bool.false_eq_true, if_false, if_true]
    exact ⟨(congrArg not hb).symm, hc, h.dma2⟩
  | false =>
    rw [hb] at hbus
    simp only [hbus, Bool.not_false, if_true, Bool.false_eq_true, if_false]
    exact ⟨(congrArg not hb).symm, h.dma1, hc⟩

/-- A client whose flag is as before keeps the mode. -/
theorem InMode.keep (h : InMode hdr s m) {c : I2cClient}
    (hc : DmaClear hdr c ↔ DmaClear hdr (s.selected hdr)) :
    InMode hdr (s.setSelected hdr c) m := by
  have hset := h.set m.dma (h.dma.trans hc.symm)
  have hsame : m.set m.dma = m := by
    obtain ⟨bus2, dma1, dma2⟩ := m
    cases bus2 <;> rfl
  rwa [hsame] at hset

/-- What a reading accessor makes of the client. -/
theorem InMode.read (h : InMode hdr s m) (i2cId : BitVec 16) :
    InMode hdr (s.setSelected hdr
        (let c := { s.selected hdr with addr := deviceAddr i2cId }
          if s.onBus1 hdr then filterAck hdr s.isSearchSensor (clearDma hdr c)
          else filterAck hdr s.isSearchSensor c))
      (if m.bus2 then m else m.set false) := by
  have hbus := h.bus2
  cases hb : s.onBus1 hdr with
  | true =>
    rw [hb] at hbus
    simp only [hbus, Bool.not_true, Bool.false_eq_true, if_false, if_true]
    refine h.set _ (iff_of_true rfl ?_)
    rw [dmaClear_filterAck]
    exact dmaClear_clearDma hdr _
  | false =>
    rw [hb] at hbus
    simp only [hbus, Bool.not_false, if_true, Bool.false_eq_true, if_false]
    refine h.keep ?_
    rw [dmaClear_filterAck]
    exact Iff.rfl

theorem InMode.exec (h : InMode hdr s m) (call : I2cCall) (bus : Nat → Int) :
    InMode hdr (call.exec hdr bus s).1 (call.mode hdr m) := by
  cases call with
  | readReg addr i2cId => exact h.read i2cId
  | readRegI2C sendData sizeRecvData i2cId => exact h.read i2cId
  | multiReadReg addr i2cId number => exact h.keep Iff.rfl
  | writeReg addr data bytes i2cId =>
    have hset := h.set false (iff_of_true rfl
      (dmaClear_clearDma hdr { s.selected hdr with addr := deviceAddr i2cId }))
    simp only [I2cCall.exec, iWriteReg, I2cCall.mode]
    split
    · exact hset
    · exact hset
  | writeRegI2C sendData i2cId =>
    exact h.set _ (iff_of_true rfl (dmaClear_clearDma hdr _))
  | burstWriteRegMulti data i2cId transferLength alloc =>
    simp only [I2cCall.exec, iBurstWriteRegMulti, I2cCall.mode]
    by_cases hlen : maxCmdLen < data.length
    · rw [if_pos hlen, if_neg (by omega)]
      exact h
    · rw [if_neg hlen]
      cases alloc with
      | false => simpa using h
      | true =>
        rw [if_neg (by simp), if_pos ⟨by omega, rfl⟩]
        exact h.set _ (iff_of_false (by simp) (not_dmaClear_burstFlags hdr _))
  | multiWriteReg data i2cId =>
    exact h.set _ (iff_of_false (by simp) (not_dmaClear_or hdr _))
  | setI2CBusNum i2cBusNum =>
    simp only [I2cCall.exec, kdSetI2CBusNum, I2cCall.mode]
    split
    · exact h
    · refine ⟨?_, h.dma1, h.dma2⟩
      simp only [I2c.onBus1, decide_not]
  | searching search => exact ⟨h.bus2, h.dma1, h.dma2⟩

theorem modes_lockstep (hdr : I2cHeader) :
    Machine.Lockstep (i2c hdr) (modes hdr) (fun _ => True) Prod.fst (InMode hdr) (fun _ => ()) :=
  fun _ _ call h _ => .some ⟨h.exec call.1 call.2, rfl⟩

end Lockstep

/-! ## Transfers of ordinary buffers -/

/-- Every transfer of an ordinary buffer is issued with the DMA flag clear. -/
def CpuClear (hdr : I2cHeader) (s : I2c) (call : I2cCall × (Nat → Int)) : Prop :=
  ∀ t reply, (i2c hdr).step s call = some (t, reply) → call.1.Cpu → ∀ tr ∈ reply.transfers,
    DmaClear hdr tr.client

theorem sendRecv_clear {hdr : I2cHeader} {c : I2cClient} {cmd : List UInt8} {number : Nat}
    {expected : Int} {bus : Nat → Int} :
    (∀ tr ∈ (sendRecv c cmd number expected bus).transfers, DmaClear hdr tr.client) ↔
      DmaClear hdr c := by
  unfold sendRecv
  split
  · simp
  · split <;> simp

theorem replicate_clear {hdr : I2cHeader} {send : Transfer} {n : Nat}
    (h : DmaClear hdr send.client) : ∀ tr ∈ List.replicate n send, DmaClear hdr tr.client := by
  intro tr htr
  rw [(List.mem_replicate.mp htr).2]
  exact h

theorem cpuClear_read {hdr : I2cHeader} {s : I2c} {m : I2cMode} (h : InMode hdr s m)
    (i2cId : BitVec 16) :
    DmaClear hdr
        (let c := { s.selected hdr with addr := deviceAddr i2cId }
          if s.onBus1 hdr then filterAck hdr s.isSearchSensor (clearDma hdr c)
          else filterAck hdr s.isSearchSensor c) ↔
      m.bus2 = false ∨ m.dma2 = false := by
  have hbus := h.bus2
  cases hb : s.onBus1 hdr with
  | true =>
    rw [hb] at hbus
    refine iff_of_true ?_ (Or.inl hbus)
    rw [if_pos rfl, dmaClear_filterAck]
    exact dmaClear_clearDma hdr _
  | false =>
    rw [hb] at hbus
    rw [if_neg (by simp), dmaClear_filterAck, hbus, h.dma2, I2c.selected, hb]
    simp [DmaClear]

theorem cpuClear_iff {hdr : I2cHeader} {s : I2c} {m : I2cMode} (h : InMode hdr s m)
    (call : I2cCall × (Nat → Int)) : CpuClear hdr s call ↔ ModeSafe m call.1 := by
  obtain ⟨call, bus⟩ := call
  have hone : CpuClear hdr s (call, bus) ↔
      (call.Cpu → ∀ tr ∈ (call.exec hdr bus s).2.transfers, DmaClear hdr tr.client) := by
    constructor
    · exact fun hall => hall _ _ rfl
    · intro hall t reply hstep
      have hreply : (call.exec hdr bus s).2 = reply := congrArg Prod.snd (Option.some.inj hstep)
      rw [← hreply]
      exact hall
  rw [hone]
  cases call with
  | readReg addr i2cId =>
    simp only [I2cCall.Cpu, forall_const, I2cCall.exec, iReadReg, sendRecv_clear, ModeSafe]
    exact cpuClear_read h i2cId
  | readRegI2C sendData sizeRecvData i2cId =>
    simp only [I2cCall.Cpu, forall_const, I2cCall.exec, iReadRegI2C, sendRecv_clear, ModeSafe]
    exact cpuClear_read h i2cId
  | multiReadReg addr i2cId number =>
    simp only [I2cCall.Cpu, forall_const, I2cCall.exec, iMultiReadReg, sendRecv_clear, ModeSafe]
    exact h.dma.symm
  | writeReg addr data bytes i2cId =>
    refine iff_of_true (fun _ => ?_) trivial
    simp only [I2cCall.exec, iWriteReg]
    split
    · simp
    · exact replicate_clear (dmaClear_clearDma hdr _)
  | writeRegI2C sendData i2cId =>
    exact iff_of_true (fun _ => replicate_clear (dmaClear_clearDma hdr _)) trivial
  | burstWriteRegMulti data i2cId transferLength alloc =>
    exact iff_of_true (fun hcpu => by simp [I2cCall.Cpu] at hcpu) trivial
  | multiWriteReg data i2cId =>
    exact iff_of_true (fun hcpu => by simp [I2cCall.Cpu] at hcpu) trivial
  | setI2CBusNum i2cBusNum =>
    exact iff_of_true (fun hcpu => by simp [I2cCall.Cpu] at hcpu) trivial
  | searching search =>
    exact iff_of_true (fun hcpu => by simp [I2cCall.Cpu] at hcpu) trivial

/-- From clients with a clear DMA flag, and over every sequence of calls with any
results on the bus: ordinary buffers are always transferred with the flag clear
exactly when no call leaves a burst's mode in place and uses it. -/
theorem cpu_transfers_clear_iff (hdr : I2cHeader) (s : I2c)
    (h1 : DmaClear hdr s.pstI2Cclient) (h2 : DmaClear hdr s.pstI2Cclient2)
    (calls : List (I2cCall × (Nat → Int))) :
    (i2c hdr).AllSteps (CpuClear hdr) s calls ↔
      (modes hdr).AllSteps ModeSafe
        { bus2 := !s.onBus1 hdr, dma1 := false, dma2 := false } (calls.map Prod.fst) :=
  (modes_lockstep hdr).allSteps_iff (fun _ _ call h => cpuClear_iff h call)
    ⟨rfl, iff_of_true rfl h1, iff_of_true rfl h2⟩ calls

def sampleHeader : I2cHeader where
  dmaFlag := 0x2
  filterMsg := 0x4
  enextFlag := 0x8
  pollingFlag := 0x10
  busNum1 := 0
  busNum2 := 1
  dma_ne_zero := by decide
  dma_filter := by decide
  dma_polling := by decide

def quietI2c : I2c :=
  { pstI2Cclient := { addr := 0, extFlag := 0 }, pstI2Cclient2 := { addr := 0, extFlag := 0 },
    i2cBusNum := 0, isSearchSensor := false }

theorem cpu_transfers_clear_iff_read :
    (i2c sampleHeader).AllSteps (CpuClear sampleHeader) quietI2c
        [(.multiWriteReg [1] 0x20, fun _ => 1), (.readReg 0 0x20, fun _ => 1)] ↔
      (modes sampleHeader).AllSteps ModeSafe { bus2 := false, dma1 := false, dma2 := false }
        [.multiWriteReg [1] 0x20, .readReg 0 0x20] :=
  cpu_transfers_clear_iff sampleHeader quietI2c (by decide) (by decide) _

/-- After a burst, `iMultiReadReg` hands its CPU buffers to the DMA engine. -/
theorem multiReadReg_uses_dma :
    DmaClear sampleHeader quietI2c.pstI2Cclient ∧ DmaClear sampleHeader quietI2c.pstI2Cclient2 ∧
    ¬ (i2c sampleHeader).AllSteps (CpuClear sampleHeader) quietI2c
        [(.multiWriteReg [1] 0x20, fun _ => 1), (.multiReadReg 0 0x20 1, fun _ => 2)] := by
  refine ⟨by decide, by decide, fun hall => ?_⟩
  have hread := (hall.2 _ _ rfl).1 _ _ rfl rfl
  exact absurd (hread _ List.mem_cons_self) (by decide)

end Camera
end AtomDrivers
