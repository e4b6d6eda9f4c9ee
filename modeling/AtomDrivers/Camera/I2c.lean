/-
The register accessors of the camera sensors.

Two I2C clients stand behind one bus number.  An accessor puts the device
address and the transfer flags into the selected client and then sends and
receives.  The flags stay in the client after the call, so they are state that
all accessors share.  A call is given the results of its transfers in order, and
its reply lists the transfers as they were issued.
-/
import AtomDrivers.Machine.Run
import Mathlib.Algebra.Group.Nat.Defs
import Mathlib.Algebra.GroupWithZero.Nat
import Mathlib.Algebra.Ring.Int.Defs

namespace AtomDrivers
namespace Camera

/-- The flags of `ext_flag` and the two bus numbers.  The flags are different
bits. -/
structure I2cHeader where
  dmaFlag : BitVec 32
  filterMsg : BitVec 32
  enextFlag : BitVec 32
  pollingFlag : BitVec 32
  busNum1 : BitVec 32
  busNum2 : BitVec 32
  dma_ne_zero : dmaFlag ≠ 0
  dma_filter : dmaFlag &&& filterMsg = 0
  dma_polling : dmaFlag &&& pollingFlag = 0

structure I2cClient where
  addr : BitVec 16
  extFlag : BitVec 32
  deriving DecidableEq, Repr

structure I2c where
  pstI2Cclient : I2cClient
  pstI2Cclient2 : I2cClient
  i2cBusNum : BitVec 32
  isSearchSensor : Bool
  deriving DecidableEq, Repr

/-- What a transfer is given: bytes of an ordinary buffer, room in one, or the
bytes behind an address for the DMA engine. -/
inductive Payload
  | cpu (bytes : List UInt8)
  | room
  | dma (bytes : List UInt8)
  deriving DecidableEq, Repr

/-- One `i2c_master_send` or `i2c_master_recv`, with the client as it is at that
moment. -/
structure Transfer where
  client : I2cClient
  payload : Payload
  count : Nat
  deriving DecidableEq, Repr

structure I2cReply where
  ret : Int
  transfers : List Transfer := []
  deriving DecidableEq, Repr

section Accessors

variable (hdr : I2cHeader)

def I2c.onBus1 (s : I2c) : Bool := s.i2cBusNum = hdr.busNum1

/-- The client the accessors use. -/
def I2c.selected (s : I2c) : I2cClient :=
  if s.onBus1 hdr then s.pstI2Cclient else s.pstI2Cclient2

def I2c.setSelected (s : I2c) (c : I2cClient) : I2c :=
  if s.onBus1 hdr then { s with pstI2Cclient := c } else { s with pstI2Cclient2 := c }

def deviceAddr (i2cId : BitVec 16) : BitVec 16 := i2cId >>> 1

def clearDma (c : I2cClient) : I2cClient := { c with extFlag := c.extFlag &&& ~~~hdr.dmaFlag }

/-- No acknowledge errors are logged while sensors are searched for. -/
def filterAck (search : Bool) (c : I2cClient) : I2cClient :=
  if search then { c with extFlag := c.extFlag ||| hdr.filterMsg }
  else { c with extFlag := c.extFlag &&& ~~~hdr.filterMsg }

def readCmd (addr : BitVec 16) : List UInt8 :=
  [UInt8.ofNat (addr.toNat / 256), UInt8.ofNat (addr.toNat % 256)]

/-- Send an address, check it, receive and check what came.  `bus k` is the
result of the `k`-th transfer. -/
def sendRecv (c : I2cClient) (cmd : List UInt8) (number : Nat) (expected : Int)
    (bus : Nat → Int) : I2cReply :=
  let send := { client := c, payload := .cpu cmd, count := cmd.length }
  let recv := { client := c, payload := .room, count := number }
  if bus 0 ≠ cmd.length then { ret := -1, transfers := [send] }
  else if bus 1 ≠ expected then { ret := -1, transfers := [send, recv] }
  else { ret := 0, transfers := [send, recv] }

def iMultiReadReg (addr : BitVec 16) (i2cId : BitVec 16) (number : BitVec 8) (bus : Nat → Int)
    (s : I2c) : I2c × I2cReply :=
  let c := { s.selected hdr with addr := deviceAddr i2cId }
  (s.setSelected hdr c, sendRecv c (readCmd addr) number.toNat 1 bus)

def iReadReg (addr : BitVec 16) (i2cId : BitVec 16) (bus : Nat → Int) (s : I2c) :
    I2c × I2cReply :=
  let c := { s.selected hdr with addr := deviceAddr i2cId }
  let c := if s.onBus1 hdr then filterAck hdr s.isSearchSensor (clearDma hdr c)
    else filterAck hdr s.isSearchSensor c
  (s.setSelected hdr c, sendRecv c (readCmd addr) 1 1 bus)

def iReadRegI2C (sendData : List UInt8) (sizeRecvData : BitVec 16) (i2cId : BitVec 16)
    (bus : Nat → Int) (s : I2c) : I2c × I2cReply :=
  let c := { s.selected hdr with addr := deviceAddr i2cId }
  let c := if s.onBus1 hdr then filterAck hdr s.isSearchSensor (clearDma hdr c)
    else filterAck hdr s.isSearchSensor c
  (s.setSelected hdr c, sendRecv c sendData sizeRecvData.toNat sizeRecvData.toNat bus)

/-- The number of attempts: until the first one that is `ok`, at most `n`. -/
def attempts (ok : Int → Bool) (bus : Nat → Int) : Nat → Nat
  | 0 => 0
  | n + 1 => if ok (bus 0) then 1 else attempts ok (fun k => bus (k + 1)) n + 1

/-- The bytes of `iWriteReg`: the register address, then the lowest `bytes` bytes
of the data, the highest first. -/
def writeCmd (addr : BitVec 16) (data : BitVec 32) (bytes : Nat) : List UInt8 :=
  readCmd addr ++
    ((List.range bytes).map fun i => UInt8.ofNat (data.toNat / 256 ^ (bytes - i - 1) % 256))

def iWriteReg (addr : BitVec 16) (data : BitVec 32) (bytes : BitVec 32) (i2cId : BitVec 16)
    (bus : Nat → Int) (s : I2c) : I2c × I2cReply :=
  let c := clearDma hdr { s.selected hdr with addr := deviceAddr i2cId }
  let s := s.setSelected hdr c
  if 2 < bytes.toNat then (s, { ret := -1 })
  else
    let cmd := writeCmd addr data bytes.toNat
    let send := { client := c, payload := .cpu cmd, count := bytes.toNat + 2 }
    (s, { ret := 0, transfers :=
            List.replicate (attempts (fun r => r = bytes.toNat + 2) bus 4) send })

def iWriteRegI2C (sendData : List UInt8) (i2cId : BitVec 16) (bus : Nat → Int) (s : I2c) :
    I2c × I2cReply :=
  let c := clearDma hdr { s.selected hdr with addr := deviceAddr i2cId }
  let send := { client := c, payload := .cpu sendData, count := sendData.length }
  (s.setSelected hdr c,
    { ret := 0, transfers :=
        List.replicate (attempts (fun r => r = sendData.length) bus 4) send })

def maxCmdLen : Nat := 255

/-- The count word of a burst: a repeat count above a transfer length.  The
processor's division by 0 gives 0. -/
def burstCount (bytes transferLength : Nat) : Nat :=
  if bytes = transferLength then transferLength
  else (bytes / transferLength) <<< 16 ||| transferLength

def burstFlags (c : I2cClient) : I2cClient :=
  { c with extFlag := (c.extFlag ||| hdr.enextFlag ||| hdr.dmaFlag) &&& ~~~hdr.pollingFlag }

/-- `alloc` says whether `dma_alloc_coherent` succeeds.  The old address is put
back at the end, the flags stay. -/
def iBurstWriteRegMulti (data : List UInt8) (i2cId : BitVec 16) (transferLength : BitVec 16)
    (alloc : Bool) (bus : Nat → Int) (s : I2c) : I2c × I2cReply :=
  if maxCmdLen < data.length then (s, { ret := 1 })
  else if !alloc then (s, { ret := -1 })
  else
    let old := s.selected hdr
    let c := burstFlags hdr { old with addr := deviceAddr i2cId }
    let send := { client := c, payload := .dma data,
                  count := burstCount data.length transferLength.toNat }
    let n := attempts (fun r => r % 2 ^ 16 = transferLength.toNat) bus 3
    (s.setSelected hdr { c with addr := old.addr },
      { ret := 0, transfers := List.replicate n send })

def iMultiWriteReg (data : List UInt8) (i2cId : BitVec 16) (s : I2c) : I2c × I2cReply :=
  let c := { s.selected hdr with addr := deviceAddr i2cId }
  let c := { c with extFlag := c.extFlag ||| hdr.dmaFlag }
  let send := { client := c, payload := .dma data, count := data.length }
  (s.setSelected hdr c, { ret := 0, transfers := [send] })

def kdSetI2CBusNum (i2cBusNum : BitVec 32) (s : I2c) : I2c × I2cReply :=
  if i2cBusNum ≠ hdr.busNum2 ∧ i2cBusNum ≠ hdr.busNum1 then (s, { ret := -1 })
  else ({ s with i2cBusNum }, { ret := 0 })

end Accessors

/-- A call with its arguments.  `searching` is a change of `g_IsSearchSensor`
between calls. -/
inductive I2cCall
  | readReg (addr i2cId : BitVec 16)
  | readRegI2C (sendData : List UInt8) (sizeRecvData i2cId : BitVec 16)
  | multiReadReg (addr i2cId : BitVec 16) (number : BitVec 8)
  | writeReg (addr : BitVec 16) (data bytes : BitVec 32) (i2cId : BitVec 16)
  | writeRegI2C (sendData : List UInt8) (i2cId : BitVec 16)
  | burstWriteRegMulti (data : List UInt8) (i2cId transferLength : BitVec 16) (alloc : Bool)
  | multiWriteReg (data : List UInt8) (i2cId : BitVec 16)
  | setI2CBusNum (i2cBusNum : BitVec 32)
  | searching (search : Bool)
  deriving DecidableEq, Repr

def I2cCall.exec (hdr : I2cHeader) (bus : Nat → Int) (s : I2c) : I2cCall → I2c × I2cReply
  | .readReg addr i2cId => iReadReg hdr addr i2cId bus s
  | .readRegI2C sendData sizeRecvData i2cId => iReadRegI2C hdr sendData sizeRecvData i2cId bus s
  | .multiReadReg addr i2cId number => iMultiReadReg hdr addr i2cId number bus s
  | .writeReg addr data bytes i2cId => iWriteReg hdr addr data bytes i2cId bus s
  | .writeRegI2C sendData i2cId => iWriteRegI2C hdr sendData i2cId bus s
  | .burstWriteRegMulti data i2cId transferLength alloc =>
    iBurstWriteRegMulti hdr data i2cId transferLength alloc bus s
  | .multiWriteReg data i2cId => iMultiWriteReg hdr data i2cId s
  | .setI2CBusNum i2cBusNum => kdSetI2CBusNum hdr i2cBusNum s
  | .searching search => ({ s with isSearchSensor := search }, { ret := 0 })

/-- Every call can be made in every state, with any results on the bus. -/
def i2c (hdr : I2cHeader) : Machine I2c (I2cCall × (Nat → Int)) I2cReply where
  step s call := some (call.1.exec hdr call.2 s)

/-- The accessors that hand over ordinary buffers. -/
def I2cCall.Cpu : I2cCall → Bool
  | .readReg .. | .readRegI2C .. | .multiReadReg .. | .writeReg .. | .writeRegI2C .. => true
  | _ => false

end Camera
end AtomDrivers
