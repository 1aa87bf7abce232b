import Mathlib
import OpenSM.Lib.Runs
import OpenSM.Lib.TailInsert

/-! Noisy traps: the tracker that counts them, and the ports that are marked unhealthy until they have aged. -/

namespace OpenSM.TrapRcv

abbrev Byte := BitVec 8

def crcTable (i : Byte) : BitVec 32 :=
  (fun crc : BitVec 32 => if crc &&& 1 = 1 then (crc >>> 1) ^^^ 0xEDB88320 else crc >>> 1)^[8] (i.setWidth 32)

def trapCalcCrc32 (buffer : List Byte) : BitVec 32 :=
  buffer.foldl (fun crc p => ((crc >>> 8) &&& 0x00FFFFFF) ^^^ crcTable ((crc ^^^ p.setWidth 32).setWidth 8))
    (BitVec.allOnes 32)

def trapGetKey (lid : BitVec 16) (portNum : Byte) (ntci : List Byte) : BitVec 64 :=
  (portNum.setWidth 64 <<< 48) ||| (lid.setWidth 64 <<< 32) ||| (trapCalcCrc32 ntci).setWidth 64

/-- What `aging_tracker_callback` takes from the key. -/
def keyLid (key : BitVec 64) : BitVec 16 := ((key &&& 0x0000FFFF00000000) >>> 32).setWidth 16

def keyPortNum (key : BitVec 64) : Byte := ((key &&& 0x00FF000000000000) >>> 48).setWidth 8

/-- The 64 bytes of SMP data in a cleared `ib_mad_notice_attr_t`. -/
def payload (data : List Byte) : List Byte := (data.take 64).rightpad 80 0

section Notice

variable (ntci : List Byte)

def isGeneric : Bool := decide (ntci.getD 0 0 &&& 0x80 ≠ 0)

def trapNum : BitVec 16 := ntci.getD 4 0 ++ ntci.getD 5 0

/-- `data_details.ntc_129_131` -/
def noticeLid : BitVec 16 := ntci.getD 12 0 ++ ntci.getD 13 0

def noticePortNum : Byte := ntci.getD 14 0

def physpChangeTrap : Bool :=
  isGeneric ntci && (decide (trapNum ntci = 129) || decide (trapNum ntci = 130) || decide (trapNum ntci = 131))

end Notice

/-- `cl_event_wheel_reg_info_t`; the callback is `aging_tracker_callback` or null. -/
structure Event where
  key : BitVec 64
  agingTime : ℕ
  numRegs : BitVec 32
  callback : Bool
  deriving DecidableEq

/-- `num_physp`, and `healthy` of the physical ports that are valid. -/
structure Node where
  numPhysp : ℕ
  healthy : ℕ → Option Bool

structure Received where
  key : BitVec 64
  time : ℕ
  timeout : ℕ
  deriving DecidableEq

structure Sm where
  now : ℕ
  smBaseLid : BitVec 16
  babblingPortPolicy : Bool
  portLidTbl : BitVec 16 → Option ℕ
  node : ℕ → Option Node
  eventsWheel : List Event
  received : List Received

def trapSuppressionTimeout : ℕ := 5000000

def unhealthyTimeout : ℕ := 60000000

/-- A trap as it arrives, and what happens to it from outside: whether the response can be sent, whether the port
can be set to be disabled, and whether there is memory for an event. -/
structure Trap where
  isGsi : Bool
  sourceLid : BitVec 16
  data : List Byte
  respOk : Bool
  setOk : Bool
  alloc : Bool

namespace Sm

variable (s : Sm)

def getPhyspByLidAndNum (lid : BitVec 16) (num : Byte) : Option (ℕ × ℕ) := do
  let n ← s.portLidTbl lid
  let node ← s.node n
  if node.numPhysp ≤ num.toNat then none else (node.healthy num.toNat).map fun _ => (n, num.toNat)

def health (p : ℕ × ℕ) : Option Bool := (s.node p.1).bind fun node => node.healthy p.2

def setHealth (p : ℕ × ℕ) (b : Bool) : Sm :=
  { s with
    node := Function.update s.node p.1
      ((s.node p.1).map fun node => { node with healthy := Function.update node.healthy p.2 (some b) }) }

def agingTrackerCallback (key : BitVec 64) : Sm :=
  match s.getPhyspByLidAndNum (keyLid key) (keyPortNum key) with
  | none => s
  | some p => if s.health p = some false then s.setHealth p true else s

/-- `cl_qmap_get` of the tracker. -/
def event (key : BitVec 64) : Option Event := s.eventsWheel.find? fun e => decide (e.key = key)

def numRegs (key : BitVec 64) : BitVec 32 := (s.event key).elim 0 Event.numRegs

/-- `__event_will_age_before` finds the place. -/
def insert (wheel : List Event) (e : Event) : List Event :=
  Lib.TailInsert.insertAfter (fun x => decide (x.agingTime < e.agingTime)) wheel e

def reg (key : BitVec 64) (agingTime : ℕ) (callback alloc : Bool) : Sm :=
  match s.event key with
  | some e =>
    { s with
      eventsWheel := insert (s.eventsWheel.eraseP fun e => decide (e.key = key))
        ⟨key, agingTime, e.numRegs + 1, callback⟩ }
  | none => if alloc then { s with eventsWheel := insert s.eventsWheel ⟨key, agingTime, 1, callback⟩ } else s

def shutupNoisyPort (lid : BitVec 16) (port : Byte) (num : BitVec 32) (setOk : Bool) : ℤ × Sm :=
  match s.getPhyspByLidAndNum lid port with
  | none => (-1, s)
  | some p =>
    -- `disable_port`
    if s.babblingPortPolicy && decide (250 ≤ num.toNat) && setOk then (1, s)
    else if s.health p = some true then (2, s.setHealth p false)
    else (0, s)

variable (t : Trap)

def sourceLid : BitVec 16 := if t.sourceLid = 0 then s.smBaseLid else t.sourceLid

/-- A trap that `trap_rcv_process_request` looks at, through the SMI and not from a node without a LID. -/
def accepts : Bool := !t.isGsi && !(decide (t.sourceLid = 0) && decide (s.smBaseLid = 0))

def trapKey : BitVec 64 :=
  let ntci := payload t.data
  if physpChangeTrap ntci then trapGetKey (noticeLid ntci) (noticePortNum ntci) ntci
  else trapGetKey (s.sourceLid t) 0 ntci

def noisy : Bool := decide (10 ≤ (s.numRegs (s.trapKey t)).toNat) && physpChangeTrap (payload t.data)

def shutup : ℤ × Sm :=
  if s.noisy t then
    s.shutupNoisyPort (noticeLid (payload t.data)) (noticePortNum (payload t.data))
        (s.numRegs (s.trapKey t)) t.setOk
  else (0, s)

/-- The response is not sent, or the port is disabled: the tracker is left as it is. -/
def leaves : Bool := !t.respOk || decide ((s.shutup t).1 = 1)

def eventWheelTimeout : ℕ := if !s.leaves t && s.noisy t then unhealthyTimeout else trapSuppressionTimeout

/-- `trap_rcv_process_request`, as far as the tracker and the ports go. -/
def trapRcvProcessRequest : Sm :=
  if !s.accepts t then s
  else
    let log : Received := ⟨s.trapKey t, s.now, s.eventWheelTimeout t⟩
    if s.leaves t then { s with received := log :: s.received }
    else
      { (s.shutup t).2.reg (s.trapKey t) (s.now + s.eventWheelTimeout t)
        (physpChangeTrap (payload t.data)) t.alloc with received := log :: s.received }

end Sm

inductive Action
  | tick (us : ℕ)
  | trap (t : Trap)
  | age
  | assign (portLidTbl : BitVec 16 → Option ℕ) (smBaseLid : BitVec 16)
  /-- a node leaves with its LIDs; a node is found, with its valid ports; a port of a node comes or goes -/
  | remove (n : ℕ)
  | discover (n numPhysp : ℕ) (valid : ℕ → Bool)
  | initPhysp (n k : ℕ)
  | destroyPhysp (n k : ℕ)

def step (s : Sm) : Action → Option Sm
  | .tick us => some { s with now := s.now + us }
  | .trap t => some (s.trapRcvProcessRequest t)
  | .age =>
    match s.eventsWheel with
    | [] => none
    | e :: wheel =>
      if e.agingTime ≤ s.now then
        some { (if e.callback then s.agingTrackerCallback e.key else s) with eventsWheel := wheel }
      else none
  | .assign portLidTbl smBaseLid => some { s with portLidTbl := portLidTbl, smBaseLid := smBaseLid }
  | .remove n =>
    some { s with
      node := Function.update s.node n none
      portLidTbl := fun lid => if s.portLidTbl lid = some n then none else s.portLidTbl lid }
  | .discover n numPhysp valid =>
    if (s.node n).isSome then none
    else
      some { s with
        node := Function.update s.node n (some ⟨numPhysp, fun k => if valid k then some true else none⟩) }
  | .initPhysp n k =>
    some { s with
      node := Function.update s.node n
        ((s.node n).map fun node => { node with healthy := Function.update node.healthy k (some true) }) }
  | .destroyPhysp n k =>
    some { s with
      node := Function.update s.node n
        ((s.node n).map fun node => { node with healthy := Function.update node.healthy k none }) }

def init (babblingPortPolicy : Bool) : Sm where
  now := 0
  smBaseLid := 0
  babblingPortPolicy := babblingPortPolicy
  portLidTbl _ := none
  node _ := none
  eventsWheel := []
  received := []

end OpenSM.TrapRcv
