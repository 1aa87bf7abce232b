import Mathlib
import OpenSM.Lib.Runs

/-! `osm_qos_setup` on the SL2VL tables and the VL arbitration blocks of a fabric, without the optimized
SL2VL programming, and the answers in `osm_slvl_rcv_process` and `osm_vla_rcv_process`. -/

namespace OpenSM.Qos

open Lib

/-- An entry of an arbitration block, VL and weight, or a byte of an SL2VL table, its two VLs. -/
abbrev Cell := ℕ × ℕ
abbrev Block := ℕ → Cell

structure Physp (N : Type) where
  node : N
  portNum : ℕ
deriving DecidableEq

inductive Tbl (N : Type)
  | vlArb (p : Physp N) (blockNum : ℕ)
  | slvl (p : Physp N) (inPort : ℕ)
deriving DecidableEq

inductive Attr
  | slvlTable
  | vlArbitration
deriving DecidableEq

structure Mad (N : Type) where
  port : Physp N
  attrId : Attr
  attrMod : ℕ
  block : Block

structure QosConfig where
  vlHighLimit : ℕ
  vlarbHigh : ℕ → Block
  vlarbLow : ℕ → Block
  sl2vl : Block

structure Fabric (N : Type) where
  /-- The ports of `port_guid_tbl`. -/
  portGuidTbl : List (Physp N)
  isSwitch : N → Bool
  isRouter : N → Bool
  enhancedPort0 : N → Bool
  numPhysp : N → ℕ
  valid : Physp N → Bool
  vlCap : Physp N → ℕ
  vlArbLowCap : Physp N → ℕ
  vlArbHighCap : Physp N → ℕ
  hasSlMap : Physp N → Bool
  numPhysp_le : ∀ n, numPhysp n ≤ 256
  switchPort : ∀ p ∈ portGuidTbl, isSwitch p.node = true → p.portNum = 0 ∧ 0 < numPhysp p.node

structure RoutingEngine (N : Type) where
  updateSl2vl : Option (Physp N → ℕ → ℕ → Block → Block)
  updateVlarb : Option (Physp N → ℕ → Block → ℕ → ℕ → Block)

/-- What one call of `osm_qos_setup` finds. -/
structure Round (N : Type) where
  caConfig : QosConfig
  sw0Config : QosConfig
  sweConfig : QosConfig
  rtrConfig : QosConfig
  opVls : Physp N → ℕ
  linkDown : Physp N → Bool
  needUpdate : Physp N → Bool
  subnNeedUpdate : Bool
  routingEngineUsed : Option (RoutingEngine N)

/-- A table as a round computes it, with the copy it is compared with and the MAD that would carry it. -/
structure Update (N : Type) where
  tbl : Tbl N
  len : ℕ
  force : Bool
  mad : Mad N

def numVlArbElementsInBlock : ℕ := 32

section Computed

variable {N : Type} (F : Fabric N) (r : Round N)

def vlMask (p : Physp N) : ℕ := 1 <<< (r.opVls p - 1) - 1

def forceUpdate (p : Physp N) : Bool := r.needUpdate p || r.subnNeedUpdate

/-- `portNum` goes into the modifier: the number of the port at a switch, 0 elsewhere. -/
def vlarbUpdateTableBlock (p : Physp N) (portNum : ℕ) (table : Block) (len blockNum : ℕ) : Update N :=
  let block : Block := fun i => if i < len then table i else (0, 0)
  let block := match r.routingEngineUsed.bind RoutingEngine.updateVlarb with
    | some hook => hook p portNum block len blockNum
    | none => block
  let block : Block := fun i => if i < len then ((block i).1 &&& vlMask r p, (block i).2) else block i
  ⟨.vlArb p blockNum, len, forceUpdate r p, ⟨p, .vlArbitration, (blockNum + 1) * 2 ^ 16 + portNum, block⟩⟩

/-- The entries of a block of a table with room for `cap`: the first block or the rest. -/
def blockLen (cap blockNum : ℕ) : ℕ :=
  if blockNum = 0 then min cap numVlArbElementsInBlock else cap % numVlArbElementsInBlock

def vlarbUpdate (p : Physp N) (portNum : ℕ) (cfg : QosConfig) : List (Update N) :=
  let low := F.vlArbLowCap p
  let high := F.vlArbHighCap p
  if F.vlCap p = 1 then []
  else
    (if 0 < low then [vlarbUpdateTableBlock r p portNum (cfg.vlarbLow 0) (blockLen low 0) 0] else []) ++
    (if numVlArbElementsInBlock < low then
      [vlarbUpdateTableBlock r p portNum (cfg.vlarbLow 1) (blockLen low 1) 1] else []) ++
    (if 0 < high then [vlarbUpdateTableBlock r p portNum (cfg.vlarbHigh 0) (blockLen high 0) 2] else []) ++
    (if numVlArbElementsInBlock < high then
      [vlarbUpdateTableBlock r p portNum (cfg.vlarbHigh 1) (blockLen high 1) 3] else [])

def maskVl (p : Physp N) (vl : ℕ) : ℕ := if vl ≠ 15 then vl &&& vlMask r p else vl

def sl2vlUpdateTable (p : Physp N) (inPort attrMod : ℕ) (sl2vl : Block) : Update N :=
  let tbl : Block := fun i => if i < 8 then (maskVl r p (sl2vl i).1, maskVl r p (sl2vl i).2) else (0, 0)
  ⟨.slvl p inPort, 8, forceUpdate r p, ⟨p, .slvlTable, attrMod, tbl⟩⟩

/-- The table of the configuration, or what the hook of the routing engine makes of it. -/
def routingSl2vl (cfg : QosConfig) (p : Physp N) (inPort outPort : ℕ) : Block :=
  match r.routingEngineUsed.bind RoutingEngine.updateSl2vl with
  | some hook => hook p inPort outPort cfg.sl2vl
  | none => cfg.sl2vl

def configured (n : N) (out : ℕ) : Bool := F.valid ⟨n, out⟩ && !r.linkDown ⟨n, out⟩

def qosExtportsSetup (n : N) (cfg : QosConfig) : List (Update N) :=
  if r.routingEngineUsed.isNone then []
  else
    (((List.range' 1 (F.numPhysp n - 1)).filter (configured F r n)).flatMap fun out =>
      vlarbUpdate F r ⟨n, out⟩ out cfg) ++
    if F.hasSlMap ⟨n, 0⟩ then
      let first := if F.enhancedPort0 n then 0 else 1
      ((List.range' first (F.numPhysp n - first)).filter (configured F r n)).flatMap fun out =>
        (List.range (F.numPhysp n)).map fun inPort =>
          sl2vlUpdateTable r ⟨n, out⟩ inPort (inPort * 2 ^ 8 + out) (routingSl2vl r cfg ⟨n, out⟩ inPort out)
    else []

def qosEndportSetup (p : Physp N) (cfg : QosConfig) : List (Update N) :=
  vlarbUpdate F r p 0 cfg ++ if F.hasSlMap p then [sl2vlUpdateTable r p 0 0 (routingSl2vl r cfg p 0 0)] else []

def portSetup (p : Physp N) : List (Update N) :=
  if F.isSwitch p.node then
    qosExtportsSetup F r p.node r.sweConfig ++
      if F.enhancedPort0 p.node then qosEndportSetup F r p r.sw0Config else []
  else if F.isRouter p.node then qosEndportSetup F r p r.rtrConfig
  else qosEndportSetup F r p r.caConfig

def updates : List (Update N) := F.portGuidTbl.flatMap (portSetup F r)

end Computed

section Rounds

variable {N : Type} [DecidableEq N] (F : Fabric N)

structure Tables (N : Type) where
  stored : Tbl N → Block
  hw : Tbl N → Block

def zeroTo (len : ℕ) (b : Block) : Block := fun i => if i < len then (0, 0) else b i

def updateTable (s : (Tbl N → Block) × List (Update N)) (u : Update N) : (Tbl N → Block) × List (Update N) :=
  if ¬u.force ∧ ∀ i < u.len, s.1 u.tbl i = u.mad.block i then s
  else (Function.update s.1 u.tbl (zeroTo u.len (s.1 u.tbl)), s.2 ++ [u])

/-- The stored copies and the queue at the end of a round. The MADs of a table stay in their order when
those of all ports are sent in turns. -/
def osmQosSetup (r : Round N) (stored : Tbl N → Block) : (Tbl N → Block) × List (Update N) :=
  (updates F r).foldl updateTable (stored, [])

def tblOf (m : Mad N) : Option (Tbl N) :=
  match m.attrId with
  | .slvlTable =>
    if F.isSwitch m.port.node then
      let out := m.attrMod % 2 ^ 8
      let inPort := m.attrMod / 2 ^ 8 % 2 ^ 8
      if F.numPhysp m.port.node - 1 < inPort ∨ F.numPhysp m.port.node - 1 < out then none
      else some (.slvl ⟨m.port.node, out⟩ inPort)
    else some (.slvl m.port 0)
  | .vlArbitration =>
    let blockNum := m.attrMod / 2 ^ 16 % 2 ^ 8
    if blockNum < 1 ∨ 4 < blockNum then none
    else if F.isSwitch m.port.node then some (.vlArb ⟨m.port.node, m.attrMod % 2 ^ 8⟩ (blockNum - 1))
    else some (.vlArb m.port (blockNum - 1))

def answer (s : Tables N) (m : Mad N) : Tables N :=
  match tblOf F m with
  | none => s
  | some t => ⟨Function.update s.stored t m.block, Function.update s.hw t m.block⟩

def deliver (answered : ℕ → Bool) (s : Tables N) (queue : List (Update N)) : Tables N :=
  queue.zipIdx.foldl (fun s x => if answered x.2 then answer F s x.1.mad else s) s

def roundStep (s : Tables N) (a : Round N × (ℕ → Bool)) : Option (Tables N) :=
  let q := osmQosSetup F a.1 s.stored
  some (deliver F a.2 { s with stored := q.1 } q.2)

end Rounds

end OpenSM.Qos
