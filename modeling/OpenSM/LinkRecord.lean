import OpenSM.SharePkey

/-! The list that `osm_lr_rcv_process` collects for a LinkRecord query. -/

namespace OpenSM.LinkRecord

open Pkey

variable {o : ByteOrder}

structure Physp where
  node : ℕ
  portNum : ℕ
  deriving DecidableEq

structure Subn (o : ByteOrder) where
  /-- `node_guid_tbl`. -/
  nodes : List ℕ
  isSwitch : ℕ → Bool
  enhancedPort0 : ℕ → Bool
  physpTblSize : ℕ → ℕ
  valid : Physp → Bool
  remote : Physp → Option Physp
  baseLid : Physp → UInt16
  /-- The `lmc` option. -/
  lmc : ℕ
  /-- `osm_get_port_by_lid`, with the port's `p_physp`. -/
  portByLid : UInt16 → Option Physp
  allowBothPkeys : Bool
  pkeyTbl : Physp → PortTbl o allowBothPkeys

structure Query where
  fromLid : Option UInt16
  fromPort : Option ℕ
  toLid : Option UInt16
  toPort : Option ℕ

structure LinkRec where
  fromLid : UInt16
  fromPortNum : ℕ
  toLid : UInt16
  toPortNum : ℕ
  deriving DecidableEq

variable (S : Subn o) (lr : Query) (req : Physp)

def endPort (p : Physp) : Physp := if S.isSwitch p.node then ⟨p.node, 0⟩ else p

def getBaseLid (p : Physp) : UInt16 := S.baseLid (endPort S p)

def buildPhyspLink (pr : Physp × Physp) : LinkRec :=
  ⟨getBaseLid S pr.1, pr.1.portNum, getBaseLid S pr.2, pr.2.portNum⟩

/-- Both ends of the link; when one of them is given alone, the other is its remote port. -/
def ends (src dest : Option Physp) : Option (Physp × Physp) :=
  match src, dest with
  | some p, some q => if S.remote p = some q then some (p, q) else none
  | some p, none => (S.remote p).map fun q => (p, q)
  | none, some q => (S.remote q).map fun p => (p, q)
  | none, none => none

def lmcMask : UInt16 := ~~~((1 <<< UInt16.ofNat S.lmc) - 1)

/-- The tests of `lr_rcv_get_physp_link` on both ends. -/
def passes (pr : Physp × Physp) : Bool :=
  physpSharePkey S.pkeyTbl pr.1 pr.2 && physpSharePkey S.pkeyTbl pr.1 req && physpSharePkey S.pkeyTbl req pr.2 &&
  lr.fromPort.all (fun n => pr.1.portNum == n) && lr.toPort.all (fun n => pr.2.portNum == n) &&
  lr.fromLid.all (fun l => getBaseLid S pr.1 == l &&& lmcMask S) &&
  lr.toLid.all (fun l => getBaseLid S pr.2 == l &&& lmcMask S)

def getPhyspLink (src dest : Option Physp) : Option LinkRec :=
  ((ends S src dest).filter (passes S lr req)).map (buildPhyspLink S)

/-- The external ports of a node that have data, in a loop whose bound has 8 bits. -/
def physps (node : ℕ) : List Physp :=
  ((List.range' 1 (S.physpTblSize node % 256 - 1)).map (Physp.mk node)).filter S.valid

def physpAt (node n : ℕ) : Option Physp :=
    if n < S.physpTblSize node then some ⟨node, n⟩ |>.filter S.valid else none

def getPortLinks (srcPort destPort : Option Physp) : List LinkRec :=
  match srcPort, destPort with
  | some p, some q =>
    (physps S p.node).flatMap fun src => (physps S q.node).filterMap fun dest =>
      getPhyspLink S lr req (some src) (some dest)
  | some p, none =>
    match lr.fromPort with
    | some n => (physpAt S p.node n).toList.filterMap fun src => getPhyspLink S lr req (some src) none
    | none => (physps S p.node).filterMap fun src => getPhyspLink S lr req (some src) none
  | none, some q =>
    match lr.toPort with
    | some n => (physpAt S q.node n).toList.filterMap fun dest => getPhyspLink S lr req none (some dest)
    | none => (physps S q.node).filterMap fun dest => getPhyspLink S lr req none (some dest)
  | none, none =>
    S.nodes.flatMap fun node => (physps S node).filterMap fun src => getPhyspLink S lr req (some src) none

def endPoint (lid : Option UInt16) : Option (Option Physp) :=
  match lid with
  | some l => (S.portByLid l).map some
  | none => some none

def getEndPoints : Option (Option Physp × Option Physp) := do
  let src ← endPoint S lr.fromLid
  let dest ← endPoint S lr.toLid
  some (src, dest)

def lrRcvProcess : List LinkRec :=
  match getEndPoints S lr with
  | some (src, dest) => getPortLinks S lr req src dest
  | none => []

section Claim

def lmcOf (e : Physp) : ℕ := if S.isSwitch e.node && !S.enhancedPort0 e.node then 0 else S.lmc

def InRange (e : Physp) (l : UInt16) : Prop :=
  (S.baseLid e).toNat ≤ l.toNat ∧ l.toNat < (S.baseLid e).toNat + 2 ^ lmcOf S e

structure IsEnd (e : Physp) : Prop where
  node : e.node ∈ S.nodes
  valid : S.valid e = true
  num : S.isSwitch e.node = true ↔ e.portNum = 0

/-- A subnet with symmetric links between external ports, each end port with the aligned LIDs of its own LMC. -/
structure Consistent : Prop where
  nodes_nodup : S.nodes.Nodup
  size_le : ∀ node, S.physpTblSize node ≤ 256
  lmc_le : S.lmc ≤ 7
  remote_symm : ∀ p q, S.remote p = some q → S.remote q = some p
  remote_external : ∀ p q, S.remote p = some q →
    p.node ∈ S.nodes ∧ S.valid p = true ∧ 0 < p.portNum ∧ p.portNum < S.physpTblSize p.node
  isEnd : ∀ p q, S.remote p = some q → IsEnd S (endPort S p)
  aligned : ∀ e, IsEnd S e → 2 ^ lmcOf S e ∣ (S.baseLid e).toNat
  portByLid : ∀ l e, S.portByLid l = some e ↔ IsEnd S e ∧ InRange S e l

/-- The link from `p` to `q` is one that the query asks for. -/
structure Matches (p q : Physp) : Prop where
  linked : S.remote p = some q
  fromLid : ∀ l, lr.fromLid = some l → InRange S (endPort S p) l
  toLid : ∀ l, lr.toLid = some l → InRange S (endPort S q) l
  fromPort : ∀ n, lr.fromPort = some n → p.portNum = n
  toPort : ∀ n, lr.toPort = some n → q.portNum = n
  share : SharePkey S.pkeyTbl p q ∧ SharePkey S.pkeyTbl p req ∧ SharePkey S.pkeyTbl req q

/-- One record for each link that the query asks for, and no other. -/
def Exact (list : List LinkRec) : Prop :=
  ∃ links : List (Physp × Physp), links.Nodup ∧ list = links.map (buildPhyspLink S) ∧
    ∀ pr, pr ∈ links ↔ Matches S lr req pr.1 pr.2

/-- The LID of a base port 0 of a switch does not change under the mask of the configured LMC. -/
def Unmasked (p : Physp) (lid : Option UInt16) : Prop :=
  ∀ l, lid = some l → S.isSwitch p.node = true → S.enhancedPort0 p.node = false → 2 ^ S.lmc ∣ l.toNat

/-- The loop over the ports of a node ends at 255 of them. -/
def Counted (node : ℕ) : Prop := S.physpTblSize node < 256

def Looped (p q : Physp) : Prop :=
  match lr.fromLid, lr.toLid with
  | some _, some _ => Counted S p.node ∧ Counted S q.node
  | some _, none => lr.fromPort = none → Counted S p.node
  | none, some _ => lr.toPort = none → Counted S q.node
  | none, none => Counted S p.node

structure Found (p q : Physp) : Prop where
  fromLid : Unmasked S p lr.fromLid
  toLid : Unmasked S q lr.toLid
  loop : Looped S lr p q

end Claim

end OpenSM.LinkRecord
