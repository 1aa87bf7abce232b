import OpenSM.MulticastSpec

/-! `osm_drop_mgr_process` on the tables of the subnet: what was not discovered is removed, in three passes in
the order of the GUIDs. -/

namespace OpenSM.DropMgr

open Lib Multicast

abbrev PhyspId := Guid × ℕ

structure Physp where
  portGuid : Guid
  remote : Option PhyspId
  linkActive : Bool
  baseLid : ℕ
  lmc : ℕ
  rcvBlocksCnt : ℕ
  needUpdate : ℕ
  /-- `physp_discovered` of the node -/
  discovered : Bool

def Physp.destroyed : Physp := ⟨0, none, false, 0, 0, 0, 0, false⟩

structure Node where
  isSwitch : Bool
  discoveryCount : ℕ
  sw : Bool
  physpTblSize : ℕ

/-- A port object; `node` and `portNum` are its `p_physp`. -/
structure Port where
  node : Guid
  portNum : ℕ
  discoveryCount : ℕ
  deriving DecidableEq

def Port.physp (p : Port) : PhyspId := (p.node, p.portNum)

structure Subnet where
  nodeGuidTbl : Qmap Guid Node
  physps : PhyspId → Physp
  portGuidTbl : Qmap Guid Port
  portLidTbl : ℕ → Option Guid
  aliasPortGuidTbl : Qmap Guid Guid
  smGuidTbl : Qmap Guid Unit
  rtrGuidTbl : Qmap Guid Guid
  aliasGuidList : List Guid
  swGuidTbl : Qmap Guid Guid
  mcast : Subn
  smPortGuid : Guid
  forceHeavySweep : Bool
  subnetInitializationError : Bool
  /-- the ports whose `discovery_count` has been reset -/
  reset : List Guid

def Subnet.isSwitch (d : Subnet) (n : Guid) : Bool := (d.nodeGuidTbl.get n).any Node.isSwitch

def Subnet.hasSw (d : Subnet) (n : Guid) : Bool := (d.nodeGuidTbl.get n).any Node.sw

def Subnet.setPhysp (d : Subnet) (k : PhyspId) (p : Physp) : Subnet :=
  { d with physps := Function.update d.physps k p }

def Subnet.unlink (d : Subnet) (k r : PhyspId) : Subnet :=
  let d := d.setPhysp k { d.physps k with remote := none }
  d.setPhysp r { d.physps r with remote := none }

/-- What `drop_mgr_clean_physp` does to the port object on the other side. -/
def resetRemote (d : Subnet) (r : PhyspId) : Subnet :=
  match d.portGuidTbl.get (d.physps r).portGuid with
  | none => d
  | some p =>
    let heavy := p.discoveryCount ≠ 0 ∧ (d.physps r).linkActive = true
    let d := { d with forceHeavySweep := if heavy then true else d.forceHeavySweep }
    if d.hasSw r.1 = false ∧ (d.physps r).portGuid ≠ d.smPortGuid then
      { d with
        portGuidTbl := d.portGuidTbl.modify (d.physps r).portGuid fun p => { p with discoveryCount := 0 }
        reset := (d.physps r).portGuid :: d.reset }
    else d

def dropMgrCleanPhysp (d : Subnet) (k : PhyspId) : Subnet :=
  let d := match (d.physps k).remote with
    | none => d
    | some r => (resetRemote d r).unlink k r
  d.setPhysp k .destroyed

/-- The loop over `mcm_list`; it takes as many rounds as the list is long. -/
def deleteGroups (port : Guid) : ℕ → Subn → Subn
  | 0, d => d
  | n + 1, d =>
    match d.mcmList port with
    | [] => d
    | m :: _ =>
      match d.mgrpMgidTbl.get m with
      | none => d
      | some g => deleteGroups port n (mgrpDeletePort d m g port)

/-- `osm_port_get_lid_range_ho`. -/
def Physp.lids (p : Physp) (lid : ℕ) : Prop := p.baseLid ≤ lid ∧ lid ≤ (p.baseLid + 1 <<< p.lmc - 1) % 2 ^ 16

instance (p : Physp) (lid : ℕ) : Decidable (p.lids lid) := inferInstanceAs (Decidable (_ ∧ _))

/-- What `drop_mgr_remove_port` does to the tables. -/
def unregister (d : Subnet) (g : Guid) (p : Port) : Subnet :=
  { d with
    aliasGuidList := d.aliasGuidList.filter (· ≠ g)
    mcast := deleteGroups g (d.mcast.mcmList g).length d.mcast
    aliasPortGuidTbl := d.aliasPortGuidTbl.filter fun a => d.aliasPortGuidTbl.get a ≠ some g
    portGuidTbl := d.portGuidTbl.remove g
    smGuidTbl := d.smGuidTbl.remove g
    rtrGuidTbl := d.rtrGuidTbl.remove g
    portLidTbl := fun lid => if (d.physps p.physp).lids lid then none else d.portLidTbl lid }

def dropMgrRemovePort (d : Subnet) (g : Guid) (p : Port) : Subnet :=
  dropMgrCleanPhysp (unregister d g p) p.physp

def processPhysp (n : Guid) (d : Subnet) (i : ℕ) : Subnet :=
  if (d.physps (n, i)).portGuid = 0 then d
  else
    match d.portGuidTbl.get (d.physps (n, i)).portGuid with
    | some p => dropMgrRemovePort d (d.physps (n, i)).portGuid p
    | none => dropMgrCleanPhysp d (n, i)

def dropMgrProcessNode (d : Subnet) (n : Guid) (N : Node) : Subnet :=
  let d := (List.range N.physpTblSize).foldl (processPhysp n) d
  { d with
    swGuidTbl := if N.sw then d.swGuidTbl.remove n else d.swGuidTbl
    nodeGuidTbl := d.nodeGuidTbl.remove n }

/-- A physical port of a discovered node for which a P_Key block has not been received. -/
def dropPkey (n : Guid) (d : Subnet) (i : ℕ) : Subnet :=
  let p := d.physps (n, i)
  if p.portGuid = 0 ∨ p.rcvBlocksCnt = 0 then d
  else
    let d := { d.setPhysp (n, i) { p with rcvBlocksCnt := 0, needUpdate := 2, discovered := false } with
      subnetInitializationError := true }
    if p.discovered then
      { d with portGuidTbl := d.portGuidTbl.modify p.portGuid fun q =>
          { q with discoveryCount := (q.discoveryCount + (2 ^ 32 - 1)) % 2 ^ 32 } }
    else d

def checkNode (d : Subnet) (n : Guid) : Subnet :=
  match d.nodeGuidTbl.get n with
  | none => d
  | some N =>
    if N.discoveryCount = 0 then dropMgrProcessNode d n N
    else
      let first := if N.isSwitch then 0 else 1
      (List.range' first (N.physpTblSize - first)).foldl (dropPkey n) d

def unlinkUndiscovered (n : Guid) (d : Subnet) (i : ℕ) : Subnet :=
  let p := d.physps (n, i)
  if p.discovered = true ∨ p.portGuid = 0 then d
  else
    match p.remote with
    | none => d
    | some r => d.unlink (n, i) r

def dropMgrCheckSwitchNode (d : Subnet) (n : Guid) : Subnet :=
  match d.nodeGuidTbl.get n with
  | none => d
  | some N =>
    if N.isSwitch = false then d
    else if N.sw = false then dropMgrProcessNode d n N
    else if (d.physps (n, 0)).portGuid = 0 then dropMgrProcessNode d n N
    else
      match d.portGuidTbl.get (d.physps (n, 0)).portGuid with
      | none => dropMgrProcessNode d n N
      | some p =>
        if (d.physps (n, 0)).discovered = false then dropMgrProcessNode d n N
        else if p.discoveryCount < N.physpTblSize then
          (List.range' 1 (N.physpTblSize - 1)).foldl (unlinkUndiscovered n) d
        else d

def checkPort (d : Subnet) (g : Guid) : Subnet :=
  match d.portGuidTbl.get g with
  | none => d
  | some p => if p.discoveryCount = 0 then dropMgrRemovePort d g p else d

def pass₁ (d : Subnet) : Subnet := d.nodeGuidTbl.keys.foldl checkNode d

def pass₂ (d : Subnet) : Subnet := d.nodeGuidTbl.keys.foldl dropMgrCheckSwitchNode d

def pass₃ (d : Subnet) : Subnet := d.portGuidTbl.keys.foldl checkPort d

def osmDropMgrProcess (d : Subnet) : Subnet := pass₃ (pass₂ (pass₁ { d with reset := [] }))

end OpenSM.DropMgr
