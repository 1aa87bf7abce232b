import Mathlib
import OpenSM.Lib.Qmap
import OpenSM.Lib.Runs

/-! Multicast groups: `osm_mgrp_new`, `osm_mgrp_add_port`, `osm_mgrp_remove_port`,
`osm_mgrp_delete_port` and `osm_mgrp_cleanup` on the tables of the subnet. -/

namespace OpenSM.Multicast

open Lib

abbrev Guid := ℕ
abbrev Mgid := ℕ

/-- The four bits of a JoinState: full, non, send only, send only full. -/
abbrev JoinState := BitVec 4

def joinFull : JoinState := 1
def joinSendOnlyFull : JoinState := 8
def fullJoinState : JoinState := joinFull ||| joinSendOnlyFull

def isFull (j : JoinState) : Bool := j &&& fullJoinState ≠ 0

structure ScopeState where
  scope : BitVec 4
  state : JoinState
deriving DecidableEq

structure Gid where
  prefix_ : ℕ
  interfaceId : Guid
deriving DecidableEq

structure MemberRec where
  mgid : Mgid
  portGid : Gid
  qkey : ℕ
  mlid : ℕ
  mtu : ℕ
  tclass : ℕ
  pkey : ℕ
  rate : ℕ
  pktLife : ℕ
  slFlowHop : ℕ
  scopeState : ScopeState
  proxyJoin : Bool
deriving DecidableEq

structure Alias where
  /-- The GUID of the port under `p_base_mcm_port`. -/
  port : Guid
  portGid : Gid
  scopeState : ScopeState
  proxyJoin : Bool
deriving DecidableEq

def joinStateOf (a : Alias) : JoinState := a.scopeState.state

structure Mgrp where
  mlid : ℕ
  mcmemberRec : MemberRec
  wellKnown : Bool
  fullMembers : ℕ
  mcmAliasPortTbl : Qmap Guid Alias
  mcmPortTbl : Qmap Guid Unit

/-- The tables of the subnet and the reroute requests of the SM; MLIDs count from the first one. -/
structure Subn where
  mgrpMgidTbl : Qmap Mgid Mgrp
  /-- The groups of the box of each MLID. A box goes away with its last group. -/
  mboxes : ℕ → List Mgid
  mcmList : Guid → List Mgid
  mlidsReq : ℕ → Bool
  mlidsReqMax : ℕ

def Subn.init : Subn where
  mgrpMgidTbl := ∅
  mboxes _ := []
  mcmList _ := []
  mlidsReq _ := false
  mlidsReqMax := 0

def smRerouteMlid (d : Subn) (mlid : ℕ) : Subn :=
  { d with
    mlidsReq := Function.update d.mlidsReq mlid true
    mlidsReqMax := if d.mlidsReqMax < mlid then mlid else d.mlidsReqMax }

def setMgrp (d : Subn) (m : Mgid) (g : Mgrp) : Subn :=
  { d with mgrpMgidTbl := d.mgrpMgidTbl.modify m fun _ => g }

def mgrpNew (d : Subn) (mlid : ℕ) (mcmr : MemberRec) (wellKnown : Bool) : Subn :=
  { d with
    mboxes := Function.update d.mboxes mlid (d.mboxes mlid ++ [mcmr.mgid])
    mgrpMgidTbl := d.mgrpMgidTbl.insert mcmr.mgid ⟨mlid, mcmr, wellKnown, 0, ∅, ∅⟩ }

def mgrpCleanup (d : Subn) (m : Mgid) (g : Mgrp) : Subn :=
  if g.fullMembers ≠ 0 then d
  else
    let d := { d with mcmList := fun p => if p ∈ g.mcmPortTbl.keys then (d.mcmList p).erase m else d.mcmList p }
    if g.wellKnown then setMgrp d m { g with mcmAliasPortTbl := ∅, mcmPortTbl := ∅ }
    else { d with
      mgrpMgidTbl := d.mgrpMgidTbl.remove m
      mboxes := Function.update d.mboxes g.mlid ((d.mboxes g.mlid).erase m) }

/-- A join: the GID it is for, the port that owns the GUID, and the requested state. -/
structure Join where
  portGid : Gid
  port : Guid
  scopeState : ScopeState
  proxy : Bool
deriving DecidableEq

def mcmAliasGuidNew (q : Join) : Alias := ⟨q.port, q.portGid, q.scopeState, q.proxy⟩

/-- `ib_member_set_scope_state` with the recorded scope and the bytes or-ed together. -/
def extend (s : ScopeState) (t : ScopeState) : ScopeState := ⟨s.scope ||| t.scope, s.state ||| t.state⟩

def countFull (g : Mgrp) (prev join : JoinState) : Mgrp :=
  if isFull join ∧ !isFull prev then { g with fullMembers := g.fullMembers + 1 } else g

def mgrpAddPort (d : Subn) (m : Mgid) (g : Mgrp) (q : Join) : Subn :=
  let guid := q.portGid.interfaceId
  let join := q.scopeState.state
  match g.mcmPortTbl.get q.port with
  | some _ =>
    match g.mcmAliasPortTbl.get guid with
    | some a =>
      let t := g.mcmAliasPortTbl.modify guid fun a => { a with scopeState := extend a.scopeState q.scopeState }
      setMgrp d m (countFull { g with mcmAliasPortTbl := t } (joinStateOf a) join)
    | none =>
      let t := g.mcmAliasPortTbl.insert guid (mcmAliasGuidNew q)
      setMgrp d m (countFull { g with mcmAliasPortTbl := t } 0 join)
  | none =>
    let d := smRerouteMlid { d with mcmList := Function.update d.mcmList q.port (d.mcmList q.port ++ [m]) } g.mlid
    let g := { g with
      mcmPortTbl := g.mcmPortTbl.insert q.port ()
      mcmAliasPortTbl := g.mcmAliasPortTbl.insert guid (mcmAliasGuidNew q) }
    setMgrp d m (countFull g 0 join)

/-- Whether a leave only updates the entry: the state left is full, or not empty while the group has
other full members. -/
def keepsEntry (g : Mgrp) (port new : JoinState) : Bool :=
  new &&& joinFull ≠ 0 ∨ (new ≠ 0 ∧ g.fullMembers > (port &&& joinFull).toNat)

def aliasLeft (t : Qmap Guid Alias) (port : Guid) : Bool := 0 < t.countP fun a => a.port = port

/-- The entry of an alias GUID is updated or removed, with its port when it was the last one there. -/
def mgrpUpdateAlias (d : Subn) (m : Mgid) (g : Mgrp) (guid : Guid) (a : Alias) (new : JoinState) : Subn × Mgrp :=
  if keepsEntry g (joinStateOf a) new then
    (d, { g with mcmAliasPortTbl := g.mcmAliasPortTbl.modify guid fun a =>
      { a with scopeState := { a.scopeState with state := new } } })
  else
    let g := { g with mcmAliasPortTbl := g.mcmAliasPortTbl.remove guid }
    if aliasLeft g.mcmAliasPortTbl a.port then (d, g)
    else (smRerouteMlid { d with mcmList := Function.update d.mcmList a.port ((d.mcmList a.port).erase m) } g.mlid,
      { g with mcmPortTbl := g.mcmPortTbl.remove a.port })

def mgrpRemovePort (d : Subn) (m : Mgid) (g : Mgrp) (guid : Guid) (a : Alias) (leave : JoinState) : Subn × Bool :=
  let port := joinStateOf a
  let new := port &&& ~~~leave
  let u := mgrpUpdateAlias d m g guid a new
  if isFull port ∧ !isFull new then
    let g : Mgrp := { u.2 with fullMembers := u.2.fullMembers - 1 }
    if g.fullMembers = 0 then (mgrpCleanup (setMgrp u.1 m g) m g, true) else (setMgrp u.1 m g, false)
  else (setMgrp u.1 m u.2, false)

/-- The loop of `osm_mgrp_delete_port` over the alias GUIDs, up to the removal that closes the group. -/
def deletePortLoop (m : Mgid) (port : Guid) : List Guid → Subn → Subn
  | [], d => d
  | guid :: rest, d =>
    match d.mgrpMgidTbl.get m with
    | none => d
    | some g =>
      match g.mcmAliasPortTbl.get guid with
      | none => deletePortLoop m port rest d
      | some a =>
        if a.port = port then
          let (d, deleted) := mgrpRemovePort d m g guid a 15
          if deleted then d else deletePortLoop m port rest d
        else deletePortLoop m port rest d

def mgrpDeletePort (d : Subn) (m : Mgid) (g : Mgrp) (port : Guid) : Subn :=
  deletePortLoop m port g.mcmAliasPortTbl.keys d

/-- The checks of `validate_delete` on the stored and the requested JoinState. -/
def validateDelete (a : Alias) (leave : JoinState) : Bool :=
  leave &&& joinStateOf a ≠ 0 ∧ leave ||| joinStateOf a = joinStateOf a

inductive Op
  | addMcgroup (mlid : ℕ) (mcmr : MemberRec)
  | create (mlid : ℕ) (mcmr : MemberRec) (q : Join)
  | join (m : Mgid) (q : Join)
  | leave (m : Mgid) (guid : Guid) (leave : JoinState)
  | deletePort (m : Mgid) (port : Guid)

variable (owner : Guid → Guid)

/-- What a request has to be: the port is the one the alias GUID belongs to, and the state not empty. -/
def Join.Valid (q : Join) : Prop := q.port = owner q.portGid.interfaceId ∧ q.scopeState.state ≠ 0

instance (q : Join) : Decidable (q.Valid owner) := inferInstanceAs (Decidable (_ ∧ _))

def step (d : Subn) : Op → Option Subn
  | .addMcgroup mlid mcmr =>
    match d.mgrpMgidTbl.get mcmr.mgid with
    | some _ => none
    | none => some (mgrpNew d mlid mcmr true)
  | .create mlid mcmr q =>
    match d.mgrpMgidTbl.get mcmr.mgid with
    | some _ => none
    | none =>
      if q.Valid owner ∧ isFull q.scopeState.state then
        let g : Mgrp := ⟨mlid, mcmr, false, 0, ∅, ∅⟩
        some (mgrpAddPort (mgrpNew d mlid mcmr false) mcmr.mgid g q)
      else none
  | .join m q =>
    match d.mgrpMgidTbl.get m with
    | none => none
    | some g => if q.Valid owner then some (mgrpAddPort d m g q) else none
  | .leave m guid leave =>
    match d.mgrpMgidTbl.get m with
    | none => none
    | some g =>
      match g.mcmAliasPortTbl.get guid with
      | none => none
      | some a => if validateDelete a leave then some (mgrpRemovePort d m g guid a leave).1 else none
  | .deletePort m port => (d.mgrpMgidTbl.get m).map fun g => mgrpDeletePort d m g port

end OpenSM.Multicast
