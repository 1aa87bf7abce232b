import OpenSM.MultipathApm
import OpenSM.McMemberRecord

/-! `osm_pr_rcv_process`: the answer to a PathRecord query, from the components that the query gives. -/

namespace OpenSM.SaPath

open Lib

section LidPairs

variable {α : Type} (path : ℕ → ℕ → ℕ → Option α)

/-- The first loop of `pr_rcv_get_port_pair_paths`: both LIDs go on together. -/
def diagLoop (srcMax destMax iterations : ℕ) : ℕ → List α → ℕ → ℕ → List α
  | 0, l, _, _ => l
  | fuel + 1, l, slid, dlid =>
    if l.length < iterations then
      let l := l ++ (path slid dlid 0).toList
      if srcMax < slid + 1 then l
      else if destMax < dlid + 1 then l
      else diagLoop srcMax destMax iterations fuel l (slid + 1) (dlid + 1)
    else l

def visitRest (l : List α) (slid dlid srcOffset destOffset : ℕ) : List α :=
  if srcOffset = destOffset then l else l ++ (path slid dlid 2).toList

def restLoop (destMin srcMax destMax iterations : ℕ) : ℕ → List α → ℕ → ℕ → ℕ → ℕ → List α
  | 0, l, _, _, _, _ => l
  | fuel + 1, l, slid, dlid, srcOffset, destOffset =>
    if l.length < iterations then
      if destMax < dlid + 1 then
        if srcMax < slid + 1 then l
        else
          restLoop destMin srcMax destMax iterations fuel (visitRest path l (slid + 1) destMin (srcOffset + 1) 0)
            (slid + 1) destMin (srcOffset + 1) 0
      else
        restLoop destMin srcMax destMax iterations fuel
            (visitRest path l slid (dlid + 1) srcOffset (destOffset + 1))
          slid (dlid + 1) srcOffset (destOffset + 1)
    else l

def lidPairPaths (srcMin srcMax destMin destMax iterations : ℕ) : List α :=
  let l := diagLoop path srcMax destMax iterations (srcMax + 1 - srcMin) [] srcMin destMin
  if l.length = iterations then l
  else
    restLoop path destMin srcMax destMax iterations ((srcMax + 1 - srcMin) * (destMax + 1 - destMin)) l
      srcMin destMin 0 0

end LidPairs

/-- A loop over a table that appends to the list of records; with `stop` it ends when there is one. -/
def tableLoop {α β : Type} (stop : Bool) (f : β → List α → List α) : List β → List α → List α
  | [], l => l
  | b :: tbl, l =>
    let l := f b l
    if stop ∧ l ≠ [] then l else tableLoop stop f tbl l

inductive GetMethod
  | get | getTable
deriving DecidableEq

inductive EndComp
  | dgid | sgid | dlid | slid | numbPath

def EndComp.bit : EndComp → ℕ
  | .dgid => 2
  | .sgid => 3
  | .dlid => 4
  | .slid => 5
  | .numbPath => 12

structure PathQuery where
  method : GetMethod
  req : PathRecReq
  sgid : Gid
  dgid : Gid
  slid : ℕ
  dlid : ℕ
  tclass : ℕ
  preference : ℕ
  dgid_lt : dgid.interfaceId < 2 ^ 64

def PathQuery.has (q : PathQuery) (c : EndComp) : Bool := q.req.compMask.testBit c.bit

def PathQuery.numPath (q : PathQuery) : ℕ := q.req.numPath % 128

def PathQuery.iterations (q : PathQuery) : ℕ :=
  match q.method with
  | .get => 1
  | .getTable => if q.has .numbPath then q.numPath else 2 ^ 32 - 1

def Gid.isLinkLocal (g : Gid) : Bool := g.subnetPrefix &&& 0xFFC0000000000000 = 0xFE80000000000000

def Gid.isMulticast (g : Gid) : Bool := g.subnetPrefix / 2 ^ 56 = 0xFF

instance (req : Req) : Decidable req.Checked :=
  decidable_of_iff ((req.comp .rateSelec → req.comp .rate → rateIsValid req.rate) ∧
      (req.comp .mtuSelec → req.comp .mtu → 1 ≤ req.mtu ∧ req.mtu ≤ 5) ∧
      req.comp .serviceIdMsb = req.comp .serviceIdLsb)
    ⟨fun h => ⟨h.1, h.2.1, h.2.2⟩, fun h => ⟨h.rate, h.mtu, h.serviceId⟩⟩

structure PathTables (N : Type) where
  subn : Subn N
  lids : Lids N
  unicast : ∀ lid p, subn.portByLid lid = some p → lid < 0xC000
  /-- `alias_port_guid_tbl`, in the order of its keys. -/
  aliasTbl : List (AliasGuid subn)
  sorted : aliasTbl.Pairwise fun a b => a.aliasGuid < b.aliasGuid
  subnetPrefix : ℕ
  /-- The prefixes of `prefix_routes_list`, with the GUIDs of their routers. -/
  prefixRoutes : List (ℕ × ℕ)
  rtrGuidTbl : Qmap ℕ ℕ
  ntoh32 : ℕ → ℕ
  mgrpMgidTbl : Qmap Multicast.Mgid Multicast.Mgrp
  mgid : ∀ m g, mgrpMgidTbl.get m = some g → g.mcmemberRec.mgid = m
  mlid : ∀ m g, mgrpMgidTbl.get m = some g → g.mcmemberRec.mlid = g.mlid + McMember.lidMcastStartHo

/-- A record that was collected, with the aliases at its ends unless it is for a multicast group. -/
structure Found {N : Type} (s : Subn N) where
  ends : Option (AliasGuid s × AliasGuid s)
  pathRec : PathRec

variable {N : Type} [DecidableEq N] (T : PathTables N) (q : PathQuery)

section Pair

def physpSharePkey (s : Subn N) (p1 p2 : Physp N) : Bool :=
  p1 = p2 ∨ s.pkeys p1 = [] ∨ s.pkeys p2 = [] ∨ pkeyGetBase (physpFindCommonPkey s p1 p2) ≠ 0

def lidRange (given : Option ℕ) (p : Physp N) : ℕ × ℕ :=
  match given with
  | some lid => (lid, lid)
  | none => (T.lids.baseLid p, T.lids.maxLid p)

def srcLids (src : AliasGuid T.subn) : ℕ × ℕ := lidRange T (if q.has .slid then some q.slid else none) src.basePort

def destLids (dest : AliasGuid T.subn) : ℕ × ℕ :=
    lidRange T (if q.has .dlid then some q.dlid else none) dest.basePort

def threeSharePkey (req : Physp N) (src dest : AliasGuid T.subn) : Bool :=
  physpSharePkey T.subn req src.basePort ∧ physpSharePkey T.subn req dest.basePort ∧
    physpSharePkey T.subn src.basePort dest.basePort

variable (req : Physp N) (sgid dgid : Option Gid)

def prRcvGetPortPairPaths (src dest : AliasGuid T.subn) : List PathRec :=
  if ¬threeSharePkey T req src dest then []
  else if (srcLids T q src).1 = 0 then []
  else if (destLids T q dest).1 = 0 then []
  else
    lidPairPaths (prRcvGetLidPairPath T.subn q.req.req src dest sgid dgid) (srcLids T q src).1 (srcLids T q src).2
      (destLids T q dest).1 (destLids T q dest).2 q.iterations

def prProcessPair (src dest : AliasGuid T.subn) (l : List (Found T.subn)) : List (Found T.subn) :=
  l ++ (prRcvGetPortPairPaths T q req sgid dgid src dest).map fun r => ⟨some (src, dest), r⟩

def PathQuery.one : Bool := q.method = .get

def prRcvProcessWorld (l : List (Found T.subn)) : List (Found T.subn) :=
  tableLoop q.one (fun dest l => tableLoop q.one
      (fun src l => prProcessPair T q req sgid dgid src dest l) T.aliasTbl l)
    T.aliasTbl l

def prProcessHalfSrc (src : AliasGuid T.subn) (l : List (Found T.subn)) : List (Found T.subn) :=
  tableLoop q.one (fun dest l => prProcessPair T q req sgid dgid src dest l) T.aliasTbl l

def prProcessHalfDest (dest : AliasGuid T.subn) (l : List (Found T.subn)) : List (Found T.subn) :=
  tableLoop q.one (fun src l => prProcessPair T q req sgid dgid src dest l) T.aliasTbl l

def aliasesOf {α : Type} (stop : Bool) (p : Physp N) (f : AliasGuid T.subn → List α → List α)
    (l : List α) : List α :=
  tableLoop stop (fun a l => if a.basePort = p then f a l else l) T.aliasTbl l

end Pair

section EndPoints

def findRouter (subnetPrefix : ℕ) : ℕ :=
  match T.prefixRoutes.find? fun r => r.1 = 0 ∨ r.1 = subnetPrefix with
  | none => 0
  | some r =>
    if r.2 = 0 then (T.rtrGuidTbl.entries.head?.map Prod.snd).getD 0 else (T.rtrGuidTbl.get r.2).getD 0

def getAliasGuidByGuid (guid : ℕ) : Option (AliasGuid T.subn) := T.aliasTbl.find? fun a => a.aliasGuid = guid

structure EndPoints where
  srcAlias : Option (AliasGuid T.subn)
  destAlias : Option (AliasGuid T.subn)
  srcPort : Option (Physp N)
  destPort : Option (Physp N)
  sgid : Option Gid
  dgid : Option Gid

def endPoint {α : Type} (given : Bool) (found : Option α) : Option (Option α) :=
  if given then found.map some else some none

def sgidIsLocal : Bool := q.sgid.isLinkLocal ∨ q.sgid.subnetPrefix = T.subnetPrefix

def dgidIsLocal : Bool := q.dgid.isLinkLocal ∨ q.dgid.isMulticast ∨ q.dgid.subnetPrefix = T.subnetPrefix

def destGuid : ℕ := if dgidIsLocal T q then q.dgid.interfaceId else findRouter T q.dgid.subnetPrefix

def prGetEndPoints : Option (EndPoints T) :=
  if q.has .sgid ∧ ¬sgidIsLocal T q then none
  else
    match endPoint (q.has .sgid) (getAliasGuidByGuid T q.sgid.interfaceId),
        endPoint (q.has .slid) (T.subn.portByLid q.slid) with
    | some srcAlias, some srcPort =>
      if q.has .dgid ∧ ¬dgidIsLocal T q ∧ destGuid T q = 0 then none
      else
        match endPoint (q.has .dgid) (getAliasGuidByGuid T (destGuid T q)),
            endPoint (q.has .dlid) (T.subn.portByLid q.dlid) with
        | some destAlias, some destPort =>
          some
            { srcAlias := srcAlias
              destAlias := destAlias
              srcPort := srcPort
              destPort := destPort
              sgid := if q.has .sgid then some q.sgid else none
              dgid := if q.has .dgid ∧ ¬dgidIsLocal T q then some q.dgid else none }
        | _, _ => none
    | _, _ => none

end EndPoints

section Multicast

open McMember (slOf flowOf hopOf lidMcastStartHo)

/-- The components that a query for a multicast group is matched by, with their bits. -/
def tclassBit : ℕ := 10
def flowLabelBit : ℕ := 8
def hopLimitBit : ℕ := 9

def mcScopeLinkLocal : ℕ := 2
def hoplimitMax : ℕ := 255

def prMatchMgrpAttributes (g : Multicast.Mgrp) : Bool :=
  let r := g.mcmemberRec
  ¬(q.has .dlid ∧ g.mlid + lidMcastStartHo ≠ q.dlid) ∧
  ¬(q.has .sgid ∧ g.mcmAliasPortTbl.get q.sgid.interfaceId = none) ∧
  ¬(q.has .slid ∧ ((T.subn.portByLid q.slid).bind fun p => g.mcmPortTbl.get (T.subn.portGuid p)) = none) ∧
  ¬(q.req.req.comp .pkey ∧ q.req.pkey ≠ r.pkey) ∧
  ¬(q.req.req.comp .sl ∧ q.req.req.sl ≠ slOf r.slFlowHop) ∧
  ¬(q.has .numbPath ∧ q.method ≠ .get ∧ q.numPath = 0) ∧
  ¬(q.req.compMask.testBit flowLabelBit ∧ q.req.hopFlowRaw / 2 ^ 8 % 2 ^ 20 ≠ flowOf r.slFlowHop) ∧
  ¬(q.req.compMask.testBit hopLimitBit ∧ q.req.hopFlowRaw % 2 ^ 8 ≠ hopOf r.slFlowHop) ∧
  ¬(q.req.compMask.testBit tclassBit ∧ q.tclass ≠ r.tclass)

def mgidOf (g : Gid) : Multicast.Mgid := g.subnetPrefix * 2 ^ 64 + g.interfaceId

def mgidScope (m : Multicast.Mgid) : ℕ := m / 2 ^ 112 % 16

def mcastPathRec (g : Multicast.Mgrp) : PathRec where
  dgid := ⟨g.mcmemberRec.mgid / 2 ^ 64, g.mcmemberRec.mgid % 2 ^ 64⟩
  sgid := q.sgid
  dlid := g.mcmemberRec.mlid
  slid := q.slid
  -- the flow label is not put into network order
  hopFlowRaw :=
    (if mgidScope g.mcmemberRec.mgid ≠ mcScopeLinkLocal then hoplimitMax else hopOf g.mcmemberRec.slFlowHop) |||
      T.ntoh32 (flowOf g.mcmemberRec.slFlowHop <<< 8)
  pkey := g.mcmemberRec.pkey
  sl := slOf g.mcmemberRec.slFlowHop
  mtu := 0x80 ||| g.mcmemberRec.mtu
  rate := 0x80 ||| g.mcmemberRec.rate
  pktLife := 0x80 ||| g.mcmemberRec.pktLife
  preference := q.preference
  numPath := 1

def prProcessMulticast (l : List (Found T.subn)) : List (Found T.subn) :=
  match T.mgrpMgidTbl.get (mgidOf q.dgid) with
  | none => l
  | some g => if prMatchMgrpAttributes T q g then l ++ [⟨none, mcastPathRec T q g⟩] else l

end Multicast

section Process

/-- The part of `osm_pr_rcv_process` that goes by which ends are known. -/
def prDispatch (req : Physp N) (e : EndPoints T) : List (Found T.subn) :=
  let pair := prProcessPair T q req e.sgid e.dgid
  let halfSrc := prProcessHalfSrc T q req e.sgid e.dgid
  let halfDest := prProcessHalfDest T q req e.sgid e.dgid
  match e.srcAlias, e.destAlias, e.srcPort, e.destPort with
  | some src, some dest, _, _ => pair src dest []
  | some src, none, _, none => halfSrc src []
  | some src, none, _, some p => aliasesOf T q.one p (fun dest => pair src dest) []
  | none, some dest, none, _ => halfDest dest []
  | none, none, none, none => prRcvProcessWorld T q req e.sgid e.dgid []
  | none, some dest, some p, _ => aliasesOf T q.one p (fun src => pair src dest) []
  -- these two loops go on after the first record
  | none, none, some p, none => aliasesOf T false p halfSrc []
  | none, none, none, some p => aliasesOf T false p halfDest []
  | none, none, some p, some p' =>
    aliasesOf T q.one p (fun src => aliasesOf T q.one p' fun dest => pair src dest) []

def portsDiffer (a : Option (AliasGuid T.subn)) (p : Option (Physp N)) : Bool :=
  match a, p with
  | some a, some p => a.basePort ≠ p
  | _, _ => false

/-- The list of records that `osm_sa_respond` gets; it is empty, too, when the request is refused. -/
def osmPrRcvProcess (requester : Option (Physp N)) : List (Found T.subn) :=
  if ¬q.req.req.Checked then []
  else
    match requester with
    | none => []
    | some req =>
      if q.has .dgid ∧ q.dgid.isMulticast then prProcessMulticast T q []
      else
        match prGetEndPoints T q with
        | none => []
        | some e =>
          if portsDiffer T e.srcAlias e.srcPort then []
          else if portsDiffer T e.destAlias e.destPort then []
          else prDispatch T q req e

end Process

end OpenSM.SaPath
