import OpenSM.Multicast
import OpenSM.ClMap
import OpenSM.PathRates

/-! `osm_sa_mcmember_record.c`: the requests that create, join and leave multicast groups. -/

namespace OpenSM.McMember

open Lib Multicast ClMap Lib.PtrTree
open SaPath (PortInfo pathCompareRates pathGetReducedRate pathRateGetPrev findOrderedRate rateOrder minRate
  maxRate)

/-- The components of a request, as their bits in `comp_mask` name them. -/
inductive Comp
  | mgid | portGid | qkey | mlid | mtuSel | mtu | tclass | pkey | rateSel | rate | lifeSel | life
  | sl | flow | hop | scope | joinState | proxy
deriving DecidableEq

abbrev CompMask := Comp → Bool

def minMtu : ℕ := 1
def maxMtu : ℕ := 5
def lidMcastStartHo : ℕ := 0xC000
def defaultSubnetPrefix : ℕ := 0xFE80000000000000
def mcScopeLinkLocal : ℕ := 2
def pathSelectorExactly : ℕ := 2
def saRateMaxEnum : ℕ := 63

/-- The options, and the fabric as the multicast requests see it. A port goes by its base GUID, and GUIDs
are numbers in the order of the maps: what the host makes of their bytes. -/
structure Env where
  subnetPrefix : ℕ
  ipoibMcgroupCreationValidation : Bool
  mcgroupJoinValidation : Bool
  consolidateIpv6SnmReq : Bool
  maxRateEnum : ℕ
  maxMcastLidHo : ℕ
  minCaMtu : ℕ
  minCaRate : ℕ
  portByAliasGuid : Guid → Option Guid
  neighborMtu : Guid → ℕ
  portInfo : Guid → PortInfo
  hasPkey : Guid → ℕ → Bool
  sharePkey : Guid → Guid → Bool
  ntoh32 : ℕ → ℕ
  ntoh64 : ℕ → ℕ
  mcastLid : maxMcastLidHo < 2 ^ 16
  ntoh64_lt : ∀ x, x < 2 ^ 64 → ntoh64 x < 2 ^ 64
  ntoh64_ntoh64 : ∀ x, x < 2 ^ 64 → ntoh64 (ntoh64 x) = x

structure Fits (r : MemberRec) : Prop where
  mgid : r.mgid < 2 ^ 128
  prefix_ : r.portGid.prefix_ < 2 ^ 64
  interfaceId : r.portGid.interfaceId < 2 ^ 64
  qkey : r.qkey < 2 ^ 32
  mlid : r.mlid < 2 ^ 16
  mtu : r.mtu < 2 ^ 8
  tclass : r.tclass < 2 ^ 8
  pkey : r.pkey < 2 ^ 16
  rate : r.rate < 2 ^ 8
  pktLife : r.pktLife < 2 ^ 8
  slFlowHop : r.slFlowHop < 2 ^ 32

structure McmReq where
  compMask : CompMask
  mcmr : MemberRec
  requester : Option Guid
  fits : Fits mcmr

/-- `mgrp_mgid_tbl` is there twice: with what it holds, and as the tree that `cl_fmap_match` searches. An
item of the tree is named by its key. -/
structure Sa where
  subn : Subn
  mgidMap : QMap Mgid Mgid
  /-- The static counter of `build_new_mgid`. -/
  uniqCount : ℕ

section Mgid

def rawByte (m : Mgid) (i : ℕ) : ℕ := m / 256 ^ (15 - i) % 256

def mgidSignature (m : Mgid) : ℕ := m / 2 ^ 96 % 2 ^ 16

def ipoibSigned (m : Mgid) : Prop := mgidSignature m = 0x401B ∨ mgidSignature m = 0x601B

instance : DecidablePred ipoibSigned := fun _ => inferInstanceAs (Decidable (_ ∨ _))

def validateRequestedMgid (m : Mgid) : Bool :=
  if rawByte m 0 ≠ 0xFF then false
  else if ipoibSigned m then true
  else if rawByte m 1 / 32 ≠ 0 then false
  else if mgidSignature m = 0xA01B ∧ rawByte m 1 % 16 = mcScopeLinkLocal then false
  else true

def bcastMgid (m : Mgid) : Mgid :=
  0xFF * 2 ^ 120 + (0x10 + rawByte m 1 % 16) * 2 ^ 112 + 0x401B * 2 ^ 96 +
    m / 2 ^ 80 % 2 ^ 16 * 2 ^ 80 + 0xFFFFFFFF

def matchIpv6SnmMgid (m : Mgid) : Bool :=
  m / 2 ^ 64 &&& 0xFF10FFFF0000FFFF = 0xFF10601B00000000 ∧ m % 2 ^ 64 &&& 0xFFFFFFF1FF000000 = 0x00000001FF000000

/-- `compare_ipv6_snm_mgids` looks at all but the last three bytes. -/
def snmPrefix (m : Mgid) : ℕ := m / 2 ^ 24

/-- `cl_fmap_match` with `compare_ipv6_snm_mgids`. -/
def fmapMatchLoop (t : QMap Mgid Mgid) (m : Mgid) : ℕ → Ptr Mgid → Option Mgid
  | 0, _ => none
  | fuel + 1, p =>
    match p with
    | .item a =>
      if snmPrefix m = snmPrefix (t.key p) then some a
      else if snmPrefix m < snmPrefix (t.key p) then fmapMatchLoop t m fuel (t.kid .left p)
      else fmapMatchLoop t m fuel (t.kid .right p)
    | _ => none

def fmapMatch (t : QMap Mgid Mgid) (m : Mgid) : Option Mgid := fmapMatchLoop t m (t.count + 1) (t.kid .left .root)

/-- `cl_fmap_insert`; the loops of it end in every tree that the map can hold. -/
def mgidInsert (t : QMap Mgid Mgid) (m : Mgid) : QMap Mgid Mgid :=
  ((ClMap.insert t m (.item m)).map Prod.snd).getD t

def mgidRemove (t : QMap Mgid Mgid) (m : Mgid) : QMap Mgid Mgid := (ClMap.removeItem t (.item m)).getD t

def newMgid (env : Env) (scope uniq : ℕ) : Mgid :=
  0xFF * 2 ^ 120 + (0x10 + scope) * 2 ^ 112 + 0xA01B * 2 ^ 96 + env.subnetPrefix / 2 ^ 16 * 2 ^ 48 +
    env.ntoh32 uniq % 2 ^ 32 * 2 ^ 16

/-- The tries that `build_new_mgid` has left, and the counter. -/
def buildNewMgid (env : Env) (d : Subn) (scope : ℕ) : ℕ → ℕ → Option Mgid × ℕ
  | 0, uniq => (none, uniq)
  | tries + 1, uniq =>
    match d.mgrpMgidTbl.get (newMgid env scope uniq) with
    | none => (some (newMgid env scope uniq), (uniq + 1) % 2 ^ 32)
    | some _ => buildNewMgid env d scope tries ((uniq + 1) % 2 ^ 32)

end Mgid

variable (env : Env)

section Validation

def pkeyBase (pkey : ℕ) : ℕ := pkey % 2 ^ 15

def pkeyIsFullMember (pkey : ℕ) : Bool := pkey / 2 ^ 15 % 2 = 1

def slOf (x : ℕ) : ℕ := x / 2 ^ 28 % 2 ^ 4
def flowOf (x : ℕ) : ℕ := x / 2 ^ 8 % 2 ^ 20
def hopOf (x : ℕ) : ℕ := x % 2 ^ 8

def validateOtherCompFields (comp : CompMask) (r g : MemberRec) : Bool :=
  ¬(comp .qkey ∧ r.qkey ≠ g.qkey) ∧
  ¬(comp .pkey ∧ (¬(pkeyIsFullMember r.pkey ∨ pkeyIsFullMember g.pkey) ∨ pkeyBase r.pkey ≠ pkeyBase g.pkey)) ∧
  ¬(comp .tclass ∧ r.tclass ≠ g.tclass) ∧
  ¬(comp .sl ∧ slOf r.slFlowHop ≠ slOf g.slFlowHop) ∧
  ¬(comp .flow ∧ flowOf r.slFlowHop ≠ flowOf g.slFlowHop) ∧
  ¬(comp .hop ∧ hopOf r.slFlowHop ≠ hopOf g.slFlowHop)

def selects (sel : ℕ) (o : Ordering) : Bool :=
  match sel with
  | 0 => o = .gt
  | 1 => o = .lt
  | 2 => o = .eq
  | _ => true

def validateMoreCompFields (comp : CompMask) (g r : MemberRec) : Bool :=
  (comp .mtuSel → selects (r.mtu / 64) (compare (g.mtu % 64) (r.mtu % 64))) ∧
  (comp .rateSel → selects (r.rate / 64) (pathCompareRates (g.rate % 64) (r.rate % 64)))

def portRate (port : Guid) : ℕ := (env.portInfo port).computeRate (env.portInfo port).extSpeeds

def validatePortCaps (g : MemberRec) (port : Guid) : Bool :=
  ¬env.neighborMtu port < g.mtu % 64 ∧ pathCompareRates (portRate env port) (g.rate % 64) ≠ .lt

def validateModify (g : Mgrp) (r : MemberRec) (requester : Option Guid) : Bool :=
  match g.mcmAliasPortTbl.get r.portGid.interfaceId with
  | none => true
  | some a =>
    match requester with
    | none => false
    | some p =>
      if a.proxyJoin then env.hasPkey p g.mcmemberRec.pkey
      else a.port = p ∧ a.portGid.prefix_ = env.subnetPrefix

def checkJoinCompMask (comp : CompMask) : Bool := comp .mgid ∧ comp .portGid ∧ comp .joinState

def checkCreateCompMask (comp : CompMask) : Bool :=
  comp .mgid ∧ comp .portGid ∧ comp .joinState ∧ comp .qkey ∧ comp .tclass ∧ comp .pkey ∧ comp .flow ∧ comp .sl

def rateValid (comp : CompMask) (r : MemberRec) : Bool :=
  comp .rateSel ∧ comp .rate → minRate ≤ r.rate % 64 ∧ r.rate % 64 ≤ maxRate

def mtuValid (comp : CompMask) (r : MemberRec) : Bool :=
  comp .mtuSel ∧ comp .mtu → minMtu ≤ r.mtu % 64 ∧ r.mtu % 64 ≤ maxMtu

end Validation

section Realizable

def pathRateGetNext (r : ℕ) : ℕ :=
  if r < minRate then 0
  else if maxRate ≤ r then 0
  else findOrderedRate (rateOrder r + 1)

def saLimitRate (rate : ℕ) : ℕ :=
  if env.maxRateEnum < rate then pathGetReducedRate rate env.maxRateEnum else rate

/-- The selector that goes into the record, and the MTU; `portMtu` is 0 without a port. -/
def realizableMtu (comp : CompMask) (r : MemberRec) (portMtu : ℕ) : Option (ℕ × ℕ) :=
  let own := if portMtu ≠ 0 then portMtu else env.minCaMtu
  if ¬comp .mtu ∨ ¬comp .mtuSel then some (pathSelectorExactly, own)
  else if r.mtu / 64 = 3 then some (3, own)
  else
    let required := r.mtu % 64
    let mtu := match r.mtu / 64 with
      | 0 =>
        if portMtu ≠ 0 ∧ portMtu ≤ required then none
        else if portMtu ≠ 0 then some portMtu
        else if required < env.minCaMtu then some env.minCaMtu
        else some (required + 1)
      | 1 => if portMtu ≠ 0 ∧ portMtu < required then some portMtu else some (required - 1)
      | _ => some required
    mtu.bind fun mtu => if mtu < minMtu ∨ maxMtu < mtu then none else some (r.mtu / 64, mtu)

def realizableRate (comp : CompMask) (r : MemberRec) (portRate : ℕ) : Option (ℕ × ℕ) :=
  let own := if portRate ≠ 0 then portRate else env.minCaRate
  if ¬comp .rate ∨ ¬comp .rateSel then some (pathSelectorExactly, own)
  else if r.rate / 64 = 3 then some (3, own)
  else
    let required := r.rate % 64
    let rate := match r.rate / 64 with
      | 0 =>
        if pathCompareRates required portRate ≠ Ordering.lt then none
        else if portRate ≠ 0 then some portRate
        else if pathCompareRates required env.minCaRate = Ordering.lt then some env.minCaRate
        else some (pathRateGetNext required)
      | 1 =>
        if pathCompareRates required portRate = Ordering.gt then some portRate else some (pathRateGetPrev required)
      | _ => some required
    rate.bind fun rate => if rate < minRate ∨ maxRate < rate then none else some (r.rate / 64, rate)

def mgrpRequestIsRealizable (comp : CompMask) (r : MemberRec) (physp : Option Guid) : Option MemberRec :=
  match realizableMtu env comp r (physp.elim 0 env.neighborMtu),
      realizableRate env comp r (physp.elim 0 (portRate env)) with
  | some (mtuSel, mtu), some (rateSel, rate) =>
    let rate := if env.maxRateEnum < saRateMaxEnum then saLimitRate env rate else rate
    some { r with mtu := mtuSel * 64 + mtu, rate := rateSel * 64 + rate }
  | _, _ => none

end Realizable

section Create

def findIpv6SnmMlid (s : Sa) (m : Mgid) : ℕ :=
  match fmapMatch s.mgidMap m with
  | none => 0
  | some m => ((s.subn.mgrpMgidTbl.get m).map fun g => g.mlid + lidMcastStartHo).getD 0

def getNewMlid (s : Sa) (r : MemberRec) : ℕ :=
  if r.mlid ≠ 0 ∧ lidMcastStartHo ≤ r.mlid ∧ r.mlid ≤ env.maxMcastLidHo ∧
      s.subn.mboxes (r.mlid - lidMcastStartHo) = []
  then r.mlid
  else
    let snm := if env.consolidateIpv6SnmReq ∧ matchIpv6SnmMgid r.mgid then findIpv6SnmMlid s r.mgid else 0
    if snm ≠ 0 then snm
    else
      match (List.range (env.maxMcastLidHo + 1 - lidMcastStartHo)).find? fun i => s.subn.mboxes i = [] with
      | some i => i + lidMcastStartHo
      | none => 0

def createMgid (s : Sa) (comp : CompMask) (r : MemberRec) : Option MemberRec × ℕ :=
  if r.mgid = 0 then
    let scope := if comp .scope then r.scopeState.scope.toNat else mcScopeLinkLocal
    let b := buildNewMgid env s.subn scope 1000 s.uniqCount
    (b.1.map fun m => { r with mgid := m }, b.2)
  else if env.ipoibMcgroupCreationValidation then
    if validateRequestedMgid r.mgid then
      if ipoibSigned r.mgid ∧ (mgidSignature r.mgid ≠ 0x401B ∨ bcastMgid r.mgid ≠ r.mgid) then
        match s.subn.mgrpMgidTbl.get (bcastMgid r.mgid) with
        | none => (none, s.uniqCount)
        | some g => (if validateOtherCompFields comp r g.mcmemberRec then some r else none, s.uniqCount)
      else (some r, s.uniqCount)
    else (none, s.uniqCount)
  else (some r, s.uniqCount)

def exactly (x : ℕ) : ℕ := pathSelectorExactly * 64 + x % 64

def selectorsExactly (r : MemberRec) : MemberRec :=
  { r with mtu := exactly r.mtu, rate := exactly r.rate, pktLife := exactly r.pktLife }

def osmMgrpNew (s : Sa) (mlid : ℕ) (r : MemberRec) : Sa :=
  { s with subn := mgrpNew s.subn (mlid - lidMcastStartHo) r false, mgidMap := mgidInsert s.mgidMap r.mgid }

def mcmrRcvCreateNewMgrp (s : Sa) (comp : CompMask) (r : MemberRec) (physp : Option Guid) : Sa × Option Mgid :=
  let c := createMgid env s comp r
  let s := { s with uniqCount := c.2 }
  match c.1.bind fun r => mgrpRequestIsRealizable env comp r physp with
  | none => (s, none)
  | some r =>
    let mlid := getNewMlid env s r
    if mlid = 0 then (s, none)
    else (osmMgrpNew s mlid (selectorsExactly { r with mlid := mlid }), some r.mgid)

def closing (s : Sa) (m : Mgid) (d : Subn) : Sa :=
  { s with subn := d, mgidMap := if (d.mgrpMgidTbl.get m).isNone then mgidRemove s.mgidMap m else s.mgidMap }

def osmMgrpCleanup (s : Sa) (m : Mgid) : Sa :=
  match s.subn.mgrpMgidTbl.get m with
  | none => s
  | some g => closing s m (mgrpCleanup s.subn m g)

end Create

section Requests

def usePrefix (r : MemberRec) : MemberRec :=
  if r.portGid.prefix_ = defaultSubnetPrefix then
    { r with portGid := { r.portGid with prefix_ := env.subnetPrefix } }
  else r

def joinOf (r g : MemberRec) (port : Guid) (proxy : Bool) : Join :=
  ⟨r.portGid, port, ⟨g.scopeState.scope, r.scopeState.state⟩, proxy⟩

def joinGroup (s : Sa) (q : McmReq) (r : MemberRec) (port : Guid) (proxy : Bool) (m : Mgid)
    (isNewGroup : Bool) : Sa × Bool :=
  match s.subn.mgrpMgidTbl.get m with
  | none => (s, false)
  | some g =>
    if validateMoreCompFields q.compMask g.mcmemberRec r ∧ validatePortCaps env g.mcmemberRec port ∧
        r.scopeState.state ≠ 0 ∧ env.hasPkey port g.mcmemberRec.pkey ∧
        (isNewGroup ∨ validateModify env g r q.requester) then
      ({ s with subn := mgrpAddPort s.subn m g (joinOf r g.mcmemberRec port proxy) }, true)
    else (if isNewGroup then osmMgrpCleanup s m else s, false)

def mcmrRcvJoinMgrp (s : Sa) (q : McmReq) : Sa × Bool :=
  let r := usePrefix env q.mcmr
  if r.portGid.prefix_ ≠ env.subnetPrefix then (s, false)
  else
    match env.portByAliasGuid r.portGid.interfaceId, q.requester with
    | some port, some requester =>
      let proxy := decide (port ≠ requester)
      if proxy ∧ ¬env.sharePkey port requester then (s, false)
      else if q.compMask .pkey ∧ pkeyBase r.pkey = 0 then (s, false)
      else
        match s.subn.mgrpMgidTbl.get r.mgid with
        | none =>
          if isFull r.scopeState.state ∧ checkCreateCompMask q.compMask then
            match mcmrRcvCreateNewMgrp env s q.compMask r (some port) with
            | (s, none) => (s, false)
            | (s, some m) => joinGroup env s q r port proxy m true
          else (s, false)
        | some g =>
          if env.mcgroupJoinValidation ∧ ¬validateOtherCompFields q.compMask r g.mcmemberRec then (s, false)
          else joinGroup env s q r port proxy r.mgid false
    | _, _ => (s, false)

def mcmrRcvLeaveMgrp (s : Sa) (q : McmReq) : Sa × Bool :=
  let r := usePrefix env q.mcmr
  if r.portGid.prefix_ ≠ env.subnetPrefix then (s, false)
  else
    match s.subn.mgrpMgidTbl.get r.mgid with
    | none => (s, false)
    | some g =>
      match g.mcmAliasPortTbl.get r.portGid.interfaceId with
      | none => (s, false)
      | some a =>
        if validateDelete a r.scopeState.state ∧ validateModify env g r q.requester then
          (closing s r.mgid (mgrpRemovePort s.subn r.mgid g r.portGid.interfaceId a r.scopeState.state).1, true)
        else (s, false)

inductive Method
  | set
  | delete

def osmMcmrRcvProcess (s : Sa) (method : Method) (q : McmReq) : Sa × Bool :=
  if checkJoinCompMask q.compMask ∧ rateValid q.compMask q.mcmr ∧ mtuValid q.compMask q.mcmr then
    match method with
    | .set => mcmrRcvJoinMgrp env s q
    | .delete => mcmrRcvLeaveMgrp env s q
  else (s, false)

/-- A map that `cl_fmap_init` made, on zeroed memory. -/
def emptyMap : QMap Mgid Mgid :=
  ClMap.init ⟨⟨fun _ _ => .nil, fun _ => .nil, fun _ => .black⟩, fun _ => 0, fun _ => .nil, fun _ => .nil, 0⟩

def Sa.init (uniq : ℕ) : Sa := ⟨Subn.init, emptyMap, uniq⟩

def request (s : Sa) (a : Method × McmReq) : Option Sa := some (osmMcmrRcvProcess env s a.1 a.2).1

end Requests

end OpenSM.McMember
