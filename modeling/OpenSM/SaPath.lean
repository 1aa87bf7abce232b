import Mathlib
import OpenSM.PathRates

/-! What the two path queries of the SA share: the subnet they walk, the request components they
read, QoS levels, P_Keys, and the stages their path computations have in common. -/

namespace OpenSM.SaPath

open Lib

inductive Status
  | error
  | notFound
deriving DecidableEq

lemma bind_eq_ok {ε α β : Type} {x : Except ε α} {f : α → Except ε β} {b : β} :
    (x >>= f) = .ok b ↔ ∃ a, x = .ok a ∧ f a = .ok b := by
  cases x with
  | error e => exact ⟨nofun, fun ⟨_, h, _⟩ => nomatch h⟩
  | ok a => exact ⟨fun h => ⟨a, rfl, h⟩, fun ⟨_, ha, h⟩ => Except.ok.inj ha ▸ h⟩

/-- A physical port, named by its node and its number. -/
structure Physp (N : Type) where
  node : N
  portNum : ℕ
deriving DecidableEq

structure Switch where
  maxLidHo : ℕ
  newLft : ℕ → ℕ

/-- `raw_vl_by_sl`: two VLs to a byte, the even SL in the high half. -/
structure SlvlTable where
  rawVlBySl : ℕ → ℕ

def SlvlTable.get (t : SlvlTable) (sl : ℕ) : ℕ :=
  if sl % 2 = 1 then t.rawVlBySl (sl / 2) % 16 else t.rawVlBySl (sl / 2) / 16 % 16

def dropVl : ℕ := 15
def maxNumVls : ℕ := 16
def defaultSl : ℕ := 0
def maxHops : ℕ := 64
def noPath : ℕ := 255
def mtuLen1024 : ℕ := 3
def saRateMaxEnum : ℕ := 63

/-- A QoS level as the policy parser builds it; it refuses a rate limit that is no rate. -/
structure QosLevel where
  sl : Option ℕ
  mtuLimit : Option ℕ
  rateLimit : Option {r : ℕ // rateIsValid r}
  pktLife : Option ℕ
  pkeyRangeArr : List (ℕ × ℕ)

structure PortGroup where
  nodeTypes : ℕ → Bool
  portMap : ℕ → Bool

structure MatchRule where
  sourceGroups : List PortGroup
  destinationGroups : List PortGroup
  qosClassRangeArr : List (ℕ × ℕ)
  serviceIdRangeArr : List (ℕ × ℕ)
  pkeyRangeArr : List (ℕ × ℕ)
  qosLevel : QosLevel

structure QosPolicy where
  matchRules : List MatchRule
  defaultQosLevel : Option QosLevel

structure Opt where
  qos : Bool
  enableQuirks : Bool
  allowBothPkeys : Bool
  subnetTimeout : ℕ
  maxRateEnum : ℕ

structure Subn (N : Type) where
  /-- `p_node->sw`. -/
  sw : N → Option Switch
  nodeType : N → ℕ
  deviceId : N → ℕ
  vendorId : N → ℕ
  valid : Physp N → Bool
  portInfo : Physp N → PortInfo
  remote : Physp N → Option (Physp N)
  slvlByPort : Physp N → ℕ → SlvlTable
  /-- The `keys` map of a P_Key table in map order: map key and P_Key. Both are in host order, as a big-endian
  host has them; the other fields do not depend on the byte order. -/
  pkeys : Physp N → List (ℕ × ℕ)
  portGuid : Physp N → ℕ
  subnetPrefix : Physp N → ℕ
  /-- The physical port of `osm_get_port_by_lid_ho`. -/
  portByLid : ℕ → Option (Physp N)
  /-- The SLs of the partitions in `prtn_pkey_tbl`. -/
  prtnSl : ℕ → Option ℕ
  /-- The byte found where a partition has its SL when the end item of `prtn_pkey_tbl` is read as
  a partition. -/
  nilSl : ℕ
  qosPolicy : Option QosPolicy
  /-- `path_sl` of the routing engine in use: SL hint, source LID, destination LID. -/
  pathSl : Option (ℕ → ℕ → ℕ → ℕ)
  opt : Opt
  remote_port0 : ∀ p q, remote p = some q → (sw q.node).isSome → q.portNum ≠ 0

/-- The components of a request, as their bits in `comp_mask` name them. -/
inductive Comp
  | serviceIdMsb | serviceIdLsb | rawTraffic | reversible | pkey | qosClass | sl
  | mtuSelec | mtu | rateSelec | rate | pktLifeTimeSelec | pktLifeTime
deriving DecidableEq

structure Req where
  comp : Comp → Bool
  serviceId : ℕ
  qosClass : ℕ
  sl : ℕ
  pkey : ℕ
  mtu : ℕ
  mtuSel : ℕ
  rate : ℕ
  rateSel : ℕ
  pktLife : ℕ
  pktLifeSel : ℕ
  /-- Bit 31 of `hop_flow_raw`. -/
  raw : Bool
  /-- Bit 7 of `num_path`. -/
  reversible : Bool

section Qos

variable {N : Type} (s : Subn N)

/-- The bisection of `__is_num_in_range_arr`; each round narrows both ends. -/
def bisect (arr : List (ℕ × ℕ)) (num : ℕ) : ℕ → ℕ → ℕ → Bool
  | 0, _, _ => false
  | fuel + 1, ind1, ind2 =>
    let range := fun i => arr.getD i (0, 0)
    if ind2 < ind1 then false
    else if num < (range ind1).1 ∨ (range ind2).2 < num then false
    else if num ≤ (range ind1).2 ∨ (range ind2).1 ≤ num then true
    else
      let mid := ind1 + (ind2 - ind1 + 1) / 2
      if num < (range mid).1 then bisect arr num fuel (ind1 + 1) (mid - 1)
      else if (range mid).2 < num then bisect arr num fuel (mid + 1) (ind2 - 1)
      else true

def isNumInRangeArr (arr : List (ℕ × ℕ)) (num : ℕ) : Bool :=
  !arr.isEmpty && bisect arr num arr.length 0 (arr.length - 1)

def isPortInGroup (p : Physp N) (g : PortGroup) : Bool :=
  g.nodeTypes (s.nodeType p.node) || g.portMap (s.portGuid p)

def isPortInGroupList (p : Physp N) (l : List PortGroup) : Bool := l.any (isPortInGroup s p)

/-- The tests of `__qos_policy_get_match_rule_by_params` on one rule. -/
def MatchRule.isMatch (rule : MatchRule) (src dest : Physp N) (req : Req) : Bool :=
  (rule.sourceGroups.isEmpty || isPortInGroupList s src rule.sourceGroups) &&
  (rule.destinationGroups.isEmpty || isPortInGroupList s dest rule.destinationGroups) &&
  (rule.qosClassRangeArr.isEmpty ||
    (req.comp .qosClass && isNumInRangeArr rule.qosClassRangeArr req.qosClass)) &&
  (rule.serviceIdRangeArr.isEmpty ||
    (req.comp .serviceIdMsb && req.comp .serviceIdLsb &&
      isNumInRangeArr rule.serviceIdRangeArr req.serviceId)) &&
  (rule.pkeyRangeArr.isEmpty ||
    (req.comp .pkey && isNumInRangeArr rule.pkeyRangeArr (req.pkey % 2 ^ 15)))

/-- `osm_qos_policy_get_qos_level_by_pr` and, after its translation of the component mask,
`osm_qos_policy_get_qos_level_by_mpr`. -/
def QosPolicy.getQosLevel (policy : QosPolicy) (src dest : Physp N) (req : Req) : Option QosLevel :=
  match policy.matchRules.find? (·.isMatch s src dest req) with
  | some rule => some rule.qosLevel
  | none => policy.defaultQosLevel

def qosLevel (src dest : Physp N) (req : Req) : Option QosLevel :=
  if s.opt.qos then s.qosPolicy.bind fun policy => policy.getQosLevel s src dest req else none

def QosLevel.hasPkey (level : QosLevel) (pkey : ℕ) : Bool :=
  isNumInRangeArr level.pkeyRangeArr (pkey % 2 ^ 15)

end Qos

section Pkeys

variable {N : Type} (s : Subn N)

def pkeyIsFullMember (pkey : ℕ) : Bool := pkey.testBit 15

def pkeyGetBase (pkey : ℕ) : ℕ := pkey % 2 ^ 15

def matchPkey (pkey1 pkey2 : ℕ) : Bool :=
  (pkeyIsFullMember pkey1 || pkeyIsFullMember pkey2) && pkeyGetBase pkey1 = pkeyGetBase pkey2

/-- `cl_map_get` on a `keys` map. -/
def getPkey (keys : List (ℕ × ℕ)) (key : ℕ) : Option ℕ :=
  (keys.find? (·.1 = key)).map (·.2)

def findPkey (allowBothPkeys : Bool) (keys : List (ℕ × ℕ)) (pkey : ℕ) : Option ℕ :=
  if allowBothPkeys then
    (getPkey keys (2 ^ 15 + pkeyGetBase pkey)).or (getPkey keys (pkeyGetBase pkey))
  else getPkey keys (pkeyGetBase pkey)

def physpShareThisPkey (p1 p2 : Physp N) (pkey : ℕ) : Bool :=
  match findPkey s.opt.allowBothPkeys (s.pkeys p1) pkey,
    findPkey s.opt.allowBothPkeys (s.pkeys p2) pkey with
  | some pkey1, some pkey2 => matchPkey pkey1 pkey2
  | _, _ => false

/-- One pass of `osm_physp_find_common_pkey` over both maps: entries to be skipped are passed
over, a match ends the pass, and else the side with the lower key moves on. -/
def commonPass (skip1 skip2 : ℕ → Bool) (key : ℕ → ℕ) :
    ℕ → List (ℕ × ℕ) → List (ℕ × ℕ) → Option ℕ
  | fuel + 1, e1 :: l1, e2 :: l2 =>
    if skip1 e1.2 then commonPass skip1 skip2 key fuel l1 (e2 :: l2)
    else if skip2 e2.2 then commonPass skip1 skip2 key fuel (e1 :: l1) l2
    else if matchPkey e1.2 e2.2 then some e1.2
    else if key e2.1 = key e1.1 then commonPass skip1 skip2 key fuel l1 l2
    else if key e2.1 < key e1.1 then commonPass skip1 skip2 key fuel (e1 :: l1) l2
    else commonPass skip1 skip2 key fuel l1 (e2 :: l2)
  | _, _, _ => none

def physpFindCommonPkey (p1 p2 : Physp N) : ℕ :=
  let keys1 := s.pkeys p1
  let keys2 := s.pkeys p2
  -- every round takes an entry off one of the maps
  let fuel := keys1.length + keys2.length
  let any := fun _ => false
  let limited := fun pkey => !pkeyIsFullMember pkey
  let common := commonPass any any id fuel keys1 keys2
  let both :=
    (commonPass limited pkeyIsFullMember pkeyGetBase fuel keys1 keys2).or
      (commonPass pkeyIsFullMember limited pkeyGetBase fuel keys1 keys2)
  (common.or (if s.opt.allowBothPkeys then both else none)).getD 0

def QosLevel.getSharedPkey (level : QosLevel) (p1 p2 : Physp N) : ℕ :=
  ((level.pkeyRangeArr.flatMap fun r => List.range' r.1 (r.2 + 1 - r.1)).find?
    (physpShareThisPkey s p1 p2)).getD 0

def selectPkey (level : Option QosLevel) (src dest : Physp N) (req : Req) : Except Status ℕ :=
  let ranged := level.filter fun level => !level.pkeyRangeArr.isEmpty
  if req.comp .rawTraffic ∧ req.raw then .ok (physpFindCommonPkey s src dest)
  else if req.comp .pkey then
    if ¬physpShareThisPkey s src dest req.pkey then .error .notFound
    else if ranged.any (!·.hasPkey req.pkey) then .error .notFound
    else .ok req.pkey
  else
    let pkey :=
      match ranged with
      | some level => level.getSharedPkey s src dest
      | none => physpFindCommonPkey s src dest
    if pkey = 0 then .error .notFound else .ok pkey

end Pkeys

section Stages

variable {N : Type} (s : Subn N)

def isTavorPort (p : Physp N) : Bool :=
  s.deviceId p.node = 23108 && s.vendorId p.node ∈ [0x0002C9, 0x0005AD, 0x00066A, 0x0008F1]

/-- `sa_path_rec_apply_tavor_mtu_limit`, and the same function for multipath records. -/
def applyTavorMtuLimit (req : Req) (src dest : Physp N) : Bool :=
  (isTavorPort s src || isTavorPort s dest) &&
    (!(req.comp .mtuSelec && req.comp .mtu) ||
      match req.mtuSel with
      | 0 | 2 => req.mtu ≤ mtuLen1024
      | 3 => false
      | _ => true)

/-- What the walk along a path tracks: the lowest MTU and rate so far, and the SLs whose bit in
`valid_sl_mask` is set. -/
structure Track where
  mtu : ℕ
  rate : ℕ
  sls : List ℕ

def Track.restrict (t : Track) (mtu rate : ℕ) : Track :=
  { t with mtu := lower id t.mtu mtu, rate := lower rateOrder t.rate rate }

def startTrack (req : Req) (src dest : Physp N) : Track where
  mtu :=
    let mtu := (s.portInfo src).getMtuCap
    if s.opt.enableQuirks ∧ applyTavorMtuLimit s req src dest then lower id mtu mtuLen1024 else mtu
  rate := (s.portInfo src).computeRate (s.portInfo src).extSpeeds
  sls := List.range maxNumVls

def switchGetRouteByLid (n : N) (lid : ℕ) : Option (Physp N) :=
  (s.sw n).bind fun sw =>
    let port := if lid = 0 ∨ sw.maxLidHo < lid then noPath else sw.newLft lid
    if port ≠ noPath ∧ s.valid ⟨n, port⟩ then some ⟨n, port⟩ else none

/-- The port a path starts or ends at: at a switch the one that routes the destination LID. -/
def routedPort (p : Physp N) (lid : ℕ) : Except Status (Physp N) :=
  if (s.sw p.node).isSome then
    match switchGetRouteByLid s p.node lid with
    | some e => .ok e
    | none => .error .notFound
  else .ok p

def dropped (out : Physp N) (inPort sl : ℕ) : Bool := (s.slvlByPort out inPort).get sl = dropVl

def updateSls (out : Physp N) (inPort : ℕ) (t : Track) : Except Status Track :=
  if s.opt.qos then
    let sls := t.sls.filter (!dropped s out inPort ·)
    if sls = [] then .error .notFound else .ok { t with sls := sls }
  else .ok t

def switchPortRate (p : Physp N) : ℕ :=
  (s.portInfo p).computeRate (s.portInfo ⟨p.node, 0⟩).extSpeeds

/-- The body of the walk at a port that is not the destination: in at `q`, and out where the
switch routes the LID. -/
def traverse (lid : ℕ) (q : Physp N) (t : Track) : Except Status (Physp N × Track) :=
  if (s.sw q.node).isSome then
    let t := t.restrict (s.portInfo q).getMtuCap (switchPortRate s q)
    match switchGetRouteByLid s q.node lid with
    | none => .error .error
    | some e => do
      let t ← updateSls s e q.portNum (t.restrict (s.portInfo e).getMtuCap (switchPortRate s e))
      .ok (e, t)
  else .error .error

def endRate (p : Physp N) : ℕ := (s.portInfo p).computeRate (s.portInfo p).extSpeeds

def endTrack (p : Physp N) (t : Track) : Track :=
  t.restrict (s.portInfo p).getMtuCap (endRate s p)

def limitTrack (level : QosLevel) (t : Track) : Except Status Track :=
  let mtu := (level.mtuLimit.map (lower id t.mtu)).getD t.mtu
  let rate := (level.rateLimit.map fun r => lower rateOrder t.rate r.1).getD t.rate
  if level.sl.any (· ∉ t.sls) then .error .notFound else .ok { t with mtu := mtu, rate := rate }

def pktLifeTime [DecidableEq N] (level : Option QosLevel) (src dest : Physp N) : ℕ :=
  if src = dest then 0 else (level.bind (·.pktLife)).getD s.opt.subnetTimeout

def selectValue (sel required value : ℕ) : Except Status ℕ :=
  match sel with
  | 0 => if value ≤ required then .error .notFound else .ok value
  | 1 =>
    if required ≤ value then
      if 1 < required then .ok (required - 1) else .error .notFound
    else .ok value
  | 2 => if value < required then .error .notFound else .ok required
  | 3 => .ok value
  | _ => .error .error

def selectMtu (req : Req) (mtu : ℕ) : Except Status ℕ :=
  if req.comp .mtuSelec ∧ req.comp .mtu then selectValue req.mtuSel req.mtu mtu else .ok mtu

def selectPktLife (req : Req) (pktLife : ℕ) : Except Status ℕ :=
  if req.comp .pktLifeTimeSelec ∧ req.comp .pktLifeTime then
    selectValue req.pktLifeSel req.pktLife pktLife
  else .ok pktLife

def selectRateValue (sel required rate : ℕ) : Except Status ℕ :=
  match sel with
  | 0 => if pathCompareRates rate required ≠ .gt then .error .notFound else .ok rate
  | 1 =>
    if pathCompareRates rate required ≠ .lt then
      if pathRateGetPrev required ≠ 0 then .ok (pathRateGetPrev required) else .error .notFound
    else .ok rate
  | 2 => if pathCompareRates rate required ≠ .eq then .error .notFound else .ok required
  | 3 => .ok rate
  | _ => .error .error

def selectRate (req : Req) (rate : ℕ) : Except Status ℕ :=
  if req.comp .rateSelec ∧ req.comp .rate then selectRateValue req.rateSel req.rate rate
  else .ok rate

def selectSl (level : Option QosLevel) (req : Req) (pkey prtnSl : ℕ) (sls : List ℕ) :
    Except Status ℕ :=
  match level.bind (·.sl) with
  | some sl => if req.comp .sl ∧ sl ≠ req.sl then .error .notFound else .ok sl
  | none =>
    if req.comp .sl then .ok req.sl
    else if pkey ≠ 0 then .ok prtnSl
    else if s.opt.qos ∧ defaultSl ∉ sls then .ok (sls.headD maxNumVls)
    else .ok defaultSl

def checkSl (sls : List ℕ) (sl : ℕ) : Except Status ℕ :=
  if s.opt.qos ∧ sl ∉ sls then .error .notFound else .ok sl

structure PathParms where
  mtu : ℕ
  rate : ℕ
  pktLife : ℕ
  pkey : ℕ
  sl : ℕ

/-- The first half of a path computation, given the loop that walks from port to port: where the
path ends, the QoS level, and what the path and the level allow. -/
def trackPath (walk : Physp N → Physp N → Track → Except Status (Physp N × Track)) (req : Req)
    (src dest : Physp N) (lid : ℕ) : Except Status (Physp N × Option QosLevel × Track) := do
  let p ← routedPort s src lid
  let t ← updateSls s p 0 (startTrack s req src dest)
  let d ← routedPort s dest lid
  let r ← walk d p t
  let t := endTrack s r.1 r.2
  match qosLevel s src d req with
  | some level => do
    let t ← limitTrack level t
    .ok (d, some level, t)
  | none => .ok (d, none, t)

/-- The second half: the values the request selects, with the SL that a P_Key's partition gives. -/
def selectParms [DecidableEq N] (prtnSl : ℕ → ℕ) (req : Req) (src dest : Physp N) (d : Physp N)
    (level : Option QosLevel) (t : Track) : Except Status PathParms := do
  let mtu ← selectMtu req t.mtu
  let rate ← selectRate req t.rate
  let pktLife ← selectPktLife req (pktLifeTime s level src dest)
  let pkey ← selectPkey s level src d req
  let sl ← selectSl s level req pkey (prtnSl (pkeyGetBase pkey)) t.sls
  let sl ← checkSl s t.sls sl
  .ok ⟨mtu, rate, pktLife, pkey, sl⟩

def resetPkey (req : Req) (parms : PathParms) : PathParms :=
  if req.comp .rawTraffic ∧ req.raw then { parms with pkey := 0 } else parms

/-- An alias GUID and the physical port of its base port, which for a switch is port 0. -/
structure AliasGuid where
  aliasGuid : ℕ
  basePort : Physp N
  port0 : (s.sw basePort.node).isSome → basePort.portNum = 0

structure Gid where
  subnetPrefix : ℕ
  interfaceId : ℕ

structure PathRec where
  dgid : Gid
  sgid : Gid
  dlid : ℕ
  slid : ℕ
  hopFlowRaw : ℕ
  pkey : ℕ
  sl : ℕ
  mtu : ℕ
  rate : ℕ
  pktLife : ℕ
  preference : ℕ
  numPath : ℕ

def saLimitRate (rate : ℕ) : ℕ :=
  if s.opt.maxRateEnum < rate then pathGetReducedRate rate s.opt.maxRateEnum else rate

/-- The rate of a path record, with the ports whose link widths and speeds bound the newer
rates. -/
def recRate (src dest : Option (Physp N)) (reversible : Bool) (rate : ℕ) : ℕ :=
  if s.opt.maxRateEnum < saRateMaxEnum then saLimitRate s rate
  else if 19 ≤ rate then
    let fixup := fun (p : Option (Physp N)) (rate : ℕ) =>
      (p.map fun p => (s.portInfo p).rate2xHdrFixups rate).getD rate
    if reversible then fixup dest (fixup src rate) else fixup src rate
  else rate

end Stages

end OpenSM.SaPath
