import OpenSM.PathRecordSpec

/-! `osm_sa_multipath_record.c`: the path computation of multipath records, and where it agrees
with the one of path records. -/

namespace OpenSM.SaPath

open Lib

structure MultipathRecReq where
  compMask : ℕ
  serviceId8msb : ℕ
  serviceId56lsb : ℕ
  qosClassSl : ℕ
  mtu : ℕ
  rate : ℕ
  pktLife : ℕ
  pkey : ℕ
  hopFlowRaw : ℕ
  numPath : ℕ

/-- The bits `IB_MPR_COMPMASK_*`. -/
def mprCompBit : Comp → ℕ
  | .rawTraffic => 0
  | .reversible => 5
  | .pkey => 7
  | .qosClass => 8
  | .sl => 9
  | .mtuSelec => 10
  | .mtu => 11
  | .rateSelec => 12
  | .rate => 13
  | .pktLifeTimeSelec => 14
  | .pktLifeTime => 15
  | .serviceIdMsb => 16
  | .serviceIdLsb => 21

def MultipathRecReq.req (r : MultipathRecReq) : Req where
  comp c := r.compMask.testBit (mprCompBit c)
  serviceId := r.serviceId8msb * 2 ^ 56 + r.serviceId56lsb
  qosClass := r.qosClassSl / 16
  sl := r.qosClassSl % 16
  pkey := r.pkey
  mtu := r.mtu % 64
  mtuSel := r.mtu / 64 % 4
  rate := r.rate % 64
  rateSel := r.rate / 64 % 4
  pktLife := r.pktLife % 64
  pktLifeSel := r.pktLife / 64 % 4
  raw := r.hopFlowRaw.testBit 31
  reversible := r.numPath.testBit 7

variable {N : Type} [DecidableEq N] (s : Subn N)

/-- The walk of `mpr_rcv_get_path_parms`, with the number of links it may still cross: a link
counts before it is known where it leads. -/
def mprWalk (lid left : ℕ) (dest p : Physp N) (t : Track) : Except Status (Physp N × Track) :=
  if p = dest then .ok (p, t)
  else
    match s.remote p, left with
    | none, _ => .error .error
    | some _, 0 => .error .notFound
    | some q, left + 1 =>
      if q = dest then .ok (q, t)
      else
        match traverse s lid q t with
        | .error e => .error e
        | .ok r => mprWalk lid left dest r.1 r.2

def mprPrtnSl (pkey : ℕ) : ℕ := (s.prtnSl pkey).getD s.nilSl

def mprRcvGetPathParms (req : Req) (src dest : AliasGuid s) (dlid : ℕ) : Except Status PathParms := do
  let r ← trackPath s (mprWalk s dlid maxHops) req src.basePort dest.basePort dlid
  let parms ← selectParms s (mprPrtnSl s) req src.basePort dest.basePort r.1 r.2.1 r.2.2
  .ok (resetPkey req parms)

def mprRcvBuildPr (src dest : AliasGuid s) (slid dlid preference : ℕ) (parms : PathParms)
    (reversible : Bool) : PathRec where
  dgid := ⟨s.subnetPrefix dest.basePort, dest.aliasGuid⟩
  sgid := ⟨s.subnetPrefix src.basePort, src.aliasGuid⟩
  dlid := dlid
  slid := slid
  hopFlowRaw := 0
  pkey := parms.pkey
  sl := parms.sl % 16
  mtu := parms.mtu ||| 0x80
  rate := recRate s (some src.basePort) (some dest.basePort) reversible parms.rate ||| 0x80
  pktLife := if src.basePort = dest.basePort then 0x80 else parms.pktLife ||| 0x80
  preference := preference
  numPath := if reversible then 0x80 else 0

def mprRcvGetLidPairPath (req : Req) (src dest : AliasGuid s) (slid dlid preference : ℕ) :
    Option PathRec :=
  match mprRcvGetPathParms s req src dest dlid with
  | .error _ => none
  | .ok parms =>
    let reversible := (mprRcvGetPathParms s req dest src slid).isOk
    if req.comp .reversible ∧ ¬reversible ∧ req.reversible then none
    else some (mprRcvBuildPr s src dest slid dlid preference parms reversible)

def routeEnd (p : Physp N) (hops : List (Physp N × Physp N)) : Physp N :=
  hops.foldl (fun _ h => h.2) p

/-- The links of a route to `dest`: one into each switch, and one more unless the last switch
routes to the destination itself. -/
def routeLinks (dest p : Physp N) (hops : List (Physp N × Physp N)) : ℕ :=
  if routeEnd p hops = dest then hops.length else hops.length + 1

variable {s}

lemma Route.mprWalk {lid left : ℕ} {dest p : Physp N} {hops : List (Physp N × Physp N)}
    (h : Route s lid dest p hops) (t : Track) (hlinks : routeLinks dest p hops ≤ left)
    (hsls : (along s hops t).sls ≠ []) :
    mprWalk s lid left dest p t = .ok (dest, along s hops t) := by
  induction h generalizing left t with
  | here => rw [SaPath.mprWalk.eq_def, if_pos rfl, along_nil]
  | link hp hr =>
    rw [routeLinks, if_neg (by exact hp)] at hlinks
    obtain ⟨left, rfl⟩ := Nat.exists_eq_succ_of_ne_zero (Nat.ne_of_gt ((Nat.succ_pos _).trans_le hlinks))
    rw [SaPath.mprWalk.eq_def, if_neg hp, hr]
    simp only [if_true, along_nil]
  | @switch p q e hops hp hr hq he _ ih =>
    rw [along_step] at hsls ⊢
    have hmid := sls_ne_nil_of_along s hsls
    have htr := (traverse_eq_ok s (sls_ne_nil_of_along s hmid)).mpr ⟨e, he, hmid, rfl⟩
    have hstep : routeLinks dest p ((q, e) :: hops) = routeLinks dest e hops + 1 := by
      rw [routeLinks, routeLinks, show routeEnd p ((q, e) :: hops) = routeEnd e hops from rfl]
      split_ifs <;> rfl
    rw [hstep] at hlinks
    obtain ⟨left, rfl⟩ := Nat.exists_eq_succ_of_ne_zero (Nat.ne_of_gt ((Nat.succ_pos _).trans_le hlinks))
    rw [SaPath.mprWalk.eq_def, if_neg hp, hr]
    simp only [if_neg hq, htr]
    exact ih _ (Nat.le_of_succ_le_succ hlinks) hsls

/-! ### The same request in both records -/

/-- Requests that set the same components to the same values. -/
structure Req.Same (req req' : Req) : Prop where
  comp : req.comp = req'.comp
  serviceId : req.comp .serviceIdMsb → req.comp .serviceIdLsb → req.serviceId = req'.serviceId
  qosClass : req.comp .qosClass → req.qosClass = req'.qosClass
  sl : req.comp .sl → req.sl = req'.sl
  pkey : req.comp .pkey → req.pkey = req'.pkey
  mtu : req.comp .mtuSelec → req.comp .mtu → req.mtuSel = req'.mtuSel ∧ req.mtu = req'.mtu
  rate : req.comp .rateSelec → req.comp .rate → req.rateSel = req'.rateSel ∧ req.rate = req'.rate
  pktLife : req.comp .pktLifeTimeSelec → req.comp .pktLifeTime →
    req.pktLifeSel = req'.pktLifeSel ∧ req.pktLife = req'.pktLife
  raw : req.comp .rawTraffic → req.raw = req'.raw
  reversible : req.comp .reversible → req.reversible = req'.reversible

namespace Req.Same

variable {req req' : Req} (h : req.Same req')
include h

omit [DecidableEq N] in
lemma applyTavorMtuLimit (src dest : Physp N) :
    applyTavorMtuLimit s req src dest = applyTavorMtuLimit s req' src dest := by
  rw [SaPath.applyTavorMtuLimit, SaPath.applyTavorMtuLimit, ← h.comp]
  by_cases hon : req.comp .mtuSelec ∧ req.comp .mtu
  · rw [(h.mtu hon.1 hon.2).1, (h.mtu hon.1 hon.2).2]
  · rw [← Bool.and_eq_true, Bool.not_eq_true] at hon
    rw [hon, Bool.not_false, Bool.true_or, Bool.true_or]

omit [DecidableEq N] in
lemma isMatch (rule : MatchRule) (src dest : Physp N) :
    rule.isMatch s src dest req = rule.isMatch s src dest req' := by
  have hclass : ∀ arr, (req.comp .qosClass && isNumInRangeArr arr req.qosClass) =
      (req.comp .qosClass && isNumInRangeArr arr req'.qosClass) := by
    intro arr
    by_cases hc : req.comp .qosClass
    · rw [h.qosClass hc]
    · simp [hc]
  have hservice : ∀ arr, (req.comp .serviceIdMsb && req.comp .serviceIdLsb &&
      isNumInRangeArr arr req.serviceId) = (req.comp .serviceIdMsb && req.comp .serviceIdLsb &&
      isNumInRangeArr arr req'.serviceId) := by
    intro arr
    by_cases hm : req.comp .serviceIdMsb
    · by_cases hl : req.comp .serviceIdLsb
      · rw [h.serviceId hm hl]
      · simp [hl]
    · simp [hm]
  have hpkey : ∀ arr, (req.comp .pkey && isNumInRangeArr arr (req.pkey % 2 ^ 15)) =
      (req.comp .pkey && isNumInRangeArr arr (req'.pkey % 2 ^ 15)) := by
    intro arr
    by_cases hc : req.comp .pkey
    · rw [h.pkey hc]
    · simp [hc]
  rw [MatchRule.isMatch, MatchRule.isMatch, hclass, hservice, hpkey, h.comp]

omit [DecidableEq N] in
lemma qosLevel (src dest : Physp N) : qosLevel s src dest req = qosLevel s src dest req' := by
  have hmatch : ∀ policy : QosPolicy,
      policy.getQosLevel s src dest req = policy.getQosLevel s src dest req' := by
    intro policy
    rw [QosPolicy.getQosLevel, QosPolicy.getQosLevel]
    rw [show (fun rule : MatchRule => rule.isMatch s src dest req) =
      fun rule => rule.isMatch s src dest req' from funext fun rule => h.isMatch rule src dest]
  rw [SaPath.qosLevel, SaPath.qosLevel, funext hmatch]

omit [DecidableEq N] in
lemma startTrack (src dest : Physp N) : startTrack s req src dest = startTrack s req' src dest := by
  rw [SaPath.startTrack, SaPath.startTrack, h.applyTavorMtuLimit]

lemma selectMtu (mtu : ℕ) : selectMtu req mtu = selectMtu req' mtu := by
  rw [SaPath.selectMtu, SaPath.selectMtu, ← h.comp]
  split_ifs with hon
  · rw [(h.mtu hon.1 hon.2).1, (h.mtu hon.1 hon.2).2]
  · rfl

lemma selectRate (rate : ℕ) : selectRate req rate = selectRate req' rate := by
  rw [SaPath.selectRate, SaPath.selectRate, ← h.comp]
  split_ifs with hon
  · rw [(h.rate hon.1 hon.2).1, (h.rate hon.1 hon.2).2]
  · rfl

lemma selectPktLife (life : ℕ) : selectPktLife req life = selectPktLife req' life := by
  rw [SaPath.selectPktLife, SaPath.selectPktLife, ← h.comp]
  split_ifs with hon
  · rw [(h.pktLife hon.1 hon.2).1, (h.pktLife hon.1 hon.2).2]
  · rfl

lemma raw_iff : (req.comp .rawTraffic ∧ req.raw) ↔ (req'.comp .rawTraffic ∧ req'.raw) := by
  rw [← h.comp]
  exact and_congr_right fun hr => by rw [h.raw hr]

omit [DecidableEq N] in
lemma selectPkey (level : Option QosLevel) (src dest : Physp N) :
    selectPkey s level src dest req = selectPkey s level src dest req' := by
  simp only [SaPath.selectPkey, h.raw_iff, ← h.comp]
  by_cases hp : req.comp .pkey
  · rw [h.pkey hp]
  · simp only [hp]
    rfl

omit [DecidableEq N] in
lemma selectSl (level : Option QosLevel) (pkey prtnSl : ℕ) (sls : List ℕ) :
    selectSl s level req pkey prtnSl sls = selectSl s level req' pkey prtnSl sls := by
  simp only [SaPath.selectSl, ← h.comp]
  by_cases hc : req.comp .sl
  · rw [h.sl hc]
  · simp only [hc]
    rfl

lemma resetPkey (parms : PathParms) : resetPkey req parms = resetPkey req' parms := by
  rw [SaPath.resetPkey, SaPath.resetPkey]
  simp only [h.raw_iff]

lemma mprRcvGetPathParms (src dest : AliasGuid s) (dlid : ℕ) :
    mprRcvGetPathParms s req src dest dlid = mprRcvGetPathParms s req' src dest dlid := by
  simp only [SaPath.mprRcvGetPathParms, trackPath, selectParms, h.startTrack, h.qosLevel, h.selectMtu,
    h.selectRate, h.selectPktLife, h.selectPkey, h.selectSl, h.resetPkey]

lemma mprRcvGetLidPairPath (src dest : AliasGuid s) (slid dlid preference : ℕ) :
    mprRcvGetLidPairPath s req src dest slid dlid preference =
      mprRcvGetLidPairPath s req' src dest slid dlid preference := by
  have hrev : ∀ b : Bool, (req.comp .reversible ∧ ¬b ∧ req.reversible) ↔
      (req'.comp .reversible ∧ ¬b ∧ req'.reversible) := by
    intro b
    rw [← h.comp]
    exact and_congr_right fun hr => by rw [h.reversible hr]
  simp only [SaPath.mprRcvGetLidPairPath, h.mprRcvGetPathParms, hrev]

end Req.Same

/-! ### Where the two computations agree -/

variable (s)

def engineSl (slid dlid sl : ℕ) : ℕ := (s.pathSl.map fun pathSl => pathSl sl slid dlid).getD sl

/-- A path that meets the request in all but its length and its SL, with the values selected on it and the SLs
that the two computations go on with. -/
structure Candidate (req : Req) (src dest : Physp N) (lid : ℕ) where
  p : Physp N
  d : Physp N
  hops : List (Physp N × Physp N)
  mtu : ℕ
  rate : ℕ
  pktLife : ℕ
  pkey : ℕ
  prSl : ℕ
  mprSl : ℕ
  start : routedPort s src lid = .ok p
  routed : routedPort s dest lid = .ok d
  route : Route s lid d p hops
  open_sls : routeSls s p hops ≠ []
  level_sl : ∀ sl, (qosLevel s src d req).bind (·.sl) = some sl → sl ∈ routeSls s p hops
  mtu_eq : selectMtu req (routeTrack s req src dest p d hops (qosLevel s src d req)).mtu = .ok mtu
  rate_eq : selectRate req (routeTrack s req src dest p d hops (qosLevel s src d req)).rate = .ok rate
  pktLife_eq : selectPktLife req (pktLifeTime s (qosLevel s src d req) src dest) = .ok pktLife
  pkey_eq : selectPkey s (qosLevel s src d req) src d req = .ok pkey
  prSl_eq : selectSl s (qosLevel s src d req) req pkey (prPrtnSl s (pkeyGetBase pkey))
      (routeSls s p hops) = .ok prSl
  mprSl_eq : selectSl s (qosLevel s src d req) req pkey (mprPrtnSl s (pkeyGetBase pkey))
      (routeSls s p hops) = .ok mprSl

namespace Candidate

variable {s} {req : Req} {src dest : Physp N} {lid : ℕ}

/-- What a path record asks of the path besides: at most 64 switches, an SL that gets through, and a routing
engine that leaves a requested SL as it is. -/
def PrTakes (c : Candidate s req src dest lid) (slid dlid : ℕ) : Prop :=
  c.hops.length ≤ maxHops ∧ (s.opt.qos → c.prSl ∈ routeSls s c.p c.hops) ∧
    (req.comp .sl → engineSl s slid dlid c.prSl = c.prSl)

/-- What a multipath record asks of it: at most 64 links, and an SL that gets through. -/
def MprTakes (c : Candidate s req src dest lid) : Prop :=
  routeLinks c.d c.p c.hops ≤ maxHops ∧ (s.opt.qos → c.mprSl ∈ routeSls s c.p c.hops)

def parms (c : Candidate s req src dest lid) (sl : ℕ) : PathParms :=
  resetPkey req ⟨c.mtu, c.rate, c.pktLife, c.pkey, sl⟩

lemma unique (c c' : Candidate s req src dest lid) : c = c' := by
  obtain ⟨p, d, hops, mtu, rate, pktLife, pkey, prSl, mprSl, hp, hd, hroute, -, -, hmtu, hrate, hlife, hpkey,
      hpr, hmpr⟩ := c
  obtain ⟨p', d', hops', mtu', rate', pktLife', pkey', prSl', mprSl', hp', hd', hroute', -, -, hmtu',
    hrate', hlife', hpkey', hpr', hmpr'⟩ := c'
  obtain rfl := Except.ok.inj (hp.symm.trans hp')
  obtain rfl := Except.ok.inj (hd.symm.trans hd')
  obtain rfl := hroute.unique hroute'
  obtain rfl := Except.ok.inj (hmtu.symm.trans hmtu')
  obtain rfl := Except.ok.inj (hrate.symm.trans hrate')
  obtain rfl := Except.ok.inj (hlife.symm.trans hlife')
  obtain rfl := Except.ok.inj (hpkey.symm.trans hpkey')
  obtain rfl := Except.ok.inj (hpr.symm.trans hpr')
  obtain rfl := Except.ok.inj (hmpr.symm.trans hmpr')
  rfl

end Candidate

variable {s}

section Records

variable {req : Req} {src dest : AliasGuid s} {slid dlid : ℕ}

end Records

variable (s)

def PrBack (req : Req) (src dest : Physp N) (slid dlid : ℕ) : Prop :=
  ∃ c : Candidate s req dest src slid, c.PrTakes dlid slid

def MprBack (req : Req) (src dest : Physp N) (slid : ℕ) : Prop := ∃ c : Candidate s req dest src slid, c.MprTakes

variable {s}

def Candidate.PrGiven {req : Req} {src dest : Physp N} {lid : ℕ} (c : Candidate s req src dest lid)
    (slid : ℕ) : Prop :=
  c.PrTakes slid lid ∧ (req.comp .reversible → req.reversible → PrBack s req src dest slid lid)

def Candidate.MprGiven {req : Req} {src dest : Physp N} {lid : ℕ} (c : Candidate s req src dest lid)
    (slid : ℕ) : Prop :=
  c.MprTakes ∧ (req.comp .reversible → req.reversible → MprBack s req src dest slid)

variable (s)

/-- The limits on the links and the SLs of the two computations come to the same: on a path that meets the rest
of the request both hold or neither, the engine answers the SL of the multipath record, and a way back that only
one of them takes makes no difference to the rate. -/
structure Alike (req : Req) (src dest : Physp N) (slid dlid : ℕ) : Prop where
  given : ∀ c : Candidate s req src dest dlid, c.PrGiven slid ↔ c.MprGiven slid
  sl : ∀ c : Candidate s req src dest dlid, c.PrGiven slid → c.MprGiven slid →
    engineSl s slid dlid c.prSl % 16 = c.mprSl % 16
  rate : ∀ c : Candidate s req src dest dlid, c.PrGiven slid → c.MprGiven slid →
    ¬(PrBack s req src dest slid dlid ↔ MprBack s req src dest slid) →
    recRate s (some src) (some dest) true c.rate ||| 0x80 = recRate s (some src) (some dest) false c.rate ||| 0x80

variable {s}

section Records

variable {req : Req} {src dest : AliasGuid s} {slid dlid preference : ℕ}

end Records

def anyMultipath : MultipathRecReq := ⟨0, 0, 0, 0, 0, 0, 0, 0, 0, 0⟩

end OpenSM.SaPath
