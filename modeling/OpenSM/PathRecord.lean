import OpenSM.SaPath

/-! `osm_sa_path_record.c`: the parameters of a path, the record built from them, and the record
for a pair of LIDs. -/

namespace OpenSM.SaPath

open Lib

structure PathRecReq where
  compMask : ℕ
  serviceId : ℕ
  qosClassSl : ℕ
  mtu : ℕ
  rate : ℕ
  pktLife : ℕ
  pkey : ℕ
  hopFlowRaw : ℕ
  numPath : ℕ

/-- The bits `IB_PR_COMPMASK_*`. -/
def prCompBit : Comp → ℕ
  | .serviceIdMsb => 0
  | .serviceIdLsb => 1
  | .rawTraffic => 6
  | .reversible => 11
  | .pkey => 13
  | .qosClass => 14
  | .sl => 15
  | .mtuSelec => 16
  | .mtu => 17
  | .rateSelec => 18
  | .rate => 19
  | .pktLifeTimeSelec => 20
  | .pktLifeTime => 21

def PathRecReq.req (r : PathRecReq) : Req where
  comp c := r.compMask.testBit (prCompBit c)
  serviceId := r.serviceId
  qosClass := r.qosClassSl / 16
  sl := r.qosClassSl % 16
  pkey := r.pkey
  mtu := r.mtu % 64
  mtuSel := r.mtu / 64 % 4
  rate := r.rate % 64
  rateSel := r.rate / 64 % 4
  pktLife := r.pktLife % 64
  pktLifeSel := r.pktLife / 64 % 4
  raw := r.hopFlowRaw.testBit 31
  reversible := r.numPath.testBit 7

/-- The checks of `osm_pr_rcv_process` on the components of a request. -/
structure Req.Checked (req : Req) : Prop where
  rate : req.comp .rateSelec → req.comp .rate → rateIsValid req.rate
  mtu : req.comp .mtuSelec → req.comp .mtu → 1 ≤ req.mtu ∧ req.mtu ≤ 5
  serviceId : req.comp .serviceIdMsb = req.comp .serviceIdLsb

variable {N : Type} [DecidableEq N] (s : Subn N)

/-- The walk of `pr_rcv_get_path_parms`, with the number of switches it may still pass. -/
def prWalk (lid left : ℕ) (dest p : Physp N) (t : Track) : Except Status (Physp N × Track) :=
  if p = dest then .ok (p, t)
  else
    match s.remote p with
    | none => .error .error
    | some q =>
      -- point to point, no switch in between
      if q = dest then .ok (q, t)
      else
        match traverse s lid q t, left with
        | .error e, _ => .error e
        | .ok _, 0 => .error .notFound
        | .ok r, left + 1 => prWalk lid left dest r.1 r.2

def overrideSl (req : Req) (slid dlid sl : ℕ) : Except Status ℕ :=
  match s.pathSl with
  | none => .ok sl
  | some pathSl =>
    if req.comp .sl ∧ pathSl sl slid dlid ≠ sl then .error .notFound else .ok (pathSl sl slid dlid)

def prPrtnSl (pkey : ℕ) : ℕ := (s.prtnSl pkey).getD defaultSl

def prRcvGetPathParms (req : Req) (src : AliasGuid s) (slid : ℕ) (dest : AliasGuid s) (dlid : ℕ) :
    Except Status PathParms := do
  let r ← trackPath s (prWalk s dlid maxHops) req src.basePort dest.basePort dlid
  let parms ← selectParms s (prPrtnSl s) req src.basePort dest.basePort r.1 r.2.1 r.2.2
  let sl ← overrideSl s req slid dlid parms.sl
  .ok (resetPkey req { parms with sl := sl })

/-- Without a GID of its own in the request an end gets the default GID of its port, and is the
port whose abilities bound the rate; else that is the port the LID belongs to. -/
def prRcvBuildPr (src dest : AliasGuid s) (sgid dgid : Option Gid) (slid dlid preference : ℕ)
    (parms : PathParms) (reversible : Bool) : PathRec where
  dgid := dgid.getD ⟨s.subnetPrefix dest.basePort, dest.aliasGuid⟩
  sgid := sgid.getD ⟨s.subnetPrefix src.basePort, src.aliasGuid⟩
  dlid := dlid
  slid := slid
  hopFlowRaw := if dgid.isSome then 255 else 0
  pkey := parms.pkey
  sl := parms.sl % 16
  mtu := parms.mtu ||| 0x80
  rate :=
    recRate s (if sgid.isSome then s.portByLid slid else some src.basePort)
      (if dgid.isSome then s.portByLid dlid else some dest.basePort) reversible parms.rate ||| 0x80
  pktLife := if src.basePort = dest.basePort then 0x80 else parms.pktLife ||| 0x80
  preference := preference
  numPath := if reversible then 0x80 else 0

def prRcvGetLidPairPath (req : Req) (src dest : AliasGuid s) (sgid dgid : Option Gid)
    (slid dlid preference : ℕ) : Option PathRec :=
  match prRcvGetPathParms s req src slid dest dlid with
  | .error _ => none
  | .ok parms =>
    let reversible := (prRcvGetPathParms s req dest dlid src slid).isOk
    if req.comp .reversible ∧ ¬reversible ∧ req.reversible then none
    else some (prRcvBuildPr s src dest sgid dgid slid dlid preference parms reversible)

end OpenSM.SaPath
