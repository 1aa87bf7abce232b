import OpenSM.SharePkey

/-! `osm_report_notice`: which subscribers get a notice, and which subscriptions it ends. -/

namespace OpenSM.Inform

open Pkey

variable {o : ByteOrder} {P : Type} [DecidableEq P]

structure Gid where
  subnetPrefix : UInt64
  interfaceId : UInt64
  deriving DecidableEq

/-- The members of `ib_mad_notice_attr_t` that are compared, as numbers of the host. -/
structure Notice where
  genericType : UInt8
  /-- `prod_type_msb` or `vend_id_msb`. -/
  msb : UInt8
  /-- `prod_type_lsb` or `vend_id_lsb`. -/
  lsb : UInt16
  /-- `trap_num` or `dev_id`. -/
  num : UInt16
  issuerLid : UInt16
  issuerGid : Gid
  /-- The GID in the data details of the traps 64 to 67. -/
  detailsGid : Gid
  deriving DecidableEq

def Notice.isGeneric (ntc : Notice) : Bool := ntc.genericType &&& 0x80 ≠ 0

def Notice.type (ntc : Notice) : UInt8 := ntc.genericType &&& 0x7f

/-- `ib_notice_get_prod_type` and `ib_notice_get_vend_id`, which read the same bytes. -/
def typeOrVendor (msb : UInt8) (lsb : UInt16) : UInt32 := lsb.toUInt32 ||| msb.toUInt32 <<< 16

structure InformInfo where
  gid : Gid
  lidRangeBegin : UInt16
  lidRangeEnd : UInt16
  isGeneric : UInt8
  trapType : UInt16
  /-- `trap_num` or `dev_id`. -/
  num : UInt16
  /-- `node_type_msb` or `vendor_id_msb`. -/
  msb : UInt8
  /-- `node_type_lsb` or `vendor_id_lsb`. -/
  lsb : UInt16
  deriving DecidableEq

structure Infr where
  info : InformInfo
  /-- `dest_lid` of the address that reports go to. -/
  destLid : UInt16
  deriving DecidableEq

/-- The subnet's look-ups; a port is given by its physical port. -/
structure Subn (o : ByteOrder) (P : Type) where
  portByLid : UInt16 → Option P
  portByGuid : UInt64 → Option P
  mgrpByMgid : Gid → Option PKey
  allowBothPkeys : Bool
  pkeyTbl : P → PortTbl o allowBothPkeys

variable (S : Subn o P) (ntc : Notice)

inductive Access
  | permitted
  | denied
  /-- Denied, and the subscription goes to the list of those to be removed. -/
  | removed
  deriving DecidableEq

def sourceGid : Gid := if 64 ≤ ntc.num ∧ ntc.num ≤ 67 then ntc.detailsGid else ntc.issuerGid

def isAccessPermitted (infr : Infr) : Access :=
  match S.portByLid infr.destLid with
  | none => .denied
  | some dest =>
    if ntc.num = 66 ∨ ntc.num = 67 then
      match S.mgrpByMgid (sourceGid ntc) with
      | none => .denied
      | some pkey => if physpHasPkey S.pkeyTbl pkey dest then .permitted else .denied
    else
      match S.portByGuid (sourceGid ntc).interfaceId with
      | none => .denied
      | some src =>
        if physpSharePkey S.pkeyTbl src dest then .permitted
        else if infr.info.lidRangeBegin ≠ 0xFFFF then .removed else .denied

/-- The comparisons of `match_notice_to_inf_rec`. -/
def matchNotice (ii : InformInfo) : Bool :=
  (if ii.gid.subnetPrefix ≠ 0 ∨ ii.gid.interfaceId ≠ 0 then ii.gid == ntc.issuerGid
    else if ii.lidRangeBegin ≠ 0xFFFF then !(ii.lidRangeBegin > ntc.issuerLid || ntc.issuerLid > ii.lidRangeEnd)
    else true) &&
  !((ii.isGeneric != 0 && !ntc.isGeneric) || (ii.isGeneric == 0 && ntc.isGeneric)) &&
  !(ii.trapType != 0xFFFF && ii.trapType != ntc.type.toUInt16) &&
  if ii.isGeneric ≠ 0 then
    !(ii.num != 0xFFFF && ii.num != ntc.num) &&
    !(typeOrVendor ii.msb ii.lsb != 0xFFFFFF && typeOrVendor ii.msb ii.lsb != typeOrVendor ntc.msb ntc.lsb)
  else
    !(ii.num != 0xFFFF && ii.num != ntc.num) &&
    !(typeOrVendor ii.msb ii.lsb != 0xFFFFFF && typeOrVendor ii.msb ii.lsb != typeOrVendor ntc.msb ntc.lsb)

/-- The reports sent so far, and `p_remove_infr_list`. -/
structure MatchCtxt where
  sent : List Infr
  toRemove : List Infr

def matchNoticeToInfRec (ctx : MatchCtxt) (infr : Infr) : MatchCtxt :=
  if matchNotice ntc infr.info then
    match isAccessPermitted S ntc infr with
    | .permitted => { ctx with sent := ctx.sent ++ [infr] }
    | .denied => ctx
    | .removed => { ctx with toRemove := ctx.toRemove ++ [infr] }
  else ctx

/-- The subscriptions that get a report, and those that are left. Two equal ones in the list are dealt with
alike. -/
def reportNotice (infrList : List Infr) : List Infr × List Infr :=
  let ctx := infrList.foldl (matchNoticeToInfRec S ntc) ⟨[], []⟩
  (ctx.sent, ctx.toRemove.foldl List.erase infrList)

/-- A notice with the subnet as it is at the time. -/
structure Call (o : ByteOrder) (P : Type) where
  subn : Subn o P
  ntc : Notice

/-- Every call of a sequence has a property, with the list that it finds. -/
def Throughout (prop : Call o P → List Infr → Prop) (infrList : List Infr) : List (Call o P) → Prop
  | [] => True
  | c :: calls => prop c infrList ∧ Throughout prop (reportNotice c.subn c.ntc infrList).2 calls

section Claim

/-- The matching rules of the comment in `match_notice_to_inf_rec`. -/
structure Matches (ii : InformInfo) : Prop where
  gid : ii.gid ≠ ⟨0, 0⟩ → ii.gid = ntc.issuerGid
  lidRange : ii.gid = ⟨0, 0⟩ → ii.lidRangeBegin ≠ 0xFFFF →
    ii.lidRangeBegin ≤ ntc.issuerLid ∧ ntc.issuerLid ≤ ii.lidRangeEnd
  isGeneric : ii.isGeneric ≠ 0 ↔ ntc.isGeneric = true
  trapType : ii.trapType ≠ 0xFFFF → ii.trapType = ntc.type.toUInt16
  num : ii.num ≠ 0xFFFF → ii.num = ntc.num
  producer : typeOrVendor ii.msb ii.lsb ≠ 0xFFFFFF → typeOrVendor ii.msb ii.lsb = typeOrVendor ntc.msb ntc.lsb

def InGroup (gid : Gid) (dest : P) : Prop := ∃ pkey, S.mgrpByMgid gid = some pkey ∧ HasPkey S.pkeyTbl pkey dest

def Shares (gid : Gid) (dest : P) : Prop := ∃ src, S.portByGuid gid.interfaceId = some src ∧
    SharePkey S.pkeyTbl src dest

def Fails (gid : Gid) (dest : P) : Prop := ∃ src, S.portByGuid gid.interfaceId = some src ∧
    ¬ SharePkey S.pkeyTbl src dest

def OfGroup : Prop := ntc.isGeneric = true ∧ (ntc.num = 66 ∨ ntc.num = 67)

def OfPort : Prop := ntc.isGeneric = true ∧ (ntc.num = 64 ∨ ntc.num = 65)

instance : Decidable (OfGroup ntc) := inferInstanceAs (Decidable (_ ∧ _))

instance : Decidable (OfPort ntc) := inferInstanceAs (Decidable (_ ∧ _))

def portGid : Gid := if OfPort ntc then ntc.detailsGid else ntc.issuerGid

def Entitled (infr : Infr) : Prop := ∃ dest, S.portByLid infr.destLid = some dest ∧
  if OfGroup ntc then InGroup S ntc.detailsGid dest else Shares S (portGid ntc) dest

/-- The test between two ports failed for a subscription that gives a LID range. -/
def Ends (infr : Infr) : Prop := ∃ dest, S.portByLid infr.destLid = some dest ∧
  ¬ OfGroup ntc ∧ Fails S (portGid ntc) dest ∧ infr.info.lidRangeBegin ≠ 0xFFFF

open scoped Classical in
/-- One report for each subscription that matches and is entitled; the failed ones are gone, the others in
order. -/
noncomputable def Exact (c : Call o P) (infrList : List Infr) : Prop :=
  (reportNotice c.subn c.ntc infrList).1.Perm
      (infrList.filter fun s => Matches c.ntc s.info ∧ Entitled c.subn c.ntc s) ∧
    (reportNotice c.subn c.ntc infrList).2 = infrList.filter fun s => ¬ (Matches c.ntc s.info ∧
        Ends c.subn c.ntc s)

/-- The look-up of the group's P_Key in the subscriber's table misses the full form. -/
def Overlooked (gid : Gid) (dest : P) : Prop :=
  ∃ pkey, S.mgrpByMgid gid = some pkey ∧ FullOnly S.pkeyTbl pkey dest

/-- What the trap number decides for a subscriber port does not depend on the kind of the notice, and no key is
overlooked. -/
def Agrees (infr : Infr) (dest : P) : Prop :=
  if ntc.isGeneric then OfGroup ntc → ¬ Overlooked S ntc.detailsGid dest
  else
    (ntc.num = 64 ∨ ntc.num = 65 → (Shares S ntc.detailsGid dest ↔ Shares S ntc.issuerGid dest) ∧
      (infr.info.lidRangeBegin ≠ 0xFFFF → (Fails S ntc.detailsGid dest ↔ Fails S ntc.issuerGid dest))) ∧
    (ntc.num = 66 ∨ ntc.num = 67 →
      (InGroup S ntc.detailsGid dest ∧ ¬ Overlooked S ntc.detailsGid dest ↔ Shares S ntc.issuerGid dest) ∧
      (infr.info.lidRangeBegin ≠ 0xFFFF → ¬ Fails S ntc.issuerGid dest))

/-- The matching subscriptions get the answer of the rule for the notice. -/
def AllAgree (c : Call o P) (infrList : List Infr) : Prop :=
  ∀ infr ∈ infrList, Matches c.ntc infr.info → ∀ dest, c.subn.portByLid infr.destLid = some dest →
    Agrees c.subn c.ntc infr dest

end Claim

end OpenSM.Inform
