import OpenSM.McMemberRecord
import OpenSM.Lib.CString

/-! Partitions and their tables: `osm_prtn.c`. -/

namespace OpenSM.Partition

open Lib Lib.CString Multicast
open McMember (Sa CompMask mcmrRcvCreateNewMgrp osmMgrpCleanup mcScopeLinkLocal pathSelectorExactly)

inductive NodeType
  | ca | switch | router
deriving DecidableEq

/-- A group in memory: a group that is freed and made again under its MGID is another one. -/
abbrev MgrpRef := Mgid × ℕ

structure Prtn where
  pkey : ℕ
  name : Str
  sl : ℕ
  fullGuidTbl : Qmap Guid Unit
  partGuidTbl : Qmap Guid Unit
  mgrps : List MgrpRef

/-- The options and the fabric of a run. GUIDs are numbers in the order of the maps, and P_Keys in that of
the host. -/
structure Env where
  mc : McMember.Env
  ports : Qmap Guid NodeType
  smPortGuid : Guid
  smPort : ∃ t, ports.get smPortGuid = some t
  allowBothPkeys : Bool
  qos : Bool
  subnetTimeout : ℕ
  hton16 : ℕ → ℕ
  hton16_inj : ∀ a b, a < 2 ^ 16 → b < 2 ^ 16 → hton16 a = hton16 b → a = b

/-- What the partition manager keeps: `prtn_pkey_tbl`, the index 0 P_Key in the port of each GUID, and the
multicast groups, with the serial number of each group that is there. -/
structure Subn where
  prtnPkeyTbl : Qmap ℕ Prtn
  globalPkeyCounter : ℕ
  indx0Pkey : Guid → ℕ
  sa : Sa
  serial : Mgid → ℕ
  nextSerial : ℕ

def defaultPartialPkey : ℕ := 0x7FFF
def defaultSl : ℕ := 0
def defaultMgrpMtu : ℕ := 4
def defaultMgrpRate : ℕ := 3
def hoplimitMax : ℕ := 255
def ipoibBroadcastMgrpQkey : ℕ := 0x0B1B
def ipoibBroadcastMgid : Mgid := 0xFF12401BFFFF000000000000FFFFFFFF

def pkeyGetBase (pkey : ℕ) : ℕ := pkey % 2 ^ 15

def fullPkey (pkey : ℕ) : ℕ := pkeyGetBase pkey + 2 ^ 15

section Groups

/-- The tables after a request, in which a group that was not there is a new one. -/
def putSa (s : Subn) (sa : Sa) : Subn :=
  { s with
    sa := sa
    serial := fun m =>
      if (s.sa.subn.mgrpMgidTbl.get m).isNone ∧ (sa.subn.mgrpMgidTbl.get m).isSome then s.nextSerial
      else s.serial m
    nextSerial := s.nextSerial + 1 }

def derefMgrp (s : Subn) (r : MgrpRef) : Option Mgrp :=
  if s.serial r.1 = r.2 then s.sa.subn.mgrpMgidTbl.get r.1 else none

def setWellKnown (s : Subn) (m : Mgid) (b : Bool) : Subn :=
  { s with sa := { s.sa with subn := { s.sa.subn with
    mgrpMgidTbl := s.sa.subn.mgrpMgidTbl.modify m fun g => { g with wellKnown := b } } } }

def mgrpCleanup (s : Subn) (m : Mgid) : Subn := { s with sa := osmMgrpCleanup s.sa m }

/-- The loop of `osm_prtn_delete`; there is no result when it follows a pointer to a freed group. -/
def releaseMgrps : Subn → List MgrpRef → Option Subn
  | s, [] => some s
  | s, r :: rs =>
    match derefMgrp s r with
    | none => none
    | some _ => releaseMgrps (mgrpCleanup (setWellKnown s r.1 false) r.1) rs

end Groups

section Tables

variable (env : Env)

def getPrtn (s : Subn) (pkey : ℕ) : Option Prtn := s.prtnPkeyTbl.get (env.hton16 pkey)

def modifyPrtn (s : Subn) (pkey : ℕ) (f : Prtn → Prtn) : Subn :=
  { s with prtnPkeyTbl := s.prtnPkeyTbl.modify (env.hton16 pkey) f }

def prtnNew (name : Option Str) (pkey : ℕ) : Prtn where
  pkey := pkey
  name := if (name.getD []) ≠ [] then (name.getD []).take 31 else printNat 16 4 pkey
  sl := defaultSl
  fullGuidTbl := ∅
  partGuidTbl := ∅
  mgrps := []

def prtnDelete (s : Subn) (p : Prtn) : Option Subn :=
  releaseMgrps { s with prtnPkeyTbl := s.prtnPkeyTbl.remove (env.hton16 p.pkey) } p.mgrps

/-- The port goes out of the tables, `allow_both_pkeys` or not, and into one of them. -/
def putPort (guid : Guid) (full : Bool) (p : Prtn) : Prtn :=
  let part := if env.allowBothPkeys ∧ full then p.partGuidTbl else p.partGuidTbl.remove guid
  let fulls := if env.allowBothPkeys ∧ !full then p.fullGuidTbl else p.fullGuidTbl.remove guid
  if full then { p with partGuidTbl := part, fullGuidTbl := fulls.insert guid () }
  else { p with partGuidTbl := part.insert guid (), fullGuidTbl := fulls }

def indx0After (pkey : ℕ) (full indx0 : Bool) (old : ℕ) : ℕ :=
  if indx0 then if full then fullPkey pkey else pkey
  else if pkeyGetBase old = pkeyGetBase pkey then 0 else old

def osmPrtnAddPort (s : Subn) (pkey : ℕ) (guid : Guid) (full indx0 : Bool) : Subn :=
  match env.ports.get guid with
  | none => s
  | some _ =>
    let s :=
      { s with indx0Pkey := Function.update s.indx0Pkey guid (indx0After pkey full indx0 (s.indx0Pkey guid)) }
    modifyPrtn env s pkey (putPort env guid full)

def isOfType (type : Option NodeType) (t : NodeType) : Bool := type.elim true (· = t)

def osmPrtnAddAll (s : Subn) (pkey : ℕ) (type : Option NodeType) (full indx0 : Bool) : Subn :=
  env.ports.entries.foldl (fun s e => if isOfType type e.2 then osmPrtnAddPort env s pkey e.1 full indx0 else s) s

def generateLoop (tbl : Qmap ℕ Prtn) : ℕ → ℕ → ℕ × Option ℕ
  | 0, counter => (counter, none)
  | fuel + 1, counter =>
    if (tbl.get (env.hton16 (counter + 1))).isNone then (counter + 1, some (counter + 1))
    else generateLoop tbl fuel (counter + 1)

def generatePkey (s : Subn) : ℕ × Option ℕ :=
  generateLoop env s.prtnPkeyTbl (defaultPartialPkey - 1 - s.globalPkeyCounter) s.globalPkeyCounter

def strncmpEq (n : ℕ) (a b : Str) : Bool := a.take n = b.take n

def osmPrtnFindByName (s : Subn) (name : Str) : Option Prtn :=
  (s.prtnPkeyTbl.entries.find? fun e => strncmpEq 32 e.2.name name).map Prod.snd

def insertPrtn (s : Subn) (p : Prtn) : Subn :=
  { s with prtnPkeyTbl := s.prtnPkeyTbl.insert (env.hton16 p.pkey) p }

/-- The P_Key of the partition, which a definition with a P_Key of its own may share. -/
def osmPrtnMakeNew (s : Subn) (name : Option Str) (pkey : ℕ) : Option (Subn × ℕ) :=
  let pkey := pkeyGetBase pkey
  if pkey = 0 then
    match name.bind (osmPrtnFindByName s) with
    | some p => some (s, p.pkey)
    | none =>
      match generatePkey env s with
      | (_, none) => none
      | (counter, some pkey) =>
        some (insertPrtn env { s with globalPkeyCounter := counter } (prtnNew name pkey), pkey)
  else some (insertPrtn env s (prtnNew name pkey), pkey)

end Tables

section Mcgroups

variable (env : Env)

structure GroupFlags where
  mtu : ℕ
  rate : ℕ
  sl : ℕ
  scopeMask : ℕ
  qkey : ℕ
  tclass : ℕ
  flowLabel : ℕ

def mgidSetScope (m : Mgid) (scope : ℕ) : Mgid := m / 2 ^ 116 * 2 ^ 116 + scope % 16 * 2 ^ 112 + m % 2 ^ 112

def mgidSetPkey (m : Mgid) (pkey : ℕ) : Mgid := m / 2 ^ 96 * 2 ^ 96 + pkey % 2 ^ 16 * 2 ^ 80 + m % 2 ^ 80

def mgidPkey (m : Mgid) : ℕ := m / 2 ^ 80 % 2 ^ 16

/-- The record that `osm_prtn_add_mcgroup` asks for. -/
def mcRec (pkey : ℕ) (f : GroupFlags) (scope : ℕ) (m : Mgid) : MemberRec where
  mgid := mgidSetScope m scope
  portGid := ⟨0, 0⟩
  qkey := f.qkey % 2 ^ 32
  mlid := 0
  mtu := f.mtu % 256 ||| pathSelectorExactly * 64
  tclass := f.tclass % 256
  pkey := fullPkey pkey
  rate := f.rate % 256 ||| pathSelectorExactly * 64
  pktLife := env.subnetTimeout % 256
  slFlowHop := f.sl % 16 * 2 ^ 28 + f.flowLabel % 2 ^ 20 * 2 ^
      8 + if scope = mcScopeLinkLocal then 0 else hoplimitMax
  scopeState := ⟨BitVec.ofNat 4 scope, joinFull⟩
  proxyJoin := false

def mcCompMask : CompMask
  | .mtu | .mtuSel | .rate | .rateSel => true
  | _ => false

def findOrCreateNewMgrp (s : Subn) (r : MemberRec) : Subn × Option Mgid :=
  match s.sa.subn.mgrpMgidTbl.get r.mgid with
  | some _ => (s, some r.mgid)
  | none =>
    let c := mcmrRcvCreateNewMgrp env.mc s.sa mcCompMask r none
    (putSa s c.1, c.2)

def trackMgrpWPartition (s : Subn) (p : Prtn) (m : Mgid) : Subn :=
  if (m, s.serial m) ∈ p.mgrps then s
  else setWellKnown (modifyPrtn env s p.pkey fun p => { p with mgrps := p.mgrps ++ [(m, s.serial m)] }) m true

def scopeOr (scope : ℕ) : ℕ := if scope = 0 then mcScopeLinkLocal else scope

def osmPrtnAddMcgroup (s : Subn) (pkey : ℕ) (f : GroupFlags) (scope : ℕ) (mgid : Mgid) : Subn :=
  match findOrCreateNewMgrp env s (mcRec env pkey f (scopeOr scope) mgid) with
  | (s, none) => s
  | (s, some m) => (getPrtn env s pkey).elim s fun p => trackMgrpWPartition env s p m

end Mcgroups

end OpenSM.Partition
