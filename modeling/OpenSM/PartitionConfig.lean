import OpenSM.Partition

/-! What the partition configuration asks for, from `osm_prtn_config.c`, and `osm_prtn_make_partitions`. -/

namespace OpenSM.Partition

open Lib Lib.CString Multicast
open McMember (rawByte ipoibSigned)

inductive Membership
  | limited | full | both
deriving DecidableEq

/-- What `parse_name_token` finds: the text up to `=`, and the text behind it. -/
structure Token where
  name : Str
  val : Option Str
deriving DecidableEq

def abbreviates (s : Str) (word : String) : Bool := s.isPrefixOf word.toList

structure PartConf where
  prtn : Option ℕ
  isIpoib : Bool
  flags : GroupFlags
  membership : Membership
  indx0 : Bool

def newPartConf : PartConf where
  prtn := none
  isIpoib := false
  flags := ⟨defaultMgrpMtu, defaultMgrpRate, defaultSl, 0, 0, 0, 0⟩
  membership := .limited
  indx0 := false

section Flags

def boundedVal (max : ℕ) (val : Option Str) : Option ℕ :=
  val.bind fun v =>
    let n := strtoull v
    if v = [] ∨ max < n.1 % 2 ^ 32 ∨ n.2.head?.any (!isSpace ·) then none else some (n.1 % 2 ^ 32)

def parseGroupFlag (f : GroupFlags) (t : Token) : Option GroupFlags :=
  let val := t.val.map fun v => (strtoull v).1
  if abbreviates t.name "mtu" then some { f with mtu := val.elim f.mtu (· % 2 ^ 32) }
  else if abbreviates t.name "rate" then some { f with rate := val.elim f.rate (· % 2 ^ 32) }
  else if abbreviates t.name "scope" then
    let scope := val.elim 0 (· % 2 ^ 32)
    some (if scope = 0 ∨ 15 < scope then f else { f with scopeMask := f.scopeMask ||| 2 ^ scope })
  else if abbreviates t.name "Q_Key" then some { f with qkey := val.elim f.qkey (· % 2 ^ 32) }
  else if abbreviates t.name "TClass" then some { f with tclass := val.elim f.tclass (· % 2 ^ 8) }
  else if abbreviates t.name "sl" then some { f with sl := (boundedVal 15 t.val).getD f.sl }
  else if abbreviates t.name "FlowLabel" then
    some { f with flowLabel := (boundedVal 0xFFFFF t.val).getD f.flowLabel }
  else none

def memberVal (val : Str) : Option Membership :=
  if abbreviates val "full" then some .full
  else if abbreviates val "both" then some .both
  else if abbreviates val "limited" then some .limited
  else none

def partitionAddFlag (conf : PartConf) (t : Token) : PartConf :=
  match parseGroupFlag conf.flags t with
  | some f => { conf with flags := f }
  | none =>
    if abbreviates t.name "ipoib" then { conf with isIpoib := true }
    else if abbreviates t.name "defmember" then
      { conf with membership := (t.val.bind memberVal).getD conf.membership }
    else if t.name = "indx0".toList then { conf with indx0 := true }
    else conf

lemma prtn_partitionAddFlag (conf : PartConf) (t : Token) : (partitionAddFlag conf t).prtn = conf.prtn := by
  simp only [partitionAddFlag]
  cases parseGroupFlag conf.flags t with
  | some f => rfl
  | none => split_ifs <;> rfl

end Flags

section Inet

def hexGroup (s : Str) : Option (List ℕ) :=
  if s ≠ [] ∧ s.length ≤ 4 ∧ s.all (digitVal · < 16) then some [readNat 16 s] else none

def octet (s : Str) : Option ℕ :=
  if s ≠ [] ∧ s.length ≤ 3 ∧ s.all (digitVal · < 10) ∧ (s.head? = some '0' → s.length = 1) ∧ readNat 10 s < 256
  then some (readNat 10 s) else none

def dottedQuad (s : Str) : Option (List ℕ) :=
  match (s.splitOn '.').mapM octet with
  | some [a, b, c, d] => some [a * 256 + b, c * 256 + d]
  | _ => none

/-- The groups of 16 bits between single colons; the last of them all may be an IPv4 address. -/
def inetGroups (last : Bool) (s : Str) : Option (List ℕ) :=
  if s = [] then some []
  else
    let parts := s.splitOn ':'
    match parts.dropLast.mapM hexGroup,
      parts.getLast?.bind fun p => (hexGroup p).or (if last then dottedQuad p else none) with
    | some gs, some g => some (gs.flatten ++ g)
    | _, _ => none

def cutDouble : Str → Option (Str × Str)
  | ':' :: ':' :: s => some ([], s)
  | c :: s => (cutDouble s).map fun p => (c :: p.1, p.2)
  | [] => none

def ofGroups (gs : List ℕ) : ℕ := gs.foldl (fun a g => a * 2 ^ 16 + g) 0

/-- `inet_pton` for IPv6. -/
def inetPton (s : Str) : Option Mgid :=
  match cutDouble s with
  | none => (inetGroups true s).bind fun gs => if gs.length = 8 then some (ofGroups gs) else none
  | some (a, b) =>
    match inetGroups false a, inetGroups true b with
    | some ga, some gb =>
      if ga.length + gb.length < 8 then some (ofGroups (ga ++ List.replicate (8 - ga.length - gb.length) 0 ++ gb))
      else none
    | _, _ => none

end Inet

variable (env : Env)

section Definitions

def scopes (f : GroupFlags) : List ℕ :=
  if f.scopeMask = 0 then [0] else (List.range 16).filter fun scope => f.scopeMask.testBit scope

def createMgrp (s : Subn) (pkey : ℕ) (f : GroupFlags) (m : Mgid) : Subn :=
  (scopes f).foldl (fun s scope => osmPrtnAddMcgroup env s pkey f scope m) s

/-- A definition without `=` whose name starts with a digit has a P_Key and no name. -/
def nameIsId (t : Token) : Bool := t.val = none ∧ t.name.head?.any (fun c => '0' ≤ c ∧ c ≤ '9')

def idText (t : Token) : Option Str := if nameIsId t then some t.name else t.val

def nameText (t : Token) : Option Str := if nameIsId t then none else some t.name

def readPkey (id : Str) : Option ℕ :=
  let n := strtoull id
  if n.2 = id ∨ n.2 ≠ [] then none else some (n.1 % 2 ^ 16)

def partitionPkey (t : Token) : Option ℕ := (idText t).elim (some 0) readPkey

/-- The partition that a definition states, or 0 when `osm_prtn_make_new` has to choose it. -/
def usesPkey (t : Token) : ℕ := pkeyGetBase ((partitionPkey t).getD 0)

def broadcastFlags (f : GroupFlags) : GroupFlags :=
  { f with scopeMask := 0, qkey := if f.qkey ≠ 0 then f.qkey else ipoibBroadcastMgrpQkey }

def partitionCreate (s : Subn) (conf : PartConf) (t : Token) : Option (Subn × PartConf) :=
  match (partitionPkey t).bind (osmPrtnMakeNew env s (nameText t)) with
  | none => none
  | some (s, pkey) =>
    let flags := if env.qos then conf.flags else { conf.flags with sl := defaultSl }
    let s := modifyPrtn env s pkey fun p => { p with sl := flags.sl % 256 }
    let s := if conf.isIpoib then
        createMgrp env s pkey (broadcastFlags flags) (mgidSetPkey ipoibBroadcastMgid (fullPkey pkey))
      else s
    some (s, { conf with prtn := some pkey, flags := flags })

inductive Target
  | all (type : Option NodeType)
  | guid (guid : Guid)
deriving DecidableEq

def toTarget (name : Str) : Option Target :=
  if abbreviates name "ALL" then some (.all none)
  else if abbreviates name "ALL_CAS" then some (.all (some .ca))
  else if abbreviates name "ALL_SWITCHES" then some (.all (some .switch))
  else if abbreviates name "ALL_ROUTERS" then some (.all (some .router))
  else if abbreviates name "SELF" then some (.guid env.smPortGuid)
  else
    let n := strtoull name
    if n.1 = 0 ∨ n.2 ≠ [] then none else some (.guid (env.mc.ntoh64 n.1))

def portMembership (conf : PartConf) (flag : Option Str) : Membership :=
  match flag with
  | none => conf.membership
  | some f => (memberVal f).getD .limited

def leaveTbl (target : Target) (tbl : Qmap Guid Unit) : Qmap Guid Unit :=
  match target with
  | .all none => ∅
  | .all (some t) => tbl.filter fun guid => env.ports.get guid ≠ some t
  | .guid guid => tbl.remove guid

def manageMembershipChange (target : Target) (membership : Membership) (p : Prtn) : Prtn :=
  if !env.allowBothPkeys ∨ membership = .both then p
  else if membership = .limited then { p with fullGuidTbl := leaveTbl env target p.fullGuidTbl }
  else { p with partGuidTbl := leaveTbl env target p.partGuidTbl }

def addTarget (s : Subn) (pkey : ℕ) (full indx0 : Bool) : Target → Subn
  | .all type => osmPrtnAddAll env s pkey type full indx0
  | .guid guid => osmPrtnAddPort env s pkey guid full indx0

def addMembership (s : Subn) (pkey : ℕ) (target : Target) (membership : Membership) (indx0 : Bool) : Subn :=
  let s := modifyPrtn env s pkey (manageMembershipChange env target membership)
  let s := if membership ≠ .limited then addTarget env s pkey true indx0 target else s
  if membership = .limited ∨ (membership = .both ∧ env.allowBothPkeys) then addTarget env s pkey false indx0 target
  else s

def partitionAddPort (s : Subn) (conf : PartConf) (pkey : ℕ) (t : Token) : Option Subn :=
  if abbreviates t.name "NONE" then some s
  else (toTarget env t.name).map fun target =>
    addMembership env s pkey target (portMembership conf t.val) conf.indx0

def mgidIsBroadcast (m : Mgid) : Bool := m = ipoibBroadcastMgid

def ipMgroupOk (conf : PartConf) (pkey : ℕ) (f : GroupFlags) (m : Mgid) : Bool :=
  (mgidIsBroadcast m ∨ mgidPkey m = 0 ∨ mgidPkey m = fullPkey pkey) ∧ f.rate = conf.flags.rate ∧
      f.mtu = conf.flags.mtu

def mgroupFlags (conf : PartConf) (flags : List Token) : GroupFlags :=
  flags.foldl (fun f t => (parseGroupFlag f t).getD f) { conf.flags with tclass := 0 }

def mgroupRequest (conf : PartConf) (pkey : ℕ) (mgid : Str) (flags : List Token) : Option (Mgid × GroupFlags) :=
  (inetPton mgid).bind fun m =>
    if rawByte m 0 ≠ 0xFF then none
    else
      let f := mgroupFlags conf flags
      if ipoibSigned m then
        if ipMgroupOk conf pkey f m then
          some (mgidSetPkey m (fullPkey pkey),
              { f with qkey := if f.qkey = 0 then ipoibBroadcastMgrpQkey else f.qkey })
        else none
      else some (m, f)

def mgroupCreate (s : Subn) (conf : PartConf) (pkey : ℕ) (mgid : Str) (flags : List Token) : Subn :=
  match mgroupRequest conf pkey mgid flags with
  | none => s
  | some (m, f) =>
    match s.sa.subn.mgrpMgidTbl.get m with
    | some _ => s
    | none => createMgrp env s pkey f m

end Definitions

section Files

inductive Entry
  | port (t : Token)
  | mgid (val : Str) (flags : List Token)

inductive Event
  | flag (t : Token)
  | create (t : Token)
  | entry (e : Entry)
  | flush

/-- A partition definition with its flags, and its properties. -/
structure PartDef where
  head : Token
  flags : List Token
  entries : List Entry

def PartDef.events (d : PartDef) : List Event :=
  d.flags.map Event.flag ++ Event.create d.head :: d.entries.map Event.entry ++ [Event.flush]

def fileEvents (defs : List PartDef) : List Event := defs.flatMap PartDef.events

structure Parsing where
  subn : Subn
  conf : PartConf

def actEntry (c : Parsing) (pkey : ℕ) : Entry → Option Parsing
  | .port t => (partitionAddPort env c.subn c.conf pkey t).map fun s => { c with subn := s }
  | .mgid val flags => some { c with subn := mgroupCreate env c.subn c.conf pkey val flags }

def act (c : Parsing) : Event → Option Parsing
  | .flag t => some { c with conf := partitionAddFlag c.conf t }
  | .create t => (partitionCreate env c.subn c.conf t).map fun p => ⟨p.1, p.2⟩
  | .entry e => c.conf.prtn.bind fun pkey => actEntry env c pkey e
  | .flush => some { c with conf := newPartConf }

def actAll : Parsing → List Event → Parsing × Bool
  | c, [] => (c, true)
  | c, e :: es =>
    match act env c e with
    | none => (c, false)
    | some c => actAll c es

def osmPrtnConfigParseFile (s : Subn) (events : List Event) : Subn × Bool :=
  let r := actAll env ⟨s, newPartConf⟩ events
  (r.1.subn, r.2 && !events.isEmpty)

def clearPortMaps (s : Subn) : Subn :=
  { s with
    prtnPkeyTbl := s.prtnPkeyTbl.map fun p => { p with fullGuidTbl := ∅, partGuidTbl := ∅ }
    globalPkeyCounter := 0 }

def defaultMcgroup (s : Subn) (pkey : ℕ) : Subn :=
  osmPrtnAddMcgroup env s pkey ⟨defaultMgrpMtu, defaultMgrpRate, defaultSl, 0, ipoibBroadcastMgrpQkey, 0, 0⟩ 0
    ipoibBroadcastMgid

def prtnMakeDefault (s : Subn) (noConfig : Bool) : Subn :=
  match osmPrtnMakeNew env s (some "Default".toList) defaultPartialPkey with
  | none => s
  | some (s, pkey) =>
    let s := osmPrtnAddAll env s pkey none noConfig false
    let s := modifyPrtn env s pkey fun p => { p with partGuidTbl := p.partGuidTbl.remove env.smPortGuid }
    let s := osmPrtnAddPort env s pkey env.smPortGuid true false
    if noConfig then defaultMcgroup env s pkey else s

def Prtn.isEmpty (p : Prtn) : Bool := p.partGuidTbl.entries.isEmpty && p.fullGuidTbl.entries.isEmpty

def cleanUpEmpty (s : Subn) : Option Subn :=
  s.prtnPkeyTbl.entries.foldlM (fun s e => if e.2.isEmpty then prtnDelete env s e.2 else some s) s

def retryDefault (s : Subn) : Option Subn := cleanUpEmpty env (prtnMakeDefault env (clearPortMaps s) true)

/-- Without a file that can be read there is only the default partition. There is no result when a group is
used that is not there any more. -/
def osmPrtnMakePartitions (s : Subn) : Option (List Event) → Option Subn
  | none => retryDefault env s
  | some events =>
    let r := osmPrtnConfigParseFile env (prtnMakeDefault env (clearPortMaps s) false) events
    (cleanUpEmpty env r.1).bind fun s => if r.2 then some s else retryDefault env s

end Files

def Subn.init (uniq : ℕ) : Subn where
  prtnPkeyTbl := ∅
  globalPkeyCounter := 0
  indx0Pkey _ := 0
  sa := McMember.Sa.init uniq
  serial _ := 0
  nextSerial := 0

/-- A fabric with one CA port, that of the SM, on a host with the byte order of the wire. -/
def oneCa : Env where
  mc :=
    { subnetPrefix := McMember.defaultSubnetPrefix
      ipoibMcgroupCreationValidation := true
      mcgroupJoinValidation := true
      consolidateIpv6SnmReq := false
      maxRateEnum := McMember.saRateMaxEnum
      maxMcastLidHo := 0xC0FF
      minCaMtu := 4
      minCaRate := 3
      portByAliasGuid := fun guid => if guid = 1 then some 1 else none
      neighborMtu := fun _ => 4
      portInfo := fun _ => ⟨4, 2, 0x11, 0, false, false, false, false, false⟩
      hasPkey := fun _ _ => true
      sharePkey := fun _ _ => true
      ntoh32 := id
      ntoh64 := id
      mcastLid := by decide
      ntoh64_lt := fun _ h => h
      ntoh64_ntoh64 := fun _ _ => rfl }
  ports := (∅ : Qmap Guid NodeType).insert 1 .ca
  smPortGuid := 1
  smPort := ⟨.ca, rfl⟩
  allowBothPkeys := false
  qos := false
  subnetTimeout := 18
  hton16 := id
  hton16_inj := fun _ _ _ _ h => h

end OpenSM.Partition
