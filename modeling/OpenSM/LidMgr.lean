import Mathlib

/-! The LID manager: the persistent guid2lid database, the scan for free LID ranges at the start of a
sweep and the assignment of a LID range to each port. -/

namespace OpenSM.LidMgr

/-- `IB_LID_UCAST_END_HO`, also the last index of `used_lids` and the last LID that is scanned. -/
def ucastEnd : ℕ := 0xBFFF

structure Port where
  guid : ℕ
  baseLid : ℕ
  lmc : ℕ
  /-- False only for port 0 of a switch that does not take the subnet's LMC. -/
  lmcCapable : Bool
  deriving DecidableEq

structure Opts where
  lmc : ℕ
  reassignLids : Bool
  firstTimeMasterSweep : Bool
  comingOutOfStandby : Bool
  honorGuid2lidFile : Bool
  maxUcastLidHo : ℕ

/-- The guid2lid database: a LID range for some of the GUIDs. -/
abbrev Db := ℕ → Option (ℕ × ℕ)

structure Mgr (k : ℕ) where
  g2l : Db
  usedLids : ℕ → Bool
  freeRanges : List (ℕ × ℕ)
  portLidTbl : ℕ → Option (Fin k)

def lidsFrom (minLid maxLid : ℕ) : List ℕ := List.range' minLid (maxLid + 1 - minLid)

def Opts.reassigning (o : Opts) : Bool := o.firstTimeMasterSweep && o.reassignLids

def trimLid (lid : ℕ) : ℕ := if ucastEnd < lid ∨ lid < 1 then 0 else lid

def Port.maxLid (p : Port) : ℕ := (p.baseLid + 2 ^ p.lmc - 1) % 2 ^ 16

def numLids (o : Opts) (p : Port) : ℕ := if p.lmcCapable then 2 ^ o.lmc else 1

def markUsed (used : ℕ → Bool) (minLid maxLid : ℕ) (b : Bool) : ℕ → Bool :=
  fun l => if minLid ≤ l ∧ l ≤ maxLid then b else used l

/-- One round of `lid_mgr_validate_db`. -/
def validateEntry (o : Opts) (st : Db × (ℕ → Bool)) (guid : ℕ) : Db × (ℕ → Bool) :=
  match st.1 guid with
  | none => st
  | some (minLid, maxLid) =>
    let bad := maxLid < minLid ∨ minLid = 0 ∨ guid = 0 ∨ o.maxUcastLidHo < maxLid ∨
      (minLid ≠ maxLid ∧ minLid % 2 ^ o.lmc ≠ 0) ∨ (lidsFrom minLid maxLid).any st.2
    if bad then (Function.update st.1 guid none, st.2)
    else (st.1, markUsed st.2 minLid (min maxLid (minLid + 2 ^ o.lmc - 1)) true)

def validateDb (o : Opts) (guids : List ℕ) (g2l : Db) : Db × (ℕ → Bool) :=
  guids.foldl (validateEntry o) (g2l, fun _ => false)

variable {k : ℕ} (o : Opts) (ports : Fin k → Port)

/-- The database a sweep starts from; `guids` and `file` are what `osm_db_restore` would read. -/
def sweepDb (guids : List ℕ) (file : Db) (st : Db × (ℕ → Bool)) : Db × (ℕ → Bool) :=
  if o.reassigning then (fun _ => none, fun _ => false)
  else if o.comingOutOfStandby then
    if o.honorGuid2lidFile then validateDb o guids file else (fun _ => none, fun _ => false)
  else st

/-- Marks a discovered port in `port_lid_tbl`. -/
def markDiscovered (tbl : ℕ → Option (Fin k)) (i : Fin k) : ℕ → Option (Fin k) :=
  let discMin := trimLid (ports i).baseLid
  let discMax := trimLid (ports i).maxLid
  fun l => if discMin ≤ l ∧ l ≤ discMax then (if l < discMin + 2 ^ o.lmc then some i else none)
    else tbl l

def cleanEntry (st : Db × (ℕ → Bool)) (i : Fin k) : Db × (ℕ → Bool) :=
  match st.1 (ports i).guid with
  | none => st
  | some (dbMin, dbMax) =>
    if numLids o (ports i) ≠ 1 ∧
        (dbMin % 2 ^ o.lmc ≠ 0 ∨ dbMax + 1 - dbMin < numLids o (ports i)) then
      (Function.update st.1 (ports i).guid none, markUsed st.2 dbMin dbMax false)
    else st

/-- The scan's verdict on a LID: `none` for a free one, otherwise the LID the scan goes on from. -/
def scanLid (g2l : Db) (used : ℕ → Bool) (tbl : ℕ → Option (Fin k)) (lid : ℕ) : Option ℕ :=
  if used lid then some lid
  else
    match tbl lid with
    | none => none
    | some i =>
      let p := ports i
      if g2l p.guid ≠ none then none
      else
        let discMax := if p.lmcCapable then p.baseLid + 2 ^ o.lmc - 1 else p.maxLid
        if numLids o p ≠ 1 ∧ p.baseLid % 2 ^ o.lmc ≠ 0 then none
        else if (lidsFrom (p.baseLid + 1) discMax).any fun l => l ≤ ucastEnd && used l then none
        else some (max lid discMax)

def scan (g2l : Db) (used : ℕ → Bool) (tbl : ℕ → Option (Fin k)) :
    ℕ → ℕ → Option (ℕ × ℕ) → List (ℕ × ℕ) → List (ℕ × ℕ)
  | 0, lid, range, ranges => ranges ++ [((range.map Prod.fst).getD lid, o.maxUcastLidHo)]
  | fuel + 1, lid, range, ranges =>
    if ucastEnd < lid then ranges ++ [((range.map Prod.fst).getD lid, o.maxUcastLidHo)]
    else
      match scanLid o ports g2l used tbl lid with
      | none => scan g2l used tbl fuel (lid + 1) (some ((range.map Prod.fst).getD lid, lid)) ranges
      | some last => scan g2l used tbl fuel (last + 1) none (ranges ++ range.toList)

def initSweep (guids : List ℕ) (file : Db) (st : Db × (ℕ → Bool)) : Mgr k :=
  let st := sweepDb o guids file st
  if o.reassigning then
    { g2l := st.1, usedLids := st.2, freeRanges := [(1, o.maxUcastLidHo)], portLidTbl := fun _ => none }
  else
    let tbl := (List.finRange k).foldl (markDiscovered o ports) fun _ => none
    let st := (List.finRange k).foldl (cleanEntry o ports) st
    { g2l := st.1
      usedLids := st.2
      freeRanges := scan o ports st.1 st.2 tbl (ucastEnd + 1) 1 none []
      portLidTbl := tbl }

def isRangeNotPersistent (used : ℕ → Bool) (lid num : ℕ) : Bool :=
  !(List.range' lid num).any used

/-- The first range with room for `num` LIDs, aligned when more than one is asked for. -/
def findFreeLidRange (num : ℕ) : List (ℕ × ℕ) → Option ((ℕ × ℕ) × List (ℕ × ℕ))
  | [] => none
  | r :: rs =>
    let lid := if 1 < num ∧ r.1 % 2 ^ o.lmc ≠ 0 then (r.1 + 2 ^ o.lmc) / 2 ^ o.lmc * 2 ^ o.lmc else r.1
    if lid + num - 1 ≤ r.2 then
      some ((lid, lid + num - 1), if lid + num - 1 = r.2 then rs else (lid + num, r.2) :: rs)
    else (findFreeLidRange num rs).map fun x => (x.1, r :: x.2)

def cleanupDiscovered (tbl : ℕ → Option (Fin k)) (i : Fin k) : ℕ → Option (Fin k) :=
  fun l => if trimLid (ports i).baseLid ≤ l ∧ l ≤ trimLid (ports i).maxLid ∧ tbl l = some i then none
    else tbl l

/-- `NewLidSet`: the range goes to the database, to `used_lids` and to `port_lid_tbl`. -/
def newLidSet (st : Mgr k) (i : Fin k) (range : ℕ × ℕ) : Mgr k :=
  { g2l := Function.update st.g2l (ports i).guid (some range)
    usedLids := markUsed st.usedLids range.1 range.2 true
    freeRanges := st.freeRanges
    portLidTbl := fun l => if range.1 ≤ l ∧ l ≤ range.2 then some i else st.portLidTbl l }

/-- The port has no database entry and may keep the LIDs it was discovered with. -/
def keepsLids (st : Mgr k) (i : Fin k) : Bool :=
  let p := ports i
  !o.reassigning && (st.g2l p.guid).isNone && p.baseLid ≠ 0 && p.baseLid % numLids o p = 0 &&
    isRangeNotPersistent st.usedLids p.baseLid (numLids o p)

def assignLid (st : Mgr k) (i : Fin k) : Mgr k × (ℕ × ℕ) × Bool :=
  let st := { st with portLidTbl := cleanupDiscovered ports st.portLidTbl i }
  match findFreeLidRange o (numLids o (ports i)) st.freeRanges with
  | some (range, free) => (newLidSet ports { st with freeRanges := free } i range, range, true)
  | none => (newLidSet ports st i (0, 0), (0, 0), true)

def getPortLid (st : Mgr k) (i : Fin k) : Mgr k × (ℕ × ℕ) × Bool :=
  let p := ports i
  let num := numLids o p
  if o.reassigning then assignLid o ports st i
  else
    match st.g2l p.guid with
    | some (minLid, _) =>
      let range := (minLid, minLid + num - 1)
      if minLid = p.baseLid then (newLidSet ports st i range, range, false)
      else
        let st := { st with portLidTbl := cleanupDiscovered ports st.portLidTbl i }
        (newLidSet ports st i range, range, true)
    | none =>
      if keepsLids o ports st i then
        let range := (p.baseLid, p.baseLid + num - 1)
        (newLidSet ports st i range, range, false)
      else assignLid o ports st i

def getPortLids : List (Fin k) → Mgr k → List (Fin k × (ℕ × ℕ)) × Mgr k
  | [], st => ([], st)
  | i :: is, st =>
    let next := getPortLid o ports st i
    let rest := getPortLids is next.1
    ((i, next.2.1) :: rest.1, rest.2)

def sweepOrder (sm : Fin k) : List (Fin k) := sm :: (List.finRange k).filter (· ≠ sm)

end OpenSM.LidMgr
