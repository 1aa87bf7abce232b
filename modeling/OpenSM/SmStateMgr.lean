import OpenSM.Lib.Qmap

/-! The SM state machine: `osm_sm_state_mgr.c`, what SMInfo requests and responses do to it
(`osm_sminfo_rcv.c`), and the decisions of a sweep (`osm_state_mgr.c`). -/

namespace OpenSM.SmStateMgr

open Lib

abbrev Guid := ℕ

inductive SmState
  | notActive
  | discovering
  | standby
  | master
  -- the values 4 to 15 of the state field of a remote SMInfo
  | reserved
  deriving DecidableEq

inductive Signal
  | discoveryCompleted
  | pollingTimeout
  | discover
  | disable
  | handover
  | handoverSent
  | acknowledge
  | standby
  | masterOrHigherSmDetected
  | waitForHandover
  deriving DecidableEq

structure SmInfo where
  guid : Guid
  smKey : ℕ
  priority : ℕ
  state : SmState
  deriving DecidableEq

structure Opt where
  smPriority : ℕ
  smKey : ℕ
  pollingRetryNumber : UInt32
  smPortGuid : Guid
  -- the SMA of the own port sends traps or capability change notices itself
  capTrap : Bool
  ignoreOtherSm : Bool

inductive Mad
  | getSmInfo (guid : Guid) (lightSweep : Bool)
  | setHandover (guid : Guid) (smi : SmInfo)
  | trap144 (guid : Guid) (priorityChange : Bool)
  deriving DecidableEq

/-- `osm_sm_t` with the fields of `osm_subn_t` that the state machine reads and writes. A port of the port database
is kept with the M_Key of its PortInfo, and `mads` has the MADs that were sent, the last one first. -/
structure Sm where
  smState : SmState
  masterSmGuid : Guid
  pollingSmGuid : Guid
  retryNumber : UInt32
  masterSmFound : Bool
  pollingTimer : Bool
  sweepSignal : Bool
  forceHeavySweep : Bool
  forceFirstTimeMasterSweep : Bool
  firstTimeMasterSweep : Bool
  comingOutOfStandby : Bool
  ignoreExistingLfts : Bool
  smBaseLid : ℕ
  masterSmBaseLid : ℕ
  smGuidTbl : Qmap Guid SmInfo
  portGuidTbl : Qmap Guid ℕ
  mads : List Mad

def Sm.send (sm : Sm) (m : Mad) : Sm := { sm with mads := m :: sm.mads }

/-- `osm_sm_signal` with `OSM_SIGNAL_SWEEP`. -/
def Sm.signalSweep (sm : Sm) : Sm := { sm with sweepSignal := true }

def osmSmIsGreaterThan (lPriority : ℕ) (lGuid : Guid) (rPriority : ℕ) (rGuid : Guid) : Bool :=
  rPriority < lPriority || lPriority == rPriority && lGuid < rGuid

variable (opt : Opt)

section Polling

/-- The SM that `sm_state_mgr_send_master_sm_info_req` asks. -/
def Sm.polledGuid (sm : Sm) (smState : SmState) : Guid :=
  if smState = .standby then sm.masterSmGuid else sm.pollingSmGuid

/-- The request can be made: the SM does not poll itself, and the port is known. -/
def Sm.canPoll (sm : Sm) (smState : SmState) : Bool :=
  sm.polledGuid smState ≠ opt.smPortGuid ∧ (sm.portGuidTbl.get (sm.polledGuid smState)).isSome

/-- `ok` tells whether `osm_req_get` gets a MAD. -/
def sendMasterSmInfoReq (sm : Sm) (smState : SmState) (ok : Bool) : Sm × Bool :=
  if sm.canPoll opt smState && ok then (sm.send (.getSmInfo (sm.polledGuid smState) false), true) else (sm, false)

def startPolling (sm : Sm) (ok : Bool) : Sm :=
  { (sendMasterSmInfoReq opt { sm with retryNumber := 0 } sm.smState ok).1 with pollingTimer := true }

inductive PollingResult
  | stopped
  | restartTimer
  | timeout
  deriving DecidableEq

/-- `osm_sm_state_mgr_polling_callback` under `p_lock`, with the state that it has read before under
`state_lock`. -/
def pollingCallback (sm : Sm) (exitFlag : Bool) (smState : SmState) (ok : Bool) : Sm × PollingResult :=
  if ¬ (smState = .master ∧ sm.pollingSmGuid ≠ 0 ∨ smState = .standby) then (sm, .stopped)
  else if smState = .standby ∧ exitFlag then (sm, .stopped)
  else if opt.pollingRetryNumber < sm.retryNumber then (sm, .timeout)
  else
    match sendMasterSmInfoReq opt sm smState ok with
    | (sm, true) => ({ sm with retryNumber := sm.retryNumber + 1 }, .restartTimer)
    | (sm, false) => (sm, .restartTimer)

def signalMasterIsAlive (sm : Sm) : Sm := { sm with retryNumber := 0 }

end Polling

section StateMachine

/-- `osm_sm_state_mgr_process` and whether it returns `IB_SUCCESS`. -/
def process (sm : Sm) (signal : Signal) (ok : Bool) : Sm × Bool :=
  match sm.smState, signal with
  | .discovering, .discoveryCompleted =>
    ({ sm with smState := .master, firstTimeMasterSweep := true, masterSmBaseLid := sm.smBaseLid }, true)
  | .discovering, .masterOrHigherSmDetected =>
    (startPolling opt { sm with smState := .standby, ignoreExistingLfts := false } ok, true)
  | .discovering, .handover => (sm.signalSweep, true)
  | .standby, .pollingTimeout | .standby, .discover =>
    (({ sm with smState := .discovering, comingOutOfStandby := true } : Sm).signalSweep, true)
  | .standby, .disable => ({ sm with smState := .notActive }, true)
  | .standby, .handover =>
    (({ sm with
        masterSmBaseLid := sm.smBaseLid, forceFirstTimeMasterSweep := true, smState := .master } : Sm).signalSweep,
      true)
  | .standby, .acknowledge => (sm, true)
  | .notActive, .standby => (startPolling opt { sm with smState := .standby } ok, true)
  | .master, .pollingTimeout | .master, .handover =>
    (({ sm with pollingSmGuid := 0, forceFirstTimeMasterSweep := true } : Sm).signalSweep, true)
  | .master, .handoverSent => (startPolling opt { sm with smState := .standby } ok, true)
  | .master, .waitForHandover => (startPolling opt sm ok, true)
  | .master, .discover => ({ sm with smState := .discovering }, true)
  | .reserved, _ => (sm, true)
  | _, _ => (sm, false)

def checkLegality (sm : Sm) (signal : Signal) : Bool :=
  match sm.smState with
  | .discovering => signal ∈ [.discoveryCompleted, .masterOrHigherSmDetected, .handover]
  | .standby => signal ∈ [.pollingTimeout, .discover, .disable, .handover, .acknowledge]
  | .notActive => signal ∈ [.standby]
  | .master => signal ∈ [.handover, .handoverSent]
  | .reserved => false

end StateMachine

section Requests

/-- A SubnSet(SMInfo). The attribute modifiers 1 to 5 are HANDOVER, ACKNOWLEDGE, DISABLE, STANDBY and DISCOVER. -/
structure SetRequest where
  attrMod : ℕ
  mKey : ℕ
  guid : Guid
  state : SmState
  deriving DecidableEq

/-- `smi_rcv_check_set_req_legality`. -/
def SetRequest.legal (r : SetRequest) : Bool :=
  if r.attrMod = 2 then r.state = .standby else r.attrMod ∈ [1, 3, 4, 5] ∧ r.state = .master

def SetRequest.signal (r : SetRequest) : Option Signal :=
  match r.attrMod with
  | 1 => some .handover
  | 2 => some .acknowledge
  | 3 => some .disable
  | 4 => some .standby
  | 5 => some .discover
  | _ => none

/-- `osm_sminfo_rcv_process` and `smi_rcv_process_set_request` up to the response: the signal of a request whose
M_Key is that of the own port, that is legal, and whose transition is legal. -/
def acceptSet (sm : Sm) (r : SetRequest) : Option Signal :=
  match sm.portGuidTbl.get opt.smPortGuid with
  | none => none
  | some mKey =>
    if mKey ≠ 0 ∧ mKey ≠ r.mKey then none
    else if r.legal then r.signal.filter (checkLegality sm) else none

/-- What `smi_rcv_process_set_request` stores before it calls `osm_sm_state_mgr_process`. -/
def storeMaster (sm : Sm) (r : SetRequest) : Sm := if r.attrMod = 4 then { sm with masterSmGuid := r.guid } else sm

end Requests

section Responses

def osmSendTrap144 (sm : Sm) (priorityChange : Bool) : Sm :=
  if (sm.portGuidTbl.get opt.smPortGuid).isNone then sm
  else if ¬ priorityChange ∧ opt.capTrap then sm
  else if (sm.portGuidTbl.get sm.masterSmGuid).isNone then sm
  else sm.send (.trap144 sm.masterSmGuid priorityChange)

def remoteSmIsHigher (smi : SmInfo) : Bool :=
  osmSmIsGreaterThan smi.priority smi.guid opt.smPriority opt.smPortGuid

def processGetSm (sm : Sm) (smi : SmInfo) (lightSweep : Bool) : Sm :=
  match sm.smState with
  | .notActive | .reserved => sm
  | .discovering =>
    match smi.state with
    | .master => { sm with masterSmFound := true, masterSmGuid := smi.guid }
    | .discovering | .standby =>
      if remoteSmIsHigher opt smi then { sm with masterSmFound := true, masterSmGuid := smi.guid } else sm
    | .notActive | .reserved => sm
  | .standby =>
    match smi.state with
    | .master =>
      if remoteSmIsHigher opt smi then signalMasterIsAlive sm else osmSendTrap144 opt (signalMasterIsAlive sm) true
    | .standby =>
      if sm.masterSmGuid = smi.guid ∧ remoteSmIsHigher opt smi then signalMasterIsAlive sm else sm
    | .notActive | .discovering | .reserved => sm
  | .master =>
    match smi.state with
    | .master =>
      if sm.pollingSmGuid ≠ 0 then
        signalMasterIsAlive
          (if remoteSmIsHigher opt smi then { sm with forceHeavySweep := true }
            else osmSendTrap144 opt { sm with masterSmGuid := sm.pollingSmGuid } true)
      else if lightSweep then { sm with forceHeavySweep := true } else sm
    | .standby => if lightSweep ∧ remoteSmIsHigher opt smi then { sm with forceHeavySweep := true } else sm
    | .notActive | .discovering | .reserved => sm

structure GetResponse where
  portGuid : Guid
  lightSweep : Bool
  smi : SmInfo

/-- The checks of `osm_sminfo_rcv_process` and `smi_rcv_process_get_response`. -/
def acceptResponse (sm : Sm) (r : GetResponse) : Bool :=
  r.portGuid = r.smi.guid ∧ (opt.smKey = 0 ∨ r.smi.smKey = opt.smKey) ∧ (sm.portGuidTbl.get r.smi.guid).isSome ∧
    r.smi.guid ≠ opt.smPortGuid

/-- The entry of an SM in `sm_guid_tbl` is made or updated. -/
def Sm.putRemoteSm (sm : Sm) (smi : SmInfo) : Sm :=
  { sm with smGuidTbl := (sm.smGuidTbl.remove smi.guid).insert smi.guid smi }

def processGetResponse (sm : Sm) (r : GetResponse) : Sm :=
  if acceptResponse opt sm r then processGetSm opt (sm.putRemoteSm r.smi) r.smi r.lightSweep else sm

end Responses

section Discovery

/-- `pi_rcv_process_endport`: the state of an SM that is known is cleaned before it is asked. -/
def processEndport (sm : Sm) (guid : Guid) (mKey : ℕ) (isSm ok : Bool) : Sm :=
  let sm := { sm with portGuidTbl := (sm.portGuidTbl.remove guid).insert guid mKey }
  if guid = opt.smPortGuid then sm
  else if ¬ isSm then { sm with smGuidTbl := sm.smGuidTbl.remove guid }
  else
    let sm := { sm with smGuidTbl := sm.smGuidTbl.modify guid fun smi => { smi with state := .notActive } }
    if ¬ opt.ignoreOtherSm ∧ ok then sm.send (.getSmInfo guid false) else sm

/-- What `drop_mgr_remove_port` does to the tables of ports and of SMs. -/
def dropPort (sm : Sm) (guid : Guid) : Sm :=
  { sm with portGuidTbl := sm.portGuidTbl.remove guid, smGuidTbl := sm.smGuidTbl.remove guid }

end Discovery

section Sweep

def existsOtherMasterSm (sm : Sm) : Option SmInfo :=
  (sm.smGuidTbl.entries.map Prod.snd).find? (·.state = .master)

/-- The loop of `state_mgr_get_highest_sm` from the highest SM so far on. -/
def highestFrom (highest : Option SmInfo) : List SmInfo → Option SmInfo
  | [] => highest
  | smi :: l =>
    if smi.state = .notActive then highestFrom highest l
    else if osmSmIsGreaterThan smi.priority smi.guid (highest.elim opt.smPriority SmInfo.priority)
        (highest.elim opt.smPortGuid SmInfo.guid) then highestFrom (some smi) l
    else highestFrom highest l

def getHighestSm (sm : Sm) : Option SmInfo := highestFrom opt none (sm.smGuidTbl.entries.map Prod.snd)

def sendHandover (sm : Sm) (smi : SmInfo) (ok : Bool) : Sm :=
  if (sm.portGuidTbl.get smi.guid).isNone then sm
  else
    let sm := { sm with masterSmGuid := smi.guid }
    if ok then
      sm.send (.setHandover smi.guid
        { guid := opt.smPortGuid, smKey := opt.smKey, priority := opt.smPriority, state := sm.smState })
    else sm

/-- `query_sm_info` for every SM that is known. -/
def querySmInfo (sm : Sm) : Sm :=
  (sm.smGuidTbl.entries.map Prod.fst).foldl
    (fun s g => if (s.portGuidTbl.get g).isSome then s.send (.getSmInfo g true) else s) sm

/-- Where the sweeper thread is in `do_sweep`. -/
inductive SweepPc
  | idle
  | start
  | lightSweep
  | heavySweep
  | hop0
  | hop1
  | remoteSms
  | signal (sig : Signal)
  | config
  deriving DecidableEq

/-- What the sweeper thread meets in its next step: what speaks for a light sweep besides `sm_state` and
`force_heavy_sweep`, a subnet initialization error, a request that fails or an exit, and the state of the own
port. -/
structure SweepInput where
  light : Bool
  subnetInitializationError : Bool
  failed : Bool
  portDown : Bool
  ok : Bool

/-- The next step of `do_sweep`. The MADs of a step are answered, or time out, before the next one. -/
def doSweep (sm : Sm) (i : SweepInput) : SweepPc → Sm × SweepPc
  | .idle => if sm.sweepSignal then ({ sm with sweepSignal := false }, .start) else (sm, .idle)
  | .start =>
    let sm := if sm.forceFirstTimeMasterSweep then
        { sm with
          forceHeavySweep := true, comingOutOfStandby := true, firstTimeMasterSweep := true,
          forceFirstTimeMasterSweep := false }
      else sm
    let sm := { sm with forceHeavySweep := sm.forceHeavySweep || i.subnetInitializationError }
    if sm.smState ≠ .master ∧ sm.smState ≠ .discovering then (sm, .idle)
    else
      let sm := { sm with masterSmFound := false }
      if i.light ∧ sm.smState ≠ .discovering ∧ ¬ sm.forceHeavySweep then (querySmInfo sm, .lightSweep)
      else (sm, .heavySweep)
  | .lightSweep => if i.failed ∨ ¬ sm.forceHeavySweep then (sm, .idle) else (sm, .heavySweep)
  | .heavySweep => ({ sm with forceHeavySweep := false }, .hop0)
  | .hop0 =>
    if i.failed then (sm, .idle)
    else if i.portDown then (sm, if sm.smState ≠ .discovering then .signal .discover else .idle)
    else (sm, .hop1)
  | .hop1 =>
    if i.failed then (sm, .idle)
    else if sm.masterSmFound then (sm, .signal .masterOrHigherSmDetected)
    else if sm.forceHeavySweep then (sm, .heavySweep)
    else (sm, .remoteSms)
  | .remoteSms =>
    if sm.smState = .master then
      match getHighestSm opt sm, existsOtherMasterSm sm with
      | some smi, _ => (sendHandover opt sm smi i.ok, .signal .handoverSent)
      | none, some smi => ({ sm with pollingSmGuid := smi.guid }, .signal .waitForHandover)
      | none, none => (sm, if sm.pollingSmGuid ≠ 0 then .signal .pollingTimeout else .config)
    else (sm, if sm.smState = .discovering then .signal .discoveryCompleted else .config)
  | .signal sig =>
    let sm := (process opt sm sig i.ok).1
    match sig with
    | .masterOrHigherSmDetected => (osmSendTrap144 opt sm false, .idle)
    | .discoveryCompleted => (sm, .config)
    | _ => (sm, .idle)
  | .config =>
    if i.failed then (sm, .idle)
    else
      ({ sm with
          comingOutOfStandby := false, firstTimeMasterSweep := false, ignoreExistingLfts := false,
          sweepSignal := sm.sweepSignal || sm.forceHeavySweep }, .idle)

end Sweep

end OpenSM.SmStateMgr
