import Mathlib
import OpenSM.SubnOpt

/-! The corrections of the options, and a configuration file read at the start and again later. -/

namespace OpenSM.SubnOpt

open Lib.CString

section Defaults

def defaultScalar : Scalar → Val
  | .guid | .mKey | .mKeyLeasePeriod | .mKeyProtectBits | .logMaxSize | .smAssignedGuid |
      .maxReverseHops | .lashStartVl
  | .smPriority | .lmc | .scatterPorts | .ccKey | .smSl | .ccSwCongSettingControlMap | .ccSwCongSettingThreshold
  | .ccSwCongSettingPacketSize | .ccSwCongSettingCreditStarvationThreshold | .ccSwCongSettingMarkingRate
  | .ccCaCongSettingPortControl | .ccCaCongSettingControlMap | .partEnforceEnum => .num 0
  | .smKey | .saKey | .fdr10 | .nueMaxNumVls => .num 1
  | .subnetPrefix => .num 0xFE80000000000000
  | .sweepInterval => .num 10
  | .maxWireSmps | .maxWireSmps2 | .pollingRetryNumber => .num 4
  | .maxSmpsTimeout => .num (1000 * 200 * 3)
  | .consolePort => .num 10000
  | .transactionTimeout => .num 200
  | .transactionRetries | .logFlags => .num 3
  | .longTransactionTimeout => .num 500
  | .maxMsgFifoTimeout => .num (50 * 200)
  | .maxOpVls => .num 5
  | .forceLinkSpeed => .num 15
  | .forceLinkSpeedExt => .num 31
  | .forceLinkWidth => .num 255
  | .subnetTimeout | .packetLifeTime | .headOfQueueLifetime => .num 0x12
  | .vlStallCount | .leafVlStallCount => .num 7
  | .leafHeadOfQueueLifetime => .num 0x10
  | .localPhyErrorsThreshold | .overrunErrorsThreshold => .num 8
  | .sminfoPollingTimeout => .num 10000
  | .maxRateEnum => .num 63
  | .perfmgrSweepTimeS => .num 180
  | .perfmgrMaxOutstandingQueries | .ccMaxOutstandingMads => .num 500
  | .perfmgrXmitWaitThreshold => .num 0xFFFF
  | .mKeyLookup | .useMfttop | .sweepOnTrap | .accumLogFile | .keepPkeyIndexes | .exitOnFatal
  | .ipoibMcgroupCreationValidation | .mcgroupJoinValidation | .fsyncHighAvailFiles | .perfmgrRedir
  | .perfmgrRmNodes | .perfmgrLogErrors | .perfmgrQueryCpi => .bool true
  | .lmcEsp0 | .reassignLids | .ignoreOtherSm | .singleThread | .disableMulticast | .forceHeavySweep
  | .portProfileSwitchNodes | .avoidThrottledLinks | .connectRoots | .useUcastCache | .forceLogFlush
  | .noPartitionEnforcement | .allowBothPkeys | .qos | .suppressSl2vlMadStatusErrors | .portShifting
  | .guidRoutingOrderNoScatter | .saDbDump | .doMeshAnalysis | .honorGuid2lidFile | .daemon | .smInactive
  | .babblingPortPolicy | .dropEventSubscriptions | .useOriginalExtendedSaRatesOnly | .useOptimizedSlvl | .perfmgr
  | .perfmgrIgnoreCas | .perfmgrXmitWaitLog | .congestionControl | .enableQuirks | .noClientsRereg
  | .consolidateIpv6SnmReq | .nueIncludeSwitches | .quasiFtreeIndexing => .bool false
  | .portProfIgnoreFile | .hopWeightsFile | .portSearchOrderingFile | .routingEngineNames | .lidMatrixDumpFile
  | .lftsFile | .rootGuidFile | .cnGuidFile | .ioGuidFile | .idsGuidFile | .guidRoutingOrderFile | .saDbFile
  | .eventDbDumpFile | .eventPluginName | .eventPluginOptions | .nodeNameMapName | .logPrefix => .str none
  | .console => .str (some "off".toList)
  | .logFile => .str (some "/var/log/opensm.log".toList)
  | .partitionConfigFile => .str (some "/etc/opensm/partitions.conf".toList)
  | .partEnforce => .str (some "both".toList)
  | .qosPolicyFile => .str (some "/etc/opensm/qos-policy.conf".toList)
  | .dumpFilesDir => .str (some "/var/log/".toList)
  | .torusConfFile => .str (some "/etc/opensm/torus-2QoS.conf".toList)
  | .prefixRoutesFile => .str (some "/etc/opensm/prefix-routes.conf".toList)
  | .perModuleLoggingFile => .str (some "/etc/opensm/per-module-logging.conf".toList)
  | .ccSwCongSettingVictimMask | .ccSwCongSettingCreditMask => .mask (List.replicate portMaskDataSize 0)
  | .ccSwCongSettingCreditStarvationReturnDelay => .cctEntry 0 0
  | .ccCct => .cct [] none

def defaultQos : QosOption → Val
  | .maxVls => .num 0
  | .highLimit => .int (-1)
  | .vlarbHigh | .vlarbLow | .sl2vl => .str none

def osmSubnSetDefaultOpt : Opts
  | .one s => defaultScalar s
  | .qosOptions _ o => defaultQos o
  | .ccCaCongEntries _ _ => .num 0

end Defaults

section Corrections

def setNum (f : Scalar) (h : ℕ → ℕ) (o : Opts) : Opts :=
  Function.update o (.one f) (.num (h (o (.one f)).toNum))

def fixLmc (n : ℕ) : ℕ := if 7 < n then 0 else n

def fixSmPriority (n : ℕ) : ℕ := if 15 < n then 0 else n

def fixForceLinkSpeed (n : ℕ) : ℕ := if 15 < n ∨ (7 < n ∧ n < 15) then 15 else n

def fixForceLinkSpeedExt (n : ℕ) : ℕ := if 31 < n ∨ (15 < n ∧ n < 30) then 31 else n

def fixForceLinkWidth (n : ℕ) : ℕ := if 255 < n ∨ (31 < n ∧ n < 255) then 255 else n

def fixFdr10 (n : ℕ) : ℕ := if 2 < n then 1 else n

def fixMaxWireSmps (n : ℕ) : ℕ := if n = 0 then 0x7FFFFFFF else if 0x7FFFFFFF < n then 4 else n

def verifyRanges (o : Opts) : Opts :=
  setNum .maxWireSmps fixMaxWireSmps (setNum .fdr10 fixFdr10 (setNum .forceLinkWidth fixForceLinkWidth
    (setNum .forceLinkSpeedExt fixForceLinkSpeedExt (setNum .forceLinkSpeed fixForceLinkSpeed
      (setNum .smPriority fixSmPriority (setNum .lmc fixLmc o))))))

def verifyMaxWireSmps2 (o : Opts) : Opts :=
  setNum .maxWireSmps2 (fun n => if 0x7FFFFFFF < n then (o (.one .maxWireSmps)).toNum else n) o

def verifyTimeout (o : Opts) : Opts :=
  setNum .longTransactionTimeout (fun n => max n (o (.one .transactionTimeout)).toNum) o

def consoles : List Str := ["off".toList, "local".toList, "loopback".toList, "socket".toList]

def verifyConsole (c : Conf) : Conf :=
  match (c.opt (.one .console)).toStr with
  | none => { c with crashed := true }
  | some s =>
    if s ∈ consoles then c else { c with opt := Function.update c.opt (.one .console) (.str (some "off".toList)) }

/-- `strcpy(p_opts->part_enforce, new)` over the text `old`. -/
def overwrite (c : Conf) (old new : Str) : Conf :=
  { c with
    opt := Function.update c.opt (.one .partEnforce) (.str (some new))
    file := Function.update c.file (.one .partEnforce) (.str (some new))
    overrun := c.overrun || old.length < new.length }

def setEnum (c : Conf) (n : ℕ) : Conf :=
  { c with opt := Function.update c.opt (.one .partEnforceEnum) (.num n) }

def enforceBoth : Str := "both".toList

def enforceIn : Str := "in".toList

def enforceOut : Str := "out".toList

def enforceOff : Str := "off".toList

def verifyPartEnforce (c : Conf) : Conf :=
  match (c.opt (.one .partEnforce)).toStr with
  | none => { c with crashed := true }
  | some s =>
    if (c.opt (.one .noPartitionEnforcement)).toBool then setEnum (overwrite c s enforceOff) 3
    else if s = enforceBoth then setEnum c 0
    else if s = enforceIn then setEnum c 1
    else if s = enforceOut then setEnum c 2
    else if s = enforceOff then setEnum c 3
    else setEnum (overwrite c s enforceBoth) 0

def fixMaxVls (n : ℕ) : ℕ := if n = 0 ∨ 15 < n then 0 else n

def fixHighLimit (n : ℤ) : ℤ := if n < 0 ∨ 255 < n then -1 else n

def verifyQosSet (o : Opts) : Opts
  | .qosOptions s .maxVls => .num (fixMaxVls (o (.qosOptions s .maxVls)).toNum)
  | .qosOptions s .highLimit => .int (fixHighLimit (o (.qosOptions s .highLimit)).toInt)
  | f => o f

def verifyQos (o : Opts) : Opts := if (o (.one .qos)).toBool then verifyQosSet o else o

def verifyPerfmgr (o : Opts) : Opts :=
  setNum .perfmgrMaxOutstandingQueries (fun n => if n < 1 then 500 else n)
    (setNum .perfmgrSweepTimeS (fun n => if n < 1 then 180 else n) o)

def fixMKeyProtectBits (n : ℕ) : ℕ := if 3 < n then 2 else n

def fixLease (protectBits sweep lease : ℕ) : ℕ × ℕ :=
  if protectBits ≠ 0 ∧ lease ≠ 0 then
    let sweep := if sweep = 0 then lease - 1 else sweep
    (sweep, if lease ≤ sweep then (sweep + 1) % 2 ^ 16 else lease)
  else (sweep, lease)

def verifyMKey (o : Opts) : Opts :=
  let o := setNum .mKeyProtectBits fixMKeyProtectBits o
  let fixed := fixLease (o (.one .mKeyProtectBits)).toNum (o (.one .sweepInterval)).toNum
      (o (.one .mKeyLeasePeriod)).toNum
  setNum .mKeyLeasePeriod (fun _ => fixed.2) (setNum .sweepInterval (fun _ => fixed.1) o)

def fixMaxRateEnum (original : Bool) (n : ℕ) : ℕ :=
  let n := if original ∧ 18 < n then 18 else n
  if n < 2 ∨ (24 < n ∧ n ≠ 63) then 63 else n

def verifyRates (o : Opts) : Opts :=
  setNum .maxRateEnum (fixMaxRateEnum (o (.one .useOriginalExtendedSaRatesOnly)).toBool) o

def Conf.onOpt (h : Opts → Opts) (c : Conf) : Conf := { c with opt := h c.opt }

def osmSubnVerifyConfig (c : Conf) : Conf :=
  let c := c.onOpt fun o => verifyTimeout (verifyMaxWireSmps2 (verifyRanges o))
  let c := verifyPartEnforce (verifyConsole c)
  c.onOpt fun o => verifyRates (verifyMKey (verifyPerfmgr (verifyQos o)))

end Corrections

section Files

def parseLine (c : Conf) (l : Str × Str) : Conf :=
  match lookup l.1 with
  | none => c
  | some r => r.parse c l.2

def readConf (text : Str) (o : Opts) : Conf := (confLines text).foldl parseLine ⟨o, o, false, false⟩

def osmSubnParseConfFile (text : Str) (o : Opts) : Conf := osmSubnVerifyConfig (readConf text o)

def subnInitQosOptions (s : QosSet) (o : Opts) : Opts
  | .qosOptions s' q => if s' = s then defaultQos q else o (.qosOptions s' q)
  | f => o f

def initQos (c : Conf) (s : QosSet) : Conf :=
  { c with opt := subnInitQosOptions s c.opt, file := subnInitQosOptions s c.file }

def lookupUpdatable (key : Str) : Option OptRec := optTbl.find? fun r => r.name.toList = key ∧ r.canUpdate

def rescanLine (c : Conf) (l : Str × Str) : Conf :=
  match lookupUpdatable l.1 with
  | none => c
  | some r => r.parse c l.2

def osmSubnRescanConfFiles (c : Conf) (text : Str) : Conf :=
  let c := [QosSet.qos, .ca, .sw0, .swe, .rtr].foldl initQos c
  osmSubnVerifyConfig ((confLines text).foldl rescanLine c)

end Files

end OpenSM.SubnOpt
