import Mathlib
import OpenSM.Lib.CString

/-! The options of the SM: their table, the functions that read a value, and the lines of a configuration file. -/

namespace OpenSM.SubnOpt

open Lib.CString

inductive QosSet
  | qos | ca | sw0 | swe | rtr
  deriving DecidableEq

inductive QosOption
  | maxVls | highLimit | vlarbHigh | vlarbLow | sl2vl
  deriving DecidableEq

inductive CaCongEntry
  | cctiTimer | cctiIncrease | triggerThreshold | cctiMin
  deriving DecidableEq

inductive Scalar
  | guid | mKey | smKey | saKey | subnetPrefix | mKeyLeasePeriod | mKeyProtectBits | mKeyLookup | sweepInterval
  | maxWireSmps | maxWireSmps2 | maxSmpsTimeout | console | consolePort | transactionTimeout
  | transactionRetries | longTransactionTimeout | maxMsgFifoTimeout | smPriority | lmc | lmcEsp0 | maxOpVls
  | forceLinkSpeed | forceLinkSpeedExt | forceLinkWidth | fdr10 | reassignLids | ignoreOtherSm | singleThread
  | disableMulticast | subnetTimeout | packetLifeTime | vlStallCount | leafVlStallCount | headOfQueueLifetime
  | leafHeadOfQueueLifetime | localPhyErrorsThreshold | overrunErrorsThreshold | useMfttop
  | sminfoPollingTimeout | pollingRetryNumber | forceHeavySweep | portProfIgnoreFile | hopWeightsFile
  | portSearchOrderingFile | portProfileSwitchNodes | sweepOnTrap | routingEngineNames | avoidThrottledLinks
  | connectRoots | useUcastCache | logFile | logMaxSize | logFlags | forceLogFlush | accumLogFile
  | partitionConfigFile | noPartitionEnforcement | partEnforce | partEnforceEnum | allowBothPkeys
  | keepPkeyIndexes | smAssignedGuid | qos | qosPolicyFile | suppressSl2vlMadStatusErrors | dumpFilesDir
  | lidMatrixDumpFile | lftsFile | rootGuidFile | cnGuidFile | ioGuidFile | portShifting | scatterPorts
  | maxReverseHops | idsGuidFile | guidRoutingOrderFile | guidRoutingOrderNoScatter | saDbFile | saDbDump
  | torusConfFile | doMeshAnalysis | exitOnFatal | honorGuid2lidFile | daemon | smInactive | babblingPortPolicy
  | dropEventSubscriptions | ipoibMcgroupCreationValidation | mcgroupJoinValidation
  | useOriginalExtendedSaRatesOnly | maxRateEnum | useOptimizedSlvl | fsyncHighAvailFiles | perfmgr
  | perfmgrRedir | perfmgrSweepTimeS | perfmgrMaxOutstandingQueries | perfmgrIgnoreCas | eventDbDumpFile
  | perfmgrRmNodes | perfmgrLogErrors | perfmgrQueryCpi | perfmgrXmitWaitLog | perfmgrXmitWaitThreshold
  | eventPluginName | eventPluginOptions | nodeNameMapName | congestionControl | ccKey | ccMaxOutstandingMads
  | ccSwCongSettingControlMap | ccSwCongSettingVictimMask | ccSwCongSettingCreditMask | ccSwCongSettingThreshold
  | ccSwCongSettingPacketSize | ccSwCongSettingCreditStarvationThreshold
  | ccSwCongSettingCreditStarvationReturnDelay | ccSwCongSettingMarkingRate | ccCaCongSettingPortControl
  | ccCaCongSettingControlMap | ccCct | enableQuirks | noClientsRereg | prefixRoutesFile | consolidateIpv6SnmReq
  | lashStartVl | smSl | nueMaxNumVls | nueIncludeSwitches | logPrefix | perModuleLoggingFile
  | quasiFtreeIndexing
  deriving DecidableEq

/-- A place in `osm_subn_opt_t`. -/
inductive Field
  | one (s : Scalar)
  | qosOptions (s : QosSet) (o : QosOption)
  | ccCaCongEntries (sl : ℕ) (e : CaCongEntry)
  deriving DecidableEq

inductive Val
  | num (n : ℕ)
  | int (n : ℤ)
  | bool (b : Bool)
  | str (s : Option Str)
  | mask (bytes : List ℕ)
  | cctEntry (shift multiplier : ℕ)
  | cct (entries : List (ℕ × ℕ)) (inputStr : Option Str)
  deriving DecidableEq

abbrev Opts := Field → Val

def Val.toNum : Val → ℕ
  | .num n => n
  | _ => 0

def Val.toInt : Val → ℤ
  | .int n => n
  | _ => 0

def Val.toBool : Val → Bool
  | .bool b => b
  | _ => false

def Val.toStr : Val → Option Str
  | .str s => s
  | _ => none

def Val.toInput : Val → Option Str
  | .cct _ s => s
  | _ => none

/-- The options in force, and the second copy that a line is compared with. The two share the text of
`part_enforce`; `overrun` says that it has been overwritten in place by a longer one. -/
structure Conf where
  opt : Opts
  file : Opts
  overrun : Bool
  crashed : Bool

def nullStr : Str := "(null)".toList

section Numbers

/-- `opts_strtoull`, and `opts_strtoul` where `long` has 64 bits. -/
def optsStrtoull (s : Str) (maxValue : ℕ) : Option ℕ :=
  if s = [] ∨ (strtoull s).2 ≠ [] then none
  else if maxValue < (strtoull s).1 ∨ ((strtoull s).1 = ullongMax ∧ strtoullRange s) then none
  else some (strtoull s).1

def readNum (bits : ℕ) (f : Field) (s : Str) : Option (Field × Val) :=
  (optsStrtoull s (2 ^ bits - 1)).map fun n => (f, .num n)

/-- `int32_t val = strtol(..)` -/
def readInt32 (f : Field) (s : Str) : Option (Field × Val) :=
  some (f, .int ((strtol s).bmod (2 ^ 32)))

end Numbers

def readBoolean (f : Field) (s : Str) : Option (Field × Val) :=
  some (f, .bool (s = "TRUE".toList))

def readCharp (f : Field) (s : Str) : Option (Field × Val) :=
  some (f, .str (if s = nullStr then none else some s))

section Masks

def portMaskDataSize : ℕ := 32

def hexBytes : ℕ → Str → List ℕ
  | 0, _ => []
  | n + 1, s => readNat 16 (s.take 2) :: hexBytes n (s.drop 2)

def read256bit (f : Field) (s : Str) : Option (Field × Val) :=
  let ds := if s.take 2 = ['0', 'x'] ∨ s.take 2 = ['0', 'X'] then s.drop 2 else s
  if ds.any (16 ≤ digitVal ·) ∨ ds = [] then none
  else
    let numdigits := min ds.length (portMaskDataSize * 2)
    let startindex := portMaskDataSize - (numdigits - 1) / 2 - 1
    let first := if numdigits % 2 = 1 then 1 else 2
    some (f, .mask (List.replicate startindex 0 ++
      readNat 16 (ds.take first) :: hexBytes (portMaskDataSize - startindex - 1) (ds.drop first)))

end Masks

section CongestionTable

def cctEntryMax : ℕ := 128

def cctPair (s : Str) : Option (ℕ × ℕ) :=
  if ':' ∈ s then
    some ((strtoull (s.takeWhile (· ≠ ':'))).1 % 2 ^ 8, (strtoull ((s.dropWhile (· ≠ ':')).drop 1)).1 % 2 ^ 16)
  else none

def readCctEntry (f : Field) (s : Str) : Option (Field × Val) :=
  (cctPair (s.take 511)).map fun e => (f, .cctEntry e.1 e.2)

def cctEntries : ℕ → Str → Option (List (ℕ × ℕ))
  | 0, _ => some []
  | len + 1, s =>
    match strtok [','] s with
    | none => some []
    | some (tok, rest) => (cctPair tok).bind fun e => (cctEntries len rest).map (e :: ·)

def readCcCct (f : Field) (s : Str) : Option (Field × Val) :=
  if s = nullStr then some (f, .cct [] none)
  else (cctEntries cctEntryMax s).map fun l => (f, .cct l (some s))

end CongestionTable

section CaCongestion

def caCongEntryDataSize : ℕ := 16

/-- `parse_ca_cong_common`: the SL and the text of the value. -/
def parseCaCongCommon (s : Str) : Option (ℕ × Str) :=
  if s = nullStr then none
  else
    (strtok [' ', '\t'] s).bind fun (slStr, rest) =>
      (strtok [' ', '\t'] rest).bind fun _ =>
        let sl := (strtoull slStr).1 % 2 ^ 8
        if caCongEntryDataSize ≤ sl then none else some (sl, rest.dropWhile (· ∈ [' ', '\t']))

def readCaCong (bits : ℕ) (e : CaCongEntry) (s : Str) : Option (Field × Val) :=
  (parseCaCongCommon s).bind fun (sl, val) => readNum bits (.ccCaCongEntries sl e) val

end CaCongestion

section Parse

/-- `if (val != *p_val1) *p_val1 = *p_val2 = val` -/
def store (c : Conf) (v : Field × Val) : Conf :=
  if v.2 ≠ c.file v.1 then
    { c with opt := Function.update c.opt v.1 v.2, file := Function.update c.file v.1 v.2 }
  else c

def storeRead (c : Conf) (v : Option (Field × Val)) : Conf := v.elim c (store c)

def optsParseNet64 (c : Conf) (f : Field) (s : Str) : Conf := storeRead c (readNum 64 f s)

def optsParseUint32 (c : Conf) (f : Field) (s : Str) : Conf := storeRead c (readNum 32 f s)

def optsParseNet32 (c : Conf) (f : Field) (s : Str) : Conf := storeRead c (readNum 32 f s)

def optsParseInt32 (c : Conf) (f : Field) (s : Str) : Conf := storeRead c (readInt32 f s)

def optsParseUint16 (c : Conf) (f : Field) (s : Str) : Conf := storeRead c (readNum 16 f s)

def optsParseNet16 (c : Conf) (f : Field) (s : Str) : Conf := storeRead c (readNum 16 f s)

def optsParseUint8 (c : Conf) (f : Field) (s : Str) : Conf := storeRead c (readNum 8 f s)

def optsParseBoolean (c : Conf) (f : Field) (s : Str) : Conf := storeRead c (readBoolean f s)

def optsParseCharp (c : Conf) (f : Field) (s : Str) : Conf :=
  if s ≠ (c.file f).toStr.getD nullStr then
    let new : Val := .str (if s = nullStr then none else some s)
    { c with opt := Function.update c.opt f new, file := Function.update c.file f new }
  else c

def optsParse256bit (c : Conf) (f : Field) (s : Str) : Conf := storeRead c (read256bit f s)

def optsParseCctEntry (c : Conf) (f : Field) (s : Str) : Conf := storeRead c (readCctEntry f s)

def optsParseCcCct (c : Conf) (f : Field) (s : Str) : Conf :=
  if s ≠ (c.file f).toInput.getD nullStr then
    if s = nullStr then
      { c with opt := Function.update c.opt f (.cct [] none), file := Function.update c.file f (.cct [] none) }
    else
      match cctEntries cctEntryMax s with
      | none => c
      | some l =>
        { c with
          opt := Function.update c.opt f (.cct l (some s)), file := Function.update c.file f (.cct l (some s)) }
  else c

def optsParseCctiTimer (c : Conf) (s : Str) : Conf := storeRead c (readCaCong 16 .cctiTimer s)

def optsParseCctiIncrease (c : Conf) (s : Str) : Conf := storeRead c (readCaCong 8 .cctiIncrease s)

def optsParseTriggerThreshold (c : Conf) (s : Str) : Conf := storeRead c (readCaCong 8 .triggerThreshold s)

def optsParseCctiMin (c : Conf) (s : Str) : Conf := storeRead c (readCaCong 8 .cctiMin s)

end Parse

inductive ParseFn
  | net64 | uint32 | net32 | int32 | uint16 | net16 | uint8 | boolean | charp | mask256 | cctEntry | ccCct
  | cctiTimer | cctiIncrease | triggerThreshold | cctiMin
  deriving DecidableEq

structure OptRec where
  name : String
  optOffset : Field
  parseFn : ParseFn
  canUpdate : Bool
  deriving DecidableEq

def OptRec.parse (r : OptRec) (c : Conf) (s : Str) : Conf :=
  match r.parseFn with
  | .net64 => optsParseNet64 c r.optOffset s
  | .uint32 => optsParseUint32 c r.optOffset s
  | .net32 => optsParseNet32 c r.optOffset s
  | .int32 => optsParseInt32 c r.optOffset s
  | .uint16 => optsParseUint16 c r.optOffset s
  | .net16 => optsParseNet16 c r.optOffset s
  | .uint8 => optsParseUint8 c r.optOffset s
  | .boolean => optsParseBoolean c r.optOffset s
  | .charp => optsParseCharp c r.optOffset s
  | .mask256 => optsParse256bit c r.optOffset s
  | .cctEntry => optsParseCctEntry c r.optOffset s
  | .ccCct => optsParseCcCct c r.optOffset s
  | .cctiTimer => optsParseCctiTimer c s
  | .cctiIncrease => optsParseCctiIncrease c s
  | .triggerThreshold => optsParseTriggerThreshold c s
  | .cctiMin => optsParseCctiMin c s

/-- The option and the value that the text of a line stands for, if the parser accepts it. -/
def OptRec.read (r : OptRec) (s : Str) : Option (Field × Val) :=
  match r.parseFn with
  | .net64 => readNum 64 r.optOffset s
  | .uint32 | .net32 => readNum 32 r.optOffset s
  | .int32 => readInt32 r.optOffset s
  | .uint16 | .net16 => readNum 16 r.optOffset s
  | .uint8 => readNum 8 r.optOffset s
  | .boolean => readBoolean r.optOffset s
  | .charp => readCharp r.optOffset s
  | .mask256 => read256bit r.optOffset s
  | .cctEntry => readCctEntry r.optOffset s
  | .ccCct => readCcCct r.optOffset s
  | .cctiTimer => readCaCong 16 .cctiTimer s
  | .cctiIncrease => readCaCong 8 .cctiIncrease s
  | .triggerThreshold => readCaCong 8 .triggerThreshold s
  | .cctiMin => readCaCong 8 .cctiMin s

def OptRec.fields (r : OptRec) : List Field :=
  match r.parseFn with
  | .cctiTimer => (List.range caCongEntryDataSize).map (.ccCaCongEntries · .cctiTimer)
  | .cctiIncrease => (List.range caCongEntryDataSize).map (.ccCaCongEntries · .cctiIncrease)
  | .triggerThreshold => (List.range caCongEntryDataSize).map (.ccCaCongEntries · .triggerThreshold)
  | .cctiMin => (List.range caCongEntryDataSize).map (.ccCaCongEntries · .cctiMin)
  | _ => [r.optOffset]

def optTbl : List OptRec := [
  ⟨"guid", .one .guid, .net64, false⟩,
  ⟨"m_key", .one .mKey, .net64, true⟩,
  ⟨"sm_key", .one .smKey, .net64, true⟩,
  ⟨"sa_key", .one .saKey, .net64, true⟩,
  ⟨"subnet_prefix", .one .subnetPrefix, .net64, false⟩,
  ⟨"m_key_lease_period", .one .mKeyLeasePeriod, .net16, true⟩,
  ⟨"m_key_protection_level", .one .mKeyProtectBits, .uint8, true⟩,
  ⟨"m_key_lookup", .one .mKeyLookup, .boolean, true⟩,
  ⟨"sweep_interval", .one .sweepInterval, .uint32, true⟩,
  ⟨"max_wire_smps", .one .maxWireSmps, .uint32, true⟩,
  ⟨"max_wire_smps2", .one .maxWireSmps2, .uint32, true⟩,
  ⟨"max_smps_timeout", .one .maxSmpsTimeout, .uint32, true⟩,
  ⟨"console", .one .console, .charp, false⟩,
  ⟨"console_port", .one .consolePort, .uint16, false⟩,
  ⟨"transaction_timeout", .one .transactionTimeout, .uint32, false⟩,
  ⟨"transaction_retries", .one .transactionRetries, .uint32, false⟩,
  ⟨"long_transaction_timeout", .one .longTransactionTimeout, .uint32, false⟩,
  ⟨"max_msg_fifo_timeout", .one .maxMsgFifoTimeout, .uint32, true⟩,
  ⟨"sm_priority", .one .smPriority, .uint8, true⟩,
  ⟨"lmc", .one .lmc, .uint8, false⟩,
  ⟨"lmc_esp0", .one .lmcEsp0, .boolean, false⟩,
  ⟨"max_op_vls", .one .maxOpVls, .uint8, true⟩,
  ⟨"force_link_speed", .one .forceLinkSpeed, .uint8, true⟩,
  ⟨"force_link_speed_ext", .one .forceLinkSpeedExt, .uint8, true⟩,
  ⟨"force_link_width", .one .forceLinkWidth, .uint8, true⟩,
  ⟨"fdr10", .one .fdr10, .uint8, true⟩,
  ⟨"reassign_lids", .one .reassignLids, .boolean, true⟩,
  ⟨"ignore_other_sm", .one .ignoreOtherSm, .boolean, true⟩,
  ⟨"single_thread", .one .singleThread, .boolean, false⟩,
  ⟨"disable_multicast", .one .disableMulticast, .boolean, true⟩,
  ⟨"subnet_timeout", .one .subnetTimeout, .uint8, true⟩,
  ⟨"packet_life_time", .one .packetLifeTime, .uint8, true⟩,
  ⟨"vl_stall_count", .one .vlStallCount, .uint8, true⟩,
  ⟨"leaf_vl_stall_count", .one .leafVlStallCount, .uint8, true⟩,
  ⟨"head_of_queue_lifetime", .one .headOfQueueLifetime, .uint8, true⟩,
  ⟨"leaf_head_of_queue_lifetime", .one .leafHeadOfQueueLifetime, .uint8, true⟩,
  ⟨"local_phy_errors_threshold", .one .localPhyErrorsThreshold, .uint8, true⟩,
  ⟨"overrun_errors_threshold", .one .overrunErrorsThreshold, .uint8, true⟩,
  ⟨"use_mfttop", .one .useMfttop, .boolean, true⟩,
  ⟨"sminfo_polling_timeout", .one .sminfoPollingTimeout, .uint32, true⟩,
  ⟨"polling_retry_number", .one .pollingRetryNumber, .uint32, true⟩,
  ⟨"force_heavy_sweep", .one .forceHeavySweep, .boolean, true⟩,
  ⟨"port_prof_ignore_file", .one .portProfIgnoreFile, .charp, false⟩,
  ⟨"hop_weights_file", .one .hopWeightsFile, .charp, false⟩,
  ⟨"dimn_ports_file", .one .portSearchOrderingFile, .charp, false⟩,
  ⟨"port_search_ordering_file", .one .portSearchOrderingFile, .charp, false⟩,
  ⟨"port_profile_switch_nodes", .one .portProfileSwitchNodes, .boolean, true⟩,
  ⟨"sweep_on_trap", .one .sweepOnTrap, .boolean, true⟩,
  ⟨"routing_engine", .one .routingEngineNames, .charp, false⟩,
  ⟨"avoid_throttled_links", .one .avoidThrottledLinks, .boolean, false⟩,
  ⟨"connect_roots", .one .connectRoots, .boolean, true⟩,
  ⟨"use_ucast_cache", .one .useUcastCache, .boolean, false⟩,
  ⟨"log_file", .one .logFile, .charp, false⟩,
  ⟨"log_max_size", .one .logMaxSize, .uint32, true⟩,
  ⟨"log_flags", .one .logFlags, .uint8, true⟩,
  ⟨"force_log_flush", .one .forceLogFlush, .boolean, true⟩,
  ⟨"accum_log_file", .one .accumLogFile, .boolean, true⟩,
  ⟨"partition_config_file", .one .partitionConfigFile, .charp, false⟩,
  ⟨"no_partition_enforcement", .one .noPartitionEnforcement, .boolean, true⟩,
  ⟨"part_enforce", .one .partEnforce, .charp, true⟩,
  ⟨"allow_both_pkeys", .one .allowBothPkeys, .boolean, false⟩,
  ⟨"keep_pkey_indexes", .one .keepPkeyIndexes, .boolean, true⟩,
  ⟨"sm_assigned_guid", .one .smAssignedGuid, .uint8, true⟩,
  ⟨"qos", .one .qos, .boolean, true⟩,
  ⟨"qos_policy_file", .one .qosPolicyFile, .charp, false⟩,
  ⟨"suppress_sl2vl_mad_status_errors", .one .suppressSl2vlMadStatusErrors, .boolean, true⟩,
  ⟨"dump_files_dir", .one .dumpFilesDir, .charp, false⟩,
  ⟨"lid_matrix_dump_file", .one .lidMatrixDumpFile, .charp, false⟩,
  ⟨"lfts_file", .one .lftsFile, .charp, false⟩,
  ⟨"root_guid_file", .one .rootGuidFile, .charp, false⟩,
  ⟨"cn_guid_file", .one .cnGuidFile, .charp, false⟩,
  ⟨"io_guid_file", .one .ioGuidFile, .charp, false⟩,
  ⟨"port_shifting", .one .portShifting, .boolean, true⟩,
  ⟨"scatter_ports", .one .scatterPorts, .uint32, true⟩,
  ⟨"max_reverse_hops", .one .maxReverseHops, .uint16, false⟩,
  ⟨"ids_guid_file", .one .idsGuidFile, .charp, false⟩,
  ⟨"guid_routing_order_file", .one .guidRoutingOrderFile, .charp, false⟩,
  ⟨"guid_routing_order_no_scatter", .one .guidRoutingOrderNoScatter, .boolean, false⟩,
  ⟨"sa_db_file", .one .saDbFile, .charp, false⟩,
  ⟨"sa_db_dump", .one .saDbDump, .boolean, true⟩,
  ⟨"torus_config", .one .torusConfFile, .charp, true⟩,
  ⟨"do_mesh_analysis", .one .doMeshAnalysis, .boolean, true⟩,
  ⟨"exit_on_fatal", .one .exitOnFatal, .boolean, true⟩,
  ⟨"honor_guid2lid_file", .one .honorGuid2lidFile, .boolean, true⟩,
  ⟨"daemon", .one .daemon, .boolean, false⟩,
  ⟨"sm_inactive", .one .smInactive, .boolean, true⟩,
  ⟨"babbling_port_policy", .one .babblingPortPolicy, .boolean, true⟩,
  ⟨"drop_event_subscriptions", .one .dropEventSubscriptions, .boolean, true⟩,
  ⟨"ipoib_mcgroup_creation_validation", .one .ipoibMcgroupCreationValidation, .boolean, true⟩,
  ⟨"mcgroup_join_validation", .one .mcgroupJoinValidation, .boolean, true⟩,
  ⟨"use_original_extended_sa_rates_only", .one .useOriginalExtendedSaRatesOnly, .boolean, true⟩,
  ⟨"max_rate_enum", .one .maxRateEnum, .uint8, true⟩,
  ⟨"use_optimized_slvl", .one .useOptimizedSlvl, .boolean, true⟩,
  ⟨"fsync_high_avail_files", .one .fsyncHighAvailFiles, .boolean, true⟩,
  ⟨"perfmgr", .one .perfmgr, .boolean, false⟩,
  ⟨"perfmgr_redir", .one .perfmgrRedir, .boolean, false⟩,
  ⟨"perfmgr_sweep_time_s", .one .perfmgrSweepTimeS, .uint16, false⟩,
  ⟨"perfmgr_max_outstanding_queries", .one .perfmgrMaxOutstandingQueries, .uint32, false⟩,
  ⟨"perfmgr_ignore_cas", .one .perfmgrIgnoreCas, .boolean, false⟩,
  ⟨"event_db_dump_file", .one .eventDbDumpFile, .charp, false⟩,
  ⟨"perfmgr_rm_nodes", .one .perfmgrRmNodes, .boolean, false⟩,
  ⟨"perfmgr_log_errors", .one .perfmgrLogErrors, .boolean, false⟩,
  ⟨"perfmgr_query_cpi", .one .perfmgrQueryCpi, .boolean, false⟩,
  ⟨"perfmgr_xmit_wait_log", .one .perfmgrXmitWaitLog, .boolean, false⟩,
  ⟨"perfmgr_xmit_wait_threshold", .one .perfmgrXmitWaitThreshold, .uint32, false⟩,
  ⟨"event_plugin_name", .one .eventPluginName, .charp, false⟩,
  ⟨"event_plugin_options", .one .eventPluginOptions, .charp, false⟩,
  ⟨"node_name_map_name", .one .nodeNameMapName, .charp, false⟩,
  ⟨"qos_max_vls", .qosOptions .qos .maxVls, .uint32, true⟩,
  ⟨"qos_high_limit", .qosOptions .qos .highLimit, .int32, true⟩,
  ⟨"qos_vlarb_high", .qosOptions .qos .vlarbHigh, .charp, true⟩,
  ⟨"qos_vlarb_low", .qosOptions .qos .vlarbLow, .charp, true⟩,
  ⟨"qos_sl2vl", .qosOptions .qos .sl2vl, .charp, true⟩,
  ⟨"qos_ca_max_vls", .qosOptions .ca .maxVls, .uint32, true⟩,
  ⟨"qos_ca_high_limit", .qosOptions .ca .highLimit, .int32, true⟩,
  ⟨"qos_ca_vlarb_high", .qosOptions .ca .vlarbHigh, .charp, true⟩,
  ⟨"qos_ca_vlarb_low", .qosOptions .ca .vlarbLow, .charp, true⟩,
  ⟨"qos_ca_sl2vl", .qosOptions .ca .sl2vl, .charp, true⟩,
  ⟨"qos_sw0_max_vls", .qosOptions .sw0 .maxVls, .uint32, true⟩,
  ⟨"qos_sw0_high_limit", .qosOptions .sw0 .highLimit, .int32, true⟩,
  ⟨"qos_sw0_vlarb_high", .qosOptions .sw0 .vlarbHigh, .charp, true⟩,
  ⟨"qos_sw0_vlarb_low", .qosOptions .sw0 .vlarbLow, .charp, true⟩,
  ⟨"qos_sw0_sl2vl", .qosOptions .sw0 .sl2vl, .charp, true⟩,
  ⟨"qos_swe_max_vls", .qosOptions .swe .maxVls, .uint32, true⟩,
  ⟨"qos_swe_high_limit", .qosOptions .swe .highLimit, .int32, true⟩,
  ⟨"qos_swe_vlarb_high", .qosOptions .swe .vlarbHigh, .charp, true⟩,
  ⟨"qos_swe_vlarb_low", .qosOptions .swe .vlarbLow, .charp, true⟩,
  ⟨"qos_swe_sl2vl", .qosOptions .swe .sl2vl, .charp, true⟩,
  ⟨"qos_rtr_max_vls", .qosOptions .rtr .maxVls, .uint32, true⟩,
  ⟨"qos_rtr_high_limit", .qosOptions .rtr .highLimit, .int32, true⟩,
  ⟨"qos_rtr_vlarb_high", .qosOptions .rtr .vlarbHigh, .charp, true⟩,
  ⟨"qos_rtr_vlarb_low", .qosOptions .rtr .vlarbLow, .charp, true⟩,
  ⟨"qos_rtr_sl2vl", .qosOptions .rtr .sl2vl, .charp, true⟩,
  ⟨"congestion_control", .one .congestionControl, .boolean, true⟩,
  ⟨"cc_key", .one .ccKey, .net64, false⟩,
  ⟨"cc_max_outstanding_mads", .one .ccMaxOutstandingMads, .uint32, false⟩,
  ⟨"cc_sw_cong_setting_control_map", .one .ccSwCongSettingControlMap, .net32, true⟩,
  ⟨"cc_sw_cong_setting_victim_mask", .one .ccSwCongSettingVictimMask, .mask256, true⟩,
  ⟨"cc_sw_cong_setting_credit_mask", .one .ccSwCongSettingCreditMask, .mask256, true⟩,
  ⟨"cc_sw_cong_setting_threshold", .one .ccSwCongSettingThreshold, .uint8, true⟩,
  ⟨"cc_sw_cong_setting_packet_size", .one .ccSwCongSettingPacketSize, .uint8, true⟩,
  ⟨"cc_sw_cong_setting_credit_starvation_threshold", .one .ccSwCongSettingCreditStarvationThreshold, .uint8, true⟩,
  ⟨"cc_sw_cong_setting_credit_starvation_return_delay", .one .ccSwCongSettingCreditStarvationReturnDelay,
      .cctEntry, true⟩,
  ⟨"cc_sw_cong_setting_marking_rate", .one .ccSwCongSettingMarkingRate, .net16, true⟩,
  ⟨"cc_ca_cong_setting_port_control", .one .ccCaCongSettingPortControl, .net16, true⟩,
  ⟨"cc_ca_cong_setting_control_map", .one .ccCaCongSettingControlMap, .net16, true⟩,
  ⟨"cc_ca_cong_setting_ccti_timer", .ccCaCongEntries 0 .cctiTimer, .cctiTimer, true⟩,
  ⟨"cc_ca_cong_setting_ccti_increase", .ccCaCongEntries 0 .cctiIncrease, .cctiIncrease, true⟩,
  ⟨"cc_ca_cong_setting_trigger_threshold", .ccCaCongEntries 0 .triggerThreshold, .triggerThreshold, true⟩,
  ⟨"cc_ca_cong_setting_ccti_min", .ccCaCongEntries 0 .cctiMin, .cctiMin, true⟩,
  ⟨"cc_cct", .one .ccCct, .ccCct, true⟩,
  ⟨"enable_quirks", .one .enableQuirks, .boolean, true⟩,
  ⟨"no_clients_rereg", .one .noClientsRereg, .boolean, true⟩,
  ⟨"prefix_routes_file", .one .prefixRoutesFile, .charp, false⟩,
  ⟨"consolidate_ipv6_snm_req", .one .consolidateIpv6SnmReq, .boolean, true⟩,
  ⟨"lash_start_vl", .one .lashStartVl, .uint8, true⟩,
  ⟨"sm_sl", .one .smSl, .uint8, true⟩,
  ⟨"nue_max_num_vls", .one .nueMaxNumVls, .uint8, true⟩,
  ⟨"nue_include_switches", .one .nueIncludeSwitches, .boolean, false⟩,
  ⟨"log_prefix", .one .logPrefix, .charp, true⟩,
  ⟨"per_module_logging_file", .one .perModuleLoggingFile, .charp, false⟩,
  ⟨"quasi_ftree_indexing", .one .quasiFtreeIndexing, .boolean, true⟩]

def lookup (key : Str) : Option OptRec := optTbl.find? fun r => r.name.toList = key

def updatable : List Field := (optTbl.filter (·.canUpdate)).flatMap OptRec.fields

section Lines

def nul : Char := '\x00'

def cleanVal (s : Str) : Str :=
  let v := (s.dropWhile isSpace).rdropWhile isSpace
  if (v.head? = some '"' ∧ v.getLast? = some '"') ∨
      (v.head? = some '\'' ∧ v.getLast? = some '\'') then v.tail.dropLast
  else v

/-- The first word of a line and its value; the text after a pound sign is a comment. -/
def confLine (line : Str) : Option (Str × Str) :=
  (strtok [' ', '\t', '\n'] (line.takeWhile fun c => c ≠ nul ∧ c ≠ '#')).map fun (key, val) => (key, cleanVal val)

/-- `while (fgets(line, 1023, opts_file) != NULL)`; the first argument bounds the number of lines. -/
def readLines : ℕ → Str → List Str
  | 0, _ => []
  | k + 1, s =>
    match fgets 1023 s with
    | none => []
    | some (line, s) => line :: readLines k s

def confLines (text : Str) : List (Str × Str) := (readLines text.length text).filterMap confLine

end Lines

end OpenSM.SubnOpt
