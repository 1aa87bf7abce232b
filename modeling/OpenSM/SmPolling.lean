import Mathlib
import OpenSM.Lib.Runs
import OpenSM.SmStateMgr

/-! A standby SM is watched over by its polling timer. The timer thread, the sweeper thread and the threads that
process SMInfo take turns, where `state_lock` and `p_lock` let them. -/

namespace OpenSM.SmStateMgr

open Lib.Runs

/-- Where the timer thread is in `osm_sm_state_mgr_polling_callback`. -/
inductive CallbackPc
  | idle
  | begun
  | read (smState : SmState)
  | restartTimer
  | timeout
  deriving DecidableEq

/-- `requests` and `signals` are the SubnSet(SMInfo) that were answered and not acted upon: before the master is
stored, and before `osm_sm_state_mgr_process` is called. -/
structure State where
  sm : Sm
  exitFlag : Bool
  callback : CallbackPc
  sweeper : SweepPc
  requests : List SetRequest
  signals : List Signal

def boot (smInactive : Bool) : State where
  sm :=
    { smState := if smInactive then .notActive else .discovering
      masterSmGuid := 0
      pollingSmGuid := 0
      retryNumber := 0
      masterSmFound := false
      pollingTimer := false
      sweepSignal := false
      forceHeavySweep := false
      forceFirstTimeMasterSweep := false
      firstTimeMasterSweep := false
      comingOutOfStandby := false
      ignoreExistingLfts := false
      smBaseLid := 0
      masterSmBaseLid := 0
      smGuidTbl := ∅
      portGuidTbl := ∅
      mads := [] }
  exitFlag := false
  callback := .idle
  sweeper := .idle
  requests := []
  signals := []

inductive Act
  | signalSweep
  | forceHeavySweep
  | sweep (i : SweepInput)
  | endport (guid : Guid) (mKey : ℕ) (isSm ok : Bool)
  | dropPort (guid : Guid)
  | setRequest (r : SetRequest)
  | storeMaster (r : SetRequest)
  | signal (sig : Signal) (ok : Bool)
  | getResponse (r : GetResponse)
  | timerExpires
  | callback (ok : Bool)
  -- `opts_setup_sminfo_polling_timeout`
  | setupPollingTimeout
  | exit

variable (opt : Opt)

def stepCallback (s : State) (ok : Bool) : Option State :=
  match s.callback with
  | .idle => none
  | .begun => some { s with callback := .read s.sm.smState }
  | .read smState =>
    match pollingCallback opt s.sm s.exitFlag smState ok with
    | (sm, .stopped) => some { s with sm := sm, callback := .idle }
    | (sm, .restartTimer) => some { s with sm := sm, callback := .restartTimer }
    | (sm, .timeout) => some { s with sm := sm, callback := .timeout }
  | .restartTimer => some { s with sm := { s.sm with pollingTimer := true }, callback := .idle }
  | .timeout => some { s with sm := (process opt s.sm .pollingTimeout ok).1, callback := .idle }

def step (s : State) : Act → Option State
  | .signalSweep => some { s with sm := s.sm.signalSweep }
  | .forceHeavySweep => some { s with sm := { s.sm with forceHeavySweep := true } }
  | .sweep i =>
    some { s with sm := (doSweep opt s.sm i s.sweeper).1, sweeper := (doSweep opt s.sm i s.sweeper).2 }
  | .endport guid mKey isSm ok => some { s with sm := processEndport opt s.sm guid mKey isSm ok }
  | .dropPort guid => some { s with sm := SmStateMgr.dropPort s.sm guid }
  | .setRequest r =>
    (acceptSet opt s.sm r).map fun _ => { s with requests := r :: s.requests }
  | .storeMaster r =>
    if r ∈ s.requests then
      some { s with
        sm := SmStateMgr.storeMaster s.sm r, requests := s.requests.erase r,
        signals := r.signal.toList ++ s.signals }
    else none
  | .signal sig ok =>
    if sig ∈ s.signals then
      some { s with sm := (process opt s.sm sig ok).1, signals := s.signals.erase sig }
    else none
  | .getResponse r => some { s with sm := processGetResponse opt s.sm r }
  | .timerExpires =>
    if s.sm.pollingTimer ∧ s.callback = .idle then
      some { s with sm := { s.sm with pollingTimer := false }, callback := .begun }
    else none
  | .callback ok => stepCallback opt s ok
  | .setupPollingTimeout => some { s with sm := { s.sm with pollingTimer := true } }
  | .exit => some { s with exitFlag := true }

variable {opt}

section Watch

def Sm.watch (sm : Sm) : SmState × Bool × UInt32 := (sm.smState, sm.pollingTimer, sm.retryNumber)

/-- Whoever enters STANDBY starts the timer, nobody stops it, and an SM that stays STANDBY keeps its count. -/
structure Kept (sm sm' : Sm) : Prop where
  armed : sm'.smState = .standby → sm.smState = .standby ∨ sm'.pollingTimer = true
  timer : sm.pollingTimer = true → sm'.pollingTimer = true
  retryNumber : sm.smState = .standby → sm'.smState = .standby → sm'.retryNumber = sm.retryNumber

variable {sm sm' : Sm}

lemma watch_eq : sm'.watch = sm.watch ↔
    sm'.smState = sm.smState ∧ sm'.pollingTimer = sm.pollingTimer ∧ sm'.retryNumber = sm.retryNumber := by
  simp [Sm.watch]

lemma Kept.of_watch (h : sm'.watch = sm.watch) : Kept sm sm' := by
  obtain ⟨hst, ht, hr⟩ := watch_eq.mp h
  exact ⟨fun h => .inl (hst ▸ h), fun h => ht.trans h, fun _ _ => hr⟩

lemma Kept.congr {sm'' : Sm} (h : Kept sm sm') (hw : sm''.watch = sm'.watch) : Kept sm sm'' := by
  obtain ⟨hst, ht, hr⟩ := watch_eq.mp hw
  refine ⟨fun hs => ?_, fun hs => ht.trans (h.timer hs), fun hs hs' => hr.trans (h.retryNumber hs (hst ▸ hs'))⟩
  rw [ht]
  exact h.armed (hst ▸ hs)

@[simp] lemma watch_send (m : Mad) : (sm.send m).watch = sm.watch := rfl

@[simp] lemma watch_sendMasterSmInfoReq (st : SmState) (ok : Bool) :
    (sendMasterSmInfoReq opt sm st ok).1.watch = sm.watch := by
  rw [sendMasterSmInfoReq]
  split_ifs <;> rfl

@[simp] lemma watch_osmSendTrap144 (b : Bool) : (osmSendTrap144 opt sm b).watch = sm.watch := by
  rw [osmSendTrap144]
  split_ifs <;> rfl

@[simp] lemma watch_sendHandover (smi : SmInfo) (ok : Bool) : (sendHandover opt sm smi ok).watch = sm.watch := by
  rw [sendHandover]
  split_ifs <;> rfl

@[simp] lemma watch_querySmInfo : (querySmInfo sm).watch = sm.watch := by
  rw [querySmInfo]
  generalize sm.smGuidTbl.entries.map Prod.fst = l
  induction l generalizing sm with
  | nil => rfl
  | cons g l ih =>
    rw [List.foldl_cons, ih]
    split_ifs <;> rfl

@[simp] lemma watch_processEndport (guid : Guid) (mKey : ℕ) (isSm ok : Bool) :
    (processEndport opt sm guid mKey isSm ok).watch = sm.watch := by
  rw [processEndport]
  simp only
  split_ifs <;> rfl

@[simp] lemma watch_dropPort (guid : Guid) : (dropPort sm guid).watch = sm.watch := rfl

@[simp] lemma watch_storeMaster (r : SetRequest) : (storeMaster sm r).watch = sm.watch := by
  rw [storeMaster]
  split_ifs <;> rfl

lemma process_kept (sig : Signal) (ok : Bool) : Kept sm (process opt sm sig ok).1 := by
  have hself : Kept sm sm := .of_watch rfl
  have hpoll (sm₁ : Sm) (h : sm.smState ≠ .standby) : Kept sm (startPolling opt sm₁ ok) :=
    ⟨fun _ => .inr rfl, fun _ => rfl, fun hs => absurd hs h⟩
  have hleave (sm₁ : Sm) (h : sm₁.smState ≠ .standby) (ht : sm₁.pollingTimer = sm.pollingTimer) : Kept sm sm₁ :=
    ⟨fun hs => absurd hs h, fun hs => ht.trans hs, fun _ hs => absurd hs h⟩
  have hother {st : SmState} (h : sm.smState = st) (hne : st ≠ .standby) : sm.smState ≠ .standby := by rwa [h]
  unfold process
  split
  case h_1 => exact hleave _ nofun rfl
  case h_2 hst => exact hpoll _ (hother hst nofun)
  case h_3 => exact .of_watch rfl
  case h_4 | h_5 | h_6 | h_7 => exact hleave _ nofun rfl
  case h_8 => exact hself
  case h_9 hst => exact hpoll _ (hother hst nofun)
  case h_10 | h_11 => exact .of_watch rfl
  case h_12 hst | h_13 hst => exact hpoll _ (hother hst nofun)
  case h_14 => exact hleave _ nofun rfl
  case h_15 | h_16 => exact hself

lemma doSweep_kept (i : SweepInput) (pc : SweepPc) : Kept sm (doSweep opt sm i pc).1 := by
  cases pc with
  | signal sig =>
    have h : Kept sm (process opt sm sig i.ok).1 := process_kept sig i.ok
    cases sig with
    | masterOrHigherSmDetected => exact h.congr (watch_osmSendTrap144 false)
    | _ => exact h
  | start =>
    apply Kept.of_watch
    simp only [doSweep]
    split_ifs <;> first | rfl | exact watch_querySmInfo
  | remoteSms =>
    apply Kept.of_watch
    simp only [doSweep]
    by_cases hm : sm.smState = .master
    · rw [if_pos hm]
      split <;> first | rfl | exact watch_sendHandover _ _
    · rw [if_neg hm]
  | heavySweep => exact .of_watch rfl
  | _ =>
    apply Kept.of_watch
    simp only [doSweep]
    split_ifs <;> rfl

end Watch

section Steps

variable {s s' : State} {a : Act}

/-- A SubnGet(SMInfo) response that is processed and is from a MASTER or from the SM that a standby SM polls. -/
def masterAlive (opt : Opt) (s : State) : Act → Bool
  | .getResponse r => acceptResponse opt s.sm r && (r.smi.state = .master || r.smi.guid = s.sm.masterSmGuid)
  | _ => false

/-- A callback of a standby SM, which has its retries left, sends its request, and no exit is requested. -/
def polls (opt : Opt) (s : State) : Act → Bool
  | .callback ok =>
    s.callback ≠ .read .standby ||
      (!s.exitFlag && (decide (opt.pollingRetryNumber < s.sm.retryNumber) || s.sm.canPoll opt .standby && ok))
  | _ => true

def Act.onTimer : Act → Bool
  | .timerExpires | .callback _ => true
  | _ => false

lemma processGetSm_watch (sm : Sm) (smi : SmInfo) (light : Bool) :
    (processGetSm opt sm smi light).smState = sm.smState ∧
      (processGetSm opt sm smi light).pollingTimer = sm.pollingTimer := by
  have htrap (sm₁ : Sm) := watch_eq.mp (@watch_osmSendTrap144 opt sm₁ true)
  unfold processGetSm
  split <;> (try split) <;> (try split_ifs) <;> simp [signalMasterIsAlive, htrap]

lemma processGetSm_retryNumber {sm : Sm} {smi : SmInfo} {light : Bool} (hs : sm.smState = .standby)
    (hm : smi.state ≠ .master) (hg : smi.guid ≠ sm.masterSmGuid) : processGetSm opt sm smi light = sm := by
  rw [processGetSm, hs]
  cases hsmi : smi.state with
  | master => exact absurd hsmi hm
  | standby => exact if_neg fun h => hg h.1.symm
  | _ => rfl

/-- Outside the timer thread, and without a sign of life of the master, the polling stays as it is. -/
lemma step_kept (h : step opt s a = some s') (ht : a.onTimer = false) (ha : masterAlive opt s a = false) :
    Kept s.sm s'.sm := by
  have hrefl : Kept s.sm s.sm := .of_watch rfl
  cases a with
  | timerExpires | callback => cases ht
  | signalSweep | forceHeavySweep | exit => cases h; exact .of_watch rfl
  | sweep i => cases h; exact doSweep_kept i s.sweeper
  | endport guid mKey isSm ok => cases h; exact .of_watch (watch_processEndport guid mKey isSm ok)
  | dropPort guid => cases h; exact .of_watch (watch_dropPort guid)
  | setRequest r =>
    obtain ⟨_, _, rfl⟩ := Option.map_eq_some_iff.mp h
    exact hrefl
  | storeMaster r =>
    obtain ⟨_, ⟨⟩⟩ := Option.ite_none_right_eq_some.mp h
    exact .of_watch (watch_storeMaster r)
  | signal sig ok =>
    obtain ⟨_, ⟨⟩⟩ := Option.ite_none_right_eq_some.mp h
    exact process_kept sig ok
  | setupPollingTimeout => cases h; exact ⟨.inl, fun _ => rfl, fun _ _ => rfl⟩
  | getResponse r =>
    cases h
    obtain ⟨hst, htm⟩ := @processGetSm_watch opt (s.sm.putRemoteSm r.smi) r.smi r.lightSweep
    simp only [processGetResponse]
    split_ifs with hacc
    · refine ⟨fun h => .inl (hst.symm.trans h), fun h => htm.trans h, fun hs _ => ?_⟩
      simp only [masterAlive, hacc, Bool.true_and, Bool.or_eq_false_iff, decide_eq_false_iff_not] at ha
      rw [@processGetSm_retryNumber opt (s.sm.putRemoteSm r.smi) _ _ hs ha.1 ha.2]
      rfl
    · exact hrefl

lemma step_armed (h : step opt s a = some s') (ht : a.onTimer = false) :
    (s'.sm.smState = .standby → s.sm.smState = .standby ∨ s'.sm.pollingTimer = true) ∧
      (s.sm.pollingTimer = true → s'.sm.pollingTimer = true) := by
  cases ha : masterAlive opt s a with
  | false => exact ⟨(step_kept h ht ha).armed, (step_kept h ht ha).timer⟩
  | true =>
    cases a with
    | getResponse r =>
      cases h
      obtain ⟨hst, htm⟩ := @processGetSm_watch opt (s.sm.putRemoteSm r.smi) r.smi r.lightSweep
      simp only [processGetResponse]
      split_ifs
      · exact ⟨fun h => .inl (hst.symm.trans h), fun h => htm.trans h⟩
      · exact ⟨.inl, id⟩
    | _ => cases ha

lemma step_callback (h : step opt s a = some s') (ht : a.onTimer = false) :
    s'.callback = s.callback ∧ (s.exitFlag = true → s'.exitFlag = true) := by
  cases a with
  | timerExpires | callback => cases ht
  | setRequest r =>
    obtain ⟨_, _, rfl⟩ := Option.map_eq_some_iff.mp h
    exact ⟨rfl, id⟩
  | storeMaster | signal =>
    obtain ⟨_, ⟨⟩⟩ := Option.ite_none_right_eq_some.mp h
    exact ⟨rfl, id⟩
  | exit => cases h; exact ⟨rfl, fun _ => rfl⟩
  | _ => cases h; exact ⟨rfl, id⟩

lemma process_pollingTimeout (sm : Sm) (ok : Bool) : (process opt sm .pollingTimeout ok).1.smState ≠ .standby := by
  unfold process
  cases hst : sm.smState <;> simp [Sm.signalSweep, hst]

lemma pollingCallback_cases (sm : Sm) (exitFlag : Bool) (st : SmState) (ok : Bool) :
    pollingCallback opt sm exitFlag st ok = (sm, .stopped) ∧ (st = .standby → exitFlag = true) ∨
      pollingCallback opt sm exitFlag st ok = (sm, .timeout) ∧ opt.pollingRetryNumber < sm.retryNumber ∨
        ∃ sm', pollingCallback opt sm exitFlag st ok = (sm', .restartTimer) ∧
          ¬ opt.pollingRetryNumber < sm.retryNumber ∧
            ((sm.canPoll opt st && ok) = true → sm'.retryNumber = sm.retryNumber + 1) ∧
              ((sm.canPoll opt st && ok) = false → sm' = sm) := by
  unfold pollingCallback
  split_ifs with hpoll hexit hretry
  · exact .inl ⟨rfl, fun _ => hexit.2⟩
  · exact .inr (.inl ⟨rfl, hretry⟩)
  · cases hsent : sm.canPoll opt st && ok with
    | true => exact .inr (.inr ⟨_, by rw [sendMasterSmInfoReq, if_pos hsent], hretry, fun _ => rfl, nofun⟩)
    | false =>
      have hfail : sendMasterSmInfoReq opt sm st ok = (sm, false) := by
        rw [sendMasterSmInfoReq, if_neg (by rw [hsent]; decide)]
      exact .inr (.inr ⟨_, by rw [hfail], hretry, nofun, fun _ => rfl⟩)
  · exact .inl ⟨rfl, fun h => absurd (.inr h) hpoll⟩

end Steps

section Supervision

/-- A standby SM has its polling timer armed, or the callback runs. -/
def Watched (s : State) : Prop :=
  s.sm.smState = .standby → s.exitFlag = false → s.sm.pollingTimer = true ∨ s.callback ≠ .idle

/-- A callback that is under way sees that the SM is in STANDBY, unless the timer is armed. -/
def WatchInv (s : State) : Prop :=
  s.sm.smState = .standby → s.exitFlag = false →
    s.sm.pollingTimer = true ∨ s.callback ∈ [.begun, .read .standby, .restartTimer, .timeout]

variable {s s' : State} {a : Act}

lemma WatchInv.watched (h : WatchInv s) : Watched s := by
  intro hs he
  refine (h hs he).imp_right fun hmem hidle => ?_
  rw [hidle] at hmem
  revert hmem
  decide

lemma WatchInv.step (hi : WatchInv s) (h : step opt s a = some s') : WatchInv s' := by
  cases ht : a.onTimer with
  | false =>
    obtain ⟨harm, htm⟩ := step_armed h ht
    obtain ⟨hcb, hex⟩ := step_callback h ht
    intro hs he
    have he' : s.exitFlag = false := by
      by_contra hne
      rw [hex (by simpa using hne)] at he
      cases he
    rw [hcb]
    obtain hst | hst := harm hs
    · exact (hi hst he').imp_left htm
    · exact .inl hst
  | true =>
    cases a with
    | timerExpires =>
      obtain ⟨_, ⟨⟩⟩ := Option.ite_none_right_eq_some.mp h
      exact fun _ _ => .inr (by simp)
    | callback ok =>
      simp only [SmStateMgr.step, stepCallback] at h
      cases hcb : s.callback with
      | idle => simp [hcb] at h
      | begun =>
        simp only [hcb, Option.some.injEq] at h
        subst h
        exact fun hs _ => .inr (by simpa using hs)
      | read st =>
        obtain ⟨hp, hex⟩ | ⟨hp, -⟩ | ⟨_, hp, -⟩ := @pollingCallback_cases opt s.sm s.exitFlag st ok
        · simp only [hcb, hp, Option.some.injEq] at h
          subst h
          intro hs he
          -- the callback has read another state than STANDBY, so the timer is armed since
          refine .inl ((hi hs he).resolve_right ?_)
          simp only [hcb, List.mem_cons, CallbackPc.read.injEq, reduceCtorEq, List.not_mem_nil, or_false, false_or]
          intro hst
          simp [hex hst] at he
        · simp only [hcb, hp, Option.some.injEq] at h
          subst h
          exact fun _ _ => .inr (by simp)
        · simp only [hcb, hp, Option.some.injEq] at h
          subst h
          exact fun _ _ => .inr (by simp)
      | restartTimer =>
        simp only [hcb, Option.some.injEq] at h
        subst h
        exact fun _ _ => .inl rfl
      | timeout =>
        simp only [hcb, Option.some.injEq] at h
        subst h
        exact fun hs _ => absurd hs (process_pollingTimeout s.sm ok)
    | _ => cases ht

lemma Run.watched {inactive : Bool} {l : List (State × Act)} (h : Run (step opt) (boot inactive) l s) :
    Watched s := by
  apply WatchInv.watched
  refine h.always (P := WatchInv) ?_ fun _ _ _ hi ha => hi.step ha
  intro hs
  cases inactive <;> cases hs

/-- What the counter has reached after `f` expiries of the timer of an SM that has been in STANDBY all the time. -/
def Counted (opt : Opt) (f : ℕ) (s : State) : Prop :=
  match s.callback with
  | .idle | .restartTimer => f ≤ s.sm.retryNumber.toNat ∧ f ≤ opt.pollingRetryNumber.toNat + 1
  | .begun | .read .standby => f ≤ s.sm.retryNumber.toNat + 1
  | .read _ => f = 0
  | .timeout => True

def isExpiry : Act → Bool
  | .timerExpires => true
  | _ => false

lemma Counted.zero : Counted opt 0 s := by
  rw [Counted]
  split <;> simp

lemma toNat_add_one {n m : UInt32} (hm : m.toNat < 2 ^ 32 - 1) (h : ¬ m < n) : (n + 1).toNat = n.toNat + 1 := by
  rw [UInt32.not_lt, UInt32.le_iff_toNat_le] at h
  rw [UInt32.toNat_add, UInt32.toNat_one]
  omega

lemma Counted.step {f : ℕ} (hn : opt.pollingRetryNumber.toNat < 2 ^ 32 - 1) (hc : Counted opt f s)
    (h : step opt s a = some s') (hs : s.sm.smState = .standby) (hs' : s'.sm.smState = .standby)
    (ha : masterAlive opt s a = false) (hp : polls opt s a = true) :
    Counted opt (f + if isExpiry a then 1 else 0) s' := by
  cases ht : a.onTimer with
  | false =>
    have hexp : isExpiry a = false := by cases a <;> first | rfl | cases ht
    rw [hexp]
    simpa [Counted, (step_callback h ht).1, (step_kept h ht ha).retryNumber hs hs'] using hc
  | true =>
    cases a with
    | timerExpires =>
      obtain ⟨⟨-, hidle⟩, ⟨⟩⟩ := Option.ite_none_right_eq_some.mp h
      rw [Counted, hidle] at hc
      simpa [Counted, isExpiry] using hc.1
    | callback ok =>
      simp only [SmStateMgr.step, stepCallback] at h
      cases hcb : s.callback with
      | idle => simp [hcb] at h
      | begun =>
        simp only [hcb, Option.some.injEq] at h
        subst h
        rw [Counted, hcb] at hc
        simpa [Counted, isExpiry, hs] using hc
      | read st =>
        by_cases hst : st = .standby
        · subst hst
          simp only [Counted, hcb] at hc
          simp only [polls, hcb, ne_eq, not_true, decide_false, Bool.false_or, Bool.and_eq_true, Bool.not_eq_true',
            Bool.or_eq_true, decide_eq_true_iff] at hp
          obtain ⟨hr, hex⟩ | ⟨hr, -⟩ | ⟨sm', hr, hretry, hsent, -⟩ :=
            @pollingCallback_cases opt s.sm s.exitFlag .standby ok
          · rw [hex rfl] at hp
            cases hp.1
          · simp only [hcb, hr, Option.some.injEq] at h
            subst h
            trivial
          · simp only [hcb, hr, Option.some.injEq] at h
            subst h
            -- the request is sent, and the count goes up by one
            have hcount := hsent (by simpa using hp.2.resolve_left hretry)
            have hle := UInt32.le_iff_toNat_le.mp (UInt32.not_lt.mp hretry)
            simp only [Counted, isExpiry, hcount, toNat_add_one hn hretry]
            simp only [Bool.false_eq_true, if_false]
            omega
        · have hf : f = 0 := by
            rw [Counted, hcb] at hc
            cases st <;> first | exact hc | exact absurd rfl hst
          rw [hf]
          exact .zero
      | restartTimer =>
        simp only [hcb, Option.some.injEq] at h
        subst h
        rw [Counted, hcb] at hc
        simpa [Counted, isExpiry] using hc
      | timeout =>
        simp only [hcb, Option.some.injEq] at h
        subst h
        exact absurd hs' (process_pollingTimeout s.sm ok)
    | _ => cases ht

/-- The timer of `s₁` has run out `polling_retry_number` + 2 times since, all its callbacks have returned, and
nothing was heard from a MASTER or from the polled SM. -/
structure Polled (opt : Opt) (s₁ : State) (w : List (State × Act)) (s₂ : State) : Prop where
  run : Run (step opt) s₁ w s₂
  callbacks : opt.pollingRetryNumber.toNat + 2 ≤ w.countP fun x => isExpiry x.2
  returned : s₂.callback = .idle
  silent : ∀ x ∈ w, masterAlive opt x.1 x.2 = false

def LeavesStandby (w : List (State × Act)) (s : State) : Prop :=
  ∃ t ∈ w.map Prod.fst ++ [s], t.sm.smState ≠ .standby

lemma Run.counted {s₁ s₂ : State} {w : List (State × Act)} (hn : opt.pollingRetryNumber.toNat < 2 ^ 32 - 1)
    (h : Run (SmStateMgr.step opt) s₁ w s₂) (hs : ¬ LeavesStandby w s₂)
    (ha : ∀ x ∈ w, masterAlive opt x.1 x.2 = false) (hp : ∀ x ∈ w, polls opt x.1 x.2 = true) :
    Counted opt (w.countP fun x => isExpiry x.2) s₂ := by
  induction h with
  | nil => exact .zero
  | @snoc l s s' a h hstep ih =>
    simp only [LeavesStandby, not_exists, not_and, not_not, List.map_append, List.map_cons, List.map_nil,
      List.forall_mem_append, List.forall_mem_singleton] at hs
    rw [List.forall_mem_append, List.forall_mem_singleton] at ha hp
    have hc := ih (by simpa [LeavesStandby, or_imp, forall_and] using hs.1) ha.1 hp.1
    rw [List.countP_append, List.countP_singleton]
    exact hc.step hn hstep hs.1.2 hs.2 ha.2 hp.2

/-- A standby SM has its timer armed, and does not stay in STANDBY when its polls go unanswered, as long as every
callback can send its request. -/
theorem run_supervised {inactive : Bool} {l : List (State × Act)} {s : State}
    (hn : opt.pollingRetryNumber.toNat < 2 ^ 32 - 1) (h : Run (step opt) (boot inactive) l s) :
    Watched s ∧ ∀ w s', Polled opt s w s' → (∀ x ∈ w, polls opt x.1 x.2 = true) → LeavesStandby w s' := by
  refine ⟨Run.watched h, fun w s' hw hp => ?_⟩
  by_contra hs
  have hc := Run.counted hn hw.run hs hw.silent hp
  rw [Counted, hw.returned] at hc
  exact absurd (hw.callbacks.trans hc.2) (by omega)

lemma exists_polled (opt : Opt) (as bs : List Act) (p : State → List (State × Act) → State → Bool)
    (h : ((exec (SmStateMgr.step opt) (boot false) as).elim false fun s =>
      (exec (SmStateMgr.step opt) s bs).elim false fun s' =>
        decide (opt.pollingRetryNumber.toNat + 2 ≤ (trace (SmStateMgr.step opt) s bs).countP
            fun x => isExpiry x.2) &&
          decide (s'.callback = .idle) &&
            ((trace (SmStateMgr.step opt) s bs).all fun x => !masterAlive opt x.1 x.2) &&
              p s (trace (SmStateMgr.step opt) s bs) s') = true) :
    ∃ l s w s', Run (SmStateMgr.step opt) (boot false) l s ∧ Polled opt s w s' ∧ p s w s' = true := by
  have hnil (s : State) : Run (SmStateMgr.step opt) s [] s := .nil
  cases hs : exec (SmStateMgr.step opt) (boot false) as with
  | none => simp [hs] at h
  | some s =>
    cases hs' : exec (SmStateMgr.step opt) s bs with
    | none => simp [hs, hs'] at h
    | some s' =>
      simp only [hs, hs', Option.elim_some, Bool.and_eq_true, decide_eq_true_iff, List.all_eq_true,
        Bool.not_eq_true'] at h
      obtain ⟨⟨⟨hcount, hidle⟩, hsilent⟩, hp⟩ := h
      exact ⟨_, s, _, s', (hnil _).append as hs, ⟨(hnil s).append bs hs', hcount, hidle, hsilent⟩, hp⟩

def defaultOpt : Opt where
  smPriority := 0
  smKey := 1
  pollingRetryNumber := 4
  smPortGuid := 1
  capTrap := false
  ignoreOtherSm := false

def callbackActs : List Act := [.timerExpires, .callback true, .callback true, .callback true]

def sweepToStandby : List Act :=
  let i : SweepInput := ⟨false, false, false, false, true⟩
  [.signalSweep, .sweep i, .sweep i, .sweep i, .endport 1 0 true true, .sweep i, .endport 2 0 true true,
    .getResponse ⟨2, false, ⟨2, 1, 1, .master⟩⟩, .sweep i, .sweep i]

def setRequestActs (r : SetRequest) (sig : Signal) : List Act := [.setRequest r, .storeMaster r, .signal sig true]

theorem run_supervised_silent : ∃ l s w s', Run (step defaultOpt) (boot false) l s ∧ s.sm.smState = .standby ∧
    Polled defaultOpt s w s' ∧ Watched s ∧ LeavesStandby w s' := by
  obtain ⟨l, s, w, s', hl, hw, hp⟩ := exists_polled defaultOpt sweepToStandby
    (List.replicate 6 callbackActs).flatten
    (fun s w _ => decide (s.sm.smState = .standby) && w.all fun x => polls defaultOpt x.1 x.2) (by decide +kernel)
  simp only [Bool.and_eq_true, List.all_eq_true, decide_eq_true_iff] at hp
  obtain ⟨hwatched, hleaves⟩ := @run_supervised defaultOpt _ _ _ (by decide) hl
  exact ⟨l, s, w, s', hl, hp.1, hw, hwatched, hleaves w s' hw hp.2⟩

/-- SM 2 disables the SM, and SM 3, whose port was not there at the last sweep, sets it to STANDBY: there is no
request that it can send, and it does not time out. -/
theorem unknownMaster_stays : ¬ ∀ (opt : Opt) (inactive : Bool) (l : List (State × Act)) (s : State),
    Run (step opt) (boot inactive) l s → Watched s ∧ ∀ w s', Polled opt s w s' → LeavesStandby w s' := by
  intro h
  obtain ⟨l, s, w, s', hl, hw, hp⟩ := exists_polled defaultOpt
    (sweepToStandby ++ setRequestActs ⟨3, 0, 2, .master⟩ .disable ++ setRequestActs ⟨4, 0, 3, .master⟩ .standby)
    (List.replicate 6 callbackActs).flatten
    (fun _ w s' => (w.map Prod.fst ++ [s']).all fun t => t.sm.smState = .standby) (by decide +kernel)
  obtain ⟨t, ht, hne⟩ := (h defaultOpt false l s hl).2 w s' hw
  rw [List.all_eq_true] at hp
  exact hne (of_decide_eq_true (hp t ht))

end Supervision

end OpenSM.SmStateMgr
