import Mathlib
import OpenSM.Lib.Runs

/-! Congestion control: the sweep thread posts MADs and waits for them, the poller sends them and waits for room
on the wire, and the callbacks of the vendor layer and of the dispatcher count them off. Every atomic operation,
every section under `mad_queue_lock` and every event operation is a step of its own. -/

namespace OpenSM.CongestionControl

open Lib.Runs

abbrev Madw := ℕ

/-- What comes next in `decrement_outstanding_mads` after the first count. -/
inductive Stage
  | signalDone
  | decWire
  | signalContinue
  deriving DecidableEq

inductive SweepPc
  | out
  /-- in `osm_congestion_control_setup` -/
  | setup
  /-- a MAD is queued, `cl_event_signal` on `cc_poller_wakeup` comes next -/
  | posted
  /-- the loop of `osm_congestion_control_wait_pending_transactions` reads the counter next -/
  | testing
  /-- `cl_event_wait_on` comes next -/
  | waiting
  /-- in `pthread_cond_wait` -/
  | blocked
  deriving DecidableEq

inductive PollerPc
  /-- `cl_qlist_remove_head` comes next -/
  | pop
  /-- `cl_event_wait_on` on `cc_poller_wakeup` comes next -/
  | idle
  | idleBlocked
  /-- `osm_vendor_send` comes next -/
  | send (m : Madw)
  /-- in the callback that a failed `osm_vendor_send` calls -/
  | failing (st : Stage)
  /-- the MAD is sent, `cl_atomic_inc` comes next -/
  | counting
  /-- the test of the loop in `cc_poller_send` comes next -/
  | testing
  /-- `cl_event_wait_on` on `sig_mads_on_wire_continue` comes next -/
  | waiting
  | blocked
  deriving DecidableEq

structure State where
  madQueue : List Madw
  /-- the MADs that the vendor layer has taken and not completed -/
  wire : List Madw
  disp : List Madw
  outstandingMads : ℤ
  outstandingMadsOnWire : ℤ
  /-- `cc_poller_wakeup.signaled` -/
  pollerWakeup : Bool
  /-- `outstanding_mads_done_event.signaled` -/
  outstandingMadsDone : Bool
  /-- `sig_mads_on_wire_continue.signaled` -/
  madsOnWireContinue : Bool
  osmExitFlag : Bool
  sweep : SweepPc
  poller : PollerPc
  /-- the calls of `decrement_outstanding_mads` under way in the vendor layer and in the dispatcher -/
  callbacks : List Stage
  deriving DecidableEq

def init : State where
  madQueue := []
  wire := []
  disp := []
  outstandingMads := 0
  outstandingMadsOnWire := 0
  pollerWakeup := false
  outstandingMadsDone := false
  madsOnWireContinue := false
  osmExitFlag := false
  sweep := .out
  poller := .pop
  callbacks := []

inductive Act
  | setup
  | post (m : Madw)
  | wakeup
  | setupEnd
  | sweep
  | poller
  /-- `osm_vendor_send` returns `IB_SUCCESS`, or calls the error callback and returns an error -/
  | send (ok : Bool)
  /-- `cc_mad_recv_callback`, and whether `cl_disp_post` succeeds in it -/
  | recv (m : Madw) (ok : Bool)
  /-- `cc_mad_send_err_callback` for a MAD on the wire -/
  | sendErr (m : Madw)
  /-- `cc_rcv_mad` -/
  | rcvMad (m : Madw)
  | callback (st : Stage)
  | exit
  deriving DecidableEq

/-- The first count of `decrement_outstanding_mads`, and what follows it. -/
def decrementOutstandingMads (s : State) : State × Stage :=
  ({ s with outstandingMads := s.outstandingMads - 1 },
    if s.outstandingMads - 1 = 0 then .signalDone else .decWire)

def Stage.run (s : State) : Stage → State × Option Stage
  | .signalDone => ({ s with outstandingMadsDone := true }, some .decWire)
  | .decWire => ({ s with outstandingMadsOnWire := s.outstandingMadsOnWire - 1 }, some .signalContinue)
  | .signalContinue => ({ s with madsOnWireContinue := true }, none)

/-- A callback of the vendor layer or of the dispatcher comes to `decrement_outstanding_mads`. -/
def countOff (s : State) : State :=
  { (decrementOutstandingMads s).1 with callbacks := (decrementOutstandingMads s).2 :: s.callbacks }

/-- `osm_congestion_control_wait_pending_transactions`. An untimed wait may also wake up without a signal. -/
def waitPendingTransactions (s : State) : Option State :=
  match s.sweep with
  | .testing =>
    some (if s.outstandingMads = 0 ∨ s.osmExitFlag then { s with sweep := .out } else { s with sweep := .waiting })
  | .waiting =>
    some (if s.outstandingMadsDone then { s with outstandingMadsDone := false, sweep := .testing }
      else { s with sweep := .blocked })
  | .blocked => some { s with outstandingMadsDone := false, sweep := .testing }
  | .out | .setup | .posted => none

variable (ccMaxOutstandingMads : BitVec 32)

/-- `cc_poller` and `cc_poller_send` but for the call of `osm_vendor_send`. The option is cast to `int32_t`. -/
def ccPoller (s : State) : Option State :=
  match s.poller with
  | .pop =>
    match s.madQueue with
    | m :: q => some { s with madQueue := q, poller := .send m }
    | [] => some { s with poller := .idle }
  | .idle =>
    some (if s.pollerWakeup then { s with pollerWakeup := false, poller := .pop }
      else { s with poller := .idleBlocked })
  | .idleBlocked => some { s with pollerWakeup := false, poller := .pop }
  | .failing st => some { (st.run s).1 with poller := ((st.run s).2.map PollerPc.failing).getD .pop }
  | .counting => some { s with outstandingMadsOnWire := s.outstandingMadsOnWire + 1, poller := .testing }
  | .testing =>
    some (if ccMaxOutstandingMads.toInt < s.outstandingMadsOnWire then { s with poller := .waiting }
      else { s with poller := .pop })
  | .waiting =>
    some (if s.madsOnWireContinue then { s with madsOnWireContinue := false, poller := .testing }
      else { s with poller := .blocked })
  | .blocked => some { s with madsOnWireContinue := false, poller := .testing }
  | .send _ => none

/-- `osm_vendor_send` in `cc_poller_send`. -/
def vendorSend (s : State) (ok : Bool) : Option State :=
  match s.poller with
  | .send m =>
    some (if ok then { s with wire := m :: s.wire, poller := .counting }
      else { (decrementOutstandingMads s).1 with poller := .failing (decrementOutstandingMads s).2 })
  | _ => none

def step (s : State) : Act → Option State
  | .setup => if s.sweep = .out then some { s with sweep := .setup } else none
  | .post m =>
    if s.sweep = .setup then
      some { s with
        outstandingMads := s.outstandingMads + 1, madQueue := s.madQueue ++ [m], sweep := .posted }
    else none
  | .wakeup => if s.sweep = .posted then some { s with pollerWakeup := true, sweep := .setup } else none
  | .setupEnd => if s.sweep = .setup then some { s with sweep := .testing } else none
  | .sweep => waitPendingTransactions s
  | .poller => ccPoller ccMaxOutstandingMads s
  | .send ok => vendorSend s ok
  | .recv m ok =>
    if m ∈ s.wire then
      some { s with wire := s.wire.erase m, disp := if ok then m :: s.disp else s.disp }
    else none
  | .sendErr m => if m ∈ s.wire then some { countOff s with wire := s.wire.erase m } else none
  | .rcvMad m => if m ∈ s.disp then some { countOff s with disp := s.disp.erase m } else none
  | .callback st =>
    if st ∈ s.callbacks then
      some { (st.run s).1 with callbacks := (st.run s).2.toList ++ s.callbacks.erase st }
    else none
  | .exit => some { s with osmExitFlag := true }

/-- The runs from `osm_congestion_control_init`. -/
abbrev CcRun : List (State × Act) → State → Prop := Run (step ccMaxOutstandingMads) init

def State.sending (s : State) : List Madw :=
  match s.poller with
  | .send m => [m]
  | _ => []

def State.uncounted (s : State) : ℕ := if s.poller = .counting then 1 else 0

/-- The posted MADs that `outstanding_mads` stands for. -/
def State.pending (s : State) : ℕ := s.madQueue.length + s.sending.length + s.wire.length + s.disp.length

def closing (callbacks : List Stage) : ℕ := callbacks.count .signalDone + callbacks.count .decWire

def State.closing (s : State) : ℕ := CongestionControl.closing s.callbacks

/-- The thread hangs in `osm_congestion_control_wait_pending_transactions`, or is about to. -/
def State.SweepWaits (s : State) : Prop := s.sweep = .waiting ∨ s.sweep = .blocked

/-- The thread hangs in `cc_poller_send`, or is about to. -/
def State.PollerWaits (s : State) : Prop := s.poller = .waiting ∨ s.poller = .blocked

def State.DoneComing (s : State) : Prop := s.outstandingMadsDone = true ∨ .signalDone ∈ s.callbacks

def State.ContinueComing (s : State) : Prop := s.madsOnWireContinue = true ∨ s.callbacks ≠ []

structure NeverBlocks (s : State) : Prop where
  outstandingMads : s.outstandingMads = s.pending
  onWire : s.outstandingMadsOnWire + s.uncounted = s.wire.length + s.disp.length + s.closing
  sweep : s.pending = 0 → s.SweepWaits → s.DoneComing
  poller : s.pending = 0 → s.PollerWaits → s.ContinueComing

def Succeeds : Act → Prop
  | .send ok => ok = true
  | .recv _ ok => ok = true
  | _ => True

instance (a : Act) : Decidable (Succeeds a) := by
  cases a <;> unfold Succeeds <;> infer_instance

lemma closing_signalDone {l : List Stage} (h : .signalDone ∈ l) :
    closing (.decWire :: l.erase .signalDone) = closing l := by
  have hpos := List.count_pos_iff.mpr h
  simp [closing]
  omega

lemma closing_decWire {l : List Stage} (h : .decWire ∈ l) :
    closing (.signalContinue :: l.erase .decWire) + 1 = closing l := by
  have hpos := List.count_pos_iff.mpr h
  simp [closing]
  omega

lemma closing_signalContinue (l : List Stage) : closing (l.erase .signalContinue) = closing l := by
  simp [closing]

lemma closing_decrement (s : State) (l : List Stage) :
    closing ((decrementOutstandingMads s).2 :: l) = closing l + 1 := by
  simp only [decrementOutstandingMads]
  split_ifs <;> simp [closing] <;> omega

structure Balanced (s : State) : Prop where
  outstandingMads : s.outstandingMads = s.pending
  onWire : s.outstandingMadsOnWire + s.uncounted = s.wire.length + s.disp.length + s.closing
  sweep : s.SweepWaits → s.outstandingMads ≠ 0 ∨ s.DoneComing
  poller : s.PollerWaits → ccMaxOutstandingMads.toInt < s.outstandingMadsOnWire ∨
    s.madsOnWireContinue = true ∨ .signalContinue ∈ s.callbacks
  failing : ∀ st, s.poller ≠ .failing st

lemma init_balanced : Balanced ccMaxOutstandingMads init :=
  ⟨rfl, rfl, by simp [State.SweepWaits, init], by simp [State.PollerWaits, init], by simp [init]⟩

section Step

variable {ccMaxOutstandingMads} {s s' : State}

lemma Balanced.waitPendingTransactions (h : Balanced ccMaxOutstandingMads s)
    (hs : waitPendingTransactions s = some s') : Balanced ccMaxOutstandingMads s' := by
  obtain ⟨hout, hwire, hsweep, hpoller, hfail⟩ := h
  unfold CongestionControl.waitPendingTransactions at hs
  split at hs
  next =>
    obtain rfl := Option.some.inj hs
    split_ifs with hz
    · exact ⟨hout, hwire, by simp [State.SweepWaits], hpoller, hfail⟩
    · exact ⟨hout, hwire, fun _ => .inl (not_or.mp hz).1, hpoller, hfail⟩
  next hpc =>
    obtain rfl := Option.some.inj hs
    split_ifs
    · exact ⟨hout, hwire, by simp [State.SweepWaits], hpoller, hfail⟩
    · exact ⟨hout, hwire, fun _ => hsweep (.inl hpc), hpoller, hfail⟩
  next =>
    obtain rfl := Option.some.inj hs
    exact ⟨hout, hwire, by simp [State.SweepWaits], hpoller, hfail⟩
  all_goals simp at hs

lemma Balanced.ccPoller (h : Balanced ccMaxOutstandingMads s) (hs : ccPoller ccMaxOutstandingMads s = some s') :
    Balanced ccMaxOutstandingMads s' := by
  obtain ⟨hout, hwire, hsweep, hpoller, hfail⟩ := h
  simp only [State.pending, State.sending, State.uncounted, State.closing] at hout hwire
  unfold CongestionControl.ccPoller at hs
  split at hs
  next hpc =>
    simp only [hpc] at hout hwire
    split at hs
    next m q hq =>
      obtain rfl := Option.some.inj hs
      refine ⟨?_, hwire, hsweep, by simp [State.PollerWaits], by simp⟩
      simp only [hq, List.length_cons, List.length_nil] at hout
      simp only [State.pending, State.sending, List.length_cons, List.length_nil]
      omega
    next =>
      obtain rfl := Option.some.inj hs
      exact ⟨hout, hwire, hsweep, by simp [State.PollerWaits], by simp⟩
  next hpc =>
    simp only [hpc] at hout hwire
    obtain rfl := Option.some.inj hs
    split_ifs
    · exact ⟨hout, hwire, hsweep, by simp [State.PollerWaits], by simp⟩
    · exact ⟨hout, hwire, hsweep, by simp [State.PollerWaits], by simp⟩
  next hpc =>
    simp only [hpc] at hout hwire
    obtain rfl := Option.some.inj hs
    exact ⟨hout, hwire, hsweep, by simp [State.PollerWaits], by simp⟩
  next st hpc => exact absurd hpc (hfail st)
  next hpc =>
    simp only [hpc, if_true] at hout hwire
    obtain rfl := Option.some.inj hs
    refine ⟨hout, ?_, hsweep, by simp [State.PollerWaits], by simp⟩
    simp only [State.uncounted, State.closing, reduceCtorEq, if_false]
    omega
  next hpc =>
    simp only [hpc] at hout hwire
    obtain rfl := Option.some.inj hs
    split_ifs with hmax
    · exact ⟨hout, hwire, hsweep, fun _ => .inl hmax, by simp⟩
    · exact ⟨hout, hwire, hsweep, by simp [State.PollerWaits], by simp⟩
  next hpc =>
    have hwait := hpoller (.inl hpc)
    simp only [hpc] at hout hwire
    obtain rfl := Option.some.inj hs
    split_ifs
    · exact ⟨hout, hwire, hsweep, by simp [State.PollerWaits], by simp⟩
    · exact ⟨hout, hwire, hsweep, fun _ => hwait, by simp⟩
  next hpc =>
    simp only [hpc] at hout hwire
    obtain rfl := Option.some.inj hs
    exact ⟨hout, hwire, hsweep, by simp [State.PollerWaits], by simp⟩
  next => simp at hs

lemma Balanced.vendorSend (h : Balanced ccMaxOutstandingMads s) (hs : vendorSend s true = some s') :
    Balanced ccMaxOutstandingMads s' := by
  obtain ⟨hout, hwire, hsweep, hpoller, hfail⟩ := h
  simp only [State.pending, State.sending, State.uncounted, State.closing] at hout hwire
  unfold CongestionControl.vendorSend at hs
  split at hs
  next m hpc =>
    simp only [hpc, reduceCtorEq, if_false, List.length_cons, List.length_nil] at hout hwire
    obtain rfl := Option.some.inj hs
    refine ⟨?_, ?_, hsweep, by simp [State.PollerWaits], by simp⟩
    · simp only [State.pending, State.sending, if_true, List.length_cons, List.length_nil]
      omega
    · simp only [State.uncounted, State.closing, if_true, List.length_cons]
      omega
  next => simp at hs

lemma Balanced.countOff (h : Balanced ccMaxOutstandingMads s) (hq : s'.madQueue = s.madQueue)
    (hon : s'.outstandingMadsOnWire = s.outstandingMadsOnWire)
    (hlen : s'.wire.length + s'.disp.length + 1 = s.wire.length + s.disp.length)
    (hout : s'.outstandingMads = (countOff s).outstandingMads) (hcb : s'.callbacks = (countOff s).callbacks)
    (hdone : s'.outstandingMadsDone = s.outstandingMadsDone)
    (hcont : s'.madsOnWireContinue = s.madsOnWireContinue) (hpo : s'.poller = s.poller) :
    Balanced ccMaxOutstandingMads s' := by
  obtain ⟨hout₀, hwire, -, hpoller, hfail⟩ := h
  have hclosing := closing_decrement s s.callbacks
  simp only [CongestionControl.countOff, decrementOutstandingMads] at hout hcb hclosing
  simp only [State.pending, State.sending, State.uncounted, State.closing] at hout₀ hwire
  refine ⟨?_, ?_, ?_, ?_, by simpa only [hpo] using hfail⟩
  · simp only [State.pending, State.sending, hq, hpo, hout]
    omega
  · simp only [State.uncounted, State.closing, hpo, hon, hcb]
    omega
  · intro _
    simp only [State.DoneComing, hout, hcb, hdone]
    by_cases hz : s.outstandingMads - 1 = 0
    · exact .inr (.inr (by simp [hz]))
    · exact .inl hz
  · intro hw
    simp only [State.PollerWaits, hpo] at hw
    simp only [hon, hcont, hcb]
    exact (hpoller hw).imp_right (Or.imp_right (List.mem_cons_of_mem _))

lemma Balanced.callback {st : Stage} (h : Balanced ccMaxOutstandingMads s)
    (hs : step ccMaxOutstandingMads s (.callback st) = some s') : Balanced ccMaxOutstandingMads s' := by
  obtain ⟨hout, hwire, hsweep, hpoller, hfail⟩ := h
  simp only [State.closing] at hwire
  simp only [step] at hs
  split_ifs at hs with hmem
  obtain rfl := Option.some.inj hs
  cases st with
  | signalDone =>
    refine ⟨hout, ?_, fun _ => .inr (.inl rfl),
        fun hw => (hpoller hw).imp_right (Or.imp_right fun hc => ?_), hfail⟩
    · rw [← closing_signalDone hmem] at hwire
      exact hwire
    · exact List.mem_append_right _ ((List.mem_erase_of_ne (by simp)).mpr hc)
  | decWire =>
    refine ⟨hout, ?_, fun hw => (hsweep hw).imp_right (Or.imp_right fun hc => ?_), fun _ => ?_, hfail⟩
    · have hclosing := closing_decWire hmem
      change s.outstandingMadsOnWire - 1 + s.uncounted =
        s.wire.length + s.disp.length + closing (.signalContinue :: s.callbacks.erase .decWire)
      omega
    · exact List.mem_append_right _ ((List.mem_erase_of_ne (by simp)).mpr hc)
    · exact .inr (.inr (List.mem_append_left _ (by simp [Stage.run])))
  | signalContinue =>
    refine ⟨hout, ?_, fun hw => (hsweep hw).imp_right (Or.imp_right fun hc => ?_), fun _ => .inr (.inl rfl), hfail⟩
    · rw [← closing_signalContinue] at hwire
      exact hwire
    · exact List.mem_append_right _ ((List.mem_erase_of_ne (by simp)).mpr hc)

lemma Balanced.step {a : Act} (h : Balanced ccMaxOutstandingMads s) (ha : Succeeds a)
    (hs : step ccMaxOutstandingMads s a = some s') : Balanced ccMaxOutstandingMads s' := by
  cases a with
  | setup =>
    simp only [CongestionControl.step] at hs
    split_ifs at hs
    obtain rfl := Option.some.inj hs
    exact ⟨h.outstandingMads, h.onWire, by simp [State.SweepWaits], h.poller, h.failing⟩
  | post m =>
    simp only [CongestionControl.step] at hs
    split_ifs at hs
    obtain rfl := Option.some.inj hs
    refine ⟨?_, h.onWire, by simp [State.SweepWaits], h.poller, h.failing⟩
    have hout := h.outstandingMads
    simp only [State.pending, State.sending, List.length_append, List.length_singleton] at hout ⊢
    omega
  | wakeup =>
    simp only [CongestionControl.step] at hs
    split_ifs at hs
    obtain rfl := Option.some.inj hs
    exact ⟨h.outstandingMads, h.onWire, by simp [State.SweepWaits], h.poller, h.failing⟩
  | setupEnd =>
    simp only [CongestionControl.step] at hs
    split_ifs at hs
    obtain rfl := Option.some.inj hs
    exact ⟨h.outstandingMads, h.onWire, by simp [State.SweepWaits], h.poller, h.failing⟩
  | sweep => exact h.waitPendingTransactions hs
  | poller => exact h.ccPoller hs
  | send ok =>
    obtain rfl : ok = true := ha
    exact h.vendorSend hs
  | recv m ok =>
    obtain rfl : ok = true := ha
    simp only [CongestionControl.step] at hs
    split_ifs at hs with hm
    obtain rfl := Option.some.inj hs
    have hlen := List.length_erase_add_one hm
    refine ⟨?_, ?_, h.sweep, h.poller, h.failing⟩
    · have hout := h.outstandingMads
      simp only [State.pending, State.sending, List.length_cons] at hout ⊢
      omega
    · have hwire := h.onWire
      simp only [State.uncounted, State.closing, List.length_cons] at hwire ⊢
      omega
  | sendErr m =>
    simp only [CongestionControl.step] at hs
    split_ifs at hs with hm
    obtain rfl := Option.some.inj hs
    have hlen := List.length_erase_add_one hm
    exact h.countOff rfl rfl (by simp only [CongestionControl.countOff, decrementOutstandingMads]; omega) rfl
        rfl rfl rfl rfl
  | rcvMad m =>
    simp only [CongestionControl.step] at hs
    split_ifs at hs with hm
    obtain rfl := Option.some.inj hs
    have hlen := List.length_erase_add_one hm
    exact h.countOff rfl rfl (by simp only [CongestionControl.countOff, decrementOutstandingMads]; omega) rfl
        rfl rfl rfl rfl
  | callback st => exact h.callback hs
  | exit =>
    obtain rfl := Option.some.inj hs
    exact ⟨h.outstandingMads, h.onWire, h.sweep, h.poller, h.failing⟩

end Step

lemma Balanced.neverBlocks {s : State} (h : Balanced ccMaxOutstandingMads s)
    (hmax : ccMaxOutstandingMads.toNat < 2 ^ 31) : NeverBlocks s := by
  refine ⟨h.outstandingMads, h.onWire, fun hz hw => ?_, fun hz hw => ?_⟩
  · have hout := h.outstandingMads
    rw [hz] at hout
    exact (h.sweep hw).resolve_left (by simp [hout])
  · rcases h.poller hw with hfull | hcont | hmem
    · -- nothing is on the wire, so the poller waits for callbacks that have not counted theirs yet
      have hwire := h.onWire
      have hint : 0 ≤ ccMaxOutstandingMads.toInt := by
        rw [BitVec.toInt_eq_toNat_of_lt (by omega)]
        omega
      simp only [State.pending] at hz
      have huncounted : s.uncounted = 0 := by
        rcases hw with hw | hw <;> simp [State.uncounted, hw]
      refine .inr fun hnil => ?_
      simp only [State.closing, closing, hnil, List.count_nil] at hwire
      omega
    · exact .inl hcont
    · exact .inr (List.ne_nil_of_mem hmem)

/-- The counters are right and no thread hangs on a MAD that is gone. -/
theorem run_neverBlocks (hmax : ccMaxOutstandingMads.toNat < 2 ^ 31) {l : List (State × Act)} {s : State}
    (h : CcRun ccMaxOutstandingMads l s) (hl : ∀ x ∈ l, Succeeds x.2) : NeverBlocks s := by
  have hinv := h.invariant (q := fun _ a => Succeeds a) (init_balanced _) (fun _ _ _ hb ha => hb.step ha) hl
  exact hinv.neverBlocks _ hmax

/-- `OSM_CC_DEFAULT_MAX_OUTSTANDING_QUERIES` -/
def defaultMax : BitVec 32 := 500

def answeredAndTimedOut : List Act :=
  [.setup, .post 1, .wakeup, .post 2, .wakeup, .setupEnd, .poller, .send true, .poller, .sweep,
    .recv 1 true, .sweep, .poller, .poller, .send true, .sendErr 2, .poller, .callback .decWire, .rcvMad 1,
    .callback .signalDone]

theorem run_neverBlocks_answered :
    NeverBlocks ((exec (step defaultMax) init answeredAndTimedOut).getD init) :=
  run_neverBlocks defaultMax (by decide) (Run.nil.append answeredAndTimedOut rfl) (by decide)

def refusedByDispatcher : List Act :=
  [.setup, .post 1, .wakeup, .setupEnd, .poller, .send true, .poller, .recv 1 false, .sweep, .sweep]

theorem refusedPost_blocks : ∃ l s, CcRun defaultMax l s ∧ ¬NeverBlocks s := by
  refine ⟨_, _, Run.nil.append refusedByDispatcher rfl, fun h => ?_⟩
  have hwait := h.sweep (by decide) (.inr (by decide))
  revert hwait
  unfold State.DoneComing
  decide

/-- A send that fails is counted off the wire without having been counted on it. -/
example : ∃ l s, CcRun defaultMax l s ∧ ¬NeverBlocks s :=
  ⟨_, _, Run.nil.append [.setup, .post 1, .wakeup, .setupEnd, .poller, .send false, .poller, .poller] rfl,
    fun h => absurd h.onWire (by decide)⟩

/-- With a negative limit the poller waits for ever after its first MAD. -/
example : ∃ l s, CcRun (2 ^ 31) l s ∧ ¬NeverBlocks s := by
  refine ⟨_, _, Run.nil.append [.setup, .post 1, .wakeup, .setupEnd, .poller, .send true, .poller,
    .poller, .poller, .recv 1 true, .rcvMad 1, .callback .signalDone, .callback .decWire,
    .callback .signalContinue, .poller, .poller,
    .poller] rfl, fun h => ?_⟩
  have hwait := h.poller (by decide) (.inr (by decide))
  revert hwait
  unfold State.ContinueComing
  decide

end OpenSM.CongestionControl
