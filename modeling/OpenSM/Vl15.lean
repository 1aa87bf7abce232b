import Mathlib
import OpenSM.Lib.Runs

/-! The VL15 interface: the poller thread, posters, completions and the event they share. -/

namespace OpenSM.Vl15

open Lib.Runs

inductive Method
  | get | set | getResp | send | trap | report | reportResp | trapRepress | other
deriving DecidableEq

inductive AttrId
  | classPortInfo | notice | informInfo | nodeDesc | nodeInfo | switchInfo | guidInfo | portInfo | pKeyTable
  | slvlTable | vlArbitration | linFwdTbl | mcastFwdTbl | smInfo | mlnxExtendedPortInfo | other
deriving DecidableEq

structure Madw where
  tid : ℕ
  method : Method
  attrId : AttrId
  respExpected : Bool
  /-- `err_msg` is not `CL_DISP_MSGID_NONE`. -/
  errMsg : Bool
deriving DecidableEq

structure Cfg where
  maxWireSmps : ℤ
  maxWireSmps2 : ℤ

inductive Pc
  | top
  | pop
  | send (m : Madw)
  | waitFifo
  | checkWire
  | waitWire
  | exited
deriving DecidableEq

structure State where
  ufifo : List Madw
  rfifo : List Madw
  /-- The requests the vendor layer was given and has not completed. -/
  wire : List Madw
  /-- `qp0_mads_outstanding_on_wire`. -/
  onWire : ℤ
  maxSmps : ℤ
  pc : Pc
  running : Bool
  signalled : Bool
  /-- The calls of `osm_vl15_poll` that have not looked at the count yet. -/
  polls : ℕ
  /-- The calls of `osm_vl15_poll` that are about to signal. -/
  signals : ℕ
deriving DecidableEq

def init (c : Cfg) : State where
  ufifo := []
  rfifo := []
  wire := []
  onWire := 0
  maxSmps := c.maxWireSmps
  pc := .top
  running := true
  signalled := false
  polls := 0
  signals := 0

inductive WaitStatus
  | success | timeout | error
deriving DecidableEq

inductive Act
  | post (m : Madw)
  | poll
  | check
  | signal
  | complete (m : Madw)
  | poller
  | wait (r : WaitStatus)
  | stop
deriving DecidableEq

def vl15SendMad (s : State) (m : Madw) : State :=
  if m.respExpected then { s with onWire := s.onWire + 1, wire := s.wire ++ [m] } else s

def poller (s : State) : Option State :=
  match s.pc with
  | .top => some { s with pc := if s.running then .pop else .exited }
  | .pop =>
    match s.ufifo, s.rfifo with
    | m :: u, _ => some { s with ufifo := u, pc := .send m }
    | [], m :: r => some { s with rfifo := r, pc := .send m }
    | [], [] => some { s with pc := .waitFifo }
  | .send m => some { vl15SendMad s m with pc := .checkWire }
  | .checkWire => some { s with pc := if s.onWire ≥ s.maxSmps ∧ s.running then .waitWire else .top }
  | .waitFifo | .waitWire | .exited => none

/-- `cl_event_wait_on` returns. It clears the event whatever the status, and an untimed wait may wake
up without a signal. -/
def waitOn (c : Cfg) (s : State) (r : WaitStatus) : Option State :=
  match s.pc, r with
  | .waitFifo, .success | .waitFifo, .error => some { s with signalled := false, pc := .checkWire }
  | .waitWire, .success =>
    if s.signalled ∨ c.maxWireSmps2 ≤ c.maxWireSmps then
      some { s with signalled := false, maxSmps := c.maxWireSmps, pc := .checkWire }
    else none
  | .waitWire, .timeout =>
    if c.maxWireSmps < c.maxWireSmps2 then
      some { s with
        signalled := false
        maxSmps := if s.maxSmps < c.maxWireSmps2 then s.maxSmps + 1 else s.maxSmps
        pc := .top }
    else none
  | .waitWire, .error => some { s with signalled := false, pc := .top }
  | _, _ => none

def step (c : Cfg) (s : State) : Act → Option State
  | .post m =>
    some (if m.respExpected then { s with rfifo := s.rfifo ++ [m], polls := s.polls + 1 }
      else { s with ufifo := s.ufifo ++ [m], polls := s.polls + 1 })
  | .poll => some { s with polls := s.polls + 1 }
  | .check =>
    if s.polls = 0 then none
    else if s.onWire < c.maxWireSmps then some { s with polls := s.polls - 1, signals := s.signals + 1 }
    else some { s with polls := s.polls - 1 }
  | .signal => if s.signals = 0 then none else some { s with signals := s.signals - 1, signalled := true }
  | .complete m =>
    if m ∈ s.wire then
      some { s with wire := s.wire.erase m, onWire := s.onWire - 1, polls := s.polls + 1 }
    else none
  | .poller => poller s
  | .wait r => waitOn c s r
  | .stop => some { s with running := false, signals := s.signals + 1 }

/-- The runs of a VL15 interface from `osm_vl15_init`. -/
abbrev VlRun (c : Cfg) : List (State × Act) → State → Prop := Run (step c) (init c)

def limit (c : Cfg) : ℤ := max c.maxWireSmps c.maxWireSmps2

/-- The wait for a free slot does not end in a timeout or an error while the wire is full. -/
def NoFullTimeout (c : Cfg) (s : State) (a : Act) : Prop :=
  a = .wait .timeout ∨ a = .wait .error → s.pc = .waitWire → s.onWire < limit c

instance (c : Cfg) (s : State) (a : Act) : Decidable (NoFullTimeout c s a) :=
  inferInstanceAs (Decidable (_ → _ → _))

/-- The poller is on its way to `vl15_send_mad` without another look at the count. -/
def Sending (s : State) : Prop :=
  match s.pc with
  | .top => s.running = true
  | .pop | .send _ => True
  | .waitFifo | .checkWire | .waitWire | .exited => False

structure Throttled (c : Cfg) (s : State) : Prop where
  le : s.onWire ≤ limit c
  lt : Sending s → s.onWire < limit c
  maxSmps : s.maxSmps ≤ limit c

lemma init_throttled {c : Cfg} (h : 1 ≤ c.maxWireSmps) : Throttled c (init c) := by
  have hlim : c.maxWireSmps ≤ limit c := le_max_left _ _
  refine ⟨?_, fun _ => ?_, hlim⟩
  · simp only [init]
    omega
  · simp only [init]
    omega

lemma poller_throttled {c : Cfg} {s s' : State} (h : Throttled c s) (hs : poller s = some s') :
    Throttled c s' := by
  obtain ⟨hle, hlt, hmax⟩ := h
  unfold Sending at hlt
  unfold poller at hs
  split at hs
  next hpc =>
    obtain rfl := Option.some.inj hs
    refine ⟨hle, ?_, hmax⟩
    cases hr : s.running
    · simp [Sending]
    · intro _
      simp only [hpc] at hlt
      exact hlt hr
  next hpc =>
    simp only [hpc, true_imp_iff] at hlt
    split at hs <;> obtain rfl := Option.some.inj hs
    · exact ⟨hle, fun _ => hlt, hmax⟩
    · exact ⟨hle, fun _ => hlt, hmax⟩
    · exact ⟨hle, fun h => absurd h id, hmax⟩
  next m hpc =>
    simp only [hpc, true_imp_iff] at hlt
    obtain rfl := Option.some.inj hs
    refine ⟨?_, fun h => absurd h id, ?_⟩
    · unfold vl15SendMad
      split
      · simp only
        omega
      · exact hle
    · unfold vl15SendMad
      split <;> exact hmax
  next hpc =>
    obtain rfl := Option.some.inj hs
    refine ⟨hle, ?_, hmax⟩
    split_ifs with hfull
    · exact fun h => absurd h id
    · -- a poller that was told to stop does not get to `vl15_send_mad`
      intro (hrun : s.running = true)
      have : ¬s.onWire ≥ s.maxSmps := fun hge => hfull ⟨hge, hrun⟩
      simp only
      omega
  all_goals simp at hs

lemma waitOn_throttled {c : Cfg} {s s' : State} {r : WaitStatus} (h : Throttled c s)
    (hr : NoFullTimeout c s (.wait r)) (hs : waitOn c s r = some s') : Throttled c s' := by
  obtain ⟨hle, hlt, hmax⟩ := h
  have hlim : c.maxWireSmps ≤ limit c := le_max_left _ _
  have hlim2 : c.maxWireSmps2 ≤ limit c := le_max_right _ _
  unfold waitOn at hs
  split at hs
  · obtain rfl := Option.some.inj hs
    exact ⟨hle, fun h => absurd h id, hmax⟩
  · obtain rfl := Option.some.inj hs
    exact ⟨hle, fun h => absurd h id, hmax⟩
  · split_ifs at hs
    obtain rfl := Option.some.inj hs
    exact ⟨hle, fun h => absurd h id, hlim⟩
  next hpc =>
    split_ifs at hs <;> obtain rfl := Option.some.inj hs
    all_goals
      refine ⟨hle, fun _ => hr (.inl rfl) hpc, ?_⟩
      simp only
      omega
  next hpc =>
    obtain rfl := Option.some.inj hs
    exact ⟨hle, fun _ => hr (.inr rfl) hpc, hmax⟩
  · simp at hs

lemma step_throttled {c : Cfg} {s s' : State} {a : Act} (h : Throttled c s) (ha : NoFullTimeout c s a)
    (hs : step c s a = some s') : Throttled c s' := by
  obtain ⟨hle, hlt, hmax⟩ := h
  cases a with
  | post m =>
    obtain rfl := Option.some.inj hs
    split_ifs <;> exact ⟨hle, hlt, hmax⟩
  | poll =>
    obtain rfl := Option.some.inj hs
    exact ⟨hle, hlt, hmax⟩
  | check =>
    simp only [step] at hs
    split_ifs at hs <;> obtain rfl := Option.some.inj hs <;> exact ⟨hle, hlt, hmax⟩
  | signal =>
    simp only [step] at hs
    split_ifs at hs
    obtain rfl := Option.some.inj hs
    exact ⟨hle, hlt, hmax⟩
  | complete m =>
    simp only [step] at hs
    split_ifs at hs
    obtain rfl := Option.some.inj hs
    refine ⟨?_, fun h => ?_, hmax⟩
    · simp only
      omega
    · have := hlt h
      simp only
      omega
  | poller => exact poller_throttled ⟨hle, hlt, hmax⟩ hs
  | wait r => exact waitOn_throttled ⟨hle, hlt, hmax⟩ ha hs
  | stop =>
    obtain rfl := Option.some.inj hs
    refine ⟨hle, fun h => hlt ?_, hmax⟩
    unfold Sending at h ⊢
    cases hpc : s.pc <;> simp_all

theorem run_throttled {c : Cfg} (hc : 1 ≤ c.maxWireSmps) {l : List (State × Act)} {s : State} (h : VlRun c l s)
    (hl : ∀ x ∈ l, NoFullTimeout c x.1 x.2) : s.onWire ≤ limit c := by
  have hinv := h.invariant (P := Throttled c) (init_throttled hc) (fun _ _ _ => step_throttled) hl
  exact hinv.le

def oneOrTwo : Cfg := ⟨1, 2⟩

def getNodeInfo (tid : ℕ) : Madw := ⟨tid, .get, .nodeInfo, true, false⟩

def twoSent : List Act :=
  [.post (getNodeInfo 1), .post (getNodeInfo 2), .post (getNodeInfo 3), .poller, .poller, .poller, .poller,
    .wait .timeout, .poller, .poller, .poller]

theorem run_throttled_two :
    ((exec (step oneOrTwo) (init oneOrTwo) twoSent).getD (init oneOrTwo)).onWire ≤ limit oneOrTwo :=
  run_throttled (by decide) (Run.nil.append twoSent rfl) (by decide)

/-- One more timeout and the third request goes out above both limits. -/
theorem timeouts_exceed_limit : ∃ l s, VlRun oneOrTwo l s ∧ ¬s.onWire ≤ limit oneOrTwo := by
  refine ⟨_, _, Run.nil.append (twoSent ++ [.poller, .wait .timeout, .poller, .poller, .poller]) rfl, ?_⟩
  decide

def Roused (c : Cfg) (s : State) : Prop :=
  s.signalled = true ∨ 0 < s.polls + s.signals ∨ c.maxWireSmps ≤ s.onWire

structure Awake (c : Cfg) (s : State) : Prop where
  waitFifo : s.pc = .waitFifo → Roused c s ∨ s.ufifo = [] ∧ s.rfifo = []
  waitWire : s.pc = .waitWire → Roused c s
  maxSmps : c.maxWireSmps ≤ s.maxSmps
  onWire : s.onWire = s.wire.length

lemma Awake.of_roused {c : Cfg} {s s' : State} (h : Awake c s) (hpc : s'.pc = s.pc)
    (hr : Roused c s ∨ ¬(s'.ufifo = s.ufifo ∧ s'.rfifo = s.rfifo) → Roused c s') (hmax : s'.maxSmps = s.maxSmps)
    (hwire : s'.onWire = s'.wire.length) : Awake c s' := by
  refine ⟨fun hw => ?_, fun hw => hr (.inl (h.waitWire (hpc ▸ hw))), hmax ▸ h.maxSmps, hwire⟩
  by_cases hf : s'.ufifo = s.ufifo ∧ s'.rfifo = s.rfifo
  · rw [hf.1, hf.2]
    exact (h.waitFifo (hpc ▸ hw)).imp_left fun h => hr (.inl h)
  · exact .inl (hr (.inr hf))

lemma init_awake (c : Cfg) : Awake c (init c) := ⟨nofun, nofun, le_rfl, rfl⟩

lemma poller_awake {c : Cfg} {s s' : State} (h : Awake c s) (hs : poller s = some s') : Awake c s' := by
  obtain ⟨-, -, hmax, hwire⟩ := h
  unfold poller at hs
  split at hs
  · obtain rfl := Option.some.inj hs
    refine ⟨?_, ?_, hmax, hwire⟩ <;> split_ifs <;> nofun
  · split at hs <;> obtain rfl := Option.some.inj hs
    · exact ⟨nofun, nofun, hmax, hwire⟩
    · exact ⟨nofun, nofun, hmax, hwire⟩
    next hu hr => exact ⟨fun _ => .inr ⟨hu, hr⟩, nofun, hmax, hwire⟩
  · obtain rfl := Option.some.inj hs
    unfold vl15SendMad
    split_ifs
    · exact ⟨nofun, nofun, hmax, by simp [hwire]⟩
    · exact ⟨nofun, nofun, hmax, hwire⟩
  · obtain rfl := Option.some.inj hs
    refine ⟨?_, ?_, hmax, hwire⟩
    · split_ifs <;> nofun
    · split_ifs with hfull
      · exact fun _ => .inr (.inr (hmax.trans hfull.1))
      · nofun
  all_goals simp at hs

lemma waitOn_awake {c : Cfg} {s s' : State} {r : WaitStatus} (h : Awake c s) (hs : waitOn c s r = some s') :
    Awake c s' := by
  obtain ⟨-, -, hmax, hwire⟩ := h
  unfold waitOn at hs
  split at hs
  · obtain rfl := Option.some.inj hs
    exact ⟨nofun, nofun, hmax, hwire⟩
  · obtain rfl := Option.some.inj hs
    exact ⟨nofun, nofun, hmax, hwire⟩
  · split_ifs at hs
    obtain rfl := Option.some.inj hs
    exact ⟨nofun, nofun, le_rfl, hwire⟩
  · split_ifs at hs <;> obtain rfl := Option.some.inj hs
    · refine ⟨nofun, nofun, ?_, hwire⟩
      simp only
      omega
    · exact ⟨nofun, nofun, hmax, hwire⟩
  · obtain rfl := Option.some.inj hs
    exact ⟨nofun, nofun, hmax, hwire⟩
  · simp at hs

lemma step_awake {c : Cfg} {s s' : State} {a : Act} (h : Awake c s) (hs : step c s a = some s') : Awake c s' := by
  cases a with
  | post m =>
    obtain rfl := Option.some.inj hs
    split_ifs <;> exact h.of_roused rfl (fun _ => .inr (.inl (by simp only; omega))) rfl h.onWire
  | poll =>
    obtain rfl := Option.some.inj hs
    exact h.of_roused rfl (fun _ => .inr (.inl (by simp only; omega))) rfl h.onWire
  | check =>
    simp only [step] at hs
    split_ifs at hs with _ hfull <;> obtain rfl := Option.some.inj hs
    · exact h.of_roused rfl (fun _ => .inr (.inl (by simp only; omega))) rfl h.onWire
    · exact h.of_roused rfl (fun _ => .inr (.inr (not_lt.mp hfull))) rfl h.onWire
  | signal =>
    simp only [step] at hs
    split_ifs at hs
    obtain rfl := Option.some.inj hs
    exact h.of_roused rfl (fun _ => .inl rfl) rfl h.onWire
  | complete m =>
    simp only [step] at hs
    split_ifs at hs with hm
    obtain rfl := Option.some.inj hs
    have hlen := List.length_erase_of_mem hm
    have hpos := List.length_pos_of_mem hm
    have hwire := h.onWire
    refine h.of_roused rfl (fun _ => .inr (.inl (by simp only; omega))) rfl ?_
    simp only
    omega
  | poller => exact poller_awake h hs
  | wait r => exact waitOn_awake h hs
  | stop =>
    obtain rfl := Option.some.inj hs
    exact h.of_roused rfl (fun _ => .inr (.inl (by simp only; omega))) rfl h.onWire

lemma run_awake {c : Cfg} {l : List (State × Act)} {s : State} (h : VlRun c l s) : Awake c s :=
  h.always (init_awake c) fun _ _ _ => step_awake

/-- Blocked in `cl_event_wait_on`, and no call of `osm_vl15_poll` pending or under way. -/
structure Asleep (s : State) : Prop where
  pc : s.pc = .waitFifo ∨ s.pc = .waitWire
  signalled : s.signalled = false
  polls : s.polls = 0
  signals : s.signals = 0

/-- The poller never sleeps on work. -/
theorem run_asleep {c : Cfg} (hc : 1 ≤ c.maxWireSmps) {l : List (State × Act)} {s : State} (h : VlRun c l s)
    (hs : Asleep s) :
    ((s.wire.length : ℤ) < c.maxWireSmps → s.ufifo = [] ∧ s.rfifo = []) ∧
      (s.wire = [] → s.ufifo = [] ∧ s.rfifo = []) := by
  have hinv := run_awake h
  have hidle : (s.wire.length : ℤ) < c.maxWireSmps → s.ufifo = [] ∧ s.rfifo = [] := by
    intro hfree
    have hno : ¬Roused c s := by
      rintro (hsig | hpoll | hfull)
      · simp [hs.signalled] at hsig
      · simp [hs.polls, hs.signals] at hpoll
      · have := hinv.onWire
        omega
    rcases hs.pc with hpc | hpc
    · exact (hinv.waitFifo hpc).resolve_left hno
    · exact absurd (hinv.waitWire hpc) hno
  refine ⟨hidle, fun hw => hidle ?_⟩
  simp only [hw, List.length_nil, Nat.cast_zero]
  omega

def sentAndAnswered : List Act :=
  [.post (getNodeInfo 1), .check, .signal, .poller, .poller, .poller, .poller, .complete (getNodeInfo 1), .check,
    .signal, .wait .success, .poller, .poller, .poller]

theorem run_asleep_answered :
    let s := (exec (step oneOrTwo) (init oneOrTwo) sentAndAnswered).getD (init oneOrTwo)
    ((s.wire.length : ℤ) < oneOrTwo.maxWireSmps → s.ufifo = [] ∧ s.rfifo = []) ∧
      (s.wire = [] → s.ufifo = [] ∧ s.rfifo = []) :=
  run_asleep (by decide) (Run.nil.append sentAndAnswered rfl) ⟨by decide, by decide, by decide, by decide⟩

end OpenSM.Vl15
