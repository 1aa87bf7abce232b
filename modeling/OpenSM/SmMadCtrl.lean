import OpenSM.Vl15

/-! The SM MAD controller on top of the VL15 interface: what happens to a request between
`osm_vl15_post` and its retirement, and the count `qp0_mads_outstanding`. -/

namespace OpenSM.SmMadCtrl

open Lib.Runs
open Vl15 (Madw Method AttrId Cfg)

inductive MsgId
  | nodeDesc | nodeInfo | guidInfo | switchInfo | portInfo | lft | mft | smInfo | slvl | vlArb | pkey
  | mlnxExtPortInfo
deriving DecidableEq

/-- A callback that has updated the wire statistics and still has to pass the MAD on. -/
inductive Handling
  | resp (p : Madw)
  | repress (p : Madw)
  | err (m : Madw)
deriving DecidableEq

structure State where
  vl : Vl15.State
  /-- `qp0_mads_outstanding`. -/
  outstanding : ℤ
  handling : List Handling
  /-- The messages the dispatcher took and whose done callback is still to come. -/
  disp : List Madw
  exitFlag : Bool
deriving DecidableEq

def init (c : Cfg) : State where
  vl := Vl15.init c
  outstanding := 0
  handling := []
  disp := []
  exitFlag := false

def isResponse (p : Madw) : Bool :=
  match p.method with
  | .getResp | .reportResp | .trapRepress => true
  | _ => false

def getRespMsg : AttrId → Option MsgId
  | .nodeDesc => some .nodeDesc
  | .nodeInfo => some .nodeInfo
  | .guidInfo => some .guidInfo
  | .switchInfo => some .switchInfo
  | .portInfo => some .portInfo
  | .linFwdTbl => some .lft
  | .mcastFwdTbl => some .mft
  | .smInfo => some .smInfo
  | .slvlTable => some .slvl
  | .vlArbitration => some .vlArb
  | .pKeyTable => some .pkey
  | .mlnxExtendedPortInfo => some .mlnxExtPortInfo
  | .classPortInfo | .notice | .informInfo | .other => none

def retireTransMad (s : State) : State :=
  { s with outstanding := s.outstanding - 1 }

/-- `cl_disp_post`, which may fail. -/
def dispPost (ok : Bool) (s : State) (p : Madw) : State :=
  if ok then { s with disp := s.disp ++ [p] } else s

def dispDoneCallback (s : State) (p : Madw) : State :=
  if isResponse p then retireTransMad s
  else if p.respExpected then retireTransMad s
  else s

def completed (c : Cfg) (s : State) (m : Madw) (h : Handling) : Option State :=
  (Vl15.step c s.vl (.complete m)).map fun v => { s with vl := v, handling := s.handling ++ [h] }

/-- The vendor layer is done with a request whose callback leaves the wire statistics alone. -/
def dropped (s : State) (m : Madw) : Option State :=
  if m ∈ s.vl.wire then some { s with vl := { s.vl with wire := s.vl.wire.erase m } } else none

/-- `sm_mad_ctrl_rcv_callback` up to its dispatcher post, for a response with the request it answers
and for a MAD from outside without one. -/
def rcvCallback (c : Cfg) (s : State) (p : Madw) (req : Option Madw) (master ok : Bool) : Option State :=
  match p.method, req with
  | .getResp, some m =>
    if s.exitFlag then (dropped s m).map fun s => dispDoneCallback s p else completed c s m (.resp p)
  | .trapRepress, some m =>
    if s.exitFlag then (dropped s m).map fun s => dispDoneCallback s p
    else if p.attrId = .notice then completed c s m (.repress p)
    else dropped s m
  | .get, none | .set, none =>
    if s.exitFlag then some (dispDoneCallback s p)
    else some (if p.attrId = .smInfo then dispPost ok s p else s)
  | .trap, none =>
    if s.exitFlag then some (dispDoneCallback s p)
    else some (if master ∧ p.attrId = .notice then dispPost ok s p else s)
  | .send, none | .report, none | .other, none => some (if s.exitFlag then dispDoneCallback s p else s)
  | _, _ => none

def finish (s : State) (h : Handling) (ok : Bool) : State :=
  match h with
  | .resp p => if getRespMsg p.attrId = none then s else dispPost ok s p
  | .repress _ => retireTransMad s
  | .err m => if m.errMsg then dispPost ok s m else retireTransMad s

inductive Act
  | vl (a : Vl15.Act)
  | rcv (p : Madw) (req : Option Madw) (master ok : Bool)
  | sendErr (m : Madw)
  | finish (h : Handling) (ok : Bool)
  | dispDone (p : Madw)
  | exit
  | shutdown
deriving DecidableEq

def step (c : Cfg) (s : State) : Act → Option State
  | .vl (.complete _) => none
  | .vl (.post m) => (Vl15.step c s.vl (.post m)).map fun v =>
      { s with vl := v, outstanding := if m.respExpected then s.outstanding + 1 else s.outstanding }
  | .vl a => (Vl15.step c s.vl a).map fun v => { s with vl := v }
  | .rcv p req master ok => if p.respExpected then none else rcvCallback c s p req master ok
  | .sendErr m => completed c s m (.err m)
  | .finish h ok =>
    if h ∈ s.handling then some (finish { s with handling := s.handling.erase h } h ok) else none
  | .dispDone p =>
    if p ∈ s.disp then some (dispDoneCallback { s with disp := s.disp.erase p } p) else none
  | .exit => some { s with exitFlag := true }
  | .shutdown => some { s with
      vl := { s.vl with ufifo := [], rfifo := [] }
      outstanding := s.outstanding - s.vl.rfifo.length }

abbrev CtrlRun (c : Cfg) : List (State × Act) → State → Prop := Run (step c) (init c)

/-- A callback that leaves without retiring its transaction: an unsupported attribute or a failed
dispatcher post. -/
def SideExit (s : State) : Act → Prop
  | .finish (.resp p) ok => getRespMsg p.attrId = none ∨ ok = false
  | .finish (.err m) ok => m.errMsg = true ∧ ok = false
  | .rcv p (some _) _ _ => s.exitFlag = false ∧ p.method = .trapRepress ∧ p.attrId ≠ .notice
  | _ => False

instance (s : State) : DecidablePred (SideExit s)
  | .finish (.resp _) _ => inferInstanceAs (Decidable (_ ∨ _))
  | .finish (.err _) _ => inferInstanceAs (Decidable (_ ∧ _))
  | .finish (.repress _) _ => inferInstanceAs (Decidable False)
  | .rcv _ (some _) _ _ => inferInstanceAs (Decidable (_ ∧ _))
  | .rcv _ none _ _ => inferInstanceAs (Decidable False)
  | .vl _ | .sendErr _ | .dispDone _ | .exit | .shutdown => inferInstanceAs (Decidable False)

def queued (v : Vl15.State) : ℤ :=
  v.rfifo.length + match v.pc with
    | .send m => if m.respExpected then 1 else 0
    | _ => 0

def isTransaction (p : Madw) : Bool := isResponse p || p.respExpected

/-- The posted requests that are queued, on the wire (their callback perhaps under way) or waiting in
the dispatcher. -/
def inProgress (s : State) : ℤ :=
  queued s.vl + s.vl.wire.length + s.handling.length + s.disp.countP isTransaction

structure Typed (v : Vl15.State) : Prop where
  ufifo : ∀ m ∈ v.ufifo, m.respExpected = false
  rfifo : ∀ m ∈ v.rfifo, m.respExpected = true
  wire : ∀ m ∈ v.wire, m.respExpected = true

def Handling.WellFormed : Handling → Prop
  | .resp p => isResponse p = true
  | .repress _ => True
  | .err m => m.respExpected = true

def added : Vl15.Act → ℤ
  | .post m => if m.respExpected then 1 else 0
  | .complete _ => -1
  | _ => 0

lemma poller_typed {v v' : Vl15.State} (h : Typed v) (hv : Vl15.poller v = some v') : Typed v' := by
  obtain ⟨hu, hr, hw⟩ := h
  unfold Vl15.poller at hv
  split at hv
  · obtain rfl := Option.some.inj hv
    exact ⟨hu, hr, hw⟩
  · split at hv <;> obtain rfl := Option.some.inj hv
    next _ _ m u hcons => exact ⟨fun x hx => hu x (hcons ▸ List.mem_cons_of_mem m hx), hr, hw⟩
    next _ _ m r _ hcons => exact ⟨hu, fun x hx => hr x (hcons ▸ List.mem_cons_of_mem m hx), hw⟩
    · exact ⟨hu, hr, hw⟩
  next m _ =>
    obtain rfl := Option.some.inj hv
    unfold Vl15.vl15SendMad
    split_ifs with hm
    · refine ⟨hu, hr, ?_⟩
      simp only [List.forall_mem_append, List.forall_mem_singleton]
      exact ⟨hw, hm⟩
    · exact ⟨hu, hr, hw⟩
  · obtain rfl := Option.some.inj hv
    exact ⟨hu, hr, hw⟩
  all_goals simp at hv

lemma poller_queued {v v' : Vl15.State} (h : Typed v) (hv : Vl15.poller v = some v') :
    queued v' + v'.wire.length = queued v + v.wire.length := by
  obtain ⟨hu, hr, hw⟩ := h
  unfold Vl15.poller at hv
  split at hv
  next hpc =>
    obtain rfl := Option.some.inj hv
    simp only [queued, hpc]
    cases v.running <;> rfl
  next hpc =>
    split at hv <;> obtain rfl := Option.some.inj hv
    next _ _ m u hcons => simp [queued, hpc, hu m (hcons ▸ List.mem_cons_self)]
    next _ _ m r _ hcons => simp [queued, hpc, hcons, hr m (hcons ▸ List.mem_cons_self)]
    · simp [queued, hpc]
  next m hpc =>
    obtain rfl := Option.some.inj hv
    unfold Vl15.vl15SendMad
    split_ifs with hm
    · simp only [queued, hpc, hm, if_true, List.length_append, List.length_singleton]
      omega
    · simp [queued, hpc, hm]
  next hpc =>
    obtain rfl := Option.some.inj hv
    simp only [queued, hpc]
    split_ifs <;> rfl
  all_goals simp at hv

lemma waitOn_frame {c : Cfg} {v v' : Vl15.State} {r : Vl15.WaitStatus} (hv : Vl15.waitOn c v r = some v') :
    v'.ufifo = v.ufifo ∧ v'.rfifo = v.rfifo ∧ v'.wire = v.wire ∧ queued v' = queued v := by
  unfold Vl15.waitOn at hv
  split at hv
  next hpc => obtain rfl := Option.some.inj hv; simp [queued, hpc]
  next hpc => obtain rfl := Option.some.inj hv; simp [queued, hpc]
  next hpc =>
    split_ifs at hv
    obtain rfl := Option.some.inj hv
    simp [queued, hpc]
  next hpc =>
    split_ifs at hv <;> obtain rfl := Option.some.inj hv <;> simp [queued, hpc]
  next hpc => obtain rfl := Option.some.inj hv; simp [queued, hpc]
  · simp at hv

lemma vl_step_typed {c : Cfg} {v v' : Vl15.State} {a : Vl15.Act} (h : Typed v) (hv : Vl15.step c v a = some v') :
    Typed v' := by
  cases a with
  | post m =>
    obtain rfl := Option.some.inj hv
    split_ifs with hm
    · refine ⟨h.ufifo, ?_, h.wire⟩
      simp only [List.forall_mem_append, List.forall_mem_singleton]
      exact ⟨h.rfifo, hm⟩
    · refine ⟨?_, h.rfifo, h.wire⟩
      simp only [List.forall_mem_append, List.forall_mem_singleton]
      exact ⟨h.ufifo, by simpa using hm⟩
  | poll => obtain rfl := Option.some.inj hv; exact ⟨h.ufifo, h.rfifo, h.wire⟩
  | check =>
    simp only [Vl15.step] at hv
    split_ifs at hv <;> obtain rfl := Option.some.inj hv <;> exact ⟨h.ufifo, h.rfifo, h.wire⟩
  | signal =>
    simp only [Vl15.step] at hv
    split_ifs at hv
    obtain rfl := Option.some.inj hv
    exact ⟨h.ufifo, h.rfifo, h.wire⟩
  | complete m =>
    simp only [Vl15.step] at hv
    split_ifs at hv
    obtain rfl := Option.some.inj hv
    exact ⟨h.ufifo, h.rfifo, fun x hx => h.wire x (List.mem_of_mem_erase hx)⟩
  | poller => exact poller_typed h hv
  | wait r =>
    obtain ⟨hu, hr, hw, -⟩ := waitOn_frame hv
    exact ⟨hu ▸ h.ufifo, hr ▸ h.rfifo, hw ▸ h.wire⟩
  | stop => obtain rfl := Option.some.inj hv; exact ⟨h.ufifo, h.rfifo, h.wire⟩

lemma length_erase_mem {m : Madw} {l : List Madw} (h : m ∈ l) : ((l.erase m).length : ℤ) = l.length - 1 := by
  have hlen := List.length_erase_of_mem h
  have hpos := List.length_pos_of_mem h
  omega

lemma vl_step_queued {c : Cfg} {v v' : Vl15.State} {a : Vl15.Act} (h : Typed v)
    (hv : Vl15.step c v a = some v') : queued v' + v'.wire.length = queued v + v.wire.length + added a := by
  cases a with
  | post m =>
    obtain rfl := Option.some.inj hv
    split_ifs with hm
    · simp only [queued, added, hm, if_true, List.length_append, List.length_singleton]
      omega
    · simp [queued, added, hm]
  | poll => obtain rfl := Option.some.inj hv; simp [queued, added]
  | check =>
    simp only [Vl15.step] at hv
    split_ifs at hv <;> obtain rfl := Option.some.inj hv <;> simp [queued, added]
  | signal =>
    simp only [Vl15.step] at hv
    split_ifs at hv
    obtain rfl := Option.some.inj hv
    simp [queued, added]
  | complete m =>
    simp only [Vl15.step] at hv
    split_ifs at hv with hm
    obtain rfl := Option.some.inj hv
    simp only [queued, added, length_erase_mem hm]
    omega
  | poller => simpa [added] using poller_queued h hv
  | wait r =>
    obtain ⟨-, -, hw, hq⟩ := waitOn_frame hv
    simp [hw, hq, added]
  | stop => obtain rfl := Option.some.inj hv; simp [queued, added]

structure Inv (s : State) : Prop where
  typed : Typed s.vl
  handling : ∀ h ∈ s.handling, h.WellFormed

def surplus (s : State) : ℤ := s.outstanding - inProgress s

def exits (s : State) (a : Act) : ℤ := if SideExit s a then 1 else 0

lemma init_inv (c : Cfg) : Inv (init c) where
  typed := ⟨by simp [init, Vl15.init], by simp [init, Vl15.init], by simp [init, Vl15.init]⟩
  handling := by simp [init]

lemma completed_spec {c : Cfg} {s s' : State} {m : Madw} {h : Handling} (hi : Inv s) (hh : h.WellFormed)
    (hs : completed c s m h = some s') : Inv s' ∧ surplus s' = surplus s := by
  obtain ⟨v, hv, rfl⟩ := Option.map_eq_some_iff.mp hs
  have hq := vl_step_queued hi.typed hv
  refine ⟨⟨vl_step_typed hi.typed hv, ?_⟩, ?_⟩
  · simp only [List.forall_mem_append, List.forall_mem_singleton]
    exact ⟨hi.handling, hh⟩
  · simp only [surplus, inProgress, List.length_append, List.length_singleton]
    simp only [added] at hq
    omega

lemma dropped_spec {s s' : State} {m : Madw} (hi : Inv s) (hs : dropped s m = some s') :
    Inv s' ∧ surplus s' = surplus s + 1 := by
  unfold dropped at hs
  split_ifs at hs with hm
  obtain rfl := Option.some.inj hs
  refine ⟨⟨⟨hi.typed.ufifo, hi.typed.rfifo, fun x hx => hi.typed.wire x (List.mem_of_mem_erase hx)⟩,
      hi.handling⟩, ?_⟩
  have hlen := length_erase_mem hm
  simp only [surplus, inProgress, queued]
  omega

lemma retireTransMad_spec {s : State} (hi : Inv s) :
    Inv (retireTransMad s) ∧ surplus (retireTransMad s) = surplus s - 1 := by
  refine ⟨⟨hi.typed, hi.handling⟩, ?_⟩
  simp only [retireTransMad, surplus, inProgress]
  omega

lemma dispDoneCallback_eq (s : State) (p : Madw) :
    dispDoneCallback s p = if isTransaction p then retireTransMad s else s := by
  unfold dispDoneCallback isTransaction
  cases isResponse p <;> cases p.respExpected <;> rfl

lemma dispPost_spec {s : State} {ok : Bool} {p : Madw} (hi : Inv s) :
    Inv (dispPost ok s p) ∧
      surplus (dispPost ok s p) = surplus s - if ok = true ∧ isTransaction p = true then 1 else 0 := by
  unfold dispPost
  cases ok
  · exact ⟨hi, by simp⟩
  · refine ⟨⟨hi.typed, hi.handling⟩, ?_⟩
    simp only [surplus, inProgress, if_true, List.countP_append, List.countP_singleton, true_and]
    split_ifs <;> push_cast <;> omega

lemma outside_spec {s s' : State} {p : Madw} {ok : Bool} {q : Prop} [Decidable q] (hi : Inv s)
    (hp : isTransaction p = false)
    (hs : (if s.exitFlag then some (dispDoneCallback s p)
      else some (if q then dispPost ok s p else s)) = some s') :
    Inv s' ∧ surplus s' = surplus s := by
  have hdone : dispDoneCallback s p = s := by simp [dispDoneCallback_eq, hp]
  obtain ⟨hpost, hsur⟩ := dispPost_spec (s := s)  (p := p) hi
  split_ifs at hs <;> obtain rfl := Option.some.inj hs
  · rw [hdone]
    exact ⟨hi, rfl⟩
  · exact ⟨hpost, by simpa [hp] using hsur⟩
  · exact ⟨hi, rfl⟩

lemma exiting_spec {s s' : State} {p m : Madw} (hi : Inv s) (hp : isTransaction p = true)
    (hs : (dropped s m).map (fun s => dispDoneCallback s p) = some s') : Inv s' ∧ surplus s' = surplus s := by
  obtain ⟨s₁, hd, rfl⟩ := Option.map_eq_some_iff.mp hs
  obtain ⟨hi₁, hsur₁⟩ := dropped_spec hi hd
  obtain ⟨hi₂, hsur₂⟩ := retireTransMad_spec hi₁
  rw [dispDoneCallback_eq, if_pos hp]
  exact ⟨hi₂, by omega⟩

lemma rcvCallback_spec {c : Cfg} {s s' : State} {p : Madw} {req : Option Madw} {master ok : Bool} (hi : Inv s)
    (hp : p.respExpected = false) (hs : rcvCallback c s p req master ok = some s') :
    Inv s' ∧ surplus s' = surplus s + exits s (.rcv p req master ok) := by
  unfold rcvCallback at hs
  split at hs
  next m hm =>
    have hresp : isResponse p = true := by simp [isResponse, hm]
    have hexit : exits s (.rcv p (some m) master ok) = 0 := by simp [exits, SideExit, hm]
    rw [hexit, add_zero]
    split_ifs at hs
    · exact exiting_spec hi (by simp [isTransaction, hresp]) hs
    · exact completed_spec (h := .resp p) hi hresp hs
  next m hm =>
    have hresp : isResponse p = true := by simp [isResponse, hm]
    split_ifs at hs with hflag hattr
    · have hexit : exits s (.rcv p (some m) master ok) = 0 := by simp [exits, SideExit, hflag]
      rw [hexit, add_zero]
      exact exiting_spec hi (by simp [isTransaction, hresp]) hs
    · have hexit : exits s (.rcv p (some m) master ok) = 0 := by simp [exits, SideExit, hattr]
      rw [hexit, add_zero]
      exact completed_spec (h := .repress p) hi trivial hs
    · have hexit : exits s (.rcv p (some m) master ok) = 1 := by simp [exits, SideExit, hflag, hattr, hm]
      rw [hexit]
      exact dropped_spec hi hs
  iterate 3
    next hm =>
      have htrans : isTransaction p = false := by simp [isTransaction, isResponse, hm, hp]
      simpa [exits, SideExit] using outside_spec hi htrans hs
  iterate 3
    next hm =>
      have htrans : isTransaction p = false := by simp [isTransaction, isResponse, hm, hp]
      obtain rfl := Option.some.inj hs
      simpa [exits, SideExit, dispDoneCallback_eq, htrans] using hi
  · simp at hs

lemma finish_spec {s : State} {h : Handling} {ok : Bool} (hi : Inv s) (hh : h ∈ s.handling) :
    Inv (finish { s with handling := s.handling.erase h } h ok) ∧
      surplus (finish { s with handling := s.handling.erase h } h ok) = surplus s + exits s (.finish h ok) := by
  set s₁ : State := { s with handling := s.handling.erase h } with hs₁
  have hlen : (s₁.handling.length : ℤ) = s.handling.length - 1 := by
    have hlen := List.length_erase_of_mem hh
    have hpos := List.length_pos_of_mem hh
    simp only [hs₁]
    omega
  have hi₁ : Inv s₁ := ⟨hi.typed, fun x hx => hi.handling x (List.mem_of_mem_erase hx)⟩
  have hsur : surplus s₁ = surplus s + 1 := by
    simp only [surplus, inProgress] at hlen ⊢
    simp only [hs₁] at hlen ⊢
    omega
  have hwf := hi.handling h hh
  cases h with
  | resp p =>
    have htrans : isTransaction p = true := by simp [isTransaction, show isResponse p = true from hwf]
    obtain ⟨hpost, hpsur⟩ := dispPost_spec (s := s₁) (p := p) hi₁ 
    by_cases hmsg : getRespMsg p.attrId = none
    · rw [finish, if_pos hmsg]
      exact ⟨hi₁, by simpa [exits, SideExit, hmsg] using hsur⟩
    · rw [finish, if_neg hmsg]
      refine ⟨hpost, ?_⟩
      cases ok <;> simp [exits, SideExit, hmsg, htrans] at hpsur ⊢ <;> omega
  | repress p =>
    obtain ⟨hret, hrsur⟩ := retireTransMad_spec hi₁
    have hexit : exits s (.finish (.repress p) ok) = 0 := if_neg id
    exact ⟨hret, by rw [hexit, finish]; omega⟩
  | err m =>
    have htrans : isTransaction m = true := by simp [isTransaction, show m.respExpected = true from hwf]
    obtain ⟨hpost, hpsur⟩ := dispPost_spec (s := s₁) (p := m) hi₁ 
    obtain ⟨hret, hrsur⟩ := retireTransMad_spec hi₁
    cases hmsg : m.errMsg
    · simp only [finish, exits, SideExit, hmsg, Bool.false_eq_true, false_and, if_false]
      exact ⟨hret, by omega⟩
    · simp only [finish, exits, SideExit, hmsg, if_true, true_and]
      refine ⟨hpost, ?_⟩
      cases ok <;> simp [htrans] at hpsur ⊢ <;> omega

lemma vl_spec {c : Cfg} {s : State} {v : Vl15.State} {a : Vl15.Act} {o : ℤ} (hi : Inv s)
    (hv : Vl15.step c s.vl a = some v) (ho : o = s.outstanding + added a) :
    Inv { s with vl := v, outstanding := o } ∧ surplus { s with vl := v, outstanding := o } = surplus s := by
  have hq := vl_step_queued hi.typed hv
  refine ⟨⟨vl_step_typed hi.typed hv, hi.handling⟩, ?_⟩
  simp only [surplus, inProgress]
  omega

lemma step_spec {c : Cfg} {s s' : State} {a : Act} (hi : Inv s) (hs : step c s a = some s') :
    Inv s' ∧ surplus s' = surplus s + exits s a := by
  cases a with
  | vl a =>
    have hexit : exits s (.vl a) = 0 := if_neg id
    rw [hexit, add_zero]
    cases a with
    | complete m => simp [step] at hs
    | post m =>
      simp only [step, Option.map_eq_some_iff] at hs
      obtain ⟨v, hv, rfl⟩ := hs
      exact vl_spec hi hv (by simp only [added]; split_ifs <;> omega)
    | _ =>
      simp only [step, Option.map_eq_some_iff] at hs
      obtain ⟨v, hv, rfl⟩ := hs
      exact vl_spec hi hv (by simp only [added]; omega)
  | rcv p req master ok =>
    simp only [step] at hs
    split_ifs at hs with hp
    exact rcvCallback_spec hi (by simpa using hp) hs
  | sendErr m =>
    have hexit : exits s (.sendErr m) = 0 := if_neg id
    rw [hexit, add_zero]
    have hm : m ∈ s.vl.wire := by
      by_contra hm
      simp [step, completed, Vl15.step, hm] at hs
    exact completed_spec (h := .err m) hi (hi.typed.wire m hm) hs
  | finish h ok =>
    simp only [step] at hs
    split_ifs at hs with hh
    obtain rfl := Option.some.inj hs
    exact finish_spec hi hh
  | dispDone p =>
    have hexit : exits s (.dispDone p) = 0 := if_neg id
    rw [hexit, add_zero]
    simp only [step] at hs
    split_ifs at hs with hp
    obtain rfl := Option.some.inj hs
    have hcount := (List.perm_cons_erase hp).countP_eq isTransaction
    rw [List.countP_cons] at hcount
    have hi₁ : Inv { s with disp := s.disp.erase p } := ⟨hi.typed, hi.handling⟩
    obtain ⟨hret, hrsur⟩ := retireTransMad_spec hi₁
    rw [dispDoneCallback_eq]
    simp only [surplus, inProgress] at hrsur ⊢
    split_ifs with htrans
    · rw [if_pos htrans] at hcount
      exact ⟨hret, by omega⟩
    · rw [if_neg htrans] at hcount
      refine ⟨hi₁, ?_⟩
      simp only
      omega
  | exit =>
    have hexit : exits s .exit = 0 := if_neg id
    obtain rfl := Option.some.inj hs
    exact ⟨⟨hi.typed, hi.handling⟩, by rw [hexit]; simp [surplus, inProgress]⟩
  | shutdown =>
    have hexit : exits s .shutdown = 0 := if_neg id
    obtain rfl := Option.some.inj hs
    refine ⟨⟨⟨by simp, by simp, hi.typed.wire⟩, hi.handling⟩, ?_⟩
    simp only [hexit, surplus, inProgress, queued, List.length_nil]
    push_cast
    omega

lemma sum_exits (l : List (State × Act)) :
    (l.map fun x => exits x.1 x.2).sum = l.countP fun x => decide (SideExit x.1 x.2) := by
  induction l with
  | nil => rfl
  | cons x l ih =>
    rw [List.map_cons, List.sum_cons, ih, List.countP_cons, exits]
    by_cases hx : SideExit x.1 x.2
    · simp [hx, add_comm]
    · simp [hx]

/-- The count is the requests in progress, and so zero when there are none. -/
structure Accounted (s : State) : Prop where
  outstanding : s.outstanding = inProgress s
  clean : s.vl.rfifo = [] → (∀ m, s.vl.pc ≠ .send m) → s.vl.wire = [] → s.handling = [] → s.disp = [] →
    s.outstanding = 0

theorem run_accounted {c : Cfg} {l : List (State × Act)} {s : State} (h : CtrlRun c l s) :
    Accounted s ↔ ∀ x ∈ l, ¬SideExit x.1 x.2 := by
  obtain ⟨-, hsum⟩ := h.sum (init_inv c) fun _ _ _ => step_spec
  have hzero : s.outstanding = inProgress s ↔ ∀ x ∈ l, ¬SideExit x.1 x.2 := by
    have hinit : surplus (init c) = 0 := rfl
    rw [← sub_eq_zero, ← surplus, hsum, hinit, zero_add, sum_exits]
    simp
  refine ⟨fun ha => hzero.mp ha.outstanding, fun hl => ⟨hzero.mpr hl, ?_⟩⟩
  intro hr hpc hw hh hd
  rw [hzero.mpr hl]
  simp only [inProgress, queued, hr, hw, hh, hd, List.length_nil, List.countP_nil]
  simp

def request : Madw := ⟨1, .get, .portInfo, true, false⟩

def response (attr : AttrId) : Madw := ⟨1, .getResp, attr, false, false⟩

/-- A request is sent, answered with some attribute and passed to the dispatcher. -/
def answered (attr : AttrId) : List Act :=
  [.vl (.post request), .vl .poller, .vl .poller, .vl .poller, .rcv (response attr) (some request) true true,
    .finish (.resp (response attr)) true]

def oneWire : Cfg := ⟨1, 1⟩

theorem run_accounted_answered :
    Accounted ((exec (step oneWire) (init oneWire) (answered .portInfo)).getD (init oneWire)) ↔
      ∀ x ∈ trace (step oneWire) (init oneWire) (answered .portInfo), ¬SideExit x.1 x.2 :=
  run_accounted (Run.nil.append (answered .portInfo) rfl)

/-- An answer of an attribute the controller does not know leaves the count at one for ever. -/
theorem unsupported_not_retired : ∃ l s, CtrlRun oneWire l s ∧ ¬Accounted s := by
  refine ⟨_, _, Run.nil.append (answered .notice) rfl, ?_⟩
  intro h
  exact absurd h.outstanding (by decide)

end OpenSM.SmMadCtrl
