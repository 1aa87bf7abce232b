import Mathlib
import OpenSM.Lib.Runs

/-! The throttle of the performance manager: the sweep thread and the dispatcher threads send queries and
wait on one event, the callbacks of the vendor layer count the answers. Every atomic operation, every
section under the lock and every event operation is a step of its own. -/

namespace OpenSM.PerfMgr

open Lib.Runs

/-- `osm_perfmgr_sweep_state_t`. -/
inductive SweepState
  | sleep
  | active
  | suspended
  | postProcessing
  deriving DecidableEq

/-- Where a thread is in `perfmgr_send_mad`. -/
inductive Pc
  | out
  /-- the query is sent, `cl_atomic_inc` comes next -/
  | counting
  | testing
  | entering
  /-- `cl_event_wait_on` comes next -/
  | waiting
  /-- in `pthread_cond_wait` -/
  | blocked
  /-- woken, but not yet through `cl_event_wait_on` -/
  | woken
  | leaving
  deriving DecidableEq

/-- The sweep thread is `none`, the dispatcher threads are the others. -/
abbrev Thread (n : ℕ) := Option (Fin n)

structure Throttle (n : ℕ) where
  sweepState : SweepState
  outstandingQueries : ℤ
  /-- `sig_query.signaled` -/
  signaled : Bool
  pc : Thread n → Pc
  /-- the sweep thread is in `osm_perfmgr_process` -/
  sweeping : Bool
  /-- a dispatcher thread is in `pc_recv_process` -/
  busy : Fin n → Bool
  posted : ℕ
  /-- queries sent that no callback has been called for -/
  inFlight : ℕ
  /-- callbacks that have counted down and not yet looked at the counter -/
  reading : ℕ
  /-- callbacks that found it zero and come to the section under the lock -/
  resetting : ℕ
  /-- callbacks that come to `cl_event_signal` -/
  signalling : ℕ

def init (n : ℕ) : Throttle n where
  sweepState := .sleep
  outstandingQueries := 0
  signaled := false
  pc _ := .out
  sweeping := false
  busy _ := false
  posted := 0
  inFlight := 0
  reading := 0
  resetting := 0
  signalling := 0

inductive Action (n : ℕ)
  | startSweep
  | endSweep
  | take (i : Fin n)
  | finish (i : Fin n)
  | send (t : Thread n)
  | count (t : Thread n)
  | test (t : Thread n)
  | enter (t : Thread n)
  | wait (t : Thread n)
  | wake (t : Thread n)
  | resume (t : Thread n)
  | leave (t : Thread n)
  | answer
  | read
  | reset
  /-- `t` is the thread the condition variable releases; a response is then posted to the dispatcher -/
  | signal (t : Option (Thread n)) (post : Bool)

variable {n : ℕ} (maxOutstandingQueries : ℕ)

/-- The cast to `int32_t`. -/
def int32 (x : ℕ) : ℤ := (BitVec.ofNat 32 x).toInt

def Throttle.goto (s : Throttle n) (t : Thread n) (c : Pc) : Throttle n :=
  { s with pc := Function.update s.pc t c }

def Throttle.maySend (s : Throttle n) : Thread n → Bool
  | none => s.sweeping
  | some i => s.busy i

/-- `osm_perfmgr_process` up to its queries, and its end. -/
def processStart (s : Throttle n) : Option (Throttle n) :=
  if s.sweeping then none
  else if s.sweepState = .sleep then some { s with sweepState := .active, sweeping := true }
  else some s

def processEnd (s : Throttle n) : Option (Throttle n) :=
  if s.sweeping ∧ s.pc none = .out then some { s with sweepState := .sleep, sweeping := false } else none

/-- The two sections under the lock in `perfmgr_send_mad`. -/
def sendMadEnter (s : Throttle n) : SweepState :=
  match s.sweepState with
  | .sleep => .postProcessing
  | .active => .suspended
  | st => st

def sendMadLeave (s : Throttle n) : SweepState :=
  match s.sweepState with
  | .suspended => .active
  | st => st

def sendMad (s : Throttle n) (t : Thread n) : Pc → Option (Throttle n)
  | .out => if s.maySend t then some { s.goto t .counting with inFlight := s.inFlight + 1 } else none
  | .counting => some { s.goto t .testing with outstandingQueries := s.outstandingQueries + 1 }
  | .testing =>
    some (if int32 maxOutstandingQueries < s.outstandingQueries then s.goto t .entering else s.goto t .out)
  | .entering => some { s.goto t .waiting with sweepState := sendMadEnter s }
  -- `cl_event_wait_on`: the event resets itself
  | .waiting => some (if s.signaled then { s.goto t .leaving with signaled := false } else s.goto t .blocked)
  | .blocked => some (s.goto t .woken)
  | .woken => some { s.goto t .leaving with signaled := false }
  | .leaving => some { s.goto t .testing with sweepState := sendMadLeave s }

/-- `cl_event_signal`: a thread that is blocked on the event is woken, if there is one. -/
def eventSignal (s : Throttle n) (t : Option (Thread n)) : Option (Throttle n) :=
  match t with
  | some t => if s.pc t = .blocked then some { s.goto t .woken with signaled := true } else none
  | none => if ∀ t, s.pc t ≠ .blocked then some { s with signaled := true } else none

/-- `decrement_outstanding_queries`, operation by operation. -/
def decrementDec (s : Throttle n) : Option (Throttle n) :=
  if 0 < s.inFlight then
    some { s with
      inFlight := s.inFlight - 1, outstandingQueries := s.outstandingQueries - 1, reading := s.reading + 1 }
  else none

def decrementRead (s : Throttle n) : Option (Throttle n) :=
  if 0 < s.reading then
    some (if s.outstandingQueries = 0 then { s with reading := s.reading - 1, resetting := s.resetting + 1 }
      else { s with reading := s.reading - 1, signalling := s.signalling + 1 })
  else none

def decrementReset (s : Throttle n) : Option (Throttle n) :=
  if 0 < s.resetting then
    some { s with
      sweepState := if s.sweepState = .postProcessing then .sleep else s.sweepState
      resetting := s.resetting - 1
      signalling := s.signalling + 1 }
  else none

def decrementSignal (s : Throttle n) (t : Option (Thread n)) (post : Bool) : Option (Throttle n) :=
  if 0 < s.signalling then
    (eventSignal s t).map fun s' => { s' with
      signalling := s.signalling - 1, posted := if post then s.posted + 1 else s.posted }
  else none

def step (s : Throttle n) : Action n → Option (Throttle n)
  | .startSweep => processStart s
  | .endSweep => processEnd s
  | .take i =>
    if s.busy i = false ∧ 0 < s.posted then
      some { s with busy := Function.update s.busy i true, posted := s.posted - 1 }
    else none
  | .finish i =>
    if s.busy i ∧ s.pc (some i) = .out then some { s with busy := Function.update s.busy i false } else none
  | .send t => if s.pc t = .out then sendMad maxOutstandingQueries s t .out else none
  | .count t => if s.pc t = .counting then sendMad maxOutstandingQueries s t .counting else none
  | .test t => if s.pc t = .testing then sendMad maxOutstandingQueries s t .testing else none
  | .enter t => if s.pc t = .entering then sendMad maxOutstandingQueries s t .entering else none
  | .wait t => if s.pc t = .waiting then sendMad maxOutstandingQueries s t .waiting else none
  | .wake t => if s.pc t = .blocked then sendMad maxOutstandingQueries s t .blocked else none
  | .resume t => if s.pc t = .woken then sendMad maxOutstandingQueries s t .woken else none
  | .leave t => if s.pc t = .leaving then sendMad maxOutstandingQueries s t .leaving else none
  | .answer => decrementDec s
  | .read => decrementRead s
  | .reset => decrementReset s
  | .signal t post => decrementSignal s t post

/-- Every query has been answered, and the callback is through. -/
def Throttle.Quiet (s : Throttle n) : Prop :=
  s.inFlight = 0 ∧ s.reading = 0 ∧ s.resetting = 0 ∧ s.signalling = 0

/-- The thread has found too many queries and depends on a signal. -/
def Throttle.Waits (s : Throttle n) (t : Thread n) : Prop :=
  s.pc t = .entering ∨ s.pc t = .waiting ∨ s.pc t = .blocked

/-- A callback will look at the counter, or has found it zero and is about to end post processing. -/
def Throttle.Watched (s : Throttle n) : Prop := s.outstandingQueries ≠ 0 ∨ 0 < s.reading ∨ 0 < s.resetting

structure NeverStuck (s : Throttle n) : Prop where
  rest : s.Quiet → (∀ t, s.pc t = .out) → s.sweeping = false →
    s.outstandingQueries = 0 ∧ s.sweepState = .sleep
  waiter : ∀ t, s.pc t = .waiting ∨ s.pc t = .blocked → s.outstandingQueries ≤ maxOutstandingQueries →
    s.Quiet → s.signaled = true

/-- Post processing is entered, and the counter completed, only while a callback is still to look at it,
and a signal is taken from another waiting thread only while there is an answer to come. -/
def Careful (s : Throttle n) : Action n → Prop
  | .enter _ => s.sweepState = .sleep → s.Watched
  | .count _ => s.sweepState = .postProcessing → s.outstandingQueries = -1 → 0 < s.reading ∨ 0 < s.resetting
  | .wait t => s.signaled = true → (∃ t', t' ≠ t ∧ s.Waits t') → ¬ s.Quiet
  | .resume t => (∃ t', t' ≠ t ∧ s.Waits t') → ¬ s.Quiet
  | _ => True

def Throttle.uncounted (s : Throttle n) : ℕ := (Finset.univ.filter fun t => s.pc t = .counting).card

structure Alive (s : Throttle n) : Prop where
  balance : s.outstandingQueries = s.inFlight - s.uncounted
  sweeping : s.sweeping = true ↔ s.sweepState = .active ∨ s.sweepState = .suspended
  post : s.sweepState = .postProcessing → s.Watched
  signaled : s.Quiet → (∃ t, s.Waits t) → s.signaled = true

section Goto

variable {s : Throttle n} {t t' : Thread n} {c : Pc}

lemma goto_pc (s : Throttle n) (t : Thread n) (c : Pc) (t' : Thread n) :
    (s.goto t c).pc t' = if t' = t then c else s.pc t' := by
  rw [Throttle.goto]
  exact Function.update_apply _ _ _ _

lemma uncounted_goto (h : s.pc t ≠ .counting) (hc : c ≠ .counting) : (s.goto t c).uncounted = s.uncounted := by
  simp only [Throttle.uncounted]
  congr 1
  ext x
  simp only [Finset.mem_filter, Finset.mem_univ, true_and, goto_pc]
  split_ifs with hx
  · rw [hx]
    exact iff_of_false hc h
  · exact Iff.rfl

lemma uncounted_send (h : s.pc t ≠ .counting) : (s.goto t .counting).uncounted = s.uncounted + 1 := by
  simp only [Throttle.uncounted]
  rw [← Finset.card_insert_of_notMem (a := t) (by simpa using h)]
  congr 1
  ext x
  simp only [Finset.mem_filter, Finset.mem_univ, true_and, goto_pc, Finset.mem_insert]
  by_cases hx : x = t <;> simp [hx]

lemma uncounted_count (h : s.pc t = .counting) (hc : c ≠ .counting) :
    (s.goto t c).uncounted + 1 = s.uncounted := by
  simp only [Throttle.uncounted]
  rw [← Finset.card_insert_of_notMem (a := t) (by simpa [goto_pc] using hc)]
  congr 1
  ext x
  simp only [Finset.mem_filter, Finset.mem_univ, true_and, goto_pc, Finset.mem_insert]
  by_cases hx : x = t <;> simp [hx, h]

lemma waits_goto (h : (s.goto t c).Waits t') :
    t' = t ∧ (c = .entering ∨ c = .waiting ∨ c = .blocked) ∨ t' ≠ t ∧ s.Waits t' := by
  simp only [Throttle.Waits, goto_pc] at h ⊢
  by_cases ht : t' = t
  · simp only [if_pos ht] at h
    exact Or.inl ⟨ht, h⟩
  · simp only [if_neg ht] at h
    exact Or.inr ⟨ht, h⟩

end Goto

lemma alive_init : Alive (init n) where
  balance := by simp [init, Throttle.uncounted]
  sweeping := by simp [init]
  post := by simp [init]
  signaled := by
    rintro - ⟨t, h⟩
    simp [Throttle.Waits, init] at h

section Step

variable {s s' : Throttle n} {t : Thread n}

lemma int32_of_lt {x : ℕ} (h : x < 2 ^ 31) : int32 x = x := by
  rw [int32, BitVec.toInt_eq_toNat_of_lt, BitVec.toNat_ofNat, Nat.mod_eq_of_lt (by omega)]
  rw [BitVec.toNat_ofNat, Nat.mod_eq_of_lt (by omega)]
  omega

lemma Alive.goto {c : Pc} (h : Alive s) (hpc : s.pc t ≠ .counting) (hc : c ≠ .counting)
    (hw : c = .entering ∨ c = .waiting ∨ c = .blocked → s.Quiet → s.signaled = true) : Alive (s.goto t c) where
  balance := by
    rw [uncounted_goto hpc hc]
    exact h.balance
  sweeping := h.sweeping
  post := h.post
  signaled := by
    rintro hq ⟨t', ht'⟩
    rcases waits_goto ht' with ⟨-, hc'⟩ | ⟨-, ht'⟩
    · exact hw hc' hq
    · exact h.signaled hq ⟨t', ht'⟩

lemma Alive.processStart (h : Alive s) (hs : processStart s = some s') : Alive s' := by
  rw [PerfMgr.processStart] at hs
  split_ifs at hs with h₁ h₂
  · obtain rfl := Option.some.inj hs
    exact ⟨h.balance, by simp, by simp, h.signaled⟩
  · obtain rfl := Option.some.inj hs
    exact h

lemma Alive.processEnd (h : Alive s) (hs : processEnd s = some s') : Alive s' := by
  rw [PerfMgr.processEnd] at hs
  split_ifs at hs
  obtain rfl := Option.some.inj hs
  exact ⟨h.balance, by simp, by simp, h.signaled⟩

lemma Alive.send (h : Alive s) (hpc : s.pc t = .out)
    (hs : sendMad maxOutstandingQueries s t .out = some s') : Alive s' := by
  rw [sendMad] at hs
  split_ifs at hs
  obtain rfl := Option.some.inj hs
  have hne : s.pc t ≠ .counting := by simp [hpc]
  refine ⟨?_, h.sweeping, h.post, ?_⟩
  · have hb := h.balance
    have hu := uncounted_send hne
    change s.outstandingQueries = ((s.inFlight + 1 : ℕ) : ℤ) - ((s.goto t .counting).uncounted : ℕ)
    rw [hu, hb]
    push_cast
    ring
  · rintro ⟨hq, -⟩
    exact absurd hq (Nat.succ_ne_zero _)

lemma Alive.count (h : Alive s) (hpc : s.pc t = .counting)
    (hcare : s.sweepState = .postProcessing → s.outstandingQueries = -1 → 0 < s.reading ∨ 0 < s.resetting) :
    Alive { s.goto t .testing with outstandingQueries := s.outstandingQueries + 1 } := by
  refine ⟨?_, h.sweeping, ?_, ?_⟩
  · have hb := h.balance
    have hu := uncounted_count (c := .testing) hpc (by simp)
    change s.outstandingQueries + 1 = (s.inFlight : ℤ) - ((s.goto t .testing).uncounted : ℕ)
    omega
  · intro hpost
    by_cases hm : s.outstandingQueries = -1
    · exact Or.inr (hcare hpost hm)
    · left
      change s.outstandingQueries + 1 ≠ 0
      omega
  · rintro hq ⟨t', ht'⟩
    rcases waits_goto (s := s) ht' with ⟨-, hc⟩ | ⟨-, ht'⟩
    · simp at hc
    · exact h.signaled hq ⟨t', ht'⟩

lemma Alive.enter (h : Alive s) (hpc : s.pc t = .entering) (hcare : s.sweepState = .sleep → s.Watched) :
    Alive { s.goto t .waiting with sweepState := sendMadEnter s } := by
  have hgo := h.goto (c := .waiting) (t := t) (by simp [hpc]) (by simp) fun _ hq =>
    h.signaled hq ⟨t, Or.inl hpc⟩
  have hsw := h.sweeping
  refine ⟨hgo.balance, ?_, ?_, hgo.signaled⟩
  · change s.sweeping = true ↔ sendMadEnter s = .active ∨ sendMadEnter s = .suspended
    rw [hsw, sendMadEnter]
    cases s.sweepState <;> simp
  · intro hpost
    change sendMadEnter s = .postProcessing at hpost
    cases hst : s.sweepState with
    | sleep => exact hcare hst
    | postProcessing => exact h.post hst
    | active => simp [sendMadEnter, hst] at hpost
    | suspended => simp [sendMadEnter, hst] at hpost

lemma Alive.leave (h : Alive s) (hpc : s.pc t = .leaving) :
    Alive { s.goto t .testing with sweepState := sendMadLeave s } := by
  have hgo := h.goto (c := .testing) (t := t) (by simp [hpc]) (by simp) (by simp)
  refine ⟨hgo.balance, ?_, ?_, hgo.signaled⟩
  · change s.sweeping = true ↔ sendMadLeave s = .active ∨ sendMadLeave s = .suspended
    rw [h.sweeping, sendMadLeave]
    cases s.sweepState <;> simp
  · intro hpost
    change sendMadLeave s = .postProcessing at hpost
    refine h.post ?_
    cases hst : s.sweepState <;> simp_all [sendMadLeave]

lemma Alive.taken (h : Alive s) (hpc : s.pc t = .waiting ∨ s.pc t = .woken)
    (hcare : (∃ t', t' ≠ t ∧ s.Waits t') → ¬ s.Quiet) :
    Alive { s.goto t .leaving with signaled := false } := by
  have hgo := h.goto (c := .leaving) (t := t) (by rcases hpc with hpc | hpc <;> simp [hpc]) (by simp) (by simp)
  refine ⟨hgo.balance, hgo.sweeping, hgo.post, ?_⟩
  rintro hq ⟨t', ht'⟩
  rcases waits_goto (s := s) ht' with ⟨-, hc⟩ | hother
  · simp at hc
  · exact absurd hq (hcare ⟨t', hother⟩)

lemma Alive.test (h : Alive s) (hmax : maxOutstandingQueries < 2 ^ 31) (hpc : s.pc t = .testing)
    (hs : sendMad maxOutstandingQueries s t .testing = some s') : Alive s' := by
  obtain rfl := Option.some.inj hs
  rw [int32_of_lt hmax]
  split_ifs with hlt
  · refine h.goto (by simp [hpc]) (by simp) fun _ hq => ?_
    have hb := h.balance
    have h0 := hq.1
    omega
  · exact h.goto (by simp [hpc]) (by simp) (by simp)

lemma Alive.decrementDec (h : Alive s) (hs : decrementDec s = some s') : Alive s' := by
  rw [PerfMgr.decrementDec] at hs
  split_ifs at hs with hpos
  obtain rfl := Option.some.inj hs
  refine ⟨?_, h.sweeping, fun _ => Or.inr (Or.inl (Nat.succ_pos _)), ?_⟩
  · have hb := h.balance
    change s.outstandingQueries - 1 = ((s.inFlight - 1 : ℕ) : ℤ) - (s.uncounted : ℕ)
    omega
  · rintro ⟨-, hq, -⟩
    exact absurd hq (Nat.succ_ne_zero _)

lemma Alive.decrementRead (h : Alive s) (hs : decrementRead s = some s') : Alive s' := by
  rw [PerfMgr.decrementRead] at hs
  split_ifs at hs with hpos hzero
  · obtain rfl := Option.some.inj hs
    refine ⟨h.balance, h.sweeping, fun _ => Or.inr (Or.inr (Nat.succ_pos _)), ?_⟩
    rintro ⟨-, -, hq, -⟩
    exact absurd hq (Nat.succ_ne_zero _)
  · obtain rfl := Option.some.inj hs
    refine ⟨h.balance, h.sweeping, fun _ => Or.inl hzero, ?_⟩
    rintro ⟨-, -, -, hq⟩
    exact absurd hq (Nat.succ_ne_zero _)

lemma Alive.decrementReset (h : Alive s) (hs : decrementReset s = some s') : Alive s' := by
  rw [PerfMgr.decrementReset] at hs
  split_ifs at hs with hpos
  all_goals
    obtain rfl := Option.some.inj hs
    refine ⟨h.balance, ?_, ?_, ?_⟩
    · have hsw := h.sweeping
      simp_all
    · intro hpost
      simp_all
    · rintro ⟨-, -, -, hq⟩
      exact absurd hq (Nat.succ_ne_zero _)

lemma Alive.decrementSignal (h : Alive s) {w : Option (Thread n)} {post : Bool}
    (hs : decrementSignal s w post = some s') : Alive s' := by
  rw [PerfMgr.decrementSignal] at hs
  by_cases hpos : 0 < s.signalling
  swap
  · rw [if_neg hpos] at hs
    cases hs
  rw [if_pos hpos] at hs
  obtain ⟨u, hu, rfl⟩ := Option.map_eq_some_iff.mp hs
  cases w with
  | none =>
    rw [eventSignal] at hu
    split_ifs at hu
    obtain rfl := Option.some.inj hu
    exact ⟨h.balance, h.sweeping, h.post, fun _ _ => rfl⟩
  | some t =>
    rw [eventSignal] at hu
    split_ifs at hu with hpc
    obtain rfl := Option.some.inj hu
    have hgo := h.goto (c := .woken) (t := t) (by simp [hpc]) (by simp) (by simp)
    exact ⟨hgo.balance, hgo.sweeping, hgo.post, fun _ _ => rfl⟩

lemma Alive.step (h : Alive s) (hmax : maxOutstandingQueries < 2 ^ 31) {a : Action n} (hcare : Careful s a)
    (hs : step maxOutstandingQueries s a = some s') : Alive s' := by
  cases a with
  | startSweep => exact h.processStart hs
  | endSweep => exact h.processEnd hs
  | take i =>
    simp only [PerfMgr.step] at hs
    split_ifs at hs
    obtain rfl := Option.some.inj hs
    exact ⟨h.balance, h.sweeping, h.post, h.signaled⟩
  | finish i =>
    simp only [PerfMgr.step] at hs
    split_ifs at hs
    obtain rfl := Option.some.inj hs
    exact ⟨h.balance, h.sweeping, h.post, h.signaled⟩
  | send t =>
    simp only [PerfMgr.step] at hs
    split_ifs at hs with hpc
    exact h.send maxOutstandingQueries hpc hs
  | count t =>
    simp only [PerfMgr.step] at hs
    split_ifs at hs with hpc
    obtain rfl := Option.some.inj hs
    exact h.count hpc hcare
  | test t =>
    simp only [PerfMgr.step] at hs
    split_ifs at hs with hpc
    exact h.test maxOutstandingQueries hmax hpc hs
  | enter t =>
    simp only [PerfMgr.step] at hs
    split_ifs at hs with hpc
    obtain rfl := Option.some.inj hs
    exact h.enter hpc hcare
  | wait t =>
    simp only [PerfMgr.step] at hs
    split_ifs at hs with hpc
    obtain rfl := Option.some.inj hs
    split_ifs with hsig
    · exact h.taken (Or.inl hpc) (hcare hsig)
    · exact h.goto (by simp [hpc]) (by simp) fun _ hq => h.signaled hq ⟨t, Or.inr (Or.inl hpc)⟩
  | wake t =>
    simp only [PerfMgr.step] at hs
    split_ifs at hs with hpc
    obtain rfl := Option.some.inj hs
    exact h.goto (by simp [hpc]) (by simp) (by simp)
  | resume t =>
    simp only [PerfMgr.step] at hs
    split_ifs at hs with hpc
    obtain rfl := Option.some.inj hs
    exact h.taken (Or.inr hpc) hcare
  | leave t =>
    simp only [PerfMgr.step] at hs
    split_ifs at hs with hpc
    obtain rfl := Option.some.inj hs
    exact h.leave hpc
  | answer => exact h.decrementDec hs
  | read => exact h.decrementRead hs
  | reset => exact h.decrementReset hs
  | signal w post => exact h.decrementSignal hs

lemma Alive.neverStuck (h : Alive s) : NeverStuck maxOutstandingQueries s where
  rest hq hout hsweep := by
    have hu : s.uncounted = 0 := by simp [Throttle.uncounted, hout]
    have hb := h.balance
    have hzero : s.outstandingQueries = 0 := by
      have h0 := hq.1
      omega
    refine ⟨hzero, ?_⟩
    have hactive := h.sweeping
    cases hst : s.sweepState with
    | sleep => rfl
    | active => simp [hst, hsweep] at hactive
    | suspended => simp [hst, hsweep] at hactive
    | postProcessing =>
      obtain ⟨-, hread, hreset, -⟩ := hq
      rcases h.post hst with h' | h' | h'
      · exact absurd hzero h'
      · omega
      · omega
  waiter t ht _ hq := h.signaled hq ⟨t, Or.inr ht⟩

/-- With a limit that fits 31 bits, a run of careful steps never gets stuck. -/
theorem neverStuck_run (hmax : maxOutstandingQueries < 2 ^ 31) {l : List (Throttle n × Action n)}
    (h : Run (step maxOutstandingQueries) (init n) l s) (hl : ∀ x ∈ l, Careful x.1 x.2) :
    NeverStuck maxOutstandingQueries s :=
  (h.invariant (P := Alive) alive_init (fun _ _ _ hp hq hs => hp.step maxOutstandingQueries hmax hq hs)
    hl).neverStuck maxOutstandingQueries

end Step

section Examples

instance (s : Throttle n) : Decidable s.Quiet :=
  inferInstanceAs (Decidable (s.inFlight = 0 ∧ s.reading = 0 ∧ s.resetting = 0 ∧ s.signalling = 0))

instance (s : Throttle n) (t : Thread n) : Decidable (s.Waits t) :=
  inferInstanceAs (Decidable (s.pc t = .entering ∨ s.pc t = .waiting ∨ s.pc t = .blocked))

instance (s : Throttle n) : Decidable s.Watched :=
  inferInstanceAs (Decidable (s.outstandingQueries ≠ 0 ∨ 0 < s.reading ∨ 0 < s.resetting))

instance (s : Throttle n) : (a : Action n) → Decidable (Careful s a)
  | .enter _ => inferInstanceAs (Decidable (s.sweepState = .sleep → s.Watched))
  | .count _ => inferInstanceAs (Decidable (s.sweepState = .postProcessing → s.outstandingQueries = -1 →
      0 < s.reading ∨ 0 < s.resetting))
  | .wait t => inferInstanceAs (Decidable (s.signaled = true → (∃ t', t' ≠ t ∧ s.Waits t') → ¬ s.Quiet))
  | .resume t => inferInstanceAs (Decidable ((∃ t', t' ≠ t ∧ s.Waits t') → ¬ s.Quiet))
  | .startSweep | .endSweep | .take _ | .finish _ | .send _ | .test _ | .wake _ | .leave _ | .answer | .read
  | .reset | .signal _ _ => isTrue trivial

/-- A sweep that sends two queries with a limit of one and waits for the first answer. -/
def throttled : List (Action 1) :=
  [.startSweep, .send none, .count none, .test none, .send none, .count none, .test none, .enter none,
    .wait none, .answer, .read, .signal (some none) true, .resume none, .leave none, .test none, .endSweep,
    .answer, .read, .reset, .signal none true]

theorem neverStuck_throttled : ∃ l s, Run (step 1) (init 1) l s ∧ (∀ x ∈ l, Careful x.1 x.2) ∧
    s.posted = 2 ∧ NeverStuck 1 s := by
  obtain ⟨l, s, h, hp, hl⟩ := Run.of_exec (step 1) (init 1) throttled (fun s => decide (s.posted = 2))
    (fun x => decide (Careful x.1 x.2)) (by decide +kernel) (by decide +kernel)
  have hcare : ∀ x ∈ l, Careful x.1 x.2 := fun x hx => of_decide_eq_true (hl x hx)
  exact ⟨l, s, h, hcare, of_decide_eq_true hp, neverStuck_run 1 (by decide) h hcare⟩

/-- A dispatcher thread finds two queries outstanding; both are answered before it takes the lock. -/
def latePost (t : Fin 1) : List (Action 1) :=
  [.startSweep, .send none, .count none, .test none, .answer, .read, .reset, .signal none true,
    .send none, .count none, .test none, .endSweep, .take t, .send (some t), .count (some t), .test (some t),
    .answer, .read, .signal none true, .answer, .read, .reset, .signal none true,
    .enter (some t), .wait (some t), .leave (some t), .test (some t)]

/-- The sweep thread and a dispatcher thread are about to wait; the three answers leave one signal. -/
def lostSignal (t : Fin 1) : List (Action 1) :=
  [.startSweep, .send none, .count none, .test none, .answer, .read, .reset, .signal none true,
    .send none, .count none, .test none, .send none, .count none, .test none, .enter none,
    .take t, .send (some t), .count (some t), .test (some t), .enter (some t),
    .answer, .read, .signal none true, .answer, .read, .signal none true,
    .answer, .read, .reset, .signal none true,
    .wait none, .leave none, .test none, .wait (some t)]

/-- Post processing is never left again, and a waiting thread is never woken. -/
theorem stuck_runs :
    (∃ l s, Run (step 1) (init 1) l s ∧ s.Quiet ∧ (∀ t, s.pc t = .out) ∧ s.sweeping = false ∧
      ¬ (s.outstandingQueries = 0 ∧ s.sweepState = .sleep)) ∧
    ∃ l s, Run (step 1) (init 1) l s ∧ s.Quiet ∧ s.pc (some 0) = .blocked ∧ s.outstandingQueries ≤ 1 ∧
      s.signaled = false := by
  constructor
  · obtain ⟨l, s, h, hp, -⟩ := Run.of_exec (step 1) (init 1) (latePost 0)
      (fun s => decide (s.Quiet ∧ (∀ t, s.pc t = .out) ∧ s.sweeping = false ∧
        ¬ (s.outstandingQueries = 0 ∧ s.sweepState = .sleep))) (fun _ => true) (by decide +kernel)
      (by decide +kernel)
    exact ⟨l, s, h, of_decide_eq_true hp⟩
  · obtain ⟨l, s, h, hp, -⟩ := Run.of_exec (step 1) (init 1) (lostSignal 0)
      (fun s => decide (s.Quiet ∧ s.pc (some 0) = .blocked ∧ s.outstandingQueries ≤ 1 ∧
        s.signaled = false)) (fun _ => true) (by decide +kernel) (by decide +kernel)
    exact ⟨l, s, h, of_decide_eq_true hp⟩

end Examples

end OpenSM.PerfMgr
