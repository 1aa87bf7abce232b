import Mathlib
import OpenSM.Lib.Runs
import OpenSM.Lib.TailInsert

/-! The timers and the thread that runs their callbacks. Every section under the provider's mutex is a step of
its own; the thread that is in a callback makes calls like the others. -/

namespace OpenSM.ClTimer

structure Timespec where
  sec : ℕ
  nsec : ℕ
  deriving DecidableEq

def Timespec.isEarlier (timeout1 timeout2 : Timespec) : Bool :=
  decide (timeout1.sec < timeout2.sec) ||
    (decide (timeout1.sec = timeout2.sec) && decide (timeout1.nsec < timeout2.nsec))

/-- `__cl_timer_calculate`, for a clock in microseconds. -/
def calculate (now timeMs : ℕ) : Timespec :=
  let sec := now / 1000000 + timeMs / 1000
  let usec := now % 1000000 + timeMs % 1000 * 1000
  -- `timeradd`
  if 1000000 ≤ usec then ⟨sec + 1, (usec - 1000000) * 1000⟩ else ⟨sec, usec * 1000⟩

inductive TimerState
  | idle
  | queued
  | running
  deriving DecidableEq

inductive Prov (τ : Type*)
  /-- about to take the mutex at the loop's head, its wait over for another reason than the time -/
  | awake
  /-- in `pthread_cond_wait` -/
  | sleeping
  /-- in `pthread_cond_timedwait` for the head of the queue, with a copy of its timeout -/
  | timed (p : τ) (abstime : Timespec)
  /-- out of `pthread_cond_timedwait` with `ETIMEDOUT`, but for the mutex -/
  | expired (p : τ)
  | running (p : τ)
  deriving DecidableEq

/-- What a thread has under way between two sections. -/
inductive Call (τ : Type*)
  | none
  /-- in `cl_timer_trim`, before its call of `cl_timer_start` -/
  | trimming (p : τ) (timeMs : ℕ)
  /-- in the `pthread_cond_wait` of `cl_timer_stop`, for the callback with this number -/
  | blocked (p : τ) (run : ℕ)
  | woken (p : τ)
  deriving DecidableEq

def Call.blockedOn {τ : Type*} [DecidableEq τ] (p : τ) : Call τ → Bool
  | .blocked q _ => decide (q = p)
  | _ => false

/-- A callback that has begun: for which start of the timer, its timeout then, and when. -/
structure Begun (τ : Type*) where
  timer : τ
  serial : ℕ
  timeout : Timespec
  time : ℕ
  deriving DecidableEq

/-- The provider, with `m` client threads; the timer thread makes its calls as `none`. -/
structure Timers (τ : Type*) (m : ℕ) where
  now : ℕ
  queue : List τ
  timerState : τ → TimerState
  timeout : τ → Timespec
  prov : Prov τ
  call : Option (Fin m) → Call τ
  /-- the number of starts, the callbacks that have begun, and which timers have been stopped and not been started
  again -/
  starts : τ → ℕ
  begun : List (Begun τ)
  stopped : τ → Bool

def init (τ : Type*) (m : ℕ) : Timers τ m where
  now := 0
  queue := []
  timerState _ := .idle
  timeout _ := ⟨0, 0⟩
  prov := .awake
  call _ := .none
  starts _ := 0
  begun := []
  stopped _ := false

variable {τ : Type*} [DecidableEq τ] {m : ℕ}

namespace Timers

/-- `pthread_cond_signal(&gp_timer_prov->cond)`. -/
def signal (s : Timers τ m) : Timers τ m :=
  { s with prov := match s.prov with
      | .sleeping | .timed _ _ => .awake
      | prov => prov }

def setCall (s : Timers τ m) (w : Option (Fin m)) (c : Call τ) : Timers τ m :=
  { s with call := Function.update s.call w c }

def insert (timeout : τ → Timespec) (queue : List τ) (p : τ) : List τ :=
  Lib.TailInsert.insertAfter (fun q => (timeout q).isEarlier (timeout p)) queue p

/-- The section of `cl_timer_start`. -/
def start (s : Timers τ m) (p : τ) (timeMs : ℕ) : Timers τ m :=
  let s := s.signal
  let queue := if s.timerState p = .queued then s.queue.erase p else s.queue
  let timeout := Function.update s.timeout p (calculate s.now timeMs)
  { s with
    queue := insert timeout queue p
    timerState := Function.update s.timerState p .queued
    timeout := timeout
    starts := Function.update s.starts p (s.starts p + 1)
    stopped := Function.update s.stopped p false }

/-- The case `CL_TIMER_QUEUED` of `cl_timer_stop`. -/
def dequeue (s : Timers τ m) (p : τ) : Timers τ m :=
  { s.signal with timerState := Function.update s.timerState p .idle, queue := s.queue.erase p }

/-- `cl_timer_stop` returns to a thread. -/
def returned (s : Timers τ m) (w : Option (Fin m)) (p : τ) : Timers τ m :=
  { s with stopped := if w.isSome then Function.update s.stopped p true else s.stopped }

def runs (s : Timers τ m) (p : τ) : ℕ := s.begun.countP fun b => decide (b.timer = p)

def sleep (s : Timers τ m) : Timers τ m :=
  { s with prov := match s.queue.head? with
      | none => .sleeping
      | some p => .timed p (s.timeout p) }

def begin (s : Timers τ m) (p : τ) : Timers τ m :=
  { s with
    timerState := Function.update s.timerState p .running
    queue := s.queue.erase p
    prov := .running p
    begun := ⟨p, s.starts p, s.timeout p, s.now⟩ :: s.begun }

def finish (s : Timers τ m) (p : τ) : Timers τ m :=
  { s with timerState := if s.timerState p = .running then Function.update s.timerState p .idle else s.timerState }

end Timers

inductive Action (τ : Type*) (m : ℕ)
  | tick (us : ℕ)
  | start (w : Option (Fin m)) (p : τ) (timeMs : ℕ)
  /-- the two sections of `cl_timer_trim` -/
  | trim (w : Option (Fin m)) (p : τ) (timeMs : ℕ)
  | restart (w : Option (Fin m))
  /-- `cl_timer_stop` up to its wait, the end of the wait for no reason, and the rest -/
  | stop (w : Option (Fin m)) (p : τ)
  | wake (w : Option (Fin m))
  | resume (w : Option (Fin m))
  /-- the timer thread: the end of its wait for no reason or with the time, and its sections -/
  | wakeProv
  | expire
  | acquire
  /-- the end of the callback, and which of the threads that wait for it gets the signal -/
  | finish (c : Option (Fin m))

def Timers.mayCall (s : Timers τ m) (w : Option (Fin m)) : Bool :=
  decide (s.call w = .none) && (w.isSome || match s.prov with
    | .running _ => true
    | _ => false)

def step (s : Timers τ m) : Action τ m → Option (Timers τ m)
  | .tick us => some { s with now := s.now + us }
  | .start w p timeMs => if s.mayCall w then some (s.start p timeMs) else none
  | .trim w p timeMs =>
    if s.mayCall w then
      if s.timerState p = .queued ∧ (s.timeout p).isEarlier (calculate s.now timeMs) then some s
      else some (s.setCall w (.trimming p timeMs))
    else none
  | .restart w =>
    match s.call w with
    | .trimming p timeMs => some ((s.setCall w .none).start p timeMs)
    | _ => none
  | .stop w p =>
    if s.mayCall w then
      match s.timerState p with
      | .running => some (s.setCall w (.blocked p (s.runs p)))
      | .queued => some ((s.dequeue p).returned w p)
      | .idle => some (s.returned w p)
    else none
  | .wake w =>
    match s.call w with
    | .blocked p _ => some (s.setCall w (.woken p))
    | _ => none
  | .resume w =>
    match s.call w with
    | .woken p =>
      let s := s.setCall w .none
      some ((if s.timerState p = .queued then s.dequeue p else s).returned w p)
    | _ => none
  | .wakeProv =>
    match s.prov with
    | .sleeping | .timed _ _ => some s.signal
    | _ => none
  | .expire =>
    match s.prov with
    | .timed p abstime =>
      if (calculate s.now 0).isEarlier abstime then none else some { s with prov := .expired p }
    | _ => none
  | .acquire =>
    match s.prov with
    | .awake => some s.sleep
    | .expired p => some (if s.timerState p = .queued then s.begin p else s.sleep)
    | _ => none
  | .finish c =>
    match s.prov with
    | .running p =>
      if s.call none = .none then
        match c with
        | some c =>
          if (s.call (some c)).blockedOn p then some ((s.finish p).setCall (some c) (.woken p)).sleep else none
        | none => if ∃ c : Fin m, (s.call (some c)).blockedOn p then none else some (s.finish p).sleep
      else none
    | _ => none

end OpenSM.ClTimer
