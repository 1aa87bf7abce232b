import Mathlib
import OpenSM.Lib.Runs

/-! The dispatcher and its pool of worker threads. Every section under the dispatcher's lock or the pool's
mutex is a step of its own, and so are the callbacks and the changes of a reference count between them. -/

namespace OpenSM.Dispatcher

def msgidNone : ℕ := 0xffffffff

/-- `cl_ptr_vector_t`: `size` entries of an array of `capacity`. -/
structure PtrVector where
  entries : List (Option ℕ)
  capacity : ℕ
  growSize : ℕ

namespace PtrVector

def size (v : PtrVector) : ℕ := v.entries.length

def get (v : PtrVector) (index : ℕ) : Option ℕ := v.entries.getD index none

def setCapacity (v : PtrVector) (newCapacity : ℕ) (alloc : Bool) : Option PtrVector :=
  if newCapacity ≤ v.capacity then some v
  else if alloc then some { v with capacity := newCapacity }
  else none

def resize (v : PtrVector) (size : ℕ) : PtrVector :=
  { v with entries := v.entries.take size ++ List.replicate (size - v.size) none }

def setSize (v : PtrVector) (size : ℕ) (alloc : Bool) : Option PtrVector :=
  if size = v.size then some v
  else if v.capacity ≤ size then
    if v.growSize = 0 then none
    else
      let newCapacity := if size % v.growSize ≠ 0 then size + (v.growSize - size % v.growSize) else size
      (v.setCapacity newCapacity alloc).map fun v => v.resize size
  else some (v.resize size)

def write (v : PtrVector) (index : ℕ) (element : Option ℕ) : PtrVector :=
  { v with entries := v.entries.set index element }

def set (v : PtrVector) (index : ℕ) (element : Option ℕ) (alloc : Bool) : Option PtrVector :=
  if v.size ≤ index then
    match v.setSize (index + 1) alloc with
    | some v => some (v.write index element)
    -- with `size = index` the element is written behind the array
    | none => if v.size < index then none else some v
  else some (v.write index element)

end PtrVector

/-- How far `cl_disp_unregister` has come with a registration. -/
inductive Stage
  | registered
  /-- the vector entry is cleared, the loop over `ref_cnt` runs -/
  | cleared
  | drained
  deriving DecidableEq

/-- `cl_disp_reg_info_t`. -/
structure RegInfo where
  msgId : ℕ
  refCnt : ℤ
  stage : Stage
  deriving DecidableEq

/-- `cl_disp_msg_t`: messages are numbered as they are accepted. The sender is to be notified if a
completion callback was given. -/
structure Msg where
  seq : ℕ
  src : ℕ
  dest : ℕ
  notify : Bool
  deriving DecidableEq

inductive Pc
  /-- the section under the mutex in `thread_pool_routine` comes next -/
  | waiting
  /-- in `pthread_cond_wait` -/
  | blocked
  /-- an event is taken, the first section of `__cl_disp_worker` comes next -/
  | entered
  /-- a message is off the queue, its recipient not yet called -/
  | popped (m : Msg)
  | receiving (m : Msg)
  | received (m : Msg)
  | notifying (m : Msg)
  /-- the next section under the lock returns the message to the pool -/
  | finished (m : Msg)
  deriving DecidableEq

inductive Event
  | receive (seq : ℕ)
  | done (seq : ℕ)
  deriving DecidableEq

structure Disp (w : ℕ) where
  reg : ℕ → Option RegInfo
  nextReg : ℕ
  regList : List ℕ
  regVec : PtrVector
  msgFifo : List Msg
  events : ℕ
  /-- posters that have queued a message and not yet signalled the pool -/
  signalling : ℕ
  pc : Fin w → Pc
  /-- the messages that `cl_disp_post` returned success for, and those that have left the queue -/
  accepted : List Msg
  popped : List Msg
  log : List Event

/-- After `cl_disp_init`. -/
def init (w : ℕ) : Disp w where
  reg _ := none
  nextReg := 0
  regList := []
  regVec := ⟨List.replicate 16 none, 16, 16⟩
  msgFifo := []
  events := 0
  signalling := 0
  pc _ := .waiting
  accepted := []
  popped := []
  log := []

inductive Action (w : ℕ)
  /-- whether the registration and the vector's new array find memory -/
  | register (msgId : ℕ) (regAlloc vecAlloc : Bool)
  /-- the three parts of `cl_disp_unregister` -/
  | clear (h : ℕ) (vecAlloc : Bool)
  | drain (h : ℕ)
  | free (h : ℕ)
  | post (h msgId : ℕ) (notify poolAlloc : Bool)
  | signal (woken : Option (Fin w))
  | test (i : Fin w)
  | wake (i : Fin w)
  | next (i : Fin w)
  | call (i : Fin w)
  | release (i : Fin w)
  | notify (i : Fin w)
  | releaseSrc (i : Fin w)

variable {w : ℕ}

namespace Disp

def goto (s : Disp w) (i : Fin w) (c : Pc) : Disp w := { s with pc := Function.update s.pc i c }

/-- `cl_atomic_inc` and `cl_atomic_dec` of a reference count. -/
def addRef (s : Disp w) (r : ℕ) (d : ℤ) : Disp w :=
  { s with reg := Function.update s.reg r ((s.reg r).map fun info => { info with refCnt := info.refCnt + d }) }

end Disp

def dispRegister (s : Disp w) (msgId : ℕ) (regAlloc vecAlloc : Bool) : Disp w :=
  if msgId ≠ msgidNone ∧ msgId < s.regVec.size ∧ (s.regVec.get msgId).isSome then s
  else if !regAlloc then s
  else
    let r := s.nextReg
    let s := { s with
      reg := Function.update s.reg r (some ⟨msgId, 0, .registered⟩)
      nextReg := r + 1
      regList := s.regList ++ [r] }
    if msgId ≠ msgidNone then
      match s.regVec.set msgId (some r) vecAlloc with
      | some v => { s with regVec := v }
      | none => { s with reg := Function.update s.reg r none }
    else s

def unregisterClear (s : Disp w) (h : ℕ) (vecAlloc : Bool) : Option (Disp w) :=
  match s.reg h with
  | some info =>
    if info.stage = .registered then
      some { s with
        reg := Function.update s.reg h (some { info with stage := .cleared })
        regVec := if info.msgId ≠ msgidNone then (s.regVec.set info.msgId none vecAlloc).getD
            s.regVec else s.regVec }
    else none
  | none => none

def unregisterDrain (s : Disp w) (h : ℕ) : Option (Disp w) :=
  match s.reg h with
  | some info =>
    if info.stage = .cleared ∧ info.refCnt ≤ 0 then
      some { s with reg := Function.update s.reg h (some { info with stage := .drained }) }
    else none
  | none => none

def unregisterFree (s : Disp w) (h : ℕ) : Option (Disp w) :=
  match s.reg h with
  | some info =>
    if info.stage = .drained then
      some { s with regList := s.regList.erase h, reg := Function.update s.reg h none }
    else none
  | none => none

def Pc.runsFor (h : ℕ) : Pc → Bool
  | .receiving m => m.dest = h
  | .notifying m => m.src = h
  | _ => false

/-- A handle is used until it is unregistered, and from then on in its own callbacks only. -/
def mayPost (s : Disp w) (h : ℕ) : Prop :=
  (∃ info, s.reg h = some info ∧ info.stage = .registered) ∨ ∃ i, (s.pc i).runsFor h

instance (s : Disp w) (h : ℕ) : Decidable (mayPost s h) :=
  decidable_of_iff ((s.reg h).any (fun info => info.stage = .registered) = true ∨ ∃ i, (s.pc i).runsFor h = true)
    (by simp [mayPost, Option.any_eq_true])

def dispPost (s : Disp w) (h msgId : ℕ) (notify poolAlloc : Bool) : Option (Disp w) :=
  if mayPost s h ∧ msgId ≠ msgidNone then
    if s.regVec.size ≤ msgId then some s
    else match s.regVec.get msgId with
      | none => some s
      | some dest =>
        if !poolAlloc then some s
        else
          let m : Msg := ⟨s.accepted.length, h, dest, notify⟩
          let s := if notify then s.addRef h 1 else s
          let s := s.addRef dest 1
          some { s with
            msgFifo := s.msgFifo ++ [m], signalling := s.signalling + 1, accepted := s.accepted ++ [m] }
  else none

/-- `cl_thread_pool_signal`: a worker that is blocked is woken, if there is one. -/
def poolSignal (s : Disp w) (woken : Option (Fin w)) : Option (Disp w) :=
  if 0 < s.signalling then
    let s := { s with signalling := s.signalling - 1, events := s.events + 1 }
    match woken with
    | some i => if s.pc i = .blocked then some (s.goto i .waiting) else none
    | none => if ∀ i, s.pc i ≠ .blocked then some s else none
  else none

/-- The section under the mutex in `thread_pool_routine`. -/
def poolTest (s : Disp w) (i : Fin w) : Disp w :=
  if s.events = 0 then s.goto i .blocked else { s.goto i .entered with events := s.events - 1 }

/-- A section under the lock in `__cl_disp_worker`. -/
def workerNext (s : Disp w) (i : Fin w) : Disp w :=
  match s.msgFifo with
  | [] => s.goto i .waiting
  | m :: rest => { s.goto i (.popped m) with msgFifo := rest, popped := s.popped ++ [m] }

def step (s : Disp w) : Action w → Option (Disp w)
  | .register msgId regAlloc vecAlloc => some (dispRegister s msgId regAlloc vecAlloc)
  | .clear h vecAlloc => unregisterClear s h vecAlloc
  | .drain h => unregisterDrain s h
  | .free h => unregisterFree s h
  | .post h msgId notify poolAlloc => dispPost s h msgId notify poolAlloc
  | .signal woken => poolSignal s woken
  | .test i => if s.pc i = .waiting then some (poolTest s i) else none
  -- also without a signal
  | .wake i => if s.pc i = .blocked then some (s.goto i .waiting) else none
  | .next i =>
    match s.pc i with
    | .entered | .finished _ => some (workerNext s i)
    | _ => none
  | .call i =>
    match s.pc i with
    | .popped m => some { s.goto i (.receiving m) with log := s.log ++ [.receive m.seq] }
    | _ => none
  | .release i =>
    match s.pc i with
    | .receiving m => some ((s.addRef m.dest (-1)).goto i (if m.notify then .received m else .finished m))
    | _ => none
  | .notify i =>
    match s.pc i with
    | .received m => some { s.goto i (.notifying m) with log := s.log ++ [.done m.seq] }
    | _ => none
  | .releaseSrc i =>
    match s.pc i with
    | .notifying m => some ((s.addRef m.src (-1)).goto i (.finished m))
    | _ => none

end OpenSM.Dispatcher
