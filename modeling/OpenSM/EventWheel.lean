import Mathlib

/-! `cl_event_wheel`: delayed events in a list sorted by their aging time and in a map by their key, and one
timer. -/

namespace OpenSM.EventWheel

/-- `cl_event_wheel_reg_info_t`. -/
structure Event where
  key : UInt64
  agingTime : UInt64
  /-- `pfn_aged_callback` is not null. -/
  hasCallback : Bool
  numRegs : UInt32

/-- The wheel with the memory of its events: list and map hold pointers to them. -/
structure Wheel where
  event : ℕ → Event
  /-- Pointers that `malloc` has given so far. -/
  allocated : ℕ
  eventsWheel : List ℕ
  eventsMap : UInt64 → Option ℕ
  closing : Bool
  /-- When the timer expires, in microseconds; `none` while it does not run. -/
  timer : Option ℕ

def init : Wheel := ⟨fun _ => ⟨0, 0, false, 0⟩, 0, [], fun _ => none, false, none⟩

/-- The negation of `__event_will_age_before`. -/
def Wheel.agesLate (w : Wheel) (agingTime : UInt64) (q : ℕ) : Bool := !decide ((w.event q).agingTime < agingTime)

/-- `cl_qlist_find_from_tail` and `cl_qlist_insert_next`: after the last event that ages before `p`. -/
def Wheel.insertSorted (w : Wheel) (l : List ℕ) (p : ℕ) : List ℕ :=
  let late := w.agesLate (w.event p).agingTime
  l.rdropWhile late ++ p :: l.rtakeWhile late

def Wheel.mapRemove (w : Wheel) (p : ℕ) : UInt64 → Option ℕ :=
  fun key => if w.eventsMap key = some p then none else w.eventsMap key

/-- `cl_qmap_insert` keeps an item that is there. -/
def Wheel.mapInsert (w : Wheel) (key : UInt64) (p : ℕ) : UInt64 → Option ℕ :=
  if (w.eventsMap key).isSome then w.eventsMap else Function.update w.eventsMap key (some p)

def Wheel.remove (w : Wheel) (p : ℕ) : Wheel :=
  { w with eventsWheel := w.eventsWheel.erase p, eventsMap := w.mapRemove p }

def timeout (agingTime now : UInt64) : UInt64 := (agingTime - now + 500) / 1000

/-- `cl_timer_start`: the timer runs from `now` on. -/
def Wheel.startTimer (w : Wheel) (now : UInt64) (msec : ℕ) : Wheel :=
    { w with timer := some (now.toNat + 1000 * msec) }

/-- The part of `cl_event_wheel_reg` after the event has been removed or made. -/
def Wheel.register (w : Wheel) (p : ℕ) (key agingTime : UInt64) (hasCallback : Bool) (numRegs : UInt32)
    (now : UInt64) :
    Wheel :=
  let w := { w with event := Function.update w.event p ⟨key, agingTime, hasCallback, numRegs + 1⟩ }
  -- The clock is read and the timer started for the first event only.
  let w :=
    if w.eventsWheel = [] then
      let timeout := (timeout agingTime now).toNat
      w.startTimer now (if timeout % 2 ^ 32 < timeout then 0xffffffff else timeout)
    else w
  { w with eventsWheel := w.insertSorted w.eventsWheel p, eventsMap := w.mapInsert key p }

/-- Where `malloc` fails the wheel stays as it is and the status is `CL_ERROR`. -/
def reg (w : Wheel) (key agingTime : UInt64) (hasCallback : Bool) (now : UInt64) (malloc : Bool) : Wheel × Bool :=
  match w.eventsMap key with
  | some p => ((w.remove p).register p key agingTime hasCallback (w.event p).numRegs now, true)
  | none =>
    if malloc then
      ({ w with allocated := w.allocated + 1 }.register w.allocated key agingTime hasCallback 0 now, true)
    else (w, false)

def unreg (w : Wheel) (key : UInt64) : Wheel :=
  match w.eventsMap key with
  | some p => w.remove p
  | none => w

def numRegs (w : Wheel) (key : UInt64) : UInt32 := (w.eventsMap key).elim 0 fun p => (w.event p).numRegs

/-- The body of the loop over aged events; `rest` is the wheel without its head `p`. -/
def Wheel.age (w : Wheel) (now : UInt64) (p : ℕ) (rest : List ℕ) (returned : UInt64) : Wheel :=
  let e := w.event p
  let nextAgingTime := if e.hasCallback then returned else 0
  if nextAgingTime < now then { w with eventsWheel := rest, eventsMap := w.mapRemove p }
  else
    let w := { w with
      event := Function.update w.event p { e with agingTime := nextAgingTime, numRegs := e.numRegs + 1 } }
    { w with eventsWheel := w.insertSorted rest p }

/-- The loop over aged events, with what their callbacks return one after the other; `none` while it still runs. -/
def pass (now : UInt64) : List UInt64 → Wheel → Option Wheel
  | returned, w =>
    match w.eventsWheel, returned with
    | [], _ => some w
    | p :: _, [] => if (w.event p).agingTime ≤ now then none else some w
    | p :: rest, next :: returned =>
      if (w.event p).agingTime ≤ now then pass now returned (w.age now p rest next) else some w

/-- `__cl_event_wheel_callback`: the timer has expired. -/
def callback (w : Wheel) (now : UInt64) (returned : List UInt64) : Option Wheel :=
  let w := { w with timer := none }
  if w.closing then some w
  else do
    let w ← pass now returned w
    return match w.eventsWheel with
      | [] => w
      | p :: _ => w.startTimer now (timeout (w.event p).agingTime now).toUInt32.toNat

inductive Op
  | reg (key agingTime : UInt64) (hasCallback : Bool) (now : UInt64) (malloc : Bool)
  | unreg (key : UInt64)
  | callback (now : UInt64) (returned : List UInt64)

def step (w : Wheel) : Op → Option Wheel
  | .reg key agingTime hasCallback now malloc => some (reg w key agingTime hasCallback now malloc).1
  | .unreg key => some (unreg w key)
  | .callback now returned => callback w now returned

def run (ops : List Op) : Option Wheel := ops.foldlM step init

end OpenSM.EventWheel
