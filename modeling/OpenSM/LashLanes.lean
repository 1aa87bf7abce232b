import OpenSM.Lash

/-! LASH lanes: the channel dependency graph of each lane, the assignment of the switch pairs to lanes, and the
balancing of the lanes. A vertex is kept in the place that the matrix has for it, with the address of its
memory. -/

namespace OpenSM.Lash

open Lib.Drive

variable {n : ℕ}

abbrev Channel (n : ℕ) := Fin n × Fin n

def hops (sws : Switches n) (d : Fin n) : ℕ → Fin n → List (Channel n)
  | 0, _ => []
  | k + 1, s => if s = d then [] else (nextSwitch sws s d).elim [] fun w => (s, w) :: hops sws d k w

def route (sws : Switches n) (s d : Fin n) : List (Channel n) := hops sws d n s

structure Dep where
  v : ℕ
  numUsed : ℤ

/-- `cdg_vertex_t`, without the fields that only a cycle test uses. -/
structure Vertex (n : ℕ) where
  addr : ℕ
  channel : Channel n
  temp : Bool
  numUsingVertex : ℤ
  /-- The slots from `numDeps` on are not in use, but keep what was written to them. -/
  deps : ℕ → Dep
  numDeps : ℕ
  numTempDepend : ℕ

def Vertex.calloc (addr : ℕ) (e : Channel n) : Vertex n := ⟨addr, e, true, 0, fun _ => ⟨0, 0⟩, 0, 0⟩

def Vertex.use (v : Vertex n) : Vertex n := { v with numUsingVertex := v.numUsingVertex + 1 }

def Vertex.dependsOn (v : Vertex n) (a : ℕ) : Bool := (List.range v.numDeps).any fun j => (v.deps j).v = a

def Vertex.addDep (v : Vertex n) (a : ℕ) : Vertex n :=
  if v.dependsOn a then
    { v with
      deps := fun j => if j < v.numDeps ∧ (v.deps j).v = a then ⟨a, (v.deps j).numUsed + 1⟩ else v.deps j }
  else
    { v with
      deps := Function.update v.deps v.numDeps ⟨a, (v.deps v.numDeps).numUsed + 1⟩
      numDeps := v.numDeps + 1
      numTempDepend := if v.temp then v.numTempDepend else v.numTempDepend + 1 }

def Vertex.setPermanent (v : Vertex n) : Vertex n :=
  if v.temp then { v with temp := false } else { v with numTempDepend := 0 }

def Vertex.removeTemp (v : Vertex n) : Option (Vertex n) :=
  if v.temp then none
  else
    let numDeps := v.numDeps - v.numTempDepend
    some { v with
      numDeps
      numTempDepend := 0
      numUsingVertex := v.numUsingVertex - 1
      deps := fun i => if numDeps ≤ i ∧ i < n - 1 then { v.deps i with numUsed := 0 } else v.deps i }

def Vertex.findDep (v : Vertex n) (a depend : ℕ) : ℕ :=
  (List.range v.numDeps).foldl (fun depend i => if (v.deps i).v = a then i else depend) depend

def Vertex.dropDep (v : Vertex n) (depend : ℕ) : Vertex n :=
  if (v.deps depend).numUsed = 1 then
    { v with
      deps := fun i => if depend ≤ i ∧ i + 1 < v.numDeps then v.deps (i + 1) else v.deps i
      numDeps := v.numDeps - 1 }
  else
    { v with deps := Function.update v.deps depend ⟨(v.deps depend).v, (v.deps depend).numUsed - 1⟩ }

/-- `cdg_vertex_matrix` of one lane. -/
abbrev Lane (n : ℕ) := Channel n → Option (Vertex n)

def Lane.modify (m : Lane n) (e : Channel n) (g : Vertex n → Vertex n) : Lane n :=
    Function.update m e ((m e).map g)

def Lane.addr (m : Lane n) (e : Channel n) : ℕ := (m e).elim 0 Vertex.addr

structure Memory (n : ℕ) where
  lane : Lane n
  nextAddr : ℕ

def Memory.ensure (mem : Memory n) (e : Channel n) : Memory n :=
  if (mem.lane e).isNone then ⟨Function.update mem.lane e (some (.calloc mem.nextAddr e)),
      mem.nextAddr + 1⟩ else mem

/-- One round of `generate_cdg_for_sp`; `prev` is the channel of the vertex before. -/
def generateStep (st : Memory n × Option (Channel n)) (e : Channel n) : Memory n × Option (Channel n) :=
  let mem := st.1.ensure e
  let lane := mem.lane.modify e Vertex.use
  (⟨st.2.elim lane fun prev => lane.modify prev (·.addDep (lane.addr e)), mem.nextAddr⟩, some e)

def generateCdgForSp (r : List (Channel n)) (mem : Memory n) : Memory n := (r.foldl generateStep (mem, none)).1

def setTempDependToPermanentForSp (r : List (Channel n)) (m : Lane n) : Lane n :=
  r.foldl (fun m e => m.modify e Vertex.setPermanent) m

def removeTempDependForSp (r : List (Channel n)) (m : Lane n) : Lane n :=
  r.foldl (fun m e => Function.update m e ((m e).bind Vertex.removeTemp)) m

/-- One round of `remove_semipermanent_depend_for_sp`, before the rest of the route: `depend` is kept from round to
round. -/
def removeSemipermanentStep (v : Vertex n) (m : Lane n) (depend : ℕ) (rest : List (Channel n)) :
    Option (Vertex n) × ℕ :=
  if v.numUsingVertex = 1 then (none, depend)
  else
    let v := { v with numUsingVertex := v.numUsingVertex - 1 }
    rest.head?.elim (some v, depend) fun e =>
      let depend := v.findDep (m.addr e) depend
      (some (v.dropDep depend), depend)

def removeSemipermanentDependForSp : List (Channel n) → ℕ → Lane n → Lane n
  | [], _, m => m
  | e :: rest, depend, m =>
    (m e).elim m fun v =>
      let r := removeSemipermanentStep v m depend rest
      removeSemipermanentDependForSp rest r.2 (Function.update m e r.1)

/-- `visiting_number` and `seen` of the vertices, by address. -/
abbrev Marks := ℕ → ℕ × Bool

def Lane.find (m : Lane n) (a : ℕ) : Option (Vertex n) :=
  ((List.finRange n).flatMap fun x => (List.finRange n).filterMap fun y => m (x, y)).find? fun v => v.addr = a

def Lane.depsOf (m : Lane n) (a : ℕ) : List ℕ :=
  (m.find a).elim [] fun v => (List.range v.numDeps).map fun i => (v.deps i).v

/-- `cycle_exists` at a vertex that it enters. The recursion is bounded by its depth. -/
def cycleExists (m : Lane n) : ℕ → Marks → ℕ → ℕ → Bool × Marks
  | 0, marks, _, _ => (false, marks)
  | depth + 1, marks, current, visitNum =>
    let follow (r : Bool × Marks) (w : ℕ) : Bool × Marks :=
      if r.1 then r
      else if 0 < (r.2 w).1 then (decide ((r.2 w).1 < visitNum + 1) && !(r.2 w).2, r.2)
      else cycleExists m depth r.2 w (visitNum + 1)
    let r := (m.depsOf current).foldl follow (false, Function.update marks current (visitNum, (marks current).2))
    (r.1, Function.update r.2 current ((r.2 current).1, true))

/-- The test from the first vertices of two routes, with the marks cleared before it. -/
def cycleTest (m : Lane n) (r r' : List (Channel n)) : Bool :=
  let found := cycleExists m (n * n + 1) (fun _ => (0, false)) (r.head?.elim 0 m.addr) 1
  let found2 := cycleExists m (n * n + 1) found.2 (r'.head?.elim 0 m.addr) 1
  found.1 || found2.1

/-- The fields of `lash_t` for the lanes, and the lane in the routing tables. -/
structure Lanes (n : ℕ) where
  cdg : ℕ → Lane n
  nextAddr : ℕ
  virtualLocation : Fin n → Fin n → ℕ → ℕ
  numMstInLane : ℕ → ℤ
  lane : Fin n → Fin n → ℕ

def initLanes : Lanes n := ⟨fun _ _ => none, 1, fun _ _ _ => 0, fun _ => 0, fun _ _ => 0⟩

def Lanes.setLane (st : Lanes n) (l : ℕ) (m : Lane n) : Lanes n := { st with cdg := Function.update st.cdg l m }

def Lanes.setLocation (st : Lanes n) (s d : Fin n) (l x : ℕ) : Lanes n :=
  { st with
    virtualLocation := fun i j k =>
      if (i = s ∧ j = d ∨ i = d ∧ j = s) ∧ k = l then x else st.virtualLocation i j k }

def Lanes.addMst (st : Lanes n) (l : ℕ) (x : ℤ) : Lanes n :=
  { st with numMstInLane := Function.update st.numMstInLane l (st.numMstInLane l + x) }

def Lanes.setSl (st : Lanes n) (s d : Fin n) (sl : ℕ) : Lanes n :=
  { st with lane := fun i j => if i = s ∧ j = d ∨ i = d ∧ j = s then sl else st.lane i j }

section Assign

variable (rt : Fin n → Fin n → List (Channel n)) (test : Lane n → List (Channel n) → List (Channel n) → Bool)

def Lanes.generate (st : Lanes n) (s d : Fin n) (l : ℕ) : Lanes n :=
  let mem := generateCdgForSp (rt d s) (generateCdgForSp (rt s d) ⟨st.cdg l, st.nextAddr⟩)
  { st.setLane l mem.lane with nextAddr := mem.nextAddr }

def Lanes.setPermanent (st : Lanes n) (s d : Fin n) (l : ℕ) : Lanes n :=
  st.setLane l (setTempDependToPermanentForSp (rt d s)
    (setTempDependToPermanentForSp (rt s d) (st.cdg l)))

def Lanes.removeTemp (st : Lanes n) (s d : Fin n) (l : ℕ) : Lanes n :=
  st.setLane l (removeTempDependForSp (rt d s) (removeTempDependForSp (rt s d) (st.cdg l)))

def Lanes.removeSemipermanent (st : Lanes n) (s d : Fin n) (l : ℕ) : Lanes n :=
  st.setLane l (removeSemipermanentDependForSp (rt d s) 0
    (removeSemipermanentDependForSp (rt s d) 0 (st.cdg l)))

/-- A lane is tried for a pair: whether a cycle was found, and the lanes after it. -/
def Lanes.tryLane (st : Lanes n) (s d : Fin n) (l : ℕ) : Bool × Lanes n :=
  let st := st.generate rt s d l
  if test (st.cdg l) (rt s d) (rt d s) then (true, st.removeTemp rt s d l)
  else (false, st.setPermanent rt s d l)

def Lanes.findLane (s d : Fin n) : List ℕ → Lanes n → Option ℕ × Lanes n
  | [], st => (none, st)
  | l :: ls, st =>
    let r := st.tryLane rt test s d l
    if r.1 then Lanes.findLane s d ls r.2 else (some l, r.2.addMst l 2)

structure Assign (n : ℕ) extends Lanes n where
  lanesNeeded : ℕ
  switchBitmap : Fin n → Fin n → Bool

def initAssign : Assign n := ⟨initLanes, 1, fun _ _ => false⟩

/-- The round of the assignment loop for a pair, `none` where the lanes do not suffice. -/
def Assign.assignPair (vlMin startVl : ℕ) (st : Assign n) (p : Fin n × Fin n) : Option (Assign n) :=
  if p.2 = p.1 ∨ st.switchBitmap p.1 p.2 then some st
  else
    let r := st.toLanes.findLane rt test p.1 p.2 (List.range st.lanesNeeded)
    let placed (lanes : Lanes n) (l lanesNeeded : ℕ) : Assign n :=
      ⟨(lanes.setSl p.1 p.2 (l + startVl)).setLocation p.1 p.2 l 1, lanesNeeded, fun i j =>
        if i = p.1 ∧ j = p.2 ∨ i = p.2 ∧ j = p.1 then true else st.switchBitmap i j⟩
    r.1.elim
      (if vlMin < st.lanesNeeded + 1 then none
       else some (placed (((r.2.generate rt p.1 p.2 st.lanesNeeded).setPermanent rt p.1 p.2
         st.lanesNeeded).addMst st.lanesNeeded 2) st.lanesNeeded (st.lanesNeeded + 1)))
      fun l => some (placed r.2 l st.lanesNeeded)

def pairs (n : ℕ) : List (Fin n × Fin n) :=
  (List.finRange n).flatMap fun i => (List.finRange n).map fun d => (i, d)

/-- The assignment loop of `lash_core`. -/
def assignLanes (vlMin startVl : ℕ) : Option (Assign n) :=
  (pairs n).foldlM (Assign.assignPair rt test vlMin startVl) initAssign

end Assign

section Balance

def maxInt : ℕ := 9999

def balanceLimit : ℤ := 6

/-- The locals of `balance_virtual_lanes`. -/
structure Balance (n : ℕ) extends Lanes n where
  minFilledLane : ℕ
  maxFilledLane : ℕ
  trials : ℤ
  stop : Bool

def Lanes.startBalance (st : Lanes n) (lanesNeeded : ℕ) : Balance n :=
  ⟨st, lanesNeeded - 1, 0, st.numMstInLane 0, decide (lanesNeeded = 1)⟩

def incr (x : Fin n) : Fin n := if h : x.val + 1 < n then ⟨x.val + 1, h⟩ else ⟨0, x.pos⟩

def searchDest (cand : Fin n → Bool) (start : Fin n) : ℕ → Fin n → Fin n
  | 0, dest => dest
  | k + 1, dest => if dest ≠ start ∧ cand dest = false then searchDest cand start k (incr dest) else dest

def searchPairBody (cand : Fin n → Fin n → Bool) (p : Fin n × Fin n) : Option (Fin n × Fin n) :=
  if cand p.1 p.2 then none
  else
    let dest := searchDest (cand p.1) p.2 n (incr p.2)
    some (if cand p.1 dest then p.1 else incr p.1, dest)

def searchPair (cand : Fin n → Fin n → Bool) (p : Fin n × Fin n) : Option (Fin n × Fin n) :=
  drive (searchPairBody cand) n p

def pickMin (num : ℕ → ℤ) (lanesNeeded lane : ℕ) : ℕ :=
  ((List.range lanesNeeded).foldl (fun p i => if num i < p.1 then (num i, i) else p) ((maxInt : ℤ), lane)).2

def pickMax (num : ℕ → ℤ) (lanesNeeded lane : ℕ) : ℕ :=
  ((List.range lanesNeeded).foldl (fun p i => if p.1 < num i then (num i, i) else p) ((0 : ℤ), lane)).2

def Lanes.unmark (st : Lanes n) (l : ℕ) : Lanes n :=
  { st with
    virtualLocation := fun i j k =>
      if k = l ∧ st.virtualLocation i j k = 2 then 1 else st.virtualLocation i j k }

/-- The end of a round: the stop test, and the fullest and the emptiest lane for the next round. -/
def Balance.pick (b : Balance n) (lanesNeeded : ℕ) : Balance n :=
  let stop := decide (b.trials = 0) ||
    decide (b.numMstInLane b.maxFilledLane - b.numMstInLane b.minFilledLane < balanceLimit)
  let minFilledLane := pickMin b.numMstInLane lanesNeeded b.minFilledLane
  let maxFilledLane := pickMax b.numMstInLane lanesNeeded b.maxFilledLane
  let lanes := if b.minFilledLane ≠ minFilledLane then b.toLanes.unmark maxFilledLane else b.toLanes
  let lanes := if b.maxFilledLane ≠ maxFilledLane then lanes.unmark b.maxFilledLane else lanes
  let trials :=
    if b.minFilledLane ≠ minFilledLane ∨
        b.maxFilledLane ≠ maxFilledLane then b.numMstInLane maxFilledLane else b.trials
  ⟨lanes, minFilledLane, maxFilledLane, trials, stop⟩

variable (rt : Fin n → Fin n → List (Channel n))

def Balance.move (startVl : ℕ) (test : Lane n → List (Channel n) → List (Channel n) → Bool) (b : Balance n)
    (s d : Fin n) : Balance n :=
  let r := b.toLanes.tryLane rt test s d b.minFilledLane
  if r.1 then { b with toLanes := r.2.setLocation s d b.maxFilledLane 2, trials := b.trials - 2 }
  else
    let lanes := (r.2.addMst b.maxFilledLane (-2)).addMst b.minFilledLane 2
    let lanes := lanes.removeSemipermanent rt s d b.maxFilledLane
    { b with
      toLanes := ((lanes.setLocation s d b.maxFilledLane 0).setLocation s d b.minFilledLane 1).setSl s d
        (b.minFilledLane + startVl) }

/-- A round of `balance_virtual_lanes` with the values from `rand()`, `none` where the pair search does not end. -/
def Balance.round (lanesNeeded startVl : ℕ) (b : Balance n) (start : Fin n × Fin n)
    (test : Lane n → List (Channel n) → List (Channel n) → Bool) : Option (Balance n) :=
  (searchPair (fun s d => decide (b.virtualLocation s d b.maxFilledLane = 1)) start).map fun p =>
    (b.move rt startVl test p.1 p.2).pick lanesNeeded

/-- `balance_virtual_lanes` at the top of its loop after a number of rounds. -/
def balanceVirtualLanes (lanesNeeded startVl : ℕ) (st : Lanes n) (start : ℕ → Fin n × Fin n)
    (test : ℕ → Lane n → List (Channel n) → List (Channel n) → Bool) : ℕ → Option (Balance n)
  | 0 => some (st.startBalance lanesNeeded)
  | k + 1 =>
    (balanceVirtualLanes lanesNeeded startVl st start test k).bind fun b =>
      if b.stop then some b else b.round rt lanesNeeded startVl (start k) (test k)

end Balance

end OpenSM.Lash
