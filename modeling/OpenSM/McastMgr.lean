import OpenSM.UcastRoutes

/-! `mcast_mgr_build_spanning_tree`: the members of a multicast group are split, switch by switch,
over the first least hop port towards each of them. -/

namespace OpenSM.McastMgr

open Switch UcastMgr

variable {n m : ℕ} (u : Subnet n m)

/-- The bits of the multicast forwarding tables: switch, MLID, port. -/
abbrev Mft (n : ℕ) := Fin n → ℕ → ℕ → Bool

def tblSet (t : Mft n) (s : Fin n) (mlid port : ℕ) : Mft n :=
  fun s' l p => if s' = s ∧ l = mlid ∧ p = port then true else t s' l p

def clear (t : Mft n) (mlid : ℕ) : Mft n := fun s l p => if l = mlid then false else t s l p

/-- The loop of `osm_switch_recommend_mcast_path` over the ports already in the tree. -/
def existingMcastPort (H : Hops n) (t : Mft n) (s : Fin n) (mlid baseLid : ℕ) : Option ℕ :=
  (extPorts u.toFabric s).find? fun p =>
    t s mlid p && getHopCount u.toFabric H s baseLid p ≠ noPath

def firstLeastPort (H : Hops n) (s : Fin n) (baseLid : ℕ) : ℕ :=
  let leastHops := getLeastHops u.toFabric H s baseLid
  if leastHops = noPath then noPath
  else ((extPorts u.toFabric s).find? fun p =>
    getHopCount u.toFabric H s baseLid p = leastHops).getD (u.numPorts s)

def recommendMcastPath (H : Hops n) (t : Mft n) (s : Fin n) (e : EndPort n m) (mlid : ℕ)
    (ignoreExisting : Bool) : ℕ :=
  match target u e with
  | none => noPath
  | some (d, q) =>
    if d = s then q
    else
      match if ignoreExisting then none else existingMcastPort u H t s mlid (u.lid d) with
      | some p => p
      | none => firstLeastPort u H s (u.lid d)

/-- `list_array` after `mcast_mgr_subdivide`: the members routed through each port, in list order. -/
def subdivide (H : Hops n) (t : Mft n) (s : Fin n) (mlid : ℕ) (members : List (EndPort n m)) (i : ℕ) :
    List (EndPort n m) :=
  members.filter fun e => recommendMcastPath u H t s e mlid true = i

structure St (n : ℕ) where
  mft : Mft n
  maxDepth : ℕ
  /-- The switches `mcast_mgr_branch` was called for. -/
  entered : List (Fin n)

def St.set (st : St n) (s : Fin n) (mlid port : ℕ) : St n :=
  { st with mft := tblSet st.mft s mlid port }

/-- `mcast_mgr_branch`. The first argument counts down the levels left until `depth` reaches 64. -/
def branch (mcastCap : Fin n → ℕ) (H : Hops n) (mlid : ℕ) :
    ℕ → Fin n → List (EndPort n m) → ℕ → St n → St n
  | 0, s, _, _, st => { st with entered := st.entered ++ [s] }
  | left + 1, s, members, upstreamPort, st =>
    let depth := 63 - left
    let st := { st with entered := st.entered ++ [s], maxDepth := max st.maxDepth depth }
    if mcastCap s = 0 then st
    else
      let listArray := subdivide u H st.mft s mlid members
      let st := if 1 < depth then st.set s mlid upstreamPort else st
      (List.range (u.numPorts s)).foldl (fun st i =>
        if listArray i = [] then st
        else if i = 0 then st.set s mlid i
        else
          match u.remote s i with
          | none => st
          | some (.ca _) => st.set s mlid i
          | some (.sw r q) => branch mcastCap H mlid left r (listArray i) q (st.set s mlid i)) st

/-- `osm_mcast_make_port_list_and_map`: a port that is in several groups of the box is listed once. -/
def makePortList (groups : List (List (EndPort n m))) : List (EndPort n m) :=
  groups.flatten.foldl (fun l e => if e ∈ l then l else l ++ [e]) []

def memberSwitches (members : List (EndPort n m)) : List (Fin n) :=
  (members.filterMap (target u)).map Prod.fst

def computeMaxHops (H : Hops n) (members : List (EndPort n m)) (this : Fin n) : ℕ :=
  (memberSwitches u members).foldl (fun maxHops s =>
    let hops := getLeastHops u.toFabric H this (u.lid s)
    let hops := if EndPort.sw s ∈ members then hops else hops + 1
    if maxHops < hops then hops else maxHops) 0

def findOptimalSwitch (mcastCap : Fin n → ℕ) (H : Hops n) (members : List (EndPort n m)) :
    Option (Fin n) :=
  ((List.finRange n).foldl (fun (best : Option (Fin n) × ℕ) s =>
    if mcastCap s = 0 then best
    else
      let hops := computeMaxHops u H members s
      if hops < best.2 then (some s, hops) else best) (none, 10000)).1

def buildSpanningTree (mcastCap : Fin n → ℕ) (H : Hops n) (mlid : ℕ)
    (groups : List (List (EndPort n m))) (t : Mft n) : St n :=
  let portList := makePortList groups
  let st : St n := { mft := t, maxDepth := 0, entered := [] }
  if portList.length < 2 then st
  else
    match findOptimalSwitch u mcastCap H portList with
    | none => st
    | some root => branch u mcastCap H mlid 63 root portList 0 st

end OpenSM.McastMgr
