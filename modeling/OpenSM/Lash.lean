import OpenSM.Fabric
import OpenSM.Lib.Drive

/-! LASH routing: the links between the switches, and the routing tables that come from one breadth-first tree
for each switch. A switch is its LASH id, the position in `sw_guid_tbl`. -/

namespace OpenSM.Lash

open Lib.Drive

variable {n m : ℕ} (f : Fabric n m)

structure Link (n : ℕ) where
  switchId : Fin n
  linkId : ℤ
  ports : List ℕ

inductive QState
  | unqueued
  | member
  | mst
  deriving DecidableEq

structure Switch (n : ℕ) where
  links : List (Link n)
  dijChannels : List (Fin n)
  qState : QState
  /-- `none` for `NONE`. -/
  outLink : Fin n → Option ℕ

abbrev Switches (n : ℕ) := Fin n → Switch n

def switchCreate : Switch n := ⟨[], [], .unqueued, fun _ => none⟩

def Switch.setLinkId (sw : Switch n) (i : ℕ) (linkId : ℤ) : Switch n :=
  { sw with links := sw.links.modify i fun l => { l with linkId } }

def Switch.addPort (sw : Switch n) (i : ℕ) (port : ℕ) : Switch n :=
  { sw with links := sw.links.modify i fun l => { l with ports := l.ports ++ [port] } }

def Switch.addLink (sw : Switch n) (l : Link n) : Switch n := { sw with links := sw.links ++ [l] }

/-- The index of the first link to a switch, the number of links where there is none. -/
def getPhysConnection (sw : Switch n) (switchTo : Fin n) : ℕ := sw.links.findIdx fun l => l.switchId = switchTo

def connectSwitches (doMeshAnalysis : Bool) (sws : Switches n) (sw1 sw2 : Fin n) (phyPort1 : ℕ) : Switches n :=
  let num := (sws sw1).links.length
  let i := getPhysConnection (sws sw1) sw2
  if doMeshAnalysis ∧ sw1 = sw2 then sws
  else if doMeshAnalysis ∧ i < num then Function.update sws sw1 ((sws sw1).addPort i phyPort1)
  else
    let back := getPhysConnection (sws sw2) sw1
    if back < (sws sw2).links.length then
      let sws := Function.update sws sw2 ((sws sw2).setLinkId back num)
      Function.update sws sw1 ((sws sw1).addLink ⟨sw2, back, [phyPort1]⟩)
    else Function.update sws sw1 ((sws sw1).addLink ⟨sw2, -1, [phyPort1]⟩)

def processPort (doMeshAnalysis : Bool) (s : Fin n) (sws : Switches n) (port : ℕ) : Switches n :=
  match f.remote s port with
  | some (.sw r _) => connectSwitches doMeshAnalysis sws s r port
  | _ => sws

def processSwitch (doMeshAnalysis : Bool) (sws : Switches n) (s : Fin n) : Switches n :=
  (List.range' 1 (f.numPorts s - 1)).foldl (processPort f doMeshAnalysis s) sws

def processSwitches (doMeshAnalysis : Bool) : Switches n :=
  (List.finRange n).foldl (processSwitch f doMeshAnalysis) fun _ => switchCreate

def Switch.setState (sw : Switch n) (qState : QState) : Switch n := { sw with qState }

def Switch.addChannel (sw : Switch n) (s : Fin n) : Switch n := { sw with dijChannels := sw.dijChannels ++ [s] }

def scanLink (sw : Fin n) (st : Switches n × List (Fin n)) (l : Link n) : Switches n × List (Fin n) :=
  if (st.1 l.switchId).qState = .unqueued then
    let sws := Function.update st.1 l.switchId ((st.1 l.switchId).setState .member)
    (Function.update sws sw ((sws sw).addChannel l.switchId), st.2 ++ [l.switchId])
  else st

def searchBody (st : Switches n × List (Fin n)) : Option (Switches n × List (Fin n)) :=
  match st.2 with
  | [] => none
  | sw :: rest =>
    some ((st.1 sw).links.foldl (scanLink sw) (Function.update st.1 sw ((st.1 sw).setState .mst), rest))

def shortestPath (sws : Switches n) (ir : Fin n) : Option (Switches n) :=
  (drive searchBody n (Function.update sws ir ((sws ir).setState .member), [ir])).map Prod.fst

def Switch.setOutLink (sw : Switch n) (d : Fin n) (link : ℕ) : Switch n :=
  { sw with outLink := Function.update sw.outLink d (some ((sw.outLink d).getD link)) }

def routeVia (sw next : Fin n) (sws : Switches n) (d : Fin n) : Switches n :=
  Function.update sws sw ((sws sw).setOutLink d (getPhysConnection (sws sw) next))

/-- The destinations that are reachable in the tree below a switch. The recursion is bounded by its depth. -/
def generateRoutingFuncForMst : ℕ → Switches n → Fin n → Option (Switches n × List (Fin n))
  | 0, _, _ => none
  | depth + 1, sws, sw =>
    let below (st : Switches n × List (Fin n)) (nextSwitch : Fin n) : Option (Switches n × List (Fin n)) :=
      (generateRoutingFuncForMst depth st.1 nextSwitch).map fun r =>
        (r.2.foldl (routeVia sw nextSwitch) r.1, r.2 ++ st.2)
    ((sws sw).dijChannels.foldlM below (sws, [])).map fun st => (st.1, sw :: st.2)

def Switch.reset (sw : Switch n) : Switch n := { sw with dijChannels := [], qState := .unqueued }

def routeRoot (sws : Switches n) (i : Fin n) : Option (Switches n) := do
  let sws ← shortestPath sws i
  let st ← generateRoutingFuncForMst n sws i
  return fun j => (st.1 j).reset

/-- The routing part of `lash_core` without the mesh analysis. -/
def routingTables (sws : Switches n) : Option (Switches n) := (List.finRange n).foldlM routeRoot sws

def nextSwitch (sws : Switches n) (s d : Fin n) : Option (Fin n) := do
  let link ← (sws s).outLink d
  let l ← (sws s).links[link]?
  return l.switchId

end OpenSM.Lash
