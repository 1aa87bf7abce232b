import OpenSM.LidMatrix

/-! `osm_switch_recommend_path`: the choice of an egress port for one LID among the ports with the
least hop count, in all its modes. -/

namespace OpenSM

inductive NodeId (n : ℕ)
  | sw (s : Fin n)
  | ca (k : ℕ)
  deriving DecidableEq

/-- An `osm_port_t`: port 0 of a switch, or a port of a CA or router. -/
inductive EndPort (n m : ℕ)
  | sw (s : Fin n)
  | ca (e : Fin m)
  deriving DecidableEq

/-- The data of the subnet that unicast routing reads besides the fabric itself. -/
structure Subnet (n m : ℕ) extends Fabric n m where
  caNode : Fin m → ℕ
  caPortNum : Fin m → ℕ
  sysGuid : NodeId n → ℕ
  nodeGuid : NodeId n → ℕ
  baseLid : EndPort n m → ℕ
  lmcOf : EndPort n m → ℕ
  useScatter : EndPort n m → Bool
  isProfIgnored : Fin n → ℕ → Bool
  /-- The ports the `port_search_ordering_file` lists for a switch; no ports for no entry. -/
  orderedPorts : Fin n → List ℕ
  /-- The forwarding table read from the switch, `lft`. -/
  lft : Fin n → ℕ → ℕ
  baseLid_sw : ∀ d, baseLid (.sw d) = lid d

namespace Subnet

variable {n m : ℕ} (u : Subnet n m)

def remoteNode : Remote n m → NodeId n
  | .sw r _ => .sw r
  | .ca e => .ca (u.caNode e)

def remotePortNum : Remote n m → ℕ
  | .sw _ q => q
  | .ca e => u.caPortNum e

/-- The ring with LIDs on all end ports, plain min-hop options and empty tables. -/
def triangle (healthy : Fin 3 → ℕ → Bool) : Subnet 3 1 where
  toFabric := Fabric.triangle healthy
  caNode _ := 0
  caPortNum _ := 1
  sysGuid _ := 0
  nodeGuid
    | .sw s => s
    | .ca k => 3 + k
  baseLid
    | .sw s => s + 1
    | .ca _ => 4
  lmcOf _ := 0
  useScatter _ := false
  isProfIgnored _ _ := false
  orderedPorts _ := []
  lft _ _ := noPath
  baseLid_sw _ := rfl

def minLidHoOf (e : EndPort n m) : ℕ := u.baseLid e
def maxLidHoOf (e : EndPort n m) : ℕ := (u.baseLid e + 2 ^ u.lmcOf e - 1) % 2 ^ 16

end Subnet

namespace Switch

/-- `struct osm_remote_node`; the null node stands for `null_remote_node`. -/
structure RemoteNode (n : ℕ) where
  node : Option (NodeId n)
  forwardedTo : ℕ
  port : ℕ
  deriving DecidableEq

structure PortPath where
  portNum : ℕ
  pathCount : ℕ
  foundSysGuid : Bool
  foundNodeGuid : Bool
  forwardedTo : ℕ

structure Args where
  startFrom : ℕ
  ignoreExisting : Bool
  routingForLmc : Bool
  dor : Bool
  portShifting : Bool
  scatterPorts : Bool

def maxPaths : ℕ := 4294967295

structure Sel (n : ℕ) where
  leastPaths : ℕ := maxPaths
  leastPathsOtherSys : ℕ := maxPaths
  leastPathsOtherNodes : ℕ := maxPaths
  leastForwardedTo : ℕ := maxPaths
  bestPort : ℕ := 0
  bestPortOtherSys : ℕ := 0
  bestPortOtherNode : ℕ := 0
  portFound : Bool := false
  remNodeFirst : Option (NodeId n) := none
  remoteGuid : Option (RemoteNode n) := none
  portPaths : List PortPath := []
  totalPaths : ℕ := 0
  scatterPossible : List ℕ := []
  foundSysGuid : Bool := false
  foundNodeGuid : Bool := false

variable {n m : ℕ} (u : Subnet n m)

/-- `set_search_ordering_ports`: a line is dropped as a whole when it names a bad port or names a
port twice; the ports it leaves out follow in sequence. -/
def setSearchOrderingPorts (numPorts : ℕ) (ports : List ℕ) : Option (List ℕ) :=
  if ports = [] ∨ ¬ (∀ p ∈ ports, 0 < p ∧ p < numPorts) ∨ ¬ ports.Nodup then none
  else some (0 :: ports ++ (List.range' 1 (numPorts - 1)).filter fun p => p ∉ ports)

def getDimnPort (s : Fin n) (portNum : ℕ) : ℕ :=
  match setSearchOrderingPorts (u.numPorts s) (u.orderedPorts s) with
  | none => portNum
  | some order => order.getD portNum 0

def findGuidCommon (guid : NodeId n → ℕ) (priv : List (RemoteNode n)) (rem : Remote n m) :
    Option (RemoteNode n) :=
  priv.find? fun g => g.node.elim false fun nd => guid nd = guid (u.remoteNode rem)

def findSysGuidCount (priv : List (RemoteNode n)) (rem : Remote n m) : Option (RemoteNode n) :=
  findGuidCommon u u.sysGuid priv rem

def findNodeGuidCount (priv : List (RemoteNode n)) (rem : Remote n m) : Option (RemoteNode n) :=
  findGuidCommon u u.nodeGuid priv rem

def noteOtherSys (portNum checkCount : ℕ) (z : Sel n) : Sel n :=
  if checkCount < z.leastPathsOtherSys then
    { z with leastPathsOtherSys := checkCount, bestPortOtherSys := portNum, leastForwardedTo := 0 }
  else z

def noteOtherNode (portNum checkCount : ℕ) (z : Sel n) : Sel n :=
  if checkCount < z.leastPathsOtherNodes then
    { z with leastPathsOtherNodes := checkCount, bestPortOtherNode := portNum, leastForwardedTo := 0 }
  else z

/-- The loop body's look at the far side of a port under dimension order routing; `none` is its
`continue`. -/
def lookDor (a : Args) (priv : List (RemoteNode n)) (rem : Remote n m) (z : Sel n) : Option (Sel n) :=
  let node := u.remoteNode rem
  if z.remNodeFirst ≠ none ∧ z.remNodeFirst ≠ some node then none
  else
    let z := { z with remNodeFirst := some node }
    if a.routingForLmc then
      let hit := priv.find? fun g => g.node = some node ∧ g.port = u.remotePortNum rem
      some { z with remoteGuid := some (hit.getD ⟨none, 0, 0⟩) }
    else some z

def lookLmc (priv : List (RemoteNode n)) (portNum checkCount : ℕ) (rem : Remote n m) (z : Sel n) :
    Sel n :=
  match findSysGuidCount u priv rem with
  | none => { noteOtherSys portNum checkCount z with remoteGuid := none, foundSysGuid := false }
  | some _ =>
    match findNodeGuidCount u priv rem with
    | none => { noteOtherNode portNum checkCount z with
                remoteGuid := none, foundNodeGuid := false, foundSysGuid := true }
    | some g => { z with remoteGuid := some g, foundNodeGuid := true, foundSysGuid := true }

def lookRemote (a : Args) (priv : List (RemoteNode n)) (portNum checkCount : ℕ) (rem : Remote n m)
    (z : Sel n) : Option (Sel n) :=
  if a.dor then lookDor u a priv rem z
  else if a.routingForLmc then some (lookLmc u priv portNum checkCount rem z)
  else some z

def recordPort (a : Args) (portNum checkCount : ℕ) (z : Sel n) : Sel n :=
  let path : PortPath :=
    { portNum := portNum, pathCount := checkCount
      foundSysGuid := a.routingForLmc && z.foundSysGuid
      foundNodeGuid := a.routingForLmc && z.foundNodeGuid
      forwardedTo := if a.routingForLmc then z.remoteGuid.elim 0 RemoteNode.forwardedTo else 0 }
  { z with portPaths := z.portPaths ++ [path], totalPaths := (z.totalPaths + checkCount) % 2 ^ 32 }

/-- The forwarding count of the remote node found, when it is below the least one so far. -/
def lowerForwardedTo (a : Args) (z : Sel n) : Option ℕ :=
  match z.remoteGuid with
  | some g => if a.routingForLmc ∧ g.forwardedTo < z.leastForwardedTo then some g.forwardedTo else none
  | none => none

/-- The rest of the loop body: compare a recorded port with the best one so far. -/
def comparePort (a : Args) (portNum checkCount : ℕ) (z : Sel n) : Sel n :=
  if checkCount < z.leastPaths then
    { z with portFound := true, bestPort := portNum, leastPaths := checkCount
             scatterPossible := [portNum]
             leastForwardedTo := (lowerForwardedTo a z).getD z.leastForwardedTo }
  else if a.scatterPorts ∧ checkCount = z.leastPaths then
    { z with scatterPossible := z.scatterPossible ++ [portNum] }
  else if checkCount = z.leastPaths then
    match lowerForwardedTo a z with
    | some k => { z with leastForwardedTo := k, bestPort := portNum }
    | none => z
  else z

def takePort (a : Args) (portNum checkCount : ℕ) (z : Sel n) : Sel n :=
  comparePort a portNum checkCount (recordPort a portNum checkCount z)

/-- The tests a port has to pass before it is considered: least hops, healthy and linked. -/
def acceptable (H : Hops n) (s : Fin n) (baseLid leastHops portNum : ℕ) : Option (Remote n m) :=
  if portNum = 0 ∨ getHopCount u.toFabric H s baseLid portNum ≠ leastHops then none
  else if u.healthy s portNum then u.remote s portNum else none

def selectStep (H : Hops n) (prof : ℕ → ℕ) (priv : List (RemoteNode n)) (a : Args) (s : Fin n)
    (baseLid leastHops : ℕ) (z : Sel n) (i : ℕ) : Sel n :=
  let portNum := getDimnPort u s (i % u.numPorts s)
  match acceptable u H s baseLid leastHops portNum with
  | none => z
  | some rem =>
    match lookRemote u a priv portNum (prof portNum) rem z with
    | none => z
    | some z => takePort a portNum (prof portNum) z

def shiftOther (p : PortPath) (z : Sel n) : Sel n :=
  if !p.foundSysGuid ∧ p.pathCount < z.leastPathsOtherSys then noteOtherSys p.portNum p.pathCount z
  else if !p.foundNodeGuid then noteOtherNode p.portNum p.pathCount z
  else z

/-- One round of the second pass made for `port_shifting`. -/
def shiftStep (routingForLmc : Bool) (z : Sel n) (p : PortPath) : Sel n :=
  let z := if routingForLmc then shiftOther p z else z
  if p.pathCount < z.leastPaths then
    let z := { z with bestPort := p.portNum, leastPaths := p.pathCount }
    if routingForLmc ∧ (p.foundSysGuid ∨ p.foundNodeGuid) ∧ p.forwardedTo < z.leastForwardedTo then
      { z with leastForwardedTo := p.forwardedTo }
    else z
  else if routingForLmc ∧ (p.foundSysGuid ∨ p.foundNodeGuid) ∧ p.pathCount = z.leastPaths ∧
      p.forwardedTo < z.leastForwardedTo then
    { z with leastForwardedTo := p.forwardedTo, bestPort := p.portNum }
  else z

def shiftPass (routingForLmc : Bool) (z : Sel n) : Sel n :=
  let count := z.portPaths.length
  let z₀ := { z with leastPaths := maxPaths, leastPathsOtherSys := maxPaths
                     leastPathsOtherNodes := maxPaths, leastForwardedTo := maxPaths
                     bestPort := 0, bestPortOtherSys := 0, bestPortOtherNode := 0 }
  (List.range count).foldl (fun w i =>
    match z.portPaths[(z.totalPaths / count + i) % count]? with
    | some p => shiftStep routingForLmc w p
    | none => w) z₀

def finalPort (a : Args) (random : ℕ) (z : Sel n) : ℕ :=
  if a.routingForLmc ∧ z.bestPort ≠ 0 ∧ !a.scatterPorts then
    if z.bestPortOtherSys ≠ 0 then z.bestPortOtherSys
    else if z.bestPortOtherNode ≠ 0 then z.bestPortOtherNode
    else z.bestPort
  else if a.scatterPorts then
    z.scatterPossible.getD (random % z.scatterPossible.length) z.bestPort
  else z.bestPort

def firstPass (H : Hops n) (prof : ℕ → ℕ) (priv : List (RemoteNode n)) (a : Args) (s : Fin n)
    (baseLid leastHops : ℕ) : Sel n :=
  (List.range' a.startFrom (u.numPorts s)).foldl (selectStep u H prof priv a s baseLid leastHops) {}

def selectPort (H : Hops n) (prof : ℕ → ℕ) (priv : List (RemoteNode n)) (a : Args) (random : ℕ)
    (s : Fin n) (baseLid leastHops : ℕ) : ℕ :=
  let z := firstPass u H prof priv a s baseLid leastHops
  if !z.portFound then noPath
  else
    let z := if a.portShifting ∧ z.portPaths ≠ [] then shiftPass a.routingForLmc z else z
    finalPort a random z

/-- `osm_switch_get_port_by_lid` on the table `tbl`. -/
def getPortByLid (tbl : ℕ → ℕ) (s : Fin n) (lidHo : ℕ) : ℕ :=
  if lidHo = 0 ∨ u.maxLidHo s < lidHo then noPath else tbl lidHo

/-- An existing route is honoured when its port is healthy, linked and has the least hops. -/
def existingPort (H : Hops n) (s : Fin n) (lidHo baseLid leastHops : ℕ) : Option ℕ :=
  let portNum := getPortByLid u (u.lft s) s lidHo
  if portNum ≠ noPath ∧ u.healthy s portNum ∧ u.remote s portNum ≠ none ∧
      getHopCount u.toFabric H s baseLid portNum = leastHops then
    some portNum
  else none

def recommendVia (H : Hops n) (prof : ℕ → ℕ) (priv : List (RemoteNode n)) (a : Args) (random : ℕ)
    (s : Fin n) (lidHo baseLid : ℕ) : ℕ :=
  let leastHops := getLeastHops u.toFabric H s baseLid
  if leastHops = noPath then noPath
  else
    match if a.ignoreExisting then none else existingPort u H s lidHo baseLid leastHops with
    | some portNum => portNum
    | none => selectPort u H prof priv a random s baseLid leastHops

def recommendPath (H : Hops n) (prof : ℕ → ℕ) (priv : List (RemoteNode n)) (a : Args) (random : ℕ)
    (s : Fin n) (port : EndPort n m) (lidHo : ℕ) : ℕ :=
  match port with
  | .sw d => if d = s then 0 else recommendVia u H prof priv a random s lidHo (u.baseLid (.sw d))
  | .ca e =>
    match u.attach e with
    | none => noPath
    | some (d, p) => if d = s then p else recommendVia u H prof priv a random s lidHo (u.lid d)

end Switch

end OpenSM
