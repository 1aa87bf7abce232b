import OpenSM.LidMatrix
import OpenSM.Lib.Drive

/-! The DNUP routing engine: switches are ranked by their distance from channel adapters, and hop
tables are filled by a breadth-first search from every switch that never steps up and then down. -/

namespace OpenSM.DnUp

open Switch Lib.Drive

variable {n m : ℕ} (f : Fabric n m)

/-- `dnup_switch_dir_t`. -/
inductive SwitchDir
  | up
  | down
  | equal
  deriving DecidableEq

def getDir (curRank remRank : ℕ) : SwitchDir :=
  if curRank = 0 ∧ remRank = 0 then .equal
  else if curRank < remRank then .down
  else if remRank < curRank then .up
  else .equal

def ports (s : Fin n) : List ℕ := List.range' 1 (f.numPorts s - 1)

/-- The state of a search: `list`, and the hop table, `dir` and `visited` of every switch. `maxHops` is
`none` where the code passes a null pointer. -/
structure Bfs (n : ℕ) where
  hops : Hops n
  dir : Fin n → SwitchDir
  visited : Fin n → Bool
  list : List (Fin n)
  maxHops : Option ℕ

def Bfs.offer (lid : ℕ) (r : Fin n) (pnRem : ℕ) (nextDir : SwitchDir) (currentMinHop remoteMinHop : ℕ)
    (b : Bfs n) : Bfs n :=
  if currentMinHop + 1 < remoteMinHop then
    let b := { b with
      hops := (setHops f b.hops r lid pnRem (currentMinHop + 1)).1
      maxHops := b.maxHops.map fun h => if h < currentMinHop + 1 then (currentMinHop + 1) % 256 else h }
    if b.visited r then b
    else { b with
      dir := Function.update b.dir r nextDir
      visited := Function.update b.visited r true
      list := b.list ++ [r] }
  else b

def bfsPort (rank : Fin n → ℕ) (pruneWeight lid : ℕ) (u : Fin n) (currentDir : SwitchDir) (b : Bfs n)
    (pn : ℕ) : Bfs n :=
  match f.remote u pn with
  | some (.sw r pnRem) =>
    let nextDir := getDir (rank u) (rank r)
    let currentMinHop := getLeastHops f b.hops u lid
    let remoteMinHop := getHopCount f b.hops r lid pnRem
    if currentDir = .up ∧ nextDir = .down then
      if pruneWeight ≠ 0 then
        -- `current_min_hop` is a byte
        let currentMinHop := (currentMinHop + pruneWeight) % 256
        let b := if 64 ≤ currentMinHop then { b with hops := (setHops f b.hops r lid pnRem noPath).1 } else b
        b.offer f lid r pnRem nextDir currentMinHop remoteMinHop
      else b
    else b.offer f lid r pnRem nextDir currentMinHop remoteMinHop
  | _ => b

def bfsBody (rank : Fin n → ℕ) (pruneWeight lid : ℕ) (b : Bfs n) : Option (Bfs n) :=
  match b.list with
  | [] => none
  | u :: rest =>
    some ((ports f u).foldl (bfsPort f rank pruneWeight lid u (b.dir u))
      { b with list := rest, visited := Function.update b.visited u false })

/-- Rounds that a search without pruning cannot use up: every entry sinks at most 255 times. -/
def bfsRounds (n : ℕ) : ℕ := n * 256 * 256 + 1

def bfsByNode (rank : Fin n → ℕ) (pruneWeight : ℕ) (b : Bfs n) (s : Fin n) : Option (Bfs n) :=
  let lid := f.lid s
  drive (bfsBody f rank pruneWeight lid) (bfsRounds n)
    { b with
      hops := (setHops f b.hops s lid 0 0).1
      dir := Function.update b.dir s .down
      list := [s] }

def setMinHopTable (connectRoots : Bool) (rank : Fin n → ℕ) (H : Hops n) : Option (Hops n) := do
  let b : Bfs n := ⟨clearHops H, fun _ => .up, fun _ => false, [], some 0⟩
  let b ← (List.finRange n).foldlM (bfsByNode f rank 0) b
  if connectRoots then
    let maxHops := b.maxHops.getD 0
    let b := { b with hops := clearHops b.hops, visited := fun _ => false, maxHops := none }
    let b ← (List.finRange n).foldlM (bfsByNode f rank ((maxHops + 1) % 256)) b
    return b.hops
  else return b.hops

def rankPort (u : Fin n) (st : (Fin n → ℕ) × List (Fin n)) (portNum : ℕ) : (Fin n → ℕ) × List (Fin n) :=
  match f.remote u portNum with
  | some (.sw r _) =>
    if (st.1 u + 1) % 2 ^ 32 < st.1 r then (Function.update st.1 r ((st.1 u + 1) % 2 ^ 32), st.2 ++ [r])
    else st
  | _ => st

def rankBody (st : (Fin n → ℕ) × List (Fin n)) : Option ((Fin n → ℕ) × List (Fin n)) :=
  match st.2 with
  | [] => none
  | u :: rest => some ((ports f u).foldl (rankPort f u) (st.1, rest))

def unranked : ℕ := 0xffffffff

def subnRank (rank : Fin n → ℕ) : Option (Fin n → ℕ) :=
  (drive (rankBody f) (n * 2 ^ 32) (rank, (List.finRange n).filter fun s => rank s = 0)).map Prod.fst

def leaf (s : Fin n) : Bool :=
  (List.range (f.numPorts s)).any fun pn => match f.remote s pn with
    | some (.ca _) => true
    | _ => false

def lidMatrices (connectRoots : Bool) (H : Hops n) : Option (Hops n × ℤ) :=
  if (List.finRange n).any (leaf f) then do
    let rank ← subnRank f fun s => if leaf f s then 0 else unranked
    let H ← setMinHopTable f connectRoots rank H
    return (H, 0)
  else some (H, -1)

end OpenSM.DnUp
