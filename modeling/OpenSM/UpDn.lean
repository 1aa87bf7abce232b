import OpenSM.DnUp

/-! The UPDN routing engine: switches are ranked by their distance from the roots, and hop tables are filled by a
breadth-first search from every switch that never steps down and then up. -/

namespace OpenSM.UpDn

open Switch Lib.Drive

variable {n m : ℕ} (f : Fabric n m)

/-- `updn_switch_dir_t`. -/
inductive SwitchDir
  | up
  | down
  deriving DecidableEq

def getDir (curRank remRank curId remId : ℕ) : SwitchDir :=
  if curRank = 0 ∧ remRank = 0 then .up
  else if curRank < remRank then .down
  else if remRank < curRank then .up
  else if remId < curId then .up
  else .down

/-- The state of a search: `list`, and the hop table, `dir` and `visited` of every switch. -/
structure Bfs (n : ℕ) where
  hops : Hops n
  dir : Fin n → SwitchDir
  visited : Fin n → Bool
  list : List (Fin n)

def Bfs.offer (lid : ℕ) (r : Fin n) (pnRem : ℕ) (nextDir : SwitchDir) (currentMinHop : ℕ) (b : Bfs n) : Bfs n :=
  let b := { b with hops := (setHops f b.hops r lid pnRem (currentMinHop + 1)).1 }
  if b.visited r then b
  else { b with
    dir := Function.update b.dir r nextDir
    visited := Function.update b.visited r true
    list := b.list ++ [r] }

def bfsPort (rank id : Fin n → ℕ) (lid : ℕ) (u : Fin n) (currentDir : SwitchDir) (b : Bfs n) (pn : ℕ) : Bfs n :=
  match f.remote u pn with
  | some (.sw r pnRem) =>
    let nextDir := getDir (rank u) (rank r) (id u) (id r)
    if currentDir = .down ∧ nextDir = .up then b
    else
      let currentMinHop := getLeastHops f b.hops u lid
      let remoteMinHop := getHopCount f b.hops r lid pnRem
      if currentMinHop + 1 < remoteMinHop then b.offer f lid r pnRem nextDir currentMinHop else b
  | _ => b

def bfsBody (rank id : Fin n → ℕ) (lid : ℕ) (b : Bfs n) : Option (Bfs n) :=
  match b.list with
  | [] => none
  | u :: rest =>
    some ((DnUp.ports f u).foldl (bfsPort f rank id lid u (b.dir u))
      { b with list := rest, visited := Function.update b.visited u false })

def bfsByNode (rank id : Fin n → ℕ) (b : Bfs n) (s : Fin n) : Option (Bfs n) :=
  let lid := f.lid s
  drive (bfsBody f rank id lid) (DnUp.bfsRounds n)
    { b with
      hops := (setHops f b.hops s lid 0 0).1
      dir := Function.update b.dir s .up
      list := [s] }

/-- The loop of `updn_subn_rank` is that of `dnup_subn_rank`. -/
def subnRank (rank : Fin n → ℕ) : Option (Fin n → ℕ) := DnUp.subnRank f rank

def clearNonRootHops (rank : Fin n → ℕ) (H : Hops n) : Hops n := fun s lidHo =>
  if (List.finRange n).any fun d => f.lid d = lidHo && rank d = 0 then H s lidHo
  else (H s lidHo).map fun _ => fun _ => noPath

def setMinHopTable (connectRoots : Bool) (rank id : Fin n → ℕ) (H : Hops n) : Option (Hops n) := do
  let H := if connectRoots then clearNonRootHops f rank H else clearHops H
  let b ← (List.finRange n).foldlM (bfsByNode f rank id) ⟨H, fun _ => .up, fun _ => false, []⟩
  return b.hops

def rootRank (root : Fin n → Bool) (s : Fin n) : ℕ := if root s then 0 else DnUp.unranked

end OpenSM.UpDn
