import OpenSM.Torus

/-! The master spanning tree of torus-2QoS, of which every multicast tree is a part. -/

namespace OpenSM.Torus2QoS

/-- `to_stree_root` and `to_stree_tip` of the port groups, and `master_stree_root`, which is set last. -/
structure Stree where
  toRoot : Coord → ℕ → Option (Coord × ℕ)
  toTip : Coord → ℕ → Option (Coord × ℕ)
  masterRoot : Option Coord

def Stree.empty : Stree := ⟨fun _ _ => none, fun _ _ => none, none⟩

def canonicalize (v : ℤ) (vmax : ℕ) : ℕ :=
  if 0 ≤ v ∧ v < vmax then v.toNat
  else
    let v := if v < 0 then v + vmax * (1 - v.tdiv vmax) else v
    (v.tmod vmax).toNat

variable (t : Torus)

def goodXyRing (x y z : ℕ) : Bool :=
  ((List.range (t.sz .x)).all fun i => t.present (coord i y z)) &&
    (List.range (t.sz .y)).all fun j => t.present (coord x j z)

/-- The places that `find_plane_mid` looks at, all on a diagonal. -/
def planeProbes : List (ℕ × ℕ) :=
  let xm := t.sz .x / 2
  let ym := t.sz .y / 2
  (xm, ym) :: (List.range (min xm ym)).flatMap fun (n : ℕ) =>
    let d : ℤ := n + 1
    [(canonicalize (xm - d) (t.sz .x), canonicalize (ym - d) (t.sz .y)),
      (canonicalize (xm + d) (t.sz .x), canonicalize (ym + d) (t.sz .y))]

def findPlaneMid (z : ℕ) : Option Coord :=
  ((planeProbes t).find? fun p => goodXyRing t p.1 p.2 z).map fun p => coord p.1 p.2 z

def zProbes : List ℕ :=
  let zm := t.sz .z / 2
  (List.range (zm + 1)).flatMap fun (dz : ℕ) =>
    canonicalize (zm - dz) (t.sz .z) :: if dz = 0 then [] else [canonicalize (zm + dz) (t.sz .z)]

def goodPlane (z : ℕ) : Bool :=
  (List.range (t.sz .y)).all fun j => (List.range (t.sz .x)).all fun i => t.present (coord i j z)

def findStreeRoot : Option Coord :=
  ((zProbes t).findSome? fun z => if goodPlane t z then findPlaneMid t z else none).orElse fun _ =>
    findPlaneMid t (t.sz .z / 2)

def swInMasterStree (st : Stree) (sw : Coord) : Bool :=
  decide (some sw = st.masterRoot) || (List.range 6).any fun g => (st.toRoot sw g).isSome

def growMasterStreeBranch (st : Stree) (root tip : Coord) (toRootPg toTipPg : ℕ) : Stree :=
  { st with
    toTip := Function.update st.toTip root (Function.update (st.toTip root) toTipPg (some (tip, toRootPg)))
    toRoot := Function.update st.toRoot tip (Function.update (st.toRoot tip) toRootPg (some (root, toTipPg))) }

/-- The body of the loops over a branch: the tip moves on to the next switch, or there is none. -/
def extendBranch (cdir : Dim) (rdir : ℤ) (st : Stree × Option Coord) : Stree × Option Coord :=
  match st.2 with
  | none => st
  | some tip =>
    match ringNextSw t tip cdir rdir with
    | none => (st.1, none)
    | some sw =>
      if swInMasterStree st.1 sw then (st.1, none)
      else if 0 < rdir then (growMasterStreeBranch st.1 tip sw cdir.neg cdir.pos, some sw)
      else (growMasterStreeBranch st.1 tip sw cdir.pos cdir.neg, some sw)

def crossDateline (cdir : Dim) : ℕ → Stree → Option Coord → Option Coord → Stree
  | 0, st, _, _ => st
  | cnt + 1, st, n, p =>
    let neg := extendBranch t cdir (-1) (st, n)
    let pos := extendBranch t cdir 1 (neg.1, p)
    if neg.2.isNone && pos.2.isNone then pos.1 else crossDateline cdir cnt pos.1 neg.2 pos.2

def buildMasterStreeBranch (st : Stree) (branchRoot : Coord) (cdir : Dim) : Stree :=
  let idx := branchRoot cdir
  let cnt := t.sz cdir
  let neg := (extendBranch t cdir (-1))^[idx] (st, some branchRoot)
  let pos := (extendBranch t cdir 1)^[cnt - 1 - idx] (neg.1, some branchRoot)
  if neg.2.isSome && pos.2.isSome then pos.1 else crossDateline t cdir cnt pos.1 neg.2 pos.2

def buildColumn (root : Coord) (st : Stree) (i : ℕ) : Stree :=
  let yRoot := coord i (root .y) (root .z)
  let st := if t.present yRoot then buildMasterStreeBranch t st yRoot .y else st
  (List.range (t.sz .y)).foldl (fun st j =>
    let zRoot := coord i j (root .z)
    if t.present zRoot then buildMasterStreeBranch t st zRoot .z else st) st

def torusMasterStree : Bool × Stree :=
  match findStreeRoot t with
  | none => (false, .empty)
  | some root =>
    let st := buildMasterStreeBranch t .empty root .x
    let st := (List.range (t.sz .x)).foldl (buildColumn t root) st
    let st := { st with masterRoot := some root }
    (t.coords.all fun c => !t.present c || swInMasterStree st c, st)

end OpenSM.Torus2QoS
