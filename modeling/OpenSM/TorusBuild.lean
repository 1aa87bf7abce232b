import OpenSM.TorusCases

/-! `build_torus`: from the seed, all cubes in turn for as long as links are found, and then the hosts. -/

namespace OpenSM.Torus2QoS

variable (g : Setup)

/-- What keeps `build_torus` from returning. -/
inductive Stuck
  | nullPointer
  | endless
  deriving DecidableEq

def seedSw : Coord := fun d => canonicalize (-g.seed.dateline d) (g.sz d)

def seedEnd (d : Dim) (up : Bool) : Coord :=
  Function.update (seedSw g) d (canonicalize ((if up then 1 else -1) - g.seed.dateline d) (g.sz d))

def installSeedLink (st : Bool × BuildSt) (x : Dim × Bool) : Bool × BuildSt :=
  match g.seed.link x.1 x.2 with
  | none => st
  | some (nId0, nId1) =>
    let r0 := installTswitch g st.2 (seedSw g) (findFSw g.fabric nId0)
    if !r0.1 then (false, r0.2)
    else
      let r1 := installTswitch g r0.2 (seedEnd g x.1 x.2) (findFSw g.fabric nId1)
      (r1.1 && st.1, r1.2)

def installSeed : Bool × BuildSt :=
  [(Dim.x, true), (.x, false), (.y, true), (.y, false), (.z, true), (.z, false)].foldl (installSeedLink g)
      (true, .init g)

def Setup.coords : List Coord :=
  (List.range (g.sz .z)).flatMap fun k => (List.range (g.sz .y)).flatMap fun j =>
    (List.range (g.sz .x)).map fun i => coord i j k

def locateAll (s : BuildSt) : Option BuildSt := g.coords.foldlM (locateSw g) s

/-- The loop over all cubes, and nothing if it has not ended after `fuel` rounds. -/
def searchLoop : ℕ → BuildSt → Option BuildSt
  | 0, _ => none
  | fuel + 1, s => do
    let s' ← locateAll g s
    if s'.links.length ≠ s.links.length then searchLoop fuel s' else some s'

def linkSrcsinks : List Coord → BuildSt → Bool × BuildSt
  | [], s => (true, s)
  | c :: cs, s =>
    let res := linkSrcsink g s c
    if res.1 then linkSrcsinks cs res.2 else res

/-- Without memory for the links there is nothing to build, and this is no error. The log text about the seed is
made from the switch there. The links that can be moved are those of the fabric, so a round for each and one
more will do. -/
def buildTorus : Except Stuck (Bool × BuildSt) :=
  if !g.linkPool then .ok (true, .init g)
  else
    let seed := installSeed g
    if !seed.1 then .ok (false, seed.2)
    else if !seed.2.present (seedSw g) then .error .nullPointer
    else
      match searchLoop g (g.fabric.linkCnt + 1) seed.2 with
      | none => .error .endless
      | some s => .ok (linkSrcsinks g g.coords s)

end OpenSM.Torus2QoS
