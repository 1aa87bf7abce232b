import OpenSM.TorusFabric

/-! Where the switches of the fabric go in the torus: each cube of eight positions shows by the switches it has
which others can be found. -/

namespace OpenSM.Torus2QoS

variable (g : Setup) (s : BuildSt)

/-- The other end of an interswitch link that has not been installed yet, `far_end->sw`. -/
def farSwitch (f p : ℕ) : Option ℕ :=
  match fswPort g s f p with
  | some (.lend l b) =>
    if !((endSw g s l b).isSome && decide ((g.fabric.ends l b).type = .passthru)) then none
    else
      let far := decide ((g.fabric.ends l false).nId = g.fabric.nId f)
      if (g.fabric.ends l far).type = .passthru then endSw g s l far else none
  | _ => none

def farSwitches (f : ℕ) : List ℕ := (List.range (g.fabric.portCnt f)).filterMap (farSwitch g s f)

def ffindFaceCorner (fsw0 fsw1 fsw2 : ℕ) : Option ℕ :=
  (farSwitches g s fsw0).find? fun fsw3 =>
    decide (g.fabric.nId fsw3 ≠ g.fabric.nId fsw1) &&
      (farSwitches g s fsw3).any fun fsw => decide (g.fabric.nId fsw = g.fabric.nId fsw2)

def ffind3dPerpendicular (fsw0 fsw1 fsw2 fsw3 : ℕ) : Option ℕ :=
  (farSwitches g s fsw1).find? fun fsw4 =>
    decide (g.fabric.nId fsw4 ≠ g.fabric.nId fsw3) &&
      (ffindFaceCorner g s fsw0 fsw1 fsw4).isSome && (ffindFaceCorner g s fsw2 fsw1 fsw4).isSome

def ffind2dPerpendicular (fsw0 fsw1 fsw2 : ℕ) : Option ℕ :=
  (farSwitches g s fsw1).find? fun fsw3 =>
    decide (g.fabric.nId fsw3 ≠ g.fabric.nId fsw2) && (ffindFaceCorner g s fsw0 fsw1 fsw3).isSome

structure Off where
  x : ℤ
  y : ℤ
  z : ℤ

def corner (c : Coord) (o : Off) : Coord :=
  coord (canonicalize (c .x + o.x) (g.sz .x)) (canonicalize (c .y + o.y) (g.sz .y))
      (canonicalize (c .z + o.z) (g.sz .z))

inductive Finder
  | faceCorner (sw0 sw1 sw2 : Off)
  | perpendicular3d (sw0 sw1 sw2 sw3 : Off)
  | perpendicular2d (sw0 sw1 sw2 : Off)

/-- `tfind_face_corner`, `tfind_3d_perpendicular` and `tfind_2d_perpendicular`. -/
def Finder.find (c : Coord) : Finder → Option ℕ
  | .faceCorner sw0 sw1 sw2 => do
    ffindFaceCorner g s (← s.sw (corner g c sw0)) (← s.sw (corner g c sw1)) (← s.sw (corner g c sw2))
  | .perpendicular3d sw0 sw1 sw2 sw3 => do
    ffind3dPerpendicular g s (← s.sw (corner g c sw0)) (← s.sw (corner g c sw1)) (← s.sw (corner g c sw2))
      (← s.sw (corner g c sw3))
  | .perpendicular2d sw0 sw1 sw2 => do
    ffind2dPerpendicular g s (← s.sw (corner g c sw0)) (← s.sw (corner g c sw1)) (← s.sw (corner g c sw2))

/-- `link_tswitches`, if there are switches at both places. -/
def linkPresent (cdir : Dim) (c0 c1 : Coord) : Bool × BuildSt :=
  if s.present c0 && s.present c1 then linkTswitches g s cdir c0 c1 else (true, s)

def along (c : Coord) (cdir : Dim) (n : ℤ) : Coord :=
    Function.update c cdir (canonicalize (c cdir + n) (g.sz cdir))

/-- A ring of radix four does not get in the way of a search for perpendiculars. -/
def safeRing (cdir : Dim) (c : Coord) : Bool × BuildSt :=
  if g.sz cdir ≠ 4 || g.mesh cdir then (true, s)
  else
    let m1 := along g c cdir (-1)
    let p1 := along g c cdir 1
    let p2 := along g c cdir 2
    if (s.present m1).toNat + (s.present p1).toNat + (s.present p2).toNat < 2 then (false, s)
    else
      let r1 := linkPresent g s cdir p2 m1
      let r2 := linkPresent g r1.2 cdir m1 c
      let r3 := linkPresent g r2.2 cdir c p1
      let r4 := linkPresent g r3.2 cdir p1 p2
      (r4.1 && r3.1 && r2.1 && r1.1, r4.2)

def safeXRing (c : Coord) : Bool × BuildSt := safeRing g s .x c

def safeYRing (c : Coord) : Bool × BuildSt := safeRing g s .y c

def safeZRing (c : Coord) : Bool × BuildSt := safeRing g s .z c

def safeXPerpendicular (c : Coord) : Bool × BuildSt :=
  let r := safeYRing g s c
  if r.1 then safeZRing g r.2 c else r

def safeYPerpendicular (c : Coord) : Bool × BuildSt :=
  let r := safeXRing g s c
  if r.1 then safeZRing g r.2 c else r

def safeZPerpendicular (c : Coord) : Bool × BuildSt :=
  let r := safeXRing g s c
  if r.1 then safeYRing g r.2 c else r

def safePerpendicular (cdir : Dim) (c : Coord) : Bool × BuildSt :=
  match cdir with
  | .x => safeXPerpendicular g s c
  | .y => safeYPerpendicular g s c
  | .z => safeZPerpendicular g s c

/-- One attempt of a handler: the check that it starts with, the place to fill, and the search. -/
structure Attempt where
  safe : Option (Dim × Off)
  place : Off
  finder : Finder

def Attempt.isSafe (a : Attempt) (c : Coord) : Bool × BuildSt :=
  match a.safe with
  | none => (true, s)
  | some (cdir, o) => safePerpendicular g s cdir (corner g c o)

def Attempt.run (a : Attempt) (c : Coord) : Bool × BuildSt :=
  let safe := a.isSafe g s c
  if safe.1 then installTswitch g safe.2 (corner g c a.place) (a.finder.find g safe.2 c) else safe

abbrev Handler := List Attempt

def Handler.run : Handler → Coord → BuildSt → Bool × BuildSt
  | [], _, s => (false, s)
  | a :: h, c, s =>
    let res := a.run g s c
    if res.1 then res else Handler.run h c res.2

def handleCase0x30c : Handler :=
  [⟨some (.y, ⟨0, 0, 0⟩), ⟨0, 1, 0⟩, .perpendicular2d ⟨1, 0, 0⟩ ⟨0, 0, 0⟩ ⟨0, -1, 0⟩⟩,
    ⟨some (.y, ⟨1, 0, 0⟩), ⟨1, 1, 0⟩, .perpendicular2d ⟨0, 0, 0⟩ ⟨1, 0, 0⟩ ⟨1, -1, 0⟩⟩]

def handleCase0x530 : Handler :=
  [⟨some (.z, ⟨0, 0, 0⟩), ⟨0, 0, 1⟩, .perpendicular2d ⟨1, 0, 0⟩ ⟨0, 0, 0⟩ ⟨0, 0, -1⟩⟩,
    ⟨some (.z, ⟨1, 0, 0⟩), ⟨1, 0, 1⟩, .perpendicular2d ⟨0, 0, 0⟩ ⟨1, 0, 0⟩ ⟨1, 0, -1⟩⟩]

def handleCase0x650 : Handler :=
  [⟨some (.z, ⟨0, 0, 0⟩), ⟨0, 0, 1⟩, .perpendicular2d ⟨0, 1, 0⟩ ⟨0, 0, 0⟩ ⟨0, 0, -1⟩⟩,
    ⟨some (.z, ⟨0, 1, 0⟩), ⟨0, 1, 1⟩, .perpendicular2d ⟨0, 0, 0⟩ ⟨0, 1, 0⟩ ⟨0, 1, -1⟩⟩]

def handleCase0x305 : Handler :=
  [⟨some (.x, ⟨1, 0, 0⟩), ⟨0, 0, 0⟩, .perpendicular2d ⟨1, 1, 0⟩ ⟨1, 0, 0⟩ ⟨2, 0, 0⟩⟩,
    ⟨some (.x, ⟨1, 1, 0⟩), ⟨0, 1, 0⟩, .perpendicular2d ⟨1, 0, 0⟩ ⟨1, 1, 0⟩ ⟨2, 1, 0⟩⟩]

def handleCase0x511 : Handler :=
  [⟨some (.x, ⟨1, 0, 0⟩), ⟨0, 0, 0⟩, .perpendicular2d ⟨1, 0, 1⟩ ⟨1, 0, 0⟩ ⟨2, 0, 0⟩⟩,
    ⟨some (.x, ⟨1, 0, 1⟩), ⟨0, 0, 1⟩, .perpendicular2d ⟨1, 0, 0⟩ ⟨1, 0, 1⟩ ⟨2, 0, 1⟩⟩]

def handleCase0x611 : Handler :=
  [⟨some (.y, ⟨0, 1, 0⟩), ⟨0, 0, 0⟩, .perpendicular2d ⟨0, 1, 1⟩ ⟨0, 1, 0⟩ ⟨0, 2, 0⟩⟩,
    ⟨some (.y, ⟨0, 1, 1⟩), ⟨0, 0, 1⟩, .perpendicular2d ⟨0, 1, 0⟩ ⟨0, 1, 1⟩ ⟨0, 2, 1⟩⟩]

def handleCase0x303 : Handler :=
  [⟨some (.y, ⟨0, 1, 0⟩), ⟨0, 0, 0⟩, .perpendicular2d ⟨1, 1, 0⟩ ⟨0, 1, 0⟩ ⟨0, 2, 0⟩⟩,
    ⟨some (.y, ⟨1, 1, 0⟩), ⟨1, 0, 0⟩, .perpendicular2d ⟨0, 1, 0⟩ ⟨1, 1, 0⟩ ⟨1, 2, 0⟩⟩]

def handleCase0x503 : Handler :=
  [⟨some (.z, ⟨0, 0, 1⟩), ⟨0, 0, 0⟩, .perpendicular2d ⟨1, 0, 1⟩ ⟨0, 0, 1⟩ ⟨0, 0, 2⟩⟩,
    ⟨some (.z, ⟨1, 0, 1⟩), ⟨1, 0, 0⟩, .perpendicular2d ⟨0, 0, 1⟩ ⟨1, 0, 1⟩ ⟨1, 0, 2⟩⟩]

def handleCase0x605 : Handler :=
  [⟨some (.z, ⟨0, 0, 1⟩), ⟨0, 0, 0⟩, .perpendicular2d ⟨0, 1, 1⟩ ⟨0, 0, 1⟩ ⟨0, 0, 2⟩⟩,
    ⟨some (.z, ⟨0, 1, 1⟩), ⟨0, 1, 0⟩, .perpendicular2d ⟨0, 0, 1⟩ ⟨0, 1, 1⟩ ⟨0, 1, 2⟩⟩]

def handleCase0x30a : Handler :=
  [⟨some (.x, ⟨0, 0, 0⟩), ⟨1, 0, 0⟩, .perpendicular2d ⟨0, 1, 0⟩ ⟨0, 0, 0⟩ ⟨-1, 0, 0⟩⟩,
    ⟨some (.x, ⟨0, 1, 0⟩), ⟨1, 1, 0⟩, .perpendicular2d ⟨0, 0, 0⟩ ⟨0, 1, 0⟩ ⟨-1, 1, 0⟩⟩]

def handleCase0x522 : Handler :=
  [⟨some (.x, ⟨0, 0, 0⟩), ⟨1, 0, 0⟩, .perpendicular2d ⟨0, 0, 1⟩ ⟨0, 0, 0⟩ ⟨-1, 0, 0⟩⟩,
    ⟨some (.x, ⟨0, 0, 1⟩), ⟨1, 0, 1⟩, .perpendicular2d ⟨0, 0, 0⟩ ⟨0, 0, 1⟩ ⟨-1, 0, 1⟩⟩]

def handleCase0x644 : Handler :=
  [⟨some (.y, ⟨0, 0, 0⟩), ⟨0, 1, 0⟩, .perpendicular2d ⟨0, 0, 1⟩ ⟨0, 0, 0⟩ ⟨0, -1, 0⟩⟩,
    ⟨some (.y, ⟨0, 0, 1⟩), ⟨0, 1, 1⟩, .perpendicular2d ⟨0, 0, 0⟩ ⟨0, 0, 1⟩ ⟨0, -1, 1⟩⟩]

def handleCase0x301 : Handler := [⟨none, ⟨0, 0, 0⟩, .faceCorner ⟨1, 0, 0⟩ ⟨1, 1, 0⟩ ⟨0, 1, 0⟩⟩]

def handleCase0x501 : Handler := [⟨none, ⟨0, 0, 0⟩, .faceCorner ⟨1, 0, 0⟩ ⟨1, 0, 1⟩ ⟨0, 0, 1⟩⟩]

def handleCase0x601 : Handler := [⟨none, ⟨0, 0, 0⟩, .faceCorner ⟨0, 1, 0⟩ ⟨0, 1, 1⟩ ⟨0, 0, 1⟩⟩]

def handleCase0x302 : Handler := [⟨none, ⟨1, 0, 0⟩, .faceCorner ⟨0, 0, 0⟩ ⟨0, 1, 0⟩ ⟨1, 1, 0⟩⟩]

def handleCase0x502 : Handler := [⟨none, ⟨1, 0, 0⟩, .faceCorner ⟨0, 0, 0⟩ ⟨0, 0, 1⟩ ⟨1, 0, 1⟩⟩]

def handleCase0x604 : Handler := [⟨none, ⟨0, 1, 0⟩, .faceCorner ⟨0, 0, 0⟩ ⟨0, 0, 1⟩ ⟨0, 1, 1⟩⟩]

def handleCase0x308 : Handler := [⟨none, ⟨1, 1, 0⟩, .faceCorner ⟨1, 0, 0⟩ ⟨0, 0, 0⟩ ⟨0, 1, 0⟩⟩]

def handleCase0x520 : Handler := [⟨none, ⟨1, 0, 1⟩, .faceCorner ⟨1, 0, 0⟩ ⟨0, 0, 0⟩ ⟨0, 0, 1⟩⟩]

def handleCase0x640 : Handler := [⟨none, ⟨0, 1, 1⟩, .faceCorner ⟨0, 1, 0⟩ ⟨0, 0, 0⟩ ⟨0, 0, 1⟩⟩]

def handleCase0x304 : Handler := [⟨none, ⟨0, 1, 0⟩, .faceCorner ⟨0, 0, 0⟩ ⟨1, 0, 0⟩ ⟨1, 1, 0⟩⟩]

def handleCase0x510 : Handler := [⟨none, ⟨0, 0, 1⟩, .faceCorner ⟨0, 0, 0⟩ ⟨1, 0, 0⟩ ⟨1, 0, 1⟩⟩]

def handleCase0x610 : Handler := [⟨none, ⟨0, 0, 1⟩, .faceCorner ⟨0, 0, 0⟩ ⟨0, 1, 0⟩ ⟨0, 1, 1⟩⟩]

def handleCase0x71f : Handler :=
  [⟨some (.z, ⟨1, 1, 1⟩), ⟨1, 1, 0⟩, .perpendicular3d ⟨1, 0, 1⟩ ⟨1, 1, 1⟩ ⟨0, 1, 1⟩ ⟨1, 1, 2⟩⟩]

def handleCase0x72f : Handler :=
  [⟨some (.z, ⟨0, 1, 1⟩), ⟨0, 1, 0⟩, .perpendicular3d ⟨0, 0, 1⟩ ⟨0, 1, 1⟩ ⟨1, 1, 1⟩ ⟨0, 1, 2⟩⟩]

def handleCase0x737 : Handler :=
  [⟨some (.y, ⟨1, 1, 1⟩), ⟨1, 0, 1⟩, .perpendicular3d ⟨0, 1, 1⟩ ⟨1, 1, 1⟩ ⟨1, 1, 0⟩ ⟨1, 2, 1⟩⟩]

def handleCase0x73b : Handler :=
  [⟨some (.y, ⟨0, 1, 1⟩), ⟨0, 0, 1⟩, .perpendicular3d ⟨0, 1, 0⟩ ⟨0, 1, 1⟩ ⟨1, 1, 1⟩ ⟨0, 2, 1⟩⟩]

def handleCase0x74f : Handler :=
  [⟨some (.z, ⟨1, 0, 1⟩), ⟨1, 0, 0⟩, .perpendicular3d ⟨0, 0, 1⟩ ⟨1, 0, 1⟩ ⟨1, 1, 1⟩ ⟨1, 0, 2⟩⟩]

def handleCase0x757 : Handler :=
  [⟨some (.x, ⟨1, 1, 1⟩), ⟨0, 1, 1⟩, .perpendicular3d ⟨1, 0, 1⟩ ⟨1, 1, 1⟩ ⟨1, 1, 0⟩ ⟨2, 1, 1⟩⟩]

def handleCase0x75d : Handler :=
  [⟨some (.x, ⟨1, 0, 1⟩), ⟨0, 0, 1⟩, .perpendicular3d ⟨1, 0, 0⟩ ⟨1, 0, 1⟩ ⟨1, 1, 1⟩ ⟨2, 0, 1⟩⟩]

def handleCase0x773 : Handler :=
  [⟨some (.y, ⟨1, 1, 0⟩), ⟨1, 0, 0⟩, .perpendicular3d ⟨0, 1, 0⟩ ⟨1, 1, 0⟩ ⟨1, 1, 1⟩ ⟨1, 2, 0⟩⟩]

def handleCase0x775 : Handler :=
  [⟨some (.x, ⟨1, 1, 0⟩), ⟨0, 1, 0⟩, .perpendicular3d ⟨1, 0, 0⟩ ⟨1, 1, 0⟩ ⟨1, 1, 1⟩ ⟨2, 1, 0⟩⟩]

def handleCase0x78f : Handler :=
  [⟨some (.z, ⟨0, 0, 1⟩), ⟨0, 0, 0⟩, .perpendicular3d ⟨1, 0, 1⟩ ⟨0, 0, 1⟩ ⟨0, 1, 1⟩ ⟨0, 0, 2⟩⟩]

def handleCase0x7ab : Handler :=
  [⟨some (.x, ⟨0, 1, 1⟩), ⟨1, 1, 1⟩, .perpendicular3d ⟨0, 0, 1⟩ ⟨0, 1, 1⟩ ⟨0, 1, 0⟩ ⟨-1, 1, 1⟩⟩]

def handleCase0x7ae : Handler :=
  [⟨some (.x, ⟨0, 0, 1⟩), ⟨1, 0, 1⟩, .perpendicular3d ⟨0, 0, 0⟩ ⟨0, 0, 1⟩ ⟨0, 1, 1⟩ ⟨-1, 0, 1⟩⟩]

def handleCase0x7b3 : Handler :=
  [⟨some (.y, ⟨0, 1, 0⟩), ⟨0, 0, 0⟩, .perpendicular3d ⟨0, 1, 1⟩ ⟨0, 1, 0⟩ ⟨1, 1, 0⟩ ⟨0, 2, 0⟩⟩]

def handleCase0x7ba : Handler :=
  [⟨some (.x, ⟨0, 1, 0⟩), ⟨1, 1, 0⟩, .perpendicular3d ⟨0, 0, 0⟩ ⟨0, 1, 0⟩ ⟨0, 1, 1⟩ ⟨-1, 1, 0⟩⟩]

def handleCase0x7cd : Handler :=
  [⟨some (.y, ⟨1, 0, 1⟩), ⟨1, 1, 1⟩, .perpendicular3d ⟨0, 0, 1⟩ ⟨1, 0, 1⟩ ⟨1, 0, 0⟩ ⟨1, -1, 1⟩⟩]

def handleCase0x7ce : Handler :=
  [⟨some (.y, ⟨0, 0, 1⟩), ⟨0, 1, 1⟩, .perpendicular3d ⟨0, 0, 0⟩ ⟨0, 0, 1⟩ ⟨1, 0, 1⟩ ⟨0, -1, 1⟩⟩]

def handleCase0x7d5 : Handler :=
  [⟨some (.x, ⟨1, 0, 0⟩), ⟨0, 0, 0⟩, .perpendicular3d ⟨1, 0, 1⟩ ⟨1, 0, 0⟩ ⟨1, 1, 0⟩ ⟨2, 0, 0⟩⟩]

def handleCase0x7dc : Handler :=
  [⟨some (.y, ⟨1, 0, 0⟩), ⟨1, 1, 0⟩, .perpendicular3d ⟨0, 0, 0⟩ ⟨1, 0, 0⟩ ⟨1, 0, 1⟩ ⟨1, -1, 0⟩⟩]

def handleCase0x7ea : Handler :=
  [⟨some (.x, ⟨0, 0, 0⟩), ⟨1, 0, 0⟩, .perpendicular3d ⟨0, 0, 1⟩ ⟨0, 0, 0⟩ ⟨0, 1, 0⟩ ⟨-1, 0, 0⟩⟩]

def handleCase0x7ec : Handler :=
  [⟨some (.y, ⟨0, 0, 0⟩), ⟨0, 1, 0⟩, .perpendicular3d ⟨0, 0, 1⟩ ⟨0, 0, 0⟩ ⟨1, 0, 0⟩ ⟨0, -1, 0⟩⟩]

def handleCase0x7f1 : Handler :=
  [⟨some (.z, ⟨1, 1, 0⟩), ⟨1, 1, 1⟩, .perpendicular3d ⟨1, 0, 0⟩ ⟨1, 1, 0⟩ ⟨0, 1, 0⟩ ⟨1, 1, -1⟩⟩]

def handleCase0x7f2 : Handler :=
  [⟨some (.z, ⟨0, 1, 0⟩), ⟨0, 1, 1⟩, .perpendicular3d ⟨0, 0, 0⟩ ⟨0, 1, 0⟩ ⟨1, 1, 0⟩ ⟨0, 1, -1⟩⟩]

def handleCase0x7f4 : Handler :=
  [⟨some (.z, ⟨1, 0, 0⟩), ⟨1, 0, 1⟩, .perpendicular3d ⟨0, 0, 0⟩ ⟨1, 0, 0⟩ ⟨1, 1, 0⟩ ⟨1, 0, -1⟩⟩]

def handleCase0x7f8 : Handler :=
  [⟨some (.z, ⟨0, 0, 0⟩), ⟨0, 0, 1⟩, .perpendicular3d ⟨1, 0, 0⟩ ⟨0, 0, 0⟩ ⟨0, 1, 0⟩ ⟨0, 0, -1⟩⟩]

def handleCase0x717 : Handler :=
  [⟨none, ⟨0, 0, 1⟩, .faceCorner ⟨0, 1, 1⟩ ⟨1, 1, 1⟩ ⟨1, 0, 1⟩⟩,
    ⟨none, ⟨1, 0, 0⟩, .faceCorner ⟨1, 1, 0⟩ ⟨1, 1, 1⟩ ⟨1, 0, 1⟩⟩,
    ⟨none, ⟨0, 1, 0⟩, .faceCorner ⟨1, 1, 0⟩ ⟨1, 1, 1⟩ ⟨0, 1, 1⟩⟩]

def handleCase0x72b : Handler :=
  [⟨none, ⟨1, 0, 1⟩, .faceCorner ⟨0, 0, 1⟩ ⟨0, 1, 1⟩ ⟨1, 1, 1⟩⟩,
    ⟨none, ⟨0, 0, 0⟩, .faceCorner ⟨0, 1, 0⟩ ⟨0, 1, 1⟩ ⟨0, 0, 1⟩⟩,
    ⟨none, ⟨1, 1, 0⟩, .faceCorner ⟨0, 1, 0⟩ ⟨0, 1, 1⟩ ⟨1, 1, 1⟩⟩]

def handleCase0x74d : Handler :=
  [⟨none, ⟨0, 1, 1⟩, .faceCorner ⟨0, 0, 1⟩ ⟨1, 0, 1⟩ ⟨1, 1, 1⟩⟩,
    ⟨none, ⟨0, 0, 0⟩, .faceCorner ⟨1, 0, 0⟩ ⟨1, 0, 1⟩ ⟨0, 0, 1⟩⟩,
    ⟨none, ⟨1, 1, 0⟩, .faceCorner ⟨1, 0, 0⟩ ⟨1, 0, 1⟩ ⟨1, 1, 1⟩⟩]

def handleCase0x771 : Handler :=
  [⟨none, ⟨0, 0, 0⟩, .faceCorner ⟨0, 1, 0⟩ ⟨1, 1, 0⟩ ⟨1, 0, 0⟩⟩,
    ⟨none, ⟨1, 0, 1⟩, .faceCorner ⟨1, 1, 1⟩ ⟨1, 1, 0⟩ ⟨1, 0, 0⟩⟩,
    ⟨none, ⟨0, 1, 1⟩, .faceCorner ⟨1, 1, 1⟩ ⟨1, 1, 0⟩ ⟨0, 1, 0⟩⟩]

def handleCase0x78e : Handler :=
  [⟨none, ⟨1, 1, 1⟩, .faceCorner ⟨1, 0, 1⟩ ⟨0, 0, 1⟩ ⟨0, 1, 1⟩⟩,
    ⟨none, ⟨1, 0, 0⟩, .faceCorner ⟨0, 0, 0⟩ ⟨0, 0, 1⟩ ⟨1, 0, 1⟩⟩,
    ⟨none, ⟨0, 1, 0⟩, .faceCorner ⟨0, 0, 0⟩ ⟨0, 0, 1⟩ ⟨0, 1, 1⟩⟩]

def handleCase0x7b2 : Handler :=
  [⟨none, ⟨1, 0, 0⟩, .faceCorner ⟨0, 0, 0⟩ ⟨0, 1, 0⟩ ⟨1, 1, 0⟩⟩,
    ⟨none, ⟨1, 1, 1⟩, .faceCorner ⟨0, 1, 1⟩ ⟨0, 1, 0⟩ ⟨1, 1, 0⟩⟩,
    ⟨none, ⟨0, 0, 1⟩, .faceCorner ⟨0, 1, 1⟩ ⟨0, 1, 0⟩ ⟨0, 0, 0⟩⟩]

def handleCase0x7d4 : Handler :=
  [⟨none, ⟨0, 1, 0⟩, .faceCorner ⟨0, 0, 0⟩ ⟨1, 0, 0⟩ ⟨1, 1, 0⟩⟩,
    ⟨none, ⟨0, 0, 1⟩, .faceCorner ⟨1, 0, 1⟩ ⟨1, 0, 0⟩ ⟨0, 0, 0⟩⟩,
    ⟨none, ⟨1, 1, 1⟩, .faceCorner ⟨1, 0, 1⟩ ⟨1, 0, 0⟩ ⟨1, 1, 0⟩⟩]

def handleCase0x7e8 : Handler :=
  [⟨none, ⟨1, 1, 0⟩, .faceCorner ⟨1, 0, 0⟩ ⟨0, 0, 0⟩ ⟨0, 1, 0⟩⟩,
    ⟨none, ⟨1, 0, 1⟩, .faceCorner ⟨1, 0, 0⟩ ⟨0, 0, 0⟩ ⟨0, 0, 1⟩⟩,
    ⟨none, ⟨0, 1, 1⟩, .faceCorner ⟨0, 1, 0⟩ ⟨0, 0, 0⟩ ⟨0, 0, 1⟩⟩]

def handleCase0x707 : Handler :=
  [⟨none, ⟨1, 0, 0⟩, .faceCorner ⟨1, 1, 0⟩ ⟨1, 1, 1⟩ ⟨1, 0, 1⟩⟩,
    ⟨none, ⟨0, 1, 0⟩, .faceCorner ⟨1, 1, 0⟩ ⟨1, 1, 1⟩ ⟨0, 1, 1⟩⟩]

def handleCase0x70b : Handler :=
  [⟨none, ⟨0, 0, 0⟩, .faceCorner ⟨0, 1, 0⟩ ⟨0, 1, 1⟩ ⟨0, 0, 1⟩⟩,
    ⟨none, ⟨1, 1, 0⟩, .faceCorner ⟨0, 1, 0⟩ ⟨0, 1, 1⟩ ⟨1, 1, 1⟩⟩]

def handleCase0x70d : Handler :=
  [⟨none, ⟨0, 0, 0⟩, .faceCorner ⟨1, 0, 0⟩ ⟨1, 0, 1⟩ ⟨0, 0, 1⟩⟩,
    ⟨none, ⟨1, 1, 0⟩, .faceCorner ⟨1, 0, 0⟩ ⟨1, 0, 1⟩ ⟨1, 1, 1⟩⟩]

def handleCase0x70e : Handler :=
  [⟨none, ⟨1, 0, 0⟩, .faceCorner ⟨0, 0, 0⟩ ⟨0, 0, 1⟩ ⟨1, 0, 1⟩⟩,
    ⟨none, ⟨0, 1, 0⟩, .faceCorner ⟨0, 0, 0⟩ ⟨0, 0, 1⟩ ⟨0, 1, 1⟩⟩]

def handleCase0x713 : Handler :=
  [⟨none, ⟨1, 0, 0⟩, .faceCorner ⟨1, 1, 0⟩ ⟨1, 1, 1⟩ ⟨1, 0, 1⟩⟩,
    ⟨none, ⟨0, 0, 1⟩, .faceCorner ⟨1, 0, 1⟩ ⟨1, 1, 1⟩ ⟨0, 1, 1⟩⟩]

def handleCase0x715 : Handler :=
  [⟨none, ⟨0, 1, 0⟩, .faceCorner ⟨1, 1, 0⟩ ⟨1, 1, 1⟩ ⟨0, 1, 1⟩⟩,
    ⟨none, ⟨0, 0, 1⟩, .faceCorner ⟨1, 0, 1⟩ ⟨1, 1, 1⟩ ⟨0, 1, 1⟩⟩]

def handleCase0x723 : Handler :=
  [⟨none, ⟨0, 0, 0⟩, .faceCorner ⟨0, 1, 0⟩ ⟨0, 1, 1⟩ ⟨0, 0, 1⟩⟩,
    ⟨none, ⟨1, 0, 1⟩, .faceCorner ⟨0, 0, 1⟩ ⟨0, 1, 1⟩ ⟨1, 1, 1⟩⟩]

def handleCase0x72a : Handler :=
  [⟨none, ⟨1, 1, 0⟩, .faceCorner ⟨0, 1, 0⟩ ⟨0, 1, 1⟩ ⟨1, 1, 1⟩⟩,
    ⟨none, ⟨1, 0, 1⟩, .faceCorner ⟨0, 0, 1⟩ ⟨0, 1, 1⟩ ⟨1, 1, 1⟩⟩]

def handleCase0x731 : Handler :=
  [⟨none, ⟨0, 0, 0⟩, .faceCorner ⟨1, 0, 0⟩ ⟨1, 1, 0⟩ ⟨0, 1, 0⟩⟩,
    ⟨none, ⟨1, 0, 1⟩, .faceCorner ⟨1, 0, 0⟩ ⟨1, 1, 0⟩ ⟨1, 1, 1⟩⟩]

def handleCase0x732 : Handler :=
  [⟨none, ⟨1, 0, 0⟩, .faceCorner ⟨0, 0, 0⟩ ⟨0, 1, 0⟩ ⟨1, 1, 0⟩⟩,
    ⟨none, ⟨0, 0, 1⟩, .faceCorner ⟨0, 0, 0⟩ ⟨0, 1, 0⟩ ⟨0, 1, 1⟩⟩]

def handleCase0x745 : Handler :=
  [⟨none, ⟨0, 0, 0⟩, .faceCorner ⟨1, 0, 0⟩ ⟨1, 0, 1⟩ ⟨0, 0, 1⟩⟩,
    ⟨none, ⟨0, 1, 1⟩, .faceCorner ⟨0, 0, 1⟩ ⟨1, 0, 1⟩ ⟨1, 1, 1⟩⟩]

def handleCase0x74c : Handler :=
  [⟨none, ⟨1, 1, 0⟩, .faceCorner ⟨1, 0, 0⟩ ⟨1, 0, 1⟩ ⟨1, 1, 1⟩⟩,
    ⟨none, ⟨0, 1, 1⟩, .faceCorner ⟨0, 0, 1⟩ ⟨1, 0, 1⟩ ⟨1, 1, 1⟩⟩]

def handleCase0x751 : Handler :=
  [⟨none, ⟨0, 0, 0⟩, .faceCorner ⟨1, 0, 0⟩ ⟨1, 1, 0⟩ ⟨0, 1, 0⟩⟩,
    ⟨none, ⟨0, 1, 1⟩, .faceCorner ⟨0, 1, 0⟩ ⟨1, 1, 0⟩ ⟨1, 1, 1⟩⟩]

def handleCase0x754 : Handler :=
  [⟨none, ⟨0, 1, 0⟩, .faceCorner ⟨0, 0, 0⟩ ⟨1, 0, 0⟩ ⟨1, 1, 0⟩⟩,
    ⟨none, ⟨0, 0, 1⟩, .faceCorner ⟨0, 0, 0⟩ ⟨1, 0, 0⟩ ⟨1, 0, 1⟩⟩]

def handleCase0x770 : Handler :=
  [⟨none, ⟨1, 0, 1⟩, .faceCorner ⟨1, 0, 0⟩ ⟨1, 1, 0⟩ ⟨1, 1, 1⟩⟩,
    ⟨none, ⟨0, 1, 1⟩, .faceCorner ⟨0, 1, 0⟩ ⟨1, 1, 0⟩ ⟨1, 1, 1⟩⟩]

def handleCase0x78a : Handler :=
  [⟨none, ⟨1, 0, 0⟩, .faceCorner ⟨0, 0, 0⟩ ⟨0, 0, 1⟩ ⟨1, 0, 1⟩⟩,
    ⟨none, ⟨1, 1, 1⟩, .faceCorner ⟨1, 0, 1⟩ ⟨0, 0, 1⟩ ⟨0, 1, 1⟩⟩]

def handleCase0x78c : Handler :=
  [⟨none, ⟨0, 1, 0⟩, .faceCorner ⟨0, 0, 0⟩ ⟨0, 0, 1⟩ ⟨0, 1, 1⟩⟩,
    ⟨none, ⟨1, 1, 1⟩, .faceCorner ⟨1, 0, 1⟩ ⟨0, 0, 1⟩ ⟨0, 1, 1⟩⟩]

def handleCase0x7a2 : Handler :=
  [⟨none, ⟨1, 0, 0⟩, .faceCorner ⟨0, 0, 0⟩ ⟨0, 1, 0⟩ ⟨1, 1, 0⟩⟩,
    ⟨none, ⟨1, 1, 1⟩, .faceCorner ⟨0, 1, 1⟩ ⟨0, 1, 0⟩ ⟨1, 1, 0⟩⟩]

def handleCase0x7a8 : Handler :=
  [⟨none, ⟨1, 1, 0⟩, .faceCorner ⟨1, 0, 0⟩ ⟨0, 0, 0⟩ ⟨0, 1, 0⟩⟩,
    ⟨none, ⟨1, 0, 1⟩, .faceCorner ⟨0, 0, 1⟩ ⟨0, 0, 0⟩ ⟨1, 0, 0⟩⟩]

def handleCase0x7b0 : Handler :=
  [⟨none, ⟨0, 0, 1⟩, .faceCorner ⟨0, 0, 0⟩ ⟨0, 1, 0⟩ ⟨0, 1, 1⟩⟩,
    ⟨none, ⟨1, 1, 1⟩, .faceCorner ⟨0, 1, 1⟩ ⟨0, 1, 0⟩ ⟨1, 1, 0⟩⟩]

def handleCase0x7c4 : Handler :=
  [⟨none, ⟨0, 1, 0⟩, .faceCorner ⟨0, 0, 0⟩ ⟨1, 0, 0⟩ ⟨1, 1, 0⟩⟩,
    ⟨none, ⟨1, 1, 1⟩, .faceCorner ⟨1, 0, 1⟩ ⟨1, 0, 0⟩ ⟨1, 1, 0⟩⟩]

def handleCase0x7c8 : Handler :=
  [⟨none, ⟨1, 1, 0⟩, .faceCorner ⟨1, 0, 0⟩ ⟨0, 0, 0⟩ ⟨0, 1, 0⟩⟩,
    ⟨none, ⟨0, 1, 1⟩, .faceCorner ⟨0, 0, 1⟩ ⟨0, 0, 0⟩ ⟨0, 1, 0⟩⟩]

def handleCase0x7d0 : Handler :=
  [⟨none, ⟨0, 0, 1⟩, .faceCorner ⟨0, 0, 0⟩ ⟨1, 0, 0⟩ ⟨1, 0, 1⟩⟩,
    ⟨none, ⟨1, 1, 1⟩, .faceCorner ⟨1, 0, 1⟩ ⟨1, 0, 0⟩ ⟨1, 1, 0⟩⟩]

def handleCase0x7e0 : Handler :=
  [⟨none, ⟨1, 0, 1⟩, .faceCorner ⟨0, 0, 1⟩ ⟨0, 0, 0⟩ ⟨1, 0, 0⟩⟩,
    ⟨none, ⟨0, 1, 1⟩, .faceCorner ⟨0, 0, 1⟩ ⟨0, 0, 0⟩ ⟨0, 1, 0⟩⟩]

def handleCase0x703 : Handler :=
  [⟨none, ⟨0, 0, 0⟩, .faceCorner ⟨0, 1, 0⟩ ⟨0, 1, 1⟩ ⟨0, 0, 1⟩⟩,
    ⟨none, ⟨1, 0, 0⟩, .faceCorner ⟨1, 1, 0⟩ ⟨1, 1, 1⟩ ⟨1, 0, 1⟩⟩]

def handleCase0x705 : Handler :=
  [⟨none, ⟨0, 0, 0⟩, .faceCorner ⟨1, 0, 0⟩ ⟨1, 0, 1⟩ ⟨0, 0, 1⟩⟩,
    ⟨none, ⟨0, 1, 0⟩, .faceCorner ⟨1, 1, 0⟩ ⟨1, 1, 1⟩ ⟨0, 1, 1⟩⟩]

def handleCase0x70a : Handler :=
  [⟨none, ⟨1, 0, 0⟩, .faceCorner ⟨0, 0, 0⟩ ⟨0, 0, 1⟩ ⟨1, 0, 1⟩⟩,
    ⟨none, ⟨1, 1, 0⟩, .faceCorner ⟨0, 1, 0⟩ ⟨0, 1, 1⟩ ⟨1, 1, 1⟩⟩]

def handleCase0x70c : Handler :=
  [⟨none, ⟨0, 1, 0⟩, .faceCorner ⟨0, 0, 0⟩ ⟨0, 0, 1⟩ ⟨0, 1, 1⟩⟩,
    ⟨none, ⟨1, 1, 0⟩, .faceCorner ⟨1, 0, 0⟩ ⟨1, 0, 1⟩ ⟨1, 1, 1⟩⟩]

def handleCase0x711 : Handler :=
  [⟨none, ⟨0, 0, 0⟩, .faceCorner ⟨1, 0, 0⟩ ⟨1, 1, 0⟩ ⟨0, 1, 0⟩⟩,
    ⟨none, ⟨0, 0, 1⟩, .faceCorner ⟨1, 0, 1⟩ ⟨1, 1, 1⟩ ⟨0, 1, 1⟩⟩]

def handleCase0x722 : Handler :=
  [⟨none, ⟨1, 0, 0⟩, .faceCorner ⟨0, 0, 0⟩ ⟨0, 1, 0⟩ ⟨1, 1, 0⟩⟩,
    ⟨none, ⟨1, 0, 1⟩, .faceCorner ⟨0, 0, 1⟩ ⟨0, 1, 1⟩ ⟨1, 1, 1⟩⟩]

def handleCase0x730 : Handler :=
  [⟨none, ⟨0, 0, 1⟩, .faceCorner ⟨0, 0, 0⟩ ⟨0, 1, 0⟩ ⟨0, 1, 1⟩⟩,
    ⟨none, ⟨1, 0, 1⟩, .faceCorner ⟨1, 0, 0⟩ ⟨1, 1, 0⟩ ⟨1, 1, 1⟩⟩]

def handleCase0x744 : Handler :=
  [⟨none, ⟨0, 1, 0⟩, .faceCorner ⟨0, 0, 0⟩ ⟨1, 0, 0⟩ ⟨1, 1, 0⟩⟩,
    ⟨none, ⟨0, 1, 1⟩, .faceCorner ⟨0, 0, 1⟩ ⟨1, 0, 1⟩ ⟨1, 1, 1⟩⟩]

def handleCase0x750 : Handler :=
  [⟨none, ⟨0, 0, 1⟩, .faceCorner ⟨0, 0, 0⟩ ⟨1, 0, 0⟩ ⟨1, 0, 1⟩⟩,
    ⟨none, ⟨0, 1, 1⟩, .faceCorner ⟨0, 1, 0⟩ ⟨1, 1, 0⟩ ⟨1, 1, 1⟩⟩]

def handleCase0x788 : Handler :=
  [⟨none, ⟨1, 1, 0⟩, .faceCorner ⟨1, 0, 0⟩ ⟨0, 0, 0⟩ ⟨0, 1, 0⟩⟩,
    ⟨none, ⟨1, 1, 1⟩, .faceCorner ⟨1, 0, 1⟩ ⟨0, 0, 1⟩ ⟨0, 1, 1⟩⟩]

def handleCase0x7a0 : Handler :=
  [⟨none, ⟨1, 0, 1⟩, .faceCorner ⟨0, 0, 1⟩ ⟨0, 0, 0⟩ ⟨1, 0, 0⟩⟩,
    ⟨none, ⟨1, 1, 1⟩, .faceCorner ⟨0, 1, 1⟩ ⟨0, 1, 0⟩ ⟨1, 1, 0⟩⟩]

def handleCase0x7c0 : Handler :=
  [⟨none, ⟨0, 1, 1⟩, .faceCorner ⟨0, 0, 1⟩ ⟨0, 0, 0⟩ ⟨0, 1, 0⟩⟩,
    ⟨none, ⟨1, 1, 1⟩, .faceCorner ⟨1, 0, 1⟩ ⟨1, 0, 0⟩ ⟨1, 1, 0⟩⟩]

def handleCase0x701 : Handler := [⟨none, ⟨0, 0, 0⟩, .faceCorner ⟨0, 1, 0⟩ ⟨1, 1, 0⟩ ⟨1, 0, 0⟩⟩]

def handleCase0x702 : Handler := [⟨none, ⟨1, 0, 0⟩, .faceCorner ⟨0, 0, 0⟩ ⟨0, 0, 1⟩ ⟨1, 0, 1⟩⟩]

def handleCase0x704 : Handler := [⟨none, ⟨0, 1, 0⟩, .faceCorner ⟨0, 0, 0⟩ ⟨0, 0, 1⟩ ⟨0, 1, 1⟩⟩]

def handleCase0x708 : Handler := [⟨none, ⟨1, 1, 0⟩, .faceCorner ⟨0, 1, 0⟩ ⟨0, 0, 0⟩ ⟨1, 0, 0⟩⟩]

def handleCase0x710 : Handler := [⟨none, ⟨0, 0, 1⟩, .faceCorner ⟨0, 0, 0⟩ ⟨1, 0, 0⟩ ⟨1, 0, 1⟩⟩]

def handleCase0x720 : Handler := [⟨none, ⟨1, 0, 1⟩, .faceCorner ⟨1, 0, 0⟩ ⟨0, 0, 0⟩ ⟨0, 0, 1⟩⟩]

def handleCase0x740 : Handler := [⟨none, ⟨0, 1, 1⟩, .faceCorner ⟨0, 1, 0⟩ ⟨0, 0, 0⟩ ⟨0, 0, 1⟩⟩]

def handleCase0x780 : Handler := [⟨none, ⟨1, 1, 1⟩, .faceCorner ⟨0, 1, 1⟩ ⟨0, 0, 1⟩ ⟨1, 0, 1⟩⟩]

def handleCase0x70f : Handler :=
  handleCase0x71f ++ handleCase0x72f ++ handleCase0x74f ++ handleCase0x78f

def handleCase0x733 : Handler :=
  handleCase0x737 ++ handleCase0x73b ++ handleCase0x773 ++ handleCase0x7b3

def handleCase0x755 : Handler :=
  handleCase0x757 ++ handleCase0x75d ++ handleCase0x775 ++ handleCase0x7d5

def handleCase0x7aa : Handler :=
  handleCase0x7ab ++ handleCase0x7ae ++ handleCase0x7ba ++ handleCase0x7ea

def handleCase0x7cc : Handler :=
  handleCase0x7cd ++ handleCase0x7ce ++ handleCase0x7dc ++ handleCase0x7ec

def handleCase0x7f0 : Handler :=
  handleCase0x7f1 ++ handleCase0x7f2 ++ handleCase0x7f4 ++ handleCase0x7f8

def cases : List (ℕ × Handler) :=
  [(0x30c, handleCase0x30c), (0x303, handleCase0x303), (0x305, handleCase0x305), (0x30a, handleCase0x30a),
    (0x503, handleCase0x503), (0x511, handleCase0x511), (0x522, handleCase0x522), (0x530, handleCase0x530),
    (0x605, handleCase0x605), (0x611, handleCase0x611), (0x644, handleCase0x644), (0x650, handleCase0x650),
    (0x301, handleCase0x301), (0x302, handleCase0x302), (0x304, handleCase0x304), (0x308, handleCase0x308),
    (0x501, handleCase0x501), (0x502, handleCase0x502), (0x520, handleCase0x520), (0x510, handleCase0x510),
    (0x601, handleCase0x601), (0x604, handleCase0x604), (0x610, handleCase0x610), (0x640, handleCase0x640),
    (0x71f, handleCase0x71f), (0x72f, handleCase0x72f), (0x737, handleCase0x737), (0x73b, handleCase0x73b),
    (0x74f, handleCase0x74f), (0x757, handleCase0x757), (0x75d, handleCase0x75d), (0x773, handleCase0x773),
    (0x775, handleCase0x775), (0x78f, handleCase0x78f), (0x7ab, handleCase0x7ab), (0x7ae, handleCase0x7ae),
    (0x7b3, handleCase0x7b3), (0x7ba, handleCase0x7ba), (0x7cd, handleCase0x7cd), (0x7ce, handleCase0x7ce),
    (0x7d5, handleCase0x7d5), (0x7dc, handleCase0x7dc), (0x7ea, handleCase0x7ea), (0x7ec, handleCase0x7ec),
    (0x7f1, handleCase0x7f1), (0x7f2, handleCase0x7f2), (0x7f4, handleCase0x7f4), (0x7f8, handleCase0x7f8),
    (0x717, handleCase0x717), (0x72b, handleCase0x72b), (0x74d, handleCase0x74d), (0x771, handleCase0x771),
    (0x78e, handleCase0x78e), (0x7b2, handleCase0x7b2), (0x7d4, handleCase0x7d4), (0x7e8, handleCase0x7e8),
    (0x70f, handleCase0x70f), (0x733, handleCase0x733), (0x755, handleCase0x755), (0x7aa, handleCase0x7aa),
    (0x7cc, handleCase0x7cc), (0x7f0, handleCase0x7f0), (0x707, handleCase0x707), (0x70b, handleCase0x70b),
    (0x70d, handleCase0x70d), (0x70e, handleCase0x70e), (0x713, handleCase0x713), (0x715, handleCase0x715),
    (0x723, handleCase0x723), (0x72a, handleCase0x72a), (0x731, handleCase0x731), (0x732, handleCase0x732),
    (0x745, handleCase0x745), (0x74c, handleCase0x74c), (0x751, handleCase0x751), (0x754, handleCase0x754),
    (0x770, handleCase0x770), (0x78a, handleCase0x78a), (0x78c, handleCase0x78c), (0x7a2, handleCase0x7a2),
    (0x7a8, handleCase0x7a8), (0x7b0, handleCase0x7b0), (0x7c4, handleCase0x7c4), (0x7c8, handleCase0x7c8),
    (0x7d0, handleCase0x7d0), (0x7e0, handleCase0x7e0), (0x703, handleCase0x703), (0x705, handleCase0x705),
    (0x70a, handleCase0x70a), (0x70c, handleCase0x70c), (0x711, handleCase0x711), (0x722, handleCase0x722),
    (0x730, handleCase0x730), (0x744, handleCase0x744), (0x750, handleCase0x750), (0x788, handleCase0x788),
    (0x7a0, handleCase0x7a0), (0x7c0, handleCase0x7c0), (0x701, handleCase0x701), (0x702, handleCase0x702),
    (0x704, handleCase0x704), (0x708, handleCase0x708), (0x710, handleCase0x710), (0x720, handleCase0x720),
    (0x740, handleCase0x740), (0x780, handleCase0x780)]

def setFpBit (present : Bool) (i j k : ℕ) : ℕ := (!present).toNat <<< (i + 2 * j + 4 * k)

/-- Which corners of the cube at some position are absent, and which dimensions have more than one switch. -/
def fingerprint (c : Coord) : ℕ :=
  let x := (decide (1 < g.sz .x)).toNat
  let y := (decide (1 < g.sz .y)).toNat
  let z := (decide (1 < g.sz .z)).toNat
  let sw (i j k : ℤ) := s.present (corner g c ⟨i, j, k⟩)
  setFpBit (sw 0 0 0) 0 0 0 ||| setFpBit (sw 1 0 0) x 0 0 ||| setFpBit (sw 0 1 0) 0 y 0 ||| setFpBit
      (sw 1 1 0) x y 0 |||
    setFpBit (sw 0 0 1) 0 0 z ||| setFpBit (sw 1 0 1) x 0 z ||| setFpBit (sw 0 1 1) 0 y z ||| setFpBit
        (sw 1 1 1) x y z |||
    x <<< 8 ||| y <<< 9 ||| z <<< 10

/-- The edges of a cube, in the order of `check_tlinks`. -/
def edges : List (Dim × Off × Off) :=
  [(.x, ⟨0, 0, 0⟩, ⟨1, 0, 0⟩), (.x, ⟨0, 1, 0⟩, ⟨1, 1, 0⟩), (.x, ⟨0, 0, 1⟩, ⟨1, 0, 1⟩), (.x, ⟨0, 1, 1⟩, ⟨1, 1, 1⟩),
    (.y, ⟨0, 0, 0⟩, ⟨0, 1, 0⟩), (.y, ⟨1, 0, 0⟩, ⟨1, 1, 0⟩), (.y, ⟨0, 0, 1⟩, ⟨0, 1, 1⟩), (.y, ⟨1, 0, 1⟩, ⟨1, 1, 1⟩),
    (.z, ⟨0, 0, 0⟩, ⟨0, 0, 1⟩), (.z, ⟨1, 0, 0⟩, ⟨1, 0, 1⟩), (.z, ⟨0, 1, 0⟩, ⟨0, 1, 1⟩), (.z, ⟨1, 1, 0⟩, ⟨1, 1, 1⟩)]

def checkTlinks (c : Coord) : BuildSt :=
  edges.foldl (fun s e => (linkPresent g s e.1 (corner g c e.2.1) (corner g c e.2.2)).2) s

/-- The loop in `locate_sw`, and nothing if it has not ended after `fuel` rounds. -/
def locateLoop (c : Coord) : ℕ → BuildSt → Option BuildSt
  | 0, _ => none
  | fuel + 1, s =>
    let s := checkTlinks g s c
    match cases.lookup (fingerprint g s c) with
    | none => some s
    | some h =>
      let res := h.run g c s
      if res.1 then locateLoop c fuel res.2 else some (checkTlinks g res.2 c)

def wrapsMesh (c : Coord) (d : Dim) : Bool := g.mesh d && decide (canonicalize (c d + 1) (g.sz d) < c d)

/-- `locate_sw`, with rounds for the eight corners of a cube and one more. -/
def locateSw (c : Coord) : Option BuildSt :=
  if wrapsMesh g c .x || wrapsMesh g c .y || wrapsMesh g c .z then some s else locateLoop g c 9 s

end OpenSM.Torus2QoS
