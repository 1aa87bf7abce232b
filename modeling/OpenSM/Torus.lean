import Mathlib
import OpenSM.Lib.GapRing

/-! The torus that torus-2QoS has found, and the route it takes through it from switch to switch. -/

namespace OpenSM.Torus2QoS

inductive Dim
  | x
  | y
  | z
  deriving DecidableEq

namespace Dim

instance : Fintype Dim where
  elems := {x, y, z}
  complete d := by cases d <;> simp

def idx : Dim → ℕ
  | x => 0
  | y => 1
  | z => 2

def neg (d : Dim) : ℕ := 2 * d.idx

def pos (d : Dim) : ℕ := 2 * d.idx + 1

end Dim

abbrev Coord := Dim → ℕ

def coord (i j k : ℕ) : Coord
  | .x => i
  | .y => j
  | .z => k

structure LinkEnd where
  port : ℕ
  sw : Coord

structure Link where
  end0 : LinkEnd
  end1 : LinkEnd

/-- An endpoint in a port group: `&link->end[1]` or `&link->end[0]`. -/
structure Endpoint where
  link : Link
  isEnd1 : Bool

def Endpoint.port (e : Endpoint) : ℕ := if e.isEnd1 then e.link.end1.port else e.link.end0.port

def Endpoint.farSw (e : Endpoint) : Coord := if e.isEnd1 then e.link.end0.sw else e.link.end1.sw

structure TSwitch where
  ptgrp : ℕ → List Endpoint

/-- `struct torus`; the switches are where the array has room. -/
structure Torus where
  sz : Dim → ℕ
  /-- `X_MESH`, `Y_MESH` and `Z_MESH` of the flags -/
  mesh : Dim → Bool
  sw : Coord → Option TSwitch
  inRange : ∀ c, (sw c).isSome → ∀ d, c d < sz d

def turn (ssw dsw : Coord) (cdir : Dim) : Coord := Function.update ssw cdir (dsw cdir)

namespace Torus

variable (t : Torus)

def present (c : Coord) : Bool := (t.sw c).isSome

/-- `sw->ptgrp[g].port`, of `port_cnt` endpoints. -/
def ptgrp (c : Coord) (g : ℕ) : List Endpoint := (t.sw c).elim [] fun s => s.ptgrp g

/-- `canonicalize(v + 1, vmax)` and `canonicalize(v - 1, vmax)` of a coordinate. -/
def succ (c : Coord) (d : Dim) : Coord := Function.update c d (Lib.GapRing.succ (t.sz d) (c d))

def pred (c : Coord) (d : Dim) : Coord := Function.update c d (Lib.GapRing.pred (t.sz d) (c d))

end Torus

/-- `vl0_len` and `vl1_len`. -/
def getPathlen (src dst count : ℕ) : ℕ × ℕ :=
  let s := if src < dst then src else dst
  let l := if src < dst then dst else src
  (l - s, s + count - l)

def ringDirIdx (src dst count : ℕ) : ℤ :=
  if dst = src then 0
  else
    let len := getPathlen src dst count
    if src < dst then if len.1 ≤ len.2 then 1 else -1
    else if len.1 ≤ len.2 then -1 else 1

variable (t : Torus)

def ringNextSw (sw : Coord) (cdir : Dim) (rdir : ℤ) : Option Coord :=
  if rdir = 0 then none
  else if 0 < rdir then (t.ptgrp sw cdir.pos).head?.map fun e => e.link.end1.sw
  else (t.ptgrp sw cdir.neg).head?.map fun e => e.link.end0.sw

/-- The loops in `ring_dir_path`: whether `dsw` is met before there is no next switch, and nothing if the loop
has not ended after `fuel` rounds. -/
def ringWalk (cdir : Dim) (d : ℤ) (dsw : Coord) : ℕ → Coord → Option Bool
  | 0, _ => none
  | fuel + 1, sw =>
    match ringNextSw t sw cdir d with
    | none => some false
    | some sw => if sw = dsw then some true else ringWalk cdir d dsw fuel sw

def ringDirPath (cdir : Dim) (ssw dsw : Coord) : ℤ :=
  let d := ringDirIdx (ssw cdir) (dsw cdir) (t.sz cdir)
  if d = 0 then 0
  else if ringWalk t cdir d dsw (t.sz cdir) ssw = some true then d
  else if ringWalk t cdir (-d) dsw (t.sz cdir) ssw = some true then -d
  else 0

def dirGrp (cdir : Dim) (d : ℤ) : Option ℕ :=
  if 0 < d then some cdir.pos else if d < 0 then some cdir.neg else none

def nextHopPath (cdir : Dim) (ssw dsw : Coord) : Option ℕ :=
  if t.present (turn ssw dsw cdir) then dirGrp cdir (ringDirPath t cdir ssw (turn ssw dsw cdir)) else none

def nextHopIdx (cdir : Dim) (ssw dsw : Coord) : Option ℕ := do
  let g ← dirGrp cdir (ringDirIdx (ssw cdir) (dsw cdir) (t.sz cdir))
  if t.ptgrp ssw g = [] then none else some g

/-- `next_hop_x` and `next_hop_y`. -/
def nextHopXY (cdir : Dim) (ssw dsw : Coord) : Option ℕ :=
  if t.present (turn ssw dsw cdir) then nextHopPath t cdir ssw dsw else nextHopIdx t cdir ssw dsw

def nextHopX (ssw dsw : Coord) : Option ℕ := nextHopXY t .x ssw dsw

def nextHopY (ssw dsw : Coord) : Option ℕ := nextHopXY t .y ssw dsw

def nextHopZ (ssw dsw : Coord) : Option ℕ := nextHopPath t .z ssw dsw

/-- The port group that `lft_port` arrives at. -/
def lftGrp (sw dsw : Coord) : Option ℕ :=
  if dsw .x ≠ sw .x then
    (nextHopX t sw dsw).orElse fun _ =>
      (if dsw .y ≠ sw .y then nextHopY t sw dsw else none).orElse fun _ =>
        if dsw .z ≠ sw .z then nextHopZ t sw dsw else none
  else if dsw .y ≠ sw .y then
    (nextHopY t sw dsw).orElse fun _ => if dsw .z ≠ sw .z then nextHopZ t sw dsw else none
  else nextHopZ t sw dsw

/-- `sw_dlid_cnt` and `ca_dlid_cnt` of the port groups. -/
structure DlidCnt where
  sw : Coord → ℕ → ℕ
  ca : Coord → ℕ → ℕ

def DlidCnt.bump (n : Coord → ℕ → ℕ) (c : Coord) (g : ℕ) : Coord → ℕ → ℕ :=
  Function.update n c (Function.update (n c) g (n c g + 1))

/-- The endpoint whose port number `lft_port` returns, none for its -1. -/
def lftPort (cnt : DlidCnt) (sw dsw : Coord) (updatePortCnt ca : Bool) : Option Endpoint × DlidCnt :=
  match lftGrp t sw dsw with
  | none => (none, cnt)
  | some g =>
    let pg := t.ptgrp sw g
    if pg = [] then (none, cnt)
    else if !updatePortCnt then (pg[0]?, cnt)
    else if ca then (pg[cnt.ca sw g % pg.length]?, { cnt with ca := DlidCnt.bump cnt.ca sw g })
    else (pg[cnt.sw sw g % pg.length]?, { cnt with sw := DlidCnt.bump cnt.sw sw g })

def Torus.coords : List Coord :=
  (List.range (t.sz .z)).flatMap fun k => (List.range (t.sz .y)).flatMap fun j =>
    (List.range (t.sz .x)).map fun i => coord i j k

/-- `switch_cnt` counts the switches that have been placed. -/
def Torus.switchCnt : ℕ := t.coords.countP t.present

def Torus.swPoolSz : ℕ := t.sz .x * t.sz .y * t.sz .z

/-- `MSG_DEADLOCK` and `missing_z`. -/
def rptTorusMissing (st : Bool × ℤ) (c : Coord) : Bool × ℤ :=
  if t.present c then st
  else
    let column : ℤ := c .x + c .y * t.sz .x
    let deadlock := st.1 ||
      decide (t.switchCnt + 1 < t.swPoolSz) && t.present (t.pred c .z) && t.present (t.succ c .z)
    if st.2 < 0 then (deadlock, column) else (deadlock || decide (st.2 ≠ column), st.2)

def Torus.ring (c : Coord) (d : Dim) : List Coord := (List.range (t.sz d)).map (Function.update c d)

def gapCnt (c : Coord) (d : Dim) (g : ℕ) : ℕ := (t.ring c d).countP fun c => t.present c && (t.ptgrp c g).isEmpty

/-- `b2g_cnt` and `g2b_cnt` of a ring pass. -/
def ringOk (c : Coord) (d : Dim) : Bool :=
  gapCnt t c d d.neg = gapCnt t c d d.pos && decide (gapCnt t c d d.neg ≤ 1)

def ringsOk (d : Dim) : Bool := t.coords.all fun c => decide (c d ≠ 0) || ringOk t c d

def routableTorus : Bool :=
  ringsOk t .x && ringsOk t .y && ringsOk t .z && !(t.coords.foldl (rptTorusMissing t) (false, -1)).1

end OpenSM.Torus2QoS
