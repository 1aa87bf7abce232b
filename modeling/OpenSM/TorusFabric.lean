import OpenSM.TorusStree

/-! The fabric that torus-2QoS has captured, and the torus under construction to which its switches and links are
moved. -/

namespace OpenSM.Torus2QoS

inductive EndptType
  | srcsink
  | passthru
  deriving DecidableEq

/-- `struct endpoint` of a fabric link; `sw` is the switch's index in the fabric, none for a CA. -/
structure FEnd where
  type : EndptType
  port : ℕ
  nId : ℕ
  sw : Option ℕ
  osmPort : Option ℕ

/-- What `fsw->port[p]` points at: the endpoint of a management port, with its `osm_port`, or an end of a link. -/
inductive FEp
  | mgmt (osmPort : ℕ)
  | lend (l : ℕ) (b : Bool)
  deriving DecidableEq

/-- `struct fabric`: switches and links by their place in the arrays. A port is at one end of one link. -/
structure Fabric where
  swCnt : ℕ
  linkCnt : ℕ
  nId : ℕ → ℕ
  portCnt : ℕ → ℕ
  osmSwitch : ℕ → Option ℕ
  port : ℕ → ℕ → Option FEp
  ends : ℕ → Bool → FEnd
  nId_inj : ∀ f < swCnt, ∀ f' < swCnt, nId f = nId f' → f = f'
  port_lt : ∀ f p, (port f p).isSome → f < swCnt ∧ p < portCnt f
  port_lend : ∀ f p l b, port f p = some (.lend l b) → l < linkCnt ∧ (ends l b).sw = some f ∧ (ends l b).port = p
  lend_port : ∀ l b f, l < linkCnt → (ends l b).sw = some f →
    port f (ends l b).port = some (.lend l b) ∧ (ends l b).nId = nId f
  passthru : ∀ l b, (ends l b).type = .passthru ↔ (ends l b).sw.isSome
  switch_osmPort : ∀ l b, (ends l b).sw.isSome → (ends l b).osmPort = none
  /-- An `osm_port` is at one management port, or at the end of one link. -/
  mgmt_inj : ∀ f p f' p' o, port f p = some (.mgmt o) → port f' p' = some (.mgmt o) → f = f' ∧ p = p'
  mgmt_ca : ∀ f p o l b, port f p = some (.mgmt o) → (ends l b).osmPort ≠ some o
  ca_inj : ∀ l b l' b' o, (ends l b).osmPort = some o → (ends l' b').osmPort = some o → l = l' ∧ b = b'

def findFSw (f : Fabric) (nId : ℕ) : Option ℕ := (List.range f.swCnt).find? fun s => decide (f.nId s = nId)

/-- `struct coord_dirs`: the GUIDs of the seed links that are configured. -/
structure CoordDirs where
  link : Dim → Bool → Option (ℕ × ℕ)
  dateline : Dim → ℤ

/-- The fabric, what has been read from the configuration, and which calls for memory succeed. -/
structure Setup where
  fabric : Fabric
  sz : Dim → ℕ
  mesh : Dim → Bool
  portgrpSz : ℕ
  seed : CoordDirs
  linkPool : Bool
  calloc : ℕ → Bool

/-- An endpoint in the torus: an end of a link, or the one of a management port that has been moved here. -/
inductive TEp
  | mgmt (fsw port : ℕ)
  | lend (k : ℕ) (b : Bool)
  deriving DecidableEq

structure TEnd where
  type : EndptType
  port : ℕ
  nId : ℕ
  sw : Option Coord
  pgrp : Option (Coord × ℕ)
  osmPort : Option ℕ

/-- `struct torus` with its switches by their coordinates, and what has been changed elsewhere. -/
structure BuildSt where
  /-- the fabric switch of the switch at some coordinates, `tmp` -/
  sw : Coord → Option ℕ
  ptgrp : Coord → ℕ → List TEp
  port : Coord → ℕ → Option TEp
  osmSwitch : Coord → Option ℕ
  switchCnt : ℕ
  /-- the link pool up to `link_cnt` -/
  links : List (TEnd × TEnd)
  /-- the fabric links that are disconnected: their ends have no `sw` any more, and `port` of the switches there is
  cleared -/
  gone : ℕ → Bool
  /-- the management ports that have been moved, and are cleared in `port` of their fabric switch -/
  moved : ℕ → ℕ → Bool
  /-- `osm_switch` of the fabric switches -/
  fosm : ℕ → Option ℕ
  callocs : ℕ
  portPriv : ℕ → Option TEp
  swPriv : ℕ → Option Coord

variable (g : Setup) (s : BuildSt)

def BuildSt.init : BuildSt :=
  { sw := fun _ => none, ptgrp := fun _ _ => [], port := fun _ _ => none, osmSwitch := fun _ => none,
    switchCnt := 0, links := [], gone := fun _ => false, moved := fun _ _ => false,
    fosm := g.fabric.osmSwitch, callocs := 0,
    portPriv := fun _ => none, swPriv := fun _ => none }

def BuildSt.present (c : Coord) : Bool := (s.sw c).isSome

/-- `fsw->port[p]` as it is now. -/
def fswPort (f p : ℕ) : Option FEp :=
  match g.fabric.port f p with
  | some (.lend l b) => if s.gone l then none else some (.lend l b)
  | some (.mgmt o) => if s.moved f p then none else some (.mgmt o)
  | none => none

/-- `link->end[b].sw` of a fabric link. -/
def endSw (l : ℕ) (b : Bool) : Option ℕ := if s.gone l then none else (g.fabric.ends l b).sw

def swPoolSz : ℕ := g.sz .x * g.sz .y * g.sz .z

def allocTswitch (fsw : Option ℕ) : Option ℕ × BuildSt :=
  match fsw with
  | none => (none, s)
  | some f =>
    if swPoolSz g ≤ s.switchCnt then (none, s)
    else if !g.calloc s.callocs then (none, { s with callocs := s.callocs + 1 })
    else (some f, { s with callocs := s.callocs + 1, switchCnt := s.switchCnt + 1 })

def installTswitch (c : Coord) (fsw : Option ℕ) : Bool × BuildSt :=
  match s.sw c with
  | some _ => (true, s)
  | none =>
    match allocTswitch g s fsw with
    | (none, s) => (false, s)
    | (some f, s) => (true, { s with sw := Function.update s.sw c (some f) })

def BuildSt.seat (c : Coord) (i : ℕ) (p : ℕ) (e : TEp) : BuildSt :=
  { s with
    ptgrp := Function.update s.ptgrp c (Function.update (s.ptgrp c) i (s.ptgrp c i ++ [e]))
    port := Function.update s.port c (Function.update (s.port c) p (some e)) }

def BuildSt.setPriv (o : Option ℕ) (e : TEp) : BuildSt :=
  match o with
  | none => s
  | some o => { s with portPriv := Function.update s.portPriv o (some e) }

def tEnd (e : FEnd) (pg : Option (Coord × ℕ)) (c : Option Coord) : TEnd :=
    ⟨e.type, e.port, e.nId, c, pg, e.osmPort⟩

/-- `connect_tlink`, of the ends `b` and `!b` of a fabric link. -/
def connectTlink (pg0 pg1 : Coord × ℕ) (l : ℕ) (b : Bool) : Bool × BuildSt :=
  if (s.ptgrp pg0.1 pg0.2).length = g.portgrpSz then (false, s)
  else if (s.ptgrp pg1.1 pg1.2).length = g.portgrpSz then (false, s)
  else if g.fabric.linkCnt ≤ s.links.length then (false, s)
  else
    let e0 := g.fabric.ends l b
    let e1 := g.fabric.ends l !b
    let k := s.links.length
    let s := { s with
      links := s.links ++ [(tEnd e0 (some pg0) (some pg0.1), tEnd e1 (some pg1) (some pg1.1))]
      gone := Function.update s.gone l true }
    let s := (s.seat pg0.1 pg0.2 e0.port (.lend k false)).setPriv e0.osmPort (.lend k false)
    (true, (s.seat pg1.1 pg1.2 e1.port (.lend k true)).setPriv e1.osmPort (.lend k true))

def linkPort (cdir : Dim) (c0 c1 : Coord) (f0 f1 p : ℕ) : Bool × BuildSt :=
  match fswPort g s f0 p with
  | some (.lend l _) =>
    let isLink (b : Bool) : Bool :=
      decide ((g.fabric.ends l b).nId = g.fabric.nId f0 ∧ (g.fabric.ends l !b).nId = g.fabric.nId f1)
    if !isLink false && !isLink true then (true, s)
    else if !(decide ((g.fabric.ends l false).type = .passthru) &&
        decide ((g.fabric.ends l true).type = .passthru)) then
      (false, s)
    else if !((endSw g s l false).isSome && (endSw g s l true).isSome) then (true, s)
    else connectTlink g s (c0, cdir.pos) (c1, cdir.neg) l !(isLink false)
  | _ => (true, s)

def linkPorts (cdir : Dim) (c0 c1 : Coord) (f0 f1 : ℕ) : List ℕ → BuildSt → Bool × BuildSt
  | [], s => (true, s)
  | p :: ps, s =>
    let res := linkPort g s cdir c0 c1 f0 f1 p
    if res.1 then linkPorts cdir c0 c1 f0 f1 ps res.2 else res

def linkTswitches (cdir : Dim) (c0 c1 : Coord) : Bool × BuildSt :=
  if c0 = c1 ∧ g.sz cdir = 1 then (true, s)
  else if 1 < g.sz cdir ∧ canonicalize (c0 cdir + 1) (g.sz cdir) ≠ c1 cdir then (false, s)
  else
    match s.sw c0, s.sw c1 with
    | some f0, some f1 => linkPorts g cdir c0 c1 f0 f1 (List.range (g.fabric.portCnt f0)) s
    | _, _ => (false, s)

/-- One port of the loop in `link_srcsink`; false stops it. -/
def srcsinkPort (c : Coord) (f p : ℕ) : Bool × BuildSt :=
  match fswPort g s f p with
  | none => (true, s)
  | some (.mgmt o) =>
    if (s.ptgrp c 6).length = g.portgrpSz then (false, s)
    else
      let s := (s.seat c 6 p (.mgmt f p)).setPriv (some o) (.mgmt f p)
      (true, { s with moved := Function.update s.moved f (Function.update (s.moved f) p true) })
  | some (.lend l _) =>
    let isEnd0 (b : Bool) : Bool := decide (endSw g s l b = some f)
    if !isEnd0 false && !isEnd0 true then (true, s)
    else
      let b := !(isEnd0 false)
      let e0 := g.fabric.ends l b
      let e1 := g.fabric.ends l !b
      if e1.type ≠ .srcsink then (true, s)
      else if (s.ptgrp c 6).length = g.portgrpSz then (false, s)
      else if e1.osmPort = none then (false, s)
      else if g.fabric.linkCnt ≤ s.links.length then (true, s)
      else
        let k := s.links.length
        let s := { s with
          links := s.links ++ [(tEnd { e0 with osmPort := none } (some (c, 6)) (some c), tEnd e1 none none)]
          gone := Function.update s.gone l true }
        (true, (s.seat c 6 e0.port (.lend k false)).setPriv e1.osmPort (.lend k true))

def srcsinkPorts (c : Coord) (f : ℕ) : List ℕ → BuildSt → Bool × BuildSt
  | [], s => (true, s)
  | p :: ps, s =>
    let res := srcsinkPort g s c f p
    if res.1 then srcsinkPorts c f ps res.2 else res

def linkSrcsink (c : Coord) : Bool × BuildSt :=
  match s.sw c with
  | none => (true, s)
  | some f =>
    match s.fosm f with
    | none => (false, s)
    | some o =>
      let s := { s with
        osmSwitch := Function.update s.osmSwitch c (some o)
        swPriv := Function.update s.swPriv o (some c)
        fosm := Function.update s.fosm f none }
      srcsinkPorts g c f (List.range (g.fabric.portCnt f)) s

end OpenSM.Torus2QoS
