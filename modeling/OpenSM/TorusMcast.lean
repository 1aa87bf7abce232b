import OpenSM.TorusSpan
import OpenSM.Lib.Runs

/-! The multicast trees of torus-2QoS: marks on the endpoints of the members, and a walk of the master spanning
tree that collects them. -/

namespace OpenSM.Torus2QoS

def Endpoint.farPort (e : Endpoint) : ℕ := if e.isEnd1 then e.link.end0.port else e.link.end1.port

/-- A torus with its master spanning tree, and the port numbers in the last port group of its switches. -/
structure McastNet where
  t : Torus
  st : Stree
  r : Coord
  hostPorts : Coord → List ℕ
  linked : Linked t
  tree : SpanningTree t st r
  present : ∀ c p, p ∈ hostPorts c → t.present c
  nodup : ∀ c, (hostPorts c ++ (List.range 6).flatMap fun g => (t.ptgrp c g).map Endpoint.port).Nodup

structure McastView (n : McastNet) where
  /-- `osm_port->priv`, or what `osm_port_relink_endpoint` finds: the switch port at the other end for a CA -/
  endpoint : ℕ → Option (Coord × ℕ)
  /-- `sw_guid_tbl` has the root's `osm_switch`. -/
  rootFound : Bool
  /-- `osm_sw->priv == sw` -/
  priv : Coord → Bool
  supportsMcast : Coord → Bool
  /-- `osm_mtree_node_new` does not fail. -/
  memory : Coord → Bool
  /-- The cable at a port leads to the `osm_switch` that the torus has at its other end. -/
  current : Coord → ℕ → Bool
  isHost : ∀ m c p, endpoint m = some (c, p) → p ∈ n.hostPorts c

inductive Mtree
  | leaf
  | node (sw : Coord) (childArray : List (ℕ × Mtree))

structure McastSt where
  /-- `port->tmp` of the endpoints in the last port group is set. -/
  tmp : Coord → ℕ → Bool
  mft : ℕ → Coord → ℕ → Bool

namespace McastSt

variable (s : McastSt)

def set (mlid : ℕ) (c : Coord) (p : ℕ) : McastSt :=
  { s with mft := fun l x q => (decide (l = mlid ∧ x = c ∧ q = p)) || s.mft l x q }

def mark (b : Bool) (c : Coord) (p : ℕ) : McastSt :=
  { s with tmp := fun x q => if x = c ∧ q = p then b else s.tmp x q }

def clear (mlid : ℕ) : McastSt := { s with mft := fun l x q => decide (l ≠ mlid) && s.mft l x q }

end McastSt

variable (n : McastNet) (v : McastView n) (mlid : ℕ)

def McastNet.pick (c : Coord) (g : ℕ) : Option Endpoint := (n.t.ptgrp c g)[mlid % (n.t.ptgrp c g).length]?

def mcastDownstream (branch : Coord → McastSt → Option Mtree × McastSt) (c : Coord)
    (w : List (ℕ × Mtree) × McastSt)
    (g : ℕ) : List (ℕ × Mtree) × McastSt :=
  match n.st.toTip c g, n.pick mlid c g with
  | some (dsSw, _), some e =>
    if !v.current c e.port then w
    else
      let child := branch dsSw w.2
      match child.1 with
      | none => (w.1, child.2)
      | some mtn => (w.1 ++ [(e.port, mtn)], (child.2.set mlid c e.port).set mlid dsSw e.farPort)
  | _, _ => w

def mcastHostPort (c : Coord) (w : List (ℕ × Mtree) × McastSt) (p : ℕ) : List (ℕ × Mtree) × McastSt :=
  if w.2.tmp c p then (w.1 ++ [(p, .leaf)], (w.2.mark false c p).set mlid c p) else w

/-- `mcast_stree_branch`. No branch of the master tree has as many switches as the torus has coordinates. -/
def mcastStreeBranch : ℕ → Coord → McastSt → Option Mtree × McastSt
  | 0, _, s => (none, s)
  | fuel + 1, c, s =>
    if !v.priv c then (none, s)
    else if !v.supportsMcast c then (none, s)
    else if !v.memory c then (none, s)
    else
      let w := (List.range 6).foldl (mcastDownstream n v mlid (mcastStreeBranch fuel) c) ([], s)
      let w := (n.hostPorts c).foldl (mcastHostPort mlid c) w
      (if w.1.isEmpty then none else some (.node c w.1), w.2)

/-- The groups with an MLID, each a list of its ports, in the order of `next_mgrp_box_port`. -/
structure MgrpBox where
  mlid : ℕ
  mgrps : List (List ℕ)

def MgrpBox.ports (mgb : MgrpBox) : List ℕ := mgb.mgrps.flatten

def markMember (s : McastSt) (m : ℕ) : McastSt :=
  match v.endpoint m with
  | none => s
  | some (c, p) => s.mark true c p

inductive McastStatus
  | success
  | error
  deriving DecidableEq

def torusMcastStree (mgb : MgrpBox) (s : McastSt) : McastStatus × Option Mtree × McastSt :=
  let s := mgb.ports.foldl (markMember n v) s
  if !v.rootFound then (.error, none, s)
  else (.success, mcastStreeBranch n v mgb.mlid n.t.coords.length n.r s)

/-- A call of `mcast_mgr_process_mlid`. -/
structure McastCall where
  view : McastView n
  mgb : MgrpBox

/-- The tables and marks, with the call that each MLID has been through last, and its status. -/
structure McastRun where
  s : McastSt
  last : ℕ → Option (McastCall n × McastStatus)

def McastRun.init (mft : ℕ → Coord → ℕ → Bool) : McastRun n := ⟨⟨fun _ _ => false, mft⟩, fun _ => none⟩

def processMlid (w : McastRun n) (a : McastCall n) : Option (McastRun n) :=
  let res := torusMcastStree n a.view a.mgb (w.s.clear a.mgb.mlid)
  some ⟨res.2.2, Function.update w.last a.mgb.mlid (some (a, res.1))⟩

end OpenSM.Torus2QoS
