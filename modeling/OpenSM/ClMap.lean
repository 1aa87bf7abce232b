import OpenSM.Lib.PtrTree

/-! The quick map of the component library: a red-black tree of items that are also threaded into
a list in key order. The map owns two cells, `root` above the tree and `nil` below its leaves; the
latter is also the end of the list. A loop runs on fuel and gives `none` when that runs out. -/

namespace OpenSM.ClMap

open Lib.RedBlack Lib.PtrTree

variable {α κ : Type} [DecidableEq α]

section Balance

def isLeftChild (h : Store α) (p : Ptr α) : Bool := h.kid .left (h.up p) = p

/-- Which field of the parent `__cl_map_get_parent_ptr_to_item` points to. -/
def parentSide (h : Store α) (p : Ptr α) : Side :=
  if isLeftChild h p then .left else .right

def rot (d : Side) (h : Store α) (a : Ptr α) : Store α :=
  let e := parentSide h a
  let r := h.up a
  -- `c` is what the parent's field holds from here on
  let c := h.kid d.opp a
  let h := h.setKid e r c
  let h := h.setUp c (h.up a)
  let b := h.kid d c
  let h := h.setKid d.opp a b
  let h := if b ≠ .nil then h.setUp b a else h
  let h := h.setKid d c a
  h.setUp a c

def rotLeft (h : Store α) (p : Ptr α) : Store α := rot .left h p

def rotRight (h : Store α) (p : Ptr α) : Store α := rot .right h p

def insBalRecolor (d : Side) (h : Store α) (p : Ptr α) : Ptr α × Store α :=
  let g := h.kid d.opp (h.up (h.up p))
  let h := h.setColor g .black
  let h := h.setColor (h.up p) .black
  let h := h.setColor (h.up (h.up p)) .red
  (h.up (h.up p), h)

def insBalTurn (d : Side) (h : Store α) (p : Ptr α) : Ptr α × Store α :=
  if parentSide h p = d.opp then (h.up p, rot d h (h.up p)) else (p, h)

def insBalRaise (d : Side) (h : Store α) (p : Ptr α) : Ptr α × Store α :=
  let h := h.setColor (h.up p) .black
  let h := h.setColor (h.up (h.up p)) .red
  (p, rot d.opp h (h.up (h.up p)))

/-- One round of `__cl_map_ins_bal` for an item whose parent is the child of its grandparent on
side `d`. -/
def insBalStep (d : Side) (h : Store α) (p : Ptr α) : Ptr α × Store α :=
  if h.color (h.kid d.opp (h.up (h.up p))) = .red then
    insBalRecolor d h p
  else
    let r := insBalTurn d h p
    insBalRaise d r.2 r.1

def insBal : ℕ → Store α → Ptr α → Option (Store α)
  | 0, _, _ => none
  | fuel + 1, h, p =>
    if h.color (h.up p) = .red then
      let r := insBalStep (parentSide h (h.up p)) h p
      insBal fuel r.2 r.1
    else
      some h

def delBalUncle (d : Side) (h : Store α) (p : Ptr α) : Ptr α × Store α :=
  let u := h.kid d.opp (h.up p)
  if h.color u = .red then
    let h := h.setColor u .black
    let h := h.setColor (h.up p) .red
    let h := rot d h (h.up p)
    (h.kid d.opp (h.up p), h)
  else
    (u, h)

def delBalTurn (d : Side) (h : Store α) (p u : Ptr α) : Ptr α × Store α :=
  let h := h.setColor (h.kid d u) .black
  let h := h.setColor u .red
  let h := rot d.opp h u
  (h.kid d.opp (h.up p), h)

def delBalFinish (d : Side) (h : Store α) (p u : Ptr α) : Store α :=
  let h := h.setColor u (h.color (h.up p))
  let h := h.setColor (h.up p) .black
  let h := h.setColor (h.kid d.opp u) .black
  rot d h (h.up p)

/-- One round of `__cl_map_del_bal` for an item on side `d` of its parent. It gives the item to
continue with, and nothing where the loop is left. -/
def delBalStep (d : Side) (h : Store α) (p : Ptr α) : Option (Ptr α) × Store α :=
  let r := delBalUncle d h p
  let u := r.1
  let h := r.2
  if h.color (h.kid d.opp u) ≠ .red then
    if h.color (h.kid d u) ≠ .red then
      (some (h.up p), h.setColor u .red)
    else
      let r := delBalTurn d h p u
      (none, delBalFinish d r.2 p r.1)
  else
    (none, delBalFinish d h p u)

def delBal : ℕ → Store α → Ptr α → Option (Store α)
  | 0, _, _ => none
  | fuel + 1, h, p =>
    if h.color p ≠ .red ∧ h.up p ≠ .root then
      match delBalStep (parentSide h p) h p with
      | (some p', h) => delBal fuel h p'
      | (none, h) => some (h.setColor p .black)
    else
      some (h.setColor p .black)

end Balance

/-- The cells with their map. What an item holds besides the pointers is its key. -/
structure QMap (α κ : Type) extends Store α where
  key : Ptr α → κ
  next : Ptr α → Ptr α
  prev : Ptr α → Ptr α
  count : ℕ

section List

/-- `__cl_primitive_insert`: `p` goes in front of `x`. -/
def primitiveInsert (m : QMap α κ) (x p : Ptr α) : QMap α κ :=
  let m := { m with next := Function.update m.next p x }
  let m := { m with prev := Function.update m.prev p (m.prev x) }
  let m := { m with prev := Function.update m.prev x p }
  { m with next := Function.update m.next (m.prev p) p }

def primitiveRemove (m : QMap α κ) (p : Ptr α) : QMap α κ :=
  let m := { m with prev := Function.update m.prev (m.next p) (m.prev p) }
  { m with next := Function.update m.next (m.prev p) (m.next p) }

def head (m : QMap α κ) : Ptr α := m.next .nil

end List

/-- `cl_qmap_init` on memory that may hold anything. -/
def init [Zero κ] (m : QMap α κ) : QMap α κ where
  kid := fun d p => match p with
    | .root => .nil
    | .nil => .nil
    | .item a => m.kid d (.item a)
  up := fun p => match p with
    | .root => .root
    | .nil => .nil
    | .item a => m.up (.item a)
  color := fun p => match p with
    | .root => .black
    | .nil => .black
    | .item a => m.color (.item a)
  key := fun p => match p with
    | .root => 0
    | .nil => 0
    | .item a => m.key (.item a)
  next := Function.update m.next .nil .nil
  prev := Function.update m.prev .nil .nil
  count := 0

variable [LinearOrder κ]

def getLoop (m : QMap α κ) (k : κ) : ℕ → Ptr α → Option (Ptr α)
  | 0, _ => none
  | fuel + 1, p =>
    if p = .nil then some p
    else if k = m.key p then some p
    else if k < m.key p then getLoop m k fuel (m.kid .left p)
    else getLoop m k fuel (m.kid .right p)

def get (m : QMap α κ) (k : κ) : Option (Ptr α) := getLoop m k (m.count + 1) (m.kid .left .root)

def getNextLoop (m : QMap α κ) (k : κ) : ℕ → Ptr α → Ptr α → Option (Ptr α)
  | 0, _, _ => none
  | fuel + 1, p, found =>
    if p = .nil then some found
    else if k < m.key p then getNextLoop m k fuel (m.kid .left p) p
    else getNextLoop m k fuel (m.kid .right p) found

def getNext (m : QMap α κ) (k : κ) : Option (Ptr α) :=
  getNextLoop m k (m.count + 1) (m.kid .left .root) .nil

/-- The search of `cl_qmap_insert`: the place to insert at, and whether the key is there. -/
def insertAt (m : QMap α κ) (k : κ) : ℕ → Ptr α → Ptr α → Option (Ptr α × Bool)
  | 0, _, _ => none
  | fuel + 1, at', comp =>
    if comp = .nil then some (at', false)
    else if k = m.key comp then some (comp, true)
    else if k < m.key comp then insertAt m k fuel comp (m.kid .left comp)
    else insertAt m k fuel comp (m.kid .right comp)

/-- The fields that `cl_qmap_insert` gives a new item before it looks for its place. -/
def prepare (m : QMap α κ) (k : κ) (p : Ptr α) : QMap α κ :=
  { m with
    toStore := ((m.toStore.setKid .left p .nil).setKid .right p .nil).setColor p .red
    key := Function.update m.key p k }

def link (m : QMap α κ) (k : κ) (at' p : Ptr α) : QMap α κ :=
  let m :=
    if at' = .root then
      primitiveInsert { m with toStore := m.toStore.setKid .left at' p } .nil p
    else if k < m.key at' then
      primitiveInsert { m with toStore := m.toStore.setKid .left at' p } at' p
    else
      primitiveInsert { m with toStore := m.toStore.setKid .right at' p } (m.next at') p
  { m with
    toStore := m.toStore.setUp p at'
    count := m.count + 1 }

def rootBlack (h : Store α) : Store α := h.setColor (h.kid .left .root) .black

def insert (m : QMap α κ) (k : κ) (p : Ptr α) : Option (Ptr α × QMap α κ) := do
  let m := prepare m k p
  let (at', found) ← insertAt m k (m.count + 1) .root (m.kid .left .root)
  if found then
    return (at', m)
  let m := link m k at' p
  let h ← insBal (m.count + 1) m.toStore p
  return (p, { m with toStore := rootBlack h })

/-- `p_del_item`: the item whose cell leaves the tree. -/
def delItem (m : QMap α κ) (p : Ptr α) : Ptr α :=
  if m.kid .right p = .nil ∨ m.kid .left p = .nil then p else m.next p

def unlink (h : Store α) (y : Ptr α) : Ptr α × Store α :=
  let x := if h.kid .left y ≠ .nil then h.kid .left y else h.kid .right y
  let h := h.setUp x (h.up y)
  (x, h.setKid (parentSide h y) (h.up y) x)

def splice (h : Store α) (p y : Ptr α) : Store α :=
  let h := h.setUp y (h.up p)
  let h := h.setKid .left y (h.kid .left p)
  let h := h.setKid .right y (h.kid .right p)
  let h := h.setKid (parentSide h p) (h.up p) y
  let h := h.setUp (h.kid .right p) y
  let h := h.setUp (h.kid .left p) y
  h.setColor y (h.color p)

def delRebalance (fuel : ℕ) (h : Store α) (y x : Ptr α) : Option (Store α) :=
  if h.color y ≠ .red then delBal fuel h x else some h

/-- What `cl_qmap_remove_item` does to the tree when `y` is the cell to leave it. -/
def removeTree (fuel : ℕ) (h : Store α) (p y : Ptr α) : Option (Store α) :=
  let r := unlink h y
  (delRebalance fuel r.2 y r.1).map fun h => if y ≠ p then splice h p y else h

def removeItem (m : QMap α κ) (p : Ptr α) : Option (QMap α κ) :=
  if p = .nil then
    some m
  else
    let y := delItem m p
    let m := primitiveRemove m p
    let m := { m with count := m.count - 1 }
    (removeTree (m.count + 1) m.toStore p y).map fun h => { m with toStore := h }

def remove (m : QMap α κ) (k : κ) : Option (Ptr α × QMap α κ) := do
  let p ← get m k
  let m ← removeItem m p
  return (p, m)

end OpenSM.ClMap
