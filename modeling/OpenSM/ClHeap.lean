import OpenSM.Lib.DaryHeap

/-! `cl_heap`: a heap of any branching factor in an array, whose user is told where an element is whenever it
moves. -/

namespace OpenSM.ClHeap

open Lib.DaryHeap

variable {C : Type*}

/-- `cl_heap_elem_t`. -/
structure Elem (C : Type*) where
  key : UInt64
  context : Option C
  /-- Which call of `cl_heap_insert` has stored the element. The code does not know it. -/
  serial : ℕ

def Elem.handle (e : Elem C) : Option C × ℕ := (e.context, e.serial)

def Elem.zero : Elem C := ⟨0, none, 0⟩

structure Heap (C : Type*) where
  branchingFactor : ℕ
  size : ℕ
  capacity : ℕ
  elementArray : ℕ → Elem C
  /-- The calls of `pfn_index_update`, the last one first. -/
  reports : List ((Option C × ℕ) × ℕ)
  inserts : ℕ
  branchingFactor_pos : 0 < branchingFactor
  size_le : size ≤ capacity

inductive Status
  | success
  | invalidParameter
  | insufficientResources
  | insufficientMemory
  deriving DecidableEq

def compareKeys (key1 key2 : UInt64) : ℤ := if key1 < key2 then -1 else if key2 < key1 then 1 else 0

def init (maxSize d : ℕ) (malloc : Bool) : Option (Heap C) :=
  if hd : 0 < d then
    if 0 < maxSize ∧ malloc then some ⟨d, 0, maxSize, fun _ => .zero, [], 0, hd, Nat.zero_le _⟩ else none
  else none

def resize (h : Heap C) (newSize : ℕ) (realloc : Bool) : Heap C × Status :=
  if hsize : newSize = 0 ∨ newSize < h.size then (h, .invalidParameter)
  else if newSize = h.capacity then (h, .success)
  else if realloc then
    ({ h with
      elementArray := fun i => if h.size ≤ i ∧ i < newSize then .zero else h.elementArray i
      capacity := newSize
      size_le := not_lt.mp fun hlt => hsize (.inr hlt) }, .success)
  else (h, .insufficientMemory)

section Sift

variable (cmp : UInt64 → UInt64 → ℤ)

structure Sift (C : Type*) where
  array : ℕ → Elem C
  reports : List ((Option C × ℕ) × ℕ)
  index : ℕ
  swapped : Bool

def Sift.move (s : Sift C) (j : ℕ) : Sift C where
  array := Function.update s.array s.index (s.array j)
  reports := ((s.array j).handle, s.index) :: s.reports
  index := j
  swapped := true

def Sift.finish (s : Sift C) (tmp : Elem C) (h : Heap C) : Heap C :=
  if s.swapped then
    { h with elementArray := Function.update s.array s.index tmp, reports := (tmp.handle, s.index) :: s.reports }
  else { h with elementArray := s.array, reports := s.reports }

def better (array : ℕ → Elem C) (swapChild child : ℕ) : ℕ :=
  if cmp (array child).key (array swapChild).key ≤ 0 then child else swapChild

def swapChild (d size : ℕ) (array : ℕ → Elem C) (firstChild : ℕ) : ℕ :=
  (List.range' (firstChild + 1) (min (firstChild + d) size - (firstChild + 1))).foldl (better cmp array) firstChild

lemma foldl_better (array : ℕ → Elem C) (first k : ℕ) :
    first ≤ (List.range' (first + 1) k).foldl (better cmp array) first ∧
      (List.range' (first + 1) k).foldl (better cmp array) first ≤ first + k := by
  induction k with
  | zero => exact ⟨le_rfl, le_rfl⟩
  | succ k ih =>
    rw [List.range'_1_concat, List.foldl_append, List.foldl_cons, List.foldl_nil, better]
    split_ifs
    · omega
    · omega

lemma le_swapChild (d size : ℕ) (array : ℕ → Elem C) (first : ℕ) : first ≤ swapChild cmp d size array first :=
  (foldl_better cmp array first _).1

/-- The loop of `heap_down`. -/
def heapDownLoop {d : ℕ} (hd : 0 < d) (size : ℕ) (tmp : Elem C) (s : Sift C) : Sift C :=
  if s.index * d + 1 < size then
    let child := swapChild cmp d size s.array (s.index * d + 1)
    if 0 < cmp tmp.key (s.array child).key then heapDownLoop hd size tmp (s.move child) else s
  else s
termination_by size - s.index
decreasing_by
  have hle := le_swapChild cmp d size s.array (s.index * d + 1)
  have hmul := Nat.le_mul_of_pos_right s.index hd
  change size - swapChild cmp d size s.array (s.index * d + 1) < size - s.index
  omega

def heapDown (h : Heap C) (index : ℕ) : Heap C :=
  let tmp := h.elementArray index
  (heapDownLoop cmp h.branchingFactor_pos h.size tmp ⟨h.elementArray, h.reports, index, false⟩).finish tmp h

/-- The loop of `heap_up`. -/
def heapUpLoop (d : ℕ) (tmp : Elem C) (s : Sift C) : Sift C :=
  let parent := (s.index - 1) / d
  if cmp tmp.key (s.array parent).key < 0 then
    if 0 < parent then heapUpLoop d tmp (s.move parent) else s.move parent
  else s
termination_by s.index
decreasing_by
  rename_i hparent
  have hle : (s.index - 1) / d ≤ s.index - 1 := Nat.div_le_self _ _
  change (s.index - 1) / d < s.index
  change 0 < (s.index - 1) / d at hparent
  omega

def heapUp (h : Heap C) (index : ℕ) : Heap C :=
  if index = 0 then h
  else
    let tmp := h.elementArray index
    (heapUpLoop cmp h.branchingFactor tmp ⟨h.elementArray, h.reports, index, false⟩).finish tmp h

end Sift

section Operations

variable (cmp : UInt64 → UInt64 → ℤ)

def Heap.setKey (h : Heap C) (key : UInt64) (index : ℕ) : Heap C :=
  { h with elementArray := Function.update h.elementArray index { h.elementArray index with key := key } }

def modifyKey (h : Heap C) (key : UInt64) (index : ℕ) : Heap C × Status :=
  if h.size ≤ index then (h, .invalidParameter)
  else
    let compareResult := cmp key (h.elementArray index).key
    let h' := h.setKey key index
    (if compareResult < 0 then heapUp cmp h' index
      else if 0 < compareResult then heapDown cmp h' index
      else h', .success)

def Heap.push (h : Heap C) (elem : Elem C) (hfull : h.size ≠ h.capacity) : Heap C :=
  { h with
    size := h.size + 1
    elementArray := Function.update h.elementArray h.size elem
    reports := (elem.handle, h.size) :: h.reports
    inserts := h.inserts + 1
    size_le := lt_of_le_of_ne h.size_le hfull }

def insert (h : Heap C) (key : UInt64) (context : Option C) : Heap C × Status :=
  if context.isNone then (h, .invalidParameter)
  else if hfull : h.size = h.capacity then (h, .insufficientResources)
  else (heapUp cmp (h.push ⟨key, context, h.inserts⟩ hfull) h.size, .success)

/-- The last element takes the place of the one that is deleted, which is put behind the end. -/
def Heap.takeLast (h : Heap C) (index : ℕ) : Heap C :=
  let size := h.size - 1
  let tmp := h.elementArray size
  let elem := h.elementArray index
  { h with
    size := size
    elementArray := Function.update (Function.update h.elementArray size elem) index tmp
    reports := (tmp.handle, index) :: (elem.handle, size) :: h.reports
    size_le := (Nat.sub_le _ _).trans h.size_le }

def delete (h : Heap C) (index : ℕ) : Heap C × Option C :=
  if h.size = 0 then (h, none)
  else if h.size ≤ index then (h, none)
  else if h.size = 1 then
    ({ h with size := 0, size_le := Nat.zero_le _ }, (h.elementArray 0).context)
  else
    let h' := h.takeLast index
    let parent := (index - 1) / h.branchingFactor
    let compareResult := cmp (h'.elementArray parent).key (h'.elementArray index).key
    let h'' :=
      if index = 0 then heapDown cmp h' index
      else if compareResult < 0 then heapDown cmp h' index
      else if 0 < compareResult then heapUp cmp h' index
      else h'
    (h'', (h''.elementArray h''.size).context)

def extractRoot (h : Heap C) : Heap C × Option C := delete cmp h 0

end Operations

section Run

variable (cmp : UInt64 → UInt64 → ℤ)

inductive Op (C : Type*)
  | insert (key : UInt64) (context : Option C)
  | modifyKey (key : UInt64) (index : ℕ)
  | delete (index : ℕ)
  | extractRoot
  | resize (newSize : ℕ) (realloc : Bool)

inductive Result (C : Type*)
  | status (s : Status)
  | context (c : Option C)

def step (h : Heap C) : Op C → Heap C × Result C
  | .insert key context => (insert cmp h key context).map id .status
  | .modifyKey key index => (modifyKey cmp h key index).map id .status
  | .delete index => (delete cmp h index).map id .context
  | .extractRoot => (extractRoot cmp h).map id .context
  | .resize newSize realloc => (resize h newSize realloc).map id .status

def run (h : Heap C) (ops : List (Op C)) : Heap C := ops.foldl (fun h op => (step cmp h op).1) h

end Run

end OpenSM.ClHeap
