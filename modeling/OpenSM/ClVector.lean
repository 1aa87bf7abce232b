import OpenSM.ClPtrVector

/-! `cl_vector`: elements of a fixed size in buffers that are added on demand, and an array of pointers to them. -/

namespace OpenSM.ClVector

section Model

variable {α : Type*} [Zero α]

/-- `sizeof(cl_list_item_t)`, in front of the elements in a buffer. -/
def listItemSz : ℕ := 16

/-- What the callers of `cl_vector_init` choose. -/
structure ElemType where
  elementSize : SizeT
  pfnInit : Bool
  pfnDtor : Bool
  pos : 0 < elementSize.val

/-- `cl_vector_t` once it is initialized. A pointer is the number of a buffer and an offset; `bytes` is the
storage of the array, and `allocList` has that of the buffers. -/
structure Vec (α : Type*) where
  size : ℕ
  growSize : ℕ
  capacity : ℕ
  elementSize : ℕ
  pfnInit : Bool
  pfnDtor : Bool
  bytes : ℕ
  ptrArray : ℕ → Option (ℕ × ℕ)
  allocList : List ℕ
  mem : ℕ × ℕ → α

/-- What is not in the hands of the vector: whether there is memory for the array and for a buffer, and what the
initializer and the destructor make of an element. -/
structure Env (α : Type*) where
  mallocArray : Bool
  mallocBuf : Bool
  init : ℕ → α → Status × α
  dtor : ℕ → α → α

namespace Vec

def elem (v : Vec α) (i : ℕ) : α :=
  match v.ptrArray i with
  | some a => v.mem a
  | none => 0

def write (v : Vec α) (i : ℕ) (x : α) : Vec α :=
  match v.ptrArray i with
  | some a => { v with mem := Function.update v.mem a x }
  | none => v

def setCapacity (v : Vec α) (n : ℕ) (e : Env α) : Status × Vec α :=
  if n ≤ v.capacity then (.success, v)
  else if !e.mallocArray then (.insufficientMemory, v)
  else
    let v := { v with
      ptrArray := fun i => if i < v.capacity then v.ptrArray i else none
      bytes := n * 8 % 2 ^ 64 }
    let allocSize := (n - v.capacity) * v.elementSize % 2 ^ 64
    if !e.mallocBuf then (.insufficientMemory, v)
    else
      let buf := v.allocList.length
      (.success, { v with
        allocList := v.allocList ++ [(allocSize + listItemSz) % 2 ^ 64]
        mem := fun a => if a.1 = buf then 0 else v.mem a
        ptrArray := fun i =>
          if v.capacity ≤ i ∧ i < n then some (buf, listItemSz + (i - v.capacity) * v.elementSize)
          else v.ptrArray i
        capacity := n })

/-- The loop over the elements that enter. The destructor gets the one whose initializer fails. -/
def initLoop (e : Env α) : ℕ → Vec α → Status × Vec α
  | 0, v => (.success, v)
  | k + 1, v =>
    let r := e.init v.size (v.elem v.size)
    let v := v.write v.size r.2
    if r.1 = .success then initLoop e k { v with size := v.size + 1 }
    else (r.1, if v.pfnDtor then v.write v.size (e.dtor v.size r.2) else v)

/-- What `set_size` does when there is room. -/
def resize (v : Vec α) (n : ℕ) (e : Env α) : Status × Vec α :=
  if v.size < n ∧ v.pfnInit then
    let r := initLoop e (n - v.size) v
    if r.1 ≠ .success then r else (.success, { r.2 with size := n })
  else
    let v' := if v.pfnDtor then
      (List.range' n (v.size - n)).foldl (fun v i => v.write i (e.dtor i (v.elem i))) v else v
    (.success, { v' with size := n })

def setSize (v : Vec α) (n : ℕ) (e : Env α) : Status × Vec α :=
  if n = v.size then (.success, v)
  else if v.capacity ≤ n then
    if v.growSize = 0 then (.insufficientMemory, v)
    else
      let r := v.setCapacity (newCapacity v.growSize n) e
      if r.1 ≠ .success then r else r.2.resize n e
  else v.resize n e

def setMinSize (v : Vec α) (n : ℕ) (e : Env α) : Status × Vec α :=
  if v.size < n then v.setSize n e else (.success, v)

def store (v : Vec α) (index : ℕ) (x : α) : Option (Status × Vec α) :=
  (v.ptrArray index).map fun _ => (.success, v.write index x)

def set (v : Vec α) (index : ℕ) (x : α) (e : Env α) : Option (Status × Vec α) :=
  if v.size ≤ index then
    let r := v.setSize ((index + 1) % 2 ^ 64) e
    if r.1 ≠ .success ∧ r.2.size < index then some r else r.2.store index x
  else v.store index x

def construct (growSize : ℕ) (t : ElemType) : Vec α :=
  ⟨0, growSize, 0, t.elementSize.val, t.pfnInit, t.pfnDtor, 0, fun _ => none, [], fun _ => 0⟩

def init (minSize growSize : ℕ) (t : ElemType) (e : Env α) : Status × Option (Vec α) :=
  if minSize = 0 then (.success, some (construct growSize t))
  else
    let r := (construct growSize t : Vec α).setSize minSize e
    (r.1, if r.1 = .success then some r.2 else none)

end Vec

inductive VecOp (α : Type*)
  | setSize (n : SizeT)
  | setMinSize (n : SizeT)
  | setCapacity (n : SizeT)
  | set (index : SizeT) (x : α)

def VecOp.list : VecOp α → ListOp α
  | setSize n => .setSize n.val
  | setMinSize n => .setMinSize n.val
  | setCapacity n => .setCapacity n.val
  | set index x => .set index.val x

def Vec.call (v : Vec α) (e : Env α) : VecOp α → Option (Status × Vec α)
  | .setSize n => some (v.setSize n.val e)
  | .setMinSize n => some (v.setMinSize n.val e)
  | .setCapacity n => some (v.setCapacity n.val e)
  | .set index x => v.set index.val x e

end Model

section Spec

variable {α : Type*} [Zero α]

namespace Vec

def contents (v : Vec α) : List α := elems v.size v.elem

/-- Every place below the capacity is in the array and points at storage of its own. -/
structure Stored (v : Vec α) : Prop where
  array : ∀ i < v.capacity, 8 * (i + 1) ≤ v.bytes
  buffer : ∀ i < v.capacity, ∃ buf offset n, v.ptrArray i = some (buf, offset) ∧ v.allocList[buf]? = some n ∧
    listItemSz ≤ offset ∧ offset + v.elementSize ≤ n
  apart : ∀ i < v.capacity, ∀ j < v.capacity, i ≠ j → ∀ buf offset offset', v.ptrArray i = some (buf, offset) →
    v.ptrArray j = some (buf, offset') → offset + v.elementSize ≤ offset' ∨ offset' + v.elementSize ≤ offset
  elementSize_pos : 0 < v.elementSize

structure Inv (v : Vec α) : Prop where
  size_le : v.size ≤ v.capacity
  stored : v.Stored

/-- An element that has entered is empty, or as an initializer has left it. -/
def Fresh (v : Vec α) (e : Env α) (x : α) : Prop :=
  if v.pfnInit then ∃ i y, e.init i y = (.success, x) else x = 0

def Affords (v : Vec α) (n : ℕ) (e : Env α) : Prop :=
  v.capacity < n → e.mallocArray = true → n * 8 < 2 ^ 64 ∧
    (e.mallocBuf = true → (n - v.capacity) * v.elementSize + listItemSz < 2 ^ 64)

/-- There is room for `n` elements, or it can be made. -/
def Grows (v : Vec α) (n : ℕ) (e : Env α) : Prop :=
  n < v.capacity ∨ v.growSize ≠ 0 ∧
    (newCapacity v.growSize n ≤ v.capacity ∨ e.mallocArray = true ∧ e.mallocBuf = true)

/-- The capacity for `n` elements is not too large for a `size_t`. -/
def Fits (v : Vec α) (n : ℕ) (e : Env α) : Prop :=
  v.capacity ≤ n → v.growSize ≠ 0 → v.Affords (newCapacity v.growSize n) e ∧
    (v.Grows n e → n ≤ max v.capacity (newCapacity v.growSize n))

/-- There is nothing in the places between the last element and place `n`, unless there is an initializer. -/
def Blank (v : Vec α) (n : ℕ) : Prop := v.pfnInit = false → ∀ i, v.size ≤ i → i < n → i < v.capacity → v.elem i = 0

def content (v : Vec α) (i : ℕ) : α := if i < v.capacity then v.elem i else 0

def InitReaches (v : Vec α) (n : ℕ) (e : Env α) : Prop :=
  v.pfnInit = true → (∀ i, v.size ≤ i → i < n → (e.init i (v.content i)).1 = .success) →
    (e.init n (v.content n)).1 = .success

def Fine (v : Vec α) (e : Env α) : VecOp α → Prop
  | .setSize n => v.size < n.val → v.Fits n.val e ∧ (v.Grows n.val e → v.Blank n.val)
  | .setMinSize n => v.size < n.val → v.Fits n.val e ∧ (v.Grows n.val e → v.Blank n.val)
  | .setCapacity n => v.Affords n.val e
  | .set index _ => v.size ≤ index.val → index.val + 1 < 2 ^ 64 ∧ v.Fits (index.val + 1) e ∧
      (v.Grows (index.val + 1) e → v.Blank index.val ∧ v.InitReaches index.val e) ∧
      (¬ v.Grows (index.val + 1) e → v.size ≠ index.val)

/-- The call comes back, keeps the vector in its storage, and is one for a list. -/
def Good (v : Vec α) (e : Env α) (op : ListOp α) (r : Option (Status × Vec α)) : Prop :=
  ∃ status v', r = some (status, v') ∧ v'.Inv ∧ Clean (v.Fresh e) op status v.contents v'.contents

/-- Initialization and calls do what they do to a list if they have what they need. -/
structure Behaves (s : Option (Vec α)) : Prop where
  inv : ∀ v, s = some v → v.Inv
  init : ∀ (minSize growSize : SizeT) (t : ElemType) (e : Env α),
    (construct growSize.val t : Vec α).Fine e (.setMinSize minSize) →
      Initialized Inv contents ((construct growSize.val t : Vec α).Fresh e) minSize.val
          (init minSize.val growSize.val t e)
  call : ∀ v, s = some v → ∀ (op : VecOp α) (e : Env α), v.Fine e op → v.Good e op.list (v.call e op)

/-- The vectors of a program whose calls all have what they need; `none` where there is none yet, or none any
more. -/
inductive Reached : Option (Vec α) → Prop
  | start : Reached none
  | init (s : Option (Vec α)) (minSize growSize : SizeT) (t : ElemType) (e : Env α) : Reached s →
      (construct growSize.val t : Vec α).Fine e (.setMinSize minSize) →
      Reached (init minSize.val growSize.val t e).2
  | call (v : Vec α) (op : VecOp α) (e : Env α) : Reached (some v) → v.Fine e op →
      Reached ((v.call e op).map Prod.snd)

end Vec

end Spec

namespace Vec

section Write

variable {α : Type*} {v : Vec α} {i j : ℕ} {x : α}

lemma Stored.ptr_ne (hv : v.Stored) (hi : i < v.capacity) (hj : j < v.capacity) (hne : i ≠ j) :
    v.ptrArray i ≠ v.ptrArray j := by
  intro heq
  obtain ⟨buf, offset, n, hptr, -⟩ := hv.buffer i hi
  have hpos := hv.elementSize_pos
  have hapart := hv.apart i hi j hj hne buf offset offset hptr (heq ▸ hptr)
  omega

lemma write_eq (v : Vec α) (i : ℕ) (x : α) : ∃ m, v.write i x = { v with mem := m } := by
  rw [write]
  cases v.ptrArray i with
  | none => exact ⟨v.mem, rfl⟩
  | some a => exact ⟨_, rfl⟩

lemma elem_write [Zero α] (hv : v.Stored) (hi : i < v.capacity) (hj : j < v.capacity) :
    (v.write i x).elem j = if j = i then x else v.elem j := by
  obtain ⟨buf, offset, n, hptr, -⟩ := hv.buffer i hi
  obtain ⟨buf', offset', n', hptr', -⟩ := hv.buffer j hj
  simp only [write, elem, hptr, hptr']
  split_ifs with h
  · obtain rfl := h
    obtain ⟨rfl, rfl⟩ := Prod.mk.inj (Option.some.inj (hptr.symm.trans hptr'))
    exact Function.update_self _ _ _
  · apply Function.update_of_ne
    intro heq
    apply hv.ptr_ne hj hi h
    rw [hptr, hptr', heq]

lemma Stored.congr (hv : v.Stored) (size : ℕ) (m : ℕ × ℕ → α) :
    ({ v with size := size, mem := m } : Vec α).Stored :=
  ⟨hv.array, hv.buffer, hv.apart, hv.elementSize_pos⟩

lemma Inv.write (hv : v.Inv) (i : ℕ) (x : α) : (v.write i x).Inv := by
  obtain ⟨m, hm⟩ := write_eq v i x
  rw [hm]
  exact ⟨hv.size_le, hv.stored.congr v.size m⟩

end Write

section Loops

variable {α : Type*} [Zero α] {v : Vec α} {e : Env α}

structure Entered (v : Vec α) (e : Env α) (k size : ℕ) (m : ℕ × ℕ → α) (status : Status) : Prop where
  le : v.size ≤ size
  same : ∀ j < v.size, ({ v with mem := m } : Vec α).elem j = v.elem j
  fresh : ∀ j, v.size ≤ j → j < size → ∃ i y, e.init i y = (.success, ({ v with mem := m } : Vec α).elem j)
  before : ∀ j, v.size ≤ j → j < size → (e.init j (v.elem j)).1 = .success
  success : status = .success → size = v.size + k
  failure : status ≠ .success → size < v.size + k ∧ (e.init size (v.elem size)).1 ≠ .success

lemma initLoop_spec (hv : v.Stored) (k : ℕ) (hk : v.size + k ≤ v.capacity) :
    ∃ status size m, initLoop e k v = (status, { v with size := size, mem := m }) ∧
        Entered v e k size m status := by
  induction k generalizing v with
  | zero =>
    exact ⟨.success, v.size, v.mem, rfl, le_rfl, fun _ _ => rfl, fun j h h' => by omega, fun j h h' => by omega,
      fun _ => rfl, fun h => absurd rfl h⟩
  | succ k ih =>
    have hlt : v.size < v.capacity := by omega
    rw [initLoop]
    obtain ⟨m, hm⟩ := write_eq v v.size (e.init v.size (v.elem v.size)).2
    have helem : ∀ j < v.capacity, ({ v with mem := m } : Vec α).elem j =
        if j = v.size then (e.init v.size (v.elem v.size)).2 else v.elem j := by
      intro j hj
      rw [← hm]
      exact elem_write hv hlt hj
    simp only [hm]
    by_cases hok : (e.init v.size (v.elem v.size)).1 = .success
    · rw [if_pos hok]
      obtain ⟨status, size, m', heq, hent⟩ :=
          ih (hv.congr (v.size + 1) m) (by change v.size + 1 + k ≤ v.capacity; omega)
      have hle : v.size + 1 ≤ size := hent.le
      have hold : ∀ j, v.size + 1 ≤ j → j < v.capacity → ({ v with mem := m } : Vec α).elem j = v.elem j := by
        intro j hj hj'
        rw [helem j hj', if_neg (by omega)]
      have hsize : size ≤ v.size + 1 + k := by
        by_cases h : status = .success
        · exact (hent.success h).le
        · exact (hent.failure h).1.le
      refine ⟨status, size, m', heq, by omega, fun j hj => ?_, fun j hj hj' => ?_, fun j hj hj' => ?_, fun h => ?_,
        fun h => ?_⟩
      · refine (hent.same j (Nat.lt_succ_of_lt hj)).trans ?_
        exact (helem j (by omega)).trans (if_neg hj.ne)
      · by_cases hj'' : j = v.size
        · refine ⟨v.size, v.elem v.size, Prod.ext hok ?_⟩
          exact (((hent.same j (hj''.le.trans_lt (Nat.lt_succ_self _))).trans (helem j (by omega))).trans
              (if_pos hj'')).symm
        · exact hent.fresh j (Nat.succ_le_of_lt (by omega)) hj'
      · by_cases hj'' : j = v.size
        · rw [hj'']
          exact hok
        · rw [← hold j (by omega) (by omega)]
          exact hent.before j (Nat.succ_le_of_lt (by omega)) hj'
      · have hend : size = v.size + 1 + k := hent.success h
        omega
      · obtain ⟨hend, hfail⟩ : size < v.size + 1 + k ∧ _ := hent.failure h
        refine ⟨by omega, ?_⟩
        rw [← hold size hle (by omega)]
        exact hfail
    · rw [if_neg hok]
      obtain ⟨m', hm'⟩ : ∃ m', (if v.pfnDtor then
          ({ v with mem := m } : Vec α).write v.size (e.dtor v.size (e.init v.size (v.elem v.size)).2)
          else { v with mem := m }) = { v with mem := m' } ∧
          ∀ j < v.size, ({ v with mem := m' } : Vec α).elem j = v.elem j := by
        have hkeep : ∀ j < v.size, ({ v with mem := m } : Vec α).elem j = v.elem j := fun j hj =>
          (helem j (by omega)).trans (if_neg hj.ne)
        by_cases hd : v.pfnDtor
        · obtain ⟨m', hm'⟩ := write_eq { v with mem := m } v.size (e.dtor v.size (e.init v.size (v.elem v.size)).2)
          refine ⟨m', (if_pos hd).trans hm', fun j hj => ?_⟩
          have hw := elem_write (x := e.dtor v.size (e.init v.size (v.elem v.size)).2) (hv.congr v.size m) hlt
            (show j < v.capacity by omega)
          rw [hm', if_neg hj.ne] at hw
          exact hw.trans (hkeep j hj)
        · exact ⟨m, if_neg hd, hkeep⟩
      exact ⟨_, v.size, m', congrArg (Prod.mk _) hm'.1, le_rfl, hm'.2, fun j h h' => by omega,
        fun j h h' => by omega, fun h => absurd h hok, fun _ => ⟨by omega, hok⟩⟩

lemma dtorLoop_spec (hv : v.Stored) (n k : ℕ) (hk : n + k ≤ v.capacity) :
    ∃ m, (List.range' n k).foldl (fun v i => v.write i (e.dtor i (v.elem i))) v = { v with mem := m } ∧
      ∀ j < n, ({ v with mem := m } : Vec α).elem j = v.elem j := by
  induction k with
  | zero => exact ⟨v.mem, rfl, fun _ _ => rfl⟩
  | succ k ih =>
    obtain ⟨m, hm, hsame⟩ := ih (by omega)
    rw [List.range'_1_concat, List.foldl_append, List.foldl_cons, List.foldl_nil, hm]
    generalize e.dtor (n + k) (({ v with mem := m } : Vec α).elem (n + k)) = x
    obtain ⟨m', hm'⟩ := write_eq { v with mem := m } (n + k) x
    refine ⟨m', hm', fun j hj => ?_⟩
    have hw := elem_write (x := x) (hv.congr v.size m) (show n + k < v.capacity by omega)
        (show j < v.capacity by omega)
    rw [hm', if_neg (by omega)] at hw
    exact hw.trans (hsame j hj)

end Loops

section Capacity

variable {α : Type*} [Zero α] {v : Vec α} {n : ℕ} {e : Env α}

structure Kept (v v' : Vec α) : Prop where
  stored : v'.Stored
  size : v'.size = v.size
  capacity : v'.capacity = v.capacity
  same : ∀ i < v.capacity, v'.elem i = v.elem i

structure Reserved (v : Vec α) (n : ℕ) (v' : Vec α) : Prop where
  stored : v'.Stored
  size : v'.size = v.size
  pfnInit : v'.pfnInit = v.pfnInit
  capacity : v'.capacity = max v.capacity n
  content : ∀ i < v'.capacity, v'.elem i = v.content i

lemma Stored.reserved_self (hv : v.Stored) (hn : n ≤ v.capacity) : v.Reserved n v :=
  ⟨hv, rfl, rfl, (max_eq_left hn).symm, fun _ hi => (if_pos hi).symm⟩

/-- The elements of a new buffer, and those that are there already. -/
lemma Stored.grow (hv : v.Stored) (hn : v.capacity < n) (harray : n * 8 < 2 ^ 64)
    (hbuf : (n - v.capacity) * v.elementSize + listItemSz < 2 ^ 64) : v.Reserved n { v with
      allocList := v.allocList ++ [((n - v.capacity) * v.elementSize % 2 ^ 64 + listItemSz) % 2 ^ 64]
      mem := fun a => if a.1 = v.allocList.length then 0 else v.mem a
      bytes := n * 8 % 2 ^ 64
      ptrArray := fun i =>
        if v.capacity ≤ i ∧ i < n then some (v.allocList.length, listItemSz + (i - v.capacity) * v.elementSize)
        else if i < v.capacity then v.ptrArray i else none
      capacity := n } := by
  have hold : ∀ i < v.capacity, (if v.capacity ≤ i ∧ i < n then
      some (v.allocList.length, listItemSz + (i - v.capacity) * v.elementSize)
      else if i < v.capacity then v.ptrArray i else none) = v.ptrArray i := by
    intro i hi
    rw [if_neg (by omega), if_pos hi]
  have hbytes : ((n - v.capacity) * v.elementSize % 2 ^ 64 + listItemSz) % 2 ^ 64 =
      (n - v.capacity) * v.elementSize + listItemSz := by
    rw [Nat.mod_eq_of_lt (show (n - v.capacity) * v.elementSize < 2 ^ 64 by omega), Nat.mod_eq_of_lt hbuf]
  -- the place of an element in the new buffer
  have hoffset : ∀ i j, i < j → (i + 1) * v.elementSize ≤ j * v.elementSize := fun i j h =>
    Nat.mul_le_mul_right _ h
  refine ⟨⟨fun i hi => ?_, fun i hi => ?_, fun i hi j hj hne buf o o' hio hjo => ?_, hv.elementSize_pos⟩, rfl, rfl,
    (max_eq_right hn.le).symm, fun i hi => ?_⟩
  · change i < n at hi
    change 8 * (i + 1) ≤ n * 8 % 2 ^ 64
    omega
  · change i < n at hi
    by_cases hlt : i < v.capacity
    · obtain ⟨buf, offset, m, hptr, halloc, hle⟩ := hv.buffer i hlt
      refine ⟨buf, offset, m, (hold i hlt).trans hptr, ?_, hle⟩
      exact (List.getElem?_append_left (List.getElem?_eq_some_iff.mp halloc).1).trans halloc
    · refine ⟨v.allocList.length, _, _, if_pos ⟨not_lt.mp hlt, hi⟩, List.getElem?_concat_length,
          Nat.le_add_right _ _, ?_⟩
      have hlast := hoffset (i - v.capacity) (n - v.capacity) (by omega)
      rw [hbytes]
      change listItemSz + (i - v.capacity) * v.elementSize + v.elementSize ≤ _
      rw [Nat.succ_mul] at hlast
      omega
  · change i < n at hi
    change j < n at hj
    change _ = some (buf, o) at hio
    change _ = some (buf, o') at hjo
    change o + v.elementSize ≤ o' ∨ o' + v.elementSize ≤ o
    dsimp only at hio hjo
    by_cases hi' : i < v.capacity
    · rw [hold i hi'] at hio
      by_cases hj' : j < v.capacity
      · rw [hold j hj'] at hjo
        exact hv.apart i hi' j hj' hne buf o o' hio hjo
      · obtain ⟨buf', offset, m, hptr, halloc, -⟩ := hv.buffer i hi'
        have hlt := (List.getElem?_eq_some_iff.mp halloc).1
        rw [if_pos ⟨not_lt.mp hj', hj⟩] at hjo
        have h₁ := congrArg Prod.fst (Option.some.inj (hptr.symm.trans hio))
        have h₂ := congrArg Prod.fst (Option.some.inj hjo)
        dsimp only at h₁ h₂
        omega
    · rw [if_pos ⟨not_lt.mp hi', hi⟩] at hio
      have h₂ := Prod.mk.inj (Option.some.inj hio)
      by_cases hj' : j < v.capacity
      · obtain ⟨buf', offset, m, hptr, halloc, -⟩ := hv.buffer j hj'
        have hlt := (List.getElem?_eq_some_iff.mp halloc).1
        rw [hold j hj'] at hjo
        have h₁ := congrArg Prod.fst (Option.some.inj (hptr.symm.trans hjo))
        dsimp only at h₁
        omega
      · rw [if_pos ⟨not_lt.mp hj', hj⟩] at hjo
        have h₃ := Prod.mk.inj (Option.some.inj hjo)
        rcases Nat.lt_or_gt_of_ne hne with hlt | hlt
        · have hstep := hoffset (i - v.capacity) (j - v.capacity) (by omega)
          rw [Nat.succ_mul] at hstep
          omega
        · have hstep := hoffset (j - v.capacity) (i - v.capacity) (by omega)
          rw [Nat.succ_mul] at hstep
          omega
  · change i < n at hi
    rw [Vec.content]
    split_ifs with hlt
    · obtain ⟨buf, offset, m, hptr, halloc, -⟩ := hv.buffer i hlt
      have hbuf' := (List.getElem?_eq_some_iff.mp halloc).1
      simp only [elem]
      rw [hold i hlt, hptr]
      exact if_neg hbuf'.ne
    · simp only [elem]
      rw [if_pos ⟨not_lt.mp hlt, hi⟩]
      exact if_pos rfl

lemma setCapacity_spec (hv : v.Stored) (h : v.Affords n e) :
    (∃ v', v.setCapacity n e = (.success, v') ∧ v.Reserved n v' ∧
      (n ≤ v.capacity ∨ e.mallocArray = true ∧ e.mallocBuf = true)) ∨
    ∃ v', v.setCapacity n e = (.insufficientMemory, v') ∧ v.Kept v' ∧ v.capacity < n ∧
      ¬ (e.mallocArray = true ∧ e.mallocBuf = true) := by
  rw [setCapacity]
  by_cases hle : n ≤ v.capacity
  · rw [if_pos hle]
    exact .inl ⟨v, rfl, hv.reserved_self hle, .inl hle⟩
  rw [if_neg hle]
  have hlt := not_le.mp hle
  cases harray : e.mallocArray with
  | false => exact .inr ⟨v, rfl, ⟨hv, rfl, rfl, fun _ _ => rfl⟩, hlt, by simp⟩
  | true =>
    obtain ⟨hbytes, hbuf⟩ := h hlt harray
    cases hmalloc : e.mallocBuf with
    | true => exact .inl ⟨_, rfl, hv.grow hlt hbytes (hbuf hmalloc), .inr ⟨rfl, rfl⟩⟩
    | false =>
      refine .inr ⟨_, rfl, ⟨⟨fun i hi => ?_, fun i hi => ?_, fun i hi j hj hne buf o o' hio hjo => ?_,
        hv.elementSize_pos⟩, rfl, rfl, fun i hi => ?_⟩, hlt, by simp⟩
      · change i < v.capacity at hi
        change 8 * (i + 1) ≤ n * 8 % 2 ^ 64
        omega
      · obtain ⟨buf, offset, m, hptr, hrest⟩ := hv.buffer i hi
        exact ⟨buf, offset, m, (if_pos hi).trans hptr, hrest⟩
      · exact hv.apart i hi j hj hne buf o o' ((if_pos hi).symm.trans hio) ((if_pos hj).symm.trans hjo)
      · simp only [elem]
        rw [if_pos hi]

end Capacity

section Resize

variable {α : Type*} [Zero α] {v : Vec α} {n : ℕ} {e : Env α}

structure Sized (v : Vec α) (n : ℕ) (e : Env α) (v' : Vec α) : Prop where
  inv : v'.Inv
  size : v'.size = n
  same : ∀ j < v.size, j < n → v'.elem j = v.elem j
  entered : ∀ j, v.size ≤ j → j < n →
    if v.pfnInit then ∃ i y, e.init i y = (.success, v'.elem j) else v'.elem j = v.content j
  ready : v.pfnInit = true → ∀ j, v.size ≤ j → j < n → (e.init j (v.content j)).1 = .success

structure Stopped (v : Vec α) (n : ℕ) (e : Env α) (v' : Vec α) : Prop where
  inv : v'.Inv
  le : v.size ≤ v'.size
  same : ∀ j < v.size, v'.elem j = v.elem j
  cause : v.size < n ∧ ¬ v.Grows n e ∧ v'.size = v.size ∨
    v.Grows n e ∧ v'.size < n ∧ v.pfnInit = true ∧
      (∀ j, v.size ≤ j → j < v'.size → (e.init j (v.content j)).1 = .success) ∧
          (e.init v'.size (v.content v'.size)).1 ≠ .success

lemma content_of_lt {i : ℕ} (h : i < v.capacity) : v.content i = v.elem i := if_pos h

/-- What becomes of the elements once there is room for `n` of them. -/
lemma resize_spec {w : Vec α} {k : ℕ} (hw : v.Reserved k w) (hsize : v.size ≤ v.capacity) (hn : n ≤ w.capacity)
    (hg : v.size < n → v.Grows n e) :
    (∃ v', w.resize n e = (.success, v') ∧ v.Sized n e v') ∨
      ∃ status v', status ≠ .success ∧ w.resize n e = (status, v') ∧ v.Stopped n e v' := by
  have hcap : v.capacity ≤ w.capacity := hw.capacity ▸ le_max_left _ _
  have hold : ∀ j < v.size, w.elem j = v.elem j := fun j hj =>
    (hw.content j (by omega)).trans (content_of_lt (by omega))
  rw [resize]
  by_cases hgrow : w.size < n ∧ w.pfnInit = true
  · rw [if_pos hgrow]
    obtain ⟨status, size, m, heq, hent⟩ := initLoop_spec (e := e) hw.stored (n - w.size) (by omega)
    have hle : v.size ≤ size := hw.size ▸ hent.le
    rw [hw.size] at hgrow
    have hbefore : ∀ j, v.size ≤ j → j < size → j < w.capacity → (e.init j (v.content j)).1 = .success := by
      intro j hj hj' hj''
      rw [← hw.content j hj'']
      exact hent.before j (hw.size.trans_le hj) hj'
    have hsame : ∀ j < v.size, ({ w with mem := m } : Vec α).elem j = v.elem j := fun j hj =>
      (hent.same j (hw.size ▸ hj)).trans (hold j hj)
    rw [heq]
    by_cases hok : status = .success
    · have hend : size = n := (hent.success hok).trans (by rw [hw.size]; omega)
      refine .inl ⟨_, if_neg fun h => h hok, ⟨⟨hn, hw.stored.congr n m⟩, rfl, fun j hj _ => hsame j hj,
        fun j hj hj' => ?_, fun _ j hj hj' => hbefore j hj (hend ▸ hj') (by omega)⟩⟩
      rw [← hw.pfnInit, if_pos hgrow.2]
      exact hent.fresh j (hw.size.trans_le hj) (hend ▸ hj')
    · obtain ⟨hend, hfail⟩ := hent.failure hok
      rw [hw.size] at hend
      rw [hw.content size (by omega)] at hfail
      exact .inr ⟨status, _, hok, if_pos hok,
        ⟨⟨show size ≤ w.capacity by omega, hw.stored.congr size m⟩, hle, hsame,
        .inr ⟨hg hgrow.1, show size < n by omega, hw.pfnInit ▸ hgrow.2,
          fun j hj (hj' : j < size) => hbefore j hj hj' (by omega), hfail⟩⟩⟩
  · rw [if_neg hgrow]
    obtain ⟨m, hm, hsame⟩ : ∃ m, (if w.pfnDtor then
        (List.range' n (w.size - n)).foldl (fun v i => v.write i (e.dtor i (v.elem i))) w else w) =
          { w with mem := m } ∧ ∀ j < n, ({ w with mem := m } : Vec α).elem j = w.elem j := by
      by_cases hd : w.pfnDtor
      · rw [if_pos hd]
        have hlast : w.size ≤ w.capacity := hw.size.trans_le (hsize.trans hcap)
        exact dtorLoop_spec hw.stored n (w.size - n) (by omega)
      · exact ⟨w.mem, if_neg hd, fun _ _ => rfl⟩
    rw [hm]
    refine .inl ⟨_, rfl, ⟨⟨hn, hw.stored.congr n m⟩, rfl, fun j hj hj' => (hsame j hj').trans (hold j hj),
      fun j hj hj' => ?_, fun hinit j hj hj' => ?_⟩⟩
    · have hinit : ¬ w.pfnInit = true := fun h => hgrow ⟨by rw [hw.size]; omega, h⟩
      rw [← hw.pfnInit, if_neg hinit]
      exact (hsame j hj').trans (hw.content j (by omega))
    · exact absurd ⟨by rw [hw.size]; omega, hw.pfnInit.trans hinit⟩ hgrow

/-- `set_size` succeeds, or it stops with the elements that have been there and perhaps some more. -/
lemma setSize_spec (hv : v.Inv) (h : v.size < n → v.Fits n e) :
    (∃ v', v.setSize n e = (.success, v') ∧ v.Sized n e v' ∧ (v.size < n → v.Grows n e)) ∨
      ∃ status v', status ≠ .success ∧ v.setSize n e = (status, v') ∧ v.Stopped n e v' := by
  have hle := hv.size_le
  rw [setSize]
  by_cases heq : n = v.size
  · rw [if_pos heq]
    exact .inl ⟨v, rfl, ⟨hv, heq.symm, fun _ _ _ => rfl, fun j hj hj' => by omega, fun _ j hj hj' => by omega⟩,
      fun h => by omega⟩
  rw [if_neg heq]
  by_cases hcap : v.capacity ≤ n
  · rw [if_pos hcap]
    have hlt : v.size < n := by omega
    by_cases hgrow : v.growSize = 0
    · rw [if_pos hgrow]
      refine .inr ⟨_, v, by simp, rfl, ⟨hv, le_rfl, fun _ _ => rfl, .inl ⟨hlt, ?_, rfl⟩⟩⟩
      rintro (h | ⟨h, -⟩)
      · omega
      · exact h hgrow
    rw [if_neg hgrow]
    obtain ⟨hafford, hroom⟩ := h hlt hcap hgrow
    rcases setCapacity_spec hv.stored hafford with ⟨w, hw, hres, hok⟩ | ⟨w, hw, hkept, hfull, hfail⟩
    · have hgrows : v.Grows n e := .inr ⟨hgrow, hok⟩
      rw [hw]
      rcases resize_spec hres hle (hres.capacity ▸ hroom hgrows) fun _ => hgrows with ⟨v', heq', hsized⟩ | hstop
      · exact .inl ⟨v', heq', hsized, fun _ => hgrows⟩
      · exact .inr hstop
    · rw [hw]
      refine .inr ⟨_, w, by simp, rfl, ⟨⟨?_, hkept.stored⟩, hkept.size.ge, fun j hj => hkept.same j (by omega),
        .inl ⟨hlt, ?_, hkept.size⟩⟩⟩
      · rw [hkept.size, hkept.capacity]
        exact hle
      · rintro (h | ⟨-, h | h⟩)
        · omega
        · omega
        · exact hfail h
  · rw [if_neg hcap]
    rcases resize_spec (hv.stored.reserved_self le_rfl) hle (not_le.mp hcap).le fun _ => .inl
        (not_le.mp hcap) with ⟨v', heq', hsized⟩ | hstop
    · exact .inl ⟨v', heq', hsized, fun _ => .inl (not_le.mp hcap)⟩
    · exact .inr hstop

lemma write_contents {i : ℕ} (hv : v.Inv) (hi : i < v.size) (x : α) :
    (v.write i x).contents = v.contents.set i x := by
  have hle := hv.size_le
  obtain ⟨m, hm⟩ := write_eq v i x
  have hsize : (v.write i x).size = v.size := by rw [hm]
  rw [contents, contents, hsize, ← elems_update]
  apply elems_congr
  intro j hj
  rw [elem_write hv.stored (by omega) (by omega), Function.update_apply]

lemma Sized.fresh {v' : Vec α} (h : v.Sized n e v') {m : ℕ} (hblank : v.Blank m) {j : ℕ}
    (hj : v.size ≤ j) (hjn : j < n)
    (hjm : j < m) : v.Fresh e (v'.elem j) := by
  have hent := h.entered j hj hjn
  rw [Fresh]
  by_cases hinit : v.pfnInit = true
  · rw [if_pos hinit] at hent ⊢
    exact hent
  · rw [if_neg hinit] at hent ⊢
    rw [hent, content]
    split_ifs with hcap
    · exact hblank (Bool.eq_false_of_not_eq_true hinit) j hj hjm hcap
    · rfl

lemma Sized.resized {v' : Vec α} (h : v.Sized n e v') (hblank : v.size < n → v.Blank n) :
    Resized (v.Fresh e) n v.contents v'.contents := by
  rw [contents, contents, h.size]
  exact resized_elems h.same fun i hi hi' => h.fresh (hblank (by omega)) hi hi' hi'

lemma Stopped.keeps {v' : Vec α} (h : v.Stopped n e v') : v.contents <+: v'.contents := elems_prefix h.le h.same

end Resize

section Calls

variable {α : Type*} [Zero α] {v : Vec α} {n : ℕ} {e : Env α}

lemma setSize_good (hv : v.Inv) (h : v.size < n → v.Fits n e ∧ (v.Grows n e → v.Blank n)) :
    v.Good e (.setSize n) (some (v.setSize n e)) := by
  rcases setSize_spec hv fun hlt => (h hlt).1 with ⟨v', heq, hs, hg⟩ | ⟨status, v', hne, heq, hstop⟩
  · rw [heq]
    exact ⟨_, _, rfl, hs.inv, clean_success (hs.resized fun hlt => (h hlt).2 (hg hlt)) fun _ _ hop => by cases hop⟩
  · rw [heq]
    exact ⟨_, _, rfl, hstop.inv, clean_failure hne hstop.keeps⟩

lemma setMinSize_good (hv : v.Inv) (h : v.size < n → v.Fits n e ∧ (v.Grows n e → v.Blank n)) :
    v.Good e (.setMinSize n) (some (v.setMinSize n e)) := by
  have hlen : v.contents.length = v.size := elems_length _ _
  rw [setMinSize]
  by_cases hlt : v.size < n
  · rw [if_pos hlt]
    obtain ⟨status, v', heq, hinv, hclean⟩ := setSize_good hv h
    refine ⟨status, v', heq, hinv, ⟨fun hok => ?_, hclean.failure, fun _ _ hop => by cases hop⟩⟩
    rw [ListOp.Effect, hlen, max_eq_right hlt.le]
    exact hclean.success hok
  · rw [if_neg hlt]
    refine ⟨_, _, rfl, hv, clean_success ?_ fun _ _ hop => by cases hop⟩
    rw [ListOp.Effect, hlen, max_eq_left (not_lt.mp hlt)]
    exact resized_elems (fun _ _ _ => rfl) fun i hi hi' => absurd hi' (not_lt.mpr hi)

lemma setCapacity_good (hv : v.Inv) (h : v.Affords n e) : v.Good e (.setCapacity n)
    (some (v.setCapacity n e)) := by
  have hle := hv.size_le
  rcases setCapacity_spec hv.stored h with ⟨v', heq, hres, -⟩ | ⟨v', heq, hkept, -⟩
  · have hmax : v.capacity ≤ v'.capacity := hres.capacity ▸ le_max_left _ _
    rw [heq]
    refine ⟨_, _, rfl, ⟨?_, hres.stored⟩, clean_success ?_ fun _ _ hop => by cases hop⟩
    · rw [hres.size]
      omega
    · change elems v'.size v'.elem = elems v.size v.elem
      rw [hres.size]
      exact elems_congr fun i hi => (hres.content i (by omega)).trans (content_of_lt (by omega))
  · rw [heq]
    refine ⟨_, _, rfl, ⟨?_, hkept.stored⟩, clean_failure (by simp) ?_⟩
    · rw [hkept.size, hkept.capacity]
      exact hle
    · exact elems_prefix hkept.size.ge fun i hi => hkept.same i (by omega)

omit [Zero α] in
lemma store_some {index : ℕ} {x : α} (hv : v.Inv) (hi : index < v.capacity) :
    v.store index x = some (.success, v.write index x) := by
  obtain ⟨_, _, _, hptr, -⟩ := hv.stored.buffer index hi
  rw [store, hptr]
  rfl

lemma set_good {index : ℕ} {x : α} (hv : v.Inv) (h : v.size ≤ index → index + 1 < 2 ^ 64 ∧ v.Fits (index + 1) e ∧
      (v.Grows (index + 1) e → v.Blank index ∧ v.InitReaches index e) ∧
      (¬ v.Grows (index + 1) e → v.size ≠ index)) : v.Good e (.set index x) (v.set index x e) := by
  have hlen : v.contents.length = v.size := elems_length _ _
  rw [set]
  by_cases hle : v.size ≤ index
  · obtain ⟨hwrap, hfit, hgrow, hfull⟩ := h hle
    rw [if_pos hle, Nat.mod_eq_of_lt hwrap]
    rcases setSize_spec hv fun _ => hfit with ⟨v', heq, hs, hg⟩ | ⟨status, v', hne, heq, hstop⟩
    · have hlast : index < v'.size := by
        rw [hs.size]
        exact Nat.lt_succ_self _
      rw [heq, if_neg fun h => absurd rfl h.1, store_some hs.inv (hlast.trans_le hs.inv.size_le)]
      refine ⟨_, _, rfl, hs.inv.write index x, clean_success ?_ fun i y hop => ?_⟩
      · obtain ⟨hblank, -⟩ := hgrow (hg (Nat.lt_succ_of_le hle))
        -- what has entered at the place itself is written over
        obtain ⟨y, hy⟩ : ∃ y, v.Fresh e y := by
          by_cases hinit : v.pfnInit = true
          · have hent := hs.entered index hle (Nat.lt_succ_self _)
            rw [if_pos hinit] at hent
            exact ⟨v'.elem index, (if_pos hinit).mpr hent⟩
          · exact ⟨0, (if_neg hinit).mpr rfl⟩
        refine ⟨elems (index + 1) (Function.update v'.elem index y), ?_, ?_⟩
        · rw [hlen, max_eq_right (Nat.le_succ_of_le hle)]
          refine resized_elems (fun j hj hj' => ?_) fun j hj hj' => ?_
          · rw [Function.update_of_ne (by omega), hs.same j hj hj']
          · by_cases hji : j = index
            · rw [hji, Function.update_self]
              exact hy
            · rw [Function.update_of_ne hji]
              exact hs.fresh hblank hj hj' (by omega)
        · rw [write_contents hs.inv hlast, elems_update, List.set_set, contents, hs.size]
      · obtain ⟨rfl, -⟩ := ListOp.set.inj hop
        rw [write_contents hs.inv hlast, List.length_set, contents, elems_length]
        exact hlast
    · have hless : v'.size < index := by
        rcases hstop.cause with ⟨-, hng, hsize⟩ | ⟨hg, hsize, hinit, hbefore, hfail⟩
        · have hne' := hfull hng
          omega
        · by_contra hge
          obtain rfl : v'.size = index := by omega
          exact hfail ((hgrow hg).2 hinit hbefore)
      rw [heq, if_pos ⟨hne, hless⟩]
      exact ⟨_, _, rfl, hstop.inv, clean_failure hne hstop.keeps⟩
  · rw [if_neg hle, store_some hv ((not_le.mp hle).trans_le hv.size_le)]
    refine ⟨_, _, rfl, hv.write index x, clean_success ⟨v.contents, ?_, write_contents hv (not_le.mp hle) x⟩
        fun i y hop => ?_⟩
    · rw [hlen, max_eq_left (by omega)]
      exact resized_elems (fun _ _ _ => rfl) fun i hi hi' => absurd hi' (not_lt.mpr hi)
    · obtain ⟨rfl, -⟩ := ListOp.set.inj hop
      rw [write_contents hv (not_le.mp hle), List.length_set, hlen]
      exact not_le.mp hle

lemma call_good (hv : v.Inv) (op : VecOp α) (h : v.Fine e op) : v.Good e op.list (v.call e op) := by
  cases op with
  | setSize n => exact setSize_good hv h
  | setMinSize n => exact setMinSize_good hv h
  | setCapacity n => exact setCapacity_good hv h
  | set index x => exact set_good hv h

end Calls

section Runs

variable {α : Type*} [Zero α] {e : Env α}

lemma inv_construct (g : ℕ) (t : ElemType) : (construct g t : Vec α).Inv :=
  ⟨le_rfl, fun i hi => absurd hi (Nat.not_lt_zero i), fun i hi => absurd hi (Nat.not_lt_zero i),
    fun i hi => absurd hi (Nat.not_lt_zero i), t.pos⟩

lemma init_good (n g : SizeT) (t : ElemType) (h : (construct g.val t : Vec α).Fine e (.setMinSize n)) :
    Initialized Inv contents ((construct g.val t : Vec α).Fresh e) n.val (init n.val g.val t e) := by
  rw [init]
  by_cases hn : n.val = 0
  · rw [if_pos hn, hn]
    exact ⟨fun _ => ⟨_, rfl, inv_construct g.val t, [], by simp, rfl, rfl⟩, fun h => absurd rfl h⟩
  rw [if_neg hn]
  rcases setSize_spec (inv_construct g.val t) fun hlt => (h hlt).1 with ⟨v', heq, hs, -⟩ | ⟨status,
      v', hne, heq, -⟩
  · rw [heq]
    exact ⟨fun _ => ⟨v', rfl, hs.inv, hs.resized fun _ _ i _ _ hi => absurd hi (Nat.not_lt_zero i)⟩,
      fun h => absurd rfl h⟩
  · rw [heq]
    exact ⟨fun h => absurd h hne, fun _ => if_neg hne⟩

lemma reached_inv {s : Option (Vec α)} (h : Reached s) (v : Vec α) (hs : s = some v) : v.Inv := by
  induction h generalizing v with
  | start => cases hs
  | init s n g t e _ hfine ih =>
    have hinit := init_good n g t hfine
    by_cases hok : (init n.val g.val t e).1 = .success
    · obtain ⟨v', heq, hinv, -⟩ := hinit.success hok
      obtain rfl := Option.some.inj (heq.symm.trans hs)
      exact hinv
    · rw [hinit.failure hok] at hs
      cases hs
  | call v₀ op e _ hfine ih =>
    obtain ⟨status, w, heq, hinv, -⟩ := call_good (ih v₀ rfl) op hfine
    rw [heq] at hs
    obtain rfl := Option.some.inj hs
    exact hinv

lemma Reached.behaves {s : Option (Vec α)} (h : Reached s) : Behaves s :=
  ⟨reached_inv h, fun n g t _ => init_good n g t, fun v hs op _ => call_good (reached_inv h v hs) op⟩

end Runs

end Vec

section Result

/-- However a program uses vectors of either kind, if its calls have what they need then each of them does what
it does to a list, or fails and leaves the elements where they are. -/
theorem vectors_behave {α : Type*} [Zero α] {s : Option (PtrVector α)} {s' : Option (Vec α)}
    (h : PtrVector.Reached s)
    (h' : Vec.Reached s') : PtrVector.Behaves s ∧ Vec.Behaves s' :=
  ⟨h.behaves, h'.behaves⟩

def byteType : ElemType := ⟨⟨1, Nat.one_lt_two_pow (Nat.succ_ne_zero 63)⟩, false, false, Nat.one_pos⟩

def plenty : Env ℕ := ⟨true, true, fun _ x => (.success, x), fun _ x => x⟩

def place (i : Fin 4) : SizeT := ⟨i, i.isLt.trans (by norm_num)⟩

lemma ptr_append_fine {v : PtrVector ℕ} {i : Fin 4} (hsize : v.size = i) (hcap : v.capacity = i)
    (hgrow : v.growSize = 1)
    (x : ℕ) : v.Fine true (.set (place i) x) := by
  have hi := i.isLt
  have hnew : newCapacity 1 ((i : ℕ) + 1) = i + 1 := if_pos (Nat.mod_one _)
  intro _
  refine ⟨?_, fun _ => ⟨fun _ => ?_, fun j hj hj' => ?_⟩, fun h => ?_⟩
  · change (i : ℕ) + 1 < 2 ^ 64
    omega
  · change (i : ℕ) + 1 ≤ max v.capacity (newCapacity v.growSize (i + 1)) ∧
      (v.capacity < newCapacity v.growSize (i + 1) → newCapacity v.growSize (i + 1) * 8 < 2 ^ 64)
    rw [hgrow, hnew]
    omega
  · change j < (i : ℕ) at hj'
    omega
  · exact absurd (.inr ⟨hgrow ▸ one_ne_zero, .inr rfl⟩) h

lemma vec_append_fine {v : Vec ℕ} {i : Fin 4} (hsize : v.size = i) (hcap : v.capacity = i) (hgrow : v.growSize = 1)
    (helem : v.elementSize = 1) (hinit : v.pfnInit = false) (x : ℕ) : v.Fine plenty (.set (place i) x) := by
  have hi := i.isLt
  have hnew : newCapacity 1 ((i : ℕ) + 1) = i + 1 := if_pos (Nat.mod_one _)
  intro _
  refine ⟨?_, fun _ _ => ⟨fun _ _ => ?_, fun _ => ?_⟩, fun _ => ⟨fun _ j hj hj' => ?_, fun h => ?_⟩, fun h => ?_⟩
  · change (i : ℕ) + 1 < 2 ^ 64
    omega
  · change newCapacity v.growSize (i + 1) * 8 < 2 ^ 64 ∧
      (true = true → (newCapacity v.growSize (i + 1) - v.capacity) * v.elementSize + 16 < 2 ^ 64)
    rw [hgrow, hnew, helem]
    omega
  · change (i : ℕ) + 1 ≤ max v.capacity (newCapacity v.growSize (i + 1))
    rw [hgrow, hnew]
    exact le_max_right _ _
  · change j < (i : ℕ) at hj'
    omega
  · rw [hinit] at h
    cases h
  · exact absurd (.inr ⟨hgrow ▸ one_ne_zero, .inr ⟨rfl, rfl⟩⟩) h

/-- Two elements are added to each, and one is taken from the first. -/
theorem vectors_behave_set : ∃ v v', PtrVector.contents v = [8] ∧ Vec.contents v' = [7, 8] ∧
    PtrVector.Behaves (some v) ∧ Vec.Behaves (some v') := by
  have hstart : PtrVector.Reached (some (PtrVector.construct 1 : PtrVector ℕ)) :=
    .init none (place 0) (place 1) true .start fun h => absurd h (Nat.not_lt_zero 0)
  have hone := hstart.call _ (.set (place 0) 7) true (ptr_append_fine rfl rfl rfl 7)
  have htwo := PtrVector.Reached.call _ (.set (place 1) 8) true hone (ptr_append_fine rfl rfl rfl 8)
  have hless := PtrVector.Reached.call _ (.remove (place 0)) true htwo Nat.two_pos
  have hstart' : Vec.Reached (some (Vec.construct 1 byteType : Vec ℕ)) :=
    .init none (place 0) (place 1) byteType plenty .start fun h => absurd h (Nat.not_lt_zero 0)
  have hone' := hstart'.call _ (.set (place 0) 7) plenty (vec_append_fine rfl rfl rfl rfl rfl 7)
  have htwo' := Vec.Reached.call _ (.set (place 1) 8) plenty hone' (vec_append_fine rfl rfl rfl rfl rfl 8)
  obtain ⟨h, h'⟩ := vectors_behave hless htwo'
  refine ⟨_, _, ?_, ?_, h, h'⟩
  · decide +kernel
  · decide +kernel

def full : PtrVector ℕ := ⟨2, 2, 2, 16, fun _ => 0⟩

/-- Without memory for a third element `set` writes it behind the array and reports success. -/
theorem set_no_memory : PtrVector.Reached (some full) ∧
    ∃ v, full.call false (.set (place 2) 7) = some (.success, v) ∧
      ¬ Clean (· = 0) (.set 2 7) .success full.contents v.contents := by
  refine ⟨?_, _, rfl, fun h => absurd (h.index 2 7 rfl rfl) (Nat.lt_irrefl 2)⟩
  have hfine : (PtrVector.construct 2 : PtrVector ℕ).Fine true (.setMinSize (place 2)) := by
    refine fun _ _ => ⟨fun _ => ?_, fun i _ _ hi => absurd hi (Nat.not_lt_zero i)⟩
    decide
  exact .init none (place 2) (place 2) true .start hfine

end Result

end OpenSM.ClVector
