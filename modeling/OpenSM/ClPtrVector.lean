import Mathlib

/-! `cl_ptr_vector`: an array of pointers that grows on demand. -/

namespace OpenSM.ClVector

abbrev SizeT := Fin (2 ^ 64)

/-- `cl_status_t`, as far as these functions return it. -/
inductive Status
  | success
  | insufficientMemory
  | initializer (code : ℕ)
  deriving DecidableEq

/-- The capacity for `n` elements, in steps of `grow_size`. -/
def newCapacity (growSize n : ℕ) : ℕ :=
  if n % growSize = 0 then n else (n + (growSize - n % growSize)) % 2 ^ 64

section Lists

variable {α : Type*}

def elems (size : ℕ) (f : ℕ → α) : List α := (List.range size).map f

inductive ListOp (α : Type*)
  | setSize (n : ℕ)
  | setMinSize (n : ℕ)
  | setCapacity (n : ℕ)
  | set (index : ℕ) (x : α)
  | remove (index : ℕ)

/-- `l'` has `n` elements, the first ones of `l`, and then elements that are `fresh`. -/
def Resized (fresh : α → Prop) (n : ℕ) (l l' : List α) : Prop :=
  ∃ e, (∀ x ∈ e, fresh x) ∧ l' = l.take n ++ e ∧ l'.length = n

def ListOp.Effect (fresh : α → Prop) (l l' : List α) : ListOp α → Prop
  | .setSize n => Resized fresh n l l'
  | .setMinSize n => Resized fresh (max l.length n) l l'
  | .setCapacity _ => l' = l
  | .set index x => ∃ l'', Resized fresh (max l.length (index + 1)) l l'' ∧ l' = l''.set index x
  | .remove index => l' = l.eraseIdx index

/-- What an operation does when it succeeds, and what it does not do when it fails. -/
structure Clean (fresh : α → Prop) (op : ListOp α) (status : Status) (l l' : List α) : Prop where
  success : status = .success → op.Effect fresh l l'
  failure : status ≠ .success → l <+: l'
  index : ∀ index x, op = .set index x → status = .success → index < l'.length

structure Initialized {V : Type*} (inv : V → Prop) (contents : V → List α) (fresh : α → Prop) (n : ℕ)
    (r : Status × Option V) : Prop where
  success : r.1 = .success → ∃ v, r.2 = some v ∧ inv v ∧ Resized fresh n [] (contents v)
  failure : r.1 ≠ .success → r.2 = none

end Lists

section Model

variable {α : Type*} [Zero α]

/-- `cl_ptr_vector_t` once it is initialized; `bytes` is how much storage has been allocated for the array. -/
structure PtrVector (α : Type*) where
  size : ℕ
  growSize : ℕ
  capacity : ℕ
  bytes : ℕ
  ptrArray : ℕ → α

namespace PtrVector

def setCapacity (v : PtrVector α) (n : ℕ) (malloc : Bool) : Status × PtrVector α :=
  if n ≤ v.capacity then (.success, v)
  else if !malloc then (.insufficientMemory, v)
  else
    (.success, { v with
      ptrArray := fun i => if i < v.capacity then v.ptrArray i else 0
      bytes := n * 8 % 2 ^ 64
      capacity := n })

def setSize (v : PtrVector α) (n : ℕ) (malloc : Bool) : Status × PtrVector α :=
  if n = v.size then (.success, v)
  else if v.capacity ≤ n then
    if v.growSize = 0 then (.insufficientMemory, v)
    else
      let r := v.setCapacity (newCapacity v.growSize n) malloc
      if r.1 ≠ .success then r else (.success, { r.2 with size := n })
  else (.success, { v with size := n })

def setMinSize (v : PtrVector α) (n : ℕ) (malloc : Bool) : Status × PtrVector α :=
  if v.size < n then v.setSize n malloc else (.success, v)

def put (v : PtrVector α) (i : ℕ) (x : α) : PtrVector α := { v with ptrArray := Function.update v.ptrArray i x }

/-- Where `p_ptr_array` is NULL, nothing comes back from a write or a read: no array of a capacity was
allocated. -/
def store (v : PtrVector α) (index : ℕ) (x : α) : Option (Status × PtrVector α) :=
  if v.capacity = 0 then none else some (.success, v.put index x)

def set (v : PtrVector α) (index : ℕ) (x : α) (malloc : Bool) : Option (Status × PtrVector α) :=
  if v.size ≤ index then
    let r := v.setSize ((index + 1) % 2 ^ 64) malloc
    if r.1 ≠ .success ∧ r.2.size < index then some r else r.2.store index x
  else v.store index x

def shiftDown (v : PtrVector α) (index : ℕ) : α × PtrVector α :=
  let size := (v.size + 2 ^ 64 - 1) % 2 ^ 64
  let shifted := (List.range' index (size - index)).foldl (fun v src => v.put src (v.ptrArray (src + 1))) v
  (v.ptrArray index, { shifted.put size 0 with size := size })

def remove (v : PtrVector α) (index : ℕ) : Option (α × PtrVector α) :=
  if v.capacity = 0 then none else some (v.shiftDown index)

def construct (growSize : ℕ) : PtrVector α := ⟨0, growSize, 0, 0, fun _ => 0⟩

def init (minSize growSize : ℕ) (malloc : Bool) : Status × Option (PtrVector α) :=
  if minSize = 0 then (.success, some (construct growSize))
  else
    let r := (construct growSize : PtrVector α).setSize minSize malloc
    (r.1, if r.1 = .success then some r.2 else none)

end PtrVector

inductive PtrOp (α : Type*)
  | setSize (n : SizeT)
  | setMinSize (n : SizeT)
  | setCapacity (n : SizeT)
  | set (index : SizeT) (x : α)
  | remove (index : SizeT)

def PtrOp.list : PtrOp α → ListOp α
  | setSize n => .setSize n.val
  | setMinSize n => .setMinSize n.val
  | setCapacity n => .setCapacity n.val
  | set index x => .set index.val x
  | remove index => .remove index.val

def PtrVector.call (v : PtrVector α) (malloc : Bool) : PtrOp α → Option (Status × PtrVector α)
  | .setSize n => some (v.setSize n.val malloc)
  | .setMinSize n => some (v.setMinSize n.val malloc)
  | .setCapacity n => some (v.setCapacity n.val malloc)
  | .set index x => v.set index.val x malloc
  | .remove index => (v.remove index.val).map fun r => (.success, r.2)

end Model

section Spec

variable {α : Type*} [Zero α]

namespace PtrVector

def contents (v : PtrVector α) : List α := elems v.size v.ptrArray

structure Inv (v : PtrVector α) : Prop where
  size_le : v.size ≤ v.capacity
  storage : ∀ i < v.capacity, 8 * (i + 1) ≤ v.bytes
  bytes_lt : v.bytes < 2 ^ 64

/-- There is room for `n` elements, or it can be made. -/
def Grows (v : PtrVector α) (n : ℕ) (malloc : Bool) : Prop :=
  n < v.capacity ∨ v.growSize ≠ 0 ∧ (newCapacity v.growSize n ≤ v.capacity ∨ malloc = true)

/-- The capacity for `n` elements is not too large for a `size_t`, and neither is what it takes in bytes. -/
def Fits (v : PtrVector α) (n : ℕ) : Prop :=
  v.capacity ≤ n → n ≤ max v.capacity (newCapacity v.growSize n) ∧
    (v.capacity < newCapacity v.growSize n → newCapacity v.growSize n * 8 < 2 ^ 64)

def Blank (v : PtrVector α) (n : ℕ) : Prop := ∀ i, v.size ≤ i → i < n → i < v.capacity → v.ptrArray i = 0

def Fine (v : PtrVector α) (malloc : Bool) : PtrOp α → Prop
  | .setSize n => v.size < n.val → v.Grows n.val malloc → v.Fits n.val ∧ v.Blank n.val
  | .setMinSize n => v.size < n.val → v.Grows n.val malloc → v.Fits n.val ∧ v.Blank n.val
  | .setCapacity n => v.capacity < n.val → malloc = true → n.val * 8 < 2 ^ 64
  | .set index _ => v.size ≤ index.val → index.val + 1 < 2 ^ 64 ∧
      (v.Grows (index.val + 1) malloc → v.Fits (index.val + 1) ∧ v.Blank index.val) ∧
      (¬ v.Grows (index.val + 1) malloc → v.size ≠ index.val)
  | .remove index => index.val < v.size

/-- The call comes back, keeps the vector in its storage, and is one for a list. -/
def Good (v : PtrVector α) (op : ListOp α) (r : Option (Status × PtrVector α)) : Prop :=
  ∃ status v', r = some (status, v') ∧ v'.Inv ∧ Clean (· = 0) op status v.contents v'.contents

/-- Initialization and calls do what they do to a list if and only if they have what they need. -/
structure Behaves (s : Option (PtrVector α)) : Prop where
  inv : ∀ v, s = some v → v.Inv
  init : ∀ (minSize growSize : SizeT) (malloc : Bool),
    (construct growSize.val : PtrVector α).Fine malloc (.setMinSize minSize) ↔
      Initialized Inv contents (· = (0 : α)) minSize.val (init minSize.val growSize.val malloc)
  call : ∀ v, s = some v → ∀ (op : PtrOp α) (malloc : Bool), v.Fine malloc op ↔ v.Good op.list (v.call malloc op)

/-- The vectors of a program whose calls all have what they need; `none` where there is none yet, or none any
more. -/
inductive Reached : Option (PtrVector α) → Prop
  | start : Reached none
  | init (s : Option (PtrVector α)) (minSize growSize : SizeT) (malloc : Bool) : Reached s →
      (construct growSize.val : PtrVector α).Fine malloc (.setMinSize minSize) →
      Reached (init minSize.val growSize.val malloc).2
  | call (v : PtrVector α) (op : PtrOp α) (malloc : Bool) : Reached (some v) → v.Fine malloc op →
      Reached ((v.call malloc op).map Prod.snd)

end PtrVector

end Spec

section Lists

variable {α : Type*} {fresh : α → Prop} {n k : ℕ} {l : List α} {f g : ℕ → α}

@[simp] lemma elems_length (k : ℕ) (f : ℕ → α) : (elems k f).length = k := by rw [elems, List.length_map,
    List.length_range]

@[simp] lemma elems_getElem (i : ℕ) (h : i < (elems k f).length) : (elems k f)[i] = f i := by
  simp only [elems, List.getElem_map, List.getElem_range]

lemma elems_congr (h : ∀ i < k, g i = f i) : elems k g = elems k f :=
  List.map_congr_left fun i hi => h i (List.mem_range.mp hi)

lemma elems_prefix (hk : k ≤ n) (h : ∀ i < k, g i = f i) : elems k f <+: elems n g := by
  rw [← elems_congr h, elems, elems, ← Nat.add_sub_cancel' hk, List.range_add, List.map_append]
  exact List.prefix_append _ _

lemma elems_update (i : ℕ) (x : α) : elems k (Function.update f i x) = (elems k f).set i x := by
  apply List.ext_getElem
  · rw [List.length_set, elems_length, elems_length]
  · intro j hj hj'
    rw [elems_getElem, List.getElem_set, elems_getElem, Function.update_apply]
    simp only [eq_comm]

lemma resized_iff : Resized fresh n (elems k f) l ↔
    l.length = n ∧ (∀ i (h : i < l.length), i < k → l[i] = f i) ∧ ∀ i (h : i < l.length), k ≤ i → fresh l[i] := by
  constructor
  · rintro ⟨e, he, rfl, hlen⟩
    refine ⟨hlen, fun i h hi => ?_, fun i h hle => ?_⟩
    · rw [List.getElem_append_left (by rw [List.length_take, elems_length]; omega), List.getElem_take,
          elems_getElem]
    · rw [List.getElem_append_right (by rw [List.length_take, elems_length]; omega)]
      exact he _ (List.getElem_mem _)
  · rintro ⟨hlen, hsame, hfresh⟩
    refine ⟨l.drop k, fun x hx => ?_, ?_, hlen⟩
    · obtain ⟨i, hi, rfl⟩ := List.getElem_of_mem hx
      rw [List.getElem_drop]
      exact hfresh _ _ (Nat.le_add_right _ _)
    · apply List.ext_getElem
      · rw [List.length_append, List.length_take, elems_length, List.length_drop]
        omega
      · intro i hi hi'
        rw [List.getElem_append]
        split_ifs with hlt
        · rw [List.length_take, elems_length] at hlt
          rw [List.getElem_take, elems_getElem]
          exact hsame i hi (by omega)
        · rw [List.length_take, elems_length] at hlt
          rw [List.getElem_drop]
          congr 1
          rw [List.length_take, elems_length]
          omega

lemma clean_success {op : ListOp α} {l' : List α} (h : op.Effect fresh l l')
    (hidx : ∀ index x, op = .set index x → index < l'.length) : Clean fresh op .success l l' :=
  ⟨fun _ => h, fun hne => absurd rfl hne, fun index x hop _ => hidx index x hop⟩

lemma clean_failure {op : ListOp α} {status : Status} {l' : List α} (hs : status ≠ .success) (h : l <+: l') :
    Clean fresh op status l l' :=
  ⟨fun hok => absurd hok hs, fun _ => h, fun _ _ _ hok => absurd hok hs⟩

lemma resized_elems (hsame : ∀ i < k, i < n → g i = f i) (hfresh : ∀ i, k ≤ i → i < n → fresh (g i)) :
    Resized fresh n (elems k f) (elems n g) := by
  refine resized_iff.mpr ⟨elems_length n g, fun i h hi => ?_, fun i h hle => ?_⟩
  · rw [elems_length] at h
    rw [elems_getElem, hsame i hi h]
  · rw [elems_length] at h
    rw [elems_getElem]
    exact hfresh i hle h

end Lists

namespace PtrVector

section Resize

variable {α : Type*} [Zero α] {v : PtrVector α} {n : ℕ} {malloc : Bool}

structure Reserved (v : PtrVector α) (n : ℕ) (v' : PtrVector α) : Prop where
  inv : v'.Inv
  size : v'.size = v.size
  capacity : v'.capacity = max v.capacity n
  same : ∀ i < v.capacity, v'.ptrArray i = v.ptrArray i
  blank : ∀ i, v.capacity ≤ i → i < v'.capacity → v'.ptrArray i = 0

lemma setCapacity_spec (hv : v.Inv) (hfit : v.capacity < n → malloc = true → n * 8 < 2 ^ 64) :
    (∃ v', v.setCapacity n malloc = (.success, v') ∧ v.Reserved n v' ∧ (n ≤ v.capacity ∨ malloc = true)) ∨
      v.setCapacity n malloc = (.insufficientMemory, v) ∧ v.capacity < n ∧ malloc = false := by
  rw [setCapacity]
  by_cases hle : n ≤ v.capacity
  · rw [if_pos hle]
    exact .inl ⟨v, rfl, ⟨hv, rfl, (max_eq_left hle).symm, fun i _ => rfl,
      fun i hi hi' => absurd hi' (not_lt.mpr hi)⟩, .inl hle⟩
  · rw [if_neg hle]
    cases malloc with
    | false => exact .inr ⟨rfl, not_le.mp hle, rfl⟩
    | true =>
      have hbytes := Nat.mod_eq_of_lt (hfit (not_le.mp hle) rfl)
      refine .inl ⟨_, rfl, ⟨⟨?_, ?_, Nat.mod_lt _ (by omega)⟩, rfl, (max_eq_right (not_le.mp hle).le).symm,
        fun i hi => if_pos hi, fun i hi _ => if_neg (not_lt.mpr hi)⟩, .inr rfl⟩
      · exact hv.size_le.trans (not_le.mp hle).le
      · intro i hi
        change i < n at hi
        change 8 * (i + 1) ≤ n * 8 % 2 ^ 64
        omega

structure Sized (v : PtrVector α) (n : ℕ) (v' : PtrVector α) : Prop where
  inv : v'.Inv
  size : v'.size = n
  same : ∀ i < v.size, v'.ptrArray i = v.ptrArray i
  blank : ∀ i, v.capacity ≤ i → i < n → v'.ptrArray i = 0
  stale : ∀ i < v.capacity, v'.ptrArray i = v.ptrArray i

/-- `set_size` succeeds, or there is neither room nor storage and nothing has changed. -/
lemma setSize_spec (hv : v.Inv) (hfit : v.size < n → v.Grows n malloc → v.Fits n) :
    (∃ v', v.setSize n malloc = (.success, v') ∧ v.Sized n v' ∧ (v.size < n → v.Grows n malloc)) ∨
      v.setSize n malloc = (.insufficientMemory, v) ∧ v.size < n ∧ ¬ v.Grows n malloc := by
  have hle := hv.size_le
  rw [setSize]
  by_cases heq : n = v.size
  · rw [if_pos heq]
    exact .inl ⟨v, rfl, ⟨hv, heq.symm, fun i _ => rfl, fun i hi hi' => by omega, fun i _ => rfl⟩,
        fun h => by omega⟩
  rw [if_neg heq]
  by_cases hcap : v.capacity ≤ n
  · rw [if_pos hcap]
    by_cases hgrow : v.growSize = 0
    · rw [if_pos hgrow]
      refine .inr ⟨rfl, by omega, ?_⟩
      rintro (h | ⟨h, -⟩)
      · omega
      · exact h hgrow
    rw [if_neg hgrow]
    by_cases hgrows : v.Grows n malloc
    · obtain ⟨hroom, hbytes⟩ := hfit (by omega) hgrows hcap
      rcases setCapacity_spec hv fun h _ => hbytes h with ⟨v', hv', hres, -⟩ | ⟨-, hlt, hmalloc⟩
      · rw [hv']
        refine .inl ⟨{ v' with size := n }, rfl, ⟨⟨?_, hres.inv.storage, hres.inv.bytes_lt⟩, rfl,
          fun i hi => hres.same i (by omega), fun i hi hi' => hres.blank i hi ?_, hres.same⟩, fun _ => hgrows⟩
        · rw [← hres.capacity] at hroom
          exact hroom
        · rw [hres.capacity]
          omega
      · rcases hgrows with h | ⟨-, h | h⟩
        · omega
        · omega
        · rw [hmalloc] at h
          cases h
    · have hfail : ¬ (newCapacity v.growSize n ≤ v.capacity ∨ malloc = true) := fun h => hgrows (.inr ⟨hgrow, h⟩)
      rcases setCapacity_spec hv fun h hm => absurd (.inr hm) hfail with ⟨v', -, -, hok⟩ | ⟨heq', -⟩
      · exact absurd hok hfail
      · rw [heq']
        exact .inr ⟨rfl, by omega, hgrows⟩
  · rw [if_neg hcap]
    refine .inl ⟨{ v with size := n }, rfl, ⟨⟨(not_le.mp hcap).le, hv.storage, hv.bytes_lt⟩, rfl,
      fun i _ => rfl, fun i hi hi' => by omega, fun i _ => rfl⟩, fun _ => .inl (not_le.mp hcap)⟩

lemma Sized.resized {v' : PtrVector α} (h : v.Sized n v') (hblank : v.size < n → v.Blank n) :
    Resized (· = 0) n v.contents v'.contents := by
  rw [contents, contents, h.size]
  refine resized_elems (fun i hi _ => h.same i hi) fun i hle hi => ?_
  by_cases hcap : i < v.capacity
  · rw [h.stale i hcap]
    exact hblank (by omega) i hle hi hcap
  · exact h.blank i (not_lt.mp hcap) hi

lemma Sized.blank_of_resized {v' : PtrVector α} {m : ℕ} (h : v.Sized n v') (hm : m ≤ n) {l : List α}
    (hl : Resized (· = 0) n v.contents l) (hsame : ∀ i (hi : i < l.length), i < m → l[i] = v'.ptrArray i) :
    v.Blank m := by
  obtain ⟨hlen, -, hfresh⟩ := resized_iff.mp hl
  intro i hle hlt hcap
  rw [← h.stale i hcap, ← hsame i (by omega) hlt]
  exact hfresh i (by omega) hle

end Resize

section Put

variable {α : Type*} {v : PtrVector α} {index : ℕ}

lemma put_contents (v : PtrVector α) (i : ℕ) (x : α) : (v.put i x).contents = v.contents.set i x :=
  elems_update i x

lemma Inv.put (hv : v.Inv) (i : ℕ) (x : α) : (v.put i x).Inv := ⟨hv.size_le, hv.storage, hv.bytes_lt⟩

lemma Inv.capacity_lt (hv : v.Inv) : v.capacity < 2 ^ 61 := by
  have hbytes := hv.bytes_lt
  by_contra hge
  have hstorage := hv.storage (2 ^ 61 - 1) (by omega)
  omega

lemma shift_spec (v : PtrVector α) (index k : ℕ) :
    let r := (List.range' index k).foldl (fun v src => v.put src (v.ptrArray (src + 1))) v
    r.size = v.size ∧ r.capacity = v.capacity ∧ r.bytes = v.bytes ∧
      ∀ j, r.ptrArray j = if index ≤ j ∧ j < index + k then v.ptrArray (j + 1) else v.ptrArray j := by
  induction k with
  | zero => exact ⟨rfl, rfl, rfl, fun j => (if_neg (by omega)).symm⟩
  | succ k ih =>
    rw [List.range'_1_concat, List.foldl_append, List.foldl_cons, List.foldl_nil]
    obtain ⟨hsize, hcap, hbytes, hcell⟩ := ih
    refine ⟨hsize, hcap, hbytes, fun j => ?_⟩
    change Function.update _ (index + k) _ j = _
    by_cases hj : j = index + k
    · rw [hj, Function.update_self, hcell, if_neg (by omega), if_pos (by omega)]
    · rw [Function.update_of_ne hj, hcell]
      exact if_congr (by omega) rfl rfl

lemma remove_spec [Zero α] (hv : v.Inv) (hi : index < v.size) :
    (v.shiftDown index).2.Inv ∧ (v.shiftDown index).2.contents = v.contents.eraseIdx index := by
  have hle := hv.size_le
  have hlt := hv.capacity_lt
  have hless : (v.size + 2 ^ 64 - 1) % 2 ^ 64 = v.size - 1 := by omega
  obtain ⟨-, hcap, hbytes, hcell⟩ := shift_spec v index (v.size - 1 - index)
  rw [shiftDown]
  simp only [hless]
  generalize (List.range' index (v.size - 1 - index)).foldl (fun v src => v.put src (v.ptrArray (src + 1))) v = w
    at hcap hbytes hcell
  refine ⟨⟨?_, ?_, ?_⟩, ?_⟩
  · change v.size - 1 ≤ w.capacity
    omega
  · change ∀ i < w.capacity, 8 * (i + 1) ≤ w.bytes
    rw [hcap, hbytes]
    exact hv.storage
  · change w.bytes < 2 ^ 64
    rw [hbytes]
    exact hv.bytes_lt
  · change elems (v.size - 1) (Function.update w.ptrArray (v.size - 1) 0) =
        (elems v.size v.ptrArray).eraseIdx index
    apply List.ext_getElem
    · rw [List.length_eraseIdx, elems_length, elems_length, if_pos hi]
    · intro j hj hj'
      rw [elems_length] at hj
      rw [elems_getElem, List.getElem_eraseIdx, Function.update_of_ne hj.ne, hcell]
      by_cases hlt : j < index
      · rw [if_neg (by omega), dif_pos hlt, elems_getElem]
      · rw [if_pos (by omega), dif_neg hlt, elems_getElem]

end Put

section Calls

variable {α : Type*} [Zero α] {v : PtrVector α} {malloc : Bool} {n : ℕ}

lemma setSize_good (hv : v.Inv) (h : v.size < n → v.Grows n malloc → v.Fits n ∧ v.Blank n) :
    v.Good (.setSize n) (some (v.setSize n malloc)) := by
  rcases setSize_spec hv fun hlt hg => (h hlt hg).1 with ⟨v', heq, hs, hg⟩ | ⟨heq, -⟩
  · rw [heq]
    exact ⟨_, _, rfl, hs.inv, clean_success (hs.resized fun hlt => (h hlt (hg hlt)).2) fun _ _ hop => by cases hop⟩
  · rw [heq]
    exact ⟨_, _, rfl, hv, clean_failure (by simp) List.prefix_rfl⟩

lemma setMinSize_good (hv : v.Inv) (h : v.size < n → v.Grows n malloc → v.Fits n ∧ v.Blank n) :
    v.Good (.setMinSize n) (some (v.setMinSize n malloc)) := by
  have hlen : v.contents.length = v.size := elems_length _ _
  rw [setMinSize]
  by_cases hlt : v.size < n
  · rw [if_pos hlt]
    obtain ⟨status, v', heq, hinv, hclean⟩ := setSize_good hv h
    refine ⟨status, v', heq, hinv, ⟨fun hok => ?_, hclean.failure, fun _ _ hop => by cases hop⟩⟩
    rw [ListOp.Effect, hlen, max_eq_right hlt.le]
    exact hclean.success hok
  · rw [if_neg hlt]
    refine ⟨_, _, rfl, hv, clean_success ?_ fun _ _ hop => by cases hop⟩
    rw [ListOp.Effect, hlen, max_eq_left (not_lt.mp hlt)]
    exact resized_elems (fun _ _ _ => rfl) fun i hi hi' => absurd hi' (not_lt.mpr hi)

lemma setCapacity_good (hv : v.Inv) (h : v.capacity < n → malloc = true → n * 8 < 2 ^ 64) :
    v.Good (.setCapacity n) (some (v.setCapacity n malloc)) := by
  have hle := hv.size_le
  rcases setCapacity_spec hv h with ⟨v', heq, hres, -⟩ | ⟨heq, -⟩
  · rw [heq]
    refine ⟨_, _, rfl, hres.inv, clean_success ?_ fun _ _ hop => by cases hop⟩
    change elems v'.size v'.ptrArray = elems v.size v.ptrArray
    rw [hres.size]
    exact elems_congr fun i hi => hres.same i (by omega)
  · rw [heq]
    exact ⟨_, _, rfl, hv, clean_failure (by simp) List.prefix_rfl⟩

omit [Zero α] in
lemma store_some {index : ℕ} {x : α} (hi : index < v.capacity) :
    v.store index x = some (.success, v.put index x) := if_neg (Nat.ne_zero_of_lt hi)

lemma set_good {index : ℕ} {x : α} (hv : v.Inv) (h : v.size ≤ index → index + 1 < 2 ^ 64 ∧
      (v.Grows (index + 1) malloc → v.Fits (index + 1) ∧ v.Blank index) ∧
      (¬ v.Grows (index + 1) malloc → v.size ≠ index)) : v.Good (.set index x) (v.set index x malloc) := by
  have hlen : v.contents.length = v.size := elems_length _ _
  rw [set]
  by_cases hle : v.size ≤ index
  · obtain ⟨hwrap, hgrow, hfull⟩ := h hle
    rw [if_pos hle, Nat.mod_eq_of_lt hwrap]
    rcases setSize_spec hv fun _ hg => (hgrow hg).1 with ⟨v', heq, hs, hg⟩ | ⟨heq, -, hg⟩
    · have hroom : index < v'.capacity := by
        have hsize := hs.inv.size_le
        rw [hs.size] at hsize
        exact hsize
      rw [heq, if_neg fun h => absurd rfl h.1, store_some hroom]
      refine ⟨_, _, rfl, hs.inv.put index x, clean_success ⟨(v'.put index 0).contents, ?_, ?_⟩ fun i y hop => ?_⟩
      · rw [hlen, max_eq_right (hle.trans (Nat.le_succ _))]
        change Resized _ _ _ (elems v'.size (Function.update v'.ptrArray index 0))
        rw [hs.size]
        refine resized_elems (fun i hi _ => ?_) fun i hi hi' => ?_
        · rw [Function.update_of_ne (by omega), hs.same i hi]
        · by_cases hi'' : i = index
          · rw [hi'', Function.update_self]
          · rw [Function.update_of_ne hi'']
            by_cases hcap : i < v.capacity
            · rw [hs.stale i hcap]
              exact (hgrow (hg (by omega))).2 i hi (by omega) hcap
            · exact hs.blank i (not_lt.mp hcap) hi'
      · rw [put_contents, put_contents, List.set_set]
      · obtain ⟨rfl, -⟩ := ListOp.set.inj hop
        rw [put_contents, List.length_set, contents, elems_length, hs.size]
        exact Nat.lt_succ_self _
    · have hne := hfull hg
      rw [heq, if_pos ⟨by simp, show v.size < index by omega⟩]
      exact ⟨_, _, rfl, hv, clean_failure (by simp) List.prefix_rfl⟩
  · rw [if_neg hle, store_some ((not_le.mp hle).trans_le hv.size_le)]
    refine ⟨_, _, rfl, hv.put index x, clean_success ⟨v.contents, ?_, put_contents v index x⟩ fun i y hop => ?_⟩
    · rw [hlen, max_eq_left (by omega)]
      exact resized_elems (fun _ _ _ => rfl) fun i hi hi' => absurd hi' (not_lt.mpr hi)
    · obtain ⟨rfl, -⟩ := ListOp.set.inj hop
      rw [put_contents, List.length_set, hlen]
      exact not_le.mp hle

lemma remove_good {index : ℕ} (hv : v.Inv) (h : index < v.size) :
    v.Good (.remove index) ((v.remove index).map fun r => (.success, r.2)) := by
  obtain ⟨hinv, heq⟩ := remove_spec hv h
  have hcap : v.capacity ≠ 0 := Nat.ne_zero_of_lt (h.trans_le hv.size_le)
  rw [remove, if_neg hcap]
  exact ⟨_, _, rfl, hinv, clean_success heq fun _ _ hop => by cases hop⟩

end Calls

section Needs

variable {α : Type*} [Zero α] {v : PtrVector α} {malloc : Bool} {n : ℕ}

lemma success_of_grows (hlt : v.size < n) (hg : v.Grows n malloc) : (v.setSize n malloc).1 = .success := by
  rw [setSize, if_neg hlt.ne']
  by_cases hcap : v.capacity ≤ n
  · rw [if_pos hcap]
    rcases hg with h | ⟨hgrow, hroom⟩
    · omega
    rw [if_neg hgrow, setCapacity]
    by_cases hle : newCapacity v.growSize n ≤ v.capacity
    · rw [if_pos hle]
      rfl
    · rw [if_neg hle, hroom.resolve_left hle]
      rfl
  · rw [if_neg hcap]

lemma fits_of_inv (hlt : v.size < n) (hg : v.Grows n malloc) (hinv : (v.setSize n malloc).2.Inv) : v.Fits n := by
  intro hcap
  rw [setSize, if_neg hlt.ne', if_pos hcap] at hinv
  rcases hg with h | ⟨hgrow, hroom⟩
  · omega
  rw [if_neg hgrow, setCapacity] at hinv
  by_cases hle : newCapacity v.growSize n ≤ v.capacity
  · rw [if_pos hle] at hinv
    have hsize : n ≤ v.capacity := hinv.size_le
    exact ⟨by omega, fun h => absurd h (not_lt.mpr hle)⟩
  · rw [if_neg hle, hroom.resolve_left hle] at hinv
    have hsize : n ≤ newCapacity v.growSize n := hinv.size_le
    have hstorage : 8 * (newCapacity v.growSize n - 1 + 1) ≤ newCapacity v.growSize n * 8 % 2 ^ 64 :=
      hinv.storage _ (Nat.sub_lt (by omega) Nat.one_pos)
    exact ⟨by omega, fun _ => by omega⟩

lemma setSize_needs (hv : v.Inv) (h : v.Good (.setSize n) (some (v.setSize n malloc))) (hlt : v.size < n)
    (hg : v.Grows n malloc) : v.Fits n ∧ v.Blank n := by
  obtain ⟨status, v', heq, hinv, hc⟩ := h
  have heq := Option.some.inj heq
  rw [show status = (v.setSize n malloc).1 by rw [heq], show v' = (v.setSize n malloc).2 by rw [heq]] at hc
  rw [show v' = (v.setSize n malloc).2 by rw [heq]] at hinv
  have hfit := fits_of_inv hlt hg hinv
  refine ⟨hfit, ?_⟩
  rcases setSize_spec hv fun _ _ => hfit with ⟨v', heq, hs, -⟩ | ⟨-, -, hng⟩
  · have heff := hc.success (success_of_grows hlt hg)
    rw [heq] at heff
    exact hs.blank_of_resized le_rfl heff fun i hi _ => elems_getElem i hi
  · exact absurd hg hng

lemma setMinSize_needs (hv : v.Inv) (h : v.Good (.setMinSize n) (some (v.setMinSize n malloc))) (hlt : v.size < n)
    (hg : v.Grows n malloc) : v.Fits n ∧ v.Blank n := by
  have hlen : v.contents.length = v.size := elems_length _ _
  rw [setMinSize, if_pos hlt] at h
  obtain ⟨status, v', heq, hinv, hc⟩ := h
  refine setSize_needs hv ⟨status, v', heq, hinv, fun hok => ?_, hc.failure, fun _ _ hop => by cases hop⟩ hlt hg
  have heff := hc.success hok
  rwa [ListOp.Effect, hlen, max_eq_right hlt.le] at heff

lemma setCapacity_needs (h : v.Good (.setCapacity n) (some (v.setCapacity n malloc))) (hlt : v.capacity < n)
    (hm : malloc = true) : n * 8 < 2 ^ 64 := by
  obtain ⟨status, v', heq, hinv, -⟩ := h
  rw [setCapacity, if_neg (not_le.mpr hlt), hm] at heq
  obtain rfl := (Prod.mk.inj (Option.some.inj heq)).2
  have hstorage : 8 * (n - 1 + 1) ≤ n * 8 % 2 ^ 64 := hinv.storage _ (Nat.sub_lt (by omega) Nat.one_pos)
  omega

lemma set_cases {index : ℕ} {x : α} {status : Status} {v' : PtrVector α} (hle : v.size ≤ index)
    (h : v.set index x malloc = some (status, v')) :
    let r := v.setSize ((index + 1) % 2 ^ 64) malloc
    (status, v') = if r.1 ≠ .success ∧ r.2.size < index then r else (.success, r.2.put index x) := by
  rw [set, if_pos hle] at h
  dsimp only at h ⊢
  split_ifs at h ⊢ with hfail
  · exact (Option.some.inj h).symm
  · rw [store] at h
    split_ifs at h
    exact (Option.some.inj h).symm

lemma set_needs {index : ℕ} {x : α} (hv : v.Inv) (hindex : index < 2 ^ 64)
    (h : v.Good (.set index x) (v.set index x malloc)) (hle : v.size ≤ index) : index + 1 < 2 ^ 64 ∧
      (v.Grows (index + 1) malloc → v.Fits (index + 1) ∧ v.Blank index) ∧
      (¬ v.Grows (index + 1) malloc → v.size ≠ index) := by
  have hlen : v.contents.length = v.size := elems_length _ _
  obtain ⟨status, w, hset, hinv, hc⟩ := h
  have hw := set_cases hle hset
  dsimp only at hw
  have hwrap : index + 1 < 2 ^ 64 := by
    by_contra hge
    -- the size that is asked for is 0, and `set` writes far outside
    have hzero : (index + 1) % 2 ^ 64 = 0 := by omega
    rw [hzero] at hw
    have hfit : v.size < 0 → v.Grows 0 malloc → v.Fits 0 := fun h => absurd h (Nat.not_lt_zero _)
    rcases setSize_spec hv hfit with ⟨v', heq, hs, -⟩ | ⟨-, hlt, -⟩
    · rw [heq, if_neg fun h => absurd rfl h.1] at hw
      obtain ⟨rfl, rfl⟩ := Prod.mk.inj hw
      have hlast := hc.index index x rfl rfl
      rw [put_contents, List.length_set, contents, elems_length, hs.size] at hlast
      omega
    · omega
  rw [Nat.mod_eq_of_lt hwrap] at hw
  refine ⟨hwrap, fun hg => ?_, fun hng hfull => ?_⟩
  · have hinv' : (v.setSize (index + 1) malloc).2.Inv := by
      split_ifs at hw
      · rw [← hw]
        exact hinv
      · obtain ⟨-, rfl⟩ := Prod.mk.inj hw
        exact ⟨hinv.size_le, hinv.storage, hinv.bytes_lt⟩
    have hfit := fits_of_inv (Nat.lt_succ_of_le hle) hg hinv'
    refine ⟨hfit, ?_⟩
    rcases setSize_spec hv fun _ _ => hfit with ⟨v', heq, hs, -⟩ | ⟨-, -, hng⟩
    · rw [heq, if_neg fun h => absurd rfl h.1] at hw
      obtain ⟨rfl, rfl⟩ := Prod.mk.inj hw
      obtain ⟨l, hl, hset⟩ := hc.success rfl
      rw [hlen, max_eq_right (Nat.le_succ_of_le hle)] at hl
      rw [put_contents] at hset
      refine hs.blank_of_resized (Nat.le_succ _) hl fun i hi hlt => ?_
      have hget := congrArg (·[i]?) hset
      simp only [List.getElem?_set_ne hlt.ne'] at hget
      rw [List.getElem?_eq_getElem hi,
          List.getElem?_eq_getElem (by rw [contents, elems_length, hs.size]; omega)] at hget
      rw [← Option.some.inj hget]
      exact elems_getElem i _
    · exact absurd hg hng
  · rcases setSize_spec hv fun _ hg => absurd hg hng with ⟨v', heq, hs, hg⟩ | ⟨heq, -, -⟩
    · exact hng (hg (by omega))
    · rw [heq, if_neg fun h => absurd h.2 (not_lt.mpr hfull.ge)] at hw
      obtain ⟨rfl, rfl⟩ := Prod.mk.inj hw
      have hlast := hc.index index x rfl rfl
      rw [put_contents, List.length_set, hlen] at hlast
      omega

lemma remove_needs {index : ℕ} (h : v.Good (.remove index) ((v.remove index).map fun r => (.success, r.2))) :
    index < v.size := by
  obtain ⟨status, w, heq, -, hc⟩ := h
  have hlen : v.contents.length = v.size := elems_length _ _
  obtain ⟨r, hr, heq⟩ := Option.map_eq_some_iff.mp heq
  rw [remove] at hr
  split_ifs at hr
  obtain rfl := Option.some.inj hr
  obtain ⟨rfl, rfl⟩ := Prod.mk.inj heq
  have hlen' : (v.shiftDown index).2.contents.length = (v.size + 2 ^ 64 - 1) % 2 ^ 64 := elems_length _ _
  have heff : _ = v.contents.eraseIdx index := hc.success rfl
  by_contra hge
  rw [heff, List.eraseIdx_of_length_le (by omega), hlen] at hlen'
  omega

lemma call_iff (hv : v.Inv) (op : PtrOp α) : v.Fine malloc op ↔ v.Good op.list (v.call malloc op) := by
  cases op with
  | setSize n => exact ⟨setSize_good hv, fun h hlt hg => setSize_needs hv h hlt hg⟩
  | setMinSize n => exact ⟨setMinSize_good hv, fun h hlt hg => setMinSize_needs hv h hlt hg⟩
  | setCapacity n => exact ⟨setCapacity_good hv, fun h hlt hm => setCapacity_needs h hlt hm⟩
  | set index x => exact ⟨set_good hv, fun h hle => set_needs hv index.isLt h hle⟩
  | remove index => exact ⟨remove_good hv, fun h => remove_needs h⟩

end Needs

section Runs

variable {α : Type*} [Zero α] {malloc : Bool}

lemma inv_construct (g : ℕ) : (construct g : PtrVector α).Inv :=
  ⟨le_rfl, fun i hi => absurd hi (Nat.not_lt_zero i), show 0 < 2 ^ 64 by decide⟩

lemma blank_construct (g n : ℕ) : (construct g : PtrVector α).Blank n :=
    fun i _ _ hi => absurd hi (Nat.not_lt_zero i)

lemma init_iff (n g : SizeT) : (construct g.val : PtrVector α).Fine malloc (.setMinSize n) ↔
    Initialized Inv contents (· = (0 : α)) n.val (init n.val g.val malloc) := by
  rw [init]
  by_cases hn : n.val = 0
  · rw [if_pos hn, hn]
    exact ⟨fun _ => ⟨fun _ => ⟨_, rfl, inv_construct g.val, [], by simp, rfl, rfl⟩, fun h => absurd rfl h⟩,
      fun _ (hlt : 0 < n.val) => absurd hn hlt.ne'⟩
  rw [if_neg hn]
  constructor
  · intro h
    rcases setSize_spec (inv_construct g.val) fun hlt hg => (h hlt hg).1 with ⟨v', heq, hs, -⟩ | ⟨heq, -⟩
    · rw [heq]
      exact ⟨fun _ => ⟨v', rfl, hs.inv, hs.resized fun _ => blank_construct g.val n.val⟩, fun h => absurd rfl h⟩
    · rw [heq]
      exact ⟨fun h => (by cases h), fun _ => rfl⟩
  · intro h hlt hg
    have hok := success_of_grows hlt hg
    obtain ⟨v', heq, hinv, -⟩ := h.success hok
    dsimp only at heq
    rw [if_pos hok] at heq
    obtain rfl := Option.some.inj heq
    exact ⟨fits_of_inv hlt hg hinv, blank_construct g.val n.val⟩

lemma reached_inv {s : Option (PtrVector α)} (h : Reached s) (v : PtrVector α) (hs : s = some v) : v.Inv := by
  induction h generalizing v with
  | start => cases hs
  | init s n g malloc _ hfine ih =>
    have hinit := (init_iff n g).mp hfine
    by_cases hok : (init n.val g.val malloc : Status × Option (PtrVector α)).1 = .success
    · obtain ⟨v', heq, hinv, -⟩ := hinit.success hok
      obtain rfl := Option.some.inj (heq.symm.trans hs)
      exact hinv
    · rw [hinit.failure hok] at hs
      cases hs
  | call v₀ op malloc _ hfine ih =>
    obtain ⟨status, w, heq, hinv, -⟩ := (call_iff (ih v₀ rfl) op).mp hfine
    rw [heq] at hs
    obtain rfl := Option.some.inj hs
    exact hinv

lemma Reached.behaves {s : Option (PtrVector α)} (h : Reached s) : Behaves s :=
  ⟨reached_inv h, fun n g _ => init_iff n g, fun v hs op _ => call_iff (reached_inv h v hs) op⟩

end Runs

end PtrVector

end OpenSM.ClVector
