import OpenSM.ClHeapSound

/-! Runs of `cl_heap`: after any operations the array is in order, holds what a bag would hold, and every
element has been told its place. -/

namespace OpenSM.ClHeap

open Lib.DaryHeap

variable {C : Type*} {cmp : UInt64 → UInt64 → ℤ}

section Operations

variable {T : Type*} [DecidableEq T] {g : Option C × ℕ → T} {h : Heap C} {key : UInt64} {index : ℕ}

/-- The invariant; `g` tells by what the user knows an element. -/
structure Sound (cmp : UInt64 → UInt64 → ℤ) (g : Option C × ℕ → T) (h : Heap C) : Prop where
  ordered : Ordered (Below cmp) h.branchingFactor h.size h.elementArray
  indexed : Indexed g h.size h.elementArray h.reports

lemma Sifted.sound {h h' : Heap C} (hs : Sifted g h h') (hshape : SameShape h h')
    (ho : Ordered (Below cmp) h.branchingFactor h.size h'.elementArray) : Sound cmp g h' := by
  obtain ⟨hd, hn, -, -⟩ := hshape
  constructor
  · rw [hd, hn]
    exact ho
  · rw [hn]
    exact hs.indexed

lemma Sound.push (hs : Sound cmp g h) {elem : Elem C} (hfull : h.size ≠ h.capacity)
    (hfresh : ∀ i < h.size, g (h.elementArray i).handle ≠ g elem.handle) :
    UpReady (Below cmp) h.branchingFactor (h.size + 1) (h.push elem hfull).elementArray h.size ∧
      Indexed g (h.size + 1) (h.push elem hfull).elementArray (h.push elem hfull).reports ∧
      bag (h.size + 1) (h.push elem hfull).elementArray = elem ::ₘ bag h.size h.elementArray := by
  have hsame : ∀ i < h.size, (h.push elem hfull).elementArray i = h.elementArray i :=
    fun i hi => Function.update_of_ne hi.ne _ _
  have hnew : (h.push elem hfull).elementArray h.size = elem := Function.update_self _ _ _
  have hbut : IndexedBut g (h.size + 1) (h.push elem hfull).elementArray h.reports h.size := by
    constructor
    · intro i hi j hj heq
      rcases (Nat.lt_succ_iff.mp hi).lt_or_eq with hi | rfl <;>
          rcases (Nat.lt_succ_iff.mp hj).lt_or_eq with hj | rfl
      · rw [hsame i hi, hsame j hj] at heq
        exact (hs.indexed 0).inj i hi j hj heq
      · rw [hsame i hi, hnew] at heq
        exact absurd heq (hfresh i hi)
      · rw [hsame j hj, hnew] at heq
        exact absurd heq.symm (hfresh j hj)
      · rfl
    · intro i hi hne
      have hlt : i < h.size := lt_of_le_of_ne (Nat.lt_succ_iff.mp hi) hne
      rw [hsame i hlt]
      exact hs.indexed.last hlt
  have hindexed := hbut.report (Nat.lt_succ_self _)
  rw [hnew] at hindexed
  refine ⟨hs.ordered.push, hindexed, ?_⟩
  rw [bag_succ, hnew, bag_congr hsame]

lemma insert_fail (cmp : UInt64 → UInt64 → ℤ) {context : Option C} (hno : context = none ∨ h.size = h.capacity) :
    (insert cmp h key context).1 = h ∧ (insert cmp h key context).2 ≠ .success := by
  rw [insert]
  split_ifs with hnone hfull
  · exact ⟨rfl, nofun⟩
  · exact ⟨rfl, nofun⟩
  · exact absurd (hno.resolve_right hfull) fun heq => hnone (Option.isNone_iff_eq_none.mpr heq)

structure Inserted (h : Heap C) (elem : Elem C) (h' : Heap C) : Prop where
  size : h'.size = h.size + 1
  inserts : h'.inserts = h.inserts + 1
  contents : bag h'.size h'.elementArray = elem ::ₘ bag h.size h.elementArray

lemma insert_spec (hc : Compare cmp) (hs : Sound cmp g h) {context : Option C} (hcontext : context ≠ none)
    (hfull : h.size ≠ h.capacity) (hfresh : ∀ i < h.size, g (h.elementArray i).handle ≠ g (context, h.inserts)) :
    (insert cmp h key context).2 = .success ∧ Sound cmp g (insert cmp h key context).1 ∧
      Inserted h ⟨key, context, h.inserts⟩ (insert cmp h key context).1 := by
  rw [insert, if_neg fun hnone => hcontext (Option.isNone_iff_eq_none.mp hnone), dif_neg hfull]
  obtain ⟨hready, hindexed, hbag⟩ := @Sound.push C cmp _ _ g h hs ⟨key, context, h.inserts⟩ hfull hfresh
  obtain ⟨hsifted, hordered⟩ := heapUp_spec (h := h.push ⟨key, context, h.inserts⟩ hfull) hc
    (Nat.lt_succ_self h.size) hindexed hready
  have hshape := heapUp_shape cmp (h.push ⟨key, context, h.inserts⟩ hfull) h.size
  refine ⟨rfl, hsifted.sound hshape hordered, hshape.2.1, hshape.2.2.2, ?_⟩
  rw [hshape.2.1]
  exact hsifted.contents.trans hbag

structure Modified (h : Heap C) (key : UInt64) (index : ℕ) (h' : Heap C) : Prop where
  size : h'.size = h.size
  inserts : h'.inserts = h.inserts
  contents : h.elementArray index ::ₘ bag h'.size h'.elementArray =
    { h.elementArray index with key := key } ::ₘ bag h.size h.elementArray

lemma setKey_elementArray : (h.setKey key index).elementArray =
    Function.update h.elementArray index { h.elementArray index with key := key } := rfl

lemma setKey_handle (i : ℕ) : ((h.setKey key index).elementArray i).handle = (h.elementArray i).handle := by
  rw [setKey_elementArray, Function.update_apply]
  split_ifs with hi
  · rw [hi]
    rfl
  · rfl

lemma Sound.setKey_indexed (hs : Sound cmp g h) :
    Indexed g h.size (h.setKey key index).elementArray (h.setKey key index).reports := by
  intro k
  refine ⟨fun i hi j hj heq => ?_, fun i hi hne => ?_⟩
  · rw [setKey_handle, setKey_handle] at heq
    exact (hs.indexed k).inj i hi j hj heq
  · rw [setKey_handle]
    exact (hs.indexed k).last i hi hne

lemma Sifted.modified (hlt : index < h.size) {h' : Heap C} (hs : Sifted g (h.setKey key index) h')
    (hshape : SameShape (h.setKey key index) h') : Modified h key index h' := by
  refine ⟨hshape.2.1, hshape.2.2.2, ?_⟩
  rw [hshape.2.1]
  exact (congrArg _ hs.contents).trans (bag_update hlt)

lemma modifyKey_spec (hc : Compare cmp) (hs : Sound cmp g h) (hlt : index < h.size) :
    (modifyKey cmp h key index).2 = .success ∧ Sound cmp g (modifyKey cmp h key index).1 ∧
      Modified h key index (modifyKey cmp h key index).1 := by
  rw [modifyKey, if_neg (not_le.mpr hlt)]
  dsimp only
  have hparent : 0 < index → Below cmp (h.elementArray (parent h.branchingFactor index)) (h.elementArray index) :=
    fun hpos => hs.ordered index hpos hlt
  split_ifs with hneg hpos
  · have hready : UpReady (Below cmp) h.branchingFactor h.size (h.setKey key index).elementArray index :=
      hs.ordered.upReady (Below.trans hc) hlt hneg.le
    obtain ⟨hsifted, hordered⟩ := heapUp_spec (h := h.setKey key index) hc hlt hs.setKey_indexed hready
    have hshape := heapUp_shape cmp (h.setKey key index) index
    exact ⟨rfl, hsifted.sound hshape hordered, hsifted.modified hlt hshape⟩
  · have hready : DownReady (Below cmp) h.branchingFactor h.size (h.setKey key index).elementArray index := by
      refine hs.ordered.downReady (Below.trans hc) hlt fun h0 => ?_
      exact hc.trans _ _ _ (hparent h0) (hc.le_of_pos hpos)
    obtain ⟨hsifted, hordered⟩ := heapDown_spec (h := h.setKey key index) hc hlt hs.setKey_indexed hready
    have hshape := heapDown_shape cmp (h.setKey key index) index
    exact ⟨rfl, hsifted.sound hshape hordered, hsifted.modified hlt hshape⟩
  · refine ⟨rfl, ⟨?_, hs.setKey_indexed⟩, rfl, rfl, bag_update hlt⟩
    have hup : UpReady (Below cmp) h.branchingFactor h.size (h.setKey key index).elementArray index :=
      hs.ordered.upReady (Below.trans hc) hlt (not_lt.mp hpos)
    refine hup.ordered fun h0 => ?_
    have hp : parent h.branchingFactor index < index := parent_lt h0
    rw [setKey_elementArray, Function.update_of_ne hp.ne, Function.update_self]
    exact hc.trans _ _ _ (hparent h0) (hc.le_of_not_neg hneg)

structure Deleted (h : Heap C) (index : ℕ) (h' : Heap C) : Prop where
  size : h'.size = h.size - 1
  inserts : h'.inserts = h.inserts
  contents : h.elementArray index ::ₘ bag h'.size h'.elementArray = bag h.size h.elementArray

lemma takeLast_elementArray : (h.takeLast index).elementArray = Function.update
    (Function.update h.elementArray (h.size - 1) (h.elementArray index)) index (h.elementArray (h.size - 1)) := rfl

lemma bag_takeLast (hlt : index < h.size) :
    h.elementArray index ::ₘ bag (h.size - 1) (h.takeLast index).elementArray = bag h.size h.elementArray := by
  obtain ⟨n, hn⟩ : ∃ n, h.size = n + 1 := Nat.exists_eq_succ_of_ne_zero (Nat.ne_zero_of_lt hlt)
  have hsize : h.size - 1 = n := by omega
  rw [takeLast_elementArray, hsize, hn, bag_succ]
  rcases (show index ≤ n by omega).lt_or_eq with hin | rfl
  · have hat : Function.update h.elementArray n (h.elementArray index) index = h.elementArray index :=
      Function.update_of_ne hin.ne _ _
    have hbag := bag_update (a := Function.update h.elementArray n (h.elementArray index)) (x :=
        h.elementArray n) hin
    rw [hat] at hbag
    rw [hbag, bag_congr fun i hi => Function.update_of_ne hi.ne _ _]
  · rw [Function.update_eq_self, Function.update_eq_self]

lemma Sound.takeLast_indexed (hs : Sound cmp g h) (hlt : index < h.size) :
    Indexed g (h.size - 1) (h.takeLast index).elementArray (h.takeLast index).reports := by
  have hlast : h.size - 1 < h.size := by omega
  have hall : Indexed g h.size (h.takeLast index).elementArray (h.takeLast index).reports := by
    by_cases hne : h.size - 1 = index
    · have htwice := ((hs.indexed index).report hlt index).report hlt
      rw [takeLast_elementArray, hne, Function.update_eq_self, Function.update_eq_self, Heap.takeLast]
      dsimp only
      rw [hne]
      exact htwice
    · have hmove := ((hs.indexed (h.size - 1)).move hlast hlt hne).report hlt
      rw [swap_right] at hmove
      exact hmove
  intro k
  exact ⟨fun i hi j hj => (hall k).inj i (by omega) j (by omega), fun i hi => (hall k).last i (by omega)⟩

lemma Sound.takeLast_up (hc : Compare cmp) (hs : Sound cmp g h) (hlt : index < h.size - 1)
    (hle : Below cmp (h.elementArray (h.size - 1)) (h.elementArray index)) :
    UpReady (Below cmp) h.branchingFactor (h.size - 1) (h.takeLast index).elementArray index := by
  have hbase : Ordered (Below cmp) h.branchingFactor (h.size - 1)
      (Function.update h.elementArray (h.size - 1) (h.elementArray index)) :=
    (hs.ordered.mono (Nat.sub_le _ _)).congr fun i hi => Function.update_of_ne hi.ne _ _
  refine hbase.upReady (Below.trans hc) hlt ?_
  rw [Function.update_of_ne hlt.ne]
  exact hle

lemma Sound.takeLast_down (hc : Compare cmp) (hs : Sound cmp g h) (hlt : index < h.size - 1)
    (hle : 0 < index → Below cmp (h.elementArray (parent h.branchingFactor index)) (h.elementArray (h.size - 1))) :
    DownReady (Below cmp) h.branchingFactor (h.size - 1) (h.takeLast index).elementArray index := by
  have hbase : Ordered (Below cmp) h.branchingFactor (h.size - 1)
      (Function.update h.elementArray (h.size - 1) (h.elementArray index)) :=
    (hs.ordered.mono (Nat.sub_le _ _)).congr fun i hi => Function.update_of_ne hi.ne _ _
  refine hbase.downReady (Below.trans hc) hlt fun h0 => ?_
  have hp : parent h.branchingFactor index < index := parent_lt h0
  rw [Function.update_of_ne (hp.trans hlt).ne]
  exact hle h0

/-- What `cl_heap_delete` does after it has moved the last element. -/
def afterTakeLast (cmp : UInt64 → UInt64 → ℤ) (h h' : Heap C) (index : ℕ) : Heap C :=
  if index = 0 then heapDown cmp h' index
  else if cmp (h'.elementArray ((index - 1) / h.branchingFactor)).key (h'.elementArray index).key < 0 then
    heapDown cmp h' index
  else if 0 < cmp (h'.elementArray ((index - 1) / h.branchingFactor)).key (h'.elementArray index).key then
    heapUp cmp h' index
  else h'

lemma afterTakeLast_shape (cmp : UInt64 → UInt64 → ℤ) (h h' : Heap C) (index : ℕ) :
    SameShape h' (afterTakeLast cmp h h' index) := by
  rw [afterTakeLast]
  split_ifs
  · exact heapDown_shape cmp h' index
  · exact heapDown_shape cmp h' index
  · exact heapUp_shape cmp h' index
  · exact ⟨rfl, rfl, rfl, rfl⟩

lemma delete_eq (hlt : index < h.size) (hsize : h.size ≠ 1) : delete cmp h index =
    (afterTakeLast cmp h (h.takeLast index) index,
      ((afterTakeLast cmp h (h.takeLast index) index).elementArray
        (afterTakeLast cmp h (h.takeLast index) index).size).context) := by
  rw [delete, if_neg (Nat.ne_zero_of_lt hlt), if_neg (not_le.mpr hlt), if_neg hsize]
  rfl

lemma afterTakeLast_spec (hc : Compare cmp) (hs : Sound cmp g h) (hlt : index < h.size) :
    Sifted g (h.takeLast index) (afterTakeLast cmp h (h.takeLast index) index) ∧
      Ordered (Below cmp) h.branchingFactor (h.size - 1)
          (afterTakeLast cmp h (h.takeLast index) index).elementArray := by
  have hindexed := hs.takeLast_indexed hlt
  have hplace : (h.takeLast index).elementArray index = h.elementArray (h.size - 1) := Function.update_self _ _ _
  have hparent : 0 < index → Below cmp (h.elementArray (parent h.branchingFactor index)) (h.elementArray index) :=
    fun hpos => hs.ordered index hpos hlt
  have hupper : 0 < index → (h.takeLast index).elementArray ((index - 1) / h.branchingFactor) =
      h.elementArray (parent h.branchingFactor index) := by
    intro h0
    have hp : parent h.branchingFactor index < index := parent_lt h0
    rw [takeLast_elementArray]
    refine (Function.update_of_ne hp.ne _ _).trans (Function.update_of_ne ?_ _ _)
    omega
  rcases (Nat.le_sub_one_of_lt hlt).lt_or_eq with hin | hend
  · -- An element of the middle: the last one goes up or down from its place.
    rw [afterTakeLast]
    split_ifs with h0 hneg hpos
    · obtain ⟨hsifted, hordered⟩ := heapDown_spec (h := h.takeLast index) hc hin hindexed
        (hs.takeLast_down hc hin fun hpos => absurd h0 hpos.ne')
      exact ⟨hsifted, hordered⟩
    · rw [hupper (Nat.pos_of_ne_zero h0), hplace] at hneg
      obtain ⟨hsifted, hordered⟩ := heapDown_spec (h := h.takeLast index) hc hin hindexed
        (hs.takeLast_down hc hin fun _ => hneg.le)
      exact ⟨hsifted, hordered⟩
    · rw [hupper (Nat.pos_of_ne_zero h0), hplace] at hpos
      obtain ⟨hsifted, hordered⟩ := heapUp_spec (h := h.takeLast index) hc hin hindexed
        (hs.takeLast_up hc hin (hc.trans _ _ _ (hc.le_of_pos hpos) (hparent (Nat.pos_of_ne_zero h0))))
      exact ⟨hsifted, hordered⟩
    · rw [hupper (Nat.pos_of_ne_zero h0), hplace] at hneg hpos
      have hup := hs.takeLast_up hc hin
        (hc.trans _ _ _ (hc.le_of_not_neg hneg) (hparent (Nat.pos_of_ne_zero h0)))
      refine ⟨⟨rfl, fun _ _ => rfl, hindexed⟩, hup.ordered fun h0 => ?_⟩
      rw [hplace]
      have habove := hupper h0
      change (h.takeLast index).elementArray (parent h.branchingFactor index) = _ at habove
      rw [habove]
      exact not_lt.mp hpos
  · -- The last element itself: nothing is out of order.
    have hsame : ∀ i < h.size - 1, (h.takeLast index).elementArray i = h.elementArray i := by
      intro i hi
      rw [takeLast_elementArray]
      exact (Function.update_of_ne (hend ▸ hi.ne) _ _).trans (Function.update_of_ne hi.ne _ _)
    have hidle : afterTakeLast cmp h (h.takeLast index) index = h.takeLast index := by
      have hdown : heapDown cmp (h.takeLast index) index = h.takeLast index := heapDown_of_le cmp hend.ge
      rw [afterTakeLast]
      split_ifs with h0 hneg hpos
      · exact hdown
      · exact hdown
      · rw [hupper (Nat.pos_of_ne_zero h0), hplace, ← hend] at hpos
        exact absurd hpos (not_lt.mpr (hparent (Nat.pos_of_ne_zero h0)))
      · rfl
    rw [hidle]
    exact ⟨⟨rfl, fun _ _ => rfl, hindexed⟩, (hs.ordered.mono (Nat.sub_le _ _)).congr hsame⟩

lemma delete_spec (hc : Compare cmp) (hs : Sound cmp g h) (hlt : index < h.size) :
    (delete cmp h index).2 = (h.elementArray index).context ∧ Sound cmp g (delete cmp h index).1 ∧
      Deleted h index (delete cmp h index).1 := by
  by_cases hsize : h.size = 1
  · obtain rfl : index = 0 := by omega
    have heq : delete cmp h 0 = ({ h with size := 0, size_le := Nat.zero_le _ }, (h.elementArray 0).context) := by
      rw [delete, if_neg (Nat.ne_zero_of_lt hlt), if_neg (not_le.mpr hlt), if_pos hsize]
    rw [heq]
    refine ⟨rfl, ⟨fun i _ hi => absurd hi (Nat.not_lt_zero i), fun k => ⟨fun i hi => absurd hi (Nat.not_lt_zero i),
      fun i hi => absurd hi (Nat.not_lt_zero i)⟩⟩, ?_, rfl, ?_⟩
    · rw [hsize]
    · rw [hsize]
      rfl
  · rw [delete_eq hlt hsize]
    obtain ⟨hsifted, hordered⟩ := afterTakeLast_spec hc hs hlt
    have hshape := afterTakeLast_shape cmp h (h.takeLast index) index
    have hnew : (afterTakeLast cmp h (h.takeLast index) index).size = h.size - 1 := hshape.2.1
    refine ⟨?_, hsifted.sound hshape hordered, hnew, hshape.2.2.2, ?_⟩
    · have hout : (h.takeLast index).elementArray (h.size - 1) = h.elementArray index := by
        rw [takeLast_elementArray, Function.update_apply]
        split_ifs with heq
        · rw [heq]
        · exact Function.update_self _ _ _
      rw [hnew, hsifted.above (h.size - 1) le_rfl, hout]
    · rw [hnew]
      exact (congrArg _ hsifted.contents).trans (bag_takeLast hlt)

lemma delete_fail (cmp : UInt64 → UInt64 → ℤ) (hle : h.size ≤ index) : delete cmp h index = (h, none) := by
  rw [delete]
  split_ifs <;> rfl

lemma resize_spec (hs : Sound cmp g h) (newSize : ℕ) (realloc : Bool) :
    Sound cmp g (resize h newSize realloc).1 ∧ (resize h newSize realloc).1.size = h.size ∧
      (resize h newSize realloc).1.inserts = h.inserts ∧
      ∀ i < h.size, (resize h newSize realloc).1.elementArray i = h.elementArray i := by
  rw [resize]
  split_ifs with hsize heq hmem
  · exact ⟨hs, rfl, rfl, fun _ _ => rfl⟩
  · exact ⟨hs, rfl, rfl, fun _ _ => rfl⟩
  · have hsame : ∀ i < h.size,
        (if h.size ≤ i ∧ i < newSize then Elem.zero else h.elementArray i) = h.elementArray i :=
      fun i hi => if_neg fun hle => absurd hle.1 (not_le.mpr hi)
    refine ⟨⟨hs.ordered.congr hsame, fun k => ⟨fun i hi j hj => ?_, fun i hi => ?_⟩⟩, rfl, rfl, hsame⟩
    · dsimp only
      rw [hsame i hi, hsame j hj]
      exact (hs.indexed k).inj i hi j hj
    · dsimp only
      rw [hsame i hi]
      exact (hs.indexed k).last i hi
  · exact ⟨hs, rfl, rfl, fun _ _ => rfl⟩

end Operations

section Run

variable (cmp)

def Heap.pair (h : Heap C) (i : ℕ) : UInt64 × Option C := ((h.elementArray i).key, (h.elementArray i).context)

def contents (h : Heap C) : Multiset (UInt64 × Option C) := bag h.size h.pair

/-- What an operation would do to a bag of pairs. -/
def Predicted (h : Heap C) : Op C → Heap C × Result C → Prop
  | .insert key context, (h', r) =>
    (context ≠ none ∧ h.size ≠ h.capacity ∧ r = .status .success ∧ contents h' = (key, context) ::ₘ contents h) ∨
      ((context = none ∨ h.size = h.capacity) ∧ r ≠ .status .success ∧ h' = h)
  | .modifyKey key i, (h', r) =>
    (i < h.size ∧ r = .status .success ∧ h.pair i ::ₘ contents h' = (key, (h.pair i).2) ::ₘ contents h) ∨
      (h.size ≤ i ∧ r ≠ .status .success ∧ h' = h)
  | .delete i, (h', r) =>
    (i < h.size ∧ r = .context (h.pair i).2 ∧ h.pair i ::ₘ contents h' = contents h) ∨
      (h.size ≤ i ∧ r = .context none ∧ h' = h)
  | .extractRoot, (h', r) =>
    (∃ x, r = .context x.2 ∧ x ::ₘ contents h' = contents h ∧ ∀ y ∈ contents h, cmp x.1 y.1 ≤ 0) ∨
      (contents h = 0 ∧ r = .context none ∧ h' = h)
  | .resize _ _, (h', _) => contents h' = contents h

/-- A context is stored only while it is not there. -/
def Fresh (h : Heap C) : List (Op C) → Prop
  | [] => True
  | op :: ops => (∀ key c, op = .insert key c → ∀ i < h.size, (h.elementArray i).context ≠ c) ∧
      Fresh (step cmp h op).1 ops

variable {cmp} {T : Type*} [DecidableEq T] {g : Option C × ℕ → T} {h : Heap C} {op : Op C}

lemma contents_eq (h : Heap C) : contents h = (bag h.size h.elementArray).map fun e => (e.key, e.context) := by
  rw [contents, bag, bag, Multiset.map_map]
  rfl

lemma Sound.step (hc : Compare cmp) (hs : Sound cmp g h)
    (hfresh : ∀ key c, op = .insert key c → ∀ i < h.size, g (h.elementArray i).handle ≠ g (c, h.inserts)) :
    Sound cmp g (step cmp h op).1 := by
  cases op with
  | insert key context =>
    by_cases hno : context = none ∨ h.size = h.capacity
    · rw [ClHeap.step, Prod.map_fst, id, (insert_fail cmp hno).1]
      exact hs
    · rw [not_or] at hno
      exact (insert_spec hc hs hno.1 hno.2 (hfresh key context rfl)).2.1
  | modifyKey key index =>
    rcases lt_or_ge index h.size with hlt | hle
    · exact (modifyKey_spec hc hs hlt).2.1
    · rw [ClHeap.step, modifyKey, if_pos hle]
      exact hs
  | delete index =>
    rcases lt_or_ge index h.size with hlt | hle
    · exact (delete_spec hc hs hlt).2.1
    · rw [ClHeap.step, delete_fail cmp hle]
      exact hs
  | extractRoot =>
    rcases lt_or_ge 0 h.size with hlt | hle
    · exact (delete_spec hc hs hlt).2.1
    · rw [ClHeap.step, extractRoot, delete_fail cmp hle]
      exact hs
  | resize newSize realloc => exact (resize_spec hs newSize realloc).1

def Numbered (h : Heap C) : Prop := ∀ i < h.size, (h.elementArray i).serial < h.inserts

lemma numbered_iff : Numbered h ↔ ∀ e ∈ bag h.size h.elementArray, e.serial < h.inserts := by
  constructor
  · intro hn e he
    obtain ⟨i, hi, rfl⟩ := mem_bag.mp he
    exact hn i hi
  · intro hn i hi
    exact hn _ (mem_bag.mpr ⟨i, hi, rfl⟩)

lemma Numbered.fresh (hn : Numbered h) (c : Option C) (i : ℕ) (hi : i < h.size) :
    ((h.elementArray i).handle).2 ≠ (c, h.inserts).2 := (hn i hi).ne

lemma Inserted.numbered {h' : Heap C} {e : Elem C} (hi : Inserted h e h') (hn : Numbered h)
    (he : e.serial = h.inserts) : Numbered h' := by
  rw [numbered_iff] at hn ⊢
  intro e' hmem
  rw [hi.contents, Multiset.mem_cons] at hmem
  rw [hi.inserts]
  rcases hmem with rfl | hmem
  · rw [he]
    exact Nat.lt_succ_self _
  · exact (hn e' hmem).trans (Nat.lt_succ_self _)

lemma Modified.numbered {h' : Heap C} {key : UInt64} {index : ℕ} (hm : Modified h key index h') (hn : Numbered h)
    (hlt : index < h.size) : Numbered h' := by
  have hi := hn index hlt
  rw [numbered_iff] at hn ⊢
  intro e hmem
  rw [hm.inserts]
  have hmem' := Multiset.mem_cons_of_mem (b := h.elementArray index) hmem
  rw [hm.contents, Multiset.mem_cons] at hmem'
  rcases hmem' with rfl | hmem'
  · exact hi
  · exact hn e hmem'

lemma Deleted.numbered {h' : Heap C} {index : ℕ} (hd : Deleted h index h') (hn : Numbered h) : Numbered h' := by
  rw [numbered_iff] at hn ⊢
  intro e hmem
  have hmem' := Multiset.mem_cons_of_mem (b := h.elementArray index) hmem
  rw [hd.contents] at hmem'
  rw [hd.inserts]
  exact hn e hmem'

lemma Numbered.step (hc : Compare cmp) (hs : Sound cmp Prod.snd h) (hn : Numbered h) :
    Numbered (ClHeap.step cmp h op).1 := by
  cases op with
  | insert key context =>
    by_cases hno : context = none ∨ h.size = h.capacity
    · rw [ClHeap.step, Prod.map_fst, id, (insert_fail cmp hno).1]
      exact hn
    · rw [not_or] at hno
      exact (insert_spec hc hs hno.1 hno.2 (hn.fresh context)).2.2.numbered hn rfl
  | modifyKey key index =>
    rcases lt_or_ge index h.size with hlt | hle
    · exact (modifyKey_spec hc hs hlt).2.2.numbered hn hlt
    · rw [ClHeap.step, modifyKey, if_pos hle]
      exact hn
  | delete index =>
    rcases lt_or_ge index h.size with hlt | hle
    · exact (delete_spec hc hs hlt).2.2.numbered hn
    · rw [ClHeap.step, delete_fail cmp hle]
      exact hn
  | extractRoot =>
    rcases lt_or_ge 0 h.size with hlt | hle
    · exact (delete_spec hc hs hlt).2.2.numbered hn
    · rw [ClHeap.step, extractRoot, delete_fail cmp hle]
      exact hn
  | resize newSize realloc =>
    obtain ⟨-, hsize, hinserts, hsame⟩ := resize_spec hs newSize realloc
    intro i hi
    change i < (resize h newSize realloc).1.size at hi
    change ((resize h newSize realloc).1.elementArray i).serial < (resize h newSize realloc).1.inserts
    rw [hsize] at hi
    rw [hinserts, hsame i hi]
    exact hn i hi

lemma Deleted.contents_pair {h' : Heap C} {index : ℕ} (hd : Deleted h index h') :
    h.pair index ::ₘ ClHeap.contents h' = ClHeap.contents h := by
  have hmap := congrArg (Multiset.map fun e : Elem C => (e.key, e.context)) hd.contents
  rw [Multiset.map_cons] at hmap
  rw [contents_eq, contents_eq]
  exact hmap

lemma predicted_step (hc : Compare cmp) (hs : Sound cmp Prod.snd h) (hn : Numbered h) (op : Op C) :
    Predicted cmp h op (ClHeap.step cmp h op) := by
  cases op with
  | insert key context =>
    by_cases hno : context = none ∨ h.size = h.capacity
    · obtain ⟨hsame, hr⟩ : (insert cmp h key context).1 = h ∧ _ := insert_fail cmp hno
      exact .inr ⟨hno, fun heq => hr (Result.status.inj heq), hsame⟩
    · rw [not_or] at hno
      obtain ⟨hr, -, hi⟩ : (insert cmp h key context).2 = .success ∧
          _ := insert_spec hc hs hno.1 hno.2 (hn.fresh context)
      refine .inl ⟨hno.1, hno.2, congrArg Result.status hr, ?_⟩
      have hmap := congrArg (Multiset.map fun e : Elem C => (e.key, e.context)) hi.contents
      rw [Multiset.map_cons] at hmap
      rw [contents_eq, contents_eq]
      exact hmap
  | modifyKey key index =>
    rcases lt_or_ge index h.size with hlt | hle
    · obtain ⟨hr, -, hm⟩ : (modifyKey cmp h key index).2 = .success ∧ _ := modifyKey_spec hc hs hlt
      refine .inl ⟨hlt, congrArg Result.status hr, ?_⟩
      have hmap := congrArg (Multiset.map fun e : Elem C => (e.key, e.context)) hm.contents
      rw [Multiset.map_cons, Multiset.map_cons] at hmap
      rw [contents_eq, contents_eq]
      exact hmap
    · rw [ClHeap.step, modifyKey, if_pos hle]
      exact .inr ⟨hle, nofun, rfl⟩
  | delete index =>
    rcases lt_or_ge index h.size with hlt | hle
    · obtain ⟨hr, -, hd⟩ := delete_spec hc hs hlt
      exact .inl ⟨hlt, congrArg Result.context hr, hd.contents_pair⟩
    · rw [ClHeap.step, delete_fail cmp hle]
      exact .inr ⟨hle, rfl, rfl⟩
  | extractRoot =>
    rcases lt_or_ge 0 h.size with hlt | hle
    · obtain ⟨hr, -, hd⟩ := delete_spec hc hs hlt
      refine .inl ⟨h.pair 0, congrArg Result.context hr, hd.contents_pair, fun y hy => ?_⟩
      obtain ⟨i, hi, rfl⟩ := mem_bag.mp hy
      exact hs.ordered.root_le (Below.trans hc) (fun x => hc.refl x.key) hi
    · rw [ClHeap.step, extractRoot, delete_fail cmp hle]
      refine .inr ⟨?_, rfl, rfl⟩
      rw [contents, Nat.le_zero.mp hle]
      rfl
  | resize newSize realloc =>
    obtain ⟨-, hsize, -, hsame⟩ := resize_spec hs newSize realloc
    change contents (resize h newSize realloc).1 = contents h
    rw [contents_eq, contents_eq, hsize, bag_congr hsame]

lemma run_sound (hc : Compare cmp) (ops : List (Op C)) (hs : Sound cmp Prod.snd h) (hn : Numbered h) :
    Sound cmp Prod.snd (run cmp h ops) ∧ Numbered (run cmp h ops) := by
  induction ops generalizing h with
  | nil => exact ⟨hs, hn⟩
  | cons op ops ih => exact ih (hs.step hc fun _ c _ => hn.fresh c) (hn.step hc hs)

lemma run_sound_context [DecidableEq C] (hc : Compare cmp) (ops : List (Op C)) (hs : Sound cmp Prod.fst h)
    (hfresh : Fresh cmp h ops) : Sound cmp Prod.fst (run cmp h ops) := by
  induction ops generalizing h with
  | nil => exact hs
  | cons op ops ih => exact ih (hs.step hc hfresh.1) hfresh.2

lemma step_branchingFactor (cmp : UInt64 → UInt64 → ℤ) (h : Heap C) (op : Op C) :
    (step cmp h op).1.branchingFactor = h.branchingFactor := by
  have hdelete : ∀ index, (delete cmp h index).1.branchingFactor = h.branchingFactor := by
    intro index
    rcases lt_or_ge index h.size with hlt | hle
    · by_cases hsize : h.size = 1
      · rw [delete, if_neg (Nat.ne_zero_of_lt hlt), if_neg (not_le.mpr hlt), if_pos hsize]
      · rw [delete_eq hlt hsize]
        exact (afterTakeLast_shape cmp h (h.takeLast index) index).1
    · rw [delete_fail cmp hle]
  cases op with
  | insert key context =>
    rw [step, Prod.map_fst, id, insert]
    split_ifs
    · rfl
    · rfl
    · exact (heapUp_shape cmp _ _).1
  | modifyKey key index =>
    rw [step, Prod.map_fst, id, modifyKey]
    split_ifs
    · rfl
    · dsimp only
      split_ifs
      · exact (heapUp_shape cmp _ _).1
      · exact (heapDown_shape cmp _ _).1
      · rfl
  | delete index => exact hdelete index
  | extractRoot => exact hdelete 0
  | resize newSize realloc =>
    rw [step, Prod.map_fst, id, resize]
    split_ifs <;> rfl

lemma run_branchingFactor (cmp : UInt64 → UInt64 → ℤ) (h : Heap C) (ops : List (Op C)) :
    (run cmp h ops).branchingFactor = h.branchingFactor := by
  induction ops generalizing h with
  | nil => rfl
  | cons op ops ih => exact (ih _).trans (step_branchingFactor cmp h op)

lemma sound_init {maxSize d : ℕ} {malloc : Bool} (hinit : init maxSize d malloc = some h) :
    h.branchingFactor = d ∧ Numbered h ∧ Sound cmp g h := by
  obtain ⟨hd, hsize⟩ : h.branchingFactor = d ∧ h.size = 0 := by
    rw [init] at hinit
    split_ifs at hinit
    obtain rfl := Option.some.inj hinit
    exact ⟨rfl, rfl⟩
  have hnone : ∀ i, ¬i < h.size := fun i => hsize ▸ Nat.not_lt_zero i
  exact ⟨hd, fun i hi => absurd hi (hnone i), fun i _ hi => absurd hi (hnone i),
    fun k => ⟨fun i hi => absurd hi (hnone i), fun i hi => absurd hi (hnone i)⟩⟩

/-- Every operation on a heap that `cl_heap_init` has made keeps parents below their children and changes the
stored pairs as it would those of a bag, `cl_heap_extract_root` takes a least key, and the index last reported
for a stored element is its place. Reports go to the contexts: they tell the elements apart if no context is
stored twice at a time. -/
theorem heap_sound [DecidableEq C] (hc : Compare cmp) {maxSize d : ℕ} {malloc : Bool} {h₀ : Heap C}
    (hinit : init maxSize d malloc = some h₀) (ops : List (Op C)) :
    (∀ i, 0 < i → i < (run cmp h₀ ops).size →
      cmp ((run cmp h₀ ops).elementArray ((i - 1) / d)).key ((run cmp h₀ ops).elementArray i).key ≤ 0) ∧
    (∀ op, Predicted cmp (run cmp h₀ ops) op (step cmp (run cmp h₀ ops) op)) ∧
    (∀ i < (run cmp h₀ ops).size,
      lastReport Prod.snd ((run cmp h₀ ops).elementArray i).serial (run cmp h₀ ops).reports = some i) ∧
    (Fresh cmp h₀ ops → ∀ i < (run cmp h₀ ops).size,
      lastReport Prod.fst ((run cmp h₀ ops).elementArray i).context (run cmp h₀ ops).reports = some i) := by
  obtain ⟨hd, hnum, hstart⟩ : _ ∧ _ ∧ Sound cmp Prod.snd h₀ := sound_init hinit
  obtain ⟨-, -, hstart'⟩ : _ ∧ _ ∧ Sound cmp Prod.fst h₀ := sound_init hinit
  obtain ⟨hs, hn⟩ := run_sound hc ops hstart hnum
  have hb := (run_branchingFactor cmp h₀ ops).trans hd
  refine ⟨fun i hi hin => ?_, predicted_step hc hs hn, fun i hi => hs.indexed.last hi, fun hfresh i hi => ?_⟩
  · have hedge := hs.ordered i hi hin
    rw [hb] at hedge
    exact hedge
  · exact (run_sound_context hc ops hstart' hfresh).indexed.last hi

lemma compare_compareKeys : Compare compareKeys := by
  have hcases : ∀ a b, compareKeys a b ≤ 0 ↔ a.toNat ≤ b.toNat := by
    intro a b
    simp only [compareKeys, UInt64.lt_iff_toNat_lt]
    split_ifs <;> omega
  constructor
  · intro a b
    simp only [compareKeys, UInt64.lt_iff_toNat_lt]
    split_ifs <;> omega
  · intro a b c
    rw [hcases, hcases, hcases]
    exact le_trans

theorem heap_sound_default : ∃ h₀ : Heap Unit, init 2 4 true = some h₀ ∧
    ∀ op, Predicted compareKeys (run compareKeys h₀ [.insert 7 (some ()), .insert 3 (some ())]) op
      (step compareKeys (run compareKeys h₀ [.insert 7 (some ()), .insert 3 (some ())]) op) :=
  ⟨_, rfl, (@heap_sound Unit _ _ compare_compareKeys 2 4 true _ rfl _).2.1⟩

end Run

end OpenSM.ClHeap
