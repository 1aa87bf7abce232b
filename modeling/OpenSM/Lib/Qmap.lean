import Mathlib

/-! Tables kept in the order of their keys, in which a key has one entry. -/

namespace OpenSM.Lib.Qmap

variable {κ β : Type*} [LinearOrder κ]

def Before (a b : κ × β) : Prop := a.1 < b.1

def insertList (k : κ) (v : β) : List (κ × β) → List (κ × β)
  | [] => [(k, v)]
  | e :: l => if k < e.1 then (k, v) :: e :: l else if k = e.1 then e :: l else e :: insertList k v l

def getList (k : κ) : List (κ × β) → Option β
  | [] => none
  | e :: l => if k = e.1 then some e.2 else getList k l

lemma insertList_cons (k : κ) (v : β) (e : κ × β) (l : List (κ × β)) : insertList k v (e :: l) =
    if k < e.1 then (k, v) :: e :: l else if k = e.1 then e :: l else e :: insertList k v l :=
  rfl

@[simp] lemma getList_nil (k : κ) : getList k ([] : List (κ × β)) = none := rfl

lemma getList_cons (k : κ) (e : κ × β) (l : List (κ × β)) :
    getList k (e :: l) = if k = e.1 then some e.2 else getList k l :=
  rfl

lemma mem_insertList {k : κ} {v : β} {l : List (κ × β)} {e : κ × β} (h : e ∈ insertList k v l) :
    e = (k, v) ∨ e ∈ l := by
  induction l with
  | nil => exact .inl (List.mem_singleton.mp h)
  | cons x l ih =>
    rw [insertList_cons] at h
    split_ifs at h
    · simpa using h
    · exact .inr h
    · rcases List.mem_cons.mp h with rfl | h
      · exact .inr List.mem_cons_self
      · exact (ih h).imp_right (List.mem_cons_of_mem x)

lemma pairwise_insertList {k : κ} {v : β} {l : List (κ × β)} (h : l.Pairwise Before) :
    (insertList k v l).Pairwise Before := by
  induction l with
  | nil => exact List.pairwise_singleton _ _
  | cons x l ih =>
    obtain ⟨hx, hl⟩ := List.pairwise_cons.mp h
    rw [insertList_cons]
    split_ifs with hlt heq
    · refine List.pairwise_cons.mpr ⟨?_, h⟩
      intro e he
      rcases List.mem_cons.mp he with rfl | he
      · exact hlt
      · exact hlt.trans (hx e he)
    · exact h
    · refine List.pairwise_cons.mpr ⟨?_, ih hl⟩
      intro e he
      rcases mem_insertList he with rfl | he
      · exact lt_of_le_of_ne (not_lt.mp hlt) (Ne.symm heq)
      · exact hx e he

lemma getList_eq_some {k : κ} {v : β} {l : List (κ × β)} (h : l.Pairwise Before) :
    getList k l = some v ↔ (k, v) ∈ l := by
  induction l with
  | nil => simp
  | cons x l ih =>
    obtain ⟨hx, hl⟩ := List.pairwise_cons.mp h
    rw [getList_cons]
    split_ifs with hk
    · subst hk
      refine ⟨fun hv => ?_, fun hv => ?_⟩
      · obtain rfl := Option.some.inj hv
        exact List.mem_cons_self
      · rcases List.mem_cons.mp hv with hv | hv
        · exact congrArg (fun e => some e.2) hv.symm
        · exact absurd (hx _ hv) (lt_irrefl _)
    · rw [ih hl, List.mem_cons]
      exact ⟨.inr, fun hv => hv.resolve_left fun hv => hk (congrArg Prod.fst hv)⟩

lemma insertList_of_mem {k : κ} {v w : β} {l : List (κ × β)} (h : l.Pairwise Before) (hk : (k, w) ∈ l) :
    insertList k v l = l := by
  induction l with
  | nil => simp at hk
  | cons x l ih =>
    obtain ⟨hx, hl⟩ := List.pairwise_cons.mp h
    rw [insertList_cons]
    rcases List.mem_cons.mp hk with rfl | hk
    · simp
    · have hlt : x.1 < k := hx _ hk
      rw [if_neg (not_lt.mpr hlt.le), if_neg hlt.ne', ih hl hk]

lemma perm_insertList {k : κ} {v : β} {l : List (κ × β)} (hk : ∀ w, (k, w) ∉ l) :
    (insertList k v l).Perm ((k, v) :: l) := by
  induction l with
  | nil => exact .refl _
  | cons x l ih =>
    rw [insertList_cons]
    split_ifs with hlt heq
    · exact .refl _
    · exact absurd List.mem_cons_self (heq ▸ hk x.2)
    · have hl := ih fun w hw => hk w (List.mem_cons_of_mem x hw)
      exact (hl.cons x).trans (.swap _ _ _)

end OpenSM.Lib.Qmap

namespace OpenSM.Lib

open Qmap

structure Qmap (κ β : Type*) [LinearOrder κ] where
  entries : List (κ × β)
  sorted : entries.Pairwise Before

namespace Qmap

variable {κ β : Type*} [LinearOrder κ]

instance : EmptyCollection (Qmap κ β) := ⟨⟨[], .nil⟩⟩

def get (m : Qmap κ β) (k : κ) : Option β := getList k m.entries

/-- `cl_qmap_insert`: a key that is there already keeps its value. -/
def insert (m : Qmap κ β) (k : κ) (v : β) : Qmap κ β := ⟨insertList k v m.entries, pairwise_insertList m.sorted⟩

def filter (m : Qmap κ β) (p : κ → Bool) : Qmap κ β :=
  ⟨m.entries.filter fun e => p e.1, m.sorted.filter _⟩

def remove (m : Qmap κ β) (k : κ) : Qmap κ β := m.filter (· ≠ k)

def update (k : κ) (f : β → β) (e : κ × β) : κ × β := (e.1, if e.1 = k then f e.2 else e.2)

def modify (m : Qmap κ β) (k : κ) (f : β → β) : Qmap κ β :=
  ⟨m.entries.map (update k f), List.pairwise_map.mpr m.sorted⟩

def keys (m : Qmap κ β) : List κ := m.entries.map Prod.fst

def onValue {γ : Type*} (f : β → γ) (e : κ × β) : κ × γ := (e.1, f e.2)

def map {γ : Type*} (m : Qmap κ β) (f : β → γ) : Qmap κ γ :=
  ⟨m.entries.map (onValue f), List.pairwise_map.mpr m.sorted⟩

def countP (m : Qmap κ β) (p : β → Bool) : ℕ := m.entries.countP fun e => p e.2

lemma get_eq_some {m : Qmap κ β} {k : κ} {v : β} : m.get k = some v ↔ (k, v) ∈ m.entries :=
  getList_eq_some m.sorted

lemma get_eq_none {m : Qmap κ β} {k : κ} : m.get k = none ↔ ∀ v, (k, v) ∉ m.entries := by
  simp only [Option.eq_none_iff_forall_ne_some, ne_eq, get_eq_some]

@[simp] lemma get_empty (k : κ) : (∅ : Qmap κ β).get k = none := rfl

lemma ext_get {m n : Qmap κ β} (h : ∀ k, m.get k = n.get k) : m = n := by
  have hmem : ∀ e, e ∈ m.entries ↔ e ∈ n.entries := fun e => by
    rw [← get_eq_some (k := e.1), ← get_eq_some (k := e.1), h]
  have hnodup : ∀ q : Qmap κ β, q.entries.Nodup :=
      fun q => q.sorted.imp fun hab hne => hab.ne (congrArg Prod.fst hne)
  have hperm := (List.perm_ext_iff_of_nodup (hnodup m) (hnodup n)).mpr hmem
  have heq := hperm.eq_of_pairwise (fun a b _ _ hab hba => absurd hab (lt_asymm hba)) m.sorted n.sorted
  cases m
  cases n
  simp_all

lemma insert_of_get {m : Qmap κ β} {k : κ} {v w : β} (h : m.get k = some w) : m.insert k v = m := by
  have hl := insertList_of_mem (v := v) m.sorted (get_eq_some.mp h)
  cases m
  simp_all [insert]

lemma perm_insert {m : Qmap κ β} {k : κ} {v : β} (h : m.get k = none) :
    (m.insert k v).entries.Perm ((k, v) :: m.entries) :=
  perm_insertList (get_eq_none.mp h)

lemma get_insert (m : Qmap κ β) (k k' : κ) (v : β) :
    (m.insert k v).get k' = if k' = k then some ((m.get k).getD v) else m.get k' := by
  cases hk : m.get k with
  | some w =>
    rw [insert_of_get hk]
    split_ifs with heq
    · simp [heq, hk]
    · rfl
  | none =>
    refine Option.ext fun w => ?_
    rw [get_eq_some, (perm_insert hk).mem_iff, List.mem_cons]
    split_ifs with heq
    · subst heq
      have hno := get_eq_none.mp hk w
      simp [hno, eq_comm]
    · rw [get_eq_some]
      simp [heq]

lemma get_filter (m : Qmap κ β) (p : κ → Bool) (k : κ) : (m.filter p).get k = if p k then m.get k else none := by
  refine Option.ext fun w => ?_
  rw [get_eq_some]
  simp only [filter, List.mem_filter]
  split_ifs with hp
  · simp [hp, get_eq_some]
  · simp [hp]

lemma get_remove (m : Qmap κ β) (k k' : κ) : (m.remove k).get k' = if k' = k then none else m.get k' := by
  rw [remove, get_filter]
  by_cases heq : k' = k <;> simp [heq]

lemma get_modify (m : Qmap κ β) (k k' : κ) (f : β → β) :
    (m.modify k f).get k' = if k' = k then (m.get k).map f else m.get k' := by
  refine Option.ext fun w => ?_
  rw [get_eq_some]
  simp only [modify, update, List.mem_map, Prod.mk.injEq, Prod.exists]
  split_ifs with heq
  · subst heq
    simp only [Option.map_eq_some_iff, get_eq_some]
    refine ⟨?_, ?_⟩
    · rintro ⟨a, b, hab, rfl, hw⟩
      exact ⟨b, hab, by simpa using hw⟩
    · rintro ⟨b, hb, rfl⟩
      exact ⟨k', b, hb, rfl, by simp⟩
  · rw [get_eq_some]
    refine ⟨?_, ?_⟩
    · rintro ⟨a, b, hab, rfl, hw⟩
      rw [if_neg heq] at hw
      exact hw ▸ hab
    · exact fun hw => ⟨k', w, hw, rfl, if_neg heq⟩

lemma perm_remove {m : Qmap κ β} {k : κ} {v : β} (h : m.get k = some v) :
    m.entries.Perm ((k, v) :: (m.remove k).entries) := by
  have hins : (m.remove k).insert k v = m := by
    refine ext_get fun k' => ?_
    rw [get_insert, get_remove, get_remove, if_pos rfl]
    split_ifs with heq
    · simp [heq, h]
    · rfl
  have hperm := perm_insert (m := m.remove k) (k := k) (v := v) (by rw [get_remove, if_pos rfl])
  rwa [hins] at hperm

lemma modify_eq {m : Qmap κ β} {k : κ} {v : β} (f : β → β) (h : m.get k = some v) :
    m.modify k f = (m.remove k).insert k (f v) := by
  refine ext_get fun k' => ?_
  rw [get_modify, get_insert, get_remove, get_remove, if_pos rfl, h]
  split_ifs <;> rfl

lemma countP_insert {m : Qmap κ β} {k : κ} {v : β} (p : β → Bool) (h : m.get k = none) :
    (m.insert k v).countP p = m.countP p + if p v then 1 else 0 := by
  simp only [countP, (perm_insert h).countP_eq, List.countP_cons]

lemma countP_remove {m : Qmap κ β} {k : κ} {v : β} (p : β → Bool) (h : m.get k = some v) :
    m.countP p = (m.remove k).countP p + if p v then 1 else 0 := by
  simp only [countP, (perm_remove h).countP_eq, List.countP_cons]

lemma countP_modify {m : Qmap κ β} {k : κ} {v : β} (p : β → Bool) (f : β → β) (h : m.get k = some v) :
    (m.modify k f).countP p + (if p v then 1 else 0) = m.countP p + if p (f v) then 1 else 0 := by
  have hnone : (m.remove k).get k = none := by rw [get_remove, if_pos rfl]
  rw [modify_eq f h, countP_insert p hnone, countP_remove p h]
  omega

lemma countP_pos {m : Qmap κ β} {p : β → Bool} : 0 < m.countP p ↔ ∃ k v, m.get k = some v ∧ p v = true := by
  simp only [countP, List.countP_pos_iff, Prod.exists, get_eq_some]

lemma countP_eq_zero {m : Qmap κ β} {p : β → Bool} :
    m.countP p = 0 ↔ ∀ k v, m.get k = some v → p v = false := by
  simp only [countP, List.countP_eq_zero, Prod.forall, get_eq_some, Bool.not_eq_true]

section Map

variable {γ : Type*} (f : β → γ)

@[simp] lemma map_empty : (∅ : Qmap κ β).map f = ∅ := rfl

lemma get_map (m : Qmap κ β) (k : κ) : (m.map f).get k = (m.get k).map f := by
  refine Option.ext fun w => ?_
  simp only [get_eq_some, Option.map_eq_some_iff, map, onValue, List.mem_map, Prod.mk.injEq, Prod.exists]
  refine ⟨?_, ?_⟩
  · rintro ⟨a, b, hab, rfl, hw⟩
    exact ⟨b, hab, hw⟩
  · rintro ⟨b, hb, hw⟩
    exact ⟨k, b, hb, rfl, hw⟩

lemma countP_map (m : Qmap κ β) (p : γ → Bool) : (m.map f).countP p = m.countP fun v => p (f v) := by
  simp [countP, map, onValue, List.countP_map, Function.comp_def]

lemma map_insert (m : Qmap κ β) (k : κ) (v : β) : (m.insert k v).map f = (m.map f).insert k (f v) := by
  refine ext_get fun k' => ?_
  simp only [get_map, get_insert]
  cases m.get k <;> split_ifs <;> rfl

lemma map_filter (m : Qmap κ β) (p : κ → Bool) : (m.filter p).map f = (m.map f).filter p := by
  refine ext_get fun k' => ?_
  simp only [get_map, get_filter]
  split_ifs <;> rfl

lemma map_remove (m : Qmap κ β) (k : κ) : (m.remove k).map f = (m.map f).remove k := map_filter f m _

lemma map_modify (m : Qmap κ β) (k : κ) (h : β → β) (h' : γ → γ) (hh : ∀ v, f (h v) = h' (f v)) :
    (m.modify k h).map f = (m.map f).modify k h' := by
  refine ext_get fun k' => ?_
  simp only [get_map, get_modify]
  cases m.get k <;> split_ifs <;> simp [hh]

end Map

lemma mem_keys {m : Qmap κ β} {k : κ} : k ∈ m.keys ↔ ∃ v, m.get k = some v := by
  simp [keys, get_eq_some]

lemma sorted_keys (m : Qmap κ β) : m.keys.Pairwise (· < ·) := List.pairwise_map.mpr m.sorted

lemma nodup_keys (m : Qmap κ β) : m.keys.Nodup :=
  List.pairwise_map.mpr (m.sorted.imp fun h => h.ne)

end Qmap

end OpenSM.Lib
