import OpenSM.Mesh

/-! `reorder_links` and `sort_switches`: the graph stays the same up to its numbers. -/

namespace OpenSM.LashMesh

variable {P L : Type}

section Links

/-- The slots of a node, NULL where the link has been taken, and the links and axes taken so far. -/
structure Taking (L : Type) where
  slots : List (Option L)
  taken : List (L × ℕ)

def takeSlot (nd : MeshNode L) (wanted : ℕ → Bool) (st : Taking L) (l : ℕ) : Taking L :=
  match st.slots[l]? with
  | some (some x) => if wanted (nd.axes l) then ⟨st.slots.set l none, st.taken ++ [(x, nd.axes l)]⟩ else st
  | _ => st

def takeSlots (nd : MeshNode L) (wanted : ℕ → Bool) (st : Taking L) : Taking L :=
  (List.range nd.links.length).foldl (takeSlot nd wanted) st

def axisOrder (mesh : Mesh) (nd : MeshNode L) : List ℕ :=
  (List.range mesh.dimension).flatMap fun i => [1, 2].map fun k =>
    let j := mesh.dimOrder i
    let c := 2 * j + k
    if 0 < nd.coord j then opposite nd c else c

def reorderNodeLinks (mesh : Mesh) (nd : MeshNode L) : MeshNode L :=
  let st := (axisOrder mesh nd).foldl (fun st c => takeSlots nd (· = c) st) ⟨nd.links.map some, []⟩
  let st := takeSlots nd (fun _ => true) st
  { nd with
    links := st.taken.map Prod.fst
    axes := fun i => (st.taken[i]?).elim (nd.axes i) Prod.snd }

/-- Whether all the memory was there, and the switches; the links of a switch stay as they are if it was not. -/
def reorderLinks (alloc : ℕ → Bool) (mesh : Mesh) : ℕ → List (Switch P L) → Bool × List (Switch P L)
  | _, [] => (true, [])
  | sw, s :: ss =>
    if alloc sw then
      let rest := reorderLinks alloc mesh (sw + 1) ss
      (rest.1, { s with node := reorderNodeLinks mesh s.node } :: rest.2)
    else (false, s :: ss)

end Links

section Switches

def compareSwitches (mesh : Mesh) (switches : List (Switch P L)) (a b : ℕ) : ℤ :=
  match switches[a]?, switches[b]? with
  | some s1, some s2 =>
    (((List.range mesh.dimension).map fun i =>
      s1.node.coord (mesh.dimOrder i) - s2.node.coord (mesh.dimOrder i)).find? (· ≠ 0)).getD 0
  | _, _ => 0

def reverseOf (order : List ℕ) : ℕ → ℕ :=
  order.zipIdx.foldl (fun reverse x => Function.update reverse x.1 x.2) fun _ => 0

variable [DecidableEq L]

/-- The `switch_id` of link objects, one after the other. -/
def renumber (reverse : ℕ → ℕ) (link : L → Link) (ls : List L) : L → Link :=
  ls.foldl (fun link x => Function.update link x { link x with switchId := reverse (link x).switchId }) link

def sortStep (old : List (Switch P L)) (reverse : ℕ → ℕ) (st : Lash P L) (x : ℕ × ℕ) : Lash P L :=
  match old[x.1]? with
  | some s => ⟨st.switches ++ [{ s with id := x.2 }], renumber reverse st.link s.node.links⟩
  | none => st

def sortSwitches (qsort : (ℕ → ℕ → ℤ) → List ℕ → List ℕ) (alloc : Bool) (mesh : Mesh) (g : Lash P L) : Lash P L :=
  if alloc then
    let order := qsort (compareSwitches mesh g.switches) (List.range g.switches.length)
    order.zipIdx.foldl (sortStep g.switches (reverseOf order)) ⟨[], g.link⟩
  else g

def reorder (qsort : (ℕ → ℕ → ℤ) → List ℕ → List ℕ) (alloc : ℕ → Bool) (sortAlloc : Bool) (mesh : Mesh)
    (g : Lash P L) :
    Bool × Lash P L :=
  let r := reorderLinks alloc mesh 0 g.switches
  if r.1 then (true, sortSwitches qsort sortAlloc mesh ⟨r.2, g.link⟩) else (false, ⟨r.2, g.link⟩)

end Switches

section Spec

/-- The same graph with other numbers: switch `i` was switch `order[i]`. -/
structure Renumbered (g g' : Lash P L) (order : List ℕ) : Prop where
  perm : order.Perm (List.range g.switches.length)
  switches : List.Forall₂ (fun o s' => ∃ s, g.switches[o]? = some s ∧ s'.pSw = s.pSw ∧
      s'.node.links.Perm s.node.links)
    order g'.switches
  ids : ∀ i (s' : Switch P L), g'.switches[i]? = some s' → s'.id = i
  far : ∀ s ∈ g.switches, ∀ l ∈ s.node.links, order[(g'.link l).switchId]? = some (g.link l).switchId
  ports : ∀ l, (g'.link l).ports = (g.link l).ports ∧ (g'.link l).nextPort = (g.link l).nextPort

def triples (g : Lash P L) : Set (P × ℕ × P) :=
  {x | ∃ s ∈ g.switches, ∃ l ∈ s.node.links, ∃ t, g.switches[(g.link l).switchId]? = some t ∧
    x.1 = s.pSw ∧ x.2.1 ∈ (g.link l).ports ∧ x.2.2 = t.pSw}

end Spec

section Taking

variable {nd : MeshNode L} {wanted : ℕ → Bool} {st : Taking L} {l : ℕ}

def Taking.all (st : Taking L) : List L := st.taken.map Prod.fst ++ st.slots.reduceOption

lemma takeSlot_cases (nd : MeshNode L) (wanted : ℕ → Bool) (st : Taking L) (l : ℕ) :
    takeSlot nd wanted st l = st ∨ ∃ x, st.slots[l]? = some (some x) ∧
      takeSlot nd wanted st l = ⟨st.slots.set l none, st.taken ++ [(x, nd.axes l)]⟩ := by
  unfold takeSlot
  split
  · next x hx =>
    split_ifs
    · exact .inr ⟨x, hx, rfl⟩
    · exact .inl rfl
  · exact .inl rfl

lemma takeSlot_perm : (takeSlot nd wanted st l).all.Perm st.all := by
  rcases takeSlot_cases nd wanted st l with h | ⟨x, hx, h⟩
  · rw [h]
  · obtain ⟨hl, hget⟩ := List.getElem?_eq_some_iff.mp hx
    have hslots : st.slots = st.slots.take l ++ some x :: st.slots.drop (l + 1) := by
      rw [← hget, List.getElem_cons_drop, List.take_append_drop]
    have hset : st.slots.set l none = st.slots.take l ++ none :: st.slots.drop (l + 1) :=
      List.set_eq_take_append_cons_drop.trans (if_pos hl)
    have hold : st.slots.reduceOption =
        (st.slots.take l).reduceOption ++ x :: (st.slots.drop (l + 1)).reduceOption := by
      conv_lhs => rw [hslots]
      rw [List.reduceOption_append, List.reduceOption_cons_of_some]
    rw [h, Taking.all, Taking.all, hset, hold, List.reduceOption_append, List.reduceOption_cons_of_none,
      List.map_append, List.map_singleton, List.append_assoc, List.singleton_append]
    exact List.Perm.append_left _ List.perm_middle.symm

lemma takeSlots_perm : (takeSlots nd wanted st).all.Perm st.all := by
  rw [takeSlots]
  induction List.range nd.links.length generalizing st with
  | nil => exact .refl _
  | cons l ls ih => exact ih.trans takeSlot_perm

lemma takeSlot_length : (takeSlot nd wanted st l).slots.length = st.slots.length := by
  rcases takeSlot_cases nd wanted st l with h | ⟨x, -, h⟩
  · rw [h]
  · rw [h, List.length_set]

lemma takeSlots_length : (takeSlots nd wanted st).slots.length = st.slots.length := by
  rw [takeSlots]
  induction List.range nd.links.length generalizing st with
  | nil => rfl
  | cons l ls ih => exact ih.trans takeSlot_length

lemma takeSlot_none {i : ℕ} (h : st.slots[i]? = some none) : (takeSlot nd wanted st l).slots[i]? = some none := by
  rcases takeSlot_cases nd wanted st l with heq | ⟨x, hx, heq⟩
  · rw [heq]
    exact h
  · have hne : l ≠ i := by
      rintro rfl
      rw [hx] at h
      cases h
    rw [heq, List.getElem?_set_ne hne]
    exact h

lemma takeSlot_self (hl : l < st.slots.length) : (takeSlot nd (fun _ => true) st l).slots[l]? = some none := by
  rw [takeSlot, List.getElem?_eq_getElem hl]
  cases hx : st.slots[l] with
  | none =>
    dsimp only
    rw [List.getElem?_eq_getElem hl, hx]
  | some x =>
    dsimp only
    rw [if_pos rfl, List.getElem?_set_self hl]

lemma takeSlots_rest (h : st.slots.length = nd.links.length) :
    (takeSlots nd (fun _ => true) st).slots.reduceOption = [] := by
  have hempty : ∀ k ≤ st.slots.length, ∀ i < k,
      ((List.range k).foldl (takeSlot nd fun _ => true) st).slots[i]? = some none ∧
        ((List.range k).foldl (takeSlot nd fun _ => true) st).slots.length = st.slots.length := by
    intro k
    induction k with
    | zero => exact fun _ i hi => absurd hi (Nat.not_lt_zero i)
    | succ k ih =>
      intro hk i hi
      have hlen : ((List.range k).foldl (takeSlot nd fun _ => true) st).slots.length = st.slots.length := by
        rcases Nat.eq_zero_or_pos k with rfl | hpos
        · rfl
        · exact (ih (by omega) 0 hpos).2
      rw [List.range_succ, List.foldl_append, List.foldl_cons, List.foldl_nil]
      refine ⟨?_, takeSlot_length.trans hlen⟩
      by_cases heq : i = k
      · rw [heq]
        exact takeSlot_self (by omega)
      · exact takeSlot_none (ih (by omega) i (by omega)).1
  rw [List.eq_nil_iff_forall_not_mem]
  intro x hx
  obtain ⟨i, hi⟩ := List.mem_iff_getElem?.mp (List.reduceOption_mem_iff.mp hx)
  have hlt : i < (takeSlots nd (fun _ => true) st).slots.length := (List.getElem?_eq_some_iff.mp hi).1
  rw [takeSlots_length] at hlt
  rw [takeSlots, ← h, (hempty _ le_rfl i hlt).1] at hi
  cases hi

lemma reorderNodeLinks_perm (mesh : Mesh) (nd : MeshNode L) : (reorderNodeLinks mesh nd).links.Perm nd.links := by
  have hfold : ∀ (cs : List ℕ) (st : Taking L),
      (cs.foldl (fun st c => takeSlots nd (· = c) st) st).all.Perm st.all ∧
        (cs.foldl (fun st c => takeSlots nd (· = c) st) st).slots.length = st.slots.length := by
    intro cs
    induction cs with
    | nil => exact fun st => ⟨.refl _, rfl⟩
    | cons c cs ih =>
      intro st
      exact ⟨(ih _).1.trans takeSlots_perm, (ih _).2.trans takeSlots_length⟩
  obtain ⟨hperm, hlen⟩ := hfold (axisOrder mesh nd) ⟨nd.links.map some, []⟩
  rw [List.length_map] at hlen
  have hrest := @takeSlots_perm L nd (fun _ => true)
    ((axisOrder mesh nd).foldl (fun st c => takeSlots nd (· = c) st) ⟨nd.links.map some, []⟩)
  rw [Taking.all, takeSlots_rest hlen, List.append_nil] at hrest
  refine (hrest.trans hperm).trans ?_
  have hall : (nd.links.map some).reduceOption = nd.links := by simp [List.reduceOption, List.filterMap_map]
  rw [Taking.all, List.map_nil, List.nil_append, hall]

def Shuffled (s s' : Switch P L) : Prop := s'.pSw = s.pSw ∧ s'.id = s.id ∧ s'.node.links.Perm s.node.links

lemma reorderLinks_shuffled (alloc : ℕ → Bool) (mesh : Mesh) (sw : ℕ) (ss : List (Switch P L)) :
    List.Forall₂ Shuffled ss (reorderLinks alloc mesh sw ss).2 := by
  induction ss generalizing sw with
  | nil => exact .nil
  | cons s ss ih =>
    rw [reorderLinks]
    split_ifs
    · exact .cons ⟨rfl, rfl, reorderNodeLinks_perm mesh s.node⟩ (ih (sw + 1))
    · exact List.forall₂_same.mpr fun s _ => ⟨rfl, rfl, .refl _⟩

end Taking

section Sorting

variable {order : List ℕ} {reverse : ℕ → ℕ} {link : L → Link} {ls : List L} {l : L}

lemma foldl_update_apply {xs : List (ℕ × ℕ)} (hnodup : (xs.map Prod.fst).Nodup) (r : ℕ → ℕ) :
    (∀ x ∈ xs, (xs.foldl (fun reverse x => Function.update reverse x.1 x.2) r) x.1 = x.2) ∧
      ∀ a ∉ xs.map Prod.fst, (xs.foldl (fun reverse x => Function.update reverse x.1 x.2) r) a = r a := by
  induction xs generalizing r with
  | nil => exact ⟨fun x hx => absurd hx List.not_mem_nil, fun a _ => rfl⟩
  | cons y xs ih =>
    rw [List.map_cons, List.nodup_cons] at hnodup
    obtain ⟨hmem, hnot⟩ := ih hnodup.2 (Function.update r y.1 y.2)
    rw [List.foldl_cons]
    refine ⟨fun x hx => ?_, fun a ha => ?_⟩
    · rcases List.mem_cons.mp hx with rfl | hx
      · rw [hnot _ hnodup.1, Function.update_self]
      · exact hmem x hx
    · rw [List.map_cons, List.mem_cons, not_or] at ha
      rw [hnot a ha.2, Function.update_of_ne ha.1]

lemma getElem?_reverseOf (hnodup : order.Nodup) {a : ℕ} (ha : a ∈ order) : order[reverseOf order a]? = some a := by
  obtain ⟨i, hi⟩ := List.mem_iff_getElem?.mp ha
  have hfst : order.zipIdx.map Prod.fst = order := List.zipIdx_map_fst 0 order
  have hmem : (a, i) ∈ order.zipIdx := List.mem_zipIdx_iff_getElem?.mpr hi
  have hkeys : (order.zipIdx.map Prod.fst).Nodup := hfst.symm ▸ hnodup
  rw [reverseOf, (foldl_update_apply hkeys fun _ => 0).1 (a, i) hmem]
  exact hi

variable [DecidableEq L]

lemma renumber_apply (hnodup : ls.Nodup) : renumber reverse link ls l =
    if l ∈ ls then { link l with switchId := reverse (link l).switchId } else link l := by
  rw [renumber]
  induction ls generalizing link with
  | nil => rfl
  | cons x ls ih =>
    rw [List.nodup_cons] at hnodup
    rw [List.foldl_cons, ih hnodup.2]
    by_cases hx : l = x
    · subst hx
      rw [if_neg hnodup.1, Function.update_self, if_pos List.mem_cons_self]
    · rw [Function.update_of_ne hx]
      split_ifs with hmem hcons hcons
      · rfl
      · exact absurd (List.mem_cons_of_mem x hmem) hcons
      · exact absurd (List.mem_of_ne_of_mem hx hcons) hmem
      · rfl

lemma renumber_append (ls ls' : List L) :
    renumber reverse link (ls ++ ls') = renumber reverse (renumber reverse link ls) ls' := List.foldl_append

lemma foldl_sortStep {old : List (Switch P L)} {xs : List (ℕ × ℕ)} {ss : List (Switch P L)} (st : Lash P L)
    (h : List.Forall₂ (fun x s => old[x.1]? = some s) xs ss) :
    xs.foldl (sortStep old reverse) st =
      ⟨st.switches ++ (xs.zip ss).map fun y => { y.2 with id := y.1.2 },
        renumber reverse st.link (ss.flatMap (·.node.links))⟩ := by
  induction h generalizing st with
  | nil =>
    rw [List.foldl_nil, List.zip_nil_left, List.map_nil, List.append_nil]
    rfl
  | cons hx _ ih =>
    rw [List.foldl_cons, sortStep, hx, ih, List.zip_cons_cons, List.map_cons, List.flatMap_cons, renumber_append,
      List.append_assoc, List.singleton_append]

end Sorting

section Graph

variable {g g₁ g' : Lash P L} {order : List ℕ}

lemma filterMap_range (ss : List (Switch P L)) : (List.range ss.length).filterMap (ss[·]?) = ss := by
  induction ss using List.reverseRecOn with
  | nil => rfl
  | append_singleton ss s ih =>
    have hinit : (List.range ss.length).filterMap ((ss ++ [s])[·]?) = (List.range ss.length).filterMap (ss[·]?) :=
      List.filterMap_congr fun i hi => List.getElem?_append_left (List.mem_range.mp hi)
    rw [List.length_append, List.length_singleton, List.range_succ, List.filterMap_append, hinit, ih]
    simp

lemma sorted_switches {old : List (Switch P L)} (h : ∀ o ∈ order, o < old.length) (k : ℕ) :
    List.Forall₂ (fun x s => old[x.1]? = some s) (order.zipIdx k) (order.filterMap (old[·]?)) ∧
      List.Forall₂ (fun o s' => ∃ s, old[o]? = some s ∧ s'.pSw = s.pSw ∧ s'.node.links.Perm s.node.links) order
        (((order.zipIdx k).zip (order.filterMap (old[·]?))).map fun y => { y.2 with id := y.1.2 }) ∧
      ∀ i (s' : Switch P L),
          (((order.zipIdx k).zip (order.filterMap (old[·]?))).map fun y => { y.2 with id := y.1.2 })[i]? =
        some s' → s'.id = k + i := by
  induction order generalizing k with
  | nil => exact ⟨.nil, .nil, fun i s' hs => by cases hs⟩
  | cons o order ih =>
    have hlt : o < old.length := h o List.mem_cons_self
    have ho : old[o]? = some old[o] := List.getElem?_eq_getElem hlt
    obtain ⟨hold, hnew, hids⟩ := ih (fun o' ho' => h o' (List.mem_cons_of_mem o ho')) (k + 1)
    rw [List.zipIdx_cons, List.filterMap_cons_some ho, List.zip_cons_cons, List.map_cons]
    refine ⟨.cons ho hold, .cons ⟨_, ho, rfl, .refl _⟩ hnew, fun i s' hs => ?_⟩
    cases i with
    | zero =>
      cases hs
      rfl
    | succ i =>
      rw [List.getElem?_cons_succ] at hs
      rw [hids i s' hs]
      omega

lemma getElem?_of_forall₂ {A B : Type} {R : A → B → Prop} {as : List A} {bs : List B}
    (h : List.Forall₂ R as bs) {i : ℕ} :
    (∀ a, as[i]? = some a → ∃ b, bs[i]? = some b ∧ R a b) ∧ ∀ b, bs[i]? = some b → ∃ a,
        as[i]? = some a ∧ R a b := by
  induction h generalizing i with
  | nil => exact ⟨fun a ha => (by cases ha), fun b hb => (by cases hb)⟩
  | cons hr _ ih =>
    cases i with
    | zero =>
      refine ⟨fun a ha => ?_, fun b hb => ?_⟩
      · cases ha
        exact ⟨_, rfl, hr⟩
      · cases hb
        exact ⟨_, rfl, hr⟩
    | succ i => exact ih

variable [DecidableEq L]

lemma sortSwitches_renumbered {qsort : (ℕ → ℕ → ℤ) → List ℕ → List ℕ} (hq : ∀ cmp l, (qsort cmp l).Perm l)
    (alloc : Bool)
    (mesh : Mesh) (hwf : Wf g) : ∃ order, Renumbered g (sortSwitches qsort alloc mesh g) order := by
  cases alloc with
  | false =>
    refine ⟨List.range g.switches.length, .refl _, ?_, hwf.ids, fun s hs l hl => ?_, fun l => ⟨rfl, rfl⟩⟩
    · refine List.forall₂_iff_get.mpr ⟨List.length_range, fun i h₁ h₂ => ?_⟩
      refine ⟨_, ?_, rfl, .refl _⟩
      rw [List.get_eq_getElem, List.getElem_range]
      exact List.getElem?_eq_getElem h₂
    · exact List.getElem?_range (hwf.range s hs l hl)
  | true =>
    have hperm : (qsort (compareSwitches mesh g.switches) (List.range g.switches.length)).Perm _ := hq _ _
    refine ⟨qsort (compareSwitches mesh g.switches) (List.range g.switches.length), ?_⟩
    rw [sortSwitches, if_pos rfl]
    dsimp only
    generalize qsort (compareSwitches mesh g.switches) (List.range g.switches.length) = order at hperm ⊢
    have hnodup : order.Nodup := hperm.nodup_iff.mpr List.nodup_range
    obtain ⟨hold, hnew, hids⟩ := sorted_switches (fun o ho => List.mem_range.mp (hperm.mem_iff.mp ho)) 0
    have hsame : (order.filterMap (g.switches[·]?)).Perm g.switches := by
      have hmap := hperm.filterMap (g.switches[·]?)
      rwa [filterMap_range] at hmap
    have hlinks := hsame.flatMap_right (·.node.links)
    have hapart := hlinks.nodup_iff.mpr hwf.apart
    rw [foldl_sortStep ⟨[], g.link⟩ hold, List.nil_append]
    refine ⟨hperm, hnew, fun i s' hs => ?_, fun s hs l hl => ?_, fun l => ?_⟩
    · rw [hids i s' hs, Nat.zero_add]
    · have hmem : l ∈ (order.filterMap (g.switches[·]?)).flatMap (·.node.links) :=
        hlinks.mem_iff.mpr (List.mem_flatMap.mpr ⟨s, hs, hl⟩)
      dsimp only
      rw [renumber_apply hapart, if_pos hmem]
      exact getElem?_reverseOf hnodup (hperm.mem_iff.mpr (List.mem_range.mpr (hwf.range s hs l hl)))
    · dsimp only
      rw [renumber_apply hapart]
      split_ifs
      · exact ⟨rfl, rfl⟩
      · exact ⟨rfl, rfl⟩

omit [DecidableEq L] in
lemma links_perm {ss ss' : List (Switch P L)} (h : List.Forall₂ Shuffled ss ss') :
    (ss'.flatMap (·.node.links)).Perm (ss.flatMap (·.node.links)) := by
  induction h with
  | nil => exact .refl _
  | cons hs _ ih =>
    rw [List.flatMap_cons, List.flatMap_cons]
    exact hs.2.2.append ih

omit [DecidableEq L] in
lemma Wf.shuffled (hwf : Wf g) (h : List.Forall₂ Shuffled g.switches g₁.switches)
    (hlink : g₁.link = g.link) : Wf g₁ := by
  have hlen := h.length_eq
  have hlinks := links_perm h
  refine ⟨fun i s₁ hs₁ => ?_, fun s₁ hs₁ l hl => ?_, hlinks.nodup_iff.mpr hwf.apart⟩
  · obtain ⟨s, hs, -, hid, -⟩ := (getElem?_of_forall₂ h).2 s₁ hs₁
    exact hid.trans (hwf.ids i s hs)
  · obtain ⟨s, hs, hl⟩ := List.mem_flatMap.mp (hlinks.mem_iff.mp (List.mem_flatMap.mpr ⟨s₁, hs₁, hl⟩))
    rw [hlink, ← hlen]
    exact hwf.range s hs l hl

omit [DecidableEq L] in
lemma Renumbered.of_shuffled (h : List.Forall₂ Shuffled g.switches g₁.switches) (hlink : g₁.link = g.link)
    (hr : Renumbered g₁ g' order) : Renumbered g g' order where
  perm := h.length_eq.symm ▸ hr.perm
  switches := by
    refine hr.switches.imp fun o s' ⟨s₁, hs₁, hp, hperm⟩ => ?_
    obtain ⟨s, hs, hp', -, hperm'⟩ := (getElem?_of_forall₂ h).2 s₁ hs₁
    exact ⟨s, hs, hp.trans hp', hperm.trans hperm'⟩
  ids := hr.ids
  far s hs l hl := by
    obtain ⟨i, hi⟩ := List.mem_iff_getElem?.mp hs
    obtain ⟨s₁, hs₁, -, -, hperm⟩ := (getElem?_of_forall₂ h).1 s hi
    rw [hr.far s₁ (List.mem_of_getElem? hs₁) l (hperm.mem_iff.mpr hl), hlink]
  ports l := by
    rw [← hlink]
    exact hr.ports l

omit [DecidableEq L] in
lemma Renumbered.triples_eq (hr : Renumbered g g' order) : triples g' = triples g := by
  ext ⟨p, port, q⟩
  constructor
  · rintro ⟨s', hs', l, hl, t', ht', rfl, hport, rfl⟩
    obtain ⟨i, hi⟩ := List.mem_iff_getElem?.mp hs'
    obtain ⟨o, -, s, hs, hp, hperm⟩ := (getElem?_of_forall₂ hr.switches).2 s' hi
    have hls := hperm.mem_iff.mp hl
    obtain ⟨o', ho', t, ht, hq, -⟩ := (getElem?_of_forall₂ hr.switches).2 t' ht'
    rw [hr.far s (List.mem_of_getElem? hs) l hls] at ho'
    cases ho'
    rw [(hr.ports l).1] at hport
    exact ⟨s, List.mem_of_getElem? hs, l, hls, t, ht, hp, hport, hq⟩
  · rintro ⟨s, hs, l, hl, t, ht, rfl, hport, rfl⟩
    obtain ⟨o, ho⟩ := List.mem_iff_getElem?.mp hs
    have hlt : o ∈ order := hr.perm.mem_iff.mpr (List.mem_range.mpr (List.getElem?_eq_some_iff.mp ho).1)
    obtain ⟨i, hi⟩ := List.mem_iff_getElem?.mp hlt
    obtain ⟨s', hs', s₁, hs₁, hp, hperm⟩ := (getElem?_of_forall₂ hr.switches).1 o hi
    rw [ho] at hs₁
    cases hs₁
    obtain ⟨t', ht', t₁, ht₁, hq, -⟩ := (getElem?_of_forall₂ hr.switches).1 _ (hr.far s hs l hl)
    rw [ht] at ht₁
    cases ht₁
    exact ⟨s', List.mem_of_getElem? hs', l, hperm.mem_iff.mpr hl, t', ht', hp.symm,
        (hr.ports l).1.symm ▸ hport, hq.symm⟩

/-- `reorder_links` and `sort_switches` give the switches and the links other places and numbers, and nothing
else. -/
theorem reorder_renumbered {qsort : (ℕ → ℕ → ℤ) → List ℕ → List ℕ} (hq : ∀ cmp l, (qsort cmp l).Perm l)
    (alloc : ℕ → Bool)
    (sortAlloc : Bool) (mesh : Mesh) (g : Lash P L) (hwf : Wf g) :
    let g' := (reorder qsort alloc sortAlloc mesh g).2
    (∃ order, Renumbered g g' order) ∧ triples g' = triples g := by
  have hshuffled := reorderLinks_shuffled alloc mesh 0 g.switches
  have hwf₁ : Wf (⟨(reorderLinks alloc mesh 0 g.switches).2, g.link⟩ : Lash P L) := hwf.shuffled hshuffled rfl
  have hsorted : ∀ b, ∃ order, Renumbered g
      (sortSwitches qsort b mesh ⟨(reorderLinks alloc mesh 0 g.switches).2, g.link⟩) order := by
    intro b
    obtain ⟨order, hr⟩ := sortSwitches_renumbered hq b mesh hwf₁
    exact ⟨order, @Renumbered.of_shuffled P L g ⟨_, g.link⟩ _ order hshuffled rfl hr⟩
  have hsome : ∃ order, Renumbered g (reorder qsort alloc sortAlloc mesh g).2 order := by
    rw [reorder]
    split_ifs
    · exact hsorted sortAlloc
    · exact hsorted false
  exact ⟨hsome, hsome.elim fun order hr => hr.triples_eq⟩

theorem reorder_renumbered_pentagon :
    let g' := (reorder (fun _ => List.reverse) (fun _ => true) true ⟨1, fun _ => 0⟩ pentagon).2
    (∃ order, Renumbered pentagon g' order) ∧ triples g' = triples pentagon :=
  reorder_renumbered (fun _ l => l.reverse_perm) (fun _ => true) true ⟨1, fun _ => 0⟩ pentagon
    (pentagon_connected.1.wf fun _ _ _ _ h => Prod.mk.inj h)

end Graph

end OpenSM.LashMesh
