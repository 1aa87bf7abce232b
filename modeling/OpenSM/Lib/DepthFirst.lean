import Mathlib

/-! Depth-first search with three statuses and back pointers. It may stop at a cycle, take back what it has
found out about the nodes of the cycle, and go on. -/

namespace OpenSM.Lib.DepthFirst

inductive Status
  | unknown
  | gray
  | black
  deriving DecidableEq

variable {V : Type*}

section Defs

variable (succ : V → List V) (status : V → Status) (pre : V → Option V)

def Edge (v w : V) : Prop := w ∈ succ v

def firstOpen (v : V) : Option V := (succ v).find? fun w => status w ≠ .black

structure Finished : Prop where
  closed : ∀ v, status v = .black → ∀ w ∈ succ v, status w = .black
  acyclic : ∀ v, status v = .black → ¬ Relation.TransGen (Edge succ) v v
  forgotten : ∀ v, status v = .black → pre v = none

/-- The search is at a node, and the nodes below it are those that it has entered and not left. The lowest of
them may have a back pointer of an earlier search. -/
structure Search (cur : V) (below : List V) : Prop extends Finished succ status pre where
  nodup : (cur :: below).Nodup
  gray_mem : ∀ v, status v = .gray → v ∈ cur :: below
  below_gray : ∀ v ∈ below, status v = .gray
  chain : (cur :: below).IsChain fun x y => pre x = some y ∧ firstOpen succ status y = some x
  alone : status cur = .black → below = []

end Defs

variable {succ succ' : V → List V} {status status' : V → Status} {pre : V → Option V} {cur v w x y : V}
    {below : List V}

lemma firstOpen_spec (h : firstOpen succ status v = some w) : w ∈ succ v ∧ status w ≠ .black :=
  ⟨List.mem_of_find?_eq_some h, of_decide_eq_true (@List.find?_some V (fun w => decide (status w ≠ .black)) _ _ h)⟩

lemma firstOpen_none (h : firstOpen succ status v = none) : ∀ w ∈ succ v, status w = .black := by
  intro w hw
  by_contra hb
  exact List.find?_eq_none.mp h w hw (decide_eq_true hb)

lemma find_of_firstOpen {p : V → Bool} (h : firstOpen succ status v = some w)
    (hblack : ∀ x, status x = .black → p x = false) (hw : p w = true) : (succ v).find? p = some w := by
  obtain ⟨-, l, l', hl, hbefore⟩ := List.find?_eq_some_iff_append.mp h
  refine List.find?_eq_some_iff_append.mpr ⟨hw, l, l', hl, fun x hx => ?_⟩
  have hb : status x = .black := by
    by_contra hne
    have hfalse := hbefore x hx
    rw [decide_eq_true hne] at hfalse
    cases hfalse
  rw [hblack x hb]
  rfl

lemma firstOpen_of_le (h : firstOpen succ status v = some w) (hle : ∀ x, status x = .black → status' x = .black)
    (hw : status' w ≠ .black) : firstOpen succ status' v = some w :=
  find_of_firstOpen h (fun x hx => decide_eq_false (not_not.mpr (hle x hx))) (decide_eq_true hw)

lemma firstOpen_congr (h : ∀ x, status' x = .black ↔ status x = .black) :
    firstOpen succ status' v = firstOpen succ status v := by
  rw [firstOpen, firstOpen]
  congr 1
  funext x
  exact decide_eq_decide.mpr (not_congr (h x))

lemma Finished.reach (h : Finished succ status pre) (hv : status v = .black)
    (hr : Relation.ReflTransGen (Edge succ) v w) : status w = .black := by
  induction hr with
  | refl => exact hv
  | tail _ he ih => exact h.closed _ ih _ he

lemma Finished.acyclic_of_all (h : Finished succ status pre)
    (hall : ∀ v, status v = .black ∨ succ v = []) (v : V) :
    ¬ Relation.TransGen (Edge succ) v v := by
  rcases hall v with hb | hnil
  · exact h.acyclic v hb
  · intro hloop
    obtain ⟨w, hw, -⟩ := Relation.TransGen.head'_iff.mp hloop
    rw [Edge, hnil] at hw
    cases hw

variable [DecidableEq V]

lemma black_enter (hcur : status cur ≠ .black) (x : V) :
    Function.update status cur .gray x = .black ↔ status x = .black := by
  by_cases heq : x = cur
  · rw [heq, Function.update_self]
    exact ⟨fun hx => (by cases hx), fun hx => absurd hx hcur⟩
  · rw [Function.update_of_ne heq]

section Enter

variable (h : Search succ status pre cur below)
include h

lemma Search.not_black {t : V} (hopen : firstOpen succ (Function.update status cur .gray) cur = some t) :
    status cur ≠ .black := by
  intro hb
  obtain ⟨ht, hne⟩ := firstOpen_spec hopen
  by_cases heq : t = cur
  · exact h.acyclic cur hb (.single (heq ▸ ht : Edge succ cur cur))
  · rw [Function.update_of_ne heq] at hne
    exact hne (h.closed cur hb t ht)

lemma Search.enter (hcur : status cur ≠ .black) :
    Search succ (Function.update status cur .gray) pre cur below where
  closed := by
    intro v hv w hw
    rw [black_enter hcur] at hv ⊢
    exact h.closed v hv w hw
  acyclic := fun v hv => h.acyclic v ((black_enter hcur v).mp hv)
  forgotten := fun v hv => h.forgotten v ((black_enter hcur v).mp hv)
  nodup := h.nodup
  gray_mem := by
    intro v hv
    by_cases heq : v = cur
    · exact heq ▸ List.mem_cons_self
    · rw [Function.update_of_ne heq] at hv
      exact h.gray_mem v hv
  below_gray := by
    intro v hv
    have hne : v ≠ cur := fun heq => (List.nodup_cons.mp h.nodup).1 (heq ▸ hv)
    rw [Function.update_of_ne hne]
    exact h.below_gray v hv
  chain := h.chain.imp fun x y hxy => ⟨hxy.1, (firstOpen_congr (black_enter hcur)).trans hxy.2⟩
  alone := by
    intro hb
    rw [Function.update_self] at hb
    cases hb

end Enter

lemma Search.push (h : Search succ status pre cur below) (hcur : status cur = .gray)
    (hopen : firstOpen succ status cur = some w) (hw : status w = .unknown) :
    Search succ status (Function.update pre w (some cur)) w (cur :: below) := by
  have hnew : w ∉ cur :: below := by
    intro hmem
    have hgray : status w = .gray := by
      rcases List.mem_cons.mp hmem with rfl | hmem
      · exact hcur
      · exact h.below_gray w hmem
    rw [hw] at hgray
    cases hgray
  refine ⟨⟨h.closed, h.acyclic, fun v hv => ?_⟩, List.nodup_cons.mpr ⟨hnew, h.nodup⟩,
    fun v hv => List.mem_cons_of_mem w (h.gray_mem v hv), ?_, ?_, fun hb => ?_⟩
  · have hne : v ≠ w := by
      rintro rfl
      rw [hw] at hv
      cases hv
    rw [Function.update_of_ne hne]
    exact h.forgotten v hv
  · exact List.forall_mem_cons.mpr ⟨hcur, h.below_gray⟩
  · refine List.isChain_cons_cons.mpr ⟨⟨Function.update_self w _ pre, hopen⟩,
        h.chain.imp_of_mem_imp fun x y hx _ hxy => ?_⟩
    have hne : x ≠ w := fun heq => hnew (heq ▸ hx)
    rw [Function.update_of_ne hne]
    exact hxy
  · rw [hw] at hb
    cases hb

section Leave

variable (h : Search succ status pre cur below)
  (hnone : firstOpen succ (Function.update status cur .gray) cur = none)
include h hnone

lemma Search.leave : Finished succ (Function.update status cur .black) (Function.update pre cur none) := by
  have hsucc : ∀ w ∈ succ cur, w ≠ cur ∧ status w = .black := by
    intro w hw
    have hb := firstOpen_none hnone w hw
    by_cases heq : w = cur
    · rw [heq, Function.update_self] at hb
      cases hb
    · rw [Function.update_of_ne heq] at hb
      exact ⟨heq, hb⟩
  have hle : ∀ w, status w = .black → Function.update status cur .black w = .black := by
    intro w hw
    by_cases heq : w = cur
    · rw [heq, Function.update_self]
    · rwa [Function.update_of_ne heq]
  refine ⟨fun v hv w hw => ?_, fun v hv => ?_, fun v hv => ?_⟩
  · by_cases heq : v = cur
    · subst heq
      exact hle w (hsucc w hw).2
    · rw [Function.update_of_ne heq] at hv
      exact hle w (h.closed v hv w hw)
  · by_cases heq : v = cur
    · subst heq
      intro hloop
      obtain ⟨w, hw, hback⟩ := Relation.TransGen.head'_iff.mp hloop
      exact h.acyclic v (h.toFinished.reach (hsucc w hw).2 hback) hloop
    · rw [Function.update_of_ne heq] at hv
      exact h.acyclic v hv
  · by_cases heq : v = cur
    · rw [heq, Function.update_self]
    · rw [Function.update_of_ne heq] at hv ⊢
      exact h.forgotten v hv

omit hnone in
lemma Search.gray_left (hv : Function.update status cur .black v = .gray) : v ∈ below := by
  have hne : v ≠ cur := by
    rintro rfl
    rw [Function.update_self] at hv
    cases hv
  rw [Function.update_of_ne hne] at hv
  exact (List.mem_cons.mp (h.gray_mem v hv)).resolve_left hne

lemma Search.restart (hbelow : below = []) (y : V) :
    Search succ (Function.update status cur .black) (Function.update pre cur none) y [] := by
  refine ⟨h.leave hnone, List.nodup_singleton y, fun v hv => ?_, fun v hv => absurd hv List.not_mem_nil,
    .singleton y, fun _ => rfl⟩
  have hmem := h.gray_left hv
  rw [hbelow] at hmem
  cases hmem

end Leave

lemma Search.pop (h : Search succ status pre cur (y :: below))
    (hnone : firstOpen succ (Function.update status cur .gray) cur = none) :
    pre cur = some y ∧ Search succ (Function.update status cur .black) (Function.update pre cur none) y below := by
  obtain ⟨hnew, hnodup⟩ := List.nodup_cons.mp h.nodup
  obtain ⟨⟨hpre, -⟩, hchain⟩ := List.isChain_cons_cons.mp h.chain
  have hne : ∀ x ∈ y :: below, x ≠ cur := fun x hx heq => hnew (heq ▸ hx)
  have hgray : ∀ x ∈ y :: below, Function.update status cur .black x = .gray := by
    intro x hx
    rw [Function.update_of_ne (hne x hx)]
    exact h.below_gray x hx
  refine ⟨hpre, h.leave hnone, hnodup, fun v hv => h.gray_left hv,
      fun v hv => hgray v (List.mem_cons_of_mem y hv), ?_, ?_⟩
  · refine hchain.imp_of_mem_imp fun x z hx _ hxz => ?_
    refine ⟨by rw [Function.update_of_ne (hne x hx)]; exact hxz.1, firstOpen_of_le hxz.2 (fun w hw => ?_) ?_⟩
    · by_cases heq : w = cur
      · rw [heq, Function.update_self]
      · rwa [Function.update_of_ne heq]
    · rw [hgray x hx]
      exact fun hb => by cases hb
  · intro hb
    rw [hgray y List.mem_cons_self] at hb
    cases hb

omit [DecidableEq V] in
/-- A gray node where the search would go on closes a cycle of the nodes above it. -/
lemma Search.ring (h : Search succ status pre cur below) (hcur : status cur = .gray)
    (hopen : firstOpen succ status cur = some w) (hw : status w = .gray) :
    ∃ upper lower, cur :: below = upper ++ w :: lower ∧
      (w :: upper.reverse ++ [w]).IsChain (fun x y => firstOpen succ status x = some y) ∧
      ∀ v ∈ w :: upper.reverse, status v = .gray := by
  obtain ⟨upper, lower, hsplit⟩ := List.append_of_mem (h.gray_mem w hw)
  have hpre : upper ++ [w] <+: cur :: below := ⟨lower, by rw [hsplit, List.append_assoc, List.singleton_append]⟩
  refine ⟨upper, lower, hsplit, ?_, fun v hv => ?_⟩
  · have hrev : w :: upper.reverse ++ [w] = (w :: (upper ++ [w])).reverse := by simp
    rw [hrev, List.isChain_reverse]
    have hchain := List.IsChain.prefix h.chain hpre
    refine List.isChain_cons.mpr ⟨fun y hy => ?_, hchain.imp fun a b hab => hab.2⟩
    have hhead : y = cur := by
      cases upper with
      | nil =>
        obtain ⟨rfl, -⟩ := List.cons.inj hsplit
        exact (Option.some.inj hy).symm
      | cons u us =>
        obtain ⟨rfl, -⟩ := List.cons.inj hsplit
        exact (Option.some.inj hy).symm
    rw [hhead]
    exact hopen
  · have hmem : v ∈ cur :: below := by
      apply hpre.subset
      rcases List.mem_cons.mp hv with rfl | hv
      · exact List.mem_append_right upper List.mem_cons_self
      · exact List.mem_append_left _ (List.mem_reverse.mp hv)
    rcases List.mem_cons.mp hmem with rfl | hmem
    · exact hcur
    · exact h.below_gray v hmem

omit [DecidableEq V] in
/-- The search takes back the nodes down to `x`, and edges of them may go. -/
lemma Search.forget {upper lower : List V} (h : Search succ status pre cur below) (hcur : status cur = .gray)
    (hsplit : cur :: below = upper ++ x :: lower) (hsucc : ∀ v, succ' v ⊆ succ v)
    (hlower : ∀ v ∈ lower, succ' v = succ v) (hback : ∀ v ∈ upper ++ [x], status' v = .unknown)
    (hkeep : ∀ v ∉ upper ++ [x], status' v = status v) : Search succ' status' pre x lower := by
  have hgray : ∀ v ∈ cur :: below, status v = .gray := List.forall_mem_cons.mpr ⟨hcur, h.below_gray⟩
  have hmem : ∀ v ∈ upper ++ [x], v ∈ cur :: below := by
    intro v hv
    rw [hsplit]
    rcases List.mem_append.mp hv with hv | hv
    · exact List.mem_append_left _ hv
    · exact List.mem_append_right upper (List.mem_singleton.mp hv ▸ List.mem_cons_self)
  have hblack : ∀ v, status' v = .black ↔ status v = .black := by
    intro v
    by_cases hv : v ∈ upper ++ [x]
    · rw [hback v hv, hgray v (hmem v hv)]
      exact ⟨fun hb => (by cases hb), fun hb => (by cases hb)⟩
    · rw [hkeep v hv]
  have hnodup : (upper ++ [x] ++ lower).Nodup := by
    rw [List.append_assoc, List.singleton_append, ← hsplit]
    exact h.nodup
  have hapart : ∀ v ∈ lower, v ∉ upper ++ [x] := fun v hv hv' => List.disjoint_of_nodup_append hnodup hv' hv
  have hmono : ∀ v w, Edge succ' v w → Edge succ v w := fun v w hw => hsucc v hw
  have hsuffix : x :: lower <:+ cur :: below := ⟨upper, hsplit.symm⟩
  refine ⟨⟨fun v hv w hw => ?_, fun v hv hloop => ?_, fun v hv => h.forgotten v ((hblack v).mp hv)⟩, ?_,
    fun v hv => ?_, fun v hv => ?_, ?_, fun hb => ?_⟩
  · rw [hblack] at hv ⊢
    exact h.closed v hv w (hsucc v hw)
  · exact h.acyclic v ((hblack v).mp hv) (Relation.TransGen.mono hmono v v hloop)
  · exact h.nodup.sublist hsuffix.sublist
  · have hout : v ∉ upper ++ [x] := by
      intro hin
      rw [hback v hin] at hv
      cases hv
    rw [hkeep v hout] at hv
    have hin := h.gray_mem v hv
    rw [hsplit, ← List.singleton_append, ← List.append_assoc] at hin
    exact List.mem_cons_of_mem x ((List.mem_append.mp hin).resolve_left hout)
  · rw [hkeep v (hapart v hv)]
    exact hgray v (hsuffix.subset (List.mem_cons_of_mem x hv))
  · have hnonblack : ∀ v ∈ x :: lower, status' v ≠ .black := by
      intro v hv hb
      rw [hblack, hgray v (hsuffix.subset hv)] at hb
      cases hb
    refine (h.chain.suffix hsuffix).imp_of_mem_tail_imp fun v w hv hw hvw => ⟨hvw.1, ?_⟩
    rw [firstOpen, hlower w hw]
    exact firstOpen_of_le hvw.2 (fun z hz => (hblack z).mpr hz) (hnonblack v hv)
  · rw [hback x (List.mem_append_right upper List.mem_cons_self)] at hb
    cases hb

end OpenSM.Lib.DepthFirst
