import OpenSM.TorusRoute
import OpenSM.TorusStree

/-! The master spanning tree spans every torus that can be routed, unless the search for its root misses. -/

namespace OpenSM.Torus2QoS

open Lib

def Parent (st : Stree) (c p : Coord) : Prop := ∃ g h, st.toRoot c g = some (p, h)

def Wraps (n : ℕ) (s : Bool) (p : ℕ) : Prop := if s then p + 1 = n else p = 0

structure SpanningTree (t : Torus) (st : Stree) (r : Coord) : Prop where
  rooted : st.masterRoot = some r ∧ t.present r ∧ ∀ g, st.toRoot r g = none
  edge : ∀ c g p h, st.toRoot c g = some (p, h) →
    ∃ d s, g = Dim.grp d (!s) ∧ h = d.grp s ∧ c = t.step p d s ∧ t.ptgrp p h ≠ [] ∧ t.ptgrp c g ≠ []
  mirror : ∀ c g p h, st.toRoot c g = some (p, h) ↔ st.toTip p h = some (c, g)
  parent : ∀ c, t.present c → c ≠ r → ∃! g, (st.toRoot c g).isSome
  path : ∀ c, t.present c → Relation.ReflTransGen (Parent st) c r
  acyclic : ∀ c, ¬Relation.TransGen (Parent st) c c
  ordered : ∀ c p q d s d' s' h h', st.toRoot c (Dim.grp d s) = some (p, h) →
    st.toRoot p (Dim.grp d' s') = some (q, h') → d'.idx ≤ d.idx
  dateline : ∀ c p d s, st.toRoot c (Dim.grp d (!s)) = some (p, d.grp s) → Wraps (t.sz d) s (p d) →
    ∃ i < t.sz d, t.ptgrp (Function.update c d i) d.pos = []

structure Grown (t : Torus) (r : Coord) (st : Stree) : Prop where
  orphan : ∀ g, st.toRoot r g = none
  edge : ∀ c g p h, st.toRoot c g = some (p, h) →
    ∃ d s, g = Dim.grp d (!s) ∧ h = d.grp s ∧ c = t.step p d s ∧ t.ptgrp p h ≠ [] ∧ t.ptgrp c g ≠ []
  mirror : ∀ c g p h, st.toRoot c g = some (p, h) ↔ st.toTip p h = some (c, g)
  one : ∀ c g g', (st.toRoot c g).isSome → (st.toRoot c g').isSome → g = g'
  path : ∀ c g, (st.toRoot c g).isSome → Relation.ReflTransGen (Parent st) c r
  layer : ∀ c d s, (st.toRoot c (Dim.grp d s)).isSome → c d ≠ r d ∧ ∀ e : Dim, d.idx < e.idx → c e = r e
  dateline : ∀ c p d s, st.toRoot c (Dim.grp d (!s)) = some (p, d.grp s) → Wraps (t.sz d) s (p d) →
    ∃ i < t.sz d, t.ptgrp (Function.update c d i) d.pos = []

def Member (r : Coord) (st : Stree) (c : Coord) : Prop := c = r ∨ ∃ g, (st.toRoot c g).isSome

section Grow

variable {t : Torus} {r c p : Coord} {st : Stree} {d : Dim} {s : Bool}

lemma grp_inj {d' : Dim} {s' : Bool} (h : d.grp s = d'.grp s') : d = d' ∧ s = s' := by
  cases d <;> cases d' <;> cases s <;> cases s' <;> simp_all [Dim.grp, Dim.pos, Dim.neg, Dim.idx]

lemma grp_lt : d.grp s < 6 := by
  cases d <;> cases s <;> decide

lemma Linked.ptgrp_step (hl : Linked t) (h : t.ptgrp c (d.grp s) ≠ []) : t.ptgrp (t.step c d s)
    (d.grp (!s)) ≠ [] := by
  obtain ⟨e, he⟩ := List.exists_mem_of_ne_nil _ h
  cases s with
  | true => exact List.ne_nil_of_mem (hl.pos c d e he).2.2.2
  | false => exact List.ne_nil_of_mem (hl.neg c d e he).2.2.2

lemma grow_toRoot {g h : ℕ} (c' : Coord) (g' : ℕ) : (growMasterStreeBranch st p c g h).toRoot c' g' =
    if c' = c ∧ g' = g then some (p, h) else st.toRoot c' g' := by
  rw [growMasterStreeBranch]
  dsimp only
  by_cases hc : c' = c
  · rw [hc, Function.update_self]
    by_cases hg : g' = g
    · rw [hg, Function.update_self, if_pos ⟨rfl, rfl⟩]
    · rw [Function.update_of_ne hg, if_neg fun hn => hg hn.2]
  · rw [Function.update_of_ne hc, if_neg fun hn => hc hn.1]

lemma grow_toTip {g h : ℕ} (p' : Coord) (h' : ℕ) : (growMasterStreeBranch st p c g h).toTip p' h' =
    if p' = p ∧ h' = h then some (c, g) else st.toTip p' h' := by
  rw [growMasterStreeBranch]
  dsimp only
  by_cases hp : p' = p
  · rw [hp, Function.update_self]
    by_cases hh : h' = h
    · rw [hh, Function.update_self, if_pos ⟨rfl, rfl⟩]
    · rw [Function.update_of_ne hh, if_neg fun hn => hh hn.2]
  · rw [Function.update_of_ne hp, if_neg fun hn => hp hn.1]

/-- A branch grows over a link to a switch that is not in the tree. -/
lemma Grown.grow (hl : Linked t) (hg : Grown t r st) (hp : Member r st p) (hlink : t.ptgrp p (d.grp s) ≠ [])
    (hnew : ¬Member r st (t.step p d s)) (hd : t.step p d s d ≠ r d)
    (hup : ∀ e : Dim, d.idx < e.idx → t.step p d s e = r e)
    (hwrap : Wraps (t.sz d) s (p d) → ∃ i < t.sz d, t.ptgrp (Function.update p d i) d.pos = []) :
    Grown t r (growMasterStreeBranch st p (t.step p d s) (d.grp (!s)) (d.grp s)) := by
  have hnone : ∀ g, st.toRoot (t.step p d s) g = none := by
    intro g
    by_contra hne
    exact hnew (.inr ⟨g, Option.isSome_iff_ne_none.mpr hne⟩)
  have hr : t.step p d s ≠ r := fun h => hnew (.inl h)
  have hold : ∀ c g q, st.toRoot c g = some q →
      (growMasterStreeBranch st p (t.step p d s) (d.grp (!s)) (d.grp s)).toRoot c g = some q := by
    intro c g q hq
    rw [grow_toRoot, if_neg, hq]
    rintro ⟨rfl, -⟩
    rw [hnone] at hq
    cases hq
  have hpar : ∀ a b, Parent st a b →
      Parent (growMasterStreeBranch st p (t.step p d s) (d.grp (!s)) (d.grp s)) a b := by
    rintro a b ⟨g, h, hgh⟩
    exact ⟨g, h, hold a g _ hgh⟩
  -- a switch with a way to the root keeps it
  have hpath : ∀ c, Member r st c →
      Relation.ReflTransGen (Parent (growMasterStreeBranch st p (t.step p d s) (d.grp (!s)) (d.grp s))) c r := by
    rintro c (rfl | ⟨g, hsome⟩)
    · exact .refl
    · exact Relation.ReflTransGen.mono hpar _ _ (hg.path c g hsome)
  -- a new pointer, or one that was there
  have hcases : ∀ c g q, (growMasterStreeBranch st p (t.step p d s) (d.grp (!s)) (d.grp s)).toRoot c g = some q →
      (c = t.step p d s ∧ g = d.grp (!s) ∧ q = (p, d.grp s)) ∨ st.toRoot c g = some q := by
    intro c g q hq
    rw [grow_toRoot] at hq
    split_ifs at hq with hnow
    · exact .inl ⟨hnow.1, hnow.2, (Option.some.inj hq).symm⟩
    · exact .inr hq
  constructor
  case orphan =>
    intro g
    rw [grow_toRoot, if_neg fun h => hr h.1.symm, hg.orphan]
  case edge =>
    intro c g q h hq
    rcases hcases c g _ hq with ⟨rfl, rfl, hqp⟩ | hq
    · obtain ⟨rfl, rfl⟩ := Prod.mk.inj hqp
      exact ⟨d, s, rfl, rfl, rfl, hlink, hl.ptgrp_step hlink⟩
    · exact hg.edge c g q h hq
  case mirror =>
    intro c g q h
    rw [grow_toRoot, grow_toTip]
    by_cases hnow : q = p ∧ h = d.grp s
    · obtain ⟨rfl, rfl⟩ := hnow
      rw [if_pos (show q = q ∧ d.grp s = d.grp s from ⟨rfl, rfl⟩)]
      split_ifs with hc
      · rw [hc.1, hc.2]
        exact iff_of_true rfl rfl
      · refine iff_of_false (fun hq => ?_) fun hq => ?_
        · obtain ⟨d', s', -, hgrp, hstep, -⟩ := hg.edge c g q _ hq
          obtain ⟨rfl, rfl⟩ := grp_inj hgrp
          rw [hstep, hnone] at hq
          cases hq
        · obtain ⟨rfl, rfl⟩ := Prod.mk.inj (Option.some.inj hq)
          exact hc ⟨rfl, rfl⟩
    · rw [if_neg hnow]
      split_ifs with hc
      · refine iff_of_false (fun hq => ?_) fun hq => ?_
        · obtain ⟨rfl, rfl⟩ := Prod.mk.inj (Option.some.inj hq)
          exact hnow ⟨rfl, rfl⟩
        · have hq' := (hg.mirror c g q h).mpr hq
          rw [hc.1, hnone] at hq'
          cases hq'
      · exact hg.mirror c g q h
  case one =>
    intro c g g' hsome hsome'
    obtain ⟨q, hq⟩ := Option.isSome_iff_exists.mp hsome
    obtain ⟨q', hq'⟩ := Option.isSome_iff_exists.mp hsome'
    rcases hcases c g q hq with ⟨rfl, rfl, -⟩ | hq
    · rcases hcases _ g' q' hq' with ⟨-, rfl, -⟩ | hq'
      · rfl
      · rw [hnone] at hq'
        cases hq'
    · rcases hcases c g' q' hq' with ⟨rfl, -, -⟩ | hq'
      · rw [hnone] at hq
        cases hq
      · exact hg.one c g g' (by rw [hq]; rfl) (by rw [hq']; rfl)
  case path =>
    intro c g hsome
    obtain ⟨q, hq⟩ := Option.isSome_iff_exists.mp hsome
    rcases hcases c g q hq with ⟨rfl, rfl, hqp⟩ | hq'
    · rw [hqp] at hq
      exact .head ⟨_, _, hq⟩ (hpath p hp)
    · exact hpath c (.inr ⟨g, by rw [hq']; rfl⟩)
  case layer =>
    intro c d' s' hsome
    obtain ⟨q, hq⟩ := Option.isSome_iff_exists.mp hsome
    rcases hcases c _ q hq with ⟨rfl, hgrp, -⟩ | hq
    · obtain ⟨rfl, -⟩ := grp_inj hgrp
      exact ⟨hd, hup⟩
    · exact hg.layer c d' s' (by rw [hq]; rfl)
  case dateline =>
    intro c q d' s' hq hw
    rcases hcases c _ _ hq with ⟨rfl, hgrp, hqp⟩ | hq
    · obtain ⟨rfl, hs⟩ := grp_inj hgrp
      obtain rfl : s' = s := by simpa using hs
      obtain ⟨rfl, -⟩ := Prod.mk.inj hqp
      obtain ⟨i, hi, hempty⟩ := hwrap hw
      refine ⟨i, hi, ?_⟩
      rwa [Torus.step, Function.update_idem]
    · exact hg.dateline c q d' s' hq hw

end Grow

section Arms

variable {t : Torus} {r b c : Coord} {st st₀ : Stree} {d : Dim} {s : Bool} {k : Bool → ℕ} {o : Option Coord}

def armSw (t : Torus) (b : Coord) (d : Dim) (s : Bool) (j : ℕ) : Coord :=
  Function.update b d (GapRing.run (t.sz d) s (b d) j)

/-- What is known where a branch starts: nothing else of its ring is in the tree yet. -/
structure Branch (t : Torus) (r : Coord) (st₀ : Stree) (b : Coord) (d : Dim) : Prop where
  linked : Linked t
  present : t.present b
  member : Member r st₀ b
  others : ∀ q < t.sz d, q ≠ b d → ¬Member r st₀ (Function.update b d q)
  same : ∀ e : Dim, d.idx ≤ e.idx → b e = r e

structure Arms (t : Torus) (r b : Coord) (d : Dim) (st₀ st : Stree) (k : Bool → ℕ) : Prop where
  grown : Grown t r st
  noRoot : st.masterRoot = none
  member : ∀ c, Member r st c ↔ Member r st₀ c ∨ ∃ s j, j ≠ 0 ∧ j ≤ k s ∧ c = armSw t b d s j
  links : ∀ s, ∀ j < k s, GapRing.Link (t.sz d) (t.link b d) s (GapRing.run (t.sz d) s (b d) j)
  room : ∀ s, k s + k (!s) < t.sz d

def Tip (t : Torus) (b : Coord) (d : Dim) (k : Bool → ℕ) (s : Bool) (o : Option Coord) : Prop :=
  o = some (armSw t b d s (k s)) ∨
    o = none ∧ ¬GapRing.Link (t.sz d) (t.link b d) s (GapRing.run (t.sz d) s (b d) (k s))

lemma armSw_succ (j : ℕ) : t.step (armSw t b d s j) d s = armSw t b d s (j + 1) := by
  rw [Torus.step, armSw, Function.update_self, Function.update_idem, armSw, GapRing.run_succ]

lemma armSw_apply (j : ℕ) : armSw t b d s j d = GapRing.run (t.sz d) s (b d) j := Function.update_self ..

lemma armSw_of_ne {e : Dim} (h : e ≠ d) (j : ℕ) : armSw t b d s j e = b e := Function.update_of_ne h ..

lemma link_armSw (hl : Linked t) (hb : b d < t.sz d) (j : ℕ) :
    GapRing.Link (t.sz d) (t.link b d) s (GapRing.run (t.sz d) s (b d) j) ↔
      t.ptgrp (armSw t b d s j) (d.grp s) ≠ [] := by
  have hiff := link_iff (s := s) (c := armSw t b d s j) hl (by rw [armSw_apply]; exact GapRing.run_lt hb)
  have hlink : t.link (armSw t b d s j) d = t.link b d := by
    funext p
    rw [Torus.link, Torus.link, armSw, Function.update_idem]
  rwa [hlink, armSw_apply] at hiff

lemma Grown.swInMasterStree_iff (hg : Grown t r st) (hn : st.masterRoot = none) :
    swInMasterStree st c = true ↔ ∃ g, (st.toRoot c g).isSome := by
  rw [swInMasterStree, hn]
  simp only [reduceCtorEq, decide_false, Bool.false_or, List.any_eq_true, List.mem_range]
  refine ⟨fun ⟨g, _, h⟩ => ⟨g, h⟩, fun ⟨g, h⟩ => ⟨g, ?_, h⟩⟩
  obtain ⟨q, hq⟩ := Option.isSome_iff_exists.mp h
  obtain ⟨e, s, hgrp, -⟩ := hg.edge c g q.1 q.2 hq
  rw [hgrp]
  exact grp_lt

lemma extendBranch_none (hl : t.ptgrp c (d.grp s) = []) : extendBranch t d (sign s) (st, some c) = (st, none) := by
  rw [extendBranch]
  dsimp only
  rw [ringNextSw_none hl]

lemma extendBranch_some (hl : Linked t) (h : t.ptgrp c (d.grp s) ≠ [])
    (hnew : swInMasterStree st (t.step c d s) = false) :
    extendBranch t d (sign s) (st, some c) =
      (growMasterStreeBranch st c (t.step c d s) (d.grp (!s)) (d.grp s), some (t.step c d s)) := by
  rw [extendBranch]
  dsimp only
  rw [ringNextSw_eq hl h]
  dsimp only
  rw [if_neg (by rw [hnew]; exact Bool.false_ne_true)]
  cases s <;> rfl

lemma Arms.fresh (hb : Branch t r st₀ b d) (ha : Arms t r b d st₀ st k) (hroom : k s + k (!s) + 1 < t.sz d) :
    ¬Member r st (armSw t b d s (k s + 1)) := by
  have hlt := present_lt hb.present d
  have hdist := GapRing.dist_run (s := s) (j := k s + 1) hlt (by omega)
  rw [ha.member]
  rintro (hold | ⟨s', j, hj, hle, heq⟩)
  · refine hb.others _ (GapRing.run_lt hlt) (fun he => ?_) hold
    rw [he, GapRing.dist_self] at hdist
    omega
  · have hpos := congrFun heq d
    rw [armSw_apply, armSw_apply] at hpos
    rw [hpos] at hdist
    by_cases hs : s' = s
    · subst hs
      rw [GapRing.dist_run hlt (by omega)] at hdist
      omega
    · obtain rfl : s' = !s := by
        cases s' <;> cases s <;> simp_all
      rw [GapRing.dist_run_not hlt hj (by omega)] at hdist
      omega

lemma grow_member {g h : ℕ} {p : Coord} (c' : Coord) :
    Member r (growMasterStreeBranch st p c g h) c' ↔ Member r st c' ∨ c' = c := by
  simp only [Member, grow_toRoot]
  constructor
  · rintro (rfl | ⟨g', hg'⟩)
    · exact .inl (.inl rfl)
    · split_ifs at hg' with hc
      · exact .inr hc.1
      · exact .inl (.inr ⟨g', hg'⟩)
  · rintro ((rfl | ⟨g', hg'⟩) | rfl)
    · exact .inl rfl
    · refine .inr ⟨g', ?_⟩
      split_ifs
      · rfl
      · exact hg'
    · refine .inr ⟨g, ?_⟩
      rw [if_pos ⟨rfl, rfl⟩]
      rfl

lemma Arms.member_arm (hb : Branch t r st₀ b d) (ha : Arms t r b d st₀ st k) {j : ℕ} (hj : j ≤ k s) :
    Member r st (armSw t b d s j) := by
  rw [ha.member]
  by_cases h₀ : j = 0
  · subst h₀
    rw [armSw, GapRing.run_zero, update_same]
    exact .inl hb.member
  · exact .inr ⟨s, j, h₀, hj, rfl⟩

lemma Arms.grow (hb : Branch t r st₀ b d) (ha : Arms t r b d st₀ st k)
    (hlink : GapRing.Link (t.sz d) (t.link b d) s (GapRing.run (t.sz d) s (b d) (k s)))
    (hroom : k s + k (!s) + 1 < t.sz d)
    (hwrap : Wraps (t.sz d) s (GapRing.run (t.sz d) s (b d) (k s)) →
      ∃ i < t.sz d, t.ptgrp (Function.update b d i) d.pos = []) :
    Arms t r b d st₀
      (growMasterStreeBranch st (armSw t b d s (k s)) (armSw t b d s (k s + 1)) (d.grp (!s)) (d.grp s))
      (Function.update k s (k s + 1)) := by
  have hlt := present_lt hb.present d
  have hnew := ha.fresh hb hroom
  have hself : Function.update k s (k s + 1) s = k s + 1 := Function.update_self ..
  have hother : Function.update k s (k s + 1) (!s) = k (!s) := Function.update_of_ne (by cases s <;> decide) ..
  constructor
  case grown =>
    rw [← armSw_succ] at hnew ⊢
    refine ha.grown.grow hb.linked (ha.member_arm hb le_rfl) ((link_armSw hb.linked hlt _).mp hlink) hnew ?_ ?_ ?_
    · rw [armSw_succ, armSw_apply, ← hb.same d le_rfl]
      intro heq
      have hdist := GapRing.dist_run (s := s) (j := k s + 1) hlt (by omega)
      rw [heq, GapRing.dist_self] at hdist
      omega
    · intro e he
      have hne : e ≠ d := by
        rintro rfl
        exact lt_irrefl _ he
      rw [armSw_succ, armSw_of_ne hne]
      exact hb.same e he.le
    · rw [armSw_apply]
      intro hw
      obtain ⟨i, hi, hempty⟩ := hwrap hw
      exact ⟨i, hi, by rwa [armSw, Function.update_idem]⟩
  case noRoot => exact ha.noRoot
  case member =>
    intro c
    rw [grow_member, ha.member, or_assoc]
    refine or_congr_right ⟨?_, ?_⟩
    · rintro (⟨s', j, h₀, hj, rfl⟩ | rfl)
      · refine ⟨s', j, h₀, hj.trans ?_, rfl⟩
        by_cases hs : s' = s
        · rw [hs, hself]
          exact Nat.le_succ _
        · rw [Function.update_of_ne hs]
      · exact ⟨s, k s + 1, by omega, hself.ge, rfl⟩
    · rintro ⟨s', j, h₀, hj, rfl⟩
      by_cases hs : s' = s
      · subst hs
        rw [hself] at hj
        rcases hj.eq_or_lt with rfl | hlt
        · exact .inr rfl
        · exact .inl ⟨s', j, h₀, by omega, rfl⟩
      · rw [Function.update_of_ne hs] at hj
        exact .inl ⟨s', j, h₀, hj, rfl⟩
  case links =>
    intro s' j hj
    by_cases hs : s' = s
    · subst hs
      rw [hself] at hj
      rcases (Nat.lt_succ_iff.mp hj).eq_or_lt with rfl | hlt
      · exact hlink
      · exact ha.links s' j hlt
    · rw [Function.update_of_ne hs] at hj
      exact ha.links s' j hj
  case room =>
    intro s'
    by_cases hs : s' = s
    · subst hs
      rw [hself, hother]
      omega
    · obtain rfl : s' = !s := by
        cases s' <;> cases s <;> simp_all
      rw [Bool.not_not, hself, hother]
      omega

lemma Arms.extend (hb : Branch t r st₀ b d) (ha : Arms t r b d st₀ st k) (ht : Tip t b d k s o)
    (hroom : o.isSome → GapRing.Link (t.sz d) (t.link b d) s (GapRing.run (t.sz d) s (b d) (k s)) →
      k s + k (!s) + 1 < t.sz d)
    (hwrap : o.isSome → Wraps (t.sz d) s (GapRing.run (t.sz d) s (b d) (k s)) →
      ∃ i < t.sz d, t.ptgrp (Function.update b d i) d.pos = []) :
    ∃ k', Arms t r b d st₀ (extendBranch t d (sign s) (st, o)).1 k' ∧
      Tip t b d k' s (extendBranch t d (sign s) (st, o)).2 ∧ k' (!s) = k (!s) ∧ k' s ≤ k s + 1 ∧ k s ≤ k' s ∧
        ((extendBranch t d (sign s) (st, o)).2.isSome → o.isSome ∧ k' s = k s + 1) := by
  have hl := hb.linked
  have hlt := present_lt hb.present d
  rcases ht with rfl | ⟨rfl, hmiss⟩
  · by_cases hgrp : t.ptgrp (armSw t b d s (k s)) (d.grp s) = []
    · rw [extendBranch_none hgrp]
      exact ⟨k, ha, .inr ⟨rfl, fun h => (link_armSw hl hlt _).mp h hgrp⟩, rfl, Nat.le_succ _, le_rfl,
          fun h => by cases h⟩
    · have hlink := (link_armSw hl hlt (k s)).mpr hgrp
      have hr := hroom rfl hlink
      have hnew := ha.fresh hb hr
      have hsw : swInMasterStree st (t.step (armSw t b d s (k s)) d s) = false := by
        rw [← Bool.not_eq_true, ha.grown.swInMasterStree_iff ha.noRoot, armSw_succ]
        exact fun h => hnew (.inr h)
      have hself : Function.update k s (k s + 1) s = k s + 1 := Function.update_self ..
      rw [extendBranch_some hl hgrp hsw, armSw_succ]
      refine ⟨Function.update k s (k s + 1), ha.grow hb hlink hr (hwrap rfl), .inl ?_, ?_, hself.le, ?_,
          fun _ => ⟨rfl, hself⟩⟩
      · rw [hself]
      · rw [Function.update_of_ne (by cases s <;> decide)]
      · rw [hself]
        exact Nat.le_succ _
  · exact ⟨k, ha, .inr ⟨rfl, hmiss⟩, rfl, Nat.le_succ _, le_rfl, fun h => by cases h⟩

lemma Arms.iterate (hb : Branch t r st₀ b d) (ha : Arms t r b d st₀ st k) (hk : k s = 0) {i : ℕ}
    (hroom : i + k (!s) < t.sz d)
    (hwrap : ∀ j < i, ¬Wraps (t.sz d) s (GapRing.run (t.sz d) s (b d) j)) :
    ∃ k', Arms t r b d st₀ ((extendBranch t d (sign s))^[i] (st, some b)).1 k' ∧
      Tip t b d k' s ((extendBranch t d (sign s))^[i] (st, some b)).2 ∧ k' (!s) = k (!s) ∧ k' s ≤ i ∧
        (((extendBranch t d (sign s))^[i] (st, some b)).2.isSome → k' s = i) := by
  induction i with
  | zero =>
    refine ⟨k, ha, .inl ?_, rfl, hk.le, fun _ => hk⟩
    rw [hk, armSw, GapRing.run_zero, update_same]
    rfl
  | succ i ih =>
    obtain ⟨k', ha', ht, hother, hle, hsome⟩ := ih (by omega) fun j hj => hwrap j (by omega)
    rw [Function.iterate_succ_apply']
    generalize (extendBranch t d (sign s))^[i] (st, some b) = x at ha' ht hsome
    obtain ⟨k'', ha'', ht'', hother', hle', -, hsome'⟩ := ha'.extend hb ht (fun _ _ => by omega) fun hx hw => by
      rw [hsome hx] at hw
      exact absurd hw (hwrap i (by omega))
    refine ⟨k'', ha'', ht'', hother'.trans hother, by omega, fun h => ?_⟩
    obtain ⟨hx, heq⟩ := hsome' h
    rw [heq, hsome hx]

lemma Arms.not_met (hb : Branch t r st₀ b d) (ha : Arms t r b d st₀ st k)
    (hmiss : ∃ i < t.sz d, t.ptgrp (Function.update b d i) d.pos = [])
    (hlink : GapRing.Link (t.sz d) (t.link b d) s (GapRing.run (t.sz d) s (b d) (k s))) :
    k s + k (!s) + 1 < t.sz d := by
  obtain ⟨i, hi, hempty⟩ := hmiss
  have hroom := ha.room s
  by_contra hge
  have hk : k true + k false + 1 = t.sz d := by
    cases s with
    | true =>
      change k true + k false < t.sz d at hroom
      change ¬k true + k false + 1 < t.sz d at hge
      omega
    | false =>
      change k false + k true < t.sz d at hroom
      change ¬k false + k true + 1 < t.sz d at hge
      omega
  exact GapRing.link_of_arms (present_lt hb.present d) hk ha.links hlink hi hempty

lemma crossDateline_spec (hb : Branch t r st₀ b d) (ha : Arms t r b d st₀ st k) {n p : Option Coord}
    (hn : Tip t b d k false n) (hp : Tip t b d k true p)
    (hmiss : ∃ i < t.sz d, t.ptgrp (Function.update b d i) d.pos = []) {cnt : ℕ}
    (hcnt : t.sz d ≤ k true + k false + cnt) :
    ∃ k', Arms t r b d st₀ (crossDateline t d cnt st n p) k' ∧
      ∀ s, ¬GapRing.Link (t.sz d) (t.link b d) s (GapRing.run (t.sz d) s (b d) (k' s)) := by
  induction cnt generalizing st k n p with
  | zero =>
    have hroom := ha.room true
    change k true + k false < t.sz d at hroom
    omega
  | succ cnt ih =>
    have htip : ∀ {k k' : Bool → ℕ} {s o}, k' s = k s → Tip t b d k s o → Tip t b d k' s o := by
      intro k k' s o hk ht
      rwa [Tip, hk]
    have hnoLink : ∀ {k : Bool → ℕ} {s o}, Tip t b d k s o → o.isNone →
        ¬GapRing.Link (t.sz d) (t.link b d) s (GapRing.run (t.sz d) s (b d) (k s)) := by
      rintro k s o (rfl | ⟨-, h⟩) ho
      · cases ho
      · exact h
    rw [crossDateline]
    obtain ⟨k₁, ha₁, hn₁, hother₁, -, hge₁, hsome₁⟩ :=
      ha.extend hb hn (fun _ hlink => ha.not_met hb hmiss hlink) fun _ _ => hmiss
    change k₁ true = k true at hother₁
    change Arms t r b d st₀ (extendBranch t d (-1) (st, n)).1 k₁ at ha₁
    change Tip t b d k₁ false (extendBranch t d (-1) (st, n)).2 at hn₁
    change (extendBranch t d (-1) (st, n)).2.isSome → _ at hsome₁
    generalize extendBranch t d (-1) (st, n) = neg at ha₁ hn₁ hsome₁ ⊢
    obtain ⟨k₂, ha₂, hp₂, hother₂, -, hge₂, hsome₂⟩ :=
      ha₁.extend hb (htip hother₁ hp) (fun _ hlink => ha₁.not_met hb hmiss hlink) fun _ _ => hmiss
    change k₂ false = k₁ false at hother₂
    change Arms t r b d st₀ (extendBranch t d 1 (neg.1, p)).1 k₂ at ha₂
    change Tip t b d k₂ true (extendBranch t d 1 (neg.1, p)).2 at hp₂
    change (extendBranch t d 1 (neg.1, p)).2.isSome → _ at hsome₂
    generalize extendBranch t d 1 (neg.1, p) = pos at ha₂ hp₂ hsome₂ ⊢
    have hn₂ := htip hother₂ hn₁
    split_ifs with hstop
    · rw [Bool.and_eq_true] at hstop
      refine ⟨k₂, ha₂, fun s => ?_⟩
      cases s with
      | true => exact hnoLink hp₂ hstop.2
      | false => exact hnoLink hn₂ hstop.1
    · refine ih ha₂ hn₂ hp₂ ?_
      by_cases hneg : neg.2.isSome
      · have hstep := (hsome₁ hneg).2
        omega
      · have hpos : pos.2.isSome := by
          rw [Bool.and_eq_true] at hstop
          by_contra hno
          refine hstop ⟨?_, ?_⟩
          · rwa [Option.isNone_iff_eq_none, ← Option.not_isSome_iff_eq_none]
          · rwa [Option.isNone_iff_eq_none, ← Option.not_isSome_iff_eq_none]
        have hstep := (hsome₂ hpos).2
        omega

lemma Arms.present_arm (hb : Branch t r st₀ b d) (ha : Arms t r b d st₀ st k) {j : ℕ} (hj : j ≤ k s) :
    t.present (armSw t b d s j) := by
  cases j with
  | zero =>
    rw [armSw, GapRing.run_zero, update_same]
    exact hb.present
  | succ j =>
    have hlt := present_lt hb.present d
    have hlink := (link_armSw hb.linked hlt j).mp (ha.links s j hj)
    rw [← armSw_succ]
    exact ptgrp_ne_nil (hb.linked.ptgrp_step hlink)

lemma exists_missing (hb : b d < t.sz d) {j : ℕ}
    (h : ¬GapRing.Link (t.sz d) (t.link b d) s (GapRing.run (t.sz d) s (b d) j)) :
    ∃ i < t.sz d, t.ptgrp (Function.update b d i) d.pos = [] := by
  have hlt := GapRing.run_lt (s := s) (j := j) hb
  cases s with
  | true => exact ⟨_, hlt, not_not.mp h⟩
  | false => exact ⟨_, GapRing.adj_lt (s := false) hlt, not_not.mp h⟩

lemma cover_missing (hr : routableTorus t = true) (hb : Branch t r st₀ b d)
    (hstop : ∀ s, ¬GapRing.Link (t.sz d) (t.link b d) s (GapRing.run (t.sz d) s (b d) (k s))) {q : ℕ}
    (hq : t.present (Function.update b d q)) : ∃ s, ∃ j ≤ k s, Function.update b d q = armSw t b d s j := by
  have hlt := present_lt hb.present d
  have hqlt := present_lt hq d
  rw [Function.update_self] at hqlt
  obtain ⟨s, hopen, -⟩ := exists_chosen hb.linked hr hb.present hq
  refine ⟨s, GapRing.dist (t.sz d) s (b d) q, ?_, ?_⟩
  · by_contra hgt
    exact hstop s (hopen.link_run hlt hqlt (by omega))
  · rw [armSw, GapRing.run_dist hlt hqlt]

lemma cover_dateline (hb : b d < t.sz d) (hneg : k false = b d) (hpos : k true = t.sz d - 1 - b d) {q : ℕ}
    (hq : q < t.sz d) : ∃ s, ∃ j ≤ k s, Function.update b d q = armSw t b d s j := by
  rcases le_total q (b d) with hle | hle
  · refine ⟨false, b d - q, by omega, ?_⟩
    rw [armSw, GapRing.run_false_of_le (by omega), Nat.sub_sub_self hle]
  · refine ⟨true, q - b d, by omega, ?_⟩
    rw [armSw, GapRing.run_true_of_lt (by omega), Nat.add_sub_cancel' hle]

lemma Arms.member_iff (hb : Branch t r st₀ b d) (ha : Arms t r b d st₀ st k)
    (hcover : ∀ q, t.present (Function.update b d q) → ∃ s, ∃ j ≤ k s, Function.update b d q = armSw t b d s j) :
    Member r st c ↔ Member r st₀ c ∨ t.present c ∧ ∃ q, c = Function.update b d q := by
  constructor
  · intro h
    rcases (ha.member c).mp h with hold | ⟨s, j, -, hj, rfl⟩
    · exact .inl hold
    · exact .inr ⟨ha.present_arm hb hj, _, rfl⟩
  · rintro (hold | ⟨hc, q, rfl⟩)
    · exact (ha.member c).mpr (.inl hold)
    · obtain ⟨s, j, hj, heq⟩ := hcover q hc
      rw [heq]
      exact ha.member_arm hb hj

/-- A branch takes in all of its ring. -/
lemma build_spec (hr : routableTorus t = true) (hb : Branch t r st₀ b d) (hg : Grown t r st₀)
    (hnone : st₀.masterRoot = none) :
    Grown t r (buildMasterStreeBranch t st₀ b d) ∧ (buildMasterStreeBranch t st₀ b d).masterRoot = none ∧
      ∀ c, Member r (buildMasterStreeBranch t st₀ b d) c ↔
        Member r st₀ c ∨ t.present c ∧ ∃ q, c = Function.update b d q := by
  have hlt := present_lt hb.present d
  have hstart : Arms t r b d st₀ st₀ fun _ => 0 := by
    refine ⟨hg, hnone, fun c => ?_, fun _ j hj => absurd hj (Nat.not_lt_zero j), fun _ => by omega⟩
    refine (or_iff_left ?_).symm
    rintro ⟨s, j, hj, hle, -⟩
    exact hj (Nat.le_zero.mp hle)
  obtain ⟨k₁, ha₁, hn₁, hother₁, hle₁, hsome₁⟩ := hstart.iterate (s := false) (i := b d) hb rfl (by omega) (by
    intro j hj hw
    rw [GapRing.run_false_of_le hj.le] at hw
    change b d - j = 0 at hw
    omega)
  change k₁ true = 0 at hother₁
  obtain ⟨k₂, ha₂, hp₂, hother₂, hle₂, hsome₂⟩ := ha₁.iterate (s := true) (i := t.sz d - 1 - b d) hb hother₁ (by
    change t.sz d - 1 - b d + k₁ false < t.sz d
    omega) (by
    intro j hj hw
    rw [GapRing.run_true_of_lt (by omega)] at hw
    change b d + j + 1 = t.sz d at hw
    omega)
  change k₂ false = k₁ false at hother₂
  have hn₂ : Tip t b d k₂ false ((extendBranch t d (-1))^[b d] (st₀, some b)).2 := by
    rw [Tip, hother₂]
    exact hn₁
  change Arms t r b d st₀ ((extendBranch t d 1)^[_] (((extendBranch t d (-1))^[b d] (st₀, some b)).1,
      _)).1 k₂ at ha₂
  change Tip t b d k₂ true ((extendBranch t d 1)^[_] (((extendBranch t d (-1))^[b d] (st₀, some b)).1, _)).2 at hp₂
  change ((extendBranch t d 1)^[_] (((extendBranch t d (-1))^[b d] (st₀, some b)).1, _)).2.isSome → _ at hsome₂
  change ((extendBranch t d (-1))^[b d] (st₀, some b)).2.isSome → _ at hsome₁
  rw [buildMasterStreeBranch]
  generalize (extendBranch t d (-1))^[b d] (st₀, some b) = neg at *
  generalize (extendBranch t d 1)^[_] (neg.1, some b) = pos at *
  by_cases hboth : (neg.2.isSome && pos.2.isSome) = true
  · rw [if_pos hboth]
    rw [Bool.and_eq_true] at hboth
    refine ⟨ha₂.grown, ha₂.noRoot, fun c => ha₂.member_iff hb fun q hq => ?_⟩
    have hqlt := present_lt hq d
    rw [Function.update_self] at hqlt
    exact cover_dateline hlt (hother₂.trans (hsome₁ hboth.1)) (hsome₂ hboth.2) hqlt
  · rw [if_neg hboth]
    have hmiss : ∃ i < t.sz d, t.ptgrp (Function.update b d i) d.pos = [] := by
      rcases hn₂ with hn | ⟨-, hlink⟩
      · rcases hp₂ with hp | ⟨-, hlink⟩
        · rw [hn, hp] at hboth
          exact absurd rfl hboth
        · exact exists_missing hlt hlink
      · exact exists_missing hlt hlink
    obtain ⟨k₃, ha₃, hstop⟩ := crossDateline_spec hb ha₂ hn₂ hp₂ hmiss (Nat.le_add_left _ _)
    exact ⟨ha₃.grown, ha₃.noRoot, fun c => ha₃.member_iff hb fun q hq => cover_missing hr hb hstop hq⟩

end Arms

section Planes

variable {t : Torus} {r b c : Coord} {st : Stree} {d : Dim} {D D' : Coord → Prop}

structure Spread (t : Torus) (r : Coord) (D : Coord → Prop) (st : Stree) : Prop where
  grown : Grown t r st
  noRoot : st.masterRoot = none
  member : ∀ c, Member r st c ↔ t.present c ∧ D c

lemma Dim.forall {P : Dim → Prop} : (∀ d, P d) ↔ P .x ∧ P .y ∧ P .z := by
  refine ⟨fun h => ⟨h _, h _, h _⟩, ?_⟩
  rintro ⟨hx, hy, hz⟩ d
  cases d with
  | x => exact hx
  | y => exact hy
  | z => exact hz

lemma exists_update : (∃ q, c = Function.update b d q) ↔ ∀ e, e ≠ d → c e = b e := by
  constructor
  · rintro ⟨q, rfl⟩ e he
    exact Function.update_of_ne he ..
  · intro h
    refine ⟨c d, funext fun e => ?_⟩
    by_cases he : e = d
    · rw [he, Function.update_self]
    · rw [Function.update_of_ne he, h e he]

lemma Spread.congr (h : Spread t r D st) (hD : ∀ c, t.present c → (D c ↔ D' c)) : Spread t r D' st :=
  ⟨h.grown, h.noRoot, fun c => (h.member c).trans (and_congr_right (hD c))⟩

lemma Spread.build (hl : Linked t) (hr : routableTorus t = true) (h : Spread t r D st)
    (hb : t.present b) (hD : D b)
    (hothers : ∀ q, q ≠ b d → ¬D (Function.update b d q)) (hsame : ∀ e : Dim, d.idx ≤ e.idx → b e = r e)
    (hD' : ∀ c, t.present c → (D' c ↔ D c ∨ ∀ e, e ≠ d → c e = b e)) :
    Spread t r D' (buildMasterStreeBranch t st b d) := by
  have hbranch : Branch t r st b d :=
    ⟨hl, hb, (h.member b).mpr ⟨hb, hD⟩, fun q _ hq hm => hothers q hq ((h.member _).mp hm).2, hsame⟩
  obtain ⟨hgrown, hnone, hmember⟩ := build_spec hr hbranch h.grown h.noRoot
  refine ⟨hgrown, hnone, fun c => ?_⟩
  rw [hmember, h.member, ← and_or_left, exists_update]
  exact and_congr_right fun hc => (hD' c hc).symm

lemma grown_empty : Grown t r .empty := by
  have hnone : ∀ c g q, Stree.empty.toRoot c g ≠ some q := by
    intro c g q h
    cases h
  have hsome : ∀ c g, ¬(Stree.empty.toRoot c g).isSome := by
    intro c g h
    cases h
  constructor
  case orphan => exact fun _ => rfl
  case edge => exact fun c g p h heq => absurd heq (hnone c g (p, h))
  case mirror =>
    intro c g p h
    exact iff_of_false (hnone c g (p, h)) (hnone p h (c, g))
  case one => exact fun c g _ h => absurd h (hsome c g)
  case path => exact fun c g h => absurd h (hsome c g)
  case layer => exact fun c _ _ h => absurd h (hsome c _)
  case dateline => exact fun c p d s heq => absurd heq (hnone c _ _)

lemma spread_empty (hr : t.present r) : Spread t r (fun c => c = r) .empty := by
  refine ⟨grown_empty, rfl, fun c => ⟨?_, ?_⟩⟩
  · rintro (rfl | ⟨g, hg⟩)
    · exact ⟨hr, rfl⟩
    · cases hg
  · rintro ⟨-, rfl⟩
    exact .inl rfl

def Region (t : Torus) (r : Coord) (i : ℕ) (c : Coord) : Prop :=
  (c .y = r .y ∧ c .z = r .z) ∨ (c .x < i ∧ t.present (Function.update c .z (r .z)))

lemma buildColumn_spec (hl : Linked t) (hr : routableTorus t = true) {i : ℕ} (h : Spread t r (Region t r i) st)
    (hi : t.present (coord i (r .y) (r .z))) : Spread t r (Region t r (i + 1)) (buildColumn t r st i) := by
  have hy : Spread t r (fun c => Region t r i c ∨ (c .x = i ∧ c .z = r .z))
      (buildMasterStreeBranch t st (coord i (r .y) (r .z)) .y) := by
    refine h.build hl hr hi (.inl ⟨rfl, rfl⟩) ?_ ?_ ?_
    · rintro q hq (⟨hqy, -⟩ | ⟨hlt, -⟩)
      · exact hq hqy
      · exact lt_irrefl i hlt
    · rw [Dim.forall]
      exact ⟨fun h => absurd h (by decide), fun _ => rfl, fun _ => rfl⟩
    · intro c _
      rw [Dim.forall]
      refine or_congr_right ⟨?_, ?_⟩
      · rintro ⟨hx, hz⟩
        exact ⟨fun _ => hx, fun h => absurd rfl h, fun _ => hz⟩
      · rintro ⟨hx, -, hz⟩
        exact ⟨hx (by decide), hz (by decide)⟩
  have hz : ∀ n, Spread t r
      (fun c => (Region t r i c ∨ (c .x = i ∧ c .z = r .z)) ∨
        (c .x = i ∧ c .y < n ∧ t.present (Function.update c .z (r .z))))
      ((List.range n).foldl (fun st j =>
        let zRoot := coord i j (r .z)
        if t.present zRoot then buildMasterStreeBranch t st zRoot .z else st)
        (buildMasterStreeBranch t st (coord i (r .y) (r .z)) .y)) := by
    intro n
    induction n with
    | zero => exact hy.congr fun c _ => (or_iff_left fun h => Nat.not_lt_zero _ h.2.1).symm
    | succ n ih =>
      rw [List.range_succ, List.foldl_append, List.foldl_cons, List.foldl_nil]
      generalize (List.range n).foldl _ _ = st' at ih ⊢
      have hupd : ∀ c : Coord, c .x = i → c .y = n → Function.update c .z (r .z) = coord i n (r .z) := by
        intro c hx hy
        funext e
        cases e with
        | x => exact hx
        | y => exact hy
        | z => rfl
      by_cases hn : t.present (coord i n (r .z))
      · rw [if_pos hn]
        refine ih.build hl hr hn (.inl (.inr ⟨rfl, rfl⟩)) ?_ ?_ ?_
        · rintro q hq (((⟨-, hz⟩ | ⟨hlt, -⟩) | ⟨-, hz⟩) | ⟨-, hlt, -⟩)
          · exact hq hz
          · exact lt_irrefl i hlt
          · exact hq hz
          · exact lt_irrefl n hlt
        · rw [Dim.forall]
          exact ⟨fun h => absurd h (by decide), fun h => absurd h (by decide), fun _ => rfl⟩
        · intro c _
          rw [Dim.forall]
          refine (or_congr_right ?_).trans or_assoc.symm
          constructor
          · rintro ⟨hx, hy, hp⟩
            rcases (Nat.lt_succ_iff.mp hy).eq_or_lt with heq | hlt
            · exact .inr ⟨fun _ => hx, fun _ => heq, fun h => absurd rfl h⟩
            · exact .inl ⟨hx, hlt, hp⟩
          · rintro (⟨hx, hy, hp⟩ | ⟨hx, hy, -⟩)
            · exact ⟨hx, hy.trans (Nat.lt_succ_self n), hp⟩
            · have hx' := hx (by decide)
              have hy' : c .y = n := hy (by decide)
              exact ⟨hx', hy'.trans_lt (Nat.lt_succ_self n), by rwa [hupd c hx' hy']⟩
      · rw [if_neg hn]
        refine ih.congr fun c _ => or_congr_right ⟨?_, ?_⟩
        · rintro ⟨hx, hy, hp⟩
          exact ⟨hx, hy.trans (Nat.lt_succ_self n), hp⟩
        · rintro ⟨hx, hy, hp⟩
          rcases (Nat.lt_succ_iff.mp hy).eq_or_lt with heq | hlt
          · rw [hupd c hx heq] at hp
            exact absurd hp hn
          · exact ⟨hx, hlt, hp⟩
  rw [buildColumn]
  dsimp only
  rw [if_pos hi]
  refine (hz (t.sz .y)).congr fun c hc => ?_
  constructor
  · rintro (((h | ⟨hlt, hp⟩) | ⟨hx, hz⟩) | ⟨hx, -, hp⟩)
    · exact .inl h
    · exact .inr ⟨hlt.trans (Nat.lt_succ_self i), hp⟩
    · refine .inr ⟨hx.trans_lt (Nat.lt_succ_self i), ?_⟩
      rw [← hz, update_same]
      exact hc
    · exact .inr ⟨hx.trans_lt (Nat.lt_succ_self i), hp⟩
  · rintro (h | ⟨hlt, hp⟩)
    · exact .inl (.inl (.inl h))
    · rcases (Nat.lt_succ_iff.mp hlt).eq_or_lt with heq | hlt
      · exact .inr ⟨heq, present_lt hc .y, hp⟩
      · exact .inl (.inl (.inr ⟨hlt, hp⟩))

lemma build_all (hl : Linked t) (hr : routableTorus t = true) (hpr : t.present r)
    (hx : ∀ i < t.sz .x, t.present (coord i (r .y) (r .z))) (n : ℕ) (hn : n ≤ t.sz .x) :
    Spread t r (Region t r n)
      ((List.range n).foldl (buildColumn t r) (buildMasterStreeBranch t .empty r .x)) := by
  induction n with
  | zero =>
    refine (spread_empty hpr).build hl hr hpr rfl ?_ (fun _ _ => rfl) ?_
    · intro q hq heq
      have hpos := congrFun heq Dim.x
      rw [Function.update_self] at hpos
      exact hq hpos
    · intro c _
      rw [Dim.forall]
      constructor
      · rintro (⟨hy, hz⟩ | ⟨hlt, -⟩)
        · exact .inr ⟨fun h => absurd rfl h, fun _ => hy, fun _ => hz⟩
        · exact absurd hlt (Nat.not_lt_zero _)
      · rintro (rfl | ⟨-, hy, hz⟩)
        · exact .inl ⟨rfl, rfl⟩
        · exact .inl ⟨hy (by decide), hz (by decide)⟩
  | succ n ih =>
    rw [List.range_succ, List.foldl_append, List.foldl_cons, List.foldl_nil]
    exact buildColumn_spec hl hr (ih (by omega)) (hx n (by omega))

end Planes

section Search

variable {t : Torus} {r c : Coord} {x y z : ℕ}

/-- A whole column is missing, and each place that the search for the root looks at is in line with it. -/
def Blind (t : Torus) : Prop :=
  ∃ x < t.sz .x, ∃ y < t.sz .y, (∀ z < t.sz .z, ¬t.present (coord x y z)) ∧
    ∀ q ∈ planeProbes t, q.1 = x ∨ q.2 = y

lemma canonicalize_lt {v : ℤ} {n : ℕ} (hn : 0 < n) : canonicalize v n < n := by
  rw [canonicalize]
  by_cases h : 0 ≤ v ∧ v < n
  · rw [if_pos h]
    omega
  · rw [if_neg h]
    have hlt := Int.tmod_lt_of_pos (if v < 0 then v + n * (1 - v.tdiv n) else v) (Int.natCast_pos.mpr hn)
    change ((if v < 0 then v + n * (1 - v.tdiv n) else v).tmod n).toNat < n
    generalize (if v < 0 then v + n * (1 - v.tdiv n) else v).tmod n = w at hlt ⊢
    omega

lemma canonicalize_of_lt {v n : ℕ} (h : v < n) : canonicalize v n = v := by
  rw [canonicalize, if_pos (by omega), Int.toNat_natCast]

lemma mem_planeProbes (hx : 0 < t.sz .x) (hy : 0 < t.sz .y) {q : ℕ × ℕ} (hq : q ∈ planeProbes t) :
    q.1 < t.sz .x ∧ q.2 < t.sz .y := by
  rw [planeProbes] at hq
  rcases List.mem_cons.mp hq with rfl | hq
  · exact ⟨Nat.div_lt_self hx (by decide), Nat.div_lt_self hy (by decide)⟩
  · obtain ⟨n, -, hq⟩ := List.mem_flatMap.mp hq
    rcases List.mem_cons.mp hq with rfl | hq
    · exact ⟨canonicalize_lt hx, canonicalize_lt hy⟩
    · obtain rfl := List.mem_singleton.mp hq
      exact ⟨canonicalize_lt hx, canonicalize_lt hy⟩

lemma not_blind_of_three_le (hx : 3 ≤ t.sz .x) (hy : 3 ≤ t.sz .y) : ¬Blind t := by
  have hcanon : ∀ {n : ℕ}, 3 ≤ n → canonicalize (((n / 2 : ℕ) : ℤ) - ((0 : ℕ) + 1)) n = n / 2 - 1 ∧
      canonicalize (((n / 2 : ℕ) : ℤ) + ((0 : ℕ) + 1)) n = n / 2 + 1 := by
    intro n hn
    have hdown : ((n / 2 : ℕ) : ℤ) - ((0 : ℕ) + 1) = (n / 2 - 1 : ℕ) := by omega
    have hup : ((n / 2 : ℕ) : ℤ) + ((0 : ℕ) + 1) = (n / 2 + 1 : ℕ) := by omega
    rw [hdown, hup, canonicalize_of_lt (by omega), canonicalize_of_lt (by omega)]
    exact ⟨rfl, rfl⟩
  have hfirst : 0 ∈ List.range (min (t.sz .x / 2) (t.sz .y / 2)) := by
    rw [List.mem_range]
    omega
  rintro ⟨x, -, y, -, -, hprobes⟩
  have hmid := hprobes (t.sz .x / 2, t.sz .y / 2) List.mem_cons_self
  have hlow := hprobes _ (List.mem_cons_of_mem _ (List.mem_flatMap.mpr ⟨0, hfirst, List.mem_cons_self⟩))
  have hhigh := hprobes _ (List.mem_cons_of_mem _ (List.mem_flatMap.mpr
    ⟨0, hfirst, List.mem_cons_of_mem _ List.mem_cons_self⟩))
  dsimp only at hmid hlow hhigh
  rw [(hcanon hx).1, (hcanon hy).1] at hlow
  rw [(hcanon hx).2, (hcanon hy).2] at hhigh
  omega

lemma mem_zProbes (hz : 0 < t.sz .z) : z ∈ zProbes t ↔ z < t.sz .z := by
  have hmem : z ∈ zProbes t ↔ ∃ dz : ℕ, dz < t.sz .z / 2 + 1 ∧
      (z = canonicalize (t.sz .z / 2 - dz : ℤ) (t.sz .z) ∨
        z ∈ if dz = 0 then [] else [canonicalize (t.sz .z / 2 + dz : ℤ) (t.sz .z)]) := by
    simp only [zProbes, List.mem_flatMap, List.mem_range, List.mem_cons]
    rfl
  rw [hmem]
  constructor
  · rintro ⟨dz, -, rfl | hm⟩
    · exact canonicalize_lt hz
    · split_ifs at hm
      · cases hm
      · rw [List.mem_singleton] at hm
        rw [hm]
        exact canonicalize_lt hz
  · intro hlt
    rcases le_or_gt z (t.sz .z / 2) with hle | hgt
    · refine ⟨t.sz .z / 2 - z, by omega, .inl ?_⟩
      have hsub : (t.sz .z / 2 : ℤ) - ((t.sz .z / 2 - z : ℕ) : ℤ) = (z : ℕ) := by omega
      rw [hsub, canonicalize_of_lt hlt]
    · refine ⟨z - t.sz .z / 2, by omega, .inr ?_⟩
      have hadd : (t.sz .z / 2 : ℤ) + ((z - t.sz .z / 2 : ℕ) : ℤ) = (z : ℕ) := by omega
      rw [if_neg (by omega), hadd, canonicalize_of_lt hlt]
      exact List.mem_singleton.mpr rfl

lemma goodXyRing_iff : goodXyRing t x y z = true ↔
    (∀ i < t.sz .x, t.present (coord i y z)) ∧ ∀ j < t.sz .y, t.present (coord x j z) := by
  simp only [goodXyRing, Bool.and_eq_true, List.all_eq_true, List.mem_range]

lemma goodPlane_iff : goodPlane t z = true ↔ ∀ j < t.sz .y, ∀ i < t.sz .x, t.present (coord i j z) := by
  simp only [goodPlane, List.all_eq_true, List.mem_range]

lemma findPlaneMid_of_goodPlane (hx : 0 < t.sz .x) (hy : 0 < t.sz .y) (h : goodPlane t z = true) :
    (findPlaneMid t z).isSome := by
  have hgood := goodPlane_iff.mp h
  have hring : goodXyRing t (t.sz .x / 2) (t.sz .y / 2) z = true := by
    have hmid := mem_planeProbes hx hy (q := (t.sz .x / 2, t.sz .y / 2)) List.mem_cons_self
    exact goodXyRing_iff.mpr ⟨fun i hi => hgood _ hmid.2 i hi, fun j hj => hgood j hj _ hmid.1⟩
  rw [findPlaneMid, Option.isSome_map, List.find?_isSome]
  exact ⟨_, List.mem_cons_self, hring⟩

lemma findPlaneMid_spec (hx : 0 < t.sz .x) (hy : 0 < t.sz .y) (h : findPlaneMid t z = some r) :
    r .z = z ∧ t.present r ∧ ∀ i < t.sz .x, t.present (coord i (r .y) (r .z)) := by
  rw [findPlaneMid, Option.map_eq_some_iff] at h
  obtain ⟨q, hq, rfl⟩ := h
  have hmem := mem_planeProbes hx hy (List.mem_of_find?_eq_some hq)
  have hring := List.find?_some hq
  obtain ⟨hrow, -⟩ := goodXyRing_iff.mp hring
  exact ⟨rfl, hrow _ hmem.1, hrow⟩

lemma exists_missing_of_not_goodPlane (h : ¬goodPlane t z = true) :
    ∃ i < t.sz .x, ∃ j < t.sz .y, ¬t.present (coord i j z) := by
  rw [goodPlane_iff] at h
  push Not at h
  obtain ⟨j, hj, i, hi, hm⟩ := h
  exact ⟨i, hi, j, hj, hm⟩

lemma exists_column (hr : routableTorus t = true) (hz : 0 < t.sz .z)
    (hbad : ∀ z < t.sz .z, ¬goodPlane t z = true) :
    ∃ x < t.sz .x, ∃ y < t.sz .y, ∀ z < t.sz .z, ¬t.present (coord x y z) := by
  obtain ⟨x, hx, y, hy, hm⟩ := exists_missing_of_not_goodPlane (hbad 0 hz)
  refine ⟨x, hx, y, hy, fun z hlt => ?_⟩
  obtain ⟨i, hi, j, hj, hm'⟩ := exists_missing_of_not_goodPlane (hbad z hlt)
  obtain ⟨hxi, hyj⟩ := missing_column (c := coord x y 0) (b := coord i j z) hr (Dim.forall.mpr ⟨hx, hy, hz⟩)
    (Dim.forall.mpr ⟨hi, hj, hlt⟩) hm hm'
  change x = i at hxi
  change y = j at hyj
  rwa [hxi, hyj]

lemma findSome_zProbes (hsz : ∀ d, 0 < t.sz d) :
    ((zProbes t).findSome? fun z => if goodPlane t z then findPlaneMid t z else none) = none ↔
      ∀ z < t.sz .z, ¬goodPlane t z = true := by
  rw [List.findSome?_eq_none_iff]
  constructor
  · intro h z hz hgood
    have hnone := h z ((mem_zProbes (hsz .z)).mpr hz)
    rw [if_pos hgood] at hnone
    have hsome := findPlaneMid_of_goodPlane (hsz .x) (hsz .y) hgood
    rw [hnone] at hsome
    cases hsome
  · intro h z hz
    exact if_neg (h z ((mem_zProbes (hsz .z)).mp hz))

lemma findStreeRoot_eq_none (hr : routableTorus t = true) (hsz : ∀ d, 0 < t.sz d) :
    findStreeRoot t = none ↔ Blind t := by
  have hmid : t.sz .z / 2 < t.sz .z := Nat.div_lt_self (hsz .z) (by decide)
  have hor : findStreeRoot t = none ↔
      (∀ z < t.sz .z, ¬goodPlane t z = true) ∧ findPlaneMid t (t.sz .z / 2) = none := by
    rw [← findSome_zProbes hsz, findStreeRoot]
    cases (zProbes t).findSome? fun z => if goodPlane t z then findPlaneMid t z else none with
    | none => exact (and_iff_right rfl).symm
    | some r => exact iff_of_false (fun h => by cases h) fun h => by cases h.1
  rw [hor]
  constructor
  · rintro ⟨hbad, hnone⟩
    obtain ⟨x, hx, y, hy, hcol⟩ := exists_column hr (hsz .z) hbad
    refine ⟨x, hx, y, hy, hcol, fun q hq => ?_⟩
    have hin := mem_planeProbes (hsz .x) (hsz .y) hq
    rw [findPlaneMid, Option.map_eq_none_iff, List.find?_eq_none] at hnone
    have hring := hnone q hq
    rw [goodXyRing_iff, not_and_or] at hring
    have hsame : ∀ i < t.sz .x, ∀ j < t.sz .y, ¬t.present (coord i j (t.sz .z / 2)) → i = x ∧ j = y := by
      intro i hi j hj hm
      exact missing_column (c := coord i j _) (b := coord x y _) hr (Dim.forall.mpr ⟨hi, hj, hmid⟩)
        (Dim.forall.mpr ⟨hx, hy, hmid⟩) hm (hcol _ hmid)
    push Not at hring
    rcases hring with ⟨i, hi, hm⟩ | ⟨j, hj, hm⟩
    · exact .inr (hsame i hi _ hin.2 hm).2
    · exact .inl (hsame _ hin.1 j hj hm).1
  · rintro ⟨x, hx, y, hy, hcol, hprobes⟩
    refine ⟨fun z hz hgood => hcol z hz (goodPlane_iff.mp hgood y hy x hx), ?_⟩
    rw [findPlaneMid, Option.map_eq_none_iff, List.find?_eq_none]
    intro q hq hring
    obtain ⟨hrow, hcolumn⟩ := goodXyRing_iff.mp hring
    rcases hprobes q hq with heq | heq
    · rw [heq] at hcolumn
      exact hcol _ hmid (hcolumn y hy)
    · rw [heq] at hrow
      exact hcol _ hmid (hrow x hx)

/-- The rings through the root are whole, and every column with a switch has one in the plane of the root. -/
lemma findStreeRoot_spec (hr : routableTorus t = true) (hsz : ∀ d, 0 < t.sz d) (h : findStreeRoot t = some r) :
    t.present r ∧ (∀ i < t.sz .x, t.present (coord i (r .y) (r .z))) ∧
      ∀ c, t.present c → t.present (Function.update c .z (r .z)) := by
  rw [findStreeRoot] at h
  cases hfirst : (zProbes t).findSome? fun z => if goodPlane t z then findPlaneMid t z else none with
  | some r' =>
    rw [hfirst] at h
    obtain rfl : r' = r := Option.some.inj h
    obtain ⟨z, hz, hfind⟩ := List.exists_of_findSome?_eq_some hfirst
    split_ifs at hfind with hgood
    obtain ⟨hrz, hpr, hrow⟩ := findPlaneMid_spec (hsz .x) (hsz .y) hfind
    refine ⟨hpr, hrow, fun c hc => ?_⟩
    have hplane := goodPlane_iff.mp hgood (c .y) (present_lt hc .y) (c .x) (present_lt hc .x)
    have heq : Function.update c .z (r' .z) = coord (c .x) (c .y) z := by
      rw [hrz]
      funext e
      cases e <;> rfl
    rwa [heq]
  | none =>
    rw [hfirst] at h
    change findPlaneMid t (t.sz .z / 2) = some r at h
    obtain ⟨hrz, hpr, hrow⟩ := findPlaneMid_spec (hsz .x) (hsz .y) h
    refine ⟨hpr, hrow, fun c hc => ?_⟩
    -- else the switch is in the column that is missing
    by_contra hm
    obtain ⟨x, hx, y, hy, hcol⟩ := exists_column hr (hsz .z) ((findSome_zProbes hsz).mp hfirst)
    have hlt := present_lt hc
    obtain ⟨hcx, hcy⟩ := missing_column (c := Function.update c .z (r .z)) (b := coord x y (c .z)) hr
      (Dim.forall.mpr ⟨hlt .x, hlt .y, present_lt hpr .z⟩) (Dim.forall.mpr ⟨hx, hy, hlt .z⟩) hm (hcol _ (hlt .z))
    have heq : c = coord x y (c .z) := by
      funext e
      cases e with
      | x => exact hcx
      | y => exact hcy
      | z => rfl
    refine hcol _ (hlt .z) ?_
    rwa [← heq]

end Search

section Tree

variable {t : Torus} {r : Coord} {st : Stree}

lemma acyclic_of_path {α : Type*} {R : α → α → Prop} {r : α} (huniq : ∀ a b c, R a b → R a c → b = c)
    (hroot : ∀ b, ¬R r b) {a : α} (h : Relation.ReflTransGen R a r) : ¬Relation.TransGen R a a := by
  induction h using Relation.ReflTransGen.head_induction_on with
  | refl =>
    intro hcycle
    obtain ⟨b, hb, -⟩ := Relation.TransGen.head'_iff.mp hcycle
    exact hroot b hb
  | head hab _ ih =>
    intro hcycle
    obtain ⟨b', hb', hback⟩ := Relation.TransGen.head'_iff.mp hcycle
    obtain rfl := huniq _ _ _ hab hb'
    exact ih (Relation.TransGen.tail' hback hab)

lemma Grown.spanningTree (hg : Grown t r st) (hr : t.present r)
    (hall : ∀ c, t.present c → Member r st c) : SpanningTree t { st with masterRoot := some r } r := by
  have hpath : ∀ c, Member r st c → Relation.ReflTransGen (Parent st) c r := by
    rintro c (rfl | ⟨g, hsome⟩)
    · exact .refl
    · exact hg.path c g hsome
  have huniq : ∀ a b c, Parent st a b → Parent st a c → b = c := by
    rintro a b c ⟨g, h, hb⟩ ⟨g', h', hc⟩
    obtain rfl := hg.one a g g' (by rw [hb]; rfl) (by rw [hc]; rfl)
    rw [hb] at hc
    exact (Prod.mk.inj (Option.some.inj hc)).1
  have hroot : ∀ b, ¬Parent st r b := by
    rintro b ⟨g, h, hb⟩
    rw [hg.orphan] at hb
    cases hb
  constructor
  case rooted => exact ⟨rfl, hr, hg.orphan⟩
  case edge => exact hg.edge
  case mirror => exact hg.mirror
  case parent =>
    intro c hc hne
    obtain ⟨g, hsome⟩ := (hall c hc).resolve_left hne
    exact ⟨g, hsome, fun g' hsome' => hg.one c g' g hsome' hsome⟩
  case path => exact fun c hc => hpath c (hall c hc)
  case acyclic =>
    intro c hcycle
    obtain ⟨b, ⟨g, h, hb⟩, -⟩ := Relation.TransGen.head'_iff.mp hcycle
    exact acyclic_of_path huniq hroot (hg.path c g (by rw [hb]; rfl)) hcycle
  case ordered =>
    intro c p q d s d' s' h h' hcp hpq
    by_contra hlt
    obtain ⟨d₁, s₁, hgrp, -, hstep, -⟩ := hg.edge c _ p h hcp
    obtain ⟨rfl, -⟩ := grp_inj hgrp
    have hsame := (hg.layer c d s (by rw [hcp]; rfl)).2 d' (by omega)
    have hne := (hg.layer p d' s' (by rw [hpq]; rfl)).1
    have hdd : d' ≠ d := by
      rintro rfl
      exact hlt le_rfl
    rw [hstep, Torus.step, Function.update_of_ne hdd] at hsame
    exact hne hsame
  case dateline => exact hg.dateline

end Tree

lemma torusMasterStree_spec {t : Torus} {r : Coord} (hl : Linked t) (hr : routableTorus t = true)
    (hsz : ∀ d, 0 < t.sz d) (hfind : findStreeRoot t = some r) :
    (torusMasterStree t).1 = true ∧ SpanningTree t (torusMasterStree t).2 r := by
  obtain ⟨hpr, hrow, hplane⟩ := findStreeRoot_spec hr hsz hfind
  have hspread := build_all hl hr hpr hrow (t.sz .x) le_rfl
  rw [torusMasterStree, hfind]
  dsimp only
  generalize (List.range (t.sz .x)).foldl (buildColumn t r) _ = st at hspread ⊢
  have hall : ∀ c, t.present c → Member r st c := fun c hc =>
    (hspread.member c).mpr ⟨hc, .inr ⟨present_lt hc .x, hplane c hc⟩⟩
  refine ⟨List.all_eq_true.mpr fun c _ => ?_, hspread.grown.spanningTree hpr hall⟩
  rw [Bool.or_eq_true, Bool.not_eq_true', swInMasterStree, Bool.or_eq_true, decide_eq_true_eq]
  by_cases hc : t.present c
  · refine .inr ?_
    rcases hall c hc with rfl | hsome
    · exact .inl rfl
    · have hany := (hspread.grown.swInMasterStree_iff hspread.noRoot).mpr hsome
      rw [swInMasterStree, hspread.noRoot, Bool.or_eq_true] at hany
      exact .inr (hany.resolve_left (by simp))
  · exact .inl (Bool.eq_false_iff.mpr hc)

/-- The master spanning tree spans every torus that can be routed, but for those where the search for the root is
blind. -/
theorem master_stree_spans {t : Torus} (hl : Linked t) (hr : routableTorus t = true) (hsz : ∀ d, 0 < t.sz d) :
    ((torusMasterStree t).1 = true ∧ ∃ r, SpanningTree t (torusMasterStree t).2 r) ↔ ¬Blind t := by
  rw [← findStreeRoot_eq_none hr hsz]
  cases hfind : findStreeRoot t with
  | none =>
    rw [torusMasterStree, hfind]
    exact iff_of_false (fun h => by cases h.1) fun h => h rfl
  | some r =>
    obtain ⟨hspans, htree⟩ := torusMasterStree_spec hl hr hsz hfind
    exact iff_of_true ⟨hspans, r, htree⟩ fun h => by cases h

/-- The middle switch of a row of three. -/
theorem master_stree_blind : ¬∀ t : Torus, Linked t → routableTorus t = true → (∀ d, 0 < t.sz d) →
    (torusMasterStree t).1 = true ∧ ∃ r, SpanningTree t (torusMasterStree t).2 r := by
  intro h
  have hfail := (h (grid (coord 1 3 1) (fun d => decide (d ≠ .y)) fun c => decide (c = coord 0 1 0)) grid_linked
    (by decide +kernel) (by decide +kernel)).1
  have hfalse : (torusMasterStree
      (grid (coord 1 3 1) (fun d => decide (d ≠ .y)) fun c => decide (c = coord 0 1 0))).1 = false := by
    decide +kernel
  rw [hfalse] at hfail
  cases hfail

/-- A torus with a switch missing in the middle. -/
theorem master_stree_spans_around :
    (torusMasterStree (grid (coord 3 3 1) (fun d => decide (d = .z)) fun c => decide (c = coord 1 1 0))).1 = true ∧
      ∃ r, SpanningTree (grid (coord 3 3 1) (fun d => decide (d = .z)) fun c => decide (c = coord 1 1 0))
        (torusMasterStree (grid (coord 3 3 1) (fun d => decide (d = .z)) fun c => decide (c = coord 1 1 0))).2
            r := by
  refine (master_stree_spans grid_linked (by decide +kernel) (by decide +kernel)).mpr ?_
  exact not_blind_of_three_le (by decide) (by decide)

end OpenSM.Torus2QoS
