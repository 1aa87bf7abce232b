import OpenSM.Torus
import OpenSM.Lib.Descent

/-! Every torus that is accepted for routing is one in which the routes lead to their destinations. -/

namespace OpenSM.Torus2QoS

open Lib

/-- Links lead to the adjacent switch, and are in the port groups at both ends. -/
structure Linked (t : Torus) : Prop where
  pos : ∀ c d e, e ∈ t.ptgrp c d.pos → e.isEnd1 = false ∧ e.link.end0.sw = c ∧ e.link.end1.sw = t.succ c d ∧
    ⟨e.link, true⟩ ∈ t.ptgrp (t.succ c d) d.neg
  neg : ∀ c d e, e ∈ t.ptgrp c d.neg → e.isEnd1 = true ∧ e.link.end1.sw = c ∧ e.link.end0.sw = t.pred c d ∧
    ⟨e.link, false⟩ ∈ t.ptgrp (t.pred c d) d.pos

section Rings

variable {t : Torus} {c dsw : Coord} {d : Dim} {s : Bool} {p : ℕ}

def Dim.grp (d : Dim) (s : Bool) : ℕ := if s then d.pos else d.neg

def sign (s : Bool) : ℤ := if s then 1 else -1

def Torus.step (t : Torus) (c : Coord) (d : Dim) (s : Bool) : Coord :=
  Function.update c d (GapRing.adj (t.sz d) s (c d))

def Torus.link (t : Torus) (c : Coord) (d : Dim) (p : ℕ) : Prop := t.ptgrp (Function.update c d p) d.pos ≠ []

lemma ptgrp_ne_nil {g : ℕ} (h : t.ptgrp c g ≠ []) : t.present c := by
  rw [Torus.present]
  cases hs : t.sw c with
  | none =>
    rw [Torus.ptgrp, hs] at h
    exact absurd rfl h
  | some s => rfl

lemma present_lt (h : t.present c) (d : Dim) : c d < t.sz d := t.inRange c h d

@[simp] lemma update_same (c : Coord) (d : Dim) : Function.update c d (c d) = c := Function.update_eq_self d c

lemma link_iff (hl : Linked t) (hc : c d < t.sz d) :
    GapRing.Link (t.sz d) (t.link c d) s (c d) ↔ t.ptgrp c (d.grp s) ≠ [] := by
  cases s with
  | true =>
    change t.ptgrp (Function.update c d (c d)) d.pos ≠ [] ↔ _
    rw [update_same]
    rfl
  | false =>
    change t.ptgrp (t.pred c d) d.pos ≠ [] ↔ t.ptgrp c d.neg ≠ []
    have hsucc : t.succ (t.pred c d) d = c := by
      rw [Torus.succ, Torus.pred, Function.update_self, Function.update_idem, GapRing.succ_pred hc, update_same]
    constructor
    · intro h
      obtain ⟨e, he⟩ := List.exists_mem_of_ne_nil _ h
      have hmem := (hl.pos _ d e he).2.2.2
      rw [hsucc] at hmem
      exact List.ne_nil_of_mem hmem
    · intro h
      obtain ⟨e, he⟩ := List.exists_mem_of_ne_nil _ h
      exact List.ne_nil_of_mem (hl.neg c d e he).2.2.2

lemma farSw_eq (hl : Linked t) {e : Endpoint} (he : e ∈ t.ptgrp c (d.grp s)) : e.farSw = t.step c d s := by
  cases s with
  | true =>
    obtain ⟨hend, -, hfar, -⟩ := hl.pos c d e he
    rw [Endpoint.farSw, hend]
    exact hfar
  | false =>
    obtain ⟨hend, -, hfar, -⟩ := hl.neg c d e he
    rw [Endpoint.farSw, hend]
    exact hfar

lemma present_step (hl : Linked t) (hc : c d < t.sz d) (h : GapRing.Link (t.sz d) (t.link c d) s (c d)) :
    t.present (t.step c d s) := by
  obtain ⟨e, he⟩ := List.exists_mem_of_ne_nil _ ((link_iff hl hc).mp h)
  cases s with
  | true => exact ptgrp_ne_nil (List.ne_nil_of_mem (hl.pos c d e he).2.2.2)
  | false => exact ptgrp_ne_nil (List.ne_nil_of_mem (hl.neg c d e he).2.2.2)

lemma ringNextSw_eq (hl : Linked t) (h : t.ptgrp c (d.grp s) ≠ []) :
    ringNextSw t c d (sign s) = some (t.step c d s) := by
  obtain ⟨e, l, he⟩ := List.exists_cons_of_ne_nil h
  have hmem : e ∈ t.ptgrp c (d.grp s) := he ▸ List.mem_cons_self
  cases s with
  | true =>
    have hfar := (hl.pos c d e hmem).2.2.1
    rw [ringNextSw, if_neg (by decide), if_pos (by decide)]
    change (t.ptgrp c d.pos).head?.map _ = _
    rw [show t.ptgrp c d.pos = e :: l from he]
    exact congrArg some hfar
  | false =>
    have hfar := (hl.neg c d e hmem).2.2.1
    rw [ringNextSw, if_neg (by decide), if_neg (by decide)]
    change (t.ptgrp c d.neg).head?.map _ = _
    rw [show t.ptgrp c d.neg = e :: l from he]
    exact congrArg some hfar

lemma ringNextSw_none (h : t.ptgrp c (d.grp s) = []) : ringNextSw t c d (sign s) = none := by
  cases s with
  | true =>
    rw [ringNextSw, if_neg (by decide), if_pos (by decide)]
    rw [show t.ptgrp c d.pos = [] from h]
    rfl
  | false =>
    rw [ringNextSw, if_neg (by decide), if_neg (by decide)]
    rw [show t.ptgrp c d.neg = [] from h]
    rfl

lemma link_step : t.link (t.step c d s) d = t.link c d := by
  funext p
  rw [Torus.link, Torus.link, Torus.step, Function.update_idem]

lemma step_apply : t.step c d s d = GapRing.adj (t.sz d) s (c d) := Function.update_self ..

/-- The loop ends within a turn of the ring, at the switch it looks for if no link is missing on the way. -/
lemma ringWalk_eq (hl : Linked t) (hc : c d < t.sz d) (hp : p < t.sz d) (hne : c d ≠ p) {fuel : ℕ}
    (hfuel : GapRing.dist (t.sz d) s (c d) p ≤ fuel) :
    ∃ b, ringWalk t d (sign s) (Function.update c d p) fuel c = some b ∧
      (b = true ↔ GapRing.Open (t.sz d) (t.link c d) s (c d) p) := by
  induction fuel generalizing c with
  | zero => exact absurd ((GapRing.dist_eq_zero hc hp).mp (Nat.le_zero.mp hfuel)) hne
  | succ fuel ih =>
    have hdist := GapRing.dist_adj (s := s) hc hp hne
    have hopen : GapRing.Open (t.sz d) (t.link c d) s (c d) p ↔
        GapRing.Link (t.sz d) (t.link c d) s (c d) ∧
          GapRing.Open (t.sz d) (t.link c d) s (GapRing.adj (t.sz d) s (c d)) p := GapRing.open_adj hc hp hne
    rw [ringWalk]
    by_cases hg : t.ptgrp c (d.grp s) = []
    · rw [ringNextSw_none hg]
      have hnot : ¬GapRing.Open (t.sz d) (t.link c d) s (c d) p :=
        fun ho => ((link_iff hl hc).mp (hopen.mp ho).1) hg
      exact ⟨false, rfl, iff_of_false Bool.false_ne_true hnot⟩
    · rw [ringNextSw_eq hl hg]
      have hlink := (link_iff hl hc).mpr hg
      dsimp only
      by_cases hend : GapRing.adj (t.sz d) s (c d) = p
      · have heq : t.step c d s = Function.update c d p := by rw [Torus.step, hend]
        have hyes : GapRing.Open (t.sz d) (t.link c d) s (c d) p :=
          hopen.mpr ⟨hlink, by rw [hend]; exact GapRing.open_self⟩
        exact ⟨true, if_pos heq, iff_of_true rfl hyes⟩
      · have hneq : t.step c d s ≠ Function.update c d p := by
          intro heq
          have happ := congrFun heq d
          rw [step_apply, Function.update_self] at happ
          exact hend happ
        obtain ⟨b, hb, hiff⟩ := ih (c := t.step c d s) (by rw [step_apply]; exact GapRing.adj_lt hc)
          (by rw [step_apply]; exact hend) (by rw [step_apply]; omega)
        have hupd : Function.update (t.step c d s) d p = Function.update c d p := Function.update_idem ..
        rw [hupd] at hb
        rw [link_step, step_apply] at hiff
        refine ⟨b, by rw [if_neg hneq, hb], ?_⟩
        rw [hiff, hopen]
        exact (and_iff_right hlink).symm

lemma ringDirIdx_eq {n a b : ℕ} (h : a ≠ b) : ringDirIdx a b n = sign (GapRing.short n a b) := by
  rw [ringDirIdx, if_neg h.symm]
  rcases lt_or_gt_of_ne h with hlt | hlt
  · simp only [getPathlen, GapRing.short, hlt, if_true, sign, decide_eq_true_eq]
  · have hnlt : ¬a < b := hlt.le.not_gt
    simp only [getPathlen, GapRing.short, hnlt, if_false, sign, Bool.not_eq_true', decide_eq_false_iff_not]
    split_ifs <;> rfl

@[simp] lemma sign_ne_zero (s : Bool) : sign s ≠ 0 := by
  cases s <;> decide

lemma neg_sign (s : Bool) : -sign s = sign (!s) := by
  cases s <;> rfl

@[simp] lemma dirGrp_sign (d : Dim) (s : Bool) : dirGrp d (sign s) = some (d.grp s) := by
  cases s <;> rfl

lemma ringDirPath_eq (hl : Linked t) (hc : c d < t.sz d) (hp : p < t.sz d) (hne : c d ≠ p)
    (hs : GapRing.Chosen (t.sz d) (t.link c d) s (c d) p) :
    ringDirPath t d c (Function.update c d p) = sign s := by
  have hwalk : ∀ s', ringWalk t d (sign s') (Function.update c d p) (t.sz d) c = some true ↔
      GapRing.Open (t.sz d) (t.link c d) s' (c d) p := by
    intro s'
    obtain ⟨b, hb, hiff⟩ := ringWalk_eq (s := s') hl hc hp hne (GapRing.dist_lt hc hp).le
    rw [hb, Option.some_inj]
    exact hiff
  rw [ringDirPath, Function.update_self, ringDirIdx_eq hne, if_neg (sign_ne_zero _), neg_sign]
  obtain ⟨hopen, hshort⟩ := hs
  by_cases heq : GapRing.short (t.sz d) (c d) p = s
  · rw [heq, if_pos ((hwalk s).mpr hopen)]
  · have hnot : GapRing.short (t.sz d) (c d) p = !s := by
      cases hv : GapRing.short (t.sz d) (c d) p <;> cases s <;> simp_all
    rw [hnot, if_neg (fun h => hshort.resolve_left heq ((hwalk _).mp h)), Bool.not_not,
      if_pos ((hwalk s).mpr hopen)]

lemma turn_eq : turn c dsw d = Function.update c d (dsw d) := rfl

lemma nextHopPath_eq (hl : Linked t) (hc : c d < t.sz d) (ht : t.present (turn c dsw d)) (hne : c d ≠ dsw d)
    (hs : GapRing.Chosen (t.sz d) (t.link c d) s (c d) (dsw d)) : nextHopPath t d c dsw = some (d.grp s) := by
  have hp : dsw d < t.sz d := by
    have hlt := present_lt ht d
    rwa [turn_eq, Function.update_self] at hlt
  rw [nextHopPath, if_pos ht, turn_eq, ringDirPath_eq hl hc hp hne hs, dirGrp_sign]

lemma nextHopIdx_eq (hne : c d ≠ dsw d) : nextHopIdx t d c dsw =
    if t.ptgrp c (d.grp (GapRing.short (t.sz d) (c d) (dsw d))) = [] then none
    else some (d.grp (GapRing.short (t.sz d) (c d) (dsw d))) := by
  rw [nextHopIdx, ringDirIdx_eq hne, dirGrp_sign]
  rfl

end Rings

section Routable

variable {t : Torus} {b c dsw : Coord} {d : Dim} {s : Bool} {p q : ℕ}

lemma mem_coords : c ∈ t.coords ↔ ∀ d, c d < t.sz d := by
  simp only [Torus.coords, List.mem_flatMap, List.mem_map, List.mem_range]
  constructor
  · rintro ⟨k, hk, j, hj, i, hi, rfl⟩ d
    cases d with
    | x => exact hi
    | y => exact hj
    | z => exact hk
  · intro h
    refine ⟨c .z, h .z, c .y, h .y, c .x, h .x, ?_⟩
    funext d
    cases d <;> rfl

lemma eq_of_countP_le_one {α : Type*} {l : List α} {f : α → Bool} (h : l.countP f ≤ 1) {a b : α} (ha : a ∈ l)
    (hb : b ∈ l) (hfa : f a) (hfb : f b) : a = b := by
  have hfilter : ∀ {x}, x ∈ l → f x → x ∈ l.filter f := fun hx hfx => List.mem_filter.mpr ⟨hx, hfx⟩
  rw [List.countP_eq_length_filter] at h
  cases he : l.filter f with
  | nil =>
    have hmem := hfilter ha hfa
    rw [he] at hmem
    cases hmem
  | cons x rest =>
    rw [he, List.length_cons] at h
    have hrest : rest = [] := List.length_eq_zero_iff.mp (by omega)
    have hall : ∀ {y}, y ∈ l → f y → y = x := by
      intro y hy hfy
      have hmem := hfilter hy hfy
      rw [he, hrest, List.mem_singleton] at hmem
      exact hmem
    rw [hall ha hfa, hall hb hfb]

/-- At most one switch of a ring has no link one way. -/
lemma one_gap (hr : routableTorus t = true) (hc : ∀ d, c d < t.sz d) (hp : p < t.sz d) (hq : q < t.sz d)
    (hpp : t.present (Function.update c d p)) (hpq : t.present (Function.update c d q))
    (hgp : t.ptgrp (Function.update c d p) d.neg = [])
        (hgq : t.ptgrp (Function.update c d q) d.neg = []) : p = q := by
  have hrings : ringsOk t d = true := by
    simp only [routableTorus, Bool.and_eq_true] at hr
    cases d with
    | x => exact hr.1.1.1
    | y => exact hr.1.1.2
    | z => exact hr.1.2
  have hzero : Function.update c d 0 ∈ t.coords := by
    refine mem_coords.mpr fun e => ?_
    by_cases he : e = d
    · rw [he, Function.update_self]
      exact Nat.zero_lt_of_lt hp
    · rw [Function.update_of_ne he]
      exact hc e
  have hok := List.all_eq_true.mp hrings _ hzero
  rw [Function.update_self] at hok
  simp only [ne_eq, not_true_eq_false, decide_false, Bool.false_or, ringOk, Bool.and_eq_true,
      decide_eq_true_eq] at hok
  have hring : t.ring (Function.update c d 0) d = t.ring c d := by
    rw [Torus.ring, Torus.ring]
    exact List.map_congr_left fun p _ => Function.update_idem ..
  have hcount := hok.2
  rw [gapCnt, hring] at hcount
  have hmem : ∀ {p}, p < t.sz d → Function.update c d p ∈ t.ring c d := by
    intro p hp
    exact List.mem_map.mpr ⟨p, List.mem_range.mpr hp, rfl⟩
  have heq := eq_of_countP_le_one hcount (hmem hp) (hmem hq) (by simp [hpp, hgp]) (by simp [hpq, hgq])
  have happ := congrFun heq d
  rwa [Function.update_self, Function.update_self] at happ

lemma exists_chosen (hl : Linked t) (hr : routableTorus t = true) (hc : t.present c)
    (hp : t.present (Function.update c d p)) : ∃ s, GapRing.Chosen (t.sz d) (t.link c d) s (c d) p := by
  have hlt := present_lt hc
  have hplt : p < t.sz d := by
    have hlt := present_lt hp d
    rwa [Function.update_self] at hlt
  have hneg : ∀ {p}, p < t.sz d → ¬t.link c d (GapRing.pred (t.sz d) p) →
      t.ptgrp (Function.update c d p) d.neg = [] := by
    intro p hp hlink
    by_contra hne
    have hiff := link_iff (s := false) (c := Function.update c d p) (d := d) hl (by rwa [Function.update_self])
    have hlink' := hiff.mpr hne
    rw [Function.update_self] at hlink'
    change t.ptgrp (Function.update (Function.update c d p) d _) d.pos ≠ [] at hlink'
    rw [Function.update_idem] at hlink'
    exact hlink hlink'
  refine GapRing.exists_chosen (P := fun p => t.present (Function.update c d p)) (fun p _ h => ptgrp_ne_nil h) ?_
    (hlt d) hplt (by rwa [update_same]) hp
  intro p q hp hq hpp hpq hlp hlq
  exact one_gap hr hlt hp hq hpp hpq (hneg hp hlp) (hneg hq hlq)

lemma foldl_rptTorusMissing {l : List Coord} {st : Bool × ℤ} (h : (l.foldl (rptTorusMissing t) st).1 = false) :
    st.1 = false ∧ ∃ col : ℤ, (∀ c ∈ l, t.present c = false → (c .x + c .y * t.sz .x : ℤ) = col) ∧
      (0 ≤ st.2 → col = st.2) := by
  induction l generalizing st with
  | nil => exact ⟨h, st.2, by simp, fun _ => rfl⟩
  | cons c l ih =>
    obtain ⟨hst, col, hcol, hle⟩ := ih h
    by_cases hc : t.present c
    · rw [rptTorusMissing, if_pos hc] at hst hle
      refine ⟨hst, col, fun c' hc' hm => ?_, hle⟩
      rcases List.mem_cons.mp hc' with rfl | hmem
      · rw [hc] at hm
        cases hm
      · exact hcol c' hmem hm
    · rw [rptTorusMissing, if_neg hc] at hst hle
      dsimp only at hst hle
      split_ifs at hst hle with hneg
      · simp only [Bool.or_eq_false_iff] at hst
        refine ⟨hst.1, col, fun c' hc' hm => ?_, fun h => absurd hneg (not_lt.mpr h)⟩
        rcases List.mem_cons.mp hc' with rfl | hmem
        · exact (hle (by positivity)).symm
        · exact hcol c' hmem hm
      · simp only [Bool.or_eq_false_iff, decide_eq_false_iff_not, not_not] at hst
        refine ⟨hst.1.1, col, fun c' hc' hm => ?_, fun _ => hle (not_lt.mp hneg)⟩
        rcases List.mem_cons.mp hc' with rfl | hmem
        · rw [← hst.2]
          exact (hle (not_lt.mp hneg)).symm
        · exact hcol c' hmem hm

lemma missing_column (hr : routableTorus t = true) (hc : ∀ d, c d < t.sz d) (hb : ∀ d, b d < t.sz d)
    (hm : ¬t.present c) (hm' : ¬t.present b) : c .x = b .x ∧ c .y = b .y := by
  have hdead : (t.coords.foldl (rptTorusMissing t) (false, -1)).1 = false := by
    simp only [routableTorus, Bool.and_eq_true] at hr
    simpa using hr.2
  obtain ⟨-, col, hcol, -⟩ := foldl_rptTorusMissing hdead
  have hcc := hcol c (mem_coords.mpr hc) (by simpa using hm)
  have hcb := hcol b (mem_coords.mpr hb) (by simpa using hm')
  have heq : c .x + c .y * t.sz .x = b .x + b .y * t.sz .x := by
    exact_mod_cast hcc.trans hcb.symm
  have hx := congrArg (· % t.sz .x) heq
  simp only [Nat.add_mul_mod_self_right, Nat.mod_eq_of_lt (hc .x), Nat.mod_eq_of_lt (hb .x)] at hx
  refine ⟨hx, ?_⟩
  rw [hx] at heq
  exact Nat.eq_of_mul_eq_mul_right (Nat.zero_lt_of_lt (hc .x)) (Nat.add_left_cancel heq)

end Routable

section Hops

variable {t : Torus} {c dsw : Coord} {d e : Dim} {s : Bool}

def Straight (t : Torus) (c dsw : Coord) : Prop :=
  t.present (turn c dsw .x) ∧ t.present (turn (turn c dsw .x) dsw .y)

noncomputable def lenAt (t : Torus) (c dsw : Coord) (d : Dim) : ℕ :=
  GapRing.len (t.sz d) (t.link c d) (c d) (dsw d)

noncomputable def way (t : Torus) (c dsw : Coord) : ℕ :=
  lenAt t c dsw .x + lenAt t (turn c dsw .x) dsw .y + lenAt t (turn (turn c dsw .x) dsw .y) dsw .z

def shortAt (t : Torus) (c dsw : Coord) (d : Dim) : Bool := GapRing.short (t.sz d) (c d) (dsw d)

def shortDist (t : Torus) (c dsw : Coord) (d : Dim) : ℕ :=
  GapRing.dist (t.sz d) (shortAt t c dsw d) (c d) (dsw d)

open Classical in
noncomputable def bend (t : Torus) (c dsw : Coord) : ℕ ×ₗ ℕ ×ₗ ℕ :=
  toLex (if t.present (turn c dsw .x) then lenAt t c dsw .x else shortDist t c dsw .x,
    toLex (shortDist t c dsw .y, lenAt t c dsw .z))

lemma turn_of_eq (h : c d = dsw d) : turn c dsw d = c := by
  rw [turn_eq, ← h, update_same]

lemma turn_step : turn (t.step c d s) dsw d = turn c dsw d := Function.update_idem ..

lemma step_of_ne (h : e ≠ d) : t.step c d s e = c e := Function.update_of_ne h ..

lemma turn_self : turn c dsw d d = dsw d := Function.update_self ..

lemma turn_of_ne (h : e ≠ d) : turn c dsw d e = c e := Function.update_of_ne h ..

lemma lenAt_of_eq (h : c d = dsw d) : lenAt t c dsw d = 0 := by
  rw [lenAt, h]
  exact GapRing.len_self

lemma lenAt_step (hc : c d < t.sz d) (hd : dsw d < t.sz d) (hne : c d ≠ dsw d)
    (hs : GapRing.Chosen (t.sz d) (t.link c d) s (c d) (dsw d)) :
    lenAt t (t.step c d s) dsw d + 1 = lenAt t c dsw d := by
  rw [lenAt, link_step, step_apply]
  exact hs.len_adj hc hd hne

lemma shortDist_step (hc : c d < t.sz d) (hd : dsw d < t.sz d) (hne : c d ≠ dsw d) :
    shortDist t (t.step c d (shortAt t c dsw d)) dsw d + 1 = shortDist t c dsw d := by
  rw [shortDist, shortAt, step_apply]
  exact GapRing.dist_short_adj hc hd hne

lemma shortDist_congr {b : Coord} (h : b d = c d) : shortDist t b dsw d = shortDist t c dsw d := by
  rw [shortDist, shortAt, h]
  rfl

lemma turn_lt (hc : ∀ e, c e < t.sz e) (hd : ∀ e, dsw e < t.sz e) (d e : Dim) : turn c dsw d e < t.sz e := by
  by_cases h : e = d
  · rw [h, turn_self]
    exact hd d
  · rw [turn_of_ne h]
    exact hc e

lemma present_of_missing (hr : routableTorus t = true) {a b : Coord} (hm : ¬t.present a) (ha : ∀ d, a d < t.sz d)
    (hb : ∀ d, b d < t.sz d) (hne : b .x ≠ a .x ∨ b .y ≠ a .y) : t.present b := by
  by_contra hmb
  obtain ⟨hx, hy⟩ := missing_column hr hb ha hmb hm
  rcases hne with h | h
  · exact h hx
  · exact h hy

lemma nextHopIdx_some (hne : c d ≠ dsw d) (hg : t.ptgrp c (d.grp (shortAt t c dsw d)) ≠ []) :
    nextHopIdx t d c dsw = some (d.grp (shortAt t c dsw d)) := by
  rw [nextHopIdx_eq hne]
  exact if_neg hg

lemma nextHopIdx_none (hne : c d ≠ dsw d) (hg : t.ptgrp c (d.grp (shortAt t c dsw d)) = []) :
    nextHopIdx t d c dsw = none := by
  rw [nextHopIdx_eq hne]
  exact if_pos hg

/-- A hop that `lft_port` takes. -/
structure Hop (t : Torus) (c dsw : Coord) (d : Dim) (s : Bool) : Prop where
  grp : lftGrp t c dsw = some (d.grp s)
  port : t.ptgrp c (d.grp s) ≠ []

variable (hl : Linked t) (hr : routableTorus t = true) (hc : t.present c) (hd : t.present dsw)

include hl hr hc hd

lemma exists_path (ht : t.present (turn c dsw d)) (hne : c d ≠ dsw d) :
    ∃ s, GapRing.Chosen (t.sz d) (t.link c d) s (c d) (dsw d) ∧ nextHopPath t d c dsw = some (d.grp s) ∧
      t.ptgrp c (d.grp s) ≠ [] := by
  obtain ⟨s, hs⟩ := exists_chosen hl hr hc ht
  have hlt := present_lt hc d
  refine ⟨s, hs, nextHopPath_eq hl hlt ht hne hs, ?_⟩
  exact (link_iff hl hlt).mp (hs.hop hlt (present_lt hd d) hne)

lemma hop_x (ht : t.present (turn c dsw .x)) (hne : c .x ≠ dsw .x) :
    ∃ s, GapRing.Chosen (t.sz .x) (t.link c .x) s (c .x) (dsw .x) ∧ Hop t c dsw .x s := by
  obtain ⟨s, hs, hpath, hport⟩ := exists_path hl hr hc hd ht hne
  refine ⟨s, hs, ?_, hport⟩
  rw [lftGrp, if_pos hne.symm, nextHopX, nextHopXY, if_pos ht, hpath]
  rfl

lemma hop_y (hx : c .x = dsw .x) (ht : t.present (turn c dsw .y)) (hne : c .y ≠ dsw .y) :
    ∃ s, GapRing.Chosen (t.sz .y) (t.link c .y) s (c .y) (dsw .y) ∧ Hop t c dsw .y s := by
  obtain ⟨s, hs, hpath, hport⟩ := exists_path hl hr hc hd ht hne
  refine ⟨s, hs, ?_, hport⟩
  rw [lftGrp, if_neg (not_not.mpr hx.symm), if_pos hne.symm, nextHopY, nextHopXY, if_pos ht, hpath]
  rfl

lemma hop_z (hx : c .x = dsw .x) (hy : c .y = dsw .y) (hne : c .z ≠ dsw .z) :
    ∃ s, GapRing.Chosen (t.sz .z) (t.link c .z) s (c .z) (dsw .z) ∧ Hop t c dsw .z s := by
  have ht : turn c dsw .z = dsw := by
    funext e
    cases e with
    | x => rw [turn_of_ne (by decide), hx]
    | y => rw [turn_of_ne (by decide), hy]
    | z => exact turn_self
  obtain ⟨s, hs, hpath, hport⟩ := exists_path hl hr hc hd (by rw [ht]; exact hd) hne
  refine ⟨s, hs, ?_, hport⟩
  rw [lftGrp, if_neg (not_not.mpr hx.symm), if_neg (not_not.mpr hy.symm)]
  exact hpath

/-- While the turning switches are present every hop is one nearer. -/
lemma straight_hop (hs : Straight t c dsw) (hne : c ≠ dsw) :
    ∃ d s, Hop t c dsw d s ∧ Straight t (t.step c d s) dsw ∧ way t (t.step c d s) dsw + 1 = way t c dsw := by
  by_cases hx : c .x = dsw .x
  · have htx := turn_of_eq hx
    rw [Straight, htx] at hs
    by_cases hy : c .y = dsw .y
    · have hty := turn_of_eq hy
      have hz : c .z ≠ dsw .z := by
        intro hz
        refine hne (funext fun e => ?_)
        cases e with
        | x => exact hx
        | y => exact hy
        | z => exact hz
      obtain ⟨s, hch, hhop⟩ := hop_z hl hr hc hd hx hy hz
      have hx' : t.step c .z s .x = dsw .x := hx
      have hy' : t.step c .z s .y = dsw .y := hy
      have hpres := present_step hl (present_lt hc .z) (hch.hop (present_lt hc .z) (present_lt hd .z) hz)
      have hlen := lenAt_step (present_lt hc .z) (present_lt hd .z) hz hch
      refine ⟨.z, s, hhop, ?_, ?_⟩
      · rw [Straight, turn_of_eq hx', turn_of_eq hy']
        exact ⟨hpres, hpres⟩
      · rw [way, way, htx, hty, turn_of_eq hx', turn_of_eq hy', lenAt_of_eq hx', lenAt_of_eq hy', lenAt_of_eq hx,
          lenAt_of_eq hy]
        omega
    · obtain ⟨s, hch, hhop⟩ := hop_y hl hr hc hd hx hs.2 hy
      have hx' : t.step c .y s .x = dsw .x := hx
      have hpres := present_step hl (present_lt hc .y) (hch.hop (present_lt hc .y) (present_lt hd .y) hy)
      have hlen := lenAt_step (present_lt hc .y) (present_lt hd .y) hy hch
      refine ⟨.y, s, hhop, ?_, ?_⟩
      · rw [Straight, turn_of_eq hx', turn_step]
        exact ⟨hpres, hs.2⟩
      · rw [way, way, htx, turn_of_eq hx', turn_step, lenAt_of_eq hx', lenAt_of_eq hx]
        omega
  · obtain ⟨s, hch, hhop⟩ := hop_x hl hr hc hd hs.1 hx
    have hlen := lenAt_step (present_lt hc .x) (present_lt hd .x) hx hch
    refine ⟨.x, s, hhop, ?_, ?_⟩
    · rw [Straight, turn_step]
      exact hs
    · rw [way, way, turn_step]
      omega

/-- The next turning switch is present, the one after it is not. -/
lemma bent_hop_y (hx : t.present (turn c dsw .x)) (hxy : ¬t.present (turn (turn c dsw .x) dsw .y)) :
    ∃ d s, Hop t c dsw d s ∧ (Straight t (t.step c d s) dsw ∨ bend t (t.step c d s) dsw < bend t c dsw) := by
  have hcl := present_lt hc
  have hdl := present_lt hd
  have hy : c .y ≠ dsw .y := by
    intro hy
    have heq : turn (turn c dsw .x) dsw .y = turn c dsw .x := turn_of_eq hy
    rw [heq] at hxy
    exact hxy hx
  by_cases hcx : c .x = dsw .x
  · have htx := turn_of_eq hcx
    rw [htx] at hx hxy
    by_cases hg : t.ptgrp c (Dim.y.grp (shortAt t c dsw .y)) = []
    · have hcz : c .z ≠ dsw .z := by
        intro hz
        have heq : turn c dsw .y = dsw := by
          funext e
          cases e with
          | x => rw [turn_of_ne (by decide), hcx]
          | y => exact turn_self
          | z => rw [turn_of_ne (by decide), hz]
        rw [heq] at hxy
        exact hxy hd
      have htz : t.present (turn c dsw .z) := by
        refine present_of_missing hr hxy (turn_lt hcl hdl .y) (turn_lt hcl hdl .z) (.inr ?_)
        rw [turn_of_ne (by decide), turn_self]
        exact hy
      obtain ⟨s, hch, hpath, hport⟩ := exists_path hl hr hc hd htz hcz
      have hnone : nextHopY t c dsw = none := by
        rw [nextHopY, nextHopXY, if_neg hxy, nextHopIdx_none hy hg]
      have hhop : Hop t c dsw .z s := by
        refine ⟨?_, hport⟩
        rw [lftGrp, if_neg (not_not.mpr hcx.symm), if_pos hy.symm, hnone, if_pos hcz.symm]
        exact hpath
      have hx' : t.step c .z s .x = dsw .x := hcx
      have hpres := present_step hl (present_lt hc .z) (hch.hop (present_lt hc .z) (present_lt hd .z) hcz)
      have hlen := lenAt_step (present_lt hc .z) (present_lt hd .z) hcz hch
      refine ⟨.z, s, hhop, .inr ?_⟩
      rw [bend, bend, turn_of_eq hx', htx, if_pos hpres, if_pos hx, lenAt_of_eq hx', lenAt_of_eq hcx,
        shortDist_congr (b := t.step c .z s) (d := .y) rfl, Prod.Lex.toLex_lt_toLex]
      refine .inr ⟨rfl, Prod.Lex.toLex_lt_toLex.mpr (.inr ⟨rfl, ?_⟩)⟩
      omega
    · have hhop : Hop t c dsw .y (shortAt t c dsw .y) := by
        refine ⟨?_, hg⟩
        rw [lftGrp, if_neg (not_not.mpr hcx.symm), if_pos hy.symm, nextHopY, nextHopXY, if_neg hxy,
          nextHopIdx_some hy hg]
        rfl
      have hx' : t.step c .y (shortAt t c dsw .y) .x = dsw .x := hcx
      have hpres := present_step hl (present_lt hc .y) ((link_iff hl (present_lt hc .y)).mpr hg)
      have hdist := shortDist_step (present_lt hc .y) (present_lt hd .y) hy
      refine ⟨.y, _, hhop, .inr ?_⟩
      rw [bend, bend, turn_of_eq hx', htx, if_pos hpres, if_pos hx, lenAt_of_eq hx', lenAt_of_eq hcx,
        Prod.Lex.toLex_lt_toLex]
      refine .inr ⟨rfl, Prod.Lex.toLex_lt_toLex.mpr (.inl ?_)⟩
      omega
  · obtain ⟨s, hch, hhop⟩ := hop_x hl hr hc hd hx hcx
    have hlen := lenAt_step (present_lt hc .x) (present_lt hd .x) hcx hch
    refine ⟨.x, s, hhop, .inr ?_⟩
    rw [bend, bend, turn_step, if_pos hx, if_pos hx, Prod.Lex.toLex_lt_toLex]
    exact .inl (by omega)

/-- The next turning switch is missing. -/
lemma bent_hop_x (hx : ¬t.present (turn c dsw .x)) :
    ∃ d s, Hop t c dsw d s ∧ (Straight t (t.step c d s) dsw ∨ bend t (t.step c d s) dsw < bend t c dsw) := by
  have hcl := present_lt hc
  have hdl := present_lt hd
  have hcx : c .x ≠ dsw .x := by
    intro hcx
    rw [turn_of_eq hcx] at hx
    exact hx hc
  by_cases hg : t.ptgrp c (Dim.x.grp (shortAt t c dsw .x)) = []
  · have hnone : nextHopX t c dsw = none := by
      rw [nextHopX, nextHopXY, if_neg hx, nextHopIdx_none hcx hg]
    by_cases hcy : c .y = dsw .y
    · have hcz : c .z ≠ dsw .z := by
        intro hz
        have heq : turn c dsw .x = dsw := by
          funext e
          cases e with
          | x => exact turn_self
          | y => rw [turn_of_ne (by decide), hcy]
          | z => rw [turn_of_ne (by decide), hz]
        rw [heq] at hx
        exact hx hd
      have htz : t.present (turn c dsw .z) := by
        refine present_of_missing hr hx (turn_lt hcl hdl .x) (turn_lt hcl hdl .z) (.inl ?_)
        rw [turn_of_ne (by decide), turn_self]
        exact hcx
      obtain ⟨s, hch, hpath, hport⟩ := exists_path hl hr hc hd htz hcz
      have hhop : Hop t c dsw .z s := by
        refine ⟨?_, hport⟩
        rw [lftGrp, if_pos hcx.symm, hnone, if_neg (not_not.mpr hcy.symm), if_pos hcz.symm]
        exact hpath
      have hlen := lenAt_step (present_lt hc .z) (present_lt hd .z) hcz hch
      refine ⟨.z, s, hhop, ?_⟩
      by_cases hx' : t.present (turn (t.step c .z s) dsw .x)
      · have hy' : turn (t.step c .z s) dsw .x .y = dsw .y := hcy
        refine .inl ⟨hx', ?_⟩
        rw [turn_of_eq hy']
        exact hx'
      · refine .inr ?_
        rw [bend, bend, if_neg hx', if_neg hx, shortDist_congr (b := t.step c .z s) (d := .x) rfl,
          shortDist_congr (b := t.step c .z s) (d := .y) rfl, Prod.Lex.toLex_lt_toLex]
        refine .inr ⟨rfl, Prod.Lex.toLex_lt_toLex.mpr (.inr ⟨rfl, ?_⟩)⟩
        omega
    · have hty : t.present (turn c dsw .y) := by
        refine present_of_missing hr hx (turn_lt hcl hdl .x) (turn_lt hcl hdl .y) (.inl ?_)
        rw [turn_of_ne (by decide), turn_self]
        exact hcx
      obtain ⟨s, hch, hpath, hport⟩ := exists_path hl hr hc hd hty hcy
      have hgrp : nextHopY t c dsw = some (Dim.y.grp s) := by
        rw [nextHopY, nextHopXY, if_pos hty]
        exact hpath
      have hhop : Hop t c dsw .y s := by
        refine ⟨?_, hport⟩
        rw [lftGrp, if_pos hcx.symm, hnone, if_pos (Ne.symm hcy), hgrp]
        rfl
      have hlt := present_lt hc .y
      have hpres := present_step hl hlt (hch.hop hlt (present_lt hd .y) hcy)
      have hmoved : t.step c .y s .y ≠ c .y := by
        intro he
        have hdist := GapRing.dist_adj (s := s) hlt (present_lt hd .y) hcy
        rw [step_apply] at he
        rw [he] at hdist
        omega
      refine ⟨.y, s, hhop, .inl ⟨?_, ?_⟩⟩
      · refine present_of_missing hr hx (turn_lt hcl hdl .x) (turn_lt (present_lt hpres) hdl .x) (.inr ?_)
        rw [turn_of_ne (by decide), turn_of_ne (by decide)]
        exact hmoved
      · refine present_of_missing hr hx (turn_lt hcl hdl .x) (turn_lt (turn_lt (present_lt hpres) hdl .x) hdl .y)
          (.inr ?_)
        rw [turn_self, turn_of_ne (by decide)]
        exact Ne.symm hcy
  · have hhop : Hop t c dsw .x (shortAt t c dsw .x) := by
      refine ⟨?_, hg⟩
      rw [lftGrp, if_pos (Ne.symm hcx), nextHopX, nextHopXY, if_neg hx, nextHopIdx_some hcx hg]
      rfl
    have hdist := shortDist_step (present_lt hc .x) (present_lt hd .x) hcx
    refine ⟨.x, _, hhop, .inr ?_⟩
    rw [bend, bend, turn_step, if_neg hx, if_neg hx, Prod.Lex.toLex_lt_toLex]
    exact .inl (by omega)

end Hops

section Delivery

variable {t : Torus} {c dsw : Coord}

open Classical in
noncomputable def rank (t : Torus) (dsw c : Coord) : ℕ ×ₗ ℕ ×ₗ ℕ ×ₗ ℕ :=
  if Straight t c dsw then toLex (0, toLex (way t c dsw, toLex (0, 0))) else toLex (1, bend t c dsw)

/-- From `c` the packet goes to `c'`: the counters decide between parallel links. -/
def Follows (t : Torus) (dsw c c' : Coord) : Prop :=
  ∃ cnt updatePortCnt ca e, (lftPort t cnt c dsw updatePortCnt ca).1 = some e ∧ e.farSw = c'

lemma exists_hop (hl : Linked t) (hr : routableTorus t = true) (hc : t.present c) (hd : t.present dsw)
    (hne : c ≠ dsw) : ∃ d s, Hop t c dsw d s ∧ rank t dsw (t.step c d s) < rank t dsw c ∧
      (Straight t c dsw → Straight t (t.step c d s) dsw ∧ way t (t.step c d s) dsw + 1 = way t c dsw) := by
  by_cases hs : Straight t c dsw
  · obtain ⟨d, s, hhop, hs', hway⟩ := straight_hop hl hr hc hd hs hne
    refine ⟨d, s, hhop, ?_, fun _ => ⟨hs', hway⟩⟩
    rw [rank, rank, if_pos hs, if_pos hs', Prod.Lex.toLex_lt_toLex]
    exact .inr ⟨rfl, Prod.Lex.toLex_lt_toLex.mpr (.inl (by omega))⟩
  · have hbent : ∃ d s, Hop t c dsw d s ∧
        (Straight t (t.step c d s) dsw ∨ bend t (t.step c d s) dsw < bend t c dsw) := by
      by_cases hx : t.present (turn c dsw .x)
      · exact bent_hop_y hl hr hc hd hx fun hy => hs ⟨hx, hy⟩
      · exact bent_hop_x hl hr hc hd hx
    obtain ⟨d, s, hhop, hlow⟩ := hbent
    refine ⟨d, s, hhop, ?_, fun h => absurd h hs⟩
    rw [rank, rank, if_neg hs]
    split_ifs with hs'
    · exact Prod.Lex.toLex_lt_toLex.mpr (.inl one_pos)
    · exact Prod.Lex.toLex_lt_toLex.mpr (.inr ⟨rfl, hlow.resolve_left hs'⟩)

lemma Hop.lftPort_eq {d : Dim} {s : Bool} (h : Hop t c dsw d s) (hl : Linked t) (cnt : DlidCnt)
    (updatePortCnt ca : Bool) :
    ∃ e, (lftPort t cnt c dsw updatePortCnt ca).1 = some e ∧ e.farSw = t.step c d s := by
  have hget : ∀ n, ∃ e, (t.ptgrp c (d.grp s))[n % (t.ptgrp c (d.grp s)).length]? = some e ∧
      e.farSw = t.step c d s := by
    intro n
    have hlt : n % (t.ptgrp c (d.grp s)).length < (t.ptgrp c (d.grp s)).length :=
      Nat.mod_lt _ (List.length_pos_iff.mpr h.port)
    exact ⟨_, List.getElem?_eq_getElem hlt, farSw_eq hl (List.getElem_mem hlt)⟩
  rw [lftPort, h.grp]
  dsimp only
  rw [if_neg h.port]
  cases updatePortCnt with
  | false =>
    obtain ⟨e, he, hfar⟩ := hget 0
    rw [Nat.zero_mod] at he
    exact ⟨e, he, hfar⟩
  | true =>
    cases ca with
    | false => exact hget _
    | true => exact hget _

lemma Hop.follows_iff {d : Dim} {s : Bool} (h : Hop t c dsw d s) (hl : Linked t) (c' : Coord) :
    Follows t dsw c c' ↔ c' = t.step c d s := by
  constructor
  · rintro ⟨cnt, updatePortCnt, ca, e, he, rfl⟩
    obtain ⟨e', he', hfar⟩ := h.lftPort_eq hl cnt updatePortCnt ca
    obtain rfl := Option.some.inj (he.symm.trans he')
    exact hfar
  · rintro rfl
    obtain ⟨e, he, hfar⟩ := h.lftPort_eq hl ⟨fun _ _ => 0, fun _ _ => 0⟩ false false
    exact ⟨_, _, _, e, he, hfar⟩

/-- All switches are there, and all links: none over the dateline of a mesh. With radix two the links are on
either side. -/
def Pristine (t : Torus) : Prop :=
  ∀ c, (∀ d, c d < t.sz d) → t.present c ∧
    ∀ d, 2 < t.sz d → (t.ptgrp c d.pos ≠ [] ↔ (t.mesh d = true → c d + 1 < t.sz d))

def ringDist (t : Torus) (a b : Coord) (d : Dim) : ℕ :=
  let direct := max (a d) (b d) - min (a d) (b d)
  if t.mesh d then direct else min direct (t.sz d - direct)

lemma lenAt_eq (hl : Linked t) (hr : routableTorus t = true) (hp : Pristine t) (hc : ∀ d, c d < t.sz d)
    (hd : ∀ d, dsw d < t.sz d) (d : Dim) : lenAt t c dsw d = ringDist t c dsw d := by
  have hcd := hc d
  have hdd := hd d
  by_cases hsz : 2 < t.sz d
  · have hlink : ∀ p < t.sz d, t.link c d p ↔ (t.mesh d = true → p + 1 < t.sz d) := by
      intro p hlt
      have hrange : ∀ e, Function.update c d p e < t.sz e := by
        intro e
        by_cases he : e = d
        · rw [he, Function.update_self]
          exact hlt
        · rw [Function.update_of_ne he]
          exact hc e
      have hiff := (hp _ hrange).2 d hsz
      rwa [Function.update_self] at hiff
    rw [lenAt, ringDist]
    split_ifs with hm
    · refine GapRing.len_line (fun p hlt => ?_) hcd hdd
      rw [hlink p hlt]
      exact ⟨fun h => h hm, fun h _ => h⟩
    · exact GapRing.len_ring (fun p hlt => (hlink p hlt).mpr fun h => absurd h hm) hcd hdd
  · have hdist : ringDist t c dsw d = max (c d) (dsw d) - min (c d) (dsw d) := by
      rw [ringDist]
      split_ifs
      · rfl
      · omega
    rw [hdist]
    by_cases hne : c d = dsw d
    · rw [lenAt_of_eq hne, hne]
      omega
    · obtain ⟨s, hs⟩ := exists_chosen hl hr (hp c hc).1 (hp _ (turn_lt hc hd d)).1
      have hpos := (GapRing.dist_eq_zero (s := s) hcd hdd).not.mpr hne
      have hlt := GapRing.dist_lt (s := s) hcd hdd
      rw [lenAt, hs.len_eq]
      omega

lemma way_eq (hl : Linked t) (hr : routableTorus t = true) (hp : Pristine t) (hc : t.present c)
    (hd : t.present dsw) :
    way t c dsw = ringDist t c dsw .x + ringDist t c dsw .y + ringDist t c dsw .z := by
  have hcl := present_lt hc
  have hdl := present_lt hd
  have hxl := turn_lt hcl hdl .x
  rw [way, lenAt_eq hl hr hp hcl hdl, lenAt_eq hl hr hp hxl hdl, lenAt_eq hl hr hp (turn_lt hxl hdl .y) hdl]
  rfl

lemma exists_route (hl : Linked t) (hr : routableTorus t = true) {sw : Coord} (hs : t.present sw)
    (hd : t.present dsw) :
    ∃ path, (sw :: path).IsChain (Follows t dsw) ∧ (sw :: path).getLast (List.cons_ne_nil sw path) = dsw ∧
      (sw :: path).Nodup ∧ (∀ c ∈ sw :: path, c ≠ dsw → ∃! c', Follows t dsw c c') ∧
      (Straight t sw dsw → path.length = way t sw dsw) := by
  have hgoal : way t dsw dsw = 0 := by
    rw [way, turn_of_eq rfl, turn_of_eq rfl, lenAt_of_eq rfl, lenAt_of_eq rfl, lenAt_of_eq rfl]
  have hstep : ∀ c, t.present c → c ≠ dsw → ∃ c', Follows t dsw c c' ∧ t.present c' ∧
      rank t dsw c' < rank t dsw c ∧
      ∀ l : List Coord, ((∀ a ∈ c' :: l, a ≠ dsw → ∃! a', Follows t dsw a a') ∧
          (Straight t c' dsw → l.length = way t c' dsw)) →
        (∀ a ∈ c :: c' :: l, a ≠ dsw → ∃! a', Follows t dsw a a') ∧
          (Straight t c dsw → (c' :: l).length = way t c dsw) := by
    intro c hc hne
    obtain ⟨d, s, hhop, hlow, hway⟩ := exists_hop hl hr hc hd hne
    have hiff := hhop.follows_iff hl
    have hpres := present_step hl (present_lt hc d) ((link_iff hl (present_lt hc d)).mpr hhop.port)
    refine ⟨t.step c d s, (hiff _).mpr rfl, hpres, hlow, fun l hq => ⟨?_, fun hs => ?_⟩⟩
    · intro a ha hne'
      rcases List.mem_cons.mp ha with rfl | hmem
      · exact ⟨t.step a d s, (hiff _).mpr rfl, fun a' h => (hiff _).mp h⟩
      · exact hq.1 a hmem hne'
    · obtain ⟨hs', hlen⟩ := hway hs
      rw [List.length_cons, hq.2 hs', hlen]
  obtain ⟨path, hchain, hlast, hnd, ⟨hall, hlen⟩, -⟩ := Descent.exists_walk (rank t dsw)
    (fun c => t.present c = true)
    (fun c l => (∀ a ∈ c :: l, a ≠ dsw → ∃! a', Follows t dsw a a') ∧ (Straight t c dsw → l.length = way t c dsw))
    ⟨fun a ha hne => absurd (List.mem_singleton.mp ha) hne, fun _ => hgoal.symm⟩ hstep hs
  exact ⟨path, hchain, hlast, hnd, hall, hlen⟩

/-- In a torus that is accepted for routing every switch is reached from every other: there is a port at every
hop, the hops lead to the same switch whichever of parallel links is taken, and no switch is visited twice. The
walks round the rings end within one turn. -/
theorem lft_delivers (hl : Linked t) (hr : routableTorus t = true) {sw : Coord} (hs : t.present sw)
    (hd : t.present dsw) (hne : sw ≠ dsw) :
    (∀ cnt updatePortCnt ca, (lftPort t cnt sw dsw updatePortCnt ca).1.isSome) ∧
    (∃ path, (sw :: path).IsChain (Follows t dsw) ∧ (sw :: path).getLast (List.cons_ne_nil sw path) = dsw ∧
      (sw :: path).Nodup ∧ (∀ c ∈ sw :: path, c ≠ dsw → ∃! c', Follows t dsw c c') ∧
      (Pristine t → path.length = ringDist t sw dsw .x + ringDist t sw dsw .y + ringDist t sw dsw .z)) ∧
    ∀ d s, sw d ≠ dsw d → (ringWalk t d (sign s) (turn sw dsw d) (t.sz d) sw).isSome := by
  refine ⟨fun cnt updatePortCnt ca => ?_, ?_, fun d s hne => ?_⟩
  · obtain ⟨d, s, hhop, -⟩ := exists_hop hl hr hs hd hne
    obtain ⟨e, he, -⟩ := hhop.lftPort_eq hl cnt updatePortCnt ca
    rw [he]
    rfl
  · obtain ⟨path, hchain, hlast, hnd, hall, hlen⟩ := exists_route hl hr hs hd
    refine ⟨path, hchain, hlast, hnd, hall, fun hp => ?_⟩
    have hstraight : Straight t sw dsw := by
      have hxl := turn_lt (present_lt hs) (present_lt hd) .x
      exact ⟨(hp _ hxl).1, (hp _ (turn_lt hxl (present_lt hd) .y)).1⟩
    rw [hlen hstraight, way_eq hl hr hp hs hd]
  · obtain ⟨b, hb, -⟩ := ringWalk_eq (s := s) hl (present_lt hs d) (present_lt hd d) hne
      (GapRing.dist_lt (present_lt hs d) (present_lt hd d)).le
    rw [turn_eq, hb]
    rfl

end Delivery

section Grid

variable (sz : Dim → ℕ) (mesh : Dim → Bool) (missing : Coord → Bool)

def gridSw (c : Coord) : Bool := decide (∀ d, c d < sz d) && !missing c

def gridLinked (c : Coord) (d : Dim) : Bool :=
  gridSw sz missing c && gridSw sz missing (Function.update c d (GapRing.succ (sz d) (c d))) &&
    !(mesh d && decide (c d + 1 = sz d))

def gridLink (c : Coord) (d : Dim) : Link :=
  ⟨⟨d.pos + 1, c⟩, ⟨d.neg + 1, Function.update c d (GapRing.succ (sz d) (c d))⟩⟩

def gridGrp (c : Coord) (g : ℕ) (d : Dim) : List Endpoint :=
  let below := Function.update c d (GapRing.pred (sz d) (c d))
  if g = d.pos ∧ gridLinked sz mesh missing c d then [⟨gridLink sz c d, false⟩]
  else if g = d.neg ∧ gridLinked sz mesh missing below d then [⟨gridLink sz below d, true⟩]
  else []

def grid : Torus where
  sz := sz
  mesh := mesh
  sw c :=
    if gridSw sz missing c then
      some ⟨fun g => [Dim.x, Dim.y, Dim.z].flatMap (gridGrp sz mesh missing c g)⟩
    else none
  inRange c h d := by
    by_contra hlt
    have hsw : gridSw sz missing c = false := by
      rw [gridSw, decide_eq_false fun hall => hlt (hall d), Bool.false_and]
    rw [hsw] at h
    cases h

variable {sz mesh missing} {c : Coord} {d : Dim}

lemma grid_pos : (grid sz mesh missing).ptgrp c d.pos =
    if gridLinked sz mesh missing c d then [⟨gridLink sz c d, false⟩] else [] := by
  by_cases hc : gridSw sz missing c
  · have hsw : (grid sz mesh missing).ptgrp c d.pos = [Dim.x, Dim.y, Dim.z].flatMap
        (gridGrp sz mesh missing c d.pos) := by
      rw [Torus.ptgrp]
      change (if gridSw sz missing c then _ else _ : Option TSwitch).elim [] _ = _
      rw [if_pos hc]
      rfl
    rw [hsw]
    cases d <;> simp [gridGrp, Dim.pos, Dim.neg, Dim.idx]
  · have hno : gridLinked sz mesh missing c d = false := by
      rw [gridLinked, Bool.eq_false_iff.mpr hc, Bool.false_and, Bool.false_and]
    rw [Torus.ptgrp]
    change (if gridSw sz missing c then _ else _ : Option TSwitch).elim [] _ = _
    rw [if_neg hc, hno]
    rfl

lemma grid_neg : (grid sz mesh missing).ptgrp c d.neg =
    if gridSw sz missing c ∧ gridLinked sz mesh missing ((grid sz mesh missing).pred c d) d then
      [⟨gridLink sz ((grid sz mesh missing).pred c d) d, true⟩] else [] := by
  by_cases hc : gridSw sz missing c
  · have hsw : (grid sz mesh missing).ptgrp c d.neg = [Dim.x, Dim.y, Dim.z].flatMap
        (gridGrp sz mesh missing c d.neg) := by
      rw [Torus.ptgrp]
      change (if gridSw sz missing c then _ else _ : Option TSwitch).elim [] _ = _
      rw [if_pos hc]
      rfl
    rw [hsw]
    cases d <;> simp [gridGrp, Dim.pos, Dim.neg, Dim.idx, Torus.pred, grid, hc]
  · rw [Torus.ptgrp]
    change (if gridSw sz missing c then _ else _ : Option TSwitch).elim [] _ = _
    rw [if_neg hc, if_neg fun h => hc h.1]
    rfl

lemma grid_linked : Linked (grid sz mesh missing) where
  pos c d e he := by
    rw [grid_pos] at he
    split_ifs at he with hl
    · obtain rfl := List.mem_singleton.mp he
      have hpred : (grid sz mesh missing).pred ((grid sz mesh missing).succ c d) d = c := by
        rw [Torus.pred, Torus.succ, Function.update_self, Function.update_idem, GapRing.pred_succ, update_same]
      refine ⟨rfl, rfl, rfl, ?_⟩
      rw [grid_neg, hpred, if_pos]
      · exact List.mem_singleton.mpr rfl
      · simp only [gridLinked, Bool.and_eq_true] at hl
        exact ⟨hl.1.2, by simp [gridLinked, hl.1, hl.2]⟩
    · cases he
  neg c d e he := by
    rw [grid_neg] at he
    split_ifs at he with hl
    · obtain rfl := List.mem_singleton.mp he
      have hc : c d < (grid sz mesh missing).sz d := by
        have hsw := hl.1
        rw [gridSw, Bool.and_eq_true] at hsw
        exact of_decide_eq_true hsw.1 d
      have hsucc : Function.update ((grid sz mesh missing).pred c d) d
          (GapRing.succ (sz d) ((grid sz mesh missing).pred c d d)) = c := by
        rw [Torus.pred, Function.update_self, Function.update_idem]
        change Function.update c d (GapRing.succ (sz d) (GapRing.pred (sz d) (c d))) = c
        rw [GapRing.succ_pred (show c d < sz d from hc), update_same]
      refine ⟨rfl, hsucc, rfl, ?_⟩
      rw [grid_pos, if_pos hl.2]
      exact List.mem_singleton.mpr rfl
    · cases he

/-- The way round a missing switch in the middle of a torus. -/
theorem lft_delivers_around : ∃ path, (coord 0 1 0 :: path).IsChain (Follows
      (grid (coord 3 3 1) (fun d => decide (d = .z)) fun c => decide (c = coord 1 1 0)) (coord 1 2 0)) ∧
    (coord 0 1 0 :: path).getLast (List.cons_ne_nil _ path) = coord 1 2 0 ∧ (coord 0 1 0 :: path).Nodup := by
  have hroutable : routableTorus
      (grid (coord 3 3 1) (fun d => decide (d = .z)) fun c => decide (c = coord 1 1 0)) = true := by
    decide +kernel
  have hs : (grid (coord 3 3 1) (fun d => decide (d = .z)) fun c => decide (c = coord 1 1 0)).present
      (coord 0 1 0) := by
    decide +kernel
  have hd : (grid (coord 3 3 1) (fun d => decide (d = .z)) fun c => decide (c = coord 1 1 0)).present
      (coord 1 2 0) := by
    decide +kernel
  obtain ⟨path, hchain, hlast, hnd, -⟩ :=
    (lft_delivers grid_linked hroutable hs hd (by decide)).2.1
  exact ⟨path, hchain, hlast, hnd⟩

end Grid

end OpenSM.Torus2QoS
