import OpenSM.ClMapBalance

/-! Rebalancing after an insertion. The focus is a red item, and the tree is in order up to the
colour of its parent. -/

namespace OpenSM.ClMap

open Lib.RedBlack Lib.PtrTree ColorTree

variable {α : Type} {h : Store α} {ctx : List (Frame α)} {q p : Ptr α}
  {t : ColorTree α} {N : ℕ}

structure InsState (h : Store α) (ctx : List (Frame α)) (q p : Ptr α) (t : ColorTree α) (N : ℕ) :
    Prop where
  focus : Focus h ctx q p t
  red : t.color = .red
  bal : ∃ n, t.Bal n ∧ CtxBal ctx n N
  noRed : t.NoRedRed
  ctxNoRed : CtxNoRed ctx .black
  sentinels : Sentinels h

structure InsDone (h : Store α) (t : ColorTree α) (N : ℕ) : Prop where
  focus : Focus h [] .root (h.kid .left .root) t
  bal : t.Bal N
  noRed : t.NoRedRed
  sentinels : Sentinels h

lemma InsState.item (hi : InsState h ctx q p t N) : ∃ a, p = .item a := by
  obtain ⟨a, x, y, rfl⟩ := exists_fork_of_red .left hi.red
  exact ⟨a, (rep_fork.mp hi.focus.rep).1⟩

lemma InsState.frames (hi : InsState h ctx q p t N) (hq : h.color q = .red) :
    ∃ d b s g ctx', ctx = ⟨d, .red, b, s⟩ :: g :: ctx' ∧ g.c = .black ∧ s.color = .black := by
  cases ctx with
  | nil =>
    obtain ⟨rfl, -⟩ := hi.focus.frames
    exact absurd (hi.sentinels.2.symm.trans hq) (by decide)
  | cons f ctx =>
    obtain ⟨d, c, b, s⟩ := f
    obtain ⟨rfl, -, hc, -⟩ := hi.focus.frames
    obtain rfl : c = .red := hc.symm.trans hq
    obtain ⟨hfs, -, hctx⟩ := hi.ctxNoRed
    cases ctx with
    | nil => exact absurd hctx (by simp [CtxNoRed])
    | cons g ctx =>
      refine ⟨d, b, s, g, ctx, rfl, ?_, (hfs rfl).2⟩
      by_contra hg
      have hgr : g.c = .red := by
        cases hgc : g.c with
        | red => rfl
        | black => exact absurd hgc hg
      exact absurd (hctx.1 hgr).1 (by simp)

section Step

variable {d : Side} {b : α} {s : ColorTree α} {g : Frame α} {ctx' : List (Frame α)}

lemma ups (hf : Focus h (⟨d, .red, b, s⟩ :: g :: ctx') q p t) (hp : p ≠ .nil) :
    h.up p = .item b ∧ h.up (.item b) = .item g.a ∧ h.kid d (.item b) = p ∧
      h.kid g.d (.item g.a) = .item b ∧ Focus h ctx' (h.up (.item g.a)) (.item g.a)
        (fork g.d g.c g.a (fork d .red b t s) g.sib) := by
  have hup := hf.up_eq hp
  obtain ⟨rfl, hk, hf'⟩ := focus_cons.mp hf
  obtain ⟨hq, hk', hf''⟩ := focus_cons.mp hf'
  have hq : h.up (.item b) = .item g.a := hq
  rw [hq] at hk' hf''
  exact ⟨hup, hq, hk, hk', hf''⟩

lemma uncle_color (hi : InsState h (⟨d, .red, b, s⟩ :: g :: ctx') q p t N) :
    h.color (h.kid g.d.opp (.item g.a)) = g.sib.color := by
  obtain ⟨a, rfl⟩ := hi.item
  obtain ⟨-, -, -, -, hf⟩ := ups hi.focus (by simp)
  exact (rep_fork.mp hf.rep).2.2.2.2.color_eq hi.sentinels.1

variable [DecidableEq α]

lemma insBalRecolor_spec (hi : InsState h (⟨d, .red, b, s⟩ :: g :: ctx') q p t N)
    (hg : g.c = .black) (hu : g.sib.color = .red) :
    ∃ q' t', InsState (insBalRecolor g.d h p).2 ctx' q' (insBalRecolor g.d h p).1 t' N ∧
      before ctx' ++ t'.toList ++ after ctx' =
        before (⟨d, .red, b, s⟩ :: g :: ctx') ++ t.toList ++
          after (⟨d, .red, b, s⟩ :: g :: ctx') := by
  obtain ⟨a, rfl⟩ := hi.item
  obtain ⟨hup, hup', hkb, hkg, hf⟩ := ups hi.focus (by simp)
  obtain ⟨w, x, y, hw⟩ := exists_fork_of_red .left hu
  obtain ⟨n, ht, hsn, hgn, hcn⟩ := hi.bal
  obtain ⟨-, hsr, -, hgr, hcr⟩ := hi.ctxNoRed
  simp only [hg, if_true, reduceCtorEq, if_false, hw, bal_fork_red] at hgn hcn
  simp only [hw, noRedRed_fork] at hgr
  rw [hg] at hcr
  have hgd : h.kid g.d.opp (.item g.a) = .item w := by
    have hr := (rep_fork.mp hf.rep).2.2.2.2
    rw [hw] at hr
    exact (rep_fork.mp hr).1
  rw [hg, hw, ← fork_opp] at hf
  have h₁ := hf.setColor_kid .black
  rw [hgd, fork_opp] at h₁
  have h₂ := h₁.setColor_kid .black
  have h₃ := h₂.setColor .red
  simp only [Store.kid_setColor, hkg] at h₃
  simp only [insBalRecolor, Store.up_setColor, hup, hup', hgd]
  refine ⟨_, _, ⟨h₃, by simp, ⟨n + 1, by simpa using ⟨⟨ht, hsn⟩, hgn⟩, hcn⟩, ?_, hcr, ?_⟩, ?_⟩
  · simpa using ⟨⟨hi.noRed, hsr⟩, hgr.2⟩
  · exact hi.sentinels.setColor.setColor.setColor
  · rw [before_toList_after, before_toList_after, hw]
    congr 2
    apply toList_recolor
    · exact toList_recolor _ _ _ _ rfl rfl
    · exact toList_recolor _ _ _ _ rfl rfl

/-- After the turn the item, its parent and its grandparent lie on one line. -/
lemma insBalTurn_spec (hi : InsState h (⟨d, .red, b, s⟩ :: g :: ctx') q p t N)
    (hs : s.color = .black) :
    ∃ q' b' s' t', InsState (insBalTurn g.d h p).2 (⟨g.d, .red, b', s'⟩ :: g :: ctx') q'
        (insBalTurn g.d h p).1 t' N ∧ s'.color = .black ∧
      before (⟨g.d, .red, b', s'⟩ :: g :: ctx') ++ t'.toList ++
          after (⟨g.d, .red, b', s'⟩ :: g :: ctx') =
        before (⟨d, .red, b, s⟩ :: g :: ctx') ++ t.toList ++
          after (⟨d, .red, b, s⟩ :: g :: ctx') := by
  obtain ⟨a, rfl⟩ := hi.item
  have hside : parentSide h (.item a) = d := parentSide_item hi.focus
  rcases Side.eq_or_opp g.d d with rfl | rfl
  · rw [insBalTurn, hside, if_neg (by simp [Side.opp_ne _ |>.symm])]
    exact ⟨q, b, s, t, hi, hs, rfl⟩
  · rw [insBalTurn, hside, if_pos rfl]
    obtain ⟨hup, hup', hkb, hkg, -⟩ := ups hi.focus (by simp)
    obtain ⟨a', x, y, rfl⟩ := exists_fork_of_red g.d hi.red
    obtain ⟨n, ht, hsn, hcn⟩ := hi.bal
    obtain ⟨-, hsr, hcr⟩ := hi.ctxNoRed
    rw [bal_fork_red] at ht
    have hnr := noRedRed_fork.mp hi.noRed
    obtain ⟨-, -, hf⟩ := focus_cons.mp hi.focus
    obtain rfl : q = .item b := hi.focus.frames.1
    have hfr := hf
    rw [fork_opp] at hfr
    have hrot := focus_rot hfr
    have hk : h.up (.item b) = (rot g.d h (.item b)).up (.item a') :=
      (hrot.up_eq (by simp)).symm
    rw [hk] at hrot
    have hnew : Focus (rot g.d h (.item b)) (⟨g.d, .red, a', y⟩ :: g :: ctx') (.item a') (.item b)
        (fork g.d .red b s x) :=
      focus_cons.mpr ⟨rfl, (rep_fork.mp (rep_fork.mp hrot.rep).2.2.2.1).1, hrot⟩
    rw [hup]
    refine ⟨_, a', y, _, ⟨hnew, by simp, ⟨n, ?_, ht.2, hcn⟩, ?_, ⟨?_, hnr.2.2, hcr⟩, ?_⟩, ?_, ?_⟩
    · simpa using ⟨hsn, ht.1⟩
    · simpa using ⟨⟨hs, (hnr.1 rfl).1⟩, hsr, hnr.2.1⟩
    · simpa using (hnr.1 rfl).2
    · exact hi.sentinels.rot
    · exact (hnr.1 rfl).2
    · rw [before_toList_after, before_toList_after ⟨g.d.opp, .red, b, s⟩]
      congr 2
      simp only [fork_opp]
      exact toList_rotate _ _ _ _ _ _ _ _ _ _

lemma insBalRaise_spec (hi : InsState h (⟨g.d, .red, b, s⟩ :: g :: ctx') q p t N)
    (hg : g.c = .black) (hs : s.color = .black) (hu : g.sib.color = .black) :
    ∃ t', InsDone (insBalRaise g.d h p).2 t' N ∧
      (insBalRaise g.d h p).2.color ((insBalRaise g.d h p).2.up (insBalRaise g.d h p).1) = .black ∧
      t'.toList = before (⟨g.d, .red, b, s⟩ :: g :: ctx') ++ t.toList ++
          after (⟨g.d, .red, b, s⟩ :: g :: ctx') := by
  obtain ⟨a, rfl⟩ := hi.item
  obtain ⟨hup, hup', hkb, hkg, hf⟩ := ups hi.focus (by simp)
  obtain ⟨n, ht, hsn, hgn, hcn⟩ := hi.bal
  obtain ⟨-, hsr, -, hgr, hcr⟩ := hi.ctxNoRed
  simp only [hg, if_true, reduceCtorEq, if_false] at hgn hcn
  rw [hg] at hcr hf
  have h₁ := hf.setColor_kid .black
  have h₂ := h₁.setColor .red
  rw [hkg, ← fork_opp, ← fork_opp (y := t)] at h₂
  have h₃ := focus_rot h₂
  simp only [insBalRaise, Store.up_setColor, hup, hup']
  obtain ⟨-, -, hcb, -, hr⟩ := rep_fork.mp h₃.rep
  have htop : (rot g.d.opp ((h.setColor (.item b) .black).setColor (.item g.a) .red)
      (.item g.a)).up (.item a) = .item b := by
    obtain ⟨a', x, y, rfl⟩ := exists_fork_of_red .left hi.red
    obtain ⟨he, hua, -⟩ := rep_fork.mp hr
    obtain ⟨he', -⟩ := rep_fork.mp hi.focus.rep
    rwa [he, ← he'] at hua
  refine ⟨_, ⟨h₃.unzip, ?_, (noRedRed_plug.mpr ⟨?_, ?_⟩).1, ?_⟩, ?_, ?_⟩
  · exact bal_plug.mpr ⟨n + 1, by simpa using ⟨⟨hgn, hsn⟩, ht⟩, hcn⟩
  · simpa using ⟨⟨⟨hu, hs⟩, hgr, hsr⟩, hi.noRed⟩
  · simpa using hcr
  · exact hi.sentinels.setColor.setColor.rot
  · rw [htop, hcb]
  · rw [toList_plug, before_toList_after, before_toList_after]
    congr 2
    rw [toList_rotate g.d.opp .red .black .red .black]
    simp only [fork_opp]
    apply toList_recolor
    · exact toList_recolor _ _ _ _ rfl rfl
    · rfl

end Step

variable [DecidableEq α]

/-- The loop ends after a round for every two frames at most. -/
lemma insBal_spec (fuel : ℕ) (hi : InsState h ctx q p t N) (hfuel : ctx.length < fuel) :
    ∃ h' t', insBal fuel h p = some h' ∧ InsDone h' t' N ∧
      t'.toList = before ctx ++ t.toList ++ after ctx := by
  induction fuel generalizing h ctx q p t with
  | zero => omega
  | succ fuel ih =>
    obtain ⟨a, rfl⟩ := hi.item
    have hup := hi.focus.up_eq (by simp)
    rw [insBal, hup]
    by_cases hq : h.color q = .red
    · rw [if_pos hq]
      obtain ⟨d, b, s, g, ctx', rfl, hg, hs⟩ := hi.frames hq
      obtain ⟨hupb, hup', -, -, -⟩ := ups hi.focus (by simp)
      obtain rfl : q = .item b := hi.focus.frames.1
      have hside : parentSide h (.item b) = g.d :=
        parentSide_item (focus_cons.mp hi.focus).2.2
      simp only [List.length_cons] at hfuel
      rw [hside, insBalStep, hupb, hup', uncle_color hi]
      by_cases hu : g.sib.color = .red
      · rw [if_pos hu]
        obtain ⟨q', t', hi', hl⟩ := insBalRecolor_spec hi hg hu
        obtain ⟨h', t'', hr, hd, hl'⟩ := ih hi' (by omega)
        exact ⟨h', t'', hr, hd, hl'.trans hl⟩
      · rw [if_neg hu]
        obtain ⟨q', b', s', t', hi', hs', hl⟩ := insBalTurn_spec hi hs
        obtain ⟨t'', hd, hc, hl'⟩ := insBalRaise_spec hi' hg hs' (Color.ne_red.mp hu)
        refine ⟨_, t'', ?_, hd, hl'.trans hl⟩
        obtain ⟨k, rfl⟩ : ∃ k, fuel = k + 1 := ⟨fuel - 1, by omega⟩
        rw [insBal, hc, if_neg (by decide)]
    · rw [if_neg hq]
      refine ⟨h, plug ctx t, rfl, ⟨hi.focus.unzip, bal_plug.mpr hi.bal, ?_, hi.sentinels⟩,
        toList_plug ctx t⟩
      cases ctx with
      | nil => exact hi.noRed
      | cons f ctx =>
        obtain ⟨rfl, -, hc, -⟩ := hi.focus.frames
        rw [hc] at hq
        have hcn : CtxNoRed (f :: ctx) t.color := ⟨fun hf => absurd hf hq, hi.ctxNoRed.2⟩
        exact (noRedRed_plug.mpr ⟨hi.noRed, hcn⟩).1

end OpenSM.ClMap
