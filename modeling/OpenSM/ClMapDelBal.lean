import OpenSM.ClMapBalance

/-! Rebalancing after a removal. The paths through the focus lack one black item, and it is made up
for there or further up. -/

namespace OpenSM.ClMap

open Lib.RedBlack Lib.PtrTree ColorTree

variable {α : Type} {h : Store α} {ctx : List (Frame α)} {q p : Ptr α}
  {t : ColorTree α} {N : ℕ}

structure DelState (h : Store α) (ctx : List (Frame α)) (q p : Ptr α) (t : ColorTree α) (N : ℕ) :
    Prop where
  focus : Focus h ctx q p t
  -- the loop also climbs from `nil`, whose parent field the caller has set
  up : h.up p = q
  bal : ∃ n, t.Bal n ∧ CtxBal ctx (n + 1) N
  noRed : t.blacken.NoRedRed
  ctxNoRed : CtxNoRed ctx .black
  sentinels : Sentinels h

structure DelDone (h : Store α) (t : ColorTree α) : Prop where
  focus : Focus h [] .root (h.kid .left .root) t
  bal : ∃ N, t.Bal N
  noRed : t.NoRedRed
  black : t.color = .black
  sentinels : Sentinels h

lemma DelState.side [DecidableEq α] {f : Frame α} (hi : DelState h (f :: ctx) q p t N) :
    parentSide h p = f.d := by
  refine parentSide_eq hi.focus.frames hi.up ?_
  rintro _ _ ⟨rfl, rfl⟩ he
  obtain ⟨n, -, hs, -⟩ := hi.bal
  obtain ⟨c, u, x, y, hu⟩ := hs.exists_fork .left
  have hr := hi.focus.frames.2.2.2.1
  rw [he, hu] at hr
  obtain ⟨rfl, -⟩ := rep_fork.mp hr
  refine hi.focus.not_inCtx hi.focus.rep.mem (inCtx_cons.mpr (.inr (.inl ?_)))
  rw [hu]
  exact mem_toList_fork.mpr (.inl rfl)

lemma DelState.parent {f : Frame α} (hi : DelState h (f :: ctx) q p t N) :
    q = .item f.a ∧ h.kid f.d q = p ∧ Focus h ctx (h.up q) q (fork f.d f.c f.a t f.sib) :=
  focus_cons.mp hi.focus

variable [DecidableEq α]

lemma blacken_setColor_ne_root (hs : Sentinels h) (hp : p ≠ .root) :
    Sentinels (h.setColor p .black) := by
  obtain ⟨hn, hr⟩ := hs
  refine ⟨?_, by rw [h.color_setColor_of_ne _ _ _ hp.symm, hr]⟩
  by_cases hpn : Ptr.nil = p
  · subst hpn
    simp
  · rw [h.color_setColor_of_ne _ _ _ hpn, hn]

section Step

variable {d : Side} {c : Color} {b : α} {s : ColorTree α}

lemma delBalUncle_spec (hi : DelState h (⟨d, c, b, s⟩ :: ctx) q p t N) :
    ∃ q' c' s' ctx', DelState (delBalUncle d h p).2 (⟨d, c', b, s'⟩ :: ctx') q' p t N ∧
      (delBalUncle d h p).1 = (delBalUncle d h p).2.kid d.opp q' ∧ s'.color = .black ∧
      (c' = .red ∨ ctx' = ctx) ∧
      before (⟨d, c', b, s'⟩ :: ctx') ++ t.toList ++ after (⟨d, c', b, s'⟩ :: ctx') =
        before (⟨d, c, b, s⟩ :: ctx) ++ t.toList ++ after (⟨d, c, b, s⟩ :: ctx) := by
  obtain ⟨hq, hk, hf⟩ := hi.parent
  obtain rfl : q = .item b := hq
  have hcol : h.color (h.kid d.opp (.item b)) = s.color :=
    (rep_fork.mp hf.rep).2.2.2.2.color_eq hi.sentinels.1
  simp only [delBalUncle, hi.up, hcol]
  by_cases hsr : s.color = .red
  · rw [if_pos hsr]
    obtain ⟨w, x, y, rfl⟩ := exists_fork_of_red d hsr
    obtain ⟨n, htn, hsn, hcn⟩ := hi.bal
    obtain ⟨hcr, hsnr, hctx⟩ := hi.ctxNoRed
    obtain rfl : c = .black := by
      refine Color.ne_red.mp fun hc => ?_
      exact absurd (hcr hc).2 (by simp)
    simp only [bal_fork_red, if_true] at hsn hcn
    have hnr := noRedRed_fork.mp hsnr
    have hf : Focus h ctx (h.up (.item b)) (.item b) (fork d .black b t (fork d .red w x y)) := hf
    have hw : h.kid d.opp (.item b) = .item w :=
      (rep_fork.mp (rep_fork.mp hf.rep).2.2.2.2).1
    rw [← fork_opp] at hf
    have h₁ := hf.setColor_kid .black
    have h₂ := h₁.setColor .red
    rw [fork_opp, hw] at h₂
    have h₃ := (focus_rot h₂).down
    rw [(rep_fork.mp h₃.rep).1] at h₃
    have h₄ := h₃.down
    rw [hi.focus.rep.ptr_eq h₄.rep] at h₄
    have hup : (rot d ((h.setColor (.item w) .black).setColor (.item b) .red) (.item b)).up p =
        .item b := by
      by_cases hp : p = .nil
      · have hup := hi.up
        rw [hp] at hup ⊢
        exact (focus_rot_nil h₂).trans hup
      · exact h₄.up_eq hp
    simp only [hw, Store.up_setColor, hi.up, hup]
    refine ⟨_, .red, x, _, ⟨h₄, hup, ⟨n, htn, hsn.1, ?_⟩, hi.noRed, ⟨?_, hnr.2.1, ?_⟩, ?_⟩, rfl,
      (hnr.1 rfl).1, .inl rfl, ?_⟩
    · exact ⟨hsn.2, hcn⟩
    · simpa using (hnr.1 rfl).1
    · exact ⟨by simp, hnr.2.2, hctx⟩
    · exact hi.sentinels.setColor.setColor.rot
    · rw [before_toList_after, before_toList_after, before_toList_after]
      congr 2
      exact toList_rotate _ _ _ _ _ _ _ _ _ _
  · rw [if_neg hsr]
    exact ⟨_, c, s, ctx, hi, rfl, Color.ne_red.mp hsr, .inr rfl, rfl⟩

omit [DecidableEq α] in
lemma DelState.uncle (hi : DelState h (⟨d, c, b, s⟩ :: ctx) q p t N) (hs : s.color = .black) :
    ∃ w x y, s = fork d .black w x y ∧ h.kid d.opp q = .item w ∧
      h.color (h.kid d (.item w)) = x.color ∧ h.color (h.kid d.opp (.item w)) = y.color := by
  obtain ⟨n, -, hsn, -⟩ := hi.bal
  obtain ⟨c', w, x, y, rfl⟩ := hsn.exists_fork d
  obtain rfl : c' = .black := by simpa using hs
  obtain ⟨-, -, hf⟩ := hi.parent
  have hr := (rep_fork.mp hf.rep).2.2.2.2
  obtain ⟨hw, -, -, hx, hy⟩ := rep_fork.mp hr
  have hw : h.kid d.opp q = .item w := hw
  have hx : Rep h (h.kid d.opp q) (h.kid d (h.kid d.opp q)) x := hx
  have hy : Rep h (h.kid d.opp q) (h.kid d.opp (h.kid d.opp q)) y := hy
  rw [hw] at hx hy
  exact ⟨w, x, y, rfl, hw, hx.color_eq hi.sentinels.1, hy.color_eq hi.sentinels.1⟩

variable {w : α} {x y : ColorTree α}

lemma delBal_climb (hi : DelState h (⟨d, c, b, fork d .black w x y⟩ :: ctx) q p t N)
    (ht : t.color = .black) (hx : x.color = .black) (hy : y.color = .black) :
    ∃ q' t', DelState (h.setColor (h.kid d.opp q) .red) ctx q' (.item b) t' N ∧
      t'.color = c ∧ before ctx ++ t'.toList ++ after ctx =
        before (⟨d, c, b, fork d .black w x y⟩ :: ctx) ++ t.toList ++
          after (⟨d, c, b, fork d .black w x y⟩ :: ctx) := by
  obtain ⟨hq, hk, hf⟩ := hi.parent
  obtain rfl : q = .item b := hq
  have hf : Focus h ctx (h.up (.item b)) (.item b) (fork d c b t (fork d .black w x y)) := hf
  obtain ⟨n, htn, hsn, hcn⟩ := hi.bal
  obtain ⟨-, hnr, hctx⟩ := hi.ctxNoRed
  have hw : h.kid d.opp (.item b) = .item w := (rep_fork.mp (rep_fork.mp hf.rep).2.2.2.2).1
  rw [← fork_opp] at hf
  have h₁ := hf.setColor_kid .red
  rw [fork_opp, hw] at h₁
  rw [hw]
  have htr := hi.noRed
  rw [blacken_of_black ht] at htr
  simp only [bal_fork_black, Nat.add_right_cancel_iff, exists_eq_left'] at hsn
  simp only [noRedRed_fork] at hnr
  refine ⟨_, _, ⟨h₁, h₁.up_eq (by simp), ?_, ?_, hctx.black, hi.sentinels.setColor⟩, by simp, ?_⟩
  · cases c with
    | red => exact ⟨n, by simpa using ⟨htn, hsn⟩, hcn⟩
    | black => exact ⟨n + 1, by simpa using ⟨htn, hsn⟩, hcn⟩
  · simpa using ⟨htr, ⟨hx, hy⟩, hnr.2⟩
  · rw [before_toList_after]
    congr 2
    exact toList_recolor _ _ _ _ rfl (toList_recolor _ _ _ _ rfl rfl)

/-- The far child of the uncle becomes red. -/
lemma delBalTurn_spec (hi : DelState h (⟨d, c, b, fork d .black w x y⟩ :: ctx) q p t N)
    (hx : x.color = .red) (hy : y.color = .black) :
    ∃ v x' y', DelState (delBalTurn d h p (h.kid d.opp q)).2
        (⟨d, c, b, fork d .black v x' y'⟩ :: ctx) q p t N ∧ y'.color = .red ∧
      (delBalTurn d h p (h.kid d.opp q)).1 =
        (delBalTurn d h p (h.kid d.opp q)).2.kid d.opp q ∧
      before (⟨d, c, b, fork d .black v x' y'⟩ :: ctx) ++ t.toList ++
          after (⟨d, c, b, fork d .black v x' y'⟩ :: ctx) =
        before (⟨d, c, b, fork d .black w x y⟩ :: ctx) ++ t.toList ++
          after (⟨d, c, b, fork d .black w x y⟩ :: ctx) := by
  obtain ⟨hq, hk, hf⟩ := hi.parent
  obtain rfl : q = .item b := hq
  have hf : Focus h ctx (h.up (.item b)) (.item b) (fork d c b t (fork d .black w x y)) := hf
  obtain ⟨v, x', z, rfl⟩ := exists_fork_of_red d hx
  obtain ⟨n, htn, hsn, hcn⟩ := hi.bal
  obtain ⟨hcr, hnr, hctx⟩ := hi.ctxNoRed
  simp only [bal_fork_black, bal_fork_red, Nat.add_right_cancel_iff, exists_eq_left'] at hsn
  simp only [noRedRed_fork, true_implies] at hnr
  obtain ⟨hw, -, -, hv, -⟩ := rep_fork.mp (rep_fork.mp hf.rep).2.2.2.2
  rw [hw] at hv
  have hv := (rep_fork.mp hv).1
  rw [← fork_opp] at hf
  have h₁ := hf.down.setColor_kid .black
  have h₂ := h₁.setColor .red
  rw [hw, hv, ← fork_opp d .red, ← fork_opp d .black] at h₂
  have h₃ := focus_rot h₂
  have hnil := focus_rot_nil h₂
  rw [fork_opp, fork_opp] at h₃
  obtain ⟨-, -, h₄⟩ := focus_cons.mp h₃
  simp only [fork_opp] at h₄
  have h₅ := h₄.down
  rw [hi.focus.rep.ptr_eq h₅.rep] at h₅
  have hup : (rot d.opp ((h.setColor (.item v) .black).setColor (.item w) .red) (.item w)).up p =
      .item b := by
    by_cases hp : p = .nil
    · have hup := hi.up
      rw [hp] at hup ⊢
      exact hnil.trans hup
    · exact h₅.up_eq hp
  simp only [delBalTurn, hw, hv, hup]
  refine ⟨v, x', fork d .red w z y, ⟨h₅, hup, ⟨n, htn, ?_, hcn⟩, hi.noRed, ⟨?_, ?_, hctx⟩, ?_⟩,
    by simp, trivial, ?_⟩
  · simpa [and_assoc] using hsn
  · simp
  · simpa using ⟨hnr.2.1.2.1, ⟨hnr.2.1.1.2, hy⟩, hnr.2.1.2.2, hnr.2.2⟩
  · exact hi.sentinels.setColor.setColor.rot
  · rw [before_toList_after, before_toList_after]
    congr 2
    apply toList_recolor _ _ _ _ rfl
    exact (toList_rotate _ _ _ _ _ _ _ _ _ _).symm

lemma delBalFinish_spec (hi : DelState h (⟨d, c, b, fork d .black w x y⟩ :: ctx) q p t N)
    (ht : t.color = .black) (hy : y.color = .red) :
    ∃ t', DelDone ((delBalFinish d h p (h.kid d.opp q)).setColor p .black) t' ∧
      t'.toList = before (⟨d, c, b, fork d .black w x y⟩ :: ctx) ++ t.toList ++
          after (⟨d, c, b, fork d .black w x y⟩ :: ctx) := by
  obtain ⟨hq, hk, hf⟩ := hi.parent
  obtain rfl : q = .item b := hq
  have hf : Focus h ctx (h.up (.item b)) (.item b) (fork d c b t (fork d .black w x y)) := hf
  obtain ⟨v, x', z, rfl⟩ := exists_fork_of_red d hy
  obtain ⟨n, htn, hsn, hcn⟩ := hi.bal
  obtain ⟨hcr, hnr, hctx⟩ := hi.ctxNoRed
  simp only [bal_fork_black, bal_fork_red, Nat.add_right_cancel_iff, exists_eq_left'] at hsn
  simp only [noRedRed_fork, true_implies] at hnr
  have htr := hi.noRed
  rw [blacken_of_black ht] at htr
  obtain ⟨-, -, hcb, -, hwr⟩ := rep_fork.mp hf.rep
  obtain ⟨hw, -, -, -, hv⟩ := rep_fork.mp hwr
  rw [hw] at hv
  have hv := (rep_fork.mp hv).1
  rw [← fork_opp d c] at hf
  have h₁ := hf.setColor_kid c
  rw [fork_opp] at h₁
  have h₂ := h₁.setColor .black
  rw [hw, ← fork_opp d .black, ← fork_opp d c] at h₂
  obtain ⟨-, -, h₃⟩ := focus_cons.mp (h₂.down.setColor_kid .black)
  simp only [Store.kid_setColor, Store.up_setColor, hw, hv] at h₃
  rw [fork_opp, fork_opp] at h₃
  have h₄ := (focus_rot h₃).down
  rw [(rep_fork.mp h₄.rep).1] at h₄
  have h₅ := h₄.down
  rw [hi.focus.rep.ptr_eq h₅.rep] at h₅
  have h₆ := h₅.blacken
  rw [blacken_of_black ht] at h₆
  simp only [delBalFinish, hi.up, hcb, hw, Store.up_setColor, Store.kid_setColor, hv]
  have hall : plug ctx (fork d c w (fork d .black b t x) (fork d .black v x' z)) =
      plug (⟨d, .black, b, x⟩ :: ⟨d, c, w, fork d .black v x' z⟩ :: ctx) t := rfl
  have hnrr : (fork d c w (fork d .black b t x) (fork d .black v x' z)).NoRedRed := by
    simpa using ⟨⟨htr, hnr.2.1⟩, hnr.2.2.2⟩
  obtain ⟨hno, hblack⟩ := noRedRed_plug.mpr ⟨hnrr, by simpa using hctx⟩
  refine ⟨_, ⟨hall ▸ h₆.unzip, ?_, hno, hblack, ?_⟩, ?_⟩
  · refine ⟨N, bal_plug.mpr ⟨_, ?_, hcn⟩⟩
    cases c <;> simpa [and_assoc] using ⟨htn, hsn⟩
  · exact blacken_setColor_ne_root hi.sentinels.setColor.setColor.setColor.rot hi.focus.rep.ne_root
  · rw [toList_plug, before_toList_after]
    congr 2
    rw [toList_rotate d .black c]
    apply toList_recolor _ _ _ _ rfl
    exact toList_recolor _ _ _ _ rfl (toList_recolor _ _ _ _ rfl rfl)

end Step

lemma DelState.stop (hi : DelState h ctx q p t N) (hstop : t.color = .red ∨ ctx = []) :
    DelDone (h.setColor p .black) (plug ctx t.blacken) := by
  obtain ⟨n, htn, hcn⟩ := hi.bal
  obtain ⟨hno, hblack⟩ := noRedRed_plug.mpr ⟨hi.noRed, by simpa using hi.ctxNoRed⟩
  refine ⟨hi.focus.blacken.unzip, ?_, hno, hblack,
    blacken_setColor_ne_root hi.sentinels hi.focus.rep.ne_root⟩
  cases hc : t.color with
  | red =>
    obtain ⟨a, x, y, rfl⟩ := exists_fork_of_red .left hc
    exact ⟨N, bal_plug.mpr ⟨n + 1, by simpa using htn, hcn⟩⟩
  | black =>
    obtain rfl : ctx = [] := hstop.resolve_left (by simp [hc])
    exact ⟨n, by rwa [plug, blacken_of_black hc]⟩

/-- Every round but one climbs. The one that does not is followed by a stop at a red parent. -/
lemma delBal_spec (fuel : ℕ) (hi : DelState h ctx q p t N)
    (hfuel : t.color = .black → ctx.length < fuel) (hpos : 0 < fuel) :
    ∃ h' t', delBal fuel h p = some h' ∧ DelDone h' t' ∧
      t'.toList = before ctx ++ t.toList ++ after ctx := by
  induction fuel generalizing h ctx q p t with
  | zero => omega
  | succ fuel ih =>
    have hcol := hi.focus.rep.color_eq hi.sentinels.1
    rw [delBal, hcol, hi.up]
    by_cases hstop : t.color = .red ∨ ctx = []
    · have hcond : ¬ (t.color ≠ .red ∧ q ≠ .root) := by
        rintro ⟨ht, hq⟩
        rcases hstop with h | rfl
        · exact ht h
        · exact hq hi.focus.frames.1
      rw [if_neg hcond]
      exact ⟨_, _, rfl, hi.stop hstop, by rw [toList_plug, toList_blacken]⟩
    · rw [not_or] at hstop
      obtain ⟨f, ctx, rfl⟩ := List.exists_cons_of_ne_nil hstop.2
      have ht := Color.ne_red.mp hstop.1
      have hlen := hfuel ht
      simp only [List.length_cons] at hlen
      obtain ⟨d, c, b, s⟩ := f
      have hq : q ≠ .root := by simp [hi.parent.1]
      rw [if_pos ⟨hstop.1, hq⟩, hi.side]
      obtain ⟨q', c', s', ctx', hi₁, hu, hs, hshort, hl⟩ := delBalUncle_spec hi
      obtain ⟨w, x, y, rfl, hw, hx, hy⟩ := hi₁.uncle hs
      simp only [delBalStep, hu, hw, hx, hy]
      by_cases hyc : y.color = .red
      · obtain ⟨t', hd, hl'⟩ := delBalFinish_spec hi₁ ht hyc
        rw [hw] at hd
        rw [if_neg (not_not.mpr hyc)]
        exact ⟨_, t', rfl, hd, hl'.trans hl⟩
      · rw [if_pos hyc]
        by_cases hxc : x.color = .red
        · obtain ⟨v, x', y', hi₂, hy', hu', hl'⟩ :=
            delBalTurn_spec hi₁ hxc (Color.ne_red.mp hyc)
          obtain ⟨t', hd, hl''⟩ := delBalFinish_spec hi₂ ht hy'
          rw [← hu', hw] at hd
          rw [if_neg (not_not.mpr hxc)]
          exact ⟨_, t', rfl, hd, hl''.trans (hl'.trans hl)⟩
        · obtain ⟨q'', t', hi₂, htc, hl'⟩ :=
            delBal_climb hi₁ ht (Color.ne_red.mp hxc) (Color.ne_red.mp hyc)
          rw [if_pos hxc, hi₁.up, hi₁.parent.1]
          rw [hw] at hi₂
          have hfuel' : t'.color = .black → ctx'.length < fuel := by
            intro htb
            rcases hshort with rfl | rfl
            · exact absurd (htc.symm.trans htb) (by decide)
            · omega
          obtain ⟨h', t'', hr, hd, hl''⟩ := ih hi₂ hfuel' (by omega)
          exact ⟨h', t'', hr, hd, hl''.trans (hl'.trans hl)⟩

end OpenSM.ClMap
