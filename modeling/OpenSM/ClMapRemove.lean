import OpenSM.ClMapInsert

/-! Removal: a cell with at most one child leaves the tree, the tree is rebalanced, and the cell
takes the place of the removed item where that is another one. -/

namespace OpenSM.ClMap

open Lib.RedBlack Lib.PtrTree Lib.Ring ColorTree

variable {α κ : Type} [DecidableEq α] {h : Store α} {t x l r : ColorTree α}
  {ctx : List (Frame α)} {q p : Ptr α} {a b : α} {c : Color} {d : Side} {N : ℕ}

lemma unlink_child (hf : Focus h ctx q (.item a) (fork d c a x .nil)) :
    (unlink h (.item a)).1 = h.kid d (.item a) := by
  have hn : h.kid d.opp (.item a) = .nil := (rep_fork.mp hf.rep).2.2.2.2
  cases d with
  | left =>
    by_cases hl : h.kid .left (.item a) = .nil
    · simp only [unlink, hl, ne_eq, not_true_eq_false, if_false]
      exact hn
    · simp only [unlink, ne_eq, hl, not_false_eq_true, if_true]
  | right =>
    have hn : h.kid .left (.item a) = .nil := hn
    simp only [unlink, hn, ne_eq, not_true_eq_false, if_false]

lemma unlink_spec (hf : Focus h ctx q (.item a) (fork d c a x .nil)) :
    Focus (unlink h (.item a)).2 ctx q (unlink h (.item a)).1 x ∧
      (unlink h (.item a)).2.up (unlink h (.item a)).1 = q ∧
      (unlink h (.item a)).2.color = h.color := by
  have hchild := unlink_child hf
  obtain ⟨-, hup, -, hx, -⟩ := rep_fork.mp hf.rep
  obtain ⟨hax, -, -, hndx, -⟩ := nodup_fork.mp hf.nodup_tree
  have hne : Ptr.item a ≠ h.kid d (.item a) := by
    intro he
    rw [← he] at hx
    exact hax hx.mem
  have hmem : ∀ b, b ∈ x.toList → b ∈ (fork d c a x .nil).toList := by
    intro b hb
    exact mem_toList_fork.mpr (.inr (.inl hb))
  have heq : (unlink h (.item a)).2 =
      (h.setUp (h.kid d (.item a)) q).setKid (ctxSide ctx) q (h.kid d (.item a)) := by
    rw [← hchild] at hne ⊢
    have hside := parentSide_item hf
    simp only [parentSide, isLeftChild] at hside
    simp only [unlink] at hne ⊢
    simp only [parentSide, isLeftChild, Store.kid_setUp, hup, Store.up_setUp_of_ne _ _ _ _ hne] at *
    rw [hside]
  rw [hchild, heq]
  refine ⟨⟨?_, ?_, ?_⟩, by simp, rfl⟩
  · apply hf.frames.redirect hf.nodup_ctx
    · intro hq
      simp [hq.symm]
    · intro b _ e hbe
      exact Store.kid_setKid_of_pair_ne _ _ _ _ _ _ hbe
    · exact fun _ _ => rfl
    · intro b hb
      have hbx : Ptr.item b ≠ h.kid d (.item a) := by
        intro he
        rw [← he] at hx
        exact hf.not_inCtx (hmem b hx.mem) hb
      simp [hbx]
    · simp
  · apply hx.reparent hndx
    · intro b hb e
      simp [(hf.parent_ne (hmem b hb)).symm]
    · exact fun _ _ => rfl
    · intro b _ hbx
      simp [hbx]
    · simp
  · refine hf.nodup.sublist ?_
    refine List.Sublist.append (List.Sublist.append (List.Sublist.refl _) ?_) (List.Sublist.refl _)
    cases d <;> simp [fork, toList]

/-- A red cell leaves the tree balanced; after a black one the paths through its child lack one
black item. -/
lemma unlink_bal (fuel : ℕ) (hf : Focus h ctx q (.item a) (fork d c a x .nil))
    (hbal : (plug ctx (fork d c a x .nil)).Bal N) (hno : (plug ctx (fork d c a x .nil)).NoRedRed)
    (hb : (plug ctx (fork d c a x .nil)).color = .black) (hs : Sentinels h)
    (hfuel : ctx.length < fuel) :
    ∃ h' t', delRebalance fuel (unlink h (.item a)).2 (.item a) (unlink h (.item a)).1 = some h' ∧
      DelDone h' t' ∧ t'.toList = before ctx ++ x.toList ++ after ctx := by
  obtain ⟨hf', hup, hcol⟩ := unlink_spec hf
  obtain ⟨n, hn, hcn⟩ := bal_plug.mp hbal
  obtain ⟨hnr, hcr⟩ := noRedRed_plug.mp ⟨hno, hb⟩
  obtain ⟨hxr, hxn, -⟩ := noRedRed_fork.mp hnr
  rw [color_fork] at hcr
  have hs' : Sentinels (unlink h (.item a)).2 := by
    rw [Sentinels, hcol]
    exact hs
  rw [delRebalance, hcol, (rep_fork.mp hf.rep).2.2.1]
  cases c with
  | red =>
    have hxb := (hxr rfl).1
    obtain ⟨hno', hb'⟩ := noRedRed_plug.mpr ⟨hxn, by rw [hxb]; exact hcr.black⟩
    refine ⟨_, plug ctx x, if_neg (by simp), ⟨hf'.unzip, ⟨N, ?_⟩, hno', hb', hs'⟩,
      toList_plug ctx x⟩
    exact bal_plug.mpr ⟨n, (bal_fork_red.mp hn).1, hcn⟩
  | black =>
    obtain ⟨n, rfl, hxn', -⟩ := bal_fork_black.mp hn
    have hxb : x.blacken.NoRedRed := by
      cases x with
      | nil => trivial
      | node c l b r => exact ⟨by simp, hxn.2⟩
    rw [if_pos (by simp)]
    exact delBal_spec fuel ⟨hf', hup, ⟨n, hxn', hcn⟩, hxb, hcr.black, hs'⟩ (fun _ => hfuel)
      (by omega)

section Splice

variable {e : Side} {y : Ptr α} (hup : h.up p = q) (hpy : p ≠ y)

lemma splice_color (v : Ptr α) :
    (splice h p y).color v = if v = y then h.color p else h.color v := by
  simp only [splice, Store.setColor, Store.color_setUp, Store.color_setKid, Function.update_apply]

include hup hpy

lemma splice_kid (hqy : q ≠ y) (he : parentSide h p = e) (e' : Side) (v : Ptr α) :
    (splice h p y).kid e' v = if e' = e ∧ v = q then y else if v = y then h.kid e' p
      else h.kid e' v := by
  simp only [parentSide, isLeftChild, hup] at he
  simp only [splice, parentSide, isLeftChild, Store.kid_setColor, Store.kid_setUp,
    Store.up_setKid, Store.up_setUp_of_ne _ _ _ _ hpy, hup, Store.kid_setKid_of_ne _ _ _ _ _ _ hpy,
    Store.kid_setKid_of_ne _ _ _ _ _ _ hqy, he]
  cases e' <;> simp [Store.setKid]

lemma splice_up (hpq : p ≠ q) (v : Ptr α) :
    (splice h p y).up v = if v = h.kid .left p then y else if v = h.kid .right p then y
      else if v = y then q else h.up v := by
  simp only [splice, Store.up_setColor, Store.kid_setUp,
    Store.up_setKid, Store.up_setUp_of_ne _ _ _ _ hpy, hup, Store.kid_setKid_of_ne _ _ _ _ _ _ hpy,
    Store.kid_setKid_of_ne _ _ _ _ _ _ hpq]
  simp [Store.setUp, Store.setKid, Function.update_apply]

end Splice

/-- A cell outside the tree takes the place of an item of it. -/
lemma splice_spec (hf : Focus h ctx q (.item a) (node c l a r)) (hb : ¬ InCtx ctx b)
    (hbt : b ∉ (node c l a r).toList) :
    Focus (splice h (.item a) (.item b)) ctx q (.item b) (node c l b r) := by
  obtain ⟨-, hup, hc, hl, hr⟩ := hf.rep
  obtain ⟨hal, har, hlr, hndl, hndr⟩ := (nodup_fork (d := .left)).mp hf.nodup_tree
  have hmem : ∀ v, v ∈ (node c l a r).toList ↔ v = a ∨ v ∈ l.toList ∨ v ∈ r.toList :=
    fun v => mem_toList_fork (d := .left)
  simp only [hmem, not_or] at hbt
  have hqb : q ≠ .item b := by
    rcases hf.frames.eq_root_or with rfl | ⟨e, rfl, he⟩
    · simp
    · rintro ⟨rfl⟩
      exact hb he
  have hqa := hf.parent_ne ((hmem a).mpr (.inl rfl))
  have hab : Ptr.item a ≠ .item b := by simpa using Ne.symm hbt.1
  have hlt : ∀ v, v ∉ l.toList → Ptr.item v ≠ h.kid .left (.item a) := by
    intro v hv he
    rw [← he] at hl
    exact hv hl.mem
  have hrt : ∀ v, v ∉ r.toList → Ptr.item v ≠ h.kid .right (.item a) := by
    intro v hv he
    rw [← he] at hr
    exact hv hr.mem
  have hkid := splice_kid hup hab hqb (parentSide_item hf)
  have hupw := splice_up hup hab (Ne.symm hqa)
  have hcol := splice_color (h := h) (p := .item a) (y := .item b)
  -- cells of the tree keep their children and colours
  have hkid' : ∀ v, v = a ∨ v ∈ l.toList ∨ v ∈ r.toList → v ≠ b → ∀ e,
      (splice h (.item a) (.item b)).kid e (.item v) = h.kid e (.item v) := by
    intro v hv hvb e
    have hq := (hf.parent_ne ((hmem v).mpr hv)).symm
    rw [hkid, if_neg (by simp [hq]), if_neg (by simpa using hvb)]
  have hcol' : ∀ v, v ≠ b → (splice h (.item a) (.item b)).color (.item v) = h.color (.item v) := by
    intro v hvb
    rw [hcol, if_neg (by simpa using hvb)]
  have hbkid : ∀ e, (splice h (.item a) (.item b)).kid e (.item b) = h.kid e (.item a) := by
    intro e
    rw [hkid, if_neg (by simp [hqb.symm]), if_pos rfl]
  refine ⟨?_, ⟨rfl, ?_, ?_, ?_, ?_⟩, ?_⟩
  · apply hf.frames.redirect hf.nodup_ctx
    · intro hq
      rw [hkid, if_neg (by simp [hq.symm]), if_neg (by simp)]
    · intro v hv e hne
      rw [ne_eq, Prod.mk.injEq] at hne
      rw [hkid, if_neg hne, if_neg (by rintro ⟨rfl⟩; exact hb hv)]
    · intro v hv
      exact hcol' v (by rintro rfl; exact hb hv)
    · intro v hv
      have hvt : ¬ (v = a ∨ v ∈ l.toList ∨ v ∈ r.toList) := by
        rw [← hmem]
        exact fun hvt => hf.not_inCtx hvt hv
      simp only [not_or] at hvt
      rw [hupw, if_neg (hlt v hvt.2.1), if_neg (hrt v hvt.2.2),
        if_neg (by rintro ⟨rfl⟩; exact hb hv)]
    · rw [hkid, if_pos ⟨rfl, rfl⟩]
  · rw [hupw, if_neg (hlt b hbt.2.1), if_neg (hrt b hbt.2.2), if_pos rfl]
  · rw [hcol, if_pos rfl, hc]
  · rw [hbkid]
    apply hl.reparent hndl
    · intro v hv
      exact hkid' v (.inr (.inl hv)) (by rintro rfl; exact hbt.2.1 hv)
    · intro v hv
      exact hcol' v (by rintro rfl; exact hbt.2.1 hv)
    · intro v hv hne
      rw [hupw, if_neg hne, if_neg (hrt v (hlr v hv)), if_neg (by rintro ⟨rfl⟩; exact hbt.2.1 hv)]
    · intro _
      rw [hupw, if_pos rfl]
  · rw [hbkid]
    apply hr.reparent hndr
    · intro v hv
      exact hkid' v (.inr (.inr hv)) (by rintro rfl; exact hbt.2.2 hv)
    · intro v hv
      exact hcol' v (by rintro rfl; exact hbt.2.2 hv)
    · intro v hv hne
      rw [hupw, if_neg (hlt v fun hvl => hlr v hvl hv), if_neg hne,
        if_neg (by rintro ⟨rfl⟩; exact hbt.2.2 hv)]
    · intro _
      rw [hupw]
      split_ifs <;> simp_all
  · have hnd := hf.nodup
    simp only [InCtx, not_or] at hb
    simp only [toList, List.nodup_append, List.mem_append, List.mem_cons, List.nodup_cons] at hnd ⊢
    grind

lemma DelDone.splice (hd : DelDone h (plug ctx (node c l a r))) (hf : Focus h ctx q (.item a)
    (node c l a r)) (hb : b ∉ (plug ctx (node c l a r)).toList) :
    DelDone (splice h (.item a) (.item b)) (plug ctx (node c l b r)) := by
  simp only [toList_plug, List.mem_append, not_or] at hb
  have hf' := splice_spec hf (b := b) (by rintro (h | h); exacts [hb.1.1 h, hb.2 h]) hb.1.2
  obtain ⟨N, hN⟩ := hd.bal
  obtain ⟨n, hn, hcn⟩ := bal_plug.mp hN
  obtain ⟨hnr, hcr⟩ := noRedRed_plug.mp ⟨hd.noRed, hd.black⟩
  have hnr' : (node c l b r).NoRedRed := hnr
  obtain ⟨hno, hblack⟩ := noRedRed_plug.mpr ⟨hnr', hcr⟩
  refine ⟨hf'.unzip, ⟨N, bal_plug.mpr ⟨n, ?_, hcn⟩⟩, hno, hblack, ?_⟩
  · cases c <;> exact hn
  · simpa [Sentinels, splice_color] using hd.sentinels

section RemoveItem

variable [LinearOrder κ] {m : QMap α κ} {l₁ l₂ : List α}

omit [LinearOrder κ] in
lemma delItem_of_nil (hf : Focus m.toStore ctx q (.item a) (node c l a r))
    (hn : l = .nil ∨ r = .nil) : delItem m (.item a) = .item a := by
  obtain ⟨-, -, -, hl, hr⟩ := hf.rep
  rw [delItem, if_pos]
  rcases hn with rfl | rfl
  · exact .inr hl
  · exact .inl hr

omit [LinearOrder κ] in
lemma delItem_of_ne (hf : Focus m.toStore ctx q (.item a) (node c l a r)) (hl : l ≠ .nil)
    (hr : r ≠ .nil) : delItem m (.item a) = m.next (.item a) := by
  obtain ⟨-, -, -, hlr, hrr⟩ := hf.rep
  rw [delItem, if_neg]
  rw [hlr.eq_nil_iff, hrr.eq_nil_iff]
  tauto

lemma removeTree_spec (hm : Holds m t) (hl : t.toList = l₁ ++ a :: l₂) :
    ∃ h t', removeTree t.toList.length m.toStore (.item a) (delItem m (.item a)) = some h ∧
      DelDone h t' ∧ t'.toList = l₁ ++ l₂ := by
  have hnd : t.toList.Nodup := hm.focus.nodup_tree
  obtain ⟨ctx, c, l, r, rfl⟩ := exists_plug_of_mem (t := t) (a := a) (by simp [hl])
  obtain ⟨q, p, hf⟩ := hm.focus.zip
  obtain rfl : p = .item a := hf.rep.1
  obtain ⟨N, hN⟩ := hm.bal
  rw [toList_plug] at hl hnd
  have hsplit : before ctx ++ l.toList = l₁ ∧ r.toList ++ after ctx = l₂ := by
    have he : (before ctx ++ l.toList) ++ a :: (r.toList ++ after ctx) = l₁ ++ a :: l₂ := by
      rw [← hl]
      simp [toList]
    have hnd' : ((before ctx ++ l.toList) ++ a :: (r.toList ++ after ctx)).Nodup := by
      rw [he, ← hl]
      exact hnd
    have hna := List.nodup_append.mp hnd'
    obtain ⟨h₁, -, h₂⟩ := (List.append_cons_inj_of_notMem
      (fun h => hna.2.2 a h a (by simp) rfl) (List.nodup_cons.mp hna.2.1).1).mp he
    exact ⟨h₁, h₂⟩
  obtain ⟨rfl, rfl⟩ := hsplit
  by_cases hn : l = .nil ∨ r = .nil
  · rw [delItem_of_nil hf hn]
    obtain ⟨d, x, hx, hxl⟩ : ∃ d x, node c l a r = fork d c a x .nil ∧
        x.toList = l.toList ++ r.toList := by
      rcases hn with rfl | rfl
      · exact ⟨.right, r, rfl, by simp [toList]⟩
      · exact ⟨.left, l, rfl, by simp [toList]⟩
    have hlen : ctx.length < (plug ctx (node c l a r)).toList.length := by
      have h := length_le_plug ctx (.nil : ColorTree α)
      rw [toList_plug] at h ⊢
      simp only [toList, List.length_append, List.length_cons, List.length_nil] at h ⊢
      omega
    rw [hx] at hf hN hlen ⊢
    obtain ⟨h', t', hr, hd, hl'⟩ := unlink_bal _ hf hN (hx ▸ hm.noRed) (hx ▸ hm.black)
      hm.sentinels hlen
    refine ⟨h', t', ?_, hd, ?_⟩
    · simp [removeTree, hr]
    · rw [hl', hxl]
      simp
  · rw [not_or] at hn
    obtain ⟨ctx', cs, s, rs, rfl, hbef⟩ := exists_plug_head hn.2
    have hrl : (plug ctx' (node cs .nil s rs)).toList = s :: (rs.toList ++ after ctx') := by
      rw [toList_plug, hbef]
      simp [toList]
    have hdel : delItem m (.item a) = .item s := by
      rw [delItem_of_ne hf hn.1 hn.2]
      have hlk := hm.linked
      rw [toList_plug, hl, hrl, List.map_append, List.map_cons] at hlk
      exact hlk.next_eq rfl
    -- the substitute is the least item on the right
    have hall : plug ctx (node c l a (plug ctx' (node cs .nil s rs))) =
        plug (ctx' ++ ⟨.right, c, a, l⟩ :: ctx) (fork .right cs s rs .nil) := by
      rw [plug_append]
      rfl
    have hfoc := hm.focus
    have hlen : (ctx' ++ ⟨.right, c, a, l⟩ :: ctx).length <
        (plug ctx (node c l a (plug ctx' (node cs .nil s rs)))).toList.length := by
      have h := length_le_plug (ctx' ++ ⟨.right, c, a, l⟩ :: ctx) (.nil : ColorTree α)
      rw [hall, toList_plug] at *
      simp only [fork, toList, List.length_append, List.length_cons, List.length_nil] at h ⊢
      omega
    rw [hall] at hfoc hN
    obtain ⟨q', p', hfs⟩ := hfoc.zip
    obtain rfl : p' = .item s := (rep_fork.mp hfs.rep).1
    obtain ⟨h', t', hr, hd, hl'⟩ := unlink_bal _ hfs hN (hall ▸ hm.noRed) (hall ▸ hm.black)
      hm.sentinels hlen
    have htl : t'.toList = (before ctx ++ l.toList) ++ a ::
        (rs.toList ++ after ctx' ++ after ctx) := by
      rw [hl', before_append, after_append, hbef]
      simp [before, after]
    have hnd' : ((before ctx ++ l.toList) ++ a :: s ::
        (rs.toList ++ after ctx' ++ after ctx)).Nodup := by
      rw [toList, hrl] at hnd
      simpa using hnd
    obtain ⟨ctx₂, c₂, l₂, r₂, rfl⟩ := exists_plug_of_mem (t := t') (a := a) (by simp [htl])
    obtain ⟨q₂, p₂, hf₂⟩ := hd.focus.zip
    obtain rfl : p₂ = .item a := hf₂.rep.1
    have hs : s ∉ (plug ctx₂ (node c₂ l₂ a r₂)).toList := by
      rw [htl]
      simp only [List.nodup_append, List.nodup_cons, List.mem_append, List.mem_cons] at hnd' ⊢
      grind
    have has : Ptr.item s ≠ .item a := by
      rintro ⟨rfl⟩
      exact hs (by simp [htl])
    refine ⟨splice h' (.item a) (.item s), _, ?_, hd.splice hf₂ hs, ?_⟩
    · simp [hdel, removeTree, hr, has]
    · have he : (before ctx₂ ++ l₂.toList) ++ a :: (r₂.toList ++ after ctx₂) =
          (before ctx ++ l.toList) ++ a :: (rs.toList ++ after ctx' ++ after ctx) := by
        rw [← htl, toList_plug]
        simp [toList]
      have hna' : a ∉ before ctx₂ ++ l₂.toList ∧ a ∉ r₂.toList ++ after ctx₂ := by
        have hnd₂ := hf₂.nodup
        simp only [toList, List.nodup_append, List.nodup_cons, List.mem_append,
          List.mem_cons] at hnd₂ ⊢
        grind
      obtain ⟨h₁, -, h₂⟩ := (List.append_cons_inj_of_notMem hna'.1 hna'.2).mp he
      rw [toList_plug, hrl]
      calc before ctx₂ ++ (node c₂ l₂ s r₂).toList ++ after ctx₂
          = (before ctx₂ ++ l₂.toList) ++ s :: (r₂.toList ++ after ctx₂) := by simp [toList]
        _ = _ := by
          rw [h₁, h₂]
          simp

def mapRemoveItem (f : κ → Option α) (a : α) (k : κ) : Option α :=
  if f k = some a then none else f k

lemma removeItem_spec {f : κ → Option α} (hm : Holds m t) (hf : Models m t f)
    (ha : a ∈ t.toList) :
    ∃ m' t', removeItem m (.item a) = some m' ∧ Holds m' t' ∧ Models m' t' (mapRemoveItem f a) := by
  obtain ⟨l₁, l₂, hl⟩ := List.append_of_mem ha
  obtain ⟨h, t', hr, hd, htl⟩ := removeTree_spec hm hl
  have hnd : t.toList.Nodup := hm.focus.nodup_tree
  have hcount : m.count - 1 + 1 = t.toList.length := by
    rw [hm.count, hl, List.length_append, List.length_cons]
    omega
  have hmem : ∀ b, b ∈ t'.toList ↔ b ≠ a ∧ b ∈ t.toList := by
    intro b
    rw [htl, hl]
    rw [hl] at hnd
    simp only [List.nodup_append, List.nodup_cons, List.mem_append, List.mem_cons] at hnd ⊢
    grind
  refine ⟨{ primitiveRemove m (.item a) with toStore := h, count := m.count - 1 }, t', ?_,
    ⟨hd.focus, hd.bal, hd.noRed, hd.black, hd.sentinels, ?_, ?_, ?_⟩, ?_⟩
  · rw [removeItem, if_neg (by simp)]
    simp only [primitiveRemove, hcount, hr, Option.map_some]
  · refine List.Pairwise.sublist ?_ hm.sorted
    rw [htl, hl]
    exact List.Sublist.append_left (List.sublist_cons_self a l₂) l₁
  · have hlk := hm.linked
    rw [hl, List.map_append, List.map_cons] at hlk
    rw [htl, List.map_append]
    have hnd' : (Ptr.nil :: (l₁.map Ptr.item ++ .item a :: l₂.map Ptr.item)).Nodup := by
      rw [← List.map_cons, ← List.map_append, ← hl, List.nodup_cons]
      exact ⟨by simp, hnd.map fun _ _ => Ptr.item.inj⟩
    have hne : Ptr.item a ≠ m.next (.item a) := by
      obtain ⟨y, hy⟩ : ∃ y, (l₂.map Ptr.item ++ [Ptr.nil]).head? = some y := by
        cases l₂ <;> simp
      rw [hlk.next_eq hy]
      rintro rfl
      have hmem := List.mem_of_head? hy
      simp only [List.nodup_cons, List.nodup_append, List.mem_append, List.mem_singleton,
        reduceCtorEq, or_false] at hmem hnd'
      exact hnd'.2.2.1.1 hmem
    simpa [primitiveRemove, hne] using hlk.remove hnd'
  · have hlen := congrArg List.length hl
    simp only [htl, hm.count, List.length_append, List.length_cons] at hlen ⊢
    omega
  · intro k b
    rw [hmem]
    simp only [mapRemoveItem]
    by_cases hk : f k = some a
    · simp only [if_pos hk, reduceCtorEq, false_iff, not_and]
      rintro ⟨hba, hb⟩ hkb
      have := (hf k b).mpr ⟨hb, hkb⟩
      rw [hk] at this
      exact hba (Option.some.inj this).symm
    · rw [if_neg hk, hf k b]
      refine ⟨fun h => ⟨⟨?_, h.1⟩, h.2⟩, fun h => ⟨h.1.2, h.2⟩⟩
      rintro rfl
      exact hk ((hf k b).mpr h)

omit [DecidableEq α] [LinearOrder κ] in
lemma Models.inj {f : κ → Option α} (hf : Models m t f) {k k' : κ} (h : f k = some a)
    (h' : f k' = some a) : k = k' := by
  rw [← ((hf k a).mp h).2, ← ((hf k' a).mp h').2]

lemma remove_spec {f : κ → Option α} (hm : Holds m t) (hf : Models m t f) (k : κ) :
    ∃ m' t', remove m k = some (ptrOf (f k), m') ∧ Holds m' t' ∧
      Models m' t' (Function.update f k none) := by
  rw [remove, get_spec hm hf]
  cases hk : f k with
  | none =>
    refine ⟨m, t, by simp [removeItem, ptrOf], hm, ?_⟩
    rwa [← hk, Function.update_eq_self]
  | some a =>
    obtain ⟨m', t', hr, hm', hf'⟩ := removeItem_spec hm hf ((hf k a).mp hk).1
    refine ⟨m', t', by simp [ptrOf, hr], hm', ?_⟩
    convert hf' using 1
    funext k'
    by_cases hkk : k' = k
    · rw [hkk, Function.update_self, mapRemoveItem, if_pos hk]
    · rw [Function.update_of_ne hkk, mapRemoveItem, if_neg]
      intro h
      exact hkk (hf.inj h hk)

end RemoveItem

end OpenSM.ClMap
