import OpenSM.ClMap

/-! What a rotation does to the tree that the cells represent. -/

namespace OpenSM.ClMap

open Lib.RedBlack Lib.PtrTree ColorTree

variable {α : Type} [DecidableEq α] {h : Store α} {ctx : List (Frame α)} {q p : Ptr α}
  {t x y z : ColorTree α} {a b : α} {c c' : Color} {d : Side}

lemma parentSide_eq (hc : RepCtx h ctx q p) (hup : h.up p = q)
    (hsep : ∀ f ctx', ctx = f :: ctx' → h.kid f.d.opp q ≠ p) :
    parentSide h p = ctxSide ctx := by
  have hk := hc.kid_eq
  simp only [parentSide, isLeftChild, hup, decide_eq_true_eq]
  cases ctx with
  | nil => exact if_pos hk
  | cons f ctx =>
    have hne := hsep f ctx rfl
    simp only [ctxSide] at hk ⊢
    cases hd : f.d <;> simp only [hd, Side.opp] at hk hne ⊢
    · exact if_pos hk
    · exact if_neg hne

lemma parentSide_item (hf : Focus h ctx q (.item a) t) :
    parentSide h (.item a) = ctxSide ctx := by
  apply parentSide_eq hf.frames (hf.up_eq (by simp))
  rintro f ctx' rfl he
  have hs := hf.frames.2.2.2.1
  rw [he] at hs
  exact hf.not_inCtx hf.rep.mem (inCtx_cons.mpr (.inr (.inl hs.mem)))

@[simp] lemma rot_color (d : Side) (h : Store α) (p : Ptr α) : (rot d h p).color = h.color := by
  simp only [rot]
  split <;> rfl

section Fields

variable {e : Side} {r v w : Ptr α} (hr : h.up p = r) (hv : h.kid d.opp p = v)

include hr hv

lemma rot_kid (he : parentSide h p = e) (hw : h.kid d v = w) (hvr : v ≠ r) (e' : Side)
    (x : Ptr α) :
    (rot d h p).kid e' x = if e' = d ∧ x = v then p else if e' = d.opp ∧ x = p then w
      else if e' = e ∧ x = r then v else h.kid e' x := by
  have hk : (h.setKid e r v).kid d v = w := by rw [h.kid_setKid_of_ne _ _ _ _ _ hvr, hw]
  simp only [rot, hr, he, hv, Store.up_setKid, Store.kid_setUp, hk]
  split <;> rfl

lemma rot_up (hw : h.kid d v = w) (hvr : v ≠ r) (x : Ptr α) :
    (rot d h p).up x = if x = p then v else if x = w ∧ w ≠ .nil then p
      else if x = v then r else h.up x := by
  have hk : ∀ e, (h.setKid e r v).kid d v = w := by
    intro e
    rw [h.kid_setKid_of_ne _ _ _ _ _ hvr, hw]
  simp only [rot, hr, hv, Store.up_setKid, Store.kid_setUp, hk]
  by_cases hn : w = .nil
  · simp [hn, Store.setUp, Store.setKid, Function.update_apply]
  · simp [hn, Store.setUp, Store.setKid, Function.update_apply]

end Fields

lemma focus_rot (hf : Focus h ctx q p (fork d c a x (fork d c' b y z))) :
    Focus (rot d h p) ctx q (.item b) (fork d c' b (fork d c a x y) z) := by
  obtain ⟨rfl, hup, hca, hx, hbr⟩ := rep_fork.mp hf.rep
  obtain ⟨hkb, hupb, hcb, hy, hz⟩ := rep_fork.mp hbr
  rw [hkb] at hy hz hupb hcb
  obtain ⟨hax, hab, hxb, hndx, hndb⟩ := nodup_fork.mp hf.nodup_tree
  obtain ⟨hby, hbz, hyz, hndy, hndz⟩ := nodup_fork.mp hndb
  simp only [mem_toList_fork, not_or] at hab hxb
  have ha : a ∈ (fork d c a x (fork d c' b y z)).toList := mem_toList_fork.mpr (.inl rfl)
  have hb : b ∈ (fork d c a x (fork d c' b y z)).toList :=
    mem_toList_fork.mpr (.inr (.inr (mem_toList_fork.mpr (.inl rfl))))
  have hkid := rot_kid hup hkb (parentSide_item hf) rfl (hf.parent_ne hb).symm
  have hupr := rot_up hup hkb rfl (hf.parent_ne hb).symm
  have hqt : ∀ v ∈ (fork d c a x (fork d c' b y z)).toList, Ptr.item v ≠ q :=
    fun v hv => (hf.parent_ne hv).symm
  simp only [mem_toList_fork] at hqt
  have hw : ∀ v, v ∉ y.toList → Ptr.item v ≠ h.kid d (.item b) := by
    intro v hv he
    rw [← he] at hy
    exact hv hy.mem
  -- cells other than the two keep their fields, the parent's pointer and the top of `y` apart
  have hkid' : ∀ v, v ≠ a → v ≠ b → ∀ e, (e, Ptr.item v) ≠ (ctxSide ctx, q) →
      (rot d h (.item a)).kid e (.item v) = h.kid e (.item v) := by
    intro v hva hvb e hq
    rw [ne_eq, Prod.mk.injEq] at hq
    rw [hkid, if_neg (by simp [hvb]), if_neg (by simp [hva]), if_neg hq]
  have hup' : ∀ v, v ≠ a → v ≠ b → v ∉ y.toList →
      (rot d h (.item a)).up (.item v) = h.up (.item v) := by
    intro v hva hvb hvy
    rw [hupr, if_neg (by simp [hva]), if_neg (by simp [hw v hvy]), if_neg (by simp [hvb])]
  have hcol : ∀ v, (rot d h (.item a)).color v = h.color v := by simp
  have hpair : ∀ v ∈ (fork d c a x (fork d c' b y z)).toList, ∀ e,
      (e, Ptr.item v) ≠ (ctxSide ctx, q) := by
    rintro v hv e ⟨⟩
    exact hf.parent_ne hv rfl
  simp only [mem_toList_fork] at hpair
  have hda : (rot d h (.item a)).kid d (.item a) = h.kid d (.item a) := by
    rw [hkid, if_neg (by simp [hab.1]), if_neg (by simp [d.opp_ne.symm]),
      if_neg (by simp [hqt a])]
  have hoa : (rot d h (.item a)).kid d.opp (.item a) = h.kid d (.item b) := by
    rw [hkid, if_neg (by simp), if_pos (by simp)]
  have hdb : (rot d h (.item a)).kid d (.item b) = .item a := by
    rw [hkid, if_pos (by simp)]
  have hob : (rot d h (.item a)).kid d.opp (.item b) = h.kid d.opp (.item b) := by
    rw [hkid, if_neg (by simp), if_neg (by simp [Ne.symm hab.1]), if_neg (by simp [hqt b])]
  have hua : (rot d h (.item a)).up (.item a) = .item b := by rw [hupr, if_pos rfl]
  have hub : (rot d h (.item a)).up (.item b) = q := by
    rw [hupr, if_neg (by simp [Ne.symm hab.1]), if_neg (by simp [hw b hby]), if_pos rfl]
  refine ⟨?_, ?_, ?_⟩
  · apply hf.frames.redirect hf.nodup_ctx
    · intro hq
      rw [hkid, if_neg (by simp), if_neg (by simp), if_neg (by simp [hq.symm])]
    · intro v hv e hne
      exact hkid' v (hf.ne_of_inCtx ha hv) (hf.ne_of_inCtx hb hv) e hne
    · exact fun v _ => hcol _
    · intro v hv
      refine hup' v (hf.ne_of_inCtx ha hv) (hf.ne_of_inCtx hb hv) (fun hvy => ?_)
      exact hf.not_inCtx (mem_toList_fork.mpr
        (.inr (.inr (mem_toList_fork.mpr (.inr (.inl hvy)))))) hv
    · rw [hkid, if_neg (by simp [hf.parent_ne hb]), if_neg (by simp [hf.parent_ne ha]),
        if_pos (by simp)]
  · rw [rep_fork, hub, hdb, hob, hcol]
    refine ⟨rfl, rfl, hcb, ?_, ?_⟩
    · rw [rep_fork, hua, hda, hoa, hcol]
      refine ⟨rfl, rfl, hca, ?_, ?_⟩
      · apply hx.congr
        · intro v hv e
          exact hkid' v (by rintro rfl; exact hax hv) (hxb v hv).1 e (hpair v (by simp [hv]) e)
        · exact fun v _ => hcol _
        · intro v hv
          exact hup' v (by rintro rfl; exact hax hv) (hxb v hv).1 (hxb v hv).2.1
      · apply hy.reparent hndy
        · intro v hv e
          exact hkid' v (by rintro rfl; exact hab.2.1 hv) (by rintro rfl; exact hby hv) e
            (hpair v (by simp [hv]) e)
        · exact fun v _ => hcol _
        · intro v hv hne
          rw [hupr, if_neg (by rintro ⟨rfl⟩; exact hab.2.1 hv), if_neg (by simp [hne]),
            if_neg (by rintro ⟨rfl⟩; exact hby hv)]
        · intro hn
          rw [hupr, if_neg (Ne.symm (hw a hab.2.1)), if_pos ⟨rfl, hn⟩]
    · apply hz.congr
      · intro v hv e
        exact hkid' v (by rintro rfl; exact hab.2.2 hv) (by rintro rfl; exact hbz hv) e
          (hpair v (by simp [hv]) e)
      · exact fun v _ => hcol _
      · intro v hv
        exact hup' v (by rintro rfl; exact hab.2.2 hv) (by rintro rfl; exact hbz hv)
          (fun hvy => hyz v hvy hv)
  · rw [toList_rotate]
    exact hf.nodup

lemma focus_rot_nil (hf : Focus h ctx q p (fork d c a x (fork d c' b y z))) :
    (rot d h p).up .nil = h.up .nil := by
  obtain ⟨rfl, hup, -, -, hbr⟩ := rep_fork.mp hf.rep
  have hkb := (rep_fork.mp hbr).1
  have hb : b ∈ (fork d c a x (fork d c' b y z)).toList :=
    mem_toList_fork.mpr (.inr (.inr (mem_toList_fork.mpr (.inl rfl))))
  rw [rot_up hup hkb rfl (hf.parent_ne hb).symm, if_neg (by simp),
    if_neg (fun hn => hn.2 hn.1.symm), if_neg (by simp)]

def Sentinels (h : Store α) : Prop := h.color .nil = .black ∧ h.color .root = .black

lemma Sentinels.setColor (hs : Sentinels h) : Sentinels (h.setColor (.item a) c) := by
  simpa [Sentinels] using hs

lemma Sentinels.rot (hs : Sentinels h) : Sentinels (rot d h p) := by
  simpa [Sentinels] using hs

end OpenSM.ClMap
