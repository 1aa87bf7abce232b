import Mathlib

/-! Two sorted lists walked side by side until the heads fit; each list may have elements that the walk passes
over. -/

namespace OpenSM.Lib

structure SortedMerge (α β κ : Type*) where
  skipL : α → Bool
  skipR : β → Bool
  fits : α → β → Bool
  keyL : α → κ
  keyR : β → κ

namespace SortedMerge

variable {α β κ : Type*} [LinearOrder κ] (w : SortedMerge α β κ)

def find : List α → List β → Option α
  | [], _ => none
  | _, [] => none
  | a :: as, b :: bs =>
    if w.skipL a then find as (b :: bs)
    else if w.skipR b then find (a :: as) bs
    else if w.fits a b then some a
    else if w.keyR b = w.keyL a then find as bs
    else if w.keyR b < w.keyL a then find (a :: as) bs
    else find as (b :: bs)
termination_by as bs => as.length + bs.length

def SortedL (as : List α) : Prop := (as.filter (!w.skipL ·)).Pairwise fun a a' => w.keyL a < w.keyL a'

def SortedR (bs : List β) : Prop := (bs.filter (!w.skipR ·)).Pairwise fun b b' => w.keyR b < w.keyR b'

structure Pair (as : List α) (bs : List β) (a : α) (b : β) : Prop where
  left : a ∈ as
  right : b ∈ bs
  keepL : w.skipL a = false
  keepR : w.skipR b = false
  fits : w.fits a b = true

variable {w} {as : List α} {bs : List β} {a a' : α} {b b' : β}

omit [LinearOrder κ] in
lemma Pair.mono {as' : List α} {bs' : List β} (h : w.Pair as bs a b) (ha : as ⊆ as') (hb : bs ⊆ bs') :
    w.Pair as' bs' a b := ⟨ha h.left, hb h.right, h.keepL, h.keepR, h.fits⟩

lemma sortedL_cons (h : w.SortedL (a :: as)) : w.SortedL as ∧
    (w.skipL a = false → ∀ a' ∈ as, w.skipL a' = false → w.keyL a < w.keyL a') := by
  unfold SortedL at h ⊢
  cases ha : w.skipL a with
  | true =>
    rw [List.filter_cons_of_neg (by simp [ha])] at h
    exact ⟨h, nofun⟩
  | false =>
    rw [List.filter_cons_of_pos (by simp [ha]), List.pairwise_cons] at h
    exact ⟨h.2, fun _ a' ha' hs => h.1 a' (List.mem_filter.mpr ⟨ha', by simp [hs]⟩)⟩

lemma sortedR_cons (h : w.SortedR (b :: bs)) : w.SortedR bs ∧
    (w.skipR b = false → ∀ b' ∈ bs, w.skipR b' = false → w.keyR b < w.keyR b') := by
  unfold SortedR at h ⊢
  cases hb : w.skipR b with
  | true =>
    rw [List.filter_cons_of_neg (by simp [hb])] at h
    exact ⟨h, nofun⟩
  | false =>
    rw [List.filter_cons_of_pos (by simp [hb]), List.pairwise_cons] at h
    exact ⟨h.2, fun _ b' hb' hs => h.1 b' (List.mem_filter.mpr ⟨hb', by simp [hs]⟩)⟩

lemma find_sound (h : w.find as bs = some a) : ∃ b, w.Pair as bs a b := by
  fun_induction find w as bs with
  | case1 | case2 => cases h
  | case3 x as y bs hx ih =>
    obtain ⟨b, hp⟩ := ih h
    exact ⟨b, hp.mono (List.subset_cons_self x as) fun _ hb => hb⟩
  | case4 x as y bs hx hy ih =>
    obtain ⟨b, hp⟩ := ih h
    exact ⟨b, hp.mono (fun _ ha => ha) (List.subset_cons_self y bs)⟩
  | case5 x as y bs hx hy hf =>
    obtain rfl := Option.some.inj h
    exact ⟨y, List.mem_cons_self, List.mem_cons_self, by simpa using hx, by simpa using hy, hf⟩
  | case6 x as y bs hx hy hf hk ih =>
    obtain ⟨b, hp⟩ := ih h
    exact ⟨b, hp.mono (List.subset_cons_self x as) (List.subset_cons_self y bs)⟩
  | case7 x as y bs hx hy hf hk hlt ih =>
    obtain ⟨b, hp⟩ := ih h
    exact ⟨b, hp.mono (fun _ ha => ha) (List.subset_cons_self y bs)⟩
  | case8 x as y bs hx hy hf hk hlt ih =>
    obtain ⟨b, hp⟩ := ih h
    exact ⟨b, hp.mono (List.subset_cons_self x as) fun _ hb => hb⟩

/-- A pair with equal keys is not walked past. -/
lemma find_complete (hl : w.SortedL as) (hr : w.SortedR bs) (hp : w.Pair as bs a b) (hk : w.keyL a = w.keyR b) :
    (w.find as bs).isSome := by
  fun_induction find w as bs with
  | case1 => cases hp.left
  | case2 => cases hp.right
  | case3 x as y bs hx ih =>
    have hne : a ≠ x := fun h => by simp [h ▸ hp.keepL] at hx
    exact ih (sortedL_cons hl).1 hr { hp with left := List.mem_of_ne_of_mem hne hp.left }
  | case4 x as y bs hx hy ih =>
    have hne : b ≠ y := fun h => by simp [h ▸ hp.keepR] at hy
    exact ih hl (sortedR_cons hr).1 { hp with right := List.mem_of_ne_of_mem hne hp.right }
  | case5 => rfl
  | case6 x as y bs hx hy hf he ih =>
    obtain ⟨hl, hltL⟩ := sortedL_cons hl
    obtain ⟨hr, hltR⟩ := sortedR_cons hr
    simp only [Bool.not_eq_true] at hx hy
    have hleft : a ∈ as := by
      refine (List.mem_cons.mp hp.left).resolve_left fun hax => ?_
      -- The other half of the pair would have the key of both heads.
      rcases List.mem_cons.mp hp.right with hby | hb
      · exact hf (hax ▸ hby ▸ hp.fits)
      · exact absurd (hltR hy b hb hp.keepR) (by rw [he, ← hk, hax]; exact lt_irrefl _)
    have hright : b ∈ bs := by
      refine (List.mem_cons.mp hp.right).resolve_left fun hby => ?_
      exact absurd (hltL hx a hleft hp.keepL) (by rw [hk, hby, he]; exact lt_irrefl _)
    exact ih hl hr { hp with left := hleft, right := hright }
  | case7 x as y bs hx hy hf he hlt ih =>
    obtain ⟨hr', hltR⟩ := sortedR_cons hr
    simp only [Bool.not_eq_true] at hx hy
    refine ih hl hr' { hp with right := (List.mem_cons.mp hp.right).resolve_left fun hby => ?_ }
    rcases List.mem_cons.mp hp.left with hax | ha
    · exact he (hax ▸ hby ▸ hk.symm)
    · have hlt' := (sortedL_cons hl).2 hx a ha hp.keepL
      rw [hk, hby] at hlt'
      exact lt_asymm hlt hlt'
  | case8 x as y bs hx hy hf he hlt ih =>
    obtain ⟨hl', hltL⟩ := sortedL_cons hl
    simp only [Bool.not_eq_true] at hx hy
    refine ih hl' hr { hp with left := (List.mem_cons.mp hp.left).resolve_left fun hax => ?_ }
    rcases List.mem_cons.mp hp.right with hby | hb
    · exact he (hax ▸ hby ▸ hk.symm)
    · have hlt' := (sortedR_cons hr).2 hy b hb hp.keepR
      rw [← hk, hax] at hlt'
      exact hlt hlt'

end SortedMerge

end OpenSM.Lib
