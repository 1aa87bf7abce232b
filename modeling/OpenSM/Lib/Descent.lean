import Mathlib

/-! Descending chains in a finite type: a value that drops along every step bounds their number. -/

namespace OpenSM.Lib.Descent

variable {V : Type*} [Fintype V] (μ : V → ℕ)

def level (v : V) : ℕ := (Finset.univ.filter fun w => μ w < μ v).card

variable {μ}

lemma level_lt {v w : V} (h : μ v < μ w) : level μ v < level μ w := by
  apply Finset.card_lt_card
  rw [Finset.ssubset_iff_of_subset]
  · exact ⟨v, by simpa using h, by simp⟩
  · intro x hx
    simp only [Finset.mem_filter, Finset.mem_univ, true_and] at hx ⊢
    exact hx.trans h

lemma level_lt_card (v : V) : level μ v < Fintype.card V := by
  apply Finset.card_lt_univ_of_notMem (x := v)
  simp

section Walk

variable {W α : Type*} [Preorder α] [WellFoundedLT α] {r : W → W → Prop} {goal : W}

lemma exists_walk (ν : W → α) (P : W → Prop) (Q : W → List W → Prop) (hgoal : Q goal [])
    (hstep : ∀ v, P v → v ≠ goal → ∃ w, r v w ∧ P w ∧ ν w < ν v ∧ ∀ l, Q w l → Q v (w :: l)) {v : W} (hv : P v) :
    ∃ l, (v :: l).IsChain r ∧ (v :: l).getLast (List.cons_ne_nil v l) = goal ∧ (v :: l).Nodup ∧ Q v l ∧
      ∀ w ∈ l, ν w < ν v := by
  induction hν : ν v using WellFoundedLT.induction generalizing v with
  | ind a ih =>
    subst hν
    by_cases hg : v = goal
    · exact ⟨[], List.isChain_singleton v, hg, List.nodup_singleton v, hg ▸ hgoal, by simp⟩
    · obtain ⟨w, hr, hw, hlt, hq⟩ := hstep v hv hg
      obtain ⟨l, hchain, hlast, hnd, hl, hlow⟩ := ih (ν w) hlt hw rfl
      have hbelow : ∀ u ∈ w :: l, ν u < ν v := by
        intro u hu
        rcases List.mem_cons.mp hu with rfl | hu
        · exact hlt
        · exact (hlow u hu).trans hlt
      refine ⟨w :: l, hchain.cons_cons hr, ?_, List.nodup_cons.mpr ⟨fun hmem => ?_, hnd⟩, hq l hl, hbelow⟩
      · rw [List.getLast_cons (List.cons_ne_nil w l)]
        exact hlast
      · exact lt_irrefl _ (hbelow v hmem)

end Walk

end OpenSM.Lib.Descent
