import Mathlib

/-! A graph whose edges all lead from a vertex to its only parent has no cycle. -/

namespace OpenSM.Lib.Forest

variable {V : Type*} {G : SimpleGraph V} (Parent : V → V → Prop)

lemma isAcyclic_of_irrefl (hadj : ∀ v w, G.Adj v w → Parent v w ∨ Parent w v)
    (hirrefl : ∀ v, ¬Relation.TransGen Parent v v)
    (huniq : ∀ u v w, Parent u w → Parent v w → u = v) : G.IsAcyclic := by
  classical
  intro v c hc
  obtain ⟨x, hx, hmax⟩ : ∃ x ∈ c.support, ∀ y ∈ c.support, ¬Relation.TransGen Parent x y := by
    have : IsStrictOrder V (flip (Relation.TransGen Parent)) :=
      { irrefl := hirrefl, trans := fun _ _ _ h h' => h'.trans h }
    obtain ⟨x, hx, hmax⟩ := (Set.Finite.wellFoundedOn (r := flip (Relation.TransGen Parent))
      (c.support.finite_toSet)).has_min Set.univ ⟨⟨v, by simp⟩, trivial⟩
    exact ⟨x.1, x.2, fun y hy => hmax ⟨y, hy⟩ trivial⟩
  -- the deepest vertex of a cycle would have two parents
  have hc' : (c.rotate x hx).IsCycle := by simpa using hc
  have hnil : ¬ (c.rotate x hx).Nil := hc'.not_nil
  have hparent : ∀ y, G.Adj x y → y ∈ (c.rotate x hx).support → Parent y x := by
    intro y hxy hy
    rcases hadj x y hxy with h | h
    · exact absurd (.single h) (hmax y ((c.mem_support_rotate_iff x hx).mp hy))
    · exact h
  have hsnd := hparent _ ((c.rotate x hx).adj_snd hnil)
    (List.mem_of_mem_tail (SimpleGraph.Walk.snd_mem_tail_support hnil))
  have hpen := hparent _ ((c.rotate x hx).adj_penultimate hnil).symm
    (List.mem_of_mem_dropLast (SimpleGraph.Walk.penultimate_mem_dropLast_support hnil))
  exact hc'.snd_ne_penultimate (huniq _ _ _ hsnd hpen)

lemma isAcyclic (depth : V → ℕ) (hadj : ∀ v w, G.Adj v w → Parent v w ∨ Parent w v)
    (hdepth : ∀ v w, Parent v w → depth v < depth w)
    (huniq : ∀ u v w, Parent u w → Parent v w → u = v) : G.IsAcyclic := by
  refine isAcyclic_of_irrefl Parent hadj (fun v hv => ?_) huniq
  have hlt : ∀ w, Relation.TransGen Parent v w → depth v < depth w := by
    intro w h
    induction h with
    | single h => exact hdepth _ _ h
    | tail _ h ih => exact ih.trans (hdepth _ _ h)
  exact (hlt v hv).false

end OpenSM.Lib.Forest
