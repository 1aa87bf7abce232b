import Mathlib

/-! Relations without cycles. -/

namespace OpenSM.Lib

open Relation

variable {α β : Type*} {R N : α → α → Prop}

def Acyclic (R : α → α → Prop) : Prop := ∀ x, ¬TransGen R x x

lemma Acyclic.mono (h : Acyclic R) (hle : ∀ x y, N x y → R x y) : Acyclic N :=
    fun x hx => h x (TransGen.mono hle x x hx)

lemma Acyclic.of_rank [Preorder β] (rank : α → β) (h : ∀ x y, R x y → rank x < rank y) : Acyclic R := by
  have hrank : ∀ x y, TransGen R x y → rank x < rank y := by
    intro x y hxy
    induction hxy with
    | single hxy => exact h _ _ hxy
    | tail _ hxy ih => exact ih.trans (h _ _ hxy)
  exact fun x hx => lt_irrefl _ (hrank x x hx)

lemma Acyclic.of_upDown [Preorder β] (late : α → Prop) (rank : α → β) (hlate : ∀ x y, R x y → late x → late y)
    (hup : ∀ x y, R x y → ¬late y → rank y < rank x) (hdown : ∀ x y, R x y → late x →
        rank x < rank y) : Acyclic R := by
  have hrank : ∀ x y, TransGen R x y →
      (late x → late y ∧ rank x < rank y) ∧ (¬late y → ¬late x ∧ rank y < rank x) := by
    intro x y hxy
    induction hxy with
    | single hxy => exact ⟨fun hx => ⟨hlate _ _ hxy hx, hdown _ _ hxy hx⟩,
        fun hy => ⟨fun hx => hy (hlate _ _ hxy hx), hup _ _ hxy hy⟩⟩
    | @tail y z _ hyz ih =>
      refine ⟨fun hx => ?_, fun hz => ?_⟩
      · obtain ⟨hy, hlt⟩ := ih.1 hx
        exact ⟨hlate y z hyz hy, hlt.trans (hdown y z hyz hy)⟩
      · have hy : ¬late y := fun hy => hz (hlate y z hyz hy)
        obtain ⟨hx, hlt⟩ := ih.2 hy
        exact ⟨hx, (hup y z hyz hz).trans hlt⟩
  intro x hx
  obtain ⟨hdown, hup⟩ := hrank x x hx
  by_cases h : late x
  · exact lt_irrefl _ (hdown h).2
  · exact lt_irrefl _ (hup h).2

lemma transGen_or {a b : α} (h : TransGen (fun x y => R x y ∨ N x y) a b) : TransGen R a b ∨
    ∃ x y, ReflTransGen (fun x y => R x y ∨ N x y) a x ∧ N x y ∧ ReflTransGen (fun x y => R x y ∨ N x y) y b := by
  induction h with
  | single h =>
    rcases h with h | h
    · exact .inl (.single h)
    · exact .inr ⟨_, _, .refl, h, .refl⟩
  | tail hab h ih =>
    rcases ih with ih | ⟨x, y, hax, hxy, hyb⟩
    · rcases h with h | h
      · exact .inl (ih.tail h)
      · exact .inr ⟨_, _, hab.to_reflTransGen, h, .refl⟩
    · exact .inr ⟨x, y, hax, hxy, hyb.tail h⟩

lemma Acyclic.union (h : Acyclic R) (hN : ∀ x y, N x y → ¬TransGen (fun x y => R x y ∨ N x y) x x) :
    Acyclic fun x y => R x y ∨ N x y := by
  intro a ha
  rcases transGen_or ha with hR | ⟨x, y, hax, hxy, hya⟩
  · exact h a hR
  · exact hN x y hxy (TransGen.head' (.inr hxy) (hya.trans hax))

end OpenSM.Lib
