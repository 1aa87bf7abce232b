import Mathlib

/-! Insertion into an ordered list by a search from its tail. -/

namespace OpenSM.Lib.TailInsert

variable {α : Type*} {before : α → Bool} {l : List α} {a : α}

def insertAfter (before : α → Bool) (l : List α) (a : α) : List α :=
  l.rdropWhile (fun x => !before x) ++ a :: l.rtakeWhile fun x => !before x

lemma insertAfter_perm : (insertAfter before l a).Perm (a :: l) := by
  have hsplit := List.rdropWhile_append_rtakeWhile (l := l) (p := fun x => !before x)
  have hmid : (insertAfter before l a).Perm
      (a :: (l.rdropWhile (fun x => !before x) ++ l.rtakeWhile fun x => !before x)) := List.perm_middle
  rwa [hsplit] at hmid

/-- In an ordered list what stays in front of `a` is not behind its last element, which `before` holds of. -/
lemma pairwise_insertAfter {R : α → α → Prop} (hl : l.Pairwise R) (hpos : ∀ x, before x = true → R x a)
    (hneg : ∀ x, before x = false → R a x) (hdown : ∀ x y, R x y → before y = true → before x = true) :
    (insertAfter before l a).Pairwise R := by
  have hsplit := List.rdropWhile_append_rtakeWhile (l := l) (p := fun x => !before x)
  have hlast := List.rdropWhile_last_not (fun x => !before x) l
  have htake : ∀ x ∈ l.rtakeWhile fun x => !before x, R a x := by
    intro x hx
    exact hneg x (by simpa using List.mem_rtakeWhile_imp hx)
  rw [insertAfter]
  rw [← hsplit] at hl
  generalize l.rdropWhile _ = l₁ at hl hlast ⊢
  generalize l.rtakeWhile _ = l₂ at hl htake ⊢
  obtain ⟨h₁, h₂, h₁₂⟩ := List.pairwise_append.mp hl
  have hfront : ∀ x ∈ l₁, R x a := by
    rcases List.eq_nil_or_concat l₁ with rfl | ⟨l', b, rfl⟩
    · intro x hx
      cases hx
    · have hb : before b = true := by simpa using hlast (by simp)
      rw [List.concat_eq_append] at h₁ ⊢
      intro x hx
      rcases List.mem_append.mp hx with hx | hx
      · have hxb := (List.pairwise_append.mp h₁).2.2 x hx b (List.mem_singleton.mpr rfl)
        exact hpos x (hdown x b hxb hb)
      · rw [List.mem_singleton.mp hx]
        exact hpos b hb
  refine List.pairwise_append.mpr ⟨h₁, List.pairwise_cons.mpr ⟨htake, h₂⟩, fun x hx y hy => ?_⟩
  rcases List.mem_cons.mp hy with rfl | hy
  · exact hfront x hx
  · exact h₁₂ x hx y hy

end OpenSM.Lib.TailInsert
