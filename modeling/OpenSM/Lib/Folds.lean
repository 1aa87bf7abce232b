import Mathlib

/-! Invariants of a fold that speak about the part of the list already handled. -/

namespace OpenSM.Lib.Folds

variable {α β : Type*}

lemma foldl_handled (f : β → α → β) (P : List α → β → Prop) (l : List α) (b : β) (h₀ : P [] b)
    (hstep : ∀ done x rest st, l = done ++ x :: rest → P done st → P (done ++ [x]) (f st x)) :
    P l (l.foldl f b) := by
  have hrun : ∀ (rest done : List α) (st : β), l = done ++ rest → P done st →
      P l (rest.foldl f st) := by
    intro rest
    induction rest with
    | nil =>
      intro done st hl hp
      simpa [hl] using hp
    | cons x rest ih =>
      intro done st hl hp
      exact ih (done ++ [x]) (f st x) (by simpa using hl) (hstep done x rest st hl hp)
  exact hrun l [] b rfl h₀

end OpenSM.Lib.Folds
