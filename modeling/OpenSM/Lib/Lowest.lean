import Mathlib

/-! Running minima: a value that is replaced whenever a strictly lower one comes by. -/

namespace OpenSM.Lib

variable {α β : Type} [LinearOrder β] (key : α → β)

def lower (a b : α) : α := if key b < key a then b else a

def lowest (a : α) (l : List α) : α := l.foldl (lower key) a

@[simp] lemma lowest_nil (a : α) : lowest key a [] = a := rfl

@[simp] lemma lowest_cons (a b : α) (l : List α) :
    lowest key a (b :: l) = lowest key (lower key a b) l := rfl

lemma lowest_append (a : α) (l l' : List α) :
    lowest key a (l ++ l') = lowest key (lowest key a l) l' :=
  List.foldl_append

lemma lower_le_iff (a b : α) (o : β) : key (lower key a b) ≤ o ↔ key a ≤ o ∨ key b ≤ o := by
  rw [lower]
  split_ifs with h
  · exact ⟨.inr, fun hab => hab.elim h.le.trans id⟩
  · exact ⟨.inl, fun hab => hab.elim id (not_lt.mp h).trans⟩

lemma lowest_le_iff (a : α) (l : List α) (o : β) :
    key (lowest key a l) ≤ o ↔ ∃ c ∈ a :: l, key c ≤ o := by
  induction l generalizing a with
  | nil => simp
  | cons b l ih =>
    rw [lowest_cons, ih, List.exists_mem_cons_iff, lower_le_iff, List.exists_mem_cons_iff,
      List.exists_mem_cons_iff, or_assoc]

lemma lowest_le {a c : α} {l : List α} (h : c ∈ a :: l) : key (lowest key a l) ≤ key c :=
  (lowest_le_iff key a l _).mpr ⟨c, h, le_rfl⟩

lemma lowest_mem (a : α) (l : List α) : lowest key a l ∈ a :: l := by
  induction l generalizing a with
  | nil => exact List.mem_singleton_self a
  | cons b l ih =>
    rcases List.mem_cons.mp (ih (lower key a b)) with h | h
    · rw [lowest_cons, h, lower]
      split_ifs
      · exact List.mem_cons_of_mem _ List.mem_cons_self
      · exact List.mem_cons_self
    · exact List.mem_cons_of_mem _ (List.mem_cons_of_mem _ h)

end OpenSM.Lib
