import Mathlib

/-! Doubly linked rings: the cells of a list in both directions, closed by a sentinel. -/

namespace OpenSM.Lib.Ring

variable {β : Type*}

def Linked (nx pv : β → β) (s : β) (l : List β) : Prop :=
  List.IsChain (fun x y => nx x = y ∧ pv y = x) (s :: l ++ [s])

lemma isChain_congr {R S : β → β → Prop} {l : List β} (h : l.IsChain R)
    (hrs : ∀ x ∈ l.dropLast, ∀ y ∈ l.tail, R x y → S x y) : l.IsChain S := by
  induction l with
  | nil => exact .nil
  | cons x l ih =>
    cases l with
    | nil => exact .singleton x
    | cons y l =>
      rw [List.isChain_cons_cons] at h ⊢
      refine ⟨hrs x (by simp) y (by simp) h.1, ih h.2 fun a ha b hb => ?_⟩
      exact hrs a (by simp [ha]) b (List.mem_of_mem_tail hb)

lemma exists_cut (s : β) (l₁ l₂ : List β) :
    ∃ u a y v, s :: l₁ = u ++ [a] ∧ l₂ ++ [s] = y :: v := by
  obtain ⟨u, a, hu⟩ := List.eq_nil_or_concat' (s :: l₁) |>.resolve_left (by simp)
  obtain ⟨y, v, hv⟩ := List.exists_cons_of_ne_nil (l := l₂ ++ [s]) (by simp)
  exact ⟨u, a, y, v, hu, hv⟩

variable {nx pv : β → β} {s x : β} {l₁ l₂ : List β}

section Cut

variable {u v : List β} {a y : β} (hu : s :: l₁ = u ++ [a]) (hv : l₂ ++ [s] = y :: v)

include hu hv

lemma linked_cut : Linked nx pv s (l₁ ++ l₂) ↔
    List.IsChain (fun x y => nx x = y ∧ pv y = x) (u ++ [a]) ∧ (nx a = y ∧ pv y = a) ∧
      List.IsChain (fun x y => nx x = y ∧ pv y = x) (y :: v) := by
  have he : s :: (l₁ ++ l₂) ++ [s] = u ++ a :: y :: v := by
    have : s :: (l₁ ++ l₂) ++ [s] = (s :: l₁) ++ (l₂ ++ [s]) := by simp
    rw [this, hu, hv]
    simp
  rw [Linked, he, List.isChain_append_cons_cons]

lemma linked_cut_cons : Linked nx pv s (l₁ ++ x :: l₂) ↔
    List.IsChain (fun x y => nx x = y ∧ pv y = x) (u ++ [a]) ∧ (nx a = x ∧ pv x = a) ∧
      (nx x = y ∧ pv y = x) ∧ List.IsChain (fun x y => nx x = y ∧ pv y = x) (y :: v) := by
  have he : s :: (l₁ ++ x :: l₂) ++ [s] = u ++ a :: x :: y :: v := by
    have : s :: (l₁ ++ x :: l₂) ++ [s] = (s :: l₁) ++ x :: (l₂ ++ [s]) := by simp
    rw [this, hu, hv]
    simp
  rw [Linked, he, List.isChain_append_cons_cons, List.isChain_cons_cons]

variable (nx' pv' : β → β) (hnd : (s :: (l₁ ++ l₂)).Nodup)

include hnd

/-- The parts before and after the cut keep their links when only the cells at the cut change. -/
lemma isChain_cut_congr (hnx : ∀ c ∈ s :: (l₁ ++ l₂), c ≠ a → nx' c = nx c)
    (hpv : ∀ c ∈ s :: (l₁ ++ l₂), c ≠ y → pv' c = pv c)
    (h₁ : List.IsChain (fun x y => nx x = y ∧ pv y = x) (u ++ [a]))
    (h₂ : List.IsChain (fun x y => nx x = y ∧ pv y = x) (y :: v)) :
    List.IsChain (fun x y => nx' x = y ∧ pv' y = x) (u ++ [a]) ∧
      List.IsChain (fun x y => nx' x = y ∧ pv' y = x) (y :: v) := by
  have hmem₁ : ∀ c, c ∈ s :: l₁ ↔ c ∈ u ∨ c = a := by
    intro c
    rw [hu]
    simp
  have hmem₂ : ∀ c, c ∈ l₂ ∨ c = s ↔ c = y ∨ c ∈ v := by
    intro c
    have : c ∈ l₂ ++ [s] ↔ c ∈ y :: v := by rw [hv]
    simpa using this
  have hnd₁ : (u ++ [a]).Nodup := by
    rw [← hu]
    exact hnd.sublist (List.Sublist.cons_cons s (List.sublist_append_left l₁ l₂))
  have hnd₂ : (y :: v).Nodup := by
    rw [← hv]
    refine (List.nodup_cons.mp hnd).2.sublist (List.sublist_append_right l₁ l₂) |>.append
      (List.nodup_singleton s) ?_
    intro c hc hs
    obtain rfl := List.mem_singleton.mp hs
    exact (List.nodup_cons.mp hnd).1 (List.mem_append_right l₁ hc)
  have hdis : ∀ c ∈ l₁, c ∉ l₂ := by
    intro c hc hc'
    exact (List.nodup_append.mp (List.nodup_cons.mp hnd).2).2.2 c hc c hc' rfl
  have hs : s ∉ l₁ ∧ s ∉ l₂ := by simpa using (List.nodup_cons.mp hnd).1
  constructor
  · refine isChain_congr h₁ fun c hc e he hce => ?_
    rw [List.dropLast_concat] at hc
    have he' : e ∈ l₁ := by rwa [← hu] at he
    rw [hnx c, hpv e]
    · exact hce
    · simp [he']
    · rintro rfl
      rcases (hmem₂ e).mpr (.inl rfl) with h | rfl
      · exact hdis e he' h
      · exact hs.1 he'
    · have : c ∈ s :: l₁ := (hmem₁ c).mpr (.inl hc)
      simp only [List.mem_cons, List.mem_append] at this ⊢
      tauto
    · rintro rfl
      exact (List.nodup_append.mp hnd₁).2.2 c hc c (by simp) rfl
  · refine isChain_congr h₂ fun c hc e he hce => ?_
    have hc' : c ∈ l₂ := by
      rw [← hv, List.dropLast_concat] at hc
      exact hc
    have he : e ∈ v := he
    rw [hnx c, hpv e]
    · exact hce
    · have : e ∈ l₂ ∨ e = s := (hmem₂ e).mpr (.inr he)
      simp only [List.mem_cons, List.mem_append]
      tauto
    · rintro rfl
      exact (List.nodup_cons.mp hnd₂).1 he
    · simp [hc']
    · rintro rfl
      have : c ∈ s :: l₁ := (hmem₁ c).mpr (.inr rfl)
      rcases List.mem_cons.mp this with rfl | h
      · exact hs.2 hc'
      · exact hdis c h hc'

end Cut

variable [DecidableEq β]

/-- A new cell `x` goes in front of `y`, the first cell of `l₂` or else the sentinel. -/
lemma Linked.insert {y : β} (hl : Linked nx pv s (l₁ ++ l₂)) (hnd : (s :: (l₁ ++ l₂)).Nodup)
    (hx : x ∉ s :: (l₁ ++ l₂)) (hy : (l₂ ++ [s]).head? = some y) :
    Linked (Function.update (Function.update nx x y) (pv y) x)
      (Function.update (Function.update pv x (pv y)) y x) s (l₁ ++ x :: l₂) := by
  obtain ⟨u, a, y', v, hu, hv⟩ := exists_cut s l₁ l₂
  obtain rfl : y' = y := by simpa [hv] using hy
  obtain ⟨h₁, ⟨ha, hp⟩, h₂⟩ := (linked_cut hu hv).mp hl
  have hma : a ∈ s :: (l₁ ++ l₂) := by
    have : a ∈ s :: l₁ := by rw [hu]; simp
    simp only [List.mem_cons, List.mem_append] at this ⊢
    tauto
  have hmy : y' ∈ s :: (l₁ ++ l₂) := by
    have : y' ∈ l₂ ++ [s] := by rw [hv]; simp
    simp only [List.mem_cons, List.mem_append, List.not_mem_nil, or_false] at this ⊢
    tauto
  have hxa : x ≠ a := by rintro rfl; exact hx hma
  have hxy : x ≠ y' := by rintro rfl; exact hx hmy
  rw [hp]
  obtain ⟨h₁', h₂'⟩ := isChain_cut_congr hu hv (Function.update (Function.update nx x y') a x)
    (Function.update (Function.update pv x a) y' x) hnd (by
      intro c hc hca
      have hcx : c ≠ x := by rintro rfl; exact hx hc
      simp [hca, hcx]) (by
      intro c hc hcy
      have hcx : c ≠ x := by rintro rfl; exact hx hc
      simp [hcy, hcx]) h₁ h₂
  refine (linked_cut_cons hu hv).mpr ⟨h₁', ?_, ?_, h₂'⟩
  · simp [hxy]
  · simp [hxa]

lemma Linked.remove (hl : Linked nx pv s (l₁ ++ x :: l₂)) (hnd : (s :: (l₁ ++ x :: l₂)).Nodup) :
    Linked (Function.update nx (pv x) (nx x)) (Function.update pv (nx x) (pv x)) s (l₁ ++ l₂) := by
  obtain ⟨u, a, y, v, hu, hv⟩ := exists_cut s l₁ l₂
  obtain ⟨h₁, ⟨-, hp⟩, ⟨hn, -⟩, h₂⟩ := (linked_cut_cons hu hv).mp hl
  have hnd' : (s :: (l₁ ++ l₂)).Nodup :=
    hnd.sublist (.cons_cons s (.append_left (List.sublist_cons_self x l₂) l₁))
  rw [hp, hn]
  obtain ⟨h₁', h₂'⟩ := isChain_cut_congr hu hv (Function.update nx a y)
    (Function.update pv y a) hnd' (by
      intro c _ hca
      simp [hca]) (by
      intro c _ hcy
      simp [hcy]) h₁ h₂
  exact (linked_cut hu hv).mpr ⟨h₁', by simp, h₂'⟩

omit [DecidableEq β] in
lemma Linked.next_eq {y : β} (hl : Linked nx pv s (l₁ ++ x :: l₂))
    (hy : (l₂ ++ [s]).head? = some y) : nx x = y := by
  obtain ⟨u, a, y', v, hu, hv⟩ := exists_cut s l₁ l₂
  obtain rfl : y' = y := by simpa [hv] using hy
  exact ((linked_cut_cons hu hv).mp hl).2.2.1.1

end OpenSM.Lib.Ring
