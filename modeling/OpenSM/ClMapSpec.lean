import OpenSM.ClMapInsBal
import OpenSM.ClMapDelBal
import OpenSM.Lib.Ring

/-! The state of a quick map, and the searches in it. -/

namespace OpenSM.ClMap

open Lib.RedBlack Lib.PtrTree Lib.Ring ColorTree

variable {α κ : Type} [LinearOrder κ] {m : QMap α κ} {t : ColorTree α} {k : κ}

/-- The cells hold the tree `t`: a red-black tree with a black top whose items are in key order,
threaded in that order into the list and counted. -/
structure Holds (m : QMap α κ) (t : ColorTree α) : Prop where
  focus : Focus m.toStore [] .root (m.kid .left .root) t
  bal : ∃ n, t.Bal n
  noRed : t.NoRedRed
  black : t.color = .black
  sentinels : Sentinels m.toStore
  sorted : t.toList.Pairwise fun a b => m.key (.item a) < m.key (.item b)
  linked : Linked m.next m.prev .nil (t.toList.map .item)
  count : m.count = t.toList.length

def Models (m : QMap α κ) (t : ColorTree α) (f : κ → Option α) : Prop :=
  ∀ k a, f k = some a ↔ a ∈ t.toList ∧ m.key (.item a) = k

section Sorted

variable {c : Color} {l r : ColorTree α} {a : α} {key : α → κ}

omit [LinearOrder κ] in
lemma pairwise_node {R : α → α → Prop} :
    (node c l a r).toList.Pairwise R ↔ l.toList.Pairwise R ∧ r.toList.Pairwise R ∧
      (∀ b ∈ l.toList, R b a) ∧ (∀ b ∈ r.toList, R a b) ∧
      ∀ b ∈ l.toList, ∀ e ∈ r.toList, R b e := by
  simp only [toList, List.pairwise_append, List.pairwise_cons, List.mem_cons]
  grind

end Sorted

variable [DecidableEq α]

lemma getLoop_spec {q p : Ptr α} (fuel : ℕ) (hr : Rep m.toStore q p t)
    (hs : t.toList.Pairwise fun a b => m.key (.item a) < m.key (.item b))
    (hfuel : t.toList.length < fuel) :
    ∃ r, getLoop m k fuel p = some r ∧
      ((∃ a ∈ t.toList, m.key (.item a) = k ∧ r = .item a) ∨
        r = .nil ∧ ∀ a ∈ t.toList, m.key (.item a) ≠ k) := by
  induction t generalizing q p fuel with
  | nil =>
    obtain rfl : p = .nil := hr
    obtain ⟨fuel, rfl⟩ : ∃ n, fuel = n + 1 := ⟨fuel - 1, by omega⟩
    exact ⟨.nil, by simp [getLoop], .inr ⟨rfl, by simp [toList]⟩⟩
  | node c l a r ihl ihr =>
    obtain ⟨rfl, -, -, hl, hr⟩ := hr
    obtain ⟨hsl, hsr, hla, har, -⟩ := pairwise_node.mp hs
    simp only [toList, List.length_append, List.length_cons] at hfuel
    obtain ⟨fuel, rfl⟩ : ∃ n, fuel = n + 1 := ⟨fuel - 1, by omega⟩
    simp only [getLoop, reduceCtorEq, if_false, toList, List.mem_append, List.mem_cons]
    rcases lt_trichotomy k (m.key (.item a)) with hk | hk | hk
    · rw [if_neg hk.ne, if_pos hk]
      obtain ⟨v, hv, h⟩ := ihl fuel hl hsl (by omega)
      refine ⟨v, hv, h.imp ?_ ?_⟩
      · rintro ⟨b, hb, h⟩
        exact ⟨b, .inl hb, h⟩
      · rintro ⟨rfl, hno⟩
        refine ⟨rfl, ?_⟩
        rintro b (hb | rfl | hb)
        · exact hno b hb
        · exact hk.ne'
        · exact (hk.trans (har b hb)).ne'
    · rw [if_pos hk]
      exact ⟨.item a, rfl, .inl ⟨a, by simp, hk.symm, rfl⟩⟩
    · rw [if_neg hk.ne', if_neg hk.not_gt]
      obtain ⟨v, hv, h⟩ := ihr fuel hr hsr (by omega)
      refine ⟨v, hv, h.imp ?_ ?_⟩
      · rintro ⟨b, hb, h⟩
        exact ⟨b, .inr (.inr hb), h⟩
      · rintro ⟨rfl, hno⟩
        refine ⟨rfl, ?_⟩
        rintro b (hb | rfl | hb)
        · exact ((hla b hb).trans hk).ne
        · exact hk.ne
        · exact hno b hb

def ptrOf : Option α → Ptr α
  | none => .nil
  | some a => .item a

lemma get_spec {f : κ → Option α} (hm : Holds m t) (hf : Models m t f) (k : κ) :
    get m k = some (ptrOf (f k)) := by
  obtain ⟨r, hr, h⟩ := getLoop_spec (k := k) (m.count + 1) hm.focus.rep hm.sorted
    (by rw [hm.count]; omega)
  rw [get, hr]
  rcases h with ⟨a, ha, hk, rfl⟩ | ⟨rfl, hno⟩
  · rw [(hf k a).mpr ⟨ha, hk⟩]
    rfl
  · cases hfk : f k with
    | none => rfl
    | some a =>
      obtain ⟨ha, hk⟩ := (hf k a).mp hfk
      exact absurd hk (hno a ha)

lemma getNextLoop_spec {q p : Ptr α} (fuel : ℕ) (found : Ptr α) (hr : Rep m.toStore q p t)
    (hs : t.toList.Pairwise fun a b => m.key (.item a) < m.key (.item b))
    (hfuel : t.toList.length < fuel) :
    ∃ r, getNextLoop m k fuel p found = some r ∧
      ((∃ a ∈ t.toList, r = .item a ∧ k < m.key (.item a) ∧
          ∀ b ∈ t.toList, k < m.key (.item b) → m.key (.item a) ≤ m.key (.item b)) ∨
        r = found ∧ ∀ a ∈ t.toList, m.key (.item a) ≤ k) := by
  induction t generalizing q p fuel found with
  | nil =>
    obtain rfl : p = .nil := hr
    obtain ⟨fuel, rfl⟩ : ∃ n, fuel = n + 1 := ⟨fuel - 1, by omega⟩
    exact ⟨found, by simp [getNextLoop], .inr ⟨rfl, by simp [toList]⟩⟩
  | node c l a r ihl ihr =>
    obtain ⟨rfl, -, -, hl, hr⟩ := hr
    obtain ⟨hsl, hsr, hla, har, -⟩ := pairwise_node.mp hs
    simp only [toList, List.length_append, List.length_cons] at hfuel
    obtain ⟨fuel, rfl⟩ : ∃ n, fuel = n + 1 := ⟨fuel - 1, by omega⟩
    simp only [getNextLoop, reduceCtorEq, if_false, toList, List.mem_append, List.mem_cons]
    by_cases hk : k < m.key (.item a)
    · rw [if_pos hk]
      obtain ⟨v, hv, h⟩ := ihl fuel (.item a) hl hsl (by omega)
      refine ⟨v, hv, .inl ?_⟩
      rcases h with ⟨b, hb, rfl, hkb, hmin⟩ | ⟨rfl, hle⟩
      · refine ⟨b, .inl hb, rfl, hkb, ?_⟩
        rintro e (he | rfl | he) hke
        · exact hmin e he hke
        · exact (hla b hb).le
        · exact ((hla b hb).trans (har e he)).le
      · refine ⟨a, by simp, rfl, hk, ?_⟩
        rintro e (he | rfl | he) hke
        · exact absurd hke (hle e he).not_gt
        · exact le_rfl
        · exact (har e he).le
    · rw [if_neg hk]
      obtain ⟨v, hv, h⟩ := ihr fuel found hr hsr (by omega)
      have hlow : ∀ e, e ∈ l.toList ∨ e = a → m.key (.item e) ≤ k := by
        rintro e (he | rfl)
        · exact (hla e he).le.trans (not_lt.mp hk)
        · exact not_lt.mp hk
      refine ⟨v, hv, h.imp ?_ ?_⟩
      · rintro ⟨b, hb, rfl, hkb, hmin⟩
        refine ⟨b, .inr (.inr hb), rfl, hkb, ?_⟩
        rintro e (he | rfl | he) hke
        · exact absurd hke (hlow e (.inl he)).not_gt
        · exact absurd hke (hlow e (.inr rfl)).not_gt
        · exact hmin e he hke
      · rintro ⟨rfl, hle⟩
        refine ⟨rfl, ?_⟩
        rintro e (he | rfl | he)
        · exact hlow e (.inl he)
        · exact hlow e (.inr rfl)
        · exact hle e he

def IsNext (f : κ → Option α) (k : κ) : Option α → Prop
  | none => ∀ k', k < k' → f k' = none
  | some a => ∃ k', f k' = some a ∧ k < k' ∧ ∀ k'', k < k'' → f k'' ≠ none → k' ≤ k''

lemma getNext_spec {f : κ → Option α} (hm : Holds m t) (hf : Models m t f) (k : κ) :
    ∃ r, getNext m k = some (ptrOf r) ∧ IsNext f k r := by
  obtain ⟨r, hr, h⟩ := getNextLoop_spec (k := k) (m.count + 1) .nil hm.focus.rep hm.sorted
    (by rw [hm.count]; omega)
  rw [getNext, hr]
  rcases h with ⟨a, ha, rfl, hk, hmin⟩ | ⟨rfl, hle⟩
  · refine ⟨some a, rfl, m.key (.item a), (hf _ a).mpr ⟨ha, rfl⟩, hk, ?_⟩
    intro k' hk' hne
    obtain ⟨b, hb⟩ := Option.ne_none_iff_exists'.mp hne
    obtain ⟨hmem, rfl⟩ := (hf k' b).mp hb
    exact hmin b hmem hk'
  · refine ⟨none, rfl, ?_⟩
    intro k' hk'
    by_contra hne
    obtain ⟨b, hb⟩ := Option.ne_none_iff_exists'.mp hne
    obtain ⟨hmem, rfl⟩ := (hf k' b).mp hb
    exact absurd hk' (hle b hmem).not_gt

end OpenSM.ClMap
