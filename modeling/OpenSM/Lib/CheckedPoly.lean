import Mathlib

/-! Arrays of coefficients that loops of machine arithmetic fill. Leaving the range of the words or the array is
a fault. -/

namespace OpenSM.Lib.CheckedPoly

open Polynomial
open scoped Classical

inductive Fault where
  | index
  | overflow

section Words

variable (b : ℤ)

def InRange (v : ℤ) : Prop := -b ≤ v ∧ v < b

instance (v : ℤ) : Decidable (InRange b v) := inferInstanceAs (Decidable (-b ≤ v ∧ v < b))

def checked (v : ℤ) : Except Fault ℤ := if InRange b v then .ok v else .error .overflow

def Words (P : ℤ[X]) : Prop := ∀ k, InRange b (P.coeff k)

def addTimes (sign old x y : ℤ) : Except Fault ℤ := do
  let s ← checked b (sign * x)
  let v ← checked b (s * y)
  checked b (old + v)

def subTimes (old x y : ℤ) : Except Fault ℤ := do
  let v ← checked b (x * y)
  checked b (old - v)

variable {b}

lemma checked_pos {v : ℤ} (h : InRange b v) : checked b v = .ok v := if_pos h

lemma checked_neg {v : ℤ} (h : ¬ InRange b v) : checked b v = .error .overflow := if_neg h

lemma addTimes_eq {sign x : ℤ} (hx : InRange b (sign * x)) (old y : ℤ) : addTimes b sign old x y =
    if InRange b (sign * x * y) ∧ InRange b (old + sign * x * y) then .ok (old + sign * x * y)
    else .error .overflow := by
  rw [addTimes, checked_pos hx]
  change (checked b (sign * x * y) >>= fun v => checked b (old + v)) = _
  by_cases hv : InRange b (sign * x * y)
  · rw [checked_pos hv]
    change checked b (old + sign * x * y) = _
    by_cases hs : InRange b (old + sign * x * y)
    · rw [checked_pos hs, if_pos ⟨hv, hs⟩]
    · rw [checked_neg hs, if_neg fun h => hs h.2]
  · rw [checked_neg hv, if_neg fun h => hv h.1]
    rfl

lemma subTimes_eq (old x y : ℤ) : subTimes b old x y =
    if InRange b (x * y) ∧ InRange b (old + -1 * x * y) then .ok (old + -1 * x * y) else .error .overflow := by
  have heq : old + -1 * x * y = old - x * y := by ring
  rw [subTimes, heq]
  by_cases hv : InRange b (x * y)
  · rw [checked_pos hv]
    change checked b (old - x * y) = _
    by_cases hs : InRange b (old - x * y)
    · rw [checked_pos hs, if_pos ⟨hv, hs⟩]
    · rw [checked_neg hs, if_neg fun h => hs h.2]
  · rw [checked_neg hv, if_neg fun h => hv h.1]
    rfl

end Words

section Loops

variable {deg : ℕ} {f : ℤ → ℤ → Except Fault ℤ} {a p q : ℕ → ℤ}

def store (deg : ℕ) (p : ℕ → ℤ) (i : ℕ) (v : ℤ) : Except Fault (ℕ → ℤ) :=
  if i ≤ deg then .ok (Function.update p i v) else .error .index

def scatter (deg j : ℕ) (f : ℤ → ℤ → Except Fault ℤ) (q p : ℕ → ℤ) (k : ℕ) : Except Fault (ℕ → ℤ) :=
  if q k = 0 then .ok p else f (p (j + k)) (q k) >>= store deg p (j + k)

def products (deg : ℕ) (f : ℤ → ℤ → ℤ → Except Fault ℤ) (a q p : ℕ → ℤ) : Except Fault (ℕ → ℤ) :=
  (List.range (deg + 1)).foldlM (fun p j =>
    if a j = 0 then .ok p else (List.range (deg + 1)).foldlM (scatter deg j (fun old y => f old (a j) y) q) p) p

/-- The places are different, so that every one is checked against its old value. -/
lemma foldlM_scatter {j : ℕ} {w : ℤ → ℤ} {ok : ℤ → ℤ → Prop} [∀ old y, Decidable (ok old y)]
    (hw : w 0 = 0)
    (hf : ∀ old y, f old y = if ok old y then .ok (old + w y) else .error .overflow) (hdeg : ∀ k,
    q k ≠ 0 → j + k ≤ deg)
    {ks : List ℕ} (hnodup : ks.Nodup) : ks.foldlM (scatter deg j f q) p =
      if ∀ k ∈ ks, q k ≠ 0 → ok (p (j + k)) (q k) then
        .ok fun i => if j ≤ i ∧ i - j ∈ ks then p i + w (q (i - j)) else p i
      else .error .overflow := by
  induction ks generalizing p with
  | nil =>
    rw [if_pos fun k hk => absurd hk List.not_mem_nil]
    refine congrArg Except.ok (funext fun i => ?_)
    rw [if_neg fun h => List.not_mem_nil h.2]
  | cons k ks ih =>
    rw [List.nodup_cons] at hnodup
    rw [List.foldlM_cons, scatter]
    by_cases hq : q k = 0
    · rw [if_pos hq]
      change ks.foldlM _ p = _
      rw [ih hnodup.2]
      have hiff : (∀ k' ∈ k :: ks, q k' ≠ 0 → ok (p (j + k')) (q k')) ↔ ∀ k' ∈ ks, q k' ≠ 0 →
          ok (p (j + k')) (q k') := by
        rw [List.forall_mem_cons]
        exact and_iff_right fun h => absurd hq h
      rw [if_congr hiff rfl rfl]
      refine if_congr Iff.rfl (congrArg Except.ok (funext fun i => ?_)) rfl
      by_cases hi : j ≤ i ∧ i - j = k
      · have hnot : ¬(j ≤ i ∧ i - j ∈ ks) := fun h => hnodup.1 (hi.2 ▸ h.2)
        rw [if_neg hnot, if_pos ⟨hi.1, hi.2 ▸ List.mem_cons_self⟩, hi.2, hq, hw, add_zero]
      · refine if_congr ⟨fun h => ⟨h.1, List.mem_cons_of_mem k h.2⟩, fun h => ⟨h.1, ?_⟩⟩ rfl rfl
        exact (List.mem_cons.mp h.2).resolve_left fun heq => hi ⟨h.1, heq⟩
    · rw [if_neg hq, hf]
      by_cases hok : ok (p (j + k)) (q k)
      · rw [if_pos hok]
        change store deg p (j + k) (p (j + k) + w (q k)) >>= _ = _
        rw [store, if_pos (hdeg k hq)]
        change ks.foldlM _ _ = _
        rw [ih hnodup.2]
        have hother : ∀ k' ∈ ks, Function.update p (j + k) (p (j + k) + w (q k)) (j + k') = p (j + k') := by
          intro k' hk'
          refine Function.update_of_ne (fun heq => hnodup.1 ?_) _ _
          rwa [← Nat.add_left_cancel heq]
        have hiff : (∀ k' ∈ ks, q k' ≠ 0 → ok (Function.update p (j + k) (p (j + k) + w (q k)) (j + k')) (q k')) ↔
            ∀ k' ∈ k :: ks, q k' ≠ 0 → ok (p (j + k')) (q k') := by
          rw [List.forall_mem_cons]
          refine ⟨fun h => ⟨fun _ => hok, fun k' hk' => ?_⟩, fun h k' hk' => ?_⟩
          · rw [← hother k' hk']
            exact h k' hk'
          · rw [hother k' hk']
            exact h.2 k' hk'
        refine if_congr hiff (congrArg Except.ok (funext fun i => ?_)) rfl
        by_cases hi : i = j + k
        · subst hi
          have hsub : j + k - j = k := Nat.add_sub_cancel_left j k
          rw [hsub, if_neg fun h => hnodup.1 h.2, if_pos ⟨Nat.le_add_right j k, List.mem_cons_self⟩,
              Function.update_self]
        · rw [Function.update_of_ne hi]
          refine if_congr ⟨fun h => ⟨h.1, List.mem_cons_of_mem k h.2⟩, fun h => ⟨h.1, ?_⟩⟩ rfl rfl
          exact (List.mem_cons.mp h.2).resolve_left fun heq => hi (by omega)
      · rw [if_neg hok, if_neg fun h => hok (h k List.mem_cons_self hq)]
        rfl

lemma foldlM_single {σ : Type*} {g : σ → ℕ → Except Fault σ} {e : ℕ} {l : List ℕ} (hnodup : l.Nodup) (he : e ∈ l)
    (hother : ∀ j, j ≠ e → ∀ s, g s j = .ok s) (s : σ) : l.foldlM g s = g s e := by
  induction l with
  | nil => exact absurd he List.not_mem_nil
  | cons j l ih =>
    rw [List.nodup_cons] at hnodup
    rw [List.foldlM_cons]
    by_cases hj : j = e
    · subst hj
      have hid : ∀ l : List ℕ, j ∉ l → ∀ s, l.foldlM g s = .ok s := by
        intro l
        induction l with
        | nil => exact fun _ s => rfl
        | cons j' l ih' =>
          intro hnot s
          rw [List.mem_cons, not_or] at hnot
          rw [List.foldlM_cons, hother j' (Ne.symm hnot.1)]
          exact ih' hnot.2 s
      cases hg : g s j with
      | error x => rfl
      | ok s' => exact hid l hnodup.1 s'
    · rw [hother j hj]
      exact ih hnodup.2 ((List.mem_cons.mp he).resolve_left (Ne.symm hj))

lemma products_monomial {f : ℤ → ℤ → ℤ → Except Fault ℤ} {e : ℕ} {c σ : ℤ} {ok : ℤ → ℤ → Prop}
    [∀ old y, Decidable (ok old y)]
    (hc : c ≠ 0)
    (hf : ∀ old y, f old c y = if ok old y then .ok (old + σ * c * y) else .error .overflow)
    (ha : ∀ j, a j = if j = e then c else 0) (hq : ∀ k, q k ≠ 0 → e + k ≤ deg) (he : e ≤ deg) :
    products deg f a q p = if ∀ k, q k ≠ 0 → ok (p (e + k)) (q k) then
        .ok fun i => p i + if e ≤ i then σ * c * q (i - e) else 0
      else .error .overflow := by
  have hae : a e = c := by rw [ha, if_pos rfl]
  rw [products, foldlM_single List.nodup_range (List.mem_range.mpr (Nat.lt_succ_of_le he)), hae, if_neg hc]
  · rw [foldlM_scatter (mul_zero _) hf hq List.nodup_range]
    have hiff : (∀ k ∈ List.range (deg + 1), q k ≠ 0 → ok (p (e + k)) (q k)) ↔ ∀ k, q k ≠ 0 →
        ok (p (e + k)) (q k) := by
      refine ⟨fun h k hk => h k (List.mem_range.mpr ?_) hk, fun h k _ => h k⟩
      have := hq k hk
      omega
    refine if_congr hiff (congrArg Except.ok (funext fun i => ?_)) rfl
    by_cases hi : e ≤ i
    · rw [if_pos hi]
      by_cases hk : i - e ∈ List.range (deg + 1)
      · rw [if_pos ⟨hi, hk⟩]
      · have hz : q (i - e) = 0 := by
          by_contra hne
          have := hq _ hne
          exact hk (List.mem_range.mpr (by omega))
        rw [if_neg fun h => hk h.2, hz, mul_zero, add_zero]
    · rw [if_neg hi, if_neg fun h => hi h.1, add_zero]
  · intro j hj s
    rw [ha, if_neg hj, if_pos rfl]

end Loops

section Polynomials

variable {b : ℤ} {deg e : ℕ} {c : ℤ} {a p q : ℕ → ℤ} {P Q : ℤ[X]}

def Holds (p : ℕ → ℤ) (P : ℤ[X]) : Prop := ∀ k, p k = P.coeff k

/-- A run that gives a polynomial under a condition, and meets a word that is too small without it. -/
structure Computes (run : Except Fault (ℕ → ℤ)) (cond : Prop) (P : ℤ[X]) : Prop where
  ok : cond → ∃ p, run = .ok p ∧ Holds p P
  fault : ¬ cond → run = .error .overflow

lemma Computes.pure (hp : Holds p P) : Computes (.ok p) True P :=
    ⟨fun _ => ⟨p, rfl, hp⟩, fun h => absurd trivial h⟩

lemma Computes.congr {run : Except Fault (ℕ → ℤ)} {cond cond' : Prop} (h : Computes run cond P)
    (hiff : cond ↔ cond') :
    Computes run cond' P :=
  ⟨fun hc => h.ok (hiff.mpr hc), fun hc => h.fault fun hcond => hc (hiff.mp hcond)⟩

lemma Computes.bind {run : Except Fault (ℕ → ℤ)} {g : (ℕ → ℤ) → Except Fault (ℕ → ℤ)} {cond cond' : Prop}
    (h : Computes run cond P) (hg : cond → ∀ p, Holds p P → Computes (g p) cond' Q) :
    Computes (run >>= g) (cond ∧ cond') Q := by
  constructor
  · rintro ⟨hc, hc'⟩
    obtain ⟨p, hrun, hp⟩ := h.ok hc
    rw [hrun]
    exact (hg hc p hp).ok hc'
  · intro hnot
    by_cases hc : cond
    · obtain ⟨p, hrun, hp⟩ := h.ok hc
      rw [hrun]
      exact (hg hc p hp).fault fun hc' => hnot ⟨hc, hc'⟩
    · rw [h.fault hc]
      rfl

lemma Words.zero (hb : 0 < b) : Words b 0 := by
  intro k
  rw [coeff_zero]
  exact ⟨by omega, hb⟩

lemma coeff_scaled (σ : ℤ) (i : ℕ) :
    (C σ * (C c * X ^ e) * Q).coeff i = if e ≤ i then σ * c * Q.coeff (i - e) else 0 := by
  have heq : C σ * (C c * X ^ e) * Q = C (σ * c) * (X ^ e * Q) := by
    rw [C_mul]
    ring
  rw [heq, coeff_C_mul, coeff_X_pow_mul', mul_ite, mul_zero]

lemma coeff_scaled_add (σ : ℤ) (k : ℕ) : (C σ * (C c * X ^ e) * Q).coeff (e + k) = σ * c * Q.coeff k := by
  rw [coeff_scaled, if_pos (Nat.le_add_right e k), Nat.add_sub_cancel_left]

lemma words_scaled (hb : 0 < b) (σ : ℤ) :
    Words b (C σ * (C c * X ^ e) * Q) ↔ ∀ k, InRange b (σ * c * Q.coeff k) := by
  constructor
  · intro h k
    rw [← coeff_scaled_add]
    exact h (e + k)
  · intro h i
    rw [coeff_scaled]
    split_ifs
    · exact h (i - e)
    · exact ⟨by omega, hb⟩

/-- A multiple of a polynomial by a monomial is added to another, or some word is too small. -/
lemma products_spec (hb : 0 < b) {f : ℤ → ℤ → ℤ → Except Fault ℤ} {σ τ : ℤ}
    (hf : ∀ old y, f old c y =
      if InRange b (τ * c * y) ∧ InRange b (old + σ * c * y) then .ok (old + σ * c * y) else .error .overflow)
    (ha : Holds a (C c * X ^ e)) (hp : Holds p P) (hq : Holds q Q) (hP : Words b P)
    (hdeg : e + Q.natDegree ≤ deg) :
    Computes (products deg f a q p) (Words b (C τ * (C c * X ^ e) * Q) ∧ Words b (P + C σ * (C c * X ^ e) * Q))
      (P + C σ * (C c * X ^ e) * Q) := by
  have ha' : ∀ j, a j = if j = e then c else 0 := by
    intro j
    rw [ha, coeff_C_mul_X_pow]
  by_cases hc : c = 0
  · subst hc
    have hid : ∀ p, products deg f a q p = .ok p := by
      intro p
      have hzero : ∀ j, a j = 0 := fun j => (ha' j).trans (ite_self 0)
      rw [products, foldlM_single List.nodup_range (List.mem_range.mpr (Nat.succ_pos deg)), hzero, if_pos rfl]
      intro j _ s
      rw [hzero, if_pos rfl]
    rw [C_0, zero_mul, mul_zero, zero_mul, mul_zero, zero_mul, add_zero, hid]
    exact (Computes.pure hp).congr (iff_of_true trivial ⟨Words.zero hb, hP⟩)
  · have hbound : ∀ k, q k ≠ 0 → e + k ≤ deg := by
      intro k hk
      rw [hq] at hk
      have := le_natDegree_of_ne_zero hk
      omega
    have heq := @products_monomial deg a p q f e c σ (fun old y => InRange b (τ * c * y) ∧
      InRange b (old + σ * c * y)) _ hc hf ha' hbound (by omega)
    have hcond : (∀ k, q k ≠ 0 → InRange b (τ * c * q k) ∧ InRange b (p (e + k) + σ * c * q k)) ↔
        Words b (C τ * (C c * X ^ e) * Q) ∧ Words b (P + C σ * (C c * X ^ e) * Q) := by
      rw [words_scaled hb]
      constructor
      · intro h
        refine ⟨fun k => ?_, fun i => ?_⟩
        · by_cases hk : q k = 0
          · rw [← hq, hk, mul_zero]
            exact ⟨by omega, hb⟩
          · rw [← hq]
            exact (h k hk).1
        · rw [coeff_add, coeff_scaled]
          split_ifs with hi
          · by_cases hk : q (i - e) = 0
            · rw [← hq, hk, mul_zero, add_zero]
              exact hP i
            · have hsum := (h (i - e) hk).2
              rwa [Nat.add_sub_cancel' hi, hp, hq] at hsum
          · rw [add_zero]
            exact hP i
      · intro h k _
        refine ⟨hq k ▸ h.1 k, ?_⟩
        rw [hp, hq, ← coeff_scaled_add σ k, ← coeff_add]
        exact h.2 (e + k)
    rw [heq]
    refine ⟨fun hwords => ?_, fun hwords => if_neg fun hall => hwords (hcond.mp hall)⟩
    rw [if_pos (hcond.mpr hwords)]
    refine ⟨_, rfl, fun i => ?_⟩
    rw [coeff_add, coeff_scaled, hp, hq]

end Polynomials

end OpenSM.Lib.CheckedPoly
