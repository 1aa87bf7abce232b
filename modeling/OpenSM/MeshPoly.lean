import OpenSM.Lib.CheckedPoly

/-! The characteristic polynomial of a matrix of distances, by expansion along first rows. -/

namespace OpenSM.LashMesh

open Polynomial
open Lib.CheckedPoly

abbrev intBound : ℤ := 2147483648

abbrev PolyMatrix := ℕ → ℕ → ℕ → ℤ

section Code

def skip (gone x : ℕ) : ℕ := if x < gone then x else x + 1

/-- The polynomial of a submatrix, with a function for the determinants of its rank. -/
def subDeterminant (det : PolyMatrix → (ℕ → ℤ) → Except Fault (ℕ → ℤ)) (l row col : ℕ) (matrix : PolyMatrix) :
    Except Fault (ℕ → ℤ) :=
  if l ≤ 1 then .ok (Function.update (fun _ => 0) 0 1)
  else det (fun x y => matrix (skip row x) (skip col y)) fun _ => 0

def determinant (deg : ℕ) : ℕ → PolyMatrix → (ℕ → ℤ) → Except Fault (ℕ → ℤ)
  | 0, _, p => .ok p
  | 1, m, p => (List.range (deg + 1)).foldlM (fun p i => checked intBound (p i + m 0 0 i) >>= store deg p i) p
  | 2, m, p => do
    let p ← products deg (addTimes intBound 1) (m 0 0) (m 1 1) p
    products deg (subTimes intBound) (m 0 1) (m 1 0) p
  | rank + 3, m, p =>
    (List.range (rank + 3)).foldlM (fun p i => do
      let q ← subDeterminant (determinant deg (rank + 2)) (rank + 3) 0 i m
      products deg (addTimes intBound ((-1) ^ i)) (m 0 i) q p) p

def charPoly (rank : ℕ) (matrix : ℕ → ℕ → ℤ) : Except Fault (ℕ → ℤ) :=
  determinant rank rank (fun i j k => if k = 0 then matrix i j else if k = 1 ∧ i = j then -1 else 0) fun _ => 0

end Code

section Spec

noncomputable def term {r : ℕ} (A : Matrix (Fin (r + 1)) (Fin (r + 1)) ℤ[X]) (i : Fin (r + 1)) : ℤ[X] :=
  (-1) ^ (i : ℕ) * A 0 i * (A.submatrix Fin.succ i.succAbove).det

noncomputable def partialSum {r : ℕ} (A : Matrix (Fin (r + 1)) (Fin (r + 1)) ℤ[X]) (t : ℕ) : ℤ[X] :=
  ∑ i ∈ Finset.univ.filter fun i : Fin (r + 1) => (i : ℕ) < t, term A i

/-- Every product and every sum on the way to the determinant has coefficients that an `int` can hold. -/
def ExpandsInt : (r : ℕ) → Matrix (Fin r) (Fin r) ℤ[X] → Prop
  | 0, _ => True
  | 1, _ => True
  | 2, A =>
    Words intBound (A ⟨0, Nat.two_pos⟩ ⟨0, Nat.two_pos⟩ * A ⟨1, Nat.one_lt_two⟩ ⟨1, Nat.one_lt_two⟩) ∧
      Words intBound (A ⟨0, Nat.two_pos⟩ ⟨1, Nat.one_lt_two⟩ * A ⟨1, Nat.one_lt_two⟩ ⟨0, Nat.two_pos⟩) ∧
          Words intBound A.det
  | r + 3, A =>
    ∀ i : Fin (r + 3), ExpandsInt (r + 2) (A.submatrix Fin.succ i.succAbove) ∧ Words intBound (term A i) ∧
      Words intBound (partialSum A (i + 1))

def Entries {r : ℕ} (A : Matrix (Fin r) (Fin r) ℤ[X]) : Prop :=
  ∀ i j, ∃ c e, e ≤ 1 ∧ |c| < intBound ∧ A i j = C c * X ^ e

noncomputable def minusX {r : ℕ} (M : Matrix (Fin r) (Fin r) ℤ) : Matrix (Fin r) (Fin r) ℤ[X] :=
  M.map C - (X : ℤ[X]) • 1

end Spec

section Expansion

variable {r deg : ℕ} {A : Matrix (Fin (r + 1)) (Fin (r + 1)) ℤ[X]}

lemma partialSum_zero : partialSum A 0 = 0 := by
  apply Finset.sum_eq_zero
  intro i hi
  exact absurd (Finset.mem_filter.mp hi).2 (Nat.not_lt_zero i)

lemma partialSum_succ (i : Fin (r + 1)) : partialSum A (i + 1) = partialSum A i + term A i := by
  have hset : Finset.univ.filter (fun j : Fin (r + 1) => (j : ℕ) < i + 1) =
      insert i (Finset.univ.filter fun j : Fin (r + 1) => (j : ℕ) < i) := by
    ext j
    simp only [Finset.mem_filter, Finset.mem_univ, true_and, Finset.mem_insert, Fin.ext_iff]
    omega
  rw [partialSum, hset, Finset.sum_insert, add_comm]
  · rfl
  · intro hi
    exact absurd (Finset.mem_filter.mp hi).2 (lt_irrefl _)

lemma det_eq_partialSum : A.det = partialSum A (r + 1) := by
  rw [Matrix.det_succ_row_zero, partialSum, Finset.filter_true_of_mem]
  · rfl
  · exact fun i _ => i.isLt

lemma Entries.minor (h : Entries A) (i : Fin (r + 1)) : Entries (A.submatrix Fin.succ i.succAbove) :=
  fun x y => h x.succ (i.succAbove y)

lemma Entries.natDegree_det {r : ℕ} {A : Matrix (Fin r) (Fin r) ℤ[X]} (h : Entries A) : A.det.natDegree ≤ r := by
  induction r with
  | zero =>
    rw [Matrix.det_fin_zero, natDegree_one]
  | succ r ih =>
    rw [Matrix.det_succ_row_zero]
    apply natDegree_sum_le_of_forall_le
    intro i _
    obtain ⟨c, e, he, -, hA⟩ := h 0 i
    have hentry : ((-1 : ℤ[X]) ^ (i : ℕ) * A 0 i).natDegree ≤ 1 := by
      have heq : (-1 : ℤ[X]) ^ (i : ℕ) * A 0 i = C ((-1) ^ (i : ℕ) * c) * X ^ e := by
        rw [hA, C_mul, C_pow, C_neg, C_1, mul_assoc]
      rw [heq]
      exact (natDegree_C_mul_X_pow_le _ _).trans he
    have hminor := ih (h.minor i)
    have hmul := natDegree_mul_le (p := (-1 : ℤ[X]) ^ (i : ℕ) * A 0 i) (q :=
        (A.submatrix Fin.succ i.succAbove).det)
    omega

lemma skip_succ (x : ℕ) : skip 0 x = x + 1 := if_neg (Nat.not_lt_zero x)

lemma skip_succAbove (i : Fin (r + 1)) (y : Fin r) : skip i y = (i.succAbove y : ℕ) := by
  rw [skip, Fin.succAbove]
  by_cases hy : (y : ℕ) < i
  · rw [if_pos hy, if_pos (Fin.lt_def.mpr hy)]
    rfl
  · rw [if_neg hy, if_neg fun h => hy (Fin.lt_def.mp h)]
    rfl

end Expansion

section Determinant

variable {deg r : ℕ}

lemma row_step {A : Matrix (Fin (r + 3)) (Fin (r + 3)) ℤ[X]} (hA : Entries A) (hdeg : r + 3 ≤ deg) {m : PolyMatrix}
    (hm : ∀ i j : Fin (r + 3), Holds (m i j) (A i j)) (i : Fin (r + 3)) {p q : ℕ →
    ℤ} (hp : Holds p (partialSum A i))
    (hP : Words intBound (partialSum A i)) (hq : Holds q (A.submatrix Fin.succ i.succAbove).det) :
    Computes (products deg (addTimes intBound ((-1) ^ (i : ℕ))) (m 0 i) q p)
      (Words intBound (term A i) ∧ Words intBound (partialSum A (i + 1))) (partialSum A (i + 1)) := by
  obtain ⟨c, e, he, hc, hentry⟩ := hA 0 i
  have hminor := (hA.minor i).natDegree_det
  have hsign : InRange intBound ((-1) ^ (i : ℕ) * c) := by
    rw [abs_lt] at hc
    rcases neg_one_pow_eq_or ℤ (i : ℕ) with h | h
    · rw [h, one_mul]
      exact ⟨hc.1.le, hc.2⟩
    · rw [h, neg_one_mul]
      exact ⟨neg_le_neg hc.2.le, neg_lt.mp hc.1⟩
  have hterm : term A i = C ((-1) ^ (i : ℕ)) * (C c * X ^ e) * (A.submatrix Fin.succ i.succAbove).det := by
    rw [term, hentry, C_pow, C_neg, C_1]
  have ha : Holds (m 0 i) (C c * X ^ e) := by
    rw [← hentry]
    exact hm 0 i
  have hspec := products_spec (by norm_num) (fun old y => addTimes_eq hsign old y) ha hp hq hP
    (show e + (A.submatrix Fin.succ i.succAbove).det.natDegree ≤ deg by omega)
  rwa [← hterm, ← partialSum_succ] at hspec

/-- The loop over the first row, after some of its entries. -/
lemma row_loop {A : Matrix (Fin (r + 3)) (Fin (r + 3)) ℤ[X]} (hA : Entries A) (hdeg : r + 3 ≤ deg) {m : PolyMatrix}
    (hm : ∀ i j : Fin (r + 3), Holds (m i j) (A i j)) {det : ℕ → Except Fault (ℕ → ℤ)}
    (hdet : ∀ i : Fin (r + 3), Computes (det i) (ExpandsInt (r + 2) (A.submatrix Fin.succ i.succAbove))
      (A.submatrix Fin.succ i.succAbove).det) {t : ℕ} (ht : t ≤ r + 3) :
    Computes ((List.range t).foldlM (fun p i =>
        det i >>= fun q => products deg (addTimes intBound ((-1) ^ i)) (m 0 i) q p) fun _ => 0)
      (∀ i : Fin (r + 3), (i : ℕ) < t → ExpandsInt (r + 2) (A.submatrix Fin.succ i.succAbove) ∧
        Words intBound (term A i) ∧ Words intBound (partialSum A (i + 1))) (partialSum A t) := by
  induction t with
  | zero =>
    rw [partialSum_zero]
    exact (Computes.pure fun k => (coeff_zero k).symm).congr
      (iff_of_true trivial fun i hi => absurd hi (Nat.not_lt_zero i))
  | succ t ih =>
    obtain ⟨i, rfl⟩ : ∃ i : Fin (r + 3), (i : ℕ) = t := ⟨⟨t, ht⟩, rfl⟩
    have hwords : (∀ j : Fin (r + 3), (j : ℕ) < i → ExpandsInt (r + 2) (A.submatrix Fin.succ j.succAbove) ∧
        Words intBound (term A j) ∧ Words intBound (partialSum A (j + 1))) → Words intBound (partialSum A i) := by
      intro h
      rcases Nat.eq_zero_or_pos (i : ℕ) with hi | hi
      · rw [hi, partialSum_zero]
        exact Words.zero (by norm_num)
      · have hprev := (h ⟨i - 1, by omega⟩ (Nat.sub_lt hi Nat.one_pos)).2.2
        rwa [Nat.sub_add_cancel hi] at hprev
    rw [List.range_succ, List.foldlM_append]
    have hlast : ∀ p, Holds p (partialSum A i) → Words intBound (partialSum A i) →
        Computes ([(i : ℕ)].foldlM (fun p i => det i >>= fun q =>
            products deg (addTimes intBound ((-1) ^ i)) (m 0 i) q p) p)
          (ExpandsInt (r + 2) (A.submatrix Fin.succ i.succAbove) ∧ Words intBound (term A i) ∧
            Words intBound (partialSum A (i + 1))) (partialSum A (i + 1)) := by
      intro p hp hP
      rw [List.foldlM_cons]
      change Computes (_ >>= pure) _ _
      rw [bind_pure]
      exact (hdet i).bind fun _ q hq => row_step hA hdeg hm i hp hP hq
    refine ((ih (by omega)).bind fun hall p hp => hlast p hp (hwords hall)).congr ?_
    · refine ⟨fun h j hj => ?_, fun h => ⟨fun j hj => h j (by omega), h i (by omega)⟩⟩
      rcases Nat.lt_succ_iff_lt_or_eq.mp hj with hj | hj
      · exact h.1 j hj
      · exact Fin.ext hj ▸ h.2

/-- The determinant of two rows. -/
lemma determinant_two {A : Matrix (Fin 2) (Fin 2) ℤ[X]} (hA : Entries A) (hdeg : 2 ≤ deg) {m : PolyMatrix}
    (hm : ∀ i j : Fin 2, Holds (m i j) (A i j)) : Computes (determinant deg 2 m fun _ => 0)
        (ExpandsInt 2 A) A.det := by
  have hdegree : ∀ i j, (A i j).natDegree ≤ 1 := by
    intro i j
    obtain ⟨c, e, he, -, hentry⟩ := hA i j
    rw [hentry]
    exact (natDegree_C_mul_X_pow_le c e).trans he
  have h₁ := hdegree 1 1
  have h₀ := hdegree 1 0
  obtain ⟨c, e, he, hc, hentry⟩ := hA 0 0
  obtain ⟨c', e', he', hc', hentry'⟩ := hA 0 1
  rw [abs_lt] at hc
  have ha : Holds (m 0 0) (C c * X ^ e) := by
    rw [← hentry]
    exact hm 0 0
  have ha' : Holds (m 0 1) (C c' * X ^ e') := by
    rw [← hentry']
    exact hm 0 1
  have hrange : InRange intBound (1 * c) := by
    rw [one_mul]
    exact ⟨hc.1.le, hc.2⟩
  have hfirst := products_spec (by norm_num) (fun old y => addTimes_eq hrange old y) ha
    (fun k => (coeff_zero k).symm) (hm 1 1) (Words.zero (by norm_num)) (show e + (A 1 1).natDegree ≤ deg by omega)
  rw [C_1, one_mul, zero_add, ← hentry, and_self] at hfirst
  have hdet : A.det = A 0 0 * A 1 1 + C (-1) * (C c' * X ^ e') * A 1 0 := by
    rw [Matrix.det_fin_two, hentry', C_neg, C_1]
    ring
  have hlast : A 0 1 * A 1 0 = C 1 * (C c' * X ^ e') * A 1 0 := by
    rw [hentry', C_1, one_mul]
  have hexp : ExpandsInt 2 A =
      (Words intBound (A 0 0 * A 1 1) ∧ Words intBound (A 0 1 * A 1 0) ∧ Words intBound A.det) := rfl
  rw [determinant, hexp, hlast, hdet]
  refine hfirst.bind fun hwords p hp => ?_
  refine products_spec (by norm_num) (fun old y => ?_) ha' hp (hm 1 0) hwords (by omega)
  rw [one_mul]
  exact subTimes_eq old c' y

lemma determinant_spec (hr : 2 ≤ r) (hdeg : r ≤ deg) {A : Matrix (Fin r) (Fin r) ℤ[X]} (hA : Entries A)
    {m : PolyMatrix}
    (hm : ∀ i j : Fin r, Holds (m i j) (A i j)) : Computes (determinant deg r m fun _ => 0)
        (ExpandsInt r A) A.det := by
  induction r, hr using Nat.le_induction generalizing m with
  | base => exact determinant_two hA hdeg hm
  | succ r hr ih =>
    obtain ⟨k, rfl⟩ : ∃ k, r = k + 2 := ⟨r - 2, by omega⟩
    have hrow := @row_loop deg k A hA hdeg m hm (fun i => subDeterminant (determinant deg (k + 2)) (k + 3) 0 i m)
      (fun i => ih (by omega) (hA.minor i) fun x y => ?_) (k + 3) le_rfl
    · rw [← det_eq_partialSum] at hrow
      exact hrow.congr ⟨fun h i => h i i.isLt, fun h i _ => h i⟩
    · rw [skip_succ, skip_succAbove]
      exact hm x.succ (i.succAbove y)

end Determinant

section CharPoly

variable {r : ℕ} {matrix : ℕ → ℕ → ℤ}

lemma minusX_apply (M : Matrix (Fin r) (Fin r) ℤ) (i j : Fin r) :
    minusX M i j = C (M i j) - if i = j then X else 0 := by
  rw [minusX, Matrix.sub_apply, Matrix.map_apply, Matrix.smul_apply, Matrix.one_apply, smul_ite,
    smul_zero, smul_eq_mul, mul_one]

/-- `char_poly` gives the polynomial whenever an `int` can hold what the expansion needs. -/
lemma charPoly_spec (hr : 0 < r) {M : Matrix (Fin r) (Fin r) ℤ} (hM : ∀ i j : Fin r, M i j = matrix i j)
    (hself : ∀ i, M i i = 0) (hrange : ∀ i j, |M i j| < intBound) :
    Computes (charPoly r matrix) (ExpandsInt r (minusX M)) (minusX M).det := by
  have hentry : ∀ i j : Fin r, Holds (fun k => if k = 0 then matrix i j else if k = 1 ∧ (i : ℕ) = j then -1 else 0)
      (minusX M i j) := by
    intro i j k
    rw [minusX_apply, coeff_sub, coeff_C, hM]
    by_cases hij : i = j
    · rw [if_pos hij, coeff_X]
      rcases k with - | - | k
      · simp
      · simp [hij]
      · simp
    · have hne : (i : ℕ) ≠ j := fun h => hij (Fin.ext h)
      rw [if_neg hij, coeff_zero, sub_zero]
      simp [hne]
  have hentries : Entries (minusX M) := by
    intro i j
    rw [minusX_apply]
    by_cases hij : i = j
    · refine ⟨-1, 1, le_rfl, by norm_num, ?_⟩
      rw [if_pos hij, hij, hself, C_0, zero_sub, C_neg, C_1, pow_one, neg_one_mul]
    · refine ⟨M i j, 0, Nat.zero_le 1, hrange i j, ?_⟩
      rw [if_neg hij, sub_zero, pow_zero, mul_one]
  rcases Nat.lt_or_ge 1 r with hr' | hr'
  · exact determinant_spec hr' le_rfl hentries hentry
  · obtain rfl : r = 1 := by omega
    have hzero : matrix 0 0 = 0 := (hM 0 0).symm.trans (hself 0)
    have hrun : charPoly 1 matrix = .ok (Function.update (fun _ => 0) 1 (-1)) := by
      have hone : (-1 : ℤ) < intBound := by norm_num
      simp [charPoly, determinant, List.range_succ, checked, InRange, store, hzero, hone, bind, Except.bind,
          pure, Except.pure]
    refine ⟨fun _ => ⟨_, hrun, fun k => ?_⟩, fun h => absurd trivial h⟩
    rw [Matrix.det_fin_one, ← hentry 0 0 k]
    rcases k with - | - | k
    · simp [hzero]
    · simp
    · simp

end CharPoly

section Small

variable {r : ℕ} {B b : ℤ}

def CoeffsLe (b : ℤ) (P : ℤ[X]) : Prop := ∀ k, |P.coeff k| ≤ b

lemma CoeffsLe.words {P : ℤ[X]} (h : CoeffsLe b P) (hb : b < intBound) : Words intBound P := by
  intro k
  have hk := abs_le.mp (h k)
  exact ⟨by omega, by omega⟩

lemma coeffsLe_scaled {P : ℤ[X]} (h : CoeffsLe b P) {c : ℤ} (hc : |c| ≤ B) (e : ℕ) : CoeffsLe (B * b)
    (C c * X ^ e * P) := by
  intro k
  have hb : 0 ≤ b := (abs_nonneg _).trans (h 0)
  rw [mul_assoc, coeff_C_mul, coeff_X_pow_mul', abs_mul]
  split_ifs
  · exact mul_le_mul hc (h _) (abs_nonneg _) ((abs_nonneg c).trans hc)
  · rw [abs_zero, mul_zero]
    exact mul_nonneg ((abs_nonneg c).trans hc) hb

lemma coeffsLe_partialSum {A : Matrix (Fin (r + 1)) (Fin (r + 1)) ℤ[X]} (h : ∀ i, CoeffsLe b (term A i)) (t : ℕ) :
    CoeffsLe ((r + 1 : ℕ) * b) (partialSum A t) := by
  intro k
  have hb : 0 ≤ b := (abs_nonneg _).trans (h 0 0)
  rw [partialSum, finsetSum_coeff]
  calc |∑ i ∈ Finset.univ.filter fun i : Fin (r + 1) => (i : ℕ) < t, (term A i).coeff k|
    _ ≤ ∑ i ∈ Finset.univ.filter fun i : Fin (r + 1) => (i : ℕ) < t, |(term A i).coeff k| :=
        Finset.abs_sum_le_sum_abs _ _
    _ ≤ ∑ i : Fin (r + 1), |(term A i).coeff k| :=
      Finset.sum_le_sum_of_subset_of_nonneg (Finset.filter_subset _ _) fun i _ _ => abs_nonneg _
    _ ≤ ∑ i : Fin (r + 1), b := Finset.sum_le_sum fun i _ => h i k
    _ = (r + 1 : ℕ) * b := by rw [Finset.sum_const, Finset.card_univ, Fintype.card_fin, nsmul_eq_mul]

def SmallEntries (B : ℤ) {r : ℕ} (A : Matrix (Fin r) (Fin r) ℤ[X]) : Prop := ∀ i j, ∃ c e, |c| ≤ B ∧
    A i j = C c * X ^ e

lemma coeffsLe_term {A : Matrix (Fin (r + 1)) (Fin (r + 1)) ℤ[X]} (hA : SmallEntries B A) (i : Fin (r + 1))
    (h : CoeffsLe b (A.submatrix Fin.succ i.succAbove).det) : CoeffsLe (B * b) (term A i) := by
  obtain ⟨c, e, hc, hentry⟩ := hA 0 i
  have heq : term A i = C ((-1) ^ (i : ℕ) * c) * X ^ e * (A.submatrix Fin.succ i.succAbove).det := by
    rw [term, hentry, C_mul, C_pow, C_neg, C_1, mul_assoc, mul_assoc]
    ring
  rw [heq]
  apply coeffsLe_scaled h
  rw [abs_mul, abs_pow, abs_neg, abs_one, one_pow, one_mul]
  exact hc

lemma coeffsLe_det {A : Matrix (Fin r) (Fin r) ℤ[X]} (hA : SmallEntries B A) :
    CoeffsLe (r.factorial * B ^ r) A.det := by
  induction r with
  | zero =>
    intro k
    rw [Matrix.det_fin_zero, coeff_one]
    split_ifs
    · norm_num
    · norm_num
  | succ r ih =>
    rw [det_eq_partialSum]
    have hsum := coeffsLe_partialSum
        (fun i => coeffsLe_term hA i (ih fun x y => hA x.succ (i.succAbove y))) (r + 1)
    have heq : ((r + 1 : ℕ) : ℤ) * (B * (r.factorial * B ^ r)) = (r + 1).factorial * B ^ (r + 1) := by
      rw [Nat.factorial_succ, Nat.cast_mul, pow_succ]
      ring
    rwa [heq] at hsum

lemma expands_of_lt_two (hr : r < 2) (A : Matrix (Fin r) (Fin r) ℤ[X]) : ExpandsInt r A := by
  match r, hr with
  | 0, _ => trivial
  | 1, _ => trivial

/-- Small entries are never a problem. -/
lemma expands_of_small (hr : 2 ≤ r) (hB : 1 ≤ B) {A : Matrix (Fin r) (Fin r) ℤ[X]} (hA : SmallEntries B A)
    (hsmall : r.factorial * B ^ r < intBound) : ExpandsInt r A := by
  induction r, hr using Nat.le_induction with
  | base =>
    have hproduct : ∀ i j i' j', CoeffsLe (B * B) (A i j * A i' j') := by
      intro i j i' j'
      obtain ⟨c, e, hc, hentry⟩ := hA i j
      obtain ⟨c', e', hc', hentry'⟩ := hA i' j'
      rw [hentry]
      refine coeffsLe_scaled (fun k => ?_) hc e
      rw [hentry', coeff_C_mul_X_pow]
      split_ifs
      · exact hc'
      · rw [abs_zero]
        omega
    have hlt : B * B < intBound := by
      have hsq : 0 ≤ B * B := mul_self_nonneg B
      rw [Nat.factorial_two, pow_two, Nat.cast_two] at hsmall
      omega
    exact ⟨(hproduct 0 0 1 1).words hlt, (hproduct 0 1 1 0).words hlt, (coeffsLe_det hA).words hsmall⟩
  | succ r hr ih =>
    obtain ⟨k, rfl⟩ : ∃ k, r = k + 2 := ⟨r - 2, by omega⟩
    have hpos : (0 : ℤ) < (k + 2).factorial * B ^ (k + 2) := by positivity
    have heq : ((k + 2 + 1).factorial : ℤ) * B ^
        (k + 2 + 1) = (k + 2 + 1 : ℕ) * (B * ((k + 2).factorial * B ^ (k + 2))) := by
      rw [Nat.factorial_succ, Nat.cast_mul, pow_succ]
      ring
    have hterm : ∀ i : Fin (k + 3), CoeffsLe (B * ((k + 2).factorial * B ^ (k + 2))) (term A i) := fun i =>
      coeffsLe_term hA i (coeffsLe_det fun x y => hA x.succ (i.succAbove y))
    have hless : ((k + 2).factorial : ℤ) * B ^ (k + 2) ≤ B * ((k + 2).factorial * B ^ (k + 2)) :=
      le_mul_of_one_le_left hpos.le hB
    have hsum : B * ((k + 2).factorial * B ^ (k + 2)) ≤ (k + 2 + 1 : ℕ) *
        (B * ((k + 2).factorial * B ^ (k + 2))) :=
      le_mul_of_one_le_left (hpos.le.trans hless) (by exact_mod_cast Nat.succ_pos (k + 2))
    rw [heq] at hsmall
    intro i
    refine ⟨ih (fun x y => hA x.succ (i.succAbove y)) ?_, (hterm i).words ?_,
        (coeffsLe_partialSum hterm _).words hsmall⟩
    · exact (hless.trans hsum).trans_lt hsmall
    · exact hsum.trans_lt hsmall

end Small

section Far

variable {r : ℕ}

/-- The leading coefficient of the minor without the first row and the second column. -/
lemma coeff_minor (M : Matrix (Fin (r + 3)) (Fin (r + 3)) ℤ) :
    ((minusX M).submatrix Fin.succ (Fin.succAbove 1)).det.coeff (r + 1) = M 1 0 * (-1) ^ (r + 1) := by
  let A : Matrix (Fin (r + 2)) (Fin (r + 2)) ℤ := fun x y => if x.succ = Fin.succAbove 1 y then -1 else 0
  let B : Matrix (Fin (r + 2)) (Fin (r + 2)) ℤ := fun x y => M x.succ (Fin.succAbove 1 y)
  have hminor : (minusX M).submatrix Fin.succ (Fin.succAbove 1) = (X : ℤ[X]) • A.map C + B.map C := by
    ext1 x y
    rw [Matrix.submatrix_apply, minusX_apply, Matrix.add_apply, Matrix.smul_apply, Matrix.map_apply,
      Matrix.map_apply, smul_eq_mul]
    by_cases h : x.succ = Fin.succAbove 1 y
    · simp only [A, B, if_pos h, C_neg, C_1]
      ring
    · simp only [A, B, if_neg h, C_0]
      ring
  have hentry : ∀ j, ((X : ℤ[X]) • A.map C + B.map C) 0 j = C (B 0 j) := by
    intro j
    have hne : (0 : Fin (r + 2)).succ ≠ Fin.succAbove 1 j := (Fin.succAbove_ne 1 j).symm
    rw [Matrix.add_apply, Matrix.smul_apply, Matrix.map_apply, Matrix.map_apply]
    simp only [A, if_neg hne, C_0, smul_zero, zero_add]
  have hsub : ∀ j, (((X : ℤ[X]) • A.map C + B.map C).submatrix Fin.succ (Fin.succAbove j)).det.coeff (r + 1) =
      (A.submatrix Fin.succ (Fin.succAbove j)).det := by
    intro j
    have hcard := coeff_det_X_add_C_card (A.submatrix Fin.succ (Fin.succAbove j))
        (B.submatrix Fin.succ (Fin.succAbove j))
    rw [Fintype.card_fin] at hcard
    exact hcard
  have hfirst : A.submatrix Fin.succ (Fin.succAbove 0) = -1 := by
    ext1 x y
    rw [Matrix.submatrix_apply, Fin.succAbove_zero, Matrix.neg_apply, Matrix.one_apply]
    simp only [A, Fin.one_succAbove_succ, Fin.succ_inj]
    split_ifs
    · rfl
    · rfl
  rw [hminor, Matrix.det_succ_row_zero, finsetSum_coeff, Finset.sum_eq_single 0]
  · have hzero : B 0 0 = M 1 0 := congrArg (M 1) Fin.one_succAbove_zero
    rw [hentry, Fin.val_zero, pow_zero, one_mul, coeff_C_mul, hsub, hfirst, Matrix.det_neg, Fintype.card_fin,
      Matrix.det_one, mul_one, hzero]
  · intro j _ hj
    have hcol : (A.submatrix Fin.succ (Fin.succAbove j)).det = 0 := by
      apply Matrix.det_eq_zero_of_column_eq_zero 0
      intro x
      rw [Matrix.submatrix_apply, Fin.succAbove_ne_zero_zero hj]
      simp only [A, Fin.one_succAbove_zero]
      exact if_neg (Fin.succ_ne_zero _)
    have hconst : (-1 : ℤ[X]) ^ (j : ℕ) * C (B 0 j) = C ((-1) ^ (j : ℕ) * B 0 j) := by
      rw [C_mul, C_pow, C_neg, C_1]
    rw [hentry, hconst, coeff_C_mul, hsub, hcol, mul_zero]
  · exact fun h => absurd (Finset.mem_univ _) h

lemma not_inRange {a σ : ℤ} (ha : intBound < a * a) (hσ : σ = 1 ∨ σ = -1) : ¬ InRange intBound (σ * (a * a)) := by
  rintro ⟨hlo, hhi⟩
  rcases hσ with rfl | rfl
  · omega
  · omega

/-- A pair of neighbours that are too far from each other is enough. -/
lemma not_expands_of_far {a : ℤ} (ha : intBound < a * a) (hr : 2 ≤ r) {M : Matrix (Fin r) (Fin r) ℤ}
    (hself : ∀ i, M i i ≠ a) (hsymm : ∀ i j, M i j = M j i) (htrans : ∀ i j k, M i j ≠ a → M j k ≠ a → M i k ≠ a)
    (hfar : ∃ i j, M i j = a) : ¬ ExpandsInt r (minusX M) := by
  induction r, hr using Nat.le_induction with
  | base =>
    obtain ⟨i, j, hij⟩ := hfar
    have hne : i ≠ j := fun h => hself j (h ▸ hij)
    have hpair : M 0 1 = a := by
      fin_cases i
      · fin_cases j
        · exact absurd rfl hne
        · exact hij
      · fin_cases j
        · exact (hsymm 0 1).trans hij
        · exact absurd rfl hne
    intro hexp
    have hwords : InRange intBound ((minusX M 0 1 * minusX M 1 0).coeff 0) := hexp.2.1 0
    rw [minusX_apply, minusX_apply, if_neg Fin.zero_ne_one, if_neg Fin.zero_ne_one.symm, hsymm 1 0, hpair,
      sub_zero, ← C_mul, coeff_C_zero, ← one_mul (a * a)] at hwords
    exact not_inRange ha (.inl rfl) hwords
  | succ r hr ih =>
    obtain ⟨k, rfl⟩ : ∃ k, r = k + 2 := ⟨r - 2, by omega⟩
    intro hexp
    by_cases hrest : ∃ i j : Fin (k + 2), M i.succ j.succ = a
    · have hblock : (minusX M).submatrix Fin.succ (Fin.succAbove 0) = minusX (M.submatrix Fin.succ Fin.succ) := by
        ext1 x y
        rw [Matrix.submatrix_apply, Fin.succAbove_zero, minusX_apply, minusX_apply, Matrix.submatrix_apply]
        exact congrArg _ (if_congr (Fin.succ_inj) rfl rfl)
      have hexp' := (hexp 0).1
      rw [hblock] at hexp'
      exact ih (fun i => hself i.succ) (fun i j => hsymm i.succ j.succ)
          (fun i j l => htrans i.succ j.succ l.succ) hrest hexp'
    · push Not at hrest
      have hfirst : M 0 1 = a := by
        by_contra hnear
        have hzero : ∀ i, M 0 i ≠ a := by
          intro i
          rcases Fin.eq_zero_or_eq_succ i with rfl | ⟨i, rfl⟩
          · exact hself 0
          · exact htrans 0 1 i.succ hnear (hrest 0 i)
        obtain ⟨i, j, hij⟩ := hfar
        refine htrans i 0 j (fun h => hzero i ((hsymm 0 i).trans h)) (hzero j) hij
      have hwords := (hexp 1).2.1 (k + 1)
      have hsign : C ((-1) ^ ((1 : Fin (k + 3)) : ℕ) * a) = (-1 : ℤ[X]) ^ ((1 : Fin (k + 3)) : ℕ) * C a := by
        rw [C_mul, C_pow, C_neg, C_1]
      rw [term, minusX_apply, if_neg Fin.zero_ne_one, sub_zero, hfirst, ← hsign, coeff_C_mul,
        coeff_minor, hsymm 1 0, hfirst] at hwords
      have heq : (-1) ^ ((1 : Fin (k + 3)) : ℕ) * a * (a * (-1) ^ (k + 1)) =
          (-1) ^ (((1 : Fin (k + 3)) : ℕ) + (k + 1)) * (a * a) := by
        rw [pow_add]
        ring
      rw [heq] at hwords
      exact not_inRange ha (neg_one_pow_eq_or ℤ _) hwords

end Far

end OpenSM.LashMesh
