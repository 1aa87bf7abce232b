import Mathlib
import OpenSM.Lib.Lowest

/-! Link rates of `osm_helper.c` and `ib_types.h`: their order, the next lower rate, and the ways a
rate is cut down before it goes into a path record. -/

namespace OpenSM.SaPath

def minRate : ℕ := 2
def maxRate : ℕ := 24

def rateIsValid (r : ℕ) : Prop := minRate ≤ r ∧ r ≤ maxRate

instance : DecidablePred rateIsValid := fun _ => inferInstanceAs (Decidable (_ ∧ _))

def orderedRates : List ℕ :=
  [0, 0, 1, 3, 6, 2, 5, 9, 10, 13, 14, 4, 12, 16, 17, 7, 15, 18, 19, 8, 11, 20, 21, 22, 23]

/-- The place of a rate in the order of `ib_path_compare_rates`, 0 beyond the table. -/
def rateOrder (r : ℕ) : ℕ := if r ≤ maxRate then orderedRates.getD r 0 else 0

def pathCompareRates (r r' : ℕ) : Ordering := compare (rateOrder r) (rateOrder r')

def findOrderedRate (o : ℕ) : ℕ :=
  ((List.range' minRate (maxRate + 1 - minRate)).find? fun i => rateOrder i = o).getD 0

def pathRateGetPrev (r : ℕ) : ℕ :=
  if r ≤ minRate then 0
  else if maxRate < r then 0
  else findOrderedRate (rateOrder r - 1)

/-- The loop of `ib_path_get_reduced_rate` at the rate of order `o`: each round goes one order
down. -/
def reduceFrom (limit : ℕ) : ℕ → ℕ
  | 0 => 0
  | o + 1 =>
    if minRate < findOrderedRate (o + 1) ∧ (rateOrder limit < o + 1 ∨ limit < findOrderedRate (o + 1))
    then reduceFrom limit o
    else findOrderedRate (o + 1)

def pathGetReducedRate (r limit : ℕ) : ℕ :=
  let i := reduceFrom limit (rateOrder (pathRateGetPrev r))
  if i ≠ 0 then i else minRate

structure PortInfo where
  mtuCap : ℕ
  linkWidthActive : ℕ
  linkSpeed : ℕ
  linkSpeedExt : ℕ
  /-- `IB_PORT_CAP_HAS_EXT_SPEEDS`. -/
  extSpeeds : Bool
  /-- `IB_PORT_CAP_HAS_CAP_MASK2`, and three bits of that mask. -/
  capMask2 : Bool
  linkWidth2x : Bool
  linkSpeedHdr : Bool
  linkSpeedNdr : Bool

namespace PortInfo

def getMtuCap (pi : PortInfo) : ℕ := pi.mtuCap % 16

def getLinkSpeedActive (pi : PortInfo) : ℕ := pi.linkSpeed / 16 % 16

def getLinkSpeedExtActive (pi : PortInfo) : ℕ := pi.linkSpeedExt / 16 % 16

/-- The rate of a speed at width 1X, 4X, 8X, 12X and 2X; any other width counts as 1X. -/
def byWidth (width r1 r4 r8 r12 r2 : ℕ) : ℕ :=
  match width with
  | 1 => r1
  | 2 => r4
  | 4 => r8
  | 8 => r12
  | 16 => r2
  | _ => r1

def extendedRate (pi : PortInfo) : ℕ :=
  match pi.getLinkSpeedExtActive with
  | 1 => byWidth pi.linkWidthActive 11 12 13 14 19
  | 2 => byWidth pi.linkWidthActive 15 16 17 18 20
  | 4 => byWidth pi.linkWidthActive 20 17 21 22 16
  | 8 => byWidth pi.linkWidthActive 16 21 23 24 17
  | _ => 0

def computeRate (pi : PortInfo) (extended : Bool) : ℕ :=
  if extended ∧ pi.extendedRate ≠ 0 then pi.extendedRate
  else
    match pi.getLinkSpeedActive with
    | 1 => byWidth pi.linkWidthActive 2 3 6 4 5
    | 2 => byWidth pi.linkWidthActive 5 6 7 8 3
    | 4 => byWidth pi.linkWidthActive 3 7 9 10 6
    | _ => 2

def rate2xHdrFixups (pi : PortInfo) (r : ℕ) : ℕ :=
  match r with
  | 19 =>
    if ¬pi.capMask2 ∨ ¬pi.linkWidth2x then if pi.extSpeeds then 15 else 6 else r
  | 20 =>
    if ¬pi.capMask2 ∨ (¬pi.linkWidth2x ∧ ¬pi.linkSpeedHdr) then 7 else r
  | 21 | 22 =>
    if ¬pi.capMask2 ∨ ¬(pi.linkSpeedHdr ∨ pi.linkSpeedNdr) then 18 else r
  | 23 | 24 =>
    if ¬pi.capMask2 ∨ ¬pi.linkSpeedNdr then
      -- without the second capability mask HDR counts as supported
      if pi.capMask2 ∧ ¬pi.linkSpeedHdr then 18 else 22
    else r
  | _ => r

end PortInfo

lemma rateOrder_pos {r : ℕ} (h : rateIsValid r) : 0 < rateOrder r := by
  obtain ⟨h2, h24⟩ := h
  rw [minRate] at h2
  rw [maxRate] at h24
  interval_cases r <;> decide

lemma rateIsValid_of_pos {r : ℕ} (h : 0 < rateOrder r) : rateIsValid r := by
  rw [rateOrder] at h
  split_ifs at h with hr
  · refine ⟨?_, hr⟩
    by_contra hlt
    rw [minRate, not_le] at hlt
    interval_cases r <;> exact absurd h (by decide)
  · exact absurd h (lt_irrefl 0)

lemma findOrderedRate_rateOrder {r : ℕ} (h : rateIsValid r) : findOrderedRate (rateOrder r) = r := by
  obtain ⟨h2, h24⟩ := h
  rw [minRate] at h2
  rw [maxRate] at h24
  interval_cases r <;> decide

lemma rateOrder_inj {r r' : ℕ} (h : rateIsValid r) (h' : rateIsValid r')
    (ho : rateOrder r = rateOrder r') : r = r' := by
  rw [← findOrderedRate_rateOrder h, ← findOrderedRate_rateOrder h', ho]

lemma pathCompareRates_ne_gt {r r' : ℕ} :
    pathCompareRates r r' ≠ .gt ↔ rateOrder r ≤ rateOrder r' := by
  rw [pathCompareRates, Ne, compare_gt_iff_gt, not_lt]

lemma rateOrder_findOrderedRate {o : ℕ} (h : findOrderedRate o ≠ 0) :
    rateOrder (findOrderedRate o) = o := by
  rw [findOrderedRate] at h ⊢
  cases hf : (List.range' minRate (maxRate + 1 - minRate)).find? fun i => rateOrder i = o with
  | none => simp [hf] at h
  | some i => simpa using List.find?_some hf

lemma rateOrder_findOrderedRate_le (o : ℕ) : rateOrder (findOrderedRate o) ≤ o := by
  by_cases h : findOrderedRate o = 0
  · rw [h]
    exact Nat.zero_le o
  · exact (rateOrder_findOrderedRate h).le

lemma rateOrder_pathRateGetPrev_le (r : ℕ) : rateOrder (pathRateGetPrev r) ≤ rateOrder r - 1 := by
  rw [pathRateGetPrev]
  split_ifs
  · exact Nat.zero_le _
  · exact Nat.zero_le _
  · exact rateOrder_findOrderedRate_le _

lemma rateOrder_reduceFrom_le (limit o : ℕ) : rateOrder (reduceFrom limit o) ≤ o := by
  induction o with
  | zero => exact le_rfl
  | succ o ih =>
    rw [reduceFrom]
    split_ifs
    · exact ih.trans (Nat.le_succ o)
    · exact rateOrder_findOrderedRate_le _

lemma pathGetReducedRate_spec {r : ℕ} (h : rateIsValid r) (limit : ℕ) :
    rateIsValid (pathGetReducedRate r limit) ∧
      rateOrder (pathGetReducedRate r limit) ≤ rateOrder r := by
  have hlow : rateOrder (reduceFrom limit (rateOrder (pathRateGetPrev r))) ≤ rateOrder r :=
    (rateOrder_reduceFrom_le _ _).trans ((rateOrder_pathRateGetPrev_le r).trans (Nat.sub_le _ 1))
  have hfrom : ∀ o, reduceFrom limit o ≠ 0 → rateIsValid (reduceFrom limit o) := by
    intro o
    induction o with
    | zero => exact fun h0 => absurd rfl h0
    | succ o ih =>
      rw [reduceFrom]
      split_ifs
      · exact ih
      · intro h0
        apply rateIsValid_of_pos
        rw [rateOrder_findOrderedRate h0]
        exact Nat.succ_pos o
  simp only [pathGetReducedRate]
  split_ifs with h0
  · exact ⟨hfrom _ h0, hlow⟩
  · exact ⟨by decide, rateOrder_pos h⟩

namespace PortInfo

variable (pi : PortInfo)

lemma byWidth_mem (width r1 r4 r8 r12 r2 : ℕ) :
    byWidth width r1 r4 r8 r12 r2 ∈ [r1, r4, r8, r12, r2] := by
  unfold byWidth
  split <;> simp

lemma valid_byWidth {width r1 r4 r8 r12 r2 : ℕ} (h : ∀ r ∈ [r1, r4, r8, r12, r2], rateIsValid r) :
    rateIsValid (byWidth width r1 r4 r8 r12 r2) :=
  h _ (byWidth_mem _ _ _ _ _ _)

lemma valid_extendedRate (h : pi.extendedRate ≠ 0) : rateIsValid pi.extendedRate := by
  unfold extendedRate at h ⊢
  split at h
  iterate 4 exact valid_byWidth (by decide)
  exact absurd rfl h

lemma valid_computeRate (extended : Bool) : rateIsValid (pi.computeRate extended) := by
  rw [computeRate]
  split_ifs with h
  · exact valid_extendedRate pi h.2
  · split
    iterate 3 exact valid_byWidth (by decide)
    decide

lemma rate2xHdrFixups_spec {r : ℕ} (h : rateIsValid r) :
    rateIsValid (pi.rate2xHdrFixups r) ∧ rateOrder (pi.rate2xHdrFixups r) ≤ rateOrder r := by
  unfold rate2xHdrFixups
  split
  case h_7 => exact ⟨h, le_rfl⟩
  all_goals split_ifs <;> first | exact ⟨h, le_rfl⟩ | decide

end PortInfo

end OpenSM.SaPath
