import OpenSM.QosRanges

/-! The reduced ranges cover what the ranges of the file cover, and the search in them finds it. -/

namespace OpenSM.QosRanges

open Lib.Intervals

variable {arr arr' l : List Range} {p q cur : Range} {num : UInt64} {k n : ℕ} {z : Reduce}

def Proper (l : List Range) : Prop := ∀ r ∈ l, r.1 ≤ r.2

section Order

lemma cmpNumRange_le : cmpNumRange p q ≤ 0 ↔
    p.1.toNat < q.1.toNat ∨ p.1.toNat = q.1.toNat ∧ p.2.toNat ≤ q.2.toNat := by
  simp only [cmpNumRange, gt_iff_lt, UInt64.lt_iff_toNat_lt]
  split_ifs <;> omega

lemma qsort_perm : (qsort arr).Perm arr := List.mergeSort_perm _ _

lemma qsort_sorted : (qsort arr).Pairwise fun p q => p.1.toNat ≤ q.1.toNat := by
  refine (List.pairwise_mergeSort (fun a b c hab hbc => ?_) (fun a b => ?_) arr).imp fun {p q} hpq => ?_
  · rw [decide_eq_true_iff, cmpNumRange_le] at *
    omega
  · rw [Bool.or_eq_true, decide_eq_true_iff, decide_eq_true_iff, cmpNumRange_le, cmpNumRange_le]
    omega
  · rw [decide_eq_true_iff, cmpNumRange_le] at hpq
    omega

end Order

section Reduce

variable {α : Type}

lemma getElem?_middle (a b : List α) (y : α) : (a ++ y :: b)[a.length]? = some y := by simp

lemma set_middle (a b : List α) (y y' : α) : (a ++ y :: b).set a.length y' = a ++ y' :: b := by simp

def picks (arr : List (Option Range)) (flags : List Bool) : List (Option Range) :=
  ((arr.zip flags).filter Prod.snd).map Prod.fst

lemma picks_append {a b : List (Option Range)} {f g : List Bool} (h : a.length = f.length) :
    picks (a ++ b) (f ++ g) = picks a f ++ picks b g := by
  rw [picks, picks, picks, List.zip_append h, List.filter_append, List.map_append]

lemma picks_replicate (k : ℕ) : picks (List.replicate k none) (List.replicate k false) = [] := by
  rw [picks, List.zip_replicate', List.filter_eq_nil_iff.mpr, List.map_nil]
  intro x hx
  rw [List.eq_of_mem_replicate hx]
  exact Bool.false_ne_true

/-- In the middle of the reduction: `acc` is finished, `cur` is the last valid pair with `k` freed ones behind
it, and `rest` has not been looked at. -/
structure Middle (front : List (Option Range)) (flags : List Bool) (acc : List Range) (cur : Range) (k : ℕ)
    (rest : List Range) (z : Reduce) : Prop where
  length : front.length = flags.length
  arr : z.arr = (front ++ some cur :: List.replicate k none) ++ rest.map some
  valid : ∃ junk, z.isValidArr = (flags ++ true :: List.replicate k false) ++ junk ∧ junk.length = rest.length
  last : z.lastValidInd = front.length
  picks : picks front flags = acc.map some
  cnt : z.validCnt = acc.length + 1

variable {front : List (Option Range)} {flags : List Bool} {acc rest : List Range}

lemma middle_length (front : List (Option Range)) (k : ℕ) :
    (front ++ some cur :: List.replicate k none).length = front.length + 1 + k := by
  rw [List.length_append, List.length_cons, List.length_replicate]
  omega

lemma Middle.merge (h : Middle front flags acc cur k (p :: rest) z) (cur' : Range) :
    Middle front flags acc cur' (k + 1) rest { z with
      arr := (z.arr.set z.lastValidInd (some cur')).set (front.length + 1 + k) none
      isValidArr := z.isValidArr.set (front.length + 1 + k) false } := by
  obtain ⟨junk, hvalid, hjunk⟩ := h.valid
  obtain ⟨b, junk, rfl⟩ : ∃ b junk', junk = b :: junk' :=
      List.exists_cons_of_length_pos (by rw [hjunk]; exact Nat.succ_pos _)
  have hflags : (flags ++ true :: List.replicate k false).length = front.length + 1 + k := by
    rw [List.length_append, List.length_cons, List.length_replicate, h.length]
    omega
  refine ⟨h.length, ?_, ⟨junk, ?_, Nat.succ.inj hjunk⟩, h.last, h.picks, h.cnt⟩
  · dsimp only
    rw [h.last, h.arr, List.append_assoc, List.cons_append, set_middle, List.map_cons, ← List.cons_append,
      ← List.append_assoc, ← @middle_length cur' front k, set_middle, List.replicate_succ', List.append_assoc,
      List.append_assoc]
    rw [List.cons_append, List.cons_append, List.append_assoc]
    rfl
  · dsimp only
    rw [hvalid, ← hflags, set_middle, List.replicate_succ', List.append_assoc, List.append_assoc]
    rw [List.cons_append, List.cons_append, List.append_assoc]
    rfl

lemma Middle.next (h : Middle front flags acc cur k (p :: rest) z) :
    Middle (front ++ some cur :: List.replicate k none) (flags ++ true :: List.replicate k false)
        (acc ++ [cur]) p 0 rest
      { z with
        isValidArr := z.isValidArr.set (front.length + 1 + k) true
        lastValidInd := front.length + 1 + k
        validCnt := z.validCnt + 1 } := by
  obtain ⟨junk, hvalid, hjunk⟩ := h.valid
  obtain ⟨b, junk, rfl⟩ : ∃ b junk', junk = b :: junk' :=
      List.exists_cons_of_length_pos (by rw [hjunk]; exact Nat.succ_pos _)
  have hflags : (flags ++ true :: List.replicate k false).length = front.length + 1 + k := by
    rw [List.length_append, List.length_cons, List.length_replicate, h.length]
    omega
  refine ⟨(middle_length front k).trans hflags.symm, ?_, ⟨junk, ?_, Nat.succ.inj hjunk⟩,
      (middle_length front k).symm, ?_, ?_⟩
  · dsimp only
    rw [h.arr, List.map_cons, List.append_assoc, List.append_assoc, List.append_assoc]
    rfl
  · dsimp only
    rw [hvalid, ← hflags, set_middle, List.append_assoc, List.append_assoc, List.append_assoc]
    rfl
  · rw [picks_append h.length, h.picks, List.map_append]
    change _ ++ some cur :: QosRanges.picks (List.replicate k none) (List.replicate k false) = _
    rw [picks_replicate]
    rfl
  · rw [h.cnt, List.length_append, List.length_singleton]

lemma Middle.getElem (h : Middle front flags acc cur k (p :: rest) z) :
    z.arr[front.length + 1 + k]?.join = some p ∧ z.arr[z.lastValidInd]?.join = some cur := by
  constructor
  · rw [h.arr, ← @middle_length cur front k, List.map_cons, getElem?_middle]
    rfl
  · rw [h.last, h.arr, List.append_assoc, List.cons_append, getElem?_middle]
    rfl

lemma Middle.step_touch (h : Middle front flags acc cur k (p :: rest) z) (hp : p.1 ≤ p.2)
    (htouch : p.nat.1 ≤ cur.nat.2 + 1) :
    ∃ cur' z', z.step (front.length + 1 + k) = some z' ∧ Middle front flags acc cur' (k + 1) rest z' ∧
      cur'.nat = (cur.nat.1, max cur.nat.2 p.nat.2) := by
  obtain ⟨hget, hlast⟩ := h.getElem
  rw [UInt64.le_iff_toNat_le] at hp
  simp only [Range.nat] at htouch ⊢
  simp only [Reduce.step, hget, hlast, Option.bind_eq_bind, Option.bind_some]
  by_cases hle : p.1 ≤ cur.2
  · rw [if_pos hle]
    by_cases hgt : p.2 > cur.2
    · rw [if_pos hgt]
      refine ⟨_, _, rfl, h.merge (cur.1, p.2), ?_⟩
      rw [gt_iff_lt, UInt64.lt_iff_toNat_lt] at hgt
      rw [max_eq_right hgt.le]
    · rw [if_neg hgt]
      have hsame : z.arr.set z.lastValidInd (some cur) = z.arr := by
        rw [h.last, h.arr, List.append_assoc, List.cons_append, set_middle]
      have hmerge := h.merge cur
      rw [hsame] at hmerge
      refine ⟨_, _, rfl, hmerge, ?_⟩
      rw [gt_iff_lt, UInt64.lt_iff_toNat_lt, not_lt] at hgt
      rw [max_eq_left hgt]
  · rw [if_neg hle]
    rw [UInt64.le_iff_toNat_le, not_le] at hle
    have hone : (1 : UInt64) ≤ p.1 := by
      rw [UInt64.le_iff_toNat_le]
      exact (Nat.zero_le _).trans_lt hle
    have hadj : p.1 - 1 = cur.2 := by
      rw [← UInt64.toNat_inj, UInt64.toNat_sub_of_le _ _ hone]
      change p.1.toNat - 1 = _
      omega
    rw [if_pos hadj]
    refine ⟨_, _, rfl, h.merge (cur.1, p.2), ?_⟩
    rw [max_eq_right (by omega)]

lemma Middle.step_apart (h : Middle front flags acc cur k (p :: rest) z) (htouch : ¬p.nat.1 ≤ cur.nat.2 + 1) :
    z.step (front.length + 1 + k) = some { z with
      isValidArr := z.isValidArr.set (front.length + 1 + k) true
      lastValidInd := front.length + 1 + k
      validCnt := z.validCnt + 1 } := by
  obtain ⟨hget, hlast⟩ := h.getElem
  simp only [Range.nat] at htouch
  have hle : ¬p.1 ≤ cur.2 := by
    rw [UInt64.le_iff_toNat_le]
    omega
  have hone : (1 : UInt64) ≤ p.1 := by
    rw [UInt64.le_iff_toNat_le]
    change 1 ≤ _
    omega
  have hadj : ¬p.1 - 1 = cur.2 := by
    rw [← UInt64.toNat_inj, UInt64.toNat_sub_of_le _ _ hone]
    change ¬p.1.toNat - 1 = _
    omega
  simp only [Reduce.step, hget, hlast, Option.bind_eq_bind, Option.bind_some, if_neg hle, if_neg hadj]

lemma Middle.loop (h : Middle front flags acc cur k rest z) (hproper : Proper rest) :
    ∃ z' out, (List.range' (front.length + 1 + k) rest.length).foldlM Reduce.step z = some z' ∧
      z'.valid = (acc ++ out).map some ∧ z'.validCnt = (acc ++ out).length ∧
      out.map Range.nat = coalesce cur.nat (rest.map Range.nat) := by
  induction rest generalizing front flags acc cur k z with
  | nil =>
    obtain ⟨junk, hvalid, hjunk⟩ := h.valid
    obtain rfl := List.length_eq_zero_iff.mp hjunk
    refine ⟨z, [cur], rfl, ?_, ?_, rfl⟩
    · change QosRanges.picks z.arr z.isValidArr = _
      rw [h.arr, hvalid, List.map_nil, List.append_nil, List.append_nil, picks_append h.length, h.picks,
          List.map_append]
      change _ ++ some cur :: QosRanges.picks (List.replicate k none) (List.replicate k false) = _
      rw [picks_replicate]
      rfl
    · rw [h.cnt, List.length_append, List.length_singleton]
  | cons p rest ih =>
    obtain ⟨hp, hrest⟩ := List.forall_mem_cons.mp hproper
    rw [List.length_cons, List.range'_succ, List.foldlM_cons, List.map_cons, coalesce]
    by_cases htouch : p.nat.1 ≤ cur.nat.2 + 1
    · obtain ⟨cur', z₁, hstep, hmid, hcur'⟩ := h.step_touch hp htouch
      rw [if_pos htouch, hstep, ← hcur']
      exact ih hmid hrest
    · obtain ⟨z', out, hrun, hvalid, hcnt, hout⟩ := ih h.next hrest
      rw [if_neg htouch, h.step_apart htouch]
      rw [middle_length, Nat.add_zero] at hrun
      rw [List.append_assoc] at hvalid hcnt
      exact ⟨z', cur :: out, hrun, hvalid, hcnt, by rw [List.map_cons, hout]⟩

lemma mapM_some (l : List Range) : (l.map some).mapM id = some l := by
  induction l with
  | nil => rfl
  | cons r l ih =>
    rw [List.map_cons, List.mapM_cons, ih]
    rfl

/-- The result covers what its ranges cover, in order and with gaps. -/
lemma sortReduceRangearr_spec (hne : l ≠ []) (hproper : Proper l) :
    ∃ arr, sortReduceRangearr l = some arr ∧ arr ≠ [] ∧ Separated (arr.map Range.nat) ∧
      ∀ n, InUnion (arr.map Range.nat) n ↔ InUnion (l.map Range.nat) n := by
  have hperm := @qsort_perm l
  have hsorted := @qsort_sorted l
  have hproper' : Proper (qsort l) := fun r hr => hproper r (hperm.mem_iff.mp hr)
  cases hq : qsort l with
  | nil =>
    rw [hq] at hperm
    exact absurd hperm.symm.eq_nil hne
  | cons cur rest =>
    rw [hq] at hperm hsorted hproper'
    have hstart : Middle [] [] [] cur 0 rest ⟨(cur :: rest).map some,
        true :: List.replicate rest.length false, 0, 1⟩ :=
      ⟨rfl, rfl, ⟨_, rfl, List.length_replicate⟩, rfl, rfl, rfl⟩
    obtain ⟨z, out, hrun, hvalid, hcnt, hout⟩ := hstart.loop (List.forall_mem_cons.mp hproper').2
    have hnat : ((cur :: rest).map Range.nat).Pairwise fun r s => r.1 ≤ s.1 := by
      rw [List.pairwise_map]
      exact hsorted
    have hpnat : ∀ r ∈ (cur :: rest).map Range.nat, r.1 ≤ r.2 := by
      intro r hr
      obtain ⟨r', hr', rfl⟩ := List.mem_map.mp hr
      exact UInt64.le_iff_toNat_le.mp (hproper' r' hr')
    refine ⟨out, ?_, ?_, ?_, fun n => ?_⟩
    · rw [List.nil_append] at hvalid hcnt
      have hlen : z.valid.length = z.validCnt := by rw [hvalid, hcnt, List.length_map]
      rw [sortReduceRangearr]
      simp only [hq, List.length_cons, Nat.add_sub_cancel, reduceCtorEq, if_false]
      rw [show List.range' 1 rest.length = List.range' (([] : List (Option Range)).length + 1 + 0)
          rest.length from rfl, hrun]
      simp only [Option.bind_eq_bind, Option.bind_some, hlen, if_true]
      rw [hvalid, mapM_some]
    · rintro rfl
      exact coalesce_ne_nil hout.symm
    · rw [hout]
      exact separated_coalesce hpnat hnat
    · rw [hout, inUnion_coalesce (List.forall_mem_cons.mp hpnat).2 hnat]
      exact inUnion_perm (hperm.map Range.nat)

end Reduce

section Find

lemma inUnion_iff : InUnion (arr.map Range.nat) n ↔
    ∃ i, ∃ h : i < arr.length, arr[i].1.toNat ≤ n ∧ n ≤ arr[i].2.toNat := by
  rw [InUnion]
  constructor
  · rintro ⟨r, hr, hn⟩
    obtain ⟨r', hr', rfl⟩ := List.mem_map.mp hr
    obtain ⟨i, hi, rfl⟩ := List.getElem_of_mem hr'
    exact ⟨i, hi, hn⟩
  · rintro ⟨i, hi, hn⟩
    exact ⟨_, List.mem_map_of_mem (List.getElem_mem hi), hn⟩

lemma separated_lt (h : Separated (arr.map Range.nat)) {i j : ℕ} (hij : i < j) (hj : j < arr.length) :
    arr[i].2.toNat + 1 < arr[j].1.toNat := by
  have hlt := h.lt hij (by rwa [List.length_map])
  rwa [List.getElem_map, List.getElem_map] at hlt

lemma separated_le (h : Separated (arr.map Range.nat)) {i : ℕ} (hi : i < arr.length) :
    arr[i].1.toNat ≤ arr[i].2.toNat := h.proper _ (List.mem_map_of_mem (List.getElem_mem hi))

lemma separated_mono (h : Separated (arr.map Range.nat)) {i j : ℕ} (hij : i ≤ j) (hj : j < arr.length) :
    arr[i].1.toNat ≤ arr[j].1.toNat ∧ arr[i].2.toNat ≤ arr[j].2.toNat := by
  rcases hij.eq_or_lt with rfl | hlt
  · exact ⟨le_rfl, le_rfl⟩
  · have hgap := separated_lt h hlt hj
    have hi := separated_le h (hlt.trans hj)
    have hj' := separated_le h hj
    omega

/-- Between two bounds that hold every range with the number, the search ends with the right answer. -/
lemma narrow_spec (h : Separated (arr.map Range.nat)) {ind₁ ind₂ : ℕ} (hin : ind₁ ≤ ind₂ → ind₂ < arr.length)
    (hall : ∀ i, ∀ hi : i < arr.length, arr[i].1.toNat ≤ num.toNat → num.toNat ≤ arr[i].2.toNat →
    ind₁ ≤ i ∧ i ≤ ind₂) :
    ∃ b, narrow arr num ind₁ ind₂ = some b ∧ (b = true ↔ InUnion (arr.map Range.nat) num.toNat) := by
  induction hd : ind₂ + 1 - ind₁ using Nat.strong_induction_on generalizing ind₁ ind₂ with
  | _ d ih =>
    rw [inUnion_iff]
    rw [narrow]
    by_cases hle : ind₁ ≤ ind₂
    · have h₂ := hin hle
      have h₁ : ind₁ < arr.length := hle.trans_lt h₂
      rw [dif_pos hle, List.getElem?_eq_getElem h₁, List.getElem?_eq_getElem h₂]
      simp only [Option.bind_eq_bind, Option.bind_some, gt_iff_lt, ge_iff_le, UInt64.lt_iff_toNat_lt,
        UInt64.le_iff_toNat_le]
      by_cases hout : num.toNat < arr[ind₁].1.toNat ∨ arr[ind₂].2.toNat < num.toNat
      · rw [if_pos hout]
        refine ⟨false, rfl, iff_of_false Bool.false_ne_true ?_⟩
        rintro ⟨i, hi, hlo, hhi⟩
        obtain ⟨hi₁, hi₂⟩ := hall i hi hlo hhi
        have hfirst := (separated_mono h hi₁ hi).1
        have hsecond := (separated_mono h hi₂ h₂).2
        omega
      · rw [if_neg hout]
        push Not at hout
        by_cases hend : num.toNat ≤ arr[ind₁].2.toNat ∨ arr[ind₂].1.toNat ≤ num.toNat
        · rw [if_pos hend]
          refine ⟨true, rfl, iff_of_true rfl ?_⟩
          rcases hend with hend | hend
          · exact ⟨ind₁, h₁, hout.1, hend⟩
          · exact ⟨ind₂, h₂, hend, hout.2⟩
        · rw [if_neg hend]
          push Not at hend
          have hlt : ind₁ < ind₂ := by
            refine lt_of_le_of_ne hle fun heq => ?_
            subst heq
            exact absurd (hend.1.trans hend.2) (not_lt.mpr (separated_le h h₁))
          obtain ⟨mid, hmid⟩ : ∃ mid, mid = ind₁ + (ind₂ - ind₁ + 1) / 2 := ⟨_, rfl⟩
          have hm : mid < arr.length := by omega
          rw [← hmid, List.getElem?_eq_getElem hm]
          simp only [Option.bind_some]
          by_cases hlow : num.toNat < arr[mid].1.toNat
          · rw [if_pos hlow, if_neg (by omega)]
            rw [← inUnion_iff]
            refine ih _ (by omega) (fun _ => by omega) (fun i hi hlo hhi => ?_) rfl
            obtain ⟨hi₁, hi₂⟩ := hall i hi hlo hhi
            have hne : i ≠ ind₁ := by
              rintro rfl
              exact absurd hend.1 (not_lt.mpr hhi)
            have hbelow : i < mid := by
              by_contra hge
              exact absurd ((separated_mono h (not_lt.mp hge) hi).1.trans hlo) (not_le.mpr hlow)
            omega
          · rw [if_neg hlow]
            by_cases hhigh : arr[mid].2.toNat < num.toNat
            · rw [if_pos hhigh, if_neg (by omega)]
              rw [← inUnion_iff]
              refine ih _ (by omega) (fun _ => by omega) (fun i hi hlo hhi => ?_) rfl
              obtain ⟨hi₁, hi₂⟩ := hall i hi hlo hhi
              have hne : i ≠ ind₂ := by
                rintro rfl
                exact absurd hend.2 (not_lt.mpr hlo)
              have habove : mid < i := by
                by_contra hge
                exact absurd (hhi.trans (separated_mono h (not_lt.mp hge) hm).2) (not_le.mpr hhigh)
              omega
            · rw [if_neg hhigh]
              exact ⟨true, rfl, iff_of_true rfl ⟨mid, hm, not_lt.mp hlow, not_lt.mp hhigh⟩⟩
    · rw [dif_neg hle]
      refine ⟨false, rfl, iff_of_false Bool.false_ne_true ?_⟩
      rintro ⟨i, hi, hlo, hhi⟩
      obtain ⟨hi₁, hi₂⟩ := hall i hi hlo hhi
      omega

lemma isNumInRangeArr_spec (h : Separated (arr.map Range.nat)) :
    ∃ b, isNumInRangeArr arr num = some b ∧ (b = true ↔ InUnion (arr.map Range.nat) num.toNat) := by
  rw [isNumInRangeArr]
  split_ifs with hnil
  · refine ⟨false, rfl, iff_of_false Bool.false_ne_true ?_⟩
    rintro ⟨r, hr, -⟩
    rw [hnil] at hr
    cases hr
  · have hpos := List.length_pos_iff.mpr hnil
    exact narrow_spec h (fun _ => by omega) fun i hi _ _ => by omega

end Find

end OpenSM.QosRanges
