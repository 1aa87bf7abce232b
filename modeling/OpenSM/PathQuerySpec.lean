import OpenSM.PathQuery

/-! Which records a PathRecord query collects. -/

namespace OpenSM.SaPath

open Lib

section LidPairs

variable {α : Type} {path : ℕ → ℕ → ℕ → Option α}

/-- The pairs of offsets behind the pair `(i, j)`, with `a` more rows and `b` more columns. -/
def restPairs (n i j a b : ℕ) : List (ℕ × ℕ) :=
  (List.range' (j + 1) b).map (i, ·) ++ (List.range' (i + 1) a).flatMap fun i => (List.range n).map (i, ·)

lemma restPairs_column (n i j a b : ℕ) : restPairs n i j a (b + 1) = (i, j + 1) :: restPairs n i (j + 1) a b := rfl

lemma restPairs_row (n i j a : ℕ) :
    restPairs (n + 1) i j (a + 1) 0 = (i + 1, 0) :: restPairs (n + 1) (i + 1) 0 a n := by
  simp [restPairs, List.range'_succ, List.range_eq_range']

lemma cons_restPairs (a b : ℕ) : (0, 0) :: restPairs (b + 1) 0 0 a b = List.range (a + 1) ×ˢ
    List.range (b + 1) := by
  simp [restPairs, List.range_eq_range', List.range'_succ, SProd.sprod, List.product]

def visit (path : ℕ → ℕ → ℕ → Option α) (srcMin destMin : ℕ) (v : ℕ × ℕ) : Option α :=
  if v.1 = v.2 then none else path (srcMin + v.1) (destMin + v.2) 2

lemma visitRest_eq {l : List α} {srcMin destMin slid dlid i j : ℕ} (hs : srcMin + i = slid)
    (hd : destMin + j = dlid) :
    visitRest path l slid dlid i j = l ++ (visit path srcMin destMin (i, j)).toList := by
  subst hs hd
  rw [visitRest, visit]
  split_ifs <;> simp

lemma length_toList_le {o : Option α} : o.toList.length ≤ 1 := by cases o <;> simp

lemma filterMap_cons_toList {β : Type} (f : β → Option α) (b : β) (l : List β) :
    (b :: l).filterMap f = (f b).toList ++ l.filterMap f := by
  cases h : f b <;> simp [h]

lemma diagLoop_eq {srcMax destMax iterations fuel slid dlid : ℕ} {l : List α} (hs : slid ≤ srcMax)
    (hd : dlid ≤ destMax) (hfuel : srcMax + 1 - slid ≤ fuel) (hl : l.length ≤ iterations) :
    diagLoop path srcMax destMax iterations fuel l slid dlid =
      (l ++ (List.range (min (srcMax + 1 - slid) (destMax + 1 - dlid))).filterMap fun i =>
        path (slid + i) (dlid + i) 0).take iterations := by
  induction fuel generalizing l slid dlid with
  | zero => omega
  | succ fuel ih =>
    rw [diagLoop]
    by_cases hlt : l.length < iterations
    · have hlen : (l ++ (path slid dlid 0).toList).length ≤ iterations := by
        rw [List.length_append]
        have hone := @length_toList_le _ (path slid dlid 0)
        omega
      obtain ⟨n, hn⟩ : ∃ n, min (srcMax + 1 - slid) (destMax + 1 - dlid) = n + 1 :=
          ⟨_, (Nat.succ_pred (by omega)).symm⟩
      have hmore : ∀ i, path (slid + (i + 1)) (dlid + (i + 1)) 0 = path (slid + 1 + i) (dlid + 1 + i) 0 := by
        intro i
        rw [Nat.add_assoc, Nat.add_comm 1 i, Nat.add_assoc, Nat.add_comm 1 i]
      rw [if_pos hlt, hn, List.range_succ_eq_map, filterMap_cons_toList, List.filterMap_map, ← List.append_assoc]
      simp only [Function.comp_def, Nat.succ_eq_add_one, hmore, Nat.add_zero]
      split_ifs with hsrc hdest
      · obtain rfl : n = 0 := by omega
        rw [List.range_zero, List.filterMap_nil, List.append_nil, List.take_of_length_le hlen]
      · obtain rfl : n = 0 := by omega
        rw [List.range_zero, List.filterMap_nil, List.append_nil, List.take_of_length_le hlen]
      · rw [ih (by omega) (by omega) (by omega) hlen]
        congr 4
        omega
    · rw [if_neg hlt, List.take_left' (by omega)]

lemma restLoop_eq {srcMin destMin a b n i j iterations fuel : ℕ} {l : List α} (hj : j + b = n)
    (hfuel : a * (n + 1) + b < fuel) (hl : l.length ≤ iterations) :
    restLoop path destMin (srcMin + i + a) (destMin + n) iterations fuel l (srcMin + i) (destMin + j) i j =
      (l ++ (restPairs (n + 1) i j a b).filterMap (visit path srcMin destMin)).take iterations := by
  induction fuel generalizing l i j a b with
  | zero => omega
  | succ fuel ih =>
    rw [restLoop]
    by_cases hlt : l.length < iterations
    · have hlen : ∀ v, (l ++ (visit path srcMin destMin v).toList).length ≤ iterations := by
        intro v
        rw [List.length_append]
        have hone := @length_toList_le _ (visit path srcMin destMin v)
        omega
      rw [if_pos hlt]
      cases b with
      | succ b =>
        rw [if_neg (by omega), restPairs_column, filterMap_cons_toList, ← List.append_assoc]
        have hnext := @ih a b i (j + 1) _ (by omega) (by omega) (hlen (i, j + 1))
        rwa [visitRest_eq rfl (Nat.add_assoc destMin j 1).symm]
      | zero =>
        rw [if_pos (by omega)]
        cases a with
        | zero =>
          rw [if_pos (by omega)]
          simp [restPairs, List.take_of_length_le hl]
        | succ a =>
          rw [if_neg (by omega), restPairs_row, filterMap_cons_toList, ← List.append_assoc]
          have hnext := @ih a n (i + 1) 0 _ (by omega) (by
            rw [Nat.succ_mul] at hfuel
            omega) (hlen (i + 1, 0))
          rw [visitRest_eq (Nat.add_assoc srcMin i 1).symm (Nat.add_zero destMin)]
          rwa [Nat.add_zero, ← Nat.add_assoc srcMin i 1, Nat.add_right_comm (srcMin + i) 1 a] at hnext
    · rw [if_neg hlt, List.take_left' (by omega)]

def lidVisits (a b : ℕ) : List (ℕ × ℕ × ℕ) :=
  (List.range (min (a + 1) (b + 1))).map (fun i => (i, i, 0)) ++
    ((restPairs (b + 1) 0 0 a b).filter fun v => v.1 ≠ v.2).map fun v => (v.1, v.2, 2)

lemma lidPairPaths_eq (srcMin destMin a b iterations : ℕ) :
    lidPairPaths path srcMin (srcMin + a) destMin (destMin + b) iterations =
      ((lidVisits a b).filterMap fun v => path (srcMin + v.1) (destMin + v.2.1) v.2.2).take iterations := by
  have hdiag := @diagLoop_eq _ path (srcMin + a) (destMin + b) iterations (srcMin + a + 1 - srcMin)
    srcMin destMin [] (by omega) (by omega) le_rfl (Nat.zero_le _)
  have hcount : srcMin + a + 1 - srcMin = a + 1 ∧ destMin + b + 1 - destMin = b + 1 := by omega
  rw [hcount.1, hcount.2, List.nil_append] at hdiag
  have hvisit : (((restPairs (b + 1) 0 0 a b).filter fun v => v.1 ≠ v.2).map fun v => (v.1, v.2, 2)).filterMap
      (fun v : ℕ × ℕ × ℕ => path (srcMin + v.1) (destMin + v.2.1) v.2.2) =
      (restPairs (b + 1) 0 0 a b).filterMap (visit path srcMin destMin) := by
    rw [List.filterMap_map, List.filterMap_filter]
    refine List.filterMap_congr fun v _ => ?_
    simp only [visit, Function.comp_apply]
    split_ifs with hv hv <;> simp_all
  rw [lidVisits, List.filterMap_append, hvisit, List.filterMap_map, lidPairPaths, hcount.1, hcount.2, hdiag]
  simp only [Function.comp_def]
  generalize ((List.range (min (a + 1) (b + 1))).filterMap fun i => path (srcMin + i) (destMin + i) 0) = l
  split_ifs with hlen
  · rw [List.take_append_of_le_length (by
      rw [List.length_take] at hlen
      omega)]
  · have hrest := @restLoop_eq _ path srcMin destMin a b b 0 0 iterations ((a + 1) * (b + 1)) (l.take iterations)
      (by omega) (by rw [Nat.succ_mul]; omega) (List.length_take_le _ _)
    rw [List.length_take] at hlen
    rw [List.take_of_length_le (by omega)] at hrest ⊢
    exact hrest

lemma mem_lidVisits {a b i j : ℕ} : (∃ pref, (i, j, pref) ∈ lidVisits a b) ↔ i ≤ a ∧ j ≤ b := by
  have hrest : i ≠ j → ((i, j) ∈ restPairs (b + 1) 0 0 a b ↔ i ≤ a ∧ j ≤ b) := by
    intro hij
    have hzero : (i, j) ≠ (0, 0) := fun h => hij (by rw [(Prod.mk.inj h).1, (Prod.mk.inj h).2])
    rw [← (List.mem_cons.trans (or_iff_right hzero)), cons_restPairs, List.mem_product, List.mem_range,
        List.mem_range]
    omega
  simp only [lidVisits, List.mem_append, List.mem_map, List.mem_range, List.mem_filter, Prod.mk.injEq]
  by_cases hij : i = j
  · subst hij
    refine ⟨?_, fun h => ⟨0, .inl ⟨i, by omega, rfl, rfl, rfl⟩⟩⟩
    rintro ⟨pref, ⟨k, hk, rfl, -, -⟩ | ⟨v, hv, rfl, h, -⟩⟩
    · omega
    · simp [h] at hv
  · rw [← hrest hij]
    refine ⟨?_, fun h => ⟨2, .inr ⟨(i, j), ⟨h, by simpa using hij⟩, rfl, rfl, rfl⟩⟩⟩
    rintro ⟨pref, ⟨k, hk, hki, hkj, -⟩ | ⟨v, hv, rfl, rfl, -⟩⟩
    · exact absurd (hki.symm.trans hkj) hij
    · exact hv.1

lemma lidVisits_distinct (a b : ℕ) : (lidVisits a b).Pairwise fun v w => (v.1, v.2.1) ≠ (w.1, w.2.1) := by
  have hnodup : (restPairs (b + 1) 0 0 a b).Nodup := by
    have hall : ((0, 0) :: restPairs (b + 1) 0 0 a b).Nodup := by
      rw [cons_restPairs]
      exact List.nodup_range.product List.nodup_range
    exact hall.of_cons
  rw [lidVisits, List.pairwise_append, List.pairwise_map, List.pairwise_map]
  refine ⟨List.nodup_range.imp fun h he => h (Prod.mk.inj he).1, hnodup.filter _, ?_⟩
  rintro v hv w hw he
  obtain ⟨i, -, rfl⟩ := List.mem_map.mp hv
  obtain ⟨u, hu, rfl⟩ := List.mem_map.mp hw
  have hne : ¬u.1 = u.2 := by simpa using (List.mem_filter.mp hu).2
  have heq := Prod.mk.inj he
  exact hne (heq.1.symm.trans heq.2)

lemma length_lidVisits_le (a b : ℕ) : (lidVisits a b).length ≤ (a + 1) * (b + 1) := by
  have hnodup : ((lidVisits a b).map fun v => (v.1, v.2.1)).Nodup := List.pairwise_map.mpr (lidVisits_distinct a b)
  have hsub : ((lidVisits a b).map fun v => (v.1, v.2.1)) ⊆ List.range (a + 1) ×ˢ List.range (b + 1) := by
    intro p hp
    obtain ⟨⟨i, j, pref⟩, hv, rfl⟩ := List.mem_map.mp hp
    have hin := mem_lidVisits.mp ⟨pref, hv⟩
    exact List.mem_product.mpr ⟨List.mem_range.mpr (Nat.lt_succ_of_le hin.1),
        List.mem_range.mpr (Nat.lt_succ_of_le hin.2)⟩
  have hlen := (hnodup.subperm hsub).length_le
  rwa [List.length_map, List.length_product, List.length_range, List.length_range] at hlen

variable {srcMin srcMax destMin destMax iterations : ℕ} (hsrc : srcMin ≤ srcMax) (hdest : destMin ≤ destMax)

def InRange (lo hi lid : ℕ) : Prop := lo ≤ lid ∧ lid ≤ hi

include hsrc hdest

lemma lidPairPaths_take : lidPairPaths path srcMin srcMax destMin destMax iterations =
    ((lidVisits (srcMax - srcMin) (destMax - destMin)).filterMap fun v =>
      path (srcMin + v.1) (destMin + v.2.1) v.2.2).take iterations := by
  obtain ⟨a, rfl⟩ := Nat.exists_eq_add_of_le hsrc
  obtain ⟨b, rfl⟩ := Nat.exists_eq_add_of_le hdest
  rw [lidPairPaths_eq, Nat.add_sub_cancel_left, Nat.add_sub_cancel_left]

lemma length_lidPairPaths_le :
    (lidPairPaths path srcMin srcMax destMin destMax iterations).length ≤ iterations := by
  rw [lidPairPaths_take hsrc hdest]
  exact List.length_take_le _ _

lemma mem_lidPairPaths {r : α} (h : r ∈ lidPairPaths path srcMin srcMax destMin destMax iterations) :
    ∃ slid dlid pref, InRange srcMin srcMax slid ∧ InRange destMin destMax dlid ∧
        path slid dlid pref = some r := by
  rw [lidPairPaths_take hsrc hdest] at h
  obtain ⟨⟨i, j, pref⟩, hv, hr⟩ := List.mem_filterMap.mp (List.mem_of_mem_take h)
  have hin := mem_lidVisits.mp ⟨pref, hv⟩
  have hs : srcMin + i ≤ srcMax := by omega
  have hd : destMin + j ≤ destMax := by omega
  exact ⟨_, _, _, ⟨Nat.le_add_right _ _, hs⟩, ⟨Nat.le_add_right _ _, hd⟩, hr⟩

lemma lidPairPaths_distinct {key : α → ℕ × ℕ}
    (hkey : ∀ slid dlid pref r, path slid dlid pref = some r → key r = (slid, dlid)) :
    (lidPairPaths path srcMin srcMax destMin destMax iterations).Pairwise fun r r' => key r ≠ key r' := by
  rw [lidPairPaths_take hsrc hdest]
  refine List.Pairwise.sublist (List.take_sublist _ _) (List.pairwise_filterMap.mpr ?_)
  refine (lidVisits_distinct _ _).imp fun hne r hr r' hr' he => hne ?_
  rw [hkey _ _ _ _ hr, hkey _ _ _ _ hr'] at he
  obtain ⟨hs, hd⟩ := Prod.mk.inj he
  rw [Nat.add_left_cancel hs, Nat.add_left_cancel hd]

lemma lidPairPaths_complete (hall : (srcMax - srcMin + 1) * (destMax - destMin + 1) ≤ iterations)
    {slid dlid : ℕ} (hs : InRange srcMin srcMax slid) (hd : InRange destMin destMax dlid)
    (hsome : ∀ pref, ∃ r, path slid dlid pref = some r) :
    ∃ pref r, path slid dlid pref = some r ∧ r ∈ lidPairPaths path srcMin srcMax destMin destMax iterations := by
  obtain ⟨pref, hv⟩ := mem_lidVisits.mpr ⟨Nat.sub_le_sub_right hs.2 srcMin, Nat.sub_le_sub_right hd.2 destMin⟩
  obtain ⟨r, hr⟩ := hsome pref
  refine ⟨pref, r, hr, ?_⟩
  rw [lidPairPaths_take hsrc hdest, List.take_of_length_le]
  · refine List.mem_filterMap.mpr ⟨_, hv, ?_⟩
    rw [Nat.add_sub_cancel' hs.1, Nat.add_sub_cancel' hd.1, hr]
  · exact (List.length_filterMap_le _ _).trans ((length_lidVisits_le _ _).trans hall)

lemma lidPairPaths_ne_nil (hpos : 0 < iterations)
    (hpref : ∀ slid dlid pref, (path slid dlid pref).isSome = (path slid dlid 0).isSome) :
    lidPairPaths path srcMin srcMax destMin destMax iterations ≠ [] ↔
      ∃ slid dlid, InRange srcMin srcMax slid ∧ InRange destMin destMax dlid ∧
          (path slid dlid 0).isSome = true := by
  refine ⟨fun h => ?_, ?_⟩
  · obtain ⟨r, hr⟩ := List.exists_mem_of_ne_nil _ h
    obtain ⟨slid, dlid, pref, hs, hd, hr⟩ := mem_lidPairPaths hsrc hdest hr
    exact ⟨slid, dlid, hs, hd, by rw [← hpref slid dlid pref, hr, Option.isSome_some]⟩
  · rintro ⟨slid, dlid, hs, hd, hsome⟩ hnil
    obtain ⟨pref, hv⟩ := mem_lidVisits.mpr ⟨Nat.sub_le_sub_right hs.2 srcMin, Nat.sub_le_sub_right hd.2 destMin⟩
    rw [lidPairPaths_take hsrc hdest, List.take_eq_nil_iff, or_iff_right hpos.ne'] at hnil
    have hnone := List.filterMap_eq_nil_iff.mp hnil _ hv
    rw [Nat.add_sub_cancel' hs.1, Nat.add_sub_cancel' hd.1] at hnone
    rw [← hpref slid dlid pref, hnone] at hsome
    cases hsome

end LidPairs

section Pair

variable {N : Type} [DecidableEq N] {s : Subn N} {T : PathTables N} {q : PathQuery}

lemma lidPairPath_some {req : Req} {src dest : AliasGuid s} {sgid dgid : Option Gid}
    {slid dlid pref : ℕ} {r : PathRec}
    (h : prRcvGetLidPairPath s req src dest sgid dgid slid dlid pref = some r) :
    (r.slid, r.dlid) = (slid, dlid) ∧ r.sgid = sgid.getD ⟨s.subnetPrefix src.basePort, src.aliasGuid⟩ ∧
      r.dgid = dgid.getD ⟨s.subnetPrefix dest.basePort, dest.aliasGuid⟩ := by
  unfold prRcvGetLidPairPath at h
  cases hp : prRcvGetPathParms s req src slid dest dlid with
  | error e => simp [hp] at h
  | ok parms =>
    simp only [hp] at h
    split_ifs at h
    obtain rfl := Option.some.inj h
    exact ⟨rfl, rfl, rfl⟩

lemma isSome_lidPairPath (req : Req) (src dest : AliasGuid s) (sgid dgid : Option Gid) (slid dlid pref : ℕ) :
    (prRcvGetLidPairPath s req src dest sgid dgid slid dlid pref).isSome =
      (prRcvGetLidPairPath s req src dest none none slid dlid 0).isSome := by
  unfold prRcvGetLidPairPath
  cases prRcvGetPathParms s req src slid dest dlid with
  | error e => rfl
  | ok parms =>
    dsimp only
    split_ifs <;> rfl

omit [DecidableEq N] in
lemma lidRange_le (given : Option ℕ) (p : Physp N) : (lidRange T given p).1 ≤ (lidRange T given p).2 := by
  cases given with
  | some lid => exact le_rfl
  | none =>
    have hpos := Nat.two_pow_pos (T.lids.lmc p)
    simp only [lidRange, Lids.maxLid]
    omega

omit [DecidableEq N] in
lemma lidRange_count (given : Option ℕ) (p : Physp N) :
    (lidRange T given p).2 - (lidRange T given p).1 + 1 ≤ 0xC000 := by
  cases given with
  | some lid => simp [lidRange]
  | none =>
    have hpos := Nat.two_pow_pos (T.lids.lmc p)
    have hle := T.lids.le p
    simp only [lidRange, Lids.maxLid]
    omega

variable (T q) in
/-- A source LID and a destination LID between which a path is on offer: the three ports share P_Keys, the LIDs
are those of the query or of the ports, and there is a path. -/
structure Offered (req : Physp N) (src dest : AliasGuid T.subn) (slid dlid : ℕ) : Prop where
  share : threeSharePkey T req src dest = true
  src_ne : (srcLids T q src).1 ≠ 0
  dest_ne : (destLids T q dest).1 ≠ 0
  src_mem : InRange (srcLids T q src).1 (srcLids T q src).2 slid
  dest_mem : InRange (destLids T q dest).1 (destLids T q dest).2 dlid
  path : (prRcvGetLidPairPath T.subn q.req.req src dest none none slid dlid 0).isSome = true

variable {req : Physp N} {src dest : AliasGuid T.subn} {sgid dgid : Option Gid}

lemma Offered.paths {slid dlid : ℕ} (h : Offered T q req src dest slid dlid) (sgid dgid : Option Gid) :
    prRcvGetPortPairPaths T q req sgid dgid src dest =
      lidPairPaths (prRcvGetLidPairPath T.subn q.req.req src dest sgid dgid) (srcLids T q src).1
          (srcLids T q src).2
        (destLids T q dest).1 (destLids T q dest).2 q.iterations := by
  rw [prRcvGetPortPairPaths, if_neg (not_not.mpr h.share), if_neg h.src_ne, if_neg h.dest_ne]

lemma portPairPaths_cases :
    prRcvGetPortPairPaths T q req sgid dgid src dest = [] ∨
      (threeSharePkey T req src dest = true ∧ (srcLids T q src).1 ≠ 0 ∧ (destLids T q dest).1 ≠ 0 ∧
        prRcvGetPortPairPaths T q req sgid dgid src dest =
          lidPairPaths (prRcvGetLidPairPath T.subn q.req.req src dest sgid dgid) (srcLids T q src).1
            (srcLids T q src).2 (destLids T q dest).1 (destLids T q dest).2 q.iterations) := by
  unfold prRcvGetPortPairPaths
  by_cases hshare : threeSharePkey T req src dest = true
  · rw [if_neg (not_not.mpr hshare)]
    split_ifs with hsrc hdest
    · exact .inl rfl
    · exact .inl rfl
    · exact .inr ⟨hshare, hsrc, hdest, rfl⟩
  · exact .inl (if_pos hshare)

lemma length_portPairPaths_le : (prRcvGetPortPairPaths T q req sgid dgid src dest).length ≤ q.iterations := by
  rcases @portPairPaths_cases _ _ T q req src dest sgid dgid with h | ⟨-, -, -, h⟩
  · rw [h]
    exact Nat.zero_le _
  · rw [h]
    exact length_lidPairPaths_le (lidRange_le _ _) (lidRange_le _ _)

lemma mem_portPairPaths {r : PathRec} (h : r ∈ prRcvGetPortPairPaths T q req sgid dgid src dest) :
    Offered T q req src dest r.slid r.dlid ∧
      r.sgid = sgid.getD ⟨T.subn.subnetPrefix src.basePort, src.aliasGuid⟩ ∧
      r.dgid = dgid.getD ⟨T.subn.subnetPrefix dest.basePort, dest.aliasGuid⟩ := by
  rcases @portPairPaths_cases _ _ T q req src dest sgid dgid with hp | ⟨hshare, hsrc, hdest, hp⟩
  · rw [hp] at h
    cases h
  · rw [hp] at h
    obtain ⟨slid, dlid, pref, hs, hd, hr⟩ := mem_lidPairPaths (lidRange_le _ _) (lidRange_le _ _) h
    obtain ⟨hlids, hgids⟩ := lidPairPath_some hr
    obtain ⟨rfl, rfl⟩ := Prod.mk.inj hlids
    refine ⟨⟨hshare, hsrc, hdest, hs, hd, ?_⟩, hgids⟩
    rw [← isSome_lidPairPath _ _ _ sgid dgid _ _ pref, hr, Option.isSome_some]

lemma portPairPaths_distinct :
    (prRcvGetPortPairPaths T q req sgid dgid src dest).Pairwise fun r r' =>
      (r.slid, r.dlid) ≠ (r'.slid, r'.dlid) := by
  rcases @portPairPaths_cases _ _ T q req src dest sgid dgid with h | ⟨-, -, -, h⟩
  · rw [h]
    exact .nil
  · rw [h]
    exact lidPairPaths_distinct (lidRange_le _ _) (lidRange_le _ _) fun _ _ _ _ hr => (lidPairPath_some hr).1

lemma Offered.mem {slid dlid : ℕ} (h : Offered T q req src dest slid dlid) (hall : q.iterations = 2 ^ 32 - 1) :
    ∃ r ∈ prRcvGetPortPairPaths T q req sgid dgid src dest, r.slid = slid ∧ r.dlid = dlid := by
  rw [h.paths]
  have hcount : ((srcLids T q src).2 - (srcLids T q src).1 + 1) *
      ((destLids T q dest).2 - (destLids T q dest).1 + 1) ≤
      q.iterations := by
    rw [hall]
    exact (Nat.mul_le_mul (lidRange_count _ _) (lidRange_count _ _)).trans (by decide)
  have hsome : ∀ pref, ∃ r, prRcvGetLidPairPath T.subn q.req.req src dest sgid dgid slid dlid pref = some r := by
    intro pref
    apply Option.isSome_iff_exists.mp
    rw [isSome_lidPairPath]
    exact h.path
  obtain ⟨pref, r, hr, hmem⟩ := lidPairPaths_complete (lidRange_le _ _) (lidRange_le _ _) hcount h.src_mem
      h.dest_mem hsome
  obtain ⟨hs, hd⟩ := Prod.mk.inj (lidPairPath_some hr).1
  exact ⟨r, hmem, hs, hd⟩

variable (T q) in
def HasPath (req : Physp N) (src dest : AliasGuid T.subn) : Prop := ∃ slid dlid, Offered T q req src dest slid dlid

lemma portPairPaths_ne_nil (hpos : 0 < q.iterations) :
    prRcvGetPortPairPaths T q req sgid dgid src dest ≠ [] ↔ HasPath T q req src dest := by
  refine ⟨fun h => ?_, ?_⟩
  · obtain ⟨r, hr⟩ := List.exists_mem_of_ne_nil _ h
    exact ⟨_, _, (mem_portPairPaths hr).1⟩
  · rintro ⟨slid, dlid, h⟩
    rw [h.paths]
    refine (lidPairPaths_ne_nil (lidRange_le _ _) (lidRange_le _ _) hpos fun slid dlid pref => ?_).mpr
      ⟨slid, dlid, h.src_mem, h.dest_mem, ?_⟩
    · rw [isSome_lidPairPath, isSome_lidPairPath _ _ _ sgid dgid _ _ 0]
    · rw [isSome_lidPairPath]
      exact h.path

end Pair

section Loops

variable {α β : Type}

attribute [local simp] tableLoop

lemma tableLoop_all {f : β → List α → List α} {g : β → List α} (hf : ∀ b l, f b l = l ++ g b) (tbl : List β)
    (l : List α) : tableLoop false f tbl l = l ++ tbl.flatMap g := by
  induction tbl generalizing l with
  | nil => rw [List.flatMap_nil, List.append_nil, tableLoop]
  | cons b tbl ih =>
    rw [tableLoop, List.flatMap_cons, ← List.append_assoc, ← hf, ← ih]
    simp

lemma tableLoop_one {P : List α → Prop} {f : β → List α → List α} (hnil : P []) (hf : ∀ b, P (f b []))
    (tbl : List β) :
    P (tableLoop true f tbl []) := by
  induction tbl with
  | nil => exact hnil
  | cons b tbl ih =>
    rw [tableLoop]
    by_cases hb : f b [] = []
    · simp only [hb, ne_eq, not_true_eq_false, and_false, if_false]
      exact ih
    · simp only [ne_eq, hb, not_false_eq_true, and_self, if_true]
      exact hf b

lemma tableLoop_one_ne_nil {f : β → List α → List α} (tbl : List β) :
    tableLoop true f tbl [] ≠ [] ↔ ∃ b ∈ tbl, f b [] ≠ [] := by
  induction tbl with
  | nil => simp [tableLoop]
  | cons b tbl ih =>
    rw [tableLoop]
    by_cases hb : f b [] = []
    · simp [hb, ih]
    · simp [hb]

lemma tableLoop_one_cons {f : β → List α → List α} {g : β → List α} (hf : ∀ b l, f b l = l ++ g b) {l : List α}
    (hl : l ≠ []) (b : β) (tbl : List β) : tableLoop true f (b :: tbl) l = l ++ g b := by
  simp [tableLoop, hf, hl]

variable {f : β → List α → List α} {here later : β → Prop}

lemma tableLoop_more (hlater : ∀ b l, l ≠ [] → (f b l = l ∧ ¬later b) ∨ (l.length < (f b l).length ∧ later b))
    (tbl : List β) {l : List α} (hl : l ≠ []) :
    l.length ≤ (tableLoop false f tbl l).length ∧
      ((tableLoop false f tbl l).length ≤ l.length ↔ ∀ b ∈ tbl, ¬later b) := by
  induction tbl generalizing l with
  | nil => simp [tableLoop]
  | cons b tbl ih =>
    have hstep : tableLoop false f (b :: tbl) l = tableLoop false f tbl (f b l) := by simp [tableLoop]
    rw [hstep, List.forall_mem_cons]
    rcases hlater b l hl with ⟨hsame, hno⟩ | ⟨hlt, hyes⟩
    · rw [hsame]
      obtain ⟨hle, hiff⟩ := ih hl
      exact ⟨hle, hiff.trans (and_iff_right hno).symm⟩
    · have hle := (ih (List.ne_nil_of_length_pos (by omega) : f b l ≠ [])).1
      exact ⟨by omega, iff_of_false (by omega) fun h => h.1 hyes⟩

lemma length_tableLoop_le_one (hnil : ∀ b, (f b []).length ≤ 1) (hhere : ∀ b, f b [] ≠ [] ↔ here b)
    (hlater : ∀ b l, l ≠ [] → (f b l = l ∧ ¬later b) ∨ (l.length < (f b l).length ∧ later b)) (tbl : List β) :
    (tableLoop false f tbl []).length ≤ 1 ↔ tbl.Pairwise fun a c => ¬(here a ∧ later c) := by
  induction tbl with
  | nil => simp [tableLoop]
  | cons b tbl ih =>
    have hstep : tableLoop false f (b :: tbl) [] = tableLoop false f tbl (f b []) := by simp [tableLoop]
    rw [hstep, List.pairwise_cons]
    by_cases hb : here b
    · have hne := (hhere b).mpr hb
      have hone : (f b []).length = 1 := le_antisymm (hnil b) (List.length_pos_of_ne_nil hne)
      have hmore := (tableLoop_more hlater tbl hne).2
      rw [hone] at hmore
      rw [hmore]
      refine ⟨fun h => ⟨fun c hc hboth => h c hc hboth.2, ?_⟩, fun h c hc hl => h.1 c hc ⟨hb, hl⟩⟩
      exact List.pairwise_of_forall_mem_list fun a _ c hc hboth => h c hc hboth.2
    · rw [not_not.mp (mt (hhere b).mp hb), ih]
      exact ⟨fun h => ⟨fun c _ hboth => hb hboth.1, h⟩, And.right⟩

end Loops

section Dispatch

variable {N : Type} [DecidableEq N] {T : PathTables N} {q : PathQuery} {req : Physp N} {e : EndPoints T}

def Meets {α : Type} (o : Option α) (a : α) : Prop := ∀ b, o = some b → a = b

@[simp] lemma meets_none {α : Type} (a : α) : Meets none a := fun _ h => by cases h

@[simp] lemma meets_some {α : Type} (a b : α) : Meets (some b) a ↔ a = b :=
  ⟨fun h => h b rfl, fun h _ hc => h.trans (Option.some.inj hc)⟩

variable (T) in
def aliasesAt (a : Option (AliasGuid T.subn)) (p : Option (Physp N)) : List (AliasGuid T.subn) :=
  match a, p with
  | some a, _ => [a]
  | none, some p => T.aliasTbl.filter fun a => a.basePort = p
  | none, none => T.aliasTbl

lemma mem_aliasesAt {a : Option (AliasGuid T.subn)} {p : Option (Physp N)} (ha : ∀ b, a = some b → b ∈ T.aliasTbl)
    (hp : portsDiffer T a p = false) {b : AliasGuid T.subn} :
    b ∈ aliasesAt T a p ↔ b ∈ T.aliasTbl ∧ Meets a b ∧ Meets p b.basePort := by
  cases a with
  | some a =>
    have hport : Meets p a.basePort := by
      cases p with
      | none => exact meets_none _
      | some p => simpa [portsDiffer] using hp
    simp only [aliasesAt, List.mem_singleton, meets_some]
    refine ⟨?_, fun h => h.2.1⟩
    rintro rfl
    exact ⟨ha b rfl, rfl, hport⟩
  | none =>
    cases p <;> simp [aliasesAt]

omit [DecidableEq N] in
lemma nodup_aliasTbl : T.aliasTbl.Nodup := T.sorted.imp fun h he => absurd (he ▸ h) (lt_irrefl _)

lemma nodup_aliasesAt (a : Option (AliasGuid T.subn)) (p : Option (Physp N)) : (aliasesAt T a p).Nodup := by
  cases a with
  | some a => exact List.nodup_singleton a
  | none =>
    cases p with
    | none => exact nodup_aliasTbl
    | some p => exact nodup_aliasTbl.filter _

variable (T q req) in
def pairRecs (sgid dgid : Option Gid) (v : AliasGuid T.subn × AliasGuid T.subn) : List (Found T.subn) :=
  (prRcvGetPortPairPaths T q req sgid dgid v.1 v.2).map fun r => ⟨some v, r⟩

lemma aliasesOf_all {α : Type} {p : Physp N} {f : AliasGuid T.subn → List α → List α}
    {g : AliasGuid T.subn → List α}
    (hf : ∀ a l, f a l = l ++ g a) (l : List α) :
    aliasesOf T false p f l = l ++ (T.aliasTbl.filter fun a => a.basePort = p).flatMap g := by
  have hif : ∀ a l, (if a.basePort = p then f a l else l) = l ++ if a.basePort = p then g a else [] := by
    intro a l
    split_ifs
    · exact hf a l
    · rw [List.append_nil]
  rw [aliasesOf, tableLoop_all hif]
  congr 1
  induction T.aliasTbl with
  | nil => rfl
  | cons a tbl ih => by_cases ha : a.basePort = p <;> simp [ha, ih]

lemma halfSrc_all (hone : q.one = false) (sgid dgid : Option Gid) (src : AliasGuid T.subn)
    (l : List (Found T.subn)) :
    prProcessHalfSrc T q req sgid dgid src l =
      l ++ T.aliasTbl.flatMap fun dest => pairRecs T q req sgid dgid (src, dest) := by
  rw [prProcessHalfSrc, hone]
  exact tableLoop_all (fun _ _ => rfl) _ _

lemma halfDest_all (hone : q.one = false) (sgid dgid : Option Gid) (dest : AliasGuid T.subn)
    (l : List (Found T.subn)) :
    prProcessHalfDest T q req sgid dgid dest l =
      l ++ T.aliasTbl.flatMap fun src => pairRecs T q req sgid dgid (src, dest) := by
  rw [prProcessHalfDest, hone]
  exact tableLoop_all (fun _ _ => rfl) _ _

lemma flatMap_product {α β γ : Type} (l : List α) (l' : List β) (f : α × β → List γ) :
    (l ×ˢ l').flatMap f = l.flatMap fun a => l'.flatMap fun b => f (a, b) := by
  simp [SProd.sprod, List.product, List.flatMap_assoc, List.flatMap_map]

/-- In a SubnAdmGetTable all pairs of aliases that may be the ends are gone through, in one order or the other. -/
lemma prDispatch_all (hone : q.one = false) :
    prDispatch T q req e =
        (aliasesAt T e.srcAlias e.srcPort ×ˢ aliasesAt T e.destAlias e.destPort).flatMap
          (pairRecs T q req e.sgid e.dgid) ∨
      prDispatch T q req e =
        (aliasesAt T e.destAlias e.destPort ×ˢ aliasesAt T e.srcAlias e.srcPort).flatMap fun v =>
          pairRecs T q req e.sgid e.dgid v.swap := by
  obtain ⟨srcAlias, destAlias, srcPort, destPort, sgid, dgid⟩ := e
  have hpair : ∀ src dest l, prProcessPair T q req sgid dgid src dest l = l ++ pairRecs T q req sgid dgid
      (src, dest) :=
    fun _ _ _ => rfl
  rw [flatMap_product, flatMap_product]
  unfold prDispatch
  rw [hone]
  cases srcAlias with
  | some src =>
    cases destAlias with
    | some dest => exact .inl (by simp [hpair, aliasesAt])
    | none =>
      cases destPort with
      | none => exact .inl (by simp [halfSrc_all hone, aliasesAt])
      | some p =>
        refine .inl ?_
        simp only [aliasesAt, List.flatMap_cons, List.flatMap_nil, List.append_nil]
        exact aliasesOf_all (hpair src) []
  | none =>
    cases destAlias with
    | some dest =>
      cases srcPort with
      | none => exact .inl (by simp [halfDest_all hone, aliasesAt])
      | some p =>
        refine .inl ?_
        simp only [aliasesAt, List.flatMap_cons, List.flatMap_nil, List.append_nil]
        exact aliasesOf_all (fun src l => hpair src dest l) []
    | none =>
      cases srcPort with
      | none =>
        cases destPort with
        | none =>
          refine .inr ?_
          simp only [prRcvProcessWorld, hone, aliasesAt]
          exact tableLoop_all (fun dest l => tableLoop_all (fun src l => hpair src dest l) _ l) _ []
        | some p =>
          refine .inr ?_
          simp only [aliasesAt]
          exact aliasesOf_all (halfDest_all hone sgid dgid) []
      | some p =>
        cases destPort with
        | none =>
          refine .inl ?_
          simp only [aliasesAt]
          exact aliasesOf_all (halfSrc_all hone sgid dgid) []
        | some p' =>
          refine .inl ?_
          simp only [aliasesAt]
          exact aliasesOf_all (fun src l => aliasesOf_all (hpair src) l) []

variable (T) in
/-- Behind an alias of the port that has a path there is none that has a path to the first alias of the table. -/
def Lone (path : AliasGuid T.subn → AliasGuid T.subn → Prop) (p : Physp N) : Prop :=
  T.aliasTbl.Pairwise fun a c =>
    ¬((a.basePort = p ∧ ∃ b ∈ T.aliasTbl, path a b) ∧ c.basePort = p ∧ ∃ b, T.aliasTbl.head? = some b ∧ path c b)

/-- The loop over the aliases of a port that goes on after the first record. -/
lemma aliasesOf_lone {α : Type} {path : AliasGuid T.subn → AliasGuid T.subn → Prop}
    {g : AliasGuid T.subn → AliasGuid T.subn → List α} (hone : ∀ a b, (g a b).length ≤ 1)
    (hpath : ∀ a b, g a b ≠ [] ↔ path a b) (p : Physp N) :
    (aliasesOf T false p (fun a => tableLoop true (fun b l => l ++ g a b) T.aliasTbl) []).length ≤ 1 ↔
      Lone T path p := by
  refine length_tableLoop_le_one (fun a => ?_) (fun a => ?_) (fun a l hl => ?_) T.aliasTbl
  · split_ifs
    · exact @tableLoop_one _ _ (fun l => l.length ≤ 1) _ (Nat.zero_le _) (hone a) _
    · exact Nat.zero_le _
  · split_ifs with ha
    · rw [tableLoop_one_ne_nil, and_iff_right ha]
      simp only [List.nil_append, hpath]
    · exact iff_of_false (fun h => h rfl) fun h => ha h.1
  · split_ifs with ha
    · cases htbl : T.aliasTbl with
      | nil => exact .inl ⟨rfl, by simp⟩
      | cons b tbl =>
        have hfirst : tableLoop true (fun b l => l ++ g a b) (b :: tbl) l = l ++ g a b :=
          tableLoop_one_cons (fun _ _ => rfl) hl b tbl
        dsimp only
        rw [hfirst]
        by_cases hb : g a b = []
        · refine .inl ⟨by rw [hb, List.append_nil], ?_⟩
          rintro ⟨-, b', hb', hp⟩
          obtain rfl := Option.some.inj hb'
          exact (hpath a b).mpr hp hb
        · refine .inr ⟨?_, ha, b, rfl, (hpath a b).mp hb⟩
          rw [List.length_append]
          exact Nat.lt_add_of_pos_right (List.length_pos_of_ne_nil hb)
    · exact .inl ⟨rfl, fun h => ha h.1⟩

variable (T q req) in
/-- Only the port of one end is known, and its aliases give more than one record. -/
def EndPoints.Lone (e : EndPoints T) : Prop :=
  e.srcAlias = none → e.destAlias = none →
    (∀ p, e.srcPort = some p → e.destPort = none → SaPath.Lone T (HasPath T q req) p) ∧
      ∀ p, e.destPort = some p → e.srcPort = none → SaPath.Lone T (fun a b => HasPath T q req b a) p

lemma prDispatch_get (hq : q.method = .get) : (prDispatch T q req e).length ≤ 1 ↔ e.Lone T q req := by
  have hone : q.one = true := by simp [PathQuery.one, hq]
  have hiter : q.iterations = 1 := by simp [PathQuery.iterations, hq]
  obtain ⟨srcAlias, destAlias, srcPort, destPort, sgid, dgid⟩ := e
  have hlen : ∀ v, (pairRecs T q req sgid dgid v).length ≤ 1 := by
    intro v
    rw [pairRecs, List.length_map, ← hiter]
    exact length_portPairPaths_le
  have hpath : ∀ v, pairRecs T q req sgid dgid v ≠ [] ↔ HasPath T q req v.1 v.2 := by
    intro v
    rw [pairRecs, ne_eq, List.map_eq_nil_iff]
    exact portPairPaths_ne_nil (by omega)
  have hpair : ∀ src dest, (prProcessPair T q req sgid dgid src dest []).length ≤ 1 :=
      fun src dest => hlen (src, dest)
  have hloop : ∀ {f : AliasGuid T.subn → List (Found T.subn) → List (Found T.subn)} (hf : ∀ a,
      (f a []).length ≤ 1),
      (tableLoop q.one f T.aliasTbl []).length ≤ 1 := by
    intro f hf
    rw [hone]
    exact @tableLoop_one _ _ (fun l => l.length ≤ 1) _ (Nat.zero_le _) hf _
  have hof : ∀ {f : AliasGuid T.subn → List (Found T.subn) → List (Found T.subn)} (hf : ∀ a,
      (f a []).length ≤ 1) p,
      (aliasesOf T q.one p f []).length ≤ 1 := by
    intro f hf p
    refine hloop fun a => ?_
    split_ifs
    · exact hf a
    · exact Nat.zero_le _
  unfold prDispatch EndPoints.Lone
  cases srcAlias with
  | some src =>
    refine iff_of_true ?_ (by rintro ⟨⟩)
    cases destAlias with
    | some dest => exact hpair src dest
    | none =>
      cases destPort with
      | none => exact hloop (hpair src)
      | some p => exact hof (hpair src) p
  | none =>
    cases destAlias with
    | some dest =>
      refine iff_of_true ?_ (by rintro - ⟨⟩)
      cases srcPort with
      | none => exact hloop fun src => hpair src dest
      | some p => exact hof (fun src => hpair src dest) p
    | none =>
      cases srcPort with
      | none =>
        cases destPort with
        | none =>
          exact iff_of_true (hloop fun dest => hloop fun src => hpair src dest)
              fun _ _ => ⟨by rintro _ ⟨⟩, by rintro _ ⟨⟩⟩
        | some p =>
          have hlone := aliasesOf_lone (fun a b => hlen (b, a)) (fun a b => hpath (b, a)) p
          rw [← hone] at hlone
          refine hlone.trans ⟨fun h _ _ => ⟨by rintro _ ⟨⟩, ?_⟩, fun h => (h rfl rfl).2 p rfl rfl⟩
          rintro _ ⟨⟩ -
          exact h
      | some p =>
        cases destPort with
        | none =>
          have hlone := aliasesOf_lone (fun a b => hlen (a, b)) (fun a b => hpath (a, b)) p
          rw [← hone] at hlone
          refine hlone.trans ⟨fun h _ _ => ⟨?_, by rintro _ ⟨⟩⟩, fun h => (h rfl rfl).1 p rfl rfl⟩
          rintro _ ⟨⟩ -
          exact h
        | some p' =>
          exact iff_of_true (hof (fun src => hof (hpair src) p') p) fun _ _ => ⟨by rintro _ - ⟨⟩, by rintro _ - ⟨⟩⟩

end Dispatch

section Ends

variable {N : Type} {T : PathTables N} {q : PathQuery}

lemma aliasGuid_inj {a b : AliasGuid T.subn} (ha : a ∈ T.aliasTbl) (hb : b ∈ T.aliasTbl)
    (h : a.aliasGuid = b.aliasGuid) : a = b := by
  have hnodup : (T.aliasTbl.map fun a => a.aliasGuid).Nodup := List.pairwise_map.mpr (T.sorted.imp ne_of_lt)
  exact List.inj_on_of_nodup_map hnodup ha hb h

lemma getAliasGuidByGuid_some {guid : ℕ} {a : AliasGuid T.subn} :
    getAliasGuidByGuid T guid = some a ↔ a ∈ T.aliasTbl ∧ a.aliasGuid = guid := by
  have hfound : ∀ {b}, getAliasGuidByGuid T guid = some b → b ∈ T.aliasTbl ∧ b.aliasGuid = guid :=
    fun hb => ⟨List.mem_of_find?_eq_some hb, by simpa using List.find?_some hb⟩
  refine ⟨hfound, fun ⟨ha, hguid⟩ => ?_⟩
  have hsome : (getAliasGuidByGuid T guid).isSome = true := List.find?_isSome.mpr ⟨a, ha, by simpa using hguid⟩
  obtain ⟨b, hb⟩ := Option.isSome_iff_exists.mp hsome
  rw [hb, aliasGuid_inj (hfound hb).1 ha ((hfound hb).2.trans hguid.symm)]

section EndPoint

variable {α : Type} {given : Bool} {found o : Option α}

lemma endPoint_some : endPoint given found = some o ↔
    (given = true ∧ ∃ a, found = some a ∧ o = some a) ∨ (given = false ∧ o = none) := by
  cases given <;> cases found <;> simp [endPoint, eq_comm]

lemma endPoint_none : endPoint given found = none ↔ given = true ∧ found = none := by
  cases given <;> cases found <;> simp [endPoint]

lemma endPoint_eq (h : endPoint given found = some o) :
    o = (if given then found else none) ∧ (o = none ↔ given = false) := by
  rcases endPoint_some.mp h with ⟨rfl, a, rfl, rfl⟩ | ⟨rfl, rfl⟩ <;> simp

lemma meets_endPoint (h : endPoint given found = some o) (a : α) : Meets o a ↔
    (given = true → found = some a) := by
  rcases endPoint_some.mp h with ⟨rfl, b, rfl, rfl⟩ | ⟨rfl, rfl⟩
  · simp [eq_comm]
  · simp

end EndPoint

variable (T q)

structure WantedSrc (a : AliasGuid T.subn) : Prop where
  sgid : q.has .sgid = true → sgidIsLocal T q = true ∧ a.aliasGuid = q.sgid.interfaceId
  slid : q.has .slid = true → T.subn.portByLid q.slid = some a.basePort

structure WantedDest (b : AliasGuid T.subn) : Prop where
  dgid : q.has .dgid = true → (dgidIsLocal T q = false → destGuid T q ≠ 0) ∧ b.aliasGuid = destGuid T q
  dlid : q.has .dlid = true → T.subn.portByLid q.dlid = some b.basePort

structure Ends (e : EndPoints T) : Prop where
  srcAlias : ∀ a, e.srcAlias = some a → a ∈ T.aliasTbl
  destAlias : ∀ b, e.destAlias = some b → b ∈ T.aliasTbl
  src : ∀ a ∈ T.aliasTbl, WantedSrc T q a ↔ Meets e.srcAlias a ∧ Meets e.srcPort a.basePort
  dest : ∀ b ∈ T.aliasTbl, WantedDest T q b ↔ Meets e.destAlias b ∧ Meets e.destPort b.basePort
  no_sgid : e.srcAlias = none ↔ q.has .sgid = false
  no_dgid : e.destAlias = none ↔ q.has .dgid = false
  srcPort : e.srcPort = if q.has .slid then T.subn.portByLid q.slid else none
  destPort : e.destPort = if q.has .dlid then T.subn.portByLid q.dlid else none
  slid : q.has .slid = true → e.srcPort ≠ none
  dlid : q.has .dlid = true → e.destPort ≠ none
  sgid : e.sgid = if q.has .sgid then some q.sgid else none
  dgid : e.dgid = if q.has .dgid ∧ ¬dgidIsLocal T q then some q.dgid else none

variable {T q}

lemma prGetEndPoints_some {e : EndPoints T} (h : prGetEndPoints T q = some e) : Ends T q e := by
  unfold prGetEndPoints at h
  by_cases hlocal : q.has .sgid = true ∧ ¬sgidIsLocal T q = true
  · rw [if_pos hlocal] at h
    cases h
  rw [if_neg hlocal] at h
  cases hsa : endPoint (q.has .sgid) (getAliasGuidByGuid T q.sgid.interfaceId) with
  | none => simp [hsa] at h
  | some srcAlias =>
  cases hsp : endPoint (q.has .slid) (T.subn.portByLid q.slid) with
  | none => simp [hsa, hsp] at h
  | some srcPort =>
  simp only [hsa, hsp] at h
  by_cases hrouter : q.has .dgid = true ∧ ¬dgidIsLocal T q = true ∧ destGuid T q = 0
  · rw [if_pos hrouter] at h
    cases h
  rw [if_neg hrouter] at h
  cases hda : endPoint (q.has .dgid) (getAliasGuidByGuid T (destGuid T q)) with
  | none => simp [hda] at h
  | some destAlias =>
  cases hdp : endPoint (q.has .dlid) (T.subn.portByLid q.dlid) with
  | none => simp [hda, hdp] at h
  | some destPort =>
  simp only [hda, hdp] at h
  obtain rfl := Option.some.inj h
  have hin : ∀ {given guid o}, endPoint given (getAliasGuidByGuid T guid) = some o → ∀ a, o = some a →
      a ∈ T.aliasTbl := by
    rintro given guid o ho a rfl
    rcases endPoint_some.mp ho with ⟨-, b, hb, hab⟩ | ⟨-, hab⟩
    · exact Option.some.inj hab ▸ (getAliasGuidByGuid_some.mp hb).1
    · cases hab
  refine {
    srcAlias := hin hsa
    destAlias := hin hda
    src := fun a ha => ?_
    dest := fun b hb => ?_
    no_sgid := (endPoint_eq hsa).2
    no_dgid := (endPoint_eq hda).2
    srcPort := (endPoint_eq hsp).1
    destPort := (endPoint_eq hdp).1
    slid := fun hs hnone => by simp [(endPoint_eq hsp).2.mp hnone] at hs
    dlid := fun hd hnone => by simp [(endPoint_eq hdp).2.mp hnone] at hd
    sgid := rfl
    dgid := rfl }
  · rw [meets_endPoint hsa, meets_endPoint hsp, getAliasGuidByGuid_some]
    refine ⟨fun hw => ⟨fun hs => ⟨ha, (hw.sgid hs).2⟩, hw.slid⟩, fun hm => ⟨fun hs => ⟨?_, (hm.1 hs).2⟩, hm.2⟩⟩
    by_contra hno
    exact hlocal ⟨hs, hno⟩
  · rw [meets_endPoint hda, meets_endPoint hdp, getAliasGuidByGuid_some]
    refine ⟨fun hw => ⟨fun hd => ⟨hb, (hw.dgid hd).2⟩, hw.dlid⟩,
      fun hm => ⟨fun hd => ⟨fun hoff hz => ?_, (hm.1 hd).2⟩, hm.2⟩⟩
    exact hrouter ⟨hd, by simp [hoff], hz⟩

lemma prGetEndPoints_exists
    (hsgid : q.has .sgid = true → sgidIsLocal T q = true ∧ ∃ a, getAliasGuidByGuid T q.sgid.interfaceId = some a)
    (hslid : q.has .slid = true → ∃ p, T.subn.portByLid q.slid = some p)
    (hdgid : q.has .dgid = true → (dgidIsLocal T q = false → destGuid T q ≠ 0) ∧
      ∃ b, getAliasGuidByGuid T (destGuid T q) = some b)
    (hdlid : q.has .dlid = true → ∃ p, T.subn.portByLid q.dlid = some p) : ∃ e, prGetEndPoints T q = some e := by
  have hpoint : ∀ {α : Type} {given : Bool} {found : Option α}, (given = true → ∃ a, found = some a) →
      ∃ o, endPoint given found = some o := by
    intro α given found hf
    cases ho : endPoint given found with
    | none =>
      obtain ⟨hg, hn⟩ := endPoint_none.mp ho
      obtain ⟨a, ha⟩ := hf hg
      rw [ha] at hn
      cases hn
    | some o => exact ⟨o, rfl⟩
  obtain ⟨sa, hsa⟩ := hpoint fun hs => (hsgid hs).2
  obtain ⟨sp, hsp⟩ := hpoint hslid
  obtain ⟨da, hda⟩ := hpoint fun hd => (hdgid hd).2
  obtain ⟨dp, hdp⟩ := hpoint hdlid
  unfold prGetEndPoints
  rw [if_neg fun hs => hs.2 (hsgid hs.1).1]
  simp only [hsa, hsp]
  rw [if_neg fun hd => (hdgid hd.1).1 (by simpa using hd.2.1) hd.2.2]
  simp only [hda, hdp]
  exact ⟨_, rfl⟩

lemma prGetEndPoints_wanted {a b : AliasGuid T.subn} (ha : a ∈ T.aliasTbl) (hb : b ∈ T.aliasTbl)
    (hsrc : WantedSrc T q a) (hdest : WantedDest T q b) : ∃ e, prGetEndPoints T q = some e :=
  prGetEndPoints_exists (fun hs => ⟨(hsrc.sgid hs).1, a, getAliasGuidByGuid_some.mpr ⟨ha, (hsrc.sgid hs).2⟩⟩)
    (fun hs => ⟨_, hsrc.slid hs⟩)
    (fun hd => ⟨(hdest.dgid hd).1, b, getAliasGuidByGuid_some.mpr ⟨hb, (hdest.dgid hd).2⟩⟩)
    fun hd => ⟨_, hdest.dlid hd⟩

end Ends

section Answer

variable {N : Type} [DecidableEq N]

def Found.key {s : Subn N} (f : Found s) : Option (ℕ × ℕ) := f.ends.map fun v => (v.1.aliasGuid, v.2.aliasGuid)

variable (T : PathTables N) (q : PathQuery)

/-- A record agrees with the ends that are given. A DGID of the subnet stands for its interface ID. -/
structure Agrees (r : PathRec) : Prop where
  sgid : q.has .sgid = true → r.sgid = q.sgid
  dgid : q.has .dgid = true →
    r.dgid = q.dgid ∨ dgidIsLocal T q = true ∧ r.dgid.interfaceId = q.dgid.interfaceId
  slid : q.has .slid = true → r.slid = q.slid
  dlid : q.has .dlid = true → r.dlid = q.dlid

structure Right (requester : Option (Physp N)) (l : List (Found T.subn)) : Prop where
  get : q.method = .get → l.length ≤ 1
  distinct : q.method = .getTable →
    l.Pairwise fun f f' => (f.key, f.pathRec.slid, f.pathRec.dlid) ≠ (f'.key, f'.pathRec.slid, f'.pathRec.dlid)
  numPath : q.method = .getTable → q.has .numbPath = true → ∀ k, (l.countP fun f => f.key = k) ≤ q.numPath
  agrees : q.method = .getTable → ∀ f ∈ l, Agrees T q f.pathRec
  complete : q.method = .getTable → q.has .numbPath = false → q.req.req.Checked → ∀ req, requester = some req →
    ¬(q.has .dgid = true ∧ q.dgid.isMulticast = true) → ∀ src ∈ T.aliasTbl, ∀ dest ∈ T.aliasTbl,
    WantedSrc T q src → WantedDest T q dest → ∀ slid dlid, Offered T q req src dest slid dlid →
    ∃ f ∈ l, f.ends = some (src, dest) ∧ f.pathRec.slid = slid ∧ f.pathRec.dlid = dlid

/-- The queries whose answer is right: not a SubnAdmGet for one LID alone whose port has several aliases with
paths. -/
def OneRecord (requester : Option (Physp N)) : Prop :=
  q.method = .get → q.req.req.Checked → ∀ req, requester = some req → q.has .sgid = false → q.has .dgid = false →
    (∀ p, q.has .slid = true → q.has .dlid = false → T.subn.portByLid q.slid = some p →
        Lone T (HasPath T q req) p) ∧
      ∀ p, q.has .dlid = true → q.has .slid = false → T.subn.portByLid q.dlid = some p →
        Lone T (fun a b => HasPath T q req b a) p

variable {T q} {requester : Option (Physp N)}

lemma countP_flatMap_le {α β : Type} {f : β → List α} {p : α → Bool} {n : ℕ} {l : List β}
    (hlen : ∀ v ∈ l, (f v).length ≤ n)
    (hsep : l.Pairwise fun v w => ∀ a ∈ f v, p a = true → ∀ b ∈ f w, p b = false) :
    (l.flatMap f).countP p ≤ n := by
  induction l with
  | nil => exact Nat.zero_le _
  | cons v l ih =>
    obtain ⟨hv, hsep⟩ := List.pairwise_cons.mp hsep
    rw [List.flatMap_cons, List.countP_append]
    by_cases hone : ∃ a ∈ f v, p a = true
    · obtain ⟨a, ha, hp⟩ := hone
      have hrest : (l.flatMap f).countP p = 0 := by
        refine List.countP_eq_zero.mpr fun b hb => ?_
        obtain ⟨w, hw, hb⟩ := List.mem_flatMap.mp hb
        simp [hv w hw a ha hp b hb]
      rw [hrest, Nat.add_zero]
      exact List.countP_le_length.trans (hlen v List.mem_cons_self)
    · have hnone : (f v).countP p = 0 := List.countP_eq_zero.mpr fun a ha hp => hone ⟨a, ha, hp⟩
      rw [hnone, Nat.zero_add]
      exact ih (fun w hw => hlen w (List.mem_cons_of_mem _ hw)) hsep

lemma mem_pairRecs {req : Physp N} {sgid dgid : Option Gid} {v : AliasGuid T.subn × AliasGuid T.subn}
    {f : Found T.subn} (h : f ∈ pairRecs T q req sgid dgid v) :
    f.ends = some v ∧ f.pathRec ∈ prRcvGetPortPairPaths T q req sgid dgid v.1 v.2 := by
  obtain ⟨r, hr, rfl⟩ := List.mem_map.mp h
  exact ⟨rfl, hr⟩

/-- The answer to a SubnAdmGetTable. -/
lemma right_flatMap {req : Physp N} {e : EndPoints T} (hq : q.method = .getTable) (he : Ends T q e)
    {l : List (AliasGuid T.subn × AliasGuid T.subn)} (hnodup : l.Nodup)
    (hmem : ∀ v, v ∈ l ↔ (v.1 ∈ T.aliasTbl ∧ WantedSrc T q v.1) ∧ v.2 ∈ T.aliasTbl ∧ WantedDest T q v.2) :
    Right T q (some req) (l.flatMap (pairRecs T q req e.sgid e.dgid)) := by
  have hkeys : l.Pairwise fun v w => (v.1.aliasGuid, v.2.aliasGuid) ≠ (w.1.aliasGuid, w.2.aliasGuid) := by
    refine hnodup.pairwise_of_forall_ne fun v hv w hw hne hk => hne ?_
    obtain ⟨⟨hv1, -⟩, hv2, -⟩ := (hmem v).mp hv
    obtain ⟨⟨hw1, -⟩, hw2, -⟩ := (hmem w).mp hw
    obtain ⟨h1, h2⟩ := Prod.mk.inj hk
    exact Prod.ext (aliasGuid_inj hv1 hw1 h1) (aliasGuid_inj hv2 hw2 h2)
  have hkey : ∀ v, ∀ f ∈ pairRecs T q req e.sgid e.dgid v, f.key = some (v.1.aliasGuid, v.2.aliasGuid) := by
    intro v f hf
    rw [Found.key, (mem_pairRecs hf).1, Option.map_some]
  refine ⟨fun h => ?_, fun _ => ?_, fun _ hnum k => ?_, fun _ f hf => ?_, ?_⟩
  · rw [hq] at h
    cases h
  · refine List.pairwise_flatMap.mpr ⟨fun v _ => ?_, hkeys.imp fun {v w} hne f hf f' hf' heq => hne ?_⟩
    · refine List.pairwise_map.mpr (portPairPaths_distinct.imp fun {r r'} hne heq => hne ?_)
      exact (Prod.mk.inj heq).2
    · have hk := (Prod.mk.inj heq).1
      rw [hkey v f hf, hkey w f' hf'] at hk
      exact Option.some.inj hk
  · refine countP_flatMap_le (fun v _ => ?_) (hkeys.imp fun {v w} hne f hf hk f' hf' => ?_)
    · rw [pairRecs, List.length_map]
      refine length_portPairPaths_le.trans_eq ?_
      simp [PathQuery.iterations, hq, hnum]
    · rw [hkey v f hf, decide_eq_true_iff] at hk
      rw [hkey w f' hf', decide_eq_false_iff_not, ← hk]
      exact fun h => hne (Option.some.inj h).symm
  · obtain ⟨v, hv, hf⟩ := List.mem_flatMap.mp hf
    obtain ⟨⟨-, hsrc⟩, -, hdest⟩ := (hmem v).mp hv
    obtain ⟨-, hr⟩ := mem_pairRecs hf
    obtain ⟨hoff, hsgid, hdgid⟩ := mem_portPairPaths hr
    rw [he.sgid] at hsgid
    rw [he.dgid] at hdgid
    refine ⟨fun h => ?_, fun h => ?_, fun h => ?_, fun h => ?_⟩
    · rw [hsgid, if_pos h, Option.getD_some]
    · by_cases hlocal : dgidIsLocal T q = true
      · refine .inr ⟨hlocal, ?_⟩
        rw [hdgid, if_neg (fun hn => hn.2 hlocal), Option.getD_none]
        exact (hdest.dgid h).2.trans (by rw [destGuid, if_pos hlocal])
      · exact .inl (by rw [hdgid, if_pos ⟨h, hlocal⟩, Option.getD_some])
    · have hin := hoff.src_mem
      simp only [srcLids, h, if_true, lidRange, InRange] at hin
      exact le_antisymm hin.2 hin.1
    · have hin := hoff.dest_mem
      simp only [destLids, h, if_true, lidRange, InRange] at hin
      exact le_antisymm hin.2 hin.1
  · intro _ hnum _ req' hreq _ src hsrc dest hdest hws hwd slid dlid hoff
    obtain rfl := Option.some.inj hreq
    obtain ⟨r, hr, hs, hd⟩ : ∃ r ∈ prRcvGetPortPairPaths T q req e.sgid e.dgid src dest, r.slid = slid ∧
        r.dlid = dlid :=
      hoff.mem (by simp [PathQuery.iterations, hq, hnum])
    refine ⟨⟨some (src, dest), r⟩, List.mem_flatMap.mpr ⟨(src, dest), ?_, List.mem_map.mpr ⟨r, hr, rfl⟩⟩, rfl, hs,
        hd⟩
    exact (hmem _).mpr ⟨⟨hsrc, hws⟩, hdest, hwd⟩

lemma right_nil (hno : ∀ req, q.req.req.Checked → ¬(q.has .dgid = true ∧ q.dgid.isMulticast = true) →
      ∀ src ∈ T.aliasTbl, ∀ dest ∈ T.aliasTbl, WantedSrc T q src → WantedDest T q dest → requester ≠ some req) :
    Right T q requester [] where
  get _ := Nat.zero_le _
  distinct _ := .nil
  numPath _ _ _ := Nat.zero_le _
  agrees _ _ h := by cases h
  complete _ _ hc req hreq hm src hsrc dest hdest hs hd := absurd hreq (hno req hc hm src hsrc dest hdest hs hd)

lemma right_multicast (requester : Option (Physp N)) (hd : q.has .dgid = true ∧ q.dgid.isMulticast = true) :
    Right T q requester (prProcessMulticast T q []) := by
  have hnil : Right T q requester [] := right_nil fun _ _ hm => absurd hd hm
  unfold prProcessMulticast
  cases hg : T.mgrpMgidTbl.get (mgidOf q.dgid) with
  | none => exact hnil
  | some g =>
    dsimp only
    split_ifs with hmatch
    · simp only [prMatchMgrpAttributes, decide_eq_true_eq] at hmatch
      obtain ⟨hdlid, -, -, -, -, hnum, -⟩ := hmatch
      refine ⟨fun _ => le_rfl, fun _ => List.pairwise_singleton _ _, fun hq hhas k => ?_, fun _ f hf => ?_,
        fun _ _ _ _ _ hm => absurd hd hm⟩
      · have hpos : q.numPath ≠ 0 := fun hz => hnum ⟨hhas, by simp [hq], hz⟩
        exact List.countP_le_length.trans (Nat.one_le_iff_ne_zero.mpr hpos)
      · obtain rfl := List.mem_singleton.mp hf
        refine ⟨fun _ => rfl, fun _ => .inl ?_, fun _ => rfl, fun h => ?_⟩
        · have hlt := q.dgid_lt
          simp only [mcastPathRec, T.mgid _ g hg, mgidOf]
          rw [Nat.add_comm, Nat.add_mul_div_right _ _ (by decide), Nat.div_eq_of_lt hlt, Nat.zero_add,
            Nat.add_mul_mod_self_right, Nat.mod_eq_of_lt hlt]
        · have hmlid := not_not.mp fun hne => hdlid ⟨h, hne⟩
          exact (T.mlid _ g hg).trans hmlid
    · exact hnil

lemma not_meets_of_differ {α : Option (AliasGuid T.subn)} {p : Option (Physp N)} (h : portsDiffer T α p = true)
    (a : AliasGuid T.subn) : ¬(Meets α a ∧ Meets p a.basePort) := by
  rintro ⟨ha, hp⟩
  cases α with
  | none => cases h
  | some b =>
    cases p with
    | none => cases h
    | some p =>
      obtain rfl := (meets_some _ _).mp ha
      have hport := (meets_some _ _).mp hp
      simp [portsDiffer, hport] at h

lemma Ends.lone_iff {e : EndPoints T} {req : Physp N} (he : Ends T q e) (hq : q.method = .get)
    (hc : q.req.req.Checked) : e.Lone T q req ↔ OneRecord T q (some req) := by
  have hnone : ∀ {c : EndComp} {lid : ℕ},
      (q.has c = true → (if q.has c then T.subn.portByLid lid else none) ≠ none) →
      ((if q.has c then T.subn.portByLid lid else none) = none ↔ q.has c = false) := by
    intro c lid hne
    cases hhas : q.has c with
    | false => simp
    | true => simpa [hhas] using hne
  have hsrc := he.slid
  have hdest := he.dlid
  rw [he.srcPort] at hsrc
  rw [he.destPort] at hdest
  unfold EndPoints.Lone OneRecord
  rw [he.no_sgid, he.no_dgid, he.srcPort, he.destPort, hnone hsrc, hnone hdest]
  have hport : ∀ (c : EndComp) (lid : ℕ) p, (if q.has c = true then T.subn.portByLid lid else none) = some p ↔
      q.has c = true ∧ T.subn.portByLid lid = some p := by
    intro c lid p
    split_ifs with hhas <;> simp [hhas]
  simp only [hport]
  refine ⟨fun h _ _ req' hreq hsgid hdgid => ?_, fun h hsgid hdgid => ?_⟩
  · obtain rfl := Option.some.inj hreq
    obtain ⟨h1, h2⟩ := h hsgid hdgid
    exact ⟨fun p hs hd hp => h1 p ⟨hs, hp⟩ hd, fun p hd hs hp => h2 p ⟨hd, hp⟩ hs⟩
  · obtain ⟨h1, h2⟩ := h hq hc req rfl hsgid hdgid
    exact ⟨fun p hp hd => h1 p hp.1 hd hp.2, fun p hp hs => h2 p hp.1 hs hp.2⟩

lemma right_dispatch {e : EndPoints T} {req : Physp N} (hq : q.method = .getTable) (he : Ends T q e)
    (hs : portsDiffer T e.srcAlias e.srcPort = false) (hd : portsDiffer T e.destAlias e.destPort = false) :
    Right T q (some req) (prDispatch T q req e) := by
  have hwsrc : ∀ a, a ∈ aliasesAt T e.srcAlias e.srcPort ↔ a ∈ T.aliasTbl ∧ WantedSrc T q a :=
    fun a => (mem_aliasesAt he.srcAlias hs).trans (and_congr_right fun ha => (he.src a ha).symm)
  have hwdest : ∀ b, b ∈ aliasesAt T e.destAlias e.destPort ↔ b ∈ T.aliasTbl ∧ WantedDest T q b :=
    fun b => (mem_aliasesAt he.destAlias hd).trans (and_congr_right fun hb => (he.dest b hb).symm)
  have hone : q.one = false := by simp [PathQuery.one, hq]
  rcases @prDispatch_all _ _ T q req e hone with h | h
  · rw [h]
    refine right_flatMap hq he ((nodup_aliasesAt _ _).product (nodup_aliasesAt _ _)) fun v => ?_
    rw [List.mem_product, hwsrc, hwdest]
  · rw [h, ← List.flatMap_map]
    refine right_flatMap hq he
      (((nodup_aliasesAt _ _).product (nodup_aliasesAt _ _)).map Prod.swap_injective) fun v => ?_
    rw [List.mem_map_of_involutive Prod.swap_swap, List.mem_product, hwsrc, hwdest, and_comm]
    rfl

/-- A query for paths is answered right exactly when it is not a SubnAdmGet that gives a LID of one end alone,
whose port has an alias with a path and behind it one with a path to the first alias of the table. -/
theorem query_right_iff (requester : Option (Physp N)) :
    Right T q requester (osmPrRcvProcess T q requester) ↔ OneRecord T q requester := by
  unfold osmPrRcvProcess
  by_cases hc : q.req.req.Checked
  · rw [if_neg (not_not.mpr hc)]
    cases requester with
    | none => exact iff_of_true (right_nil fun _ _ _ _ _ _ _ _ _ h => by cases h) fun _ _ _ h => by cases h
    | some req =>
      dsimp only
      by_cases hm : q.has .dgid = true ∧ q.dgid.isMulticast = true
      · rw [if_pos hm]
        refine iff_of_true (right_multicast _ hm) fun _ _ _ _ _ hno => ?_
        rw [hm.1] at hno
        cases hno
      · rw [if_neg hm]
        cases he : prGetEndPoints T q with
        | none =>
          have hne : ¬∃ e, prGetEndPoints T q = some e := by simp [he]
          refine iff_of_true
            (right_nil fun _ _ _ src hsrc dest hdest hs hd => absurd (prGetEndPoints_wanted hsrc hdest hs hd) hne)
            fun _ _ _ _ hsgid hdgid => ⟨fun p _ hdlid hp => absurd ?_ hne, fun p _ hslid hp => absurd ?_ hne⟩
          · exact prGetEndPoints_exists (by simp [hsgid]) (fun _ => ⟨p, hp⟩) (by simp [hdgid]) (by simp [hdlid])
          · exact prGetEndPoints_exists (by simp [hsgid]) (by simp [hslid]) (by simp [hdgid]) fun _ => ⟨p, hp⟩
        | some e =>
          have hends := prGetEndPoints_some he
          dsimp only
          by_cases hs : portsDiffer T e.srcAlias e.srcPort = true
          · rw [if_pos hs]
            refine iff_of_true (right_nil fun _ _ _ src hsrc _ _ hws _ =>
              absurd ((hends.src src hsrc).mp hws) (not_meets_of_differ hs src)) fun _ _ _ _ hsgid => ?_
            rw [hends.no_sgid.mpr hsgid] at hs
            cases hs
          by_cases hd : portsDiffer T e.destAlias e.destPort = true
          · rw [if_neg hs, if_pos hd]
            refine iff_of_true (right_nil fun _ _ _ _ _ dest hdest _ hwd =>
              absurd ((hends.dest dest hdest).mp hwd) (not_meets_of_differ hd dest)) fun _ _ _ _ _ hdgid => ?_
            rw [hends.no_dgid.mpr hdgid] at hd
            cases hd
          rw [if_neg hs, if_neg hd]
          cases hq : q.method with
          | get =>
            have hget : Right T q (some req) (prDispatch T q req e) ↔ (prDispatch T q req e).length ≤ 1 := by
              refine ⟨fun h => h.get hq, fun h => ⟨fun _ => h, ?_, ?_, ?_, ?_⟩⟩
              all_goals
                intro h
                rw [hq] at h
                cases h
            rw [hget, prDispatch_get hq, hends.lone_iff hq hc]
          | getTable =>
            refine iff_of_true ?_ fun h => ?_
            · exact right_dispatch hq hends (Bool.not_eq_true _ ▸ hs) (Bool.not_eq_true _ ▸ hd)
            · rw [hq] at h
              cases h
  · rw [if_pos hc]
    exact iff_of_true (right_nil fun _ h => absurd h hc) fun _ h => absurd h hc

def onePort : Subn Unit where
  sw _ := none
  nodeType _ := 0
  deviceId _ := 0
  vendorId _ := 0
  valid _ := true
  portInfo _ := sdr 4
  remote _ := none
  slvlByPort _ _ := ⟨fun _ => 0⟩
  pkeys _ := [(0x7fff, 0xffff)]
  portGuid _ := 1
  subnetPrefix _ := 0
  portByLid lid := if lid = 5 then some ⟨(), 1⟩ else none
  prtnSl _ := some 0
  nilSl := 0
  qosPolicy := none
  pathSl := none
  opt := ⟨false, false, false, 18, saRateMaxEnum⟩
  remote_port0 _ _ h _ := by cases h

def twoAliases : PathTables Unit where
  subn := onePort
  lids := ⟨fun _ => 5, fun _ => 0, 0, fun _ => by decide⟩
  unicast lid p h := by
    by_cases hlid : lid = 5
    · omega
    · simp [onePort, hlid] at h
  aliasTbl := [⟨1, ⟨(), 1⟩, fun h => by cases h⟩, ⟨2, ⟨(), 1⟩, fun h => by cases h⟩]
  sorted := by simp
  subnetPrefix := 0
  prefixRoutes := []
  rtrGuidTbl := ∅
  ntoh32 := id
  mgrpMgidTbl := ∅
  mgid _ _ h := by cases h
  mlid _ _ h := by cases h

def slidAlone : PathQuery where
  method := .get
  req := ⟨2 ^ 5, 0, 0, 0, 0, 0, 0, 0, 0⟩
  sgid := ⟨0, 0⟩
  dgid := ⟨0, 0⟩
  slid := 5
  dlid := 0
  tclass := 0
  preference := 0
  dgid_lt := by decide

/-- It collects a record for each alias. -/
theorem two_records : (osmPrRcvProcess twoAliases slidAlone (some ⟨(), 1⟩)).length = 2 ∧
    ¬Right twoAliases slidAlone (some ⟨(), 1⟩) (osmPrRcvProcess twoAliases slidAlone (some ⟨(), 1⟩)) := by
  have hlen : (osmPrRcvProcess twoAliases slidAlone (some ⟨(), 1⟩)).length = 2 := by decide
  refine ⟨hlen, fun h => ?_⟩
  have hone := h.get rfl
  omega

end Answer

end OpenSM.SaPath
