import OpenSM.LashPairs

/-! The balancing of the lanes: the pair search, the choice of the fullest and the emptiest lane, and what a
round does to the pairs. -/

namespace OpenSM.Lash

open Lib.Drive

variable {n : ℕ}

section Search

variable {cand : Fin n → Fin n → Bool} {ok : Fin n → Bool} {start dest s d : Fin n} {p q : Fin n × Fin n}

lemma incr_val (x : Fin n) : (incr x).val = (x.val + 1) % n := by
  rw [incr]
  split_ifs with h
  · exact (Nat.mod_eq_of_lt h).symm
  · have hx := x.isLt
    have heq : x.val + 1 = n := by omega
    rw [heq, Nat.mod_self]

lemma iterate_incr_val (k : ℕ) (x : Fin n) : (incr^[k] x).val = (x.val + k) % n := by
  induction k with
  | zero => exact (Nat.mod_eq_of_lt x.isLt).symm
  | succ k ih => rw [Function.iterate_succ_apply', incr_val, ih, Nat.mod_add_mod, add_assoc]

lemma exists_iterate_incr (x y : Fin n) : ∃ k < n, incr^[k] x = y := by
  have hx := x.isLt
  have hy := y.isLt
  refine ⟨(y.val + (n - x.val)) % n, Nat.mod_lt _ (by omega), Fin.ext ?_⟩
  rw [iterate_incr_val, Nat.add_mod_mod]
  have heq : x.val + (y.val + (n - x.val)) = y.val + n := by omega
  rw [heq, Nat.add_mod_right, Nat.mod_eq_of_lt hy]

lemma eq_of_iterate_incr {x : Fin n} {k : ℕ} (hk : k < n) (h : incr^[k] x = x) : k = 0 := by
  have hx := x.isLt
  have hval := congrArg Fin.val h
  rw [iterate_incr_val] at hval
  by_cases hlt : x.val + k < n
  · rw [Nat.mod_eq_of_lt hlt] at hval
    omega
  · rw [Nat.mod_eq_sub_mod (by omega), Nat.mod_eq_of_lt (by omega)] at hval
    omega

lemma searchDest_steps (k : ℕ) (dest : Fin n) : ∃ j ≤ k, searchDest ok start k dest = incr^[j] dest ∧
    (∀ i < j, incr^[i] dest ≠ start ∧ ok (incr^[i] dest) = false) ∧
    (j < k → incr^[j] dest = start ∨ ok (incr^[j] dest) = true) := by
  induction k generalizing dest with
  | zero => exact ⟨0, le_rfl, rfl, fun _ h => absurd h (Nat.not_lt_zero _), fun h => absurd h (lt_irrefl 0)⟩
  | succ k ih =>
    rw [searchDest]
    split_ifs with hgo
    · obtain ⟨j, hj, heq, hpre, hend⟩ := ih (incr dest)
      refine ⟨j + 1, Nat.succ_le_succ hj, heq, fun i hi => ?_, fun hlt => hend (by omega)⟩
      cases i with
      | zero => exact hgo
      | succ i => exact hpre i (by omega)
    · refine ⟨0, Nat.zero_le _, rfl, fun _ h => absurd h (Nat.not_lt_zero _), fun _ => ?_⟩
      by_contra hstop
      rw [not_or, Bool.not_eq_true] at hstop
      exact hgo hstop

lemma searchDest_spec (hstart : ok start = false) (hd : ok d = true) :
    ok (searchDest ok start n (incr start)) = true := by
  obtain ⟨j, hj, heq, hpre, hend⟩ := @searchDest_steps n ok start n (incr start)
  rw [heq]
  have hn : 0 < n := start.pos
  have hback : incr^[n - 1] (incr start) = start := by
    rw [← Function.iterate_succ_apply, Nat.succ_eq_add_one, Nat.sub_add_cancel hn]
    refine Fin.ext ?_
    rw [iterate_incr_val, Nat.add_mod_right, Nat.mod_eq_of_lt start.isLt]
  have hjn : j < n := by
    by_contra hge
    exact (hpre (n - 1) (by omega)).1 hback
  rcases hend hjn with hs | hok
  · -- The loop is back at its start, so it has been at `d`.
    have hfull : j = n - 1 := by
      by_contra hne
      have hzero := @eq_of_iterate_incr n start (j + 1) (by omega) hs
      omega
    obtain ⟨k, hk, hkd⟩ := exists_iterate_incr start d
    cases k with
    | zero =>
      rw [← hkd] at hd
      exact absurd (hstart.symm.trans hd) Bool.false_ne_true
    | succ k =>
      have hfalse := (hpre k (by omega)).2
      rw [← Function.iterate_succ_apply, hkd, hd] at hfalse
      cases hfalse
  · exact hok

lemma drive_some {σ : Type*} {body : σ → Option σ} (k : ℕ) {x y : σ} (h : drive body k x = some y) :
    body y = none := by
  induction k generalizing x with
  | zero =>
    cases hb : body x with
    | none =>
      rw [drive_done hb] at h
      rwa [← Option.some.inj h]
    | some x' => simp [drive, hb] at h
  | succ k ih =>
    cases hb : body x with
    | none =>
      rw [drive_done hb] at h
      rwa [← Option.some.inj h]
    | some x' =>
      rw [drive_step hb] at h
      exact ih h

lemma searchPair_some (h : searchPair cand p = some q) : cand q.1 q.2 = true := by
  have hend := drive_some n h
  rw [searchPairBody] at hend
  split_ifs at hend with hq
  exact hq

def searchLeft (cand : Fin n → Fin n → Bool) (s : Fin n) (p : Fin n × Fin n) : ℕ :=
  if cand p.1 p.2 then 0 else (s.val + (n - p.1.val)) % n + 1

lemma searchPair_exists (hs : cand s d = true) (p : Fin n × Fin n) : ∃ q, searchPair cand p = some q := by
  have hround : ∀ p q, True → searchPairBody cand p = some q → True ∧
      searchLeft cand s q < searchLeft cand s p := by
    intro p q _ hq
    refine ⟨trivial, ?_⟩
    rw [searchPairBody] at hq
    split_ifs at hq with hp
    obtain rfl := Option.some.inj hq
    rw [searchLeft, searchLeft, if_neg hp]
    by_cases hrow : cand p.1 (searchDest (cand p.1) p.2 n (incr p.2)) = true
    · simp only [hrow, if_true]
      exact Nat.succ_pos _
    · simp only [hrow, Bool.false_eq_true, if_false]
      have hne : p.1 ≠ s := by
        rintro rfl
        exact hrow (searchDest_spec (Bool.eq_false_iff.mpr hp) hs)
      have hp₁ := p.1.isLt
      have hs₁ := s.isLt
      have hval : p.1.val ≠ s.val := fun h => hne (Fin.ext h)
      split_ifs
      · exact Nat.succ_pos _
      rw [incr_val]
      -- The row after the last one is the first one.
      by_cases hlast : p.1.val + 1 = n
      · rw [hlast, Nat.mod_self, Nat.sub_zero, Nat.add_mod_right, Nat.mod_eq_of_lt hs₁,
            Nat.mod_eq_of_lt (by omega)]
        omega
      · rw [Nat.mod_eq_of_lt (by omega : p.1.val + 1 < n)]
        by_cases hlt : p.1.val < s.val
        · rw [Nat.mod_eq_sub_mod (by omega), Nat.mod_eq_of_lt (by omega), Nat.mod_eq_sub_mod (by omega),
            Nat.mod_eq_of_lt (by omega)]
          omega
        · rw [Nat.mod_eq_of_lt (by omega), Nat.mod_eq_of_lt (by omega)]
          omega
  have hle : searchLeft cand s p ≤ n := by
    rw [searchLeft]
    split_ifs
    · exact Nat.zero_le n
    · exact Nat.mod_lt _ s.pos
  obtain ⟨q, hq, -⟩ := drive_spec hround n trivial hle
  exact ⟨q, hq⟩

end Search

section Pick

variable {num : ℕ → ℤ} {limit : ℤ} {lanesNeeded lane lane' l : ℕ}

def leastLoop (limit : ℤ) (num : ℕ → ℤ) (lanesNeeded lane : ℕ) : ℤ × ℕ :=
  (List.range lanesNeeded).foldl (fun p i => if num i < p.1 then (num i, i) else p) (limit, lane)

lemma leastLoop_succ : leastLoop limit num (lanesNeeded + 1) lane =
    if num lanesNeeded < (leastLoop limit num lanesNeeded lane).1 then (num lanesNeeded, lanesNeeded)
    else leastLoop limit num lanesNeeded lane := by
  rw [leastLoop, List.range_succ, List.foldl_append]
  rfl

lemma pickMin_eq : pickMin num lanesNeeded lane = (leastLoop maxInt num lanesNeeded lane).2 := rfl

lemma pickMax_eq : pickMax num lanesNeeded lane = (leastLoop 0 (fun l => -num l) lanesNeeded lane).2 := by
  have hloop : ∀ ls : List ℕ, ∀ p : ℤ × ℕ,
      ls.foldl (fun p i => if -num i < p.1 then (-num i, i) else p) (-p.1, p.2) =
        (-(ls.foldl (fun p i => if p.1 < num i then (num i, i) else p) p).1,
          (ls.foldl (fun p i => if p.1 < num i then (num i, i) else p) p).2) := by
    intro ls
    induction ls with
    | nil => exact fun p => rfl
    | cons i ls ih =>
      intro p
      rw [List.foldl_cons, List.foldl_cons, ← ih]
      simp only [neg_lt_neg_iff]
      split_ifs <;> rfl
  have h := congrArg Prod.snd (hloop (List.range lanesNeeded) (0, lane))
  rw [neg_zero] at h
  exact h.symm

lemma leastLoop_spec : (leastLoop limit num lanesNeeded lane = (limit, lane) ∧ ∀ i < lanesNeeded, limit ≤ num i) ∨
    ∃ i < lanesNeeded, leastLoop limit num lanesNeeded lane = (num i, i) ∧ ∀ j < lanesNeeded, num i ≤ num j := by
  induction lanesNeeded with
  | zero => exact .inl ⟨rfl, fun _ h => absurd h (Nat.not_lt_zero _)⟩
  | succ k ih =>
    rw [leastLoop_succ]
    rcases ih with ⟨heq, hle⟩ | ⟨i, hi, heq, hle⟩ <;> rw [heq] <;> dsimp only <;> split_ifs with hlt
    · refine .inr ⟨k, Nat.lt_succ_self k, rfl, fun j hj => ?_⟩
      rcases Nat.lt_succ_iff_lt_or_eq.mp hj with hj | rfl
      · exact (hlt.trans_le (hle j hj)).le
      · exact le_rfl
    · refine .inl ⟨rfl, fun j hj => ?_⟩
      rcases Nat.lt_succ_iff_lt_or_eq.mp hj with hj | rfl
      · exact hle j hj
      · exact not_lt.mp hlt
    · refine .inr ⟨k, Nat.lt_succ_self k, rfl, fun j hj => ?_⟩
      rcases Nat.lt_succ_iff_lt_or_eq.mp hj with hj | rfl
      · exact (hlt.trans_le (hle j hj)).le
      · exact le_rfl
    · refine .inr ⟨i, hi.trans (Nat.lt_succ_self k), rfl, fun j hj => ?_⟩
      rcases Nat.lt_succ_iff_lt_or_eq.mp hj with hj | rfl
      · exact hle j hj
      · exact not_lt.mp hlt

lemma leastLoop_congr (lane' : ℕ) : leastLoop limit num lanesNeeded lane = leastLoop limit num lanesNeeded lane' ∨
    leastLoop limit num lanesNeeded lane = (limit, lane) ∧
        leastLoop limit num lanesNeeded lane' = (limit, lane') := by
  induction lanesNeeded with
  | zero => exact .inr ⟨rfl, rfl⟩
  | succ k ih =>
    rw [leastLoop_succ, leastLoop_succ]
    rcases ih with heq | ⟨heq, heq'⟩
    · rw [heq]
      exact .inl rfl
    · rw [heq, heq']
      dsimp only
      split_ifs
      · exact .inl rfl
      · exact .inr ⟨rfl, rfl⟩

lemma leastLoop_again : (leastLoop limit num lanesNeeded (leastLoop limit num lanesNeeded lane).2).2 =
    (leastLoop limit num lanesNeeded lane).2 := by
  rcases @leastLoop_congr num limit lanesNeeded lane (leastLoop limit num lanesNeeded lane).2 with h | ⟨-, h⟩
  · rw [← h]
  · rw [h]

lemma leastLoop_lt (h : lane < lanesNeeded) : (leastLoop limit num lanesNeeded lane).2 < lanesNeeded := by
  rcases @leastLoop_spec num limit lanesNeeded lane with ⟨heq, -⟩ | ⟨i, hi, heq, -⟩
  · rw [heq]
    exact h
  · rw [heq]
    exact hi

lemma num_pickMin_le (h : lane < lanesNeeded) : num (pickMin num lanesNeeded lane) ≤ num lane := by
  rw [pickMin_eq]
  rcases @leastLoop_spec num maxInt lanesNeeded lane with ⟨heq, -⟩ | ⟨i, -, heq, hle⟩
  · rw [heq]
  · rw [heq]
    exact hle lane h

lemma le_num_pickMax (h : lane < lanesNeeded) : num lane ≤ num (pickMax num lanesNeeded lane) := by
  rw [pickMax_eq]
  rcases @leastLoop_spec (fun l => -num l) 0 lanesNeeded lane with ⟨heq, -⟩ | ⟨i, -, heq, hle⟩
  · rw [heq]
  · rw [heq]
    exact neg_le_neg_iff.mp (hle lane h)

end Pick

section Round

variable {rt : Fin n → Fin n → List (Channel n)} {test : Lane n → List (Channel n) → List (Channel n) → Bool}
  {lanesNeeded startVl : ℕ} {b b' : Balance n} {s d : Fin n} {start : Fin n × Fin n}

/-- What holds between two rounds: the pairs that have been tried in vain are marked, in the fullest lane only. -/
structure Balancing (lanesNeeded : ℕ) (b : Balance n) : Prop where
  located : Located b.toLanes lanesNeeded
  marked : ∀ s d l, b.virtualLocation s d l = 2 → l = b.maxFilledLane
  minLt : b.minFilledLane < lanesNeeded
  maxLt : b.maxFilledLane < lanesNeeded

/-- The pairs in the fullest lane that have not been tried since the trials were counted. -/
def Balance.untried (b : Balance n) : Finset (Fin n × Fin n) :=
  Finset.univ.filter fun p => b.virtualLocation p.1 p.2 b.maxFilledLane = 1

lemma mem_untried {p : Fin n × Fin n} : p ∈ b.untried ↔ b.virtualLocation p.1 p.2 b.maxFilledLane = 1 := by
  rw [Balance.untried, Finset.mem_filter, and_iff_right (Finset.mem_univ p)]

def Balance.rejects (rt : Fin n → Fin n → List (Channel n))
    (test : Lane n → List (Channel n) → List (Channel n) → Bool) (b : Balance n) (s d : Fin n) : Bool :=
  (b.toLanes.tryLane rt test s d b.minFilledLane).1

lemma move_lanes : (b.move rt startVl test s d).minFilledLane = b.minFilledLane ∧
    (b.move rt startVl test s d).maxFilledLane = b.maxFilledLane := by
  rw [Balance.move]
  split_ifs <;> exact ⟨rfl, rfl⟩

/-- A pair that is rejected is marked. -/
lemma Balancing.reject (h : Balancing lanesNeeded b) (hs : b.virtualLocation s d b.maxFilledLane = 1)
    (hrej : b.rejects rt test s d = true) : Balancing lanesNeeded (b.move rt startVl test s d) ∧
    (b.move rt startVl test s d).assigned = b.assigned ∧
    (b.move rt startVl test s d).numMstInLane = b.numMstInLane ∧
    (b.move rt startVl test s d).trials = b.trials - 2 ∧
    (b.move rt startVl test s d).untried = b.untried \ both s d := by
  have hmove : b.move rt startVl test s d = { b with
      toLanes := (b.toLanes.tryLane rt test s d b.minFilledLane).2.setLocation s d b.maxFilledLane 2
      trials := b.trials - 2 } := by
    rw [Balance.rejects] at hrej
    rw [Balance.move, if_pos hrej]
  have hloc : ∀ i j k, (b.move rt startVl test s d).virtualLocation i j k =
      if (i, j) ∈ both s d ∧ k = b.maxFilledLane then 2 else b.virtualLocation i j k := fun i j k => by
    rw [hmove]
    dsimp only
    rw [virtualLocation_setLocation, tryLane_virtualLocation]
  have hin : ∀ i j, (i, j) ∈ both s d → b.virtualLocation i j b.maxFilledLane = 1 := by
    intro i j hmem
    rcases mem_both.mp hmem with ⟨rfl, rfl⟩ | ⟨rfl, rfl⟩
    · exact hs
    · rw [h.located.symm, hs]
  have hnum : (b.move rt startVl test s d).numMstInLane = b.numMstInLane := by
    rw [hmove]
    exact tryLane_numMstInLane
  obtain ⟨hmin, hmax⟩ := @move_lanes n rt test startVl b s d
  obtain ⟨hlocated, hassigned⟩ := @Located.mark n b.toLanes (b.move rt startVl test s d).toLanes
    lanesNeeded h.located (by
      rw [hmove]
      refine setLocation_symm ?_
      rw [tryLane_virtualLocation]
      exact h.located.symm)
    (fun i j k => by
      rw [hloc]
      split_ifs with hmem
      · rw [hmem.2, hin i j hmem.1]
        exact iff_of_true two_ne_zero one_ne_zero
      · rfl)
    (fun i j k => by
      rw [hloc]
      split_ifs
      · exact le_rfl
      · exact h.located.le_two i j k) hnum
  refine ⟨⟨hlocated, fun i j k hk => ?_, ?_, ?_⟩, hassigned, hnum, by rw [hmove], ?_⟩
  · rw [hmax]
    rw [hloc] at hk
    split_ifs at hk with hmem
    · exact hmem.2
    · exact h.marked i j k hk
  · rw [hmin]
    exact h.minLt
  · rw [hmax]
    exact h.maxLt
  · ext p
    rw [Finset.mem_sdiff, mem_untried, mem_untried, hmax, hloc]
    split_ifs with hmem
    · exact iff_of_false (by decide) fun hp => hp.2 hmem.1
    · exact ⟨fun hp => ⟨hp, fun hb => hmem ⟨hb, rfl⟩⟩, And.left⟩

/-- A pair that is accepted goes from the fullest lane to the emptiest one. -/
lemma Balancing.accept (h : Balancing lanesNeeded b) (hne : b.minFilledLane ≠ b.maxFilledLane)
    (hs : b.virtualLocation s d b.maxFilledLane = 1) (hrej : b.rejects rt test s d = false) :
    Balancing lanesNeeded (b.move rt startVl test s d) ∧
    (b.move rt startVl test s d).assigned b.maxFilledLane = b.assigned b.maxFilledLane \ both s d ∧
    (b.move rt startVl test s d).assigned b.minFilledLane = b.assigned b.minFilledLane ∪ both s d ∧
    (∀ k, k ≠ b.maxFilledLane → k ≠ b.minFilledLane →
      (b.move rt startVl test s d).assigned k = b.assigned k) ∧
    (b.move rt startVl test s d).numMstInLane =
      ((b.toLanes.addMst b.maxFilledLane (-2)).addMst b.minFilledLane 2).numMstInLane ∧
    (b.move rt startVl test s d).trials = b.trials ∧
    (b.move rt startVl test s d).untried = b.untried \ both s d := by
  have hmove : b.move rt startVl test s d = { b with
      toLanes := ((((((b.toLanes.tryLane rt test s d b.minFilledLane).2.addMst b.maxFilledLane (-2)).addMst
        b.minFilledLane 2).removeSemipermanent rt s d b.maxFilledLane).setLocation s d
          b.maxFilledLane 0).setLocation
        s d b.minFilledLane 1).setSl s d (b.minFilledLane + startVl) } := by
    rw [Balance.rejects] at hrej
    rw [Balance.move, if_neg (Bool.eq_false_iff.mp hrej)]
  have hin : b.virtualLocation s d b.maxFilledLane ≠ 0 := by
    rw [hs]
    exact one_ne_zero
  obtain ⟨hout, hnone, hmaxOut, hotherOut⟩ := @Located.leave n b.toLanes
    ((b.toLanes.addMst b.maxFilledLane (-2)).setLocation s d b.maxFilledLane 0) s d b.maxFilledLane lanesNeeded
    h.located hin rfl rfl
  have hloc : (b.move rt startVl test s d).virtualLocation =
      (((b.toLanes.addMst b.maxFilledLane (-2)).setLocation s d b.maxFilledLane 0).setLocation s d b.minFilledLane
        1).virtualLocation := by
    rw [hmove]
    funext i j k
    simp only [Lanes.setSl, Lanes.setLocation, Lanes.removeSemipermanent, Lanes.setLane, Lanes.addMst,
      tryLane_virtualLocation]
  have hnum : (b.move rt startVl test s d).numMstInLane =
      ((b.toLanes.addMst b.maxFilledLane (-2)).addMst b.minFilledLane 2).numMstInLane := by
    rw [hmove]
    simp only [Lanes.setSl, Lanes.setLocation, Lanes.removeSemipermanent, Lanes.setLane, Lanes.addMst,
      tryLane_numMstInLane]
  obtain ⟨hmin, hmax⟩ := @move_lanes n rt test startVl b s d
  obtain ⟨hlocated, hminIn, hotherIn⟩ := hout.enter (h.located.ne hin) hnone h.minLt hloc hnum
  have hcell : ∀ i j k, (b.move rt startVl test s d).virtualLocation i j k =
      if (i, j) ∈ both s d ∧ k = b.minFilledLane then 1
      else if (i, j) ∈ both s d ∧ k = b.maxFilledLane then 0 else b.virtualLocation i j k := fun i j k => by
    rw [hloc, virtualLocation_setLocation, virtualLocation_setLocation]
    rfl
  refine ⟨⟨hlocated, fun i j k hk => ?_, ?_, ?_⟩, ?_, ?_, fun k hk hk' => ?_, hnum, by rw [hmove], ?_⟩
  · rw [hmax]
    rw [hcell] at hk
    split_ifs at hk
    · exact absurd hk (by decide)
    · exact h.marked i j k hk
  · rw [hmin]
    exact h.minLt
  · rw [hmax]
    exact h.maxLt
  · rw [hotherIn _ hne.symm, hmaxOut]
  · rw [hminIn, hotherOut _ hne]
  · rw [hotherIn k hk', hotherOut k hk]
  · ext p
    rw [Finset.mem_sdiff, mem_untried, mem_untried, hmax, hcell]
    rw [if_neg fun hp => hne hp.2.symm]
    split_ifs with hmem
    · exact iff_of_false (by decide) fun hp => hp.2 hmem.1
    · exact ⟨fun hp => ⟨hp, fun hb => hmem ⟨hb, rfl⟩⟩, And.left⟩

lemma Balancing.move (h : Balancing lanesNeeded b) (hne : b.minFilledLane ≠ b.maxFilledLane)
    (hs : b.virtualLocation s d b.maxFilledLane = 1) : Balancing lanesNeeded (b.move rt startVl test s d) := by
  cases hrej : b.rejects rt test s d with
  | true => exact (h.reject hs hrej).1
  | false => exact (h.accept hne hs hrej).1

def Balance.Shifted (b : Balance n) (lanesNeeded : ℕ) : Prop :=
  b.minFilledLane ≠ pickMin b.numMstInLane lanesNeeded b.minFilledLane ∨
    b.maxFilledLane ≠ pickMax b.numMstInLane lanesNeeded b.maxFilledLane

/-- While the loop goes on the lanes differ by the limit at least, and are the ones that the numbers ask for. -/
structure Level (lanesNeeded : ℕ) (b : Balance n) : Prop where
  gap : balanceLimit ≤ b.numMstInLane b.maxFilledLane - b.numMstInLane b.minFilledLane
  steady : ¬b.Shifted lanesNeeded

lemma Level.ne (h : Level lanesNeeded b) : b.minFilledLane ≠ b.maxFilledLane := by
  intro heq
  have hgap := h.gap
  rw [heq, sub_self] at hgap
  exact absurd hgap (by decide)

lemma pick_virtualLocation_of_not (hsh : ¬b.Shifted lanesNeeded) :
    (b.pick lanesNeeded).virtualLocation = b.virtualLocation := by
  rw [Balance.Shifted, not_or, not_not, not_not] at hsh
  rw [Balance.pick]
  dsimp only
  rw [if_neg (not_not.mpr hsh.2), if_neg (not_not.mpr hsh.1)]

lemma Balancing.pick_virtualLocation (h : Balancing lanesNeeded b) (hsh : b.Shifted lanesNeeded)
    (i j : Fin n) (k : ℕ) :
    (b.pick lanesNeeded).virtualLocation i j
        k = if b.virtualLocation i j k = 2 then 1 else b.virtualLocation i j k := by
  rw [Balance.pick]
  dsimp only
  by_cases hk : k = b.maxFilledLane
  · subst hk
    by_cases hmax : b.maxFilledLane ≠ pickMax b.numMstInLane lanesNeeded b.maxFilledLane
    · rw [if_pos hmax]
      split_ifs with hmin htwo htwo <;> simp [Lanes.unmark, hmax, htwo]
    · have hmin := hsh.resolve_right hmax
      rw [if_neg hmax, if_pos hmin]
      simp [Lanes.unmark, ← not_not.mp hmax]
  · have hno : b.virtualLocation i j k ≠ 2 := fun h2 => hk (h.marked i j k h2)
    split_ifs <;> simp [Lanes.unmark, hno]

lemma pick_trials : (b.pick lanesNeeded).trials =
    if b.minFilledLane ≠ pickMin b.numMstInLane lanesNeeded b.minFilledLane ∨
        b.maxFilledLane ≠ pickMax b.numMstInLane lanesNeeded b.maxFilledLane then
      b.numMstInLane (pickMax b.numMstInLane lanesNeeded b.maxFilledLane) else b.trials := rfl

lemma pick_frame : (b.pick lanesNeeded).numMstInLane = b.numMstInLane ∧ (b.pick lanesNeeded).cdg = b.cdg ∧
    (b.pick lanesNeeded).nextAddr = b.nextAddr := by
  rw [Balance.pick]
  dsimp only
  split_ifs <;> exact ⟨rfl, rfl, rfl⟩

lemma Balancing.pick (h : Balancing lanesNeeded b) :
    Balancing lanesNeeded (b.pick lanesNeeded) ∧ (b.pick lanesNeeded).assigned = b.assigned := by
  have hmin : (b.pick lanesNeeded).minFilledLane < lanesNeeded := leastLoop_lt h.minLt
  have hmax : (b.pick lanesNeeded).maxFilledLane < lanesNeeded := by
    change pickMax b.numMstInLane lanesNeeded b.maxFilledLane < lanesNeeded
    rw [pickMax_eq]
    exact leastLoop_lt h.maxLt
  by_cases hsh : b.Shifted lanesNeeded
  · have hloc := h.pick_virtualLocation hsh
    obtain ⟨hlocated, hassigned⟩ := @Located.mark n b.toLanes (b.pick lanesNeeded).toLanes lanesNeeded h.located
      (fun i j k => by rw [hloc, hloc, h.located.symm])
      (fun i j k => by
        rw [hloc]
        split_ifs with htwo
        · rw [htwo]
          exact iff_of_true one_ne_zero two_ne_zero
        · rfl)
      (fun i j k => by
        rw [hloc]
        split_ifs
        · exact one_le_two
        · exact h.located.le_two i j k) pick_frame.1
    refine ⟨⟨hlocated, fun i j k hk => ?_, hmin, hmax⟩, hassigned⟩
    rw [hloc] at hk
    split_ifs at hk with htwo
    · exact absurd hk (by decide)
    · exact absurd hk htwo
  · have hloc := pick_virtualLocation_of_not hsh
    have hkeep : b.maxFilledLane = (b.pick lanesNeeded).maxFilledLane := not_not.mp (not_or.mp hsh).2
    obtain ⟨hlocated, hassigned⟩ := @Located.mark n b.toLanes (b.pick lanesNeeded).toLanes lanesNeeded h.located
      (by
        rw [hloc]
        exact h.located.symm)
      (fun i j k => by rw [hloc])
      (by
        rw [hloc]
        exact h.located.le_two) pick_frame.1
    refine ⟨⟨hlocated, fun i j k hk => ?_, hmin, hmax⟩, hassigned⟩
    rw [hloc] at hk
    rw [← hkeep]
    exact h.marked i j k hk

lemma pick_stop : (b.pick lanesNeeded).stop = false ↔ b.trials ≠ 0 ∧
    balanceLimit ≤ b.numMstInLane b.maxFilledLane - b.numMstInLane b.minFilledLane := by
  change (decide (b.trials = 0) || decide (_ < balanceLimit)) = false ↔ _
  rw [Bool.or_eq_false_iff, decide_eq_false_iff_not, decide_eq_false_iff_not, not_lt]

lemma Balancing.pick_level (h : Balancing lanesNeeded b) (hstop : (b.pick lanesNeeded).stop = false) :
    Level lanesNeeded (b.pick lanesNeeded) := by
  obtain ⟨-, hgap⟩ := pick_stop.mp hstop
  refine ⟨?_, ?_⟩
  · rw [pick_frame.1]
    have hmin := @num_pickMin_le b.numMstInLane lanesNeeded b.minFilledLane h.minLt
    have hmax := @le_num_pickMax b.numMstInLane lanesNeeded b.maxFilledLane h.maxLt
    change balanceLimit ≤ b.numMstInLane (pickMax b.numMstInLane lanesNeeded b.maxFilledLane) -
      b.numMstInLane (pickMin b.numMstInLane lanesNeeded b.minFilledLane)
    omega
  · rw [Balance.Shifted, pick_frame.1, not_or, not_not, not_not]
    constructor
    · exact leastLoop_again.symm
    · change pickMax b.numMstInLane lanesNeeded b.maxFilledLane = pickMax b.numMstInLane lanesNeeded
        (pickMax b.numMstInLane lanesNeeded b.maxFilledLane)
      rw [pickMax_eq, pickMax_eq]
      exact leastLoop_again.symm

lemma round_cases (h : b.round rt lanesNeeded startVl start test = some b') : ∃ s d,
    b.virtualLocation s d b.maxFilledLane = 1 ∧ b' = (b.move rt startVl test s d).pick lanesNeeded := by
  obtain ⟨p, hp, rfl⟩ := Option.map_eq_some_iff.mp h
  exact ⟨p.1, p.2, of_decide_eq_true (searchPair_some hp), rfl⟩

end Round

end OpenSM.Lash
