import OpenSM.LashCycle
import OpenSM.LashExact
import OpenSM.LashHops
import OpenSM.LashTrials

/-! `lash_core` after the routing: what its dependency graphs hold in every state of a run, and when it comes to
its end. -/

namespace OpenSM.Lash

open Lib

variable {n m : ℕ} {f : Fabric n m} {sws : Switches n}

section Bookkeeping

/-- The top of the loops: with the pairs still to assign, or while the lanes are balanced. -/
inductive Core (n : ℕ)
  | assigning (left : List (Fin n × Fin n)) (st : Assign n)
  | balancing (lanesNeeded : ℕ) (b : Balance n)

def Core.left : Core n → List (Fin n × Fin n)
  | assigning left _ => left
  | balancing _ _ => []

def Core.returned : Core n → Bool
  | assigning _ _ => false
  | balancing _ b => b.stop

def Core.lanes : Core n → Lanes n
  | assigning _ st => st.toLanes
  | balancing _ b => b.toLanes

/-- One round of the loops, with the values from `rand()`. -/
def coreStep (rt : Fin n → Fin n → List (Channel n)) (test : Lane n → List (Channel n) → List (Channel n) → Bool)
    (vlMin startVl : ℕ) : Core n → Fin n × Fin n → Option (Core n)
  | .assigning (p :: left) st, _ => (st.assignPair rt test vlMin startVl p).map (.assigning left)
  | .assigning [] st, _ => some (.balancing st.lanesNeeded (st.toLanes.startBalance st.lanesNeeded))
  | .balancing lanesNeeded b, start =>
    if b.stop then none else (b.round rt lanesNeeded startVl start test).map (.balancing lanesNeeded)

/-- No attempt of the round adds or takes away a dependency that it should not. -/
def Core.StepOk (rt : Fin n → Fin n → List (Channel n))
    (test : Lane n → List (Channel n) → List (Channel n) → Bool) :
    Core n → Fin n × Fin n → Prop
  | assigning (p :: _) st, _ => st.PairOk rt test p
  | assigning [] _, _ => True
  | balancing _ b, start => b.RoundOk rt test start

section Decide

variable (rt : Fin n → Fin n → List (Channel n)) (test : Lane n → List (Channel n) → List (Channel n) → Bool)

instance (P : Finset (Fin n × Fin n)) (s d : Fin n) : Decidable (NoShared rt P s d) :=
  inferInstanceAs (Decidable (∀ e e', afterBoth rt s d e = some e' → usesBoth rt P e e' = 0))

instance (P : Finset (Fin n × Fin n)) (m : Lane n) (s d : Fin n) : Decidable (BlankSlots rt P m s d) :=
  inferInstanceAs (Decidable (∀ e e', afterBoth rt s d e = some e' → usesBoth rt P e e' = 0 →
    ∀ v ∈ m e, (v.deps v.numDeps).numUsed = 0))

instance (st : Lanes n) (s d : Fin n) (l : ℕ) : Decidable (st.AttemptOk rt test s d l) :=
  inferInstanceAs (Decidable (if (st.tryLane rt test s d l).1 then NoShared rt (st.assigned l) s d
    else BlankSlots rt (st.assigned l) (st.cdg l) s d))

instance decidableFindOk (s d : Fin n) : ∀ (ls : List ℕ) (st : Lanes n), Decidable (Lanes.FindOk rt test s d ls st)
  | [], _ => .isTrue trivial
  | l :: ls, st =>
    have := decidableFindOk s d ls (st.tryLane rt test s d l).2
    inferInstanceAs (Decidable (st.AttemptOk rt test s d l ∧
      ((st.tryLane rt test s d l).1 = true → Lanes.FindOk rt test s d ls (st.tryLane rt test s d l).2)))

instance (c : Core n) (start : Fin n × Fin n) : Decidable (c.StepOk rt test start) :=
  match c with
  | .assigning (p :: _) st => inferInstanceAs (Decidable (p.1 ≠ p.2 → st.switchBitmap p.1 p.2 = false →
      Lanes.FindOk rt test p.1 p.2 (List.range st.lanesNeeded) st.toLanes))
  | .assigning [] _ => .isTrue trivial
  | .balancing _ b => inferInstanceAs (Decidable (∀ p ∈ searchPair (fun s d =>
      decide (b.virtualLocation s d b.maxFilledLane = 1)) start,
          b.toLanes.AttemptOk rt test p.1 p.2 b.minFilledLane))

end Decide

variable {rt : Fin n → Fin n → List (Channel n)} {test : Lane n → List (Channel n) → List (Channel n) → Bool}
  {vlMin startVl : ℕ} {c c' : Core n} {start : Fin n × Fin n}

/-- The state of the loops is consistent, and the graphs count the pairs in their lanes. -/
def Core.Sound (rt : Fin n → Fin n → List (Channel n)) : Core n → Prop
  | assigning _ st => Assigning st ∧ 0 < st.lanesNeeded ∧ CountedAll rt st.assigned st.toLanes
  | balancing lanesNeeded b =>
    (b.stop = false → Balancing lanesNeeded b ∧ b.minFilledLane ≠ b.maxFilledLane) ∧
        CountedAll rt b.assigned b.toLanes

lemma Core.Sound.counted (h : c.Sound rt) : CountedAll rt c.lanes.assigned c.lanes := by
  cases c with
  | assigning left st => exact h.2.2
  | balancing lanesNeeded b => exact h.2

lemma lanesNeeded_le {st st' : Assign n} {p : Fin n × Fin n}
    (h : st.assignPair rt test vlMin startVl p = some st') :
    st.lanesNeeded ≤ st'.lanesNeeded := by
  rcases assignPair_cases h with rfl | ⟨-, -, lanes, l, hfound, -⟩
  · exact le_rfl
  · exact hfound.spec.2.1

lemma Core.Sound.step (hrt : ∀ s d, s ≠ d → (rt s d ++ rt d s).Nodup) (h : c.Sound rt)
    (hok : c.StepOk rt test start)
    (hstep : coreStep rt test vlMin startVl c start = some c') : c'.Sound rt := by
  cases c with
  | assigning left st =>
    obtain ⟨hassigning, hpos, hcount⟩ := h
    cases left with
    | nil =>
      obtain rfl := Option.some.inj hstep
      refine ⟨fun hstop => ?_, hcount⟩
      have hne : st.lanesNeeded ≠ 1 := of_decide_eq_false hstop
      obtain ⟨hbal, hgo, -⟩ := start_balancing hassigning (by omega)
      exact ⟨hbal, hgo.ne⟩
    | cons p left =>
      obtain ⟨st', hst', rfl⟩ := Option.map_eq_some_iff.mp hstep
      exact ⟨(hassigning.step hst').1, hpos.trans_le (lanesNeeded_le hst'),
          assignPair_counted hrt hassigning hcount hok hst'⟩
  | balancing lanesNeeded b =>
    obtain ⟨hgo, hcount⟩ := h
    rw [coreStep] at hstep
    split_ifs at hstep with hstop
    obtain ⟨b', hround, rfl⟩ := Option.map_eq_some_iff.mp hstep
    obtain ⟨hbal, hne⟩ := hgo (Bool.eq_false_iff.mpr hstop)
    refine ⟨fun hstop' => ?_, round_counted hrt hbal hne hcount hok hround⟩
    obtain ⟨s, d, hs, rfl⟩ := round_cases hround
    have hmove := @hbal.move n rt test lanesNeeded startVl b s d hne hs
    exact ⟨hmove.pick.1, (hmove.pick_level hstop').ne⟩

lemma sound_init (left : List (Fin n × Fin n)) : (Core.assigning left initAssign).Sound rt := by
  refine ⟨assigning_init, one_pos, fun l => ?_⟩
  have hempty : (initAssign : Assign n).assigned l = ∅ := Finset.filter_eq_empty_iff.mpr fun _ _ h => h rfl
  rw [hempty]
  exact counted_empty fun _ => rfl

/-- The bookkeeping of every lane is exact in every state of a run whose rounds all meet their conditions. -/
theorem bookkeeping_exact (hG : (switchGraph f).Connected)
    (hsws : routingTables (processSwitches f false) = some sws) {run : List (Core n × (Fin n × Fin n))}
    (hrun : Runs.Run (coreStep (route sws) cycleTest vlMin startVl) (.assigning (pairs n) initAssign) run c)
    (hok : ∀ x ∈ run, x.1.StepOk (route sws) cycleTest x.2) (l : ℕ) :
    Exact (route sws) (c.lanes.assigned l) (c.lanes.cdg l) := by
  have hlead := leads_routingTables hG hsws
  have hsound : c.Sound (route sws) := hrun.invariant (sound_init _)
    (fun _ _ _ hs hq ha => hs.step (fun s d _ => nodup_routes hG hlead s d) hq ha) hok
  exact (hsound.counted l).exact

/-- Four switches: sixteen pairs, the start of the balancing, and one round of it. -/
theorem bookkeeping_exact_ring : ∃ sws run c, routingTables (processSwitches (ring 1) false) = some sws ∧
    Runs.Run (coreStep (route sws) cycleTest 8 0) (.assigning (pairs 4) initAssign) run c ∧ c.returned = true ∧
    ∀ l, Exact (route sws) (c.lanes.assigned l) (c.lanes.cdg l) := by
  have hcheck : (routingTables (processSwitches (ring 1) false)).elim false (fun sws =>
      (Runs.exec (coreStep (route sws) cycleTest 8 0) (.assigning (pairs 4) initAssign)
        (List.replicate 18 (0, 0))).elim false Core.returned &&
      (Runs.trace (coreStep (route sws) cycleTest 8 0) (.assigning (pairs 4) initAssign)
        (List.replicate 18 (0, 0))).all fun x => decide (x.1.StepOk (route sws) cycleTest x.2)) = true := by
    decide +kernel
  cases hsws : routingTables (processSwitches (ring 1) false) with
  | none =>
    rw [hsws] at hcheck
    cases hcheck
  | some sws =>
    rw [hsws, Option.elim_some, Bool.and_eq_true] at hcheck
    obtain ⟨run, c, hrun, hc, hok⟩ := Runs.Run.of_exec _ _ _ _ _ hcheck.1 hcheck.2
    exact ⟨sws, run, c, rfl, hrun, hc,
      bookkeeping_exact (connected_ring 1) hsws hrun fun x hx => of_decide_eq_true (hok x hx)⟩

/-- Six switches, after the pairs of the first two: a lane has rejected a pair whose route shares two channels
with a pair in it, and still counts it. -/
theorem bookkeeping_inexact : (switchGraph (ring 3)).Connected ∧ ∃ sws run c,
    routingTables (processSwitches (ring 3) false) = some sws ∧
    Runs.Run (coreStep (route sws) cycleTest 8 0) (.assigning (pairs 6) initAssign) run c ∧
    c.left = (pairs 6).drop 12 ∧ ¬Exact (route sws) (c.lanes.assigned 0) (c.lanes.cdg 0) := by
  have hcheck : (routingTables (processSwitches (ring 3) false)).elim false (fun sws =>
      (Runs.exec (coreStep (route sws) cycleTest 8 0) (.assigning (pairs 6) initAssign)
        (List.replicate 12 (0, 0))).elim false fun c => decide (c.left = (pairs 6).drop 12) &&
          (c.lanes.cdg 0 (1, 2)).elim false fun v => decide (0 < v.numDeps) &&
            decide (∀ e', (v.deps 0).numUsed ≠ usesBoth (route sws) (c.lanes.assigned 0) (1, 2) e')) = true := by
    decide +kernel
  cases hsws : routingTables (processSwitches (ring 3) false) with
  | none =>
    rw [hsws] at hcheck
    cases hcheck
  | some sws =>
    rw [hsws, Option.elim_some] at hcheck
    obtain ⟨run, c, hrun, hc, -⟩ :=
        Runs.Run.of_exec _ _ _ _ (fun _ => true) hcheck (List.all_eq_true.mpr fun _ _ => rfl)
    rw [Bool.and_eq_true] at hc
    refine ⟨connected_ring 3, sws, run, c, rfl, hrun, of_decide_eq_true hc.1, fun hexact => ?_⟩
    cases hv : c.lanes.cdg 0 (1, 2) with
    | none =>
      rw [hv] at hc
      cases hc.2
    | some v =>
      rw [hv, Option.elim_some, Bool.and_eq_true] at hc
      obtain ⟨e', -, -, -, -, hused⟩ := hexact.deps _ v hv 0 (of_decide_eq_true hc.2.1)
      exact of_decide_eq_true hc.2.2 e' hused

end Bookkeeping

section Return

variable {vlMin startVl : ℕ} {st : Assign n}

/-- The balancing returns, and every search for a pair finds one, exactly if all its rounds meet their
condition. -/
theorem balancing_returns_iff (hG : (switchGraph f).Connected)
    (hsws : routingTables (processSwitches f false) = some sws)
    (hst : assignLanes (route sws) cycleTest vlMin startVl = some st) (hl : 1 < st.lanesNeeded)
    (first : ℕ → Fin n × Fin n) (rejections : ℕ → Bool) :
    ((∃ k b, balanceRounds (route sws) startVl st first rejections k = some b ∧ b.stop = true) ∧
      ∀ k b, balanceRounds (route sws) startVl st first rejections k = some b → b.stop = false →
        ∃ s d, b.virtualLocation s d b.maxFilledLane = 1) ↔
    ∀ k b, balanceRounds (route sws) startVl st first rejections k = some b → b.stop = false →
      b.Spare st.lanesNeeded (rejections k) := by
  have hlead := leads_routingTables hG hsws
  obtain ⟨hassigning, hbegun⟩ := assignLanes_spec (nodup_routes hG hlead) hst
  have hfirst : (st.assigned 0).Nonempty := by
    refine hbegun.resolve_left ?_
    rintro rfl
    exact absurd hl (lt_irrefl 1)
  rw [← rounds_return_iff hassigning hl hfirst]
  refine and_congr_right fun _ => forall_congr' fun k => forall_congr' fun b => ?_
  refine imp_congr_right fun _ => imp_congr_right fun _ => ?_
  constructor
  · rintro ⟨s, d, hs⟩
    exact ⟨(s, d), mem_untried.mpr hs⟩
  · rintro ⟨p, hp⟩
    exact ⟨p.1, p.2, mem_untried.mp hp⟩

variable {rt : Fin n → Fin n → List (Channel n)} {first : ℕ → Fin n × Fin n} {rejections : ℕ → Bool}
    {b : Balance n}

lemma rounds_stay {k : ℕ} (hb : balanceRounds rt startVl st first rejections k = some b) (hstop : b.stop = true)
    (j : ℕ) : balanceRounds rt startVl st first rejections (k + j) = some b := by
  induction j with
  | zero => exact hb
  | succ j ih =>
    apply Option.bind_eq_some_iff.mpr
    exact ⟨b, ih, if_pos hstop⟩

lemma rounds_endless {k : ℕ} (hb : balanceRounds rt startVl st first rejections k = some b)
    (hstop : b.stop = false)
    (hnone : ∀ s d, b.virtualLocation s d b.maxFilledLane ≠ 1) (j : ℕ) :
    balanceRounds rt startVl st first rejections (k + (j + 1)) = none := by
  induction j with
  | zero =>
    refine Option.eq_none_iff_forall_ne_some.mpr fun c hc => ?_
    obtain ⟨b', hb', hround⟩ := Option.bind_eq_some_iff.mp hc
    obtain rfl := Option.some.inj (hb.symm.trans hb')
    rw [if_neg (Bool.eq_false_iff.mp hstop)] at hround
    obtain ⟨s, d, hs, -⟩ := round_cases hround
    exact hnone s d hs
  | succ j ih =>
    exact Option.bind_eq_none_iff.mpr fun c hc => absurd (ih.symm.trans hc) (Option.some_ne_none c).symm

/-- Four switches, and a cycle test that is against every move: in the fifth round one pair is left to try. -/
theorem balancing_returns_ring : ∃ sws st, routingTables (processSwitches (ring 1) false) = some sws ∧
    assignLanes (route sws) cycleTest 8 0 = some st ∧ 1 < st.lanesNeeded ∧
    (∃ b, balanceRounds (route sws) 0 st (fun _ => (0, 0)) (fun _ => true) 4 = some b ∧ b.stop = false ∧
      b.untried.card = 2) ∧
    ∃ k b, balanceRounds (route sws) 0 st (fun _ => (0, 0)) (fun _ => true) k = some b ∧ b.stop = true := by
  have hcheck : (routingTables (processSwitches (ring 1) false)).elim false (fun sws =>
      (assignLanes (route sws) cycleTest 8 0).elim false fun st => decide (1 < st.lanesNeeded) &&
        ((balanceRounds (route sws) 0 st (fun _ => (0, 0)) (fun _ => true) 4).elim false fun b =>
          !b.stop && decide (b.untried.card = 2)) &&
        ((balanceRounds (route sws) 0 st (fun _ => (0, 0)) (fun _ => true) 5).elim false (·.stop) &&
        (List.range 5).all fun k => (balanceRounds (route sws) 0 st (fun _ => (0, 0)) (fun _ => true) k).elim true
          fun b => decide (b.untried.card = 2 → b.trials = 2))) = true := by
    decide +kernel
  obtain ⟨sws, hsws⟩ := exists_routingTables (connected_ring 1)
  rw [hsws, Option.elim_some] at hcheck
  cases hst : assignLanes (route sws) cycleTest 8 0 with
  | none =>
    rw [hst] at hcheck
    cases hcheck
  | some st =>
    rw [hst, Option.elim_some, Bool.and_eq_true, Bool.and_eq_true, Bool.and_eq_true] at hcheck
    obtain ⟨⟨hl, hlast⟩, hstop, hall⟩ := hcheck
    refine ⟨sws, st, hsws, hst, of_decide_eq_true hl, ?_, ?_⟩
    · cases hb : balanceRounds (route sws) 0 st (fun _ => (0, 0)) (fun _ => true) 4 with
      | none =>
        rw [hb] at hlast
        cases hlast
      | some b =>
        rw [hb, Option.elim_some, Bool.and_eq_true, Bool.not_eq_true'] at hlast
        exact ⟨b, rfl, hlast.1, of_decide_eq_true hlast.2⟩
    · refine ((balancing_returns_iff (connected_ring 1) hsws hst (of_decide_eq_true hl) (fun _ => (0, 0))
        fun _ => true).mpr fun k b hb hgo => ?_).1
      rcases Nat.lt_or_ge k 5 with hk | hk
      · have htrials := List.all_eq_true.mp hall k (List.mem_range.mpr hk)
        rw [hb, Option.elim_some] at htrials
        exact fun htwo => .inl ⟨rfl, of_decide_eq_true htrials htwo⟩
      · cases hb₅ : balanceRounds (route sws) 0 st (fun _ => (0, 0)) (fun _ => true) 5 with
        | none =>
          rw [hb₅] at hstop
          cases hstop
        | some b₅ =>
          rw [hb₅] at hstop
          obtain ⟨j, rfl⟩ := Nat.exists_eq_add_of_le hk
          obtain rfl : b₅ = b := Option.some.inj ((rounds_stay hb₅ hstop j).symm.trans hb)
          exact absurd hstop (Bool.eq_false_iff.mp hgo)

/-- Five switches: after a pair that is moved and eight that are rejected there is none left to try, but a
trial. -/
theorem balancing_endless : (switchGraph (ring 2)).Connected ∧ ∃ sws st,
    routingTables (processSwitches (ring 2) false) = some sws ∧ assignLanes (route sws) cycleTest 8 0 = some st ∧
    1 < st.lanesNeeded ∧
    (∀ k b, balanceRounds (route sws) 0 st (fun _ => (0, 0)) (fun k => decide (k ≠ 0)) k = some b →
        b.stop = false) ∧
    ∃ b, balanceRounds (route sws) 0 st (fun _ => (0, 0)) (fun k => decide (k ≠ 0)) 9 = some b ∧
      ∀ s d, b.virtualLocation s d b.maxFilledLane ≠ 1 := by
  have hcheck : (routingTables (processSwitches (ring 2) false)).elim false (fun sws =>
      (assignLanes (route sws) cycleTest 8 0).elim false fun st => decide (1 < st.lanesNeeded) &&
        (balanceRounds (route sws) 0 st (fun _ => (0, 0)) (fun k => decide (k ≠ 0)) 9).elim false fun b =>
          !b.stop && decide (∀ s d, b.virtualLocation s d b.maxFilledLane ≠ 1)) = true := by
    decide +kernel
  obtain ⟨sws, hsws⟩ := exists_routingTables (connected_ring 2)
  rw [hsws, Option.elim_some] at hcheck
  cases hst : assignLanes (route sws) cycleTest 8 0 with
  | none =>
    rw [hst] at hcheck
    cases hcheck
  | some st =>
    rw [hst, Option.elim_some, Bool.and_eq_true] at hcheck
    obtain ⟨hl, hnine⟩ := hcheck
    cases hb : balanceRounds (route sws) 0 st (fun _ => (0, 0)) (fun k => decide (k ≠ 0)) 9 with
    | none =>
      rw [hb] at hnine
      cases hnine
    | some b =>
      rw [hb, Option.elim_some, Bool.and_eq_true, Bool.not_eq_true'] at hnine
      have hnone := of_decide_eq_true hnine.2
      refine ⟨connected_ring 2, sws, st, hsws, hst, of_decide_eq_true hl, fun k c hc => ?_, b, hb, hnone⟩
      rcases Nat.lt_or_ge 9 k with hlt | hle
      · obtain ⟨j, rfl⟩ := Nat.exists_eq_add_of_lt hlt
        exact absurd ((rounds_endless hb hnine.1 hnone j).symm.trans hc) (Option.some_ne_none c).symm
      · obtain ⟨j, hj⟩ := Nat.exists_eq_add_of_le hle
        cases hstop : c.stop with
        | false => rfl
        | true =>
          rw [hj, rounds_stay hc hstop j] at hb
          rw [Option.some.inj hb, hnine.1] at hstop
          exact hstop.symm

end Return

end OpenSM.Lash
