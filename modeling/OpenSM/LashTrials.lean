import OpenSM.LashBalance

/-! When the balancing of the lanes ends. -/

namespace OpenSM.Lash

variable {n : ℕ} {rt : Fin n → Fin n → List (Channel n)} {lanesNeeded startVl : ℕ} {b b' : Balance n} {s d : Fin n}
  {start : Fin n × Fin n} {rejected : Bool}

/-- The last untried pair in the fullest lane must stop the loop or change the lanes: where the test rejects it
nothing has been moved since the trials were counted, and where it is moved the lanes get close or another lane
is the fullest or the emptiest one. -/
def Balance.Spare (lanesNeeded : ℕ) (b : Balance n) (rejected : Bool) : Prop :=
  b.untried.card = 2 →
    rejected = true ∧ b.trials = 2 ∨
    rejected = false ∧ (b.numMstInLane b.maxFilledLane - b.numMstInLane b.minFilledLane < balanceLimit + 4 ∨
      Balance.Shifted
        { b with toLanes := (b.toLanes.addMst b.maxFilledLane (-2)).addMst b.minFilledLane 2 } lanesNeeded)

structure Going (lanesNeeded : ℕ) (b : Balance n) : Prop where
  ne : b.minFilledLane ≠ b.maxFilledLane
  level : Level lanesNeeded b ∨ b.trials = b.untried.card
  trials_ne : b.untried.Nonempty → b.trials ≠ 0

lemma rejects_const : b.rejects rt (fun _ _ _ => rejected) s d = rejected := by
  rw [Balance.rejects, Lanes.tryLane]
  split_ifs with h
  · exact h.symm
  · exact (Bool.eq_false_iff.mpr h).symm

lemma both_subset_untried (h : Balancing lanesNeeded b) (hs : b.virtualLocation s d b.maxFilledLane = 1) :
    both s d ⊆ b.untried := by
  intro p hp
  rw [mem_untried]
  rcases mem_both.mp hp with ⟨h₁, h₂⟩ | ⟨h₁, h₂⟩
  · rwa [h₁, h₂]
  · rwa [h₁, h₂, h.located.symm]

lemma card_untried_sdiff (h : Balancing lanesNeeded b) (hs : b.virtualLocation s d b.maxFilledLane = 1) :
    (b.untried \ both s d).card + 2 = b.untried.card := by
  have hne : b.virtualLocation s d b.maxFilledLane ≠ 0 := by
    rw [hs]
    exact one_ne_zero
  have hle := Finset.card_le_card (both_subset_untried h hs)
  rw [card_both (h.located.ne hne)] at hle
  rw [Finset.card_sdiff_of_subset (both_subset_untried h hs), card_both (h.located.ne hne)]
  omega

lemma untried_pick_of_shifted (h : Balancing lanesNeeded b) (hsh : b.Shifted lanesNeeded) :
    (b.pick lanesNeeded).untried = (b.pick lanesNeeded).assigned (b.pick lanesNeeded).maxFilledLane := by
  ext p
  rw [mem_untried, mem_assigned, h.pick_virtualLocation hsh]
  have hle := h.located.le_two p.1 p.2 (b.pick lanesNeeded).maxFilledLane
  split_ifs <;> omega

lemma untried_pick_of_not (hsh : ¬b.Shifted lanesNeeded) : (b.pick lanesNeeded).untried = b.untried := by
  have hkeep : b.maxFilledLane = (b.pick lanesNeeded).maxFilledLane := not_not.mp (not_or.mp hsh).2
  ext p
  rw [mem_untried, mem_untried, pick_virtualLocation_of_not hsh, ← hkeep]

lemma Level.nonempty (h : Level lanesNeeded b) (hb : Balancing lanesNeeded b) :
    (b.assigned b.maxFilledLane).Nonempty := by
  have hgap := h.gap
  rw [hb.located.num, hb.located.num, balanceLimit] at hgap
  rw [← Finset.card_pos]
  omega

lemma Balancing.pick_going (h : Balancing lanesNeeded b) (hstop : (b.pick lanesNeeded).stop = false) :
    Going lanesNeeded (b.pick lanesNeeded) := by
  have hlevel := h.pick_level hstop
  refine ⟨hlevel.ne, .inl hlevel, fun _ => ?_⟩
  obtain ⟨htrials, -⟩ := pick_stop.mp hstop
  rw [pick_trials]
  split_ifs
  · have hpos := Finset.card_pos.mpr (hlevel.nonempty h.pick.1)
    have hnum := h.pick.1.located.num (b.pick lanesNeeded).maxFilledLane
    rw [pick_frame.1] at hnum
    change b.numMstInLane (pickMax b.numMstInLane lanesNeeded b.maxFilledLane) = _ at hnum
    rw [hnum]
    omega
  · exact htrials

lemma stop_or_nonempty_of_shifted (h : Balancing lanesNeeded b) (hsh : b.Shifted lanesNeeded) :
    (b.pick lanesNeeded).stop = true ∨ (b.pick lanesNeeded).untried.Nonempty := by
  cases hstop : (b.pick lanesNeeded).stop with
  | true => exact .inl rfl
  | false =>
    refine .inr ?_
    rw [untried_pick_of_shifted h hsh]
    exact (h.pick_level hstop).nonempty h.pick.1

lemma stop_iff : (b.pick lanesNeeded).stop = true ↔ b.trials = 0 ∨
    b.numMstInLane b.maxFilledLane - b.numMstInLane b.minFilledLane < balanceLimit := by
  rw [← Bool.not_eq_false, pick_stop, not_and_or, not_not, not_le]

/-- A round leaves an untried pair, or is the last one, exactly when its condition is met. -/
lemma pick_spare (h : Balancing lanesNeeded b) (hgo : Going lanesNeeded b)
    (hs : b.virtualLocation s d b.maxFilledLane = 1) :
    ((b.move rt startVl (fun _ _ _ => rejected) s d).pick lanesNeeded).stop = true ∨
      ((b.move rt startVl (fun _ _ _ => rejected) s d).pick lanesNeeded).untried.Nonempty ↔
    b.Spare lanesNeeded rejected := by
  have hcard := card_untried_sdiff h hs
  have htrials := hgo.trials_ne ⟨(s, d), mem_untried.mpr hs⟩
  obtain ⟨hmin, hmax⟩ := @move_lanes n rt (fun _ _ _ => rejected) startVl b s d
  have hstop := @stop_iff n lanesNeeded (b.move rt startVl (fun _ _ _ => rejected) s d)
  rw [hmin, hmax] at hstop
  -- With another pair left, or with new lanes, there is nothing to show.
  have hrest : ∀ c : Balance n, ¬c.Shifted lanesNeeded → c.untried = b.untried \ both s d → b.untried.card ≠ 2 →
      (c.pick lanesNeeded).untried.Nonempty := by
    intro c hsh hun hne
    rw [untried_pick_of_not hsh, hun, ← Finset.card_pos]
    omega
  have hlast : ∀ c : Balance n, ¬c.Shifted lanesNeeded → c.untried = b.untried \ both s d → b.untried.card = 2 →
      ¬(c.pick lanesNeeded).untried.Nonempty := by
    intro c hsh hun htwo
    rw [untried_pick_of_not hsh, hun, ← Finset.card_pos]
    omega
  cases rejected with
  | true =>
    obtain ⟨hmove, -, hnum, htr, hun⟩ := @h.reject n rt (fun _ _ _ => true) lanesNeeded startVl b s d
        hs rejects_const
    rw [hnum, htr] at hstop
    have hsh : (b.move rt startVl (fun _ _ _ => true) s d).Shifted lanesNeeded ↔ b.Shifted lanesNeeded := by
      rw [Balance.Shifted, Balance.Shifted, hmin, hmax, hnum]
    by_cases hshift : b.Shifted lanesNeeded
    · refine iff_of_true (stop_or_nonempty_of_shifted hmove (hsh.mpr hshift)) fun htwo => .inl ⟨rfl, ?_⟩
      rw [hgo.level.resolve_left fun hl => hl.steady hshift, htwo]
      rfl
    · have hnot := mt hsh.mp hshift
      by_cases htwo : b.untried.card = 2
      · rw [or_iff_left (hlast _ hnot hun htwo), hstop]
        constructor
        · rintro (h0 | hgap) _
          · exact .inl ⟨rfl, by omega⟩
          · rcases hgo.level with hl | ht
            · exact absurd hgap (not_lt.mpr hl.gap)
            · exact .inl ⟨rfl, by rw [ht, htwo]; rfl⟩
        · intro hspare
          rcases hspare htwo with ⟨-, h2⟩ | ⟨h, -⟩
          · exact .inl (by omega)
          · cases h
      · exact iff_of_true (.inr (hrest _ hnot hun htwo)) fun h2 => absurd h2 htwo
  | false =>
    obtain ⟨hmove, -, -, -, hnum, htr, hun⟩ :=
      @h.accept n rt (fun _ _ _ => false) lanesNeeded startVl b s d hgo.ne hs rejects_const
    have hsh : (b.move rt startVl (fun _ _ _ => false) s d).Shifted lanesNeeded ↔ Balance.Shifted
        { b with toLanes := (b.toLanes.addMst b.maxFilledLane (-2)).addMst b.minFilledLane 2 } lanesNeeded := by
      rw [Balance.Shifted, Balance.Shifted, hmin, hmax, hnum]
    rw [hnum, htr] at hstop
    simp only [Lanes.addMst, Function.update_self, Function.update_of_ne hgo.ne.symm,
      Function.update_of_ne hgo.ne] at hstop
    by_cases hshift : (b.move rt startVl (fun _ _ _ => false) s d).Shifted lanesNeeded
    · exact iff_of_true (stop_or_nonempty_of_shifted hmove hshift) fun _ => .inr ⟨rfl, .inr (hsh.mp hshift)⟩
    · by_cases htwo : b.untried.card = 2
      · rw [or_iff_left (hlast _ hshift hun htwo), hstop]
        constructor
        · rintro (h0 | hgap) _
          · exact absurd h0 htrials
          · exact .inr ⟨rfl, .inl (by omega)⟩
        · intro hspare
          rcases hspare htwo with ⟨h, -⟩ | ⟨-, hgap | hs'⟩
          · cases h
          · exact .inr (by omega)
          · exact absurd (hsh.mpr hs') hshift
      · exact iff_of_true (.inr (hrest _ hshift hun htwo)) fun h2 => absurd h2 htwo

lemma sum_sq_lt {S : Finset ℕ} {g g' : ℕ → ℕ} {x y : ℕ} (hx : x ∈ S) (hy : y ∈ S) (hne : y ≠ x)
    (hgx : g' x + 2 = g x) (hgy : g' y = g y + 2) (hrest : ∀ l, l ≠ x → l ≠ y → g' l = g l) (hlt : g y < g' x) :
    ∑ l ∈ S, g' l ^ 2 < ∑ l ∈ S, g l ^ 2 := by
  have hsplit : ∀ k : ℕ → ℕ, ∑ l ∈ S, k l ^ 2 = k x ^ 2 + (k y ^ 2 + ∑ l ∈ (S.erase x).erase y, k l ^ 2) := by
    intro k
    rw [Finset.add_sum_erase (S.erase x) (fun l => k l ^ 2) (Finset.mem_erase.mpr ⟨hne, hy⟩),
      Finset.add_sum_erase S (fun l => k l ^ 2) hx]
  have hsame : ∑ l ∈ (S.erase x).erase y, g' l ^ 2 = ∑ l ∈ (S.erase x).erase y, g l ^ 2 := by
    refine Finset.sum_congr rfl fun l hl => ?_
    rw [Finset.mem_erase, Finset.mem_erase] at hl
    rw [hrest l hl.2.1 hl.1]
  rw [hsplit, hsplit, hsame, hgy, ← hgx]
  nlinarith

/-- What bounds the rounds: a move evens out the lanes, and a mark leaves one pair less to try. -/
def Balance.weight (lanesNeeded : ℕ) (b : Balance n) : ℕ :=
  (∑ l ∈ Finset.range lanesNeeded, (b.assigned l).card ^ 2) * (n * n + 1) + b.untried.card

lemma weight_lt (h : Balancing lanesNeeded b) (hl : Level lanesNeeded b)
    (hs : b.virtualLocation s d b.maxFilledLane = 1) :
    Balance.weight lanesNeeded ((b.move rt startVl (fun _ _ _ => rejected) s d).pick lanesNeeded) <
      b.weight lanesNeeded := by
  have hcard := card_untried_sdiff h hs
  cases rejected with
  | true =>
    obtain ⟨hmove, hassigned, hnum, -, hun⟩ :=
      @h.reject n rt (fun _ _ _ => true) lanesNeeded startVl b s d hs rejects_const
    obtain ⟨hmin, hmax⟩ := @move_lanes n rt (fun _ _ _ => true) startVl b s d
    have hsh : ¬(b.move rt startVl (fun _ _ _ => true) s d).Shifted lanesNeeded := by
      rw [Balance.Shifted, hmin, hmax, hnum]
      exact hl.steady
    rw [Balance.weight, Balance.weight, hmove.pick.2, hassigned, untried_pick_of_not hsh, hun]
    omega
  | false =>
    obtain ⟨hmove, hout, hin, hother, -, -, -⟩ :=
      @h.accept n rt (fun _ _ _ => false) lanesNeeded startVl b s d hl.ne hs rejects_const
    have hne : b.virtualLocation s d b.maxFilledLane ≠ 0 := by
      rw [hs]
      exact one_ne_zero
    have hfree : b.virtualLocation s d b.minFilledLane = 0 := by
      by_contra hmin
      exact hl.ne (h.located.unique s d _ _ hmin hne)
    have hbig := Finset.card_le_card (h.located.both_subset hne)
    rw [card_both (h.located.ne hne)] at hbig
    have hgap := hl.gap
    rw [h.located.num, h.located.num, balanceLimit] at hgap
    have hmaxCard : ((b.move rt startVl (fun _ _ _ => false) s d).assigned b.maxFilledLane).card + 2 =
        (b.assigned b.maxFilledLane).card := by
      rw [hout, Finset.card_sdiff_of_subset (h.located.both_subset hne), card_both (h.located.ne hne)]
      omega
    have hminCard : ((b.move rt startVl (fun _ _ _ => false) s d).assigned b.minFilledLane).card =
        (b.assigned b.minFilledLane).card + 2 := by
      rw [hin, Finset.card_union_of_disjoint (h.located.both_disjoint hfree), card_both (h.located.ne hne)]
    have hsum := @sum_sq_lt (Finset.range lanesNeeded) (fun l => (b.assigned l).card)
      (fun l => ((b.move rt startVl (fun _ _ _ => false) s d).assigned l).card) b.maxFilledLane b.minFilledLane
      (Finset.mem_range.mpr h.maxLt) (Finset.mem_range.mpr h.minLt) hl.ne hmaxCard hminCard
      (fun l hx hy => by rw [hother l hx hy]) (by omega)
    have hun : ((b.move rt startVl (fun _ _ _ => false) s d).pick lanesNeeded).untried.card ≤ n * n := by
      refine (Finset.card_le_univ _).trans_eq ?_
      rw [Fintype.card_prod, Fintype.card_fin]
    rw [Balance.weight, Balance.weight, hmove.pick.2]
    nlinarith

section Loop

variable {st : Assign n} {vlMin : ℕ} {first : ℕ → Fin n × Fin n} {rejections : ℕ → Bool}

def balanceRounds (rt : Fin n → Fin n → List (Channel n)) (startVl : ℕ) (st : Assign n) (first : ℕ → Fin n × Fin n)
    (rejections : ℕ → Bool) : ℕ → Option (Balance n) :=
  balanceVirtualLanes rt st.lanesNeeded startVl st.toLanes first fun k _ _ _ => rejections k

lemma start_balancing (h : Assigning st) (hl : 1 < st.lanesNeeded) :
    Balancing st.lanesNeeded (st.toLanes.startBalance st.lanesNeeded) ∧
      Going st.lanesNeeded (st.toLanes.startBalance st.lanesNeeded) ∧
      (st.toLanes.startBalance st.lanesNeeded).untried = st.assigned 0 := by
  have hun : (st.toLanes.startBalance st.lanesNeeded).untried = st.assigned 0 := by
    ext p
    rw [mem_untried, mem_assigned]
    have hle := h.unmarked p.1 p.2 0
    change st.virtualLocation p.1 p.2 0 = 1 ↔ _
    omega
  have htrials : (st.toLanes.startBalance st.lanesNeeded).trials = (st.assigned 0).card := h.located.num 0
  refine ⟨⟨h.located, fun s d l hk => ?_, ?_, ?_⟩, ⟨?_, .inr ?_, fun hne => ?_⟩, hun⟩
  · have hle := h.unmarked s d l
    change st.virtualLocation s d l = 2 at hk
    omega
  · exact Nat.sub_lt (by omega) one_pos
  · exact Nat.zero_lt_of_lt hl
  · change st.lanesNeeded - 1 ≠ 0
    omega
  · rw [htrials, hun]
  · rw [hun, ← Finset.card_pos] at hne
    rw [htrials]
    omega

lemma round_of_untried (h : b.untried.Nonempty) (test : Lane n → List (Channel n) → List (Channel n) → Bool) :
    ∃ s d, b.virtualLocation s d b.maxFilledLane = 1 ∧
      b.round rt lanesNeeded startVl start test = some ((b.move rt startVl test s d).pick lanesNeeded) := by
  obtain ⟨p, hp⟩ := h
  have hcand : decide (b.virtualLocation p.1 p.2 b.maxFilledLane = 1) = true := decide_eq_true (mem_untried.mp hp)
  obtain ⟨q, hq⟩ := @searchPair_exists n
    (fun s d => decide (b.virtualLocation s d b.maxFilledLane = 1)) p.1 p.2 hcand start
  refine ⟨q.1, q.2, of_decide_eq_true (searchPair_some hq), ?_⟩
  rw [Balance.round, hq]
  rfl

lemma rounds_inv (h : Assigning st) (hl : 1 < st.lanesNeeded) (k : ℕ)
    (hb : balanceRounds rt startVl st first rejections k = some b) :
    Balancing st.lanesNeeded b ∧ (b.stop = false → Going st.lanesNeeded b ∧ (k ≠ 0 → Level st.lanesNeeded b)) := by
  induction k generalizing b with
  | zero =>
    obtain rfl := Option.some.inj hb
    exact ⟨(start_balancing h hl).1, fun _ => ⟨(start_balancing h hl).2.1, fun hne => absurd rfl hne⟩⟩
  | succ k ih =>
    obtain ⟨c, hc, hround⟩ := Option.bind_eq_some_iff.mp hb
    obtain ⟨hbal, hgo⟩ := ih hc
    split_ifs at hround with hstop
    · obtain rfl := Option.some.inj hround
      exact ⟨hbal, fun hfalse => absurd hstop (by rw [hfalse]; exact Bool.false_ne_true)⟩
    · obtain ⟨s, d, hs, rfl⟩ := round_cases hround
      have hgoing := (hgo (Bool.eq_false_iff.mpr hstop)).1
      have hmove := @hbal.move n rt (fun _ _ _ => rejections k) _ startVl c s d hgoing.ne hs
      exact ⟨hmove.pick.1, fun hgoOn => ⟨hmove.pick_going hgoOn, fun _ => hmove.pick_level hgoOn⟩⟩

lemma rounds_succ (k : ℕ) (hb : balanceRounds rt startVl st first rejections k = some b) (hstop : b.stop = false)
    (hne : b.untried.Nonempty) : ∃ s d, b.virtualLocation s d b.maxFilledLane = 1 ∧
    balanceRounds rt startVl st first rejections (k + 1) =
      some ((b.move rt startVl (fun _ _ _ => rejections k) s d).pick st.lanesNeeded) := by
  obtain ⟨s, d, hs, hround⟩ := @round_of_untried n rt st.lanesNeeded startVl b (first k) hne
      fun _ _ _ => rejections k
  refine ⟨s, d, hs, ?_⟩
  rw [balanceRounds, balanceVirtualLanes]
  rw [balanceRounds] at hb
  rw [hb, Option.bind_some, hstop]
  exact hround

lemma rounds_end (h : Assigning st) (hl : 1 < st.lanesNeeded)
    (hspare : ∀ k b, balanceRounds rt startVl st first rejections k = some b → b.stop = false →
      b.Spare st.lanesNeeded (rejections k)) (w k : ℕ)
    (hb : balanceRounds rt startVl st first rejections k = some b) (hne : b.stop = true ∨ b.untried.Nonempty)
    (hk : k ≠ 0) (hw : b.weight st.lanesNeeded < w) :
    ∃ j b', balanceRounds rt startVl st first rejections j = some b' ∧ b'.stop = true := by
  induction w generalizing k b with
  | zero => exact absurd hw (Nat.not_lt_zero _)
  | succ w ih =>
    cases hstop : b.stop with
    | true => exact ⟨k, b, hb, hstop⟩
    | false =>
      obtain ⟨hbal, hgo⟩ := rounds_inv h hl k hb
      obtain ⟨hgoing, hlevel⟩ := hgo hstop
      have hnonempty := hne.resolve_left (Bool.eq_false_iff.mp hstop)
      obtain ⟨s, d, hs, hnext⟩ := rounds_succ k hb hstop hnonempty
      exact ih (k + 1) hnext ((pick_spare hbal hgoing hs).mpr (hspare k b hb hstop)) (Nat.succ_ne_zero k)
        ((weight_lt hbal (hlevel hk) hs).trans_le (Nat.lt_succ_iff.mp hw))

/-- The loop ends, and every search for a pair with it, exactly if all its rounds meet the condition. -/
lemma rounds_return_iff (h : Assigning st) (hl : 1 < st.lanesNeeded) (hfirst : (st.assigned 0).Nonempty) :
    ((∃ k b, balanceRounds rt startVl st first rejections k = some b ∧ b.stop = true) ∧
      ∀ k b, balanceRounds rt startVl st first rejections k = some b → b.stop = false → b.untried.Nonempty) ↔
    ∀ k b, balanceRounds rt startVl st first rejections k = some b → b.stop = false →
      b.Spare st.lanesNeeded (rejections k) := by
  constructor
  · rintro ⟨-, hall⟩ k b hb hstop
    obtain ⟨hbal, hgo⟩ := rounds_inv h hl k hb
    obtain ⟨s, d, hs, hnext⟩ := rounds_succ k hb hstop (hall k b hb hstop)
    apply (@pick_spare n rt _ startVl b s d _ hbal (hgo hstop).1 hs).mp
    cases hstop' : ((b.move rt startVl (fun _ _ _ => rejections k) s d).pick st.lanesNeeded).stop with
    | true => exact .inl rfl
    | false => exact .inr (hall (k + 1) _ hnext hstop')
  · intro hspare
    have hall : ∀ k b, balanceRounds rt startVl st first rejections k = some b → b.stop = true ∨
        b.untried.Nonempty := by
      intro k
      induction k with
      | zero =>
        intro b hb
        obtain rfl := Option.some.inj hb
        rw [(start_balancing h hl).2.2]
        exact .inr hfirst
      | succ k ih =>
        intro b' hb'
        obtain ⟨b, hb, hround⟩ := Option.bind_eq_some_iff.mp hb'
        split_ifs at hround with hstop
        · obtain rfl := Option.some.inj hround
          exact .inl hstop
        · have hfalse := Bool.eq_false_iff.mpr hstop
          obtain ⟨hbal, hgo⟩ := rounds_inv h hl k hb
          obtain ⟨s, d, hs, rfl⟩ := round_cases hround
          exact (pick_spare hbal (hgo hfalse).1 hs).mpr (hspare k b hb hfalse)
    refine ⟨?_, fun k b hb hstop => (hall k b hb).resolve_left (Bool.eq_false_iff.mp hstop)⟩
    have hzero : balanceRounds rt startVl st first rejections 0 = some (st.toLanes.startBalance st.lanesNeeded) :=
        rfl
    have hstop₀ : (st.toLanes.startBalance st.lanesNeeded).stop = false := decide_eq_false (by omega)
    have hne₀ : (st.toLanes.startBalance st.lanesNeeded).untried.Nonempty := by
      rw [(start_balancing h hl).2.2]
      exact hfirst
    obtain ⟨s, d, hs, hone⟩ := rounds_succ 0 hzero hstop₀ hne₀
    exact rounds_end h hl hspare _ 1 hone (hall 1 _ hone) one_ne_zero (Nat.lt_succ_self _)

end Loop

end OpenSM.Lash
