import OpenSM.EventWheelSound

/-! When a pass of `__cl_event_wheel_callback` ends: an event whose callback returns the pass's own time is not
retired and has aged already, so it is called again. -/

namespace OpenSM.EventWheel

/-- The results that the rounds of a pass see while the callbacks return `f k`, `f (k + 1)` and so on: an event
without a callback takes none of them. -/
def rounds (now : UInt64) (f : ℕ → UInt64) : ℕ → ℕ → Wheel → List UInt64
  | 0, _, _ => []
  | n + 1, k, w =>
    match w.eventsWheel with
    | [] => []
    | p :: rest =>
      if (w.event p).hasCallback then f k :: rounds now f n (k + 1) (w.age now p rest (f k))
      else 0 :: rounds now f n k (w.age now p rest 0)

/-- List and map hold the same events under keys of their own, the list in the order of the aging times. -/
structure Represents (w : Wheel) : Prop where
  sorted : w.eventsWheel.Pairwise fun p q => (w.event p).agingTime ≤ (w.event q).agingTime
  nodup : w.eventsWheel.Nodup
  map : ∀ key p, w.eventsMap key = some p ↔ p ∈ w.eventsWheel ∧ (w.event p).key = key
  keys : ∀ p ∈ w.eventsWheel, ∀ q ∈ w.eventsWheel, (w.event p).key = (w.event q).key → p = q

/-- The pass at `now` whose callbacks return `f 0`, `f 1`, ... ends, and no event of the wheel is below `now`
then. -/
def PassClean (w : Wheel) (now : UInt64) (f : ℕ → UInt64) : Prop :=
  ∃ n w', callback w now (rounds now f n 0 { w with timer := none }) = some w' ∧
    ∀ p ∈ w'.eventsWheel, ¬(w'.event p).agingTime < now

def Event.isAged (e : Event) (now : UInt64) (hasCallback : Bool) : Bool :=
  decide (e.agingTime ≤ now) && e.hasCallback == hasCallback

def Wheel.aged (w : Wheel) (now : UInt64) (hasCallback : Bool) : ℕ :=
  w.eventsWheel.countP fun p => (w.event p).isAged now hasCallback

/-- How many of `f k`, ..., `f (k + m - 1)` are another time than `now`. -/
def others (now : UInt64) (f : ℕ → UInt64) (k m : ℕ) : ℕ := (List.range' k m).countP fun i => f i != now

/-- The callbacks return another time than the pass's as often as there are aged events to get rid of. -/
def Settles (w : Wheel) (now : UInt64) (f : ℕ → UInt64) : Prop :=
  (now = 0 → w.aged now false = 0) ∧ ∃ m, w.aged now true ≤ others now f 0 m

variable {w w' : Wheel} {l : List ℕ} {p k m n : ℕ} {now : UInt64} {f : ℕ → UInt64} {b : Bool}

section Rounds

lemma others_succ : others now f k (m + 1) = (if f k ≠ now then 1 else 0) + others now f (k + 1) m := by
  rw [others, others, List.range'_succ, List.countP_cons, Nat.add_comm]
  simp only [bne_iff_ne]

lemma others_mono (h : m ≤ n) : others now f k m ≤ others now f k n :=
  (List.range'_sublist_right.mpr h).countP_le

lemma aged_empty (hw : w.eventsWheel = []) : w.aged now b = 0 := by
  rw [Wheel.aged, hw, List.countP_nil]

lemma Sound.aged_late (h : Sound w) (hw : w.eventsWheel = p :: l) (hp : ¬(w.event p).agingTime ≤ now) :
    w.aged now b = 0 := by
  rw [Wheel.aged, List.countP_eq_zero]
  intro q hq
  have hlate := h.late hw hp q hq
  rw [Event.isAged, Bool.and_eq_true, decide_eq_true_iff, UInt64.le_iff_toNat_le]
  omega

lemma aged_cons (hw : w.eventsWheel = p :: l) (hp : (w.event p).agingTime ≤ now) :
    w.aged now b = (l.countP fun q => (w.event q).isAged now b) +
        if (w.event p).hasCallback = b then 1 else 0 := by
  rw [Wheel.aged, hw, List.countP_cons]
  simp only [Event.isAged, hp, decide_true, Bool.true_and, beq_iff_eq]

lemma Sound.aged_age (h : Sound w) (hw : w.eventsWheel = p :: l) (hp : (w.event p).agingTime ≤ now)
    {returned next : UInt64}
    (hnext : (if (w.event p).hasCallback then returned else 0) = next) :
    w.aged now b = (w.age now p l returned).aged now b + if next ≠ now ∧
        (w.event p).hasCallback = b then 1 else 0 := by
  have hnodup := h.nodup
  rw [hw] at hnodup
  have hpl : p ∉ l := (List.nodup_cons.mp hnodup).1
  rw [aged_cons hw hp, Wheel.age]
  simp only [hnext]
  by_cases hlt : next < now
  · rw [if_pos hlt]
    have hne : next ≠ now := UInt64.ne_of_lt hlt
    simp only [hne, ne_eq, not_false_eq_true, true_and]
    rfl
  · rw [if_neg hlt, Wheel.aged]
    set e : Event := { w.event p with agingTime := next, numRegs := (w.event p).numRegs + 1 }
    have hsame : (l.countP fun q => (Function.update w.event p e q).isAged now b) =
        l.countP fun q => (w.event q).isAged now b := by
      refine List.countP_congr fun q hq => ?_
      rw [Function.update_of_ne (ne_of_mem_of_not_mem hq hpl)]
    have hiff : next ≤ now ↔ next = now := by
      rw [UInt64.lt_iff_toNat_lt] at hlt
      rw [UInt64.le_iff_toNat_le, ← UInt64.toNat_inj]
      omega
    dsimp only
    rw [insertSorted_perm.countP_eq, List.countP_cons, Function.update_self, hsame, Nat.add_assoc]
    refine congrArg _ ?_
    by_cases heq : next = now <;> by_cases hb : (w.event p).hasCallback = b <;>
        simp [e, Event.isAged, hiff, heq, hb]

lemma Sound.settles_of_pass (h : Sound w) (hw : EventWheel.pass now (rounds now f n k w) w = some w') :
    (now = 0 → w.aged now false = 0) ∧ w.aged now true ≤ others now f k n := by
  induction n generalizing k w with
  | zero =>
    cases hl : w.eventsWheel with
    | nil => exact ⟨fun _ => aged_empty hl, (aged_empty hl).trans_le (Nat.zero_le _)⟩
    | cons p l =>
      by_cases hp : (w.event p).agingTime ≤ now
      · rw [rounds, pass_running hl hp] at hw
        cases hw
      · exact ⟨fun _ => h.aged_late hl hp, (h.aged_late hl hp).trans_le (Nat.zero_le _)⟩
  | succ n ih =>
    cases hl : w.eventsWheel with
    | nil => exact ⟨fun _ => aged_empty hl, (aged_empty hl).trans_le (Nat.zero_le _)⟩
    | cons p l =>
      by_cases hp : (w.event p).agingTime ≤ now
      · cases hcb : (w.event p).hasCallback with
        | true =>
          simp only [rounds, hl, hcb, if_true, pass_aged hl hp] at hw
          obtain ⟨hz, hle⟩ := ih (h.age hl) hw
          have hnext : (if (w.event p).hasCallback then f k else 0) = f k := by rw [hcb, if_pos rfl]
          have hfalse := h.aged_age (b := false) hl hp hnext
          have htrue := h.aged_age (b := true) hl hp hnext
          simp only [hcb, and_true, Bool.true_eq_false, and_false, if_false, Nat.add_zero] at hfalse htrue
          rw [hfalse, htrue, others_succ, Nat.add_comm]
          exact ⟨hz, Nat.add_le_add_left hle _⟩
        | false =>
          simp only [rounds, hl, hcb, Bool.false_eq_true, if_false, pass_aged hl hp] at hw
          obtain ⟨hz, hle⟩ := ih (h.age hl) hw
          have hnext : (if (w.event p).hasCallback then (0 : UInt64) else 0) = 0 := ite_self _
          have hfalse := h.aged_age (b := false) hl hp hnext
          have htrue := h.aged_age (b := true) hl hp hnext
          simp only [hcb, and_true, Bool.false_eq_true, and_false, if_false, Nat.add_zero] at hfalse htrue
          refine ⟨fun hnow => ?_, htrue.trans_le (hle.trans (others_mono n.le_succ))⟩
          rw [hfalse, hz hnow, hnow]
          rfl
      · exact ⟨fun _ => h.aged_late hl hp, (h.aged_late hl hp).trans_le (Nat.zero_le _)⟩

lemma Sound.pass_of_settles (h : Sound w) (hz : now = 0 → w.aged now false = 0)
    (hm : w.aged now true ≤ others now f k m) : ∃ n w', EventWheel.pass now (rounds now f n k w) w = some w' := by
  -- Each round uses up a result or gets rid of an event that has no callback.
  induction hN : m + w.aged now false using Nat.strong_induction_on generalizing m k w with
  | _ N ih =>
    cases hl : w.eventsWheel with
    | nil => exact ⟨0, w, pass_empty hl _⟩
    | cons p l =>
      by_cases hp : (w.event p).agingTime ≤ now
      · cases hcb : (w.event p).hasCallback with
        | true =>
          have hnext : (if (w.event p).hasCallback then f k else 0) = f k := by rw [hcb, if_pos rfl]
          have hfalse := h.aged_age (b := false) hl hp hnext
          have htrue := h.aged_age (b := true) hl hp hnext
          simp only [hcb, and_true, Bool.true_eq_false, and_false, if_false, Nat.add_zero] at hfalse htrue
          cases m with
          | zero =>
            have hpos := aged_cons (b := true) hl hp
            rw [hcb, if_pos rfl] at hpos
            rw [hpos] at hm
            exact absurd hm (Nat.not_succ_le_zero _)
          | succ m =>
            rw [others_succ, htrue, Nat.add_comm] at hm
            obtain ⟨n, w', hw'⟩ := ih (m + (w.age now p l (f k)).aged now false) (by omega) (h.age hl)
              (hfalse ▸ hz) (Nat.le_of_add_le_add_left hm) rfl
            refine ⟨n + 1, w', ?_⟩
            simp only [rounds, hl, hcb, if_true, pass_aged hl hp]
            exact hw'
        | false =>
          have hnext : (if (w.event p).hasCallback then (0 : UInt64) else 0) = 0 := ite_self _
          have hfalse := h.aged_age (b := false) hl hp hnext
          have htrue := h.aged_age (b := true) hl hp hnext
          have hpos := aged_cons (b := false) hl hp
          simp only [hcb, and_true, Bool.false_eq_true, and_false, if_false, if_true,
              Nat.add_zero] at hfalse htrue hpos
          have hnow : (0 : UInt64) ≠ now := by
            rintro rfl
            rw [hz rfl] at hpos
            exact absurd hpos.symm (Nat.succ_ne_zero _)
          rw [if_pos hnow] at hfalse
          obtain ⟨n, w', hw'⟩ := ih (m + (w.age now p l 0).aged now false) (by omega) (h.age hl)
            (fun h0 => absurd h0.symm hnow) (htrue ▸ hm) rfl
          refine ⟨n + 1, w', ?_⟩
          simp only [rounds, hl, hcb, Bool.false_eq_true, if_false, pass_aged hl hp]
          exact hw'
      · exact ⟨0, w, pass_late hl hp _⟩

end Rounds

lemma Sound.represents (h : Sound w) : Represents w := by
  refine ⟨h.sorted.imp fun hpq => UInt64.le_iff_toNat_le.mpr hpq, h.nodup, h.map, fun p hp q hq hkey => ?_⟩
  have hpmap := (h.map _ p).mpr ⟨hp, rfl⟩
  have hqmap := (h.map _ q).mpr ⟨hq, hkey.symm⟩
  exact Option.some.inj (hpmap.symm.trans hqmap)

lemma Sound.passClean_iff (h : Sound w) : PassClean w now f ↔ Settles w now f := by
  have hstopped : Sound { w with timer := none } := ⟨h.sorted, h.nodup, h.fresh, h.map, h.closing⟩
  have hopen : ¬w.closing = true := by
    rw [h.closing]
    exact Bool.false_ne_true
  constructor
  · rintro ⟨n, w', hw', -⟩
    rw [callback] at hw'
    simp only [if_neg hopen] at hw'
    obtain ⟨w₁, hpass, -⟩ := Option.bind_eq_some_iff.mp hw'
    obtain ⟨hz, hle⟩ := hstopped.settles_of_pass hpass
    exact ⟨hz, n, hle⟩
  · rintro ⟨hz, m, hm⟩
    obtain ⟨n, w₁, hpass⟩ := hstopped.pass_of_settles hz hm
    have hcall : ∃ w', callback w now (rounds now f n 0 { w with timer := none }) = some w' := by
      rw [callback]
      simp only [if_neg hopen, hpass]
      exact ⟨_, rfl⟩
    obtain ⟨w', hw'⟩ := hcall
    refine ⟨n, w', hw', fun p hp hlt => ?_⟩
    rw [UInt64.lt_iff_toNat_lt] at hlt
    obtain ⟨w₂, -, hlate, ⟨-, rfl⟩ | ⟨q, l, -, rfl⟩⟩ := callback_eq h hw'
    · exact absurd (hlate p hp) (by omega)
    · exact absurd (hlate p hp) (Nat.lt_asymm hlt)

/-- Every state that a run reaches represents the events, and a pass from it does what it is for if and only if its
callbacks return another time than the pass's own often enough. -/
theorem wheel_represents {ops : List Op} (hrun : run ops = some w) :
    Represents w ∧ ∀ now f, PassClean w now f ↔ Settles w now f :=
  ⟨(run_sound hrun).represents, fun _ _ => (run_sound hrun).passClean_iff⟩

/-- Two events that have aged by 7; the callback of the first one asks for 9. -/
theorem wheel_represents_two : ∃ w, run [.reg 1 5 true 0 true, .reg 2 6 false 0 true] = some w ∧
    w.eventsWheel = [0, 1] ∧ Represents w ∧ PassClean w 7 fun _ => 9 := by
  have hrun : run [.reg 1 5 true 0 true, .reg 2 6 false 0 true] =
      some ((run [.reg 1 5 true 0 true, .reg 2 6 false 0 true]).getD init) := rfl
  obtain ⟨hrep, hclean⟩ := wheel_represents hrun
  exact ⟨_, hrun, by decide, hrep, (hclean 7 fun _ => 9).mpr ⟨nofun, 1, by decide⟩⟩

/-- One event, whose callback returns the time of the pass each time it is called. -/
theorem pass_never_ends : ∃ w, run [.reg 1 5 true 0 true] = some w ∧ (w.event 0).agingTime = 5 ∧
    ¬PassClean w 5 fun _ => 5 := by
  have hrun : run [.reg 1 5 true 0 true] = some ((run [.reg 1 5 true 0 true]).getD init) := rfl
  refine ⟨_, hrun, by decide, fun hclean => ?_⟩
  obtain ⟨-, m, hm⟩ := (run_sound hrun).passClean_iff.mp hclean
  have hnone : others 5 (fun _ => 5) 0 m = 0 := List.countP_eq_zero.mpr fun _ _ => Bool.not_eq_true _ ▸
      bne_self_eq_false 5
  have hone : ((run [.reg 1 5 true 0 true]).getD init).aged 5 true = 1 := by decide
  omega

end OpenSM.EventWheel
