import OpenSM.EventWheel

/-! What the operations of `cl_event_wheel` keep: list and map hold the same events, the list in the order of
their aging times. The timer is started for the first event and after a pass, but not for an event that comes
before the others. -/

namespace OpenSM.EventWheel

structure Sound (w : Wheel) : Prop where
  sorted : w.eventsWheel.Pairwise fun p q => (w.event p).agingTime.toNat ≤ (w.event q).agingTime.toNat
  nodup : w.eventsWheel.Nodup
  fresh : ∀ p ∈ w.eventsWheel, p < w.allocated
  map : ∀ key p, w.eventsMap key = some p ↔ p ∈ w.eventsWheel ∧ (w.event p).key = key
  closing : w.closing = false

variable {w w' : Wheel} {l : List ℕ} {p q : ℕ} {key agingTime now : UInt64} {hasCallback malloc : Bool}

section Insert

lemma agesLate_iff : w.agesLate agingTime q = true ↔ agingTime.toNat ≤ (w.event q).agingTime.toNat := by
  rw [Wheel.agesLate, Bool.not_eq_true', decide_eq_false_iff_not, UInt64.lt_iff_toNat_lt, not_lt]

lemma insertSorted_perm : (w.insertSorted l p).Perm (p :: l) := by
  have happ : l.rdropWhile (w.agesLate (w.event p).agingTime) ++ l.rtakeWhile
      (w.agesLate (w.event p).agingTime) = l :=
    List.rdropWhile_append_rtakeWhile
  refine List.perm_middle.trans ?_
  rw [happ]

lemma mem_insertSorted : q ∈ w.insertSorted l p ↔ q = p ∨ q ∈ l :=
  insertSorted_perm.mem_iff.trans List.mem_cons

lemma insertSorted_sorted
    (hl : l.Pairwise fun p q => (w.event p).agingTime.toNat ≤ (w.event q).agingTime.toNat) :
    (w.insertSorted l p).Pairwise fun p q => (w.event p).agingTime.toNat ≤ (w.event q).agingTime.toNat := by
  set late := w.agesLate (w.event p).agingTime
  have happ : l.rdropWhile late ++ l.rtakeWhile late = l := List.rdropWhile_append_rtakeWhile
  rw [← happ] at hl
  obtain ⟨hbefore, hafter, hcross⟩ := List.pairwise_append.mp hl
  have hle : ∀ a ∈ l.rdropWhile late, (w.event a).agingTime.toNat ≤ (w.event p).agingTime.toNat := by
    intro a ha
    have hne : l.rdropWhile late ≠ [] := List.ne_nil_of_mem ha
    have hlast : (w.event ((l.rdropWhile late).getLast hne)).agingTime.toNat < (w.event p).agingTime.toNat :=
      not_le.mp (agesLate_iff.not.mp (List.rdropWhile_last_not late l hne))
    have hsplit := List.dropLast_append_getLast hne
    have hmem : a ∈ (l.rdropWhile late).dropLast ++ [(l.rdropWhile late).getLast hne] := hsplit.symm ▸ ha
    have hpair := hsplit.symm ▸ hbefore
    rcases List.mem_append.mp hmem with ha | ha
    · exact ((List.pairwise_append.mp hpair).2.2 a ha _ List.mem_cons_self).trans hlast.le
    · rw [List.mem_singleton.mp ha]
      exact hlast.le
  refine List.pairwise_append.mpr ⟨hbefore, List.pairwise_cons.mpr ⟨fun q hq => ?_, hafter⟩, fun a ha b hb => ?_⟩
  · exact agesLate_iff.mp (List.mem_rtakeWhile_imp hq)
  · rcases List.mem_cons.mp hb with rfl | hb
    · exact hle a ha
    · exact hcross a ha b hb

end Insert

section Operations

lemma mapRemove_eq : w.mapRemove p key = some q ↔ w.eventsMap key = some q ∧ q ≠ p := by
  rw [Wheel.mapRemove]
  split_ifs with h
  · refine iff_of_false nofun fun hq => hq.2 ?_
    rw [h] at hq
    exact (Option.some.inj hq.1).symm
  · refine ⟨fun hq => ⟨hq, fun heq => h (heq ▸ hq)⟩, And.left⟩

lemma Sound.remove (h : Sound w) (p : ℕ) : Sound (w.remove p) := by
  refine ⟨h.sorted.sublist (List.erase_sublist), h.nodup.erase p,
    fun q hq => h.fresh q (List.mem_of_mem_erase hq), fun key q => ?_, h.closing⟩
  change w.mapRemove p key = some q ↔ q ∈ w.eventsWheel.erase p ∧ (w.event q).key = key
  rw [mapRemove_eq, h.map, h.nodup.mem_erase_iff]
  tauto

lemma sorted_update {e : Event} (hl : p ∉ l)
    (hs : l.Pairwise fun p q => (w.event p).agingTime.toNat ≤ (w.event q).agingTime.toNat) :
    l.Pairwise fun a b => (Function.update w.event p e a).agingTime.toNat ≤
      (Function.update w.event p e b).agingTime.toNat := by
  refine hs.imp_of_mem fun ha hb hab => ?_
  rw [Function.update_of_ne (ne_of_mem_of_not_mem ha hl), Function.update_of_ne (ne_of_mem_of_not_mem hb hl)]
  exact hab

lemma register_event {numRegs : UInt32} : (w.register p key agingTime hasCallback numRegs now).event =
    Function.update w.event p ⟨key, agingTime, hasCallback, numRegs + 1⟩ := by
  rw [Wheel.register]
  dsimp only
  split_ifs <;> rfl

lemma register_eventsWheel {numRegs : UInt32} : (w.register p key agingTime hasCallback numRegs now).eventsWheel =
    { w with event := Function.update w.event p ⟨key, agingTime, hasCallback, numRegs + 1⟩ }.insertSorted
      w.eventsWheel p := by
  rw [Wheel.register]
  dsimp only
  split_ifs <;> rfl

lemma register_rest {numRegs : UInt32} :
    (w.register p key agingTime hasCallback numRegs now).eventsMap = w.mapInsert key p ∧
    (w.register p key agingTime hasCallback numRegs now).allocated = w.allocated ∧
    (w.register p key agingTime hasCallback numRegs now).closing = w.closing := by
  rw [Wheel.register]
  dsimp only
  split_ifs <;> exact ⟨rfl, rfl, rfl⟩

lemma Sound.register {numRegs : UInt32} (h : Sound w) (hp : p ∉ w.eventsWheel) (hlt : p < w.allocated)
    (hkey : w.eventsMap key = none) : Sound (w.register p key agingTime hasCallback numRegs now) := by
  obtain ⟨hmap, halloc, hclosing⟩ := @register_rest w p key agingTime now hasCallback numRegs
  constructor
  · rw [register_event, register_eventsWheel]
    exact insertSorted_sorted (w := { w with event := _ }) (sorted_update hp h.sorted)
  · rw [register_eventsWheel]
    exact insertSorted_perm.nodup_iff.mpr (List.nodup_cons.mpr ⟨hp, h.nodup⟩)
  · rw [register_eventsWheel, halloc]
    intro q hq
    rcases mem_insertSorted.mp hq with rfl | hq
    · exact hlt
    · exact h.fresh q hq
  · intro k q
    have hinsert : w.mapInsert key p = Function.update w.eventsMap key (some p) := by
      rw [Wheel.mapInsert, hkey]
      rfl
    rw [hmap, register_event, register_eventsWheel, mem_insertSorted, hinsert, Function.update_apply,
      Function.update_apply]
    by_cases hqp : q = p
    · rw [hqp, if_pos rfl]
      split_ifs with hk
      · exact iff_of_true rfl ⟨.inl rfl, hk.symm⟩
      · exact iff_of_false (fun heq => hp ((h.map k p).mp heq).1) fun heq => hk heq.2.symm
    · rw [if_neg hqp, or_iff_right hqp, ← h.map]
      split_ifs with hk
      · rw [hk, hkey]
        exact iff_of_false (fun heq => hqp (Option.some.inj heq).symm) nofun
      · exact Iff.rfl
  · rw [hclosing]
    exact h.closing

lemma Sound.reg (h : Sound w) : Sound (reg w key agingTime hasCallback now malloc).1 := by
  rw [EventWheel.reg]
  split
  · rename_i p hp
    have hmem := ((h.map key p).mp hp).1
    refine (h.remove p).register ?_ (h.fresh p hmem) ?_
    · exact fun hp => (h.nodup.mem_erase_iff.mp hp).1 rfl
    · exact if_pos hp
  · rename_i hnone
    split_ifs
    · have hgrown : Sound { w with allocated := w.allocated + 1 } :=
        { h with fresh := fun p hp => (h.fresh p hp).trans (Nat.lt_succ_self _) }
      exact hgrown.register (fun hp => lt_irrefl _ (h.fresh _ hp)) (Nat.lt_succ_self _) hnone
    · exact h

lemma Sound.unreg (h : Sound w) : Sound (unreg w key) := by
  rw [EventWheel.unreg]
  split
  · exact h.remove _
  · exact h

lemma Sound.age {returned : UInt64} (h : Sound w) (hw : w.eventsWheel = p :: l) :
    Sound (w.age now p l returned) := by
  have hsorted := h.sorted
  have hnodup := h.nodup
  rw [hw] at hsorted hnodup
  obtain ⟨hp, hl⟩ := List.nodup_cons.mp hnodup
  have hmem : ∀ q, q ∈ w.eventsWheel ↔ q = p ∨ q ∈ l := fun q => hw ▸ List.mem_cons
  rw [Wheel.age]
  generalize (if (w.event p).hasCallback = true then returned else 0) = next
  split_ifs with hnext
  · refine ⟨(List.pairwise_cons.mp hsorted).2, hl, fun q hq => h.fresh q ((hmem q).mpr (.inr hq)), fun k q => ?_,
      h.closing⟩
    change w.mapRemove p k = some q ↔ q ∈ l ∧ (w.event q).key = k
    rw [mapRemove_eq, h.map, hmem]
    have hne : q ∈ l → q ≠ p := fun hq => ne_of_mem_of_not_mem hq hp
    tauto
  · set e : Event := { w.event p with agingTime := next, numRegs := (w.event p).numRegs + 1 }
    refine ⟨?_, ?_, ?_, fun k q => ?_, h.closing⟩
    · exact insertSorted_sorted (w := { w with event := _ }) (sorted_update hp (List.pairwise_cons.mp hsorted).2)
    · exact insertSorted_perm.nodup_iff.mpr hnodup
    · intro q hq
      exact h.fresh q ((hmem q).mpr (mem_insertSorted.mp hq))
    · change w.eventsMap k = some q ↔ q ∈ Wheel.insertSorted _ l p ∧ (Function.update w.event p e q).key = k
      have hkey : (Function.update w.event p e q).key = (w.event q).key := by
        rw [Function.update_apply]
        split_ifs with hq
        · rw [hq]
        · rfl
      rw [mem_insertSorted, hkey, h.map, hmem]

lemma Sound.head_le (h : Sound w) (hw : w.eventsWheel = p :: l) (hq : q ∈ w.eventsWheel) :
    (w.event p).agingTime.toNat ≤ (w.event q).agingTime.toNat := by
  have hsorted := h.sorted
  rw [hw] at hsorted hq
  rcases List.mem_cons.mp hq with rfl | hq
  · exact le_rfl
  · exact (List.pairwise_cons.mp hsorted).1 q hq

lemma Sound.late (h : Sound w) (hw : w.eventsWheel = p :: l) (hp : ¬(w.event p).agingTime ≤ now) :
    ∀ q ∈ w.eventsWheel, now.toNat < (w.event q).agingTime.toNat := by
  rw [UInt64.le_iff_toNat_le, not_le] at hp
  exact fun q hq => hp.trans_le (h.head_le hw hq)

lemma pass_empty (hw : w.eventsWheel = []) (returned : List UInt64) : pass now returned w = some w := by
  rw [pass.eq_def]
  simp only [hw]

lemma pass_late (hw : w.eventsWheel = p :: l) (hp : ¬(w.event p).agingTime ≤ now) (returned : List UInt64) :
    pass now returned w = some w := by
  rw [pass.eq_def]
  cases returned <;> simp only [hw, if_neg hp]

lemma pass_aged (hw : w.eventsWheel = p :: l) (hp : (w.event p).agingTime ≤ now) (next : UInt64)
    (returned : List UInt64) : pass now (next :: returned) w = pass now returned (w.age now p l next) := by
  rw [pass.eq_def]
  simp only [hw, if_pos hp]

lemma pass_running (hw : w.eventsWheel = p :: l) (hp : (w.event p).agingTime ≤ now) : pass now [] w = none := by
  rw [pass.eq_def]
  simp only [hw, if_pos hp]

lemma Sound.pass {returned : List UInt64} (h : Sound w) (hw : pass now returned w = some w') :
    Sound w' ∧ ∀ q ∈ w'.eventsWheel, now.toNat < (w'.event q).agingTime.toNat := by
  induction returned generalizing w with
  | nil =>
    cases hl : w.eventsWheel with
    | nil =>
      obtain rfl := Option.some.inj ((pass_empty hl []).symm.trans hw)
      exact ⟨h, fun q hq => absurd (hl ▸ hq) List.not_mem_nil⟩
    | cons p l =>
      by_cases hp : (w.event p).agingTime ≤ now
      · rw [pass_running hl hp] at hw
        cases hw
      · obtain rfl := Option.some.inj ((pass_late hl hp []).symm.trans hw)
        exact ⟨h, h.late hl hp⟩
  | cons next returned ih =>
    cases hl : w.eventsWheel with
    | nil =>
      obtain rfl := Option.some.inj ((pass_empty hl _).symm.trans hw)
      exact ⟨h, fun q hq => absurd (hl ▸ hq) List.not_mem_nil⟩
    | cons p l =>
      by_cases hp : (w.event p).agingTime ≤ now
      · rw [pass_aged hl hp] at hw
        exact ih (h.age hl) hw
      · obtain rfl := Option.some.inj ((pass_late hl hp _).symm.trans hw)
        exact ⟨h, h.late hl hp⟩

lemma Sound.startTimer (h : Sound w) (msec : ℕ) : Sound (w.startTimer now msec) :=
  ⟨h.sorted, h.nodup, h.fresh, h.map, h.closing⟩

lemma callback_eq (h : Sound w) {returned : List UInt64} (hw : callback w now returned = some w') :
    ∃ w₁, Sound w₁ ∧ (∀ q ∈ w₁.eventsWheel, now.toNat < (w₁.event q).agingTime.toNat) ∧
      ((w₁.eventsWheel = [] ∧ w' = w₁) ∨ ∃ p l, w₁.eventsWheel = p :: l ∧
        w' = w₁.startTimer now (timeout (w₁.event p).agingTime now).toUInt32.toNat) := by
  have hclosing : ¬w.closing = true := by
    rw [h.closing]
    exact Bool.false_ne_true
  have hstopped : Sound { w with timer := none } := ⟨h.sorted, h.nodup, h.fresh, h.map, h.closing⟩
  rw [callback] at hw
  simp only [if_neg hclosing] at hw
  obtain ⟨w₁, hpass, hw⟩ := Option.bind_eq_some_iff.mp hw
  obtain ⟨hs, hlate⟩ := hstopped.pass hpass
  refine ⟨w₁, hs, hlate, ?_⟩
  cases hl : w₁.eventsWheel with
  | nil =>
    simp only [hl] at hw
    exact .inl ⟨rfl, (Option.some.inj hw).symm⟩
  | cons p l =>
    simp only [hl] at hw
    exact .inr ⟨p, l, rfl, (Option.some.inj hw).symm⟩

lemma Sound.step {op : Op} (h : Sound w) (hw : step w op = some w') : Sound w' := by
  cases op with
  | reg key agingTime hasCallback now malloc =>
    obtain rfl := Option.some.inj hw
    exact h.reg
  | unreg key =>
    obtain rfl := Option.some.inj hw
    exact h.unreg
  | callback now returned =>
    obtain ⟨w₁, hs, -, ⟨-, rfl⟩ | ⟨p, l, -, rfl⟩⟩ := callback_eq h hw
    · exact hs
    · exact hs.startTimer _

lemma sound_init : Sound init :=
  ⟨List.Pairwise.nil, List.nodup_nil, fun _ h => absurd h List.not_mem_nil,
    fun _ _ => iff_of_false nofun fun h => absurd h.1 List.not_mem_nil, rfl⟩

end Operations

section Timer

/-- The timer runs and expires no later than any event ages, up to the rounding to milliseconds. -/
def Armed (w : Wheel) : Prop :=
  ∀ p ∈ w.eventsWheel, ∃ t, w.timer = some t ∧ t ≤ (w.event p).agingTime.toNat + 500

def Wheel.others (w : Wheel) (key : UInt64) : List ℕ := (w.eventsMap key).elim w.eventsWheel w.eventsWheel.erase

/-- An event that is registered alone has not aged yet; one that joins others does not age before the timer expires
that runs for them. -/
def InTime (w : Wheel) : Op → Prop
  | .reg key agingTime _ now malloc => (w.eventsMap key).isSome ∨ malloc →
    (w.others key = [] → now.toNat ≤ agingTime.toNat + 500) ∧
      (w.others key ≠ [] → ∃ t, w.timer = some t ∧ t ≤ agingTime.toNat + 500)
  | _ => True

lemma timeout_toNat : (timeout agingTime now).toNat =
    ((2 ^ 64 - now.toNat + agingTime.toNat) % 2 ^ 64 + 500) % 2 ^ 64 / 1000 := by
  rw [timeout, UInt64.toNat_div, UInt64.toNat_add, UInt64.toNat_sub]
  rfl

lemma timeout_le (h : now.toNat ≤ agingTime.toNat + 500) {msec : ℕ}
    (hmsec : msec ≤ (timeout agingTime now).toNat) :
    now.toNat + 1000 * msec ≤ agingTime.toNat + 500 := by
  have ha := agingTime.toNat_lt
  have hn := now.toNat_lt
  rw [timeout_toNat] at hmsec
  omega

lemma Armed.remove (h : Armed w) (p : ℕ) : Armed (w.remove p) := fun q hq => h q (List.mem_of_mem_erase hq)

lemma register_timer {numRegs : UInt32} : (w.register p key agingTime hasCallback numRegs now).timer =
    if w.eventsWheel = [] then some (now.toNat + 1000 *
      if (timeout agingTime now).toNat % 2 ^ 32 < (timeout agingTime now).toNat then 0xffffffff
      else (timeout agingTime now).toNat)
    else w.timer := by
  rw [Wheel.register]
  dsimp only
  split_ifs <;> rfl

lemma register_armed {numRegs : UInt32} (hp : p ∉ w.eventsWheel) (ha : Armed w) :
    Armed (w.register p key agingTime hasCallback numRegs now) ↔
      (w.eventsWheel = [] → now.toNat ≤ agingTime.toNat + 500) ∧
        (w.eventsWheel ≠ [] → ∃ t, w.timer = some t ∧ t ≤ agingTime.toNat + 500) := by
  have hnew : (Function.update w.event p ⟨key, agingTime, hasCallback, numRegs + 1⟩ p).agingTime = agingTime := by
    rw [Function.update_self]
  have hall : Armed (w.register p key agingTime hasCallback numRegs now) ↔
      (∃ t, (w.register p key agingTime hasCallback numRegs now).timer = some t ∧ t ≤ agingTime.toNat + 500) ∧
        ∀ q ∈ w.eventsWheel, ∃ t, (w.register p key agingTime hasCallback numRegs now).timer = some t ∧
          t ≤ (w.event q).agingTime.toNat + 500 := by
    rw [Armed, register_event, register_eventsWheel]
    have hold : ∀ q ∈ w.eventsWheel, Function.update w.event p ⟨key, agingTime, hasCallback,
        numRegs + 1⟩ q = w.event q :=
      fun q hq => Function.update_of_ne (ne_of_mem_of_not_mem hq hp) _ _
    constructor
    · intro h
      refine ⟨?_, fun q hq => ?_⟩
      · have hp' := h p (mem_insertSorted.mpr (.inl rfl))
        rwa [hnew] at hp'
      · have hq' := h q (mem_insertSorted.mpr (.inr hq))
        rwa [hold q hq] at hq'
    · rintro ⟨hp', hq'⟩ q hq
      rcases mem_insertSorted.mp hq with rfl | hq
      · rwa [hnew]
      · rw [hold q hq]
        exact hq' q hq
  rw [hall, register_timer]
  by_cases hnil : w.eventsWheel = []
  · rw [if_pos hnil]
    constructor
    · rintro ⟨⟨t, ht, hle⟩, -⟩
      have ht' := Option.some.inj ht
      exact ⟨fun _ => by omega, fun hne => absurd hnil hne⟩
    · rintro ⟨hin, -⟩
      refine ⟨⟨_, rfl, timeout_le (hin hnil) ?_⟩, fun q hq => absurd (hnil ▸ hq) List.not_mem_nil⟩
      split_ifs with hlt
      · omega
      · exact le_rfl
  · rw [if_neg hnil]
    exact ⟨fun h => ⟨fun h0 => absurd h0 hnil, fun _ => h.1⟩, fun h => ⟨h.2 hnil, ha⟩⟩

lemma reg_armed (h : Sound w) (ha : Armed w) :
    Armed (reg w key agingTime hasCallback now malloc).1 ↔
        InTime w (.reg key agingTime hasCallback now malloc) := by
  rw [reg, InTime, Wheel.others]
  cases hkey : w.eventsMap key with
  | some p =>
    have hp : p ∉ w.eventsWheel.erase p := fun hp => (h.nodup.mem_erase_iff.mp hp).1 rfl
    exact (register_armed hp (ha.remove p)).trans ⟨fun h _ => h, fun h => h (Or.inl rfl)⟩
  | none =>
    cases malloc with
    | false => exact iff_of_true ha fun hno => hno.elim nofun nofun
    | true =>
      have hp : w.allocated ∉ w.eventsWheel := fun hp => lt_irrefl _ (h.fresh _ hp)
      exact (register_armed (w := { w with allocated := w.allocated + 1 }) hp ha).trans
        ⟨fun h _ => h, fun h => h (Or.inr rfl)⟩

lemma step_armed {op : Op} (h : Sound w) (ha : Armed w) (hw : step w op = some w') : Armed w' ↔ InTime w op := by
  cases op with
  | reg key agingTime hasCallback now malloc =>
    obtain rfl := Option.some.inj hw
    exact reg_armed h ha
  | unreg key =>
    obtain rfl := Option.some.inj hw
    refine iff_of_true ?_ trivial
    rw [unreg]
    split
    · exact ha.remove _
    · exact ha
  | callback now returned =>
    refine iff_of_true ?_ trivial
    obtain ⟨w₁, hs, hlate, ⟨hnil, rfl⟩ | ⟨p, l, hl, rfl⟩⟩ := callback_eq h hw
    · exact fun q hq => absurd (hnil ▸ hq) List.not_mem_nil
    · intro q hq
      have hp : p ∈ w₁.eventsWheel := hl ▸ List.mem_cons_self
      have hle := hs.head_le hl hq
      have hnow := hlate p hp
      have hmsec : (timeout (w₁.event p).agingTime now).toUInt32.toNat ≤
          (timeout (w₁.event p).agingTime now).toNat := by
        rw [UInt64.toNat_toUInt32]
        exact Nat.mod_le _ _
      exact ⟨_, rfl, (timeout_le (by omega) hmsec).trans (Nat.add_le_add_right hle 500)⟩

end Timer

section Runs

variable {ops l : List Op} {op : Op}

lemma run_append : run (l ++ [op]) = (run l).bind fun w => step w op := by
  rw [run, List.foldlM_append, run]
  refine congrArg _ (funext fun w => ?_)
  rw [List.foldlM_cons]
  cases step w op <;> rfl

lemma run_sound (hw : run ops = some w) : Sound w := by
  induction ops using List.reverseRecOn generalizing w with
  | nil =>
    obtain rfl := Option.some.inj hw
    exact sound_init
  | append_singleton l op ih =>
    rw [run_append] at hw
    obtain ⟨w₁, hl, hstep⟩ := Option.bind_eq_some_iff.mp hw
    exact (ih hl).step hstep

lemma run_prefix (hw : run ops = some w) (hl : l <+: ops) : ∃ w', run l = some w' := by
  obtain ⟨l', rfl⟩ := hl
  rw [run, List.foldlM_append] at hw
  obtain ⟨w', hw', -⟩ := Option.bind_eq_some_iff.mp hw
  exact ⟨w', hw'⟩

/-- The timer is in time in all states of a run if and only if every registration meets the condition. -/
theorem timer_in_time (hrun : run ops = some w) :
    (∀ l, l <+: ops → ∀ w', run l = some w' → Armed w') ↔
      ∀ l op, l ++ [op] <+: ops → ∀ w', run l = some w' → InTime w' op := by
  constructor
  · intro h l op hl w' hw'
    obtain ⟨w'', hw''⟩ := run_prefix hrun hl
    have hstep := hw''
    rw [run_append, hw'] at hstep
    exact (step_armed (run_sound hw') (h l ((List.prefix_append l [op]).trans hl) w' hw') hstep).mp
        (h _ hl w'' hw'')
  · intro h l
    induction l using List.reverseRecOn with
    | nil =>
      intro _ w' hw'
      obtain rfl := Option.some.inj hw'
      exact fun q hq => absurd hq List.not_mem_nil
    | append_singleton l op ih =>
      intro hl w' hw'
      have hpre : l <+: ops := (List.prefix_append l [op]).trans hl
      rw [run_append] at hw'
      obtain ⟨w₁, hw₁, hstep⟩ := Option.bind_eq_some_iff.mp hw'
      exact (step_armed (run_sound hw₁) (ih hpre w₁ hw₁) hstep).mpr (h l op hl w₁ hw₁)

/-- An event is registered to age after one second, and another one to age after ten seconds. -/
def inOrder : List Op := [.reg 1 1000000 false 0 true, .reg 2 10000000 false 0 true]

theorem timer_in_time_order : (∃ w, run inOrder = some w ∧ w.eventsWheel = [0, 1]) ∧
    ∀ l, l <+: inOrder → ∀ w', run l = some w' → Armed w' := by
  have hrun : run inOrder = some ((run inOrder).getD init) := rfl
  refine ⟨⟨_, hrun, by decide⟩, (timer_in_time hrun).mpr fun l op hl w' hw' => ?_⟩
  obtain rfl | ⟨x, rfl⟩ | ⟨x, y, l', rfl⟩ : l = [] ∨ (∃ x, l = [x]) ∨ ∃ x y l', l = x :: y :: l' := by
    rcases l with - | ⟨x, - | ⟨y, l'⟩⟩ <;> simp
  · obtain rfl : op = .reg 1 1000000 false 0 true := by simpa [inOrder] using hl
    obtain rfl := Option.some.inj hw'
    exact fun _ => ⟨fun _ => by decide, fun h => absurd rfl h⟩
  · obtain ⟨rfl, rfl⟩ : x = .reg 1 1000000 false 0 true ∧ op = .reg 2 10000000 false 0 true := by
      simpa [inOrder] using hl
    obtain rfl := Option.some.inj hw'
    exact fun _ => ⟨fun _ => by decide, fun _ => ⟨1000000, by decide, by decide⟩⟩
  · have hlen := hl.length_le
    simp [inOrder] at hlen

/-- An event is registered to age after ten seconds, and another one to age after one second. -/
def twoEvents : List Op := [.reg 1 10000000 false 0 true, .reg 2 1000000 false 0 true]

/-- The timer goes on running for the first event. -/
theorem timer_too_late : ∃ w, run twoEvents = some w ∧ w.eventsWheel = [1, 0] ∧ w.timer = some 10000000 ∧
    (w.event 1).agingTime = 1000000 ∧ ¬Armed w := by
  refine ⟨(run twoEvents).getD init, rfl, by decide, by decide, by decide, fun h => ?_⟩
  obtain ⟨t, ht, hle⟩ := h 1 (by decide)
  have ht' : t = 10000000 := Option.some.inj (ht.symm.trans (by decide))
  have hage : (((run twoEvents).getD init).event 1).agingTime.toNat = 1000000 := by decide
  omega

end Runs

end OpenSM.EventWheel
