import OpenSM.LashLanes

/-! The lanes of the switch pairs: each pair is in one lane, and the numbers of pairs in the lanes are right. -/

namespace OpenSM.Lash

open Lib.Drive

variable {n : ℕ}

section Lanes

def Lanes.assigned (st : Lanes n) (l : ℕ) : Finset (Fin n × Fin n) :=
  Finset.univ.filter fun p => st.virtualLocation p.1 p.2 l ≠ 0

def both (s d : Fin n) : Finset (Fin n × Fin n) := {(s, d), (d, s)}

structure Located (st : Lanes n) (lanesNeeded : ℕ) : Prop where
  symm : ∀ s d l, st.virtualLocation s d l = st.virtualLocation d s l
  diag : ∀ s l, st.virtualLocation s s l = 0
  le_two : ∀ s d l, st.virtualLocation s d l ≤ 2
  lane_lt : ∀ s d l, st.virtualLocation s d l ≠ 0 → l < lanesNeeded
  unique : ∀ s d l l', st.virtualLocation s d l ≠ 0 → st.virtualLocation s d l' ≠ 0 → l = l'
  num : ∀ l, st.numMstInLane l = (st.assigned l).card

variable {st st' : Lanes n} {s d : Fin n} {l l' x lanesNeeded : ℕ} {p : Fin n × Fin n}
  {rt : Fin n → Fin n → List (Channel n)} {test : Lane n → List (Channel n) → List (Channel n) → Bool}

lemma mem_assigned : p ∈ st.assigned l ↔ st.virtualLocation p.1 p.2 l ≠ 0 := by
  rw [Lanes.assigned, Finset.mem_filter, and_iff_right (Finset.mem_univ p)]

lemma mem_both : p ∈ both s d ↔ p.1 = s ∧ p.2 = d ∨ p.1 = d ∧ p.2 = s := by
  rw [both, Finset.mem_insert, Finset.mem_singleton, Prod.ext_iff, Prod.ext_iff]

lemma card_both (h : s ≠ d) : (both s d).card = 2 := by
  rw [both, Finset.card_pair]
  intro heq
  exact h (congrArg Prod.fst heq)

@[simp] lemma tryLane_virtualLocation : (st.tryLane rt test s d l).2.virtualLocation = st.virtualLocation := by
  rw [Lanes.tryLane]
  split_ifs <;> rfl

@[simp] lemma tryLane_numMstInLane : (st.tryLane rt test s d l).2.numMstInLane = st.numMstInLane := by
  rw [Lanes.tryLane]
  split_ifs <;> rfl

@[simp] lemma assigned_tryLane : (st.tryLane rt test s d l).2.assigned = st.assigned := by
  funext l'
  rw [Lanes.assigned, Lanes.assigned, tryLane_virtualLocation]

lemma virtualLocation_setLocation (i j : Fin n) (k : ℕ) : (st.setLocation s d l x).virtualLocation i j k =
    if (i, j) ∈ both s d ∧ k = l then x else st.virtualLocation i j k := by
  simp only [Lanes.setLocation, mem_both]

lemma assigned_setLocation_of_ne (h : l' ≠ l) : (st.setLocation s d l x).assigned l' = st.assigned l' := by
  ext p
  rw [mem_assigned, mem_assigned, virtualLocation_setLocation, if_neg fun hp => h hp.2]

lemma assigned_setLocation_pos (hx : x ≠ 0) : (st.setLocation s d l x).assigned l = st.assigned l ∪ both s d := by
  ext p
  rw [Finset.mem_union, mem_assigned, mem_assigned, virtualLocation_setLocation]
  by_cases hp : p ∈ both s d
  · rw [if_pos ⟨hp, rfl⟩]
    exact iff_of_true hx (.inr hp)
  · rw [if_neg fun h => hp h.1, or_iff_left hp]

lemma assigned_setLocation_zero : (st.setLocation s d l 0).assigned l = st.assigned l \ both s d := by
  ext p
  rw [Finset.mem_sdiff, mem_assigned, mem_assigned, virtualLocation_setLocation]
  by_cases hp : p ∈ both s d
  · rw [if_pos ⟨hp, rfl⟩]
    exact iff_of_false (fun h => h rfl) fun h => h.2 hp
  · rw [if_neg fun h => hp h.1, and_iff_left hp]

lemma Located.both_subset (h : Located st lanesNeeded) (hl : st.virtualLocation s d l ≠ 0) :
    both s d ⊆ st.assigned l := by
  intro p hp
  rw [mem_assigned]
  rcases mem_both.mp hp with ⟨h₁, h₂⟩ | ⟨h₁, h₂⟩
  · rwa [h₁, h₂]
  · rwa [h₁, h₂, h.symm]

lemma Located.both_disjoint (h : Located st lanesNeeded) (hl : st.virtualLocation s d l = 0) :
    Disjoint (st.assigned l) (both s d) := by
  rw [Finset.disjoint_right]
  intro p hp hmem
  rw [mem_assigned] at hmem
  rcases mem_both.mp hp with ⟨h₁, h₂⟩ | ⟨h₁, h₂⟩
  · exact hmem (by rw [h₁, h₂, hl])
  · exact hmem (by rw [h₁, h₂, h.symm, hl])

lemma Located.ne (h : Located st lanesNeeded) (hl : st.virtualLocation s d l ≠ 0) : s ≠ d := by
  rintro rfl
  exact hl (h.diag s l)

lemma Located.mark (h : Located st lanesNeeded)
    (hsymm : ∀ s d l, st'.virtualLocation s d l = st'.virtualLocation d s l)
    (hloc : ∀ s d l, st'.virtualLocation s d l ≠ 0 ↔ st.virtualLocation s d l ≠ 0)
    (htwo : ∀ s d l, st'.virtualLocation s d l ≤ 2) (hnum : st'.numMstInLane = st.numMstInLane) :
    Located st' lanesNeeded ∧ st'.assigned = st.assigned := by
  have hassigned : st'.assigned = st.assigned := by
    funext l
    ext p
    rw [mem_assigned, mem_assigned, hloc]
  refine ⟨⟨hsymm, fun s l => ?_, htwo, fun s d l hl => h.lane_lt s d l ((hloc s d l).mp hl), ?_,
      fun l => ?_⟩, hassigned⟩
  · exact not_not.mp fun hne => (hloc s s l).mp hne (h.diag s l)
  · exact fun s d l l' hl hl' => h.unique s d l l' ((hloc s d l).mp hl) ((hloc s d l').mp hl')
  · rw [hnum, hassigned, h.num]

lemma setLocation_symm (h : ∀ i j k, st.virtualLocation i j k = st.virtualLocation j i k) (i j : Fin n) (k : ℕ) :
    (st.setLocation s d l x).virtualLocation i j k = (st.setLocation s d l x).virtualLocation j i k := by
  have hswap : (i, j) ∈ both s d ↔ (j, i) ∈ both s d := by
    rw [mem_both, mem_both]
    tauto
  rw [virtualLocation_setLocation, virtualLocation_setLocation, h i j k]
  simp only [hswap]

lemma setLocation_diag (hne : s ≠ d) (h : ∀ i k, st.virtualLocation i i k = 0) (i : Fin n) (k : ℕ) :
    (st.setLocation s d l x).virtualLocation i i k = 0 := by
  rw [virtualLocation_setLocation, if_neg, h]
  rintro ⟨hmem, -⟩
  rcases mem_both.mp hmem with ⟨h₁, h₂⟩ | ⟨h₁, h₂⟩
  · exact hne (h₁.symm.trans h₂)
  · exact hne (h₂.symm.trans h₁)

lemma setLocation_le_two (hx : x ≤ 2) (h : ∀ i j k, st.virtualLocation i j k ≤ 2) (i j : Fin n) (k : ℕ) :
    (st.setLocation s d l x).virtualLocation i j k ≤ 2 := by
  rw [virtualLocation_setLocation]
  split_ifs
  · exact hx
  · exact h i j k

/-- A pair that is in no lane is put in one. -/
lemma Located.enter (h : Located st lanesNeeded) (hne : s ≠ d) (hnone : ∀ k, st.virtualLocation s d k = 0)
    (hl : l < lanesNeeded) (hloc : st'.virtualLocation = (st.setLocation s d l 1).virtualLocation)
    (hnum : st'.numMstInLane = (st.addMst l 2).numMstInLane) :
    Located st' lanesNeeded ∧ st'.assigned l = st.assigned l ∪ both s d ∧
      ∀ k, k ≠ l → st'.assigned k = st.assigned k := by
  have hassigned : ∀ k, st'.assigned k = (st.setLocation s d l 1).assigned k := fun k => by
    rw [Lanes.assigned, Lanes.assigned, hloc]
  have hpair : ∀ i j, (i, j) ∈ both s d → ∀ k, st.virtualLocation i j k = 0 := by
    intro i j hmem k
    rcases mem_both.mp hmem with ⟨rfl, rfl⟩ | ⟨rfl, rfl⟩
    · exact hnone k
    · rw [h.symm, hnone]
  have hin : ∀ i j k, st'.virtualLocation i j k ≠ 0 → (i, j) ∈ both s d ∧ k = l ∨
      st.virtualLocation i j k ≠ 0 := by
    intro i j k hk
    rw [hloc, virtualLocation_setLocation] at hk
    split_ifs at hk with hmem
    · exact .inl hmem
    · exact .inr hk
  refine ⟨⟨?_, ?_, ?_, fun i j k hk => ?_, fun i j k k' hk hk' => ?_, fun k => ?_⟩, ?_, fun k hk => ?_⟩
  · rw [hloc]
    exact setLocation_symm h.symm
  · rw [hloc]
    exact setLocation_diag hne h.diag
  · rw [hloc]
    exact setLocation_le_two one_le_two h.le_two
  · rcases hin i j k hk with ⟨-, rfl⟩ | hk
    · exact hl
    · exact h.lane_lt i j k hk
  · rcases hin i j k hk with ⟨hmem, rfl⟩ | hk <;> rcases hin i j k' hk' with ⟨hmem', rfl⟩ | hk'
    · rfl
    · exact absurd (hpair i j hmem k') hk'
    · exact absurd (hpair i j hmem' k) hk
    · exact h.unique i j k k' hk hk'
  · rw [hassigned, hnum, Lanes.addMst]
    dsimp only
    by_cases hk : k = l
    · subst hk
      rw [Function.update_self, assigned_setLocation_pos one_ne_zero, Finset.card_union_of_disjoint
        (h.both_disjoint (hnone k)), card_both hne, h.num]
      push_cast
      rfl
    · rw [Function.update_of_ne hk, assigned_setLocation_of_ne hk, h.num]
  · rw [hassigned, assigned_setLocation_pos one_ne_zero]
  · rw [hassigned, assigned_setLocation_of_ne hk]

/-- A pair is taken from its lane. -/
lemma Located.leave (h : Located st lanesNeeded) (hin : st.virtualLocation s d l ≠ 0)
    (hloc : st'.virtualLocation = (st.setLocation s d l 0).virtualLocation)
    (hnum : st'.numMstInLane = (st.addMst l (-2)).numMstInLane) :
    Located st' lanesNeeded ∧ (∀ k, st'.virtualLocation s d k = 0) ∧ st'.assigned l = st.assigned l \ both s d ∧
      ∀ k, k ≠ l → st'.assigned k = st.assigned k := by
  have hassigned : ∀ k, st'.assigned k = (st.setLocation s d l 0).assigned k := fun k => by
    rw [Lanes.assigned, Lanes.assigned, hloc]
  have hout : ∀ i j k, st'.virtualLocation i j k ≠ 0 → st.virtualLocation i j k ≠ 0 := by
    intro i j k hk
    rw [hloc, virtualLocation_setLocation] at hk
    split_ifs at hk
    · exact absurd rfl hk
    · exact hk
  refine ⟨⟨?_, ?_, ?_, fun i j k hk => h.lane_lt i j k (hout i j k hk),
    fun i j k k' hk hk' => h.unique i j k k' (hout i j k hk) (hout i j k' hk'), fun k => ?_⟩, fun k => ?_, ?_,
        fun k hk => ?_⟩
  · rw [hloc]
    exact setLocation_symm h.symm
  · rw [hloc]
    exact setLocation_diag (h.ne hin) h.diag
  · rw [hloc]
    exact setLocation_le_two (Nat.zero_le 2) h.le_two
  · rw [hassigned, hnum, Lanes.addMst]
    dsimp only
    by_cases hk : k = l
    · subst hk
      have hle := Finset.card_le_card (h.both_subset hin)
      rw [card_both (h.ne hin)] at hle
      rw [Function.update_self, assigned_setLocation_zero, Finset.card_sdiff_of_subset (h.both_subset hin),
        card_both (h.ne hin), h.num]
      omega
    · rw [Function.update_of_ne hk, assigned_setLocation_of_ne hk, h.num]
  · rw [hloc, virtualLocation_setLocation]
    split_ifs with hk
    · rfl
    · by_contra hne
      exact hk ⟨mem_both.mpr (.inl ⟨rfl, rfl⟩), h.unique s d k l hne hin⟩
  · rw [hassigned, assigned_setLocation_zero]
  · rw [hassigned, assigned_setLocation_of_ne hk]

lemma Located.mono (h : Located st lanesNeeded) {k : ℕ} (hk : lanesNeeded ≤ k) : Located st k :=
  ⟨h.symm, h.diag, h.le_two, fun s d l hl => (h.lane_lt s d l hl).trans_le hk, h.unique, h.num⟩

lemma findLane_spec (ls : List ℕ) : (st.findLane rt test s d ls).2.virtualLocation = st.virtualLocation ∧
    ((st.findLane rt test s d ls).1 = none → (st.findLane rt test s d ls).2.numMstInLane = st.numMstInLane) ∧
    ∀ l, (st.findLane rt test s d ls).1 = some l →
      l ∈ ls ∧ (st.findLane rt test s d ls).2.numMstInLane = (st.addMst l 2).numMstInLane := by
  induction ls generalizing st with
  | nil => exact ⟨rfl, fun _ => rfl, nofun⟩
  | cons l ls ih =>
    rw [Lanes.findLane]
    split_ifs with htry
    · obtain ⟨hloc, hnone, hsome⟩ := @ih (st.tryLane rt test s d l).2
      rw [tryLane_virtualLocation] at hloc
      rw [tryLane_numMstInLane] at hnone
      refine ⟨hloc, hnone, fun l' hl' => ?_⟩
      obtain ⟨hmem, hnum⟩ := hsome l' hl'
      rw [Lanes.addMst, tryLane_numMstInLane] at hnum
      exact ⟨List.mem_cons_of_mem l hmem, hnum⟩
    · refine ⟨tryLane_virtualLocation, nofun, fun l' hl' => ?_⟩
      obtain rfl := Option.some.inj hl'
      refine ⟨List.mem_cons_self, ?_⟩
      rw [Lanes.addMst, Lanes.addMst, tryLane_numMstInLane]

end Lanes

section Assign

variable {rt : Fin n → Fin n → List (Channel n)} {test : Lane n → List (Channel n) → List (Channel n) → Bool}
  {vlMin startVl : ℕ} {st st' : Assign n} {p : Fin n × Fin n}

/-- The lanes in which a new pair ends up, before its place is noted. -/
inductive Assign.Found (rt : Fin n → Fin n → List (Channel n))
    (test : Lane n → List (Channel n) → List (Channel n) → Bool) (st : Assign n) (p : Fin n × Fin n) :
    Lanes n → ℕ → ℕ → Prop
  | lane {lanes : Lanes n} {l : ℕ}
      (h : st.toLanes.findLane rt test p.1 p.2 (List.range st.lanesNeeded) = (some l, lanes)) :
      Found rt test st p lanes l st.lanesNeeded
  | another {lanes : Lanes n}
      (h : st.toLanes.findLane rt test p.1 p.2 (List.range st.lanesNeeded) = (none, lanes)) :
      Found rt test st p (((lanes.generate rt p.1 p.2 st.lanesNeeded).setPermanent rt p.1 p.2
        st.lanesNeeded).addMst st.lanesNeeded 2) st.lanesNeeded (st.lanesNeeded + 1)

lemma assignPair_cases (h : st.assignPair rt test vlMin startVl p = some st') :
    st' = st ∨ p.1 ≠ p.2 ∧ st.switchBitmap p.1 p.2 = false ∧ ∃ lanes l,
        st.Found rt test p lanes l st'.lanesNeeded ∧
      st'.toLanes = (lanes.setSl p.1 p.2 (l + startVl)).setLocation p.1 p.2 l 1 ∧
      st'.switchBitmap = fun i j => if i = p.1 ∧ j = p.2 ∨ i = p.2 ∧
          j = p.1 then true else st.switchBitmap i j := by
  rw [Assign.assignPair] at h
  by_cases hskip : p.2 = p.1 ∨ st.switchBitmap p.1 p.2 = true
  · rw [if_pos hskip] at h
    exact .inl (Option.some.inj h).symm
  · rw [if_neg hskip] at h
    refine .inr ⟨fun heq => hskip (.inl heq.symm), Bool.eq_false_iff.mpr fun hb => hskip (.inr hb), ?_⟩
    rcases hfind : st.toLanes.findLane rt test p.1 p.2 (List.range st.lanesNeeded) with ⟨_ | l, lanes⟩
    · rw [hfind] at h
      dsimp only [Option.elim_none] at h
      split_ifs at h
      obtain rfl := Option.some.inj h
      exact ⟨_, _, .another hfind, rfl, rfl⟩
    · rw [hfind] at h
      obtain rfl := Option.some.inj h
      exact ⟨_, _, .lane hfind, rfl, rfl⟩

structure Assigning (st : Assign n) : Prop where
  located : Located st.toLanes st.lanesNeeded
  unmarked : ∀ s d l, st.virtualLocation s d l ≤ 1
  done : ∀ s d l, st.virtualLocation s d l ≠ 0 → st.switchBitmap s d = true

lemma assigning_init : Assigning (initAssign : Assign n) := by
  refine ⟨⟨fun _ _ _ => rfl, fun _ _ => rfl, fun _ _ _ => Nat.zero_le 2, fun _ _ _ h => absurd rfl h,
    fun _ _ _ _ h => absurd rfl h, fun l => ?_⟩, fun _ _ _ => Nat.zero_le 1, fun _ _ _ h => absurd rfl h⟩
  have hempty : (initLanes : Lanes n).assigned l = ∅ :=
    Finset.filter_eq_empty_iff.mpr fun _ _ h => h rfl
  rw [initAssign, hempty]
  rfl

lemma Assign.Found.spec {lanes : Lanes n} {l k : ℕ} (h : st.Found rt test p lanes l k) :
    l < k ∧ st.lanesNeeded ≤ k ∧ lanes.virtualLocation = st.virtualLocation ∧
      lanes.numMstInLane = (st.toLanes.addMst l 2).numMstInLane := by
  cases h with
  | lane h =>
    obtain ⟨hloc, -, hsome⟩ := @findLane_spec n st.toLanes p.1 p.2 rt test (List.range st.lanesNeeded)
    rw [h] at hloc hsome
    obtain ⟨hmem, hnum⟩ := hsome l rfl
    exact ⟨List.mem_range.mp hmem, le_rfl, hloc, hnum⟩
  | another h =>
    obtain ⟨hloc, hnone, -⟩ := @findLane_spec n st.toLanes p.1 p.2 rt test (List.range st.lanesNeeded)
    rw [h] at hloc hnone
    refine ⟨Nat.lt_succ_self _, Nat.le_succ _, hloc, ?_⟩
    rw [Lanes.addMst, Lanes.addMst, ← hnone rfl]
    rfl

/-- What a round of the assignment does to the places of the pairs. -/
lemma Assigning.step (h : Assigning st) (hstep : st.assignPair rt test vlMin startVl p = some st') :
    Assigning st' ∧ (st' = st ∨ p.1 ≠ p.2 ∧ (∀ k, st.virtualLocation p.1 p.2 k = 0) ∧
      ∃ lanes l, st.Found rt test p lanes l st'.lanesNeeded ∧ st'.cdg = lanes.cdg ∧ st'.nextAddr = lanes.nextAddr ∧
        st'.assigned l = st.assigned l ∪ both p.1 p.2 ∧ ∀ k, k ≠ l → st'.assigned k = st.assigned k) := by
  rcases assignPair_cases hstep with rfl | ⟨hne, hbit, lanes, l, hfound, hlanes, hbitmap⟩
  · exact ⟨h, .inl rfl⟩
  · obtain ⟨hl, hk, hloc, hnum⟩ := hfound.spec
    have hnone : ∀ k, st.virtualLocation p.1 p.2 k = 0 := fun k => not_not.mp fun hne => by
      rw [h.done p.1 p.2 k hne] at hbit
      cases hbit
    have hplace : st'.virtualLocation = (st.toLanes.setLocation p.1 p.2 l 1).virtualLocation := by
      rw [hlanes, Lanes.setLocation, Lanes.setLocation, ← hloc]
      rfl
    obtain ⟨hlocated, hin, hother⟩ := (h.located.mono hk).enter hne hnone hl hplace (by rw [hlanes, ← hnum]; rfl)
    refine ⟨⟨hlocated, fun s d k => ?_, fun s d k hsd => ?_⟩,
        .inr ⟨hne, hnone, lanes, l, hfound, ?_, ?_, hin, hother⟩⟩
    · rw [hplace, virtualLocation_setLocation]
      split_ifs
      · exact le_rfl
      · exact h.unmarked s d k
    · rw [hplace, virtualLocation_setLocation] at hsd
      rw [hbitmap]
      dsimp only
      split_ifs at hsd with hmem
      · rw [if_pos (mem_both.mp hmem.1)]
      · rw [h.done s d k hsd, ite_self]
    · rw [hlanes]
      rfl
    · rw [hlanes]
      rfl

end Assign

end OpenSM.Lash
