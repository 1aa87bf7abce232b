import OpenSM.QosRangesSpec

/-! What the lists of numbers and ranges of a QoS policy file come to: as numbers, as GUIDs and as P_Keys. -/

namespace OpenSM.QosRanges

open Lib.Intervals

def Item.Contains (it : Item) (n : ℕ) : Prop :=
  match it with
  | .number v => n = v.toNat
  | .range v w => min v.toNat w.toNat ≤ n ∧ n ≤ max v.toNat w.toNat

def Item.Base (it : Item) (n : ℕ) : Prop := ∃ v, it.Contains v ∧ v % 2 ^ 15 = n

def Item.Masked (it : Item) (n : ℕ) : Prop := (pkeyPair it.pair).nat.1 ≤ n ∧ n ≤ (pkeyPair it.pair).nat.2

def Item.Crosses (it : Item) : Prop := it.pair.nat.1 / 2 ^ 15 ≠ it.pair.nat.2 / 2 ^ 15

def Listed (lines : List (List Item)) (P : Item → Prop) : Prop := ∃ line ∈ lines, ∃ it ∈ line, P it

/-- The array is in order, with gaps, and the search in it answers for the numbers of `S`. -/
structure Exact (arr : List Range) (S : ℕ → Prop) : Prop where
  separated : Separated (arr.map Range.nat)
  search : ∀ num, ∃ b, isNumInRangeArr arr num = some b ∧ (b = true ↔ S num.toNat)

/-- Lists in the three ways in which they are used. -/
structure Lists where
  numbers : List (List Item)
  guids : List Item
  pkeys : List (List Item)

structure RangesMean (x : Lists) : Prop where
  numbers : ∃ arr, readLines rangelist2rangearr x.numbers = some arr ∧
    Exact arr fun n => Listed x.numbers fun it => it.Contains n
  guids : x.guids ≠ [] → ∃ arr, rangelist2rangearr (x.guids.map Item.pair) = some arr ∧
    (Exact arr fun n => ∃ it ∈ x.guids, it.Contains n) ∧
    ∀ portByGuid map, ∃ fuel, (addGuidRangeToPortMap portByGuid fuel arr map).isSome
  pkeys : ∃ arr, readLines pkeyRangelist2rangearr x.pkeys = some arr ∧
    (Exact arr fun n => Listed x.pkeys fun it => it.Base n) ∧
    (∀ prtnByPkey map, ∃ fuel, (addPkeyRangeToPortMap prtnByPkey fuel arr map).isSome) ∧
    (∀ prtnByPkey, ∃ fuel, (validatePkeys prtnByPkey fuel arr).isSome) ∧
    ∀ shareThisPkey, ∃ fuel, (getSharedPkey shareThisPkey fuel arr).isSome

/-- No GUID is the largest number, and what the masks do to a P_Key range that crosses a multiple of 2^15 is
made up for by the list. -/
structure Tame (x : Lists) : Prop where
  guids : ∀ it ∈ x.guids, ¬it.Contains (2 ^ 64 - 1)
  pkeys : ∀ line ∈ x.pkeys, ∀ it ∈ line, it.Crosses → ∀ n,
    (it.Base n → Listed x.pkeys fun it => it.Masked n) ∧ (it.Masked n → Listed x.pkeys fun it => it.Base n)

variable {arr : List Range} {it : Item} {line : List Item} {lines : List (List Item)} {n : ℕ} {x : Lists}

section Items

lemma pair_proper (it : Item) : it.pair.1 ≤ it.pair.2 := by
  cases it with
  | number v => exact UInt64.le_refl v
  | range v w =>
    rw [Item.pair]
    split_ifs with h
    · exact h
    · rw [UInt64.le_iff_toNat_le] at h ⊢
      exact (not_le.mp h).le

lemma contains_iff : it.Contains n ↔ it.pair.nat.1 ≤ n ∧ n ≤ it.pair.nat.2 := by
  cases it with
  | number v =>
    change n = v.toNat ↔ v.toNat ≤ n ∧ n ≤ v.toNat
    omega
  | range v w =>
    rw [Item.Contains, Item.pair]
    split_ifs with h
    · rw [UInt64.le_iff_toNat_le] at h
      rw [min_eq_left h, max_eq_right h]
      rfl
    · rw [UInt64.le_iff_toNat_le, not_le] at h
      rw [min_eq_right h.le, max_eq_left h.le]
      rfl

lemma pkeyPair_nat (p : Range) : (pkeyPair p).nat =
    (min (p.nat.1 % 2 ^ 15) (p.nat.2 % 2 ^ 15), max (p.nat.1 % 2 ^ 15) (p.nat.2 % 2 ^ 15)) := by
  have hmask : ∀ v : UInt64, (v &&& 0x7fff).toNat = v.toNat % 2 ^ 15 := by
    intro v
    rw [UInt64.toNat_and]
    exact Nat.and_two_pow_sub_one_eq_mod v.toNat 15
  rw [pkeyPair]
  dsimp only
  split_ifs with h
  · rw [gt_iff_lt, UInt64.lt_iff_toNat_lt, hmask, hmask] at h
    simp only [Range.nat, hmask]
    rw [min_eq_right h.le, max_eq_left h.le]
  · rw [gt_iff_lt, UInt64.lt_iff_toNat_lt, hmask, hmask, not_lt] at h
    simp only [Range.nat, hmask]
    rw [min_eq_left h, max_eq_right h]

lemma pkeyPair_proper (p : Range) : (pkeyPair p).1 ≤ (pkeyPair p).2 := by
  rw [UInt64.le_iff_toNat_le]
  change (pkeyPair p).nat.1 ≤ (pkeyPair p).nat.2
  rw [pkeyPair_nat]
  exact min_le_max

lemma Item.Masked.lt (h : it.Masked n) : n < 2 ^ 15 := by
  rw [Item.Masked, pkeyPair_nat] at h
  have h₁ := Nat.mod_lt it.pair.nat.1 (Nat.two_pow_pos 15)
  have h₂ := Nat.mod_lt it.pair.nat.2 (Nat.two_pow_pos 15)
  exact h.2.trans_lt (max_lt h₁ h₂)

lemma Item.Base.lt (h : it.Base n) : n < 2 ^ 15 := by
  obtain ⟨v, -, rfl⟩ := h
  exact Nat.mod_lt v (Nat.two_pow_pos 15)

lemma masked_iff_base (h : ¬it.Crosses) : it.Masked n ↔ it.Base n := by
  rw [Item.Crosses, not_not] at h
  have hle : it.pair.nat.1 ≤ it.pair.nat.2 := UInt64.le_iff_toNat_le.mp (pair_proper it)
  have hbase : it.Base n ↔ ∃ v, (it.pair.nat.1 ≤ v ∧ v ≤ it.pair.nat.2) ∧ v % 2 ^ 15 = n := by
    simp only [Item.Base, contains_iff]
  rw [hbase, Item.Masked, pkeyPair_nat]
  dsimp only
  constructor
  · intro hn
    exact ⟨it.pair.nat.1 / 2 ^ 15 * 2 ^ 15 + n, by omega, by omega⟩
  · rintro ⟨v, hv, rfl⟩
    omega

end Items

section Lines

variable {rangearr : List Range → Option (List Range)} {f : Range → Range}

structure Converts (rangearr : List Range → Option (List Range)) (f : Range → Range) : Prop where
  eq : ∀ l, rangearr l = sortReduceRangearr (l.map f)
  proper : ∀ p : Range, p.1 ≤ p.2 → (f p).1 ≤ (f p).2

lemma converts_rangelist : Converts rangelist2rangearr id := by
  refine ⟨fun l => ?_, fun p hp => hp⟩
  rw [List.map_id]
  rfl

lemma converts_pkeyRangelist : Converts pkeyRangelist2rangearr pkeyPair :=
    ⟨fun _ => rfl, fun p _ => pkeyPair_proper p⟩

lemma Converts.one (h : Converts rangearr f) (hne : line ≠ []) :
    ∃ arr, rangearr (line.map Item.pair) = some arr ∧ arr ≠ [] ∧ Separated (arr.map Range.nat) ∧
      ∀ n, InUnion (arr.map Range.nat) n ↔ ∃ it ∈ line, (f it.pair).nat.1 ≤ n ∧ n ≤ (f it.pair).nat.2 := by
  have hproper : Proper ((line.map Item.pair).map f) := by
    intro r hr
    obtain ⟨p, hp, rfl⟩ := List.mem_map.mp hr
    obtain ⟨it, -, rfl⟩ := List.mem_map.mp hp
    exact h.proper _ (pair_proper it)
  have hne' : (line.map Item.pair).map f ≠ [] := by
    rw [ne_eq, List.map_eq_nil_iff, List.map_eq_nil_iff]
    exact hne
  obtain ⟨arr, harr, hnil, hsep, hunion⟩ := sortReduceRangearr_spec hne' hproper
  refine ⟨arr, (h.eq _).trans harr, hnil, hsep, fun n => (hunion n).trans ?_⟩
  simp only [InUnion, List.mem_map, exists_exists_and_eq_and]

lemma proper_of_separated (h : Separated (arr.map Range.nat)) : Proper arr :=
  fun _ hr => UInt64.le_iff_toNat_le.mpr (h.proper _ (List.mem_map_of_mem hr))

lemma Converts.addLine (h : Converts rangearr f) (hsep : Separated (arr.map Range.nat)) :
    ∃ arr', addLine rangearr arr line = some arr' ∧ Separated (arr'.map Range.nat) ∧
      ∀ n, InUnion (arr'.map Range.nat) n ↔ InUnion (arr.map Range.nat) n ∨
        ∃ it ∈ line, (f it.pair).nat.1 ≤ n ∧ n ≤ (f it.pair).nat.2 := by
  by_cases hnil : line = []
  · subst hnil
    refine ⟨arr, if_pos rfl, hsep, fun n => (or_iff_left ?_).symm⟩
    rintro ⟨it, hit, -⟩
    cases hit
  · obtain ⟨new, hnew, hne, hsep', hunion⟩ := h.one hnil
    rw [QosRanges.addLine, if_neg hnil, hnew]
    by_cases harr : arr = []
    · subst harr
      refine ⟨new, rfl, hsep', fun n => (hunion n).trans (or_iff_right ?_).symm⟩
      rintro ⟨r, hr, -⟩
      cases hr
    · have hproper : Proper (arr ++ new) := fun r hr =>
        (List.mem_append.mp hr).elim (proper_of_separated hsep r) (proper_of_separated hsep' r)
      obtain ⟨arr', harr', -, hsep'', hunion'⟩ :=
          sortReduceRangearr_spec (List.append_ne_nil_of_left_ne_nil harr new) hproper
      refine ⟨arr', (if_neg harr).trans harr', hsep'', fun n => ?_⟩
      rw [hunion', List.map_append, inUnion_append, hunion]

lemma Converts.readLines (h : Converts rangearr f) (lines : List (List Item)) :
    ∃ arr, readLines rangearr lines = some arr ∧ Separated (arr.map Range.nat) ∧
      ∀ n, InUnion (arr.map Range.nat) n ↔ Listed lines fun it => (f it.pair).nat.1 ≤ n ∧
          n ≤ (f it.pair).nat.2 := by
  induction lines using List.reverseRecOn with
  | nil =>
    refine ⟨[], rfl, separated_nil, fun n => iff_of_false ?_ ?_⟩
    · rintro ⟨r, hr, -⟩
      cases hr
    · rintro ⟨line, hline, -⟩
      cases hline
  | append_singleton lines line ih =>
    obtain ⟨arr, harr, hsep, hunion⟩ := ih
    obtain ⟨arr', harr', hsep', hunion'⟩ := @Converts.addLine arr line rangearr f h hsep
    refine ⟨arr', ?_, hsep', fun n => ?_⟩
    · rw [QosRanges.readLines] at harr ⊢
      rw [List.foldlM_append, harr]
      change (List.foldlM (QosRanges.addLine rangearr) arr [line]) = _
      rw [List.foldlM_cons, harr']
      rfl
    · rw [hunion', hunion]
      simp only [Listed, List.mem_append, List.mem_singleton, or_and_right, exists_or, exists_eq_left]

lemma exact_iff (h : Separated (arr.map Range.nat)) {S : ℕ → Prop} :
    Exact arr S ↔ ∀ num : UInt64, InUnion (arr.map Range.nat) num.toNat ↔ S num.toNat := by
  constructor
  · intro hexact num
    obtain ⟨b, hb, hS⟩ := hexact.search num
    obtain ⟨b', hb', hunion⟩ := @isNumInRangeArr_spec arr num h
    obtain rfl := Option.some.inj (hb.symm.trans hb')
    exact hunion.symm.trans hS
  · intro hS
    refine ⟨h, fun num => ?_⟩
    obtain ⟨b, hb, hunion⟩ := @isNumInRangeArr_spec arr num h
    exact ⟨b, hb, hunion.trans (hS num)⟩

end Lines

section Ends

variable {σ ρ : Type} {w : ℕ} {body : ℕ → σ → Except ρ σ}

lemma ends_of_lt (h : ∀ n, InUnion (arr.map Range.nat) n → n + 1 < 2 ^ w)
    (hsep : Separated (arr.map Range.nat)) (s : σ) :
    ∃ fuel, (loopAll w body fuel (arr.map Range.nat) s).isSome := by
  obtain ⟨fuel, e, he⟩ := @loopAll_ends (arr.map Range.nat) σ ρ w body s fun r hr => h r.2 ⟨r, hr,
      hsep.proper r hr, le_rfl⟩
  exact ⟨fuel, by rw [he]; rfl⟩

lemma never_of_max (hbody : ∀ i s, ∃ s', body i s = .ok s') (h : InUnion (arr.map Range.nat) (2 ^ 64 - 1))
    (s : σ) (fuel : ℕ) :
    loopAll 64 body fuel (arr.map Range.nat) s = none := by
  obtain ⟨r, hr, -, hle⟩ := h
  exact loopAll_never hbody hr (by omega)

end Ends

section Uses

lemma numbers_exact (lines : List (List Item)) : ∃ arr, readLines rangelist2rangearr lines = some arr ∧
    Exact arr fun n => Listed lines fun it => it.Contains n := by
  obtain ⟨arr, harr, hsep, hunion⟩ := converts_rangelist.readLines lines
  refine ⟨arr, harr, (exact_iff hsep).mpr fun num => ?_⟩
  simp only [contains_iff]
  exact hunion num.toNat

lemma guids_iff (hne : line ≠ []) : (∃ arr, rangelist2rangearr (line.map Item.pair) = some arr ∧
    (Exact arr fun n => ∃ it ∈ line, it.Contains n) ∧
    ∀ portByGuid map, ∃ fuel, (addGuidRangeToPortMap portByGuid fuel arr map).isSome) ↔
      ∀ it ∈ line, ¬it.Contains (2 ^ 64 - 1) := by
  obtain ⟨arr, harr, -, hsep, hunion⟩ := converts_rangelist.one hne
  have hcontains : ∀ n, InUnion (arr.map Range.nat) n ↔ ∃ it ∈ line, it.Contains n := by
    simp only [contains_iff]
    exact hunion
  constructor
  · rintro ⟨arr', harr', -, hends⟩ it hit hmax
    obtain rfl := Option.some.inj (harr.symm.trans harr')
    obtain ⟨fuel, hfuel⟩ := hends (fun _ => none) []
    rw [addGuidRangeToPortMap, never_of_max (fun _ _ => ⟨_, rfl⟩) ((hcontains _).mpr ⟨it, hit, hmax⟩)] at hfuel
    cases hfuel
  · intro hmax
    refine ⟨arr, harr, (exact_iff hsep).mpr fun num => hcontains num.toNat, fun portByGuid map => ?_⟩
    refine ends_of_lt (fun n hn => ?_) hsep map
    obtain ⟨it, hit, hcon⟩ := (hcontains n).mp hn
    have hne' : n ≠ 2 ^ 64 - 1 := by
      rintro rfl
      exact hmax it hit hcon
    have hlt : n < 2 ^ 64 := (contains_iff.mp hcon).2.trans_lt (UInt64.toNat_lt _)
    omega

lemma pkeys_iff (lines : List (List Item)) : (∃ arr, readLines pkeyRangelist2rangearr lines = some arr ∧
    (Exact arr fun n => Listed lines fun it => it.Base n) ∧
    (∀ prtnByPkey map, ∃ fuel, (addPkeyRangeToPortMap prtnByPkey fuel arr map).isSome) ∧
    (∀ prtnByPkey, ∃ fuel, (validatePkeys prtnByPkey fuel arr).isSome) ∧
    ∀ shareThisPkey, ∃ fuel, (getSharedPkey shareThisPkey fuel arr).isSome) ↔
      ∀ line ∈ lines, ∀ it ∈ line, it.Crosses → ∀ n,
        (it.Base n → Listed lines fun it => it.Masked n) ∧ (it.Masked n → Listed lines fun it => it.Base n) := by
  obtain ⟨arr, harr, hsep, hunion⟩ := converts_pkeyRangelist.readLines lines
  have hmasked : ∀ n, InUnion (arr.map Range.nat) n ↔ Listed lines fun it => it.Masked n := hunion
  have hlt : ∀ n, InUnion (arr.map Range.nat) n → n < 2 ^ 15 := by
    intro n hn
    obtain ⟨line, -, it, -, hit⟩ := (hmasked n).mp hn
    exact hit.lt
  constructor
  · rintro ⟨arr', harr', hexact, -⟩ line hline it hit - n
    obtain rfl := Option.some.inj (harr.symm.trans harr')
    have hiff := (exact_iff hsep).mp hexact
    have hsmall : n < 2 ^ 15 → (InUnion (arr.map Range.nat) n ↔ Listed lines fun it => it.Base n) := by
      intro hn
      have hnum : (UInt64.ofNat n).toNat = n := UInt64.toNat_ofNat_of_lt' (hn.trans (by decide))
      have h := hiff (UInt64.ofNat n)
      rwa [hnum] at h
    refine ⟨fun hbase => ?_, fun hmask => ?_⟩
    · exact (hmasked n).mp ((hsmall hbase.lt).mpr ⟨line, hline, it, hit, hbase⟩)
    · exact (hsmall hmask.lt).mp ((hmasked n).mpr ⟨line, hline, it, hit, hmask⟩)
  · intro hcross
    refine ⟨arr, harr, (exact_iff hsep).mpr fun num => (hmasked _).trans ⟨?_, ?_⟩, fun _ _ => ?_,
        fun _ => ?_, fun _ => ?_⟩
    · rintro ⟨line, hline, it, hit, hmask⟩
      by_cases hc : it.Crosses
      · exact (hcross line hline it hit hc _).2 hmask
      · exact ⟨line, hline, it, hit, (masked_iff_base hc).mp hmask⟩
    · rintro ⟨line, hline, it, hit, hbase⟩
      by_cases hc : it.Crosses
      · exact (hcross line hline it hit hc _).1 hbase
      · exact ⟨line, hline, it, hit, (masked_iff_base hc).mpr hbase⟩
    · exact ends_of_lt (fun n hn => (Nat.succ_le_of_lt (hlt n hn)).trans_lt (by decide)) hsep _
    · exact ends_of_lt (fun n hn => (Nat.succ_le_of_lt (hlt n hn)).trans_lt (by decide)) hsep _
    · simp only [getSharedPkey, Option.isSome_map]
      exact ends_of_lt (fun n hn => (Nat.succ_le_of_lt (hlt n hn)).trans_lt (by decide)) hsep _

end Uses

lemma rangesMean_iff (x : Lists) : RangesMean x ↔ Tame x := by
  constructor
  · intro h
    refine ⟨fun it hit => ?_, (pkeys_iff x.pkeys).mp h.pkeys⟩
    have hne : x.guids ≠ [] := List.ne_nil_of_mem hit
    exact (guids_iff hne).mp (h.guids hne) it hit
  · intro h
    exact ⟨numbers_exact x.numbers, fun hne => (guids_iff hne).mpr h.guids, (pkeys_iff x.pkeys).mpr h.pkeys⟩

/-- The lists mean what they say if and only if they are tame. -/
theorem ranges_mean (x : Lists) : RangesMean x ↔ Tame x := rangesMean_iff x

/-- One P_Key range from the last bases of the limited keys to the first of the full ones, and one range of
GUIDs up to the largest number. -/
theorem ranges_turned : ¬RangesMean ⟨[], [], [[.range 0x7ffe 0x8001]]⟩ ∧
    ¬RangesMean ⟨[], [.range 0xfffffffffffffff0 0xffffffffffffffff], []⟩ := by
  refine ⟨fun h => ?_, fun h => ?_⟩
  · have hcross : (Item.range 0x7ffe 0x8001).Crosses := by
      rw [Item.Crosses]
      decide
    have hmask : (Item.range 0x7ffe 0x8001).Masked 2 := by
      rw [Item.Masked]
      decide
    have htame := ((rangesMean_iff _).mp h).pkeys _ (List.mem_singleton_self _) _
        (List.mem_singleton_self _) hcross 2
    obtain ⟨line, hline, it, hit, v, hv, hbase⟩ := htame.2 hmask
    rw [List.mem_singleton.mp hline] at hit
    rw [List.mem_singleton.mp hit, contains_iff] at hv
    change 0x7ffe ≤ v ∧ v ≤ 0x8001 at hv
    omega
  · exact ((rangesMean_iff _).mp h).guids _ (List.mem_singleton_self _) (contains_iff.mpr (by decide))

end OpenSM.QosRanges
