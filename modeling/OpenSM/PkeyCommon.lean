import OpenSM.PkeyTbl
import OpenSM.Lib.SortedMerge

/-! The search for a P_Key that two ports have in common. -/

namespace OpenSM.Pkey

open Lib

abbrev Entry := ℕ × PKey

variable (o : ByteOrder)

def sameKeys : SortedMerge Entry Entry ℕ where
  skipL _ := false
  skipR _ := false
  fits e₁ e₂ := matchPkey o e₁.2 e₂.2
  keyL := Prod.fst
  keyR := Prod.fst

/-- `ib_pkey_get_base` takes the key in 16 bits. -/
def keyBase (e : Entry) : ℕ := (getBase o (BitVec.ofNat 16 e.1)).toNat

def fullWithLimited : SortedMerge Entry Entry ℕ where
  skipL e := !isFullMember o e.2
  skipR e := isFullMember o e.2
  fits e₁ e₂ := matchPkey o e₁.2 e₂.2
  keyL := keyBase o
  keyR := keyBase o

def limitedWithFull : SortedMerge Entry Entry ℕ where
  skipL e := isFullMember o e.2
  skipR e := !isFullMember o e.2
  fits e₁ e₂ := matchPkey o e₁.2 e₂.2
  keyL := keyBase o
  keyR := keyBase o

def findCommonPkey (t₁ t₂ : Tbl) (allowBothPkeys : Bool) : PKey :=
  let pass (w : SortedMerge Entry Entry ℕ) : Option Entry := w.find t₁.keys.entries t₂.keys.entries
  let found :=
    if allowBothPkeys then (pass (sameKeys o)).or ((pass (fullWithLimited o)).or (pass (limitedWithFull o)))
    else pass (sameKeys o)
  found.elim 0 Prod.snd

/-- The naive search: two entries with the same base, of which one is a full member. -/
structure Common (t₁ t₂ : Tbl) (p₁ p₂ : PKey) : Prop where
  first : ∃ k, t₁.keys.get k = some p₁
  second : ∃ k, t₂.keys.get k = some p₂
  base : getBase o p₁ = getBase o p₂
  full : isFullMember o p₁ = true ∨ isFullMember o p₂ = true

variable {o} {allowBoth : Bool} {t t₁ t₂ : Tbl} {calls calls₁ calls₂ : List Call} {p p₁ p₂ : PKey} {e : Entry}

lemma Common.symm (h : Common o t₁ t₂ p₁ p₂) : Common o t₂ t₁ p₂ p₁ :=
    ⟨h.second, h.first, h.base.symm, h.full.symm⟩

lemma matchPkey_iff : matchPkey o p₁ p₂ = true ↔
    getBase o p₁ = getBase o p₂ ∧ (isFullMember o p₁ = true ∨ isFullMember o p₂ = true) := by
  rw [matchPkey, Bool.and_eq_true, Bool.or_eq_true, decide_eq_true_eq, and_comm]

lemma common_of_find {w : SortedMerge Entry Entry ℕ} (hw : ∀ e₁ e₂, w.fits e₁ e₂ = matchPkey o e₁.2 e₂.2)
    (h : w.find t₁.keys.entries t₂.keys.entries = some e) : ∃ p₂, Common o t₁ t₂ e.2 p₂ := by
  obtain ⟨e₂, hp⟩ := SortedMerge.find_sound h
  obtain ⟨hb, hf⟩ := matchPkey_iff.mp (hw e e₂ ▸ hp.fits)
  exact ⟨e₂.2, ⟨e.1, Qmap.get_eq_some.mpr hp.left⟩, ⟨e₂.1, Qmap.get_eq_some.mpr hp.right⟩, hb, hf⟩

section Keys

lemma entry_fst (h : fill o true calls = some t) (he : e ∈ t.keys.entries) : e.1 = e.2.toNat :=
  (fill_some h (Qmap.get_eq_some.mpr he)).2.symm

lemma keyBase_eq (h : fill o true calls = some t) (he : e ∈ t.keys.entries) :
    keyBase o e = (getBase o e.2).toNat := by
  rw [keyBase, entry_fst h he, BitVec.ofNat_toNat, BitVec.setWidth_eq]

lemma sorted_keyBase (h : fill o true calls = some t) {skip : Entry → Bool} {b : Bool}
    (hskip : ∀ e, skip e = false → isFullMember o e.2 = b) :
    (t.keys.entries.filter (!skip ·)).Pairwise fun e e' => keyBase o e < keyBase o e' := by
  have hsub := List.filter_sublist (p := (!skip ·)) (l := t.keys.entries)
  refine (t.keys.sorted.sublist hsub).imp_of_mem fun {e e'} he he' hlt => ?_
  have hmem := hsub.subset he
  have hmem' := hsub.subset he'
  have hfull := hskip e (by simpa using (List.mem_filter.mp he).2)
  have hfull' := hskip e' (by simpa using (List.mem_filter.mp he').2)
  rw [keyBase_eq h hmem, keyBase_eq h hmem', ← lt_iff_getBase (hfull.trans hfull'.symm)]
  rw [← entry_fst h hmem, ← entry_fst h hmem']
  exact hlt

end Keys

section Passes

lemma sameKeys_isSome (hc : Common o t₁ t₂ p₁ p₂) {k : ℕ} (h₁ : t₁.keys.get k = some p₁)
    (h₂ : t₂.keys.get k = some p₂) :
    ((sameKeys o).find t₁.keys.entries t₂.keys.entries).isSome := by
  have hsorted : ∀ t : Tbl, (t.keys.entries.filter fun _ => true).Pairwise fun e e' => e.1 < e'.1 :=
    fun t => t.keys.sorted.filter _
  refine SortedMerge.find_complete (a := (k, p₁)) (b := (k, p₂)) (hsorted t₁) (hsorted t₂) ?_ rfl
  exact ⟨Qmap.get_eq_some.mp h₁, Qmap.get_eq_some.mp h₂, rfl, rfl, matchPkey_iff.mpr ⟨hc.base, hc.full⟩⟩

lemma mem_entries (h : fill o true calls = some t) (hp : ∃ k, t.keys.get k = some p) :
    (p.toNat, p) ∈ t.keys.entries := by
  obtain ⟨k, hk⟩ := hp
  have hkey := entry_fst h (Qmap.get_eq_some.mp hk)
  exact hkey ▸ Qmap.get_eq_some.mp hk

lemma byMembership_isSome {w : SortedMerge Entry Entry ℕ} {f : Bool} (h₁ : fill o true calls₁ = some t₁)
    (h₂ : fill o true calls₂ = some t₂) (hL : ∀ e, w.skipL e = false ↔ isFullMember o e.2 = f)
    (hR : ∀ e, w.skipR e = false ↔ isFullMember o e.2 = !f) (hfits : ∀ e₁ e₂, w.fits e₁ e₂ = matchPkey o e₁.2 e₂.2)
    (hkeyL : w.keyL = keyBase o) (hkeyR : w.keyR = keyBase o)
    (hc : Common o t₁ t₂ p₁ p₂) (hf₁ : isFullMember o p₁ = f) (hf₂ : isFullMember o p₂ = !f) :
    (w.find t₁.keys.entries t₂.keys.entries).isSome := by
  have hm₁ := mem_entries h₁ hc.first
  have hm₂ := mem_entries h₂ hc.second
  have hsortedL : w.SortedL t₁.keys.entries := by
    rw [SortedMerge.SortedL, hkeyL]
    exact sorted_keyBase h₁ fun e => (hL e).mp
  have hsortedR : w.SortedR t₂.keys.entries := by
    rw [SortedMerge.SortedR, hkeyR]
    exact sorted_keyBase h₂ fun e => (hR e).mp
  have hfit := (hfits (p₁.toNat, p₁) (p₂.toNat, p₂)).trans (matchPkey_iff.mpr ⟨hc.base, hc.full⟩)
  refine SortedMerge.find_complete hsortedL hsortedR ⟨hm₁, hm₂, (hL _).mpr hf₁, (hR _).mpr hf₂, hfit⟩ ?_
  rw [hkeyL, hkeyR, keyBase_eq h₁ hm₁, keyBase_eq h₂ hm₂, hc.base]

lemma passes_isSome (h₁ : fill o true calls₁ = some t₁) (h₂ : fill o true calls₂ = some t₂)
    (hc : Common o t₁ t₂ p₁ p₂) : ((sameKeys o).find t₁.keys.entries t₂.keys.entries).isSome ∨
    ((fullWithLimited o).find t₁.keys.entries t₂.keys.entries).isSome ∨
    ((limitedWithFull o).find t₁.keys.entries t₂.keys.entries).isSome := by
  cases hf₁ : isFullMember o p₁ with
  | true =>
    cases hf₂ : isFullMember o p₂ with
    | true =>
      have hp : p₁ = p₂ := eq_of_getBase hc.base (hf₁.trans hf₂.symm)
      have hk₁ := Qmap.get_eq_some.mpr (mem_entries h₁ hc.first)
      have hk₂ := Qmap.get_eq_some.mpr (mem_entries h₂ hc.second)
      exact .inl (sameKeys_isSome hc hk₁ (hp ▸ hk₂))
    | false =>
      refine .inr (.inl (byMembership_isSome (f := true) h₁ h₂ ?_ ?_ (fun _ _ => rfl) rfl rfl hc hf₁ hf₂))
      · exact fun e => iff_of_eq (Bool.not_eq_false' _)
      · exact fun e => Iff.rfl
  | false =>
    have hf₂ : isFullMember o p₂ = true := hc.full.resolve_left (by simp [hf₁])
    refine .inr (.inr (byMembership_isSome (f := false) h₁ h₂ ?_ ?_ (fun _ _ => rfl) rfl rfl hc hf₁ hf₂))
    · exact fun e => Iff.rfl
    · exact fun e => iff_of_eq (Bool.not_eq_false' _)

end Passes

lemma findCommonPkey_eq (h₁ : fill o allowBoth calls₁ = some t₁) (h₂ : fill o allowBoth calls₂ = some t₂) :
    ∃ found : Option Entry, findCommonPkey o t₁ t₂ allowBoth = found.elim 0 Prod.snd ∧
      (∀ e, found = some e → ∃ p₂, Common o t₁ t₂ e.2 p₂) ∧ ((∃ p₁ p₂, Common o t₁ t₂ p₁ p₂) → found.isSome) := by
  cases allowBoth with
  | false =>
    refine ⟨_, rfl, fun e he => common_of_find (fun _ _ => rfl) he, ?_⟩
    rintro ⟨p₁, p₂, hc⟩
    obtain ⟨k₁, hk₁⟩ := hc.first
    obtain ⟨k₂, hk₂⟩ := hc.second
    have hkey : k₂ = k₁ := by
      rw [← (fill_some h₁ hk₁).2, ← (fill_some h₂ hk₂).2]
      exact congrArg BitVec.toNat hc.base.symm
    exact sameKeys_isSome hc hk₁ (hkey ▸ hk₂)
  | true =>
    refine ⟨_, rfl, fun e he => ?_, ?_⟩
    · simp only [if_true, Option.or_eq_some_iff] at he
      rcases he with he | ⟨-, he | ⟨-, he⟩⟩
      all_goals exact common_of_find (fun _ _ => rfl) he
    · rintro ⟨p₁, p₂, hc⟩
      rw [if_pos rfl, Option.isSome_or, Option.isSome_or, Bool.or_eq_true, Bool.or_eq_true]
      exact passes_isSome h₁ h₂ hc

lemma findCommonPkey_cases (h₁ : fill o allowBoth calls₁ = some t₁) (h₂ : fill o allowBoth calls₂ = some t₂) :
    (∃ p₂, Common o t₁ t₂ (findCommonPkey o t₁ t₂ allowBoth) p₂ ∧
        isInvalid o (findCommonPkey o t₁ t₂ allowBoth) = false) ∨
      (findCommonPkey o t₁ t₂ allowBoth = 0 ∧ ∀ p₁ p₂, ¬Common o t₁ t₂ p₁ p₂) := by
  obtain ⟨found, hfound, hsound, hcomplete⟩ := findCommonPkey_eq h₁ h₂
  rw [hfound]
  cases found with
  | none => exact .inr ⟨rfl, fun p₁ p₂ hc => Bool.false_ne_true (hcomplete ⟨p₁, p₂, hc⟩)⟩
  | some e =>
    obtain ⟨p₂, hc⟩ := hsound e rfl
    obtain ⟨k, hk⟩ := hc.first
    exact .inl ⟨p₂, hc, (fill_some h₁ hk).1.2⟩

lemma findCommonPkey_iff (h₁ : fill o allowBoth calls₁ = some t₁) (h₂ : fill o allowBoth calls₂ = some t₂) :
    (isInvalid o (findCommonPkey o t₁ t₂ allowBoth) = false ↔ ∃ p₁ p₂, Common o t₁ t₂ p₁ p₂) ∧
      (findCommonPkey o t₁ t₂ allowBoth ≠ 0 ↔ ∃ p₁ p₂, Common o t₁ t₂ p₁ p₂) := by
  have hzero : isInvalid o 0 ≠ false := by cases o <;> decide
  rcases findCommonPkey_cases h₁ h₂ with ⟨p₂, hc, hv⟩ | ⟨hz, hno⟩
  · have hne : findCommonPkey o t₁ t₂ allowBoth ≠ 0 := fun h0 => hzero (h0 ▸ hv)
    exact ⟨iff_of_true hv ⟨_, p₂, hc⟩, iff_of_true hne ⟨_, p₂, hc⟩⟩
  · have hno' : ¬∃ p₁ p₂, Common o t₁ t₂ p₁ p₂ := fun ⟨p₁, p₂, hc⟩ => hno p₁ p₂ hc
    rw [hz]
    exact ⟨iff_of_false hzero hno', iff_of_false (not_not.mpr rfl) hno'⟩

/-- The sorted search agrees with the naive one, and so is symmetric in the ports. -/
theorem findCommonPkey_naive (h₁ : fill o allowBoth calls₁ = some t₁) (h₂ : fill o allowBoth calls₂ = some t₂) :
    (isInvalid o (findCommonPkey o t₁ t₂ allowBoth) = false ↔ ∃ p₁ p₂, Common o t₁ t₂ p₁ p₂) ∧
      (findCommonPkey o t₁ t₂ allowBoth ≠ 0 → ∃ p₂, Common o t₁ t₂ (findCommonPkey o t₁ t₂ allowBoth) p₂) ∧
      (findCommonPkey o t₁ t₂ allowBoth ≠ 0 ↔ findCommonPkey o t₂ t₁ allowBoth ≠ 0) := by
  refine ⟨(findCommonPkey_iff h₁ h₂).1, fun hne => ?_, ?_⟩
  · rcases findCommonPkey_cases h₁ h₂ with ⟨p₂, hc, -⟩ | ⟨hz, -⟩
    · exact ⟨p₂, hc⟩
    · exact absurd hz hne
  · rw [(findCommonPkey_iff h₁ h₂).2, (findCommonPkey_iff h₂ h₁).2]
    exact ⟨fun ⟨p₁, p₂, hc⟩ => ⟨p₂, p₁, hc.symm⟩, fun ⟨p₁, p₂, hc⟩ => ⟨p₂, p₁, hc.symm⟩⟩

/-- A port with both forms of the default P_Key and one with the full form alone. -/
theorem findCommonPkey_naive_default : ∃ t₁ t₂, fill .little true [(0, limitedFirst)] = some t₁ ∧
    fill .little true [(0, fullOnly)] = some t₂ ∧
    (isInvalid .little (findCommonPkey .little t₁ t₂ true) = false ↔ ∃ p₁ p₂, Common .little t₁ t₂ p₁ p₂) ∧
    (findCommonPkey .little t₁ t₂ true ≠ 0 → ∃ p₂, Common .little t₁ t₂ (findCommonPkey .little t₁ t₂ true) p₂) ∧
    (findCommonPkey .little t₁ t₂ true ≠ 0 ↔ findCommonPkey .little t₂ t₁ true ≠ 0) :=
  ⟨_, _, rfl, rfl, @findCommonPkey_naive .little true _ _ [(0, limitedFirst)] [(0, fullOnly)] rfl rfl⟩

end OpenSM.Pkey
