import Mathlib

/-! Lists of closed intervals of numbers: what they cover, their coalesced form, and loops over them with a
counter of a fixed width. -/

namespace OpenSM.Lib.Intervals

variable {l : List (ℕ × ℕ)} {last : ℕ × ℕ} {n num i j k : ℕ}

section Union

def InUnion (l : List (ℕ × ℕ)) (n : ℕ) : Prop := ∃ r ∈ l, r.1 ≤ n ∧ n ≤ r.2

structure Separated (l : List (ℕ × ℕ)) : Prop where
  proper : ∀ r ∈ l, r.1 ≤ r.2
  gaps : l.Pairwise fun r s => r.2 + 1 < s.1

def coalesce (last : ℕ × ℕ) : List (ℕ × ℕ) → List (ℕ × ℕ)
  | [] => [last]
  | r :: l => if r.1 ≤ last.2 + 1 then coalesce (last.1, max last.2 r.2) l else last :: coalesce r l

lemma inUnion_cons : InUnion (last :: l) n ↔ (last.1 ≤ n ∧ n ≤ last.2) ∨ InUnion l n := by
  rw [InUnion, List.exists_mem_cons_iff]
  rfl

lemma inUnion_append {l' : List (ℕ × ℕ)} : InUnion (l ++ l') n ↔ InUnion l n ∨ InUnion l' n := by
  simp only [InUnion, List.mem_append, or_and_right, exists_or]

lemma inUnion_perm {l' : List (ℕ × ℕ)} (h : l.Perm l') : InUnion l n ↔ InUnion l' n := by
  simp only [InUnion, h.mem_iff]

lemma separated_nil : Separated [] := ⟨fun _ h => absurd h List.not_mem_nil, List.Pairwise.nil⟩

lemma coalesce_ne_nil : coalesce last l ≠ [] := by
  induction l generalizing last with
  | nil => exact List.cons_ne_nil _ _
  | cons r l ih =>
    rw [coalesce]
    split_ifs
    · exact ih
    · exact List.cons_ne_nil _ _

lemma inUnion_coalesce (hproper : ∀ r ∈ l, r.1 ≤ r.2) (hsorted : (last :: l).Pairwise fun r s => r.1 ≤ s.1) :
    InUnion (coalesce last l) n ↔ InUnion (last :: l) n := by
  induction l generalizing last with
  | nil => rfl
  | cons r l ih =>
    have hr : r.1 ≤ r.2 := hproper r List.mem_cons_self
    have hproper' : ∀ s ∈ l, s.1 ≤ s.2 := fun s hs => hproper s (List.mem_cons_of_mem _ hs)
    obtain ⟨hlast, hrest⟩ := List.pairwise_cons.mp hsorted
    have hle : last.1 ≤ r.1 := hlast r List.mem_cons_self
    rw [coalesce]
    split_ifs with htouch
    · have hsorted' : ((last.1, max last.2 r.2) :: l).Pairwise fun r s => r.1 ≤ s.1 :=
        List.pairwise_cons.mpr ⟨fun s hs => hlast s (List.mem_cons_of_mem _ hs), (List.pairwise_cons.mp hrest).2⟩
      rw [ih hproper' hsorted', inUnion_cons, inUnion_cons, inUnion_cons, ← or_assoc]
      refine or_congr_left ?_
      dsimp only
      omega
    · rw [inUnion_cons, ih hproper' hrest]
      exact inUnion_cons.symm

lemma le_of_mem_coalesce (hsorted : (last :: l).Pairwise fun r s => r.1 ≤ s.1) :
    ∀ s ∈ coalesce last l, last.1 ≤ s.1 := by
  induction l generalizing last with
  | nil =>
    intro s hs
    rw [List.mem_singleton.mp hs]
  | cons r l ih =>
    obtain ⟨hlast, hrest⟩ := List.pairwise_cons.mp hsorted
    intro s hs
    rw [coalesce] at hs
    split_ifs at hs
    · have hsorted' : ((last.1, max last.2 r.2) :: l).Pairwise fun r s => r.1 ≤ s.1 :=
        List.pairwise_cons.mpr ⟨fun s hs => hlast s (List.mem_cons_of_mem _ hs), (List.pairwise_cons.mp hrest).2⟩
      exact ih hsorted' s hs
    · rcases List.mem_cons.mp hs with rfl | hs
      · exact le_rfl
      · exact (hlast r List.mem_cons_self).trans (ih hrest s hs)

lemma separated_coalesce (hproper : ∀ r ∈ last :: l, r.1 ≤ r.2)
    (hsorted : (last :: l).Pairwise fun r s => r.1 ≤ s.1) :
    Separated (coalesce last l) := by
  induction l generalizing last with
  | nil => exact ⟨hproper, List.pairwise_singleton _ _⟩
  | cons r l ih =>
    obtain ⟨hlast, hrest⟩ := List.pairwise_cons.mp hsorted
    obtain ⟨hplast, hprest⟩ := List.forall_mem_cons.mp hproper
    rw [coalesce]
    split_ifs with htouch
    · refine ih (List.forall_mem_cons.mpr ⟨?_, fun s hs => hprest s (List.mem_cons_of_mem _ hs)⟩)
        (List.pairwise_cons.mpr ⟨fun s hs => ?_, (List.pairwise_cons.mp hrest).2⟩)
      · exact hplast.trans (le_max_left _ _)
      · exact hlast s (List.mem_cons_of_mem _ hs)
    · obtain ⟨hp, hg⟩ := ih hprest hrest
      refine ⟨List.forall_mem_cons.mpr ⟨hplast, hp⟩, List.pairwise_cons.mpr ⟨fun s hs => ?_, hg⟩⟩
      have hge := le_of_mem_coalesce hrest s hs
      omega

lemma Separated.lt (h : Separated l) (hij : i < j) (hj : j < l.length) : l[i].2 + 1 < l[j].1 :=
  List.pairwise_iff_getElem.mp h.gaps i j (hij.trans hj) hj hij

end Union

section Counter

variable {σ ρ : Type} {w fuel : ℕ} {body : ℕ → σ → Except ρ σ} {s : σ} {e : Except ρ σ}

/-- `for (; i <= last; i++)` with a counter of `w` bits; `none` while it runs, `.error` where its body returns. -/
def countLoop (w : ℕ) (body : ℕ → σ → Except ρ σ) : ℕ → ℕ → ℕ → σ → Option (Except ρ σ)
  | 0, _, _, _ => none
  | fuel + 1, i, last, s =>
    if i ≤ last then
      match body i s with
      | .error r => some (.error r)
      | .ok s => countLoop w body fuel ((i + 1) % 2 ^ w) last s
    else some (.ok s)

def loopAll (w : ℕ) (body : ℕ → σ → Except ρ σ) (fuel : ℕ) : List (ℕ × ℕ) → σ → Option (Except ρ σ)
  | [], s => some (.ok s)
  | r :: l, s =>
    match countLoop w body fuel (r.1 % 2 ^ w) r.2 s with
    | none => none
    | some (.error e) => some (.error e)
    | some (.ok s) => loopAll w body fuel l s

lemma countLoop_mono (h : countLoop w body fuel i j s = some e) (k : ℕ) :
    countLoop w body (fuel + k) i j s = some e := by
  induction fuel generalizing i s with
  | zero => cases h
  | succ fuel ih =>
    rw [Nat.add_right_comm, countLoop]
    rw [countLoop] at h
    split_ifs at h ⊢ with hle
    · cases hb : body i s with
      | error r =>
        rw [hb] at h
        exact h
      | ok s' =>
        rw [hb] at h
        exact ih h
    · exact h

lemma countLoop_ends (hlast : j + 1 < 2 ^ w) : ∃ fuel e, countLoop w body fuel i j s = some e := by
  induction hd : j + 1 - i generalizing i s with
  | zero => exact ⟨1, .ok s, if_neg (by omega)⟩
  | succ d ih =>
    have hle : i ≤ j := by omega
    have hmod : (i + 1) % 2 ^ w = i + 1 := Nat.mod_eq_of_lt (by omega)
    cases hb : body i s with
    | error r => exact ⟨1, .error r, by rw [countLoop, if_pos hle, hb]⟩
    | ok s' =>
      obtain ⟨fuel, e, he⟩ := @ih (i + 1) s' (by omega)
      refine ⟨fuel + 1, e, ?_⟩
      rw [countLoop, if_pos hle, hb]
      dsimp only
      rw [hmod, he]

lemma countLoop_never (hbody : ∀ i s, ∃ s', body i s = .ok s') (hlast : 2 ^ w ≤ j + 1) (hi : i < 2 ^ w) :
    countLoop w body fuel i j s = none := by
  induction fuel generalizing i s with
  | zero => rfl
  | succ fuel ih =>
    obtain ⟨s', hs'⟩ := hbody i s
    rw [countLoop, if_pos (by omega), hs']
    exact ih (Nat.mod_lt _ (Nat.two_pow_pos w))

lemma countLoop_ok (hbody : ∀ i s, ∃ s', body i s = .ok s') (h : countLoop w body fuel i j s = some e) :
    ∃ s', e = .ok s' := by
  induction fuel generalizing i s with
  | zero => cases h
  | succ fuel ih =>
    rw [countLoop] at h
    split_ifs at h
    · obtain ⟨s', hs'⟩ := hbody i s
      rw [hs'] at h
      exact ih h
    · exact ⟨s, (Option.some.inj h).symm⟩

lemma loopAll_mono (h : loopAll w body fuel l s = some e) (k : ℕ) : loopAll w body (fuel + k) l s = some e := by
  induction l generalizing s with
  | nil => exact h
  | cons r l ih =>
    rw [loopAll] at h ⊢
    cases hc : countLoop w body fuel (r.1 % 2 ^ w) r.2 s with
    | none =>
      rw [hc] at h
      cases h
    | some e' =>
      rw [hc] at h
      rw [countLoop_mono hc k]
      cases e' with
      | error r => exact h
      | ok s' => exact ih h

lemma loopAll_ends (h : ∀ r ∈ l, r.2 + 1 < 2 ^ w) : ∃ fuel e, loopAll w body fuel l s = some e := by
  induction l generalizing s with
  | nil => exact ⟨0, .ok s, rfl⟩
  | cons r l ih =>
    obtain ⟨hr, hl⟩ := List.forall_mem_cons.mp h
    obtain ⟨fuel, e, he⟩ := @countLoop_ends (r.1 % 2 ^ w) r.2 σ ρ w body s hr
    cases e with
    | error x => exact ⟨fuel, .error x, by rw [loopAll, he]⟩
    | ok s' =>
      obtain ⟨fuel', e', he'⟩ := @ih s' hl
      refine ⟨fuel + fuel', e', ?_⟩
      rw [loopAll, countLoop_mono he fuel']
      dsimp only
      rw [Nat.add_comm]
      exact loopAll_mono he' fuel

lemma loopAll_never (hbody : ∀ i s, ∃ s', body i s = .ok s') {r : ℕ × ℕ} (hr : r ∈ l) (hlast : 2 ^ w ≤ r.2 + 1) :
    loopAll w body fuel l s = none := by
  induction l generalizing s with
  | nil => cases hr
  | cons r' l ih =>
    rw [loopAll]
    rcases List.mem_cons.mp hr with rfl | hr
    · rw [countLoop_never hbody hlast (Nat.mod_lt _ (Nat.two_pow_pos w))]
    · cases hc : countLoop w body fuel (r'.1 % 2 ^ w) r'.2 s with
      | none => rfl
      | some e =>
        obtain ⟨s', rfl⟩ := countLoop_ok hbody hc
        exact ih hr

end Counter

end OpenSM.Lib.Intervals
