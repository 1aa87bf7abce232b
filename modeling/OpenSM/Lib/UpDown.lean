import OpenSM.Lib.Paths

/-! Paths in a ranked graph that never go to a higher rank again once they have gone to a lower one.
Ranks of neighbours differ by at most one. Distances are counted towards a fixed vertex `d`. -/

namespace OpenSM.Lib.UpDown

open Paths

section NeverUpAgain

variable {V R R' : Type*} [Preorder R] [Preorder R']

def NeverUpAgain (rk : V → R) (l : List V) : Prop :=
  ∀ i j, ∀ _ : i < j, ∀ _ : j + 1 < l.length, rk l[i + 1] < rk l[i] → ¬ rk l[j] < rk l[j + 1]

def NeverUp (rk : V → R) (l : List V) : Prop :=
  ∀ j, ∀ _ : j + 1 < l.length, ¬ rk l[j] < rk l[j + 1]

variable {rk : V → R} {rk' : V → R'} {a b : V} {l : List V}

lemma neverUpAgain_congr (h : ∀ v w, rk v < rk w ↔ rk' v < rk' w) :
    NeverUpAgain rk l ↔ NeverUpAgain rk' l := by
  simp only [NeverUpAgain, h]

lemma neverUp_singleton : NeverUp rk [a] := by
  intro j hj
  simp at hj

lemma neverUpAgain_singleton : NeverUpAgain rk [a] := by
  intro i j _ hj
  simp at hj

lemma neverUp_cons : NeverUp rk (a :: b :: l) ↔ ¬ rk a < rk b ∧ NeverUp rk (b :: l) := by
  constructor
  · intro h
    refine ⟨h 0 (by simp), fun j hj => ?_⟩
    exact h (j + 1) (by simpa using hj)
  · rintro ⟨ha, h⟩ j hj
    cases j with
    | zero => exact ha
    | succ j => exact h j (by simpa using hj)

lemma neverUpAgain_cons :
    NeverUpAgain rk (a :: b :: l) ↔ (rk b < rk a → NeverUp rk (b :: l)) ∧ NeverUpAgain rk (b :: l) := by
  constructor
  · intro h
    refine ⟨fun ha j hj => ?_, fun i j hij hj => ?_⟩
    · exact h 0 (j + 1) (by omega) (by simpa using hj) ha
    · exact h (i + 1) (j + 1) (by omega) (by simpa using hj)
  · rintro ⟨ha, h⟩ i j hij hj
    obtain ⟨j, rfl⟩ : ∃ j', j = j' + 1 := ⟨j - 1, by omega⟩
    cases i with
    | zero => exact fun hd => ha hd j (by simpa using hj)
    | succ i => exact h i j (by omega) (by simpa using hj)

end NeverUpAgain

variable {V : Type*}

structure Ranked (Adj : V → V → Prop) (rk : V → ℕ) : Prop where
  symm : ∀ v w, Adj v w → Adj w v
  near : ∀ v w, Adj v w → rk w ≤ rk v + 1

def TopTies {R : Type*} [LT R] (Adj : V → V → Prop) (rk : V → R) : Prop :=
  ∀ v w x, Adj v w → rk v = rk w → Adj v x → ¬ rk v < rk x

variable (Adj : V → V → Prop) (rk : V → ℕ) (d : V)

def Free : V → Prop := Relation.ReflTransGen (fun v w => Adj v w ∧ rk v ≤ rk w) d

def Step (v w : V) : Prop := Adj v w ∧ (Free Adj rk d v ∨ rk w < rk v)

def Back (w v : V) (x : ℕ) : Prop := Step Adj rk d v w ∧ x = 1

noncomputable def hop (v : V) : ℕ∞ := Paths.dist (Back Adj rk d) (Back Adj rk d) v d

variable {Adj rk d} {v w x : V}

lemma Free.refl : Free Adj rk d d := Relation.ReflTransGen.refl

lemma Free.tail (h : Free Adj rk d v) (hvw : Adj v w) (hr : rk v ≤ rk w) : Free Adj rk d w :=
  Relation.ReflTransGen.tail h ⟨hvw, hr⟩

@[simp] lemma hop_self : hop Adj rk d d = 0 := dist_self d

lemma hop_step (h : Step Adj rk d v w) : hop Adj rk d w ≤ hop Adj rk d v + 1 := by
  have hback : Back Adj rk d w v 1 := ⟨h, rfl⟩
  have hle : hop Adj rk d w ≤ (1 : ℕ) + hop Adj rk d v := dist_cons hback
  rw [add_comm]
  exact_mod_cast hle

lemma hop_pred {k : ℕ} (hne : v ≠ d) (h : hop Adj rk d v = k) :
    ∃ w, ∃ m : ℕ, Step Adj rk d w v ∧ hop Adj rk d w = m ∧ k = m + 1 := by
  rcases first_edge hne h with ⟨hs, rfl⟩ | ⟨w, x, m, ⟨hs, rfl⟩, hm, rfl⟩
  · exact ⟨d, 0, hs, hop_self, rfl⟩
  · exact ⟨w, m, hs, hm, add_comm _ _⟩

lemma one_le_hop (hne : v ≠ d) : 1 ≤ hop Adj rk d v := by
  by_cases ht : hop Adj rk d v = ⊤
  · simp [ht]
  · obtain ⟨k, hk⟩ := ENat.ne_top_iff_exists.mp ht
    obtain ⟨w, m, -, -, rfl⟩ := hop_pred hne hk.symm
    rw [← hk]
    exact_mod_cast Nat.le_add_left 1 m

lemma two_le_hop (hne : v ≠ d) (hadj : ¬ Adj d v) : 2 ≤ hop Adj rk d v := by
  by_cases ht : hop Adj rk d v = ⊤
  · simp [ht]
  · obtain ⟨k, hk⟩ := ENat.ne_top_iff_exists.mp ht
    obtain ⟨w, m, hs, hm, rfl⟩ := hop_pred hne hk.symm
    have hw : w ≠ d := by
      rintro rfl
      exact hadj hs.1
    have hle : 1 ≤ hop Adj rk d w := one_le_hop hw
    rw [hm] at hle
    rw [← hk]
    exact_mod_cast Nat.add_le_add_right (show 1 ≤ m by exact_mod_cast hle) 1

section Ranked

variable (hr : Ranked Adj rk) (ht : TopTies Adj rk)

include hr

lemma rk_le_hop (v : V) : (rk v : ℕ∞) ≤ rk d + hop Adj rk d v := by
  by_cases htop : hop Adj rk d v = ⊤
  · simp [htop]
  · obtain ⟨k, hk⟩ := ENat.ne_top_iff_exists.mp htop
    rw [← hk]
    suffices h : rk v ≤ rk d + k by exact_mod_cast h
    induction k generalizing v with
    | zero =>
      by_cases hv : v = d
      · rw [hv, add_zero]
      · obtain ⟨w, m, -, -, h0⟩ := hop_pred hv hk.symm
        omega
    | succ k ih =>
      by_cases hv : v = d
      · rw [hv]
        omega
      · obtain ⟨w, m, hs, hm, hkm⟩ := hop_pred hv hk.symm
        obtain rfl : k = m := by omega
        have hw := ih w (by simp [hm]) hm.symm
        have hn := hr.near w v hs.1
        omega

include ht

lemma free_cases (h : Free Adj rk d v) :
    (rk d ≤ rk v ∧ hop Adj rk d v ≤ (rk v - rk d : ℕ)) ∨ ∃ w, Adj v w ∧ rk v = rk w := by
  induction h with
  | refl => exact Or.inl ⟨le_rfl, by simp⟩
  | @tail u v hu huv ih =>
    obtain ⟨hadj, hle⟩ := huv
    rcases hle.eq_or_lt with heq | hlt
    · exact Or.inr ⟨u, hr.symm _ _ hadj, heq.symm⟩
    · rcases ih with ⟨hd, hk⟩ | ⟨w, hw, htie⟩
      · left
        have hn := hr.near u v hadj
        have hstep : hop Adj rk d v ≤ hop Adj rk d u + 1 := hop_step ⟨hadj, Or.inl hu⟩
        refine ⟨by omega, hstep.trans ?_⟩
        have hv : rk v - rk d = (rk u - rk d) + 1 := by omega
        rw [hv]
        push_cast
        gcongr
        exact_mod_cast hk
      · exact absurd hlt (ht u w v hw htie hadj)

lemma Free.hop_lt (h : Free Adj rk d v) (hadj : Adj w v) (hlt : rk v < rk w) :
    hop Adj rk d v + 1 ≤ hop Adj rk d w := by
  rcases free_cases hr ht h with ⟨hd, hk⟩ | ⟨x, hx, htie⟩
  · by_cases htop : hop Adj rk d w = ⊤
    · simp [htop]
    · obtain ⟨m, hm⟩ := ENat.ne_top_iff_exists.mp htop
      have hle := rk_le_hop (d := d) hr w
      rw [← hm] at hle ⊢
      have hle' : rk w ≤ rk d + m := by exact_mod_cast hle
      refine (add_le_add_left hk 1).trans ?_
      exact_mod_cast (show rk v - rk d + 1 ≤ m by omega)
  · exact absurd hlt (ht v x w hx htie (hr.symm _ _ hadj))

omit ht in
lemma free_of_neverUp {l : List V} (hc : (v :: l).IsChain Adj) (hd : (v :: l).getLast (by simp) = d)
    (hn : NeverUp rk (v :: l)) : Free Adj rk d v := by
  induction l generalizing v with
  | nil =>
    obtain rfl : v = d := by simpa using hd
    exact Free.refl
  | cons w l ih =>
    rw [List.isChain_cons_cons] at hc
    rw [neverUp_cons] at hn
    have hw := ih hc.2 (by simpa using hd) hn.2
    exact hw.tail (hr.symm _ _ hc.1) (not_lt.mp hn.1)

lemma neverUp_of_tie {l : List V} (hv : Adj v w) (htie : rk v = rk w) (hc : (v :: l).IsChain Adj)
    (hn : NeverUpAgain rk (v :: l)) : NeverUp rk (v :: l) := by
  induction l generalizing v w with
  | nil => exact neverUp_singleton
  | cons x l ih =>
    rw [List.isChain_cons_cons] at hc
    rw [neverUpAgain_cons] at hn
    have hup := ht v w x hv htie hc.1
    rw [neverUp_cons]
    refine ⟨hup, ?_⟩
    rcases (not_lt.mp hup).lt_or_eq with hlt | heq
    · exact hn.1 hlt
    · exact ih (hr.symm _ _ hc.1) heq hc.2 hn.2

lemma hop_le_length {l : List V} (hc : (v :: l).IsChain Adj) (hd : (v :: l).getLast (by simp) = d)
    (hn : NeverUpAgain rk (v :: l)) : hop Adj rk d v ≤ l.length := by
  induction l generalizing v with
  | nil =>
    obtain rfl : v = d := by simpa using hd
    simp
  | cons w l ih =>
    rw [List.isChain_cons_cons] at hc
    rw [neverUpAgain_cons] at hn
    have hd' : (w :: l).getLast (by simp) = d := by simpa using hd
    have hw := ih hc.2 hd' hn.2
    have hback := hr.symm _ _ hc.1
    have hs : Step Adj rk d w v := by
      refine ⟨hback, ?_⟩
      rcases lt_trichotomy (rk v) (rk w) with hlt | heq | hgt
      · exact Or.inr hlt
      · exact Or.inl (free_of_neverUp hr hc.2 hd' (neverUp_of_tie hr ht hback heq.symm hc.2 hn.2))
      · exact Or.inl (free_of_neverUp hr hc.2 hd' (hn.1 hgt))
    refine (hop_step hs).trans ?_
    exact_mod_cast add_le_add_left hw 1

end Ranked

def Next (Adj : V → V → Prop) (rk : V → ℕ) (d v w : V) : Prop :=
  Step Adj rk d w v ∧ hop Adj rk d w < hop Adj rk d v

lemma exists_next_chain {k : ℕ} (h : hop Adj rk d v = k) :
    ∃ l, (v :: l).IsChain (Next Adj rk d) ∧ (v :: l).getLast (by simp) = d ∧ l.length = k := by
  induction k generalizing v with
  | zero =>
    by_cases hv : v = d
    · exact ⟨[], List.isChain_singleton v, hv, rfl⟩
    · obtain ⟨w, m, -, -, hm⟩ := hop_pred hv h
      omega
  | succ k ih =>
    have hv : v ≠ d := by
      rintro rfl
      rw [hop_self] at h
      exact absurd h.symm (by exact_mod_cast Nat.succ_ne_zero k)
    obtain ⟨w, m, hs, hm, hkm⟩ := hop_pred hv h
    obtain rfl : k = m := by omega
    obtain ⟨l, hc, hd, hl⟩ := ih hm
    refine ⟨w :: l, List.isChain_cons_cons.mpr ⟨⟨hs, ?_⟩, hc⟩, by simpa using hd, by simp [hl]⟩
    rw [hm, h]
    exact_mod_cast Nat.lt_succ_self k

section Next

variable (hr : Ranked Adj rk) (ht : TopTies Adj rk)

lemma Next.adj (hr : Ranked Adj rk) (h : Next Adj rk d v w) : Adj v w := hr.symm _ _ h.1.1

lemma Next.free_of_le (h : Next Adj rk d v w) (hle : rk w ≤ rk v) : Free Adj rk d w :=
  h.1.2.resolve_right (not_lt.mpr hle)

include hr ht

lemma Next.of_free (h : Next Adj rk d v w) (hv : Free Adj rk d v) : rk w ≤ rk v := by
  by_contra hlt
  have hle := hv.hop_lt hr ht h.1.1 (not_le.mp hlt)
  exact absurd (h.2.trans_le (le_self_add.trans hle)) (lt_irrefl _)

lemma neverUp_of_free {l : List V} (hv : Free Adj rk d v) (hc : (v :: l).IsChain (Next Adj rk d)) :
    NeverUp rk (v :: l) := by
  induction l generalizing v with
  | nil => exact neverUp_singleton
  | cons w l ih =>
    rw [List.isChain_cons_cons] at hc
    have hle := hc.1.of_free hr ht hv
    rw [neverUp_cons]
    exact ⟨not_lt.mpr hle, ih (hc.1.free_of_le hle) hc.2⟩

lemma neverUpAgain_of_next {l : List V} (hc : (v :: l).IsChain (Next Adj rk d)) :
    NeverUpAgain rk (v :: l) := by
  induction l generalizing v with
  | nil => exact neverUpAgain_singleton
  | cons w l ih =>
    rw [List.isChain_cons_cons] at hc
    rw [neverUpAgain_cons]
    exact ⟨fun hlt => neverUp_of_free hr ht (hc.1.free_of_le hlt.le) hc.2, ih hc.2⟩

end Next

section Ties

/-- Two links between vertices of one rank that a shortest path can take one after the other. -/
def Turn {R : Type*} (Adj : V → V → Prop) (rk : V → R) (a b : V × V) : Prop :=
  a.2 = b.1 ∧ Adj a.1 a.2 ∧ Adj b.1 b.2 ∧ rk a.1 = rk a.2 ∧ rk b.1 = rk b.2 ∧ a.1 ≠ b.2 ∧ ¬ Adj a.1 b.2

variable (hr : Ranked Adj rk)

include hr

lemma Next.turn (hv : Next Adj rk d v w) (hw : Next Adj rk d w x) (hvw : rk v = rk w) (hwx : rk w = rk x) :
    Turn Adj rk (v, w) (w, x) := by
  have hlt := hw.2.trans hv.2
  refine ⟨rfl, hv.adj hr, hw.adj hr, hvw, hwx, ?_, ?_⟩
  · rintro rfl
    exact lt_irrefl _ hlt
  · intro hadj
    have hs : Step Adj rk d x v := ⟨hr.symm _ _ hadj, Or.inl (hw.free_of_le hwx.ge)⟩
    have hle := hop_step hs
    have hxw : hop Adj rk d x + 1 ≤ hop Adj rk d w := Order.add_one_le_of_lt hw.2
    exact absurd (hv.2.trans_le (hle.trans hxw)) (lt_irrefl _)

lemma Turn.next (h : Turn Adj rk (v, w) (w, x)) : Next Adj rk x v w ∧ Next Adj rk x w x := by
  obtain ⟨-, hvw, hwx, htv, htw, hne, hno⟩ := h
  dsimp only at hvw hwx htv htw hne hno
  have hxw : Step Adj rk x x w := ⟨hr.symm _ _ hwx, Or.inl Free.refl⟩
  have hwv : Step Adj rk x w v := ⟨hr.symm _ _ hvw, Or.inl (Free.refl.tail hxw.1 htw.ge)⟩
  have hw : hop Adj rk x w ≤ 1 := by simpa using hop_step hxw
  have hv : 2 ≤ hop Adj rk x v := two_le_hop hne fun h => hno (hr.symm _ _ h)
  have hwne : w ≠ x := by
    rintro rfl
    exact hno hvw
  refine ⟨⟨hwv, (hw.trans_lt (by decide)).trans_le hv⟩, hxw, ?_⟩
  rw [hop_self]
  exact zero_lt_one.trans_le (one_le_hop hwne)

end Ties

section Capped

variable (Adj rk d) (cap : ℕ)

noncomputable def capped (v : V) : ℕ := (min (cap : ℕ∞) (hop Adj rk d v)).toNat

variable {Adj rk d} {cap}

lemma coe_capped (v : V) : (capped Adj rk d cap v : ℕ∞) = min (cap : ℕ∞) (hop Adj rk d v) :=
  ENat.natCast_toNat (ne_top_of_le_ne_top (ENat.natCast_ne_top cap) (min_le_left _ _))

lemma capped_le (v : V) : capped Adj rk d cap v ≤ cap := by
  have h : (capped Adj rk d cap v : ℕ∞) ≤ cap := (coe_capped v).le.trans (min_le_left _ _)
  exact_mod_cast h

lemma hop_eq_capped (h : capped Adj rk d cap v < cap) : hop Adj rk d v = capped Adj rk d cap v := by
  have hc : (capped Adj rk d cap v : ℕ∞) = min (cap : ℕ∞) (hop Adj rk d v) := coe_capped v
  have hlt : min (cap : ℕ∞) (hop Adj rk d v) < cap := by
    rw [← hc]
    exact_mod_cast h
  rw [hc, min_eq_right (inf_lt_left.mp hlt |> not_le.mp).le]

@[simp] lemma capped_self : capped Adj rk d cap d = 0 := by
  simp [capped]

lemma capped_mono (h : hop Adj rk d v ≤ hop Adj rk d w) :
    capped Adj rk d cap v ≤ capped Adj rk d cap w := by
  have hle : (capped Adj rk d cap v : ℕ∞) ≤ capped Adj rk d cap w := by
    rw [coe_capped, coe_capped]
    exact min_le_min le_rfl h
  exact_mod_cast hle

lemma capped_step (h : Step Adj rk d v w) : capped Adj rk d cap w ≤ capped Adj rk d cap v + 1 := by
  have hle : (capped Adj rk d cap w : ℕ∞) ≤ capped Adj rk d cap v + 1 := by
    rw [coe_capped, coe_capped, min_def (cap : ℕ∞) (hop Adj rk d v)]
    split_ifs
    · exact (min_le_left _ _).trans le_self_add
    · exact (min_le_right _ _).trans (hop_step h)
  exact_mod_cast hle

lemma capped_pred (hne : v ≠ d) (h : capped Adj rk d cap v < cap) :
    ∃ w, Step Adj rk d w v ∧ capped Adj rk d cap v = capped Adj rk d cap w + 1 := by
  obtain ⟨w, m, hs, hm, hk⟩ := hop_pred hne (hop_eq_capped h)
  have hle : capped Adj rk d cap w ≤ m := by
    have hle : (capped Adj rk d cap w : ℕ∞) ≤ m := by
      rw [coe_capped, hm]
      exact min_le_right _ _
    exact_mod_cast hle
  have hstep : capped Adj rk d cap v ≤ capped Adj rk d cap w + 1 := capped_step hs
  exact ⟨w, hs, by omega⟩

lemma capped_lt_iff : capped Adj rk d cap v < cap ↔ hop Adj rk d v < cap := by
  have h : (capped Adj rk d cap v : ℕ∞) < cap ↔ hop Adj rk d v < cap := by
    rw [coe_capped, inf_lt_left, not_le]
  exact_mod_cast h

lemma le_capped {P : V → Prop} {level : V → ℕ} {c : ℕ} (hd : P d) (hc : c ≤ cap)
    (hclosed : ∀ v w, P v → Step Adj rk d v w → level w ≤ capped Adj rk d cap v + 1)
    (hout : ∀ v, ¬ P v → c ≤ level v) {v : V} (hv : ¬ P v) : c ≤ capped Adj rk d cap v := by
  induction hk : capped Adj rk d cap v using Nat.strong_induction_on generalizing v with
  | _ k ih =>
    by_contra hlt
    have hne : v ≠ d := fun h => hv (h ▸ hd)
    have hcap : capped Adj rk d cap v < cap := by omega
    obtain ⟨w, hs, hw⟩ := capped_pred hne hcap
    by_cases hpw : P w
    · have h₁ := hclosed w v hpw hs
      have h₂ := hout v hv
      omega
    · have h := ih (capped Adj rk d cap w) (by omega) hpw rfl
      omega

end Capped

end OpenSM.Lib.UpDown
