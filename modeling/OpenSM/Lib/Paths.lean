import Mathlib

/-! Weighted paths whose last edge may be taken from a wider relation than the others, and the
distance they define. Relaxation algorithms that seed their tables with unchecked one-edge
entries compute exactly this distance. -/

namespace OpenSM.Lib.Paths

variable {V : Type*} (Inner Last : V → V → ℕ → Prop)

inductive Path : ℕ → ℕ → V → V → Prop
  | nil (v) : Path 0 0 v v
  | last {u v w} : Last u v w → Path 1 w u v
  | cons {k x u v d w} : Inner u v w → Path k x v d → Path (k + 1) (w + x) u d

noncomputable def dist (u d : V) : ℕ∞ :=
  ⨅ (x : ℕ) (_ : ∃ k, Path Inner Last k x u d), (x : ℕ∞)

variable {Inner Last}

lemma dist_le {k x : ℕ} {u d : V} (h : Path Inner Last k x u d) : dist Inner Last u d ≤ x :=
  iInf₂_le x ⟨k, h⟩

lemma le_dist {b : ℕ∞} {u d : V} (h : ∀ k x, Path Inner Last k x u d → b ≤ x) :
    b ≤ dist Inner Last u d := by
  refine le_iInf₂ ?_
  rintro x ⟨k, hp⟩
  exact h k x hp

lemma exists_path {x : ℕ} {u d : V} (h : dist Inner Last u d = x) :
    ∃ k, Path Inner Last k x u d := by
  classical
  have hex : ∃ y, ∃ k, Path Inner Last k y u d := by
    by_contra hn
    push Not at hn
    have htop : (⊤ : ℕ∞) ≤ dist Inner Last u d := le_dist fun k y hp => (hn y k hp).elim
    rw [h] at htop
    exact ENat.natCast_ne_top x (top_le_iff.mp htop)
  have hmin : dist Inner Last u d = (Nat.find hex : ℕ) := by
    obtain ⟨k, hk⟩ := Nat.find_spec hex
    refine le_antisymm (dist_le hk) (le_dist fun k y hp => ?_)
    exact_mod_cast Nat.find_min' hex ⟨k, hp⟩
  have hx : x = Nat.find hex := by exact_mod_cast h.symm.trans hmin
  rw [hx]
  exact Nat.find_spec hex

@[simp] lemma dist_self (d : V) : dist Inner Last d d = 0 := by
  have h : Path Inner Last 0 0 d d := Path.nil d
  simpa using dist_le h

lemma dist_last {u d : V} {w : ℕ} (h : Last u d w) : dist Inner Last u d ≤ w :=
  dist_le (Path.last h)

lemma dist_cons {u v d : V} {w : ℕ} (h : Inner u v w) :
    dist Inner Last u d ≤ w + dist Inner Last v d := by
  by_cases ht : dist Inner Last v d = ⊤
  · simp [ht]
  · obtain ⟨x, hx⟩ := ENat.ne_top_iff_exists.mp ht
    obtain ⟨k, hk⟩ := exists_path hx.symm
    rw [← hx]
    exact_mod_cast dist_le (Path.cons h hk)

lemma Path.append {Link : V → V → ℕ → Prop} {k l x y : ℕ} {u v d : V} (h : Path Link Link k x u v)
    (h' : Path Link Link l y v d) : Path Link Link (k + l) (x + y) u d := by
  induction h with
  | nil => simpa using h'
  | last he =>
    rw [Nat.add_comm 1 l]
    exact .cons he h'
  | @cons k x u v _ w he _ ih =>
    rw [Nat.add_right_comm k 1 l, add_assoc w x y]
    exact .cons he (ih h')

lemma dist_triangle {Link : V → V → ℕ → Prop} (u v d : V) :
    dist Link Link u d ≤ dist Link Link u v + dist Link Link v d := by
  by_cases hu : dist Link Link u v = ⊤
  · simp [hu]
  by_cases hv : dist Link Link v d = ⊤
  · simp [hv]
  obtain ⟨x, hx⟩ := ENat.ne_top_iff_exists.mp hu
  obtain ⟨y, hy⟩ := ENat.ne_top_iff_exists.mp hv
  obtain ⟨k, hk⟩ := exists_path hx.symm
  obtain ⟨l, hl⟩ := exists_path hy.symm
  have hj := hk.append hl
  rw [← hx, ← hy]
  exact_mod_cast dist_le hj

lemma first_edge {u d : V} {x : ℕ} (hne : u ≠ d) (h : dist Inner Last u d = x) :
    Last u d x ∨ ∃ v w y, Inner u v w ∧ dist Inner Last v d = (y : ℕ) ∧ x = w + y := by
  obtain ⟨k, hk⟩ := exists_path h
  cases hk with
  | nil => exact (hne rfl).elim
  | last he => exact Or.inl he
  | @cons k y _ v _ w he hp =>
    refine Or.inr ⟨v, w, y, he, ?_, rfl⟩
    refine le_antisymm (dist_le hp) ?_
    have hle : dist Inner Last u d ≤ w + dist Inner Last v d := dist_cons he
    rw [h] at hle
    push_cast at hle
    exact (ENat.add_le_add_iff_left (ENat.natCast_ne_top w)).mp hle

/-- Shortest paths visit no vertex twice, so they are shorter than the vertex set is large. -/
lemma short_path [Fintype V] (hpos : ∀ u v w, Inner u v w → 0 < w) {u d : V} {x : ℕ}
    (h : dist Inner Last u d = x) : ∃ k, k < Fintype.card V ∧ Path Inner Last k x u d := by
  classical
  suffices hs : ∀ x u, dist Inner Last u d = (x : ℕ) → ∃ k, ∃ l : List V, Path Inner Last k x u d ∧
      l.Nodup ∧ l.length = k + 1 ∧ ∀ v ∈ l, dist Inner Last v d ≤ x by
    obtain ⟨k, l, hp, hn, hl, _⟩ := hs x u h
    exact ⟨k, by have := hn.length_le_card; omega, hp⟩
  intro x
  induction x using Nat.strong_induction_on with
  | _ x ih =>
    intro u h
    by_cases hud : u = d
    · subst hud
      have hx : x = 0 := by simpa using h.symm
      subst hx
      exact ⟨0, [u], .nil u, by simp, rfl, by simp⟩
    · rcases first_edge hud h with he | ⟨v, w, y, he, hy, rfl⟩
      · exact ⟨1, [u, d], .last he, by simpa using hud, rfl, by simp [h]⟩
      · have hw := hpos u v w he
        obtain ⟨k, l, hp, hn, hl, hle⟩ := ih y (by omega) v hy
        refine ⟨k + 1, u :: l, .cons he hp, List.nodup_cons.mpr ⟨?_, hn⟩, by simp [hl], ?_⟩
        · intro hu
          have hle' := hle u hu
          rw [h] at hle'
          have : w + y ≤ y := by exact_mod_cast hle'
          omega
        · intro z hz
          rcases List.mem_cons.mp hz with rfl | hz
          · exact h.le
          · refine (hle z hz).trans ?_
            exact_mod_cast Nat.le_add_left y w

end OpenSM.Lib.Paths
