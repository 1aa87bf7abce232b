import OpenSM.Lib.Paths

/-! In-place relaxation of a table of saturated path weights. Every edge keeps an estimate of its
own for each destination and every vertex caches the least of them. Edges outside `prop` are only
seeded; the others are relaxed in some order, over and over, against the current table. -/

namespace OpenSM.Lib.Relaxation

open Paths

structure Graph (V E : Type*) where
  src : E → V
  dst : E → V
  wt : E → ℕ
  prop : E → Prop
  wt_pos : ∀ e, 0 < wt e

variable {V E : Type*} (G : Graph V E) (cap : ℕ)

def Graph.Last (u v : V) (w : ℕ) : Prop := ∃ e, G.src e = u ∧ G.dst e = v ∧ G.wt e = w
def Graph.Inner (u v : V) (w : ℕ) : Prop := ∃ e, G.prop e ∧ G.src e = u ∧ G.dst e = v ∧ G.wt e = w

noncomputable def Graph.dist (u d : V) : ℕ∞ := Paths.dist G.Inner G.Last u d

open scoped Classical in
noncomputable def Graph.offer (e : E) (d : V) : ℕ∞ :=
  if G.prop e then G.wt e + G.dist (G.dst e) d else if G.dst e = d then G.wt e else ⊤

@[ext] structure Table (V E : Type*) where
  edge : E → V → ℕ
  node : V → V → ℕ

def relax [DecidableEq V] [DecidableEq E] (t : Table V E) (i : E × V) : Table V E :=
  let x := t.node (G.dst i.1) i.2 + G.wt i.1
  if t.node (G.dst i.1) i.2 < cap ∧ x < t.edge i.1 i.2 then
    { edge := fun e d => if e = i.1 ∧ d = i.2 then x else t.edge e d
      node := fun v d => if v = G.src i.1 ∧ d = i.2 then min (t.node v d) x else t.node v d }
  else t

def sweep [DecidableEq V] [DecidableEq E] (order : List (E × V)) (t : Table V E) : Table V E :=
  order.foldl (relax G cap) t

def Le (t t' : Table V E) : Prop :=
  (∀ e d, t.edge e d ≤ t'.edge e d) ∧ ∀ v d, t.node v d ≤ t'.node v d

/-- Every finite entry is the weight of a real path, and the cache is the row minimum. -/
structure Sound (t : Table V E) : Prop where
  edge_le : ∀ e d, t.edge e d ≤ cap
  node_le : ∀ v d, t.node v d ≤ cap
  edge_path : ∀ e d, t.edge e d < cap → G.offer e d ≤ t.edge e d
  node_path : ∀ v d, t.node v d < cap → G.dist v d ≤ t.node v d
  node_self : ∀ d, t.node d d = 0
  node_le_edge : ∀ e d, t.node (G.src e) d ≤ t.edge e d
  attained : ∀ v d, v ≠ d → t.node v d < cap → ∃ e, G.src e = v ∧ t.edge e d = t.node v d
  seeded : ∀ e, t.edge e (G.dst e) ≤ G.wt e

variable {G cap}

lemma Le.refl (t : Table V E) : Le t t := ⟨fun _ _ => le_rfl, fun _ _ => le_rfl⟩

lemma Le.trans {a b c : Table V E} (h : Le a b) (h' : Le b c) : Le a c :=
  ⟨fun e d => (h.1 e d).trans (h'.1 e d), fun v d => (h.2 v d).trans (h'.2 v d)⟩

lemma offer_le_dist (e : E) (d : V) : G.dist (G.src e) d ≤ G.offer e d := by
  unfold Graph.offer
  split_ifs with hp hd
  · exact dist_cons ⟨e, hp, rfl, rfl, rfl⟩
  · exact dist_last ⟨e, rfl, hd, rfl⟩
  · exact le_top

/-- Vertices know all paths of at most `k + 1` edges and relaxed edges all of at most `k`. -/
def Known (G : Graph V E) (cap k : ℕ) (t : Table V E) : Prop :=
  (∀ j x v d, j ≤ k + 1 → Path G.Inner G.Last j x v d → x < cap → t.node v d ≤ x) ∧
  ∀ j x e d, j ≤ k → G.prop e → Path G.Inner G.Last j x (G.dst e) d → G.wt e + x < cap →
    t.edge e d ≤ G.wt e + x

lemma Sound.known_zero {t : Table V E} (h : Sound G cap t) : Known G cap 0 t := by
  constructor
  · intro j x v d hj hp _
    cases hp with
    | nil => exact (h.node_self v).le
    | last he =>
      obtain ⟨e, rfl, rfl, rfl⟩ := he
      exact (h.node_le_edge e _).trans (h.seeded e)
    | @cons k y _ u _ w he hp =>
      obtain rfl : k = 0 := by omega
      obtain ⟨e, -, rfl, rfl, rfl⟩ := he
      cases hp
      exact (h.node_le_edge e _).trans ((h.seeded e).trans (by omega))
  · intro j x e d hj _ hp _
    obtain rfl : j = 0 := by omega
    cases hp
    exact (h.seeded e).trans (by omega)

variable [DecidableEq V] [DecidableEq E]

lemma relax_pos {t : Table V E} {e₀ : E} {d₀ : V} (hc : t.node (G.dst e₀) d₀ < cap)
    (hx : t.node (G.dst e₀) d₀ + G.wt e₀ < t.edge e₀ d₀) :
    relax G cap t (e₀, d₀) =
      { edge := fun e d => if e = e₀ ∧ d = d₀ then t.node (G.dst e₀) d₀ + G.wt e₀ else t.edge e d
        node := fun v d => if v = G.src e₀ ∧ d = d₀ then
          min (t.node v d) (t.node (G.dst e₀) d₀ + G.wt e₀) else t.node v d } := by
  simp [relax, hc, hx]

lemma relax_neg {t : Table V E} {e : E} {d : V}
    (h : ¬ (t.node (G.dst e) d < cap ∧ t.node (G.dst e) d + G.wt e < t.edge e d)) :
    relax G cap t (e, d) = t := by
  simp only [relax, h, if_false]

lemma relax_le (t : Table V E) (i : E × V) : Le (relax G cap t i) t := by
  unfold relax
  dsimp only
  split_ifs with h
  · constructor
    · intro e d
      dsimp only
      split_ifs with he
      · obtain ⟨rfl, rfl⟩ := he
        exact h.2.le
      · exact le_rfl
    · intro v d
      dsimp only
      split_ifs
      · exact min_le_left _ _
      · exact le_rfl
  · exact Le.refl t

lemma sweep_le (order : List (E × V)) (t : Table V E) : Le (sweep G cap order t) t := by
  induction order generalizing t with
  | nil => exact Le.refl t
  | cons i order ih => exact (ih (relax G cap t i)).trans (relax_le t i)

lemma Sound.relax {t : Table V E} (h : Sound G cap t) (i : E × V) (hi : G.prop i.1) :
    Sound G cap (relax G cap t i) := by
  obtain ⟨e₀, d₀⟩ := i
  dsimp only at hi
  by_cases hc : t.node (G.dst e₀) d₀ < cap ∧ t.node (G.dst e₀) d₀ + G.wt e₀ < t.edge e₀ d₀
  swap
  · rw [relax_neg hc]
    exact h
  rw [relax_pos hc.1 hc.2]
  set x := t.node (G.dst e₀) d₀ + G.wt e₀ with hx
  have hcap := h.edge_le e₀ d₀
  have hoffer : G.offer e₀ d₀ ≤ x := by
    have hd := h.node_path (G.dst e₀) d₀ hc.1
    rw [Graph.offer, if_pos hi, hx, add_comm]
    push_cast
    gcongr
  constructor
  · intro e d
    dsimp only
    split_ifs
    · omega
    · exact h.edge_le e d
  · intro v d
    dsimp only
    split_ifs
    · exact (min_le_left _ _).trans (h.node_le v d)
    · exact h.node_le v d
  · intro e d
    dsimp only
    split_ifs with hed
    · obtain ⟨rfl, rfl⟩ := hed
      intro _
      exact hoffer
    · exact h.edge_path e d
  · intro v d
    dsimp only
    split_ifs with hvd
    · obtain ⟨rfl, rfl⟩ := hvd
      intro hlt
      rcases min_choice (t.node (G.src e₀) d) x with hm | hm
      · rw [hm] at hlt ⊢
        exact h.node_path _ _ hlt
      · rw [hm]
        exact (offer_le_dist e₀ d).trans hoffer
    · exact h.node_path v d
  · intro d
    dsimp only
    split_ifs
    · simp [h.node_self]
    · exact h.node_self d
  · intro e d
    dsimp only
    have hle := h.node_le_edge e d
    split_ifs with h₁ h₂ h₂
    · exact min_le_right _ _
    · exact (min_le_left _ _).trans hle
    · exact absurd ⟨by rw [h₂.1], h₂.2⟩ h₁
    · exact hle
  · intro v d hne
    dsimp only
    split_ifs with hvd
    · obtain ⟨rfl, rfl⟩ := hvd
      intro hlt
      rcases le_total (t.node (G.src e₀) d) x with hm | hm
      · rw [min_eq_left hm] at hlt ⊢
        obtain ⟨e, hs, hed⟩ := h.attained _ d hne hlt
        refine ⟨e, hs, ?_⟩
        by_cases hee : e = e₀
        · subst hee
          omega
        · simp [hee, hed]
      · exact ⟨e₀, rfl, by simp [min_eq_right hm]⟩
    · intro hlt
      obtain ⟨e, hs, hed⟩ := h.attained v d hne hlt
      refine ⟨e, hs, ?_⟩
      rw [if_neg]
      · exact hed
      · rintro ⟨rfl, rfl⟩
        exact hvd ⟨hs.symm, rfl⟩
  · intro e
    dsimp only
    have hle := h.seeded e
    split_ifs with hee
    · obtain ⟨rfl, hd⟩ := hee
      rw [hd] at hle
      exact hc.2.le.trans hle
    · exact hle

lemma Sound.sweep {order : List (E × V)} (ho : ∀ i ∈ order, G.prop i.1) {t : Table V E}
    (h : Sound G cap t) : Sound G cap (sweep G cap order t) := by
  induction order generalizing t with
  | nil => exact h
  | cons i order ih =>
    exact ih (fun j hj => ho j (List.mem_cons_of_mem _ hj)) (h.relax i (ho i List.mem_cons_self))

lemma relax_edge (t : Table V E) (e : E) (d : V) (hc : t.node (G.dst e) d < cap) :
    (relax G cap t (e, d)).edge e d ≤ t.node (G.dst e) d + G.wt e := by
  unfold relax
  dsimp only
  split_ifs with h
  · simp
  · have hn : ¬ t.node (G.dst e) d + G.wt e < t.edge e d := fun hl => h ⟨hc, hl⟩
    exact not_lt.mp hn

lemma sweep_edge {order : List (E × V)} (t : Table V E) {e : E} {d : V} (hm : (e, d) ∈ order)
    (hc : t.node (G.dst e) d < cap) :
    (sweep G cap order t).edge e d ≤ t.node (G.dst e) d + G.wt e := by
  induction order generalizing t with
  | nil => simp at hm
  | cons i order ih =>
    have hle : (relax G cap t i).node (G.dst e) d ≤ t.node (G.dst e) d :=
      (relax_le t i).2 (G.dst e) d
    rcases List.mem_cons.mp hm with rfl | hm
    · exact ((sweep_le order _).1 e d).trans (relax_edge t e d hc)
    · exact (ih (relax G cap t i) hm (hle.trans_lt hc)).trans (by omega)

lemma Known.sweep {order : List (E × V)} (ho : ∀ i ∈ order, G.prop i.1)
    (hall : ∀ e, G.prop e → ∀ d, (e, d) ∈ order) {t : Table V E} {k : ℕ} (h : Sound G cap t)
    (hk : Known G cap k t) : Known G cap (k + 1) (sweep G cap order t) := by
  have hs := h.sweep ho
  have hedge : ∀ j x e d, j ≤ k + 1 → G.prop e → Path G.Inner G.Last j x (G.dst e) d →
      G.wt e + x < cap → (Relaxation.sweep G cap order t).edge e d ≤ G.wt e + x := by
    intro j x e d hj he hp hx
    have hn := hk.1 j x (G.dst e) d hj hp (by omega)
    have hle := sweep_edge t (hall e he d) (show t.node (G.dst e) d < cap by omega)
    omega
  refine ⟨?_, hedge⟩
  intro j x v d hj hp hx
  cases hp with
  | nil => exact (hs.node_self v).le
  | last he =>
    obtain ⟨e, rfl, rfl, rfl⟩ := he
    exact (hs.node_le_edge e _).trans (hs.seeded e)
  | @cons j y _ u _ w he hp =>
    obtain ⟨e, hpr, rfl, rfl, rfl⟩ := he
    exact (hs.node_le_edge e d).trans (hedge j y e d (by omega) hpr hp hx)

lemma iterate_sweep {order : List (E × V)} (ho : ∀ i ∈ order, G.prop i.1)
    (hall : ∀ e, G.prop e → ∀ d, (e, d) ∈ order) {t : Table V E} (h : Sound G cap t) (k : ℕ) :
    Sound G cap ((sweep G cap order)^[k] t) ∧ Known G cap k ((sweep G cap order)^[k] t) := by
  induction k with
  | zero => exact ⟨h, h.known_zero⟩
  | succ k ih =>
    rw [Function.iterate_succ_apply']
    exact ⟨ih.1.sweep ho, ih.2.sweep ho hall ih.1⟩

lemma lt_coe_iff {x : ℕ∞} {c : ℕ} : x < c ↔ ∃ y : ℕ, y < c ∧ x = y := by
  constructor
  · intro h
    obtain ⟨y, hy⟩ := ENat.ne_top_iff_exists.mp (ne_top_of_lt h)
    rw [← hy] at h
    exact ⟨y, by exact_mod_cast h, hy.symm⟩
  · rintro ⟨y, hy, rfl⟩
    exact_mod_cast hy

lemma eq_min_cap {a : ℕ} {x : ℕ∞} (hc : a ≤ cap) (hl : a < cap → x ≤ a)
    (hu : ∀ y : ℕ, y < cap → x = y → a ≤ y) : (a : ℕ∞) = min (cap : ℕ∞) x := by
  rcases lt_or_ge x (cap : ℕ∞) with hx | hx
  · obtain ⟨y, hy, rfl⟩ := lt_coe_iff.mp hx
    have hay := hu y hy rfl
    have hya : y ≤ a := by exact_mod_cast hl (by omega)
    rw [min_eq_right hx.le]
    exact_mod_cast le_antisymm hay hya
  · rw [min_eq_left hx]
    rcases hc.lt_or_eq with hlt | rfl
    · exact absurd (hx.trans (hl hlt)) (not_le.mpr (by exact_mod_cast hlt))
    · rfl

/-- One sweep less than there are vertices makes the whole table exact. -/
theorem exact [Fintype V] {order : List (E × V)} (ho : ∀ i ∈ order, G.prop i.1)
    (hall : ∀ e, G.prop e → ∀ d, (e, d) ∈ order) {t : Table V E} (h : Sound G cap t) :
    let t' := (sweep G cap order)^[Fintype.card V - 1] t
    (∀ v d, (t'.node v d : ℕ∞) = min (cap : ℕ∞) (G.dist v d)) ∧
      ∀ e d, (t'.edge e d : ℕ∞) = min (cap : ℕ∞) (G.offer e d) := by
  intro t'
  obtain ⟨hs, hk⟩ := iterate_sweep ho hall h (Fintype.card V - 1)
  have hpos : ∀ u v w, G.Inner u v w → 0 < w := by
    rintro u v w ⟨e, -, -, -, rfl⟩
    exact G.wt_pos e
  constructor
  · intro v d
    refine eq_min_cap (hs.node_le v d) (hs.node_path v d) ?_
    intro y hy hd
    obtain ⟨k, hkc, hp⟩ := short_path hpos hd
    exact hk.1 k y v d (by omega) hp hy
  · intro e d
    refine eq_min_cap (hs.edge_le e d) (hs.edge_path e d) ?_
    intro y hy hd
    unfold Graph.offer at hd
    split_ifs at hd with hp hd'
    · have hne : G.dist (G.dst e) d ≠ ⊤ := by
        intro ht
        simp [ht] at hd
      obtain ⟨x, hx⟩ := ENat.ne_top_iff_exists.mp hne
      rw [← hx] at hd
      have hxy : G.wt e + x = y := by exact_mod_cast hd
      obtain ⟨k, hkc, hpath⟩ := short_path hpos hx.symm
      rw [← hxy]
      exact hk.2 k x e d (by omega) hp hpath (by omega)
    · have hwy : G.wt e = y := by exact_mod_cast hd
      subst hd'
      exact (hs.seeded e).trans hwy.le
    · exact absurd hd (ENat.natCast_ne_top y).symm

end OpenSM.Lib.Relaxation
