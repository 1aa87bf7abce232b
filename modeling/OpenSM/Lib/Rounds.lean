import OpenSM.Lib.Drive

/-! Loops that go over a state round by round, until a round has counted no change. -/

namespace OpenSM.Lib.Rounds

open Drive

variable {σ α : Type*} {I : σ → Prop} {μ : σ → ℕ}

structure Counted (I : σ → Prop) (μ : σ → ℕ) (st st' : σ × ℕ) : Prop where
  inv : I st'.1
  spent : μ st'.1 + st'.2 ≤ μ st.1 + st.2
  still : st' = st ∨ st.2 < st'.2

lemma Counted.refl {st : σ × ℕ} (h : I st.1) : Counted I μ st st := ⟨h, le_rfl, .inl rfl⟩

lemma Counted.change {st : σ × ℕ} {s : σ} (h : I s) (hμ : μ s < μ st.1) : Counted I μ st (s, st.2 + 1) where
  inv := h
  spent := by
    dsimp only
    omega
  still := .inr (Nat.lt_succ_self st.2)

lemma Counted.le {st st' : σ × ℕ} (h : Counted I μ st st') : st.2 ≤ st'.2 := by
  rcases h.still with heq | hlt
  · rw [heq]
  · exact hlt.le

lemma Counted.trans {a b c : σ × ℕ} (h : Counted I μ a b) (h' : Counted I μ b c) : Counted I μ a c where
  inv := h'.inv
  spent := h'.spent.trans h.spent
  still := by
    rcases h.still with rfl | hlt
    · exact h'.still
    · exact .inr (hlt.trans_le h'.le)

lemma Counted.mono {J : σ → Prop} {st st' : σ × ℕ} (h : Counted I μ st st') (hJ : ∀ s, I s → J s) :
    Counted J μ st st' :=
  ⟨hJ _ h.inv, h.spent, h.still⟩

lemma Counted.foldl {f : σ × ℕ → α → σ × ℕ} {xs : List α}
    (hf : ∀ x ∈ xs, ∀ st : σ × ℕ, I st.1 → Counted I μ st (f st x)) {st : σ × ℕ} (h : I st.1) :
    Counted I μ st (xs.foldl f st) := by
  induction xs generalizing st with
  | nil => exact .refl h
  | cons x xs ih =>
    have hx := hf x List.mem_cons_self st h
    exact hx.trans (ih (fun y hy => hf y (List.mem_cons_of_mem x hy)) hx.inv)

lemma foldl_still {f : σ × ℕ → α → σ × ℕ} {xs : List α}
    (hf : ∀ x ∈ xs, ∀ st : σ × ℕ, I st.1 → Counted I μ st (f st x)) {st : σ × ℕ} (h : I st.1)
    (hstill : xs.foldl f st = st) : ∀ x ∈ xs, f st x = st := by
  induction xs with
  | nil => exact fun x hx => absurd hx List.not_mem_nil
  | cons x xs ih =>
    have hx := hf x List.mem_cons_self st h
    have hrest := Counted.foldl (fun y hy => hf y (List.mem_cons_of_mem x hy)) hx.inv
    have hfst : f st x = st := by
      rcases hx.still with heq | hlt
      · exact heq
      · have hle := hrest.le
        rw [List.foldl_cons] at hstill
        rw [hstill] at hle
        exact absurd hlt (not_lt.mpr hle)
    rw [List.foldl_cons, hfst] at hstill
    refine List.forall_mem_cons.mpr ⟨hfst, ih (fun y hy => hf y (List.mem_cons_of_mem x hy)) hstill⟩

/-- `do { change = 0; … } while (change)`. -/
def loop (round : σ → σ × ℕ) : ℕ → σ →
    Option σ := drive fun s => if (round s).2 = 0 then none else some (round s).1

lemma loop_spec {round : σ → σ × ℕ} (hround : ∀ s, I s → Counted I μ (s, 0) (round s)) {k : ℕ} {s : σ} (hs : I s)
    (hk : μ s ≤ k) : ∃ t, loop round k s = some t ∧ I t ∧ round t = (t, 0) := by
  have hbody : ∀ s s', I s → (if (round s).2 = 0 then none else some (round s).1) = some s' → I s' ∧
      μ s' < μ s := by
    intro s s' hs hbody
    have hcounted := hround s hs
    have hspent := hcounted.spent
    split_ifs at hbody with hzero
    cases hbody
    refine ⟨hcounted.inv, ?_⟩
    dsimp only at hspent
    omega
  obtain ⟨t, ht, hI, hdone⟩ := drive_spec hbody k hs hk
  refine ⟨t, ht, hI, ?_⟩
  rcases (hround t hI).still with heq | hlt
  · exact heq
  · split_ifs at hdone with hzero
    exact absurd hzero (Nat.pos_iff_ne_zero.mp hlt)

lemma loop_succ {round : σ → σ × ℕ} {s s' : σ} {n : ℕ} (h : round s = (s', n + 1)) (k : ℕ) :
    loop round (k + 1) s = loop round k s' := by
  apply drive_step
  rw [h]
  rfl

lemma loop_zero {round : σ → σ × ℕ} {s s' : σ} {n : ℕ} (h : round s = (s', n + 1)) : loop round 0 s = none := by
  rw [loop, drive, h]
  rfl

lemma loop_stuck {round : σ → σ × ℕ} {s : σ} {n : ℕ} (h : round s = (s, n + 1)) (k : ℕ) :
    loop round k s = none := by
  induction k with
  | zero => exact loop_zero h
  | succ k ih => exact (loop_succ h k).trans ih

end OpenSM.Lib.Rounds
