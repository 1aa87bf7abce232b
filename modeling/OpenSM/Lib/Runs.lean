import Mathlib

/-! Runs of a system whose steps are labelled and may be refused. -/

namespace OpenSM.Lib.Runs

variable {σ α : Type*} {step : σ → α → Option σ} {s₀ : σ}

inductive Run (step : σ → α → Option σ) (s₀ : σ) : List (σ × α) → σ → Prop
  | nil : Run step s₀ [] s₀
  | snoc {l : List (σ × α)} {s s' : σ} {a : α} (h : Run step s₀ l s) (ha : step s a = some s') :
      Run step s₀ (l ++ [(s, a)]) s'

lemma Run.invariant {P : σ → Prop} {q : σ → α → Prop} (h₀ : P s₀)
    (hstep : ∀ s a s', P s → q s a → step s a = some s' → P s') {l : List (σ × α)} {s : σ}
    (h : Run step s₀ l s) (hl : ∀ x ∈ l, q x.1 x.2) : P s := by
  induction h with
  | nil => exact h₀
  | snoc _ ha ih =>
    rw [List.forall_mem_append, List.forall_mem_singleton] at hl
    exact hstep _ _ _ (ih hl.1) hl.2 ha

lemma Run.always {P : σ → Prop} (h₀ : P s₀) (hstep : ∀ s a s', P s → step s a = some s' → P s')
    {l : List (σ × α)} {s : σ} (h : Run step s₀ l s) : P s :=
  h.invariant (q := fun _ _ => True) h₀ (fun s a s' hp _ ha => hstep s a s' hp ha) fun _ _ => trivial

lemma Run.always_iff {P : σ → Prop} {q : σ → α → Prop} (h₀ : P s₀)
    (hstep : ∀ s a s', P s → step s a = some s' → (P s' ↔ q s a)) {l : List (σ × α)} {s : σ}
    (h : Run step s₀ l s) : (∀ x ∈ l, P x.1) ∧ P s ↔ ∀ x ∈ l, q x.1 x.2 := by
  induction h with
  | nil => simpa using h₀
  | snoc _ ha ih =>
    simp only [List.forall_mem_append, List.forall_mem_singleton]
    rw [← ih]
    refine ⟨fun ⟨⟨hl, hs⟩, hs'⟩ => ⟨⟨hl, hs⟩, (hstep _ _ _ hs ha).mp hs'⟩, ?_⟩
    rintro ⟨⟨hl, hs⟩, hq⟩
    exact ⟨⟨hl, hs⟩, (hstep _ _ _ hs ha).mpr hq⟩

lemma Run.inv_snoc {l : List (σ × α)} {x : σ × α} {s : σ} (h : Run step s₀ (l ++ [x]) s) :
    Run step s₀ l x.1 ∧ step x.1 x.2 = some s := by
  generalize hl : l ++ [x] = l' at h
  cases h with
  | nil => simp at hl
  | snoc h ha =>
    obtain ⟨rfl, hx⟩ := List.append_inj' hl rfl
    obtain rfl := List.singleton_inj.mp hx
    exact ⟨h, ha⟩

lemma Run.split {l₁ l₂ : List (σ × α)} {x : σ × α} {s : σ} (h : Run step s₀ (l₁ ++ x :: l₂) s) :
    Run step s₀ l₁ x.1 ∧ ∃ s', step x.1 x.2 = some s' ∧ ∀ y ∈ l₂.head?, y.1 = s' := by
  induction l₂ using List.reverseRecOn generalizing s with
  | nil =>
    obtain ⟨h, hx⟩ := h.inv_snoc
    exact ⟨h, s, hx, by simp⟩
  | append_singleton l₂ y ih =>
    rw [← List.cons_append, ← List.append_assoc] at h
    obtain ⟨h, -⟩ := h.inv_snoc
    obtain ⟨hl, s', hx, hhead⟩ := ih h
    refine ⟨hl, s', hx, ?_⟩
    cases l₂ with
    | nil =>
      rintro z hz
      obtain rfl := Option.some.inj hz
      exact Option.some.inj (h.inv_snoc.2.symm.trans hx)
    | cons z l₂ => exact hhead

lemma Run.sum {P : σ → Prop} {w : σ → ℤ} {d : σ → α → ℤ} (h₀ : P s₀)
    (hstep : ∀ s a s', P s → step s a = some s' → P s' ∧ w s' = w s + d s a) {l : List (σ × α)} {s : σ}
    (h : Run step s₀ l s) : P s ∧ w s = w s₀ + (l.map fun x => d x.1 x.2).sum := by
  induction h with
  | nil => exact ⟨h₀, by simp⟩
  | snoc _ ha ih =>
    obtain ⟨hp, hw⟩ := hstep _ _ _ ih.1 ha
    refine ⟨hp, ?_⟩
    rw [hw, ih.2, List.map_append, List.sum_append, List.map_singleton, List.sum_singleton, add_assoc]

def exec (step : σ → α → Option σ) (s : σ) (as : List α) : Option σ :=
  as.foldlM step s

def trace (step : σ → α → Option σ) (s : σ) : List α → List (σ × α)
  | [] => []
  | a :: as => (s, a) :: (step s a).elim [] (trace step · as)

lemma Run.append {l : List (σ × α)} {s s' : σ} (h : Run step s₀ l s) (as : List α)
    (hs : exec step s as = some s') : Run step s₀ (l ++ trace step s as) s' := by
  induction as generalizing l s with
  | nil =>
    obtain rfl := Option.some.inj hs
    simpa [trace] using h
  | cons a as ih =>
    obtain ⟨s₁, ha, hs⟩ := Option.bind_eq_some_iff.mp hs
    have hrest := ih (h.snoc ha) hs
    simpa [trace, ha] using hrest

lemma Run.of_exec (step : σ → α → Option σ) (s : σ) (as : List α) (p : σ → Bool) (q : σ × α → Bool)
    (h : (exec step s as).elim false p = true) (hq : (trace step s as).all q = true) :
    ∃ l s', Run step s l s' ∧ p s' = true ∧ ∀ x ∈ l, q x = true := by
  cases he : exec step s as with
  | none => simp [he] at h
  | some s' =>
    have hnil : Run step s [] s := Run.nil
    exact ⟨_, s', hnil.append as he, by simpa [he] using h, by simpa using hq⟩

end OpenSM.Lib.Runs
