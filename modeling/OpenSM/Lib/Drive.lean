import Mathlib

/-! A loop that runs until its body has nothing left to do, with a bound on the number of rounds. -/

namespace OpenSM.Lib.Drive

variable {σ : Type*} {body : σ → Option σ}

def drive (body : σ → Option σ) : ℕ → σ → Option σ
  | 0, s => (body s).elim (some s) fun _ => none
  | k + 1, s => (body s).elim (some s) (drive body k)

lemma drive_done {s : σ} (h : body s = none) (k : ℕ) : drive body k s = some s := by
  cases k <;> simp [drive, h]

lemma drive_step {s s' : σ} (h : body s = some s') (k : ℕ) : drive body (k + 1) s = drive body k s' := by
  simp [drive, h]

lemma drive_spec {I : σ → Prop} {μ : σ → ℕ}
    (hbody : ∀ s s', I s → body s = some s' → I s' ∧ μ s' < μ s) (k : ℕ) {s : σ} (hs : I s) (hk : μ s ≤ k) :
    ∃ t, drive body k s = some t ∧ I t ∧ body t = none := by
  induction k generalizing s with
  | zero =>
    cases hb : body s with
    | none => exact ⟨s, drive_done hb 0, hs, hb⟩
    | some s' =>
      obtain ⟨-, hlt⟩ := hbody s s' hs hb
      omega
  | succ k ih =>
    cases hb : body s with
    | none => exact ⟨s, drive_done hb (k + 1), hs, hb⟩
    | some s' =>
      obtain ⟨hs', hlt⟩ := hbody s s' hs hb
      obtain ⟨t, ht, hrest⟩ := ih hs' (by omega)
      exact ⟨t, (drive_step hb k).trans ht, hrest⟩

end OpenSM.Lib.Drive
