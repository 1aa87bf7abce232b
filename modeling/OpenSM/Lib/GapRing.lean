import Mathlib

/-! Rings of positions with at most one gap: which way round a position is reached from another, and that the
way that is chosen stays the same along it. -/

namespace OpenSM.Lib.GapRing

variable (n : ℕ)

def succ (p : ℕ) : ℕ := if p + 1 = n then 0 else p + 1

def pred (p : ℕ) : ℕ := if p = 0 then n - 1 else p - 1

def adj (s : Bool) (p : ℕ) : ℕ := if s then succ n p else pred n p

def up (a b : ℕ) : ℕ := if a ≤ b then b - a else b + n - a

def dist (s : Bool) (a b : ℕ) : ℕ := if s then up n a b else up n b a

/-- The shorter direction; of two equally short ones it is the one that does not wrap. -/
def short (a b : ℕ) : Bool := if a < b then decide (b - a ≤ a + n - b) else !decide (a - b ≤ b + n - a)

variable {n} {a b : ℕ} {s : Bool}

lemma adj_lt (ha : a < n) : adj n s a < n := by
  cases s <;> simp only [adj, succ, pred, if_true, Bool.false_eq_true, if_false] <;> split_ifs <;> omega

lemma pred_succ : pred n (succ n a) = a := by
  rw [succ]
  split_ifs with h
  · rw [pred, if_pos rfl]
    omega
  · rw [pred, if_neg (by omega)]
    omega

lemma succ_pred (ha : a < n) : succ n (pred n a) = a := by
  rw [pred]
  split_ifs with h
  · rw [succ, if_pos (by omega), h]
  · rw [succ, if_neg (by omega)]
    omega

lemma adj_not_adj (ha : a < n) : adj n (!s) (adj n s a) = a := by
  cases s with
  | true => exact pred_succ
  | false => exact succ_pred ha

lemma dist_lt (ha : a < n) (hb : b < n) : dist n s a b < n := by
  rw [dist, up, up]
  split_ifs <;> omega

lemma dist_self : dist n s a a = 0 := by
  rw [dist, up]
  split_ifs <;> omega

lemma dist_eq_zero (ha : a < n) (hb : b < n) : dist n s a b = 0 ↔ a = b := by
  rw [dist, up, up]
  split_ifs <;> omega

lemma dist_not : dist n (!s) a b = dist n s b a := by
  cases s <;> rfl

lemma dist_adj (ha : a < n) (hb : b < n) (hab : a ≠ b) : dist n s (adj n s a) b + 1 = dist n s a b := by
  cases s <;> simp only [dist, up, adj, succ, pred, if_true, Bool.false_eq_true, if_false] <;> split_ifs <;> omega

lemma dist_add_dist (ha : a < n) (hb : b < n) (hab : a ≠ b) : dist n s a b + dist n (!s) a b = n := by
  cases s <;> simp only [dist, up, Bool.not_true, Bool.not_false, if_true, Bool.false_eq_true, if_false] <;>
    split_ifs <;> omega

lemma short_adj (ha : a < n) (hb : b < n) (hab : a ≠ b) (hs : short n a b = s) (hne : adj n s a ≠ b) :
    short n (adj n s a) b = s := by
  cases s <;> simp only [short, adj, succ, pred, if_true, Bool.false_eq_true, if_false] at hs hne ⊢ <;>
    split_ifs at hs hne ⊢ <;> simp only [Bool.not_eq_eq_eq_not, Bool.not_true, Bool.not_false, decide_eq_true_eq,
      decide_eq_false_iff_not, not_le] at hs ⊢ <;> omega

variable (n) (link : ℕ → Prop)

def Link (s : Bool) (p : ℕ) : Prop := if s then link p else link (pred n p)

def Reach (s : Bool) : ℕ → ℕ → ℕ → Prop
  | 0, a, b => a = b
  | k + 1, a, b => Link n link s a ∧ Reach s k (adj n s a) b

def Open (s : Bool) (a b : ℕ) : Prop := Reach n link s (dist n s a b) a b

/-- The direction that is taken: the shorter one, unless a link is missing there. -/
def Chosen (s : Bool) (a b : ℕ) : Prop := Open n link s a b ∧ (short n a b = s ∨ ¬Open n link (!s) a b)

variable {n link}

lemma open_self : Open n link s a a := by
  rw [Open, dist_self]
  rfl

lemma open_adj (ha : a < n) (hb : b < n) (hab : a ≠ b) :
    Open n link s a b ↔ Link n link s a ∧ Open n link s (adj n s a) b := by
  rw [Open, Open, ← dist_adj ha hb hab]
  rfl

lemma link_not_adj (ha : a < n) : Link n link (!s) (adj n s a) ↔ Link n link s a := by
  have hpred : pred n (adj n true a) = a := adj_not_adj (s := true) ha
  cases s with
  | true =>
    change link (pred n (adj n true a)) ↔ link a
    rw [hpred]
  | false => exact Iff.rfl

lemma Open.of_adj (ha : a < n) (hb : b < n) (hne : adj n s a ≠ b) (h : Open n link (!s) (adj n s a) b) :
    Open n link (!s) a b := by
  have hopen := ((open_adj (adj_lt ha) hb hne).mp h).2
  rwa [adj_not_adj ha] at hopen

lemma Chosen.adj (ha : a < n) (hb : b < n) (hab : a ≠ b) (h : Chosen n link s a b) (hne : adj n s a ≠ b) :
    Chosen n link s (GapRing.adj n s a) b := by
  obtain ⟨hopen, hs⟩ := h
  refine ⟨((open_adj ha hb hab).mp hopen).2, hs.imp (fun hs => ?_) fun hs hn => ?_⟩
  · exact short_adj ha hb hab hs hne
  · exact hs (hn.of_adj ha hb hne)

lemma Chosen.hop (ha : a < n) (hb : b < n) (hab : a ≠ b) (h : Chosen n link s a b) : Link n link s a :=
  ((open_adj ha hb hab).mp h.1).1

lemma dist_short_adj (ha : a < n) (hb : b < n) (hab : a ≠ b) :
    dist n (short n (adj n (short n a b) a) b) (adj n (short n a b) a) b + 1 = dist n (short n a b) a b := by
  have hstep := dist_adj (s := short n a b) ha hb hab
  by_cases hne : adj n (short n a b) a = b
  · rw [hne, dist_self] at hstep
    rw [hne, dist_self]
    exact hstep
  · rw [short_adj ha hb hab rfl hne]
    exact hstep

open Classical in
noncomputable def len (n : ℕ) (link : ℕ → Prop) (a b : ℕ) : ℕ :=
  if Open n link (short n a b) a b then dist n (short n a b) a b else dist n (!short n a b) a b

lemma len_self : len n link a a = 0 := by
  rw [len]
  split_ifs <;> exact dist_self

lemma Chosen.len_eq (h : Chosen n link s a b) : len n link a b = dist n s a b := by
  obtain ⟨hopen, hs⟩ := h
  rw [len]
  by_cases hshort : short n a b = s
  · rw [hshort, if_pos hopen]
  · have hnot : short n a b = !s := by
      cases hv : short n a b <;> cases s <;> simp_all
    rw [hnot, if_neg (hs.resolve_left hshort), Bool.not_not]

lemma Chosen.len_adj (ha : a < n) (hb : b < n) (hab : a ≠ b) (h : Chosen n link s a b) :
    len n link (GapRing.adj n s a) b + 1 = len n link a b := by
  have hstep := dist_adj (s := s) ha hb hab
  rw [h.len_eq]
  by_cases hne : GapRing.adj n s a = b
  · rw [hne, dist_self] at hstep
    rw [hne, len_self]
    exact hstep
  · rw [(h.adj ha hb hab hne).len_eq]
    exact hstep

lemma open_line (hlink : ∀ p < n, link p ↔ p + 1 < n) (ha : a < n) (hb : b < n) :
    Open n link s a b ↔ if s then a ≤ b else b ≤ a := by
  induction hk : dist n s a b generalizing a with
  | zero =>
    obtain rfl := (dist_eq_zero ha hb).mp hk
    exact iff_of_true open_self (by split_ifs <;> exact le_rfl)
  | succ k ih =>
    have hab : a ≠ b := by
      rintro rfl
      rw [dist_self] at hk
      cases hk
    have hstep := dist_adj (s := s) ha hb hab
    have hlt := adj_lt (s := s) ha
    rw [open_adj ha hb hab, ih hlt (by omega)]
    cases s with
    | true =>
      change link a ∧ succ n a ≤ b ↔ a ≤ b
      rw [hlink a ha, succ]
      split_ifs <;> omega
    | false =>
      change link (pred n a) ∧ b ≤ pred n a ↔ b ≤ a
      rw [hlink (pred n a) hlt, pred]
      split_ifs <;> omega

lemma open_ring (hlink : ∀ p < n, link p) (ha : a < n) (hb : b < n) : Open n link s a b := by
  induction hk : dist n s a b generalizing a with
  | zero =>
    obtain rfl := (dist_eq_zero ha hb).mp hk
    exact open_self
  | succ k ih =>
    have hab : a ≠ b := by
      rintro rfl
      rw [dist_self] at hk
      cases hk
    have hstep := dist_adj (s := s) ha hb hab
    refine (open_adj ha hb hab).mpr ⟨?_, ih (adj_lt ha) (by omega)⟩
    rw [Link]
    split_ifs
    · exact hlink a ha
    · exact hlink _ (adj_lt (s := false) ha)

lemma len_ring (hlink : ∀ p < n, link p) (ha : a < n) (hb : b < n) :
    len n link a b = min (max a b - min a b) (n - (max a b - min a b)) := by
  rw [len, if_pos (open_ring hlink ha hb)]
  by_cases hab : a = b
  · rw [hab, dist_self]
    simp
  · by_cases hlt : a < b
    · have hmax : max a b = b := max_eq_right hlt.le
      have hmin : min a b = a := min_eq_left hlt.le
      rw [hmax, hmin, short, if_pos hlt]
      simp only [dist, up, decide_eq_true_eq]
      split_ifs <;> omega
    · have hmax : max a b = a := max_eq_left (not_lt.mp hlt)
      have hmin : min a b = b := min_eq_right (not_lt.mp hlt)
      rw [hmax, hmin, short, if_neg hlt]
      simp only [dist, up, Bool.not_eq_true', decide_eq_false_iff_not]
      split_ifs <;> omega

lemma len_line (hlink : ∀ p < n, link p ↔ p + 1 < n) (ha : a < n) (hb : b < n) :
    len n link a b = max a b - min a b := by
  by_cases hab : a = b
  · rw [hab, len_self]
    simp
  · by_cases hlt : a < b
    · have hch : Chosen n link true a b :=
        ⟨(open_line hlink ha hb).mpr hlt.le, .inr fun h => absurd ((open_line hlink ha hb).mp h) (not_le.mpr hlt)⟩
      rw [hch.len_eq, max_eq_right hlt.le, min_eq_left hlt.le]
      change up n a b = b - a
      exact if_pos hlt.le
    · have hgt : b < a := by omega
      have hch : Chosen n link false a b :=
        ⟨(open_line hlink ha hb).mpr hgt.le, .inr fun h => absurd ((open_line hlink ha hb).mp h) (not_le.mpr hgt)⟩
      rw [hch.len_eq, max_eq_left hgt.le, min_eq_right hgt.le]
      change up n b a = a - b
      exact if_pos hgt.le

section Seam

variable (n) in
def Seam (a b : ℕ) : Prop := a ≠ b ∧ (a + 1 = n ∧ b = 0 ∨ a = 0 ∧ b + 1 = n)

instance : Decidable (Seam n a b) := inferInstanceAs (Decidable (_ ∧ _))

variable (n) in
/-- How often the way to a position leads over the seam. Between two positions every step does. -/
def seams (s : Bool) (a b : ℕ) : ℕ :=
  if a = b then 0 else if n = 2 then 1 else if s then if b < a then 1 else 0 else if a < b then 1 else 0

lemma seams_self : seams n s a a = 0 := if_pos rfl

lemma seams_le_one : seams n s a b ≤ 1 := by
  rw [seams]
  split_ifs <;> omega

lemma adj_two (ha : a < 2) (s s' : Bool) : adj 2 s a = adj 2 s' a := by
  interval_cases a
  · cases s <;> cases s' <;> rfl
  · cases s <;> cases s' <;> rfl

lemma seams_adj (ha : a < n) (hb : b < n) (hab : a ≠ b) :
    seams n s a b = (if Seam n a (adj n s a) then 1 else 0) + seams n s (adj n s a) b := by
  by_cases hn : n = 2
  · subst hn
    have hadj : adj 2 s a = b := by
      rw [adj_two ha s true, adj, if_pos rfl, succ]
      split_ifs <;> omega
    rw [hadj, seams_self, seams, if_neg hab, if_pos rfl, if_pos]
    exact ⟨hab, by omega⟩
  · cases s with
    | true =>
      simp only [seams, Seam, adj, succ, if_true, if_neg hab, if_neg hn]
      split_ifs <;> omega
    | false =>
      simp only [seams, Seam, adj, pred, Bool.false_eq_true, if_false, if_neg hab, if_neg hn]
      split_ifs <;> omega

end Seam

section Run

def run (n : ℕ) (s : Bool) (a j : ℕ) : ℕ := (adj n s)^[j] a

variable {j k : ℕ}

@[simp] lemma run_zero : run n s a 0 = a := rfl

lemma run_succ : run n s a (j + 1) = adj n s (run n s a j) := Function.iterate_succ_apply' ..

lemma run_lt (ha : a < n) : run n s a j < n := by
  induction j with
  | zero => exact ha
  | succ j ih =>
    rw [run_succ]
    exact adj_lt ih

lemma dist_run (ha : a < n) (hj : j < n) : dist n s a (run n s a j) = j := by
  induction j with
  | zero => exact dist_self
  | succ j ih =>
    have hlt := run_lt (s := s) (j := j) ha
    have hprev := ih (by omega)
    rw [run_succ]
    cases s <;> simp only [dist, up, adj, succ, pred, if_true, Bool.false_eq_true, if_false] at hprev ⊢ <;>
      split_ifs at hprev ⊢ <;> omega

lemma dist_run_not (ha : a < n) (h₀ : j ≠ 0) (hj : j < n) : dist n s a (run n (!s) a j) = n - j := by
  have hdist := dist_run (s := !s) ha hj
  have hne : a ≠ run n (!s) a j := by
    intro he
    rw [← he, dist_self] at hdist
    exact h₀ hdist.symm
  have hsum := dist_add_dist (s := s) ha (run_lt ha) hne
  omega

lemma run_dist (ha : a < n) (hb : b < n) : run n s a (dist n s a b) = b := by
  have hlt := dist_lt (s := s) ha hb
  have hrun := run_lt (s := s) (j := dist n s a b) ha
  have hd := dist_run (s := s) ha hlt
  cases s <;> simp only [dist, up, if_true, Bool.false_eq_true, if_false] at hd hlt hrun ⊢ <;>
    split_ifs at hd hlt hrun ⊢ <;> omega

lemma run_run : run n s (run n s a j) k = run n s a (j + k) := by
  rw [run, run, run, add_comm, Function.iterate_add_apply]

lemma run_not_run (ha : a < n) : run n (!s) (run n s a j) j = a := by
  induction j with
  | zero => rfl
  | succ j ih => rw [run, Function.iterate_succ_apply, run_succ, adj_not_adj (run_lt ha), ← run, ih]

lemma run_true (ha : a < n) : run n true a j = (a + j) % n := by
  induction j with
  | zero => exact (Nat.mod_eq_of_lt ha).symm
  | succ j ih =>
    have hlt := Nat.mod_lt (a + j) (Nat.zero_lt_of_lt ha)
    rw [run_succ, ih, ← add_assoc, ← Nat.mod_add_mod (a + j)]
    change succ n _ = _
    rw [succ]
    split_ifs with h
    · rw [h, Nat.mod_self]
    · exact (Nat.mod_eq_of_lt (by omega)).symm

lemma run_full (ha : a < n) : run n s a n = a := by
  have htrue : ∀ {a}, a < n → run n true a n = a := by
    intro a ha
    rw [run_true ha, Nat.add_mod_right, Nat.mod_eq_of_lt ha]
  cases s with
  | true => exact htrue ha
  | false =>
    have hback := run_not_run (s := false) (j := n) ha
    rwa [Bool.not_false, htrue (run_lt ha)] at hback

lemma run_eq_run_not (ha : a < n) (hk : j + k = n) : run n s a j = run n (!s) a k := by
  have hround : run n s (run n s a j) k = a := by rw [run_run, hk, run_full ha]
  have hback := run_not_run (s := s) (j := k) (run_lt (s := s) (j := j) ha)
  rw [hround] at hback
  exact hback.symm

lemma run_true_of_lt (hj : a + j < n) : run n true a j = a + j := by
  rw [run_true (by omega), Nat.mod_eq_of_lt hj]

lemma run_false_of_le (hj : j ≤ a) : run n false a j = a - j := by
  induction j with
  | zero => rfl
  | succ j ih =>
    rw [run_succ, ih (by omega)]
    change pred n _ = _
    rw [pred, if_neg (by omega)]
    omega

lemma link_run_not (ha : a < n) : Link n link (!s) (run n s a (j + 1)) ↔ Link n link s (run n s a j) := by
  rw [run_succ]
  exact link_not_adj (run_lt ha)

lemma link_of_arms {k : Bool → ℕ} (ha : a < n) (hk : k true + k false + 1 = n)
    (hopen : ∀ s, ∀ j < k s, Link n link s (run n s a j)) (hs : Link n link s (run n s a (k s))) {p : ℕ}
    (hp : p < n) :
    link p := by
  have hmeet : Link n link true (run n true a (k true)) := by
    cases s with
    | true => exact hs
    | false =>
      have heq := run_eq_run_not (s := true) (j := k true + 1) (k := k false) ha (by omega)
      exact (link_run_not ha).mp (heq ▸ hs)
  have hj := dist_lt (s := true) ha hp
  have hrun := run_dist (s := true) ha hp
  change Link n link true p
  rw [← hrun]
  rcases lt_trichotomy (dist n true a p) (k true) with hlt | heq | hgt
  · exact hopen true _ hlt
  · rw [heq]
    exact hmeet
  · have hother := run_eq_run_not (s := true) (j := dist n true a p + 1) (k :=
        n - dist n true a p - 1) ha (by omega)
    exact (link_run_not ha).mp (hother ▸ hopen false _ (by omega))

lemma Open.link_run (ha : a < n) (hb : b < n) (h : Open n link s a b) (hj : j < dist n s a b) :
    Link n link s (run n s a j) := by
  induction j generalizing a with
  | zero =>
    have hab : a ≠ b := by
      rintro rfl
      rw [dist_self] at hj
      cases hj
    exact ((open_adj ha hb hab).mp h).1
  | succ j ih =>
    have hab : a ≠ b := by
      rintro rfl
      rw [dist_self] at hj
      cases hj
    have hdist := dist_adj (s := s) ha hb hab
    exact ih (adj_lt ha) ((open_adj ha hb hab).mp h).2 (by omega)

end Run

section Gap

variable {P : ℕ → Prop}

/-- A way that is not open has a position on it that nothing leads to. -/
lemma exists_start (hpres : ∀ p < n, link p → P p) (ha : a < n) (hb : b < n) (hpb : P b)
    (h : ¬Open n link true a b) :
    ∃ q < n, P q ∧ ¬link (pred n q) ∧ q ≠ a ∧ dist n true a q ≤ dist n true a b := by
  induction hk : dist n true a b generalizing a with
  | zero =>
    obtain rfl := (dist_eq_zero ha hb).mp hk
    exact absurd open_self h
  | succ k ih =>
    have hab : a ≠ b := by
      rintro rfl
      rw [dist_self] at hk
      cases hk
    have hstep := dist_adj (s := true) ha hb hab
    have hlt := adj_lt (s := true) ha
    have hpred : pred n (GapRing.adj n true a) = a := adj_not_adj (s := true) ha
    by_cases hnext : Open n link true (GapRing.adj n true a) b
    · have hlink : ¬link a := fun hl => h ((open_adj ha hb hab).mpr ⟨hl, hnext⟩)
      have hpa : P (GapRing.adj n true a) := by
        by_cases he : GapRing.adj n true a = b
        · rw [he]
          exact hpb
        · exact hpres _ hlt ((open_adj hlt hb he).mp hnext).1
      have hne : GapRing.adj n true a ≠ a := by
        intro he
        have hself := dist_adj (s := true) ha hb hab
        rw [he] at hself
        omega
      have hone := dist_adj (s := true) ha hlt hne.symm
      rw [dist_self] at hone
      exact ⟨_, hlt, hpa, by rw [hpred]; exact hlink, hne, by omega⟩
    · obtain ⟨q, hq, hpq, hlq, hqa, hle⟩ := ih hlt hnext (by omega)
      have hqne : q ≠ a := by
        rintro rfl
        have hback := dist_add_dist (s := true) hlt ha (Ne.symm hqa)
        have hlt' := dist_lt (s := true) ha hb
        rw [dist_not] at hback
        have hone := dist_adj (s := true) ha hlt (Ne.symm (Ne.symm hqa))
        rw [dist_self] at hone
        omega
      have hq' := dist_adj (s := true) ha hq (Ne.symm hqne)
      exact ⟨q, hq, hpq, hlq, hqne, by omega⟩

lemma Reach.snoc {k : ℕ} {c : ℕ} (h : Reach n link s k a b) (hl : Link n link s b) (hc : GapRing.adj n s b = c) :
    Reach n link s (k + 1) a c := by
  induction k generalizing a with
  | zero =>
    obtain rfl := h
    exact ⟨hl, hc⟩
  | succ k ih => exact ⟨h.1, ih h.2⟩

lemma Reach.reverse {k : ℕ} (ha : a < n) (h : Reach n link s k a b) : Reach n link (!s) k b a := by
  induction k generalizing a with
  | zero => exact h.symm
  | succ k ih => exact (ih (adj_lt ha) h.2).snoc ((link_not_adj ha).mpr h.1) (adj_not_adj ha)

lemma open_not (ha : a < n) (hb : b < n) : Open n link (!s) a b ↔ Open n link s b a := by
  rw [Open, Open, dist_not]
  refine ⟨fun h => ?_, fun h => h.reverse hb⟩
  have hrev := h.reverse ha
  rwa [Bool.not_not] at hrev

lemma exists_open (hpres : ∀ p < n, link p → P p)
    (hone : ∀ p q, p < n → q < n → P p → P q → ¬link (pred n p) → ¬link (pred n q) → p = q) (ha : a < n)
    (hb : b < n) (hpa : P a) (hpb : P b) : ∃ s, Open n link s a b := by
  by_contra hno
  push Not at hno
  obtain ⟨p, hp, hpp, hlp, hpne, hple⟩ := exists_start hpres ha hb hpb (hno true)
  have hback : ¬Open n link true b a := fun h => hno false ((open_not (s := true) ha hb).mpr h)
  obtain ⟨q, hq, hpq, hlq, hqne, hqle⟩ := exists_start hpres hb ha hpa hback
  obtain rfl := hone p q hp hq hpp hpq hlp hlq
  simp only [dist, up, if_true] at hple hqle
  split_ifs at hple hqle <;> omega

lemma exists_chosen (hpres : ∀ p < n, link p → P p)
    (hone : ∀ p q, p < n → q < n → P p → P q → ¬link (pred n p) → ¬link (pred n q) → p = q) (ha : a < n)
    (hb : b < n) (hpa : P a) (hpb : P b) : ∃ s, Chosen n link s a b := by
  obtain ⟨s, hs⟩ := exists_open hpres hone ha hb hpa hpb
  by_cases hshort : short n a b = s
  · exact ⟨s, hs, .inl hshort⟩
  · by_cases hother : Open n link (!s) a b
    · refine ⟨!s, hother, .inl ?_⟩
      cases hv : short n a b <;> cases s <;> simp_all
    · exact ⟨s, hs, .inr hother⟩

end Gap

end OpenSM.Lib.GapRing
