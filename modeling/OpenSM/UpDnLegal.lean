import OpenSM.DnUpRank
import OpenSM.Lib.FirstWord
import OpenSM.UpDn

/-! The paths that UPDN may use: steps up, and then steps down. A search from a switch follows the port numbers
of a path; a packet takes the path the other way. -/

namespace OpenSM.UpDn

open Lib.FirstWord DnUp

variable {n m : ℕ} (f : Fabric n m) (rank id : Fin n → ℕ)

abbrev stepDir (u r : Fin n) : SwitchDir := getDir (rank u) (rank r) (id u) (id r)

section Paths

def Link (u r : Fin n) : Prop := u ≠ r ∧ Cabled f u r

def dirs : List (Fin n) → List SwitchDir
  | [] => []
  | u :: l => l.head?.elim [] fun r => stepDir rank id u r :: dirs l

def UpThenDown (l : List (Fin n)) : Prop :=
  ∃ a b, dirs rank id l = List.replicate a .up ++ List.replicate b .down

noncomputable def legalDist (s d : Fin n) : ℕ∞ :=
  ⨅ (l : List (Fin n)) (_ : (s :: l).IsChain (Link f) ∧ (s :: l).getLast (List.cons_ne_nil s l) = d ∧
    UpThenDown rank id (s :: l)), (l.length : ℕ∞)

end Paths

section Words

variable (d : Fin n)

/-- The ports of a path that a search from `d` may take, with the direction of its last step. -/
inductive Legal : List ℕ → SwitchDir → Fin n → Prop
  | nil : Legal [] .up d
  | snoc {x : List ℕ} {dir : SwitchDir} {u r : Fin n} {p q : ℕ} (h : Legal x dir u)
      (hr : f.remote u p = some (.sw r q)) (hdir : ¬(dir = .down ∧ stepDir rank id u r = .up)) :
      Legal (x ++ [p]) (stepDir rank id u r) r

def Free (v : Fin n) : Prop := ∃ x, Legal f rank id d x .up v

def HasUp (v : Fin n) : Prop := ∃ p r q, f.remote v p = some (.sw r q) ∧ stepDir rank id v r = .up

/-- The search comes by a step up first to every switch from which it could go on up: a path that ends with a step
down is longer than a path of steps up alone, or as long and behind it in the order of the port numbers. -/
def Timely : Prop := ∀ v, Free f rank id d v → HasUp f rank id v → ∀ x, Legal f rank id d x .down v →
  ∃ y, Legal f rank id d y .up v ∧ Before y x

/-- The steps that the search should make: any from a switch to which steps up alone lead, and the others down. -/
def Step (u : Fin n) (p : ℕ) (r : Fin n) : Prop :=
  (∃ q, f.remote u p = some (.sw r q)) ∧ (Free f rank id d u ∨ stepDir rank id u r = .down)

variable {f rank id d} {u v r s : Fin n} {x y : List ℕ} {dir : SwitchDir} {p : ℕ}

lemma SwitchDir.eq_up_or_down (dir : SwitchDir) : dir = .up ∨ dir = .down := by
  cases dir
  · exact .inl rfl
  · exact .inr rfl

lemma Step.unique (h : Step f rank id d u p r) (h' : Step f rank id d u p s) : r = s := by
  obtain ⟨⟨q, hq⟩, -⟩ := h
  obtain ⟨⟨q', hq'⟩, -⟩ := h'
  rw [hq] at hq'
  cases hq'
  rfl

lemma Legal.walk (h : Legal f rank id d x dir v) : Walk (Step f rank id d) d x v := by
  induction h with
  | nil => exact .nil
  | @snoc x dir u r p q h hr hdir ih =>
    refine ih.snoc ⟨⟨q, hr⟩, ?_⟩
    rcases (stepDir rank id u r).eq_up_or_down with hup | hdown
    · rcases dir.eq_up_or_down with rfl | rfl
      · exact .inl ⟨x, h⟩
      · exact absurd ⟨rfl, hup⟩ hdir
    · exact .inr hdown

lemma Legal.inv_snoc (h : Legal f rank id d (x ++ [p]) dir v) :
    ∃ dir' u q, Legal f rank id d x dir' u ∧ f.remote u p = some (.sw v q) ∧ dir = stepDir rank id u v := by
  generalize hy : x ++ [p] = y at h
  cases h with
  | nil => cases (List.append_ne_nil_of_right_ne_nil _ (List.cons_ne_nil _ _)) hy
  | @snoc z dir' u _ p' q h hr hdir =>
    obtain ⟨rfl, hp⟩ := List.append_inj' hy rfl
    obtain rfl := List.singleton_inj.mp hp
    exact ⟨dir', u, q, h, hr, rfl⟩

lemma first_legal (ht : Timely f rank id d) (h : First (Step f rank id d) d x v) :
    ∃ dir, Legal f rank id d x dir v ∧ (Free f rank id d v → HasUp f rank id v → dir = .up) := by
  induction x using List.reverseRecOn generalizing v with
  | nil =>
    obtain rfl := h.walk.eq_of_nil
    exact ⟨.up, .nil, fun _ _ => rfl⟩
  | append_singleton x p ih =>
    obtain ⟨u, hu, ⟨q, hq⟩, hstep⟩ := h.inv_snoc
    obtain ⟨dir, hlegal, hdir⟩ := ih hu
    have hmay : ¬(dir = .down ∧ stepDir rank id u v = .up) := by
      rintro ⟨rfl, hup⟩
      have hfree : Free f rank id d u := hstep.resolve_right fun hdown => by
        rw [hup] at hdown
        cases hdown
      cases hdir hfree ⟨p, v, q, hq, hup⟩
    refine ⟨_, hlegal.snoc hq hmay, fun hfree hhas => ?_⟩
    rcases (stepDir rank id u v).eq_up_or_down with hup | hdown
    · exact hup
    · have hlast := hlegal.snoc hq hmay
      rw [hdown] at hlast
      obtain ⟨y, hy, hlt⟩ := ht v hfree hhas _ hlast
      exact absurd hlt (h.least y hy.walk)

end Words

section Reverse

variable {f rank id} {d u v r : Fin n} {x : List ℕ} {dir : SwitchDir} {l : List (Fin n)} {a b : ℕ}

lemma Link.symm (h : Link f u r) : Link f r u := ⟨h.1.symm, h.2.symm⟩

lemma getDir_up {i j : ℕ} (h : ¬(a = 0 ∧ b = 0)) : getDir a b i j = .up ↔ b < a ∨ a = b ∧ j < i := by
  rw [getDir, if_neg h]
  split_ifs <;> simp <;> omega

lemma getDir_down {i j : ℕ} (h : ¬(a = 0 ∧ b = 0)) : getDir a b i j = .down ↔ a < b ∨ a = b ∧ i ≤ j := by
  rw [getDir, if_neg h]
  split_ifs <;> simp <;> omega

lemma stepDir_swap (hid : Function.Injective id) (hroots : ∀ u r, Link f u r → ¬(rank u = 0 ∧ rank r = 0))
    (h : Link f u r) : stepDir rank id u r = .up ↔ stepDir rank id r u = .down := by
  have hne : id u ≠ id r := fun heq => h.1 (hid heq)
  rw [stepDir, stepDir, getDir_up (hroots u r h), getDir_down (hroots r u ⟨h.1.symm, h.2.symm⟩)]
  omega

lemma dirs_cons : dirs rank id (u :: r :: l) = stepDir rank id u r :: dirs rank id (r :: l) := rfl

/-- A path of the search gives a path of packets, which is not longer. -/
lemma Legal.path (hid : Function.Injective id) (hroots : ∀ u r, Link f u r → ¬(rank u = 0 ∧ rank r = 0))
    (h : Legal f rank id d x dir v) : ∃ l a b, (v :: l).IsChain (Link f) ∧
      (v :: l).getLast (List.cons_ne_nil v l) = d ∧ l.length ≤ x.length ∧
      dirs rank id (v :: l) = List.replicate a .up ++ List.replicate b .down ∧ (dir = .up → a = 0) := by
  induction h with
  | nil => exact ⟨[], 0, 0, List.isChain_singleton d, rfl, le_rfl, rfl, fun _ => rfl⟩
  | @snoc x dir u r p q h hr hdir ih =>
    obtain ⟨l, a, b, hchain, hlast, hlen, hdirs, hzero⟩ := ih
    have hlonger : x.length ≤ (x ++ [p]).length := by
      rw [List.length_append]
      exact Nat.le_add_right _ _
    by_cases hur : u = r
    · subst hur
      refine ⟨l, a, b, hchain, hlast, hlen.trans hlonger, hdirs, fun hup => hzero ?_⟩
      exact dir.eq_up_or_down.resolve_right fun hdown => hdir ⟨hdown, hup⟩
    · have hlink : Link f u r := ⟨hur, p, q, hr⟩
      have hswap := stepDir_swap hid hroots hlink
      have hswap' := stepDir_swap hid hroots hlink.symm
      refine ⟨u :: l, ?_⟩
      rcases (stepDir rank id u r).eq_up_or_down with hup | hdown
      · have ha := hzero (dir.eq_up_or_down.resolve_right fun hdown => hdir ⟨hdown, hup⟩)
        refine ⟨0, b + 1, ?_, hlast, ?_, ?_, fun _ => rfl⟩
        · exact List.isChain_cons_cons.mpr ⟨hlink.symm, hchain⟩
        · rw [List.length_append]
          exact Nat.succ_le_succ hlen
        · rw [dirs_cons, hdirs, hswap.mp hup, ha]
          rfl
      · refine ⟨a + 1, b, ?_, hlast, ?_, ?_, fun hup => ?_⟩
        · exact List.isChain_cons_cons.mpr ⟨hlink.symm, hchain⟩
        · rw [List.length_append]
          exact Nat.succ_le_succ hlen
        · rw [dirs_cons, hdirs, hswap'.mpr hdown]
          rfl
        · rw [hup] at hdown
          cases hdown

/-- A path of packets gives a path of the search. -/
lemma legal_of_path (hid : Function.Injective id) (hroots : ∀ u r, Link f u r → ¬(rank u = 0 ∧ rank r = 0))
    (hchain : (v :: l).IsChain (Link f)) (hlast : (v :: l).getLast (List.cons_ne_nil v l) = d)
    (hdirs : dirs rank id (v :: l) = List.replicate a .up ++ List.replicate b .down) :
    ∃ x dir, Legal f rank id d x dir v ∧ x.length = l.length ∧ (a = 0 → dir = .up) := by
  induction l generalizing v a b with
  | nil =>
    obtain rfl : v = d := hlast
    exact ⟨[], .up, .nil, rfl, fun _ => rfl⟩
  | cons u l ih =>
    obtain ⟨hlink, hchain⟩ := List.isChain_cons_cons.mp hchain
    obtain ⟨p, q, hp⟩ := hlink.2
    have hback := f.remote_symm _ _ _ _ hp
    have hlen : ∀ x : List ℕ, x.length = l.length → (x ++ [q]).length = (u :: l).length := fun x hx => by
      rw [List.length_append, hx]
      rfl
    rw [dirs_cons] at hdirs
    cases a with
    | zero =>
      cases b with
      | zero => cases hdirs
      | succ b =>
        rw [List.replicate_succ, List.replicate_zero, List.nil_append, List.cons.injEq] at hdirs
        obtain ⟨x, dir, hx, hxl, hup⟩ := @ih u 0 b hchain hlast hdirs.2
        have hswap := (stepDir_swap hid hroots hlink.symm).mpr hdirs.1
        refine ⟨_, _, hx.snoc hback fun hdir => ?_, hlen x hxl, fun _ => hswap⟩
        rw [hup rfl] at hdir
        cases hdir.1
    | succ a =>
      rw [List.replicate_succ, List.cons_append, List.cons.injEq] at hdirs
      obtain ⟨x, dir, hx, hxl, -⟩ := @ih u a b hchain hlast hdirs.2
      have hswap := (stepDir_swap hid hroots hlink).mp hdirs.1
      refine ⟨_, _, hx.snoc hback fun hdir => ?_, hlen x hxl, nofun⟩
      rw [hswap] at hdir
      cases hdir.2

variable (hid : Function.Injective id) (hroots : ∀ u r, Link f u r → ¬(rank u = 0 ∧ rank r = 0))

include hid hroots

lemma legalDist_first (ht : Timely f rank id d) (h : First (Step f rank id d) d x v) :
    legalDist f rank id v d = x.length := by
  apply le_antisymm
  · obtain ⟨dir, hlegal, -⟩ := first_legal ht h
    obtain ⟨l, a, b, hchain, hlast, hlen, hdirs, -⟩ := hlegal.path hid hroots
    refine (iInf₂_le l ⟨hchain, hlast, a, b, hdirs⟩).trans ?_
    exact_mod_cast hlen
  · refine le_iInf₂ fun l hl => ?_
    obtain ⟨hchain, hlast, a, b, hdirs⟩ := hl
    obtain ⟨y, dir, hy, hlen, -⟩ := legal_of_path hid hroots hchain hlast hdirs
    rw [← hlen]
    exact_mod_cast h.length_le hy.walk

lemma exists_first_of_legalDist (h : legalDist f rank id v d ≠ ⊤) : ∃ x, First (Step f rank id d) d x v := by
  obtain ⟨l, hl⟩ : ∃ l, (v :: l).IsChain (Link f) ∧ (v :: l).getLast (List.cons_ne_nil v l) = d ∧
      UpThenDown rank id (v :: l) := by
    by_contra hno
    push Not at hno
    exact h (iInf₂_eq_top.mpr fun l hl => absurd hl.2.2 (hno l hl.1 hl.2.1))
  obtain ⟨hchain, hlast, a, b, hdirs⟩ := hl
  obtain ⟨y, dir, hy, -, -⟩ := legal_of_path hid hroots hchain hlast hdirs
  exact hy.walk.exists_first

end Reverse

end OpenSM.UpDn
