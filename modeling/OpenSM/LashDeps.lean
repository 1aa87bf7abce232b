import OpenSM.LashLanes

/-! The dependencies of one vertex: a slot for each address that has a count, and what the operations on the
channel dependency graph do to the counts. -/

namespace OpenSM.Lash

variable {n : ℕ}

namespace Vertex

variable {v : Vertex n} {c : ℕ → ℕ} {a i : ℕ}

/-- The slots of a vertex are the addresses with a count, each once, and the counts. -/
structure Holds (v : Vertex n) (c : ℕ → ℕ) : Prop where
  used : ∀ i < v.numDeps, 0 < c (v.deps i).v ∧ (v.deps i).numUsed = c (v.deps i).v
  all : ∀ a, 0 < c a → ∃ i < v.numDeps, (v.deps i).v = a
  inj : ∀ i < v.numDeps, ∀ j < v.numDeps, (v.deps i).v = (v.deps j).v → i = j

lemma dependsOn_iff : v.dependsOn a = true ↔ ∃ i < v.numDeps, (v.deps i).v = a := by
  simp only [dependsOn, List.any_eq_true, List.mem_range, decide_eq_true_eq]

lemma Holds.dependsOn_iff (h : v.Holds c) : v.dependsOn a = true ↔ 0 < c a := by
  rw [Vertex.dependsOn_iff]
  constructor
  · rintro ⟨i, hi, rfl⟩
    exact (h.used i hi).1
  · exact h.all a

lemma Holds.dependsOn_false (h : v.Holds c) (ha : c a = 0) : v.dependsOn a = false := by
  rw [Bool.eq_false_iff, Ne, h.dependsOn_iff, ha]
  exact lt_irrefl 0

lemma holds_calloc (addr : ℕ) (e : Channel n) : (calloc addr e).Holds fun _ => 0 :=
  ⟨fun _ h => absurd h (Nat.not_lt_zero _), fun _ h => absurd h (lt_irrefl 0),
      fun _ h => absurd h (Nat.not_lt_zero _)⟩

/-- One count more, where the slot that a new dependency gets is blank. -/
lemma Holds.addDep (h : v.Holds c) (hs : c a = 0 → (v.deps v.numDeps).numUsed = 0) :
    (v.addDep a).Holds (Function.update c a (c a + 1)) := by
  by_cases ha : 0 < c a
  · rw [Vertex.addDep, if_pos (h.dependsOn_iff.mpr ha)]
    have hv : ∀ j, (if j < v.numDeps ∧ (v.deps j).v = a then (⟨a, (v.deps j).numUsed + 1⟩ : Dep) else v.deps j).v =
        (v.deps j).v := fun j => by
      split_ifs with hj
      · exact hj.2.symm
      · rfl
    refine ⟨fun i hi => ?_, fun x hx => ?_, fun i hi j hj hij => ?_⟩
    · dsimp only at hi ⊢
      obtain ⟨hpos, hused⟩ := h.used i hi
      rw [hv]
      by_cases hia : (v.deps i).v = a
      · rw [if_pos ⟨hi, hia⟩, hia, Function.update_self]
        refine ⟨Nat.succ_pos _, ?_⟩
        rw [hused, hia]
        exact (Nat.cast_succ _).symm
      · rw [if_neg fun hj => hia hj.2, Function.update_of_ne hia]
        exact ⟨hpos, hused⟩
    · have hc : 0 < c x := by
        by_cases hxa : x = a
        · rwa [hxa]
        · rwa [Function.update_of_ne hxa] at hx
      obtain ⟨i, hi, hix⟩ := h.all x hc
      exact ⟨i, hi, (hv i).trans hix⟩
    · dsimp only at hij
      rw [hv, hv] at hij
      exact h.inj i hi j hj hij
  · have hzero : c a = 0 := Nat.eq_zero_of_not_pos ha
    rw [Vertex.addDep, if_neg (Bool.eq_false_iff.mp (h.dependsOn_false hzero))]
    have hne : ∀ i < v.numDeps, (v.deps i).v ≠ a := by
      rintro i hi rfl
      exact ha (h.used i hi).1
    refine ⟨fun i hi => ?_, fun x hx => ?_, fun i hi j hj hij => ?_⟩
    · dsimp only at hi ⊢
      rcases Nat.lt_succ_iff_lt_or_eq.mp hi with hi | rfl
      · rw [Function.update_of_ne hi.ne, Function.update_of_ne (hne i hi)]
        exact h.used i hi
      · rw [Function.update_self, Function.update_self, hs hzero, hzero]
        exact ⟨one_pos, rfl⟩
    · dsimp only
      by_cases hxa : x = a
      · exact ⟨v.numDeps, Nat.lt_succ_self _, by rw [Function.update_self, hxa]⟩
      · rw [Function.update_of_ne hxa] at hx
        obtain ⟨i, hi, hix⟩ := h.all x hx
        exact ⟨i, Nat.lt_succ_of_lt hi, by rw [Function.update_of_ne hi.ne, hix]⟩
    · dsimp only at hi hj hij
      rcases Nat.lt_succ_iff_lt_or_eq.mp hi with hi | rfl <;> rcases Nat.lt_succ_iff_lt_or_eq.mp hj with hj | rfl
      · rw [Function.update_of_ne hi.ne, Function.update_of_ne hj.ne] at hij
        exact h.inj i hi j hj hij
      · rw [Function.update_of_ne hi.ne, Function.update_self] at hij
        exact absurd hij (hne i hi)
      · rw [Function.update_self, Function.update_of_ne hj.ne] at hij
        exact absurd hij.symm (hne j hj)
      · rfl

lemma findDep_spec (depend : ℕ) (h : ∃ i < v.numDeps, (v.deps i).v = a) :
    v.findDep a depend < v.numDeps ∧ (v.deps (v.findDep a depend)).v = a := by
  have hloop : ∀ k, (∀ i < k, (v.deps i).v ≠ a) ∨
      (List.range k).foldl (fun depend i => if (v.deps i).v = a then i else depend) depend < k ∧
        (v.deps ((List.range k).foldl (fun depend i => if (v.deps i).v = a then i else depend) depend)).v = a := by
    intro k
    induction k with
    | zero => exact .inl fun _ h => absurd h (Nat.not_lt_zero _)
    | succ k ih =>
      rw [List.range_succ, List.foldl_append, List.foldl_cons, List.foldl_nil]
      split_ifs with hk
      · exact .inr ⟨Nat.lt_succ_self k, hk⟩
      · rcases ih with hnone | ⟨hlt, heq⟩
        · refine .inl fun i hi => ?_
          rcases Nat.lt_succ_iff_lt_or_eq.mp hi with hi | rfl
          · exact hnone i hi
          · exact hk
        · exact .inr ⟨Nat.lt_succ_of_lt hlt, heq⟩
  rcases hloop v.numDeps with hnone | hfound
  · obtain ⟨i, hi, hia⟩ := h
    exact absurd hia (hnone i hi)
  · exact hfound

/-- One count less. -/
lemma Holds.dropDep (h : v.Holds c) (ha : 0 < c a) (depend : ℕ) :
    (v.dropDep (v.findDep a depend)).Holds (Function.update c a (c a - 1)) := by
  obtain ⟨hlt, hv⟩ := findDep_spec depend (h.all a ha)
  generalize v.findDep a depend = k at hlt hv
  obtain ⟨-, hused⟩ := h.used k hlt
  rw [hv] at hused
  have hother : ∀ i < v.numDeps, i ≠ k → (v.deps i).v ≠ a := fun i hi hik hia =>
    hik (h.inj i hi k hlt (hia.trans hv.symm))
  by_cases hone : c a = 1
  · rw [Vertex.dropDep, if_pos (by rw [hused, hone]; rfl)]
    have hshift : ∀ i < v.numDeps - 1, (if k ≤ i ∧ i + 1 < v.numDeps then v.deps (i + 1) else v.deps i) =
        v.deps (if k ≤ i then i + 1 else i) := fun i hi => by
      by_cases hki : k ≤ i
      · rw [if_pos ⟨hki, by omega⟩, if_pos hki]
      · rw [if_neg fun hi => hki hi.1, if_neg hki]
    have hindex : ∀ i < v.numDeps - 1, (if k ≤ i then i + 1 else i) < v.numDeps ∧
        (if k ≤ i then i + 1 else i) ≠ k := by
      intro i hi
      split_ifs <;> omega
    refine ⟨fun i hi => ?_, fun x hx => ?_, fun i hi j hj hij => ?_⟩
    · dsimp only at hi ⊢
      rw [hshift i hi, Function.update_of_ne (hother _ (hindex i hi).1 (hindex i hi).2)]
      exact h.used _ (hindex i hi).1
    · dsimp only
      have hxa : x ≠ a := by
        rintro rfl
        rw [Function.update_self, hone] at hx
        exact absurd hx (lt_irrefl 0)
      rw [Function.update_of_ne hxa] at hx
      obtain ⟨i, hi, hix⟩ := h.all x hx
      have hik : i ≠ k := by
        rintro rfl
        exact hxa (hix.symm.trans hv)
      by_cases hki : k < i
      · refine ⟨i - 1, by omega, ?_⟩
        rw [hshift (i - 1) (by omega), if_pos (by omega), Nat.sub_add_cancel (by omega), hix]
      · refine ⟨i, by omega, ?_⟩
        rw [hshift i (by omega), if_neg (by omega), hix]
    · dsimp only at hi hj hij
      rw [hshift i hi, hshift j hj] at hij
      have heq := h.inj _ (hindex i hi).1 _ (hindex j hj).1 hij
      split_ifs at heq <;> omega
  · rw [Vertex.dropDep, if_neg (by rw [hused]; exact_mod_cast hone)]
    have hdep : ∀ i, (Function.update v.deps k ⟨(v.deps k).v, (v.deps k).numUsed - 1⟩ i).v = (v.deps i).v :=
        fun i => by
      by_cases hik : i = k
      · rw [hik, Function.update_self]
      · rw [Function.update_of_ne hik]
    refine ⟨fun i hi => ?_, fun x hx => ?_, fun i hi j hj hij => ?_⟩
    · dsimp only at hi ⊢
      rw [hdep]
      by_cases hik : i = k
      · subst hik
        rw [Function.update_self, hv, Function.update_self, hused]
        dsimp only
        exact ⟨by omega, by omega⟩
      · rw [Function.update_of_ne hik, Function.update_of_ne (hother i hi hik)]
        exact h.used i hi
    · have hc : 0 < c x := by
        by_cases hxa : x = a
        · rwa [hxa]
        · rwa [Function.update_of_ne hxa] at hx
      obtain ⟨i, hi, hix⟩ := h.all x hc
      exact ⟨i, hi, (hdep i).trans hix⟩
    · dsimp only at hij
      rw [hdep, hdep] at hij
      exact h.inj i hi j hj hij

lemma Holds.congr {w : Vertex n} (h : v.Holds c) (hdeps : ∀ i < v.numDeps, w.deps i = v.deps i)
    (hnum : w.numDeps = v.numDeps) : w.Holds c := by
  refine ⟨fun i hi => ?_, fun a ha => ?_, fun i hi j hj hij => ?_⟩
  · rw [hnum] at hi
    rw [hdeps i hi]
    exact h.used i hi
  · obtain ⟨i, hi, hia⟩ := h.all a ha
    exact ⟨i, by rwa [hnum], by rwa [hdeps i hi]⟩
  · rw [hnum] at hi hj
    rw [hdeps i hi, hdeps j hj] at hij
    exact h.inj i hi j hj hij

lemma addDep_frame : (v.addDep a).addr = v.addr ∧ (v.addDep a).temp = v.temp ∧
    (v.addDep a).numUsingVertex = v.numUsingVertex ∧
    (v.temp = true → (v.addDep a).numTempDepend = v.numTempDepend) := by
  rw [addDep]
  split_ifs with hdep htemp
  · exact ⟨rfl, rfl, rfl, fun _ => rfl⟩
  · exact ⟨rfl, rfl, rfl, fun _ => rfl⟩
  · exact ⟨rfl, rfl, rfl, fun h => absurd h htemp⟩

def Settled (v : Vertex n) : Prop := v.temp = false ∧ v.numTempDepend = 0

lemma settled_setPermanent (h : v.temp = true → v.numTempDepend = 0) : v.setPermanent.Settled := by
  rw [setPermanent]
  split_ifs with ht
  · exact ⟨rfl, h ht⟩
  · exact ⟨Bool.eq_false_iff.mpr ht, rfl⟩

lemma setPermanent_frame : v.setPermanent.addr = v.addr ∧ v.setPermanent.numUsingVertex = v.numUsingVertex ∧
    v.setPermanent.deps = v.deps ∧ v.setPermanent.numDeps = v.numDeps := by
  rw [setPermanent]
  split_ifs <;> exact ⟨rfl, rfl, rfl, rfl⟩

lemma removeTemp_eq (h : v.temp = false) : ∃ w, v.removeTemp = some w ∧ w.addr = v.addr ∧ w.Settled ∧
    w.numUsingVertex = v.numUsingVertex - 1 ∧ w.numDeps = v.numDeps - v.numTempDepend ∧
    ∀ i < w.numDeps, w.deps i = v.deps i := by
  have hrem : v.removeTemp = some _ := if_neg (Bool.eq_false_iff.mp h)
  exact ⟨_, hrem, rfl, ⟨h, rfl⟩, rfl, rfl, fun i hi => if_neg fun hle => absurd hi (not_lt.mpr hle.1)⟩

lemma addDep_new (hdep : v.dependsOn a = false) (htemp : v.temp = false) :
    (v.addDep a).numDeps = v.numDeps + 1 ∧ (v.addDep a).numTempDepend = v.numTempDepend + 1 ∧
      ∀ i < v.numDeps, (v.addDep a).deps i = v.deps i := by
  rw [addDep, if_neg (Bool.eq_false_iff.mp hdep)]
  exact ⟨rfl, if_neg (Bool.eq_false_iff.mp htemp), fun i hi => Function.update_of_ne hi.ne _ _⟩

lemma Holds.removeTemp_use (h : v.Holds c) (hs : v.Settled) : ∃ w, v.use.removeTemp = some w ∧
    w.Holds c ∧ w.Settled ∧
    w.addr = v.addr ∧ w.numUsingVertex = v.numUsingVertex := by
  obtain ⟨w, hw, haddr, hsettled, husing, hnum, hdeps⟩ := @removeTemp_eq n v.use hs.1
  change w.numDeps = v.numDeps - v.numTempDepend at hnum
  rw [hs.2, Nat.sub_zero] at hnum
  refine ⟨w, hw, h.congr (fun i hi => hdeps i (by rwa [hnum])) hnum, hsettled, haddr, ?_⟩
  rw [husing]
  exact add_sub_cancel_right _ _

lemma Holds.removeTemp_addDep (h : v.Holds c) (hs : v.Settled) (ha : c a = 0) :
    ∃ w, (v.use.addDep a).removeTemp = some w ∧ w.Holds c ∧ w.Settled ∧ w.addr = v.addr ∧
      w.numUsingVertex = v.numUsingVertex := by
  have huse : v.use.dependsOn a = false := h.dependsOn_false ha
  obtain ⟨hframe, htemp, hadd, -⟩ := @addDep_frame n v.use a
  obtain ⟨hnumAdd, htempAdd, hdepsAdd⟩ := addDep_new huse hs.1
  obtain ⟨w, hw, haddr, hsettled, husing, hnum, hdeps⟩ := @removeTemp_eq n (v.use.addDep a) (htemp.trans hs.1)
  have htd : v.use.numTempDepend = 0 := hs.2
  rw [hnumAdd, htempAdd, htd, zero_add, Nat.add_sub_cancel] at hnum
  refine ⟨w, hw, h.congr (fun i hi => ?_) hnum, hsettled, haddr.trans hframe, ?_⟩
  · rw [hdeps i (by rwa [hnum])]
    exact hdepsAdd i hi
  · rw [husing, hadd]
    exact add_sub_cancel_right _ _

end Vertex

end OpenSM.Lash
