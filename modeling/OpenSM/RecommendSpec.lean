import OpenSM.RecommendPath

/-! Whatever mode is on, a recommended port is one of the healthy linked ports with the least hop
count, and one is recommended whenever there is such a port. -/

namespace OpenSM.Switch

variable {n m : ℕ} {u : Subnet n m}

structure Candidate (u : Subnet n m) (H : Hops n) (s : Fin n) (baseLid p : ℕ) : Prop where
  ne_zero : p ≠ 0
  least : getHopCount u.toFabric H s baseLid p = getLeastHops u.toFabric H s baseLid
  healthy : u.healthy s p = true
  linked : ∃ rem, u.remote s p = some rem

/-- What the first pass keeps true of its variables, whichever ports it takes from `C`. -/
structure Good (C : ℕ → Prop) (z : Sel n) : Prop where
  best : z.portFound = true → C z.bestPort
  otherSys : z.bestPortOtherSys = 0 ∨ C z.bestPortOtherSys
  otherNode : z.bestPortOtherNode = 0 ∨ C z.bestPortOtherNode
  paths : ∀ p ∈ z.portPaths, C p.portNum
  scatter : ∀ p ∈ z.scatterPossible, C p
  found : z.portFound = true → z.scatterPossible ≠ [] ∧ ∃ p ∈ z.portPaths, p.pathCount < maxPaths
  least : z.leastPaths ≤ maxPaths

variable {C : ℕ → Prop}

lemma good_start : Good C ({} : Sel n) := by
  constructor <;> simp

lemma Good.noteOtherSys {z : Sel n} {p k : ℕ} (hz : Good C z) (hp : C p) :
    Good C (noteOtherSys p k z) := by
  unfold Switch.noteOtherSys
  split_ifs
  · exact ⟨hz.best, Or.inr hp, hz.otherNode, hz.paths, hz.scatter, hz.found, hz.least⟩
  · exact hz

lemma Good.noteOtherNode {z : Sel n} {p k : ℕ} (hz : Good C z) (hp : C p) :
    Good C (noteOtherNode p k z) := by
  unfold Switch.noteOtherNode
  split_ifs
  · exact ⟨hz.best, hz.otherSys, Or.inr hp, hz.paths, hz.scatter, hz.found, hz.least⟩
  · exact hz

lemma Good.lookDor {a : Args} {priv : List (RemoteNode n)} {rem : Remote n m} {z z' : Sel n}
    (hz : Good C z) (h : lookDor u a priv rem z = some z') : Good C z' := by
  unfold Switch.lookDor at h
  dsimp only at h
  split_ifs at h
  all_goals
    cases h
    exact ⟨hz.best, hz.otherSys, hz.otherNode, hz.paths, hz.scatter, hz.found, hz.least⟩

lemma Good.lookLmc {priv : List (RemoteNode n)} {p k : ℕ} {rem : Remote n m} {z : Sel n}
    (hz : Good C z) (hp : C p) : Good C (lookLmc u priv p k rem z) := by
  unfold Switch.lookLmc
  split
  · obtain ⟨h₁, h₂, h₃, h₄, h₅, h₆, h₇⟩ := hz.noteOtherSys (k := k) hp
    exact ⟨h₁, h₂, h₃, h₄, h₅, h₆, h₇⟩
  · split
    · obtain ⟨h₁, h₂, h₃, h₄, h₅, h₆, h₇⟩ := hz.noteOtherNode (k := k) hp
      exact ⟨h₁, h₂, h₃, h₄, h₅, h₆, h₇⟩
    · exact ⟨hz.best, hz.otherSys, hz.otherNode, hz.paths, hz.scatter, hz.found, hz.least⟩

lemma Good.lookRemote {a : Args} {priv : List (RemoteNode n)} {p k : ℕ} {rem : Remote n m}
    {z z' : Sel n} (hz : Good C z) (hp : C p) (h : lookRemote u a priv p k rem z = some z') :
    Good C z' := by
  unfold Switch.lookRemote at h
  split_ifs at h
  · exact hz.lookDor h
  · cases h
    exact hz.lookLmc hp
  · cases h
    exact hz

lemma Good.recordPort {a : Args} {p k : ℕ} {z : Sel n} (hz : Good C z) (hp : C p) :
    Good C (recordPort a p k z) := by
  refine ⟨hz.best, hz.otherSys, hz.otherNode, ?_, hz.scatter, ?_, hz.least⟩
  · intro q hq
    rcases List.mem_append.mp hq with hq | hq
    · exact hz.paths q hq
    · rw [List.mem_singleton.mp hq]
      exact hp
  · intro hf
    obtain ⟨hs, q, hq, hlt⟩ := hz.found hf
    exact ⟨hs, q, List.mem_append_left _ hq, hlt⟩

lemma Good.comparePort {a : Args} {p k : ℕ} {z : Sel n} (hz : Good C z) (hp : C p)
    (hk : ∃ q ∈ z.portPaths, q.pathCount = k) : Good C (comparePort a p k z) := by
  unfold Switch.comparePort
  split_ifs with hlt hs
  · obtain ⟨q, hq, rfl⟩ := hk
    have hmax : q.pathCount < maxPaths := hlt.trans_le hz.least
    exact ⟨fun _ => hp, hz.otherSys, hz.otherNode, hz.paths, by simpa using hp,
      fun _ => ⟨by simp, q, hq, hmax⟩, hmax.le⟩
  · refine ⟨hz.best, hz.otherSys, hz.otherNode, hz.paths, ?_, ?_, hz.least⟩
    · intro q hq
      rcases List.mem_append.mp hq with hq | hq
      · exact hz.scatter q hq
      · rw [List.mem_singleton.mp hq]
        exact hp
    · exact fun hf => ⟨by simp, (hz.found hf).2⟩
  · split
    · exact ⟨fun _ => hp, hz.otherSys, hz.otherNode, hz.paths, hz.scatter, hz.found, hz.least⟩
    · exact hz
  · exact hz

lemma Good.takePort {a : Args} {p k : ℕ} {z : Sel n} (hz : Good C z) (hp : C p) :
    Good C (takePort a p k z) :=
  (hz.recordPort hp).comparePort hp ⟨_, List.mem_append_right _ (List.mem_singleton_self _), rfl⟩

lemma acceptable_eq_some {H : Hops n} {s : Fin n} {b p : ℕ} {rem : Remote n m}
    (h : acceptable u H s b (getLeastHops u.toFabric H s b) p = some rem) : Candidate u H s b p := by
  unfold acceptable at h
  split_ifs at h with h₀ h₁
  push Not at h₀
  exact ⟨h₀.1, h₀.2, h₁, rem, h⟩

lemma Candidate.acceptable {H : Hops n} {s : Fin n} {b p : ℕ} (h : Candidate u H s b p) :
    ∃ rem, acceptable u H s b (getLeastHops u.toFabric H s b) p = some rem := by
  obtain ⟨rem, hrem⟩ := h.linked
  refine ⟨rem, ?_⟩
  unfold Switch.acceptable
  rw [if_neg, if_pos h.healthy, hrem]
  push Not
  exact ⟨h.ne_zero, h.least⟩

lemma Good.selectStep {H : Hops n} {prof : ℕ → ℕ} {priv : List (RemoteNode n)} {a : Args} {s : Fin n}
    {b i : ℕ} {z : Sel n} (hz : Good (Candidate u H s b) z) :
    Good (Candidate u H s b)
      (selectStep u H prof priv a s b (getLeastHops u.toFabric H s b) z i) := by
  unfold Switch.selectStep
  dsimp only
  split
  · exact hz
  · rename_i rem hacc
    have hc := acceptable_eq_some hacc
    split
    · exact hz
    · rename_i z' hlook
      exact (hz.lookRemote hc hlook).takePort hc

structure Shifted (C : ℕ → Prop) (seen : List PortPath) (z : Sel n) : Prop where
  best : z.leastPaths < maxPaths → C z.bestPort
  otherSys : z.bestPortOtherSys = 0 ∨ C z.bestPortOtherSys
  otherNode : z.bestPortOtherNode = 0 ∨ C z.bestPortOtherNode
  scatter : ∀ p ∈ z.scatterPossible, C p
  nonempty : z.scatterPossible ≠ []
  le : ∀ p ∈ seen, z.leastPaths ≤ p.pathCount

lemma Shifted.shiftOther {seen : List PortPath} {z : Sel n} {p : PortPath} (hz : Shifted C seen z)
    (hp : C p.portNum) : Shifted C seen (shiftOther p z) := by
  unfold Switch.shiftOther Switch.noteOtherSys Switch.noteOtherNode
  split_ifs
  · exact ⟨hz.best, Or.inr hp, hz.otherNode, hz.scatter, hz.nonempty, hz.le⟩
  · exact hz
  · exact ⟨hz.best, hz.otherSys, Or.inr hp, hz.scatter, hz.nonempty, hz.le⟩
  · exact hz
  · exact hz

lemma Shifted.shiftStep {seen : List PortPath} {lmc : Bool} {z : Sel n} {p : PortPath}
    (hz : Shifted C seen z) (hp : C p.portNum) : Shifted C (seen ++ [p]) (shiftStep lmc z p) := by
  unfold Switch.shiftStep
  have hw : Shifted C seen (if lmc then Switch.shiftOther p z else z) := by
    split_ifs
    · exact hz.shiftOther hp
    · exact hz
  generalize (if lmc then Switch.shiftOther p z else z) = w at hw
  obtain ⟨h₁, h₂, h₃, h₄, h₅, h₆⟩ := hw
  dsimp only
  have hmem : ∀ x, (∀ q ∈ seen, x ≤ q.pathCount) → x ≤ p.pathCount →
      ∀ q ∈ seen ++ [p], x ≤ q.pathCount := by
    intro x hx hxp q hq
    rcases List.mem_append.mp hq with hq | hq
    · exact hx q hq
    · rw [List.mem_singleton.mp hq]
      exact hxp
  split_ifs with hk hl hl
  · exact ⟨fun _ => hp, h₂, h₃, h₄, h₅, hmem _ (fun q hq => hk.le.trans (h₆ q hq)) le_rfl⟩
  · exact ⟨fun _ => hp, h₂, h₃, h₄, h₅, hmem _ (fun q hq => hk.le.trans (h₆ q hq)) le_rfl⟩
  · exact ⟨fun _ => hp, h₂, h₃, h₄, h₅, hmem _ h₆ (not_lt.mp hk)⟩
  · exact ⟨h₁, h₂, h₃, h₄, h₅, hmem _ h₆ (not_lt.mp hk)⟩

/-- The second pass starts anywhere in the list of paths and still visits all of them. -/
lemma Good.shiftPass (lmc : Bool) {z : Sel n} (hz : Good C z) (hf : z.portFound = true) :
    ∃ w, shiftPass lmc z = w ∧ Shifted C z.portPaths w := by
  set count := z.portPaths.length with hcount
  set base := z.totalPaths / count
  set z₀ : Sel n := { z with leastPaths := maxPaths, leastPathsOtherSys := maxPaths
                             leastPathsOtherNodes := maxPaths, leastForwardedTo := maxPaths
                             bestPort := 0, bestPortOtherSys := 0, bestPortOtherNode := 0 }
  obtain ⟨next, hnext, hpass⟩ : ∃ next : Sel n → ℕ → Sel n,
      (∀ w i p, z.portPaths[(base + i) % count]? = some p → next w i = Switch.shiftStep lmc w p) ∧
        Switch.shiftPass lmc z = (List.range count).foldl next z₀ := by
    refine ⟨_, fun w i p hp => ?_, rfl⟩
    rw [hp]
  refine ⟨_, hpass, ?_⟩
  have h₀ : Shifted C [] z₀ :=
    ⟨fun h => absurd h (lt_irrefl _), Or.inl rfl, Or.inl rfl, hz.scatter, (hz.found hf).1, by simp⟩
  have hpos : 0 < count := by
    obtain ⟨p, hp, -⟩ := (hz.found hf).2
    exact List.length_pos_of_mem hp
  have hrun : ∀ k ≤ count, ∃ seen, Shifted C seen ((List.range k).foldl next z₀) ∧
      ∀ i < k, ∀ p, z.portPaths[(base + i) % count]? = some p → p ∈ seen := by
    intro k hk
    induction k with
    | zero => exact ⟨[], h₀, by simp⟩
    | succ k ih =>
      obtain ⟨seen, hseen, hall⟩ := ih (by omega)
      have hlt : (base + k) % count < z.portPaths.length := Nat.mod_lt _ hpos
      have hget := List.getElem?_eq_getElem hlt
      set p := z.portPaths[(base + k) % count]
      have hp : C p.portNum := hz.paths p (List.getElem_mem hlt)
      refine ⟨seen ++ [p], ?_, ?_⟩
      · rw [List.range_succ, List.foldl_append]
        simp only [List.foldl_cons, List.foldl_nil, hnext _ _ _ hget]
        exact hseen.shiftStep hp
      · intro i hi q hq
        rcases Nat.lt_succ_iff_lt_or_eq.mp hi with hi | rfl
        · exact List.mem_append_left _ (hall i hi q hq)
        · rw [← Option.some.inj (hget.symm.trans hq)]
          exact List.mem_append_right _ (List.mem_singleton_self _)
  obtain ⟨seen, hseen, hall⟩ := hrun count le_rfl
  refine ⟨hseen.best, hseen.otherSys, hseen.otherNode, hseen.scatter, hseen.nonempty, ?_⟩
  intro p hp
  obtain ⟨j, hj, rfl⟩ := List.mem_iff_getElem.mp hp
  -- the round that looks at index `j`
  have hidx : (base + (j + (count - base % count)) % count) % count = j := by
    have hb := Nat.mod_lt base hpos
    have h₁ : base + (j + (count - base % count)) = j + count * (base / count + 1) := by
      have := Nat.div_add_mod base count
      rw [mul_add, mul_one]
      omega
    rw [Nat.add_mod_mod, h₁, Nat.add_mul_mod_self_left, Nat.mod_eq_of_lt hj]
  have hmem : z.portPaths[j] ∈ seen := by
    refine hall ((j + (count - base % count)) % count) (Nat.mod_lt _ hpos) _ ?_
    rw [hidx]
    exact List.getElem?_eq_getElem hj
  exact hseen.le _ hmem

lemma getD_mod_mem {l : List ℕ} (hl : l ≠ []) (k d : ℕ) : l.getD (k % l.length) d ∈ l := by
  have hlt : k % l.length < l.length := Nat.mod_lt _ (List.length_pos_of_ne_nil hl)
  rw [List.getD_eq_getElem _ _ hlt]
  exact List.getElem_mem hlt

lemma finalPort_mem {a : Args} {random : ℕ} {z : Sel n} (hb : C z.bestPort)
    (hs : z.bestPortOtherSys = 0 ∨ C z.bestPortOtherSys)
    (hn : z.bestPortOtherNode = 0 ∨ C z.bestPortOtherNode) (hc : ∀ p ∈ z.scatterPossible, C p)
    (hne : z.scatterPossible ≠ []) : C (finalPort a random z) := by
  unfold finalPort
  split_ifs with h₁ h₂ h₃ h₄
  · exact hs.resolve_left h₂
  · exact hn.resolve_left h₃
  · exact hb
  · exact hc _ (getD_mod_mem hne _ _)
  · exact hb

lemma selectPort_of_found (H : Hops n) (prof : ℕ → ℕ) (priv : List (RemoteNode n)) (a : Args)
    (random : ℕ) (s : Fin n) (b : ℕ)
    (hf : (firstPass u H prof priv a s b (getLeastHops u.toFabric H s b)).portFound = true) :
    Candidate u H s b (selectPort u H prof priv a random s b (getLeastHops u.toFabric H s b)) := by
  have hz : Good (Candidate u H s b) (firstPass u H prof priv a s b (getLeastHops u.toFabric H s b)) :=
    List.foldlRecOn _ _ good_start fun z hz i _ => hz.selectStep
  unfold selectPort
  dsimp only
  generalize firstPass u H prof priv a s b (getLeastHops u.toFabric H s b) = z at hz hf
  rw [hf]
  simp only [Bool.not_true, Bool.false_eq_true, if_false]
  split_ifs with hshift
  · obtain ⟨w, hw, hsw⟩ := hz.shiftPass a.routingForLmc hf
    rw [hw]
    obtain ⟨p, hp, hlt⟩ := (hz.found hf).2
    exact finalPort_mem (hsw.best ((hsw.le p hp).trans_lt hlt)) hsw.otherSys hsw.otherNode
      hsw.scatter hsw.nonempty
  · exact finalPort_mem (hz.best hf) hz.otherSys hz.otherNode hz.scatter (hz.found hf).1

lemma selectPort_spec (H : Hops n) (prof : ℕ → ℕ) (priv : List (RemoteNode n)) (a : Args)
    (random : ℕ) (s : Fin n) (b : ℕ) :
    selectPort u H prof priv a random s b (getLeastHops u.toFabric H s b) = noPath ∨
      Candidate u H s b
        (selectPort u H prof priv a random s b (getLeastHops u.toFabric H s b)) := by
  cases hf : (firstPass u H prof priv a s b (getLeastHops u.toFabric H s b)).portFound with
  | false =>
    left
    unfold selectPort
    simp [hf]
  | true => exact Or.inr (selectPort_of_found H prof priv a random s b hf)

/-- As long as no port has been found nothing has been fixed that could rule one out. -/
def Fresh (z : Sel n) : Prop := z.portFound = false → z.leastPaths = maxPaths ∧ z.remNodeFirst = none

lemma noteOtherSys_frame (p k : ℕ) (z : Sel n) :
    (noteOtherSys p k z).leastPaths = z.leastPaths ∧ (noteOtherSys p k z).portFound = z.portFound := by
  unfold noteOtherSys
  split_ifs <;> exact ⟨rfl, rfl⟩

lemma noteOtherNode_frame (p k : ℕ) (z : Sel n) :
    (noteOtherNode p k z).leastPaths = z.leastPaths ∧
      (noteOtherNode p k z).portFound = z.portFound := by
  unfold noteOtherNode
  split_ifs <;> exact ⟨rfl, rfl⟩

lemma lookLmc_frame (priv : List (RemoteNode n)) (p k : ℕ) (rem : Remote n m) (z : Sel n) :
    (lookLmc u priv p k rem z).leastPaths = z.leastPaths ∧
      (lookLmc u priv p k rem z).portFound = z.portFound := by
  unfold lookLmc
  split
  · exact noteOtherSys_frame p k z
  · split
    · exact noteOtherNode_frame p k z
    · exact ⟨rfl, rfl⟩

lemma lookRemote_frame {a : Args} {priv : List (RemoteNode n)} {p k : ℕ} {rem : Remote n m}
    {z z' : Sel n} (h : lookRemote u a priv p k rem z = some z') :
    z'.leastPaths = z.leastPaths ∧ z'.portFound = z.portFound := by
  unfold lookRemote at h
  split_ifs at h
  · unfold lookDor at h
    dsimp only at h
    split_ifs at h
    · cases h
      exact ⟨rfl, rfl⟩
    · cases h
      exact ⟨rfl, rfl⟩
  · cases h
    exact lookLmc_frame priv p k rem z
  · cases h
    exact ⟨rfl, rfl⟩

lemma exists_lookRemote (a : Args) (priv : List (RemoteNode n)) (p k : ℕ) (rem : Remote n m)
    {z : Sel n} (h : z.remNodeFirst = none) : ∃ z', lookRemote u a priv p k rem z = some z' := by
  unfold lookRemote lookDor
  dsimp only
  rw [h]
  split_ifs with h₁ h₂ h₃ h₄
  · exact absurd rfl h₂.1
  all_goals exact ⟨_, rfl⟩

lemma portFound_takePort {a : Args} {p k : ℕ} {z : Sel n}
    (h : z.portFound = true ∨ k < z.leastPaths) : (takePort a p k z).portFound = true := by
  unfold takePort comparePort
  split_ifs with h₁ h₂ h₃
  · rfl
  · exact h.resolve_right h₁
  · split
    · exact h.resolve_right h₁
    · exact h.resolve_right h₁
  · exact h.resolve_right h₁

section Exists

variable {H : Hops n} {prof : ℕ → ℕ} {priv : List (RemoteNode n)} {a : Args} {s : Fin n} {b : ℕ}

lemma portFound_selectStep_mono {z : Sel n} {i : ℕ} (hz : z.portFound = true) :
    (selectStep u H prof priv a s b (getLeastHops u.toFabric H s b) z i).portFound = true := by
  unfold selectStep
  dsimp only
  split
  · exact hz
  · split
    · exact hz
    · rename_i z' hlook
      exact portFound_takePort (Or.inl ((lookRemote_frame hlook).2.trans hz))

lemma portFound_selectStep {z : Sel n} {i : ℕ} (hz : Fresh z) (hprof : ∀ p, prof p < maxPaths)
    (hc : Candidate u H s b (getDimnPort u s (i % u.numPorts s))) :
    (selectStep u H prof priv a s b (getLeastHops u.toFabric H s b) z i).portFound = true := by
  cases hf : z.portFound with
  | true => exact portFound_selectStep_mono hf
  | false =>
    obtain ⟨hleast, hfirst⟩ := hz hf
    obtain ⟨rem, hrem⟩ := hc.acceptable
    obtain ⟨z', hz'⟩ := exists_lookRemote (u := u) a priv (getDimnPort u s (i % u.numPorts s))
      (prof (getDimnPort u s (i % u.numPorts s))) rem hfirst
    have hframe := lookRemote_frame hz'
    unfold selectStep
    simp only [hrem, hz']
    refine portFound_takePort (Or.inr ?_)
    rw [hframe.1, hleast]
    exact hprof _

lemma fresh_selectStep {z : Sel n} {i : ℕ} (hz : Fresh z) (hprof : ∀ p, prof p < maxPaths) :
    Fresh (selectStep u H prof priv a s b (getLeastHops u.toFabric H s b) z i) := by
  intro hf
  by_cases hc : Candidate u H s b (getDimnPort u s (i % u.numPorts s))
  · rw [portFound_selectStep hz hprof hc] at hf
    cases hf
  · have hnone : acceptable u H s b (getLeastHops u.toFabric H s b)
        (getDimnPort u s (i % u.numPorts s)) = none := by
      by_contra hne
      obtain ⟨rem, hrem⟩ := Option.ne_none_iff_exists'.mp hne
      exact hc (acceptable_eq_some hrem)
    unfold selectStep at hf ⊢
    simp only [hnone] at hf ⊢
    exact hz hf

lemma getDimnPort_surj {p : ℕ} (hp : p < u.numPorts s) :
    ∃ k < u.numPorts s, getDimnPort u s k = p := by
  unfold getDimnPort setSearchOrderingPorts
  split_ifs with h
  · exact ⟨p, hp, rfl⟩
  · push Not at h
    obtain ⟨-, hin, hnd⟩ := h
    set ps := u.orderedPorts s
    set order := 0 :: ps ++ (List.range' 1 (u.numPorts s - 1)).filter fun p => p ∉ ps
    have hmem : ∀ q, q ∈ order ↔ q < u.numPorts s := by
      intro q
      simp only [order, List.cons_append, List.mem_cons, List.mem_append, List.mem_filter,
        List.mem_range'_1, decide_eq_true_eq]
      constructor
      · rintro (rfl | hq | hq)
        · exact u.numPorts_pos s
        · exact (hin q hq).2
        · omega
      · intro hq
        by_cases hq0 : q = 0
        · exact Or.inl hq0
        · by_cases hqs : q ∈ ps
          · exact Or.inr (Or.inl hqs)
          · exact Or.inr (Or.inr ⟨by omega, hqs⟩)
    have hnodup : order.Nodup := by
      refine List.Nodup.append (List.nodup_cons.mpr ⟨fun h0 => ?_, hnd⟩)
        ((List.nodup_range' ..).filter _) ?_
      · exact absurd (hin 0 h0).1 (lt_irrefl 0)
      · intro q hq hq'
        simp only [List.mem_filter, List.mem_range'_1, decide_eq_true_eq] at hq'
        rcases List.mem_cons.mp hq with rfl | hq
        · omega
        · exact hq'.2 hq
    have hlen : order.length = u.numPorts s := by
      have hperm : order.Perm (List.range (u.numPorts s)) :=
        (List.perm_ext_iff_of_nodup hnodup List.nodup_range).mpr fun q => by
          rw [hmem, List.mem_range]
      simpa using hperm.length_eq
    obtain ⟨k, hk, hkp⟩ := List.mem_iff_getElem.mp ((hmem p).mpr hp)
    refine ⟨k, hlen ▸ hk, ?_⟩
    simp only [List.getD_eq_getElem _ _ hk, hkp]

lemma exists_round (start : ℕ) {p : ℕ} (hp : p < u.numPorts s) :
    ∃ i ∈ List.range' start (u.numPorts s), getDimnPort u s (i % u.numPorts s) = p := by
  obtain ⟨k, hk, rfl⟩ := getDimnPort_surj hp
  set N := u.numPorts s
  have hN : 0 < N := u.numPorts_pos s
  have hb := Nat.mod_lt start hN
  refine ⟨start + (k + (N - start % N)) % N, ?_, ?_⟩
  · rw [List.mem_range'_1]
    have := Nat.mod_lt (k + (N - start % N)) hN
    omega
  · have h₁ : start + (k + (N - start % N)) = k + N * (start / N + 1) := by
      have := Nat.div_add_mod start N
      rw [mul_add, mul_one]
      omega
    rw [Nat.add_mod_mod, h₁, Nat.add_mul_mod_self_left, Nat.mod_eq_of_lt hk]

lemma portFound_foldl (hprof : ∀ p, prof p < maxPaths) (l : List ℕ) (z : Sel n) (hz : Fresh z)
    (h : z.portFound = true ∨
      ∃ i ∈ l, Candidate u H s b (getDimnPort u s (i % u.numPorts s))) :
    (l.foldl (selectStep u H prof priv a s b (getLeastHops u.toFabric H s b)) z).portFound = true := by
  induction l generalizing z with
  | nil => simpa using h
  | cons i l ih =>
    rw [List.foldl_cons]
    refine ih _ (fresh_selectStep hz hprof) ?_
    rcases h with h | ⟨j, hj, hc⟩
    · exact Or.inl (portFound_selectStep_mono h)
    · rcases List.mem_cons.mp hj with rfl | hj
      · exact Or.inl (portFound_selectStep hz hprof hc)
      · exact Or.inr ⟨j, hj, hc⟩

lemma selectPort_exists (random : ℕ) (hprof : ∀ p, prof p < maxPaths) {p : ℕ}
    (hc : Candidate u H s b p) :
    Candidate u H s b
      (selectPort u H prof priv a random s b (getLeastHops u.toFabric H s b)) := by
  have hp : p < u.numPorts s := by
    obtain ⟨rem, hrem⟩ := hc.linked
    exact (u.remote_port _ _ _ hrem).2
  obtain ⟨i, hi, rfl⟩ := exists_round a.startFrom hp
  have hfound : (firstPass u H prof priv a s b (getLeastHops u.toFabric H s b)).portFound = true :=
    portFound_foldl hprof (List.range' a.startFrom (u.numPorts s)) {} (fun _ => ⟨rfl, rfl⟩)
      (Or.inr ⟨i, hi, hc⟩)
  exact selectPort_of_found H prof priv a random s b hfound

end Exists

lemma existingPort_candidate {H : Hops n} {s : Fin n} {l b p : ℕ}
    (h : existingPort u H s l b (getLeastHops u.toFabric H s b) = some p) : Candidate u H s b p := by
  unfold existingPort at h
  dsimp only at h
  split_ifs at h with hc
  obtain rfl := Option.some.inj h
  obtain ⟨-, hh, hr, hl⟩ := hc
  obtain ⟨rem, hrem⟩ := Option.ne_none_iff_exists'.mp hr
  exact ⟨(u.remote_port _ _ _ hrem).1.ne', hl, hh, rem, hrem⟩

section Via

variable (H : Hops n) (prof : ℕ → ℕ) (priv : List (RemoteNode n)) (a : Args) (random : ℕ) (s : Fin n)
  (l b : ℕ)

lemma recommendVia_spec :
    recommendVia u H prof priv a random s l b = noPath ∨
      getLeastHops u.toFabric H s b ≠ noPath ∧
        Candidate u H s b (recommendVia u H prof priv a random s l b) := by
  unfold recommendVia
  dsimp only
  split_ifs with hno hi
  · exact Or.inl rfl
  · exact (selectPort_spec H prof priv a random s b).imp_right fun h => ⟨hno, h⟩
  · split
    · rename_i p hp
      exact Or.inr ⟨hno, existingPort_candidate hp⟩
    · exact (selectPort_spec H prof priv a random s b).imp_right fun h => ⟨hno, h⟩

lemma recommendVia_exists (hno : getLeastHops u.toFabric H s b ≠ noPath)
    (hprof : ∀ p, prof p < maxPaths) {p : ℕ} (hc : Candidate u H s b p) :
    Candidate u H s b (recommendVia u H prof priv a random s l b) := by
  unfold recommendVia
  dsimp only
  rw [if_neg hno]
  split
  · rename_i q hq
    split_ifs at hq
    exact existingPort_candidate hq
  · exact selectPort_exists random hprof hc

end Via

end OpenSM.Switch
