import OpenSM.Lib.Rounds
import OpenSM.Mesh
import OpenSM.MeshPoly

/-! `get_switch_metric`: the distances between the neighbours of a switch that avoid it. -/

namespace OpenSM.LashMesh

open Polynomial
open Lib.CheckedPoly

variable {P L : Type}

section Code

def LARGE : ℕ := 0x7fffffff

variable (g : Lash P L) (sw : ℕ)

def relaxLink (sw2 : ℕ) (st : (ℕ → ℕ) × ℕ) (l : L) : (ℕ → ℕ) × ℕ :=
  let sw3 := (g.link l).switchId
  if sw3 = sw then st
  else if st.1 sw2 + 1 < st.1 sw3 then (Function.update st.1 sw3 (st.1 sw2 + 1), st.2 + 1)
  else st

def relaxSwitch (st : (ℕ → ℕ) × ℕ) (x : Switch P L × ℕ) : (ℕ → ℕ) × ℕ :=
  if st.1 x.2 = LARGE then st else x.1.node.links.foldl (relaxLink g sw x.2) st

def relaxRound (temp : ℕ → ℕ) : (ℕ → ℕ) × ℕ := g.switches.zipIdx.foldl (relaxSwitch g sw) (temp, 0)

def relax (fuel sw1 : ℕ) : Option (ℕ → ℕ) :=
  Lib.Rounds.loop (relaxRound g sw) fuel (Function.update (fun _ => LARGE) sw1 0)

def rowsOf (s : Switch P L) (temps : List (ℕ → ℕ)) (i j : ℕ) : ℤ :=
  (temps[i]?.bind fun temp => s.node.links[j]?.map fun l => (temp (g.link l).switchId : ℤ)).getD 0

def getSwitchMetric (fuel : ℕ) : Option (Except Fault ((ℕ → ℕ → ℤ) × (ℕ → ℤ))) :=
  g.switches[sw]?.bind fun s =>
    (s.node.links.mapM fun l => relax g sw fuel (g.link l).switchId).map fun temps =>
      (charPoly s.node.links.length (rowsOf g s temps)).map fun p => (rowsOf g s temps, p)

end Code

section Spec

/-- A path of `k` links of which none leads to the switch. -/
inductive Walk (g : Lash P L) (sw : ℕ) : ℕ → ℕ → ℕ → Prop
  | nil (v : ℕ) : Walk g sw 0 v v
  | snoc {k u v : ℕ} {s : Switch P L} {l : L} (h : Walk g sw k u v) (hs : g.switches[v]? = some s)
      (hl : l ∈ s.node.links)
      (hne : (g.link l).switchId ≠ sw) : Walk g sw (k + 1) u (g.link l).switchId

def lengths (g : Lash P L) (sw u v : ℕ) : Set ℕ := {k | Walk g sw k u v}

open Classical in
noncomputable def avoiding (g : Lash P L) (sw u v : ℕ) : ℕ :=
  if (lengths g sw u v).Nonempty then sInf (lengths g sw u v) else LARGE

def neighbour (g : Lash P L) (s : Switch P L) (i : Fin s.node.links.length) : ℕ :=
    (g.link (s.node.links.get i)).switchId

noncomputable def distMatrix (g : Lash P L) (sw : ℕ) (s : Switch P L) :
    Matrix (Fin s.node.links.length) (Fin s.node.links.length) ℤ :=
  fun i j => avoiding g sw (neighbour g s i) (neighbour g s j)

/-- The matrix is that of the distances, the polynomial the characteristic one. -/
def MetricExact (g : Lash P L) (sw : ℕ) (s : Switch P L) (fuel : ℕ) : Prop :=
  ∃ m p, getSwitchMetric g sw fuel = some (.ok (m, p)) ∧
    (∀ i j : Fin s.node.links.length, m i j = avoiding g sw (neighbour g s i) (neighbour g s j)) ∧
    ∀ k ≤ s.node.links.length, p k = (minusX (distMatrix g sw s)).det.coeff k

def TwoWay (g : Lash P L) : Prop :=
  ∀ v (s : Switch P L) l, g.switches[v]? = some s → l ∈ s.node.links → ∃ s',
      g.switches[(g.link l).switchId]? = some s' ∧
    ∃ l' ∈ s'.node.links, (g.link l').switchId = v

lemma twoWay_of {g : Lash P L} (h : ∀ x ∈ g.switches.zipIdx, ∀ l ∈ x.1.node.links, ∃ x' ∈ g.switches.zipIdx,
    x'.2 = (g.link l).switchId ∧ ∃ l' ∈ x'.1.node.links, (g.link l').switchId = x.2) : TwoWay g := by
  intro v s l hs hl
  obtain ⟨x', hx', heq, l', hl', hback⟩ := h (s, v) (List.mem_zipIdx_iff_getElem?.mpr hs) l hl
  exact ⟨x'.1, heq ▸ List.mem_zipIdx_iff_getElem?.mp hx', l', hl', hback⟩

end Spec

section Relaxation

variable {g : Lash P L} {sw u : ℕ}

structure Estimates (g : Lash P L) (sw u : ℕ) (temp : ℕ → ℕ) : Prop where
  le : ∀ v, temp v ≤ LARGE
  self : temp u = 0
  walk : ∀ v, temp v ≠ LARGE → Walk g sw (temp v) u v

def weight (g : Lash P L) (temp : ℕ → ℕ) : ℕ := ∑ v ∈ Finset.range g.switches.length, temp v

lemma weight_update {temp : ℕ → ℕ} {v x : ℕ} (hv : v < g.switches.length) (hx : x < temp v) :
    weight g (Function.update temp v x) < weight g temp := by
  apply Finset.sum_lt_sum
  · intro w _
    rw [Function.update_apply]
    split_ifs with hw
    · rw [hw]
      exact hx.le
    · exact le_rfl
  · refine ⟨v, Finset.mem_range.mpr hv, ?_⟩
    rw [Function.update_self]
    exact hx

lemma relaxLink_counted {v : ℕ} {s : Switch P L} {l : L} (hs : g.switches[v]? = some s) (hl : l ∈ s.node.links)
    (hrange : (g.link l).switchId < g.switches.length) {st : (ℕ → ℕ) × ℕ} (h : Estimates g sw u st.1) :
    Lib.Rounds.Counted (Estimates g sw u) (weight g) st (relaxLink g sw v st l) := by
  rw [relaxLink]
  split_ifs with hsw hlt
  · exact .refl h
  · have hle := h.le (g.link l).switchId
    refine .change ⟨fun w => ?_, ?_, fun w hw => ?_⟩ (weight_update hrange hlt)
    · rw [Function.update_apply]
      split_ifs
      · omega
      · exact h.le w
    · rw [Function.update_apply]
      split_ifs with hu
      · rw [← hu, h.self] at hlt
        exact absurd hlt (Nat.not_lt_zero _)
      · exact h.self
    · rw [Function.update_apply] at hw ⊢
      split_ifs at hw ⊢ with heq
      · rw [heq]
        exact .snoc (h.walk v (by omega)) hs hl hsw
      · exact h.walk w hw
  · exact .refl h

variable (hrange : ∀ s ∈ g.switches, ∀ l ∈ s.node.links, (g.link l).switchId < g.switches.length)

include hrange

lemma relaxSwitch_counted {x : Switch P L × ℕ} (hx : x ∈ g.switches.zipIdx) {st : (ℕ → ℕ) × ℕ}
    (h : Estimates g sw u st.1) : Lib.Rounds.Counted (Estimates g sw u) (weight g) st (relaxSwitch g sw st x) := by
  have hs : g.switches[x.2]? = some x.1 := List.mem_zipIdx_iff_getElem?.mp hx
  rw [relaxSwitch]
  split_ifs
  · exact .refl h
  · exact .foldl (fun l hl st h => relaxLink_counted hs hl (hrange x.1 (List.mem_of_getElem? hs) l hl) h) h

lemma relaxRound_counted {temp : ℕ → ℕ} (h : Estimates g sw u temp) :
    Lib.Rounds.Counted (Estimates g sw u) (weight g) (temp, 0) (relaxRound g sw temp) :=
  .foldl (fun _ hx _ h => relaxSwitch_counted hrange hx h) h

lemma relaxed {temp : ℕ → ℕ} (h : Estimates g sw u temp) (hstill : relaxRound g sw temp = (temp, 0)) {v : ℕ}
    {s : Switch P L}
    {l : L} (hs : g.switches[v]? = some s) (hl : l ∈ s.node.links) (hv : temp v ≠ LARGE)
    (hne : (g.link l).switchId ≠ sw) :
    temp (g.link l).switchId ≤ temp v + 1 := by
  have hswitch := Lib.Rounds.foldl_still (fun _ hx _ h => relaxSwitch_counted hrange hx h) h hstill (s, v)
    (List.mem_zipIdx_iff_getElem?.mpr hs)
  rw [relaxSwitch, if_neg hv] at hswitch
  have hlink := Lib.Rounds.foldl_still
    (fun l hl _ h => relaxLink_counted hs hl (hrange s (List.mem_of_getElem? hs) l hl) h) h hswitch l hl
  by_contra hlt
  rw [relaxLink, if_neg hne, if_pos (not_le.mp hlt)] at hlink
  exact absurd (congrArg Prod.snd hlink) (Nat.succ_ne_self 0)

lemma le_walk {temp : ℕ → ℕ} (h : Estimates g sw u temp) (hstill : relaxRound g sw temp = (temp, 0)) {k v : ℕ}
    (hw : Walk g sw k u v) : temp v ≤ k := by
  induction hw with
  | nil => exact h.self.le
  | @snoc k u v s l hw hs hl hne ih =>
    have ih := ih h
    by_cases hv : temp v = LARGE
    · have hle := h.le (g.link l).switchId
      omega
    · have hstep := relaxed hrange h hstill hs hl hv hne
      omega

lemma attained {temp : ℕ → ℕ} (h : Estimates g sw u temp) (hstill : relaxRound g sw temp = (temp, 0))
    (hu : u < g.switches.length) {d v : ℕ} (hw : Walk g sw d u v) (hv : temp v = d) (hd : d ≠ LARGE) :
    ∀ j ≤ d, ∃ w < g.switches.length, temp w = j := by
  induction hw with
  | nil v =>
    intro j hj
    obtain rfl : j = 0 := by omega
    exact ⟨v, hu, hv⟩
  | @snoc k u v s l hw hs hl hne ih =>
    intro j hj
    have hle := h.le (g.link l).switchId
    have hprev := le_walk hrange h hstill hw
    have hstep := relaxed hrange h hstill hs hl (by omega) hne
    by_cases hjk : j = k + 1
    · exact ⟨_, hrange s (List.mem_of_getElem? hs) l hl, hjk ▸ hv⟩
    · exact ih h hu (by omega) (by omega) j (by omega)

lemma lt_length {temp : ℕ → ℕ} (h : Estimates g sw u temp) (hstill : relaxRound g sw temp = (temp, 0))
    (hu : u < g.switches.length) {v : ℕ} (hv : temp v ≠ LARGE) : temp v < g.switches.length := by
  have hsub : Finset.range (temp v + 1) ⊆ (Finset.range g.switches.length).image temp := by
    intro j hj
    obtain ⟨w, hw, rfl⟩ := attained hrange h hstill hu (h.walk v hv) rfl hv j
        (by rw [Finset.mem_range] at hj; omega)
    exact Finset.mem_image_of_mem temp (Finset.mem_range.mpr hw)
  have hcard := (Finset.card_le_card hsub).trans Finset.card_image_le
  rw [Finset.card_range, Finset.card_range] at hcard
  omega

lemma reached {temp : ℕ → ℕ} (h : Estimates g sw u temp) (hstill : relaxRound g sw temp = (temp, 0))
    (hu : u < g.switches.length) (hlen : g.switches.length < LARGE) {k v : ℕ} (hw : Walk g sw k u v) :
    temp v ≠ LARGE := by
  induction hw with
  | nil =>
    rw [h.self]
    omega
  | @snoc k u v s l hw hs hl hne ih =>
    have hv := ih h hu
    have hlt := lt_length hrange h hstill hu hv
    have hstep := relaxed hrange h hstill hs hl hv hne
    omega

lemma relax_ends (sw u : ℕ) {fuel : ℕ} (hfuel : g.switches.length * LARGE ≤ fuel) :
    ∃ temp, relax g sw fuel u = some temp ∧ Estimates g sw u temp ∧ relaxRound g sw temp = (temp, 0) := by
  have hinit : Estimates g sw u (Function.update (fun _ => LARGE) u 0) := by
    refine ⟨fun v => ?_, Function.update_self u 0 _, fun v hv => ?_⟩
    · rw [Function.update_apply]
      split_ifs
      · exact Nat.zero_le _
      · exact le_rfl
    · rw [Function.update_apply] at hv ⊢
      split_ifs at hv ⊢ with heq
      · rw [heq]
        exact .nil u
      · exact absurd rfl hv
  have hweight : weight g (Function.update (fun _ => LARGE) u 0) ≤ fuel := by
    have hsum := Finset.sum_le_card_nsmul (Finset.range g.switches.length)
      (Function.update (fun _ => LARGE) u 0) LARGE fun v _ => hinit.le v
    rw [Finset.card_range, smul_eq_mul] at hsum
    exact hsum.trans hfuel
  exact Lib.Rounds.loop_spec (fun _ h => relaxRound_counted hrange h) hinit hweight

lemma relax_eq (hlen : g.switches.length < LARGE) (hu : u < g.switches.length) {fuel : ℕ}
    (hfuel : g.switches.length * LARGE ≤ fuel) :
    relax g sw fuel u = some (avoiding g sw u) ∧ (∀ v, avoiding g sw u v ≤ LARGE) ∧
      ∀ v, avoiding g sw u v ≠ LARGE ↔ (lengths g sw u v).Nonempty := by
  obtain ⟨temp, hrun, h, hstill⟩ := relax_ends hrange sw u hfuel
  have heq : temp = avoiding g sw u := by
    funext v
    rw [avoiding]
    split_ifs with hex
    · apply le_antisymm
      · exact le_walk hrange h hstill (Nat.sInf_mem hex)
      · exact Nat.sInf_le (h.walk v (reached hrange h hstill hu hlen hex.choose_spec))
    · by_contra hv
      exact hex ⟨_, h.walk v hv⟩
  rw [hrun, ← heq]
  exact ⟨rfl, h.le, fun v => ⟨fun hv => ⟨_, h.walk v hv⟩,
      fun hv => reached hrange h hstill hu hlen hv.choose_spec⟩⟩

end Relaxation

section Walks

variable {g : Lash P L} {sw u v w k k' : ℕ}

lemma Walk.append (h : Walk g sw k u v) (h' : Walk g sw k' v w) : Walk g sw (k + k') u w := by
  induction h' with
  | nil => exact h
  | snoc _ hs hl hne ih => exact .snoc (ih h) hs hl hne

lemma Walk.target_ne (h : Walk g sw k u v) (hu : u ≠ sw) : v ≠ sw := by
  cases h with
  | nil => exact hu
  | snoc _ _ _ hne => exact hne

lemma Walk.symm (htwo : TwoWay g) (hu : u ≠ sw) (h : Walk g sw k u v) : Walk g sw k v u := by
  induction h with
  | nil v => exact .nil v
  | @snoc k u v s l h hs hl hne ih =>
    obtain ⟨s', hs', l', hl', hback⟩ := htwo v s l hs hl
    have hv := h.target_ne hu
    have hstep : Walk g sw 1 (g.link l).switchId v := by
      rw [← hback] at hv ⊢
      exact .snoc (.nil _) hs' hl' hv
    rw [add_comm]
    exact hstep.append (ih hu)

end Walks

section Metric

variable {g : Lash P L} {sw : ℕ} {s : Switch P L} {fuel : ℕ}

lemma mapM_some {A B : Type} {f : A → Option B} {F : A → B} {as : List A} (h : ∀ a ∈ as, f a = some (F a)) :
    as.mapM f = some (as.map F) := by
  induction as with
  | nil => rfl
  | cons a as ih =>
    rw [List.mapM_cons, h a List.mem_cons_self, ih fun b hb => h b (List.mem_cons_of_mem a hb)]
    rfl

lemma avoiding_self (u : ℕ) : avoiding g sw u u = 0 := by
  have hmem : 0 ∈ lengths g sw u u := Walk.nil u
  rw [avoiding, if_pos ⟨0, hmem⟩]
  exact Nat.sInf_eq_zero.mpr (.inl hmem)

lemma avoiding_le {k u v : ℕ} (h : Walk g sw k u v) : avoiding g sw u v ≤ k := by
  rw [avoiding, if_pos ⟨k, h⟩]
  exact Nat.sInf_le h

lemma avoiding_symm (htwo : TwoWay g) {u v : ℕ} (hu : u ≠ sw) (hv : v ≠ sw) :
    avoiding g sw u v = avoiding g sw v u := by
  have hset : lengths g sw u v = lengths g sw v u := by
    ext k
    exact ⟨.symm htwo hu, .symm htwo hv⟩
  rw [avoiding, avoiding, hset]

lemma getSwitchMetric_eq (hs : g.switches[sw]? = some s) (hlen : g.switches.length < LARGE)
    (hrange : ∀ s ∈ g.switches, ∀ l ∈ s.node.links, (g.link l).switchId < g.switches.length)
    (hfuel : g.switches.length * LARGE ≤ fuel) :
    ∃ m, (∀ i j : Fin s.node.links.length, m i j = distMatrix g sw s i j) ∧
      getSwitchMetric g sw fuel = some ((charPoly s.node.links.length m).map fun p => (m, p)) := by
  have htemps : (s.node.links.mapM fun l => relax g sw fuel (g.link l).switchId) =
      some (s.node.links.map fun l => avoiding g sw (g.link l).switchId) :=
    mapM_some fun l hl => (relax_eq hrange hlen (hrange s (List.mem_of_getElem? hs) l hl) hfuel).1
  refine ⟨rowsOf g s (s.node.links.map fun l => avoiding g sw (g.link l).switchId), fun i j => ?_, ?_⟩
  swap
  · rw [getSwitchMetric, hs, Option.bind_some, htemps, Option.map_some]
  rw [rowsOf, List.getElem?_map, List.getElem?_eq_getElem i.isLt, List.getElem?_eq_getElem j.isLt]
  rfl

lemma neighbour_lt (hs : g.switches[sw]? = some s)
    (hrange : ∀ s ∈ g.switches, ∀ l ∈ s.node.links, (g.link l).switchId < g.switches.length)
    (i : Fin s.node.links.length) :
    neighbour g s i < g.switches.length :=
  hrange s (List.mem_of_getElem? hs) _ (List.get_mem _ i)

lemma unreachable_overflows (hs : g.switches[sw]? = some s) (hlen : g.switches.length < LARGE)
    (hrange : ∀ s ∈ g.switches, ∀ l ∈ s.node.links, (g.link l).switchId < g.switches.length) (htwo : TwoWay g)
    (hself : ∀ l ∈ s.node.links, (g.link l).switchId ≠ sw) {i j : Fin s.node.links.length}
    (hfar : ∀ k, ¬ Walk g sw k (neighbour g s i) (neighbour g s j)) :
    ¬ ExpandsInt s.node.links.length (minusX (distMatrix g sw s)) := by
  have hne : ∀ i, neighbour g s i ≠ sw := fun i => hself _ (List.get_mem _ i)
  have hiff : ∀ i j, distMatrix g sw s i j ≠ LARGE ↔
      (lengths g sw (neighbour g s i) (neighbour g s j)).Nonempty := by
    intro i j
    rw [← (@relax_eq P L g sw _ hrange hlen (neighbour_lt hs hrange i) _ le_rfl).2.2]
    exact not_congr Nat.cast_inj
  have hlinks : 2 ≤ s.node.links.length := by
    by_contra hlt
    obtain rfl : i = j := Fin.ext (by omega)
    exact hfar 0 (.nil _)
  apply not_expands_of_far (show intBound < (LARGE : ℤ) * LARGE by decide) hlinks
  · intro i
    exact (hiff i i).mpr ⟨0, .nil _⟩
  · intro i j
    exact congrArg Nat.cast (avoiding_symm htwo (hne i) (hne j))
  · intro i j k hij hjk
    obtain ⟨m, hm⟩ := (hiff i j).mp hij
    obtain ⟨n, hn⟩ := (hiff j k).mp hjk
    exact (hiff i k).mpr ⟨m + n, Walk.append hm hn⟩
  · refine ⟨i, j, not_not.mp fun h => ?_⟩
    obtain ⟨k, hk⟩ := (hiff i j).mp h
    exact hfar k hk

lemma expands_of_close {B : ℕ} (hB : 1 ≤ B) (hclose : ∀ i j, avoiding g sw (neighbour g s i) (neighbour g s j) ≤ B)
    (hsmall : s.node.links.length.factorial * B ^ s.node.links.length < 2147483648) :
    ExpandsInt s.node.links.length (minusX (distMatrix g sw s)) := by
  rcases Nat.lt_or_ge s.node.links.length 2 with hlt | hge
  · exact expands_of_lt_two hlt _
  · refine @expands_of_small _ (B : ℤ) hge (by exact_mod_cast hB) _ (fun i j => ?_) ?_
    · rw [minusX_apply]
      by_cases hij : i = j
      · refine ⟨-1, 1, by rw [abs_neg, abs_one]; exact_mod_cast hB, ?_⟩
        rw [if_pos hij, hij, distMatrix, avoiding_self, Nat.cast_zero, C_0, zero_sub, C_neg, C_1,
            pow_one, neg_one_mul]
      · refine ⟨distMatrix g sw s i j, 0, ?_, by rw [if_neg hij, sub_zero, pow_zero, mul_one]⟩
        rw [distMatrix, Nat.abs_cast]
        exact Int.ofNat_le.mpr (hclose i j)
    · have hcast : ((s.node.links.length.factorial * B ^ s.node.links.length : ℕ) : ℤ) < (2147483648 : ℕ) :=
        Int.ofNat_lt.mpr hsmall
      push_cast at hcast
      exact hcast

/-- The metric of a switch is the matrix of distances with its characteristic polynomial, unless an `int`
overflows. It does when two neighbours are connected through the switch only, and does not when they are all
close to each other. -/
theorem switch_metric_iff (hs : g.switches[sw]? = some s) (hlinks : 0 < s.node.links.length)
    (hrange : ∀ s ∈ g.switches, ∀ l ∈ s.node.links, (g.link l).switchId < g.switches.length)
    (hlen : g.switches.length < LARGE) (hfuel : g.switches.length * LARGE ≤ fuel) :
    (MetricExact g sw s fuel ↔ ExpandsInt s.node.links.length (minusX (distMatrix g sw s))) ∧
    getSwitchMetric g sw fuel ≠ some (.error .index) ∧
    (TwoWay g → (∀ l ∈ s.node.links, (g.link l).switchId ≠ sw) →
      (∃ i j, ∀ k, ¬ Walk g sw k (neighbour g s i) (neighbour g s j)) →
      ¬ ExpandsInt s.node.links.length (minusX (distMatrix g sw s))) ∧
    ∀ B ≥ 1, (∀ i j, avoiding g sw (neighbour g s i) (neighbour g s j) ≤ B) →
      s.node.links.length.factorial * B ^ s.node.links.length < 2147483648 →
      ExpandsInt s.node.links.length (minusX (distMatrix g sw s)) := by
  obtain ⟨m, hm, hrun⟩ := getSwitchMetric_eq hs hlen hrange hfuel
  have hself : ∀ i, distMatrix g sw s i i = 0 := by
    intro i
    rw [distMatrix, avoiding_self, Nat.cast_zero]
  have hbound : ∀ i j, |distMatrix g sw s i j| < intBound := by
    intro i j
    have hle := (@relax_eq P L g sw _ hrange hlen (neighbour_lt hs hrange i) fuel hfuel).2.1 (neighbour g s j)
    rw [distMatrix, Nat.abs_cast]
    exact lt_of_le_of_lt (Int.ofNat_le.mpr hle) (by decide)
  have hpoly := charPoly_spec hlinks (fun i j => (hm i j).symm) hself hbound
  refine ⟨⟨fun hok => ?_, fun hexp => ?_⟩, fun hindex => ?_, fun htwo hother hfar => ?_,
      fun B hB hclose hsmall => ?_⟩
  · obtain ⟨m', p, hmp, -⟩ := hok
    by_contra hexp
    rw [hrun, hpoly.fault hexp] at hmp
    cases hmp
  · obtain ⟨p, hp, hholds⟩ := hpoly.ok hexp
    refine ⟨m, p, ?_, hm, fun k _ => hholds k⟩
    rw [hrun, hp]
    rfl
  · rw [hrun] at hindex
    by_cases hexp : ExpandsInt s.node.links.length (minusX (distMatrix g sw s))
    · obtain ⟨p, hp, -⟩ := hpoly.ok hexp
      rw [hp] at hindex
      cases hindex
    · rw [hpoly.fault hexp] at hindex
      cases hindex
  · obtain ⟨i, j, hij⟩ := hfar
    exact unreachable_overflows hs hlen hrange htwo hother hij
  · exact expands_of_close hB hclose hsmall

def bareNode (links : List ℕ) : MeshNode ℕ := ⟨fun _ => 0, fun _ => 0, none, links⟩

def triangle : Lash ℕ ℕ where
  switches := [⟨10, 0, bareNode [0, 1]⟩, ⟨20, 1, bareNode [2, 3]⟩, ⟨30, 2, bareNode [4, 5]⟩]
  link l := ⟨[1, 2, 0, 2, 0, 1].getD l 0, some ([0, 0, 0, 1, 1, 1].getD l 0), 0, [l + 1]⟩

theorem switch_metric_iff_triangle : MetricExact triangle 0 ⟨10, 0, bareNode [0, 1]⟩ (3 * LARGE) := by
  have hspec := @switch_metric_iff ℕ ℕ triangle 0 ⟨10, 0, bareNode [0, 1]⟩ (3 * LARGE) rfl (by decide)
    (by decide) (by decide) le_rfl
  have hforth : Walk triangle 0 1 1 2 :=
    @Walk.snoc ℕ ℕ triangle 0 0 1 1 ⟨20, 1, bareNode [2, 3]⟩ 3 (.nil 1) rfl (by decide) (by decide)
  have hback : Walk triangle 0 1 2 1 :=
    @Walk.snoc ℕ ℕ triangle 0 0 2 2 ⟨30, 2, bareNode [4, 5]⟩ 5 (.nil 2) rfl (by decide) (by decide)
  have hzero : ∀ u, avoiding triangle 0 u u ≤ 1 := fun u => (avoiding_self u).le.trans (Nat.zero_le 1)
  refine hspec.1.mpr (hspec.2.2.2 1 le_rfl (fun i j => ?_) (by decide))
  match i, j with
  | ⟨0, _⟩, ⟨0, _⟩ => exact hzero 1
  | ⟨0, _⟩, ⟨1, _⟩ => exact avoiding_le hforth
  | ⟨1, _⟩, ⟨0, _⟩ => exact avoiding_le hback
  | ⟨1, _⟩, ⟨1, _⟩ => exact hzero 2

def star : Lash ℕ ℕ where
  switches := [⟨10, 0, bareNode [0, 1]⟩, ⟨20, 1, bareNode [2]⟩, ⟨30, 2, bareNode [3]⟩]
  link l := ⟨[1, 2, 0, 0].getD l 0, some ([0, 0, 0, 1].getD l 0), 0, [l + 1]⟩

lemma star_twoWay : TwoWay star := twoWay_of (by decide)

theorem star_overflows : ∃ s, star.switches[0]? = some s ∧ TwoWay star ∧ 1 ≤ s.node.links.length ∧
    s.node.links.length ≤ 8 ∧
    ¬ ∃ fuel, MetricExact star 0 s fuel := by
  refine ⟨⟨10, 0, bareNode [0, 1]⟩, rfl, star_twoWay, by decide, by decide, ?_⟩
  rintro ⟨fuel, m, p, hrun, -⟩
  have hrelax : ∀ u, u = 1 ∨ u = 2 → relax star 0 fuel u = some (Function.update (fun _ => LARGE) u 0) := by
    intro u hu
    apply Lib.Drive.drive_done
    rcases hu with rfl | rfl
    · rfl
    · rfl
  have hmetric : getSwitchMetric star 0 fuel =
      ((relax star 0 fuel 1).bind fun a => (relax star 0 fuel 2).bind fun b => some [a, b]).map fun temps =>
        (charPoly 2 (rowsOf star ⟨10, 0, bareNode [0, 1]⟩ temps)).map fun p =>
          (rowsOf star ⟨10, 0, bareNode [0, 1]⟩ temps, p) := rfl
  rw [hrelax 1 (.inl rfl), hrelax 2 (.inr rfl)] at hmetric
  have hfault : getSwitchMetric star 0 fuel = some (.error .overflow) := hmetric.trans rfl
  rw [hfault] at hrun
  cases hrun

end Metric

end OpenSM.LashMesh
