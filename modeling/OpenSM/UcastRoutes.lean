import OpenSM.UcastLft
import OpenSM.MinHopExact
import OpenSM.Lib.Descent

/-! Following the forwarding tables hop by hop, and what is left of reachability when some ports are
marked unhealthy. -/

namespace OpenSM.UcastMgr

open Switch Lib.Relaxation

variable {n m : ℕ} {u : Subnet n m}

/-- Forward from switch `s` for LID `l` over at most `k` links between switches. -/
def follow (u : Subnet n m) (lft : Fin n → ℕ → ℕ) (l : ℕ) : ℕ → Fin n → Option (EndPort n m)
  | k, s =>
    if lft s l = noPath then none
    else if lft s l = 0 then some (.sw s)
    else
      match u.remote s (lft s l) with
      | none => none
      | some (.ca e) => some (.ca e)
      | some (.sw r _) =>
        match k with
        | 0 => none
        | k + 1 => follow u lft l k r

def minHops (u : Subnet n m) (H₀ : Hops n) : Hops n := buildLidMatrices u.toFabric (clearHops H₀)

def routeTables (u : Subnet n m) (o : Opts n m) (H₀ : Hops n) (newLft prof : Fin n → ℕ → ℕ) :
    Fin n → ℕ → ℕ :=
  fun s => (processTbl u o (minHops u H₀) s (newLft s) (prof s)).newLft

lemma candidate_edge {H₀ : Hops n} {s : Fin n} {l p : ℕ}
    (hno : getLeastHops u.toFabric (minHops u H₀) s l ≠ noPath)
    (hc : Candidate u (minHops u H₀) s l p) :
    ∃ e : Edge u.toFabric, e.sw = s ∧ e.port = p := by
  by_contra hne
  have hclean := clean_buildLidMatrices (f := u.toFabric) H₀ s l p hc.ne_zero (by
    intro r q hr
    by_contra hrs
    exact hne ⟨⟨s, p, r, q, hr, hrs⟩, rfl, rfl⟩)
  exact hno (hc.least ▸ hclean)

/-- A least hop port over a healthy link leads strictly closer. -/
lemma candidate_descends (hf : u.Ready) (hh : u.AllHealthy) {H₀ : Hops n} {s d : Fin n} {p : ℕ}
    (hno : getLeastHops u.toFabric (minHops u H₀) s (u.lid d) ≠ noPath)
    (hc : Candidate u (minHops u H₀) s (u.lid d) p) :
    ∃ r q, u.remote s p = some (.sw r q) ∧
      getLeastHops u.toFabric (minHops u H₀) r (u.lid d) <
        getLeastHops u.toFabric (minHops u H₀) s (u.lid d) := by
  obtain ⟨e, rfl, rfl⟩ := candidate_edge hno hc
  refine ⟨e.peer, e.peerPort, e.cabled, ?_⟩
  have hle := (sound_buildLidMatrices (f := u.toFabric) hf H₀).node_le e.sw d
  have he := getHopCount_build (f := u.toFabric) hf hh H₀ e d
  have hr := getLeastHops_build (f := u.toFabric) hf hh H₀ e.peer d
  have hw : 0 < u.hopWf e.sw e.port := hf.hopWf_pos _ _
  have hl := hc.least
  change getLeastHops u.toFabric (minHops u H₀) e.sw (u.lid d) ≤ 255 at hle
  change ((getHopCount u.toFabric (minHops u H₀) e.sw (u.lid d) e.port : ℕ) : ℕ∞) = _ at he
  change ((getLeastHops u.toFabric (minHops u H₀) e.peer (u.lid d) : ℕ) : ℕ∞) = _ at hr
  rw [hl] at he
  generalize getLeastHops u.toFabric (minHops u H₀) e.sw (u.lid d) = a at *
  generalize getLeastHops u.toFabric (minHops u H₀) e.peer (u.lid d) = b at *
  generalize u.dist e.peer d = x at *
  have hx : (a : ℕ∞) = u.hopWf e.sw e.port + x := by
    rcases min_choice (noPath : ℕ∞) ((u.hopWf e.sw e.port : ℕ) + x) with hm | hm
    · rw [hm] at he
      exact absurd (ENat.natCast_inj.mp he) hno
    · rw [he, hm]
  obtain ⟨y, rfl⟩ : ∃ y : ℕ, x = y := by
    refine ⟨x.toNat, (ENat.natCast_toNat ?_).symm⟩
    rintro rfl
    simp at hx
  have hxy : a = u.hopWf e.sw e.port + y := by exact_mod_cast hx
  have hb : (b : ℕ∞) ≤ y := hr ▸ min_le_right _ _
  have hby : b ≤ y := by exact_mod_cast hb
  omega

lemma exists_candidate (hf : u.Ready) (hh : u.AllHealthy) {H₀ : Hops n} {s d : Fin n} (hne : s ≠ d)
    (hno : getLeastHops u.toFabric (minHops u H₀) s (u.lid d) < noPath) :
    ∃ p, Candidate u (minHops u H₀) s (u.lid d) p := by
  obtain ⟨e, rfl, he⟩ := (sound_buildLidMatrices (f := u.toFabric) hf H₀).attained s d hne hno
  exact ⟨e.port, e.port_lt.1.ne', he, hh _ _, _, e.cabled⟩

lemma route_cases (hf : u.Ready) (hh : u.AllHealthy) {H₀ : Hops n} {s d : Fin n} {e : EndPort n m}
    {p q : ℕ} (ht : target u e = some (d, q)) (h : Route u (minHops u H₀) s e p) :
    (p = 0 ∧ e = .sw s) ∨ (p ≠ 0 ∧ ∃ c, e = .ca c ∧ u.remote s p = some (.ca c)) ∨
    (p ≠ 0 ∧ ∃ r q', u.remote s p = some (.sw r q') ∧
      getLeastHops u.toFabric (minHops u H₀) r (u.lid d) <
        getLeastHops u.toFabric (minHops u H₀) s (u.lid d) ∧
      ∃ p', Route u (minHops u H₀) r e p') := by
  obtain ⟨d', q', ht', h⟩ := h
  rw [ht] at ht'
  cases ht'
  rcases h with ⟨rfl, rfl⟩ | ⟨hds, hno, hc⟩
  · cases e with
    | sw s =>
      cases ht
      exact Or.inl ⟨rfl, rfl⟩
    | ca c =>
      have hr := (u.remote_ca _ _ _).mpr ht
      exact Or.inr (Or.inl ⟨(u.remote_port _ _ _ hr).1.ne', c, rfl, hr⟩)
  · obtain ⟨r, q', hr, hlt⟩ := candidate_descends hf hh hno hc
    refine Or.inr (Or.inr ⟨hc.ne_zero, r, q', hr, hlt, ?_⟩)
    have hle := (sound_buildLidMatrices (f := u.toFabric) hf H₀).node_le s d
    have hr255 : getLeastHops u.toFabric (minHops u H₀) r (u.lid d) < noPath := hlt.trans_le hle
    by_cases hrd : r = d
    · exact ⟨q, d, q, ht, Or.inl ⟨hrd.symm, rfl⟩⟩
    · obtain ⟨p', hp'⟩ := exists_candidate hf hh hrd hr255
      exact ⟨p', d, q, ht, Or.inr ⟨Ne.symm hrd, hr255.ne, hp'⟩⟩

section Tables

variable (ha : Addressed u) (o : Opts n m) (ho : o.portOrderList.Nodup) (hlmc : o.lmc ≤ 7)
  (H₀ : Hops n) (newLft prof : Fin n → ℕ → ℕ) (hprof : ∀ s p, prof s p + 0xC000 < maxPaths)

include ha ho hlmc hprof

lemma mem_tasks_of_ne {s : Fin n} {e : EndPort n m} {i : ℕ} (hv : Valid u (e, i))
    (hne : routeTables u o H₀ newLft prof s (u.baseLid e + i) ≠ noPath) : (e, i) ∈ tasks o := by
  have hf := filled_processTbl ha o ho hlmc (minHops u H₀) s (newLft s) (prof s) (hprof s)
  by_contra hmem
  refine hne (hf.rest _ ((ha.lidAt_lt hv).2.2 s) ?_)
  intro x hx hxv h
  rw [ha.lidAt_inj hxv hv h] at hx
  exact hmem hx

lemma entry_of_mem_tasks {e : EndPort n m} {i : ℕ} (hv : Valid u (e, i)) (hm : (e, i) ∈ tasks o)
    (s : Fin n) :
    Route u (minHops u H₀) s e (routeTables u o H₀ newLft prof s (u.baseLid e + i)) ∨
      routeTables u o H₀ newLft prof s (u.baseLid e + i) = noPath ∧
        ∀ p, ¬ Route u (minHops u H₀) s e p :=
  (filled_processTbl ha o ho hlmc (minHops u H₀) s (newLft s) (prof s) (hprof s)).entry _ hm hv

lemma follow_of_level (hf : u.Ready) (hh : u.AllHealthy) {e : EndPort n m} {i : ℕ} (hv : Valid u (e, i))
    (hm : (e, i) ∈ tasks o) {d : Fin n} {q : ℕ} (ht : target u e = some (d, q)) (k : ℕ) (s : Fin n)
    (hk : Lib.Descent.level (fun v => getLeastHops u.toFabric (minHops u H₀) v (u.lid d)) s ≤ k)
    {p : ℕ} (hp : Route u (minHops u H₀) s e p) :
    follow u (routeTables u o H₀ newLft prof) (u.baseLid e + i) k s = some e := by
  induction k generalizing s p with
  | zero =>
    have hr := (entry_of_mem_tasks ha o ho hlmc H₀ newLft prof hprof hv hm s).resolve_right
      fun h => h.2 p hp
    unfold follow
    rw [if_neg hr.ne_noPath]
    rcases route_cases hf hh ht hr with ⟨h0, he⟩ | ⟨h0, c, he, hc⟩ | ⟨h0, r, q', hc, hlt, -⟩
    · rw [if_pos h0, he]
    · rw [if_neg h0, hc, he]
    · have := Lib.Descent.level_lt
        (μ := fun v => getLeastHops u.toFabric (minHops u H₀) v (u.lid d)) hlt
      omega
  | succ k ih =>
    have hr := (entry_of_mem_tasks ha o ho hlmc H₀ newLft prof hprof hv hm s).resolve_right
      fun h => h.2 p hp
    unfold follow
    rw [if_neg hr.ne_noPath]
    rcases route_cases hf hh ht hr with ⟨h0, he⟩ | ⟨h0, c, he, hc⟩ | ⟨h0, r, q', hc, hlt, p', hp'⟩
    · rw [if_pos h0, he]
    · rw [if_neg h0, hc, he]
    · have := Lib.Descent.level_lt
        (μ := fun v => getLeastHops u.toFabric (minHops u H₀) v (u.lid d)) hlt
      rw [if_neg h0, hc]
      exact ih r (by omega) hp'

/-- A route that starts is finished: it is delivered to the owner of the LID, and on its way meets
only switches that forward it, over fewer links than there are switches. -/
theorem follow_routeTables (hf : u.Ready) (hh : u.AllHealthy) (s : Fin n) (e : EndPort n m) (l : ℕ)
    (hb : u.baseLid e ≠ 0) (hl : u.baseLid e ≤ l) (hl' : l < u.baseLid e + 2 ^ u.lmcOf e)
    (hne : routeTables u o H₀ newLft prof s l ≠ noPath) :
    follow u (routeTables u o H₀ newLft prof) l n s = some e := by
  obtain ⟨i, rfl⟩ := Nat.exists_eq_add_of_le hl
  have hv : Valid u (e, i) := ⟨hb, by dsimp only; omega⟩
  have hm := mem_tasks_of_ne ha o ho hlmc H₀ newLft prof hprof hv hne
  have hr := (entry_of_mem_tasks ha o ho hlmc H₀ newLft prof hprof hv hm s).resolve_right
    fun h => hne h.1
  obtain ⟨d, q, ht, -⟩ := id hr
  refine follow_of_level ha o ho hlmc H₀ newLft prof hprof hf hh hv hm ht n s ?_ hr
  have hlt := Lib.Descent.level_lt_card
    (μ := fun v => getLeastHops u.toFabric (minHops u H₀) v (u.lid d)) s
  rw [Fintype.card_fin] at hlt
  exact hlt.le

omit ha ho hlmc hprof in
theorem follow_routeTables_triangle :
    (Subnet.triangle fun _ _ => true).Ready ∧ Addressed (Subnet.triangle fun _ _ => true) ∧
    follow (Subnet.triangle fun _ _ => true)
      (routeTables (Subnet.triangle fun _ _ => true) (minHopOpts 3 1) (fun _ _ => none)
        (fun _ _ => 0) fun _ _ => 0) 4 3 0 = some (.ca 0) :=
  ⟨Fabric.ready_triangle _, addressed_triangle _,
    follow_routeTables (addressed_triangle _) (minHopOpts 3 1) (by decide) (by decide) _ _ _
      (fun _ _ => by decide) (Fabric.ready_triangle _) (fun _ _ => rfl) 0 (.ca 0) 4 (by decide)
      (by decide) (by decide) (by decide)⟩

/-- `s` has a healthy port towards `d` that is no heavier than `w`, counting the rest of the way. -/
def Open (f : Fabric n m) (s d : Fin n) (w : ℕ) : Prop :=
  ∃ p r q, f.remote s p = some (.sw r q) ∧ r ≠ s ∧ f.healthy s p = true ∧
    (f.linkIsHealthy s p = true ∧ f.hopWf s p + f.seededDist r d ≤ w ∨ r = d ∧ f.hopWf s p ≤ w)

omit ha ho hlmc hprof in
lemma open_iff (hf : u.Ready) (s d : Fin n) (w : ℕ) :
    Open u.toFabric s d w ↔ ∃ e : Edge u.toFabric, e.sw = s ∧ u.healthy s e.port = true ∧
      (graph u.toFabric hf).offer e d ≤ w := by
  constructor
  · rintro ⟨p, r, q, hc, hr, hh, h⟩
    refine ⟨⟨s, p, r, q, hc, hr⟩, rfl, hh, ?_⟩
    by_cases hp : (graph u.toFabric hf).prop ⟨s, p, r, q, hc, hr⟩
    · rw [Graph.offer, if_pos hp, graph_dist_eq]
      rcases h with ⟨-, h⟩ | ⟨rfl, h⟩
      · exact h
      · have hself : u.seededDist r r = 0 := Lib.Paths.dist_self r
        change ((u.hopWf s p : ℕ) : ℕ∞) + u.seededDist r r ≤ w
        rw [hself, add_zero]
        exact_mod_cast h
    · rw [Graph.offer, if_neg hp]
      rcases h with ⟨hl, -⟩ | ⟨rfl, h⟩
      · exact absurd hl hp
      · rw [if_pos (show (graph u.toFabric hf).dst _ = r from rfl)]
        exact Nat.cast_le.mpr h
  · rintro ⟨e, rfl, hh, h⟩
    refine ⟨e.port, e.peer, e.peerPort, e.cabled, e.peer_ne, hh, ?_⟩
    by_cases hp : (graph u.toFabric hf).prop e
    · rw [Graph.offer, if_pos hp, graph_dist_eq] at h
      exact Or.inl ⟨hp, h⟩
    · rw [Graph.offer, if_neg hp] at h
      split_ifs at h with hd
      · exact Or.inr ⟨hd, Nat.cast_le.mp h⟩
      · exact absurd h (by simp)

omit ha ho hlmc hprof in
lemma seededDist_le_healthyDist (f : Fabric n m) (s d : Fin n) : f.seededDist s d ≤ f.healthyDist s d := by
  refine Lib.Paths.le_dist fun k x hp => ?_
  induction hp with
  | nil v => exact (Lib.Paths.dist_self v).le.trans (by simp)
  | last hl =>
    obtain ⟨p, q, hc, -, hw⟩ := hl
    exact Lib.Paths.dist_last ⟨p, q, hc, hw⟩
  | cons hl _ ih =>
    refine (Lib.Paths.dist_cons hl).trans ?_
    push_cast
    exact add_le_add le_rfl ih

omit ha ho hlmc hprof in
/-- Whether a switch has a usable least hop port depends on its own unhealthy cables to the target. -/
lemma exists_candidate_iff (hf : u.Ready) {s d : Fin n} (hne : s ≠ d)
    (hd : u.seededDist s d < (noPath : ℕ∞)) :
    (∃ p, Candidate u (minHops u H₀) s (u.lid d) p) ↔
      ∀ p q, u.remote s p = some (.sw d q) → u.healthy s p = false →
        Open u.toFabric s d (u.hopWf s p) := by
  obtain ⟨hnode, hedge⟩ := buildLidMatrices_offer (f := u.toFabric) hf H₀
  change ∀ s d, ((getLeastHops u.toFabric (minHops u H₀) s (u.lid d) : ℕ) : ℕ∞) = _ at hnode
  change ∀ (e : Edge u.toFabric) d,
    ((getHopCount u.toFabric (minHops u H₀) e.sw (u.lid d) e.port : ℕ) : ℕ∞) = _ at hedge
  have hs := hnode s d
  rw [graph_dist_eq, min_eq_right hd.le] at hs
  have hno : getLeastHops u.toFabric (minHops u H₀) s (u.lid d) < noPath := by
    rw [← hs] at hd
    exact_mod_cast hd
  constructor
  · rintro ⟨p', hc⟩ p q hp hun
    obtain ⟨e, rfl, rfl⟩ := candidate_edge hno.ne hc
    refine (open_iff hf _ _ _).mpr ⟨e, rfl, hc.healthy, ?_⟩
    have he := hedge e d
    rw [hc.least] at he
    -- the direct cable is a path, so the least hop count is at most its weight
    have hle : u.seededDist e.sw d ≤ (u.hopWf e.sw p : ℕ) := Lib.Paths.dist_last ⟨p, q, hp, rfl⟩
    rw [hs] at he
    rcases min_choice (noPath : ℕ∞) ((graph u.toFabric hf).offer e d) with hm | hm
    · rw [hm] at he
      exact absurd he hd.ne
    · rw [hm] at he
      rw [← he]
      exact hle
  · intro hall
    obtain ⟨e, hsrc, he⟩ := (sound_buildLidMatrices (f := u.toFabric) hf H₀).attained s d hne hno
    obtain rfl : e.sw = s := hsrc
    change getHopCount u.toFabric (minHops u H₀) e.sw (u.lid d) e.port =
      getLeastHops u.toFabric (minHops u H₀) e.sw (u.lid d) at he
    cases hh : u.healthy e.sw e.port with
    | true => exact ⟨e.port, e.port_lt.1.ne', he, hh, _, e.cabled⟩
    | false =>
      have hed := hedge e d
      rw [he] at hed
      have hprop : ¬ (graph u.toFabric hf).prop e := by
        change ¬ u.linkIsHealthy e.sw e.port = true
        simp [Fabric.linkIsHealthy, e.cabled, hh]
      rw [Graph.offer, if_neg hprop] at hed
      split_ifs at hed with hpeer
      swap
      · rw [hs] at hed
        exact absurd hed (by simpa using hd.ne)
      -- the port found is an unhealthy cable to the target itself
      change e.peer = d at hpeer
      change _ = min (noPath : ℕ∞) (u.hopWf e.sw e.port : ℕ) at hed
      obtain ⟨e', hsw, hh', hoff⟩ := (open_iff hf _ _ _).mp
        (hall e.port e.peerPort (hpeer ▸ e.cabled) hh)
      have hw : (getLeastHops u.toFabric (minHops u H₀) e.sw (u.lid d) : ℕ∞) = (u.hopWf e.sw e.port : ℕ) := by
        rcases min_choice (noPath : ℕ∞) (u.hopWf e.sw e.port : ℕ) with hm | hm
        · rw [hm] at hed
          exact absurd (Nat.cast_injective hed) hno.ne
        · rw [hed, hm]
      have hlow := offer_le_dist (G := graph u.toFabric hf) e' d
      rw [graph_dist_eq] at hlow
      change u.seededDist e'.sw d ≤ _ at hlow
      have he' := hedge e' d
      rw [hsw] at hlow he'
      rw [← hs] at hlow
      rw [← hw] at hoff
      have hoff' : (graph u.toFabric hf).offer e' d =
          (getLeastHops u.toFabric (minHops u H₀) e.sw (u.lid d) : ℕ∞) := le_antisymm hoff hlow
      rw [hoff', min_eq_right (by exact_mod_cast hno.le)] at he'
      exact ⟨e'.port, e'.port_lt.1.ne', by exact_mod_cast he', hh', _, hsw ▸ e'.cabled⟩

/-- Every pair of switches with a healthy path gets a route exactly when no switch is shadowed: an
unhealthy cable straight to the target always has a healthy competitor that is no heavier. -/
theorem routeTables_reach_iff (hf : u.Ready) (hall : ∀ e, e ∈ o.portOrderList) :
    (∀ s d, u.healthyDist s d < (noPath : ℕ∞) → routeTables u o H₀ newLft prof s (u.lid d) ≠ noPath) ↔
      ∀ s d, s ≠ d → u.healthyDist s d < (noPath : ℕ∞) → ∀ p q, u.remote s p = some (.sw d q) →
        u.healthy s p = false → Open u.toFabric s d (u.hopWf s p) := by
  have hentry : ∀ s d, routeTables u o H₀ newLft prof s (u.lid d) ≠ noPath ↔
      ∃ p, Route u (minHops u H₀) s (.sw d) p := by
    intro s d
    have hv : Valid u (.sw d, 0) := by
      refine ⟨?_, Nat.two_pow_pos _⟩
      dsimp only
      rw [u.baseLid_sw]
      exact (hf.lid_pos d).ne'
    have hm : ((.sw d, 0) : EndPort n m × ℕ) ∈ tasks o := mem_tasks.mpr ⟨hall _, Nat.two_pow_pos _⟩
    have he := entry_of_mem_tasks ha o ho hlmc H₀ newLft prof hprof hv hm s
    rw [u.baseLid_sw, add_zero] at he
    rcases he with hr | ⟨hno, hno'⟩
    · exact ⟨fun _ => ⟨_, hr⟩, fun _ => hr.ne_noPath⟩
    · exact ⟨fun h => absurd hno h, fun ⟨p, hp⟩ => absurd hp (hno' p)⟩
  have hroute : ∀ s d, s ≠ d → u.healthyDist s d < (noPath : ℕ∞) →
      ((∃ p, Route u (minHops u H₀) s (.sw d) p) ↔
        ∃ p, Candidate u (minHops u H₀) s (u.lid d) p) := by
    intro s d hne hd
    have hleast : getLeastHops u.toFabric (minHops u H₀) s (u.lid d) ≠ noPath := by
      have hnode := (buildLidMatrices_offer (f := u.toFabric) hf H₀).1 s d
      have hlt := (seededDist_le_healthyDist u.toFabric s d).trans_lt hd
      rw [graph_dist_eq, min_eq_right hlt.le] at hnode
      rw [← hnode] at hlt
      exact (Nat.cast_lt.mp hlt).ne
    constructor
    · rintro ⟨p, d', q, ht, ⟨rfl, -⟩ | ⟨-, -, hc⟩⟩
      · cases ht
        exact absurd rfl hne
      · cases ht
        exact ⟨p, hc⟩
    · rintro ⟨p, hc⟩
      exact ⟨p, d, 0, rfl, Or.inr ⟨hne.symm, hleast, hc⟩⟩
  constructor
  · intro h s d hne hd
    have hlt := (seededDist_le_healthyDist u.toFabric s d).trans_lt hd
    exact (exists_candidate_iff H₀ hf hne hlt).mp
      ((hroute s d hne hd).mp ((hentry s d).mp (h s d hd)))
  · intro h s d hd
    by_cases hne : s = d
    · subst hne
      exact (hentry s s).mpr ⟨0, s, 0, rfl, Or.inl ⟨rfl, rfl⟩⟩
    · have hlt := (seededDist_le_healthyDist u.toFabric s d).trans_lt hd
      exact (hentry s d).mpr ((hroute s d hne hd).mpr
        ((exists_candidate_iff H₀ hf hne hlt).mpr (h s d hne hd)))

omit ha ho hlmc hprof in
/-- A dead port beside a healthy detour: switch 0 gets no route to its neighbour. -/
theorem triangle_shadowed :
    (Subnet.triangle fun s p => decide (s ≠ 0 ∨ p ≠ 1)).Ready ∧
    Addressed (Subnet.triangle fun s p => decide (s ≠ 0 ∨ p ≠ 1)) ∧
    (Subnet.triangle fun s p => decide (s ≠ 0 ∨ p ≠ 1)).healthyDist 0 1 < (noPath : ℕ∞) ∧
    routeTables (Subnet.triangle fun s p => decide (s ≠ 0 ∨ p ≠ 1)) (minHopOpts 3 1)
      (fun _ _ => none) (fun _ _ => 0) (fun _ _ => 0) 0 2 = noPath := by
  refine ⟨Fabric.ready_triangle _, addressed_triangle _, ?_, by decide⟩
  have hpath : Lib.Paths.Path
      (Subnet.triangle fun s p => decide (s ≠ 0 ∨ p ≠ 1)).HealthyLink
      (Subnet.triangle fun s p => decide (s ≠ 0 ∨ p ≠ 1)).HealthyLink 2 2 0 1 :=
    .cons (v := 2) (w := 1) ⟨2, 1, rfl, by decide, rfl⟩ (.last (w := 1) ⟨2, 1, rfl, by decide, rfl⟩)
  exact (Lib.Paths.dist_le hpath).trans_lt (by decide)

omit ha ho hlmc hprof in
theorem routeTables_reach_triangle :
    (Subnet.triangle fun _ _ => true).Ready ∧ Addressed (Subnet.triangle fun _ _ => true) ∧
    ∀ s d, (Subnet.triangle fun _ _ => true).healthyDist s d < (noPath : ℕ∞) →
      routeTables (Subnet.triangle fun _ _ => true) (minHopOpts 3 1) (fun _ _ => none)
        (fun _ _ => 0) (fun _ _ => 0) s ((Subnet.triangle fun _ _ => true).lid d) ≠ noPath :=
  ⟨Fabric.ready_triangle _, addressed_triangle _,
    (routeTables_reach_iff (addressed_triangle _) (minHopOpts 3 1) (by decide) (by decide) _ _ _
      (fun _ _ => by decide) (Fabric.ready_triangle _) (mem_minHopOpts 3 1)).mpr
      fun _ _ _ _ _ _ _ h => Bool.noConfusion h⟩

end Tables

end OpenSM.UcastMgr
