import OpenSM.MinHop

/-! What the finished LID matrices contain. Propagation skips unhealthy links but seeding does not,
so in general an entry is the weight of a lightest path whose links are healthy up to the last. -/

namespace OpenSM.UcastMgr

open Switch Lib.Relaxation

variable {n m : ℕ} {f : Fabric n m}

lemma table_buildLidMatrices (hf : f.Ready) (H : Hops n) :
    Sound (graph f hf) 255 (table f ((List.finRange n).foldl (processHop01 f) (clearHops H))) ∧
    table f (buildLidMatrices f (clearHops H)) =
      (Lib.Relaxation.sweep (graph f hf) 255 (order f))^[n - 1]
        (table f ((List.finRange n).foldl (processHop01 f) (clearHops H))) := by
  have hs : Sound (graph f hf) 255
      (table f ((List.finRange n).foldl (processHop01 f) (clearHops H))) := by
    apply sound_of_seeded
    intro s
    exact seeded_foldl hf _ (List.nodup_finRange n) _ (List.mem_finRange s)
      (getHopCount_clearHops f H s)
  refine ⟨hs, ?_⟩
  unfold buildLidMatrices
  dsimp only
  split_ifs with hn
  · rw [propagate_eq, table_iterate hf _ _ hs]
  · have hn0 : n = 0 := not_not.mp hn
    subst hn0
    rfl

/-- The matrices of a fabric with arbitrary health flags. -/
theorem buildLidMatrices_offer (hf : f.Ready) (H : Hops n) :
    (∀ s d, (getLeastHops f (buildLidMatrices f (clearHops H)) s (f.lid d) : ℕ∞) =
      min (noPath : ℕ∞) ((graph f hf).dist s d)) ∧
    ∀ (e : Edge f) d, (getHopCount f (buildLidMatrices f (clearHops H)) e.sw (f.lid d) e.port : ℕ∞) =
      min (noPath : ℕ∞) ((graph f hf).offer e d) := by
  obtain ⟨hs, ht⟩ := table_buildLidMatrices hf H
  have hex := Lib.Relaxation.exact (prop_of_mem_order hf) (mem_order_of_prop hf) hs
  rw [Fintype.card_fin, ← ht] at hex
  exact hex

lemma sound_buildLidMatrices (hf : f.Ready) (H : Hops n) :
    Sound (graph f hf) 255 (table f (buildLidMatrices f (clearHops H))) := by
  obtain ⟨hs, ht⟩ := table_buildLidMatrices hf H
  rw [ht]
  generalize n - 1 = k
  induction k with
  | zero => exact hs
  | succ k ih =>
    rw [Function.iterate_succ_apply']
    exact ih.sweep (prop_of_mem_order hf)

/-- No hop count through a port that does not lead to another switch. -/
def Clean (f : Fabric n m) (H : Hops n) : Prop :=
  ∀ s l p, p ≠ 0 → (∀ r q, f.remote s p = some (.sw r q) → r = s) → getHopCount f H s l p = noPath

lemma Clean.setHops {H : Hops n} (hc : Clean f H) (s : Fin n) (l p h : ℕ)
    (hp : p = 0 ∨ ∃ r q, f.remote s p = some (.sw r q) ∧ r ≠ s) :
    Clean f (setHops f H s l p h).1 := by
  intro s' l' p' hp' hno
  by_cases hs : s' = s
  · subst hs
    have hne : p' ≠ p := by
      rintro rfl
      rcases hp with rfl | ⟨r, q, hr, hrs⟩
      · exact hp' rfl
      · exact hrs (hno r q hr)
    rw [getHopCount_setHops_port hne hp']
    exact hc s' l' p' hp' hno
  · rw [getHopCount_setHops_ne _ _ _ fun hh => hs hh.1]
    exact hc s' l' p' hp' hno

lemma clean_processHop01 {H : Hops n} (hc : Clean f H) (s : Fin n) :
    Clean f (processHop01 f H s) := by
  refine List.foldlRecOn _ _ (hc.setHops s _ 0 0 (Or.inl rfl)) fun H hc p _ => ?_
  unfold processHop01Port
  split
  · rename_i r q hr
    split_ifs with hne
    · exact hc.setHops s _ p _ (Or.inr ⟨r, q, hr, hne⟩)
    · exact hc
  · exact hc

lemma clean_sweep {H : Hops n} (hc : Clean f H) : Clean f (sweep f H).1 := by
  refine List.foldlRecOn (motive := fun st : Hops n × Bool => Clean f st.1) _ _ hc fun st hc s _ => ?_
  refine List.foldlRecOn (motive := fun st : Hops n × Bool => Clean f st.1) _ _ hc fun st hc p _ => ?_
  unfold processNeighborsPort
  split
  · rename_i r q hr
    split_ifs with hne
    · refine List.foldlRecOn (motive := fun st : Hops n × Bool => Clean f st.1) _ _ hc fun st hc d _ => ?_
      unfold processNeighborLid
      dsimp only
      split_ifs
      · exact hc
      · exact hc.setHops s _ p _ (Or.inr ⟨r, q, hr, hne⟩)
      · exact hc
    · exact hc
    · exact hc
  · exact hc

lemma clean_buildLidMatrices (H : Hops n) : Clean f (buildLidMatrices f (clearHops H)) := by
  have hc : Clean f ((List.finRange n).foldl (processHop01 f) (clearHops H)) :=
    List.foldlRecOn _ _ (fun s l p _ _ => getHopCount_clearHops f H s l p)
      fun H hc s _ => clean_processHop01 hc s
  unfold buildLidMatrices
  dsimp only
  split_ifs
  · rw [propagate_eq]
    generalize n - 1 = k
    induction k with
    | zero => exact hc
    | succ k ih =>
      rw [Function.iterate_succ_apply']
      exact clean_sweep ih
  · exact hc

/-- A cable from a switch to itself only makes a path heavier. -/
lemma graph_dist_eq (hf : f.Ready) (s d : Fin n) : (graph f hf).dist s d = f.seededDist s d := by
  apply le_antisymm
  · refine Lib.Paths.le_dist fun k x hp => ?_
    induction hp with
    | nil v => exact (Lib.Paths.dist_self v).le.trans (by simp)
    | @last u v w hl =>
      obtain ⟨p, q, hc, rfl⟩ := hl
      by_cases hvu : v = u
      · subst hvu
        exact (Lib.Paths.dist_self v).le.trans (by simp)
      · exact Lib.Paths.dist_last ⟨⟨u, p, v, q, hc, hvu⟩, rfl, rfl, rfl⟩
    | @cons k x u v d w hl _ ih =>
      obtain ⟨p, q, hc, hh, rfl⟩ := hl
      by_cases hvu : v = u
      · subst hvu
        refine ih.trans ?_
        exact_mod_cast Nat.le_add_left x _
      · have hinner : (graph f hf).Inner u v (f.hopWf u p) :=
          ⟨⟨u, p, v, q, hc, hvu⟩, hh, rfl, rfl, rfl⟩
        refine (Lib.Paths.dist_cons hinner).trans ?_
        push_cast
        gcongr
        exact ih
  · refine Lib.Paths.le_dist fun k x hp => ?_
    induction hp with
    | nil v => exact (Lib.Paths.dist_self v).le.trans (by simp)
    | last hl =>
      obtain ⟨e, rfl, rfl, rfl⟩ := hl
      exact Lib.Paths.dist_last ⟨e.port, e.peerPort, e.cabled, rfl⟩
    | cons hl _ ih =>
      obtain ⟨e, hh, rfl, rfl, rfl⟩ := hl
      refine (Lib.Paths.dist_cons ⟨e.port, e.peerPort, e.cabled, hh, rfl⟩).trans ?_
      push_cast
      exact add_le_add le_rfl ih

lemma getLeastHops_build (hf : f.Ready) (hh : f.AllHealthy) (H : Hops n) (s d : Fin n) :
    (getLeastHops f (buildLidMatrices f (clearHops H)) s (f.lid d) : ℕ∞) =
      min (noPath : ℕ∞) (f.dist s d) := by
  rw [(buildLidMatrices_offer hf H).1, graph_dist_eq hf, Fabric.seededDist_of_allHealthy hh]

lemma getHopCount_build (hf : f.Ready) (hh : f.AllHealthy) (H : Hops n) (e : Edge f) (d : Fin n) :
    (getHopCount f (buildLidMatrices f (clearHops H)) e.sw (f.lid d) e.port : ℕ∞) =
      min (noPath : ℕ∞) (f.hopWf e.sw e.port + f.dist e.peer d) := by
  have he := (buildLidMatrices_offer hf H).2 e d
  have hprop : (graph f hf).prop e := by
    change f.linkIsHealthy e.sw e.port = true
    simp [Fabric.linkIsHealthy, e.cabled, hh _ _]
  rw [Graph.offer, if_pos hprop, graph_dist_eq hf, Fabric.seededDist_of_allHealthy hh] at he
  exact he

/-- With healthy links the sweeps, in place, in switch order and stopped early, still end with the
exact weights of lightest paths, for switches and for each of their ports. -/
theorem buildLidMatrices_exact (hf : f.Ready) (hh : f.AllHealthy) (H : Hops n) :
    (∀ s d, (getLeastHops f (buildLidMatrices f (clearHops H)) s (f.lid d) : ℕ∞) =
      min (noPath : ℕ∞) (f.dist s d)) ∧
    ∀ s p r q d, f.remote s p = some (.sw r q) → r ≠ s →
      (getHopCount f (buildLidMatrices f (clearHops H)) s (f.lid d) p : ℕ∞) =
        min (noPath : ℕ∞) (f.hopWf s p + f.dist r d) :=
  ⟨getLeastHops_build hf hh H,
    fun s p r q d hc hne => getHopCount_build hf hh H ⟨s, p, r, q, hc, hne⟩ d⟩

theorem buildLidMatrices_exact_triangle :
    (Fabric.triangle fun _ _ => true).Ready ∧ (Fabric.triangle fun _ _ => true).AllHealthy ∧
    (getLeastHops (Fabric.triangle fun _ _ => true)
      (buildLidMatrices (Fabric.triangle fun _ _ => true) (clearHops fun _ _ => none)) 0 2 : ℕ∞) =
        min (noPath : ℕ∞) ((Fabric.triangle fun _ _ => true).dist 0 1) :=
  ⟨Fabric.ready_triangle _, fun _ _ => rfl,
    (buildLidMatrices_exact (Fabric.ready_triangle _) (fun _ _ => rfl) _).1 0 1⟩

end OpenSM.UcastMgr
