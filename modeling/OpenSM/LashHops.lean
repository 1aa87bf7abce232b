import OpenSM.LashLanes
import OpenSM.LashRoutes

/-! The channels of a route: the two routes of a pair go through each channel at most once. -/

namespace OpenSM.Lash

variable {n m : ℕ} {f : Fabric n m} {G : SimpleGraph (Fin n)} {sws : Switches n} {s d v : Fin n}
    {e : Channel n} {k : ℕ}

def Leads (G : SimpleGraph (Fin n)) (sws : Switches n) : Prop :=
  ∀ s d, s ≠ d → ∃ w, nextSwitch sws s d = some w ∧ G.Adj s w ∧ G.dist w d + 1 = G.dist s d

lemma leads_routingTables (hG : (switchGraph f).Connected)
    (hsws : routingTables (processSwitches f false) = some sws) : Leads (switchGraph f) sws := by
  have hlinked := linked_processSwitches f
  obtain ⟨sws', hsws', hgrown, hall⟩ := routingTables_spec hG hlinked processSwitches_spec.1
  obtain rfl := Option.some.inj (hsws.symm.trans hsws')
  intro s d hne
  obtain ⟨link, hlink⟩ := Option.ne_none_iff_exists'.mp (hall s d hne.symm)
  obtain ⟨l, hl, hdist⟩ := hgrown.toward s d link hlink
  have hmem : l.switchId ∈ ids sws s := List.mem_map.mpr ⟨l, List.mem_of_getElem? hl, rfl⟩
  refine ⟨l.switchId, ?_, (hgrown.linked hlinked).adj s _ hmem fun heq => ?_, hdist⟩
  · rw [nextSwitch, hlink, Option.bind_eq_bind, Option.bind_some, hl]
    rfl
  · rw [heq] at hdist
    exact Nat.succ_ne_self _ hdist

lemma mem_hops_succ (hlead : Leads G sws) (he : e ∈ hops sws d (k + 1) v) : ∃ w, G.Adj v w ∧
    G.dist w d + 1 = G.dist v d ∧ hops sws d (k + 1) v = (v, w) :: hops sws d k w := by
  rw [hops] at he ⊢
  split_ifs at he ⊢ with hv
  · cases he
  · obtain ⟨w, hw, hadj, hdist⟩ := hlead v d hv
    exact ⟨w, hadj, hdist, by rw [hw]; rfl⟩

lemma dist_hops_le (hlead : Leads G sws) (he : e ∈ hops sws d k v) : G.dist e.1 d ≤ G.dist v d := by
  induction k generalizing v with
  | zero => cases he
  | succ k ih =>
    obtain ⟨w, -, hdist, heq⟩ := mem_hops_succ hlead he
    rw [heq, List.mem_cons] at he
    rcases he with rfl | he
    · exact le_rfl
    · have hle := ih he
      omega

lemma nodup_hops (hlead : Leads G sws) : (hops sws d k v).Nodup := by
  induction k generalizing v with
  | zero => exact List.nodup_nil
  | succ k ih =>
    cases hhops : hops sws d (k + 1) v with
    | nil => exact List.nodup_nil
    | cons e rest =>
      obtain ⟨w, -, hdist, heq⟩ := @mem_hops_succ n G sws d v e k hlead (hhops ▸ List.mem_cons_self)
      rw [← hhops, heq, List.nodup_cons]
      refine ⟨fun hmem => ?_, ih⟩
      have hle := dist_hops_le hlead hmem
      dsimp only at hle
      omega

lemma dist_hops_succ (hG : G.Connected) (hlead : Leads G sws) (hv : G.dist s v + G.dist v d = G.dist s d)
    (he : e ∈ hops sws d k v) : G.dist s e.2 = G.dist s e.1 + 1 := by
  induction k generalizing v with
  | zero => cases he
  | succ k ih =>
    obtain ⟨w, hadj, hdist, heq⟩ := mem_hops_succ hlead he
    have hnear := hG.dist_triangle (u := s) (v := v) (w := w)
    have hfar := hG.dist_triangle (u := s) (v := w) (w := d)
    rw [SimpleGraph.dist_eq_one_iff_adj.mpr hadj] at hnear
    rw [heq, List.mem_cons] at he
    rcases he with rfl | he
    · dsimp only
      omega
    · exact ih (by omega) he

lemma dist_hops_lt (hlead : Leads G sws) (he : e ∈ hops sws d k v) : G.dist e.2 d < G.dist e.1 d := by
  induction k generalizing v with
  | zero => cases he
  | succ k ih =>
    obtain ⟨w, -, hdist, heq⟩ := mem_hops_succ hlead he
    rw [heq, List.mem_cons] at he
    rcases he with rfl | he
    · exact Nat.lt_of_succ_le hdist.le
    · exact ih he

lemma nodup_routes (hG : G.Connected) (hlead : Leads G sws) (s d : Fin n) :
    (route sws s d ++ route sws d s).Nodup := by
  refine List.nodup_append'.mpr ⟨nodup_hops hlead, nodup_hops hlead, fun e he he' => ?_⟩
  have haway := dist_hops_succ hG hlead (by rw [SimpleGraph.dist_self, zero_add]) he
  have htoward := dist_hops_lt hlead he'
  rw [SimpleGraph.dist_comm, SimpleGraph.dist_comm (u := e.1)] at htoward
  omega

end OpenSM.Lash
