import OpenSM.Lib.Flood
import OpenSM.McastTree

/-! What the spanning tree of a multicast group is for: a packet that an end port sends to the group. -/

namespace OpenSM.McastMgr

open Lib.Flood Switch UcastMgr

variable {n m : ℕ} (u : Subnet n m)

def farEnd (s : Fin n) (p : ℕ) : Option (Fin n × ℕ ⊕ EndPort n m) :=
  if p = 0 then some (.inr (.sw s))
  else
    match u.remote s p with
    | some (.sw r q) => some (.inl (r, q))
    | some (.ca c) => some (.inr (.ca c))
    | none => none

/-- The switches with their multicast tables: a packet leaves over all ports whose bit is set, but not over the
one it came in. -/
def mcastNet (bit : Fin n → ℕ → Bool) : Net (Fin n) (EndPort n m) where
  ports s := (List.range (u.numPorts s)).filter fun p => bit s p
  far := farEnd u

variable {u}

lemma farEnd_inl {s r : Fin n} {p q : ℕ} : farEnd u s p = some (.inl (r, q)) ↔ u.remote s p = some (.sw r q) := by
  rw [farEnd]
  split_ifs with hp
  · refine iff_of_false (by simp) fun h => ?_
    exact (u.remote_port _ _ _ h).1.ne' hp
  · rcases u.remote s p with _ | ⟨r', q'⟩ | c <;> simp

lemma farEnd_inr {s : Fin n} {p : ℕ} {e : EndPort n m} : farEnd u s p = some (.inr e) ↔
    target u e = some (s, p) := by
  rw [farEnd]
  cases e with
  | sw d =>
    rw [target]
    split_ifs with hp
    · simp [hp, eq_comm]
    · refine iff_of_false ?_ (by simp [Ne.symm hp])
      rcases u.remote s p with _ | ⟨r', q'⟩ | c <;> simp
  | ca c =>
    rw [target, ← u.remote_ca]
    split_ifs with hp
    · refine iff_of_false (by simp) fun h => ?_
      exact (u.remote_port _ _ _ h).1.ne' hp
    · rcases u.remote s p with _ | ⟨r', q'⟩ | c <;> simp

lemma target_lt {s : Fin n} {p : ℕ} {e : EndPort n m} (h : target u e = some (s, p)) : p < u.numPorts s := by
  cases e with
  | sw d =>
    cases h
    exact u.numPorts_pos _
  | ca c => exact (u.remote_port _ _ _ ((u.remote_ca _ _ _).mpr h)).2

section Tree

variable {M : List (EndPort n m)} {bit : Fin n → ℕ → Bool}

lemma mem_ports {s : Fin n} {p : ℕ} : p ∈ (mcastNet u bit).ports s ↔ p < u.numPorts s ∧ bit s p = true := by
  rw [mcastNet, List.mem_filter, List.mem_range]

lemma IsSpanningTree.isTree (h : IsSpanningTree u M bit) : IsTree (mcastNet u bit) (treeGraph u bit) where
  nodup s := List.nodup_range.filter _
  adj s p r q hp hr := by
    have hr := farEnd_inl.mp hr
    exact ⟨(h.no_loop s p r q (mem_ports.mp hp).2 hr).symm, .inl ⟨p, q, (mem_ports.mp hp).2, hr⟩⟩
  port s r hadj := by
    obtain ⟨-, ⟨p, q, hp, hr⟩ | ⟨q, p, hq, hr⟩⟩ := hadj
    · exact ⟨p, q, mem_ports.mpr ⟨(u.remote_port _ _ _ hr).2, hp⟩, farEnd_inl.mpr hr⟩
    · have hs := u.remote_symm _ _ _ _ hr
      exact ⟨p, q, mem_ports.mpr ⟨(u.remote_port _ _ _ hs).2, (h.paired _ _ _ _ hr).mp hq⟩, farEnd_inl.mpr hs⟩
  back s p r q hp hr := by
    have hr := farEnd_inl.mp hr
    have hs := u.remote_symm _ _ _ _ hr
    exact ⟨mem_ports.mpr ⟨(u.remote_port _ _ _ hs).2, (h.paired _ _ _ _ hr).mp (mem_ports.mp hp).2⟩,
        farEnd_inl.mpr hs⟩
  single s p p' r q q' hp hp' hr hr' := h.no_parallel s p p' r q q' (mem_ports.mp hp).2 (mem_ports.mp hp').2
    (farEnd_inl.mp hr) (farEnd_inl.mp hr')
  acyclic := h.acyclic
  owner s p s' p' e he he' := by
    have heq := (farEnd_inr.mp he).symm.trans (farEnd_inr.mp he')
    cases heq
    exact ⟨rfl, rfl⟩

lemma IsSpanningTree.delivers (h : IsSpanningTree u M bit) {e₀ : EndPort n m} {d : Fin n} {q p : ℕ}
    (ht : target u e₀ = some (d, q)) (hp : bit d p = true) {k : ℕ} (hk : n ≤ k) :
    ∃ es, flood (mcastNet u bit) k d q = some es ∧ es.Nodup ∧ ∀ e, e ∈ es ↔ e ∈ M ∧ e ≠ e₀ := by
  obtain ⟨es, hes, hnd, hmem⟩ := h.isTree.flood_of_end (farEnd_inr.mpr ht) (k := k) (by rwa [Nat.card_fin])
  refine ⟨es, hes, hnd, fun e => (hmem e).trans ⟨?_, ?_⟩⟩
  · rintro ⟨hne, t, x, -, hx, he⟩
    have he := farEnd_inr.mp he
    refine ⟨?_, hne⟩
    rcases h.only t x (mem_ports.mp hx).2 with ⟨r, y, hr⟩ | ⟨e', he', htarget⟩
    · have hinl := farEnd_inl.mpr hr
      rw [farEnd_inr.mpr he] at hinl
      cases hinl
    · have hinr := farEnd_inr.mpr htarget
      rw [farEnd_inr.mpr he] at hinr
      cases hinr
      exact he'
  · rintro ⟨he, hne⟩
    obtain ⟨t, x, htarget, hx⟩ := h.member e he
    exact ⟨hne, t, x, h.connected d p t x hp hx, mem_ports.mpr ⟨target_lt htarget, hx⟩, farEnd_inr.mpr htarget⟩

end Tree

/-- With healthy links a packet that a member sends to the group, or another end port at a switch of its tree,
comes to an end and brings one copy to every other member and none to anybody else. -/
theorem buildSpanningTree_delivers (hf : u.Ready) (hh : u.AllHealthy) (H₀ : Hops n) {mcastCap : Fin n → ℕ}
    (hcap : ∀ s, mcastCap s ≠ 0) (mlid : ℕ) (groups : List (List (EndPort n m))) (t : Mft n)
    (hlen : 2 ≤ (makePortList groups).length) (root : Fin n)
    (hroot : findOptimalSwitch u mcastCap (minHops u H₀) (makePortList groups) = some root)
    (hnear : ∀ e ∈ makePortList groups, ∃ d q, target u e = some (d, q) ∧ u.dist root d < 63) :
    let bit := fun s => (buildSpanningTree u mcastCap (minHops u H₀) mlid groups (clear t mlid)).mft s mlid
    ∀ e₀ d q, target u e₀ = some (d, q) → (e₀ ∈ makePortList groups ∨ ∃ p, bit d p = true) → ∀ k, n ≤ k →
      ∃ es, flood (mcastNet u bit) k d q = some es ∧ es.Nodup ∧ ∀ e, e ∈ es ↔
          e ∈ makePortList groups ∧ e ≠ e₀ := by
  intro bit e₀ d q ht hsend k hk
  have hne : makePortList groups ≠ [] := List.ne_nil_of_length_pos (by omega)
  have hbuilt := branch_built hf hh H₀ hcap mlid 63 le_rfl root (makePortList groups) hne hnear 0
    { mft := clear t mlid, maxDepth := 0, entered := [] }
  have heq : buildSpanningTree u mcastCap (minHops u H₀) mlid groups (clear t mlid) =
      branch u mcastCap (minHops u H₀) mlid 63 root (makePortList groups) 0
        { mft := clear t mlid, maxDepth := 0, entered := [] } := by
    simp only [buildSpanningTree, if_neg (not_lt.mpr hlen), hroot]
  have htree : IsSpanningTree u (makePortList groups) bit := by
    refine isSpanningTree hf hh H₀ root (fun e he => ?_) fun s p => ?_
    · obtain ⟨d, q, ht, hd⟩ := hnear e he
      exact ⟨d, q, ht, hd.trans_le (by decide)⟩
    · change (buildSpanningTree u mcastCap (minHops u H₀) mlid groups (clear t mlid)).mft s mlid p = true ↔ _
      rw [heq, hbuilt.mft]
      simp [clear]
  rcases hsend with he₀ | ⟨p, hp⟩
  · obtain ⟨d', q', ht', hbit⟩ := htree.member e₀ he₀
    rw [ht] at ht'
    cases ht'
    exact htree.delivers ht hbit hk
  · exact htree.delivers ht hp hk

/-- A channel adapter sends to the two other members. -/
theorem buildSpanningTree_delivers_triangle :
    let bit := fun s => (buildSpanningTree (Subnet.triangle fun _ _ => true) (fun _ => 64)
      (minHops (Subnet.triangle fun _ _ => true) fun _ _ => none) 0xC000 [[.ca 0, .sw 0], [.ca 0, .sw 1]]
      (clear (fun _ _ _ => true) 0xC000)).mft s 0xC000
    ∃ es, flood (mcastNet (Subnet.triangle fun _ _ => true) bit) 3 2 3 = some es ∧ es.Nodup ∧
      ∀ e, e ∈ es ↔ e ∈ makePortList [[.ca 0, .sw 0], [.ca 0, .sw 1]] ∧ e ≠ (.ca 0 : EndPort 3 1) := by
  refine buildSpanningTree_delivers (Fabric.ready_triangle _) (fun _ _ => rfl) _ (fun _ => by decide) 0xC000
    [[.ca 0, .sw 0], [.ca 0, .sw 1]] (fun _ _ _ => true) (by decide) 2 (by decide +kernel) ?_ (.ca 0) 2 3 rfl
    (.inl (by decide)) 3 le_rfl
  intro e he
  have he' : e ∈ [EndPort.ca 0, .sw 0, .sw 1] := he
  have hone : ∀ d, (Subnet.triangle fun _ _ => true).Link 2 d 1 →
      (Subnet.triangle fun _ _ => true).dist 2 d < 63 :=
    fun d h => (Lib.Paths.dist_last h).trans_lt (by decide)
  simp only [List.mem_cons, List.not_mem_nil, or_false] at he'
  rcases he' with rfl | rfl | rfl
  · refine ⟨2, 3, rfl, ?_⟩
    have hself : (Subnet.triangle fun _ _ => true).dist 2 2 = 0 := Lib.Paths.dist_self 2
    rw [hself]
    decide
  · exact ⟨0, 0, rfl, hone 0 ⟨1, 2, rfl, rfl⟩⟩
  · exact ⟨1, 0, rfl, hone 1 ⟨2, 1, rfl, rfl⟩⟩

end OpenSM.McastMgr
