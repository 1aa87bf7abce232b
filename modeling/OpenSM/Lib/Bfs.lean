import Mathlib

/-! Breadth-first search of a connected graph, as a relation between what has been seen, what is waiting and the
tree that is built. While the neighbours of a vertex are looked at, the vertex stays at the head of the waiting
list. -/

namespace OpenSM.Lib.Bfs

variable {V : Type*} {G : SimpleGraph V} {root : V}

lemma exists_pred (hG : G.Connected) {v : V} (hv : v ≠ root) : ∃ u, G.Adj u v ∧
    G.dist root u + 1 = G.dist root v := by
  obtain ⟨p, hp⟩ := hG.exists_walk_length_eq_dist v root
  cases p with
  | nil => exact absurd rfl hv
  | @cons _ u _ hadj q =>
    have hstep : G.dist root v ≤ G.dist root u + 1 :=
      (hG.dist_triangle (v := u)).trans (Nat.add_le_add_left (G.dist_eq_one_iff_adj.mpr hadj.symm).le _)
    have hle := G.dist_le q
    rw [SimpleGraph.Walk.length_cons, G.dist_comm] at hp
    rw [G.dist_comm] at hle
    exact ⟨u, hadj.symm, by omega⟩

lemma dist_succ_le (hG : G.Connected) {u v : V} (h : G.Adj u v) : G.dist root v ≤ G.dist root u + 1 :=
  (hG.dist_triangle (v := u)).trans (Nat.add_le_add_left (G.dist_eq_one_iff_adj.mpr h).le _)

variable (G root)

structure Search (seen closed : V → Prop) (child : V → V → Prop) (waiting : List V) (k : ℕ) : Prop where
  start : seen root
  waiting_iff : ∀ v, v ∈ waiting ↔ seen v ∧ ¬closed v
  closed_seen : ∀ v, closed v → seen v
  nodup : waiting.Nodup
  sorted : waiting.Pairwise fun v w => G.dist root v ≤ G.dist root w
  level : ∀ v ∈ waiting, k ≤ G.dist root v ∧ G.dist root v ≤ k + 1
  near : ∀ v, G.dist root v < k → closed v
  scanned : ∀ v w, closed v → G.Adj v w → seen w
  tree : ∀ p c, child p c → G.Adj p c ∧ G.dist root c = G.dist root p + 1
  parent : ∀ c, seen c → c ≠ root → ∃ p, child p c

variable {G root} {seen closed : V → Prop} {child : V → V → Prop} {waiting : List V} {k : ℕ} {u w : V}

lemma Search.init : Search G root (· = root) (fun _ => False) (fun _ _ => False) [root] 0 where
  start := rfl
  waiting_iff := by simp
  closed_seen := nofun
  nodup := List.nodup_singleton root
  sorted := List.pairwise_singleton _ root
  level := by simp
  near := nofun
  scanned := nofun
  tree := nofun
  parent c hc hne := absurd hc hne

lemma Search.congr {seen' closed' : V → Prop} {child' : V → V → Prop}
    (h : Search G root seen closed child waiting k)
    (hs : ∀ v, seen' v ↔ seen v) (hc : ∀ v, closed' v ↔ closed v) (ht : ∀ p c, child' p c ↔ child p c) :
    Search G root seen' closed' child' waiting k := by
  obtain rfl : seen' = seen := funext fun v => propext (hs v)
  obtain rfl : closed' = closed := funext fun v => propext (hc v)
  obtain rfl : child' = child := funext fun p => funext fun c => propext (ht p c)
  exact h

lemma Search.relevel (hG : G.Connected) (h : Search G root seen closed child (u :: waiting) k) :
    Search G root seen closed child (u :: waiting) (G.dist root u) := by
  obtain ⟨hk, hk'⟩ := h.level u List.mem_cons_self
  have hle : ∀ v ∈ u :: waiting, G.dist root u ≤ G.dist root v := by
    intro v hv
    rcases List.mem_cons.mp hv with rfl | hv
    · exact le_rfl
    · exact (List.pairwise_cons.mp h.sorted).1 v hv
  refine { h with
    level := fun v hv => ⟨hle v hv, (h.level v hv).2.trans (Nat.add_le_add_right hk 1)⟩
    near := fun v hv => ?_ }
  by_contra hopen
  -- A vertex before the head would be waiting, and so not before it.
  have hseen : seen v := by
    by_cases hv0 : v = root
    · exact hv0 ▸ h.start
    · obtain ⟨x, hx, hdist⟩ := exists_pred hG hv0
      exact h.scanned x v (h.near x (by omega)) hx
  have hwait := hle v ((h.waiting_iff v).mpr ⟨hseen, hopen⟩)
  omega

/-- A neighbour that has not been seen is one step farther, and joins the tree. -/
lemma Search.see (hG : G.Connected) (h : Search G root seen closed child (u :: waiting) (G.dist root u))
    (hadj : G.Adj u w) (hw : ¬seen w) : Search G root (fun v => seen v ∨ v = w) closed
      (fun p c => child p c ∨ p = u ∧ c = w) (u :: waiting ++ [w]) (G.dist root u) := by
  have hdist : G.dist root w = G.dist root u + 1 := by
    refine le_antisymm (dist_succ_le hG hadj) (Nat.succ_le_of_lt ?_)
    by_contra hle
    have hne : w ≠ root := fun h0 => hw (h0 ▸ h.start)
    obtain ⟨x, hx, hdist⟩ := exists_pred hG hne
    exact hw (h.scanned x w (h.near x (by omega)) hx)
  have hclosed : ¬closed w := fun hc => hw (h.closed_seen w hc)
  refine ⟨.inl h.start, fun v => ?_, fun v hv => .inl (h.closed_seen v hv), ?_, ?_, fun v hv => ?_, h.near,
    fun v x hv hx => .inl (h.scanned v x hv hx), ?_, ?_⟩
  · rw [List.mem_append, h.waiting_iff, List.mem_singleton]
    constructor
    · rintro (⟨hs, hc⟩ | rfl)
      · exact ⟨.inl hs, hc⟩
      · exact ⟨.inr rfl, hclosed⟩
    · rintro ⟨hs | rfl, hc⟩
      · exact .inl ⟨hs, hc⟩
      · exact .inr rfl
  · refine h.nodup.append (List.nodup_singleton w) (List.disjoint_singleton.mpr fun hmem => ?_)
    exact hw ((h.waiting_iff w).mp hmem).1
  · refine List.pairwise_append.mpr ⟨h.sorted, List.pairwise_singleton _ w, fun v hv x hx => ?_⟩
    rw [List.mem_singleton.mp hx, hdist]
    exact (h.level v hv).2
  · rcases List.mem_append.mp hv with hv | hv
    · exact h.level v hv
    · rw [List.mem_singleton.mp hv, hdist]
      exact ⟨Nat.le_succ _, le_rfl⟩
  · rintro p c (hpc | ⟨rfl, rfl⟩)
    · exact h.tree p c hpc
    · exact ⟨hadj, hdist⟩
  · rintro c (hc | rfl) hne
    · obtain ⟨p, hp⟩ := h.parent c hc hne
      exact ⟨p, .inl hp⟩
    · exact ⟨u, .inr ⟨rfl, rfl⟩⟩

lemma Search.close (h : Search G root seen closed child (u :: waiting) k)
    (hall : ∀ w, G.Adj u w → seen w) : Search G root seen (fun v => closed v ∨ v = u) child waiting k := by
  obtain ⟨hu, hnodup⟩ := List.nodup_cons.mp h.nodup
  have hseen := ((h.waiting_iff u).mp List.mem_cons_self).1
  refine { h with
    waiting_iff := fun v => ?_
    closed_seen := fun v hv => hv.elim (h.closed_seen v) fun hvu => hvu ▸ hseen
    nodup := hnodup
    sorted := (List.pairwise_cons.mp h.sorted).2
    level := fun v hv => h.level v (List.mem_cons_of_mem u hv)
    near := fun v hv => .inl (h.near v hv)
    scanned := fun v w hv hw => hv.elim (fun hv => h.scanned v w hv hw) fun hvu => hall w (hvu ▸ hw) }
  have hiff := h.waiting_iff v
  constructor
  · intro hv
    obtain ⟨hs, hc⟩ := hiff.mp (List.mem_cons_of_mem u hv)
    exact ⟨hs, fun hcu => hcu.elim hc fun hvu => hu (hvu ▸ hv)⟩
  · rintro ⟨hs, hc⟩
    rcases List.mem_cons.mp (hiff.mpr ⟨hs, fun h => hc (.inl h)⟩) with hvu | hv
    · exact absurd (.inr hvu) hc
    · exact hv

lemma Search.all_seen (hG : G.Connected) (h : Search G root seen closed child [] k) (v : V) : seen v := by
  have hclosed : ∀ v, seen v → closed v := fun v hv => by
    by_contra hc
    exact List.not_mem_nil ((h.waiting_iff v).mpr ⟨hv, hc⟩)
  induction hd : G.dist root v generalizing v with
  | zero =>
    rw [← (hG.dist_eq_zero_iff).mp hd]
    exact h.start
  | succ d ih =>
    have hne : v ≠ root := by
      rintro rfl
      simp at hd
    obtain ⟨x, hx, hdist⟩ := exists_pred hG hne
    exact h.scanned x v (hclosed x (ih x (by omega))) hx

lemma dist_below (hG : G.Connected) (htree : ∀ p c, child p c → G.Adj p c ∧ G.dist root c = G.dist root p + 1)
    {p x : V}
    (h : Relation.ReflTransGen child p x) : G.dist root x = G.dist root p + G.dist p x := by
  induction h using Relation.ReflTransGen.head_induction_on with
  | refl => rw [G.dist_self, add_zero]
  | @head p c hpc _ ih =>
    obtain ⟨hadj, hdist⟩ := htree p c hpc
    have hle : G.dist p x ≤ G.dist p c + G.dist c x := hG.dist_triangle
    have hge : G.dist root x ≤ G.dist root p + G.dist p x := hG.dist_triangle
    rw [G.dist_eq_one_iff_adj.mpr hadj] at hle
    omega

lemma below_root (hG : G.Connected) (htree : ∀ p c, child p c → G.Adj p c ∧ G.dist root c = G.dist root p + 1)
    (hparent : ∀ c, c ≠ root → ∃ p, child p c) (x : V) : Relation.ReflTransGen child root x := by
  induction hd : G.dist root x generalizing x with
  | zero =>
    rw [← (hG.dist_eq_zero_iff).mp hd]
  | succ d ih =>
    have hne : x ≠ root := by
      rintro rfl
      simp at hd
    obtain ⟨p, hp⟩ := hparent x hne
    exact (ih p (by have := (htree p x hp).2; omega)).tail hp

lemma dist_lt_card [Fintype V] (hG : G.Connected) (u v : V) : G.dist u v < Fintype.card V := by
  obtain ⟨p, hp, hlen⟩ := hG.exists_path_of_dist u v
  exact hlen ▸ hp.length_lt

end OpenSM.Lib.Bfs
