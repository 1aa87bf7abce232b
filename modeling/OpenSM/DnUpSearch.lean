import OpenSM.DnUpRank

/-! The search from one switch. A switch is queued again whenever one of its ports gets a hop count, so
the invariant tells the switches that have been expanded from those whose first turn is still to come. -/

namespace OpenSM.DnUp

open Lib Lib.Drive Lib.UpDown Switch

variable {n m : ℕ} {f : Fabric n m}

section Offer

variable {b : Bfs n} {lid r q x y : ℕ}

lemma getDir_down {a b : ℕ} : getDir a b = .down ↔ a < b := by
  rw [getDir]
  split_ifs <;> simp <;> omega

lemma getDir_up {a b : ℕ} : getDir a b = .up ↔ b < a := by
  rw [getDir]
  split_ifs <;> simp <;> omega

/-- The hop counts and the queue entries that are left: an offer that is taken lowers a hop count. -/
def work (f : Fabric n m) (lid : ℕ) (b : Bfs n) : ℕ :=
  (∑ v, ∑ q ∈ Finset.range 256, getHopCount f b.hops v lid q) + b.list.length

lemma sum_setHops_lt {H : Hops n} {r : Fin n} {lid q x : ℕ} (hl : 0 < lid) (hm : lid ≤ f.maxLidHo r)
    (hq : 0 < q) (hp : q < f.numPorts r) (hx : x < getHopCount f H r lid q) :
    ∑ v, ∑ q' ∈ Finset.range 256, getHopCount f (setHops f H r lid q x).1 v lid q' <
      ∑ v, ∑ q' ∈ Finset.range 256, getHopCount f H v lid q' := by
  have hget := getHopCount_setHops (H := H) (h := x) hl hm hp
  have hle : ∀ v q', getHopCount f (setHops f H r lid q x).1 v lid q' ≤ getHopCount f H v lid q' := by
    intro v q'
    rw [hget]
    split_ifs with hv h0 hq0 hqq
    · omega
    · rw [hv.1, h0]
      exact min_le_left _ _
    · rw [hv.1, hqq]
      exact hx.le
    · rw [hv.1]
    · exact le_rfl
  have hports := f.numPorts_le r
  refine Finset.sum_lt_sum (fun v _ => Finset.sum_le_sum fun q' _ => hle v q') ⟨r, Finset.mem_univ r, ?_⟩
  refine Finset.sum_lt_sum (fun q' _ => hle r q') ⟨q, Finset.mem_range.mpr (by omega), ?_⟩
  rw [hget]
  simpa [hq.ne'] using hx

lemma Bfs.offer_neg {r : Fin n} {dir : SwitchDir} (h : ¬ x + 1 < y) : b.offer f lid r q dir x y = b := by
  simp only [Bfs.offer, if_neg h]

lemma Bfs.offer_hops {r : Fin n} {dir : SwitchDir} (h : x + 1 < y) :
    (b.offer f lid r q dir x y).hops = (setHops f b.hops r lid q (x + 1)).1 := by
  simp only [Bfs.offer, if_pos h]
  split_ifs <;> rfl

lemma Bfs.offer_visited {r : Fin n} {dir : SwitchDir} (h : b.visited r = true) :
    (b.offer f lid r q dir x y).list = b.list ∧ (b.offer f lid r q dir x y).dir = b.dir ∧
      (b.offer f lid r q dir x y).visited = b.visited := by
  rw [Bfs.offer]
  split_ifs <;> simp_all

lemma Bfs.offer_fresh {r : Fin n} {dir : SwitchDir} (h : x + 1 < y) (hv : b.visited r = false) :
    (b.offer f lid r q dir x y).list = b.list ++ [r] ∧
      (b.offer f lid r q dir x y).dir = Function.update b.dir r dir ∧
      (b.offer f lid r q dir x y).visited = Function.update b.visited r true := by
  simp [Bfs.offer, h, hv]

lemma Bfs.offer_list_le (f : Fabric n m) (b : Bfs n) (lid : ℕ) (r : Fin n) (q : ℕ) (dir : SwitchDir)
    (x y : ℕ) : (b.offer f lid r q dir x y).list.length ≤ b.list.length + 1 := by
  cases hv : b.visited r with
  | true => rw [(Bfs.offer_visited hv).1]; exact Nat.le_succ _
  | false =>
    by_cases h : x + 1 < y
    · rw [(Bfs.offer_fresh h hv).1, List.length_append, List.length_singleton]
    · rw [Bfs.offer_neg h]
      exact Nat.le_succ _

lemma work_offer {r : Fin n} {dir : SwitchDir} (hl : 0 < lid) (hm : lid ≤ f.maxLidHo r) (hq : 0 < q)
    (hp : q < f.numPorts r) : work f lid (b.offer f lid r q dir x (getHopCount f b.hops r lid q)) ≤
        work f lid b := by
  by_cases h : x + 1 < getHopCount f b.hops r lid q
  · have hsum := sum_setHops_lt hl hm hq hp h
    have hlen := Bfs.offer_list_le f b lid r q dir x (getHopCount f b.hops r lid q)
    rw [work, work, Bfs.offer_hops h]
    omega
  · rw [Bfs.offer_neg h]

end Offer

section Search

variable (f) (rk : Fin n → ℕ) (d : Fin n)

noncomputable abbrev dist (v : Fin n) : ℕ := capped (Cabled f) rk d noPath v

/-- The rows for `d` while the links in `S` have been looked at from their near side. -/
structure Filled (S : Fin n → ℕ → Prop) (H : Hops n) : Prop where
  settled : ∀ v q u p, f.remote v q = some (.sw u p) → S u p → Step (Cabled f) rk d u v →
    getHopCount f H v (f.lid d) q = min noPath (dist f rk d u + 1)
  blank : ∀ v q, q ≠ 0 → (∀ u p, f.remote v q = some (.sw u p) → S u p → ¬ Step (Cabled f) rk d u v) →
    getHopCount f H v (f.lid d) q = noPath
  self : getLeastHops f H d (f.lid d) = 0
  le : ∀ v q, getLeastHops f H v (f.lid d) ≤ getHopCount f H v (f.lid d) q
  attained : ∀ v, v ≠ d → getLeastHops f H v (f.lid d) = noPath ∨
    ∃ q, q ≠ 0 ∧ getHopCount f H v (f.lid d) q = getLeastHops f H v (f.lid d)

structure Search (P : Fin n → Prop) (S : Fin n → ℕ → Prop) (k : ℕ) (b : Bfs n) : Prop where
  filled : Filled f rk d S b.hops
  source : P d
  settled : ∀ u p, S u p → P u
  done : ∀ v, P v → getLeastHops f b.hops v (f.lid d) = dist f rk d v
  queued : ∀ v ∈ b.list, getLeastHops f b.hops v (f.lid d) < noPath
  complete : ∀ v, getLeastHops f b.hops v (f.lid d) < noPath → P v ∨ v ∈ b.list
  visited : ∀ v, b.visited v = true ↔ v ∈ b.list
  nodup : b.list.Nodup
  sorted : b.list.Pairwise fun v w => ¬ P v → ¬ P w →
    getLeastHops f b.hops v (f.lid d) ≤ getLeastHops f b.hops w (f.lid d)
  low : ∀ v ∈ b.list, ¬ P v → k ≤ getLeastHops f b.hops v (f.lid d)
  high : ∀ v, getLeastHops f b.hops v (f.lid d) < noPath → getLeastHops f b.hops v (f.lid d) ≤ k + 1
  near : ∀ v, dist f rk d v < k → P v
  free : ∀ v ∈ b.list, b.dir v ≠ .up → Free (Cabled f) rk d v
  bound : ∀ v ∈ b.list, b.dir v = .up → ∃ w, Cabled f w v ∧ rk v < rk w
  fresh : ∀ v ∈ b.list, ¬ P v → Free (Cabled f) rk d v → b.dir v ≠ .up

variable {f} {rk} {d} {P : Fin n → Prop} {S : Fin n → ℕ → Prop} {k : ℕ} {b : Bfs n} {u r : Fin n} {p q : ℕ}

lemma bfsPort_eq (h : f.remote u p = some (.sw r q)) (dir : SwitchDir) (lid : ℕ) (b : Bfs n) :
    bfsPort f rk 0 lid u dir b p =
      if dir = .up ∧ getDir (rk u) (rk r) = .down then b
      else b.offer f lid r q (getDir (rk u) (rk r)) (getLeastHops f b.hops u lid)
          (getHopCount f b.hops r lid q) := by
  simp only [bfsPort, h]
  split_ifs <;> first | rfl | contradiction

lemma bfsPort_skip (h : ∀ r q, f.remote u p ≠ some (.sw r q)) (dir : SwitchDir) (lid : ℕ) (b : Bfs n) :
    bfsPort f rk 0 lid u dir b p = b := by
  rw [bfsPort]
  split
  · rename_i r q hr
    exact absurd hr (h r q)
  · rfl

lemma step_of_allowed (ht : TopTies (Cabled f) rk) {dir : SwitchDir} (hr : Cabled f u r)
    (hfree : dir ≠ .up → Free (Cabled f) rk d u) (hbound : dir = .up → ∃ w, Cabled f w u ∧ rk u < rk w)
    (h : ¬ (dir = .up ∧ getDir (rk u) (rk r) = .down)) : Step (Cabled f) rk d u r := by
  refine ⟨hr, ?_⟩
  by_cases hdir : dir = .up
  · obtain ⟨w, hw, hlt⟩ := hbound hdir
    rw [getDir_down] at h
    have hle : ¬ rk u < rk r := fun hur => h ⟨hdir, hur⟩
    rcases (not_lt.mp hle).lt_or_eq with hlt' | heq
    · exact Or.inr hlt'
    · exact absurd hlt (ht u r w hr heq.symm hw.symm)
  · exact Or.inl (hfree hdir)

lemma not_allowed {dir : SwitchDir} (hfresh : Free (Cabled f) rk d u → dir ≠ .up)
    (h : dir = .up ∧ getDir (rk u) (rk r) = .down) : ¬ Step (Cabled f) rk d u r := by
  rintro ⟨-, hs⟩
  rw [getDir_down] at h
  rcases hs with hs | hs
  · exact hfresh hs h.1
  · exact absurd h.2 (not_lt.mpr hs.le)

lemma Filled.offer (hf : Ready f) (h : Filled f rk d S b.hops) (hur : f.remote u p = some (.sw r q))
    (hnew : ¬ S u p) (hs : Step (Cabled f) rk d u r) {x : ℕ} (hx : x = dist f rk d u) (hlt : x + 1 < noPath) :
    Filled f rk d (fun v p' => S v p' ∨ v = u ∧ p' = p) (setHops f b.hops r (f.lid d) q (x + 1)).1 ∧
    ∀ v, getLeastHops f (setHops f b.hops r (f.lid d) q (x + 1)).1 v (f.lid d) =
      if v = r then min (getLeastHops f b.hops r (f.lid d)) (x + 1) else getLeastHops f b.hops v (f.lid d) := by
  have hback := f.remote_symm _ _ _ _ hur
  have hq := f.remote_port _ _ _ hback
  have hget := getHopCount_setHops (H := b.hops) (h := x + 1) (hf.lid_pos d) (hf.lid_le r d) hq.2
  have hlevel : ∀ v, getLeastHops f (setHops f b.hops r (f.lid d) q (x + 1)).1 v (f.lid d) =
      if v = r then min (getLeastHops f b.hops r (f.lid d)) (x + 1) else getLeastHops f b.hops v (f.lid d) := by
    intro v
    rw [getLeastHops, hget]
    by_cases hv : v = r
    · simp [hv, hq.1.ne', getLeastHops]
    · simp [hv, getLeastHops]
  have hentry : ∀ v q', q' ≠ 0 → getHopCount f (setHops f b.hops r (f.lid d) q (x + 1)).1 v (f.lid d) q' =
      if v = r ∧ q' = q then x + 1 else getHopCount f b.hops v (f.lid d) q' := by
    intro v q' hq'
    rw [hget]
    by_cases hv : v = r
    · simp [hv, hq']
    · simp [hv]
  refine ⟨?_, hlevel⟩
  constructor
  · intro v q' u' p' hr' hS' hs'
    have hq' := f.remote_port _ _ _ hr'
    rw [hentry v q' hq'.1.ne']
    split_ifs with hv
    · obtain ⟨rfl, rfl⟩ := hv
      rw [hback] at hr'
      cases hr'
      rw [min_eq_right (by omega), hx]
    · refine h.settled v q' u' p' hr' (hS'.resolve_right ?_) hs'
      rintro ⟨rfl, rfl⟩
      rw [f.remote_symm _ _ _ _ hr'] at hur
      cases hur
      exact hv ⟨rfl, rfl⟩
  · intro v q' hq' hno
    rw [hentry v q' hq']
    split_ifs with hv
    · obtain ⟨rfl, rfl⟩ := hv
      exact absurd hs (hno u p hback (Or.inr ⟨rfl, rfl⟩))
    · exact h.blank v q' hq' fun u' p' hr' hS' => hno u' p' hr' (Or.inl hS')
  · rw [hlevel]
    split_ifs with hd
    · rw [← hd, h.self]
      exact Nat.zero_min _
    · exact h.self
  · intro v q'
    by_cases hq' : q' = 0
    · rw [hq']
      exact le_rfl
    · rw [hlevel, hentry v q' hq']
      split_ifs with hv hvq hvq
      · exact min_le_right _ _
      · rw [← hv]
        exact (min_le_left _ _).trans (h.le v q')
      · exact absurd hvq.1 hv
      · exact h.le v q'
  · intro v hv
    rw [hlevel]
    split_ifs with hvr
    · subst hvr
      rcases le_total (getLeastHops f b.hops v (f.lid d)) (x + 1) with hle | hle
      · rw [min_eq_left hle]
        right
        rcases h.attained v hv with h0 | ⟨q', hq', he⟩
        · omega
        · refine ⟨q', hq', ?_⟩
          rw [hentry v q' hq', if_neg, he]
          rintro ⟨-, rfl⟩
          have hblank := h.blank v q' hq' fun u' p' hr' hS' => by
            rw [hback] at hr'
            cases hr'
            exact absurd hS' hnew
          omega
      · rw [min_eq_right hle]
        right
        refine ⟨q, hq.1.ne', ?_⟩
        rw [hentry v q hq.1.ne', if_pos ⟨rfl, rfl⟩]
    · rcases h.attained v hv with h0 | ⟨q', hq', he⟩
      · exact Or.inl h0
      · refine Or.inr ⟨q', hq', ?_⟩
        rw [hentry v q' hq', if_neg (fun hh => hvr hh.1), he]

lemma Filled.skip {H : Hops n} (h : Filled f rk d S H) (hnew : ¬ S u p)
    (hno : ∀ r q, f.remote u p = some (.sw r q) → Step (Cabled f) rk d u r → noPath ≤ dist f rk d u + 1) :
    Filled f rk d (fun v p' => S v p' ∨ v = u ∧ p' = p) H := by
  refine ⟨?_, ?_, h.self, h.le, h.attained⟩
  · rintro v q' u' p' hr' (hS' | ⟨rfl, rfl⟩) hs'
    · exact h.settled v q' u' p' hr' hS' hs'
    · have hle := hno v q' (f.remote_symm _ _ _ _ hr') hs'
      rw [min_eq_left hle]
      refine h.blank v q' (f.remote_port _ _ _ hr').1.ne' fun u₁ p₁ hr₁ hS₁ => ?_
      rw [hr'] at hr₁
      cases hr₁
      exact absurd hS₁ hnew
  · intro v q' hq' hh
    exact h.blank v q' hq' fun u' p' hr' hS' => hh u' p' hr' (Or.inl hS')

lemma Search.le_noPath (h : Search f rk d P S k b) (v : Fin n) :
    getLeastHops f b.hops v (f.lid d) ≤ noPath := by
  by_contra hlt
  have hne : v ≠ d := by
    rintro rfl
    rw [h.filled.self] at hlt
    exact hlt (Nat.zero_le _)
  rcases h.filled.attained v hne with h0 | ⟨q, hq, he⟩
  · exact hlt h0.le
  · by_cases hs : ∃ u p, f.remote v q = some (.sw u p) ∧ S u p ∧ Step (Cabled f) rk d u v
    · obtain ⟨u, p, hr, hS, hstep⟩ := hs
      have hent := h.filled.settled v q u p hr hS hstep
      exact hlt (he ▸ hent ▸ min_le_left _ _)
    · have hent := h.filled.blank v q hq fun u p hr hS hstep => hs ⟨u, p, hr, hS, hstep⟩
      exact hlt (he ▸ hent.le)

lemma Search.dist_of_new (h : Search f rk d P S k b) (hS : ∀ v p, P v → dist f rk d v < k → S v p)
    (hr : ¬ P r) (hnew : ¬ getLeastHops f b.hops r (f.lid d) < noPath) (hlt : k + 1 < noPath)
    (hle : dist f rk d r ≤ k + 1) : dist f rk d r = k + 1 := by
  by_contra hne
  have hne' : r ≠ d := fun hd => hr (hd ▸ h.source)
  have hcap : dist f rk d r < noPath := by omega
  obtain ⟨w, hs, hw⟩ := capped_pred hne' hcap
  have hwk : dist f rk d w < k := by
    change dist f rk d r = dist f rk d w + 1 at hw
    omega
  obtain ⟨p, q, hpq⟩ := hs.1
  have hent := h.filled.settled r q w p (f.remote_symm _ _ _ _ hpq) (hS w p (h.near w hwk) hwk) hs
  have hle' := h.filled.le r q
  rw [hent] at hle'
  exact hnew (hle'.trans_lt (by rw [min_lt_iff]; exact Or.inr (by omega)))

/-- One port of the switch that is being expanded. -/
lemma Search.port (hf : Ready f) (hr : Ranked (Cabled f) rk) (ht : TopTies (Cabled f) rk)
    (h : Search f rk d P S k b) {dir : SwitchDir}
    (hu : P u) (huk : dist f rk d u = k) (hnew : ¬ S u p)
    (hS : ∀ v p, P v → dist f rk d v < k → S v p)
    (hfree : dir ≠ .up → Free (Cabled f) rk d u) (hbound : dir = .up → ∃ w, Cabled f w u ∧ rk u < rk w)
    (hfresh : Free (Cabled f) rk d u → dir ≠ .up) :
    Search f rk d P (fun v p' => S v p' ∨ v = u ∧ p' = p) k (bfsPort f rk 0 (f.lid d) u dir b p) := by
  have hsettled : ∀ v p', S v p' ∨ v = u ∧ p' = p → P v := by
    rintro v p' (hS' | ⟨rfl, -⟩)
    · exact h.settled v p' hS'
    · exact hu
  have hskip (hno : ∀ r q, f.remote u p = some (.sw r q) → Step (Cabled f) rk d u r →
      noPath ≤ dist f rk d u + 1) : Search f rk d P (fun v p' => S v p' ∨ v = u ∧ p' = p) k b :=
    { h with filled := h.filled.skip hnew hno, settled := hsettled }
  by_cases hrem : ∃ r q, f.remote u p = some (.sw r q)
  swap
  · rw [bfsPort_skip fun r q hrq => hrem ⟨r, q, hrq⟩]
    exact hskip fun r q hrq => (hrem ⟨r, q, hrq⟩).elim
  obtain ⟨r, q, hur⟩ := hrem
  rw [bfsPort_eq hur]
  split_ifs with hno
  · refine hskip fun r' q' hr' hs => ?_
    rw [hur] at hr'
    cases hr'
    exact absurd hs (not_allowed hfresh hno)
  have hstep : Step (Cabled f) rk d u r := step_of_allowed ht ⟨p, q, hur⟩ hfree hbound hno
  have hback := f.remote_symm _ _ _ _ hur
  have hy : getHopCount f b.hops r (f.lid d) q = noPath := by
    refine h.filled.blank r q (f.remote_port _ _ _ hback).1.ne' fun u' p' hr' hS' => ?_
    rw [hback] at hr'
    cases hr'
    exact absurd hS' hnew
  have hx : getLeastHops f b.hops u (f.lid d) = k := (h.done u hu).trans huk
  rw [hx, hy]
  by_cases hlt : k + 1 < noPath
  swap
  · rw [Bfs.offer_neg hlt]
    refine hskip fun _ _ _ _ => ?_
    rw [huk]
    exact not_lt.mp hlt
  obtain ⟨hfilled, hlevel⟩ := h.filled.offer hf hur hnew hstep huk.symm hlt
  have hdist : dist f rk d r ≤ k + 1 := huk ▸ capped_step hstep
  have hops : (b.offer f (f.lid d) r q (getDir (rk u) (rk r)) k noPath).hops = _ := Bfs.offer_hops hlt
  cases hvis : b.visited r with
  | true =>
    -- the switch is waiting for its turn, with a hop count that is at least as good
    obtain ⟨hl, hd, hv⟩ := @Bfs.offer_visited _ _ f _ (f.lid d) q k noPath _ (getDir (rk u) (rk r)) hvis
    have hmem := (h.visited r).mp hvis
    have hsame : ∀ v, getLeastHops f (setHops f b.hops r (f.lid d) q (k + 1)).1 v (f.lid d) =
        getLeastHops f b.hops v (f.lid d) := by
      intro v
      rw [hlevel]
      split_ifs with hv
      · rw [hv, min_eq_left (h.high r (h.queued r hmem))]
      · rfl
    generalize b.offer f (f.lid d) r q (getDir (rk u) (rk r)) k noPath = b' at hops hl hd hv ⊢
    obtain ⟨hops', dir', visited', list', maxHops'⟩ := b'
    dsimp only at hops hl hd hv
    subst hops hl hd hv
    refine ⟨hfilled, h.source, hsettled, ?_, ?_, ?_, h.visited, h.nodup, ?_, ?_, ?_, h.near, h.free, h.bound,
      h.fresh⟩ <;> simp only [hsame]
    · exact h.done
    · exact h.queued
    · exact h.complete
    · exact h.sorted
    · exact h.low
    · exact h.high
  | false =>
    obtain ⟨hl, hd, hv⟩ := @Bfs.offer_fresh _ _ f _ (f.lid d) q k noPath _ (getDir (rk u) (rk r)) hlt hvis
    have hmem : r ∉ b.list := by
      rw [← h.visited r, hvis]
      exact Bool.false_ne_true
    have hnewr : ¬ P r → ¬ getLeastHops f b.hops r (f.lid d) < noPath := by
      intro hP hlt'
      rcases h.complete r hlt' with h' | h'
      · exact hP h'
      · exact hmem h'
    have hne : ∀ v ∈ b.list, v ≠ r := fun v hv hvr => hmem (hvr ▸ hv)
    have hfar : ¬ P r → getLeastHops f (setHops f b.hops r (f.lid d) q (k + 1)).1 r (f.lid d) = k + 1 := by
      intro hP
      rw [hlevel, if_pos rfl, min_eq_right]
      exact hlt.le.trans (not_lt.mp (hnewr hP))
    have hother : ∀ v ∈ b.list, getLeastHops f (setHops f b.hops r (f.lid d) q (k + 1)).1 v (f.lid d) =
        getLeastHops f b.hops v (f.lid d) := fun v hv => by rw [hlevel, if_neg (hne v hv)]
    generalize b.offer f (f.lid d) r q (getDir (rk u) (rk r)) k noPath = b' at hops hl hd hv ⊢
    obtain ⟨hops', dir', visited', list', maxHops'⟩ := b'
    dsimp only at hops hl hd hv
    subst hops hl hd hv
    have hnodup : (b.list ++ [r]).Nodup := h.nodup.append (List.nodup_singleton r) (by simpa using hmem)
    refine ⟨hfilled, h.source, hsettled, ?_, ?_, ?_, ?_, hnodup, ?_, ?_, ?_, h.near, ?_, ?_, ?_⟩ <;>
      simp only [List.mem_append, List.mem_singleton]
    · intro v hP
      rw [hlevel]
      split_ifs with hvr
      · subst hvr
        rw [h.done v hP, min_eq_left hdist]
      · exact h.done v hP
    · rintro v (hv | rfl)
      · rw [hother v hv]
        exact h.queued v hv
      · rw [hlevel, if_pos rfl]
        exact (min_le_right _ _).trans_lt hlt
    · intro v hv
      by_cases hvr : v = r
      · exact Or.inr (Or.inr hvr)
      · rw [hlevel, if_neg hvr] at hv
        exact (h.complete v hv).imp_right Or.inl
    · intro v
      rw [Function.update_apply]
      split_ifs with hvr
      · simp [hvr]
      · rw [h.visited v]
        simp [hvr]
    · rw [List.pairwise_append]
      refine ⟨?_, List.pairwise_singleton _ _, ?_⟩
      · refine h.sorted.imp_of_mem ?_
        intro v w hv hw hvw hPv hPw
        rw [hother v hv, hother w hw]
        exact hvw hPv hPw
      · intro v hv w hw _ hPw
        obtain rfl := List.mem_singleton.mp hw
        rw [hother v hv, hfar hPw]
        exact h.high v (h.queued v hv)
    · rintro v (hv | rfl) hP
      · rw [hother v hv]
        exact h.low v hv hP
      · rw [hfar hP]
        exact Nat.le_succ k
    · intro v hv
      rw [hlevel] at hv ⊢
      split_ifs at hv ⊢
      · exact min_le_right _ _
      · exact h.high v hv
    · rintro v (hv | rfl) hup
      · rw [Function.update_of_ne (hne v hv)] at hup
        exact h.free v hv hup
      · rw [Function.update_self, ne_eq, getDir_up] at hup
        exact (hstep.2.resolve_right hup).tail hstep.1 (not_lt.mp hup)
    · rintro v (hv | rfl) hup
      · rw [Function.update_of_ne (hne v hv)] at hup
        exact h.bound v hv hup
      · rw [Function.update_self, getDir_up] at hup
        exact ⟨u, hstep.1, hup⟩
    · rintro v (hv | rfl) hP hFree
      · rw [Function.update_of_ne (hne v hv)]
        exact h.fresh v hv hP hFree
      · rw [Function.update_self, ne_eq, getDir_up]
        intro hup
        have hnear := h.dist_of_new hS hP (hnewr hP) hlt hdist
        have hle : dist f rk d v ≤ dist f rk d u :=
          capped_mono (le_self_add.trans (hFree.hop_lt hr ht hstep.1 hup))
        omega

lemma Search.idle (ht : TopTies (Cabled f) rk) (h : Search f rk d P S k b) {dir : SwitchDir} (hu : P u)
    (hS : ∀ p, S u p) (hfree : dir ≠ .up → Free (Cabled f) rk d u)
    (hbound : dir = .up → ∃ w, Cabled f w u ∧ rk u < rk w) (p : ℕ) :
    bfsPort f rk 0 (f.lid d) u dir b p = b := by
  by_cases hrem : ∃ r q, f.remote u p = some (.sw r q)
  swap
  · exact bfsPort_skip (fun r q hrq => hrem ⟨r, q, hrq⟩) _ _ _
  obtain ⟨r, q, hur⟩ := hrem
  rw [bfsPort_eq hur]
  split_ifs with hno
  · rfl
  · have hstep : Step (Cabled f) rk d u r := step_of_allowed ht ⟨p, q, hur⟩ hfree hbound hno
    rw [h.done u hu, h.filled.settled r q u p (f.remote_symm _ _ _ _ hur) (hS p) hstep]
    exact Bfs.offer_neg (not_lt.mpr (min_le_right _ _))

lemma Search.foldPorts (hf : Ready f) (hr : Ranked (Cabled f) rk) (ht : TopTies (Cabled f) rk)
    {dir : SwitchDir} (l : List ℕ) (hu : P u) (huk : dist f rk d u = k)
    (hfree : dir ≠ .up → Free (Cabled f) rk d u) (hbound : dir = .up → ∃ w, Cabled f w u ∧ rk u < rk w)
    (hfresh : Free (Cabled f) rk d u → dir ≠ .up) (hS : ∀ v p, P v → dist f rk d v < k → S v p)
    (hnew : ∀ p ∈ l, ¬ S u p) (hl : l.Nodup) (h : Search f rk d P S k b) :
    Search f rk d P (fun v p => S v p ∨ v = u ∧ p ∈ l) k
      (l.foldl (bfsPort f rk 0 (f.lid d) u dir) b) := by
  induction l generalizing S b with
  | nil => simpa using h
  | cons p l ih =>
    rw [List.nodup_cons] at hl
    have hp := h.port hf hr ht hu huk (hnew p List.mem_cons_self) hS hfree hbound hfresh
    have hrest := ih (fun v p' hv hlt => Or.inl (hS v p' hv hlt)) ?_ hl.2 hp
    · have hsame : (fun v p' => (S v p' ∨ v = u ∧ p' = p) ∨ v = u ∧ p' ∈ l) =
          fun v p' => S v p' ∨ v = u ∧ p' ∈ p :: l := by
        funext v p'
        simp only [List.mem_cons, or_assoc, ← and_or_left]
      rw [hsame] at hrest
      exact hrest
    · rintro p' hp' (hS' | ⟨-, rfl⟩)
      · exact hnew p' (List.mem_cons_of_mem _ hp') hS'
      · exact hl.1 hp'

lemma Filled.congr {S' : Fin n → ℕ → Prop} {H : Hops n} (h : Filled f rk d S H)
    (hS : ∀ u p r q, f.remote u p = some (.sw r q) → (S u p ↔ S' u p)) : Filled f rk d S' H where
  settled v q u p hr hS' hs := h.settled v q u p hr ((hS u p v q (f.remote_symm _ _ _ _ hr)).mpr hS') hs
  blank v q hq hno := h.blank v q hq fun u p hr hS' =>
    hno u p hr ((hS u p v q (f.remote_symm _ _ _ _ hr)).mp hS')
  self := h.self
  le := h.le
  attained := h.attained

lemma Search.expand (hf : Ready f) (hr : Ranked (Cabled f) rk) (ht : TopTies (Cabled f) rk)
    {dir : SwitchDir} (hu : P u) (huk : dist f rk d u = k)
    (hfree : dir ≠ .up → Free (Cabled f) rk d u) (hbound : dir = .up → ∃ w, Cabled f w u ∧ rk u < rk w)
    (hfresh : Free (Cabled f) rk d u → dir ≠ .up)
    (h : Search f rk d P (fun v _ => P v ∧ v ≠ u) k b) :
    Search f rk d P (fun v _ => P v) k ((ports f u).foldl (bfsPort f rk 0 (f.lid d) u dir) b) := by
  have hS : ∀ v, ∀ _ : ℕ, P v → dist f rk d v < k → P v ∧ v ≠ u := by
    rintro v - hv hlt
    refine ⟨hv, ?_⟩
    rintro rfl
    omega
  have hall := h.foldPorts hf hr ht (ports f u) hu huk hfree hbound hfresh hS (by simp) List.nodup_range'
  refine { hall with filled := hall.filled.congr fun v p r q hrem => ?_, settled := fun _ _ hv => hv }
  constructor
  · rintro (⟨hv, -⟩ | ⟨rfl, -⟩)
    · exact hv
    · exact hu
  · intro hv
    by_cases hvu : v = u
    · subst hvu
      exact Or.inr ⟨rfl, mem_ports_of_remote hrem⟩
    · exact Or.inl ⟨hv, hvu⟩

lemma Search.closed (h : Search f rk d P (fun v _ => P v) k b) (v w : Fin n) (hv : P v)
    (hs : Step (Cabled f) rk d v w) : getLeastHops f b.hops w (f.lid d) ≤ dist f rk d v + 1 := by
  obtain ⟨p, q, hpq⟩ := hs.1
  have hle := h.filled.le w q
  rw [h.filled.settled w q v p (f.remote_symm _ _ _ _ hpq) hv hs] at hle
  exact hle.trans (min_le_right _ _)

lemma Search.dist_le (h : Search f rk d P S k b) (v : Fin n) :
    dist f rk d v ≤ getLeastHops f b.hops v (f.lid d) := by
  by_cases hv : v = d
  · rw [hv]
    simp [dist]
  · rcases h.filled.attained v hv with h0 | ⟨q, hq, he⟩
    · rw [h0]
      exact capped_le v
    · rw [← he]
      by_cases hs : ∃ u p, f.remote v q = some (.sw u p) ∧ S u p ∧ Step (Cabled f) rk d u v
      · obtain ⟨u, p, hr, hS, hstep⟩ := hs
        rw [h.filled.settled v q u p hr hS hstep]
        exact le_min (capped_le v) (capped_step hstep)
      · rw [h.filled.blank v q hq fun u p hr hS hstep => hs ⟨u, p, hr, hS, hstep⟩]
        exact capped_le v

lemma Search.head {rest : List (Fin n)} (h : Search f rk d P (fun v _ => P v) k b) (hl : b.list = u :: rest)
    {v : Fin n} (hv : ¬ P v) : getLeastHops f b.hops u (f.lid d) ≤ dist f rk d v ∨ P u := by
  by_cases hu : P u
  · exact Or.inr hu
  left
  refine le_capped h.source (h.le_noPath u) h.closed (fun w hw => ?_) hv
  by_cases hlt : getLeastHops f b.hops w (f.lid d) < noPath
  · have hmem := (h.complete w hlt).resolve_left hw
    rw [hl, List.mem_cons] at hmem
    rcases hmem with rfl | hmem
    · exact le_rfl
    · have hsorted := h.sorted
      rw [hl, List.pairwise_cons] at hsorted
      exact hsorted.1 w hmem hu hw
  · exact (h.le_noPath u).trans (not_lt.mp hlt)

lemma Search.pop {rest : List (Fin n)} (h : Search f rk d P S k b) (hl : b.list = u :: rest) (hu : P u) :
    Search f rk d P S k { b with list := rest, visited := Function.update b.visited u false } := by
  have hnodup := h.nodup
  have hsorted := h.sorted
  rw [hl, List.nodup_cons] at hnodup
  rw [hl, List.pairwise_cons] at hsorted
  have hmem : ∀ v ∈ rest, v ∈ b.list := fun v hv => hl ▸ List.mem_cons_of_mem u hv
  refine { h with
    queued := fun v hv => h.queued v (hmem v hv)
    complete := ?_
    visited := ?_
    nodup := hnodup.2
    sorted := hsorted.2
    low := fun v hv => h.low v (hmem v hv)
    free := fun v hv => h.free v (hmem v hv)
    bound := fun v hv => h.bound v (hmem v hv)
    fresh := fun v hv => h.fresh v (hmem v hv) }
  · intro v hv
    have hv' := h.complete v hv
    rw [hl, List.mem_cons] at hv'
    rcases hv' with hv' | rfl | hv'
    · exact Or.inl hv'
    · exact Or.inl hu
    · exact Or.inr hv'
  · intro v
    dsimp only
    rw [Function.update_apply]
    split_ifs with hvu
    · simp [hvu, hnodup.1]
    · rw [h.visited v, hl, List.mem_cons]
      simp [hvu]

/-- The first turn of a switch puts it among the expanded ones. -/
lemma Search.enter {rest : List (Fin n)} (h : Search f rk d P (fun v _ => P v) k b) (hl : b.list = u :: rest)
    (hu : ¬ P u) : dist f rk d u = getLeastHops f b.hops u (f.lid d) ∧
      Search f rk d (fun v => P v ∨ v = u) (fun v _ => (P v ∨ v = u) ∧ v ≠ u) (dist f rk d u) b := by
  have hmem : u ∈ b.list := hl ▸ List.mem_cons_self
  have hhead : ∀ v, ¬ P v → getLeastHops f b.hops u (f.lid d) ≤ dist f rk d v :=
    fun v hv => (h.head hl hv).resolve_right hu
  have hexact : dist f rk d u = getLeastHops f b.hops u (f.lid d) := le_antisymm (h.dist_le u) (hhead u hu)
  have hlow := h.low u hmem hu
  refine ⟨hexact, ?_⟩
  refine { h with
    filled := h.filled.congr fun v p r q _ => ?_
    source := Or.inl h.source
    settled := fun _ _ hv => hv.1
    done := ?_
    complete := fun v hv => (h.complete v hv).imp_left Or.inl
    sorted := h.sorted.imp fun hvw hv hw => hvw (fun hh => hv (Or.inl hh)) fun hh => hw (Or.inl hh)
    low := ?_
    high := fun v hv => (h.high v hv).trans (by omega)
    near := ?_
    fresh := fun v hv hP => h.fresh v hv fun hh => hP (Or.inl hh) }
  · constructor
    · intro hv
      exact ⟨Or.inl hv, fun hvu => hu (hvu ▸ hv)⟩
    · rintro ⟨hv, hvu⟩
      exact hv.resolve_right hvu
  · rintro v (hv | rfl)
    · exact h.done v hv
    · exact hexact.symm
  · intro v hv hP
    rw [not_or] at hP
    rw [hexact]
    have hsorted := h.sorted
    rw [hl, List.pairwise_cons] at hsorted
    rw [hl, List.mem_cons] at hv
    exact hsorted.1 v (hv.resolve_left hP.2) hu hP.1
  · intro v hv
    by_contra hP
    rw [not_or] at hP
    have hle := hhead v hP.1
    omega

lemma Search.body (hf : Ready f) (hr : Ranked (Cabled f) rk) (ht : TopTies (Cabled f) rk)
    (h : Search f rk d P (fun v _ => P v) k b) {b' : Bfs n} (hb : bfsBody f rk 0 (f.lid d) b = some b') :
    ∃ P' k', Search f rk d P' (fun v _ => P' v) k' b' := by
  cases hl : b.list with
  | nil => simp [bfsBody, hl] at hb
  | cons u rest =>
    simp only [bfsBody, hl] at hb
    obtain rfl := Option.some.inj hb
    have hmem : u ∈ b.list := hl ▸ List.mem_cons_self
    have hfree := h.free u hmem
    have hbound := h.bound u hmem
    by_cases hu : P u
    · refine ⟨P, k, ?_⟩
      have hpop := h.pop hl hu
      have hidle : ∀ l : List ℕ, l.foldl (bfsPort f rk 0 (f.lid d) u (b.dir u))
          { b with list := rest, visited := Function.update b.visited u false } =
            { b with list := rest, visited := Function.update b.visited u false } := by
        intro l
        induction l with
        | nil => rfl
        | cons p l ih =>
          rw [List.foldl_cons, hpop.idle ht hu (fun _ => hu) hfree hbound]
          exact ih
      rw [hidle]
      exact hpop
    · obtain ⟨-, henter⟩ := h.enter hl hu
      exact ⟨_, _, (henter.pop hl (Or.inr rfl)).expand hf hr ht (Or.inr rfl) rfl hfree hbound (h.fresh u hmem hu)⟩

end Search

section Work

variable {rk : Fin n → ℕ} {lid : ℕ} {b b' : Bfs n} {u : Fin n}

lemma work_ports (hl : 0 < lid) (hm : ∀ r, lid ≤ f.maxLidHo r) (dir : SwitchDir) (l : List ℕ) (b : Bfs n) :
    work f lid (l.foldl (bfsPort f rk 0 lid u dir) b) ≤ work f lid b := by
  induction l generalizing b with
  | nil => exact le_rfl
  | cons p l ih =>
    refine (ih _).trans ?_
    by_cases hrem : ∃ r q, f.remote u p = some (.sw r q)
    · obtain ⟨r, q, hur⟩ := hrem
      have hq := f.remote_port _ _ _ (f.remote_symm _ _ _ _ hur)
      rw [bfsPort_eq hur]
      split_ifs
      · exact le_rfl
      · exact work_offer hl (hm r) hq.1 hq.2
    · rw [bfsPort_skip fun r q hrq => hrem ⟨r, q, hrq⟩]

lemma work_body (hl : 0 < lid) (hm : ∀ r, lid ≤ f.maxLidHo r) (hb : bfsBody f rk 0 lid b = some b') :
    work f lid b' < work f lid b := by
  cases hlist : b.list with
  | nil => simp [bfsBody, hlist] at hb
  | cons u rest =>
    simp only [bfsBody, hlist] at hb
    obtain rfl := Option.some.inj hb
    refine (work_ports hl hm _ _ _).trans_lt ?_
    simp [work, hlist]

def Same (f : Fabric n m) (lid : ℕ) (H H' : Hops n) : Prop :=
  ∀ v l q, l ≠ lid → getHopCount f H' v l q = getHopCount f H v l q

lemma same_setHops {H : Hops n} {lid : ℕ} (r : Fin n) (q x : ℕ) : Same f lid H (setHops f H r lid q x).1 :=
  fun _ _ _ hl => getHopCount_setHops_ne _ _ _ fun h => hl h.2

lemma same_ports (dir : SwitchDir) (l : List ℕ) (b : Bfs n) :
    Same f lid b.hops (l.foldl (bfsPort f rk 0 lid u dir) b).hops := by
  induction l generalizing b with
  | nil => exact fun _ _ _ _ => rfl
  | cons p l ih =>
    intro v l' q' hl'
    rw [List.foldl_cons, ih _ v l' q' hl']
    by_cases hrem : ∃ r q, f.remote u p = some (.sw r q)
    · obtain ⟨r, q, hur⟩ := hrem
      rw [bfsPort_eq hur]
      split_ifs
      · rfl
      · by_cases hlt : getLeastHops f b.hops u lid + 1 < getHopCount f b.hops r lid q
        · rw [Bfs.offer_hops hlt]
          exact same_setHops r q _ v l' q' hl'
        · rw [Bfs.offer_neg hlt]
    · rw [bfsPort_skip fun r q hrq => hrem ⟨r, q, hrq⟩]

lemma same_body (hb : bfsBody f rk 0 lid b = some b') : Same f lid b.hops b'.hops := by
  cases hlist : b.list with
  | nil => simp [bfsBody, hlist] at hb
  | cons u rest =>
    simp only [bfsBody, hlist] at hb
    obtain rfl := Option.some.inj hb
    exact same_ports _ _ _

end Work

section Found

variable (f) (rk : Fin n → ℕ) (d : Fin n)

structure Found (H : Hops n) : Prop where
  level : ∀ v, getLeastHops f H v (f.lid d) = dist f rk d v
  entry : ∀ v q u p, f.remote v q = some (.sw u p) → Step (Cabled f) rk d u v →
    getHopCount f H v (f.lid d) q = min noPath (dist f rk d u + 1)
  blank : ∀ v q, q ≠ 0 → (∀ u p, f.remote v q = some (.sw u p) → ¬ Step (Cabled f) rk d u v) →
    getHopCount f H v (f.lid d) q = noPath

variable {f} {rk} {d} {b : Bfs n}

lemma Search.found {P : Fin n → Prop} {k : ℕ} (h : Search f rk d P (fun v _ => P v) k b) (hnil : b.list = []) :
    Found f rk d b.hops := by
  have hout : ∀ v, ¬ P v → noPath ≤ getLeastHops f b.hops v (f.lid d) := by
    intro v hv
    by_contra hlt
    rcases h.complete v (not_le.mp hlt) with h' | h'
    · exact hv h'
    · rw [hnil] at h'
      exact List.not_mem_nil h'
  have hfar : ∀ v, ¬ P v → noPath ≤ dist f rk d v :=
    fun v hv => le_capped h.source le_rfl h.closed hout hv
  refine ⟨fun v => ?_, fun v q u p hr hs => ?_, fun v q hq hno => ?_⟩
  · by_cases hv : P v
    · exact h.done v hv
    · exact le_antisymm ((h.le_noPath v).trans (hfar v hv)) ((capped_le v).trans (hout v hv))
  · by_cases hu : P u
    · exact h.filled.settled v q u p hr hu hs
    · have hle := hfar u hu
      rw [min_eq_left (by omega)]
      refine h.filled.blank v q (f.remote_port _ _ _ hr).1.ne' fun u' p' hr' hu' => ?_
      rw [hr] at hr'
      cases hr'
      exact absurd hu' hu
  · exact h.filled.blank v q hq fun u p hr _ => hno u p hr

/-- The state after the source has been taken from the queue. -/
lemma Search.start (hf : Ready f) (hvis : ∀ v, b.visited v = false)
    (hblank : ∀ v q, getHopCount f b.hops v (f.lid d) q = noPath) :
    Search f rk d (· = d) (fun v _ => v = d ∧ v ≠ d) 0
      { b with
        hops := (setHops f b.hops d (f.lid d) 0 0).1
        dir := Function.update b.dir d .down
        list := []
        visited := Function.update b.visited d false } := by
  have hget : ∀ v q, getHopCount f (setHops f b.hops d (f.lid d) 0 0).1 v (f.lid d) q =
      if v = d ∧ q = 0 then 0 else noPath := by
    intro v q
    rw [getHopCount_setHops (hf.lid_pos d) (hf.lid_le d d) (f.numPorts_pos d)]
    by_cases hv : v = d
    · by_cases hq : q = 0 <;> simp [hv, hq, hblank]
    · simp [hv, hblank]
  have hlevel : ∀ v, getLeastHops f (setHops f b.hops d (f.lid d) 0 0).1 v (f.lid d) < noPath → v = d := by
    intro v hv
    by_contra hne
    rw [getLeastHops, hget, if_neg fun h => hne h.1] at hv
    exact absurd hv (lt_irrefl _)
  refine ⟨⟨?_, ?_, ?_, ?_, ?_⟩, rfl, fun _ _ hv => hv.1, ?_, by simp, ?_, ?_, List.nodup_nil, List.Pairwise.nil,
    by simp, ?_, by simp, by simp, by simp, by simp⟩
  · rintro v q u p - ⟨hu, hu'⟩
    exact absurd hu hu'
  · intro v q hq _
    rw [hget, if_neg fun h => hq h.2]
  · rw [getLeastHops, hget, if_pos ⟨rfl, rfl⟩]
  · intro v q
    rw [getLeastHops, hget, hget]
    by_cases hv : v = d
    · simp [hv]
    · simp [hv]
  · intro v hv
    left
    rw [getLeastHops, hget, if_neg fun h => hv h.1]
  · rintro v rfl
    rw [getLeastHops, hget, if_pos ⟨rfl, rfl⟩]
    exact capped_self.symm
  · exact fun v hv => Or.inl (hlevel v hv)
  · intro v
    dsimp only
    rw [Function.update_apply]
    split_ifs <;> simp [hvis v]
  · intro v hv
    obtain rfl := hlevel v hv
    rw [getLeastHops, hget, if_pos ⟨rfl, rfl⟩]
    exact Nat.zero_le _

/-- A search of the code ends, fills the rows of its source and leaves the others alone. -/
lemma bfsByNode_spec (hf : Ready f) (hr : Ranked (Cabled f) rk) (ht : TopTies (Cabled f) rk)
    (hvis : ∀ v, b.visited v = false) (hblank : ∀ v q, getHopCount f b.hops v (f.lid d) q = noPath) :
    ∃ b', bfsByNode f rk 0 b d = some b' ∧ (∀ v, b'.visited v = false) ∧ Found f rk d b'.hops ∧
      Same f (f.lid d) b.hops b'.hops := by
  set b₁ : Bfs n := { b with
    hops := (setHops f b.hops d (f.lid d) 0 0).1
    dir := Function.update b.dir d .down
    list := [d] } with hb₁
  have hdown : b₁.dir d = .down := Function.update_self _ _ _
  have hstart : Search f rk d (· = d) (fun v _ => v = d ∧ v ≠ d) 0
      { b₁ with list := [], visited := Function.update b.visited d false } := Search.start hf hvis hblank
  have hfirst : bfsBody f rk 0 (f.lid d) b₁ = some ((ports f d).foldl (bfsPort f rk 0 (f.lid d) d (b₁.dir d))
      { b₁ with list := [], visited := Function.update b.visited d false }) := rfl
  have hwork₁ : work f (f.lid d) b₁ ≤ n * 256 * 256 + 1 := by
    have hle : ∀ v q, getHopCount f (setHops f b.hops d (f.lid d) 0 0).1 v (f.lid d) q ≤ 256 := by
      intro v q
      rw [getHopCount_setHops (hf.lid_pos d) (hf.lid_le d d) (f.numPorts_pos d)]
      split_ifs <;> simp [hblank, noPath]
    have hsum : ∑ v, ∑ q ∈ Finset.range 256, getHopCount f b₁.hops v (f.lid d) q ≤ ∑ v : Fin n, 256 * 256 :=
      Finset.sum_le_sum fun v _ => (Finset.sum_le_card_nsmul _ _ 256 fun q _ => hle v q).trans (by simp)
    rw [Finset.sum_const, Finset.card_univ, Fintype.card_fin, smul_eq_mul, ← mul_assoc] at hsum
    have hlen : b₁.list.length = 1 := rfl
    rw [work, hlen]
    omega
  have hwork₂ := work_body (hf.lid_pos d) (fun r => hf.lid_le r d) hfirst
  have hsame₂ := same_body hfirst
  rw [hdown] at hfirst hwork₂ hsame₂
  have hsearch : Search f rk d (· = d) (fun v _ => v = d) 0 _ := hstart.expand (P := (· = d)) hf hr ht rfl
    capped_self (fun _ : SwitchDir.down ≠ .up => Free.refl) (by simp) (by simp)
  have hbody : ∀ s s' : Bfs n,
      ((∃ P k, Search f rk d P (fun v _ => P v) k s) ∧ Same f (f.lid d) b.hops s.hops) →
      bfsBody f rk 0 (f.lid d) s = some s' →
      ((∃ P k, Search f rk d P (fun v _ => P v) k s') ∧ Same f (f.lid d) b.hops s'.hops) ∧
        work f (f.lid d) s' < work f (f.lid d) s := by
    rintro s s' ⟨⟨P, k, hs⟩, hsame⟩ hss
    refine ⟨⟨hs.body hf hr ht hss, fun v l q hl => ?_⟩, work_body (hf.lid_pos d) (fun r => hf.lid_le r d) hss⟩
    rw [same_body hss v l q hl, hsame v l q hl]
  have hsame : Same f (f.lid d) b.hops _ := fun v l q hl => (hsame₂ v l q hl).trans (same_setHops d 0 0 v l q hl)
  obtain ⟨t, ht', ⟨⟨P, k, hs⟩, hsame'⟩, hnil⟩ :=
    drive_spec hbody (n * 256 * 256) ⟨⟨_, _, hsearch⟩, hsame⟩ (by omega)
  have hlist : t.list = [] := by
    cases hl : t.list with
    | nil => rfl
    | cons u rest => simp [bfsBody, hl] at hnil
  refine ⟨t, (drive_step hfirst _).trans ht', fun v => ?_, hs.found hlist, hsame'⟩
  have hv := hs.visited v
  rw [hlist] at hv
  simpa using hv

end Found

end OpenSM.DnUp
