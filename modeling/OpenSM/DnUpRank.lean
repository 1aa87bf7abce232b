import OpenSM.DnUp
import OpenSM.Lib.UpDown

/-! The ranking stage finds the hop distance of every switch from the nearest leaf switch. -/

namespace OpenSM.DnUp

open Lib Lib.Drive Lib.UpDown

variable {n m : ℕ} (f : Fabric n m)

def Cabled (s r : Fin n) : Prop := ∃ p q, f.remote s p = some (.sw r q)

def Hop (s r : Fin n) (w : ℕ) : Prop := Cabled f s r ∧ w = 1

/-- The hop distance from the nearest switch that a channel adapter is attached to. -/
noncomputable def leafDist (s : Fin n) : ℕ∞ :=
  ⨅ (r : Fin n) (_ : leaf f r = true), Paths.dist (Hop f) (Hop f) s r

/-- What the LID manager guarantees to the engine: LIDs of 16 bits that the tables have rows for. -/
structure Ready : Prop where
  lid_injective : Function.Injective f.lid
  lid_pos : ∀ d, 0 < f.lid d
  lid_le : ∀ s d, f.lid d ≤ f.maxLidHo s
  lid_lt : ∀ d, f.lid d < 2 ^ 16

variable {f} {s r : Fin n}

lemma Cabled.symm (h : Cabled f s r) : Cabled f r s := by
  obtain ⟨p, q, hp⟩ := h
  exact ⟨q, p, f.remote_symm _ _ _ _ hp⟩

lemma mem_ports {p : ℕ} : p ∈ ports f s ↔ 0 < p ∧ p < f.numPorts s := by
  simp only [ports, List.mem_range'_1]
  omega

lemma mem_ports_of_remote {p : ℕ} {x : Remote n m} (h : f.remote s p = some x) : p ∈ ports f s :=
  mem_ports.mpr (f.remote_port _ _ _ h)

lemma leafDist_le_one_add (h : Cabled f s r) : leafDist f s ≤ 1 + leafDist f r := by
  rw [leafDist, leafDist, ENat.add_iInf₂]
  refine le_iInf₂ fun t ht => (iInf₂_le t ht).trans ?_
  have hop : Hop f s r 1 := ⟨h, rfl⟩
  exact_mod_cast Paths.dist_cons hop

lemma leafDist_of_leaf (h : leaf f s = true) : leafDist f s = 0 := by
  have hle : leafDist f s ≤ Paths.dist (Hop f) (Hop f) s s := iInf₂_le s h
  simpa using hle

lemma leafDist_pos (h : leaf f s = false) : 0 < leafDist f s := by
  refine zero_lt_one.trans_le (le_iInf₂ fun r hr => Paths.le_dist fun k x hp => ?_)
  cases hp with
  | nil => simp [h] at hr
  | last hw => simp [hw.2]
  | cons hw _ =>
    rw [hw.2]
    exact_mod_cast Nat.le_add_right 1 _

structure Ranking (f : Fabric n m) (u : Option (Fin n)) (ps : List ℕ) (st : (Fin n → ℕ) × List (Fin n)) :
    Prop where
  le : ∀ s, st.1 s ≤ unranked
  root : ∀ s, leaf f s = true → st.1 s = 0
  sound : ∀ s, st.1 s < unranked → leafDist f s ≤ st.1 s
  queued : ∀ s ∈ st.2, st.1 s < unranked
  current : ∀ s ∈ u, st.1 s < unranked
  closed : ∀ s p r q, f.remote s p = some (.sw r q) → s ∉ st.2 → (s ∈ u → p ∈ ps) → st.1 s < unranked →
    st.1 r ≤ st.1 s + 1

def rankWork (st : (Fin n → ℕ) × List (Fin n)) : ℕ := (∑ s, st.1 s) + st.2.length

lemma sum_update_lt {rank : Fin n → ℕ} {x : ℕ} (h : x < rank r) :
    ∑ s, Function.update rank r x s < ∑ s, rank s := by
  refine Finset.sum_lt_sum (fun s _ => ?_) ⟨r, Finset.mem_univ r, by simpa using h⟩
  by_cases hs : s = r
  · rw [hs, Function.update_self]
    exact h.le
  · rw [Function.update_of_ne hs]

lemma Ranking.port {u : Fin n} {ps : List ℕ} {st : (Fin n → ℕ) × List (Fin n)}
    (h : Ranking f (some u) ps st) (p : ℕ) :
    Ranking f (some u) (ps ++ [p]) (rankPort f u st p) ∧ rankWork (rankPort f u st p) ≤ rankWork st := by
  have hskip (hno : ∀ r q, f.remote u p = some (.sw r q) → st.1 r ≤ st.1 u + 1) :
      Ranking f (some u) (ps ++ [p]) st := by
    refine ⟨h.le, h.root, h.sound, h.queued, h.current, ?_⟩
    intro s p' r q hr hs hp hlt
    by_cases hpp : s ∈ some u ∧ p' = p
    · obtain ⟨hsu, rfl⟩ := hpp
      obtain rfl : u = s := by simpa using hsu
      exact hno r q hr
    · refine h.closed s p' r q hr hs (fun hsu => ?_) hlt
      have hmem := hp hsu
      rw [List.mem_append, List.mem_singleton] at hmem
      exact hmem.resolve_right fun hp' => hpp ⟨hsu, hp'⟩
  have hu := h.current u rfl
  have hmod : (st.1 u + 1) % 2 ^ 32 = st.1 u + 1 := Nat.mod_eq_of_lt (by rw [unranked] at hu; omega)
  cases hr : f.remote u p with
  | none =>
    rw [rankPort, hr]
    exact ⟨hskip fun r q hr' => by simp [hr] at hr', le_rfl⟩
  | some x =>
    cases x with
    | ca e =>
      rw [rankPort, hr]
      exact ⟨hskip fun r q hr' => by simp [hr] at hr', le_rfl⟩
    | sw r q =>
      simp only [rankPort, hr, hmod]
      split_ifs with hlt
      swap
      · refine ⟨hskip fun r' q' hr' => ?_, le_rfl⟩
        rw [hr] at hr'
        cases hr'
        exact not_lt.mp hlt
      have hle := h.le r
      have hur : u ≠ r := by
        rintro rfl
        omega
      constructor
      · constructor
        · intro s
          dsimp only
          rw [Function.update_apply]
          split_ifs
          · omega
          · exact h.le s
        · intro s hs
          have hs0 := h.root s hs
          dsimp only
          rw [Function.update_apply]
          split_ifs with hsr
          · subst hsr
            omega
          · exact hs0
        · intro s
          dsimp only
          rw [Function.update_apply]
          split_ifs with hsr
          · subst hsr
            intro _
            refine (leafDist_le_one_add (Cabled.symm ⟨p, q, hr⟩)).trans ?_
            rw [add_comm]
            push_cast
            gcongr
            exact h.sound u hu
          · exact h.sound s
        · intro s hs
          dsimp only at hs ⊢
          rw [Function.update_apply]
          split_ifs with hsr
          · omega
          · rw [List.mem_append, List.mem_singleton] at hs
            exact h.queued s (hs.resolve_right hsr)
        · intro s hs
          obtain rfl : u = s := by simpa using hs
          dsimp only
          rw [Function.update_of_ne hur]
          exact hu
        · intro s p' t q' ht hs hp hlt'
          dsimp only at hs hlt' ⊢
          rw [List.mem_append, List.mem_singleton, not_or] at hs
          rw [Function.update_of_ne hs.2] at hlt' ⊢
          have hold : Function.update st.1 r (st.1 u + 1) t ≤ st.1 t := by
            rw [Function.update_apply]
            split_ifs with htr
            · subst htr
              exact hlt.le
            · exact le_rfl
          by_cases hpp : s ∈ some u ∧ p' = p
          · obtain ⟨hsu, rfl⟩ := hpp
            obtain rfl : u = s := by simpa using hsu
            rw [hr] at ht
            cases ht
            rw [Function.update_self]
          · refine hold.trans (h.closed s p' t q' ht hs.1 (fun hsu => ?_) hlt')
            have hmem := hp hsu
            rw [List.mem_append, List.mem_singleton] at hmem
            exact hmem.resolve_right fun hp' => hpp ⟨hsu, hp'⟩
      · have hsum := sum_update_lt hlt
        simp only [rankWork, List.length_append, List.length_singleton]
        omega

lemma Ranking.ports {u : Fin n} (l ps : List ℕ) {st : (Fin n → ℕ) × List (Fin n)}
    (h : Ranking f (some u) ps st) :
    Ranking f (some u) (ps ++ l) (l.foldl (rankPort f u) st) ∧
      rankWork (l.foldl (rankPort f u) st) ≤ rankWork st := by
  induction l generalizing ps st with
  | nil => simpa using h
  | cons p l ih =>
    obtain ⟨hp, hw⟩ := h.port p
    obtain ⟨hl, hw'⟩ := ih (ps ++ [p]) hp
    rw [List.append_assoc] at hl
    exact ⟨hl, hw'.trans hw⟩

lemma Ranking.body {st st' : (Fin n → ℕ) × List (Fin n)} (h : Ranking f none [] st)
    (hb : rankBody f st = some st') : Ranking f none [] st' ∧ rankWork st' < rankWork st := by
  obtain ⟨rank, list⟩ := st
  cases list with
  | nil => simp [rankBody] at hb
  | cons u rest =>
    obtain rfl := Option.some.inj hb
    have hstart : Ranking f (some u) [] (rank, rest) := by
      refine ⟨h.le, h.root, h.sound, fun s hs => h.queued s (List.mem_cons_of_mem _ hs), ?_, ?_⟩
      · intro s hs
        obtain rfl : u = s := by simpa using hs
        exact h.queued u List.mem_cons_self
      · intro s p r q hr hs hp hlt
        refine h.closed s p r q hr ?_ (by simp) hlt
        rw [List.mem_cons, not_or]
        refine ⟨?_, hs⟩
        rintro rfl
        simpa using hp rfl
    obtain ⟨hl, hw⟩ := hstart.ports (DnUp.ports f u) []
    refine ⟨⟨hl.le, hl.root, hl.sound, hl.queued, by simp, ?_⟩, ?_⟩
    · intro s p r q hr hs _ hlt
      refine hl.closed s p r q hr hs (fun hsu => ?_) hlt
      obtain rfl : u = s := by simpa using hsu
      exact mem_ports_of_remote hr
    · refine hw.trans_lt ?_
      simp [rankWork]

lemma Ranking.init (hn : 0 < unranked) :
    Ranking f none [] (fun s => if leaf f s then 0 else unranked,
      (List.finRange n).filter fun s => (if leaf f s then 0 else unranked) = 0) := by
  have hne : unranked ≠ 0 := hn.ne'
  constructor
  · intro s
    dsimp only
    split_ifs
    · exact hn.le
    · exact le_rfl
  · intro s hs
    exact if_pos hs
  · intro s hlt
    dsimp only at hlt ⊢
    split_ifs at hlt ⊢ with hs
    · simp [leafDist_of_leaf hs]
    · exact absurd hlt (lt_irrefl _)
  · intro s hs
    have hs' := (List.mem_filter.mp hs).2
    simp only [decide_eq_true_eq] at hs'
    exact hs'.trans_lt hn
  · simp
  · intro s p r q _ hs _ hlt
    have hs' : (if leaf f s then 0 else unranked) ≠ 0 := by simpa using hs
    dsimp only at hlt
    split_ifs at hlt hs' with hl
    · exact absurd rfl hs'
    · exact absurd hlt (lt_irrefl _)

/-- Ranks that are sound and closed under cables are the distances. -/
lemma Ranking.eq_min {st : (Fin n → ℕ) × List (Fin n)} (h : Ranking f none [] st) (hnil : st.2 = [])
    (s : Fin n) : (st.1 s : ℕ∞) = min (unranked : ℕ∞) (leafDist f s) := by
  have hclosed : ∀ s r, Cabled f s r → st.1 s < unranked → st.1 r ≤ st.1 s + 1 := by
    rintro s r ⟨p, q, hr⟩
    exact h.closed s p r q hr (by simp [hnil]) (by simp)
  have hpath : ∀ k x t r, Paths.Path (Hop f) (Hop f) k x t r → leaf f r = true → st.1 t ≤ x := by
    intro k x t r hp hr
    induction hp with
    | nil v => exact (h.root v hr).le
    | @last u v w hw =>
      obtain ⟨hc, rfl⟩ := hw
      have h0 := h.root v hr
      have hle := hclosed v u hc.symm (by rw [h0]; decide)
      omega
    | @cons k x u v d w hw _ ih =>
      obtain ⟨hc, rfl⟩ := hw
      have hv := ih hr
      rcases lt_or_ge (st.1 v) unranked with hlt | hge
      · have hle := hclosed v u hc.symm hlt
        omega
      · have hle := h.le u
        omega
  apply le_antisymm
  · refine le_min (by exact_mod_cast h.le s) (le_iInf₂ fun r hr => Paths.le_dist fun k x hp => ?_)
    exact_mod_cast hpath k x s r hp hr
  · rcases (h.le s).lt_or_eq with hlt | heq
    · exact (min_le_right _ _).trans (h.sound s hlt)
    · rw [heq]
      exact min_le_left _ _

/-- The ranking ends, with the distance of every switch from the nearest leaf switch. -/
theorem subnRank_eq :
    ∃ rank, subnRank f (fun s => if leaf f s then 0 else unranked) = some rank ∧
      ∀ s, (rank s : ℕ∞) = min (unranked : ℕ∞) (leafDist f s) := by
  have hinit : Ranking f none [] _ := Ranking.init (by decide)
  have hwork : rankWork (fun s => if leaf f s then 0 else unranked,
      (List.finRange n).filter fun s => (if leaf f s then 0 else unranked) = 0) ≤ n * 2 ^ 32 := by
    have hsum : ∑ s : Fin n, (if leaf f s then 0 else unranked) ≤ n * unranked := by
      refine (Finset.sum_le_card_nsmul _ _ unranked fun s _ => ?_).trans (by simp)
      split_ifs <;> simp
    have hlen : ((List.finRange n).filter fun s => (if leaf f s then 0 else unranked) = 0).length ≤ n :=
      (List.length_filter_le _ _).trans (by simp)
    simp only [rankWork]
    have hu : n * 2 ^ 32 = n * unranked + n := by rw [unranked]; omega
    omega
  obtain ⟨st, hst, hI, hnil⟩ := drive_spec (fun s s' hs hb => hs.body hb) (n * 2 ^ 32) hinit hwork
  refine ⟨st.1, by rw [subnRank, hst]; rfl, hI.eq_min ?_⟩
  cases hl : st.2 with
  | nil => rfl
  | cons u rest => simp [rankBody, hl] at hnil

lemma Ready.card_le (hf : Ready f) : n ≤ 2 ^ 16 := by
  have h := Fintype.card_le_of_injective (fun d : Fin n => (⟨f.lid d, hf.lid_lt d⟩ : Fin (2 ^ 16)))
    fun a b hab => hf.lid_injective (by simpa using hab)
  simpa using h

lemma leafDist_lt (hf : Ready f) (h : leafDist f s ≠ ⊤) : leafDist f s < unranked := by
  rw [leafDist] at h
  obtain ⟨r, hr⟩ : ∃ r, leaf f r = true ∧ Paths.dist (Hop f) (Hop f) s r ≠ ⊤ := by
    by_contra hno
    push Not at hno
    exact h (iInf₂_eq_top.mpr hno)
  obtain ⟨x, hx⟩ := ENat.ne_top_iff_exists.mp hr.2
  obtain ⟨k, hk, hp⟩ := Paths.short_path (fun u v w hw => by simp [hw.2]) hx.symm
  have hlen : ∀ k x t r, Paths.Path (Hop f) (Hop f) k x t r → x = k := by
    intro k x t r hp
    induction hp with
    | nil => rfl
    | last hw => exact hw.2
    | cons hw _ ih => rw [hw.2, ih, add_comm]
  have hcard := hf.card_le
  rw [Fintype.card_fin] at hk
  refine (iInf₂_le r hr.1).trans_lt ?_
  rw [← hx, hlen k x s r hp]
  exact_mod_cast (show k < unranked by rw [unranked]; omega)

lemma rank_lt_iff (hf : Ready f) {rank : Fin n → ℕ}
    (h : ∀ s, (rank s : ℕ∞) = min (unranked : ℕ∞) (leafDist f s)) (s r : Fin n) :
    rank s < rank r ↔ leafDist f s < leafDist f r := by
  have hcast : rank s < rank r ↔ (rank s : ℕ∞) < rank r := by exact_mod_cast Iff.rfl
  rw [hcast, h, h]
  by_cases hs : leafDist f s = ⊤
  · simp [hs]
  · have hlt := leafDist_lt hf hs
    rw [min_eq_right hlt.le, lt_min_iff]
    exact ⟨And.right, fun hr => ⟨hlt, hr⟩⟩

lemma rank_eq_iff (hf : Ready f) {rank : Fin n → ℕ}
    (h : ∀ s, (rank s : ℕ∞) = min (unranked : ℕ∞) (leafDist f s)) (s r : Fin n) :
    rank s = rank r ↔ leafDist f s = leafDist f r := by
  have h₁ := rank_lt_iff hf h s r
  have h₂ := rank_lt_iff hf h r s
  constructor
  · intro heq
    refine le_antisymm (not_lt.mp fun hlt => ?_) (not_lt.mp fun hlt => ?_)
    · exact (h₂.mpr hlt).ne heq.symm
    · exact (h₁.mpr hlt).ne heq
  · intro heq
    refine le_antisymm (not_lt.mp fun hlt => ?_) (not_lt.mp fun hlt => ?_)
    · exact (h₂.mp hlt).ne heq.symm
    · exact (h₁.mp hlt).ne heq

lemma ranked {rank : Fin n → ℕ} (h : ∀ s, (rank s : ℕ∞) = min (unranked : ℕ∞) (leafDist f s)) :
    Ranked (Cabled f) rank where
  symm _ _ := Cabled.symm
  near s r hc := by
    have hle : (rank r : ℕ∞) ≤ rank s + 1 := by
      rw [h, h, min_def (unranked : ℕ∞) (leafDist f s)]
      split_ifs
      · exact (min_le_left _ _).trans le_self_add
      · rw [add_comm]
        exact (min_le_right _ _).trans (leafDist_le_one_add hc.symm)
    exact_mod_cast hle

lemma topTies_iff (hf : Ready f) {rank : Fin n → ℕ}
    (h : ∀ s, (rank s : ℕ∞) = min (unranked : ℕ∞) (leafDist f s)) :
    TopTies (Cabled f) rank ↔ TopTies (Cabled f) (leafDist f) := by
  simp only [TopTies, rank_lt_iff hf h, rank_eq_iff hf h]

end OpenSM.DnUp
