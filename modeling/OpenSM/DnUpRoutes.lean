import OpenSM.DnUpSearch

/-! Routes along the finished hop tables of DNUP, and the dependencies between the channels they use. -/

namespace OpenSM.DnUp

open Lib Lib.UpDown Switch

variable {n m : ℕ} {f : Fabric n m}

lemma Found.same {rk : Fin n → ℕ} {d : Fin n} {lid : ℕ} {H H' : Hops n} (h : Found f rk d H)
    (hs : Same f lid H H') (hl : f.lid d ≠ lid) : Found f rk d H' := by
  refine ⟨fun v => ?_, fun v q u p hr hstep => ?_, fun v q hq hno => ?_⟩
  · rw [getLeastHops, hs v _ 0 hl]
    exact h.level v
  · rw [hs v _ q hl]
    exact h.entry v q u p hr hstep
  · rw [hs v _ q hl]
    exact h.blank v q hq hno

lemma bfsByNode_foldlM (hf : Ready f) {rk : Fin n → ℕ} (hr : Ranked (Cabled f) rk) (ht : TopTies (Cabled f) rk)
    (l : List (Fin n)) (hnodup : l.Nodup) (b : Bfs n) (hvis : ∀ v, b.visited v = false)
    (hblank : ∀ d ∈ l, ∀ v q, getHopCount f b.hops v (f.lid d) q = noPath) :
    ∃ b', l.foldlM (bfsByNode f rk 0) b = some b' ∧ (∀ d ∈ l, Found f rk d b'.hops) ∧
      ∀ d, d ∉ l → Found f rk d b.hops → Found f rk d b'.hops := by
  induction l generalizing b with
  | nil => exact ⟨b, rfl, by simp, fun _ _ h => h⟩
  | cons s l ih =>
    rw [List.nodup_cons] at hnodup
    have hne : ∀ d ∈ l, f.lid d ≠ f.lid s := by
      intro d hd hlid
      exact hnodup.1 (hf.lid_injective hlid ▸ hd)
    obtain ⟨b₁, hb₁, hvis₁, hfound, hsame⟩ := bfsByNode_spec hf hr ht hvis (hblank s List.mem_cons_self)
    obtain ⟨b₂, hb₂, hin, hout⟩ := ih hnodup.2 b₁ hvis₁ (by
      intro d hd v q
      rw [hsame v _ q (hne d hd)]
      exact hblank d (List.mem_cons_of_mem _ hd) v q)
    refine ⟨b₂, ?_, ?_, ?_⟩
    · rw [List.foldlM_cons, hb₁]
      exact hb₂
    · intro d hd
      rcases List.mem_cons.mp hd with rfl | hd
      · exact hout d hnodup.1 hfound
      · exact hin d hd
    · intro d hd hold
      rw [List.mem_cons, not_or] at hd
      exact hout d hd.2 (hold.same hsame fun hlid => hd.1 (hf.lid_injective hlid))

lemma lidMatrices_spec (hf : Ready f) (hleaf : ∃ s, leaf f s = true) (ht : TopTies (Cabled f) (leafDist f))
    (H₀ : Hops n) : ∃ H rank, lidMatrices f false H₀ = some (H, 0) ∧
      (∀ s, (rank s : ℕ∞) = min (unranked : ℕ∞) (leafDist f s)) ∧ ∀ d, Found f rank d H := by
  obtain ⟨rank, hrank, heq⟩ := subnRank_eq (f := f)
  obtain ⟨b, hb, hfound, -⟩ := bfsByNode_foldlM hf (ranked heq) ((topTies_iff hf heq).mpr ht) (List.finRange n)
    (List.nodup_finRange n) ⟨clearHops H₀, fun _ => .up, fun _ => false, [], some 0⟩ (fun _ => rfl)
    fun d _ v q => getHopCount_clearHops f H₀ v _ q
  refine ⟨b.hops, rank, ?_, heq, fun d => hfound d (List.mem_finRange d)⟩
  have hany : (List.finRange n).any (leaf f) = true := by
    obtain ⟨s, hs⟩ := hleaf
    exact List.any_eq_true.mpr ⟨s, List.mem_finRange s, hs⟩
  simp [lidMatrices, hany, hrank, setMinHopTable, hb]

section Routes

variable (f) (H : Hops n) (d : Fin n)

def LeastPort (s : Fin n) (p : ℕ) : Prop :=
  0 < p ∧ getLeastHops f H s (f.lid d) ≠ noPath ∧ getHopCount f H s (f.lid d) p = getLeastHops f H s (f.lid d)

def Follows (s r : Fin n) : Prop := ∃ p q, LeastPort f H d s p ∧ f.remote s p = some (.sw r q)

/-- Least-hop ports lead to the destination, in as many steps as their switch says, and never up again. -/
structure Routes : Prop where
  leads : ∀ d s p, LeastPort f H d s p → ∃ r q, f.remote s p = some (.sw r q)
  onward : ∀ d s, s ≠ d → getLeastHops f H s (f.lid d) ≠ noPath → ∃ r, Follows f H d s r
  counts : ∀ d s l, (s :: l).IsChain (Follows f H d) → getLeastHops f H s (f.lid d) ≠ noPath →
    l.length ≤ getLeastHops f H s (f.lid d) ∧
      ((s :: l).getLast (by simp) = d ↔ l.length = getLeastHops f H s (f.lid d))
  once : ∀ d s l, (s :: l).IsChain (Follows f H d) → NeverUpAgain (leafDist f) (s :: l)
  finite : ∀ d s l, (s :: l).IsChain (Cabled f) → (s :: l).getLast (by simp) = d →
    NeverUpAgain (leafDist f) (s :: l) → getLeastHops f H s (f.lid d) ≠ noPath

/-- Switches that can be joined without going up again are joined so within the range of a hop count. -/
def WithinRange : Prop :=
  ∀ d s l, (s :: l).IsChain (Cabled f) → (s :: l).getLast (by simp) = d → NeverUpAgain (leafDist f) (s :: l) →
    ∃ l', (s :: l').IsChain (Cabled f) ∧ (s :: l').getLast (by simp) = d ∧
      NeverUpAgain (leafDist f) (s :: l') ∧ l'.length < noPath

variable {f} {H} {d} {rank : Fin n → ℕ} {s r : Fin n}

lemma leastPort_iff (h : Found f rank d H) {p : ℕ} : LeastPort f H d s p ↔
    ∃ r q, f.remote s p = some (.sw r q) ∧ Next (Cabled f) rank d s r ∧ dist f rank d s < noPath := by
  have hle : dist f rank d s ≤ noPath := capped_le s
  constructor
  · rintro ⟨hp, hne, heq⟩
    rw [h.level] at hne heq
    have hlt : dist f rank d s < noPath := lt_of_le_of_ne hle hne
    by_cases hno : ∃ u q, f.remote s p = some (.sw u q) ∧ Step (Cabled f) rank d u s
    · obtain ⟨u, q, hr, hs⟩ := hno
      rw [h.entry s p u q hr hs] at heq
      have hu : dist f rank d u + 1 = dist f rank d s := by omega
      have hucap : dist f rank d u < noPath := by omega
      refine ⟨u, q, hr, ⟨hs, ?_⟩, hlt⟩
      rw [hop_eq_capped hlt, hop_eq_capped hucap]
      exact_mod_cast (show dist f rank d u < dist f rank d s by omega)
    · rw [h.blank s p hp.ne' fun u q hr hs => hno ⟨u, q, hr, hs⟩] at heq
      exact absurd heq.symm hne
  · rintro ⟨r, q, hr, ⟨hs, hlt⟩, hcap⟩
    have hstep : dist f rank d s ≤ dist f rank d r + 1 := capped_step hs
    have hrs : dist f rank d r < dist f rank d s := by
      have hs' := hop_eq_capped hcap
      have hr' : dist f rank d r < noPath := capped_lt_iff.mpr (hlt.trans (capped_lt_iff.mp hcap))
      rw [hs', hop_eq_capped hr'] at hlt
      exact_mod_cast hlt
    refine ⟨(f.remote_port _ _ _ hr).1, ?_, ?_⟩
    · rw [h.level]
      exact hcap.ne
    · rw [h.entry s p r q hr hs, h.level]
      omega

lemma follows_iff (h : Found f rank d H) :
    Follows f H d s r ↔ Next (Cabled f) rank d s r ∧ dist f rank d s < noPath := by
  constructor
  · rintro ⟨p, q, hp, hr⟩
    obtain ⟨r', q', hr', hn⟩ := (leastPort_iff h).mp hp
    rw [hr] at hr'
    cases hr'
    exact hn
  · rintro ⟨hn, hlt⟩
    obtain ⟨p, q, hr⟩ := hn.1.1
    have hback := f.remote_symm _ _ _ _ hr
    exact ⟨q, p, (leastPort_iff h).mpr ⟨r, p, hback, hn, hlt⟩, hback⟩

lemma Found.step (h : Found f rank d H) (hf : Follows f H d s r) :
    dist f rank d s = dist f rank d r + 1 ∧ dist f rank d s < noPath := by
  obtain ⟨⟨hs, hlt⟩, hcap⟩ := (follows_iff h).mp hf
  have hstep : dist f rank d s ≤ dist f rank d r + 1 := capped_step hs
  have hr : dist f rank d r < noPath := capped_lt_iff.mpr (hlt.trans (capped_lt_iff.mp hcap))
  rw [hop_eq_capped hcap, hop_eq_capped hr] at hlt
  have hlt' : dist f rank d r < dist f rank d s := by exact_mod_cast hlt
  exact ⟨by omega, hcap⟩

lemma Found.chain (h : Found f rank d H) {l : List (Fin n)} (hc : (s :: l).IsChain (Follows f H d)) :
    dist f rank d s = dist f rank d ((s :: l).getLast (by simp)) + l.length := by
  induction l generalizing s with
  | nil => simp
  | cons r l ih =>
    rw [List.isChain_cons_cons] at hc
    have hstep := (h.step hc.1).1
    have hrest := ih hc.2
    simp only [List.getLast_cons_cons, List.length_cons] at hrest ⊢
    omega

lemma dist_eq_zero (hs : dist f rank d s = 0) : s = d := by
  by_contra hne
  have hlt : dist f rank d s < noPath := by rw [hs]; decide
  obtain ⟨w, -, hw⟩ := capped_pred hne hlt
  change dist f rank d s = _ at hw
  omega

lemma isChain_next (h : Found f rank d H) {l : List (Fin n)} (hc : (s :: l).IsChain (Follows f H d)) :
    (s :: l).IsChain (Next (Cabled f) rank d) :=
  hc.imp fun _ _ hfol => ((follows_iff h).mp hfol).1

lemma routes_of_found (hf : Ready f) (heq : ∀ s, (rank s : ℕ∞) = min (unranked : ℕ∞) (leafDist f s))
    (ht : TopTies (Cabled f) rank) (h : ∀ d, Found f rank d H) (hw : WithinRange f) : Routes f H := by
  have hlt := rank_lt_iff hf heq
  refine ⟨?_, ?_, ?_, ?_, ?_⟩
  · intro d s p hp
    obtain ⟨r, q, hr, -⟩ := (leastPort_iff (h d)).mp hp
    exact ⟨r, q, hr⟩
  · intro d s hs hne
    rw [(h d).level] at hne
    have hcap : dist f rank d s < noPath := lt_of_le_of_ne (capped_le s) hne
    obtain ⟨w, hstep, hw⟩ := capped_pred hs hcap
    change dist f rank d s = dist f rank d w + 1 at hw
    have hlt : dist f rank d w < dist f rank d s := by omega
    have hwcap : dist f rank d w < noPath := by omega
    refine ⟨w, (follows_iff (h d)).mpr ⟨⟨hstep, ?_⟩, hcap⟩⟩
    rw [hop_eq_capped hcap, hop_eq_capped hwcap]
    exact_mod_cast hlt
  · intro d s l hc _
    have hlen := (h d).chain hc
    rw [(h d).level]
    refine ⟨by omega, ?_⟩
    constructor
    · intro hd
      rw [hd] at hlen
      have h0 : dist f rank d d = 0 := capped_self
      omega
    · intro hl
      have h0 : dist f rank d ((s :: l).getLast (by simp)) = 0 := by omega
      exact dist_eq_zero h0
  · intro d s l hc
    rw [← neverUpAgain_congr hlt]
    exact neverUpAgain_of_next (ranked heq) ht (isChain_next (h d) hc)
  · intro d s l hc hd hn
    obtain ⟨l', hc', hd', hn', hlen⟩ := hw d s l hc hd hn
    rw [← neverUpAgain_congr hlt] at hn'
    have hhop := hop_le_length (ranked heq) ht hc' hd' hn'
    have hcap : dist f rank d s < noPath :=
      capped_lt_iff.mpr (hhop.trans_lt (by exact_mod_cast hlen))
    rw [(h d).level]
    exact hcap.ne

lemma withinRange_of_routes (hf : Ready f) (heq : ∀ s, (rank s : ℕ∞) = min (unranked : ℕ∞) (leafDist f s))
    (ht : TopTies (Cabled f) rank) (h : ∀ d, Found f rank d H) (hr : Routes f H) : WithinRange f := by
  intro d s l hc hd hn
  have hne := hr.finite d s l hc hd hn
  rw [(h d).level] at hne
  have hcap : dist f rank d s < noPath := lt_of_le_of_ne (capped_le s) hne
  obtain ⟨l', hc', hd', hlen⟩ := exists_next_chain (hop_eq_capped hcap)
  refine ⟨l', hc'.imp fun _ _ hnext => hnext.adj (ranked heq), hd', ?_, hlen ▸ hcap⟩
  rw [← neverUpAgain_congr (rank_lt_iff hf heq)]
  exact neverUpAgain_of_next (ranked heq) ht hc'

end Routes

section Examples

def stile : Fabric 4 2 where
  numPorts _ := 4
  remote s p := match s, p with
    | 0, 1 => some (.sw 1 1)
    | 1, 1 => some (.sw 0 1)
    | 1, 2 => some (.sw 2 2)
    | 2, 2 => some (.sw 1 2)
    | 2, 1 => some (.sw 3 1)
    | 3, 1 => some (.sw 2 1)
    | 1, 3 => some (.ca 0)
    | 2, 3 => some (.ca 1)
    | _, _ => none
  attach e := if e = 0 then some (1, 3) else some (2, 3)
  lid s := s + 1
  maxLidHo _ := 6
  hopWf _ _ := 1
  healthy _ _ := true
  caHealthy _ := true
  numPorts_pos _ := by decide
  numPorts_le _ := by decide
  remote_port s p x h := by
    split at h <;> simp_all
  remote_symm s p r q h := by
    split at h <;> simp_all
    all_goals
      obtain ⟨rfl, rfl⟩ := h
      rfl
  remote_ca s p e := by
    constructor
    · intro h
      split at h <;> simp_all
      subst h
      exact one_ne_zero
    · fin_cases e
      · simp only [Fin.zero_eta, if_true, Option.some.injEq, Prod.mk.injEq]
        rintro ⟨rfl, rfl⟩
        rfl
      · simp only [Fin.mk_one, one_ne_zero, if_false, Option.some.injEq, Prod.mk.injEq]
        rintro ⟨rfl, rfl⟩
        rfl

lemma ready_stile : Ready stile where
  lid_injective a b h := by
    apply Fin.ext
    simpa [stile] using h
  lid_pos d := Nat.succ_pos _
  lid_le s d := by
    have := d.isLt
    change (d : ℕ) + 1 ≤ 6
    omega
  lid_lt d := by
    have := d.isLt
    change (d : ℕ) + 1 < 2 ^ 16
    omega

def arch : Fabric 4 2 where
  numPorts _ := 4
  remote s p := match s, p with
    | 0, 1 => some (.sw 1 1)
    | 1, 1 => some (.sw 0 1)
    | 1, 2 => some (.sw 2 2)
    | 2, 2 => some (.sw 1 2)
    | 2, 1 => some (.sw 3 1)
    | 3, 1 => some (.sw 2 1)
    | 0, 3 => some (.ca 0)
    | 3, 3 => some (.ca 1)
    | _, _ => none
  attach e := if e = 0 then some (0, 3) else some (3, 3)
  lid s := s + 1
  maxLidHo _ := 6
  hopWf _ _ := 1
  healthy _ _ := true
  caHealthy _ := true
  numPorts_pos _ := by decide
  numPorts_le _ := by decide
  remote_port s p x h := by
    split at h <;> simp_all
  remote_symm s p r q h := by
    split at h <;> simp_all
    all_goals
      obtain ⟨rfl, rfl⟩ := h
      rfl
  remote_ca s p e := by
    constructor
    · intro h
      split at h <;> simp_all
      subst h
      exact one_ne_zero
    · fin_cases e
      · simp only [Fin.zero_eta, if_true, Option.some.injEq, Prod.mk.injEq]
        rintro ⟨rfl, rfl⟩
        rfl
      · simp only [Fin.mk_one, one_ne_zero, if_false, Option.some.injEq, Prod.mk.injEq]
        rintro ⟨rfl, rfl⟩
        rfl

lemma ready_arch : Ready arch where
  lid_injective a b h := by
    apply Fin.ext
    simpa [arch] using h
  lid_pos d := Nat.succ_pos _
  lid_le s d := by
    have := d.isLt
    change (d : ℕ) + 1 ≤ 6
    omega
  lid_lt d := by
    have := d.isLt
    change (d : ℕ) + 1 < 2 ^ 16
    omega

lemma leafDist_arch : leafDist arch 0 = 0 ∧ leafDist arch 1 = 1 ∧ leafDist arch 2 = 1 ∧ leafDist arch 3 = 0 := by
  have hspine : ∀ s r, leaf arch s = false → leaf arch r = true → Cabled arch s r → leafDist arch s = 1 := by
    intro s r hs hr h
    have hle := leafDist_le_one_add h
    rw [leafDist_of_leaf hr, add_zero] at hle
    exact hle.antisymm (Order.one_le_iff_pos.mpr (leafDist_pos hs))
  exact ⟨leafDist_of_leaf rfl, hspine 1 0 rfl rfl ⟨1, 1, rfl⟩, hspine 2 3 rfl rfl ⟨1, 1, rfl⟩,
      leafDist_of_leaf rfl⟩

lemma topTies_arch : TopTies (Cabled arch) (leafDist arch) := by
  obtain ⟨h₀, h₁, h₂, h₃⟩ := leafDist_arch
  have hle : ∀ s, leafDist arch s ≤ 1 := by
    intro s
    fin_cases s
    · exact h₀.le.trans zero_le_one
    · exact h₁.le
    · exact h₂.le
    · exact h₃.le.trans zero_le_one
  rintro v w x ⟨p, q, h⟩ heq _
  -- A leaf switch is cabled to its spine switch only.
  have hone : leafDist arch v = 1 := by
    fin_cases v
    · obtain rfl : 1 = w := by
        change arch.remote 0 p = some (.sw w q) at h
        simp only [arch] at h
        split at h <;> simp_all
      exact heq.trans h₁
    · exact h₁
    · exact h₂
    · obtain rfl : 2 = w := by
        change arch.remote 3 p = some (.sw w q) at h
        simp only [arch] at h
        split at h <;> simp_all
      exact heq.trans h₂
  rw [hone]
  exact not_lt.mpr (hle x)

def ringRemote (s : Fin 4) (p : ℕ) : Option (Remote 4 4) :=
  if p = 1 then some (.sw (s + 1) 2)
  else if p = 2 then some (.sw (s + 3) 1)
  else if p = 3 then some (.ca s)
  else none

lemma ringRemote_port (s : Fin 4) (p : ℕ) (x : Remote 4 4) (h : ringRemote s p = some x) : 1 ≤ p ∧ p < 4 := by
  rw [ringRemote] at h
  split_ifs at h <;> omega

lemma ringRemote_symm (s : Fin 4) (p : ℕ) (r : Fin 4) (q : ℕ) (h : ringRemote s p = some (.sw r q)) :
    ringRemote r q = some (.sw s p) := by
  rw [ringRemote] at h
  split_ifs at h with h₁ h₂ h₃
  · obtain ⟨rfl, rfl⟩ : s + 1 = r ∧ 2 = q := by simpa using h
    subst h₁
    revert s
    decide
  · obtain ⟨rfl, rfl⟩ : s + 3 = r ∧ 1 = q := by simpa using h
    subst h₂
    revert s
    decide
  · cases h

lemma ringRemote_ca (s : Fin 4) (p : ℕ) (e : Fin 4) :
    ringRemote s p = some (.ca e) ↔ some (e, 3) = some (s, p) := by
  rw [ringRemote]
  constructor
  · intro h
    split_ifs at h with h₁ h₂ h₃
    · cases h
    · cases h
    · obtain rfl : s = e := by simpa using h
      rw [h₃]
  · intro h
    obtain ⟨rfl, rfl⟩ : e = s ∧ 3 = p := by simpa using h
    rfl

def ring : Fabric 4 4 where
  numPorts _ := 4
  remote := ringRemote
  attach e := some (e, 3)
  lid s := s + 1
  maxLidHo _ := 8
  hopWf _ _ := 1
  healthy _ _ := true
  caHealthy _ := true
  numPorts_pos _ := by decide
  numPorts_le _ := by decide
  remote_port := ringRemote_port
  remote_symm := ringRemote_symm
  remote_ca := ringRemote_ca

lemma ready_ring : Ready ring where
  lid_injective a b h := by
    apply Fin.ext
    simpa [ring] using h
  lid_pos d := Nat.succ_pos _
  lid_le s d := by
    have := d.isLt
    change (d : ℕ) + 1 ≤ 8
    omega
  lid_lt d := by
    have := d.isLt
    change (d : ℕ) + 1 < 2 ^ 16
    omega

lemma leafDist_ring (s : Fin 4) : leafDist ring s = 0 :=
  leafDist_of_leaf (by revert s; decide)

lemma topTies_ring : TopTies (Cabled ring) (leafDist ring) := by
  intro v w x _ _ _
  rw [leafDist_ring, leafDist_ring]
  exact lt_irrefl _

def tables {n m : ℕ} (f : Fabric n m) : Hops n :=
  ((lidMatrices f false fun _ _ => none).getD (fun _ _ => none, -1)).1

lemma lidMatrices_tables {n m : ℕ} {f : Fabric n m}
    (h : (lidMatrices f false fun _ _ => none).map Prod.snd = some 0) :
    (lidMatrices f false fun _ _ => none) = some (tables f, 0) := by
  obtain ⟨⟨H, x⟩, hH, hx⟩ := Option.map_eq_some_iff.mp h
  rw [tables, hH]
  exact congrArg some (Prod.ext rfl hx)

end Examples

/-- Where the two ends of a link of equal ranks have no neighbours of a higher rank, routes are right and
never go up again exactly when the hop counts fit their byte. -/
theorem lidMatrices_routes (hf : Ready f) (hleaf : ∃ s, leaf f s = true)
    (ht : TopTies (Cabled f) (leafDist f)) (H₀ : Hops n) :
    ∃ H, lidMatrices f false H₀ = some (H, 0) ∧ (Routes f H ↔ WithinRange f) := by
  obtain ⟨H, rank, hH, heq, hfound⟩ := lidMatrices_spec hf hleaf ht H₀
  have ht' := (topTies_iff hf heq).mpr ht
  exact ⟨H, hH, withinRange_of_routes hf heq ht' hfound, routes_of_found hf heq ht' hfound⟩

theorem lidMatrices_routes_arch : (Ready arch ∧ leaf arch 0 = true ∧ leafDist arch 1 = leafDist arch 2 ∧
    leafDist arch 0 < leafDist arch 1 ∧ TopTies (Cabled arch) (leafDist arch)) ∧
    ∃ H, lidMatrices arch false (fun _ _ => none) = some (H, 0) ∧ (Routes arch H ↔ WithinRange arch) := by
  obtain ⟨h₀, h₁, h₂, -⟩ := leafDist_arch
  refine ⟨⟨ready_arch, rfl, h₁.trans h₂.symm, ?_, topTies_arch⟩,
      lidMatrices_routes ready_arch ⟨0, rfl⟩ topTies_arch _⟩
  rw [h₀, h₁]
  exact zero_lt_one

/-- The way between the spine switches goes down to a leaf switch, over to the other one and up again. -/
theorem stile_up_again : Ready stile ∧ leaf stile 1 = true ∧
    ∃ H, lidMatrices stile false (fun _ _ => none) = some (H, 0) ∧ ¬ Routes stile H := by
  refine ⟨ready_stile, rfl, tables stile, lidMatrices_tables (by decide +kernel), fun h => ?_⟩
  have hfollows : ∀ s r : Fin 4, (s, r) ∈ [((3 : Fin 4), (2 : Fin 4)), (2, 1), (1, 0)] →
      Follows stile (tables stile) 0 s r := by
    intro s r hsr
    simp only [List.mem_cons, Prod.mk.injEq, List.not_mem_nil, or_false] at hsr
    rcases hsr with ⟨rfl, rfl⟩ | ⟨rfl, rfl⟩ | ⟨rfl, rfl⟩
    · exact ⟨1, 1, ⟨by decide, by decide +kernel, by decide +kernel⟩, rfl⟩
    · exact ⟨2, 2, ⟨by decide, by decide +kernel, by decide +kernel⟩, rfl⟩
    · exact ⟨1, 1, ⟨by decide, by decide +kernel, by decide +kernel⟩, rfl⟩
  have hchain : [(3 : Fin 4), 2, 1, 0].IsChain (Follows stile (tables stile) 0) := by
    simp [hfollows]
  have hagain := h.once 0 3 [2, 1, 0] hchain 0 2 (by decide) (by decide)
  have hdown : leafDist stile 2 < leafDist stile 3 := by
    rw [leafDist_of_leaf rfl]
    exact leafDist_pos rfl
  refine hagain hdown ?_
  change leafDist stile 1 < leafDist stile 0
  rw [leafDist_of_leaf rfl]
  exact leafDist_pos rfl

section Channels

variable (f) (H : Hops n)

def Depends (c c' : Fin n × ℕ) : Prop :=
  ∃ d q r x, LeastPort f H d c.1 c.2 ∧ f.remote c.1 c.2 = some (.sw c'.1 q) ∧ LeastPort f H d c'.1 c'.2 ∧
    f.remote c'.1 c'.2 = some (.sw r x)

def DeadlockFree : Prop := ∀ c, ¬ Relation.TransGen (Depends f H) c c

def ends (c : Fin n × ℕ) : Fin n × Fin n :=
  match f.remote c.1 c.2 with
  | some (.sw r _) => (c.1, r)
  | _ => (c.1, c.1)

/-- Going up lowers this, going down lowers it further, and only links of equal ranks keep it. -/
def height (rank : Fin n → ℕ) (e : Fin n × Fin n) : ℕ :=
  if rank e.1 < rank e.2 then 2 * (unranked + 1) + (unranked + 1 - rank e.1)
  else if rank e.2 < rank e.1 then rank e.1
  else 2 * (unranked + 1)

variable {f} {H} {rank : Fin n → ℕ}

lemma height_le (heq : ∀ s, (rank s : ℕ∞) = min (unranked : ℕ∞) (leafDist f s))
    (ht : TopTies (Cabled f) rank) {d v w x : Fin n} (hv : Next (Cabled f) rank d v w)
    (hw : Next (Cabled f) rank d w x) :
    height rank (w, x) < height rank (v, w) ∨
      height rank (w, x) = height rank (v, w) ∧ Turn (Cabled f) rank (v, w) (w, x) := by
  have hr := ranked heq
  have hle : ∀ s, rank s ≤ unranked := by
    intro s
    have h : (rank s : ℕ∞) ≤ unranked := heq s ▸ min_le_left _ _
    exact_mod_cast h
  have hv' := hle v
  have hw' := hle w
  have hx' := hle x
  have hvw := hv.adj hr
  have hwx := hw.adj hr
  rcases lt_trichotomy (rank v) (rank w) with h₁ | h₁ | h₁
  · left
    simp only [height]
    split_ifs <;> omega
  · have hup := ht w v x hvw.symm h₁.symm hwx
    rcases (not_lt.mp hup).lt_or_eq with h₂ | h₂
    · left
      simp only [height]
      split_ifs <;> omega
    · right
      refine ⟨?_, hv.turn hr hw h₁ h₂.symm⟩
      simp [height, h₁, h₂]
  · have hfree := hv.free_of_le h₁.le
    have hle' := hw.of_free hr ht hfree
    rcases hle'.lt_or_eq with h₂ | h₂
    · left
      simp only [height]
      split_ifs <;> omega
    · exact absurd h₁ (ht w x v hwx h₂.symm hvw.symm)

lemma depends_height (heq : ∀ s, (rank s : ℕ∞) = min (unranked : ℕ∞) (leafDist f s))
    (ht : TopTies (Cabled f) rank) (h : ∀ d, Found f rank d H) {c c' : Fin n × ℕ}
    (hc : Relation.TransGen (Depends f H) c c') :
    height rank (ends f c') < height rank (ends f c) ∨
      height rank (ends f c') = height rank (ends f c) ∧
        Relation.TransGen (Turn (Cabled f) rank) (ends f c) (ends f c') := by
  have hone : ∀ a b, Depends f H a b → height rank (ends f b) < height rank (ends f a) ∨
      height rank (ends f b) = height rank (ends f a) ∧ Turn (Cabled f) rank (ends f a) (ends f b) := by
    rintro a b ⟨d, q, r, x, hp, hr, hp', hr'⟩
    obtain ⟨r₁, q₁, h₁, hn₁, -⟩ := (leastPort_iff (h d)).mp hp
    obtain ⟨r₂, q₂, h₂, hn₂, -⟩ := (leastPort_iff (h d)).mp hp'
    have ha : ends f a = (a.1, b.1) := by simp [ends, hr]
    have hb : ends f b = (b.1, r) := by simp [ends, hr']
    rw [hr] at h₁
    rw [hr'] at h₂
    cases h₁
    cases h₂
    rw [ha, hb]
    exact height_le heq ht hn₁ hn₂
  induction hc with
  | single hab => exact (hone _ _ hab).imp_right fun hh => ⟨hh.1, .single hh.2⟩
  | tail _ hbc ih =>
    rcases ih with hlt | ⟨he, ht'⟩
    · rcases hone _ _ hbc with hlt' | ⟨he', -⟩
      · exact Or.inl (hlt'.trans hlt)
      · exact Or.inl (he' ▸ hlt)
    · rcases hone _ _ hbc with hlt' | ⟨he', ht''⟩
      · exact Or.inl (he ▸ hlt')
      · exact Or.inr ⟨he'.trans he, ht'.tail ht''⟩

open scoped Classical in
noncomputable def channel (f : Fabric n m) (e : Fin n × Fin n) : Fin n × ℕ :=
  (e.1, if h : Cabled f e.1 e.2 then h.choose else 0)

lemma remote_channel {e : Fin n × Fin n} (h : Cabled f e.1 e.2) :
    ∃ q, f.remote (channel f e).1 (channel f e).2 = some (.sw e.2 q) := by
  rw [channel, dif_pos h]
  exact h.choose_spec

lemma depends_of_turn (heq : ∀ s, (rank s : ℕ∞) = min (unranked : ℕ∞) (leafDist f s))
    (h : ∀ d, Found f rank d H) {a b : Fin n × Fin n} (ht : Turn (Cabled f) rank a b) :
    Depends f H (channel f a) (channel f b) := by
  obtain ⟨v, w⟩ := a
  obtain ⟨w', x⟩ := b
  obtain rfl : w = w' := ht.1
  obtain ⟨hv, hw⟩ := ht.next (ranked heq)
  obtain ⟨q, hq⟩ := remote_channel (f := f) (e := (v, w)) ht.2.1
  obtain ⟨y, hy⟩ := remote_channel (f := f) (e := (w, x)) ht.2.2.1
  have hle : hop (Cabled f) rank x w ≤ 1 := by simpa using hop_step hw.1
  have hle' : hop (Cabled f) rank x v ≤ 2 :=
    (hop_step hv.1).trans ((add_le_add_left hle 1).trans (by norm_num))
  have hcap : dist f rank x v < noPath := capped_lt_iff.mpr (hle'.trans_lt (by decide))
  have hcap' : dist f rank x w < noPath := capped_lt_iff.mpr (hle.trans_lt (by decide))
  exact ⟨x, q, x, y, (leastPort_iff (h x)).mpr ⟨w, q, hq, hv, hcap⟩, hq,
    (leastPort_iff (h x)).mpr ⟨x, y, hy, hw, hcap'⟩, hy⟩

end Channels

/-- There, no cycle of channel dependencies can arise exactly when there is none of links of equal ranks
each two of which are a shortest way between their ends. -/
theorem lidMatrices_deadlockFree (hf : Ready f) (hleaf : ∃ s, leaf f s = true)
    (ht : TopTies (Cabled f) (leafDist f)) (H₀ : Hops n) :
    ∃ H, lidMatrices f false H₀ = some (H, 0) ∧
      (DeadlockFree f H ↔ ∀ e, ¬ Relation.TransGen (Turn (Cabled f) (leafDist f)) e e) := by
  obtain ⟨H, rank, hH, heq, hfound⟩ := lidMatrices_spec hf hleaf ht H₀
  have ht' := (topTies_iff hf heq).mpr ht
  have hturn : Turn (Cabled f) rank = Turn (Cabled f) (leafDist f) := by
    funext a b
    simp only [Turn, rank_eq_iff hf heq]
  refine ⟨H, hH, ?_⟩
  rw [← hturn]
  constructor
  · intro hfree e he
    exact hfree (channel f e) (he.lift (channel f) fun a b hab => depends_of_turn heq hfound hab)
  · intro hfree c hc
    rcases depends_height heq ht' hfound hc with hlt | ⟨-, hcyc⟩
    · exact lt_irrefl _ hlt
    · exact hfree _ hcyc

theorem lidMatrices_deadlockFree_ring : (Ready ring ∧ (∃ s, leaf ring s = true) ∧
    TopTies (Cabled ring) (leafDist ring)) ∧
    ∃ H, lidMatrices ring false (fun _ _ => none) = some (H, 0) ∧
      (DeadlockFree ring H ↔ ∀ e, ¬ Relation.TransGen (Turn (Cabled ring) (leafDist ring)) e e) :=
  ⟨⟨ready_ring, ⟨0, rfl⟩, topTies_ring⟩, lidMatrices_deadlockFree ready_ring ⟨0, rfl⟩ topTies_ring _⟩

/-- Routes between opposite switches of a ring go both ways round, and their channels wait for each other. -/
theorem ring_deadlock : Ready ring ∧ leaf ring 0 = true ∧
    ∃ H, lidMatrices ring false (fun _ _ => none) = some (H, 0) ∧ ¬ DeadlockFree ring H := by
  refine ⟨ready_ring, rfl, tables ring, lidMatrices_tables (by decide +kernel), fun h => ?_⟩
  have hnear : ∀ d s : Fin 4, (s = d + 2 ∨ s = d + 3) → LeastPort ring (tables ring) d s 1 := by
    intro d s hs
    have hall : ∀ d s : Fin 4, (s = d + 2 ∨ s = d + 3) →
        getLeastHops ring (tables ring) s (ring.lid d) ≠ noPath ∧
          getHopCount ring (tables ring) s (ring.lid d) 1 = getLeastHops ring (tables ring) s (ring.lid d) := by
      decide +kernel
    exact ⟨one_pos, hall d s hs⟩
  have hdep : ∀ s : Fin 4, Depends ring (tables ring) (s, 1) (s + 1, 1) := by
    intro s
    refine ⟨s + 2, 2, s + 2, 2, hnear _ _ ?_, rfl, hnear _ _ ?_, ?_⟩ <;> revert s <;> decide
  apply h (0, 1)
  exact (((Relation.TransGen.single (hdep 0)).tail (hdep 1)).tail (hdep 2)).tail (hdep 3)

end OpenSM.DnUp
