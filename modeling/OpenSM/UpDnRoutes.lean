import OpenSM.UpDnSearch

/-! The hop tables of UPDN: where its searches are timely they hold the shortest paths that go up and then down,
and least-hop ports lead nearer to the destination. -/

namespace OpenSM.UpDn

open Lib.Drive Lib.FirstWord Switch DnUp

variable {n m : ℕ} {f : Fabric n m} {rank id : Fin n → ℕ}

section Ranks

variable (root : Fin n → Bool)

structure Rooted (st : (Fin n → ℕ) × List (Fin n)) : Prop where
  le : ∀ s, st.1 s ≤ unranked
  zero : ∀ s, st.1 s = 0 ↔ root s = true
  queued : ∀ s ∈ st.2, st.1 s < unranked

variable {root} {st st' : (Fin n → ℕ) × List (Fin n)} {u : Fin n}

lemma Rooted.port (h : Rooted root st) (hu : st.1 u < unranked) (p : ℕ) :
    Rooted root (rankPort f u st p) ∧ (rankPort f u st p).1 u < unranked ∧
      rankWork (rankPort f u st p) ≤ rankWork st := by
  have hmod : (st.1 u + 1) % 2 ^ 32 = st.1 u + 1 := Nat.mod_eq_of_lt (by rw [unranked] at hu; omega)
  rw [rankPort]
  split
  · rename_i r q hr
    rw [hmod]
    split_ifs with hlt
    · have hle := h.le r
      have hsum := sum_update_lt hlt
      refine ⟨⟨fun s => ?_, fun s => ?_, fun s hs => ?_⟩, ?_, ?_⟩
      · dsimp only
        rw [Function.update_apply]
        split_ifs
        · exact hlt.le.trans hle
        · exact h.le s
      · dsimp only
        rw [Function.update_apply]
        by_cases hsr : s = r
        · rw [if_pos hsr, hsr, ← h.zero r]
          exact iff_of_false (Nat.succ_ne_zero _) (Nat.ne_zero_of_lt hlt)
        · rw [if_neg hsr]
          exact h.zero s
      · dsimp only at hs ⊢
        rw [Function.update_apply]
        split_ifs with hsr
        · exact hlt.trans_le hle
        · exact h.queued s ((List.mem_append.mp hs).resolve_right fun hs => hsr (List.mem_singleton.mp hs))
      · dsimp only
        rw [Function.update_apply]
        split_ifs
        · exact hlt.trans_le hle
        · exact hu
      · simp only [rankWork, List.length_append, List.length_singleton]
        omega
    · exact ⟨h, hu, le_rfl⟩
  · exact ⟨h, hu, le_rfl⟩

lemma Rooted.ports (h : Rooted root st) (hu : st.1 u < unranked) (l : List ℕ) :
    Rooted root (l.foldl (rankPort f u) st) ∧ rankWork (l.foldl (rankPort f u) st) ≤ rankWork st := by
  induction l generalizing st with
  | nil => exact ⟨h, le_rfl⟩
  | cons p l ih =>
    obtain ⟨hp, hup, hw⟩ := h.port (f := f) hu p
    obtain ⟨hl, hw'⟩ := ih hp hup
    exact ⟨hl, hw'.trans hw⟩

lemma Rooted.body (h : Rooted root st) (hb : rankBody f st = some st') :
    Rooted root st' ∧ rankWork st' < rankWork st := by
  obtain ⟨rank, list⟩ := st
  cases list with
  | nil => cases hb
  | cons u rest =>
    obtain rfl := Option.some.inj hb
    have hrest : Rooted root (rank, rest) := ⟨h.le, h.zero, fun s hs => h.queued s (List.mem_cons_of_mem u hs)⟩
    obtain ⟨hl, hw⟩ := hrest.ports (f := f) (h.queued u List.mem_cons_self) (DnUp.ports f u)
    refine ⟨hl, hw.trans_lt ?_⟩
    rw [rankWork, rankWork]
    exact Nat.lt_succ_self _

/-- The ranking ends; the roots alone are of rank 0. -/
lemma subnRank_spec (f : Fabric n m) (root : Fin n → Bool) :
    ∃ rank, subnRank f (rootRank root) = some rank ∧ ∀ s, rank s = 0 ↔ root s = true := by
  have hne : unranked ≠ 0 := by decide
  have hstart : Rooted root (rootRank root, (List.finRange n).filter fun s => rootRank root s = 0) := by
    refine ⟨fun s => ?_, fun s => ?_, fun s hs => ?_⟩
    · dsimp only
      rw [rootRank]
      split_ifs
      · exact Nat.zero_le _
      · exact le_rfl
    · dsimp only
      rw [rootRank]
      split_ifs with hs
      · exact iff_of_true rfl hs
      · exact iff_of_false hne hs
    · have hs' := of_decide_eq_true (List.mem_filter.mp hs).2
      exact hs'.trans_lt (Nat.pos_of_ne_zero hne)
  have hwork : rankWork (rootRank root, (List.finRange n).filter fun s => rootRank root s = 0) ≤ n * 2 ^ 32 := by
    have hsum : ∑ s : Fin n, rootRank root s ≤ n * unranked :=
      (Finset.sum_le_card_nsmul _ _ unranked fun s _ => hstart.le s).trans (by simp)
    have hlen : ((List.finRange n).filter fun s => rootRank root s = 0).length ≤ n :=
      (List.length_filter_le _ _).trans (by simp)
    have hu : n * 2 ^ 32 = n * unranked + n := by rw [unranked]; omega
    simp only [rankWork]
    omega
  obtain ⟨st, hst, hI, -⟩ := drive_spec (fun s s' hs hb => hs.body hb) (n * 2 ^ 32) hstart hwork
  refine ⟨st.1, ?_, hI.zero⟩
  rw [subnRank, DnUp.subnRank, hst]
  rfl

end Ranks

section Tables

lemma Found.same {d : Fin n} {H H' : Hops n} (h : Found f rank id d H)
    (hs : ∀ v q, getHopCount f H' v (f.lid d) q = getHopCount f H v (f.lid d) q) : Found f rank id d H' := by
  have hl : ∀ v, getLeastHops f H' v (f.lid d) = getLeastHops f H v (f.lid d) := fun v => hs v 0
  constructor
  · simp only [hl]
    exact h.level
  · simp only [hl]
    exact h.walk
  · simp only [hl]
    exact h.le
  · simp only [hl, hs]
    exact h.next

lemma bfsByNode_foldlM (hf : Ready f) (rank id : Fin n → ℕ) (l : List (Fin n)) (hnodup : l.Nodup) (b : Bfs n)
    (hvis : ∀ v, b.visited v = false) (hblank : ∀ d ∈ l, ∀ v q, getHopCount f b.hops v (f.lid d) q = noPath) :
    ∃ b', l.foldlM (bfsByNode f rank id) b = some b' ∧
      (∀ d ∈ l, Timely f rank id d → Found f rank id d b'.hops) ∧
      ∀ d, d ∉ l → ∀ v q, getHopCount f b'.hops v (f.lid d) q = getHopCount f b.hops v (f.lid d) q := by
  induction l generalizing b with
  | nil => exact ⟨b, rfl, fun d hd => absurd hd List.not_mem_nil, fun _ _ _ _ => rfl⟩
  | cons s l ih =>
    obtain ⟨hs, hnodup⟩ := List.nodup_cons.mp hnodup
    have hne : ∀ d, d ≠ s → f.lid d ≠ f.lid s := fun d hd hlid => hd (hf.lid_injective hlid)
    obtain ⟨b₁, hb₁, hvis₁, hsame, hfound⟩ : ∃ b₁, bfsByNode f rank id b s = some b₁ ∧ _ :=
      bfsByNode_spec hf hvis (hblank s List.mem_cons_self)
    obtain ⟨b₂, hb₂, hin, hout⟩ := ih hnodup b₁ hvis₁ fun d hd v q => by
      rw [hsame v _ q (hne d fun heq => hs (heq ▸ hd))]
      exact hblank d (List.mem_cons_of_mem s hd) v q
    refine ⟨b₂, ?_, fun d hd ht => ?_, fun d hd v q => ?_⟩
    · rw [List.foldlM_cons, hb₁]
      exact hb₂
    · rcases List.mem_cons.mp hd with rfl | hd
      · exact (hfound ht).same (hout d hs)
      · exact hin d hd ht
    · rw [List.mem_cons, not_or] at hd
      rw [hout d hd.2 v q, hsame v _ q (hne d hd.1)]

lemma setMinHopTable_spec (hf : Ready f) (rank id : Fin n → ℕ) (H : Hops n) :
    ∃ H', setMinHopTable f false rank id H = some H' ∧ ∀ d, Timely f rank id d → Found f rank id d H' := by
  obtain ⟨b, hb, hin, -⟩ := bfsByNode_foldlM hf rank id (List.finRange n) (List.nodup_finRange n)
    ⟨clearHops H, fun _ => .up, fun _ => false, []⟩ (fun _ => rfl) fun d _ v q => getHopCount_clearHops f H v _ q
  refine ⟨b.hops, ?_, fun d => hin d (List.mem_finRange d)⟩
  have hH : (if false = true then clearNonRootHops f rank H else clearHops H) = clearHops H :=
      if_neg Bool.false_ne_true
  rw [setMinHopTable, hH, hb]
  rfl

lemma setMinHopTable_first {f : Fabric (n + 1) m} {rank id : Fin (n + 1) → ℕ} (hf : Ready f) (H : Hops (n + 1)) :
    ∃ b H', bfsByNode f rank id ⟨clearHops H, fun _ => .up, fun _ => false, []⟩ 0 = some b ∧
      setMinHopTable f false rank id H = some H' ∧
      ∀ v q, getHopCount f H' v (f.lid 0) q = getHopCount f b.hops v (f.lid 0) q := by
  have hcons : List.finRange (n + 1) = 0 :: (List.finRange n).map Fin.succ := List.finRange_succ
  have hnodup := List.nodup_finRange (n + 1)
  rw [hcons] at hnodup
  obtain ⟨h0, hnodup⟩ := List.nodup_cons.mp hnodup
  obtain ⟨b, hb, hvis, hsame, -⟩ :
      ∃ b, bfsByNode f rank id ⟨clearHops H, fun _ => .up, fun _ => false, []⟩ 0 = some b ∧ _ :=
    bfsByNode_spec hf (fun _ => rfl) fun v q => getHopCount_clearHops f H v _ q
  obtain ⟨b', hb', -, hout⟩ := bfsByNode_foldlM hf rank id _ hnodup b hvis fun d hd v q => by
    rw [hsame v _ q fun hlid => h0 (hf.lid_injective hlid ▸ hd)]
    exact getHopCount_clearHops f H v _ q
  refine ⟨b, b'.hops, hb, ?_, hout 0 h0⟩
  have hH : (if false = true then clearNonRootHops f rank H else clearHops H) = clearHops H :=
      if_neg Bool.false_ne_true
  rw [setMinHopTable, hH, hcons, List.foldlM_cons, hb]
  change (((List.finRange n).map Fin.succ).foldlM (bfsByNode f rank id) b >>= fun b => some b.hops) = _
  rw [hb']
  rfl

/-- The far end of every least-hop port is one hop nearer. -/
def Descends (f : Fabric n m) (H : Hops n) (d : Fin n) : Prop :=
  ∀ s, s ≠ d → getLeastHops f H s (f.lid d) ≠ noPath → ∀ p, 0 < p → p < f.numPorts s →
    getHopCount f H s (f.lid d) p = getLeastHops f H s (f.lid d) →
    ∃ r q, f.remote s p = some (.sw r q) ∧ getLeastHops f H r (f.lid d) + 1 = getLeastHops f H s (f.lid d)

lemma Found.descends {d : Fin n} {H : Hops n} (h : Found f rank id d H) : Descends f H d := by
  intro s _ hne p hp _ heq
  obtain ⟨r, q, hr, -, hnext⟩ := h.next s p hp.ne' (heq ▸ hne)
  exact ⟨r, q, hr, hnext.symm.trans heq⟩

lemma Found.least_eq (hid : Function.Injective id) (hroots : ∀ u r, Link f u r → ¬(rank u = 0 ∧ rank r = 0))
    {d : Fin n} (ht : Timely f rank id d) {H : Hops n} (h : Found f rank id d H) (s : Fin n) :
    (getLeastHops f H s (f.lid d) : ℕ∞) = min (noPath : ℕ∞) (legalDist f rank id s d) := by
  by_cases hs : ∃ x, First (Step f rank id d) d x s
  · obtain ⟨x, hx⟩ := hs
    rw [legalDist_first hid hroots ht hx, h.level s x hx]
    exact_mod_cast rfl
  · have htop : legalDist f rank id s d = ⊤ := by
      by_contra hne
      exact hs (exists_first_of_legalDist hid hroots hne)
    have hno : getLeastHops f H s (f.lid d) = noPath := by
      by_contra hne
      exact hs (h.walk s hne)
    rw [htop, hno, min_top_right]

def Follows (f : Fabric n m) (H : Hops n) (d s r : Fin n) : Prop :=
  getLeastHops f H s (f.lid d) ≠ noPath ∧ ∃ p q, f.remote s p = some (.sw r q) ∧
    getHopCount f H s (f.lid d) p = getLeastHops f H s (f.lid d)

/-- A path of steps up alone is shorter than one that ends with a step down, where the search can go on up. -/
def Soon (f : Fabric n m) (rank id : Fin n → ℕ) (d : Fin n) : Prop :=
  ∀ v, Free f rank id d v → HasUp f rank id v → ∀ x, Legal f rank id d x .down v →
    ∃ y, Legal f rank id d y .up v ∧ y.length < x.length

lemma Soon.timely {d : Fin n} (h : Soon f rank id d) : Timely f rank id d := by
  intro v hv hup x hx
  obtain ⟨y, hy, hlt⟩ := h v hv hup x hx
  exact ⟨y, hy, .inl hlt⟩

lemma Found.follows {d s r : Fin n} {H : Hops n} (h : Found f rank id d H) (hs : Follows f H d s r) :
    ∃ p, Step f rank id d r p s ∧ getLeastHops f H s (f.lid d) = getLeastHops f H r (f.lid d) + 1 := by
  obtain ⟨hne, p, q, hr, heq⟩ := hs
  obtain ⟨u, q', hu, hstep, hnext⟩ := h.next s p (f.remote_port _ _ _ hr).1.ne' (heq ▸ hne)
  rw [hr] at hu
  cases hu
  exact ⟨q, hstep, heq.symm.trans hnext⟩

/-- A packet that has gone down does not go up again. -/
lemma Found.stays_down (hid : Function.Injective id) (hroots : ∀ u r, Link f u r → ¬(rank u = 0 ∧ rank r = 0))
    {d s r t : Fin n} (hsoon : Soon f rank id d) {H : Hops n} (h : Found f rank id d H) (hsr : Follows f H d s r)
    (hrt : Follows f H d r t) (hdown : stepDir rank id s r = .down) : stepDir rank id r t = .down := by
  obtain ⟨p, hp, hs⟩ := h.follows hsr
  obtain ⟨p', hp', hr⟩ := h.follows hrt
  have hrs : Link f r s := by
    refine ⟨fun heq => ?_, ?_⟩
    · rw [heq] at hs
      exact absurd hs (Nat.succ_ne_self _).symm
    · obtain ⟨q, hq⟩ := hp.1
      exact ⟨p, q, hq⟩
  have htr : Link f t r := by
    refine ⟨fun heq => ?_, ?_⟩
    · rw [heq] at hr
      exact absurd hr (Nat.succ_ne_self _).symm
    · obtain ⟨q, hq⟩ := hp'.1
      exact ⟨p', q, hq⟩
  have hup : stepDir rank id r s = .up := (stepDir_swap hid hroots hrs).mpr hdown
  have hfree : Free f rank id d r := hp.2.resolve_right fun hd => by
    rw [hup] at hd
    cases hd
  obtain ⟨q, hq⟩ := hp.1
  refine (stepDir rank id r t).eq_up_or_down.resolve_left fun hrtup => ?_
  -- The search comes down to `r` from `t`, as early as it comes up to it.
  have htrdown : stepDir rank id t r = .down := (stepDir_swap hid hroots htr.symm).mp hrtup
  obtain ⟨x, hx⟩ := h.walk r hrt.1
  obtain ⟨y, hy⟩ := h.walk t fun hno => by
    have hle := h.le r
    rw [hr, hno] at hle
    exact absurd hle (Nat.not_succ_le_self _)
  obtain ⟨dir, hlegal, -⟩ := first_legal hsoon.timely hy
  obtain ⟨q', hq'⟩ := hp'.1
  have hlast := hlegal.snoc hq' fun hd => by
    rw [htrdown] at hd
    cases hd.2
  rw [htrdown] at hlast
  obtain ⟨z, hz, hlt⟩ := hsoon r hfree ⟨p, s, q, hq, hup⟩ _ hlast
  have hle := hx.length_le hz.walk
  have hxr := h.level r x hx
  have hyt := h.level t y hy
  have hrne := hrt.1
  have hrle := h.le r
  rw [List.length_append, List.length_singleton] at hlt
  omega

lemma Found.upThenDown (hid : Function.Injective id) (hroots : ∀ u r, Link f u r → ¬(rank u = 0 ∧ rank r = 0))
    {d : Fin n} (hsoon : Soon f rank id d) {H : Hops n} (h : Found f rank id d H) (l : List (Fin n))
    (hl : l.IsChain (Follows f H d)) : ∃ a b, dirs rank id l = List.replicate a .up ++ List.replicate b .down ∧
      (∀ s r l', l = s :: r :: l' → stepDir rank id s r = .down → a = 0) := by
  induction l with
  | nil => exact ⟨0, 0, rfl, fun _ _ _ _ _ => rfl⟩
  | cons s l ih =>
    cases l with
    | nil => exact ⟨0, 0, rfl, fun _ _ _ _ _ => rfl⟩
    | cons r l =>
      obtain ⟨hsr, hl⟩ := List.isChain_cons_cons.mp hl
      obtain ⟨a, b, hab, hzero⟩ := ih hl
      rw [dirs_cons, hab]
      rcases (stepDir rank id s r).eq_up_or_down with hup | hdown
      · rw [hup]
        refine ⟨a + 1, b, rfl, fun s' r' l' heq hdown => ?_⟩
        cases heq
        rw [hup] at hdown
        cases hdown
      · have ha : a = 0 := by
          cases l with
          | nil =>
            cases a with
            | zero => rfl
            | succ a => cases hab
          | cons t l =>
            obtain ⟨hrt, -⟩ := List.isChain_cons_cons.mp hl
            exact hzero r t l rfl (h.stays_down hid hroots hsoon hsr hrt hdown)
        rw [hdown, ha]
        exact ⟨0, b + 1, rfl, fun _ _ _ _ _ => rfl⟩

end Tables

section Mesh

def meshCables : List ((Fin 9 × ℕ) × (Fin 9 × ℕ)) :=
  [((2, 1), (3, 1)), ((3, 1), (2, 1)), ((0, 1), (4, 1)), ((4, 1), (0, 1)), ((5, 1), (1, 1)), ((1, 1), (5, 1)),
    ((6, 1), (3, 2)), ((3, 2), (6, 1)), ((4, 2), (5, 2)), ((5, 2), (4, 2)), ((1, 2), (2, 2)), ((2, 2), (1, 2)),
    ((3, 3), (8, 1)), ((8, 1), (3, 3)), ((6, 2), (7, 1)), ((7, 1), (6, 2)), ((6, 3), (2, 3)), ((2, 3), (6, 3)),
    ((4, 3), (1, 3)), ((1, 3), (4, 3)), ((7, 2), (3, 4)), ((3, 4), (7, 2)), ((5, 3), (6, 4)), ((6, 4), (5, 3)),
    ((0, 2), (1, 4)), ((1, 4), (0, 2))]

def meshRemote (s : Fin 9) (p : ℕ) : Option (Remote 9 0) :=
  (meshCables.lookup (s, p)).map fun x => .sw x.1 x.2

lemma meshRemote_some {s : Fin 9} {p : ℕ} {x : Remote 9 0} (h : meshRemote s p = some x) :
    ∃ y, ((s, p), y) ∈ meshCables ∧ x = .sw y.1 y.2 := by
  obtain ⟨y, hy, rfl⟩ := Option.map_eq_some_iff.mp h
  obtain ⟨l, l', hl, -⟩ := List.lookup_eq_some_iff.mp hy
  refine ⟨y, ?_, rfl⟩
  rw [hl]
  exact List.mem_append_right l List.mem_cons_self

def mesh : Fabric 9 0 where
  numPorts _ := 5
  remote := meshRemote
  attach e := e.elim0
  lid s := s + 1
  maxLidHo _ := 9
  hopWf _ _ := 1
  healthy _ _ := true
  caHealthy _ := true
  numPorts_pos _ := by decide
  numPorts_le _ := by decide
  remote_port s p x h := by
    obtain ⟨y, hy, -⟩ := meshRemote_some h
    have hall : ∀ c ∈ meshCables, 0 < c.1.2 ∧ c.1.2 < 5 := by decide
    exact hall _ hy
  remote_symm s p r q h := by
    obtain ⟨y, hy, hx⟩ := meshRemote_some h
    cases hx
    have hall : ∀ c ∈ meshCables, meshRemote c.2.1 c.2.2 = some (.sw c.1.1 c.1.2) := by decide
    exact hall _ hy
  remote_ca _ _ e := e.elim0

def meshRoot (s : Fin 9) : Bool := s = 1 || s = 7 || s = 8

def meshRank (s : Fin 9) : ℕ := if meshRoot s then 0 else 1

def meshId (s : Fin 9) : ℕ := [8, 0, 2, 1, 6, 5, 4, 3, 7].getD s 0

lemma ready_mesh : Ready mesh where
  lid_injective a b h := Fin.ext (Nat.succ.inj h)
  lid_pos d := Nat.succ_pos _
  lid_le s d := d.isLt
  lid_lt d := by
    have hd := d.isLt
    change (d : ℕ) + 1 < 2 ^ 16
    omega

lemma subnRank_mesh : subnRank mesh (rootRank meshRoot) = some meshRank := by
  have h : (subnRank mesh (rootRank meshRoot)).map List.ofFn = some (List.ofFn meshRank) := by decide
  obtain ⟨rank, hrank, heq⟩ := Option.map_eq_some_iff.mp h
  rw [hrank, List.ofFn_inj.mp heq]

lemma mesh_rows : ∃ H', setMinHopTable mesh false meshRank meshId (fun _ _ => none) = some H' ∧
    [(8, 0), (8, 1), (3, 0), (3, 1), (2, 0), (2, 2), (1, 0)].map (fun x => getHopCount mesh H' x.1 1 x.2) =
      [5, 5, 3, 3, 2, 2, 1] := by
  have h : (bfsByNode mesh meshRank meshId ⟨clearHops fun _ _ => none, fun _ => .up, fun _ => false, []⟩ 0).map
      (fun b => [(8, 0), (8, 1), (3, 0), (3, 1), (2, 0), (2, 2), (1, 0)].map fun x =>
        getHopCount mesh b.hops x.1 1 x.2) =
      some [5, 5, 3, 3, 2, 2, 1] := by decide
  obtain ⟨b, H', hb, hH', hrow⟩ :
      ∃ b H', bfsByNode mesh meshRank meshId
          ⟨clearHops fun _ _ => none, fun _ => .up, fun _ => false, []⟩ 0 = some b ∧
        setMinHopTable mesh false meshRank meshId (fun _ _ => none) = some H' ∧ _ :=
    setMinHopTable_first ready_mesh fun _ _ => none
  rw [hb] at h
  refine ⟨H', hH', ?_⟩
  have hrow' : ∀ x : Fin 9 × ℕ, getHopCount mesh H' x.1 1 x.2 = getHopCount mesh b.hops x.1 1 x.2 :=
    fun x => hrow x.1 x.2
  simp only [hrow']
  exact Option.some.inj h

/-- At least so many steps are left to switch 0, going down only or going up first. -/
def meshFar (down : Bool) (s : Fin 9) : ℕ :=
  (if down then [0, 1, 4, 4, 1, 2, 3, 4, 5] else [0, 1, 2, 4, 1, 2, 3, 4, 5]).getD s 0

lemma meshFar_le {l : List (Fin 9)} {v : Fin 9} {a b : ℕ} (hchain : (v :: l).IsChain (Link mesh))
    (hlast : (v :: l).getLast (List.cons_ne_nil v l) = 0)
    (hdirs : dirs meshRank meshId (v :: l) = List.replicate a .up ++ List.replicate b .down) :
    meshFar (a = 0) v ≤ l.length := by
  have hup : ∀ c ∈ meshCables, stepDir meshRank meshId c.1.1 c.2.1 = .up →
      meshFar false c.1.1 ≤ meshFar false c.2.1 + 1 := by decide
  have hdown : ∀ c ∈ meshCables, stepDir meshRank meshId c.1.1 c.2.1 = .down →
      meshFar true c.1.1 ≤ meshFar true c.2.1 + 1 := by decide
  have hle : ∀ down v, meshFar false v ≤ meshFar down v := by decide
  have hmem : ∀ u r, Link mesh u r → ∃ p q, ((u, p), (r, q)) ∈ meshCables := by
    rintro u r ⟨-, p, q, hr⟩
    obtain ⟨y, hy, hx⟩ := meshRemote_some hr
    cases hx
    exact ⟨p, y.2, hy⟩
  induction l generalizing v a b with
  | nil =>
    obtain rfl : v = 0 := hlast
    cases a <;> exact Nat.zero_le _
  | cons r l ih =>
    obtain ⟨hlink, hchain⟩ := List.isChain_cons_cons.mp hchain
    obtain ⟨p, q, hc⟩ := hmem v r hlink
    rw [dirs_cons] at hdirs
    cases a with
    | zero =>
      cases b with
      | zero => cases hdirs
      | succ b =>
        rw [List.replicate_succ, List.replicate_zero, List.nil_append, List.cons.injEq] at hdirs
        have hr := @ih r 0 b hchain hlast hdirs.2
        exact (hdown _ hc hdirs.1).trans (Nat.succ_le_succ hr)
    | succ a =>
      rw [List.replicate_succ, List.cons_append, List.cons.injEq] at hdirs
      have hr := @ih r a b hchain hlast hdirs.2
      exact (hup _ hc hdirs.1).trans (Nat.succ_le_succ ((hle _ r).trans hr))

lemma legalDist_mesh : (4 : ℕ∞) ≤ legalDist mesh meshRank meshId 3 0 := by
  refine le_iInf₂ fun l hl => ?_
  obtain ⟨hchain, hlast, a, b, hdirs⟩ := hl
  have hle : ∀ down, 4 ≤ meshFar down 3 := by decide
  exact_mod_cast (hle _).trans (meshFar_le hchain hlast hdirs)

lemma meshId_injective : Function.Injective meshId := by
  have h : ∀ a b, meshId a = meshId b → a = b := by decide
  exact fun a b => h a b

lemma meshRoot_apart (s r : Fin 9) (h : Link mesh s r) : ¬(meshRoot s = true ∧ meshRoot r = true) := by
  obtain ⟨-, p, q, hr⟩ := h
  obtain ⟨y, hy, hx⟩ := meshRemote_some hr
  cases hx
  have hall : ∀ c ∈ meshCables, ¬(meshRoot c.1.1 = true ∧ meshRoot c.2.1 = true) := by decide
  exact hall _ hy

end Mesh

section Fork

def forkRoot (s : Fin 3) : Bool := (s : ℕ) == 0

/-- The root has the two leaves on its ports 1 and 2, and they have it on port 1. -/
def forkRemote (s : Fin 3) (p : ℕ) : Option (Remote 3 0) :=
  if forkRoot s then
    if p = 1 then some (.sw (Fin.last 1).castSucc 1) else if p = 2 then some (.sw (Fin.last 2) 1) else none
  else if p = 1 then some (.sw (Fin.last 0).castSucc.castSucc s) else none

lemma fork_ports_pos (_ : Fin 3) : 0 < 3 := three_pos

lemma fork_ports_le (_ : Fin 3) : 3 ≤ 255 := by decide

lemma fork_remote_port (s : Fin 3) (p : ℕ) (x : Remote 3 0) (h : forkRemote s p = some x) : 0 < p ∧ p < 3 := by
  rw [forkRemote] at h
  split_ifs at h <;> omega

lemma fork_remote_symm (s : Fin 3) (p : ℕ) (r : Fin 3) (q : ℕ) (h : forkRemote s p = some (.sw r q)) :
    forkRemote r q = some (.sw s p) := by
  rw [forkRemote] at h
  split_ifs at h with hs hp hp hp
  · cases h
    revert s
    rw [hp]
    decide
  · cases h
    revert s
    rw [hp]
    decide
  · cases h
    revert s
    rw [hp]
    decide

lemma fork_remote_ca (s : Fin 3) (p : ℕ) (e : Fin 0) :
    forkRemote s p = some (.ca e) ↔ (e.elim0 : Option (Fin 3 × ℕ)) = some (s, p) := e.elim0

def fork : Fabric 3 0 where
  numPorts _ := 3
  remote := forkRemote
  attach e := e.elim0
  lid s := s + 1
  maxLidHo _ := 3
  hopWf _ _ := 1
  healthy _ _ := true
  caHealthy _ := true
  numPorts_pos := fork_ports_pos
  numPorts_le := fork_ports_le
  remote_port := fork_remote_port
  remote_symm := fork_remote_symm
  remote_ca := fork_remote_ca

lemma ready_fork : Ready fork where
  lid_injective a b h := Fin.ext (Nat.succ.inj h)
  lid_pos d := Nat.succ_pos _
  lid_le s d := d.isLt
  lid_lt d := by
    have hd := d.isLt
    change (d : ℕ) + 1 < 2 ^ 16
    omega

def forkRank (s : Fin 3) : ℕ := min s 1

def forkId (s : Fin 3) : ℕ := s

lemma fork_step {u r : Fin 3} {p q : ℕ} (h : fork.remote u p = some (.sw r q)) :
    (u = 0 ↔ r ≠ 0) ∧ (stepDir forkRank forkId u r = .up ↔ r = 0) := by
  change forkRemote u p = _ at h
  rw [forkRemote] at h
  split_ifs at h with hu hp hp hp
  all_goals
    cases h
    revert u
    decide

lemma soon_fork : Soon fork forkRank forkId 1 := by
  rintro v ⟨y, hy⟩ ⟨p, r, q, hr, hup⟩ x hx
  have hv : v ≠ 0 := fun hv => ((fork_step hr).1.mp hv) ((fork_step hr).2.mp hup)
  have hleaf : v = 1 := by
    generalize hdir : SwitchDir.up = dir at hy
    cases hy with
    | nil => rfl
    | snoc h hr' _ => exact absurd ((fork_step hr').2.mp hdir.symm) hv
  subst hleaf
  refine ⟨[], .nil, List.length_pos_of_ne_nil ?_⟩
  rintro rfl
  generalize hword : ([] : List ℕ) = x at hx
  generalize hdir : SwitchDir.down = dir at hx
  cases hx with
  | nil => cases hdir
  | snoc h _ _ => cases List.append_ne_nil_of_right_ne_nil _ (List.cons_ne_nil _ _) hword.symm

lemma forkId_injective : Function.Injective forkId := fun _ _ h => Fin.ext h

lemma forkRoot_apart (s r : Fin 3) (h : Link fork s r) : ¬(forkRoot s = true ∧ forkRoot r = true) :=
  fun h0 => h.1 (Fin.ext ((eq_of_beq h0.1).trans (eq_of_beq h0.2).symm))

lemma subnRank_fork : subnRank fork (rootRank forkRoot) = some forkRank := by
  have h : (subnRank fork (rootRank forkRoot)).map List.ofFn = some (List.ofFn forkRank) := by decide
  obtain ⟨rank, hrank, heq⟩ := Option.map_eq_some_iff.mp h
  rw [hrank, List.ofFn_inj.mp heq]

lemma fork_route {H : Hops 3} (h : setMinHopTable fork false forkRank forkId (fun _ _ => none) = some H) :
    getLeastHops fork H 2 2 = 2 ∧ getHopCount fork H 2 2 1 = 2 ∧ getLeastHops fork H 0 2 = 1 ∧
      getHopCount fork H 0 2 1 = 1 := by
  have hall : (setMinHopTable fork false forkRank forkId (fun _ _ => none)).elim false (fun H =>
      decide (getLeastHops fork H 2 2 = 2 ∧ getHopCount fork H 2 2 1 = 2 ∧ getLeastHops fork H 0 2 = 1 ∧
        getHopCount fork H 0 2 1 = 1)) = true := by
    decide +kernel
  rw [h] at hall
  exact of_decide_eq_true hall

lemma fork_follows {H : Hops 3} (h : setMinHopTable fork false forkRank forkId (fun _ _ => none) = some H) :
    [(2 : Fin 3), 0, 1].IsChain (Follows fork H 1) := by
  obtain ⟨h20, h21, h00, h01⟩ := fork_route h
  refine .cons_cons ⟨?_, 1, 2, rfl, h21.trans h20.symm⟩
      (.cons_cons ⟨?_, 1, 1, rfl, h01.trans h00.symm⟩ (.singleton _))
  · change getLeastHops fork H 2 2 ≠ noPath
    rw [h20]
    decide
  · change getLeastHops fork H 0 2 ≠ noPath
    rw [h00]
    decide

end Fork

section Results

/-- The tables of UPDN route without loops to every destination whose search is timely. Every search ends, and
has no switch twice in its list at any time. -/
theorem least_hops_descend (hf : Ready f) (rank id : Fin n → ℕ) (H : Hops n) :
    (∃ H', setMinHopTable f false rank id H = some H' ∧ ∀ d, Timely f rank id d → Descends f H' d) ∧
    ∀ d b c, (∀ v, b.visited v = false) →
      Relation.ReflTransGen (fun c c' => bfsBody f rank id (f.lid d) c = some c') (start f b d) c →
      c.list.Nodup ∧ ∀ u rest k, c.list = u :: rest →
        (((DnUp.ports f u).take k).foldl (bfsPort f rank id (f.lid d) u (c.dir u)) (c.pop u rest)).list.Nodup := by
  constructor
  · obtain ⟨H', hH', hfound⟩ := setMinHopTable_spec hf rank id H
    exact ⟨H', hH', fun d hd => (hfound d hd).descends⟩
  · intro d b c hvis hc
    have honce : c.Once := by
      induction hc with
      | refl => exact once_start hvis
      | tail _ hstep ih => exact ih.body hstep
    exact ⟨honce.nodup, fun u rest k hl => ((honce.pop hl).ports _).2⟩

theorem least_hops_descend_fork : Ready fork ∧ Timely fork forkRank forkId 1 ∧
    ∃ H', setMinHopTable fork false forkRank forkId (fun _ _ => none) = some H' ∧
      [(2 : Fin 3), 0, 1].IsChain (Follows fork H' 1) ∧ Descends fork H' 1 := by
  obtain ⟨H', hH', hd⟩ := (least_hops_descend ready_fork forkRank forkId fun _ _ => none).1
  exact ⟨ready_fork, soon_fork.timely, H', hH', fork_follows hH', hd 1 soon_fork.timely⟩

/-- Port 1 of switch 8 has its least hop count, 5; the switch behind it is 3 hops away. -/
theorem mesh_does_not_descend : Ready mesh ∧ subnRank mesh (rootRank meshRoot) = some meshRank ∧
    ∃ H', setMinHopTable mesh false meshRank meshId (fun _ _ => none) = some H' ∧ ¬Descends mesh H' 0 := by
  obtain ⟨H', hH', hrow⟩ := mesh_rows
  refine ⟨ready_mesh, subnRank_mesh, H', hH', fun hd => ?_⟩
  simp only [List.map_cons, List.map_nil, List.cons.injEq] at hrow
  obtain ⟨h80, h81, h30, -⟩ := hrow
  have hne : getLeastHops mesh H' 8 1 ≠ noPath := by
    rw [getLeastHops, h80]
    decide
  obtain ⟨r, q, hr, hnext⟩ := hd 8 (by decide) hne 1 (by decide) (by decide) (h81.trans h80.symm)
  cases hr
  have h3 : getLeastHops mesh H' 3 (mesh.lid 0) = 3 := h30
  have h8 : getLeastHops mesh H' 8 (mesh.lid 0) = 5 := h80
  have h : (3 : ℕ) + 1 = 5 := h3 ▸ h8 ▸ hnext
  omega

/-- UPDN finds a shortest path that goes up and then down to every destination whose search is timely. -/
theorem least_hops_shortest (hf : Ready f) (root : Fin n → Bool) (hid : Function.Injective id)
    (hroots : ∀ s r, Link f s r → ¬(root s = true ∧ root r = true)) (H : Hops n) :
    ∃ rank H', subnRank f (rootRank root) = some rank ∧ setMinHopTable f false rank id H = some H' ∧
      ∀ d, Timely f rank id d → ∀ s,
        (getLeastHops f H' s (f.lid d) : ℕ∞) = min (noPath : ℕ∞) (legalDist f rank id s d) := by
  obtain ⟨rank, hrank, hzero⟩ := subnRank_spec f root
  obtain ⟨H', hH', hfound⟩ := setMinHopTable_spec hf rank id H
  refine ⟨rank, H', hrank, hH', fun d hd => (hfound d hd).least_eq hid (fun u r hur => ?_) hd⟩
  rw [hzero, hzero]
  exact hroots u r hur

theorem least_hops_shortest_fork : Ready fork ∧ Timely fork forkRank forkId 1 ∧
    ∃ H', setMinHopTable fork false forkRank forkId (fun _ _ => none) = some H' ∧
      getLeastHops fork H' 2 2 = 2 ∧
      ∀ s, (getLeastHops fork H' s 2 : ℕ∞) = min (noPath : ℕ∞) (legalDist fork forkRank forkId s 1) := by
  obtain ⟨rank, H', hrank, hH', hleast⟩ := least_hops_shortest ready_fork forkRoot forkId_injective
    forkRoot_apart fun _ _ => none
  obtain rfl : forkRank = rank := Option.some.inj (subnRank_fork.symm.trans hrank)
  exact ⟨ready_fork, soon_fork.timely, H', hH', (fork_route hH').1, hleast 1 soon_fork.timely⟩

/-- Switch 3 is left with 3 hops; no path of fewer than 4 goes up and then down. -/
theorem mesh_too_short : Ready mesh ∧ Function.Injective meshId ∧
    (∀ s r, Link mesh s r → ¬(meshRoot s = true ∧ meshRoot r = true)) ∧
    subnRank mesh (rootRank meshRoot) = some meshRank ∧
    ∃ H', setMinHopTable mesh false meshRank meshId (fun _ _ => none) = some H' ∧
      (getLeastHops mesh H' 3 (mesh.lid 0) : ℕ∞) ≠ min (noPath : ℕ∞) (legalDist mesh meshRank meshId 3 0) := by
  obtain ⟨H', hH', hrow⟩ := mesh_rows
  refine ⟨ready_mesh, meshId_injective, meshRoot_apart, subnRank_mesh, H', hH', ?_⟩
  simp only [List.map_cons, List.map_nil, List.cons.injEq] at hrow
  obtain ⟨-, -, h30, -⟩ := hrow
  have h3 : getLeastHops mesh H' 3 (mesh.lid 0) = 3 := h30
  rw [h3]
  have hlt : (3 : ℕ∞) < min (noPath : ℕ∞) (legalDist mesh meshRank meshId 3 0) :=
    lt_min (by decide) (lt_of_lt_of_le (by decide) legalDist_mesh)
  exact hlt.ne

/-- Routes of UPDN go up and then down where a switch is never reached as early by a step down as by steps up. -/
theorem routes_up_then_down (hf : Ready f) (root : Fin n → Bool) (hid : Function.Injective id)
    (hroots : ∀ s r, Link f s r → ¬(root s = true ∧ root r = true)) (H : Hops n) :
    ∃ rank H', subnRank f (rootRank root) = some rank ∧ setMinHopTable f false rank id H = some H' ∧
      ∀ d, Soon f rank id d → ∀ l, l.IsChain (Follows f H' d) → UpThenDown rank id l := by
  obtain ⟨rank, hrank, hzero⟩ := subnRank_spec f root
  obtain ⟨H', hH', hfound⟩ := setMinHopTable_spec hf rank id H
  refine ⟨rank, H', hrank, hH', fun d hd l hl => ?_⟩
  obtain ⟨a, b, hab, -⟩ := (hfound d hd.timely).upThenDown hid (fun u r hur => by
    rw [hzero, hzero]
    exact hroots u r hur) hd l hl
  exact ⟨a, b, hab⟩

theorem routes_up_then_down_fork : Ready fork ∧ Soon fork forkRank forkId 1 ∧
    ∃ H', setMinHopTable fork false forkRank forkId (fun _ _ => none) = some H' ∧
      [(2 : Fin 3), 0, 1].IsChain (Follows fork H' 1) ∧
      ∀ l, l.IsChain (Follows fork H' 1) → UpThenDown forkRank forkId l := by
  obtain ⟨rank, H', hrank, hH', hroutes⟩ := routes_up_then_down ready_fork forkRoot forkId_injective
    forkRoot_apart fun _ _ => none
  obtain rfl : forkRank = rank := Option.some.inj (subnRank_fork.symm.trans hrank)
  exact ⟨ready_fork, soon_fork, H', hH', fork_follows hH', hroutes 1 soon_fork⟩

/-- A packet for switch 0 goes from switch 3 down to switch 2 and up to switch 1. -/
theorem mesh_turns_up : Ready mesh ∧ Function.Injective meshId ∧
    (∀ s r, Link mesh s r → ¬(meshRoot s = true ∧ meshRoot r = true)) ∧
    subnRank mesh (rootRank meshRoot) = some meshRank ∧
    ∃ H', setMinHopTable mesh false meshRank meshId (fun _ _ => none) = some H' ∧
      [(3 : Fin 9), 2, 1].IsChain (Follows mesh H' 0) ∧ dirs meshRank meshId [3, 2, 1] = [.down, .up] := by
  obtain ⟨H', hH', hrow⟩ := mesh_rows
  simp only [List.map_cons, List.map_nil, List.cons.injEq] at hrow
  obtain ⟨-, -, h30, h31, h20, h22, -⟩ := hrow
  refine ⟨ready_mesh, meshId_injective, meshRoot_apart, subnRank_mesh, H', hH', ?_, by decide⟩
  have h32 : Follows mesh H' 0 3 2 := by
    refine ⟨?_, 1, 1, rfl, h31.trans h30.symm⟩
    change getHopCount mesh H' 3 1 0 ≠ noPath
    rw [h30]
    decide
  have h21 : Follows mesh H' 0 2 1 := by
    refine ⟨?_, 2, 2, rfl, h22.trans h20.symm⟩
    change getHopCount mesh H' 2 1 0 ≠ noPath
    rw [h20]
    decide
  exact .cons_cons h32 (.cons_cons h21 (.singleton _))

end Results

end OpenSM.UpDn
