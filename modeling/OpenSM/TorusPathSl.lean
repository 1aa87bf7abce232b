import OpenSM.TorusFabric
import OpenSM.TorusRoute

/-! The SL that torus-2QoS grants for a path, against the datelines that the route crosses. -/

namespace OpenSM.Torus2QoS

open Lib

section Sl

def useVl1 (src dst count : ℕ) : Bool :=
  let len := getPathlen src dst count
  if len.1 ≤ len.2 then false else true

def torusMaxDim : ℕ := 3

def slSetUseLoopVl (useLoopVl : Bool) (coordDir : ℕ) : ℕ :=
    if coordDir < torusMaxDim then useLoopVl.toNat <<< coordDir else 0

def slSetQos (qos : ℕ) : ℕ := (if qos ≠ 0 then 1 else 0) <<< torusMaxDim

def slGetQos (sl : ℕ) : ℕ := (sl >>> torusMaxDim) &&& 1

/-- The endpoint of an `osm_port`. -/
structure PortEnd where
  type : EndptType
  /-- `link->end[0].sw`, if there is a link -/
  linkSw : Option Coord
  sw : Coord

def PortEnd.tsw (e : PortEnd) : Coord := e.linkSw.getD e.sw

/-- `portByLid` finds the endpoint of the port that has a LID, if the port is in the torus. -/
def torusPathSl (t : Torus) (portByLid : ℕ → Option PortEnd) (pathSlHint slid dlid : ℕ) : ℕ :=
  match portByLid slid, portByLid dlid with
  | some sport, some dport =>
    if sport.type ≠ .srcsink then 0
    else if dport.type ≠ .srcsink then 0
    else
      let ssw := sport.tsw
      let dsw := dport.tsw
      slSetUseLoopVl (useVl1 (ssw .x) (dsw .x) (t.sz .x)) 0 ||| slSetUseLoopVl
          (useVl1 (ssw .y) (dsw .y) (t.sz .y)) 1 |||
        slSetUseLoopVl (useVl1 (ssw .z) (dsw .z) (t.sz .z)) 2 ||| slSetQos (slGetQos pathSlHint)
  | _, _ => 0

lemma slGetQos_eq (hint : ℕ) : slGetQos hint = (hint.testBit 3).toNat := by
  rw [slGetQos, Nat.toNat_testBit, Nat.shiftRight_eq_div_pow, Nat.and_one_is_mod]
  rfl

lemma testBit_sl (x y z qos : Bool) :
    let sl := slSetUseLoopVl x 0 ||| slSetUseLoopVl y 1 ||| slSetUseLoopVl z 2 ||| slSetQos qos.toNat
    sl.testBit 0 = x ∧ sl.testBit 1 = y ∧ sl.testBit 2 = z ∧ sl.testBit 3 = qos := by
  cases x
  all_goals
    cases y
    all_goals
      cases z
      all_goals
        cases qos
        all_goals decide

variable {t : Torus} {portByLid : ℕ → Option PortEnd} {hint slid dlid : ℕ} {sport dport : PortEnd}

lemma testBit_torusPathSl (hs : portByLid slid = some sport) (hd : portByLid dlid = some dport)
    (hst : sport.type = .srcsink)
    (hdt : dport.type = .srcsink) :
    (∀ d : Dim, (torusPathSl t portByLid hint slid dlid).testBit d.idx =
        useVl1 (sport.tsw d) (dport.tsw d) (t.sz d)) ∧
      (torusPathSl t portByLid hint slid dlid).testBit 3 = hint.testBit 3 := by
  obtain ⟨hx, hy, hz, hq⟩ := testBit_sl (useVl1 (sport.tsw .x) (dport.tsw .x) (t.sz .x))
    (useVl1 (sport.tsw .y) (dport.tsw .y) (t.sz .y)) (useVl1 (sport.tsw .z) (dport.tsw .z) (t.sz .z))
        (hint.testBit 3)
  rw [torusPathSl, hs, hd]
  dsimp only
  rw [if_neg (not_not.mpr hst), if_neg (not_not.mpr hdt), slGetQos_eq]
  refine ⟨fun d => ?_, hq⟩
  cases d with
  | x => exact hx
  | y => exact hy
  | z => exact hz

end Sl

section Hops

variable {t : Torus} {c dsw : Coord} {path : List Coord} {d : Dim} {s : Bool}

def hops (c : Coord) (path : List Coord) : List (Coord × Coord) := (c :: path).zip path

/-- The direction of the hops on the way: the shorter one, in a mesh the only one. -/
def dirAt (t : Torus) (c dsw : Coord) (d : Dim) : Bool :=
  if t.mesh d = true ∧ t.sz d ≠ 2 then decide (c d < dsw d) else GapRing.short (t.sz d) (c d) (dsw d)

lemma Pristine.link_iff (hp : Pristine t) (hc : ∀ d, c d < t.sz d) (hsz : 2 < t.sz d) {p : ℕ} (hlt : p < t.sz d) :
    t.link c d p ↔ (t.mesh d = true → p + 1 < t.sz d) := by
  have hrange : ∀ e, Function.update c d p e < t.sz e := by
    intro e
    by_cases he : e = d
    · rw [he, Function.update_self]
      exact hlt
    · rw [Function.update_of_ne he]
      exact hc e
  have hiff := (hp _ hrange).2 d hsz
  rwa [Function.update_self] at hiff

lemma adj_dirAt (hp : Pristine t) (hc : ∀ d, c d < t.sz d) (hd : ∀ d, dsw d < t.sz d) (hne : c d ≠ dsw d)
    (hs : GapRing.Chosen (t.sz d) (t.link c d) s (c d) (dsw d)) :
    GapRing.adj (t.sz d) s (c d) = GapRing.adj (t.sz d) (dirAt t c dsw d) (c d) := by
  have hcd := hc d
  have hdd := hd d
  by_cases htwo : t.sz d = 2
  · rw [htwo] at hcd ⊢
    exact GapRing.adj_two hcd _ _
  · have hsz : 2 < t.sz d := by omega
    have hdir : s = dirAt t c dsw d := by
      rw [dirAt]
      by_cases hm : t.mesh d = true
      · have hline : ∀ p < t.sz d, t.link c d p ↔ p + 1 < t.sz d :=
          fun p hlt => (hp.link_iff hc hsz hlt).trans ⟨fun h => h hm, fun h _ => h⟩
        have hopen := (GapRing.open_line hline hcd hdd).mp hs.1
        rw [if_pos ⟨hm, htwo⟩]
        cases s with
        | true => exact (decide_eq_true (lt_of_le_of_ne hopen hne)).symm
        | false => exact (decide_eq_false (not_lt.mpr hopen)).symm
      · have hring : ∀ p < t.sz d, t.link c d p := fun p hlt => (hp.link_iff hc hsz hlt).mpr fun h => absurd h hm
        rw [if_neg fun h => hm h.1]
        exact (hs.2.resolve_right fun h => h (GapRing.open_ring hring hcd hdd)).symm
    rw [hdir]

lemma dirAt_step (hc : ∀ d, c d < t.sz d) (hd : ∀ d, dsw d < t.sz d) (hne : c d ≠ dsw d)
    (hne' : t.step c d (dirAt t c dsw d) d ≠ dsw d) :
    dirAt t (t.step c d (dirAt t c dsw d)) dsw d = dirAt t c dsw d := by
  have hcd := hc d
  have hdd := hd d
  rw [step_apply] at hne'
  by_cases hm : t.mesh d = true ∧ t.sz d ≠ 2
  · have hdir : dirAt t c dsw d = decide (c d < dsw d) := if_pos hm
    rw [hdir] at hne' ⊢
    rw [dirAt, if_pos hm, step_apply]
    by_cases hlt : c d < dsw d
    · rw [decide_eq_true hlt] at hne' ⊢
      apply decide_eq_true
      rw [GapRing.adj, if_pos rfl, GapRing.succ] at hne' ⊢
      split_ifs at hne' ⊢ <;> omega
    · rw [decide_eq_false hlt] at hne' ⊢
      apply decide_eq_false
      rw [GapRing.adj, if_neg Bool.false_ne_true, GapRing.pred] at hne' ⊢
      split_ifs at hne' ⊢ <;> omega
  · have hdir : dirAt t c dsw d = GapRing.short (t.sz d) (c d) (dsw d) := if_neg hm
    rw [hdir] at hne' ⊢
    rw [dirAt, if_neg hm, step_apply]
    exact GapRing.short_adj hcd hdd hne rfl hne'

lemma pristine_hop (hl : Linked t) (hr : routableTorus t = true) (hp : Pristine t) (hc : ∀ d, c d < t.sz d)
    (hd : ∀ d, dsw d < t.sz d) (hne : c ≠ dsw) :
    ∃ d s, c d ≠ dsw d ∧ Hop t c dsw d s ∧ GapRing.Chosen (t.sz d) (t.link c d) s (c d) (dsw d) := by
  have hpc := (hp c hc).1
  have hpd := (hp dsw hd).1
  by_cases hx : c .x = dsw .x
  · by_cases hy : c .y = dsw .y
    · have hz : c .z ≠ dsw .z := by
        intro hz
        refine hne (funext fun d => ?_)
        cases d with
        | x => exact hx
        | y => exact hy
        | z => exact hz
      obtain ⟨s, hs, hhop⟩ := hop_z hl hr hpc hpd hx hy hz
      exact ⟨.z, s, hz, hhop, hs⟩
    · obtain ⟨s, hs, hhop⟩ := hop_y hl hr hpc hpd hx (hp _ (turn_lt hc hd .y)).1 hy
      exact ⟨.y, s, hy, hhop, hs⟩
  · obtain ⟨s, hs, hhop⟩ := hop_x hl hr hpc hpd (hp _ (turn_lt hc hd .x)).1 hx
    exact ⟨.x, s, hx, hhop, hs⟩

lemma not_follows_self (hd : t.present dsw) (c' : Coord) : ¬Follows t dsw dsw c' := by
  rintro ⟨cnt, updatePortCnt, ca, e, he, -⟩
  have hnone : lftGrp t dsw dsw = none := by
    have hpath : ringDirPath t .z dsw dsw = 0 := by
      rw [ringDirPath, ringDirIdx, if_pos rfl]
      rfl
    have hturn : turn dsw dsw .z = dsw := turn_of_eq rfl
    rw [lftGrp, if_neg (not_not.mpr rfl), if_neg (not_not.mpr rfl), nextHopZ, nextHopPath, hturn, if_pos hd, hpath]
    rfl
  rw [lftPort, hnone] at he
  cases he

lemma dirAt_congr {c' : Coord} (h : c' d = c d) : dirAt t c' dsw d = dirAt t c dsw d := by
  rw [dirAt, dirAt, h]

/-- In each dimension the hops of a route go one way until it is done, and cross the seam as that way does. -/
lemma route_hops (hl : Linked t) (hr : routableTorus t = true) (hp : Pristine t) (hc : ∀ d, c d < t.sz d)
    (hd : ∀ d, dsw d < t.sz d) (hchain : (c :: path).IsChain (Follows t dsw))
    (hlast : (c :: path).getLast (List.cons_ne_nil c path) = dsw) (d : Dim) :
    (c d = dsw d → ∀ h ∈ hops c path, h.1 d = h.2 d) ∧
      (∀ h ∈ hops c path, h.1 d ≠ h.2 d →
        h.1 d ≠ dsw d ∧ dirAt t h.1 dsw d = dirAt t c dsw d ∧
            h.2 d = GapRing.adj (t.sz d) (dirAt t c dsw d) (h.1 d)) ∧
      (hops c path).countP (fun h => GapRing.Seam (t.sz d) (h.1 d) (h.2 d)) =
        GapRing.seams (t.sz d) (dirAt t c dsw d) (c d) (dsw d) := by
  induction path generalizing c with
  | nil =>
    have heq : c = dsw := hlast
    subst heq
    exact ⟨fun _ h hh => absurd hh List.not_mem_nil, fun h hh => absurd hh List.not_mem_nil,
        GapRing.seams_self.symm⟩
  | cons c' path ih =>
    obtain ⟨hfollow, hrest⟩ := List.isChain_cons_cons.mp hchain
    have hne : c ≠ dsw := fun heq => not_follows_self (hp dsw hd).1 c' (heq ▸ hfollow)
    obtain ⟨e, s, hed, hhop, hchosen⟩ := pristine_hop hl hr hp hc hd hne
    have hstep : c' = t.step c e (dirAt t c dsw e) := by
      rw [(hhop.follows_iff hl c').mp hfollow, Torus.step, Torus.step, adj_dirAt hp hc hd hed hchosen]
    have hc' : ∀ d, c' d < t.sz d := by
      intro d
      rw [hstep]
      by_cases hde : d = e
      · rw [hde, step_apply]
        exact GapRing.adj_lt (hc e)
      · rw [step_of_ne hde]
        exact hc d
    obtain ⟨hdone, hdir, hcount⟩ := ih hc' hrest (by rwa [List.getLast_cons_cons] at hlast)
    have hhops : hops c (c' :: path) = (c, c') :: hops c' path := rfl
    rw [hhops, List.countP_cons, hcount]
    by_cases hde : d = e
    · subst hde
      have happ : c' d = GapRing.adj (t.sz d) (dirAt t c dsw d) (c d) := by rw [hstep, step_apply]
      have hkeep : c' d ≠ dsw d → dirAt t c' dsw d = dirAt t c dsw d := by
        intro hne'
        rw [hstep] at hne' ⊢
        exact dirAt_step hc hd hed hne'
      refine ⟨fun h => absurd h hed, fun h hh hmove => ?_, ?_⟩
      · rcases List.mem_cons.mp hh with rfl | hh
        · exact ⟨hed, rfl, happ⟩
        · rw [← hkeep fun heq => hmove (hdone heq h hh)]
          exact hdir h hh hmove
      · rw [GapRing.seams_adj (hc d) (hd d) hed, ← happ, add_comm]
        have hseams : GapRing.seams (t.sz d) (dirAt t c' dsw d) (c' d) (dsw d) =
            GapRing.seams (t.sz d) (dirAt t c dsw d) (c' d) (dsw d) := by
          by_cases heq : c' d = dsw d
          · rw [heq, GapRing.seams_self, GapRing.seams_self]
          · rw [hkeep heq]
        rw [hseams]
        simp only [decide_eq_true_eq]
    · have happ : c' d = c d := by rw [hstep, step_of_ne hde]
      rw [dirAt_congr happ] at hdir ⊢
      refine ⟨fun h g hg => ?_, fun h hh hmove => ?_, ?_⟩
      · rcases List.mem_cons.mp hg with rfl | hg
        · exact happ.symm
        · exact hdone (happ.trans h) g hg
      · rcases List.mem_cons.mp hh with rfl | hh
        · exact absurd happ.symm hmove
        · exact hdir h hh hmove
      · rw [happ, if_neg, add_zero]
        simp only [GapRing.Seam, happ, ne_eq, not_true_eq_false, false_and, decide_false, Bool.false_eq_true,
            not_false_eq_true]

end Hops

section Datelines

variable {t : Torus} {c dsw : Coord} {d : Dim}

/-- What the bits of an SL say about the hops of a route. A dimension of radix two is a mesh, and a mesh has no
link across the dateline: there the bit says whether a ring of that radix would have been crossed. -/
structure NamesDatelines (t : Torus) (sl : ℕ) (sw dsw : Coord) (hs : List (Coord × Coord)) : Prop where
  torus : ∀ d, t.mesh d = false → t.sz d ≠ 2 →
    (sl.testBit d.idx = true ↔ ∃ h ∈ hs, GapRing.Seam (t.sz d) (h.1 d) (h.2 d))
  two : ∀ d, t.sz d = 2 → sl.testBit d.idx = false
  mesh : ∀ d, t.mesh d = true → t.sz d ≠ 2 →
    (sl.testBit d.idx = true ↔ t.sz d < 2 * Nat.dist (sw d) (dsw d)) ∧
      ∀ h ∈ hs, ¬GapRing.Seam (t.sz d) (h.1 d) (h.2 d)
  once : ∀ d, hs.countP (fun h => GapRing.Seam (t.sz d) (h.1 d) (h.2 d)) ≤ 1
  oneWay : ∀ d, ∃ s, ∀ h ∈ hs, h.1 d ≠ h.2 d → h.2 d = GapRing.adj (t.sz d) s (h.1 d)
  sameIdx : ∀ d, t.mesh d = false ∨ t.sz d = 2 → ∀ h ∈ hs, h.1 d ≠ h.2 d →
    ringDirIdx (h.1 d) (dsw d) (t.sz d) = ringDirIdx (sw d) (dsw d) (t.sz d)

lemma seams_short {n a b : ℕ} (hb : b < n) (hn : n ≠ 2) :
    0 < GapRing.seams n (GapRing.short n a b) a b ↔ useVl1 a b n = true := by
  by_cases hab : a = b
  · subst hab
    rw [GapRing.seams_self, useVl1, getPathlen]
    simp
  · rw [GapRing.seams, if_neg hab, if_neg hn, useVl1, getPathlen, GapRing.short]
    by_cases hlt : a < b
    · have hngt : ¬b < a := not_lt.mpr hlt.le
      simp only [if_pos hlt, hngt]
      by_cases hlen : b - a ≤ a + n - b
      · simp [hlen]
      · simp [hlen]
    · have hgt : b < a := by omega
      simp only [if_neg hlt, hgt]
      by_cases hlen : a - b ≤ b + n - a
      · simp [hlen]
      · simp [hlen]

lemma useVl1_iff {n a b : ℕ} (ha : a < n) (hb : b < n) : useVl1 a b n = true ↔ n < 2 * Nat.dist a b := by
  rw [useVl1, getPathlen, Nat.dist]
  dsimp only
  split_ifs <;> simp <;> omega

lemma useVl1_two {a b : ℕ} (ha : a < 2) (hb : b < 2) : useVl1 a b 2 = false := by
  interval_cases a
  · interval_cases b <;> rfl
  · interval_cases b <;> rfl

lemma dirAt_short (h : t.mesh d = false ∨ t.sz d = 2) : dirAt t c dsw d = GapRing.short (t.sz d)
    (c d) (dsw d) := by
  apply if_neg
  rintro ⟨hm, htwo⟩
  rcases h with h | h
  · rw [h] at hm
    cases hm
  · exact htwo h

variable {portByLid : ℕ → Option PortEnd} {hint slid dlid : ℕ} {sport dport : PortEnd}

/-- The SL that is granted for two end ports of a torus without anything missing. -/
theorem path_sl_names_datelines (hl : Linked t) (hr : routableTorus t = true) (hp : Pristine t)
    (hs : portByLid slid = some sport) (hd : portByLid dlid = some dport) (hst : sport.type = .srcsink)
    (hdt : dport.type = .srcsink) (hsp : t.present sport.tsw) (hdp : t.present dport.tsw) :
    let sl := torusPathSl t portByLid hint slid dlid
    sl.testBit 3 = hint.testBit 3 ∧
      ∃ path, (sport.tsw :: path).IsChain (Follows t dport.tsw) ∧
        (sport.tsw :: path).getLast (List.cons_ne_nil sport.tsw path) = dport.tsw ∧
        (∀ c ∈ sport.tsw :: path, c ≠ dport.tsw → ∃! c', Follows t dport.tsw c c') ∧
        NamesDatelines t sl sport.tsw dport.tsw (hops sport.tsw path) := by
  obtain ⟨hbit, hqos⟩ := @testBit_torusPathSl t portByLid hint slid dlid sport dport hs hd hst hdt
  obtain ⟨path, hchain, hlast, -, hunique, -⟩ := exists_route hl hr hsp hdp
  have hroute := route_hops hl hr hp (present_lt hsp) (present_lt hdp) hchain hlast
  refine ⟨hqos, path, hchain, hlast, hunique, fun d hm htwo => ?_, fun d htwo => ?_,
    fun d hm htwo => ?_, fun d => ?_, fun d => ⟨_, fun h hh hmove => ((hroute d).2.1 h hh hmove).2.2⟩,
    fun d hring h hh hmove => ?_⟩
  · have hcount := (hroute d).2.2
    rw [dirAt_short (.inl hm)] at hcount
    rw [hbit, ← seams_short (present_lt hdp d) htwo, ← hcount, List.countP_pos_iff]
    simp only [decide_eq_true_eq]
  · have hsd := present_lt hsp d
    have hdd := present_lt hdp d
    rw [htwo] at hsd hdd
    rw [hbit, htwo]
    exact useVl1_two hsd hdd
  · have hcount := (hroute d).2.2
    have hzero : GapRing.seams (t.sz d) (dirAt t sport.tsw dport.tsw d) (sport.tsw d) (dport.tsw d) = 0 := by
      rw [dirAt, if_pos ⟨hm, htwo⟩, GapRing.seams, if_neg htwo]
      split_ifs with heq hlt hgt hlt'
      · rfl
      · exact absurd (of_decide_eq_true hlt) hgt.not_gt
      · rfl
      · exact absurd hlt' (of_decide_eq_false (Bool.eq_false_of_not_eq_true hlt))
      · rfl
    rw [hzero, List.countP_eq_zero] at hcount
    refine ⟨?_, fun h hh hseam => hcount h hh (decide_eq_true hseam)⟩
    rw [hbit]
    exact useVl1_iff (present_lt hsp d) (present_lt hdp d)
  · rw [(hroute d).2.2]
    exact GapRing.seams_le_one
  · obtain ⟨hne, hdir, -⟩ := (hroute d).2.1 h hh hmove
    have hne' : sport.tsw d ≠ dport.tsw d := fun heq => hmove ((hroute d).1 heq h hh)
    rw [ringDirIdx_eq hne, ringDirIdx_eq hne', ← dirAt_short hring, ← dirAt_short hring, hdir]

end Datelines

section Grid

variable {sz : Dim → ℕ} {mesh : Dim → Bool} {c : Coord}

lemma gridSw_all : gridSw sz (fun _ => false) c = true ↔ ∀ d, c d < sz d := by
  rw [gridSw, Bool.not_false, Bool.and_true, decide_eq_true_eq]

lemma grid_present (h : ∀ d, c d < sz d) : (grid sz mesh fun _ => false).present c := by
  change (if gridSw sz (fun _ => false) c then _ else _ : Option TSwitch).isSome = true
  rw [if_pos (gridSw_all.mpr h)]
  rfl

lemma grid_pristine : Pristine (grid sz mesh fun _ => false) := by
  intro c hc
  refine ⟨grid_present hc, fun d hsz => ?_⟩
  have hsw : gridSw sz (fun _ => false) c = true := gridSw_all.mpr hc
  have hnext : gridSw sz (fun _ => false) (Function.update c d (GapRing.succ (sz d) (c d))) = true := by
    refine gridSw_all.mpr fun e => ?_
    by_cases he : e = d
    · rw [he, Function.update_self]
      exact GapRing.adj_lt (s := true) (hc d)
    · rw [Function.update_of_ne he]
      exact hc e
  have hlt : c d < sz d := hc d
  rw [grid_pos, gridLinked, hsw, hnext]
  change _ ↔ (mesh d = true → c d + 1 < sz d)
  cases hm : mesh d with
  | false => simp
  | true =>
    by_cases hend : c d + 1 = sz d
    · simp [hend]
    · simp only [Bool.true_and, hend, decide_false, Bool.not_false, if_true, ne_eq, List.cons_ne_nil,
        not_false_eq_true, true_iff]
      intro _
      omega

def twoPorts (a b : Coord) (lid : ℕ) : Option PortEnd :=
  if lid = 1 then some ⟨.srcsink, some a, a⟩ else if lid = 2 then some ⟨.srcsink, none, b⟩ else none

theorem path_sl_names_datelines_grid :
    let t := grid (coord 3 3 1) (fun d => decide (d = .z)) fun _ => false
    let sl := torusPathSl t (twoPorts (coord 0 1 0) (coord 2 2 0)) 8 1 2
    sl.testBit 3 = Nat.testBit 8 3 ∧
      ∃ path, (coord 0 1 0 :: path).IsChain (Follows t (coord 2 2 0)) ∧
        (coord 0 1 0 :: path).getLast (List.cons_ne_nil _ path) = coord 2 2 0 ∧
        (∀ c ∈ coord 0 1 0 :: path, c ≠ coord 2 2 0 → ∃! c', Follows t (coord 2 2 0) c c') ∧
        NamesDatelines t sl (coord 0 1 0) (coord 2 2 0) (hops (coord 0 1 0) path) := by
  have hroutable : routableTorus (grid (coord 3 3 1) (fun d => decide (d = .z)) fun _ => false) = true := by
    decide +kernel
  have hlt : ∀ d, coord 0 1 0 d < coord 3 3 1 d ∧ coord 2 2 0 d < coord 3 3 1 d := by
    intro d
    cases d <;> decide
  exact @path_sl_names_datelines _ (twoPorts (coord 0 1 0) (coord 2 2 0)) 8 1 2
    ⟨.srcsink, some (coord 0 1 0), coord 0 1 0⟩ ⟨.srcsink, none, coord 2 2 0⟩ grid_linked hroutable
    grid_pristine rfl rfl rfl rfl (grid_present fun d => (hlt d).1) (grid_present fun d => (hlt d).2)

def line (n : ℕ) : Torus := grid (coord n 1 1) (fun _ => true) fun _ => false

lemma line_follows : ((List.range 5).map fun i => coord i 0 0).IsChain (Follows (line 5) (coord 4 0 0)) := by
  have hstep : ∀ i < 4, Follows (line 5) (coord 4 0 0) (coord i 0 0) (coord (i + 1) 0 0) := by
    intro i hi
    have hport : (lftPort (line 5) ⟨fun _ _ => 0, fun _ _ => 0⟩ (coord i 0 0) (coord 4 0 0) false false).1 =
        some ⟨gridLink (coord 5 1 1) (coord i 0 0) .x, false⟩ := by
      interval_cases i <;> rfl
    refine ⟨_, _, _, _, hport, funext fun d => ?_⟩
    interval_cases i <;> cases d <;> rfl
  exact .cons_cons (hstep 0 (by decide)) (.cons_cons (hstep 1 (by decide)) (.cons_cons (hstep 2 (by decide))
    (.cons_cons (hstep 3 (by decide)) (.singleton _))))

/-- With radix two the only hop is between the last coordinate and the first, and the bit is not set. In a mesh
of radix five no hop is between them, and the bit is set. -/
theorem datelines_not_named :
    (routableTorus (line 2) = true ∧ Linked (line 2) ∧ Pristine (line 2) ∧
      [coord 0 0 0, coord 1 0 0].IsChain (Follows (line 2) (coord 1 0 0)) ∧
      (∃ h ∈ hops (coord 0 0 0) [coord 1 0 0], GapRing.Seam ((line 2).sz .x) (h.1 .x) (h.2 .x)) ∧
      (torusPathSl (line 2) (twoPorts (coord 0 0 0) (coord 1 0 0)) 0 1 2).testBit 0 = false) ∧
    routableTorus (line 5) = true ∧ Linked (line 5) ∧ Pristine (line 5) ∧
      ((List.range 5).map fun i => coord i 0 0).IsChain (Follows (line 5) (coord 4 0 0)) ∧
      (∀ h ∈ hops (coord 0 0 0) ((List.range' 1 4).map fun i => coord i 0 0),
        ¬GapRing.Seam ((line 5).sz .x) (h.1 .x) (h.2 .x)) ∧
      (torusPathSl (line 5) (twoPorts (coord 0 0 0) (coord 4 0 0)) 0 1 2).testBit 0 = true := by
  have hport : (lftPort (line 2) ⟨fun _ _ => 0, fun _ _ => 0⟩ (coord 0 0 0) (coord 1 0 0) false false).1 =
      some ⟨gridLink (coord 2 1 1) (coord 0 0 0) .x, false⟩ := rfl
  constructor
  · refine ⟨by decide +kernel, grid_linked, grid_pristine, ?_,
      ⟨(coord 0 0 0, coord 1 0 0), List.mem_singleton_self _, ?_⟩, ?_⟩
    · refine List.isChain_pair.mpr ⟨_, _, _, _, hport, ?_⟩
      funext d
      cases d <;> rfl
    · decide
    · decide
  · exact ⟨by decide +kernel, grid_linked, grid_pristine, line_follows, by decide, by decide⟩

end Grid

end OpenSM.Torus2QoS
