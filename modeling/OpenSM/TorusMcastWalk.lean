import OpenSM.TorusMcast

/-! What one walk of the master spanning tree does: it takes the marks of the switches that it gets to, and sets
their entries and those on the way to them. -/

namespace OpenSM.Torus2QoS

open Lib

section Hops

variable (n : McastNet) (v : McastView n) (mlid : ℕ)

/-- `mcast_stree_branch` looks at the ports of a switch. -/
def McastView.Sound (c : Coord) : Prop := v.priv c = true ∧ v.supportsMcast c = true ∧ v.memory c = true

def HopAt (a : Coord) (g : ℕ) (e : Endpoint) (y : Coord) : Prop :=
  (∃ h, n.st.toTip a g = some (y, h)) ∧ n.pick mlid a g = some e ∧ v.current a e.port = true

def Up (y a : Coord) : Prop := v.Sound n a ∧ ∃ g e, HopAt n v mlid a g e y

def Walked (c x : Coord) : Prop := Relation.ReflTransGen (Up n v mlid) x c ∧ v.Sound n x

def Serves (tmp : Coord → ℕ → Bool) (c : Coord) : Prop :=
  ∃ x p, Walked n v mlid c x ∧ p ∈ n.hostPorts x ∧ tmp x p = true

/-- The entries for the branch at `c`: those of marked ports, and those at both ends of the links that lead to
them. -/
def Entry (tmp : Coord → ℕ → Bool) (c x : Coord) (p : ℕ) : Prop :=
  (Walked n v mlid c x ∧ p ∈ n.hostPorts x ∧ tmp x p = true) ∨
    ∃ a g e y, Walked n v mlid c a ∧ HopAt n v mlid a g e y ∧ Serves n v mlid tmp y ∧
      (x = a ∧ p = e.port ∨ x = y ∧ p = e.farPort)

end Hops

section Tree

variable {n : McastNet} {v : McastView n} {mlid : ℕ} {a b c x y : Coord} {g : ℕ} {e : Endpoint}

lemma HopAt.parent (h : HopAt n v mlid a g e y) : Parent n.st y a := by
  obtain ⟨⟨k, hk⟩, -⟩ := h
  exact ⟨k, g, (n.tree.mirror ..).mpr hk⟩

lemma Up.parent (h : Up n v mlid y a) : Parent n.st y a := by
  obtain ⟨-, g, e, hop⟩ := h
  exact hop.parent

lemma Parent.present (h : Parent n.st y a) : n.t.present y ∧ y ≠ n.r := by
  obtain ⟨g, k, hk⟩ := h
  obtain ⟨d, s, -, -, -, -, hne⟩ := n.tree.edge y g a k hk
  refine ⟨ptgrp_ne_nil hne, ?_⟩
  rintro rfl
  rw [n.tree.rooted.2.2] at hk
  cases hk

lemma Parent.present_parent (h : Parent n.st y a) : n.t.present a := by
  obtain ⟨g, k, hk⟩ := h
  obtain ⟨d, s, -, -, -, hne, -⟩ := n.tree.edge y g a k hk
  exact ptgrp_ne_nil hne

lemma parent_unique (ha : Parent n.st y a) (hb : Parent n.st y b) : a = b := by
  obtain ⟨hp, hr⟩ := Parent.present ha
  obtain ⟨g, h, hg⟩ := ha
  obtain ⟨g', h', hg'⟩ := hb
  have hgg : g = g' := (n.tree.parent y hp hr).unique (by rw [hg]; rfl) (by rw [hg']; rfl)
  rw [← hgg, hg] at hg'
  exact (Prod.mk.inj (Option.some.inj hg')).1

lemma HopAt.grp_unique {g' : ℕ} {e' : Endpoint} (h : HopAt n v mlid a g e y)
    (h' : HopAt n v mlid a g' e' y) : g = g' := by
  obtain ⟨hp, hr⟩ := Parent.present h.parent
  obtain ⟨⟨k, hk⟩, -⟩ := h
  obtain ⟨⟨k', hk'⟩, -⟩ := h'
  rw [← n.tree.mirror] at hk hk'
  have hkk : k = k' := (n.tree.parent y hp hr).unique (by rw [hk]; rfl) (by rw [hk']; rfl)
  rw [hkk, hk'] at hk
  exact (Prod.mk.inj (Option.some.inj hk)).2.symm

lemma HopAt.lt (h : HopAt n v mlid a g e y) : g < 6 := by
  obtain ⟨⟨k, hk⟩, -⟩ := h
  obtain ⟨d, s, -, rfl, -⟩ := n.tree.edge _ _ _ _ ((n.tree.mirror ..).mpr hk)
  exact grp_lt

lemma HopAt.unique {e' : Endpoint} {y' : Coord} (h : HopAt n v mlid a g e y) (h' : HopAt n v mlid a g e' y') :
    e = e' ∧ y = y' := by
  obtain ⟨⟨k, hk⟩, he, -⟩ := h
  obtain ⟨⟨k', hk'⟩, he', -⟩ := h'
  rw [hk] at hk'
  rw [he] at he'
  exact ⟨Option.some.inj he', (Prod.mk.inj (Option.some.inj hk')).1⟩

lemma Walked.path (h : Walked n v mlid c x) : Relation.ReflTransGen (Parent n.st) x c :=
  Relation.ReflTransGen.mono (fun _ _ => Up.parent) _ _ h.1

lemma walked_disjoint {g' : ℕ} {e' : Endpoint} {y' : Coord} (h : HopAt n v mlid a g e y)
    (h' : HopAt n v mlid a g' e' y') (hx : Walked n v mlid y x) (hx' : Walked n v mlid y' x) : g = g' := by
  have heq : y = y' := by
    have hcyc : ∀ b b', Parent n.st b a → Parent n.st b' a →
        Relation.ReflTransGen (Parent n.st) b b' → b = b' := by
      intro b b' hb hb' hbb
      rcases hbb.cases_head with heq | ⟨m, hm, hmb⟩
      · exact heq
      · obtain rfl := parent_unique hm hb
        exact absurd (Relation.TransGen.tail' hmb hb') (n.tree.acyclic _)
    have huniq : Relator.RightUnique (Parent n.st) := fun _ _ _ => parent_unique
    rcases Relation.ReflTransGen.total_of_right_unique huniq hx.path hx'.path with hyy | hyy
    · exact hcyc y y' h.parent h'.parent hyy
    · exact (hcyc y' y h'.parent h.parent hyy).symm
  subst heq
  exact h.grp_unique h'

lemma not_walked_above (h : HopAt n v mlid c g e y) : ¬Walked n v mlid y c := fun hw =>
  n.tree.acyclic c (Relation.TransGen.tail' hw.path h.parent)

lemma walked_iff : Walked n v mlid c x ↔
    v.Sound n c ∧ (x = c ∨ ∃ g e y, HopAt n v mlid c g e y ∧ Walked n v mlid y x) := by
  constructor
  · rintro ⟨hpath, hx⟩
    rcases hpath.cases_tail with rfl | ⟨y, hxy, hc, g, e, hop⟩
    · exact ⟨hx, .inl rfl⟩
    · exact ⟨hc, .inr ⟨g, e, y, hop, hxy, hx⟩⟩
  · rintro ⟨hc, rfl | ⟨g, e, y, hop, hxy, hx⟩⟩
    · exact ⟨.refl, hc⟩
    · exact ⟨hxy.tail ⟨hc, g, e, hop⟩, hx⟩

variable {tmp tmp' : Coord → ℕ → Bool}

lemma serves_iff : Serves n v mlid tmp c ↔
    v.Sound n c ∧ ((∃ p ∈ n.hostPorts c, tmp c p = true) ∨ ∃ g e y, HopAt n v mlid c g e y ∧
        Serves n v mlid tmp y) := by
  constructor
  · rintro ⟨x, p, hw, hp⟩
    obtain ⟨hc, rfl | ⟨g, e, y, hop, hy⟩⟩ := walked_iff.mp hw
    · exact ⟨hc, .inl ⟨p, hp⟩⟩
    · exact ⟨hc, .inr ⟨g, e, y, hop, x, p, hy, hp⟩⟩
  · rintro ⟨hc, ⟨p, hp⟩ | ⟨g, e, y, hop, x, p, hy, hp⟩⟩
    · exact ⟨c, p, walked_iff.mpr ⟨hc, .inl rfl⟩, hp⟩
    · exact ⟨x, p, walked_iff.mpr ⟨hc, .inr ⟨g, e, y, hop, hy⟩⟩, hp⟩

def Beyond (n : McastNet) (v : McastView n) (mlid : ℕ) (tmp : Coord → ℕ → Bool) (c : Coord) (g : ℕ)
    (x : Coord) (p : ℕ) :
    Prop :=
  ∃ e y, HopAt n v mlid c g e y ∧ (Entry n v mlid tmp y x p ∨
    Serves n v mlid tmp y ∧ (x = c ∧ p = e.port ∨ x = y ∧ p = e.farPort))

lemma entry_iff {p : ℕ} : Entry n v mlid tmp c x p ↔
    v.Sound n c ∧ ((x = c ∧ p ∈ n.hostPorts c ∧ tmp c p = true) ∨ ∃ g, Beyond n v mlid tmp c g x p) := by
  constructor
  · rintro (⟨hw, hp⟩ | ⟨a, g, e, y, hw, hop, hy, hxp⟩)
    · obtain ⟨hc, rfl | ⟨g, e, y, hop, hy⟩⟩ := walked_iff.mp hw
      · exact ⟨hc, .inl ⟨rfl, hp⟩⟩
      · exact ⟨hc, .inr ⟨g, e, y, hop, .inl (.inl ⟨hy, hp⟩)⟩⟩
    · obtain ⟨hc, rfl | ⟨g', e', y', hop', hy'⟩⟩ := walked_iff.mp hw
      · exact ⟨hc, .inr ⟨g, e, y, hop, .inr ⟨hy, hxp⟩⟩⟩
      · exact ⟨hc, .inr ⟨g', e', y', hop', .inl (.inr ⟨a, g, e, y, hy', hop, hy, hxp⟩)⟩⟩
  · rintro ⟨hc, ⟨rfl, hp⟩ | ⟨g, e, y, hop, (⟨hw, hp⟩ | ⟨a, g', e', y', hw, hop', hy, hxp⟩) | ⟨hy, hxp⟩⟩⟩
    · exact .inl ⟨walked_iff.mpr ⟨hc, .inl rfl⟩, hp⟩
    · exact .inl ⟨walked_iff.mpr ⟨hc, .inr ⟨g, e, y, hop, hw⟩⟩, hp⟩
    · exact .inr ⟨a, g', e', y', walked_iff.mpr ⟨hc, .inr ⟨g, e, y, hop, hw⟩⟩, hop', hy, hxp⟩
    · exact .inr ⟨c, g, e, y, walked_iff.mpr ⟨hc, .inl rfl⟩, hop, hy, hxp⟩

lemma serves_congr (h : ∀ x, Walked n v mlid c x → tmp x = tmp' x) :
    Serves n v mlid tmp c ↔ Serves n v mlid tmp' c := by
  constructor
  · rintro ⟨x, p, hw, hp, hm⟩
    exact ⟨x, p, hw, hp, by rwa [← h x hw]⟩
  · rintro ⟨x, p, hw, hp, hm⟩
    exact ⟨x, p, hw, hp, by rwa [h x hw]⟩

lemma HopAt.walked (h : HopAt n v mlid a g e y) (hc : Walked n v mlid c a) (hx : Walked n v mlid y x) :
    Walked n v mlid c x :=
  ⟨(hx.1.tail ⟨hc.2, g, e, h⟩).trans hc.1, hx.2⟩

lemma entry_congr {p : ℕ} (h : ∀ x, Walked n v mlid c x → tmp x = tmp' x) :
    Entry n v mlid tmp c x p ↔ Entry n v mlid tmp' c x p := by
  refine or_congr (and_congr_right fun hw => by rw [h x hw]) ?_
  refine exists_congr fun a => exists_congr fun g => exists_congr fun e => exists_congr fun y => ?_
  refine and_congr_right fun hw => and_congr_right fun hop => and_congr_left fun _ => ?_
  exact serves_congr fun z hz => h z (hop.walked hw hz)

end Tree

section Branch

variable {n : McastNet} {v : McastView n} {mlid : ℕ} {a c x y : Coord} {g : ℕ}

@[simp] lemma set_tmp (s : McastSt) (l : ℕ) (c : Coord) (p : ℕ) : (s.set l c p).tmp = s.tmp := rfl

@[simp] lemma mark_mft (s : McastSt) (b : Bool) (c : Coord) (p : ℕ) : (s.mark b c p).mft = s.mft := rfl

lemma set_mft (s : McastSt) (l : ℕ) (c : Coord) (p l' : ℕ) (x : Coord) (q : ℕ) :
    (s.set l c p).mft l' x q = true ↔ s.mft l' x q = true ∨ l' = l ∧ x = c ∧ q = p := by
  rw [McastSt.set, Bool.or_eq_true, decide_eq_true_eq, or_comm]

lemma mark_true (s : McastSt) (c x : Coord) (p q : ℕ) :
    (s.mark true c p).tmp x q = true ↔ s.tmp x q = true ∨ x = c ∧ q = p := by
  rw [McastSt.mark]
  dsimp only
  split_ifs with h <;> simp [h]

lemma mark_false (s : McastSt) (c x : Coord) (p q : ℕ) :
    (s.mark false c p).tmp x q = true ↔ s.tmp x q = true ∧ ¬(x = c ∧ q = p) := by
  rw [McastSt.mark]
  dsimp only
  split_ifs with h <;> simp [h]

lemma clear_mft (s : McastSt) (l l' : ℕ) (x : Coord) (q : ℕ) :
    (s.clear l).mft l' x q = true ↔ l' ≠ l ∧ s.mft l' x q = true := by
  rw [McastSt.clear, Bool.and_eq_true, decide_eq_true_eq]

/-- What `mcast_stree_branch` does at `c`. -/
structure Collects (n : McastNet) (v : McastView n) (mlid : ℕ) (c : Coord) (s : McastSt)
    (res : Option Mtree × McastSt) :
    Prop where
  result : res.1.isSome = true ↔ Serves n v mlid s.tmp c
  marks : ∀ x p, res.2.tmp x p = true ↔ s.tmp x p = true ∧ ¬(Walked n v mlid c x ∧ p ∈ n.hostPorts x)
  entries : ∀ l x p, res.2.mft l x p = true ↔ s.mft l x p = true ∨ l = mlid ∧ Entry n v mlid s.tmp c x p

structure Passed (n : McastNet) (v : McastView n) (mlid : ℕ) (c : Coord) (s : McastSt) (gs : List ℕ)
    (w : List (ℕ × Mtree) × McastSt) : Prop where
  children : w.1 ≠ [] ↔ ∃ g ∈ gs, ∃ e y, HopAt n v mlid c g e y ∧ Serves n v mlid s.tmp y
  marks : ∀ x p, w.2.tmp x p = true ↔ s.tmp x p = true ∧
    ¬∃ g ∈ gs, ∃ e y, HopAt n v mlid c g e y ∧ Walked n v mlid y x ∧ p ∈ n.hostPorts x
  entries : ∀ l x p, w.2.mft l x p = true ↔ s.mft l x p = true ∨ l = mlid ∧ ∃ g ∈ gs, Beyond n v mlid s.tmp c g x p

lemma mcastDownstream_none {branch : Coord → McastSt → Option Mtree × McastSt} {w : List (ℕ × Mtree) × McastSt}
    (h : ∀ e y, ¬HopAt n v mlid c g e y) : mcastDownstream n v mlid branch c w g = w := by
  rw [mcastDownstream]
  cases ht : n.st.toTip c g with
  | none => rfl
  | some q =>
    cases hp : n.pick mlid c g with
    | none => rfl
    | some e =>
      have hcur : v.current c e.port = false := by
        by_contra hc
        exact h e q.1 ⟨⟨q.2, ht⟩, hp, by simpa using hc⟩
      simp [hcur]

lemma mcastDownstream_hop {branch : Coord → McastSt → Option Mtree × McastSt} {w : List (ℕ × Mtree) × McastSt}
    {e : Endpoint} (h : HopAt n v mlid c g e y) : mcastDownstream n v mlid branch c w g =
      match (branch y w.2).1 with
      | none => (w.1, (branch y w.2).2)
      | some mtn => (w.1 ++ [(e.port, mtn)], ((branch y w.2).2.set mlid c e.port).set mlid y e.farPort) := by
  obtain ⟨⟨k, hk⟩, hp, hcur⟩ := h
  rw [mcastDownstream, hk, hp]
  dsimp only
  rw [hcur]
  rfl

lemma Passed.next {s : McastSt} {gs : List ℕ} {w : List (ℕ × Mtree) × McastSt} (hw : Passed n v mlid c s gs w)
    (hg : g ∉ gs) {branch : Coord → McastSt → Option Mtree × McastSt}
    (hb : ∀ e y s, HopAt n v mlid c g e y → Collects n v mlid y s (branch y s)) :
    Passed n v mlid c s (gs ++ [g]) (mcastDownstream n v mlid branch c w g) := by
  have hlast : ∀ {Q : ℕ → Prop}, (∃ g' ∈ gs ++ [g], Q g') ↔ (∃ g' ∈ gs, Q g') ∨
      Q g := by simp [or_and_right, exists_or]
  by_cases hhop : ∃ e y, HopAt n v mlid c g e y
  · obtain ⟨e, y, hop⟩ := hhop
    have hthe : ∀ {Q : Endpoint → Coord → Prop}, (∃ e' y', HopAt n v mlid c g e' y' ∧ Q e' y') ↔ Q e y := by
      intro Q
      constructor
      · rintro ⟨e', y', hop', hq⟩
        obtain ⟨rfl, rfl⟩ := hop.unique hop'
        exact hq
      · exact fun hq => ⟨e, y, hop, hq⟩
    -- the marks in this branch are still there
    have hsame : ∀ x, Walked n v mlid y x → w.2.tmp x = s.tmp x := by
      intro x hx
      funext p
      rw [Bool.eq_iff_iff, hw.marks]
      refine and_iff_left ?_
      rintro ⟨g', hg', e', y', hop', hx', -⟩
      exact hg (walked_disjoint hop hop' hx hx' ▸ hg')
    have hcol := hb e y w.2 hop
    have hres := hcol.result.trans (serves_congr hsame)
    have hent := fun l x p => (hcol.entries l x p).trans
      (or_congr (hw.entries l x p) (and_congr_right fun _ => entry_congr (p := p) hsame))
    rw [mcastDownstream_hop hop]
    cases hbr : (branch y w.2).1 with
    | none =>
      have hno : ¬Serves n v mlid s.tmp y := fun h => by simpa [hbr] using hres.mpr h
      constructor
      case children => rw [hlast, hthe, hw.children, or_iff_left hno]
      case marks =>
        intro x p
        rw [hcol.marks, hw.marks, hlast, hthe, not_or, and_assoc]
      case entries =>
        intro l x p
        rw [hent, hlast, Beyond, hthe, or_assoc, ← and_or_left]
        simp only [hno, false_and, or_false]
    | some mtn =>
      have hyes : Serves n v mlid s.tmp y := hres.mp (by rw [hbr]; rfl)
      constructor
      case children =>
        rw [hlast, hthe]
        exact iff_of_true (by simp) (.inr hyes)
      case marks =>
        intro x p
        rw [set_tmp, set_tmp, hcol.marks, hw.marks, hlast, hthe, not_or, and_assoc]
      case entries =>
        intro l x p
        rw [set_mft, set_mft, hent, hlast, Beyond, hthe]
        simp only [hyes, true_and, or_assoc, ← and_or_left]
  · have hno : ∀ {Q : Endpoint → Coord → Prop}, ¬∃ e y, HopAt n v mlid c g e y ∧ Q e y := by
      rintro Q ⟨e, y, hop, -⟩
      exact hhop ⟨e, y, hop⟩
    rw [mcastDownstream_none fun e y hop => hhop ⟨e, y, hop⟩]
    constructor
    case children => rw [hlast, or_iff_left hno, hw.children]
    case marks =>
      intro x p
      rw [hlast, or_iff_left hno, hw.marks]
    case entries =>
      intro l x p
      rw [hlast, Beyond, or_iff_left hno, hw.entries]

lemma passed_foldl {s : McastSt} {branch : Coord → McastSt → Option Mtree × McastSt}
    (hb : ∀ g e y s, HopAt n v mlid c g e y → Collects n v mlid y s (branch y s)) {gs : List ℕ} (hgs : gs.Nodup) :
    Passed n v mlid c s gs (gs.foldl (mcastDownstream n v mlid branch c) ([], s)) := by
  induction gs using List.reverseRecOn with
  | nil => exact ⟨by simp, by simp, by simp⟩
  | append_singleton gs g ih =>
    rw [List.foldl_append]
    rw [List.nodup_append] at hgs
    refine (ih hgs.1).next ?_ (hb g)
    intro hmem
    exact hgs.2.2 g hmem g (List.mem_singleton_self g) rfl

/-- The loop over the host ports. -/
lemma foldl_mcastHostPort {ps : List ℕ} {w w' : List (ℕ × Mtree) × McastSt}
    (h : ps.foldl (mcastHostPort mlid c) w = w') :
    (w'.1 ≠ [] ↔ w.1 ≠ [] ∨ ∃ p ∈ ps, w.2.tmp c p = true) ∧
    (∀ x p, w'.2.tmp x p = true ↔ w.2.tmp x p = true ∧ ¬(x = c ∧ p ∈ ps)) ∧
    ∀ l x p, w'.2.mft l x p = true ↔ w.2.mft l x p = true ∨ l = mlid ∧ x = c ∧ p ∈ ps ∧ w.2.tmp c p = true := by
  induction ps generalizing w with
  | nil =>
    obtain rfl : w = w' := h
    simp
  | cons p ps ih =>
    obtain ⟨hchild, hmarks, hentries⟩ := ih h
    rw [mcastHostPort] at hchild hmarks hentries
    by_cases hp : w.2.tmp c p = true
    · rw [if_pos hp] at hchild hmarks hentries
      refine ⟨?_, ?_, ?_⟩
      · rw [hchild]
        exact iff_of_true (.inl (by simp)) (.inr ⟨p, List.mem_cons_self, hp⟩)
      · intro x q
        rw [hmarks, set_tmp, mark_false, List.mem_cons]
        tauto
      · intro l x q
        rw [hentries, set_mft, mark_mft, set_tmp, mark_false, List.mem_cons]
        constructor
        · rintro ((hold | ⟨hl, rfl, rfl⟩) | ⟨hl, rfl, hq, hm, -⟩)
          · exact .inl hold
          · exact .inr ⟨hl, rfl, .inl rfl, hp⟩
          · exact .inr ⟨hl, rfl, .inr hq, hm⟩
        · rintro (hold | ⟨hl, rfl, hq, hm⟩)
          · exact .inl (.inl hold)
          · by_cases hqp : q = p
            · exact .inl (.inr ⟨hl, rfl, hqp⟩)
            · exact .inr ⟨hl, rfl, hq.resolve_left hqp, hm, fun hn => hqp hn.2⟩
    · rw [if_neg hp] at hchild hmarks hentries
      have hnot : ∀ {q}, w.2.tmp c q = true → q ≠ p := by
        rintro q hq rfl
        exact hp hq
      refine ⟨?_, ?_, ?_⟩
      · rw [hchild]
        refine or_congr_right ⟨?_, ?_⟩
        · rintro ⟨q, hq, hm⟩
          exact ⟨q, List.mem_cons_of_mem p hq, hm⟩
        · rintro ⟨q, hq, hm⟩
          exact ⟨q, (List.mem_cons.mp hq).resolve_left (hnot hm), hm⟩
      · intro x q
        rw [hmarks, List.mem_cons]
        refine and_congr_right fun hm => not_congr (and_congr_right ?_)
        rintro rfl
        exact (or_iff_right (hnot hm)).symm
      · intro l x q
        rw [hentries, List.mem_cons]
        refine or_congr_right (and_congr_right fun _ => and_congr_right fun _ => and_congr_left fun hm => ?_)
        exact (or_iff_right (hnot hm)).symm

/-- The two loops at a switch. -/
lemma Passed.collects {s : McastSt} {w w' : List (ℕ × Mtree) × McastSt}
    (hpass : Passed n v mlid c s (List.range 6) w)
    (hsound : v.Sound n c) (hw : (n.hostPorts c).foldl (mcastHostPort mlid c) w = w') :
    Collects n v mlid c s (if w'.1.isEmpty then none else some (.node c w'.1), w'.2) := by
  have hrange : ∀ {Q : ℕ → Endpoint → Coord → Prop},
      (∃ g ∈ List.range 6, ∃ e y, HopAt n v mlid c g e y ∧ Q g e y) ↔
      ∃ g e y, HopAt n v mlid c g e y ∧ Q g e y := by
    intro Q
    constructor
    · rintro ⟨g, -, h⟩
      exact ⟨g, h⟩
    · rintro ⟨g, e, y, hop, hq⟩
      exact ⟨g, List.mem_range.mpr hop.lt, e, y, hop, hq⟩
  have hown : ∀ p, w.2.tmp c p = s.tmp c p := by
    intro p
    rw [Bool.eq_iff_iff, hpass.marks]
    refine and_iff_left ?_
    rintro ⟨g, -, e, y, hop, hw, -⟩
    exact not_walked_above hop hw
  obtain ⟨hchild, hmarks, hentries⟩ := foldl_mcastHostPort hw
  constructor
  case result =>
    have hne : (if w'.1.isEmpty then none else some (Mtree.node c w'.1)).isSome = true ↔ w'.1 ≠ [] := by
      cases w'.1 <;> simp
    rw [hne, hchild, hpass.children, hrange, serves_iff, and_iff_right hsound, or_comm]
    simp only [hown]
  case marks =>
    intro x p
    rw [hmarks, hpass.marks, hrange, and_assoc, ← not_or, walked_iff, and_iff_right hsound]
    refine and_congr_right fun _ => not_congr ?_
    constructor
    · rintro (⟨g, e, y, hop, hw, hp⟩ | ⟨rfl, hp⟩)
      · exact ⟨.inr ⟨g, e, y, hop, hw⟩, hp⟩
      · exact ⟨.inl rfl, hp⟩
    · rintro ⟨rfl | ⟨g, e, y, hop, hw⟩, hp⟩
      · exact .inr ⟨rfl, hp⟩
      · exact .inl ⟨g, e, y, hop, hw, hp⟩
  case entries =>
    intro l x p
    rw [hentries, hpass.entries, or_assoc, ← and_or_left, hown, entry_iff, and_iff_right hsound]
    simp only [Beyond, hrange]
    rw [or_comm (a := ∃ _, _)]

lemma mcastStreeBranch_unsound (h : ¬v.Sound n c) (fuel : ℕ) (s : McastSt) :
    mcastStreeBranch n v mlid fuel c s = (none, s) := by
  rw [McastView.Sound, not_and_or, not_and_or] at h
  cases fuel with
  | zero => rfl
  | succ fuel =>
    rw [mcastStreeBranch]
    rcases h with h | h | h <;> simp [h]

/-- A walk of a branch, with fuel for all switches that are not above it. -/
lemma collects {fuel : ℕ} {above : List Coord} (hnodup : above.Nodup)
    (habove : ∀ b ∈ above, Relation.TransGen (Parent n.st) c b) (hpresent : ∀ b ∈ above, n.t.present b)
    (hc : n.t.present c) (hfuel : n.t.coords.length ≤ fuel + above.length) (s : McastSt) :
    Collects n v mlid c s (mcastStreeBranch n v mlid fuel c s) := by
  induction fuel generalizing c above s with
  | zero =>
    have hcons : (c :: above).Nodup := List.nodup_cons.mpr ⟨fun h => n.tree.acyclic c (habove c h), hnodup⟩
    have hsub : c :: above ⊆ n.t.coords := by
      intro b hb
      refine mem_coords.mpr (present_lt ?_)
      rcases List.mem_cons.mp hb with rfl | hb
      · exact hc
      · exact hpresent b hb
    have hle := (hcons.subperm hsub).length_le
    rw [List.length_cons] at hle
    omega
  | succ fuel ih =>
    by_cases hsound : v.Sound n c
    · have hbelow : ∀ g e y s, HopAt n v mlid c g e y →
          Collects n v mlid y s (mcastStreeBranch n v mlid fuel y s) := by
        intro g e y s hop
        have hpar := hop.parent
        have hcons : (c :: above).Nodup := List.nodup_cons.mpr ⟨fun h => n.tree.acyclic c (habove c h), hnodup⟩
        refine ih hcons ?_ ?_ (Parent.present hpar).1 ?_ s
        · intro b hb
          rcases List.mem_cons.mp hb with rfl | hb
          · exact .single hpar
          · exact .head hpar (habove b hb)
        · intro b hb
          rcases List.mem_cons.mp hb with rfl | hb
          · exact hc
          · exact hpresent b hb
        · rw [List.length_cons]
          omega
      have hpass := passed_foldl (s := s) hbelow (List.nodup_range (n := 6))
      have hcol := hpass.collects hsound rfl
      obtain ⟨hpriv, hsup, hmem⟩ := hsound
      rw [mcastStreeBranch, hpriv, hsup, hmem]
      exact hcol
    · have hno : ∀ x, ¬Walked n v mlid c x := fun x hw => hsound (walked_iff.mp hw).1
      rw [mcastStreeBranch_unsound hsound]
      constructor
      case result => exact iff_of_false (by simp) fun h => hsound (serves_iff.mp h).1
      case marks => exact fun x p => (and_iff_left fun h => hno x h.1).symm
      case entries => exact fun l x p => (or_iff_left fun h => hsound (entry_iff.mp h.2).1).symm

end Branch

end OpenSM.Torus2QoS
