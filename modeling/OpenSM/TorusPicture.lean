import OpenSM.TorusSearch

/-! A torus that has been built is a picture of the fabric. -/

namespace OpenSM.Torus2QoS

open Lib

section Spec

variable (g : Setup) (s : BuildSt)

def portOf : TEp → Option ℕ
  | .mgmt _ p => some p
  | .lend k b => (s.links[k]?).map fun lk => (if b then lk.2 else lk.1).port

/-- Link `k` is the cable `l` of the fabric, between the switches at `c` and `c'` and on the same ports of
these. -/
def Real (k : ℕ) (c c' : Coord) : Prop :=
  ∃ lk f f' l b, s.links[k]? = some lk ∧ lk.1.sw = some c ∧ lk.2.sw = some c' ∧ s.sw c = some f ∧
      s.sw c' = some f' ∧
    g.fabric.port f lk.1.port = some (.lend l b) ∧ g.fabric.port f' lk.2.port = some (.lend l !b)

/-- Link `k` of the torus starts with the port of a switch where link `l` of the fabric is. -/
def Installs (k l : ℕ) : Prop :=
  ∃ lk c f b, s.links[k]? = some lk ∧ lk.1.sw = some c ∧ s.sw c = some f ∧
    g.fabric.port f lk.1.port = some (.lend l b)

structure Picture : Prop where
  inRange : ∀ c f, s.sw c = some f → (∀ d, c d < g.sz d) ∧ f < g.fabric.swCnt
  distinct : ∀ c c' f, s.sw c = some f → s.sw c' = some f → c = c'
  up : ∀ c d e, e ∈ s.ptgrp c d.pos → ∃ k, e = .lend k false ∧ .lend k true ∈ s.ptgrp (along g c d 1) d.neg ∧
    Real g s k c (along g c d 1)
  down : ∀ c d e, e ∈ s.ptgrp c d.neg → ∃ k, e = .lend k true ∧ .lend k false ∈ s.ptgrp (along g c d (-1)) d.pos ∧
    Real g s k (along g c d (-1)) c
  oneGroup : ∀ c i i' e e', e ∈ s.ptgrp c i → e' ∈ s.ptgrp c i' → portOf s e = portOf s e' → e = e' ∧ i = i'
  nodup : ∀ c i, (s.ptgrp c i).Nodup
  installed : ∀ k k' l, Installs g s k l → Installs g s k' l → k = k'
  size : ∀ c i, (s.ptgrp c i).length ≤ g.portgrpSz
  mgmt : ∀ c f p o, s.sw c = some f → g.fabric.port f p = some (.mgmt o) →
    .mgmt f p ∈ s.ptgrp c 6 ∧ s.portPriv o = some (.mgmt f p)
  ca : ∀ c f p l b, s.sw c = some f → g.fabric.port f p = some (.lend l b) → (g.fabric.ends l !b).type = .srcsink →
    ∃ k lk o, .lend k false ∈ s.ptgrp c 6 ∧ s.links[k]? = some lk ∧ lk.1.port = p ∧ lk.2.osmPort = some o ∧
      (g.fabric.ends l !b).osmPort = some o ∧ s.portPriv o = some (.lend k true)

end Spec

section Hosts

variable {g : Setup} {s s' : BuildSt} {srcs srcs' : List (ℕ × Bool)} {c : Coord} {f p : ℕ}

def Cleared (g : Setup) (s : BuildSt) (f p : ℕ) : Prop :=
  (∀ o, g.fabric.port f p = some (.mgmt o) → s.moved f p = true) ∧
    ∀ l b, g.fabric.port f p = some (.lend l b) → (g.fabric.ends l !b).type = .srcsink → s.gone l = true

lemma Cleared.mono (h : Cleared g s f p) (hi : Inv g s srcs) (hi' : Inv g s' srcs')
    (hx : Extends s srcs s' srcs') :
    Cleared g s' f p := by
  refine ⟨fun o ho => hx.moved f p (h.1 o ho), fun l b hl ht => ?_⟩
  have hgone := h.2 l b hl ht
  rw [hi.gone, List.mem_map] at hgone
  obtain ⟨x, hmem, rfl⟩ := hgone
  rw [hi'.gone]
  exact List.mem_map_of_mem (hx.srcs.subset hmem)

lemma Inv.room (hi : Inv g s srcs) {l : ℕ} (hl : l < g.fabric.linkCnt) (hgone : s.gone l = false) :
    s.links.length < g.fabric.linkCnt := by
  have hcons : (l :: srcs.map Prod.fst).Nodup := List.nodup_cons.mpr ⟨hi.notMem hgone, hi.nodup⟩
  have hsub : l :: srcs.map Prod.fst ⊆ List.range g.fabric.linkCnt := by
    intro l' hl'
    rcases List.mem_cons.mp hl' with rfl | hl'
    · exact List.mem_range.mpr hl
    · obtain ⟨x, hx, rfl⟩ := List.mem_map.mp hl'
      exact List.mem_range.mpr (hi.lt x hx)
  have hle := (hcons.subperm hsub).length_le
  rw [List.length_cons, List.length_map, List.length_range, ← hi.len] at hle
  exact hle

lemma not_srcsink_of_sw {l : ℕ} {b : Bool} (h : (g.fabric.ends l b).sw = some f) :
    (g.fabric.ends l b).type ≠ .srcsink := by
  intro ht
  have hpass := (g.fabric.passthru l b).mpr (by rw [h]; rfl)
  rw [ht] at hpass
  cases hpass

lemma srcsinkPort_spec (hi : Inv g s srcs) (hsw : s.sw c = some f) :
    Grows g s srcs (srcsinkPort g s c f p).2 ∧ (srcsinkPort g s c f p).2.sw = s.sw ∧
      (srcsinkPort g s c f p).2.fosm = s.fosm ∧
          ((srcsinkPort g s c f p).1 = true → Cleared g (srcsinkPort g s c f p).2 f p) := by
  rw [srcsinkPort]
  cases hp : fswPort g s f p with
  | none =>
    refine ⟨.refl hi, rfl, rfl, fun _ => ⟨fun o ho => ?_, fun l b hl _ => ?_⟩⟩
    · rw [fswPort, ho] at hp
      dsimp only at hp
      split_ifs at hp with hm
      exact hm
    · rw [fswPort, hl] at hp
      dsimp only at hp
      split_ifs at hp with hm
      exact hm
  | some e =>
    cases e with
    | mgmt o =>
      obtain ⟨hport, hmoved⟩ := fswPort_mgmt hp
      dsimp only
      split_ifs with hfull
      · exact ⟨.refl hi, rfl, rfl, fun h => by cases h⟩
      · obtain ⟨hi', hx, hdone⟩ := mgmt_inv hi hsw hport hmoved hfull rfl
        refine ⟨⟨srcs, hi', hx⟩, rfl, rfl, fun _ => ⟨fun _ _ => hdone, fun l b hl => ?_⟩⟩
        rw [hport] at hl
        cases hl
    | lend l b =>
      obtain ⟨hport, hgone⟩ := fswPort_lend hp
      obtain ⟨hl, hsw', hpt⟩ := g.fabric.port_lend f p l b hport
      have hsame : ∀ {b'}, endSw g s l b' = some f ↔ (g.fabric.ends l b').sw = some f := by
        intro b'
        rw [endSw, hgone, if_neg Bool.false_ne_true]
      have hclear : ∀ s' : BuildSt, ((g.fabric.ends l !b).type = .srcsink → s'.gone l = true) →
          Cleared g s' f p := by
        refine fun s' h => ⟨fun o ho => ?_, fun l' b' hl' => ?_⟩
        · rw [hport] at ho
          cases ho
        · rw [hport] at hl'
          obtain ⟨rfl, rfl⟩ := FEp.lend.inj (Option.some.inj hl')
          exact h
      dsimp only
      generalize hb : (!decide (endSw g s l false = some f)) = b'
      have hb' : (g.fabric.ends l b').sw = some f := by
        cases b' with
        | false =>
          rw [← hsame]
          simpa using hb
        | true =>
          cases b with
          | false => simp [hsame, hsw'] at hb
          | true => exact hsw'
      split_ifs with hno htype hfull ho hpool
      · refine absurd hno ?_
        cases b' with
        | false => simp
        | true => simp [hsame, hb']
      · refine ⟨.refl hi, rfl, rfl, fun _ => hclear s fun hfar => ?_⟩
        by_cases hbb : b' = b
        · exact absurd (hbb ▸ hfar) htype
        · obtain rfl : b' = !b := by
            cases b <;> cases b' <;> simp_all
          exact absurd hfar (not_srcsink_of_sw hb')
      · exact ⟨.refl hi, rfl, rfl, fun h => by cases h⟩
      · exact ⟨.refl hi, rfl, rfl, fun h => by cases h⟩
      · exact absurd hpool (hi.room hl hgone).not_ge
      · rw [not_not] at htype
        obtain ⟨o, ho⟩ := Option.ne_none_iff_exists'.mp ho
        rw [ho]
        obtain ⟨hi', hx, hdone⟩ := ca_inv (p := (g.fabric.ends l b').port) hi hsw hl hgone hb' htype
            ho hfull rfl rfl
        exact ⟨⟨_, hi', hx⟩, rfl, rfl, fun _ => hclear _ fun _ => hdone⟩

lemma srcsinkPorts_spec (ps : List ℕ) (hi : Inv g s srcs) (hsw : s.sw c = some f) :
    ∃ srcs', Inv g (srcsinkPorts g c f ps s).2 srcs' ∧ Extends s srcs (srcsinkPorts g c f ps s).2 srcs' ∧
      (srcsinkPorts g c f ps s).2.sw = s.sw ∧ (srcsinkPorts g c f ps s).2.fosm = s.fosm ∧
      ((srcsinkPorts g c f ps s).1 = true → ∀ p ∈ ps, Cleared g (srcsinkPorts g c f ps s).2 f p) := by
  induction ps generalizing s srcs with
  | nil => exact ⟨srcs, hi, .refl, rfl, rfl, fun _ p hp => by cases hp⟩
  | cons p ps ih =>
    obtain ⟨⟨srcs₁, hi₁, hx₁⟩, hsw₁, hfosm₁, hdone₁⟩ := srcsinkPort_spec (p := p) hi hsw
    rw [srcsinkPorts]
    split_ifs with hok
    · obtain ⟨srcs₂, hi₂, hx₂, hsw₂, hfosm₂, hdone₂⟩ := ih hi₁ (hsw₁ ▸ hsw)
      refine ⟨srcs₂, hi₂, hx₁.trans hx₂, hsw₂.trans hsw₁, hfosm₂.trans hfosm₁, fun hall q hq => ?_⟩
      rcases List.mem_cons.mp hq with rfl | hq
      · exact (hdone₁ hok).mono hi₁ hi₂ hx₂
      · exact hdone₂ hall q hq
    · exact ⟨srcs₁, hi₁, hx₁, hsw₁, hfosm₁, fun h => absurd h hok⟩

/-- A switch gives up its `osm_switch` and its hosts. -/
lemma linkSrcsink_spec (hi : Inv g s srcs) :
    ∃ srcs', Inv g (linkSrcsink g s c).2 srcs' ∧ Extends s srcs (linkSrcsink g s c).2 srcs' ∧
      (linkSrcsink g s c).2.sw = s.sw ∧ (∀ f, s.fosm f = none → (linkSrcsink g s c).2.fosm f = none) ∧
      ((linkSrcsink g s c).1 = true → ∀ f, s.sw c = some f →
        s.fosm f ≠ none ∧ (linkSrcsink g s c).2.fosm f = none ∧ ∀ p, Cleared g (linkSrcsink g s c).2 f p) := by
  rw [linkSrcsink]
  cases hsw : s.sw c with
  | none => exact ⟨srcs, hi, .refl, rfl, fun _ => id, fun _ f hf => by cases hf⟩
  | some f =>
    cases hf : s.fosm f with
    | none =>
      dsimp only
      rw [hf]
      exact ⟨srcs, hi, .refl, rfl, fun _ => id, fun h => by cases h⟩
    | some o =>
      dsimp only
      rw [hf]
      dsimp only
      generalize hs₁ : ({ s with
        osmSwitch := Function.update s.osmSwitch c (some o)
        swPriv := Function.update s.swPriv o (some c)
        fosm := Function.update s.fosm f none } : BuildSt) = s₁
      have hkeep : ∀ f', s.fosm f' = none → s₁.fosm f' = none := by
        intro f' h
        rw [← hs₁]
        dsimp only
        rw [Function.update_of_ne, h]
        rintro rfl
        rw [hf] at h
        cases h
      have hself : s₁.fosm f = none := by
        rw [← hs₁]
        exact Function.update_self ..
      have hframe : Inv g s₁ srcs ∧ Extends s srcs s₁ srcs := by
        rw [← hs₁]
        refine hi.frame (fun _ _ => id) rfl rfl rfl rfl rfl hi.inRange ?_ ?_
        · intro c' o' h
          by_cases hc : c' = c
          · exact ⟨f, hc ▸ hsw, Function.update_self ..⟩
          · dsimp only at h
            rw [Function.update_of_ne hc] at h
            obtain ⟨f', hf', hn⟩ := hi.claimed c' o' h
            refine ⟨f', hf', ?_⟩
            have hk := hkeep f' hn
            rwa [← hs₁] at hk
        · intro o' c' h
          dsimp only at h ⊢
          by_cases ho : o' = o
          · rw [ho, Function.update_self] at h
            rw [← Option.some.inj h, Function.update_self, ho]
          · rw [Function.update_of_ne ho] at h
            have hback := hi.back o' c' h
            rw [Function.update_of_ne, hback]
            rintro rfl
            obtain ⟨f', hf', hn⟩ := hi.claimed c' o' hback
            rw [hsw] at hf'
            rw [← Option.some.inj hf', hf] at hn
            cases hn
      have hsw₁ : s₁.sw = s.sw := by rw [← hs₁]
      obtain ⟨srcs₂, hi₂, hx₂, hsw₂, hfosm₂, hdone₂⟩ :=
        srcsinkPorts_spec (List.range (g.fabric.portCnt f)) hframe.1 (hsw₁ ▸ hsw : s₁.sw c = some f)
      refine ⟨srcs₂, hi₂, hframe.2.trans hx₂, hsw₂.trans hsw₁, fun f' h => ?_, fun hok f' hf' => ?_⟩
      · rw [hfosm₂]
        exact hkeep f' h
      · obtain rfl := Option.some.inj hf'
        refine ⟨by rw [hf]; simp, by rw [hfosm₂, hself], fun p => ?_⟩
        by_cases hp : p < g.fabric.portCnt f
        · exact hdone₂ hok p (List.mem_range.mpr hp)
        · have hnone : g.fabric.port f p = none := by
            by_contra hne
            exact hp (g.fabric.port_lt f p (Option.isSome_iff_ne_none.mpr hne)).2
          refine ⟨fun o ho => ?_, fun l b hl => ?_⟩
          · rw [hnone] at ho
            cases ho
          · rw [hnone] at hl
            cases hl

lemma linkSrcsinks_spec (cs : List Coord) (hi : Inv g s srcs) (hok : (linkSrcsinks g cs s).1 = true) :
    ∃ srcs', Inv g (linkSrcsinks g cs s).2 srcs' ∧ Extends s srcs (linkSrcsinks g cs s).2 srcs' ∧
      (linkSrcsinks g cs s).2.sw = s.sw ∧ cs.Pairwise (fun c c' => ∀ f, s.sw c = some f → s.sw c' ≠ some f) ∧
      ∀ c ∈ cs, ∀ f, s.sw c = some f → s.fosm f ≠ none ∧ ∀ p, Cleared g (linkSrcsinks g cs s).2 f p := by
  induction cs generalizing s srcs with
  | nil => exact ⟨srcs, hi, .refl, rfl, .nil, fun c hc => by cases hc⟩
  | cons c cs ih =>
    obtain ⟨srcs₁, hi₁, hx₁, hsw₁, hkeep₁, hdone₁⟩ := linkSrcsink_spec (c := c) hi
    rw [linkSrcsinks] at hok ⊢
    split_ifs at hok ⊢ with hone
    · obtain ⟨srcs₂, hi₂, hx₂, hsw₂, hpair₂, hdone₂⟩ := ih hi₁ hok
      rw [hsw₁] at hpair₂ hdone₂
      refine ⟨srcs₂, hi₂, hx₁.trans hx₂, hsw₂.trans hsw₁,
        List.pairwise_cons.mpr ⟨fun c' hc' f hf hf' => ?_, hpair₂⟩, fun c' hc' f hf => ?_⟩
      · exact (hdone₂ c' hc' f hf').1 (hdone₁ hone f hf).2.1
      · rcases List.mem_cons.mp hc' with rfl | hc'
        · obtain ⟨hfosm, -, hclear⟩ := hdone₁ hone f hf
          exact ⟨hfosm, fun p => (hclear p).mono hi₁ hi₂ hx₂⟩
        · obtain ⟨hfosm, hclear⟩ := hdone₂ c' hc' f hf
          exact ⟨fun h => hfosm (hkeep₁ f h), hclear⟩
    · exact absurd hok hone

end Hosts

section Result

variable {g : Setup} {s : BuildSt} {srcs : List (ℕ × Bool)} {c : Coord} {d : Dim} {i k l : ℕ} {b : Bool} {e : TEp}

lemma canonicalize_succ {a n : ℕ} (h : a < n) : canonicalize (a + 1) n = GapRing.succ n a := by
  rw [GapRing.succ]
  split_ifs with hn
  · have hcast : (a : ℤ) + 1 = n := by exact_mod_cast hn
    rw [hcast, canonicalize, if_neg (by omega), if_neg (by omega)]
    dsimp only
    rw [Int.tmod_self, Int.toNat_zero]
  · rw [← Nat.cast_succ, canonicalize_of_lt (by omega)]

lemma canonicalize_pred {a n : ℕ} (h : a < n) : canonicalize (a + -1) n = GapRing.pred n a := by
  rw [GapRing.pred]
  split_ifs with ha
  · subst ha
    have hneg : ((0 : ℕ) : ℤ) + -1 = -1 := rfl
    rw [hneg, canonicalize, if_neg (by omega), if_pos (by omega)]
    by_cases h1 : n = 1
    · subst h1
      decide
    · have hdiv : (-1 : ℤ).tdiv n = 0 := by
        rw [Int.neg_tdiv, Int.tdiv_eq_zero_of_lt (by omega) (by omega), neg_zero]
      rw [hdiv]
      dsimp only
      rw [Int.tmod_eq_of_lt (by omega) (by omega)]
      omega
  · have hpos : (a : ℤ) + -1 = ((a - 1 : ℕ) : ℤ) := by omega
    rw [hpos, canonicalize_of_lt (by omega)]

lemma along_pred (hc : c d < g.sz d) : along g (along g c d 1) d (-1) = c := by
  have hlt : GapRing.succ (g.sz d) (c d) < g.sz d := by
    rw [← canonicalize_succ hc]
    exact canonicalize_lt (by omega)
  rw [along, along, Function.update_self, canonicalize_succ hc, canonicalize_pred hlt, GapRing.pred_succ,
    Function.update_idem, Function.update_eq_self]

lemma pos_inj {d' : Dim} (h : d.pos = d'.pos) : d = d' := (grp_inj (show d.grp true = d'.grp true from h)).1

lemma neg_inj {d' : Dim} (h : d.neg = d'.neg) : d = d' := (grp_inj (show d.grp false = d'.grp false from h)).1

lemma pos_ne_six : d.pos ≠ 6 := (grp_lt (d := d) (s := true)).ne

lemma neg_ne_six : d.neg ≠ 6 := (grp_lt (d := d) (s := false)).ne

lemma pos_ne_neg' {d' : Dim} : d.pos ≠ d'.neg := by
  rw [Dim.pos, Dim.neg]
  omega

lemma Inv.src_lt (hi : Inv g s srcs) (h : srcs[k]? = some (l, b)) : l < g.fabric.linkCnt :=
  hi.lt _ (List.mem_of_getElem? h)

lemma Inv.src_inj (hi : Inv g s srcs) {k' : ℕ} {b' : Bool} (h : srcs[k]? = some (l, b))
    (h' : srcs[k']? = some (l, b')) :
    k = k' := by
  have hk : (srcs.map Prod.fst)[k]? = some l := by rw [List.getElem?_map, h]; rfl
  have hk' : (srcs.map Prod.fst)[k']? = some l := by rw [List.getElem?_map, h']; rfl
  exact (List.getElem?_inj (List.getElem?_eq_some_iff.mp hk).1 hi.nodup).mp (hk.trans hk'.symm)

lemma Inv.origin (hi : Inv g s srcs) (he : e ∈ s.ptgrp c i) : ∃ f p, s.sw c = some f ∧ portOf s e = some p ∧
    ((∃ k l b x lk, e = .lend k x ∧ srcs[k]? = some (l, b) ∧ g.fabric.port f p = some (.lend l (b ^^ x)) ∧
        s.links[k]? = some lk ∧ (if x then lk.2 else lk.1).pgrp = some (c, i)) ∨
      e = .mgmt f p ∧ i = 6 ∧ ∃ o, g.fabric.port f p = some (.mgmt o)) := by
  rcases hi.seats c i e he with ⟨k, d, c₀, l, b, hlaid, ⟨rfl, rfl, rfl⟩ | ⟨rfl, rfl, rfl⟩⟩ | ⟨rfl,
    ⟨k, l, b, o, hca, rfl⟩ | ⟨f, p, o, hmgmt, rfl⟩⟩
  · obtain ⟨f, hf, hend⟩ := hlaid.low
    refine ⟨f, (g.fabric.ends l b).port, hf, by rw [portOf, hlaid.link]; rfl,
      .inl ⟨k, l, b, false, _, rfl, hlaid.src, ?_, hlaid.link, rfl⟩⟩
    rw [Bool.xor_false]
    exact (g.fabric.lend_port l b f (hi.src_lt hlaid.src) hend).1
  · obtain ⟨f, hf, hend⟩ := hlaid.high
    refine ⟨f, (g.fabric.ends l !b).port, hf, by rw [portOf, hlaid.link]; rfl,
      .inl ⟨k, l, b, true, _, rfl, hlaid.src, ?_, hlaid.link, rfl⟩⟩
    rw [Bool.xor_true]
    exact (g.fabric.lend_port l (!b) f (hi.src_lt hlaid.src) hend).1
  · obtain ⟨f, hf, hend⟩ := hca.low
    refine ⟨f, (g.fabric.ends l b).port, hf, by rw [portOf, hca.link]; rfl,
      .inl ⟨k, l, b, false, _, rfl, hca.src, ?_, hca.link, rfl⟩⟩
    rw [Bool.xor_false]
    exact (g.fabric.lend_port l b f (hi.src_lt hca.src) hend).1
  · exact ⟨f, p, hmgmt.sw, rfl, .inr ⟨rfl, rfl, o, hmgmt.port⟩⟩

lemma Laid.real {c₀ : Coord} (h : Laid g s srcs k d c₀ l b) (hi : Inv g s srcs) :
    Real g s k c₀ (along g c₀ d 1) := by
  obtain ⟨f, hf, hend⟩ := h.low
  obtain ⟨f', hf', hend'⟩ := h.high
  have hl := hi.src_lt h.src
  exact ⟨_, f, f', l, b, h.link, rfl, rfl, hf, hf', (g.fabric.lend_port l b f hl hend).1,
    (g.fabric.lend_port l (!b) f' hl hend').1⟩

lemma Inv.installs (hi : Inv g s srcs) (h : Installs g s k l) : ∃ b, srcs[k]? = some (l, b) := by
  obtain ⟨lk, c, f, b, hlk, hsw, hf, hport⟩ := h
  have hk : k < srcs.length := by
    rw [← hi.len]
    exact (List.getElem?_eq_some_iff.mp hlk).1
  obtain ⟨⟨l₀, b₀⟩, hsrc⟩ : ∃ x, srcs[k]? = some x := ⟨_, List.getElem?_eq_getElem hk⟩
  have hlow : ∃ c₀ f₀, lk.1.sw = some c₀ ∧ s.sw c₀ = some f₀ ∧ (g.fabric.ends l₀ b₀).sw = some f₀ ∧
      lk.1.port = (g.fabric.ends l₀ b₀).port := by
    rcases hi.links k l₀ b₀ hsrc with ⟨d, c₀, hlaid⟩ | ⟨c₀, o, hca⟩
    · obtain ⟨f₀, hf₀, hend⟩ := hlaid.low
      rw [hlaid.link] at hlk
      rw [← Option.some.inj hlk]
      exact ⟨c₀, f₀, rfl, hf₀, hend, rfl⟩
    · obtain ⟨f₀, hf₀, hend⟩ := hca.low
      rw [hca.link] at hlk
      rw [← Option.some.inj hlk]
      exact ⟨c₀, f₀, rfl, hf₀, hend, rfl⟩
  obtain ⟨c₀, f₀, hsw₀, hf₀, hend, hport₀⟩ := hlow
  rw [hsw₀] at hsw
  obtain rfl := Option.some.inj hsw
  rw [hf₀] at hf
  obtain rfl := Option.some.inj hf
  rw [hport₀, (g.fabric.lend_port l₀ b₀ f₀ (hi.src_lt hsrc) hend).1] at hport
  obtain ⟨rfl, rfl⟩ := FEp.lend.inj (Option.some.inj hport)
  exact ⟨b₀, hsrc⟩

lemma picture (hi : Inv g s srcs) (hdist : ∀ c c' f, s.sw c = some f → s.sw c' = some f → c = c')
    (hclear : ∀ c f, s.sw c = some f → ∀ p, Cleared g s f p) : Picture g s := by
  constructor
  case inRange => exact hi.inRange
  case distinct => exact hdist
  case up =>
    intro c d e he
    rcases hi.seats c d.pos e he with ⟨k, d', c₀, l, b, hlaid, ⟨rfl, hd, rfl⟩ | ⟨-, hd, -⟩⟩ | ⟨h6, -⟩
    · obtain rfl := pos_inj hd
      exact ⟨k, rfl, hlaid.seatHigh, hlaid.real hi⟩
    · exact absurd hd pos_ne_neg'
    · exact absurd h6 pos_ne_six
  case down =>
    intro c d e he
    rcases hi.seats c d.neg e he with ⟨k, d', c₀, l, b, hlaid, ⟨-, hd, -⟩ | ⟨rfl, hd, rfl⟩⟩ | ⟨h6, -⟩
    · exact absurd hd.symm pos_ne_neg'
    · obtain rfl := neg_inj hd
      obtain ⟨f, hf, -⟩ := hlaid.low
      have hreal := hlaid.real hi
      rw [along_pred ((hi.inRange c₀ f hf).1 d)]
      exact ⟨k, rfl, hlaid.seatLow, hreal⟩
    · exact absurd h6 neg_ne_six
  case oneGroup =>
    intro c i i' e e' he he' hp
    obtain ⟨f, p, hf, hport, hkind⟩ := hi.origin he
    obtain ⟨f', p', hf', hport', hkind'⟩ := hi.origin he'
    rw [hf] at hf'
    obtain rfl := Option.some.inj hf'
    rw [hport, hport'] at hp
    obtain rfl := Option.some.inj hp
    rcases hkind with ⟨k, l, b, x, lk, rfl, hsrc, hfp, hlk, hgrp⟩ | ⟨rfl, rfl, o, hfp⟩
    · rcases hkind' with ⟨k', l', b', x', lk', rfl, hsrc', hfp', hlk', hgrp'⟩ | ⟨-, -, o, hfp'⟩
      · rw [hfp] at hfp'
        obtain ⟨rfl, hb⟩ := FEp.lend.inj (Option.some.inj hfp')
        obtain rfl := hi.src_inj hsrc hsrc'
        rw [hsrc] at hsrc'
        obtain ⟨-, rfl⟩ := Prod.mk.inj (Option.some.inj hsrc')
        obtain rfl := Bool.xor_right_inj.mp hb
        rw [hlk] at hlk'
        obtain rfl := Option.some.inj hlk'
        rw [hgrp] at hgrp'
        exact ⟨rfl, (Prod.mk.inj (Option.some.inj hgrp')).2⟩
      · rw [hfp] at hfp'
        cases hfp'
    · rcases hkind' with ⟨k', l', b', x', lk', rfl, hsrc', hfp', -⟩ | ⟨rfl, rfl, -⟩
      · rw [hfp] at hfp'
        cases hfp'
      · exact ⟨rfl, rfl⟩
  case nodup => exact hi.once
  case installed =>
    intro k k' l hk hk'
    obtain ⟨b, hsrc⟩ := hi.installs hk
    obtain ⟨b', hsrc'⟩ := hi.installs hk'
    exact hi.src_inj hsrc hsrc'
  case size => exact hi.size
  case mgmt =>
    intro c f p o hc hport
    obtain ⟨c', o', hat⟩ := hi.mgmt f p ((hclear c f hc p).1 o hport)
    obtain rfl := hdist c c' f hc hat.sw
    have hport' := hat.port
    rw [hport] at hport'
    obtain rfl := FEp.mgmt.inj (Option.some.inj hport')
    exact ⟨hat.seat, hat.priv⟩
  case ca =>
    intro c f p l b hc hport hfar
    obtain ⟨-, hsw, hp⟩ := g.fabric.port_lend f p l b hport
    have hgone := (hclear c f hc p).2 l b hport hfar
    rw [hi.gone, List.mem_map] at hgone
    obtain ⟨⟨l', b'⟩, hmem, rfl⟩ := hgone
    obtain ⟨k, hk⟩ := List.mem_iff_getElem?.mp hmem
    rcases hi.links k l' b' hk with ⟨d, c', hlaid⟩ | ⟨c', o, hca⟩
    · obtain ⟨f₁, -, h₁⟩ := hlaid.low
      obtain ⟨f₂, -, h₂⟩ := hlaid.high
      refine absurd hfar ?_
      by_cases hbb : b' = b
      · exact not_srcsink_of_sw (hbb ▸ h₂)
      · obtain rfl : b' = !b := by
          cases b <;> cases b' <;> simp_all
        exact not_srcsink_of_sw h₁
    · obtain ⟨f₁, hf₁, h₁⟩ := hca.low
      by_cases hbb : b' = b
      · subst hbb
        rw [hsw] at h₁
        obtain rfl := Option.some.inj h₁
        obtain rfl := hdist c c' f hc hf₁
        exact ⟨k, _, o, hca.seat, hca.link, hp, hca.osmPort, hca.osmPort, hca.priv⟩
      · obtain rfl : b' = !b := by
          cases b <;> cases b' <;> simp_all
        exact absurd hfar (not_srcsink_of_sw h₁)

end Result

lemma buildTorus_inv {g : Setup} (hsz : ∀ d, 0 < g.sz d) : buildTorus g ≠ .error .endless ∧
    ∀ s, buildTorus g = .ok (true, s) → ∃ srcs, Inv g s srcs ∧
      (∀ c c' f, s.sw c = some f → s.sw c' = some f → c = c') ∧ ∀ c f, s.sw c = some f → ∀ p, Cleared g s f p := by
  have hseed := installSeed_inv hsz
  have hfuel : g.fabric.linkCnt < g.fabric.linkCnt + 1 + (installSeed g).2.links.length := by omega
  obtain ⟨s₁, hs₁, srcs₁, hi₁, -⟩ := searchLoop_spec hsz hseed hfuel
  rw [buildTorus]
  dsimp only
  rw [hs₁]
  split_ifs with hpool hok hcrash
  · refine ⟨by simp, fun s hs => ?_⟩
    obtain ⟨-, rfl⟩ := Prod.mk.inj (Except.ok.inj hs)
    exact ⟨[], inv_init, fun c c' f h => (by cases h), fun c f h => by cases h⟩
  · exact ⟨by simp, fun s hs => by simp at hs⟩
  · exact ⟨by simp, fun s hs => by simp at hs⟩
  · refine ⟨by simp, fun s hs => ?_⟩
    have hres := Except.ok.inj hs
    obtain ⟨srcs₂, hi₂, -, hsw₂, hpair, hdone⟩ := linkSrcsinks_spec g.coords hi₁ (by rw [hres])
    rw [hres] at hi₂ hsw₂ hdone
    dsimp only at hi₂ hsw₂ hdone
    rw [← hsw₂] at hpair hdone
    have hmem : ∀ c f, s.sw c = some f → c ∈ g.coords := fun c f h => mem_setup_coords.mpr (hi₂.inRange c f h).1
    refine ⟨srcs₂, hi₂, fun c c' f hc hc' => ?_, fun c f hc p => (hdone c (hmem c f hc) f hc).2 p⟩
    by_contra hne
    have hsymm : Std.Symm fun c c' : Coord => ∀ f, s.sw c = some f → s.sw c' ≠ some f :=
      ⟨fun c c' h f hf hf' => h f hf' hf⟩
    exact hpair.forall (hmem c f hc) (hmem c' f hc') hne f hc hc'

/-- The search for any torus in any fabric ends, and if it succeeds, what it has found is there in the fabric. -/
theorem buildTorus_picture {g : Setup} (hsz : ∀ d, 0 < g.sz d) :
    buildTorus g ≠ .error .endless ∧ ∀ s, buildTorus g = .ok (true, s) → Picture g s := by
  refine ⟨(buildTorus_inv hsz).1, fun s hs => ?_⟩
  obtain ⟨srcs, hi, hdist, hcleared⟩ := (buildTorus_inv hsz).2 s hs
  exact picture hi hdist hcleared

section Square

/-- Four switches, the second along x from the first and the fourth from the third, the third along y from the
first and the fourth from the second, and a CA at the first one. -/
def squareEnds : ℕ → Bool → FEnd
  | 0, b => ⟨.passthru, 1, if b then 101 else 100, some (if b then 1 else 0), none⟩
  | 1, b => ⟨.passthru, 2, if b then 102 else 100, some (if b then 2 else 0), none⟩
  | 2, b => ⟨.passthru, 2, if b then 103 else 101, some (if b then 3 else 1), none⟩
  | 3, b => ⟨.passthru, 1, if b then 103 else 102, some (if b then 3 else 2), none⟩
  | 4, false => ⟨.passthru, 3, 100, some 0, none⟩
  | 4, true => ⟨.srcsink, 1, 200, none, some 14⟩
  | _, _ => ⟨.srcsink, 0, 0, none, none⟩

def squarePort : ℕ → ℕ → Option FEp
  | 0, 0 => some (.mgmt 10)
  | 0, 1 => some (.lend 0 false)
  | 0, 2 => some (.lend 1 false)
  | 0, 3 => some (.lend 4 false)
  | 1, 0 => some (.mgmt 11)
  | 1, 1 => some (.lend 0 true)
  | 1, 2 => some (.lend 2 false)
  | 2, 0 => some (.mgmt 12)
  | 2, 1 => some (.lend 3 false)
  | 2, 2 => some (.lend 1 true)
  | 3, 0 => some (.mgmt 13)
  | 3, 1 => some (.lend 3 true)
  | 3, 2 => some (.lend 2 true)
  | _, _ => none

lemma square_port_lt (f p : ℕ) (h : (squarePort f p).isSome) : f < 4 ∧ p < 4 := by
  unfold squarePort at h
  split at h
  all_goals first | exact ⟨by decide, by decide⟩ | cases h

lemma square_mgmt {f p o : ℕ} (h : squarePort f p = some (.mgmt o)) : p = 0 ∧ o = 10 + f ∧ f < 4 := by
  unfold squarePort at h
  split at h
  all_goals first | exact ⟨rfl, (FEp.mgmt.inj (Option.some.inj h)).symm, by decide⟩ | cases h

lemma square_osmPort {l o : ℕ} {b : Bool} (h : (squareEnds l b).osmPort = some o) : l = 4 ∧ b = true ∧ o = 14 := by
  unfold squareEnds at h
  split at h
  all_goals first | exact ⟨rfl, rfl, (Option.some.inj h).symm⟩ | cases h

lemma square_port_lend (f p l : ℕ) (b : Bool) (h : squarePort f p = some (.lend l b)) :
    l < 5 ∧ (squareEnds l b).sw = some f ∧ (squareEnds l b).port = p := by
  unfold squarePort at h
  split at h
  all_goals first | (cases h; exact ⟨by decide, rfl, rfl⟩) | cases h

lemma square_lend_port (l : ℕ) (b : Bool) (f : ℕ) (hl : l < 5) (h : (squareEnds l b).sw = some f) :
    squarePort f (squareEnds l b).port = some (.lend l b) ∧ (squareEnds l b).nId = 100 + f := by
  interval_cases l <;> cases b <;> cases h <;> exact ⟨rfl, rfl⟩

lemma square_passthru (l : ℕ) (b : Bool) : (squareEnds l b).type = .passthru ↔ (squareEnds l b).sw.isSome := by
  unfold squareEnds
  split <;> simp

lemma square_switch_osmPort (l : ℕ) (b : Bool) (h : (squareEnds l b).sw.isSome) :
    (squareEnds l b).osmPort = none := by
  unfold squareEnds at h ⊢
  split at h <;> simp_all

lemma square_nId_inj : ∀ f < 4, ∀ f' < 4, 100 + f = 100 + f' → f = f' := by omega

lemma square_mgmt_inj (f p f' p' o : ℕ) (h : squarePort f p = some (.mgmt o))
    (h' : squarePort f' p' = some (.mgmt o)) :
    f = f' ∧ p = p' := by
  obtain ⟨rfl, ho, -⟩ := square_mgmt h
  obtain ⟨rfl, ho', -⟩ := square_mgmt h'
  exact ⟨by omega, rfl⟩

lemma square_mgmt_ca (f p o l : ℕ) (b : Bool) (h : squarePort f p = some (.mgmt o)) :
    (squareEnds l b).osmPort ≠ some o := by
  intro ho
  obtain ⟨-, hf, hlt⟩ := square_mgmt h
  obtain ⟨-, -, hca⟩ := square_osmPort ho
  omega

lemma square_ca_inj (l : ℕ) (b : Bool) (l' : ℕ) (b' : Bool) (o : ℕ) (h : (squareEnds l b).osmPort = some o)
    (h' : (squareEnds l' b').osmPort = some o) : l = l' ∧ b = b' := by
  obtain ⟨rfl, rfl, -⟩ := square_osmPort h
  obtain ⟨rfl, rfl, -⟩ := square_osmPort h'
  exact ⟨rfl, rfl⟩

def squareFabric : Fabric where
  swCnt := 4
  linkCnt := 5
  nId := fun f => 100 + f
  portCnt := fun _ => 4
  osmSwitch := some
  port := squarePort
  ends := squareEnds
  nId_inj := square_nId_inj
  port_lt := square_port_lt
  port_lend := square_port_lend
  lend_port := square_lend_port
  passthru := square_passthru
  switch_osmPort := square_switch_osmPort
  mgmt_inj := square_mgmt_inj
  mgmt_ca := square_mgmt_ca
  ca_inj := square_ca_inj

def squareSetup : Setup where
  fabric := squareFabric
  sz := coord 2 2 1
  mesh := fun _ => true
  portgrpSz := 4
  seed := ⟨fun d up => if up = false then none else
    match d with
    | .x => some (100, 101)
    | .y => some (100, 102)
    | .z => none, fun _ => 0⟩
  linkPool := true
  calloc := fun _ => true

lemma square_seedSw : seedSw squareSetup = coord 0 0 0 := by
  funext d
  cases d <;> rfl

lemma square_seedEnd_x : seedEnd squareSetup .x true = coord 1 0 0 := by
  funext d
  cases d <;> rfl

lemma square_seedEnd_y : seedEnd squareSetup .y true = coord 0 1 0 := by
  funext d
  cases d <;> rfl

/-- The seed of the square: its first three switches. -/
def squareSeed : BuildSt :=
  let s := (installTswitch squareSetup (.init squareSetup) (coord 0 0 0) (some 0)).2
  let s := (installTswitch squareSetup s (coord 1 0 0) (some 1)).2
  let s := (installTswitch squareSetup s (coord 0 0 0) (some 0)).2
  (installTswitch squareSetup s (coord 0 1 0) (some 2)).2

lemma square_installSeed : installSeed squareSetup = (true, squareSeed) := by
  rw [squareSeed, ← square_seedSw, ← square_seedEnd_x, ← square_seedEnd_y]
  rfl

lemma square_built : (buildTorus squareSetup).toOption.elim false
    (fun r => r.1 && decide (r.2.sw (coord 1 1 0) = some 3)) = true := by
  rw [buildTorus]
  dsimp only
  rw [square_installSeed, square_seedSw]
  decide +kernel

/-- The handler of the case puts the fourth switch into its corner. -/
theorem buildTorus_picture_square : ∃ s, buildTorus squareSetup = .ok (true, s) ∧ s.sw (coord 1 1 0) = some 3 ∧
    Picture squareSetup s := by
  have hsz : ∀ d, 0 < squareSetup.sz d := by decide
  have hok := square_built
  cases hres : buildTorus squareSetup with
  | error e =>
    rw [hres] at hok
    cases hok
  | ok r =>
    rw [hres] at hok
    obtain ⟨hbuilt, hcorner⟩ := Bool.and_eq_true_iff.mp hok
    have hr : r = (true, r.2) := Prod.ext hbuilt rfl
    refine ⟨r.2, congrArg _ hr, of_decide_eq_true hcorner, (buildTorus_picture hsz).2 r.2 ?_⟩
    rw [hres, ← hr]

end Square

end OpenSM.Torus2QoS
