import OpenSM.TorusBuild

/-! What holds of a torus under construction after any moves from the fabric, whatever positions its switches
have been given. -/

namespace OpenSM.Torus2QoS

variable (g : Setup) (s : BuildSt) (srcs : List (ℕ × Bool))

/-- Link `k` of the torus is the link `l` of the fabric, between the switches at `c` and next to it. -/
structure Laid (k : ℕ) (d : Dim) (c : Coord) (l : ℕ) (b : Bool) : Prop where
  src : srcs[k]? = some (l, b)
  link : s.links[k]? = some (tEnd (g.fabric.ends l b) (some (c, d.pos)) (some c),
    tEnd (g.fabric.ends l !b) (some (along g c d 1, d.neg)) (some (along g c d 1)))
  low : ∃ f, s.sw c = some f ∧ (g.fabric.ends l b).sw = some f
  high : ∃ f, s.sw (along g c d 1) = some f ∧ (g.fabric.ends l !b).sw = some f
  seatLow : .lend k false ∈ s.ptgrp c d.pos
  seatHigh : .lend k true ∈ s.ptgrp (along g c d 1) d.neg

structure CaAt (k : ℕ) (c : Coord) (l : ℕ) (b : Bool) (o : ℕ) : Prop where
  src : srcs[k]? = some (l, b)
  link : s.links[k]? = some (tEnd { g.fabric.ends l b with osmPort := none } (some (c, 6)) (some c),
    tEnd (g.fabric.ends l !b) none none)
  low : ∃ f, s.sw c = some f ∧ (g.fabric.ends l b).sw = some f
  far : (g.fabric.ends l !b).type = .srcsink
  osmPort : (g.fabric.ends l !b).osmPort = some o
  seat : .lend k false ∈ s.ptgrp c 6
  priv : s.portPriv o = some (.lend k true)

structure MgmtAt (f p : ℕ) (c : Coord) (o : ℕ) : Prop where
  port : g.fabric.port f p = some (.mgmt o)
  moved : s.moved f p = true
  sw : s.sw c = some f
  seat : .mgmt f p ∈ s.ptgrp c 6
  priv : s.portPriv o = some (.mgmt f p)

def Seat (c : Coord) (i : ℕ) (e : TEp) : Prop :=
  (∃ k d c₀ l b, Laid g s srcs k d c₀ l b ∧
    (c = c₀ ∧ i = d.pos ∧ e = .lend k false ∨ c = along g c₀ d 1 ∧ i = d.neg ∧ e = .lend k true)) ∨
  i = 6 ∧ ((∃ k l b o, CaAt g s srcs k c l b o ∧ e = .lend k false) ∨ ∃ f p o, MgmtAt g s f p c o ∧ e = .mgmt f p)

def InUse (k l : ℕ) (b : Bool) : Prop := (∃ d c, Laid g s srcs k d c l b) ∨ ∃ c o, CaAt g s srcs k c l b o

/-- What `priv` of an `osm_port` points at. -/
def Back (o : ℕ) (e : TEp) : Prop :=
  (∃ k c l b, CaAt g s srcs k c l b o ∧ e = .lend k true) ∨ ∃ f p c, MgmtAt g s f p c o ∧ e = .mgmt f p

/-- What the endpoints in port groups are; `srcs` has the fabric link, and its end that became end 0, for each
link of the torus. -/
structure Inv : Prop where
  len : s.links.length = srcs.length
  nodup : (srcs.map Prod.fst).Nodup
  gone : ∀ l, s.gone l = true ↔ l ∈ srcs.map Prod.fst
  lt : ∀ x ∈ srcs, x.1 < g.fabric.linkCnt
  inRange : ∀ c f, s.sw c = some f → (∀ d, c d < g.sz d) ∧ f < g.fabric.swCnt
  once : ∀ c i, (s.ptgrp c i).Nodup
  size : ∀ c i, (s.ptgrp c i).length ≤ g.portgrpSz
  seats : ∀ c i e, e ∈ s.ptgrp c i → Seat g s srcs c i e
  links : ∀ k l b, srcs[k]? = some (l, b) → InUse g s srcs k l b
  mgmt : ∀ f p, s.moved f p = true → ∃ c o, MgmtAt g s f p c o
  priv : ∀ o e, s.portPriv o = some e → Back g s srcs o e
  claimed : ∀ c o, s.osmSwitch c = some o → ∃ f, s.sw c = some f ∧ s.fosm f = none
  back : ∀ o c, s.swPriv o = some c → s.osmSwitch c = some o

structure Extends (s : BuildSt) (srcs : List (ℕ × Bool)) (s' : BuildSt) (srcs' : List (ℕ × Bool)) : Prop where
  sw : ∀ c f, s.sw c = some f → s'.sw c = some f
  ptgrp : ∀ c i e, e ∈ s.ptgrp c i → e ∈ s'.ptgrp c i
  links : s.links <+: s'.links
  srcs : srcs <+: srcs'
  moved : ∀ f p, s.moved f p = true → s'.moved f p = true
  priv : ∀ o e, s.portPriv o = some e → s'.portPriv o = some e

section Growth

variable {g : Setup} {s s' s'' : BuildSt} {srcs srcs' srcs'' : List (ℕ × Bool)} {k : ℕ} {d : Dim}
  {c : Coord} {l : ℕ} {b : Bool} {f p o i : ℕ} {e : TEp}

lemma Extends.refl : Extends s srcs s srcs :=
  ⟨fun _ _ => id, fun _ _ _ => id, List.prefix_rfl, List.prefix_rfl, fun _ _ => id, fun _ _ => id⟩

lemma Extends.trans (h : Extends s srcs s' srcs') (h' : Extends s' srcs' s'' srcs'') : Extends s srcs s'' srcs'' :=
  ⟨fun c f hf => h'.sw c f (h.sw c f hf), fun c i e he => h'.ptgrp c i e (h.ptgrp c i e he),
    h.links.trans h'.links, h.srcs.trans h'.srcs, fun f p hm => h'.moved f p (h.moved f p hm),
    fun o e he => h'.priv o e (h.priv o e he)⟩

lemma getElem?_mono {α : Type*} {l l' : List α} (h : l <+: l') {i : ℕ} {a : α} (ha : l[i]? = some a) :
    l'[i]? = some a := by
  obtain ⟨m, rfl⟩ := h
  rw [List.getElem?_append_left (List.getElem?_eq_some_iff.mp ha).1, ha]

lemma Laid.mono (h : Laid g s srcs k d c l b) (hx : Extends s srcs s' srcs') : Laid g s' srcs' k d c l b := by
  obtain ⟨f, hf, hlow⟩ := h.low
  obtain ⟨f', hf', hhigh⟩ := h.high
  exact ⟨getElem?_mono hx.srcs h.src, getElem?_mono hx.links h.link, ⟨f, hx.sw c f hf, hlow⟩,
    ⟨f', hx.sw _ f' hf', hhigh⟩, hx.ptgrp _ _ _ h.seatLow, hx.ptgrp _ _ _ h.seatHigh⟩

lemma CaAt.mono (h : CaAt g s srcs k c l b o) (hx : Extends s srcs s' srcs') : CaAt g s' srcs' k c l b o := by
  obtain ⟨f, hf, hlow⟩ := h.low
  exact ⟨getElem?_mono hx.srcs h.src, getElem?_mono hx.links h.link, ⟨f, hx.sw c f hf, hlow⟩, h.far,
    h.osmPort, hx.ptgrp _ _ _ h.seat, hx.priv _ _ h.priv⟩

lemma MgmtAt.mono (h : MgmtAt g s f p c o) (hx : Extends s srcs s' srcs') : MgmtAt g s' f p c o :=
  ⟨h.port, hx.moved f p h.moved, hx.sw c f h.sw, hx.ptgrp _ _ _ h.seat, hx.priv _ _ h.priv⟩

lemma Seat.mono (h : Seat g s srcs c i e) (hx : Extends s srcs s' srcs') : Seat g s' srcs' c i e := by
  rcases h with ⟨k, d, c₀, l, b, hlaid, hat⟩ | ⟨hi, ⟨k, l, b, o, hca, hat⟩ | ⟨f, p, o, hmgmt, hat⟩⟩
  · exact .inl ⟨k, d, c₀, l, b, hlaid.mono hx, hat⟩
  · exact .inr ⟨hi, .inl ⟨k, l, b, o, hca.mono hx, hat⟩⟩
  · exact .inr ⟨hi, .inr ⟨f, p, o, hmgmt.mono hx, hat⟩⟩

lemma InUse.mono (h : InUse g s srcs k l b) (hx : Extends s srcs s' srcs') : InUse g s' srcs' k l b := by
  rcases h with ⟨d, c, hlaid⟩ | ⟨c, o, hca⟩
  · exact .inl ⟨d, c, hlaid.mono hx⟩
  · exact .inr ⟨c, o, hca.mono hx⟩

lemma Back.mono (h : Back g s srcs o e) (hx : Extends s srcs s' srcs') : Back g s' srcs' o e := by
  rcases h with ⟨k, c, l, b, hca, hat⟩ | ⟨f, p, c, hmgmt, hat⟩
  · exact .inl ⟨k, c, l, b, hca.mono hx, hat⟩
  · exact .inr ⟨f, p, c, hmgmt.mono hx, hat⟩

lemma seat_ptgrp (c' : Coord) (i' : ℕ) : (s.seat c i p e).ptgrp c' i' =
    if c' = c ∧ i' = i then s.ptgrp c i ++ [e] else s.ptgrp c' i' := by
  rw [BuildSt.seat]
  dsimp only
  by_cases hc : c' = c
  · rw [hc, Function.update_self]
    by_cases hi : i' = i
    · rw [hi, Function.update_self, if_pos ⟨rfl, rfl⟩]
    · rw [Function.update_of_ne hi, if_neg fun h => hi h.2]
  · rw [Function.update_of_ne hc, if_neg fun h => hc h.1]

lemma mem_seat (c' : Coord) (i' : ℕ) (e' : TEp) : e' ∈ (s.seat c i p e).ptgrp c' i' ↔
    e' ∈ s.ptgrp c' i' ∨ c' = c ∧ i' = i ∧ e' = e := by
  rw [seat_ptgrp]
  split_ifs with h
  · rw [h.1, h.2, List.mem_append, List.mem_singleton]
    simp
  · refine (or_iff_left ?_).symm
    rintro ⟨hc, hi, -⟩
    exact h ⟨hc, hi⟩

@[simp] lemma setPriv_ptgrp (o : Option ℕ) : (s.setPriv o e).ptgrp = s.ptgrp := by cases o <;> rfl

@[simp] lemma setPriv_sw (o : Option ℕ) : (s.setPriv o e).sw = s.sw := by cases o <;> rfl

@[simp] lemma setPriv_links (o : Option ℕ) : (s.setPriv o e).links = s.links := by cases o <;> rfl

@[simp] lemma setPriv_gone (o : Option ℕ) : (s.setPriv o e).gone = s.gone := by cases o <;> rfl

@[simp] lemma setPriv_moved (o : Option ℕ) : (s.setPriv o e).moved = s.moved := by cases o <;> rfl

@[simp] lemma setPriv_osmSwitch (o : Option ℕ) : (s.setPriv o e).osmSwitch = s.osmSwitch := by cases o <;> rfl

@[simp] lemma setPriv_fosm (o : Option ℕ) : (s.setPriv o e).fosm = s.fosm := by cases o <;> rfl

@[simp] lemma setPriv_swPriv (o : Option ℕ) : (s.setPriv o e).swPriv = s.swPriv := by cases o <;> rfl

end Growth

section Moves

variable {g : Setup} {s : BuildSt} {srcs : List (ℕ × Bool)} {d : Dim} {c : Coord} {l : ℕ} {b : Bool}
    {f p i : ℕ} {e : TEp}

lemma seat_once (hn : ∀ c i, (s.ptgrp c i).Nodup) (he : e ∉ s.ptgrp c i) (c' : Coord) (i' : ℕ) :
    ((s.seat c i p e).ptgrp c' i').Nodup := by
  rw [seat_ptgrp]
  split_ifs with h
  · refine List.nodup_append.mpr ⟨hn c i, List.nodup_singleton e, fun x hx y hy hxy => he ?_⟩
    obtain rfl : y = e := List.mem_singleton.mp hy
    exact hxy ▸ hx
  · exact hn c' i'

lemma seat_size {m : ℕ} (hn : ∀ c i, (s.ptgrp c i).length ≤ m) (hlt : (s.ptgrp c i).length ≠ m)
    (c' : Coord) (i' : ℕ) :
    ((s.seat c i p e).ptgrp c' i').length ≤ m := by
  rw [seat_ptgrp]
  split_ifs with h
  · rw [List.length_append, List.length_singleton]
    exact lt_of_le_of_ne (hn c i) hlt
  · exact hn c' i'

lemma Inv.fresh (hi : Inv g s srcs) (c : Coord) (i : ℕ) (b : Bool) : TEp.lend s.links.length b ∉ s.ptgrp c i := by
  intro he
  have hlt : ∀ {k : ℕ} {x}, srcs[k]? = some x → k ≠ s.links.length := by
    intro k x hk
    have hk := (List.getElem?_eq_some_iff.mp hk).1
    have hlen := hi.len
    omega
  rcases hi.seats c i _ he with ⟨k, d, c₀, l, b', hlaid, ⟨-, -, hek⟩ | ⟨-, -, hek⟩⟩ | ⟨-, ⟨k, l, b', o, hca, hek⟩ |
    ⟨f, p, o, -, hek⟩⟩
  · exact hlt hlaid.src (TEp.lend.inj hek).1.symm
  · exact hlt hlaid.src (TEp.lend.inj hek).1.symm
  · exact hlt hca.src (TEp.lend.inj hek).1.symm
  · cases hek

lemma pos_ne_neg : d.pos ≠ d.neg := by
  rw [Dim.pos, Dim.neg]
  omega

lemma Inv.notMem (hi : Inv g s srcs) (hl : s.gone l = false) : l ∉ srcs.map Prod.fst := by
  rw [← hi.gone, hl]
  exact Bool.false_ne_true

lemma gone_append (hi : Inv g s srcs) (l' : ℕ) : Function.update s.gone l true l' = true ↔
    l' ∈ (srcs ++ [(l, b)]).map Prod.fst := by
  rw [List.map_append, List.mem_append, ← hi.gone, List.map_singleton, List.mem_singleton]
  by_cases h : l' = l
  · rw [h, Function.update_self]
    exact iff_of_true rfl (.inr rfl)
  · rw [Function.update_of_ne h, or_iff_left h]

lemma nodup_append (hi : Inv g s srcs) (hl : s.gone l = false) : ((srcs ++ [(l, b)]).map Prod.fst).Nodup := by
  rw [List.map_append, List.map_singleton]
  refine List.nodup_append.mpr ⟨hi.nodup, List.nodup_singleton l, fun x hx y hy hxy => hi.notMem hl ?_⟩
  obtain rfl : y = l := List.mem_singleton.mp hy
  exact hxy ▸ hx

lemma getElem?_snoc {α : Type*} {xs : List α} {a x : α} {k : ℕ} (h : (xs ++ [a])[k]? = some x) :
    xs[k]? = some x ∨ k = xs.length ∧ x = a := by
  rcases lt_trichotomy k xs.length with hk | rfl | hk
  · rw [List.getElem?_append_left hk] at h
    exact .inl h
  · rw [List.getElem?_concat_length] at h
    exact .inr ⟨rfl, (Option.some.inj h).symm⟩
  · rw [List.getElem?_eq_none (by rw [List.length_append, List.length_singleton]; omega)] at h
    cases h

/-- An interswitch link moves to the torus. -/
lemma connectTlink_inv (hi : Inv g s srcs) (hl : l < g.fabric.linkCnt) (hgone : s.gone l = false)
    (hlow : ∃ f, s.sw c = some f ∧ (g.fabric.ends l b).sw = some f)
    (hhigh : ∃ f, s.sw (along g c d 1) = some f ∧ (g.fabric.ends l !b).sw = some f) :
    ∃ srcs', Inv g (connectTlink g s (c, d.pos) (along g c d 1, d.neg) l b).2 srcs' ∧
      Extends s srcs (connectTlink g s (c, d.pos) (along g c d 1, d.neg) l b).2 srcs' := by
  obtain ⟨f₀, hf₀, he₀⟩ := hlow
  obtain ⟨f₁, hf₁, he₁⟩ := hhigh
  rw [connectTlink]
  split_ifs with hfull₀ hfull₁ hpool
  · exact ⟨srcs, hi, .refl⟩
  · exact ⟨srcs, hi, .refl⟩
  · exact ⟨srcs, hi, .refl⟩
  have ho₀ := g.fabric.switch_osmPort l b (by rw [he₀]; rfl)
  have ho₁ := g.fabric.switch_osmPort l (!b) (by rw [he₁]; rfl)
  dsimp only
  rw [ho₀, ho₁]
  change ∃ srcs', Inv g ((BuildSt.seat _ c d.pos _ _).seat (along g c d 1) d.neg _ _) srcs' ∧
    Extends s srcs ((BuildSt.seat _ c d.pos _ _).seat (along g c d 1) d.neg _ _) srcs'
  generalize hs₁ : ({ s with
    links := s.links ++ [(tEnd (g.fabric.ends l b) (some (c, d.pos)) (some c),
      tEnd (g.fabric.ends l !b) (some (along g c d 1, d.neg)) (some (along g c d 1)))]
    gone := Function.update s.gone l true } : BuildSt) = s₁
  have hptgrp : s₁.ptgrp = s.ptgrp := by rw [← hs₁]
  generalize hs' : (s₁.seat c d.pos (g.fabric.ends l b).port (.lend s.links.length false)).seat
    (along g c d 1) d.neg (g.fabric.ends l !b).port (.lend s.links.length true) = s'
  have hmem : ∀ c' i' e', e' ∈ s'.ptgrp c' i' ↔ (e' ∈ s.ptgrp c' i' ∨
      c' = c ∧ i' = d.pos ∧ e' = .lend s.links.length false) ∨
      c' = along g c d 1 ∧ i' = d.neg ∧ e' = .lend s.links.length true := by
    intro c' i' e'
    rw [← hs', mem_seat, mem_seat, hptgrp]
  have hlinks : s'.links = s.links ++ [(tEnd (g.fabric.ends l b) (some (c, d.pos)) (some c),
      tEnd (g.fabric.ends l !b) (some (along g c d 1, d.neg)) (some (along g c d 1)))] := by rw [← hs', ← hs₁]; rfl
  have hext : Extends s srcs s' (srcs ++ [(l, b)]) := by
    refine ⟨fun c f h => ?_, fun c i e h => (hmem c i e).mpr (.inl (.inl h)), ?_, List.prefix_append _ _, ?_, ?_⟩
    · rw [← hs', ← hs₁]
      exact h
    · rw [hlinks]
      exact List.prefix_append _ _
    · intro f p h
      rw [← hs', ← hs₁]
      exact h
    · intro o e h
      rw [← hs', ← hs₁]
      exact h
  have hlaid : Laid g s' (srcs ++ [(l, b)]) s.links.length d c l b := by
    refine ⟨?_, ?_, ⟨f₀, hext.sw c f₀ hf₀, he₀⟩, ⟨f₁, hext.sw _ f₁ hf₁, he₁⟩,
      (hmem ..).mpr (.inl (.inr ⟨rfl, rfl, rfl⟩)), (hmem ..).mpr (.inr ⟨rfl, rfl, rfl⟩)⟩
    · rw [hi.len, List.getElem?_concat_length]
    · rw [hlinks, List.getElem?_concat_length]
  refine ⟨srcs ++ [(l, b)], ?_, hext⟩
  constructor
  case len => rw [hlinks, List.length_append, List.length_append, hi.len]; rfl
  case nodup => exact nodup_append hi hgone
  case gone =>
    intro l'
    rw [← gone_append hi, ← hs', ← hs₁]
    rfl
  case lt =>
    intro x hx
    rcases List.mem_append.mp hx with hx | hx
    · exact hi.lt x hx
    · rw [List.mem_singleton.mp hx]
      exact hl
  case inRange =>
    intro c' f' h
    rw [← hs', ← hs₁] at h
    exact hi.inRange c' f' h
  case once =>
    rw [← hs']
    refine seat_once (seat_once ?_ ?_) ?_
    · rw [hptgrp]
      exact hi.once
    · rw [hptgrp]
      exact hi.fresh c d.pos false
    · rw [mem_seat, hptgrp]
      rintro (h | ⟨-, hpn, -⟩)
      · exact hi.fresh _ _ _ h
      · exact pos_ne_neg hpn.symm
  case size =>
    rw [← hs']
    refine seat_size (seat_size ?_ ?_) ?_
    · rw [hptgrp]
      exact hi.size
    · rw [hptgrp]
      exact hfull₀
    · rw [seat_ptgrp, if_neg fun h => pos_ne_neg h.2.symm, hptgrp]
      exact hfull₁
  case seats =>
    intro c' i' e' h
    rcases (hmem c' i' e').mp h with (h | h) | h
    · exact (hi.seats c' i' e' h).mono hext
    · exact .inl ⟨_, d, c, l, b, hlaid, .inl h⟩
    · exact .inl ⟨_, d, c, l, b, hlaid, .inr h⟩
  case links =>
    intro k l' b' h
    rcases getElem?_snoc h with h | ⟨rfl, hx⟩
    · exact (hi.links k l' b' h).mono hext
    · obtain ⟨rfl, rfl⟩ := Prod.mk.inj hx
      exact .inl ⟨d, c, hi.len ▸ hlaid⟩
  case mgmt =>
    intro f' p' h
    rw [← hs', ← hs₁] at h
    obtain ⟨c', o, hmg⟩ := hi.mgmt f' p' h
    exact ⟨c', o, hmg.mono hext⟩
  case priv =>
    intro o e' h
    rw [← hs', ← hs₁] at h
    exact (hi.priv o e' h).mono hext
  case claimed =>
    intro c' o h
    rw [← hs', ← hs₁] at h
    obtain ⟨f', hf', hn⟩ := hi.claimed c' o h
    refine ⟨f', hext.sw c' f' hf', ?_⟩
    rw [← hs', ← hs₁]
    exact hn
  case back =>
    intro o c' h
    rw [← hs', ← hs₁] at h ⊢
    exact hi.back o c' h

/-- A change that leaves links, endpoints and their ports alone. -/
lemma Inv.frame {s' : BuildSt} (hi : Inv g s srcs) (hsw : ∀ c f, s.sw c = some f → s'.sw c = some f)
    (hptgrp : s'.ptgrp = s.ptgrp) (hlinks : s'.links = s.links) (hgone : s'.gone = s.gone)
    (hmoved : s'.moved = s.moved)
    (hpriv : s'.portPriv = s.portPriv)
    (hrange : ∀ c f, s'.sw c = some f → (∀ d, c d < g.sz d) ∧ f < g.fabric.swCnt)
    (hclaimed : ∀ c o, s'.osmSwitch c = some o → ∃ f, s'.sw c = some f ∧ s'.fosm f = none)
    (hback : ∀ o c, s'.swPriv o = some c → s'.osmSwitch c = some o) : Inv g s' srcs ∧ Extends s srcs s' srcs := by
  have hext : Extends s srcs s' srcs := by
    refine ⟨hsw, ?_, ?_, List.prefix_rfl, ?_, ?_⟩
    · rw [hptgrp]
      exact fun _ _ _ => id
    · rw [hlinks]
    · rw [hmoved]
      exact fun _ _ => id
    · rw [hpriv]
      exact fun _ _ => id
  refine ⟨?_, hext⟩
  constructor
  case len => rw [hlinks, hi.len]
  case nodup => exact hi.nodup
  case gone =>
    rw [hgone]
    exact hi.gone
  case lt => exact hi.lt
  case inRange => exact hrange
  case once =>
    rw [hptgrp]
    exact hi.once
  case size =>
    rw [hptgrp]
    exact hi.size
  case seats =>
    intro c i e h
    rw [hptgrp] at h
    exact (hi.seats c i e h).mono hext
  case links => exact fun k l b h => (hi.links k l b h).mono hext
  case mgmt =>
    intro f p h
    rw [hmoved] at h
    obtain ⟨c, o, hmgmt⟩ := hi.mgmt f p h
    exact ⟨c, o, hmgmt.mono hext⟩
  case priv =>
    intro o e h
    rw [hpriv] at h
    exact (hi.priv o e h).mono hext
  case claimed => exact hclaimed
  case back => exact hback

lemma installTswitch_inv {o : Option ℕ} (hi : Inv g s srcs) (hc : ∀ d, c d < g.sz d)
    (ho : ∀ f ∈ o, f < g.fabric.swCnt) :
    Inv g (installTswitch g s c o).2 srcs ∧ Extends s srcs (installTswitch g s c o).2 srcs := by
  rw [installTswitch]
  cases hsw : s.sw c with
  | some f => exact ⟨hi, .refl⟩
  | none =>
    cases ho' : o with
    | none => exact ⟨hi, .refl⟩
    | some f =>
      rw [allocTswitch]
      dsimp only
      split_ifs with hpool hmem
      · exact ⟨hi, .refl⟩
      · exact hi.frame (fun _ _ => id) rfl rfl rfl rfl rfl hi.inRange hi.claimed hi.back
      · have hgrow : ∀ c' f', s.sw c' = some f' → Function.update s.sw c (some f) c' = some f' := by
          intro c' f' h
          rw [Function.update_of_ne (fun h' => by rw [h', hsw] at h; cases h), h]
        refine hi.frame hgrow rfl rfl rfl rfl rfl ?_ ?_ hi.back
        · intro c' f' h
          by_cases hcc : c' = c
          · rw [hcc]
            dsimp only at h
            rw [hcc, Function.update_self] at h
            exact ⟨hc, ho f' (by rw [ho', h]; rfl)⟩
          · dsimp only at h
            rw [Function.update_of_ne hcc] at h
            exact hi.inRange c' f' h
        · intro c' o' h
          obtain ⟨f', hf', hn⟩ := hi.claimed c' o' h
          exact ⟨f', hgrow c' f' hf', hn⟩

/-- A management port moves to the torus. -/
lemma mgmt_inv {o : ℕ} (hi : Inv g s srcs) (hsw : s.sw c = some f) (hport : g.fabric.port f p = some (.mgmt o))
    (hmoved : s.moved f p = false) (hfull : (s.ptgrp c 6).length ≠ g.portgrpSz) {s' : BuildSt}
    (hs' : s' = { (s.seat c 6 p (.mgmt f p)).setPriv (some o) (.mgmt f p) with
      moved := Function.update s.moved f (Function.update (s.moved f) p true) }) :
    Inv g s' srcs ∧ Extends s srcs s' srcs ∧ s'.moved f p = true := by
  have hmem : ∀ c' i' e', e' ∈ s'.ptgrp c' i' ↔ e' ∈ s.ptgrp c' i' ∨ c' = c ∧ i' = 6 ∧ e' = .mgmt f p := by
    intro c' i' e'
    rw [hs', ← mem_seat (p := p)]
    rfl
  have hmv : ∀ f' p', s'.moved f' p' = true ↔ s.moved f' p' = true ∨ f' = f ∧ p' = p := by
    intro f' p'
    rw [hs']
    dsimp only
    by_cases hff : f' = f
    · rw [hff, Function.update_self]
      by_cases hpp : p' = p
      · rw [hpp, Function.update_self]
        simp
      · rw [Function.update_of_ne hpp]
        simp [hpp]
    · rw [Function.update_of_ne hff]
      simp [hff]
  have hpriv : s'.portPriv = Function.update s.portPriv o (some (.mgmt f p)) := by rw [hs']; rfl
  have hnew : s.portPriv o = none := by
    by_contra hne
    obtain ⟨e, he⟩ := Option.ne_none_iff_exists'.mp hne
    rcases hi.priv o e he with ⟨k, c', l, b, hca, -⟩ | ⟨f', p', c', hmgmt, -⟩
    · exact g.fabric.mgmt_ca f p o l (!b) hport hca.osmPort
    · obtain ⟨rfl, rfl⟩ := g.fabric.mgmt_inj f p f' p' o hport hmgmt.port
      rw [hmgmt.moved] at hmoved
      cases hmoved
  have hext : Extends s srcs s' srcs := by
    refine ⟨fun c f h => ?_, fun c i e h => (hmem c i e).mpr (.inl h), ?_, List.prefix_rfl,
      fun f p h => (hmv f p).mpr (.inl h), fun o' e h => ?_⟩
    · rw [hs']
      exact h
    · rw [hs']
      exact List.prefix_rfl
    · rw [hpriv, Function.update_of_ne, h]
      rintro rfl
      rw [hnew] at h
      cases h
  have hat : MgmtAt g s' f p c o := by
    refine ⟨hport, (hmv f p).mpr (.inr ⟨rfl, rfl⟩), hext.sw c f hsw, (hmem ..).mpr (.inr ⟨rfl, rfl, rfl⟩), ?_⟩
    rw [hpriv, Function.update_self]
  refine ⟨?_, hext, hat.moved⟩
  constructor
  case len =>
    rw [hs']
    exact hi.len
  case nodup => exact hi.nodup
  case gone =>
    rw [hs']
    exact hi.gone
  case lt => exact hi.lt
  case inRange =>
    rw [hs']
    exact hi.inRange
  case once =>
    rw [hs']
    refine seat_once (p := p) hi.once fun h => ?_
    rcases hi.seats c 6 _ h with ⟨k, d, c₀, l, b, -, ⟨-, -, he⟩ | ⟨-, -, he⟩⟩ | ⟨-, ⟨k, l, b, o', -, he⟩ |
      ⟨f', p', o', hmgmt, he⟩⟩
    · cases he
    · cases he
    · cases he
    · obtain ⟨rfl, rfl⟩ := TEp.mgmt.inj he
      rw [hmgmt.moved] at hmoved
      cases hmoved
  case size =>
    rw [hs']
    exact seat_size (p := p) hi.size hfull
  case seats =>
    intro c' i' e' h
    rcases (hmem c' i' e').mp h with h | ⟨rfl, rfl, rfl⟩
    · exact (hi.seats c' i' e' h).mono hext
    · exact .inr ⟨rfl, .inr ⟨f, p, o, hat, rfl⟩⟩
  case links => exact fun k l b h => (hi.links k l b h).mono hext
  case mgmt =>
    intro f' p' h
    rcases (hmv f' p').mp h with h | ⟨rfl, rfl⟩
    · obtain ⟨c', o', hmgmt⟩ := hi.mgmt f' p' h
      exact ⟨c', o', hmgmt.mono hext⟩
    · exact ⟨c, o, hat⟩
  case priv =>
    intro o' e' h
    rw [hpriv] at h
    by_cases hoo : o' = o
    · rw [hoo, Function.update_self] at h
      rw [hoo]
      exact .inr ⟨f, p, c, hat, (Option.some.inj h).symm⟩
    · rw [Function.update_of_ne hoo] at h
      exact (hi.priv o' e' h).mono hext
  case claimed =>
    rw [hs']
    exact hi.claimed
  case back =>
    rw [hs']
    exact hi.back

/-- A link to a CA moves to the torus. -/
lemma ca_inv {o : ℕ} (hi : Inv g s srcs) (hsw : s.sw c = some f) (hl : l < g.fabric.linkCnt)
    (hgone : s.gone l = false)
    (hlow : (g.fabric.ends l b).sw = some f) (hfar : (g.fabric.ends l !b).type = .srcsink)
    (ho : (g.fabric.ends l !b).osmPort = some o) (hfull : (s.ptgrp c 6).length ≠ g.portgrpSz) {s₁ s' : BuildSt}
    (hs₁ : s₁ = { s with
      links := s.links ++ [(tEnd { g.fabric.ends l b with osmPort := none } (some (c, 6)) (some c),
        tEnd (g.fabric.ends l !b) none none)]
      gone := Function.update s.gone l true })
    (hs' : s' = (s₁.seat c 6 p (.lend s.links.length false)).setPriv (some o) (.lend s.links.length true)) :
    Inv g s' (srcs ++ [(l, b)]) ∧ Extends s srcs s' (srcs ++ [(l, b)]) ∧ s'.gone l = true := by
  have hptgrp : s₁.ptgrp = s.ptgrp := by rw [hs₁]
  have hmem : ∀ c' i' e', e' ∈ s'.ptgrp c' i' ↔ e' ∈ s.ptgrp c' i' ∨ c' = c ∧ i' = 6 ∧
      e' = .lend s.links.length false := by
    intro c' i' e'
    rw [hs', setPriv_ptgrp, mem_seat, hptgrp]
  have hlinks : s'.links = s.links ++ [(tEnd { g.fabric.ends l b with osmPort := none } (some (c, 6)) (some c),
      tEnd (g.fabric.ends l !b) none none)] := by rw [hs', hs₁]; rfl
  have hpriv : s'.portPriv = Function.update s.portPriv o
      (some (.lend s.links.length true)) := by rw [hs', hs₁]; rfl
  have hnew : s.portPriv o = none := by
    by_contra hne
    obtain ⟨e, he⟩ := Option.ne_none_iff_exists'.mp hne
    rcases hi.priv o e he with ⟨k, c', l', b', hca, -⟩ | ⟨f', p', c', hmgmt, -⟩
    · obtain ⟨rfl, -⟩ := g.fabric.ca_inj l (!b) l' (!b') o ho hca.osmPort
      exact hi.notMem hgone (List.mem_map_of_mem (f := Prod.fst) (List.mem_of_getElem? hca.src))
    · exact g.fabric.mgmt_ca f' p' o l (!b) hmgmt.port ho
  have hext : Extends s srcs s' (srcs ++ [(l, b)]) := by
    refine ⟨fun c f h => ?_, fun c i e h => (hmem c i e).mpr (.inl h), ?_, List.prefix_append _ _, fun f p h => ?_,
      fun o' e h => ?_⟩
    · rw [hs', hs₁]
      exact h
    · rw [hlinks]
      exact List.prefix_append _ _
    · rw [hs', hs₁]
      exact h
    · rw [hpriv, Function.update_of_ne, h]
      rintro rfl
      rw [hnew] at h
      cases h
  have hat : CaAt g s' (srcs ++ [(l, b)]) s.links.length c l b o := by
    refine ⟨?_, ?_, ⟨f, hext.sw c f hsw, hlow⟩, hfar, ho, (hmem ..).mpr (.inr ⟨rfl, rfl, rfl⟩), ?_⟩
    · rw [hi.len, List.getElem?_concat_length]
    · rw [hlinks, List.getElem?_concat_length]
    · rw [hpriv, Function.update_self]
  have hg : ∀ l', s'.gone l' = true ↔ l' ∈ (srcs ++ [(l, b)]).map Prod.fst := by
    intro l'
    rw [← gone_append hi, hs', hs₁]
    rfl
  refine ⟨?_, hext, (hg l).mpr (List.mem_map_of_mem (List.mem_append_right srcs (List.mem_singleton_self (l, b))))⟩
  constructor
  case len => rw [hlinks, List.length_append, List.length_append, hi.len]; rfl
  case nodup => exact nodup_append hi hgone
  case gone => exact hg
  case lt =>
    intro x hx
    rcases List.mem_append.mp hx with hx | hx
    · exact hi.lt x hx
    · rw [List.mem_singleton.mp hx]
      exact hl
  case inRange =>
    rw [hs', hs₁]
    exact hi.inRange
  case once =>
    rw [hs', setPriv_ptgrp]
    refine seat_once ?_ ?_
    · rw [hptgrp]
      exact hi.once
    · rw [hptgrp]
      exact hi.fresh c 6 false
  case size =>
    rw [hs', setPriv_ptgrp]
    refine seat_size ?_ ?_
    · rw [hptgrp]
      exact hi.size
    · rw [hptgrp]
      exact hfull
  case seats =>
    intro c' i' e' h
    rcases (hmem c' i' e').mp h with h | ⟨rfl, rfl, rfl⟩
    · exact (hi.seats c' i' e' h).mono hext
    · exact .inr ⟨rfl, .inl ⟨_, l, b, o, hat, rfl⟩⟩
  case links =>
    intro k l' b' h
    rcases getElem?_snoc h with h | ⟨rfl, hx⟩
    · exact (hi.links k l' b' h).mono hext
    · obtain ⟨rfl, rfl⟩ := Prod.mk.inj hx
      exact .inr ⟨c, o, hi.len ▸ hat⟩
  case mgmt =>
    intro f' p' h
    rw [hs', hs₁] at h
    obtain ⟨c', o', hmgmt⟩ := hi.mgmt f' p' h
    exact ⟨c', o', hmgmt.mono hext⟩
  case priv =>
    intro o' e' h
    rw [hpriv] at h
    by_cases hoo : o' = o
    · rw [hoo, Function.update_self] at h
      rw [hoo]
      exact .inl ⟨_, c, l, b, hat, (Option.some.inj h).symm⟩
    · rw [Function.update_of_ne hoo] at h
      exact (hi.priv o' e' h).mono hext
  case claimed =>
    rw [hs', hs₁]
    exact hi.claimed
  case back =>
    rw [hs', hs₁]
    exact hi.back

end Moves

end OpenSM.Torus2QoS
