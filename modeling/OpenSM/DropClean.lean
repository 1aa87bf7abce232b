import OpenSM.DropPorts

/-! What is left after the three passes, and when it is a consistent database. -/

namespace OpenSM.DropMgr

open Lib Multicast

structure Clean (d t : Subnet) : Prop where
  nodes : ∀ n N, t.nodeGuidTbl.get n = some N → N.discoveryCount ≠ 0
  switches : ∀ n N, t.nodeGuidTbl.get n = some N → N.isSwitch = true →
    N.sw = true ∧ (t.physps (n, 0)).discovered = true ∧ (t.portGuidTbl.get (t.physps (n, 0)).portGuid).isSome
  ports : ∀ g p, t.portGuidTbl.get g = some p → p.discoveryCount ≠ 0 ∧ g ∉ t.reset
  linked : Linked t
  referring : Referring t
  lids : ∀ lid g, t.portLidTbl lid = some g → (t.portGuidTbl.get g).isSome
  kept : ∀ lid g, d.portLidTbl lid = some g → (t.portGuidTbl.get g).isSome → t.portLidTbl lid = some g

/-- The P_Key check counts a port down from the zero that the removal of its peer's node has left. -/
def CountsDown (d : Subnet) (k : PhyspId) : Prop :=
  d.isSwitch k.1 = false ∧ ¬Lost d k.1 ∧ (d.physps k).portGuid ≠ d.smPortGuid ∧ Wrapped d (fun _ => True) k

/-- The removal of the port of `r` resets the port of `k`, which has been looked at. -/
def ResetsLate (d : Subnet) (r k : PhyspId) : Prop :=
  (d.physps k).remote = some r ∧ (d.isSwitch k.1 = false ∧ ¬Lost d k.1 ∧ Found d k) ∧
    (d.isSwitch r.1 = false ∧ ¬Lost d r.1 ∧ ¬Found d r) ∧ (d.portGuidTbl.get (d.physps r).portGuid).isSome ∧
    (d.physps k).portGuid ≠ d.smPortGuid ∧ (d.physps k).portGuid < (d.physps r).portGuid

/-- The ports that are to go: those of nodes to go, those not found, and those linked to one of them. -/
def Removed (d : Subnet) (g : Guid) : Prop :=
  ∃ p, d.portGuidTbl.get g = some p ∧ (Gone d p.node ∨ d.isSwitch p.node = false ∧
    (¬Found d p.physp ∨ g ≠ d.smPortGuid ∧ ∃ r, (d.physps p.physp).remote = some r ∧
      (Gone d r.1 ∨ d.isSwitch r.1 = false ∧ ¬Found d r ∧ (d.portGuidTbl.get (d.physps r).portGuid).isSome)))

/-- The condition: no port is counted down from zero, none is reset late, and the LIDs of the ports to go are those
in their ranges. -/
structure Orderly (d : Subnet) : Prop where
  counts : ∀ k, ¬CountsDown d k
  resets : ∀ r k, ¬ResetsLate d r k
  lids : ∀ lid g, d.portLidTbl lid = some g →
    (Removed d g ↔ ∃ g' p, d.portGuidTbl.get g' = some p ∧ Removed d g' ∧ (d.physps p.physp).lids lid)

section Screened

variable {d s t : Subnet} {g b : Guid} {p q : Port}

lemma count_found (hs : Dropped d s (fun _ => True) (Gone d)) (hp : s.portGuidTbl.get g = some p)
    (hsw : d.isSwitch p.node = false) (hres : g ∉ s.reset) :
    p.discoveryCount ≠ 0 ↔ Found d p.physp := by
  have hstay := hs.stays hp
  have hdisc : (s.physps p.physp).discovered = true ↔ Found d p.physp := by
    rw [hs.found p.physp hstay, true_and]
    exact Iff.rfl
  obtain ⟨h0, hguid, -⟩ := hs.linked.ports g p hp
  rw [hs.counted g p hp hres, ← hdisc, Finset.card_ne_zero]
  constructor
  · rintro ⟨i, hi⟩
    rw [Subnet.discoveredPorts, Finset.mem_filter] at hi
    rw [← physp_unique hs.linked hp (by rw [hs.isSwitch_eq hstay, hsw]) hi.2.2]
    exact hi.2.1
  · exact fun hd => ⟨p.portNum, hs.mem_discoveredPorts hd hguid h0⟩

lemma zero_iff (hs : Dropped d s (fun _ => True) (Gone d)) (hc : ∀ k, ¬CountsDown d k)
    (hp : s.portGuidTbl.get g = some p) (hsw : d.isSwitch p.node = false) :
    Zero s g ↔ ¬Found d p.physp ∨ g ≠ d.smPortGuid ∧ ∃ r, (d.physps p.physp).remote = some r ∧ Gone d r.1 := by
  have hstay := hs.stays hp
  have hz : Zero s g ↔ p.discoveryCount = 0 := by
    constructor
    · rintro ⟨p', hp', h0⟩
      exact Option.some.inj (hp.symm.trans hp') ▸ h0
    · exact fun h0 => ⟨p, hp, h0⟩
  rw [hz, ← hs.reset g p hp hsw]
  by_cases hres : g ∈ s.reset
  · refine iff_of_true ?_ (.inr hres)
    rw [hs.wrapped g p hp hsw hres, if_neg]
    intro hw
    refine hc p.physp ⟨hsw, fun hl => hstay (.inl hl), ?_, hw⟩
    obtain ⟨hsm, -⟩ := (hs.reset g p hp hsw).mp hres
    rwa [← hs.guid p.physp hstay, (hs.linked.ports g p hp).2.1]
  · rw [or_iff_left hres, ← count_found hs hp hsw hres, not_not]

variable (h : Consistent d) (hs : Dropped d s (fun _ => True) (Gone d))
include h hs

lemma screened : Screened s := by
  refine ⟨hs.linked, hs.referring, fun n => ?_⟩
  by_cases hg : Gone d n
  · rw [Subnet.isSwitch, Subnet.hasSw, hs.nodes, if_pos hg]
    rfl
  · rw [hs.isSwitch_eq hg, hs.hasSw_eq hg]
    cases hsw : d.isSwitch n with
    | false => exact (h.noSw n hsw).symm
    | true =>
      by_contra hc
      exact hg (.inr ⟨hsw, .inl (by simpa using Ne.symm hc)⟩)

lemma count_switch (hp : s.portGuidTbl.get g = some p) (hsw : d.isSwitch p.node = true) :
    p.discoveryCount ≠ 0 ∧ g ∉ s.reset := by
  have hstay := hs.stays hp
  have hhas : d.hasSw p.node = true := by
    rw [← hs.hasSw_eq hstay, ← (screened h hs).switches, hs.isSwitch_eq hstay, hsw]
  have hres := hs.spared g p hp hhas
  refine ⟨?_, hres⟩
  obtain ⟨h0, hguid, hnum⟩ := hs.linked.ports g p hp
  have hphysp : p.physp = (p.node, 0) := Prod.ext rfl (hnum (by rw [hs.isSwitch_eq hstay, hsw]))
  have hfound : Found d (p.node, 0) := by
    by_contra hc
    exact hstay (.inr ⟨hsw, .inr (.inr hc)⟩)
  have hdisc : (s.physps (p.node, 0)).discovered = true :=
    (hs.found (p.node, 0) hstay).mpr ⟨hfound.1, fun hc => hfound.2 hc.2⟩
  rw [hs.counted g p hp hres]
  exact Finset.card_ne_zero_of_mem (hs.mem_discoveredPorts hdisc (hphysp ▸ hguid) h0)

/-- What it takes for the removal of one port to reset another. -/
lemma pulls_iff (hp : s.portGuidTbl.get g = some p) : Pulls s b g ↔ g ≠ d.smPortGuid ∧ d.isSwitch p.node = false ∧
    ∃ r, (d.physps p.physp).remote = some r ∧ ¬Gone d r.1 ∧ d.isSwitch r.1 = false ∧ ¬Found d r ∧
      (d.physps r).portGuid = b ∧ (d.portGuidTbl.get b).isSome := by
  have hstay := hs.stays hp
  constructor
  · rintro ⟨⟨q', hq', h0⟩, hsm, p', q, hp', hq, hhas, hr⟩
    obtain rfl : p = p' := Option.some.inj (hp.symm.trans hp')
    obtain rfl : q' = q := Option.some.inj (hq'.symm.trans hq)
    have hqstay := hs.stays hq
    have hpsw : d.isSwitch p.node = false := by
      rw [← hs.isSwitch_eq hstay, (screened h hs).switches, hhas]
    have hqsw : d.isSwitch q'.node = false := by
      by_contra hc
      exact (count_switch h hs hq (by simpa using hc)).1 h0
    have hrd := ((hs.links p.physp q'.physp hpsw (.inl hqsw)).mp hr).1
    have hback := (h.linked.symm _ _ hrd).2.2
    have hres : b ∉ s.reset := by
      rw [hs.reset b q' hq hqsw]
      rintro ⟨-, r, hr', hg⟩
      obtain rfl : p.physp = r := Option.some.inj (hback.symm.trans hr')
      exact hstay hg
    refine ⟨hs.sm ▸ hsm, hpsw, q'.physp, hrd, hqstay, hqsw, fun hc => ?_, ?_, ?_⟩
    · exact (count_found hs hq hqsw hres).mpr hc h0
    · rw [← hs.guid q'.physp hqstay]
      exact (hs.linked.ports b q' hq).2.1
    · obtain ⟨q₀, hq₀, -⟩ := hs.shrinks.ports b q' hq
      rw [hq₀]
      rfl
  · rintro ⟨hsm, hpsw, r, hrd, hrstay, hrsw, hfound, hguid, hsome⟩
    obtain ⟨q₀, hq₀⟩ := Option.isSome_iff_exists.mp hsome
    have hback := (h.linked.symm _ _ hrd).2.2
    obtain rfl : r = q₀.physp := by
      refine physp_unique h.linked hq₀ ?_ hguid
      have hnode := (owned_iff h.linked hq₀ (n := r.1)).mp ⟨r.2, (h.linked.ports b q₀ hq₀).1, hguid⟩
      rw [hnode, hrsw]
    obtain ⟨q, hq⟩ := Option.isSome_iff_exists.mp (hs.kept b q₀ hq₀ hrstay)
    obtain ⟨q₁, hq₁, hqp, -⟩ := hs.shrinks.ports b q hq
    obtain rfl : q₀ = q₁ := Option.some.inj (hq₀.symm.trans hq₁)
    have hqsw : d.isSwitch q.node = false := Port.node_eq hqp ▸ hrsw
    have hres : b ∉ s.reset := by
      rw [hs.reset b q hq hqsw, hqp]
      rintro ⟨-, r, hr', hg⟩
      obtain rfl : p.physp = r := Option.some.inj (hback.symm.trans hr')
      exact hstay hg
    refine ⟨⟨q, hq, ?_⟩, hs.sm.symm ▸ hsm, p, q, hp, hq, ?_, ?_⟩
    · by_contra hc
      exact hfound (hqp ▸ (count_found hs hq hqsw hres).mp hc)
    · rw [hs.hasSw_eq hstay, h.noSw _ hpsw]
    · rw [hqp]
      exact (hs.links p.physp q₀.physp hpsw (.inl hrsw)).mpr ⟨hrd, hstay, hrstay⟩

lemma swept_get (hp : s.portGuidTbl.get g = some p) :
    (pass₃ s).portGuidTbl.get g = none ↔ Zero s g ∨ ∃ b < g, Pulls s b g := by
  have hmem : g ∈ s.portGuidTbl.keys := Qmap.mem_keys.mpr ⟨p, hp⟩
  rw [(pass₃_swept (screened h hs)).ports g]
  split_ifs with hc
  · exact iff_of_true rfl hc.2
  · rw [resetIf_eq_none, hp]
    exact iff_of_false nofun fun hc' => hc ⟨hmem, hc'⟩

lemma switch_stays (hp : s.portGuidTbl.get g = some p) (hsw : d.isSwitch p.node = true) :
    (pass₃ s).portGuidTbl.get g ≠ none := by
  rw [Ne, swept_get h hs hp]
  rintro (⟨p', hp', h0⟩ | ⟨b, -, hpull⟩)
  · obtain rfl : p = p' := Option.some.inj (hp.symm.trans hp')
    exact (count_switch h hs hp hsw).1 h0
  · exact absurd (((pulls_iff h hs hp).mp hpull).2.1.symm.trans hsw) Bool.false_ne_true

lemma pulls_late (hr : ∀ r k, ¬ResetsLate d r k) (hp : s.portGuidTbl.get g = some p) (hf : Found d p.physp) :
    ¬∃ b ≥ g, Pulls s b g := by
  rintro ⟨b, hb, hpull⟩
  have hstay := hs.stays hp
  obtain ⟨hsm, hsw, r, hrd, hrstay, hrsw, hfound, hguid, hsome⟩ := (pulls_iff h hs hp).mp hpull
  have hg : (d.physps p.physp).portGuid = g := by
    rw [← hs.guid p.physp hstay]
    exact (hs.linked.ports g p hp).2.1
  refine hr r p.physp ⟨hrd, ⟨hsw, fun hc => hstay (.inl hc), hf⟩,
      ⟨hrsw, fun hc => hrstay (.inl hc), hfound⟩, ?_, ?_, ?_⟩
  · rwa [hguid]
  · rwa [hg]
  · rw [hg, hguid]
    refine lt_of_le_of_ne hb ?_
    rintro rfl
    have hself : r = p.physp := by
      obtain ⟨p₀, hp₀, hpp, -⟩ := hs.shrinks.ports g p hp
      rw [hpp]
      exact physp_unique h.linked hp₀ (Port.node_eq hpp ▸ hsw) hguid
    exact hfound (hself ▸ hf)

/-- The ports that are gone at the end. -/
lemma removed_get (hc : ∀ k, ¬CountsDown d k) (hr : ∀ r k, ¬ResetsLate d r k) (hp : d.portGuidTbl.get g = some p) :
    (pass₃ s).portGuidTbl.get g = none ↔ Removed d g := by
  have hrem : Removed d g ↔ (Gone d p.node ∨ d.isSwitch p.node = false ∧
      (¬Found d p.physp ∨ g ≠ d.smPortGuid ∧ ∃ r, (d.physps p.physp).remote = some r ∧
        (Gone d r.1 ∨ d.isSwitch r.1 = false ∧ ¬Found d r ∧
            (d.portGuidTbl.get (d.physps r).portGuid).isSome))) := by
    rw [Removed, hp]
    simp only [Option.some.injEq, exists_eq_left']
  rw [hrem]
  by_cases hg : Gone d p.node
  · refine iff_of_true ?_ (.inl hg)
    rw [Option.eq_none_iff_forall_ne_some]
    intro q hq
    obtain ⟨p₁, hp₁, -⟩ := (pass₃_swept (screened h hs)).shrinks.ports g q hq
    obtain ⟨p₀, hp₀, hpp, -⟩ := hs.shrinks.ports g p₁ hp₁
    obtain rfl : p = p₀ := Option.some.inj (hp.symm.trans hp₀)
    exact hs.stays hp₁ (Port.node_eq hpp ▸ hg)
  obtain ⟨q, hq⟩ := Option.isSome_iff_exists.mp (hs.kept g p hp hg)
  obtain ⟨p₀, hp₀, hqp, -⟩ := hs.shrinks.ports g q hq
  obtain rfl : p = p₀ := Option.some.inj (hp.symm.trans hp₀)
  rw [or_iff_right hg]
  by_cases hsw : d.isSwitch p.node = false
  swap
  · exact iff_of_false (switch_stays h hs hq (by rw [Port.node_eq hqp]; simpa using hsw)) fun hc => hsw hc.1
  have hqsw : d.isSwitch q.node = false := Port.node_eq hqp ▸ hsw
  rw [swept_get h hs hq, zero_iff hs hc hq hqsw, hqp, and_iff_right hsw]
  constructor
  · rintro ((hf | ⟨hsm, r, hrd, hrg⟩) | ⟨b, -, hpull⟩)
    · exact .inl hf
    · exact .inr ⟨hsm, r, hrd, .inl hrg⟩
    · obtain ⟨hsm, -, r, hrd, -, hrsw, hfound, hguid, hsome⟩ := (pulls_iff h hs hq).mp hpull
      exact .inr ⟨hsm, r, hqp ▸ hrd, .inr ⟨hrsw, hfound, hguid.symm ▸ hsome⟩⟩
  · rintro (hf | ⟨hsm, r, hrd, hrg | ⟨hrsw, hfound, hsome⟩⟩)
    · exact .inl (.inl hf)
    · exact .inl (.inr ⟨hsm, r, hrd, hrg⟩)
    · by_cases hrg : Gone d r.1
      · exact .inl (.inr ⟨hsm, r, hrd, hrg⟩)
      by_cases hf : Found d p.physp
      swap
      · exact .inl (.inl hf)
      have hpull : Pulls s (d.physps r).portGuid g :=
        (pulls_iff h hs hq).mpr ⟨hsm, hqsw, r, hqp.symm ▸ hrd, hrg, hrsw, hfound, rfl, hsome⟩
      refine .inr ⟨(d.physps r).portGuid, ?_, hpull⟩
      by_contra hlt
      exact pulls_late h hs hr hq (hqp.symm ▸ hf) ⟨_, not_lt.mp hlt, hpull⟩

/-- A port that is counted down stays although it has been reset. -/
lemma not_countsDown (hports : ∀ g p, (pass₃ s).portGuidTbl.get g = some p → p.discoveryCount ≠ 0 ∧
    g ∉ (pass₃ s).reset)
    (k : PhyspId) : ¬CountsDown d k := by
  rintro ⟨hsw, hlost, hsm, hw⟩
  have hstay : ¬Gone d k.1 := by
    rintro (hc | ⟨hc, -⟩)
    · exact hlost hc
    · exact absurd (hsw.symm.trans hc) Bool.false_ne_true
  obtain ⟨p, hp⟩ := Option.isSome_iff_exists.mp (h.discovered k hw.2.1)
  have hnode : p.node = k.1 := (owned_iff h.linked hp).mp ⟨k.2, (h.linked.ports _ p hp).1, rfl⟩
  obtain rfl : k = p.physp := physp_unique h.linked hp (hnode ▸ hsw) rfl
  obtain ⟨q, hq⟩ := Option.isSome_iff_exists.mp (hs.kept _ p hp hstay)
  obtain ⟨p₀, hp₀, hqp, -⟩ := hs.shrinks.ports _ q hq
  obtain rfl : p = p₀ := Option.some.inj (hp.symm.trans hp₀)
  have hqsw : d.isSwitch q.node = false := Port.node_eq hqp ▸ hsw
  obtain ⟨r, hrd, hrlost, hlt⟩ := hw.2.2.2
  have hres : (d.physps p.physp).portGuid ∈ s.reset := by
    rw [hs.reset _ q hq hqsw, hqp]
    exact ⟨hsm, r, hrd, .inl hrlost⟩
  have hcount : q.discoveryCount ≠ 0 := by
    rw [hs.wrapped _ q hq hqsw hres, hqp, if_pos hw]
    decide
  have hkept : (pass₃ s).portGuidTbl.get (d.physps p.physp).portGuid ≠ none := by
    rw [Ne, swept_get h hs hq]
    rintro (⟨q', hq', h0⟩ | ⟨b, -, hpull⟩)
    · obtain rfl : q = q' := Option.some.inj (hq.symm.trans hq')
      exact hcount h0
    · obtain ⟨-, -, r', hrd', hgone, -⟩ := (pulls_iff h hs hq).mp hpull
      rw [hqp, hrd, Option.some.injEq] at hrd'
      exact hgone (.inl (hrd' ▸ hrlost))
  obtain ⟨q', hq'⟩ := Option.ne_none_iff_exists'.mp hkept
  refine (hports _ q' hq').2 (((pass₃_swept (screened h hs)).reset _ ?_).mpr (.inl hres))
  rw [hq']
  rfl

/-- A port that is reset late stays with a count of zero. -/
lemma not_resetsLate (hports : ∀ g p, (pass₃ s).portGuidTbl.get g = some p → p.discoveryCount ≠ 0 ∧
    g ∉ (pass₃ s).reset)
    (r k : PhyspId) : ¬ResetsLate d r k := by
  rintro ⟨hrd, ⟨hsw, hlost, hf⟩, ⟨hrsw, hrlost, hrf⟩, hsome, hsm, hlt⟩
  have hstay : ∀ n, d.isSwitch n = false → ¬Lost d n → ¬Gone d n := by
    rintro n hn hl (hc | ⟨hc, -⟩)
    · exact hl hc
    · exact absurd (hn.symm.trans hc) Bool.false_ne_true
  obtain ⟨p, hp⟩ := Option.isSome_iff_exists.mp (h.discovered k hf.1)
  have hnode : p.node = k.1 := (owned_iff h.linked hp).mp ⟨k.2, (h.linked.ports _ p hp).1, rfl⟩
  obtain rfl : k = p.physp := physp_unique h.linked hp (hnode ▸ hsw) rfl
  obtain ⟨q, hq⟩ := Option.isSome_iff_exists.mp (hs.kept _ p hp (hstay _ hsw hlost))
  obtain ⟨p₀, hp₀, hqp, -⟩ := hs.shrinks.ports _ q hq
  obtain rfl : p = p₀ := Option.some.inj (hp.symm.trans hp₀)
  have hqsw : d.isSwitch q.node = false := Port.node_eq hqp ▸ hsw
  have hrstay := hstay r.1 hrsw hrlost
  have hpull : Pulls s (d.physps r).portGuid (d.physps p.physp).portGuid :=
    (pulls_iff h hs hq).mpr ⟨hsm, hqsw, r, hqp.symm ▸ hrd, hrstay, hrsw, hrf, rfl, hsome⟩
  have hres : (d.physps p.physp).portGuid ∉ s.reset := by
    rw [hs.reset _ q hq hqsw, hqp]
    rintro ⟨-, r', hrd', hg⟩
    rw [hrd, Option.some.injEq] at hrd'
    exact hrstay (hrd' ▸ hg)
  have hkept : (pass₃ s).portGuidTbl.get (d.physps p.physp).portGuid ≠ none := by
    rw [Ne, swept_get h hs hq]
    rintro (⟨q', hq', h0⟩ | ⟨b, hb, hpull'⟩)
    · obtain rfl : q = q' := Option.some.inj (hq.symm.trans hq')
      exact (count_found hs hq hqsw hres).mpr (hqp.symm ▸ hf) h0
    · obtain ⟨-, -, r', hrd', -, -, -, hguid, -⟩ := (pulls_iff h hs hq).mp hpull'
      rw [hqp, hrd, Option.some.injEq] at hrd'
      rw [← hguid, ← hrd'] at hb
      exact lt_asymm hb hlt
  obtain ⟨q', hq'⟩ := Option.ne_none_iff_exists'.mp hkept
  have hmem : (d.physps r).portGuid ∈ s.portGuidTbl.keys := by
    obtain ⟨⟨b, hb, -⟩, -⟩ := hpull
    exact Qmap.mem_keys.mpr ⟨b, hb⟩
  refine (hports _ q' hq').2 (((pass₃_swept (screened h hs)).reset _ ?_).mpr (.inr ⟨_, hmem, hpull⟩))
  rw [hq']
  rfl

lemma ports_stay (hc : ∀ k, ¬CountsDown d k) (hr : ∀ r k, ¬ResetsLate d r k) {q : Port}
    (hq : (pass₃ s).portGuidTbl.get g = some q) : q.discoveryCount ≠ 0 ∧ g ∉ (pass₃ s).reset := by
  have ht := pass₃_swept (screened h hs)
  obtain ⟨p, hp, hqp, -⟩ := ht.shrinks.ports g q hq
  have hno : ¬(Zero s g ∨ ∃ b < g, Pulls s b g) := by
    rw [← swept_get h hs hp, hq]
    exact nofun
  have hget := ht.ports g
  rw [if_neg fun hc => hno hc.2, hq, resetIf, hp, Option.map_some, Option.some.injEq] at hget
  have hsome : ((pass₃ s).portGuidTbl.get g).isSome := by rw [hq]; rfl
  have hcount : p.discoveryCount ≠ 0 := fun h0 => hno (.inl ⟨p, hp, h0⟩)
  have hpull : ¬∃ b ∈ s.portGuidTbl.keys, Pulls s b g := by
    rintro ⟨b, -, hb⟩
    have hsw := ((pulls_iff h hs hp).mp hb).2.1
    have hf : Found d p.physp := by
      by_contra hf
      exact hno (.inl ((zero_iff hs hc hp hsw).mpr (.inl hf)))
    exact pulls_late h hs hr hp hf ⟨b, not_lt.mp fun hlt => hno (.inr ⟨b, hlt, hb⟩), hb⟩
  rw [if_neg hpull] at hget
  refine ⟨hget ▸ hcount, ?_⟩
  rw [ht.reset g hsome, or_iff_left hpull]
  cases hsw : d.isSwitch p.node with
  | true => exact (count_switch h hs hp hsw).2
  | false =>
    intro hres
    exact hno (.inl ((zero_iff hs hc hp hsw).mpr (.inr ((hs.reset g p hp hsw).mp hres))))

/-- The nodes that stay. -/
lemma nodes_stay {n : Guid} {N : Node} (hN : (pass₃ s).nodeGuidTbl.get n = some N) :
    N.discoveryCount ≠ 0 ∧ (N.isSwitch = true → N.sw = true ∧ ((pass₃ s).physps (n, 0)).discovered = true ∧
      ((pass₃ s).portGuidTbl.get ((pass₃ s).physps (n, 0)).portGuid).isSome) := by
  have ht := pass₃_swept (screened h hs)
  have hd := hs.nodes n
  rw [ht.nodes] at hN
  rw [hN] at hd
  split_ifs at hd with hg
  refine ⟨fun h0 => hg (.inl ⟨N, hd.symm, h0⟩), fun hNsw => ?_⟩
  have hsw : d.isSwitch n = true := by
    rw [Subnet.isSwitch, ← hd]
    exact hNsw
  have hbad : ¬(d.hasSw n = false ∨ d.portGuidTbl.get (d.physps (n, 0)).portGuid = none ∨ ¬Found d (n, 0)) :=
    fun hc => hg (.inr ⟨hsw, hc⟩)
  obtain ⟨hhas, hport, hfound⟩ := by simpa only [not_or, not_not] using hbad
  have hNhas : N.sw = true := by
    rw [Subnet.hasSw, ← hd] at hhas
    simpa using hhas
  obtain ⟨p, hp⟩ := Option.ne_none_iff_exists'.mp hport
  have hnode : p.node = n := (owned_iff h.linked hp).mp ⟨0, (h.linked.ports _ p hp).1, rfl⟩
  obtain ⟨q, hq⟩ := Option.isSome_iff_exists.mp (hs.kept _ p hp (hnode ▸ hg))
  obtain ⟨p₀, hp₀, hqp, -⟩ := hs.shrinks.ports _ q hq
  obtain rfl : p = p₀ := Option.some.inj (hp.symm.trans hp₀)
  have hstay := switch_stays h hs hq (by rw [Port.node_eq hqp, hnode, hsw])
  have hdisc : (s.physps (n, 0)).discovered = true := (hs.found (n, 0) hg).mpr ⟨hfound.1, fun hc => hfound.2 hc.2⟩
  have hguid := hs.guid (n, 0) hg
  rcases ht.physps (n, 0) with hk | hk | ⟨-, g', p', hp', hnone, hk⟩
  · rw [hk, hguid]
    exact ⟨hNhas, hdisc, Option.isSome_iff_ne_none.mpr hstay⟩
  · rw [hk]
    refine ⟨hNhas, hdisc, ?_⟩
    rw [show (cut (s.physps (n, 0))).portGuid = (s.physps (n, 0)).portGuid from rfl, hguid]
    exact Option.isSome_iff_ne_none.mpr hstay
  · have hnode' : p'.node = n := congrArg Prod.fst hk
    exact absurd hnone (switch_stays h hs hp' (by rw [hnode', hsw]))

/-- The table of the LIDs at the end. -/
lemma lids_agree (hrem : ∀ g p, d.portGuidTbl.get g = some p →
    ((pass₃ s).portGuidTbl.get g = none ↔ Removed d g)) :
    (∀ lid g, (pass₃ s).portLidTbl lid = some g → ((pass₃ s).portGuidTbl.get g).isSome) ∧
      (∀ lid g, d.portLidTbl lid = some g → ((pass₃ s).portGuidTbl.get g).isSome →
          (pass₃ s).portLidTbl lid = some g) ↔
    ∀ lid g, d.portLidTbl lid = some g →
      (Removed d g ↔ ∃ g' p, d.portGuidTbl.get g' = some p ∧ Removed d g' ∧ (d.physps p.physp).lids lid) := by
  have hcleared : ∀ lid, Cleared d (pass₃ s) lid ↔
      ∃ g' p, d.portGuidTbl.get g' = some p ∧ Removed d g' ∧ (d.physps p.physp).lids lid := by
    intro lid
    refine exists_congr fun g => exists_congr fun p => and_congr_right fun hp => ?_
    rw [hrem g p hp]
  have hlids := (hs.shrinks.trans (pass₃_swept (screened h hs)).shrinks).lids
  have hsome : ∀ lid g, d.portLidTbl lid = some g → (((pass₃ s).portGuidTbl.get g).isSome ↔ ¬Removed d g) := by
    intro lid g hg
    obtain ⟨p, hp⟩ := Option.isSome_iff_exists.mp (h.lids lid g hg)
    rw [← hrem g p hp, Option.isSome_iff_ne_none]
  simp only [← hcleared]
  constructor
  · rintro ⟨hdangle, hkept⟩ lid g hg
    constructor
    · intro hr
      by_contra hc
      exact (hsome lid g hg).mp (hdangle lid g (by rw [hlids, if_neg hc, hg])) hr
    · intro hc
      by_contra hr
      have hlost := hkept lid g hg ((hsome lid g hg).mpr hr)
      rw [hlids, if_pos hc] at hlost
      exact absurd hlost nofun
  · intro hiff
    refine ⟨fun lid g hg => ?_, fun lid g hg hg' => ?_⟩
    · rw [hlids] at hg
      split_ifs at hg with hc
      exact (hsome lid g hg).mpr (mt (hiff lid g hg).mp hc)
    · rw [hlids, if_neg (mt (hiff lid g hg).mpr ((hsome lid g hg).mp hg')), hg]

lemma swept_clean_iff : Clean d (pass₃ s) ↔ Orderly d := by
  have ht := pass₃_swept (screened h hs)
  constructor
  · intro hclean
    have hc := not_countsDown h hs hclean.ports
    have hr := not_resetsLate h hs hclean.ports
    exact ⟨hc, hr, (lids_agree h hs fun g p hp => removed_get h hs hc hr hp).mp ⟨hclean.lids, hclean.kept⟩⟩
  · rintro ⟨hc, hr, hl⟩
    obtain ⟨hdangle, hkept⟩ := (lids_agree h hs fun g p hp => removed_get h hs hc hr hp).mpr hl
    exact
      { nodes := fun n N hN => (nodes_stay h hs hN).1
        switches := fun n N hN => (nodes_stay h hs hN).2
        ports := fun g q hq => ports_stay h hs hc hr hq
        linked := ht.linked
        referring := ht.referring
        lids := hdangle
        kept := hkept }

end Screened

/-- `osm_drop_mgr_process` leaves a consistent database exactly when no port is counted down from zero or reset
after it has been looked at, and the LIDs are those in the ranges of their ports. -/
theorem osmDropMgrProcess_clean_iff (d : Subnet) (h : Consistent d) :
    Clean d (osmDropMgrProcess d) ↔ Orderly d := by
  have h₀ : Consistent { d with reset := [] } :=
    { linked := ⟨h.linked.placed, h.linked.symm, h.linked.owner, h.linked.ports⟩
      referring := h.referring.of_same ⟨rfl, rfl, rfl, rfl, rfl, rfl, rfl, rfl, rfl⟩ fun _ => rfl
      hasSw := h.hasSw
      size := h.size
      counted := h.counted
      discovered := h.discovered
      lids := h.lids
      range := h.range }
  have hiff := swept_clean_iff h₀ (pass₂_dropped h₀ (pass₁_dropped h₀ rfl))
  have hclean : ∀ t, Clean { d with reset := [] } t ↔ Clean d t := fun t =>
    ⟨fun hc => ⟨hc.nodes, hc.switches, hc.ports, hc.linked, hc.referring, hc.lids, hc.kept⟩,
      fun hc => ⟨hc.nodes, hc.switches, hc.ports, hc.linked, hc.referring, hc.lids, hc.kept⟩⟩
  have horderly : Orderly { d with reset := [] } ↔ Orderly d :=
    ⟨fun ho => ⟨ho.counts, ho.resets, ho.lids⟩, fun ho => ⟨ho.counts, ho.resets, ho.lids⟩⟩
  exact (hclean _).symm.trans (hiff.trans horderly)

section BackToBack

/-- Two channel adapters on one link; a P_Key block of the second has not been received. -/
def backToBack (sm : Guid) : Subnet where
  nodeGuidTbl := (Qmap.insert ∅ 10 ⟨false, 1, false, 2⟩).insert 20 ⟨false, 1, false, 2⟩
  physps k := if k = (10, 1) then ⟨1, some (20, 1), true, 1, 0, 0, 0, true⟩
    else if k = (20, 1) then ⟨2, some (10, 1), true, 2, 0, 1, 0, true⟩
    else .destroyed
  portGuidTbl := (Qmap.insert ∅ 1 ⟨10, 1, 1⟩).insert 2 ⟨20, 1, 1⟩
  portLidTbl lid := if lid = 1 then some 1 else if lid = 2 then some 2 else none
  aliasPortGuidTbl := (Qmap.insert ∅ 1 1).insert 2 2
  smGuidTbl := ∅
  rtrGuidTbl := ∅
  aliasGuidList := []
  swGuidTbl := ∅
  mcast := .init
  smPortGuid := sm
  forceHeavySweep := false
  subnetInitializationError := false
  reset := []

variable (sm : Guid)

lemma backToBack_ports (g : Guid) (p : Port) (hp : (backToBack sm).portGuidTbl.get g = some p) :
    g = 1 ∧ p = ⟨10, 1, 1⟩ ∨ g = 2 ∧ p = ⟨20, 1, 1⟩ := by
  rw [Qmap.get_eq_some] at hp
  change (g, p) ∈ [((1 : Guid), Port.mk 10 1 1), (2, ⟨20, 1, 1⟩)] at hp
  simpa using hp

lemma backToBack_physps (k : PhyspId) : k = (10, 1) ∧ (backToBack sm).physps k = ⟨1, some (20, 1), true, 1,
    0, 0, 0, true⟩ ∨
    k = (20, 1) ∧ (backToBack sm).physps k = ⟨2, some (10, 1), true, 2, 0, 1, 0, true⟩ ∨
    (backToBack sm).physps k = .destroyed := by
  rw [backToBack]
  dsimp only
  split_ifs with h₁ h₂
  · exact .inl ⟨h₁, rfl⟩
  · exact .inr (.inl ⟨h₂, rfl⟩)
  · exact .inr (.inr rfl)

lemma backToBack_guid (k : PhyspId) (hk : ((backToBack sm).physps k).portGuid ≠ 0) :
    k = (10, 1) ∧ ((backToBack sm).physps k).portGuid = 1 ∨ k = (20, 1) ∧
        ((backToBack sm).physps k).portGuid = 2 := by
  rcases backToBack_physps sm k with ⟨rfl, -⟩ | ⟨rfl, -⟩ | hp
  · exact .inl ⟨rfl, rfl⟩
  · exact .inr ⟨rfl, rfl⟩
  · rw [hp] at hk
    exact absurd rfl hk

lemma backToBack_nodes (n : Guid) (N : Node) (hN : (backToBack sm).nodeGuidTbl.get n = some N) :
    (n = 10 ∨ n = 20) ∧ N = ⟨false, 1, false, 2⟩ := by
  rw [Qmap.get_eq_some] at hN
  change (n, N) ∈ [((10 : Guid), Node.mk false 1 false 2), (20, ⟨false, 1, false, 2⟩)] at hN
  simp only [List.mem_cons, Prod.mk.injEq, List.not_mem_nil, or_false] at hN
  tauto

lemma backToBack_isSwitch (n : Guid) : (backToBack sm).isSwitch n = false := by
  rw [Subnet.isSwitch]
  cases hN : (backToBack sm).nodeGuidTbl.get n with
  | none => rfl
  | some N => rw [Option.any_some, (backToBack_nodes sm n N hN).2]

lemma backToBack_linked : Linked (backToBack sm) := by
  refine ⟨fun n i hv => ?_, fun k r hr => ?_, fun k k' hv hg => ?_, fun g p hp => ?_⟩
  · rcases backToBack_physps sm (n, i) with ⟨hk, -⟩ | ⟨hk, -⟩ | hk
    · obtain ⟨rfl, rfl⟩ := Prod.mk.inj hk
      exact ⟨⟨false, 1, false, 2⟩, rfl, by decide⟩
    · obtain ⟨rfl, rfl⟩ := Prod.mk.inj hk
      exact ⟨⟨false, 1, false, 2⟩, rfl, by decide⟩
    · rw [hk] at hv
      exact absurd rfl hv
  · rcases backToBack_physps sm k with ⟨rfl, hk⟩ | ⟨rfl, hk⟩ | hk
    · rw [hk, Option.some.injEq] at hr
      subst hr
      exact ⟨Nat.one_ne_zero, two_ne_zero, rfl⟩
    · rw [hk, Option.some.injEq] at hr
      subst hr
      exact ⟨two_ne_zero, Nat.one_ne_zero, rfl⟩
    · rw [hk] at hr
      exact absurd hr nofun
  · have hkk : k' = k := by
      rcases backToBack_guid sm k hv with ⟨rfl, hk⟩ | ⟨rfl, hk⟩ <;>
        rcases backToBack_guid sm k' (hg ▸ hv) with ⟨rfl, hk'⟩ | ⟨rfl, hk'⟩
      · rfl
      · exact absurd (hk'.symm.trans (hg.trans hk)) (by decide)
      · exact absurd (hk'.symm.trans (hg.trans hk)) (by decide)
      · rfl
    exact ⟨congrArg Prod.fst hkk, .inl (congrArg Prod.snd hkk)⟩
  · rcases backToBack_ports sm g p hp with ⟨rfl, rfl⟩ | ⟨rfl, rfl⟩
    · exact ⟨by decide, rfl, fun _ => by contradiction⟩
    · exact ⟨by decide, rfl, fun _ => by contradiction⟩

lemma backToBack_referring : Referring (backToBack sm) where
  aliases a g ha := by
    rw [Qmap.get_eq_some] at ha
    change (a, g) ∈ [((1 : Guid), (1 : Guid)), (2, 2)] at ha
    simp only [List.mem_cons, Prod.mk.injEq, List.not_mem_nil, or_false] at ha
    rcases ha with ⟨-, rfl⟩ | ⟨-, rfl⟩ <;> rfl
  sms g hg := absurd hg Bool.false_ne_true
  routers g p hg := absurd hg nofun
  aliasList g hg := absurd hg List.not_mem_nil
  tidy m := ⟨fun _ => List.not_mem_nil, fun _ => List.not_mem_nil⟩
  members m guid g hj := by
    obtain ⟨_, _, hg, -⟩ := hj
    exact absurd hg nofun
  switches g n hg := absurd hg nofun

lemma backToBack_consistent : Consistent (backToBack sm) where
  linked := backToBack_linked sm
  referring := backToBack_referring sm
  hasSw n hn := by
    rw [Subnet.hasSw, Option.any_eq_true] at hn
    obtain ⟨N, hN, hsw⟩ := hn
    rw [(backToBack_nodes sm n N hN).2] at hsw
    exact absurd hsw Bool.false_ne_true
  size n N hN := by
    rw [(backToBack_nodes sm n N hN).2]
    decide
  counted g p hp := by
    rcases backToBack_ports sm g p hp with ⟨rfl, rfl⟩ | ⟨rfl, rfl⟩ <;> rfl
  discovered k hk := by
    rcases backToBack_physps sm k with ⟨rfl, hp⟩ | ⟨rfl, hp⟩ | hp
    · rfl
    · rfl
    · rw [hp] at hk
      exact absurd hk Bool.false_ne_true
  lids lid g hg := by
    rw [backToBack] at hg
    dsimp only at hg
    split_ifs at hg <;> obtain rfl := Option.some.inj hg <;> rfl
  range k := by
    rcases backToBack_physps sm k with ⟨-, hp⟩ | ⟨-, hp⟩ | hp <;> rw [hp] <;> decide

lemma backToBack_gone (n : Guid) : ¬Gone (backToBack sm) n := by
  rintro (⟨N, hN, h0⟩ | ⟨hsw, -⟩)
  · rw [(backToBack_nodes sm n N hN).2] at h0
    exact Nat.one_ne_zero h0
  · exact absurd ((backToBack_isSwitch sm n).symm.trans hsw) Bool.false_ne_true

lemma backToBack_found (k : PhyspId) : Found (backToBack sm) k ↔ k = (10, 1) := by
  constructor
  · rintro ⟨hd, hm⟩
    rcases backToBack_physps sm k with ⟨rfl, -⟩ | ⟨rfl, -⟩ | hp
    · rfl
    · exact absurd ⟨two_ne_zero, Nat.one_ne_zero, .inr Nat.one_ne_zero⟩ hm
    · rw [hp] at hd
      exact absurd hd Bool.false_ne_true
  · rintro rfl
    exact ⟨rfl, fun hc => hc.2.1 rfl⟩

lemma backToBack_removed (g : Guid) : Removed (backToBack 1) g ↔ g = 2 := by
  constructor
  · rintro ⟨p, hp, hg | ⟨-, hf | ⟨hsm, -⟩⟩⟩
    · exact absurd hg (backToBack_gone 1 _)
    · rcases backToBack_ports 1 g p hp with ⟨-, rfl⟩ | ⟨rfl, -⟩
      · exact absurd ((backToBack_found 1 _).mpr rfl) hf
      · rfl
    · rcases backToBack_ports 1 g p hp with ⟨rfl, -⟩ | ⟨rfl, -⟩
      · exact absurd rfl hsm
      · rfl
  · rintro rfl
    refine ⟨⟨20, 1, 1⟩, rfl, .inr ⟨rfl, .inl ?_⟩⟩
    rw [backToBack_found]
    decide

lemma backToBack_orderly : Orderly (backToBack 1) where
  counts k := by
    rintro ⟨-, -, -, -, -, -, r, -, hl, -⟩
    exact backToBack_gone 1 r.1 (.inl hl)
  resets r k := by
    rintro ⟨-, ⟨-, -, hf⟩, -, -, hsm, -⟩
    obtain rfl := (backToBack_found 1 k).mp hf
    exact hsm rfl
  lids lid g hg := by
    simp only [backToBack_removed]
    constructor
    · rintro rfl
      refine ⟨2, ⟨20, 1, 1⟩, rfl, rfl, ?_⟩
      obtain rfl : lid = 2 := by
        rw [backToBack] at hg
        dsimp only at hg
        split_ifs at hg with h₁ h₂
        · exact absurd (Option.some.inj hg) (by decide)
        · exact h₂
      decide
    · rintro ⟨g', p, hp, rfl, hlid⟩
      obtain ⟨-, rfl⟩ := (backToBack_ports 1 2 p hp).resolve_left fun hc => absurd hc.1 (by decide)
      obtain rfl : lid = 2 := le_antisymm hlid.2 hlid.1
      exact (Option.some.inj hg).symm

/-- The SM's own port has lost a P_Key block: it goes, and its peer stays with a count of zero. -/
theorem backToBack_not_clean : Consistent (backToBack 2) ∧ ¬Clean (backToBack 2)
    (osmDropMgrProcess (backToBack 2)) := by
  refine ⟨backToBack_consistent 2, fun hc => ?_⟩
  have hport : (osmDropMgrProcess (backToBack 2)).portGuidTbl.get 1 = some ⟨10, 1, 0⟩ := by
    decide +kernel
  exact (hc.ports 1 _ hport).1 rfl

theorem backToBack_clean : Clean (backToBack 1) (osmDropMgrProcess (backToBack 1)) :=
  (osmDropMgrProcess_clean_iff (backToBack 1) (backToBack_consistent 1)).mpr backToBack_orderly

end BackToBack

end OpenSM.DropMgr
