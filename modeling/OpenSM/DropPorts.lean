import OpenSM.DropSweep

/-! The third pass: ports that were not discovered, and the ports on the other side of their links. -/

namespace OpenSM.DropMgr

open Lib Lib.Folds Multicast

section Ports

variable {s t : Subnet} {ks : List Guid} {g b : Guid}

/-- A port that the third pass finds with a count of zero, when nothing resets it first. -/
def Zero (s : Subnet) (g : Guid) : Prop := ∃ p, s.portGuidTbl.get g = some p ∧ p.discoveryCount = 0

def Pulls (s : Subnet) (b g : Guid) : Prop :=
  Zero s b ∧ g ≠ s.smPortGuid ∧ ∃ p q, s.portGuidTbl.get g = some p ∧ s.portGuidTbl.get b = some q ∧
    s.hasSw p.node = false ∧ (s.physps p.physp).remote = some q.physp

structure Screened (s : Subnet) : Prop where
  linked : Linked s
  referring : Referring s
  switches : ∀ n, s.isSwitch n = s.hasSw n

open Classical in
structure Swept (s t : Subnet) (ks : List Guid) : Prop where
  linked : Linked t
  referring : Referring t
  shrinks : Shrinks s t
  nodes : t.nodeGuidTbl = s.nodeGuidTbl
  sm : t.smPortGuid = s.smPortGuid
  ports : ∀ g, t.portGuidTbl.get g = if g ∈ ks ∧ (Zero s g ∨ ∃ b < g, Pulls s b g) then none
    else resetIf s.portGuidTbl.get (fun g => ∃ b ∈ ks, Pulls s b g) g
  reset : ∀ g, (t.portGuidTbl.get g).isSome → (g ∈ t.reset ↔ g ∈ s.reset ∨ ∃ b ∈ ks, Pulls s b g)
  physps : ∀ k, t.physps k = s.physps k ∨ t.physps k = cut (s.physps k) ∨
    t.physps k = .destroyed ∧ ∃ g p, s.portGuidTbl.get g = some p ∧ t.portGuidTbl.get g = none ∧ p.physp = k
  links : ∀ k r, (s.physps k).remote = some r → (t.physps k).remote = some r ∨
    ∃ g p, s.portGuidTbl.get g = some p ∧ t.portGuidTbl.get g = none ∧ (p.physp = k ∨ p.physp = r)

lemma swept_nil (h : Screened s) : Swept s s [] where
  linked := h.linked
  referring := h.referring
  shrinks := .of_ports (fun _ q hq => ⟨q, hq, rfl⟩) (fun _ => rfl) (fun _ _ => Iff.rfl) rfl
  nodes := rfl
  sm := rfl
  ports g := by simp [resetIf]
  reset g _ := by simp
  physps _ := .inl rfl
  links _ _ hr := .inl hr

namespace Swept

variable (h : Screened s) (ht : Swept s t ks)

include ht in
lemma remote_of {k r : PhyspId} (hr : (t.physps k).remote = some r) : (s.physps k).remote = some r := by
  rcases ht.physps k with hk | hk | ⟨hk, -⟩
  · rwa [hk] at hr
  · rw [hk] at hr
    exact absurd hr nofun
  · rw [hk] at hr
    exact absurd hr nofun

include ht in
lemma hasSw_eq (n : Guid) : t.hasSw n = s.hasSw n := by rw [Subnet.hasSw, Subnet.hasSw, ht.nodes]

include ht in
lemma isSwitch_eq (n : Guid) : t.isSwitch n = s.isSwitch n := by rw [Subnet.isSwitch, Subnet.isSwitch, ht.nodes]

include h ht in
/-- The ports that a removal resets are those it is said to pull. -/
lemma resets_iff {p q p' : Port} (hp : s.portGuidTbl.get g = some p) (hq : t.portGuidTbl.get g = some q)
    (hqp : q.physp = p.physp) (hrem : Zero s g ∨ ∃ b ∈ ks, Pulls s b g) {g' : Guid}
    (hp' : t.portGuidTbl.get g' = some p') : Resets t q.physp g' ↔ Pulls s g g' := by
  obtain ⟨p₀, hp₀, hpp, -⟩ := ht.shrinks.ports g' p' hp'
  constructor
  · rintro ⟨r, hr, hg, hsw, hsm⟩
    have hsr := ht.remote_of hr
    obtain ⟨h0, hguid, -⟩ := ht.linked.ports g' p' hp'
    have hnode : p'.node = r.1 := (ht.linked.owner r p'.physp (hg ▸ h0) (hguid.trans hg.symm)).1
    have hsw' : t.hasSw p'.node = false := hnode ▸ hsw
    have hnosw : t.isSwitch p'.node = false := by
      rw [ht.isSwitch_eq, h.switches, ← ht.hasSw_eq, hsw']
    obtain rfl : r = p'.physp := physp_unique ht.linked hp' hnosw hg
    have hback := (h.linked.symm _ _ hsr).2.2
    have hzero : Zero s g := by
      refine hrem.resolve_right ?_
      rintro ⟨b, hb, hzb, -, p₁, q₁, hp₁, hq₁, -, hr₁⟩
      obtain rfl : p = p₁ := Option.some.inj (hp.symm.trans hp₁)
      rw [← hqp, hsr, Option.some.injEq] at hr₁
      have hb' : b = g' := by
        rw [← (h.linked.ports b q₁ hq₁).2.1, ← hr₁, hpp, (h.linked.ports g' p₀ hp₀).2.1]
      have hgone := ht.ports g'
      rw [if_pos ⟨hb' ▸ hb, .inl (hb' ▸ hzb)⟩, hp'] at hgone
      exact absurd hgone nofun
    refine ⟨hzero, ht.sm ▸ hsm, p₀, p, hp₀, hp, ?_, ?_⟩
    · rw [← Port.node_eq hpp, ← ht.hasSw_eq, hsw']
    · rw [← hpp, ← hqp, hback]
  · rintro ⟨-, hsm, p₁, q₁, hp₁, hq₁, hsw, hr⟩
    obtain rfl : p₀ = p₁ := Option.some.inj (hp₀.symm.trans hp₁)
    obtain rfl : p = q₁ := Option.some.inj (hp.symm.trans hq₁)
    have hback := (h.linked.symm _ _ hr).2.2
    refine ⟨p₀.physp, ?_, ?_, ?_, ht.sm ▸ hsm⟩
    · rcases ht.links _ _ hback with hk | ⟨g₁, p₁, hg₁, hnone, hk⟩
      · rw [hqp, hk]
      · exfalso
        have hguid := (h.linked.ports g₁ p₁ hg₁).2.1
        rcases hk with hk | hk
        · rw [hk, (h.linked.ports g p hp).2.1] at hguid
          rw [← hguid, hq] at hnone
          exact absurd hnone nofun
        · rw [hk, (h.linked.ports g' p₀ hp₀).2.1] at hguid
          rw [← hguid, hp'] at hnone
          exact absurd hnone nofun
    · rw [← hpp]
      exact (ht.linked.ports g' p' hp').2.1
    · rw [ht.hasSw_eq]
      exact hsw

lemma removed_iff (hlt : ∀ b ∈ ks, b < g) (hall : ∀ b < g, (s.portGuidTbl.get b).isSome → b ∈ ks) :
    (∃ b < g, Pulls s b g) ↔ ∃ b ∈ ks, Pulls s b g := by
  constructor
  · rintro ⟨b, hb, hpull⟩
    refine ⟨b, hall b hb ?_, hpull⟩
    obtain ⟨-, -, -, q, -, hq, -⟩ := hpull
    rw [hq]
    rfl
  · rintro ⟨b, hb, hpull⟩
    exact ⟨b, hlt b hb, hpull⟩

lemma exists_append {P : Guid → Prop} : (∃ b ∈ ks ++ [g], P b) ↔ (∃ b ∈ ks, P b) ∨ P g := by
  simp [or_and_right, exists_or]

include ht in
open Classical in
lemma keep (hno : ¬(Zero s g ∨ ∃ b < g, Pulls s b g)) : Swept s t (ks ++ [g]) where
  linked := ht.linked
  referring := ht.referring
  shrinks := ht.shrinks
  nodes := ht.nodes
  sm := ht.sm
  ports g' := by
    have hpull : ¬Pulls s g g' := fun hc => hno (.inl hc.1)
    rw [ht.ports g', resetIf_congr (Q := fun g' => ∃ b ∈ ks ++ [g], Pulls s b g')]
    · by_cases hg : g' = g
      · subst hg
        rw [if_neg fun hc => hno hc.2, if_neg fun hc => hno hc.2]
      · have hmem : g' ∈ ks ++ [g] ↔ g' ∈ ks := by simp [hg]
        simp only [hmem]
    · rw [exists_append, or_iff_left hpull]
  reset g' hg' := by
    have hpull : ¬Pulls s g g' := fun hc => hno (.inl hc.1)
    rw [ht.reset g' hg', exists_append, or_iff_left hpull]
  physps := ht.physps
  links := ht.links

include h ht in
open Classical in
/-- A port that is removed. -/
lemma remove {q : Port} (hq : t.portGuidTbl.get g = some q) (hlt : ∀ b ∈ ks, b < g)
    (hrem : Zero s g ∨ ∃ b ∈ ks, Pulls s b g) : Swept s (dropMgrRemovePort t g q) (ks ++ [g]) := by
  obtain ⟨p, hp, hqp, hrange⟩ := ht.shrinks.ports g q hq
  have hg : g ∉ ks := fun hc => lt_irrefl _ (hlt g hc)
  have hports := removePort_ports t g q
  have hphysps : ∀ j, (dropMgrRemovePort t g q).physps j = if j = q.physp then .destroyed
      else if (t.physps q.physp).remote = some j then cut (t.physps j) else t.physps j := clean_physps _ _
  have hsame := clean_same (unregister t g q) q.physp
  have hgone : ∀ g', t.portGuidTbl.get g' = none → (dropMgrRemovePort t g q).portGuidTbl.get g' = none := by
    intro g' hnone
    rw [(hports g').1, resetIf, hnone]
    split_ifs <;> rfl
  have hgg : (dropMgrRemovePort t g q).portGuidTbl.get g = none := by rw [(hports g).1, if_pos rfl]
  have hreset : ∀ g' p', t.portGuidTbl.get g' = some p' → (Resets t q.physp g' ↔ Pulls s g g') :=
    fun g' p' hp' => ht.resets_iff h hp hq hqp hrem hp'
  refine ⟨ht.linked.removePort hq, ht.referring.removePort g q, ht.shrinks.trans ?_,
    hsame.nodeGuidTbl.trans ht.nodes, hsame.smPortGuid.trans ht.sm, fun g' => ?_, fun g' hg' => ?_, fun k => ?_,
    fun k r hr => ?_⟩
  · refine ⟨fun g' q' hq' => ?_, fun lid => ?_⟩
    · rw [(hports g').1] at hq'
      split_ifs at hq' with hne
      obtain ⟨p', hp', hqp', -⟩ := resetIf_some hq'
      refine ⟨p', hp', hqp', fun lid => ?_⟩
      have hne' : q'.physp ≠ q.physp := by
        intro he
        have hguid := (ht.linked.ports g' p' hp').2.1
        rw [← hqp', he, (ht.linked.ports g q hq).2.1] at hguid
        exact hne hguid.symm
      rw [hphysps, if_neg hne']
      split_ifs <;> exact Iff.rfl
    · have hiff : Cleared t (dropMgrRemovePort t g q) lid ↔ (t.physps q.physp).lids lid := by
        constructor
        · rintro ⟨g', p', hp', hnone, hlid⟩
          rw [(hports g').1] at hnone
          split_ifs at hnone with he
          · subst he
            obtain rfl : q = p' := Option.some.inj (hq.symm.trans hp')
            exact hlid
          · rw [resetIf, hp'] at hnone
            cases hnone
        · exact fun hlid => ⟨g, q, hq, hgg, hlid⟩
      have hlids : (dropMgrRemovePort t g q).portLidTbl lid =
          if (t.physps q.physp).lids lid then none else t.portLidTbl lid := by
        rw [dropMgrRemovePort, hsame.portLidTbl, unregister]
      rw [hlids]
      by_cases hlid : (t.physps q.physp).lids lid
      · rw [if_pos hlid, if_pos (hiff.mpr hlid)]
      · rw [if_neg hlid, if_neg (mt hiff.mp hlid)]
  · by_cases he : g' = g
    · subst he
      rw [hgg, if_pos]
      refine ⟨by simp, hrem.imp id ?_⟩
      rintro ⟨b, hb, hpull⟩
      exact ⟨b, hlt b hb, hpull⟩
    · have hmem : g' ∈ ks ++ [g] ↔ g' ∈ ks := by simp [he]
      rw [(hports g').1, if_neg he]
      simp only [hmem]
      cases hp' : t.portGuidTbl.get g' with
      | none =>
        rw [resetIf_eq_none.mpr hp']
        rw [ht.ports g'] at hp'
        by_cases hc : g' ∈ ks ∧ (Zero s g' ∨ ∃ b < g', Pulls s b g')
        · rw [if_pos hc]
        · rw [if_neg hc, resetIf_eq_none] at hp'
          rw [if_neg hc, resetIf_eq_none.mpr hp']
      | some p' =>
        rw [resetIf_congr (Q := fun g' => Pulls s g g') (hreset g' p' hp')]
        have hget := ht.ports g'
        split_ifs at hget with hc
        · rw [hp'] at hget
          cases hget
        · rw [if_neg hc, resetIf_of_eq hget, resetIf_resetIf]
          exact resetIf_congr exists_append.symm
  · have he : g' ≠ g := by
      rintro rfl
      rw [hgg] at hg'
      exact Bool.false_ne_true hg'
    obtain ⟨p', hp'⟩ : ∃ p', t.portGuidTbl.get g' = some p' := by
      rw [(hports g').1, if_neg he, isSome_resetIf] at hg'
      exact Option.isSome_iff_exists.mp hg'
    have hsome : (t.portGuidTbl.get g').isSome := by rw [hp']; rfl
    rw [(hports g').2, ht.reset g' hsome, exists_append, hreset g' p' hp', or_assoc]
    exact or_congr_right (or_congr_right (and_iff_left ⟨he, hsome⟩))
  · rw [hphysps]
    split_ifs with hk hcut
    · exact .inr (.inr ⟨rfl, g, p, hp, hgg, (hk.trans hqp).symm⟩)
    · rcases ht.physps k with hk' | hk' | ⟨hk', hrest⟩
      · exact .inr (.inl (by rw [hk']))
      · exact .inr (.inl (by rw [hk', cut, cut]))
      · obtain ⟨g', p', hp', hnone, hkp⟩ := hrest
        exact .inr (.inr ⟨by rw [hk']; rfl, g', p', hp', hgone g' hnone, hkp⟩)
    · rcases ht.physps k with hk' | hk' | ⟨hk', g', p', hp', hnone, hkp⟩
      · exact .inl hk'
      · exact .inr (.inl hk')
      · exact .inr (.inr ⟨hk', g', p', hp', hgone g' hnone, hkp⟩)
  · rcases ht.links k r hr with hk | ⟨g', p', hp', hnone, hkp⟩
    · by_cases hkq : k = q.physp
      · exact .inr ⟨g, p, hp, hgg, .inl (hqp.symm.trans hkq.symm)⟩
      · by_cases hcut : (t.physps q.physp).remote = some k
        · have hback := (ht.linked.symm _ _ hcut).2.2
          exact .inr ⟨g, p, hp, hgg, .inr (hqp.symm.trans (Option.some.inj (hback.symm.trans hk)))⟩
        · exact .inl (by rw [hphysps, if_neg hkq, if_neg hcut, hk])
    · exact .inr ⟨g', p', hp', hgone g' hnone, hkp⟩

include h ht in
lemma step {p : Port} (hp : s.portGuidTbl.get g = some p) (hlt : ∀ b ∈ ks, b < g)
    (hall : ∀ b < g, (s.portGuidTbl.get b).isSome → b ∈ ks) : Swept s (checkPort t g) (ks ++ [g]) := by
  have hg : g ∉ ks := fun hc => lt_irrefl _ (hlt g hc)
  have hget := ht.ports g
  rw [if_neg fun hc => hg hc.1] at hget
  obtain ⟨q, hq⟩ : ∃ q, t.portGuidTbl.get g = some q := by
    rw [← Option.isSome_iff_exists, hget, isSome_resetIf, hp]
    rfl
  have hzero : q.discoveryCount = 0 ↔ Zero s g ∨ ∃ b ∈ ks, Pulls s b g := by
    have hz : Zero s g ↔ p.discoveryCount = 0 := by
      constructor
      · rintro ⟨p', hp', h0⟩
        exact Option.some.inj (hp.symm.trans hp') ▸ h0
      · exact fun h0 => ⟨p, hp, h0⟩
    rw [hq, resetIf, hp, Option.map_some, Option.some.injEq] at hget
    by_cases hpull : ∃ b ∈ ks, Pulls s b g
    · rw [if_pos hpull] at hget
      exact iff_of_true (by rw [hget]; rfl) (.inr hpull)
    · rw [if_neg hpull] at hget
      rw [hget, or_iff_left hpull, hz]
  rw [checkPort, hq]
  dsimp only
  split_ifs with h0
  · exact ht.remove h hq hlt (hzero.mp h0)
  · refine ht.keep ?_
    rw [removed_iff hlt hall]
    exact mt hzero.mpr h0

end Swept

lemma pass₃_swept (h : Screened s) : Swept s (pass₃ s) s.portGuidTbl.keys := by
  refine foldl_handled checkPort (fun done st => Swept s st done) s.portGuidTbl.keys s (swept_nil h) ?_
  intro done g rest st hl hst
  obtain ⟨p, hp⟩ := Qmap.mem_keys.mp (hl ▸ List.mem_append_right done List.mem_cons_self)
  have hsorted := s.portGuidTbl.sorted_keys
  rw [hl, List.pairwise_append, List.pairwise_cons] at hsorted
  refine hst.step h hp (fun b hb => hsorted.2.2 b hb g List.mem_cons_self) fun b hb hsome => ?_
  have hmem : b ∈ done ++ g :: rest := by
    rw [← hl, Qmap.mem_keys]
    exact Option.isSome_iff_exists.mp hsome
  rcases List.mem_append.mp hmem with hmem | hmem
  · exact hmem
  · rcases List.mem_cons.mp hmem with rfl | hmem
    · exact absurd hb (lt_irrefl _)
    · exact absurd hb (hsorted.2.1.1 b hmem).not_gt

end Ports

end OpenSM.DropMgr
