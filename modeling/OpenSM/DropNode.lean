import OpenSM.DropSteps

/-! Removing a node, and what the checks of a node that stays do. -/

namespace OpenSM.DropMgr

open Lib Multicast

section Node

variable {d s : Subnet} {n : Guid} {i : ℕ} {g : Guid}

def Owns (d : Subnet) (n : Guid) (i : ℕ) (g : Guid) : Prop := g ≠ 0 ∧ (d.physps (n, i)).portGuid = g

open Classical in
structure Stripped (d s : Subnet) (n : Guid) (i : ℕ) : Prop where
  linked : Linked s
  referring : Referring s
  nodes : s.nodeGuidTbl = d.nodeGuidTbl
  sw : s.swGuidTbl = d.swGuidTbl
  sm : s.smPortGuid = d.smPortGuid
  gone : ∀ j < i, (s.physps (n, j)).portGuid = 0
  physps : ∀ k, ¬(k.1 = n ∧ k.2 < i) →
    s.physps k = if ∃ j < i, (d.physps k).remote = some (n, j) then cut (d.physps k) else d.physps k
  ports : ∀ g, s.portGuidTbl.get g = if ∃ j < i, Owns d n j g then none
    else resetIf d.portGuidTbl.get (fun g => ∃ j < i, Resets d (n, j) g) g
  reset : ∀ g, (∀ j, ¬Owns d n j g) →
    (g ∈ s.reset ↔ g ∈ d.reset ∨ (∃ j < i, Resets d (n, j) g) ∧ (d.portGuidTbl.get g).isSome)
  lids : ∀ lid, s.portLidTbl lid =
    if ∃ g p, d.portGuidTbl.get g = some p ∧ p.node = n ∧ p.portNum < i ∧ (d.physps p.physp).lids lid then none
    else d.portLidTbl lid

lemma stripped_zero (h : Linked d) (hr : Referring d) : Stripped d d n 0 where
  linked := h
  referring := hr
  nodes := rfl
  sw := rfl
  sm := rfl
  gone _ hj := absurd hj (Nat.not_lt_zero _)
  physps k _ := by simp
  ports g := by simp [resetIf]
  reset g _ := by simp
  lids lid := by simp

lemma physp_eq (h : Linked d) (hlow : ∀ j < i, (d.physps (n, j)).portGuid = 0)
    (hv : (d.physps (n, i)).portGuid ≠ 0) {p : Port} (hp : d.portGuidTbl.get (d.physps (n, i)).portGuid = some p) :
    p.physp = (n, i) := by
  obtain ⟨-, hguid, hnum⟩ := h.ports _ p hp
  obtain ⟨hn, hi⟩ := h.owner (n, i) p.physp hv hguid
  rcases hi with hi | hsw
  · exact Prod.ext hn hi
  · have h0 : p.portNum = 0 := hnum (by rwa [show p.node = n from hn])
    have hi0 : i = 0 := by
      by_contra hne
      have hzero := hlow 0 (Nat.pos_of_ne_zero hne)
      rw [← hguid] at hv
      apply hv
      rw [show p.physp = (n, 0) from Prod.ext hn h0]
      exact hzero
    exact Prod.ext hn (h0.trans hi0.symm)

open Classical in
/-- One round of the loop over the physical ports of a node. -/
lemma processPhysp_spec (h : Linked d) (hr : Referring d) (hlow : ∀ j < i, (d.physps (n, j)).portGuid = 0)
    (hv : (d.physps (n, i)).portGuid ≠ 0) :
    let s := processPhysp n d i
    Linked s ∧ Referring s ∧ (s.nodeGuidTbl = d.nodeGuidTbl ∧ s.swGuidTbl = d.swGuidTbl ∧
        s.smPortGuid = d.smPortGuid) ∧
      (∀ j, s.physps j = if j = (n, i) then .destroyed
        else if (d.physps (n, i)).remote = some j then cut (d.physps j) else d.physps j) ∧
      (∀ g, s.portGuidTbl.get g = (if g = (d.physps (n, i)).portGuid then none
        else resetIf d.portGuidTbl.get (Resets d (n, i)) g) ∧
        (g ∈ s.reset ↔ g ∈ d.reset ∨ Resets d (n, i) g ∧ g ≠ (d.physps (n, i)).portGuid ∧
            (d.portGuidTbl.get g).isSome)) ∧
      ∀ lid, s.portLidTbl lid = if (d.portGuidTbl.get (d.physps (n, i)).portGuid).isSome ∧
          (d.physps (n, i)).lids lid
        then none else d.portLidTbl lid := by
  dsimp only
  rw [processPhysp, if_neg hv]
  cases hp : d.portGuidTbl.get (d.physps (n, i)).portGuid with
  | none =>
    have hsame := clean_same d (n, i)
    refine ⟨h.clean hp, hr.clean _, ⟨hsame.nodeGuidTbl, hsame.swGuidTbl, hsame.smPortGuid⟩, clean_physps d _,
      fun g => ?_, fun lid => ?_⟩
    · obtain ⟨hget, hreset⟩ := clean_ports d (n, i) g
      rw [hget, hreset]
      by_cases hg : g = (d.physps (n, i)).portGuid
      · simp [resetIf, hg, hp]
      · simp [hg]
    · simp [hsame.portLidTbl]
  | some p =>
    have hphysp := physp_eq h hlow hv hp
    have hsame := clean_same (unregister d (d.physps (n, i)).portGuid p) p.physp
    refine ⟨h.removePort hp, hr.removePort _ _, ⟨hsame.nodeGuidTbl, hsame.swGuidTbl, hsame.smPortGuid⟩,
      fun j => ?_, fun g => ?_, fun lid => ?_⟩
    · dsimp only
      rw [dropMgrRemovePort, clean_physps, hphysp]
      rfl
    · have hports := removePort_ports d (d.physps (n, i)).portGuid p g
      rwa [hphysp] at hports
    · dsimp only
      rw [dropMgrRemovePort, hsame.portLidTbl, unregister, hphysp]
      simp

namespace Stripped

variable (hs : Stripped d s n i)
include hs

lemma guid_eq {k : PhyspId} (hk : ¬(k.1 = n ∧ k.2 < i)) : (s.physps k).portGuid = (d.physps k).portGuid := by
  rw [hs.physps k hk]
  split_ifs <;> rfl

lemma remote_low {k r : PhyspId} (hr : (s.physps k).remote = some r) : ¬(r.1 = n ∧ r.2 < i) := by
  rintro ⟨hn, hi⟩
  have hg := (hs.linked.symm k r hr).2.1
  rw [show r = (n, r.2) from Prod.ext hn rfl] at hg
  exact hg (hs.gone r.2 hi)

lemma remote_iff {k r : PhyspId} (hk : ¬(k.1 = n ∧ k.2 < i)) :
    (s.physps k).remote = some r ↔ (d.physps k).remote = some r ∧ ¬(r.1 = n ∧ r.2 < i) := by
  constructor
  · intro hr
    refine ⟨?_, hs.remote_low hr⟩
    rw [hs.physps k hk] at hr
    split_ifs at hr
    · exact absurd hr nofun
    · exact hr
  · rintro ⟨hr, hlow⟩
    rw [hs.physps k hk, if_neg, hr]
    rintro ⟨j, hj, hj'⟩
    rw [hr, Option.some.injEq] at hj'
    exact hlow (hj' ▸ ⟨rfl, hj⟩)

lemma resets_iff (h : Linked d) {g : Guid} (hg : ¬∃ j < i, Owns d n j g) : Resets s (n, i) g ↔
    Resets d (n, i) g := by
  have hhas : ∀ m, s.hasSw m = d.hasSw m := fun m => by rw [Subnet.hasSw, Subnet.hasSw, hs.nodes]
  have hself : ¬((n, i).1 = n ∧ (n, i).2 < i) := fun hc => Nat.lt_irrefl _ hc.2
  refine exists_congr fun r => ?_
  rw [hs.remote_iff hself, hhas, hs.sm]
  constructor
  · rintro ⟨⟨hr, hlow⟩, hguid, hrest⟩
    exact ⟨hr, by rwa [hs.guid_eq hlow] at hguid, hrest⟩
  · rintro ⟨hr, hguid, hrest⟩
    have hlow : ¬(r.1 = n ∧ r.2 < i) := by
      rintro ⟨hn, hi⟩
      refine hg ⟨r.2, hi, ?_, ?_⟩
      · rw [← hguid]
        exact (h.symm _ _ hr).2.1
      · rw [← hguid, ← hn]
    exact ⟨⟨hr, hlow⟩, by rwa [hs.guid_eq hlow], hrest⟩

end Stripped

lemma exists_lt_succ {p : ℕ → Prop} : (∃ j < i + 1, p j) ↔ (∃ j < i, p j) ∨ p i := by
  constructor
  · rintro ⟨j, hj, hp⟩
    rcases Nat.lt_succ_iff_lt_or_eq.mp hj with hj | rfl
    · exact .inl ⟨j, hj, hp⟩
    · exact .inr hp
  · rintro (⟨j, hj, hp⟩ | hp)
    · exact ⟨j, hj.trans (Nat.lt_succ_self i), hp⟩
    · exact ⟨i, Nat.lt_succ_self i, hp⟩

lemma resetIf_resetIf {t : Guid → Option Port} {P Q : Guid → Prop} :
    resetIf (resetIf t P) Q g = resetIf t (fun g => P g ∨ Q g) g := by
  rw [resetIf, resetIf, resetIf, Option.map_map]
  congr 1
  funext q
  by_cases hp : P g <;> by_cases hq : Q g <;> simp [hp, hq, zeroed]

lemma resetIf_eq_none {f : Guid → Option Port} {P : Guid → Prop} : resetIf f P g = none ↔ f g = none :=
  Option.map_eq_none_iff

lemma resetIf_of_eq {f f' : Guid → Option Port} {P : Guid → Prop} (h : f g = f' g) :
    resetIf f P g = resetIf f' P g := by
  rw [resetIf, h, resetIf]

lemma reached_iff (h : Linked d) {p : Port} (hp : d.portGuidTbl.get g = some p) :
    (p.node = n ∧ p.portNum < i) ↔ ∃ j < i, Owns d n j g := by
  obtain ⟨h0, hguid, hsw⟩ := h.ports g p hp
  constructor
  · rintro ⟨rfl, hi⟩
    exact ⟨p.portNum, hi, h0, hguid⟩
  · rintro ⟨j, hj, -, hj'⟩
    obtain ⟨hn, hi⟩ := h.owner (n, j) p.physp (hj' ▸ h0) (hguid.trans hj'.symm)
    refine ⟨hn, ?_⟩
    rcases hi with hi | hsw'
    · exact (show p.portNum = j from hi) ▸ hj
    · rw [hsw ((show p.node = n from hn) ▸ hsw')]
      exact Nat.lt_of_le_of_lt (Nat.zero_le j) hj

open Classical in
/-- An entry that is not in use is passed over. -/
lemma Stripped.skip (h : Linked d) (hs : Stripped d s n i) (hv : (s.physps (n, i)).portGuid = 0) :
    Stripped d s n (i + 1) := by
  have hself : ¬((n, i).1 = n ∧ (n, i).2 < i) := fun hc => Nat.lt_irrefl _ hc.2
  have hv' : (d.physps (n, i)).portGuid = 0 := by rwa [hs.guid_eq hself] at hv
  have howns : ∀ g, ¬Owns d n i g := by
    rintro g ⟨hg, hg'⟩
    exact hg (hg'.symm.trans hv')
  have hlink : ∀ k, (d.physps k).remote ≠ some (n, i) := fun k hk => (h.symm _ _ hk).2.1 hv'
  have hresets : ∀ g, ¬Resets d (n, i) g := by
    rintro g ⟨r, hr, -⟩
    exact (h.symm _ _ hr).1 hv'
  have hlow : ∀ k : PhyspId, ¬(k.1 = n ∧ k.2 < i + 1) → ¬(k.1 = n ∧ k.2 < i) :=
    fun k hk hc => hk ⟨hc.1, hc.2.trans (Nat.lt_succ_self i)⟩
  refine ⟨hs.linked, hs.referring, hs.nodes, hs.sw, hs.sm, fun j hj => ?_, fun k hk => ?_, fun g => ?_,
    fun g hg => ?_, fun lid => ?_⟩
  · rcases Nat.lt_succ_iff_lt_or_eq.mp hj with hj | rfl
    · exact hs.gone j hj
    · exact hv
  · rw [hs.physps k (hlow k hk)]
    simp only [exists_lt_succ, hlink k, or_false]
  · rw [hs.ports g]
    simp only [exists_lt_succ, howns g, or_false]
    congr 1
    exact resetIf_congr (by simp only [hresets g, or_false])
  · rw [hs.reset g hg]
    simp only [exists_lt_succ, hresets g, or_false]
  · rw [hs.lids lid]
    congr 1
    refine propext (exists_congr fun g => exists_congr fun p => and_congr_right fun hp => ?_)
    rw [← and_assoc, ← and_assoc, reached_iff h hp, reached_iff h hp]
    simp only [exists_lt_succ, howns g, or_false]

lemma Stripped.cleared_iff (h : Linked d) (hs : Stripped d s n i) (hv : (s.physps (n, i)).portGuid ≠ 0) {lid : ℕ} :
    ((s.portGuidTbl.get (s.physps (n, i)).portGuid).isSome ∧ (s.physps (n, i)).lids lid) ↔
      ∃ g p, d.portGuidTbl.get g = some p ∧ p.physp = (n, i) ∧ (d.physps p.physp).lids lid := by
  have hself : ¬((n, i).1 = n ∧ (n, i).2 < i) := fun hc => Nat.lt_irrefl _ hc.2
  have hlids : (s.physps (n, i)).lids lid ↔ (d.physps (n, i)).lids lid := by
    rw [hs.physps _ hself]
    split_ifs <;> exact Iff.rfl
  rw [hlids]
  constructor
  · rintro ⟨hsome, hlid⟩
    obtain ⟨q, hq⟩ := Option.isSome_iff_exists.mp hsome
    have hphysp := physp_eq hs.linked hs.gone hv hq
    rw [hs.ports] at hq
    split_ifs at hq
    obtain ⟨p, hp, hpq, -⟩ := resetIf_some hq
    have hp' : p.physp = (n, i) := hpq.symm.trans hphysp
    exact ⟨_, p, hp, hp', hp'.symm ▸ hlid⟩
  · rintro ⟨g, p, hp, hphysp, hlid⟩
    have hguid : (s.physps (n, i)).portGuid = g := by
      rw [hs.guid_eq hself, ← hphysp]
      exact (h.ports g p hp).2.1
    have hno : ¬∃ j < i, Owns d n j g := by
      rw [← reached_iff h hp, show p.portNum = i from congrArg Prod.snd hphysp]
      exact fun hc => Nat.lt_irrefl _ hc.2
    rw [hguid, hs.ports, if_neg hno, isSome_resetIf, hp]
    exact ⟨rfl, hphysp ▸ hlid⟩

open Classical in
lemma Stripped.step (h : Linked d) (hs : Stripped d s n i) : Stripped d (processPhysp n s i) n (i + 1) := by
  by_cases hv : (s.physps (n, i)).portGuid = 0
  · rw [processPhysp, if_pos hv]
    exact hs.skip h hv
  have hself : ¬((n, i).1 = n ∧ (n, i).2 < i) := fun hc => Nat.lt_irrefl _ hc.2
  have hlow : ∀ k : PhyspId, ¬(k.1 = n ∧ k.2 < i + 1) → ¬(k.1 = n ∧ k.2 < i) ∧ k ≠ (n, i) := by
    intro k hk
    exact ⟨fun hc => hk ⟨hc.1, hc.2.trans (Nat.lt_succ_self i)⟩, fun he => hk (he ▸ ⟨rfl, Nat.lt_succ_self i⟩)⟩
  have hguid := hs.guid_eq hself
  have hv' : (d.physps (n, i)).portGuid ≠ 0 := hguid ▸ hv
  obtain ⟨hl, hr, ⟨hnodes, hsw, hsm⟩, hphysps, hports, hlids⟩ :=
      processPhysp_spec hs.linked hs.referring hs.gone hv
  refine ⟨hl, hr, hnodes.trans hs.nodes, hsw.trans hs.sw, hsm.trans hs.sm, fun j hj => ?_,
    fun k hk => ?_, fun g => ?_, fun g hg => ?_, fun lid => ?_⟩
  · rw [hphysps]
    rcases Nat.lt_succ_iff_lt_or_eq.mp hj with hj | rfl
    · have hne : (n, j) ≠ (n, i) := fun he => hj.ne (congrArg Prod.snd he)
      rw [if_neg hne]
      split_ifs
      · exact hs.gone j hj
      · exact hs.gone j hj
    · rw [if_pos rfl]
      rfl
  · obtain ⟨hk', hne⟩ := hlow k hk
    rw [hphysps, if_neg hne, hs.physps k hk']
    have hiff : (s.physps (n, i)).remote = some k ↔ (d.physps k).remote = some (n, i) := by
      rw [hs.remote_iff hself]
      constructor
      · exact fun hc => (h.symm _ _ hc.1).2.2
      · exact fun hc => ⟨(h.symm _ _ hc).2.2, hk'⟩
    simp only [exists_lt_succ, hiff]
    by_cases h₁ : ∃ j < i, (d.physps k).remote = some (n, j) <;>
        by_cases h₂ : (d.physps k).remote = some (n, i) <;>
      simp [h₁, h₂, cut]
  · rw [(hports g).1, hguid]
    simp only [exists_lt_succ]
    by_cases hlow : ∃ j < i, Owns d n j g
    · simp only [hlow, true_or, if_true]
      split_ifs
      · rfl
      · rw [resetIf, hs.ports g, if_pos hlow]
        rfl
    · by_cases hg : g = (d.physps (n, i)).portGuid
      · have howns : Owns d n i g := ⟨hg ▸ hv', hg.symm⟩
        rw [if_pos hg, if_pos (.inr howns)]
      · have howns : ¬Owns d n i g := fun hc => hg hc.2.symm
        rw [if_neg hg, if_neg (not_or.mpr ⟨hlow, howns⟩), ← resetIf_resetIf,
          resetIf_congr (hs.resets_iff h hlow), resetIf, resetIf, hs.ports g, if_neg hlow]
  · rw [(hports g).2, hs.reset g hg, hguid]
    have hno : ¬∃ j < i, Owns d n j g := by
      rintro ⟨j, -, hj⟩
      exact hg j hj
    have hne : g ≠ (d.physps (n, i)).portGuid := fun he => hg i ⟨he ▸ hv', he.symm⟩
    simp only [exists_lt_succ]
    rw [hs.resets_iff h hno, hs.ports g, if_neg hno, isSome_resetIf, or_assoc, or_and_right]
    simp only [hne, ne_eq, not_false_eq_true, true_and]
  · rw [hlids, hs.lids lid]
    refine (if_congr (hs.cleared_iff h hv) rfl rfl).trans ?_
    have hiff : (∃ g p, d.portGuidTbl.get g = some p ∧ p.node = n ∧ p.portNum < i + 1 ∧
        (d.physps p.physp).lids lid) ↔
        (∃ g p, d.portGuidTbl.get g = some p ∧ p.physp = (n, i) ∧ (d.physps p.physp).lids lid) ∨
        ∃ g p, d.portGuidTbl.get g = some p ∧ p.node = n ∧ p.portNum < i ∧ (d.physps p.physp).lids lid := by
      constructor
      · rintro ⟨g, p, hp, hn, hi, hlid⟩
        rcases Nat.lt_succ_iff_lt_or_eq.mp hi with hi | hi
        · exact .inr ⟨g, p, hp, hn, hi, hlid⟩
        · exact .inl ⟨g, p, hp, Prod.ext hn hi, hlid⟩
      · rintro (⟨g, p, hp, he, hlid⟩ | ⟨g, p, hp, hn, hi, hlid⟩)
        · have hi : p.portNum = i := congrArg Prod.snd he
          exact ⟨g, p, hp, congrArg Prod.fst he, hi ▸ Nat.lt_succ_self p.portNum, hlid⟩
        · exact ⟨g, p, hp, hn, hi.trans (Nat.lt_succ_self i), hlid⟩
    rw [← ite_or]
    exact if_congr hiff.symm rfl rfl

lemma stripped_run (h : Linked d) (hr : Referring d) (m : ℕ) :
    Stripped d ((List.range m).foldl (processPhysp n) d) n m := by
  induction m with
  | zero => exact stripped_zero h hr
  | succ m ih =>
    rw [List.range_succ, List.foldl_append]
    exact ih.step h

open Classical in
structure NodeDropped (d s : Subnet) (n : Guid) : Prop where
  linked : Linked s
  referring : Referring s
  nodes : s.nodeGuidTbl = d.nodeGuidTbl.remove n
  sm : s.smPortGuid = d.smPortGuid
  physps : ∀ k, k.1 ≠ n →
    s.physps k = if ∃ j, (d.physps k).remote = some (n, j) then cut (d.physps k) else d.physps k
  ports : ∀ g, s.portGuidTbl.get g = if ∃ j, Owns d n j g then none
    else resetIf d.portGuidTbl.get (fun g => ∃ j, Resets d (n, j) g) g
  reset : ∀ g, (∀ j, ¬Owns d n j g) →
    (g ∈ s.reset ↔ g ∈ d.reset ∨ (∃ j, Resets d (n, j) g) ∧ (d.portGuidTbl.get g).isSome)
  lids : ∀ lid, s.portLidTbl lid =
    if ∃ g p, d.portGuidTbl.get g = some p ∧ p.node = n ∧ (d.physps p.physp).lids lid then none
    else d.portLidTbl lid

lemma exists_lt_iff {p : ℕ → Prop} {m : ℕ} (h : ∀ j, p j → j < m) : (∃ j < m, p j) ↔ ∃ j, p j :=
  exists_congr fun j => and_iff_right_of_imp (h j)

section Forget

variable {t : Subnet} {f : Qmap Guid Guid}

lemma Linked.forget (h : Linked t) (hall : ∀ j, (t.physps (n, j)).portGuid = 0) :
    Linked { t with swGuidTbl := f, nodeGuidTbl := t.nodeGuidTbl.remove n } := by
  have hne : ∀ k : PhyspId, (t.physps k).portGuid ≠ 0 → k.1 ≠ n := by
    rintro ⟨m, j⟩ hv rfl
    exact hv (hall j)
  have hsw : ∀ m, m ≠ n → Subnet.isSwitch { t with swGuidTbl := f, nodeGuidTbl := t.nodeGuidTbl.remove n } m =
      t.isSwitch m := by
    intro m hm
    rw [Subnet.isSwitch, Qmap.get_remove, if_neg hm, Subnet.isSwitch]
  refine ⟨fun m i hv => ?_, h.symm, fun k k' hv hg => ?_, fun g p hp => ?_⟩
  · rw [Qmap.get_remove, if_neg (hne (m, i) hv)]
    exact h.placed m i hv
  · rw [hsw _ (hne k hv)]
    exact h.owner k k' hv hg
  · obtain ⟨h0, hguid, hnum⟩ := h.ports g p hp
    exact ⟨h0, hguid, fun hc => hnum ((hsw p.node (hne p.physp (hguid.symm ▸ h0))).symm.trans hc)⟩

lemma Referring.forget {N : Node} (h : Referring t) (hN : t.nodeGuidTbl.get n = some N) :
    Referring { t with
      swGuidTbl := if N.sw then t.swGuidTbl.remove n else t.swGuidTbl
      nodeGuidTbl := t.nodeGuidTbl.remove n } := by
  refine ⟨h.aliases, h.sms, h.routers, h.aliasList, h.tidy, h.members, fun g m hg => ?_⟩
  have hkept : g ≠ n ∧ t.swGuidTbl.get g = some m := by
    split_ifs at hg with hsw
    · rw [Qmap.get_remove] at hg
      split_ifs at hg with hne
      exact ⟨hne, hg⟩
    · refine ⟨?_, hg⟩
      rintro rfl
      have hhas := (h.switches g m hg).2
      rw [Subnet.hasSw, hN] at hhas
      exact hsw hhas
  obtain ⟨hm, hhas⟩ := h.switches g m hkept.2
  refine ⟨hm, ?_⟩
  rwa [Subnet.hasSw, Qmap.get_remove, if_neg hkept.1]

end Forget

open Classical in
lemma processNode_dropped (h : Linked d) (hr : Referring d) {N : Node} (hN : d.nodeGuidTbl.get n = some N) :
    NodeDropped d (dropMgrProcessNode d n N) n := by
  obtain ⟨hl, href, hnodes, hsw, hsm, hgone, hphysps, hports, hreset, hlids⟩ :=
    stripped_run (n := n) h hr N.physpTblSize
  have hsize : ∀ j, (d.physps (n, j)).portGuid ≠ 0 → j < N.physpTblSize := by
    intro j hj
    obtain ⟨M, hM, hlt⟩ := h.placed n j hj
    rwa [hN.symm.trans hM |> Option.some.inj]
  have hlink : ∀ k, (∃ j < N.physpTblSize, (d.physps k).remote = some (n, j)) ↔ ∃ j,
      (d.physps k).remote = some (n, j) :=
    fun k => exists_lt_iff fun j hj => hsize j (h.symm _ _ hj).2.1
  have howns : ∀ g, (∃ j < N.physpTblSize, Owns d n j g) ↔ ∃ j, Owns d n j g :=
    fun g => exists_lt_iff fun j hj => hsize j (hj.2 ▸ hj.1)
  have hresets : ∀ g, (∃ j < N.physpTblSize, Resets d (n, j) g) ↔ ∃ j, Resets d (n, j) g :=
    fun g => exists_lt_iff fun j hj => hsize j (h.symm _ _ hj.choose_spec.1).1
  have hall : ∀ j, (((List.range N.physpTblSize).foldl (processPhysp n) d).physps (n, j)).portGuid = 0 := by
    intro j
    by_cases hj : j < N.physpTblSize
    · exact hgone j hj
    · rw [hphysps _ fun hc => hj hc.2]
      have h0 : (d.physps (n, j)).portGuid = 0 := by_contra fun hne => hj (hsize j hne)
      split_ifs
      · exact h0
      · exact h0
  rw [dropMgrProcessNode]
  generalize (List.range N.physpTblSize).foldl (processPhysp n) d = t at *
  exact
    { linked := hl.forget hall
      referring := href.forget (by rw [hnodes, hN])
      nodes := by rw [← hnodes]
      sm := hsm
      physps := fun k hk => by
        rw [hphysps k fun hc => hk hc.1, if_congr (hlink k) rfl rfl]
      ports := fun g => by
        rw [hports g, if_congr (howns g) rfl rfl, resetIf_congr (Q := fun g => ∃ j, Resets d (n, j) g) (hresets g)]
      reset := fun g hg => by rw [hreset g hg, hresets g]
      lids := fun lid => by
        rw [hlids lid]
        refine if_congr (exists_congr fun g => exists_congr fun p => and_congr_right fun hp => ?_) rfl rfl
        obtain ⟨h0, hguid, -⟩ := h.ports g p hp
        constructor
        · exact fun hc => ⟨hc.1, hc.2.2⟩
        · rintro ⟨rfl, hlid⟩
          exact ⟨rfl, hsize _ (hguid.symm ▸ h0), hlid⟩ }

end Node

end OpenSM.DropMgr
