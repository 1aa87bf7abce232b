import OpenSM.DropMembers

/-! What the removal of a port and of a node does to the tables. -/

namespace OpenSM.DropMgr

open Lib Multicast

/-- Physical ports belong to nodes, links have two ends, and port objects have their physical port. -/
structure Linked (d : Subnet) : Prop where
  placed : ∀ n i, (d.physps (n, i)).portGuid ≠ 0 → ∃ N, d.nodeGuidTbl.get n = some N ∧ i < N.physpTblSize
  symm : ∀ k r, (d.physps k).remote = some r →
    (d.physps k).portGuid ≠ 0 ∧ (d.physps r).portGuid ≠ 0 ∧ (d.physps r).remote = some k
  owner : ∀ k k', (d.physps k).portGuid ≠ 0 → (d.physps k').portGuid = (d.physps k).portGuid →
    k'.1 = k.1 ∧ (k'.2 = k.2 ∨ d.isSwitch k.1 = true)
  ports : ∀ g p, d.portGuidTbl.get g = some p →
    g ≠ 0 ∧ (d.physps p.physp).portGuid = g ∧ (d.isSwitch p.node = true → p.portNum = 0)

structure Referring (d : Subnet) : Prop where
  aliases : ∀ a g, d.aliasPortGuidTbl.get a = some g → (d.portGuidTbl.get g).isSome
  sms : ∀ g, (d.smGuidTbl.get g).isSome → (d.portGuidTbl.get g).isSome
  routers : ∀ g p, d.rtrGuidTbl.get g = some p → p = g ∧ (d.portGuidTbl.get g).isSome
  aliasList : ∀ g ∈ d.aliasGuidList, (d.portGuidTbl.get g).isSome
  tidy : ∀ m, Tidy d.mcast m
  members : ∀ m guid g, Joined d.mcast m guid g → (d.portGuidTbl.get g).isSome
  switches : ∀ g n, d.swGuidTbl.get g = some n → n = g ∧ d.hasSw g = true

def zeroed (p : Port) : Port := { p with discoveryCount := 0 }

def Resets (d : Subnet) (k : PhyspId) (g : Guid) : Prop :=
  ∃ r, (d.physps k).remote = some r ∧ (d.physps r).portGuid = g ∧ d.hasSw r.1 = false ∧ g ≠ d.smPortGuid

open Classical in
noncomputable def resetIf (t : Guid → Option Port) (p : Guid → Prop) (g : Guid) : Option Port :=
  (t g).map fun q => if p g then zeroed q else q

lemma resetIf_congr {t : Guid → Option Port} {P Q : Guid → Prop} {g : Guid} (h : P g ↔ Q g) :
    resetIf t P g = resetIf t Q g := by
  by_cases hq : Q g
  · simp [resetIf, h.mpr hq, hq]
  · simp [resetIf, mt h.mp hq, hq]

section Clean

variable {d : Subnet} {k r : PhyspId} {g : Guid}

structure SameTables (d d' : Subnet) : Prop where
  nodeGuidTbl : d'.nodeGuidTbl = d.nodeGuidTbl
  portLidTbl : d'.portLidTbl = d.portLidTbl
  aliasPortGuidTbl : d'.aliasPortGuidTbl = d.aliasPortGuidTbl
  smGuidTbl : d'.smGuidTbl = d.smGuidTbl
  rtrGuidTbl : d'.rtrGuidTbl = d.rtrGuidTbl
  aliasGuidList : d'.aliasGuidList = d.aliasGuidList
  swGuidTbl : d'.swGuidTbl = d.swGuidTbl
  mcast : d'.mcast = d.mcast
  smPortGuid : d'.smPortGuid = d.smPortGuid

lemma SameTables.refl (d : Subnet) : SameTables d d := ⟨rfl, rfl, rfl, rfl, rfl, rfl, rfl, rfl, rfl⟩

lemma SameTables.trans {d d' d'' : Subnet} (h : SameTables d d') (h' : SameTables d' d'') : SameTables d d'' where
  nodeGuidTbl := h'.nodeGuidTbl.trans h.nodeGuidTbl
  portLidTbl := h'.portLidTbl.trans h.portLidTbl
  aliasPortGuidTbl := h'.aliasPortGuidTbl.trans h.aliasPortGuidTbl
  smGuidTbl := h'.smGuidTbl.trans h.smGuidTbl
  rtrGuidTbl := h'.rtrGuidTbl.trans h.rtrGuidTbl
  aliasGuidList := h'.aliasGuidList.trans h.aliasGuidList
  swGuidTbl := h'.swGuidTbl.trans h.swGuidTbl
  mcast := h'.mcast.trans h.mcast
  smPortGuid := h'.smPortGuid.trans h.smPortGuid

lemma resetRemote_same (d : Subnet) (r : PhyspId) :
    SameTables d (resetRemote d r) ∧ (resetRemote d r).physps = d.physps := by
  rw [resetRemote]
  split
  · exact ⟨.refl d, rfl⟩
  · dsimp only
    split_ifs <;> exact ⟨⟨rfl, rfl, rfl, rfl, rfl, rfl, rfl, rfl, rfl⟩, rfl⟩

lemma resetRemote_ports (d : Subnet) (r : PhyspId) (g : Guid) :
    let hit := (d.physps r).portGuid = g ∧ d.hasSw r.1 = false ∧ g ≠ d.smPortGuid
    (resetRemote d r).portGuidTbl.get g = resetIf d.portGuidTbl.get (fun _ => hit) g ∧
      (g ∈ (resetRemote d r).reset ↔ g ∈ d.reset ∨ hit ∧ (d.portGuidTbl.get g).isSome) := by
  dsimp only
  rw [resetRemote]
  split
  · next hnone =>
    by_cases hg : (d.physps r).portGuid = g
    · subst hg
      simp [resetIf, hnone]
    · simp [resetIf, hg]
  · next p hp =>
    by_cases hsw : d.hasSw r.1 = false ∧ (d.physps r).portGuid ≠ d.smPortGuid
    · have hhas : ∀ b, Subnet.hasSw { d with forceHeavySweep := b } r.1 = false := fun _ => hsw.1
      simp only [hhas, true_and, if_pos hsw.2]
      by_cases hg : (d.physps r).portGuid = g
      · subst hg
        simp [resetIf, Qmap.get_modify, hp, hsw, zeroed]
      · simp [resetIf, Qmap.get_modify, hg, Ne.symm hg]
    · have hif : ¬(Subnet.hasSw
          { d with
            forceHeavySweep :=
              if p.discoveryCount ≠ 0 ∧ (d.physps r).linkActive = true then true else d.forceHeavySweep }
          r.1 = false ∧ (d.physps r).portGuid ≠ d.smPortGuid) := hsw
      simp only [if_neg hif]
      by_cases hg : (d.physps r).portGuid = g
      · subst hg
        simp only [true_and]
        simp [resetIf, hsw]
      · simp [resetIf, hg]

def cut (p : Physp) : Physp := { p with remote := none }

lemma clean_physps (d : Subnet) (k j : PhyspId) :
    (dropMgrCleanPhysp d k).physps j =
      if j = k then .destroyed else if (d.physps k).remote = some j then cut (d.physps j) else d.physps j := by
  rw [dropMgrCleanPhysp]
  by_cases hj : j = k
  · subst hj
    simp [Subnet.setPhysp]
  · cases hr : (d.physps k).remote with
    | none => simp [Subnet.setPhysp, hj]
    | some r =>
      have hsame := (resetRemote_same d r).2
      by_cases hjr : j = r
      · subst hjr
        simp [Subnet.setPhysp, Subnet.unlink, cut, hj, hsame]
      · simp [Subnet.setPhysp, Subnet.unlink, hj, hjr, Ne.symm hjr, hsame]

lemma clean_same (d : Subnet) (k : PhyspId) : SameTables d (dropMgrCleanPhysp d k) := by
  rw [dropMgrCleanPhysp]
  split
  · exact ⟨rfl, rfl, rfl, rfl, rfl, rfl, rfl, rfl, rfl⟩
  · next r _ => exact (resetRemote_same d r).1.trans ⟨rfl, rfl, rfl, rfl, rfl, rfl, rfl, rfl, rfl⟩

lemma clean_ports (d : Subnet) (k : PhyspId) (g : Guid) :
    (dropMgrCleanPhysp d k).portGuidTbl.get g = resetIf d.portGuidTbl.get (Resets d k) g ∧
      (g ∈ (dropMgrCleanPhysp d k).reset ↔ g ∈ d.reset ∨ Resets d k g ∧ (d.portGuidTbl.get g).isSome) := by
  rw [dropMgrCleanPhysp]
  cases hr : (d.physps k).remote with
  | none =>
    have hno : ¬Resets d k g := by
      rintro ⟨r, hr', -⟩
      exact absurd (hr.symm.trans hr') nofun
    simp [resetIf, hno, Subnet.setPhysp]
  | some r =>
    have hiff : Resets d k g ↔ (d.physps r).portGuid = g ∧ d.hasSw r.1 = false ∧ g ≠ d.smPortGuid := by
      simp only [Resets, hr, Option.some.injEq, exists_eq_left']
    obtain ⟨hget, hreset⟩ := resetRemote_ports d r g
    refine ⟨hget.trans (resetIf_congr hiff.symm), ?_⟩
    rw [hiff]
    exact hreset

lemma SameTables.isSwitch {d d' : Subnet} (h : SameTables d d') (n : Guid) : d'.isSwitch n = d.isSwitch n := by
  rw [Subnet.isSwitch, Subnet.isSwitch, h.nodeGuidTbl]

lemma SameTables.hasSw {d d' : Subnet} (h : SameTables d d') (n : Guid) : d'.hasSw n = d.hasSw n := by
  rw [Subnet.hasSw, Subnet.hasSw, h.nodeGuidTbl]

lemma resetIf_some {t : Guid → Option Port} {P : Guid → Prop} {q : Port} (h : resetIf t P g = some q) :
    ∃ p, t g = some p ∧ q.physp = p.physp ∧ q.node = p.node ∧ q.portNum = p.portNum := by
  obtain ⟨p, hp, rfl⟩ := Option.map_eq_some_iff.mp h
  refine ⟨p, hp, ?_⟩
  split_ifs <;> exact ⟨rfl, rfl, rfl⟩

lemma isSome_resetIf {t : Guid → Option Port} {P : Guid → Prop} : (resetIf t P g).isSome = (t g).isSome :=
  Option.isSome_map

/-- A physical port without a port object is cleaned. -/
lemma Linked.clean (h : Linked d) (hno : d.portGuidTbl.get (d.physps k).portGuid = none) :
    Linked (dropMgrCleanPhysp d k) := by
  have hsame := clean_same d k
  have hguid : ∀ j, j ≠ k → ((dropMgrCleanPhysp d k).physps j).portGuid = (d.physps j).portGuid := by
    intro j hj
    rw [clean_physps, if_neg hj]
    split_ifs <;> rfl
  have hkill : ((dropMgrCleanPhysp d k).physps k).portGuid = 0 := by
    rw [clean_physps, if_pos rfl]
    rfl
  have hvalid : ∀ j, ((dropMgrCleanPhysp d k).physps j).portGuid ≠ 0 → j ≠ k := by
    rintro j hj rfl
    exact hj hkill
  refine ⟨fun n i hv => ?_, fun j r hr => ?_, fun j j' hv hg => ?_, fun g p hp => ?_⟩
  · rw [hguid _ (hvalid _ hv)] at hv
    rw [hsame.nodeGuidTbl]
    exact h.placed n i hv
  · have hjk : j ≠ k := by
      rintro rfl
      rw [clean_physps, if_pos rfl] at hr
      exact absurd hr nofun
    have hcut : (d.physps k).remote ≠ some j := by
      intro hc
      rw [clean_physps, if_neg hjk, if_pos hc] at hr
      exact absurd hr nofun
    rw [clean_physps, if_neg hjk, if_neg hcut] at hr
    obtain ⟨hj, hr', hsym⟩ := h.symm j r hr
    have hrk : r ≠ k := fun he => hcut (he ▸ hsym)
    have hcut' : (d.physps k).remote ≠ some r := by
      intro hc
      exact hjk (Option.some.inj (hsym.symm.trans (h.symm k r hc).2.2))
    rw [hguid j hjk, hguid r hrk, clean_physps, if_neg hrk, if_neg hcut']
    exact ⟨hj, hr', hsym⟩
  · have hj := hvalid j hv
    rw [hguid j hj] at hv hg
    have hj' : j' ≠ k := by
      rintro rfl
      exact hv (hg.symm.trans hkill)
    rw [hguid j' hj'] at hg
    rw [hsame.isSwitch]
    exact h.owner j j' hv hg
  · rw [(clean_ports d k g).1] at hp
    obtain ⟨q, hq, hphysp, hnode, hnum⟩ := resetIf_some hp
    obtain ⟨h0, hgq, hsw⟩ := h.ports g q hq
    have hne : q.physp ≠ k := by
      rintro rfl
      rw [hgq, hq] at hno
      exact absurd hno nofun
    rw [hphysp, hnode, hnum, hguid _ hne, hsame.isSwitch]
    exact ⟨h0, hgq, hsw⟩

lemma Referring.of_same {d d' : Subnet} (h : Referring d) (hs : SameTables d d')
    (hp : ∀ g, (d'.portGuidTbl.get g).isSome = (d.portGuidTbl.get g).isSome) : Referring d' where
  aliases a g ha := by
    rw [hs.aliasPortGuidTbl] at ha
    rw [hp]
    exact h.aliases a g ha
  sms g hg := by
    rw [hs.smGuidTbl] at hg
    rw [hp]
    exact h.sms g hg
  routers g p hg := by
    rw [hs.rtrGuidTbl] at hg
    rw [hp]
    exact h.routers g p hg
  aliasList g hg := by
    rw [hs.aliasGuidList] at hg
    rw [hp]
    exact h.aliasList g hg
  tidy m := by
    rw [hs.mcast]
    exact h.tidy m
  members m guid g hg := by
    rw [hs.mcast] at hg
    rw [hp]
    exact h.members m guid g hg
  switches g n hg := by
    rw [hs.swGuidTbl] at hg
    rw [hs.hasSw]
    exact h.switches g n hg

lemma Referring.clean (h : Referring d) (k : PhyspId) : Referring (dropMgrCleanPhysp d k) :=
  h.of_same (clean_same d k) fun g => by rw [(clean_ports d k g).1, isSome_resetIf]

end Clean

section Remove

variable {d : Subnet} {g : Guid} {p : Port}

lemma Linked.unregister (h : Linked d) (g : Guid) (p : Port) : Linked (unregister d g p) where
  placed := h.placed
  symm := h.symm
  owner := h.owner
  ports g' q hq := by
    rw [DropMgr.unregister, Qmap.get_remove] at hq
    split_ifs at hq
    exact h.ports g' q hq

lemma Referring.unregister (h : Referring d) (g : Guid) (p : Port) : Referring (unregister d g p) := by
  have hport : ∀ g', g' ≠ g → (d.portGuidTbl.get g').isSome →
      ((DropMgr.unregister d g p).portGuidTbl.get g').isSome := by
    intro g' hne hg'
    rwa [DropMgr.unregister, Qmap.get_remove, if_neg hne]
  obtain ⟨htidy, hleft⟩ := deleteGroups_spec (p := g) (d.mcast.mcmList g).length h.tidy le_rfl
  constructor
  · intro a g' ha
    rw [DropMgr.unregister, Qmap.get_filter] at ha
    split_ifs at ha with hne
    refine hport g' ?_ (h.aliases a g' ha)
    rintro rfl
    simp [ha] at hne
  · intro g' hg'
    rw [DropMgr.unregister, Qmap.get_remove] at hg'
    split_ifs at hg' with hne
    · exact absurd hg' Bool.false_ne_true
    · exact hport g' hne (h.sms g' hg')
  · intro g' q hg'
    rw [DropMgr.unregister, Qmap.get_remove] at hg'
    split_ifs at hg' with hne
    obtain ⟨hq, hsome⟩ := h.routers g' q hg'
    exact ⟨hq, hport g' hne hsome⟩
  · intro g' hg'
    obtain ⟨hmem, hne⟩ := List.mem_filter.mp hg'
    exact hport g' (by simpa using hne) (h.aliasList g' hmem)
  · exact htidy
  · intro m guid g' hj
    obtain ⟨hold, hne⟩ := hleft m guid g' hj
    exact hport g' hne (h.members m guid g' hold)
  · exact h.switches

lemma Linked.removePort (h : Linked d) (hp : d.portGuidTbl.get g = some p) : Linked (dropMgrRemovePort d g p) := by
  apply (h.unregister g p).clean
  rw [DropMgr.unregister, (h.ports g p hp).2.1, Qmap.get_remove, if_pos rfl]

lemma Referring.removePort (h : Referring d) (g : Guid) (p : Port) : Referring (dropMgrRemovePort d g p) :=
  (h.unregister g p).clean _

lemma removePort_ports (d : Subnet) (g : Guid) (p : Port) (g' : Guid) :
    (dropMgrRemovePort d g p).portGuidTbl.get g' =
        (if g' = g then none else resetIf d.portGuidTbl.get (Resets d p.physp) g') ∧
      (g' ∈ (dropMgrRemovePort d g p).reset ↔
        g' ∈ d.reset ∨ Resets d p.physp g' ∧ g' ≠ g ∧ (d.portGuidTbl.get g').isSome) := by
  obtain ⟨hget, hreset⟩ := clean_ports (unregister d g p) p.physp g'
  have hR : ∀ x, Resets (unregister d g p) p.physp x ↔ Resets d p.physp x := fun _ => Iff.rfl
  have htbl : (unregister d g p).portGuidTbl.get g' = if g' = g then none else d.portGuidTbl.get g' :=
    Qmap.get_remove _ _ _
  rw [dropMgrRemovePort, hget, hreset, resetIf, htbl, hR]
  change _ ∧ (g' ∈ d.reset ∨ _ ↔ _)
  by_cases hg : g' = g
  · simp [hg]
  · simp [hg, resetIf]

end Remove

end OpenSM.DropMgr
