import OpenSM.DropPasses
import OpenSM.Lib.Folds

/-! The checks of the nodes that stay, and the runs of the first two passes. -/

namespace OpenSM.DropMgr

open Lib Lib.Folds Multicast

section Light

variable {s t : Subnet}

lemma Linked.of_same (h : Linked s) (hs : SameTables s t)
    (hguid : ∀ j, (t.physps j).portGuid = (s.physps j).portGuid)
    (hsub : ∀ j j', (t.physps j).remote = some j' → (s.physps j).remote = some j')
    (hsymm : ∀ j j', (t.physps j).remote = some j' → (t.physps j').remote = some j)
    (hports : ∀ g q, t.portGuidTbl.get g = some q → ∃ p, s.portGuidTbl.get g = some p ∧
        q.physp = p.physp) : Linked t where
  placed n i hv := by
    rw [hs.nodeGuidTbl]
    exact h.placed n i (hguid (n, i) ▸ hv)
  symm k r hr := by
    obtain ⟨hk, hr', -⟩ := h.symm k r (hsub k r hr)
    exact ⟨(hguid k).symm ▸ hk, (hguid r).symm ▸ hr', hsymm k r hr⟩
  owner k k' hv hg := by
    rw [hguid] at hv hg
    rw [hguid] at hg
    rw [hs.isSwitch]
    exact h.owner k k' hv hg
  ports g q hq := by
    obtain ⟨p, hp, hqp⟩ := hports g q hq
    obtain ⟨h0, hg, hsw⟩ := h.ports g p hp
    rw [hqp, hguid, hs.isSwitch, Port.node_eq hqp, show q.portNum = p.portNum from congrArg Prod.snd hqp]
    exact ⟨h0, hg, hsw⟩

end Light

section Pkey

variable {s : Subnet} {n : Guid} {i : ℕ}

def decremented (p : Port) : Port := { p with discoveryCount := (p.discoveryCount + (2 ^ 32 - 1)) % 2 ^ 32 }

lemma decremented_physp (p : Port) : (decremented p).physp = p.physp := by
  rw [decremented, Port.physp, Port.physp]

def withoutBlocks (p : Physp) : Physp := { p with rcvBlocksCnt := 0, needUpdate := 2, discovered := false }

lemma dropPkey_spec (hg : (s.physps (n, i)).portGuid ≠ 0) (hb : (s.physps (n, i)).rcvBlocksCnt ≠ 0) :
    let t := dropPkey n s i
    SameTables s t ∧ t.reset = s.reset ∧
      (∀ k, t.physps k = if k = (n, i) then withoutBlocks (s.physps k) else s.physps k) ∧
      ∀ g, t.portGuidTbl.get g =
        if (s.physps (n, i)).discovered = true ∧ g = (s.physps (n, i)).portGuid then
          (s.portGuidTbl.get g).map decremented
        else s.portGuidTbl.get g := by
  dsimp only
  have hphysps : ∀ k, Function.update s.physps (n, i) (withoutBlocks (s.physps (n, i))) k =
      if k = (n, i) then withoutBlocks (s.physps k) else s.physps k := by
    intro k
    by_cases hk : k = (n, i)
    · rw [hk, Function.update_self, if_pos rfl]
    · rw [Function.update_of_ne hk, if_neg hk]
  rw [dropPkey, if_neg (not_or.mpr ⟨hg, hb⟩)]
  by_cases hd : (s.physps (n, i)).discovered = true
  · rw [if_pos hd]
    refine ⟨⟨rfl, rfl, rfl, rfl, rfl, rfl, rfl, rfl, rfl⟩, rfl, hphysps, fun g => ?_⟩
    rw [Qmap.get_modify]
    by_cases hgg : g = (s.physps (n, i)).portGuid
    · rw [if_pos hgg, if_pos ⟨hd, hgg⟩, hgg]
      rfl
    · rw [if_neg hgg, if_neg fun hc => hgg hc.2]
      rfl
  · rw [if_neg hd]
    refine ⟨⟨rfl, rfl, rfl, rfl, rfl, rfl, rfl, rfl, rfl⟩, rfl, hphysps, fun g => ?_⟩
    rw [if_neg fun hc => hd hc.1]
    rfl

end Pkey

namespace Dropped

variable {d s : Subnet} {V V' : PhyspId → Prop} {L L' : Guid → Prop} {n : Guid} {i : ℕ}

lemma congr (hs : Dropped d s V L) (hL : ∀ m, L' m ↔ L m) (hV : ∀ k, ¬L k.1 → V k → V' k)
    (hV' : ∀ k, ¬L k.1 → Missing d k → V' k → V k) : Dropped d s V' L' := by
  obtain rfl : L' = L := funext fun m => propext (hL m)
  refine ⟨hs.linked, hs.referring, hs.shrinks, hs.sm, hs.nodes, hs.guid,
    fun k hk hv => hs.blocks k hk (mt (hV k hk) hv), fun k hk => ?_, hs.links, hs.kept, hs.counted, hs.spared,
    hs.reset, fun g p hp hsw hres => ?_⟩
  · rw [hs.found k hk]
    exact and_congr_right fun _ => not_congr ⟨fun hc => ⟨hV k hk hc.1, hc.2⟩, fun hc => ⟨hV' k hk hc.2 hc.1, hc.2⟩⟩
  · have hk := hs.stays hp
    have hiff : Wrapped d V p.physp ↔ Wrapped d V' p.physp :=
      ⟨fun ⟨hv, hd, hm, hr⟩ => ⟨hV _ hk hv, hd, hm, hr⟩, fun ⟨hv, hd, hm, hr⟩ => ⟨hV' _ hk hm hv, hd, hm, hr⟩⟩
    rw [hs.wrapped g p hp hsw hres]
    by_cases hw : Wrapped d V p.physp
    · rw [if_pos hw, if_pos (hiff.mp hw)]
    · rw [if_neg hw, if_neg (mt hiff.mpr hw)]

lemma discoveredPorts_erase {t : Subnet} (hnodes : t.nodeGuidTbl = s.nodeGuidTbl)
    (hphysps : ∀ k, t.physps k = if k = (n, i) then withoutBlocks (s.physps k) else s.physps k) (m g : Guid) :
    t.discoveredPorts m g = if m = n then (s.discoveredPorts m g).erase i else s.discoveredPorts m g := by
  split_ifs with hm
  · subst hm
    ext j
    rw [Finset.mem_erase, Subnet.discoveredPorts, Subnet.discoveredPorts, Finset.mem_filter,
      Finset.mem_filter, hnodes, hphysps]
    by_cases hj : j = i
    · simp [hj, withoutBlocks]
    · simp [hj]
  · rw [Subnet.discoveredPorts, Subnet.discoveredPorts, hnodes]
    refine Finset.filter_congr fun j _ => ?_
    rw [hphysps, if_neg fun hc => hm (congrArg Prod.fst hc)]

lemma mem_discoveredPorts (hs : Dropped d s V L) (hd : (s.physps (n, i)).discovered = true) {g : Guid}
    (hg : (s.physps (n, i)).portGuid = g) (h0 : g ≠ 0) : i ∈ s.discoveredPorts n g := by
  obtain ⟨N, hN, hlt⟩ := hs.linked.placed n i (hg ▸ h0)
  rw [Subnet.discoveredPorts, Finset.mem_filter, Finset.mem_range, hN]
  exact ⟨hlt, hd, hg⟩

lemma card_discoveredPorts (hs : Dropped d s V L) (hsize : ∀ m N, d.nodeGuidTbl.get m = some N →
    N.physpTblSize ≤ 256)
    (n g : Guid) (hn : ¬L n) : (s.discoveredPorts n g).card ≤ 256 := by
  refine (Finset.card_filter_le _ _).trans ?_
  rw [Finset.card_range, hs.nodes, if_neg hn]
  cases hN : d.nodeGuidTbl.get n with
  | none => exact Nat.zero_le _
  | some N => exact hsize n N hN

/-- The P_Key blocks of the next physical port are looked at. -/
lemma pkey (hs : Dropped d s V L) (hsize : ∀ m N, d.nodeGuidTbl.get m = some N → N.physpTblSize ≤ 256) (hn : ¬L n)
    (hv : ¬V (n, i)) (hfirst : d.isSwitch n = true ∨ i ≠ 0) (hL : ∀ m, L m → Lost d m ∧ m < n) :
    Dropped d (dropPkey n s i) (fun k => V k ∨ k = (n, i)) L := by
  have hguid := hs.guid (n, i) hn
  have hblocks := hs.blocks (n, i) hn hv
  by_cases hm : Missing d (n, i)
  swap
  · have hskip : dropPkey n s i = s := by
      rw [dropPkey, if_pos]
      rw [hguid, hblocks]
      by_contra hc
      exact hm ⟨(not_or.mp hc).1, (not_or.mp hc).2, hfirst⟩
    rw [hskip]
    refine hs.congr (fun _ => Iff.rfl) (fun _ _ => .inl) fun k _ hk hc => hc.resolve_right ?_
    rintro rfl
    exact hm hk
  have hfound := hs.found (n, i) hn
  have hdisc : (s.physps (n, i)).discovered = true ↔ (d.physps (n, i)).discovered = true := by
    rw [hfound]
    exact and_iff_left fun hc => hv hc.1
  obtain ⟨hsame, hreset, hphysps, hports⟩ := dropPkey_spec (s := s) (n := n) (i := i) (hguid ▸ hm.1)
      (hblocks ▸ hm.2.1)
  generalize dropPkey n s i = t at *
  have hget : ∀ g q, t.portGuidTbl.get g = some q → ∃ p, s.portGuidTbl.get g = some p ∧ q.physp = p.physp ∧
      ((s.physps (n, i)).discovered = true ∧ g = (s.physps (n, i)).portGuid ∧ q = decremented p ∨
        ¬((s.physps (n, i)).discovered = true ∧ g = (s.physps (n, i)).portGuid) ∧ q = p) := by
    intro g q hq
    rw [hports] at hq
    split_ifs at hq with hc
    · obtain ⟨p, hp, rfl⟩ := Option.map_eq_some_iff.mp hq
      exact ⟨p, hp, decremented_physp p, .inl ⟨hc.1, hc.2, by rfl⟩⟩
    · exact ⟨q, hq, rfl, .inr ⟨hc, rfl⟩⟩
  have hsome : ∀ g, (t.portGuidTbl.get g).isSome = (s.portGuidTbl.get g).isSome := by
    intro g
    rw [hports]
    split_ifs
    · exact Option.isSome_map
    · rfl
  have hkeep : ∀ k, (t.physps k).portGuid = (s.physps k).portGuid ∧ (t.physps k).remote = (s.physps k).remote ∧
      ∀ lid, (t.physps k).lids lid ↔ (s.physps k).lids lid := by
    intro k
    rw [hphysps]
    split_ifs <;> exact ⟨rfl, rfl, fun _ => Iff.rfl⟩
  have hlinked : Linked t := by
    refine hs.linked.of_same hsame (fun j => (hkeep j).1) (fun j j' hj => (hkeep j).2.1 ▸ hj)
        (fun j j' hj => ?_) ?_
    · rw [(hkeep j).2.1] at hj
      rw [(hkeep j').2.1]
      exact (hs.linked.symm j j' hj).2.2
    · intro g q hq
      obtain ⟨p, hp, hqp, -⟩ := hget g q hq
      exact ⟨p, hp, hqp⟩
  refine ⟨hlinked, hs.referring.of_same hsame hsome, hs.shrinks.trans ?_,
    hsame.smPortGuid.trans hs.sm, fun m => ?_, fun k hk => ?_, fun k hk hvk => ?_, fun k hk => ?_,
    fun k r hk hr => ?_, fun g p hp hnode => ?_, fun g q hq hres => ?_,
    fun g q hq hhas => ?_, fun g q hq hsw => ?_, fun g q hq hsw hres => ?_⟩
  · refine .of_ports (fun g q hq => ?_) hsome (fun k => (hkeep k).2.2) hsame.portLidTbl
    obtain ⟨p, hp, hqp, -⟩ := hget g q hq
    exact ⟨p, hp, hqp⟩
  · rw [hsame.nodeGuidTbl, hs.nodes]
  · rw [(hkeep k).1, hs.guid k hk]
  · rw [hphysps, if_neg (not_or.mp hvk).2, hs.blocks k hk (not_or.mp hvk).1]
  · rw [hphysps]
    split_ifs with hc
    · subst hc
      exact iff_of_false Bool.false_ne_true fun hc => hc.2 ⟨.inr rfl, hm⟩
    · rw [hs.found k hk, or_iff_left hc]
  · rw [(hkeep k).2.1, hs.links k r hk hr]
  · rw [hsome]
    exact hs.kept g p hp hnode
  · obtain ⟨p, hp, hqp, hcase⟩ := hget g q hq
    rw [hreset] at hres
    have hcount := hs.counted g p hp hres
    rw [Port.node_eq hqp, discoveredPorts_erase hsame.nodeGuidTbl hphysps]
    rcases hcase with ⟨hd, hg, rfl⟩ | ⟨hno, rfl⟩
    · obtain ⟨h0, hpg, -⟩ := hs.linked.ports g p hp
      have hnode : p.node = n := (hs.linked.owner (n, i) p.physp (hg ▸ h0) (hpg.trans hg)).1
      have hmem := hs.mem_discoveredPorts hd hg.symm h0
      have hle := hs.card_discoveredPorts hsize n g hn
      rw [if_pos hnode, hnode, Finset.card_erase_of_mem hmem, ← hnode, ← hcount, decremented]
      have hpos : 0 < p.discoveryCount := by
        rw [hcount, hnode]
        exact Finset.card_pos.mpr ⟨i, hmem⟩
      rw [← hnode, ← hcount] at hle
      dsimp only
      omega
    · rw [hcount]
      split_ifs with hnode
      · rw [Finset.erase_eq_of_notMem]
        rw [hnode, Subnet.discoveredPorts, Finset.mem_filter]
        exact fun hc => hno ⟨hc.2.1, hc.2.2.symm⟩
      · rfl
  · obtain ⟨p, hp, hqp, -⟩ := hget g q hq
    rw [hreset]
    exact hs.spared g p hp (Port.node_eq hqp ▸ hhas)
  · obtain ⟨p, hp, hqp, -⟩ := hget g q hq
    rw [hreset, hqp]
    exact hs.reset g p hp (Port.node_eq hqp ▸ hsw)
  · obtain ⟨p, hp, hqp, hcase⟩ := hget g q hq
    rw [hreset] at hres
    have hsw' : d.isSwitch p.node = false := Port.node_eq hqp ▸ hsw
    have hcount := hs.wrapped g p hp hsw' hres
    have hstays := hs.stays hp
    rw [hqp]
    by_cases hk : p.physp = (n, i)
    · have hg : g = (s.physps (n, i)).portGuid := by rw [← hk, (hs.linked.ports g p hp).2.1]
      have h0 : p.discoveryCount = 0 := by rw [hcount, if_neg fun hc => hv (hk ▸ hc.1)]
      rcases hcase with ⟨hd, -, rfl⟩ | ⟨hno, rfl⟩
      · obtain ⟨-, r, hr, hL'⟩ := (hs.reset g p hp hsw').mp hres
        obtain ⟨hlost, hlt⟩ := hL r.1 hL'
        rw [hk] at hr ⊢
        rw [if_pos ⟨.inr rfl, hdisc.mp hd, hm, r, hr, hlost, hlt⟩, decremented]
        dsimp only
        rw [h0]
        rfl
      · rw [h0, if_neg]
        rw [hk]
        exact fun hc => hno ⟨hdisc.mpr hc.2.1, hg⟩
    · have hne : g ≠ (s.physps (n, i)).portGuid := by
        intro hg
        refine hk (physp_unique hs.linked hp ?_ hg.symm).symm
        rw [hs.isSwitch_eq hstays, hsw']
      rcases hcase with ⟨-, hg, -⟩ | ⟨-, rfl⟩
      · exact absurd hg hne
      · rw [hcount]
        have hiff : Wrapped d V q.physp ↔ Wrapped d (fun k => V k ∨ k = (n, i)) q.physp :=
          and_congr_left fun _ => (or_iff_left hk).symm
        by_cases hw : Wrapped d V q.physp
        · rw [if_pos hw, if_pos (hiff.mp hw)]
        · rw [if_neg hw, if_neg (mt hiff.mpr hw)]

lemma pkey_run (hs : Dropped d s V L) (hsize : ∀ m N, d.nodeGuidTbl.get m = some N →
    N.physpTblSize ≤ 256) (hn : ¬L n)
    (hL : ∀ m, L m → Lost d m ∧ m < n) {is : List ℕ} (hnodup : is.Nodup)
    (his : ∀ i ∈ is, ¬V (n, i) ∧ (d.isSwitch n = true ∨ i ≠ 0)) :
    Dropped d (is.foldl (dropPkey n) s) (fun k => V k ∨ k.1 = n ∧ k.2 ∈ is) L := by
  refine foldl_handled (dropPkey n)
      (fun done st => Dropped d st (fun k => V k ∨ k.1 = n ∧ k.2 ∈ done) L) is s ?_ ?_
  · exact hs.congr (fun _ => Iff.rfl) (fun _ _ => .inl) fun _ _ _ hc => hc.resolve_right fun hc => by simp at hc
  · intro done i rest st hl hst
    obtain ⟨hv, hfirst⟩ := his i (by simp [hl])
    have hi : i ∉ done := by
      rw [hl, List.nodup_append] at hnodup
      exact fun hc => hnodup.2.2 i hc i (by simp) rfl
    refine (hst.pkey hsize hn (not_or.mpr ⟨hv, fun hc => hi hc.2⟩) hfirst hL).congr (fun _ => Iff.rfl)
      (fun k _ hk => ?_) fun k _ _ hk => ?_
    · rcases hk with (hk | ⟨hn, hk⟩) | rfl
      · exact .inl hk
      · exact .inr ⟨hn, List.mem_append_left _ hk⟩
      · exact .inr ⟨rfl, by simp⟩
    · rcases hk with hk | ⟨hn, hk⟩
      · exact .inl (.inl hk)
      · rcases List.mem_append.mp hk with hk | hk
        · exact .inl (.inr ⟨hn, hk⟩)
        · exact .inr (Prod.ext hn (List.mem_singleton.mp hk))

end Dropped

section Unlink

variable {s : Subnet} {k r : PhyspId}

lemma unlink_physps (s : Subnet) (k r j : PhyspId) :
    (s.unlink k r).physps j = if j = k ∨ j = r then cut (s.physps j) else s.physps j := by
  rw [Subnet.unlink]
  by_cases hr : j = r
  · subst hr
    by_cases hk : j = k <;> simp [Subnet.setPhysp, cut, hk]
  · by_cases hk : j = k
    · subst hk
      simp [Subnet.setPhysp, cut, hr]
    · simp [Subnet.setPhysp, hr, hk]

lemma unlink_same (s : Subnet) (k r : PhyspId) : SameTables s (s.unlink k r) :=
  ⟨rfl, rfl, rfl, rfl, rfl, rfl, rfl, rfl, rfl⟩

lemma unlink_remote {j j' : PhyspId} :
    ((s.unlink k r).physps j).remote = some j' ↔ (s.physps j).remote = some j' ∧ j ≠ k ∧ j ≠ r := by
  rw [unlink_physps]
  split_ifs with hj
  · exact iff_of_false nofun fun hc => hj.elim hc.2.1 hc.2.2
  · exact (and_iff_left (not_or.mp hj)).symm

lemma Linked.unlink (h : Linked s) (hr : (s.physps k).remote = some r) : Linked (s.unlink k r) := by
  refine h.of_same (unlink_same s k r) (fun j => ?_) (fun j j' hj => (unlink_remote.mp hj).1) (fun j j' hj => ?_)
    fun g q hq => ⟨q, hq, rfl⟩
  · rw [unlink_physps]
    split_ifs <;> rfl
  · obtain ⟨hrem, hk, hr'⟩ := unlink_remote.mp hj
    have hback := (h.symm j j' hrem).2.2
    refine unlink_remote.mpr ⟨hback, ?_, ?_⟩
    · rintro rfl
      exact hr' (Option.some.inj (hback.symm.trans hr))
    · rintro rfl
      exact hk (Option.some.inj (hback.symm.trans (h.symm k _ hr).2.2))

/-- A switch that stays loses a link. -/
lemma Dropped.unlink {d : Subnet} {V : PhyspId → Prop} {L : Guid → Prop} (hs : Dropped d s V L)
    (hr : (s.physps k).remote = some r) (hsw : d.isSwitch k.1 = true) (hstay : ¬Gone d k.1) :
    Dropped d (s.unlink k r) V L := by
  have hkeep : ∀ j, (s.unlink k r).physps j = s.physps j ∨ (s.unlink k r).physps j = cut (s.physps j) := by
    intro j
    rw [unlink_physps]
    split_ifs
    · exact .inr rfl
    · exact .inl rfl
  have hsame := unlink_same s k r
  refine ⟨hs.linked.unlink hr, hs.referring.of_same hsame fun _ => rfl, hs.shrinks.trans ?_, hs.sm, hs.nodes,
    fun j hj => ?_, fun j hj hv => ?_, fun j hj => ?_, fun j j' hj hj' => ?_, hs.kept,
        fun g p hp hres => ?_, hs.spared,
    hs.reset, hs.wrapped⟩
  · refine .of_ports (fun g q hq => ⟨q, hq, rfl⟩) (fun _ => rfl) (fun j lid => ?_) rfl
    rcases hkeep j with h | h <;> rw [h]
    rfl
  · rw [← hs.guid j hj]
    rcases hkeep j with h | h <;> rw [h]
    rfl
  · rw [← hs.blocks j hj hv]
    rcases hkeep j with h | h <;> rw [h]
    rfl
  · rw [← hs.found j hj]
    rcases hkeep j with h | h <;> rw [h]
    rfl
  · rw [unlink_remote, ← hs.links j j' hj hj']
    refine and_iff_left_of_imp fun hrem => ?_
    have hjk : j ≠ k := by
      rintro rfl
      exact absurd (hj.symm.trans hsw) Bool.false_ne_true
    refine ⟨hjk, ?_⟩
    rintro rfl
    obtain rfl : j' = k := Option.some.inj (hrem.symm.trans (hs.linked.symm k _ hr).2.2)
    rcases hj' with hno | hgone
    · exact absurd (hno.symm.trans hsw) Bool.false_ne_true
    · exact hstay hgone
  · rw [hs.counted g p hp hres, Subnet.discoveredPorts, Subnet.discoveredPorts]
    congr 1
    refine Finset.filter_congr fun j _ => ?_
    rcases hkeep (p.node, j) with h | h <;> rw [h]
    rfl

end Unlink

section Runs

variable {d s : Subnet} {V : PhyspId → Prop} {L : Guid → Prop} {n : Guid}

/-- A database whose tables and counts are as a sweep leaves them. -/
structure Consistent (d : Subnet) : Prop where
  linked : Linked d
  referring : Referring d
  hasSw : ∀ n, d.hasSw n = true → d.isSwitch n = true
  size : ∀ n N, d.nodeGuidTbl.get n = some N → N.physpTblSize ≤ 256
  counted : ∀ g p, d.portGuidTbl.get g = some p → p.discoveryCount = (d.discoveredPorts p.node g).card
  discovered : ∀ k, (d.physps k).discovered = true → (d.portGuidTbl.get (d.physps k).portGuid).isSome
  lids : ∀ lid g, d.portLidTbl lid = some g → (d.portGuidTbl.get g).isSome
  /-- otherwise the loop over the LIDs of a port does not end -/
  range : ∀ k, (d.physps k).baseLid + 2 ^ (d.physps k).lmc < 2 ^ 16

lemma Consistent.noSw (h : Consistent d) (n : Guid) (hn : d.isSwitch n = false) : d.hasSw n = false := by
  by_contra hc
  exact absurd (hn.symm.trans (h.hasSw n (by simpa using hc))) Bool.false_ne_true

lemma dropped_zero (h : Consistent d) (hr : d.reset = []) : Dropped d d (fun _ => False) fun _ => False where
  linked := h.linked
  referring := h.referring
  shrinks := .of_ports (fun _ q hq => ⟨q, hq, rfl⟩) (fun _ => rfl) (fun _ _ => Iff.rfl) rfl
  sm := rfl
  nodes _ := by simp
  guid _ _ := rfl
  blocks _ _ _ := rfl
  found _ _ := by simp
  links _ _ _ _ := by simp
  kept g p hp _ := by rw [hp]; rfl
  counted g p hp _ := h.counted g p hp
  spared g p _ _ := by simp [hr]
  reset g p _ _ := by simp [hr]
  wrapped g p _ _ hres := by simp [hr] at hres

/-- One node of the first pass. -/
lemma checkNode_step (h : Consistent d) {done : List Guid}
    (hs : Dropped d s (fun k => k.1 ∈ done) fun m => m ∈ done ∧ Lost d m) (hlt : ∀ m ∈ done, m < n) {N : Node}
    (hN : d.nodeGuidTbl.get n = some N) :
    Dropped d (checkNode s n) (fun k => k.1 ∈ done ++ [n]) fun m => m ∈ done ++ [n] ∧ Lost d m := by
  have hnd : n ∉ done := fun hc => lt_irrefl _ (hlt n hc)
  have hstay : ¬(n ∈ done ∧ Lost d n) := fun hc => hnd hc.1
  have hN' : s.nodeGuidTbl.get n = some N := by rw [hs.nodes, if_neg hstay, hN]
  rw [checkNode, hN']
  dsimp only
  by_cases h0 : N.discoveryCount = 0
  · rw [if_pos h0]
    have hlost : Lost d n := ⟨N, hN, h0⟩
    refine (hs.drop h.noSw (processNode_dropped hs.linked hs.referring hN') hstay (.inl hlost)
      fun _ k hk => (hlt k.1 hk).le).congr (fun m => ?_) (fun k _ hk => List.mem_append_left _ hk)
          fun k hk _ hk' => ?_
    · rw [List.mem_append, List.mem_singleton, or_and_right]
      exact or_congr_right (and_iff_left_of_imp fun hm => hm ▸ hlost)
    · exact (List.mem_append.mp hk').resolve_right fun hm => hk (.inr (List.mem_singleton.mp hm))
  · rw [if_neg h0]
    have hnot : ¬Lost d n := by
      rintro ⟨M, hM, hM0⟩
      exact h0 (Option.some.inj (hN.symm.trans hM) ▸ hM0)
    have hsw : d.isSwitch n = N.isSwitch := by
      rw [Subnet.isSwitch, hN]
      rfl
    refine (hs.pkey_run h.size hstay (fun m hm => ⟨hm.2, hlt m hm.1⟩) List.nodup_range'
      fun i hi => ⟨hnd, ?_⟩).congr (fun m => ?_) (fun k _ hk => ?_) fun k _ hm hk => ?_
    · rw [hsw]
      cases hN' : N.isSwitch with
      | true => exact .inl rfl
      | false =>
        rw [hN', if_neg Bool.false_ne_true, List.mem_range'_1] at hi
        exact .inr (Nat.pos_iff_ne_zero.mp hi.1)
    · rw [List.mem_append, List.mem_singleton, or_and_right]
      exact or_iff_left fun hc => hnot (hc.1 ▸ hc.2)
    · rcases hk with hk | ⟨hk, -⟩
      · exact List.mem_append_left _ hk
      · simp [hk]
    · rcases List.mem_append.mp hk with hk | hk
      · exact .inl hk
      · have hkn : k.1 = n := List.mem_singleton.mp hk
        refine .inr ⟨hkn, ?_⟩
        obtain ⟨M, hM, hsize⟩ := h.linked.placed k.1 k.2 hm.1
        obtain rfl : N = M := Option.some.inj (hN.symm.trans (hkn ▸ hM))
        rw [List.mem_range'_1]
        have hfirst := hm.2.2
        rw [hkn, hsw] at hfirst
        split_ifs with hsw'
        · omega
        · have := hfirst.resolve_left hsw'
          omega

lemma pass₁_dropped (h : Consistent d) (hr : d.reset = []) : Dropped d (pass₁ d) (fun _ => True) (Lost d) := by
  have hrun : Dropped d (pass₁ d) (fun k => k.1 ∈ d.nodeGuidTbl.keys)
      fun m => m ∈ d.nodeGuidTbl.keys ∧ Lost d m := by
    refine foldl_handled checkNode (fun done st => Dropped d st (fun k => k.1 ∈ done) fun m => m ∈ done ∧ Lost d m)
      d.nodeGuidTbl.keys d ?_ ?_
    · simpa using dropped_zero h hr
    · intro done n rest st hl hst
      obtain ⟨N, hN⟩ := Qmap.mem_keys.mp (hl ▸ List.mem_append_right done List.mem_cons_self)
      have hsorted := d.nodeGuidTbl.sorted_keys
      rw [hl, List.pairwise_append] at hsorted
      exact checkNode_step h hst (fun m hm => hsorted.2.2 m hm n List.mem_cons_self) hN
  refine hrun.congr (fun m => (and_iff_right_of_imp ?_).symm) (fun _ _ _ => trivial) fun k _ hm _ => ?_
  · rintro ⟨N, hN, -⟩
    exact Qmap.mem_keys.mpr ⟨N, hN⟩
  · obtain ⟨N, hN, -⟩ := h.linked.placed k.1 k.2 hm.1
    exact Qmap.mem_keys.mpr ⟨N, hN⟩

lemma unlink_run (hs : Dropped d s V L) (hsw : d.isSwitch n = true) (hstay : ¬Gone d n) (is : List ℕ) :
    Dropped d (is.foldl (unlinkUndiscovered n) s) V L := by
  induction is generalizing s with
  | nil => exact hs
  | cons i is ih =>
    refine ih ?_
    rw [unlinkUndiscovered]
    split_ifs
    · exact hs
    · split
      · exact hs
      · next r hr => exact hs.unlink hr hsw hstay

/-- One node of the second pass. -/
lemma checkSwitchNode_step (h : Consistent d) {done : List Guid}
    (hs : Dropped d s (fun _ => True) fun m => Lost d m ∨ m ∈ done ∧ Gone d m) (hnd : n ∉ done)
    (hlost : ¬Lost d n) {N : Node}
    (hN : d.nodeGuidTbl.get n = some N) :
    Dropped d (dropMgrCheckSwitchNode s n) (fun _ => True) fun m => Lost d m ∨ m ∈ done ++ [n] ∧ Gone d m := by
  have hstay : ¬(Lost d n ∨ n ∈ done ∧ Gone d n) := not_or.mpr ⟨hlost, fun hc => hnd hc.1⟩
  have hN' : s.nodeGuidTbl.get n = some N := by rw [hs.nodes, if_neg hstay, hN]
  have hsw : d.isSwitch n = N.isSwitch := by
    rw [Subnet.isSwitch, hN]
    rfl
  have hhas : d.hasSw n = N.sw := by
    rw [Subnet.hasSw, hN]
    rfl
  have hguid : (s.physps (n, 0)).portGuid = (d.physps (n, 0)).portGuid := hs.guid (n, 0) hstay
  have hkeep : ¬Gone d n → ∀ st, Dropped d st (fun _ => True) (fun m => Lost d m ∨ m ∈ done ∧ Gone d m) →
      Dropped d st (fun _ => True) fun m => Lost d m ∨ m ∈ done ++ [n] ∧ Gone d m := by
    intro hg st hst
    refine hst.congr (fun m => or_congr_right ?_) (fun _ _ h => h) fun _ _ _ h => h
    rw [List.mem_append, List.mem_singleton, or_and_right]
    exact or_iff_left fun hc => hg (hc.1 ▸ hc.2)
  have hdrop : N.isSwitch = true → (N.sw = false ∨ d.portGuidTbl.get (d.physps (n, 0)).portGuid = none ∨
      ¬Found d (n, 0)) →
      Dropped d (dropMgrProcessNode s n N) (fun _ => True) fun m => Lost d m ∨ m ∈ done ++ [n] ∧ Gone d m := by
    intro hsw' hbad
    have hg : Gone d n := .inr ⟨hsw.trans hsw', hhas ▸ hbad⟩
    refine (hs.drop h.noSw (processNode_dropped hs.linked hs.referring hN') hstay hg
      fun hc => absurd hc hlost).congr (fun m => ?_) (fun _ _ h => h) fun _ _ _ h => h
    rw [or_assoc, List.mem_append, List.mem_singleton, or_and_right]
    exact or_congr_right (or_congr_right (and_iff_left_of_imp fun hm => hm ▸ hg))
  have hport : s.portGuidTbl.get (d.physps (n, 0)).portGuid = none →
      d.portGuidTbl.get (d.physps (n, 0)).portGuid = none := by
    intro hnone
    by_contra hc
    obtain ⟨p, hp⟩ := Option.ne_none_iff_exists'.mp hc
    have hnode := (owned_iff h.linked hp).mp ⟨0, (h.linked.ports _ p hp).1, rfl⟩
    have hsome := hs.kept _ p hp (hnode ▸ hstay)
    rw [hnone] at hsome
    exact Bool.false_ne_true hsome
  have hfound : (s.physps (n, 0)).discovered = true ↔ Found d (n, 0) := by
    rw [hs.found (n, 0) hstay, true_and]
    exact Iff.rfl
  rw [dropMgrCheckSwitchNode, hN']
  dsimp only
  by_cases hsw' : N.isSwitch = false
  · rw [if_pos hsw']
    refine hkeep ?_ s hs
    rintro (hc | hc)
    · exact hlost hc
    · rw [hsw, hsw'] at hc
      exact Bool.false_ne_true hc.1
  have hsw'' : N.isSwitch = true := by simpa using hsw'
  rw [if_neg hsw']
  by_cases hobj : N.sw = false
  · rw [if_pos hobj]
    exact hdrop hsw'' (.inl hobj)
  rw [if_neg hobj]
  by_cases h0 : (s.physps (n, 0)).portGuid = 0
  · rw [if_pos h0]
    refine hdrop hsw'' (.inr (.inl (Option.eq_none_iff_forall_ne_some.mpr fun p hp => ?_)))
    exact (h.linked.ports _ p hp).1 (hguid.symm.trans h0)
  rw [if_neg h0]
  cases hp : s.portGuidTbl.get (s.physps (n, 0)).portGuid with
  | none =>
    rw [hguid] at hp
    exact hdrop hsw'' (.inr (.inl (hport hp)))
  | some p =>
    dsimp only
    by_cases hd : (s.physps (n, 0)).discovered = false
    · rw [if_pos hd]
      exact hdrop hsw'' (.inr (.inr fun hc => absurd (hd.symm.trans (hfound.mpr hc)) Bool.false_ne_true))
    rw [if_neg hd]
    have hg : ¬Gone d n := by
      rintro (hc | ⟨-, hc | hc | hc⟩)
      · exact hlost hc
      · exact hobj (hhas ▸ hc)
      · obtain ⟨q, hq, -⟩ := hs.shrinks.ports _ p hp
        rw [hguid, hc] at hq
        cases hq
      · exact hc (hfound.mp (by simpa using hd))
    split_ifs
    · exact hkeep hg _ (unlink_run hs (hsw.trans hsw'') hg _)
    · exact hkeep hg s hs

/-- After the second pass the nodes to go are gone. -/
lemma pass₂_dropped (h : Consistent d) (hs : Dropped d s (fun _ => True) (Lost d)) :
    Dropped d (pass₂ s) (fun _ => True) (Gone d) := by
  have hkeys : ∀ n, n ∈ s.nodeGuidTbl.keys ↔ ¬Lost d n ∧ ∃ N, d.nodeGuidTbl.get n = some N := by
    intro n
    rw [Qmap.mem_keys, hs.nodes]
    by_cases hl : Lost d n
    · simp [hl]
    · simp [hl]
  have hrun : Dropped d (pass₂ s) (fun _ => True) fun m => Lost d m ∨ m ∈ s.nodeGuidTbl.keys ∧ Gone d m := by
    refine foldl_handled dropMgrCheckSwitchNode (fun done st => Dropped d st (fun _ => True) fun m => Lost d m ∨
      m ∈ done ∧ Gone d m) s.nodeGuidTbl.keys s ?_ ?_
    · simpa using hs
    · intro done n rest st hl hst
      obtain ⟨hlost, N, hN⟩ := (hkeys n).mp (hl ▸ List.mem_append_right done List.mem_cons_self)
      have hnodup := s.nodeGuidTbl.nodup_keys
      rw [hl, List.nodup_append] at hnodup
      exact checkSwitchNode_step h hst (fun hc => hnodup.2.2 n hc n List.mem_cons_self rfl) hlost hN
  refine hrun.congr (fun m => ?_) (fun _ _ h => h) fun _ _ _ h => h
  constructor
  · intro hg
    by_cases hl : Lost d m
    · exact .inl hl
    · obtain ⟨hsw, -⟩ := hg.resolve_left hl
      refine .inr ⟨(hkeys m).mpr ⟨hl, ?_⟩, hg⟩
      rw [Subnet.isSwitch, Option.any_eq_true] at hsw
      exact hsw.imp fun N hN => hN.1
  · rintro (hl | ⟨-, hg⟩)
    · exact .inl hl
    · exact hg

end Runs

end OpenSM.DropMgr
