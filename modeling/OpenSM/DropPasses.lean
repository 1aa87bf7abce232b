import OpenSM.DropNode

/-! The first two passes: which nodes are removed, and the discovery counts of the ports that stay. -/

namespace OpenSM.DropMgr

open Lib Multicast

lemma Port.node_eq {q p : Port} (h : q.physp = p.physp) : q.node = p.node := congrArg Prod.fst h

section Shrinks

variable {d s t : Subnet}

def Cleared (d s : Subnet) (lid : ℕ) : Prop :=
  ∃ g p, d.portGuidTbl.get g = some p ∧ s.portGuidTbl.get g = none ∧ (d.physps p.physp).lids lid

open Classical in
structure Shrinks (d s : Subnet) : Prop where
  ports : ∀ g q, s.portGuidTbl.get g = some q →
    ∃ p, d.portGuidTbl.get g = some p ∧ q.physp = p.physp ∧ ∀ lid, (s.physps q.physp).lids lid ↔
        (d.physps q.physp).lids lid
  lids : ∀ lid, s.portLidTbl lid = if Cleared d s lid then none else d.portLidTbl lid

open Classical in
lemma Shrinks.trans (h : Shrinks d s) (h' : Shrinks s t) : Shrinks d t where
  ports g q hq := by
    obtain ⟨p, hp, hpq, hlids⟩ := h'.ports g q hq
    obtain ⟨p', hp', hpp', hlids'⟩ := h.ports g p hp
    refine ⟨p', hp', hpq.trans hpp', fun lid => (hlids lid).trans ?_⟩
    rw [hpq]
    exact hlids' lid
  lids lid := by
    have hiff : Cleared d t lid ↔ Cleared s t lid ∨ Cleared d s lid := by
      constructor
      · rintro ⟨g, p, hp, hnone, hlid⟩
        cases hs : s.portGuidTbl.get g with
        | none => exact .inr ⟨g, p, hp, hs, hlid⟩
        | some q =>
          obtain ⟨p', hp', hqp, hlids⟩ := h.ports g q hs
          obtain rfl : p = p' := Option.some.inj (hp.symm.trans hp')
          refine .inl ⟨g, q, hs, hnone, (hlids lid).mpr ?_⟩
          rwa [hqp]
      · rintro (⟨g, q, hq, hnone, hlid⟩ | ⟨g, p, hp, hnone, hlid⟩)
        · obtain ⟨p, hp, hqp, hlids⟩ := h.ports g q hq
          exact ⟨g, p, hp, hnone, hqp ▸ (hlids lid).mp hlid⟩
        · refine ⟨g, p, hp, ?_, hlid⟩
          cases ht : t.portGuidTbl.get g with
          | none => rfl
          | some q =>
            obtain ⟨p', hp', -⟩ := h'.ports g q ht
            exact absurd (hnone.symm.trans hp') nofun
    rw [h'.lids, h.lids, if_congr hiff rfl rfl, ite_or]

lemma Shrinks.of_ports (hp : ∀ g q, s.portGuidTbl.get g = some q → ∃ p, d.portGuidTbl.get g = some p ∧
    q.physp = p.physp)
    (hk : ∀ g, (s.portGuidTbl.get g).isSome = (d.portGuidTbl.get g).isSome)
    (hr : ∀ k lid, (s.physps k).lids lid ↔ (d.physps k).lids lid)
        (hl : s.portLidTbl = d.portLidTbl) : Shrinks d s where
  ports g q hq := by
    obtain ⟨p, hp, hqp⟩ := hp g q hq
    exact ⟨p, hp, hqp, hr q.physp⟩
  lids lid := by
    rw [if_neg, hl]
    rintro ⟨g, p, hp, hnone, -⟩
    have hsome := hk g
    rw [hp, hnone] at hsome
    exact absurd hsome Bool.false_ne_true

end Shrinks

section NodeDropped

variable {s t : Subnet} {n : Guid} {g : Guid} {p : Port}

lemma owned_iff (h : Linked s) (hp : s.portGuidTbl.get g = some p) : (∃ j, Owns s n j g) ↔ p.node = n := by
  obtain ⟨h0, hguid, -⟩ := h.ports g p hp
  constructor
  · rintro ⟨j, -, hj⟩
    exact (h.owner (n, j) p.physp (hj ▸ h0) (hguid.trans hj.symm)).1
  · rintro rfl
    exact ⟨p.portNum, h0, hguid⟩

open Classical in
lemma NodeDropped.get_other (h : Linked s) (ht : NodeDropped s t n) (hp : s.portGuidTbl.get g = some p)
    (hn : p.node ≠ n) :
    t.portGuidTbl.get g = some (if ∃ j, Resets s (n, j) g then zeroed p else p) ∧
      (g ∈ t.reset ↔ g ∈ s.reset ∨ ∃ j, Resets s (n, j) g) := by
  have hno : ¬∃ j, Owns s n j g := mt (owned_iff h hp).mp hn
  rw [ht.ports g, if_neg hno, resetIf, hp, ht.reset g (not_exists.mp hno), hp]
  simp

lemma NodeDropped.get_own (h : Linked s) (ht : NodeDropped s t n) (hp : s.portGuidTbl.get g = some p)
    (hn : p.node = n) :
    t.portGuidTbl.get g = none := by
  rw [ht.ports g, if_pos ((owned_iff h hp).mpr hn)]

lemma NodeDropped.of_get (h : Linked s) (ht : NodeDropped s t n) {q : Port} (hq : t.portGuidTbl.get g = some q) :
    ∃ p, s.portGuidTbl.get g = some p ∧ p.node ≠ n ∧ q.physp = p.physp := by
  have hget := ht.ports g
  rw [hq] at hget
  split_ifs at hget with hown
  obtain ⟨p, hp, hpq, -⟩ := resetIf_some hget.symm
  exact ⟨p, hp, mt (owned_iff h hp).mpr hown, hpq⟩

open Classical in
lemma NodeDropped.shrinks (h : Linked s) (ht : NodeDropped s t n) : Shrinks s t where
  ports g q hq := by
    obtain ⟨p, hp, hn, hqp⟩ := ht.of_get h hq
    refine ⟨p, hp, hqp, fun lid => ?_⟩
    rw [hqp, ht.physps _ hn]
    split_ifs <;> exact Iff.rfl
  lids lid := by
    rw [ht.lids]
    refine if_congr (exists_congr fun g => exists_congr fun p => and_congr_right fun hp => and_congr_left
        fun _ => ?_) rfl rfl
    constructor
    · exact ht.get_own h hp
    · intro hnone
      by_contra hn
      rw [(ht.get_other h hp hn).1] at hnone
      exact absurd hnone nofun

lemma NodeDropped.guid_zero (ht : NodeDropped s t n) (j : ℕ) : (t.physps (n, j)).portGuid = 0 := by
  by_contra hv
  obtain ⟨N, hN, -⟩ := ht.linked.placed n j hv
  rw [ht.nodes, Qmap.get_remove, if_pos rfl] at hN
  exact absurd hN nofun

lemma NodeDropped.remote_iff (ht : NodeDropped s t n) {k r : PhyspId} :
    (t.physps k).remote = some r ↔ (s.physps k).remote = some r ∧ k.1 ≠ n ∧ r.1 ≠ n := by
  by_cases hk : k.1 = n
  · refine iff_of_false (fun hr => ?_) fun hc => hc.2.1 hk
    have hv := (ht.linked.symm k r hr).1
    rw [show k = (n, k.2) from Prod.ext hk rfl] at hv
    exact hv (ht.guid_zero k.2)
  rw [ht.physps k hk]
  split_ifs with hcut
  · obtain ⟨j, hj⟩ := hcut
    refine iff_of_false nofun fun hc => hc.2.2 ?_
    rw [hj, Option.some.injEq] at hc
    exact congrArg Prod.fst hc.1.symm
  · refine ⟨fun hr => ⟨hr, hk, fun hn => hcut ⟨r.2, ?_⟩⟩, And.left⟩
    rw [hr, ← hn]

lemma physp_unique (h : Linked s) (hp : s.portGuidTbl.get g = some p)
    (hsw : s.isSwitch p.node = false) {r : PhyspId}
    (hr : (s.physps r).portGuid = g) : r = p.physp := by
  obtain ⟨h0, hguid, -⟩ := h.ports g p hp
  obtain ⟨hn, hnum⟩ := h.owner p.physp r (hguid.symm ▸ h0) (hr.trans hguid.symm)
  rcases hnum with hnum | hsw'
  · exact Prod.ext hn hnum
  · exact absurd (hsw.symm.trans hsw') Bool.false_ne_true

lemma resets_iff_linked (h : Linked s) (hp : s.portGuidTbl.get g = some p) (hsw : s.isSwitch p.node = false)
    (hhas : s.hasSw p.node = false) {k : PhyspId} :
    Resets s k g ↔ g ≠ s.smPortGuid ∧ (s.physps p.physp).remote = some k := by
  constructor
  · rintro ⟨r, hr, hg, -, hsm⟩
    refine ⟨hsm, ?_⟩
    rw [← physp_unique h hp hsw hg]
    exact (h.symm _ _ hr).2.2
  · rintro ⟨hsm, hr⟩
    exact ⟨p.physp, (h.symm _ _ hr).2.2, (h.ports g p hp).2.1, hhas, hsm⟩

lemma not_resets (h : Linked s) (hp : s.portGuidTbl.get g = some p) (hhas : s.hasSw p.node = true) {k : PhyspId} :
    ¬Resets s k g := by
  rintro ⟨r, hr, hg, hno, -⟩
  obtain ⟨h0, hguid, -⟩ := h.ports g p hp
  obtain ⟨hn, -⟩ := h.owner r p.physp (hg.symm ▸ h0) (hguid.trans hg.symm)
  rw [← hn] at hno
  exact absurd (hno.symm.trans hhas) Bool.false_ne_true

end NodeDropped

section Dropped

variable {d s t : Subnet} {V : PhyspId → Prop} {L : Guid → Prop} {n : Guid} {g : Guid} {p : Port}

def Lost (d : Subnet) (n : Guid) : Prop := ∃ N, d.nodeGuidTbl.get n = some N ∧ N.discoveryCount = 0

/-- A P_Key block has not been received; the first port of a node that is not a switch is not looked at. -/
def Missing (d : Subnet) (k : PhyspId) : Prop :=
  (d.physps k).portGuid ≠ 0 ∧ (d.physps k).rcvBlocksCnt ≠ 0 ∧ (d.isSwitch k.1 = true ∨ k.2 ≠ 0)

def Found (d : Subnet) (k : PhyspId) : Prop := (d.physps k).discovered = true ∧ ¬Missing d k

def Gone (d : Subnet) (n : Guid) : Prop :=
  Lost d n ∨ d.isSwitch n = true ∧
    (d.hasSw n = false ∨ d.portGuidTbl.get (d.physps (n, 0)).portGuid = none ∨ ¬Found d (n, 0))

def Subnet.discoveredPorts (d : Subnet) (n g : Guid) : Finset ℕ :=
  (Finset.range ((d.nodeGuidTbl.get n).elim 0 Node.physpTblSize)).filter fun i =>
    (d.physps (n, i)).discovered = true ∧ (d.physps (n, i)).portGuid = g

/-- The count of the port is taken down from zero: its peer's node was lost and is looked at first. -/
def Wrapped (d : Subnet) (V : PhyspId → Prop) (k : PhyspId) : Prop :=
  V k ∧ (d.physps k).discovered = true ∧ Missing d k ∧ ∃ r, (d.physps k).remote = some r ∧ Lost d r.1 ∧ r.1 < k.1

open Classical in
/-- The nodes in `L` have been removed, and the P_Key blocks of the physical ports in `V` have been looked at. -/
structure Dropped (d s : Subnet) (V : PhyspId → Prop) (L : Guid → Prop) : Prop where
  linked : Linked s
  referring : Referring s
  shrinks : Shrinks d s
  sm : s.smPortGuid = d.smPortGuid
  nodes : ∀ n, s.nodeGuidTbl.get n = if L n then none else d.nodeGuidTbl.get n
  guid : ∀ k, ¬L k.1 → (s.physps k).portGuid = (d.physps k).portGuid
  blocks : ∀ k, ¬L k.1 → ¬V k → (s.physps k).rcvBlocksCnt = (d.physps k).rcvBlocksCnt
  found : ∀ k, ¬L k.1 → ((s.physps k).discovered = true ↔ (d.physps k).discovered = true ∧ ¬(V k ∧ Missing d k))
  links : ∀ k r, d.isSwitch k.1 = false → d.isSwitch r.1 = false ∨ Gone d r.1 →
    ((s.physps k).remote = some r ↔ (d.physps k).remote = some r ∧ ¬L k.1 ∧ ¬L r.1)
  kept : ∀ g p, d.portGuidTbl.get g = some p → ¬L p.node → (s.portGuidTbl.get g).isSome
  counted : ∀ g p, s.portGuidTbl.get g = some p → g ∉ s.reset →
      p.discoveryCount = (s.discoveredPorts p.node g).card
  spared : ∀ g p, s.portGuidTbl.get g = some p → d.hasSw p.node = true → g ∉ s.reset
  reset : ∀ g p, s.portGuidTbl.get g = some p → d.isSwitch p.node = false →
    (g ∈ s.reset ↔ g ≠ d.smPortGuid ∧ ∃ r, (d.physps p.physp).remote = some r ∧ L r.1)
  wrapped : ∀ g p, s.portGuidTbl.get g = some p → d.isSwitch p.node = false → g ∈ s.reset →
    p.discoveryCount = if Wrapped d V p.physp then 2 ^ 32 - 1 else 0

namespace Dropped

variable (hs : Dropped d s V L)
include hs

lemma stays (hp : s.portGuidTbl.get g = some p) : ¬L p.node := by
  intro hL
  obtain ⟨h0, hguid, -⟩ := hs.linked.ports g p hp
  obtain ⟨N, hN, -⟩ := hs.linked.placed p.node p.portNum (hguid.symm ▸ h0)
  rw [hs.nodes, if_pos hL] at hN
  exact absurd hN nofun

lemma isSwitch_eq (hn : ¬L n) : s.isSwitch n = d.isSwitch n := by
  rw [Subnet.isSwitch, hs.nodes, if_neg hn, Subnet.isSwitch]

lemma hasSw_eq (hn : ¬L n) : s.hasSw n = d.hasSw n := by
  rw [Subnet.hasSw, hs.nodes, if_neg hn, Subnet.hasSw]

lemma resets_iff (hsw : ∀ m, d.isSwitch m = false → d.hasSw m = false) (hp : s.portGuidTbl.get g = some p)
    (hp' : d.isSwitch p.node = false) (hn : ¬L n) (hg : Gone d n) :
    (∃ j, Resets s (n, j) g) ↔ g ≠ d.smPortGuid ∧ ∃ r, (d.physps p.physp).remote = some r ∧ r.1 = n := by
  have hstays := hs.stays hp
  have hlink : ∀ j, Resets s (n, j) g ↔ g ≠ d.smPortGuid ∧ (d.physps p.physp).remote = some (n, j) := by
    intro j
    rw [resets_iff_linked hs.linked hp (by rw [hs.isSwitch_eq hstays, hp'])
      (by rw [hs.hasSw_eq hstays, hsw _ hp']), hs.sm, hs.links p.physp (n, j) hp' (.inr hg)]
    exact and_congr_right fun _ => and_iff_left ⟨hstays, hn⟩
  constructor
  · rintro ⟨j, hj⟩
    obtain ⟨hsm, hr⟩ := (hlink j).mp hj
    exact ⟨hsm, (n, j), hr, rfl⟩
  · rintro ⟨hsm, r, hr, rfl⟩
    exact ⟨r.2, (hlink r.2).mpr ⟨hsm, hr⟩⟩

/-- A node that is to go is removed. -/
lemma drop (hsw : ∀ m, d.isSwitch m = false → d.hasSw m = false) (ht : NodeDropped s t n) (hn : ¬L n)
    (hg : Gone d n)
    (hlate : Lost d n → ∀ k, V k → k.1 ≤ n) : Dropped d t V fun m => L m ∨ m = n := by
  have hphysp : ∀ k : PhyspId, ¬(L k.1 ∨ k.1 = n) → t.physps k = s.physps k ∨ t.physps k = cut (s.physps k) := by
    intro k hk
    rw [ht.physps k (not_or.mp hk).2]
    split_ifs
    · exact .inr rfl
    · exact .inl rfl
  have hports : ∀ m g, m ≠ n → t.discoveredPorts m g = s.discoveredPorts m g := by
    intro m g hm
    rw [Subnet.discoveredPorts, ht.nodes, Qmap.get_remove, if_neg hm, Subnet.discoveredPorts]
    refine Finset.filter_congr fun i _ => ?_
    rw [ht.physps (m, i) hm]
    split_ifs <;> exact Iff.rfl
  refine ⟨ht.linked, ht.referring, hs.shrinks.trans (ht.shrinks hs.linked), ht.sm.trans hs.sm, fun m => ?_,
    fun k hk => ?_, fun k hk hv => ?_, fun k hk => ?_, fun k r hk hr => ?_, fun g p hp hnode => ?_,
    fun g q hq hres => ?_,
    fun g q hq hhas => ?_, fun g q hq hnode => ?_, fun g q hq hnode hres => ?_⟩
  · rw [ht.nodes, Qmap.get_remove, hs.nodes]
    by_cases hm : m = n
    · simp [hm]
    · by_cases hL : L m <;> simp [hm, hL]
  · rw [← hs.guid k (not_or.mp hk).1]
    rcases hphysp k hk with h | h <;> rw [h]
    rfl
  · rw [← hs.blocks k (not_or.mp hk).1 hv]
    rcases hphysp k hk with h | h <;> rw [h]
    rfl
  · rw [← hs.found k (not_or.mp hk).1]
    rcases hphysp k hk with h | h <;> rw [h]
    rfl
  · rw [ht.remote_iff, hs.links k r hk hr]
    tauto
  · obtain ⟨q, hq⟩ := Option.isSome_iff_exists.mp (hs.kept g p hp (not_or.mp hnode).1)
    obtain ⟨p', hp', hqp, -⟩ := hs.shrinks.ports g q hq
    obtain rfl : p = p' := Option.some.inj (hp.symm.trans hp')
    rw [(ht.get_other hs.linked hq (Port.node_eq hqp ▸ (not_or.mp hnode).2)).1]
    rfl
  · obtain ⟨p, hp, hne, hqp⟩ := ht.of_get hs.linked hq
    obtain ⟨hget, hiff⟩ := ht.get_other hs.linked hp hne
    obtain ⟨hold, hno⟩ := not_or.mp (mt hiff.mpr hres)
    rw [hq, if_neg hno, Option.some.injEq] at hget
    rw [hget, hports _ _ hne]
    exact hs.counted g p hp hold
  · obtain ⟨p, hp, hne, hqp⟩ := ht.of_get hs.linked hq
    have hhas' : d.hasSw p.node = true := Port.node_eq hqp ▸ hhas
    rw [(ht.get_other hs.linked hp hne).2, not_or]
    refine ⟨hs.spared g p hp hhas', ?_⟩
    rintro ⟨j, hj⟩
    exact not_resets hs.linked hp (by rw [hs.hasSw_eq (hs.stays hp), hhas']) hj
  · obtain ⟨p, hp, hne, hqp⟩ := ht.of_get hs.linked hq
    have hnode' : d.isSwitch p.node = false := Port.node_eq hqp ▸ hnode
    rw [(ht.get_other hs.linked hp hne).2, hs.reset g p hp hnode', hs.resets_iff hsw hp hnode' hn hg, hqp,
        ← and_or_left]
    simp only [and_or_left, exists_or]
  · obtain ⟨p, hp, hne, hqp⟩ := ht.of_get hs.linked hq
    have hnode' : d.isSwitch p.node = false := Port.node_eq hqp ▸ hnode
    obtain ⟨hget, hiff⟩ := ht.get_other hs.linked hp hne
    rw [hq, Option.some.injEq] at hget
    rw [hqp]
    by_cases hnew : ∃ j, Resets s (n, j) g
    · rw [if_pos hnew] at hget
      rw [hget, if_neg]
      · rfl
      · rintro ⟨hV, -, -, r, hr, hlost, hlt⟩
        obtain ⟨-, r', hr', rfl⟩ := (hs.resets_iff hsw hp hnode' hn hg).mp hnew
        obtain rfl : r = r' := Option.some.inj (hr.symm.trans hr')
        exact absurd (hlate hlost _ hV) (not_le.mpr hlt)
    · rw [if_neg hnew] at hget
      rw [hget]
      exact hs.wrapped g p hp hnode' ((hiff.mp hres).resolve_right hnew)

end Dropped

end Dropped

end OpenSM.DropMgr
