import OpenSM.LinkRecord

/-! Which links a LinkRecord query finds, and that these are the ones it asks for. -/

namespace OpenSM.LinkRecord

open Pkey

variable {o : ByteOrder} {S : Subn o} {lr : Query} {req p q e e' : Physp} {l : UInt16} {node n : ℕ}
    {pr : Physp × Physp}

section Lids

lemma mask_toNat {k : ℕ} (hk : k ≤ 7) (l : UInt16) :
    (l &&& ~~~((1 <<< UInt16.ofNat k) - 1)).toNat = l.toNat - l.toNat % 2 ^ k := by
  have hlow : ((1 <<< UInt16.ofNat k : UInt16) - 1).toNat = 2 ^ k - 1 := by
    have hall : ∀ k ≤ 7, ((1 <<< UInt16.ofNat k : UInt16) - 1).toNat = 2 ^ k - 1 := by decide
    exact hall k hk
  generalize (1 <<< UInt16.ofNat k : UInt16) - 1 = m at hlow ⊢
  have hand : (l.toBitVec &&& m.toBitVec) &&& (l.toBitVec &&& ~~~m.toBitVec) = 0#16 := by
    ext i
    simp
    tauto
  have hor : (l.toBitVec &&& m.toBitVec) ||| (l.toBitVec &&& ~~~m.toBitVec) = l.toBitVec := by
    rw [← BitVec.and_or_distrib_left, BitVec.or_not_self, BitVec.and_allOnes]
  have hsum := BitVec.toNat_add_of_and_eq_zero hand
  rw [BitVec.add_eq_or_of_and_eq_zero _ _ hand, hor] at hsum
  have hmod : (l.toBitVec &&& m.toBitVec).toNat = l.toNat % 2 ^ k := by
    rw [BitVec.toNat_and, ← Nat.and_two_pow_sub_one_eq_mod, ← hlow]
    rfl
  have hsum' : l.toNat = l.toNat % 2 ^ k + (l &&& ~~~m).toNat := by
    rw [← hmod]
    exact hsum
  omega

lemma endPort_node (p : Physp) : (endPort S p).node = p.node := by
  rw [endPort]
  split_ifs <;> rfl

lemma Consistent.lmcMask (hS : Consistent S) (l : UInt16) :
    (l &&& LinkRecord.lmcMask S).toNat = l.toNat - l.toNat % 2 ^ S.lmc := mask_toNat hS.lmc_le l

/-- The test of a LID, for a port of the node that has it. -/
lemma Consistent.lid_iff (hS : Consistent S) (hp : IsEnd S (endPort S p)) (hl : S.portByLid l = some e)
    (hnode : e.node = p.node) :
    getBaseLid S p = l &&& LinkRecord.lmcMask S ↔ InRange S (endPort S p) l ∧ Unmasked S p (some l) := by
  obtain ⟨he, hin⟩ := (hS.portByLid l e).mp hl
  have hmask := hS.lmcMask l
  have haligned := hS.aligned _ hp
  rw [← UInt16.toNat_inj, hmask, getBaseLid]
  have hmod := Nat.mod_lt l.toNat (Nat.two_pow_pos S.lmc)
  have hmodle := Nat.mod_le l.toNat (2 ^ S.lmc)
  by_cases hbase : S.isSwitch p.node = true ∧ S.enhancedPort0 p.node = false
  · -- The only port with LIDs is port 0, and it has one of them.
    have hsame : e = endPort S p := by
      have hnum : e.portNum = 0 := he.num.mp (hnode ▸ hbase.1)
      rw [endPort, if_pos hbase.1, ← hnode, ← hnum]
    have hlmc : lmcOf S (endPort S p) = 0 := by
      rw [lmcOf, endPort_node, hbase.1, hbase.2]
      rfl
    rw [hsame] at hin
    have heq := hin
    rw [InRange, hlmc] at heq
    have hunmasked : Unmasked S p (some l) ↔ l.toNat % 2 ^ S.lmc = 0 := by
      rw [← Nat.dvd_iff_mod_eq_zero]
      exact ⟨fun h => h l rfl hbase.1 hbase.2, fun h l' hl' _ _ => Option.some.inj hl' ▸ h⟩
    rw [hunmasked, and_iff_right hin]
    omega
  · have hlmc : lmcOf S (endPort S p) = S.lmc := by
      rw [lmcOf, endPort_node, if_neg]
      rw [Bool.and_eq_true, Bool.not_eq_true']
      exact hbase
    have hunmasked : Unmasked S p (some l) := fun _ _ h₁ h₂ => absurd ⟨h₁, h₂⟩ hbase
    rw [and_iff_left hunmasked, InRange, hlmc]
    rw [hlmc] at haligned
    obtain ⟨c, hc⟩ := haligned
    have hdiv := Nat.div_add_mod l.toNat (2 ^ S.lmc)
    rw [hc]
    constructor
    · intro heq
      omega
    · rintro ⟨hle, hlt⟩
      have hquot : l.toNat / 2 ^ S.lmc = c := by
        refine Nat.div_eq_of_lt_le ?_ ?_
        · rw [Nat.mul_comm]
          exact hle
        · rw [Nat.add_mul, Nat.one_mul, Nat.mul_comm]
          exact hlt
      rw [hquot] at hdiv
      omega

end Lids

section Links

variable (S lr req)

/-- The link that a call of `lr_rcv_get_physp_link` reports. -/
def found (src dest : Option Physp) : Option (Physp × Physp) := (ends S src dest).filter (passes S lr req)

def links (srcPort destPort : Option Physp) : List (Physp × Physp) :=
  match srcPort, destPort with
  | some p, some q =>
    (physps S p.node).flatMap fun src => (physps S q.node).filterMap fun dest => found S lr req
        (some src) (some dest)
  | some p, none =>
    match lr.fromPort with
    | some n => (physpAt S p.node n).toList.filterMap fun src => found S lr req (some src) none
    | none => (physps S p.node).filterMap fun src => found S lr req (some src) none
  | none, some q =>
    match lr.toPort with
    | some n => (physpAt S q.node n).toList.filterMap fun dest => found S lr req none (some dest)
    | none => (physps S q.node).filterMap fun dest => found S lr req none (some dest)
  | none, none => S.nodes.flatMap fun node => (physps S node).filterMap fun src => found S lr req (some src) none

variable {S lr req}

lemma getPortLinks_eq (srcPort destPort : Option Physp) :
    getPortLinks S lr req srcPort destPort = (links S lr req srcPort destPort).map (buildPhyspLink S) := by
  have hfound : ∀ src dest, getPhyspLink S lr req src dest = (found S lr req src dest).map (buildPhyspLink S) :=
    fun _ _ => rfl
  cases srcPort with
  | some p =>
    cases destPort with
    | some q => simp only [getPortLinks, links, hfound, List.map_flatMap, List.map_filterMap]
    | none => cases hport : lr.fromPort <;> simp only [getPortLinks, links, hport, hfound, List.map_filterMap]
  | none =>
    cases destPort with
    | some q => cases hport : lr.toPort <;> simp only [getPortLinks, links, hport, hfound, List.map_filterMap]
    | none => simp only [getPortLinks, links, hfound, List.map_flatMap, List.map_filterMap]

lemma found_both : found S lr req (some p) (some q) = some pr ↔
    pr = (p, q) ∧ S.remote p = some q ∧ passes S lr req pr = true := by
  rw [found, ends, Option.filter_eq_some_iff]
  split_ifs with h
  · rw [Option.some.injEq]
    exact ⟨fun hpr => ⟨hpr.1.symm, h, hpr.2⟩, fun hpr => ⟨hpr.1.symm, hpr.2.2⟩⟩
  · exact iff_of_false (fun hpr => hpr.1.elim) fun hpr => h hpr.2.1

lemma found_src : found S lr req (some p) none = some pr ↔
    pr.1 = p ∧ S.remote pr.1 = some pr.2 ∧ passes S lr req pr = true := by
  rw [found, ends, Option.filter_eq_some_iff, Option.map_eq_some_iff]
  constructor
  · rintro ⟨⟨q, hq, rfl⟩, hpass⟩
    exact ⟨rfl, hq, hpass⟩
  · rintro ⟨rfl, hq, hpass⟩
    exact ⟨⟨pr.2, hq, rfl⟩, hpass⟩

lemma found_dest : found S lr req none (some q) = some pr ↔
    pr.2 = q ∧ S.remote pr.2 = some pr.1 ∧ passes S lr req pr = true := by
  rw [found, ends, Option.filter_eq_some_iff, Option.map_eq_some_iff]
  constructor
  · rintro ⟨⟨p, hp, rfl⟩, hpass⟩
    exact ⟨rfl, hp, hpass⟩
  · rintro ⟨rfl, hp, hpass⟩
    exact ⟨⟨pr.1, hp, rfl⟩, hpass⟩

lemma Consistent.mem_physps (hS : Consistent S) (h : S.remote p = some q) :
    p ∈ physps S node ↔ p.node = node ∧ Counted S node := by
  obtain ⟨-, hvalid, hpos, hlt⟩ := hS.remote_external p q h
  have hle := hS.size_le node
  rw [physps, List.mem_filter, List.mem_map]
  constructor
  · rintro ⟨⟨k, hk, rfl⟩, -⟩
    obtain ⟨hk₁, hk₂⟩ := List.mem_range'_1.mp hk
    refine ⟨rfl, lt_of_le_of_ne hle fun heq => ?_⟩
    rw [heq] at hk₂
    omega
  · rintro ⟨rfl, hcount⟩
    refine ⟨⟨p.portNum, List.mem_range'_1.mpr ⟨hpos, ?_⟩, rfl⟩, hvalid⟩
    rw [Nat.mod_eq_of_lt hcount]
    omega

lemma physps_nodup (node : ℕ) : (physps S node).Nodup := by
  refine List.Nodup.filter _ (List.Nodup.map (fun a b hab => ?_) (List.nodup_range' ..))
  exact congrArg Physp.portNum hab

lemma physps_node (h : p ∈ physps S node) : p.node = node := by
  obtain ⟨k, -, rfl⟩ := List.mem_map.mp (List.mem_filter.mp h).1
  rfl

lemma Consistent.mem_physpAt (hS : Consistent S) (h : S.remote p = some q) :
    p ∈ (physpAt S node n).toList ↔ p.node = node ∧ p.portNum = n := by
  obtain ⟨-, hvalid, -, hlt⟩ := hS.remote_external p q h
  rw [Option.mem_toList, physpAt]
  split_ifs with hn
  · rw [Option.filter_eq_some_iff, Option.some.injEq]
    constructor
    · rintro ⟨rfl, -⟩
      exact ⟨rfl, rfl⟩
    · rintro ⟨rfl, rfl⟩
      exact ⟨rfl, hvalid⟩
  · refine iff_of_false (fun hno => hno.elim) ?_
    rintro ⟨rfl, rfl⟩
    exact hn hlt

def Looked (S : Subn o) (lr : Query) (srcPort destPort : Option Physp) (p q : Physp) : Prop :=
  match srcPort, destPort with
  | some e, some e' => (e.node = p.node ∧ Counted S p.node) ∧ (e'.node = q.node ∧ Counted S q.node)
  | some e, none =>
    e.node = p.node ∧ ((∃ n, lr.fromPort = some n ∧ p.portNum = n) ∨ lr.fromPort = none ∧ Counted S p.node)
  | none, some e' =>
    e'.node = q.node ∧ ((∃ n, lr.toPort = some n ∧ q.portNum = n) ∨ lr.toPort = none ∧ Counted S q.node)
  | none, none => Counted S p.node

lemma Consistent.mem_links (hS : Consistent S) {srcPort destPort : Option Physp} :
    (p, q) ∈ links S lr req srcPort destPort ↔
      (S.remote p = some q ∧ passes S lr req (p, q) = true) ∧ Looked S lr srcPort destPort p q := by
  have hsrc : ∀ l : List Physp, (p, q) ∈ (l.filterMap fun src => found S lr req (some src) none) ↔
      (S.remote p = some q ∧ passes S lr req (p, q) = true) ∧ p ∈ l := by
    intro l
    rw [List.mem_filterMap]
    constructor
    · rintro ⟨a, ha, hf⟩
      obtain ⟨rfl, hpq, hpass⟩ := found_src.mp hf
      exact ⟨⟨hpq, hpass⟩, ha⟩
    · rintro ⟨⟨hpq, hpass⟩, hp⟩
      exact ⟨p, hp, found_src.mpr ⟨rfl, hpq, hpass⟩⟩
  have hdest : ∀ l : List Physp, (p, q) ∈ (l.filterMap fun dest => found S lr req none (some dest)) ↔
      (S.remote p = some q ∧ passes S lr req (p, q) = true) ∧ q ∈ l := by
    intro l
    rw [List.mem_filterMap]
    constructor
    · rintro ⟨a, ha, hf⟩
      obtain ⟨rfl, hqp, hpass⟩ := found_dest.mp hf
      exact ⟨⟨hS.remote_symm _ _ hqp, hpass⟩, ha⟩
    · rintro ⟨⟨hpq, hpass⟩, hq⟩
      exact ⟨q, hq, found_dest.mpr ⟨rfl, hS.remote_symm _ _ hpq, hpass⟩⟩
  have hnodeP : S.remote p = some q → p.node ∈ S.nodes := fun h => (hS.remote_external p q h).1
  cases srcPort with
  | some e =>
    cases destPort with
    | some e' =>
      rw [links, List.mem_flatMap]
      constructor
      · rintro ⟨a, ha, hmem⟩
        obtain ⟨b, hb, hf⟩ := List.mem_filterMap.mp hmem
        obtain ⟨heq, hab, hpass⟩ := found_both.mp hf
        obtain ⟨rfl, rfl⟩ := Prod.mk.inj heq
        obtain ⟨hn, hc⟩ := (hS.mem_physps hab).mp ha
        obtain ⟨hn', hc'⟩ := (hS.mem_physps (hS.remote_symm _ _ hab)).mp hb
        exact ⟨⟨hab, hpass⟩, ⟨hn.symm, hn ▸ hc⟩, hn'.symm, hn' ▸ hc'⟩
      · rintro ⟨⟨hpq, hpass⟩, ⟨hn, hc⟩, hn', hc'⟩
        refine ⟨p, (hS.mem_physps hpq).mpr ⟨hn.symm, hn ▸ hc⟩, List.mem_filterMap.mpr ⟨q, ?_, ?_⟩⟩
        · exact (hS.mem_physps (hS.remote_symm _ _ hpq)).mpr ⟨hn'.symm, hn' ▸ hc'⟩
        · exact found_both.mpr ⟨rfl, hpq, hpass⟩
    | none =>
      cases hport : lr.fromPort with
      | some n =>
        simp only [links, Looked, hport, hsrc]
        refine and_congr_right fun h => (hS.mem_physpAt h.1).trans ?_
        simp [eq_comm]
      | none =>
        simp only [links, Looked, hport, hsrc]
        refine and_congr_right fun h => (hS.mem_physps h.1).trans ?_
        constructor
        · rintro ⟨hn, hc⟩
          exact ⟨hn.symm, .inr ⟨trivial, hn ▸ hc⟩⟩
        · rintro ⟨hn, ⟨n, hno, -⟩ | ⟨-, hc⟩⟩
          · cases hno
          · exact ⟨hn.symm, hn ▸ hc⟩
  | none =>
    cases destPort with
    | some e' =>
      cases hport : lr.toPort with
      | some n =>
        simp only [links, Looked, hport, hdest]
        refine and_congr_right fun h => (hS.mem_physpAt (hS.remote_symm _ _ h.1)).trans ?_
        simp [eq_comm]
      | none =>
        simp only [links, Looked, hport, hdest]
        refine and_congr_right fun h => (hS.mem_physps (hS.remote_symm _ _ h.1)).trans ?_
        constructor
        · rintro ⟨hn, hc⟩
          exact ⟨hn.symm, .inr ⟨trivial, hn ▸ hc⟩⟩
        · rintro ⟨hn, ⟨n, hno, -⟩ | ⟨-, hc⟩⟩
          · cases hno
          · exact ⟨hn.symm, hn ▸ hc⟩
    | none =>
      rw [links, List.mem_flatMap, Looked]
      simp only [hsrc]
      constructor
      · rintro ⟨node, -, h, hp⟩
        obtain ⟨rfl, hc⟩ := (hS.mem_physps h.1).mp hp
        exact ⟨h, hc⟩
      · rintro ⟨h, hc⟩
        exact ⟨p.node, hnodeP h.1, h, (hS.mem_physps h.1).mpr ⟨rfl, hc⟩⟩

lemma Consistent.links_nodup (hS : Consistent S) (srcPort destPort : Option Physp) :
    (links S lr req srcPort destPort).Nodup := by
  have hsrc : ∀ a a' : Physp, ∀ b, b ∈ found S lr req (some a) none → b ∈ found S lr req (some a') none → a = a' :=
    fun a a' b h h' => (found_src.mp h).1.symm.trans (found_src.mp h').1
  have hdest : ∀ a a' : Physp, ∀ b, b ∈ found S lr req none (some a) →
      b ∈ found S lr req none (some a') → a = a' :=
    fun a a' b h h' => (found_dest.mp h).1.symm.trans (found_dest.mp h').1
  have hat : ∀ node n, ((physpAt S node n).toList).Nodup := fun node n => by
    cases physpAt S node n with
    | none => exact List.nodup_nil
    | some p => exact List.nodup_singleton p
  rw [links.eq_def]
  split
  · rename_i e e'
    refine List.nodup_flatMap.mpr ⟨fun a _ => ?_, (physps_nodup e.node).imp fun {a a'} hne => ?_⟩
    · refine List.Nodup.filterMap (fun b b' pr h h' => ?_) (physps_nodup e'.node)
      have heq := (found_both.mp h).1.symm.trans (found_both.mp h').1
      exact congrArg Prod.snd heq
    · intro pr h h'
      obtain ⟨b, -, hb⟩ := List.mem_filterMap.mp h
      obtain ⟨b', -, hb'⟩ := List.mem_filterMap.mp h'
      exact hne (congrArg Prod.fst ((found_both.mp hb).1.symm.trans (found_both.mp hb').1))
  · split
    · exact List.Nodup.filterMap hsrc (hat _ _)
    · exact List.Nodup.filterMap hsrc (physps_nodup _)
  · split
    · exact List.Nodup.filterMap hdest (hat _ _)
    · exact List.Nodup.filterMap hdest (physps_nodup _)
  · refine List.nodup_flatMap.mpr ⟨fun node _ => List.Nodup.filterMap hsrc (physps_nodup node),
      hS.nodes_nodup.imp fun {a a'} hne => ?_⟩
    intro pr h h'
    obtain ⟨b, hb, hpr⟩ := List.mem_filterMap.mp h
    obtain ⟨b', hb', hpr'⟩ := List.mem_filterMap.mp h'
    have hsame := hsrc b b' pr hpr hpr'
    exact hne ((physps_node hb).symm.trans ((congrArg Physp.node hsame).trans (physps_node hb')))

lemma Consistent.endPort_inj (hS : Consistent S) (he : IsEnd S e) (he' : IsEnd S e')
    (h : S.baseLid e = S.baseLid e') : e = e' := by
  have hbase : ∀ e, IsEnd S e → S.portByLid (S.baseLid e) = some e := fun e he =>
    (hS.portByLid _ _).mpr ⟨he, le_rfl, Nat.lt_add_of_pos_right (Nat.two_pow_pos _)⟩
  have hsame := hbase e he
  rw [h, hbase e' he'] at hsame
  exact (Option.some.inj hsame).symm

lemma Consistent.physp_inj (hS : Consistent S) {p' q' : Physp} (h : S.remote p = some q)
    (h' : S.remote p' = some q')
    (hlid : getBaseLid S p = getBaseLid S p') (hnum : p.portNum = p'.portNum) : p = p' := by
  have hend := hS.endPort_inj (hS.isEnd p q h) (hS.isEnd p' q' h') hlid
  have hnode : p.node = p'.node := by
    rw [← endPort_node (S := S) p, hend, endPort_node]
  cases p
  cases p'
  simp_all

end Links

section Exact

lemma Consistent.passes_iff (hS : Consistent S) (hlink : S.remote p = some q)
    (hfrom : ∀ l, lr.fromLid = some l → ∃ e, S.portByLid l = some e ∧ e.node = p.node)
    (hto : ∀ l, lr.toLid = some l → ∃ e, S.portByLid l = some e ∧ e.node = q.node) :
    passes S lr req (p, q) = true ↔
      Matches S lr req p q ∧ Unmasked S p lr.fromLid ∧ Unmasked S q lr.toLid := by
  have hp := hS.isEnd p q hlink
  have hq := hS.isEnd q p (hS.remote_symm _ _ hlink)
  have hport : ∀ (port : Option ℕ) (k : ℕ), port.all (fun n => k == n) = true ↔ ∀ n, port = some n → k = n := by
    intro port k
    cases port <;> simp
  have hlid : ∀ (lid : Option UInt16) (k : Physp), IsEnd S (endPort S k) →
      (∀ l, lid = some l → ∃ e, S.portByLid l = some e ∧ e.node = k.node) →
      (lid.all (fun l => getBaseLid S k == l &&& LinkRecord.lmcMask S) = true ↔
        (∀ l, lid = some l → InRange S (endPort S k) l) ∧ Unmasked S k lid) := by
    intro lid k hk howner
    cases lid with
    | none => exact iff_of_true rfl ⟨fun l hl => (Option.some_ne_none l hl.symm).elim,
        fun l hl => (Option.some_ne_none l hl.symm).elim⟩
    | some l =>
      obtain ⟨e, he, hnode⟩ := howner l rfl
      rw [Option.all_some, beq_iff_eq, hS.lid_iff hk he hnode]
      refine and_congr_left' ⟨fun h l' hl' => Option.some.inj hl' ▸ h, fun h => h l rfl⟩
  simp only [passes, Bool.and_eq_true, hport, hlid _ p hp hfrom, hlid _ q hq hto, physpSharePkey_iff]
  constructor
  · rintro ⟨⟨⟨⟨⟨⟨h₁, h₂⟩, h₃⟩, hfp⟩, htp⟩, hfl, hfu⟩, htl, htu⟩
    exact ⟨⟨hlink, hfl, htl, hfp, htp, h₁, h₂, h₃⟩, hfu, htu⟩
  · rintro ⟨⟨-, hfl, htl, hfp, htp, h₁, h₂, h₃⟩, hfu, htu⟩
    exact ⟨⟨⟨⟨⟨⟨h₁, h₂⟩, h₃⟩, hfp⟩, htp⟩, hfl, hfu⟩, htl, htu⟩

lemma Consistent.owner (hS : Consistent S) (h : IsEnd S (endPort S p)) (hin : InRange S (endPort S p) l)
    (hl : S.portByLid l = some e) : e.node = p.node := by
  rw [(hS.portByLid l _).mpr ⟨h, hin⟩] at hl
  rw [← Option.some.inj hl, endPort_node]

def Resolved (S : Subn o) (lid : Option UInt16) (port : Option Physp) : Prop :=
  match lid with
  | some l => ∃ e, S.portByLid l = some e ∧ port = some e
  | none => port = none

lemma Consistent.looked_iff (hS : Consistent S) {src dest : Option Physp} (hsrc : Resolved S lr.fromLid src)
    (hdest : Resolved S lr.toLid dest) (h : Matches S lr req p q) :
    Looked S lr src dest p q ↔ Looped S lr p q := by
  have hp := hS.isEnd p q h.linked
  have hq := hS.isEnd q p (hS.remote_symm _ _ h.linked)
  have hport : ∀ (port : Option ℕ) (k : ℕ) (C : Prop), (∀ n, port = some n → k = n) →
      (((∃ n, port = some n ∧ k = n) ∨ port = none ∧ C) ↔ (port = none → C)) := by
    intro port k C hall
    cases port with
    | none => simp
    | some n => simp [hall n rfl]
  rw [Looped]
  cases hfl : lr.fromLid with
  | some l =>
    rw [hfl] at hsrc
    obtain ⟨e, he, rfl⟩ := hsrc
    have hnode := hS.owner hp (h.fromLid l hfl) he
    cases htl : lr.toLid with
    | some l' =>
      rw [htl] at hdest
      obtain ⟨e', he', rfl⟩ := hdest
      have hnode' := hS.owner hq (h.toLid l' htl) he'
      simp only [Looked, hnode, hnode', true_and]
    | none =>
      rw [htl] at hdest
      cases hdest
      simp only [Looked, hnode, true_and]
      exact hport _ _ _ h.fromPort
  | none =>
    rw [hfl] at hsrc
    cases hsrc
    cases htl : lr.toLid with
    | some l' =>
      rw [htl] at hdest
      obtain ⟨e', he', rfl⟩ := hdest
      have hnode' := hS.owner hq (h.toLid l' htl) he'
      simp only [Looked, hnode', true_and]
      exact hport _ _ _ h.toPort
    | none =>
      rw [htl] at hdest
      cases hdest
      rfl

lemma Looked.owners {src dest : Option Physp} (hsrc : Resolved S lr.fromLid src) (hdest : Resolved S lr.toLid dest)
    (h : Looked S lr src dest p q) :
    (∀ l, lr.fromLid = some l → ∃ e, S.portByLid l = some e ∧ e.node = p.node) ∧
      ∀ l, lr.toLid = some l → ∃ e, S.portByLid l = some e ∧ e.node = q.node := by
  constructor
  · intro l hl
    rw [hl] at hsrc
    obtain ⟨e, he, rfl⟩ := hsrc
    refine ⟨e, he, ?_⟩
    cases dest with
    | some e' => exact h.1.1
    | none => exact h.1
  · intro l hl
    rw [hl] at hdest
    obtain ⟨e, he, rfl⟩ := hdest
    refine ⟨e, he, ?_⟩
    cases src with
    | some e' => exact h.2.1
    | none => exact h.1

lemma Consistent.mem_links_iff (hS : Consistent S) {src dest : Option Physp} (hsrc : Resolved S lr.fromLid src)
    (hdest : Resolved S lr.toLid dest) :
    (p, q) ∈ links S lr req src dest ↔ Matches S lr req p q ∧ Found S lr p q := by
  rw [hS.mem_links]
  constructor
  · rintro ⟨⟨hlink, hpass⟩, hlook⟩
    obtain ⟨hfrom, hto⟩ := hlook.owners hsrc hdest
    obtain ⟨hmatch, hfu, htu⟩ := (hS.passes_iff hlink hfrom hto).mp hpass
    exact ⟨hmatch, hfu, htu, (hS.looked_iff hsrc hdest hmatch).mp hlook⟩
  · rintro ⟨hmatch, hfound⟩
    have hlook := (hS.looked_iff hsrc hdest hmatch).mpr hfound.loop
    obtain ⟨hfrom, hto⟩ := hlook.owners hsrc hdest
    exact ⟨⟨hmatch.linked, (hS.passes_iff hmatch.linked hfrom hto).mpr ⟨hmatch, hfound.fromLid, hfound.toLid⟩⟩,
        hlook⟩

lemma endPoint_some {lid : Option UInt16} {port : Option Physp} (h : endPoint S lid = some port) :
    Resolved S lid port := by
  cases lid with
  | none => exact (Option.some.inj h).symm
  | some l =>
    obtain ⟨e, he, rfl⟩ := Option.map_eq_some_iff.mp h
    exact ⟨e, he, rfl⟩

lemma getEndPoints_some {src dest : Option Physp} (h : getEndPoints S lr = some (src, dest)) :
    Resolved S lr.fromLid src ∧ Resolved S lr.toLid dest := by
  obtain ⟨src', hsrc, h⟩ := Option.bind_eq_some_iff.mp h
  obtain ⟨dest', hdest, h⟩ := Option.bind_eq_some_iff.mp h
  obtain ⟨rfl, rfl⟩ := Prod.mk.inj (Option.some.inj h)
  exact ⟨endPoint_some hsrc, endPoint_some hdest⟩

lemma Consistent.getEndPoints_none (hS : Consistent S) (h : getEndPoints S lr = none) :
    ¬ Matches S lr req p q := by
  intro hmatch
  have hp := hS.isEnd p q hmatch.linked
  have hq := hS.isEnd q p (hS.remote_symm _ _ hmatch.linked)
  have hfrom : ∀ l, lr.fromLid = some l → S.portByLid l = some (endPort S p) := fun l hl =>
    (hS.portByLid _ _).mpr ⟨hp, hmatch.fromLid l hl⟩
  have hto : ∀ l, lr.toLid = some l → S.portByLid l = some (endPort S q) := fun l hl =>
    (hS.portByLid _ _).mpr ⟨hq, hmatch.toLid l hl⟩
  rw [getEndPoints] at h
  cases hfl : lr.fromLid <;> cases htl : lr.toLid <;> simp_all [endPoint]

lemma Consistent.exists_links (hS : Consistent S) : ∃ list : List (Physp × Physp),
    list.Nodup ∧ lrRcvProcess S lr req = list.map (buildPhyspLink S) ∧
      ∀ p q, (p, q) ∈ list ↔ Matches S lr req p q ∧ Found S lr p q := by
  cases hend : getEndPoints S lr with
  | none =>
    refine ⟨[], List.nodup_nil, ?_, fun p q => ?_⟩
    · rw [lrRcvProcess, hend]
      rfl
    · exact iff_of_false List.not_mem_nil fun h => hS.getEndPoints_none hend h.1
  | some ends =>
    obtain ⟨src, dest⟩ := ends
    obtain ⟨hsrc, hdest⟩ := getEndPoints_some hend
    refine ⟨links S lr req src dest, hS.links_nodup _ _, ?_, fun p q => hS.mem_links_iff hsrc hdest⟩
    rw [lrRcvProcess, hend]
    exact getPortLinks_eq src dest

/-- The list is exact if and only if each link asked for is found. -/
theorem records_exact (hS : Consistent S) :
    Exact S lr req (lrRcvProcess S lr req) ↔ ∀ p q, Matches S lr req p q → Found S lr p q := by
  obtain ⟨list, hnodup, heq, hmem⟩ := @Consistent.exists_links o S lr req hS
  rw [heq]
  constructor
  · rintro ⟨list', hnodup', heq', hmem'⟩ p q hmatch
    have hin : buildPhyspLink S (p, q) ∈ list.map (buildPhyspLink S) :=
      heq' ▸ List.mem_map_of_mem ((hmem' (p, q)).mpr hmatch)
    obtain ⟨⟨p', q'⟩, hpq', hrec⟩ := List.mem_map.mp hin
    obtain ⟨hmatch', hfound⟩ := (hmem p' q').mp hpq'
    rw [buildPhyspLink, buildPhyspLink, LinkRec.mk.injEq] at hrec
    have hp := hS.physp_inj hmatch'.linked hmatch.linked hrec.1 hrec.2.1
    have hq := hS.physp_inj (hS.remote_symm _ _ hmatch'.linked) (hS.remote_symm _ _ hmatch.linked)
      hrec.2.2.1 hrec.2.2.2
    exact hp ▸ hq ▸ hfound
  · intro hall
    refine ⟨list, hnodup, rfl, fun pr => (hmem pr.1 pr.2).trans ?_⟩
    exact and_iff_left_of_imp (hall pr.1 pr.2)

lemma built_init : ∃ calls, fill ByteOrder.little false calls = some Tbl.init := ⟨[], rfl⟩

def oneLink : Subn ByteOrder.little where
  nodes := [0, 1]
  isSwitch node := node == 0
  enhancedPort0 _ := false
  physpTblSize _ := 2
  valid p := p == ⟨0, 0⟩ || p == ⟨0, 1⟩ || p == ⟨1, 1⟩
  remote p := if p = ⟨0, 1⟩ then some ⟨1, 1⟩ else if p = ⟨1, 1⟩ then some ⟨0, 1⟩ else none
  baseLid p := if p = ⟨0, 0⟩ then 3 else 4
  lmc := 1
  portByLid l := if l = 3 then some ⟨0, 0⟩ else if l = 4 ∨ l = 5 then some ⟨1, 1⟩ else none
  allowBothPkeys := false
  pkeyTbl _ := ⟨Tbl.init, built_init⟩

lemma oneLink_isEnd : IsEnd oneLink e ↔ e = ⟨0, 0⟩ ∨ e = ⟨1, 1⟩ := by
  constructor
  · rintro ⟨-, hvalid, hnum⟩
    simp only [oneLink, Bool.or_eq_true, beq_iff_eq] at hvalid
    obtain (rfl | rfl) | rfl := hvalid
    · exact .inl rfl
    · exact absurd (hnum.mp rfl) one_ne_zero
    · exact .inr rfl
  · rintro (rfl | rfl)
    · exact ⟨by decide, rfl, by decide⟩
    · exact ⟨by decide, rfl, by decide⟩

lemma oneLink_remote : oneLink.remote p = some q ↔ p = ⟨0, 1⟩ ∧ q = ⟨1, 1⟩ ∨ p = ⟨1, 1⟩ ∧ q = ⟨0, 1⟩ := by
  simp only [oneLink]
  split_ifs with h₁ h₂
  · subst h₁
    simp [eq_comm]
  · subst h₂
    simp [eq_comm]
  · simp [h₁, h₂]

lemma oneLink_inRange : (InRange oneLink ⟨0, 0⟩ l ↔ l = 3) ∧ (InRange oneLink ⟨1, 1⟩ l ↔ l = 4 ∨ l = 5) := by
  have hswitch : InRange oneLink ⟨0, 0⟩ l ↔ 3 ≤ l.toNat ∧ l.toNat < 4 := Iff.rfl
  have hadapter : InRange oneLink ⟨1, 1⟩ l ↔ 4 ≤ l.toNat ∧ l.toNat < 6 := Iff.rfl
  rw [hswitch, hadapter]
  simp only [← UInt16.toNat_inj, UInt16.reduceToNat]
  omega

lemma oneLink_consistent : Consistent oneLink where
  nodes_nodup := by decide
  size_le _ := Nat.le_of_ble_eq_true rfl
  lmc_le := by decide
  remote_symm p q h := by
    rw [oneLink_remote] at h ⊢
    tauto
  remote_external p q h := by
    obtain ⟨rfl, -⟩ | ⟨rfl, -⟩ := oneLink_remote.mp h <;> decide
  isEnd p q h := by
    rw [oneLink_isEnd]
    obtain ⟨rfl, -⟩ | ⟨rfl, -⟩ := oneLink_remote.mp h <;> decide
  aligned e h := by
    obtain rfl | rfl := oneLink_isEnd.mp h <;> decide
  portByLid l e := by
    rw [oneLink_isEnd]
    constructor
    · intro h
      simp only [oneLink] at h
      split_ifs at h with h₁ h₂
      · rw [← Option.some.inj h]
        exact ⟨.inl rfl, oneLink_inRange.1.mpr h₁⟩
      · rw [← Option.some.inj h]
        exact ⟨.inr rfl, oneLink_inRange.2.mpr h₂⟩
    · rintro ⟨rfl | rfl, hin⟩
      · rw [oneLink_inRange.1.mp hin]
        rfl
      · obtain rfl | rfl := oneLink_inRange.2.mp hin <;> rfl

lemma oneLink_share (p q : Physp) : SharePkey oneLink.pkeyTbl p q := .inr (.inl rfl)

theorem records_exact_oneLink : Exact oneLink ⟨none, none, none, none⟩ ⟨1, 1⟩
    (lrRcvProcess oneLink ⟨none, none, none, none⟩ ⟨1, 1⟩) :=
  (records_exact oneLink_consistent).mpr fun _ _ _ =>
    ⟨fun l hl => (Option.some_ne_none l hl.symm).elim, fun l hl => (Option.some_ne_none l hl.symm).elim,
      Nat.lt_of_succ_le (Nat.le_of_ble_eq_true rfl)⟩

/-- The link from the switch is not in the list when the query gives its LID. -/
theorem base_port_missed : Consistent oneLink ∧ Matches oneLink ⟨some 3, none, none, none⟩ ⟨1, 1⟩ ⟨0, 1⟩ ⟨1, 1⟩ ∧
    ¬ Exact oneLink ⟨some 3, none, none, none⟩ ⟨1, 1⟩
      (lrRcvProcess oneLink ⟨some 3, none, none, none⟩ ⟨1, 1⟩) := by
  have hno : ∀ n : ℕ, (none : Option ℕ) ≠ some n := fun n h => Option.some_ne_none n h.symm
  have hmatch : Matches oneLink ⟨some 3, none, none, none⟩ ⟨1, 1⟩ ⟨0, 1⟩ ⟨1, 1⟩ := {
    linked := rfl
    fromLid l hl := oneLink_inRange.1.mpr (Option.some.inj hl).symm
    toLid l hl := (Option.some_ne_none l hl.symm).elim
    fromPort n hn := (hno n hn).elim
    toPort n hn := (hno n hn).elim
    share := ⟨oneLink_share _ _, oneLink_share _ _, oneLink_share _ _⟩ }
  refine ⟨oneLink_consistent, hmatch, ?_⟩
  rintro ⟨links, -, hlist, hmem⟩
  have hnil : lrRcvProcess oneLink ⟨some 3, none, none, none⟩ ⟨1, 1⟩ = [] := by decide
  rw [hnil] at hlist
  rw [List.map_eq_nil_iff.mp hlist.symm] at hmem
  exact List.not_mem_nil ((hmem (⟨0, 1⟩, ⟨1, 1⟩)).mpr hmatch)

end Exact

end OpenSM.LinkRecord
