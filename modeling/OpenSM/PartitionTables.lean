import OpenSM.PartitionConfig

/-! What the operations on the partitions leave alone, and the P_Keys and names in the table. -/

namespace OpenSM.Partition

open Lib Lib.CString Multicast

variable {env : Env} {s s' : Subn}

section Ids

def prtnIds (s : Subn) : Qmap ℕ (ℕ × Str) := s.prtnPkeyTbl.map fun p => (p.pkey, p.name)

lemma prtnIds_modifyPrtn {pkey : ℕ} {f : Prtn → Prtn} (hf : ∀ p, (f p).pkey = p.pkey ∧ (f p).name = p.name) :
    prtnIds (modifyPrtn env s pkey f) = prtnIds s := by
  refine Qmap.ext_get fun k => ?_
  simp only [prtnIds, modifyPrtn, Qmap.get_map, Qmap.get_modify]
  split_ifs with hk
  · subst hk
    simp only [Option.map_map]
    refine congrFun (congrArg Option.map ?_) _
    funext p
    simp [hf p]
  · rfl

lemma prtnPkeyTbl_releaseMgrps {rs : List MgrpRef} (h : releaseMgrps s rs = some s') :
    s'.prtnPkeyTbl = s.prtnPkeyTbl ∧ s'.indx0Pkey = s.indx0Pkey := by
  induction rs generalizing s with
  | nil =>
    obtain rfl := Option.some.inj h
    exact ⟨rfl, rfl⟩
  | cons r rs ih =>
    simp only [releaseMgrps] at h
    cases hd : derefMgrp s r with
    | none => simp [hd] at h
    | some g =>
      rw [hd] at h
      exact ih (s := mgrpCleanup (setWellKnown s r.1 false) r.1) h

lemma prtnPkeyTbl_prtnDelete {p : Prtn} (h : prtnDelete env s p = some s') :
    s'.prtnPkeyTbl = s.prtnPkeyTbl.remove (env.hton16 p.pkey) ∧ s'.indx0Pkey = s.indx0Pkey :=
  prtnPkeyTbl_releaseMgrps h

lemma prtnIds_prtnDelete {p : Prtn} (h : prtnDelete env s p = some s') :
    prtnIds s' = (prtnIds s).remove (env.hton16 p.pkey) := by
  rw [prtnIds, (prtnPkeyTbl_prtnDelete h).1]
  exact Qmap.map_remove _ _ _

lemma putPort_id (guid : Guid) (full : Bool) (p : Prtn) :
    (putPort env guid full p).pkey = p.pkey ∧ (putPort env guid full p).name = p.name := by
  cases full <;> exact ⟨rfl, rfl⟩

@[simp] lemma prtnIds_osmPrtnAddPort (pkey : ℕ) (guid : Guid) (full indx0 : Bool) :
    prtnIds (osmPrtnAddPort env s pkey guid full indx0) = prtnIds s := by
  simp only [osmPrtnAddPort]
  cases env.ports.get guid with
  | none => rfl
  | some t => exact prtnIds_modifyPrtn (putPort_id guid full)

lemma prtnIds_foldl {α : Type*} {f : Subn → α → Subn} (hf : ∀ s a, prtnIds (f s a) = prtnIds s) (l : List α) :
    prtnIds (l.foldl f s) = prtnIds s := by
  induction l generalizing s with
  | nil => rfl
  | cons a l ih => exact ih.trans (hf s a)

@[simp] lemma prtnIds_osmPrtnAddAll (pkey : ℕ) (type : Option NodeType) (full indx0 : Bool) :
    prtnIds (osmPrtnAddAll env s pkey type full indx0) = prtnIds s := by
  refine prtnIds_foldl (fun s e => ?_) _
  split_ifs
  · exact prtnIds_osmPrtnAddPort _ _ _ _
  · rfl

@[simp] lemma prtnIds_addTarget (pkey : ℕ) (full indx0 : Bool) (target : Target) :
    prtnIds (addTarget env s pkey full indx0 target) = prtnIds s := by
  cases target with
  | all type => exact prtnIds_osmPrtnAddAll _ _ _ _
  | guid guid => exact prtnIds_osmPrtnAddPort _ _ _ _

lemma manageMembershipChange_id (target : Target) (m : Membership) (p : Prtn) :
    (manageMembershipChange env target m p).pkey = p.pkey ∧
        (manageMembershipChange env target m p).name = p.name := by
  simp only [manageMembershipChange]
  split_ifs <;> exact ⟨rfl, rfl⟩

@[simp] lemma prtnIds_addMembership (pkey : ℕ) (target : Target) (m : Membership) (indx0 : Bool) :
    prtnIds (addMembership env s pkey target m indx0) = prtnIds s := by
  have hmanage : prtnIds (modifyPrtn env s pkey (manageMembershipChange env target m)) = prtnIds s :=
    prtnIds_modifyPrtn (manageMembershipChange_id target m)
  simp only [addMembership]
  split_ifs <;> simp only [prtnIds_addTarget, hmanage]

def dropMgrps (p : Prtn) : Prtn := { p with sl := defaultSl, mgrps := [] }

structure SamePrtns (s s' : Subn) : Prop where
  tbl : s'.prtnPkeyTbl.map dropMgrps = s.prtnPkeyTbl.map dropMgrps
  indx0 : s'.indx0Pkey = s.indx0Pkey

lemma SamePrtns.refl (s : Subn) : SamePrtns s s := ⟨rfl, rfl⟩

lemma SamePrtns.trans {s s₁ s₂ : Subn} (h : SamePrtns s s₁) (h' : SamePrtns s₁ s₂) : SamePrtns s s₂ :=
  ⟨h'.tbl.trans h.tbl, h'.indx0.trans h.indx0⟩

lemma SamePrtns.view {β : Type*} (h : SamePrtns s s') (f : Prtn → β) (hf : ∀ p, f (dropMgrps p) = f p) (k : ℕ) :
    (s'.prtnPkeyTbl.get k).map f = (s.prtnPkeyTbl.get k).map f := by
  have hget := congrArg (fun m => (Qmap.get m k).map f) h.tbl
  simp only [Qmap.get_map, Option.map_map] at hget
  rwa [show f ∘ dropMgrps = f from funext hf] at hget

lemma SamePrtns.prtnIds (h : SamePrtns s s') : prtnIds s' = prtnIds s := by
  refine Qmap.ext_get fun k => ?_
  simp only [Partition.prtnIds, Qmap.get_map]
  exact h.view _ (fun _ => rfl) k

lemma SamePrtns.foldl {α : Type*} {f : Subn → α → Subn} (hf : ∀ s a, SamePrtns s (f s a)) (l : List α) (s : Subn) :
    SamePrtns s (l.foldl f s) := by
  induction l generalizing s with
  | nil => exact .refl s
  | cons a l ih => exact (hf s a).trans (ih (f s a))

lemma samePrtns_findOrCreateNewMgrp (s : Subn) (r : MemberRec) : SamePrtns s (findOrCreateNewMgrp env s r).1 := by
  simp only [findOrCreateNewMgrp]
  split <;> exact ⟨rfl, rfl⟩

lemma samePrtns_modifyPrtn (pkey : ℕ) {f : Prtn → Prtn} (hf : ∀ p, dropMgrps (f p) = dropMgrps p) :
    SamePrtns s (modifyPrtn env s pkey f) := by
  refine ⟨?_, rfl⟩
  refine Qmap.ext_get fun k => ?_
  simp only [modifyPrtn, Qmap.get_map, Qmap.get_modify]
  split_ifs with hk
  · subst hk
    rw [Option.map_map, show dropMgrps ∘ f = dropMgrps from funext hf]
  · rfl

lemma samePrtns_trackMgrpWPartition (s : Subn) (p : Prtn) (m : Mgid) :
    SamePrtns s (trackMgrpWPartition env s p m) := by
  simp only [trackMgrpWPartition]
  split_ifs
  · exact .refl s
  · have hmod : SamePrtns s (modifyPrtn env s p.pkey fun p => { p with mgrps := p.mgrps ++ [(m, s.serial m)] }) :=
      samePrtns_modifyPrtn p.pkey fun _ => rfl
    exact ⟨hmod.tbl, rfl⟩

lemma samePrtns_osmPrtnAddMcgroup (s : Subn) (pkey : ℕ) (f : GroupFlags) (scope : ℕ) (m : Mgid) :
    SamePrtns s (osmPrtnAddMcgroup env s pkey f scope m) := by
  have hfind := @samePrtns_findOrCreateNewMgrp env s (mcRec env pkey f (scopeOr scope) m)
  simp only [osmPrtnAddMcgroup]
  rcases hc : findOrCreateNewMgrp env s (mcRec env pkey f (scopeOr scope) m) with ⟨s', _ | m'⟩ <;> rw [hc] at hfind
  · exact hfind
  · change SamePrtns s ((getPrtn env s' pkey).elim s' fun p => trackMgrpWPartition env s' p m')
    cases getPrtn env s' pkey with
    | none => exact hfind
    | some p => exact hfind.trans (samePrtns_trackMgrpWPartition s' p m')

lemma samePrtns_createMgrp (s : Subn) (pkey : ℕ) (f : GroupFlags) (m : Mgid) :
    SamePrtns s (createMgrp env s pkey f m) :=
  .foldl (fun s _ => samePrtns_osmPrtnAddMcgroup s _ _ _ _) _ s

lemma samePrtns_mgroupCreate (s : Subn) (conf : PartConf) (pkey : ℕ) (mgid : Str) (flags : List Token) :
    SamePrtns s (mgroupCreate env s conf pkey mgid flags) := by
  simp only [mgroupCreate]
  split
  · exact .refl s
  · split
    · exact .refl s
    · exact samePrtns_createMgrp s _ _ _

lemma prtnIds_actEntry {c c' : Parsing} {pkey : ℕ} {e : Entry} (h : actEntry env c pkey e = some c') :
    prtnIds c'.subn = prtnIds c.subn := by
  cases e with
  | port t =>
    obtain ⟨s, hs, rfl⟩ := Option.map_eq_some_iff.mp h
    simp only [partitionAddPort] at hs
    split_ifs at hs
    · exact congrArg prtnIds (Option.some.inj hs).symm
    · obtain ⟨target, -, rfl⟩ := Option.map_eq_some_iff.mp hs
      exact prtnIds_addMembership _ _ _ _
  | mgid val flags =>
    obtain rfl := Option.some.inj h
    exact (samePrtns_mgroupCreate _ _ _ _ _).prtnIds

@[simp] lemma prtnIds_clearPortMaps : prtnIds (clearPortMaps s) = prtnIds s := by
  refine Qmap.ext_get fun k => ?_
  simp only [prtnIds, clearPortMaps, Qmap.get_map, Option.map_map]
  rfl

end Ids

section WellFormed

structure IdsWf (host : ℕ → ℕ) (ids : Qmap ℕ (ℕ × Str)) : Prop where
  key : ∀ k p, ids.get k = some p → k = host p.1
  pos : ∀ k p, ids.get k = some p → 0 < p.1
  lt : ∀ k p, ids.get k = some p → p.1 < 2 ^ 15
  name_pos : ∀ k p, ids.get k = some p → p.2 ≠ []
  name_lt : ∀ k p, ids.get k = some p → p.2.length < 32

lemma IdsWf.insert {ids : Qmap ℕ (ℕ × Str)} (h : IdsWf env.hton16 ids) {pkey : ℕ} {name : Str} (hpos : 0 < pkey)
    (hlt : pkey < 2 ^ 15) (hname : name ≠ []) (hlen : name.length < 32) :
    IdsWf env.hton16 (ids.insert (env.hton16 pkey) (pkey, name)) := by
  have hget : ∀ k p, (ids.insert (env.hton16 pkey) (pkey, name)).get k = some p →
      ids.get k = some p ∨ (k = env.hton16 pkey ∧ p = (pkey, name)) := by
    intro k p hp
    rw [Qmap.get_insert] at hp
    split_ifs at hp with hk
    · subst hk
      cases ho : ids.get (env.hton16 pkey) with
      | none => exact .inr ⟨rfl, by simpa [ho] using hp.symm⟩
      | some q => exact .inl (by simpa [ho] using hp)
    · exact .inl hp
  constructor <;> intro k p hp <;> rcases hget k p hp with ho | ⟨rfl, rfl⟩
  · exact h.key k p ho
  · rfl
  · exact h.pos k p ho
  · exact hpos
  · exact h.lt k p ho
  · exact hlt
  · exact h.name_pos k p ho
  · exact hname
  · exact h.name_lt k p ho
  · exact hlen

lemma IdsWf.remove {host : ℕ → ℕ} {ids : Qmap ℕ (ℕ × Str)} (h : IdsWf host ids) (k : ℕ) :
    IdsWf host (ids.remove k) := by
  have hget : ∀ k' p, (ids.remove k).get k' = some p → ids.get k' = some p := by
    intro k' p hp
    rw [Qmap.get_remove] at hp
    split_ifs at hp
    exact hp
  exact ⟨fun k p hp => h.key k p (hget k p hp), fun k p hp => h.pos k p (hget k p hp),
    fun k p hp => h.lt k p (hget k p hp), fun k p hp => h.name_pos k p (hget k p hp),
    fun k p hp => h.name_lt k p (hget k p hp)⟩

def Wf (env : Env) (s : Subn) : Prop := IdsWf env.hton16 (prtnIds s)

lemma get_prtnIds {k : ℕ} : (prtnIds s).get k = (s.prtnPkeyTbl.get k).map fun p => (p.pkey, p.name) :=
    Qmap.get_map _ _ _

lemma Wf.of_get (h : Wf env s) {k : ℕ} {p : Prtn} (hp : s.prtnPkeyTbl.get k = some p) :
    k = env.hton16 p.pkey ∧ 0 < p.pkey ∧ p.pkey < 2 ^ 15 ∧ p.name ≠ [] ∧ p.name.length < 32 := by
  have hid : (prtnIds s).get k = some (p.pkey, p.name) := by rw [get_prtnIds, hp]; rfl
  exact ⟨h.key k _ hid, h.pos k _ hid, h.lt k _ hid, h.name_pos k _ hid, h.name_lt k _ hid⟩

lemma Wf.getPrtn_pkey (h : Wf env s) {pkey : ℕ} (hlt : pkey < 2 ^ 15) {p : Prtn}
    (hp : getPrtn env s pkey = some p) :
    p.pkey = pkey := by
  obtain ⟨hk, -, hp15, -⟩ := h.of_get hp
  exact (env.hton16_inj pkey p.pkey (by omega) (by omega) hk).symm

lemma prtnNew_name (name : Option Str) {pkey : ℕ} (h : pkey < 2 ^ 15) :
    (prtnNew name pkey).name ≠ [] ∧ (prtnNew name pkey).name.length < 32 := by
  simp only [prtnNew]
  split_ifs with hname
  · refine ⟨fun hnil => hname ?_, ?_⟩
    · simpa using hnil
    · rw [List.length_take]
      omega
  · have hlen : (printNat 16 4 pkey).length = 4 := printNat_length_eq (by decide) (h.trans (by decide))
    exact ⟨fun hnil => by simp [hnil] at hlen, by omega⟩

lemma prtnIds_insertPrtn (p : Prtn) :
    prtnIds (insertPrtn env s p) = (prtnIds s).insert (env.hton16 p.pkey) (p.pkey, p.name) :=
        Qmap.map_insert _ _ _ _

lemma Wf.insertPrtn (h : Wf env s) (name : Option Str) {pkey : ℕ} (hpos : 0 < pkey) (hlt : pkey < 2 ^ 15) :
    Wf env (insertPrtn env s (prtnNew name pkey)) := by
  have hname := prtnNew_name name hlt
  rw [Wf, prtnIds_insertPrtn]
  exact h.insert hpos hlt hname.1 hname.2

lemma strncmpEq_iff {a b : Str} (h : a.length < 32) : strncmpEq 32 a b = true ↔ b = a := by
  rw [strncmpEq, decide_eq_true_eq, List.take_of_length_le h.le]
  refine ⟨fun hab => ?_, ?_⟩
  · have hlen := congrArg List.length hab
    rw [List.length_take] at hlen
    rw [hab, List.take_of_length_le (by omega)]
  · rintro rfl
    exact (List.take_of_length_le h.le).symm

lemma Wf.osmPrtnFindByName (h : Wf env s) {name : Str} {p : Prtn} (hp : osmPrtnFindByName s name = some p) :
    getPrtn env s p.pkey = some p ∧ name = p.name := by
  obtain ⟨e, he, rfl⟩ := Option.map_eq_some_iff.mp hp
  have hget := Qmap.get_eq_some.mpr (List.mem_of_find?_eq_some he)
  obtain ⟨hk, -, -, -, hlen⟩ := h.of_get hget
  have hcmp : strncmpEq 32 e.2.name name = true := by simpa using List.find?_some he
  refine ⟨?_, (strncmpEq_iff hlen).mp hcmp⟩
  rw [getPrtn, ← hk]
  exact hget

lemma generateLoop_spec {tbl : Qmap ℕ Prtn} {fuel counter c pkey : ℕ}
    (h : generateLoop env tbl fuel counter = (c, some pkey)) :
    tbl.get (env.hton16 pkey) = none ∧ counter < pkey ∧ pkey ≤ counter + fuel := by
  induction fuel generalizing counter with
  | zero => simp [generateLoop] at h
  | succ fuel ih =>
    rw [generateLoop] at h
    split_ifs at h with hnone
    · obtain ⟨-, hp⟩ := Prod.mk.inj h
      obtain rfl := Option.some.inj hp
      exact ⟨Option.isNone_iff_eq_none.mp hnone, by omega, by omega⟩
    · obtain ⟨hget, hlt, hle⟩ := ih h
      exact ⟨hget, by omega, by omega⟩

lemma generatePkey_spec {c pkey : ℕ} (h : generatePkey env s = (c, some pkey)) :
    getPrtn env s pkey = none ∧ 0 < pkey ∧ pkey < 2 ^ 15 := by
  obtain ⟨hget, hlt, hle⟩ := generateLoop_spec h
  refine ⟨hget, by omega, ?_⟩
  have : defaultPartialPkey = 0x7FFF := rfl
  omega

lemma osmPrtnMakeNew_cases {name : Option Str} {pkey key : ℕ}
    (h : osmPrtnMakeNew env s name pkey = some (s', key)) :
    (pkeyGetBase pkey = key ∧ 0 < key ∧ key < 2 ^ 15 ∧ s' = insertPrtn env s (prtnNew name key)) ∨
    (pkeyGetBase pkey = 0 ∧ s' = s ∧ ∃ p, name.bind (osmPrtnFindByName s) = some p ∧ key = p.pkey) ∨
    (pkeyGetBase pkey = 0 ∧ name.bind (osmPrtnFindByName s) = none ∧ getPrtn env s key = none ∧ 0 < key ∧
      key < 2 ^ 15 ∧ ∃ c, s' = insertPrtn env { s with globalPkeyCounter := c } (prtnNew name key)) := by
  simp only [osmPrtnMakeNew] at h
  split_ifs at h with hbase
  · refine .inr ?_
    cases hfind : name.bind (osmPrtnFindByName s) with
    | some p =>
      simp only [hfind, Option.some.injEq, Prod.mk.injEq] at h
      exact .inl ⟨hbase, h.1.symm, p, rfl, h.2.symm⟩
    | none =>
      rcases hgen : generatePkey env s with ⟨c, _ | k⟩
      · simp [hfind, hgen] at h
      · simp only [hfind, hgen, Option.some.injEq, Prod.mk.injEq] at h
        obtain ⟨rfl, rfl⟩ := h
        obtain ⟨hnone, hpos, hlt⟩ := generatePkey_spec hgen
        exact .inr ⟨hbase, rfl, hnone, hpos, hlt, c, rfl⟩
  · obtain ⟨rfl, rfl⟩ := Prod.mk.inj (Option.some.inj h)
    exact .inl ⟨rfl, Nat.pos_of_ne_zero hbase, Nat.mod_lt _ (by decide), rfl⟩

lemma Wf.osmPrtnMakeNew (hw : Wf env s) {name : Option Str} {pkey key : ℕ}
    (h : osmPrtnMakeNew env s name pkey = some (s', key)) : Wf env s' := by
  rcases osmPrtnMakeNew_cases h with ⟨-, hpos, hlt, rfl⟩ | ⟨-, rfl, -⟩ | ⟨-, -, -, hpos, hlt, c, rfl⟩
  · exact hw.insertPrtn name hpos hlt
  · exact hw
  · exact Wf.insertPrtn (s := { s with globalPkeyCounter := c }) hw name hpos hlt

lemma partitionCreate_eq {c : Parsing} {t : Token} {r : Subn × PartConf}
    (h : partitionCreate env c.subn c.conf t = some r) : ∃ pkey s₁ key, partitionPkey t = some pkey ∧
      osmPrtnMakeNew env c.subn (nameText t) pkey = some (s₁, key) ∧ prtnIds r.1 = prtnIds s₁ ∧
          r.2.prtn = some key := by
  simp only [partitionCreate] at h
  cases hm : (partitionPkey t).bind (osmPrtnMakeNew env c.subn (nameText t)) with
  | none => simp [hm] at h
  | some m =>
    obtain ⟨pkey, hpkey, hmake⟩ := Option.bind_eq_some_iff.mp hm
    simp only [hm, Option.some.injEq] at h
    refine ⟨pkey, m.1, m.2, hpkey, hmake, ?_, by rw [← h]⟩
    rw [← h]
    have hsl : ∀ sl, prtnIds (modifyPrtn env m.1 m.2 fun p => { p with sl := sl }) = prtnIds m.1 :=
      fun sl => prtnIds_modifyPrtn fun _ => ⟨rfl, rfl⟩
    dsimp only
    split_ifs <;> simp only [(samePrtns_createMgrp _ _ _ _).prtnIds, hsl]

lemma Wf.act {c c' : Parsing} {e : Event} (hw : Wf env c.subn) (h : act env c e = some c') : Wf env c'.subn := by
  cases e with
  | flag t =>
    obtain rfl := Option.some.inj h
    exact hw
  | create t =>
    obtain ⟨r, hr, rfl⟩ := Option.map_eq_some_iff.mp h
    obtain ⟨pkey, s₁, key, -, hmake, hids, -⟩ := partitionCreate_eq hr
    rw [Wf, hids]
    exact hw.osmPrtnMakeNew hmake
  | entry e =>
    obtain ⟨pkey, -, he⟩ := Option.bind_eq_some_iff.mp h
    rw [Wf, prtnIds_actEntry he]
    exact hw
  | flush =>
    obtain rfl := Option.some.inj h
    exact hw

lemma Wf.actAll {c : Parsing} (hw : Wf env c.subn) (es : List Event) : Wf env (actAll env c es).1.subn := by
  induction es generalizing c with
  | nil => exact hw
  | cons e es ih =>
    rw [Partition.actAll]
    cases ha : Partition.act env c e with
    | none => exact hw
    | some c' => exact ih (hw.act ha)

lemma Wf.prtnMakeDefault (hw : Wf env s) (noConfig : Bool) : Wf env (prtnMakeDefault env s noConfig) := by
  simp only [Partition.prtnMakeDefault]
  cases hm : Partition.osmPrtnMakeNew env s (some "Default".toList) defaultPartialPkey with
  | none => exact hw
  | some m =>
    have hbook : ∀ s, prtnIds
        (modifyPrtn env s m.2 fun p => { p with partGuidTbl := p.partGuidTbl.remove env.smPortGuid })
        = prtnIds s := fun s => prtnIds_modifyPrtn fun _ => ⟨rfl, rfl⟩
    have hids : ∀ s, prtnIds (defaultMcgroup env s m.2) = prtnIds s :=
      fun s => (samePrtns_osmPrtnAddMcgroup s _ _ _ _).prtnIds
    have hwm : Wf env m.1 := hw.osmPrtnMakeNew hm
    rw [Wf] at hwm ⊢
    dsimp only
    split_ifs <;> simpa only [hids, hbook, prtnIds_osmPrtnAddPort, prtnIds_osmPrtnAddAll] using hwm

lemma Wf.clearPortMaps (hw : Wf env s) : Wf env (clearPortMaps s) := by
  rw [Wf, prtnIds_clearPortMaps]
  exact hw

lemma Wf.cleanUpEmpty (hw : Wf env s) (h : cleanUpEmpty env s = some s') : Wf env s' := by
  have hfold : ∀ (l : List (ℕ × Prtn)) (s : Subn), Wf env s →
      l.foldlM (fun s e => if e.2.isEmpty then prtnDelete env s e.2 else some s) s = some s' → Wf env s' := by
    intro l
    induction l with
    | nil =>
      intro s hw h
      obtain rfl := Option.some.inj h
      exact hw
    | cons e l ih =>
      intro s hw h
      obtain ⟨s₁, hs₁, h⟩ := Option.bind_eq_some_iff.mp h
      refine ih s₁ ?_ h
      dsimp only at hs₁
      split_ifs at hs₁
      · rw [Wf, prtnIds_prtnDelete hs₁]
        exact IdsWf.remove hw _
      · obtain rfl := Option.some.inj hs₁
        exact hw
  exact hfold _ s hw h

lemma Wf.retryDefault (hw : Wf env s) (h : retryDefault env s = some s') : Wf env s' :=
  (hw.clearPortMaps.prtnMakeDefault true).cleanUpEmpty h

lemma Wf.osmPrtnMakePartitions (hw : Wf env s) {file : Option (List Event)}
    (h : osmPrtnMakePartitions env s file = some s') : Wf env s' := by
  cases file with
  | none => exact hw.retryDefault h
  | some events =>
    obtain ⟨s₁, hs₁, h⟩ := Option.bind_eq_some_iff.mp h
    have hw₁ : Wf env s₁ := ((hw.clearPortMaps.prtnMakeDefault false).actAll events).cleanUpEmpty hs₁
    split_ifs at h
    · obtain rfl := Option.some.inj h
      exact hw₁
    · exact hw₁.retryDefault h

end WellFormed

end OpenSM.Partition
