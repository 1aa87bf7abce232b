import OpenSM.PartitionMember
import OpenSM.PartitionKeys
import OpenSM.MulticastSpec

/-! The multicast groups of the partitions: which pointers the partitions have, and what they lead to. -/

namespace OpenSM.Partition

open Lib Lib.CString Lib.Runs Multicast
open McMember (Sa Method McmReq rawByte ipoibSigned mgidSignature mcmrRcvCreateNewMgrp osmMgrpCleanup
  osmMcmrRcvProcess closing createMgid joinGroup osmMgrpNew mcmrRcvJoinMgrp mcmrRcvLeaveMgrp)

section WellKnown

def Keeps (t t' : Qmap Mgid Mgrp) : Prop :=
  ∀ m g, t.get m = some g → g.wellKnown = true → ∃ g', t'.get m = some g' ∧ g'.wellKnown = true

lemma Keeps.refl (t : Qmap Mgid Mgrp) : Keeps t t := fun _ g h hw => ⟨g, h, hw⟩

lemma Keeps.trans {t t₁ t₂ : Qmap Mgid Mgrp} (h : Keeps t t₁) (h' : Keeps t₁ t₂) : Keeps t t₂ := by
  intro m g hg hw
  obtain ⟨g₁, hg₁, hw₁⟩ := h m g hg hw
  exact h' m g₁ hg₁ hw₁

variable {d : Multicast.Subn} {m : Mgid} {g g' : Mgrp}

lemma keeps_of_elsewhere {d' : Multicast.Subn} (he : Elsewhere d d' m)
    (hm : ∀ g, d.mgrpMgidTbl.get m = some g → g.wellKnown = true →
      ∃ g', d'.mgrpMgidTbl.get m = some g' ∧ g'.wellKnown = true) : Keeps d.mgrpMgidTbl d'.mgrpMgidTbl := by
  intro m' g hg hw
  by_cases h : m' = m
  · subst h
    exact hm g hg hw
  · exact ⟨g, (he.mgrp m' h).trans hg, hw⟩

lemma keeps_setMgrp (hg : d.mgrpMgidTbl.get m = some g) (hw : g'.wellKnown = g.wellKnown) :
    Keeps d.mgrpMgidTbl (setMgrp d m g').mgrpMgidTbl := by
  refine keeps_of_elsewhere (elsewhere_setMgrp d m g') fun g₀ hg₀ hw₀ => ⟨g', get_setMgrp hg, ?_⟩
  obtain rfl := Option.some.inj (hg.symm.trans hg₀)
  rw [hw, hw₀]

lemma keeps_mgrpCleanup (hg : d.mgrpMgidTbl.get m = some g) :
    Keeps d.mgrpMgidTbl (Multicast.mgrpCleanup d m g).mgrpMgidTbl := by
  refine keeps_of_elsewhere (elsewhere_mgrpCleanup d m g) fun g₀ hg₀ hw₀ => ?_
  obtain rfl := Option.some.inj (hg.symm.trans hg₀)
  simp only [Multicast.mgrpCleanup]
  split_ifs
  · exact ⟨g, hg, hw₀⟩
  · exact ⟨_, get_setMgrp hg, hw₀⟩

lemma keeps_mgrpNew (mlid : ℕ) (r : MemberRec) (b : Bool) :
    Keeps d.mgrpMgidTbl (mgrpNew d mlid r b).mgrpMgidTbl := by
  intro m g hg hw
  refine ⟨g, ?_, hw⟩
  simp only [mgrpNew, Qmap.get_insert]
  split_ifs with h
  · subst h
    rw [hg]
    rfl
  · exact hg

lemma wellKnown_countFull (g : Mgrp) (prev join : JoinState) :
    (countFull g prev join).wellKnown = g.wellKnown := by
  simp only [countFull]
  split_ifs <;> rfl

lemma keeps_mgrpAddPort (hg : d.mgrpMgidTbl.get m = some g) (q : Join) :
    Keeps d.mgrpMgidTbl (mgrpAddPort d m g q).mgrpMgidTbl := by
  simp only [mgrpAddPort]
  split
  · split <;> exact keeps_setMgrp hg (wellKnown_countFull _ _ _)
  · have hnew : ∀ g', g'.wellKnown = g.wellKnown → Keeps d.mgrpMgidTbl (setMgrp (smRerouteMlid
        { d with mcmList := Function.update d.mcmList q.port (d.mcmList q.port ++ [m]) } g.mlid) m
            g').mgrpMgidTbl :=
      fun _ hw => keeps_setMgrp hg hw
    exact hnew _ (wellKnown_countFull _ _ _)

lemma keeps_mgrpRemovePort (hg : d.mgrpMgidTbl.get m = some g) (guid : Guid) (a : Alias) (leave : JoinState) :
    Keeps d.mgrpMgidTbl (mgrpRemovePort d m g guid a leave).1.mgrpMgidTbl := by
  have htbl := get_mgrpUpdateAlias d m g guid a (joinStateOf a &&& ~~~leave)
  have hwk := (mgrpUpdateAlias_frame d m g guid a (joinStateOf a &&& ~~~leave)).2
  have hg' : (mgrpUpdateAlias d m g guid a (joinStateOf a &&& ~~~leave)).1.mgrpMgidTbl.get m = some g := htbl ▸ hg
  simp only [mgrpRemovePort]
  split_ifs
  · refine Keeps.trans ?_ (keeps_mgrpCleanup (get_setMgrp hg'))
    exact htbl ▸ keeps_setMgrp hg' hwk
  · exact htbl ▸ keeps_setMgrp hg' hwk
  · exact htbl ▸ keeps_setMgrp hg' hwk

lemma keeps_deletePortLoop (port : Guid) (l : List Guid) :
    Keeps d.mgrpMgidTbl (deletePortLoop m port l d).mgrpMgidTbl := by
  induction l generalizing d with
  | nil => exact .refl _
  | cons guid l ih =>
    rw [deletePortLoop]
    cases hg : d.mgrpMgidTbl.get m with
    | none => exact .refl _
    | some g =>
      dsimp only
      cases g.mcmAliasPortTbl.get guid with
      | none => exact ih
      | some a =>
        dsimp only
        have hremove := keeps_mgrpRemovePort hg guid a 15
        split_ifs
        · exact hremove
        · exact hremove.trans ih
        · exact ih

end WellKnown

section Requests

variable {mc : McMember.Env} {sa : Sa}

abbrev groups (sa : Sa) : Qmap Mgid Mgrp := sa.subn.mgrpMgidTbl

lemma keeps_osmMgrpCleanup (m : Mgid) : Keeps (groups sa) (groups (osmMgrpCleanup sa m)) := by
  simp only [osmMgrpCleanup]
  cases hg : sa.subn.mgrpMgidTbl.get m with
  | none => exact .refl _
  | some g => exact keeps_mgrpCleanup hg

lemma keeps_mcmrRcvCreateNewMgrp (comp : McMember.CompMask) (r : MemberRec) (p : Option Guid) :
    Keeps (groups sa) (groups (mcmrRcvCreateNewMgrp mc sa comp r p).1) := by
  simp only [mcmrRcvCreateNewMgrp]
  split
  · exact .refl _
  · split_ifs
    · exact .refl _
    · exact keeps_mgrpNew _ _ _

lemma keeps_joinGroup (q : McmReq) (r : MemberRec) (port : Guid) (proxy : Bool) (m : Mgid) (isNew : Bool) :
    Keeps (groups sa) (groups (joinGroup mc sa q r port proxy m isNew).1) := by
  simp only [joinGroup]
  cases hg : sa.subn.mgrpMgidTbl.get m with
  | none => exact .refl _
  | some g =>
    dsimp only
    split_ifs
    · exact keeps_mgrpAddPort hg _
    · exact keeps_osmMgrpCleanup m
    · exact .refl _

lemma Keeps.ite {t : Qmap Mgid Mgrp} {c : Prop} [Decidable c] {a b : Sa × Bool} (ha : Keeps t (groups a.1))
    (hb : Keeps t (groups b.1)) : Keeps t (groups (if c then a else b).1) := by
  split_ifs
  · exact ha
  · exact hb

lemma keeps_mcmrRcvJoinMgrp (q : McmReq) : Keeps (groups sa) (groups (mcmrRcvJoinMgrp mc sa q).1) := by
  simp only [mcmrRcvJoinMgrp]
  refine .ite (.refl _) ?_
  split
  · refine .ite (.refl _) (.ite (.refl _) ?_)
    split
    · refine .ite ?_ (.refl _)
      have hcreate : ∀ p s m, mcmrRcvCreateNewMgrp mc sa q.compMask (McMember.usePrefix mc q.mcmr) p = (s, m) →
          Keeps (groups sa) (groups s) := by
        intro p s m heq
        have hkeep := @keeps_mcmrRcvCreateNewMgrp mc sa q.compMask (McMember.usePrefix mc q.mcmr) p
        rwa [heq] at hkeep
      split
      · next heq => exact hcreate _ _ _ heq
      · next heq => exact (hcreate _ _ _ heq).trans (keeps_joinGroup _ _ _ _ _ _)
    · exact .ite (.refl _) (keeps_joinGroup _ _ _ _ _ _)
  · exact .refl _

lemma keeps_mcmrRcvLeaveMgrp (q : McmReq) : Keeps (groups sa) (groups (mcmrRcvLeaveMgrp mc sa q).1) := by
  simp only [mcmrRcvLeaveMgrp]
  split_ifs
  · exact .refl _
  · cases hg : sa.subn.mgrpMgidTbl.get (McMember.usePrefix mc q.mcmr).mgid with
    | none => exact .refl _
    | some g =>
      dsimp only
      split
      · exact .refl _
      · split_ifs
        · exact keeps_mgrpRemovePort hg _ _ _
        · exact .refl _

lemma keeps_osmMcmrRcvProcess (method : Method) (q : McmReq) :
    Keeps (groups sa) (groups (osmMcmrRcvProcess mc sa method q).1) := by
  simp only [osmMcmrRcvProcess]
  split_ifs
  · cases method with
    | set => exact keeps_mcmrRcvJoinMgrp q
    | delete => exact keeps_mcmrRcvLeaveMgrp q
  · exact .refl _

/-- A group that is made for an MGID other than zero has this MGID. -/
lemma mcmrRcvCreateNewMgrp_some {comp : McMember.CompMask} {r : MemberRec} {p : Option Guid} {sa' : Sa} {m : Mgid}
    (hr : r.mgid ≠ 0) (h : mcmrRcvCreateNewMgrp mc sa comp r p = (sa', some m)) :
    m = r.mgid ∧ ∃ g, (groups sa').get m = some g := by
  have hcreate : ∀ r', (createMgid mc sa comp r).1 = some r' → r'.mgid = r.mgid := by
    intro r' hr'
    simp only [createMgid, if_neg hr] at hr'
    split_ifs at hr'
    · split at hr'
      · simp at hr'
      · split_ifs at hr'
        exact congrArg MemberRec.mgid (Option.some.inj hr').symm
    · exact congrArg MemberRec.mgid (Option.some.inj hr').symm
    · exact congrArg MemberRec.mgid (Option.some.inj hr').symm
  have hreal : ∀ r' r'', McMember.mgrpRequestIsRealizable mc comp r' p = some r'' → r''.mgid = r'.mgid := by
    intro r' r'' hr'
    simp only [McMember.mgrpRequestIsRealizable] at hr'
    split at hr'
    · rw [← Option.some.inj hr']
    · simp at hr'
  simp only [mcmrRcvCreateNewMgrp] at h
  split at h
  · simp at h
  · next r'' hr'' =>
    obtain ⟨r', hr', hreal'⟩ := Option.bind_eq_some_iff.mp hr''
    have hm : r''.mgid = r.mgid := (hreal _ _ hreal').trans (hcreate r' hr')
    split_ifs at h
    · simp at h
    obtain ⟨rfl, hm'⟩ := Prod.mk.inj h
    obtain rfl := Option.some.inj hm'
    refine ⟨hm, ?_⟩
    simp only [groups, osmMgrpNew, mgrpNew, McMember.selectorsExactly, Qmap.get_insert, if_true]
    exact ⟨_, rfl⟩

end Requests

section Arrays

variable {env : Env} {s s' : Subn}

def arrays (s : Subn) : Qmap ℕ (ℕ × List MgrpRef) := s.prtnPkeyTbl.map fun p => (p.pkey, p.mgrps)

lemma get_arrays (k : ℕ) : (arrays s).get k = (s.prtnPkeyTbl.get k).map fun p => (p.pkey, p.mgrps) :=
    Qmap.get_map _ _ _

/-- The pointers lead to groups that are there and well known, and no group has two owners; an IP group has the
P_Key of its partition in its MGID. -/
structure Good (s : Subn) : Prop where
  live : ∀ k a, (arrays s).get k = some a → ∀ r ∈ a.2, ∃ g, derefMgrp s r = some g ∧ g.wellKnown = true
  single : ∀ k a k' a', (arrays s).get k = some a → (arrays s).get k' = some a' → ∀ r, r ∈ a.2 → r ∈ a'.2 → k = k'
  nodup : ∀ k a, (arrays s).get k = some a → a.2.Nodup
  ip : ∀ k a, (arrays s).get k = some a → ∀ r ∈ a.2, ipoibSigned r.1 → mgidPkey r.1 = fullPkey a.1

structure SameGroups (s s' : Subn) : Prop where
  arrays : arrays s' = arrays s
  sa : s'.sa = s.sa
  serial : s'.serial = s.serial

lemma SameGroups.refl (s : Subn) : SameGroups s s := ⟨rfl, rfl, rfl⟩

lemma SameGroups.trans {s s₁ s₂ : Subn} (h : SameGroups s s₁) (h' : SameGroups s₁ s₂) : SameGroups s s₂ :=
  ⟨h'.arrays.trans h.arrays, h'.sa.trans h.sa, h'.serial.trans h.serial⟩

lemma SameGroups.deref (h : SameGroups s s') (r : MgrpRef) : derefMgrp s' r = derefMgrp s r := by
  simp only [derefMgrp, h.sa, h.serial]

lemma SameGroups.good (h : SameGroups s s') (hg : Good s) : Good s' := by
  constructor
  · intro k a ha r hr
    rw [h.deref]
    exact hg.live k a (h.arrays ▸ ha) r hr
  · rw [h.arrays]
    exact hg.single
  · rw [h.arrays]
    exact hg.nodup
  · rw [h.arrays]
    exact hg.ip

lemma sameGroups_modifyPrtn (pkey : ℕ) {f : Prtn → Prtn} (hf : ∀ p, (f p).pkey = p.pkey ∧ (f p).mgrps = p.mgrps) :
    SameGroups s (modifyPrtn env s pkey f) := by
  refine ⟨Qmap.ext_get fun k => ?_, rfl, rfl⟩
  simp only [get_arrays, modifyPrtn, Qmap.get_modify]
  split_ifs with hk
  · subst hk
    rw [Option.map_map]
    refine congrFun (congrArg Option.map (funext fun p => ?_)) _
    simp [hf p]
  · rfl

lemma SameGroups.foldl {α : Type*} {f : Subn → α → Subn} (hf : ∀ s a, SameGroups s (f s a))
    (l : List α) (s : Subn) :
    SameGroups s (l.foldl f s) := by
  induction l generalizing s with
  | nil => exact .refl s
  | cons a l ih => exact (hf s a).trans (ih (f s a))

lemma sameGroups_osmPrtnAddPort (s : Subn) (pkey : ℕ) (guid : Guid) (full indx0 : Bool) :
    SameGroups s (osmPrtnAddPort env s pkey guid full indx0) := by
  simp only [osmPrtnAddPort]
  split
  · exact .refl s
  · have hput : SameGroups s (modifyPrtn env s pkey (putPort env guid full)) :=
      sameGroups_modifyPrtn pkey fun p => by cases full <;> exact ⟨rfl, rfl⟩
    exact ⟨hput.arrays, rfl, rfl⟩

lemma sameGroups_addTarget (s : Subn) (pkey : ℕ) (full indx0 : Bool) (target : Target) :
    SameGroups s (addTarget env s pkey full indx0 target) := by
  cases target with
  | guid guid => exact sameGroups_osmPrtnAddPort s pkey guid full indx0
  | all type =>
    refine .foldl (fun s e => ?_) _ s
    split_ifs
    · exact sameGroups_osmPrtnAddPort s pkey e.1 full indx0
    · exact .refl s

lemma sameGroups_addMembership (s : Subn) (pkey : ℕ) (target : Target) (m : Membership) (indx0 : Bool) :
    SameGroups s (addMembership env s pkey target m indx0) := by
  have hmanage : SameGroups s (modifyPrtn env s pkey (manageMembershipChange env target m)) := by
    refine sameGroups_modifyPrtn pkey fun p => ?_
    simp only [manageMembershipChange]
    split_ifs <;> exact ⟨rfl, rfl⟩
  simp only [addMembership]
  split_ifs
  · exact (hmanage.trans (sameGroups_addTarget _ _ _ _ _)).trans (sameGroups_addTarget _ _ _ _ _)
  · exact hmanage.trans (sameGroups_addTarget _ _ _ _ _)
  · exact hmanage.trans (sameGroups_addTarget _ _ _ _ _)
  · exact hmanage

lemma sameGroups_clearPortMaps (s : Subn) : SameGroups s (clearPortMaps s) := by
  refine ⟨Qmap.ext_get fun k => ?_, rfl, rfl⟩
  simp only [get_arrays, clearPortMaps, Qmap.get_map, Option.map_map]
  rfl

lemma arrays_insertPrtn (name : Option Str) (pkey k : ℕ) {a : ℕ × List MgrpRef}
    (h : (arrays (insertPrtn env s (prtnNew name pkey))).get k = some a) :
    (arrays s).get k = some a ∨ a.2 = [] := by
  rw [get_arrays] at h ⊢
  rcases get_insertPrtn env s name pkey k with heq | ⟨-, heq⟩
  · exact .inl (heq ▸ h)
  · rw [heq] at h
    obtain rfl := Option.some.inj h
    exact .inr rfl

lemma Good.insertPrtn (h : Good s) (name : Option Str) (pkey : ℕ) :
    Good (Partition.insertPrtn env s (prtnNew name pkey)) := by
  have hmem : ∀ k a, (arrays (Partition.insertPrtn env s (prtnNew name pkey))).get k = some a → ∀ r ∈ a.2,
      (arrays s).get k = some a := by
    intro k a ha r hr
    rcases arrays_insertPrtn name pkey k ha with ha | hnil
    · exact ha
    · simp [hnil] at hr
  constructor
  · exact fun k a ha r hr => h.live k a (hmem k a ha r hr) r hr
  · exact fun k a k' a' ha ha' r hr hr' => h.single k a k' a' (hmem k a ha r hr) (hmem k' a' ha' r hr') r hr hr'
  · intro k a ha
    rcases arrays_insertPrtn name pkey k ha with ha | hnil
    · exact h.nodup k a ha
    · simp [hnil]
  · exact fun k a ha r hr => h.ip k a (hmem k a ha r hr) r hr

lemma derefMgrp_eq_some {r : MgrpRef} {g : Mgrp} :
    derefMgrp s r = some g ↔ s.serial r.1 = r.2 ∧ (groups s.sa).get r.1 = some g := by
  simp only [derefMgrp]
  split_ifs with h <;> simp [h]

lemma Good.putSa (h : Good s) {sa : Sa} (hk : Keeps (groups s.sa) (groups sa)) : Good (putSa s sa) := by
  refine ⟨fun k a ha r hr => ?_, h.single, h.nodup, h.ip⟩
  obtain ⟨g, hg, hw⟩ := h.live k a ha r hr
  obtain ⟨hser, hget⟩ := derefMgrp_eq_some.mp hg
  obtain ⟨g', hg', hw'⟩ := hk r.1 g hget hw
  refine ⟨g', derefMgrp_eq_some.mpr ⟨?_, hg'⟩, hw'⟩
  have hsome : ¬((s.sa.subn.mgrpMgidTbl.get r.1).isNone ∧ (sa.subn.mgrpMgidTbl.get r.1).isSome) := by
    change (groups s.sa).get r.1 = some g at hget
    simp [hget]
  simp only [Partition.putSa, if_neg hsome]
  exact hser

def Grow (s s' : Subn) : Prop :=
  ∀ k a, (arrays s).get k = some a → ∃ a', (arrays s').get k = some a' ∧ a.2 ⊆ a'.2

lemma Grow.trans {s s₁ s₂ : Subn} (h : Grow s s₁) (h' : Grow s₁ s₂) : Grow s s₂ := by
  intro k a ha
  obtain ⟨a₁, ha₁, hsub⟩ := h k a ha
  obtain ⟨a₂, ha₂, hsub'⟩ := h' k a₁ ha₁
  exact ⟨a₂, ha₂, List.Subset.trans hsub hsub'⟩

lemma grow_of_arrays (h : arrays s' = arrays s) : Grow s s' :=
  fun _ a ha => ⟨a, h ▸ ha, List.Subset.refl _⟩

lemma grow_insertPrtn (name : Option Str) (pkey : ℕ) : Grow s (insertPrtn env s (prtnNew name pkey)) := by
  intro k a ha
  refine ⟨a, ?_, List.Subset.refl _⟩
  rw [get_arrays] at ha ⊢
  rcases get_insertPrtn env s name pkey k with heq | ⟨hnone, -⟩
  · exact heq ▸ ha
  · simp [hnone] at ha

end Arrays

section Mgids

lemma mgidSignature_mgidSetScope (m scope : ℕ) : mgidSignature (mgidSetScope m scope) = mgidSignature m := by
  simp only [mgidSignature, mgidSetScope]
  omega

lemma mgidPkey_mgidSetScope (m scope : ℕ) : mgidPkey (mgidSetScope m scope) = mgidPkey m := by
  simp only [mgidPkey, mgidSetScope]
  omega

lemma mgidPkey_mgidSetPkey (m pkey : ℕ) : mgidPkey (mgidSetPkey m pkey) = pkey % 2 ^ 16 := by
  simp only [mgidPkey, mgidSetPkey]
  omega

lemma ipoibSigned_mgidSetScope (m scope : ℕ) : ipoibSigned (mgidSetScope m scope) ↔ ipoibSigned m := by
  simp only [ipoibSigned, mgidSignature_mgidSetScope]

lemma mgidSetScope_ne_zero {m : ℕ} (h : 2 ^ 116 ≤ m) (scope : ℕ) : mgidSetScope m scope ≠ 0 := by
  have hne : m / 2 ^ 116 * 2 ^ 116 + scope % 16 * 2 ^ 112 + m % 2 ^ 112 ≠ 0 := by omega
  exact hne

lemma le_mgidSetPkey {m : ℕ} (h : 2 ^ 116 ≤ m) (pkey : ℕ) : 2 ^ 116 ≤ mgidSetPkey m pkey := by
  have hle : 2 ^ 116 ≤ m / 2 ^ 96 * 2 ^ 96 + pkey % 2 ^ 16 * 2 ^ 80 + m % 2 ^ 80 := by omega
  exact hle

lemma le_of_rawByte {m : ℕ} (h : rawByte m 0 = 0xFF) : 2 ^ 116 ≤ m := by
  simp only [rawByte] at h
  norm_num at h
  omega

lemma fullPkey_mod (pkey : ℕ) : fullPkey pkey % 2 ^ 16 = fullPkey pkey := by
  rw [fullPkey, pkeyGetBase]
  omega

lemma fullPkey_inj {a b : ℕ} (ha : a < 2 ^ 15) (hb : b < 2 ^ 15) (h : fullPkey a = fullPkey b) : a = b := by
  simp only [fullPkey, pkeyGetBase] at h
  omega

end Mgids

section Mcgroups

variable {env : Env} {s s' : Subn} {pkey : ℕ}

def Sole (s : Subn) (pkey : ℕ) (m : Mgid) : Prop :=
  ∀ k p, s.prtnPkeyTbl.get k = some p → (m, s.serial m) ∈ p.mgrps → p.pkey = pkey

structure Fitting (pkey : ℕ) (m : Mgid) : Prop where
  le : 2 ^ 116 ≤ m
  ip : ipoibSigned m → mgidPkey m = fullPkey pkey

structure Grown (env : Env) (pkey : ℕ) (s s' : Subn) : Prop where
  good : Good s'
  grow : Grow s s'
  others : ∀ k, k ≠ env.hton16 pkey → (arrays s').get k = (arrays s).get k

lemma Grown.trans {s s₁ s₂ : Subn} (h : Grown env pkey s s₁) (h' : Grown env pkey s₁ s₂) : Grown env pkey s s₂ :=
  ⟨h'.good, h.grow.trans h'.grow, fun k hk => (h'.others k hk).trans (h.others k hk)⟩

lemma mem_arrays {k : ℕ} {p : Prtn} (h : s.prtnPkeyTbl.get k = some p) :
    (arrays s).get k = some (p.pkey, p.mgrps) := by
  rw [get_arrays, h]
  rfl

lemma of_mem_arrays {k : ℕ} {a : ℕ × List MgrpRef} (h : (arrays s).get k = some a) :
    ∃ p, s.prtnPkeyTbl.get k = some p ∧ p.pkey = a.1 ∧ p.mgrps = a.2 := by
  rw [get_arrays] at h
  obtain ⟨p, hp, rfl⟩ := Option.map_eq_some_iff.mp h
  exact ⟨p, hp, rfl, rfl⟩

lemma sole_of_ip (hw : Wf env s) (h : Good s) (hlt : pkey < 2 ^ 15) {m : Mgid} (hm : ipoibSigned m)
    (hpkey : mgidPkey m = fullPkey pkey) : Sole s pkey m := by
  intro k p hp hmem
  have hip := h.ip k _ (mem_arrays hp) _ hmem hm
  exact fullPkey_inj (hw.of_get hp).2.2.1 hlt (hip.symm.trans hpkey)

lemma Sole.grown {m : Mgid} (hs : Sole s pkey m) (hw' : Wf env s') (h : Good s) (hg : Grown env pkey s s')
    (hlt : pkey < 2 ^ 15) : Sole s' pkey m := by
  intro k p' hp' hmem
  by_cases hk : k = env.hton16 pkey
  · subst hk
    exact hw'.getPrtn_pkey hlt hp'
  · have ha := mem_arrays hp'
    rw [hg.others k hk] at ha
    obtain ⟨p, hp, hpk, hpm⟩ := of_mem_arrays ha
    obtain ⟨g, hd, -⟩ := h.live k _ ha _ hmem
    have hser : s.serial m = s'.serial m := (derefMgrp_eq_some.mp hd).1
    have hsame : p.pkey = pkey := by
      refine hs k p hp ?_
      rw [hpm, hser]
      exact hmem
    exact hpk.symm.trans hsame

lemma findOrCreateNewMgrp_good (h : Good s) {r : MemberRec} (hr : r.mgid ≠ 0) :
    Good (findOrCreateNewMgrp env s r).1 ∧ (findOrCreateNewMgrp env s r).1.prtnPkeyTbl = s.prtnPkeyTbl ∧
      ∀ m, (findOrCreateNewMgrp env s r).2 = some m →
        m = r.mgid ∧ (∃ g, (groups (findOrCreateNewMgrp env s r).1.sa).get m = some g) := by
  simp only [findOrCreateNewMgrp]
  cases hg : s.sa.subn.mgrpMgidTbl.get r.mgid with
  | some g =>
    refine ⟨h, rfl, fun m hm => ?_⟩
    obtain rfl := Option.some.inj hm
    exact ⟨rfl, g, hg⟩
  | none =>
    refine ⟨h.putSa (keeps_mcmrRcvCreateNewMgrp _ _ _), rfl, fun m hm => ?_⟩
    rcases hc : mcmrRcvCreateNewMgrp env.mc s.sa mcCompMask r none with ⟨sa', m'⟩
    rw [hc] at hm
    obtain rfl : m' = some m := hm
    exact mcmrRcvCreateNewMgrp_some hr hc

lemma sole_findOrCreateNewMgrp (h : Good s) {r : MemberRec} (hs : Sole s pkey r.mgid) :
    Sole (findOrCreateNewMgrp env s r).1 pkey r.mgid := by
  simp only [findOrCreateNewMgrp]
  cases hg : s.sa.subn.mgrpMgidTbl.get r.mgid with
  | some g => exact hs
  | none =>
    -- no partition has a pointer to a group of this MGID, which is not there
    intro k p hp hmem
    obtain ⟨g, hd, -⟩ := h.live k _ (mem_arrays hp) _ hmem
    have hget := (derefMgrp_eq_some.mp hd).2
    change s.sa.subn.mgrpMgidTbl.get r.mgid = some g at hget
    simp [hg] at hget

lemma trackMgrpWPartition_grown (hw : Wf env s) (h : Good s) (hlt : pkey < 2 ^ 15) {p : Prtn}
    (hp : getPrtn env s pkey = some p) {m : Mgid} {g : Mgrp} (hg : (groups s.sa).get m = some g)
    (hs : Sole s pkey m)
    (hip : ipoibSigned m → mgidPkey m = fullPkey pkey) : Grown env pkey s (trackMgrpWPartition env s p m) := by
  have hpk : p.pkey = pkey := hw.getPrtn_pkey hlt hp
  have hkey := mem_arrays hp
  simp only [trackMgrpWPartition]
  split_ifs with hin
  · exact ⟨h, grow_of_arrays rfl, fun _ _ => rfl⟩
  · rw [hpk]
    set s' := setWellKnown
      (modifyPrtn env s pkey fun p => { p with mgrps := p.mgrps ++ [(m, s.serial m)] }) m true with hs'
    have harr : ∀ k, (arrays s').get k = if k = env.hton16 pkey then some (pkey, p.mgrps ++ [(m, s.serial m)])
        else (arrays s).get k := by
      intro k
      change ((modifyPrtn env s pkey fun p => { p with mgrps := p.mgrps ++ [(m, s.serial m)] }).prtnPkeyTbl.map
        fun p => (p.pkey, p.mgrps)).get k = _
      rw [Qmap.get_map, modifyPrtn, Qmap.get_modify]
      split_ifs with hk
      · have hget : s.prtnPkeyTbl.get (env.hton16 pkey) = some p := hp
        rw [hget, Option.map_some, Option.map_some, hpk]
      · rw [get_arrays]
    have hgroup : ∀ m', (groups s'.sa).get m' =
        if m' = m then some { g with wellKnown := true } else (groups s.sa).get m' := by
      intro m'
      change (s.sa.subn.mgrpMgidTbl.modify m fun g => { g with wellKnown := true }).get m' = _
      rw [Qmap.get_modify]
      split_ifs
      · change ((groups s.sa).get m).map _ = _
        rw [hg]
        rfl
      · rfl
    have hold : ∀ k a, (arrays s).get k = some a → ∀ r ∈ a.2, ∃ g, derefMgrp s' r = some g ∧
        g.wellKnown = true := by
      intro k a ha r hr
      obtain ⟨g', hd, hwk⟩ := h.live k a ha r hr
      obtain ⟨hser, hget⟩ := derefMgrp_eq_some.mp hd
      by_cases hm : r.1 = m
      · exact ⟨_, derefMgrp_eq_some.mpr ⟨hser, (hgroup r.1).trans (if_pos hm)⟩, rfl⟩
      · exact ⟨g', derefMgrp_eq_some.mpr ⟨hser, ((hgroup r.1).trans (if_neg hm)).trans hget⟩, hwk⟩
    have hnew : ∃ g, derefMgrp s' (m, s.serial m) = some g ∧ g.wellKnown = true :=
      ⟨_, derefMgrp_eq_some.mpr ⟨rfl, (hgroup m).trans (if_pos rfl)⟩, rfl⟩
    have honly : ∀ k a, (arrays s).get k = some a → (m, s.serial m) ∈ a.2 → k = env.hton16 pkey := by
      intro k a ha hmem
      obtain ⟨q, hq, hq1, hq2⟩ := of_mem_arrays ha
      rw [(hw.of_get hq).1, hs k q hq (hq2 ▸ hmem)]
    have hcases : ∀ k a, (arrays s').get k = some a → ∀ r ∈ a.2, (k = env.hton16 pkey ∧ r = (m, s.serial m)) ∨
        ∃ a₀, (arrays s).get k = some a₀ ∧ r ∈ a₀.2 := by
      intro k a ha r hr
      rw [harr] at ha
      split_ifs at ha with hk
      · obtain rfl := Option.some.inj ha
        rcases List.mem_append.mp hr with hr | hr
        · exact .inr ⟨_, hk ▸ hkey, hr⟩
        · exact .inl ⟨hk, List.mem_singleton.mp hr⟩
      · exact .inr ⟨a, ha, hr⟩
    refine ⟨⟨?_, ?_, ?_, ?_⟩, ?_, ?_⟩
    · intro k a ha r hr
      rcases hcases k a ha r hr with ⟨-, rfl⟩ | ⟨a₀, ha₀, hr₀⟩
      · exact hnew
      · exact hold k a₀ ha₀ r hr₀
    · intro k a k' a' ha ha' r hr hr'
      rcases hcases k a ha r hr with ⟨rfl, rfl⟩ | ⟨a₀, ha₀, hr₀⟩
      · rcases hcases k' a' ha' _ hr' with ⟨rfl, -⟩ | ⟨a₀', ha₀', hr₀'⟩
        · rfl
        · exact (honly k' a₀' ha₀' hr₀').symm
      · rcases hcases k' a' ha' r hr' with ⟨rfl, rfl⟩ | ⟨a₀', ha₀', hr₀'⟩
        · exact honly k a₀ ha₀ hr₀
        · exact h.single k a₀ k' a₀' ha₀ ha₀' r hr₀ hr₀'
    · intro k a ha
      rw [harr] at ha
      split_ifs at ha with hk
      · obtain rfl := Option.some.inj ha
        exact (h.nodup _ _ hkey).append (List.nodup_singleton _) (by simpa using hin)
      · exact h.nodup k a ha
    · intro k a ha r hr hip'
      have ha' := ha
      rw [harr] at ha
      split_ifs at ha with hk
      · obtain rfl := Option.some.inj ha
        rcases List.mem_append.mp hr with hr | hr
        · have hold' := h.ip _ _ hkey r hr hip'
          rwa [hpk] at hold'
        · obtain rfl := List.mem_singleton.mp hr
          exact hip hip'
      · exact h.ip k a ha r hr hip'
    · intro k a ha
      by_cases hk : k = env.hton16 pkey
      · subst hk
        obtain rfl := Option.some.inj (hkey.symm.trans ha)
        exact ⟨_, (harr _).trans (if_pos rfl), List.subset_append_left _ _⟩
      · exact ⟨a, ((harr k).trans (if_neg hk)).trans ha, List.Subset.refl _⟩
    · exact fun k hk => (harr k).trans (if_neg hk)

lemma osmPrtnAddMcgroup_grown (hw : Wf env s) (h : Good s) (hlt : pkey < 2 ^ 15)
    (hex : (getPrtn env s pkey).isSome)
    {m : Mgid} (hfit : Fitting pkey m) (f : GroupFlags) (scope : ℕ)
    (hs : Sole s pkey (mgidSetScope m (scopeOr scope))) :
    Grown env pkey s (osmPrtnAddMcgroup env s pkey f scope m) := by
  have hr : (mcRec env pkey f (scopeOr scope) m).mgid ≠ 0 := mgidSetScope_ne_zero hfit.le _
  obtain ⟨hgood, htbl, hsome⟩ := @findOrCreateNewMgrp_good env s h _ hr
  have hsole := @sole_findOrCreateNewMgrp env s pkey h (mcRec env pkey f (scopeOr scope) m) hs
  have hids := (@samePrtns_findOrCreateNewMgrp env s (mcRec env pkey f (scopeOr scope) m)).prtnIds
  simp only [osmPrtnAddMcgroup]
  rcases hc : findOrCreateNewMgrp env s (mcRec env pkey f (scopeOr scope) m) with ⟨s₁, m'⟩
  rw [hc] at hgood htbl hsome hsole hids
  have harr : arrays s₁ = arrays s := congrArg (fun t => Qmap.map t _) htbl
  have hfound : Grown env pkey s s₁ := ⟨hgood, grow_of_arrays harr, fun k _ => by rw [harr]⟩
  cases m' with
  | none => exact hfound
  | some m' =>
    obtain ⟨rfl, g, hg⟩ := hsome m' rfl
    obtain ⟨p, hp⟩ := Option.isSome_iff_exists.mp hex
    have hp₁ : getPrtn env s₁ pkey = some p := by
      rw [getPrtn, htbl]
      exact hp
    have hw₁ : Wf env s₁ := by
      rw [Wf, hids]
      exact hw
    dsimp only
    rw [hp₁, Option.elim_some]
    refine hfound.trans (trackMgrpWPartition_grown hw₁ hgood hlt hp₁ hg hsole fun hip => ?_)
    have hpkey : mgidPkey (mgidSetScope m (scopeOr scope)) = mgidPkey m := mgidPkey_mgidSetScope m _
    exact hpkey.trans (hfit.ip ((ipoibSigned_mgidSetScope m _).mp hip))

lemma createMgrp_grown (hw : Wf env s) (h : Good s) (hlt : pkey < 2 ^ 15) (hex : (getPrtn env s pkey).isSome)
    {m : Mgid} (hfit : Fitting pkey m) (f : GroupFlags)
    (hs : ∀ scope ∈ scopes f, Sole s pkey (mgidSetScope m (scopeOr scope))) :
    Grown env pkey s (createMgrp env s pkey f m) := by
  rw [createMgrp]
  generalize scopes f = l at hs
  induction l generalizing s with
  | nil => exact ⟨h, grow_of_arrays rfl, fun _ _ => rfl⟩
  | cons scope l ih =>
    have hadd := osmPrtnAddMcgroup_grown hw h hlt hex hfit f scope (hs scope List.mem_cons_self)
    have hids := (@samePrtns_osmPrtnAddMcgroup env s pkey f scope m).prtnIds
    have hw' : Wf env (osmPrtnAddMcgroup env s pkey f scope m) := by
      rw [Wf, hids]
      exact hw
    refine hadd.trans (ih hw' hadd.good ?_ fun scope' hscope' => ?_)
    · rw [getPrtn_isSome, hids, ← getPrtn_isSome]
      exact hex
    · exact (hs scope' (List.mem_cons_of_mem scope hscope')).grown hw' h hadd hlt

lemma fitting_broadcast : Fitting pkey (mgidSetPkey ipoibBroadcastMgid (fullPkey pkey)) :=
  ⟨le_mgidSetPkey (by decide) _, fun _ => (mgidPkey_mgidSetPkey _ _).trans (fullPkey_mod pkey)⟩

lemma mgroupRequest_fitting {conf : PartConf} {mgid : Str} {flags : List Token} {m : Mgid} {f : GroupFlags}
    (h : mgroupRequest conf pkey mgid flags = some (m, f)) : Fitting pkey m := by
  obtain ⟨m₀, -, h⟩ := Option.bind_eq_some_iff.mp h
  by_cases hraw : rawByte m₀ 0 ≠ 0xFF
  · simp [if_pos hraw] at h
  have hle := le_of_rawByte (not_not.mp hraw)
  rw [if_neg hraw] at h
  by_cases hip : ipoibSigned m₀
  · simp only [if_pos hip] at h
    split at h
    · obtain rfl := (Prod.mk.inj (Option.some.inj h)).1
      exact ⟨le_mgidSetPkey hle _, fun _ => (mgidPkey_mgidSetPkey _ _).trans (fullPkey_mod pkey)⟩
    · simp at h
  · simp only [if_neg hip] at h
    obtain rfl := (Prod.mk.inj (Option.some.inj h)).1
    exact ⟨hle, fun hip' => absurd hip' hip⟩

end Mcgroups

section Events

variable {env : Env} {s s' : Subn}

/-- The groups that an entry asks for are not those of another partition. For an IP group there is nothing to
meet. -/
def SoleEntry (c : Parsing) : Event → Prop
  | .entry (.mgid val flags)
      => ∀ pkey m f, c.conf.prtn = some pkey → mgroupRequest c.conf pkey val flags = some (m, f) →
    (groups c.subn.sa).get m = none → ¬ipoibSigned m →
    ∀ scope ∈ scopes f, Sole c.subn pkey (mgidSetScope m (scopeOr scope))
  | _ => True

def SoleFile (env : Env) : Parsing → List Event → Prop
  | _, [] => True
  | c, e :: es =>
    match act env c e with
    | none => True
    | some c' => SoleEntry c e ∧ SoleFile env c' es

lemma sole_iff {pkey : ℕ} {m : Mgid} :
    (∀ x ∈ s.prtnPkeyTbl.entries, (∃ r ∈ x.2.mgrps, r.1 = m ∧ r.2 = s.serial m) → x.2.pkey = pkey) ↔
      Sole s pkey m := by
  constructor
  · intro h k p hp hm
    exact h (k, p) (Qmap.get_eq_some.mp hp) (Exists.intro _ (And.intro hm (And.intro rfl rfl)))
  · rintro h x hx ⟨r, hr, rfl, hserial⟩
    exact h x.1 x.2 (Qmap.get_eq_some.mpr hx) (hserial ▸ hr)

instance (s : Subn) (pkey : ℕ) (m : Mgid) : Decidable (Sole s pkey m) := decidable_of_iff _ sole_iff

lemma soleEntry_iff {c : Parsing} {val : Str} {flags : List Token} :
    (∀ pkey ∈ c.conf.prtn, ∀ r ∈ mgroupRequest c.conf pkey val flags, ((groups c.subn.sa).get r.1).isNone = true →
      ¬ipoibSigned r.1 → ∀ scope ∈ scopes r.2, Sole c.subn pkey (mgidSetScope r.1 (scopeOr scope))) ↔
      SoleEntry c (.entry (.mgid val flags)) :=
  ⟨fun h pkey m f hp hm hg => h pkey hp (m, f) hm (Option.isNone_iff_eq_none.mpr hg),
    fun h pkey hp r hm hg => h pkey r.1 r.2 hp hm (Option.isNone_iff_eq_none.mp hg)⟩

instance (c : Parsing) : (e : Event) → Decidable (SoleEntry c e)
  | .entry (.mgid _ _) => decidable_of_iff _ soleEntry_iff
  | .entry (.port _) => .isTrue trivial
  | .flag _ => .isTrue trivial
  | .create _ => .isTrue trivial
  | .flush => .isTrue trivial

lemma soleFile_cons {c : Parsing} {e : Event} {es : List Event} :
    (∀ c' ∈ act env c e, SoleEntry c e ∧ SoleFile env c' es) ↔ SoleFile env c (e :: es) := by
  rw [SoleFile]
  cases act env c e with
  | none => exact iff_of_true (fun _ h => by cases h) trivial
  | some c' => exact ⟨fun h => h c' rfl, fun h _ hc => Option.some.inj hc ▸ h⟩

instance decidableSoleFile (env : Env) : (c : Parsing) → (es : List Event) → Decidable (SoleFile env c es)
  | _, [] => .isTrue trivial
  | _, _ :: es =>
    have := fun c => decidableSoleFile env c es
    decidable_of_iff _ soleFile_cons

lemma makeNew_good (h : Good s) {name : Option Str} {pkey key : ℕ}
    (hm : osmPrtnMakeNew env s name pkey = some (s', key)) : Good s' ∧ Grow s s' := by
  rcases osmPrtnMakeNew_cases hm with ⟨-, -, -, rfl⟩ | ⟨-, rfl, -⟩ | ⟨-, -, -, -, -, c, rfl⟩
  · exact ⟨h.insertPrtn name key, grow_insertPrtn name key⟩
  · exact ⟨h, grow_of_arrays rfl⟩
  · have hc : Good { s with globalPkeyCounter := c } := ⟨h.live, h.single, h.nodup, h.ip⟩
    exact ⟨hc.insertPrtn name key, grow_insertPrtn (s := { s with globalPkeyCounter := c }) name key⟩

lemma partitionCreate_good (hw : Wf env s) (h : Good s) {conf : PartConf} {t : Token} {r : Subn × PartConf}
    (hr : partitionCreate env s conf t = some r) : Good r.1 ∧ Grow s r.1 := by
  simp only [partitionCreate] at hr
  cases hm : (partitionPkey t).bind (osmPrtnMakeNew env s (nameText t)) with
  | none => simp [hm] at hr
  | some m =>
    obtain ⟨pkey, -, hmake⟩ := Option.bind_eq_some_iff.mp hm
    obtain ⟨hgood, hgrow⟩ := makeNew_good h hmake
    have hw₁ : Wf env m.1 := hw.osmPrtnMakeNew hmake
    have hkey : m.2 < 2 ^ 15 ∧ (getPrtn env m.1 m.2).isSome := by
      rcases osmPrtnMakeNew_cases hmake with ⟨-, -, hlt, hs⟩ | ⟨-, hs, p, hfind, hp⟩ | ⟨-, -, -, -, hlt, c, hs⟩
      · exact ⟨hlt, hs ▸ isSome_insertPrtn _ _⟩
      · obtain ⟨n, -, hfind⟩ := Option.bind_eq_some_iff.mp hfind
        obtain ⟨hget, -⟩ := hw.osmPrtnFindByName hfind
        rw [hs, hp, hget]
        exact ⟨(hw.of_get hget).2.2.1, rfl⟩
      · exact ⟨hlt, hs ▸ isSome_insertPrtn _ _⟩
    simp only [hm, Option.some.injEq] at hr
    subst hr
    have hsl : ∀ sl, SameGroups m.1 (modifyPrtn env m.1 m.2 fun p => { p with sl := sl }) :=
      fun sl => sameGroups_modifyPrtn m.2 fun _ => ⟨rfl, rfl⟩
    have hids : ∀ sl, prtnIds (modifyPrtn env m.1 m.2 fun p => { p with sl := sl }) = prtnIds m.1 :=
      fun sl => prtnIds_modifyPrtn fun _ => ⟨rfl, rfl⟩
    have hstep : ∀ sl, Good (modifyPrtn env m.1 m.2 fun p => { p with sl := sl }) ∧
        Grow s (modifyPrtn env m.1 m.2 fun p => { p with sl := sl }) :=
      fun sl => ⟨(hsl sl).good hgood, hgrow.trans (grow_of_arrays (hsl sl).arrays)⟩
    have hcreate : ∀ sl f, Good (createMgrp env (modifyPrtn env m.1 m.2 fun p => { p with sl := sl }) m.2 f
          (mgidSetPkey ipoibBroadcastMgid (fullPkey m.2))) ∧
        Grow s (createMgrp env (modifyPrtn env m.1 m.2 fun p => { p with sl := sl }) m.2 f
          (mgidSetPkey ipoibBroadcastMgid (fullPkey m.2))) := by
      intro sl f
      have hwsl : Wf env (modifyPrtn env m.1 m.2 fun p => { p with sl := sl }) := by
        rw [Wf, hids]
        exact hw₁
      have hgrown := createMgrp_grown hwsl (hstep sl).1 hkey.1
        (by rw [getPrtn_isSome, hids, ← getPrtn_isSome]; exact hkey.2) fitting_broadcast f fun scope _ => ?_
      · exact ⟨hgrown.good, (hstep sl).2.trans hgrown.grow⟩
      · have hip : ipoibSigned (mgidSetPkey ipoibBroadcastMgid (fullPkey m.2)) := by
          refine .inl ?_
          simp only [mgidSignature, mgidSetPkey, ipoibBroadcastMgid]
          omega
        exact sole_of_ip hwsl (hstep sl).1 hkey.1 ((ipoibSigned_mgidSetScope _ _).mpr hip)
          ((mgidPkey_mgidSetScope _ _).trans (fitting_broadcast.ip hip))
    by_cases hip : conf.isIpoib
    · simp only [hip, if_true]
      exact hcreate _ _
    · simp only [hip, Bool.false_eq_true, if_false]
      exact hstep _

/-- One event: the groups stay as they should when the entry meets the condition. -/
lemma act_good {c c' : Parsing} {e : Event} (hw : Wf env c.subn) (hc : ConfOk env c) (h : Good c.subn)
    (hs : SoleEntry c e) (ha : act env c e = some c') : Good c'.subn ∧ Grow c.subn c'.subn := by
  cases e with
  | flag t =>
    obtain rfl := Option.some.inj ha
    exact ⟨h, grow_of_arrays rfl⟩
  | create t =>
    obtain ⟨r, hr, rfl⟩ := Option.map_eq_some_iff.mp ha
    exact partitionCreate_good hw h hr
  | flush =>
    obtain rfl := Option.some.inj ha
    exact ⟨h, grow_of_arrays rfl⟩
  | entry e =>
    obtain ⟨pkey, hpkey, he⟩ := Option.bind_eq_some_iff.mp ha
    obtain ⟨-, hlt, hex⟩ := hc pkey hpkey
    cases e with
    | port t =>
      obtain ⟨s, hs, rfl⟩ := Option.map_eq_some_iff.mp he
      simp only [partitionAddPort] at hs
      split_ifs at hs
      · obtain rfl := Option.some.inj hs
        exact ⟨h, grow_of_arrays rfl⟩
      · obtain ⟨target, -, rfl⟩ := Option.map_eq_some_iff.mp hs
        have hsame : SameGroups c.subn _ :=
          @sameGroups_addMembership env c.subn pkey target (portMembership c.conf t.val) c.conf.indx0
        exact ⟨hsame.good h, grow_of_arrays hsame.arrays⟩
    | mgid val flags =>
      obtain rfl := Option.some.inj he
      simp only [mgroupCreate]
      cases hreq : mgroupRequest c.conf pkey val flags with
      | none => exact ⟨h, grow_of_arrays rfl⟩
      | some r =>
        obtain ⟨m, f⟩ := r
        dsimp only
        cases hget : c.subn.sa.subn.mgrpMgidTbl.get m with
        | some g => exact ⟨h, grow_of_arrays rfl⟩
        | none =>
          have hfit := mgroupRequest_fitting hreq
          have hgrown := createMgrp_grown hw h hlt hex hfit f fun scope hscope => ?_
          · exact ⟨hgrown.good, hgrown.grow⟩
          · by_cases hip : ipoibSigned m
            · exact sole_of_ip hw h hlt ((ipoibSigned_mgidSetScope _ _).mpr hip)
                ((mgidPkey_mgidSetScope _ _).trans (hfit.ip hip))
            · exact hs pkey m f hpkey hreq hget hip scope hscope

lemma actAll_good {old : Guid → ℕ} {rules : List Rule} {c : Parsing} (hf : Follows env old rules c.subn)
    (hc : ConfOk env c) (h : Good c.subn) {es : List Event}
    (hs : SoleFile env c es) : Good (actAll env c es).1.subn ∧ Grow c.subn (actAll env c es).1.subn := by
  induction es generalizing c rules with
  | nil => exact ⟨h, grow_of_arrays rfl⟩
  | cons e es ih =>
    rw [SoleFile] at hs
    rw [actAll]
    cases ha : act env c e with
    | none => exact ⟨h, grow_of_arrays rfl⟩
    | some c' =>
      rw [ha] at hs
      obtain ⟨hf', hc'⟩ := act_follows hf hc ha
      obtain ⟨hgood, hgrow⟩ := act_good hf.wf hc h hs.1 ha
      obtain ⟨hgood', hgrow'⟩ := ih hf' hc' hgood hs.2
      exact ⟨hgood', hgrow.trans hgrow'⟩

end Events

section CleanUp

variable {env : Env} {s s' : Subn}

lemma derefMgrp_mgrpCleanup {m : Mgid} {r : MgrpRef} (h : r.1 ≠ m) :
    derefMgrp (mgrpCleanup (setWellKnown s m false) m) r = derefMgrp s r := by
  have hget : (groups (mgrpCleanup (setWellKnown s m false) m).sa).get r.1 = (groups s.sa).get r.1 := by
    have hwk : (setWellKnown s m false).sa.subn.mgrpMgidTbl.get r.1 = s.sa.subn.mgrpMgidTbl.get r.1 := by
      simp only [setWellKnown, Qmap.get_modify, if_neg h]
    refine Eq.trans ?_ hwk
    simp only [mgrpCleanup, osmMgrpCleanup]
    cases hg : (setWellKnown s m false).sa.subn.mgrpMgidTbl.get m with
    | none => rfl
    | some g => exact (elsewhere_mgrpCleanup _ m g).mgrp r.1 h
  simp only [derefMgrp]
  change (if s.serial r.1 = r.2 then (groups (mgrpCleanup (setWellKnown s m false) m).sa).get r.1 else none) = _
  rw [hget]

lemma releaseMgrps_some {rs : List MgrpRef} (hnodup : rs.Nodup) (hlive : ∀ r ∈ rs, (derefMgrp s r).isSome) :
    ∃ s', releaseMgrps s rs = some s' ∧ ∀ r, r ∉ rs → (derefMgrp s r).isSome → derefMgrp s' r = derefMgrp s r := by
  induction rs generalizing s with
  | nil => exact ⟨s, rfl, fun _ _ _ => rfl⟩
  | cons x rs ih =>
    obtain ⟨hx, hnodup⟩ := List.nodup_cons.mp hnodup
    obtain ⟨g, hg⟩ := Option.isSome_iff_exists.mp (hlive x List.mem_cons_self)
    have hother : ∀ r, r ≠ x → (derefMgrp s r).isSome →
        derefMgrp (mgrpCleanup (setWellKnown s x.1 false) x.1) r = derefMgrp s r := by
      intro r hne hr
      refine derefMgrp_mgrpCleanup fun heq => hne ?_
      obtain ⟨g', hg'⟩ := Option.isSome_iff_exists.mp hr
      have h₁ := (derefMgrp_eq_some.mp hg').1
      have h₂ := (derefMgrp_eq_some.mp hg).1
      exact Prod.ext heq (by rw [← h₁, ← h₂, heq])
    have hne : ∀ r ∈ rs, r ≠ x := fun r hr heq => hx (heq ▸ hr)
    obtain ⟨s', hs', hkeep⟩ := ih (s := mgrpCleanup (setWellKnown s x.1 false) x.1) hnodup fun r hr => by
      rw [hother r (hne r hr) (hlive r (List.mem_cons_of_mem x hr))]
      exact hlive r (List.mem_cons_of_mem x hr)
    refine ⟨s', ?_, fun r hr hlive' => ?_⟩
    · rw [releaseMgrps, hg]
      exact hs'
    · rw [List.mem_cons, not_or] at hr
      have hsame := hother r hr.1 hlive'
      rw [hkeep r hr.2 (hsame ▸ hlive'), hsame]

lemma arrays_of_tbl {t : Qmap ℕ Prtn} {k : ℕ} (h : s'.prtnPkeyTbl = t.remove k) {k' : ℕ} {a : ℕ × List MgrpRef}
    (ha : (arrays s').get k' = some a) : k' ≠ k ∧ (t.map fun p => (p.pkey, p.mgrps)).get k' = some a := by
  rw [get_arrays, h, Qmap.get_remove] at ha
  split_ifs at ha with hk
  · simp at ha
  · rw [Qmap.get_map]
    exact ⟨hk, ha⟩

lemma prtnDelete_good (hw : Wf env s) (h : Good s) {k : ℕ} {p : Prtn} (hp : s.prtnPkeyTbl.get k = some p) :
    ∃ s', prtnDelete env s p = some s' ∧ Good s' := by
  have hk := (hw.of_get hp).1
  have harr := mem_arrays hp
  have hlive : ∀ r ∈ p.mgrps,
      (derefMgrp { s with prtnPkeyTbl := s.prtnPkeyTbl.remove (env.hton16 p.pkey) } r).isSome := by
    intro r hr
    obtain ⟨g, hg, -⟩ := h.live k _ harr r hr
    exact Option.isSome_iff_exists.mpr ⟨g, hg⟩
  obtain ⟨s', hs', hkeep⟩ := releaseMgrps_some (h.nodup k _ harr) hlive
  have hdelete : prtnDelete env s p = some s' := hs'
  have htbl := (prtnPkeyTbl_prtnDelete hdelete).1
  rw [← hk] at htbl
  refine ⟨s', hs', ?_, ?_, ?_, ?_⟩
  · intro k' a ha r hr
    obtain ⟨hne, ha⟩ := arrays_of_tbl htbl ha
    obtain ⟨g, hg, hwk⟩ := h.live k' a ha r hr
    refine ⟨g, ?_, hwk⟩
    rw [hkeep r (fun hr' => hne (h.single k' a k _ ha harr r hr hr')) (Option.isSome_iff_exists.mpr ⟨g, hg⟩)]
    exact hg
  · intro k₁ a₁ k₂ a₂ h₁ h₂
    exact h.single k₁ a₁ k₂ a₂ (arrays_of_tbl htbl h₁).2 (arrays_of_tbl htbl h₂).2
  · exact fun k' a ha => h.nodup k' a (arrays_of_tbl htbl ha).2
  · exact fun k' a ha => h.ip k' a (arrays_of_tbl htbl ha).2

lemma cleanUpLoop_good {l : List (ℕ × Prtn)} (hw : Wf env s) (h : Good s) (hnodup : (l.map Prod.fst).Nodup)
    (hl : ∀ e ∈ l, s.prtnPkeyTbl.get e.1 = some e.2) :
    ∃ s', l.foldlM (fun s e => if e.2.isEmpty then prtnDelete env s e.2 else some s) s = some s' ∧ Good s' := by
  induction l generalizing s with
  | nil => exact ⟨s, rfl, h⟩
  | cons e l ih =>
    rw [List.map_cons, List.nodup_cons] at hnodup
    have he := hl e List.mem_cons_self
    by_cases hempty : e.2.isEmpty
    · obtain ⟨s₁, hs₁, hgood⟩ := prtnDelete_good hw h he
      have hw₁ : Wf env s₁ := by
        rw [Wf, prtnIds_prtnDelete hs₁]
        exact IdsWf.remove hw _
      obtain ⟨s', hs', hgood'⟩ := ih hw₁ hgood hnodup.2 fun x hx => by
        have hne : x.1 ≠ e.1 := fun heq => hnodup.1 (heq ▸ List.mem_map_of_mem hx)
        rw [(prtnPkeyTbl_prtnDelete hs₁).1, ← (hw.of_get he).1, Qmap.get_remove, if_neg hne]
        exact hl x (List.mem_cons_of_mem e hx)
      refine ⟨s', ?_, hgood'⟩
      rw [List.foldlM_cons, if_pos hempty, hs₁]
      exact hs'
    · obtain ⟨s', hs', hgood'⟩ := ih hw h hnodup.2 fun x hx => hl x (List.mem_cons_of_mem e hx)
      refine ⟨s', ?_, hgood'⟩
      rw [List.foldlM_cons, if_neg hempty]
      exact hs'

lemma cleanUpEmpty_good (hw : Wf env s) (h : Good s) : ∃ s', cleanUpEmpty env s = some s' ∧ Good s' :=
  cleanUpLoop_good hw h (Qmap.nodup_keys s.prtnPkeyTbl) fun _ he => Qmap.get_eq_some.mpr he

end CleanUp

section Reloads

variable {env : Env} {s s' : Subn}

lemma prtnMakeDefault_good (hw : Wf env s) (h : Good s) (noConfig : Bool) :
    Good (prtnMakeDefault env s noConfig) ∧ Grow s (prtnMakeDefault env s noConfig) ∧
      prtnIds (prtnMakeDefault env s noConfig) =
        (prtnIds s).insert (env.hton16 defaultPartialPkey) (defaultPartialPkey, "Default".toList) := by
  have hmake : osmPrtnMakeNew env s (some "Default".toList) defaultPartialPkey =
      some (insertPrtn env s (prtnNew (some "Default".toList) defaultPartialPkey), defaultPartialPkey) := by
    simp [osmPrtnMakeNew, pkeyGetBase, defaultPartialPkey]
  obtain ⟨hgood, hgrow⟩ := makeNew_good h hmake
  have hw₁ := hw.osmPrtnMakeNew hmake
  have hids₁ := @prtnIds_insertPrtn env s (prtnNew (some "Default".toList) defaultPartialPkey)
  simp only [prtnMakeDefault, hmake]
  set s₁ := insertPrtn env s (prtnNew (some "Default".toList) defaultPartialPkey) with hs₁
  have hsame : SameGroups s₁
      (osmPrtnAddPort env (modifyPrtn env (osmPrtnAddAll env s₁ defaultPartialPkey none noConfig false)
      defaultPartialPkey fun p => { p with partGuidTbl := p.partGuidTbl.remove env.smPortGuid }) defaultPartialPkey
      env.smPortGuid true false) := by
    have hall : SameGroups s₁ (osmPrtnAddAll env s₁ defaultPartialPkey none noConfig false) :=
      sameGroups_addTarget s₁ defaultPartialPkey noConfig false (.all none)
    refine (hall.trans ?_).trans (sameGroups_osmPrtnAddPort _ _ _ _ _)
    exact sameGroups_modifyPrtn defaultPartialPkey fun _ => ⟨rfl, rfl⟩
  have hids : prtnIds (osmPrtnAddPort env
      (modifyPrtn env (osmPrtnAddAll env s₁ defaultPartialPkey none noConfig false)
      defaultPartialPkey fun p => { p with partGuidTbl := p.partGuidTbl.remove env.smPortGuid }) defaultPartialPkey
      env.smPortGuid true false) = prtnIds s₁ := by
    rw [prtnIds_osmPrtnAddPort]
    refine Eq.trans (prtnIds_modifyPrtn fun _ => ⟨rfl, rfl⟩) (prtnIds_osmPrtnAddAll _ _ _ _)
  set s₂ := osmPrtnAddPort env (modifyPrtn env (osmPrtnAddAll env s₁ defaultPartialPkey none noConfig false)
      defaultPartialPkey fun p => { p with partGuidTbl := p.partGuidTbl.remove env.smPortGuid }) defaultPartialPkey
      env.smPortGuid true false with hs₂
  have hgood₂ := hsame.good hgood
  have hgrow₂ := hgrow.trans (grow_of_arrays hsame.arrays)
  cases noConfig with
  | false => exact ⟨hgood₂, hgrow₂, hids.trans hids₁⟩
  | true =>
    have hw₂ : Wf env s₂ := by
      rw [Wf, hids]
      exact hw₁
    have hip : ipoibSigned ipoibBroadcastMgid := by decide
    have hpkey : mgidPkey ipoibBroadcastMgid = fullPkey defaultPartialPkey := by decide
    have hsole := sole_of_ip hw₂ hgood₂ defaultPkey_lt.2 ((ipoibSigned_mgidSetScope _ (scopeOr 0)).mpr hip)
      ((mgidPkey_mgidSetScope _ (scopeOr 0)).trans hpkey)
    have hgrown := osmPrtnAddMcgroup_grown hw₂ hgood₂ defaultPkey_lt.2
      (by rw [getPrtn_isSome, hids, ← getPrtn_isSome]; exact isSome_insertPrtn _ _) ⟨by decide, fun _ => hpkey⟩
      ⟨defaultMgrpMtu, defaultMgrpRate, defaultSl, 0, ipoibBroadcastMgrpQkey, 0, 0⟩ 0 hsole
    exact ⟨hgrown.good, hgrow₂.trans hgrown.grow,
        (samePrtns_osmPrtnAddMcgroup s₂ _ _ _ _).prtnIds.trans (hids.trans hids₁)⟩

/-- A partition that is there before and after keeps its pointers. -/
def Holds (s s' : Subn) : Prop :=
  ∀ k a a', (arrays s).get k = some a → (arrays s').get k = some a' → a.2 ⊆ a'.2

lemma Holds.of_grow (h : Grow s s') : Holds s s' := by
  intro k a a' ha ha'
  obtain ⟨a₁, ha₁, hsub⟩ := h k a ha
  obtain rfl := Option.some.inj (ha₁.symm.trans ha')
  exact hsub

lemma arrays_cleanUpEmpty (hw : Wf env s) (h : cleanUpEmpty env s = some s') {k : ℕ} {a : ℕ × List MgrpRef}
    (ha : (arrays s').get k = some a) : (arrays s).get k = some a := by
  rw [get_arrays] at ha ⊢
  rw [get_cleanUpEmpty hw h] at ha
  obtain ⟨p, hp, rfl⟩ := Option.map_eq_some_iff.mp ha
  rw [(Option.filter_eq_some_iff.mp hp).1]
  rfl

lemma Grow.holds_cleanUp {s₁ : Subn} (h : Grow s s₁) (hw : Wf env s₁)
    (hc : cleanUpEmpty env s₁ = some s') : Holds s s' :=
  fun k a a' ha ha' => Holds.of_grow h k a a' ha (arrays_cleanUpEmpty hw hc ha')

lemma retryDefault_good (hw : Wf env s) (h : Good s) :
    ∃ s', retryDefault env s = some s' ∧ Good s' ∧ Holds s s' ∧
      ∀ k, ((arrays s').get k).isSome → ((arrays s).get k).isSome ∨ k = env.hton16 defaultPartialPkey := by
  have hclear := sameGroups_clearPortMaps s
  obtain ⟨hgood, hgrow, hids⟩ := prtnMakeDefault_good hw.clearPortMaps (hclear.good h) true
  have hw' := hw.clearPortMaps.prtnMakeDefault true
  obtain ⟨s', hs', hgood'⟩ := cleanUpEmpty_good hw' hgood
  refine ⟨s', hs', hgood', ((grow_of_arrays hclear.arrays).trans hgrow).holds_cleanUp hw' hs', fun k hk => ?_⟩
  obtain ⟨a, ha⟩ := Option.isSome_iff_exists.mp hk
  have ha := arrays_cleanUpEmpty hw' hs' ha
  have hid : ((prtnIds (prtnMakeDefault env (clearPortMaps s) true)).get k).isSome := by
    obtain ⟨p, hp, -⟩ := of_mem_arrays ha
    rw [get_prtnIds, hp]
    rfl
  rw [hids, prtnIds_clearPortMaps, Qmap.get_insert] at hid
  split_ifs at hid with hd
  · exact .inr hd
  · refine .inl ?_
    rw [get_prtnIds, Option.isSome_map] at hid
    rw [get_arrays, Option.isSome_map]
    exact hid

lemma tablesOf_ne (m : Membership) : tablesOf env m ≠ (false, false) := by
  cases m <;> simp [tablesOf]

lemma default_stays {events : List Event} (hw : Wf env s) {s₁ : Subn}
    (hs₁ : cleanUpEmpty env
      (osmPrtnConfigParseFile env (prtnMakeDefault env (clearPortMaps s) false) events).1 = some s₁) :
    ((arrays s₁).get (env.hton16 defaultPartialPkey)).isSome := by
  have hparse := parse_follows hw events
  have hsm : (env.ports.get env.smPortGuid).isSome := Option.isSome_iff_exists.mpr env.smPort
  have hsome := (isSome_cleanUpEmpty hparse.wf hparse.inPorts hs₁ defaultPartialPkey).mpr ⟨env.smPortGuid, hsm, ?_⟩
  · rw [get_arrays, Option.isSome_map]
    exact hsome
  · rw [memberOf_cleanUpEmpty hparse.wf hs₁, hparse.member _ _ defaultPkey_lt.2 hsm, lastMember]
    cases hfind : (matching env
        (defaultRules env false ++ actedRules env ⟨prtnMakeDefault env (clearPortMaps s) false,
        newPartConf⟩ events) env.smPortGuid).find? fun r => r.pkey = defaultPartialPkey with
    | none =>
      rw [List.find?_eq_none] at hfind
      refine absurd rfl (of_decide_eq_false (Bool.eq_false_iff.mpr
        (hfind ⟨defaultPartialPkey, .guid env.smPortGuid, .full, false⟩ ?_)))
      rw [matching, List.mem_reverse, List.mem_filter]
      exact ⟨List.mem_append_left _ (by simp [defaultRules]), by simp [hits]⟩
    | some r => exact tablesOf_ne r.membership

def SoleReload (env : Env) (s : Subn) (file : Option (List Event)) : Prop :=
  ∀ events, file = some events → SoleFile env ⟨prtnMakeDefault env (clearPortMaps s) false, newPartConf⟩ events

/-- A call of `osm_prtn_make_partitions` that meets the condition follows no pointer to a freed group. -/
lemma osmPrtnMakePartitions_good (hw : Wf env s) (h : Good s) {file : Option (List Event)}
    (hs : SoleReload env s file) :
    ∃ s', osmPrtnMakePartitions env s file = some s' ∧ Good s' ∧ Holds s s' := by
  cases file with
  | none =>
    obtain ⟨s', hs', hgood, hholds, -⟩ := retryDefault_good hw h
    exact ⟨s', hs', hgood, hholds⟩
  | some events =>
    have hclear := sameGroups_clearPortMaps s
    obtain ⟨hgood, hgrow, -⟩ := prtnMakeDefault_good hw.clearPortMaps (hclear.good h) false
    have hfollows := prtnMakeDefault_follows (clearPortMaps_follows hw) false
    obtain ⟨hgood₁, hgrow₁⟩ :=
      actAll_good (c := ⟨prtnMakeDefault env (clearPortMaps s) false, newPartConf⟩) hfollows
      (fun k hk => by simp [newPartConf] at hk) hgood (hs events rfl)
    have hw₁ := (parse_follows hw events).wf
    have hgrow' := ((grow_of_arrays hclear.arrays).trans hgrow).trans hgrow₁
    obtain ⟨s₁, hs₁, hgood₂⟩ := cleanUpEmpty_good hw₁ hgood₁
    have hholds := hgrow'.holds_cleanUp hw₁ hs₁
    have hclean : cleanUpEmpty env
        (osmPrtnConfigParseFile env (prtnMakeDefault env (clearPortMaps s) false) events).1 = some s₁ := hs₁
    by_cases hacc : (osmPrtnConfigParseFile env (prtnMakeDefault env (clearPortMaps s) false) events).2
    · refine ⟨s₁, ?_, hgood₂, hholds⟩
      simp only [osmPrtnMakePartitions, hclean, Option.bind_some, if_pos hacc]
    · obtain ⟨s', hs', hgood', hholds', hkeys⟩ := retryDefault_good (hw₁.cleanUpEmpty hs₁) hgood₂
      refine ⟨s', ?_, hgood', fun k a a' ha ha' => ?_⟩
      · simp only [osmPrtnMakePartitions, hclean, Option.bind_some, if_neg hacc]
        exact hs'
      · have hsome : ((arrays s₁).get k).isSome := by
          rcases hkeys k (Option.isSome_iff_exists.mpr ⟨a', ha'⟩) with hk | rfl
          · exact hk
          · exact default_stays hw hclean
        obtain ⟨a₁, ha₁⟩ := Option.isSome_iff_exists.mp hsome
        exact List.Subset.trans (hholds k a a₁ ha ha₁) (hholds' k a₁ a' ha₁ ha')

end Reloads

section Runs

variable {host : ℕ → ℕ} {s : Subn}

inductive Act (host : ℕ → ℕ)
  | reload (r : Reload host)
  | request (mc : McMember.Env) (method : Method) (q : McmReq)
  | deletePort (m : Mgid) (port : Guid)

def sysStep (s : Subn) : Act host → Option Subn
  | .reload r => reload s r
  | .request mc method q => some (putSa s (osmMcmrRcvProcess mc s.sa method q).1)
  | .deletePort m port =>
    (s.sa.subn.mgrpMgidTbl.get m).map fun g => putSa s (closing s.sa m (mgrpDeletePort s.sa.subn m g port))

/-- No entry of a file asks for a group of another partition. -/
def Meets (s : Subn) : Act host → Prop
  | .reload r => SoleReload r.env s r.file
  | _ => True

/-- Every pointer of a partition leads to a group that is there and well known, and no group has two partitions. -/
structure Owned (s : Subn) : Prop where
  live : ∀ k p, s.prtnPkeyTbl.get k = some p → ∀ r ∈ p.mgrps, ∃ g, derefMgrp s r = some g ∧ g.wellKnown = true
  single : ∀ k p k' p', s.prtnPkeyTbl.get k = some p → s.prtnPkeyTbl.get k' = some p' →
    ∀ r, r ∈ p.mgrps → r ∈ p'.mgrps → k = k'

lemma Good.owned (h : Good s) : Owned s :=
  ⟨fun k _ hp => h.live k _ (mem_arrays hp),
      fun k _ k' _ hp hp' => h.single k _ k' _ (mem_arrays hp) (mem_arrays hp')⟩

lemma good_init (uniq : ℕ) : Good (Subn.init uniq) := by
  constructor <;> intro k a <;> simp [arrays, Subn.init]

lemma keeps_deletePort (sa : Sa) {m : Mgid} {g : Mgrp} (port : Guid) :
    Keeps (groups sa) (groups (closing sa m (mgrpDeletePort sa.subn m g port))) :=
  keeps_deletePortLoop port g.mcmAliasPortTbl.keys

lemma holds_of_tbl {s' : Subn} (h : s'.prtnPkeyTbl = s.prtnPkeyTbl) : Holds s s' :=
  .of_grow (grow_of_arrays (congrArg (fun t => Qmap.map t _) h))

lemma sysStep_good {a : Act host} (hw : IdsWf host (prtnIds s)) (h : Good s) (ha : Meets s a) :
    (∀ r, a = .reload r → (sysStep s a).isSome) ∧
      ∀ s', sysStep s a = some s' → IdsWf host (prtnIds s') ∧ Good s' ∧ Holds s s' := by
  cases a with
  | reload r =>
    obtain ⟨env, rfl, file⟩ := r
    obtain ⟨s', hs', hgood, hholds⟩ := osmPrtnMakePartitions_good hw h ha
    have hstep : sysStep s (Act.reload ⟨env, rfl, file⟩) = some s' := hs'
    refine ⟨fun _ _ => by rw [hstep]; rfl, fun s₁ hs₁ => ?_⟩
    obtain rfl := Option.some.inj (hs'.symm.trans hs₁)
    exact ⟨Wf.osmPrtnMakePartitions hw hs', hgood, hholds⟩
  | request mc method q =>
    refine ⟨fun _ hr => by simp at hr, fun s' hs' => ?_⟩
    obtain rfl := Option.some.inj hs'
    exact ⟨hw, h.putSa (keeps_osmMcmrRcvProcess method q), holds_of_tbl rfl⟩
  | deletePort m port =>
    refine ⟨fun _ hr => by simp at hr, fun s' hs' => ?_⟩
    obtain ⟨g, -, rfl⟩ := Option.map_eq_some_iff.mp hs'
    exact ⟨hw, h.putSa (keeps_deletePort s.sa port), holds_of_tbl rfl⟩

lemma run_good {uniq : ℕ} {l : List (Subn × Act host)} (h : Run sysStep (Subn.init uniq) l s)
    (hl : ∀ x ∈ l, Meets x.1 x.2) : IdsWf host (prtnIds s) ∧ Good s := by
  induction h with
  | nil =>
    refine ⟨?_, good_init uniq⟩
    constructor <;> intro k p hp <;> simp [prtnIds, Subn.init] at hp
  | @snoc l s s' a _ ha ih =>
    rw [List.forall_mem_append, List.forall_mem_singleton] at hl
    obtain ⟨hw, hgood⟩ := ih hl.1
    obtain ⟨hw', hgood', -⟩ := (sysStep_good hw hgood hl.2).2 s' ha
    exact ⟨hw', hgood'⟩

/-- In every run whose files ask for no group of another partition, the groups of the partitions are there and
have one owner. The next call follows no pointer to a freed group, and no step takes a group from a partition
that stays. -/
theorem run_owned {uniq : ℕ} {l : List (Subn × Act host)} (h : Run sysStep (Subn.init uniq) l s)
    (hl : ∀ x ∈ l, Meets x.1 x.2) :
    Owned s ∧ ∀ a : Act host, Meets s a → (∀ r, a = .reload r → (sysStep s a).isSome) ∧
      ∀ s', sysStep s a = some s' → ∀ k p p', s.prtnPkeyTbl.get k = some p → s'.prtnPkeyTbl.get k = some p' →
        ∀ r ∈ p.mgrps, r ∈ p'.mgrps ∧ ∃ g, derefMgrp s' r = some g ∧ g.wellKnown = true := by
  obtain ⟨hw, hgood⟩ := run_good h hl
  refine ⟨hgood.owned, fun a ha => ?_⟩
  obtain ⟨hsome, hnext⟩ := sysStep_good hw hgood ha
  refine ⟨hsome, fun s' hs' k p p' hp hp' r hr => ?_⟩
  obtain ⟨-, hgood', hholds⟩ := hnext s' hs'
  have hr' : r ∈ p'.mgrps := hholds k _ _ (mem_arrays hp) (mem_arrays hp') hr
  exact ⟨hr', hgood'.owned.live k p' hp' r hr'⟩

def onlyB : List PartDef := [⟨⟨"b".toList, some "2".toList⟩, [], [.port ⟨"ALL".toList, some "full".toList⟩]⟩]

def reloadOf (defs : List PartDef) : Act id := .reload ⟨oneCa, rfl, some (fileEvents defs)⟩

def ownGroups : List PartDef :=
  [⟨⟨"a".toList, some "1".toList⟩, [], [.mgid "ff12::1".toList [], .port ⟨"ALL".toList, some "full".toList⟩]⟩,
    ⟨⟨"b".toList, some "2".toList⟩, [], [.mgid "ff12::2".toList [], .port ⟨"ALL".toList, some "full".toList⟩]⟩]

theorem run_owned_ownGroups :
    ((afterFile (Subn.init 0) ownGroups).prtnPkeyTbl.get 1).map Prtn.mgrps =
        some [(0xFF120000000000000000000000000001, 0)] ∧
      ((afterFile (Subn.init 0) ownGroups).prtnPkeyTbl.get 2).map Prtn.mgrps =
        some [(0xFF120000000000000000000000000002, 1)] ∧
      Owned (afterFile (Subn.init 0) ownGroups) := by
  have hmeets : Meets (Subn.init 0) (reloadOf ownGroups) := by
    intro events h
    obtain rfl := Option.some.inj h
    decide +kernel
  exact ⟨rfl, rfl, (run_owned (l := [(Subn.init 0, reloadOf ownGroups)]) (.snoc .nil rfl)
      (by simpa using hmeets)).1⟩

/-- `a=1 : mgid=ff15::1` and `ALL=full;`, and the same for `b=2`, on lines of their own. -/
def sharedFile : List PartDef :=
  [⟨⟨"a".toList, some "1".toList⟩, [], [.mgid "ff15::1".toList [], .port ⟨"ALL".toList, some "full".toList⟩]⟩,
    ⟨⟨"b".toList, some "2".toList⟩, [], [.mgid "ff15::1".toList [], .port ⟨"ALL".toList, some "full".toList⟩]⟩]

def onlyC : List PartDef := [⟨⟨"c".toList, some "3".toList⟩, [], [.port ⟨"ALL".toList, some "full".toList⟩]⟩]

/-- Both partitions have the group `ff12::1`. When one goes, the other keeps a pointer to a freed group, and
`osm_prtn_delete` follows it when the other goes too. -/
theorem shared_group_freed :
    Run sysStep (Subn.init 0) [(Subn.init 0, reloadOf sharedFile),
        (afterFile (Subn.init 0) sharedFile, reloadOf onlyB)]
      (afterFile (afterFile (Subn.init 0) sharedFile) onlyB) ∧
    ¬Owned (afterFile (Subn.init 0) sharedFile) ∧
    (∃ p r, (afterFile (afterFile (Subn.init 0) sharedFile) onlyB).prtnPkeyTbl.get 2 = some p ∧ r ∈ p.mgrps ∧
      derefMgrp (afterFile (afterFile (Subn.init 0) sharedFile) onlyB) r = none) ∧
    sysStep (afterFile (afterFile (Subn.init 0) sharedFile) onlyB) (reloadOf onlyC) = none := by
  have hfirst : ∀ k, k = 1 ∨ k = 2 → ((afterFile (Subn.init 0) sharedFile).prtnPkeyTbl.get k).map Prtn.mgrps =
      some [(0xFF120000000000000000000000000001, 0)] := by
    rintro k (rfl | rfl) <;> rfl
  have hsecond : ((afterFile (afterFile (Subn.init 0) sharedFile) onlyB).prtnPkeyTbl.get 2).map Prtn.mgrps =
      some [(0xFF120000000000000000000000000001, 0)] := rfl
  refine ⟨.snoc (.snoc .nil rfl) rfl, fun h => ?_, ?_, rfl⟩
  · obtain ⟨p, hp, hpm⟩ := Option.map_eq_some_iff.mp (hfirst 1 (.inl rfl))
    obtain ⟨q, hq, hqm⟩ := Option.map_eq_some_iff.mp (hfirst 2 (.inr rfl))
    have hmem := List.mem_singleton_self ((0xFF120000000000000000000000000001, 0) : MgrpRef)
    exact absurd (h.single 1 p 2 q hp hq _ (hpm ▸ hmem) (hqm ▸ hmem)) (by decide)
  · obtain ⟨p, hp, hpm⟩ := Option.map_eq_some_iff.mp hsecond
    exact ⟨p, _, hp, hpm ▸ List.mem_singleton_self _, rfl⟩

end Runs

end OpenSM.Partition
