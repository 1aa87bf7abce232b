import OpenSM.McMemberRecord
import OpenSM.McastReroute
import OpenSM.ClMapRun

/-! Joins that are refused, also for want of memory, and what they leave of the multicast database. -/

namespace OpenSM.McMember

open Lib Multicast McastProcess ClMap Lib.RedBlack Lib.RedBlack.ColorTree

structure Mem where
  mgrp : Bool
  mgrpBox : Bool
  mcmPort : Bool
  mcmAliasGuid : Bool
  respItem : Bool
  respMad : Bool
  respSend : Bool
deriving DecidableEq

def Mem.all : Mem := ⟨true, true, true, true, true, true, true⟩

inductive Reply
  | nothing | error | success
deriving DecidableEq

section Join

variable (env : Env) (mem : Mem)

def osmMgrpNewMem (s : Sa) (mlid : ℕ) (r : MemberRec) : Option Sa :=
  if ¬mem.mgrp then none
  else if s.subn.mboxes (mlid - lidMcastStartHo) = [] ∧ ¬mem.mgrpBox then none
  else some (osmMgrpNew s mlid r)

def createNewMgrpMem (s : Sa) (comp : CompMask) (r : MemberRec) (physp : Option Guid) : Sa × Option Mgid :=
  let c := createMgid env s comp r
  let s := { s with uniqCount := c.2 }
  match c.1.bind fun r => mgrpRequestIsRealizable env comp r physp with
  | none => (s, none)
  | some r =>
    let mlid := getNewMlid env s r
    if mlid = 0 then (s, none)
    else
      match osmMgrpNewMem mem s mlid (selectorsExactly { r with mlid := mlid }) with
      | none => (s, none)
      | some s => (s, some r.mgid)

/-- `mcmr_rcv_respond`, `osm_sa_respond` and `osm_sa_send`. -/
def mcmrRcvRespond : Reply :=
  if ¬mem.respItem then .nothing
  else if ¬mem.respMad then .error
  else if ¬mem.respSend then .nothing
  else .success

def joinGroupMem (s : Sa) (q : McmReq) (r : MemberRec) (port : Guid) (proxy : Bool) (m : Mgid)
    (isNewGroup : Bool) : Sa × Reply :=
  match s.subn.mgrpMgidTbl.get m with
  | none => (s, .nothing)
  | some g =>
    let refused := if isNewGroup then osmMgrpCleanup s m else s
    if ¬(validateMoreCompFields q.compMask g.mcmemberRec r ∧ validatePortCaps env g.mcmemberRec port ∧
        r.scopeState.state ≠ 0) then (refused, .error)
    else if ¬env.hasPkey port g.mcmemberRec.pkey then (refused, .error)
    else if ¬isNewGroup ∧ ¬validateModify env g r q.requester then (s, .error)
    else if ¬(mem.mcmPort ∧ mem.mcmAliasGuid) then (refused, .error)
    else ({ s with subn := mgrpAddPort s.subn m g (joinOf r g.mcmemberRec port proxy) }, mcmrRcvRespond mem)

/-- `mcmr_rcv_join_mgrp`. -/
def joinMgrpMem (s : Sa) (q : McmReq) : Sa × Reply :=
  let r := usePrefix env q.mcmr
  if r.portGid.prefix_ ≠ env.subnetPrefix then (s, .error)
  else
    match env.portByAliasGuid r.portGid.interfaceId with
    | none => (s, .error)
    | some port =>
      match q.requester with
      | none => (s, .nothing)
      | some requester =>
        let proxy := decide (port ≠ requester)
        if proxy ∧ ¬env.sharePkey port requester then (s, .error)
        else if q.compMask .pkey ∧ pkeyBase r.pkey = 0 then (s, .error)
        else
          match s.subn.mgrpMgidTbl.get r.mgid with
          | none =>
            if ¬isFull r.scopeState.state then (s, .error)
            else if ¬checkCreateCompMask q.compMask then (s, .error)
            else
              match createNewMgrpMem env mem s q.compMask r (some port) with
              | (s, none) => (s, .error)
              | (s, some m) => joinGroupMem env mem s q r port proxy m true
          | some g =>
            if env.mcgroupJoinValidation ∧ ¬validateOtherCompFields q.compMask r g.mcmemberRec then (s, .error)
            else joinGroupMem env mem s q r port proxy r.mgid false

end Join

/-- What changes the multicast groups. Each step has its own options and fabric. -/
inductive Step
  | join (env : Env) (q : McmReq) (mem : Mem)
  | leave (env : Env) (q : McmReq)
  /-- A group of the partition configuration, found or made, becomes a well-known one. -/
  | addMcgroup (env : Env) (comp : CompMask) (r : MemberRec) (mem : Mem)
  | prtnDelete (m : Mgid)
  | deletePort (m : Mgid) (port : Guid)

def setWellKnown (s : Sa) (m : Mgid) (b : Bool) : Sa :=
  { s with subn := { s.subn with mgrpMgidTbl := s.subn.mgrpMgidTbl.modify m fun g => { g with wellKnown := b } } }

def Step.run (s : Sa) : Step → Sa
  | .join env q mem => (joinMgrpMem env mem s q).1
  | .leave env q => (mcmrRcvLeaveMgrp env s q).1
  | .addMcgroup env comp r mem =>
    match s.subn.mgrpMgidTbl.get r.mgid with
    | some _ => setWellKnown s r.mgid true
    | none =>
      match createNewMgrpMem env mem s comp r none with
      | (s, none) => s
      | (s, some m) => setWellKnown s m true
  | .prtnDelete m => osmMgrpCleanup (setWellKnown s m false) m
  | .deletePort m port =>
    match s.subn.mgrpMgidTbl.get m with
    | none => s
    | some g => closing s m (mgrpDeletePort s.subn m g port)

def runSteps (s : Sa) (l : List Step) : Sa := l.foldl Step.run s

section Boxes

variable {d : Subn} {m : Mgid} {g : Mgrp}

lemma boxed_mgrpAddPort (hb : Boxed d) (hg : d.mgrpMgidTbl.get m = some g) (q : Join) :
    Boxed (mgrpAddPort d m g q) := by
  unfold mgrpAddPort
  dsimp only
  split
  · split
    all_goals exact boxed_setMgrp hb hg (countFull_frame _ _ _).1
  · exact boxed_setMgrp (hb.congr rfl rfl) hg (countFull_frame _ _ _).1

lemma boxed_mgrpRemovePort (hb : Boxed d) (hg : d.mgrpMgidTbl.get m = some g) (guid : Guid) (a : Alias)
    (leave : JoinState) : Boxed (mgrpRemovePort d m g guid a leave).1 := by
  have htbl := get_mgrpUpdateAlias d m g guid a (joinStateOf a &&& ~~~leave)
  have hget : (mgrpUpdateAlias d m g guid a (joinStateOf a &&& ~~~leave)).1.mgrpMgidTbl.get m = some g := by
    rw [htbl, hg]
  have hmlid := (mgrpUpdateAlias_touch hg guid a (joinStateOf a &&& ~~~leave)).2.1
  have hupd := (mgrpUpdateAlias_touch hg guid a (joinStateOf a &&& ~~~leave)).1.boxed hb
  unfold mgrpRemovePort
  dsimp only
  split_ifs
  · exact boxed_cleanup (boxed_setMgrp hupd hget hmlid) (get_setMgrp hget)
  · exact boxed_setMgrp hupd hget hmlid
  · exact boxed_setMgrp hupd hget hmlid

lemma boxed_deletePortLoop (port : Guid) (l : List Guid) (hb : Boxed d) : Boxed (deletePortLoop m port l d) := by
  induction l generalizing d with
  | nil => exact hb
  | cons guid l ih =>
    rw [deletePortLoop]
    cases hg : d.mgrpMgidTbl.get m with
    | none => exact hb
    | some g =>
      dsimp only
      cases g.mcmAliasPortTbl.get guid with
      | none => exact ih hb
      | some a =>
        dsimp only
        have hremove := boxed_mgrpRemovePort hb hg guid a 15
        split_ifs
        · exact hremove
        · exact ih hremove
        · exact ih hb

lemma cleanup_mgrpNew {mlid : ℕ} {r : MemberRec} (hb : Boxed d) (hg : d.mgrpMgidTbl.get r.mgid = none) :
    mgrpCleanup (mgrpNew d mlid r false) r.mgid ⟨mlid, r, false, 0, ∅, ∅⟩ = d := by
  have hno : r.mgid ∉ d.mboxes mlid := by
    have hcount := hb r.mgid mlid
    rw [hg] at hcount
    exact List.count_eq_zero.mp hcount
  have htbl : (d.mgrpMgidTbl.insert r.mgid ⟨mlid, r, false, 0, ∅, ∅⟩).remove r.mgid = d.mgrpMgidTbl := by
    apply Qmap.ext_get
    intro m
    rw [Qmap.get_remove, Qmap.get_insert]
    split_ifs with hm
    · rw [hm, hg]
    · rfl
  have hkeys : (∅ : Qmap Guid Unit).keys = [] := rfl
  have hlast : (d.mboxes mlid ++ [r.mgid]).erase r.mgid = d.mboxes mlid := by
    rw [List.erase_append_right _ hno, List.erase_cons_head, List.append_nil]
  simp [mgrpCleanup, mgrpNew, htbl, hlast, hkeys]

end Boxes

section Kept

variable {s s' : Sa} {m : Mgid} {g : Mgrp}

/-- The items of `mgrp_mgid_tbl`, which go by their MGIDs. -/
def itemsOf (d : Subn) (m : Mgid) : Option Mgid := (d.mgrpMgidTbl.get m).map fun _ => m

def Tracks (t : QMap Mgid Mgid) (d : Subn) : Prop := ∃ c, Holds t c ∧ Models t c (itemsOf d)

structure Kept (s : Sa) : Prop where
  boxed : Boxed s.subn
  tree : Tracks s.mgidMap s.subn

lemma itemsOf_some {d : Subn} {k a : Mgid} : itemsOf d k = some a ↔ k = a ∧ ∃ g, d.mgrpMgidTbl.get k = some g := by
  simp [itemsOf, Option.map_eq_some_iff, and_comm]

lemma itemsOf_none {d : Subn} {k : Mgid} (h : d.mgrpMgidTbl.get k = none) : itemsOf d k = none := by
  rw [itemsOf, h, Option.map_none]

lemma kept_init (uniq : ℕ) : Kept (Sa.init uniq) where
  boxed m i := by simp [Sa.init, Subn.init, Serves]
  tree := by
    refine ⟨.nil, holds_init _, fun k a => ?_⟩
    simp [itemsOf_some, Sa.init, Subn.init, toList]

lemma Tracks.insert {t : QMap Mgid Mgid} {d d' : Subn} (h : Tracks t d) (hfree : d.mgrpMgidTbl.get m = none)
    (hm : d'.mgrpMgidTbl.get m = some g) (he : ∀ k, k ≠ m → d'.mgrpMgidTbl.get k = d.mgrpMgidTbl.get k) :
    Tracks (mgidInsert t m) d' := by
  obtain ⟨c, hholds, hmodels⟩ := h
  have hmem : m ∉ c.toList := by
    intro hc
    obtain ⟨hk, g', hg'⟩ := itemsOf_some.mp ((hmodels _ _).mpr ⟨hc, rfl⟩)
    rw [hk, hfree] at hg'
    cases hg'
  obtain ⟨t', c', hins, hholds', hmodels'⟩ := insert_spec hholds hmodels hmem m
  have htree : mgidInsert t m = t' := by simp [mgidInsert, hins]
  have hitems : itemsOf d' = mapInsert (itemsOf d) m m := by
    funext k
    simp only [mapInsert, itemsOf_none hfree]
    by_cases hk : k = m
    · rw [hk, Function.update_self, itemsOf, hm, Option.map_some]
    · rw [Function.update_of_ne hk, itemsOf, itemsOf, he k hk]
  rw [htree]
  exact ⟨c', hholds', hitems ▸ hmodels'⟩

lemma Tracks.remove {t : QMap Mgid Mgid} {d d' : Subn} (h : Tracks t d) (hg : d.mgrpMgidTbl.get m = some g)
    (hm : d'.mgrpMgidTbl.get m = none) (he : ∀ k, k ≠ m → d'.mgrpMgidTbl.get k = d.mgrpMgidTbl.get k) :
    Tracks (mgidRemove t m) d' := by
  obtain ⟨c, hholds, hmodels⟩ := h
  have hmem : m ∈ c.toList := ((hmodels m m).mp (itemsOf_some.mpr ⟨rfl, g, hg⟩)).1
  obtain ⟨t', c', hrem, hholds', hmodels'⟩ := removeItem_spec hholds hmodels hmem
  have htree : mgidRemove t m = t' := by simp [mgidRemove, hrem]
  have hitems : itemsOf d' = mapRemoveItem (itemsOf d) m := by
    funext k
    rw [mapRemoveItem]
    by_cases hk : k = m
    · rw [if_pos (itemsOf_some.mpr ⟨hk, g, hk ▸ hg⟩), hk, itemsOf_none hm]
    · rw [if_neg fun hc => hk (itemsOf_some.mp hc).1, itemsOf, itemsOf, he k hk]
  rw [htree]
  exact ⟨c', hholds', hitems ▸ hmodels'⟩

lemma Tracks.stay {t : QMap Mgid Mgid} {d d' : Subn} (h : Tracks t d)
    (hstay : ∀ k, (d'.mgrpMgidTbl.get k).isSome = (d.mgrpMgidTbl.get k).isSome) : Tracks t d' := by
  have hitems : itemsOf d' = itemsOf d := by
    funext k
    have hk := hstay k
    rw [itemsOf, itemsOf]
    cases hd : d.mgrpMgidTbl.get k <;> cases hd' : d'.mgrpMgidTbl.get k <;> simp_all
  rwa [Tracks, hitems]

lemma Tracks.stay_at {t : QMap Mgid Mgid} {d d' : Subn} {g' : Mgrp} (h : Tracks t d)
    (hg : d.mgrpMgidTbl.get m = some g)
    (hg' : d'.mgrpMgidTbl.get m = some g') (he : ∀ k, k ≠ m → d'.mgrpMgidTbl.get k = d.mgrpMgidTbl.get k) :
    Tracks t d' := by
  refine h.stay fun k => ?_
  by_cases hk : k = m
  · rw [hk, hg, hg', Option.isSome_some, Option.isSome_some]
  · rw [he k hk]

lemma Kept.mgrpNew (h : Kept s) {mlid : ℕ} {r : MemberRec} (hg : s.subn.mgrpMgidTbl.get r.mgid = none) :
    Kept (osmMgrpNew s mlid r) where
  boxed := boxed_mgrpNew false h.boxed hg
  tree := h.tree.insert hg (get_mgrpNew false hg) (elsewhere_mgrpNew _ _ _ _).mgrp

lemma Kept.closing (h : Kept s) {d : Subn} (hg : s.subn.mgrpMgidTbl.get m = some g) (he : Elsewhere s.subn d m)
    (hb : Boxed d) : Kept (closing s m d) := by
  refine ⟨hb, ?_⟩
  simp only [McMember.closing]
  cases hm : d.mgrpMgidTbl.get m with
  | none =>
    rw [Option.isNone_none, if_pos rfl]
    exact h.tree.remove hg hm he.mgrp
  | some g' =>
    rw [Option.isNone_some, if_neg (by decide)]
    exact h.tree.stay_at hg hm he.mgrp

lemma Kept.cleanup (h : Kept s) (m : Mgid) : Kept (osmMgrpCleanup s m) := by
  rw [osmMgrpCleanup]
  cases hg : s.subn.mgrpMgidTbl.get m with
  | none => exact h
  | some g => exact h.closing hg (elsewhere_mgrpCleanup _ _ _) (boxed_cleanup h.boxed hg)

lemma Kept.setWellKnown (h : Kept s) (m : Mgid) (b : Bool) : Kept (setWellKnown s m b) := by
  have hget : ∀ k, (McMember.setWellKnown s m b).subn.mgrpMgidTbl.get k =
      (s.subn.mgrpMgidTbl.get k).map fun g => if k = m then { g with wellKnown := b } else g := by
    intro k
    simp only [McMember.setWellKnown, Qmap.get_modify]
    split_ifs with hk
    · rw [hk]
    · rw [Option.map_id']
  refine ⟨fun k i => ?_, h.tree.stay fun k => ?_⟩
  · have hserves : Serves i ((McMember.setWellKnown s m b).subn.mgrpMgidTbl.get k) ↔
        Serves i (s.subn.mgrpMgidTbl.get k) := by
      rw [hget, Serves, Serves, Option.map_map]
      refine iff_of_eq (congrArg (· = some i) (congrArg (fun f => Option.map f _) (funext fun g => ?_)))
      dsimp only [Function.comp_apply]
      split_ifs <;> rfl
    simp only [hserves]
    exact h.boxed k i
  · rw [hget, Option.isSome_map]

end Kept

section Refused

variable {env : Env} {mem : Mem} {s s' : Sa}

lemma buildNewMgid_free (d : Subn) (scope tries uniq : ℕ) {m : Mgid}
    (h : (buildNewMgid env d scope tries uniq).1 = some m) : d.mgrpMgidTbl.get m = none := by
  induction tries generalizing uniq with
  | zero => simp [buildNewMgid] at h
  | succ tries ih =>
    rw [buildNewMgid] at h
    cases hg : d.mgrpMgidTbl.get (newMgid env scope uniq) with
    | none =>
      rw [hg] at h
      obtain rfl := Option.some.inj h
      exact hg
    | some g =>
      rw [hg] at h
      exact ih _ h

lemma createMgid_free {comp : CompMask} {r r' : MemberRec} (hr : s.subn.mgrpMgidTbl.get r.mgid = none)
    (h : (createMgid env s comp r).1 = some r') : s.subn.mgrpMgidTbl.get r'.mgid = none := by
  unfold createMgid at h
  by_cases hzero : r.mgid = 0
  · rw [if_pos hzero] at h
    obtain ⟨m, hm, rfl⟩ := Option.map_eq_some_iff.mp h
    exact buildNewMgid_free _ _ _ _ hm
  · rw [if_neg hzero] at h
    -- a given MGID is taken as it is
    have hsame : r = r' := by
      split_ifs at h
      · cases hb : s.subn.mgrpMgidTbl.get (bcastMgid r.mgid) with
        | none => simp [hb] at h
        | some g =>
          simp only [hb] at h
          split_ifs at h
          exact Option.some.inj h
      · exact Option.some.inj h
      · exact Option.some.inj h
    rwa [← hsame]

lemma realizable_mgid {comp : CompMask} {r r' : MemberRec} {physp : Option Guid}
    (h : mgrpRequestIsRealizable env comp r physp = some r') : r'.mgid = r.mgid := by
  unfold mgrpRequestIsRealizable at h
  split at h
  · obtain rfl := Option.some.inj h
    rfl
  · cases h

lemma createNewMgrpMem_cases {comp : CompMask} {r : MemberRec} (physp : Option Guid)
    (hr : s.subn.mgrpMgidTbl.get r.mgid = none) :
    ∃ uniq, createNewMgrpMem env mem s comp r physp = ({ s with uniqCount := uniq }, none) ∨
      ∃ mlid r' m, r'.mgid = m ∧ s.subn.mgrpMgidTbl.get m = none ∧
        createNewMgrpMem env mem s comp r physp = (osmMgrpNew { s with uniqCount := uniq } mlid r', some m) := by
  refine ⟨(createMgid env s comp r).2, ?_⟩
  unfold createNewMgrpMem
  dsimp only
  cases hc : (createMgid env s comp r).1.bind fun r => mgrpRequestIsRealizable env comp r physp with
  | none => exact .inl rfl
  | some r'' =>
    obtain ⟨r', hr', hreal⟩ := Option.bind_eq_some_iff.mp hc
    have hfree := createMgid_free hr hr'
    rw [← realizable_mgid hreal] at hfree
    dsimp only
    split_ifs
    · exact .inl rfl
    · have hnew : ∀ s mlid r, osmMgrpNewMem mem s mlid r = none ∨
          osmMgrpNewMem mem s mlid r = some (osmMgrpNew s mlid r) := by
        intro s mlid r
        unfold osmMgrpNewMem
        split_ifs <;> simp
      rcases hnew _ _ _ with h | h
      · exact .inl (by rw [h])
      · refine .inr ⟨_, _, r''.mgid, ?_, hfree, by rw [h]⟩
        rfl

lemma Kept.createNewMgrpMem (h : Kept s) {comp : CompMask} {r : MemberRec} (physp : Option Guid)
    (hr : s.subn.mgrpMgidTbl.get r.mgid = none) : Kept (createNewMgrpMem env mem s comp r physp).1 := by
  have hcount : ∀ uniq, Kept { s with uniqCount := uniq } := fun _ => ⟨h.boxed, h.tree⟩
  obtain ⟨uniq, hc | ⟨mlid, r', m, rfl, hfree, hc⟩⟩ := @createNewMgrpMem_cases env mem s comp r physp hr
  · rw [hc]
    exact hcount uniq
  · rw [hc]
    exact (hcount uniq).mgrpNew hfree

lemma Kept.addPort (h : Kept s) {m : Mgid} {g : Mgrp} (hg : s.subn.mgrpMgidTbl.get m = some g) (j : Join) :
    Kept { s with subn := mgrpAddPort s.subn m g j } := by
  have hget : ∃ g', (mgrpAddPort s.subn m g j).mgrpMgidTbl.get m = some g' := by
    unfold mgrpAddPort
    dsimp only
    split
    · split
      all_goals exact ⟨_, get_setMgrp hg⟩
    · exact ⟨_, get_setMgrp (m := m) (g := g) hg⟩
  obtain ⟨g', hg'⟩ := hget
  exact ⟨boxed_mgrpAddPort h.boxed hg j, h.tree.stay_at hg hg' (elsewhere_mgrpAddPort _ _ _ _).mgrp⟩

def Mem.withResp (mem : Mem) (item mad send : Bool) : Mem :=
  { mem with respItem := item, respMad := mad, respSend := send }

/-- What a join comes to: it is refused and leaves the groups as they were, or it is carried out, and then only
the response depends on its allocations and on its send. -/
def Outcome (mem : Mem) (s : Sa) (join : Mem → Sa × Reply) : Prop :=
  (∃ s' reply, Kept s' ∧ s'.subn = s.subn ∧ reply ≠ .success ∧ join mem = (s', reply)) ∨
    ∃ s', Kept s' ∧ ∀ item mad send,
      join (mem.withResp item mad send) = (s', mcmrRcvRespond (mem.withResp item mad send))

lemma Outcome.refuse (h : Kept s) (hsubn : s.subn = s'.subn) {reply : Reply} (hr : reply ≠ .success) :
    Outcome mem s' fun _ => (s, reply) := .inl ⟨s, reply, h, hsubn, hr, rfl⟩

lemma Outcome.ite {c : Prop} [Decidable c] {a b : Mem → Sa × Reply} (ha : Outcome mem s a) (hb : Outcome mem s b) :
    Outcome mem s fun mem => if c then a mem else b mem := by
  split_ifs
  · exact ha
  · exact hb

lemma Outcome.congr {a b : Mem → Sa × Reply} (h : Outcome mem s a)
    (heq : ∀ item mad send, b (mem.withResp item mad send) = a (mem.withResp item mad send)) :
    Outcome mem s b := by
  refine h.imp ?_ ?_
  · rintro ⟨s', reply, hkept, hsubn, hr, ha⟩
    exact ⟨s', reply, hkept, hsubn, hr, (heq mem.respItem mem.respMad mem.respSend).trans ha⟩
  · rintro ⟨s', hkept, ha⟩
    exact ⟨s', hkept, fun item mad send => (heq item mad send).trans (ha item mad send)⟩

lemma joinGroupMem_outcome {q : McmReq} {r : MemberRec} {port : Guid} {proxy : Bool} {m : Mgid} (isNew : Bool)
    (h : Kept s') (hm : ∃ g, s'.subn.mgrpMgidTbl.get m = some g)
    (hback : (if isNew then osmMgrpCleanup s' m else s').subn = s.subn) :
    Outcome mem s fun mem => joinGroupMem env mem s' q r port proxy m isNew := by
  obtain ⟨g, hg⟩ := hm
  have hkept : Kept (if isNew then osmMgrpCleanup s' m else s') := by
    split_ifs
    · exact h.cleanup m
    · exact h
  have hrefuse : Outcome mem s fun _ => (if isNew then osmMgrpCleanup s' m else s', .error) :=
    .refuse hkept hback (by decide)
  unfold joinGroupMem
  simp only [hg]
  refine .ite hrefuse (.ite hrefuse ?_)
  by_cases hmodify : ¬isNew = true ∧ ¬validateModify env g r q.requester = true
  · simp only [if_pos hmodify]
    rw [if_neg hmodify.1] at hback
    exact .refuse h hback (by decide)
  · simp only [if_neg hmodify]
    by_cases hmem : mem.mcmPort = true ∧ mem.mcmAliasGuid = true
    · refine .inr ⟨_, h.addPort hg (joinOf r g.mcmemberRec port proxy), fun item mad send => ?_⟩
      exact if_neg (not_not.mpr hmem)
    · refine .inl ⟨_, .error, hkept, hback, by decide, ?_⟩
      exact if_pos hmem

lemma joinMgrpMem_outcome (h : Kept s) (q : McmReq) : Outcome mem s fun mem => joinMgrpMem env mem s q := by
  have herror : Outcome mem s fun _ => (s, .error) := .refuse h rfl (by decide)
  unfold joinMgrpMem
  refine .ite herror ?_
  cases env.portByAliasGuid (usePrefix env q.mcmr).portGid.interfaceId with
  | none => exact herror
  | some port =>
    cases hreq : q.requester with
    | none => exact .refuse h rfl (by decide)
    | some requester =>
      refine .ite herror (.ite herror ?_)
      cases hg : s.subn.mgrpMgidTbl.get (usePrefix env q.mcmr).mgid with
      | some g => exact .ite herror (joinGroupMem_outcome false h ⟨g, hg⟩ rfl)
      | none =>
        refine .ite herror (.ite herror ?_)
        -- nothing of the response is allocated before the group is there
        have hsame : ∀ item mad send r p, createNewMgrpMem env (mem.withResp item mad send) s q.compMask r p =
            createNewMgrpMem env mem s q.compMask r p := fun _ _ _ _ _ => rfl
        have hcount : ∀ uniq, Kept { s with uniqCount := uniq } := fun _ => ⟨h.boxed, h.tree⟩
        obtain ⟨uniq, hc⟩ := @createNewMgrpMem_cases env mem s q.compMask _ (some port) hg
        rcases hc with hc | ⟨mlid, r', m, rfl, hfree, hc⟩
        · have hnone : Outcome mem s fun _ => ({ s with uniqCount := uniq }, .error) :=
            .refuse (hcount uniq) rfl (by decide)
          refine hnone.congr fun item mad send => ?_
          simp only [hsame, hc]
        · have hself : (osmMgrpNew { s with uniqCount := uniq } mlid r').subn.mgrpMgidTbl.get r'.mgid =
              some ⟨mlid - lidMcastStartHo, r', false, 0, ∅, ∅⟩ := get_mgrpNew false hfree
          have hback : (osmMgrpCleanup (osmMgrpNew { s with uniqCount := uniq } mlid r')
              r'.mgid).subn = s.subn := by
            rw [osmMgrpCleanup, hself]
            exact cleanup_mgrpNew h.boxed hfree
          have hjoin : Outcome mem s fun mem => joinGroupMem env mem
              (osmMgrpNew { s with uniqCount := uniq } mlid r')
              q (usePrefix env q.mcmr) port (decide (port ≠ requester)) r'.mgid true :=
            joinGroupMem_outcome true ((hcount uniq).mgrpNew hfree) ⟨_, hself⟩ hback
          refine hjoin.congr fun item mad send => ?_
          simp only [hsame, hc]

end Refused

section Runs

variable {env : Env} {mem : Mem} {s : Sa}

lemma Outcome.kept {join : Mem → Sa × Reply} (h : Outcome mem s join) : Kept (join mem).1 := by
  rcases h with ⟨s', reply, hkept, -, -, hj⟩ | ⟨s', hkept, hj⟩
  · rw [hj]
    exact hkept
  · have hj := hj mem.respItem mem.respMad mem.respSend
    change join mem = _ at hj
    rw [hj]
    exact hkept

lemma Kept.leave (h : Kept s) (q : McmReq) : Kept (mcmrRcvLeaveMgrp env s q).1 := by
  unfold mcmrRcvLeaveMgrp
  dsimp only
  split_ifs
  · exact h
  cases hg : s.subn.mgrpMgidTbl.get (usePrefix env q.mcmr).mgid with
  | none => exact h
  | some g =>
    dsimp only
    cases g.mcmAliasPortTbl.get (usePrefix env q.mcmr).portGid.interfaceId with
    | none => exact h
    | some a =>
      dsimp only
      split_ifs
      · exact h.closing hg (elsewhere_mgrpRemovePort _ _ _ _ _ _) (boxed_mgrpRemovePort h.boxed hg _ _ _)
      · exact h

lemma Kept.run (h : Kept s) (st : Step) : Kept (st.run s) := by
  cases st with
  | join env q mem => exact (joinMgrpMem_outcome h q).kept
  | leave env q => exact h.leave q
  | addMcgroup env comp r mem =>
    unfold Step.run
    dsimp only
    cases hg : s.subn.mgrpMgidTbl.get r.mgid with
    | some g => exact h.setWellKnown r.mgid true
    | none =>
      have hnew := @Kept.createNewMgrpMem env mem s h comp r none hg
      dsimp only
      split
      · rename_i heq
        rwa [heq] at hnew
      · rename_i m heq
        rw [heq] at hnew
        exact hnew.setWellKnown m true
  | prtnDelete m => exact (h.setWellKnown m false).cleanup m
  | deletePort m port =>
    unfold Step.run
    dsimp only
    cases hg : s.subn.mgrpMgidTbl.get m with
    | none => exact h
    | some g => exact h.closing hg (elsewhere_deletePortLoop _ _ _ _) (boxed_deletePortLoop _ _ h.boxed)

def Reachable (s : Sa) : Prop := ∃ uniq l, s = runSteps (Sa.init uniq) l

lemma Reachable.kept (h : Reachable s) : Kept s := by
  obtain ⟨uniq, l, rfl⟩ := h
  have hrun : ∀ l s, Kept s → Kept (runSteps s l) := by
    intro l
    induction l with
    | nil => exact fun s hs => hs
    | cons st l ih => exact fun s hs => ih _ (hs.run st)
  exact hrun l _ (kept_init uniq)

/-- Two trees with the same items in the same order. -/
def SameItems (t t' : QMap Mgid Mgid) : Prop := ∃ c c', Holds t c ∧ Holds t' c' ∧ c.toList = c'.toList

lemma Tracks.sameItems {t t' : QMap Mgid Mgid} {d : Subn} (h : Tracks t d) (h' : Tracks t' d) :
    SameItems t t' := by
  obtain ⟨c, hholds, hmodels⟩ := h
  obtain ⟨c', hholds', hmodels'⟩ := h'
  have hsorted : ∀ {t : QMap Mgid Mgid} {c : ColorTree Mgid}, Holds t c → Models t c (itemsOf d) →
      c.toList.Pairwise (· < ·) ∧ ∀ a, a ∈ c.toList ↔ ∃ g, d.mgrpMgidTbl.get a = some g := by
    intro t c hholds hmodels
    have hkey : ∀ a ∈ c.toList, t.key (.item a) = a := fun a ha =>
      (itemsOf_some.mp ((hmodels _ a).mpr ⟨ha, rfl⟩)).1
    refine ⟨hholds.sorted.imp_of_mem fun {a b} ha hb hlt => ?_, fun a => ⟨fun ha => ?_, fun hg => ?_⟩⟩
    · rwa [hkey a ha, hkey b hb] at hlt
    · have hsome := (itemsOf_some.mp ((hmodels _ a).mpr ⟨ha, rfl⟩)).2
      rwa [hkey a ha] at hsome
    · exact ((hmodels a a).mp (itemsOf_some.mpr ⟨rfl, hg⟩)).1
  obtain ⟨hlt, hmem⟩ := hsorted hholds hmodels
  obtain ⟨hlt', hmem'⟩ := hsorted hholds' hmodels'
  have hperm : c.toList.Perm c'.toList :=
    (List.perm_ext_iff_of_nodup hlt.nodup hlt'.nodup).mpr fun a => (hmem a).trans (hmem' a).symm
  exact ⟨c, c', hholds, hholds', hperm.eq_of_pairwise (fun _ _ _ _ h h' => absurd h' h.not_gt) hlt hlt'⟩

def onePort : Env where
  subnetPrefix := defaultSubnetPrefix
  ipoibMcgroupCreationValidation := true
  mcgroupJoinValidation := true
  consolidateIpv6SnmReq := false
  maxRateEnum := saRateMaxEnum
  maxMcastLidHo := 0xC07F
  minCaMtu := 4
  minCaRate := 3
  portByAliasGuid guid := if guid = 1 then some 1 else none
  neighborMtu _ := 4
  portInfo _ := ⟨4, 2, 0x11, 0, false, false, false, false, false⟩
  hasPkey _ _ := true
  sharePkey _ _ := true
  ntoh32 x := x
  ntoh64 x := x
  mcastLid := by decide
  ntoh64_lt _ h := h
  ntoh64_ntoh64 _ _ := rfl

def makeGroup : McmReq where
  compMask c := c ∈ [.mgid, .portGid, .joinState, .qkey, .tclass, .pkey, .flow, .sl]
  mcmr :=
    ⟨0xFF12401BFFFF000000000000FFFFFFFF, ⟨defaultSubnetPrefix, 1⟩, 0x0B1B, 0, 0, 0, 0xFFFF, 0, 0, 0, ⟨2, 1⟩, false⟩
  requester := some 1
  fits := by constructor <;> decide

/-- A join that ends without a success response leaves the groups, the boxes and the lists of the ports as they
were, unless it was carried out and only its response could not be allocated or sent. -/
theorem join_refused (h : Reachable s) (env : Env) (mem : Mem) (q : McmReq)
    (hreply : (joinMgrpMem env mem s q).2 ≠ .success) :
    ((joinMgrpMem env mem s q).1.subn = s.subn ∧ SameItems s.mgidMap (joinMgrpMem env mem s q).1.mgidMap) ∨
      (mcmrRcvRespond mem ≠ .success ∧
        joinMgrpMem env (mem.withResp true true true) s q = ((joinMgrpMem env mem s q).1, .success)) := by
  rcases @joinMgrpMem_outcome env mem s h.kept q with ⟨s', reply, hkept, hsubn, -, hj⟩ | ⟨s', -, hj⟩
  · have hmem : joinMgrpMem env mem s q = (s', reply) := hj
    rw [hmem]
    exact .inl ⟨hsubn, h.kept.tree.sameItems (hsubn ▸ hkept.tree)⟩
  · have hmem : joinMgrpMem env mem s q = (s', mcmrRcvRespond mem) := hj mem.respItem mem.respMad mem.respSend
    rw [hmem] at hreply ⊢
    exact .inr ⟨hreply, hj true true true⟩

/-- The port is not in the partition of the group that it made. -/
theorem join_refused_pkey :
    (joinMgrpMem { onePort with hasPkey := fun _ _ => false } .all (Sa.init 0) makeGroup).2 ≠ .success ∧
      (((joinMgrpMem { onePort with hasPkey := fun _ _ => false } .all (Sa.init 0) makeGroup).1.subn = Subn.init ∧
          SameItems emptyMap
            (joinMgrpMem { onePort with hasPkey := fun _ _ => false } .all (Sa.init 0) makeGroup).1.mgidMap) ∨
        (mcmrRcvRespond .all ≠ .success ∧
          joinMgrpMem { onePort with hasPkey := fun _ _ => false } (Mem.all.withResp true true true)
              (Sa.init 0) makeGroup =
            ((joinMgrpMem { onePort with hasPkey := fun _ _ => false } .all (Sa.init 0) makeGroup).1,
                .success))) := by
  have hreply : (joinMgrpMem { onePort with hasPkey := fun _ _ => false } .all (Sa.init 0) makeGroup).2 ≠
      .success := by
    decide
  exact ⟨hreply, join_refused ⟨0, [], rfl⟩ _ _ _ hreply⟩

/-- The group is made and joined, and there is no memory for the response. -/
theorem unanswered_join : Reachable (Sa.init 0) ∧
    (joinMgrpMem onePort (Mem.all.withResp false true true) (Sa.init 0) makeGroup).2 ≠ .success ∧
    (joinMgrpMem onePort (Mem.all.withResp false true true) (Sa.init 0) makeGroup).1.subn ≠ (Sa.init 0).subn := by
  have hlist : (joinMgrpMem onePort (Mem.all.withResp false true true) (Sa.init 0) makeGroup).1.subn.mcmList 1 =
      [0xFF12401BFFFF000000000000FFFFFFFF] := by decide
  refine ⟨⟨0, [], rfl⟩, by decide, fun h => ?_⟩
  rw [h] at hlist
  cases hlist

end Runs

end OpenSM.McMember
