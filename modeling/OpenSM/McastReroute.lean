import OpenSM.McastProcess

/-! Which membership changes ask for their MLID to be routed again, and what the switches hold then. -/

namespace OpenSM.McastProcess

open Lib Lib.Runs Multicast McastTbl

def Serves (i : ℕ) (o : Option Mgrp) : Prop := o.map Mgrp.mlid = some i

instance (i : ℕ) (o : Option Mgrp) : Decidable (Serves i o) := inferInstanceAs (Decidable (_ = _))

def ServesPort (i : ℕ) (p : Guid) (o : Option Mgrp) : Prop := Serves i o ∧ p ∈ o.elim [] fun g => g.mcmPortTbl.keys

def Boxed (d : Subn) : Prop := ∀ m i, (d.mboxes i).count m = if Serves i (d.mgrpMgidTbl.get m) then 1 else 0

lemma serves_some {i : ℕ} {g : Mgrp} : Serves i (some g) ↔ g.mlid = i := by simp [Serves]

section Boxed

variable {d d' : Subn} {m : Mgid} {g g' : Mgrp}

lemma Boxed.congr (hb : Boxed d) (hbox : d'.mboxes = d.mboxes) (htbl : d'.mgrpMgidTbl = d.mgrpMgidTbl) :
    Boxed d' := by
  intro m i
  rw [hbox, htbl]
  exact hb m i

lemma Boxed.elsewhere (hb : Boxed d) (he : Elsewhere d d' m)
    (hm : ∀ i, (d'.mboxes i).count m = if Serves i (d'.mgrpMgidTbl.get m) then 1 else 0) : Boxed d' := by
  intro m' i
  by_cases hmm : m' = m
  · subst hmm
    exact hm i
  · rw [he.boxes m' hmm i, he.mgrp m' hmm]
    exact hb m' i

lemma boxed_setMgrp (hb : Boxed d) (hg : d.mgrpMgidTbl.get m = some g) (hmlid : g'.mlid = g.mlid) :
    Boxed (setMgrp d m g') := by
  refine hb.elsewhere (elsewhere_setMgrp d m g') fun i => ?_
  have hcount := hb m i
  simp only [hg, serves_some] at hcount
  simp only [get_setMgrp hg, serves_some, hmlid]
  exact hcount

lemma boxed_cleanup (hb : Boxed d) (hg : d.mgrpMgidTbl.get m = some g) : Boxed (mgrpCleanup d m g) := by
  have helse := elsewhere_mgrpCleanup d m g
  unfold mgrpCleanup at helse ⊢
  split_ifs with hfull hwk
  · exact hb
  · exact boxed_setMgrp (hb.congr rfl rfl) hg rfl
  · rw [if_neg hfull, if_neg hwk] at helse
    refine hb.elsewhere helse fun i => ?_
    have hcount := hb m i
    simp only [hg, serves_some] at hcount
    simp only [Qmap.get_remove, if_true]
    by_cases hi : i = g.mlid
    · subst hi
      simp [Serves, hcount]
    · simpa [Serves, hi, Ne.symm hi] using hcount

lemma get_mgrpNew {mlid : ℕ} {mcmr : MemberRec} (wk : Bool) (hg : d.mgrpMgidTbl.get mcmr.mgid = none) :
    (mgrpNew d mlid mcmr wk).mgrpMgidTbl.get mcmr.mgid = some ⟨mlid, mcmr, wk, 0, ∅, ∅⟩ := by
  simp [mgrpNew, Qmap.get_insert, hg]

lemma boxed_mgrpNew {mlid : ℕ} {mcmr : MemberRec} (wk : Bool) (hb : Boxed d)
    (hg : d.mgrpMgidTbl.get mcmr.mgid = none) : Boxed (mgrpNew d mlid mcmr wk) := by
  refine hb.elsewhere (elsewhere_mgrpNew d mlid mcmr wk) fun i => ?_
  have hcount := hb mcmr.mgid i
  simp only [hg, Serves, Option.map_none, reduceCtorEq, if_false] at hcount
  rw [get_mgrpNew wk hg]
  by_cases hi : i = mlid
  · subst hi
    simp [mgrpNew, Serves, List.count_append, hcount]
  · simp [mgrpNew, Serves, hi, Ne.symm hi, hcount]

end Boxed

structure Touch (d d' : Subn) (m : Mgid) : Prop where
  other : ∀ m', m' ≠ m → d'.mgrpMgidTbl.get m' = d.mgrpMgidTbl.get m'
  boxed : Boxed d → Boxed d'
  req : ∀ i, d.mlidsReq i = true → d'.mlidsReq i = true
  new : ∀ i, d'.mlidsReq i = true → d.mlidsReq i = true ∨ i ≤ d'.mlidsReqMax ∧ Serves i (d.mgrpMgidTbl.get m)
  max : d.mlidsReqMax ≤ d'.mlidsReqMax
  top : ∀ M, (∀ i, Serves i (d.mgrpMgidTbl.get m) → i ≤ M) → d.mlidsReqMax ≤ M → d'.mlidsReqMax ≤ M
  mlid : ∀ i, Serves i (d'.mgrpMgidTbl.get m) → Serves i (d.mgrpMgidTbl.get m)
  stays : ∀ i, d'.mlidsReq i = false → Serves i (d.mgrpMgidTbl.get m) → Serves i (d'.mgrpMgidTbl.get m)
  ports : ∀ i, d'.mlidsReq i = false → ∀ p,
    ServesPort i p (d'.mgrpMgidTbl.get m) ↔ ServesPort i p (d.mgrpMgidTbl.get m)

section Touch

variable {d d₁ d' : Subn} {m : Mgid} {g g' : Mgrp}

lemma Touch.refl (d : Subn) (m : Mgid) : Touch d d m where
  other _ _ := rfl
  boxed := id
  req _ := id
  new _ := .inl
  max := le_rfl
  top _ _ := id
  mlid _ := id
  stays _ _ := id
  ports _ _ _ := Iff.rfl

lemma Touch.quiet (h : Touch d d' m) {i : ℕ} (hi : d'.mlidsReq i = false) : d.mlidsReq i = false := by
  by_contra hne
  rw [h.req i (by simpa using hne)] at hi
  cases hi

lemma Touch.trans (h : Touch d d₁ m) (h' : Touch d₁ d' m) : Touch d d' m where
  other m' hm := (h'.other m' hm).trans (h.other m' hm)
  boxed hb := h'.boxed (h.boxed hb)
  req i hi := h'.req i (h.req i hi)
  new i hi := by
    rcases h'.new i hi with hi | ⟨hle, hs⟩
    · exact (h.new i hi).imp_right fun hi => ⟨hi.1.trans h'.max, hi.2⟩
    · exact .inr ⟨hle, h.mlid i hs⟩
  max := h.max.trans h'.max
  top M hm ht := h'.top M (fun i hi => hm i (h.mlid i hi)) (h.top M hm ht)
  mlid i hi := h.mlid i (h'.mlid i hi)
  stays i hi hs := h'.stays i hi (h.stays i (h'.quiet hi) hs)
  ports i hi p := (h'.ports i hi p).trans (h.ports i (h'.quiet hi) p)

lemma touch_mcmList (d : Subn) (m : Mgid) (f : Guid → List Mgid) : Touch d { d with mcmList := f } m where
  __ := Touch.refl d m

lemma touch_reroute (hg : d.mgrpMgidTbl.get m = some g) : Touch d (smRerouteMlid d g.mlid) m where
  other _ _ := rfl
  boxed := id
  req i hi := by
    by_cases hm : i = g.mlid <;> simp [smRerouteMlid, hm, hi]
  new i hi := by
    by_cases hm : i = g.mlid
    · subst hm
      refine .inr ⟨?_, hg ▸ serves_some.mpr rfl⟩
      simp only [smRerouteMlid]
      split_ifs <;> omega
    · exact .inl (by simpa [smRerouteMlid, hm] using hi)
  max := by
    simp only [smRerouteMlid]
    split_ifs <;> omega
  top M hm ht := by
    have hle := hm g.mlid (hg ▸ serves_some.mpr rfl)
    simp only [smRerouteMlid]
    split_ifs <;> omega
  mlid _ := id
  stays _ _ := id
  ports _ _ _ := Iff.rfl

lemma touch_setMgrp (hg : d.mgrpMgidTbl.get m = some g) (hmlid : g'.mlid = g.mlid)
    (hports : d.mlidsReq g.mlid = false → g'.mcmPortTbl = g.mcmPortTbl) : Touch d (setMgrp d m g') m where
  other m' hm := (elsewhere_setMgrp d m g').mgrp m' hm
  boxed hb := boxed_setMgrp hb hg hmlid
  req _ := id
  new _ := .inl
  max := le_rfl
  top _ _ := id
  mlid i hi := by
    rw [get_setMgrp hg, serves_some] at hi
    rw [hg, serves_some, ← hmlid, hi]
  stays i _ hi := by
    rw [hg, serves_some] at hi
    rw [get_setMgrp hg, serves_some, hmlid, hi]
  ports i hi p := by
    rw [hg, get_setMgrp hg]
    unfold ServesPort
    rw [serves_some, serves_some, hmlid]
    refine and_congr_right ?_
    rintro rfl
    rw [Option.elim_some, Option.elim_some, hports hi]

lemma touch_cleanup (hg : d.mgrpMgidTbl.get m = some g) (hreq : d.mlidsReq g.mlid = true) :
    Touch d (mgrpCleanup d m g) m := by
  have helse := elsewhere_mgrpCleanup d m g
  have hboxed := fun hb : Boxed d => boxed_cleanup hb hg
  unfold mgrpCleanup at helse hboxed ⊢
  split_ifs with hfull hwk
  · exact .refl d m
  · refine (touch_mcmList d m _).trans (touch_setMgrp hg rfl fun hi => ?_)
    rw [hreq] at hi
    cases hi
  · rw [if_neg hfull, if_neg hwk] at helse hboxed
    have hother : ∀ i, Serves i (some g) → d.mlidsReq i = true := fun i hi => serves_some.mp hi ▸ hreq
    refine {
      other := helse.mgrp
      boxed := hboxed
      req := fun _ => id
      new := fun _ => .inl
      max := le_rfl
      top := fun _ _ => id
      mlid := fun i hi => ?_
      stays := fun i hi hs => ?_
      ports := fun i hi p => ?_ }
    · simp [Serves, Qmap.get_remove] at hi
    · rw [hother i (hg ▸ hs)] at hi
      cases hi
    · refine iff_of_false (fun hp => ?_) fun hp => ?_
      · simp [ServesPort, Serves, Qmap.get_remove] at hp
      · rw [hother i (hg ▸ hp.1)] at hi
        cases hi

end Touch

section Ops

variable {d : Subn} {m : Mgid} {g : Mgrp}

lemma countFull_frame (g : Mgrp) (prev j : JoinState) :
    (countFull g prev j).mlid = g.mlid ∧ (countFull g prev j).mcmPortTbl = g.mcmPortTbl ∧
      (countFull g prev j).mcmAliasPortTbl = g.mcmAliasPortTbl := by
  rw [countFull_eq]
  exact ⟨rfl, rfl, rfl⟩

lemma mgrpAddPort_touch (hg : d.mgrpMgidTbl.get m = some g) (q : Join) : Touch d (mgrpAddPort d m g q) m := by
  unfold mgrpAddPort
  dsimp only
  split
  · split
    all_goals exact touch_setMgrp hg (countFull_frame _ _ _).1 fun _ => (countFull_frame _ _ _).2.1
  · have hlist : Touch d (smRerouteMlid
        { d with mcmList := Function.update d.mcmList q.port (d.mcmList q.port ++ [m]) } g.mlid) m :=
      (touch_mcmList d m _).trans (touch_reroute (g := g) hg)
    refine hlist.trans (touch_setMgrp (g := g) hg (countFull_frame _ _ _).1 fun hi => ?_)
    simp [smRerouteMlid] at hi

lemma mgrpUpdateAlias_touch (hg : d.mgrpMgidTbl.get m = some g) (guid : Guid) (a : Alias) (new : JoinState) :
    Touch d (mgrpUpdateAlias d m g guid a new).1 m ∧ (mgrpUpdateAlias d m g guid a new).2.mlid = g.mlid ∧
      ((mgrpUpdateAlias d m g guid a new).1.mlidsReq g.mlid = false →
        (mgrpUpdateAlias d m g guid a new).2.mcmPortTbl = g.mcmPortTbl) ∧
      (keepsEntry g (joinStateOf a) new = false → aliasLeft (g.mcmAliasPortTbl.remove guid) a.port = false →
        (mgrpUpdateAlias d m g guid a new).1.mlidsReq g.mlid = true) := by
  unfold mgrpUpdateAlias
  dsimp only
  split_ifs with hkeep hleft
  · exact ⟨.refl d m, rfl, fun _ => rfl, fun hk => by rw [hkeep] at hk; cases hk⟩
  · exact ⟨.refl d m, rfl, fun _ => rfl, fun _ hl => by rw [hleft] at hl; cases hl⟩
  · have hlist : Touch d (smRerouteMlid
        { d with mcmList := Function.update d.mcmList a.port ((d.mcmList a.port).erase m) } g.mlid) m :=
      (touch_mcmList d m _).trans (touch_reroute (g := g) hg)
    have hself : ∀ d : Subn, (smRerouteMlid d g.mlid).mlidsReq g.mlid = true := fun d => by simp [smRerouteMlid]
    refine ⟨hlist, rfl, fun hi => ?_, fun _ _ => hself _⟩
    rw [hself] at hi
    cases hi

lemma mgrpRemovePort_touch (hg : d.mgrpMgidTbl.get m = some g) (guid : Guid) (a : Alias) (leave : JoinState)
    (hreg : LeaveRerouted d g guid a leave) : Touch d (mgrpRemovePort d m g guid a leave).1 m := by
  obtain ⟨htouch, hmlid, hports, hdrop⟩ := mgrpUpdateAlias_touch hg guid a (joinStateOf a &&& ~~~leave)
  obtain ⟨hfull, -⟩ := mgrpUpdateAlias_frame d m g guid a (joinStateOf a &&& ~~~leave)
  have hget : (mgrpUpdateAlias d m g guid a (joinStateOf a &&& ~~~leave)).1.mgrpMgidTbl.get m = some g := by
    rw [get_mgrpUpdateAlias, hg]
  have hset : ∀ k, Touch d (setMgrp (mgrpUpdateAlias d m g guid a (joinStateOf a &&& ~~~leave)).1 m
      { (mgrpUpdateAlias d m g guid a (joinStateOf a &&& ~~~leave)).2 with fullMembers := k }) m :=
    fun k => htouch.trans (touch_setMgrp hget hmlid hports)
  unfold mgrpRemovePort
  dsimp only
  split_ifs with hdec hlast
  · refine (hset _).trans (touch_cleanup (get_setMgrp hget) ?_)
    rw [hfull] at hlast
    have hcl := hreg ⟨hdec.1, by simpa using hdec.2, by omega⟩
    simp only [hmlid]
    exact hcl.elim (htouch.req _) fun hcl => hdrop hcl.1 hcl.2
  · exact hset _
  · exact htouch.trans (touch_setMgrp hget hmlid hports)

end Ops

section Counted

variable {d : Subn} {m : Mgid} {g : Mgrp} {guid : Guid} {a : Alias}

/-- The full members of a group are counted, though some may be gone. -/
def Counted (g : Mgrp) : Prop := (g.mcmAliasPortTbl.countP fun a => isFull (joinStateOf a)) ≤ g.fullMembers

def AllCounted (d : Subn) : Prop := ∀ m g, d.mgrpMgidTbl.get m = some g → Counted g

lemma AllCounted.touch {d' : Subn} (h : AllCounted d) (ht : Touch d d' m)
    (hm : ∀ g, d'.mgrpMgidTbl.get m = some g → Counted g) : AllCounted d' := by
  intro m' g hg
  by_cases hmm : m' = m
  · exact hm g (hmm ▸ hg)
  · exact h m' g (ht.other m' hmm ▸ hg)

lemma countFull_counted {prev j : JoinState} {t : Qmap Guid Alias} {ports : Qmap Guid Unit} (h : Counted g)
    (ht : (t.countP fun a => isFull (joinStateOf a)) + (if isFull prev then 1 else 0) ≤
      (g.mcmAliasPortTbl.countP fun a => isFull (joinStateOf a)) + if isFull (prev ||| j) then 1 else 0) :
    Counted (countFull { g with mcmAliasPortTbl := t, mcmPortTbl := ports } prev j) := by
  rw [isFull_or] at ht
  unfold Counted at h ⊢
  rw [countFull_eq]
  simp only [joined]
  cases hp : isFull prev <;> cases hj : isFull j <;> simp_all <;> omega

lemma mgrpAddPort_counted (hg : d.mgrpMgidTbl.get m = some g) (h : Counted g) (q : Join) :
    ∀ g', (mgrpAddPort d m g q).mgrpMgidTbl.get m = some g' → Counted g' := by
  have hnew : ∀ ports, Counted (countFull { g with
      mcmAliasPortTbl := g.mcmAliasPortTbl.insert q.portGid.interfaceId (mcmAliasGuidNew q)
      mcmPortTbl := ports } 0 q.scopeState.state) := by
    intro ports
    refine countFull_counted h ?_
    have hzero : isFull 0 = false := rfl
    rw [isFull_or, hzero, Bool.false_or, if_neg (by simp), Nat.add_zero]
    cases ha : g.mcmAliasPortTbl.get q.portGid.interfaceId with
    | none => exact (Qmap.countP_insert (fun a => isFull (joinStateOf a)) ha).le
    | some a =>
      rw [Qmap.insert_of_get ha]
      exact Nat.le_add_right _ _
  intro g' hg'
  unfold mgrpAddPort at hg'
  dsimp only at hg'
  split at hg'
  · split at hg'
    · rename_i a ha
      rw [get_setMgrp hg] at hg'
      obtain rfl := Option.some.inj hg'
      exact countFull_counted h (Qmap.countP_modify (fun a => isFull (joinStateOf a)) _ ha).le
    · rw [get_setMgrp hg] at hg'
      obtain rfl := Option.some.inj hg'
      exact hnew _
  · rw [get_setMgrp (d := smRerouteMlid { d with mcmList := _ } g.mlid) hg] at hg'
    obtain rfl := Option.some.inj hg'
    exact hnew _

lemma get_mgrpCleanup (hg : d.mgrpMgidTbl.get m = some g) (hzero : g.fullMembers = 0) :
    ∀ g', (mgrpCleanup d m g).mgrpMgidTbl.get m = some g' → g'.mcmAliasPortTbl = ∅ := by
  intro g' hg'
  unfold mgrpCleanup at hg'
  rw [if_neg (not_not.mpr hzero)] at hg'
  dsimp only at hg'
  split_ifs at hg'
  · have hset : ∀ d₁ g₁, d₁.mgrpMgidTbl = d.mgrpMgidTbl → (setMgrp d₁ m g₁).mgrpMgidTbl.get m = some g₁ :=
      fun d₁ g₁ h => get_setMgrp (h ▸ hg)
    rw [hset] at hg'
    · obtain rfl := Option.some.inj hg'
      rfl
    · rfl
  · simp [Qmap.get_remove] at hg'

def afterLeave (d : Subn) (m : Mgid) (g : Mgrp) (guid : Guid) (a : Alias) (leave : JoinState) : Mgrp :=
  let new := joinStateOf a &&& ~~~leave
  let g' := (mgrpUpdateAlias d m g guid a new).2
  { g' with fullMembers := g'.fullMembers - if isFull (joinStateOf a) ∧ !isFull new then 1 else 0 }

lemma get_mgrpRemovePort (hg : d.mgrpMgidTbl.get m = some g) (guid : Guid) (a : Alias) (leave : JoinState) :
    ((mgrpRemovePort d m g guid a leave).2 = false →
      (mgrpRemovePort d m g guid a leave).1.mgrpMgidTbl.get m = some (afterLeave d m g guid a leave)) ∧
    ((mgrpRemovePort d m g guid a leave).2 = true → ∀ g',
      (mgrpRemovePort d m g guid a leave).1.mgrpMgidTbl.get m = some g' → g'.mcmAliasPortTbl = ∅) := by
  have hget : (mgrpUpdateAlias d m g guid a (joinStateOf a &&& ~~~leave)).1.mgrpMgidTbl.get m = some g := by
    rw [get_mgrpUpdateAlias, hg]
  unfold mgrpRemovePort afterLeave
  dsimp only
  split_ifs with hdec hlast
  · exact ⟨nofun, fun _ => get_mgrpCleanup (get_setMgrp hget) hlast⟩
  · exact ⟨fun _ => get_setMgrp hget, nofun⟩
  · exact ⟨fun _ => get_setMgrp hget, nofun⟩

lemma afterLeave_counted (h : Counted g) (ha : g.mcmAliasPortTbl.get guid = some a) (leave : JoinState) :
    Counted (afterLeave d m g guid a leave) := by
  obtain ⟨hfull, -⟩ := mgrpUpdateAlias_frame d m g guid a (joinStateOf a &&& ~~~leave)
  have hand := isFull_and_not (s := joinStateOf a) (j := leave)
  unfold Counted at h ⊢
  simp only [afterLeave, mgrpUpdateAlias_tbl, hfull]
  generalize joinStateOf a &&& ~~~leave = new at hand ⊢
  by_cases hkeep : keepsEntry g (joinStateOf a) new = true
  · have hcount := Qmap.countP_modify (fun a => isFull (joinStateOf a))
      (fun b => { b with scopeState := { b.scopeState with state := new } }) ha
    rw [if_pos hkeep]
    change _ + _ = _ + (if isFull new = true then 1 else 0) at hcount
    cases hs : isFull (joinStateOf a) <;> cases hn : isFull new <;> simp_all
    omega
  · have hcount := Qmap.countP_remove (fun a => isFull (joinStateOf a)) ha
    rw [if_neg hkeep]
    cases hs : isFull (joinStateOf a) <;> cases hn : isFull new <;> simp_all <;> omega

lemma mgrpRemovePort_counted (hg : d.mgrpMgidTbl.get m = some g) (h : Counted g)
    (ha : g.mcmAliasPortTbl.get guid = some a) (leave : JoinState) :
    ∀ g', (mgrpRemovePort d m g guid a leave).1.mgrpMgidTbl.get m = some g' → Counted g' := by
  obtain ⟨hopen, hclosed⟩ := get_mgrpRemovePort hg guid a leave
  intro g' hg'
  cases hdel : (mgrpRemovePort d m g guid a leave).2 with
  | false =>
    rw [hopen hdel] at hg'
    obtain rfl := Option.some.inj hg'
    exact afterLeave_counted h ha leave
  | true =>
    rw [Counted, hclosed hdel g' hg']
    exact Nat.zero_le _

end Counted

section DeletePort

variable {d : Subn} {m : Mgid} {g : Mgrp} {guid : Guid} {a : Alias} {port : Guid}

lemma and_not_all (s : JoinState) : s &&& ~~~15 = 0 := by
  revert s
  decide

lemma keepsEntry_zero (g : Mgrp) (s : JoinState) : keepsEntry g s 0 = false := by simp [keepsEntry]

lemma afterLeave_all (d : Subn) (m : Mgid) (g : Mgrp) (guid : Guid) (a : Alias) :
    (afterLeave d m g guid a 15).mcmAliasPortTbl = g.mcmAliasPortTbl.remove guid ∧
      (afterLeave d m g guid a 15).fullMembers = g.fullMembers - (if isFull (joinStateOf a) then 1 else 0) ∧
      (afterLeave d m g guid a 15).mlid = g.mlid := by
  obtain ⟨hfull, -⟩ := mgrpUpdateAlias_frame d m g guid a 0
  have hmlid : (mgrpUpdateAlias d m g guid a 0).2.mlid = g.mlid := by
    unfold mgrpUpdateAlias
    dsimp only
    split_ifs <;> rfl
  have hzero : isFull 0 = false := rfl
  unfold afterLeave
  dsimp only
  rw [and_not_all, hfull, hmlid, mgrpUpdateAlias_tbl, keepsEntry_zero, hzero]
  simp

lemma two_le_countP {t : Qmap Guid Alias} {k k' : Guid} {b b' : Alias} (p : Alias → Bool) (hne : k ≠ k')
    (hk : t.get k = some b) (hk' : t.get k' = some b') (hp : p b = true) (hp' : p b' = true) : 2 ≤ t.countP p := by
  have hcount := Qmap.countP_remove p hk
  have hpos : 0 < (t.remove k).countP p := by
    refine Qmap.countP_pos.mpr ⟨k', b', ?_, hp'⟩
    rw [Qmap.get_remove, if_neg hne.symm, hk']
  rw [if_pos hp] at hcount
  omega

lemma DeleteRerouted.leave (h : DeleteRerouted d g port) (hc : Counted g)
    (ha : g.mcmAliasPortTbl.get guid = some a)
    (hport : a.port = port)
    (hfirst : ∀ k b, g.mcmAliasPortTbl.get k = some b → b.port = port → guid ≤ k) :
    LeaveRerouted d g guid a 15 := by
  simp only [LeaveRerouted, and_not_all (joinStateOf a)]
  rintro ⟨hs, -, hone⟩
  refine or_iff_not_imp_left.mpr fun hreq => ⟨keepsEntry_zero g _, ?_⟩
  rcases h with h | h | h
  · exact absurd h hreq
  · have hpos : 0 < g.mcmAliasPortTbl.countP fun a => a.port = port && isFull (joinStateOf a) :=
      Qmap.countP_pos.mpr ⟨guid, a, ha, by simp [hport, hs]⟩
    omega
  · rw [← Bool.not_eq_true, aliasLeft_iff]
    rintro ⟨k, b, hk, hb⟩
    rw [Qmap.get_remove] at hk
    split_ifs at hk with hne
    have hb := hb.trans hport
    obtain ⟨k', b', hk', hle, -, hfull⟩ := h k b hk hb
    have hlt : guid < k' := (lt_of_le_of_ne (hfirst k b hk hb) (Ne.symm hne)).trans_le hle
    have htwo := two_le_countP (fun a => isFull (joinStateOf a)) hlt.ne ha hk' hs hfull
    have hle := hc.trans hone
    omega

lemma DeleteRerouted.next {d' : Subn} (h : DeleteRerouted d g port) (ht : Touch d d' m)
    (ha : g.mcmAliasPortTbl.get guid = some a) (hport : a.port = port)
    (hfirst : ∀ k b, g.mcmAliasPortTbl.get k = some b → b.port = port → guid ≤ k) :
    DeleteRerouted d' (afterLeave d m g guid a 15) port := by
  obtain ⟨htbl, hfull, hmlid⟩ := afterLeave_all d m g guid a
  unfold DeleteRerouted
  rw [htbl, hfull, hmlid]
  refine h.imp (ht.req _) (Or.imp (fun h => ?_) fun h k b hk hb => ?_)
  · have hcount := Qmap.countP_remove (fun a => a.port = port && isFull (joinStateOf a)) ha
    simp only [hport, decide_true, Bool.true_and] at hcount
    split_ifs at hcount ⊢ <;> omega
  · rw [Qmap.get_remove] at hk
    split_ifs at hk with hne
    obtain ⟨k', b', hk', hle, hb', hs⟩ := h k b hk hb
    have hlt : guid < k' := (lt_of_le_of_ne (hfirst k b hk hb) (Ne.symm hne)).trans_le hle
    exact ⟨k', b', by rw [Qmap.get_remove, if_neg hlt.ne', hk'], hle, hb', hs⟩

lemma deletePortLoop_touch (port : Guid) (l : List Guid) (hl : l.Pairwise (· < ·)) (hc : AllCounted d)
    (hreg : ∀ g, d.mgrpMgidTbl.get m = some g → DeleteRerouted d g port)
    (hall : ∀ g k b, d.mgrpMgidTbl.get m = some g → g.mcmAliasPortTbl.get k = some b → b.port = port → k ∈ l) :
    Touch d (deletePortLoop m port l d) m ∧ AllCounted (deletePortLoop m port l d) := by
  induction l generalizing d with
  | nil => exact ⟨.refl d m, hc⟩
  | cons guid l ih =>
    obtain ⟨hguid, hl⟩ := List.pairwise_cons.mp hl
    rw [deletePortLoop]
    cases hg : d.mgrpMgidTbl.get m with
    | none => exact ⟨.refl d m, hc⟩
    | some g =>
      have hrest : (∀ k b, g.mcmAliasPortTbl.get k = some b → b.port = port → k ≠ guid) →
          Touch d (deletePortLoop m port l d) m ∧ AllCounted (deletePortLoop m port l d) := by
        intro hne
        refine ih hl hc hreg fun g' k b hg' hk hb => ?_
        obtain rfl := Option.some.inj (hg.symm.trans hg')
        exact (List.mem_cons.mp (hall g k b hg hk hb)).resolve_left (hne k b hk hb)
      cases ha : g.mcmAliasPortTbl.get guid with
      | none =>
        simp only [ha]
        refine hrest ?_
        rintro k b hk - rfl
        rw [ha] at hk
        cases hk
      | some a =>
        simp only [ha]
        have hfirst : ∀ k b, g.mcmAliasPortTbl.get k = some b → b.port = port → guid ≤ k := by
          intro k b hk hb
          rcases List.mem_cons.mp (hall g k b hg hk hb) with rfl | hk
          · exact le_rfl
          · exact (hguid k hk).le
        split_ifs with hport hdel
        · have ht := mgrpRemovePort_touch hg guid a 15 ((hreg g hg).leave (hc m g hg) ha hport hfirst)
          exact ⟨ht, hc.touch ht (mgrpRemovePort_counted hg (hc m g hg) ha 15)⟩
        · have ht := mgrpRemovePort_touch hg guid a 15 ((hreg g hg).leave (hc m g hg) ha hport hfirst)
          have hget := (get_mgrpRemovePort hg guid a 15).1 (Bool.not_eq_true _ ▸ hdel)
          have hnext := ih hl (hc.touch ht (mgrpRemovePort_counted hg (hc m g hg) ha 15)) ?_ ?_
          · exact ⟨ht.trans hnext.1, hnext.2⟩
          · intro g' hg'
            obtain rfl := Option.some.inj (hget.symm.trans hg')
            exact (hreg g hg).next ht ha hport hfirst
          · intro g' k b hg' hk hb
            obtain rfl := Option.some.inj (hget.symm.trans hg')
            rw [(afterLeave_all d m g guid a).1, Qmap.get_remove] at hk
            split_ifs at hk with hne
            exact (List.mem_cons.mp (hall g k b hg hk hb)).resolve_left hne
        · refine hrest ?_
          rintro k b hk hb rfl
          obtain rfl := Option.some.inj (ha.symm.trans hk)
          exact hport hb

lemma mgrpDeletePort_touch (hg : d.mgrpMgidTbl.get m = some g) (hc : AllCounted d)
    (hreg : DeleteRerouted d g port) :
    Touch d (mgrpDeletePort d m g port) m ∧ AllCounted (mgrpDeletePort d m g port) := by
  refine deletePortLoop_touch port _ g.mcmAliasPortTbl.sorted_keys hc (fun g' hg' => ?_) fun g' k b hg' hk _ => ?_
  all_goals obtain rfl := Option.some.inj (hg.symm.trans hg')
  · exact hreg
  · exact Qmap.mem_keys.mpr ⟨b, hk⟩

end DeletePort

section Steps

variable {M : ℕ} {d d₁ d' : Subn} {m : Mgid}

structure Sound (M : ℕ) (d : Subn) : Prop where
  boxed : Boxed d
  mlid : ∀ m i, Serves i (d.mgrpMgidTbl.get m) → i ≤ M
  req : ∀ i, d.mlidsReq i = true → i ≤ d.mlidsReqMax
  top : d.mlidsReqMax ≤ M
  counted : AllCounted d

structure Change (d d' : Subn) : Prop where
  quiet : ∀ i, d'.mlidsReq i = false → d.mlidsReq i = false
  stays : ∀ i, d'.mlidsReq i = false → ∀ m, Serves i (d.mgrpMgidTbl.get m) → Serves i (d'.mgrpMgidTbl.get m)
  ports : ∀ i, d'.mlidsReq i = false → ∀ m p,
    ServesPort i p (d'.mgrpMgidTbl.get m) ↔ ServesPort i p (d.mgrpMgidTbl.get m)

lemma Change.trans (h : Change d d₁) (h' : Change d₁ d') : Change d d' where
  quiet i hi := h.quiet i (h'.quiet i hi)
  stays i hi m hs := h'.stays i hi m (h.stays i (h'.quiet i hi) m hs)
  ports i hi m p := (h'.ports i hi m p).trans (h.ports i (h'.quiet i hi) m p)

lemma Touch.change (h : Touch d d' m) : Change d d' where
  quiet _ hi := h.quiet hi
  stays i hi m' hs := by
    by_cases hm : m' = m
    · subst hm
      exact h.stays i hi hs
    · rwa [h.other m' hm]
  ports i hi m' p := by
    by_cases hm : m' = m
    · subst hm
      exact h.ports i hi p
    · rw [h.other m' hm]

lemma Sound.touch (hs : Sound M d) (h : Touch d d' m) (hc : AllCounted d') : Sound M d' where
  boxed := h.boxed hs.boxed
  mlid m' i hi := by
    by_cases hm : m' = m
    · subst hm
      exact hs.mlid m' i (h.mlid i hi)
    · exact hs.mlid m' i (h.other m' hm ▸ hi)
  req i hi := by
    rcases h.new i hi with hi | ⟨hle, hi⟩
    · exact (hs.req i hi).trans h.max
    · exact hle
  top := h.top M (hs.mlid m) hs.top
  counted := hc

lemma mgrpNew_change {mlid : ℕ} {mcmr : MemberRec} (wk : Bool) (hg : d.mgrpMgidTbl.get mcmr.mgid = none)
    (hs : Sound M d) (hM : mlid ≤ M) :
    Change d (mgrpNew d mlid mcmr wk) ∧ Sound M (mgrpNew d mlid mcmr wk) ∧
      (mgrpNew d mlid mcmr wk).mgrpMgidTbl.get mcmr.mgid = some ⟨mlid, mcmr, wk, 0, ∅, ∅⟩ := by
  have hself : (mgrpNew d mlid mcmr wk).mgrpMgidTbl.get mcmr.mgid = some ⟨mlid, mcmr, wk, 0, ∅, ∅⟩ :=
      get_mgrpNew wk hg
  have hother := (elsewhere_mgrpNew d mlid mcmr wk).mgrp
  refine ⟨⟨fun _ => id, fun i _ m hi => ?_, fun i _ m p => ?_⟩,
    ⟨boxed_mgrpNew wk hs.boxed hg, fun m i hi => ?_, hs.req, hs.top, fun m g' hg' => ?_⟩, hself⟩
  all_goals by_cases hm : m = mcmr.mgid
  · subst hm
    rw [hg] at hi
    cases hi
  · rwa [hother m hm]
  · subst hm
    rw [hself, hg]
    refine iff_of_false ?_ ?_
    · rintro ⟨-, h⟩
      cases h
    · rintro ⟨h, -⟩
      cases h
  · rw [hother m hm]
  · subst hm
    rw [hself, serves_some] at hi
    exact hi ▸ hM
  · exact hs.mlid m i (hother m hm ▸ hi)
  · subst hm
    obtain rfl := Option.some.inj (hself.symm.trans hg')
    exact le_rfl
  · exact hs.counted m g' (hother m hm ▸ hg')

lemma step_change {n : ℕ} {F : Fabric n} {o : Op} (hs : Sound F.maxMcastLid d) (ho : Allowed F o)
    (hreg : Rerouted d (.op o)) (h : Multicast.step F.owner d o = some d') :
    Change d d' ∧ Sound F.maxMcastLid d' := by
  cases o with
  | addMcgroup mlid mcmr =>
    simp only [Multicast.step] at h
    cases hg : d.mgrpMgidTbl.get mcmr.mgid with
    | some g => simp [hg] at h
    | none =>
      simp only [hg, Option.some.injEq] at h
      subst h
      obtain ⟨hchange, hsound, -⟩ := mgrpNew_change true hg hs ho
      exact ⟨hchange, hsound⟩
  | create mlid mcmr q =>
    simp only [Multicast.step] at h
    cases hg : d.mgrpMgidTbl.get mcmr.mgid with
    | some g => simp [hg] at h
    | none =>
      simp only [hg] at h
      split_ifs at h with hq
      obtain rfl := Option.some.inj h
      obtain ⟨hchange, hsound, hself⟩ := mgrpNew_change false hg hs ho
      have ht := mgrpAddPort_touch hself q
      have hc := mgrpAddPort_counted hself (hsound.counted _ _ hself) q
      exact ⟨hchange.trans ht.change, hsound.touch ht (hsound.counted.touch ht hc)⟩
  | join m q =>
    simp only [Multicast.step] at h
    cases hg : d.mgrpMgidTbl.get m with
    | none => simp [hg] at h
    | some g =>
      simp only [hg] at h
      split_ifs at h with hq
      obtain rfl := Option.some.inj h
      have ht := mgrpAddPort_touch hg q
      exact ⟨ht.change, hs.touch ht (hs.counted.touch ht (mgrpAddPort_counted hg (hs.counted m g hg) q))⟩
  | leave m guid leave =>
    simp only [Multicast.step] at h
    cases hg : d.mgrpMgidTbl.get m with
    | none => simp [hg] at h
    | some g =>
      simp only [hg] at h
      cases ha : g.mcmAliasPortTbl.get guid with
      | none => simp [ha] at h
      | some a =>
        simp only [ha] at h
        split_ifs at h with hv
        obtain rfl := Option.some.inj h
        have ht := mgrpRemovePort_touch hg guid a leave (hreg g a hg ha)
        have hc := mgrpRemovePort_counted hg (hs.counted m g hg) ha leave
        exact ⟨ht.change, hs.touch ht (hs.counted.touch ht hc)⟩
  | deletePort m port =>
    simp only [Multicast.step, Option.map_eq_some_iff] at h
    obtain ⟨g, hg, rfl⟩ := h
    obtain ⟨ht, hc⟩ := mgrpDeletePort_touch hg hs.counted (hreg g hg)
    exact ⟨ht.change, hs.touch ht hc⟩

lemma box_eq_nil (h : Boxed d) (i : ℕ) : d.mboxes i = [] ↔ ∀ m, ¬Serves i (d.mgrpMgidTbl.get m) := by
  refine ⟨fun hnil m hm => ?_, fun hno => List.eq_nil_iff_forall_not_mem.mpr fun m hm => ?_⟩
  · have hcount := h m i
    rw [hnil, if_pos hm] at hcount
    cases hcount
  · have hcount := h m i
    rw [if_neg (hno m)] at hcount
    exact List.count_eq_zero.mp hcount hm

lemma member_iff (h : Boxed d) (i : ℕ) (p : Guid) : Member d i p ↔ ∃ m, ServesPort i p (d.mgrpMgidTbl.get m) := by
  have hmem : ∀ m, m ∈ d.mboxes i ↔ Serves i (d.mgrpMgidTbl.get m) := by
    intro m
    have hcount := h m i
    rw [← List.count_pos_iff, hcount]
    split_ifs with hm <;> simp [hm]
  simp only [Member, ServesPort, hmem, groupPorts]

end Steps

section Runs

variable {n : ℕ} {F : Fabric n} {s s' : Watched n}

/-- What `osm_mcast_mgr_process` finds between two rounds. -/
structure Ready (F : Fabric n) (s : Sm n) : Prop where
  sound : Sound F.maxMcastLid s.subn
  blank : ∀ sw, Blank (s.sw sw).mcastTbl
  position : ∀ sw, (s.sw sw).mcastTbl.maxPosition = (McastTbl.init (F.numPorts sw) (F.capacity sw)).maxPosition
  synced : ∀ sw, (s.sw sw).mft = (s.sw sw).mcastTbl.maskTbl

/-- Between two rounds: the switches hold what the tables say, and an MLID that is not requested has its
members of the last round. -/
structure Inv (F : Fabric n) (s : Watched n) : Prop extends Ready F s.sm where
  members : ∀ i, s.sm.subn.mlidsReq i = false → ∀ p, Member s.sm.subn i p ↔ Member s.last i p
  unused : ∀ i, s.sm.subn.mlidsReq i = false → s.sm.subn.mboxes i = [] → ∀ sw pos, (s.sm.sw sw).mft i pos = 0

lemma init_inv (F : Fabric n) : Inv F (Watched.init F) where
  sound := ⟨fun _ _ => rfl, nofun, nofun, Nat.zero_le _, nofun⟩
  blank _ := init_blank _ _
  position _ := rfl
  synced _ := rfl
  members _ _ _ := Iff.rfl
  unused _ _ _ _ _ := rfl

lemma op_inv {o : Op} (hi : Inv F s) (hreg : Rerouted s.sm.subn (.op o)) (h : step F s (.op o) = some s') :
    Inv F s' := by
  simp only [step] at h
  split_ifs at h with ho
  obtain ⟨d, hd, rfl⟩ := Option.map_eq_some_iff.mp h
  obtain ⟨hchange, hsound⟩ := step_change hi.sound ho hreg hd
  refine { hi with sound := hsound, members := fun i hq p => ?_, unused := fun i hq hbox => ?_ }
  · rw [← hi.members i (hchange.quiet i hq) p, member_iff hsound.boxed, member_iff hi.sound.boxed]
    exact exists_congr fun m => hchange.ports i hq m p
  · refine hi.unused i (hchange.quiet i hq) ((box_eq_nil hi.sound.boxed i).mpr fun m hm => ?_)
    exact (box_eq_nil hsound.boxed i).mp hbox m (hchange.stays i hq m hm)

lemma process_eq (configAll : Bool) (hn : n ≠ 0) {s : Sm n} (h : Ready F s) :
    ∃ k s₂, (∀ i, s.subn.mlidsReq i = true → i < k) ∧
      Looped F configAll { s with sw := allocMfts F s.subn s.sw } s₂ k ∧
      process F configAll s = ⟨{ s₂.subn with mlidsReqMax := 0 }, setMftables s₂.sw⟩ := by
  have halloc := allocMfts_spec (F := F) (d := s.subn) h.blank
  have htables : Tables F s.subn (allocMfts F s.subn s.sw) :=
    ⟨fun sw => (halloc sw).1, fun sw => (halloc sw).2.2.1.trans (h.position sw), fun sw => (halloc sw).2.2.2.2.2⟩
  have htop := h.sound.top
  refine ⟨(if configAll then F.maxMcastLid else s.subn.mlidsReqMax) + 1, _, fun i hi => ?_,
    foldl_processStep htables _ ?_, by rw [process, if_neg hn]⟩
  · have hle := h.sound.req i hi
    split_ifs <;> omega
  · split_ifs <;> omega

lemma setMftables_synced {s s₂ : Sm n} {k : ℕ} {configAll : Bool} (h : Ready F s)
    (hl : Looped F configAll { s with sw := allocMfts F s.subn s.sw } s₂ k) (sw : Fin n) :
    (setMftables s₂.sw sw).mft = (s₂.sw sw).mcastTbl.maskTbl := by
  obtain ⟨-, -, hpos, hmft, huse, -⟩ := allocMfts_spec (F := F) (d := s.subn) h.blank sw
  funext i pos
  rw [(setMftables_eq s₂.sw sw i pos).2]
  split_ifs with hsent
  · rfl
  · -- Neither table has anything there: what is in use stays in use.
    rw [hl.mft sw, hmft, h.synced sw]
    have hposition : (s₂.sw sw).mcastTbl.maxPosition = (s.sw sw).mcastTbl.maxPosition :=
      (hl.tables.position sw).trans (h.position sw).symm
    have hinUse := huse ▸ hl.inUse sw
    by_cases hp : pos ≤ (s₂.sw sw).mcastTbl.maxPosition
    · have hi := not_le.mp fun hi => hsent ⟨hp, hi⟩
      rw [(h.blank sw).inUse i pos (hinUse.trans_lt hi), (hl.tables.blank sw).inUse i pos hi]
    · rw [(h.blank sw).position i pos (hposition ▸ not_le.mp hp),
          (hl.tables.blank sw).position i pos (not_le.mp hp)]

/-- A round of `osm_mcast_mgr_process`. -/
lemma process_spec (configAll : Bool) (hn : n ≠ 0) {s : Sm n} (h : Ready F s) :
    (process F configAll s).subn = { s.subn with mlidsReq := fun _ => false, mlidsReqMax := 0 } ∧
      Ready F (process F configAll s) ∧
      (∀ i, s.subn.mlidsReq i = true → ∀ sw, Routed F s.subn i sw ((process F configAll s).sw sw).mft) ∧
      ∀ i, s.subn.mboxes i = [] → s.subn.mlidsReq i = false → ∀ sw,
        ((process F configAll s).sw sw).mft i = (s.sw sw).mft i := by
  obtain ⟨k, s₂, hk, hl, heq⟩ := process_eq configAll hn h
  rw [heq]
  have htbl : ∀ sw, (setMftables s₂.sw sw).mcastTbl = (s₂.sw sw).mcastTbl := fun sw =>
    (setMftables_eq s₂.sw sw 0 0).1
  have hsync := setMftables_synced h hl
  have hsubn : { s₂.subn with mlidsReqMax := 0 } =
      { s.subn with mlidsReq := fun _ => false, mlidsReqMax := 0 } := by
    have hreq : (fun i => if i < k ∧ Due configAll s.subn i then false else s.subn.mlidsReq i) =
        fun _ => false := by
      funext i
      cases hi : s.subn.mlidsReq i with
      | false => exact ite_self _
      | true => exact if_pos ⟨hk i hi, .inl hi⟩
    simp only [hl.subn, hreq]
  refine ⟨hsubn, ⟨?_, fun sw => ?_, fun sw => ?_, fun sw => ?_⟩, fun i hi sw => ?_, fun i hbox hi sw => ?_⟩
  · rw [hsubn]
    exact ⟨h.sound.boxed, h.sound.mlid, nofun, Nat.zero_le _, h.sound.counted⟩
  · exact htbl sw ▸ hl.tables.blank sw
  · exact (congrArg Tbl.maxPosition (htbl sw)).trans (hl.tables.position sw)
  · rw [hsync, htbl]
  · rw [hsync]
    exact hl.routed sw i (hk i hi) (.inl hi)
  · have hdue : ¬(i < k ∧ Due configAll s.subn i) := by
      rintro ⟨-, hd | hd⟩
      · rw [hi] at hd
        cases hd
      · exact hd.2 hbox
    rw [hsync, hl.kept sw i hdue, (allocMfts_spec h.blank sw).2.1, h.synced]

lemma process_current (configAll : Bool) (hi : Inv F s) :
    Current F s.last (process F configAll s.sm) ∧
        Inv F ⟨process F configAll s.sm, (process F configAll s.sm).subn⟩ := by
  by_cases hn : n = 0
  · subst hn
    have hsame : process F configAll s.sm = s.sm := if_pos rfl
    rw [hsame]
    exact ⟨⟨fun _ _ sw => sw.elim0, fun _ _ _ sw => sw.elim0⟩,
      { hi with members := fun _ _ _ => Iff.rfl, unused := fun _ _ _ sw => sw.elim0 }⟩
  obtain ⟨hsubn, hready, hrouted, hkept⟩ := process_spec configAll hn hi.toReady
  have hunused : ∀ i, s.sm.subn.mboxes i = [] → ∀ sw pos, ((process F configAll s.sm).sw sw).mft i pos = 0 := by
    intro i hbox sw pos
    cases hq : s.sm.subn.mlidsReq i with
    | true => exact (hrouted i hq sw).unused hbox pos
    | false =>
      rw [hkept i hbox hq sw]
      exact hi.unused i hq hbox sw pos
  have hbox : ∀ i, (process F configAll s.sm).subn.mboxes i = s.sm.subn.mboxes i := fun i => by rw [hsubn]
  refine ⟨⟨fun i hb => hunused i (hbox i ▸ hb), fun i hne hb sw port => ?_⟩,
    { hready with members := fun _ _ _ => Iff.rfl, unused := fun i _ hb => hunused i (hbox i ▸ hb) }⟩
  cases hq : s.sm.subn.mlidsReq i with
  | true =>
    rw [hbox] at hb
    have htree := (hrouted i hq sw).tree hb port
    rw [hsubn]
    exact htree
  | false =>
    rw [hsubn] at hne
    exact absurd (hi.members i hq) hne

lemma step_inv {a : Act} (hi : Inv F s) (hreg : Rerouted s.sm.subn a) (h : step F s a = some s') : Inv F s' := by
  cases a with
  | op o => exact op_inv hi hreg h
  | process configAll =>
    obtain rfl := Option.some.inj h
    exact (process_current configAll hi).2

/-- In a run in which every closed group is rerouted, each round leaves the switches with the trees of the
groups there are. -/
theorem run_current {l : List (Watched n × Act)} (h : Run (step F) (Watched.init F) l s)
    (hl : ∀ x ∈ l, Rerouted x.1.sm.subn x.2) (configAll : Bool) (hs : step F s (.process configAll) = some s') :
    Current F s.last s'.sm := by
  have hi := h.invariant (q := fun s a => Rerouted s.sm.subn a) (init_inv F) (fun _ _ _ => step_inv) hl
  obtain rfl := Option.some.inj hs
  exact (process_current configAll hi).1

/-- One switch, with the port 5 (of the GUIDs 5 and 50) and the port 6 behind it. -/
def oneSwitch : Fabric 1 where
  numPorts _ := 3
  capacity _ := 64
  maxMcastLid := 0
  owner guid := if guid = 50 then 5 else guid
  buildStree _ l _ := if l.length < 2 then [] else [1, 2]
  stree_port _ l _ p hp := by
    split_ifs at hp
    · cases hp
    · simp at hp
      omega

def joinAs (guid port : Guid) (state : JoinState) : Join := ⟨⟨0, guid⟩, port, ⟨2, state⟩, false⟩

/-- A full member and another GUID make a tree, and then the full member leaves. -/
def fullLeaves (guid port : Guid) : List Act :=
  [.op (.create 0 sampleRec (joinAs 5 5 1)), .op (.join 7 (joinAs guid port 2)), .op (.join 7 (joinAs 6 6 2)),
    .process false, .op (.leave 7 5 1)]

theorem run_current_left :
    Current oneSwitch ((exec (step oneSwitch) (Watched.init oneSwitch) (fullLeaves 6 6)).getD
        (Watched.init oneSwitch)).last
      (process oneSwitch true
        ((exec (step oneSwitch) (Watched.init oneSwitch) (fullLeaves 6 6)).getD (Watched.init oneSwitch)).sm) := by
  refine run_current (Run.nil.append (fullLeaves 6 6) rfl) ?_ true rfl
  refine List.forall_mem_cons.mpr ⟨trivial, List.forall_mem_cons.mpr ⟨trivial, List.forall_mem_cons.mpr ⟨trivial,
    List.forall_mem_cons.mpr ⟨trivial, List.forall_mem_cons.mpr ⟨?_, nofun⟩⟩⟩⟩⟩
  intro g a hg ha
  obtain rfl := Option.some.inj hg
  obtain rfl := Option.some.inj ha
  exact fun _ => .inr ⟨by decide, by decide⟩

/-- The port of the full member has another GUID in the group: the group goes away, its routes stay. -/
theorem closed_not_current : ∃ l s s', Run (step oneSwitch) (Watched.init oneSwitch) l s ∧
    step oneSwitch s (.process true) = some s' ∧ s'.sm.subn.mboxes 0 = [] ∧ forwards (s'.sm.sw 0).mft 0 1 = true ∧
      ¬Current oneSwitch s.last s'.sm := by
  refine ⟨_, _, _, Run.nil.append (fullLeaves 50 5) rfl, rfl, by decide, by decide, fun h => ?_⟩
  have hzero := h.unused 0 (by decide) 0 0
  exact absurd hzero (by decide)

end Runs

end OpenSM.McastProcess
