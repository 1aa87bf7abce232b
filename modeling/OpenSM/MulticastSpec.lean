import OpenSM.Multicast

/-! The bookkeeping of group membership against the JoinStates recorded for each GUID. -/

namespace OpenSM.Multicast

open Lib Lib.Runs

abbrev Recorded := Qmap Guid JoinState

def settle (r : Recorded) : Recorded := if r.countP isFull = 0 then ∅ else r

def recordJoin (r : Recorded) (guid : Guid) (j : JoinState) : Recorded :=
  settle (match r.get guid with
    | some _ => r.modify guid (· ||| j)
    | none => r.insert guid j)

def recordLeave (r : Recorded) (guid : Guid) (j : JoinState) : Recorded :=
  match r.get guid with
  | none => r
  | some s => settle (if s &&& ~~~j = 0 then r.remove guid else r.modify guid fun _ => s &&& ~~~j)

def recordDrop (owner : Guid → Guid) (r : Recorded) (port : Guid) : Recorded :=
  settle (r.filter fun guid => owner guid ≠ port)

def record (owner : Guid → Guid) (r : Mgid → Recorded) : Op → Mgid → Recorded
  | .addMcgroup _ _ => r
  | .create _ mcmr q =>
    Function.update r mcmr.mgid (recordJoin (r mcmr.mgid) q.portGid.interfaceId q.scopeState.state)
  | .join m q => Function.update r m (recordJoin (r m) q.portGid.interfaceId q.scopeState.state)
  | .leave m guid leave => Function.update r m (recordLeave (r m) guid leave)
  | .deletePort m port => Function.update r m (recordDrop owner (r m) port)

variable (owner : Guid → Guid)

/-- Everything about the tables of a group that does not depend on the JoinStates. -/
structure Placed (d : Subn) (m : Mgid) (g : Mgrp) : Prop where
  owned : ∀ guid a, g.mcmAliasPortTbl.get guid = some a → a.port = owner guid
  ports : ∀ p, (g.mcmPortTbl.get p).isSome = aliasLeft g.mcmAliasPortTbl p
  mcmList : ∀ p, (d.mcmList p).count m = if aliasLeft g.mcmAliasPortTbl p then 1 else 0
  boxes : ∀ i, (d.mboxes i).count m = if i = g.mlid then 1 else 0

structure Members (d : Subn) (m : Mgid) (g : Mgrp) (r : Recorded) : Prop extends Placed owner d m g where
  fullMembers : g.fullMembers = g.mcmAliasPortTbl.countP fun a => isFull (joinStateOf a)
  recorded : g.mcmAliasPortTbl.map joinStateOf = r
  nonzero : ∀ guid, r.get guid ≠ some 0
  settled : settle r = r

structure Books (d : Subn) (m : Mgid) (g : Mgrp) (r : Recorded) : Prop extends Members owner d m g r where
  opened : g.wellKnown = false → 0 < g.fullMembers

structure Closed (d : Subn) (m : Mgid) (r : Recorded) : Prop where
  recorded : r = ∅
  mcmList : ∀ p, m ∉ d.mcmList p
  boxes : ∀ i, m ∉ d.mboxes i

def Kept (d : Subn) (m : Mgid) (r : Recorded) : Prop :=
  match d.mgrpMgidTbl.get m with
  | some g => Books owner d m g r
  | none => Closed d m r

/-- Not a leave that takes FULL but not SEND_ONLY_FULL from the only full member. -/
def RegularLeave (g : Mgrp) (s leave : JoinState) : Prop :=
  ¬(g.fullMembers = 1 ∧ s &&& joinFull ≠ 0 ∧ leave &&& joinFull ≠ 0 ∧ (s &&& ~~~leave) &&& joinSendOnlyFull ≠ 0)

/-- The condition on a step: a join without a full bit finds a full member, and leaves are regular. -/
def Regular (d : Subn) : Op → Prop
  | .join m q => isFull q.scopeState.state ∨ ∃ g, d.mgrpMgidTbl.get m = some g ∧ 0 < g.fullMembers
  | .leave m guid leave => ∀ g a, d.mgrpMgidTbl.get m = some g → g.mcmAliasPortTbl.get guid = some a →
      RegularLeave g (joinStateOf a) leave
  | _ => True

section JoinStates

lemma isFull_or (s j : JoinState) : isFull (s ||| j) = (isFull s || isFull j) := by
  revert s j
  decide

lemma isFull_of_and (s : JoinState) (h : s &&& joinFull ≠ 0) : isFull s = true := by
  revert s
  decide

lemma isFull_iff (s : JoinState) : isFull s = true ↔ s &&& joinFull ≠ 0 ∨ s &&& joinSendOnlyFull ≠ 0 := by
  revert s
  decide

lemma isFull_ne_zero {s : JoinState} (h : isFull s = true) : s ≠ 0 := by
  revert s
  decide

lemma and_joinFull_le (s : JoinState) : (s &&& joinFull).toNat ≤ 1 := by
  revert s
  decide

lemma isFull_and_not {s j : JoinState} (h : isFull (s &&& ~~~j) = true) : isFull s = true := by
  revert s j
  decide

lemma or_ne_zero {s : JoinState} (j : JoinState) (h : s ≠ 0) : s ||| j ≠ 0 := by
  revert s j
  decide

end JoinStates

section Settle

lemma settle_of_pos {r : Recorded} (h : 0 < r.countP isFull) : settle r = r := if_neg h.ne'

lemma settle_of_zero {r : Recorded} (h : r.countP isFull = 0) : settle r = ∅ := if_pos h

lemma countP_pos_of_settled {r : Recorded} (h : settle r = r) (hne : r ≠ ∅) : 0 < r.countP isFull := by
  by_contra hzero
  exact hne (h ▸ settle_of_zero (by omega))

lemma settle_settle (r : Recorded) : settle (settle r) = settle r := by
  unfold settle
  split_ifs <;> simp_all [Qmap.countP]

end Settle

section AliasLeft

lemma aliasLeft_iff {t : Qmap Guid Alias} {p : Guid} :
    aliasLeft t p = true ↔ ∃ guid a, t.get guid = some a ∧ a.port = p := by
  simp [aliasLeft, Qmap.countP_pos]

@[simp] lemma aliasLeft_empty (p : Guid) : aliasLeft ∅ p = false := rfl

lemma aliasLeft_insert {t : Qmap Guid Alias} {guid : Guid} (a : Alias) (p : Guid) (h : t.get guid = none) :
    aliasLeft (t.insert guid a) p = (aliasLeft t p || decide (a.port = p)) := by
  by_cases hp : a.port = p <;> simp [aliasLeft, Qmap.countP_insert _ h, hp]

lemma aliasLeft_modify {t : Qmap Guid Alias} (guid : Guid) {f : Alias → Alias} (hf : ∀ a, (f a).port = a.port)
    (p : Guid) : aliasLeft (t.modify guid f) p = aliasLeft t p := by
  cases h : t.get guid with
  | none =>
    have hmod : t.modify guid f = t := by
      refine Qmap.ext_get fun k => ?_
      rw [Qmap.get_modify]
      split_ifs with hk <;> simp_all
    rw [hmod]
  | some a =>
    have hcount := Qmap.countP_modify (fun a => decide (a.port = p)) f h
    rw [hf] at hcount
    simp only [aliasLeft]
    congr 1
    exact propext (by omega)

lemma aliasLeft_remove {t : Qmap Guid Alias} {guid : Guid} {a : Alias} (h : t.get guid = some a) {p : Guid}
    (hp : a.port ≠ p) : aliasLeft (t.remove guid) p = aliasLeft t p := by
  simp [aliasLeft, Qmap.countP_remove _ h, hp]

end AliasLeft

structure Elsewhere (d d' : Subn) (m : Mgid) : Prop where
  mgrp : ∀ m', m' ≠ m → d'.mgrpMgidTbl.get m' = d.mgrpMgidTbl.get m'
  mcmList : ∀ m', m' ≠ m → ∀ p, (d'.mcmList p).count m' = (d.mcmList p).count m'
  boxes : ∀ m', m' ≠ m → ∀ i, (d'.mboxes i).count m' = (d.mboxes i).count m'

lemma Elsewhere.refl (d : Subn) (m : Mgid) : Elsewhere d d m :=
  ⟨fun _ _ => rfl, fun _ _ _ => rfl, fun _ _ _ => rfl⟩

lemma Elsewhere.trans {d d₁ d₂ : Subn} {m : Mgid} (h : Elsewhere d d₁ m) (h' : Elsewhere d₁ d₂ m) :
    Elsewhere d d₂ m where
  mgrp m' hm := (h'.mgrp m' hm).trans (h.mgrp m' hm)
  mcmList m' hm p := (h'.mcmList m' hm p).trans (h.mcmList m' hm p)
  boxes m' hm i := (h'.boxes m' hm i).trans (h.boxes m' hm i)

lemma Kept.elsewhere {d d' : Subn} {m m' : Mgid} {r : Recorded} (h : Kept owner d m' r) (he : Elsewhere d d' m)
    (hm : m' ≠ m) : Kept owner d' m' r := by
  unfold Kept at h ⊢
  rw [he.mgrp m' hm]
  cases hg : d.mgrpMgidTbl.get m' with
  | none =>
    rw [hg] at h
    obtain ⟨h1, h2, h3⟩ := h
    refine ⟨h1, fun p => ?_, fun i => ?_⟩
    · rw [← List.count_eq_zero, he.mcmList m' hm, List.count_eq_zero]
      exact h2 p
    · rw [← List.count_eq_zero, he.boxes m' hm, List.count_eq_zero]
      exact h3 i
  | some g =>
    rw [hg] at h
    exact { h with
      mcmList := fun p => (he.mcmList m' hm p).trans (h.mcmList p)
      boxes := fun i => (he.boxes m' hm i).trans (h.boxes i) }

section SetMgrp

variable {d : Subn} {m : Mgid} {g g' : Mgrp}

lemma get_setMgrp (h : d.mgrpMgidTbl.get m = some g) : (setMgrp d m g').mgrpMgidTbl.get m = some g' := by
  simp [setMgrp, Qmap.get_modify, h]

lemma elsewhere_setMgrp (d : Subn) (m : Mgid) (g : Mgrp) : Elsewhere d (setMgrp d m g) m where
  mgrp m' hm := by simp [setMgrp, Qmap.get_modify, hm]
  mcmList _ _ _ := rfl
  boxes _ _ _ := rfl

lemma elsewhere_mcmList (d : Subn) (m : Mgid) {f : Guid → List Mgid}
    (h : ∀ m', m' ≠ m → ∀ p, (f p).count m' = (d.mcmList p).count m') : Elsewhere d { d with mcmList := f } m where
  mgrp _ _ := rfl
  mcmList := h
  boxes _ _ _ := rfl

lemma elsewhere_reroute (d : Subn) (m : Mgid) (mlid : ℕ) : Elsewhere d (smRerouteMlid d mlid) m :=
  ⟨fun _ _ => rfl, fun _ _ _ => rfl, fun _ _ _ => rfl⟩

lemma count_update {β : Type*} [DecidableEq β] {f : ℕ → List β} {i : ℕ} {l : List β} {x : β}
    (h : l.count x = (f i).count x) (j : ℕ) : (Function.update f i l j).count x = (f j).count x := by
  by_cases hj : j = i
  · subst hj
    simpa using h
  · simp [hj]

end SetMgrp

section Cleanup

variable {owner} {d : Subn} {m : Mgid} {g g₀ : Mgrp}

lemma elsewhere_mgrpCleanup (d : Subn) (m : Mgid) (g : Mgrp) : Elsewhere d (mgrpCleanup d m g) m := by
  unfold mgrpCleanup
  split_ifs
  · exact .refl d m
  all_goals
    have hlist : Elsewhere d { d with
        mcmList := fun p => if p ∈ g.mcmPortTbl.keys then (d.mcmList p).erase m else d.mcmList p } m := by
      refine elsewhere_mcmList d m fun m' hm p => ?_
      split_ifs
      · exact List.count_erase_of_ne hm
      · rfl
    refine hlist.trans ?_
  · exact elsewhere_setMgrp _ m _
  · refine ⟨fun m' hm => ?_, fun _ _ _ => rfl, fun m' hm i => ?_⟩
    · rw [Qmap.get_remove, if_neg hm]
    · exact count_update (List.count_erase_of_ne hm) i

lemma count_cleaned (h : Placed owner d m g) (p : Guid) :
    (if p ∈ g.mcmPortTbl.keys then (d.mcmList p).erase m else d.mcmList p).count m = 0 := by
  have hcount := h.mcmList p
  have hport := h.ports p
  split_ifs with hp
  · obtain ⟨v, hv⟩ := Qmap.mem_keys.mp hp
    rw [hv, Option.isSome_some] at hport
    rw [List.count_erase_self, hcount, ← hport]
    simp
  · have hnone : g.mcmPortTbl.get p = none := by
      by_contra hne
      exact hp (Qmap.mem_keys.mpr (Option.ne_none_iff_exists'.mp hne))
    rw [hnone, Option.isSome_none] at hport
    simp [hcount, ← hport]

lemma kept_of_books {r : Recorded} (hg : d.mgrpMgidTbl.get m = some g) (h : Books owner d m g r) :
    Kept owner d m r := by
  unfold Kept
  rw [hg]
  exact h

lemma Kept.books {r : Recorded} (h : Kept owner d m r) (hg : d.mgrpMgidTbl.get m = some g) :
    Books owner d m g r := by
  unfold Kept at h
  rwa [hg] at h

lemma Kept.closed {r : Recorded} (h : Kept owner d m r) (hg : d.mgrpMgidTbl.get m = none) : Closed d m r := by
  unfold Kept at h
  rwa [hg] at h

lemma mgrpCleanup_kept (hg : d.mgrpMgidTbl.get m = some g) (h : Placed owner d m g) (hzero : g.fullMembers = 0) :
    Kept owner (mgrpCleanup d m g) m ∅ := by
  have hlist := count_cleaned h
  unfold mgrpCleanup
  rw [if_neg (by simpa using hzero)]
  split_ifs with hwk
  · refine kept_of_books (get_setMgrp (d := { d with mcmList := _ }) hg) ?_
    exact {
      owned := nofun
      ports := fun _ => rfl
      mcmList := fun p => hlist p
      boxes := h.boxes
      fullMembers := hzero
      recorded := rfl
      nonzero := nofun
      settled := rfl
      opened := fun hopen => absurd (hwk.symm.trans hopen) (by simp) }
  · unfold Kept
    simp only [Qmap.get_remove, if_true]
    refine ⟨rfl, fun p => List.count_eq_zero.mp (hlist p), fun i => List.count_eq_zero.mp ?_⟩
    have hbox := h.boxes i
    by_cases hi : i = g.mlid
    · subst hi
      rw [if_pos rfl] at hbox
      simp [hbox]
    · simpa [hi] using hbox

end Cleanup

section AddPort

variable {owner} {d : Subn} {m : Mgid} {g : Mgrp} {r : Recorded} {q : Join}

def joined (g : Mgrp) (prev j : JoinState) : ℕ :=
  if isFull j ∧ !isFull prev then g.fullMembers + 1 else g.fullMembers

lemma settle_joined {r r' : Recorded} {prev j : JoinState} (hr : g.fullMembers = r.countP isFull)
    (hr' : r'.countP isFull + (if isFull prev then 1 else 0) = r.countP
    isFull + if isFull (prev ||| j) then 1 else 0)
    (hj : 0 < g.fullMembers ∨ isFull j = true ∧ isFull prev = false) :
    joined g prev j = r'.countP isFull ∧ 0 < joined g prev j ∧ settle r' = r' := by
  have hcount : joined g prev j = r'.countP isFull := by
    rw [isFull_or] at hr'
    unfold joined
    cases hp : isFull prev <;> cases hq : isFull j <;> simp_all
  have hpos : 0 < joined g prev j := by
    unfold joined
    rcases hj with hj | ⟨hj, hp⟩
    · split_ifs <;> omega
    · simp [hj, hp]
  exact ⟨hcount, hpos, settle_of_pos (hcount ▸ hpos)⟩

lemma Members.count_eq (h : Members owner d m g r) : g.fullMembers = r.countP isFull := by
  rw [h.fullMembers, ← h.recorded, Qmap.countP_map]

lemma Members.get_eq (h : Members owner d m g r) (guid : Guid) :
    r.get guid = (g.mcmAliasPortTbl.get guid).map joinStateOf := by
  rw [← h.recorded, Qmap.get_map]

lemma Members.pos_of_get (h : Members owner d m g r) {guid : Guid} {a : Alias}
    (ha : g.mcmAliasPortTbl.get guid = some a) : 0 < g.fullMembers := by
  rw [h.count_eq]
  refine countP_pos_of_settled h.settled ?_
  rintro rfl
  have hnone := h.get_eq guid
  simp [ha] at hnone

lemma joined_books {d' : Subn} {g' : Mgrp} {r' : Recorded} (prev : JoinState) (h : Members owner d m g r)
    (hp : Placed owner d' m g') (hrec : g'.mcmAliasPortTbl.map joinStateOf = r')
    (hfull : g'.fullMembers = joined g prev q.scopeState.state)
    (hcount : r'.countP isFull + (if isFull prev then 1 else 0) =
      r.countP isFull + if isFull (prev ||| q.scopeState.state) then 1 else 0)
    (hj : 0 < g.fullMembers ∨ isFull q.scopeState.state = true ∧ isFull prev = false)
    (hnz : ∀ guid, r'.get guid ≠ some 0) : Books owner d' m g' (settle r') := by
  obtain ⟨heq, hpos, hsettle⟩ := settle_joined h.count_eq hcount hj
  rw [hsettle]
  refine { hp with
    fullMembers := ?_
    recorded := hrec
    nonzero := hnz
    settled := hsettle
    opened := fun _ => hfull ▸ hpos }
  rw [hfull, heq, ← hrec, Qmap.countP_map]

lemma elsewhere_mgrpAddPort (d : Subn) (m : Mgid) (g : Mgrp) (q : Join) : Elsewhere d (mgrpAddPort d m g q) m := by
  unfold mgrpAddPort
  dsimp only
  split
  · split <;> exact elsewhere_setMgrp d m _
  · have hlist : Elsewhere d
        { d with mcmList := Function.update d.mcmList q.port (d.mcmList q.port ++ [m]) } m := by
      refine elsewhere_mcmList d m fun m' hm p => count_update ?_ p
      simp [List.count_append, hm.symm]
    exact (hlist.trans (elsewhere_reroute _ m g.mlid)).trans (elsewhere_setMgrp _ m _)

lemma countFull_eq (g : Mgrp) (prev j : JoinState) :
    countFull g prev j = { g with fullMembers := joined g prev j } := by
  unfold joined countFull
  split_ifs <;> rfl

/-- The join of a GUID that is a member already. -/
lemma rejoin_books (hg : d.mgrpMgidTbl.get m = some g) (h : Members owner d m g r) {a : Alias}
    (ha : g.mcmAliasPortTbl.get q.portGid.interfaceId = some a) :
    Kept owner (setMgrp d m { g with
        mcmAliasPortTbl := g.mcmAliasPortTbl.modify q.portGid.interfaceId fun a =>
          { a with scopeState := extend a.scopeState q.scopeState }
        fullMembers := joined g (joinStateOf a) q.scopeState.state }) m
      (settle (r.modify q.portGid.interfaceId (· ||| q.scopeState.state))) := by
  have hra : r.get q.portGid.interfaceId = some (joinStateOf a) := by rw [h.get_eq, ha, Option.map_some]
  have hleft : ∀ p, aliasLeft (g.mcmAliasPortTbl.modify q.portGid.interfaceId fun a =>
      { a with scopeState := extend a.scopeState q.scopeState }) p = aliasLeft g.mcmAliasPortTbl p :=
    aliasLeft_modify _ fun _ => rfl
  apply kept_of_books (get_setMgrp hg)
  refine joined_books (joinStateOf a) (q := q) h ⟨?_, ?_, ?_, h.boxes⟩ ?_ rfl ?_ ?_ ?_
  · intro guid b hb
    rw [Qmap.get_modify] at hb
    split_ifs at hb with hguid
    · obtain ⟨b₀, hb₀, rfl⟩ := Option.map_eq_some_iff.mp hb
      exact h.owned guid b₀ (hguid ▸ hb₀)
    · exact h.owned guid b hb
  · intro p
    rw [hleft]
    exact h.ports p
  · intro p
    rw [hleft]
    exact h.mcmList p
  · rw [Qmap.map_modify joinStateOf _ _ _ (· ||| q.scopeState.state) fun _ => rfl, h.recorded]
  · exact Qmap.countP_modify isFull _ hra
  · exact .inl (h.pos_of_get ha)
  · intro guid hz
    rw [Qmap.get_modify] at hz
    split_ifs at hz
    · rw [hra, Option.map_some, Option.some.injEq] at hz
      exact or_ne_zero q.scopeState.state
          (fun hzero => h.nonzero q.portGid.interfaceId (hra.trans (by rw [hzero]))) hz
    · exact h.nonzero guid hz

/-- The join of a GUID that is not a member, on tables that have its port. -/
lemma newcomer_books {d' : Subn} {t : Qmap Guid Unit} (h : Members owner d m g r) (hq : q.Valid owner)
    (hj : isFull q.scopeState.state = true ∨ 0 < g.fullMembers)
    (ha : g.mcmAliasPortTbl.get q.portGid.interfaceId = none)
    (ht : ∀ p, (t.get p).isSome = (aliasLeft g.mcmAliasPortTbl p || decide (q.port = p)))
    (hl : ∀ p, (d'.mcmList p).count m = if aliasLeft g.mcmAliasPortTbl p || decide (q.port = p) then 1 else 0)
    (hb : d'.mboxes = d.mboxes) :
    Books owner d' m { g with
        mcmPortTbl := t
        mcmAliasPortTbl := g.mcmAliasPortTbl.insert q.portGid.interfaceId (mcmAliasGuidNew q)
        fullMembers := joined g 0 q.scopeState.state }
      (settle (r.insert q.portGid.interfaceId q.scopeState.state)) := by
  have hra : r.get q.portGid.interfaceId = none := by rw [h.get_eq, ha, Option.map_none]
  have hleft : ∀ p, aliasLeft (g.mcmAliasPortTbl.insert q.portGid.interfaceId (mcmAliasGuidNew q)) p =
      (aliasLeft g.mcmAliasPortTbl p || decide (q.port = p)) := fun p => aliasLeft_insert _ p ha
  refine joined_books 0 (q := q) h ⟨?_, ?_, ?_, ?_⟩ ?_ rfl ?_ ?_ ?_
  · intro guid b hb
    rw [Qmap.get_insert, ha] at hb
    split_ifs at hb with hguid
    · obtain rfl := Option.some.inj hb
      rw [hguid]
      exact hq.1
    · exact h.owned guid b hb
  · exact fun p => (ht p).trans (hleft p).symm
  · intro p
    rw [hleft]
    exact hl p
  · rw [hb]
    exact h.boxes
  · rw [Qmap.map_insert, h.recorded]
    rfl
  · rw [Qmap.countP_insert isFull hra, isFull_or]
    rfl
  · exact hj.symm.imp_right fun hfull => ⟨hfull, rfl⟩
  · intro guid hz
    rw [Qmap.get_insert, hra] at hz
    split_ifs at hz
    · exact hq.2 (Option.some.inj hz)
    · exact h.nonzero guid hz

lemma mgrpAddPort_kept (hg : d.mgrpMgidTbl.get m = some g) (h : Members owner d m g r) (hq : q.Valid owner)
    (hj : isFull q.scopeState.state = true ∨ 0 < g.fullMembers) :
    Kept owner (mgrpAddPort d m g q) m (recordJoin r q.portGid.interfaceId q.scopeState.state) := by
  have hport : ∀ a, g.mcmAliasPortTbl.get q.portGid.interfaceId = some a →
      aliasLeft g.mcmAliasPortTbl q.port = true :=
    fun a ha => aliasLeft_iff.mpr ⟨_, a, ha, (h.owned _ a ha).trans hq.1.symm⟩
  unfold mgrpAddPort recordJoin
  dsimp only
  rw [h.get_eq]
  have hports := h.ports q.port
  cases ht : g.mcmPortTbl.get q.port with
  | some u =>
    rw [ht, Option.isSome_some] at hports
    cases ha : g.mcmAliasPortTbl.get q.portGid.interfaceId with
    | some a =>
      simp only [countFull_eq]
      exact rejoin_books hg h ha
    | none =>
      simp only [countFull_eq]
      have hpresent : ∀ p, (aliasLeft g.mcmAliasPortTbl p || decide (q.port = p)) = aliasLeft
          g.mcmAliasPortTbl p := by
        intro p
        by_cases hp : q.port = p
        · rw [← hp, ← hports, Bool.true_or]
        · rw [decide_eq_false hp, Bool.or_false]
      refine kept_of_books (get_setMgrp hg) (newcomer_books h hq hj ha ?_ ?_ rfl)
      · intro p
        rw [hpresent]
        exact h.ports p
      · intro p
        rw [hpresent]
        exact h.mcmList p
  | none =>
    rw [ht, Option.isSome_none] at hports
    cases ha : g.mcmAliasPortTbl.get q.portGid.interfaceId with
    | some a => simp [hport a ha] at hports
    | none =>
      simp only [countFull_eq]
      refine kept_of_books (get_setMgrp (g := g) ?_) (newcomer_books h hq hj ha ?_ ?_ rfl)
      · exact hg
      · intro p
        rw [Qmap.get_insert, ht]
        split_ifs with hp
        · simp [hp]
        · rw [h.ports, decide_eq_false (Ne.symm hp), Bool.or_false]
      · intro p
        have hlist := h.mcmList p
        by_cases hp : q.port = p
        · subst hp
          simp only [← hports, Bool.false_eq_true, if_false] at hlist
          simp [setMgrp, smRerouteMlid, hlist]
        · simp [setMgrp, smRerouteMlid, hp, Ne.symm hp, hlist]

lemma mgrpAddPort_not_kept (hg : d.mgrpMgidTbl.get m = some g) (h : Members owner d m g r)
    (hj : isFull q.scopeState.state = false) (hzero : g.fullMembers = 0) :
    ¬Kept owner (mgrpAddPort d m g q) m (recordJoin r q.portGid.interfaceId q.scopeState.state) := by
  have hr : r = ∅ := h.settled.symm.trans (settle_of_zero (h.count_eq ▸ hzero))
  subst hr
  have hnone : ∀ guid, g.mcmAliasPortTbl.get guid = none := fun guid => by
    have hget := h.get_eq guid
    rwa [Qmap.get_empty, eq_comm, Option.map_eq_none_iff] at hget
  have hport : g.mcmPortTbl.get q.port = none := by
    have hports := h.ports q.port
    have hleft : aliasLeft g.mcmAliasPortTbl q.port = false := by
      rw [← Bool.not_eq_true, aliasLeft_iff]
      rintro ⟨guid, a, ha, -⟩
      simp [hnone] at ha
    rwa [hleft, Option.isSome_eq_false_iff, Option.isNone_iff_eq_none] at hports
  intro hk
  unfold mgrpAddPort at hk
  dsimp only at hk
  rw [hport] at hk
  have hb := hk.books (get_setMgrp (g := g) hg)
  have hrec : recordJoin ∅ q.portGid.interfaceId q.scopeState.state = ∅ := by
    refine settle_of_zero ((Qmap.countP_insert isFull (Qmap.get_empty _)).trans ?_)
    rw [hj]
    rfl
  have hget := hb.get_eq q.portGid.interfaceId
  rw [hrec, countFull_eq] at hget
  simp [Qmap.get_insert] at hget

end AddPort

section RemovePort

variable {owner} {d : Subn} {m : Mgid} {g : Mgrp} {r : Recorded} {guid : Guid} {a : Alias}

lemma elsewhere_mgrpUpdateAlias (d : Subn) (m : Mgid) (g : Mgrp) (guid : Guid) (a : Alias) (new : JoinState) :
    Elsewhere d (mgrpUpdateAlias d m g guid a new).1 m := by
  unfold mgrpUpdateAlias
  dsimp only
  split_ifs
  · exact .refl d m
  · exact .refl d m
  · have hlist : Elsewhere d
        { d with mcmList := Function.update d.mcmList a.port ((d.mcmList a.port).erase m) } m :=
      elsewhere_mcmList d m fun m' hm p => count_update (List.count_erase_of_ne hm) p
    exact hlist.trans (elsewhere_reroute _ m g.mlid)

lemma elsewhere_mgrpRemovePort (d : Subn) (m : Mgid) (g : Mgrp) (guid : Guid) (a : Alias) (leave : JoinState) :
    Elsewhere d (mgrpRemovePort d m g guid a leave).1 m := by
  have hupd := elsewhere_mgrpUpdateAlias d m g guid a (joinStateOf a &&& ~~~leave)
  unfold mgrpRemovePort
  dsimp only
  split_ifs
  · exact (hupd.trans (elsewhere_setMgrp _ m _)).trans (elsewhere_mgrpCleanup _ m _)
  · exact hupd.trans (elsewhere_setMgrp _ m _)
  · exact hupd.trans (elsewhere_setMgrp _ m _)

lemma get_mgrpUpdateAlias (d : Subn) (m : Mgid) (g : Mgrp) (guid : Guid) (a : Alias) (new : JoinState) :
    (mgrpUpdateAlias d m g guid a new).1.mgrpMgidTbl = d.mgrpMgidTbl := by
  unfold mgrpUpdateAlias
  dsimp only
  split_ifs <;> rfl

lemma mgrpUpdateAlias_placed (h : Placed owner d m g) (ha : g.mcmAliasPortTbl.get guid = some a)
    (new : JoinState) :
    Placed owner (mgrpUpdateAlias d m g guid a new).1 m (mgrpUpdateAlias d m g guid a new).2 := by
  unfold mgrpUpdateAlias
  dsimp only
  split_ifs with hkeep hleft
  · have hmod : ∀ p, aliasLeft (g.mcmAliasPortTbl.modify guid fun a =>
        { a with scopeState := { a.scopeState with state := new } }) p = aliasLeft g.mcmAliasPortTbl p :=
      aliasLeft_modify _ fun _ => rfl
    refine ⟨?_, fun p => (h.ports p).trans (hmod p).symm, fun p => ?_, h.boxes⟩
    · intro k b hb
      rw [Qmap.get_modify] at hb
      split_ifs at hb with hk
      · obtain ⟨b₀, hb₀, rfl⟩ := Option.map_eq_some_iff.mp hb
        exact h.owned k b₀ (hk ▸ hb₀)
      · exact h.owned k b hb
    · rw [hmod]
      exact h.mcmList p
  all_goals
    have howned : ∀ k b, (g.mcmAliasPortTbl.remove guid).get k = some b → b.port = owner k := by
      intro k b hb
      rw [Qmap.get_remove] at hb
      split_ifs at hb
      exact h.owned k b hb
    have hself : aliasLeft g.mcmAliasPortTbl a.port = true := aliasLeft_iff.mpr ⟨guid, a, ha, rfl⟩
  · have hsame : ∀ p, aliasLeft (g.mcmAliasPortTbl.remove guid) p = aliasLeft g.mcmAliasPortTbl p := by
      intro p
      by_cases hp : a.port = p
      · rw [← hp, hleft, hself]
      · exact aliasLeft_remove ha hp
    refine ⟨howned, fun p => (h.ports p).trans (hsame p).symm, fun p => ?_, h.boxes⟩
    rw [hsame]
    exact h.mcmList p
  · refine ⟨howned, fun p => ?_, fun p => ?_, h.boxes⟩
    · rw [Qmap.get_remove]
      split_ifs with hp
      · rw [hp, Option.isSome_none]
        exact (Bool.not_eq_true _ ▸ hleft).symm
      · rw [h.ports, aliasLeft_remove ha (Ne.symm hp)]
    · by_cases hp : p = a.port
      · have hlist := h.mcmList a.port
        rw [hself, if_pos rfl] at hlist
        rw [hp, if_neg hleft]
        simp [smRerouteMlid, hlist]
      · rw [aliasLeft_remove ha (Ne.symm hp), ← h.mcmList p]
        simp [smRerouteMlid, hp]

def left (r : Recorded) (guid : Guid) (new : JoinState) : Recorded :=
  if new = 0 then r.remove guid else r.modify guid fun _ => new

lemma recordLeave_eq (h : Members owner d m g r) (ha : g.mcmAliasPortTbl.get guid = some a) (leave : JoinState) :
    recordLeave r guid leave = settle (left r guid (joinStateOf a &&& ~~~leave)) := by
  rw [recordLeave, h.get_eq, ha]
  rfl

lemma countP_left (h : Members owner d m g r) (ha : g.mcmAliasPortTbl.get guid = some a) (new : JoinState) :
    (left r guid new).countP isFull + (if isFull (joinStateOf a) then 1 else 0) =
      g.fullMembers + if isFull new then 1 else 0 := by
  have hra : r.get guid = some (joinStateOf a) := by rw [h.get_eq, ha, Option.map_some]
  rw [h.count_eq]
  by_cases hzero : new = 0
  · subst hzero
    rw [left, if_pos rfl, Qmap.countP_remove isFull hra]
    rfl
  · rw [left, if_neg hzero]
    exact Qmap.countP_modify isFull _ hra

lemma left_nonzero (h : Members owner d m g r) (new : JoinState) (k : Guid) :
    (left r guid new).get k ≠ some 0 := by
  unfold left
  split_ifs with hzero
  · rw [Qmap.get_remove]
    split_ifs
    · nofun
    · exact h.nonzero k
  · rw [Qmap.get_modify]
    split_ifs
    · intro hk
      obtain ⟨-, -, hk⟩ := Option.map_eq_some_iff.mp hk
      exact hzero hk
    · exact h.nonzero k

lemma keepsEntry_ne_zero {s new : JoinState} (h : keepsEntry g s new = true) : new ≠ 0 := by
  rintro rfl
  simp [keepsEntry] at h

lemma mgrpUpdateAlias_tbl (d : Subn) (m : Mgid) (g : Mgrp) (guid : Guid) (a : Alias) (new : JoinState) :
    (mgrpUpdateAlias d m g guid a new).2.mcmAliasPortTbl =
      if keepsEntry g (joinStateOf a) new then
        g.mcmAliasPortTbl.modify guid fun a => { a with scopeState := { a.scopeState with state := new } }
      else g.mcmAliasPortTbl.remove guid := by
  unfold mgrpUpdateAlias joinStateOf
  dsimp only
  split_ifs <;> rfl

lemma mgrpUpdateAlias_frame (d : Subn) (m : Mgid) (g : Mgrp) (guid : Guid) (a : Alias) (new : JoinState) :
    (mgrpUpdateAlias d m g guid a new).2.fullMembers = g.fullMembers ∧
      (mgrpUpdateAlias d m g guid a new).2.wellKnown = g.wellKnown := by
  unfold mgrpUpdateAlias
  dsimp only
  split_ifs <;> exact ⟨rfl, rfl⟩

variable (d m guid) in
lemma mgrpUpdateAlias_recorded (h : Members owner d m g r) {new : JoinState}
    (hnew : keepsEntry g (joinStateOf a) new = true ∨ new = 0) :
    (mgrpUpdateAlias d m g guid a new).2.mcmAliasPortTbl.map joinStateOf = left r guid new := by
  rw [mgrpUpdateAlias_tbl]
  unfold left
  split_ifs with hkeep hzero hzero
  · exact absurd hzero (keepsEntry_ne_zero hkeep)
  · rw [Qmap.map_modify joinStateOf _ _ _ (fun _ => new) fun _ => rfl, h.recorded]
  · rw [Qmap.map_remove, h.recorded]
  · exact absurd (hnew.resolve_left hkeep) hzero

lemma keepsEntry_false {s new : JoinState} (hkeep : keepsEntry g s new = false) (hnew : new ≠ 0)
    (hpos : 0 < g.fullMembers) : g.fullMembers = 1 ∧ s &&& joinFull ≠ 0 ∧ new &&& joinFull = 0 := by
  have hle := and_joinFull_le s
  simp only [keepsEntry, gt_iff_lt, decide_eq_false_iff_not, not_or, not_and, not_lt, not_not] at hkeep
  obtain ⟨hfull, hmem⟩ := hkeep
  have hmem := hmem hnew
  refine ⟨by omega, ?_, hfull⟩
  intro hzero
  rw [hzero] at hmem
  simp at hmem
  omega

lemma leave_joinFull {s leave : JoinState} (hs : s &&& joinFull ≠ 0) (hnew : (s &&& ~~~leave) &&& joinFull = 0) :
    leave &&& joinFull ≠ 0 := by
  revert s leave
  decide

lemma mgrpRemovePort_kept (hg : d.mgrpMgidTbl.get m = some g) (h : Books owner d m g r)
    (ha : g.mcmAliasPortTbl.get guid = some a) {leave : JoinState} (hreg : RegularLeave g (joinStateOf a) leave) :
    Kept owner (mgrpRemovePort d m g guid a leave).1 m (recordLeave r guid leave) := by
  have hplaced := mgrpUpdateAlias_placed h.toPlaced ha (joinStateOf a &&& ~~~leave)
  have htbl := get_mgrpUpdateAlias d m g guid a (joinStateOf a &&& ~~~leave)
  obtain ⟨hfull, hwk⟩ := mgrpUpdateAlias_frame d m g guid a (joinStateOf a &&& ~~~leave)
  have hcount := countP_left h.toMembers ha (joinStateOf a &&& ~~~leave)
  have hpos := h.pos_of_get ha
  have hkeep : keepsEntry g (joinStateOf a) (joinStateOf a &&& ~~~leave) = true ∨ joinStateOf a &&& ~~~leave = 0 ∨
      g.fullMembers = 1 ∧ isFull (joinStateOf a) = true ∧ isFull (joinStateOf a &&& ~~~leave) = false := by
    by_cases hk : keepsEntry g (joinStateOf a) (joinStateOf a &&& ~~~leave) = true
    · exact .inl hk
    by_cases hz : joinStateOf a &&& ~~~leave = 0
    · exact .inr (.inl hz)
    obtain ⟨hone, hs, hnew⟩ := keepsEntry_false (Bool.not_eq_true _ ▸ hk) hz hpos
    refine .inr (.inr ⟨hone, isFull_of_and _ hs, ?_⟩)
    by_contra hnf
    rw [Bool.not_eq_false, isFull_iff] at hnf
    exact hreg ⟨hone, hs, leave_joinFull hs hnew, hnf.resolve_left (not_not.mpr hnew)⟩
  rw [recordLeave_eq h.toMembers ha]
  unfold mgrpRemovePort
  dsimp only
  split_ifs with hdec hlast
  · obtain ⟨hs, hn⟩ := hdec
    rw [hfull] at hlast
    rw [if_pos hs, if_neg (by simpa using hn)] at hcount
    rw [settle_of_zero (by omega)]
    refine mgrpCleanup_kept (get_setMgrp (htbl ▸ hg)) ?_ (by simpa only [hfull] using hlast)
    exact ⟨hplaced.owned, hplaced.ports, hplaced.mcmList, hplaced.boxes⟩
  · obtain ⟨hs, hn⟩ := hdec
    rw [hfull] at hlast
    rw [if_pos hs, if_neg (by simpa using hn)] at hcount
    have hsettle := settle_of_pos (r := left r guid (joinStateOf a &&& ~~~leave)) (by omega)
    have hrec := mgrpUpdateAlias_recorded d m guid h.toMembers
      (hkeep.imp_right fun hk => hk.resolve_right fun hk => hlast (by omega))
    apply kept_of_books (get_setMgrp (htbl ▸ hg))
    rw [hsettle]
    exact { hplaced with
      fullMembers := by
        rw [← Qmap.countP_map joinStateOf, hrec]
        simp only [hfull]
        omega
      recorded := hrec
      nonzero := left_nonzero h.toMembers _
      settled := hsettle
      opened := fun _ => by
        simp only [hfull]
        omega }
  · have hsame : isFull (joinStateOf a) = isFull (joinStateOf a &&& ~~~leave) := by
      have hand := isFull_and_not (s := joinStateOf a) (j := leave)
      cases hs : isFull (joinStateOf a) <;> cases hn : isFull (joinStateOf a &&& ~~~leave) <;> simp_all
    rw [← hsame] at hcount
    have hsettle := settle_of_pos (r := left r guid (joinStateOf a &&& ~~~leave)) (by omega)
    have hrec := mgrpUpdateAlias_recorded d m guid h.toMembers
      (hkeep.imp_right fun hk => hk.resolve_right fun hk => by simp [← hsame, hk.2.1] at hk)
    apply kept_of_books (get_setMgrp (htbl ▸ hg))
    rw [hsettle]
    exact { hplaced with
      fullMembers := by
        rw [← Qmap.countP_map joinStateOf, hrec, hfull]
        omega
      recorded := hrec
      nonzero := left_nonzero h.toMembers _
      settled := hsettle
      opened := fun _ => by omega }

lemma mgrpRemovePort_not_kept (hg : d.mgrpMgidTbl.get m = some g) (h : Books owner d m g r)
    (ha : g.mcmAliasPortTbl.get guid = some a) {leave : JoinState} (hirr : ¬RegularLeave g (joinStateOf a) leave) :
    ¬Kept owner (mgrpRemovePort d m g guid a leave).1 m (recordLeave r guid leave) := by
  obtain ⟨hone, hs, hl, hn⟩ := not_not.mp hirr
  have htbl := get_mgrpUpdateAlias d m g guid a (joinStateOf a &&& ~~~leave)
  have hcount := countP_left h.toMembers ha (joinStateOf a &&& ~~~leave)
  have hfn : isFull (joinStateOf a &&& ~~~leave) = true := (isFull_iff _).mpr (.inr hn)
  rw [isFull_and_not hfn, hfn] at hcount
  have hlost : ∀ s l : JoinState, s &&& joinFull ≠ 0 → l &&& joinFull ≠ 0 →
      (s &&& ~~~l) &&& joinFull = 0 ∧ 1 ≤ (s &&& joinFull).toNat := by decide
  have hkeep : keepsEntry g (joinStateOf a) (joinStateOf a &&& ~~~leave) = false := by
    obtain ⟨hz, hge⟩ := hlost _ _ hs hl
    simp only [keepsEntry, hone, hz, gt_iff_lt, decide_eq_false_iff_not, not_or, not_and, not_lt]
    exact ⟨by simp, fun _ => hge⟩
  rw [recordLeave_eq h.toMembers ha, settle_of_pos (by omega)]
  unfold mgrpRemovePort
  simp only [hfn, Bool.not_true, Bool.false_eq_true, and_false, if_false]
  intro hk
  have hrec := (hk.books (get_setMgrp (htbl ▸ hg))).recorded
  rw [mgrpUpdateAlias_tbl, hkeep] at hrec
  have hget := congrArg (fun t => t.get guid) hrec
  simp only [Bool.false_eq_true, if_false, Qmap.get_map, Qmap.get_remove, if_true, Option.map_none, left,
    isFull_ne_zero hfn, Qmap.get_modify, h.get_eq, ha, Option.map_some] at hget
  exact nomatch hget

end RemovePort

section DeletePort

variable {owner} {d : Subn} {m : Mgid} {g : Mgrp} {r : Recorded}

lemma regularLeave_all (g : Mgrp) (s : JoinState) : RegularLeave g s 15 := by
  rintro ⟨-, -, -, h⟩
  revert s
  decide

lemma elsewhere_deletePortLoop (m : Mgid) (port : Guid) (l : List Guid) (d : Subn) :
    Elsewhere d (deletePortLoop m port l d) m := by
  induction l generalizing d with
  | nil => exact .refl d m
  | cons guid l ih =>
    rw [deletePortLoop]
    split
    · exact .refl d m
    · split
      · exact ih d
      · dsimp only
        split_ifs
        · exact elsewhere_mgrpRemovePort _ _ _ _ _ _
        · exact (elsewhere_mgrpRemovePort _ _ _ _ _ _).trans (ih _)
        · exact ih d

def dropList (owner : Guid → Guid) (port : Guid) (r : Recorded) (l : List Guid) : Recorded :=
  l.foldl (fun r guid => if owner guid = port then recordLeave r guid 15 else r) r

lemma recordLeave_all (r : Recorded) (guid : Guid) (h : settle r = r) :
    recordLeave r guid 15 = settle (r.remove guid) := by
  unfold recordLeave
  cases hr : r.get guid with
  | none =>
    have hrem : r.remove guid = r := by
      refine Qmap.ext_get fun k => ?_
      rw [Qmap.get_remove]
      split_ifs with hk
      · rw [hk, hr]
      · rfl
    rw [hrem, h]
  | some s =>
    have hzero : ∀ s : JoinState, s &&& ~~~15 = 0 := by decide
    simp only [hzero, if_true]

@[simp] lemma recordLeave_empty (guid : Guid) (j : JoinState) : recordLeave ∅ guid j = ∅ := rfl

lemma dropList_empty (port : Guid) (l : List Guid) : dropList owner port ∅ l = ∅ := by
  induction l with
  | nil => rfl
  | cons guid l ih =>
    rw [dropList, List.foldl_cons, recordLeave_empty, ite_self]
    exact ih

lemma settle_filter_settle (r : Recorded) (p : Guid → Bool) :
    settle ((settle r).filter p) = settle (r.filter p) := by
  by_cases h : r.countP isFull = 0
  · rw [settle_of_zero h, settle_of_zero (r := r.filter p)]
    · rfl
    · rw [Qmap.countP_eq_zero] at h ⊢
      intro k v hk
      rw [Qmap.get_filter] at hk
      split_ifs at hk
      exact h k v hk
  · rw [settle_of_pos (r := r) (by omega)]

lemma dropList_eq (port : Guid) (l : List Guid) (h : settle r = r) :
    dropList owner port r l = settle (r.filter fun guid => ¬(guid ∈ l ∧ owner guid = port)) := by
  induction l generalizing r with
  | nil =>
    have hall : r.filter (fun guid => ¬(guid ∈ ([] : List Guid) ∧ owner guid = port)) = r :=
      Qmap.ext_get fun k => by simp [Qmap.get_filter]
    rw [hall, h]
    rfl
  | cons guid l ih =>
    rw [dropList, List.foldl_cons]
    change dropList owner port _ l = _
    split_ifs with hport
    · rw [recordLeave_all r guid h, ih (settle_settle _), settle_filter_settle]
      congr 1
      refine Qmap.ext_get fun k => ?_
      simp only [Qmap.get_filter, Qmap.get_remove, List.mem_cons]
      by_cases hk : k = guid
      · subst hk
        simp [hport]
      · simp [hk]
    · rw [ih h]
      congr 1
      refine Qmap.ext_get fun k => ?_
      simp only [Qmap.get_filter, List.mem_cons]
      by_cases hk : k = guid
      · subst hk
        simp [hport]
      · simp [hk]

lemma removed_closed (h : Books owner d m g r) {guid : Guid} {a : Alias}
    (ha : g.mcmAliasPortTbl.get guid = some a) (hdel : (mgrpRemovePort d m g guid a 15).2 = true) :
    recordLeave r guid 15 = ∅ := by
  have hcount := countP_left h.toMembers ha (joinStateOf a &&& ~~~15)
  obtain ⟨hfull, -⟩ := mgrpUpdateAlias_frame d m g guid a (joinStateOf a &&& ~~~15)
  unfold mgrpRemovePort at hdel
  dsimp only at hdel
  split_ifs at hdel with hdec hlast
  obtain ⟨hs, hn⟩ := hdec
  rw [if_pos hs, if_neg (by simpa using hn)] at hcount
  rw [recordLeave_eq h.toMembers ha]
  exact settle_of_zero (by omega)

lemma deletePortLoop_kept (port : Guid) (l : List Guid) (h : Kept owner d m r) :
    Kept owner (deletePortLoop m port l d) m (dropList owner port r l) := by
  induction l generalizing d r with
  | nil => exact h
  | cons guid l ih =>
    rw [deletePortLoop, dropList, List.foldl_cons]
    change Kept owner _ m (dropList owner port _ l)
    cases hg : d.mgrpMgidTbl.get m with
    | none =>
      have hr := (h.closed hg).recorded
      subst hr
      rw [recordLeave_empty, ite_self, dropList_empty]
      exact h
    | some g =>
      have hb := h.books hg
      cases ha : g.mcmAliasPortTbl.get guid with
      | none =>
        have hsame : recordLeave r guid 15 = r := by
          rw [recordLeave, hb.get_eq, ha]
          rfl
        simp only [ha, hsame, ite_self]
        exact ih h
      | some a =>
        have hkept := mgrpRemovePort_kept hg hb ha (regularLeave_all g (joinStateOf a))
        have hclosed := removed_closed (d := d) (m := m) hb ha
        simp only [ha, ← hb.owned guid a ha]
        split_ifs with hport hdel
        · rw [hclosed hdel, dropList_empty]
          exact hclosed hdel ▸ hkept
        · exact ih hkept
        · exact ih h

lemma mgrpDeletePort_kept (hg : d.mgrpMgidTbl.get m = some g) (h : Kept owner d m r) (port : Guid) :
    Kept owner (mgrpDeletePort d m g port) m (recordDrop owner r port) := by
  have hb := h.books hg
  have hkept := deletePortLoop_kept port g.mcmAliasPortTbl.keys h
  rw [dropList_eq port _ hb.settled] at hkept
  unfold mgrpDeletePort recordDrop
  have hkeys : (r.filter fun guid => ¬(guid ∈ g.mcmAliasPortTbl.keys ∧ owner guid = port)) =
      r.filter fun guid => owner guid ≠ port := by
    refine Qmap.ext_get fun k => ?_
    simp only [Qmap.get_filter, hb.get_eq]
    cases ha : g.mcmAliasPortTbl.get k <;> simp [Qmap.mem_keys, ha]
  rwa [hkeys] at hkept

end DeletePort

section Create

variable {owner} {d : Subn} {r : Recorded}

lemma mgrpNew_members {mcmr : MemberRec} (mlid : ℕ) (wellKnown : Bool) (hg : d.mgrpMgidTbl.get mcmr.mgid = none)
    (h : Kept owner d mcmr.mgid r) :
    (mgrpNew d mlid mcmr wellKnown).mgrpMgidTbl.get mcmr.mgid = some ⟨mlid, mcmr, wellKnown, 0, ∅, ∅⟩ ∧
      Members owner (mgrpNew d mlid mcmr wellKnown) mcmr.mgid ⟨mlid, mcmr, wellKnown, 0, ∅, ∅⟩ r := by
  obtain ⟨rfl, hlist, hbox⟩ := h.closed hg
  refine ⟨by simp [mgrpNew, Qmap.get_insert, hg], ?_⟩
  exact {
    owned := nofun
    ports := fun _ => rfl
    mcmList := fun p => List.count_eq_zero.mpr (hlist p)
    boxes := fun i => by
      by_cases hi : i = mlid
      · subst hi
        simp [mgrpNew, List.count_append, List.count_eq_zero.mpr (hbox i)]
      · simp [mgrpNew, hi, List.count_eq_zero.mpr (hbox i)]
    fullMembers := rfl
    recorded := rfl
    nonzero := nofun
    settled := rfl }

lemma elsewhere_mgrpNew (d : Subn) (mlid : ℕ) (mcmr : MemberRec) (wellKnown : Bool) :
    Elsewhere d (mgrpNew d mlid mcmr wellKnown) mcmr.mgid where
  mgrp m' hm := by simp [mgrpNew, Qmap.get_insert, hm]
  mcmList _ _ _ := rfl
  boxes m' hm i := count_update (by simp [List.count_append, hm.symm]) i

end Create

/-- The tables and the recorded JoinStates side by side. -/
structure Pair where
  subn : Subn
  recorded : Mgid → Recorded

def Pair.init : Pair := ⟨Subn.init, fun _ => ∅⟩

def pairStep (s : Pair) (o : Op) : Option Pair :=
  (step owner s.subn o).map fun d => ⟨d, record owner s.recorded o⟩

def AllKept (s : Pair) : Prop := ∀ m, Kept owner s.subn m (s.recorded m)

lemma init_allKept : AllKept owner Pair.init := fun _ => ⟨rfl, fun _ => List.not_mem_nil,
    fun _ => List.not_mem_nil⟩

lemma allKept_iff {owner} {s : Pair} {d : Subn} {m : Mgid} {r : Recorded} (h : AllKept owner s)
    (he : Elsewhere s.subn d m) :
    AllKept owner ⟨d, Function.update s.recorded m r⟩ ↔ Kept owner d m r := by
  refine ⟨fun ha => by simpa using ha m, fun hk m' => ?_⟩
  by_cases hm : m' = m
  · subst hm
    simpa using hk
  · simpa [hm] using (h m').elsewhere _ he hm

lemma pairStep_iff {owner} {s s' : Pair} {o : Op} (h : AllKept owner s) (hs : pairStep owner s o = some s') :
    AllKept owner s' ↔ Regular s.subn o := by
  obtain ⟨d, hd, rfl⟩ := Option.map_eq_some_iff.mp hs
  cases o with
  | addMcgroup mlid mcmr =>
    simp only [step] at hd
    cases hg : s.subn.mgrpMgidTbl.get mcmr.mgid with
    | some g => simp [hg] at hd
    | none =>
      simp only [hg, Option.some.injEq] at hd
      subst hd
      obtain ⟨hnew, hmem⟩ := mgrpNew_members mlid true hg (h mcmr.mgid)
      refine iff_of_true (fun m => ?_) trivial
      by_cases hm : m = mcmr.mgid
      · subst hm
        exact kept_of_books hnew { hmem with opened := nofun }
      · exact (h m).elsewhere _ (elsewhere_mgrpNew _ _ _ _) hm
  | create mlid mcmr q =>
    simp only [step] at hd
    cases hg : s.subn.mgrpMgidTbl.get mcmr.mgid with
    | some g => simp [hg] at hd
    | none =>
      simp only [hg] at hd
      split_ifs at hd with hq
      obtain rfl := Option.some.inj hd
      obtain ⟨hnew, hmem⟩ := mgrpNew_members mlid false hg (h mcmr.mgid)
      refine iff_of_true ?_ trivial
      refine (allKept_iff h ?_).mpr (mgrpAddPort_kept hnew hmem hq.1 (.inl hq.2))
      exact (elsewhere_mgrpNew _ _ _ _).trans (elsewhere_mgrpAddPort _ _ _ _)
  | join m q =>
    simp only [step] at hd
    cases hg : s.subn.mgrpMgidTbl.get m with
    | none => simp [hg] at hd
    | some g =>
      simp only [hg] at hd
      split_ifs at hd with hq
      obtain rfl := Option.some.inj hd
      have hb := (h m).books hg
      refine (allKept_iff h (elsewhere_mgrpAddPort _ _ _ _)).trans ⟨fun hk => ?_, fun hr => ?_⟩
      · by_contra hirr
        obtain ⟨hj, hno⟩ := not_or.mp hirr
        have hzero : g.fullMembers = 0 := by
          by_contra hne
          exact hno ⟨g, hg, Nat.pos_of_ne_zero hne⟩
        exact mgrpAddPort_not_kept hg hb.toMembers (Bool.not_eq_true _ ▸ hj) hzero hk
      · refine mgrpAddPort_kept hg hb.toMembers hq (hr.imp_right ?_)
        rintro ⟨g', hg', hpos⟩
        obtain rfl := Option.some.inj (hg.symm.trans hg')
        exact hpos
  | leave m guid leave =>
    simp only [step] at hd
    cases hg : s.subn.mgrpMgidTbl.get m with
    | none => simp [hg] at hd
    | some g =>
      simp only [hg] at hd
      cases ha : g.mcmAliasPortTbl.get guid with
      | none => simp [ha] at hd
      | some a =>
        simp only [ha] at hd
        split_ifs at hd with hv
        obtain rfl := Option.some.inj hd
        have hb := (h m).books hg
        refine (allKept_iff h (elsewhere_mgrpRemovePort _ _ _ _ _ _)).trans
            ⟨fun hk g' a' hg' ha' => ?_, fun hr => ?_⟩
        · obtain rfl := Option.some.inj (hg.symm.trans hg')
          obtain rfl := Option.some.inj (ha.symm.trans ha')
          by_contra hirr
          exact mgrpRemovePort_not_kept hg hb ha hirr hk
        · exact mgrpRemovePort_kept hg hb ha (hr g a hg ha)
  | deletePort m port =>
    simp only [step, Option.map_eq_some_iff] at hd
    obtain ⟨g, hg, rfl⟩ := hd
    refine iff_of_true ?_ trivial
    refine (allKept_iff h ?_).mpr (mgrpDeletePort_kept hg (h m) port)
    exact elsewhere_deletePortLoop _ _ _ _

/-- The books of every group are right in all states of a run exactly when its steps are regular. -/
theorem run_allKept_iff {l : List (Pair × Op)} {s : Pair} (h : Run (pairStep owner) Pair.init l s) :
    ((∀ x ∈ l, AllKept owner x.1) ∧ AllKept owner s) ↔ ∀ x ∈ l, Regular x.1.subn x.2 :=
  h.always_iff (init_allKept owner) fun _ _ _ => pairStep_iff

def sampleRec : MemberRec := ⟨7, ⟨0, 5⟩, 0, 0, 4, 0, 0xFFFF, 3, 18, 0, ⟨2, 9⟩, false⟩

def createLeave (s : JoinState) : List Op :=
  [.create 0 sampleRec ⟨⟨0, 5⟩, 5, ⟨2, s⟩, false⟩, .leave 7 5 joinFull]

theorem run_allKept_iff_left :
    let l := trace (pairStep id) Pair.init (createLeave joinFull)
    ((∀ x ∈ l, AllKept id x.1) ∧
        AllKept id ((exec (pairStep id) Pair.init (createLeave joinFull)).getD Pair.init)) ↔
      ∀ x ∈ l, Regular x.1.subn x.2 :=
  run_allKept_iff id (Run.nil.append (createLeave joinFull) rfl)

/-- The sole member joins with both full bits and leaves with one of them: its entry is gone, but the group
stays, and counts it. -/
theorem left_full_not_kept :
    ∃ l s, Run (pairStep id) Pair.init l s ∧ ∃ g, s.subn.mgrpMgidTbl.get 7 = some g ∧ g.fullMembers = 1 ∧
      (g.mcmAliasPortTbl.countP fun a => isFull (joinStateOf a)) = 0 ∧ ¬AllKept id s := by
  refine ⟨_, _, Run.nil.append (createLeave fullJoinState) rfl, _, rfl, rfl, rfl, ?_⟩
  intro h
  have hbooks := (h 7).books rfl
  exact absurd hbooks.fullMembers (by decide)

end OpenSM.Multicast
