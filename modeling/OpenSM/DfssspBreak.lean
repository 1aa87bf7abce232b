import OpenSM.DfssspSearch

/-! The cycles of a lane are broken one by one: the weakest link of a cycle goes, and its paths move to the next
lane. -/

namespace OpenSM.DfssspCdg

open Lib.DepthFirst Cdg

structure LinkAt where
  owner : ℕ
  place : ℕ
  link : CdgLink

section Weakest

def firstGray (cdg : Cdg) (c : ℕ) : Option LinkAt :=
  ((cdg.node c).linklist.zipIdx.find? fun x => cdg.status x.1.node = .gray).map fun x => ⟨c, x.2, x.1⟩

/-- `num_pairs - removed` in 32 bits. -/
def CdgLink.live (link : CdgLink) : ℕ := (link.numPairs + 4294967296 - link.removed) % 4294967296

/-- The endless loop of `get_weakest_link_in_cycle`. -/
def weakestLoop (cycle : ℕ) : ℕ → Cdg → ℕ → LinkAt → Option (Cdg × LinkAt)
  | 0, _, _, _ => none
  | k + 1, cdg, current, weakest =>
    let cdg := cdg.setStatus current .unknown
    let step :=
      match firstGray cdg current with
      | some l => (l.link.node, if l.link.live < weakest.link.live then l else weakest)
      | none => (current, weakest)
    if step.1 = cycle then some (cdg.setStatus step.1 .unknown, step.2) else weakestLoop cycle k cdg step.1 step.2

def getWeakestLinkInCycle (fuel : ℕ) (cdg : Cdg) (cycle : ℕ) : Option (Cdg × CdgLink) :=
  (firstGray cdg cycle).bind fun l =>
    (weakestLoop cycle fuel cdg l.link.node l).map fun res =>
      (res.1.setLinks res.2.owner (·.eraseIdx res.2.place), res.2.link)

end Weakest

section Break

structure Lanes where
  cdg : Cdg
  next : Cdg
  vl : ℕ → ℕ → ℕ

namespace Tables

variable {S : Type*} (T : Tables S) (testVl fuel : ℕ)

def movePair (st : Lanes) (srcdest : ℕ) : Option Lanes :=
  let slid := srcdest / 65536
  let dlid := srcdest % 65536
  if testVl ≠ st.vl slid dlid then some st
  else do
    let cdg ← T.removePathFromCdg fuel st.cdg slid dlid
    let next ← T.updateChannelDepGraph fuel st.next slid dlid
    some ⟨cdg, next, Function.update st.vl slid (Function.update (st.vl slid) dlid (testVl + 1))⟩

/-- One round of the loop of `dfsssp_remove_deadlocks` over the cycles of a lane. -/
def breakCycle (st : Lanes) (startHere : ℕ) : Option (Lanes × Option ℕ) := do
  let (cdg, cycle) ← searchCycleInChannelDepGraph fuel st.cdg startHere
  match cycle with
  | none => some ({ st with cdg := cdg }, none)
  | some c =>
    let (cdg, weakestLink) ← getWeakestLinkInCycle fuel cdg c
    let st ← weakestLink.srcdestPairs.foldlM (T.movePair testVl fuel) { st with cdg := cdg }
    some (st, some c)

def breakCycles : ℕ → Lanes → Option ℕ → Option Lanes
  | 0, _, _ => none
  | _ + 1, st, none => some st
  | k + 1, st, some startHere => (T.breakCycle testVl fuel st startHere).bind fun res => breakCycles k res.1 res.2

end Tables

end Break

section WeakestSpec

variable {cdg cdg' : Cdg} {c x y : ℕ} {seen : ℕ → Status} {g : ℕ → List ℕ} {weakest : LinkAt}

def forgetAll (cdg : Cdg) (l : List ℕ) : Cdg := l.foldl (fun cdg c => cdg.setStatus c .unknown) cdg

lemma sameGraph_forgetAll (l : List ℕ) : SameGraph cdg (forgetAll cdg l) := by
  induction l generalizing cdg with
  | nil => exact .refl cdg
  | cons x l ih => exact sameGraph_setStatus.trans ih

lemma pre_forgetAll (l : List ℕ) : (forgetAll cdg l).pre = cdg.pre := by
  induction l generalizing cdg with
  | nil => rfl
  | cons x l ih => exact ih.trans pre_setStatus

lemma linklist_forgetAll (l : List ℕ) : ((forgetAll cdg l).node x).linklist = (cdg.node x).linklist := by
  induction l generalizing cdg with
  | nil => rfl
  | cons y l ih => exact ih.trans linklist_setStatus

lemma status_forgetAll (l : List ℕ) : (forgetAll cdg l).status x = if x ∈ l then .unknown else cdg.status x := by
  induction l generalizing cdg with
  | nil => rfl
  | cons y l ih =>
    rw [forgetAll, List.foldl_cons, ← forgetAll, ih, status_setStatus]
    by_cases hx : x ∈ l
    · rw [if_pos hx, if_pos (List.mem_cons_of_mem y hx)]
    · by_cases hy : x = y
      · rw [if_neg hx, hy, Function.update_self, if_pos List.mem_cons_self]
      · rw [if_neg hx, Function.update_of_ne hy, if_neg fun h => (List.mem_cons.mp h).elim hy hx]

structure LinkAt.Leads (l : LinkAt) (cdg : Cdg) (x y : ℕ) : Prop where
  owner : l.owner = x
  node : l.link.node = y
  place : (cdg.node x).linklist[l.place]? = some l.link

lemma firstGray_spec (hg : cdg.succ = g) (hopen : firstOpen g seen x = some y)
    (hblack : ∀ w, seen w = .black → cdg.status w ≠ .gray)
    (hy : cdg.status y = .gray) : ∃ l, firstGray cdg x = some l ∧ l.Leads cdg x y := by
  subst hg
  have hfind := find_of_firstOpen (p := fun w => cdg.status w = .gray) hopen
    (fun w hw => decide_eq_false (hblack w hw)) (decide_eq_true hy)
  obtain ⟨-, before, after, hsucc, hbefore⟩ := List.find?_eq_some_iff_append.mp hfind
  obtain ⟨l₁, l₂, hlinks, rfl, hrest⟩ := List.map_eq_append_iff.mp hsucc
  obtain ⟨link, l₃, rfl, rfl, rfl⟩ := List.map_eq_cons_iff.mp hrest
  refine ⟨⟨x, l₁.length, link⟩, ?_, rfl, rfl, ?_⟩
  · have hnone : l₁.zipIdx.find? (fun z => cdg.status z.1.node = .gray) = none := by
      refine List.find?_eq_none.mpr fun z hz htrue => ?_
      have hz' := hbefore z.1.node (List.mem_map_of_mem (List.fst_mem_of_mem_zipIdx hz))
      rw [htrue] at hz'
      cases hz'
    rw [firstGray, hlinks, List.zipIdx_append, List.find?_append, hnone, Option.none_or,
        List.zipIdx_cons, Nat.zero_add]
    simp only [List.find?_cons, hy, decide_true, Option.map_some]
  · rw [hlinks, List.getElem?_append_right le_rfl, Nat.sub_self]
    rfl

/-- The loop follows the first gray links to the end of the ring. -/
lemma weakestLoop_spec {rest : List ℕ} (hg : cdg.succ = g)
    (hchain : (x :: rest ++ [c]).IsChain fun a b => firstOpen g seen a = some b) (hnodup : (x :: rest).Nodup)
    (hc : c ∉ x :: rest) (hgray : ∀ v ∈ c :: x :: rest, cdg.status v = .gray)
    (hblack : ∀ w, seen w = .black → cdg.status w ≠ .gray) : ∃ weakest',
      (∀ j, weakestLoop c (rest.length + 1 + j) cdg x weakest =
        some (forgetAll cdg (x :: rest ++ [c]), weakest')) ∧
      (weakest' = weakest ∨ ∃ a b, [a, b] <:+: x :: rest ++ [c] ∧ weakest'.Leads cdg a b) := by
  induction rest generalizing cdg x weakest with
  | nil =>
    have hopen : firstOpen g seen x = some c := (List.isChain_cons_cons.mp hchain).1
    have hne : c ≠ x := fun heq => hc (heq ▸ List.mem_singleton_self x)
    have hkeep : ∀ w, seen w = .black → (cdg.setStatus x .unknown).status w ≠ .gray := by
      intro w hw
      rw [status_setStatus, Function.update_apply]
      split_ifs
      · decide
      · exact hblack w hw
    obtain ⟨l, hl, hleads⟩ := @firstGray_spec (cdg.setStatus x .unknown) _ _ _ _
      (sameGraph_setStatus.succ.trans hg) hopen hkeep
      (by rw [status_setStatus, Function.update_of_ne hne]; exact hgray c List.mem_cons_self)
    refine ⟨if l.link.live < weakest.link.live then l else weakest, fun j => ?_, ?_⟩
    · rw [List.length_nil, Nat.zero_add, Nat.add_comm, weakestLoop]
      simp only [hl, hleads.node, if_true]
      rfl
    · split_ifs
      · exact .inr ⟨x, c, List.infix_rfl, hleads.owner, hleads.node, linklist_setStatus ▸ hleads.place⟩
      · exact .inl rfl
  | cons y rest ih =>
    obtain ⟨hopen, hchain⟩ := List.isChain_cons_cons.mp hchain
    obtain ⟨hx, hnodup⟩ := List.nodup_cons.mp hnodup
    have hkeep : ∀ w, seen w = .black → (cdg.setStatus x .unknown).status w ≠ .gray := by
      intro w hw
      rw [status_setStatus, Function.update_apply]
      split_ifs
      · decide
      · exact hblack w hw
    have hgray' : ∀ v ∈ c :: y :: rest, (cdg.setStatus x .unknown).status v = .gray := by
      intro v hv
      have hne : v ≠ x := by
        rintro rfl
        rcases List.mem_cons.mp hv with rfl | hv
        · exact hc List.mem_cons_self
        · exact hx hv
      rw [status_setStatus, Function.update_of_ne hne]
      rcases List.mem_cons.mp hv with rfl | hv
      · exact hgray v List.mem_cons_self
      · exact hgray v (List.mem_cons_of_mem c (List.mem_cons_of_mem x hv))
    obtain ⟨l, hl, hleads⟩ := @firstGray_spec (cdg.setStatus x .unknown) _ _ _ _
      (sameGraph_setStatus.succ.trans hg) hopen hkeep
      (hgray' y (List.mem_cons_of_mem c List.mem_cons_self))
    have hc' : c ∉ y :: rest := fun hmem => hc (List.mem_cons_of_mem x hmem)
    obtain ⟨weakest', hrun, hweak⟩ :=
      @ih (cdg.setStatus x .unknown) y (if l.link.live < weakest.link.live then l else weakest)
      (sameGraph_setStatus.succ.trans hg) hchain hnodup hc' hgray' hkeep
    refine ⟨weakest', fun j => ?_, ?_⟩
    · rw [List.length_cons, Nat.add_right_comm, weakestLoop]
      simp only [hl, hleads.node, if_neg (ne_of_mem_of_not_mem List.mem_cons_self hc')]
      exact hrun j
    · rcases hweak with rfl | ⟨a, b, hin, hlead⟩
      · split_ifs
        · exact .inr ⟨x, y, ⟨[], rest ++ [c], rfl⟩, hleads.owner, hleads.node, linklist_setStatus ▸ hleads.place⟩
        · exact .inl rfl
      · exact .inr ⟨a, b, hin.trans (List.suffix_cons x _).isInfix, hlead.owner, hlead.node,
          linklist_setStatus ▸ hlead.place⟩

end WeakestSpec

def Ends {α : Type*} (f : ℕ → Option α) (r : α) : Prop := ∃ n, ∀ j, f (n + j) = some r

section Ends

variable {α β : Type*} {f : ℕ → Option α} {g : ℕ → α → Option β} {a a' : α} {b : β}

lemma Ends.unique (h : Ends f a) (h' : Ends f a') : a = a' := by
  obtain ⟨n, hn⟩ := h
  obtain ⟨m, hm⟩ := h'
  have heq := hn m
  rw [Nat.add_comm, hm] at heq
  exact (Option.some.inj heq).symm

lemma Ends.bind (h : Ends f a) (h' : Ends (fun k => g k a) b) : Ends (fun k => (f k).bind (g k)) b := by
  obtain ⟨n, hn⟩ := h
  obtain ⟨m, hm⟩ := h'
  refine ⟨n + m, fun j => ?_⟩
  have hf : f (n + m + j) = some a := by
    rw [Nat.add_assoc]
    exact hn (m + j)
  have hg : g (n + m + j) a = some b := by
    rw [Nat.add_comm n m, Nat.add_assoc]
    exact hm (n + j)
  dsimp only
  rw [hf]
  exact hg

lemma Ends.pure (a : α) : Ends (fun _ => some a) a := ⟨0, fun _ => rfl⟩

end Ends

section Cut

variable {S : Type*} {T : Tables S} {k : ℕ} {ps : Set ℕ} {cdg cdg' : Cdg} {c a : ℕ} {ring : List ℕ}
    {link : CdgLink}

def Unlinks (cdg cdg' : Cdg) (ring : List ℕ) (link : CdgLink) : Prop :=
  ∃ a place, [a, link.node] <:+: ring ∧ (cdg.node a).linklist[place]? = some link ∧ ∀ x, (cdg'.node x).linklist =
    if x = a then (cdg.node x).linklist.eraseIdx place else (cdg.node x).linklist

def numLinks (cdg : Cdg) : ℕ := (cdg.tree.channels.map fun c => (cdg.succ c).length).sum

lemma Unlinks.sublist (h : Unlinks cdg cdg' ring link) (x : ℕ) :
    (cdg'.node x).linklist.Sublist (cdg.node x).linklist := by
  obtain ⟨a, place, -, -, hlinks⟩ := h
  rw [hlinks]
  split_ifs
  · exact List.eraseIdx_sublist _ place
  · exact List.Sublist.refl _

lemma Unlinks.wf (h : Unlinks cdg cdg' ring link) (htree : cdg'.tree = cdg.tree) (hwf : T.Wf k ps cdg) :
    T.Wf k ps cdg' := by
  have hsucc : ∀ x, (cdg'.succ x).Sublist (cdg.succ x) := fun x => (h.sublist x).map CdgLink.node
  refine ⟨⟨htree ▸ hwf.ordered, fun x hx => ?_, fun x w hw => ?_, fun x hx => hwf.loopless x ((hsucc x).subset hx),
    fun x l hl => hwf.listed x l ((h.sublist x).subset hl)⟩, fun sd hsd => htree ▸ hwf.routed sd hsd⟩
  · rw [htree]
    exact hwf.owner x fun hnil => hx (List.sublist_nil.mp (hnil ▸ hsucc x))
  · rw [htree]
    exact hwf.closed x w ((hsucc x).subset hw)

lemma Unlinks.numLinks_lt (h : Unlinks cdg cdg' ring link) (htree : cdg'.tree = cdg.tree) (hwf : T.Wf k ps cdg) :
    numLinks cdg' < numLinks cdg := by
  have hle := fun x => (h.sublist x).length_le
  obtain ⟨a, place, -, hplace, hlinks⟩ := h
  obtain ⟨hlt, hget⟩ := List.getElem?_eq_some_iff.mp hplace
  simp only [numLinks, htree, Cdg.succ, List.length_map]
  refine List.sum_lt_sum _ _ (fun x _ => hle x) ⟨a, hwf.owner a fun hnil => ?_, ?_⟩
  · rw [Cdg.succ, List.map_eq_nil_iff] at hnil
    rw [hnil] at hlt
    cases hlt
  · rw [hlinks, if_pos rfl, List.length_eraseIdx_of_lt hlt]
    exact Nat.sub_lt (Nat.zero_lt_of_lt hlt) Nat.one_pos

/-- The walk along a ring that the search has found comes back, and cuts it. -/
lemma Outcome.cut (h : Outcome T k ps cdg (some c)) : ∃ ring lower cdg' link,
    (c :: ring ++ [c]).IsChain (Edge cdg.succ) ∧ (∀ v ∈ c :: ring, cdg.status v = .gray) ∧
      Ends (fun n => getWeakestLinkInCycle n cdg c) (cdg', link) ∧ Unlinks cdg cdg' (c :: ring ++ [c]) link ∧
      At T k ps cdg' c lower ∧ cdg'.tree = cdg.tree := by
  obtain ⟨cur, below, hat, hcur, hopen, hgray⟩ := h
  obtain ⟨upper, lower, hsplit, hchain, hring⟩ := hat.search.ring hcur hopen hgray
  have hedge : (c :: upper.reverse ++ [c]).IsChain (Edge cdg.succ) :=
      hchain.imp fun x y hxy => (firstOpen_spec hxy).1
  have hnodup : (c :: upper.reverse).Nodup := by
    have hpre : upper ++ [c] <+: cur :: below := ⟨lower, by rw [hsplit, List.append_assoc, List.singleton_append]⟩
    have hrev := List.nodup_reverse.mpr (hat.search.nodup.sublist hpre.sublist)
    rwa [List.reverse_append, List.reverse_singleton, List.singleton_append] at hrev
  cases hrev : upper.reverse with
  | nil =>
    rw [hrev] at hedge
    exact absurd (List.isChain_cons_cons.mp hedge).1 (hat.wf.loopless c)
  | cons y rest =>
    rw [hrev] at hchain hring hedge hnodup
    obtain ⟨hfirst, hrest⟩ := List.isChain_cons_cons.mp hchain
    obtain ⟨hc, hnodup⟩ := List.nodup_cons.mp hnodup
    have hblack : ∀ w, cdg.status w = .black → cdg.status w ≠ .gray := fun w hw hg => by rw [hw] at hg; cases hg
    obtain ⟨l, hl, hleads⟩ :=
        firstGray_spec rfl hfirst hblack (hring y (List.mem_cons_of_mem c List.mem_cons_self))
    obtain ⟨weakest, hrun, hweak⟩ := @weakestLoop_spec cdg c y cdg.status cdg.succ l rest rfl hrest hnodup
        hc hring hblack
    have hlead : ∃ a b, [a, b] <:+: c :: y :: rest ++ [c] ∧ weakest.Leads cdg a b := by
      rcases hweak with rfl | ⟨a, b, hin, hlead⟩
      · exact ⟨c, y, ⟨[], rest ++ [c], rfl⟩, hleads⟩
      · exact ⟨a, b, hin.trans (List.suffix_cons c _).isInfix, hlead⟩
    obtain ⟨a, b, hin, rfl, rfl, hplace⟩ := hlead
    have hunlinks : Unlinks cdg ((forgetAll cdg (y :: rest ++ [c])).setLinks weakest.owner
        (·.eraseIdx weakest.place))
        (c :: y :: rest ++ [c]) weakest.link :=
      ⟨weakest.owner, weakest.place, hin, hplace, fun x => by rw [linklist_setLinks, linklist_forgetAll]⟩
    have hmem : ∀ v, v ∈ y :: rest ++ [c] ↔ v ∈ upper ++ [c] := by
      intro v
      rw [← hrev, List.mem_append, List.mem_append, List.mem_reverse]
    have hnodup' := hat.search.nodup
    rw [hsplit, ← List.singleton_append, ← List.append_assoc] at hnodup'
    have howner : weakest.owner ∈ upper ++ [c] := by
      rw [← hmem]
      rcases List.mem_cons.mp (hin.subset List.mem_cons_self) with heq | hmem'
      · rw [heq]
        exact List.mem_append_right _ List.mem_cons_self
      · exact hmem'
    refine ⟨y :: rest, lower, _, weakest.link, hedge, hring, ⟨rest.length + 1, fun j => ?_⟩, hunlinks,
      ⟨hunlinks.wf (sameGraph_forgetAll _).tree hat.wf,
          (sameGraph_forgetAll _).visited.trans hat.quiet, ?_, ?_, ?_⟩,
      (sameGraph_forgetAll _).tree⟩
    · dsimp only
      rw [getWeakestLinkInCycle, hl, Option.bind_some, hleads.node, hrun]
      rfl
    · rw [pre_setLinks, pre_forgetAll]
      apply hat.search.forget hcur hsplit
      · exact fun v => ((hunlinks.sublist v).map CdgLink.node).subset
      · intro v hv
        have hne : v ≠ weakest.owner := fun heq => List.disjoint_of_nodup_append hnodup' howner (heq ▸ hv)
        rw [Cdg.succ, linklist_setLinks, if_neg hne, linklist_forgetAll, Cdg.succ]
      · intro v hv
        rw [status_setLinks, status_forgetAll, if_pos ((hmem v).mpr hv)]
      · intro v hv
        rw [status_setLinks, status_forgetAll, if_neg fun h => hv ((hmem v).mp h)]
    · intro v p hp
      rw [pre_setLinks, pre_forgetAll] at hp
      rw [tree_setLinks, (sameGraph_forgetAll _).tree]
      exact hat.pre_mem v p hp
    · rw [tree_setLinks, (sameGraph_forgetAll _).tree]
      exact hat.wf.closed cur c (firstOpen_spec hopen).1

end Cut

def Cdg.Acyclic (cdg : Cdg) : Prop := ∀ c, ¬ Relation.TransGen (Edge cdg.succ) c c

/-- The node is on a cycle of gray nodes; the walk from it comes back, and one edge of the cycle goes. -/
def Broken (cdg : Cdg) (c : ℕ) : Prop :=
  ∃ ring cdg' link, (c :: ring ++ [c]).IsChain (Edge cdg.succ) ∧ (∀ v ∈ c :: ring, cdg.status v = .gray) ∧
    Ends (fun n => getWeakestLinkInCycle n cdg c) (cdg', link) ∧ Unlinks cdg cdg' (c :: ring ++ [c]) link

/-- The lane and the node with which a round of the loop starts. -/
inductive Tables.Reached {S : Type*} (T : Tables S) (testVl : ℕ) (st₀ : Lanes) : Lanes → ℕ → Prop
  | start {c : ℕ} (h : st₀.cdg.root = some c) : Reached T testVl st₀ st₀ c
  | next {st st' : Lanes} {startHere c : ℕ} (h : Reached T testVl st₀ st startHere)
      (hround : Ends (fun n => T.breakCycle testVl n st startHere) (st', some c)) : Reached T testVl st₀ st' c

section Run

variable {S : Type*} {T : Tables S} {k testVl : ℕ} {ps : Set ℕ} {cdg next : Cdg} {st st₀ : Lanes} {sd cur c : ℕ}
    {below : List ℕ}

def Tables.Built (T : Tables S) (k : ℕ) (cdg : Cdg) : Prop := (∃ ps, T.Wf k ps cdg) ∧ Fresh cdg

lemma movePair_spec (hwf : T.Wf k ps st.cdg) (hnext : T.Built k st.next) (hsd : sd ∈ ps) :
    ∃ st', (∀ n ≥ k, T.movePair testVl n st sd = some st') ∧ Same st.cdg st'.cdg ∧ T.Built k st'.next := by
  by_cases hvl : testVl ≠ st.vl (sd / 65536) (sd % 65536)
  · refine ⟨st, fun n _ => ?_, .refl st.cdg, hnext⟩
    rw [Tables.movePair, if_pos hvl]
  · obtain ⟨cs, hcs, hlen, -⟩ := hwf.routed sd hsd
    obtain ⟨cdg', hremove, hsame⟩ := hwf.remove hsd
    obtain ⟨⟨ps', hwf'⟩, hfresh⟩ := hnext
    obtain ⟨next', hupdate, hwf'', hfresh'⟩ := hwf'.update (Nat.mod_lt sd (by decide)) hcs hlen
    refine ⟨⟨cdg', next', Function.update st.vl (sd / 65536)
      (Function.update (st.vl (sd / 65536)) (sd % 65536) (testVl + 1))⟩, fun n hn => ?_, hsame, ⟨_, hwf''⟩,
          hfresh' hfresh⟩
    rw [Tables.movePair, if_neg hvl, hremove n hn, hupdate n hn]
    rfl

lemma movePairs_spec {sds : List ℕ} (hwf : T.Wf k ps st.cdg) (hnext : T.Built k st.next)
    (hsds : ∀ sd ∈ sds, sd ∈ ps) :
    ∃ st', (∀ n ≥ k, sds.foldlM (T.movePair testVl n) st = some st') ∧ Same st.cdg st'.cdg ∧
        T.Built k st'.next := by
  induction sds generalizing st with
  | nil => exact ⟨st, fun _ _ => rfl, .refl st.cdg, hnext⟩
  | cons sd sds ih =>
    obtain ⟨hsd, hsds⟩ := List.forall_mem_cons.mp hsds
    obtain ⟨mid, hmid, hsame, hbuilt⟩ := @movePair_spec S T k testVl ps st sd hwf hnext hsd
    obtain ⟨st', hrun, hsame', hbuilt'⟩ := ih (hwf.same hsame.toSameGraph) hbuilt hsds
    refine ⟨st', fun n hn => ?_, hsame.trans hsame', hbuilt'⟩
    rw [List.foldlM_cons, hmid n hn]
    exact hrun n hn

lemma numLinks_same {cdg' : Cdg} (h : SameGraph cdg cdg') : numLinks cdg' = numLinks cdg := by
  rw [numLinks, numLinks, h.tree, h.succ]

lemma At.same {cdg' : Cdg} (h : At T k ps cdg cur below) (hs : Same cdg cdg') : At T k ps cdg' cur below := by
  refine h.move hs.toSameGraph ?_ h.cur_mem fun c p hp => .inl (hs.pre ▸ hp)
  rw [hs.status, hs.pre]
  exact h.search

lemma Outcome.acyclic (hwf : T.Wf k ps cdg) (h : Outcome T k ps cdg none) : cdg.Acyclic := by
  obtain ⟨hfinished, hall⟩ := h
  refine hfinished.acyclic_of_all fun v => ?_
  by_cases hv : v ∈ cdg.tree.channels
  · exact .inl (hall v hv)
  · right
    by_contra hne
    exact hv (hwf.owner v hne)

lemma breakCycle_spec (h : At T k ps st.cdg cur below) (hnext : T.Built k st.next) :
    ∃ found, (Ends (fun n => searchCycleInChannelDepGraph n st.cdg cur) (found, none) ∧ found.Acyclic ∧
        Ends (fun n => T.breakCycle testVl n st cur) ({ st with cdg := found }, none)) ∨
      ∃ c st' lower, Ends (fun n => searchCycleInChannelDepGraph n st.cdg cur) (found, some c) ∧ Broken found c ∧
        Ends (fun n => T.breakCycle testVl n st cur) (st', some c) ∧ At T k ps st'.cdg c lower ∧
            T.Built k st'.next ∧
        numLinks st'.cdg < numLinks st.cdg := by
  obtain ⟨n, found, res, hrun, hsame, hout⟩ := searchLoop_spec h
  have hends : Ends (fun n => searchCycleInChannelDepGraph n st.cdg cur) (found, res) := ⟨n, hrun⟩
  refine ⟨found, ?_⟩
  cases res with
  | none =>
    refine .inl ⟨hends, hout.acyclic (h.wf.same hsame), ?_⟩
    exact hends.bind (.pure _)
  | some c =>
    obtain ⟨ring, lower, cut, link, hchain, hgray, hweak, hunlinks, hat, htree⟩ := hout.cut
    have hlink : ∀ sd ∈ link.srcdestPairs, sd ∈ ps := by
      obtain ⟨a, place, -, hplace, -⟩ := hunlinks
      exact (h.wf.same hsame).listed a link (List.mem_of_getElem? hplace)
    obtain ⟨st', hmoves, hsame', hbuilt⟩ := @movePairs_spec S T k testVl ps { st with cdg := cut }
      link.srcdestPairs hat.wf hnext hlink
    refine .inr ⟨c, st', lower, hends, ⟨ring, cut, link, hchain, hgray, hweak, hunlinks⟩, ?_,
        hat.same hsame', hbuilt, ?_⟩
    · refine hends.bind (hweak.bind (Ends.bind ⟨k, fun j => hmoves (k + j) (Nat.le_add_right k j)⟩ (.pure _)))
    · rw [numLinks_same hsame'.toSameGraph, ← numLinks_same hsame]
      exact hunlinks.numLinks_lt htree (h.wf.same hsame)

lemma breakCycles_ends (h : At T k ps st.cdg cur below) (hnext : T.Built k st.next) :
    ∃ n out, ∀ i j, T.breakCycles testVl (n + i) (n + j) st (some cur) = some out := by
  induction hm : numLinks st.cdg using Nat.strong_induction_on generalizing st cur below with
  | _ m ih =>
    subst hm
    obtain ⟨found, ⟨-, -, n, hn⟩ | ⟨c, st', lower, -, -, ⟨n, hn⟩, hat, hbuilt, hlt⟩⟩ :=
      @breakCycle_spec S T k testVl ps st cur below h hnext <;> dsimp only at hn
    · refine ⟨n + 2, { st with cdg := found }, fun i j => ?_⟩
      have hfuel : n + 2 + i = n + (2 + i) := Nat.add_assoc n 2 i
      have hrounds : n + 2 + j = n + j + 1 + 1 := by omega
      rw [hrounds, Tables.breakCycles, hfuel, hn, Option.bind_some]
      rfl
    · obtain ⟨n', out, hout⟩ := ih _ hlt hat hbuilt rfl
      refine ⟨n + n' + 1, out, fun i j => ?_⟩
      have hfuel : n + n' + 1 + i = n + (n' + 1 + i) := by omega
      have hrounds : n + n' + 1 + j = n' + (n + j) + 1 := by omega
      rw [hrounds, Tables.breakCycles, hfuel, hn, Option.bind_some, ← hfuel]
      have hrest : n + n' + 1 + i = n' + (n + 1 + i) := by omega
      rw [hrest]
      exact hout (n + 1 + i) (n + j)

lemma at_root (hbuilt : T.Built k cdg) (hroot : cdg.root = some c) : ∃ ps, At T k ps cdg c [] := by
  obtain ⟨⟨ps, hwf⟩, hfresh⟩ := hbuilt
  have hmem : c ∈ cdg.tree.channels := by
    rw [Cdg.root] at hroot
    cases ht : cdg.tree with
    | nil =>
      rw [ht] at hroot
      cases hroot
    | node l x r =>
      rw [ht] at hroot
      cases hroot
      exact List.mem_cons_self
  have hstatus : ∀ v s, s ≠ .unknown → cdg.status v ≠ s := fun v s hs heq => hs (heq.symm.trans (hfresh.status v))
  refine ⟨ps, hwf, hfresh.visited, ⟨⟨?_, ?_, ?_⟩, List.nodup_singleton c, ?_, ?_, .singleton c,
      fun _ => rfl⟩, ?_, hmem⟩
  · exact fun v hv => absurd hv (hstatus v _ (by decide))
  · exact fun v hv => absurd hv (hstatus v _ (by decide))
  · exact fun v _ => hfresh.pre v
  · exact fun v hv => absurd hv (hstatus v _ (by decide))
  · exact fun v hv => absurd hv List.not_mem_nil
  · intro v p hp
    rw [hfresh.pre v] at hp
    cases hp

lemma reached_at (hbuilt : T.Built k st₀.cdg) (hnext : T.Built k st₀.next) (h : T.Reached testVl st₀ st cur) :
    ∃ ps below, At T k ps st.cdg cur below ∧ T.Built k st.next := by
  induction h with
  | start hroot =>
    obtain ⟨ps, hat⟩ := at_root hbuilt hroot
    exact ⟨ps, [], hat, hnext⟩
  | next _ hround ih =>
    obtain ⟨ps, below, hat, hmid⟩ := ih
    obtain ⟨found, ⟨-, -, hends⟩ | ⟨c, st', lower, -, -, hends, hat', hbuilt', -⟩⟩ :=
      @breakCycle_spec S T k testVl ps _ _ below hat hmid
    · cases hends.unique hround
    · cases hends.unique hround
      exact ⟨ps, lower, hat', hbuilt'⟩

lemma built_of_addPaths {pairs : List (ℕ × ℕ)} (hpairs : ∀ p ∈ pairs, p.2 < 65536)
    (hrun : T.addPaths k pairs .empty = some cdg) : T.Built k cdg := by
  obtain ⟨ps, hwf, hfresh⟩ := Tables.wf_empty.addPaths fresh_empty hpairs hrun
  exact ⟨⟨ps, hwf⟩, hfresh⟩

theorem cycles_broken {pairs pairs' : List (ℕ × ℕ)} (hpairs : ∀ p ∈ pairs, p.2 < 65536)
    (hpairs' : ∀ p ∈ pairs', p.2 < 65536)
    (hcdg : T.addPaths k pairs .empty = some cdg) (hnext : T.addPaths k pairs' .empty = some next)
    (testVl : ℕ) (vl : ℕ → ℕ → ℕ) :
    (∃ n out, ∀ i j, T.breakCycles testVl (n + i) (n + j) ⟨cdg, next, vl⟩ cdg.root = some out) ∧
    ∀ st startHere, T.Reached testVl ⟨cdg, next, vl⟩ st startHere →
      ∃ found cycle, Ends (fun n => searchCycleInChannelDepGraph n st.cdg startHere) (found, cycle) ∧
        (cycle = none → found.Acyclic) ∧ ∀ c, cycle = some c → Broken found c := by
  have hbuilt := built_of_addPaths hpairs hcdg
  have hbuilt' := built_of_addPaths hpairs' hnext
  refine ⟨?_, fun st startHere hreached => ?_⟩
  · cases hroot : cdg.root with
    | none => exact ⟨1, ⟨cdg, next, vl⟩, fun i j => by rw [Nat.add_comm 1 j]; rfl⟩
    | some c =>
      obtain ⟨ps, hat⟩ := at_root hbuilt hroot
      exact @breakCycles_ends S T k testVl ps ⟨cdg, next, vl⟩ c [] hat hbuilt'
  · obtain ⟨ps, below, hat, hmid⟩ := @reached_at S T k testVl st ⟨cdg, next, vl⟩ startHere hbuilt hbuilt' hreached
    obtain ⟨found, ⟨hends, hacyclic, -⟩ | ⟨c, st', lower, hends, hbroken, -⟩⟩ :=
      @breakCycle_spec S T k testVl ps st startHere below hat hmid
    · exact ⟨found, none, hends, fun _ => hacyclic, fun c hc => by cases hc⟩
    · refine ⟨found, some c, hends, fun hnone => (by cases hnone), fun c' hc' => ?_⟩
      cases hc'
      exact hbroken

end Run

inductive RingSwitch
  | a
  | b
  | c
  deriving DecidableEq

namespace RingSwitch

def lid : RingSwitch → ℕ
  | a => 1
  | b => 2
  | c => 3

def after : RingSwitch → RingSwitch
  | a => b
  | b => c
  | c => a

def ofTerminal (lid : ℕ) : Option RingSwitch :=
  if lid = 11 then some a else if lid = 12 then some b else if lid = 13 then some c else none

def tables : Tables RingSwitch where
  lid := lid
  remote := fun s port => if port = 1 then some (s.after, 2) else none
  newLft := fun s dlid => if ofTerminal dlid = some s then 3 else 1
  source := ofTerminal
  lid_inj := by
    intro s r h
    cases s <;> cases r <;> first | rfl | exact absurd h (by decide)
  lid_lt := by
    intro s
    cases s <;> decide
  lft_lt := by
    intro s d
    split_ifs <;> decide
  remote_lt := by
    intro s p r q h
    split_ifs at h
    cases h
    decide

def cdg : Cdg := (tables.addPaths 3 [(11, 13), (12, 11), (13, 12)] .empty).getD .empty

end RingSwitch

open RingSwitch in
theorem cycles_broken_ring :
    (∃ n out, ∀ i j, tables.breakCycles 0 (n + i) (n + j) ⟨cdg, .empty, fun _ _ => 0⟩ cdg.root = some out) ∧
    ∀ st startHere, tables.Reached 0 ⟨cdg, .empty, fun _ _ => 0⟩ st startHere →
      ∃ found cycle, Ends (fun n => searchCycleInChannelDepGraph n st.cdg startHere) (found, cycle) ∧
        (cycle = none → found.Acyclic) ∧ ∀ c, cycle = some c → Broken found c :=
  @cycles_broken _ tables 3 cdg .empty [(11, 13), (12, 11), (13, 12)] [] (by decide)
      (fun p hp => absurd hp List.not_mem_nil)
    rfl rfl 0 fun _ _ => 0

end OpenSM.DfssspCdg
