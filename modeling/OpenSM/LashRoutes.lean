import OpenSM.Lash
import OpenSM.Lib.Bfs
import OpenSM.Lib.Descent
import OpenSM.Lib.Folds

/-! The routing tables of LASH. Every entry comes from the first tree that reaches it, and lies on a shortest path
because every tree is a breadth-first one. -/

namespace OpenSM.Lash

open Lib

variable {n m : ℕ} {f : Fabric n m}

variable (f) in
def switchGraph : SimpleGraph (Fin n) where
  Adj s r := s ≠ r ∧ ∃ p q, f.remote s p = some (.sw r q)
  symm := ⟨fun _ _ ⟨hne, p, q, h⟩ => ⟨hne.symm, q, p, f.remote_symm _ _ _ _ h⟩⟩
  loopless := ⟨fun _ h => h.1 rfl⟩

def ids (sws : Switches n) (s : Fin n) : List (Fin n) := (sws s).links.map Link.switchId

section Links

variable {sws : Switches n} {s r v : Fin n} {port : ℕ}

def Blank (sws : Switches n) : Prop :=
  ∀ v, (sws v).dijChannels = [] ∧ (sws v).qState = .unqueued ∧ ∀ d, (sws v).outLink d = none

lemma map_switchId_modify (links : List (Link n)) (i : ℕ) (linkId : ℤ) :
    (links.modify i fun l => { l with linkId }).map Link.switchId = links.map Link.switchId := by
  induction links generalizing i with
  | nil => simp
  | cons l links ih =>
    cases i with
    | zero => rfl
    | succ i => exact congrArg (l.switchId :: ·) (ih i)

lemma ids_connectSwitches : ids (connectSwitches false sws s r port) v =
    if v = s then ids sws v ++ [r] else ids sws v := by
  rw [connectSwitches]
  simp only [Bool.false_eq_true, false_and, if_false]
  have hset : ∀ i linkId, ids (Function.update sws r ((sws r).setLinkId i linkId)) v = ids sws v := by
    intro i linkId
    by_cases hvr : v = r
    · subst hvr
      rw [ids, ids, Function.update_self]
      exact map_switchId_modify _ i linkId
    · rw [ids, ids, Function.update_of_ne hvr]
  have hadd : ∀ (sws' : Switches n) (l : Link n), ids sws' v = ids sws v →
      ids (Function.update sws' s ((sws' s).addLink l))
          v = if v = s then ids sws v ++ [l.switchId] else ids sws v := by
    intro sws' l hsame
    split_ifs with hvs
    · subst hvs
      rw [← hsame, ids, ids, Function.update_self, Switch.addLink, List.map_append]
      rfl
    · rw [← hsame, ids, ids, Function.update_of_ne hvs]
  split_ifs with hback hvs hvs
  all_goals
    first
    | rw [hadd _ _ (hset _ _), if_pos hvs]
    | rw [hadd _ _ (hset _ _), if_neg hvs]
    | rw [hadd _ _ rfl, if_pos hvs]
    | rw [hadd _ _ rfl, if_neg hvs]

lemma blank_update (h : Blank sws) {sw : Switch n}
    (hsw : sw.dijChannels = [] ∧ sw.qState = .unqueued ∧ ∀ d, sw.outLink d = none) :
    Blank (Function.update sws v sw) := by
  intro u
  by_cases huv : u = v
  · subst huv
    rw [Function.update_self]
    exact hsw
  · rw [Function.update_of_ne huv]
    exact h u

lemma blank_connectSwitches (h : Blank sws) : Blank (connectSwitches false sws s r port) := by
  rw [connectSwitches]
  simp only [Bool.false_eq_true, false_and, if_false]
  split_ifs
  · have h' : Blank (Function.update sws r
        ((sws r).setLinkId (getPhysConnection (sws r) s) (sws s).links.length)) :=
      blank_update h (h r)
    exact blank_update h' (h' s)
  · exact blank_update h (h s)

def farSwitch (f : Fabric n m) (s : Fin n) (port : ℕ) : Option (Fin n) :=
  match f.remote s port with
  | some (.sw r _) => some r
  | _ => none

lemma processPort_spec (h : Blank sws) : Blank (processPort f false s sws port) ∧
    ids (processPort f false s sws port) v =
      if v = s then ids sws v ++ (farSwitch f s port).toList else ids sws v := by
  have hskip : Blank sws ∧
      ids sws v = if v = s then ids sws v ++ (none : Option (Fin n)).toList else ids sws v := by
    rw [Option.toList_none, List.append_nil, ite_self]
    exact ⟨h, rfl⟩
  rw [processPort, farSwitch]
  cases f.remote s port with
  | none => exact hskip
  | some x =>
    cases x with
    | ca e => exact hskip
    | sw r q => exact ⟨blank_connectSwitches h, ids_connectSwitches⟩

lemma processSwitch_spec (h : Blank sws) : Blank (processSwitch f false sws s) ∧
    ids (processSwitch f false sws s) v =
    if v = s then ids sws v ++ (List.range' 1 (f.numPorts s - 1)).filterMap (farSwitch f s) else ids sws v := by
  have hfold := Folds.foldl_handled (processPort f false s) (fun done sws' => Blank sws' ∧
      ids sws' v = if v = s then ids sws v ++ done.filterMap (farSwitch f s) else ids sws v)
    (List.range' 1 (f.numPorts s - 1)) sws ⟨h, by simp⟩ fun done port rest sws' _ hdone => ?_
  · exact hfold
  · obtain ⟨hblank, hids⟩ := @processPort_spec n m f sws' s v port hdone.1
    refine ⟨hblank, ?_⟩
    rw [hids, hdone.2, List.filterMap_append]
    split_ifs
    · rw [List.append_assoc, List.filterMap_cons, List.filterMap_nil]
      cases farSwitch f s port <;> rfl
    · rfl

lemma processSwitches_spec : Blank (processSwitches f false) ∧
    ∀ v, ids (processSwitches f false) v = (List.range' 1 (f.numPorts v - 1)).filterMap (farSwitch f v) := by
  have hfold := Folds.foldl_handled (processSwitch f false) (fun done sws => Blank sws ∧ ∀ v, ids sws v =
      if v ∈ done then (List.range' 1 (f.numPorts v - 1)).filterMap (farSwitch f v) else [])
    (List.finRange n) (fun _ => switchCreate) ⟨fun v => ⟨rfl, rfl, fun d => rfl⟩, fun v => rfl⟩
    fun done s rest sws hl hdone => ?_
  · exact ⟨hfold.1, fun v => (hfold.2 v).trans (if_pos (List.mem_finRange v))⟩
  · have hnodup : s ∉ done := fun hmem => by
      have hn := hl ▸ List.nodup_finRange n
      exact (List.disjoint_of_nodup_append hn) hmem List.mem_cons_self
    refine ⟨(processSwitch_spec (v := s) hdone.1).1, fun v => ?_⟩
    rw [(processSwitch_spec hdone.1).2, hdone.2 v]
    by_cases hvs : v = s
    · subst hvs
      rw [if_pos rfl, if_neg hnodup, if_pos (by simp), List.nil_append]
    · simp only [hvs, if_false, List.mem_append, List.mem_singleton, or_false]

lemma mem_ids_processSwitches : r ∈ ids (processSwitches f false) s ↔ ∃ p q, f.remote s p = some (.sw r q) := by
  rw [processSwitches_spec.2, List.mem_filterMap]
  constructor
  · rintro ⟨p, -, hp⟩
    rw [farSwitch] at hp
    split at hp
    · rename_i r' q hq
      obtain rfl := Option.some.inj hp
      exact ⟨p, q, hq⟩
    · cases hp
  · rintro ⟨p, q, hp⟩
    have hport := f.remote_port s p _ hp
    refine ⟨p, List.mem_range'_1.mpr ⟨hport.1, by omega⟩, ?_⟩
    rw [farSwitch, hp]

end Links

/-- The links lead to the neighbours in a graph, and from a switch back to itself. -/
structure Linked (G : SimpleGraph (Fin n)) (sws : Switches n) : Prop where
  mem : ∀ s r, G.Adj s r → r ∈ ids sws s
  adj : ∀ s r, r ∈ ids sws s → r ≠ s → G.Adj s r

def SameLinks (sws sws' : Switches n) : Prop := ∀ v, (sws' v).links = (sws v).links

variable {G : SimpleGraph (Fin n)} {sws sws' : Switches n} {root u w : Fin n} {st : Switches n × List (Fin n)}

lemma SameLinks.trans {sws₁ sws₂ sws₃ : Switches n} (h : SameLinks sws₁ sws₂) (h' : SameLinks sws₂ sws₃) :
    SameLinks sws₁ sws₃ := fun v => (h' v).trans (h v)

lemma SameLinks.linked (h : SameLinks sws sws') (hl : Linked G sws) : Linked G sws' := by
  have hids : ∀ v, ids sws' v = ids sws v := fun v => congrArg (List.map Link.switchId) (h v)
  exact ⟨fun s r hr => hids s ▸ hl.mem s r hr, fun s r hr => hl.adj s r (hids s ▸ hr)⟩

section Tree

def seen (sws : Switches n) (v : Fin n) : Prop := (sws v).qState ≠ .unqueued

def child (sws : Switches n) (p c : Fin n) : Prop := c ∈ (sws p).dijChannels

def Kept (sws sws' : Switches n) : Prop :=
  ∀ v, (sws' v).links = (sws v).links ∧ (sws' v).outLink = (sws v).outLink

structure Scan (G : SimpleGraph (Fin n)) (root u : Fin n) (sws : Switches n)
    (st : Switches n × List (Fin n)) : Prop where
  search : Bfs.Search G root (seen st.1) (fun v => (st.1 v).qState = .mst ∧ v ≠ u) (child st.1) (u :: st.2)
      (G.dist root u)
  current : (st.1 u).qState = .mst
  marks : ∀ v, (sws v).qState = .mst → (st.1 v).qState = .mst
  kept : Kept sws st.1

lemma Scan.link (hG : G.Connected) (hl : Linked G sws) (h : Scan G root u sws st) {l : Link n}
    (hlink : l ∈ (sws u).links) : Scan G root u sws (scanLink u st l) ∧ seen (scanLink u st l).1 l.switchId ∧
      ∀ v, seen st.1 v → seen (scanLink u st l).1 v := by
  rw [scanLink]
  split_ifs with hnew
  swap
  · exact ⟨h, hnew, fun v hv => hv⟩
  generalize hw : l.switchId = w at hnew ⊢
  have hne : w ≠ u := fun hwu => by
    rw [hwu, h.current] at hnew
    cases hnew
  have hadj : G.Adj u w := hl.adj u w (hw ▸ List.mem_map_of_mem hlink) hne
  set sws' := Function.update (Function.update st.1 w ((st.1 w).setState .member)) u
    ((Function.update st.1 w ((st.1 w).setState .member) u).addChannel w) with hsws'
  have hu : sws' u = (st.1 u).addChannel w := by rw [hsws', Function.update_self, Function.update_of_ne hne.symm]
  have hw' : sws' w = (st.1 w).setState .member := by rw [hsws', Function.update_of_ne hne, Function.update_self]
  have hother : ∀ v, v ≠ u → v ≠ w → sws' v = st.1 v := fun v hvu hvw => by
    rw [hsws', Function.update_of_ne hvu, Function.update_of_ne hvw]
  have hmst : ∀ v, (sws' v).qState = .mst ↔ (st.1 v).qState = .mst := by
    intro v
    by_cases hvu : v = u
    · rw [hvu, hu]
      rfl
    · by_cases hvw : v = w
      · rw [hvw, hw', hnew]
        exact iff_of_false nofun nofun
      · rw [hother v hvu hvw]
  have hseen : ∀ v, seen sws' v ↔ seen st.1 v ∨ v = w := by
    intro v
    by_cases hvw : v = w
    · rw [hvw, seen, hw']
      exact iff_of_true nofun (.inr rfl)
    · rw [or_iff_left hvw]
      by_cases hvu : v = u
      · rw [seen, hvu, hu]
        exact Iff.rfl
      · rw [seen, hother v hvu hvw]
        exact Iff.rfl
  have hchild : ∀ p c, child sws' p c ↔ child st.1 p c ∨ p = u ∧ c = w := by
    intro p c
    by_cases hpu : p = u
    · subst hpu
      rw [child, hu, Switch.addChannel, List.mem_append, List.mem_singleton, child, and_iff_right rfl]
    · rw [or_iff_left fun hh => hpu hh.1]
      by_cases hpw : p = w
      · rw [child, hpw, hw']
        exact Iff.rfl
      · rw [child, hother p hpu hpw]
        exact Iff.rfl
  have hkept : Kept st.1 sws' := by
    intro v
    by_cases hvu : v = u
    · rw [hvu, hu]
      exact ⟨rfl, rfl⟩
    · by_cases hvw : v = w
      · rw [hvw, hw']
        exact ⟨rfl, rfl⟩
      · rw [hother v hvu hvw]
        exact ⟨rfl, rfl⟩
  refine ⟨⟨?_, (hmst u).mpr h.current, fun v hv => (hmst v).mpr (h.marks v hv), fun v => ?_⟩,
    (hseen w).mpr (.inr rfl), fun v hv => (hseen v).mpr (.inl hv)⟩
  · have hunseen : ¬seen st.1 w := fun hs => hs hnew
    exact (h.search.see hG hadj hunseen).congr hseen (fun v => and_congr_left' (hmst v)) hchild
  · exact ⟨(hkept v).1.trans (h.kept v).1, (hkept v).2.trans (h.kept v).2⟩

lemma Scan.links (hG : G.Connected) (hl : Linked G sws) (h : Scan G root u sws st) :
    Scan G root u sws ((sws u).links.foldl (scanLink u) st) ∧
      ∀ l ∈ (sws u).links, seen ((sws u).links.foldl (scanLink u) st).1 l.switchId := by
  refine Folds.foldl_handled (scanLink u) (fun done st => Scan G root u sws st ∧ ∀ l ∈ done, seen st.1 l.switchId)
    (sws u).links st ⟨h, nofun⟩ fun done l rest st hlist hdone => ?_
  obtain ⟨hscan, hseen, hmono⟩ := hdone.1.link hG hl (l := l) (by rw [hlist]; simp)
  refine ⟨hscan, fun l' hl' => ?_⟩
  rcases List.mem_append.mp hl' with hl' | hl'
  · exact hmono _ (hdone.2 l' hl')
  · exact List.mem_singleton.mp hl' ▸ hseen

structure Round (G : SimpleGraph (Fin n)) (root : Fin n) (sws : Switches n)
    (st : Switches n × List (Fin n)) : Prop where
  search : ∃ k, Bfs.Search G root (seen st.1) (fun v => (st.1 v).qState = .mst) (child st.1) st.2 k
  kept : Kept sws st.1

def ahead (st : Switches n × List (Fin n)) : ℕ := (Finset.univ.filter fun v => (st.1 v).qState ≠ .mst).card

lemma Round.body (hG : G.Connected) (hl : Linked G sws) (h : Round G root sws st) {st' : Switches n × List (Fin n)}
    (hbody : searchBody st = some st') : Round G root sws st' ∧ ahead st' < ahead st := by
  obtain ⟨sws₀, queue⟩ := st
  cases queue with
  | nil => cases hbody
  | cons u rest =>
    obtain rfl := Option.some.inj hbody
    obtain ⟨⟨k, hsearch⟩, hkept⟩ := h
    dsimp only at hsearch hkept
    obtain ⟨hseen, hopen⟩ := (hsearch.waiting_iff u).mp List.mem_cons_self
    set sws₁ := Function.update sws₀ u ((sws₀ u).setState .mst) with hsws₁
    have hu : sws₁ u = (sws₀ u).setState .mst := Function.update_self _ _ _
    have hother : ∀ v, v ≠ u → sws₁ v = sws₀ v := fun v hv => Function.update_of_ne hv _ _
    have hkept₁ : Kept sws sws₁ := fun v => by
      by_cases hv : v = u
      · rw [hv, hu]
        exact hkept u
      · rw [hother v hv]
        exact hkept v
    have hmst : (sws₁ u).qState = .mst := by
      rw [hu]
      rfl
    have hsearch₁ : Bfs.Search G root (seen sws₁) (fun v => (sws₁ v).qState = .mst ∧
        v ≠ u) (child sws₁) (u :: rest)
        (G.dist root u) := by
      refine (hsearch.relevel hG).congr (fun v => ?_) (fun v => ?_) fun p c => ?_
      · by_cases hv : v = u
        · subst hv
          rw [seen, hu]
          exact iff_of_true nofun hseen
        · rw [seen, hother v hv]
          exact Iff.rfl
      · by_cases hv : v = u
        · subst hv
          exact iff_of_false (fun hh => hh.2 rfl) hopen
        · rw [hother v hv]
          exact and_iff_left hv
      · by_cases hp : p = u
        · rw [child, hp, hu]
          exact Iff.rfl
        · rw [child, hother p hp]
          exact Iff.rfl
    have hstart : Scan G root u sws₁ (sws₁, rest) := ⟨hsearch₁, hmst, fun v hv => hv, fun v => ⟨rfl, rfl⟩⟩
    have hsame : SameLinks sws sws₁ := fun v => (hkept₁ v).1
    have hlinks : (sws₀ u).links = (sws₁ u).links := by rw [hu]; rfl
    obtain ⟨hscan, hall⟩ := hstart.links hG (hsame.linked hl)
    rw [hlinks]
    generalize (sws₁ u).links.foldl (scanLink u) (sws₁, rest) = st' at hscan hall
    refine ⟨⟨⟨_, (hscan.search.close ?_).congr (fun v => Iff.rfl) (fun v => ?_) fun p c => Iff.rfl⟩,
        fun v => ?_⟩, ?_⟩
    · intro w hw
      obtain ⟨l, hmem, rfl⟩ := List.mem_map.mp ((hsame.linked hl).mem u w hw)
      exact hall l hmem
    · by_cases hv : v = u
      · subst hv
        exact iff_of_true hscan.current (.inr rfl)
      · rw [or_iff_left hv, and_iff_left hv]
    · exact ⟨(hscan.kept v).1.trans (hkept₁ v).1, (hscan.kept v).2.trans (hkept₁ v).2⟩
    · refine Finset.card_lt_card (Finset.ssubset_iff_of_subset (fun v hv => ?_) |>.mpr ⟨u, ?_, ?_⟩)
      · rw [Finset.mem_filter] at hv ⊢
        refine ⟨Finset.mem_univ v, fun hm => hv.2 (hscan.marks v ?_)⟩
        by_cases hvu : v = u
        · rw [hvu, hu]
          rfl
        · rw [hother v hvu]
          exact hm
      · exact Finset.mem_filter.mpr ⟨Finset.mem_univ u, hopen⟩
      · exact fun hm => (Finset.mem_filter.mp hm).2 hscan.current

structure Tree (G : SimpleGraph (Fin n)) (root : Fin n) (sws : Switches n) : Prop where
  edge : ∀ p c, child sws p c → G.Adj p c ∧ G.dist root c = G.dist root p + 1
  parent : ∀ c, c ≠ root → ∃ p, child sws p c

lemma shortestPath_spec (hG : G.Connected) (hl : Linked G sws)
    (hfresh : ∀ v, (sws v).dijChannels = [] ∧ (sws v).qState = .unqueued) (root : Fin n) :
    ∃ sws', shortestPath sws root = some sws' ∧ Kept sws sws' ∧ Tree G root sws' := by
  set sws₁ := Function.update sws root ((sws root).setState .member) with hsws₁
  have hu : sws₁ root = (sws root).setState .member := Function.update_self _ _ _
  have hother : ∀ v, v ≠ root → sws₁ v = sws v := fun v hv => Function.update_of_ne hv _ _
  have hsearch₁ : Bfs.Search G root (seen sws₁) (fun v => (sws₁ v).qState = .mst) (child sws₁) [root] 0 := by
    refine Bfs.Search.init.congr (fun v => ?_) (fun v => ?_) fun p c => ?_
    · by_cases hv : v = root
      · rw [seen, hv, hu]
        exact iff_of_true nofun rfl
      · rw [seen, hother v hv, (hfresh v).2]
        exact iff_of_false (not_not.mpr rfl) hv
    · by_cases hv : v = root
      · rw [hv, hu]
        exact iff_of_false nofun id
      · rw [hother v hv, (hfresh v).2]
        exact iff_of_false nofun id
    · by_cases hp : p = root
      · rw [child, hp, hu, Switch.setState, (hfresh root).1]
        exact iff_of_false List.not_mem_nil id
      · rw [child, hother p hp, (hfresh p).1]
        exact iff_of_false List.not_mem_nil id
  have hkept₁ : Kept sws sws₁ := fun v => by
    by_cases hv : v = root
    · rw [hv, hu]
      exact ⟨rfl, rfl⟩
    · rw [hother v hv]
      exact ⟨rfl, rfl⟩
  have hstart : Round G root sws (sws₁, [root]) := ⟨⟨0, hsearch₁⟩, hkept₁⟩
  have hrounds : ahead (sws₁, [root]) ≤ n := (Finset.card_filter_le _ _).trans (Finset.card_fin n).le
  obtain ⟨st, hdrive, ⟨⟨k, hsearch⟩, hkept⟩, hdone⟩ :=
    Drive.drive_spec (fun s s' hs hb => hs.body hG hl hb) n hstart hrounds
  have hnil : st.2 = [] := by
    cases hq : st.2 with
    | nil => rfl
    | cons u rest => simp [searchBody, hq] at hdone
  rw [hnil] at hsearch
  refine ⟨st.1, by rw [shortestPath, hdrive]; rfl, hkept, hsearch.tree, fun c hc => ?_⟩
  exact hsearch.parent c (hsearch.all_seen hG c) hc

end Tree

section Routes

variable {s d next : Fin n} {dest : List (Fin n)}

def Toward (G : SimpleGraph (Fin n)) (sws : Switches n) : Prop :=
  ∀ s d link, (sws s).outLink d = some link →
    ∃ l, (sws s).links[link]? = some l ∧ G.dist l.switchId d + 1 = G.dist s d

structure Grown (G : SimpleGraph (Fin n)) (sws sws' : Switches n) : Prop where
  links : SameLinks sws sws'
  tree : ∀ v, (sws' v).dijChannels = (sws v).dijChannels
  entry : ∀ s d, (sws s).outLink d ≠ none → (sws' s).outLink d ≠ none
  toward : Toward G sws'

lemma Grown.refl (h : Toward G sws) : Grown G sws sws := ⟨fun _ => rfl, fun _ => rfl, fun _ _ h => h, h⟩

lemma Grown.trans {sws₁ sws₂ sws₃ : Switches n} (h : Grown G sws₁ sws₂) (h' : Grown G sws₂ sws₃) :
    Grown G sws₁ sws₃ :=
  ⟨h.links.trans h'.links, fun v => (h'.tree v).trans (h.tree v),
      fun s d hs => h'.entry s d (h.entry s d hs), h'.toward⟩

lemma getPhysConnection_spec (h : next ∈ ids sws s) :
    ∃ l, (sws s).links[getPhysConnection (sws s) next]? = some l ∧ l.switchId = next := by
  obtain ⟨l, hl, rfl⟩ := List.mem_map.mp h
  have hlt : (sws s).links.findIdx (fun l' => l'.switchId = l.switchId) < (sws s).links.length :=
    List.findIdx_lt_length_of_exists ⟨l, hl, by simp⟩
  exact ⟨_, List.getElem?_eq_getElem hlt, by simpa using List.findIdx_getElem (w := hlt)⟩

lemma routeVia_spec (ht : Toward G sws) (hnext : next ∈ ids sws s) (hdist : G.dist next d + 1 = G.dist s d) :
    Grown G sws (routeVia s next sws d) ∧ (routeVia s next sws d s).outLink d ≠ none := by
  set sws' := routeVia s next sws d with hsws'
  have hs : sws' s = (sws s).setOutLink d (getPhysConnection (sws s) next) := Function.update_self _ _ _
  have hother : ∀ v, v ≠ s → sws' v = sws v := fun v hv => Function.update_of_ne hv _ _
  have hd : (sws' s).outLink d = some (((sws s).outLink d).getD (getPhysConnection (sws s) next)) := by
    rw [hs]
    exact Function.update_self _ _ _
  have hd' : ∀ x, x ≠ d → (sws' s).outLink x = (sws s).outLink x := fun x hx => by
    rw [hs]
    exact Function.update_of_ne hx _ _
  have hlinks : SameLinks sws sws' := fun v => by
    by_cases hv : v = s
    · rw [hv, hs]
      rfl
    · rw [hother v hv]
  refine ⟨⟨hlinks, fun v => ?_, fun v x hx => ?_,
      fun v x link hlink => ?_⟩, by rw [hd]; exact Option.some_ne_none _⟩
  · by_cases hv : v = s
    · rw [hv, hs]
      rfl
    · rw [hother v hv]
  · by_cases hv : v = s
    · subst hv
      by_cases hxd : x = d
      · rw [hxd, hd]
        exact Option.some_ne_none _
      · rw [hd' x hxd]
        exact hx
    · rw [hother v hv]
      exact hx
  · rw [hlinks v]
    by_cases hv : v = s
    · subst hv
      by_cases hxd : x = d
      · subst hxd
        obtain rfl := Option.some.inj (hd.symm.trans hlink)
        cases hold : (sws v).outLink x with
        | some k => exact ht v x k hold
        | none =>
          obtain ⟨l, hl, hid⟩ := getPhysConnection_spec hnext
          exact ⟨l, hl, hid ▸ hdist⟩
      · rw [hd' x hxd] at hlink
        exact ht v x link hlink
    · rw [hother v hv] at hlink
      exact ht v x link hlink

lemma mem_ids_of_same (h : SameLinks sws sws') (hnext : next ∈ ids sws s) : next ∈ ids sws' s := by
  rw [ids, h s]
  exact hnext

lemma routeVia_foldl (ht : Toward G sws) (hnext : next ∈ ids sws s)
    (hdist : ∀ d ∈ dest, G.dist next d + 1 = G.dist s d) : Grown G sws (dest.foldl (routeVia s next) sws) ∧
      ∀ d ∈ dest, (dest.foldl (routeVia s next) sws s).outLink d ≠ none := by
  refine Folds.foldl_handled (routeVia s next) (fun done sws' => Grown G sws sws' ∧ ∀ d ∈ done,
    (sws' s).outLink d ≠ none) dest sws ⟨.refl ht, nofun⟩ fun done d rest sws' hdest hdone => ?_
  obtain ⟨hgrown, hentry⟩ := routeVia_spec hdone.1.toward (mem_ids_of_same hdone.1.links hnext)
    (hdist d (by rw [hdest]; simp))
  refine ⟨hdone.1.trans hgrown, fun x hx => ?_⟩
  rcases List.mem_append.mp hx with hx | hx
  · exact hgrown.entry s x (hdone.2 x hx)
  · rw [List.mem_singleton.mp hx]
    exact hentry

lemma Grown.linked (h : Grown G sws sws') (hl : Linked G sws) : Linked G sws' := h.links.linked hl

lemma Grown.child_eq (h : Grown G sws sws') : child sws' = child sws := by
  funext p c
  rw [child, child, h.tree p]

lemma Grown.treeOf (h : Grown G sws sws') (ht : Tree G root sws) : Tree G root sws' := by
  constructor
  · rw [h.child_eq]
    exact ht.edge
  · rw [h.child_eq]
    exact ht.parent

/-- The recursion at a switch that is no deeper in the tree than the bound allows. -/
def Generates (G : SimpleGraph (Fin n)) (root : Fin n) (depth : ℕ) : Prop :=
  ∀ {sws : Switches n} {s : Fin n}, Linked G sws → Tree G root sws → Toward G sws → n ≤ depth + G.dist root s →
    ∃ sws' dest, generateRoutingFuncForMst depth sws s = some (sws', dest) ∧ Grown G sws sws' ∧
      (∀ x, x ∈ dest ↔ Relation.ReflTransGen (child sws) s x) ∧ ∀ x ∈ dest, x ≠ s → (sws' s).outLink x ≠ none

structure Below (G : SimpleGraph (Fin n)) (s : Fin n) (sws : Switches n) (cs : List (Fin n))
    (st : Switches n × List (Fin n)) : Prop where
  grown : Grown G sws st.1
  mem : ∀ x, x ∈ st.2 ↔ ∃ c ∈ cs, Relation.ReflTransGen (child sws) c x
  entry : ∀ x ∈ st.2, (st.1 s).outLink x ≠ none

lemma Below.step (hG : G.Connected) (hl : Linked G sws) (htree : Tree G root sws) {depth : ℕ}
    (hgen : Generates G root depth) (hdepth : n ≤ depth + 1 + G.dist root s) {cs : List (Fin n)} {c : Fin n}
    (h : Below G s sws cs st) (hc : child sws s c) :
    ∃ st', ((generateRoutingFuncForMst depth st.1 c).map fun r => (r.2.foldl (routeVia s c) r.1,
        r.2 ++ st.2)) = some st' ∧
      Below G s sws (cs ++ [c]) st' := by
  obtain ⟨hadj, hdist⟩ := htree.edge s c hc
  obtain ⟨sws', dest, hrun, hgrown, hdest, -⟩ :=
    hgen (h.grown.linked hl) (h.grown.treeOf htree) h.grown.toward (s := c) (by omega)
  rw [h.grown.child_eq] at hdest
  have hgrown' := h.grown.trans hgrown
  have hcloser : ∀ x ∈ dest, G.dist c x + 1 = G.dist s x := fun x hx => by
    have hbelow := (hdest x).mp hx
    have hbelow_c := Bfs.dist_below hG htree.edge hbelow
    have hbelow_s := Bfs.dist_below hG htree.edge (hbelow.head hc)
    omega
  obtain ⟨hvia, hentry⟩ := routeVia_foldl hgrown.toward ((hgrown'.linked hl).mem s c hadj) hcloser
  refine ⟨_, by rw [hrun]; rfl, hgrown'.trans hvia, fun x => ?_, fun x hx => ?_⟩
  · dsimp only
    rw [List.mem_append, hdest, h.mem]
    simp only [List.mem_append, List.mem_singleton, or_and_right, exists_or, exists_eq_left]
    exact or_comm
  · rcases List.mem_append.mp hx with hx | hx
    · exact hentry x hx
    · exact hvia.entry s x (hgrown.entry s x (h.entry x hx))

lemma generates (hG : G.Connected) (root : Fin n) (depth : ℕ) : Generates G root depth := by
  induction depth with
  | zero =>
    intro sws s _ _ _ hdepth
    have hlt := Bfs.dist_lt_card hG root s
    rw [Fintype.card_fin] at hlt
    omega
  | succ depth ih =>
    intro sws s hl htree ht hdepth
    have hrun : ∀ (rest cs : List (Fin n)) (st : Switches n × List (Fin n)), (∀ c ∈ rest, child sws s c) →
        Below G s sws cs st → ∃ st', rest.foldlM (fun st c => (generateRoutingFuncForMst depth st.1 c).map fun r =>
          (r.2.foldl (routeVia s c) r.1, r.2 ++ st.2)) st = some st' ∧ Below G s sws (cs ++ rest) st' := by
      intro rest
      induction rest with
      | nil =>
        intro cs st _ h
        exact ⟨st, rfl, by rwa [List.append_nil]⟩
      | cons c rest ihrest =>
        intro cs st hcs h
        obtain ⟨st₁, hst₁, h₁⟩ := h.step hG hl htree ih hdepth (hcs c List.mem_cons_self)
        obtain ⟨st₂, hst₂, h₂⟩ := ihrest (cs ++ [c]) st₁ (fun x hx => hcs x (List.mem_cons_of_mem c hx)) h₁
        refine ⟨st₂, ?_, by rwa [List.append_assoc] at h₂⟩
        rw [List.foldlM_cons, hst₁]
        exact hst₂
    obtain ⟨st, hst, hbelow⟩ := hrun (sws s).dijChannels [] (sws, []) (fun c hc => hc) ⟨.refl ht, by simp, nofun⟩
    refine ⟨st.1, s :: st.2, by rw [generateRoutingFuncForMst, hst]; rfl, hbelow.grown, fun x => ?_,
      fun x hx hne => ?_⟩
    · rw [List.mem_cons, hbelow.mem, List.nil_append]
      constructor
      · rintro (rfl | ⟨c, hc, hx⟩)
        · exact .refl
        · exact hx.head hc
      · intro hx
        rcases hx.cases_head with rfl | ⟨c, hc, hx⟩
        · exact .inl rfl
        · exact .inr ⟨c, hc, hx⟩
    · exact hbelow.entry x ((List.mem_cons.mp hx).resolve_left hne)

lemma routeRoot_spec (hG : G.Connected) (hl : Linked G sws) (ht : Toward G sws)
    (hfresh : ∀ v, (sws v).dijChannels = [] ∧ (sws v).qState = .unqueued) (root : Fin n) :
    ∃ sws', routeRoot sws root = some sws' ∧ Grown G sws sws' ∧
      (∀ v, (sws' v).dijChannels = [] ∧ (sws' v).qState = .unqueued) ∧ ∀ d, d ≠ root →
          (sws' root).outLink d ≠ none := by
  obtain ⟨sws₁, hpath, hkept, htree⟩ := shortestPath_spec hG hl hfresh root
  have hsame : SameLinks sws sws₁ := fun v => (hkept v).1
  have ht₁ : Toward G sws₁ := fun s d link hlink => by
    rw [(hkept s).2] at hlink
    rw [(hkept s).1]
    exact ht s d link hlink
  obtain ⟨sws₂, dest, hgen, hgrown, hdest, hentry⟩ := generates hG root n (hsame.linked hl) htree ht₁ (by omega)
  have hall : ∀ d, d ∈ dest := fun d => (hdest d).mpr (Bfs.below_root hG htree.edge htree.parent d)
  refine ⟨fun j => (sws₂ j).reset, by rw [routeRoot, hpath]; simp [hgen],
    ⟨fun v => ?_, fun v => ?_, fun s d hs => ?_, ?_⟩, fun v => ⟨rfl, rfl⟩, fun d hd => hentry d (hall d) hd⟩
  · exact (hgrown.links v).trans (hsame v)
  · rw [(hfresh v).1]
    rfl
  · refine hgrown.entry s d ?_
    rw [(hkept s).2]
    exact hs
  · exact hgrown.toward

/-- After the loop over the roots every switch has an entry for every other one. -/
lemma routingTables_spec (hG : G.Connected) (hl : Linked G sws) (hblank : Blank sws) :
    ∃ sws', routingTables sws = some sws' ∧ Grown G sws sws' ∧ ∀ s d, d ≠ s → (sws' s).outLink d ≠ none := by
  have ht : Toward G sws := fun s d link hlink => by
    rw [(hblank s).2.2 d] at hlink
    cases hlink
  have hrun : ∀ (rest done : List (Fin n)) (sws₁ : Switches n), Grown G sws sws₁ →
      (∀ v, (sws₁ v).dijChannels = [] ∧ (sws₁ v).qState = .unqueued) →
      (∀ s ∈ done, ∀ d, d ≠ s → (sws₁ s).outLink d ≠ none) →
      ∃ sws', rest.foldlM routeRoot sws₁ = some sws' ∧ Grown G sws sws' ∧
        ∀ s ∈ done ++ rest, ∀ d, d ≠ s → (sws' s).outLink d ≠ none := by
    intro rest
    induction rest with
    | nil =>
      intro done sws₁ hgrown _ hdone
      exact ⟨sws₁, rfl, hgrown, by rwa [List.append_nil]⟩
    | cons root rest ih =>
      intro done sws₁ hgrown hfresh hdone
      obtain ⟨sws₂, hroot, hgrown₂, hfresh₂, hentry⟩ :=
          routeRoot_spec hG (hgrown.linked hl) hgrown.toward hfresh root
      obtain ⟨sws₃, hrest, hgrown₃, hall⟩ := ih (done ++ [root]) sws₂ (hgrown.trans hgrown₂) hfresh₂
          fun s hs d hd => by
        rcases List.mem_append.mp hs with hs | hs
        · exact hgrown₂.entry s d (hdone s hs d hd)
        · obtain rfl := List.mem_singleton.mp hs
          exact hentry d hd
      refine ⟨sws₃, ?_, hgrown₃, by rwa [List.append_assoc] at hall⟩
      rw [List.foldlM_cons, hroot]
      exact hrest
  obtain ⟨sws', hsws', hgrown, hall⟩ := hrun (List.finRange n) [] sws (.refl ht)
    (fun v => ⟨(hblank v).1, (hblank v).2.1⟩) nofun
  exact ⟨sws', hsws', hgrown, fun s => hall s (List.mem_finRange s)⟩

lemma linked_processSwitches (f : Fabric n m) : Linked (switchGraph f) (processSwitches f false) :=
  ⟨fun _ _ h => mem_ids_processSwitches.mpr h.2, fun _ _ h hne => ⟨hne.symm, mem_ids_processSwitches.mp h⟩⟩

lemma exists_routingTables (hG : (switchGraph f).Connected) :
    ∃ sws, routingTables (processSwitches f false) = some sws :=
  (routingTables_spec hG (linked_processSwitches f) processSwitches_spec.1).imp fun _ h => h.1

lemma exists_route (ht : Toward G sws) (hall : ∀ s d, d ≠ s → (sws s).outLink d ≠ none) (s d : Fin n) :
    ∃ route, (s :: route).IsChain (fun v w => nextSwitch sws v d = some w) ∧
      (s :: route).getLast (List.cons_ne_nil s route) = d ∧ (s :: route).Nodup ∧ route.length = G.dist s d := by
  have hstep : ∀ v, True → v ≠ d → ∃ w, nextSwitch sws v d = some w ∧ True ∧ G.dist w d < G.dist v d ∧
      ∀ route : List (Fin n), route.length = G.dist w d → (w :: route).length = G.dist v d := by
    intro v _ hv
    obtain ⟨link, hlink⟩ := Option.ne_none_iff_exists'.mp (hall v d hv.symm)
    obtain ⟨l, hl, hdist⟩ := ht v d link hlink
    refine ⟨l.switchId, by simp [nextSwitch, hlink, hl], trivial, by omega, fun route hroute => ?_⟩
    rw [List.length_cons, hroute, hdist]
  obtain ⟨route, hchain, hlast, hnodup, hlen, -⟩ := Descent.exists_walk (fun v => G.dist v d) (fun _ => True)
    (fun v route => route.length = G.dist v d) G.dist_self.symm hstep (v := s) trivial
  exact ⟨route, hchain, hlast, hnodup, hlen⟩

/-- The routing tables of a connected fabric are complete, and all routes are shortest ones. -/
theorem routingTables_minimal (hG : (switchGraph f).Connected) :
    ∃ sws, routingTables (processSwitches f false) = some sws ∧ ∀ s d, s ≠ d →
      (∃ link l, (sws s).outLink d = some link ∧ (sws s).links[link]? = some l ∧
        (switchGraph f).dist l.switchId d + 1 = (switchGraph f).dist s d) ∧
      ∃ route, (s :: route).IsChain (fun v w => nextSwitch sws v d = some w) ∧
        (s :: route).getLast (List.cons_ne_nil s route) = d ∧ (s :: route).Nodup ∧
        route.length = (switchGraph f).dist s d := by
  obtain ⟨sws, hsws, hgrown, hall⟩ := routingTables_spec hG (linked_processSwitches f) processSwitches_spec.1
  refine ⟨sws, hsws, fun s d hne => ⟨?_, exists_route hgrown.toward hall s d⟩⟩
  obtain ⟨link, hlink⟩ := Option.ne_none_iff_exists'.mp (hall s d hne.symm)
  obtain ⟨l, hl, hdist⟩ := hgrown.toward s d link hlink
  exact ⟨link, l, hlink, hl, hdist⟩

def ringRemote (k : ℕ) (s : Fin (k + 3)) (p : ℕ) : Option (Remote (k + 3) 0) :=
  if p = 1 then some (.sw (s + 1) 2) else if p = 2 then some (.sw (s - 1) 1) else none

def ring (k : ℕ) : Fabric (k + 3) 0 where
  numPorts _ := 3
  remote := ringRemote k
  attach e := e.elim0
  lid s := s + 1
  maxLidHo _ := k + 3
  hopWf _ _ := 1
  healthy _ _ := true
  caHealthy _ := true
  numPorts_pos _ := by decide
  numPorts_le _ := by decide
  remote_port s p x h := by
    rw [ringRemote] at h
    split_ifs at h <;> omega
  remote_symm s p r q h := by
    rw [ringRemote] at h
    split_ifs at h with h₁ h₂
    · obtain ⟨rfl, rfl⟩ : s + 1 = r ∧ 2 = q := by simpa using h
      simp [ringRemote, h₁]
    · obtain ⟨rfl, rfl⟩ : s - 1 = r ∧ 1 = q := by simpa using h
      simp [ringRemote, h₂]
  remote_ca s p e := e.elim0

lemma connected_ring (k : ℕ) : (switchGraph (ring k)).Connected := by
  have hstep : ∀ i : Fin (k + 2), (switchGraph (ring k)).Adj i.castSucc i.succ := fun i =>
    ⟨Fin.castSucc_lt_succ.ne, 1, 2, by rw [← Fin.coeSucc_eq_succ]; rfl⟩
  have hreach : ∀ s, (switchGraph (ring k)).Reachable 0 s := fun s => by
    induction s using Fin.induction with
    | zero => exact .refl 0
    | succ i ih => exact ih.trans (hstep i).reachable
  exact (SimpleGraph.connected_iff _).mpr ⟨fun s r => (hreach s).symm.trans (hreach r), ⟨0⟩⟩

/-- Six switches: to the one opposite there is no single hop. -/
theorem routingTables_minimal_ring : ∃ sws, routingTables (processSwitches (ring 3) false) = some sws ∧
    ∃ route, (0 :: route).IsChain (fun v w => nextSwitch sws v 3 = some w) ∧
      (0 :: route).getLast (List.cons_ne_nil 0 route) = 3 ∧ 1 < route.length := by
  obtain ⟨sws, hsws, hall⟩ := routingTables_minimal (connected_ring 3)
  obtain ⟨-, route, hchain, hlast, -, hlen⟩ := hall 0 3 (by decide)
  refine ⟨sws, hsws, route, hchain, hlast, ?_⟩
  have hfar : ¬(switchGraph (ring 3)).Adj 0 3 := by
    rintro ⟨-, p, q, hp⟩
    change ringRemote 3 0 p = some (.sw 3 q) at hp
    rw [ringRemote] at hp
    split_ifs at hp
    · exact absurd (Remote.sw.inj (Option.some.inj hp)).1 (by decide)
    · exact absurd (Remote.sw.inj (Option.some.inj hp)).1 (by decide)
  have hpos := (connected_ring 3).pos_dist_of_ne (u := 0) (v := 3) (by decide)
  have hone : (switchGraph (ring 3)).dist 0 3 ≠ 1 := fun h => hfar (SimpleGraph.dist_eq_one_iff_adj.mp h)
  omega

end Routes

end OpenSM.Lash
