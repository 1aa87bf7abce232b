import OpenSM.Fabric
import OpenSM.Lib.DepthFirst

/-! The channel dependency graph of `osm_ucast_dfsssp.c`. Its nodes stand in a binary tree, its edges are lists
of links, and every link knows the paths that go over it. -/

namespace OpenSM.DfssspCdg

open Lib.DepthFirst

structure CdgLink where
  node : ℕ
  srcdestPairs : List ℕ
  removed : ℕ
  deriving DecidableEq

structure CdgNode where
  linklist : List CdgLink
  status : Status
  pre : Option ℕ

def setDefaultCdgNode : CdgNode := ⟨[], .unknown, none⟩

inductive CdgTree
  | nil
  | node (left : CdgTree) (channelID : ℕ) (right : CdgTree)

structure Cdg where
  tree : CdgTree
  node : ℕ → CdgNode
  visited : ℕ → Bool

namespace Cdg

def empty : Cdg := ⟨.nil, fun _ => setDefaultCdgNode, fun _ => false⟩

def root (cdg : Cdg) : Option ℕ :=
  match cdg.tree with
  | .nil => none
  | .node _ c _ => some c

variable (cdg : Cdg) (c : ℕ)

def succ : List ℕ := (cdg.node c).linklist.map CdgLink.node

def status : Status := (cdg.node c).status

def pre : Option ℕ := (cdg.node c).pre

def setLinks (f : List CdgLink → List CdgLink) : Cdg :=
  { cdg with node := Function.update cdg.node c { cdg.node c with linklist := f (cdg.node c).linklist } }

end Cdg

section Build

def CdgLink.numPairs (link : CdgLink) : ℕ := link.srcdestPairs.length

def setNextSrcdestPair (link : CdgLink) (srcdest : ℕ) : CdgLink :=
  if link.numPairs = 0 then { link with srcdestPairs := [srcdest], removed := 0 }
  else { link with srcdestPairs := link.srcdestPairs ++ [srcdest] }

def cdgSearch : CdgTree → ℕ → Bool
  | .nil, _ => false
  | .node l c r, x => if x < c then cdgSearch l x else if c < x then cdgSearch r x else true

def cdgInsert : CdgTree → ℕ → CdgTree
  | .nil, x => .node .nil x .nil
  | .node l c r, x =>
    if x < c then .node (cdgInsert l x) c r else if c < x then .node l c (cdgInsert r x) else .node l c r

def newLink (channel srcdest : ℕ) : CdgLink := setNextSrcdestPair ⟨channel, [], 0⟩ srcdest

def addLink (channel srcdest : ℕ) : List CdgLink → List CdgLink
  | [] => [newLink channel srcdest]
  | link :: links =>
    if link.node = channel then setNextSrcdestPair link srcdest :: links else link :: addLink channel srcdest links

/-- The links of the last channel of a path are changed; those of the dummy before the first channel are freed
anyway. -/
def onLast (cdg : Cdg) (last : Option ℕ) (f : List CdgLink → List CdgLink) : Cdg :=
  match last with
  | none => cdg
  | some c => cdg.setLinks c f

def addChannel (cdg : Cdg) (srcdest : ℕ) (last : Option ℕ) (channel : ℕ) : Cdg :=
  if cdgSearch cdg.tree channel then onLast cdg last (addLink channel srcdest)
  else
    onLast { tree := cdgInsert cdg.tree channel, node := Function.update cdg.node channel setDefaultCdgNode,
             visited := Function.update cdg.visited channel false } last (· ++ [newLink channel srcdest])

end Build

/-- The switches with their LIDs and tables, and the cables between them. -/
structure Tables (S : Type*) where
  lid : S → ℕ
  /-- The switch and the port at the other end of the cable of a port. -/
  remote : S → ℕ → Option (S × ℕ)
  newLft : S → ℕ → ℕ
  source : ℕ → Option S
  lid_inj : Function.Injective lid
  lid_lt : ∀ s, lid s < 65536
  lft_lt : ∀ s d, newLft s d < 256
  remote_lt : ∀ s p r q, remote s p = some (r, q) → q < 256

namespace Tables

variable {S : Type*} (T : Tables S)

def channelID (s : S) (port : ℕ) (r : S) (remotePort : ℕ) : ℕ :=
  T.lid s * 281474976710656 + port * 4294967296 + T.lid r * 65536 + remotePort

/-- The loop of `update_channel_dep_graph`; it ends in an error at a switch without a route. -/
def updateLoop (srcdest dlid : ℕ) : ℕ → Option ℕ → Option S → Cdg → Option Cdg
  | 0, _, _, _ => none
  | _ + 1, _, none, cdg => some cdg
  | k + 1, last, some s, cdg =>
    let port := T.newLft s dlid
    if port = noPath then none
    else
      match T.remote s port with
      | none => some cdg
      | some (r, remotePort) =>
        let channel := T.channelID s port r remotePort
        updateLoop srcdest dlid k (some channel) (some r) (addChannel cdg srcdest last channel)

def updateChannelDepGraph (fuel : ℕ) (cdg : Cdg) (slid dlid : ℕ) : Option Cdg :=
  T.updateLoop (slid * 65536 + dlid) dlid fuel none (T.source slid) cdg

def removePair (channel : ℕ) : List CdgLink → List CdgLink
  | [] => []
  | link :: links =>
    if link.node = channel then { link with removed := (link.removed + 1) % 4294967296 } :: links
    else link :: removePair channel links

/-- The loop of `remove_path_from_cdg`; a channel that is not in the graph is an error. -/
def removeLoop (dlid : ℕ) : ℕ → Option ℕ → Option S → Cdg → Option Cdg
  | 0, _, _, _ => none
  | _ + 1, _, none, cdg => some cdg
  | k + 1, last, some s, cdg =>
    let port := T.newLft s dlid
    if port = noPath then none
    else
      match T.remote s port with
      | none => some cdg
      | some (r, remotePort) =>
        let channel := T.channelID s port r remotePort
        if cdgSearch cdg.tree channel then
          removeLoop dlid k (some channel) (some r) (onLast cdg last (removePair channel))
        else none

def removePathFromCdg (fuel : ℕ) (cdg : Cdg) (slid dlid : ℕ) : Option Cdg :=
  T.removeLoop dlid fuel none (T.source slid) cdg

end Tables

section Tree

namespace CdgTree

def channels : CdgTree → List ℕ
  | .nil => []
  | .node l c r => c :: (l.channels ++ r.channels)

def Ordered : CdgTree → Prop
  | .nil => True
  | .node l c r => (∀ x ∈ l.channels, x < c) ∧ (∀ x ∈ r.channels, c < x) ∧ l.Ordered ∧ r.Ordered

end CdgTree

variable {t : CdgTree} {x y : ℕ}

lemma mem_cdgInsert : y ∈ (cdgInsert t x).channels ↔ y = x ∨ y ∈ t.channels := by
  induction t with
  | nil => simp [cdgInsert, CdgTree.channels]
  | node l c r ihl ihr =>
    rw [cdgInsert]
    split_ifs with hlt hgt
    · simp only [CdgTree.channels, List.mem_cons, List.mem_append, ihl]
      tauto
    · simp only [CdgTree.channels, List.mem_cons, List.mem_append, ihr]
      tauto
    · obtain rfl : x = c := le_antisymm (not_lt.mp hgt) (not_lt.mp hlt)
      simp [CdgTree.channels]

lemma cdgInsert_ordered (h : t.Ordered) : (cdgInsert t x).Ordered := by
  induction t with
  | nil => exact ⟨fun y hy => absurd hy List.not_mem_nil, fun y hy => absurd hy List.not_mem_nil, trivial, trivial⟩
  | node l c r ihl ihr =>
    obtain ⟨hl, hr, hol, hor⟩ := h
    rw [cdgInsert]
    split_ifs with hlt hgt
    · refine ⟨fun y hy => ?_, hr, ihl hol, hor⟩
      rcases mem_cdgInsert.mp hy with rfl | hy
      · exact hlt
      · exact hl y hy
    · refine ⟨hl, fun y hy => ?_, hol, ihr hor⟩
      rcases mem_cdgInsert.mp hy with rfl | hy
      · exact hgt
      · exact hr y hy
    · exact ⟨hl, hr, hol, hor⟩

lemma cdgSearch_iff (h : t.Ordered) : cdgSearch t x = true ↔ x ∈ t.channels := by
  induction t with
  | nil => simp [cdgSearch, CdgTree.channels]
  | node l c r ihl ihr =>
    obtain ⟨hl, hr, hol, hor⟩ := h
    rw [cdgSearch, CdgTree.channels, List.mem_cons, List.mem_append]
    split_ifs with hlt hgt
    · rw [ihl hol]
      refine ⟨fun hx => .inr (.inl hx), ?_⟩
      rintro (rfl | hx | hx)
      · exact absurd hlt (lt_irrefl x)
      · exact hx
      · exact absurd (hr x hx) hlt.not_gt
    · rw [ihr hor]
      refine ⟨fun hx => .inr (.inr hx), ?_⟩
      rintro (rfl | hx | hx)
      · exact absurd hgt (lt_irrefl x)
      · exact absurd (hl x hx) hgt.not_gt
      · exact hx
    · exact ⟨fun _ => .inl (le_antisymm (not_lt.mp hgt) (not_lt.mp hlt)), fun _ => rfl⟩

lemma CdgTree.Ordered.nodup (h : t.Ordered) : t.channels.Nodup := by
  induction t with
  | nil => exact List.nodup_nil
  | node l c r ihl ihr =>
    obtain ⟨hl, hr, hol, hor⟩ := h
    rw [channels, List.nodup_cons, List.mem_append, List.nodup_append]
    refine ⟨?_, ihl hol, ihr hor, fun x hx y hy => ((hl x hx).trans (hr y hy)).ne⟩
    rintro (hc | hc)
    · exact absurd (hl c hc) (lt_irrefl c)
    · exact absurd (hr c hc) (lt_irrefl c)

end Tree

section Shape

namespace Cdg

variable {cdg : Cdg} {c x : ℕ} {f : List CdgLink → List CdgLink}

@[simp] lemma tree_setLinks : (cdg.setLinks c f).tree = cdg.tree := rfl

@[simp] lemma visited_setLinks : (cdg.setLinks c f).visited = cdg.visited := rfl

lemma linklist_setLinks :
    ((cdg.setLinks c f).node x).linklist = if x = c then f (cdg.node x).linklist else (cdg.node x).linklist := by
  by_cases heq : x = c
  · rw [if_pos heq, heq]
    simp [setLinks]
  · rw [if_neg heq]
    simp [setLinks, heq]

@[simp] lemma status_setLinks : (cdg.setLinks c f).status = cdg.status := by
  funext x
  by_cases heq : x = c
  · rw [heq]
    simp [status, setLinks]
  · simp [status, setLinks, heq]

@[simp] lemma pre_setLinks : (cdg.setLinks c f).pre = cdg.pre := by
  funext x
  by_cases heq : x = c
  · rw [heq]
    simp [pre, setLinks]
  · simp [pre, setLinks, heq]

structure Fresh (cdg : Cdg) : Prop where
  status : ∀ c, cdg.status c = .unknown
  pre : ∀ c, cdg.pre c = none
  visited : cdg.visited = fun _ => false

structure Shape (ps : Set ℕ) (cdg : Cdg) : Prop where
  ordered : cdg.tree.Ordered
  owner : ∀ c, cdg.succ c ≠ [] → c ∈ cdg.tree.channels
  closed : ∀ c, ∀ w ∈ cdg.succ c, w ∈ cdg.tree.channels
  loopless : ∀ c, c ∉ cdg.succ c
  listed : ∀ c, ∀ link ∈ (cdg.node c).linklist, ∀ sd ∈ link.srcdestPairs, sd ∈ ps

variable {ps : Set ℕ}

lemma succ_setLinks :
    (cdg.setLinks c f).succ x = if x = c then (f (cdg.node x).linklist).map CdgLink.node else cdg.succ x := by
  rw [succ, linklist_setLinks]
  split_ifs <;> rfl

lemma Shape.setLinks (h : Shape ps cdg) (hc : c ∈ cdg.tree.channels) {channel : ℕ}
    (hchannel : channel ∈ cdg.tree.channels)
    (hne : c ≠ channel) (hnode : ∀ w ∈ (f (cdg.node c).linklist).map CdgLink.node, w = channel ∨ w ∈ cdg.succ c)
    (hlisted : ∀ link ∈ f (cdg.node c).linklist, ∀ sd ∈ link.srcdestPairs, sd ∈ ps) : Shape ps
        (cdg.setLinks c f) := by
  refine ⟨h.ordered, fun x hx => ?_, fun x w hw => ?_, fun x hx => ?_, fun x link hlink sd hsd => ?_⟩
  · rw [succ_setLinks] at hx
    split_ifs at hx with heq
    · exact heq ▸ hc
    · exact h.owner x hx
  · rw [succ_setLinks] at hw
    split_ifs at hw with heq
    · subst heq
      rcases hnode w hw with rfl | hw
      · exact hchannel
      · exact h.closed x w hw
    · exact h.closed x w hw
  · rw [succ_setLinks] at hx
    split_ifs at hx with heq
    · subst heq
      rcases hnode x hx with heq | hx
      · exact hne heq
      · exact h.loopless x hx
    · exact h.loopless x hx
  · rw [linklist_setLinks] at hlink
    split_ifs at hlink with heq
    · exact hlisted link (heq ▸ hlink) sd hsd
    · exact h.listed x link hlink sd hsd

lemma Fresh.setLinks (h : Fresh cdg) : Fresh (cdg.setLinks c f) := by
  refine ⟨fun x => ?_, fun x => ?_, h.visited⟩
  · rw [status_setLinks]
    exact h.status x
  · rw [pre_setLinks]
    exact h.pre x

lemma shape_empty : Shape ps empty where
  ordered := trivial
  owner := fun _ hc => absurd rfl hc
  closed := fun _ _ hw => absurd hw List.not_mem_nil
  loopless := fun _ => List.not_mem_nil
  listed := fun _ _ hlink => absurd hlink List.not_mem_nil

lemma fresh_empty : Fresh empty := ⟨fun _ => rfl, fun _ => rfl, rfl⟩

end Cdg

open Cdg

variable {ps : Set ℕ} {cdg : Cdg} {last : Option ℕ} {channel srcdest : ℕ} {links : List CdgLink}

lemma node_setNextSrcdestPair (link : CdgLink) : (setNextSrcdestPair link srcdest).node = link.node := by
  rw [setNextSrcdestPair]
  split_ifs <;> rfl

lemma pairs_setNextSrcdestPair (link : CdgLink) :
    (setNextSrcdestPair link srcdest).srcdestPairs = link.srcdestPairs ++ [srcdest] := by
  rw [setNextSrcdestPair]
  split_ifs with hzero
  · rw [List.length_eq_zero_iff.mp hzero]
    rfl
  · rfl

lemma addLink_spec : ∀ link ∈ addLink channel srcdest links,
    (link.node = channel ∨ link.node ∈ links.map CdgLink.node) ∧
    ∀ sd ∈ link.srcdestPairs, sd = srcdest ∨ ∃ old ∈ links, sd ∈ old.srcdestPairs := by
  induction links with
  | nil =>
    refine List.forall_mem_singleton.mpr ⟨.inl (node_setNextSrcdestPair _), fun sd hsd => .inl ?_⟩
    rw [newLink, pairs_setNextSrcdestPair] at hsd
    exact List.mem_singleton.mp hsd
  | cons old links ih =>
    rw [addLink]
    split_ifs with heq
    · refine List.forall_mem_cons.mpr ⟨⟨.inl ((node_setNextSrcdestPair old).trans heq), fun sd hsd => ?_⟩,
        fun link hlink => ⟨.inr (List.mem_map_of_mem (List.mem_cons_of_mem old hlink)),
          fun sd hsd => .inr ⟨link, List.mem_cons_of_mem old hlink, hsd⟩⟩⟩
      rw [pairs_setNextSrcdestPair] at hsd
      rcases List.mem_append.mp hsd with hsd | hsd
      · exact .inr ⟨old, List.mem_cons_self, hsd⟩
      · exact .inl (List.mem_singleton.mp hsd)
    · refine List.forall_mem_cons.mpr
        ⟨⟨.inr List.mem_cons_self, fun sd hsd => .inr ⟨old, List.mem_cons_self, hsd⟩⟩, fun link hlink => ?_⟩
      obtain ⟨hnode, hpairs⟩ := ih link hlink
      refine ⟨hnode.imp_right (List.mem_cons_of_mem _), fun sd hsd => (hpairs sd hsd).imp_right ?_⟩
      rintro ⟨link', hlink', hsd'⟩
      exact ⟨link', List.mem_cons_of_mem old hlink', hsd'⟩

lemma appendLink_spec : ∀ link ∈ links ++ [newLink channel srcdest],
    (link.node = channel ∨ link.node ∈ links.map CdgLink.node) ∧
    ∀ sd ∈ link.srcdestPairs, sd = srcdest ∨ ∃ old ∈ links, sd ∈ old.srcdestPairs := by
  intro link hlink
  rcases List.mem_append.mp hlink with hlink | hlink
  · exact ⟨.inr (List.mem_map_of_mem hlink), fun sd hsd => .inr ⟨link, hlink, hsd⟩⟩
  · rw [List.mem_singleton.mp hlink, newLink, pairs_setNextSrcdestPair]
    exact ⟨.inl (node_setNextSrcdestPair _), fun sd hsd => .inl (List.mem_singleton.mp hsd)⟩

lemma onLast_tree {f : List CdgLink → List CdgLink} : (onLast cdg last f).tree = cdg.tree := by
  cases last <;> rfl

lemma Cdg.Shape.onLast (h : Shape ps cdg) (hlast : ∀ c ∈ last, c ∈ cdg.tree.channels ∧ c ≠ channel)
    (hchannel : channel ∈ cdg.tree.channels) (hps : srcdest ∈ ps) {f : List CdgLink → List CdgLink}
    (hf : ∀ links, ∀ link ∈ f links, (link.node = channel ∨ link.node ∈ links.map CdgLink.node) ∧
      ∀ sd ∈ link.srcdestPairs, sd = srcdest ∨ ∃ old ∈ links,
          sd ∈ old.srcdestPairs) : Shape ps (onLast cdg last f) := by
  cases last with
  | none => exact h
  | some c =>
    obtain ⟨hc, hne⟩ := hlast c rfl
    refine h.setLinks hc hchannel hne (fun w hw => ?_) fun link hlink sd hsd => ?_
    · obtain ⟨link, hlink, rfl⟩ := List.mem_map.mp hw
      exact (hf _ link hlink).1
    · rcases (hf _ link hlink).2 sd hsd with rfl | ⟨old, hold, hsd⟩
      · exact hps
      · exact h.listed c old hold sd hsd

lemma Cdg.Fresh.onLast (h : Fresh cdg) {f : List CdgLink → List CdgLink} : Fresh (onLast cdg last f) := by
  cases last with
  | none => exact h
  | some c => exact h.setLinks

lemma mem_addChannel (h : cdg.tree.Ordered) {c : ℕ} :
    c ∈ (addChannel cdg srcdest last channel).tree.channels ↔ c = channel ∨ c ∈ cdg.tree.channels := by
  rw [addChannel]
  split_ifs with hin
  · rw [onLast_tree]
    refine ⟨.inr, ?_⟩
    rintro (rfl | hc)
    · exact (cdgSearch_iff h).mp hin
    · exact hc
  · rw [onLast_tree]
    exact mem_cdgInsert

lemma Cdg.Shape.addChannel (h : Shape ps cdg) (hlast : ∀ c ∈ last, c ∈ cdg.tree.channels ∧ c ≠ channel)
    (hps : srcdest ∈ ps) :
    Shape ps (addChannel cdg srcdest last channel) := by
  rw [DfssspCdg.addChannel]
  split_ifs with hin
  · exact h.onLast hlast ((cdgSearch_iff h.ordered).mp hin) hps fun links => addLink_spec
  · have hnew : channel ∉ cdg.tree.channels := fun hmem => hin ((cdgSearch_iff h.ordered).mpr hmem)
    have hblank : (cdg.node channel).linklist = [] := by
      by_contra hne
      exact hnew (h.owner channel fun hnil => hne (List.map_eq_nil_iff.mp hnil))
    have hlinks : ∀ x, (Function.update cdg.node channel setDefaultCdgNode x).linklist =
        (cdg.node x).linklist := by
      intro x
      by_cases heq : x = channel
      · rw [heq, Function.update_self, hblank]
        rfl
      · rw [Function.update_of_ne heq]
    have hmem : ∀ x ∈ cdg.tree.channels, x ∈ (cdgInsert cdg.tree channel).channels :=
        fun x hx => mem_cdgInsert.mpr (.inr hx)
    refine Shape.onLast ⟨cdgInsert_ordered h.ordered, fun c hc => ?_, fun c w hw => ?_, fun c hc => ?_,
        fun c link hlink => ?_⟩
      (fun c hc => ⟨hmem c (hlast c hc).1, (hlast c hc).2⟩) (mem_cdgInsert.mpr (.inl rfl)) hps
          fun links => appendLink_spec
    · rw [succ, hlinks] at hc
      exact hmem c (h.owner c hc)
    · rw [succ, hlinks] at hw
      exact hmem w (h.closed c w hw)
    · rw [succ, hlinks] at hc
      exact h.loopless c hc
    · rw [hlinks] at hlink
      exact h.listed c link hlink

lemma Cdg.Fresh.addChannel (h : Fresh cdg) : Fresh (addChannel cdg srcdest last channel) := by
  rw [DfssspCdg.addChannel]
  split_ifs with hin
  · exact h.onLast
  · have hnode : ∀ x, (Function.update cdg.node channel setDefaultCdgNode x).status = .unknown ∧
        (Function.update cdg.node channel setDefaultCdgNode x).pre = none := by
      intro x
      by_cases heq : x = channel
      · rw [heq, Function.update_self]
        exact ⟨rfl, rfl⟩
      · rw [Function.update_of_ne heq]
        exact ⟨h.status x, h.pre x⟩
    apply Fresh.onLast
    refine ⟨fun x => (hnode x).1, fun x => (hnode x).2, ?_⟩
    rw [h.visited]
    exact Function.update_eq_self channel fun _ => false

structure Cdg.SameGraph (cdg cdg' : Cdg) : Prop where
  tree : cdg'.tree = cdg.tree
  succ : cdg'.succ = cdg.succ
  visited : cdg'.visited = cdg.visited
  pairs : ∀ c, ∀ link' ∈ (cdg'.node c).linklist, ∃ link ∈ (cdg.node c).linklist,
      link'.srcdestPairs ⊆ link.srcdestPairs

structure Cdg.Same (cdg cdg' : Cdg) : Prop extends SameGraph cdg cdg' where
  status : cdg'.status = cdg.status
  pre : cdg'.pre = cdg.pre

lemma Cdg.SameGraph.refl (cdg : Cdg) : SameGraph cdg cdg :=
    ⟨rfl, rfl, rfl, fun _ link hlink => ⟨link, hlink, List.Subset.refl _⟩⟩

lemma Cdg.SameGraph.trans {a b c : Cdg} (h : SameGraph a b) (h' : SameGraph b c) : SameGraph a c := by
  refine ⟨h'.tree.trans h.tree, h'.succ.trans h.succ, h'.visited.trans h.visited, fun x link hlink => ?_⟩
  obtain ⟨link', hlink', hsub⟩ := h'.pairs x link hlink
  obtain ⟨link'', hlink'', hsub'⟩ := h.pairs x link' hlink'
  exact ⟨link'', hlink'', List.Subset.trans hsub hsub'⟩

lemma Cdg.Same.refl (cdg : Cdg) : Same cdg cdg := ⟨.refl cdg, rfl, rfl⟩

lemma Cdg.Same.trans {a b c : Cdg} (h : Same a b) (h' : Same b c) : Same a c :=
  ⟨h.toSameGraph.trans h'.toSameGraph, h'.status.trans h.status, h'.pre.trans h.pre⟩

lemma Cdg.Shape.same {cdg' : Cdg} (h : Shape ps cdg) (hs : SameGraph cdg cdg') : Shape ps cdg' := by
  refine ⟨hs.tree ▸ h.ordered, fun c hc => ?_, fun c w hw => ?_, fun c hc => ?_, fun c link hlink sd hsd => ?_⟩
  · rw [hs.tree]
    exact h.owner c (hs.succ ▸ hc)
  · rw [hs.tree]
    exact h.closed c w (hs.succ ▸ hw)
  · exact h.loopless c (hs.succ ▸ hc)
  · obtain ⟨old, hold, hsub⟩ := hs.pairs c link hlink
    exact h.listed c old hold sd (hsub hsd)

lemma Cdg.same_setLinks {c : ℕ} {f : List CdgLink → List CdgLink}
    (hnode : ∀ links, (f links).map CdgLink.node = links.map CdgLink.node)
    (hpairs : ∀ links, ∀ link' ∈ f links, ∃ link ∈ links, link'.srcdestPairs ⊆ link.srcdestPairs) :
    Same cdg (cdg.setLinks c f) := by
  refine ⟨⟨rfl, funext fun x => ?_, rfl, fun x link hlink => ?_⟩, status_setLinks, pre_setLinks⟩
  · rw [succ_setLinks]
    split_ifs
    · exact hnode _
    · rfl
  · rw [linklist_setLinks] at hlink
    split_ifs at hlink
    · exact hpairs _ link hlink
    · exact ⟨link, hlink, List.Subset.refl _⟩

end Shape

namespace Tables

open Cdg

variable {S : Type*} (T : Tables S)

inductive Route (dlid : ℕ) : Option S → List ℕ → Prop
  | none : Route dlid none []
  | last {s : S} (hport : T.newLft s dlid ≠ noPath) (hremote : T.remote s (T.newLft s dlid) = Option.none) :
      Route dlid (some s) []
  | cons {s r : S} {q : ℕ} {cs : List ℕ} (hport : T.newLft s dlid ≠ noPath)
      (hremote : T.remote s (T.newLft s dlid) = some (r, q)) (hrest : Route dlid (some r) cs) :
      Route dlid (some s) (T.channelID s (T.newLft s dlid) r q :: cs)

variable {T} {ps : Set ℕ} {cdg cdg' : Cdg} {last : Option ℕ} {s : Option S} {cs : List ℕ} {srcdest dlid k : ℕ}

lemma lid_eq_of_channelID {s r s' r' : S} {p q p' q' : ℕ} (hp : p < 256) (hq : q < 256) (hp' : p' < 256)
    (hq' : q' < 256)
    (h : T.channelID s p r q = T.channelID s' p' r' q') : s = s' := by
  have hr := T.lid_lt r
  have hr' := T.lid_lt r'
  apply T.lid_inj
  rw [channelID, channelID] at h
  omega

lemma Route.not_stay {s : S} {q : ℕ} (h : T.Route dlid (some s) cs) :
    T.remote s (T.newLft s dlid) ≠ some (s, q) := by
  generalize hs : some s = x at h
  induction h generalizing s q with
  | none => cases hs
  | last _ hremote =>
    cases hs
    rw [hremote]
    exact fun hq => by cases hq
  | cons _ hremote _ ih =>
    cases hs
    intro hstay
    rw [hremote] at hstay
    cases hstay
    exact ih rfl hremote

lemma Route.next_ne {s r : S} {q : ℕ} (hremote : T.remote s (T.newLft s dlid) = some (r, q))
    (h : T.Route dlid (some r) cs) :
    ∀ d ∈ cs.head?, T.channelID s (T.newLft s dlid) r q ≠ d := by
  intro d hd heq
  generalize hx : some r = x at h
  cases h with
  | none => cases hx
  | last => cases hd
  | @cons s' r' q' cs hport hremote' hrest =>
    cases hx
    cases hd
    have hsame := lid_eq_of_channelID (T.lft_lt s dlid) (T.remote_lt _ _ _ _ hremote) (T.lft_lt r dlid)
      (T.remote_lt _ _ _ _ hremote') heq
    subst hsame
    exact (Route.cons hport hremote' hrest).not_stay hremote

lemma updateLoop_route (h : T.updateLoop srcdest dlid k last s cdg = some cdg') :
    ∃ cs, T.Route dlid s cs ∧ cs.length < k := by
  induction k generalizing last s cdg with
  | zero => cases h
  | succ k ih =>
    cases s with
    | none => exact ⟨[], .none, Nat.succ_pos k⟩
    | some s =>
      rw [updateLoop] at h
      dsimp only at h
      split_ifs at h with hport
      cases hremote : T.remote s (T.newLft s dlid) with
      | none => exact ⟨[], .last hport hremote, Nat.succ_pos k⟩
      | some r =>
        obtain ⟨r, q⟩ := r
        rw [hremote] at h
        obtain ⟨cs, hcs, hlen⟩ := ih h
        exact ⟨_, .cons hport hremote hcs, Nat.succ_lt_succ hlen⟩

lemma updateLoop_spec (hr : T.Route dlid s cs) (h : Shape ps cdg) (hps : srcdest ∈ ps)
    (hlast : ∀ c ∈ last, c ∈ cdg.tree.channels ∧ ∀ d ∈ cs.head?, c ≠ d) :
    ∃ cdg', (∀ k, cs.length < k → T.updateLoop srcdest dlid k last s cdg = some cdg') ∧ Shape ps cdg' ∧
      (∀ c ∈ cdg.tree.channels, c ∈ cdg'.tree.channels) ∧ (∀ c ∈ cs, c ∈ cdg'.tree.channels) ∧
      (Fresh cdg → Fresh cdg') := by
  induction hr generalizing last cdg with
  | none =>
    refine ⟨cdg, fun k hk => ?_, h, fun _ hc => hc, fun _ hc => absurd hc List.not_mem_nil, id⟩
    obtain ⟨k, rfl⟩ := Nat.exists_eq_add_one_of_ne_zero (Nat.ne_of_gt hk)
    rfl
  | @last s hport hremote =>
    refine ⟨cdg, fun k hk => ?_, h, fun _ hc => hc, fun _ hc => absurd hc List.not_mem_nil, id⟩
    obtain ⟨k, rfl⟩ := Nat.exists_eq_add_one_of_ne_zero (Nat.ne_of_gt hk)
    rw [updateLoop]
    dsimp only
    rw [if_neg hport, hremote]
  | @cons s r q cs hport hremote hrest ih =>
    have hne := hrest.next_ne hremote
    have hmem := @mem_addChannel cdg last (T.channelID s (T.newLft s dlid) r q) srcdest h.ordered
    obtain ⟨cdg', hrun, hshape, hsub, hcs, hfresh⟩ := @ih
      (addChannel cdg srcdest last (T.channelID s (T.newLft s dlid) r q))
          (some (T.channelID s (T.newLft s dlid) r q))
      (h.addChannel (fun c hc => ⟨(hlast c hc).1, (hlast c hc).2 _ rfl⟩) hps)
      (fun c hc => by
        cases hc
        exact ⟨hmem.mpr (.inl rfl), hne⟩)
    refine ⟨cdg', fun k hk => ?_, hshape, fun c hc => hsub c (hmem.mpr (.inr hc)), ?_,
        fun hf => hfresh hf.addChannel⟩
    · obtain ⟨k, rfl⟩ := Nat.exists_eq_add_one_of_ne_zero (Nat.ne_of_gt (Nat.zero_lt_of_lt hk))
      rw [updateLoop]
      dsimp only
      rw [if_neg hport, hremote]
      exact hrun k (Nat.lt_of_succ_lt_succ hk)
    · exact List.forall_mem_cons.mpr ⟨hsub _ (hmem.mpr (.inl rfl)), hcs⟩

lemma removePair_spec (channel : ℕ) (links : List CdgLink) :
    (removePair channel links).map CdgLink.node = links.map CdgLink.node ∧
      ∀ link' ∈ removePair channel links, ∃ link ∈ links, link'.srcdestPairs ⊆ link.srcdestPairs := by
  induction links with
  | nil => exact ⟨rfl, fun link' hlink' => absurd hlink' List.not_mem_nil⟩
  | cons link links ih =>
    rw [removePair]
    split_ifs with heq
    · refine ⟨rfl, List.forall_mem_cons.mpr ⟨⟨link, List.mem_cons_self, List.Subset.refl _⟩,
          fun link' hlink' => ?_⟩⟩
      exact ⟨link', List.mem_cons_of_mem link hlink', List.Subset.refl _⟩
    · refine ⟨?_, List.forall_mem_cons.mpr ⟨⟨link, List.mem_cons_self, List.Subset.refl _⟩,
          fun link' hlink' => ?_⟩⟩
      · rw [List.map_cons, List.map_cons, ih.1]
      · obtain ⟨old, hold, hsub⟩ := ih.2 link' hlink'
        exact ⟨old, List.mem_cons_of_mem link hold, hsub⟩

lemma same_onLast (channel : ℕ) : Same cdg (onLast cdg last (removePair channel)) := by
  cases last with
  | none => exact .refl cdg
  | some c =>
    exact same_setLinks (fun links => (removePair_spec channel links).1)
        fun links => (removePair_spec channel links).2

lemma removeLoop_spec (hr : T.Route dlid s cs) (h : cdg.tree.Ordered) (hcs : ∀ c ∈ cs, c ∈ cdg.tree.channels) :
    ∃ cdg', (∀ k, cs.length < k → T.removeLoop dlid k last s cdg = some cdg') ∧ Same cdg cdg' := by
  induction hr generalizing last cdg with
  | none =>
    refine ⟨cdg, fun k hk => ?_, .refl cdg⟩
    obtain ⟨k, rfl⟩ := Nat.exists_eq_add_one_of_ne_zero (Nat.ne_of_gt hk)
    rfl
  | @last s hport hremote =>
    refine ⟨cdg, fun k hk => ?_, .refl cdg⟩
    obtain ⟨k, rfl⟩ := Nat.exists_eq_add_one_of_ne_zero (Nat.ne_of_gt hk)
    rw [removeLoop]
    dsimp only
    rw [if_neg hport, hremote]
  | @cons s r q cs hport hremote hrest ih =>
    have hsame : Same cdg (onLast cdg last (removePair (T.channelID s (T.newLft s dlid) r q))) := same_onLast _
    obtain ⟨hin, hcs⟩ := List.forall_mem_cons.mp hcs
    obtain ⟨cdg', hrun, hsame'⟩ := @ih (onLast cdg last (removePair (T.channelID s (T.newLft s dlid) r q)))
      (some (T.channelID s (T.newLft s dlid) r q)) (hsame.tree ▸ h) (fun c hc => hsame.tree ▸ hcs c hc)
    refine ⟨cdg', fun k hk => ?_, hsame.trans hsame'⟩
    obtain ⟨k, rfl⟩ := Nat.exists_eq_add_one_of_ne_zero (Nat.ne_of_gt (Nat.zero_lt_of_lt hk))
    rw [removeLoop]
    dsimp only
    rw [if_neg hport, hremote]
    dsimp only
    rw [if_pos ((cdgSearch_iff h).mpr hin)]
    exact hrun k (Nat.lt_of_succ_lt_succ hk)

/-- The paths in `ps` come to an end within `k` rounds, and their channels are in the graph. -/
structure Wf (T : Tables S) (k : ℕ) (ps : Set ℕ) (cdg : Cdg) : Prop extends Shape ps cdg where
  routed : ∀ sd ∈ ps, ∃ cs, T.Route (sd % 65536) (T.source (sd / 65536)) cs ∧ cs.length < k ∧ ∀ c ∈ cs,
      c ∈ cdg.tree.channels

lemma wf_empty : Wf T k ∅ empty := ⟨shape_empty, fun _ hsd => absurd hsd (Set.notMem_empty _)⟩

lemma Wf.same (h : Wf T k ps cdg) (hs : SameGraph cdg cdg') : Wf T k ps cdg' := by
  refine ⟨h.toShape.same hs, fun sd hsd => ?_⟩
  obtain ⟨cs, hcs, hlen, hin⟩ := h.routed sd hsd
  exact ⟨cs, hcs, hlen, fun c hc => hs.tree ▸ hin c hc⟩

lemma code_div {slid dlid : ℕ} (hd : dlid < 65536) : (slid * 65536 + dlid) / 65536 = slid := by omega

lemma code_mod {slid dlid : ℕ} (hd : dlid < 65536) : (slid * 65536 + dlid) % 65536 = dlid := by omega

lemma Wf.update {slid dlid : ℕ} (h : Wf T k ps cdg) (hd : dlid < 65536) (hr : T.Route dlid (T.source slid) cs)
    (hlen : cs.length < k) : ∃ cdg', (∀ k' ≥ k, T.updateChannelDepGraph k' cdg slid dlid = some cdg') ∧
      Wf T k (insert (slid * 65536 + dlid) ps) cdg' ∧ (Fresh cdg → Fresh cdg') := by
  have hshape : Shape (insert (slid * 65536 + dlid) ps) cdg :=
    ⟨h.ordered, h.owner, h.closed, h.loopless, fun c link hlink sd hsd => .inr (h.listed c link hlink sd hsd)⟩
  obtain ⟨cdg', hrun, hshape', hsub, hcs, hfresh⟩ :=
    @updateLoop_spec S T _ cdg none _ cs _ dlid hr hshape (.inl rfl) (fun c hc => by cases hc)
  refine ⟨cdg', fun k' hk => hrun k' (hlen.trans_le hk), ⟨hshape', fun sd hsd => ?_⟩, hfresh⟩
  rcases hsd with rfl | hsd
  · rw [code_div hd, code_mod hd]
    exact ⟨cs, hr, hlen, hcs⟩
  · obtain ⟨cs', hcs', hlen', hin⟩ := h.routed sd hsd
    exact ⟨cs', hcs', hlen', fun c hc => hsub c (hin c hc)⟩

lemma Wf.remove {sd : ℕ} (h : Wf T k ps cdg) (hsd : sd ∈ ps) :
    ∃ cdg', (∀ k' ≥ k, T.removePathFromCdg k' cdg (sd / 65536) (sd % 65536) = some cdg') ∧ Same cdg cdg' := by
  obtain ⟨cs, hcs, hlen, hin⟩ := h.routed sd hsd
  obtain ⟨cdg', hrun, hsame⟩ := @removeLoop_spec S T cdg none _ cs _ hcs h.ordered hin
  exact ⟨cdg', fun k' hk => hrun k' (hlen.trans_le hk), hsame⟩

variable (T) in
def addPaths (fuel : ℕ) (pairs : List (ℕ × ℕ)) (cdg : Cdg) : Option Cdg :=
  pairs.foldlM (fun cdg p => T.updateChannelDepGraph fuel cdg p.1 p.2) cdg

lemma Wf.addPaths {pairs : List (ℕ × ℕ)} (h : Wf T k ps cdg) (hf : Fresh cdg) (hpairs : ∀ p ∈ pairs, p.2 < 65536)
    (hrun : T.addPaths k pairs cdg = some cdg') : ∃ ps', Wf T k ps' cdg' ∧ Fresh cdg' := by
  induction pairs generalizing cdg ps with
  | nil =>
    cases hrun
    exact ⟨ps, h, hf⟩
  | cons p pairs ih =>
    obtain ⟨hp, hpairs⟩ := List.forall_mem_cons.mp hpairs
    rw [Tables.addPaths, List.foldlM_cons, Option.bind_eq_bind, Option.bind_eq_some_iff] at hrun
    obtain ⟨mid, hmid, hrun⟩ := hrun
    obtain ⟨cs, hcs, hlen⟩ := updateLoop_route hmid
    obtain ⟨next, hnext, hwf, hfresh⟩ := h.update hp hcs hlen
    have heq := hnext k le_rfl
    rw [hmid] at heq
    cases heq
    exact ih hwf (hfresh hf) hpairs hrun

end Tables

end OpenSM.DfssspCdg
