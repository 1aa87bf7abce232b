import OpenSM.DfssspCdg

/-! The search for a cycle in the channel dependency graph: the walk through the tree for nodes that were not
seen yet, and the depth-first search. -/

namespace OpenSM.DfssspCdg

open Lib.DepthFirst

inductive Crumb
  | left (channelID : ℕ) (right : CdgTree)
  | right (left : CdgTree) (channelID : ℕ)

def Crumb.close (t : CdgTree) : Crumb → CdgTree
  | .left c r => .node t c r
  | .right l c => .node l c t

section Next

def unvisited (v : ℕ → Bool) : CdgTree → Bool
  | .nil => false
  | .node _ c _ => !v c

def markTop (v : ℕ → Bool) (b : Bool) : CdgTree → ℕ → Bool
  | .nil => v
  | .node _ c _ => Function.update v c b

def cleanNode (v : ℕ → Bool) : CdgTree → ℕ → Bool
  | .nil => v
  | .node l c r => markTop (markTop (Function.update v c false) false l) false r

def cleanUp : (ℕ → Bool) → CdgTree → List Crumb → ℕ → Bool
  | v, t, [] => cleanNode v t
  | v, t, crumb :: up => cleanUp (cleanNode v t) (crumb.close t) up

/-- The first loop of `get_next_cdg_node`, at the node on top of a subtree. -/
def nextLoop (status : ℕ → Status) : ℕ → (ℕ → Bool) → CdgTree → List Crumb → Option ((ℕ → Bool) × Option ℕ)
  | 0, _, _, _ => none
  | _ + 1, v, .nil, _ => some (v, none)
  | k + 1, v, .node l c r, up =>
    let v := Function.update v c true
    if status c = .unknown then some (cleanUp v (.node l c r) up, some c)
    else if unvisited v l then nextLoop status k v l (.left c r :: up)
    else if unvisited v r then nextLoop status k v r (.right l c :: up)
    else
      let v := markTop (markTop v false l) false r
      match up with
      | [] => some (cleanUp v (.node l c r) [], none)
      | crumb :: up => nextLoop status k v (crumb.close (.node l c r)) up

def getNextCdgNode (fuel : ℕ) (cdg : Cdg) : Option (Cdg × Option ℕ) :=
  (nextLoop cdg.status fuel cdg.visited cdg.tree []).map fun res => ({ cdg with visited := res.1 }, res.2)

end Next

section Search

namespace Cdg

variable (cdg : Cdg) (c : ℕ)

def setStatus (s : Status) : Cdg :=
  { cdg with node := Function.update cdg.node c { cdg.node c with status := s } }

def setPre (p : Option ℕ) : Cdg := { cdg with node := Function.update cdg.node c { cdg.node c with pre := p } }

def freePairs : Cdg :=
  cdg.setLinks c fun links => links.map fun link => { link with srcdestPairs := [], removed := 0 }

end Cdg

/-- The loop of `search_cycle_in_channel_dep_graph`. -/
def searchLoop : ℕ → Cdg → Option ℕ → Option (Cdg × Option ℕ)
  | 0, _, _ => none
  | _ + 1, cdg, none => some (cdg, none)
  | k + 1, cdg, some current =>
    let cdg := cdg.setStatus current .gray
    match (cdg.node current).linklist.find? fun link => cdg.status link.node ≠ .black with
    | some link =>
      if cdg.status link.node = .unknown then searchLoop k (cdg.setPre link.node (some current)) (some link.node)
      else some (cdg, some link.node)
    | none =>
      -- found a sink in the graph
      let cdg := (cdg.setStatus current .black).freePairs current
      match cdg.pre current with
      | some p => searchLoop k (cdg.setPre current none) (some p)
      | none => (getNextCdgNode k cdg).bind fun res => searchLoop k res.1 res.2

def searchCycleInChannelDepGraph (fuel : ℕ) (cdg : Cdg) (startNode : ℕ) : Option (Cdg × Option ℕ) :=
  searchLoop fuel cdg (some startNode)

end Search

section Tour

variable {status : ℕ → Status} {v w : ℕ → Bool} {l r t : CdgTree} {b : Bool} {c x : ℕ} {up : List Crumb}

def CdgTree.top : CdgTree → List ℕ
  | .nil => []
  | .node _ c _ => [c]

def CdgTree.family : CdgTree → List ℕ
  | .nil => []
  | .node l c r => c :: (l.top ++ r.top)

lemma top_subset : t.top ⊆ t.channels := by
  cases t with
  | nil => exact List.Subset.refl _
  | node l c r => exact List.cons_subset.mpr ⟨List.mem_cons_self, List.nil_subset _⟩

lemma family_subset : t.family ⊆ t.channels := by
  cases t with
  | nil => exact List.Subset.refl _
  | node l c r =>
    refine List.cons_subset.mpr ⟨List.mem_cons_self, fun x hx => List.mem_cons_of_mem c ?_⟩
    rcases List.mem_append.mp hx with hx | hx
    · exact List.mem_append_left _ (top_subset hx)
    · exact List.mem_append_right _ (top_subset hx)

lemma markTop_apply : markTop v b t x = if x ∈ t.top then b else v x := by
  cases t with
  | nil => rfl
  | node l c r => simp [markTop, CdgTree.top, Function.update_apply]

lemma cleanNode_apply : cleanNode v t x = if x ∈ t.family then false else v x := by
  cases t with
  | nil => rfl
  | node l c r =>
    rw [cleanNode, markTop_apply, markTop_apply, Function.update_apply]
    simp only [CdgTree.family, List.mem_cons, List.mem_append]
    split_ifs <;> tauto

lemma unvisited_eq : unvisited v t = t.top.any fun c => !v c := by
  cases t with
  | nil => rfl
  | node l c r => exact (Bool.or_false _).symm

def Untouched (v : ℕ → Bool) (t : CdgTree) : Prop := ∀ c ∈ t.channels, v c = false

lemma cleanNode_congr (h : ∀ x, x ∉ t.family → w x = v x) : cleanNode w t = cleanNode v t := by
  funext x
  rw [cleanNode_apply, cleanNode_apply]
  split_ifs with hx
  · rfl
  · exact h x hx

lemma cleanNode_untouched (h : Untouched v t) : cleanNode v t = v := by
  funext x
  rw [cleanNode_apply]
  split_ifs with hx
  · exact (h x (family_subset hx)).symm
  · rfl

lemma cleanUp_congr (h : cleanNode w t = cleanNode v t) : cleanUp w t up = cleanUp v t up := by
  cases up with
  | nil => exact h
  | cons crumb up => rw [cleanUp, cleanUp, h]

lemma nextLoop_touch (k : ℕ) :
    nextLoop status k (Function.update v c true) (.node l c r) up = nextLoop status k v (.node l c r) up := by
  cases k with
  | zero => rfl
  | succ k =>
    rw [nextLoop, nextLoop]
    simp only [Function.update_idem]

section Node

variable (hnd : (CdgTree.node l c r).channels.Nodup) (hv : Untouched v (.node l c r)) (hc : status c ≠ .unknown)
include hnd

lemma notMem_left : c ∉ l.channels := fun h => (List.nodup_cons.mp hnd).1 (List.mem_append_left _ h)

lemma notMem_right : c ∉ r.channels := fun h => (List.nodup_cons.mp hnd).1 (List.mem_append_right _ h)

lemma disjoint_sides : l.channels.Disjoint r.channels := List.disjoint_of_nodup_append (List.nodup_cons.mp hnd).2

include hv

lemma untouched_left : Untouched (Function.update v c true) l := by
  intro x hx
  rw [Function.update_of_ne (ne_of_mem_of_not_mem hx (notMem_left hnd))]
  exact hv x (List.mem_cons_of_mem c (List.mem_append_left _ hx))

lemma untouched_right : Untouched (markTop (Function.update v c true) true l) r := by
  intro x hx
  rw [markTop_apply, if_neg fun hl => disjoint_sides hnd (top_subset hl) hx,
    Function.update_of_ne (ne_of_mem_of_not_mem hx (notMem_right hnd))]
  exact hv x (List.mem_cons_of_mem c (List.mem_append_right _ hx))

end Node

def leave (status : ℕ → Status) (k : ℕ) (v : ℕ → Bool) (t : CdgTree) : List Crumb → Option ((ℕ → Bool) × Option ℕ)
  | [] => some (cleanUp v t [], none)
  | crumb :: up => nextLoop status k v (crumb.close t) up

def Passes (status : ℕ → Status) (t : CdgTree) : Prop :=
  ∀ v, Untouched v t → t ≠ .nil → ∃ n, ∀ k up,
      nextLoop status (n + k) v t up = leave status k (markTop v true t) t up

section Marked

variable (c l) in
lemma update_marked : Function.update (markTop (Function.update v c true) true l) c true =
    markTop (Function.update v c true) true l := by
  funext x
  rw [Function.update_apply]
  split_ifs with heq
  · rw [markTop_apply, heq, Function.update_self, ite_self]
  · rfl

lemma unvisited_marked : unvisited (markTop v true t) t = false := by
  rw [unvisited_eq, List.any_eq_false]
  intro x hx
  rw [markTop_apply, if_pos hx]
  decide

lemma unvisited_untouched (hv : Untouched v t) (ht : t ≠ .nil) : unvisited v t = true := by
  cases t with
  | nil => exact absurd rfl ht
  | node l c r =>
    rw [unvisited, hv c List.mem_cons_self]
    rfl

end Marked

lemma pass_left (hnd : (CdgTree.node l c r).channels.Nodup) (hv : Untouched v (.node l c r))
    (hc : status c ≠ .unknown)
    (hl : Passes status l) : ∃ n, ∀ k up, nextLoop status (n + k) v (.node l c r) up =
      nextLoop status k (markTop (Function.update v c true) true l) (.node l c r) up := by
  cases l with
  | nil => exact ⟨0, fun k up => by rw [Nat.zero_add]; exact (nextLoop_touch k).symm⟩
  | node l' c' r' =>
    have huntouched := untouched_left hnd hv
    obtain ⟨n, hn⟩ := hl _ huntouched (fun h => by cases h)
    refine ⟨n + 1, fun k up => ?_⟩
    rw [Nat.add_right_comm, nextLoop]
    dsimp only
    rw [if_neg hc, if_pos (unvisited_untouched huntouched fun h => by cases h), hn]
    rfl

lemma pass_right (hnd : (CdgTree.node l c r).channels.Nodup) (hv : Untouched v (.node l c r))
    (hc : status c ≠ .unknown)
    (hr : Passes status r) : ∃ n, ∀ k up,
      nextLoop status (n + k) (markTop (Function.update v c true) true l) (.node l c r) up =
        nextLoop status k (markTop (markTop (Function.update v c true) true l) true r) (.node l c r) up := by
  cases r with
  | nil => exact ⟨0, fun k up => by rw [Nat.zero_add]; rfl⟩
  | node l' c' r' =>
    have huntouched := untouched_right hnd hv
    obtain ⟨n, hn⟩ := hr _ huntouched (fun h => by cases h)
    refine ⟨n + 1, fun k up => ?_⟩
    rw [Nat.add_right_comm, nextLoop]
    dsimp only
    rw [if_neg hc, update_marked, unvisited_marked, if_neg Bool.false_ne_true,
      if_pos (unvisited_untouched huntouched fun h => by cases h), hn]
    rfl

lemma passes (hnd : t.channels.Nodup) (hseen : ∀ c ∈ t.channels, status c ≠ .unknown) : Passes status t := by
  induction t with
  | nil => exact fun v _ hne => absurd rfl hne
  | node l c r ihl ihr =>
    intro v hv _
    obtain ⟨hc, hrest⟩ := List.forall_mem_cons.mp hseen
    obtain ⟨hndl, hndr, -⟩ := List.nodup_append.mp (List.nodup_cons.mp hnd).2
    obtain ⟨n, hn⟩ := pass_left hnd hv hc (ihl hndl fun x hx => hrest x (List.mem_append_left _ hx))
    obtain ⟨m, hm⟩ := pass_right hnd hv hc (ihr hndr fun x hx => hrest x (List.mem_append_right _ hx))
    have hapart : ∀ x ∈ l.top, x ∉ r.top := fun x hx hx' => disjoint_sides hnd (top_subset hx) (top_subset hx')
    have hmark : Function.update (markTop (markTop (Function.update v c true) true l) true r) c true =
        markTop (markTop (Function.update v c true) true l) true r := by
      funext x
      rw [Function.update_apply]
      split_ifs with heq
      · rw [markTop_apply, markTop_apply, heq, Function.update_self, ite_self, ite_self]
      · rfl
    have hleft : unvisited (markTop (markTop (Function.update v c true) true l) true r) l = false := by
      rw [unvisited_eq, List.any_eq_false]
      intro x hx
      rw [markTop_apply, markTop_apply, if_pos hx, ite_self]
      decide
    have hclean : markTop (markTop (markTop (markTop (Function.update v c true) true l) true r) false l) false r =
        Function.update v c true := by
      funext x
      simp only [markTop_apply]
      split_ifs with hxr hxl
      · exact (untouched_right hnd hv x (top_subset hxr)).symm.trans
          (by rw [markTop_apply, if_neg fun hl => hapart x hl hxr])
      · exact (untouched_left hnd hv x (top_subset hxl)).symm
      · rfl
    refine ⟨n + (m + 1), fun k up => ?_⟩
    rw [Nat.add_assoc, hn, Nat.add_assoc, hm, Nat.add_comm 1 k, nextLoop]
    dsimp only
    rw [if_neg hc, hmark, hleft, if_neg Bool.false_ne_true, unvisited_marked, if_neg Bool.false_ne_true, hclean]
    cases up <;> rfl

/-- The walk finds the first node that was not seen. -/
lemma nextLoop_found (hnd : t.channels.Nodup) (hv : Untouched v t)
    (hfind : t.channels.find? (fun c => status c = .unknown) = some x) :
    ∃ n, ∀ k up, nextLoop status (n + k) v t up = some (cleanUp v t up, some x) := by
  induction t generalizing v with
  | nil => cases hfind
  | node l c r ihl ihr =>
    have hnodup := hnd
    rw [CdgTree.channels, List.nodup_cons, List.nodup_append] at hnodup
    obtain ⟨-, hndl, hndr, -⟩ := hnodup
    by_cases hc : status c = .unknown
    · simp only [CdgTree.channels, List.find?_cons, hc, decide_true] at hfind
      cases hfind
      refine ⟨1, fun k up => ?_⟩
      rw [Nat.add_comm, nextLoop]
      dsimp only
      rw [if_pos hc]
      congr 2
      apply cleanUp_congr
      exact cleanNode_congr fun x hx => Function.update_of_ne (ne_of_mem_of_not_mem List.mem_cons_self hx).symm _ _
    · simp only [CdgTree.channels, List.find?_cons, hc, decide_false, List.find?_append] at hfind
      cases hl : l.channels.find? (fun c => status c = .unknown) with
      | some y =>
        rw [hl] at hfind
        cases hfind
        have huntouched := untouched_left hnd hv
        obtain ⟨n, hn⟩ := ihl hndl huntouched hl
        refine ⟨n + 1, fun k up => ?_⟩
        rw [Nat.add_right_comm, nextLoop]
        dsimp only
        rw [if_neg hc, if_pos (unvisited_untouched huntouched fun h => by rw [h] at hl; cases hl), hn, cleanUp,
          cleanNode_untouched huntouched]
        congr 2
        apply cleanUp_congr
        exact cleanNode_congr fun x hx => Function.update_of_ne
            (ne_of_mem_of_not_mem List.mem_cons_self hx).symm _ _
      | none =>
        rw [hl, Option.none_or] at hfind
        have hseen : ∀ x ∈ l.channels, status x ≠ .unknown := fun x hx =>
          of_decide_eq_false (Bool.eq_false_iff.mpr (List.find?_eq_none.mp hl x hx))
        obtain ⟨m, hm⟩ := pass_left hnd hv hc (passes hndl hseen)
        have huntouched := untouched_right hnd hv
        obtain ⟨n, hn⟩ := ihr hndr huntouched hfind
        refine ⟨m + (n + 1), fun k up => ?_⟩
        rw [Nat.add_assoc, hm, Nat.add_right_comm, nextLoop]
        dsimp only
        rw [if_neg hc, update_marked, unvisited_marked, if_neg Bool.false_ne_true,
          if_pos (unvisited_untouched huntouched fun h => by rw [h] at hfind; cases hfind), hn, cleanUp,
          cleanNode_untouched huntouched]
        congr 2
        apply cleanUp_congr
        refine cleanNode_congr fun y hy => ?_
        rw [markTop_apply, if_neg fun h => hy (List.mem_cons_of_mem c (List.mem_append_left _ h)),
          Function.update_of_ne (ne_of_mem_of_not_mem List.mem_cons_self hy).symm]

lemma getNextCdgNode_spec {cdg : Cdg} (hord : cdg.tree.Ordered) (hquiet : cdg.visited = fun _ => false)
    (hroot : cdg.tree ≠ .nil) : ∃ n, ∀ k, getNextCdgNode (n + k) cdg =
      some (cdg, cdg.tree.channels.find? fun c => cdg.status c = .unknown) := by
  have hv : Untouched cdg.visited cdg.tree := fun c _ => congrFun hquiet c
  cases hfind : cdg.tree.channels.find? fun c => cdg.status c = .unknown with
  | some x =>
    obtain ⟨n, hn⟩ := nextLoop_found hord.nodup hv hfind
    refine ⟨n, fun k => ?_⟩
    rw [getNextCdgNode, hn, cleanUp, cleanNode_untouched hv]
    rfl
  | none =>
    have hseen : ∀ x ∈ cdg.tree.channels, cdg.status x ≠ .unknown := fun x hx =>
      of_decide_eq_false (Bool.eq_false_iff.mpr (List.find?_eq_none.mp hfind x hx))
    obtain ⟨n, hn⟩ := passes hord.nodup hseen cdg.visited hv hroot
    refine ⟨n, fun k => ?_⟩
    have hclean : cleanNode (markTop cdg.visited true cdg.tree) cdg.tree = cdg.visited := by
      refine (cleanNode_congr fun x hx => ?_).trans (cleanNode_untouched hv)
      rw [markTop_apply, if_neg fun htop => hx ?_]
      cases ht : cdg.tree with
      | nil => exact absurd ht hroot
      | node l c r =>
        rw [ht] at htop
        exact List.mem_singleton.mp htop ▸ List.mem_cons_self
    rw [getNextCdgNode, hn, leave, cleanUp, hclean]
    rfl

end Tour

namespace Cdg

variable {cdg : Cdg} {c x : ℕ} {s : Status} {p : Option ℕ}

lemma linklist_setStatus : ((cdg.setStatus c s).node x).linklist = (cdg.node x).linklist := by
  by_cases heq : x = c
  · rw [heq]
    simp [setStatus]
  · simp [setStatus, heq]

lemma linklist_setPre : ((cdg.setPre c p).node x).linklist = (cdg.node x).linklist := by
  by_cases heq : x = c
  · rw [heq]
    simp [setPre]
  · simp [setPre, heq]

@[simp] lemma status_setStatus : (cdg.setStatus c s).status = Function.update cdg.status c s := by
  funext x
  by_cases heq : x = c
  · rw [heq]
    simp [status, setStatus]
  · simp [status, setStatus, heq]

@[simp] lemma pre_setStatus : (cdg.setStatus c s).pre = cdg.pre := by
  funext x
  by_cases heq : x = c
  · rw [heq]
    simp [pre, setStatus]
  · simp [pre, setStatus, heq]

@[simp] lemma status_setPre : (cdg.setPre c p).status = cdg.status := by
  funext x
  by_cases heq : x = c
  · rw [heq]
    simp [status, setPre]
  · simp [status, setPre, heq]

@[simp] lemma pre_setPre : (cdg.setPre c p).pre = Function.update cdg.pre c p := by
  funext x
  by_cases heq : x = c
  · rw [heq]
    simp [pre, setPre]
  · simp [pre, setPre, heq]

lemma sameGraph_of_linklist {cdg' : Cdg} (htree : cdg'.tree = cdg.tree) (hvisited : cdg'.visited = cdg.visited)
    (hlinks : ∀ x, (cdg'.node x).linklist = (cdg.node x).linklist) : SameGraph cdg cdg' := by
  refine ⟨htree, funext fun x => ?_, hvisited, fun x link hlink => ⟨link, hlinks x ▸ hlink, List.Subset.refl _⟩⟩
  rw [succ, hlinks, succ]

lemma sameGraph_setStatus : SameGraph cdg (cdg.setStatus c s) :=
    sameGraph_of_linklist rfl rfl fun _ => linklist_setStatus

lemma sameGraph_setPre : SameGraph cdg (cdg.setPre c p) := sameGraph_of_linklist rfl rfl fun _ => linklist_setPre

lemma same_freePairs : Same cdg (cdg.freePairs c) := by
  refine same_setLinks (fun links => ?_) fun links link' hlink' => ?_
  · rw [List.map_map]
    rfl
  · obtain ⟨link, hlink, rfl⟩ := List.mem_map.mp hlink'
    exact ⟨link, hlink, List.nil_subset _⟩

lemma firstOpen_eq (status : ℕ → Status) : firstOpen cdg.succ status c =
    ((cdg.node c).linklist.find? fun link => status link.node ≠ .black).map CdgLink.node := by
  rw [firstOpen, succ, List.find?_map]
  rfl

end Cdg

section Spec

open Cdg

variable {S : Type*} {T : Tables S} {k : ℕ} {ps : Set ℕ} {cdg cdg' : Cdg} {cur c y : ℕ} {below : List ℕ}

structure At (T : Tables S) (k : ℕ) (ps : Set ℕ) (cdg : Cdg) (cur : ℕ) (below : List ℕ) : Prop where
  wf : T.Wf k ps cdg
  quiet : cdg.visited = fun _ => false
  search : Search cdg.succ cdg.status cdg.pre cur below
  pre_mem : ∀ c p, cdg.pre c = some p → p ∈ cdg.tree.channels
  cur_mem : cur ∈ cdg.tree.channels

lemma At.move (h : At T k ps cdg cur below) (hs : SameGraph cdg cdg') {cur' : ℕ} {below' : List ℕ}
    (hsearch : Search cdg.succ cdg'.status cdg'.pre cur' below') (hcur : cur' ∈ cdg.tree.channels)
    (hpre : ∀ c p, cdg'.pre c = some p → cdg.pre c = some p ∨ p ∈ cdg.tree.channels) : At T k ps cdg'
        cur' below' where
  wf := h.wf.same hs
  quiet := hs.visited.trans h.quiet
  search := hs.succ ▸ hsearch
  pre_mem := by
    intro c p hp
    rw [hs.tree]
    exact (hpre c p hp).elim (h.pre_mem c p) id
  cur_mem := hs.tree ▸ hcur

lemma At.move_left (h : At T k ps cdg cur below) (hs : SameGraph cdg cdg')
    (hpre : cdg'.pre = Function.update cdg.pre cur none)
    {cur' : ℕ} {below' : List ℕ} (hcur : cur' ∈ cdg.tree.channels)
    (hsearch : Search cdg.succ cdg'.status (Function.update cdg.pre cur none) cur' below') : At T k ps cdg'
        cur' below' := by
  refine h.move hs (hpre ▸ hsearch) hcur fun c p hp => .inl ?_
  rw [hpre, Function.update_apply] at hp
  split_ifs at hp
  exact hp

def effort (cdg : Cdg) (cur : ℕ) : ℕ :=
  (cdg.tree.channels.toFinset.filter fun c => cdg.status c = .unknown ∧ c ≠ cur).card +
    2 * (cdg.tree.channels.toFinset.filter fun c => cdg.status c ≠ .black).card +
        if cdg.status cur = .black then 1 else 0

def Outcome (T : Tables S) (k : ℕ) (ps : Set ℕ) (cdg : Cdg) : Option ℕ → Prop
  | none => Finished cdg.succ cdg.status cdg.pre ∧ ∀ c ∈ cdg.tree.channels, cdg.status c = .black
  | some c => ∃ cur below, At T k ps cdg cur below ∧ cdg.status cur = .gray ∧
      firstOpen cdg.succ cdg.status cur = some c ∧ cdg.status c = .gray

lemma effort_lt {a a' b b' : Finset ℕ} {e e' : ℕ} (ha : a' ⊆ a) (hb : b' ⊆ b)
    (h : a' ≠ a ∧ e' ≤ e ∨ b' ≠ b ∧ e' ≤ e + 1) : a'.card + 2 * b'.card + e' < a.card + 2 * b.card + e := by
  have hacard := Finset.card_le_card ha
  have hbcard := Finset.card_le_card hb
  rcases h with ⟨hne, he⟩ | ⟨hne, he⟩
  · have hlt := Finset.card_lt_card (Finset.ssubset_iff_subset_ne.mpr ⟨ha, hne⟩)
    omega
  · have hlt := Finset.card_lt_card (Finset.ssubset_iff_subset_ne.mpr ⟨hb, hne⟩)
    omega

section Effort

variable (htree : cdg'.tree = cdg.tree)
include htree

lemma effort_push (hc : c ∈ cdg.tree.channels) (hs : cdg.status c = .unknown) (hne : c ≠ cur)
    (hcur : cdg.status cur ≠ .black)
    (hstatus : cdg'.status = Function.update cdg.status cur .gray) : effort cdg' c < effort cdg cur := by
  have hsame : cdg'.status c = .unknown := by rw [hstatus, Function.update_of_ne hne, hs]
  rw [effort, effort, htree]
  refine effort_lt (fun x hx => ?_) (fun x hx => ?_) (.inl ⟨fun heq => ?_, ?_⟩)
  · rw [Finset.mem_filter, hstatus] at hx
    obtain ⟨hx, hu, -⟩ := hx
    have hxcur : x ≠ cur := by
      rintro rfl
      rw [Function.update_self] at hu
      cases hu
    rw [Function.update_of_ne hxcur] at hu
    exact Finset.mem_filter.mpr ⟨hx, hu, hxcur⟩
  · rw [Finset.mem_filter, hstatus, ne_eq, black_enter hcur] at hx
    exact Finset.mem_filter.mpr hx
  · have hmem : c ∈ cdg.tree.channels.toFinset.filter fun x => cdg.status x = .unknown ∧ x ≠ cur :=
      Finset.mem_filter.mpr ⟨List.mem_toFinset.mpr hc, hs, hne⟩
    rw [← heq] at hmem
    exact (Finset.mem_filter.mp hmem).2.2 rfl
  · rw [hsame]
    exact Nat.zero_le _

lemma effort_leave (hcur : cur ∈ cdg.tree.channels) (hb : cdg.status cur ≠ .black)
    (hstatus : cdg'.status = Function.update cdg.status cur .black) : effort cdg' c < effort cdg cur := by
  have hother : ∀ x s, s ≠ .black → cdg'.status x = s → x ≠ cur ∧ cdg.status x = s := by
    intro x s hs hx
    rw [hstatus] at hx
    have hne : x ≠ cur := by
      rintro rfl
      rw [Function.update_self] at hx
      exact hs hx.symm
    rw [Function.update_of_ne hne] at hx
    exact ⟨hne, hx⟩
  rw [effort, effort, htree]
  refine effort_lt (fun x hx => ?_) (fun x hx => ?_) (.inr ⟨fun heq => ?_, ?_⟩)
  · obtain ⟨hx, hu, -⟩ := Finset.mem_filter.mp hx
    obtain ⟨hne, hu⟩ := hother x _ (by decide) hu
    exact Finset.mem_filter.mpr ⟨hx, hu, hne⟩
  · obtain ⟨hx, hxb⟩ := Finset.mem_filter.mp hx
    exact Finset.mem_filter.mpr ⟨hx, (hother x _ hxb rfl).2 ▸ hxb⟩
  · have hmem : cur ∈ cdg.tree.channels.toFinset.filter fun x => cdg.status x ≠ .black :=
      Finset.mem_filter.mpr ⟨List.mem_toFinset.mpr hcur, hb⟩
    rw [← heq] at hmem
    obtain ⟨-, hgone⟩ := Finset.mem_filter.mp hmem
    rw [hstatus, Function.update_self] at hgone
    exact hgone rfl
  · split_ifs <;> omega

lemma effort_next (hb : cdg.status cur = .black) (hc : c ∈ cdg.tree.channels) (hs : cdg.status c = .unknown)
    (hstatus : cdg'.status = Function.update cdg.status cur .black) : effort cdg' c < effort cdg cur := by
  have hsame : cdg'.status = cdg.status := by rw [hstatus, ← hb, Function.update_eq_self]
  have hne : c ≠ cur := by
    rintro rfl
    rw [hs] at hb
    cases hb
  rw [effort, effort, htree, hsame]
  refine effort_lt (fun x hx => ?_) (Finset.Subset.refl _) (.inl ⟨fun heq => ?_, ?_⟩)
  · obtain ⟨hx, hu, -⟩ := Finset.mem_filter.mp hx
    refine Finset.mem_filter.mpr ⟨hx, hu, ?_⟩
    rintro rfl
    rw [hu] at hb
    cases hb
  · have hmem : c ∈ cdg.tree.channels.toFinset.filter fun x => cdg.status x = .unknown ∧ x ≠ cur :=
      Finset.mem_filter.mpr ⟨List.mem_toFinset.mpr hc, hs, hne⟩
    rw [← heq] at hmem
    exact (Finset.mem_filter.mp hmem).2.2 rfl
  · rw [hs]
    exact Nat.zero_le _

end Effort

lemma searchLoop_spec (h : At T k ps cdg cur below) :
    ∃ n cdg' res, (∀ j, searchLoop (n + j) cdg (some cur) = some (cdg', res)) ∧ SameGraph cdg cdg' ∧
        Outcome T k ps cdg' res := by
  induction heffort : effort cdg cur using Nat.strong_induction_on generalizing cdg cur below with
  | _ m ih =>
    subst heffort
    have hopen := @firstOpen_eq cdg cur (Function.update cdg.status cur .gray)
    cases hfind : (cdg.node cur).linklist.find? fun link => Function.update cdg.status cur .gray
        link.node ≠ .black with
    | some link =>
      rw [hfind] at hopen
      have hcur := h.search.not_black hopen
      have henter := h.search.enter hcur
      have hself : Function.update cdg.status cur Status.gray cur = .gray := Function.update_self cur _ _
      obtain ⟨hmem, hnb⟩ := firstOpen_spec hopen
      by_cases hu : Function.update cdg.status cur .gray link.node = .unknown
      · have hne : link.node ≠ cur := by
          intro heq
          rw [heq, hself] at hu
          cases hu
        have hold : cdg.status link.node = .unknown := by rwa [Function.update_of_ne hne] at hu
        have hgraph : SameGraph cdg ((cdg.setStatus cur .gray).setPre link.node (some cur)) :=
          sameGraph_setStatus.trans sameGraph_setPre
        have hat : At T k ps ((cdg.setStatus cur .gray).setPre link.node (some cur)) link.node (cur :: below) := by
          refine h.move hgraph ?_ (h.wf.closed cur _ hmem) fun c p hp => ?_
          · rw [status_setPre, status_setStatus, pre_setPre, pre_setStatus]
            exact henter.push hself hopen hu
          · rw [pre_setPre, pre_setStatus, Function.update_apply] at hp
            split_ifs at hp
            · cases hp
              exact .inr h.cur_mem
            · exact .inl hp
        have hless : effort ((cdg.setStatus cur .gray).setPre link.node (some cur)) link.node <
            effort cdg cur :=
          effort_push rfl (h.wf.closed cur _ hmem) hold hne hcur (by rw [status_setPre, status_setStatus])
        obtain ⟨n, cdg', res, hrun, hsame, hout⟩ := ih _ hless hat rfl
        refine ⟨n + 1, cdg', res, fun j => ?_, hgraph.trans hsame, hout⟩
        rw [Nat.add_right_comm, searchLoop]
        simp only [linklist_setStatus, status_setStatus, hfind, hu, if_true]
        exact hrun j
      · have hgray : Function.update cdg.status cur .gray link.node = .gray := by
          cases hs : Function.update cdg.status cur .gray link.node with
          | unknown => exact absurd hs hu
          | gray => rfl
          | black => exact absurd hs hnb
        refine ⟨1, cdg.setStatus cur .gray, some link.node, fun j => ?_, sameGraph_setStatus, cur, below, ?_, ?_⟩
        · rw [Nat.add_comm, searchLoop]
          simp only [linklist_setStatus, status_setStatus, hfind, hu, if_false]
        · refine h.move sameGraph_setStatus ?_ h.cur_mem fun c p hp => .inl ?_
          · rw [status_setStatus, pre_setStatus]
            exact henter
          · rwa [pre_setStatus] at hp
        · rw [status_setStatus, sameGraph_setStatus.succ]
          exact ⟨hself, hopen, hgray⟩
    | none =>
      rw [hfind] at hopen
      have hgraph : SameGraph cdg (((cdg.setStatus cur .gray).setStatus cur .black).freePairs cur) :=
        (sameGraph_setStatus.trans sameGraph_setStatus).trans same_freePairs.toSameGraph
      have hstatus : (((cdg.setStatus cur .gray).setStatus cur .black).freePairs cur).status =
          Function.update cdg.status cur .black := by
        rw [same_freePairs.status, status_setStatus, status_setStatus, Function.update_idem]
      have hpre : (((cdg.setStatus cur .gray).setStatus cur .black).freePairs cur).pre = cdg.pre := by
        rw [same_freePairs.pre, pre_setStatus, pre_setStatus]
      have hrun : ∀ j, searchLoop (j + 1) cdg (some cur) = match cdg.pre cur with
          | some p =>
            searchLoop j
              ((((cdg.setStatus cur .gray).setStatus cur .black).freePairs cur).setPre cur none) (some p)
          | none =>
            (getNextCdgNode j (((cdg.setStatus cur .gray).setStatus cur .black).freePairs cur)).bind fun res =>
              searchLoop j res.1 res.2 := by
        intro j
        rw [searchLoop]
        simp only [linklist_setStatus, status_setStatus, hfind, hpre]
      generalize ((cdg.setStatus cur .gray).setStatus cur .black).freePairs cur = left at hgraph hstatus hpre hrun
      cases hp : cdg.pre cur with
      | some p =>
        rw [hp] at hrun
        have hcur : cdg.status cur ≠ .black := by
          intro hb
          rw [h.search.forgotten cur hb] at hp
          cases hp
        have hgraph' : SameGraph cdg (left.setPre cur none) := hgraph.trans sameGraph_setPre
        have hstatus' : (left.setPre cur none).status = Function.update cdg.status cur .black :=
            status_setPre.trans hstatus
        have hpre' : (left.setPre cur none).pre = Function.update cdg.pre cur none := by rw [pre_setPre, hpre]
        obtain ⟨below', hat⟩ : ∃ below', At T k ps (left.setPre cur none) p below' := by
          cases below with
          | nil =>
            exact ⟨[], h.move_left hgraph' hpre' (h.pre_mem cur p hp) (hstatus' ▸ h.search.restart hopen rfl p)⟩
          | cons y below =>
            obtain ⟨hy, hpop⟩ := h.search.pop hopen
            rw [hp] at hy
            cases hy
            exact ⟨below, h.move_left hgraph' hpre' (h.pre_mem cur p hp) (hstatus' ▸ hpop)⟩
        obtain ⟨n, cdg', res, hgo, hsame, hout⟩ := ih _ (effort_leave hgraph'.tree h.cur_mem hcur hstatus') hat rfl
        refine ⟨n + 1, cdg', res, fun j => ?_, hgraph'.trans hsame, hout⟩
        rw [Nat.add_right_comm, hrun]
        exact hgo j
      | none =>
        rw [hp] at hrun
        have hbelow : below = [] := by
          cases below with
          | nil => rfl
          | cons y below =>
            have hy := (h.search.pop hopen).1
            rw [hp] at hy
            cases hy
        have hkeep : Function.update cdg.pre cur none = cdg.pre := by rw [← hp, Function.update_eq_self]
        have hpre' : left.pre = Function.update cdg.pre cur none := hpre.trans hkeep.symm
        have hroot : left.tree ≠ .nil := by
          intro hnil
          have hmem := h.cur_mem
          rw [← hgraph.tree, hnil] at hmem
          cases hmem
        obtain ⟨n, hn⟩ := getNextCdgNode_spec (hgraph.tree ▸ h.wf.ordered) (hgraph.visited.trans h.quiet) hroot
        cases hnext : left.tree.channels.find? fun c => left.status c = .unknown with
        | some x =>
          have hx := List.mem_of_find?_eq_some hnext
          rw [hgraph.tree] at hx
          have hfound := List.find?_some hnext
          have hu : left.status x = .unknown := of_decide_eq_true hfound
          have hold : cdg.status x = .unknown := by
            rw [hstatus, Function.update_apply] at hu
            split_ifs at hu
            exact hu
          have hlt : effort left x < effort cdg cur := by
            by_cases hb : cdg.status cur = .black
            · exact effort_next hgraph.tree hb hx hold hstatus
            · exact effort_leave hgraph.tree h.cur_mem hb hstatus
          obtain ⟨m, cdg', res, hgo, hsame, hout⟩ := ih _ hlt
            (h.move_left hgraph hpre' hx (hstatus ▸ h.search.restart hopen hbelow x)) rfl
          refine ⟨n + m + 1, cdg', res, fun j => ?_, hgraph.trans hsame, hout⟩
          rw [Nat.add_right_comm, hrun]
          dsimp only
          rw [Nat.add_assoc, hn, hnext, ← Nat.add_assoc, Nat.add_comm n m, Nat.add_assoc]
          exact hgo (n + j)
        | none =>
          refine ⟨n + 1 + 1, left, none, fun j => ?_, hgraph, ?_, fun c hc => ?_⟩
          · rw [Nat.add_right_comm, hrun]
            dsimp only
            rw [Nat.add_right_comm, Nat.add_assoc, hn, hnext, ← Nat.add_assoc]
            rfl
          · rw [hgraph.succ, hstatus, hpre']
            exact h.search.leave hopen
          · have hseen : left.status c ≠ .unknown :=
              of_decide_eq_false (Bool.eq_false_iff.mpr (List.find?_eq_none.mp hnext c hc))
            cases hs : left.status c with
            | unknown => exact absurd hs hseen
            | black => rfl
            | gray =>
              rw [hstatus] at hs
              have hmem := h.search.gray_left hs
              rw [hbelow] at hmem
              cases hmem

end Spec

end OpenSM.DfssspCdg
