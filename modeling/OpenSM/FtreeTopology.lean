import Mathlib

/-! The port groups of a ranked fat-tree fabric and `fabric_validate_topology`, without a root GUID file. -/

namespace OpenSM.Ftree

inductive Direction
  | down
  | same
  | up
deriving DecidableEq

inductive Remote (S : Type)
  | ca (baseLid : ℕ)
  | switch (s : S)
  | router
  | unknown

/-- The fabric after `fabric_rank`, its switches in the order of the table. -/
structure RankedFabric (S : Type) where
  swTbl : List S
  rank : S → ℕ
  lid : S → ℕ
  numPhysp : S → ℕ
  /-- The node and the port at the other end, if the link is healthy. -/
  link : S → ℕ → Option (Remote S × ℕ)
  leafSwitchRank : ℕ

structure Port where
  portNum : ℕ
  remotePortNum : ℕ
deriving DecidableEq

structure PortGroup where
  remoteLid : ℕ
  ports : List Port
deriving DecidableEq

structure Sw where
  rank : ℕ
  lid : ℕ
  downPortGroups : List PortGroup
  siblingPortGroups : List PortGroup
  upPortGroups : List PortGroup
deriving DecidableEq

section Ports

def Sw.groups (sw : Sw) : Direction → List PortGroup
  | .down => sw.downPortGroups
  | .same => sw.siblingPortGroups
  | .up => sw.upPortGroups

def Sw.setGroups (sw : Sw) (gs : List PortGroup) : Direction → Sw
  | .down => { sw with downPortGroups := gs }
  | .same => { sw with siblingPortGroups := gs }
  | .up => { sw with upPortGroups := gs }

def portGroupAddPort (g : PortGroup) (p : Port) : PortGroup :=
  if ∃ q ∈ g.ports, q.portNum = p.portNum then g else { g with ports := g.ports ++ [p] }

def addToGroup (p : Port) (remoteLid : ℕ) : List PortGroup → List PortGroup
  | [] => [portGroupAddPort ⟨remoteLid, []⟩ p]
  | g :: gs => if g.remoteLid = remoteLid then portGroupAddPort g p :: gs else g :: addToGroup p remoteLid gs

def swAddPort (sw : Sw) (p : Port) (remoteLid : ℕ) (direction : Direction) : Sw :=
  sw.setGroups (addToGroup p remoteLid (sw.groups direction)) direction

variable {S : Type} [DecidableEq S] (F : RankedFabric S)

def switchDirection (s t : S) : Direction :=
  if F.rank t < F.rank s then .up else if F.rank s = F.rank t then .same else .down

def constructSwPort (s : S) (sw : Sw) (i : ℕ) : Option Sw :=
  match F.link s i with
  | none => some sw
  | some (.ca baseLid, remotePort) => some (swAddPort sw ⟨i, remotePort⟩ baseLid .down)
  | some (.switch t, remotePort) =>
    -- a loopback is ignored
    if s = t then some sw else some (swAddPort sw ⟨i, remotePort⟩ (F.lid t) (switchDirection F s t))
  | some (.router, _) => some sw
  | some (.unknown, _) => none

def constructSwPorts (s : S) : Option Sw :=
  (List.range' 1 (F.numPhysp s - 1)).foldlM (constructSwPort F s) ⟨F.rank s, F.lid s, [], [], []⟩

def fabricPopulatePorts : Option (List Sw) := F.swTbl.mapM (constructSwPorts F)

end Ports

section Validate

def numPorts (g : PortGroup) : ℕ := g.ports.length

def sameAsReference (treeRank : ℕ) (ref sw : Sw) : Bool :=
  decide (ref.upPortGroups.length = sw.upPortGroups.length) &&
  (sw.rank == treeRank - 1 || ref.downPortGroups.length == sw.downPortGroups.length) &&
  (match ref.upPortGroups with
    | [] => true
    | refGroup :: _ => (List.range sw.upPortGroups.length).all fun i =>
        sw.upPortGroups[i]?.map numPorts = some (numPorts refGroup)) &&
  match ref.downPortGroups with
    | [] => true
    | refGroup :: _ => sw.rank == treeRank - 1 || (List.range sw.downPortGroups.length).all fun _ =>
        sw.downPortGroups[0]?.map numPorts = some (numPorts refGroup)

def validateLoop (treeRank : ℕ) : (ℕ → Option Sw) → List Sw → Bool
  | _, [] => true
  | reference, sw :: sws =>
    match reference sw.rank with
    | none => validateLoop treeRank (Function.update reference sw.rank (some sw)) sws
    | some ref => sameAsReference treeRank ref sw && validateLoop treeRank reference sws

def fabricValidateTopology (leafSwitchRank : ℕ) (sws : List Sw) : Bool :=
  validateLoop (leafSwitchRank + 1) (fun _ => none) sws

end Validate

section Spec

variable {S : Type} [DecidableEq S] (F : RankedFabric S)

def target (s : S) (i : ℕ) : Option (Direction × ℕ) :=
  match F.link s i with
  | some (.ca baseLid, _) => some (.down, baseLid)
  | some (.switch t, _) => if s = t then none else some (switchDirection F s t, F.lid t)
  | _ => none

def portNums (s : S) : List ℕ := List.range' 1 (F.numPhysp s - 1)

def portsTo (s : S) (d : Direction) (lid : ℕ) : List ℕ := (portNums F s).filter (target F s · = some (d, lid))

def neighborLids (s : S) (d : Direction) : Finset ℕ :=
  ((portNums F s).filterMap fun i => (target F s i).bind fun x => if x.1 = d then some x.2 else none).toFinset

structure Documented : Prop where
  upNum : ∀ s ∈ F.swTbl, ∀ t ∈ F.swTbl, F.rank s = F.rank t →
      (neighborLids F s .up).card = (neighborLids F t .up).card
  downNum : ∀ s ∈ F.swTbl, ∀ t ∈ F.swTbl, F.rank s = F.rank t → F.rank s ≠ F.leafSwitchRank →
    (neighborLids F s .down).card = (neighborLids F t .down).card
  upSize : ∀ s ∈ F.swTbl, ∀ t ∈ F.swTbl, F.rank s = F.rank t → ∀ l ∈ neighborLids F s .up,
      ∀ l' ∈ neighborLids F t .up,
    (portsTo F s .up l).length = (portsTo F t .up l').length
  downSize : ∀ s ∈ F.swTbl, ∀ t ∈ F.swTbl, F.rank s = F.rank t → F.rank s ≠ F.leafSwitchRank →
    ∀ l ∈ neighborLids F s .down, ∀ l' ∈ neighborLids F t .down,
      (portsTo F s .down l).length = (portsTo F t .down l').length

/-- `fabric_make_indexing` sorts the arrays of groups. -/
def Indexed (sws sws' : List Sw) : Prop :=
  List.Forall₂ (fun sw sw' => sw'.rank = sw.rank ∧ ∀ d, (sw'.groups d).Perm (sw.groups d)) sws sws'

def Later (sws : List Sw) (ref sw : Sw) : Prop :=
  ∃ l₁ l₂, sws = l₁ ++ sw :: l₂ ∧ l₁.find? (·.rank = sw.rank) = some ref

/-- Other numbers of groups, an upward group that is not like the first one of the reference, or a first
downward group that is not. -/
def Differs (leafSwitchRank : ℕ) (ref sw : Sw) : Prop :=
  ref.upPortGroups.length ≠ sw.upPortGroups.length ∨
    (sw.rank ≠ leafSwitchRank ∧ ref.downPortGroups.length ≠ sw.downPortGroups.length) ∨
    (∃ r ∈ ref.upPortGroups.head?, ∃ g ∈ sw.upPortGroups, numPorts g ≠ numPorts r) ∨
    (sw.rank ≠ leafSwitchRank ∧ ∃ r ∈ ref.downPortGroups.head?, ∃ g ∈ sw.downPortGroups.head?,
        numPorts g ≠ numPorts r)

/-- A switch differs from the first one of its rank. -/
def Noticed (leafSwitchRank : ℕ) (sws : List Sw) : Prop :=
  ∃ ref sw, Later sws ref sw ∧ Differs leafSwitchRank ref sw

/-- Within the first switch of each rank all upward groups are equal in size, and within each switch that is
no leaf all downward ones. -/
def EvenGroups (leafSwitchRank : ℕ) (sws : List Sw) : Prop :=
  (∀ l₁ sw l₂, sws = l₁ ++ sw :: l₂ → (∀ t ∈ l₁, t.rank ≠ sw.rank) →
      ∀ g ∈ sw.upPortGroups, ∀ g' ∈ sw.upPortGroups, numPorts g = numPorts g') ∧
    ∀ sw ∈ sws, sw.rank ≠ leafSwitchRank → ∀ g ∈ sw.downPortGroups, ∀ g' ∈ sw.downPortGroups,
        numPorts g = numPorts g'

end Spec

section Groups

variable {gs : List PortGroup} {g : PortGroup} {p : Port} {lid : ℕ}

@[simp] lemma portGroupAddPort_remoteLid (g : PortGroup) (p : Port) : (portGroupAddPort g p).remoteLid =
    g.remoteLid := by
  rw [portGroupAddPort]
  split_ifs
  · rfl
  · rfl

lemma portGroupAddPort_new (h : p.portNum ∉ g.ports.map Port.portNum) :
    (portGroupAddPort g p).ports.map Port.portNum = g.ports.map Port.portNum ++ [p.portNum] := by
  have hnew : ¬∃ q ∈ g.ports, q.portNum = p.portNum := fun ⟨q, hq, he⟩ => h (he ▸ List.mem_map_of_mem hq)
  rw [portGroupAddPort, if_neg hnew, List.map_append, List.map_singleton]

lemma addToGroup_lids (p : Port) (lid : ℕ) (gs : List PortGroup) :
    (addToGroup p lid gs).map PortGroup.remoteLid =
      if lid ∈ gs.map PortGroup.remoteLid then gs.map PortGroup.remoteLid else gs.map
          PortGroup.remoteLid ++ [lid] := by
  induction gs with
  | nil =>
    rw [addToGroup, List.map_singleton, portGroupAddPort_remoteLid]
    rfl
  | cons g gs ih =>
    rw [addToGroup, List.map_cons]
    by_cases hg : g.remoteLid = lid
    · rw [if_pos hg, if_pos (hg ▸ List.mem_cons_self), List.map_cons, portGroupAddPort_remoteLid]
    · rw [if_neg hg, List.map_cons, ih]
      by_cases hmem : lid ∈ gs.map PortGroup.remoteLid
      · rw [if_pos hmem, if_pos (List.mem_cons_of_mem _ hmem)]
      · rw [if_neg hmem, if_neg fun h => hmem (List.mem_of_ne_of_mem (Ne.symm hg) h)]
        rfl

lemma mem_addToGroup (hnodup : (gs.map PortGroup.remoteLid).Nodup) (h : g ∈ addToGroup p lid gs) :
    (g ∈ gs ∧ g.remoteLid ≠ lid) ∨ (∃ g₀ ∈ gs, g₀.remoteLid = lid ∧ g = portGroupAddPort g₀ p) ∨
      (lid ∉ gs.map PortGroup.remoteLid ∧ g = portGroupAddPort ⟨lid, []⟩ p) := by
  induction gs with
  | nil =>
    rw [addToGroup, List.mem_singleton] at h
    exact .inr (.inr ⟨List.not_mem_nil, h⟩)
  | cons g₀ gs ih =>
    rw [List.map_cons, List.nodup_cons] at hnodup
    rw [addToGroup] at h
    by_cases hg : g₀.remoteLid = lid
    · rw [if_pos hg, List.mem_cons] at h
      rcases h with rfl | h
      · exact .inr (.inl ⟨g₀, List.mem_cons_self, hg, rfl⟩)
      · refine .inl ⟨List.mem_cons_of_mem _ h, fun he => hnodup.1 ?_⟩
        rw [hg, ← he]
        exact List.mem_map_of_mem h
    · rw [if_neg hg, List.mem_cons] at h
      rcases h with rfl | h
      · exact .inl ⟨List.mem_cons_self, hg⟩
      · rcases ih hnodup.2 h with ⟨hmem, hne⟩ | ⟨g₁, hmem, he⟩ | ⟨hnot, he⟩
        · exact .inl ⟨List.mem_cons_of_mem _ hmem, hne⟩
        · exact .inr (.inl ⟨g₁, List.mem_cons_of_mem _ hmem, he⟩)
        · refine .inr (.inr ⟨?_, he⟩)
          rw [List.map_cons, List.mem_cons, not_or]
          exact ⟨Ne.symm hg, hnot⟩

lemma Sw.groups_setGroups (sw : Sw) (gs : List PortGroup) (d d' : Direction) :
    (sw.setGroups gs d).groups d' = if d' = d then gs else sw.groups d' := by
  cases d
  all_goals
    cases d'
    all_goals rfl

lemma Sw.rank_setGroups (sw : Sw) (gs : List PortGroup) (d : Direction) : (sw.setGroups gs d).rank = sw.rank := by
  cases d
  all_goals rfl

end Groups

section Populate

variable {S : Type} [DecidableEq S] {F : RankedFabric S} {s : S} {is : List ℕ} {sw sw' : Sw}

structure Built (F : RankedFabric S) (s : S) (is : List ℕ) (sw : Sw) : Prop where
  rank : sw.rank = F.rank s
  nodup : ∀ d, ((sw.groups d).map PortGroup.remoteLid).Nodup
  lids : ∀ d lid, lid ∈ (sw.groups d).map PortGroup.remoteLid ↔ ∃ i ∈ is, target F s i = some (d, lid)
  ports : ∀ d, ∀ g ∈ sw.groups d, g.ports.map Port.portNum = is.filter (target F s · = some (d, g.remoteLid))

lemma constructSwPort_cases {i : ℕ} (h : constructSwPort F s sw i = some sw') :
    (target F s i = none ∧ sw' = sw) ∨
      ∃ d lid remotePort, target F s i = some (d, lid) ∧ sw' = swAddPort sw ⟨i, remotePort⟩ lid d := by
  unfold constructSwPort at h
  unfold target
  generalize F.link s i = l at h ⊢
  rcases l with _ | ⟨baseLid | t | _ | _, remotePort⟩
  · cases h
    exact .inl ⟨rfl, rfl⟩
  · cases h
    exact .inr ⟨_, _, _, rfl, rfl⟩
  · dsimp only at h ⊢
    split_ifs at h ⊢ with hself
    · cases h
      exact .inl ⟨rfl, rfl⟩
    · cases h
      exact .inr ⟨_, _, _, rfl, rfl⟩
  · cases h
    exact .inl ⟨rfl, rfl⟩
  · cases h

lemma Built.skip (hb : Built F s is sw) {i : ℕ} (h : target F s i = none) : Built F s (is ++ [i]) sw where
  rank := hb.rank
  nodup := hb.nodup
  lids d lid := by
    rw [hb.lids d lid]
    constructor
    · rintro ⟨j, hj, ht⟩
      exact ⟨j, List.mem_append_left _ hj, ht⟩
    · rintro ⟨j, hj, ht⟩
      rcases List.mem_append.mp hj with hj | hj
      · exact ⟨j, hj, ht⟩
      · rw [List.mem_singleton.mp hj, h] at ht
        cases ht
  ports d g hg := by
    rw [hb.ports d g hg, List.filter_append, List.filter_singleton, h]
    exact (List.append_nil _).symm

/-- A new port goes to the group of its direction and remote LID. -/
lemma Built.add (hb : Built F s is sw) {i : ℕ} (hi : i ∉ is) {d : Direction} {lid : ℕ}
    (h : target F s i = some (d, lid))
    (remotePort : ℕ) : Built F s (is ++ [i]) (swAddPort sw ⟨i, remotePort⟩ lid d) := by
  have hgroups : ∀ d', (swAddPort sw ⟨i, remotePort⟩ lid d).groups d' =
      if d' = d then addToGroup ⟨i, remotePort⟩ lid (sw.groups d) else sw.groups d' :=
    fun d' => Sw.groups_setGroups sw _ d d'
  have hother : ∀ d' lid', ¬(d' = d ∧ lid' = lid) → target F s i ≠ some (d', lid') := by
    intro d' lid' hne he
    rw [h] at he
    cases he
    exact hne ⟨rfl, rfl⟩
  have hfilter : ∀ d' lid', (is ++ [i]).filter (target F s · = some (d', lid')) =
      is.filter (target F s · = some (d', lid')) ++ if d' = d ∧ lid' = lid then [i] else [] := by
    intro d' lid'
    rw [List.filter_append, List.filter_singleton]
    split_ifs with hself
    · rw [hself.1, hself.2, h]
      simp
    · simp [hother d' lid' hself]
  refine ⟨?_, fun d' => ?_, fun d' lid' => ?_, fun d' g hg => ?_⟩
  · rw [swAddPort, Sw.rank_setGroups]
    exact hb.rank
  · rw [hgroups]
    split_ifs with hd
    · rw [addToGroup_lids]
      split_ifs with hmem
      · exact hb.nodup d
      · exact (hb.nodup d).append (List.nodup_singleton lid) (List.disjoint_singleton.mpr hmem)
    · exact hb.nodup d'
  · have hsplit : (∃ j ∈ is ++ [i], target F s j = some (d', lid')) ↔
        (∃ j ∈ is, target F s j = some (d', lid')) ∨ (d' = d ∧ lid' = lid) := by
      constructor
      · rintro ⟨j, hj, ht⟩
        rcases List.mem_append.mp hj with hj | hj
        · exact .inl ⟨j, hj, ht⟩
        · rw [List.mem_singleton.mp hj] at ht
          exact .inr (not_not.mp fun hne => hother d' lid' hne ht)
      · rintro (⟨j, hj, ht⟩ | ⟨rfl, rfl⟩)
        · exact ⟨j, List.mem_append_left _ hj, ht⟩
        · exact ⟨i, List.mem_append_right _ (List.mem_singleton_self i), h⟩
    rw [hsplit, hgroups, ← hb.lids d' lid']
    split_ifs with hd
    · subst hd
      rw [addToGroup_lids]
      split_ifs with hmem
      · exact ⟨.inl, fun hor => hor.elim id fun he => he.2 ▸ hmem⟩
      · rw [List.mem_append, List.mem_singleton, and_iff_right rfl]
    · rw [or_iff_left fun he => hd he.1]
  · rw [hgroups] at hg
    rw [hfilter]
    split_ifs at hg with hd
    · subst hd
      have hnotin : ∀ l : ℕ, i ∉ is.filter (target F s · = some (d', l)) :=
          fun l hmem => hi (List.mem_filter.mp hmem).1
      rcases mem_addToGroup (hb.nodup d') hg with ⟨hmem, hne⟩ | ⟨g₀, hmem, hlid, rfl⟩ | ⟨hnot, rfl⟩
      · rw [hb.ports d' g hmem, if_neg fun he => hne he.2, List.append_nil]
      · rw [portGroupAddPort_remoteLid, if_pos ⟨rfl, hlid⟩, ← hb.ports d' g₀ hmem]
        apply portGroupAddPort_new
        rw [hb.ports d' g₀ hmem]
        exact hnotin _
      · have hempty : is.filter (target F s · = some (d', lid)) = [] := by
          refine List.filter_eq_nil_iff.mpr fun j hj ht => hnot ?_
          exact (hb.lids d' lid).mpr ⟨j, hj, of_decide_eq_true ht⟩
        rw [portGroupAddPort_remoteLid, if_pos ⟨rfl, rfl⟩, hempty]
        exact portGroupAddPort_new List.not_mem_nil
    · rw [hb.ports d' g hg, if_neg fun he => hd he.1, List.append_nil]

lemma Built.step (hb : Built F s is sw) {i : ℕ} (hi : i ∉ is) (h : constructSwPort F s sw i = some sw') :
    Built F s (is ++ [i]) sw' := by
  rcases constructSwPort_cases h with ⟨hnone, rfl⟩ | ⟨d, lid, remotePort, htarget, rfl⟩
  · exact hb.skip hnone
  · exact hb.add hi htarget remotePort

lemma Built.run {js : List ℕ} (hb : Built F s is sw) (hnodup : (is ++ js).Nodup)
    (h : js.foldlM (constructSwPort F s) sw = some sw') : Built F s (is ++ js) sw' := by
  induction js generalizing is sw with
  | nil =>
    cases h
    rwa [List.append_nil]
  | cons j js ih =>
    rw [List.foldlM_cons] at h
    obtain ⟨sw₁, hstep, hrest⟩ := Option.bind_eq_some_iff.mp h
    have hj : j ∉ is := fun hmem => (List.nodup_append.mp hnodup).2.2 j hmem j List.mem_cons_self rfl
    have happend : is ++ j :: js = is ++ [j] ++ js := by rw [List.append_assoc, List.singleton_append]
    rw [happend] at hnodup ⊢
    exact ih (hb.step hj hstep) hnodup hrest

/-- The groups of a switch are those of its ports. -/
theorem constructSwPorts_built (h : constructSwPorts F s = some sw) : Built F s (portNums F s) sw := by
  have hempty : Built F s [] ⟨F.rank s, F.lid s, [], [], []⟩ := by
    have hgroups : ∀ d, (⟨F.rank s, F.lid s, [], [], []⟩ : Sw).groups d = [] := by
      intro d
      cases d
      all_goals rfl
    refine ⟨rfl, fun d => ?_, fun d lid => ?_, fun d g hg => ?_⟩
    · rw [hgroups]
      exact List.nodup_nil
    · rw [hgroups]
      simp
    · rw [hgroups] at hg
      cases hg
  exact hempty.run (List.nodup_range' (s := 1) (n := F.numPhysp s - 1)) h

end Populate

section View

variable {S : Type} [DecidableEq S] {F : RankedFabric S} {s : S} {sw sw' : Sw}

structure View (F : RankedFabric S) (s : S) (sw : Sw) : Prop where
  rank : sw.rank = F.rank s
  num : ∀ d, (sw.groups d).length = (neighborLids F s d).card
  sizes : ∀ d n, (∃ g ∈ sw.groups d, numPorts g = n) ↔ ∃ l ∈ neighborLids F s d, (portsTo F s d l).length = n

lemma mem_neighborLids {d : Direction} {l : ℕ} :
    l ∈ neighborLids F s d ↔ ∃ i ∈ portNums F s, target F s i = some (d, l) := by
  rw [neighborLids, List.mem_toFinset, List.mem_filterMap]
  refine exists_congr fun i => and_congr_right fun _ => ?_
  rw [Option.bind_eq_some_iff]
  constructor
  · rintro ⟨⟨d', l'⟩, ht, hl⟩
    dsimp only at hl
    split_ifs at hl with hd
    cases hl
    rw [ht, hd]
  · intro ht
    exact ⟨(d, l), ht, if_pos rfl⟩

lemma Built.view (hb : Built F s (portNums F s) sw) : View F s sw := by
  have hlids : ∀ d, ((sw.groups d).map PortGroup.remoteLid).toFinset = neighborLids F s d := by
    intro d
    ext l
    rw [List.mem_toFinset, hb.lids, mem_neighborLids]
  have hsize : ∀ d, ∀ g ∈ sw.groups d, numPorts g = (portsTo F s d g.remoteLid).length := by
    intro d g hg
    rw [portsTo, ← hb.ports d g hg, List.length_map]
    rfl
  refine ⟨hb.rank, fun d => ?_, fun d n => ?_⟩
  · rw [← hlids, List.toFinset_card_of_nodup (hb.nodup d), List.length_map]
  · rw [← hlids]
    constructor
    · rintro ⟨g, hg, rfl⟩
      exact ⟨g.remoteLid, List.mem_toFinset.mpr (List.mem_map_of_mem hg), (hsize d g hg).symm⟩
    · rintro ⟨l, hl, rfl⟩
      obtain ⟨g, hg, rfl⟩ := List.mem_map.mp (List.mem_toFinset.mp hl)
      exact ⟨g, hg, hsize d g hg⟩

lemma View.perm (hv : View F s sw) (hrank : sw'.rank = sw.rank) (h : ∀ d, (sw'.groups d).Perm (sw.groups d)) :
    View F s sw' where
  rank := hrank.trans hv.rank
  num d := (h d).length_eq.trans (hv.num d)
  sizes d n := by
    rw [← hv.sizes]
    exact exists_congr fun g => and_congr_left fun _ => (h d).mem_iff

lemma views_of_populate {sws sws' : List Sw} (hpop : fabricPopulatePorts F = some sws) (hidx : Indexed sws sws') :
    List.Forall₂ (View F) F.swTbl sws' := by
  have hbuilt : ∀ {l : List S} {sws sws' : List Sw}, l.mapM (constructSwPorts F) = some sws → Indexed sws sws' →
      List.Forall₂ (View F) l sws' := by
    intro l
    induction l with
    | nil =>
      intro sws sws' h hidx
      cases h
      cases hidx
      exact .nil
    | cons s l ih =>
      intro sws sws' h hidx
      rw [List.mapM_cons] at h
      obtain ⟨sw, hsw, h⟩ := Option.bind_eq_some_iff.mp h
      obtain ⟨sws₁, hsws, h⟩ := Option.bind_eq_some_iff.mp h
      cases h
      rcases hidx with _ | ⟨⟨hrank, hperm⟩, hrest⟩
      exact .cons ((constructSwPorts_built hsw).view.perm hrank hperm) (ih hsws hrest)
  exact hbuilt hpop hidx

structure PureFatTree (leafSwitchRank : ℕ) (sws : List Sw) : Prop where
  upNum : ∀ a ∈ sws, ∀ b ∈ sws, a.rank = b.rank → a.upPortGroups.length = b.upPortGroups.length
  downNum : ∀ a ∈ sws, ∀ b ∈ sws, a.rank = b.rank → a.rank ≠ leafSwitchRank →
    a.downPortGroups.length = b.downPortGroups.length
  upSize : ∀ a ∈ sws, ∀ b ∈ sws, a.rank = b.rank → ∀ g ∈ a.upPortGroups, ∀ g' ∈ b.upPortGroups,
      numPorts g = numPorts g'
  downSize : ∀ a ∈ sws, ∀ b ∈ sws, a.rank = b.rank → a.rank ≠ leafSwitchRank →
    ∀ g ∈ a.downPortGroups, ∀ g' ∈ b.downPortGroups, numPorts g = numPorts g'

lemma View.size_iff (hv : View F s sw) {t : S} (hv' : View F t sw') (d : Direction) :
    (∀ g ∈ sw.groups d, ∀ g' ∈ sw'.groups d, numPorts g = numPorts g') ↔
      ∀ l ∈ neighborLids F s d, ∀ l' ∈ neighborLids F t d,
          (portsTo F s d l).length = (portsTo F t d l').length := by
  constructor
  · intro h l hl l' hl'
    obtain ⟨g, hg, hn⟩ := (hv.sizes d _).mpr ⟨l, hl, rfl⟩
    obtain ⟨g', hg', hn'⟩ := (hv'.sizes d _).mpr ⟨l', hl', rfl⟩
    exact hn.symm.trans ((h g hg g' hg').trans hn')
  · intro h g hg g' hg'
    obtain ⟨l, hl, hn⟩ := (hv.sizes d _).mp ⟨g, hg, rfl⟩
    obtain ⟨l', hl', hn'⟩ := (hv'.sizes d _).mp ⟨g', hg', rfl⟩
    exact hn.symm.trans ((h l hl l' hl').trans hn')

lemma documented_iff {sws : List Sw} (hv : List.Forall₂ (View F) F.swTbl sws) :
    Documented F ↔ PureFatTree F.leafSwitchRank sws := by
  obtain ⟨hlen, hget⟩ := List.forall₂_iff_get.mp hv
  have hto : ∀ s ∈ F.swTbl, ∃ sw ∈ sws, View F s sw := by
    intro s hs
    obtain ⟨i, rfl⟩ := List.mem_iff_get.mp hs
    exact ⟨_, List.get_mem sws ⟨i, hlen ▸ i.2⟩, hget i i.2 (hlen ▸ i.2)⟩
  have hfrom : ∀ sw ∈ sws, ∃ s ∈ F.swTbl, View F s sw := by
    intro sw hsw
    obtain ⟨i, rfl⟩ := List.mem_iff_get.mp hsw
    exact ⟨_, List.get_mem F.swTbl ⟨i, hlen.symm ▸ i.2⟩, hget i (hlen.symm ▸ i.2) i.2⟩
  constructor
  · intro h
    refine ⟨fun a ha b hb hr => ?_, fun a ha b hb hr hleaf => ?_, fun a ha b hb hr => ?_,
        fun a ha b hb hr hleaf => ?_⟩
    all_goals
      obtain ⟨s, hs, hsv⟩ := hfrom a ha
      obtain ⟨t, ht, htv⟩ := hfrom b hb
      have hrank : F.rank s = F.rank t := hsv.rank.symm.trans (hr.trans htv.rank)
    · exact (hsv.num .up).trans ((h.upNum s hs t ht hrank).trans (htv.num .up).symm)
    · exact (hsv.num .down).trans ((h.downNum s hs t ht hrank (hsv.rank ▸ hleaf)).trans (htv.num .down).symm)
    · exact (hsv.size_iff htv .up).mpr (h.upSize s hs t ht hrank)
    · exact (hsv.size_iff htv .down).mpr (h.downSize s hs t ht hrank (hsv.rank ▸ hleaf))
  · intro h
    refine ⟨fun s hs t ht hr => ?_, fun s hs t ht hr hleaf => ?_, fun s hs t ht hr => ?_,
        fun s hs t ht hr hleaf => ?_⟩
    all_goals
      obtain ⟨a, ha, hsv⟩ := hto s hs
      obtain ⟨b, hb, htv⟩ := hto t ht
      have hrank : a.rank = b.rank := hsv.rank.trans (hr.trans htv.rank.symm)
    · exact (hsv.num .up).symm.trans ((h.upNum a ha b hb hrank).trans (htv.num .up))
    · exact (hsv.num .down).symm.trans ((h.downNum a ha b hb hrank (hsv.rank.symm ▸ hleaf)).trans (htv.num .down))
    · exact (hsv.size_iff htv .up).mp (h.upSize a ha b hb hrank)
    · exact (hsv.size_iff htv .down).mp (h.downSize a ha b hb hrank (hsv.rank.symm ▸ hleaf))

end View

section Accepted

variable {leafSwitchRank : ℕ} {sws : List Sw} {ref sw : Sw}

lemma all_range_getElem {gs : List PortGroup} {n : ℕ} :
    ((List.range gs.length).all fun i => gs[i]?.map numPorts = some n) = true ↔ ∀ g ∈ gs, numPorts g = n := by
  rw [List.all_eq_true]
  constructor
  · intro h g hg
    obtain ⟨i, hi, rfl⟩ := List.mem_iff_getElem.mp hg
    have hall := of_decide_eq_true (h i (List.mem_range.mpr hi))
    rw [List.getElem?_eq_getElem hi] at hall
    exact Option.some.inj hall
  · intro h i hi
    have hi := List.mem_range.mp hi
    rw [List.getElem?_eq_getElem hi, Option.map_some, h _ (List.getElem_mem hi)]
    exact decide_eq_true rfl

lemma all_range_head {gs : List PortGroup} {n : ℕ} :
    ((List.range gs.length).all fun _ => gs[0]?.map numPorts = some n) = true ↔ ∀ g ∈ gs.head?,
        numPorts g = n := by
  cases gs with
  | nil => simp
  | cons g gs =>
    simp only [List.all_eq_true, List.mem_range, List.length_cons, List.getElem?_cons_zero, Option.map_some,
      Option.some.injEq, decide_eq_true_eq, List.head?_cons, Option.mem_def, forall_eq']
    exact ⟨fun h => h 0 (Nat.succ_pos _), fun h _ _ => h⟩

lemma sameAsReference_iff : sameAsReference (leafSwitchRank + 1) ref sw = true ↔
    ¬Differs leafSwitchRank ref sw := by
  rw [sameAsReference, Differs, Nat.add_sub_cancel]
  have hup : (match ref.upPortGroups with
      | [] => true
      | refGroup :: _ => (List.range sw.upPortGroups.length).all fun i =>
          sw.upPortGroups[i]?.map numPorts = some (numPorts refGroup)) = true ↔
        ∀ r ∈ ref.upPortGroups.head?, ∀ g ∈ sw.upPortGroups, numPorts g = numPorts r := by
    cases ref.upPortGroups with
    | nil => simp
    | cons r rs =>
      dsimp only
      rw [all_range_getElem]
      simp
  have hdown : (match ref.downPortGroups with
      | [] => true
      | refGroup :: _ => sw.rank == leafSwitchRank || (List.range sw.downPortGroups.length).all fun _ =>
          sw.downPortGroups[0]?.map numPorts = some (numPorts refGroup)) = true ↔
        (sw.rank ≠ leafSwitchRank → ∀ r ∈ ref.downPortGroups.head?, ∀ g ∈ sw.downPortGroups.head?,
            numPorts g = numPorts r) := by
    cases ref.downPortGroups with
    | nil => simp
    | cons r rs =>
      dsimp only
      rw [Bool.or_eq_true, all_range_head, beq_iff_eq]
      simp [or_iff_not_imp_left]
  rw [Bool.and_eq_true, Bool.and_eq_true, Bool.and_eq_true, hup, hdown, decide_eq_true_eq, Bool.or_eq_true,
      beq_iff_eq, beq_iff_eq]
  push Not
  rw [or_iff_not_imp_left, and_assoc, and_assoc]

lemma forall_split_cons {P : List Sw → Sw → Prop} {s : Sw} :
    (∀ l₁ sw l₂, s :: sws = l₁ ++ sw :: l₂ → P l₁ sw) ↔ P [] s ∧ ∀ l₁ sw l₂, sws = l₁ ++ sw :: l₂ →
        P (s :: l₁) sw := by
  constructor
  · intro h
    exact ⟨h [] s sws rfl, fun l₁ sw l₂ heq => h (s :: l₁) sw l₂ (congrArg (s :: ·) heq)⟩
  · rintro ⟨hnil, hcons⟩ l₁ sw l₂ heq
    rcases l₁ with _ | ⟨t, l₁⟩
    · cases heq
      exact hnil
    · cases heq
      exact hcons l₁ sw l₂ rfl

lemma validateLoop_iff {treeRank : ℕ} (reference : ℕ → Option Sw) :
    validateLoop treeRank reference sws = true ↔ ∀ l₁ sw l₂, sws = l₁ ++ sw :: l₂ →
      ∀ ref, (reference sw.rank).or (l₁.find? (·.rank = sw.rank)) = some ref →
          sameAsReference treeRank ref sw = true := by
  induction sws generalizing reference with
  | nil =>
    refine iff_of_true rfl fun l₁ sw l₂ h => ?_
    exact absurd h.symm (List.append_ne_nil_of_right_ne_nil l₁ (List.cons_ne_nil sw l₂))
  | cons s sws ih =>
    rw [validateLoop, forall_split_cons]
    cases href : reference s.rank with
    | none =>
      dsimp only
      rw [ih, List.find?_nil, Option.or_none, and_iff_right fun ref h => absurd h (by simp)]
      refine forall_congr' fun l₁ => forall_congr' fun sw => forall_congr' fun l₂ => imp_congr_right fun _ => ?_
      by_cases hrank : s.rank = sw.rank
      · rw [← hrank, Function.update_self, href, List.find?_cons_of_pos (by simp)]
        rfl
      · rw [Function.update_of_ne (Ne.symm hrank), List.find?_cons_of_neg (by simpa using hrank)]
    | some ref =>
      dsimp only
      rw [Bool.and_eq_true, ih, List.find?_nil, Option.or_none]
      refine and_congr (by simp) ?_
      refine forall_congr' fun l₁ => forall_congr' fun sw => forall_congr' fun l₂ => imp_congr_right fun _ => ?_
      by_cases hrank : s.rank = sw.rank
      · rw [← hrank, href, Option.some_or, Option.some_or]
      · rw [List.find?_cons_of_neg (by simpa using hrank)]

lemma validate_iff : fabricValidateTopology leafSwitchRank sws = true ↔ ¬Noticed leafSwitchRank sws := by
  rw [fabricValidateTopology, validateLoop_iff, Noticed]
  constructor
  · rintro h ⟨ref, sw, ⟨l₁, l₂, heq, hfind⟩, hdiff⟩
    exact sameAsReference_iff.mp (h l₁ sw l₂ heq ref hfind) hdiff
  · intro h l₁ sw l₂ heq ref hfind
    exact sameAsReference_iff.mpr fun hdiff => h ⟨ref, sw, ⟨l₁, l₂, heq, hfind⟩, hdiff⟩

lemma Later.mem (h : Later sws ref sw) : ref ∈ sws ∧ sw ∈ sws ∧ ref.rank = sw.rank := by
  obtain ⟨l₁, l₂, rfl, hfind⟩ := h
  have hrank := List.find?_some hfind
  exact ⟨List.mem_append_left _ (List.mem_of_find?_eq_some hfind), List.mem_append_right _ List.mem_cons_self,
    of_decide_eq_true hrank⟩

lemma PureFatTree.not_noticed (h : PureFatTree leafSwitchRank sws) : ¬Noticed leafSwitchRank sws := by
  rintro ⟨ref, sw, hlater, hdiff⟩
  obtain ⟨href, hsw, hrank⟩ := hlater.mem
  rcases hdiff with hnum | ⟨hleaf, hnum⟩ | ⟨r, hr, g, hg, hsize⟩ | ⟨hleaf, r, hr, g, hg, hsize⟩
  · exact hnum (h.upNum ref href sw hsw hrank)
  · exact hnum (h.downNum ref href sw hsw hrank (hrank ▸ hleaf))
  · exact hsize (h.upSize sw hsw ref href hrank.symm g hg r (List.mem_of_mem_head? hr))
  · exact hsize (h.downSize sw hsw ref href hrank.symm hleaf g (List.mem_of_mem_head? hg) r
        (List.mem_of_mem_head? hr))

lemma PureFatTree.even (h : PureFatTree leafSwitchRank sws) : EvenGroups leafSwitchRank sws := by
  refine ⟨fun l₁ sw l₂ heq _ => ?_, fun sw hsw hleaf => h.downSize sw hsw sw hsw rfl hleaf⟩
  have hsw : sw ∈ sws := heq ▸ List.mem_append_right _ List.mem_cons_self
  exact h.upSize sw hsw sw hsw rfl

lemma reference_cases (hsw : sw ∈ sws) :
    ∃ ref, sws.find? (·.rank = sw.rank) = some ref ∧ (sw = ref ∨ Later sws ref sw) := by
  obtain ⟨l₁, l₂, heq⟩ := List.append_of_mem hsw
  have happend : sws.find? (·.rank = sw.rank) = (l₁.find? (·.rank = sw.rank)).or (some sw) := by
    rw [heq, List.find?_append, List.find?_cons_of_pos (by simp)]
  cases hfind : l₁.find? (·.rank = sw.rank) with
  | none =>
    rw [hfind, Option.none_or] at happend
    exact ⟨sw, happend, .inl rfl⟩
  | some ref =>
    rw [hfind, Option.some_or] at happend
    exact ⟨ref, happend, .inr ⟨l₁, l₂, heq, hfind⟩⟩

/-- What holds between a switch and the reference of its rank in an accepted fabric with even groups. -/
structure Like (leafSwitchRank : ℕ) (ref sw : Sw) : Prop where
  upNum : sw.upPortGroups.length = ref.upPortGroups.length
  downNum : sw.rank ≠ leafSwitchRank → sw.downPortGroups.length = ref.downPortGroups.length
  upSize : ∀ g ∈ sw.upPortGroups, ∀ r ∈ ref.upPortGroups, numPorts g = numPorts r
  downSize : sw.rank ≠ leafSwitchRank → ∀ g ∈ sw.downPortGroups, ∀ r ∈ ref.downPortGroups, numPorts g = numPorts r

lemma exists_head {gs : List PortGroup} {g : PortGroup} (h : g ∈ gs) : ∃ g₀, g₀ ∈ gs.head? ∧ g₀ ∈ gs := by
  cases gs with
  | nil => cases h
  | cons g₀ gs => exact ⟨g₀, rfl, List.mem_cons_self⟩

lemma like_reference (hn : ¬Noticed leafSwitchRank sws) (he : EvenGroups leafSwitchRank sws) (hsw : sw ∈ sws) :
    ∃ ref, sws.find? (·.rank = sw.rank) = some ref ∧ Like leafSwitchRank ref sw := by
  obtain ⟨ref, hfind, hcase⟩ := reference_cases hsw
  refine ⟨ref, hfind, ?_⟩
  have hup : ∀ g ∈ ref.upPortGroups, ∀ g' ∈ ref.upPortGroups, numPorts g = numPorts g' := by
    obtain ⟨hrank, l₁, l₂, heq, hnone⟩ := List.find?_eq_some_iff_append.mp hfind
    refine he.1 l₁ ref l₂ heq fun t ht => ?_
    rw [of_decide_eq_true hrank]
    simpa using hnone t ht
  rcases hcase with rfl | hlater
  · exact ⟨rfl, fun _ => rfl, hup, fun hleaf => he.2 sw hsw hleaf⟩
  · have hsame : ¬Differs leafSwitchRank ref sw := fun hdiff => hn ⟨ref, sw, hlater, hdiff⟩
    rw [Differs] at hsame
    push Not at hsame
    obtain ⟨hupNum, hdownNum, hupSize, hdownSize⟩ := hsame
    obtain ⟨href, -, hrank⟩ := hlater.mem
    refine ⟨hupNum.symm, fun hleaf => (hdownNum hleaf).symm, fun g hg r hr => ?_, fun hleaf g hg r hr => ?_⟩
    · obtain ⟨r₀, hhead, hr₀⟩ := exists_head hr
      exact (hupSize r₀ hhead g hg).trans (hup r₀ hr₀ r hr)
    · obtain ⟨r₀, hheadR, hr₀⟩ := exists_head hr
      obtain ⟨g₀, hheadG, hg₀⟩ := exists_head hg
      calc numPorts g = numPorts g₀ := he.2 sw hsw hleaf g hg g₀ hg₀
        _ = numPorts r₀ := hdownSize hleaf r₀ hheadR g₀ hheadG
        _ = numPorts r := he.2 ref href (hrank ▸ hleaf) r₀ hr₀ r hr

lemma exists_mem_of_length_eq {gs gs' : List PortGroup} (h : gs.length = gs'.length) {g : PortGroup}
    (hg : g ∈ gs) :
    ∃ g', g' ∈ gs' := by
  apply List.exists_mem_of_length_pos
  rw [← h]
  exact List.length_pos_of_mem hg

lemma PureFatTree.of_even (hn : ¬Noticed leafSwitchRank sws) (he : EvenGroups leafSwitchRank sws) :
    PureFatTree leafSwitchRank sws := by
  have hlike : ∀ a ∈ sws, ∀ b ∈ sws, a.rank = b.rank → ∃ ref, Like leafSwitchRank ref a ∧
      Like leafSwitchRank ref b := by
    intro a ha b hb hrank
    obtain ⟨ref, hfind, hrefA⟩ := like_reference hn he ha
    obtain ⟨ref', hfind', hrefB⟩ := like_reference hn he hb
    rw [hrank, hfind'] at hfind
    cases hfind
    exact ⟨ref, hrefA, hrefB⟩
  refine ⟨fun a ha b hb hr => ?_, fun a ha b hb hr hleaf => ?_, fun a ha b hb hr g hg g' hg' => ?_,
    fun a ha b hb hr hleaf g hg g' hg' => ?_⟩
  all_goals obtain ⟨ref, hrefA, hrefB⟩ := hlike a ha b hb hr
  · exact hrefA.upNum.trans hrefB.upNum.symm
  · exact (hrefA.downNum hleaf).trans (hrefB.downNum (hr ▸ hleaf)).symm
  · obtain ⟨r, hr'⟩ := exists_mem_of_length_eq hrefA.upNum hg
    exact (hrefA.upSize g hg r hr').trans (hrefB.upSize g' hg' r hr').symm
  · obtain ⟨r, hr'⟩ := exists_mem_of_length_eq (hrefA.downNum hleaf) hg
    exact (hrefA.downSize hleaf g hg r hr').trans (hrefB.downSize (hr ▸ hleaf) g' hg' r hr').symm

variable {S : Type} [DecidableEq S]

/-- The validation accepts exactly the pure fat-trees if and only if the fabric has a difference that the
comparisons with the first switches notice, or no difference within a switch that they leave out. -/
theorem validate_documented_iff (F : RankedFabric S) {sws sws' : List Sw} (hpop : fabricPopulatePorts F = some sws)
    (hidx : Indexed sws sws') :
    (fabricValidateTopology F.leafSwitchRank sws' = true ↔ Documented F) ↔
      Noticed F.leafSwitchRank sws' ∨ EvenGroups F.leafSwitchRank sws' := by
  rw [validate_iff, documented_iff (views_of_populate hpop hidx)]
  by_cases hn : Noticed F.leafSwitchRank sws'
  · exact iff_of_true (iff_of_false (not_not_intro hn) fun h => h.not_noticed hn) (.inl hn)
  · rw [iff_true_left hn, or_iff_right hn]
    exact ⟨PureFatTree.even, PureFatTree.of_even hn⟩

end Accepted

section Sample

inductive SampleSw
  | r1
  | r2
  | s1
  | s2
  | l1
  | l2
deriving DecidableEq

def sampleLink : SampleSw → ℕ → Option (Remote SampleSw × ℕ)
  | .r1, 1 => some (.switch .s2, 1)
  | .r1, 2 => some (.switch .s1, 1)
  | .r2, 1 => some (.switch .s2, 2)
  | .r2, 2 => some (.switch .s1, 2)
  | .r2, 3 => some (.switch .s1, 3)
  | .s1, 1 => some (.switch .r1, 2)
  | .s1, 2 => some (.switch .r2, 2)
  | .s1, 3 => some (.switch .r2, 3)
  | .s1, 4 => some (.switch .l1, 2)
  | .s1, 5 => some (.switch .l2, 2)
  | .s2, 1 => some (.switch .r1, 1)
  | .s2, 2 => some (.switch .r2, 1)
  | .s2, 3 => some (.switch .l1, 1)
  | .s2, 4 => some (.switch .l2, 1)
  | .l1, 1 => some (.switch .s2, 3)
  | .l1, 2 => some (.switch .s1, 4)
  | .l1, 3 => some (.ca 7, 1)
  | .l2, 1 => some (.switch .s2, 4)
  | .l2, 2 => some (.switch .s1, 5)
  | .l2, 3 => some (.ca 8, 1)
  | _, _ => none

def sampleFabric : RankedFabric SampleSw where
  swTbl := [.r1, .r2, .s1, .s2, .l1, .l2]
  rank
    | .r1 | .r2 => 0
    | .s1 | .s2 => 1
    | .l1 | .l2 => 2
  lid
    | .r1 => 1
    | .r2 => 2
    | .s1 => 3
    | .s2 => 4
    | .l1 => 5
    | .l2 => 6
  numPhysp _ := 7
  link := sampleLink
  leafSwitchRank := 2

def sampleSws : List Sw := (fabricPopulatePorts sampleFabric).getD []

lemma indexed_refl (sws : List Sw) : Indexed sws sws := List.forall₂_same.mpr fun _ _ => ⟨rfl, fun _ => .refl _⟩

theorem validate_documented_iff_sample :
    (fabricValidateTopology 2 sampleSws = true ↔ Documented sampleFabric) ↔ Noticed 2 sampleSws ∨
        EvenGroups 2 sampleSws :=
  validate_documented_iff sampleFabric (by decide : fabricPopulatePorts sampleFabric = some sampleSws)
      (indexed_refl sampleSws)

/-- The double link is within the first switch of rank 1, and not in the first group of `r2`. -/
theorem double_link_accepted :
    fabricPopulatePorts sampleFabric = some sampleSws ∧
        fabricValidateTopology sampleFabric.leafSwitchRank sampleSws = true ∧
      ¬Documented sampleFabric := by
  refine ⟨by decide, by decide, fun h => ?_⟩
  have hsize := h.downSize .r2 (by decide) .r2 (by decide) rfl (by decide) 4 (by decide) 3 (by decide)
  exact absurd hsize (by decide)

end Sample

end OpenSM.Ftree
