import Mathlib

/-! The switches and links of LASH as its mesh analysis sees them. -/

namespace OpenSM.LashMesh

/-- `link_t`; there may be no link back. -/
structure Link where
  switchId : ℕ
  linkId : Option ℕ
  nextPort : ℕ
  ports : List ℕ

/-- `mesh_node_t`, with the link objects in use. Axis 0 is none; odd numbers are upwards. -/
structure MeshNode (L : Type) where
  axes : ℕ → ℕ
  coord : ℕ → ℤ
  matrix : Option (ℕ → ℕ → ℤ)
  links : List L

structure Switch (P L : Type) where
  pSw : P
  id : ℕ
  node : MeshNode L

/-- The array of switches, and what is in the link objects. -/
structure Lash (P L : Type) where
  switches : List (Switch P L)
  link : L → Link

structure Mesh where
  dimension : ℕ
  dimOrder : ℕ → ℕ

section Axes

variable {L : Type} (nd : MeshNode L)

def negaxis (axis : ℕ) : ℕ := 1 + (1 ^^^ (axis - 1))

def opposite (axis : ℕ) : ℕ :=
  match nd.matrix with
  | none => 0
  | some m =>
    match (List.range nd.links.length).find? (nd.axes · = axis) with
    | none => 0
    | some i => if ∃ j ∈ List.range nd.links.length, j ≠ i ∧ m i j ≠ 2 then negaxis axis else axis

end Axes

section Graph

variable {P L : Type}

/-- The graph as LASH builds it: an index as the id of each switch, links to switches, and link objects of their
own. -/
structure Wf (g : Lash P L) : Prop where
  ids : ∀ i (s : Switch P L), g.switches[i]? = some s → s.id = i
  range : ∀ s ∈ g.switches, ∀ l ∈ s.node.links, (g.link l).switchId < g.switches.length
  apart : (g.switches.flatMap (·.node.links)).Nodup

variable [DecidableEq L]

def setLinkId (link : L → Link) (l : L) (linkId : Option ℕ) : L → Link :=
  Function.update link l { link l with linkId := linkId }

@[simp] lemma setLinkId_switchId (link : L → Link) (l : L) (linkId : Option ℕ) (l' : L) :
    (setLinkId link l linkId l').switchId = (link l').switchId := by
  rw [setLinkId, Function.update_apply]
  split_ifs with h
  · rw [h]
  · rfl

/-- The first link of the other switch that leads back, and the new link, get each other's numbers. -/
def linkBack (slot : ℕ → ℕ → L) (link : L → Link) (links2 : List L) (sw1 sw2 num : ℕ) : L → Link :=
  match links2.findIdx? fun l => (link l).switchId = sw1 with
  | none => link
  | some i => setLinkId (setLinkId link (slot sw2 i) (some num)) (slot sw1 num) (some i)

lemma linkBack_switchId (slot : ℕ → ℕ → L) (link : L → Link) (links2 : List L) (sw1 sw2 num : ℕ) (l : L) :
    (linkBack slot link links2 sw1 sw2 num l).switchId = (link l).switchId := by
  unfold linkBack
  generalize links2.findIdx? _ = back
  cases back with
  | none => rfl
  | some i => rw [setLinkId_switchId, setLinkId_switchId]

/-- The link objects that `osm_mesh_node_create` has made for each switch are used one after the other. -/
def connectSwitches (slot : ℕ → ℕ → L) (doMeshAnalysis : Bool) (g : Lash P L) (sw1 sw2 phyPort1 : ℕ) : Lash P L :=
  match g.switches[sw1]?, g.switches[sw2]? with
  | some s1, some s2 =>
    let num := s1.node.links.length
    if doMeshAnalysis ∧ sw1 = sw2 then g
    else
      match (if doMeshAnalysis then s1.node.links.find? fun l => (g.link l).switchId = sw2 else none) with
      | some l =>
        { g with link := Function.update g.link l { g.link l with ports := (g.link l).ports ++ [phyPort1] } }
      | none =>
        let l := slot sw1 num
        let link := Function.update g.link l
          { g.link l with switchId := sw2, linkId := none, ports := (g.link l).ports ++ [phyPort1] }
        ⟨g.switches.set sw1 { s1 with node := { s1.node with links := s1.node.links ++ [l] } },
          linkBack slot link s2.node.links sw1 sw2 num⟩
  | _, _ => g

structure Connected (slot : ℕ → ℕ → L) (g : Lash P L) : Prop where
  ids : ∀ i (s : Switch P L), g.switches[i]? = some s → s.id = i
  slots : ∀ i (s : Switch P L), g.switches[i]? = some s →
      s.node.links = (List.range s.node.links.length).map (slot i)
  range : ∀ s ∈ g.switches, ∀ l ∈ s.node.links, (g.link l).switchId < g.switches.length

variable {slot : ℕ → ℕ → L} {g : Lash P L}

/-- The numbers of reverse links are numbers of links. -/
def Numbered (g : Lash P L) : Prop :=
  ∀ s ∈ g.switches, ∀ l ∈ s.node.links, ∀ l2, (g.link l).linkId = some l2 →
    ∃ s', g.switches[(g.link l).switchId]? = some s' ∧ l2 < s'.node.links.length

omit [DecidableEq L] in
lemma Connected.wf (h : Connected slot g) (hslot : ∀ i k i' k', slot i k = slot i' k' → i = i' ∧
    k = k') : Wf g where
  ids := h.ids
  range := h.range
  apart := by
    rw [List.nodup_flatMap]
    refine ⟨fun s hs => ?_, List.pairwise_iff_getElem.mpr fun i j hi hj hij => ?_⟩
    · obtain ⟨i, hi⟩ := List.mem_iff_getElem?.mp hs
      rw [h.slots i s hi]
      exact List.nodup_range.map fun k k' he => (hslot _ _ _ _ he).2
    · intro l hl hl'
      have hl : l ∈ g.switches[i].node.links := hl
      have hl' : l ∈ g.switches[j].node.links := hl'
      rw [h.slots i _ (List.getElem?_eq_getElem hi)] at hl
      rw [h.slots j _ (List.getElem?_eq_getElem hj)] at hl'
      obtain ⟨k, -, rfl⟩ := List.mem_map.mp hl
      obtain ⟨k', -, he⟩ := List.mem_map.mp hl'
      exact hij.ne (hslot _ _ _ _ he).1.symm

/-- A link object that is written to keeps its switch but where a new link starts. -/
lemma Connected.extend (h : Connected slot g) {sw1 sw2 : ℕ} {s1 : Switch P L} (hs1 : g.switches[sw1]? = some s1)
    (hsw2 : sw2 < g.switches.length) {link : L → Link} (hlink : ∀ l, (link l).switchId =
      if l = slot sw1 s1.node.links.length then sw2 else (g.link l).switchId) :
    Connected slot ⟨g.switches.set sw1
      { s1 with node := { s1.node with links := s1.node.links ++ [slot sw1 s1.node.links.length] } }, link⟩ := by
  have hlt : sw1 < g.switches.length := (List.getElem?_eq_some_iff.mp hs1).1
  have hlinks : s1.node.links ++ [slot sw1 s1.node.links.length] =
      (List.range (s1.node.links.length + 1)).map (slot sw1) := by
    rw [List.range_succ, List.map_append, List.map_singleton, ← h.slots sw1 s1 hs1]
  refine ⟨fun i s hs => ?_, fun i s hs => ?_, fun s hs l hl => ?_⟩
  · rcases eq_or_ne sw1 i with rfl | hne
    · rw [List.getElem?_set_self hlt] at hs
      cases hs
      exact h.ids sw1 s1 hs1
    · rw [List.getElem?_set_ne hne] at hs
      exact h.ids i s hs
  · rcases eq_or_ne sw1 i with rfl | hne
    · rw [List.getElem?_set_self hlt] at hs
      cases hs
      dsimp only
      rw [List.length_append, List.length_singleton]
      exact hlinks
    · rw [List.getElem?_set_ne hne] at hs
      exact h.slots i s hs
  · dsimp only
    rw [List.length_set, hlink]
    split_ifs with hnew
    · exact hsw2
    · rcases List.mem_or_eq_of_mem_set hs with hs | rfl
      · exact h.range s hs l hl
      · have hl : l ∈ s1.node.links := (List.mem_append.mp hl).resolve_right fun he => hnew
            (List.mem_singleton.mp he)
        exact h.range s1 (List.mem_of_getElem? hs1) l hl

lemma Connected.connect (h : Connected slot g) (doMeshAnalysis : Bool) (sw1 sw2 phyPort1 : ℕ) :
    Connected slot (connectSwitches slot doMeshAnalysis g sw1 sw2 phyPort1) := by
  unfold connectSwitches
  split
  · next s1 s2 hs1 hs2 =>
    have hsw2 : sw2 < g.switches.length := (List.getElem?_eq_some_iff.mp hs2).1
    by_cases hself : doMeshAnalysis ∧ sw1 = sw2
    · rw [if_pos hself]
      exact h
    · rw [if_neg hself]
      generalize (if doMeshAnalysis then s1.node.links.find? _ else none) = known
      cases known with
      | some l =>
        refine ⟨h.ids, h.slots, fun s hs l' hl' => ?_⟩
        dsimp only
        rw [Function.update_apply]
        split_ifs with heq
        · rw [← heq]
          exact h.range s hs l' hl'
        · exact h.range s hs l' hl'
      | none =>
        apply h.extend hs1 hsw2
        intro l
        rw [linkBack_switchId, Function.update_apply]
        split_ifs
        · rfl
        · rfl
  · exact h

lemma linkBack_linkId (slot : ℕ → ℕ → L) (link : L → Link) (links2 : List L) (sw1 sw2 num : ℕ) (l : L) :
    (linkBack slot link links2 sw1 sw2 num l).linkId = (link l).linkId ∨
      ∃ i, (links2.findIdx? fun l => (link l).switchId = sw1) = some i ∧
        (l = slot sw2 i ∧ (linkBack slot link links2 sw1 sw2 num l).linkId = some num ∨
          l = slot sw1 num ∧ (linkBack slot link links2 sw1 sw2 num l).linkId = some i) := by
  unfold linkBack
  generalize (links2.findIdx? _) = back
  cases back with
  | none => exact .inl rfl
  | some i =>
    by_cases hnew : l = slot sw1 num
    · subst hnew
      exact .inr ⟨i, rfl, .inr ⟨rfl, by simp [setLinkId]⟩⟩
    · by_cases hold : l = slot sw2 i
      · subst hold
        exact .inr ⟨i, rfl, .inl ⟨rfl, by simp [setLinkId, Function.update_of_ne hnew]⟩⟩
      · exact .inl (by simp [setLinkId, Function.update_of_ne hnew, Function.update_of_ne hold])

/-- A new link and the one back get numbers of links. -/
lemma Connected.extend_numbered (h : Connected slot g) (hn : Numbered g) {sw1 sw2 : ℕ} {s1 s2 : Switch P L}
    (hs1 : g.switches[sw1]? = some s1) (hs2 : g.switches[sw2]? = some s2) (phyPort1 : ℕ) :
    Numbered (⟨g.switches.set sw1
      { s1 with node := { s1.node with links := s1.node.links ++ [slot sw1 s1.node.links.length] } },
      linkBack slot (Function.update g.link (slot sw1 s1.node.links.length)
        { g.link (slot sw1 s1.node.links.length) with
          switchId := sw2, linkId := none, ports := (g.link (slot sw1 s1.node.links.length)).ports ++ [phyPort1] })
        s2.node.links sw1 sw2 s1.node.links.length⟩ : Lash P L) := by
  set num := s1.node.links.length with hnum
  set s1' : Switch P L := { s1 with node := { s1.node with links := s1.node.links ++ [slot sw1 num] } } with hs1'
  set link : L → Link := Function.update g.link (slot sw1 num)
    { g.link (slot sw1 num) with
      switchId := sw2, linkId := none, ports := (g.link (slot sw1 num)).ports ++ [phyPort1] }
    with hlink
  have hlt : sw1 < g.switches.length := (List.getElem?_eq_some_iff.mp hs1).1
  have hself : (g.switches.set sw1 s1')[sw1]? = some s1' := List.getElem?_set_self hlt
  have hlong : s1'.node.links.length = num + 1 := by simp [hs1', hnum]
  -- No switch loses a link.
  have hgrown : ∀ (i : ℕ) (s : Switch P L), g.switches[i]? = some s → ∃ s' : Switch P L,
      (g.switches.set sw1 s1')[i]? = some s' ∧ s.node.links.length ≤ s'.node.links.length := by
    intro i s hs
    rcases eq_or_ne sw1 i with rfl | hne
    · obtain rfl := Option.some.inj (hs1.symm.trans hs)
      exact ⟨s1', hself, by omega⟩
    · exact ⟨s, (List.getElem?_set_ne hne).trans hs, le_rfl⟩
  intro s hs l hl l2 hl2
  dsimp only at hs hl2 ⊢
  rw [linkBack_switchId]
  rcases linkBack_linkId slot link s2.node.links sw1 sw2 num l with heq | ⟨i, hi, ⟨hold, heq⟩ | ⟨hnew, heq⟩⟩
  · rw [heq] at hl2
    by_cases hnew : l = slot sw1 num
    · rw [hlink, hnew, Function.update_self] at hl2
      cases hl2
    · rw [hlink, Function.update_of_ne hnew] at hl2 ⊢
      have hmem : ∃ s₀ ∈ g.switches, l ∈ s₀.node.links := by
        rcases List.mem_or_eq_of_mem_set hs with hs | rfl
        · exact ⟨s, hs, hl⟩
        · exact ⟨s1, List.mem_of_getElem? hs1, (List.mem_append.mp hl).resolve_right (by simpa using hnew)⟩
      obtain ⟨s₀, hs₀, hl₀⟩ := hmem
      obtain ⟨s', hs', hl2'⟩ := hn s₀ hs₀ l hl₀ l2 hl2
      obtain ⟨s'', hs'', hle⟩ := hgrown _ s' hs'
      exact ⟨s'', hs'', hl2'.trans_le hle⟩
  · -- The first link of the other switch that leads back.
    obtain rfl := Option.some.inj (heq.symm.trans hl2)
    obtain ⟨hi₂, hback, -⟩ := List.findIdx?_eq_some_iff_getElem.mp hi
    have hslot : s2.node.links[i] = slot sw2 i := by
      have hget : (s2.node.links)[i]? = some (slot sw2 i) := by
        rw [h.slots sw2 s2 hs2, List.getElem?_map, List.getElem?_range hi₂]
        rfl
      exact (List.getElem?_eq_some_iff.mp hget).2
    rw [hslot, ← hold] at hback
    rw [of_decide_eq_true hback]
    exact ⟨s1', hself, by omega⟩
  · obtain rfl := Option.some.inj (heq.symm.trans hl2)
    obtain ⟨hi₂, -⟩ := List.findIdx?_eq_some_iff_getElem.mp hi
    obtain ⟨s', hs', hle⟩ := hgrown sw2 s2 hs2
    rw [hlink, hnew, Function.update_self]
    exact ⟨s', hs', hi₂.trans_le hle⟩

lemma Connected.connect_numbered (h : Connected slot g) (hn : Numbered g) (doMeshAnalysis : Bool)
    (sw1 sw2 phyPort1 : ℕ) :
    Numbered (connectSwitches slot doMeshAnalysis g sw1 sw2 phyPort1) := by
  unfold connectSwitches
  split
  · next s1 s2 hs1 hs2 =>
    by_cases hself : doMeshAnalysis ∧ sw1 = sw2
    · rw [if_pos hself]
      exact hn
    · rw [if_neg hself]
      generalize (if doMeshAnalysis then s1.node.links.find? _ else none) = known
      cases known with
      | some l =>
        have hsame : ∀ l',
            (Function.update g.link l { g.link l with ports := (g.link l).ports ++ [phyPort1] } l').linkId =
              (g.link l').linkId ∧
            (Function.update g.link l { g.link l with ports := (g.link l).ports ++ [phyPort1] } l').switchId =
              (g.link l').switchId := by
          intro l'
          rw [Function.update_apply]
          split_ifs with heq
          · rw [heq]
            exact ⟨rfl, rfl⟩
          · exact ⟨rfl, rfl⟩
        intro s hs l' hl' l2 hl2
        rw [(hsame l').1] at hl2
        rw [(hsame l').2]
        exact hn s hs l' hl' l2 hl2
      | none =>
        exact h.extend_numbered hn hs1 hs2 phyPort1
  · exact hn

def connectAll (slot : ℕ → ℕ → L) (doMeshAnalysis : Bool) (g : Lash P L) (cables : List (ℕ × ℕ × ℕ)) : Lash P L :=
  cables.foldl (fun g c => connectSwitches slot doMeshAnalysis g c.1 c.2.1 c.2.2) g

lemma Connected.numbered (h : Connected slot g) (hn : Numbered g) (doMeshAnalysis : Bool)
    (cables : List (ℕ × ℕ × ℕ)) :
    Connected slot (connectAll slot doMeshAnalysis g cables) ∧
        Numbered (connectAll slot doMeshAnalysis g cables) := by
  induction cables generalizing g with
  | nil => exact ⟨h, hn⟩
  | cons c cables ih => exact ih (h.connect _ _ _ _) (h.connect_numbered hn _ _ _ _)

omit [DecidableEq L] in
lemma connected_blank (hids : ∀ i (s : Switch P L), g.switches[i]? = some s → s.id = i)
    (hblank : ∀ s ∈ g.switches, s.node.links = []) : Connected slot g ∧ Numbered g := by
  refine ⟨⟨hids, fun i s hs => ?_, fun s hs l hl => ?_⟩, fun s hs l hl => ?_⟩
  · rw [hblank s (List.mem_of_getElem? hs)]
    rfl
  · rw [hblank s hs] at hl
    cases hl
  · rw [hblank s hs] at hl
    cases hl

/-- Five switches, not yet connected; the neighbours of each will be three hops apart. -/
def fiveSwitches : Lash ℕ (ℕ × ℕ) :=
  ⟨(List.range 5).map fun i => ⟨10 + i, i, ⟨fun _ => 0, fun _ => 0, some fun i j => if i = j then 0 else 3, []⟩⟩,
    fun _ => ⟨0, none, 0, []⟩⟩

def pentagon : Lash ℕ (ℕ × ℕ) := connectAll Prod.mk true fiveSwitches
  [(0, 1, 1), (1, 0, 2), (1, 2, 1), (2, 1, 2), (2, 3, 1), (3, 2, 2), (3, 4, 1), (4, 3, 2), (4, 0, 1), (0, 4, 2)]

lemma pentagon_connected : Connected Prod.mk pentagon ∧ Numbered pentagon := by
  have hblank : Connected Prod.mk fiveSwitches ∧ Numbered fiveSwitches := by
    refine connected_blank (fun i s hs => ?_) fun s hs => ?_
    · rw [fiveSwitches, List.getElem?_map] at hs
      obtain ⟨j, hj, rfl⟩ := Option.map_eq_some_iff.mp hs
      obtain ⟨hlt, hval⟩ := List.getElem?_eq_some_iff.mp hj
      rw [List.getElem_range] at hval
      exact hval.symm
    · obtain ⟨i, -, rfl⟩ := List.mem_map.mp hs
      rfl
  exact hblank.1.numbered hblank.2 true _

end Graph

end OpenSM.LashMesh
