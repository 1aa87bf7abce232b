import OpenSM.MulticastSpec
import OpenSM.McastTbl

/-! `osm_mcast_mgr_process`: the requested MLIDs are routed again, and the blocks in use are sent. -/

namespace OpenSM.McastProcess

open Lib Lib.Runs Multicast McastTbl

structure Fabric (n : ℕ) where
  numPorts : Fin n → ℕ
  capacity : Fin n → ℕ
  maxMcastLid : ℕ
  owner : Guid → Guid
  /-- `mcast_build_stree` of the routing engine: the bits it sets for the members of an MLID. -/
  buildStree : ℕ → List Guid → Fin n → List ℕ
  stree_port : ∀ mlid l s p, p ∈ buildStree mlid l s → capacity s ≠ 0 ∧ p < numPorts s

def groupPorts (d : Subn) (m : Mgid) : List Guid := (d.mgrpMgidTbl.get m).elim [] fun g => g.mcmPortTbl.keys

/-- `osm_mcast_make_port_list_and_map`. -/
def makePortList (d : Subn) (mlid : ℕ) : List Guid :=
  ((d.mboxes mlid).flatMap (groupPorts d)).foldl (fun l p => if p ∈ l then l else l ++ [p]) []

structure Sm (n : ℕ) where
  subn : Subn
  sw : Fin n → Switch

variable {n : ℕ} (F : Fabric n)

def Sm.init : Sm n where
  subn := Subn.init
  sw s := ⟨McastTbl.init (F.numPorts s) (F.capacity s), fun _ _ => 0, 0, 0⟩

def highestBox (d : Subn) : ℕ → Option ℕ
  | 0 => if d.mboxes 0 ≠ [] then some 0 else none
  | i + 1 => if d.mboxes (i + 1) ≠ [] then some (i + 1) else highestBox d i

def allocMfts (d : Subn) (sw : Fin n → Switch) : Fin n → Switch :=
  match highestBox d F.maxMcastLid with
  | none => sw
  | some i => fun s => { sw s with mcastTbl := realloc (sw s).mcastTbl i }

def buildTree (d : Subn) (mlid : ℕ) (s : Fin n) (t : Tbl) : Tbl :=
  (F.buildStree mlid (makePortList d mlid) s).foldl (fun t port => set t mlid port) t

def processMlid (d : Subn) (mlid : ℕ) (sw : Fin n → Switch) : Fin n → Switch :=
  let sw := fun s => { sw s with mcastTbl := clearMlid (sw s).mcastTbl mlid }
  if d.mboxes mlid = [] then sw
  else fun s => { sw s with mcastTbl := buildTree F d mlid s (sw s).mcastTbl }

def Due (configAll : Bool) (d : Subn) (i : ℕ) : Prop := d.mlidsReq i = true ∨ configAll = true ∧ d.mboxes i ≠ []

instance (configAll : Bool) (d : Subn) (i : ℕ) : Decidable (Due configAll d i) :=
    inferInstanceAs (Decidable (_ ∨ _))

def processStep (configAll : Bool) (s : Sm n) (i : ℕ) : Sm n :=
  if Due configAll s.subn i then
    { subn := { s.subn with mlidsReq := Function.update s.subn.mlidsReq i false }
      sw := processMlid F s.subn i s.sw }
  else s

def process (configAll : Bool) (s : Sm n) : Sm n :=
  if n = 0 then s
  else
    let s := { s with sw := allocMfts F s.subn s.sw }
    let maxMlid := if configAll then F.maxMcastLid else s.subn.mlidsReqMax
    let s := (List.range (maxMlid + 1)).foldl (processStep F configAll) s
    { subn := { s.subn with mlidsReqMax := 0 }, sw := setMftables s.sw }

inductive Act
  | op (o : Op)
  | process (configAll : Bool)

def Allowed : Op → Prop
  | .addMcgroup mlid _ => mlid ≤ F.maxMcastLid
  | .create mlid _ _ => mlid ≤ F.maxMcastLid
  | _ => True

instance : ∀ o, Decidable (Allowed F o)
  | .addMcgroup mlid _ => inferInstanceAs (Decidable (mlid ≤ _))
  | .create mlid _ _ => inferInstanceAs (Decidable (mlid ≤ _))
  | .join .. => instDecidableTrue
  | .leave .. => instDecidableTrue
  | .deletePort .. => instDecidableTrue

/-- The subnet manager, and the subnet as `osm_mcast_mgr_process` last left it. -/
structure Watched (n : ℕ) where
  sm : Sm n
  last : Subn

def Watched.init : Watched n := ⟨Sm.init F, Subn.init⟩

def step (s : Watched n) : Act → Option (Watched n)
  | .op o =>
    if Allowed F o then (Multicast.step F.owner s.sm.subn o).map fun d => { s with sm := { s.sm with subn := d } }
    else none
  | .process configAll =>
    let sm := process F configAll s.sm
    some ⟨sm, sm.subn⟩

/-- A leave that closes the group takes its base port out, or the MLID is requested already. -/
def LeaveRerouted (d : Subn) (g : Mgrp) (guid : Guid) (a : Alias) (leave : JoinState) : Prop :=
  let new := joinStateOf a &&& ~~~leave
  isFull (joinStateOf a) = true ∧ isFull new = false ∧ g.fullMembers ≤ 1 →
    d.mlidsReq g.mlid = true ∨
      keepsEntry g (joinStateOf a) new = false ∧ aliasLeft (g.mcmAliasPortTbl.remove guid) a.port = false

/-- The port is not the only one with full members, or the last of its GUIDs is a full member, or the
MLID is requested already. -/
def DeleteRerouted (d : Subn) (g : Mgrp) (port : Guid) : Prop :=
  d.mlidsReq g.mlid = true ∨
  (g.mcmAliasPortTbl.countP fun a => a.port = port && isFull (joinStateOf a)) < g.fullMembers ∨
  ∀ guid a, g.mcmAliasPortTbl.get guid = some a → a.port = port →
    ∃ guid' a', g.mcmAliasPortTbl.get guid' = some a' ∧ guid ≤ guid' ∧ a'.port = port ∧
        isFull (joinStateOf a') = true

/-- The condition on a step: when a group is closed, its MLID is requested. -/
def Rerouted (d : Subn) : Act → Prop
  | .op (.leave m guid leave) => ∀ g a, d.mgrpMgidTbl.get m = some g → g.mcmAliasPortTbl.get guid = some a →
      LeaveRerouted d g guid a leave
  | .op (.deletePort m port) => ∀ g, d.mgrpMgidTbl.get m = some g → DeleteRerouted d g port
  | _ => True

def Member (d : Subn) (mlid : ℕ) (p : Guid) : Prop := ∃ m ∈ d.mboxes mlid, p ∈ groupPorts d m

/-- What the switches hold after `osm_mcast_mgr_process`. -/
structure Current (before : Subn) (s : Sm n) : Prop where
  unused : ∀ i, s.subn.mboxes i = [] → ∀ sw pos, (s.sw sw).mft i pos = 0
  changed : ∀ i, (¬∀ p, Member s.subn i p ↔ Member before i p) → s.subn.mboxes i ≠ [] → ∀ sw port,
    forwards (s.sw sw).mft i port = decide (port ∈ F.buildStree i (makePortList s.subn i) sw)

variable {F}

section Trees

variable {d : Subn} {sw : Fin n → Switch}

lemma highestBox_none {i : ℕ} (h : highestBox d i = none) : ∀ j ≤ i, d.mboxes j = [] := by
  induction i with
  | zero =>
    intro j hj
    obtain rfl := Nat.le_zero.mp hj
    rw [highestBox] at h
    split_ifs at h with hbox
    exact not_not.mp hbox
  | succ i ih =>
    intro j hj
    rw [highestBox] at h
    split_ifs at h with hbox
    rcases Nat.le_succ_iff.mp hj with hj | rfl
    · exact ih h j hj
    · exact not_not.mp hbox

lemma le_highestBox {i k : ℕ} (h : highestBox d i = some k) : ∀ j ≤ i, d.mboxes j ≠ [] → j ≤ k := by
  induction i with
  | zero =>
    intro j hj _
    exact hj.trans (Nat.zero_le k)
  | succ i ih =>
    intro j hj hbox
    rw [highestBox] at h
    split_ifs at h with htop
    · obtain rfl := Option.some.inj h
      exact hj
    · rcases Nat.le_succ_iff.mp hj with hj | rfl
      · exact ih h j hj hbox
      · exact absurd hbox htop

lemma allocMfts_spec (h : ∀ s, Blank (sw s).mcastTbl) (s : Fin n) :
    Blank (allocMfts F d sw s).mcastTbl ∧
      (allocMfts F d sw s).mcastTbl.maskTbl = (sw s).mcastTbl.maskTbl ∧
      (allocMfts F d sw s).mcastTbl.maxPosition = (sw s).mcastTbl.maxPosition ∧
      (allocMfts F d sw s).mft = (sw s).mft ∧
      (allocMfts F d sw s).mcastTbl.maxBlockInUse = (sw s).mcastTbl.maxBlockInUse ∧
      ∀ i ≤ F.maxMcastLid, d.mboxes i ≠ [] → i < (allocMfts F d sw s).mcastTbl.mftDepth := by
  unfold allocMfts
  cases hbox : highestBox d F.maxMcastLid with
  | none => exact ⟨h s, rfl, rfl, rfl, rfl, fun i hi hne => absurd (highestBox_none hbox i hi) hne⟩
  | some k =>
    refine ⟨realloc_blank (h s) k, realloc_maskTbl (h s) k, (realloc_frame _ k).1, rfl, (realloc_frame _ k).2,
      fun i hi hne => ?_⟩
    exact (le_highestBox hbox i hi hne).trans_lt (le_realloc_mftDepth _ k).2

structure Extends (t t' : Tbl) (mlid : ℕ) (l : List ℕ) : Prop where
  blank : Blank t'
  depth : t'.mftDepth = t.mftDepth
  position : t'.maxPosition = t.maxPosition
  inUse : t.maxBlockInUse ≤ t'.maxBlockInUse
  other : ∀ i, i ≠ mlid → t'.maskTbl i = t.maskTbl i
  bits : ∀ port, forwards t'.maskTbl mlid port = (forwards t.maskTbl mlid port || decide (port ∈ l))

lemma foldl_set_extends {mlid : ℕ} {t : Tbl} (l : List ℕ) (h : Blank t) (hm : mlid < t.mftDepth)
    (hl : ∀ port ∈ l, port / maskSize ≤ t.maxPosition) :
    Extends t (l.foldl (fun t port => set t mlid port) t) mlid l := by
  induction l generalizing t with
  | nil => exact ⟨h, rfl, rfl, le_rfl, fun _ _ => rfl, by simp⟩
  | cons p l ih =>
    have hset := ih (set_blank h hm (hl p List.mem_cons_self)) hm fun port hp => hl port
        (List.mem_cons_of_mem p hp)
    refine ⟨hset.blank, hset.depth, hset.position, (le_set_maxBlockInUse t mlid p).1.trans hset.inUse,
        fun i hi => ?_, fun port => ?_⟩
    · rw [List.foldl_cons, hset.other i hi, set_maskTbl_ne hi]
    · rw [List.foldl_cons, hset.bits, forwards_set, Bool.or_assoc, ← Bool.decide_or]
      simp only [List.mem_cons]

/-- The row of an MLID is that of the tree of its members, or empty when it has no box. -/
structure Routed (F : Fabric n) (d : Subn) (i : ℕ) (s : Fin n) (t : Mask) : Prop where
  unused : d.mboxes i = [] → ∀ pos, t i pos = 0
  tree : d.mboxes i ≠ [] → ∀ port, forwards t i port = decide (port ∈ F.buildStree i (makePortList d i) s)

structure Tables (F : Fabric n) (d : Subn) (sw : Fin n → Switch) : Prop where
  blank : ∀ s, Blank (sw s).mcastTbl
  position : ∀ s, (sw s).mcastTbl.maxPosition = (McastTbl.init (F.numPorts s) (F.capacity s)).maxPosition
  depth : ∀ s, ∀ i ≤ F.maxMcastLid, d.mboxes i ≠ [] → i < (sw s).mcastTbl.mftDepth

lemma processMlid_spec {i : ℕ} (h : Tables F d sw) (hi : i ≤ F.maxMcastLid) :
    Tables F d (processMlid F d i sw) ∧
      ∀ s, (processMlid F d i sw s).mft = (sw s).mft ∧
        (sw s).mcastTbl.maxBlockInUse ≤ (processMlid F d i sw s).mcastTbl.maxBlockInUse ∧
        (∀ j, j ≠ i → (processMlid F d i sw s).mcastTbl.maskTbl j = (sw s).mcastTbl.maskTbl j) ∧
        Routed F d i s (processMlid F d i sw s).mcastTbl.maskTbl := by
  have hclear : ∀ s j, j ≠ i → (clearMlid (sw s).mcastTbl i).maskTbl j = (sw s).mcastTbl.maskTbl j := by
    intro s j hj
    funext pos
    rw [clearMlid_maskTbl (h.blank s), if_neg hj]
  have hzero : ∀ s pos, (clearMlid (sw s).mcastTbl i).maskTbl i pos = 0 := by
    intro s pos
    rw [clearMlid_maskTbl (h.blank s), if_pos rfl]
  have htables : Tables F d fun s => { sw s with mcastTbl := clearMlid (sw s).mcastTbl i } := by
    refine ⟨fun s => clearMlid_blank (h.blank s) i, fun s => ?_, fun s j hj hne => ?_⟩
    · exact (clearMlid_frame _ i).1.trans (h.position s)
    · exact (clearMlid_frame (sw s).mcastTbl i).2.2 ▸ h.depth s j hj hne
  unfold processMlid
  by_cases hbox : d.mboxes i = []
  · simp only [if_pos hbox]
    exact ⟨htables, fun s => ⟨trivial, (clearMlid_frame _ i).2.1.ge, hclear s, fun _ => hzero s,
        fun hne => absurd hbox hne⟩⟩
  · simp only [if_neg hbox]
    have hext : ∀ s, Extends (clearMlid (sw s).mcastTbl i) (buildTree F d i s (clearMlid (sw s).mcastTbl i)) i
        (F.buildStree i (makePortList d i) s) := by
      intro s
      refine foldl_set_extends _ (htables.blank s) (htables.depth s i hi hbox) fun port hp => ?_
      obtain ⟨hcap, hlt⟩ := F.stree_port _ _ _ _ hp
      exact (le_maxPosition hcap hlt).trans (htables.position s).ge
    refine ⟨⟨fun s => (hext s).blank, fun s => (hext s).position.trans (htables.position s), fun s j hj hne => ?_⟩,
      fun s => ⟨trivial, (clearMlid_frame _ i).2.1.ge.trans (hext s).inUse,
          fun j hj => ((hext s).other j hj).trans (hclear s j hj), fun he => absurd he hbox,
        fun _ port => ?_⟩⟩
    · exact (hext s).depth ▸ htables.depth s j hj hne
    · rw [(hext s).bits]
      simp [forwards, hzero s]

/-- The loop of `osm_mcast_mgr_process` has gone through the MLIDs below `k`. -/
structure Looped (F : Fabric n) (configAll : Bool) (s₀ s : Sm n) (k : ℕ) : Prop where
  subn : s.subn = { s₀.subn with
    mlidsReq := fun i => if i < k ∧ Due configAll s₀.subn i then false else s₀.subn.mlidsReq i }
  tables : Tables F s₀.subn s.sw
  mft : ∀ sw, (s.sw sw).mft = (s₀.sw sw).mft
  inUse : ∀ sw, (s₀.sw sw).mcastTbl.maxBlockInUse ≤ (s.sw sw).mcastTbl.maxBlockInUse
  kept : ∀ sw i, ¬(i < k ∧ Due configAll s₀.subn i) → (s.sw sw).mcastTbl.maskTbl i = (s₀.sw sw).mcastTbl.maskTbl i
  routed : ∀ sw i, i < k → Due configAll s₀.subn i → Routed F s₀.subn i sw (s.sw sw).mcastTbl.maskTbl

lemma processMlid_congr {d d' : Subn} (hm : d'.mgrpMgidTbl = d.mgrpMgidTbl) (hb : d'.mboxes = d.mboxes) (i : ℕ)
    (sw : Fin n → Switch) : processMlid F d' i sw = processMlid F d i sw := by
  have hports : groupPorts d' = groupPorts d := by
    funext m
    rw [groupPorts, groupPorts, hm]
  unfold processMlid buildTree makePortList
  rw [hports, hb]

lemma processStep_looped {configAll : Bool} {s₀ s : Sm n} {k : ℕ} (h : Looped F configAll s₀ s k)
    (hk : k ≤ F.maxMcastLid) : Looped F configAll s₀ (processStep F configAll s k) (k + 1) := by
  have hlt : ∀ i, i < k + 1 ↔ i < k ∨ i = k := fun i => Nat.lt_succ_iff_lt_or_eq
  have hdue : Due configAll s.subn k ↔ Due configAll s₀.subn k := by
    rw [h.subn]
    simp [Due]
  unfold processStep
  by_cases hd : Due configAll s₀.subn k
  · rw [if_pos (hdue.mpr hd)]
    have hcongr : processMlid F s.subn k s.sw = processMlid F s₀.subn k s.sw := by
      rw [h.subn]
      exact processMlid_congr rfl rfl k s.sw
    rw [hcongr]
    have hreq : Function.update
        (fun i => if i < k ∧ Due configAll s₀.subn i then false else s₀.subn.mlidsReq i) k false =
        fun i => if i < k + 1 ∧ Due configAll s₀.subn i then false else s₀.subn.mlidsReq i := by
      funext i
      by_cases hi : i = k
      · simp [hi, hd]
      · simp [hi, hlt]
    obtain ⟨htables, hspec⟩ := processMlid_spec h.tables hk
    refine ⟨?_, htables, fun sw => (hspec sw).1.trans (h.mft sw), fun sw => (h.inUse sw).trans (hspec sw).2.1,
      fun sw i hi => ?_, fun sw i hi hdi => ?_⟩
    · simp only [h.subn, hreq]
    · have hne : i ≠ k := by
        rintro rfl
        exact hi ⟨Nat.lt_succ_self i, hd⟩
      rw [(hspec sw).2.2.1 i hne, h.kept sw i fun hi' => hi ⟨hi'.1.trans (Nat.lt_succ_self k), hi'.2⟩]
    · by_cases hik : i = k
      · subst hik
        exact (hspec sw).2.2.2
      · have hr := h.routed sw i (by omega) hdi
        refine ⟨fun hbox pos => ?_, fun hbox port => ?_⟩
        · rw [(hspec sw).2.2.1 i hik, hr.unused hbox]
        · rw [forwards, (hspec sw).2.2.1 i hik]
          exact hr.tree hbox port
  · rw [if_neg fun hd' => hd (hdue.mp hd')]
    have hand : ∀ i, (i < k + 1 ∧ Due configAll s₀.subn i) ↔ (i < k ∧ Due configAll s₀.subn i) := by
      intro i
      refine ⟨fun ⟨hi, hdi⟩ => ⟨?_, hdi⟩, fun ⟨hi, hdi⟩ => ⟨hi.trans (Nat.lt_succ_self k), hdi⟩⟩
      refine ((hlt i).mp hi).resolve_right ?_
      rintro rfl
      exact hd hdi
    refine ⟨?_, h.tables, h.mft, h.inUse, fun sw i hi => h.kept sw i fun hi' => hi ((hand i).mpr hi'),
      fun sw i hi hdi => h.routed sw i ((hand i).mp ⟨hi, hdi⟩).1 hdi⟩
    rw [h.subn]
    simp only [hand]

lemma foldl_processStep {configAll : Bool} {s : Sm n} (h : Tables F s.subn s.sw) (k : ℕ)
    (hk : k ≤ F.maxMcastLid + 1) :
    Looped F configAll s ((List.range k).foldl (processStep F configAll) s) k := by
  induction k with
  | zero =>
    exact ⟨by simp, h, fun _ => rfl, fun _ => le_rfl, fun _ _ _ => rfl,
        fun _ i hi => absurd hi (Nat.not_lt_zero i)⟩
  | succ k ih =>
    rw [List.range_succ, List.foldl_append]
    exact processStep_looped (ih (by omega)) (by omega)

end Trees

end OpenSM.McastProcess
