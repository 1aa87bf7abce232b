import OpenSM.LidMatrix
import OpenSM.Lib.Relaxation

/-! `osm_ucast_mgr_build_lid_matrices`: seeding with own and neighbour LIDs, then sweeps over all
switches that update the matrices in place until nothing changes. -/

namespace OpenSM.UcastMgr

open Switch

variable {n m : ℕ} (f : Fabric n m)

def extPorts (s : Fin n) : List ℕ := List.range' 1 (f.numPorts s - 1)

def processHop01Port (s : Fin n) (H : Hops n) (i : ℕ) : Hops n :=
  match f.remote s i with
  | some (.sw r _) => if r ≠ s then (setHops f H s (f.lid r) i (f.hopWf s i)).1 else H
  | _ => H

def processHop01 (H : Hops n) (s : Fin n) : Hops n :=
  (extPorts f s).foldl (processHop01Port f s) (setHops f H s (f.lid s) 0 0).1

/-- The body of the loop in `ucast_mgr_process_neighbor`; the flag is `some_hop_count_set`. -/
def processNeighborLid (this remote : Fin n) (portNum : ℕ) (st : Hops n × Bool) (d : Fin n) :
    Hops n × Bool :=
  let hops := getLeastHops f st.1 remote (f.lid d)
  if hops = noPath then st
  else
    let hops := hops + f.hopWf this portNum
    if hops < getHopCount f st.1 this (f.lid d) portNum then
      ((setHops f st.1 this (f.lid d) portNum (hops % 256)).1, true)
    else st

def processNeighbor (this remote : Fin n) (portNum : ℕ) (st : Hops n × Bool) : Hops n × Bool :=
  (List.finRange n).foldl (processNeighborLid f this remote portNum) st

def processNeighborsPort (s : Fin n) (st : Hops n × Bool) (portNum : ℕ) : Hops n × Bool :=
  match f.remote s portNum with
  | some (.sw r _) =>
    if r ≠ s then
      if f.linkIsHealthy s portNum then processNeighbor f s r portNum st else st
    else st
  | _ => st

def processNeighbors (st : Hops n × Bool) (s : Fin n) : Hops n × Bool :=
  (extPorts f s).foldl (processNeighborsPort f s) st

def sweep (H : Hops n) : Hops n × Bool := (List.finRange n).foldl (processNeighbors f) (H, false)

def propagate : ℕ → Hops n × Bool → Hops n × Bool
  | 0, st => st
  | k + 1, st => if st.2 then propagate k (sweep f st.1) else st

def buildLidMatrices (H : Hops n) : Hops n :=
  let H := (List.finRange n).foldl (processHop01 f) H
  let iterationMax := n
  if iterationMax ≠ 0 then (propagate f (iterationMax - 1) (H, true)).1 else H

structure Edge where
  sw : Fin n
  port : ℕ
  peer : Fin n
  peerPort : ℕ
  cabled : f.remote sw port = some (.sw peer peerPort)
  peer_ne : peer ≠ sw
  deriving DecidableEq

def graph (hf : f.Ready) : Lib.Relaxation.Graph (Fin n) (Edge f) where
  src e := e.sw
  dst e := e.peer
  wt e := f.hopWf e.sw e.port
  prop e := f.linkIsHealthy e.sw e.port = true
  wt_pos _ := hf.hopWf_pos _ _

def table (H : Hops n) : Lib.Relaxation.Table (Fin n) (Edge f) where
  edge e d := getHopCount f H e.sw (f.lid d) e.port
  node v d := getLeastHops f H v (f.lid d)

variable {f}

lemma Edge.port_lt (e : Edge f) : 0 < e.port ∧ e.port < f.numPorts e.sw :=
  f.remote_port _ _ _ e.cabled

lemma Edge.eq_of_port {e e' : Edge f} (hs : e.sw = e'.sw) (hp : e.port = e'.port) : e = e' := by
  obtain ⟨s, p, r, q, hc, hne⟩ := e
  obtain ⟨s', p', r', q', hc', hne'⟩ := e'
  obtain rfl : s = s' := hs
  obtain rfl : p = p' := hp
  rw [hc] at hc'
  cases hc'
  rfl

lemma mem_extPorts {s : Fin n} {p : ℕ} : p ∈ extPorts f s ↔ 0 < p ∧ p < f.numPorts s := by
  simp only [extPorts, List.mem_range'_1]
  omega

lemma noPath_eq : noPath = 255 := rfl

open Lib.Relaxation

/-- One table update of the code is one relaxation, as long as the entries fit a byte. -/
lemma table_processNeighborLid (hf : f.Ready) (st : Hops n × Bool) (e : Edge f) (d : Fin n)
    (hs : Sound (graph f hf) 255 (table f st.1)) :
    table f (processNeighborLid f e.sw e.peer e.port st d).1 =
      relax (graph f hf) 255 (table f st.1) (e, d) := by
  have hnode : getLeastHops f st.1 e.peer (f.lid d) ≤ 255 := hs.node_le e.peer d
  have hedge : getHopCount f st.1 e.sw (f.lid d) e.port ≤ 255 := hs.edge_le e d
  have hport := e.port_lt
  have hport0 : e.port ≠ 0 := by omega
  unfold processNeighborLid
  dsimp only
  by_cases hno : getLeastHops f st.1 e.peer (f.lid d) = noPath
  · rw [if_pos hno, relax_neg]
    rintro ⟨hlt, -⟩
    exact hlt.ne hno
  rw [if_neg hno]
  rw [noPath_eq] at hno
  by_cases hlt : getLeastHops f st.1 e.peer (f.lid d) + f.hopWf e.sw e.port <
      getHopCount f st.1 e.sw (f.lid d) e.port
  swap
  · rw [if_neg hlt, relax_neg (fun hh => hlt hh.2)]
  rw [if_pos hlt, relax_pos (show (table f st.1).node ((graph f hf).dst e) d < 255 from
    lt_of_le_of_ne hnode hno) hlt]
  have hx : (getLeastHops f st.1 e.peer (f.lid d) + f.hopWf e.sw e.port) % 256 =
      getLeastHops f st.1 e.peer (f.lid d) + f.hopWf e.sw e.port := Nat.mod_eq_of_lt (by omega)
  rw [hx]
  set x := getLeastHops f st.1 e.peer (f.lid d) + f.hopWf e.sw e.port
  have hget := getHopCount_setHops (H := st.1) (s := e.sw) (h := x) (hf.lid_pos d)
    (hf.lid_le e.sw d) hport.2
  ext a b
  · change getHopCount f (setHops f st.1 e.sw (f.lid d) e.port x).1 a.sw (f.lid b) a.port =
      if a = e ∧ b = d then x else getHopCount f st.1 a.sw (f.lid b) a.port
    have hap := a.port_lt
    rw [hget]
    by_cases hab : a = e ∧ b = d
    · obtain ⟨rfl, rfl⟩ := hab
      simp [hport0]
    · rw [if_neg hab]
      rw [if_neg (show a.port ≠ 0 by omega)]
      split_ifs with h₁ h₂
      · exact absurd ⟨Edge.eq_of_port h₁.1 h₂, hf.lid_injective h₁.2⟩ hab
      · rw [h₁.1, h₁.2]
      · rfl
  · change getHopCount f (setHops f st.1 e.sw (f.lid d) e.port x).1 a (f.lid b) 0 =
      if a = e.sw ∧ b = d then min (getHopCount f st.1 a (f.lid b) 0) x
      else getHopCount f st.1 a (f.lid b) 0
    rw [hget]
    by_cases hab : a = e.sw ∧ b = d
    · obtain ⟨rfl, rfl⟩ := hab
      simp [hport0]
    · have hn : ¬ (a = e.sw ∧ f.lid b = f.lid d) := fun hh => hab ⟨hh.1, hf.lid_injective hh.2⟩
      rw [if_neg hn, if_neg hab]

open scoped Classical in
noncomputable def order (f : Fabric n m) : List (Edge f × Fin n) :=
  (List.finRange n).flatMap fun s => (extPorts f s).flatMap fun p =>
    if h : ∃ e : Edge f, e.sw = s ∧ e.port = p ∧ f.linkIsHealthy s p = true then
      (List.finRange n).map fun d => (h.choose, d)
    else []

lemma mem_order_iff {e : Edge f} {d : Fin n} :
    (e, d) ∈ order f ↔ f.linkIsHealthy e.sw e.port = true := by
  simp only [order, List.mem_flatMap, List.mem_finRange, true_and]
  constructor
  · rintro ⟨s, p, hp, hm⟩
    split_ifs at hm with h
    · simp only [List.mem_map, Prod.mk.injEq] at hm
      obtain ⟨_, _, rfl, _⟩ := hm
      obtain ⟨hs, hpp, hh⟩ := h.choose_spec
      rw [hs, hpp]
      exact hh
    · simp at hm
  · intro hh
    have hex : ∃ e' : Edge f, e'.sw = e.sw ∧ e'.port = e.port ∧
        f.linkIsHealthy e.sw e.port = true := ⟨e, rfl, rfl, hh⟩
    refine ⟨e.sw, e.port, mem_extPorts.mpr e.port_lt, ?_⟩
    rw [dif_pos hex]
    refine List.mem_map.mpr ⟨d, List.mem_finRange d, ?_⟩
    exact Prod.ext (Edge.eq_of_port hex.choose_spec.1 hex.choose_spec.2.1) rfl

lemma prop_of_mem_order (hf : f.Ready) : ∀ i ∈ order f, (graph f hf).prop i.1 :=
  fun _ hi => mem_order_iff.mp hi

lemma mem_order_of_prop (hf : f.Ready) (e : Edge f) (he : (graph f hf).prop e) (d : Fin n) :
    (e, d) ∈ order f := mem_order_iff.mpr he

/-- A loop of the code follows a list of relaxations: the table moves as the list says. -/
def Follows (hf : f.Ready) (g : Hops n × Bool → Hops n × Bool) (l : List (Edge f × Fin n)) : Prop :=
  (∀ i ∈ l, (graph f hf).prop i.1) ∧
  ∀ st, Sound (graph f hf) 255 (table f st.1) →
    table f (g st).1 = Lib.Relaxation.sweep (graph f hf) 255 l (table f st.1)

lemma Follows.foldl {α : Type} (hf : f.Ready) (g : Hops n × Bool → α → Hops n × Bool)
    (l : α → List (Edge f × Fin n)) (xs : List α)
    (h : ∀ x ∈ xs, Follows hf (fun st => g st x) (l x)) :
    Follows hf (fun st => xs.foldl g st) (xs.flatMap l) := by
  induction xs with
  | nil => exact ⟨by simp, fun st _ => rfl⟩
  | cons x xs ih =>
    have hx := h x List.mem_cons_self
    have hxs := ih fun y hy => h y (List.mem_cons_of_mem _ hy)
    refine ⟨?_, ?_⟩
    · intro i hi
      rcases List.mem_append.mp (List.flatMap_cons ▸ hi) with hi | hi
      · exact hx.1 i hi
      · exact hxs.1 i hi
    · intro st hs
      have ht := hx.2 st hs
      have hs' := ht ▸ hs.sweep hx.1
      refine (hxs.2 (g st x) hs').trans ?_
      rw [ht, List.flatMap_cons]
      exact (List.foldl_append ..).symm

lemma follows_processNeighbor (hf : f.Ready) (e : Edge f)
    (he : f.linkIsHealthy e.sw e.port = true) :
    Follows hf (processNeighbor f e.sw e.peer e.port) ((List.finRange n).map fun d => (e, d)) := by
  have h := Follows.foldl hf (processNeighborLid f e.sw e.peer e.port) (fun d => [(e, d)])
    (List.finRange n) (by
      intro d _
      refine ⟨by simpa using! he, fun st hs => ?_⟩
      exact table_processNeighborLid hf st e d hs)
  rwa [← List.map_eq_flatMap] at h

lemma follows_sweep (hf : f.Ready) :
    Follows hf (fun st => (List.finRange n).foldl (processNeighbors f) st) (order f) := by
  refine Follows.foldl hf _ _ _ fun s _ => Follows.foldl hf _ _ _ fun p _ => ?_
  split_ifs with h
  · obtain ⟨hs, hp, hh⟩ := h.choose_spec
    generalize h.choose = e at hs hp ⊢
    subst hs hp
    have hg : (fun st => processNeighborsPort f e.sw st e.port) =
        processNeighbor f e.sw e.peer e.port := by
      funext st
      simp only [processNeighborsPort, e.cabled, hh, if_pos e.peer_ne, if_true]
    rw [hg]
    exact follows_processNeighbor hf e hh
  · refine ⟨by simp, fun st _ => ?_⟩
    have hg : processNeighborsPort f s st p = st := by
      unfold processNeighborsPort
      split
      · rename_i r q hc
        split_ifs with hr hh
        · exact absurd ⟨⟨s, p, r, q, hc, hr⟩, rfl, rfl, hh⟩ h
        · rfl
        · rfl
      · rfl
    change table f (processNeighborsPort f s st p).1 = _
    rw [hg]
    rfl

/-- A sweep that leaves `some_hop_count_set` clear has changed nothing. -/
def Idle (g : Hops n × Bool → Hops n × Bool) : Prop := ∀ st, (g st).2 = false → g st = st

lemma Idle.foldl {α : Type} (g : Hops n × Bool → α → Hops n × Bool) (xs : List α)
    (h : ∀ x ∈ xs, Idle fun st => g st x) : Idle fun st => xs.foldl g st := by
  induction xs with
  | nil => exact fun st _ => rfl
  | cons x xs ih =>
    intro st hst
    have hxs := ih (fun y hy => h y (List.mem_cons_of_mem _ hy)) (g st x) hst
    have hx : (g st x).2 = false := by
      have := congrArg Prod.snd hxs
      exact this.symm.trans hst
    exact hxs.trans (h x List.mem_cons_self st hx)

lemma idle_sweep : Idle fun st : Hops n × Bool => (List.finRange n).foldl (processNeighbors f) st := by
  refine Idle.foldl _ _ fun s _ => Idle.foldl _ _ fun p _ => ?_
  intro st hst
  dsimp only at hst ⊢
  unfold processNeighborsPort at hst ⊢
  split at hst
  · rename_i r q hc
    split_ifs at hst ⊢ with hr hh
    · refine Idle.foldl (processNeighborLid f s r p) _ (fun d _ => ?_) st hst
      intro st hst
      unfold processNeighborLid at hst ⊢
      dsimp only at hst ⊢
      split_ifs at hst ⊢ <;> rfl
    · rfl
    · rfl
  · rfl

lemma propagate_eq (k : ℕ) (H : Hops n) :
    (propagate f k (H, true)).1 = (fun H => (sweep f H).1)^[k] H := by
  induction k generalizing H with
  | zero => rfl
  | succ k ih =>
    rw [Function.iterate_succ_apply, propagate, if_pos rfl]
    cases hb : (sweep f H).2 with
    | true =>
      have he : sweep f H = ((sweep f H).1, true) := Prod.ext rfl hb
      rw [he, ih]
    | false =>
      have hfix : sweep f H = (H, false) := idle_sweep (f := f) (H, false) hb
      have hiter : (fun H => (sweep f H).1)^[k] H = H :=
        Function.iterate_fixed (congrArg Prod.fst hfix) k
      rw [hfix]
      dsimp only
      rw [hiter]
      cases k <;> rfl

lemma table_iterate (hf : f.Ready) (k : ℕ) (H : Hops n)
    (hs : Sound (graph f hf) 255 (table f H)) :
    table f ((fun H => (sweep f H).1)^[k] H) =
      (Lib.Relaxation.sweep (graph f hf) 255 (order f))^[k] (table f H) := by
  induction k generalizing H with
  | zero => rfl
  | succ k ih =>
    have ht := (follows_sweep hf).2 (H, false) hs
    rw [Function.iterate_succ_apply, Function.iterate_succ_apply]
    have hs' := ht ▸ hs.sweep (prop_of_mem_order hf)
    exact (ih _ hs').trans (congrArg _ ht)

/-- Row `s` after the own and neighbour LIDs have been entered through the ports of `ps`. -/
structure Seeded (f : Fabric n m) (s : Fin n) (ps : List ℕ) (H : Hops n) : Prop where
  hit : ∀ d p q, p ∈ ps → f.remote s p = some (.sw d q) → d ≠ s →
    getHopCount f H s (f.lid d) p = f.hopWf s p
  miss : ∀ d p, p ≠ 0 → getHopCount f H s (f.lid d) p = 255 ∨
    (∃ q, f.remote s p = some (.sw d q)) ∧ d ≠ s ∧ getHopCount f H s (f.lid d) p = f.hopWf s p
  self : getHopCount f H s (f.lid s) 0 = 0
  le : ∀ d p, p ≠ 0 → getHopCount f H s (f.lid d) 0 ≤ getHopCount f H s (f.lid d) p
  attained : ∀ d, d ≠ s → getHopCount f H s (f.lid d) 0 = 255 ∨
    ∃ p, p ≠ 0 ∧ getHopCount f H s (f.lid d) p = getHopCount f H s (f.lid d) 0

lemma Seeded.port (hf : f.Ready) {s : Fin n} {ps : List ℕ} {H : Hops n} (h : Seeded f s ps H)
    {p : ℕ} (hp : p ∈ extPorts f s) : Seeded f s (ps ++ [p]) (processHop01Port f s H p) := by
  obtain ⟨hp0, hpn⟩ := mem_extPorts.mp hp
  have hskip (hno : ∀ r q, f.remote s p = some (.sw r q) → r = s) : Seeded f s (ps ++ [p]) H := by
    refine ⟨?_, h.miss, h.self, h.le, h.attained⟩
    intro d p' q hm hr hd
    rcases List.mem_append.mp hm with hm | hm
    · exact h.hit d p' q hm hr hd
    · obtain rfl := List.mem_singleton.mp hm
      exact absurd (hno d q hr) hd
  unfold processHop01Port
  split
  swap
  · rename_i hn
    exact hskip fun r q hr => (hn r q hr).elim
  rename_i r q hr
  split_ifs with hne
  swap
  · refine hskip fun r' q' hr' => ?_
    rw [hr] at hr'
    cases hr'
    exact not_not.mp hne
  have hget := getHopCount_setHops (H := H) (s := s) (p := p) (h := f.hopWf s p) (hf.lid_pos r)
    (hf.lid_le s r) hpn
  have hp0' : p ≠ 0 := by omega
  have hcol : ∀ d p', p' ≠ 0 → getHopCount f (setHops f H s (f.lid r) p (f.hopWf s p)).1 s (f.lid d) p' =
      if d = r ∧ p' = p then f.hopWf s p else getHopCount f H s (f.lid d) p' := by
    intro d p' hp'
    rw [hget]
    by_cases hd : d = r
    · subst hd
      simp [hp']
    · have hl : f.lid d ≠ f.lid r := fun hh => hd (hf.lid_injective hh)
      simp [hl, hd]
  have hzero : ∀ d, getHopCount f (setHops f H s (f.lid r) p (f.hopWf s p)).1 s (f.lid d) 0 =
      if d = r then min (getHopCount f H s (f.lid d) 0) (f.hopWf s p)
      else getHopCount f H s (f.lid d) 0 := by
    intro d
    rw [hget]
    by_cases hd : d = r
    · subst hd
      simp [hp0']
    · have hl : f.lid d ≠ f.lid r := fun hh => hd (hf.lid_injective hh)
      simp [hl, hd]
  constructor
  · intro d p' q' hm hr' hd
    have hp' : p' ≠ 0 := by have := f.remote_port _ _ _ hr'; omega
    rw [hcol d p' hp']
    split_ifs with hh
    · rw [hh.2]
    · rcases List.mem_append.mp hm with hm | hm
      · exact h.hit d p' q' hm hr' hd
      · obtain rfl := List.mem_singleton.mp hm
        rw [hr] at hr'
        cases hr'
        exact absurd ⟨rfl, rfl⟩ hh
  · intro d p' hp'
    rw [hcol d p' hp']
    split_ifs with hh
    · obtain ⟨rfl, rfl⟩ := hh
      exact Or.inr ⟨⟨q, hr⟩, hne, rfl⟩
    · exact h.miss d p' hp'
  · rw [hzero, if_neg (Ne.symm hne)]
    exact h.self
  · intro d p' hp'
    rw [hcol d p' hp', hzero]
    have hle := h.le d p' hp'
    split_ifs with h₁ h₂ h₂
    · exact min_le_right _ _
    · exact (min_le_left _ _).trans hle
    · exact absurd h₂.1 h₁
    · exact hle
  · intro d hd
    rw [hzero]
    split_ifs with h₁
    · subst h₁
      rcases le_total (getHopCount f H s (f.lid d) 0) (f.hopWf s p) with hm | hm
      · rw [min_eq_left hm]
        rcases h.attained d hd with h255 | ⟨p', hp', he⟩
        · exact Or.inl h255
        · refine Or.inr ⟨p', hp', ?_⟩
          rw [hcol d p' hp']
          split_ifs with h₂
          · obtain ⟨-, rfl⟩ := h₂
            have hwf := hf.hopWf_le s p'
            rcases h.miss d p' hp' with hmiss | ⟨-, -, hhit⟩
            · omega
            · exact hhit.symm.trans he
          · exact he
      · rw [min_eq_right hm]
        exact Or.inr ⟨p, hp0', by rw [hcol d p hp0']; simp⟩
    · rcases h.attained d hd with h255 | ⟨p', hp', he⟩
      · exact Or.inl h255
      · refine Or.inr ⟨p', hp', ?_⟩
        rw [hcol d p' hp', if_neg (fun hh => h₁ hh.1)]
        exact he

lemma Seeded.ports (hf : f.Ready) {s : Fin n} (qs ps : List ℕ) {H : Hops n}
    (h : Seeded f s ps H) (hq : ∀ p ∈ qs, p ∈ extPorts f s) :
    Seeded f s (ps ++ qs) (qs.foldl (processHop01Port f s) H) := by
  induction qs generalizing ps H with
  | nil => simpa using h
  | cons p qs ih =>
    have hp := h.port hf (hq p List.mem_cons_self)
    have hqs := ih (ps ++ [p]) hp fun q hm => hq q (List.mem_cons_of_mem _ hm)
    simpa using hqs

lemma seeded_processHop01 (hf : f.Ready) {s : Fin n} {H : Hops n}
    (hfresh : ∀ l p, getHopCount f H s l p = 255) : Seeded f s (extPorts f s) (processHop01 f H s) := by
  have hget := getHopCount_setHops (H := H) (s := s) (p := 0) (h := 0) (hf.lid_pos s)
    (hf.lid_le s s) (f.numPorts_pos s)
  have hcol : ∀ d p, p ≠ 0 → getHopCount f (setHops f H s (f.lid s) 0 0).1 s (f.lid d) p = 255 := by
    intro d p hp
    rw [hget]
    simp [hp, hfresh]
  have hself : getHopCount f (setHops f H s (f.lid s) 0 0).1 s (f.lid s) 0 = 0 := by
    rw [hget]
    simp
  have hzero : ∀ d, d ≠ s → getHopCount f (setHops f H s (f.lid s) 0 0).1 s (f.lid d) 0 = 255 := by
    intro d hd
    have hl : f.lid d ≠ f.lid s := fun hh => hd (hf.lid_injective hh)
    rw [hget]
    simp [hl, hfresh]
  have h0 : Seeded f s [] (setHops f H s (f.lid s) 0 0).1 := by
    refine ⟨by simp, fun d p hp => Or.inl (hcol d p hp), hself, ?_, fun d hd => Or.inl (hzero d hd)⟩
    intro d p hp
    rw [hcol d p hp]
    by_cases hd : d = s
    · rw [hd, hself]
      omega
    · rw [hzero d hd]
  exact h0.ports hf (extPorts f s) [] fun p hp => hp

lemma getHopCount_processHop01_ne {s s' : Fin n} (hne : s' ≠ s) (H : Hops n) (l p : ℕ) :
    getHopCount f (processHop01 f H s) s' l p = getHopCount f H s' l p := by
  have hports : ∀ (ps : List ℕ) (H : Hops n),
      getHopCount f (ps.foldl (processHop01Port f s) H) s' l p = getHopCount f H s' l p := by
    intro ps
    induction ps with
    | nil => exact fun H => rfl
    | cons q ps ih =>
      intro H
      rw [List.foldl_cons, ih]
      unfold processHop01Port
      split
      · split_ifs
        · exact getHopCount_setHops_ne _ _ _ fun hh => hne hh.1
        · rfl
      · rfl
  rw [processHop01, hports]
  exact getHopCount_setHops_ne _ _ _ fun hh => hne hh.1

lemma seeded_foldl (hf : f.Ready) (l : List (Fin n)) (hl : l.Nodup)
    (H : Hops n) {s : Fin n} (hs : s ∈ l) (hfresh : ∀ l p, getHopCount f H s l p = 255) :
    Seeded f s (extPorts f s) (l.foldl (processHop01 f) H) := by
  induction l generalizing H with
  | nil => simp at hs
  | cons a l ih =>
    rw [List.foldl_cons]
    obtain ⟨ha, hl'⟩ := List.nodup_cons.mp hl
    rcases List.mem_cons.mp hs with rfl | hs
    · have hrow : ∀ l' p, getHopCount f (l.foldl (processHop01 f) (processHop01 f H s)) s l' p =
          getHopCount f (processHop01 f H s) s l' p := by
        clear ih hl hl' hs
        generalize processHop01 f H s = K
        induction l generalizing K with
        | nil => exact fun _ _ => rfl
        | cons b l ih =>
          intro l' p
          have hb : s ≠ b ∧ s ∉ l := by simpa using ha
          rw [List.foldl_cons, ih hb.2]
          exact getHopCount_processHop01_ne hb.1 _ _ _
      obtain ⟨h₁, h₂, h₃, h₄, h₅⟩ := seeded_processHop01 hf hfresh
      constructor <;> simpa only [hrow]
    · refine ih hl' _ hs fun l' p => ?_
      have hne : s ≠ a := fun h => ha (h ▸ hs)
      rw [getHopCount_processHop01_ne hne]
      exact hfresh l' p

/-- The seeded matrices are a sound relaxation table. -/
lemma sound_of_seeded (hf : f.Ready) {H : Hops n} (h : ∀ s, Seeded f s (extPorts f s) H) :
    Sound (graph f hf) 255 (table f H) := by
  have hport : ∀ e : Edge f, e.port ≠ 0 := fun e => by have := e.port_lt; omega
  have hedge : ∀ (e : Edge f) d, getHopCount f H e.sw (f.lid d) e.port = 255 ∨
      d = e.peer ∧ getHopCount f H e.sw (f.lid d) e.port = f.hopWf e.sw e.port := by
    intro e d
    rcases (h e.sw).miss d e.port (hport e) with h255 | ⟨⟨q, hq⟩, -, hw⟩
    · exact Or.inl h255
    · have hc := e.cabled
      rw [hc] at hq
      cases hq
      exact Or.inr ⟨rfl, hw⟩
  have hle : ∀ (e : Edge f) d, getHopCount f H e.sw (f.lid d) e.port ≤ 255 := by
    intro e d
    have := hf.hopWf_le e.sw e.port
    rcases hedge e d with h255 | ⟨-, hw⟩ <;> omega
  have hoffer : ∀ e : Edge f, (graph f hf).offer e e.peer = f.hopWf e.sw e.port := by
    intro e
    by_cases hp : (graph f hf).prop e
    · rw [Graph.offer, if_pos hp]
      change (f.hopWf e.sw e.port : ℕ∞) + Lib.Paths.dist _ _ e.peer e.peer = _
      simp
    · rw [Graph.offer, if_neg hp]
      exact if_pos rfl
  have hatt : ∀ v d, v ≠ d → getHopCount f H v (f.lid d) 0 < 255 → ∃ e : Edge f, e.sw = v ∧
      e.peer = d ∧ getHopCount f H v (f.lid d) e.port = getHopCount f H v (f.lid d) 0 ∧
      getHopCount f H v (f.lid d) e.port = f.hopWf v e.port := by
    intro v d hne hlt
    rcases (h v).attained d (Ne.symm hne) with h255 | ⟨p, hp, hpe⟩
    · omega
    · rcases (h v).miss d p hp with h255 | ⟨⟨q, hq⟩, hd, hw⟩
      · omega
      · exact ⟨⟨v, p, d, q, hq, hd⟩, rfl, rfl, hpe, hw⟩
  constructor
  · exact hle
  · intro v d
    by_cases hvd : v = d
    · subst hvd
      exact ((h v).self).le.trans (by omega)
    · rcases (h v).attained d (Ne.symm hvd) with h255 | ⟨p, hp, hpe⟩
      · exact h255.le
      · change getHopCount f H v (f.lid d) 0 ≤ 255
        rw [← hpe]
        rcases (h v).miss d p hp with h255 | ⟨-, -, hw⟩
        · exact h255.le
        · exact hw.le.trans (hf.hopWf_le v p)
  · intro e d hlt
    change getHopCount f H e.sw (f.lid d) e.port < 255 at hlt
    change _ ≤ ((getHopCount f H e.sw (f.lid d) e.port : ℕ) : ℕ∞)
    rcases hedge e d with h255 | ⟨rfl, hw⟩
    · omega
    · rw [hw, hoffer]
  · intro v d hlt
    by_cases hvd : v = d
    · subst hvd
      exact (Lib.Paths.dist_self v).le.trans (by simp)
    · obtain ⟨e, rfl, rfl, hpe, hw⟩ := hatt v d hvd hlt
      have hd := offer_le_dist (G := graph f hf) e e.peer
      rw [hoffer e] at hd
      change _ ≤ ((getHopCount f H e.sw (f.lid e.peer) 0 : ℕ) : ℕ∞)
      rw [← hpe, hw]
      exact hd
  · exact fun d => (h d).self
  · exact fun e d => (h e.sw).le d e.port (hport e)
  · intro v d hne hlt
    obtain ⟨e, rfl, rfl, hpe, -⟩ := hatt v d hne hlt
    exact ⟨e, rfl, hpe⟩
  · intro e
    exact ((h e.sw).hit e.peer e.port e.peerPort (mem_extPorts.mpr e.port_lt) e.cabled e.peer_ne).le

end OpenSM.UcastMgr
