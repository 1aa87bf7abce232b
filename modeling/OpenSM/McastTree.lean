import OpenSM.McastMgr
import OpenSM.Lib.Forest
import OpenSM.Lib.Folds

/-! The forwarding entries of a multicast group form a tree. Members are led along greedy shortest
paths, and two of these that meet again have never been apart. -/

namespace OpenSM.McastMgr

open Switch UcastMgr

variable {n m : ℕ} {u : Subnet n m}

/-- The port that `mcast_mgr_subdivide` finds for a member at switch `s`. -/
def mcastPort (u : Subnet n m) (H : Hops n) (s : Fin n) (e : EndPort n m) : ℕ :=
  match target u e with
  | none => noPath
  | some (d, q) => if d = s then q else firstLeastPort u H s (u.lid d)

lemma recommendMcastPath_eq (H : Hops n) (t : Mft n) (s : Fin n) (e : EndPort n m) (mlid : ℕ) :
    recommendMcastPath u H t s e mlid true = mcastPort u H s e := by
  cases ht : target u e with
  | none => simp only [recommendMcastPath, mcastPort, ht]
  | some t => simp only [recommendMcastPath, mcastPort, ht, if_true]

section Greedy

variable (hf : u.Ready) (hh : u.AllHealthy) (H₀ : Hops n)

include hf hh

/-- The first least hop port: it is the first edge of a lightest path, and no smaller port is. -/
lemma firstLeastPort_spec {s d : Fin n} (hne : s ≠ d) (hd : u.dist s d < (noPath : ℕ∞)) :
    ∃ e : Edge u.toFabric, e.sw = s ∧ e.port = firstLeastPort u (minHops u H₀) s (u.lid d) ∧
      u.dist s d = u.hopWf s e.port + u.dist e.peer d ∧
      ∀ e' : Edge u.toFabric, e'.sw = s → u.dist s d = u.hopWf s e'.port + u.dist e'.peer d →
        e.port ≤ e'.port := by
  have hleast := getLeastHops_build (f := u.toFabric) hf hh H₀ s d
  rw [min_eq_right hd.le] at hleast
  change ((getLeastHops u.toFabric (minHops u H₀) s (u.lid d) : ℕ) : ℕ∞) = _ at hleast
  have hlt : getLeastHops u.toFabric (minHops u H₀) s (u.lid d) < noPath := by
    rw [← hleast] at hd
    exact_mod_cast hd
  have hedge : ∀ e : Edge u.toFabric, e.sw = s →
      (getHopCount u.toFabric (minHops u H₀) s (u.lid d) e.port =
        getLeastHops u.toFabric (minHops u H₀) s (u.lid d) ↔
        u.dist s d = u.hopWf s e.port + u.dist e.peer d) := by
    rintro e rfl
    have he := getHopCount_build (f := u.toFabric) hf hh H₀ e d
    change ((getHopCount u.toFabric (minHops u H₀) e.sw (u.lid d) e.port : ℕ) : ℕ∞) = _ at he
    rw [← Nat.cast_inj (R := ℕ∞), hleast, he]
    constructor
    · intro h
      rcases min_choice (noPath : ℕ∞) ((u.hopWf e.sw e.port : ℕ) + u.dist e.peer d) with hm | hm
      · rw [hm] at h
        exact absurd h hd.ne'
      · rw [← h, hm]
    · intro h
      rw [← h, min_eq_right hd.le]
  obtain ⟨e₀, hsrc, he₀⟩ := (sound_buildLidMatrices (f := u.toFabric) hf H₀).attained s d hne hlt
  obtain rfl : e₀.sw = s := hsrc
  have hmem : e₀.port ∈ extPorts u.toFabric e₀.sw := mem_extPorts.mpr e₀.port_lt
  obtain ⟨p, hp⟩ : ∃ p, (extPorts u.toFabric e₀.sw).find? (fun p =>
      getHopCount u.toFabric (minHops u H₀) e₀.sw (u.lid d) p =
        getLeastHops u.toFabric (minHops u H₀) e₀.sw (u.lid d)) = some p := by
    apply Option.ne_none_iff_exists'.mp
    intro hnone
    have := List.find?_eq_none.mp hnone _ hmem
    simp only [decide_eq_true_eq] at this
    exact this he₀
  have hport : firstLeastPort u (minHops u H₀) e₀.sw (u.lid d) = p := by
    simp only [firstLeastPort, if_neg hlt.ne, hp, Option.getD_some]
  obtain ⟨hpl, as, bs, hsplit, hbefore⟩ := List.find?_eq_some_iff_append.mp hp
  simp only [decide_eq_true_eq] at hpl
  have hpmem : p ∈ extPorts u.toFabric e₀.sw := by
    rw [hsplit]
    simp
  have hc : ∃ e : Edge u.toFabric, e.sw = e₀.sw ∧ e.port = p := by
    by_contra hno
    have hclean := clean_buildLidMatrices (f := u.toFabric) H₀ e₀.sw (u.lid d) p
      (mem_extPorts.mp hpmem).1.ne' (by
        intro r q hr
        by_contra hrs
        exact hno ⟨⟨e₀.sw, p, r, q, hr, hrs⟩, rfl, rfl⟩)
    exact hlt.ne (hpl ▸ hclean)
  obtain ⟨e, hes, rfl⟩ := hc
  refine ⟨e, hes, hport.symm, (hedge e hes).mp hpl, ?_⟩
  intro e' hes' hd'
  have hmem' : e'.port ∈ extPorts u.toFabric e₀.sw := hes' ▸ mem_extPorts.mpr e'.port_lt
  have hpair : (extPorts u.toFabric e₀.sw).Pairwise (· < ·) := List.pairwise_lt_range'
  rw [hsplit] at hmem' hpair
  rcases List.mem_append.mp hmem' with ha | hb
  · have := hbefore _ ha
    simp only [Bool.not_eq_eq_eq_not, Bool.not_true, decide_eq_false_iff_not] at this
    exact absurd ((hedge e' hes').mpr hd') this
  · rcases List.mem_cons.mp hb with hb | hb
    · exact hb.ge
    · exact (List.rel_of_pairwise_cons (List.pairwise_append.mp hpair).2.1 hb).le

def Hop (u : Subnet n m) (H : Hops n) (e : EndPort n m) (s r : Fin n) : Prop :=
  ∃ q, u.remote s (mcastPort u H s e) = some (.sw r q)

def OnPath (u : Subnet n m) (H : Hops n) (e : EndPort n m) : Fin n → Fin n → Prop :=
  Relation.ReflTransGen (Hop u H e)

omit hf hh in
lemma ne_of_hop {e : EndPort n m} {s r d : Fin n} {q : ℕ} (ht : target u e = some (d, q))
    (h : Hop u (minHops u H₀) e s r) : s ≠ d := by
  rintro rfl
  obtain ⟨q', hr⟩ := h
  simp only [mcastPort, ht, if_true] at hr
  cases e with
  | sw d =>
    cases ht
    exact absurd (u.remote_port _ _ _ hr).1 (lt_irrefl 0)
  | ca c =>
    rw [(u.remote_ca _ _ _).mpr ht] at hr
    cases hr

lemma hop_of_ne {e : EndPort n m} {s d : Fin n} {q : ℕ} (ht : target u e = some (d, q)) (hne : s ≠ d)
    (hd : u.dist s d < (noPath : ℕ∞)) :
    ∃ a : Edge u.toFabric, a.sw = s ∧ a.port = mcastPort u (minHops u H₀) s e ∧
      Hop u (minHops u H₀) e s a.peer ∧ u.dist s d = u.hopWf s a.port + u.dist a.peer d ∧
      ∀ b : Edge u.toFabric, b.sw = s → u.dist s d = u.hopWf s b.port + u.dist b.peer d →
        a.port ≤ b.port := by
  have hp : mcastPort u (minHops u H₀) s e = firstLeastPort u (minHops u H₀) s (u.lid d) := by
    simp only [mcastPort, ht, if_neg hne.symm]
  obtain ⟨a, hs, hport, heq, hmin⟩ := firstLeastPort_spec hf hh H₀ hne hd
  refine ⟨a, hs, hport.trans hp.symm, ⟨a.peerPort, ?_⟩, heq, hmin⟩
  rw [hp, ← hport, ← hs]
  exact a.cabled

lemma hop_edge {e : EndPort n m} {s r d : Fin n} {q : ℕ} (ht : target u e = some (d, q))
    (hd : u.dist s d < (noPath : ℕ∞)) (h : Hop u (minHops u H₀) e s r) :
    ∃ a : Edge u.toFabric, a.sw = s ∧ a.port = mcastPort u (minHops u H₀) s e ∧ a.peer = r ∧
      u.dist s d = u.hopWf s a.port + u.dist r d ∧
      ∀ b : Edge u.toFabric, b.sw = s → u.dist s d = u.hopWf s b.port + u.dist b.peer d →
        a.port ≤ b.port := by
  obtain ⟨a, hs, hport, -, heq, hmin⟩ := hop_of_ne hf hh H₀ ht (ne_of_hop H₀ ht h) hd
  obtain ⟨q', hr⟩ := h
  have hpeer : a.peer = r := by
    have hc := a.cabled
    rw [hs, hport, hr] at hc
    cases hc
    rfl
  exact ⟨a, hs, hport, hpeer, hpeer ▸ heq, hmin⟩

lemma hop_lt {e : EndPort n m} {s r d : Fin n} {q : ℕ} (ht : target u e = some (d, q))
    (hd : u.dist s d < (noPath : ℕ∞)) (h : Hop u (minHops u H₀) e s r) :
    u.dist r d + 1 ≤ u.dist s d := by
  obtain ⟨a, -, -, -, heq, -⟩ := hop_edge hf hh H₀ ht hd h
  have hw : 1 ≤ u.hopWf s a.port := hf.hopWf_pos _ _
  rw [heq, add_comm]
  gcongr
  exact_mod_cast hw

lemma onPath_dist {e : EndPort n m} {s x d : Fin n} {q : ℕ} (ht : target u e = some (d, q))
    (hd : u.dist s d < (noPath : ℕ∞)) (h : OnPath u (minHops u H₀) e s x) :
    u.dist s d = u.dist s x + u.dist x d := by
  induction h using Relation.ReflTransGen.head_induction_on with
  | refl =>
    have hself : u.dist x x = 0 := Lib.Paths.dist_self x
    rw [hself, zero_add]
  | @head s r hop _ ih =>
    obtain ⟨a, rfl, -, rfl, heq, -⟩ := hop_edge hf hh H₀ ht hd hop
    have hr : u.dist a.peer d < (noPath : ℕ∞) := by
      refine lt_of_le_of_lt ?_ hd
      rw [heq]
      exact le_add_self
    have hx : u.dist a.sw x ≤ u.hopWf a.sw a.port + u.dist a.peer x :=
      Lib.Paths.dist_cons ⟨a.port, a.peerPort, a.cabled, rfl⟩
    apply le_antisymm
    · exact Lib.Paths.dist_triangle _ _ _
    · calc u.dist a.sw x + u.dist x d
          ≤ u.hopWf a.sw a.port + u.dist a.peer x + u.dist x d := by gcongr
        _ = u.dist a.sw d := by rw [heq, ih hr, add_assoc]

/-- A port on the way of one member to `x` is as good as the one taken for another member that
passes `x`, so the first least hop port is the same for both. -/
lemma port_le_of_meet {e e' : EndPort n m} {s r r' x d d' : Fin n} {q q' : ℕ}
    (ht : target u e = some (d, q)) (ht' : target u e' = some (d', q'))
    (hd : u.dist s d < (noPath : ℕ∞)) (hd' : u.dist s d' < (noPath : ℕ∞))
    (h : Hop u (minHops u H₀) e s r) (hx : OnPath u (minHops u H₀) e r x)
    (h' : Hop u (minHops u H₀) e' s r') (hx' : OnPath u (minHops u H₀) e' r' x) :
    mcastPort u (minHops u H₀) s e ≤ mcastPort u (minHops u H₀) s e' := by
  obtain ⟨a, -, hport, -, -, hmin⟩ := hop_edge hf hh H₀ ht hd h
  obtain ⟨b, hb, hport', hpeer, heq', -⟩ := hop_edge hf hh H₀ ht' hd' h'
  have hr' : u.dist r' d' < (noPath : ℕ∞) := by
    refine lt_of_le_of_lt ?_ hd'
    rw [heq']
    exact le_add_self
  have hsx := onPath_dist hf hh H₀ ht hd (Relation.ReflTransGen.head h hx)
  have hsx' := onPath_dist hf hh H₀ ht' hd' (Relation.ReflTransGen.head h' hx')
  have hrx' := onPath_dist hf hh H₀ ht' hr' hx'
  have hfin : u.dist x d' ≠ ⊤ := by
    rintro htop
    rw [hsx', htop, add_top] at hd'
    exact absurd hd' (by simp)
  have hvia : u.dist s x = u.hopWf s b.port + u.dist r' x := by
    apply ENat.add_left_injective_of_ne_top hfin
    dsimp only
    rw [← hsx', heq', hrx', add_assoc]
  rw [← hport, ← hport']
  apply hmin b hb
  apply le_antisymm
  · rw [← hb]
    exact Lib.Paths.dist_cons ⟨b.port, b.peerPort, b.cabled, rfl⟩
  · calc (u.hopWf s b.port : ℕ∞) + u.dist b.peer d
        ≤ u.hopWf s b.port + (u.dist r' x + u.dist x d) := by
          rw [hpeer]
          gcongr
          exact Lib.Paths.dist_triangle _ _ _
      _ = u.dist s d := by rw [← add_assoc, ← hvia, ← hsx]

lemma port_eq_of_meet {e e' : EndPort n m} {s r r' x d d' : Fin n} {q q' : ℕ}
    (ht : target u e = some (d, q)) (ht' : target u e' = some (d', q'))
    (hd : u.dist s d < (noPath : ℕ∞)) (hd' : u.dist s d' < (noPath : ℕ∞))
    (h : Hop u (minHops u H₀) e s r) (hx : OnPath u (minHops u H₀) e r x)
    (h' : Hop u (minHops u H₀) e' s r') (hx' : OnPath u (minHops u H₀) e' r' x) :
    mcastPort u (minHops u H₀) s e = mcastPort u (minHops u H₀) s e' :=
  le_antisymm (port_le_of_meet hf hh H₀ ht ht' hd hd' h hx h' hx')
    (port_le_of_meet hf hh H₀ ht' ht hd' hd h' hx' h hx)

lemma not_onPath_of_hop {e : EndPort n m} {s r d : Fin n} {q : ℕ} (ht : target u e = some (d, q))
    (hd : u.dist s d < (noPath : ℕ∞)) (h : Hop u (minHops u H₀) e s r) :
    ¬ OnPath u (minHops u H₀) e r s := by
  intro hp
  have hlt := hop_lt hf hh H₀ ht hd h
  have hr : u.dist r d < (noPath : ℕ∞) := lt_of_le_of_lt (le_self_add.trans hlt) hd
  rw [onPath_dist hf hh H₀ ht hr hp] at hlt
  obtain ⟨x, hx⟩ := ENat.ne_top_iff_exists.mp (ne_top_of_lt hd)
  rw [← hx] at hlt
  have hle : ((x + 1 : ℕ) : ℕ∞) ≤ x := by
    refine le_trans ?_ hlt
    push_cast
    gcongr
    exact le_add_self
  exact absurd (Nat.cast_le.mp hle) (by omega)

/-- The two ends of a link a member is led over, or the exit port of the member. -/
def Bit (u : Subnet n m) (H : Hops n) (e : EndPort n m) (s x : Fin n) (p : ℕ) : Prop :=
  (OnPath u H e s x ∧ mcastPort u H x e = p) ∨
    ∃ y, OnPath u H e s y ∧ u.remote y (mcastPort u H y e) = some (.sw x p)

omit hf hh in
lemma bit_iff {H : Hops n} {e : EndPort n m} {s x : Fin n} {p : ℕ} :
    Bit u H e s x p ↔ (x = s ∧ mcastPort u H s e = p) ∨
      u.remote s (mcastPort u H s e) = some (.sw x p) ∨ ∃ r, Hop u H e s r ∧ Bit u H e r x p := by
  constructor
  · rintro (⟨hx, hp⟩ | ⟨y, hy, hp⟩)
    · rcases Relation.ReflTransGen.cases_head hx with rfl | ⟨r, hr, hx⟩
      · exact Or.inl ⟨rfl, hp⟩
      · exact Or.inr (Or.inr ⟨r, hr, Or.inl ⟨hx, hp⟩⟩)
    · rcases Relation.ReflTransGen.cases_head hy with rfl | ⟨r, hr, hy⟩
      · exact Or.inr (Or.inl hp)
      · exact Or.inr (Or.inr ⟨r, hr, Or.inr ⟨y, hy, hp⟩⟩)
  · rintro (⟨rfl, hp⟩ | hp | ⟨r, hr, ⟨hx, hp⟩ | ⟨y, hy, hp⟩⟩)
    · exact Or.inl ⟨.refl, hp⟩
    · exact Or.inr ⟨s, .refl, hp⟩
    · exact Or.inl ⟨.head hr hx, hp⟩
    · exact Or.inr ⟨y, .head hr hy, hp⟩

def Near (u : Subnet n m) (k : ℕ) (s : Fin n) (e : EndPort n m) : Prop :=
  ∃ d q, target u e = some (d, q) ∧ u.dist s d < (k : ℕ∞)

lemma Near.hop {k : ℕ} {s r : Fin n} {e : EndPort n m} (hk : k + 1 ≤ noPath) (h : Near u (k + 1) s e)
    (hr : Hop u (minHops u H₀) e s r) : Near u k r e := by
  obtain ⟨d, q, ht, hd⟩ := h
  have hd' : u.dist s d < (noPath : ℕ∞) := hd.trans_le (by exact_mod_cast hk)
  refine ⟨d, q, ht, ?_⟩
  have hlt := (hop_lt hf hh H₀ ht hd' hr).trans_lt hd
  push_cast at hlt
  exact (ENat.add_lt_add_iff_right (by simp)).mp hlt

lemma mcastPort_cases {k : ℕ} {s : Fin n} {e : EndPort n m} (hk : k ≤ noPath) (h : Near u k s e) :
    mcastPort u (minHops u H₀) s e < u.numPorts s ∧
    ((mcastPort u (minHops u H₀) s e = 0 ∧ e = .sw s) ∨
      (∃ c, e = .ca c ∧ u.remote s (mcastPort u (minHops u H₀) s e) = some (.ca c)) ∨
      ∃ r, Hop u (minHops u H₀) e s r) := by
  obtain ⟨d, q, ht, hd⟩ := h
  have hd' : u.dist s d < (noPath : ℕ∞) := hd.trans_le (by exact_mod_cast hk)
  by_cases hs : s = d
  · subst hs
    have hp : mcastPort u (minHops u H₀) s e = q := by simp only [mcastPort, ht, if_true]
    rw [hp]
    cases e with
    | sw d =>
      cases ht
      exact ⟨u.numPorts_pos _, Or.inl ⟨rfl, rfl⟩⟩
    | ca c =>
      have hr := (u.remote_ca _ _ _).mpr ht
      exact ⟨(u.remote_port _ _ _ hr).2, Or.inr (Or.inl ⟨c, rfl, hr⟩)⟩
  · obtain ⟨a, rfl, hport, hop, -, -⟩ := hop_of_ne hf hh H₀ ht hs hd'
    exact ⟨hport ▸ a.port_lt.2, Or.inr (Or.inr ⟨_, hop⟩)⟩

/-- What a call has done for the members in `M`: the switches it entered and the bits it set. -/
structure Built (u : Subnet n m) (H : Hops n) (mlid : ℕ) (Enter : Fin n → Prop)
    (Set : Fin n → ℕ → Prop) (st st' : St n) : Prop where
  entered : ∃ L, st'.entered = st.entered ++ L ∧ L.Nodup ∧ ∀ x, x ∈ L ↔ Enter x
  mft : ∀ x l p, st'.mft x l p = true ↔ st.mft x l p = true ∨ l = mlid ∧ Set x p

omit hf hh in
lemma St.set_eq_true {st : St n} {s : Fin n} {mlid p : ℕ} (x : Fin n) (l q : ℕ) :
    (st.set s mlid p).mft x l q = true ↔ st.mft x l q = true ∨ l = mlid ∧ x = s ∧ q = p := by
  simp only [St.set, tblSet]
  split_ifs with h
  · simp [h]
  · constructor
    · exact Or.inl
    · rintro (h' | ⟨rfl, rfl, rfl⟩)
      · exact h'
      · exact absurd ⟨rfl, rfl, rfl⟩ h

def Through (u : Subnet n m) (H : Hops n) (M : List (EndPort n m)) (s : Fin n) (ps : List ℕ)
    (Q : EndPort n m → Prop) : Prop :=
  ∃ e ∈ M, mcastPort u H s e ∈ ps ∧ Q e

omit hf hh in
lemma through_append {H : Hops n} {M : List (EndPort n m)} {s : Fin n} {ps : List ℕ} {i : ℕ}
    {Q : EndPort n m → Prop} :
    Through u H M s (ps ++ [i]) Q ↔ Through u H M s ps Q ∨ ∃ e ∈ M, mcastPort u H s e = i ∧ Q e := by
  constructor
  · rintro ⟨e, he, hp, hq⟩
    rcases List.mem_append.mp hp with hp | hp
    · exact Or.inl ⟨e, he, hp, hq⟩
    · exact Or.inr ⟨e, he, List.mem_singleton.mp hp, hq⟩
  · rintro (⟨e, he, hp, hq⟩ | ⟨e, he, hp, hq⟩)
    · exact ⟨e, he, List.mem_append_left _ hp, hq⟩
    · exact ⟨e, he, List.mem_append_right _ (List.mem_singleton.mpr hp), hq⟩

section Ports

variable {M : List (EndPort n m)} {s : Fin n} {k mlid i : ℕ} {ps : List ℕ} {st₁ st : St n}

/-- Switches entered and bits set once the ports of `ps` have been handled at `s`. -/
def Handled (u : Subnet n m) (H : Hops n) (mlid : ℕ) (M : List (EndPort n m)) (s : Fin n) (st₁ : St n)
    (ps : List ℕ) (st : St n) : Prop :=
  Built u H mlid (fun x => Through u H M s ps fun e => ∃ r, Hop u H e s r ∧ OnPath u H e r x)
    (fun x p => Through u H M s ps fun e => Bit u H e s x p) st₁ st

omit hf hh in
lemma Handled.skip {H : Hops n} (h : Handled u H mlid M s st₁ ps st)
    (hno : ∀ e ∈ M, mcastPort u H s e ≠ i) : Handled u H mlid M s st₁ (ps ++ [i]) st := by
  have hQ : ∀ Q, Through u H M s (ps ++ [i]) Q ↔ Through u H M s ps Q := by
    intro Q
    rw [through_append]
    constructor
    · rintro (h | ⟨e, he, hp, -⟩)
      · exact h
      · exact absurd hp (hno e he)
    · exact Or.inl
  refine ⟨?_, ?_⟩
  · simpa only [hQ] using h.entered
  · simpa only [hQ] using h.mft

omit hf hh in
/-- A port that leads to no switch, with a member behind it. -/
lemma Handled.leaf {H : Hops n} (h : Handled u H mlid M s st₁ ps st)
    (hex : ∃ e ∈ M, mcastPort u H s e = i) (hr : ∀ r q, u.remote s i ≠ some (.sw r q)) :
    Handled u H mlid M s st₁ (ps ++ [i]) (st.set s mlid i) := by
  have hhop : ∀ e r, mcastPort u H s e = i → ¬ Hop u H e s r := by
    rintro e r hp ⟨q, hq⟩
    rw [hp] at hq
    exact hr r q hq
  have hbit : ∀ e x p, mcastPort u H s e = i → (Bit u H e s x p ↔ x = s ∧ p = i) := by
    intro e x p hp
    rw [bit_iff]
    constructor
    · rintro (⟨hx, hp'⟩ | hp' | ⟨r, hr', -⟩)
      · exact ⟨hx, hp'.symm.trans hp⟩
      · rw [hp] at hp'
        exact absurd hp' (hr x p)
      · exact absurd hr' (hhop e r hp)
    · rintro ⟨hx, hp'⟩
      exact Or.inl ⟨hx, hp.trans hp'.symm⟩
  refine ⟨?_, ?_⟩
  · obtain ⟨L, hL, hnd, hmem⟩ := h.entered
    refine ⟨L, hL, hnd, fun x => ?_⟩
    rw [hmem, through_append]
    constructor
    · exact Or.inl
    · rintro (h | ⟨e, -, hp, r, hr', -⟩)
      · exact h
      · exact absurd hr' (hhop e r hp)
  · intro x l p
    rw [St.set_eq_true, h.mft, through_append, or_assoc, ← and_or_left]
    refine or_congr_right (and_congr_right fun _ => or_congr_right ?_)
    constructor
    · intro hx
      obtain ⟨e, he, hp⟩ := hex
      exact ⟨e, he, hp, (hbit e x p hp).mpr hx⟩
    · rintro ⟨e, -, hp, hb⟩
      exact (hbit e x p hp).mp hb

/-- A port to another switch: the call for that switch handles the members behind the port. -/
lemma Handled.link (hk : k + 1 ≤ noPath) (hM : ∀ e ∈ M, Near u (k + 1) s e)
    (h : Handled u (minHops u H₀) mlid M s st₁ ps st) (hi : i ∉ ps) {r : Fin n} {q : ℕ}
    (hr : u.remote s i = some (.sw r q)) {st' : St n}
    (hex : ∃ e ∈ M, mcastPort u (minHops u H₀) s e = i)
    (hst : Built u (minHops u H₀) mlid
      (fun x => ∃ e ∈ M, mcastPort u (minHops u H₀) s e = i ∧ OnPath u (minHops u H₀) e r x)
      (fun x p => (x = r ∧ p = q) ∨
        ∃ e ∈ M, mcastPort u (minHops u H₀) s e = i ∧ Bit u (minHops u H₀) e r x p)
      (st.set s mlid i) st') :
    Handled u (minHops u H₀) mlid M s st₁ (ps ++ [i]) st' := by
  have hhop : ∀ e, mcastPort u (minHops u H₀) s e = i → ∀ r', Hop u (minHops u H₀) e s r' ↔ r' = r := by
    intro e hp r'
    constructor
    · rintro ⟨q', hq'⟩
      rw [hp, hr] at hq'
      cases hq'
      rfl
    · rintro rfl
      exact ⟨q, by rw [hp, hr]⟩
  refine ⟨?_, ?_⟩
  · obtain ⟨L, hL, hnd, hmem⟩ := h.entered
    obtain ⟨L', hL', hnd', hmem'⟩ := hst.entered
    refine ⟨L ++ L', ?_, ?_, ?_⟩
    · rw [hL']
      change st.entered ++ L' = _
      rw [hL, List.append_assoc]
    · refine hnd.append hnd' fun x hx hx' => ?_
      obtain ⟨e, he, hp, r₁, hr₁, hx₁⟩ := (hmem x).mp hx
      obtain ⟨e', he', hp', hx₂⟩ := (hmem' x).mp hx'
      obtain ⟨d, q₁, ht, hd⟩ := hM e he
      obtain ⟨d', q₂, ht', hd'⟩ := hM e' he'
      have hcast : ((k + 1 : ℕ) : ℕ∞) ≤ (noPath : ℕ∞) := by exact_mod_cast hk
      have heq := port_eq_of_meet hf hh H₀ ht ht' (hd.trans_le hcast) (hd'.trans_le hcast) hr₁ hx₁
        ((hhop e' hp' r).mpr rfl) hx₂
      rw [hp'] at heq
      exact hi (heq ▸ hp)
    · intro x
      rw [List.mem_append, hmem, hmem', through_append]
      refine or_congr_right ?_
      constructor
      · rintro ⟨e, he, hp, hx⟩
        exact ⟨e, he, hp, r, (hhop e hp r).mpr rfl, hx⟩
      · rintro ⟨e, he, hp, r', hr', hx⟩
        rw [(hhop e hp r').mp hr'] at hx
        exact ⟨e, he, hp, hx⟩
  · intro x l p
    rw [hst.mft, St.set_eq_true, h.mft, through_append, or_assoc, or_assoc, ← and_or_left,
      ← and_or_left]
    refine or_congr_right (and_congr_right fun _ => or_congr_right ?_)
    constructor
    · rintro (⟨rfl, rfl⟩ | ⟨rfl, rfl⟩ | ⟨e, he, hp, hb⟩)
      · obtain ⟨e, he, hp⟩ := hex
        exact ⟨e, he, hp, bit_iff.mpr (Or.inl ⟨rfl, hp⟩)⟩
      · obtain ⟨e, he, hp⟩ := hex
        exact ⟨e, he, hp, bit_iff.mpr (Or.inr (Or.inl (hp.symm ▸ hr)))⟩
      · exact ⟨e, he, hp, bit_iff.mpr (Or.inr (Or.inr ⟨r, (hhop e hp r).mpr rfl, hb⟩))⟩
    · rintro ⟨e, he, hp, hb⟩
      rcases bit_iff.mp hb with ⟨hx, hp'⟩ | hp' | ⟨r', hr', hb⟩
      · exact Or.inl ⟨hx, hp'.symm.trans hp⟩
      · rw [hp, hr] at hp'
        cases hp'
        exact Or.inr (Or.inl ⟨rfl, rfl⟩)
      · rw [(hhop e hp r').mp hr'] at hb
        exact Or.inr (Or.inr ⟨e, he, hp, hb⟩)

end Ports

lemma branch_built {mcastCap : Fin n → ℕ} (hcap : ∀ s, mcastCap s ≠ 0) (mlid k : ℕ) (hk : k ≤ 63) (s : Fin n)
    (M : List (EndPort n m)) (hM : M ≠ []) (hnear : ∀ e ∈ M, Near u k s e) (up : ℕ) (st : St n) :
    Built u (minHops u H₀) mlid (fun x => ∃ e ∈ M, OnPath u (minHops u H₀) e s x)
      (fun x p => (x = s ∧ p = up ∧ k ≠ 63) ∨ ∃ e ∈ M, Bit u (minHops u H₀) e s x p) st
      (branch u mcastCap (minHops u H₀) mlid k s M up st) := by
  induction k generalizing s M up st with
  | zero =>
    obtain ⟨e, he⟩ := List.exists_mem_of_ne_nil M hM
    obtain ⟨d, q, -, hd⟩ := hnear e he
    simp at hd
  | succ k ih =>
    have hno : k + 1 ≤ noPath := hk.trans (by decide)
    have hlist : ∀ (t : Mft n) (i : ℕ) (e : EndPort n m),
        e ∈ subdivide u (minHops u H₀) t s mlid M i ↔ e ∈ M ∧ mcastPort u (minHops u H₀) s e = i := by
      intro t i e
      simp [subdivide, recommendMcastPath_eq]
    set st₁ : St n :=
      { st with entered := st.entered ++ [s], maxDepth := max st.maxDepth (63 - k) } with hst₁
    set st₂ : St n := if 1 < 63 - k then st₁.set s mlid up else st₁ with hst₂
    have hrun : Handled u (minHops u H₀) mlid M s st₂ (List.range (u.numPorts s))
        (branch u mcastCap (minHops u H₀) mlid (k + 1) s M up st) := by
      simp only [branch, if_neg (hcap s)]
      refine Lib.Folds.foldl_handled _ (Handled u (minHops u H₀) mlid M s st₂) _ st₂ ?_ ?_
      · exact ⟨⟨[], by simp, by simp, by simp [Through]⟩, by simp [Through]⟩
      · intro ps i rest st' hps hst'
        have hi : i ∉ ps := by
          have hnd := List.nodup_range (n := u.numPorts s)
          rw [hps] at hnd
          exact fun hmem => (List.nodup_append.mp hnd).2.2 _ hmem _ List.mem_cons_self rfl
        by_cases hempty : subdivide u (minHops u H₀) st₁.mft s mlid M i = []
        · rw [if_pos hempty]
          refine hst'.skip fun e he hp => ?_
          have hmem := (hlist st₁.mft i e).mpr ⟨he, hp⟩
          rw [hempty] at hmem
          simp at hmem
        rw [if_neg hempty]
        obtain ⟨e₀, he₀⟩ := List.exists_mem_of_ne_nil _ hempty
        obtain ⟨he₀M, hp₀⟩ := (hlist st₁.mft i e₀).mp he₀
        have hex : ∃ e ∈ M, mcastPort u (minHops u H₀) s e = i := ⟨e₀, he₀M, hp₀⟩
        by_cases hi0 : i = 0
        · rw [if_pos hi0]
          refine hst'.leaf hex fun r q hr => ?_
          have := (u.remote_port _ _ _ hr).1
          omega
        rw [if_neg hi0]
        cases hr : u.remote s i with
        | none =>
          -- a member is never led to a port that is not cabled
          obtain ⟨-, ⟨hz, -⟩ | ⟨c, -, hc⟩ | ⟨r, q, hop⟩⟩ :=
            mcastPort_cases hf hh H₀ hno (hnear e₀ he₀M)
          · exact absurd (hp₀.symm.trans hz) hi0
          · rw [hp₀, hr] at hc
            cases hc
          · rw [hp₀, hr] at hop
            cases hop
        | some rem =>
          cases rem with
          | ca c => exact hst'.leaf hex fun r q hr' => by rw [hr] at hr'; cases hr'
          | sw r q =>
            refine hst'.link hf hh H₀ hno hnear hi hr hex ?_
            have hhop : ∀ e, mcastPort u (minHops u H₀) s e = i → Hop u (minHops u H₀) e s r :=
              fun e hp => ⟨q, by rw [hp, hr]⟩
            have hb := ih (by omega) r (subdivide u (minHops u H₀) st₁.mft s mlid M i) hempty
              (fun e he => (hnear e ((hlist _ _ _).mp he).1).hop hf hh H₀ hno
                (hhop e ((hlist _ _ _).mp he).2)) q (st'.set s mlid i)
            have hk' : k ≠ 63 := by omega
            simpa only [hlist, and_assoc, ne_eq, hk', not_false_eq_true, and_true] using hb
    have hall : ∀ (Q : EndPort n m → Prop), Through u (minHops u H₀) M s (List.range (u.numPorts s)) Q ↔
        ∃ e ∈ M, Q e := by
      intro Q
      constructor
      · rintro ⟨e, he, -, hq⟩
        exact ⟨e, he, hq⟩
      · rintro ⟨e, he, hq⟩
        exact ⟨e, he, List.mem_range.mpr (mcastPort_cases hf hh H₀ hno (hnear e he)).1, hq⟩
    have hent₂ : st₂.entered = st.entered ++ [s] := by
      rw [hst₂]
      split_ifs <;> rfl
    refine ⟨?_, ?_⟩
    · obtain ⟨L, hL, hnd, hmem⟩ := hrun.entered
      refine ⟨s :: L, ?_, ?_, ?_⟩
      · rw [hL, hent₂, List.append_assoc]
        rfl
      · refine List.nodup_cons.mpr ⟨fun hs => ?_, hnd⟩
        obtain ⟨e, he, r, hr, hp⟩ := (hall _).mp ((hmem s).mp hs)
        obtain ⟨d, q, ht, hd⟩ := hnear e he
        exact not_onPath_of_hop hf hh H₀ ht (hd.trans_le (by exact_mod_cast hno)) hr hp
      · intro x
        rw [List.mem_cons, hmem, hall]
        constructor
        · rintro (rfl | ⟨e, he, r, hr, hx⟩)
          · obtain ⟨e, he⟩ := List.exists_mem_of_ne_nil M hM
            exact ⟨e, he, .refl⟩
          · exact ⟨e, he, .head hr hx⟩
        · rintro ⟨e, he, hx⟩
          rcases Relation.ReflTransGen.cases_head hx with rfl | ⟨r, hr, hx⟩
          · exact Or.inl rfl
          · exact Or.inr ⟨e, he, r, hr, hx⟩
    · intro x l p
      rw [hrun.mft, hall, and_or_left, ← or_assoc]
      refine or_congr_left ?_
      rw [hst₂]
      split_ifs with hdepth
      · rw [St.set_eq_true]
        have hk' : k + 1 ≠ 63 := by omega
        simp only [hst₁, ne_eq, hk', not_false_eq_true, and_true]
      · have hk' : k + 1 = 63 := by omega
        simp [hst₁, hk']

lemma Near.onPath {s x : Fin n} {e : EndPort n m} (h : Near u noPath s e)
    (hx : OnPath u (minHops u H₀) e s x) : Near u noPath x e := by
  obtain ⟨d, q, ht, hd⟩ := h
  refine ⟨d, q, ht, lt_of_le_of_lt ?_ hd⟩
  rw [onPath_dist hf hh H₀ ht hd hx]
  exact le_add_self

omit hf hh in
lemma hop_unique {H : Hops n} {e e' : EndPort n m} {s r r' : Fin n} (h : Hop u H e s r)
    (h' : Hop u H e' s r') (hp : mcastPort u H s e = mcastPort u H s e') : r = r' := by
  obtain ⟨q, hr⟩ := h
  obtain ⟨q', hr'⟩ := h'
  rw [hp, hr'] at hr
  cases hr
  rfl

/-- Two members that reach a switch come to it over the same link. -/
lemma link_unique {e e' : EndPort n m} {s x y y' : Fin n} (hn : Near u noPath s e)
    (hn' : Near u noPath s e') (hy : OnPath u (minHops u H₀) e s y)
    (hyx : Hop u (minHops u H₀) e y x) (hy' : OnPath u (minHops u H₀) e' s y')
    (hyx' : Hop u (minHops u H₀) e' y' x) :
    y = y' ∧ mcastPort u (minHops u H₀) y e = mcastPort u (minHops u H₀) y' e' := by
  have hback : ∀ e s y, Near u noPath s e → OnPath u (minHops u H₀) e s y →
      Hop u (minHops u H₀) e y x → ¬ OnPath u (minHops u H₀) e x y := by
    intro e s y hn hy hyx
    obtain ⟨d, q, ht, hd⟩ := hn.onPath hf hh H₀ hy
    exact not_onPath_of_hop hf hh H₀ ht hd hyx
  induction hy using Relation.ReflTransGen.head_induction_on with
  | refl =>
    obtain ⟨d, q, ht, hd⟩ := id hn
    obtain ⟨d', q', ht', hd'⟩ := id hn'
    rcases Relation.ReflTransGen.cases_head hy' with rfl | ⟨r', hr', hy''⟩
    · exact ⟨rfl, port_eq_of_meet hf hh H₀ ht ht' hd hd' hyx .refl hyx' .refl⟩
    · have hport := port_eq_of_meet hf hh H₀ ht ht' hd hd' hyx .refl hr' (.tail hy'' hyx')
      obtain rfl := hop_unique hyx hr' hport
      exact absurd hy'' (hback e' y y' hn' hy' hyx')
  | @head s r hr hry ih =>
    obtain ⟨d, q, ht, hd⟩ := id hn
    obtain ⟨d', q', ht', hd'⟩ := id hn'
    have hrx : OnPath u (minHops u H₀) e r x := .tail hry hyx
    rcases Relation.ReflTransGen.cases_head hy' with rfl | ⟨r', hr', hy''⟩
    · have hport := port_eq_of_meet hf hh H₀ ht ht' hd hd' hr hrx hyx' .refl
      obtain rfl := hop_unique hr hyx' hport
      exact absurd hry (hback e s y hn (.head hr hry) hyx)
    · have hport := port_eq_of_meet hf hh H₀ ht ht' hd hd' hr hrx hr' (.tail hy'' hyx')
      obtain rfl := hop_unique hr hr' hport
      exact ih (hn.onPath hf hh H₀ (.single hr)) (hn'.onPath hf hh H₀ (.single hr')) hy''

lemma depth_lt {e : EndPort n m} {s x y : Fin n} (hn : Near u noPath s e)
    (hy : OnPath u (minHops u H₀) e s y) (hyx : Hop u (minHops u H₀) e y x) :
    (u.dist s y).toNat < (u.dist s x).toNat := by
  obtain ⟨d, q, ht, hd⟩ := id hn
  obtain ⟨d', q', ht', hyd⟩ := hn.onPath hf hh H₀ hy
  rw [ht] at ht'
  cases ht'
  have h₁ := onPath_dist hf hh H₀ ht hd hy
  have h₂ := onPath_dist hf hh H₀ ht hd (.tail hy hyx)
  have h₃ := hop_lt hf hh H₀ ht hyd hyx
  have hfin := ne_top_of_lt hd
  rw [h₁] at h₂ hfin
  have hsy : u.dist s y ≠ ⊤ := fun h => hfin (by simp [h])
  have hy' : u.dist y d ≠ ⊤ := ne_top_of_lt hyd
  have hsx : u.dist s x ≠ ⊤ := fun h => hfin (by simp [h₂, h])
  have hxd : u.dist x d ≠ ⊤ := fun h => hfin (by simp [h₂, h])
  lift u.dist s y to ℕ using hsy with a
  lift u.dist y d to ℕ using hy' with b
  lift u.dist s x to ℕ using hsx with a'
  lift u.dist x d to ℕ using hxd with b'
  norm_cast at h₂ h₃
  simp only [ENat.toNat_natCast]
  omega

end Greedy

def treeGraph (u : Subnet n m) (bit : Fin n → ℕ → Bool) : SimpleGraph (Fin n) :=
  SimpleGraph.fromRel fun s r => ∃ p q, bit s p = true ∧ u.remote s p = some (.sw r q)

/-- The ports with a set bit are the two ends of the links of a tree and the exits to the members. -/
structure IsSpanningTree (u : Subnet n m) (members : List (EndPort n m)) (bit : Fin n → ℕ → Bool) :
    Prop where
  paired : ∀ s p r q, u.remote s p = some (.sw r q) → (bit s p = true ↔ bit r q = true)
  no_loop : ∀ s p r q, bit s p = true → u.remote s p = some (.sw r q) → r ≠ s
  no_parallel : ∀ s p p' r q q', bit s p = true → bit s p' = true →
    u.remote s p = some (.sw r q) → u.remote s p' = some (.sw r q') → p = p'
  acyclic : (treeGraph u bit).IsAcyclic
  connected : ∀ s p r q, bit s p = true → bit r q = true → (treeGraph u bit).Reachable s r
  member : ∀ e ∈ members, ∃ d q, target u e = some (d, q) ∧ bit d q = true
  only : ∀ s p, bit s p = true → (∃ r q, u.remote s p = some (.sw r q)) ∨
    ∃ e ∈ members, target u e = some (s, p)

section Tree

variable (hf : u.Ready) (hh : u.AllHealthy) (H₀ : Hops n)

include hf hh

lemma onPath_target {k : ℕ} (hk : k ≤ noPath) {s d : Fin n} {e : EndPort n m} {q : ℕ}
    (ht : target u e = some (d, q)) (hd : u.dist s d < (k : ℕ∞)) : OnPath u (minHops u H₀) e s d := by
  induction k generalizing s with
  | zero => simp at hd
  | succ k ih =>
    by_cases hs : s = d
    · subst hs
      exact .refl
    · have hd' : u.dist s d < (noPath : ℕ∞) := hd.trans_le (by exact_mod_cast hk)
      obtain ⟨a, -, -, hop, -, -⟩ := hop_of_ne hf hh H₀ ht hs hd'
      obtain ⟨d', q', ht', hlt⟩ := Near.hop hf hh H₀ hk ⟨d, q, ht, hd⟩ hop
      rw [ht] at ht'
      cases ht'
      exact .head hop (ih (by omega) hlt)

/-- The bits of greedy paths from one root form a tree. -/
lemma isSpanningTree {M : List (EndPort n m)} (root : Fin n) {bit : Fin n → ℕ → Bool}
    (hnear : ∀ e ∈ M, Near u noPath root e)
    (hbit : ∀ s p, bit s p = true ↔ ∃ e ∈ M, Bit u (minHops u H₀) e root s p) :
    IsSpanningTree u M bit := by
  have hout : ∀ e ∈ M, ∀ s, OnPath u (minHops u H₀) e root s →
      bit s (mcastPort u (minHops u H₀) s e) = true :=
    fun e he s hs => (hbit _ _).mpr ⟨e, he, Or.inl ⟨hs, rfl⟩⟩
  -- a set bit at a link comes with a member led over the link, in one direction or the other
  have hlink : ∀ s p r q, bit s p = true → u.remote s p = some (.sw r q) → ∃ e ∈ M,
      (OnPath u (minHops u H₀) e root s ∧ mcastPort u (minHops u H₀) s e = p ∧
        Hop u (minHops u H₀) e s r) ∨
      (OnPath u (minHops u H₀) e root r ∧ mcastPort u (minHops u H₀) r e = q ∧
        Hop u (minHops u H₀) e r s) := by
    intro s p r q hb hr
    obtain ⟨e, he, ⟨hs, rfl⟩ | ⟨y, hy, hp⟩⟩ := (hbit s p).mp hb
    · exact ⟨e, he, Or.inl ⟨hs, rfl, q, hr⟩⟩
    · have hsymm := u.remote_symm _ _ _ _ hp
      rw [hr] at hsymm
      cases hsymm
      exact ⟨e, he, Or.inr ⟨hy, rfl, p, hp⟩⟩
  have hne : ∀ e ∈ M, ∀ y x, OnPath u (minHops u H₀) e root y → Hop u (minHops u H₀) e y x → y ≠ x := by
    rintro e he y x hy hyx rfl
    exact absurd (depth_lt hf hh H₀ (hnear e he) hy hyx) (lt_irrefl _)
  have hadj : ∀ e ∈ M, ∀ y x, OnPath u (minHops u H₀) e root y → Hop u (minHops u H₀) e y x →
      (treeGraph u bit).Adj y x := by
    intro e he y x hy hyx
    obtain ⟨q, hr⟩ := id hyx
    exact ⟨hne e he y x hy hyx, Or.inl ⟨_, q, hout e he y hy, hr⟩⟩
  have hreach : ∀ s p, bit s p = true → (treeGraph u bit).Reachable root s := by
    have hvisit : ∀ e ∈ M, ∀ s, OnPath u (minHops u H₀) e root s →
        (treeGraph u bit).Reachable root s := by
      intro e he s hs
      induction hs with
      | refl => exact .refl _
      | tail hy hyx ih => exact ih.trans (hadj e he _ _ hy hyx).reachable
    intro s p hb
    obtain ⟨e, he, ⟨hs, -⟩ | ⟨y, hy, hp⟩⟩ := (hbit s p).mp hb
    · exact hvisit e he s hs
    · exact hvisit e he s (.tail hy ⟨p, hp⟩)
  constructor
  · have hone : ∀ s p r q, u.remote s p = some (.sw r q) → bit s p = true → bit r q = true := by
      intro s p r q hr hb
      obtain ⟨e, he, ⟨hs, rfl, -⟩ | ⟨hs, rfl, -⟩⟩ := hlink s p r q hb hr
      · exact (hbit r q).mpr ⟨e, he, Or.inr ⟨s, hs, hr⟩⟩
      · exact hout e he r hs
    exact fun s p r q hr => ⟨hone s p r q hr, hone r q s p (u.remote_symm _ _ _ _ hr)⟩
  · intro s p r q hb hr
    obtain ⟨e, he, ⟨hs, -, hop⟩ | ⟨hs, -, hop⟩⟩ := hlink s p r q hb hr
    · exact (hne e he s r hs hop).symm
    · exact hne e he r s hs hop
  · intro s p p' r q q' hb hb' hr hr'
    obtain ⟨e, he, h⟩ := hlink s p r q hb hr
    obtain ⟨e', he', h'⟩ := hlink s p' r q' hb' hr'
    rcases h with ⟨hs, hp, hop⟩ | ⟨hs, hp, hop⟩
    · rcases h' with ⟨hs', hp', hop'⟩ | ⟨hs', hp', hop'⟩
      · have heq := (link_unique hf hh H₀ (hnear e he) (hnear e' he') hs hop hs' hop').2
        rw [← hp, ← hp', heq]
      · have h₁ := depth_lt hf hh H₀ (hnear e he) hs hop
        have h₂ := depth_lt hf hh H₀ (hnear e' he') hs' hop'
        omega
    · rcases h' with ⟨hs', hp', hop'⟩ | ⟨hs', hp', hop'⟩
      · have h₁ := depth_lt hf hh H₀ (hnear e he) hs hop
        have h₂ := depth_lt hf hh H₀ (hnear e' he') hs' hop'
        omega
      · have heq := (link_unique hf hh H₀ (hnear e he) (hnear e' he') hs hop hs' hop').2
        rw [hp, hp'] at heq
        have hq := u.remote_symm _ _ _ _ hr
        have hq' := u.remote_symm _ _ _ _ hr'
        rw [heq, hq'] at hq
        cases hq
        rfl
  · refine Lib.Forest.isAcyclic
      (fun y x => ∃ e ∈ M, OnPath u (minHops u H₀) e root y ∧ Hop u (minHops u H₀) e y x)
      (fun x => (u.dist root x).toNat) ?_ ?_ ?_
    · have hparent : ∀ v w, (∃ p q, bit v p = true ∧ u.remote v p = some (.sw w q)) →
          (∃ e ∈ M, OnPath u (minHops u H₀) e root v ∧ Hop u (minHops u H₀) e v w) ∨
          ∃ e ∈ M, OnPath u (minHops u H₀) e root w ∧ Hop u (minHops u H₀) e w v := by
        rintro v w ⟨p, q, hb, hr⟩
        obtain ⟨e, he, ⟨hs, -, hop⟩ | ⟨hs, -, hop⟩⟩ := hlink v p w q hb hr
        · exact Or.inl ⟨e, he, hs, hop⟩
        · exact Or.inr ⟨e, he, hs, hop⟩
      rintro v w ⟨-, h | h⟩
      · exact hparent v w h
      · exact (hparent w v h).symm
    · rintro y x ⟨e, he, hy, hyx⟩
      exact depth_lt hf hh H₀ (hnear e he) hy hyx
    · rintro y y' x ⟨e, he, hy, hyx⟩ ⟨e', he', hy', hyx'⟩
      exact (link_unique hf hh H₀ (hnear e he) (hnear e' he') hy hyx hy' hyx').1
  · intro s p r q hb hb'
    exact (hreach s p hb).symm.trans (hreach r q hb')
  · intro e he
    obtain ⟨d, q, ht, hd⟩ := hnear e he
    have hp := onPath_target hf hh H₀ le_rfl ht hd
    have hport : mcastPort u (minHops u H₀) d e = q := by simp only [mcastPort, ht, if_true]
    exact ⟨d, q, ht, hport ▸ hout e he d hp⟩
  · intro s p hb
    obtain ⟨e, he, ⟨hs, rfl⟩ | ⟨y, hy, hp⟩⟩ := (hbit s p).mp hb
    · have hn := (hnear e he).onPath hf hh H₀ hs
      obtain ⟨-, ⟨hz, hes⟩ | ⟨c, hec, hc⟩ | ⟨r, q, hop⟩⟩ := mcastPort_cases hf hh H₀ le_rfl hn
      · exact Or.inr ⟨e, he, by rw [hz, hes]; rfl⟩
      · exact Or.inr ⟨e, he, by rw [hec] at hc ⊢; exact (u.remote_ca _ _ _).mp hc⟩
      · exact Or.inl ⟨r, q, hop⟩
    · exact Or.inl ⟨y, _, u.remote_symm _ _ _ _ hp⟩

/-- With healthy links the multicast entries of a group form a tree that spans exactly its members,
and no switch is entered twice while it is built. -/
theorem buildSpanningTree_spec {mcastCap : Fin n → ℕ} (hcap : ∀ s, mcastCap s ≠ 0) (mlid : ℕ)
    (groups : List (List (EndPort n m))) (t : Mft n) (hlen : 2 ≤ (makePortList groups).length)
    (root : Fin n)
    (hroot : findOptimalSwitch u mcastCap (minHops u H₀) (makePortList groups) = some root)
    (hnear : ∀ e ∈ makePortList groups, ∃ d q, target u e = some (d, q) ∧ u.dist root d < 63) :
    (buildSpanningTree u mcastCap (minHops u H₀) mlid groups (clear t mlid)).entered.Nodup ∧
    IsSpanningTree u (makePortList groups)
      fun s => (buildSpanningTree u mcastCap (minHops u H₀) mlid groups (clear t mlid)).mft s mlid := by
  have hne : makePortList groups ≠ [] := by
    intro h
    rw [h] at hlen
    simp at hlen
  have hbuilt := branch_built hf hh H₀ hcap mlid 63 le_rfl root (makePortList groups) hne hnear 0
    { mft := clear t mlid, maxDepth := 0, entered := [] }
  have heq : buildSpanningTree u mcastCap (minHops u H₀) mlid groups (clear t mlid) =
      branch u mcastCap (minHops u H₀) mlid 63 root (makePortList groups) 0
        { mft := clear t mlid, maxDepth := 0, entered := [] } := by
    simp only [buildSpanningTree, if_neg (not_lt.mpr hlen), hroot]
  rw [heq]
  constructor
  · obtain ⟨L, hL, hnd, -⟩ := hbuilt.entered
    rw [hL]
    simpa using hnd
  · refine isSpanningTree hf hh H₀ root ?_ ?_
    · intro e he
      obtain ⟨d, q, ht, hd⟩ := hnear e he
      exact ⟨d, q, ht, hd.trans_le (by decide)⟩
    · intro s p
      rw [hbuilt.mft]
      simp [clear]

end Tree

theorem buildSpanningTree_triangle :
    (buildSpanningTree (Subnet.triangle fun _ _ => true) (fun _ => 64)
      (minHops (Subnet.triangle fun _ _ => true) fun _ _ => none) 0xC000 [[.ca 0, .sw 0], [.ca 0, .sw 1]]
      (clear (fun _ _ _ => true) 0xC000)).entered.Nodup ∧
    IsSpanningTree (Subnet.triangle fun _ _ => true) [.ca 0, .sw 0, .sw 1]
      fun s => (buildSpanningTree (Subnet.triangle fun _ _ => true) (fun _ => 64)
        (minHops (Subnet.triangle fun _ _ => true) fun _ _ => none) 0xC000
        [[.ca 0, .sw 0], [.ca 0, .sw 1]] (clear (fun _ _ _ => true) 0xC000)).mft s 0xC000 := by
  refine buildSpanningTree_spec (Fabric.ready_triangle _) (fun _ _ => rfl) _ (by decide) 0xC000
    [[.ca 0, .sw 0], [.ca 0, .sw 1]] (fun _ _ _ => true) (by decide) 2 (by decide +kernel) ?_
  intro e he
  have he' : e ∈ [EndPort.ca 0, .sw 0, .sw 1] := he
  have hone : ∀ d, (Subnet.triangle fun _ _ => true).Link 2 d 1 →
      (Subnet.triangle fun _ _ => true).dist 2 d < 63 :=
    fun d h => (Lib.Paths.dist_last h).trans_lt (by decide)
  simp only [List.mem_cons, List.not_mem_nil, or_false] at he'
  rcases he' with rfl | rfl | rfl
  · refine ⟨2, 3, rfl, ?_⟩
    have hself : (Subnet.triangle fun _ _ => true).dist 2 2 = 0 := Lib.Paths.dist_self 2
    rw [hself]
    decide
  · exact ⟨0, 0, rfl, hone 0 ⟨1, 2, rfl, rfl⟩⟩
  · exact ⟨1, 0, rfl, hone 1 ⟨2, 1, rfl, rfl⟩⟩

end OpenSM.McastMgr
