import OpenSM.MeshMetric

/-! `make_geometry`: axes are given to the links of a seed switch and induced in the others. -/

namespace OpenSM.LashMesh

variable {P L : Type}

section Code

abbrev Axes := List (List ℕ)

def axis (ax : Axes) (sw i : ℕ) : ℕ := (ax.getD sw []).getD i 0

def setAxis (ax : Axes) (sw i c : ℕ) : Axes := ax.set sw ((ax.getD sw []).set i c)

/-- One dimension of `seed_axes`. There is no result when it writes past the links of the seed. -/
def seedAxis (D : ℕ → ℕ → ℤ) (row : List ℕ) (k : ℕ) : Option (List ℕ) :=
  ((List.range row.length).find? fun i => row.getD i 0 = 0).map fun i =>
    let row := row.set i (2 * k + 1)
    ((List.range row.length).find? fun j => row.getD j 0 = 0 ∧ j ≠ i ∧ D i j ≠ 2).elim row
        fun j => row.set j (2 * k + 2)

def seedAxes (D : ℕ → ℕ → ℤ) (dimension : ℕ) (row : List ℕ) : Option (List ℕ) :=
  (List.range dimension).foldlM (seedAxis D) row

def assign (st : Axes × ℕ) (sw i c : ℕ) : Axes × ℕ :=
  if axis st.1 sw i = 0 then (setAxis st.1 sw i c, st.2 + 1) else st

variable (g : Lash P L) (seed : ℕ) (nd : MeshNode L)

def seedOpposite (ax : Axes) (c : ℕ) : ℕ := opposite { nd with axes := axis ax seed } c

def oppositeLinks (st : Axes × ℕ) (x : Switch P L × ℕ) : Axes × ℕ :=
  let n := x.1.node.links.length
  if n < nd.links.length ∧ n ≤ 2 then st
  else
    match x.1.node.matrix with
    | none => st
    | some D =>
      (List.range n).foldl (fun st i =>
        if axis st.1 x.2 i = 0 ∨ ((List.range n).filter fun j => j ≠ i ∧ D i j ≠ 2).length ≠ 1 then st
        else (List.range n).foldl (fun st j =>
          if j ≠ i ∧ D i j ≠ 2 ∧ D i j ≤ 4 then
            assign st x.2 j (seedOpposite seed nd st.1 (axis st.1 x.2 i))
          else st) st) st

def otherEnds (st : Axes × ℕ) (x : Switch P L × ℕ) : Axes × ℕ :=
  match x.1.node.matrix with
  | none => st
  | some _ =>
    x.1.node.links.zipIdx.foldl (fun st y =>
      if axis st.1 x.2 y.2 = 0 then st
      else
        match (g.link y.1).linkId with
        | none => st
        | some l2 =>
          if (g.switches[(g.link y.1).switchId]?.bind (·.node.matrix)).isNone then st
          else assign st (g.link y.1).switchId l2 (seedOpposite seed nd st.1 (axis st.1 x.2 y.2))) st

def common (sw : ℕ) (s1 s2 : Switch P L) : Option ((L × ℕ) × (L × ℕ)) :=
  (s1.node.links.zipIdx.product s2.node.links.zipIdx).find? fun kl =>
    (g.link kl.1.1).switchId ≠ sw ∧ (g.link kl.2.1).switchId ≠ sw ∧
        (g.link kl.1.1).switchId = (g.link kl.2.1).switchId

def corners (st : Axes × ℕ) (x : Switch P L × ℕ) : Axes × ℕ :=
  match x.1.node.matrix with
  | none => st
  | some D =>
    x.1.node.links.zipIdx.foldl (fun st y =>
      if axis st.1 x.2 y.2 = 0 then st
      else x.1.node.links.zipIdx.foldl (fun st z =>
        if y.2 = z.2 ∨ axis st.1 x.2 z.2 = 0 ∨ D y.2 z.2 ≠ 2 then st
        else
          match g.switches[(g.link y.1).switchId]?, g.switches[(g.link z.1).switchId]? with
          | some s1, some s2 =>
            match common g x.2 s1 s2 with
            | none => st
            | some kl =>
              let st := assign st (g.link y.1).switchId kl.1.2 (axis st.1 x.2 z.2)
              assign st (g.link z.1).switchId kl.2.2 (axis st.1 x.2 y.2)
          | _, _ => st) st) st

def geometryRound (ax : Axes) : Axes × ℕ :=
  let st := g.switches.zipIdx.foldl (oppositeLinks seed nd) (ax, 0)
  let st := g.switches.zipIdx.foldl (otherEnds g seed nd) st
  g.switches.zipIdx.foldl (corners g) st

def makeGeometry (dimension fuel : ℕ) (ax : Axes) : Option Axes :=
  g.switches[seed]?.bind fun s =>
    match s.node.matrix with
    | none => some ax
    | some D => (seedAxes D dimension (ax.getD seed [])).bind fun row =>
        Lib.Rounds.loop (geometryRound g seed s.node) fuel (ax.set seed row)

end Code

section Spec

/-- The links can be gone through in order: each takes the first free one that is not at distance 2 for its
opposite, or is at distance 2 from all others, and there are links for all dimensions. -/
def Pairable (D : ℕ → ℕ → ℤ) (n : ℕ) : ℕ → List ℕ → Prop
  | 0, _ => True
  | _ + 1, [] => False
  | d + 1, i :: free =>
    match free.find? fun j => D i j ≠ 2 with
    | some j => Pairable D n d (free.erase j)
    | none => (∀ j < n, j ≠ i → D i j = 2) ∧ Pairable D n d free

def Closed (D : ℕ → ℕ → ℤ) (row : List ℕ) : Prop :=
  ∀ i c, row[i]? = some c → c ≠ 0 →
    negaxis c ∈ row ∨ (∀ j < row.length, j ≠ i → D i j = 2) ∧ ∀ l ≤ i, row[l]? ≠ some 0

structure Extends (row row' : List ℕ) : Prop where
  length : row'.length = row.length
  keep : ∀ i c : ℕ, row[i]? = some c → c ≠ 0 → row'[i]? = some c

end Spec

section Seed

variable {D : ℕ → ℕ → ℤ} {row row' row'' : List ℕ} {i k : ℕ}

lemma Extends.refl (row : List ℕ) : Extends row row := ⟨rfl, fun _ _ h _ => h⟩

lemma Extends.trans (h : Extends row row') (h' : Extends row' row'') : Extends row row'' :=
  ⟨h'.length.trans h.length, fun i c hi hc => h'.keep i c (h.keep i c hi hc) hc⟩

lemma Extends.set (h : row.getD i 0 = 0) (c : ℕ) : Extends row (row.set i c) := by
  refine ⟨List.length_set, fun j a hj ha => ?_⟩
  have hne : i ≠ j := by
    rintro rfl
    rw [List.getD_eq_getElem?_getD, hj] at h
    exact ha h
  rw [List.getElem?_set_ne hne]
  exact hj

lemma negaxis_ne (c : ℕ) : negaxis c ≠ 0 := by
  rw [negaxis]
  omega

lemma negaxis_odd (k : ℕ) : negaxis (2 * k + 1) = 2 * k + 2 := by
  rw [negaxis, Nat.add_sub_cancel, Nat.xor_comm, Nat.xor_one_of_even (even_two_mul k)]
  omega

lemma negaxis_even (k : ℕ) : negaxis (2 * k + 2) = 2 * k + 1 := by
  have hsub : 2 * k + 2 - 1 = 2 * k + 1 := rfl
  rw [negaxis, hsub, Nat.xor_comm, Nat.xor_one_of_odd (odd_two_mul_add_one k)]
  omega

lemma Closed.extend (h : Closed D row) (hext : Extends row row') {c : ℕ} (hi : row[i]? = some c) (hc : c ≠ 0) :
    negaxis c ∈ row' ∨ (∀ j < row'.length, j ≠ i → D i j = 2) ∧ ∀ l ≤ i, row'[l]? ≠ some 0 := by
  rcases h i c hi hc with hneg | ⟨hall, hbefore⟩
  · obtain ⟨j, hj⟩ := List.mem_iff_getElem?.mp hneg
    exact .inl (List.mem_of_getElem? (hext.keep j _ hj (negaxis_ne c)))
  · refine .inr ⟨fun j hj => hall j (hext.length ▸ hj), fun l hl hzero => ?_⟩
    have hlt : l < row.length := hext.length ▸ (List.getElem?_eq_some_iff.mp hzero).1
    have hold : row[l] ≠ 0 := fun h => hbefore l hl (by rw [List.getElem?_eq_getElem hlt, h])
    rw [hext.keep l _ (List.getElem?_eq_getElem hlt) hold] at hzero
    exact hold (Option.some.inj hzero)

def freeLinks (row : List ℕ) : List ℕ := (List.range row.length).filter fun i => row.getD i 0 = 0

lemma freeLinks_set (hi : i < row.length) {c : ℕ} (hc : c ≠ 0) :
    freeLinks (row.set i c) = (freeLinks row).erase i := by
  have hnodup : (freeLinks row).Nodup := List.nodup_range.filter _
  rw [hnodup.erase_eq_filter, freeLinks, freeLinks, List.filter_filter, List.length_set]
  apply List.filter_congr
  intro j _
  by_cases hj : i = j
  · subst hj
    rw [List.getD_eq_getElem?_getD, List.getElem?_set_self hi]
    simp [hc]
  · rw [List.getD_eq_getElem?_getD, List.getElem?_set_ne hj, ← List.getD_eq_getElem?_getD]
    simp [Ne.symm hj]

/-- One dimension: the first free link and what goes with it. -/
lemma seedAxis_spec {free : List ℕ} (hclosed : Closed D row) (hfree : freeLinks row = i :: free)
    (hpair : (free.find? fun j => D i j ≠ 2) = none → ∀ j < row.length, j ≠ i → D i j = 2) (k : ℕ) :
    ∃ row', seedAxis D row k = some row' ∧ Closed D row' ∧ Extends row row' ∧
      freeLinks row' = (free.find? fun j => D i j ≠ 2).elim free free.erase := by
  have hmem : i ∈ freeLinks row := hfree ▸ List.mem_cons_self
  obtain ⟨hlt, hzero⟩ := List.mem_filter.mp hmem
  rw [List.mem_range] at hlt
  have hzero : row.getD i 0 = 0 := of_decide_eq_true hzero
  have hfirst : (List.range row.length).find? (fun i => row.getD i 0 = 0) = some i := by
    rw [← List.head?_filter]
    exact congrArg List.head? hfree
  have hbefore : ∀ l < i, row[l]? ≠ some 0 := by
    intro l hl hl0
    have hnot := (List.find?_range_eq_some.mp hfirst).2.2 l hl
    rw [List.getD_eq_getElem?_getD, hl0] at hnot
    exact absurd hnot (by decide)
  have hext : Extends row (row.set i (2 * k + 1)) := .set hzero _
  have hrest : freeLinks (row.set i (2 * k + 1)) = free := by
    rw [freeLinks_set hlt (Nat.succ_ne_zero _), hfree, List.erase_cons_head]
  have hself : (row.set i (2 * k + 1))[i]? = some (2 * k + 1) := List.getElem?_set_self hlt
  have hsecond : (List.range (row.set i (2 * k + 1)).length).find?
      (fun j => (row.set i (2 * k + 1)).getD j 0 = 0 ∧ j ≠ i ∧ D i j ≠ 2) = free.find? fun j => D i j ≠ 2 := by
    rw [← hrest, freeLinks, List.find?_filter]
    congr 1
    funext j
    have hne : (row.set i (2 * k + 1)).getD j 0 = 0 → j ≠ i := by
      rintro hj rfl
      rw [List.getD_eq_getElem?_getD, hself] at hj
      exact absurd hj (Nat.succ_ne_zero _)
    exact decide_eq_decide.mpr ⟨fun h => ⟨decide_eq_true h.1, decide_eq_true h.2.2⟩, fun h =>
      ⟨of_decide_eq_true h.1, hne (of_decide_eq_true h.1), of_decide_eq_true h.2⟩⟩
  rw [seedAxis, hfirst, Option.map_some]
  dsimp only
  rw [hsecond]
  cases hother : free.find? fun j => D i j ≠ 2 with
  | none =>
    refine ⟨row.set i (2 * k + 1), rfl, fun l c hl hc => ?_, hext, hrest⟩
    by_cases hli : l = i
    · subst hli
      refine .inr ⟨fun j hj => hpair hother j (hext.length ▸ hj), fun l' hl' => ?_⟩
      rcases hl'.lt_or_eq with hl' | rfl
      · rw [List.getElem?_set_ne (Ne.symm hl'.ne)]
        exact hbefore l' hl'
      · rw [hself]
        exact fun h => absurd (Option.some.inj h) (Nat.succ_ne_zero _)
    · rw [List.getElem?_set_ne (Ne.symm hli)] at hl
      exact hclosed.extend hext hl hc
  | some j =>
    have hj : j ∈ freeLinks (row.set i (2 * k + 1)) := hrest ▸ List.mem_of_find?_eq_some hother
    obtain ⟨hjlt, hjzero⟩ := List.mem_filter.mp hj
    rw [List.mem_range] at hjlt
    have hext' := hext.trans (.set (of_decide_eq_true hjzero) (2 * k + 2))
    have hlast : ((row.set i (2 * k + 1)).set j (2 * k + 2))[j]? = some (2 * k + 2) := List.getElem?_set_self hjlt
    have hne : j ≠ i := by
      rintro rfl
      have hz : (row.set j (2 * k + 1)).getD j 0 = 0 := of_decide_eq_true hjzero
      rw [List.getD_eq_getElem?_getD, hself] at hz
      exact absurd hz (Nat.succ_ne_zero _)
    have hkept : ((row.set i (2 * k + 1)).set j (2 * k + 2))[i]? = some (2 * k + 1) := by
      rw [List.getElem?_set_ne hne, hself]
    refine ⟨(row.set i (2 * k + 1)).set j (2 * k + 2), rfl, fun l c hl hc => ?_, hext', ?_⟩
    · by_cases hlj : l = j
      · subst hlj
        obtain rfl := Option.some.inj (hlast.symm.trans hl)
        rw [negaxis_even]
        exact .inl (List.mem_of_getElem? hkept)
      · by_cases hli : l = i
        · subst hli
          obtain rfl := Option.some.inj (hkept.symm.trans hl)
          rw [negaxis_odd]
          exact .inl (List.mem_of_getElem? hlast)
        · rw [List.getElem?_set_ne (Ne.symm hlj), List.getElem?_set_ne (Ne.symm hli)] at hl
          exact hclosed.extend hext' hl hc
    · rw [freeLinks_set hjlt (Nat.succ_ne_zero _), hrest]
      rfl

lemma seedAxes_spec {ks : List ℕ} (hclosed : Closed D row)
    (hpair : Pairable D row.length ks.length (freeLinks row)) :
    ∃ row', ks.foldlM (seedAxis D) row = some row' ∧ Closed D row' ∧ Extends row row' := by
  induction ks generalizing row with
  | nil => exact ⟨row, rfl, hclosed, .refl row⟩
  | cons k ks ih =>
    rw [List.length_cons] at hpair
    cases hfree : freeLinks row with
    | nil =>
      rw [hfree] at hpair
      exact hpair.elim
    | cons i free =>
      rw [hfree, Pairable] at hpair
      have hstep := @seedAxis_spec D row i free hclosed hfree
          (fun hnone => by rw [hnone] at hpair; exact hpair.1) k
      obtain ⟨row₁, hrun, hclosed₁, hext, hfree₁⟩ := hstep
      have hpair₁ : Pairable D row₁.length ks.length (freeLinks row₁) := by
        rw [hext.length, hfree₁]
        cases hother : free.find? fun j => D i j ≠ 2 with
        | none =>
          rw [hother] at hpair
          exact hpair.2
        | some j =>
          rw [hother] at hpair
          exact hpair
      obtain ⟨row', hrest, hclosed', hext'⟩ := ih hclosed₁ hpair₁
      refine ⟨row', ?_, hclosed', hext.trans hext'⟩
      rw [List.foldlM_cons, hrun]
      exact hrest

end Seed

section Invariant

variable {g : Lash P L} {seed sw i c : ℕ} {nd : MeshNode L} {D : ℕ → ℕ → ℤ} {row : List ℕ}
  {ms : List (ℕ × ℕ)} {ax : Axes} {st : Axes × ℕ}

/-- What holds while axes are induced: they are axes of the seed, whose links keep what they have; so do the
links `ms`. -/
structure Induced (g : Lash P L) (seed : ℕ) (row : List ℕ) (ms : List (ℕ × ℕ)) (ax : Axes) : Prop where
  length : ax.length = g.switches.length
  shape : ∀ sw (s : Switch P L), g.switches[sw]? = some s → (ax.getD sw []).length = s.node.links.length
  among : ∀ sw i, axis ax sw i ≠ 0 → axis ax sw i ∈ row
  seed : Extends row (ax.getD seed [])
  marked : ∀ m ∈ ms, axis ax m.1 m.2 ≠ 0

def zeros (g : Lash P L) (ax : Axes) : ℕ := ∑ sw ∈ Finset.range g.switches.length, (ax.getD sw []).count 0

lemma Induced.mark (h : Induced g seed row ms ax) (hm : axis ax sw i ≠ 0) :
    Induced g seed row ((sw, i) :: ms) ax :=
  ⟨h.length, h.shape, h.among, h.seed, List.forall_mem_cons.mpr ⟨hm, h.marked⟩⟩

lemma Induced.unmark {m : ℕ × ℕ} {ax : Axes} (h : Induced g seed row (m :: ms) ax) : Induced g seed row ms ax :=
  ⟨h.length, h.shape, h.among, h.seed, fun m' hm' => h.marked m' (List.mem_cons_of_mem m hm')⟩

lemma row_setAxis (hsw : sw < ax.length) (sw' : ℕ) :
    (setAxis ax sw i c).getD sw' [] = if sw' = sw then (ax.getD sw []).set i c else ax.getD sw' [] := by
  rw [setAxis]
  split_ifs with h
  · rw [h, List.getD_eq_getElem?_getD, List.getElem?_set_self hsw]
    rfl
  · rw [List.getD_eq_getElem?_getD, List.getElem?_set_ne (Ne.symm h), List.getD_eq_getElem?_getD]

lemma axis_setAxis (hsw : sw < ax.length) (hi : i < (ax.getD sw []).length) (sw' i' : ℕ) :
    axis (setAxis ax sw i c) sw' i' = if sw' = sw ∧ i' = i then c else axis ax sw' i' := by
  rw [axis, row_setAxis hsw]
  by_cases hs : sw' = sw
  · subst hs
    rw [if_pos rfl]
    by_cases hii : i' = i
    · subst hii
      rw [List.getD_eq_getElem?_getD, List.getElem?_set_self hi, if_pos ⟨rfl, rfl⟩]
      rfl
    · rw [List.getD_eq_getElem?_getD, List.getElem?_set_ne (Ne.symm hii), if_neg fun h => hii h.2,
        ← List.getD_eq_getElem?_getD]
      rfl
  · rw [if_neg hs, if_neg fun h => hs h.1]
    rfl

lemma zeros_setAxis (hlen : ax.length = g.switches.length) (hsw : sw < ax.length) (hi : i < (ax.getD sw []).length)
    (hzero : axis ax sw i = 0) (hc : c ≠ 0) : zeros g (setAxis ax sw i c) < zeros g ax := by
  have hget : (ax.getD sw [])[i] = 0 := by
    rw [axis, List.getD_eq_getElem _ _ hi] at hzero
    exact hzero
  have hcount : ((ax.getD sw []).set i c).count 0 < (ax.getD sw []).count 0 := by
    have hpos : 0 < (ax.getD sw []).count 0 := List.count_pos_iff.mpr (hget ▸ List.getElem_mem hi)
    rw [List.count_set hi, hget]
    simp only [beq_self_eq_true, if_true, beq_iff_eq, hc, if_false]
    omega
  apply Finset.sum_lt_sum
  · intro sw' _
    rw [row_setAxis hsw]
    split_ifs with h
    · rw [h]
      exact hcount.le
    · exact le_rfl
  · refine ⟨sw, Finset.mem_range.mpr (hlen ▸ hsw), ?_⟩
    rw [row_setAxis hsw, if_pos rfl]
    exact hcount

/-- Every store of an axis of the seed is a step forward. -/
lemma assign_counted {s : Switch P L} (hs : g.switches[sw]? = some s) (hi : i < s.node.links.length) (hc : c ≠ 0)
    (hmem : c ∈ row) (h : Induced g seed row ms st.1) :
    Lib.Rounds.Counted (Induced g seed row ms) (zeros g) st (assign st sw i c) := by
  have hsw : sw < st.1.length := h.length ▸ (List.getElem?_eq_some_iff.mp hs).1
  have hlt : i < (st.1.getD sw []).length := h.shape sw s hs ▸ hi
  rw [assign]
  split_ifs with hzero
  · have hax := fun sw' i' => @axis_setAxis sw i c st.1 hsw hlt sw' i'
    refine .change ⟨?_, fun sw' s' hs' => ?_, fun sw' i' hne => ?_, ?_, fun m hm => ?_⟩
      (zeros_setAxis h.length hsw hlt hzero hc)
    · rw [setAxis, List.length_set]
      exact h.length
    · rw [row_setAxis hsw]
      split_ifs with heq
      · subst heq
        rw [List.length_set]
        exact h.shape sw' s' hs'
      · exact h.shape sw' s' hs'
    · rw [hax] at hne ⊢
      split_ifs at hne ⊢
      · exact hmem
      · exact h.among sw' i' hne
    · rw [row_setAxis hsw]
      split_ifs with heq
      · subst heq
        exact h.seed.trans (.set hzero c)
      · exact h.seed
    · rw [hax]
      split_ifs
      · exact hc
      · exact h.marked m hm
  · exact .refl h

/-- An axis of the seed has an opposite that is an axis of the seed. -/
lemma seedOpposite_spec (hD : nd.matrix = some D) (hlen : nd.links.length = row.length) (hclosed : Closed D row)
    (h : Induced g seed row ms ax) (hc : c ≠ 0) (hmem : c ∈ row) :
    seedOpposite seed nd ax c ≠ 0 ∧ seedOpposite seed nd ax c ∈ row := by
  have hget : ∀ {k a : ℕ}, row[k]? = some a → a ≠ 0 → axis ax seed k = a := by
    intro k a hk ha
    rw [axis, List.getD_eq_getElem?_getD, h.seed.keep k a hk ha]
    rfl
  obtain ⟨k, hk⟩ := List.mem_iff_getElem?.mp hmem
  have hklt : k < row.length := (List.getElem?_eq_some_iff.mp hk).1
  rw [seedOpposite, opposite, hD]
  dsimp only
  cases hfind : (List.range nd.links.length).find? fun j => axis ax seed j = c with
  | none =>
    have hnot := List.find?_range_eq_none.mp hfind k (hlen ▸ hklt)
    rw [hget hk hc] at hnot
    simp at hnot
  | some j =>
    obtain ⟨hj, hjlt, hfirst⟩ := List.find?_range_eq_some.mp hfind
    have hj : axis ax seed j = c := of_decide_eq_true hj
    rw [List.mem_range, hlen] at hjlt
    dsimp only
    split_ifs with hother
    · refine ⟨negaxis_ne c, ?_⟩
      obtain ⟨j', hj', hne, hdist⟩ := hother
      rw [List.mem_range, hlen] at hj'
      have hle : j ≤ k := by
        by_contra hlt
        have hnot := hfirst k (not_le.mp hlt)
        rw [hget hk hc] at hnot
        simp at hnot
      by_cases hold : row[j] = 0
      · refine (hclosed k c hk hc).resolve_right fun hall => hall.2 j hle ?_
        rw [List.getElem?_eq_getElem hjlt, hold]
      · have heq : row[j]? = some c := by
          rw [List.getElem?_eq_getElem hjlt, ← hj, hget (List.getElem?_eq_getElem hjlt) hold]
        exact (hclosed j c heq hc).resolve_right fun hall => hdist (hall.1 j' hj' hne)
    · exact ⟨hc, hmem⟩

end Invariant

section Phases

variable {g : Lash P L} {seed : ℕ} {nd : MeshNode L} {D : ℕ → ℕ → ℤ} {row : List ℕ} {ax : Axes} {st : Axes × ℕ}
  {x : Switch P L × ℕ} (hD : nd.matrix = some D) (hlen : nd.links.length = row.length) (hclosed : Closed D row)

include hD hlen hclosed

lemma oppositeLinks_counted (hx : x ∈ g.switches.zipIdx) (h : Induced g seed row [] st.1) :
    Lib.Rounds.Counted (Induced g seed row []) (zeros g) st (oppositeLinks seed nd st x) := by
  have hs : g.switches[x.2]? = some x.1 := List.mem_zipIdx_iff_getElem?.mp hx
  rw [oppositeLinks]
  split_ifs
  · exact .refl h
  · cases x.1.node.matrix with
    | none => exact .refl h
    | some D' =>
      refine .foldl (fun i _ st h => ?_) h
      split_ifs with hskip
      · exact .refl h
      · have hi : axis st.1 x.2 i ≠ 0 := fun hzero => hskip (.inl hzero)
        refine Lib.Rounds.Counted.mono (I := Induced g seed row [(x.2, i)]) ?_ fun ax hax => Induced.unmark hax
        refine .foldl (fun j hj st h => ?_) (h.mark hi)
        split_ifs
        · have hne : axis st.1 x.2 i ≠ 0 := h.marked _ List.mem_cons_self
          obtain ⟨hopp, hmem⟩ := seedOpposite_spec hD hlen hclosed h hne (h.among _ _ hne)
          exact assign_counted hs (List.mem_range.mp hj) hopp hmem h
        · exact .refl h

lemma otherEnds_counted (hnum : Numbered g) (hx : x ∈ g.switches.zipIdx) (h : Induced g seed row [] st.1) :
    Lib.Rounds.Counted (Induced g seed row []) (zeros g) st (otherEnds g seed nd st x) := by
  have hs : g.switches[x.2]? = some x.1 := List.mem_zipIdx_iff_getElem?.mp hx
  rw [otherEnds]
  cases x.1.node.matrix with
  | none => exact .refl h
  | some D' =>
    refine .foldl (fun y hy st h => ?_) h
    have hy : y.1 ∈ x.1.node.links := List.mem_of_getElem? (List.mem_zipIdx_iff_getElem?.mp hy)
    by_cases hi : axis st.1 x.2 y.2 = 0
    · rw [if_pos hi]
      exact .refl h
    · rw [if_neg hi]
      cases hl2 : (g.link y.1).linkId with
      | none => exact .refl h
      | some l2 =>
        dsimp only
        split_ifs
        · exact .refl h
        · obtain ⟨s', hs', hlt⟩ := hnum x.1 (List.mem_of_getElem? hs) y.1 hy l2 hl2
          obtain ⟨hopp, hmem⟩ := seedOpposite_spec hD hlen hclosed h hi (h.among _ _ hi)
          exact assign_counted hs' hlt hopp hmem h

omit hD hlen hclosed in
lemma common_lt {sw : ℕ} {s1 s2 : Switch P L} {kl : (L × ℕ) × (L × ℕ)} (h : common g sw s1 s2 = some kl) :
    kl.1.2 < s1.node.links.length ∧ kl.2.2 < s2.node.links.length := by
  obtain ⟨hk, hl⟩ := List.mem_product.mp (List.mem_of_find?_eq_some h)
  exact ⟨(List.getElem?_eq_some_iff.mp (List.mem_zipIdx_iff_getElem?.mp hk)).1,
    (List.getElem?_eq_some_iff.mp (List.mem_zipIdx_iff_getElem?.mp hl)).1⟩

omit hD hlen hclosed in
lemma corners_counted (h : Induced g seed row [] st.1) :
    Lib.Rounds.Counted (Induced g seed row []) (zeros g) st (corners g st x) := by
  rw [corners]
  cases x.1.node.matrix with
  | none => exact .refl h
  | some D' =>
    refine .foldl (fun y _ st h => ?_) h
    dsimp only
    split_ifs with hi
    · exact .refl h
    · refine Lib.Rounds.Counted.mono (I := Induced g seed row [(x.2, y.2)]) ?_ fun ax hax => Induced.unmark hax
      refine .foldl (fun z _ st h => ?_) (h.mark hi)
      split_ifs with hskip
      · exact .refl h
      · split
        · next s1 s2 hs1 hs2 =>
          cases hcommon : common g x.2 s1 s2 with
          | none => exact .refl h
          | some kl =>
            obtain ⟨hk, hl⟩ := common_lt hcommon
            have hz : axis st.1 x.2 z.2 ≠ 0 := fun hzero => hskip (.inr (.inl hzero))
            have hfirst := assign_counted hs1 hk hz (h.among _ _ hz) h
            have hy : axis (assign st (g.link y.1).switchId kl.1.2 (axis st.1 x.2 z.2)).1 x.2 y.2 ≠ 0 :=
              hfirst.inv.marked _ List.mem_cons_self
            exact hfirst.trans (assign_counted hs2 hl hy (hfirst.inv.among _ _ hy) hfirst.inv)
        · exact .refl h

lemma geometryRound_counted (hnum : Numbered g) (h : Induced g seed row [] ax) :
    Lib.Rounds.Counted (Induced g seed row []) (zeros g) (ax, 0) (geometryRound g seed nd ax) := by
  have h₁ : Lib.Rounds.Counted (Induced g seed row []) (zeros g) (ax, 0)
      (g.switches.zipIdx.foldl (oppositeLinks seed nd) (ax, 0)) :=
    .foldl (fun x hx st h => oppositeLinks_counted hD hlen hclosed hx h) h
  have h₂ := Lib.Rounds.Counted.foldl
    (fun x hx st h => @otherEnds_counted P L g seed nd D row st x hD hlen hclosed hnum hx h) h₁.inv
  exact (h₁.trans h₂).trans (Lib.Rounds.Counted.foldl (fun x _ st h => corners_counted h) h₂.inv)

end Phases

end OpenSM.LashMesh
