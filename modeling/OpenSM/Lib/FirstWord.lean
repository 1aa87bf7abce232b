import Mathlib

/-! Words that lead through a graph with labelled edges, and the first word to a vertex: the least of the
shortest ones. A search that takes the labels in their order and the vertices as they come finds every vertex by
its first word. -/

namespace OpenSM.Lib.FirstWord

variable {V α : Type*}

section Order

variable [LinearOrder α] {x y z : List α} {a b : α}

/-- Shorter words come first, and words of one length in the order of their labels. -/
def Before (x y : List α) : Prop := x.length < y.length ∨ x.length = y.length ∧ x < y

lemma Before.irrefl : ¬Before x x := by
  rintro (h | ⟨-, h⟩)
  · exact lt_irrefl _ h
  · exact lt_irrefl _ h

lemma Before.trans (h : Before x y) (h' : Before y z) : Before x z := by
  rcases h with h | ⟨h, hlt⟩ <;> rcases h' with h' | ⟨h', hlt'⟩
  · exact .inl (h.trans h')
  · exact .inl (h.trans_eq h')
  · exact .inl (h.trans_lt h')
  · exact .inr ⟨h.trans h', hlt.trans hlt'⟩

lemma Before.asymm (h : Before x y) (h' : Before y x) : False := Before.irrefl (h.trans h')

lemma Before.length_le (h : Before x y) : x.length ≤ y.length := h.elim le_of_lt fun h => h.1.le

lemma before_trichotomy (x y : List α) : Before x y ∨ x = y ∨ Before y x := by
  rcases lt_trichotomy x.length y.length with h | h | h
  · exact .inl (.inl h)
  · rcases lt_trichotomy x y with hxy | hxy | hxy
    · exact .inl (.inr ⟨h, hxy⟩)
    · exact .inr (.inl hxy)
    · exact .inr (.inr (.inr ⟨h.symm, hxy⟩))
  · exact .inr (.inr (.inl h))

lemma before_append : Before x (x ++ [a]) := by
  apply Or.inl
  rw [List.length_append]
  exact Nat.lt_succ_self _

lemma append_lt_append (h : x.length = y.length) : x ++ [a] < y ++ [b] ↔ x < y ∨ x = y ∧ a < b := by
  induction x generalizing y with
  | nil =>
    obtain rfl := List.eq_nil_of_length_eq_zero h.symm
    simp [List.cons_lt_cons_iff]
  | cons c x ih =>
    cases y with
    | nil => cases h
    | cons e y =>
      rw [List.cons_append, List.cons_append, List.cons_lt_cons_iff, List.cons_lt_cons_iff,
        ih (Nat.succ.inj h), List.cons.injEq]
      tauto

lemma before_snoc : Before (x ++ [a]) (y ++ [b]) ↔ Before x y ∨ x = y ∧ a < b := by
  rw [Before, Before, List.length_append, List.length_append, List.length_singleton, List.length_singleton,
    Nat.add_lt_add_iff_right, Nat.add_right_cancel_iff, or_assoc]
  refine or_congr_right ?_
  constructor
  · rintro ⟨h, hlt⟩
    exact ((append_lt_append h).mp hlt).imp_left fun hlt => ⟨h, hlt⟩
  · rintro (⟨h, hlt⟩ | ⟨rfl, hlt⟩)
    · exact ⟨h, (append_lt_append h).mpr (.inl hlt)⟩
    · exact ⟨rfl, (append_lt_append rfl).mpr (.inr ⟨rfl, hlt⟩)⟩

lemma before_wf [WellFoundedLT α] : WellFounded (Before (α := α)) := by
  refine Subrelation.wf (fun {x y} h => ?_) (List.Shortlex.wf (r := ((· < ·) : α → α → Prop)) wellFounded_lt)
  rcases h with h | ⟨h, hlt⟩
  · exact .of_length_lt h
  · exact .of_lex h hlt

end Order

section Walks

inductive Walk (step : V → α → V → Prop) (d : V) : List α → V → Prop
  | nil : Walk step d [] d
  | snoc {x : List α} {u v : V} {a : α} (h : Walk step d x u) (ha : step u a v) : Walk step d (x ++ [a]) v

variable {step : V → α → V → Prop} {d u v : V} {x y : List α} {a : α}

lemma Walk.eq_of_nil (h : Walk step d [] v) : v = d := by
  generalize hx : ([] : List α) = x at h
  cases h with
  | nil => rfl
  | snoc h ha => cases (List.append_ne_nil_of_right_ne_nil _ (List.cons_ne_nil _ _)) hx.symm

lemma Walk.inv_snoc (h : Walk step d (x ++ [a]) v) : ∃ u, Walk step d x u ∧ step u a v := by
  generalize hy : x ++ [a] = y at h
  cases h with
  | nil => cases (List.append_ne_nil_of_right_ne_nil _ (List.cons_ne_nil _ _)) hy
  | snoc h ha =>
    obtain ⟨rfl, hx⟩ := List.append_inj' hy rfl
    obtain rfl := List.singleton_inj.mp hx
    exact ⟨_, h, ha⟩

lemma Walk.end_eq (hdet : ∀ u a v w, step u a v → step u a w → v = w) (h : Walk step d x u)
    (h' : Walk step d x v) :
    u = v := by
  induction h generalizing v with
  | nil => exact h'.eq_of_nil.symm
  | snoc _ ha ih =>
    obtain ⟨w, hw, haw⟩ := h'.inv_snoc
    obtain rfl := ih hw
    exact hdet _ _ _ _ ha haw

end Walks

section First

variable [LinearOrder α] {step : V → α → V → Prop} {d u v : V} {x y : List α} {a : α}

structure First (step : V → α → V → Prop) (d : V) (x : List α) (v : V) : Prop where
  walk : Walk step d x v
  least : ∀ y, Walk step d y v → ¬Before y x

lemma First.inv_snoc (h : First step d (x ++ [a]) v) : ∃ u, First step d x u ∧ step u a v := by
  obtain ⟨u, hu, ha⟩ := h.walk.inv_snoc
  exact ⟨u, ⟨hu, fun y hy hlt => h.least _ (hy.snoc ha) (before_snoc.mpr (.inl hlt))⟩, ha⟩

lemma first_nil : First step d [] d := by
  refine ⟨.nil, fun y _ h => ?_⟩
  rcases h with h | ⟨-, h⟩
  · exact Nat.not_lt_zero _ h
  · exact List.not_lt_nil y h

lemma First.unique (h : First step d x v) (h' : First step d y v) : x = y := by
  rcases before_trichotomy x y with hlt | heq | hlt
  · exact absurd hlt (h'.least x h.walk)
  · exact heq
  · exact absurd hlt (h.least y h'.walk)

lemma First.length_le (h : First step d x v) (hy : Walk step d y v) : x.length ≤ y.length :=
  not_lt.mp fun hlt => h.least y hy (.inl hlt)

lemma Walk.exists_first [WellFoundedLT α] (h : Walk step d y v) : ∃ x, First step d x v :=
  ⟨before_wf.min {x | Walk step d x v} ⟨y, h⟩, before_wf.min_mem {x | Walk step d x v} ⟨y, h⟩,
    fun _ hx => before_wf.not_lt_min {x | Walk step d x v} hx⟩

end First

section Frontier

variable [LinearOrder α] {step : V → α → V → Prop} {d u v r : V} {x y : List α} {a : α} {cap : ℕ}
  {found P : V → Prop} {S : V → α → Prop} {queue rest : List V}

/-- A search in progress: the vertices of `P` have been taken from the queue, and their labels in `S` looked at.
Words of `cap` labels are too long for it. -/
structure Frontier (step : V → α → V → Prop) (d : V) (cap : ℕ) (found P : V → Prop) (S : V → α → Prop)
    (queue : List V) : Prop where
  source : found d
  first : ∀ v, found v → ∃ x, First step d x v ∧ x.length < cap
  taken : ∀ v, P v → found v
  queued : ∀ v ∈ queue, found v
  complete : ∀ v, found v → P v ∨ v ∈ queue
  looked : ∀ u a, S u a → P u
  edge : ∀ u x a v, S u a → First step d x u → step u a v → x.length + 1 < cap → found v
  parent : ∀ v x a, found v → First step d (x ++ [a]) v → ∃ u, First step d x u ∧ S u a
  sorted : queue.Pairwise fun v w => ¬P v → ¬P w → ∀ x y, First step d x v → First step d y w → Before x y
  after : ∀ v w x y, P v → w ∈ queue → ¬P w → First step d x v → First step d y w → Before x y

lemma Frontier.earlier [WellFoundedLT α]
    (h : Frontier step d cap found P (fun v _ => P v) (u :: queue)) (hu : ¬P u)
    (hx : First step d x u) (hy : First step d y v) (hlt : Before y x) : P v := by
  induction y using (@before_wf α _ _).induction generalizing v with
  | _ y ih =>
    obtain ⟨x', hx', hcap⟩ := h.first u (h.queued u List.mem_cons_self)
    obtain rfl := hx'.unique hx
    have hfound : found v := by
      rcases List.eq_nil_or_concat y with rfl | ⟨z, a, rfl⟩
      · rw [hy.walk.eq_of_nil]
        exact h.source
      · rw [List.concat_eq_append] at hy hlt ih
        obtain ⟨w, hw, ha⟩ := hy.inv_snoc
        have hz := before_append.trans hlt
        have hle := hlt.length_le
        rw [List.length_append, List.length_singleton] at hle
        exact h.edge w z a v (ih z before_append hw hz) hw ha (hle.trans_lt hcap)
    rcases h.complete v hfound with hP | hmem
    · exact hP
    · by_contra hP
      rcases List.mem_cons.mp hmem with rfl | hmem
      · exact Before.irrefl (hy.unique hx ▸ hlt)
      · exact hlt.asymm ((List.pairwise_cons.mp h.sorted).1 v hmem hu hP x' y hx hy)

lemma Frontier.take (h : Frontier step d cap found P S (u :: queue)) (hu : ¬P u) :
    Frontier step d cap found (fun v => P v ∨ v = u) S queue := by
  obtain ⟨hhead, hsorted⟩ := List.pairwise_cons.mp h.sorted
  refine ⟨h.source, h.first, ?_, fun v hv => h.queued v (List.mem_cons_of_mem u hv), fun v hv => ?_,
    fun v a hv => .inl (h.looked v a hv), h.edge, h.parent, ?_, fun v w x y hv hw hP hx hy => ?_⟩
  · rintro v (hv | rfl)
    · exact h.taken v hv
    · exact h.queued v List.mem_cons_self
  · rcases h.complete v hv with hP | hmem
    · exact .inl (.inl hP)
    · exact (List.mem_cons.mp hmem).imp_left .inr
  · exact hsorted.imp fun hvw hv hw => hvw (fun hP => hv (.inl hP)) fun hP => hw (.inl hP)
  · have hw' : ¬P w := fun h => hP (.inl h)
    rcases hv with hv | rfl
    · exact h.after v w x y hv (List.mem_cons_of_mem u hw) hw' hx hy
    · exact hhead w hw hu hw' x y hx hy

lemma Frontier.drop (h : Frontier step d cap found P S (u :: queue)) (hu : P u) :
    Frontier step d cap found P S queue := by
  refine { h with
    queued := fun v hv => h.queued v (List.mem_cons_of_mem u hv)
    complete := fun v hv => ?_
    sorted := (List.pairwise_cons.mp h.sorted).2
    after := fun v w x y hv hw => h.after v w x y hv (List.mem_cons_of_mem u hw) }
  rcases h.complete v hv with hP | hmem
  · exact .inl hP
  · rcases List.mem_cons.mp hmem with rfl | hmem
    · exact .inl hu
    · exact .inr hmem

lemma Frontier.requeue (h : Frontier step d cap found P S queue) (hr : P r) :
    Frontier step d cap found P S (queue ++ [r]) := by
  refine { h with
    queued := fun v hv => ?_
    complete := fun v hv => (h.complete v hv).imp_right (List.mem_append_left [r])
    sorted := ?_
    after := fun v w x y hv hw hP => ?_ }
  · rcases List.mem_append.mp hv with hv | hv
    · exact h.queued v hv
    · rw [List.mem_singleton.mp hv]
      exact h.taken r hr
  · refine List.pairwise_append.mpr ⟨h.sorted, List.pairwise_singleton _ _, fun v _ w hw _ hP => ?_⟩
    rw [List.mem_singleton.mp hw] at hP
    exact absurd hr hP
  · rcases List.mem_append.mp hw with hw | hw
    · exact h.after v w x y hv hw hP
    · rw [List.mem_singleton.mp hw] at hP
      exact absurd hr hP

lemma Frontier.congr {S' : V → α → Prop} (h : Frontier step d cap found P S queue) (hle : ∀ v a, S v a → S' v a)
    (hP : ∀ v a, S' v a → P v) (hge : ∀ v a w, S' v a → step v a w → S v a) :
    Frontier step d cap found P S' queue := by
  refine { h with
    looked := hP
    edge := fun v x a w hS hx ha => h.edge v x a w (hge v a w hS ha) hx ha
    parent := fun v x a hv hx => ?_ }
  obtain ⟨w, hw, hS⟩ := h.parent v x a hv hx
  exact ⟨w, hw, hle w a hS⟩

lemma Frontier.look (h : Frontier step d cap found P S queue) (hu : P u) (hx : First step d x u)
    (hold : ∀ r, step u a r → x.length + 1 < cap → found r) :
    Frontier step d cap found P (fun v b => S v b ∨ v = u ∧ b = a) queue := by
  refine { h with
    looked := ?_
    edge := ?_
    parent := fun v y b hv hy => ?_ }
  · rintro v b (hS | ⟨rfl, -⟩)
    · exact h.looked v b hS
    · exact hu
  · rintro v y b r (hS | ⟨rfl, rfl⟩) hy hb hcap
    · exact h.edge v y b r hS hy hb hcap
    · obtain rfl := hx.unique hy
      exact hold r hb hcap
  · obtain ⟨w, hw, hS⟩ := h.parent v y b hv hy
    exact ⟨w, hw, .inl hS⟩

/-- The label by which the vertex just taken leads to a new one, after all labels before it. -/
structure Frontier.Next (step : V → α → V → Prop) (d : V) (P : V → Prop) (S : V → α → Prop) (u : V) (x : List α)
    (a : α) : Prop where
  first : First step d x u
  taken : P u
  last : ∀ v y, P v → First step d y v → v = u ∨ Before y x
  earlier : ∀ v y b, First step d y v → Before y x → S v b
  below : ∀ b, S u b → b < a
  all : ∀ b v, b < a → step u b v → S u b

lemma Frontier.first_new [WellFoundedLT α] (hdet : ∀ u a v w, step u a v → step u a w → v = w)
    (h : Frontier step d cap found P S queue) (hn : Frontier.Next step d P S u x a) (ha : step u a r)
    (hr : ¬found r)
    (hcap : x.length + 1 < cap) : First step d (x ++ [a]) r := by
  obtain ⟨y, hy⟩ := (hn.first.walk.snoc ha).exists_first
  rcases before_trichotomy y (x ++ [a]) with hlt | rfl | hlt
  · refine absurd ?_ hr
    rcases List.eq_nil_or_concat y with rfl | ⟨z, b, rfl⟩
    · rw [hy.walk.eq_of_nil]
      exact h.source
    · rw [List.concat_eq_append] at hy hlt
      obtain ⟨w, hw, hb⟩ := hy.inv_snoc
      rcases before_snoc.mp hlt with hz | ⟨rfl, hba⟩
      · refine h.edge w z b r (hn.earlier w z b hw hz) hw hb (lt_of_le_of_lt ?_ hcap)
        exact Nat.succ_le_succ hz.length_le
      · obtain rfl := hw.walk.end_eq hdet hn.first.walk
        exact h.edge w z b r (hn.all b r hba hb) hw hb hcap
  · exact hy
  · exact absurd hlt (hy.least _ (hn.first.walk.snoc ha))

/-- A label that leads to a new vertex puts it at the end of the queue. -/
lemma Frontier.find (hdet : ∀ u a v w, step u a v → step u a w → v = w) (h : Frontier step d cap found P S queue)
    (hn : Frontier.Next step d P S u x a) (ha : step u a r) (hr : First step d (x ++ [a]) r)
    (hcap : x.length + 1 < cap) :
    Frontier step d cap (fun v => found v ∨ v = r) P (fun v b => S v b ∨ v = u ∧ b = a) (queue ++ [r]) := by
  have hlast : ∀ v y, P v → First step d y v → Before y (x ++ [a]) := by
    intro v y hv hy
    rcases hn.last v y hv hy with rfl | hlt
    · rw [hy.unique hn.first]
      exact before_append
    · exact hlt.trans before_append
  refine ⟨.inl h.source, ?_, fun v hv => .inl (h.taken v hv), fun v hv => ?_, ?_, ?_, ?_, ?_, ?_, ?_⟩
  · rintro v (hv | rfl)
    · exact h.first v hv
    · refine ⟨_, hr, ?_⟩
      rwa [List.length_append, List.length_singleton]
  · exact (List.mem_append.mp hv).imp (h.queued v) List.mem_singleton.mp
  · rintro v (hv | rfl)
    · exact (h.complete v hv).imp_right (List.mem_append_left [r])
    · exact .inr (List.mem_append_right queue List.mem_cons_self)
  · rintro v b (hS | ⟨rfl, -⟩)
    · exact h.looked v b hS
    · exact hn.taken
  · rintro v y b w (hS | ⟨rfl, rfl⟩) hy hb hlt
    · exact .inl (h.edge v y b w hS hy hb hlt)
    · exact .inr (hdet _ _ _ _ hb ha)
  · rintro v y b (hv | rfl) hy
    · obtain ⟨w, hw, hS⟩ := h.parent v y b hv hy
      exact ⟨w, hw, .inl hS⟩
    · obtain ⟨rfl, hb⟩ := List.append_inj' (hy.unique hr) rfl
      exact ⟨u, hn.first, .inr ⟨rfl, List.singleton_inj.mp hb⟩⟩
  · refine List.pairwise_append.mpr ⟨h.sorted, List.pairwise_singleton _ _, fun v hv w hw _ _ y z hy hz => ?_⟩
    obtain rfl := List.mem_singleton.mp hw
    obtain rfl := hz.unique hr
    -- The vertex has come from one that was taken before this one, or by an earlier label.
    rcases List.eq_nil_or_concat y with rfl | ⟨y', b, rfl⟩
    · exact .inl (List.length_pos_of_ne_nil (List.append_ne_nil_of_right_ne_nil x (List.cons_ne_nil a [])))
    · rw [List.concat_eq_append] at hy ⊢
      obtain ⟨v', hv', hS⟩ := h.parent v y' b (h.queued v hv) hy
      apply before_snoc.mpr
      rcases hn.last v' y' (h.looked v' b hS) hv' with rfl | hlt
      · exact .inr ⟨hv'.unique hn.first, hn.below b hS⟩
      · exact .inl hlt
  · intro v w y z hv hw hP hy hz
    rcases List.mem_append.mp hw with hw | hw
    · exact h.after v w y z hv hw hP hy hz
    · obtain rfl := List.mem_singleton.mp hw
      rw [hz.unique hr]
      exact hlast v y hv hy

lemma Frontier.finished (h : Frontier step d cap found P (fun v _ => P v) [])
    (hx : First step d x v) (hlt : x.length < cap) : found v := by
  induction x using List.reverseRecOn generalizing v with
  | nil =>
    rw [hx.walk.eq_of_nil]
    exact h.source
  | append_singleton x a ih =>
    obtain ⟨u, hu, ha⟩ := hx.inv_snoc
    rw [List.length_append, List.length_singleton] at hlt
    have hP := (h.complete u (ih hu (Nat.lt_of_succ_lt hlt))).resolve_right List.not_mem_nil
    exact h.edge u x a v hP hu ha hlt

lemma frontier_start (hcap : 0 < cap) : Frontier step d cap (· = d) (fun _ => False) (fun _ _ => False) [d] := by
  refine ⟨rfl, ?_, fun _ h => h.elim, fun v hv => List.mem_singleton.mp hv,
    fun v hv => .inr (List.mem_singleton.mpr hv), fun _ _ h => h, fun _ _ _ _ h => h.elim, ?_,
    List.pairwise_singleton _ _, fun _ _ _ _ h => h.elim⟩
  · rintro v rfl
    exact ⟨[], first_nil, hcap⟩
  · rintro v x a rfl hx
    have hnil := hx.unique first_nil
    exact absurd hnil (List.append_ne_nil_of_right_ne_nil x (List.cons_ne_nil a []))

end Frontier

end OpenSM.Lib.FirstWord
