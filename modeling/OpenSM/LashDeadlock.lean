import OpenSM.LashCore
import OpenSM.Lib.Cycles

/-! The cycle test misses no cycle that a new pair closes, so that the routes of a lane never wait for one
another. -/

namespace OpenSM.Lash

open Lib Relation

variable {n : ℕ}

section Search

variable {m : Lane n} {V : Finset ℕ} {marks marks' marks'' : Marks} {current visitNum depth : ℕ}
  {r r' : List (Channel n)}

def Marks.Closed (marks : Marks) (x : ℕ) : Prop := (marks x).2 = true

def Marks.unseen (V : Finset ℕ) (marks : Marks) : ℕ := (V.filter fun x => (marks x).1 = 0).card

structure Marks.Clear (marks : Marks) (m : Lane n) : Prop where
  seen : ∀ x, marks.Closed x → 0 < (marks x).1
  closed : ∀ x y, marks.Closed x → m.Edge x y → marks.Closed y
  acyclic : ∀ x, marks.Closed x → ¬TransGen m.Edge x x

/-- The marks before and after a part of the search: what is open stays as it is, and nothing else is open. -/
structure Marks.Leaves (marks marks' : Marks) : Prop where
  keep : ∀ x, marks.Closed x → marks'.Closed x
  same : ∀ x, marks.Open x → marks' x = marks x
  opened : ∀ x, marks'.Open x → marks.Open x

lemma Marks.Leaves.refl : marks.Leaves marks := ⟨fun _ h => h, fun _ _ => rfl, fun _ h => h⟩

lemma Marks.Leaves.trans (h : marks.Leaves marks') (h' : marks'.Leaves marks'') : marks.Leaves marks'' := by
  refine ⟨fun x hx => h'.keep x (h.keep x hx), fun x hx => ?_, fun x hx => h.opened x (h'.opened x hx)⟩
  have hopen : marks'.Open x := by
    rw [Marks.Open, h.same x hx]
    exact hx
  exact (h'.same x hopen).trans (h.same x hx)

lemma Marks.Clear.reach (h : marks.Clear m) {x y : ℕ} (hx : marks.Closed x) (hxy : ReflTransGen m.Edge x y) :
    marks.Closed y := by
  induction hxy with
  | refl => exact hx
  | tail _ hstep ih => exact h.closed _ _ ih hstep

lemma unseen_le (h : marks.Leaves marks') (hc : marks'.Clear m) : marks'.unseen V ≤ marks.unseen V := by
  apply Finset.card_le_card
  intro x hx
  rw [Finset.mem_filter] at hx ⊢
  refine ⟨hx.1, Nat.eq_zero_of_not_pos fun hpos => ?_⟩
  cases hflag : (marks x).2 with
  | true => exact absurd (hc.seen x (h.keep x hflag)) (by rw [hx.2]; exact lt_irrefl 0)
  | false =>
    rw [h.same x ⟨hpos, hflag⟩] at hx
    exact absurd hx.2 hpos.ne'

lemma unseen_enter (hnum : 0 < visitNum) (hmem : current ∈ V) (hnew : (marks current).1 = 0) (b : Bool) :
    Marks.unseen V (Function.update marks current (visitNum, b)) < marks.unseen V := by
  apply Finset.card_lt_card
  rw [Finset.ssubset_iff_of_subset]
  · refine ⟨current, Finset.mem_filter.mpr ⟨hmem, hnew⟩, fun h => ?_⟩
    have hzero := (Finset.mem_filter.mp h).2
    rw [Function.update_self] at hzero
    exact absurd hzero hnum.ne'
  · intro x hx
    rw [Finset.mem_filter] at hx ⊢
    by_cases hxc : x = current
    · exact ⟨hxc ▸ hmem, hxc ▸ hnew⟩
    · rw [Function.update_of_ne hxc] at hx
      exact hx

lemma enter_clear (hnum : 0 < visitNum) (hc : marks.Clear m) :
    Marks.Clear (Function.update marks current (visitNum, (marks current).2)) m ∧
      ∀ x, Marks.Closed (Function.update marks current (visitNum, (marks current).2)) x ↔ marks.Closed x := by
  have hiff : ∀ x, Marks.Closed (Function.update marks current (visitNum, (marks current).2)) x ↔
      marks.Closed x := by
    intro x
    by_cases hx : x = current
    · rw [Marks.Closed, Marks.Closed, hx, Function.update_self]
    · rw [Marks.Closed, Marks.Closed, Function.update_of_ne hx]
  refine ⟨⟨fun x hx => ?_, fun x y hx hxy => ?_, fun x hx => hc.acyclic x ((hiff x).mp hx)⟩, hiff⟩
  · by_cases hxc : x = current
    · rw [hxc, Function.update_self]
      exact hnum
    · rw [Function.update_of_ne hxc]
      exact hc.seen x ((hiff x).mp hx)
  · exact (hiff y).mpr (hc.closed x y ((hiff x).mp hx) hxy)

lemma leave_clear (hc : marks.Clear m) (hseen : 0 < (marks current).1)
    (hall : ∀ y, m.Edge current y → marks.Closed y) :
    Marks.Clear (Function.update marks current ((marks current).1, true)) m ∧
      ∀ x, Marks.Closed (Function.update marks current ((marks current).1, true)) x ↔ x = current ∨
          marks.Closed x := by
  have hiff : ∀ x, Marks.Closed (Function.update marks current ((marks current).1, true)) x ↔
      x = current ∨ marks.Closed x := by
    intro x
    by_cases hx : x = current
    · rw [Marks.Closed, hx, Function.update_self]
      exact iff_of_true rfl (.inl rfl)
    · rw [Marks.Closed, Function.update_of_ne hx, or_iff_right hx]
      rfl
  refine ⟨⟨fun x hx => ?_, fun x y hx hxy => (hiff y).mpr (.inr ?_), fun x hx => ?_⟩, hiff⟩
  · by_cases hxc : x = current
    · rw [hxc, Function.update_self]
      exact hseen
    · rw [Function.update_of_ne hxc]
      exact hc.seen x (((hiff x).mp hx).resolve_left hxc)
  · rcases (hiff x).mp hx with rfl | hx
    · exact hall y hxy
    · exact hc.closed x y hx hxy
  -- A cycle through the vertex that is left would go on through vertices left before, to that vertex.
  · rcases (hiff x).mp hx with rfl | hx
    · intro hcycle
      obtain ⟨y, hxy, hyx⟩ := TransGen.head'_iff.mp hcycle
      exact hc.acyclic _ (hc.reach (hall y hxy) hyx) hcycle
    · exact hc.acyclic x hx

lemma follow_clear (follow : Bool × Marks → ℕ → Bool × Marks) (start : Marks)
    (hstop : ∀ st w, st.1 = true → follow st w = st)
    (hone : ∀ st w, st.1 = false → m.Edge current w → st.2.Clear m → start.Leaves st.2 → (follow st w).1 = false →
      (follow st w).2.Clear m ∧ st.2.Leaves (follow st w).2 ∧ (follow st w).2.Closed w)
    (l : List ℕ) (hl : ∀ w ∈ l, m.Edge current w) (st : Bool × Marks) (hst : st.1 = false) (hc : st.2.Clear m)
    (hle : start.Leaves st.2) (h : (l.foldl follow st).1 = false) :
    (l.foldl follow st).2.Clear m ∧ st.2.Leaves (l.foldl follow st).2 ∧ ∀ w ∈ l,
        (l.foldl follow st).2.Closed w := by
  have hstay : ∀ (l : List ℕ) (st : Bool × Marks), st.1 = true → l.foldl follow st = st := by
    intro l
    induction l with
    | nil => exact fun _ _ => rfl
    | cons w l ih => exact fun st hst => by rw [List.foldl_cons, hstop st w hst, ih st hst]
  induction l generalizing st with
  | nil => exact ⟨hc, .refl, fun w hw => absurd hw List.not_mem_nil⟩
  | cons w l ih =>
    rw [List.foldl_cons] at h ⊢
    have hfalse : (follow st w).1 = false := by
      by_contra htrue
      rw [hstay l _ (Bool.eq_true_of_not_eq_false htrue)] at h
      exact htrue h
    obtain ⟨hc', hle', hw⟩ := hone st w hst (hl w List.mem_cons_self) hc hle hfalse
    obtain ⟨hc'', hle'', hall⟩ := ih (fun x hx => hl x (List.mem_cons_of_mem w hx)) _ hfalse hc' (hle.trans hle') h
    refine ⟨hc'', hle'.trans hle'', fun x hx => ?_⟩
    rcases List.mem_cons.mp hx with rfl | hx
    · exact hle''.keep _ hw
    · exact hall x hx

/-- A search that finds nothing leaves what it has entered, with all that is reached from there and no cycle. -/
lemma cycleExists_clear (hV : ∀ a w, m.Edge a w → w ∈ V) (hnum : 0 < visitNum) (hc : marks.Clear m)
    (hopen : ∀ x, marks.Open x → (marks x).1 < visitNum) (hcur : ¬marks.Open current)
    (hfuel : Marks.unseen V (Function.update marks current (visitNum, (marks current).2)) < depth)
    (h : (cycleExists m depth marks current visitNum).1 = false) :
    (cycleExists m depth marks current visitNum).2.Clear m ∧
      marks.Leaves (cycleExists m depth marks current visitNum).2 ∧
      (cycleExists m depth marks current visitNum).2.Closed current := by
  induction depth generalizing marks current visitNum with
  | zero => exact absurd hfuel (Nat.not_lt_zero _)
  | succ depth ih =>
    rw [cycleExists] at h ⊢
    dsimp only at h ⊢
    obtain ⟨hcs, hiff⟩ := @enter_clear n m marks current visitNum hnum hc
    generalize hstart : Function.update marks current (visitNum, (marks current).2) = start at h hcs hiff hfuel ⊢
    have hsame : ∀ x, x ≠ current → start x = marks x := fun x hx => hstart ▸ Function.update_of_ne hx _ _
    have hself : start current = (visitNum, (marks current).2) := hstart ▸ Function.update_self _ _ _
    have hle : ∀ x, Marks.Open start x → (start x).1 ≤ visitNum := by
      intro x hx
      by_cases hxc : x = current
      · rw [hxc, hself]
      · rw [Marks.Open, hsame x hxc] at hx
        rw [hsame x hxc]
        exact (hopen x hx).le
    obtain ⟨hc', hle', hall⟩ := @follow_clear _ m current
      (fun r w => if r.1 then r
        else if 0 < (r.2 w).1 then (decide ((r.2 w).1 < visitNum + 1) && !(r.2 w).2, r.2)
        else cycleExists m depth r.2 w (visitNum + 1)) start (fun st w hst => if_pos hst)
      (fun st w hst hw hcst hlest hfalse => by
        rw [if_neg (Bool.eq_false_iff.mp hst)] at hfalse ⊢
        have hnext : ∀ x, st.2.Open x → (st.2 x).1 < visitNum + 1 := by
          intro x hx
          have hx := hlest.opened x hx
          rw [hlest.same x hx]
          exact Nat.lt_succ_of_le (hle x hx)
        by_cases hseen : 0 < (st.2 w).1
        -- An open vertex here would have been a cycle.
        · rw [if_pos hseen] at hfalse ⊢
          refine ⟨hcst, .refl, ?_⟩
          by_contra hnot
          have hopenw : st.2.Open w := ⟨hseen, Bool.eq_false_iff.mpr hnot⟩
          rw [decide_eq_true (hnext w hopenw), hopenw.2] at hfalse
          cases hfalse
        · rw [if_neg hseen] at hfalse ⊢
          have hless := @unseen_enter V st.2 w (visitNum + 1) (Nat.succ_pos _) (hV current w hw)
            (Nat.eq_zero_of_not_pos hseen) (st.2 w).2
          have hbound := @unseen_le n m V start st.2 hlest hcst
          exact ih (Nat.succ_pos _) hcst hnext (fun hx => hseen hx.1) (by omega) hfalse)
      (m.depsOf current) (fun w hw => hw) (false, start) rfl hcs .refl h
    generalize hloop : (m.depsOf current).foldl _ (false, start) = r at hc' hle' hall ⊢
    replace hle' : Marks.Leaves start r.2 := hle'
    have hpos : 0 < (r.2 current).1 := by
      cases hb : (marks current).2 with
      | true => exact hc'.seen _ (hle'.keep _ ((hiff current).mpr hb))
      | false =>
        rw [hb] at hself
        have hopenc : Marks.Open start current := by
          rw [Marks.Open, hself]
          exact ⟨hnum, rfl⟩
        rw [hle'.same current hopenc, hself]
        exact hnum
    obtain ⟨hclear, hflag⟩ := leave_clear hc' hpos hall
    refine ⟨hclear, ⟨fun x hx => ?_, fun x hx => ?_, fun x hx => ?_⟩, (hflag current).mpr (.inl rfl)⟩
    · exact (hflag x).mpr (.inr (hle'.keep x ((hiff x).mpr hx)))
    · have hxc : x ≠ current := fun heq => hcur (heq ▸ hx)
      have hopenx : Marks.Open start x := by
        rw [Marks.Open, hsame x hxc]
        exact hx
      rw [Function.update_of_ne hxc, hle'.same x hopenx, hsame x hxc]
    · have hxc : x ≠ current := by
        rintro rfl
        rw [Marks.Open, Function.update_self] at hx
        exact Bool.noConfusion hx.2
      rw [Marks.Open, Function.update_of_ne hxc] at hx
      have hopenx : Marks.Open start x := hle'.opened x hx
      rw [Marks.Open, hsame x hxc] at hopenx
      exact hopenx

end Search

section Graph

variable {m m' : Lane n} {r r' : List (Channel n)} {rt : Fin n → Fin n → List (Channel n)}
  {P : Finset (Fin n × Fin n)} {e e' : Channel n} {v : Vertex n} {s d : Fin n} {a w : ℕ}

/-- One channel follows another on the route of some pair. -/
def Follows (rt : Fin n → Fin n → List (Channel n)) (P : Finset (Fin n × Fin n)) (e e' : Channel n) : Prop :=
  ∃ p ∈ P, after (rt p.1 p.2) e = some e'

lemma follows_union {Q : Finset (Fin n × Fin n)} : Follows rt (P ∪ Q) e e' ↔ Follows rt P e e' ∨
    Follows rt Q e e' := by
  simp only [Follows, Finset.mem_union, or_and_right, exists_or]

lemma follows_both : Follows rt (both s d) e e' ↔ after (rt s d) e = some e' ∨ after (rt d s) e = some e' := by
  simp [Follows, both]

lemma acyclic_both (hr : (rt s d ++ rt d s).Nodup) : Acyclic (Follows rt (both s d)) := by
  obtain ⟨hr₁, hr₂, hdisj⟩ := List.nodup_append'.mp hr
  apply Acyclic.of_rank fun e => (rt s d ++ rt d s).idxOf e
  intro e e' h
  rcases follows_both.mp h with h | h
  · obtain ⟨he, he'⟩ := mem_of_after h
    rw [List.idxOf_append_of_mem he, List.idxOf_append_of_mem he', idxOf_after hr₁ h]
    exact Nat.lt_succ_self _
  · obtain ⟨he, he'⟩ := mem_of_after h
    rw [List.idxOf_append_of_notMem fun hx => hdisj hx he, List.idxOf_append_of_notMem fun hx => hdisj hx he',
      idxOf_after hr₂ h]
    exact Nat.lt_succ_self _

lemma reach_of_mem (hr : r.Nodup) (he : e ∈ r) :
    ∃ x, r.head? = some x ∧ ReflTransGen (fun x y => after r x = some y) x e := by
  induction r with
  | nil => exact absurd he List.not_mem_nil
  | cons x rest ih =>
    refine ⟨x, rfl, ?_⟩
    rcases List.mem_cons.mp he with rfl | he
    · exact .refl
    · obtain ⟨hx, hrest⟩ := List.nodup_cons.mp hr
      obtain ⟨y, hy, hreach⟩ := ih hrest he
      have hfirst : ReflTransGen (fun a b => after (x :: rest) a = some b) x y :=
        .single (by rw [after, if_pos rfl, hy])
      have hlater : ∀ a b, after rest a = some b → after (x :: rest) a = some b := by
        intro a b hab
        have hne : a ≠ x := fun heq => hx (heq ▸ (mem_of_after hab).1)
        rw [after, if_neg hne, hab]
      exact hfirst.trans (ReflTransGen.mono hlater _ _ hreach)

@[simp] lemma addr_setPermanent (v : Vertex n) : v.setPermanent.addr = v.addr := by
  rw [Vertex.setPermanent]
  split <;> rfl

@[simp] lemma deps_setPermanent (v : Vertex n) : v.setPermanent.deps = v.deps := by
  rw [Vertex.setPermanent]
  split <;> rfl

@[simp] lemma numDeps_setPermanent (v : Vertex n) : v.setPermanent.numDeps = v.numDeps := by
  rw [Vertex.setPermanent]
  split <;> rfl

def Alike (m m' : Lane n) : Prop :=
  ∀ e, (m' e).map (fun v => (v.addr, v.deps, v.numDeps)) = (m e).map fun v => (v.addr, v.deps, v.numDeps)

lemma alike_setPermanent (hr : (r ++ r').Nodup) :
    Alike m (setTempDependToPermanentForSp r' (setTempDependToPermanentForSp r m)) := by
  intro e
  rw [setPermanent_both hr]
  split_ifs
  · rw [Option.map_map]
    refine congrArg (fun f => (m e).map f) (funext fun v => ?_)
    simp
  · rfl

lemma Alike.some (h : Alike m m') (hv : m' e = some v) :
    ∃ v', m e = some v' ∧ v'.addr = v.addr ∧ v'.deps = v.deps ∧ v'.numDeps = v.numDeps := by
  have he := h e
  rw [hv] at he
  obtain ⟨v', hv', heq⟩ := Option.map_eq_some_iff.mp he.symm
  exact ⟨v', hv', congrArg Prod.fst heq, congrArg (fun x => x.2.1) heq, congrArg (fun x => x.2.2) heq⟩

lemma Alike.symm (h : Alike m m') : Alike m' m := fun e => (h e).symm

lemma Alike.addr_eq (h : Alike m m') (he : (m' e).isSome) : m.addr e = m'.addr e := by
  obtain ⟨v, hv⟩ := Option.isSome_iff_exists.mp he
  obtain ⟨v', hv', haddr, -⟩ := h.some hv
  rw [addr_of_some hv, addr_of_some hv', haddr]

lemma find_of_some (hinj : ∀ e v e' v', m e = some v → m e' = some v' → v.addr = v'.addr → e = e')
    (hv : m e = some v) : m.find v.addr = some v := by
  have hmem : v ∈ (List.finRange n).flatMap fun x => (List.finRange n).filterMap fun y => m (x, y) :=
    List.mem_flatMap.mpr ⟨e.1, List.mem_finRange _, List.mem_filterMap.mpr ⟨e.2, List.mem_finRange _, hv⟩⟩
  cases hfind : m.find v.addr with
  | none => exact absurd (decide_eq_true rfl) (List.find?_eq_none.mp hfind v hmem)
  | some w =>
    obtain ⟨haddr, e', he'⟩ := find_spec hfind
    obtain rfl := hinj e v e' w hv he' haddr.symm
    rw [Option.some.inj (he'.symm.trans hv)]

lemma edge_of_some (hinj : ∀ e v e' v', m e = some v → m e' = some v' → v.addr = v'.addr → e = e')
    (hv : m e = some v) {i : ℕ} (hi : i < v.numDeps) : m.Edge v.addr (v.deps i).v := by
  rw [Lane.Edge, Lane.depsOf, find_of_some hinj hv, Option.elim_some, List.mem_map]
  exact ⟨i, List.mem_range.mpr hi, rfl⟩

lemma Exact.edge (h : Exact rt P m') (hm : Alike m m') (hf : Follows rt P e e') : m.Edge (m.addr e)
    (m.addr e') := by
  obtain ⟨p, hp, ha⟩ := hf
  obtain ⟨he, he'⟩ := mem_of_after ha
  obtain ⟨v, hv⟩ := Option.isSome_iff_exists.mp ((h.vertex e).mpr ⟨p, hp, he⟩)
  obtain ⟨i, hi, haddr⟩ := h.all e v hv p hp e' ha
  obtain ⟨w, hw, haddrw, hdeps, hnum⟩ := hm.some hv
  have hinj : ∀ e v e' v', m e = some v → m e' = some v' → v.addr = v'.addr → e = e' := by
    intro e v e' v' hv hv' heq
    obtain ⟨w, hw, hw', -⟩ := hm.symm.some hv
    obtain ⟨u, hu, hu', -⟩ := hm.symm.some hv'
    exact h.addr e w e' u hw hu (by rw [hw', hu', heq])
  have hedge := edge_of_some hinj hw (hnum ▸ hi)
  rw [addr_of_some hw, hm.addr_eq ((h.vertex e').mpr ⟨p, hp, he'⟩), ← haddr, ← hdeps]
  exact hedge

lemma Exact.target (h : Exact rt P m') (hm : Alike m m') (hedge : m.Edge a w) :
    w ∈ Finset.univ.image fun e => m.addr e := by
  obtain ⟨e, v, hv, -, i, hi, rfl⟩ := edge_spec hedge
  obtain ⟨u, hu, -, hdeps, hnum⟩ := hm.symm.some hv
  obtain ⟨e', v', hv', heq, -⟩ := h.deps e u hu i (hnum ▸ hi)
  refine Finset.mem_image.mpr ⟨e', Finset.mem_univ _, ?_⟩
  rw [hm.addr_eq (Option.isSome_iff_exists.mpr ⟨v', hv'⟩), addr_of_some hv', ← heq, hdeps]

lemma cycleTest_clear {V : Finset ℕ} (hV : ∀ a w, m.Edge a w → w ∈ V) (hcard : V.card ≤ n * n)
    (h : cycleTest m r r' = false) :
    ∃ marks : Marks, marks.Clear m ∧ marks.Closed (r.head?.elim 0 m.addr) ∧
        marks.Closed (r'.head?.elim 0 m.addr) := by
  rw [cycleTest, Bool.or_eq_false_iff] at h
  have hfuel : ∀ marks : Marks, marks.unseen V < n * n + 1 := fun marks =>
    Nat.lt_succ_of_le ((Finset.card_filter_le _ _).trans hcard)
  have hblank : Marks.Clear (fun _ => (0, false)) m :=
    ⟨fun _ hx => Bool.noConfusion hx, fun _ _ hx => Bool.noConfusion hx, fun _ hx => Bool.noConfusion hx⟩
  have hnone : ∀ x, ¬Marks.Open (fun _ => (0, false)) x := fun x hx => lt_irrefl 0 hx.1
  obtain ⟨hc, hle, hfirst⟩ := cycleExists_clear hV one_pos hblank (fun x hx => absurd hx (hnone x))
      (hnone _) (hfuel _) h.1
  have hnone' : ∀ x, ¬Marks.Open _ x := fun x hx => hnone x (hle.opened x hx)
  obtain ⟨hc', hle', hsecond⟩ := cycleExists_clear hV one_pos hc (fun x hx => absurd hx (hnone' x))
      (hnone' _) (hfuel _) h.2
  exact ⟨_, hc', hle'.keep _ hfirst, hsecond⟩

lemma Exact.acyclic (h : Exact rt (P ∪ both s d) m') (hm : Alike m m') (hr : (rt s d ++ rt d s).Nodup)
    (htest : cycleTest m (rt s d) (rt d s) = false) (hac : Acyclic (Follows rt P)) :
    Acyclic (Follows rt (P ∪ both s d)) := by
  have hcard : (Finset.univ.image fun e : Channel n => m.addr e).card ≤ n * n := by
    refine Finset.card_image_le.trans ?_
    rw [Finset.card_univ, Fintype.card_prod, Fintype.card_fin]
  obtain ⟨marks, hc, hfirst, hsecond⟩ := cycleTest_clear (fun a w => h.target hm) hcard htest
  obtain ⟨hr₁, hr₂, -⟩ := List.nodup_append'.mp hr
  have hclosed : ∀ x y, Follows rt (both s d) x y → marks.Closed (m.addr x) := by
    have hroute : ∀ s' d', (∀ x y, after (rt s' d') x = some y → Follows rt (P ∪ both s d) x y) →
        (rt s' d').Nodup →
        marks.Closed ((rt s' d').head?.elim 0 m.addr) → ∀ x y, after (rt s' d') x = some y →
            marks.Closed (m.addr x) := by
      intro s' d' hfollows hnodup hstart x y hxy
      obtain ⟨z, hz, hreach⟩ := reach_of_mem hnodup (mem_of_after hxy).1
      rw [hz, Option.elim_some] at hstart
      exact hc.reach hstart (hreach.lift m.addr fun a b hab => h.edge hm (hfollows a b hab))
    intro x y hxy
    rcases follows_both.mp hxy with hxy | hxy
    · exact hroute s d (fun x y h => follows_union.mpr (.inr (follows_both.mpr (.inl h)))) hr₁ hfirst x y hxy
    · exact hroute d s (fun x y h => follows_union.mpr (.inr (follows_both.mpr (.inr h)))) hr₂ hsecond x y hxy
  refine (hac.union fun x y hxy hcycle => ?_).mono fun x y => follows_union.mp
  exact hc.acyclic _ (hclosed x y hxy) (hcycle.lift m.addr fun a b hab => h.edge hm (follows_union.mpr hab))

end Graph

section Lanes

variable {rt : Fin n → Fin n → List (Channel n)} {A : ℕ → Finset (Fin n × Fin n)} {s d : Fin n} {l : ℕ}
    {st : Lanes n}

lemma tryLane_acyclic (h : CountedAll rt A st) (hr : (rt s d ++ rt d s).Nodup) (hne : s ≠ d)
    (hdisj : Disjoint (A l) (both s d)) (hblank : BlankSlots rt (A l) (st.cdg l) s d)
    (hrej : (st.tryLane rt cycleTest s d l).1 = false) (hac : Acyclic (Follows rt (A l))) :
    Acyclic (Follows rt (A l ∪ both s d)) := by
  have hcount := (tryLane_accept h hr hne hdisj hblank hrej l).exact
  rw [Function.update_self] at hcount
  rw [Lanes.tryLane] at hcount hrej
  dsimp only at hcount hrej
  split_ifs at hcount hrej with htest
  have hlane : ((st.generate rt s d l).setPermanent rt s d l).cdg l = setTempDependToPermanentForSp (rt d s)
      (setTempDependToPermanentForSp (rt s d) ((st.generate rt s d l).cdg l)) := Function.update_self _ _ _
  rw [hlane] at hcount
  exact hcount.acyclic (alike_setPermanent hr) hr (Bool.eq_false_iff.mpr htest) hac

lemma findLane_acyclic (ls : List ℕ) (h : CountedAll rt st.assigned st)
    (hr : (rt s d ++ rt d s).Nodup) (hne : s ≠ d)
    (hdisj : ∀ l, Disjoint (st.assigned l) (both s d)) (hok : Lanes.FindOk rt cycleTest s d ls st)
    (hac : ∀ l, Acyclic (Follows rt (st.assigned l))) (hl : (st.findLane rt cycleTest s d ls).1 = some l) :
    Acyclic (Follows rt (st.assigned l ∪ both s d)) := by
  induction ls generalizing st with
  | nil => cases hl
  | cons k ls ih =>
    obtain ⟨hattempt, hrest⟩ := hok
    rw [Lanes.AttemptOk] at hattempt
    rw [Lanes.findLane] at hl
    cases hrej : (st.tryLane rt cycleTest s d k).1 with
    | true =>
      rw [if_pos hrej] at hattempt hl
      have hrec := @ih (st.tryLane rt cycleTest s d k).2
      rw [assigned_tryLane] at hrec
      exact hrec (tryLane_reject h hr hattempt hrej) hdisj (hrest hrej) hac hl
    | false =>
      rw [if_neg (Bool.eq_false_iff.mp hrej)] at hattempt hl
      obtain rfl := Option.some.inj hl
      exact tryLane_acyclic h hr hne (hdisj k) hattempt hrej (hac k)

@[simp] lemma tryLane_lane {test : Lane n → List (Channel n) → List (Channel n) → Bool} :
    (st.tryLane rt test s d l).2.lane = st.lane := by
  rw [Lanes.tryLane]
  split_ifs <;> rfl

lemma findLane_lane {test : Lane n → List (Channel n) → List (Channel n) → Bool} (ls : List ℕ) :
    (st.findLane rt test s d ls).2.lane = st.lane := by
  induction ls generalizing st with
  | nil => rfl
  | cons k ls ih =>
    rw [Lanes.findLane]
    split_ifs
    · rw [ih, tryLane_lane]
    · exact tryLane_lane

end Lanes

section Run

variable {m : ℕ} {f : Fabric n m} {sws : Switches n} {rt : Fin n → Fin n → List (Channel n)} {s d : Fin n}
  {l vlMin startVl lanesNeeded sl : ℕ} {st st' : Lanes n} {b : Balance n} {c c' : Core n} {start : Fin n × Fin n}

/-- On one SL, a packet of some pair holds the first channel and waits for the second. -/
def Lanes.Waits (rt : Fin n → Fin n → List (Channel n)) (st : Lanes n) (sl : ℕ) (e e' : Channel n) : Prop :=
  ∃ s d l, st.virtualLocation s d l ≠ 0 ∧ st.lane s d = sl ∧ after (rt s d) e = some e'

def Lanes.Entered (startVl : ℕ) (st : Lanes n) : Prop := ∀ l, ∀ p ∈ st.assigned l, st.lane p.1 p.2 = l + startVl

lemma Lanes.Entered.put (h : st.Entered startVl)
    (hlane : st'.lane = fun i j => if i = s ∧ j = d ∨ i = d ∧ j = s then l + startVl else st.lane i j)
    (hin : st'.assigned l = st.assigned l ∪ both s d)
    (hout : ∀ k, k ≠ l → ∀ p ∈ st'.assigned k, p ∈ st.assigned k ∧ p ∉ both s d) : st'.Entered startVl := by
  intro k p hp
  rw [hlane]
  dsimp only
  split_ifs with hmem
  · by_cases hk : k = l
    · rw [hk]
    · exact absurd (mem_both.mpr hmem) (hout k hk p hp).2
  · by_cases hk : k = l
    · rw [hk, hin, Finset.mem_union] at hp
      rw [hk]
      exact h l p (hp.resolve_right fun hb => hmem (mem_both.mp hb))
    · exact h k p (hout k hk p hp).1

lemma pick_lane : (b.pick lanesNeeded).lane = b.lane := by
  rw [Balance.pick]
  dsimp only
  split_ifs <;> rfl

structure Core.Safe (rt : Fin n → Fin n → List (Channel n)) (startVl : ℕ) (c : Core n) : Prop where
  acyclic : ∀ l, Acyclic (Follows rt (c.lanes.assigned l))
  entered : c.lanes.Entered startVl

lemma assignPair_safe {st st' : Assign n} {p : Fin n × Fin n} (hrt : ∀ s d, s ≠ d → (rt s d ++ rt d s).Nodup)
    (h : Assigning st) (hcount : CountedAll rt st.assigned st.toLanes) (hok : st.PairOk rt cycleTest p)
    (hac : ∀ l, Acyclic (Follows rt (st.assigned l))) (hent : st.toLanes.Entered startVl)
    (hstep : st.assignPair rt cycleTest vlMin startVl p = some st') :
    (∀ l, Acyclic (Follows rt (st'.assigned l))) ∧ st'.toLanes.Entered startVl := by
  rcases assignPair_cases hstep with rfl | ⟨hne, hbit, lanes, l, hfound, hlanes, -⟩
  · exact ⟨hac, hent⟩
  obtain ⟨-, -, hloc, hnum⟩ := hfound.spec
  have hnone : ∀ k, st.virtualLocation p.1 p.2 k = 0 := fun k => not_not.mp fun hk => by
    rw [h.done p.1 p.2 k hk] at hbit
    cases hbit
  have hplace : st'.virtualLocation = (st.toLanes.setLocation p.1 p.2 l 1).virtualLocation := by
    rw [hlanes, Lanes.setLocation, Lanes.setLocation, ← hloc]
    rfl
  obtain ⟨-, hin, hother⟩ := (h.located.mono hfound.spec.2.1).enter hne hnone hfound.spec.1 hplace
    (by rw [hlanes, ← hnum]; rfl)
  have hdisj : ∀ k, Disjoint (st.assigned k) (both p.1 p.2) := fun k => h.located.both_disjoint (hnone k)
  constructor
  · intro k
    by_cases hk : k = l
    · rw [hk, hin]
      generalize st'.lanesNeeded = needed at hfound
      cases hfound with
      | lane hlane =>
        exact findLane_acyclic (List.range st.lanesNeeded) hcount (hrt _ _ hne) hne hdisj (hok hne hbit) hac
          (congrArg Prod.fst hlane)
      | another hlane =>
        rw [assigned_eq_empty h.located, Finset.empty_union]
        exact acyclic_both (hrt _ _ hne)
    · rw [hother k hk]
      exact hac k
  · refine hent.put ?_ hin fun k hk q hq => ?_
    · have hlane : lanes.lane = st.lane := by
        generalize st'.lanesNeeded = needed at hfound
        cases hfound with
        | lane hlane => exact (congrArg (fun r => r.2.lane) hlane).symm.trans (findLane_lane _)
        | another hlane => exact (congrArg (fun r => r.2.lane) hlane).symm.trans (findLane_lane _)
      rw [hlanes]
      dsimp only [Lanes.setLocation, Lanes.setSl]
      rw [hlane]
    · rw [hother k hk] at hq
      exact ⟨hq, Finset.disjoint_left.mp (hdisj k) hq⟩

lemma move_safe (hrt : ∀ s d, s ≠ d → (rt s d ++ rt d s).Nodup) (h : Balancing lanesNeeded b)
    (hne : b.minFilledLane ≠ b.maxFilledLane) (hcount : CountedAll rt b.assigned b.toLanes)
    (hs : b.virtualLocation s d b.maxFilledLane = 1)
    (hattempt : b.toLanes.AttemptOk rt cycleTest s d b.minFilledLane)
    (hac : ∀ l, Acyclic (Follows rt (b.assigned l))) (hent : b.toLanes.Entered startVl) :
    (∀ l, Acyclic (Follows rt ((b.move rt startVl cycleTest s d).assigned l))) ∧
      (b.move rt startVl cycleTest s d).toLanes.Entered startVl := by
  have hpos : b.virtualLocation s d b.maxFilledLane ≠ 0 := hs ▸ one_ne_zero
  have hsd := h.located.ne hpos
  rw [Lanes.AttemptOk] at hattempt
  cases hrej : b.rejects rt cycleTest s d with
  | true =>
    obtain ⟨-, hassigned, -⟩ := @h.reject n rt cycleTest lanesNeeded startVl b s d hs hrej
    rw [hassigned]
    refine ⟨hac, fun k p hp => ?_⟩
    rw [hassigned] at hp
    rw [Balance.rejects] at hrej
    rw [Balance.move, if_pos hrej]
    exact (congrFun (congrFun tryLane_lane p.1) p.2).trans (hent k p hp)
  | false =>
    obtain ⟨-, hout, hin, hother, -⟩ := @h.accept n rt cycleTest lanesNeeded startVl b s d hne hs hrej
    rw [Balance.rejects] at hrej
    have hfree : ∀ k, k ≠ b.maxFilledLane → b.virtualLocation s d k = 0 := fun k hk => by
      by_contra hmin
      exact hk (h.located.unique s d _ _ hmin hpos)
    have hmin := h.located.both_disjoint (hfree _ hne)
    rw [if_neg (Bool.eq_false_iff.mp hrej)] at hattempt
    constructor
    · intro k
      by_cases hk : k = b.minFilledLane
      · rw [hk, hin]
        exact tryLane_acyclic hcount (hrt s d hsd) hsd hmin hattempt hrej (hac _)
      · by_cases hmax : k = b.maxFilledLane
        · rw [hmax, hout]
          refine (hac b.maxFilledLane).mono fun x y => ?_
          rintro ⟨p, hp, hxy⟩
          exact ⟨p, (Finset.mem_sdiff.mp hp).1, hxy⟩
        · rw [hother k hmax hk]
          exact hac k
    · refine hent.put ?_ hin fun k hk p hp => ?_
      · rw [Balance.move, if_neg (Bool.eq_false_iff.mp hrej)]
        dsimp only [Lanes.setSl, Lanes.setLocation, Lanes.removeSemipermanent, Lanes.setLane, Lanes.addMst]
        rw [tryLane_lane]
      · by_cases hmax : k = b.maxFilledLane
        · rw [hmax, hout, Finset.mem_sdiff] at hp
          exact hmax ▸ hp
        · rw [hother k hmax hk] at hp
          exact ⟨hp, Finset.disjoint_left.mp (h.located.both_disjoint (hfree k hmax)) hp⟩

lemma Core.Safe.step (hrt : ∀ s d, s ≠ d → (rt s d ++ rt d s).Nodup) (h : c.Safe rt startVl) (hsound : c.Sound rt)
    (hok : c.StepOk rt cycleTest start) (hstep : coreStep rt cycleTest vlMin startVl c start = some c') :
    c'.Safe rt startVl := by
  obtain ⟨hac, hent⟩ := h
  cases c with
  | assigning left st =>
    obtain ⟨hassigning, -, hcount⟩ := hsound
    cases left with
    | nil =>
      obtain rfl := Option.some.inj hstep
      exact ⟨hac, hent⟩
    | cons p left =>
      obtain ⟨st', hst', rfl⟩ := Option.map_eq_some_iff.mp hstep
      obtain ⟨hac', hent'⟩ := assignPair_safe hrt hassigning hcount hok hac hent hst'
      exact ⟨hac', hent'⟩
  | balancing lanesNeeded b =>
    obtain ⟨hgo, hcount⟩ := hsound
    rw [coreStep] at hstep
    split_ifs at hstep with hstop
    obtain ⟨b', hround, rfl⟩ := Option.map_eq_some_iff.mp hstep
    obtain ⟨hbal, hne⟩ := hgo (Bool.eq_false_iff.mpr hstop)
    obtain ⟨⟨s, d⟩, hp, rfl⟩ := Option.map_eq_some_iff.mp hround
    have hs : b.virtualLocation s d b.maxFilledLane = 1 := of_decide_eq_true (searchPair_some hp)
    have hround : b.RoundOk rt cycleTest start := hok
    have hattempt := hround (s, d) hp
    obtain ⟨hac', hent'⟩ := @move_safe n rt s d startVl lanesNeeded b hrt hbal hne hcount hs hattempt hac hent
    have hpick := (@hbal.move n rt cycleTest lanesNeeded startVl b s d hne hs).pick.2
    refine ⟨fun l => ?_, fun l p hp => ?_⟩
    · change Acyclic (Follows rt (((b.move rt startVl cycleTest s d).pick lanesNeeded).assigned l))
      rw [hpick]
      exact hac' l
    · change p ∈ ((b.move rt startVl cycleTest s d).pick lanesNeeded).assigned l at hp
      rw [hpick] at hp
      exact (congrFun (congrFun pick_lane p.1) p.2).trans (hent' l p hp)

lemma safe_init (left : List (Fin n × Fin n)) : (Core.assigning left initAssign).Safe rt startVl := by
  have hempty : ∀ l p, p ∉ (initAssign : Assign n).assigned l := fun l p hp => mem_assigned.mp hp rfl
  refine ⟨fun l => Acyclic.of_rank (fun _ => 0) fun x y => ?_, fun l p hp => absurd hp (hempty l p)⟩
  rintro ⟨p, hp, -⟩
  exact absurd hp (hempty l p)

/-- In every state of a run whose rounds all meet their conditions no packets of one SL wait for one another in a
cycle. -/
theorem deadlock_free (hG : (switchGraph f).Connected)
    (hsws : routingTables (processSwitches f false) = some sws) {run : List (Core n × (Fin n × Fin n))}
    (hrun : Runs.Run (coreStep (route sws) cycleTest vlMin startVl) (.assigning (pairs n) initAssign) run c)
    (hok : ∀ x ∈ run, x.1.StepOk (route sws) cycleTest x.2) (sl : ℕ) :
    Acyclic (c.lanes.Waits (route sws) sl) := by
  have hlead := leads_routingTables hG hsws
  have hrt : ∀ s d, s ≠ d → (route sws s d ++ route sws d s).Nodup := fun s d _ => nodup_routes hG hlead s d
  obtain ⟨-, hac, hent⟩ := hrun.invariant (P := fun c => c.Sound (route sws) ∧ c.Safe (route sws) startVl)
    ⟨sound_init _, safe_init _⟩
    (fun _ _ _ hs hq ha => ⟨hs.1.step hrt hq ha, hs.2.step hrt hs.1 hq ha⟩) hok
  refine (hac (sl - startVl)).mono fun e e' => ?_
  rintro ⟨s, d, l, hl, hlane, hafter⟩
  have hmem : (s, d) ∈ c.lanes.assigned l := mem_assigned.mpr hl
  have hsl : l = sl - startVl := by rw [← hlane, hent l _ hmem, Nat.add_sub_cancel]
  exact ⟨(s, d), hsl ▸ hmem, hafter⟩

/-- Four switches, until `lash_core` returns. -/
theorem deadlock_free_ring : ∃ sws run c, routingTables (processSwitches (ring 1) false) = some sws ∧
    Runs.Run (coreStep (route sws) cycleTest 8 0) (.assigning (pairs 4) initAssign) run c ∧ c.returned = true ∧
    (∃ sl e e', c.lanes.Waits (route sws) sl e e') ∧ ∀ sl, Acyclic (c.lanes.Waits (route sws) sl) := by
  have hcheck : (routingTables (processSwitches (ring 1) false)).elim false (fun sws =>
      (Runs.exec (coreStep (route sws) cycleTest 8 0) (.assigning (pairs 4) initAssign)
        (List.replicate 18 (0, 0))).elim false (fun c => c.returned &&
          (decide (after (route sws 0 2) (0, 1) = some (1, 2)) &&
            (List.range 8).any fun l => decide (c.lanes.virtualLocation 0 2 l ≠ 0))) &&
      (Runs.trace (coreStep (route sws) cycleTest 8 0) (.assigning (pairs 4) initAssign)
        (List.replicate 18 (0, 0))).all fun x => decide (x.1.StepOk (route sws) cycleTest x.2)) = true := by
    decide +kernel
  cases hsws : routingTables (processSwitches (ring 1) false) with
  | none =>
    rw [hsws] at hcheck
    cases hcheck
  | some sws =>
    rw [hsws, Option.elim_some, Bool.and_eq_true] at hcheck
    obtain ⟨run, c, hrun, hc, hok⟩ := Runs.Run.of_exec _ _ _ _ _ hcheck.1 hcheck.2
    rw [Bool.and_eq_true, Bool.and_eq_true] at hc
    obtain ⟨l, -, hl⟩ := List.any_eq_true.mp hc.2.2
    exact ⟨sws, run, c, rfl, hrun, hc.1, ⟨_, _, _, 0, 2, l, of_decide_eq_true hl, rfl, of_decide_eq_true hc.2.1⟩,
      deadlock_free (connected_ring 1) hsws hrun fun x hx => of_decide_eq_true (hok x hx)⟩

end Run

end OpenSM.Lash
