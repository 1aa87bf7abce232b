import OpenSM.LashCdg
import OpenSM.LashPairs
import OpenSM.Lib.Runs

/-! The cycle test finds nothing in a graph without cycles, so that the first pair gets the first lane. -/

namespace OpenSM.Lash

open Lib

variable {n : ℕ}

section Test

variable {m : Lane n} {marks : Marks} {a b x current visitNum depth : ℕ} {r r' : List (Channel n)}

def Lane.Edge (m : Lane n) (a b : ℕ) : Prop := b ∈ m.depsOf a

def Lane.Acyclic (m : Lane n) : Prop := ∀ x, ¬Relation.TransGen m.Edge x x

def Marks.Open (marks : Marks) (x : ℕ) : Prop := 0 < (marks x).1 ∧ (marks x).2 = false

/-- All open vertices lead to the vertex that is entered, and when it is left no other ones are open. -/
lemma cycleExists_false (hm : m.Acyclic) (hopen : ∀ x, marks.Open x → Relation.TransGen m.Edge x current) :
    (cycleExists m depth marks current visitNum).1 = false ∧
      ∀ x, Marks.Open (cycleExists m depth marks current visitNum).2 x → marks.Open x := by
  induction depth generalizing marks current visitNum with
  | zero => exact ⟨rfl, fun _ hx => hx⟩
  | succ depth ih =>
    rw [cycleExists]
    dsimp only
    have hstart : ∀ x, Marks.Open (Function.update marks current (visitNum, (marks current).2)) x →
        x = current ∨ marks.Open x := by
      intro x hx
      by_cases heq : x = current
      · exact .inl heq
      · rw [Marks.Open, Function.update_of_ne heq] at hx
        exact .inr hx
    -- The invariant of the loop over the dependencies: no cycle so far, and nothing new is open but this vertex.
    have hloop := List.foldlRecOn
      (motive := fun st : Bool × Marks => st.1 = false ∧ ∀ x, Marks.Open st.2 x → x = current ∨ marks.Open x)
      (m.depsOf current) (fun r w => if r.1 then r
        else if 0 < (r.2 w).1 then (decide ((r.2 w).1 < visitNum + 1) && !(r.2 w).2, r.2)
        else cycleExists m depth r.2 w (visitNum + 1))
      (b := (false, Function.update marks current (visitNum, (marks current).2))) ⟨rfl,
          hstart⟩ fun st hst w hw => by
        obtain ⟨hst, hx⟩ := hst
        have hreach : ∀ x, Marks.Open st.2 x → Relation.TransGen m.Edge x w := by
          intro x hxo
          rcases hx x hxo with rfl | hold
          · exact .single hw
          · exact (hopen x hold).tail hw
        rw [if_neg (Bool.eq_false_iff.mp hst)]
        by_cases hseen : 0 < (st.2 w).1
        · have hclosed : (st.2 w).2 = true := by
            rw [← Bool.not_eq_false]
            exact fun hfalse => hm w (hreach w ⟨hseen, hfalse⟩)
          rw [if_pos hseen, hclosed, Bool.not_true, Bool.and_false]
          exact ⟨rfl, hx⟩
        · obtain ⟨hfalse, hkeep⟩ := @ih st.2 w (visitNum + 1) hreach
          rw [if_neg hseen]
          exact ⟨hfalse, fun x hxo => hx x (hkeep x hxo)⟩
    refine ⟨hloop.1, fun x hx => ?_⟩
    by_cases heq : x = current
    · rw [Marks.Open, heq, Function.update_self] at hx
      cases hx.2
    · rw [Marks.Open, Function.update_of_ne heq] at hx
      exact (hloop.2 x hx).resolve_left heq

lemma cycleTest_false (hm : m.Acyclic) : cycleTest m r r' = false := by
  have hblank : ∀ x, ¬Marks.Open (fun _ => (0, false)) x := fun x hx => absurd hx.1 (lt_irrefl 0)
  obtain ⟨hfirst, hopen⟩ := @cycleExists_false n m (fun _ => (0, false)) (r.head?.elim 0 m.addr) 1 (n * n + 1) hm
    fun x hx => absurd hx (hblank x)
  obtain ⟨hsecond, -⟩ := @cycleExists_false n m _ (r'.head?.elim 0 m.addr) 1 (n * n + 1) hm
    fun x hx => absurd (hopen x hx) (hblank x)
  rw [cycleTest, hfirst, hsecond]
  rfl

end Test

section First

variable {m : Lane n} {mem mem' : Memory n} {a b : ℕ} {r r' : List (Channel n)} {e e' : Channel n} {v : Vertex n}

lemma find_spec (h : m.find a = some v) : v.addr = a ∧ ∃ e, m e = some v := by
  rw [Lane.find] at h
  obtain ⟨e, -, he⟩ := List.mem_flatMap.mp (List.mem_of_find?_eq_some h)
  obtain ⟨y, -, hy⟩ := List.mem_filterMap.mp he
  have haddr := List.find?_some h
  exact ⟨of_decide_eq_true haddr, (e, y), hy⟩

lemma edge_spec (h : m.Edge a b) : ∃ e v, m e = some v ∧ v.addr = a ∧ ∃ i < v.numDeps, (v.deps i).v = b := by
  rw [Lane.Edge, Lane.depsOf] at h
  cases hfind : m.find a with
  | none =>
    rw [hfind] at h
    cases h
  | some v =>
    obtain ⟨haddr, e, he⟩ := find_spec hfind
    rw [hfind, Option.elim_some, List.mem_map] at h
    obtain ⟨i, hi, hv⟩ := h
    exact ⟨e, v, he, haddr, i, List.mem_range.mp hi, hv⟩

lemma acyclic_of_rank (rank : Channel n → ℕ)
    (hinj : ∀ e v e' v', m e = some v → m e' = some v' → v.addr = v'.addr → e = e')
    (hdeps : ∀ e v, m e = some v → ∀ i < v.numDeps, ∃ e' v', m e' = some v' ∧ v'.addr = (v.deps i).v ∧
    rank e < rank e') :
    m.Acyclic := by
  have hrun : ∀ a b, Relation.TransGen m.Edge a b → ∃ e v e' v', m e = some v ∧ v.addr = a ∧ m e' = some v' ∧
      v'.addr = b ∧ rank e < rank e' := by
    intro a b h
    induction h with
    | single h =>
      obtain ⟨e, v, he, haddr, i, hi, rfl⟩ := edge_spec h
      obtain ⟨e', v', he', haddr', hlt⟩ := hdeps e v he i hi
      exact ⟨e, v, e', v', he, haddr, he', haddr', hlt⟩
    | tail _ h ih =>
      obtain ⟨e, v, x, w, he, haddr, hx, hxa, hlt⟩ := ih
      obtain ⟨y, u, hy, hya, i, hi, rfl⟩ := edge_spec h
      obtain rfl := hinj x w y u hx hy (hxa.trans hya.symm)
      obtain ⟨e', v', he', haddr', hlt'⟩ := hdeps x u hy i hi
      exact ⟨e, v, e', v', he, haddr, he', haddr', hlt.trans hlt'⟩
  intro x hx
  obtain ⟨e, v, e', v', he, haddr, he', haddr', hlt⟩ := hrun x x hx
  obtain rfl := hinj e v e' v' he he' (haddr.trans haddr'.symm)
  exact lt_irrefl _ hlt

lemma idxOf_after (hr : r.Nodup) (h : after r e = some e') : r.idxOf e' = r.idxOf e + 1 := by
  induction r with
  | nil => cases h
  | cons x rest ih =>
    rw [List.nodup_cons] at hr
    rw [after] at h
    split_ifs at h with hx
    · subst hx
      cases rest with
      | nil => cases h
      | cons y rest =>
        obtain rfl := Option.some.inj h
        have hne : e ≠ y := fun heq => hr.1 (heq ▸ List.mem_cons_self)
        rw [List.idxOf_cons_ne _ hne, List.idxOf_cons_self, List.idxOf_cons_self]
    · have hmem := (mem_of_after h).2
      have hne : x ≠ e' := fun heq => hr.1 (heq ▸ hmem)
      rw [List.idxOf_cons_ne _ hne, List.idxOf_cons_ne _ (Ne.symm hx), ih hr.2 h]

/-- The graph of a pair that has a lane for itself. -/
lemma acyclic_of_added (hr : (r ++ r').Nodup) (hempty : ∀ e, mem.lane e = none)
    (hadd : Added (r ++ r') (fun e => (after r e).or (after r' e)) mem mem') : mem'.lane.Acyclic := by
  obtain ⟨hr₁, hr₂, hdisj⟩ := List.nodup_append'.mp hr
  apply acyclic_of_rank (fun e => (r ++ r').idxOf e) hadd.valid.inj
  intro e v he i hi
  by_cases hmem : e ∈ r ++ r'
  · obtain ⟨w, hw, heq⟩ := hadd.on e hmem
    obtain ⟨addr, rfl⟩ : ∃ addr, w = .calloc addr e := hw.elim (fun h => by rw [hempty] at h; cases h) And.right
    obtain rfl := Option.some.inj (he.symm.trans heq)
    cases hnext : (after r e).or (after r' e) with
    | none =>
      rw [hnext] at hi
      exact absurd hi (Nat.not_lt_zero i)
    | some e' =>
      have hsmall : (r ++ r').idxOf e < (r ++ r').idxOf e' ∧ e' ∈ r ++ r' := by
        rcases Option.or_eq_some_iff.mp hnext with h | ⟨-, h⟩
        · obtain ⟨hin, hin'⟩ := mem_of_after h
          refine ⟨?_, List.mem_append_left _ hin'⟩
          rw [List.idxOf_append_of_mem hin, List.idxOf_append_of_mem hin', idxOf_after hr₁ h]
          exact Nat.lt_succ_self _
        · obtain ⟨hin, hin'⟩ := mem_of_after h
          refine ⟨?_, List.mem_append_right _ hin'⟩
          rw [List.idxOf_append_of_notMem fun hx => hdisj hx hin,
            List.idxOf_append_of_notMem fun hx => hdisj hx hin', idxOf_after hr₂ h]
          exact Nat.lt_succ_self _
      obtain ⟨u, -, hu⟩ := hadd.on e' hsmall.2
      rw [hnext] at hi
      have hzero : i = 0 := Nat.lt_one_iff.mp hi
      refine ⟨e', _, hu, ?_, hsmall.1⟩
      rw [← addr_of_some hu, hzero]
      rfl
  · rw [hadd.off e hmem, hempty] at he
    cases he

end First

section Assign

variable {rt : Fin n → Fin n → List (Channel n)} {s d : Fin n} {l vlMin startVl : ℕ} {p : Fin n × Fin n}

lemma tryLane_empty {st : Lanes n} (hr : (rt s d ++ rt d s).Nodup) (hempty : ∀ e, st.cdg l e = none) :
    (st.tryLane rt cycleTest s d l).1 = false := by
  have hnot : ∀ e v, st.cdg l e = some v → False := fun e v hv => by
    rw [hempty] at hv
    cases hv
  have hvalid : Memory.Valid ⟨st.cdg l, st.nextAddr⟩ :=
    ⟨fun e v hv => (hnot e v hv).elim, fun e v _ _ hv => (hnot e v hv).elim⟩
  have hacyclic := acyclic_of_added hr hempty (generate_both hvalid hr)
  have hlane : (st.generate rt s d l).cdg l =
      (generateCdgForSp (rt d s) (generateCdgForSp (rt s d) ⟨st.cdg l, st.nextAddr⟩)).lane :=
          Function.update_self _ _ _
  rw [Lanes.tryLane, hlane, cycleTest_false hacyclic]
  rfl

variable {st st' : Assign n}

def Assign.Begun (st : Assign n) : Prop := st = initAssign ∨ (st.assigned 0).Nonempty

lemma Assigning.begun (hrt : ∀ s d, (rt s d ++ rt d s).Nodup) (h : Assigning st) (hb : st.Begun)
    (hstep : st.assignPair rt cycleTest vlMin startVl p = some st') : st'.Begun := by
  rcases (h.step hstep).2 with rfl | ⟨-, -, lanes, l, hfound, -, -, hin, hother⟩
  · exact hb
  · apply Or.inr
    have hgrow : st'.assigned 0 = st.assigned 0 ∪ both p.1 p.2 ∨ l ≠ 0 ∧ st'.assigned 0 = st.assigned 0 := by
      by_cases hl : l = 0
      · rw [← hl]
        exact .inl hin
      · exact .inr ⟨hl, hother 0 (Ne.symm hl)⟩
    rcases hgrow with heq | ⟨hl, heq⟩
    · rw [heq]
      exact ⟨p, Finset.mem_union_right _ (mem_both.mpr (.inl ⟨rfl, rfl⟩))⟩
    · rw [heq]
      rcases hb with rfl | hb
      -- Nothing is in a lane yet, so this pair has got the first lane.
      · have hfirst := @tryLane_empty n rt p.1 p.2 0 initLanes (hrt _ _) fun _ => rfl
        have hfind : ((initAssign : Assign n).toLanes.findLane rt cycleTest p.1 p.2
            (List.range (initAssign : Assign n).lanesNeeded)).1 = some 0 := by
          change (Lanes.findLane rt cycleTest p.1 p.2 [0] initLanes).1 = some 0
          rw [Lanes.findLane, hfirst]
          rfl
        generalize st'.lanesNeeded = k at hfound
        cases hfound with
        | lane hlane =>
          rw [hlane] at hfind
          exact absurd (Option.some.inj hfind) hl
        | another hlane =>
          rw [hlane] at hfind
          cases hfind
      · exact hb

lemma assignLanes_spec (hrt : ∀ s d, (rt s d ++ rt d s).Nodup)
    (h : assignLanes rt cycleTest vlMin startVl = some st) : Assigning st ∧ st.Begun := by
  have hnil : Runs.Run (Assign.assignPair rt cycleTest vlMin startVl) initAssign [] initAssign := .nil
  have hrun := hnil.append (pairs n) h
  exact hrun.always (P := fun st => Assigning st ∧ st.Begun) ⟨assigning_init, .inl rfl⟩ fun _ _ _ hs hstep =>
    ⟨(hs.1.step hstep).1, hs.1.begun hrt hs.2 hstep⟩

end Assign

end OpenSM.Lash
