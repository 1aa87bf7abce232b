import OpenSM.LashBalance
import OpenSM.LashCdg
import OpenSM.LashRoutes

/-! The dependency graphs of the lanes against the pairs in them: each operation on a lane counts the routes of
a pair exactly once. -/

namespace OpenSM.Lash

variable {n : ℕ}

section Counts

variable {rt : Fin n → Fin n → List (Channel n)} {P : Finset (Fin n × Fin n)} {s d : Fin n} {e e' : Channel n}
  {m m' : Lane n} {k : Channel n → ℕ} {a : ℕ} {v : Vertex n}

def uses (rt : Fin n → Fin n → List (Channel n)) (P : Finset (Fin n × Fin n)) (e : Channel n) : ℕ :=
  (P.filter fun p => e ∈ rt p.1 p.2).card

def usesBoth (rt : Fin n → Fin n → List (Channel n)) (P : Finset (Fin n × Fin n)) (e e' : Channel n) : ℕ :=
  (P.filter fun p => after (rt p.1 p.2) e = some e').card

def afterBoth (rt : Fin n → Fin n → List (Channel n)) (s d : Fin n) (e : Channel n) : Option (Channel n) :=
  (after (rt s d) e).or (after (rt d s) e)

lemma card_filter_both (q : Fin n × Fin n → Prop) [DecidablePred q] (hdisj : Disjoint P (both s d)) (hne : s ≠ d) :
    ((P ∪ both s d).filter q).card =
      (P.filter q).card + ((if q (s, d) then 1 else 0) + if q (d, s) then 1 else 0) := by
  have hpair : (s, d) ≠ (d, s) := fun h => hne (congrArg Prod.fst h)
  rw [Finset.filter_union, Finset.card_union_of_disjoint (Finset.disjoint_filter_filter hdisj), both,
    Finset.card_filter q {(s, d), (d, s)}, Finset.sum_pair hpair]

lemma uses_both (hdisj : Disjoint P (both s d)) (hne : s ≠ d) (hr : (rt s d ++ rt d s).Nodup) (e : Channel n) :
    uses rt (P ∪ both s d) e = uses rt P e + if e ∈ rt s d ++ rt d s then 1 else 0 := by
  obtain ⟨-, -, hroutes⟩ := List.nodup_append'.mp hr
  rw [uses, card_filter_both _ hdisj hne, uses]
  dsimp only
  by_cases he : e ∈ rt s d
  · rw [if_pos he, if_neg fun h => hroutes he h, if_pos (List.mem_append_left _ he)]
  · simp only [he, if_false, zero_add, List.mem_append, false_or]

lemma usesBoth_both (hdisj : Disjoint P (both s d)) (hne : s ≠ d) (hr : (rt s d ++ rt d s).Nodup)
    (e e' : Channel n) :
    usesBoth rt (P ∪ both s d) e e' = usesBoth rt P e e' + if afterBoth rt s d e = some e' then 1 else 0 := by
  obtain ⟨-, -, hroutes⟩ := List.nodup_append'.mp hr
  rw [usesBoth, card_filter_both _ hdisj hne, usesBoth]
  dsimp only
  cases hafter : after (rt s d) e with
  | none =>
    have hboth : afterBoth rt s d e = after (rt d s) e := by rw [afterBoth, hafter, Option.none_or]
    rw [hboth, if_neg nofun, zero_add]
  | some x =>
    have hboth : afterBoth rt s d e = some x := by rw [afterBoth, hafter, Option.some_or]
    have hnone : after (rt d s) e = none := Option.eq_none_iff_forall_ne_some.mpr fun y hy =>
      hroutes (mem_of_after hafter).1 (mem_of_after hy).1
    rw [hboth, hnone]
    simp only [reduceCtorEq, if_false, add_zero]

lemma afterBoth_mem (h : afterBoth rt s d e = some e') : e ∈ rt s d ++ rt d s ∧ e' ∈ rt s d ++ rt d s := by
  rw [afterBoth, Option.or_eq_some_iff] at h
  rcases h with h | ⟨-, h⟩
  · exact ⟨List.mem_append_left _ (mem_of_after h).1, List.mem_append_left _ (mem_of_after h).2⟩
  · exact ⟨List.mem_append_right _ (mem_of_after h).1, List.mem_append_right _ (mem_of_after h).2⟩

lemma uses_pos_of_usesBoth (h : usesBoth rt P e e' ≠ 0) : 0 < uses rt P e ∧ 0 < uses rt P e' := by
  obtain ⟨p, hp⟩ := Finset.card_pos.mp (Nat.pos_of_ne_zero h)
  rw [Finset.mem_filter] at hp
  obtain ⟨h₁, h₂⟩ := mem_of_after hp.2
  exact ⟨Finset.card_pos.mpr ⟨p, Finset.mem_filter.mpr ⟨hp.1, h₁⟩⟩,
      Finset.card_pos.mpr ⟨p, Finset.mem_filter.mpr ⟨hp.1, h₂⟩⟩⟩

def addrCount (m : Lane n) (k : Channel n → ℕ) (a : ℕ) : ℕ := ∑ e,
    if (m e).map Vertex.addr = some a then k e else 0

lemma addrCount_congr (h : ∀ e, k e ≠ 0 → (m e).map Vertex.addr = (m' e).map Vertex.addr) :
    addrCount m k = addrCount m' k := by
  funext a
  refine Finset.sum_congr rfl fun e _ => ?_
  by_cases hk : k e = 0
  · rw [hk, ite_self, ite_self]
  · rw [h e hk]

lemma addrCount_zero : addrCount m (fun _ => 0) = fun _ => 0 := by
  funext a
  rw [addrCount]
  simp only [ite_self, Finset.sum_const_zero]

lemma addrCount_addr (hinj : ∀ e v e' v', m e = some v → m e' = some v' → v.addr = v'.addr → e = e')
    (hv : m e = some v) : addrCount m k v.addr = k e := by
  rw [addrCount, Finset.sum_eq_single e]
  · rw [hv, Option.map_some, if_pos rfl]
  · intro x _ hx
    refine if_neg fun h => ?_
    obtain ⟨w, hw, haddr⟩ := Option.map_eq_some_iff.mp h
    exact hx (hinj x w e v hw hv haddr)
  · exact fun h => absurd (Finset.mem_univ e) h

lemma exists_of_addrCount (h : 0 < addrCount m k a) : ∃ e v, m e = some v ∧ v.addr = a ∧ 0 < k e := by
  obtain ⟨e, -, he⟩ := Finset.exists_ne_zero_of_sum_ne_zero h.ne'
  split_ifs at he with haddr
  · obtain ⟨v, hv, hva⟩ := Option.map_eq_some_iff.mp haddr
    exact ⟨e, v, hv, hva, Nat.pos_of_ne_zero he⟩
  · exact absurd rfl he

lemma addrCount_add {k' : Channel n → ℕ} (hv : m e = some v) (hk : ∀ x, k' x = k x + if x = e then 1 else 0) :
    addrCount m k' = Function.update (addrCount m k) v.addr (addrCount m k v.addr + 1) := by
  have hsum : ∀ a, addrCount m k' a = addrCount m k a + if v.addr = a then 1 else 0 := by
    intro a
    have hterm : ∀ x, (if (m x).map Vertex.addr = some a then k' x else 0) =
        (if (m x).map Vertex.addr = some a then k x else 0) +
            if x = e then if v.addr = a then 1 else 0 else 0 := by
      intro x
      rw [hk]
      by_cases hx : x = e
      · subst hx
        rw [hv, Option.map_some, if_pos rfl, if_pos rfl]
        by_cases ha : v.addr = a
        · rw [ha, if_pos rfl, if_pos rfl, if_pos rfl]
        · rw [if_neg fun h => ha (Option.some.inj h), if_neg fun h => ha (Option.some.inj h), if_neg ha]
      · rw [if_neg hx, if_neg hx, add_zero, add_zero]
    rw [addrCount, Finset.sum_congr rfl fun x _ => hterm x, Finset.sum_add_distrib,
      Finset.sum_ite_eq' Finset.univ e, if_pos (Finset.mem_univ e), addrCount]
  funext a
  rw [hsum]
  by_cases ha : a = v.addr
  · rw [ha, if_pos rfl, Function.update_self]
  · rw [if_neg fun h => ha h.symm, Function.update_of_ne ha, add_zero]

end Counts

section Counted

variable {rt : Fin n → Fin n → List (Channel n)} {P : Finset (Fin n × Fin n)} {s d : Fin n}
  {mem mem' mem'' : Memory n} {m : Lane n} {e e' : Channel n} {v w : Vertex n}

/-- The graph of a lane counts exactly the routes of some pairs. -/
structure Counted (rt : Fin n → Fin n → List (Channel n)) (P : Finset (Fin n × Fin n))
    (mem : Memory n) : Prop where
  valid : mem.Valid
  vertex : ∀ e, (mem.lane e).isSome ↔ 0 < uses rt P e
  settled : ∀ e v, mem.lane e = some v → v.Settled
  num : ∀ e v, mem.lane e = some v → v.numUsingVertex = uses rt P e
  holds : ∀ e v, mem.lane e = some v → v.Holds (addrCount mem.lane (usesBoth rt P e))

def BlankSlots (rt : Fin n → Fin n → List (Channel n)) (P : Finset (Fin n × Fin n)) (m : Lane n)
    (s d : Fin n) : Prop :=
  ∀ e e', afterBoth rt s d e = some e' → usesBoth rt P e e' = 0 → ∀ v, m e = some v →
      (v.deps v.numDeps).numUsed = 0

/-- A pair goes over no two channels one after the other that another pair goes over as well. -/
def NoShared (rt : Fin n → Fin n → List (Channel n)) (P : Finset (Fin n × Fin n)) (s d : Fin n) : Prop :=
  ∀ e e', afterBoth rt s d e = some e' → usesBoth rt P e e' = 0

lemma Counted.none_of_start (h : Counted rt P mem) (hv : mem.lane e = none) : uses rt P e = 0 :=
  Nat.eq_zero_of_not_pos fun hpos => by
    have hsome := (h.vertex e).mpr hpos
    rw [hv] at hsome
    cases hsome

lemma Counted.addrCount_eq (h : Counted rt P mem) (e : Channel n)
    (hkeep : ∀ x v, 0 < uses rt P x → mem.lane x = some v → ∃ v', m x = some v' ∧ v'.addr = v.addr) :
    addrCount m (usesBoth rt P e) = addrCount mem.lane (usesBoth rt P e) := by
  refine (addrCount_congr fun x hx => ?_).symm
  have hpos := (uses_pos_of_usesBoth hx).2
  obtain ⟨v, hv⟩ := Option.isSome_iff_exists.mp ((h.vertex x).mpr hpos)
  obtain ⟨v', hv', haddr⟩ := hkeep x v hpos hv
  rw [hv, hv', Option.map_some, Option.map_some, haddr]

lemma Counted.start_holds (h : Counted rt P mem) (hadd : Added (rt s d ++ rt d s) (afterBoth rt s d) mem mem')
    (hv : mem.Start e v) : v.Holds (addrCount mem'.lane (usesBoth rt P e)) ∧ v.numUsingVertex = uses rt P e := by
  rw [h.addrCount_eq e fun x v _ hx => hadd.toExtends.keeps x v hx]
  rcases hv with hv | ⟨hnone, addr, rfl⟩
  · exact ⟨h.holds e v hv, h.num e v hv⟩
  · have hzero := h.none_of_start hnone
    have hboth : usesBoth rt P e = fun _ => 0 := by
      funext e'
      by_contra hne
      exact absurd hzero (uses_pos_of_usesBoth hne).1.ne'
    rw [hboth, addrCount_zero, hzero]
    exact ⟨Vertex.holds_calloc addr e, rfl⟩

/-- A pair that is accepted is counted. -/
lemma Counted.accept (h : Counted rt P mem) (hadd : Added (rt s d ++ rt d s) (afterBoth rt s d) mem mem')
    (hr : (rt s d ++ rt d s).Nodup) (hne : s ≠ d) (hdisj : Disjoint P (both s d))
    (hblank : BlankSlots rt P mem.lane s d)
    (hnext : mem''.nextAddr = mem'.nextAddr)
    (hm : ∀ x, mem''.lane x =
      if x ∈ rt s d ++ rt d s then (mem'.lane x).map Vertex.setPermanent else mem'.lane x) :
    Counted rt (P ∪ both s d) mem'' := by
  have haddr : ∀ x, (mem''.lane x).map Vertex.addr = (mem'.lane x).map Vertex.addr := by
    intro x
    rw [hm]
    split_ifs
    · rw [Option.map_map]
      congr 1
      funext v
      exact Vertex.setPermanent_frame.1
    · rfl
  have hcount : ∀ k, addrCount mem''.lane k = addrCount mem'.lane k := fun k => addrCount_congr fun x _ => haddr x
  have hvalid : mem''.Valid := by
    refine ⟨fun x w hw => ?_, fun x w x' w' hw hw' heq => ?_⟩
    · have hx := haddr x
      rw [hw, Option.map_some] at hx
      obtain ⟨u, hu, hua⟩ := Option.map_eq_some_iff.mp hx.symm
      rw [← hua, hnext]
      exact hadd.valid.lt x u hu
    · have hx := haddr x
      have hx' := haddr x'
      rw [hw, Option.map_some] at hx
      rw [hw', Option.map_some] at hx'
      obtain ⟨u, hu, hua⟩ := Option.map_eq_some_iff.mp hx.symm
      obtain ⟨u', hu', hua'⟩ := Option.map_eq_some_iff.mp hx'.symm
      exact hadd.valid.inj x u x' u' hu hu' (hua.trans (heq.trans hua'.symm))
  have hon : ∀ x ∈ rt s d ++ rt d s, ∃ v, mem.Start x v ∧
      mem''.lane x = some (mem'.lane.attach (afterBoth rt s d x) v.use).setPermanent := by
    intro x hx
    obtain ⟨v, hv, heq⟩ := hadd.on x hx
    exact ⟨v, hv, by rw [hm, if_pos hx, heq]; rfl⟩
  have hoff : ∀ x, x ∉ rt s d ++ rt d s → mem''.lane x = mem.lane x ∧ afterBoth rt s d x = none := by
    intro x hx
    refine ⟨by rw [hm, if_neg hx, hadd.off x hx], ?_⟩
    exact Option.eq_none_iff_forall_ne_some.mpr fun y hy => hx (afterBoth_mem hy).1
  have hsame : ∀ x, afterBoth rt s d x = none → usesBoth rt (P ∪ both s d) x = usesBoth rt P x := by
    intro x hx
    funext y
    rw [usesBoth_both hdisj hne hr, hx, if_neg nofun, add_zero]
  refine ⟨hvalid, fun x => ?_, fun x w hw => ?_, fun x w hw => ?_, fun x w hw => ?_⟩
  · rw [uses_both hdisj hne hr]
    by_cases hx : x ∈ rt s d ++ rt d s
    · obtain ⟨v, -, heq⟩ := hon x hx
      rw [if_pos hx]
      exact iff_of_true (by rw [heq]; rfl) (Nat.succ_pos _)
    · rw [if_neg hx, add_zero, ← h.vertex, (hoff x hx).1]
  · by_cases hx : x ∈ rt s d ++ rt d s
    · obtain ⟨v, hv, heq⟩ := hon x hx
      obtain rfl := Option.some.inj (heq.symm.trans hw)
      refine Vertex.settled_setPermanent fun htemp => ?_
      rcases hv with hv | ⟨-, addr, rfl⟩
      · have hfalse : (mem'.lane.attach (afterBoth rt s d x) v.use).temp = v.temp := by
          cases afterBoth rt s d x with
          | none => rfl
          | some y => exact Vertex.addDep_frame.2.1
        rw [hfalse, (h.settled x v hv).1] at htemp
        cases htemp
      · cases afterBoth rt s d x with
        | none => rfl
        | some y => exact (@Vertex.addDep_frame n (Vertex.calloc addr x).use _).2.2.2 rfl
    · rw [(hoff x hx).1] at hw
      exact h.settled x w hw
  · rw [uses_both hdisj hne hr]
    by_cases hx : x ∈ rt s d ++ rt d s
    · obtain ⟨v, hv, heq⟩ := hon x hx
      obtain rfl := Option.some.inj (heq.symm.trans hw)
      have huse : (mem'.lane.attach (afterBoth rt s d x) v.use).numUsingVertex = v.numUsingVertex + 1 := by
        cases afterBoth rt s d x with
        | none => rfl
        | some y => exact Vertex.addDep_frame.2.2.1
      rw [Vertex.setPermanent_frame.2.1, huse, (h.start_holds hadd hv).2, if_pos hx]
      rfl
    · rw [(hoff x hx).1] at hw
      rw [h.num x w hw, if_neg hx, add_zero]
  · rw [hcount]
    by_cases hx : x ∈ rt s d ++ rt d s
    · obtain ⟨v, hv, heq⟩ := hon x hx
      obtain rfl := Option.some.inj (heq.symm.trans hw)
      obtain ⟨hheld, -⟩ := h.start_holds hadd hv
      have hperm : ∀ {u : Vertex n} {c : ℕ → ℕ}, u.Holds c → u.setPermanent.Holds c := fun {u c} hu =>
        hu.congr (fun i _ => by rw [Vertex.setPermanent_frame.2.2.1]) Vertex.setPermanent_frame.2.2.2
      refine hperm ?_
      have huse : v.use.Holds (addrCount mem'.lane (usesBoth rt P x)) := hheld.congr (fun _ _ => rfl) rfl
      cases hnext : afterBoth rt s d x with
      | none =>
        rw [hsame x hnext]
        exact huse
      | some y =>
        obtain ⟨u, -, hu⟩ := hadd.on y (afterBoth_mem hnext).2
        have hy : mem'.lane.addr y = (mem'.lane.attach (afterBoth rt s d y) u.use).addr := addr_of_some hu
        have hk : ∀ z, usesBoth rt (P ∪ both s d) x z = usesBoth rt P x z + if z = y then 1 else 0 := by
          intro z
          rw [usesBoth_both hdisj hne hr, hnext]
          simp only [Option.some.injEq, eq_comm]
        rw [addrCount_add hu hk, Lane.attach, Option.elim_some, hy]
        refine huse.addDep fun hzero => ?_
        rw [addrCount_addr hadd.valid.inj hu] at hzero
        rcases hv with hv | ⟨-, addr, rfl⟩
        · exact hblank x y hnext hzero v hv
        · rfl
    · obtain ⟨hxm, hnone⟩ := hoff x hx
      rw [hxm] at hw
      rw [hsame x hnone, h.addrCount_eq x fun y u _ hy => hadd.toExtends.keeps y u hy]
      exact h.holds x w hw

/-- A pair that is rejected leaves no trace where it shares nothing. -/
lemma Counted.reject (h : Counted rt P mem) (hadd : Added (rt s d ++ rt d s) (afterBoth rt s d) mem mem')
    (hshared : NoShared rt P s d) (hnext : mem''.nextAddr = mem'.nextAddr)
    (hm : ∀ x, mem''.lane x = if x ∈ rt s d ++ rt d s then (mem'.lane x).bind Vertex.removeTemp else mem'.lane x) :
    Counted rt P mem'' := by
  have hcell : ∀ x, (mem.lane x = none ∧ mem''.lane x = none) ∨ ∃ v w, mem.lane x = some v ∧
      mem''.lane x = some w ∧
      w.addr = v.addr ∧ w.numUsingVertex = v.numUsingVertex ∧ w.Settled ∧
      ∀ c, v.Holds c → (∀ y, afterBoth rt s d x = some y → c (mem'.lane.addr y) = 0) → w.Holds c := by
    intro x
    by_cases hx : x ∈ rt s d ++ rt d s
    · obtain ⟨v, hv, heq⟩ := hadd.on x hx
      rcases hv with hv | ⟨hnone, addr, rfl⟩
      · refine .inr ⟨v, ?_⟩
        rw [hm, if_pos hx, heq, Option.bind_some]
        have hset := h.settled x v hv
        have hheld := h.holds x v hv
        cases hafter : afterBoth rt s d x with
        | none =>
          obtain ⟨w, hw, -, hws, haddr, hnum⟩ := hheld.removeTemp_use hset
          refine ⟨w, hv, hw, haddr, hnum, hws, fun c hc _ => ?_⟩
          obtain ⟨w', hw', hheld', -⟩ := hc.removeTemp_use hset
          obtain rfl := Option.some.inj (hw.symm.trans hw')
          exact hheld'
        | some y =>
          obtain ⟨u, -, hu⟩ := hadd.on y (afterBoth_mem hafter).2
          have hzero : addrCount mem.lane (usesBoth rt P x) (mem'.lane.addr y) = 0 := by
            rw [← h.addrCount_eq x fun z z' _ hz => hadd.toExtends.keeps z z' hz, addr_of_some hu,
              addrCount_addr hadd.valid.inj hu, hshared x y hafter]
          obtain ⟨w, hw, -, hws, haddr, hnum⟩ := hheld.removeTemp_addDep hset hzero
          refine ⟨w, hv, hw, haddr, hnum, hws, fun c hc hno => ?_⟩
          obtain ⟨w', hw', hheld', -⟩ := hc.removeTemp_addDep hset (hno y rfl)
          obtain rfl := Option.some.inj (hw.symm.trans hw')
          exact hheld'
      · refine .inl ⟨hnone, ?_⟩
        rw [hm, if_pos hx, heq, Option.bind_some]
        refine if_pos ?_
        cases afterBoth rt s d x with
        | none => rfl
        | some y => exact (@Vertex.addDep_frame n (Vertex.calloc addr x).use _).2.1
    · have hsame : mem''.lane x = mem.lane x := by rw [hm, if_neg hx, hadd.off x hx]
      cases hv : mem.lane x with
      | none => exact .inl ⟨rfl, hsame.trans hv⟩
      | some v => exact .inr ⟨v, v, rfl, hsame.trans hv, rfl, rfl, h.settled x v hv, fun _ hc _ => hc⟩
  have hsome : ∀ x w, mem''.lane x = some w → ∃ v, mem.lane x = some v ∧ w.addr = v.addr ∧
      w.numUsingVertex = v.numUsingVertex ∧ w.Settled ∧
      ∀ c, v.Holds c → (∀ y, afterBoth rt s d x = some y → c (mem'.lane.addr y) = 0) → w.Holds c := by
    intro x w hw
    rcases hcell x with ⟨-, hnone⟩ | ⟨v, w', hv, hw', hrest⟩
    · rw [hnone] at hw
      cases hw
    · obtain rfl := Option.some.inj (hw.symm.trans hw')
      exact ⟨v, hv, hrest⟩
  have hcount : ∀ x, addrCount mem''.lane (usesBoth rt P x) = addrCount mem.lane (usesBoth rt P x) := by
    refine fun x => h.addrCount_eq x fun y v _ hv => ?_
    rcases hcell y with ⟨hnone, -⟩ | ⟨v', w, hv', hw, haddr, -⟩
    · rw [hnone] at hv
      cases hv
    · obtain rfl := Option.some.inj (hv.symm.trans hv')
      exact ⟨w, hw, haddr⟩
  refine ⟨⟨fun x w hw => ?_, fun x w x' w' hw hw' heq => ?_⟩, fun x => ?_, fun x w hw => ?_, fun x w hw => ?_,
    fun x w hw => ?_⟩
  · obtain ⟨v, hv, haddr, -⟩ := hsome x w hw
    rw [haddr, hnext]
    exact (h.valid.lt x v hv).trans_le hadd.next_le
  · obtain ⟨v, hv, haddr, -⟩ := hsome x w hw
    obtain ⟨v', hv', haddr', -⟩ := hsome x' w' hw'
    exact h.valid.inj x v x' v' hv hv' (haddr.symm.trans (heq.trans haddr'))
  · rw [← h.vertex]
    rcases hcell x with ⟨hnone, hnone'⟩ | ⟨v, w, hv, hw, -⟩
    · rw [hnone, hnone']
    · rw [hv, hw]
      exact iff_of_true rfl rfl
  · obtain ⟨v, hv, -, -, hset, -⟩ := hsome x w hw
    exact hset
  · obtain ⟨v, hv, -, hnum, -⟩ := hsome x w hw
    rw [hnum, h.num x v hv]
  · obtain ⟨v, hv, -, -, -, hheld⟩ := hsome x w hw
    rw [hcount]
    refine hheld _ (h.holds x v hv) fun y hy => ?_
    obtain ⟨u, -, hu⟩ := hadd.on y (afterBoth_mem hy).2
    rw [← h.addrCount_eq x fun z z' _ hz => hadd.toExtends.keeps z z' hz, addr_of_some hu,
      addrCount_addr hadd.valid.inj hu, hshared x y hy]

/-- A pair that leaves its lane is not counted any more. -/
lemma Counted.release (h : Counted rt P mem) (hr : (rt s d ++ rt d s).Nodup) (hne : s ≠ d) (hsub : both s d ⊆ P)
    (hnext : mem''.nextAddr = mem.nextAddr)
    (hm : mem''.lane =
      removeSemipermanentDependForSp (rt d s) 0 (removeSemipermanentDependForSp (rt s d) 0 mem.lane)) :
    Counted rt (P \ both s d) mem'' := by
  have huses : ∀ x, uses rt P x = uses rt (P \ both s d) x + if x ∈ rt s d ++ rt d s then 1 else 0 := fun x => by
    rw [← uses_both Finset.sdiff_disjoint hne hr, Finset.sdiff_union_of_subset hsub]
  have husesBoth : ∀ x y, usesBoth rt P x y =
      usesBoth rt (P \ both s d) x y + if afterBoth rt s d x = some y then 1 else 0 := fun x y => by
    rw [← usesBoth_both Finset.sdiff_disjoint hne hr, Finset.sdiff_union_of_subset hsub]
  have hpresent : ∀ x ∈ rt s d ++ rt d s, (mem.lane x).isSome := fun x hx => (h.vertex x).mpr (by
    rw [huses, if_pos hx]
    exact Nat.succ_pos _)
  obtain ⟨hoff, hon⟩ := removeSemipermanent_both hr hpresent
  rw [← hm] at hoff hon
  have hsome : ∀ x w, mem''.lane x = some w → ∃ v, mem.lane x = some v ∧ w.addr = v.addr ∧ w.Settled ∧
      w.numUsingVertex = uses rt (P \ both s d) x ∧
          w.Holds (addrCount mem.lane (usesBoth rt (P \ both s d) x)) := by
    intro x w hw
    have hsame : afterBoth rt s d x = none → usesBoth rt P x = usesBoth rt (P \ both s d) x := fun hnone => by
      funext y
      rw [husesBoth, hnone, if_neg nofun, add_zero]
    by_cases hx : x ∈ rt s d ++ rt d s
    · obtain ⟨v, hv⟩ := Option.isSome_iff_exists.mp (hpresent x hx)
      have hnum := h.num x v hv
      rw [huses, if_pos hx] at hnum
      rcases hon x hx v hv with ⟨hnone, -⟩ | ⟨-, w', hw', haddr, husing, hset, hheld⟩
      · rw [hnone] at hw
        cases hw
      · obtain rfl := Option.some.inj (hw.symm.trans hw')
        refine ⟨v, hv, haddr, hset (h.settled x v hv), ?_, ?_⟩
        · rw [husing, hnum]
          push_cast
          exact add_sub_cancel_right _ _
        · have hheld := hheld _ (h.holds x v hv)
          change Option.elim (afterBoth rt s d x) _ _ at hheld
          cases hafter : afterBoth rt s d x with
          | none =>
            rw [hafter, Option.elim_none, hsame hafter] at hheld
            exact hheld
          | some y =>
            obtain ⟨u, hu⟩ := Option.isSome_iff_exists.mp (hpresent y (afterBoth_mem hafter).2)
            have hk : ∀ z, usesBoth rt P x z = usesBoth rt (P \ both s d) x z + if z = y then 1 else 0 :=
                fun z => by
              rw [husesBoth, hafter]
              simp only [Option.some.injEq, eq_comm]
            rw [hafter, Option.elim_some, addr_of_some hu, addrCount_add hu hk, Function.update_self,
              Function.update_idem, Nat.add_sub_cancel, Function.update_eq_self] at hheld
            exact hheld (Nat.succ_pos _)
    · rw [hoff x hx] at hw
      have hnone : afterBoth rt s d x = none :=
        Option.eq_none_iff_forall_ne_some.mpr fun y hy => hx (afterBoth_mem hy).1
      refine ⟨w, hw, rfl, h.settled x w hw, ?_, ?_⟩
      · rw [h.num x w hw, huses, if_neg hx, add_zero]
      · rw [← hsame hnone]
        exact h.holds x w hw
  have hstays : ∀ x v, 0 < uses rt (P \ both s d) x → mem.lane x = some v →
      ∃ w, mem''.lane x = some w ∧ w.addr = v.addr := by
    intro x v hpos hv
    by_cases hx : x ∈ rt s d ++ rt d s
    · have hnum := h.num x v hv
      rw [huses, if_pos hx] at hnum
      rcases hon x hx v hv with ⟨-, hone⟩ | ⟨-, w, hw, haddr, -⟩
      · omega
      · exact ⟨w, hw, haddr⟩
    · exact ⟨v, (hoff x hx).trans hv, rfl⟩
  have hle : ∀ x, 0 < uses rt (P \ both s d) x → (mem.lane x).isSome := fun x hx => (h.vertex x).mpr (by
    rw [huses]
    exact Nat.add_pos_left hx _)
  have hcount : ∀ x, addrCount mem''.lane (usesBoth rt (P \ both s d) x) =
      addrCount mem.lane (usesBoth rt (P \ both s d) x) := by
    refine fun x => addrCount_congr fun y hy => ?_
    have hpos := (uses_pos_of_usesBoth hy).2
    obtain ⟨v, hv⟩ := Option.isSome_iff_exists.mp (hle y hpos)
    obtain ⟨w, hw, haddr⟩ := hstays y v hpos hv
    rw [hv, hw, Option.map_some, Option.map_some, haddr]
  refine ⟨⟨fun x w hw => ?_, fun x w x' w' hw hw' heq => ?_⟩, fun x => ?_, fun x w hw => ?_, fun x w hw => ?_,
    fun x w hw => ?_⟩
  · obtain ⟨v, hv, haddr, -⟩ := hsome x w hw
    rw [haddr, hnext]
    exact h.valid.lt x v hv
  · obtain ⟨v, hv, haddr, -⟩ := hsome x w hw
    obtain ⟨v', hv', haddr', -⟩ := hsome x' w' hw'
    exact h.valid.inj x v x' v' hv hv' (haddr.symm.trans (heq.trans haddr'))
  · constructor
    · intro hx
      obtain ⟨w, hw⟩ := Option.isSome_iff_exists.mp hx
      obtain ⟨v, hv, -, -, hnum, -⟩ := hsome x w hw
      by_contra hzero
      -- The last pair over a channel takes the vertex with it.
      by_cases hmem : x ∈ rt s d ++ rt d s
      · have hold := h.num x v hv
        rw [huses, if_pos hmem] at hold
        rcases hon x hmem v hv with ⟨hnone, -⟩ | ⟨hone, -⟩
        · rw [hnone] at hw
          cases hw
        · omega
      · have hpos := (h.vertex x).mp (by rw [hv]; rfl)
        rw [huses, if_neg hmem] at hpos
        exact hzero hpos
    · intro hpos
      obtain ⟨v, hv⟩ := Option.isSome_iff_exists.mp (hle x hpos)
      obtain ⟨w, hw, -⟩ := hstays x v hpos hv
      rw [hw]
      rfl
  · obtain ⟨-, -, -, hset, -⟩ := hsome x w hw
    exact hset
  · obtain ⟨-, -, -, -, hnum, -⟩ := hsome x w hw
    exact hnum
  · obtain ⟨-, -, -, -, -, hheld⟩ := hsome x w hw
    rw [hcount]
    exact hheld

lemma Counted.mono (h : Counted rt P mem) (hlane : mem''.lane = mem.lane) (hnext : mem.nextAddr ≤ mem''.nextAddr) :
    Counted rt P mem'' := by
  refine ⟨⟨?_, ?_⟩, ?_, ?_, ?_, ?_⟩ <;> rw [hlane]
  · exact fun e v hv => (h.valid.lt e v hv).trans_le hnext
  · exact h.valid.inj
  · exact h.vertex
  · exact h.settled
  · exact h.num
  · exact h.holds

lemma counted_empty (h : ∀ e, mem.lane e = none) : Counted rt ∅ mem := by
  have hnot : ∀ e v, mem.lane e = some v → False := fun e v hv => by
    rw [h e] at hv
    cases hv
  refine ⟨⟨fun e v hv => (hnot e v hv).elim, fun e v _ _ hv => (hnot e v hv).elim⟩, fun e => ?_,
    fun e v hv => (hnot e v hv).elim, fun e v hv => (hnot e v hv).elim, fun e v hv => (hnot e v hv).elim⟩
  rw [h e]
  exact iff_of_false Bool.false_ne_true (lt_irrefl 0)

/-- Bookkeeping that is exact: a vertex for each channel that a pair uses, with the number of these pairs, and one
dependency on the vertex of each channel that comes next, with the number of pairs that go on there. -/
structure Exact (rt : Fin n → Fin n → List (Channel n)) (P : Finset (Fin n × Fin n)) (m : Lane n) : Prop where
  vertex : ∀ e, (m e).isSome ↔ ∃ p ∈ P, e ∈ rt p.1 p.2
  addr : ∀ e v e' v', m e = some v → m e' = some v' → v.addr = v'.addr → e = e'
  numUsingVertex : ∀ e v, m e = some v → v.numUsingVertex = uses rt P e
  deps : ∀ e v, m e = some v → ∀ i < v.numDeps, ∃ e' v', m e' = some v' ∧ (v.deps i).v = v'.addr ∧
    (∃ p ∈ P, after (rt p.1 p.2) e = some e') ∧ (v.deps i).numUsed = usesBoth rt P e e'
  all : ∀ e v, m e = some v → ∀ p ∈ P, ∀ e', after (rt p.1 p.2) e = some e' → ∃ i < v.numDeps,
      (v.deps i).v = m.addr e'
  distinct : ∀ e v, m e = some v → ∀ i < v.numDeps, ∀ j < v.numDeps, (v.deps i).v = (v.deps j).v → i = j

lemma Counted.exact (h : Counted rt P mem) : Exact rt P mem.lane := by
  refine ⟨fun e => ?_, h.valid.inj, h.num, fun e v hv i hi => ?_, fun e v hv p hp e' he' => ?_,
    fun e v hv => (h.holds e v hv).inj⟩
  · rw [h.vertex, uses, Finset.card_pos]
    constructor
    · rintro ⟨p, hp⟩
      exact ⟨p, Finset.mem_filter.mp hp⟩
    · rintro ⟨p, hp⟩
      exact ⟨p, Finset.mem_filter.mpr hp⟩
  · obtain ⟨hpos, hused⟩ := (h.holds e v hv).used i hi
    obtain ⟨e', v', hv', haddr, hcount⟩ := exists_of_addrCount hpos
    refine ⟨e', v', hv', haddr.symm, ?_, ?_⟩
    · obtain ⟨p, hp⟩ := Finset.card_pos.mp hcount
      exact ⟨p, Finset.mem_filter.mp hp⟩
    · rw [hused, ← haddr, addrCount_addr h.valid.inj hv']
  · have hpos : 0 < usesBoth rt P e e' := Finset.card_pos.mpr ⟨p, Finset.mem_filter.mpr ⟨hp, he'⟩⟩
    obtain ⟨v', hv'⟩ := Option.isSome_iff_exists.mp ((h.vertex e').mpr (uses_pos_of_usesBoth hpos.ne').2)
    rw [addr_of_some hv']
    refine (h.holds e v hv).all v'.addr ?_
    rwa [addrCount_addr h.valid.inj hv']

end Counted

section Lanes

variable {rt : Fin n → Fin n → List (Channel n)} {test : Lane n → List (Channel n) → List (Channel n) → Bool}
  {A : ℕ → Finset (Fin n × Fin n)} {s d : Fin n} {l : ℕ} {st st' : Lanes n}

def CountedAll (rt : Fin n → Fin n → List (Channel n)) (A : ℕ → Finset (Fin n × Fin n)) (st : Lanes n) : Prop :=
  ∀ l, Counted rt (A l) ⟨st.cdg l, st.nextAddr⟩

/-- A pair that is rejected in a lane must share nothing with the pairs there, and one that is accepted must get
blank slots. -/
def Lanes.AttemptOk (rt : Fin n → Fin n → List (Channel n))
    (test : Lane n → List (Channel n) → List (Channel n) → Bool) (st : Lanes n) (s d : Fin n) (l : ℕ) : Prop :=
  if (st.tryLane rt test s d l).1 then NoShared rt (st.assigned l) s d
  else BlankSlots rt (st.assigned l) (st.cdg l) s d

lemma CountedAll.frame (h : CountedAll rt A st) (hcdg : st'.cdg = st.cdg) (hnext : st'.nextAddr = st.nextAddr) :
    CountedAll rt A st' := fun l => (h l).mono (by rw [hcdg]) (by rw [hnext])

lemma CountedAll.update (h : CountedAll rt A st) {P : Finset (Fin n × Fin n)}
    (hl : Counted rt P ⟨st'.cdg l, st'.nextAddr⟩) (hcdg : ∀ k, k ≠ l → st'.cdg k = st.cdg k)
    (hnext : st.nextAddr ≤ st'.nextAddr) : CountedAll rt (Function.update A l P) st' := by
  intro k
  by_cases hk : k = l
  · subst hk
    rw [Function.update_self]
    exact hl
  · rw [Function.update_of_ne hk]
    exact (h k).mono (hcdg k hk) hnext

lemma generate_spec (h : CountedAll rt A st) (hr : (rt s d ++ rt d s).Nodup) :
    Added (rt s d ++ rt d s) (afterBoth rt s d) ⟨st.cdg l, st.nextAddr⟩
      ⟨(st.generate rt s d l).cdg l, (st.generate rt s d l).nextAddr⟩ := by
  have hlane : (st.generate rt s d l).cdg l =
      (generateCdgForSp (rt d s) (generateCdgForSp (rt s d) ⟨st.cdg l, st.nextAddr⟩)).lane :=
          Function.update_self _ _ _
  rw [hlane]
  exact generate_both (h l).valid hr

lemma tryLane_reject (h : CountedAll rt A st) (hr : (rt s d ++ rt d s).Nodup) (hshared : NoShared rt (A l) s d)
    (hrej : (st.tryLane rt test s d l).1 = true) : CountedAll rt A (st.tryLane rt test s d l).2 := by
  have htry : (st.tryLane rt test s d l).2 = (st.generate rt s d l).removeTemp rt s d l := by
    rw [Lanes.tryLane] at hrej ⊢
    split_ifs at hrej ⊢
    rfl
  have hadd := @generate_spec n rt A s d l st h hr
  have hcounted : Counted rt (A l) ⟨(st.tryLane rt test s d l).2.cdg l,
      (st.tryLane rt test s d l).2.nextAddr⟩ := by
    refine (h l).reject hadd hshared ?_ fun x => ?_
    · rw [htry]
      rfl
    · rw [htry]
      dsimp only [Lanes.removeTemp, Lanes.setLane]
      rw [Function.update_self, removeTemp_both hr]
  have hall := @CountedAll.update n rt A l st (st.tryLane rt test s d l).2 h (A l) hcounted
    (fun k hk => by
      rw [htry]
      dsimp only [Lanes.removeTemp, Lanes.setLane, Lanes.generate]
      rw [Function.update_of_ne hk, Function.update_of_ne hk])
    (by
      rw [htry]
      exact hadd.next_le)
  rwa [Function.update_eq_self] at hall

lemma setPermanent_counted (h : CountedAll rt A st) (hr : (rt s d ++ rt d s).Nodup) (hne : s ≠ d)
    (hdisj : Disjoint (A l) (both s d)) (hblank : BlankSlots rt (A l) (st.cdg l) s d) :
    CountedAll rt (Function.update A l (A l ∪ both s d)) ((st.generate rt s d l).setPermanent rt s d l) := by
  have hadd := @generate_spec n rt A s d l st h hr
  refine h.update ?_ (fun k hk => ?_) hadd.next_le
  · refine (h l).accept hadd hr hne hdisj hblank rfl fun x => ?_
    dsimp only [Lanes.setPermanent, Lanes.setLane]
    rw [Function.update_self, setPermanent_both hr]
  · dsimp only [Lanes.setPermanent, Lanes.setLane, Lanes.generate]
    rw [Function.update_of_ne hk, Function.update_of_ne hk]

lemma tryLane_accept (h : CountedAll rt A st) (hr : (rt s d ++ rt d s).Nodup) (hne : s ≠ d)
    (hdisj : Disjoint (A l) (both s d)) (hblank : BlankSlots rt (A l) (st.cdg l) s d)
    (hrej : (st.tryLane rt test s d l).1 = false) :
    CountedAll rt (Function.update A l (A l ∪ both s d)) (st.tryLane rt test s d l).2 := by
  have htry : (st.tryLane rt test s d l).2 = (st.generate rt s d l).setPermanent rt s d l := by
    rw [Lanes.tryLane] at hrej ⊢
    split_ifs at hrej ⊢
    rfl
  rw [htry]
  exact setPermanent_counted h hr hne hdisj hblank

/-- The attempts to find a lane for a pair, each in the state that the one before leaves behind. -/
def Lanes.FindOk (rt : Fin n → Fin n → List (Channel n))
    (test : Lane n → List (Channel n) → List (Channel n) → Bool)
    (s d : Fin n) : List ℕ → Lanes n → Prop
  | [], _ => True
  | l :: ls, st => st.AttemptOk rt test s d l ∧
      ((st.tryLane rt test s d l).1 = true → Lanes.FindOk rt test s d ls (st.tryLane rt test s d l).2)

lemma findLane_counted (ls : List ℕ) (h : CountedAll rt st.assigned st)
    (hr : (rt s d ++ rt d s).Nodup) (hne : s ≠ d)
    (hdisj : ∀ l, Disjoint (st.assigned l) (both s d)) (hok : Lanes.FindOk rt test s d ls st) :
    CountedAll rt ((st.findLane rt test s d ls).1.elim st.assigned fun l =>
      Function.update st.assigned l (st.assigned l ∪ both s d)) (st.findLane rt test s d ls).2 := by
  induction ls generalizing st with
  | nil => exact h
  | cons l ls ih =>
    obtain ⟨hattempt, hrest⟩ := hok
    rw [Lanes.AttemptOk] at hattempt
    rw [Lanes.findLane]
    cases hrej : (st.tryLane rt test s d l).1 with
    | true =>
      rw [if_pos hrej] at hattempt
      have hrec := @ih (st.tryLane rt test s d l).2
      rw [assigned_tryLane] at hrec
      exact hrec (tryLane_reject h hr hattempt hrej) hdisj (hrest hrej)
    | false =>
      rw [if_neg (Bool.eq_false_iff.mp hrej)] at hattempt
      exact (tryLane_accept h hr hne (hdisj l) hattempt hrej).frame rfl rfl

end Lanes

section Assign

variable {rt : Fin n → Fin n → List (Channel n)} {test : Lane n → List (Channel n) → List (Channel n) → Bool}
  {vlMin startVl : ℕ} {st st' : Assign n} {p : Fin n × Fin n}

def Assign.PairOk (rt : Fin n → Fin n → List (Channel n))
    (test : Lane n → List (Channel n) → List (Channel n) → Bool) (st : Assign n) (p : Fin n × Fin n) : Prop :=
  p.1 ≠ p.2 → st.switchBitmap p.1 p.2 = false →
    Lanes.FindOk rt test p.1 p.2 (List.range st.lanesNeeded) st.toLanes

lemma assigned_eq_empty (h : Located st.toLanes st.lanesNeeded) : st.assigned st.lanesNeeded = ∅ := by
  rw [Finset.eq_empty_iff_forall_notMem]
  intro p hp
  exact absurd (h.lane_lt p.1 p.2 _ (mem_assigned.mp hp)) (lt_irrefl _)

lemma assignPair_counted (hrt : ∀ s d, s ≠ d → (rt s d ++ rt d s).Nodup) (h : Assigning st)
    (hcount : CountedAll rt st.assigned st.toLanes) (hok : st.PairOk rt test p)
    (hstep : st.assignPair rt test vlMin startVl p = some st') : CountedAll rt st'.assigned st'.toLanes := by
  rcases (h.step hstep).2 with rfl | ⟨hne, hnone, lanes, l, hfound, hcdg, hnext, hin, hother⟩
  · exact hcount
  · have hbit : st.switchBitmap p.1 p.2 = false := by
      rcases assignPair_cases hstep with rfl | ⟨-, hbit, -⟩
      · have hmem : (p.1, p.2) ∈ st'.assigned l := by
          rw [hin]
          exact Finset.mem_union_right _ (mem_both.mpr (.inl ⟨rfl, rfl⟩))
        exact absurd (hnone l) (mem_assigned.mp hmem)
      · exact hbit
    have hdisj : ∀ l, Disjoint (st.assigned l) (both p.1 p.2) := fun l => h.located.both_disjoint (hnone l)
    have hfind := findLane_counted (List.range st.lanesNeeded) hcount (hrt _ _ hne) hne hdisj (hok hne hbit)
    have hassigned : st'.assigned = Function.update st.assigned l (st.assigned l ∪ both p.1 p.2) := by
      funext k
      by_cases hk : k = l
      · rw [hk, Function.update_self, hin]
      · rw [Function.update_of_ne hk, hother k hk]
    rw [hassigned]
    refine CountedAll.frame ?_ hcdg hnext
    generalize st'.lanesNeeded = k at hfound
    cases hfound with
    | lane hlane =>
      rw [hlane] at hfind
      exact hfind
    | @another lanes hlane =>
      rw [hlane] at hfind
      have hfind : CountedAll rt st.assigned lanes := hfind
      refine (setPermanent_counted hfind (hrt _ _ hne) hne (hdisj _) ?_).frame rfl rfl
      -- No pair is in the new lane, so none of its vertices is there.
      intro e e' _ _ v hv
      have hempty := (hfind st.lanesNeeded).vertex e
      rw [assigned_eq_empty h.located] at hempty
      exact absurd (hempty.mp (by dsimp only; rw [hv]; rfl)) (lt_irrefl 0)

end Assign

section Balance

variable {rt : Fin n → Fin n → List (Channel n)} {test : Lane n → List (Channel n) → List (Channel n) → Bool}
  {lanesNeeded startVl : ℕ} {b b' : Balance n} {start : Fin n × Fin n}

def Balance.RoundOk (rt : Fin n → Fin n → List (Channel n))
    (test : Lane n → List (Channel n) → List (Channel n) → Bool) (b : Balance n) (start : Fin n × Fin n) : Prop :=
  ∀ p, searchPair (fun s d => decide (b.virtualLocation s d b.maxFilledLane = 1)) start = some p →
    b.toLanes.AttemptOk rt test p.1 p.2 b.minFilledLane

lemma round_counted (hrt : ∀ s d, s ≠ d → (rt s d ++ rt d s).Nodup) (h : Balancing lanesNeeded b)
    (hne : b.minFilledLane ≠ b.maxFilledLane) (hcount : CountedAll rt b.assigned b.toLanes)
    (hok : b.RoundOk rt test start) (hround : b.round rt lanesNeeded startVl start test = some b') :
    CountedAll rt b'.assigned b'.toLanes := by
  obtain ⟨⟨s, d⟩, hp, rfl⟩ := Option.map_eq_some_iff.mp hround
  have hs : b.virtualLocation s d b.maxFilledLane = 1 := of_decide_eq_true (searchPair_some hp)
  have hpos : b.virtualLocation s d b.maxFilledLane ≠ 0 := by
    rw [hs]
    exact one_ne_zero
  have hsd := h.located.ne hpos
  have hattempt := hok _ hp
  rw [Lanes.AttemptOk] at hattempt
  dsimp only at hattempt ⊢
  cases hrej : b.rejects rt test s d with
  | true =>
    obtain ⟨hmove, hassigned, -⟩ := @h.reject n rt test lanesNeeded startVl b s d hs hrej
    rw [hmove.pick.2, hassigned]
    rw [Balance.rejects] at hrej
    rw [if_pos hrej] at hattempt
    refine (tryLane_reject hcount (hrt s d hsd) hattempt hrej).frame ?_ ?_
    · rw [pick_frame.2.1, Balance.move, if_pos hrej]
      rfl
    · rw [pick_frame.2.2, Balance.move, if_pos hrej]
      rfl
  | false =>
    obtain ⟨hmove, hout, hin, hother, -⟩ := @h.accept n rt test lanesNeeded startVl b s d hne hs hrej
    have hfree : b.virtualLocation s d b.minFilledLane = 0 := by
      by_contra hmin
      exact hne (h.located.unique s d _ _ hmin hpos)
    rw [Balance.rejects] at hrej
    rw [if_neg (Bool.eq_false_iff.mp hrej)] at hattempt
    have htry := tryLane_accept hcount (hrt s d hsd) hsd (h.located.both_disjoint hfree) hattempt hrej
    have hassigned : ((b.move rt startVl test s d).pick lanesNeeded).assigned = Function.update
        (Function.update b.assigned b.minFilledLane (b.assigned b.minFilledLane ∪ both s d)) b.maxFilledLane
        (b.assigned b.maxFilledLane \ both s d) := by
      rw [hmove.pick.2]
      funext k
      by_cases hmax : k = b.maxFilledLane
      · rw [hmax, Function.update_self, hout]
      · rw [Function.update_of_ne hmax]
        by_cases hmin : k = b.minFilledLane
        · rw [hmin, Function.update_self, hin]
        · rw [Function.update_of_ne hmin, hother k hmax hmin]
    have hcdg : ((b.move rt startVl test s d).pick lanesNeeded).cdg =
        ((b.toLanes.tryLane rt test s d b.minFilledLane).2.removeSemipermanent rt s d b.maxFilledLane).cdg := by
      rw [pick_frame.2.1, Balance.move, if_neg (Bool.eq_false_iff.mp hrej)]
      rfl
    have hnext : ((b.move rt startVl test s d).pick lanesNeeded).nextAddr =
        (b.toLanes.tryLane rt test s d b.minFilledLane).2.nextAddr := by
      rw [pick_frame.2.2, Balance.move, if_neg (Bool.eq_false_iff.mp hrej)]
      rfl
    have hmaxLane := htry b.maxFilledLane
    rw [Function.update_of_ne hne.symm] at hmaxLane
    rw [hassigned]
    refine htry.update ?_ (fun k hk => ?_) hnext.ge
    · refine hmaxLane.release (hrt s d hsd) hsd (h.located.both_subset hpos) hnext ?_
      dsimp only
      rw [hcdg]
      exact Function.update_self _ _ _
    · rw [hcdg]
      exact Function.update_of_ne hk _ _

end Balance

end OpenSM.Lash
