import OpenSM.LashDeps

/-! The channel dependency graph of one lane: what the operations do to each vertex on a route. -/

namespace OpenSM.Lash

variable {n : ℕ}

def after : List (Channel n) → Channel n → Option (Channel n)
  | [], _ => none
  | e :: rest, x => if x = e then rest.head? else after rest x

lemma mem_of_after {r : List (Channel n)} {e e' : Channel n} (h : after r e = some e') : e ∈ r ∧ e' ∈ r := by
  induction r with
  | nil => cases h
  | cons x rest ih =>
    rw [after] at h
    split_ifs at h with hx
    · subst hx
      exact ⟨List.mem_cons_self, List.mem_cons_of_mem _ (List.mem_of_mem_head? h)⟩
    · exact ⟨List.mem_cons_of_mem _ (ih h).1, List.mem_cons_of_mem _ (ih h).2⟩

section Memory

variable {mem mem' : Memory n} {m m' : Lane n} {r : List (Channel n)} {e e' x : Channel n} {v v' : Vertex n}
  {prev : Option (Channel n)}

structure Memory.Valid (mem : Memory n) : Prop where
  lt : ∀ e v, mem.lane e = some v → v.addr < mem.nextAddr
  inj : ∀ e v e' v', mem.lane e = some v → mem.lane e' = some v' → v.addr = v'.addr → e = e'

/-- A vertex with the dependency on the next channel of a route, if there is one. -/
def Lane.attach (m : Lane n) (o : Option (Channel n)) (v : Vertex n) : Vertex n :=
    o.elim v fun e => v.addDep (m.addr e)

def Memory.Start (mem : Memory n) (e : Channel n) (v : Vertex n) : Prop :=
  mem.lane e = some v ∨ mem.lane e = none ∧ ∃ addr, v = .calloc addr e

structure Memory.Extends (mem mem' : Memory n) : Prop where
  valid : mem'.Valid
  next_le : mem.nextAddr ≤ mem'.nextAddr
  keeps : ∀ e v, mem.lane e = some v → ∃ v', mem'.lane e = some v' ∧ v'.addr = v.addr

structure Added (r : List (Channel n)) (next : Channel n → Option (Channel n)) (mem mem' : Memory n) : Prop
    extends mem.Extends mem' where
  off : ∀ e ∉ r, mem'.lane e = mem.lane e
  on : ∀ e ∈ r, ∃ v, mem.Start e v ∧ mem'.lane e = some (mem'.lane.attach (next e) v.use)

lemma Memory.Extends.refl (h : mem.Valid) : mem.Extends mem := ⟨h, le_rfl, fun _ v hv => ⟨v, hv, rfl⟩⟩

lemma Memory.Extends.trans {mem₁ mem₂ mem₃ : Memory n} (h : mem₁.Extends mem₂) (h' : mem₂.Extends mem₃) :
    mem₁.Extends mem₃ := by
  refine ⟨h'.valid, h.next_le.trans h'.next_le, fun e v hv => ?_⟩
  obtain ⟨v₂, hv₂, haddr₂⟩ := h.keeps e v hv
  obtain ⟨v₃, hv₃, haddr₃⟩ := h'.keeps e v₂ hv₂
  exact ⟨v₃, hv₃, haddr₃.trans haddr₂⟩

lemma addr_of_some (h : m e = some v) : m.addr e = v.addr := by
  rw [Lane.addr, h]
  rfl

lemma Memory.Extends.addr_eq (h : mem.Extends mem') (he : (mem.lane e).isSome) :
    mem'.lane.addr e = mem.lane.addr e := by
  obtain ⟨v, hv⟩ := Option.isSome_iff_exists.mp he
  obtain ⟨v', hv', haddr⟩ := h.keeps e v hv
  rw [addr_of_some hv, addr_of_some hv', haddr]

lemma modify_self (g : Vertex n → Vertex n) : m.modify e g e = (m e).map g := Function.update_self _ _ _

lemma modify_of_ne (g : Vertex n → Vertex n) (h : x ≠ e) : m.modify e g x = m x := Function.update_of_ne h _ _

/-- One round: the channel gets its use, and the vertex before it the dependency. -/
lemma generateStep_spec (hv : mem.Valid) (hp : ∀ p, prev = some p → p ≠ e) :
    mem.Extends (generateStep (mem, prev) e).1 ∧
    (∃ v, mem.Start e v ∧ (generateStep (mem, prev) e).1.lane e = some v.use) ∧
    (∀ p v, prev = some p → mem.lane p = some v →
      (generateStep (mem, prev) e).1.lane p = some ((generateStep (mem, prev) e).1.lane.attach (some e) v)) ∧
    ∀ x, x ≠ e → prev ≠ some x → (generateStep (mem, prev) e).1.lane x = mem.lane x := by
  have hstart : ∃ v, mem.Start e v ∧ (mem.ensure e).lane = Function.update mem.lane e (some v) ∧
      v.addr < (mem.ensure e).nextAddr ∧ mem.nextAddr ≤ (mem.ensure e).nextAddr ∧
      ∀ x w, x ≠ e → mem.lane x = some w → w.addr ≠ v.addr := by
    rw [Memory.ensure]
    cases he : mem.lane e with
    | none =>
      exact ⟨_, .inr ⟨he, _, rfl⟩, rfl, Nat.lt_succ_self _, Nat.le_succ _, fun x w _ hw => (hv.lt x w hw).ne⟩
    | some v =>
      exact ⟨v, .inl he, (Function.update_eq_self_iff.mpr he.symm).symm, hv.lt e v he, le_rfl,
        fun x w hx hw haddr => hx (hv.inj x w e v hw he haddr)⟩
  obtain ⟨v, hv₀, hlane, hlt, hnext, hfresh⟩ := hstart
  have hself : (generateStep (mem, prev) e).1.lane e = some v.use := by
    rw [generateStep]
    dsimp only
    cases prev with
    | none =>
      rw [Option.elim_none, modify_self, hlane, Function.update_self]
      rfl
    | some p =>
      rw [Option.elim_some, modify_of_ne _ (hp p rfl).symm, modify_self, hlane, Function.update_self]
      rfl
  have haddr : (generateStep (mem, prev) e).1.lane.addr e = v.addr := by
    rw [addr_of_some hself]
    rfl
  have hprev : ∀ p w, prev = some p → mem.lane p = some w →
      (generateStep (mem, prev) e).1.lane p = some (w.addDep v.addr) := by
    rintro p w rfl hw
    rw [generateStep]
    dsimp only
    have htouched : ((mem.ensure e).lane.modify e Vertex.use).addr e = v.addr := by
      rw [Lane.addr, modify_self, hlane, Function.update_self]
      rfl
    rw [Option.elim_some, modify_self, htouched, modify_of_ne _ (hp p rfl), hlane,
        Function.update_of_ne (hp p rfl), hw]
    rfl
  have hother : ∀ x, x ≠ e → prev ≠ some x → (generateStep (mem, prev) e).1.lane x = mem.lane x := by
    intro x hx hxp
    rw [generateStep]
    dsimp only
    cases prev with
    | none => rw [Option.elim_none, modify_of_ne _ hx, hlane, Function.update_of_ne hx]
    | some p =>
      rw [Option.elim_some, modify_of_ne _ fun h => hxp (congrArg some h.symm), modify_of_ne _ hx, hlane,
        Function.update_of_ne hx]
  have hcases : ∀ x w, (generateStep (mem, prev) e).1.lane x = some w →
      x = e ∧ w.addr = v.addr ∨ x ≠ e ∧ ∃ w₀, mem.lane x = some w₀ ∧ w.addr = w₀.addr := by
    intro x w hw
    by_cases hx : x = e
    · subst hx
      rw [hself] at hw
      exact .inl ⟨rfl, (congrArg Vertex.addr (Option.some.inj hw)).symm⟩
    · refine .inr ⟨hx, ?_⟩
      by_cases hxp : prev = some x
      · cases hm : mem.lane x with
        | none =>
          subst hxp
          rw [generateStep] at hw
          dsimp only at hw
          rw [Option.elim_some, modify_self, modify_of_ne _ hx, hlane, Function.update_of_ne hx, hm] at hw
          cases hw
        | some w₀ =>
          rw [hprev x w₀ hxp hm] at hw
          exact ⟨w₀, rfl, (congrArg Vertex.addr (Option.some.inj hw)).symm.trans Vertex.addDep_frame.1⟩
      · rw [hother x hx hxp] at hw
        exact ⟨w, hw, rfl⟩
  refine ⟨⟨⟨fun x w hw => ?_, fun x w x' w' hw hw' hww => ?_⟩, hnext, fun x w hw => ?_⟩, ⟨v, hv₀, hself⟩,
    fun p w hp' hw => ?_, hother⟩
  · rcases hcases x w hw with ⟨-, h⟩ | ⟨-, w₀, hw₀, h⟩
    · rw [h]
      exact hlt
    · rw [h]
      exact (hv.lt x w₀ hw₀).trans_le hnext
  · rcases hcases x w hw with ⟨rfl, h⟩ | ⟨hx, w₀, hw₀, h⟩ <;>
        rcases hcases x' w' hw' with ⟨rfl, h'⟩ | ⟨hx', w₀', hw₀', h'⟩
    · rfl
    · exact absurd (h'.symm.trans (hww.symm.trans h)) (hfresh x' w₀' hx' hw₀')
    · exact absurd (h.symm.trans (hww.trans h')) (hfresh x w₀ hx hw₀)
    · exact hv.inj x w₀ x' w₀' hw₀ hw₀' (h.symm.trans (hww.trans h'))
  · by_cases hx : x = e
    · subst hx
      refine ⟨v.use, hself, ?_⟩
      rcases hv₀ with hv₀ | ⟨hnone, -⟩
      · rw [hv₀] at hw
        rw [← Option.some.inj hw]
        rfl
      · rw [hnone] at hw
        cases hw
    · by_cases hxp : prev = some x
      · exact ⟨_, hprev x w hxp hw, Vertex.addDep_frame.1⟩
      · exact ⟨w, by rw [hother x hx hxp, hw], rfl⟩
  · rw [hprev p w hp' hw, Lane.attach, Option.elim_some, haddr]

/-- The rounds for the rest of a route, after the vertex `prev`. -/
lemma generate_loop (hv : mem.Valid) (hr : r.Nodup) (hp : ∀ p, prev = some p → p ∉ r) :
    mem.Extends (r.foldl generateStep (mem, prev)).1 ∧
    (∀ x ∉ r, prev ≠ some x → (r.foldl generateStep (mem, prev)).1.lane x = mem.lane x) ∧
    (∀ p v, prev = some p → mem.lane p = some v → (r.foldl generateStep (mem, prev)).1.lane p =
      some ((r.foldl generateStep (mem, prev)).1.lane.attach r.head? v)) ∧
    ∀ e ∈ r, ∃ v, mem.Start e v ∧ (r.foldl generateStep (mem, prev)).1.lane e =
      some ((r.foldl generateStep (mem, prev)).1.lane.attach (after r e) v.use) := by
  induction r generalizing mem prev with
  | nil => exact ⟨.refl hv, fun _ _ _ => rfl, fun p v _ hv => hv, fun _ h => absurd h List.not_mem_nil⟩
  | cons e rest ih =>
    rw [List.nodup_cons] at hr
    have hpe : ∀ p, prev = some p → p ≠ e := fun p hp' heq => hp p hp' (heq ▸ List.mem_cons_self)
    obtain ⟨hext, ⟨v, hstart, hself⟩, hprev, hother⟩ := @generateStep_spec n mem e prev hv hpe
    have hsnd : (generateStep (mem, prev) e).2 = some e := rfl
    obtain ⟨hext', hoff, hfirst, hon⟩ := @ih (generateStep (mem, prev) e).1 (some e) hext.valid hr.2
      (fun p hp' => by rw [← Option.some.inj hp']; exact hr.1)
    rw [List.foldl_cons, ← Prod.mk.eta (p := generateStep (mem, prev) e), hsnd]
    refine ⟨hext.trans hext', fun x hx hxp => ?_, fun p w hp' hw => ?_, fun x hx => ?_⟩
    · rw [List.mem_cons, not_or] at hx
      rw [hoff x hx.2 fun h => hx.1 (Option.some.inj h).symm, hother x hx.1 hxp]
    · have hne := hpe p hp'
      have hnot : p ∉ rest := fun h => hp p hp' (List.mem_cons_of_mem _ h)
      rw [hoff p hnot fun h => hne (Option.some.inj h).symm, hprev p w hp' hw, List.head?_cons,
        Lane.attach, Lane.attach, Option.elim_some, Option.elim_some, hext'.addr_eq (by rw [hself]; rfl)]
    · rcases List.mem_cons.mp hx with rfl | hrest
      · refine ⟨v, hstart, ?_⟩
        rw [after, if_pos rfl]
        exact hfirst x v.use rfl hself
      · have hne : x ≠ e := by
          rintro rfl
          exact hr.1 hrest
        obtain ⟨w, hw, heq⟩ := hon x hrest
        rw [after, if_neg hne]
        refine ⟨w, ?_, heq⟩
        have hsame : (generateStep (mem, prev) e).1.lane x = mem.lane x :=
          hother x hne fun h => hp x h (List.mem_cons_of_mem _ hrest)
        rwa [Memory.Start, hsame] at hw

lemma generate_added (hv : mem.Valid) (hr : r.Nodup) : Added r (after r) mem (generateCdgForSp r mem) := by
  obtain ⟨hext, hoff, -, hon⟩ := @generate_loop n mem r none hv hr nofun
  exact ⟨hext, fun e he => hoff e he nofun, hon⟩

lemma generate_both {r' : List (Channel n)} (hv : mem.Valid) (hr : (r ++ r').Nodup) :
    Added (r ++ r') (fun e => (after r e).or (after r' e)) mem (generateCdgForSp r' (generateCdgForSp r mem)) := by
  obtain ⟨hr₁, hr₂, hdisj⟩ := List.nodup_append'.mp hr
  have h₁ := generate_added hv hr₁
  have h₂ := generate_added h₁.valid hr₂
  refine ⟨h₁.toExtends.trans h₂.toExtends, fun e he => ?_, fun e he => ?_⟩
  · rw [List.mem_append, not_or] at he
    rw [h₂.off e he.2, h₁.off e he.1]
  · by_cases her : e ∈ r
    · obtain ⟨v, hstart, heq⟩ := h₁.on e her
      have hnot : e ∉ r' := fun h => hdisj her h
      have hnone : after r' e = none := Option.eq_none_iff_forall_ne_some.mpr fun e' h => hnot (mem_of_after h).1
      refine ⟨v, hstart, ?_⟩
      rw [h₂.off e hnot, heq, hnone, Option.or_none]
      cases hafter : after r e with
      | none => rfl
      | some e' =>
        obtain ⟨w, -, hw⟩ := h₁.on e' (mem_of_after hafter).2
        rw [Lane.attach, Lane.attach, Option.elim_some, Option.elim_some,
          h₂.toExtends.addr_eq (by rw [hw]; rfl)]
    · have her' := (List.mem_append.mp he).resolve_left her
      obtain ⟨v, hstart, heq⟩ := h₂.on e her'
      have hnone : after r e = none := Option.eq_none_iff_forall_ne_some.mpr fun e' h => her (mem_of_after h).1
      refine ⟨v, ?_, by rw [heq, hnone, Option.none_or]⟩
      rwa [Memory.Start, h₁.off e her] at hstart

lemma foldl_route (g : Option (Vertex n) → Option (Vertex n)) (hr : r.Nodup) (x : Channel n) :
    r.foldl (fun m e => Function.update m e (g (m e))) m x = if x ∈ r then g (m x) else m x := by
  induction r generalizing m with
  | nil => rfl
  | cons e rest ih =>
    rw [List.nodup_cons] at hr
    rw [List.foldl_cons, ih hr.2]
    by_cases hx : x = e
    · subst hx
      rw [if_neg hr.1, if_pos List.mem_cons_self, Function.update_self]
    · rw [Function.update_of_ne hx]
      simp only [List.mem_cons, hx, false_or]

lemma setPermanent_both {r' : List (Channel n)} (hr : (r ++ r').Nodup) (x : Channel n) :
    setTempDependToPermanentForSp r' (setTempDependToPermanentForSp r m) x =
      if x ∈ r ++ r' then (m x).map Vertex.setPermanent else m x := by
  rw [setTempDependToPermanentForSp, setTempDependToPermanentForSp, ← List.foldl_append]
  exact foldl_route (Option.map Vertex.setPermanent) hr x

lemma removeTemp_both {r' : List (Channel n)} (hr : (r ++ r').Nodup) (x : Channel n) :
    removeTempDependForSp r' (removeTempDependForSp r m) x =
      if x ∈ r ++ r' then (m x).bind Vertex.removeTemp else m x := by
  rw [removeTempDependForSp, removeTempDependForSp, ← List.foldl_append]
  exact foldl_route (fun v => v.bind Vertex.removeTemp) hr x

/-- A vertex that loses a use, and with it a count of the dependency on the next channel. -/
def Released (m : Lane n) (next : Option (Channel n)) (v w : Vertex n) : Prop :=
  w.addr = v.addr ∧ w.numUsingVertex = v.numUsingVertex - 1 ∧ (v.Settled → w.Settled) ∧
    ∀ c, v.Holds c → next.elim (w.Holds c) fun e =>
      0 < c (m.addr e) → w.Holds (Function.update c (m.addr e) (c (m.addr e) - 1))

lemma released_step {rest : List (Channel n)} {depend : ℕ} :
    (removeSemipermanentStep v m depend rest).1 = none ∧ v.numUsingVertex = 1 ∨
      v.numUsingVertex ≠ 1 ∧ ∃ w, (removeSemipermanentStep v m depend rest).1 = some w ∧
          Released m rest.head? v w := by
  rw [removeSemipermanentStep]
  split_ifs with hone
  · exact .inl ⟨rfl, hone⟩
  · refine .inr ⟨hone, ?_⟩
    cases hnext : rest.head? with
    | none => exact ⟨_, rfl, rfl, rfl, id, fun c hc => hc.congr (fun _ _ => rfl) rfl⟩
    | some e =>
      refine ⟨_, rfl, ?_, ?_, ?_, fun c hc hpos => ?_⟩
      · rw [Vertex.dropDep]
        split_ifs <;> rfl
      · rw [Vertex.dropDep]
        split_ifs <;> rfl
      · rintro ⟨htemp, hnum⟩
        rw [Vertex.dropDep]
        split_ifs <;> exact ⟨htemp, hnum⟩
      · have hheld : ({ v with numUsingVertex := v.numUsingVertex - 1 } : Vertex n).Holds c :=
            hc.congr (fun _ _ => rfl) rfl
        exact hheld.dropDep hpos depend

lemma removeSemipermanent_spec (hr : r.Nodup) (hm : ∀ e ∈ r, (m e).isSome) (depend : ℕ) :
    (∀ x ∉ r, removeSemipermanentDependForSp r depend m x = m x) ∧
    ∀ x ∈ r, ∀ v, m x = some v →
      removeSemipermanentDependForSp r depend m x = none ∧ v.numUsingVertex = 1 ∨
      v.numUsingVertex ≠ 1 ∧ ∃ w, removeSemipermanentDependForSp r depend m x = some w ∧
          Released m (after r x) v w := by
  induction r generalizing m depend with
  | nil => exact ⟨fun _ _ => rfl, fun _ h => absurd h List.not_mem_nil⟩
  | cons e rest ih =>
    rw [List.nodup_cons] at hr
    obtain ⟨v, hv⟩ := Option.isSome_iff_exists.mp (hm e List.mem_cons_self)
    have hother : ∀ o x, x ∈ rest → Function.update m e o x = m x := fun o x hx =>
      Function.update_of_ne (fun h : x = e => hr.1 (h ▸ hx)) _ _
    have hstep : removeSemipermanentDependForSp (e :: rest) depend m =
        removeSemipermanentDependForSp rest (removeSemipermanentStep v m depend rest).2
          (Function.update m e (removeSemipermanentStep v m depend rest).1) := by
      rw [removeSemipermanentDependForSp, hv]
      rfl
    obtain ⟨hoff, hon⟩ := @ih (Function.update m e (removeSemipermanentStep v m depend rest).1) hr.2
      (fun x hx => by rw [hother _ x hx]; exact hm x (List.mem_cons_of_mem e hx))
      (removeSemipermanentStep v m depend rest).2
    rw [hstep]
    refine ⟨fun x hx => ?_, fun x hx w hw => ?_⟩
    · rw [List.mem_cons, not_or] at hx
      rw [hoff x hx.2, Function.update_of_ne hx.1]
    · rcases List.mem_cons.mp hx with rfl | hrest
      · obtain rfl := Option.some.inj (hw.symm.trans hv)
        rw [hoff x hr.1, Function.update_self, after, if_pos rfl]
        exact released_step
      · have hne : x ≠ e := by
          rintro rfl
          exact hr.1 hrest
        rw [after, if_neg hne]
        rcases hon x hrest w ((hother _ x hrest).trans hw) with hnone | ⟨hone, u, hu, haddr, husing,
            hsettled, hheld⟩
        · exact .inl hnone
        · refine .inr ⟨hone, u, hu, haddr, husing, hsettled, fun c hc => ?_⟩
          have hheld := hheld c hc
          cases hafter : after rest x with
          | none =>
            rw [hafter] at hheld
            exact hheld
          | some e' =>
            rw [hafter, Option.elim_some, Lane.addr, hother _ e' (mem_of_after hafter).2] at hheld
            exact hheld

lemma removeSemipermanent_both {r' : List (Channel n)} (hr : (r ++ r').Nodup) (hm : ∀ e ∈ r ++ r', (m e).isSome) :
    (∀ x ∉ r ++ r', removeSemipermanentDependForSp r' 0 (removeSemipermanentDependForSp r 0 m) x = m x) ∧
    ∀ x ∈ r ++ r', ∀ v, m x = some v →
      removeSemipermanentDependForSp r' 0 (removeSemipermanentDependForSp r 0 m) x = none ∧ v.numUsingVertex = 1 ∨
      v.numUsingVertex ≠ 1 ∧ ∃ w,
          removeSemipermanentDependForSp r' 0 (removeSemipermanentDependForSp r 0 m) x = some w ∧
        Released m ((after r x).or (after r' x)) v w := by
  obtain ⟨hr₁, hr₂, hdisj⟩ := List.nodup_append'.mp hr
  obtain ⟨hoff₁, hon₁⟩ := removeSemipermanent_spec hr₁ (fun e he => hm e (List.mem_append_left _ he)) 0
  have hsame : ∀ x ∈ r', removeSemipermanentDependForSp r 0 m x = m x := fun x hx => hoff₁ x fun h => hdisj h hx
  obtain ⟨hoff₂, hon₂⟩ := @removeSemipermanent_spec n (removeSemipermanentDependForSp r 0 m) r' hr₂
    (fun e he => by rw [hsame e he]; exact hm e (List.mem_append_right _ he)) 0
  refine ⟨fun x hx => ?_, fun x hx v hv => ?_⟩
  · rw [List.mem_append, not_or] at hx
    rw [hoff₂ x hx.2, hoff₁ x hx.1]
  · by_cases hxr : x ∈ r
    · have hnot : x ∉ r' := fun h => hdisj hxr h
      have hnone : after r' x = none := Option.eq_none_iff_forall_ne_some.mpr fun y hy => hnot (mem_of_after hy).1
      rw [hoff₂ x hnot, hnone, Option.or_none]
      exact hon₁ x hxr v hv
    · have hxr' := (List.mem_append.mp hx).resolve_left hxr
      have hnone : after r x = none := Option.eq_none_iff_forall_ne_some.mpr fun y hy => hxr (mem_of_after hy).1
      rw [hnone, Option.none_or]
      rcases hon₂ x hxr' v ((hsame x hxr').trans hv) with h | ⟨hone, w, hw, haddr, hnum, hset, hheld⟩
      · exact .inl h
      · refine .inr ⟨hone, w, hw, haddr, hnum, hset, fun c hc => ?_⟩
        have hheld := hheld c hc
        cases hafter : after r' x with
        | none =>
          rw [hafter] at hheld
          exact hheld
        | some y =>
          rw [hafter, Option.elim_some, Lane.addr, hsame y (mem_of_after hafter).2] at hheld
          exact hheld

end Memory

end OpenSM.Lash
