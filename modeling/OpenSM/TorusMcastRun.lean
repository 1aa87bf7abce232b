import OpenSM.TorusMcastWalk
import OpenSM.Lib.Forest

/-! Multicast entries over any calls: they reach the members and no other end port, as long as no mark is left
behind and there is memory on the way to the members. -/

namespace OpenSM.Torus2QoS

open Lib

section Spec

variable (n : McastNet) (f : Coord → ℕ → Bool)

def Cable (x : Coord) (p : ℕ) (y : Coord) (q : ℕ) : Prop :=
  ∃ d s, ∃ e ∈ n.t.ptgrp x (Dim.grp d s), e.port = p ∧ e.farSw = y ∧ e.farPort = q

def Joined (x y : Coord) : Prop := ∃ p q, Cable n x p y q ∧ f x p = true ∧ f y q = true

structure Subtree : Prop where
  links : ∀ x p, f x p = true → p ∈ n.hostPorts x ∨
    ∃ y q, Cable n x p y q ∧ f y q = true ∧ (Parent n.st y x ∨ Parent n.st x y)
  single : ∀ x y p q p' q', Cable n x p y q → f x p = true → Cable n x p' y q' → f x p' = true → p = p'
  acyclic : (SimpleGraph.fromRel (Joined n f)).IsAcyclic
  connected : ∀ x y p q, f x p = true → f y q = true → Relation.ReflTransGen (Joined n f) x y

variable {n}

def McastCall.Serves (a : McastCall n) (c : Coord) (p : ℕ) : Prop := ∃ m ∈ a.mgb.ports,
    a.view.endpoint m = some (c, p)

/-- The walk comes to a switch that is not the torus's any more or does not support multicast, or to a port behind
which the torus's switch is not found any more. -/
def McastCall.Meets (a : McastCall n) : Prop :=
  ∃ x, Relation.ReflTransGen (Up n a.view a.mgb.mlid) x n.r ∧
    (a.view.priv x = false ∨ a.view.supportsMcast x = false ∨ a.view.Sound n x ∧
      ∃ g h y e, n.st.toTip x g = some (y, h) ∧ n.pick a.mgb.mlid x g = some e ∧ a.view.current x e.port = false)

structure McastCall.Right (a : McastCall n) (status : McastStatus) (f : Coord → ℕ → Bool) : Prop where
  only : ∀ c p, p ∈ n.hostPorts c → f c p = true → a.Serves c p
  all : status = .success → ¬a.Meets →
    Subtree n f ∧ ∀ m ∈ a.mgb.ports, ∃ c p, a.view.endpoint m = some (c, p) ∧ f c p = true

def McastRun.Right (w : McastRun n) : Prop :=
  ∀ mlid a status, w.last mlid = some (a, status) → a.Right status (w.s.mft mlid)

/-- No mark of another call is left at a switch that the walk gets to; and if the walk meets no bad switch, the
torus has all members, and memory for a node of each switch from these up to the root. -/
def Calm (w : McastRun n) (a : McastCall n) : Prop :=
  a.view.rootFound = true →
    (∀ c p, w.s.tmp c p = true → p ∈ n.hostPorts c → Walked n a.view a.mgb.mlid n.r c → a.Serves c p) ∧
    (¬a.Meets → ∀ m ∈ a.mgb.ports, ∃ c p, a.view.endpoint m = some (c, p) ∧
      ∀ y, Relation.ReflTransGen (Parent n.st) c y → a.view.memory y = true)

end Spec

section Cables

variable {n : McastNet} {v : McastView n} {mlid : ℕ} {a b c x y : Coord} {g p q : ℕ} {e : Endpoint}

lemma Cable.symm (h : Cable n x p y q) : Cable n y q x p := by
  obtain ⟨d, s, e, he, rfl, rfl, rfl⟩ := h
  cases s with
  | true =>
    obtain ⟨h1, h0, hsw, hmem⟩ := n.linked.pos x d e he
    refine ⟨d, false, ⟨e.link, true⟩, ?_, ?_, ?_, ?_⟩
    · rw [Endpoint.farSw, h1, if_neg Bool.false_ne_true, hsw]
      exact hmem
    · simp [Endpoint.port, Endpoint.farPort, h1]
    · simp [Endpoint.farSw, h0]
    · simp [Endpoint.port, Endpoint.farPort, h1]
  | false =>
    obtain ⟨h1, h0, hsw, hmem⟩ := n.linked.neg x d e he
    refine ⟨d, true, ⟨e.link, false⟩, ?_, ?_, ?_, ?_⟩
    · rw [Endpoint.farSw, h1, if_pos rfl, hsw]
      exact hmem
    · simp [Endpoint.port, Endpoint.farPort, h1]
    · simp [Endpoint.farSw, h0]
    · simp [Endpoint.port, Endpoint.farPort, h1]

lemma HopAt.cable (h : HopAt n v mlid a g e y) : Cable n a e.port y e.farPort := by
  obtain ⟨⟨k, hk⟩, hp, -⟩ := h
  obtain ⟨d, s, -, rfl, hstep, -⟩ := n.tree.edge _ _ _ _ ((n.tree.mirror ..).mpr hk)
  have he : e ∈ n.t.ptgrp a (d.grp s) := List.mem_of_getElem? hp
  exact ⟨d, s, e, he, rfl, by rw [farSw_eq n.linked he, hstep], rfl⟩

lemma Cable.not_host (h : Cable n x p y q) : p ∉ n.hostPorts x := by
  obtain ⟨d, s, e, he, rfl, -⟩ := h
  intro hp
  refine (List.nodup_append.mp (n.nodup x)).2.2 _ hp _ ?_ rfl
  exact List.mem_flatMap.mpr ⟨d.grp s, List.mem_range.mpr grp_lt, List.mem_map_of_mem he⟩

lemma Cable.unique {y' : Coord} {q' : ℕ} (h : Cable n x p y q) (h' : Cable n x p y' q') : y = y' := by
  obtain ⟨d, s, e, he, hp, rfl, -⟩ := h
  obtain ⟨d', s', e', he', hp', rfl, -⟩ := h'
  have hnodup := List.nodup_flatMap.mp (List.nodup_append.mp (n.nodup x)).2.1
  have hgrp : d.grp s = d'.grp s' := by
    by_contra hne
    have : Std.Symm (Function.onFun List.Disjoint fun g => (n.t.ptgrp x g).map Endpoint.port) :=
      ⟨fun _ _ h => h.symm⟩
    refine hnodup.2.forall (List.mem_range.mpr grp_lt) (List.mem_range.mpr grp_lt) hne (List.mem_map_of_mem he) ?_
    rw [hp, ← hp']
    exact List.mem_map_of_mem he'
  rw [farSw_eq n.linked he, farSw_eq n.linked he']
  obtain ⟨rfl, rfl⟩ := grp_inj hgrp
  rfl

end Cables

section Call

variable {n : McastNet} {v : McastView n} {mlid : ℕ} {a b c x y : Coord} {g p q : ℕ} {e : Endpoint}
  {tmp f : Coord → ℕ → Bool}

lemma entry_host (hp : p ∈ n.hostPorts x) : Entry n v mlid tmp c x p ↔ Walked n v mlid c x ∧ tmp x p = true := by
  constructor
  · rintro (⟨hw, -, hm⟩ | ⟨a, g, e, y, -, hop, -, ⟨rfl, rfl⟩ | ⟨rfl, rfl⟩⟩)
    · exact ⟨hw, hm⟩
    · exact absurd hp hop.cable.not_host
    · exact absurd hp hop.cable.symm.not_host
  · rintro ⟨hw, hm⟩
    exact .inl ⟨hw, hp, hm⟩

def Live (n : McastNet) (v : McastView n) (mlid : ℕ) (tmp : Coord → ℕ → Bool) (a : Coord)
    (e : Endpoint) (y : Coord) :
    Prop :=
  ∃ g, Walked n v mlid n.r a ∧ HopAt n v mlid a g e y ∧ Serves n v mlid tmp y

lemma joined_symm (h : Joined n f x y) : Joined n f y x := by
  obtain ⟨p, q, hc, hx, hy⟩ := h
  exact ⟨q, p, hc.symm, hy, hx⟩

lemma Live.unique {e' : Endpoint} (h : Live n v mlid tmp a e y) (h' : Live n v mlid tmp a e' y) : e = e' := by
  obtain ⟨g, -, hop, -⟩ := h
  obtain ⟨g', -, hop', -⟩ := h'
  obtain rfl := hop.grp_unique hop'
  exact (hop.unique hop').1

lemma Live.asymm {e' : Endpoint} (h : Live n v mlid tmp a e y) (h' : Live n v mlid tmp y e' a) : False := by
  obtain ⟨g, -, hop, -⟩ := h
  obtain ⟨g', -, hop', -⟩ := h'
  exact n.tree.acyclic a ((Relation.TransGen.single hop'.parent).tail hop.parent)

variable (hf : ∀ x p, f x p = true ↔ Entry n v mlid tmp n.r x p)

include hf

lemma Live.joined (h : Live n v mlid tmp a e y) : Joined n f a y := by
  obtain ⟨g, hw, hop, hy⟩ := h
  refine ⟨e.port, e.farPort, hop.cable, (hf ..).mpr ?_, (hf ..).mpr ?_⟩
  · exact .inr ⟨a, g, e, y, hw, hop, hy, .inl ⟨rfl, rfl⟩⟩
  · exact .inr ⟨a, g, e, y, hw, hop, hy, .inr ⟨rfl, rfl⟩⟩

lemma live_of_cable (hc : Cable n x p y q) (hx : f x p = true) :
    (∃ e, Live n v mlid tmp x e y ∧ p = e.port) ∨ ∃ e, Live n v mlid tmp y e x ∧ p = e.farPort := by
  rcases (hf x p).mp hx with ⟨-, hp, -⟩ | ⟨a, g, e, z, hw, hop, hz, ⟨rfl, rfl⟩ | ⟨rfl, rfl⟩⟩
  · exact absurd hp hc.not_host
  · obtain rfl := hc.unique hop.cable
    exact .inl ⟨e, ⟨g, hw, hop, hz⟩, rfl⟩
  · obtain rfl := hc.unique hop.cable.symm
    exact .inr ⟨e, ⟨g, hw, hop, hz⟩, rfl⟩

lemma joined_parent (h : Joined n f x y) : Parent n.st x y ∨ Parent n.st y x := by
  obtain ⟨p, q, hc, hx, -⟩ := h
  rcases live_of_cable hf hc hx with ⟨e, ⟨g, -, hop, -⟩, -⟩ | ⟨e, ⟨g, -, hop, -⟩, -⟩
  · exact .inr hop.parent
  · exact .inl hop.parent

lemma joined_root (hx : Relation.ReflTransGen (Up n v mlid) x n.r) (hs : Serves n v mlid tmp x) :
    Relation.ReflTransGen (Joined n f) x n.r := by
  induction hx using Relation.ReflTransGen.head_induction_on with
  | refl => exact .refl
  | head hxb hb ih =>
    obtain ⟨hsound, g, e, hop⟩ := hxb
    have hlive : Live n v mlid tmp _ e _ := ⟨g, ⟨hb, hsound⟩, hop, hs⟩
    have hserves := serves_iff.mpr ⟨hsound, .inr ⟨g, e, _, hop, hs⟩⟩
    exact (ih hserves).head (joined_symm (hlive.joined hf))

lemma entry_root (hx : f x p = true) : Relation.ReflTransGen (Joined n f) x n.r := by
  rcases (hf x p).mp hx with ⟨hw, hp, hm⟩ | ⟨a, g, e, y, hw, hop, hy, ⟨rfl, rfl⟩ | ⟨rfl, rfl⟩⟩
  · exact joined_root hf hw.1 ⟨x, p, ⟨.refl, hw.2⟩, hp, hm⟩
  · exact joined_root hf hw.1 (serves_iff.mpr ⟨hw.2, .inr ⟨g, e, y, hop, hy⟩⟩)
  · exact joined_root hf (hw.1.head ⟨hw.2, g, e, hop⟩) hy

lemma subtree : Subtree n f := by
  constructor
  case links =>
    intro x p hx
    rcases (hf x p).mp hx with ⟨-, hp, -⟩ | ⟨a, g, e, y, hw, hop, hy, hxp⟩
    · exact .inl hp
    · have hboth : ∀ z r, (z = a ∧ r = e.port ∨ z = y ∧ r = e.farPort) → f z r = true := fun z r h =>
        (hf z r).mpr (.inr ⟨a, g, e, y, hw, hop, hy, h⟩)
      rcases hxp with ⟨rfl, rfl⟩ | ⟨rfl, rfl⟩
      · exact .inr ⟨y, e.farPort, hop.cable, hboth _ _ (.inr ⟨rfl, rfl⟩), .inl hop.parent⟩
      · exact .inr ⟨a, e.port, hop.cable.symm, hboth _ _ (.inl ⟨rfl, rfl⟩), .inr hop.parent⟩
  case single =>
    intro x y p q p' q' hc hx hc' hx'
    rcases live_of_cable hf hc hx with ⟨e, hl, rfl⟩ | ⟨e, hl, rfl⟩
    · rcases live_of_cable hf hc' hx' with ⟨e', hl', rfl⟩ | ⟨e', hl', rfl⟩
      · rw [hl.unique hl']
      · exact (hl.asymm hl').elim
    · rcases live_of_cable hf hc' hx' with ⟨e', hl', rfl⟩ | ⟨e', hl', rfl⟩
      · exact (hl.asymm hl').elim
      · rw [hl.unique hl']
  case acyclic =>
    refine Forest.isAcyclic_of_irrefl (fun a b => Parent n.st b a) ?_ ?_ fun _ _ _ => parent_unique
    · rintro x y ⟨-, h | h⟩
      · exact (joined_parent hf h).symm
      · exact joined_parent hf h
    · intro x h
      exact n.tree.acyclic x (Relation.transGen_swap.mp h)
  case connected =>
    intro x y p q hx hy
    refine (entry_root hf hx).trans ?_
    have hsymm : Std.Symm (Joined n f) := ⟨fun _ _ => joined_symm⟩
    exact symm (entry_root hf hy)

end Call

section Walks

variable {n : McastNet} {a : McastCall n} {c y : Coord}

lemma pick_some {g h : ℕ} {x : Coord} (mlid : ℕ) (ht : n.st.toTip x g = some (y, h)) : ∃ e,
    n.pick mlid x g = some e := by
  obtain ⟨d, s, -, rfl, -, hne, -⟩ := n.tree.edge _ _ _ _ ((n.tree.mirror ..).mpr ht)
  have hlt : mlid % (n.t.ptgrp x (d.grp s)).length < (n.t.ptgrp x (d.grp s)).length :=
    Nat.mod_lt _ (List.length_pos_iff.mpr hne)
  exact ⟨_, List.getElem?_eq_getElem hlt⟩

lemma walked_of_memory (hm : ¬a.Meets) (hc : n.t.present c)
    (hmem : ∀ y, Relation.ReflTransGen (Parent n.st) c y → a.view.memory y = true) : Walked n a.view
        a.mgb.mlid n.r c := by
  have hsound : ∀ {x}, Relation.ReflTransGen (Up n a.view a.mgb.mlid) x n.r → a.view.memory x = true →
      a.view.Sound n x := by
    intro x hx hmx
    refine ⟨?_, ?_, hmx⟩
    · by_contra h
      exact hm ⟨x, hx, .inl (by simpa using h)⟩
    · by_contra h
      exact hm ⟨x, hx, .inr (.inl (by simpa using h))⟩
  have hup : Relation.ReflTransGen (Up n a.view a.mgb.mlid) c n.r := by
    have hpath := n.tree.path c hc
    induction hpath using Relation.ReflTransGen.head_induction_on with
    | refl => exact .refl
    | head hcb hb ih =>
      have hrest := ih (Parent.present_parent hcb) fun y hy => hmem y (.head hcb hy)
      have hb := hsound hrest (hmem _ (.single hcb))
      obtain ⟨k, g, hk⟩ := hcb
      have ht := (n.tree.mirror ..).mp hk
      obtain ⟨e, he⟩ := pick_some a.mgb.mlid ht
      refine .head ⟨hb, g, e, ⟨k, ht⟩, he, ?_⟩ hrest
      by_contra hcur
      exact hm ⟨_, hrest, .inr (.inr ⟨hb, g, k, _, e, ht, he, by simpa using hcur⟩)⟩
  exact ⟨hup, hsound hup (hmem c .refl)⟩

lemma Walked.memory {v : McastView n} {mlid : ℕ} (hw : Walked n v mlid n.r c)
    (hy : Relation.ReflTransGen (Parent n.st) c y) : v.memory y = true := by
  induction hy using Relation.ReflTransGen.head_induction_on with
  | refl => exact hw.2.2.2
  | head hcb hb ih =>
    rcases hw.1.cases_head with rfl | ⟨b, hup, hrest⟩
    · exact absurd rfl (Parent.present hcb).2
    · obtain rfl := parent_unique hcb hup.parent
      exact ih ⟨hrest, hup.1⟩

end Walks

section Steps

variable {n : McastNet} {a : McastCall n} {w w' : McastRun n} {c : Coord} {p : ℕ}

lemma foldl_markMember {v : McastView n} (ms : List ℕ) (s : McastSt) :
    (ms.foldl (markMember n v) s).mft = s.mft ∧
    ∀ x p, (ms.foldl (markMember n v) s).tmp x p = true ↔
      s.tmp x p = true ∨ ∃ m ∈ ms, v.endpoint m = some (x, p) := by
  induction ms generalizing s with
  | nil => simp
  | cons m ms ih =>
    rw [List.foldl_cons]
    refine ⟨(ih _).1.trans ?_, fun x p => ((ih _).2 x p).trans ?_⟩
    · rw [markMember]
      cases v.endpoint m <;> rfl
    · rw [markMember, List.exists_mem_cons_iff, ← or_assoc]
      refine or_congr_left ?_
      cases hm : v.endpoint m with
      | none => simp
      | some q =>
        dsimp only
        rw [mark_true, Option.some_inj, Prod.eq_iff_fst_eq_snd_eq, eq_comm (a := x), eq_comm (a := p)]

/-- The entries of its MLID after a call. -/
lemma processMlid_spec (h : processMlid n w a = some w') :
    ∃ status, w'.last = Function.update w.last a.mgb.mlid (some (a, status)) ∧
      (∀ l, l ≠ a.mgb.mlid → w'.s.mft l = w.s.mft l) ∧
      (status = .success ↔ a.view.rootFound = true) ∧
      (a.view.rootFound = false → ∀ x p, w'.s.mft a.mgb.mlid x p = false) ∧
      (a.view.rootFound = true → ∃ tmp : Coord → ℕ → Bool,
        (∀ x p, tmp x p = true ↔ w.s.tmp x p = true ∨ a.Serves x p) ∧
        ∀ x p, w'.s.mft a.mgb.mlid x p = true ↔ Entry n a.view a.mgb.mlid tmp n.r x p) := by
  obtain rfl := Option.some.inj h
  obtain ⟨hmft, htmp⟩ := foldl_markMember (v := a.view) a.mgb.ports (w.s.clear a.mgb.mlid)
  rw [torusMcastStree]
  generalize a.mgb.ports.foldl (markMember n a.view) (w.s.clear a.mgb.mlid) = s at hmft htmp ⊢
  have hclear : ∀ x p, s.mft a.mgb.mlid x p ≠ true := by
    intro x p hs
    rw [hmft, clear_mft] at hs
    exact hs.1 rfl
  have hother : ∀ l, l ≠ a.mgb.mlid → s.mft l = w.s.mft l := by
    intro l hl
    funext x p
    rw [hmft, Bool.eq_iff_iff, clear_mft, and_iff_right hl]
  cases hroot : a.view.rootFound with
  | false =>
    refine ⟨.error, rfl, hother, by simp, fun _ x p => ?_, by simp⟩
    simpa using hclear x p
  | true =>
    have hcol : Collects n a.view a.mgb.mlid n.r s
        (mcastStreeBranch n a.view a.mgb.mlid n.t.coords.length n.r s) :=
      collects List.nodup_nil (by simp) (by simp) n.tree.rooted.2.1 le_rfl s
    refine ⟨.success, rfl, fun l hl => ?_, by simp, by simp, fun _ => ⟨s.tmp, htmp, fun x p => ?_⟩⟩
    · funext x p
      have hent := hcol.entries l x p
      rw [or_iff_left fun h => hl h.1, hother l hl] at hent
      exact Bool.eq_iff_iff.mpr hent
    · have hent := hcol.entries a.mgb.mlid x p
      rwa [or_iff_right (hclear x p), and_iff_right rfl] at hent

/-- A call leaves what it should, just when it is calm. -/
lemma right_iff_calm (h : processMlid n w a = some w') :
    (∃ status, w'.last a.mgb.mlid = some (a, status) ∧ a.Right status (w'.s.mft a.mgb.mlid)) ↔ Calm w a := by
  obtain ⟨status, hlast, -, hstatus, hnone, hsome⟩ := processMlid_spec h
  have hthe : (∃ status, w'.last a.mgb.mlid = some (a, status) ∧ a.Right status (w'.s.mft a.mgb.mlid)) ↔
      a.Right status (w'.s.mft a.mgb.mlid) := by
    rw [hlast, Function.update_self]
    constructor
    · rintro ⟨status', heq, hr⟩
      obtain ⟨-, rfl⟩ := Prod.mk.inj (Option.some.inj heq)
      exact hr
    · exact fun hr => ⟨status, rfl, hr⟩
  rw [hthe]
  cases hroot : a.view.rootFound with
  | false =>
    refine iff_of_true ⟨fun c p _ hc => ?_, fun hs => ?_⟩ fun h => ?_
    · rw [hnone hroot] at hc
      cases hc
    · rw [hstatus.mp hs] at hroot
      cases hroot
    · rw [hroot] at h
      cases h
  | true =>
    obtain ⟨tmp, htmp, hent⟩ := hsome hroot
    have hhost : ∀ {x p}, p ∈ n.hostPorts x → (w'.s.mft a.mgb.mlid x p = true ↔
        Walked n a.view a.mgb.mlid n.r x ∧ (w.s.tmp x p = true ∨ a.Serves x p)) := fun hp => by
      rw [hent, entry_host hp, htmp]
    constructor
    · rintro ⟨honly, hall⟩ -
      refine ⟨fun c p hm hp hw => honly c p hp ((hhost hp).mpr ⟨hw, .inl hm⟩), fun hmeets m hmem => ?_⟩
      obtain ⟨c, p, hep, hset⟩ := (hall (hstatus.mpr hroot) hmeets).2 m hmem
      have hw := ((hhost (a.view.isHost m c p hep)).mp hset).1
      exact ⟨c, p, hep, fun y hy => hw.memory hy⟩
    · intro hcalm
      obtain ⟨hleft, hmemory⟩ := hcalm hroot
      constructor
      case only =>
        intro c p hp hset
        obtain ⟨hw, hm | hm⟩ := (hhost hp).mp hset
        · exact hleft c p hm hp hw
        · exact hm
      case all =>
        intro _ hmeets
        refine ⟨subtree hent, fun m hm => ?_⟩
        obtain ⟨c, p, hep, hmem⟩ := hmemory hmeets m hm
        have hp := a.view.isHost m c p hep
        exact ⟨c, p, hep, (hhost hp).mpr ⟨walked_of_memory hmeets (n.present c p hp) hmem, .inr ⟨m, hm, hep⟩⟩⟩

lemma step_right (hw : w.Right) (h : processMlid n w a = some w') : w'.Right ↔ Calm w a := by
  rw [← right_iff_calm h]
  obtain ⟨status, hlast, hother, -⟩ := processMlid_spec h
  constructor
  · intro hw'
    have hself : w'.last a.mgb.mlid = some (a, status) := by rw [hlast, Function.update_self]
    exact ⟨status, hself, hw' _ _ _ hself⟩
  · rintro ⟨status', hself, hr⟩ mlid a' st' hl
    by_cases hm : mlid = a.mgb.mlid
    · rw [hm, hself] at hl
      obtain ⟨rfl, rfl⟩ := Prod.mk.inj (Option.some.inj hl)
      rwa [hm]
    · rw [hlast, Function.update_of_ne hm] at hl
      rw [hother mlid hm]
      exact hw mlid a' st' hl

end Steps

/-- Every call of a run, of any groups under any circumstances, leaves for its MLID a part of the master tree that
connects the members and no other end port is set, just when every call is calm. -/
theorem run_right {n : McastNet} {mft : ℕ → Coord → ℕ → Bool} {l : List (McastRun n × McastCall n)}
    {w : McastRun n}
    (h : Runs.Run (processMlid n) (McastRun.init n mft) l w) :
    (∀ x ∈ l, x.1.Right) ∧ w.Right ↔ ∀ x ∈ l, Calm x.1 x.2 :=
  h.always_iff (fun _ _ _ hl => by cases hl) fun _ _ _ hp ha => step_right hp ha

section Pair

def pairTorus : Torus := grid (coord 2 1 1) (fun _ => true) fun _ => false

lemma pair_coords : pairTorus.coords = [coord 0 0 0, coord 1 0 0] := by decide

lemma mem_pair {c : Coord} (h : pairTorus.present c) : c = coord 0 0 0 ∨ c = coord 1 0 0 := by
  have hmem := mem_coords.mpr (present_lt h)
  rw [pair_coords] at hmem
  simpa using hmem

def pairHosts (c : Coord) : List ℕ := if pairTorus.present c then [0, 7] else []

lemma pair_nodup (c : Coord) :
    (pairHosts c ++ (List.range 6).flatMap fun g => (pairTorus.ptgrp c g).map Endpoint.port).Nodup := by
  by_cases h : pairTorus.present c
  · rcases mem_pair h with rfl | rfl <;> decide
  · have hnone : ∀ g, pairTorus.ptgrp c g = [] := fun g => by_contra fun hne => h (ptgrp_ne_nil hne)
    have hempty : ((List.range 6).flatMap fun g => (pairTorus.ptgrp c g).map Endpoint.port) = [] :=
      List.flatMap_eq_nil_iff.mpr fun g _ => by rw [hnone, List.map_nil]
    rw [hempty, pairHosts, if_neg h]
    exact List.nodup_nil

lemma pair_present (c : Coord) (p : ℕ) (h : p ∈ pairHosts c) : pairTorus.present c := by
  by_contra hno
  simp [pairHosts, hno] at h

lemma pair_tree : SpanningTree pairTorus (torusMasterStree pairTorus).2 (coord 1 0 0) := by
  have hfind : findStreeRoot pairTorus = some (coord 1 0 0) := by decide
  exact (torusMasterStree_spec grid_linked (by decide) (by decide) hfind).2

def pairNet : McastNet where
  t := pairTorus
  st := (torusMasterStree pairTorus).2
  r := coord 1 0 0
  hostPorts := pairHosts
  linked := grid_linked
  tree := pair_tree
  present := pair_present
  nodup := pair_nodup

def pairEndpoint (m : ℕ) : Option (Coord × ℕ) :=
  if m = 0 then some (coord 0 0 0, 7) else if m = 1 then some (coord 1 0 0, 7) else none

lemma pair_isHost (m : ℕ) (c : Coord) (p : ℕ) (h : pairEndpoint m = some (c, p)) : p ∈ pairHosts c := by
  rw [pairEndpoint] at h
  split_ifs at h
  · obtain ⟨rfl, rfl⟩ := Prod.mk.inj (Option.some.inj h)
    decide
  · obtain ⟨rfl, rfl⟩ := Prod.mk.inj (Option.some.inj h)
    decide

def pairView (memory : Coord → Bool) : McastView pairNet where
  endpoint := pairEndpoint
  rootFound := true
  priv := fun _ => true
  supportsMcast := fun _ => true
  memory := memory
  current := fun _ _ => true
  isHost := pair_isHost

/-- Both CAs in a group. -/
theorem run_right_pair : ∃ l w, Runs.Run (processMlid pairNet) (McastRun.init pairNet fun _ _ _ => false) l w ∧
    l.length = 1 ∧ w.Right := by
  have hnil : Runs.Run (processMlid pairNet) (McastRun.init pairNet fun _ _ _ => false) [] _ := .nil
  have hrun := hnil.snoc (a := ⟨pairView fun _ => true, ⟨0xC000, [[0, 1]]⟩⟩) rfl
  refine ⟨_, _, hrun, rfl, ((run_right hrun).mpr ?_).2⟩
  intro x hx
  obtain rfl := List.mem_singleton.mp hx
  refine fun _ => ⟨fun c p h => (by cases h), fun _ m hm => ?_⟩
  have hm : m = 0 ∨ m = 1 := by simpa [MgrpBox.ports] using hm
  rcases hm with rfl | rfl
  · exact ⟨_, _, rfl, fun _ _ => rfl⟩
  · exact ⟨_, _, rfl, fun _ _ => rfl⟩

/-- There is no memory for the switch of a member, whose mark then stays for the group that comes next. -/
theorem mcast_left_mark : ¬∀ (n : McastNet) (mft : ℕ → Coord → ℕ → Bool) (l : List (McastRun n × McastCall n))
    (w : McastRun n), Runs.Run (processMlid n) (McastRun.init n mft) l w → (∀ x ∈ l, x.1.Right) ∧ w.Right := by
  intro h
  have hnil : Runs.Run (processMlid pairNet) (McastRun.init pairNet fun _ _ _ => false) [] _ := .nil
  have hfirst := hnil.snoc (a := ⟨pairView fun c => decide (c = coord 1 0 0), ⟨0xC000, [[0]]⟩⟩) rfl
  have hrun := hfirst.snoc (a := ⟨pairView fun _ => true, ⟨0xC001, [[1]]⟩⟩) rfl
  have hright := (h _ _ _ _ hrun).2 0xC001 ⟨pairView fun _ => true, ⟨0xC001, [[1]]⟩⟩ .success rfl
  obtain ⟨m, hm, hep⟩ := hright.only (coord 0 0 0) 7 (by decide +kernel) (by decide +kernel)
  have hm : m = 1 := by simpa [MgrpBox.ports] using hm
  have hne : pairEndpoint m ≠ some (coord 0 0 0, 7) := by
    rw [hm]
    decide +kernel
  exact hne hep

end Pair

end OpenSM.Torus2QoS
