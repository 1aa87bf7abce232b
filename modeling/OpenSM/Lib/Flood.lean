import Mathlib

/-! Flooding over a tree: every vertex passes a packet on to all of its ports but the one it came from. -/

namespace OpenSM.Lib.Flood

variable {V E : Type*}

/-- The ports that a packet is passed on to, and what is behind a port: another port, or an end of the network. -/
structure Net (V E : Type*) where
  ports : V → List ℕ
  far : V → ℕ → Option (V × ℕ ⊕ E)

/-- The ends that get a packet that arrives at `v` over port `p`, one entry for each copy; nothing comes back when
some copy is still on its way after so many hops. -/
def flood (N : Net V E) : ℕ → V → ℕ → Option (List E)
  | 0, _, _ => none
  | k + 1, v, p =>
    (((N.ports v).filter fun p' => p' ≠ p).mapM fun p' =>
      match N.far v p' with
      | some (.inl (r, q)) => flood N k r q
      | some (.inr e) => some [e]
      | none => some []).map List.flatten

/-- The ports lead over the edges of a graph without cycles, one port to an edge, and every end is behind one
port. -/
structure IsTree (N : Net V E) (G : SimpleGraph V) : Prop where
  nodup : ∀ v, (N.ports v).Nodup
  adj : ∀ v p r q, p ∈ N.ports v → N.far v p = some (.inl (r, q)) → G.Adj v r
  port : ∀ v r, G.Adj v r → ∃ p q, p ∈ N.ports v ∧ N.far v p = some (.inl (r, q))
  back : ∀ v p r q, p ∈ N.ports v → N.far v p = some (.inl (r, q)) → q ∈ N.ports r ∧ N.far r q = some (.inl (v, p))
  single : ∀ v p p' r q q', p ∈ N.ports v → p' ∈ N.ports v → N.far v p = some (.inl (r, q)) →
    N.far v p' = some (.inl (r, q')) → p = p'
  acyclic : G.IsAcyclic
  owner : ∀ v p v' p' e, N.far v p = some (.inr e) → N.far v' p' = some (.inr e) → v = v' ∧ p = p'

def Beyond (N : Net V E) (G : SimpleGraph V) (v : V) (p : ℕ) (t : V) : Prop :=
  ∃ w : G.Walk v t, w.IsPath ∧ ∀ r q, N.far v p = some (.inl (r, q)) → r ∉ w.support

def Gets (N : Net V E) (G : SimpleGraph V) (v : V) (p : ℕ) (e : E) : Prop :=
  ∃ t q, Beyond N G v p t ∧ q ∈ N.ports t ∧ N.far t q = some (.inr e) ∧ ¬(t = v ∧ q = p)

section Collect

variable {α : Type*} {Q : α → E → Prop} {f : α → Option (List E)}

lemma mapM_flatten {l : List α} (hl : l.Nodup) (hf : ∀ x ∈ l, ∃ es, f x = some es ∧ es.Nodup ∧ ∀ e, e ∈ es ↔ Q x e)
    (hQ : ∀ x ∈ l, ∀ y ∈ l, ∀ e, Q x e → Q y e → x = y) :
    ∃ es, (l.mapM f).map List.flatten = some es ∧ es.Nodup ∧ ∀ e, e ∈ es ↔ ∃ x ∈ l, Q x e := by
  induction l with
  | nil => exact ⟨[], rfl, List.nodup_nil, fun e => by simp⟩
  | cons x l ih =>
    obtain ⟨hx, hl⟩ := List.nodup_cons.mp hl
    obtain ⟨ex, hfx, hndx, hmemx⟩ := hf x List.mem_cons_self
    obtain ⟨es, hes, hnd, hmem⟩ := ih hl (fun y hy => hf y (List.mem_cons_of_mem x hy)) fun y hy z hz =>
      hQ y (List.mem_cons_of_mem x hy) z (List.mem_cons_of_mem x hz)
    obtain ⟨ls, hls, rfl⟩ := Option.map_eq_some_iff.mp hes
    refine ⟨ex ++ ls.flatten, ?_, List.nodup_append.mpr ⟨hndx, hnd, ?_⟩, fun e => ?_⟩
    · simp [List.mapM_cons, hfx, hls]
    · rintro e he e' he' rfl
      obtain ⟨y, hy, hye⟩ := (hmem e).mp he'
      have hxy := hQ x List.mem_cons_self y (List.mem_cons_of_mem x hy) e ((hmemx e).mp he) hye
      exact hx (hxy ▸ hy)
    · rw [List.mem_append, hmemx, hmem, List.exists_mem_cons_iff]

end Collect

section Tree

variable {N : Net V E} {G : SimpleGraph V} (T : IsTree N G) {v r t : V} {p p' q : ℕ} {e : E}

include T

lemma IsTree.beyond_self (hp : ∀ r q, N.far v p = some (.inl (r, q)) → p ∈ N.ports v) : Beyond N G v p v := by
  refine ⟨.nil, .nil, fun r q h => ?_⟩
  rw [SimpleGraph.Walk.support_nil, List.mem_singleton]
  exact (T.adj v p r q (hp r q h) h).ne'

lemma IsTree.beyond_cons (hp : ∀ r q, N.far v p = some (.inl (r, q)) → p ∈ N.ports v) (hp' : p' ∈ N.ports v)
    (hne : p' ≠ p) (hr : N.far v p' = some (.inl (r, q))) (h : Beyond N G r q t) : Beyond N G v p t ∧ t ≠ v := by
  obtain ⟨w, hw, hout⟩ := h
  have hadj := T.adj v p' r q hp' hr
  have hv : v ∉ w.support := hout v p' (T.back v p' r q hp' hr).2
  refine ⟨⟨.cons hadj w, hw.cons hv, fun r₀ q₀ h₀ => ?_⟩, fun htv => hv (htv ▸ w.end_mem_support)⟩
  rw [SimpleGraph.Walk.support_cons, List.mem_cons, not_or]
  have hadj₀ := T.adj v p r₀ q₀ (hp r₀ q₀ h₀) h₀
  refine ⟨hadj₀.ne', fun hmem => ?_⟩
  classical
  -- otherwise two paths lead from `v` to `r₀`
  have hshort : (SimpleGraph.Walk.cons hadj₀ .nil).IsPath := by simp [hadj₀.ne]
  have hlong : (SimpleGraph.Walk.cons hadj (w.takeUntil r₀ hmem)).IsPath :=
    (hw.takeUntil hmem).cons fun hin => hv (w.support_takeUntil_subset_support hmem hin)
  have heq := congrArg Subtype.val ((T.acyclic.subsingleton_path v r₀).elim ⟨_, hshort⟩ ⟨_, hlong⟩)
  have hsupp := congrArg SimpleGraph.Walk.support heq
  rw [SimpleGraph.Walk.support_cons, SimpleGraph.Walk.support_cons, SimpleGraph.Walk.support_nil,
    ← SimpleGraph.Walk.cons_tail_support (w.takeUntil r₀ hmem)] at hsupp
  obtain rfl : r₀ = r := (List.cons.inj (List.cons.inj hsupp).2).1
  exact hne (T.single v p' p r₀ q q₀ hp' (hp r₀ q₀ h₀) hr h₀)

lemma IsTree.beyond_cases (h : Beyond N G v p t) : t = v ∨
    ∃ p' ∈ N.ports v, p' ≠ p ∧ ∃ r q, N.far v p' = some (.inl (r, q)) ∧ Beyond N G r q t := by
  obtain ⟨w, hw, hout⟩ := h
  cases w with
  | nil => exact .inl rfl
  | @cons _ r _ hadj w =>
    right
    rw [SimpleGraph.Walk.cons_isPath_iff] at hw
    obtain ⟨p', q, hp', hr⟩ := T.port v r hadj
    refine ⟨p', hp', ?_, r, q, hr, w, hw.1, fun r₀ q₀ h₀ => ?_⟩
    · rintro rfl
      exact hout r q hr (by simp)
    · rw [(T.back v p' r q hp' hr).2] at h₀
      cases h₀
      exact hw.2

lemma IsTree.port_unique {r' : V} {q' : ℕ} (hp : p ∈ N.ports v) (hp' : p' ∈ N.ports v)
    (hr : N.far v p = some (.inl (r, q))) (hr' : N.far v p' = some (.inl (r', q'))) (h : Beyond N G r q t)
    (h' : Beyond N G r' q' t) : p = p' := by
  obtain ⟨w, hw, hout⟩ := h
  obtain ⟨w', hw', hout'⟩ := h'
  have hpath := hw.cons (h := T.adj v p r q hp hr) (hout v p (T.back v p r q hp hr).2)
  have hpath' := hw'.cons (h := T.adj v p' r' q' hp' hr') (hout' v p' (T.back v p' r' q' hp' hr').2)
  have hsupp := congrArg SimpleGraph.Walk.support
    (congrArg Subtype.val ((T.acyclic.subsingleton_path v t).elim ⟨_, hpath⟩ ⟨_, hpath'⟩))
  rw [SimpleGraph.Walk.support_cons, SimpleGraph.Walk.support_cons, ← SimpleGraph.Walk.cons_tail_support w,
    ← SimpleGraph.Walk.cons_tail_support w'] at hsupp
  obtain rfl : r = r' := (List.cons.inj (List.cons.inj hsupp).2).1
  exact T.single v p p' r q q' hp hp' hr hr'

lemma IsTree.gets_iff (hp : ∀ r q, N.far v p = some (.inl (r, q)) → p ∈ N.ports v) : Gets N G v p e ↔
    ∃ p' ∈ (N.ports v).filter (fun p' => p' ≠ p), N.far v p' = some (.inr e) ∨
      ∃ r q, N.far v p' = some (.inl (r, q)) ∧ Gets N G r q e := by
  simp only [List.mem_filter, decide_eq_true_eq]
  constructor
  · rintro ⟨t, x, ht, hx, he, hne⟩
    rcases T.beyond_cases ht with rfl | ⟨p', hp', hpp, r, q, hr, ht'⟩
    · exact ⟨x, ⟨hx, fun heq => hne ⟨rfl, heq⟩⟩, .inl he⟩
    · refine ⟨p', ⟨hp', hpp⟩, .inr ⟨r, q, hr, t, x, ht', hx, he, ?_⟩⟩
      rintro ⟨rfl, rfl⟩
      rw [(T.back v p' t x hp' hr).2] at he
      cases he
  · rintro ⟨p', ⟨hp', hpp⟩, he | ⟨r, q, hr, t, x, ht, hx, he, hne⟩⟩
    · exact ⟨v, p', T.beyond_self hp, hp', he, fun h => hpp h.2⟩
    · obtain ⟨hb, htv⟩ := T.beyond_cons hp hp' hpp hr ht
      exact ⟨t, x, hb, hx, he, fun h => htv h.1⟩

lemma IsTree.not_beyond_self (hp : p ∈ N.ports v) (hr : N.far v p = some (.inl (r, q))) :
    ¬Beyond N G r q v := by
  rintro ⟨w, -, hout⟩
  exact hout v p (T.back v p r q hp hr).2 w.end_mem_support

/-- A packet on a tree comes to an end, with one copy for each of the other ends. -/
lemma IsTree.flood_spec [Finite V] (k : ℕ) (v : V) (p : ℕ)
    (hp : ∀ r q, N.far v p = some (.inl (r, q)) → p ∈ N.ports v) (hk : {t | Beyond N G v p t}.ncard ≤ k) :
    ∃ es, flood N k v p = some es ∧ es.Nodup ∧ ∀ e, e ∈ es ↔ Gets N G v p e := by
  induction k generalizing v p with
  | zero =>
    have hself : v ∈ {t | Beyond N G v p t} := T.beyond_self hp
    rw [Nat.le_zero, Set.ncard_eq_zero] at hk
    rw [hk] at hself
    exact absurd hself (Set.notMem_empty v)
  | succ k ih =>
    simp only [T.gets_iff hp]
    rw [flood]
    apply mapM_flatten (Q := fun p' e => N.far v p' = some (.inr e) ∨
      ∃ r q, N.far v p' = some (.inl (r, q)) ∧ Gets N G r q e) ((T.nodup v).filter _)
    · intro p' hp'
      obtain ⟨hp', hpp⟩ := List.mem_filter.mp hp'
      have hpp : p' ≠ p := of_decide_eq_true hpp
      rcases hfar : N.far v p' with _ | ⟨⟨r, q⟩⟩ | e
      · exact ⟨[], rfl, List.nodup_nil, fun e => by simp⟩
      · have hback := T.back v p' r q hp' hfar
        obtain ⟨es, hes, hnd, hmem⟩ := ih r q (fun _ _ _ => hback.1) <| by
          -- the vertices behind the port are fewer by `v`
          have hlt : {t | Beyond N G r q t}.ncard < {t | Beyond N G v p t}.ncard := by
            refine Set.ncard_lt_ncard ⟨fun t ht => (T.beyond_cons hp hp' hpp hfar ht).1, fun hsub => ?_⟩
            exact (T.beyond_cons hp hp' hpp hfar (hsub (T.beyond_self hp))).2 rfl
          omega
        refine ⟨es, hes, hnd, fun e => (hmem e).trans ?_⟩
        simp
      · exact ⟨[e], rfl, List.nodup_singleton e, fun e' => by simp [eq_comm]⟩
    · intro x hx y hy e hex hey
      have hx := List.mem_of_mem_filter hx
      have hy := List.mem_of_mem_filter hy
      rcases hex with hex | ⟨r, q, hr, t, z, ht, hz, he, -⟩
      · rcases hey with hey | ⟨r, q, hr, t, z, ht, hz, he, -⟩
        · exact (T.owner v x v y e hex hey).2
        · obtain ⟨rfl, -⟩ := T.owner v x t z e hex he
          exact absurd ht (T.not_beyond_self hy hr)
      · rcases hey with hey | ⟨r', q', hr', t', z', ht', hz', he', -⟩
        · obtain ⟨rfl, -⟩ := T.owner v y t z e hey he
          exact absurd ht (T.not_beyond_self hx hr)
        · obtain ⟨rfl, -⟩ := T.owner t z t' z' e he he'
          exact T.port_unique hx hy hr hr' ht ht'

lemma IsTree.flood_of_end [Finite V] {k : ℕ} {e₀ : E} (he₀ : N.far v p = some (.inr e₀)) (hk : Nat.card V ≤ k) :
    ∃ es, flood N k v p = some es ∧ es.Nodup ∧
      ∀ e, e ∈ es ↔ e ≠ e₀ ∧ ∃ t q, G.Reachable v t ∧ q ∈ N.ports t ∧ N.far t q = some (.inr e) := by
  have hp : ∀ r q, N.far v p ≠ some (.inl (r, q)) := fun r q h => by
    rw [he₀] at h
    cases h
  have hcard : {t | Beyond N G v p t}.ncard ≤ Nat.card V := by
    rw [← Set.ncard_univ]
    exact Set.ncard_le_ncard (Set.subset_univ _)
  obtain ⟨es, hes, hnd, hmem⟩ := T.flood_spec k v p (fun r q h => absurd h (hp r q)) (hcard.trans hk)
  refine ⟨es, hes, hnd, fun e => (hmem e).trans ?_⟩
  constructor
  · rintro ⟨t, q, ⟨w, -, -⟩, hq, he, hne⟩
    refine ⟨?_, t, q, w.reachable, hq, he⟩
    rintro rfl
    obtain ⟨rfl, rfl⟩ := T.owner t q v p e he he₀
    exact hne ⟨rfl, rfl⟩
  · rintro ⟨hne, t, q, hreach, hq, he⟩
    obtain ⟨w, hw⟩ := hreach.exists_isPath
    refine ⟨t, q, ⟨w, hw, fun r q h => absurd h (hp r q)⟩, hq, he, ?_⟩
    rintro ⟨rfl, rfl⟩
    rw [he₀] at he
    cases he
    exact hne rfl

end Tree

end OpenSM.Lib.Flood
