import OpenSM.ClMapSpec

/-! Insertion: the search for the place, the new leaf, and the state after it. -/

namespace OpenSM.ClMap

open Lib.RedBlack Lib.PtrTree Lib.Ring ColorTree

variable {α κ : Type} [LinearOrder κ] {m : QMap α κ} {t : ColorTree α} {k : κ}
  {ctx : List (Frame α)} {q p : Ptr α} {a : α}

structure Slot (m : QMap α κ) (k : κ) (ctx : List (Frame α)) : Prop where
  before_lt : ∀ b ∈ before ctx, m.key (.item b) < k
  lt_after : ∀ b ∈ after ctx, k < m.key (.item b)

lemma Slot.left {c : Color} {r : ColorTree α} (hs : Slot m k ctx) (hk : k < m.key (.item a))
    (hr : ∀ b ∈ r.toList, m.key (.item a) < m.key (.item b)) :
    Slot m k (⟨.left, c, a, r⟩ :: ctx) := by
  refine ⟨hs.before_lt, ?_⟩
  simp only [after, List.cons_append, List.mem_cons, List.mem_append]
  rintro b (rfl | hb | hb)
  · exact hk
  · exact hk.trans (hr b hb)
  · exact hs.lt_after b hb

lemma Slot.right {c : Color} {l : ColorTree α} (hs : Slot m k ctx) (hk : m.key (.item a) < k)
    (hl : ∀ b ∈ l.toList, m.key (.item b) < m.key (.item a)) :
    Slot m k (⟨.right, c, a, l⟩ :: ctx) := by
  refine ⟨?_, hs.lt_after⟩
  simp only [before, List.mem_append, List.mem_singleton]
  rintro b (hb | hb | rfl)
  · exact hs.before_lt b hb
  · exact (hl b hb).trans hk
  · exact hk

lemma Slot.pairwise (hs : Slot m k ctx) (ha : m.key (.item a) = k)
    (hp : (before ctx ++ after ctx).Pairwise fun a b => m.key (.item a) < m.key (.item b)) :
    (before ctx ++ a :: after ctx).Pairwise fun a b => m.key (.item a) < m.key (.item b) := by
  rw [List.pairwise_append] at hp ⊢
  refine ⟨hp.1, List.pairwise_cons.mpr ⟨fun b hb => ha ▸ hs.lt_after b hb, hp.2.1⟩, ?_⟩
  intro b hb e he
  rcases List.mem_cons.mp he with rfl | he
  · exact ha ▸ hs.before_lt b hb
  · exact hp.2.2 b hb e he

lemma Slot.models_none {f : κ → Option α} (hs : Slot m k ctx) (hf : Models m t f)
    (hl : before ctx ++ after ctx = t.toList) : f k = none := by
  by_contra hne
  obtain ⟨b, hb⟩ := Option.ne_none_iff_exists'.mp hne
  obtain ⟨hb, hk⟩ := (hf k b).mp hb
  rw [← hl] at hb
  rcases List.mem_append.mp hb with hb | hb
  · exact (hs.before_lt b hb).ne hk
  · exact (hs.lt_after b hb).ne' hk

variable [DecidableEq α]

lemma insertAt_spec (fuel : ℕ) (hf : Focus m.toStore ctx q p t)
    (hs : t.toList.Pairwise fun a b => m.key (.item a) < m.key (.item b))
    (hslot : Slot m k ctx) (hfuel : t.toList.length < fuel) :
    (∃ a ∈ t.toList, m.key (.item a) = k ∧ insertAt m k fuel q p = some (.item a, true)) ∨
      ∃ ctx' q', insertAt m k fuel q p = some (q', false) ∧
        Focus m.toStore ctx' q' .nil .nil ∧ plug ctx' .nil = plug ctx t ∧ Slot m k ctx' := by
  induction t generalizing ctx q p fuel with
  | nil =>
    obtain rfl : p = .nil := hf.rep
    obtain ⟨fuel, rfl⟩ : ∃ n, fuel = n + 1 := ⟨fuel - 1, by omega⟩
    exact .inr ⟨ctx, q, by simp [insertAt], hf, rfl, hslot⟩
  | node c l a r ihl ihr =>
    obtain ⟨rfl, -⟩ := hf.rep
    obtain ⟨hsl, hsr, hla, har, -⟩ := pairwise_node.mp hs
    simp only [toList, List.length_append, List.length_cons] at hfuel
    obtain ⟨fuel, rfl⟩ : ∃ n, fuel = n + 1 := ⟨fuel - 1, by omega⟩
    simp only [insertAt, reduceCtorEq, if_false, toList, List.mem_append, List.mem_cons]
    rcases lt_trichotomy k (m.key (.item a)) with hk | hk | hk
    · rw [if_neg hk.ne, if_pos hk]
      refine (ihl fuel (Focus.down (d := .left) hf) hsl (hslot.left hk har) (by omega)).imp ?_ id
      rintro ⟨b, hb, h⟩
      exact ⟨b, .inl hb, h⟩
    · rw [if_pos hk]
      exact .inl ⟨a, by simp, hk.symm, rfl⟩
    · rw [if_neg hk.ne', if_neg hk.not_gt]
      refine (ihr fuel (Focus.down (d := .right) hf) hsr (hslot.right hk hla) (by omega)).imp ?_ id
      rintro ⟨b, hb, h⟩
      exact ⟨b, .inr (.inr hb), h⟩

section Prepare

omit [LinearOrder κ] in
lemma prepare_key_of_ne {b : α} (hb : b ≠ a) :
    (prepare m k (.item a)).key (.item b) = m.key (.item b) := by
  simp [prepare, hb]

lemma Holds.prepare (hm : Holds m t) (ha : a ∉ t.toList) : Holds (prepare m k (.item a)) t := by
  have hne : ∀ b ∈ t.toList, b ≠ a := by
    rintro b hb rfl
    exact ha hb
  have hfocus : Focus (ClMap.prepare m k (.item a)).toStore [] .root (m.kid .left .root) t := by
    refine ⟨⟨rfl, by simp [ClMap.prepare]⟩, hm.focus.rep.congr ?_ ?_ ?_, hm.focus.nodup⟩
    · intro b hb d
      simp [ClMap.prepare, hne b hb]
    · intro b hb
      simp [ClMap.prepare, hne b hb]
    · exact fun _ _ => rfl
  refine ⟨?_, hm.bal, hm.noRed, hm.black, hm.sentinels.setColor, ?_, hm.linked, hm.count⟩
  · rwa [← hfocus.frames.2] at hfocus
  · refine hm.sorted.imp_of_mem ?_
    intro b e hb he hbe
    rwa [prepare_key_of_ne (hne b hb), prepare_key_of_ne (hne e he)]

omit [LinearOrder κ] in
lemma Models.prepare {f : κ → Option α} (hf : Models m t f) (ha : a ∉ t.toList) :
    Models (prepare m k (.item a)) t f := by
  intro k' b
  rw [hf k' b]
  refine and_congr_right fun hb => ?_
  rw [prepare_key_of_ne (by rintro rfl; exact ha hb)]

end Prepare

section Link

/-- The list cell that the new item is put in front of. -/
lemma link_eq (hf : Focus m.toStore ctx q .nil .nil) (hs : Slot m k ctx)
    (hl : Linked m.next m.prev .nil ((before ctx ++ after ctx).map Ptr.item)) :
    ∃ y, ((after ctx).map Ptr.item ++ [Ptr.nil]).head? = some y ∧
      link m k q p = { primitiveInsert
        { m with toStore := m.toStore.setKid (ctxSide ctx) q p } y p with
          toStore := (m.toStore.setKid (ctxSide ctx) q p).setUp p q
          count := m.count + 1 } := by
  cases ctx with
  | nil =>
    obtain ⟨rfl, -⟩ := hf.frames
    exact ⟨.nil, rfl, by simp [link, ctxSide, primitiveInsert]⟩
  | cons f ctx =>
    obtain ⟨d, c, b, s⟩ := f
    obtain ⟨rfl, -⟩ := hf.frames
    cases d with
    | left =>
      have hk : k < m.key (.item b) := hs.lt_after b (by simp [after])
      exact ⟨.item b, by simp [after], by simp [link, hk, ctxSide, primitiveInsert]⟩
    | right =>
      have hk : m.key (.item b) < k := hs.before_lt b (by simp [before])
      refine ⟨m.next (.item b), ?_, by simp [link, hk.not_gt, ctxSide, primitiveInsert]⟩
      obtain ⟨y, hy⟩ : ∃ y, ((after ctx).map Ptr.item ++ [Ptr.nil]).head? = some y := by
        cases after ctx <;> simp
      have hb : (before (⟨.right, c, b, s⟩ :: ctx) ++ after (⟨.right, c, b, s⟩ :: ctx)).map
          Ptr.item = (before ctx ++ s.toList).map Ptr.item ++ .item b :: (after ctx).map Ptr.item := by
        simp [before, after]
      rw [hb] at hl
      rw [hl.next_eq hy]
      exact hy

omit [LinearOrder κ] in
lemma primitiveInsert_links {y : Ptr α} (hy : p ≠ y) :
    (primitiveInsert m y p).next = Function.update (Function.update m.next p y) (m.prev y) p ∧
      (primitiveInsert m y p).prev = Function.update (Function.update m.prev p (m.prev y)) y p := by
  simp [primitiveInsert, hy]

/-- The tree with its new red leaf, before rebalancing. -/
lemma link_spec {N : ℕ} (hf : Focus m.toStore ctx q .nil .nil) (hs : Slot m k ctx)
    (hl : Linked m.next m.prev .nil ((before ctx ++ after ctx).map Ptr.item))
    (ha : ¬ InCtx ctx a) (hk : ∀ d, m.kid d (.item a) = .nil) (hc : m.color (.item a) = .red)
    (hbal : (plug ctx .nil).Bal N) (hno : (plug ctx .nil).NoRedRed)
    (hb : (plug ctx .nil).color = .black) (hsen : Sentinels m.toStore) :
    InsState (link m k q (.item a)).toStore ctx q (.item a) (node .red .nil a .nil) N ∧
      Linked (link m k q (.item a)).next (link m k q (.item a)).prev .nil
        ((before ctx ++ a :: after ctx).map Ptr.item) := by
  obtain ⟨y, hy, he⟩ := link_eq (p := .item a) hf hs hl
  have hnd := hf.nodup_ctx
  have hya : Ptr.item a ≠ y := by
    rintro rfl
    have hmem := List.mem_of_head? hy
    simp only [List.mem_append, List.mem_map, Ptr.item.injEq, exists_eq_right,
      List.mem_singleton, reduceCtorEq, or_false] at hmem
    exact ha (.inr hmem)
  have hattach := hf.attach ha hk
  rw [hc] at hattach
  rw [he]
  refine ⟨⟨hattach, rfl, ?_, ?_, ?_, hsen⟩, ?_⟩
  · obtain ⟨n, hn, hctx⟩ := bal_plug.mp hbal
    obtain rfl : n = 0 := hn
    exact ⟨0, ⟨rfl, rfl⟩, hctx⟩
  · exact ⟨fun _ => ⟨rfl, rfl⟩, trivial, trivial⟩
  · exact (noRedRed_plug.mp ⟨hno, hb⟩).2
  · obtain ⟨hn, hp⟩ := primitiveInsert_links
      (m := { m with toStore := m.toStore.setKid (ctxSide ctx) q (.item a) }) hya
    simp only [hn, hp]
    rw [List.map_append, List.map_cons]
    rw [List.map_append] at hl
    apply hl.insert
    · rw [List.nodup_cons, ← List.map_append]
      refine ⟨by simp, hnd.map ?_⟩
      exact fun _ _ => Ptr.item.inj
    · rw [← List.map_append]
      simpa [InCtx] using ha
    · exact hy

end Link

lemma rootBlack_spec {h : Store α} {N : ℕ} (hd : InsDone h t N) :
    ∃ N', Focus (rootBlack h) [] .root ((rootBlack h).kid .left .root) t.blacken ∧
      t.blacken.Bal N' ∧ t.blacken.NoRedRed ∧ Sentinels (rootBlack h) := by
  have hf := hd.focus.blacken
  have hsen := blacken_setColor_ne_root hd.sentinels hd.focus.rep.ne_root
  cases t with
  | nil => exact ⟨N, hf, hd.bal, trivial, hsen⟩
  | node c l a r =>
    obtain ⟨-, hl, hr⟩ := hd.noRed
    refine ⟨if c = .red then N + 1 else N, hf, ?_, ⟨by simp, hl, hr⟩, hsen⟩
    cases c with
    | red => exact ⟨N, rfl, hd.bal⟩
    | black => exact hd.bal

def mapInsert (f : κ → Option α) (k : κ) (a : α) : κ → Option α :=
  match f k with
  | none => Function.update f k (some a)
  | some _ => f

lemma link_key (m : QMap α κ) (k : κ) (q p : Ptr α) : (link m k q p).key = m.key := by
  simp only [link, primitiveInsert]
  split_ifs <;> rfl

lemma link_count (m : QMap α κ) (k : κ) (q p : Ptr α) : (link m k q p).count = m.count + 1 := by
  simp only [link, primitiveInsert]
  split_ifs <;> rfl

lemma insert_spec {f : κ → Option α} (hm : Holds m t) (hf : Models m t f) (ha : a ∉ t.toList)
    (k : κ) :
    ∃ m' t', insert m k (.item a) = some (ptrOf ((f k).or (some a)), m') ∧ Holds m' t' ∧
      Models m' t' (mapInsert f k a) := by
  have hm₁ := hm.prepare (k := k) ha
  have hf₁ := hf.prepare (k := k) ha
  have hfuel : t.toList.length < (prepare m k (.item a)).count + 1 := by
    rw [hm₁.count]
    omega
  rcases insertAt_spec (k := k) ((prepare m k (.item a)).count + 1) hm₁.focus hm₁.sorted
    ⟨by simp [before], by simp [after]⟩ hfuel with ⟨b, hb, hk, he⟩ | ⟨ctx, q, he, hfoc, hplug, hs⟩
  · have hfk : f k = some b := (hf₁ k b).mpr ⟨hb, hk⟩
    refine ⟨prepare m k (.item a), t, ?_, hm₁, ?_⟩
    · simp only [insert, he, hfk, Option.bind_eq_bind, Option.bind_some, if_true]
      rfl
    · rw [mapInsert, hfk]
      exact hf₁
  · have hlist : before ctx ++ after ctx = t.toList := by
      have h := toList_plug ctx (.nil : ColorTree α)
      rw [hplug] at h
      simpa [plug, toList] using h.symm
    have hctx : ¬ InCtx ctx a := by
      intro h
      exact ha (by rw [← hlist]; exact List.mem_append.mpr h)
    obtain ⟨N, hN⟩ := hm₁.bal
    have hplug : plug ctx (.nil : ColorTree α) = t := hplug
    obtain ⟨hi, hl⟩ := link_spec (a := a) (N := N) hfoc hs (by rw [hlist]; exact hm₁.linked) hctx
      (by intro d; cases d <;> simp [prepare, Store.setKid, Store.setColor])
      (by simp [prepare]) (by rwa [hplug]) (by rw [hplug]; exact hm₁.noRed)
      (by rw [hplug]; exact hm₁.black) hm₁.sentinels
    have hlen : ctx.length < (link (prepare m k (.item a)) k q (.item a)).count + 1 := by
      have h := length_le_plug ctx (.nil : ColorTree α)
      rw [hplug] at h
      rw [link_count]
      omega
    obtain ⟨h', t', hbal, hdone, htl⟩ := insBal_spec _ hi hlen
    obtain ⟨N', hfoc', hbal', hno', hsen'⟩ := rootBlack_spec hdone
    have htl : t'.blacken.toList = before ctx ++ a :: after ctx := by
      rw [toList_blacken, htl]
      simp [toList]
    have hka : (prepare m k (.item a)).key (.item a) = k := by simp [prepare]
    have hfk := hs.models_none hf₁ hlist
    refine ⟨{ link (prepare m k (.item a)) k q (.item a) with toStore := rootBlack h' },
      t'.blacken, ?_, ⟨hfoc', ⟨N', hbal'⟩, hno', color_blacken t', hsen', ?_, ?_, ?_⟩, ?_⟩
    · simp only [insert, he, hbal, hfk, Option.bind_eq_bind, Option.bind_some, Bool.false_eq_true,
        if_false]
      rfl
    · rw [htl]
      simp only [link_key]
      exact hs.pairwise hka (hlist ▸ hm₁.sorted)
    · rw [htl]
      exact hl
    · have hlen := congrArg List.length hlist
      simp only [List.length_append] at hlen
      simp only [htl, link_count, hm₁.count, List.length_append, List.length_cons]
      omega
    · intro k' b
      have hmem : b ∈ t'.blacken.toList ↔ b = a ∨ b ∈ t.toList := by
        rw [htl, ← hlist]
        simp only [List.mem_append, List.mem_cons]
        tauto
      simp only [link_key]
      rw [hmem, mapInsert, hfk]
      by_cases hk : k' = k
      · subst hk
        simp only [Function.update_self, Option.some.injEq]
        constructor
        · rintro rfl
          exact ⟨.inl rfl, hka⟩
        · rintro ⟨rfl | hb, hkb⟩
          · rfl
          · exact absurd ((hf₁ k' b).mpr ⟨hb, hkb⟩) (by simp [hfk])
      · simp only [Function.update_of_ne hk, hf₁ k' b]
        constructor
        · exact fun h => ⟨.inr h.1, h.2⟩
        · rintro ⟨rfl | hb, hkb⟩
          · exact absurd (hkb.symm.trans hka) hk
          · exact ⟨hb, hkb⟩

end OpenSM.ClMap
