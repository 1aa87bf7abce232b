import OpenSM.Lib.RedBlack

/-! Binary trees in memory. The cells have child, parent and colour fields; a store represents a
tree, or the frames around a focus, when these fields agree with it. -/

namespace OpenSM.Lib.PtrTree

open RedBlack ColorTree

/-- A cell is the sentinel above the tree, the one below its leaves, or an item. -/
inductive Ptr (α : Type*)
  | root
  | nil
  | item (a : α)
  deriving DecidableEq

@[ext]
structure Store (α : Type*) where
  kid : Side → Ptr α → Ptr α
  up : Ptr α → Ptr α
  color : Ptr α → Color

variable {α : Type*}

def Rep (h : Store α) : Ptr α → Ptr α → ColorTree α → Prop
  | _, p, .nil => p = .nil
  | q, p, .node c l a r => p = .item a ∧ h.up p = q ∧ h.color p = c ∧
      Rep h p (h.kid .left p) l ∧ Rep h p (h.kid .right p) r

def RepCtx (h : Store α) : List (Frame α) → Ptr α → Ptr α → Prop
  | [], q, p => q = .root ∧ h.kid .left q = p
  | f :: ctx, q, p => q = .item f.a ∧ h.kid f.d q = p ∧ h.color q = f.c ∧
      Rep h q (h.kid f.d.opp q) f.sib ∧ RepCtx h ctx (h.up q) q

structure Focus (h : Store α) (ctx : List (Frame α)) (q p : Ptr α) (t : ColorTree α) : Prop where
  frames : RepCtx h ctx q p
  rep : Rep h q p t
  nodup : (before ctx ++ t.toList ++ after ctx).Nodup

namespace Store

variable [DecidableEq α]

def setKid (h : Store α) (d : Side) (p v : Ptr α) : Store α :=
  { h with kid := fun e x => if e = d ∧ x = p then v else h.kid e x }

def setUp (h : Store α) (p v : Ptr α) : Store α :=
  { h with up := Function.update h.up p v }

def setColor (h : Store α) (p : Ptr α) (c : Color) : Store α :=
  { h with color := Function.update h.color p c }

variable (h : Store α) (d e : Side) (p v x : Ptr α) (c : Color)

@[simp] lemma kid_setKid_self : (h.setKid d p v).kid d p = v := by simp [setKid]

@[simp] lemma kid_setKid_opp : (h.setKid d p v).kid d.opp x = h.kid d.opp x := by simp [setKid]

@[simp] lemma kid_opp_setKid : (h.setKid d.opp p v).kid d x = h.kid d x := by
  cases d <;> simp [setKid, Side.opp]

@[simp] lemma kid_setKid_of_ne (hx : x ≠ p) : (h.setKid d p v).kid e x = h.kid e x := by
  simp [setKid, hx]

lemma kid_setKid_of_pair_ne (hx : (e, x) ≠ (d, p)) : (h.setKid d p v).kid e x = h.kid e x := by
  rw [ne_eq, Prod.mk.injEq] at hx
  simp [setKid, hx]

@[simp] lemma up_setKid : (h.setKid d p v).up = h.up := rfl

@[simp] lemma color_setKid : (h.setKid d p v).color = h.color := rfl

@[simp] lemma kid_setUp : (h.setUp p v).kid = h.kid := rfl

@[simp] lemma up_setUp_self : (h.setUp p v).up p = v := by simp [setUp]

@[simp] lemma up_setUp_of_ne (hx : x ≠ p) : (h.setUp p v).up x = h.up x := by simp [setUp, hx]

@[simp] lemma color_setUp : (h.setUp p v).color = h.color := rfl

@[simp] lemma kid_setColor : (h.setColor p c).kid = h.kid := rfl

@[simp] lemma up_setColor : (h.setColor p c).up = h.up := rfl

@[simp] lemma color_setColor_self : (h.setColor p c).color p = c := by simp [setColor]

@[simp] lemma color_setColor_of_ne (hx : x ≠ p) : (h.setColor p c).color x = h.color x := by
  simp [setColor, hx]

end Store

variable {h h' : Store α} {ctx : List (Frame α)} {q p : Ptr α} {t : ColorTree α}

@[simp] lemma rep_nil : Rep h q p .nil ↔ p = .nil := Iff.rfl

lemma rep_fork {d : Side} {c : Color} {a : α} {x y : ColorTree α} :
    Rep h q p (fork d c a x y) ↔ p = .item a ∧ h.up p = q ∧ h.color p = c ∧
      Rep h p (h.kid d p) x ∧ Rep h p (h.kid d.opp p) y := by
  cases d
  · exact Iff.rfl
  · simp only [fork, Rep, Side.opp, and_comm (a := Rep h p (h.kid .left p) y)]

lemma Rep.eq_nil_iff (hr : Rep h q p t) : p = .nil ↔ t = .nil := by
  cases t with
  | nil => simpa using hr
  | node c l a r =>
    obtain ⟨rfl, -⟩ := hr
    simp

lemma Rep.color_eq (hr : Rep h q p t) (hn : h.color .nil = .black) : h.color p = t.color := by
  cases t with
  | nil =>
    obtain rfl := hr
    exact hn
  | node c l a r => exact hr.2.2.1

lemma Rep.mem {a : α} (hr : Rep h q (.item a) t) : a ∈ t.toList := by
  cases t with
  | nil => exact absurd hr (by simp [Rep])
  | node c l b r =>
    obtain ⟨he, -⟩ := hr
    obtain rfl := Ptr.item.inj he
    simp [toList]

lemma Rep.ne_root (hr : Rep h q p t) : p ≠ .root := by
  cases t with
  | nil =>
    obtain rfl := hr
    simp
  | node c l b r =>
    obtain ⟨rfl, -⟩ := hr
    simp

/-- The tree is still there, now below `q'`, when nothing but the parent field of its top cell has
changed. -/
lemma Rep.reparent {q' : Ptr α} (hr : Rep h q p t) (hnd : t.toList.Nodup)
    (hkid : ∀ a ∈ t.toList, ∀ d, h'.kid d (.item a) = h.kid d (.item a))
    (hcol : ∀ a ∈ t.toList, h'.color (.item a) = h.color (.item a))
    (hup : ∀ a ∈ t.toList, .item a ≠ p → h'.up (.item a) = h.up (.item a))
    (hp : p ≠ .nil → h'.up p = q') : Rep h' q' p t := by
  induction t generalizing q q' p with
  | nil => exact hr
  | node c l a r ihl ihr =>
    obtain ⟨rfl, -, hc, hl, hr⟩ := hr
    simp only [toList, List.nodup_append, List.nodup_cons, List.mem_cons] at hnd
    simp only [toList, List.mem_append, List.mem_cons] at hkid hcol hup
    obtain ⟨hndl, ⟨har, hndr⟩, hlr⟩ := hnd
    have hal : a ∉ l.toList := fun hm => hlr a hm a (.inl rfl) rfl
    refine ⟨rfl, hp (by simp), (hcol a (by simp)).trans hc, ?_, ?_⟩
    · rw [hkid a (by simp)]
      apply ihl hl hndl (fun b hb => hkid b (.inl hb)) (fun b hb => hcol b (.inl hb))
      · intro b hb _
        exact hup b (.inl hb) (by rintro ⟨rfl⟩; exact hal hb)
      · intro hne
        cases l with
        | nil => exact absurd hl hne
        | node c' l' b r' =>
          obtain ⟨he, hu, -⟩ := hl
          rw [he] at hu ⊢
          rw [hup b (.inl (by simp [toList])) (by rintro ⟨rfl⟩; simp [toList] at hal), hu]
    · rw [hkid a (by simp)]
      apply ihr hr hndr (fun b hb => hkid b (.inr (.inr hb))) (fun b hb => hcol b (.inr (.inr hb)))
      · intro b hb _
        exact hup b (.inr (.inr hb)) (by rintro ⟨rfl⟩; exact har hb)
      · intro hne
        cases r with
        | nil => exact absurd hr hne
        | node c' l' b r' =>
          obtain ⟨he, hu, -⟩ := hr
          rw [he] at hu ⊢
          rw [hup b (.inr (.inr (by simp [toList]))) (by rintro ⟨rfl⟩; simp [toList] at har), hu]

lemma Rep.congr (hr : Rep h q p t)
    (hkid : ∀ a ∈ t.toList, ∀ d, h'.kid d (.item a) = h.kid d (.item a))
    (hcol : ∀ a ∈ t.toList, h'.color (.item a) = h.color (.item a))
    (hup : ∀ a ∈ t.toList, h'.up (.item a) = h.up (.item a)) : Rep h' q p t := by
  induction t generalizing q p with
  | nil => exact hr
  | node c l a r ihl ihr =>
    obtain ⟨rfl, hu, hc, hl, hr⟩ := hr
    simp only [toList, List.mem_append, List.mem_cons] at hkid hcol hup
    refine ⟨rfl, (hup a (by simp)).trans hu, (hcol a (by simp)).trans hc, ?_, ?_⟩
    · rw [hkid a (by simp)]
      exact ihl hl (fun b hb => hkid b (.inl hb)) (fun b hb => hcol b (.inl hb))
        (fun b hb => hup b (.inl hb))
    · rw [hkid a (by simp)]
      exact ihr hr (fun b hb => hkid b (.inr (.inr hb))) (fun b hb => hcol b (.inr (.inr hb)))
        (fun b hb => hup b (.inr (.inr hb)))

def InCtx (ctx : List (Frame α)) (a : α) : Prop := a ∈ before ctx ∨ a ∈ after ctx

lemma inCtx_cons {f : Frame α} {a : α} :
    InCtx (f :: ctx) a ↔ a = f.a ∨ a ∈ f.sib.toList ∨ InCtx ctx a := by
  obtain ⟨d, c, b, s⟩ := f
  cases d <;> simp only [InCtx, before, after, List.mem_append, List.mem_cons,
    List.cons_append, List.not_mem_nil, or_false] <;> tauto

def ctxSide : List (Frame α) → Side
  | [] => .left
  | f :: _ => f.d

lemma RepCtx.kid_eq (hc : RepCtx h ctx q p) : h.kid (ctxSide ctx) q = p := by
  cases ctx with
  | nil => exact hc.2
  | cons f ctx => exact hc.2.1

lemma RepCtx.eq_root_or (hc : RepCtx h ctx q p) : q = .root ∨ ∃ a, q = .item a ∧ InCtx ctx a := by
  cases ctx with
  | nil => exact .inl hc.1
  | cons f ctx => exact .inr ⟨f.a, hc.1, inCtx_cons.mpr (.inl rfl)⟩

lemma RepCtx.congr (hc : RepCtx h ctx q p)
    (hroot : h'.kid .left .root = h.kid .left .root)
    (hkid : ∀ a, InCtx ctx a → ∀ d, h'.kid d (.item a) = h.kid d (.item a))
    (hcol : ∀ a, InCtx ctx a → h'.color (.item a) = h.color (.item a))
    (hup : ∀ a, InCtx ctx a → h'.up (.item a) = h.up (.item a)) : RepCtx h' ctx q p := by
  induction ctx generalizing q p with
  | nil =>
    obtain ⟨rfl, hk⟩ := hc
    exact ⟨rfl, hroot.trans hk⟩
  | cons f ctx ih =>
    obtain ⟨rfl, hk, hcl, hs, hc⟩ := hc
    simp only [inCtx_cons] at hkid hcol hup
    refine ⟨rfl, by rw [hkid f.a (by simp), hk], by rw [hcol f.a (by simp), hcl], ?_, ?_⟩
    · rw [hkid f.a (by simp)]
      exact hs.congr (fun b hb => hkid b (.inr (.inl hb))) (fun b hb => hcol b (.inr (.inl hb)))
        (fun b hb => hup b (.inr (.inl hb)))
    · rw [hup f.a (by simp)]
      exact ih hc (fun b hb => hkid b (.inr (.inr hb))) (fun b hb => hcol b (.inr (.inr hb)))
        (fun b hb => hup b (.inr (.inr hb)))

lemma nodup_ctx_cons {f : Frame α} (hnd : (before (f :: ctx) ++ after (f :: ctx)).Nodup) :
    f.a ∉ f.sib.toList ∧ ¬ InCtx ctx f.a ∧ (∀ b ∈ f.sib.toList, ¬ InCtx ctx b) ∧
      f.sib.toList.Nodup ∧ (before ctx ++ after ctx).Nodup := by
  obtain ⟨d, c, a, s⟩ := f
  simp only [InCtx]
  cases d <;> simp only [before, after, List.nodup_append, List.nodup_cons, List.cons_append,
    List.mem_append, List.mem_cons] at hnd ⊢ <;> grind

/-- The frames are still there, around a focus at `p'`, when nothing but the field that points to
the focus has changed. -/
lemma RepCtx.redirect {p' : Ptr α} (hc : RepCtx h ctx q p)
    (hnd : (before ctx ++ after ctx).Nodup)
    (hroot : q ≠ .root → h'.kid .left .root = h.kid .left .root)
    (hkid : ∀ a, InCtx ctx a → ∀ d, (d, .item a) ≠ (ctxSide ctx, q) →
      h'.kid d (.item a) = h.kid d (.item a))
    (hcol : ∀ a, InCtx ctx a → h'.color (.item a) = h.color (.item a))
    (hup : ∀ a, InCtx ctx a → h'.up (.item a) = h.up (.item a))
    (hq : h'.kid (ctxSide ctx) q = p') : RepCtx h' ctx q p' := by
  cases ctx with
  | nil => exact ⟨hc.1, hq⟩
  | cons f ctx =>
    obtain ⟨rfl, -, hcl, hs, hc⟩ := hc
    obtain ⟨has, hactx, -, -, -⟩ := nodup_ctx_cons hnd
    simp only [inCtx_cons, ctxSide] at hkid hcol hup hq
    have hne : ∀ b, b ≠ f.a → ∀ d, (d, Ptr.item b) ≠ (f.d, .item f.a) := by
      rintro b hb d ⟨⟩
      exact hb rfl
    refine ⟨rfl, hq, by rw [hcol f.a (by simp), hcl], ?_, ?_⟩
    · rw [hkid f.a (by simp) _ (by simp)]
      apply hs.congr
      · intro b hb d
        exact hkid b (.inr (.inl hb)) d (hne b (by rintro rfl; exact has hb) d)
      · exact fun b hb => hcol b (.inr (.inl hb))
      · exact fun b hb => hup b (.inr (.inl hb))
    · rw [hup f.a (by simp)]
      apply hc.congr (hroot (by simp))
      · intro b hb d
        exact hkid b (.inr (.inr hb)) d (hne b (by rintro rfl; exact hactx hb) d)
      · exact fun b hb => hcol b (.inr (.inr hb))
      · exact fun b hb => hup b (.inr (.inr hb))

lemma focus_cons {f : Frame α} :
    Focus h (f :: ctx) q p t ↔ q = .item f.a ∧ h.kid f.d q = p ∧
      Focus h ctx (h.up q) q (fork f.d f.c f.a t f.sib) := by
  constructor
  · rintro ⟨⟨rfl, hk, hcl, hs, hc⟩, hr, hnd⟩
    exact ⟨rfl, hk, hc, rep_fork.mpr ⟨rfl, rfl, hcl, hk.symm ▸ hr, hs⟩,
      before_toList_after f ctx t ▸ hnd⟩
  · rintro ⟨rfl, hk, hc, hr, hnd⟩
    obtain ⟨-, -, hcl, hx, hs⟩ := rep_fork.mp hr
    exact ⟨⟨rfl, hk, hcl, hs, hc⟩, hk ▸ hx, before_toList_after f ctx t ▸ hnd⟩

namespace Focus

variable (hf : Focus h ctx q p t)
include hf

lemma nodup_ctx : (before ctx ++ after ctx).Nodup := by
  refine List.Nodup.sublist ?_ hf.nodup
  rw [List.append_assoc]
  exact List.Sublist.append (List.Sublist.refl _) (List.sublist_append_right _ _)

lemma nodup_tree : t.toList.Nodup := by
  refine List.Nodup.sublist ?_ hf.nodup
  rw [List.append_assoc]
  exact (List.sublist_append_left _ _).trans (List.sublist_append_right _ _)

lemma not_inCtx {a : α} (ha : a ∈ t.toList) : ¬ InCtx ctx a := by
  have hnd := hf.nodup
  simp only [List.nodup_append, List.mem_append] at hnd
  rintro (hb | hb)
  · exact hnd.1.2.2 a hb a ha rfl
  · exact hnd.2.2 a (.inr ha) a hb rfl

lemma ne_of_inCtx {a b : α} (ha : a ∈ t.toList) (hb : InCtx ctx b) : b ≠ a := by
  rintro rfl
  exact hf.not_inCtx ha hb

lemma parent_ne {a : α} (ha : a ∈ t.toList) : q ≠ .item a := by
  rcases hf.frames.eq_root_or with rfl | ⟨b, rfl, hb⟩
  · simp
  · simpa using hf.ne_of_inCtx ha hb

lemma up_eq (hp : p ≠ .nil) : h.up p = q := by
  cases t with
  | nil => exact absurd hf.rep hp
  | node c l b r => exact hf.rep.2.1

end Focus

lemma Focus.setColor [DecidableEq α] {d : Side} {c : Color} {a : α} {x y : ColorTree α}
    (hf : Focus h ctx q p (fork d c a x y)) (c' : Color) :
    Focus (h.setColor p c') ctx q p (fork d c' a x y) := by
  obtain ⟨rfl, hup, -, hx, hy⟩ := rep_fork.mp hf.rep
  obtain ⟨hax, hay, -⟩ := nodup_fork.mp hf.nodup_tree
  have ha : a ∈ (fork d c a x y).toList := mem_toList_fork.mpr (.inl rfl)
  have hcol : ∀ b, b ≠ a → (h.setColor (.item a) c').color (.item b) = h.color (.item b) := by
    intro b hb
    exact h.color_setColor_of_ne _ _ _ (by simpa using hb)
  refine ⟨?_, ?_, ?_⟩
  · exact hf.frames.congr rfl (fun _ _ _ => rfl) (fun b hb => hcol b (hf.ne_of_inCtx ha hb))
      (fun _ _ => rfl)
  · refine rep_fork.mpr ⟨rfl, hup, by simp, ?_, ?_⟩
    · exact hx.congr (fun _ _ _ => rfl) (fun b hb => hcol b (by rintro rfl; exact hax hb))
        (fun _ _ => rfl)
    · exact hy.congr (fun _ _ _ => rfl) (fun b hb => hcol b (by rintro rfl; exact hay hb))
        (fun _ _ => rfl)
  · rw [toList_recolor d c c' a rfl rfl]
    exact hf.nodup

lemma Focus.down {d : Side} {c : Color} {a : α} {x y : ColorTree α}
    (hf : Focus h ctx q p (fork d c a x y)) :
    Focus h (⟨d, c, a, y⟩ :: ctx) p (h.kid d p) x := by
  obtain ⟨rfl, hup, -⟩ := rep_fork.mp hf.rep
  exact focus_cons.mpr ⟨rfl, rfl, hup.symm ▸ hf⟩

lemma Rep.ptr_eq {q' p' : Ptr α} (hr : Rep h q p t) (hr' : Rep h' q' p' t) : p' = p := by
  cases t with
  | nil => exact hr'.trans hr.symm
  | node c l a r => exact hr'.1.trans hr.1.symm

lemma Focus.blacken [DecidableEq α] (hf : Focus h ctx q p t) :
    Focus (h.setColor p .black) ctx q p t.blacken := by
  cases t with
  | nil =>
    obtain rfl : p = .nil := hf.rep
    refine ⟨hf.frames.congr rfl (fun _ _ _ => rfl) ?_ (fun _ _ => rfl), rfl, hf.nodup⟩
    intro a _
    exact h.color_setColor_of_ne _ _ _ (by simp)
  | node c l a r => exact Focus.setColor (d := .left) hf .black

lemma Focus.setColor_kid [DecidableEq α] {d e : Side} {c c₁ : Color} {a b : α}
    {x y s : ColorTree α} (hf : Focus h ctx q p (fork d c a (fork e c₁ b x y) s)) (c₂ : Color) :
    Focus (h.setColor (h.kid d p) c₂) ctx q p (fork d c a (fork e c₂ b x y) s) := by
  obtain ⟨rfl, hup, -⟩ := rep_fork.mp hf.rep
  obtain ⟨-, -, hf'⟩ := focus_cons.mp (hf.down.setColor c₂)
  simpa [hup] using hf'

/-- A cell without children is hung into an empty place. -/
lemma Focus.attach [DecidableEq α] {a : α} (hf : Focus h ctx q .nil .nil) (ha : ¬ InCtx ctx a)
    (hk : ∀ d, h.kid d (.item a) = .nil) :
    Focus ((h.setKid (ctxSide ctx) q (.item a)).setUp (.item a) q) ctx q (.item a)
      (.node (h.color (.item a)) .nil a .nil) := by
  have hqa : Ptr.item a ≠ q := by
    rcases hf.frames.eq_root_or with rfl | ⟨b, rfl, hb⟩
    · simp
    · rintro ⟨rfl⟩
      exact ha hb
  refine ⟨?_, ?_, ?_⟩
  · apply hf.frames.redirect hf.nodup_ctx
    · intro hq
      exact h.kid_setKid_of_ne _ _ _ _ _ hq.symm
    · intro b _ d hne
      exact h.kid_setKid_of_pair_ne _ _ _ _ _ hne
    · exact fun _ _ => rfl
    · intro b hb
      have hba : Ptr.item b ≠ .item a := by
        rintro ⟨rfl⟩
        exact ha hb
      simp [hba]
    · simp
  · refine ⟨rfl, by simp, rfl, ?_, ?_⟩
    · simpa [hqa] using hk .left
    · simpa [hqa] using hk .right
  · have hnd := hf.nodup_ctx
    simp only [InCtx, not_or] at ha
    simp only [toList, List.nil_append, List.append_assoc, List.singleton_append]
    rw [List.nodup_append] at hnd ⊢
    refine ⟨hnd.1, List.nodup_cons.mpr ⟨ha.2, hnd.2.1⟩, ?_⟩
    intro b hb e he
    rcases List.mem_cons.mp he with rfl | he
    · rintro rfl
      exact ha.1 hb
    · exact hnd.2.2 b hb e he

lemma Focus.unzip (hf : Focus h ctx q p t) :
    Focus h [] .root (h.kid .left .root) (plug ctx t) := by
  induction ctx generalizing q p t with
  | nil =>
    obtain ⟨rfl, rfl⟩ := hf.frames
    exact hf
  | cons f ctx ih => exact ih (focus_cons.mp hf).2.2

lemma Focus.zip (hf : Focus h [] .root p (plug ctx t)) : ∃ q p', Focus h ctx q p' t := by
  induction ctx generalizing t with
  | nil => exact ⟨_, _, hf⟩
  | cons f ctx ih =>
    obtain ⟨q, p', hf'⟩ := ih hf
    exact ⟨_, _, hf'.down⟩

end OpenSM.Lib.PtrTree
