import Mathlib

/-! Red-black trees with a focus: a subtree together with the frames that lie between it and the
root. The two mirror images of every shape are one shape, told apart by a side. -/

namespace OpenSM.Lib.RedBlack

inductive Side
  | left
  | right
  deriving DecidableEq, Repr

inductive Color
  | red
  | black
  deriving DecidableEq, Repr

def Side.opp : Side → Side
  | .left => .right
  | .right => .left

@[simp] lemma Side.opp_opp (d : Side) : d.opp.opp = d := by cases d <;> rfl

@[simp] lemma Side.opp_ne (d : Side) : d.opp ≠ d := by cases d <;> decide

lemma Side.eq_or_opp (d e : Side) : e = d ∨ e = d.opp := by cases d <;> cases e <;> decide

lemma Color.ne_red {c : Color} : c ≠ .red ↔ c = .black := by cases c <;> decide

inductive ColorTree (α : Type*)
  | nil
  | node (c : Color) (l : ColorTree α) (a : α) (r : ColorTree α)

variable {α : Type*}

namespace ColorTree

def fork (d : Side) (c : Color) (a : α) (x y : ColorTree α) : ColorTree α :=
  match d with
  | .left => node c x a y
  | .right => node c y a x

def toList : ColorTree α → List α
  | nil => []
  | node _ l a r => l.toList ++ a :: r.toList

def color : ColorTree α → Color
  | nil => .black
  | node c _ _ _ => c

def blacken : ColorTree α → ColorTree α
  | nil => nil
  | node _ l a r => node .black l a r

def Bal : ColorTree α → ℕ → Prop
  | nil, n => n = 0
  | node .red l _ r, n => l.Bal n ∧ r.Bal n
  | node .black l _ r, n => ∃ k, n = k + 1 ∧ l.Bal k ∧ r.Bal k

def NoRedRed : ColorTree α → Prop
  | nil => True
  | node c l _ r =>
    (c = .red → l.color = .black ∧ r.color = .black) ∧ l.NoRedRed ∧ r.NoRedRed

attribute [local simp] fork toList color Bal NoRedRed

lemma eq_fork (d : Side) (c : Color) (l : ColorTree α) (a : α) (r : ColorTree α) :
    ∃ x y, node c l a r = fork d c a x y := by
  cases d
  · exact ⟨l, r, rfl⟩
  · exact ⟨r, l, rfl⟩

lemma fork_opp (d : Side) (c : Color) (a : α) (x y : ColorTree α) :
    fork d.opp c a x y = fork d c a y x := by
  cases d <;> rfl

@[simp] lemma fork_ne_nil (d : Side) (c : Color) (a : α) (x y : ColorTree α) :
    fork d c a x y ≠ nil := by
  cases d <;> simp [fork]

@[simp] lemma color_fork (d : Side) (c : Color) (a : α) (x y : ColorTree α) :
    (fork d c a x y).color = c := by
  cases d <;> rfl

@[simp] lemma blacken_fork (d : Side) (c : Color) (a : α) (x y : ColorTree α) :
    (fork d c a x y).blacken = fork d .black a x y := by
  cases d <;> rfl

@[simp] lemma color_blacken (t : ColorTree α) : t.blacken.color = .black := by
  cases t <;> rfl

@[simp] lemma toList_blacken (t : ColorTree α) : t.blacken.toList = t.toList := by
  cases t <;> rfl

lemma blacken_of_black {t : ColorTree α} (h : t.color = .black) : t.blacken = t := by
  cases t with
  | nil => rfl
  | node c l a r =>
    simp only [color] at h
    rw [h, blacken]

@[simp] lemma bal_nil {n : ℕ} : (nil : ColorTree α).Bal n ↔ n = 0 := Iff.rfl

@[simp] lemma bal_fork_red {d : Side} {a : α} {x y : ColorTree α} {n : ℕ} :
    (fork d .red a x y).Bal n ↔ x.Bal n ∧ y.Bal n := by
  cases d
  · exact Iff.rfl
  · exact and_comm

@[simp] lemma bal_fork_black {d : Side} {a : α} {x y : ColorTree α} {n : ℕ} :
    (fork d .black a x y).Bal n ↔ ∃ k, n = k + 1 ∧ x.Bal k ∧ y.Bal k := by
  cases d
  · exact Iff.rfl
  · simp only [fork, Bal, and_comm (a := y.Bal _)]

@[simp] lemma noRedRed_nil : (nil : ColorTree α).NoRedRed := trivial

@[simp] lemma noRedRed_fork {d : Side} {c : Color} {a : α} {x y : ColorTree α} :
    (fork d c a x y).NoRedRed ↔
      (c = .red → x.color = .black ∧ y.color = .black) ∧ x.NoRedRed ∧ y.NoRedRed := by
  cases d
  · exact Iff.rfl
  · simp only [fork, NoRedRed, and_comm (a := y.color = _), and_comm (a := y.NoRedRed)]

lemma Bal.exists_fork (d : Side) {t : ColorTree α} {n : ℕ} (h : t.Bal (n + 1)) :
    ∃ c a x y, t = fork d c a x y := by
  cases t with
  | nil => exact absurd h (Nat.succ_ne_zero n)
  | node c l a r =>
    obtain ⟨x, y, he⟩ := eq_fork d c l a r
    exact ⟨c, a, x, y, he⟩

lemma exists_fork_of_red (d : Side) {t : ColorTree α} (h : t.color = .red) :
    ∃ a x y, t = fork d .red a x y := by
  cases t with
  | nil => exact absurd h (by simp [color])
  | node c l a r =>
    obtain ⟨x, y, he⟩ := eq_fork d c l a r
    simp only [color] at h
    exact ⟨a, x, y, h ▸ he⟩

lemma mem_toList_fork {d : Side} {c : Color} {a b : α} {x y : ColorTree α} :
    b ∈ (fork d c a x y).toList ↔ b = a ∨ b ∈ x.toList ∨ b ∈ y.toList := by
  cases d <;> simp only [fork, toList, List.mem_append, List.mem_cons] <;> tauto

lemma nodup_fork {d : Side} {c : Color} {a : α} {x y : ColorTree α} :
    (fork d c a x y).toList.Nodup ↔ a ∉ x.toList ∧ a ∉ y.toList ∧
      (∀ b ∈ x.toList, b ∉ y.toList) ∧ x.toList.Nodup ∧ y.toList.Nodup := by
  cases d <;> simp only [fork, toList, List.nodup_append, List.nodup_cons, List.mem_cons] <;> grind

lemma toList_rotate (d : Side) (c c' e e' : Color) (a b : α) (x y z : ColorTree α) :
    (fork d e' b (fork d e a x y) z).toList = (fork d c a x (fork d c' b y z)).toList := by
  cases d <;> simp [fork, toList]

lemma toList_recolor (d : Side) (c e : Color) (a : α) {x x' y y' : ColorTree α}
    (hx : x'.toList = x.toList) (hy : y'.toList = y.toList) :
    (fork d e a x' y').toList = (fork d c a x y).toList := by
  cases d <;> simp [fork, toList, hx, hy]

end ColorTree

open ColorTree

/-- A node on the way to the focus, which lies on side `d` of it; `sib` hangs on the other side. -/
structure Frame (α : Type*) where
  d : Side
  c : Color
  a : α
  sib : ColorTree α

def plug : List (Frame α) → ColorTree α → ColorTree α
  | [], t => t
  | f :: ctx, t => plug ctx (fork f.d f.c f.a t f.sib)

def before : List (Frame α) → List α
  | [] => []
  | ⟨.left, _, _, _⟩ :: ctx => before ctx
  | ⟨.right, _, a, s⟩ :: ctx => before ctx ++ (s.toList ++ [a])

def after : List (Frame α) → List α
  | [] => []
  | ⟨.left, _, a, s⟩ :: ctx => a :: s.toList ++ after ctx
  | ⟨.right, _, _, _⟩ :: ctx => after ctx

lemma before_toList_after (f : Frame α) (ctx : List (Frame α)) (t : ColorTree α) :
    before (f :: ctx) ++ t.toList ++ after (f :: ctx) =
      before ctx ++ (fork f.d f.c f.a t f.sib).toList ++ after ctx := by
  obtain ⟨d, c, a, s⟩ := f
  cases d <;> simp [before, after, fork, toList]

lemma toList_plug (ctx : List (Frame α)) (t : ColorTree α) :
    (plug ctx t).toList = before ctx ++ t.toList ++ after ctx := by
  induction ctx generalizing t with
  | nil => simp [plug, before, after]
  | cons f ctx ih => rw [plug, ih, before_toList_after]

lemma plug_append (ctx ctx' : List (Frame α)) (t : ColorTree α) :
    plug (ctx ++ ctx') t = plug ctx' (plug ctx t) := by
  induction ctx generalizing t with
  | nil => rfl
  | cons f ctx ih => exact ih _

/-- The frames make a balanced tree of black height `N` around a focus of black height `n`. -/
def CtxBal : List (Frame α) → ℕ → ℕ → Prop
  | [], n, N => n = N
  | f :: ctx, n, N => f.sib.Bal n ∧ CtxBal ctx (if f.c = .black then n + 1 else n) N

/-- No red node has a red child and the root is black, provided the focus has the colour `c`. -/
def CtxNoRed : List (Frame α) → Color → Prop
  | [], c => c = .black
  | f :: ctx, c =>
    (f.c = .red → c = .black ∧ f.sib.color = .black) ∧ f.sib.NoRedRed ∧ CtxNoRed ctx f.c

lemma bal_plug {ctx : List (Frame α)} {t : ColorTree α} {N : ℕ} :
    (plug ctx t).Bal N ↔ ∃ n, t.Bal n ∧ CtxBal ctx n N := by
  induction ctx generalizing t with
  | nil => simp [plug, CtxBal]
  | cons f ctx ih =>
    obtain ⟨d, c, a, s⟩ := f
    rw [plug, ih]
    cases c with
    | red =>
      simp only [bal_fork_red, CtxBal, reduceCtorEq, if_false]
      exact exists_congr fun n => and_assoc
    | black =>
      simp only [bal_fork_black, CtxBal, if_true]
      constructor
      · rintro ⟨_, ⟨k, rfl, ht, hs⟩, hc⟩
        exact ⟨k, ht, hs, hc⟩
      · rintro ⟨k, ht, hs, hc⟩
        exact ⟨k + 1, ⟨k, rfl, ht, hs⟩, hc⟩

lemma noRedRed_plug {ctx : List (Frame α)} {t : ColorTree α} :
    ((plug ctx t).NoRedRed ∧ (plug ctx t).color = .black) ↔
      t.NoRedRed ∧ CtxNoRed ctx t.color := by
  induction ctx generalizing t with
  | nil => rfl
  | cons f ctx ih =>
    rw [plug, ih, noRedRed_fork, color_fork, CtxNoRed]
    tauto

lemma CtxNoRed.black {ctx : List (Frame α)} {c : Color} (h : CtxNoRed ctx c) :
    CtxNoRed ctx .black := by
  cases ctx with
  | nil => rfl
  | cons f ctx => exact ⟨fun hf => ⟨rfl, (h.1 hf).2⟩, h.2⟩

lemma length_le_plug (ctx : List (Frame α)) (t : ColorTree α) :
    ctx.length ≤ (plug ctx t).toList.length := by
  rw [toList_plug]
  suffices ctx.length ≤ (before ctx).length + (after ctx).length by
    simp only [List.length_append]
    omega
  induction ctx with
  | nil => simp
  | cons f ctx ih =>
    obtain ⟨d, c, a, s⟩ := f
    cases d <;> simp only [before, after, List.length_append, List.length_cons,
      List.length_nil, List.cons_append] <;> omega

lemma exists_plug_of_mem {t : ColorTree α} {a : α} (h : a ∈ t.toList) :
    ∃ ctx c l r, t = plug ctx (node c l a r) := by
  induction t with
  | nil => exact absurd h (by simp [toList])
  | node c l b r ihl ihr =>
    simp only [toList, List.mem_append, List.mem_cons] at h
    rcases h with h | rfl | h
    · obtain ⟨ctx, c', l', r', he⟩ := ihl h
      exact ⟨ctx ++ [⟨.left, c, b, r⟩], c', l', r', by rw [plug_append, ← he]; rfl⟩
    · exact ⟨[], c, l, r, rfl⟩
    · obtain ⟨ctx, c', l', r', he⟩ := ihr h
      exact ⟨ctx ++ [⟨.right, c, b, l⟩], c', l', r', by rw [plug_append, ← he]; rfl⟩

lemma before_append (ctx ctx' : List (Frame α)) :
    before (ctx ++ ctx') = before ctx' ++ before ctx := by
  induction ctx with
  | nil => simp [before]
  | cons f ctx ih =>
    obtain ⟨d, c, a, s⟩ := f
    cases d <;> simp [before, ih]

lemma after_append (ctx ctx' : List (Frame α)) :
    after (ctx ++ ctx') = after ctx ++ after ctx' := by
  induction ctx with
  | nil => simp [after]
  | cons f ctx ih =>
    obtain ⟨d, c, a, s⟩ := f
    cases d <;> simp [after, ih]

lemma exists_plug_head {t : ColorTree α} (h : t ≠ nil) :
    ∃ ctx c a r, t = plug ctx (node c nil a r) ∧ before ctx = [] := by
  induction t with
  | nil => exact absurd rfl h
  | node c l b r ihl _ =>
    cases l with
    | nil => exact ⟨[], c, b, r, rfl, rfl⟩
    | node c' l' a' r' =>
      obtain ⟨ctx, e, a, x, he, hb⟩ := ihl (by simp)
      exact ⟨ctx ++ [⟨.left, c, b, r⟩], e, a, x, by rw [plug_append, ← he]; rfl,
        by simp [before_append, before, hb]⟩

end OpenSM.Lib.RedBlack
