import OpenSM.ClMapRemove

/-! Whole runs of a quick map, compared with a finite map. -/

namespace OpenSM.ClMap

open Lib.RedBlack Lib.PtrTree Lib.Ring ColorTree

variable {α κ : Type} [DecidableEq α] {t : ColorTree α} [LinearOrder κ]

/-- The calls on a map. `none` stands for the end of the map, as `cl_qmap_end` gives it. -/
inductive Op (α κ : Type)
  | insert (k : κ) (a : α)
  | removeItem (p : Option α)
  | remove (k : κ)

def Op.run (m : QMap α κ) : Op α κ → Option (QMap α κ)
  | .insert k a => (ClMap.insert m k (.item a)).map Prod.snd
  | .removeItem p => ClMap.removeItem m (ptrOf p)
  | .remove k => (ClMap.remove m k).map Prod.snd

def Op.apply (f : κ → Option α) : Op α κ → κ → Option α
  | .insert k a => mapInsert f k a
  | .removeItem none => f
  | .removeItem (some a) => mapRemoveItem f a
  | .remove k => Function.update f k none

/-- An item is inserted only while it is outside the map, and removed only from it. -/
def Op.Legal (f : κ → Option α) : Op α κ → Prop
  | .insert _ a => ∀ k, f k ≠ some a
  | .removeItem none => True
  | .removeItem (some a) => ∃ k, f k = some a
  | .remove _ => True

def run : List (Op α κ) → QMap α κ → Option (QMap α κ)
  | [], m => some m
  | op :: ops, m => (op.run m).bind (run ops)

def applyAll : List (Op α κ) → (κ → Option α) → κ → Option α
  | [], f => f
  | op :: ops, f => applyAll ops (op.apply f)

def AllLegal : List (Op α κ) → (κ → Option α) → Prop
  | [], _ => True
  | op :: ops, f => op.Legal f ∧ AllLegal ops (op.apply f)

lemma holds_init [Zero κ] (m : QMap α κ) : Holds (init m) .nil where
  focus := ⟨⟨rfl, rfl⟩, rfl, by simp [before, after, toList]⟩
  bal := ⟨0, rfl⟩
  noRed := trivial
  black := rfl
  sentinels := ⟨rfl, rfl⟩
  sorted := by simp [toList]
  linked := by simp [Linked, init, toList]
  count := rfl

lemma Op.run_spec {m : QMap α κ} {f : κ → Option α} (hm : Holds m t) (hf : Models m t f)
    {op : Op α κ} (hop : op.Legal f) :
    ∃ m' t', op.run m = some m' ∧ Holds m' t' ∧ Models m' t' (op.apply f) := by
  cases op with
  | insert k a =>
    have ha : a ∉ t.toList := fun h => hop (m.key (.item a)) ((hf _ a).mpr ⟨h, rfl⟩)
    obtain ⟨m', t', hr, h⟩ := insert_spec hm hf ha k
    exact ⟨m', t', by simp [Op.run, hr], h⟩
  | removeItem p =>
    cases p with
    | none => exact ⟨m, t, by simp [Op.run, ptrOf, ClMap.removeItem], hm, hf⟩
    | some a =>
      obtain ⟨k, hk⟩ := hop
      exact removeItem_spec hm hf ((hf k a).mp hk).1
  | remove k =>
    obtain ⟨m', t', hr, h⟩ := remove_spec hm hf k
    exact ⟨m', t', by simp [Op.run, hr], h⟩

lemma run_holds (ops : List (Op α κ)) {m : QMap α κ} {f : κ → Option α} (hm : Holds m t)
    (hf : Models m t f) (hops : AllLegal ops f) :
    ∃ m' t', run ops m = some m' ∧ Holds m' t' ∧ Models m' t' (applyAll ops f) := by
  induction ops generalizing m t f with
  | nil => exact ⟨m, t, rfl, hm, hf⟩
  | cons op ops ih =>
    obtain ⟨m₁, t₁, hr, hm₁, hf₁⟩ := Op.run_spec hm hf hops.1
    obtain ⟨m', t', hr', h⟩ := ih hm₁ hf₁ hops.2
    exact ⟨m', t', by rw [run, hr, Option.bind_some, hr'], h⟩

/-- After any calls on a fresh map the tree is a red-black tree in key order, the list threads its
items in that order, and both searches agree with the finite map. -/
theorem run_init_spec [Zero κ] (m₀ : QMap α κ) (ops : List (Op α κ))
    (hops : AllLegal ops fun _ => none) :
    ∃ m t, run ops (init m₀) = some m ∧ Holds m t ∧
      Models m t (applyAll ops fun _ => none) ∧
      (∀ k, get m k = some (ptrOf (applyAll ops (fun _ => none) k))) ∧
      ∀ k, ∃ r, getNext m k = some (ptrOf r) ∧ IsNext (applyAll ops fun _ => none) k r := by
  have hf₀ : Models (init m₀) .nil fun _ => none := by
    intro k a
    simp [toList]
  obtain ⟨m, t, hr, hm, hf⟩ := run_holds ops (holds_init m₀) hf₀ hops
  exact ⟨m, t, hr, hm, hf, get_spec hm hf, getNext_spec hm hf⟩

def sampleOps : List (Op ℕ ℕ) :=
  [.insert 5 0, .insert 3 1, .insert 8 2, .insert 5 3, .insert 9 3, .removeItem (some 0), .remove 3]

def blank : QMap ℕ ℕ :=
  ⟨⟨fun _ _ => .root, fun _ => .root, fun _ => .red⟩, fun _ => 0, fun _ => .root, fun _ => .root, 7⟩

theorem run_init_sample : AllLegal sampleOps (fun _ => none) ∧
    ∃ m t, run sampleOps (init blank) = some m ∧ Holds m t ∧
      Models m t (applyAll sampleOps fun _ => none) ∧
      (∀ k, get m k = some (ptrOf (applyAll sampleOps (fun _ => none) k))) ∧
      ∀ k, ∃ r, getNext m k = some (ptrOf r) ∧
        IsNext (applyAll sampleOps fun _ => none) k r := by
  have hops : AllLegal sampleOps (fun _ => none) := by
    refine ⟨?_, ?_, ?_, ?_, ?_, ⟨5, ?_⟩, trivial, trivial⟩
    all_goals simp [Op.Legal, Op.apply, mapInsert, Function.update_apply]
    all_goals grind
  exact ⟨hops, run_init_spec blank sampleOps hops⟩

end OpenSM.ClMap
