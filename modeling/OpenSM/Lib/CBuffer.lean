import Mathlib
import OpenSM.Lib.CString

/-! Strings cut in place: a buffer of characters, and positions in it as the pointers of C. -/

namespace OpenSM.Lib.CBuffer

open CString

abbrev nul : Char := '\x00'

def cstr (b : Str) (p : ℕ) : Str := (b.drop p).takeWhile (· != nul)

def strlen (b : Str) (p : ℕ) : ℕ := (cstr b p).length

def strchr (b : Str) (p : ℕ) (c : Char) : Option ℕ :=
  if c ∈ cstr b p then some (p + (cstr b p).idxOf c) else none

def put (b : Str) (q : ℕ) : Str := b.set q nul

def cut (b : Str) : Option ℕ → Str
  | none => b
  | some q => put b q

variable (blank : Char → Bool)

/-- `while (blank(*p)) p++` -/
def skipHead (b : Str) (p : ℕ) : ℕ := p + ((b.drop p).takeWhile blank).length

/-- `while (q != p && (*q == '\0' || blank(*q))) *q-- = '\0'` -/
def stripTail (b : Str) (p : ℕ) : ℕ → Str
  | 0 => b
  | q + 1 =>
    if q + 1 ≠ p ∧ (b.getD (q + 1) nul = nul ∨ blank (b.getD (q + 1) nul)) then stripTail
        (put b (q + 1)) p q else b

def trim (s : Str) : Str := (s.dropWhile blank).rdropWhile blank

section Cut

variable {pre w u v rest : Str} {c : Char}

lemma cstr_at (hw : nul ∉ w) : cstr (pre ++ (w ++ nul :: rest)) pre.length = w := by
  have hall : ∀ x ∈ w, (x != nul) = true := fun x hx => by
    have hne : x ≠ nul := fun h => hw (h ▸ hx)
    simpa using hne
  rw [cstr, List.drop_left, List.takeWhile_append_of_pos hall]
  simp

lemma strlen_at (hw : nul ∉ w) : strlen (pre ++ (w ++ nul :: rest)) pre.length = w.length := by
  rw [strlen, cstr_at hw]

lemma strchr_none (hw : nul ∉ w) (hc : c ∉ w) : strchr (pre ++ (w ++ nul :: rest)) pre.length c = none := by
  rw [strchr, cstr_at hw, if_neg hc]

lemma strchr_some (hw : nul ∉ u ++ c :: v) (hc : c ∉ u) :
    strchr (pre ++ (u ++ c :: v ++ nul :: rest)) pre.length c = some (pre.length + u.length) := by
  rw [strchr, cstr_at hw, if_pos (by simp), List.idxOf_append_of_notMem hc, List.idxOf_cons_self, Nat.add_zero]

lemma put_at (x : Char) : put (pre ++ (u ++ x :: v)) (pre.length + u.length) = pre ++ (u ++ nul :: v) := by
  rw [put, List.set_append_right _ _ (by omega), Nat.add_sub_cancel_left, List.set_append_right _ _ le_rfl,
    Nat.sub_self, List.set_cons_zero]

lemma getD_at (x : Char) : (pre ++ x :: v).getD pre.length nul = x := by
  simp

lemma getD_at_add (x : Char) : (pre ++ (u ++ x :: v)).getD (pre.length + u.length) nul = x := by
  rw [← List.append_assoc, ← List.length_append]
  exact getD_at x

variable {blank}

lemma takeWhile_append_cons {u v : Str} (hc : blank c = false) :
    (u ++ c :: v).takeWhile blank = u.takeWhile blank := by
  induction u with
  | nil => simp [hc]
  | cons x u ih =>
    rw [List.cons_append, List.takeWhile_cons, List.takeWhile_cons, ih]

lemma skipHead_at (hc : blank c = false) :
    skipHead blank (pre ++ (u ++ c :: v)) pre.length = pre.length + (u.takeWhile blank).length := by
  rw [skipHead, List.drop_left, takeWhile_append_cons hc]

lemma stripTail_stop (b : Str) (p : ℕ) : stripTail blank b p p = b := by
  cases p with
  | zero => rfl
  | succ p => exact if_neg fun h => h.1 rfl

lemma stripTail_keep {b : Str} {p q : ℕ} (hn : b.getD q nul ≠ nul) (hb : blank (b.getD q nul) = false) :
    stripTail blank b p q = b := by
  cases q with
  | zero => rfl
  | succ q => exact if_neg fun h => h.2.elim hn fun h => absurd h (Bool.not_eq_true _ ▸ hb)

lemma stripTail_go {b : Str} {p q : ℕ} (hq : q + 1 ≠ p)
    (hb : b.getD (q + 1) nul = nul ∨ blank (b.getD (q + 1) nul) = true) :
    stripTail blank b p (q + 1) = stripTail blank (put b (q + 1)) p q := if_pos ⟨hq, hb⟩

def stripped (blank : Char → Bool) (u : Str) : Str :=
  u.rdropWhile blank ++ List.replicate (u.length - (u.rdropWhile blank).length) nul

lemma length_stripped (u : Str) : (stripped blank u).length = u.length := by
  have hle : (u.rdropWhile blank).length ≤ u.length := (List.rdropWhile_prefix blank _).length_le
  rw [stripped, List.length_append, List.length_replicate]
  omega

lemma stripTail_at (u z : Str) (hu : nul ∉ u) (hhead : ∀ x ∈ u.head?, blank x = false)
    (hc : c = nul ∨ blank c = true)
    (he : u = [] → c = nul) :
    stripTail blank (pre ++ (u ++ c :: z)) pre.length (pre.length + u.length) =
      pre ++ (stripped blank u ++ nul :: z) := by
  induction u using List.reverseRecOn generalizing c z with
  | nil =>
    rw [he rfl]
    exact stripTail_stop _ _
  | append_singleton v x ih =>
    have hlen : pre.length + (v ++ [x]).length = pre.length + v.length + 1 := by
      rw [List.length_append, List.length_singleton, Nat.add_assoc]
    have hget : (pre ++ (v ++ [x] ++ c :: z)).getD (pre.length + v.length + 1) nul = c := hlen ▸ getD_at_add c
    have hput : put (pre ++ (v ++ [x] ++ c :: z)) (pre.length + v.length + 1) = pre ++ (v ++ x :: nul :: z) := by
      rw [← hlen, put_at, List.append_assoc]
      rfl
    rw [hlen, stripTail_go (by omega) (hget.symm ▸ hc), hput]
    have hx : x ≠ nul := fun h => hu (h ▸ by simp)
    by_cases hb : blank x = true
    · have hv : v ≠ [] := by
        rintro rfl
        simp [hb] at hhead
      obtain ⟨a, v', rfl⟩ := List.exists_cons_of_ne_nil hv
      rw [ih (nul :: z) (fun h => hu (List.mem_append_left _ h)) (by simpa using hhead) (Or.inr hb)
          (fun h => absurd h hv)]
      have hr : (a :: v' ++ [x]).rdropWhile blank = (a :: v').rdropWhile blank :=
          List.rdropWhile_concat_pos _ _ _ hb
      have hle : ((a :: v').rdropWhile blank).length ≤ (a :: v').length :=
          (List.rdropWhile_prefix blank _).length_le
      have hk : (a :: v' ++ [x]).length - ((a :: v').rdropWhile blank).length =
          (a :: v').length - ((a :: v').rdropWhile blank).length + 1 := by
        rw [List.length_append, List.length_singleton]
        omega
      rw [stripped, stripped, hr, hk, List.replicate_succ', List.append_assoc, List.append_assoc,
          List.append_assoc]
      rfl
    · have hr : (v ++ [x]).rdropWhile blank = v ++ [x] := List.rdropWhile_concat_neg _ _ _ hb
      rw [stripTail_keep ((getD_at_add x).trans_ne hx)
        ((congrArg blank (getD_at_add x)).trans (by simpa using hb)), stripped, hr, Nat.sub_self]
      simp

lemma cstr_stripped (hu : nul ∉ u) :
    cstr (pre ++ (stripped blank u ++ nul :: rest)) pre.length = u.rdropWhile blank := by
  have hr : nul ∉ u.rdropWhile blank := fun h => hu ((List.rdropWhile_prefix blank _).mem h)
  obtain ⟨z, hz⟩ : ∃ z, List.replicate (u.length - (u.rdropWhile blank).length) nul ++ nul :: rest = nul :: z := by
    cases u.length - (u.rdropWhile blank).length with
    | zero => exact ⟨rest, rfl⟩
    | succ k => exact ⟨_, rfl⟩
  rw [stripped, List.append_assoc, hz]
  exact cstr_at hr

def trimmed (blank : Char → Bool) (w : Str) : Str := w.takeWhile blank ++ stripped blank (w.dropWhile blank)

lemma length_trimmed (w : Str) : (trimmed blank w).length = w.length := by
  rw [trimmed, List.length_append, length_stripped, ← List.length_append, List.takeWhile_append_dropWhile]

lemma notMem_dropWhile (hw : nul ∉ w) : nul ∉ w.dropWhile blank :=
  fun h => hw ((List.dropWhile_sublist blank).subset h)

lemma split_blank (w t : Str) :
    pre ++ (w ++ t) = (pre ++ w.takeWhile blank) ++ (w.dropWhile blank ++ t) := by
  rw [List.append_assoc, ← List.append_assoc (w.takeWhile blank), List.takeWhile_append_dropWhile]

lemma strlen_blank (hw : nul ∉ w) :
    strlen (pre ++ (w ++ nul :: rest)) (pre.length + (w.takeWhile blank).length) = (w.dropWhile blank).length := by
  rw [split_blank, ← List.length_append, strlen_at (notMem_dropWhile hw)]

lemma stripTail_trimmed (hw : nul ∉ w) :
    let b := pre ++ (w ++ nul :: rest)
    let p := pre.length + (w.takeWhile blank).length
    stripTail blank b p (p + strlen b p) = pre ++ (trimmed blank w ++ nul :: rest) := by
  intro b p
  have hb : b = (pre ++ w.takeWhile blank) ++ (w.dropWhile blank ++ nul :: rest) := split_blank w _
  have hp : p = (pre ++ w.takeWhile blank).length := (List.length_append ..).symm
  have hd : nul ∉ w.dropWhile blank := notMem_dropWhile hw
  have hhead : ∀ x ∈ (w.dropWhile blank).head?, blank x = false := by
    intro x hx
    have := List.head?_dropWhile_not blank w
    rw [Option.mem_def.mp hx] at this
    simpa using this
  rw [hb, hp, strlen_at hd, stripTail_at _ _ hd hhead (Or.inl rfl) fun _ => rfl, trimmed, List.append_assoc,
    List.append_assoc]

lemma cstr_trimmed (hw : nul ∉ w) :
    cstr (pre ++ (trimmed blank w ++ nul :: rest)) (pre.length + (w.takeWhile blank).length) = trim blank w := by
  rw [trimmed, List.append_assoc, ← List.append_assoc, ← List.length_append]
  exact cstr_stripped (notMem_dropWhile hw)

end Cut

end OpenSM.Lib.CBuffer
