import Mathlib

/-! Totals built up from the readings of counters that saturate and that anyone may set to zero: the
difference to the previous reading is added, and the previous reading is forgotten when the counter is
believed to have been cleared. -/

namespace OpenSM.Lib.Meter

/-- The events a value read stands for: those after the first `since` and among the first `upto`. -/
structure Window where
  since : ℕ
  upto : ℕ

structure Counter where
  value : ℕ
  since : ℕ

def Counter.bump (max n : ℕ) (c : Counter) : Counter := { c with value := min (c.value + n) max }

def Counter.zero (events : ℕ) : Counter := ⟨0, events⟩

def Counter.window (events : ℕ) (c : Counter) : Window := ⟨c.since, events⟩

structure Counter.Sound (max events : ℕ) (c : Counter) : Prop where
  le_max : c.value ≤ max
  le_events : c.since + c.value ≤ events

/-- `previous` and `total` are what is kept of a counter; the rest is said about them. -/
structure Entry where
  previous : ℕ
  total : ℕ
  /-- what of the total stems from the reading that is in `previous` -/
  counted : ℕ
  /-- the events counted in readings that are no longer subtracted are among the first `forgotten` -/
  forgotten : ℕ
  /-- the events at the last reading that was not zero -/
  upto : ℕ
  last : Option ℕ
  /-- the difference last added, before it is taken modulo the width -/
  difference : ℤ

def Entry.fresh : Entry := ⟨0, 0, 0, 0, 0, none, 0⟩

def Entry.forget (x : Entry) : Entry :=
  { x with
    previous := 0
    counted := 0
    forgotten := if x.counted = 0 then x.forgotten else x.upto }

variable (w : ℕ)

def Entry.add (v : ℕ) (win : Option Window) (x : Entry) : Entry :=
  { x with
    previous := v
    total := (x.total + (v + 2 ^ w - x.previous) % 2 ^ w) % 2 ^ w
    difference := v - x.previous
    counted := if win.isSome then v else 0
    upto := if v = 0 then x.upto else win.elim x.upto Window.upto
    last := if win.isSome then some v else x.last }

def Entry.skip (v : ℕ) (x : Entry) : Entry := { x.forget with previous := v }

/-- No event is counted twice; `live` when the differences of this counter are added. -/
structure Entry.Sound (live : Prop) (events : ℕ) (x : Entry) : Prop where
  total_le : x.total ≤ x.forgotten + x.counted
  counted_le : x.counted ≤ x.previous
  le_upto : x.forgotten + x.counted ≤ x.upto
  upto_le : x.upto ≤ events
  live : live → x.counted = x.previous
  exact : x.forgotten = 0 → x.total = x.counted

/-- A reading that starts at `since` shares no event with readings that are not subtracted from it, also
when the previous reading is forgotten because it is thought to have been cleared. -/
def Entry.After (cleared : Prop) (since : ℕ) (x : Entry) : Prop :=
  x.forgotten ≤ since ∧ (cleared → x.counted ≠ 0 → x.upto ≤ since)

instance (cleared : Prop) [Decidable cleared] (since : ℕ) (x : Entry) : Decidable (x.After cleared since) :=
  inferInstanceAs (Decidable (_ ∧ (_ → _ → _)))

section Counter

variable {max events n : ℕ} {c : Counter}

lemma Counter.Sound.bump (h : c.Sound max events) : (c.bump max n).Sound max (events + n) where
  le_max := min_le_right _ _
  le_events := by
    have hn := min_le_left (c.value + n) max
    have he := h.le_events
    simp only [Counter.bump]
    omega

lemma Counter.zero_sound : (Counter.zero events).Sound max events := ⟨Nat.zero_le _, le_rfl⟩

end Counter

section Entry

variable {live : Prop} {events events' v : ℕ} {win : Option Window} {x : Entry}

lemma Entry.fresh_sound : Entry.fresh.Sound live events where
  total_le := le_rfl
  counted_le := le_rfl
  le_upto := le_rfl
  upto_le := Nat.zero_le _
  live _ := rfl
  exact _ := rfl

lemma Entry.Sound.total_le_events (h : x.Sound live events) : x.total ≤ events :=
  h.total_le.trans (h.le_upto.trans h.upto_le)

lemma Entry.Sound.mono (h : x.Sound live events) (he : events ≤ events') : x.Sound live events' :=
  { h with upto_le := h.upto_le.trans he }

lemma Entry.Sound.relive {live' : Prop} (h : x.Sound live events) (hl : live' → live ∨ x.previous = 0) :
    x.Sound live' events where
  total_le := h.total_le
  counted_le := h.counted_le
  le_upto := h.le_upto
  upto_le := h.upto_le
  live h' := by
    rcases hl h' with hl | hp
    · exact h.live hl
    · have hc := h.counted_le
      omega
  exact := h.exact

lemma Entry.Sound.forget (h : x.Sound live events) : x.forget.Sound live events := by
  obtain ⟨h₁, h₂, h₃, h₄, h₅, h₆⟩ := h
  simp only [Entry.forget]
  by_cases hc : x.counted = 0
  · rw [if_pos hc]
    exact ⟨by simpa [hc] using h₁, le_rfl, by simpa [hc] using h₃, h₄, fun _ => rfl, by simpa [hc] using h₆⟩
  · rw [if_neg hc]
    refine ⟨?_, le_rfl, le_rfl, h₄, fun _ => rfl, ?_⟩
    · exact h₁.trans h₃
    · intro h0
      simp only at h0
      omega

lemma Entry.Sound.skip (h : x.Sound live events) (hlive : ¬ live) : (x.skip v).Sound live events := by
  have hf := h.forget
  exact { hf with counted_le := Nat.zero_le _, live := fun h' => (hlive h').elim }

lemma Entry.After.forget {cleared : Prop} {since : ℕ} (h : x.After cleared since) (hc : cleared) :
    x.forget.forgotten ≤ since := by
  simp only [Entry.forget]
  split_ifs with h0
  · exact h.1
  · exact h.2 hc h0

lemma add_mod (hv : v < 2 ^ w) (hp : x.previous ≤ v) :
    (x.total + (v + 2 ^ w - x.previous) % 2 ^ w) % 2 ^ w = (x.total + (v - x.previous)) % 2 ^ w := by
  have hs : v + 2 ^ w - x.previous = v - x.previous + 2 ^ w := by omega
  rw [hs, Nat.add_mod_right, Nat.mod_eq_of_lt (a := v - x.previous) (by omega)]

lemma Entry.Sound.total_add_le (h : x.Sound live events) (hv : v < 2 ^ w) (hp : x.previous ≤ v) :
    (x.add w v win).total ≤ x.forgotten + v := by
  have ht := h.total_le
  have hc := h.counted_le
  simp only [Entry.add, add_mod w hv hp]
  exact (Nat.mod_le _ _).trans (by omega)

lemma Entry.Sound.total_add_eq (h : x.Sound live events) (hl : live) (hv : v < 2 ^ w) (hp : x.previous ≤ v)
    (h0 : x.forgotten = 0) : (x.add w v win).total = v := by
  have ht : x.total + (v - x.previous) = v := by
    rw [h.exact h0, h.live hl]
    omega
  simp only [Entry.add, add_mod w hv hp, ht]
  exact Nat.mod_eq_of_lt hv

lemma Entry.Sound.add {u : Window} (h : x.Sound live events) (hl : live) (hv : v < 2 ^ w)
    (hp : x.previous ≤ v) (hu : u.since + v ≤ u.upto) (hue : u.upto ≤ events) (hf : x.forgotten ≤ u.since) :
    (x.add w v (some u)).Sound live events where
  total_le := h.total_add_le w hv hp
  counted_le := le_rfl
  le_upto := by
    simp only [Entry.add, Option.isSome_some, if_true, Option.elim_some]
    split_ifs with h0
    · have hx := h.le_upto
      omega
    · omega
  upto_le := by
    simp only [Entry.add, Option.elim_some]
    split_ifs
    · exact h.upto_le
    · exact hue
  live _ := rfl
  exact h0 := h.total_add_eq w hl hv hp h0

lemma Entry.Sound.add_none (h : x.Sound live events) (hp : x.previous ≤ 0) :
    (x.add w 0 none).Sound live events := by
  have hc : x.counted = 0 := Nat.le_zero.mp (h.counted_le.trans hp)
  have ht : (x.add w 0 none).total ≤ x.forgotten + 0 := h.total_add_le w (Nat.two_pow_pos w) hp
  refine ⟨ht, le_rfl, ?_, h.upto_le, fun _ => rfl, fun h0 => ?_⟩
  · have hx := h.le_upto
    rwa [hc] at hx
  · have hf : x.forgotten = 0 := h0
    rw [hf] at ht
    exact Nat.le_zero.mp ht

def Entry.Exact (x : Entry) : Prop := ∀ v, x.last = some v → x.total = v ∧ v < 2 ^ w

lemma Entry.Exact.forget (h : x.Exact w) : x.forget.Exact w := h

lemma Entry.Exact.skip (h : x.Exact w) : (x.skip v).Exact w := h

lemma Entry.Exact.add {u : Window} (h : x.Sound live events) (hl : live) (hv : v < 2 ^ w)
    (hp : x.previous ≤ v) (hf : x.forgotten = 0) : (x.add w v (some u)).Exact w := by
  intro v' hv'
  obtain rfl : v = v' := Option.some.inj hv'
  exact ⟨h.total_add_eq w hl hv hp hf, hv⟩

lemma Entry.Exact.add_none (h : x.Exact w) (hp : x.previous ≤ 0) : (x.add w 0 none).Exact w := by
  intro v' hv'
  obtain ⟨ht, hv⟩ := h v' hv'
  refine ⟨?_, hv⟩
  have hm := add_mod w (x := x) (Nat.two_pow_pos w) hp
  exact hm.trans (by rw [ht, Nat.zero_sub, Nat.add_zero, Nat.mod_eq_of_lt hv])

end Entry

section Record

variable {F : Type*} [Fintype F]

def Decreased (checked : F → Bool) (v : F → ℕ) (r : F → Entry) : Prop :=
  ∃ i, checked i = true ∧ v i < (r i).previous

instance (checked : F → Bool) (v : F → ℕ) (r : F → Entry) : Decidable (Decreased checked v r) :=
  inferInstanceAs (Decidable (∃ i, checked i = true ∧ v i < (r i).previous))

def check (checked : F → Bool) (v : F → ℕ) (r : F → Entry) : F → Entry :=
  if Decreased checked v r then fun i => (r i).forget else r

def addReading (live : F → Bool) (v : F → ℕ) (win : F → Option Window) (r : F → Entry) : F → Entry :=
  fun i => if live i then (r i).add w (v i) (win i) else (r i).skip (v i)

def Sound (live : F → Bool) (events : F → ℕ) (r : F → Entry) : Prop :=
  ∀ i, (r i).Sound (live i = true) (events i)

variable {live checked : F → Bool} {events v : F → ℕ} {win : F → Option Window} {r : F → Entry} {i : F}

omit [Fintype F] in
lemma Sound.forget (h : Sound live events r) : Sound live events fun i => (r i).forget :=
  fun i => (h i).forget

lemma Sound.check (h : Sound live events r) : Sound live events (check checked v r) := by
  simp only [Meter.check]
  split_ifs
  · exact h.forget
  · exact h

lemma previous_check_le (hi : checked i = true) : (check checked v r i).previous ≤ v i := by
  simp only [check]
  split_ifs with h
  · exact Nat.zero_le _
  · by_contra hlt
    exact h ⟨i, hi, not_le.mp hlt⟩

lemma forgotten_check_le {since : ℕ} (h : (r i).After (Decreased checked v r) since) :
    (check checked v r i).forgotten ≤ since := by
  simp only [check]
  split_ifs with hd
  · exact h.forget hd
  · exact h.1

/-- What a reading has to be: a value that stands for events, and for none counted in a reading that is
no longer subtracted. -/
def Admissible (live : F → Bool) (events v : F → ℕ) (win : F → Option Window) (r : F → Entry) : Prop :=
  ∀ i, live i = true → match win i with
    | none => v i = 0
    | some u => v i < 2 ^ w ∧ u.since + v i ≤ u.upto ∧ u.upto ≤ events i ∧
        (r i).After (Decreased live v r) u.since

lemma Sound.read (h : Sound live events r) (ha : Admissible w live events v win r) :
    Sound live events (addReading w live v win (Meter.check live v r)) := by
  intro i
  have hi : ((Meter.check live v r) i).Sound (live i = true) (events i) := h.check i
  have hai := ha i
  simp only [addReading]
  split_ifs with hl
  · have hp : (Meter.check live v r i).previous ≤ v i := previous_check_le hl
    cases hw : win i with
    | none =>
      simp only [hl, hw, true_imp_iff] at hai
      rw [hai] at hp ⊢
      exact hi.add_none w hp
    | some u =>
      simp only [hl, hw, true_imp_iff] at hai
      obtain ⟨hv, hu, hue, haf⟩ := hai
      exact hi.add w hl hv hp hu hue (forgotten_check_le haf)
  · exact hi.skip hl

lemma Exact.read (hs : Sound live events r) (ha : Admissible w live events v win r)
    (h0 : ∀ i u, win i = some u → u.since = 0) (h : ∀ i, (r i).Exact w) (i : F) :
    (addReading w live v win (check live v r) i).Exact w := by
  have hi : ((check live v r) i).Sound (live i = true) (events i) := hs.check i
  have hx : (check live v r i).Exact w := by
    simp only [check]
    split_ifs
    · exact (h i).forget
    · exact h i
  have hai := ha i
  simp only [addReading]
  split_ifs with hl
  · have hp : (check live v r i).previous ≤ v i := previous_check_le hl
    cases hw : win i with
    | none =>
      simp only [hl, hw, true_imp_iff] at hai
      rw [hai] at hp ⊢
      exact hx.add_none w hp
    | some u =>
      simp only [hl, hw, true_imp_iff] at hai
      obtain ⟨hv, -, -, haf⟩ := hai
      have hf := forgotten_check_le haf
      rw [h0 i u hw] at hf
      exact Entry.Exact.add w hi hl hv hp (Nat.le_zero.mp hf)
  · exact hx.skip

lemma difference_read_nonneg (h : ∀ i, 0 ≤ (r i).difference) (i : F) :
    0 ≤ (addReading w live v win (check live v r) i).difference := by
  simp only [addReading]
  split_ifs with hl
  · have hp : (check live v r i).previous ≤ v i := previous_check_le hl
    simp only [Entry.add]
    omega
  · simp only [Entry.skip, Entry.forget, check]
    split_ifs <;> exact h i

end Record

end OpenSM.Lib.Meter
