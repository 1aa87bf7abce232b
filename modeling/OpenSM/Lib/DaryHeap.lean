import Mathlib

/-! Trees of a fixed branching factor in an array, ordered along their edges, and the two repairs after one
entry has been changed. -/

namespace OpenSM.Lib.DaryHeap

variable {α : Type*} {r : α → α → Prop} {d n h c i j : ℕ} {a : ℕ → α} {x : α}

def parent (d i : ℕ) : ℕ := (i - 1) / d

def Child (d c p : ℕ) : Prop := 0 < c ∧ parent d c = p

lemma parent_lt (hi : 0 < i) : parent d i < i :=
  lt_of_le_of_lt (Nat.div_le_self (i - 1) d) (Nat.sub_lt hi Nat.one_pos)

lemma Child.lt (hc : Child d c h) : h < c := hc.2 ▸ parent_lt hc.1

lemma child_iff (hd : 0 < d) : Child d c h ↔ h * d + 1 ≤ c ∧ c < h * d + 1 + d := by
  rw [Child, parent]
  constructor
  · rintro ⟨hc, rfl⟩
    have hmod := Nat.mod_lt (c - 1) hd
    have hdiv := Nat.div_add_mod (c - 1) d
    rw [mul_comm] at hdiv
    omega
  · rintro ⟨hle, hlt⟩
    refine ⟨by omega, ?_⟩
    rw [Nat.div_eq_iff hd]
    omega

def swap (a : ℕ → α) (i j : ℕ) : ℕ → α := Function.update (Function.update a i (a j)) j (a i)

lemma swap_left (h : i ≠ j) : swap a i j i = a j := by
  rw [swap, Function.update_of_ne h, Function.update_self]

lemma swap_right : swap a i j j = a i := Function.update_self _ _ _

lemma swap_of_ne {k : ℕ} (hi : k ≠ i) (hj : k ≠ j) : swap a i j k = a k := by
  rw [swap, Function.update_of_ne hj, Function.update_of_ne hi]

section Order

variable (r d n)

def Ordered (a : ℕ → α) : Prop := ∀ i, 0 < i → i < n → r (a (parent d i)) (a i)

structure UpReady (a : ℕ → α) (h : ℕ) : Prop where
  edge : ∀ i, 0 < i → i < n → i ≠ h → r (a (parent d i)) (a i)
  grand : ∀ c, Child d c h → c < n → 0 < h → r (a (parent d h)) (a c)

structure DownReady (a : ℕ → α) (h : ℕ) : Prop where
  edge : ∀ i, 0 < i → i < n → parent d i ≠ h → r (a (parent d i)) (a i)
  grand : ∀ c, Child d c h → c < n → 0 < h → r (a (parent d h)) (a c)

variable {r d n} (htrans : ∀ x y z, r x y → r y z → r x z)

include htrans in
lemma UpReady.swap (hu : UpReady r d n a h) (hpos : 0 < h) (hn : h < n) (hlt : r (a h) (a (parent d h))) :
    UpReady r d n (swap a h (parent d h)) (parent d h) := by
  have hp : parent d h < h := parent_lt hpos
  constructor
  · intro i hi hin hne
    by_cases hih : i = h
    · rw [hih, swap_right, swap_left hp.ne']
      exact hlt
    · rw [swap_of_ne hih hne]
      by_cases hph : parent d i = h
      · rw [hph, swap_left hp.ne']
        exact hu.grand i ⟨hi, hph⟩ hin hpos
      · by_cases hpp : parent d i = parent d h
        · rw [hpp, swap_right]
          exact htrans _ _ _ hlt (hpp ▸ hu.edge i hi hin hih)
        · rw [swap_of_ne hph hpp]
          exact hu.edge i hi hin hih
  · intro c hc hcn hpp
    have hgp : parent d (parent d h) < parent d h := parent_lt hpp
    have hup := hu.edge (parent d h) hpp (hp.trans hn) hp.ne
    rw [swap_of_ne (hgp.trans hp).ne hgp.ne]
    by_cases hch : c = h
    · rw [hch, swap_left hp.ne']
      exact hup
    · rw [swap_of_ne hch hc.lt.ne']
      have hedge := hu.edge c hc.1 hcn hch
      rw [hc.2] at hedge
      exact htrans _ _ _ hup hedge

lemma UpReady.ordered (hu : UpReady r d n a h) (hle : 0 < h → r (a (parent d h)) (a h)) : Ordered r d n a := by
  intro i hi hin
  by_cases hih : i = h
  · rw [hih]
    exact hle (hih ▸ hi)
  · exact hu.edge i hi hin hih

lemma DownReady.swap (hd : DownReady r d n a h) (hc : Child d c h) (hcn : c < n)
    (hmin : ∀ c', Child d c' h → c' < n → r (a c) (a c')) (hlt : r (a c) (a h)) :
    DownReady r d n (swap a h c) c := by
  have hhc : h < c := hc.lt
  constructor
  · intro i hi hin hne
    by_cases hih : i = h
    · have hgp : parent d h < h := parent_lt (hih ▸ hi)
      rw [hih, swap_left hhc.ne, swap_of_ne hgp.ne (hgp.trans hhc).ne]
      exact hd.grand c hc hcn (hih ▸ hi)
    · by_cases hic : i = c
      · rw [hic, hc.2, swap_left hhc.ne, swap_right]
        exact hlt
      · rw [swap_of_ne hih hic]
        by_cases hph : parent d i = h
        · rw [hph, swap_left hhc.ne]
          exact hmin i ⟨hi, hph⟩ hin
        · rw [swap_of_ne hph hne]
          exact hd.edge i hi hin hph
  · intro c' hc' hcn' _
    rw [hc.2, swap_left hhc.ne, swap_of_ne (hhc.trans hc'.lt).ne' hc'.lt.ne']
    have hedge := hd.edge c' hc'.1 hcn' (hc'.2 ▸ hhc.ne')
    rw [hc'.2] at hedge
    exact hedge

lemma DownReady.ordered (hd : DownReady r d n a h) (hle : ∀ c, Child d c h → c < n → r (a h) (a c)) :
    Ordered r d n a := by
  intro i hi hin
  by_cases hph : parent d i = h
  · rw [hph]
    exact hle i ⟨hi, hph⟩ hin
  · exact hd.edge i hi hin hph

include htrans in
lemma Ordered.upReady (ho : Ordered r d n a) (hn : h < n) (hx : r x (a h)) :
    UpReady r d n (Function.update a h x) h := by
  constructor
  · intro i hi hin hne
    rw [Function.update_of_ne hne]
    have hedge := ho i hi hin
    by_cases hph : parent d i = h
    · rw [hph, Function.update_self]
      rw [hph] at hedge
      exact htrans _ _ _ hx hedge
    · rw [Function.update_of_ne hph]
      exact hedge
  · intro c hc hcn hpos
    have hp : parent d h < h := parent_lt hpos
    have hedge := ho c hc.1 hcn
    rw [hc.2] at hedge
    rw [Function.update_of_ne hp.ne, Function.update_of_ne hc.lt.ne']
    exact htrans _ _ _ (ho h hpos hn) hedge

include htrans in
lemma Ordered.downReady (ho : Ordered r d n a) (hn : h < n) (hx : 0 < h → r (a (parent d h)) x) :
    DownReady r d n (Function.update a h x) h := by
  constructor
  · intro i hi hin hne
    rw [Function.update_of_ne hne]
    by_cases hih : i = h
    · rw [hih, Function.update_self]
      exact hx (hih ▸ hi)
    · rw [Function.update_of_ne hih]
      exact ho i hi hin
  · intro c hc hcn hpos
    have hp : parent d h < h := parent_lt hpos
    have hedge := ho c hc.1 hcn
    rw [hc.2] at hedge
    rw [Function.update_of_ne hp.ne, Function.update_of_ne hc.lt.ne']
    exact htrans _ _ _ (ho h hpos hn) hedge

lemma Ordered.push (ho : Ordered r d n a) : UpReady r d (n + 1) (Function.update a n x) n := by
  constructor
  · intro i hi hin hne
    have hlt : i < n := lt_of_le_of_ne (Nat.lt_succ_iff.mp hin) hne
    have hp : parent d i < i := parent_lt hi
    rw [Function.update_of_ne hne, Function.update_of_ne (hp.trans hlt).ne]
    exact ho i hi hlt
  · intro c hc hcn _
    have hlt := hc.lt
    omega

lemma Ordered.mono {m : ℕ} (ho : Ordered r d n a) (hm : m ≤ n) : Ordered r d m a :=
  fun i hi him => ho i hi (him.trans_le hm)

lemma Ordered.congr {b : ℕ → α} (ho : Ordered r d n a) (hb : ∀ i < n, b i = a i) : Ordered r d n b := by
  intro i hi hin
  rw [hb i hin, hb _ ((parent_lt hi).trans hin)]
  exact ho i hi hin

include htrans in
lemma Ordered.root_le (hrefl : ∀ x, r x x) (ho : Ordered r d n a) (hi : i < n) : r (a 0) (a i) := by
  induction i using Nat.strongRecOn with
  | ind i ih =>
    rcases Nat.eq_zero_or_pos i with rfl | hpos
    · exact hrefl _
    · exact htrans _ _ _ (ih _ (parent_lt hpos) ((parent_lt hpos).trans hi)) (ho i hpos hi)

end Order

section Bag

def bag (n : ℕ) (a : ℕ → α) : Multiset α := (Multiset.range n).map a

lemma bag_succ : bag (n + 1) a = a n ::ₘ bag n a := by
  rw [bag, Multiset.range_succ, Multiset.map_cons, bag]

lemma bag_congr {b : ℕ → α} (h : ∀ i < n, a i = b i) : bag n a = bag n b :=
  Multiset.map_congr rfl fun i hi => h i (Multiset.mem_range.mp hi)

lemma mem_bag {x : α} : x ∈ bag n a ↔ ∃ i < n, a i = x := by
  rw [bag, Multiset.mem_map]
  exact exists_congr fun i => and_congr_left' Multiset.mem_range

lemma bag_update (hi : i < n) : a i ::ₘ bag n (Function.update a i x) = x ::ₘ bag n a := by
  have hmem : i ∈ Multiset.range n := Multiset.mem_range.mpr hi
  obtain ⟨s, hs⟩ := Multiset.exists_cons_of_mem hmem
  have hnot : i ∉ s := by
    have hnodup := Multiset.nodup_range n
    rw [hs] at hnodup
    exact (Multiset.nodup_cons.mp hnodup).1
  have hsame : s.map (Function.update a i x) = s.map a :=
    Multiset.map_congr rfl fun k hk => Function.update_of_ne (ne_of_mem_of_not_mem hk hnot) _ _
  rw [bag, bag, hs, Multiset.map_cons, Multiset.map_cons, Function.update_self, hsame, Multiset.cons_swap]

lemma bag_swap (hi : i < n) (hj : j < n) : bag n (swap a i j) = bag n a := by
  by_cases hij : i = j
  · rw [← hij, swap, Function.update_idem, Function.update_eq_self]
  · have hj' : Function.update a i (a j) j = a j := Function.update_of_ne (Ne.symm hij) _ _
    have h₁ := bag_update (a := Function.update a i (a j)) (x := a i) hj
    have h₂ := bag_update (a := a) (x := a j) hi
    rw [hj'] at h₁
    rw [← Multiset.cons_inj_right (a j), swap, h₁, h₂]

end Bag

end OpenSM.Lib.DaryHeap
