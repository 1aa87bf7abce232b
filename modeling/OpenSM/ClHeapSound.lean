import OpenSM.ClHeap

/-! What the operations of `cl_heap` keep: the order, the contents, and what the user knows about the places. -/

namespace OpenSM.ClHeap

open Lib.DaryHeap

variable {C : Type*} {cmp : UInt64 → UInt64 → ℤ}

/-- The sign of `pfn_compare` comes from a total preorder. -/
structure Compare (cmp : UInt64 → UInt64 → ℤ) : Prop where
  swap : ∀ a b, cmp a b < 0 ↔ 0 < cmp b a
  trans : ∀ a b c, cmp a b ≤ 0 → cmp b c ≤ 0 → cmp a c ≤ 0

lemma Compare.le_of_pos (hc : Compare cmp) {a b : UInt64} (h : 0 < cmp a b) : cmp b a ≤ 0 :=
    ((hc.swap b a).mpr h).le

lemma Compare.le_of_not_neg (hc : Compare cmp) {a b : UInt64} (h : ¬cmp a b < 0) : cmp b a ≤ 0 :=
  not_lt.mp fun hpos => h ((hc.swap a b).mpr hpos)

lemma Compare.refl (hc : Compare cmp) (a : UInt64) : cmp a a ≤ 0 := by
  have h := hc.swap a a
  omega

def Below (cmp : UInt64 → UInt64 → ℤ) (x y : Elem C) : Prop := cmp x.key y.key ≤ 0

lemma Below.trans (hc : Compare cmp) (x y z : Elem C) (hxy : Below cmp x y) (hyz : Below cmp y z) :
    Below cmp x z :=
  hc.trans _ _ _ hxy hyz

section Reports

variable {T : Type*} [DecidableEq T] (g : Option C × ℕ → T)

/-- The index of the last call of `pfn_index_update` for what `g` tells from the rest. -/
def lastReport (t : T) (reports : List ((Option C × ℕ) × ℕ)) : Option ℕ :=
  (reports.find? fun x => g x.1 = t).map Prod.snd

variable {g} {t : T} {x : Option C × ℕ} {i j n : ℕ} {reports : List ((Option C × ℕ) × ℕ)} {a : ℕ → Elem C}

lemma lastReport_self : lastReport g (g x) ((x, i) :: reports) = some i := by
  simp only [lastReport, List.find?_cons, decide_true, Option.map_some]

lemma lastReport_of_ne (h : g x ≠ t) : lastReport g t ((x, i) :: reports) = lastReport g t reports := by
  rw [lastReport, List.find?_cons_of_neg (by simpa using h)]
  rfl

variable (g) (n)

/-- The places of all elements are known, but perhaps not that of the one at `h`. -/
structure IndexedBut (a : ℕ → Elem C) (reports : List ((Option C × ℕ) × ℕ)) (h : ℕ) : Prop where
  inj : ∀ i < n, ∀ j < n, g (a i).handle = g (a j).handle → i = j
  last : ∀ i < n, i ≠ h → lastReport g (g (a i).handle) reports = some i

def Indexed (a : ℕ → Elem C) (reports : List ((Option C × ℕ) × ℕ)) : Prop :=
  ∀ h, IndexedBut g n a reports h

variable {g} {n}

lemma Indexed.last (h : Indexed g n a reports) (hi : i < n) : lastReport g (g (a i).handle) reports = some i :=
  (h (i + 1)).last i hi (Nat.succ_ne_self i).symm

lemma IndexedBut.report (h : IndexedBut g n a reports i) (hi : i < n) :
    Indexed g n a (((a i).handle, i) :: reports) := by
  refine fun k => ⟨h.inj, fun j hj _ => ?_⟩
  by_cases hji : j = i
  · rw [hji]
    exact lastReport_self
  · rw [lastReport_of_ne fun heq => hji (h.inj j hj i hi heq.symm)]
    exact h.last j hj hji

lemma IndexedBut.move (h : IndexedBut g n a reports i) (hi : i < n) (hj : j < n) (hij : i ≠ j) :
    IndexedBut g n (swap a i j) (((a j).handle, i) :: reports) j := by
  have hinj : ∀ k < n, ∀ l < n, g (swap a i j k).handle = g (swap a i j l).handle → k = l := by
    have hat : ∀ k < n, ∃ k' < n, swap a i j k = a k' ∧ (k = i → k' = j) ∧ (k = j → k' = i) ∧
        (k ≠ i → k ≠ j → k' = k) := by
      intro k hk
      by_cases hki : k = i
      · refine ⟨j, hj, ?_, fun _ => rfl, fun hkj => absurd (hki.symm.trans hkj) hij, fun h => absurd hki h⟩
        rw [hki, swap_left hij]
      · by_cases hkj : k = j
        · refine ⟨i, hi, ?_, fun h => absurd h hki, fun _ => rfl, fun _ h => absurd hkj h⟩
          rw [hkj, swap_right]
        · exact ⟨k, hk, swap_of_ne hki hkj, fun h => absurd h hki, fun h => absurd h hkj, fun _ _ => rfl⟩
    intro k hk l hl heq
    obtain ⟨k', hk', hak, hki, hkj, hkk⟩ := hat k hk
    obtain ⟨l', hl', hal, hli, hlj, hll⟩ := hat l hl
    rw [hak, hal] at heq
    have hkl := h.inj k' hk' l' hl' heq
    omega
  refine ⟨hinj, fun k hk hkj => ?_⟩
  by_cases hki : k = i
  · rw [hki, swap_left hij]
    exact lastReport_self
  · rw [swap_of_ne hki hkj, lastReport_of_ne fun heq => hkj (h.inj k hk j hj heq.symm)]
    exact h.last k hk hki

end Reports

section Sift

variable {T : Type*} [DecidableEq T] {g : Option C × ℕ → T} {n d : ℕ} {tmp : Elem C} {a₀ : ℕ → Elem C} {s : Sift C}

def Sift.filled (s : Sift C) (tmp : Elem C) : ℕ → Elem C := Function.update s.array s.index tmp

lemma Sift.filled_move {j : ℕ} (hj : j ≠ s.index) : (s.move j).filled tmp = swap (s.filled tmp) s.index j := by
  rw [Sift.filled, Sift.filled, swap, Function.update_self, Function.update_of_ne hj, Function.update_idem]
  rfl

structure Sifting (g : Option C × ℕ → T) (n : ℕ) (tmp : Elem C) (a₀ : ℕ → Elem C) (s : Sift C) : Prop where
  index_lt : s.index < n
  contents : bag n (s.filled tmp) = bag n a₀
  above : ∀ i, n ≤ i → s.array i = a₀ i
  indexed : IndexedBut g n (s.filled tmp) s.reports s.index
  still : s.swapped = false → s.filled tmp = s.array ∧ Indexed g n s.array s.reports

lemma Sifting.move (h : Sifting g n tmp a₀ s) {j : ℕ} (hj : j < n) (hne : j ≠ s.index) :
    Sifting g n tmp a₀ (s.move j) := by
  have hfilled := @Sift.filled_move C tmp s j hne
  refine ⟨hj, ?_, fun i hi => ?_, ?_, nofun⟩
  · rw [hfilled, bag_swap h.index_lt hj]
    exact h.contents
  · have hi' : i ≠ s.index := (h.index_lt.trans_le hi).ne'
    change Function.update s.array s.index (s.array j) i = a₀ i
    rw [Function.update_of_ne hi']
    exact h.above i hi
  · rw [hfilled]
    have hmove := h.indexed.move h.index_lt hj hne.symm
    have hat : s.filled tmp j = s.array j := Function.update_of_ne hne _ _
    rw [hat] at hmove
    exact hmove

structure Sifted (g : Option C × ℕ → T) (h h' : Heap C) : Prop where
  contents : bag h.size h'.elementArray = bag h.size h.elementArray
  above : ∀ i, h.size ≤ i → h'.elementArray i = h.elementArray i
  indexed : Indexed g h.size h'.elementArray h'.reports

def SameShape (h h' : Heap C) : Prop :=
  h'.branchingFactor = h.branchingFactor ∧ h'.size = h.size ∧ h'.capacity = h.capacity ∧ h'.inserts = h.inserts

lemma finish_shape (s : Sift C) (tmp : Elem C) (h : Heap C) : SameShape h (s.finish tmp h) := by
  rw [Sift.finish]
  split_ifs
  · exact ⟨rfl, rfl, rfl, rfl⟩
  · exact ⟨rfl, rfl, rfl, rfl⟩

lemma Sifting.finish {h : Heap C} (hs : Sifting g h.size tmp h.elementArray s) :
    Sifted g h (s.finish tmp h) ∧ (s.finish tmp h).elementArray = s.filled tmp := by
  rw [Sift.finish]
  split_ifs with hsw
  · refine ⟨⟨hs.contents, fun i hi => ?_, ?_⟩, rfl⟩
    · have hi' : i ≠ s.index := (hs.index_lt.trans_le hi).ne'
      exact (Function.update_of_ne hi' _ _).trans (hs.above i hi)
    · have hreport := hs.indexed.report hs.index_lt
      have hat : s.filled tmp s.index = tmp := Function.update_self _ _ _
      rw [hat] at hreport
      exact hreport
  · obtain ⟨hfilled, hindexed⟩ := hs.still (Bool.not_eq_true _ ▸ hsw)
    exact ⟨⟨hfilled ▸ hs.contents, hs.above, hindexed⟩, hfilled.symm⟩

lemma sifting_start {h : Heap C} (hi : Indexed g h.size h.elementArray h.reports) {index : ℕ}
    (hlt : index < h.size) :
    Sifting g h.size (h.elementArray index) h.elementArray ⟨h.elementArray, h.reports, index, false⟩ := by
  have hfilled : (⟨h.elementArray, h.reports, index, false⟩ : Sift C).filled (h.elementArray index) =
      h.elementArray := Function.update_eq_self _ _
  refine ⟨hlt, ?_, fun _ _ => rfl, ?_, fun _ => ⟨hfilled, hi⟩⟩
  · rw [hfilled]
  · rw [hfilled]
    exact hi index

end Sift

section Down

variable {T : Type*} [DecidableEq T] {g : Option C × ℕ → T} {n d : ℕ} {tmp : Elem C} {a₀ : ℕ → Elem C} {s : Sift C}

lemma foldl_better_le (hc : Compare cmp) (array : ℕ → Elem C) (first k : ℕ) {j : ℕ} (hj : first ≤ j)
    (hjk : j ≤ first + k) :
    Below cmp (array ((List.range' (first + 1) k).foldl (better cmp array) first)) (array j) := by
  induction k with
  | zero =>
    obtain rfl : j = first := le_antisymm hjk hj
    exact hc.refl _
  | succ k ih =>
    rw [List.range'_1_concat, List.foldl_append, List.foldl_cons, List.foldl_nil, better]
    rcases (show j ≤ first + k ∨ j = first + 1 + k by omega) with hlt | rfl
    · split_ifs with hle
      · exact Below.trans hc _ _ _ hle (ih hlt)
      · exact ih hlt
    · split_ifs with hle
      · exact hc.refl _
      · exact hc.le_of_pos (not_le.mp hle)

lemma swapChild_spec (hc : Compare cmp) {size first : ℕ} (hd : 0 < d) (array : ℕ → Elem C) (hlt : first < size) :
    swapChild cmp d size array first < size ∧ swapChild cmp d size array first < first + d ∧
      ∀ j, first ≤ j → j < first + d → j < size →
          Below cmp (array (swapChild cmp d size array first)) (array j) := by
  have hk : swapChild cmp d size array first ≤ first + (min (first + d) size - (first + 1)) :=
    (foldl_better cmp array first _).2
  refine ⟨by omega, by omega, fun j hj hjd hjs => foldl_better_le hc array first _ hj (by omega)⟩

lemma heapDownLoop_spec (hc : Compare cmp) (hd : 0 < d) (hs : Sifting g n tmp a₀ s)
    (hr : DownReady (Below cmp) d n (s.filled tmp) s.index) :
    Sifting g n tmp a₀ (heapDownLoop cmp hd n tmp s) ∧
      Ordered (Below cmp) d n ((heapDownLoop cmp hd n tmp s).filled tmp) := by
  have htmp : s.filled tmp s.index = tmp := Function.update_self _ _ _
  fun_induction heapDownLoop cmp hd n tmp s with
  | case1 s hlt child hpos ih =>
    obtain ⟨hcn, hcd, hmin⟩ := swapChild_spec hc hd s.array hlt
    have hle := le_swapChild cmp d n s.array (s.index * d + 1)
    have hchild : Child d child s.index := (child_iff hd).mpr ⟨hle, by omega⟩
    have hne : child ≠ s.index := hchild.lt.ne'
    have hat : ∀ c, c ≠ s.index → s.filled tmp c = s.array c := fun c hc' => Function.update_of_ne hc' _ _
    refine ih (hs.move hcn hne) ?_ (Function.update_self _ _ _)
    rw [Sift.filled_move hne]
    refine hr.swap hchild hcn (fun c hc' hcn' => ?_) ?_
    · obtain ⟨hlo, hhi⟩ := (child_iff hd).mp hc'
      rw [hat child hne, hat c hc'.lt.ne']
      exact hmin c hlo (by omega) hcn'
    · rw [hat child hne, htmp]
      exact hc.le_of_pos hpos
  | case2 s hlt child hpos =>
    obtain ⟨hcn, hcd, hmin⟩ := swapChild_spec hc hd s.array hlt
    refine ⟨hs, hr.ordered fun c hc' hcn' => ?_⟩
    obtain ⟨hlo, hhi⟩ := (child_iff hd).mp hc'
    have hat : s.filled tmp c = s.array c := Function.update_of_ne hc'.lt.ne' _ _
    rw [htmp, hat]
    exact hc.trans _ _ _ (not_lt.mp hpos) (hmin c hlo (by omega) hcn')
  | case3 s hlt =>
    refine ⟨hs, hr.ordered fun c hc' hcn' => ?_⟩
    obtain ⟨hlo, -⟩ := (child_iff hd).mp hc'
    omega

lemma heapDown_spec (hc : Compare cmp) {h : Heap C} {index : ℕ} (hlt : index < h.size)
    (hi : Indexed g h.size h.elementArray h.reports)
    (hr : DownReady (Below cmp) h.branchingFactor h.size h.elementArray index) :
    Sifted g h (heapDown cmp h index) ∧
      Ordered (Below cmp) h.branchingFactor h.size (heapDown cmp h index).elementArray := by
  have hstart := sifting_start hi hlt
  have hfilled : (⟨h.elementArray, h.reports, index, false⟩ : Sift C).filled (h.elementArray index) =
      h.elementArray := Function.update_eq_self _ _
  obtain ⟨hs, ho⟩ := heapDownLoop_spec hc h.branchingFactor_pos hstart (hfilled.symm ▸ hr)
  obtain ⟨hsifted, harray⟩ := hs.finish
  rw [heapDown]
  exact ⟨hsifted, harray ▸ ho⟩

lemma heapDown_of_le (cmp : UInt64 → UInt64 → ℤ) {h : Heap C} {index : ℕ} (hle : h.size ≤ index) :
    heapDown cmp h index = h := by
  have hmul := Nat.le_mul_of_pos_right index h.branchingFactor_pos
  rw [heapDown, heapDownLoop, if_neg (not_lt.mpr (show h.size ≤ index * h.branchingFactor + 1 by omega))]
  rfl

end Down

section Up

variable {T : Type*} [DecidableEq T] {g : Option C × ℕ → T} {n d : ℕ} {tmp : Elem C} {a₀ : ℕ → Elem C} {s : Sift C}

lemma heapUpLoop_spec (hc : Compare cmp) (hs : Sifting g n tmp a₀ s) (hpos : 0 < s.index)
    (hr : UpReady (Below cmp) d n (s.filled tmp) s.index) :
    Sifting g n tmp a₀ (heapUpLoop cmp d tmp s) ∧
        Ordered (Below cmp) d n ((heapUpLoop cmp d tmp s).filled tmp) := by
  have htmp : s.filled tmp s.index = tmp := Function.update_self _ _ _
  have hmove : ∀ s : Sift C, Sifting g n tmp a₀ s → 0 < s.index → UpReady (Below cmp) d n (s.filled tmp) s.index →
      cmp tmp.key (s.array ((s.index - 1) / d)).key < 0 → Sifting g n tmp a₀ (s.move ((s.index - 1) / d)) ∧
        UpReady (Below cmp) d n ((s.move ((s.index - 1) / d)).filled tmp) ((s.index - 1) / d) := by
    intro s hs hpos hr hlt
    have hp : parent d s.index < s.index := parent_lt hpos
    have hat : s.filled tmp (parent d s.index) = s.array (parent d s.index) := Function.update_of_ne hp.ne _ _
    have htmp : s.filled tmp s.index = tmp := Function.update_self _ _ _
    refine ⟨hs.move (hp.trans hs.index_lt) hp.ne, ?_⟩
    change UpReady (Below cmp) d n ((s.move (parent d s.index)).filled tmp) (parent d s.index)
    rw [Sift.filled_move hp.ne]
    refine hr.swap (Below.trans hc) hpos hs.index_lt ?_
    rw [hat, htmp]
    exact hlt.le
  fun_induction heapUpLoop cmp d tmp s with
  | case1 s parent hlt hparent ih =>
    obtain ⟨hs', hr'⟩ := hmove s hs hpos hr hlt
    exact ih hs' hparent hr' (Function.update_self _ _ _)
  | case2 s parent hlt hparent =>
    obtain ⟨hs', hr'⟩ := hmove s hs hpos hr hlt
    exact ⟨hs', hr'.ordered fun h => absurd h hparent⟩
  | case3 s parent hlt =>
    refine ⟨hs, hr.ordered fun _ => ?_⟩
    have hp : Lib.DaryHeap.parent d s.index < s.index := parent_lt hpos
    have hat : s.filled tmp (Lib.DaryHeap.parent d s.index) = s.array parent := Function.update_of_ne hp.ne _ _
    rw [htmp, hat]
    exact hc.le_of_not_neg hlt

lemma heapUp_spec (hc : Compare cmp) {h : Heap C} {index : ℕ} (hlt : index < h.size)
    (hi : Indexed g h.size h.elementArray h.reports)
    (hr : UpReady (Below cmp) h.branchingFactor h.size h.elementArray index) :
    Sifted g h (heapUp cmp h index) ∧
      Ordered (Below cmp) h.branchingFactor h.size (heapUp cmp h index).elementArray := by
  rw [heapUp]
  split_ifs with h0
  · refine ⟨⟨rfl, fun _ _ => rfl, hi⟩, hr.ordered fun hpos => absurd h0 hpos.ne'⟩
  · have hstart := sifting_start hi hlt
    have hfilled : (⟨h.elementArray, h.reports, index, false⟩ : Sift C).filled (h.elementArray index) =
        h.elementArray := Function.update_eq_self _ _
    obtain ⟨hs, ho⟩ := heapUpLoop_spec hc hstart (Nat.pos_of_ne_zero h0) (hfilled.symm ▸ hr)
    obtain ⟨hsifted, harray⟩ := hs.finish
    exact ⟨hsifted, harray ▸ ho⟩

lemma heapDown_shape (cmp : UInt64 → UInt64 → ℤ) (h : Heap C) (index : ℕ) : SameShape h (heapDown cmp h index) :=
  finish_shape _ _ h

lemma heapUp_shape (cmp : UInt64 → UInt64 → ℤ) (h : Heap C) (index : ℕ) : SameShape h (heapUp cmp h index) := by
  rw [heapUp]
  split_ifs
  · exact ⟨rfl, rfl, rfl, rfl⟩
  · exact finish_shape _ _ h

end Up

end OpenSM.ClHeap
