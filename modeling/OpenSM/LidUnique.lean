import OpenSM.LidMgr
import OpenSM.Lib.Folds

/-! When LID ranges stay apart. The free ranges are computed before any port has been asked and are
never compared with `used_lids` again, so a port that keeps its discovered LIDs must not find
them on the list of free ranges. -/

namespace OpenSM.LidMgr

variable {k : ℕ} {o : Opts} {ports : Fin k → Port}

def InRange (r : ℕ × ℕ) (l : ℕ) : Prop := r.1 ≤ l ∧ l ≤ r.2

def OnFreeRanges (st : Mgr k) (l : ℕ) : Prop := ∃ r ∈ st.freeRanges, InRange r l

def Claims (o : Opts) (ports : Fin k → Port) (g2l : Db) (i : Fin k) (l : ℕ) : Prop :=
  ∃ r, g2l (ports i).guid = some r ∧ r.1 ≤ l ∧ l + 1 ≤ r.1 + numLids o (ports i)

structure Apart (o : Opts) (ports : Fin k → Port) (g2l : Db) (used : ℕ → Bool) : Prop where
  used : ∀ i l, Claims o ports g2l i l → used l = true
  disjoint : ∀ i j l, Claims o ports g2l i l → Claims o ports g2l j l → i = j

/-- What holds between two calls of `lid_mgr_get_port_lid`. -/
structure Inv (o : Opts) (ports : Fin k → Port) (st : Mgr k) : Prop where
  apart : Apart o ports st.g2l st.usedLids
  sorted : st.freeRanges.Pairwise fun r r' => r.2 < r'.1
  free : ∀ l, OnFreeRanges st l → st.usedLids l = false

/-- The call does not hand out discovered LIDs that are on the list of free ranges. -/
def StepOk (o : Opts) (ports : Fin k → Port) (st : Mgr k) (i : Fin k) : Prop :=
  keepsLids o ports st i = true → ∀ l, (ports i).baseLid ≤ l →
    l + 1 ≤ (ports i).baseLid + numLids o (ports i) → ¬ OnFreeRanges st l

def RunOk (o : Opts) (ports : Fin k → Port) : List (Fin k) → Mgr k → Prop
  | [], _ => True
  | i :: is, st => StepOk o ports st i ∧ RunOk o ports is (getPortLid o ports st i).1

lemma markUsed_true {used : ℕ → Bool} {a b l : ℕ} :
    markUsed used a b true l = true ↔ (a ≤ l ∧ l ≤ b) ∨ used l = true := by
  simp only [markUsed]
  split_ifs with h <;> simp [h]

lemma mem_lidsFrom {a b l : ℕ} : l ∈ lidsFrom a b ↔ a ≤ l ∧ l ≤ b := by
  simp only [lidsFrom, List.mem_range'_1]
  omega

lemma numLids_pos (o : Opts) (p : Port) : 0 < numLids o p := by
  simp only [numLids]
  split_ifs
  · exact Nat.two_pow_pos _
  · exact one_pos

section Find

/-- A range that is found lies on the list, and what is left of the list is apart from it. -/
lemma findFreeLidRange_spec {num : ℕ} (hnum : 0 < num) {free free' : List (ℕ × ℕ)} {range : ℕ × ℕ}
    (hs : free.Pairwise fun r r' => r.2 < r'.1)
    (h : findFreeLidRange o num free = some (range, free')) :
    range.2 + 1 = range.1 + num ∧
    (∀ l, InRange range l → ∃ r ∈ free, InRange r l) ∧
    free'.Pairwise (fun r r' => r.2 < r'.1) ∧
    (∀ r ∈ free', ∃ r₀ ∈ free, r₀.1 ≤ r.1 ∧ r.2 = r₀.2) ∧
    ∀ r ∈ free', ∀ l, InRange r l → ¬ InRange range l := by
  induction free generalizing free' with
  | nil => simp [findFreeLidRange] at h
  | cons r rs ih =>
    obtain ⟨hr, hs'⟩ := List.pairwise_cons.mp hs
    set lid := if 1 < num ∧ r.1 % 2 ^ o.lmc ≠ 0 then
      (r.1 + 2 ^ o.lmc) / 2 ^ o.lmc * 2 ^ o.lmc else r.1 with hlid
    have hle : r.1 ≤ lid := by
      rw [hlid]
      split_ifs
      · have hpos : 0 < 2 ^ o.lmc := Nat.two_pow_pos _
        have hdiv := Nat.div_add_mod (r.1 + 2 ^ o.lmc) (2 ^ o.lmc)
        have hmod := Nat.mod_lt (r.1 + 2 ^ o.lmc) hpos
        rw [mul_comm] at hdiv
        omega
      · exact le_rfl
    simp only [findFreeLidRange, ← hlid] at h
    split_ifs at h with hfit hall
    · obtain ⟨rfl, rfl⟩ : (lid, lid + num - 1) = range ∧ rs = free' := by simpa using h
      refine ⟨by dsimp only; omega, ?_, hs', ?_, ?_⟩
      · rintro l ⟨h₁, h₂⟩
        exact ⟨r, List.mem_cons_self, by dsimp only [InRange] at *; omega⟩
      · exact fun r' hr' => ⟨r', List.mem_cons_of_mem _ hr', le_rfl, rfl⟩
      · rintro r' hr' l ⟨h₁, h₂⟩ ⟨h₃, h₄⟩
        have := hr r' hr'
        dsimp only at h₃ h₄
        omega
    · obtain ⟨rfl, rfl⟩ : (lid, lid + num - 1) = range ∧ (lid + num, r.2) :: rs = free' := by
        simpa using h
      refine ⟨by dsimp only; omega, ?_, ?_, ?_, ?_⟩
      · rintro l ⟨h₁, h₂⟩
        exact ⟨r, List.mem_cons_self, by dsimp only [InRange] at *; omega⟩
      · exact List.pairwise_cons.mpr ⟨hr, hs'⟩
      · intro r' hr'
        rcases List.mem_cons.mp hr' with rfl | hr'
        · exact ⟨r, List.mem_cons_self, by dsimp only; omega, rfl⟩
        · exact ⟨r', List.mem_cons_of_mem _ hr', le_rfl, rfl⟩
      · rintro r' hr' l ⟨h₁, h₂⟩ ⟨h₃, h₄⟩
        dsimp only at h₃ h₄
        rcases List.mem_cons.mp hr' with rfl | hr'
        · dsimp only at h₁
          omega
        · have := hr r' hr'
          omega
    · obtain ⟨⟨range₁, free₁⟩, hx, heq⟩ := Option.map_eq_some_iff.mp h
      obtain ⟨rfl, rfl⟩ : range₁ = range ∧ r :: free₁ = free' := by simpa using heq
      obtain ⟨h₁, h₂, h₃, h₄, h₅⟩ := ih hs' hx
      have hhead : ∀ r' ∈ free₁, r.2 < r'.1 := by
        intro r' hr'
        obtain ⟨r₀, hr₀, hle₀, -⟩ := h₄ r' hr'
        exact (hr r₀ hr₀).trans_le hle₀
      refine ⟨h₁, ?_, List.pairwise_cons.mpr ⟨hhead, h₃⟩, ?_, ?_⟩
      · intro l hl
        obtain ⟨r₀, hr₀, hl₀⟩ := h₂ l hl
        exact ⟨r₀, List.mem_cons_of_mem _ hr₀, hl₀⟩
      · intro r' hr'
        rcases List.mem_cons.mp hr' with rfl | hr'
        · exact ⟨r', List.mem_cons_self, le_rfl, rfl⟩
        · obtain ⟨r₀, hr₀, h⟩ := h₄ r' hr'
          exact ⟨r₀, List.mem_cons_of_mem _ hr₀, h⟩
      · intro r' hr' l hl hl'
        rcases List.mem_cons.mp hr' with rfl | hr'
        · obtain ⟨r₀, hr₀, hl₀⟩ := h₂ l hl'
          have := hr r₀ hr₀
          dsimp only [InRange] at hl hl₀
          omega
        · exact h₅ r' hr' l hl hl'

end Find

section Step

variable {st : Mgr k} {i : Fin k}

/-- Where a settled range comes from: the database, the port itself or the free ranges. -/
inductive Source (o : Opts) (ports : Fin k → Port) (st : Mgr k) (i : Fin k) :
    ℕ × ℕ → List (ℕ × ℕ) → Prop
  | db (r : ℕ × ℕ) (h : st.g2l (ports i).guid = some r) :
      Source o ports st i (r.1, r.1 + numLids o (ports i) - 1) st.freeRanges
  | kept (h : keepsLids o ports st i = true) :
      Source o ports st i ((ports i).baseLid, (ports i).baseLid + numLids o (ports i) - 1) st.freeRanges
  | free (range : ℕ × ℕ) (free : List (ℕ × ℕ))
      (h : findFreeLidRange o (numLids o (ports i)) st.freeRanges = some (range, free)) :
      Source o ports st i range free

lemma assignLid_cases (hout : (assignLid o ports st i).2.1 ≠ (0, 0)) :
    ∃ range free tbl, Source o ports st i range free ∧
      (tbl = st.portLidTbl ∨ tbl = cleanupDiscovered ports st.portLidTbl i) ∧
      (assignLid o ports st i).2.1 = range ∧ (assignLid o ports st i).1 =
        newLidSet ports { st with freeRanges := free, portLidTbl := tbl } i range := by
  simp only [assignLid] at hout ⊢
  split at hout
  · rename_i range free h
    exact ⟨range, free, _, .free range free h, Or.inr rfl, rfl, rfl⟩
  · exact absurd rfl hout

/-- What one call does, unless the free ranges are used up. -/
lemma getPortLid_cases (hout : (getPortLid o ports st i).2.1 ≠ (0, 0)) :
    ∃ range free tbl, Source o ports st i range free ∧
      (tbl = st.portLidTbl ∨ tbl = cleanupDiscovered ports st.portLidTbl i) ∧
      (getPortLid o ports st i).2.1 = range ∧ (getPortLid o ports st i).1 =
        newLidSet ports { st with freeRanges := free, portLidTbl := tbl } i range := by
  by_cases hre : o.reassigning = true
  · have heq : getPortLid o ports st i = assignLid o ports st i := by
      simp only [getPortLid, hre, if_true]
    rw [heq] at hout ⊢
    exact assignLid_cases hout
  · cases hdb : st.g2l (ports i).guid with
    | some r =>
      have heq : getPortLid o ports st i =
          if r.1 = (ports i).baseLid then
            (newLidSet ports st i (r.1, r.1 + numLids o (ports i) - 1),
              (r.1, r.1 + numLids o (ports i) - 1), false)
          else
            (newLidSet ports { st with portLidTbl := cleanupDiscovered ports st.portLidTbl i } i
              (r.1, r.1 + numLids o (ports i) - 1), (r.1, r.1 + numLids o (ports i) - 1), true) := by
        simp only [getPortLid, hre, hdb, Bool.false_eq_true, if_false]
      rw [heq]
      split_ifs
      · exact ⟨_, _, _, .db r hdb, Or.inl rfl, rfl, rfl⟩
      · exact ⟨_, _, _, .db r hdb, Or.inr rfl, rfl, rfl⟩
    | none =>
      by_cases hk : keepsLids o ports st i = true
      · have heq : getPortLid o ports st i =
            (newLidSet ports st i ((ports i).baseLid, (ports i).baseLid + numLids o (ports i) - 1),
              ((ports i).baseLid, (ports i).baseLid + numLids o (ports i) - 1), false) := by
          simp only [getPortLid, hre, hdb, hk, Bool.false_eq_true, if_false, if_true]
        rw [heq]
        exact ⟨_, _, _, .kept hk, Or.inl rfl, rfl, rfl⟩
      · have heq : getPortLid o ports st i = assignLid o ports st i := by
          simp only [getPortLid, hre, hdb, hk, Bool.false_eq_true, if_false]
        rw [heq] at hout ⊢
        exact assignLid_cases hout

lemma Source.width {range : ℕ × ℕ} {free : List (ℕ × ℕ)} (h : Source o ports st i range free)
    (hi : Inv o ports st) : range.2 + 1 = range.1 + numLids o (ports i) := by
  have hpos := numLids_pos o (ports i)
  cases h with
  | db r h => dsimp only; omega
  | kept h => dsimp only; omega
  | free range free h => exact (findFreeLidRange_spec hpos hi.sorted h).1

lemma keepsLids_unused (h : keepsLids o ports st i = true) {l : ℕ} (hl : (ports i).baseLid ≤ l)
    (hl' : l + 1 ≤ (ports i).baseLid + numLids o (ports i)) : st.usedLids l = false := by
  simp only [keepsLids, Bool.and_eq_true, isRangeNotPersistent, Bool.not_eq_true', List.any_eq_false,
    List.mem_range'_1] at h
  have := h.2 l (by omega)
  simpa using this

lemma Source.fresh {range : ℕ × ℕ} {free : List (ℕ × ℕ)} (h : Source o ports st i range free)
    (hi : Inv o ports st) {l : ℕ} (hl : InRange range l) {j : Fin k} (hj : j ≠ i) :
    ¬ Claims o ports st.g2l j l := by
  have hpos := numLids_pos o (ports i)
  intro hc
  have hused := hi.apart.used j l hc
  cases h with
  | db r h =>
    refine hj (hi.apart.disjoint j i l hc ⟨r, h, hl.1, ?_⟩)
    have := hl.2
    dsimp only at this
    omega
  | kept h =>
    have h₂ := hl.2
    dsimp only at h₂
    rw [keepsLids_unused h hl.1 (by omega)] at hused
    cases hused
  | free range free h =>
    rw [hi.free l ((findFreeLidRange_spec hpos hi.sorted h).2.1 l hl)] at hused
    cases hused

lemma claims_update (hg : Function.Injective fun i => (ports i).guid) {g2l : Db} {range : ℕ × ℕ}
    {j : Fin k} {l : ℕ} :
    Claims o ports (Function.update g2l (ports i).guid (some range)) j l ↔
      (j = i ∧ range.1 ≤ l ∧ l + 1 ≤ range.1 + numLids o (ports i)) ∨
        (j ≠ i ∧ Claims o ports g2l j l) := by
  by_cases hj : j = i
  · subst hj
    simp [Claims]
  · have hne : (ports j).guid ≠ (ports i).guid := fun h => hj (hg h)
    simp [Claims, hj, Function.update_of_ne hne]

lemma Inv.step (hg : Function.Injective fun i => (ports i).guid) (hi : Inv o ports st)
    (hok : StepOk o ports st i) (hout : (getPortLid o ports st i).2.1 ≠ (0, 0)) :
    Inv o ports (getPortLid o ports st i).1 := by
  obtain ⟨range, free, tbl, hsrc, -, -, heq⟩ := getPortLid_cases hout
  have hw := hsrc.width hi
  have hpos := numLids_pos o (ports i)
  have hin : ∀ l, range.1 ≤ l ∧ l + 1 ≤ range.1 + numLids o (ports i) ↔ InRange range l := by
    intro l
    dsimp only [InRange]
    omega
  rw [heq]
  refine ⟨⟨?_, ?_⟩, ?_, ?_⟩
  · intro j l hc
    refine markUsed_true.mpr ?_
    rcases (claims_update hg).mp hc with ⟨-, h⟩ | ⟨-, h⟩
    · exact Or.inl ((hin l).mp h)
    · exact Or.inr (hi.apart.used j l h)
  · intro j j' l hc hc'
    rcases (claims_update hg).mp hc with ⟨rfl, h⟩ | ⟨hj, h⟩
    · rcases (claims_update hg).mp hc' with ⟨rfl, -⟩ | ⟨hj', h'⟩
      · rfl
      · exact absurd h' (hsrc.fresh hi ((hin l).mp h) hj')
    · rcases (claims_update hg).mp hc' with ⟨rfl, h'⟩ | ⟨hj', h'⟩
      · exact absurd h (hsrc.fresh hi ((hin l).mp h') hj)
      · exact hi.apart.disjoint j j' l h h'
  · cases hsrc with
    | db r h => exact hi.sorted
    | kept h => exact hi.sorted
    | free range free h => exact (findFreeLidRange_spec hpos hi.sorted h).2.2.1
  · intro l hl
    change markUsed st.usedLids range.1 range.2 true l = false
    have hfree : st.usedLids l = false ∧ ¬ InRange range l := by
      cases hsrc with
      | db r h =>
        have hu := hi.free l hl
        refine ⟨hu, fun hr => ?_⟩
        rw [hi.apart.used i l ⟨r, h, (hin l).mpr hr⟩] at hu
        cases hu
      | kept h => exact ⟨hi.free l hl, fun hr => hok h l ((hin l).mpr hr).1 ((hin l).mpr hr).2 hl⟩
      | free range free h =>
        obtain ⟨-, -, -, hsub, hdis⟩ := findFreeLidRange_spec hpos hi.sorted h
        obtain ⟨r, hr, hlr⟩ := hl
        obtain ⟨r₀, hr₀, hle, heq₀⟩ := hsub r hr
        exact ⟨hi.free l ⟨r₀, hr₀, hle.trans hlr.1, heq₀ ▸ hlr.2⟩, hdis r hr l hlr⟩
    exact (if_neg hfree.2).trans hfree.1

end Step

section Run

/-- The database and `port_lid_tbl` hold the ranges handed out so far. -/
def Settled (o : Opts) (ports : Fin k → Port) (done : List (Fin k × (ℕ × ℕ))) (st : Mgr k) : Prop :=
  ∀ x ∈ done, st.g2l (ports x.1).guid = some x.2 ∧ x.2.2 + 1 = x.2.1 + numLids o (ports x.1) ∧
    ∀ l, InRange x.2 l → st.portLidTbl l = some x.1

lemma Settled.step (hg : Function.Injective fun i => (ports i).guid) {st : Mgr k} {i : Fin k}
    {done : List (Fin k × (ℕ × ℕ))} (hs : Settled o ports done st) (hi : Inv o ports st)
    (hnew : i ∉ done.map Prod.fst) (hout : (getPortLid o ports st i).2.1 ≠ (0, 0)) :
    Settled o ports (done ++ [(i, (getPortLid o ports st i).2.1)]) (getPortLid o ports st i).1 := by
  obtain ⟨range, free, tbl, hsrc, htbl, hrange, heq⟩ := getPortLid_cases hout
  rw [heq, hrange]
  intro x hx
  rcases List.mem_append.mp hx with hx | hx
  · obtain ⟨hdb, hw, hown⟩ := hs x hx
    have hne : x.1 ≠ i := fun h => hnew (h ▸ List.mem_map_of_mem hx)
    have hguid : (ports x.1).guid ≠ (ports i).guid := fun h => hne (hg h)
    refine ⟨(Function.update_of_ne hguid _ _).trans hdb, hw, ?_⟩
    intro l hl
    have hc : Claims o ports st.g2l x.1 l := ⟨x.2, hdb, hl.1, by have := hl.2; omega⟩
    have hnot : ¬ InRange range l := fun h => hsrc.fresh hi h hne hc
    change (if range.1 ≤ l ∧ l ≤ range.2 then some i else tbl l) = some x.1
    refine (if_neg hnot).trans ?_
    -- the cleanup only takes out entries of the port itself
    rcases htbl with rfl | rfl
    · exact hown l hl
    · simp only [cleanupDiscovered]
      rw [if_neg, hown l hl]
      rintro ⟨-, -, h⟩
      rw [hown l hl] at h
      exact hne (Option.some.inj h)
  · obtain rfl := List.mem_singleton.mp hx
    exact ⟨Function.update_self .., hsrc.width hi, fun l hl => if_pos hl⟩

lemma getPortLids_settled (hg : Function.Injective fun i => (ports i).guid) (is : List (Fin k))
    (st : Mgr k) (done : List (Fin k × (ℕ × ℕ))) (hi : Inv o ports st) (hs : Settled o ports done st)
    (hnd : (done.map Prod.fst ++ is).Nodup) (hok : RunOk o ports is st)
    (hout : ∀ x ∈ (getPortLids o ports is st).1, x.2 ≠ (0, 0)) :
    Inv o ports (getPortLids o ports is st).2 ∧
      Settled o ports (done ++ (getPortLids o ports is st).1) (getPortLids o ports is st).2 := by
  induction is generalizing st done with
  | nil => exact ⟨hi, by simpa [getPortLids] using hs⟩
  | cons i is ih =>
    have hout' : (getPortLid o ports st i).2.1 ≠ (0, 0) :=
      hout (i, (getPortLid o ports st i).2.1) (by simp [getPortLids])
    have hnew : i ∉ done.map Prod.fst := fun h =>
      (List.nodup_append.mp hnd).2.2 _ h _ List.mem_cons_self rfl
    obtain ⟨h₁, h₂⟩ := ih (getPortLid o ports st i).1 (done ++ [(i, (getPortLid o ports st i).2.1)])
      (hi.step hg hok.1 hout') (hs.step hg hi hnew hout') (by simpa using hnd) hok.2
      fun x hx => hout x (by simp [getPortLids, hx])
    exact ⟨h₁, by simpa [getPortLids] using h₂⟩

end Run

section Init

/-- The LIDs of an entry that `lid_mgr_validate_db` marks. -/
def Marks (o : Opts) (r : ℕ × ℕ) (l : ℕ) : Prop := r.1 ≤ l ∧ l ≤ r.2 ∧ l + 1 ≤ r.1 + 2 ^ o.lmc

/-- The entries of the GUIDs in `S` have passed the validation. -/
structure Checked (o : Opts) (S : ℕ → Prop) (st : Db × (ℕ → Bool)) : Prop where
  range : ∀ g r, S g → st.1 g = some r → r.1 ≤ r.2 ∧ (r.1 ≠ r.2 → r.1 % 2 ^ o.lmc = 0)
  used : ∀ g r l, S g → st.1 g = some r → Marks o r l → st.2 l = true
  disjoint : ∀ g g' r r' l, S g → S g' → st.1 g = some r → st.1 g' = some r' → Marks o r l →
    Marks o r' l → g = g'

lemma Checked.validateEntry {S : ℕ → Prop} {st : Db × (ℕ → Bool)} (h : Checked o S st) (guid : ℕ) :
    Checked o (fun g => S g ∨ g = guid) (validateEntry o st guid) := by
  simp only [LidMgr.validateEntry]
  cases hdb : st.1 guid with
  | none =>
    have hS : ∀ g r, (S g ∨ g = guid) → st.1 g = some r → S g := by
      rintro g r (hg | rfl) hr
      · exact hg
      · rw [hdb] at hr
        cases hr
    exact ⟨fun g r hg hr => h.range g r (hS g r hg hr) hr,
      fun g r l hg hr => h.used g r l (hS g r hg hr) hr,
      fun g g' r r' l hg hg' hr hr' => h.disjoint g g' r r' l (hS g r hg hr) (hS g' r' hg' hr') hr hr'⟩
  | some r₀ =>
    obtain ⟨minLid, maxLid⟩ := r₀
    dsimp only
    split_ifs with hbad
    · have hS : ∀ g r, (S g ∨ g = guid) → Function.update st.1 guid none g = some r →
          S g ∧ st.1 g = some r := by
        intro g r hg hr
        by_cases hgg : g = guid
        · subst hgg
          simp at hr
        · rw [Function.update_of_ne hgg] at hr
          exact ⟨hg.resolve_right hgg, hr⟩
      refine ⟨?_, ?_, ?_⟩
      · intro g r hg hr
        obtain ⟨h₁, h₂⟩ := hS g r hg hr
        exact h.range g r h₁ h₂
      · intro g r l hg hr
        obtain ⟨h₁, h₂⟩ := hS g r hg hr
        exact h.used g r l h₁ h₂
      · intro g g' r r' l hg hg' hr hr'
        obtain ⟨h₁, h₂⟩ := hS g r hg hr
        obtain ⟨h₃, h₄⟩ := hS g' r' hg' hr'
        exact h.disjoint g g' r r' l h₁ h₃ h₂ h₄
    · push Not at hbad
      obtain ⟨hle, -, -, -, hal, hfresh⟩ := hbad
      have hunused : ∀ l, minLid ≤ l → l ≤ maxLid → st.2 l = false := by
        intro l h₁ h₂
        have := List.any_eq_false.mp (Bool.eq_false_iff.mpr hfresh) l (mem_lidsFrom.mpr ⟨h₁, h₂⟩)
        simpa using this
      have hnew : ∀ g r l, S g → st.1 g = some r → Marks o r l → ¬ Marks o (minLid, maxLid) l := by
        rintro g r l hg hr hm ⟨h₁, h₂, -⟩
        have hu := h.used g r l hg hr hm
        rw [hunused l h₁ h₂] at hu
        cases hu
      refine ⟨?_, ?_, ?_⟩
      · rintro g r (hg | rfl) hr
        · exact h.range g r hg hr
        · rw [hdb] at hr
          cases hr
          exact ⟨hle, hal⟩
      · rintro g r l (hg | rfl) hr hm
        · exact markUsed_true.mpr (Or.inr (h.used g r l hg hr hm))
        · rw [hdb] at hr
          cases hr
          obtain ⟨h₁, h₂, h₃⟩ := hm
          exact markUsed_true.mpr (Or.inl ⟨h₁, by dsimp only at *; omega⟩)
      · rintro g g' r r' l hg hg' hr hr' hm hm'
        by_cases hgg : g = guid
        · subst hgg
          by_cases hgg' : g' = g
          · exact hgg'.symm
          · rw [hdb] at hr
            cases hr
            exact absurd hm (hnew g' r' l (hg'.resolve_right hgg') hr' hm')
        · by_cases hgg' : g' = guid
          · subst hgg'
            rw [hdb] at hr'
            cases hr'
            exact absurd hm' (hnew g r l (hg.resolve_right hgg) hr hm)
          · exact h.disjoint g g' r r' l (hg.resolve_right hgg) (hg'.resolve_right hgg') hr hr' hm hm'

lemma validateEntry_none {st : Db × (ℕ → Bool)} {guid g : ℕ} (h : st.1 g = none) :
    (LidMgr.validateEntry o st guid).1 g = none := by
  simp only [LidMgr.validateEntry]
  cases hdb : st.1 guid with
  | none => exact h
  | some r =>
    dsimp only
    split_ifs
    · by_cases hg : g = guid
      · subst hg
        simp
      · exact (Function.update_of_ne hg _ _).trans h
    · exact h

lemma checked_validateDb (guids : List ℕ) (g2l : Db) (hkeys : ∀ g, g2l g ≠ none → g ∈ guids) :
    Checked o (fun _ => True) (validateDb o guids g2l) := by
  have h := Lib.Folds.foldl_handled (LidMgr.validateEntry o)
    (fun done st => Checked o (· ∈ done) st ∧ ∀ g, g2l g = none → st.1 g = none) guids
    (g2l, fun _ => false) ⟨⟨by simp, by simp, by simp⟩, fun g hg => hg⟩ (by
      rintro done x rest st - ⟨hc, hn⟩
      refine ⟨?_, fun g hg => validateEntry_none (hn g hg)⟩
      have := hc.validateEntry x
      simpa using this)
  obtain ⟨hc, hn⟩ := h
  have hS : ∀ g r, (validateDb o guids g2l).1 g = some r → g ∈ guids := by
    intro g r hr
    refine hkeys g fun hnone => ?_
    have := hn g hnone
    rw [validateDb] at hr
    rw [this] at hr
    cases hr
  exact ⟨fun g r _ hr => hc.range g r (hS g r hr) hr,
    fun g r l _ hr => hc.used g r l (hS g r hr) hr,
    fun g g' r r' l _ _ hr hr' => hc.disjoint g g' r r' l (hS g r hr) (hS g' r' hr') hr hr'⟩

lemma checked_empty : Checked o (fun _ => True) (fun _ => none, fun _ => false) :=
  ⟨by simp, by simp, by simp⟩

def Covers (o : Opts) (ports : Fin k → Port) (g2l : Db) (i : Fin k) : Prop :=
  ∀ r, g2l (ports i).guid = some r → r.1 + numLids o (ports i) ≤ r.2 + 1

lemma Checked.cleanEntry {st : Db × (ℕ → Bool)} (h : Checked o (fun _ => True) st)
    (ports : Fin k → Port) (i : Fin k) :
    Checked o (fun _ => True) (cleanEntry o ports st i) ∧ Covers o ports (cleanEntry o ports st i).1 i ∧
      ∀ j, Covers o ports st.1 j → Covers o ports (cleanEntry o ports st i).1 j := by
  simp only [LidMgr.cleanEntry]
  cases hdb : st.1 (ports i).guid with
  | none =>
    refine ⟨h, ?_, fun j hj => hj⟩
    intro r hr
    rw [hdb] at hr
    cases hr
  | some r₀ =>
    obtain ⟨dbMin, dbMax⟩ := r₀
    obtain ⟨hle, hal⟩ := h.range _ _ trivial hdb
    dsimp only at hle hal ⊢
    split_ifs with hbad
    · have hnum : numLids o (ports i) = 2 ^ o.lmc := by
        have := hbad.1
        simp only [numLids] at this ⊢
        split_ifs at this ⊢
        · rfl
        · exact absurd rfl this
      -- an entry that is dropped is so narrow that all its LIDs were its own marks
      have hmarks : ∀ l, dbMin ≤ l → l ≤ dbMax → Marks o (dbMin, dbMax) l := by
        intro l h₁ h₂
        refine ⟨h₁, h₂, ?_⟩
        have hpow : 0 < 2 ^ o.lmc := Nat.two_pow_pos _
        rcases hbad.2 with hna | hnarrow
        · have hsame : dbMin = dbMax := by
            by_contra hne
            exact hna (hal hne)
          dsimp only
          omega
        · rw [hnum] at hnarrow
          dsimp only
          omega
      have hS : ∀ g r, Function.update st.1 (ports i).guid none g = some r →
          g ≠ (ports i).guid ∧ st.1 g = some r := by
        intro g r hr
        by_cases hg : g = (ports i).guid
        · subst hg
          simp at hr
        · rw [Function.update_of_ne hg] at hr
          exact ⟨hg, hr⟩
      refine ⟨⟨?_, ?_, ?_⟩, ?_, ?_⟩
      · intro g r _ hr
        exact h.range g r trivial (hS g r hr).2
      · intro g r l _ hr hm
        obtain ⟨hg, hr⟩ := hS g r hr
        have hnot : ¬ (dbMin ≤ l ∧ l ≤ dbMax) := fun hl =>
          hg (h.disjoint g _ r _ l trivial trivial hr hdb hm (hmarks l hl.1 hl.2))
        exact (if_neg hnot).trans (h.used g r l trivial hr hm)
      · intro g g' r r' l _ _ hr hr'
        exact h.disjoint g g' r r' l trivial trivial (hS g r hr).2 (hS g' r' hr').2
      · intro r hr
        exact absurd rfl (hS _ r hr).1
      · exact fun j hj r hr => hj r (hS _ r hr).2
    · refine ⟨h, ?_, fun j hj => hj⟩
      intro r hr
      rw [hdb] at hr
      cases hr
      by_cases hone : numLids o (ports i) = 1
      · dsimp only
        omega
      · push Not at hbad
        have := (hbad hone).2
        dsimp only
        omega

lemma apart_of_checked (hg : Function.Injective fun i => (ports i).guid) {st : Db × (ℕ → Bool)}
    (h : Checked o (fun _ => True) st) (hc : ∀ i, Covers o ports st.1 i) : Apart o ports st.1 st.2 := by
  have hmarks : ∀ i l, Claims o ports st.1 i l →
      ∃ r, st.1 (ports i).guid = some r ∧ Marks o r l := by
    rintro i l ⟨r, hr, h₁, h₂⟩
    have hcov := hc i r hr
    have hnum : numLids o (ports i) ≤ 2 ^ o.lmc := by
      simp only [numLids]
      split_ifs
      · exact le_rfl
      · exact Nat.one_le_two_pow
    exact ⟨r, hr, h₁, by omega, by omega⟩
  constructor
  · intro i l hcl
    obtain ⟨r, hr, hm⟩ := hmarks i l hcl
    exact h.used _ r l trivial hr hm
  · intro i j l hcl hcl'
    obtain ⟨r, hr, hm⟩ := hmarks i l hcl
    obtain ⟨r', hr', hm'⟩ := hmarks j l hcl'
    exact hg (h.disjoint _ _ r r' l trivial trivial hr hr' hm hm')

/-- The scan before `lid`: closed ranges of unused LIDs, and one that ends right before `lid`. -/
structure Scanned (used : ℕ → Bool) (lid : ℕ) (range : Option (ℕ × ℕ)) (ranges : List (ℕ × ℕ)) :
    Prop where
  sorted : ranges.Pairwise fun r r' => r.2 < r'.1
  unused : ∀ r ∈ ranges, ∀ l, InRange r l → used l = false
  before : ∀ r ∈ ranges, r.2 < (range.map Prod.fst).getD lid
  open_unused : ∀ r, range = some r → r.2 + 1 = lid ∧ r.1 ≤ r.2 ∧ ∀ l, InRange r l → used l = false

lemma Scanned.finish {used : ℕ → Bool} {lid : ℕ} {range : Option (ℕ × ℕ)} {ranges : List (ℕ × ℕ)}
    (h : Scanned used lid range ranges) (hmax : o.maxUcastLidHo ≤ ucastEnd) (hlid : ucastEnd < lid) :
    (ranges ++ [((range.map Prod.fst).getD lid, o.maxUcastLidHo)]).Pairwise
        (fun r r' => r.2 < r'.1) ∧
      ∀ r ∈ ranges ++ [((range.map Prod.fst).getD lid, o.maxUcastLidHo)], ∀ l, InRange r l →
        used l = false := by
  constructor
  · refine List.pairwise_append.mpr ⟨h.sorted, List.pairwise_singleton _ _, ?_⟩
    intro r hr r' hr'
    obtain rfl := List.mem_singleton.mp hr'
    exact h.before r hr
  · intro r hr l hl
    rcases List.mem_append.mp hr with hr | hr
    · exact h.unused r hr l hl
    · obtain rfl := List.mem_singleton.mp hr
      obtain ⟨h₁, h₂⟩ := hl
      cases hrange : range with
      | none =>
        rw [hrange] at h₁
        simp only [Option.map_none, Option.getD_none] at h₁ h₂
        omega
      | some r₀ =>
        rw [hrange] at h₁
        simp only [Option.map_some, Option.getD_some] at h₁ h₂
        obtain ⟨hend, -, hu⟩ := h.open_unused r₀ hrange
        exact hu l ⟨h₁, by omega⟩

lemma scan_spec (ports : Fin k → Port) (g2l : Db) {used : ℕ → Bool} (tbl : ℕ → Option (Fin k))
    (hmax : o.maxUcastLidHo ≤ ucastEnd) (fuel lid : ℕ) (range : Option (ℕ × ℕ)) (ranges : List (ℕ × ℕ))
    (h : Scanned used lid range ranges)
    (hfuel : ucastEnd < lid + fuel) :
    (scan o ports g2l used tbl fuel lid range ranges).Pairwise (fun r r' => r.2 < r'.1) ∧
      ∀ r ∈ scan o ports g2l used tbl fuel lid range ranges, ∀ l, InRange r l → used l = false := by
  induction fuel generalizing lid range ranges with
  | zero => exact h.finish hmax (by omega)
  | succ fuel ih =>
    simp only [scan]
    split_ifs with hlid
    · exact h.finish hmax hlid
    · cases hv : scanLid o ports g2l used tbl lid with
      | none =>
        have hfree : used lid = false := by
          simp only [scanLid] at hv
          split_ifs at hv with hu
          simpa using hu
        refine ih (lid + 1) _ ranges ⟨h.sorted, h.unused, h.before, ?_⟩ (by omega)
        rintro r hr
        obtain rfl := Option.some.inj hr
        cases hrange : range with
        | none =>
          refine ⟨rfl, le_rfl, ?_⟩
          rintro l ⟨h₁, h₂⟩
          simp only [Option.map_none, Option.getD_none] at h₁ h₂
          rw [show l = lid by omega]
          exact hfree
        | some r₀ =>
          obtain ⟨hend, hle, hu⟩ := h.open_unused r₀ hrange
          simp only [Option.map_some, Option.getD_some]
          refine ⟨trivial, by omega, ?_⟩
          rintro l ⟨h₁, h₂⟩
          dsimp only at h₁ h₂
          by_cases hl : l = lid
          · rw [hl]
            exact hfree
          · exact hu l ⟨h₁, by omega⟩
      | some last =>
        have hlast : lid ≤ last := by
          simp only [scanLid] at hv
          split at hv
          · cases hv
            exact le_rfl
          · split at hv
            · cases hv
            · split_ifs at hv
              all_goals
                cases hv
                exact le_max_left _ _
        refine ih (last + 1) none (ranges ++ range.toList) ⟨?_, ?_, ?_, by simp⟩ (by omega)
        · refine List.pairwise_append.mpr ⟨h.sorted, ?_, ?_⟩
          · cases range <;> simp
          · intro r hr r' hr'
            have hb := h.before r hr
            rw [Option.mem_toList] at hr'
            rw [Option.mem_def.mp hr'] at hb
            simpa using hb
        · intro r hr
          rcases List.mem_append.mp hr with hr | hr
          · exact h.unused r hr
          · exact (h.open_unused r (by simpa using hr)).2.2
        · intro r hr
          simp only [Option.map_none, Option.getD_none]
          rcases List.mem_append.mp hr with hr | hr
          · have hb := h.before r hr
            cases hrange : range with
            | none =>
              rw [hrange] at hb
              simp only [Option.map_none, Option.getD_none] at hb
              omega
            | some r₀ =>
              rw [hrange] at hb
              obtain ⟨hend, hle, -⟩ := h.open_unused r₀ hrange
              simp only [Option.map_some, Option.getD_some] at hb
              omega
          · have hend := (h.open_unused r (by simpa using hr)).1
            omega

lemma checked_sweepDb (guids : List ℕ) (file : Db) (hfile : ∀ g, file g ≠ none → g ∈ guids) {st : Db × (ℕ → Bool)}
    (hst : Checked o (fun _ => True) st) : Checked o (fun _ => True) (sweepDb o guids file st) := by
  simp only [sweepDb]
  split_ifs
  · exact checked_empty
  · exact checked_validateDb guids file hfile
  · exact checked_empty
  · exact hst

lemma checked_initSweep (guids : List ℕ) (file : Db) (hfile : ∀ g, file g ≠ none → g ∈ guids)
    {st : Db × (ℕ → Bool)}
    (hst : Checked o (fun _ => True) st) :
    Checked o (fun _ => True)
        ((initSweep o ports guids file st).g2l, (initSweep o ports guids file st).usedLids) ∧
      ∀ i, Covers o ports (initSweep o ports guids file st).g2l i := by
  have hdb := checked_sweepDb guids file hfile hst
  simp only [initSweep]
  split_ifs with hre
  · refine ⟨hdb, fun i r hr => ?_⟩
    simp [sweepDb, hre] at hr
  · have hclean := Lib.Folds.foldl_handled (cleanEntry o ports)
      (fun done st => Checked o (fun _ => True) st ∧ ∀ i ∈ done, Covers o ports st.1 i)
      (List.finRange k) (sweepDb o guids file st) ⟨hdb, by simp⟩ (by
        rintro done i rest st - ⟨hc, hcov⟩
        obtain ⟨h₁, h₂, h₃⟩ := hc.cleanEntry ports i
        refine ⟨h₁, fun j hj => ?_⟩
        rcases List.mem_append.mp hj with hj | hj
        · exact h₃ j (hcov j hj)
        · rw [List.mem_singleton.mp hj]
          exact h₂)
    exact ⟨hclean.1, fun i => hclean.2 i (List.mem_finRange i)⟩

lemma initSweep_ranges (hmax : o.maxUcastLidHo ≤ ucastEnd) (guids : List ℕ) (file : Db) (st : Db × (ℕ → Bool)) :
    (initSweep o ports guids file st).freeRanges.Pairwise (fun r r' => r.2 < r'.1) ∧
      ∀ l, OnFreeRanges (initSweep o ports guids file st) l →
        (initSweep o ports guids file st).usedLids l = false := by
  simp only [initSweep]
  split_ifs with hre
  · have hempty : sweepDb o guids file st = (fun _ => none, fun _ => false) := by
      simp only [sweepDb, hre, if_true]
    rw [hempty]
    exact ⟨by simp, fun _ _ => rfl⟩
  · have hstart : Scanned ((List.finRange k).foldl (cleanEntry o ports) (sweepDb o guids file st)).2 1
        none [] := ⟨by simp, by simp, by simp, by simp⟩
    have hscan := scan_spec ports
      ((List.finRange k).foldl (cleanEntry o ports) (sweepDb o guids file st)).1
      ((List.finRange k).foldl (markDiscovered o ports) fun _ => none) hmax (ucastEnd + 1) 1 none []
      hstart (by omega)
    refine ⟨hscan.1, ?_⟩
    rintro l ⟨r, hr, hl⟩
    exact hscan.2 r hr l hl

lemma inv_initSweep (hg : Function.Injective fun i => (ports i).guid) (hmax : o.maxUcastLidHo ≤ ucastEnd)
    (guids : List ℕ) (file : Db) (hfile : ∀ g, file g ≠ none → g ∈ guids) {st : Db × (ℕ → Bool)}
    (hst : Checked o (fun _ => True) st) : Inv o ports (initSweep o ports guids file st) := by
  obtain ⟨hc, hcov⟩ := @checked_initSweep k o ports guids file hfile st hst
  obtain ⟨hsorted, hfree⟩ := @initSweep_ranges k o ports hmax guids file st
  exact ⟨apart_of_checked hg hc hcov, hsorted, hfree⟩

end Init

lemma nodup_sweepOrder (sm : Fin k) : (sweepOrder sm).Nodup := by
  refine List.nodup_cons.mpr ⟨by simp, (List.nodup_finRange k).filter _⟩

lemma scan_append (ports : Fin k → Port) (g2l : Db) (used : ℕ → Bool) (tbl : ℕ → Option (Fin k)) (fuel lid : ℕ)
    (range : Option (ℕ × ℕ)) (ranges : List (ℕ × ℕ)) :
    ∃ rest, scan o ports g2l used tbl fuel lid range ranges = ranges ++ rest := by
  induction fuel generalizing lid range ranges with
  | zero => exact ⟨_, rfl⟩
  | succ fuel ih =>
    simp only [scan]
    split_ifs
    · exact ⟨_, rfl⟩
    · cases scanLid o ports g2l used tbl lid with
      | none => exact ih _ _ _
      | some last =>
        obtain ⟨rest, h⟩ := ih (last + 1) none (ranges ++ range.toList)
        exact ⟨range.toList ++ rest, by simpa using h⟩

/-- In every sweep whose calls never keep LIDs that are on the list of free ranges, the ranges of
two ports are disjoint and `port_lid_tbl` ends up with the owner of every LID. -/
theorem getPortLids_unique (hg : Function.Injective fun i => (ports i).guid)
    (hmax : o.maxUcastLidHo ≤ ucastEnd) (guids guids' : List ℕ) (g2l file : Db)
    (hg2l : ∀ g, g2l g ≠ none → g ∈ guids) (hfile : ∀ g, file g ≠ none → g ∈ guids') (sm : Fin k)
    (hok : RunOk o ports (sweepOrder sm) (initSweep o ports guids' file (validateDb o guids g2l)))
    (hout : ∀ x ∈ (getPortLids o ports (sweepOrder sm)
      (initSweep o ports guids' file (validateDb o guids g2l))).1, x.2 ≠ (0, 0)) :
    (∀ x ∈ (getPortLids o ports (sweepOrder sm)
        (initSweep o ports guids' file (validateDb o guids g2l))).1,
      ∀ y ∈ (getPortLids o ports (sweepOrder sm)
        (initSweep o ports guids' file (validateDb o guids g2l))).1,
      x.1 ≠ y.1 → ∀ l, InRange x.2 l → ¬ InRange y.2 l) ∧
    ∀ x ∈ (getPortLids o ports (sweepOrder sm)
        (initSweep o ports guids' file (validateDb o guids g2l))).1, ∀ l, InRange x.2 l →
      (getPortLids o ports (sweepOrder sm)
        (initSweep o ports guids' file (validateDb o guids g2l))).2.portLidTbl l = some x.1 := by
  have hinv := inv_initSweep hg hmax guids' file hfile (checked_validateDb guids g2l hg2l)
  obtain ⟨hend, hset⟩ := getPortLids_settled hg (sweepOrder sm) _ [] hinv (by simp [Settled])
    (by simpa using nodup_sweepOrder sm) hok hout
  rw [List.nil_append] at hset
  refine ⟨?_, fun x hx => (hset x hx).2.2⟩
  intro x hx y hy hne l hl hl'
  obtain ⟨hdb, hw, -⟩ := hset x hx
  obtain ⟨hdb', hw', -⟩ := hset y hy
  exact hne (hend.apart.disjoint x.1 y.1 l ⟨x.2, hdb, hl.1, by have := hl.2; omega⟩
    ⟨y.2, hdb', hl'.1, by have := hl'.2; omega⟩)

def mergedOpts : Opts := ⟨0, false, false, false, false, ucastEnd⟩

/-- A port discovered with LID 1, one that the database knows with LID 3, and one without a LID. -/
def keptPorts : Fin 3 → Port
  | 0 => ⟨1, 1, 0, true⟩
  | 1 => ⟨2, 3, 0, true⟩
  | 2 => ⟨3, 0, 0, true⟩

def keptDb : Db := fun g => if g = 2 then some (3, 3) else if g = 9 then some (5, 5) else none

lemma kept_initSweep : ∃ rest, initSweep mergedOpts keptPorts [] (fun _ => none)
    (validateDb mergedOpts [2, 9] keptDb) =
    { g2l := ((List.finRange 3).foldl (cleanEntry mergedOpts keptPorts) (validateDb mergedOpts [2, 9] keptDb)).1
      usedLids := ((List.finRange 3).foldl (cleanEntry mergedOpts keptPorts)
          (validateDb mergedOpts [2, 9] keptDb)).2
      freeRanges := (2, 2) :: rest
      portLidTbl := (List.finRange 3).foldl (markDiscovered mergedOpts keptPorts) fun _ => none } ∧
    ∀ r ∈ rest, 2 < r.1 := by
  set st := (List.finRange 3).foldl (cleanEntry mergedOpts keptPorts)
      (validateDb mergedOpts [2, 9] keptDb) with hst
  set tbl := (List.finRange 3).foldl (markDiscovered mergedOpts keptPorts) fun _ => none with htbl
  have hv₁ : scanLid mergedOpts keptPorts st.1 st.2 tbl 1 = some 1 := rfl
  have hv₂ : scanLid mergedOpts keptPorts st.1 st.2 tbl 2 = none := rfl
  have hv₃ : scanLid mergedOpts keptPorts st.1 st.2 tbl 3 = some 3 := rfl
  have hrun : ∀ fuel, ∃ rest, scan mergedOpts keptPorts st.1 st.2 tbl (fuel + 1 + 1 + 1) 1 none [] = (2,
      2) :: rest := by
    intro fuel
    obtain ⟨rest, h⟩ := scan_append (o := mergedOpts) keptPorts st.1 st.2 tbl fuel 4 none [(2, 2)]
    exact ⟨rest, by simp [scan, hv₁, hv₂, hv₃, ucastEnd, h]⟩
  obtain ⟨rest, hrest⟩ := hrun 49149
  have hinit : initSweep mergedOpts keptPorts [] (fun _ => none) (validateDb mergedOpts [2, 9] keptDb) =
      ⟨st.1, st.2, (2, 2) :: rest, tbl⟩ := by
    rw [← hrest]
    rfl
  have hsorted := (@initSweep_ranges 3 mergedOpts keptPorts le_rfl [] (fun _ => none)
    (validateDb mergedOpts [2, 9] keptDb)).1
  rw [hinit] at hsorted
  exact ⟨rest, hinit, (List.pairwise_cons.mp hsorted).1⟩

theorem getPortLids_unique_kept :
    (∀ x ∈ (getPortLids mergedOpts keptPorts (sweepOrder 0)
        (initSweep mergedOpts keptPorts [] (fun _ => none) (validateDb mergedOpts [2, 9] keptDb))).1,
      ∀ y ∈ (getPortLids mergedOpts keptPorts (sweepOrder 0)
        (initSweep mergedOpts keptPorts [] (fun _ => none) (validateDb mergedOpts [2, 9] keptDb))).1,
      x.1 ≠ y.1 → ∀ l, InRange x.2 l → ¬ InRange y.2 l) ∧
    (getPortLids mergedOpts keptPorts (sweepOrder 0)
      (initSweep mergedOpts keptPorts [] (fun _ => none) (validateDb mergedOpts [2, 9] keptDb))).1 =
        [(0, (1, 1)), (1, (3, 3)), (2, (2, 2))] := by
  obtain ⟨rest, hinit, hbeyond⟩ := kept_initSweep
  have hout : (getPortLids mergedOpts keptPorts (sweepOrder 0)
      (initSweep mergedOpts keptPorts [] (fun _ => none) (validateDb mergedOpts [2, 9] keptDb))).1 =
        [(0, (1, 1)), (1, (3, 3)), (2, (2, 2))] := by
    rw [hinit]
    rfl
  refine ⟨(getPortLids_unique (by decide) le_rfl [2, 9] [] keptDb (fun _ => none) (fun g hg => ?_)
    (fun _ h => absurd rfl h) 0 ?_ (by rw [hout]; decide)).1, hout⟩
  · by_contra hmem
    simp only [List.mem_cons, List.not_mem_nil, or_false, not_or] at hmem
    exact hg (by rw [keptDb, if_neg hmem.1, if_neg hmem.2])
  · rw [hinit]
    refine ⟨?_, fun h => absurd h Bool.false_ne_true, fun h => absurd h Bool.false_ne_true, trivial⟩
    -- The first port keeps LID 1, and all free ranges are beyond it.
    rintro - l - hl ⟨r, hr, hlo, -⟩
    have hfirst : l + 1 ≤ 2 := hl
    rcases List.mem_cons.mp hr with rfl | hr
    · exact absurd (hlo.trans (Nat.le_of_lt_succ hfirst)) (by decide)
    · have hfar := hbeyond r hr
      omega

/-- Two ports discovered with LID 1, the second of them known to the database with LID 7, and a port
without a LID. -/
def mergedPorts : Fin 3 → Port
  | 0 => ⟨1, 1, 0, true⟩
  | 1 => ⟨2, 1, 0, true⟩
  | 2 => ⟨3, 0, 0, true⟩

def mergedDb : Db := fun g => if g = 2 then some (7, 7) else none

lemma merged_initSweep : ∃ rest, initSweep mergedOpts mergedPorts [] (fun _ => none)
    (validateDb mergedOpts [2] mergedDb) =
    { g2l := ((List.finRange 3).foldl (cleanEntry mergedOpts mergedPorts) (validateDb mergedOpts [2] mergedDb)).1
      usedLids := ((List.finRange 3).foldl (cleanEntry mergedOpts mergedPorts)
          (validateDb mergedOpts [2] mergedDb)).2
      freeRanges := (1, 6) :: rest
      portLidTbl := (List.finRange 3).foldl (markDiscovered mergedOpts mergedPorts) fun _ => none } := by
  set st := (List.finRange 3).foldl (cleanEntry mergedOpts mergedPorts)
    (validateDb mergedOpts [2] mergedDb) with hst
  set tbl := (List.finRange 3).foldl (markDiscovered mergedOpts mergedPorts) fun _ => none with htbl
  have hfree : ∃ rest, scan mergedOpts mergedPorts st.1 st.2 tbl (ucastEnd + 1) 1 none [] =
      (1, 6) :: rest := by
    have hv : ∀ l, 0 < l → l < 7 → scanLid mergedOpts mergedPorts st.1 st.2 tbl l = none := by
      intro l h₁ h₂
      interval_cases l <;> rfl
    have hv₇ : scanLid mergedOpts mergedPorts st.1 st.2 tbl 7 = some 7 := rfl
    have hrun : ∀ fuel, ∃ rest, scan mergedOpts mergedPorts st.1 st.2 tbl
        (fuel + 1 + 1 + 1 + 1 + 1 + 1 + 1) 1 none [] = (1, 6) :: rest := by
      intro fuel
      obtain ⟨rest, h⟩ := scan_append (o := mergedOpts) mergedPorts st.1 st.2 tbl fuel 8 none [(1, 6)]
      exact ⟨rest, by simp [scan, hv, hv₇, ucastEnd, h]⟩
    exact hrun 49145
  obtain ⟨rest, hrest⟩ := hfree
  refine ⟨rest, ?_⟩
  rw [← hrest]
  rfl

/-- LID 1 is kept by the first port and then given to the third one as well. -/
theorem getPortLids_merged_duplicate :
    Function.Injective (fun i => (mergedPorts i).guid) ∧
    (getPortLids mergedOpts mergedPorts (sweepOrder 0)
      (initSweep mergedOpts mergedPorts [] (fun _ => none) (validateDb mergedOpts [2] mergedDb))).1 =
        [(0, (1, 1)), (1, (7, 7)), (2, (1, 1))] := by
  refine ⟨by decide, ?_⟩
  obtain ⟨rest, hinit⟩ := merged_initSweep
  rw [hinit]
  rfl

end OpenSM.LidMgr
