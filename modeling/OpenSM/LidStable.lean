import OpenSM.LidFit

/-! A sweep after a sweep. The database that a sweep leaves gives every port its LIDs back at once, and after a
restart as long as no entry of a port that has gone shares LIDs with one that is still there. -/

namespace OpenSM.LidMgr

/-- What a sweep finds: the options, the discovered ports and the stored database. -/
structure Sweep where
  k : ℕ
  opts : Opts
  ports : Fin k → Port
  sm : Fin k
  guids : List ℕ
  file : Db

/-- Node information with a zero port GUID and base LIDs above the unicast ones do not get past discovery. -/
structure Sweep.Legal (w : Sweep) (lmc : ℕ) : Prop where
  guid_inj : Function.Injective fun i => (w.ports i).guid
  guid_ne : ∀ i, (w.ports i).guid ≠ 0
  baseLid_le : ∀ i, (w.ports i).baseLid ≤ ucastEnd
  lmc_eq : w.opts.lmc = lmc
  lmc_le : lmc ≤ 7
  max_le : w.opts.maxUcastLidHo ≤ ucastEnd
  keys : ∀ g, w.file g ≠ none → g ∈ w.guids

def Sweep.start (w : Sweep) (st : Db × (ℕ → Bool)) : Mgr w.k := initSweep w.opts w.ports w.guids w.file st

def Sweep.run (w : Sweep) (st : Db × (ℕ → Bool)) : List (Fin w.k × (ℕ × ℕ)) × Mgr w.k :=
  getPortLids w.opts w.ports (sweepOrder w.sm) (w.start st)

/-- The database and `used_lids` after the sweep. -/
def Sweep.next (w : Sweep) (st : Db × (ℕ → Bool)) : Db × (ℕ → Bool) := ((w.run st).2.g2l, (w.run st).2.usedLids)

def Sweep.lids (w : Sweep) (st : Db × (ℕ → Bool)) (i : Fin w.k) : ℕ × ℕ := ((w.run st).1.lookup i).getD (0, 0)

/-- No port runs out of LIDs, and the ranges are disjoint. -/
structure Sweep.Succeeds (w : Sweep) (st : Db × (ℕ → Bool)) : Prop where
  found : ∀ x ∈ (w.run st).1, x.2 ≠ (0, 0)
  disjoint : ∀ x ∈ (w.run st).1, ∀ y ∈ (w.run st).1, x.1 ≠ y.1 → ∀ l, InRange x.2 l → ¬ InRange y.2 l

/-- Start-up with a stored database or with none, and sweeps that never keep LIDs that are on the list of free
ranges. -/
inductive Run (lmc : ℕ) : Db × (ℕ → Bool) → Prop
  | restored (o : Opts) (guids : List ℕ) (file : Db) (hlmc : o.lmc = lmc) (hmax : o.maxUcastLidHo ≤ ucastEnd)
      (hkeys : ∀ g, file g ≠ none → g ∈ guids) : Run lmc (validateDb o guids file)
  | empty : Run lmc (fun _ => none, fun _ => false)
  | sweep (w : Sweep) (st : Db × (ℕ → Bool)) (hst : Run lmc st) (hw : w.Legal lmc)
      (hok : RunOk w.opts w.ports (sweepOrder w.sm) (w.start st)) (hfound : ∀ x ∈ (w.run st).1, x.2 ≠ (0, 0)) :
      Run lmc (w.next st)

variable {k : ℕ} {o o' : Opts} {ports : Fin k → Port} {lids : Fin k → ℕ × ℕ}

def reported (o : Opts) (ports : Fin k → Port) (lids : Fin k → ℕ × ℕ) (i : Fin k) : Port :=
  { ports i with baseLid := (lids i).1, lmc := if (ports i).lmcCapable then o.lmc else 0 }

/-- Every port keeps its entry all along, gets its range again and need not be told. -/
def Undisturbed (o : Opts) (ports : Fin k → Port) (lids : Fin k → ℕ × ℕ) : List (Fin k) → Mgr k → Prop
  | [], st => ∀ j, st.g2l (ports j).guid = some (lids j)
  | i :: is, st => (∀ j, st.g2l (ports j).guid = some (lids j)) ∧ (getPortLid o ports st i).2 = (lids i, false) ∧
      Undisturbed o ports lids is (getPortLid o ports st i).1

structure Whole (o : Opts) (p : Port) (r : ℕ × ℕ) : Prop where
  width : r.2 + 1 = r.1 + numLids o p
  aligned : numLids o p ≠ 1 → 2 ^ o.lmc ∣ r.1

section Again

lemma cleanEntry_whole {st : Db × (ℕ → Bool)} {i : Fin k} {r : ℕ × ℕ} (hr : st.1 (ports i).guid = some r)
    (hw : Whole o (ports i) r) : cleanEntry o ports st i = st := by
  rw [cleanEntry, hr]
  dsimp only
  rw [if_neg]
  rintro ⟨hone, hna | hnarrow⟩
  · exact hna (Nat.mod_eq_zero_of_dvd (hw.aligned hone))
  · have hwidth := hw.width
    omega

lemma undisturbed_calls (hre : o.reassigning = false) (hw : ∀ i, Whole o (ports i) (lids i))
    (hbase : ∀ i, (ports i).baseLid = (lids i).1) (is : List (Fin k)) (st : Mgr k)
    (hdb : ∀ j, st.g2l (ports j).guid = some (lids j)) : Undisturbed o ports lids is st := by
  induction is generalizing st with
  | nil => exact hdb
  | cons i is ih =>
    have hwidth := (hw i).width
    have hrange : ((lids i).1, (lids i).1 + numLids o (ports i) - 1) = lids i :=
      Prod.ext rfl (by dsimp only; omega)
    have hcall : getPortLid o ports st i = (newLidSet ports st i (lids i), lids i, false) := by
      simp only [getPortLid, hre, hdb i, hbase i, hrange, Bool.false_eq_true, if_false, if_true]
    refine ⟨hdb, congrArg Prod.snd hcall, ih _ ?_⟩
    rw [hcall, newLidSet, ← hdb i, Function.update_eq_self]
    exact hdb

lemma undisturbed_sweep (hre : o.reassigning = false) (hout : o.comingOutOfStandby = false)
    (hw : ∀ i, Whole o (ports i) (lids i)) (hbase : ∀ i, (ports i).baseLid = (lids i).1)
    (guids : List ℕ) (file : Db)
    {st : Db × (ℕ → Bool)} (hdb : ∀ j, st.1 (ports j).guid = some (lids j)) (is : List (Fin k)) :
    Undisturbed o ports lids is (initSweep o ports guids file st) := by
  have hst : sweepDb o guids file st = st := by
    rw [sweepDb, hre, hout]
    rfl
  have hclean : ∀ js : List (Fin k), js.foldl (cleanEntry o ports) st = st := by
    intro js
    induction js with
    | nil => rfl
    | cons j js ih => rw [List.foldl_cons, cleanEntry_whole (hdb j) (hw j), ih]
  apply undisturbed_calls hre hw hbase
  rw [initSweep, hre, hst]
  simp only [Bool.false_eq_true, if_false, hclean]
  exact hdb

end Again

section Free

/-- No free range reaches beyond the unicast LIDs. -/
lemma scan_le (hmax : o.maxUcastLidHo ≤ ucastEnd) (g2l : Db) (used : ℕ → Bool)
    (tbl : ℕ → Option (Fin k)) (fuel : ℕ)
    {lid : ℕ} {part : Option (ℕ × ℕ)} {ranges : List (ℕ × ℕ)} (hpart : ∀ r, part = some r → r.2 ≤ ucastEnd)
    (hle : ∀ r ∈ ranges, r.2 ≤ ucastEnd) :
    ∀ r ∈ scan o ports g2l used tbl fuel lid part ranges, r.2 ≤ ucastEnd := by
  have hfinish : ∀ (ranges : List (ℕ × ℕ)) first, (∀ r ∈ ranges, r.2 ≤ ucastEnd) →
      ∀ r ∈ ranges ++ [(first, o.maxUcastLidHo)], r.2 ≤ ucastEnd := by
    intro ranges first hle r hr
    rcases List.mem_append.mp hr with hr | hr
    · exact hle r hr
    · rw [List.mem_singleton.mp hr]
      exact hmax
  induction fuel generalizing lid part ranges with
  | zero => exact hfinish ranges _ hle
  | succ fuel ih =>
    rw [scan]
    split_ifs with hlid
    · exact hfinish ranges _ hle
    · cases hscan : scanLid o ports g2l used tbl lid with
      | none =>
        apply ih _ hle
        rintro r hr
        obtain rfl := Option.some.inj hr
        exact not_lt.mp hlid
      | some last =>
        apply ih (by simp)
        intro r hr
        rcases List.mem_append.mp hr with hr | hr
        · exact hle r hr
        · exact hpart r (Option.mem_toList.mp hr)

lemma initSweep_free (hmax : o.maxUcastLidHo ≤ ucastEnd) (guids : List ℕ) (file : Db)
    (st : Db × (ℕ → Bool)) {l : ℕ}
    (hl : OnFreeRanges (initSweep o ports guids file st) l) :
    (initSweep o ports guids file st).usedLids l = false ∧ 0 < l ∧ l ≤ ucastEnd := by
  obtain ⟨r, hr, hin⟩ := hl
  have hpos := (aligned_initSweep hmax guids file st).pos r hr
  refine ⟨(initSweep_ranges hmax guids file st).2 l ⟨r, hr, hin⟩, hpos.trans hin.1, hin.2.trans ?_⟩
  rw [initSweep] at hr
  dsimp only at hr
  split_ifs at hr with hre
  · rw [List.mem_singleton.mp hr]
    exact hmax
  · exact scan_le hmax _ _ _ _ (by simp) (by simp) r hr

end Free

section Calls

variable {st st₀ : Mgr k} {i : Fin k} {done : List (Fin k × (ℕ × ℕ))}

/-- Where a port has its LIDs from: its entry, or LIDs that no entry had at the start. -/
def Origin (ports : Fin k → Port) (st₀ : Mgr k) (i : Fin k) (range : ℕ × ℕ) : Prop :=
  (∃ r, st₀.g2l (ports i).guid = some r ∧ r.1 = range.1) ∨
    0 < range.1 ∧ range.1 ≤ ucastEnd ∧ ∀ l, InRange range l → st₀.usedLids l = false

structure Handed (o : Opts) (ports : Fin k → Port) (st₀ : Mgr k) (done : List (Fin k × (ℕ × ℕ))) (st : Mgr k) :
    Prop where
  aligned : Aligned o ports st
  free : ∀ l, OnFreeRanges st l → OnFreeRanges st₀ l
  used : ∀ l, st₀.usedLids l = true → st.usedLids l = true
  others : ∀ g, (∀ x ∈ done, (ports x.1).guid ≠ g) → st.g2l g = st₀.g2l g
  given : ∀ x ∈ done, st.g2l (ports x.1).guid = some x.2 ∧ x.2.2 + 1 = x.2.1 + numLids o (ports x.1) ∧
    Origin ports st₀ x.1 x.2 ∧ ∀ l, InRange x.2 l → st.usedLids l = true

lemma Handed.origin (h : Handed o ports st₀ done st) (hbase : ∀ i, (ports i).baseLid ≤ ucastEnd)
    (hfree : ∀ l, OnFreeRanges st₀ l → st₀.usedLids l = false ∧ 0 < l ∧ l ≤ ucastEnd)
    (hnew : ∀ x ∈ done, (ports x.1).guid ≠ (ports i).guid) {range : ℕ × ℕ} {free : List (ℕ × ℕ)}
    (hsrc : Source o ports st i range free) :
    range.2 + 1 = range.1 + numLids o (ports i) ∧ Origin ports st₀ i range := by
  have hpos := numLids_pos o (ports i)
  cases hsrc with
  | db r hr => exact ⟨by dsimp only; omega, .inl ⟨r, (h.others _ hnew).symm.trans hr, rfl⟩⟩
  | kept hk =>
    have hkeep := hk
    simp only [keepsLids, Bool.and_eq_true, decide_eq_true_eq] at hkeep
    obtain ⟨⟨⟨-, hne⟩, -⟩, -⟩ := hkeep
    refine ⟨by dsimp only; omega, .inr ⟨Nat.pos_of_ne_zero hne, hbase i, fun l hl => ?_⟩⟩
    have hend := hl.2
    dsimp only at hend
    have hunused := keepsLids_unused hk hl.1 (by omega)
    by_contra hused
    rw [h.used l (by simpa using hused)] at hunused
    cases hunused
  | free range free hf =>
    obtain ⟨hwidth, hin, -⟩ := findFreeLidRange_spec hpos h.aligned.sorted hf
    have hall : ∀ l, InRange range l → st₀.usedLids l = false ∧ 0 < l ∧ l ≤ ucastEnd := fun l hl =>
      hfree l (h.free l (hin l hl))
    obtain ⟨-, hlo, hhi⟩ := hall range.1 ⟨le_rfl, by omega⟩
    exact ⟨hwidth, .inr ⟨hlo, hhi, fun l hl => (hall l hl).1⟩⟩

lemma Source.onFreeRanges (hs : st.freeRanges.Pairwise fun r r' => r.2 < r'.1) {range : ℕ × ℕ}
    {free : List (ℕ × ℕ)}
    (hsrc : Source o ports st i range free) {r : ℕ × ℕ} (hr : r ∈ free) {l : ℕ} (hl : InRange r l) :
    OnFreeRanges st l := by
  cases hsrc with
  | db _ _ => exact ⟨r, hr, hl⟩
  | kept _ => exact ⟨r, hr, hl⟩
  | free range free hf =>
    obtain ⟨-, -, -, hsub, -⟩ := findFreeLidRange_spec (numLids_pos o (ports i)) hs hf
    obtain ⟨r₀, hr₀, hlo, hhi⟩ := hsub r hr
    exact ⟨r₀, hr₀, hlo.trans hl.1, hl.2.trans hhi.le⟩

lemma Handed.step (hg : Function.Injective fun i => (ports i).guid) (h : Handed o ports st₀ done st)
    (hbase : ∀ i, (ports i).baseLid ≤ ucastEnd)
    (hfree : ∀ l, OnFreeRanges st₀ l → st₀.usedLids l = false ∧ 0 < l ∧
    l ≤ ucastEnd) (hnew : i ∉ done.map Prod.fst)
    (hout : (getPortLid o ports st i).2.1 ≠ (0, 0)) :
    Handed o ports st₀ (done ++ [(i, (getPortLid o ports st i).2.1)]) (getPortLid o ports st i).1 := by
  have hal := (@getPortLid_fits k o ports st i 0 hg h.aligned).1
  obtain ⟨range, free, tbl, hsrc, -, hrange, heq⟩ := getPortLid_cases hout
  have hguid : ∀ x ∈ done, (ports x.1).guid ≠ (ports i).guid := fun x hx hxi =>
    hnew (hg hxi ▸ List.mem_map_of_mem hx)
  obtain ⟨hwidth, horigin⟩ := h.origin hbase hfree hguid hsrc
  rw [heq] at hal ⊢
  rw [hrange]
  refine ⟨hal, ?_, fun l hl => markUsed_true.mpr (.inr (h.used l hl)), ?_, ?_⟩
  · rintro l ⟨r, hr, hl⟩
    exact h.free l (hsrc.onFreeRanges h.aligned.sorted hr hl)
  · intro g hgs
    have hne : g ≠ (ports i).guid := fun hgi => hgs (i, range) (by simp) hgi.symm
    exact (Function.update_of_ne hne _ _).trans (h.others g fun x hx => hgs x (List.mem_append_left _ hx))
  · intro x hx
    rcases List.mem_append.mp hx with hx | hx
    · obtain ⟨hdb, hw, ho, hused⟩ := h.given x hx
      exact ⟨(Function.update_of_ne (hguid x hx) _ _).trans hdb, hw, ho,
        fun l hl => markUsed_true.mpr (.inr (hused l hl))⟩
    · obtain rfl := List.mem_singleton.mp hx
      exact ⟨Function.update_self .., hwidth, horigin, fun l hl => markUsed_true.mpr (.inl hl)⟩

lemma Handed.calls (hg : Function.Injective fun i => (ports i).guid) (hbase : ∀ i, (ports i).baseLid ≤ ucastEnd)
    (hfree : ∀ l, OnFreeRanges st₀ l → st₀.usedLids l = false ∧ 0 < l ∧ l ≤ ucastEnd) (is : List (Fin k))
    (h : Handed o ports st₀ done st) (hnd : (done.map Prod.fst ++ is).Nodup)
    (hout : ∀ x ∈ (getPortLids o ports is st).1, x.2 ≠ (0, 0)) :
    Handed o ports st₀ (done ++ (getPortLids o ports is st).1) (getPortLids o ports is st).2 := by
  induction is generalizing st done with
  | nil => simpa [getPortLids] using h
  | cons i is ih =>
    have hnew : i ∉ done.map Prod.fst := fun hi => (List.nodup_append.mp hnd).2.2 _ hi _ List.mem_cons_self rfl
    have hrest := ih (h.step hg hbase hfree hnew (hout (i, _) (by simp [getPortLids]))) (by simpa using hnd)
      fun x hx => hout x (by simp [getPortLids, hx])
    simpa [getPortLids] using hrest

lemma getPortLids_fst (is : List (Fin k)) (st : Mgr k) : (getPortLids o ports is st).1.map Prod.fst = is := by
  induction is generalizing st with
  | nil => rfl
  | cons i is ih => rw [getPortLids, List.map_cons, ih]

end Calls

section Restart

variable {st : Db × (ℕ → Bool)} {g : ℕ} {r : ℕ × ℕ} {lmc : ℕ}

/-- Checked entries, with unicast LIDs in all of them. -/
structure Sound (o : Opts) (st : Db × (ℕ → Bool)) : Prop where
  checked : Checked o (fun _ => True) st
  lids : ∀ g r, st.1 g = some r → 0 < r.1 ∧ r.1 ≤ ucastEnd

lemma Checked.of_lmc {S : ℕ → Prop} (h : Checked o S st) (hlmc : o'.lmc = o.lmc) : Checked o' S st :=
  ⟨by simpa [hlmc] using h.range, by simpa [Marks, hlmc] using h.used, by simpa [Marks, hlmc] using h.disjoint⟩

lemma Sound.of_lmc (h : Sound o st) (hlmc : o'.lmc = o.lmc) : Sound o' st := ⟨h.checked.of_lmc hlmc, h.lids⟩

/-- What `lid_mgr_validate_db` asks of an entry, apart from its LIDs being unused. -/
structure Valid (o : Opts) (g : ℕ) (r : ℕ × ℕ) : Prop where
  le : r.1 ≤ r.2
  pos : r.1 ≠ 0
  guid : g ≠ 0
  max : r.2 ≤ o.maxUcastLidHo
  aligned : r.1 ≠ r.2 → r.1 % 2 ^ o.lmc = 0

lemma validateEntry_cases (st : Db × (ℕ → Bool)) (g : ℕ) :
    (st.1 g = none ∧ validateEntry o st g = st) ∨
      (∃ r, st.1 g = some r ∧ Valid o g r ∧ (∀ l, InRange r l → st.2 l = false) ∧
        validateEntry o st g = (st.1, markUsed st.2 r.1 (min r.2 (r.1 + 2 ^ o.lmc - 1)) true)) ∨
      ∃ r, st.1 g = some r ∧ ¬(Valid o g r ∧ ∀ l, InRange r l → st.2 l = false) ∧
        validateEntry o st g = (Function.update st.1 g none, st.2) := by
  rw [validateEntry]
  cases hdb : st.1 g with
  | none => exact .inl ⟨rfl, rfl⟩
  | some r =>
    have hany : (lidsFrom r.1 r.2).any st.2 = true ↔ ¬∀ l, InRange r l → st.2 l = false := by
      simp [List.any_eq_true, mem_lidsFrom, InRange, and_assoc]
    dsimp only
    split_ifs with hbad
    · refine .inr (.inr ⟨r, rfl, ?_, rfl⟩)
      rintro ⟨hv, hunused⟩
      rcases hbad with h | h | h | h | h | h
      · exact absurd hv.le (not_le.mpr h)
      · exact hv.pos h
      · exact hv.guid h
      · exact absurd hv.max (not_le.mpr h)
      · exact h.2 (hv.aligned h.1)
      · exact hany.mp h hunused
    · push Not at hbad
      obtain ⟨hle, hpos, hguid, hmax, hal, hunused⟩ := hbad
      exact .inr (.inl ⟨r, rfl, ⟨hle, hpos, hguid, hmax, hal⟩, not_not.mp fun h => hunused (hany.mpr h), rfl⟩)

lemma validateDb_valid (order : List ℕ) (db : Db) (hkeys : ∀ g, db g ≠ none → g ∈ order)
    (hr : (validateDb o order db).1 g = some r) : Valid o g r := by
  have h := Lib.Folds.foldl_handled (validateEntry o)
    (fun done s => (∀ g ∈ done, ∀ r, s.1 g = some r → Valid o g r) ∧ ∀ g, db g = none → s.1 g = none) order
    (db, fun _ => false) ⟨by simp, fun g hg => hg⟩ (by
      rintro done x rest s - ⟨hv, hn⟩
      refine ⟨fun g hg r hr => ?_, fun g hg => validateEntry_none (hn g hg)⟩
      have hmem : g ∈ done ∨ g = x := by simpa using hg
      rcases validateEntry_cases (o := o) s x with ⟨hx, heq⟩ | ⟨rx, hx, hvx, -, heq⟩ | ⟨rx, hx, -, heq⟩
      · rw [heq] at hr
        rcases hmem with hg | rfl
        · exact hv g hg r hr
        · rw [hx] at hr
          cases hr
      · rw [heq] at hr
        rcases hmem with hg | rfl
        · exact hv g hg r hr
        · exact Option.some.inj (hx.symm.trans hr) ▸ hvx
      · rw [heq] at hr
        by_cases hgx : g = x
        · simp [hgx] at hr
        · exact hv g (hmem.resolve_right hgx) r (by simpa [Function.update_of_ne hgx] using hr))
  refine h.1 g (hkeys g fun hnone => ?_) r hr
  rw [validateDb, h.2 g hnone] at hr
  cases hr

lemma sound_validateDb (hmax : o.maxUcastLidHo ≤ ucastEnd) (order : List ℕ) (db : Db)
    (hkeys : ∀ g, db g ≠ none → g ∈ order) : Sound o (validateDb o order db) := by
  refine ⟨checked_validateDb order db hkeys, fun g r hr => ?_⟩
  have hv := validateDb_valid order db hkeys hr
  exact ⟨Nat.pos_of_ne_zero hv.pos, hv.le.trans (hv.max.trans hmax)⟩

def Clear (o : Opts) (db : Db) (before : Set ℕ) (r : ℕ × ℕ) : Prop :=
  ∀ g ∈ before, ∀ r', db g = some r' → ∀ l, InRange r l → ¬Marks o r' l

/-- The GUIDs whose entries stand in this order: well formed, with no LID of an entry that stands before them. -/
def standing (o : Opts) (db : Db) (order : List ℕ) : Set ℕ :=
  order.foldl (fun before g => {g' | g' ∈ before ∨ g' = g ∧ ∃ r, db g = some r ∧ Valid o g r ∧
      Clear o db before r}) ∅

lemma mem_standing_append {db : Db} {before : List ℕ} {g' : ℕ} :
    g' ∈ standing o db (before ++ [g]) ↔ g' ∈ standing o db before ∨
      g' = g ∧ ∃ r, db g = some r ∧ Valid o g r ∧ Clear o db (standing o db before) r := by
  simp [standing]

lemma standing_subset {db : Db} {order : List ℕ} (h : g ∈ standing o db order) : g ∈ order := by
  induction order using List.reverseRecOn with
  | nil => simp [standing] at h
  | append_singleton before x ih =>
    rcases mem_standing_append.mp h with h | ⟨rfl, -⟩
    · exact List.mem_append_left _ (ih h)
    · simp

lemma mem_standing {db : Db} {before after : List ℕ} (hnd : (before ++ g :: after).Nodup) (hr : db g = some r) :
    g ∈ standing o db (before ++ g :: after) ↔ Valid o g r ∧ Clear o db (standing o db before) r := by
  induction after using List.reverseRecOn with
  | nil =>
    have hnot : g ∉ standing o db before := fun h =>
      (List.nodup_append.mp hnd).2.2 g (standing_subset h) g List.mem_cons_self rfl
    rw [mem_standing_append]
    constructor
    · rintro (h | ⟨-, r', hr', hfit⟩)
      · exact absurd h hnot
      · obtain rfl := Option.some.inj (hr.symm.trans hr')
        exact hfit
    · exact fun hfit => .inr ⟨rfl, r, hr, hfit⟩
  | append_singleton after x ih =>
    rw [← List.cons_append, ← List.append_assoc] at hnd ⊢
    have hne : g ≠ x := fun h => (List.nodup_append.mp hnd).2.2 g (by simp) x (by simp) h
    rw [mem_standing_append, ih (List.nodup_append.mp hnd).1]
    exact or_iff_left fun h => hne h.1

/-- The check in the middle of a database: it has left the entries that stand and marked their LIDs. -/
structure Examined (o : Opts) (db : Db) (done : List ℕ) (s : Db × (ℕ → Bool)) : Prop where
  rest : ∀ g ∉ done, s.1 g = db g
  entry : ∀ g ∈ done, ∀ r, s.1 g = some r ↔ g ∈ standing o db done ∧ db g = some r
  marks : ∀ l, s.2 l = true ↔ ∃ g ∈ standing o db done, ∃ r, db g = some r ∧ Marks o r l

lemma Examined.clear_iff {db : Db} {done : List ℕ} {s : Db × (ℕ → Bool)} (h : Examined o db done s) :
    (∀ l, InRange r l → s.2 l = false) ↔ Clear o db (standing o db done) r := by
  constructor
  · intro hunused g hg r' hr' l hl hm
    exact absurd ((h.marks l).mpr ⟨g, hg, r', hr', hm⟩) (by simp [hunused l hl])
  · intro hclear l hl
    by_contra hused
    obtain ⟨g, hg, r', hr', hm⟩ := (h.marks l).mp (by simpa using hused)
    exact hclear g hg r' hr' l hl hm

lemma Examined.step {db : Db} {done : List ℕ} {s : Db × (ℕ → Bool)} (h : Examined o db done s) {x : ℕ}
    (hx : x ∉ done) :
    Examined o db (done ++ [x]) (validateEntry o s x) := by
  have hdb := h.rest x hx
  have hnew : ∀ g ∈ done ++ [x], g ∈ done ∧ g ≠ x ∨ g = x := fun g hg => by
    by_cases hgx : g = x
    · exact .inr hgx
    · exact .inl ⟨(List.mem_append.mp hg).resolve_right (by simpa using hgx), hgx⟩
  have hskip : (∀ r, db x = some r → ¬(Valid o x r ∧ Clear o db (standing o db done) r)) →
      ∀ g, g ∈ standing o db (done ++ [x]) ↔ g ∈ standing o db done := fun hno g => by
    rw [mem_standing_append]
    exact or_iff_left fun ⟨_, r, hr, hfit⟩ => hno r hr hfit
  rcases validateEntry_cases (o := o) s x with ⟨hnone, heq⟩ | ⟨rx, hrx, hv, hunused, heq⟩ | ⟨rx, hrx, hbad, heq⟩
  · have hskip := hskip fun r hr => by simp [← hdb, hnone] at hr
    rw [heq]
    refine ⟨fun g hg => h.rest g fun h => hg (List.mem_append_left _ h), fun g hg r => ?_, fun l => ?_⟩
    · rw [hskip g]
      rcases hnew g hg with ⟨hg, -⟩ | rfl
      · exact h.entry g hg r
      · simp [hnone, ← hdb]
    · simp only [h.marks, hskip]
  · have hstands : ∀ g, g ∈ standing o db (done ++ [x]) ↔ g ∈ standing o db done ∨ g = x := fun g => by
      rw [mem_standing_append]
      exact or_congr_right (and_iff_left ⟨rx, hdb.symm.trans hrx, hv, h.clear_iff.mp hunused⟩)
    rw [heq]
    refine ⟨fun g hg => h.rest g fun h => hg (List.mem_append_left _ h), fun g hg r => ?_, fun l => ?_⟩
    · rw [hstands g]
      rcases hnew g hg with ⟨hg, hgx⟩ | rfl
      · simpa [hgx] using h.entry g hg r
      · simp [hdb]
    · rw [markUsed_true, h.marks]
      have hpow : 0 < 2 ^ o.lmc := Nat.two_pow_pos _
      constructor
      · rintro (⟨hlo, hhi⟩ | ⟨g, hg, hm⟩)
        · exact ⟨x, (hstands x).mpr (.inr rfl), rx, hdb.symm.trans hrx, hlo, by omega, by omega⟩
        · exact ⟨g, (hstands g).mpr (.inl hg), hm⟩
      · rintro ⟨g, hg, r, hr, hm⟩
        rcases (hstands g).mp hg with hg | rfl
        · exact .inr ⟨g, hg, r, hr, hm⟩
        · obtain rfl := Option.some.inj (hrx.symm.trans (hdb.trans hr))
          obtain ⟨hlo, hhi, hnear⟩ := hm
          exact .inl ⟨hlo, by omega⟩
  · have hskip := hskip fun r hr hfit => by
      obtain rfl := Option.some.inj (hrx.symm.trans (hdb.trans hr))
      exact hbad ⟨hfit.1, h.clear_iff.mpr hfit.2⟩
    rw [heq]
    refine ⟨fun g hg => ?_, fun g hg r => ?_, fun l => ?_⟩
    · have hgx : g ≠ x := fun h => hg (by simp [h])
      exact (Function.update_of_ne hgx _ _).trans (h.rest g fun h => hg (List.mem_append_left _ h))
    · rw [hskip g]
      rcases hnew g hg with ⟨hg, hgx⟩ | rfl
      · simpa [hgx] using h.entry g hg r
      · simpa using fun h => absurd (standing_subset h) hx
    · simp only [h.marks, hskip]

lemma validateDb_standing {order : List ℕ} (hnd : order.Nodup) (db : Db) (hg : g ∈ order) :
    (validateDb o order db).1 g = some r ↔ g ∈ standing o db order ∧ db g = some r := by
  have hstart : Examined o db [] (db, fun _ => false) := ⟨fun _ _ => rfl, by simp, by simp [standing]⟩
  have hend := Lib.Folds.foldl_handled (validateEntry o) (Examined o db) order _ hstart (by
    rintro done x rest s hsplit h
    rw [hsplit] at hnd
    exact h.step fun hmem => (List.nodup_append.mp hnd).2.2 x hmem x List.mem_cons_self rfl)
  exact hend.entry g hg r

lemma initSweep_entry (guids : List ℕ) (file : Db) (hr : (initSweep o ports guids file st).g2l g = some r) :
    (sweepDb o guids file st).1 g = some r := by
  rw [initSweep] at hr
  dsimp only at hr
  split_ifs at hr
  · exact hr
  · have hclean : ∀ (js : List (Fin k)) (s : Db × (ℕ → Bool)), (js.foldl (cleanEntry o ports) s).1 g = some r →
        s.1 g = some r := by
      intro js
      induction js with
      | nil => exact fun s hs => hs
      | cons j js ih => exact fun s hs => (cleanEntry_aligned s j).2 g r (ih _ hs)
    exact hclean _ _ hr

lemma Sound.sweepDb (h : Sound o st) (hmax : o.maxUcastLidHo ≤ ucastEnd) (guids : List ℕ) (file : Db)
    (hkeys : ∀ g, file g ≠ none → g ∈ guids) : Sound o (LidMgr.sweepDb o guids file st) := by
  have hempty : Sound o (fun _ => none, fun _ => false) := ⟨checked_empty, by simp⟩
  rw [LidMgr.sweepDb]
  split_ifs
  · exact hempty
  · exact sound_validateDb hmax guids file hkeys
  · exact hempty
  · exact h

end Restart

section Next

variable {w : Sweep} {st : Db × (ℕ → Bool)} {lmc : ℕ}

lemma Sweep.Legal.handed (hw : w.Legal lmc) (hfound : ∀ x ∈ (w.run st).1, x.2 ≠ (0, 0)) :
    Handed w.opts w.ports (w.start st) (w.run st).1 (w.run st).2 := by
  have hstart : Handed w.opts w.ports (w.start st) [] (w.start st) :=
    ⟨aligned_initSweep hw.max_le w.guids w.file st, fun _ h => h, fun _ h => h, fun _ _ => rfl, by simp⟩
  have hend := hstart.calls hw.guid_inj hw.baseLid_le (fun l hl => initSweep_free hw.max_le w.guids w.file st hl)
    (sweepOrder w.sm) (by simpa using nodup_sweepOrder w.sm) hfound
  rwa [List.nil_append] at hend

lemma Sweep.mem_lids (w : Sweep) (st : Db × (ℕ → Bool)) (i : Fin w.k) : (i, w.lids st i) ∈ (w.run st).1 := by
  have hi : i ∈ (w.run st).1.map Prod.fst := by
    rw [Sweep.run, getPortLids_fst]
    by_cases h : i = w.sm
    · simp [sweepOrder, h]
    · simp [sweepOrder, h]
  obtain ⟨x, hx, rfl⟩ := List.mem_map.mp hi
  obtain ⟨r, hr⟩ := Option.isSome_iff_exists.mp (List.lookup_isSome_iff.mpr ⟨x, hx, beq_self_eq_true x.1⟩)
  obtain ⟨l₁, l₂, hl, -⟩ := List.lookup_eq_some_iff.mp hr
  rw [Sweep.lids, hr, hl]
  simp

lemma Sweep.Legal.whole (hw : w.Legal lmc) (hfound : ∀ x ∈ (w.run st).1, x.2 ≠ (0, 0)) (i : Fin w.k) :
    (w.next st).1 (w.ports i).guid = some (w.lids st i) ∧ Whole w.opts (w.ports i) (w.lids st i) := by
  have h := hw.handed hfound
  obtain ⟨hdb, hwidth, -⟩ := h.given _ (w.mem_lids st i)
  exact ⟨hdb, hwidth, h.aligned.db i _ hdb⟩

lemma Sound.next (hs : Sound w.opts st) (hw : w.Legal lmc) (hok : w.Succeeds st) : Sound w.opts (w.next st) := by
  have h := hw.handed hok.found
  obtain ⟨hstart, hcov⟩ := @checked_initSweep w.k w.opts w.ports w.guids w.file hw.keys st hs.checked
  have hsweepDb := hs.sweepDb hw.max_le w.guids w.file hw.keys
  have hlids : ∀ g r, (w.start st).g2l g = some r → 0 < r.1 ∧ r.1 ≤ ucastEnd := fun g r hr =>
    hsweepDb.lids g r (initSweep_entry w.guids w.file hr)
  have hentry : ∀ g r, (w.next st).1 g = some r → (∃ x ∈ (w.run st).1, (w.ports x.1).guid = g ∧ x.2 = r) ∨
      (∀ x ∈ (w.run st).1, (w.ports x.1).guid ≠ g) ∧ (w.start st).g2l g = some r := by
    intro g r hr
    by_cases hg : ∃ x ∈ (w.run st).1, (w.ports x.1).guid = g
    · obtain ⟨x, hx, rfl⟩ := hg
      exact .inl ⟨x, hx, rfl, Option.some.inj ((h.given x hx).1.symm.trans hr)⟩
    · push Not at hg
      exact .inr ⟨hg, (h.others g hg).symm.trans hr⟩
  -- A port that is there shares no LID with the entries of those that are not.
  have hapart : ∀ x ∈ (w.run st).1, ∀ g r l, (∀ y ∈ (w.run st).1, (w.ports y.1).guid ≠ g) →
      (w.start st).g2l g = some r → InRange x.2 l → ¬Marks w.opts r l := by
    intro x hx g r l hg hr hl hm
    obtain ⟨-, hwidth, horigin, -⟩ := h.given x hx
    rcases horigin with ⟨r₀, hr₀, hfirst⟩ | ⟨-, -, hunused⟩
    · have hm₀ : Marks w.opts r₀ l := by
        have hnum : numLids w.opts (w.ports x.1) ≤ 2 ^ w.opts.lmc := by
          rw [numLids]
          split_ifs
          · exact le_rfl
          · exact Nat.one_le_two_pow
        have hcover := hcov x.1 r₀ hr₀
        obtain ⟨hlo, hhi⟩ := hl
        exact ⟨by omega, by omega, by omega⟩
      exact hg x hx (hstart.disjoint _ _ _ _ l trivial trivial hr₀ hr hm₀ hm)
    · have hused : (w.start st).usedLids l = true := hstart.used g r l trivial hr hm
      rw [hunused l hl] at hused
      cases hused
  refine ⟨⟨?_, ?_, ?_⟩, ?_⟩
  · intro g r _ hr
    rcases hentry g r hr with ⟨x, hx, rfl, rfl⟩ | ⟨-, hr⟩
    · obtain ⟨hdb, hwidth, -⟩ := h.given x hx
      have hpos := numLids_pos w.opts (w.ports x.1)
      exact ⟨by omega, fun hne => Nat.mod_eq_zero_of_dvd (h.aligned.db x.1 x.2 hdb (by omega))⟩
    · exact hstart.range g r trivial hr
  · intro g r l _ hr hm
    rcases hentry g r hr with ⟨x, hx, rfl, rfl⟩ | ⟨-, hr⟩
    · exact (h.given x hx).2.2.2 l ⟨hm.1, hm.2.1⟩
    · exact h.used l (hstart.used g r l trivial hr hm)
  · intro g g' r r' l _ _ hr hr' hm hm'
    rcases hentry g r hr with ⟨x, hx, rfl, rfl⟩ | ⟨hg, hr⟩
    · rcases hentry g' r' hr' with ⟨y, hy, rfl, rfl⟩ | ⟨hg', hr'⟩
      · by_contra hne
        exact hok.disjoint x hx y hy (fun hxy => hne (hxy ▸ rfl)) l ⟨hm.1, hm.2.1⟩ ⟨hm'.1, hm'.2.1⟩
      · exact absurd hm' (hapart x hx g' r' l hg' hr' ⟨hm.1, hm.2.1⟩)
    · rcases hentry g' r' hr' with ⟨y, hy, rfl, rfl⟩ | ⟨hg', hr'⟩
      · exact absurd hm (hapart y hy g r l hg hr ⟨hm'.1, hm'.2.1⟩)
      · exact hstart.disjoint g g' r r' l trivial trivial hr hr' hm hm'
  · intro g r hr
    rcases hentry g r hr with ⟨x, hx, rfl, rfl⟩ | ⟨-, hr⟩
    · rcases (h.given x hx).2.2.1 with ⟨r₀, hr₀, hfirst⟩ | ⟨hpos, hle, -⟩
      · exact hfirst ▸ hlids _ r₀ hr₀
      · exact ⟨hpos, hle⟩
    · exact hlids g r hr

lemma Sound.succeeds (hs : Sound w.opts st) (hw : w.Legal lmc)
    (hok : RunOk w.opts w.ports (sweepOrder w.sm) (w.start st)) (hfound : ∀ x ∈ (w.run st).1, x.2 ≠ (0, 0)) :
    w.Succeeds st := by
  have hinv := inv_initSweep hw.guid_inj hw.max_le w.guids w.file hw.keys hs.checked
  obtain ⟨hend, hset⟩ := getPortLids_settled hw.guid_inj (sweepOrder w.sm) _ [] hinv (by simp [Settled])
    (by simpa using nodup_sweepOrder w.sm) hok hfound
  rw [List.nil_append] at hset
  refine ⟨hfound, fun x hx y hy hne l hl hl' => ?_⟩
  obtain ⟨hdb, hwx, -⟩ := hset x hx
  obtain ⟨hdb', hwy, -⟩ := hset y hy
  exact hne (hend.apart.disjoint x.1 y.1 l ⟨x.2, hdb, hl.1, by have := hl.2; omega⟩
    ⟨y.2, hdb', hl'.1, by have := hl'.2; omega⟩)

lemma Run.sound (h : Run lmc st) (ho : o.lmc = lmc) : Sound o st := by
  induction h generalizing o with
  | restored o' guids file hlmc hmax hkeys =>
    exact (sound_validateDb hmax guids file hkeys).of_lmc (ho.trans hlmc.symm)
  | empty => exact ⟨checked_empty, by simp⟩
  | sweep w st _ hw hok hfound ih =>
    have hs := ih hw.lmc_eq
    exact (hs.next hw (hs.succeeds hw hok hfound)).of_lmc (ho.trans hw.lmc_eq.symm)

lemma Whole.last_le {p : Port} {r : ℕ × ℕ} (h : Whole o p r) (hlmc : o.lmc ≤ 7) (hr : r.1 ≤ ucastEnd) :
    r.2 ≤ ucastEnd := by
  have hwidth := h.width
  by_cases hone : numLids o p = 1
  · omega
  · have hnum : numLids o p = 2 ^ o.lmc := by
      rw [numLids] at hone ⊢
      split_ifs at hone ⊢
      · rfl
      · exact absurd rfl hone
    obtain ⟨q, hq⟩ := h.aligned hone
    rw [hnum] at hwidth
    rw [ucastEnd] at hr ⊢
    generalize o.lmc = n at hlmc hq hwidth
    interval_cases n
    all_goals omega

lemma Whole.reported {r : ℕ × ℕ} {i : Fin k} (h : Whole o (ports i) r) (hlmc : o'.lmc = o.lmc) :
    Whole o' (reported o ports lids i) r := by
  have hnum : numLids o' (LidMgr.reported o ports lids i) = numLids o (ports i) := by
    simp only [numLids, LidMgr.reported, hlmc]
  exact ⟨hnum ▸ h.width, fun hone => hlmc ▸ h.aligned (hnum ▸ hone)⟩

end Next

/-- What a restart has to find in the database for the ports to keep their LIDs: these are unicast LIDs, and no
entry of a port that is gone stands before the entry of a port with which it shares a LID. -/
structure Sweep.Spared (w : Sweep) (st : Db × (ℕ → Bool)) (o : Opts) (order : List ℕ) : Prop where
  unicast : ∀ i, 0 < (w.lids st i).1 ∧ (w.lids st i).2 ≤ ucastEnd
  apart : ∀ i before after, order = before ++ (w.ports i).guid :: after → ∀ g ∈ standing o (w.next st).1 before,
    (∀ j, (w.ports j).guid ≠ g) → ∀ r, (w.next st).1 g = some r → ∀ l, InRange (w.lids st i) l → ¬Marks o r l

section Spared

variable {w : Sweep} {st : Db × (ℕ → Bool)} {lmc : ℕ} {order : List ℕ}

lemma Whole.width_le {p : Port} {r : ℕ × ℕ} (h : Whole o p r) : r.1 ≤ r.2 ∧ r.2 + 1 ≤ r.1 + 2 ^ o.lmc := by
  have hwidth := h.width
  have hnum := numLids_pos o p
  have hmost : numLids o p ≤ 2 ^ o.lmc := by
    rw [numLids]
    split_ifs
    · exact le_rfl
    · exact Nat.one_le_two_pow
  omega

/-- The check after a restart leaves the entries of all ports exactly in these databases. -/
lemma Sweep.Legal.spared_iff (hw : w.Legal lmc) (hok : w.Succeeds st) (ho : o.lmc = lmc)
    (hmax : o.maxUcastLidHo = ucastEnd)
    (hnd : order.Nodup) (hkeys : ∀ g, (w.next st).1 g ≠ none → g ∈ order) :
    (∀ i, (validateDb o order (w.next st).1).1 (w.ports i).guid = some (w.lids st i)) ↔ w.Spared st o order := by
  have hlmc : o.lmc = w.opts.lmc := ho.trans hw.lmc_eq.symm
  have hwhole := fun i => hw.whole hok.found i
  have hmem : ∀ i, (w.ports i).guid ∈ order := fun i => hkeys _ (by simp [(hwhole i).1])
  have hkept : ∀ i before after, order = before ++ (w.ports i).guid :: after →
      ((validateDb o order (w.next st).1).1 (w.ports i).guid = some (w.lids st i) ↔
        Valid o (w.ports i).guid (w.lids st i) ∧
            Clear o (w.next st).1 (standing o (w.next st).1 before) (w.lids st i)) := by
    intro i before after hsplit
    rw [validateDb_standing hnd _ (hmem i), and_iff_left (hwhole i).1, hsplit,
        mem_standing (hsplit ▸ hnd) (hwhole i).1]
  constructor
  · intro h
    refine ⟨fun i => ?_, fun i before after hsplit g hg _ r hr l hl => ?_⟩
    · obtain ⟨before, after, hsplit⟩ := List.append_of_mem (hmem i)
      obtain ⟨hv, -⟩ := (hkept i before after hsplit).mp (h i)
      exact ⟨Nat.pos_of_ne_zero hv.pos, hmax ▸ hv.max⟩
    · exact ((hkept i before after hsplit).mp (h i)).2 g hg r hr l hl
  · intro h i
    obtain ⟨before, after, hsplit⟩ := List.append_of_mem (hmem i)
    obtain ⟨hle, -⟩ := (hwhole i).2.width_le
    have hwidth := (hwhole i).2.width
    refine (hkept i before after hsplit).mpr ⟨⟨hle, (h.unicast i).1.ne', hw.guid_ne i, hmax ▸ (h.unicast i).2,
      fun hne => ?_⟩, fun g hg r hr l hl hm => ?_⟩
    · exact Nat.mod_eq_zero_of_dvd (hlmc ▸ (hwhole i).2.aligned (by omega))
    · -- The entries of two ports that are there share no LID.
      by_cases hthere : ∃ j, (w.ports j).guid = g
      · obtain ⟨j, rfl⟩ := hthere
        have hij : i ≠ j := by
          rintro rfl
          rw [hsplit] at hnd
          exact (List.nodup_append.mp hnd).2.2 _ (standing_subset hg) _ List.mem_cons_self rfl
        obtain rfl := Option.some.inj ((hwhole j).1.symm.trans hr)
        exact hok.disjoint _ (w.mem_lids st i) _ (w.mem_lids st j) hij l hl ⟨hm.1, hm.2.1⟩
      · push Not at hthere
        exact h.apart i before after hsplit g hg hthere r hr l hl hm

/-- A sweep that was reached without keeping LIDs that are on the list of free ranges leaves such a database. -/
theorem Run.spared (hrun : Run lmc st) (hw : w.Legal lmc) (hok : w.Succeeds st) (ho : o.lmc = lmc)
    (order : List ℕ) :
    w.Spared st o order := by
  have hsound : Sound o (w.next st) := ((hrun.sound hw.lmc_eq).next hw hok).of_lmc (ho.trans hw.lmc_eq.symm)
  refine ⟨fun i => ?_, fun i before after _ g _ hgone r hr l hl hm => ?_⟩
  · obtain ⟨hdb, hfit⟩ := hw.whole hok.found i
    obtain ⟨hpos, hle⟩ := hsound.lids _ _ hdb
    exact ⟨hpos, hfit.last_le (hw.lmc_eq ▸ hw.lmc_le) hle⟩
  · obtain ⟨hdb, hfit⟩ := hw.whole hok.found i
    have hwide := hfit.width_le.2
    rw [hw.lmc_eq, ← ho] at hwide
    have hend := hl.2
    exact hgone i (hsound.checked.disjoint _ _ _ _ l trivial trivial hdb hr ⟨hl.1, hend, by omega⟩ hm)

end Spared

/-- After a sweep that finds disjoint ranges for all its ports the next one disturbs none of them, and a restart
disturbs none of them exactly if no entry of a port that is gone gets in the way of theirs. -/
theorem sweep_stable {lmc : ℕ} {st : Db × (ℕ → Bool)} (w : Sweep) (hw : w.Legal lmc) (hok : w.Succeeds st) :
    (∀ (o : Opts) (guids : List ℕ) (file : Db) (sm : Fin w.k), o.lmc = lmc → o.firstTimeMasterSweep = false →
      o.comingOutOfStandby = false →
      Undisturbed o (reported w.opts w.ports (w.lids st)) (w.lids st) (sweepOrder sm)
        (initSweep o (reported w.opts w.ports (w.lids st)) guids file (w.next st))) ∧
    ∀ (o : Opts) (order guids : List ℕ) (file : Db) (sm : Fin w.k), o.lmc = lmc →
      o.reassignLids = false → o.comingOutOfStandby = false → order.Nodup →
      (∀ g, (w.next st).1 g ≠ none → g ∈ order) →
      (Undisturbed o (reported w.opts w.ports (w.lids st)) (w.lids st) (sweepOrder sm)
        (initSweep o (reported w.opts w.ports (w.lids st)) guids file
          (validateDb { o with maxUcastLidHo := ucastEnd } order (w.next st).1)) ↔
        w.Spared st { o with maxUcastLidHo := ucastEnd } order) := by
  have hwhole := fun i => hw.whole hok.found i
  constructor
  · intro o guids file sm hlmc hfirst hstandby
    exact undisturbed_sweep (by simp [Opts.reassigning, hfirst]) hstandby
      (fun i => (hwhole i).2.reported (hlmc.trans hw.lmc_eq.symm)) (fun _ => rfl) guids file
      (fun i => (hwhole i).1) (sweepOrder sm)
  · intro o order guids file sm hlmc hre hstandby hnd hkeys
    have hreassign : o.reassigning = false := by simp [Opts.reassigning, hre]
    rw [← hw.spared_iff hok (o := { o with maxUcastLidHo := ucastEnd }) hlmc rfl hnd hkeys]
    constructor
    · intro h i
      have hentry := initSweep_entry guids file (h.1 i)
      rw [sweepDb, hreassign, hstandby] at hentry
      exact hentry
    · exact fun h => undisturbed_sweep hreassign hstandby
        (fun i => (hwhole i).2.reported (hlmc.trans hw.lmc_eq.symm)) (fun _ => rfl) guids file h (sweepOrder sm)

abbrev keptSweep : Sweep := ⟨3, mergedOpts, keptPorts, ⟨0, Nat.zero_lt_succ 2⟩, [], fun _ => none⟩

/-- The port that is gone stands first in the order of the restart, with LID 5. -/
theorem sweep_stable_kept :
    (keptSweep.run (validateDb mergedOpts [2, 9] keptDb)).1 = [(0, (1, 1)), (1, (3, 3)), (2, (2, 2))] ∧
    Undisturbed mergedOpts (reported mergedOpts keptPorts (keptSweep.lids (validateDb mergedOpts [2, 9] keptDb)))
      (keptSweep.lids (validateDb mergedOpts [2, 9] keptDb)) (sweepOrder 0)
      (initSweep mergedOpts (reported mergedOpts keptPorts (keptSweep.lids (validateDb mergedOpts [2, 9] keptDb)))
        [] (fun _ => none) (keptSweep.next (validateDb mergedOpts [2, 9] keptDb))) ∧
    Undisturbed mergedOpts (reported mergedOpts keptPorts (keptSweep.lids (validateDb mergedOpts [2, 9] keptDb)))
      (keptSweep.lids (validateDb mergedOpts [2, 9] keptDb)) (sweepOrder 0)
      (initSweep mergedOpts (reported mergedOpts keptPorts (keptSweep.lids (validateDb mergedOpts [2, 9] keptDb)))
        [] (fun _ => none) (validateDb { mergedOpts with maxUcastLidHo := ucastEnd } [9, 3, 2, 1]
          (keptSweep.next (validateDb mergedOpts [2, 9] keptDb)).1)) := by
  set st := validateDb mergedOpts [2, 9] keptDb with hst
  have hrun : (keptSweep.run st).1 = [(0, (1, 1)), (1, (3, 3)), (2, (2, 2))] ∧ (keptSweep.next st).1 =
      Function.update (Function.update (Function.update keptDb 1 (some (1, 1))) 2 (some (3, 3))) 3
          (some (2, 2)) := by
    obtain ⟨rest, hinit, -⟩ := kept_initSweep
    rw [Sweep.next, Sweep.run, show keptSweep.start st = _ from hinit]
    exact ⟨rfl, rfl⟩
  obtain ⟨hout, hdb⟩ := hrun
  have hw : keptSweep.Legal 0 := ⟨by decide, by decide, by decide, rfl, by decide, le_rfl, fun _ h => absurd rfl h⟩
  have hok : keptSweep.Succeeds st := by
    constructor
    · rw [hout]
      decide
    · rw [hout]
      intro x hx y hy hne l hl hl'
      simp only [List.mem_cons, List.not_mem_nil, or_false] at hx hy
      rcases hx with rfl | rfl | rfl <;> rcases hy with rfl | rfl | rfl <;> simp only [InRange] at hl hl' <;>
        omega
  obtain ⟨hagain, hrestart⟩ := sweep_stable keptSweep hw hok
  refine ⟨hout, hagain mergedOpts [] _ 0 rfl rfl rfl,
    (hrestart mergedOpts [9, 3, 2, 1] [] _ 0 rfl rfl rfl (by decide) fun g hg => ?_).mpr ⟨fun i => ?_, ?_⟩⟩
  · rw [hdb] at hg
    by_contra hmem
    simp only [List.mem_cons, List.not_mem_nil, or_false, not_or] at hmem
    rw [Function.update_of_ne hmem.2.1, Function.update_of_ne hmem.2.2.1, Function.update_of_ne hmem.2.2.2, keptDb,
      if_neg hmem.2.2.1, if_neg hmem.1] at hg
    exact hg rfl
  · rw [Sweep.lids, hout]
    fin_cases i <;> decide
  · intro i before after _ g _ hgone r hr l hl hm
    have hg9 : g = 9 := by
      have h₁ : g ≠ 1 := (hgone ⟨0, by decide⟩).symm
      have h₂ : g ≠ 2 := (hgone ⟨1, by decide⟩).symm
      have h₃ : g ≠ 3 := (hgone ⟨2, by decide⟩).symm
      rw [hdb, Function.update_of_ne h₃, Function.update_of_ne h₂, Function.update_of_ne h₁, keptDb,
          if_neg h₂] at hr
      by_contra hne
      simp [hne] at hr
    subst hg9
    rw [hdb] at hr
    obtain rfl := Option.some.inj hr
    rw [Sweep.lids, hout] at hl
    fin_cases i
    · exact absurd (hm.1.trans hl.2) (by decide)
    · exact absurd (hm.1.trans hl.2) (by decide)
    · exact absurd (hm.1.trans hl.2) (by decide)

abbrev mergedSweep : Sweep := ⟨3, mergedOpts, mergedPorts, ⟨0, Nat.zero_lt_succ 2⟩, [], fun _ => none⟩

def leftPorts : Fin 2 → Port
  | 0 => ⟨1, 1, 0, true⟩
  | 1 => ⟨2, 7, 0, true⟩

abbrev leftSweep : Sweep := ⟨2, mergedOpts, leftPorts, ⟨0, Nat.zero_lt_succ 1⟩, [], fun _ => none⟩

def leftDb : Db := Function.update (Function.update (Function.update mergedDb 1 (some (1, 1))) 2 (some (7, 7)))
    3 (some (1, 1))

/-- The entry of the port that is gone is checked first after a restart, and that of the first port is dropped. -/
theorem restart_drops_entry :
    leftSweep.Legal 0 ∧ leftSweep.Succeeds (mergedSweep.next (validateDb mergedOpts [2] mergedDb)) ∧
    (∀ g, (leftSweep.next (mergedSweep.next (validateDb mergedOpts [2] mergedDb))).1 g ≠ none → g ∈ [3, 2, 1]) ∧
    (leftSweep.next (mergedSweep.next (validateDb mergedOpts [2] mergedDb))).1 1 = some (1, 1) ∧
    (validateDb mergedOpts [3, 2, 1] (leftSweep.next (mergedSweep.next (validateDb mergedOpts [2] mergedDb))).1).1
        1 =
      none ∧
    ¬Undisturbed mergedOpts (reported mergedOpts leftSweep.ports
        (leftSweep.lids (mergedSweep.next (validateDb mergedOpts [2] mergedDb))))
      (leftSweep.lids (mergedSweep.next (validateDb mergedOpts [2] mergedDb))) (sweepOrder 0)
      (initSweep mergedOpts (reported mergedOpts leftSweep.ports
        (leftSweep.lids (mergedSweep.next (validateDb mergedOpts [2] mergedDb)))) [] (fun _ => none)
        (validateDb mergedOpts [3, 2, 1]
          (leftSweep.next (mergedSweep.next (validateDb mergedOpts [2] mergedDb))).1)) := by
  have hmerged : (mergedSweep.next (validateDb mergedOpts [2] mergedDb)).1 = leftDb := by
    obtain ⟨rest, hinit⟩ := merged_initSweep
    rw [Sweep.next, Sweep.run, show mergedSweep.start (validateDb mergedOpts [2] mergedDb) = _ from hinit]
    rfl
  generalize mergedSweep.next (validateDb mergedOpts [2] mergedDb) = st at hmerged ⊢
  obtain ⟨db, used⟩ := st
  obtain rfl : db = leftDb := hmerged
  have hout : (leftSweep.run (leftDb, used)).1 = [(0, (1, 1)), (1, (7, 7))] := rfl
  have hnext : (leftSweep.next (leftDb, used)).1 =
      Function.update (Function.update leftDb 1 (some (1, 1))) 2 (some (7, 7)) := rfl
  have hdrop : (validateDb mergedOpts [3, 2, 1] (leftSweep.next (leftDb, used)).1).1 1 = none := by
    rw [hnext]
    rfl
  refine ⟨⟨by decide, by decide, by decide, rfl, by decide, le_rfl, fun _ h => absurd rfl h⟩, ⟨?_, ?_⟩,
    fun g hg => ?_, rfl, hdrop, fun h => ?_⟩
  · rw [hout]
    decide
  · rw [hout]
    intro x hx y hy hne l hl hl'
    simp only [List.mem_cons, List.not_mem_nil, or_false] at hx hy
    rcases hx with rfl | rfl <;> rcases hy with rfl | rfl <;> simp only [InRange] at hl hl' <;>
      omega
  · rw [hnext] at hg
    by_contra hmem
    simp only [List.mem_cons, List.not_mem_nil, or_false, not_or] at hmem
    rw [Function.update_of_ne hmem.2.1, Function.update_of_ne hmem.2.2, leftDb, Function.update_of_ne hmem.1,
      Function.update_of_ne hmem.2.1, Function.update_of_ne hmem.2.2, mergedDb, if_neg hmem.2.1] at hg
    exact hg rfl
  · have hentry := initSweep_entry [] _ (h.1 0)
    exact absurd (hdrop.symm.trans hentry) (by simp)

end OpenSM.LidMgr
