import OpenSM.LidUnique

/-! LIDs against the size of the forwarding tables: the limit that discovery keeps, and the ways by which a LID
above the last one that all switches can forward gets to a port. -/

namespace OpenSM.LidMgr

/-- The part of `si_rcv_process_new` for the unicast LIDs. -/
def siRcvProcessNew (maxUcastLidHo linCap : ℕ) : ℕ := if linCap < maxUcastLidHo then linCap else maxUcastLidHo

def Opts.discover (o : Opts) (linCaps : List ℕ) : Opts :=
  { o with maxUcastLidHo := linCaps.foldl siRcvProcessNew ucastEnd }

def lidBound (linCaps : List ℕ) : ℕ := linCaps.foldl (fun b linCap => min b (linCap - 1)) ucastEnd

structure Fits (o : Opts) (bound : ℕ) (r : ℕ × ℕ) : Prop where
  pos : 1 ≤ r.1
  le : r.1 ≤ r.2
  bound : r.2 ≤ bound
  aligned : r.1 < r.2 → 2 ^ o.lmc ∣ r.1

def lowestLid (o : Opts) (num lid : ℕ) : ℕ :=
  if 1 < num ∧ lid % 2 ^ o.lmc ≠ 0 then (lid + 2 ^ o.lmc) / 2 ^ o.lmc * 2 ^ o.lmc else lid

variable {k : ℕ} {o : Opts} {ports : Fin k → Port} {st : Mgr k} {i : Fin k} {bound num : ℕ} {r range : ℕ × ℕ}
  {free free' : List (ℕ × ℕ)}

/-- The database, the port itself and the free ranges have LIDs within the bound for the port. -/
structure StepFits (o : Opts) (ports : Fin k → Port) (bound : ℕ) (st : Mgr k) (i : Fin k) : Prop where
  db : ∀ r, o.reassigning = false → st.g2l (ports i).guid = some r →
    1 ≤ r.1 ∧ r.1 + numLids o (ports i) ≤ bound + 1
  kept : keepsLids o ports st i = true → (ports i).baseLid + numLids o (ports i) ≤ bound + 1
  free : o.reassigning = true ∨ st.g2l (ports i).guid = none ∧ keepsLids o ports st i = false →
    ∃ r ∈ st.freeRanges, lowestLid o (numLids o (ports i)) r.1 + numLids o (ports i) ≤ min r.2 bound + 1

def RunFits (o : Opts) (ports : Fin k → Port) (bound : ℕ) : List (Fin k) → Mgr k → Prop
  | [], _ => True
  | i :: is, st => StepFits o ports bound st i ∧ RunFits o ports bound is (getPortLid o ports st i).1

structure Aligned (o : Opts) (ports : Fin k → Port) (st : Mgr k) : Prop where
  sorted : st.freeRanges.Pairwise fun r r' => r.2 < r'.1
  pos : ∀ r ∈ st.freeRanges, 1 ≤ r.1
  db : ∀ i r, st.g2l (ports i).guid = some r → numLids o (ports i) ≠ 1 → 2 ^ o.lmc ∣ r.1

section Find

lemma le_lowestLid (o : Opts) (num lid : ℕ) : lid ≤ lowestLid o num lid := by
  rw [lowestLid]
  split_ifs
  · have hpos : 0 < 2 ^ o.lmc := Nat.two_pow_pos _
    have hdiv := Nat.div_add_mod (lid + 2 ^ o.lmc) (2 ^ o.lmc)
    have hmod := Nat.mod_lt (lid + 2 ^ o.lmc) hpos
    rw [mul_comm] at hdiv
    omega
  · exact le_rfl

lemma dvd_lowestLid (hnum : 1 < num) (lid : ℕ) : 2 ^ o.lmc ∣ lowestLid o num lid := by
  rw [lowestLid]
  split_ifs with h
  · exact dvd_mul_left _ _
  · rw [not_and, not_not] at h
    exact Nat.dvd_of_mod_eq_zero (h hnum)

lemma findFreeLidRange_first (hnum : 0 < num) (h : findFreeLidRange o num free = some (range, free')) :
    ∃ pre r post, free = pre ++ r :: post ∧ (∀ q ∈ pre, q.2 + 1 < lowestLid o num q.1 + num) ∧
      range = (lowestLid o num r.1, lowestLid o num r.1 + num - 1) ∧ lowestLid o num r.1 + num ≤ r.2 + 1 := by
  induction free generalizing free' with
  | nil => cases h
  | cons r rs ih =>
    rw [findFreeLidRange, ← lowestLid] at h
    split_ifs at h with hroom
    · exact ⟨[], r, rs, rfl, by simp, (congrArg Prod.fst (Option.some.inj h)).symm, by omega⟩
    · exact ⟨[], r, rs, rfl, by simp, (congrArg Prod.fst (Option.some.inj h)).symm, by omega⟩
    · obtain ⟨⟨range₁, free₁⟩, hx, heq⟩ := Option.map_eq_some_iff.mp h
      obtain rfl : range₁ = range := congrArg Prod.fst heq
      obtain ⟨pre, r', post, rfl, hpre, hrange, hfit⟩ := ih hx
      refine ⟨r :: pre, r', post, rfl, ?_, hrange, hfit⟩
      intro q hq
      rcases List.mem_cons.mp hq with rfl | hq
      · omega
      · exact hpre q hq

lemma findFreeLidRange_none (h : findFreeLidRange o num free = none) :
    ∀ q ∈ free, q.2 + 1 < lowestLid o num q.1 + num := by
  induction free with
  | nil => exact nofun
  | cons r rs ih =>
    rw [findFreeLidRange, ← lowestLid] at h
    split_ifs at h with hroom
    intro q hq
    rcases List.mem_cons.mp hq with rfl | hq
    · omega
    · exact ih (Option.map_eq_none_iff.mp h) q hq

lemma findFreeLidRange_le (hnum : 0 < num) (hs : free.Pairwise fun r r' => r.2 < r'.1)
    (h : findFreeLidRange o num free = some (range, free')) :
    range.2 ≤ bound ↔ ∃ r ∈ free, lowestLid o num r.1 + num ≤ min r.2 bound + 1 := by
  obtain ⟨pre, r, post, rfl, hpre, rfl, hfit⟩ := findFreeLidRange_first hnum h
  constructor
  · intro hb
    dsimp only at hb
    exact ⟨r, by simp, by omega⟩
  · rintro ⟨q, hq, hroom⟩
    dsimp only
    rcases List.mem_append.mp hq with hq | hq
    · have hno := hpre q hq
      omega
    · rcases List.mem_cons.mp hq with rfl | hq
      · omega
      · -- A later free range lies above the one that is taken.
        have hlt := (List.pairwise_cons.mp (List.pairwise_append.mp hs).2.1).1 q hq
        have hle := le_lowestLid o num q.1
        omega

end Find

section Step

variable {done : Mgr k × (ℕ × ℕ) × Bool}

lemma numLids_eq (h : 1 < numLids o (ports i)) : numLids o (ports i) = 2 ^ o.lmc := by
  rw [numLids] at h ⊢
  split_ifs at h ⊢
  · rfl
  · exact absurd h (lt_irrefl 1)

lemma fits_range (hdvd : 1 < numLids o (ports i) → 2 ^ o.lmc ∣ num) :
    Fits o bound (num, num + numLids o (ports i) - 1) ↔ 1 ≤ num ∧ num + numLids o (ports i) ≤ bound + 1 := by
  have hpos := numLids_pos o (ports i)
  constructor
  · rintro ⟨hnum, -, hle, -⟩
    exact ⟨hnum, by dsimp only at hle; omega⟩
  · rintro ⟨hnum, hle⟩
    exact ⟨hnum, by dsimp only; omega, by dsimp only; omega, fun hlt => hdvd (by dsimp only at hlt; omega)⟩

lemma Aligned.newLidSet (hg : Function.Injective fun i => (ports i).guid) (h : Aligned o ports st)
    (hdvd : numLids o (ports i) ≠ 1 → 2 ^ o.lmc ∣ r.1) : Aligned o ports (newLidSet ports st i r) where
  sorted := h.sorted
  pos := h.pos
  db j r' hr' hone := by
    by_cases hj : j = i
    · subst hj
      have hr : some r = some r' := by simpa [LidMgr.newLidSet] using hr'
      exact Option.some.inj hr ▸ hdvd hone
    · have hne : (ports j).guid ≠ (ports i).guid := fun hji => hj (hg hji)
      rw [LidMgr.newLidSet] at hr'
      exact h.db j r' (by simpa [Function.update_of_ne hne] using hr') hone

lemma assignLid_fits (hg : Function.Injective fun i => (ports i).guid) (h : Aligned o ports st) :
    Aligned o ports (assignLid o ports st i).1 ∧ (Fits o bound (assignLid o ports st i).2.1 ↔
      ∃ r ∈ st.freeRanges, lowestLid o (numLids o (ports i)) r.1 + numLids o (ports i) ≤ min r.2 bound + 1) := by
  have hpos := numLids_pos o (ports i)
  rw [assignLid]
  dsimp only
  cases hfind : findFreeLidRange o (numLids o (ports i)) st.freeRanges with
  | none =>
    have hclean : Aligned o ports { st with portLidTbl := cleanupDiscovered ports st.portLidTbl i } :=
        ⟨h.sorted, h.pos, h.db⟩
    refine ⟨hclean.newLidSet hg fun _ => dvd_zero _, iff_of_false (fun hf => by simpa using hf.pos) ?_⟩
    rintro ⟨r, hr, hroom⟩
    have hno := findFreeLidRange_none hfind r hr
    omega
  | some x =>
    obtain ⟨range, free'⟩ := x
    obtain ⟨-, -, hsorted, hfrom, -⟩ := findFreeLidRange_spec hpos h.sorted hfind
    obtain ⟨pre, r, post, hfree, -, hrange, -⟩ := findFreeLidRange_first hpos hfind
    have hr : 1 ≤ r.1 := h.pos r (by simp [hfree])
    have hlow := le_lowestLid o (numLids o (ports i)) r.1
    have hdvd : 1 < numLids o (ports i) → 2 ^ o.lmc ∣ lowestLid o (numLids o (ports i)) r.1 :=
        fun h1 => dvd_lowestLid h1 _
    have hpos' : ∀ q ∈ free', 1 ≤ q.1 := fun q hq => by
      obtain ⟨q₀, hq₀, hle, -⟩ := hfrom q hq
      exact (h.pos q₀ hq₀).trans hle
    have hclean : Aligned o ports
        { st with freeRanges := free', portLidTbl := cleanupDiscovered ports st.portLidTbl i } :=
            ⟨hsorted, hpos', h.db⟩
    refine ⟨hclean.newLidSet hg fun hne => ?_, ?_⟩
    · rw [hrange]
      exact hdvd (by omega)
    · rw [← findFreeLidRange_le hpos h.sorted hfind, hrange, fits_range hdvd]
      dsimp only
      omega

lemma stepFits_db (hre : o.reassigning = false) (hdb : st.g2l (ports i).guid = some r) :
    StepFits o ports bound st i ↔ 1 ≤ r.1 ∧ r.1 + numLids o (ports i) ≤ bound + 1 := by
  have hkeep : keepsLids o ports st i = false := by simp [keepsLids, hdb]
  refine ⟨fun h => h.db r hre hdb, fun h => ⟨fun r' _ hr' => ?_, fun hk => ?_, fun hf => ?_⟩⟩
  · obtain rfl := Option.some.inj (hdb.symm.trans hr')
    exact h
  · rw [hkeep] at hk
    cases hk
  · rw [hre, hdb] at hf
    rcases hf with hf | ⟨hf, -⟩
    · cases hf
    · cases hf

lemma stepFits_kept (hre : o.reassigning = false) (hdb : st.g2l (ports i).guid = none)
    (hk : keepsLids o ports st i = true) :
    StepFits o ports bound st i ↔ (ports i).baseLid + numLids o (ports i) ≤ bound + 1 := by
  refine ⟨fun h => h.kept hk, fun h => ⟨fun r' _ hr' => ?_, fun _ => h, fun hf => ?_⟩⟩
  · rw [hdb] at hr'
    cases hr'
  · rw [hre, hk] at hf
    rcases hf with hf | ⟨-, hf⟩
    · cases hf
    · cases hf

lemma stepFits_assign (h : o.reassigning = true ∨ st.g2l (ports i).guid = none ∧ keepsLids o ports st i = false) :
    StepFits o ports bound st i ↔
      ∃ r ∈ st.freeRanges, lowestLid o (numLids o (ports i)) r.1 + numLids o (ports i) ≤ min r.2 bound + 1 := by
  refine ⟨fun hs => hs.free h, fun hroom => ⟨fun r hre hdb => ?_, fun hk => ?_, fun _ => hroom⟩⟩
  · rw [hre, hdb] at h
    rcases h with h | ⟨h, -⟩
    · cases h
    · cases h
  · rcases h with h | ⟨-, h⟩
    · rw [keepsLids, h] at hk
      cases hk
    · rw [h] at hk
      cases hk

/-- One call returns LIDs that fit exactly if the source of the LIDs has them within the bound. -/
lemma getPortLid_fits (hg : Function.Injective fun i => (ports i).guid) (h : Aligned o ports st) :
    Aligned o ports (getPortLid o ports st i).1 ∧
      (Fits o bound (getPortLid o ports st i).2.1 ↔ StepFits o ports bound st i) := by
  cases hre : o.reassigning with
  | true =>
    rw [getPortLid]
    dsimp only
    rw [if_pos hre, stepFits_assign (.inl hre)]
    exact assignLid_fits hg h
  | false =>
    rw [getPortLid]
    dsimp only
    rw [if_neg (by simp [hre])]
    cases hdb : st.g2l (ports i).guid with
    | some r =>
      have hdvd : 1 < numLids o (ports i) → 2 ^ o.lmc ∣ r.1 := fun h1 => h.db i r hdb h1.ne'
      have hfits := @fits_range k o ports i bound r.1 hdvd
      have hclean : Aligned o ports { st with portLidTbl := cleanupDiscovered ports st.portLidTbl i } :=
        ⟨h.sorted, h.pos, h.db⟩
      rw [stepFits_db hre hdb]
      dsimp only
      split_ifs
      · exact ⟨h.newLidSet hg fun hne => h.db i r hdb hne, hfits⟩
      · exact ⟨hclean.newLidSet hg fun hne => h.db i r hdb hne, hfits⟩
    | none =>
      dsimp only
      cases hk : keepsLids o ports st i with
      | false =>
        rw [if_neg Bool.false_ne_true, stepFits_assign (.inr ⟨hdb, hk⟩)]
        exact assignLid_fits hg h
      | true =>
        have hkeep := hk
        simp only [keepsLids, Bool.and_eq_true] at hkeep
        obtain ⟨⟨⟨-, hbase⟩, halign⟩, -⟩ := hkeep
        have hdvd : 1 < numLids o (ports i) → 2 ^ o.lmc ∣ (ports i).baseLid := fun h1 =>
          numLids_eq h1 ▸ Nat.dvd_of_mod_eq_zero (by simpa using halign)
        rw [if_pos rfl, stepFits_kept hre hdb hk]
        have hone := numLids_pos o (ports i)
        refine ⟨h.newLidSet hg fun hne => hdvd (by omega), (fits_range hdvd).trans ?_⟩
        have hbase' : 1 ≤ (ports i).baseLid := Nat.one_le_iff_ne_zero.mpr (by simpa using hbase)
        exact and_iff_right hbase'

lemma getPortLids_fits (hg : Function.Injective fun i => (ports i).guid) (is : List (Fin k))
    (h : Aligned o ports st) :
    (∀ x ∈ (getPortLids o ports is st).1, Fits o bound x.2) ↔ RunFits o ports bound is st := by
  induction is generalizing st with
  | nil => exact iff_of_true nofun trivial
  | cons i is ih =>
    obtain ⟨hnext, hfits⟩ := @getPortLid_fits k o ports st i bound hg h
    rw [getPortLids, RunFits, ← hfits, ← ih hnext]
    dsimp only
    rw [List.forall_mem_cons]

end Step

section Init

lemma discover_le (linCaps : List ℕ) : (o.discover linCaps).maxUcastLidHo ≤ ucastEnd := by
  have hrun : ∀ m ≤ ucastEnd, linCaps.foldl siRcvProcessNew m ≤ ucastEnd := by
    induction linCaps with
    | nil => exact fun m hm => hm
    | cons c linCaps ih =>
      intro m hm
      refine ih _ ?_
      rw [siRcvProcessNew]
      split_ifs with hlt
      · exact hlt.le.trans hm
      · exact hm
  exact hrun ucastEnd le_rfl

lemma finish_pos {lid last : ℕ} {part : Option (ℕ × ℕ)} {ranges : List (ℕ × ℕ)} (hlid : 1 ≤ lid)
    (hpart : ∀ r, part = some r → 1 ≤ r.1) (hpos : ∀ r ∈ ranges, 1 ≤ r.1) :
    ∀ r ∈ ranges ++ [((part.map Prod.fst).getD lid, last)], 1 ≤ r.1 := by
  intro r hr
  rcases List.mem_append.mp hr with hr | hr
  · exact hpos r hr
  · rw [List.mem_singleton.mp hr]
    cases part with
    | none => exact hlid
    | some r => exact hpart r rfl

lemma scan_pos (g2l : Db) (used : ℕ → Bool) (tbl : ℕ → Option (Fin k)) (fuel : ℕ) {lid : ℕ} {part : Option (ℕ × ℕ)}
    {ranges : List (ℕ × ℕ)} (hlid : 1 ≤ lid) (hpart : ∀ r, part = some r →
    1 ≤ r.1) (hpos : ∀ r ∈ ranges, 1 ≤ r.1) :
    ∀ r ∈ scan o ports g2l used tbl fuel lid part ranges, 1 ≤ r.1 := by
  induction fuel generalizing lid part ranges with
  | zero => exact finish_pos hlid hpart hpos
  | succ fuel ih =>
    rw [scan]
    split_ifs
    · exact finish_pos hlid hpart hpos
    · cases hscan : scanLid o ports g2l used tbl lid with
      | none =>
        refine ih (Nat.le_succ_of_le hlid) ?_ hpos
        rintro r hr
        obtain rfl := Option.some.inj hr
        cases part with
        | none => exact hlid
        | some r => exact hpart r rfl
      | some last =>
        refine ih (Nat.succ_pos last) (by simp) fun r hr => ?_
        rcases List.mem_append.mp hr with hr | hr
        · exact hpos r hr
        · exact hpart r (Option.mem_toList.mp hr)

lemma cleanEntry_aligned (st : Db × (ℕ → Bool)) (i : Fin k) :
    (∀ r, (cleanEntry o ports st i).1 (ports i).guid = some r → numLids o (ports i) ≠ 1 → 2 ^ o.lmc ∣ r.1) ∧
      ∀ g r, (cleanEntry o ports st i).1 g = some r → st.1 g = some r := by
  rw [cleanEntry]
  cases hdb : st.1 (ports i).guid with
  | none =>
    refine ⟨fun r hr => ?_, fun g r hr => hr⟩
    rw [hdb] at hr
    cases hr
  | some r₀ =>
    obtain ⟨dbMin, dbMax⟩ := r₀
    dsimp only
    split_ifs with hbad
    · refine ⟨fun r hr => by simp at hr, fun g r hr => ?_⟩
      by_cases hg : g = (ports i).guid
      · simp [hg] at hr
      · simpa [Function.update_of_ne hg] using hr
    · refine ⟨fun r hr hone => ?_, fun g r hr => hr⟩
      obtain rfl := Option.some.inj (hdb.symm.trans hr)
      rw [not_and, not_or, not_not] at hbad
      exact Nat.dvd_of_mod_eq_zero (hbad hone).1

lemma aligned_initSweep (hmax : o.maxUcastLidHo ≤ ucastEnd) (guids : List ℕ) (file : Db) (st : Db × (ℕ → Bool)) :
    Aligned o ports (initSweep o ports guids file st) := by
  have hsorted := (@initSweep_ranges k o ports hmax guids file st).1
  rw [initSweep] at hsorted ⊢
  dsimp only at hsorted ⊢
  split_ifs at hsorted ⊢ with hre
  · refine ⟨hsorted, fun r hr => ?_, fun i r hr => ?_⟩
    · rw [List.mem_singleton.mp hr]
    · simp [sweepDb, hre] at hr
  · have hclean := Lib.Folds.foldl_handled (cleanEntry o ports)
      (fun done st => ∀ i ∈ done, ∀ r, st.1 (ports i).guid = some r → numLids o (ports i) ≠ 1 → 2 ^ o.lmc ∣ r.1)
      (List.finRange k) (sweepDb o guids file st) (by simp) (by
        intro done i rest st _ hdone j hj r hr
        obtain ⟨hi, hold⟩ := @cleanEntry_aligned k o ports st i
        rcases List.mem_append.mp hj with hj | hj
        · exact hdone j hj r (hold _ r hr)
        · obtain rfl := List.mem_singleton.mp hj
          exact hi r hr)
    exact ⟨hsorted, scan_pos _ _ _ _ le_rfl (by simp) (by simp), fun i => hclean i (List.mem_finRange i)⟩

end Init

/-- In a sweep all LIDs that are given out can be forwarded by every switch, and are aligned, exactly if at each
call the database entry, the discovered LIDs or some free range, whichever the call takes, has them within the
bound. -/
theorem getPortLids_forwardable (hg : Function.Injective fun i => (ports i).guid) (o : Opts) (linCaps : List ℕ)
    (guids : List ℕ) (file : Db) (st : Db × (ℕ → Bool)) (is : List (Fin k)) :
    (∀ x ∈ (getPortLids (o.discover linCaps) ports is (initSweep (o.discover linCaps) ports guids file st)).1,
      Fits (o.discover linCaps) (lidBound linCaps) x.2) ↔
    RunFits (o.discover linCaps) ports (lidBound linCaps) is
        (initSweep (o.discover linCaps) ports guids file st) :=
  getPortLids_fits hg is (aligned_initSweep (discover_le linCaps) guids file st)

def freshOpts : Opts := ⟨1, true, true, false, false, ucastEnd⟩

def freshPorts : Fin 2 → Port
  | 0 => ⟨1, 0, 0, true⟩
  | 1 => ⟨2, 0, 0, false⟩

/-- One switch with room for LIDs up to 3. -/
theorem getPortLids_forwardable_fresh :
    (getPortLids (freshOpts.discover [4]) freshPorts [1, 0]
      (initSweep (freshOpts.discover [4]) freshPorts [] (fun _ => none) (fun _ => none, fun _ => false))).1 =
        [(1, (1, 1)), (0, (2, 3))] ∧
    ∀ x ∈ (getPortLids (freshOpts.discover [4]) freshPorts [1, 0]
      (initSweep (freshOpts.discover [4]) freshPorts [] (fun _ => none) (fun _ => none, fun _ => false))).1,
      Fits (freshOpts.discover [4]) (lidBound [4]) x.2 := by
  refine ⟨by decide, (getPortLids_forwardable (by decide) freshOpts [4] [] _ _ [1, 0]).mpr ⟨?_, ?_, trivial⟩⟩
  · exact ⟨nofun, nofun, fun _ => ⟨(1, 4), by decide, by decide⟩⟩
  · exact ⟨nofun, nofun, fun _ => ⟨(2, 4), by decide, by decide⟩⟩

/-- With room for LIDs up to 2 only, LID 3 is given out as well. -/
theorem getPortLids_beyond :
    (getPortLids (freshOpts.discover [3]) freshPorts [1, 0]
      (initSweep (freshOpts.discover [3]) freshPorts [] (fun _ => none) (fun _ => none, fun _ => false))).1 =
        [(1, (1, 1)), (0, (2, 3))] ∧
    ¬∀ x ∈ (getPortLids (freshOpts.discover [3]) freshPorts [1, 0]
      (initSweep (freshOpts.discover [3]) freshPorts [] (fun _ => none) (fun _ => none, fun _ => false))).1,
      Fits (freshOpts.discover [3]) (lidBound [3]) x.2 := by
  have hrun : (getPortLids (freshOpts.discover [3]) freshPorts [1, 0]
      (initSweep (freshOpts.discover [3]) freshPorts [] (fun _ => none) (fun _ => none, fun _ => false))).1 =
        [(1, (1, 1)), (0, (2, 3))] := by decide
  refine ⟨hrun, fun h => ?_⟩
  have hbound := (h (0, (2, 3)) (by rw [hrun]; simp)).bound
  exact absurd hbound (by decide)

end OpenSM.LidMgr
