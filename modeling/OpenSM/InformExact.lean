import OpenSM.InformReport

/-! Who gets the reports, compared with who is entitled to them. -/

namespace OpenSM.Inform

open Pkey

variable {o : ByteOrder} {P : Type} {S : Subn o P} {ntc : Notice} {infr : Infr} {dest : P} {gid : Gid}

section Answers

lemma matchNotice_iff {ii : InformInfo} : matchNotice ntc ii = true ↔ Matches ntc ii := by
  have hzero : (ii.gid.subnetPrefix ≠ 0 ∨ ii.gid.interfaceId ≠ 0) ↔ ii.gid ≠ ⟨0, 0⟩ := by
    obtain ⟨a, b⟩ := ii.gid
    simp only [ne_eq, Gid.mk.injEq, not_and_or]
  have hgid : (if ii.gid.subnetPrefix ≠ 0 ∨ ii.gid.interfaceId ≠ 0 then ii.gid == ntc.issuerGid
      else if ii.lidRangeBegin ≠ 0xFFFF then !(ii.lidRangeBegin > ntc.issuerLid || ntc.issuerLid > ii.lidRangeEnd)
      else true) = true ↔ (ii.gid ≠ ⟨0, 0⟩ → ii.gid = ntc.issuerGid) ∧
          (ii.gid = ⟨0, 0⟩ → ii.lidRangeBegin ≠ 0xFFFF →
        ii.lidRangeBegin ≤ ntc.issuerLid ∧ ntc.issuerLid ≤ ii.lidRangeEnd) := by
    simp only [hzero]
    by_cases h : ii.gid = ⟨0, 0⟩
    · rw [if_neg (not_not_intro h)]
      split_ifs with hbegin
      · simp [h, hbegin]
      · simp only [h, hbegin, true_iff]
        exact ⟨fun hne => (hne rfl).elim, fun _ hf => hf.elim⟩
    · rw [if_pos h]
      simp [h]
  have hkind : (!((ii.isGeneric != 0 && !ntc.isGeneric) || (ii.isGeneric == 0 && ntc.isGeneric))) = true ↔
      (ii.isGeneric ≠ 0 ↔ ntc.isGeneric = true) := by
    by_cases h : ii.isGeneric = 0 <;> cases ntc.isGeneric <;> simp [h]
  rw [matchNotice, ite_self, Bool.and_eq_true, Bool.and_eq_true, Bool.and_eq_true, Bool.and_eq_true, hgid, hkind]
  simp only [Bool.not_eq_true', Bool.and_eq_false_imp, bne_iff_ne, bne_eq_false_iff_eq]
  constructor
  · rintro ⟨⟨⟨⟨hg, hl⟩, hk⟩, ht⟩, hn, hp⟩
    exact ⟨hg, hl, hk, ht, hn, hp⟩
  · rintro ⟨hg, hl, hk, ht, hn, hp⟩
    exact ⟨⟨⟨⟨hg, hl⟩, hk⟩, ht⟩, hn, hp⟩

lemma physpHasPkey_inGroup : (∃ pkey, S.mgrpByMgid gid = some pkey ∧ physpHasPkey S.pkeyTbl pkey dest = true) ↔
    InGroup S gid dest ∧ ¬ Overlooked S gid dest := by
  simp only [physpHasPkey_iff, InGroup, Overlooked]
  constructor
  · rintro ⟨pkey, hg, hhas, hfull⟩
    refine ⟨⟨pkey, hg, hhas⟩, ?_⟩
    rintro ⟨pkey', hg', hfull'⟩
    rw [hg] at hg'
    exact hfull (Option.some.inj hg' ▸ hfull')
  · rintro ⟨⟨pkey, hg, hhas⟩, hover⟩
    exact ⟨pkey, hg, hhas, fun hfull => hover ⟨pkey, hg, hfull⟩⟩

variable [DecidableEq P]

lemma isAccessPermitted_none (hd : S.portByLid infr.destLid = none) : isAccessPermitted S ntc infr = .denied := by
  rw [isAccessPermitted, hd]

lemma isAccessPermitted_group (hd : S.portByLid infr.destLid = some dest) (hn : ntc.num = 66 ∨ ntc.num = 67) :
    (isAccessPermitted S ntc infr = .permitted ↔ InGroup S ntc.detailsGid dest ∧
        ¬ Overlooked S ntc.detailsGid dest) ∧
      isAccessPermitted S ntc infr ≠ .removed := by
  have hgid : sourceGid ntc = ntc.detailsGid := if_pos (by obtain h | h := hn <;> rw [h] <;> decide)
  rw [← physpHasPkey_inGroup]
  simp only [isAccessPermitted, hgid, hd, if_pos hn]
  cases hg : S.mgrpByMgid ntc.detailsGid with
  | none => simp
  | some pkey => by_cases h : physpHasPkey S.pkeyTbl pkey dest = true <;> simp [h]

lemma isAccessPermitted_share (hd : S.portByLid infr.destLid = some dest) (hn : ¬ (ntc.num = 66 ∨ ntc.num = 67)) :
    (isAccessPermitted S ntc infr = .permitted ↔ Shares S (sourceGid ntc) dest) ∧
      (isAccessPermitted S ntc infr = .removed ↔ Fails S (sourceGid ntc) dest ∧
          infr.info.lidRangeBegin ≠ 0xFFFF) := by
  rw [Shares, Fails]
  simp only [isAccessPermitted, hd, if_neg hn]
  cases hg : S.portByGuid (sourceGid ntc).interfaceId with
  | none => simp
  | some src =>
    simp only [Option.some.injEq, exists_eq_left', ← physpSharePkey_iff]
    split_ifs with hshare hrange <;> simp_all

end Answers

section Walk

variable [DecidableEq P]

def sends (S : Subn o P) (ntc : Notice) (infr : Infr) : Bool :=
  matchNotice ntc infr.info && isAccessPermitted S ntc infr == .permitted

def drops (S : Subn o P) (ntc : Notice) (infr : Infr) : Bool :=
  matchNotice ntc infr.info && isAccessPermitted S ntc infr == .removed

lemma sends_iff : sends S ntc infr = true ↔ Matches ntc infr.info ∧ isAccessPermitted S ntc infr = .permitted := by
  rw [sends, Bool.and_eq_true, matchNotice_iff, beq_iff_eq]

lemma drops_iff : drops S ntc infr = true ↔ Matches ntc infr.info ∧ isAccessPermitted S ntc infr = .removed := by
  rw [drops, Bool.and_eq_true, matchNotice_iff, beq_iff_eq]

lemma matchNoticeToInfRec_eq (ctx : MatchCtxt) : matchNoticeToInfRec S ntc ctx infr =
    ⟨ctx.sent ++ [infr].filter (sends S ntc), ctx.toRemove ++ [infr].filter (drops S ntc)⟩ := by
  rw [matchNoticeToInfRec]
  cases hm : matchNotice ntc infr.info with
  | false => simp [sends, drops, hm]
  | true => cases ha : isAccessPermitted S ntc infr <;> simp [sends, drops, hm, ha]

lemma foldl_matchNotice (l : List Infr) (ctx : MatchCtxt) : l.foldl (matchNoticeToInfRec S ntc) ctx =
    ⟨ctx.sent ++ l.filter (sends S ntc), ctx.toRemove ++ l.filter (drops S ntc)⟩ := by
  induction l generalizing ctx with
  | nil => rw [List.foldl_nil, List.filter_nil, List.filter_nil, List.append_nil, List.append_nil]
  | cons infr l ih =>
    rw [List.foldl_cons, matchNoticeToInfRec_eq, ih, List.append_assoc, List.append_assoc, ← List.filter_append,
      ← List.filter_append]
    rfl

lemma foldl_erase_cons {α : Type} [DecidableEq α] {p : α → Bool} {a : α} (ha : p a = false) (l xs : List α) :
    (xs.filter p).foldl List.erase (a :: l) = a :: (xs.filter p).foldl List.erase l := by
  induction xs generalizing l with
  | nil => rfl
  | cons x xs ih =>
    cases hx : p x with
    | false => rw [List.filter_cons_of_neg (by rw [hx]; exact Bool.false_ne_true), ih]
    | true =>
      have hne : a ≠ x := by
        rintro rfl
        rw [hx] at ha
        cases ha
      rw [List.filter_cons_of_pos hx, List.foldl_cons, List.foldl_cons,
          List.erase_cons_tail (beq_iff_eq.not.mpr hne), ih]

lemma foldl_erase_filter {α : Type} [DecidableEq α] (p : α → Bool) (l : List α) :
    (l.filter p).foldl List.erase l = l.filter fun a => !p a := by
  induction l with
  | nil => rfl
  | cons a l ih =>
    cases ha : p a with
    | true =>
      rw [List.filter_cons_of_pos ha, List.foldl_cons, List.erase_cons_head, ih, List.filter_cons_of_neg]
      rw [ha]
      exact Bool.false_ne_true
    | false =>
      rw [List.filter_cons_of_neg (by rw [ha]; exact Bool.false_ne_true), foldl_erase_cons ha, ih,
        List.filter_cons_of_pos]
      rw [ha]
      rfl

lemma reportNotice_eq (l : List Infr) :
    reportNotice S ntc l = (l.filter (sends S ntc), l.filter fun infr => !drops S ntc infr) := by
  rw [reportNotice]
  simp only [foldl_matchNotice, List.nil_append, foldl_erase_filter]

end Walk

section Rules

lemma entitled_iff (hd : S.portByLid infr.destLid = some dest) : Entitled S ntc infr ↔
    if OfGroup ntc then InGroup S ntc.detailsGid dest else Shares S (portGid ntc) dest := by
  rw [Entitled, hd]
  simp

lemma ends_iff (hd : S.portByLid infr.destLid = some dest) : Ends S ntc infr ↔
    ¬ OfGroup ntc ∧ Fails S (portGid ntc) dest ∧ infr.info.lidRangeBegin ≠ 0xFFFF := by
  rw [Ends, hd]
  simp

lemma Overlooked.inGroup (h : Overlooked S gid dest) : InGroup S gid dest := by
  obtain ⟨pkey, hg, -, -, hfull, -⟩ := h
  exact ⟨pkey, hg, .inr ⟨_, hfull, getBase_fullForm⟩⟩

lemma sourceGid_of_port (hn : ntc.num = 64 ∨ ntc.num = 65) : sourceGid ntc = ntc.detailsGid :=
  if_pos (by obtain h | h := hn <;> rw [h] <;> decide)

lemma sourceGid_of_not (hport : ¬ (ntc.num = 64 ∨ ntc.num = 65)) (hgroup : ¬ (ntc.num = 66 ∨ ntc.num = 67)) :
    sourceGid ntc = ntc.issuerGid := by
  rw [sourceGid, if_neg]
  simp only [← UInt16.toNat_inj, UInt16.le_iff_toNat_le, UInt16.reduceToNat] at hport hgroup ⊢
  omega

variable [DecidableEq P]

/-- The answer for a matching subscription is the one of the rules. -/
def Right (S : Subn o P) (ntc : Notice) (infr : Infr) : Prop :=
  (isAccessPermitted S ntc infr = .permitted ↔ Entitled S ntc infr) ∧
    (isAccessPermitted S ntc infr = .removed ↔ Ends S ntc infr)

lemma right_of_none (hd : S.portByLid infr.destLid = none) : Right S ntc infr := by
  have hno : ∀ dest, S.portByLid infr.destLid ≠ some dest := fun dest h => by
    rw [hd] at h
    exact Option.some_ne_none dest h.symm
  rw [Right, isAccessPermitted_none hd]
  refine ⟨iff_of_false (fun h => by cases h) ?_, iff_of_false (fun h => by cases h) ?_⟩
  · rintro ⟨dest, h, -⟩
    exact hno dest h
  · rintro ⟨dest, h, -⟩
    exact hno dest h

lemma right_generic (hd : S.portByLid infr.destLid = some dest) (hgen : ntc.isGeneric = true) :
    Right S ntc infr ↔ (OfGroup ntc → ¬ Overlooked S ntc.detailsGid dest) := by
  rw [Right, entitled_iff hd, ends_iff hd]
  by_cases hgroup : ntc.num = 66 ∨ ntc.num = 67
  · obtain ⟨hperm, hrem⟩ := isAccessPermitted_group hd hgroup
    have hof : OfGroup ntc := ⟨hgen, hgroup⟩
    rw [hperm, if_pos hof, iff_false_intro hrem]
    constructor
    · rintro ⟨hiff, -⟩ - hover
      exact (hiff.mpr hover.inGroup).2 hover
    · intro hnot
      exact ⟨and_iff_left (hnot hof), iff_of_false id fun h => h.1 hof⟩
  · obtain ⟨hperm, hrem⟩ := isAccessPermitted_share hd hgroup
    have hof : ¬ OfGroup ntc := fun h => hgroup h.2
    have hgid : sourceGid ntc = portGid ntc := by
      by_cases hport : ntc.num = 64 ∨ ntc.num = 65
      · rw [sourceGid_of_port hport, portGid, if_pos ⟨hgen, hport⟩]
      · rw [sourceGid_of_not hport hgroup, portGid, if_neg fun h => hport h.2]
    rw [hperm, hrem, hgid, if_neg hof]
    exact iff_of_true ⟨Iff.rfl, (and_iff_right hof).symm⟩ fun h => (hof h).elim

lemma right_vendor (hd : S.portByLid infr.destLid = some dest) (hgen : ntc.isGeneric = false) :
    Right S ntc infr ↔
      (ntc.num = 64 ∨ ntc.num = 65 → (Shares S ntc.detailsGid dest ↔ Shares S ntc.issuerGid dest) ∧
        (infr.info.lidRangeBegin ≠ 0xFFFF → (Fails S ntc.detailsGid dest ↔ Fails S ntc.issuerGid dest))) ∧
      (ntc.num = 66 ∨ ntc.num = 67 →
        (InGroup S ntc.detailsGid dest ∧ ¬ Overlooked S ntc.detailsGid dest ↔ Shares S ntc.issuerGid dest) ∧
        (infr.info.lidRangeBegin ≠ 0xFFFF → ¬ Fails S ntc.issuerGid dest)) := by
  have hof : ¬ OfGroup ntc := fun h => by
    rw [OfGroup, hgen] at h
    cases h.1
  have hgid : portGid ntc = ntc.issuerGid := if_neg fun h => by
    rw [OfPort, hgen] at h
    cases h.1
  rw [Right, entitled_iff hd, ends_iff hd, if_neg hof, hgid, and_iff_right hof]
  by_cases hgroup : ntc.num = 66 ∨ ntc.num = 67
  · obtain ⟨hperm, hrem⟩ := isAccessPermitted_group hd hgroup
    have hport : ¬ (ntc.num = 64 ∨ ntc.num = 65) := by
      obtain h | h := hgroup <;> rw [h] <;> decide
    rw [hperm, iff_false_intro hrem, and_iff_right fun h => (hport h).elim, imp_iff_right hgroup]
    tauto
  · obtain ⟨hperm, hrem⟩ := isAccessPermitted_share hd hgroup
    rw [hperm, hrem, and_iff_left fun h => (hgroup h).elim]
    by_cases hport : ntc.num = 64 ∨ ntc.num = 65
    · rw [sourceGid_of_port hport, imp_iff_right hport, and_congr_left_iff]
    · rw [sourceGid_of_not hport hgroup]
      exact iff_of_true ⟨Iff.rfl, Iff.rfl⟩ fun h => (hport h).elim

lemma right_iff_agrees (hd : S.portByLid infr.destLid = some dest) : Right S ntc infr ↔
    Agrees S ntc infr dest := by
  rw [Agrees]
  cases hgen : ntc.isGeneric with
  | true => exact right_generic hd hgen
  | false => exact right_vendor hd hgen

end Rules

section Run

variable [DecidableEq P]

lemma filter_perm_iff {α : Type} {p q : α → Bool} {l : List α} :
    (l.filter p).Perm (l.filter q) ↔ ∀ a ∈ l, p a = q a := by
  constructor
  · intro h a ha
    have hmem := h.mem_iff (a := a)
    rw [List.mem_filter, List.mem_filter, and_iff_right ha, and_iff_right ha] at hmem
    exact Bool.eq_iff_iff.mpr hmem
  · exact fun h => List.filter_congr h ▸ List.Perm.refl _

lemma filter_eq_iff {α : Type} {p q : α → Bool} {l : List α} : l.filter p = l.filter q ↔ ∀ a ∈ l, p a = q a :=
  ⟨fun h => filter_perm_iff.mp (h ▸ List.Perm.refl _), List.filter_congr⟩

open scoped Classical in
lemma exact_iff_right (c : Call o P) (l : List Infr) :
    Exact c l ↔ ∀ infr ∈ l, Matches c.ntc infr.info → Right c.subn c.ntc infr := by
  have hdec : ∀ (b : Bool) (prop : Prop) [Decidable prop], b = decide prop ↔ (b = true ↔ prop) :=
      fun b prop _ => by
    rw [Bool.eq_iff_iff, decide_eq_true_iff]
  rw [Exact, reportNotice_eq, filter_perm_iff, filter_eq_iff, ← forall₂_and]
  refine forall₂_congr fun infr _ => ?_
  rw [decide_not, Bool.not_inj_iff, hdec, hdec, sends_iff, drops_iff, and_congr_right_iff,
      and_congr_right_iff, ← imp_and]
  exact Iff.rfl

lemma exact_iff_agree (c : Call o P) (l : List Infr) : Exact c l ↔ AllAgree c l := by
  rw [exact_iff_right, AllAgree]
  refine forall₃_congr fun infr _ _ => ?_
  constructor
  · exact fun h dest hd => (right_iff_agrees hd).mp h
  · intro h
    cases hd : c.subn.portByLid infr.destLid with
    | none => exact right_of_none hd
    | some dest => exact (right_iff_agrees hd).mpr (h dest hd)

/-- In a sequence of notices each call does what it should exactly if in each the matching subscriptions agree. -/
theorem reports_exact (l : List Infr) (calls : List (Call o P)) :
    Throughout Exact l calls ↔ Throughout AllAgree l calls := by
  induction calls generalizing l with
  | nil => exact Iff.rfl
  | cons c calls ih =>
    rw [Throughout, Throughout, exact_iff_agree, ih]

def onePort : Subn .little Unit := ⟨fun _ => some (), fun _ => some (), fun _ => none, false,
    fun _ => ⟨.init, [], rfl⟩⟩

def allVendor : Infr := ⟨⟨⟨0, 0⟩, 0xFFFF, 0, 0, 0xFFFF, 0xFFFF, 0xFF, 0xFFFF⟩, 1⟩

def device66 : Notice := ⟨2, 0, 1, 66, 1, ⟨0, 1⟩, ⟨0, 0⟩⟩

/-- The device ID is taken for the number of a group's trap, and the report is not sent. -/
theorem vendor_not_reported : Matches device66 allVendor.info ∧ Entitled onePort device66 allVendor ∧
    ¬ Throughout Exact [allVendor] [⟨onePort, device66⟩] := by
  have hmatch : Matches device66 allVendor.info := matchNotice_iff.mp (by decide)
  have hent : Entitled onePort device66 allVendor := ⟨(), rfl, (), rfl, .inl rfl⟩
  refine ⟨hmatch, hent, fun hexact => ?_⟩
  have hright := (exact_iff_right ⟨onePort, device66⟩ _).mp hexact.1 allVendor (List.mem_singleton_self _) hmatch
  have hdenied : isAccessPermitted onePort device66 allVendor = .denied := by decide
  have hpermitted := hright.1.mpr hent
  rw [hdenied] at hpermitted
  cases hpermitted

end Run

end OpenSM.Inform
