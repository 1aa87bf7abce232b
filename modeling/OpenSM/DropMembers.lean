import OpenSM.DropMgr

/-! The group memberships of a port that is removed. -/

namespace OpenSM.DropMgr

open Lib Multicast

def Tidy (d : Subn) (m : Mgid) : Prop :=
  match d.mgrpMgidTbl.get m with
  | some g => ∃ owner, Placed owner d m g
  | none => (∀ p, m ∉ d.mcmList p) ∧ ∀ i, m ∉ d.mboxes i

def Joined (d : Subn) (m : Mgid) (guid p : Guid) : Prop :=
  ∃ g a, d.mgrpMgidTbl.get m = some g ∧ g.mcmAliasPortTbl.get guid = some a ∧ a.port = p

variable {d d' : Subn} {m : Mgid} {g : Mgrp} {guid p q : Guid} {a : Alias} {owner : Guid → Guid}

lemma Tidy.of_placed (hg : d.mgrpMgidTbl.get m = some g) (h : Placed owner d m g) : Tidy d m := by
  rw [Tidy, hg]
  exact ⟨owner, h⟩

lemma Tidy.placed (h : Tidy d m) (hg : d.mgrpMgidTbl.get m = some g) : ∃ owner, Placed owner d m g := by
  rwa [Tidy, hg] at h

lemma Tidy.of_kept {r : Recorded} (h : Kept owner d m r) : Tidy d m := by
  cases hg : d.mgrpMgidTbl.get m with
  | none =>
    rw [Tidy, hg]
    exact ⟨(h.closed hg).mcmList, (h.closed hg).boxes⟩
  | some g => exact Tidy.of_placed hg (h.books hg).toPlaced

lemma Tidy.elsewhere {m' : Mgid} (h : Tidy d m') (he : Elsewhere d d' m) (hm : m' ≠ m) : Tidy d' m' := by
  rw [Tidy] at h ⊢
  rw [he.mgrp m' hm]
  cases hg : d.mgrpMgidTbl.get m' with
  | none =>
    rw [hg] at h
    refine ⟨fun p => ?_, fun i => ?_⟩
    · rw [← List.count_eq_zero, he.mcmList m' hm, List.count_eq_zero]
      exact h.1 p
    · rw [← List.count_eq_zero, he.boxes m' hm, List.count_eq_zero]
      exact h.2 i
  | some g =>
    rw [hg] at h
    obtain ⟨owner, h⟩ := h
    exact ⟨owner, { h with
      mcmList := fun p => (he.mcmList m' hm p).trans (h.mcmList p)
      boxes := fun i => (he.boxes m' hm i).trans (h.boxes i) }⟩

lemma Joined.elsewhere {m' : Mgid} (he : Elsewhere d d' m) (hm : m' ≠ m) : Joined d' m' guid q ↔
    Joined d m' guid q := by
  simp only [Joined, he.mgrp m' hm]

/-- One alias GUID leaves with all its bits: its entry goes, and the rest of the group goes with it or stays. -/
lemma mgrpRemovePort_tidy (hg : d.mgrpMgidTbl.get m = some g) (h : Tidy d m)
    (ha : g.mcmAliasPortTbl.get guid = some a) :
    Tidy (mgrpRemovePort d m g guid a 15).1 m ∧ ∀ g',
        (mgrpRemovePort d m g guid a 15).1.mgrpMgidTbl.get m = some g' →
      g'.mcmAliasPortTbl = ∅ ∨ (mgrpRemovePort d m g guid a 15).2 = false ∧
        g'.mcmAliasPortTbl = g.mcmAliasPortTbl.remove guid := by
  obtain ⟨owner, hp⟩ := h.placed hg
  have hnew : joinStateOf a &&& ~~~15 = 0 := by
    generalize joinStateOf a = s
    revert s
    decide
  have hplaced := mgrpUpdateAlias_placed hp ha 0
  have htbl : (mgrpUpdateAlias d m g guid a 0).2.mcmAliasPortTbl = g.mcmAliasPortTbl.remove guid := by
    rw [mgrpUpdateAlias_tbl, if_neg (by simp [keepsEntry])]
  have hget : (mgrpUpdateAlias d m g guid a 0).1.mgrpMgidTbl.get m = some g := by
    rw [get_mgrpUpdateAlias, hg]
  simp only [mgrpRemovePort, hnew]
  generalize mgrpUpdateAlias d m g guid a 0 = u at hplaced htbl hget ⊢
  have hset : ∀ n, Placed owner (setMgrp u.1 m { u.2 with fullMembers := n }) m { u.2 with fullMembers := n } :=
    fun n => ⟨hplaced.owned, hplaced.ports, hplaced.mcmList, hplaced.boxes⟩
  split_ifs with hdec hlast
  · have hkept := mgrpCleanup_kept (get_setMgrp hget) (hset _) hlast
    refine ⟨Tidy.of_kept hkept, fun g' hg' => Or.inl ?_⟩
    have hb := hkept.books hg'
    exact Qmap.ext_get fun k => by
      have hk := hb.get_eq k
      simpa using hk
  · refine ⟨Tidy.of_placed (get_setMgrp hget) (hset _), fun g' hg' => Or.inr ⟨rfl, ?_⟩⟩
    obtain rfl := Option.some.inj ((get_setMgrp hget).symm.trans hg')
    exact htbl
  · refine ⟨Tidy.of_placed (get_setMgrp hget) (hset u.2.fullMembers), fun g' hg' => Or.inr ⟨rfl, ?_⟩⟩
    obtain rfl := Option.some.inj ((get_setMgrp hget).symm.trans hg')
    exact htbl

lemma deletePortLoop_spec (l : List Guid) (h : Tidy d m) :
    Tidy (deletePortLoop m p l d) m ∧ ∀ guid q, Joined (deletePortLoop m p l d) m guid q →
      Joined d m guid q ∧ ¬(guid ∈ l ∧ q = p) := by
  induction l generalizing d with
  | nil => exact ⟨h, fun guid q hq => ⟨hq, fun hl => List.not_mem_nil hl.1⟩⟩
  | cons k l ih =>
    have hskip : (∀ q, Joined d m k q → q ≠ p) → (Tidy (deletePortLoop m p l d) m ∧
        ∀ guid q, Joined (deletePortLoop m p l d) m guid q → Joined d m guid q ∧ ¬(guid ∈ k :: l ∧ q = p)) := by
      intro hk
      obtain ⟨ht, hj⟩ := ih h
      refine ⟨ht, fun guid q hq => ?_⟩
      obtain ⟨hold, hl⟩ := hj guid q hq
      refine ⟨hold, ?_⟩
      rintro ⟨hmem, hqp⟩
      rcases List.mem_cons.mp hmem with rfl | hmem
      · exact hk q hold hqp
      · exact hl ⟨hmem, hqp⟩
    rw [deletePortLoop]
    split
    · next hg =>
      refine ⟨h, fun guid q hq => ?_⟩
      obtain ⟨g, -, hg', -⟩ := hq
      rw [hg] at hg'
      cases hg'
    · next g hg =>
      split
      · next ha =>
        apply hskip
        rintro q ⟨g', a, hg', ha', -⟩
        obtain rfl := Option.some.inj (hg.symm.trans hg')
        rw [ha] at ha'
        cases ha'
      · next a ha =>
        split_ifs with hap
        · obtain ⟨ht, hcases⟩ := mgrpRemovePort_tidy hg h ha
          have hleft : ∀ guid q, Joined (mgrpRemovePort d m g k a 15).1 m guid q →
              Joined d m guid q ∧ guid ≠ k := by
            rintro guid q ⟨g', b, hg', hb, hbq⟩
            rcases hcases g' hg' with hempty | ⟨-, hrem⟩
            · rw [hempty] at hb
              cases hb
            · rw [hrem, Qmap.get_remove] at hb
              split_ifs at hb with hne
              exact ⟨⟨g, b, hg, hb, hbq⟩, hne⟩
          dsimp only
          split_ifs with hdel
          · refine ⟨ht, fun guid q hq => ?_⟩
            obtain ⟨g', b, hg', hb, -⟩ := hq
            rcases hcases g' hg' with hempty | ⟨hopen, -⟩
            · rw [hempty] at hb
              cases hb
            · exact absurd (hopen.symm.trans hdel) Bool.false_ne_true
          · obtain ⟨ht', hj⟩ := ih ht
            refine ⟨ht', fun guid q hq => ?_⟩
            obtain ⟨hq, hl⟩ := hj guid q hq
            obtain ⟨hq, hne⟩ := hleft guid q hq
            refine ⟨hq, ?_⟩
            rintro ⟨hmem, hqp⟩
            exact (List.mem_cons.mp hmem).elim hne fun hmem => hl ⟨hmem, hqp⟩
        · apply hskip
          rintro q ⟨g', b, hg', hb, rfl⟩
          obtain rfl := Option.some.inj (hg.symm.trans hg')
          obtain rfl := Option.some.inj (ha.symm.trans hb)
          exact hap

lemma mgrpDeletePort_spec (hg : d.mgrpMgidTbl.get m = some g) (h : Tidy d m) :
    Tidy (mgrpDeletePort d m g p) m ∧
      ∀ guid q, Joined (mgrpDeletePort d m g p) m guid q → Joined d m guid q ∧ q ≠ p := by
  obtain ⟨ht, hj⟩ := deletePortLoop_spec (p := p) g.mcmAliasPortTbl.keys h
  refine ⟨ht, fun guid q hq => ?_⟩
  obtain ⟨hq, hl⟩ := hj guid q hq
  refine ⟨hq, fun hqp => hl ⟨?_, hqp⟩⟩
  obtain ⟨g', a, hg', ha, -⟩ := hq
  obtain rfl := Option.some.inj (hg.symm.trans hg')
  exact Qmap.mem_keys.mpr ⟨a, ha⟩

lemma mgrpDeletePort_all (hg : d.mgrpMgidTbl.get m = some g) (h : ∀ m, Tidy d m) :
    (∀ m', Tidy (mgrpDeletePort d m g p) m') ∧
      (∀ m' guid q, Joined (mgrpDeletePort d m g p) m' guid q → Joined d m' guid q ∧ (m' = m → q ≠ p)) ∧
      ∀ m', m' ≠ m → ∀ q, ((mgrpDeletePort d m g p).mcmList q).count m' = (d.mcmList q).count m' := by
  have he : Elsewhere d (mgrpDeletePort d m g p) m := elsewhere_deletePortLoop m p _ d
  obtain ⟨ht, hj⟩ := mgrpDeletePort_spec (p := p) hg (h m)
  refine ⟨fun m' => ?_, fun m' guid q hq => ?_, he.mcmList⟩
  · by_cases hm : m' = m
    · exact hm ▸ ht
    · exact (h m').elsewhere he hm
  · by_cases hm : m' = m
    · subst hm
      exact ⟨(hj guid q hq).1, fun _ => (hj guid q hq).2⟩
    · exact ⟨(Joined.elsewhere he hm).mp hq, fun hm' => absurd hm' hm⟩

lemma Tidy.count_mcmList (h : Tidy d m) :
    (d.mcmList p).count m ≤ 1 ∧ (m ∈ d.mcmList p ↔ ∃ guid, Joined d m guid p) := by
  cases hg : d.mgrpMgidTbl.get m with
  | none =>
    rw [Tidy, hg] at h
    rw [List.count_eq_zero.mpr (h.1 p)]
    refine ⟨Nat.zero_le _, iff_of_false (h.1 p) ?_⟩
    rintro ⟨guid, g, a, hg', -⟩
    exact absurd (hg.symm.trans hg') nofun
  | some g =>
    obtain ⟨owner, hp⟩ := h.placed hg
    have hleft : aliasLeft g.mcmAliasPortTbl p = true ↔ ∃ guid, Joined d m guid p := by
      rw [aliasLeft_iff]
      constructor
      · rintro ⟨guid, a, ha, hap⟩
        exact ⟨guid, g, a, hg, ha, hap⟩
      · rintro ⟨guid, g', a, hg', ha, hap⟩
        obtain rfl := Option.some.inj (hg.symm.trans hg')
        exact ⟨guid, a, ha, hap⟩
    rw [← hleft, ← List.count_pos_iff, hp.mcmList p]
    split_ifs with hl <;> simp [hl]

/-- The loop over the list of the port comes to its end, and the port has left all groups. -/
lemma deleteGroups_spec (n : ℕ) (h : ∀ m, Tidy d m) (hn : (d.mcmList p).length ≤ n) :
    (∀ m, Tidy (deleteGroups p n d) m) ∧
      ∀ m guid q, Joined (deleteGroups p n d) m guid q → Joined d m guid q ∧ q ≠ p := by
  induction n generalizing d with
  | zero =>
    have hnil : d.mcmList p = [] := List.eq_nil_of_length_eq_zero (Nat.le_zero.mp hn)
    refine ⟨h, fun m guid q hq => ⟨hq, ?_⟩⟩
    rintro rfl
    have hmem := (h m).count_mcmList.2.mpr ⟨guid, hq⟩
    rw [hnil] at hmem
    exact List.not_mem_nil hmem
  | succ n ih =>
    rw [deleteGroups]
    cases hl : d.mcmList p with
    | nil =>
      refine ⟨h, fun m guid q hq => ⟨hq, ?_⟩⟩
      rintro rfl
      have hmem := (h m).count_mcmList.2.mpr ⟨guid, hq⟩
      rw [hl] at hmem
      exact List.not_mem_nil hmem
    | cons m l =>
      obtain ⟨guid, g, a, hg, ha, hap⟩ := (h m).count_mcmList.2.mp (hl ▸ List.mem_cons_self)
      obtain ⟨ht, hj, hcount⟩ := mgrpDeletePort_all (p := p) hg h
      simp only [hg]
      have hnot : m ∉ (mgrpDeletePort d m g p).mcmList p := by
        rw [(ht m).count_mcmList.2]
        rintro ⟨guid, hq⟩
        exact (hj m guid p hq).2 rfl rfl
      have hsub : ((mgrpDeletePort d m g p).mcmList p).Subperm l := by
        rw [List.subperm_ext_iff]
        intro m' hm'
        have hne : m' ≠ m := fun he => hnot (he ▸ hm')
        rw [hcount m' hne p, hl, List.count_cons_of_ne (Ne.symm hne)]
      have hlen : ((mgrpDeletePort d m g p).mcmList p).length ≤ n := by
        have hle := hsub.length_le
        rw [hl, List.length_cons] at hn
        omega
      obtain ⟨ht', hj'⟩ := ih ht hlen
      refine ⟨ht', fun m' guid q hq => ?_⟩
      obtain ⟨hq, hne⟩ := hj' m' guid q hq
      exact ⟨(hj m' guid q hq).1, hne⟩

end OpenSM.DropMgr
