import Mathlib

/-! `state_mgr_check_tbl_consistency`: the LID table of the subnet against the LIDs that the ports have. -/

namespace OpenSM.TblConsistency

variable {k : ℕ}

/-- The base LID and the LMC in the PortInfo of a port. -/
structure PortLids where
  baseLid : ℕ
  lmc : ℕ
  deriving DecidableEq

def lidRangeHo (pi : PortLids) : ℕ × ℕ := (pi.baseLid, (pi.baseLid + 2 ^ pi.lmc - 1) % 2 ^ 16)

/-- The LIDs of the loop over a range; the counter of 16 bits never passes a maximum of 65535. -/
def lidLoop (range : ℕ × ℕ) : Option (List ℕ) :=
  if range.2 = 65535 then none else some (List.range' range.1 (range.2 + 1 - range.1))

abbrev LidTbl (k : ℕ) := List (Option (Fin k))

def vectorAt (tbl : LidTbl k) (lid : ℕ) : Option (Fin k) := tbl[lid]?.join

def vectorSet (tbl : LidTbl k) (lid : ℕ) (port : Option (Fin k)) : LidTbl k :=
  if lid < tbl.length then tbl.set lid port else tbl ++ List.replicate (lid - tbl.length) none ++ [port]

def addPort (pi : Fin k → PortLids) (ref : LidTbl k) (p : Fin k) : Option (LidTbl k) :=
  (lidLoop (lidRangeHo (pi p))).map fun lids => lids.foldl (fun ref lid => vectorSet ref lid (some p)) ref

/-- `ref_port_lid_tbl`, filled in the order of the port GUIDs. -/
def refPortLidTbl (pi : Fin k → PortLids) (size : ℕ) : Option (LidTbl k) :=
  (List.finRange k).foldlM (addPort pi) (List.replicate size none)

structure St (k : ℕ) where
  pi : Fin k → PortLids
  /-- `lid` of each `osm_port_t`. -/
  lid : Fin k → ℕ
  portLidTbl : LidTbl k
  subnetInitializationError : Bool
  dirty : Bool

def St.clearBaseLid (s : St k) (p : Fin k) : St k :=
  { s with lid := Function.update s.lid p 0, pi := Function.update s.pi p { s.pi p with baseLid := 0 } }

def checkLid (ref : LidTbl k) (s : St k) (lid : ℕ) : St k :=
  if vectorAt s.portLidTbl lid = vectorAt ref lid then s
  else
    match vectorAt s.portLidTbl lid with
    | some stored =>
      { s.clearBaseLid stored with
        portLidTbl := vectorSet s.portLidTbl lid none, subnetInitializationError := true }
    | none => { s with subnetInitializationError := true }

def checkTblConsistency (s : St k) : Option (St k) :=
  if s.dirty = false then some s
  else (refPortLidTbl s.pi s.portLidTbl.length).map fun ref =>
    (List.range' 1 (max ref.length s.portLidTbl.length - 1)).foldl (checkLid ref) { s with dirty := false }

section Vector

variable {tbl : LidTbl k} {i j : ℕ} {port : Option (Fin k)}

lemma vectorAt_of_le (h : tbl.length ≤ i) : vectorAt tbl i = none := by
  rw [vectorAt, List.getElem?_eq_none h]
  rfl

lemma vectorAt_append (pad : ℕ) : vectorAt (tbl ++ List.replicate pad none) j = vectorAt tbl j := by
  rcases Nat.lt_or_ge j tbl.length with h | h
  · rw [vectorAt, vectorAt, List.getElem?_append_left h]
  · rw [vectorAt_of_le h, vectorAt, List.getElem?_append_right h, List.getElem?_replicate]
    split_ifs <;> rfl

@[simp] lemma vectorAt_set : vectorAt (vectorSet tbl i port) j = if j = i then port else vectorAt tbl j := by
  rw [vectorSet]
  split_ifs with hlt hij hij
  · rw [hij, vectorAt, List.getElem?_set_self hlt]
    rfl
  · rw [vectorAt, List.getElem?_set_ne (Ne.symm hij), vectorAt]
  · have hlen : (tbl ++ List.replicate (i - tbl.length) none).length = i := by
      rw [List.length_append, List.length_replicate]
      omega
    rw [hij, vectorAt, List.getElem?_append_right hlen.le, hlen, Nat.sub_self]
    rfl
  · rcases Nat.lt_or_ge j (tbl ++ List.replicate (i - tbl.length) none).length with h | h
    · rw [vectorAt, List.getElem?_append_left h]
      exact vectorAt_append _
    · have hlen : (tbl ++ List.replicate (i - tbl.length) none).length = i := by
        rw [List.length_append, List.length_replicate]
        omega
      rw [vectorAt_of_le, vectorAt_of_le]
      · omega
      · rw [List.length_append, List.length_singleton]
        omega

end Vector

def InRange (pi : PortLids) (l : ℕ) : Prop := (lidRangeHo pi).1 ≤ l ∧ l ≤ (lidRangeHo pi).2

section Reference

variable {pi : Fin k → PortLids} {ref ref' : LidTbl k} {p q : Fin k} {l : ℕ} {ps : List (Fin k)}

lemma foldl_vectorSet (lids : List ℕ) : vectorAt (lids.foldl (fun ref lid => vectorSet ref lid (some p)) ref) l =
    if l ∈ lids then some p else vectorAt ref l := by
  induction lids generalizing ref with
  | nil => exact (if_neg List.not_mem_nil).symm
  | cons x lids ih =>
    rw [List.foldl_cons, ih, vectorAt_set]
    simp only [List.mem_cons]
    split_ifs <;> simp_all

lemma addPort_spec (h : addPort pi ref p = some ref') :
    (∀ l, InRange (pi p) l → vectorAt ref' l = some p) ∧ ∀ l, ¬InRange (pi p) l →
        vectorAt ref' l = vectorAt ref l := by
  obtain ⟨lids, hlids, rfl⟩ := Option.map_eq_some_iff.mp h
  rw [lidLoop] at hlids
  split_ifs at hlids
  obtain rfl := Option.some.inj hlids
  have hmem : ∀ l, l ∈ List.range' (lidRangeHo (pi p)).1 ((lidRangeHo (pi p)).2 + 1 - (lidRangeHo (pi p)).1) ↔
      InRange (pi p) l := by
    intro l
    rw [List.mem_range'_1, InRange]
    omega
  refine ⟨fun l hl => ?_, fun l hl => ?_⟩
  · rw [foldl_vectorSet, if_pos ((hmem l).mpr hl)]
  · rw [foldl_vectorSet, if_neg fun h => hl ((hmem l).mp h)]

lemma addPorts_spec (h : ps.foldlM (addPort pi) ref = some ref') :
    (∀ l q, vectorAt ref' l = some q → InRange (pi q) l ∨ vectorAt ref l = some q) ∧
      ∀ l, (vectorAt ref l ≠ none → vectorAt ref' l ≠ none) ∧ ∀ p ∈ ps, InRange (pi p) l →
          vectorAt ref' l ≠ none := by
  induction ps generalizing ref with
  | nil =>
    obtain rfl := Option.some.inj h
    exact ⟨fun l q hq => .inr hq, fun l => ⟨id, fun p hp => absurd hp List.not_mem_nil⟩⟩
  | cons p ps ih =>
    obtain ⟨ref₁, hp, h⟩ := Option.bind_eq_some_iff.mp h
    obtain ⟨hin, hout⟩ := addPort_spec hp
    obtain ⟨hsound, hfull⟩ := ih h
    refine ⟨fun l q hq => ?_, fun l => ⟨fun hl => (hfull l).1 ?_, fun p' hp' hl => ?_⟩⟩
    · rcases hsound l q hq with hr | hr
      · exact .inl hr
      · by_cases hl : InRange (pi p) l
        · rw [hin l hl] at hr
          exact .inl (Option.some.inj hr ▸ hl)
        · rw [hout l hl] at hr
          exact .inr hr
    · by_cases hlp : InRange (pi p) l
      · rw [hin l hlp]
        exact Option.some_ne_none p
      · rwa [hout l hlp]
    · rcases List.mem_cons.mp hp' with rfl | hp'
      · apply (hfull l).1
        rw [hin l hl]
        exact Option.some_ne_none _
      · exact (hfull l).2 p' hp' hl

lemma refPortLidTbl_spec {size : ℕ} (h : refPortLidTbl pi size = some ref) :
    (∀ l q, vectorAt ref l = some q → InRange (pi q) l) ∧ ∀ l p, InRange (pi p) l → ∃ q,
        vectorAt ref l = some q := by
  obtain ⟨hsound, hfull⟩ := addPorts_spec h
  have hblank : ∀ l, vectorAt (List.replicate size (none : Option (Fin k))) l = none := by
    intro l
    rw [vectorAt, List.getElem?_replicate]
    split_ifs <;> rfl
  refine ⟨fun l q hq => (hsound l q hq).resolve_right fun hr => ?_, fun l p hl => ?_⟩
  · rw [hblank] at hr
    cases hr
  · exact Option.ne_none_iff_exists'.mp ((hfull l).2 p (List.mem_finRange p) hl)

lemma exists_refPortLidTbl (h : ∀ p, (lidRangeHo (pi p)).2 ≠ 65535) (size : ℕ) : ∃ ref,
    refPortLidTbl pi size = some ref := by
  have hfold : ∀ (ps : List (Fin k)) ref, ∃ ref', ps.foldlM (addPort pi) ref = some ref' := by
    intro ps
    induction ps with
    | nil => exact fun ref => ⟨ref, rfl⟩
    | cons p ps ih =>
      intro ref
      obtain ⟨ref', h'⟩ :=
        ih ((List.range' (lidRangeHo (pi p)).1 ((lidRangeHo (pi p)).2 + 1 - (lidRangeHo (pi p)).1)).foldl
        (fun ref lid => vectorSet ref lid (some p)) ref)
      refine ⟨ref', ?_⟩
      rw [List.foldlM_cons, addPort, lidLoop, if_neg (h p)]
      exact h'
  exact hfold _ _

end Reference

section Check

variable {ref : LidTbl k} {s : St k} {ls : List ℕ}

lemma checkLid_of_ne {l : ℕ} (hne : vectorAt s.portLidTbl l ≠ vectorAt ref l) :
    (checkLid ref s l).subnetInitializationError = true ∧
      (∀ x, vectorAt (checkLid ref s l).portLidTbl x = if x = l then none else vectorAt s.portLidTbl x) ∧
      ∀ p, (checkLid ref s l).pi p =
        if vectorAt s.portLidTbl l = some p then { s.pi p with baseLid := 0 } else s.pi p := by
  cases hstored : vectorAt s.portLidTbl l with
  | some stored =>
    have hs : checkLid ref s l = { s.clearBaseLid stored with
        portLidTbl := vectorSet s.portLidTbl l none, subnetInitializationError := true } := by
      rw [checkLid, if_neg hne, hstored]
    rw [hs]
    refine ⟨rfl, fun x => vectorAt_set, fun p => ?_⟩
    dsimp only [St.clearBaseLid]
    by_cases hp : p = stored
    · rw [hp, Function.update_self, if_pos rfl]
    · rw [Function.update_of_ne hp, if_neg fun h => hp (Option.some.inj h).symm]
  | none =>
    have hs : checkLid ref s l = { s with subnetInitializationError := true } := by
      rw [checkLid, if_neg hne, hstored]
    rw [hs]
    refine ⟨rfl, fun x => ?_, fun p => (if_neg (Option.some_ne_none p).symm).symm⟩
    split_ifs with hx
    · rw [hx, hstored]
    · rfl

structure Checked (ref : LidTbl k) (ls : List ℕ) (s s' : St k) : Prop where
  tbl : ∀ l, vectorAt s'.portLidTbl l =
    if l ∈ ls ∧ vectorAt s.portLidTbl l ≠ vectorAt ref l then none else vectorAt s.portLidTbl l
  cleared : ∀ p, (∃ l ∈ ls, vectorAt s.portLidTbl l = some p ∧ vectorAt ref l ≠ some p) →
    s'.pi p = ⟨0, (s.pi p).lmc⟩
  kept : ∀ p, (¬∃ l ∈ ls, vectorAt s.portLidTbl l = some p ∧ vectorAt ref l ≠ some p) → s'.pi p = s.pi p
  error : s'.subnetInitializationError = true ↔
    s.subnetInitializationError = true ∨ ∃ l ∈ ls, vectorAt s.portLidTbl l ≠ vectorAt ref l

lemma Checked.lmc {s' : St k} (h : Checked ref ls s s') (p : Fin k) : (s'.pi p).lmc = (s.pi p).lmc := by
  by_cases hp : ∃ l ∈ ls, vectorAt s.portLidTbl l = some p ∧ vectorAt ref l ≠ some p
  · rw [h.cleared p hp]
  · rw [h.kept p hp]

lemma Checked.next {s' : St k} {l : ℕ} (h : Checked ref ls s s') (hl : l ∉ ls) :
    Checked ref (ls ++ [l]) s (checkLid ref s' l) := by
  have hat : vectorAt s'.portLidTbl l = vectorAt s.portLidTbl l := by rw [h.tbl, if_neg fun hin => hl hin.1]
  have hmem : ∀ x, x ∈ ls ++ [l] ↔ x ∈ ls ∨ x = l := fun x => by rw [List.mem_append, List.mem_singleton]
  by_cases heq : vectorAt s.portLidTbl l = vectorAt ref l
  · have hsame : checkLid ref s' l = s' := by rw [checkLid, hat, if_pos heq]
    have hlast : ∀ p, (∃ x ∈ ls ++ [l], vectorAt s.portLidTbl x = some p ∧ vectorAt ref x ≠ some p) ↔
        ∃ x ∈ ls, vectorAt s.portLidTbl x = some p ∧ vectorAt ref x ≠ some p := by
      intro p
      refine ⟨?_, fun ⟨x, hx, hp⟩ => ⟨x, (hmem x).mpr (.inl hx), hp⟩⟩
      rintro ⟨x, hx, hp, hr⟩
      rcases (hmem x).mp hx with hx | rfl
      · exact ⟨x, hx, hp, hr⟩
      · exact absurd (heq.symm.trans hp) hr
    rw [hsame]
    refine ⟨fun x => ?_, fun p hp => h.cleared p ((hlast p).mp hp),
        fun p hp => h.kept p fun hx => hp ((hlast p).mpr hx), ?_⟩
    · rw [h.tbl]
      by_cases hx : x = l
      · rw [if_neg fun hin => hl (hx ▸ hin.1), if_neg fun hin => hin.2 (by rw [hx, heq])]
      · simp only [hmem, or_iff_left hx]
    · rw [h.error]
      refine or_congr_right ⟨fun ⟨x, hx, hne⟩ => ⟨x, (hmem x).mpr (.inl hx), hne⟩, ?_⟩
      rintro ⟨x, hx, hne⟩
      rcases (hmem x).mp hx with hx | rfl
      · exact ⟨x, hx, hne⟩
      · exact absurd heq hne
  · have hne : vectorAt s'.portLidTbl l ≠ vectorAt ref l := fun h => heq (hat.symm.trans h)
    obtain ⟨herror, htbl, hpi⟩ := checkLid_of_ne hne
    rw [hat] at hpi
    refine ⟨fun x => ?_, fun p => ?_, fun p hp => ?_, ?_⟩
    · rw [htbl, h.tbl]
      by_cases hx : x = l
      · rw [if_pos hx, if_pos ⟨(hmem x).mpr (.inr hx), hx ▸ heq⟩]
      · rw [if_neg hx]
        simp only [hmem, or_iff_left hx]
    · rintro ⟨x, hx, hp, hr⟩
      rw [hpi]
      split_ifs with hlp
      · exact congrArg (PortLids.mk 0) (h.lmc p)
      · rcases (hmem x).mp hx with hx | rfl
        · exact h.cleared p ⟨x, hx, hp, hr⟩
        · exact absurd hp hlp
    · rw [hpi, if_neg fun hlp => hp ⟨l, (hmem l).mpr (.inr rfl), hlp, fun hr => heq (hlp.trans hr.symm)⟩]
      exact h.kept p fun ⟨x, hx, hne⟩ => hp ⟨x, (hmem x).mpr (.inl hx), hne⟩
    · exact iff_of_true herror (.inr ⟨l, (hmem l).mpr (.inr rfl), heq⟩)

lemma foldl_checkLid (hls : ls.Nodup) : Checked ref ls s (ls.foldl (checkLid ref) s) := by
  induction ls using List.reverseRecOn with
  | nil =>
    refine ⟨fun l => (if_neg fun h => List.not_mem_nil h.1).symm, fun p => ?_, fun p _ => rfl,
        (or_iff_left ?_).symm⟩
    · rintro ⟨l, hl, -⟩
      exact absurd hl List.not_mem_nil
    · rintro ⟨l, hl, -⟩
      exact absurd hl List.not_mem_nil
  | append_singleton ls l ih =>
    obtain ⟨hls, -, hdisj⟩ := List.nodup_append.mp hls
    rw [List.foldl_append]
    exact (ih hls).next fun hl => hdisj l hl l (List.mem_singleton_self l) rfl

end Check

section Outcome

/-- What a port can have when the answers to the Sets are in. An answered Set is adopted, and a port whose Set was
lost has no other base LID than 0. -/
inductive Outcome (assigned : PortLids) : PortLids → Prop
  | adopted : Outcome assigned assigned
  | lidLost (lmc : ℕ) (h : lmc ≤ 7) : Outcome assigned ⟨0, lmc⟩
  | lmcLost (lmc : ℕ) (h : lmc ≤ 7) : Outcome assigned ⟨assigned.baseLid, lmc⟩

structure Assigned (a : Fin k → PortLids) : Prop where
  pos : ∀ p, 0 < (a p).baseLid
  le : ∀ p, (a p).baseLid + 2 ^ (a p).lmc ≤ 0xC000
  disjoint : ∀ p q l, InRange (a p) l → InRange (a q) l → p = q

/-- The state when the LIDs have been assigned and sent. -/
structure Sent (a : Fin k → PortLids) (s : St k) : Prop where
  assigned : Assigned a
  outcome : ∀ p, Outcome (a p) (s.pi p)
  tbl : ∀ l p, vectorAt s.portLidTbl l = some p ↔ InRange (a p) l
  noError : s.subnetInitializationError = false
  dirty : s.dirty = true

/-- The table is that of the ports' ranges, and the flag tells whether a port lacks its assigned one. -/
def Exact (a : Fin k → PortLids) (s : St k) : Prop :=
  (∀ l, 1 ≤ l → ∀ p, vectorAt s.portLidTbl l = some p ↔ InRange (s.pi p) l) ∧
    (s.subnetInitializationError = true ↔ ∃ p, s.pi p ≠ a p)

/-- The port has its assigned range, or its base LID is gone and the stored LMC leaves it no LID but assigned
ones. -/
def Harmless (a pi : PortLids) : Prop :=
  pi = a ∨ pi.baseLid = 0 ∧ (pi.lmc = 0 ∨ a.baseLid = 1 ∧ 2 ^ pi.lmc ≤ 2 ^ a.lmc + 1)

/-- A port that seems to keep the LID 1 it did not get is not the only one without its range. -/
def Noticed (a pi : Fin k → PortLids) : Prop :=
  ∀ p, a p = ⟨1, 0⟩ → pi p = ⟨0, 1⟩ → ∃ q, q ≠ p ∧ pi q ≠ a q

variable {a : Fin k → PortLids} {s : St k} {p q : Fin k} {l : ℕ}

lemma lidRangeHo_snd {pi : PortLids} (h : pi.baseLid + 2 ^ pi.lmc ≤ 65535) :
    (lidRangeHo pi).2 = pi.baseLid + 2 ^ pi.lmc - 1 := by
  rw [lidRangeHo]
  exact Nat.mod_eq_of_lt (by omega)

lemma inRange_iff {pi : PortLids} (h : pi.baseLid + 2 ^ pi.lmc ≤ 65535) :
    InRange pi l ↔ pi.baseLid ≤ l ∧ l < pi.baseLid + 2 ^ pi.lmc := by
  have hpos : 0 < 2 ^ pi.lmc := Nat.two_pow_pos _
  rw [InRange, lidRangeHo_snd h, lidRangeHo]
  omega

lemma Assigned.small (h : Assigned a) (p : Fin k) : (a p).baseLid + 2 ^ (a p).lmc ≤ 65535 :=
  (h.le p).trans (by norm_num)

lemma two_pow_le {lmc : ℕ} (h : lmc ≤ 7) : 2 ^ lmc ≤ 128 := Nat.pow_le_pow_right two_pos h

lemma Outcome.small {a pi : PortLids} (h : Outcome a pi) (ha : a.baseLid + 2 ^ a.lmc ≤ 0xC000) :
    pi.baseLid + 2 ^ pi.lmc ≤ 65535 := by
  cases h with
  | adopted => omega
  | lidLost lmc h =>
    have := two_pow_le h
    dsimp only
    omega
  | lmcLost lmc h =>
    have := two_pow_le h
    have := Nat.two_pow_pos a.lmc
    dsimp only
    omega

/-- The reference table of a finished check with the state that the check leaves. -/
structure Final (a : Fin k → PortLids) (s : St k) (r : ℕ → Option (Fin k)) (s' : St k) : Prop where
  sound : ∀ l q, r l = some q → InRange (s.pi q) l
  full : ∀ l p, InRange (s.pi p) l → ∃ q, r l = some q
  tbl : ∀ l, 1 ≤ l → ∀ p, vectorAt s'.portLidTbl l = some p ↔ InRange (a p) l ∧ r l = some p
  cleared : ∀ p, (∃ l, 1 ≤ l ∧ InRange (a p) l ∧ r l ≠ some p) → s'.pi p = ⟨0, (s.pi p).lmc⟩
  kept : ∀ p, (∀ l, 1 ≤ l → InRange (a p) l → r l = some p) → s'.pi p = s.pi p
  error : s'.subnetInitializationError = true ↔ ∃ l, 1 ≤ l ∧ vectorAt s.portLidTbl l ≠ r l

lemma Sent.final (hs : Sent a s) : ∃ s' r, checkTblConsistency s = some s' ∧ Final a s r s' := by
  have hmax : ∀ p, (lidRangeHo (s.pi p)).2 ≠ 65535 := by
    intro p
    have hsmall := (hs.outcome p).small (hs.assigned.le p)
    have := Nat.two_pow_pos (s.pi p).lmc
    rw [lidRangeHo_snd hsmall]
    omega
  obtain ⟨ref, href⟩ := exists_refPortLidTbl hmax s.portLidTbl.length
  obtain ⟨hsound, hfull⟩ := refPortLidTbl_spec href
  let ls := List.range' 1 (max ref.length s.portLidTbl.length - 1)
  have hfinal : Checked ref ls { s with dirty := false } (ls.foldl (checkLid ref) { s with dirty := false }) :=
    foldl_checkLid List.nodup_range'
  -- beyond the two lengths both tables are empty
  have hls : ∀ l, l ∈ ls ∧ vectorAt s.portLidTbl l ≠ vectorAt ref l ↔
      1 ≤ l ∧ vectorAt s.portLidTbl l ≠ vectorAt ref l := by
    intro l
    rw [List.mem_range'_1]
    refine ⟨fun h => ⟨h.1.1, h.2⟩, fun h => ⟨⟨h.1, ?_⟩, h.2⟩⟩
    by_contra hlt
    apply h.2
    rw [vectorAt_of_le (by omega), vectorAt_of_le (by omega)]
  have hcleared : ∀ p, (∃ l ∈ ls, vectorAt s.portLidTbl l = some p ∧ vectorAt ref l ≠ some p) ↔
      ∃ l, 1 ≤ l ∧ InRange (a p) l ∧ vectorAt ref l ≠ some p := by
    intro p
    refine ⟨fun ⟨l, hl, hp, hr⟩ => ?_, fun ⟨l, hl, hp, hr⟩ => ?_⟩
    · exact ⟨l, ((hls l).mp ⟨hl, fun h => hr (h.symm.trans hp)⟩).1, (hs.tbl l p).mp hp, hr⟩
    · have hp := (hs.tbl l p).mpr hp
      exact ⟨l, ((hls l).mpr ⟨hl, fun h => hr (h.symm.trans hp)⟩).1, hp, hr⟩
  refine ⟨ls.foldl (checkLid ref) { s with dirty := false }, vectorAt ref, ?_, hsound, hfull, fun l hl p => ?_,
    fun p hp => hfinal.cleared p ((hcleared p).mpr hp), fun p hp => hfinal.kept p fun hc => ?_, ?_⟩
  · rw [checkTblConsistency, hs.dirty, if_neg Bool.noConfusion, href]
    rfl
  · rw [hfinal.tbl, ← hs.tbl]
    split_ifs with hne
    · exact iff_of_false not_false fun h => hne.2 (h.1.trans h.2.symm)
    · refine (and_iff_left_of_imp fun hp => ?_).symm
      by_contra hr
      exact hne ((hls l).mpr ⟨hl, fun h => hr (h.symm.trans hp)⟩)
  · obtain ⟨l, hl, hin, hr⟩ := (hcleared p).mp hc
    exact hr (hp l hl hin)
  · rw [hfinal.error, hs.noError]
    exact (or_iff_right Bool.noConfusion).trans (exists_congr hls)

variable {r : ℕ → Option (Fin k)} {s' : St k}

lemma Sent.inRange_iff (hs : Sent a s) : InRange (a p) l ↔ (a p).baseLid ≤ l ∧ l < (a p).baseLid + 2 ^ (a p).lmc :=
  TblConsistency.inRange_iff (hs.assigned.small p)

lemma Sent.inRange_pi_iff (hs : Sent a s) :
    InRange (s.pi p) l ↔ (s.pi p).baseLid ≤ l ∧ l < (s.pi p).baseLid + 2 ^ (s.pi p).lmc :=
  TblConsistency.inRange_iff ((hs.outcome p).small (hs.assigned.le p))

lemma Final.pi_cases (h : Final a s r s') (p : Fin k) :
    (∃ l, 1 ≤ l ∧ InRange (a p) l ∧ r l ≠ some p) ∧ s'.pi p = ⟨0, (s.pi p).lmc⟩ ∨
      (∀ l, 1 ≤ l → InRange (a p) l → r l = some p) ∧ s'.pi p = s.pi p := by
  by_cases hp : ∃ l, 1 ≤ l ∧ InRange (a p) l ∧ r l ≠ some p
  · exact .inl ⟨hp, h.cleared p hp⟩
  · push Not at hp
    exact .inr ⟨hp, h.kept p hp⟩

lemma Final.pi_of_lost (h : Final a s r s') (h0 : (s.pi p).baseLid = 0) : s'.pi p = s.pi p := by
  have hpi : s.pi p = ⟨0, (s.pi p).lmc⟩ := congrArg (PortLids.mk · _) h0
  rcases h.pi_cases p with ⟨-, hp⟩ | ⟨-, hp⟩
  · exact hp.trans hpi.symm
  · exact hp

lemma Final.tables_eq (h : Final a s r s') (hs : Sent a s)
    (hsame : ∀ q l, 1 ≤ l → (InRange (a q) l ↔ InRange (s.pi q) l)) (hl : 1 ≤ l) : vectorAt
        s.portLidTbl l = r l := by
  apply Option.ext
  intro q
  rw [hs.tbl]
  refine ⟨fun hq => ?_, fun hq => (hsame q l hl).mpr (h.sound l q hq)⟩
  obtain ⟨q', hq'⟩ := h.full l q ((hsame q l hl).mp hq)
  rw [hq', hs.assigned.disjoint q q' l hq ((hsame q' l hl).mpr (h.sound l q' hq'))]

section Enough

variable (hs : Sent a s) (hH : ∀ p, Harmless (a p) (s.pi p))
include hs hH

lemma Harmless.inRange (hl : 1 ≤ l) (hin : InRange (s.pi p) l) : InRange (a p) l := by
  rcases hH p with heq | ⟨h0, hlmc⟩
  · rwa [← heq]
  · rw [hs.inRange_pi_iff, h0] at hin
    rw [hs.inRange_iff]
    rcases hlmc with hlmc | ⟨hb, hlmc⟩
    · rw [hlmc] at hin
      omega
    · omega

lemma Harmless.ref_iff (h : Final a s r s') (hl : 1 ≤ l) : r l = some p ↔ InRange (s.pi p) l := by
  refine ⟨h.sound l p, fun hin => ?_⟩
  obtain ⟨q, hq⟩ := h.full l p hin
  have hqa := Harmless.inRange hs hH hl (h.sound l q hq)
  rw [hq, hs.assigned.disjoint p q l (Harmless.inRange hs hH hl hin) hqa]

lemma Harmless.pi_eq (h : Final a s r s') : s'.pi = s.pi := by
  funext p
  rcases h.pi_cases p with ⟨⟨l, hl, hin, hr⟩, -⟩ | ⟨-, hp⟩
  · have hne : s.pi p ≠ a p := fun heq => hr ((Harmless.ref_iff hs hH h hl).mpr (heq ▸ hin))
    exact h.pi_of_lost ((hH p).resolve_left hne).1
  · exact hp

/-- A port without its assigned range changes the table, unless it is the one of the LID 1. -/
lemma Harmless.eq_of_same (hne : s.pi p ≠ a p) (hsame : ∀ l, 1 ≤ l → (InRange (a p) l ↔ InRange (s.pi p) l)) :
    a p = ⟨1, 0⟩ ∧ s.pi p = ⟨0, 1⟩ := by
  obtain ⟨h0, hlmc⟩ := (hH p).resolve_left hne
  have hpos := hs.assigned.pos p
  simp only [hs.inRange_iff, hs.inRange_pi_iff, h0] at hsame
  have hn := Nat.two_pow_pos (a p).lmc
  have hbase := (hsame (a p).baseLid hpos).mp ⟨le_refl _, by omega⟩
  have hb : (a p).baseLid = 1 := by
    rcases hlmc with hlmc | ⟨hb, -⟩
    · rw [hlmc] at hbase
      omega
    · exact hb
  rw [hb] at hsame hbase
  have htop := (hsame (2 ^ (a p).lmc) hn).mp ⟨hn, by omega⟩
  have hover := hsame (2 ^ (a p).lmc + 1) (by omega)
  -- so the two powers of two are neighbours
  have hpow : 2 ^ (s.pi p).lmc = 2 ^ (a p).lmc + 1 := by omega
  obtain ⟨hn0, hk1⟩ : (a p).lmc = 0 ∧ (s.pi p).lmc = 1 := by
    rcases Nat.eq_zero_or_pos (a p).lmc with hn0 | hn0
    · rw [hn0] at hpow
      exact ⟨hn0, Nat.pow_right_injective le_rfl hpow⟩
    · obtain ⟨n, hn⟩ := Nat.exists_eq_succ_of_ne_zero hn0.ne'
      rcases Nat.eq_zero_or_pos (s.pi p).lmc with hk0 | hk0
      · rw [hk0] at hpow
        omega
      · obtain ⟨m, hm⟩ := Nat.exists_eq_succ_of_ne_zero hk0.ne'
        rw [hn, hm, pow_succ, pow_succ] at hpow
        omega
  exact ⟨by rw [← hb, ← hn0], by rw [← h0, ← hk1]⟩

lemma Harmless.exact (hN : Noticed a s.pi) (h : Final a s r s') : Exact a s' := by
  have hpi := Harmless.pi_eq hs hH h
  refine ⟨fun l hl p => ?_, ?_⟩
  · rw [h.tbl l hl, hpi, Harmless.ref_iff hs hH h hl]
    exact and_iff_right_of_imp (Harmless.inRange hs hH hl)
  · rw [h.error, hpi]
    constructor
    · rintro ⟨l, hl, hne⟩
      by_contra hall
      push Not at hall
      exact hne (h.tables_eq hs (fun q l _ => by rw [hall q]) hl)
    · rintro ⟨p, hp⟩
      by_contra hall
      push Not at hall
      have hsame : ∀ q l, 1 ≤ l → (InRange (a q) l ↔ InRange (s.pi q) l) := fun q l hl => by
        rw [← hs.tbl, hall l hl, Harmless.ref_iff hs hH h hl]
      obtain ⟨hap, hpp⟩ := Harmless.eq_of_same hs hH hp (hsame p)
      obtain ⟨q, hqp, hq⟩ := hN p hap hpp
      obtain ⟨haq, -⟩ := Harmless.eq_of_same hs hH hq (hsame q)
      have hone : InRange (⟨1, 0⟩ : PortLids) 1 := ⟨le_rfl, le_rfl⟩
      exact hqp (hs.assigned.disjoint q p 1 (haq ▸ hone) (hap ▸ hone))

end Enough

section Needed

variable (hs : Sent a s) (h : Final a s r s')
  (hT : ∀ l, 1 ≤ l → ∀ p, vectorAt s'.portLidTbl l = some p ↔ InRange (s'.pi p) l)
include hs h hT

omit hs in
lemma Exact.assigned (hl : 1 ≤ l) (hin : InRange (s'.pi p) l) : InRange (a p) l ∧ r l = some p :=
  (h.tbl l hl p).mp ((hT l hl p).mpr hin)

omit hs in
lemma Exact.inRange_of_lost (h0 : (s.pi p).baseLid = 0) (hl : 1 ≤ l) (hin : InRange (s.pi p) l) :
    InRange (a p) l :=
  (Exact.assigned h hT hl ((h.pi_of_lost h0).symm ▸ hin)).1

lemma Exact.lmc_le (hb : (s.pi p).baseLid = (a p).baseLid) : (s.pi p).lmc ≤ (a p).lmc := by
  by_contra hlt
  have hpow : 2 ^ (a p).lmc * 2 ≤ 2 ^ (s.pi p).lmc := by
    rw [← pow_succ]
    exact Nat.pow_le_pow_right two_pos (not_le.mp hlt)
  have hn := Nat.two_pow_pos (a p).lmc
  have hpos := hs.assigned.pos p
  rcases h.pi_cases p with ⟨⟨l, hl, hin, hr⟩, hp⟩ | ⟨-, hp⟩
  · have hrange : ∀ l, 1 ≤ l → l < 2 ^ (s.pi p).lmc → InRange (a p) l ∧ r l = some p := by
      intro l hl hlt
      apply Exact.assigned h hT hl
      rw [hp]
      have hsmall := (hs.outcome p).small (hs.assigned.le p)
      rw [TblConsistency.inRange_iff (by dsimp only; omega)]
      exact ⟨Nat.zero_le l, by rwa [zero_add]⟩
    have hfirst := hrange 1 le_rfl (by omega)
    have hlast := (hrange (2 ^ (s.pi p).lmc - 1) (by omega) (by omega)).1
    rw [hs.inRange_iff] at hin hfirst hlast
    obtain rfl : l = 1 := by omega
    exact hr hfirst.2
  · have hlast : InRange (s'.pi p) ((s.pi p).baseLid + 2 ^ (s.pi p).lmc - 1) := by
      rw [hp, hs.inRange_pi_iff]
      omega
    have hlast := (Exact.assigned h hT (by omega) hlast).1
    rw [hs.inRange_iff] at hlast
    omega

lemma Exact.ref_unique (hl : 1 ≤ l) (hin : InRange (a p) l) (hq : r l = some q) : q = p := by
  have hq := h.sound l q hq
  apply hs.assigned.disjoint q p l _ hin
  have hout := hs.outcome q
  generalize hpi : s.pi q = pi at hout
  cases hout with
  | adopted => rwa [hpi] at hq
  | lidLost lmc _ => exact Exact.inRange_of_lost h hT (congrArg PortLids.baseLid hpi) hl hq
  | lmcLost lmc _ =>
    have hb : (s.pi q).baseLid = (a q).baseLid := by rw [hpi]
    have hle := Nat.pow_le_pow_right two_pos (Exact.lmc_le hs h hT hb)
    rw [hs.inRange_pi_iff, hb] at hq
    rw [hs.inRange_iff]
    omega

lemma Exact.ref_of_inRange (hl : 1 ≤ l) (hin : InRange (s.pi p) l) (ha : InRange (a p) l) : r l = some p := by
  obtain ⟨q, hq⟩ := h.full l p hin
  rw [hq, Exact.ref_unique hs h hT hl ha hq]

lemma Exact.lmc_eq (hb : (s.pi p).baseLid = (a p).baseLid) : (s.pi p).lmc = (a p).lmc := by
  by_contra hne
  have hpow : 2 ^ (s.pi p).lmc * 2 ≤ 2 ^ (a p).lmc := by
    rw [← pow_succ]
    exact Nat.pow_le_pow_right two_pos (lt_of_le_of_ne (Exact.lmc_le hs h hT hb) hne)
  have hk := Nat.two_pow_pos (s.pi p).lmc
  have hpos := hs.assigned.pos p
  -- the LIDs that the stored LMC leaves are all in the reference table
  have href : ∀ l, (a p).baseLid ≤ l → l < (a p).baseLid + 2 ^ (s.pi p).lmc → r l = some p := by
    intro l hl hlt
    apply Exact.ref_of_inRange hs h hT (by omega)
    · rw [hs.inRange_pi_iff, hb]
      exact ⟨hl, hlt⟩
    · rw [hs.inRange_iff]
      omega
  have hkeep : ∀ l, 1 ≤ l → InRange (a p) l → r l = some p → InRange (s'.pi p) l := fun l hl ha hr =>
    (hT l hl p).mp ((h.tbl l hl p).mpr ⟨ha, hr⟩)
  rcases h.pi_cases p with ⟨-, hp⟩ | ⟨hall, hp⟩
  · have hsmall := (hs.outcome p).small (hs.assigned.le p)
    have hrange : ∀ l, InRange (s'.pi p) l ↔ l < 2 ^ (s.pi p).lmc := by
      intro l
      rw [hp, TblConsistency.inRange_iff (by dsimp only; omega)]
      dsimp only
      omega
    have hbase : (a p).baseLid < 2 ^ (s.pi p).lmc := by
      rw [← hrange]
      apply hkeep _ hpos _ (href _ le_rfl (by omega))
      rw [hs.inRange_iff]
      omega
    have hfirst := (Exact.assigned h hT le_rfl ((hrange 1).mpr (by omega))).1
    rw [hs.inRange_iff] at hfirst
    have hover : InRange (s'.pi p) (2 ^ (s.pi p).lmc) := by
      apply hkeep _ hk _ (href _ (by omega) (by omega))
      rw [hs.inRange_iff]
      omega
    rw [hrange] at hover
    exact lt_irrefl _ hover
  · have hlast : InRange (a p) ((a p).baseLid + 2 ^ (a p).lmc - 1) := by
      rw [hs.inRange_iff]
      omega
    have hlast := hkeep _ (by omega) hlast (hall _ (by omega) hlast)
    rw [hp, hs.inRange_pi_iff, hb] at hlast
    omega

lemma Exact.harmless (p : Fin k) : Harmless (a p) (s.pi p) := by
  have hout := hs.outcome p
  generalize hpi : s.pi p = pi at hout
  cases hout with
  | adopted => exact .inl rfl
  | lidLost lmc _ =>
    refine .inr ⟨rfl, (Nat.eq_zero_or_pos lmc).imp_right fun hpos => ?_⟩
    have hb : (s.pi p).baseLid = 0 := congrArg PortLids.baseLid hpi
    have hlmc : (s.pi p).lmc = lmc := congrArg PortLids.lmc hpi
    have hpow : 2 ≤ 2 ^ lmc := Nat.pow_le_pow_right two_pos hpos
    have hrange : ∀ l, 1 ≤ l → l < 2 ^ lmc → InRange (a p) l := by
      intro l hl hlt
      apply Exact.inRange_of_lost h hT hb hl
      rw [hs.inRange_pi_iff, hb, hlmc]
      omega
    have hfirst := hrange 1 le_rfl (by omega)
    have hlast := hrange (2 ^ lmc - 1) (by omega) (by omega)
    have := hs.assigned.pos p
    rw [hs.inRange_iff] at hfirst hlast
    dsimp only
    omega
  | lmcLost lmc _ =>
    have hlmc := Exact.lmc_eq hs h hT (show (s.pi p).baseLid = (a p).baseLid by rw [hpi])
    rw [hpi] at hlmc
    exact .inl (congrArg (PortLids.mk _) hlmc)

end Needed

lemma Exact.noticed (hs : Sent a s) (h : Final a s r s') (hE : Exact a s') : Noticed a s.pi := by
  intro p hap hpp
  by_contra hall
  push Not at hall
  have hsame : ∀ q l, 1 ≤ l → (InRange (a q) l ↔ InRange (s.pi q) l) := by
    intro q l hl
    by_cases hq : q = p
    · rw [hs.inRange_iff, hs.inRange_pi_iff, hq, hap, hpp]
      dsimp only
      omega
    · rw [hall q hq]
  have hne : s'.pi p ≠ a p := by
    rw [h.pi_of_lost (congrArg PortLids.baseLid hpp), hap, hpp]
    decide
  obtain ⟨l, hl, hdiff⟩ := h.error.mp (hE.2.mpr ⟨p, hne⟩)
  exact hdiff (h.tables_eq hs hsame hl)

end Outcome

/-- Exactly when the check leaves the LID table of the ports' own ranges and a flag that tells of lost Sets. -/
theorem checkTblConsistency_exact {a : Fin k → PortLids} {s : St k} (hs : Sent a s) :
    ∃ s', checkTblConsistency s = some s' ∧ (Exact a s' ↔ (∀ p, Harmless (a p) (s.pi p)) ∧ Noticed a s.pi) := by
  obtain ⟨s', r, hrun, h⟩ := hs.final
  refine ⟨s', hrun, fun hE => ⟨fun p => Exact.harmless hs h hE.1 p, hE.noticed hs h⟩, fun ⟨hH, hN⟩ => ?_⟩
  exact Harmless.exact hs hH hN h

/-- A port with one LID, one with two, and one that has none, though it was to get LID 4. -/
def threeLids : Fin 3 → PortLids := ![⟨1, 0⟩, ⟨2, 1⟩, ⟨4, 0⟩]

def lostPort : St 3 where
  pi := ![⟨1, 0⟩, ⟨2, 1⟩, ⟨0, 0⟩]
  lid := ![1, 2, 4]
  portLidTbl := [none, some (Fin.last 0).castSucc.castSucc, some (Fin.last 1).castSucc, some (Fin.last 1).castSucc,
      some (Fin.last 2)]
  subnetInitializationError := false
  dirty := true

lemma inRange_threeLids (p : Fin 3) (l : ℕ) :
    InRange (threeLids p) l ↔ (threeLids p).baseLid ≤ l ∧ l < (threeLids p).baseLid + 2 ^ (threeLids p).lmc :=
  inRange_iff (by revert p; decide)

lemma sent_lostPort : Sent threeLids lostPort := by
  refine ⟨⟨by decide, by decide, fun p q l hp hq => ?_⟩, fun p => ?_, fun l p => ?_, rfl, rfl⟩
  · rw [inRange_threeLids] at hp hq
    fin_cases p <;> fin_cases q <;> simp [threeLids] at hp hq ⊢ <;> omega
  · fin_cases p
    · exact .adopted
    · exact .adopted
    · exact .lidLost 0 (Nat.zero_le 7)
  · rw [inRange_threeLids]
    match l with
    | 0 | 1 | 2 | 3 | 4 =>
      revert p
      decide
    | l + 5 =>
      have hfar : vectorAt lostPort.portLidTbl (l + 5) = none := vectorAt_of_le (Nat.le_add_left 5 l)
      have hend : (threeLids p).baseLid + 2 ^ (threeLids p).lmc ≤ 5 := by
        revert p
        decide
      rw [hfar]
      exact iff_of_false nofun (by omega)

theorem checkTblConsistency_exact_lostPort : ∃ s', checkTblConsistency lostPort = some s' ∧
    Exact threeLids s' := by
  obtain ⟨s', hrun, hexact⟩ := checkTblConsistency_exact sent_lostPort
  refine ⟨s', hrun, hexact.mpr ⟨fun p => ?_, fun p hp => ?_⟩⟩
  · fin_cases p
    · exact .inl rfl
    · exact .inl rfl
    · exact .inr ⟨rfl, .inl rfl⟩
  · fin_cases p
    · exact fun h => absurd h (by decide)
    · exact absurd hp (by decide)
    · exact absurd hp (by decide)

end OpenSM.TblConsistency
