import OpenSM.QosSetup

/-! Which lost updates `osm_qos_setup` sends again. A stored copy of zeros stands for a table that has to
be sent, so that a computed table of zeros goes unnoticed unless `need_update` is set. -/

namespace OpenSM.Qos

open Lib Lib.Runs

variable {N : Type} [DecidableEq N] (F : Fabric N)

def Zeros (len : ℕ) (b : Block) : Prop := ∀ i < len, b i = (0, 0)

instance (len : ℕ) (b : Block) : Decidable (Zeros len b) := inferInstanceAs (Decidable (∀ i < len, b i = (0, 0)))

/-- The update is told from a copy that was zeroed. -/
def Update.Marked (u : Update N) : Prop := u.force = true ∨ ¬Zeros u.len u.mad.block

instance (u : Update N) : Decidable u.Marked := inferInstanceAs (Decidable (_ ∨ _))

/-- Each table of the round has a nonzero entry or is sent anyway. -/
def Marked (r : Round N) : Prop := ∀ u ∈ updates F r, u.Marked

instance (r : Round N) : Decidable (Marked F r) := inferInstanceAs (Decidable (∀ u ∈ updates F r, u.Marked))

/-- A round of a run: the state it starts in, what it finds, and what is answered. -/
abbrev Turn (N : Type) := Tables N × Round N × (ℕ → Bool)

def sent (x : Turn N) : List (Update N) := (osmQosSetup F x.2.1 x.1.stored).2

def Lost (x : Turn N) (t : Tbl N) : Prop :=
  (∃ u ∈ sent F x, u.tbl = t) ∧ ∀ y ∈ (sent F x).zipIdx, y.1.tbl = t → x.2.2 y.2 = false

/-- A table that was lost is sent again by the next round if that computes the same. -/
def SentAgain (x y : Turn N) : Prop :=
  ∀ u ∈ updates F x.2.1, ∀ u' ∈ updates F y.2.1, Lost F x u.tbl → u'.tbl = u.tbl → u'.mad.block = u.mad.block →
    u' ∈ sent F y

/-- Each table that the round configures is in hardware the way the round last computes it. -/
def InHardware (r : Round N) (s : Tables N) : Prop :=
  ∀ t u, ((updates F r).filter (·.tbl = t)).getLast? = some u → ∀ i < u.len, s.hw t i = u.mad.block i

section Fabric

variable (r : Round N)

def tblLen : Tbl N → ℕ
  | .vlArb p b => blockLen (if b < 2 then F.vlArbLowCap p else F.vlArbHighCap p) (b % 2)
  | .slvl _ _ => 8

structure Proper (u : Update N) : Prop where
  len : u.len = tblLen F u.tbl
  tblOf : tblOf F u.mad = some u.tbl
  force : ∃ p : Physp N, u.force = forceUpdate r p ∧ (∀ q b, u.tbl = .vlArb q b → q = p) ∧ ∀ q b,
      u.tbl = .slvl q b → q = p

omit [DecidableEq N] in
lemma vlarbUpdate_proper {p : Physp N} {portNum : ℕ} {cfg : QosConfig}
    (h : if F.isSwitch p.node then portNum = p.portNum ∧ portNum < 256 else portNum = 0) {u : Update N}
    (hu : u ∈ vlarbUpdate F r p portNum cfg) : Proper F r u := by
  have hproper : ∀ (table : Block) (b len : ℕ), b < 4 → len = tblLen F (.vlArb p b) →
      Proper F r (vlarbUpdateTableBlock r p portNum table len b) := by
    intro table b len hb hlen
    refine ⟨hlen, ?_, p, rfl, ?_, nofun⟩
    · have hport : portNum < 256 := by split_ifs at h <;> omega
      have hblock : ((b + 1) * 2 ^ 16 + portNum) / 2 ^ 16 % 2 ^ 8 = b + 1 := by omega
      have hlow : ((b + 1) * 2 ^ 16 + portNum) % 2 ^ 8 = portNum := by omega
      simp only [tblOf, vlarbUpdateTableBlock, hblock, hlow]
      rw [if_neg (by omega)]
      split_ifs at h ⊢
      · rw [h.1]
        rfl
      · rfl
    · intro q c hq
      exact ((Tbl.vlArb.inj hq).1).symm
  by_cases hcap : F.vlCap p = 1
  · rw [vlarbUpdate, if_pos hcap] at hu
    exact absurd hu List.not_mem_nil
  rw [vlarbUpdate, if_neg hcap] at hu
  simp only [List.mem_append, List.mem_ite_nil_right, List.mem_singleton] at hu
  rcases hu with ((⟨-, rfl⟩ | ⟨-, rfl⟩) | ⟨-, rfl⟩) | ⟨-, rfl⟩
  · exact hproper _ 0 _ (by omega) rfl
  · exact hproper _ 1 _ (by omega) rfl
  · exact hproper _ 2 _ (by omega) rfl
  · exact hproper _ 3 _ (by omega) rfl

omit [DecidableEq N] in
lemma sl2vlUpdateTable_proper {p : Physp N} {inPort : ℕ} (sl2vl : Block) {attrMod : ℕ}
    (h : if F.isSwitch p.node then attrMod = inPort * 2 ^ 8 + p.portNum ∧ inPort < F.numPhysp p.node ∧
      p.portNum < F.numPhysp p.node else inPort = 0) : Proper F r (sl2vlUpdateTable r p inPort attrMod sl2vl) := by
  refine ⟨rfl, ?_, p, rfl, nofun, fun q b hq => ((Tbl.slvl.inj hq).1).symm⟩
  have hle := F.numPhysp_le p.node
  split_ifs at h with hsw
  · obtain ⟨rfl, hin, hout⟩ := h
    have hlow : (inPort * 2 ^ 8 + p.portNum) % 2 ^ 8 = p.portNum := by omega
    have hhigh : (inPort * 2 ^ 8 + p.portNum) / 2 ^ 8 % 2 ^ 8 = inPort := by omega
    have hin : ¬F.numPhysp p.node - 1 < inPort := by omega
    have hout : ¬F.numPhysp p.node - 1 < p.portNum := by omega
    simp only [tblOf, sl2vlUpdateTable, hsw, if_true, hlow, hhigh, hin, hout, or_self, if_false]
  · simp only [tblOf, sl2vlUpdateTable, hsw, h]
    rfl

omit [DecidableEq N] in
lemma qosEndportSetup_proper {p : Physp N} (hp : p ∈ F.portGuidTbl) {cfg : QosConfig} {u : Update N}
    (hu : u ∈ qosEndportSetup F r p cfg) : Proper F r u := by
  simp only [qosEndportSetup, List.mem_append, List.mem_ite_nil_right, List.mem_singleton] at hu
  rcases hu with hu | ⟨-, rfl⟩
  · refine vlarbUpdate_proper F r ?_ hu
    split_ifs with hsw
    · exact ⟨(F.switchPort p hp hsw).1.symm, by omega⟩
    · rfl
  · refine sl2vlUpdateTable_proper F r _ ?_
    split_ifs with hsw
    · obtain ⟨h0, hpos⟩ := F.switchPort p hp hsw
      rw [h0]
      exact ⟨rfl, hpos, hpos⟩
    · rfl

omit [DecidableEq N] in
lemma qosExtportsSetup_proper {n : N} (hn : F.isSwitch n = true) {cfg : QosConfig} {u : Update N}
    (hu : u ∈ qosExtportsSetup F r n cfg) : Proper F r u := by
  have hle := F.numPhysp_le n
  by_cases hre : r.routingEngineUsed.isNone = true
  · rw [qosExtportsSetup, if_pos hre] at hu
    exact absurd hu List.not_mem_nil
  rw [qosExtportsSetup, if_neg hre] at hu
  simp only [List.mem_append, List.mem_ite_nil_right, List.mem_flatMap, List.mem_filter, List.mem_map,
    List.mem_range, List.mem_range'_1] at hu
  rcases hu with ⟨out, ⟨hout, -⟩, hu⟩ | ⟨-, out, ⟨hout, -⟩, inPort, hin, rfl⟩
  · refine vlarbUpdate_proper F r ?_ hu
    rw [if_pos hn]
    exact ⟨rfl, by omega⟩
  · refine sl2vlUpdateTable_proper F r _ ?_
    rw [if_pos hn]
    refine ⟨rfl, hin, ?_⟩
    change out < F.numPhysp n
    split_ifs at hout <;> omega

omit [DecidableEq N] in
lemma updates_proper {u : Update N} (hu : u ∈ updates F r) : Proper F r u := by
  obtain ⟨p, hp, hu⟩ := List.mem_flatMap.mp hu
  unfold portSetup at hu
  split_ifs at hu with hsw henh hrtr
  · rcases List.mem_append.mp hu with hu | hu
    · exact qosExtportsSetup_proper F r hsw hu
    · exact qosEndportSetup_proper F r hp hu
  · rw [List.append_nil] at hu
    exact qosExtportsSetup_proper F r hsw hu
  · exact qosEndportSetup_proper F r hp hu
  · exact qosEndportSetup_proper F r hp hu

end Fabric

section Queue

variable {t : Tbl N} {len : ℕ} {us : List (Update N)} {st : Tbl N → Block}

lemma zeros_zeroTo (len : ℕ) (b : Block) : Zeros len (zeroTo len b) := fun _ hi => if_pos hi

lemma zeros_updated {v : Update N} (hv : v.tbl = t) (hlen : v.len = len) :
    Zeros len (Function.update st v.tbl (zeroTo v.len (st v.tbl)) t) := by
  rw [hv, Function.update_self, hlen]
  exact zeros_zeroTo _ _

/-- A copy of zeros stays one, and the marked updates of its table are the ones that are sent. -/
lemma foldl_updateTable_zeros (hlen : ∀ u ∈ us, u.tbl = t → u.len = len) (h : Zeros len (st t)) :
    Zeros len ((us.foldl updateTable (st, [])).1 t) ∧
      ∀ u, u.tbl = t → (u ∈ (us.foldl updateTable (st, [])).2 ↔ u ∈ us ∧ u.Marked) := by
  induction us using List.reverseRecOn with
  | nil => exact ⟨h, by simp⟩
  | append_singleton us v ih =>
    rw [List.forall_mem_append, List.forall_mem_singleton] at hlen
    obtain ⟨hz, hmem⟩ := ih hlen.1
    rw [List.foldl_append, List.foldl_cons, List.foldl_nil]
    generalize us.foldl updateTable (st, []) = q at hz hmem ⊢
    simp only [List.mem_append, List.mem_singleton]
    by_cases hv : v.tbl = t
    · have hlen := hlen.2 hv
      have hmark : v.Marked ↔ ¬(¬v.force ∧ ∀ i < v.len, q.1 v.tbl i = v.mad.block i) := by
        have hsame : (∀ i < v.len, q.1 v.tbl i = v.mad.block i) ↔ Zeros v.len v.mad.block := by
          refine forall₂_congr fun i hi => ?_
          rw [hv, hz i (hlen ▸ hi), eq_comm]
        rw [Update.Marked, hsame]
        cases v.force <;> simp
      rw [updateTable]
      split_ifs with hskip
      · refine ⟨hz, fun u hu => (hmem u hu).trans ⟨fun ⟨hu, hm⟩ => ⟨.inl hu, hm⟩, ?_⟩⟩
        rintro ⟨hu | rfl, hm⟩
        · exact ⟨hu, hm⟩
        · exact absurd hskip (hmark.mp hm)
      · refine ⟨zeros_updated hv hlen, fun u hu => ?_⟩
        rw [List.mem_append, List.mem_singleton, hmem u hu, or_and_right]
        exact or_congr_right ⟨fun he => ⟨he, he ▸ hmark.mpr hskip⟩, And.left⟩
    · have hother : ∀ u : Update N, u.tbl = t → u ≠ v := fun u hu he => hv (he ▸ hu)
      rw [updateTable]
      split_ifs with hskip
      · refine ⟨hz, fun u hu => ?_⟩
        rw [hmem u hu, or_iff_left (hother u hu)]
      · refine ⟨?_, fun u hu => ?_⟩
        · change Zeros len (Function.update q.1 v.tbl _ t)
          rwa [Function.update_of_ne (Ne.symm hv)]
        · rw [List.mem_append, List.mem_singleton, hmem u hu, or_iff_left (hother u hu), or_iff_left (hother u hu)]

/-- With marked updates only, a table is left alone when each of them finds it in the copy. Else the last one
is sent last, and the copy is zeroed. -/
lemma foldl_updateTable_marked (hlen : ∀ u ∈ us, u.tbl = t → u.len = len) (hm : ∀ u ∈ us, u.tbl = t → u.Marked) :
    let q := us.foldl updateTable (st, [])
    (q.2.filter (·.tbl = t) = [] ∧ q.1 t = st t ∧
        ∀ u ∈ us, u.tbl = t → u.force = false ∧ ∀ i < len, st t i = u.mad.block i) ∨
      (q.2.filter (·.tbl = t) ≠ [] ∧ Zeros len (q.1 t) ∧
        (q.2.filter (·.tbl = t)).getLast? = (us.filter (·.tbl = t)).getLast?) := by
  induction us using List.reverseRecOn with
  | nil => exact .inl ⟨rfl, rfl, by simp⟩
  | append_singleton us v ih =>
    rw [List.forall_mem_append, List.forall_mem_singleton] at hlen hm
    have ih := ih hlen.1 hm.1
    dsimp only at ih ⊢
    rw [List.foldl_append, List.foldl_cons, List.foldl_nil]
    generalize us.foldl updateTable (st, []) = q at ih ⊢
    by_cases hv : v.tbl = t
    · have hlen := hlen.2 hv
      have hsent : ¬(¬v.force ∧ ∀ i < v.len, q.1 v.tbl i = v.mad.block i) →
          ((updateTable q v).2.filter (·.tbl = t) ≠ [] ∧ Zeros len ((updateTable q v).1 t) ∧
            ((updateTable q v).2.filter (·.tbl = t)).getLast? = ((us ++ [v]).filter (·.tbl = t)).getLast?) := by
        intro hskip
        rw [updateTable, if_neg hskip]
        exact ⟨by simp [hv], zeros_updated hv hlen, by simp [hv]⟩
      rcases ih with ⟨hnone, hsame, hall⟩ | ⟨hne, hz, hlast⟩
      · by_cases hskip : ¬v.force ∧ ∀ i < v.len, q.1 v.tbl i = v.mad.block i
        · refine .inl ?_
          rw [updateTable, if_pos hskip]
          refine ⟨hnone, hsame, ?_⟩
          rw [List.forall_mem_append, List.forall_mem_singleton]
          refine ⟨hall, fun _ => ⟨Bool.not_eq_true _ ▸ hskip.1, fun i hi => ?_⟩⟩
          rw [← hsame, ← hv]
          exact hskip.2 i (hlen.symm ▸ hi)
        · exact .inr (hsent hskip)
      · refine .inr (hsent ?_)
        rintro ⟨hforce, hblock⟩
        refine (hm.2 hv).elim hforce fun hnz => hnz fun i hi => ?_
        rw [← hblock i hi, hv]
        exact hz i (hlen ▸ hi)
    · have hfilter : (updateTable q v).2.filter (·.tbl = t) = q.2.filter (·.tbl = t) := by
        rw [updateTable]
        split_ifs <;> simp [hv]
      have hstored : (updateTable q v).1 t = q.1 t := by
        rw [updateTable]
        split_ifs
        · rfl
        · exact Function.update_of_ne (Ne.symm hv) _ _
      have hus : (us ++ [v]).filter (·.tbl = t) = us.filter (·.tbl = t) := by simp [hv]
      rw [hfilter, hstored, hus]
      refine ih.imp_left fun ⟨hnone, hsame, hall⟩ => ⟨hnone, hsame, ?_⟩
      rw [List.forall_mem_append, List.forall_mem_singleton]
      exact ⟨hall, fun h => absurd h hv⟩

lemma mem_of_mem_foldl {u : Update N} (h : u ∈ (us.foldl updateTable (st, [])).2) : u ∈ us := by
  induction us using List.reverseRecOn with
  | nil => simp at h
  | append_singleton us v ih =>
    rw [List.foldl_append, List.foldl_cons, List.foldl_nil, updateTable] at h
    split_ifs at h
    · exact List.mem_append_left _ (ih h)
    · rcases List.mem_append.mp h with h | h
      · exact List.mem_append_left _ (ih h)
      · exact List.mem_append_right _ h

end Queue

section Deliver

variable {t : Tbl N} {q : List (Update N)} {s : Tables N} {answered : ℕ → Bool}

lemma answer_of_ne {m : Mad N} {t' : Tbl N} (hm : tblOf F m = some t') (h : t' ≠ t) :
    (answer F s m).hw t = s.hw t ∧ (answer F s m).stored t = s.stored t := by
  simp only [answer, hm]
  exact ⟨Function.update_of_ne h.symm _ _, Function.update_of_ne h.symm _ _⟩

lemma answer_self {m : Mad N} (hm : tblOf F m = some t) :
    (answer F s m).hw t = m.block ∧ (answer F s m).stored t = m.block := by
  simp only [answer, hm]
  exact ⟨Function.update_self _ _ _, Function.update_self _ _ _⟩

lemma deliver_snoc (q : List (Update N)) (u : Update N) :
    deliver F answered s (q ++ [u]) =
      if answered q.length then answer F (deliver F answered s q) u.mad else deliver F answered s q := by
  simp [deliver, List.zipIdx_append]

lemma deliver_all (hq : ∀ u ∈ q, tblOf F u.mad = some u.tbl) (ha : ∀ i, answered i = true) :
    ((deliver F answered s q).hw t = (((q.filter (·.tbl = t)).getLast?).map (·.mad.block)).getD (s.hw t)) ∧
      (deliver F answered s q).stored t = (((q.filter (·.tbl = t)).getLast?).map (·.mad.block)).getD
          (s.stored t) := by
  induction q using List.reverseRecOn with
  | nil => exact ⟨rfl, rfl⟩
  | append_singleton q u ih =>
    rw [List.forall_mem_append, List.forall_mem_singleton] at hq
    rw [deliver_snoc, if_pos (ha _)]
    by_cases hu : u.tbl = t
    · have hself := answer_self F (s := deliver F answered s q) (hu ▸ hq.2)
      simpa [List.filter_append, hu] using hself
    · have hother := answer_of_ne F (s := deliver F answered s q) hq.2 hu
      rw [hother.1, hother.2]
      simpa [List.filter_append, hu] using ih hq.1

lemma deliver_lost (hq : ∀ u ∈ q, tblOf F u.mad = some u.tbl)
    (hl : ∀ y ∈ q.zipIdx, y.1.tbl = t → answered y.2 = false) :
    (deliver F answered s q).hw t = s.hw t ∧ (deliver F answered s q).stored t = s.stored t := by
  induction q using List.reverseRecOn with
  | nil => exact ⟨rfl, rfl⟩
  | append_singleton q u ih =>
    rw [List.forall_mem_append, List.forall_mem_singleton] at hq
    simp only [List.zipIdx_append, List.forall_mem_append, Nat.zero_add] at hl
    have ih := ih hq.1 hl.1
    rw [deliver_snoc]
    by_cases hu : u.tbl = t
    · have hlost := hl.2 (u, q.length) (by simp) hu
      dsimp only at hlost
      rwa [hlost, if_neg Bool.false_ne_true]
    · split_ifs
      · have hother := answer_of_ne F (s := deliver F answered s q) hq.2 hu
        rwa [hother.1, hother.2]
      · exact ih

lemma deliver_same (hq : ∀ u ∈ q, tblOf F u.mad = some u.tbl) :
    ((deliver F answered s q).hw t = s.hw t ∧ (deliver F answered s q).stored t = s.stored t) ∨
      (deliver F answered s q).stored t = (deliver F answered s q).hw t := by
  induction q using List.reverseRecOn with
  | nil => exact .inl ⟨rfl, rfl⟩
  | append_singleton q u ih =>
    rw [List.forall_mem_append, List.forall_mem_singleton] at hq
    have ih := ih hq.1
    rw [deliver_snoc]
    split_ifs
    · by_cases hu : u.tbl = t
      · have hself := answer_self F (s := deliver F answered s q) (hu ▸ hq.2)
        exact .inr (hself.2.trans hself.1.symm)
      · have hother := answer_of_ne F (s := deliver F answered s q) hq.2 hu
        rwa [hother.1, hother.2]
    · exact ih

end Deliver

section Turns

def CopyOrZeros (s : Tables N) : Prop := ∀ t, s.stored t = s.hw t ∨ Zeros (tblLen F t) (s.stored t)

variable {F} {x y : Turn N} {s : Tables N}

lemma sent_mem {u : Update N} (h : u ∈ sent F x) : u ∈ updates F x.2.1 := mem_of_mem_foldl h

lemma sent_tblOf : ∀ u ∈ sent F x, tblOf F u.mad = some u.tbl :=
  fun _ hu => (updates_proper F _ (sent_mem hu)).tblOf

omit [DecidableEq N] in
lemma updates_len (r : Round N) (t : Tbl N) : ∀ u ∈ updates F r, u.tbl = t → u.len = tblLen F t :=
  fun _ hu ht => ht ▸ (updates_proper F r hu).len

lemma roundStep_eq (h : roundStep F x.1 x.2 = some s) :
    s = deliver F x.2.2 { x.1 with stored := (osmQosSetup F x.2.1 x.1.stored).1 } (sent F x) :=
  (Option.some.inj h).symm

lemma marked_cases (hm : Marked F x.2.1) (t : Tbl N) :
    ((sent F x).filter (·.tbl = t) = [] ∧ (osmQosSetup F x.2.1 x.1.stored).1 t = x.1.stored t ∧
        ∀ u ∈ updates F x.2.1, u.tbl = t → u.force = false ∧ ∀ i < tblLen F t, x.1.stored t i = u.mad.block i) ∨
      ((sent F x).filter (·.tbl = t) ≠ [] ∧ Zeros (tblLen F t) ((osmQosSetup F x.2.1 x.1.stored).1 t) ∧
        ((sent F x).filter (·.tbl = t)).getLast? = ((updates F x.2.1).filter (·.tbl = t)).getLast?) :=
  foldl_updateTable_marked (updates_len _ t) fun u hu _ => hm u hu

lemma copyOrZeros_step (h : CopyOrZeros F x.1) (hm : Marked F x.2.1) (hs : roundStep F x.1 x.2 = some s) :
    CopyOrZeros F s := by
  intro t
  rw [roundStep_eq hs]
  rcases deliver_same F (t := t) (sent_tblOf (F := F) (x := x)) with ⟨hhw, hstored⟩ | hsame
  · rw [hhw, hstored]
    rcases marked_cases hm t with ⟨-, hsame, -⟩ | ⟨-, hz, -⟩
    · exact (h t).imp hsame.trans fun hz i hi => (congrFun hsame i).trans (hz i hi)
    · exact .inr hz
  · exact .inl hsame

lemma inHardware_step (h : CopyOrZeros F x.1) (hm : Marked F x.2.1) (ha : ∀ i, x.2.2 i = true)
    (hs : roundStep F x.1 x.2 = some s) : InHardware F x.2.1 s := by
  intro t u hu i hi
  have hmem := List.mem_filter.mp (List.mem_of_getLast? hu)
  have ht : u.tbl = t := by simpa using hmem.2
  rw [updates_len _ t u hmem.1 ht] at hi
  rw [roundStep_eq hs, (deliver_all F (t := t) (sent_tblOf (F := F) (x := x)) ha).1]
  rcases marked_cases hm t with ⟨hnone, -, hall⟩ | ⟨-, -, hlast⟩
  · obtain ⟨hforce, hblock⟩ := hall u hmem.1 ht
    have hcopy : x.1.stored t = x.1.hw t := by
      refine (h t).resolve_right fun hz => ?_
      refine (hm u hmem.1).elim (fun hf => by simp [hf] at hforce) fun hnz => hnz fun j hj => ?_
      rw [updates_len _ t u hmem.1 ht] at hj
      rw [← hblock j hj]
      exact hz j hj
    rw [hnone, ← hblock i hi, hcopy]
    rfl
  · rw [hlast, hu]
    rfl

lemma sentAgain_step (hm : Marked F x.2.1) (hy : Marked F y.2.1) (hs : roundStep F x.1 x.2 = some y.1) :
    SentAgain F x y := by
  intro u hu u' hu' ⟨⟨v, hv, hvt⟩, hlost⟩ ht hblock
  have hz : Zeros (tblLen F u.tbl) (y.1.stored u.tbl) := by
    rw [roundStep_eq hs, (deliver_lost F (sent_tblOf (F := F) (x := x)) hlost).2]
    rcases marked_cases hm u.tbl with ⟨hnone, -, -⟩ | ⟨-, hz, -⟩
    · have hmem : v ∈ (sent F x).filter (·.tbl = u.tbl) := List.mem_filter.mpr ⟨hv, by simpa using hvt⟩
      rw [hnone] at hmem
      exact absurd hmem List.not_mem_nil
    · exact hz
  exact ((foldl_updateTable_zeros (updates_len _ u.tbl) hz).2 u' ht).mpr ⟨hu', hy u' hu'⟩

end Turns

section Runs

variable {F} {s₀ s : Tables N} {l : List (Turn N)}

lemma run_copyOrZeros (h₀ : s₀.stored = s₀.hw) (h : Run (roundStep F) s₀ l s) (hm : ∀ x ∈ l, Marked F x.2.1) :
    CopyOrZeros F s := by
  induction h with
  | nil => exact fun t => .inl (congrFun h₀ t)
  | snoc _ ha ih =>
    rw [List.forall_mem_append, List.forall_mem_singleton] at hm
    exact copyOrZeros_step (ih hm.1) hm.2 ha

/-- While no round computes a table of zeros without `need_update`, what is lost is sent again, and a round
without loss has all its tables in hardware. -/
theorem run_sentAgain (h₀ : s₀.stored = s₀.hw) (h : Run (roundStep F) s₀ l s) (hm : ∀ x ∈ l, Marked F x.2.1) :
    (∀ l₁ x y l₂, l = l₁ ++ x :: y :: l₂ → SentAgain F x y) ∧
      ∀ x ∈ l, (∀ i, x.2.2 i = true) → ∀ s', roundStep F x.1 x.2 = some s' → InHardware F x.2.1 s' := by
  refine ⟨?_, fun x hx ha s' hs => ?_⟩
  · rintro l₁ x y l₂ rfl
    obtain ⟨-, s', hs, hy⟩ := h.split
    refine sentAgain_step (hm x (by simp)) (hm y (by simp)) (hs.trans ?_)
    rw [hy y rfl]
  · obtain ⟨l₁, l₂, rfl⟩ := List.append_of_mem hx
    have hcopy := run_copyOrZeros h₀ h.split.1 fun y hy => hm y (List.mem_append_left _ hy)
    exact inHardware_step hcopy (hm x hx) ha hs

end Runs

section Sample

def caFabric : Fabric Unit where
  portGuidTbl := [⟨(), 1⟩]
  isSwitch _ := false
  isRouter _ := false
  enhancedPort0 _ := false
  numPhysp _ := 2
  valid _ := true
  vlCap _ := 4
  vlArbLowCap _ := 8
  vlArbHighCap _ := 8
  hasSlMap _ := true
  numPhysp_le _ := by decide
  switchPort _ _ h := absurd h Bool.false_ne_true

def sampleConfig : QosConfig where
  vlHighLimit := 0
  vlarbHigh _ i := (i, 4)
  vlarbLow _ i := (i, 4)
  sl2vl i := if i = 7 then (14, 7) else (2 * i, 2 * i + 1)

def sampleRound (opVls : ℕ) : Round Unit where
  caConfig := sampleConfig
  sw0Config := sampleConfig
  sweConfig := sampleConfig
  rtrConfig := sampleConfig
  opVls _ := opVls
  linkDown _ := false
  needUpdate _ := false
  subnNeedUpdate := false
  routingEngineUsed := none

def sampleTables : Tables Unit := ⟨fun _ _ => (1, 1), fun _ _ => (1, 1)⟩

theorem run_sentAgain_sample :
    let l := trace (roundStep caFabric) sampleTables [(sampleRound 4, fun _ => false),
        (sampleRound 4, fun _ => true)]
    (∀ l₁ x y l₂, l = l₁ ++ x :: y :: l₂ → SentAgain caFabric x y) ∧
      ∀ x ∈ l, (∀ i, x.2.2 i = true) → ∀ s', roundStep caFabric x.1 x.2 = some s' →
          InHardware caFabric x.2.1 s' := by
  have hmark : Marked caFabric (sampleRound 4) := by decide
  have hrun : Run (roundStep caFabric) sampleTables _ _ :=
    Run.nil.append [(sampleRound 4, fun _ => false), (sampleRound 4, fun _ => true)] rfl
  refine run_sentAgain rfl hrun ?_
  simp only [trace, roundStep, Option.elim]
  rintro x (_ | ⟨_, _ | ⟨_, hx⟩⟩)
  · exact hmark
  · exact hmark
  · cases hx

end Sample

section Forced

variable (r : Round N)

/-- The same round under `need_update`. -/
def forced : Round N := { r with subnNeedUpdate := true }

def Update.forced (u : Update N) : Update N := { u with force := true }

omit [DecidableEq N] in
lemma forceUpdate_forced (p : Physp N) : forceUpdate (forced r) p = true := Bool.or_true _

omit [DecidableEq N] in
lemma vlarbUpdate_forced (p : Physp N) (portNum : ℕ) (cfg : QosConfig) :
    vlarbUpdate F (forced r) p portNum cfg = (vlarbUpdate F r p portNum cfg).map Update.forced := by
  have hblock : ∀ table len b, vlarbUpdateTableBlock (forced r) p portNum table len b =
      (vlarbUpdateTableBlock r p portNum table len b).forced := by
    intro table len b
    unfold vlarbUpdateTableBlock
    rw [forceUpdate_forced]
    rfl
  simp only [vlarbUpdate, hblock, apply_ite (List.map Update.forced), List.map_append,
      List.map_singleton, List.map_nil]

omit [DecidableEq N] in
lemma sl2vlUpdateTable_forced (p : Physp N) (inPort attrMod : ℕ) (sl2vl : Block) :
    sl2vlUpdateTable (forced r) p inPort attrMod sl2vl = (sl2vlUpdateTable r p inPort attrMod sl2vl).forced := by
  unfold sl2vlUpdateTable
  rw [forceUpdate_forced]
  rfl

omit [DecidableEq N] in
lemma qosEndportSetup_forced (p : Physp N) (cfg : QosConfig) :
    qosEndportSetup F (forced r) p cfg = (qosEndportSetup F r p cfg).map Update.forced := by
  simp only [qosEndportSetup, vlarbUpdate_forced, sl2vlUpdateTable_forced, apply_ite (List.map Update.forced),
    List.map_append, List.map_singleton, List.map_nil]
  rfl

omit [DecidableEq N] in
lemma qosExtportsSetup_forced (n : N) (cfg : QosConfig) :
    qosExtportsSetup F (forced r) n cfg = (qosExtportsSetup F r n cfg).map Update.forced := by
  simp only [qosExtportsSetup, vlarbUpdate_forced, sl2vlUpdateTable_forced, apply_ite (List.map Update.forced),
    List.map_append, List.map_flatMap, List.map_map, List.map_nil]
  rfl

omit [DecidableEq N] in
lemma updates_forced : updates F (forced r) = (updates F r).map Update.forced := by
  have hport : ∀ p, portSetup F (forced r) p = (portSetup F r p).map Update.forced := by
    intro p
    simp only [portSetup, qosExtportsSetup_forced, qosEndportSetup_forced, apply_ite (List.map Update.forced),
      List.map_append, List.map_nil]
    rfl
  rw [updates, updates, List.map_flatMap]
  exact congrArg List.flatten (List.map_congr_left fun p _ => hport p)

omit [DecidableEq N] in
lemma marked_forced : Marked F (forced r) := by
  intro u hu
  rw [updates_forced] at hu
  obtain ⟨v, -, rfl⟩ := List.mem_map.mp hu
  exact .inl rfl

/-- A table of zeros that a round computes without `need_update` is not sent after it was lost. -/
theorem not_sentAgain_of_not_marked (h : ¬Marked F r) (s : Tables N) :
    ∃ x y : Turn N, Run (roundStep F) s [x] y.1 ∧ x.1 = s ∧ x.2.1 = forced r ∧ y.2.1 = r ∧ ¬SentAgain F x y := by
  simp only [Marked, not_forall] at h
  obtain ⟨u, hu, hmark⟩ := h
  let x : Turn N := (s, forced r, fun _ => false)
  have hs : ∃ s', roundStep F x.1 x.2 = some s' := ⟨_, rfl⟩
  obtain ⟨s', hs⟩ := hs
  refine ⟨x, (s', r, fun _ => true), Run.nil.snoc hs, rfl, rfl, rfl, fun hagain => ?_⟩
  have huf : u.forced ∈ updates F (forced r) := by
    rw [updates_forced]
    exact List.mem_map_of_mem hu
  have hsent : (sent F x).filter (·.tbl = u.tbl) ≠ [] ∧
      Zeros (tblLen F u.tbl) ((osmQosSetup F x.2.1 x.1.stored).1 u.tbl) := by
    rcases marked_cases (x := x) (marked_forced F r) u.tbl with ⟨-, -, hall⟩ | ⟨hne, hz, -⟩
    · exact absurd (hall u.forced huf rfl).1 (by simp [Update.forced])
    · exact ⟨hne, hz⟩
  have hlost : Lost F x u.tbl := by
    refine ⟨?_, fun _ _ _ => rfl⟩
    obtain ⟨v, hv⟩ := List.exists_mem_of_ne_nil _ hsent.1
    obtain ⟨hv, ht⟩ := List.mem_filter.mp hv
    exact ⟨v, hv, by simpa using ht⟩
  have hz : Zeros (tblLen F u.tbl) (s'.stored u.tbl) := by
    rw [roundStep_eq hs, (deliver_lost F (sent_tblOf (F := F) (x := x)) hlost.2).2]
    exact hsent.2
  have hmem := hagain u.forced huf u hu (show Lost F x u.forced.tbl from hlost) rfl rfl
  exact hmark (((foldl_updateTable_zeros (updates_len r u.tbl) hz).2 u rfl).mp hmem).2

end Forced

section Sample

/-- With one operational VL the default SL2VL table is all zeros. It is lost, and not sent again. -/
theorem default_sl2vl_not_sentAgain :
    ∃ (l : List (Turn Unit)) (s : Tables Unit), Run (roundStep caFabric) sampleTables l s ∧
      ∃ l₁ x y l₂, l = l₁ ++ x :: y :: l₂ ∧ ¬SentAgain caFabric x y := by
  have hmark : ¬Marked caFabric (sampleRound 1) := by decide
  obtain ⟨x, y, hrun, -, -, -, hno⟩ := not_sentAgain_of_not_marked caFabric (sampleRound 1) hmark sampleTables
  exact ⟨[x, y], _, hrun.snoc (a := y.2) rfl, [], x, y, [], rfl, hno⟩

end Sample

end OpenSM.Qos
