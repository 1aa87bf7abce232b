import Mathlib
import OpenSM.QosRetry

/-! `qos_extports_setup` with optimized SL2VL programming: one MAD for all ports of a switch, and one more for
each port with another number of operational VLs. -/

namespace OpenSM.Qos

variable {N : Type} [DecidableEq N] (F : Fabric N) (r : Round N)

/-- `opt_sl2vlmapping` of the switch, the option, and `need_update` of the switch. -/
structure SlvlOptions where
  optSl2vlmapping : Bool
  useOptimizedSlvl : Bool
  swNeedUpdate : Bool

structure OpVlCount where
  opVlArr : ℕ → ℕ
  maxNum : ℕ
  commonOpVl : ℕ
  p0 : Option ℕ

def upPorts (n : N) : List ℕ := (List.range' 1 (F.numPhysp n - 1)).filter (configured F r n)

def countOpVl (n : N) (c : OpVlCount) (out : ℕ) : OpVlCount :=
  let opVl := r.opVls ⟨n, out⟩
  let opVlArr := Function.update c.opVlArr opVl (c.opVlArr opVl + 1)
  if c.maxNum < opVlArr opVl then ⟨opVlArr, opVlArr opVl, opVl, some out⟩ else { c with opVlArr := opVlArr }

/-- The number of operational VLs that most ports have, and the port that remembers it. -/
def majority (n : N) : OpVlCount :=
  (upPorts F r n).foldl (countOpVl r n)
    ⟨fun _ => 0, 0, 0, if 1 < F.numPhysp n ∧ F.valid ⟨n, 1⟩ = true then some 1 else none⟩

def exceptions (n : N) (cfg : QosConfig) (commonOpVl : ℕ) (force : Bool) : List ℕ → List (Update N)
  | [] => []
  | out :: outs =>
    let force := r.needUpdate ⟨n, out⟩ || force
    let rest := exceptions n cfg commonOpVl force outs
    if r.opVls ⟨n, out⟩ ≠ commonOpVl then
      { sl2vlUpdateTable r ⟨n, out⟩ out (2 ^ 17 + out) cfg.sl2vl with force := force } :: rest
    else rest

def sl2vlOptimized (o : SlvlOptions) (n : N) (cfg : QosConfig) : List (Update N) :=
  let c := majority F r n
  match c.p0 with
  | none => []
  | some p0 =>
    let force := o.swNeedUpdate || r.subnNeedUpdate
    { sl2vlUpdateTable r ⟨n, p0⟩ p0 (3 * 2 ^ 16) cfg.sl2vl with force := force } ::
      exceptions r n cfg c.commonOpVl force (upPorts F r n)

def optimized (o : SlvlOptions) (n : N) : Bool :=
  match r.routingEngineUsed with
  | none => false
  | some re => F.hasSlMap ⟨n, 0⟩ && o.optSl2vlmapping && o.useOptimizedSlvl && re.updateSl2vl.isNone

def qosExtportsSetupSlvl (o : SlvlOptions) (n : N) (cfg : QosConfig) : List (Update N) :=
  if optimized F r o n then
    ((upPorts F r n).flatMap fun out => vlarbUpdate F r ⟨n, out⟩ out cfg) ++ sl2vlOptimized F r o n cfg
  else qosExtportsSetup F r n cfg

def firstPort (n : N) : ℕ := if F.enhancedPort0 n then 0 else 1

/-- The tables that a MAD to a switch is about: `startoutport` to `endoutport`, `startinport` to `endinport`. -/
def Covers (m : Mad N) : Tbl N → Prop
  | .vlArb _ _ => False
  | .slvl p inPort =>
    let numPorts := F.numPhysp m.port.node - 1
    let allOut := m.attrMod / 2 ^ 16 % 2 = 1
    let allIn := m.attrMod / 2 ^ 17 % 2 = 1
    let startoutport := if allOut then firstPort F m.port.node else m.attrMod % 2 ^ 8
    let endoutport := if allOut then numPorts else m.attrMod % 2 ^ 8
    let startinport := if allIn then firstPort F m.port.node else m.attrMod / 2 ^ 8 % 2 ^ 8
    let endinport := if allIn then numPorts else m.attrMod / 2 ^ 8 % 2 ^ 8
    p.node = m.port.node ∧ ¬(numPorts < startinport ∨ numPorts < startoutport) ∧
      startoutport ≤ p.portNum ∧ p.portNum ≤ endoutport ∧ startinport ≤ inPort ∧ inPort ≤ endinport

instance (m : Mad N) (t : Tbl N) : Decidable (Covers F m t) :=
  match t with
  | .vlArb _ _ => inferInstanceAs (Decidable False)
  | .slvl _ _ => inferInstanceAs (Decidable (_ ∧ ¬_ ∧ _ ∧ _ ∧ _ ∧ _))

/-- The switch takes the tables and `osm_slvl_rcv_process` stores them. -/
def slvlRcvProcess (s : Tables N) (m : Mad N) : Tables N :=
  if m.attrId = .slvlTable ∧ F.isSwitch m.port.node = true then
    ⟨fun t => if Covers F m t then m.block else s.stored t, fun t => if Covers F m t then m.block else s.hw t⟩
  else answer F s m

def extportsRound (o : SlvlOptions) (n : N) (cfg : QosConfig) (s : Tables N) : Tables N :=
  let q := (qosExtportsSetupSlvl F r o n cfg).foldl updateTable (s.stored, [])
  q.2.foldl (fun s u => slvlRcvProcess F s u.mad) { s with stored := q.1 }

def tableFor (n : N) (cfg : QosConfig) (out : ℕ) : Block := (sl2vlUpdateTable r ⟨n, out⟩ out 0 cfg.sl2vl).mad.block

def SameTable (b b' : Block) : Prop := ∀ i < 8, b i = b' i

instance (b b' : Block) : Decidable (SameTable b b') := inferInstanceAs (Decidable (∀ i < 8, b i = b' i))

/-- `force_update` when the exception of a port is considered. -/
def forcedAt (o : SlvlOptions) (n : N) (out : ℕ) : Bool :=
  ((upPorts F r n).filter (· ≤ out)).any (fun p => r.needUpdate ⟨n, p⟩) || (o.swNeedUpdate || r.subnNeedUpdate)

/-- The update that `sl2vl_update_table` makes of the entry of a port for itself is sent. -/
def Due (n : N) (cfg : QosConfig) (s : Tables N) (force : Bool) (out : ℕ) : Prop :=
  force = true ∨ ¬SameTable (s.stored (.slvl ⟨n, out⟩ out)) (tableFor r n cfg out)

instance (n : N) (cfg : QosConfig) (s : Tables N) (force : Bool) (out : ℕ) : Decidable (Due r n cfg s force out) :=
  inferInstanceAs (Decidable (_ ∨ ¬_))

/-- A port that differs from the common table has its exception sent. A port without one has the common
table if that is sent to all, and else has its table already. -/
def Agrees (o : SlvlOptions) (n : N) (cfg : QosConfig) (s : Tables N) : Prop :=
  ∀ p0, (majority F r n).p0 = some p0 → ∀ out ∈ upPorts F r n,
    r.opVls ⟨n, out⟩ ≠ (majority F r n).commonOpVl ∧ Due r n cfg s (forcedAt F r o n out) out ∨
    if Due r n cfg s (o.swNeedUpdate || r.subnNeedUpdate) p0 then
      SameTable (tableFor r n cfg p0) (tableFor r n cfg out)
    else ∀ inPort, 1 ≤ inPort → inPort < F.numPhysp n →
      SameTable (s.hw (.slvl ⟨n, out⟩ inPort)) (tableFor r n cfg out)

section Queue

variable {t : Tbl N} {us : List (Update N)} {st : Tbl N → Block} {q : List (Update N)}

def Update.Sends (st : Tbl N → Block) (u : Update N) : Prop :=
  u.force = true ∨ ¬∀ i < u.len, st u.tbl i = u.mad.block i

instance (st : Tbl N → Block) (u : Update N) : Decidable (u.Sends st) := inferInstanceAs (Decidable (_ ∨ ¬_))

lemma updateTable_eq (u : Update N) :
    updateTable (st, q) u =
      if u.Sends st then (Function.update st u.tbl (zeroTo u.len (st u.tbl)), q ++ [u]) else (st, q) := by
  by_cases h : u.Sends st
  · rw [updateTable, if_pos h, if_neg]
    rintro ⟨hf, hb⟩
    exact h.elim hf fun hn => hn hb
  · rw [updateTable, if_neg h, if_pos]
    exact ⟨fun hf => h (Or.inl hf), not_not.mp fun hn => h (Or.inr hn)⟩

lemma foldl_updateTable_frame (h : ∀ u ∈ us, u.tbl ≠ t) : (us.foldl updateTable (st, q)).1 t = st t := by
  induction us generalizing st q with
  | nil => rfl
  | cons u us ih =>
    obtain ⟨hu, hus⟩ := List.forall_mem_cons.mp h
    rw [List.foldl_cons, updateTable_eq]
    split_ifs
    · exact (ih hus).trans (Function.update_of_ne (Ne.symm hu) _ _)
    · exact ih hus

lemma filter_sends_update {u : Update N} {b : Block} (h : u.tbl ∉ us.map Update.tbl) :
    us.filter (fun v => v.Sends (Function.update st u.tbl b)) = us.filter fun v => v.Sends st := by
  apply List.filter_congr
  intro v hv
  have hne : v.tbl ≠ u.tbl := fun he => h (he ▸ List.mem_map_of_mem hv)
  simp [Update.Sends, Function.update_of_ne hne]

lemma foldl_updateTable_nodup (h : (us.map Update.tbl).Nodup) :
    (us.foldl updateTable (st, q)).2 = q ++ us.filter fun u => u.Sends st := by
  induction us generalizing st q with
  | nil => exact (List.append_nil q).symm
  | cons u us ih =>
    rw [List.map_cons, List.nodup_cons] at h
    rw [List.foldl_cons, updateTable_eq]
    split_ifs with hu
    · rw [ih h.2, filter_sends_update h.1, List.filter_cons_of_pos (by simpa using hu), List.append_assoc]
      rfl
    · rw [ih h.2, List.filter_cons_of_neg (by simpa using hu)]

lemma filter_tbl_eq (h : (us.map Update.tbl).Nodup) {u : Update N} (hu : u ∈ us) :
    us.filter (fun v => v.tbl = u.tbl) = [u] := by
  induction us with
  | nil => exact absurd hu List.not_mem_nil
  | cons v us ih =>
    rw [List.map_cons, List.nodup_cons] at h
    rcases List.mem_cons.mp hu with rfl | hu
    · rw [List.filter_cons_of_pos (by simp), List.filter_eq_nil_iff.mpr]
      intro w hw
      simpa using fun he : w.tbl = u.tbl => h.1 (he ▸ List.mem_map_of_mem hw)
    · rw [List.filter_cons_of_neg, ih h.2 hu]
      simpa using fun he : v.tbl = u.tbl => h.1 (he ▸ List.mem_map_of_mem hu)

end Queue

section Delivery

variable {t : Tbl N} {s : Tables N} {n : N}

lemma foldl_slvlRcvProcess (q : List (Update N))
    (hq : ∀ u ∈ q, u.mad.attrId = .slvlTable ∧ F.isSwitch u.mad.port.node = true) :
    (q.foldl (fun s u => slvlRcvProcess F s u.mad) s).hw t =
      (((q.filter (fun u => Covers F u.mad t)).getLast?).map (·.mad.block)).getD (s.hw t) := by
  induction q using List.reverseRecOn with
  | nil => rfl
  | append_singleton q u ih =>
    rw [List.forall_mem_append, List.forall_mem_singleton] at hq
    rw [List.foldl_append, List.foldl_cons, List.foldl_nil, slvlRcvProcess, if_pos hq.2, List.filter_append]
    by_cases hc : Covers F u.mad t
    · simp [hc]
    · simp [hc, ih hq.1]

lemma foldl_slvlRcvProcess_vlArb {p : Physp N} {inPort : ℕ} (q : List (Update N))
    (hq : ∀ u ∈ q, u.mad.attrId = .vlArbitration) :
    (q.foldl (fun s u => slvlRcvProcess F s u.mad) s).hw (.slvl p inPort) = s.hw (.slvl p inPort) := by
  induction q generalizing s with
  | nil => rfl
  | cons u q ih =>
    obtain ⟨hu, hq⟩ := List.forall_mem_cons.mp hq
    rw [List.foldl_cons, ih hq, slvlRcvProcess, if_neg (by simp [hu])]
    cases ht : tblOf F u.mad with
    | none => simp [answer, ht]
    | some t' =>
      apply (answer_of_ne F ht _).1
      rintro rfl
      simp only [tblOf, hu] at ht
      split_ifs at ht
      all_goals cases ht

omit [DecidableEq N] in
lemma vlarbUpdate_vlArb {p : Physp N} {portNum : ℕ} {cfg : QosConfig} {u : Update N}
    (h : u ∈ vlarbUpdate F r p portNum cfg) : u.mad.attrId = .vlArbitration ∧ ∃ q b, u.tbl = .vlArb q b := by
  have hone : ∀ table len b, u = vlarbUpdateTableBlock r p portNum table len b →
      u.mad.attrId = .vlArbitration ∧ ∃ q b, u.tbl = .vlArb q b := by
    rintro table len b rfl
    exact ⟨rfl, p, b, rfl⟩
  by_cases hcap : F.vlCap p = 1
  · rw [vlarbUpdate, if_pos hcap] at h
    exact absurd h List.not_mem_nil
  rw [vlarbUpdate, if_neg hcap] at h
  simp only [List.mem_append, List.mem_ite_nil_right, List.mem_singleton] at h
  rcases h with ((⟨-, h⟩ | ⟨-, h⟩) | ⟨-, h⟩) | ⟨-, h⟩ <;> exact hone _ _ _ h

/-- After the MADs for VL arbitration, the SL2VL tables are decided by the MADs about them, each of which is
sent by the copies of before. -/
lemma extports_hw {n : N} {cfg : QosConfig} {us : List (Update N)} {p : Physp N} {inPort : ℕ}
    (hus : ∀ u ∈ us, (u.mad.attrId = .slvlTable ∧ F.isSwitch u.mad.port.node = true) ∧ ∃ q b, u.tbl = .slvl q b)
    (hnd : (us.map Update.tbl).Nodup) (s : Tables N) :
    let q := (((upPorts F r n).flatMap fun out => vlarbUpdate F r ⟨n, out⟩ out cfg) ++ us).foldl
      updateTable (s.stored, [])
    (q.2.foldl (fun s u => slvlRcvProcess F s u.mad) { s with stored := q.1 }).hw (.slvl p inPort) =
      ((((us.filter fun u => u.Sends s.stored).filter fun u => Covers F u.mad (.slvl p inPort)).getLast?).map
        (·.mad.block)).getD (s.hw (.slvl p inPort)) := by
  have hvs : ∀ u ∈ (upPorts F r n).flatMap fun out => vlarbUpdate F r ⟨n, out⟩ out cfg,
      u.mad.attrId = .vlArbitration ∧ ∃ q b, u.tbl = .vlArb q b := by
    intro u hu
    obtain ⟨out, -, hu⟩ := List.mem_flatMap.mp hu
    exact vlarbUpdate_vlArb F r hu
  generalize (upPorts F r n).flatMap (fun out => vlarbUpdate F r ⟨n, out⟩ out cfg) = vs at hvs ⊢
  have hvq : ∀ u ∈ (vs.foldl updateTable (s.stored, [])).2, u.mad.attrId = .vlArbitration :=
    fun u hu => (hvs u (mem_of_mem_foldl hu)).1
  have hst : ∀ q b, (vs.foldl updateTable (s.stored, [])).1 (.slvl q b) = s.stored (.slvl q b) := by
    intro q b
    apply foldl_updateTable_frame
    intro u hu he
    obtain ⟨-, q', b', hu⟩ := hvs u hu
    exact absurd (hu.symm.trans he) nofun
  have hsends : (us.filter fun u => u.Sends (vs.foldl updateTable (s.stored, [])).1) =
      us.filter fun u => u.Sends s.stored := by
    apply List.filter_congr
    intro u hu
    obtain ⟨-, q, b, hu⟩ := hus u hu
    simp only [Update.Sends, hu, hst]
  have hmem : ∀ u ∈ us.filter fun u => u.Sends s.stored, u.mad.attrId = .slvlTable ∧
      F.isSwitch u.mad.port.node = true :=
    fun u hu => (hus u (List.mem_of_mem_filter hu)).1
  dsimp only
  rw [List.foldl_append]
  generalize hq : vs.foldl updateTable (s.stored, []) = q at hvq hsends
  obtain ⟨st, q⟩ := q
  rw [foldl_updateTable_nodup hnd, hsends, List.foldl_append, foldl_slvlRcvProcess F _ hmem,
    foldl_slvlRcvProcess_vlArb F q hvq]

end Delivery

section Plain

variable {n : N} {cfg : QosConfig} {s : Tables N} {out inPort : ℕ}

/-- The SL2VL updates without optimized programming, when no hook changes the table. -/
def sl2vlPlain (n : N) (cfg : QosConfig) : List (Update N) :=
  let first := if F.enhancedPort0 n then 0 else 1
  ((List.range' first (F.numPhysp n - first)).filter (configured F r n)).flatMap fun out =>
    (List.range (F.numPhysp n)).map fun inPort => sl2vlUpdateTable r ⟨n,
        out⟩ inPort (inPort * 2 ^ 8 + out) cfg.sl2vl

variable {F r}

omit [DecidableEq N] in
lemma qosExtportsSetup_eq {re : RoutingEngine N} (hre : r.routingEngineUsed = some re)
    (hhook : re.updateSl2vl = none) :
    qosExtportsSetup F r n cfg = ((upPorts F r n).flatMap fun out => vlarbUpdate F r ⟨n, out⟩ out cfg) ++
      if F.hasSlMap ⟨n, 0⟩ then sl2vlPlain F r n cfg else [] := by
  simp [qosExtportsSetup, hre, routingSl2vl, hhook, sl2vlPlain, upPorts]

omit [DecidableEq N] in
lemma mem_upPorts : out ∈ upPorts F r n ↔ (1 ≤ out ∧ out < F.numPhysp n) ∧ configured F r n out = true := by
  rw [upPorts, List.mem_filter, List.mem_range'_1]
  refine and_congr_left' ?_
  omega

omit [DecidableEq N] in
lemma upPorts_sorted : (upPorts F r n).Pairwise (· < ·) := List.Pairwise.filter _ List.pairwise_lt_range'

omit [DecidableEq N] in
lemma mem_sl2vlPlain {u : Update N} : u ∈ sl2vlPlain F r n cfg →
    ∃ out inPort, out < F.numPhysp n ∧ inPort < F.numPhysp n ∧
      u = sl2vlUpdateTable r ⟨n, out⟩ inPort (inPort * 2 ^ 8 + out) cfg.sl2vl := by
  simp only [sl2vlPlain, List.mem_flatMap, List.mem_filter, List.mem_range'_1, List.mem_map, List.mem_range]
  rintro ⟨out, ⟨hout, -⟩, inPort, hin, rfl⟩
  refine ⟨out, inPort, ?_, hin, rfl⟩
  split_ifs at hout <;> omega

omit [DecidableEq N] in
lemma sl2vlPlain_nodup : ((sl2vlPlain F r n cfg).map Update.tbl).Nodup := by
  simp only [sl2vlPlain, List.map_flatMap, List.map_map]
  rw [List.nodup_flatMap]
  constructor
  · intro out _
    exact List.Nodup.map (fun i j h => (Tbl.slvl.inj h).2) List.nodup_range
  · refine List.Pairwise.imp (fun {a b} hab => ?_) (List.Pairwise.filter _ List.pairwise_lt_range')
    intro t ha hb
    obtain ⟨i, -, rfl⟩ := List.mem_map.mp ha
    obtain ⟨j, -, hj⟩ := List.mem_map.mp hb
    have he := congrArg Physp.portNum (Tbl.slvl.inj hj).1
    simp only at he
    omega

omit [DecidableEq N] in
lemma covers_plain (h : out < F.numPhysp n) (hi : inPort < F.numPhysp n) (p : Physp N) (j : ℕ) :
    Covers F (sl2vlUpdateTable r ⟨n, out⟩ inPort (inPort * 2 ^ 8 + out) cfg.sl2vl).mad (.slvl p j) ↔
      (sl2vlUpdateTable r ⟨n, out⟩ inPort (inPort * 2 ^ 8 + out) cfg.sl2vl).tbl = .slvl p j := by
  have hle := F.numPhysp_le n
  have h16 : (inPort * 2 ^ 8 + out) / 2 ^ 16 % 2 = 0 := by omega
  have h17 : (inPort * 2 ^ 8 + out) / 2 ^ 17 % 2 = 0 := by omega
  have hlow : (inPort * 2 ^ 8 + out) % 2 ^ 8 = out := by omega
  have hhigh : (inPort * 2 ^ 8 + out) / 2 ^ 8 % 2 ^ 8 = inPort := by omega
  obtain ⟨m, k⟩ := p
  simp only [Covers, sl2vlUpdateTable, h16, h17, hlow, hhigh, Tbl.slvl.injEq, Physp.mk.injEq,
      zero_ne_one, if_false]
  constructor
  · rintro ⟨rfl, -, h₁, h₂, h₃, h₄⟩
    exact ⟨⟨rfl, by omega⟩, by omega⟩
  · rintro ⟨⟨rfl, rfl⟩, rfl⟩
    exact ⟨rfl, by omega, le_rfl, le_rfl, le_rfl, le_rfl⟩

lemma filter_covers_plain {u : Update N} {t : Tbl N} (hu : u ∈ sl2vlPlain F r n cfg) (ht : u.tbl = t) :
    (sl2vlPlain F r n cfg).filter (fun v => Covers F v.mad t) = [u] := by
  rw [← filter_tbl_eq sl2vlPlain_nodup hu]
  subst ht
  apply List.filter_congr
  intro v hv
  obtain ⟨out, inPort, -, -, rfl⟩ := mem_sl2vlPlain hu
  obtain ⟨out', inPort', hout, hin, rfl⟩ := mem_sl2vlPlain hv
  exact decide_eq_decide.mpr (covers_plain hout hin _ _)

omit [DecidableEq N] in
lemma getD_filter_singleton {u : Update N} {p : Update N → Bool} {b : Block} :
    ((([u].filter p).getLast?).map (·.mad.block)).getD b = if p u then u.mad.block else b := by
  cases hp : p u <;> simp [hp]

/-- Plain programming leaves the table for each output port that is up. -/
lemma plain_hw {o : SlvlOptions} {re : RoutingEngine N} (hre : r.routingEngineUsed = some re)
    (hhook : re.updateSl2vl = none) (hn : F.isSwitch n = true) (hmap : F.hasSlMap ⟨n, 0⟩ = true)
    (hopt : optimized F r o n = false)
    (hcopy : ∀ out, r.needUpdate ⟨n, out⟩ = false → ∀ i, s.stored (.slvl ⟨n, out⟩ i) = s.hw (.slvl ⟨n, out⟩ i))
    (hout : out ∈ upPorts F r n) (hin : inPort < F.numPhysp n) :
    SameTable ((extportsRound F r o n cfg s).hw (.slvl ⟨n, out⟩ inPort)) (tableFor r n cfg out) := by
  have hus : ∀ u ∈ sl2vlPlain F r n cfg,
      (u.mad.attrId = .slvlTable ∧ F.isSwitch u.mad.port.node = true) ∧ ∃ q b, u.tbl = .slvl q b := by
    intro u hu
    obtain ⟨out, inPort, -, -, rfl⟩ := mem_sl2vlPlain hu
    exact ⟨⟨rfl, hn⟩, _, _, rfl⟩
  obtain ⟨⟨hpos, hlt⟩, hconf⟩ := mem_upPorts.mp hout
  have hu : sl2vlUpdateTable r ⟨n, out⟩ inPort (inPort * 2 ^ 8 + out) cfg.sl2vl ∈ sl2vlPlain F r n cfg := by
    simp only [sl2vlPlain, List.mem_flatMap, List.mem_filter, List.mem_range'_1, List.mem_map, List.mem_range]
    refine ⟨out, ⟨?_, hconf⟩, inPort, hin, rfl⟩
    split_ifs <;> omega
  rw [extportsRound, qosExtportsSetupSlvl, if_neg (by simp [hopt]), qosExtportsSetup_eq hre hhook, if_pos hmap,
    extports_hw F r hus sl2vlPlain_nodup s, List.filter_comm,
        filter_covers_plain (t := .slvl ⟨n, out⟩ inPort) hu rfl,
    getD_filter_singleton]
  split_ifs with hs
  · exact fun i _ => rfl
  · rw [decide_eq_true_iff] at hs
    simp only [Update.Sends, not_or, not_not] at hs
    obtain ⟨hforce, hsame⟩ := hs
    have hneed : r.needUpdate ⟨n, out⟩ = false := by
      simp only [sl2vlUpdateTable, forceUpdate, Bool.or_eq_true, not_or, Bool.not_eq_true] at hforce
      exact hforce.1
    intro i hi
    rw [← hcopy out hneed inPort]
    exact hsame i hi

end Plain

section Majority

variable {n : N} {F r}

/-- What has been counted of the ports of a list. -/
structure Counted (r : Round N) (n : N) (l : List ℕ) (c : OpVlCount) : Prop where
  arr : ∀ v, c.opVlArr v = l.countP fun out => r.opVls ⟨n, out⟩ = v
  le_max : ∀ v, c.opVlArr v ≤ c.maxNum
  max : c.maxNum = 0 ∨ c.maxNum = c.opVlArr c.commonOpVl
  p0 : l ≠ [] → ∃ p0 ∈ l, c.p0 = some p0 ∧ r.opVls ⟨n, p0⟩ = c.commonOpVl

omit [DecidableEq N] in
lemma Counted.snoc {l : List ℕ} {c : OpVlCount} (h : Counted r n l c) (out : ℕ) :
    Counted r n (l ++ [out]) (countOpVl r n c out) := by
  have harr : ∀ v, Function.update c.opVlArr (r.opVls ⟨n, out⟩) (c.opVlArr (r.opVls ⟨n, out⟩) + 1) v =
      (l ++ [out]).countP fun out => r.opVls ⟨n, out⟩ = v := by
    intro v
    rw [List.countP_append, ← h.arr v, Function.update_apply]
    by_cases hv : v = r.opVls ⟨n, out⟩
    · simp [hv]
    · simp [hv, Ne.symm hv]
  have hmax := h.le_max
  simp only [countOpVl, Function.update_self]
  split_ifs with hlt
  · refine ⟨harr, fun v => ?_, Or.inr ?_, fun _ => ⟨out, by simp, rfl, rfl⟩⟩
    · simp only [Function.update_apply]
      split_ifs
      · exact le_rfl
      · exact (hmax v).trans hlt.le
    · exact (Function.update_self (f := c.opVlArr) _ _).symm
  · have hle : c.opVlArr (r.opVls ⟨n, out⟩) + 1 ≤ c.maxNum := not_lt.mp hlt
    have hne : l ≠ [] := by
      rintro rfl
      have h0 := h.arr (c.commonOpVl)
      have h1 := h.max
      rw [List.countP_nil] at h0
      omega
    refine ⟨harr, fun v => ?_, Or.inr ?_, fun _ => ?_⟩
    · simp only [Function.update_apply]
      split_ifs
      · exact hle
      · exact hmax v
    · rcases h.max with h0 | h1
      · omega
      · simp only [Function.update_apply]
        split_ifs with he
        · rw [← he] at hle
          omega
        · exact h1
    · obtain ⟨p0, hp0, hc⟩ := h.p0 hne
      exact ⟨p0, List.mem_append_left _ hp0, hc⟩

omit [DecidableEq N] in
lemma majority_counted : Counted r n (upPorts F r n) (majority F r n) := by
  have hinit : ∀ p0, Counted r n [] ⟨fun _ => 0, 0, 0, p0⟩ :=
    fun p0 => ⟨fun _ => rfl, fun _ => le_rfl, Or.inl rfl, fun h => absurd rfl h⟩
  rw [majority]
  generalize upPorts F r n = l
  induction l using List.reverseRecOn with
  | nil => exact hinit _
  | append_singleton l out ih =>
    rw [List.foldl_append]
    exact ih.snoc out

end Majority

section Optimized

variable {n : N} {cfg : QosConfig} {s : Tables N} {out inPort commonOpVl : ℕ} {force : Bool} {F r}

def exception (r : Round N) (n : N) (cfg : QosConfig) (force : Bool) (out : ℕ) : Update N :=
  { sl2vlUpdateTable r ⟨n, out⟩ out (2 ^ 17 + out) cfg.sl2vl with force := force }

def broadcast (r : Round N) (n : N) (cfg : QosConfig) (force : Bool) (p0 : ℕ) : Update N :=
  { sl2vlUpdateTable r ⟨n, p0⟩ p0 (3 * 2 ^ 16) cfg.sl2vl with force := force }

omit [DecidableEq N] in
lemma exceptions_eq {outs : List ℕ} (h : outs.Pairwise (· < ·)) :
    exceptions r n cfg commonOpVl force outs =
      (outs.filter fun out => r.opVls ⟨n, out⟩ ≠ commonOpVl).map fun out =>
        exception r n cfg (((outs.filter (· ≤ out)).any fun p => r.needUpdate ⟨n, p⟩) || force) out := by
  induction outs generalizing force with
  | nil => rfl
  | cons o outs ih =>
    obtain ⟨ho, houts⟩ := List.pairwise_cons.mp h
    have hself : (o :: outs).filter (· ≤ o) = [o] := by
      rw [List.filter_cons_of_pos (by simp), List.filter_eq_nil_iff.mpr]
      intro p hp
      simpa using ho p hp
    have hrest : ∀ out ∈ outs.filter (fun out => r.opVls ⟨n, out⟩ ≠ commonOpVl),
        exception r n cfg (((outs.filter (· ≤ out)).any fun p => r.needUpdate ⟨n, p⟩) ||
          (r.needUpdate ⟨n, o⟩ || force)) out =
        exception r n cfg ((((o :: outs).filter (· ≤ out)).any fun p => r.needUpdate ⟨n, p⟩) || force) out := by
      intro out hout
      have hle := (ho out (List.mem_of_mem_filter hout)).le
      rw [List.filter_cons_of_pos (by simpa using hle), List.any_cons, ← Bool.or_assoc,
        Bool.or_comm (List.any _ _)]
    rw [exceptions, ih houts, List.map_congr_left hrest]
    split_ifs with hop
    · rw [List.filter_cons_of_pos (by simpa using hop), List.map_cons, hself]
      simp [exception]
    · rw [List.filter_cons_of_neg (by simpa using hop)]

omit [DecidableEq N] in
lemma sl2vlOptimized_eq {o : SlvlOptions} {p0 : ℕ} (hp0 : (majority F r n).p0 = some p0) :
    sl2vlOptimized F r o n cfg = broadcast r n cfg (o.swNeedUpdate || r.subnNeedUpdate) p0 ::
      ((upPorts F r n).filter fun out => r.opVls ⟨n, out⟩ ≠ (majority F r n).commonOpVl).map fun out =>
        exception r n cfg (forcedAt F r o n out) out := by
  simp only [sl2vlOptimized, hp0, exceptions_eq upPorts_sorted]
  rfl

omit [DecidableEq N] in
lemma firstPort_le (F : Fabric N) (n : N) : firstPort F n ≤ 1 := by
  rw [firstPort]
  split_ifs <;> omega

omit [DecidableEq N] in
lemma covers_exception {k : ℕ} (hout : out < F.numPhysp n) (hin : 1 ≤ inPort ∧ inPort < F.numPhysp n) :
    Covers F (exception r n cfg force out).mad (.slvl ⟨n, k⟩ inPort) ↔ k = out := by
  have hle := F.numPhysp_le n
  have hfirst := firstPort_le F n
  have h16 : (2 ^ 17 + out) / 2 ^ 16 % 2 = 0 := by omega
  have h17 : (2 ^ 17 + out) / 2 ^ 17 % 2 = 1 := by omega
  have hlow : (2 ^ 17 + out) % 2 ^ 8 = out := by omega
  simp only [Covers, exception, sl2vlUpdateTable, h16, h17, hlow, zero_ne_one, if_false, if_true, true_and]
  omega

omit [DecidableEq N] in
lemma covers_broadcast {p0 k : ℕ} (hout : 1 ≤ k ∧ k < F.numPhysp n) (hin : 1 ≤ inPort ∧ inPort < F.numPhysp n) :
    Covers F (broadcast r n cfg force p0).mad (.slvl ⟨n, k⟩ inPort) := by
  have hfirst := firstPort_le F n
  have h16 : 3 * 2 ^ 16 / 2 ^ 16 % 2 = 1 := rfl
  have h17 : 3 * 2 ^ 16 / 2 ^ 17 % 2 = 1 := rfl
  simp only [Covers, broadcast, sl2vlUpdateTable, h16, h17, if_true, true_and]
  omega

omit [DecidableEq N] in
lemma optimized_nodup {p0 : ℕ} {b : Bool} {f : ℕ → Bool} (hop : r.opVls ⟨n, p0⟩ = (majority F r n).commonOpVl) :
    ((broadcast r n cfg b p0 :: ((upPorts F r n).filter fun out =>
      r.opVls ⟨n, out⟩ ≠ (majority F r n).commonOpVl).map fun out => exception r n cfg (f out) out).map
        Update.tbl).Nodup := by
  rw [List.map_cons, List.nodup_cons, List.map_map]
  constructor
  · rintro hmem
    obtain ⟨out, hout, he⟩ := List.mem_map.mp hmem
    have hp : out = p0 := (Tbl.slvl.inj he).2
    subst hp
    exact absurd hop (by simpa using (List.mem_filter.mp hout).2)
  · refine List.Nodup.map (fun i j h => (Tbl.slvl.inj h).2) (List.Nodup.filter _ ?_)
    exact upPorts_sorted.imp fun h => h.ne

lemma filter_covers_exceptions {f : ℕ → Bool} (hout : out ∈ upPorts F r n)
    (hin : 1 ≤ inPort ∧ inPort < F.numPhysp n) :
    ((((upPorts F r n).filter fun out => r.opVls ⟨n, out⟩ ≠ commonOpVl).map fun out =>
      exception r n cfg (f out) out).filter fun u => Covers F u.mad (.slvl ⟨n, out⟩ inPort)) =
        if r.opVls ⟨n, out⟩ ≠ commonOpVl then [exception r n cfg (f out) out] else [] := by
  have hcov : ∀ k ∈ (upPorts F r n).filter fun out => r.opVls ⟨n, out⟩ ≠ commonOpVl,
      decide (Covers F (exception r n cfg (f k) k).mad (.slvl ⟨n, out⟩ inPort)) = decide (k = out) := by
    intro k hk
    have hlt := (mem_upPorts.mp (List.mem_of_mem_filter hk)).1.2
    exact decide_eq_decide.mpr ((covers_exception hlt hin).trans eq_comm)
  have hnd : ((upPorts F r n).filter fun out => r.opVls ⟨n, out⟩ ≠ commonOpVl).Nodup :=
    List.Nodup.filter _ (upPorts_sorted.imp fun h => h.ne)
  simp only [List.filter_map, Function.comp_def]
  rw [List.filter_congr hcov, List.filter_eq, hnd.count]
  by_cases hop : r.opVls ⟨n, out⟩ = commonOpVl <;> simp [hop, hout]

lemma optimized_hw (cfg : QosConfig) (s : Tables N) {o : SlvlOptions} {p0 : ℕ} (hopt : optimized F r o n = true)
    (hn : F.isSwitch n = true)
    (hp0 : (majority F r n).p0 = some p0) (hop0 : r.opVls ⟨n, p0⟩ = (majority F r n).commonOpVl)
    (hout : out ∈ upPorts F r n) (hin : 1 ≤ inPort ∧ inPort < F.numPhysp n) :
    (extportsRound F r o n cfg s).hw (.slvl ⟨n, out⟩ inPort) =
      if r.opVls ⟨n, out⟩ ≠ (majority F r n).commonOpVl ∧ Due r n cfg s (forcedAt F r o n out) out then
        tableFor r n cfg out
      else if Due r n cfg s (o.swNeedUpdate || r.subnNeedUpdate) p0 then tableFor r n cfg p0
      else s.hw (.slvl ⟨n, out⟩ inPort) := by
  have hus : ∀ u ∈ sl2vlOptimized F r o n cfg,
      (u.mad.attrId = .slvlTable ∧ F.isSwitch u.mad.port.node = true) ∧ ∃ q b, u.tbl = .slvl q b := by
    rw [sl2vlOptimized_eq hp0, List.forall_mem_cons]
    refine ⟨⟨⟨rfl, hn⟩, _, _, rfl⟩, fun u hu => ?_⟩
    obtain ⟨k, -, rfl⟩ := List.mem_map.mp hu
    exact ⟨⟨rfl, hn⟩, _, _, rfl⟩
  have hnd : ((sl2vlOptimized F r o n cfg).map Update.tbl).Nodup := by
    rw [sl2vlOptimized_eq hp0]
    exact optimized_nodup hop0
  have hbound := (mem_upPorts.mp hout).1
  rw [extportsRound, qosExtportsSetupSlvl, if_pos hopt, extports_hw F r hus hnd s, List.filter_comm,
    sl2vlOptimized_eq hp0, List.filter_cons_of_pos (by simpa using covers_broadcast hbound hin),
    filter_covers_exceptions hout hin]
  generalize forcedAt F r o n out = fe
  generalize (o.swNeedUpdate || r.subnNeedUpdate) = fb
  have hsb : (broadcast r n cfg fb p0).Sends s.stored ↔ Due r n cfg s fb p0 := Iff.rfl
  have hse : (exception r n cfg fe out).Sends s.stored ↔ Due r n cfg s fe out := Iff.rfl
  have hbb : (broadcast r n cfg fb p0).mad.block = tableFor r n cfg p0 := rfl
  have hbe : (exception r n cfg fe out).mad.block = tableFor r n cfg out := rfl
  -- whether the common table is sent, whether the port differs, whether its exception is sent
  by_cases hb : Due r n cfg s fb p0 <;> by_cases hop : r.opVls ⟨n, out⟩ = (majority F r n).commonOpVl <;>
    by_cases he : Due r n cfg s fe out <;> simp [hsb, hse, hbb, hbe, hb, hop, he]

end Optimized

section Agreement

variable {F r} {n : N} {cfg : QosConfig} {s : Tables N}

lemma SameTable.symm {b b' : Block} (h : SameTable b b') : SameTable b' b := fun i hi => (h i hi).symm

lemma SameTable.trans {b b' b'' : Block} (h : SameTable b b') (h' : SameTable b' b'') : SameTable b b'' :=
  fun i hi => (h i hi).trans (h' i hi)

omit [DecidableEq N] in
lemma optimized_off {b sw : Bool} : optimized F r ⟨b, false, sw⟩ n = false := by
  cases h : r.routingEngineUsed <;> simp [optimized, h]

omit [DecidableEq N] in
lemma of_optimized {o : SlvlOptions} (h : optimized F r o n = true) :
    ∃ re, r.routingEngineUsed = some re ∧ F.hasSlMap ⟨n, 0⟩ = true := by
  cases hre : r.routingEngineUsed with
  | none => simp [optimized, hre] at h
  | some re =>
    simp only [optimized, hre, Bool.and_eq_true] at h
    exact ⟨re, rfl, h.1.1.1⟩

omit [DecidableEq N] in
lemma majority_p0 {out p0 : ℕ} (hout : out ∈ upPorts F r n) (hp0 : (majority F r n).p0 = some p0) :
    r.opVls ⟨n, p0⟩ = (majority F r n).commonOpVl := by
  obtain ⟨p, -, hp, hop⟩ := majority_counted.p0 (List.ne_nil_of_mem hout)
  obtain rfl := Option.some.inj (hp.symm.trans hp0)
  exact hop

lemma port_agrees_iff (cfg : QosConfig) (s : Tables N) {o : SlvlOptions} {p0 out : ℕ}
    (hopt : optimized F r o n = true) (hn : F.isSwitch n = true)
    (hp0 : (majority F r n).p0 = some p0) (hop0 : r.opVls ⟨n, p0⟩ = (majority F r n).commonOpVl)
    (hout : out ∈ upPorts F r n) :
    (∀ inPort, 1 ≤ inPort → inPort < F.numPhysp n →
      SameTable ((extportsRound F r o n cfg s).hw (.slvl ⟨n, out⟩ inPort)) (tableFor r n cfg out)) ↔
    r.opVls ⟨n, out⟩ ≠ (majority F r n).commonOpVl ∧ Due r n cfg s (forcedAt F r o n out) out ∨
    if Due r n cfg s (o.swNeedUpdate || r.subnNeedUpdate) p0 then
      SameTable (tableFor r n cfg p0) (tableFor r n cfg out)
    else ∀ inPort, 1 ≤ inPort → inPort < F.numPhysp n →
      SameTable (s.hw (.slvl ⟨n, out⟩ inPort)) (tableFor r n cfg out) := by
  have hhw : ∀ inPort, 1 ≤ inPort → inPort < F.numPhysp n → _ :=
    fun inPort h₁ h₂ => optimized_hw cfg s hopt hn hp0 hop0 hout ⟨h₁, h₂⟩
  obtain ⟨hpos, hlt⟩ := (mem_upPorts.mp hout).1
  rw [forall₃_congr fun inPort h₁ h₂ => by rw [hhw inPort h₁ h₂]]
  by_cases he : r.opVls ⟨n, out⟩ ≠ (majority F r n).commonOpVl ∧ Due r n cfg s (forcedAt F r o n out) out
  · simp only [if_pos he]
    exact iff_of_true (fun _ _ _ i _ => rfl) (Or.inl he)
  · simp only [if_neg he]
    rw [or_iff_right he]
    split_ifs with hb
    · exact ⟨fun h => h out hpos hlt, fun h _ _ _ => h⟩
    · exact Iff.rfl

/-- At a switch where no hook changes the tables, one answered round leaves each pair of external ports, the
output port not down, with the same table whether or not the option is on, exactly when the optimized programming
is not used or its MADs reach the ports that need them. -/
theorem optimized_agrees_iff (hn : F.isSwitch n = true)
    (hhook : ∀ re, r.routingEngineUsed = some re → re.updateSl2vl = none) (optSl2vlmapping swNeedUpdate : Bool)
    (hcopy : ∀ out, r.needUpdate ⟨n, out⟩ = false → ∀ i, s.stored (.slvl ⟨n, out⟩ i) = s.hw (.slvl ⟨n, out⟩ i)) :
    (∀ out ∈ upPorts F r n, ∀ inPort, 1 ≤ inPort → inPort < F.numPhysp n →
      SameTable ((extportsRound F r ⟨optSl2vlmapping, true, swNeedUpdate⟩ n cfg s).hw (.slvl ⟨n, out⟩ inPort))
        ((extportsRound F r ⟨optSl2vlmapping, false, swNeedUpdate⟩ n cfg s).hw (.slvl ⟨n, out⟩ inPort))) ↔
    (optimized F r ⟨optSl2vlmapping, true, swNeedUpdate⟩ n = true →
      Agrees F r ⟨optSl2vlmapping, true, swNeedUpdate⟩ n cfg s) := by
  cases hopt : optimized F r ⟨optSl2vlmapping, true, swNeedUpdate⟩ n with
  | false =>
    have hsame : extportsRound F r ⟨optSl2vlmapping, true, swNeedUpdate⟩ n cfg s =
        extportsRound F r ⟨optSl2vlmapping, false, swNeedUpdate⟩ n cfg s := by
      simp only [extportsRound, qosExtportsSetupSlvl, hopt, optimized_off, Bool.false_eq_true, if_false]
    rw [hsame]
    exact iff_of_true (fun _ _ _ _ _ _ _ => rfl) nofun
  | true =>
    obtain ⟨re, hre, hmap⟩ := of_optimized hopt
    have hplain : ∀ out ∈ upPorts F r n, ∀ inPort, inPort < F.numPhysp n → SameTable
        ((extportsRound F r ⟨optSl2vlmapping, false, swNeedUpdate⟩ n cfg s).hw (.slvl ⟨n, out⟩ inPort))
        (tableFor r n cfg out) :=
      fun out hout inPort hin => plain_hw hre (hhook re hre) hn hmap optimized_off hcopy hout hin
    have hports : ∀ p0, (majority F r n).p0 = some p0 → ∀ out ∈ upPorts F r n, _ := fun p0 hp0 out hout =>
      port_agrees_iff cfg s hopt hn hp0 (majority_p0 hout hp0) hout
    constructor
    · intro h _ p0 hp0 out hout
      apply (hports p0 hp0 out hout).mp
      intro inPort h₁ h₂
      exact (h out hout inPort h₁ h₂).trans (hplain out hout inPort h₂)
    · intro h out hout inPort h₁ h₂
      obtain ⟨p0, -, hp0, -⟩ := majority_counted.p0 (List.ne_nil_of_mem hout)
      have hon := (hports p0 hp0 out hout).mpr (h rfl p0 hp0 out hout) inPort h₁ h₂
      exact hon.trans (hplain out hout inPort h₂).symm

end Agreement

section Sample

def switchFabric : Fabric Unit where
  portGuidTbl := [⟨(), 0⟩]
  isSwitch _ := true
  isRouter _ := false
  enhancedPort0 _ := false
  numPhysp _ := 4
  valid _ := true
  vlCap _ := 1
  vlArbLowCap _ := 0
  vlArbHighCap _ := 0
  hasSlMap _ := true
  numPhysp_le _ := by decide
  switchPort p hp _ := by
    obtain rfl := List.mem_singleton.mp hp
    exact ⟨rfl, by decide⟩

def switchRound : Round Unit where
  caConfig := sampleConfig
  sw0Config := sampleConfig
  sweConfig := sampleConfig
  rtrConfig := sampleConfig
  opVls p := if p.portNum = 3 then 1 else 2
  linkDown _ := false
  needUpdate _ := false
  subnNeedUpdate := false
  routingEngineUsed := some ⟨none, none⟩

def zeroTables : Tables Unit := ⟨fun _ _ => (0, 0), fun _ _ => (0, 0)⟩

/-- The exception for port 3 is taken to be there, and the common table is written over it. -/
theorem broadcast_overwrites : ¬∀ out ∈ upPorts switchFabric switchRound (), ∀ inPort, 1 ≤ inPort → inPort < 4 →
    SameTable
      ((extportsRound switchFabric switchRound ⟨true, true, false⟩ () sampleConfig zeroTables).hw
          (.slvl ⟨(), out⟩ inPort))
      ((extportsRound switchFabric switchRound ⟨true, false, false⟩ () sampleConfig zeroTables).hw
        (.slvl ⟨(), out⟩ inPort)) := by
  intro h
  have h31 := h 3 (by decide) 1 (by decide) (by decide) 0 (by decide)
  revert h31
  decide +kernel

/-- Under `need_update` of the switch the exception is sent. -/
theorem optimized_agrees_forced : SameTable
    ((extportsRound switchFabric switchRound ⟨true, true, true⟩ () sampleConfig zeroTables).hw (.slvl ⟨(), 3⟩ 1))
    ((extportsRound switchFabric switchRound ⟨true, false, true⟩ () sampleConfig zeroTables).hw
        (.slvl ⟨(), 3⟩ 1)) := by
  have hhook : ∀ re, switchRound.routingEngineUsed = some re → re.updateSl2vl = none := by
    intro re h
    obtain rfl := Option.some.inj h
    rfl
  refine (optimized_agrees_iff (F := switchFabric) (r := switchRound) rfl hhook true true fun _ _ _ => rfl).mpr ?_
    3 (by decide) 1 le_rfl (by decide)
  intro _ p0 hp0
  have h2 : (majority switchFabric switchRound ()).p0 = some 2 := by decide
  obtain rfl := Option.some.inj (h2.symm.trans hp0)
  decide

end Sample

end OpenSM.Qos
