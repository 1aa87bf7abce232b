import Mathlib
import OpenSM.SubnVerify

/-! What the lines of a configuration file do to the two copies of the options. -/

namespace OpenSM.SubnOpt

open Lib.CString

section Table

def OptRec.Typed (r : OptRec) : Bool :=
  match r.parseFn, osmSubnSetDefaultOpt r.optOffset with
  | .net64, .num _ | .uint32, .num _ | .net32, .num _ | .uint16, .num _ | .net16, .num _ | .uint8, .num _ => true
  | .int32, .int _ | .boolean, .bool _ | .charp, .str _ | .mask256, .mask _ | .cctEntry, .cctEntry _ _ => true
  | .ccCct, .cct _ _ => true
  | .cctiTimer, _ | .cctiIncrease, _ | .triggerThreshold, _ | .cctiMin, _ => true
  | _, _ => false

def atStart : List Scalar :=
  [.lmc, .longTransactionTimeout, .console, .partEnforceEnum, .perfmgrSweepTimeS, .perfmgrMaxOutstandingQueries]

/-- The options that `osm_subn_verify_config` corrects, or reads to correct others, at a rescan. -/
def rescanned : List Scalar :=
  [.smPriority, .forceLinkSpeed, .forceLinkSpeedExt, .forceLinkWidth, .fdr10, .maxWireSmps, .mKeyProtectBits,
    .maxWireSmps2, .sweepInterval, .mKeyLeasePeriod, .maxRateEnum, .useOriginalExtendedSaRatesOnly,
    .qos, .partEnforce, .noPartitionEnforcement]

lemma letters_nil : ([] : List OptRec).map (·.name) = ([] : List Str).map String.ofList := rfl

lemma letters_cons {r : OptRec} {t : List OptRec} {s : Str} {l : List Str} (h : r.name = String.ofList s)
    (ht : t.map (·.name) = l.map String.ofList) : (r :: t).map (·.name) = (s :: l).map String.ofList := by
  rw [List.map_cons, List.map_cons, h, ht]

set_option maxRecDepth 20000 in
/-- The names of the table letter by letter. A literal is unfolded to its letters, since decoding it is slow. -/
def nameLetters : { l : List Str // optTbl.map (·.name) = l.map String.ofList } := by
  constructor
  rw [optTbl]
  repeat
    apply letters_cons
    · exact rfl
  exact letters_nil

def nameCode (s : Str) : ℕ := s.foldl (fun n c => n * 256 + c.toNat) 1

def Field.code : Field → ℕ
  | .one s => 3 * s.ctorIdx
  | .qosOptions q p => 3 * (q.ctorIdx * 8 + p.ctorIdx) + 1
  | .ccCaCongEntries sl e => 3 * (sl * 8 + e.ctorIdx) + 2

def mark (l : List ℕ) : ℕ := l.foldr (fun c seen => seen ||| 1 <<< c) 0

lemma testBit_mark {l : List ℕ} {c : ℕ} (h : c ∈ l) : (mark l).testBit c = true := by
  induction l with
  | nil => cases h
  | cons d l ih =>
    have hcons : mark (d :: l) = mark l ||| 1 <<< d := rfl
    rw [hcons, Nat.testBit_or, Bool.or_eq_true]
    obtain rfl | h := List.mem_cons.mp h
    · right
      rw [Nat.one_shiftLeft, Nat.testBit_two_pow_self]
    · exact .inl (ih h)

def distinct : List ℕ → ℕ → Bool
  | [], _ => true
  | c :: l, seen => !seen.testBit c && distinct l (seen ||| 1 <<< c)

lemma nodup_of_distinct {l : List ℕ} {seen : ℕ} (h : distinct l seen = true) :
    l.Nodup ∧ ∀ c ∈ l, seen.testBit c = false := by
  induction l generalizing seen with
  | nil => exact ⟨List.nodup_nil, fun c hc => absurd hc List.not_mem_nil⟩
  | cons d l ih =>
    rw [distinct, Bool.and_eq_true, Bool.not_eq_true'] at h
    obtain ⟨hnodup, hseen⟩ := ih h.2
    have hor : ∀ c ∈ l, seen.testBit c = false ∧ (1 <<< d).testBit c = false := fun c hc => by
      have hc' := hseen c hc
      rwa [Nat.testBit_or, Bool.or_eq_false_iff] at hc'
    constructor
    · refine List.nodup_cons.mpr ⟨fun hd => ?_, hnodup⟩
      have hself := (hor d hd).2
      rw [Nat.one_shiftLeft, Nat.testBit_two_pow_self] at hself
      cases hself
    · intro c hc
      obtain rfl | hc := List.mem_cons.mp hc
      · exact h.1
      · exact (hor c hc).1

lemma optTbl_facts : ((∀ r ∈ optTbl, r.Typed = true) ∧
      distinct (nameLetters.1.map fun s => nameCode s % 65000) 0 = true ∧ [] ∉ nameLetters.1) ∧
    ((∀ r ∈ optTbl, r.canUpdate = false → (mark (updatable.map Field.code)).testBit r.optOffset.code = false) ∧
      (∀ r ∈ optTbl, r.canUpdate = false → r.fields = [r.optOffset]) ∧
      ∀ r ∈ optTbl, .one .mKeyLeasePeriod ∈ r.fields → r.parseFn = .net16) ∧
    distinct (updatable.map Field.code) 0 = true ∧ (∀ s ∈ rescanned, .one s ∈ updatable) ∧
    (∀ q ∈ [QosSet.qos, .ca, .sw0, .swe, .rtr],
        ∀ p ∈ [QosOption.maxVls, .highLimit, .vlarbHigh, .vlarbLow, .sl2vl],
      .qosOptions q p ∈ updatable) ∧
    ∀ s ∈ atStart, .one s ∉ updatable := by decide +kernel

lemma typed_optTbl : ∀ r ∈ optTbl, r.Typed = true := optTbl_facts.1.1

lemma names_nodup : (optTbl.map (·.name)).Nodup := by
  rw [nameLetters.2]
  exact (List.Nodup.of_map _ (nodup_of_distinct optTbl_facts.1.2.1).1).map fun _ _ => String.ofList_inj.mp

lemma names_ne_nil : ∀ r ∈ optTbl, r.name.toList ≠ [] := by
  intro r hr hnil
  obtain ⟨s, hs, hname⟩ := List.mem_map.mp (nameLetters.2 ▸ List.mem_map_of_mem hr)
  rw [← hname, String.toList_ofList] at hnil
  exact optTbl_facts.1.2.2 (hnil ▸ hs)

lemma fixed_not_updatable : ∀ r ∈ optTbl, r.canUpdate = false → r.optOffset ∉ updatable := by
  intro r hr hfix hmem
  have hbit := testBit_mark (List.mem_map_of_mem (f := Field.code) hmem)
  rw [optTbl_facts.2.1.1 r hr hfix] at hbit
  cases hbit

lemma fixed_fields : ∀ r ∈ optTbl, r.canUpdate = false → r.fields = [r.optOffset] := optTbl_facts.2.1.2.1

lemma lease_net16 : ∀ r ∈ optTbl, .one .mKeyLeasePeriod ∈ r.fields → r.parseFn = .net16 := optTbl_facts.2.1.2.2

lemma updatable_nodup : updatable.Nodup := List.Nodup.of_map _ (nodup_of_distinct optTbl_facts.2.2.1).1

lemma scalars_updatable : ∀ s ∈ rescanned, .one s ∈ updatable := optTbl_facts.2.2.2.1

lemma qos_updatable : ∀ q ∈ [QosSet.qos, .ca, .sw0, .swe, .rtr], ∀ p ∈ [QosOption.maxVls, .highLimit, .vlarbHigh,
    .vlarbLow, .sl2vl], .qosOptions q p ∈ updatable := optTbl_facts.2.2.2.2.1

lemma atStart_not_updatable : ∀ s ∈ atStart, .one s ∉ updatable := optTbl_facts.2.2.2.2.2

lemma lookup_mem {key : Str} {r : OptRec} (h : lookup key = some r) : r ∈ optTbl ∧ r.name.toList = key := by
  refine ⟨List.mem_of_find?_eq_some h, ?_⟩
  simpa using List.find?_some h

lemma lookup_unique {r r' : OptRec} (h : r ∈ optTbl) (h' : r' ∈ optTbl)
    (he : r.name.toList = r'.name.toList) : r = r' :=
  List.inj_on_of_nodup_map names_nodup h h' (String.toList_injective he)

lemma lookupUpdatable_eq (key : Str) : lookupUpdatable key = (lookup key).filter (·.canUpdate) := by
  cases hl : lookup key with
  | none =>
    have hall := List.find?_eq_none.mp hl
    refine List.find?_eq_none.mpr fun r hr h => hall r hr ?_
    simp only [decide_eq_true_eq] at h ⊢
    exact h.1
  | some r =>
    obtain ⟨hr, rfl⟩ := lookup_mem hl
    cases hc : r.canUpdate with
    | false =>
      rw [Option.filter_some_neg (by simp [hc])]
      refine List.find?_eq_none.mpr fun r' hr' h => ?_
      simp only [decide_eq_true_eq] at h
      rw [lookup_unique hr' hr h.1, hc] at h
      exact Bool.false_ne_true h.2
    | true =>
      rw [Option.filter_some_pos (by simp [hc])]
      cases hu : lookupUpdatable r.name.toList with
      | none =>
        refine absurd ?_ (List.find?_eq_none.mp hu r hr)
        simp [hc]
      | some r' =>
        have hs := List.find?_some hu
        simp only [decide_eq_true_eq] at hs
        rw [lookup_unique (List.mem_of_find?_eq_some hu) hr hs.1]

end Table

section Store

def Good : Val → Val → Prop
  | .num _, v => ∃ n, v = .num n
  | .int _, v => ∃ n, v = .int n
  | .bool _, v => ∃ b, v = .bool b
  | .str _, v => ∃ s, v = .str s ∧ s ≠ some nullStr
  | .cct _ _, v => v = .cct [] none ∨ ∃ s l, s ≠ nullStr ∧ cctEntries cctEntryMax s = some l ∧ v = .cct l (some s)
  | _, _ => True

def Canonical (o : Opts) : Prop := ∀ f, Good (osmSubnSetDefaultOpt f) (o f)

variable {c : Conf} {r : OptRec} {s : Str} {f : Field} {v : Val}

lemma optsParseCharp_eq (hg : Good (.str none) (c.file f)) (s : Str) :
    optsParseCharp c f s = storeRead c (readCharp f s) := by
  obtain ⟨t, ht, hne⟩ := hg
  have hiff : s ≠ (c.file f).toStr.getD nullStr ↔
      (.str (if s = nullStr then none else some s) : Val) ≠ c.file f := by
    rw [ht, Val.toStr]
    cases t with
    | none => by_cases hs : s = nullStr <;> simp [hs]
    | some t =>
      have ht' : t ≠ nullStr := fun h => hne (h ▸ rfl)
      by_cases hs : s = nullStr
      · simp [hs, Ne.symm ht']
      · simp [hs]
  simp only [optsParseCharp, storeRead, readCharp, Option.elim_some, store]
  exact if_congr hiff rfl rfl

lemma optsParseCcCct_eq (hg : Good (.cct [] none) (c.file f)) (s : Str) :
    optsParseCcCct c f s = storeRead c (readCcCct f s) := by
  obtain ht | ⟨t, l, ht', hl, ht⟩ := hg
  · by_cases hs : s = nullStr
    · simp [optsParseCcCct, storeRead, readCcCct, store, ht, hs, Val.toInput]
    · cases he : cctEntries cctEntryMax s with
      | none => simp [optsParseCcCct, storeRead, readCcCct, hs, he]
      | some l => simp [optsParseCcCct, storeRead, readCcCct, store, ht, hs, he, Val.toInput]
  · by_cases hs : s = nullStr
    · simp [optsParseCcCct, storeRead, readCcCct, store, ht, hs, Val.toInput, Ne.symm ht']
    · by_cases hst : s = t
      · simp [optsParseCcCct, storeRead, readCcCct, store, ht, hst, hl, Val.toInput, ht']
      · cases he : cctEntries cctEntryMax s with
        | none => simp [optsParseCcCct, storeRead, readCcCct, hs, he]
        | some l' => simp [optsParseCcCct, storeRead, readCcCct, store, ht, hs, hst, he, Val.toInput]

lemma parse_eq_store (hr : r ∈ optTbl) (hc : Canonical c.file) (s : Str) :
    r.parse c s = storeRead c (r.read s) := by
  have ht := typed_optTbl r hr
  have hg := hc r.optOffset
  simp only [OptRec.Typed] at ht
  cases hp : r.parseFn with
  | charp =>
    simp only [OptRec.parse, OptRec.read, hp]
    cases hd : osmSubnSetDefaultOpt r.optOffset <;> simp only [hp, hd, Bool.false_eq_true] at ht
    rw [hd] at hg
    exact optsParseCharp_eq hg s
  | ccCct =>
    simp only [OptRec.parse, OptRec.read, hp]
    cases hd : osmSubnSetDefaultOpt r.optOffset <;> simp only [hp, hd, Bool.false_eq_true] at ht
    rw [hd] at hg
    exact optsParseCcCct_eq hg s
  | _ =>
    simp only [OptRec.parse, OptRec.read, hp]
    rfl

lemma readNum_eq {bits : ℕ} {f' : Field} (h : readNum bits f s = some (f', v)) : f' = f ∧ ∃ n, v = .num n ∧
    n < 2 ^ bits := by
  obtain ⟨n, hn, he⟩ := Option.map_eq_some_iff.mp h
  obtain ⟨rfl, rfl⟩ := Prod.mk.inj he
  refine ⟨rfl, n, rfl, ?_⟩
  simp only [optsStrtoull] at hn
  split_ifs at hn with h₁ h₂
  obtain rfl := Option.some.inj hn
  have hpos : 0 < 2 ^ bits := by positivity
  omega

lemma readCaCong_eq {bits : ℕ} {e : CaCongEntry} (h : readCaCong bits e s = some (f, v)) :
    f ∈ (List.range caCongEntryDataSize).map (.ccCaCongEntries · e) ∧ ∃ n, v = .num n := by
  obtain ⟨⟨sl, val⟩, hp, hr⟩ := Option.bind_eq_some_iff.mp h
  obtain ⟨rfl, n, hv, -⟩ := readNum_eq hr
  refine ⟨List.mem_map_of_mem (List.mem_range.mpr ?_), n, hv⟩
  simp only [parseCaCongCommon] at hp
  split_ifs at hp
  obtain ⟨⟨slStr, rest⟩, -, hp⟩ := Option.bind_eq_some_iff.mp hp
  obtain ⟨w, -, hp⟩ := Option.bind_eq_some_iff.mp hp
  dsimp only at hp
  split_ifs at hp with hle
  obtain ⟨rfl, -⟩ := Prod.mk.inj (Option.some.inj hp)
  exact not_le.mp hle

/-- A row reads values of the options that it stands for, of their type. -/
lemma read_spec (hr : r ∈ optTbl) (h : r.read s = some (f, v)) : f ∈ r.fields ∧
    Good (osmSubnSetDefaultOpt f) v := by
  have ht := typed_optTbl r hr
  simp only [OptRec.Typed] at ht
  cases hp : r.parseFn with
  | net64 | uint32 | net32 | uint16 | net16 | uint8 =>
    simp only [OptRec.read, hp] at h
    obtain ⟨rfl, n, rfl, -⟩ := readNum_eq h
    refine ⟨by simp [OptRec.fields, hp], ?_⟩
    cases hd : osmSubnSetDefaultOpt r.optOffset <;> simp [hp, hd, Good] at ht ⊢
  | cctiTimer | cctiIncrease | triggerThreshold | cctiMin =>
    simp only [OptRec.read, hp] at h
    obtain ⟨hf, hv⟩ := readCaCong_eq h
    refine ⟨by simpa only [OptRec.fields, hp] using hf, ?_⟩
    obtain ⟨sl, -, rfl⟩ := List.mem_map.mp hf
    exact hv
  | int32 | boolean =>
    simp only [OptRec.read, hp] at h
    obtain ⟨rfl, rfl⟩ := Prod.mk.inj (Option.some.inj h)
    refine ⟨by simp [OptRec.fields, hp], ?_⟩
    cases hd : osmSubnSetDefaultOpt r.optOffset <;> simp [hp, hd, Good] at ht ⊢
  | charp =>
    simp only [OptRec.read, hp] at h
    obtain ⟨rfl, rfl⟩ := Prod.mk.inj (Option.some.inj h)
    refine ⟨by simp [OptRec.fields, hp], ?_⟩
    cases hd : osmSubnSetDefaultOpt r.optOffset <;> simp only [hp, hd, Bool.false_eq_true] at ht
    refine ⟨_, rfl, ?_⟩
    split_ifs with hs
    · exact (Option.some_ne_none _).symm
    · exact fun he => hs (Option.some.inj he)
  | mask256 =>
    simp only [OptRec.read, hp, read256bit] at h
    split_ifs at h
    all_goals
      obtain ⟨rfl, rfl⟩ := Prod.mk.inj (Option.some.inj h)
      refine ⟨by simp [OptRec.fields, hp], ?_⟩
      cases hd : osmSubnSetDefaultOpt r.optOffset <;> simp [hp, hd, Good] at ht ⊢
  | cctEntry =>
    simp only [OptRec.read, hp] at h
    obtain ⟨e, -, he⟩ := Option.map_eq_some_iff.mp h
    obtain ⟨rfl, rfl⟩ := Prod.mk.inj he
    refine ⟨by simp [OptRec.fields, hp], ?_⟩
    cases hd : osmSubnSetDefaultOpt r.optOffset <;> simp [hp, hd, Good] at ht ⊢
  | ccCct =>
    simp only [OptRec.read, hp, readCcCct] at h
    split_ifs at h with hs
    · obtain ⟨rfl, rfl⟩ := Prod.mk.inj (Option.some.inj h)
      refine ⟨by simp [OptRec.fields, hp], ?_⟩
      cases hd : osmSubnSetDefaultOpt r.optOffset <;> simp only [hp, hd, Bool.false_eq_true] at ht
      exact .inl rfl
    · obtain ⟨l, hl, he⟩ := Option.map_eq_some_iff.mp h
      obtain ⟨rfl, rfl⟩ := Prod.mk.inj he
      refine ⟨by simp [OptRec.fields, hp], ?_⟩
      cases hd : osmSubnSetDefaultOpt r.optOffset <;> simp only [hp, hd, Bool.false_eq_true] at ht
      exact .inr ⟨s, l, hs, hl, rfl⟩

lemma Canonical.update {o : Opts} (h : Canonical o) (hv : Good (osmSubnSetDefaultOpt f) v) :
    Canonical (Function.update o f v) := by
  intro f'
  rcases eq_or_ne f' f with rfl | hne
  · rwa [Function.update_self]
  · rw [Function.update_of_ne hne]
    exact h f'

lemma Canonical.storeRead (h : Canonical c.file) (hr : r ∈ optTbl) (s : Str) :
    Canonical (storeRead c (r.read s)).file := by
  cases hs : r.read s with
  | none => exact h
  | some p =>
    simp only [SubnOpt.storeRead, Option.elim_some, store]
    split_ifs
    · exact h.update (read_spec hr hs).2
    · exact h

end Store

section Lines

variable {c : Conf} {f : Field} {v : Val} {text : Str}

def assigned (lines : List (Str × Str)) : List (Field × Val) :=
  lines.filterMap fun l => (lookupUpdatable l.1).bind (·.read l.2)

def assignedAll (lines : List (Str × Str)) : List (Field × Val) :=
  lines.filterMap fun l => (lookup l.1).bind (·.read l.2)

lemma lookupUpdatable_mem {key : Str} {r : OptRec} (h : lookupUpdatable key = some r) : r ∈ optTbl :=
  List.mem_of_find?_eq_some h

lemma foldl_lines {step : Conf → Str × Str → Conf} {look : Str → Option OptRec}
    (hnone : ∀ c l, look l.1 = none → step c l = c) (hsome : ∀ c l r, look l.1 = some r → step c l = r.parse c l.2)
    (hmem : ∀ key r, look key = some r → r ∈ optTbl) (hc : Canonical c.file) (lines : List (Str × Str)) :
    lines.foldl step c = (lines.filterMap fun l => (look l.1).bind (·.read l.2)).foldl store c ∧
      Canonical (lines.foldl step c).file := by
  induction lines generalizing c with
  | nil => exact ⟨rfl, hc⟩
  | cons l lines ih =>
    rw [List.foldl_cons, List.filterMap_cons]
    cases hl : look l.1 with
    | none =>
      rw [hnone c l hl]
      exact ih hc
    | some r =>
      have hr := hmem l.1 r hl
      obtain ⟨heq, hrest⟩ := ih (hc.storeRead hr l.2)
      rw [hsome c l r hl, parse_eq_store hr hc l.2]
      refine ⟨?_, hrest⟩
      rw [heq, Option.bind_some]
      cases r.read l.2 <;> rfl

lemma foldl_rescanLine (hc : Canonical c.file) (lines : List (Str × Str)) :
    lines.foldl rescanLine c = (assigned lines).foldl store c ∧ Canonical (lines.foldl rescanLine c).file := by
  have hnone : ∀ c (l : Str × Str), lookupUpdatable l.1 = none → rescanLine c l = c :=
      fun c l h => by rw [rescanLine, h]
  have hsome : ∀ c (l : Str × Str) r, lookupUpdatable l.1 = some r → rescanLine c l = r.parse c l.2 :=
      fun c l r h => by
    rw [rescanLine, h]
  exact foldl_lines hnone hsome (fun _ _ h => lookupUpdatable_mem h) hc lines

lemma foldl_parseLine (hc : Canonical c.file) (lines : List (Str × Str)) :
    lines.foldl parseLine c = (assignedAll lines).foldl store c ∧ Canonical (lines.foldl parseLine c).file := by
  have hnone : ∀ c (l : Str × Str), lookup l.1 = none → parseLine c l = c := fun c l h => by rw [parseLine, h]
  have hsome : ∀ c (l : Str × Str) r, lookup l.1 = some r → parseLine c l = r.parse c l.2 := fun c l r h => by
    rw [parseLine, h]
  exact foldl_lines hnone hsome (fun _ _ h => (lookup_mem h).1) hc lines

lemma filter_assignedAll (hf : f ∈ updatable) (lines : List (Str × Str)) :
    (assignedAll lines).filter (·.1 = f) = (assigned lines).filter (·.1 = f) := by
  rw [assignedAll, assigned, List.filter_filterMap, List.filter_filterMap]
  refine List.filterMap_congr fun l _ => ?_
  rw [lookupUpdatable_eq]
  cases hl : lookup l.1 with
  | none => rw [Option.filter_none]
  | some r =>
    cases hc : r.canUpdate with
    | true => rw [Option.filter_some_pos hc]
    | false =>
      rw [Option.filter_some_neg (by simp [hc]), Option.bind_some, Option.bind_none, Option.filter_none]
      cases hs : r.read l.2 with
      | none => rfl
      | some p =>
        have hr := (lookup_mem hl).1
        have hp := (read_spec hr hs).1
        rw [fixed_fields r hr hc, List.mem_singleton] at hp
        have hne : p.1 ≠ f := fun h => fixed_not_updatable r hr hc (hp ▸ h ▸ hf)
        exact Option.filter_some_neg (by simpa using hne)

lemma foldl_store_none (l : List (Field × Val)) (h : l.filter (·.1 = f) = []) :
    (l.foldl store c).file f = c.file f ∧ (l.foldl store c).opt f = c.opt f := by
  induction l generalizing c with
  | nil => exact ⟨rfl, rfl⟩
  | cons p l ih =>
    have hp : ¬p.1 = f := fun hp => by simp [hp] at h
    rw [List.filter_cons_of_neg (by simpa using hp)] at h
    obtain ⟨hfile, hopt⟩ := ih (c := store c p) h
    rw [List.foldl_cons, hfile, hopt, store]
    split_ifs
    · exact ⟨Function.update_of_ne (Ne.symm hp) _ _, Function.update_of_ne (Ne.symm hp) _ _⟩
    · exact ⟨rfl, rfl⟩

lemma foldl_store_one (l : List (Field × Val)) (h : l.filter (·.1 = f) = [(f, v)]) :
    (l.foldl store c).file f = v ∧ (l.foldl store c).opt f = if c.file f = v then c.opt f else v := by
  induction l generalizing c with
  | nil => simp at h
  | cons p l ih =>
    rw [List.foldl_cons]
    by_cases hp : p.1 = f
    · rw [List.filter_cons_of_pos (by simpa using hp)] at h
      obtain ⟨rfl, hl⟩ := List.cons.inj h
      obtain ⟨hfile, hopt⟩ := foldl_store_none (c := store c (f, v)) l hl
      rw [hfile, hopt, store]
      by_cases hv : c.file f = v
      · simp [hv]
      · simp [hv, Ne.symm hv]
    · rw [List.filter_cons_of_neg (by simpa using hp)] at h
      obtain ⟨hfile, hopt⟩ := ih (c := store c p) h
      have hkeep : (store c p).file f = c.file f ∧ (store c p).opt f = c.opt f :=
        foldl_store_none [p] (by simp [hp])
      rw [hfile, hopt, hkeep.1, hkeep.2]
      exact ⟨rfl, rfl⟩

/-- Every option that can be updated is set by one line. -/
structure Complete (text : Str) : Prop where
  once : ((assigned (confLines text)).map Prod.fst).Nodup
  all : ∀ f ∈ updatable, f ∈ (assigned (confLines text)).map Prod.fst

def raw (text : Str) (f : Field) : Val :=
  ((assigned (confLines text)).find? (·.1 = f)).elim (.num 0) Prod.snd

lemma Complete.filter (h : Complete text) (hf : f ∈ updatable) :
    (assigned (confLines text)).filter (·.1 = f) = [(f, raw text f)] := by
  obtain ⟨⟨f', v⟩, hp, rfl⟩ := List.mem_map.mp (h.all f hf)
  have hnodup := h.once
  rw [raw]
  generalize assigned (confLines text) = l at hp hnodup ⊢
  induction l with
  | nil => simp at hp
  | cons p l ih =>
    rw [List.map_cons, List.nodup_cons] at hnodup
    rcases List.mem_cons.mp hp with rfl | hp
    · have hnone : l.filter (·.1 = f') = [] := List.filter_eq_nil_iff.mpr fun q hq hqf =>
        hnodup.1 (List.mem_map.mpr ⟨q, hq, by simpa using hqf⟩)
      simp [hnone]
    · have hne : p.1 ≠ f' := fun he => hnodup.1 (List.mem_map.mpr ⟨_, hp, he.symm⟩)
      rw [List.filter_cons_of_neg (by simpa using hne), List.find?_cons_of_neg (by simpa using hne)]
      exact ih hp hnodup.2

lemma Complete.read (h : Complete text) (hf : f ∈ updatable) :
    ∃ r ∈ optTbl, ∃ s, r.read s = some (f, raw text f) := by
  have hm : (f, raw text f) ∈ (assigned (confLines text)).filter (·.1 = f) := by
    rw [h.filter hf]
    exact List.mem_singleton_self _
  obtain ⟨l, -, hl⟩ := List.mem_filterMap.mp (List.mem_of_mem_filter hm)
  obtain ⟨r, hr, hs⟩ := Option.bind_eq_some_iff.mp hl
  exact ⟨r, lookupUpdatable_mem hr, l.2, hs⟩

lemma Complete.good (h : Complete text) (hf : f ∈ updatable) : Good (osmSubnSetDefaultOpt f) (raw text f) := by
  obtain ⟨r, hr, s, hs⟩ := h.read hf
  exact (read_spec hr hs).2

end Lines

end OpenSM.SubnOpt
