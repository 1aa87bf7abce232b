import OpenSM.Lib.CString
import OpenSM.QosRetry

/-! The VL arbitration tables from the configuration string to the port: `qos_build_config` and one
`vlarb_update`. -/

namespace OpenSM.Qos

open Lib Lib.CString

section Config

/-- `osm_qos_options_t`. -/
structure QosOptions where
  maxVls : ℕ
  highLimit : ℤ
  vlarbHigh : Option Str
  vlarbLow : Option Str
  sl2vl : Option Str

structure BuiltConfig extends QosConfig where
  maxVls : ℕ

/-- The number, as `unsigned`, and what is behind the character that follows it, whichever it is. -/
def parseOneUnsigned (str : Str) : ℕ × Str := ((strtoull str).1 % 2 ^ 32, (strtoull str).2.drop 1)

def parseVlarbEntry (str : Str) : Cell × Str :=
  let vl := parseOneUnsigned str
  let weight := parseOneUnsigned vl.2
  ((vl.1 % 15, weight.1 % 256), weight.2)

def parseSl2vlEntry (str : Str) : Cell × Str :=
  let val1 := parseOneUnsigned str
  let val2 := parseOneUnsigned val1.2
  ((val1.1 % 16, val2.1 % 16), val2.2)

def parseEntries (entry : Str → Cell × Str) : ℕ → Str → List Cell
  | 0, _ => []
  | k + 1, p => (entry p).1 :: parseEntries entry k (entry p).2

def vlarbBlocks (p : Str) : ℕ → Block := fun block i =>
  (parseEntries parseVlarbEntry (2 * numVlArbElementsInBlock) p).getD (numVlArbElementsInBlock * block + i) (0, 0)

def defaultMaxVls : ℕ := 15

def defaultVlarbHigh : Str := "0:4,1:0,2:0,3:0,4:0,5:0,6:0,7:0,8:0,9:0,10:0,11:0,12:0,13:0,14:0".toList

def defaultVlarbLow : Str := "0:0,1:4,2:4,3:4,4:4,5:4,6:4,7:4,8:4,9:4,10:4,11:4,12:4,13:4,14:4".toList

def defaultSl2vl : Str := "0,1,2,3,4,5,6,7,8,9,10,11,12,13,14,7".toList

/-- The string of an option, else that of the default options, else the one compiled in. -/
def optionString (opt dflt : Option Str) (default : Str) : Str := (opt.or dflt).getD default

def qosBuildConfig (opt dflt : QosOptions) : BuiltConfig where
  maxVls := (if 0 < opt.maxVls then opt.maxVls else if 0 < dflt.maxVls then dflt.maxVls else defaultMaxVls) % 256
  vlHighLimit :=
    (if 0 ≤ opt.highLimit then opt.highLimit % 256
      else if 0 ≤ dflt.highLimit then dflt.highLimit % 256 else 0).toNat
  vlarbHigh := vlarbBlocks (optionString opt.vlarbHigh dflt.vlarbHigh defaultVlarbHigh)
  vlarbLow := vlarbBlocks (optionString opt.vlarbLow dflt.vlarbLow defaultVlarbLow)
  sl2vl := fun i => (parseEntries parseSl2vlEntry 8 (optionString opt.sl2vl dflt.sl2vl defaultSl2vl)).getD i (0, 0)

/-- One `vlarb_update` on its own: the port answers all MADs. -/
def vlarbRound {N : Type} [DecidableEq N] (F : Fabric N) (r : Round N) (p : Physp N) (portNum : ℕ)
    (cfg : QosConfig)
    (s : Tables N) : Tables N :=
  let q := (vlarbUpdate F r p portNum cfg).foldl updateTable (s.stored, [])
  deliver F (fun _ => true) { s with stored := q.1 } q.2

end Config

section Spec

structure NumText where
  text : Str
  value : ℕ
  reads : ∀ rest : Str, (∀ c ∈ rest.head?, c = ':' ∨ c = ',') → strtoull (text ++ rest) = (value, rest)

structure EntryText where
  vl : NumText
  weight : NumText

def EntryText.text (e : EntryText) : Str := e.vl.text ++ ':' :: e.weight.text

def EntryText.cell (e : EntryText) : Cell := (e.vl.value % 2 ^ 32 % 15, e.weight.value % 2 ^ 32 % 256)

def tableText : List EntryText → Str
  | [] => []
  | [e] => e.text
  | e :: es => e.text ++ ',' :: tableText es

def tableCell (es : List EntryText) (i : ℕ) : Cell := (es.map EntryText.cell).getD i (0, 0)

variable {N : Type} (r : Round N)

def adapted (p : Physp N) (portNum : ℕ) (block : Block) (len blockNum : ℕ) : Block :=
  match r.routingEngineUsed.bind RoutingEngine.updateVlarb with
  | some hook => hook p portNum block len blockNum
  | none => block

/-- Entry `i` of a table with room for `cap` entries, whose blocks have the numbers from `base` on. -/
def wantedCell (p : Physp N) (portNum : ℕ) (table : ℕ → Cell) (cap base i : ℕ) : Cell :=
  let first := i / numVlArbElementsInBlock * numVlArbElementsInBlock
  let len := min (cap - first) numVlArbElementsInBlock
  let cell := adapted r p portNum (fun j => if j < len then table (first + j) else (0, 0)) len
    (base + i / numVlArbElementsInBlock) (i % numVlArbElementsInBlock)
  (cell.1 &&& vlMask r p, cell.2)

def Programmed (s : Tables N) (p : Physp N) (portNum : ℕ) (table : ℕ → Cell) (cap base : ℕ) : Prop :=
  ∀ i < cap, s.hw (.vlArb p (base + i / numVlArbElementsInBlock)) (i % numVlArbElementsInBlock) =
    wantedCell r p portNum table cap base i

/-- The second half of a full table is what an empty block, or none at all, leaves in the port. -/
def HalfThere (s : Tables N) (p : Physp N) (portNum : ℕ) (table : ℕ → Cell) (cap base : ℕ) : Prop :=
  cap = 2 * numVlArbElementsInBlock → ∀ j < numVlArbElementsInBlock,
    (if forceUpdate r p then adapted r p portNum (fun _ => (0, 0)) 0 (base + 1) j
      else s.hw (.vlArb p (base + 1)) j) =
      wantedCell r p portNum table cap base (numVlArbElementsInBlock + j)

lemma wantedCell_noHook {p : Physp N} {portNum : ℕ} {table : ℕ → Cell} {cap base i : ℕ}
    (h : r.routingEngineUsed.bind RoutingEngine.updateVlarb = none) (hi : i < cap) :
    wantedCell r p portNum table cap base i = ((table i).1 &&& vlMask r p, (table i).2) := by
  have hdiv := Nat.div_add_mod' i numVlArbElementsInBlock
  have hmod := Nat.mod_lt i (show 0 < numVlArbElementsInBlock by decide)
  have hlen : i % numVlArbElementsInBlock <
      min (cap - i / numVlArbElementsInBlock * numVlArbElementsInBlock) numVlArbElementsInBlock := by omega
  simp only [wantedCell, adapted, h, if_pos hlen, hdiv]

end Spec

section Parse

variable {e : EntryText} {rest : Str}

lemma NumText.parse (n : NumText) (h : ∀ c ∈ rest.head?, c = ':' ∨ c = ',') :
    parseOneUnsigned (n.text ++ rest) = (n.value % 2 ^ 32, rest.drop 1) := by
  rw [parseOneUnsigned, n.reads rest h]

lemma parseVlarbEntry_text (h : ∀ c ∈ rest.head?, c = ',') :
    parseVlarbEntry (e.text ++ rest) = (e.cell, rest.drop 1) := by
  have hvl : parseOneUnsigned (e.vl.text ++ ':' :: (e.weight.text ++ rest)) =
      (e.vl.value % 2 ^ 32, e.weight.text ++ rest) := e.vl.parse fun c hc => .inl (Option.some.inj hc).symm
  have hweight : parseOneUnsigned (e.weight.text ++ rest) = (e.weight.value % 2 ^ 32, rest.drop 1) :=
    e.weight.parse fun c hc => .inr (h c hc)
  rw [parseVlarbEntry, EntryText.text, List.append_assoc, List.cons_append, hvl]
  dsimp only
  rw [hweight]
  rfl

lemma parseEntries_nil (k : ℕ) : parseEntries parseVlarbEntry k [] = List.replicate k (0, 0) := by
  induction k with
  | zero => rfl
  | succ k ih =>
    have hnil : parseVlarbEntry [] = ((0, 0), []) := rfl
    rw [parseEntries, hnil, ih, List.replicate_succ]

lemma parseEntries_tableText (es : List EntryText) (k : ℕ) (h : es.length ≤ k) :
    parseEntries parseVlarbEntry k (tableText es) = es.map EntryText.cell ++ List.replicate
        (k - es.length) (0, 0) := by
  induction es generalizing k with
  | nil => exact parseEntries_nil k
  | cons e es ih =>
    obtain ⟨k, rfl⟩ := Nat.exists_eq_add_one_of_ne_zero (Nat.ne_of_gt (Nat.zero_lt_of_lt h))
    have hk : es.length ≤ k := Nat.le_of_succ_le_succ h
    have htext : ∃ rest, tableText (e :: es) = e.text ++ rest ∧ (∀ c ∈ rest.head?, c = ',') ∧
        rest.drop 1 = tableText es := by
      cases es with
      | nil => exact ⟨[], (List.append_nil _).symm, fun c hc => (by cases hc), rfl⟩
      | cons e' es => exact ⟨',' :: tableText (e' :: es), rfl, fun c hc => (Option.some.inj hc).symm, rfl⟩
    obtain ⟨rest, heq, hrest, hdrop⟩ := htext
    rw [parseEntries, heq, parseVlarbEntry_text hrest, hdrop, ih k hk, List.map_cons, List.cons_append,
      List.length_cons, Nat.add_sub_add_right]

lemma vlarbBlocks_tableText {es : List EntryText} (h : es.length ≤ 2 * numVlArbElementsInBlock) (b i : ℕ) :
    vlarbBlocks (tableText es) b i = tableCell es (numVlArbElementsInBlock * b + i) := by
  rw [vlarbBlocks, parseEntries_tableText es _ h, tableCell]
  generalize numVlArbElementsInBlock * b + i = j
  rw [List.getD_eq_getElem?_getD, List.getD_eq_getElem?_getD]
  by_cases hj : j < (es.map EntryText.cell).length
  · rw [List.getElem?_append_left hj]
  · rw [List.getElem?_append_right (not_lt.mp hj), List.getElem?_eq_none (not_lt.mp hj), List.getElem?_replicate]
    split_ifs
    · rfl
    · rfl

end Parse

section Queue

variable {N : Type} [DecidableEq N] {us : List (Update N)} {s : (Tbl N → Block) × List (Update N)} {t : Tbl N}

lemma updateTable_ne {u : Update N} (hu : u.tbl ≠ t) :
    (updateTable s u).1 t = s.1 t ∧ (updateTable s u).2.filter (·.tbl = t) = s.2.filter (·.tbl = t) := by
  rw [updateTable]
  split_ifs with hskip
  · exact ⟨rfl, rfl⟩
  · exact ⟨Function.update_of_ne hu.symm _ _, by simp [List.filter_append, hu]⟩

lemma foldl_updateTable_ne (h : ∀ u ∈ us, u.tbl ≠ t) : (us.foldl updateTable s).1 t = s.1 t ∧
    (us.foldl updateTable s).2.filter (·.tbl = t) = s.2.filter (·.tbl = t) := by
  induction us generalizing s with
  | nil => exact ⟨rfl, rfl⟩
  | cons u us ih =>
    obtain ⟨hst, hq⟩ := updateTable_ne (s := s) (h u List.mem_cons_self)
    obtain ⟨hst', hq'⟩ := ih (s := updateTable s u) fun v hv => h v (List.mem_cons_of_mem u hv)
    exact ⟨hst'.trans hst, hq'.trans hq⟩

lemma foldl_updateTable_once {u : Update N} {vs : List (Update N)} {st : Tbl N → Block} (ht : u.tbl = t)
    (hus : ∀ v ∈ us, v.tbl ≠ t) (hvs : ∀ v ∈ vs, v.tbl ≠ t) :
    ((us ++ u :: vs).foldl updateTable (st, [])).2.filter (·.tbl = t) =
      if u.force = false ∧ ∀ i < u.len, st t i = u.mad.block i then [] else [u] := by
  obtain ⟨hst, hq⟩ := foldl_updateTable_ne (s := (st, [])) hus
  rw [List.foldl_append, List.foldl_cons, (foldl_updateTable_ne hvs).2, updateTable, ht, hst]
  by_cases h : u.force = false ∧ ∀ i < u.len, st t i = u.mad.block i
  · rw [if_pos (by simpa using h), if_pos h, hq]
    rfl
  · rw [if_neg (by simpa using h), if_neg h, List.filter_append, hq]
    simp [ht]

end Queue

section Port

variable {N : Type} [DecidableEq N] (F : Fabric N) (r : Round N) {p : Physp N} {portNum : ℕ} {cfg : QosConfig}

def blockCap (p : Physp N) (b : ℕ) : ℕ := if b < 2 then F.vlArbLowCap p else F.vlArbHighCap p

def blockTable (cfg : QosConfig) (b : ℕ) : Block := if b < 2 then cfg.vlarbLow b else cfg.vlarbHigh (b - 2)

/-- What `vlarb_update` computes for a block. -/
def blockUpdate (p : Physp N) (portNum : ℕ) (cfg : QosConfig) (b : ℕ) : Update N :=
  vlarbUpdateTableBlock r p portNum (blockTable cfg b) (blockLen (blockCap F p b) (b % 2)) b

def blockPart (p : Physp N) (portNum : ℕ) (cfg : QosConfig) (b : ℕ) : List (Update N) :=
  if numVlArbElementsInBlock * (b % 2) < blockCap F p b then [blockUpdate F r p portNum cfg b] else []

omit [DecidableEq N] in
lemma mem_blockPart {b : ℕ} {u : Update N} (h : u ∈ blockPart F r p portNum cfg b) : u.tbl = .vlArb p b := by
  rw [blockPart, List.mem_ite_nil_right, List.mem_singleton] at h
  rw [h.2]
  rfl

omit [DecidableEq N] in
lemma vlarbUpdate_eq (hcap : F.vlCap p ≠ 1) :
    vlarbUpdate F r p portNum cfg = (List.range 4).flatMap (blockPart F r p portNum cfg) := by
  have hrange : List.range 4 = [0, 1, 2, 3] := rfl
  rw [vlarbUpdate, if_neg hcap, hrange]
  simp only [List.flatMap_cons, List.flatMap_nil, List.append_nil, List.append_assoc]
  rfl

omit [DecidableEq N] in
lemma vlarbUpdate_split (hcap : F.vlCap p ≠ 1) {b : ℕ} (hb : b < 4)
    (hroom : numVlArbElementsInBlock * (b % 2) < blockCap F p b) :
    ∃ us vs, vlarbUpdate F r p portNum cfg = us ++ blockUpdate F r p portNum cfg b :: vs ∧
      (∀ v ∈ us, v.tbl ≠ .vlArb p b) ∧ ∀ v ∈ vs, v.tbl ≠ .vlArb p b := by
  have hsplit : List.range 4 = List.range b ++ b :: List.range' (b + 1) (3 - b) := by
    interval_cases b
    all_goals rfl
  have hne : ∀ b' ≠ b, ∀ v ∈ blockPart F r p portNum cfg b', v.tbl ≠ .vlArb p b := by
    intro b' hb' v hv heq
    rw [mem_blockPart F r hv] at heq
    exact hb' (Tbl.vlArb.inj heq).2
  refine ⟨(List.range b).flatMap (blockPart F r p portNum cfg),
    (List.range' (b + 1) (3 - b)).flatMap (blockPart F r p portNum cfg), ?_, fun v hv => ?_, fun v hv => ?_⟩
  · rw [vlarbUpdate_eq F r hcap, hsplit, List.flatMap_append, List.flatMap_cons, blockPart, if_pos hroom]
    rfl
  · obtain ⟨b', hb', hv⟩ := List.mem_flatMap.mp hv
    exact hne b' (List.mem_range.mp hb').ne v hv
  · obtain ⟨b', hb', hv⟩ := List.mem_flatMap.mp hv
    rw [List.mem_range'_1] at hb'
    exact hne b' (by omega) v hv

lemma vlarbRound_hw (hport : if F.isSwitch p.node then portNum = p.portNum ∧ portNum < 256 else portNum = 0)
    (hcap : F.vlCap p ≠ 1) {b : ℕ} (hb : b < 4) (hroom : numVlArbElementsInBlock * (b % 2) < blockCap F p b)
    {s : Tables N} (hs : s.stored (.vlArb p b) = s.hw (.vlArb p b)) :
    (vlarbRound F r p portNum cfg s).hw (.vlArb p b) =
      if forceUpdate r p = false ∧ ∀ j < blockLen (blockCap F p b) (b % 2),
        s.hw (.vlArb p b) j = (blockUpdate F r p portNum cfg b).mad.block j
      then s.hw (.vlArb p b) else (blockUpdate F r p portNum cfg b).mad.block := by
  obtain ⟨us, vs, hsplit, hus, hvs⟩ := @vlarbUpdate_split N F r p portNum cfg hcap b hb hroom
  have hproper : ∀ u ∈ ((vlarbUpdate F r p portNum cfg).foldl updateTable (s.stored, [])).2,
      tblOf F u.mad = some u.tbl :=
    fun u hu => (vlarbUpdate_proper F r hport (mem_of_mem_foldl hu)).tblOf
  have honce : (((us ++ blockUpdate F r p portNum cfg b :: vs).foldl updateTable (s.stored, [])).2.filter
      (·.tbl = .vlArb p b)) =
      if forceUpdate r p = false ∧ ∀ j < blockLen (blockCap F p b) (b % 2),
        s.stored (.vlArb p b) j = (blockUpdate F r p portNum cfg b).mad.block
            j then [] else [blockUpdate F r p portNum cfg b] :=
    foldl_updateTable_once rfl hus hvs
  rw [vlarbRound, (deliver_all F hproper fun _ => rfl).1, hsplit, honce, hs]
  by_cases hskip : forceUpdate r p = false ∧ ∀ j < blockLen (blockCap F p b) (b % 2),
      s.hw (.vlArb p b) j = (blockUpdate F r p portNum cfg b).mad.block j
  · rw [if_pos hskip, if_pos hskip]
    rfl
  · rw [if_neg hskip, if_neg hskip]
    rfl

variable {F r}

omit [DecidableEq N] in
lemma blockUpdate_cell {b j : ℕ} (hj : j < blockLen (blockCap F p b) (b % 2)) :
    (blockUpdate F r p portNum cfg b).mad.block j =
      ((adapted r p portNum (fun i => if i < blockLen (blockCap F p b) (b % 2) then blockTable cfg b i else (0, 0))
          (blockLen (blockCap F p b) (b % 2)) b j).1 &&& vlMask r p,
        (adapted r p portNum
            (fun i => if i < blockLen (blockCap F p b) (b % 2) then blockTable cfg b i else (0, 0))
          (blockLen (blockCap F p b) (b % 2)) b j).2) := if_pos hj

lemma vlarbRound_cell (hport : if F.isSwitch p.node then portNum = p.portNum ∧ portNum < 256 else portNum = 0)
    (hcap : F.vlCap p ≠ 1) {b : ℕ} (hb : b < 4) (hroom : numVlArbElementsInBlock * (b % 2) < blockCap F p b)
    {s : Tables N} (hs : s.stored (.vlArb p b) = s.hw (.vlArb p b)) {j : ℕ}
    (hj : j < blockLen (blockCap F p b) (b % 2)) :
    (vlarbRound F r p portNum cfg s).hw (.vlArb p b) j = (blockUpdate F r p portNum cfg b).mad.block j := by
  rw [vlarbRound_hw F r hport hcap hb hroom hs]
  split_ifs with hsame
  · exact hsame.2 j hj
  · rfl

lemma vlarbRound_full (hport : if F.isSwitch p.node then portNum = p.portNum ∧ portNum < 256 else portNum = 0)
    (hcap : F.vlCap p ≠ 1) {b : ℕ} (hb : b < 4) (hodd : b % 2 = 1)
    (hfull : blockCap F p b = 2 * numVlArbElementsInBlock)
    {s : Tables N} (hs : s.stored (.vlArb p b) = s.hw (.vlArb p b)) (j : ℕ) :
    (vlarbRound F r p portNum cfg s).hw (.vlArb p b) j =
      if forceUpdate r p then adapted r p portNum (fun _ => (0, 0)) 0 b j else s.hw (.vlArb p b) j := by
  have hlen : blockLen (blockCap F p b) (b % 2) = 0 := by
    rw [hodd, hfull]
    rfl
  have hroom : numVlArbElementsInBlock * (b % 2) < blockCap F p b := by
    rw [hodd, hfull]
    decide
  rw [vlarbRound_hw F r hport hcap hb hroom hs, hlen]
  by_cases hforce : forceUpdate r p = true
  · rw [if_neg fun h => Bool.false_ne_true (h.1.symm.trans hforce), if_pos hforce]
    have hblock : blockUpdate F r p portNum cfg b = vlarbUpdateTableBlock r p portNum (blockTable cfg b) 0 b :=
      congrArg (fun len => vlarbUpdateTableBlock r p portNum (blockTable cfg b) len b) hlen
    rw [hblock]
    exact congrFun (congrArg (fun t => adapted r p portNum t 0 b) (funext fun i => if_neg (Nat.not_lt_zero i))) j
  · have hforce : forceUpdate r p = false := Bool.eq_false_of_not_eq_true hforce
    rw [if_pos ⟨hforce, fun i hi => absurd hi (Nat.not_lt_zero i)⟩, hforce, if_neg Bool.false_ne_true]

/-- One of the two tables of a port, `base` being its first block. -/
lemma programmed_iff (hport : if F.isSwitch p.node then portNum = p.portNum ∧ portNum < 256 else portNum = 0)
    (hcap : F.vlCap p ≠ 1) {base : ℕ} (hbase : base = 0 ∨ base = 2) {table : ℕ → Cell} {cap : ℕ}
    (hblockCap : ∀ k < 2, blockCap F p (base + k) = cap) (hle : cap ≤ 2 * numVlArbElementsInBlock)
    (htable : ∀ k < 2, ∀ j, blockTable cfg (base + k) j = table (numVlArbElementsInBlock * k + j))
    {s : Tables N} (hs : ∀ b < 4, s.stored (.vlArb p b) = s.hw (.vlArb p b)) :
    Programmed r (vlarbRound F r p portNum cfg s) p portNum table cap base ↔
        HalfThere r s p portNum table cap base := by
  have hfull : cap = 2 * numVlArbElementsInBlock → ∀ j,
      (vlarbRound F r p portNum cfg s).hw (.vlArb p (base + 1)) j =
        if forceUpdate r p then adapted r p portNum (fun _ => (0, 0)) 0 (base + 1) j else s.hw
            (.vlArb p (base + 1)) j :=
    fun h => vlarbRound_full hport hcap (by omega) (by omega) ((hblockCap 1 one_lt_two).trans h) (hs _ (by omega))
  have hcounted : ∀ k < 2, ∀ j < numVlArbElementsInBlock, numVlArbElementsInBlock * k + j < cap →
      blockLen cap k = min (cap - k * numVlArbElementsInBlock) numVlArbElementsInBlock →
      (vlarbRound F r p portNum cfg s).hw (.vlArb p (base + k)) j =
        wantedCell r p portNum table cap base (numVlArbElementsInBlock * k + j) := by
    intro k hk j hj hroom hlen
    have hmod : (base + k) % 2 = k := by omega
    have hj' : j < blockLen (blockCap F p (base + k)) ((base + k) % 2) := by
      rw [hblockCap k hk, hmod, hlen]
      simp only [numVlArbElementsInBlock] at hj hroom ⊢
      omega
    rw [vlarbRound_cell hport hcap (by omega) (by rw [hmod, hblockCap k hk]; omega) (hs _ (by omega)) hj',
      blockUpdate_cell hj', hblockCap k hk, hmod, hlen, wantedCell, Nat.mul_add_mod, Nat.mod_eq_of_lt hj,
      Nat.mul_add_div (Nat.zero_lt_of_lt hj),
      Nat.div_eq_of_lt hj, Nat.add_zero]
    have hcells : (fun i => if i < min (cap - k * numVlArbElementsInBlock) numVlArbElementsInBlock then
        blockTable cfg (base + k) i else (0, 0)) = fun i =>
          if i < min (cap - k * numVlArbElementsInBlock) numVlArbElementsInBlock then
            table (k * numVlArbElementsInBlock + i) else (0, 0) := by
      funext i
      rw [htable k hk, Nat.mul_comm]
    rw [hcells]
  constructor
  · intro h hcap' j hj
    rw [← hfull hcap', ← h (numVlArbElementsInBlock + j) (by omega), Nat.add_div_left j (Nat.zero_lt_of_lt hj),
      Nat.div_eq_of_lt hj, Nat.add_mod_left, Nat.mod_eq_of_lt hj]
  · intro h i hi
    have hj := Nat.mod_lt i (show 0 < numVlArbElementsInBlock by decide)
    have hsplit := Nat.div_add_mod i numVlArbElementsInBlock
    have hk : i / numVlArbElementsInBlock < 2 := Nat.div_lt_of_lt_mul (by rw [Nat.mul_comm]; omega)
    by_cases hhalf : cap = 2 * numVlArbElementsInBlock ∧ i / numVlArbElementsInBlock = 1
    · obtain ⟨hcap', hone⟩ := hhalf
      rw [hone, Nat.mul_one] at hsplit
      rw [hone, hfull hcap', h hcap' _ hj, hsplit]
    · have hlen : blockLen cap (i / numVlArbElementsInBlock) =
          min (cap - i / numVlArbElementsInBlock * numVlArbElementsInBlock) numVlArbElementsInBlock := by
        interval_cases hdiv : i / numVlArbElementsInBlock
        · rfl
        · have hlt : cap < 2 * numVlArbElementsInBlock := lt_of_le_of_ne hle fun he => hhalf ⟨he, rfl⟩
          rw [blockLen, if_neg one_ne_zero]
          simp only [numVlArbElementsInBlock] at hlt hsplit ⊢
          omega
      have hcell := hcounted _ hk _ hj (by omega) hlen
      rwa [hsplit] at hcell

/-- Both tables are programmed exactly if what is left in the second half of a full one is right. -/
theorem vlarb_programmed_iff (F : Fabric N) (r : Round N) (p : Physp N) (portNum : ℕ)
    (hport : if F.isSwitch p.node then portNum = p.portNum ∧ portNum < 256 else portNum = 0) (hcap : F.vlCap p ≠ 1)
    (hlowCap : F.vlArbLowCap p ≤ 64) (hhighCap : F.vlArbHighCap p ≤ 64) (opt dflt : QosOptions)
    (low high : List EntryText)
    (hlow : low.length ≤ 64) (hhigh : high.length ≤ 64)
    (hoptLow : optionString opt.vlarbLow dflt.vlarbLow defaultVlarbLow = tableText low)
    (hoptHigh : optionString opt.vlarbHigh dflt.vlarbHigh defaultVlarbHigh = tableText high)
    (s : Tables N) (hs : ∀ b, s.stored (.vlArb p b) = s.hw (.vlArb p b)) :
    let s' := vlarbRound F r p portNum (qosBuildConfig opt dflt).toQosConfig s
    (Programmed r s' p portNum (tableCell low) (F.vlArbLowCap p) 0 ∧
        Programmed r s' p portNum (tableCell high) (F.vlArbHighCap p) 2) ↔
      HalfThere r s p portNum (tableCell low) (F.vlArbLowCap p) 0 ∧
        HalfThere r s p portNum (tableCell high) (F.vlArbHighCap p) 2 := by
  have hlowTable : ∀ k < 2, ∀ j, blockTable (qosBuildConfig opt dflt).toQosConfig (0 + k) j =
      tableCell low (numVlArbElementsInBlock * k + j) := by
    intro k hk j
    have hb : blockTable (qosBuildConfig opt dflt).toQosConfig (0 + k) = vlarbBlocks (tableText low) k := by
      rw [blockTable, Nat.zero_add, if_pos hk, ← hoptLow]
      rfl
    rw [hb]
    exact vlarbBlocks_tableText hlow k j
  have hhighTable : ∀ k < 2, ∀ j, blockTable (qosBuildConfig opt dflt).toQosConfig (2 + k) j =
      tableCell high (numVlArbElementsInBlock * k + j) := by
    intro k hk j
    have hb : blockTable (qosBuildConfig opt dflt).toQosConfig (2 + k) = vlarbBlocks (tableText high) k := by
      rw [blockTable, if_neg (by omega), Nat.add_sub_cancel_left, ← hoptHigh]
      rfl
    rw [hb]
    exact vlarbBlocks_tableText hhigh k j
  have hlowPart := programmed_iff (r := r) hport hcap (.inl rfl) (fun k hk => if_pos (by omega)) hlowCap hlowTable
    fun b _ => hs b
  have hhighPart := programmed_iff (r := r) hport hcap (.inr rfl) (fun k hk => if_neg (by omega))
    hhighCap hhighTable fun b _ => hs b
  exact and_congr hlowPart hhighPart

end Port

section Sample

def NumText.ofNat (n : ℕ) (h : n ≤ ullongMax) : NumText where
  text := printDec n
  value := n
  reads rest hr := by
    refine strtoull_printDec_append h fun c hc => ?_
    rcases hr c hc with rfl | rfl
    · decide
    · decide

def sampleEntry : EntryText := ⟨NumText.ofNat 0 (Nat.zero_le _), NumText.ofNat 4 (by decide)⟩

def sampleOptions (k : ℕ) : QosOptions := ⟨0, -1, some [], some (tableText (List.replicate k sampleEntry)), none⟩

theorem vlarb_programmed_iff_sample :
    let s' := vlarbRound caFabric (sampleRound 4) ⟨(),
        1⟩ 0 (qosBuildConfig (sampleOptions 2) (sampleOptions 0)).toQosConfig sampleTables
    (Programmed (sampleRound 4) s' ⟨(), 1⟩ 0 (tableCell (List.replicate 2 sampleEntry)) 8 0 ∧
        Programmed (sampleRound 4) s' ⟨(), 1⟩ 0 (tableCell []) 8 2) ↔
      HalfThere (sampleRound 4) sampleTables ⟨(), 1⟩ 0 (tableCell (List.replicate 2 sampleEntry)) 8 0 ∧
        HalfThere (sampleRound 4) sampleTables ⟨(), 1⟩ 0 (tableCell []) 8 2 :=
  vlarb_programmed_iff caFabric (sampleRound 4) ⟨(), 1⟩ 0 rfl (by decide) (by decide) (by decide) (sampleOptions 2)
    (sampleOptions 0) (List.replicate 2 sampleEntry) [] (by decide) (by decide) rfl rfl sampleTables fun _ => rfl

def fullFabric : Fabric Unit := { caFabric with vlArbLowCap := fun _ => 64, vlArbHighCap := fun _ => 64 }

def blankTables : Tables Unit := ⟨fun _ _ => (0, 0), fun _ _ => (0, 0)⟩

/-- The 33rd entry does not reach the port. -/
theorem vlarb_full_not_programmed :
    ¬Programmed (sampleRound 4)
      (vlarbRound fullFabric (sampleRound 4) ⟨(),
          1⟩ 0 (qosBuildConfig (sampleOptions 33) (sampleOptions 0)).toQosConfig blankTables)
      ⟨(), 1⟩ 0 (tableCell (List.replicate 33 sampleEntry)) (fullFabric.vlArbLowCap ⟨(), 1⟩) 0 := by
  intro h
  have hcell := h 32 (by decide)
  have hhw : (vlarbRound fullFabric (sampleRound 4) ⟨(),
      1⟩ 0 (qosBuildConfig (sampleOptions 33) (sampleOptions 0)).toQosConfig
      blankTables).hw (.vlArb ⟨(), 1⟩ 1) 0 = (0, 0) :=
    vlarbRound_full (F := fullFabric) (r := sampleRound 4) (p := ⟨(), 1⟩) rfl (by decide) (by decide) rfl rfl rfl 0
  have hwanted : wantedCell (sampleRound 4) ⟨(), 1⟩ 0 (tableCell (List.replicate 33 sampleEntry)) 64 0
      32 = (0, 4) :=
    (wantedCell_noHook _ rfl (by decide)).trans (by decide)
  exact absurd (hhw.symm.trans (hcell.trans hwanted)) (by decide)

end Sample

end OpenSM.Qos
