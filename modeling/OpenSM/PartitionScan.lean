import OpenSM.PartitionLines

/-! The parser of partition files finds what the text says. -/

namespace OpenSM.Partition.Text

open Lib Lib.CString Lib.CBuffer
open Parse (isBlank gidOk Acted Scan NameToken MgroupFlags parseNameToken parseMgroupFlags)

section Tokens

variable {pre w u v rest : Str} {c : Char}

/-- The text of a token, cut: its name and its value are found in it whatever comes behind. -/
structure Cuts (pre w rest : Str) (r : NameToken) (w' : Str) : Prop where
  length : w'.length = w.length
  buf : r.buf = pre ++ (w' ++ nul :: rest)
  len : r.len = w.length + 1
  read : ∀ rest', r.token.read (pre ++ (w' ++ nul :: rest')) = token w

lemma strchr_blank_none (pre rest : Str) (hw : nul ∉ w) (hc : c ∉ w) :
    strchr (pre ++ (w ++ nul :: rest)) (pre.length + (w.takeWhile isBlank).length) c = none := by
  rw [split_blank, ← List.length_append]
  exact strchr_none (notMem_dropWhile hw) fun h => hc ((List.dropWhile_sublist _).subset h)

lemma strchr_blank_some (pre rest : Str) (hw : nul ∉ u ++ c :: v) (hc : c ∉ u) :
    strchr (pre ++ (u ++ c :: v ++ nul :: rest)) (pre.length + (u.takeWhile isBlank).length) c =
      some (pre.length + u.length) := by
  have hu : nul ∉ u.dropWhile isBlank ++ c :: v := by
    intro h
    rcases List.mem_append.mp h with h | h
    · exact hw (List.mem_append_left _ ((List.dropWhile_sublist _).subset h))
    · exact hw (List.mem_append_right _ h)
  have hb : pre ++ (u ++ c :: v ++ nul :: rest) =
      (pre ++ u.takeWhile isBlank) ++ (u.dropWhile isBlank ++ c :: v ++ nul :: rest) := by
    rw [List.append_assoc u, split_blank, List.append_assoc (u.dropWhile _)]
  rw [hb, ← List.length_append, strchr_some hu fun h => hc ((List.dropWhile_sublist _).subset h),
    List.length_append, Nat.add_assoc, ← List.length_append, List.takeWhile_append_dropWhile]

lemma parseNameToken_none (hw : nul ∉ w) (he : '=' ∉ w) :
    Cuts pre w rest (parseNameToken (pre ++ (w ++ nul :: rest)) pre.length) (trimmed isBlank w) := by
  have hp : skipHead isBlank (pre ++ (w ++ nul :: rest)) pre.length = pre.length + (w.takeWhile isBlank).length :=
    skipHead_at (by decide)
  have hq := strchr_blank_none pre rest hw he
  have hs := @stripTail_trimmed isBlank pre _ rest hw
  have hr : parseNameToken (pre ++ (w ++ nul :: rest)) pre.length =
      ⟨pre ++ (trimmed isBlank w ++ nul :: rest), ⟨pre.length + (w.takeWhile isBlank).length, none⟩,
          w.length + 1⟩ := by
    simp only [parseNameToken, hp, hq, cut, strlen_at hw]
    rw [hs]
  rw [hr]
  refine ⟨length_trimmed w, rfl, rfl, fun rest' => ?_⟩
  rw [token_name he]
  exact congrArg (Token.mk · none) (cstr_trimmed hw)

lemma parseNameToken_some (hw : nul ∉ u ++ '=' :: v) (he : '=' ∉ u) :
    Cuts pre (u ++ '=' :: v) rest (parseNameToken (pre ++ (u ++ '=' :: v ++ nul :: rest)) pre.length)
      (trimmed isBlank u ++ nul :: trimmed isBlank v) := by
  have hu : nul ∉ u := fun h => hw (List.mem_append_left _ h)
  have hv : nul ∉ v := fun h => hw (List.mem_append_right _ (List.mem_cons_of_mem _ h))
  have hp : skipHead isBlank (pre ++ (u ++ '=' :: v ++ nul :: rest)) pre.length =
      pre.length + (u.takeWhile isBlank).length := by
    rw [List.append_assoc u]
    exact skipHead_at (by decide)
  have hq := strchr_blank_some pre rest hw he
  have hc : put (pre ++ (u ++ '=' :: v ++ nul :: rest)) (pre.length + u.length) =
      pre ++ (u ++ nul :: (v ++ nul :: rest)) := by
    rw [List.append_assoc u]
    exact put_at _
  have hs := @stripTail_trimmed isBlank pre _ (v ++ nul :: rest) hu
  -- the value is what lies behind the first cut
  have hmid : pre ++ (trimmed isBlank u ++ nul :: (v ++ nul :: rest)) =
      (pre ++ (trimmed isBlank u ++ [nul])) ++ (v ++ nul :: rest) := by simp
  have hlen : pre.length + u.length + 1 = (pre ++ (trimmed isBlank u ++ [nul])).length := by
    simp only [List.length_append, length_trimmed, List.length_singleton, Nat.add_assoc]
  have hp' : skipHead isBlank ((pre ++ (trimmed isBlank u ++ [nul])) ++ (v ++ nul :: rest))
      (pre ++ (trimmed isBlank u ++ [nul])).length = (pre ++ (trimmed isBlank u ++ [nul])).length +
          (v.takeWhile isBlank).length :=
    skipHead_at (by decide)
  have hs' := @stripTail_trimmed isBlank (pre ++ (trimmed isBlank u ++ [nul])) _ rest hv
  have hl : strlen ((pre ++ (trimmed isBlank u ++ [nul])) ++ (v ++ nul :: rest))
      ((pre ++ (trimmed isBlank u ++ [nul])).length + (v.takeWhile isBlank).length) =
          (v.dropWhile isBlank).length :=
    strlen_blank hv
  have hv' : (v.takeWhile isBlank).length + (v.dropWhile isBlank).length = v.length := by
    rw [← List.length_append, List.takeWhile_append_dropWhile]
  have hr : parseNameToken (pre ++ (u ++ '=' :: v ++ nul :: rest)) pre.length =
      ⟨(pre ++ (trimmed isBlank u ++ [nul])) ++ (trimmed isBlank v ++ nul :: rest),
        ⟨pre.length + (u.takeWhile isBlank).length,
          some ((pre ++ (trimmed isBlank u ++ [nul])).length + (v.takeWhile isBlank).length)⟩,
        u.length + 1 + v.length + 1⟩ := by
    simp only [parseNameToken, hp, hq, cut, hc, strlen_at hu, hs]
    rw [hmid, hlen, hp', hs', hl]
    congr 1
    omega
  rw [hr]
  refine ⟨by simp [length_trimmed], by simp, by simp; omega, fun rest' => ?_⟩
  rw [token_val he]
  have hname : cstr (pre ++ (trimmed isBlank u ++ nul :: (trimmed isBlank v ++ nul :: rest')))
      (pre.length + (u.takeWhile isBlank).length) = trim isBlank u := cstr_trimmed hu
  have hval : cstr ((pre ++ (trimmed isBlank u ++ [nul])) ++ (trimmed isBlank v ++ nul :: rest'))
      ((pre ++ (trimmed isBlank u ++ [nul])).length + (v.takeWhile isBlank).length) = trim isBlank v :=
          cstr_trimmed hv
  simp only [List.append_assoc, List.cons_append, List.nil_append] at hname hval ⊢
  simp only [Parse.TokenPtr.read, Option.map_some, hname, hval]

lemma parseNameToken_cuts (hw : nul ∉ w) (pre rest : Str) :
    ∃ w', Cuts pre w rest (parseNameToken (pre ++ (w ++ nul :: rest)) pre.length) w' := by
  by_cases he : '=' ∈ w
  · obtain ⟨u, v, rfl, hu⟩ := exists_cut he
    exact ⟨_, parseNameToken_some hw hu⟩
  · exact ⟨_, parseNameToken_none hw he⟩

lemma cut_strchr (hw : nul ∉ w) (c : Char) (pre rest : Str) :
    let b := pre ++ (w ++ nul :: rest)
    (c ∉ w ∧ strchr b pre.length c = none) ∨
      ∃ u v, w = u ++ c :: v ∧ c ∉ u ∧ strchr b pre.length c = some (pre.length + u.length) ∧
        put b (pre.length + u.length) = pre ++ (u ++ nul :: (v ++ nul :: rest)) := by
  by_cases hc : c ∈ w
  · obtain ⟨u, v, rfl, hu⟩ := exists_cut hc
    refine Or.inr ⟨u, v, rfl, hu, strchr_some hw hu, ?_⟩
    rw [List.append_assoc u]
    exact put_at _
  · exact Or.inl ⟨hc, strchr_none hw hc⟩

lemma behind (pre : Str) {w' : Str} (h : w'.length = w.length) (t : Str) :
    pre ++ (w' ++ nul :: t) = (pre ++ (w' ++ [nul])) ++ t ∧
      pre.length + (w.length + 1) = (pre ++ (w' ++ [nul])).length := by
  constructor
  · simp
  · rw [List.length_append, List.length_append, h, List.length_singleton]

lemma notMem_left {w : Str} (h : nul ∉ u ++ w) : nul ∉ u := fun h' => h (List.mem_append_left _ h')

lemma notMem_right (h : nul ∉ u ++ c :: v) : nul ∉ v :=
  fun h' => h (List.mem_append_right _ (List.mem_cons_of_mem _ h'))

lemma parseMgroupFlags_eq (k : ℕ) : ∀ (pre w rest : Str), nul ∉ w → w.length < k →
    ∃ w', w'.length = w.length ∧ parseMgroupFlags k (pre ++ (w ++ nul :: rest)) pre.length =
      ⟨pre ++ (w' ++ nul :: rest), tokens w, w.length + 1⟩ := by
  induction k with
  | zero => exact fun pre w rest _ hk => absurd hk (Nat.not_lt_zero _)
  | succ k ih =>
    intro pre w rest hw hk
    rcases cut_strchr hw ',' pre rest with ⟨hc, hq⟩ | ⟨u, v, rfl, hu, hq, hput⟩
    · obtain ⟨w', hcut⟩ := parseNameToken_cuts hw pre rest
      refine ⟨w', hcut.length, ?_⟩
      simp only [parseMgroupFlags, hq, cut, Option.isSome_none, Bool.false_eq_true, if_false, hcut.len, hcut.buf,
        hcut.read, tokens_single hc]
    · obtain ⟨u', hcut⟩ := parseNameToken_cuts (notMem_left hw) pre (v ++ nul :: rest)
      obtain ⟨hbuf, hpos⟩ := behind pre hcut.length (v ++ nul :: rest)
      rw [List.length_append, List.length_cons] at hk
      obtain ⟨v', hlen, hrest⟩ := ih (pre ++ (u' ++ [nul])) v rest (notMem_right hw) (by omega)
      refine ⟨u' ++ nul :: v', by simp [hcut.length, hlen], ?_⟩
      simp only [parseMgroupFlags, hq, cut, Option.isSome_some, if_true, hput, hcut.len, hcut.buf, hcut.read, hpos]
      rw [hbuf, hrest, tokens_cons hu]
      simp only [List.append_assoc, List.cons_append, List.nil_append, List.length_append, List.length_cons]
      congr 1
      omega

end Tokens

section Properties

variable {env : Env} {pre w rest : Str} {s : Scan} {closed : Bool}

structure Parsed (env : Env) (closed : Bool) (pre w rest : Str) (len : ℕ) (s : Scan) (es : List (Option Event))
    (r : Scan × Option ℕ) : Prop where
  acted : r.1.acted = run env s.acted es
  moves : r.1.moves = s.moves
  success : r.1.isParseSuccess = s.isParseSuccess
  failed : r.1.acted.ok = false → r.2 = none
  goes : r.1.acted.ok = true → ∃ w' n, w'.length = w.length ∧ r.1.buf = pre ++ (w' ++ nul :: rest) ∧
    r.2 = some (len + n) ∧ n ≤ w.length + 1 ∧ (closed = true → n = w.length + 1)

lemma head_cut (hw : nul ∉ w) (pre rest : Str) :
    let b := pre ++ (w ++ nul :: rest)
    let q := strchr b pre.length ','
    ∃ u z ts, nul ∉ u ∧ cut b q = pre ++ (u ++ nul :: z) ∧ tokens w = token u :: ts ∧
      (q = none ∧ w = u ∧ z = rest ∧ ts = [] ∨
        q.isSome = true ∧ ∃ v, nul ∉ v ∧ w = u ++ ',' :: v ∧ z = v ++ nul :: rest ∧ ts = tokens v) := by
  intro b q
  rcases cut_strchr hw ',' pre rest with ⟨hc, hq⟩ | ⟨u, v, rfl, hu, hq, hput⟩
  · exact ⟨w, rest, [], hw, by rw [show q = none from hq]; rfl, tokens_single hc, Or.inl ⟨hq, rfl, rfl, rfl⟩⟩
  · exact ⟨u, _, tokens v, notMem_left hw, by rw [show q = _ from hq]; exact hput, tokens_cons hu,
      Or.inr ⟨by rw [show q = _ from hq]; rfl, v, notMem_right hw, rfl, rfl, rfl⟩⟩

/-- The entry of a group takes the rest of the text. -/
lemma group_parsed {u z u' : Str} {ts : List Token} {g : Str} {len : ℕ} (hu' : u'.length = u.length)
    (hb : s.buf = pre ++ (u' ++ nul :: z))
    (hcase : w = u ∧ z = rest ∧ ts = [] ∨ ∃ v, nul ∉ v ∧ w = u ++ ',' :: v ∧ z = v ++ nul :: rest ∧ ts = tokens v)
    (ho : s.acted.ok = true) (hclean : (if gidOk g then !ts.isEmpty else ts.isEmpty || !closed) = true) :
    let m := Parse.mgroupCreate s.buf.length s.buf (pre.length + (u.length + 1)) g
    let s' := { s with buf := m.buf }.next env (.entry (.mgid g m.flags))
    Parsed env closed pre w rest len s
      [some (.entry (.mgid g (if gidOk g then ts else [])))]
      (s', if s'.acted.ok then some (len + (u.length + 1) + m.len) else none) := by
  intro m s'
  obtain ⟨w', n, hflags, hlen, hbuf, hn, hle, hclosed⟩ : ∃ w' n, m.flags = (if gidOk g then ts else []) ∧
      w'.length = w.length ∧ m.buf = pre ++ (w' ++ nul :: rest) ∧ u.length + 1 + m.len = n ∧ n ≤ w.length + 1 ∧
      (closed = true → n = w.length + 1) := by
    by_cases hg : gidOk g = true
    · rw [if_pos hg] at hclean ⊢
      rcases hcase with ⟨-, -, rfl⟩ | ⟨v, hv, rfl, rfl, rfl⟩
      · cases hclean
      · obtain ⟨hbv, hpos⟩ := behind pre hu' (v ++ nul :: rest)
        have hk : v.length < s.buf.length := by
          rw [hb]
          simp only [List.length_append, List.length_cons]
          omega
        obtain ⟨v', hv', hm⟩ := parseMgroupFlags_eq s.buf.length (pre ++ (u' ++ [nul])) v rest hv hk
        have hm' : m = ⟨(pre ++ (u' ++ [nul])) ++ (v' ++ nul :: rest), tokens v, v.length + 1⟩ := by
          rw [← hm, ← hbv, ← hb, ← hpos]
          exact if_pos hg
        rw [hm']
        refine ⟨u' ++ nul :: v', _, rfl, by simp [hu', hv'], by simp, rfl, ?_, fun _ => ?_⟩
        · simp only [List.length_append, List.length_cons]
          omega
        · simp only [List.length_append, List.length_cons]
          omega
    · rw [if_neg hg] at hclean ⊢
      have hm : m = ⟨s.buf, [], 0⟩ := if_neg hg
      rw [hm]
      rcases hcase with ⟨rfl, rfl, rfl⟩ | ⟨v, hv, rfl, rfl, rfl⟩
      · exact ⟨u', _, rfl, hu', hb, rfl, le_rfl, fun _ => rfl⟩
      · have hopen : closed = false := by
          have hne : (tokens v).isEmpty = false := by simp [tokens]
          simpa [hne] using hclean
        refine ⟨u' ++ nul :: v, _, rfl, by simp [hu'], by rw [hb]; simp, rfl, ?_, fun h => ?_⟩
        · simp only [List.length_append, List.length_cons]
          omega
        · rw [hopen] at h
          cases h
  have hacted : s'.acted = s.acted.next env (.entry (.mgid g (if gidOk g then ts else []))) :=
    congrArg (fun f => s.acted.next env (.entry (.mgid g f))) hflags
  refine ⟨hacted.trans (step_some ho _).symm, rfl, rfl, fun h => ?_, fun h => ?_⟩
  · have h : s'.acted.ok = false := h
    exact if_neg (by simp [h])
  refine ⟨w', n, hlen, hbuf, ?_, hle, hclosed⟩
  rw [if_pos h, ← hn, Nat.add_assoc]

lemma Parsed.of_buf {b : Str} {len : ℕ} {es : List (Option Event)} {r : Scan × Option ℕ}
    (h : Parsed env closed pre w rest len { s with buf := b } es r) : Parsed env closed pre w rest len s es r :=
  ⟨h.acted, h.moves, h.success, h.failed, h.goes⟩

lemma Parsed.append {u u' v : Str} {c : Char} {len : ℕ} {s' : Scan} {es es' : List (Option Event)}
    {r : Scan × Option ℕ}
    (hu' : u'.length = u.length) (hacted : s'.acted = run env s.acted es) (hm : s'.moves = s.moves)
    (hs : s'.isParseSuccess = s.isParseSuccess)
    (h : Parsed env closed (pre ++ (u' ++ [nul])) v rest (len + (u.length + 1)) s' es' r) :
    Parsed env closed pre (u ++ c :: v) rest len s (es ++ es') r := by
  refine ⟨?_, h.moves.trans hm, h.success.trans hs, h.failed, fun ho => ?_⟩
  · rw [h.acted, hacted, run_append]
  · obtain ⟨v', n, hv', hb, hr, hle, hclosed⟩ := h.goes ho
    refine ⟨u' ++ nul :: v', u.length + 1 + n, by simp [hu', hv'], by rw [hb]; simp, by rw [hr, Nat.add_assoc], ?_,
      fun hc => ?_⟩
    · simp only [List.length_append, List.length_cons]
      omega
    · have := hclosed hc
      simp only [List.length_append, List.length_cons]
      omega

def portSteps (t : Token) : List Step := if t.name = [] then [] else [⟨some (.entry (.port t)), true⟩]

lemma entrySteps_port {t : Token} (ht : t.name ≠ "mgid".toList) (ts : List Token) :
    entrySteps closed (t :: ts) = portSteps t ++ entrySteps closed ts := by
  rw [entrySteps, if_neg ht, portSteps]
  split_ifs <;> rfl

lemma portSteps_acted (t : Token) (ho : s.acted.ok = true) :
    (if t.name = [] then s else s.next env (.entry (.port t))).acted = runSteps env s.acted (portSteps t) := by
  rw [portSteps]
  split_ifs
  · rfl
  · exact (step_some ho _).symm

lemma portSteps_frame (t : Token) :
    let s' := if t.name = [] then s else s.next env (.entry (.port t))
    s'.buf = s.buf ∧ s'.moves = s.moves ∧ s'.isParseSuccess = s.isParseSuccess := by
  split_ifs <;> exact ⟨rfl, rfl, rfl⟩

lemma properties_parsed (k : ℕ) : ∀ (pre w rest : Str) (s : Scan) (len : ℕ), nul ∉ w → w.length < k →
    s.buf = pre ++ (w ++ nul :: rest) → s.acted.ok = true → Clean env s.acted (entrySteps closed (tokens w)) →
    Parsed env closed pre w rest len s ((entrySteps closed (tokens w)).map Step.event)
      (Parse.properties env k s pre.length len) := by
  induction k with
  | zero => exact fun pre w rest s len _ hk => absurd hk (Nat.not_lt_zero _)
  | succ k ih =>
    intro pre w rest s len hw hk hb ho hclean
    obtain ⟨u, z, ts, hu, hcut, htok, hcase⟩ := head_cut hw pre rest
    obtain ⟨u', hc⟩ := parseNameToken_cuts hu pre z
    rw [← hb] at hcut hcase
    rw [htok] at hclean ⊢
    simp only [Parse.properties, hcut, hc.len, hc.buf, hc.read]
    by_cases hmgid : (token u).name = "mgid".toList
    · rw [if_pos hmgid]
      simp only [entrySteps, if_pos hmgid] at hclean ⊢
      have hstep := clean_head hclean ho
      simp only [mgidClean, Bool.and_eq_true] at hstep
      obtain ⟨g, hg⟩ := Option.isSome_iff_exists.mp hstep.1
      simp only [hg, Option.getD_some] at hstep ⊢
      refine Parsed.of_buf (group_parsed (s := { s with buf := pre ++ (u' ++ nul :: z) }) hc.length rfl
          ?_ ho hstep.2)
      rcases hcase with ⟨-, h⟩ | ⟨-, h⟩
      · exact Or.inl h
      · exact Or.inr h
    · rw [if_neg hmgid]
      rw [entrySteps_port hmgid] at hclean ⊢
      rw [List.map_append]
      have hacted := @portSteps_acted env { s with buf := pre ++ (u' ++ nul :: z) } (token u) ho
      obtain ⟨hbuf, hmoves, hsucc⟩ := @portSteps_frame env { s with buf := pre ++ (u' ++ nul :: z) } (token u)
      generalize (if (token u).name = [] then { s with buf := pre ++ (u' ++ nul :: z) }
        else Scan.next env { s with buf := pre ++ (u' ++ nul :: z) } (.entry (.port (token u)))) = s' at *
      have hrest : Clean env s'.acted (entrySteps closed ts) := hacted ▸ (clean_append hclean).2
      cases ho' : s'.acted.ok with
      | false =>
        rw [if_neg (by simp)]
        refine ⟨?_, hmoves, hsucc, fun _ => rfl, fun h => absurd (ho' ▸ h) Bool.false_ne_true⟩
        rw [run_append]
        exact (run_of_not_ok (hacted ▸ ho') _ ▸ hacted)
      | true =>
        rw [if_pos rfl]
        rcases hcase with ⟨hq, rfl, rfl, rfl⟩ | ⟨hq, v, hv, rfl, rfl, rfl⟩
        · rw [if_neg (by simp [hq])]
          refine ⟨?_, hmoves, hsucc, fun h => absurd (ho'.symm.trans h) (by simp), fun _ => ?_⟩
          · rw [show entrySteps closed [] = [] from rfl, List.map_nil, List.append_nil]
            exact hacted
          · exact ⟨u', w.length + 1, hc.length, hbuf, rfl, le_rfl, fun _ => rfl⟩
        · rw [if_pos hq]
          obtain ⟨hbv, hpos⟩ := behind pre hc.length (v ++ nul :: rest)
          rw [List.length_append, List.length_cons] at hk
          rw [hpos]
          exact Parsed.append hc.length hacted hmoves hsucc
            (ih (pre ++ (u' ++ [nul])) v rest s' _ hv (by omega) (hbuf.trans hbv) ho' hrest)

end Properties

section Headers

variable {env : Env} {pre w u v rest : Str} {s : Scan} {closed : Bool}

lemma headerFlags_eq (k : ℕ) : ∀ (pre w rest : Str) (s : Scan) (len : ℕ), nul ∉ w → w.length < k →
    s.buf = pre ++ (w ++ nul :: rest) → s.acted.ok = true →
    ∃ w' s', w'.length = w.length ∧
      Parse.headerFlags env k s pre.length len = (s', pre.length + (w.length + 1), len + (w.length + 1)) ∧
      s'.buf = pre ++ (w' ++ nul :: rest) ∧ s'.acted = run env s.acted (flagEvents (tokens w)) ∧
      s'.moves = s.moves ∧ s'.isParseSuccess = s.isParseSuccess ∧ s'.acted.ok = true := by
  induction k with
  | zero => exact fun pre w rest s len _ hk => absurd hk (Nat.not_lt_zero _)
  | succ k ih =>
    intro pre w rest s len hw hk hb ho
    obtain ⟨u, z, ts, hu, hcut, htok, hcase⟩ := head_cut hw pre rest
    obtain ⟨u', hc⟩ := parseNameToken_cuts hu pre z
    rw [← hb] at hcut hcase
    simp only [Parse.headerFlags, hcut, hc.len, hc.buf, hc.read]
    have hstep : (Acted.next env s.acted (.flag (token u))) = step env s.acted (some (.flag (token u))) :=
      (step_some ho _).symm
    rcases hcase with ⟨hq, rfl, rfl, rfl⟩ | ⟨hq, v, hv, rfl, rfl, rfl⟩
    · rw [if_neg (by simp [hq])]
      exact ⟨u', _, hc.length, rfl, rfl, by rw [htok]; exact hstep, rfl, rfl, rfl⟩
    · rw [if_pos hq]
      obtain ⟨hbv, hpos⟩ := behind pre hc.length (v ++ nul :: rest)
      rw [List.length_append, List.length_cons] at hk
      rw [hpos]
      obtain ⟨v', s', hv', hr, hb', ha, hm, hs, ho'⟩ := ih (pre ++ (u' ++ [nul])) v rest
        ({ s with buf := pre ++ (u' ++ nul :: (v ++ nul :: rest)) }.next env (.flag (token u)))
            (len + (u.length + 1))
        hv (by omega) hbv rfl
      refine ⟨u' ++ nul :: v', s', by simp [hc.length, hv'], ?_, by rw [hb']; simp, ?_, hm, hs, ho'⟩
      · rw [hr, ← hpos]
        simp only [List.length_append, List.length_cons]
        congr 2 <;> omega
      · rw [ha, htok]
        exact congrArg (run env · (flagEvents (tokens v))) hstep

/-- The name of a definition is read when its flags are done. -/
lemma header_eq (hw : nul ∉ u ++ ':' :: v) (hu : ':' ∉ u) (hb : s.buf = pre ++ (u ++ ':' :: v ++ nul :: rest))
    (ho : s.acted.ok = true) (len : ℕ) :
    ∃ t ts w' s', tokens u = t :: ts ∧ w'.length = u.length ∧ s'.buf = pre ++ (w' ++ nul :: (v ++ nul :: rest)) ∧
      s'.moves = s.moves ∧ s'.isParseSuccess = s.isParseSuccess ∧
      s'.acted = run env s.acted (flagEvents ts ++ [some (.create t)]) ∧
      Parse.header env s pre.length len =
        (s', if s'.acted.ok then some (pre.length + (u.length + 1), len + (u.length + 1)) else none) := by
  have hcolon : strchr s.buf pre.length ':' = some (pre.length + u.length) := hb ▸ strchr_some hw hu
  have hput : put s.buf (pre.length + u.length) = pre ++ (u ++ nul :: (v ++ nul :: rest)) := by
    rw [hb, List.append_assoc u]
    exact put_at _
  have hnu : nul ∉ u := notMem_left hw
  obtain ⟨x, z, ts, hx, hcut, htok, hcase⟩ := head_cut hnu pre (v ++ nul :: rest)
  obtain ⟨x', hc⟩ := parseNameToken_cuts hx pre z
  -- what the loop over the flags leaves
  obtain ⟨w', s₁, hlen, hloop, hb₁, ha, hm, hs, ho₁⟩ : ∃ w' s₁, w'.length = u.length ∧
      (if (strchr (pre ++ (u ++ nul :: (v ++ nul :: rest))) pre.length ',').isSome = true then
        Parse.headerFlags env (pre ++ (u ++ nul :: (v ++ nul :: rest))).length
          { s with buf := pre ++ (x' ++ nul :: z) } (pre.length + (x.length + 1)) (len + (x.length + 1))
        else ({ s with buf := pre ++ (x' ++ nul :: z) }, pre.length + (x.length + 1), len + (x.length + 1))) =
        (s₁, pre.length + (u.length + 1), len + (u.length + 1)) ∧
      (∃ z', s₁.buf = pre ++ (x' ++ nul :: z') ∧ s₁.buf = pre ++ (w' ++ nul :: (v ++ nul :: rest))) ∧
      s₁.acted = run env s.acted (flagEvents ts) ∧ s₁.moves = s.moves ∧ s₁.isParseSuccess = s.isParseSuccess ∧
      s₁.acted.ok = true := by
    rcases hcase with ⟨hq, rfl, rfl, rfl⟩ | ⟨hq, y, hy, rfl, rfl, rfl⟩
    · rw [if_neg (by simp [hq])]
      exact ⟨x', _, hc.length, rfl, ⟨_, rfl, rfl⟩, rfl, rfl, rfl, ho⟩
    · rw [if_pos hq]
      obtain ⟨hby, hpos⟩ := behind pre hc.length (y ++ nul :: (v ++ nul :: rest))
      obtain ⟨y', s₁, hy', hr, hb', ha, hm, hs, ho'⟩ := headerFlags_eq
        (pre ++ (x ++ ',' :: y ++ nul :: (v ++ nul :: rest))).length (pre ++ (x' ++ [nul])) y (v ++ nul :: rest)
        { s with buf := pre ++ (x' ++ nul :: (y ++ nul :: (v ++ nul :: rest))) } (len + (x.length + 1)) hy
        (by simp only [List.length_append, List.length_cons]; omega) hby ho
      refine ⟨x' ++ nul :: y', s₁, by simp [hc.length, hy'], ?_,
        ⟨y' ++ nul :: (v ++ nul :: rest), by rw [hb']; simp, by rw [hb']; simp⟩, ha, hm, hs, ho'⟩
      rw [hpos, hr, ← hpos]
      simp only [List.length_append, List.length_cons]
      congr 2 <;> omega
  obtain ⟨z', hz', hb₁⟩ := hb₁
  have hread : Parse.TokenPtr.read (parseNameToken (pre ++ (x ++ nul :: z)) pre.length).token s₁.buf = token x :=
    hz' ▸ hc.read z'
  refine ⟨token x, ts, w', s₁.next env (.create (token x)), htok, hlen, hb₁, hm, hs, ?_, ?_⟩
  · rw [run_append, ← ha]
    exact (step_some ho₁ _).symm
  · simp only [Parse.header, hcolon, hput]
    rw [hcut]
    simp only [hc.len, hc.buf]
    rw [hloop]
    simp only [hread]
    rw [if_neg (by omega)]

/-- The text of a definition on one line, whose first character is no blank. -/
lemma parsePartConf_parsed {ahead : Bool} (hw : nul ∉ w) (hhead : ∀ c ∈ w.head?, isBlank c = false) (hne : w ≠ [])
    (hb : s.buf = pre ++ (w ++ nul :: rest)) (ho : s.acted.ok = true)
    (hclean : Clean env s.acted (partSteps closed ahead s.acted.ctx.conf.prtn.isSome w)) :
    Parsed env closed pre w rest 0 s ((partSteps closed ahead s.acted.ctx.conf.prtn.isSome w).map Step.event)
      (Parse.parsePartConf env s pre.length) := by
  obtain ⟨c, w₀, rfl⟩ := List.exists_cons_of_ne_nil hne
  have hc : isBlank c = false := hhead c rfl
  have hget : s.buf.getD pre.length nul = c := hb ▸ getD_at c
  have hstart : ¬(c = '\t' ∨ c = nul ∨ c = '\n') := by
    rintro (rfl | rfl | rfl)
    · exact absurd hc (by decide)
    · exact hw List.mem_cons_self
    · exact absurd hc (by decide)
  simp only [Parse.parsePartConf, hget, if_neg hstart, Nat.sub_self]
  have hk : (c :: w₀).length < s.buf.length := by
    rw [hb]
    simp only [List.length_append, List.length_cons]
    omega
  cases hp : s.acted.ctx.conf.prtn with
  | some pkey =>
    rw [hp] at hclean
    exact properties_parsed _ pre _ rest s 0 hw hk hb ho hclean
  | none =>
    rw [hp] at hclean
    simp only [partSteps, Option.isSome_none, Bool.false_eq_true, if_false] at hclean ⊢
    by_cases hcol : ':' ∈ c :: w₀
    · obtain ⟨u, v, hcut, hu⟩ := exists_cut hcol
      rw [hcut] at hb hw hclean hk ⊢
      obtain ⟨t, ts, u', s₁, ht, hu', hb₁, hm₁, hs₁, ha₁, hheader⟩ := header_eq hw hu hb ho 0
      rw [headSteps_eq hu ht] at hclean ⊢
      rw [hheader]
      rw [← openSteps_event] at ha₁
      have hrest : Clean env s₁.acted (entrySteps closed (tokens v)) := ha₁ ▸ (clean_append hclean).2
      rw [List.map_append]
      cases ho₁ : s₁.acted.ok with
      | false =>
        simp only [Bool.false_eq_true, if_false]
        refine ⟨?_, hm₁, hs₁, fun _ => rfl, fun h => absurd (ho₁ ▸ h) Bool.false_ne_true⟩
        rw [run_append, ← ha₁, run_of_not_ok ho₁]
      | true =>
        simp only [if_true]
        obtain ⟨hbv, hpos⟩ := behind pre hu' (v ++ nul :: rest)
        rw [hpos]
        have hk₁ : v.length < s₁.buf.length := by
          rw [hb₁]
          simp only [List.length_append, List.length_cons]
          omega
        exact Parsed.append hu' ha₁ hm₁ hs₁ (properties_parsed _ (pre ++ (u' ++ [nul])) v rest s₁ _
          (notMem_right hw) hk₁ (hb₁.trans hbv) ho₁ hrest)
    · have hq : strchr s.buf pre.length ':' = none := hb ▸ strchr_none hw hcol
      simp only [Parse.header, hq]
      refine ⟨?_, rfl, rfl, fun _ => rfl, fun h => absurd h Bool.false_ne_true⟩
      rw [headSteps, if_neg hcol]
      exact (step_none ho).symm

end Headers

section Definition

variable {env : Env} {a : Acted} {closed : Bool}

lemma next_prtn_flag (a : Acted) (t : Token) : (a.next env (.flag t)).ctx.conf.prtn = a.ctx.conf.prtn :=
  prtn_partitionAddFlag _ _

lemma next_prtn_entry (a : Acted) (e : Entry) : (a.next env (.entry e)).ctx.conf = a.ctx.conf := by
  simp only [Acted.next, act]
  cases hp : a.ctx.conf.prtn with
  | none => rfl
  | some pkey =>
    cases e with
    | port t =>
      simp only [Option.bind_some, actEntry]
      cases partitionAddPort env a.ctx.subn a.ctx.conf pkey t <;> rfl
    | mgid val flags => rfl

lemma next_prtn_create {t : Token} (h : (a.next env (.create t)).ok = true) :
    (a.next env (.create t)).ctx.conf.prtn.isSome = true := by
  simp only [Acted.next, act, partitionCreate] at h ⊢
  cases hp : (partitionPkey t).bind (osmPrtnMakeNew env a.ctx.subn (nameText t)) with
  | none => simp [hp] at h
  | some p => simp only [Option.map_some, Option.getD_some, Option.isSome_some]

lemma run_flags (ts : List Token) : ∀ a : Acted, a.ok = true →
    (run env a (flagEvents ts)).ok = true ∧ (run env a (flagEvents ts)).ctx.conf.prtn = a.ctx.conf.prtn := by
  induction ts with
  | nil => exact fun a h => ⟨h, rfl⟩
  | cons t ts ih =>
    intro a h
    have hs : run env a (flagEvents (t :: ts)) = run env (a.next env (.flag t)) (flagEvents ts) :=
      congrArg (run env · (flagEvents ts)) (step_some h _)
    obtain ⟨ho, hp⟩ := ih (a.next env (.flag t)) rfl
    rw [hs]
    exact ⟨ho, hp.trans (next_prtn_flag a t)⟩

lemma runSteps_entries (ts : List Token) : ∀ a : Acted,
    (runSteps env a (entrySteps closed ts)).ctx.conf = a.ctx.conf := by
  have hstep : ∀ (a : Acted) (e : Entry), (step env a (some (.entry e))).ctx.conf = a.ctx.conf := by
    intro a e
    cases h : a.ok with
    | true => rw [step_some h, next_prtn_entry]
    | false => rw [step, if_neg (by simp [h])]
  induction ts with
  | nil => exact fun a => rfl
  | cons t ts ih =>
    intro a
    rw [entrySteps]
    by_cases hm : t.name = "mgid".toList
    · rw [if_pos hm]
      exact hstep a _
    · rw [if_neg hm]
      by_cases hn : t.name = []
      · rw [if_pos hn]
        exact ih a
      · rw [if_neg hn]
        exact (ih _).trans (hstep a _)

lemma runSteps_part {ahead : Bool} {w : Str} (ha : a.ok = true)
    (ho : (runSteps env a (partSteps closed ahead a.ctx.conf.prtn.isSome w)).ok = true) :
    (runSteps env a (partSteps closed ahead a.ctx.conf.prtn.isSome w)).ctx.conf.prtn.isSome = true := by
  cases hp : a.ctx.conf.prtn with
  | some pkey =>
    simp only [partSteps, Option.isSome_some, if_true, runSteps_entries, hp]
  | none =>
    rw [hp] at ho
    simp only [partSteps, Option.isSome_none, Bool.false_eq_true, if_false] at ho ⊢
    by_cases hc : ':' ∈ w
    · obtain ⟨u, v, rfl, hu⟩ := exists_cut hc
      obtain ⟨t, ts, ht⟩ : ∃ t ts, tokens u = t :: ts :=
        List.exists_cons_of_ne_nil (by simp [tokens])
      rw [headSteps_eq hu ht, runSteps_append] at ho ⊢
      rw [runSteps_entries]
      have hopen : runSteps env a (openSteps t ts) = step env (run env a (flagEvents ts)) (some (.create t)) := by
        rw [runSteps, openSteps_event, run_append]
        rfl
      obtain ⟨hf, -⟩ := run_flags ts a ha
      rw [hopen, step_some hf] at ho ⊢
      refine next_prtn_create ?_
      by_contra hno
      rw [runSteps_of_not_ok (by simpa using hno)] at ho
      exact hno ho
    · rw [headSteps, if_neg hc] at ho
      rw [runSteps, List.map_singleton] at ho
      rw [show run env a [none] = a.fail from step_none ha] at ho
      cases ho

end Definition

section Lines

variable {env : Env} {s : Scan} {t u v : Str}

def LineClosed (t : Str) : Prop := blankText ((t.splitOn ';').getLastD []) = true

structure MoveOk (t : Str) (nul' : ℕ) (m : Parse.Move) : Prop where
  eq : m.nul = nul'
  le : m.p ≤ m.nul + 1
  goesOn : m.goesOn = true → m.p ≤ m.nul
  closed : LineClosed t → m.p ≤ m.nul

def inDef (a : Acted) : Bool := a.ctx.conf.prtn.isSome

def anyText (segs : List (Str × Bool)) : Bool := segs.any fun g => !blankText g.1

structure LineDone (env : Env) (t : Str) (nul' : ℕ) (segs : List (Str × Bool)) (s s' : Scan) : Prop where
  run : runSteps env s.acted (segSteps (inDef s.acted) (marked (t.splitOn ';') ++ segs)) =
    runSteps env s'.acted (segSteps (inDef s'.acted) segs)
  clean : Clean env s'.acted (segSteps (inDef s'.acted) segs)
  moves : ∃ ms, s'.moves = s.moves ++ ms ∧ ∀ m ∈ ms, MoveOk t nul' m
  failed : s'.acted.ok = false → s'.isParseSuccess = -1
  success : s'.acted.ok = true →
      s'.isParseSuccess = if anyText (marked (t.splitOn ';')) then 1 else s.isParseSuccess

lemma clean_of_not_ok {a : Acted} (h : a.ok = false) (ss : List Step) : Clean env a ss := by
  cases ss with
  | nil => trivial
  | cons s ss => exact fun ho => absurd (h.symm.trans ho) Bool.false_ne_true

lemma LineDone.of_failed {nul' : ℕ} {segs : List (Str × Bool)} {s' : Scan} {ss ss' : List Step}
    (heq : segSteps (inDef s.acted) (marked (t.splitOn ';') ++ segs) = ss ++ ss')
    (hacted : s'.acted = runSteps env s.acted ss) (ho : s'.acted.ok = false) (hm : s'.moves = s.moves)
    (hs : s'.isParseSuccess = -1) : LineDone env t nul' segs s s' := by
  refine ⟨?_, clean_of_not_ok ho _, ⟨[], by rw [hm, List.append_nil], by simp⟩, fun _ => hs,
    fun h => absurd (ho.symm.trans h) Bool.false_ne_true⟩
  rw [heq, runSteps_append, ← hacted, runSteps_of_not_ok ho, runSteps_of_not_ok ho]

lemma lineClosed_cons (hu : ';' ∉ u) : LineClosed (u ++ ';' :: v) ↔ LineClosed v := by
  obtain ⟨w, ws, h⟩ := List.exists_cons_of_ne_nil (List.splitOnP_ne_nil (· == ';') v)
  rw [LineClosed, LineClosed, splitOn_cons hu, List.splitOn, h]
  rfl

lemma lineClosed_single (ht : ';' ∉ t) : LineClosed t ↔ blankText t = true := by
  rw [LineClosed, splitOn_single ht]
  rfl

lemma blankText_takeWhile (t : Str) : blankText (t.takeWhile isBlank) = true :=
  List.all_eq_true.mpr fun _ h => List.mem_takeWhile_imp h

lemma partSteps_dropWhile (closed ahead inDef : Bool) (w : Str) :
    partSteps closed ahead inDef (w.dropWhile isBlank) = partSteps closed ahead inDef w := by
  have := partSteps_blank_append (blankText_takeWhile w) closed ahead inDef (w.dropWhile isBlank)
  rw [List.takeWhile_append_dropWhile] at this
  exact this.symm

lemma dropWhile_head (ht : blankText t = false) (hw : nul ∉ t) :
    ∃ c x, t.dropWhile isBlank = c :: x ∧ isBlank c = false ∧ c ≠ nul := by
  cases hd : t.dropWhile isBlank with
  | nil =>
    rw [List.dropWhile_eq_nil_iff] at hd
    have hb : blankText t = true := List.all_eq_true.mpr hd
    rw [ht] at hb
    cases hb
  | cons c x =>
    have := List.head?_dropWhile_not isBlank t
    rw [hd] at this
    have hn : nul ∉ c :: x := hd ▸ notMem_dropWhile hw
    exact ⟨c, x, rfl, by simpa using this, fun h => hn (h ▸ List.mem_cons_self)⟩

lemma parse_closed {pre rest : Str} (hu : ';' ∉ u) (hw : nul ∉ u ++ ';' :: v)
    (hb : s.buf = pre ++ (u ++ ';' :: v ++ nul :: rest))
    (ho : s.acted.ok = true) (hne : blankText u = false) {ahead : Bool}
    (hclean : Clean env s.acted (partSteps true ahead (inDef s.acted) u)) :
    let p := pre.length + (u.takeWhile isBlank).length
    skipHead isBlank s.buf pre.length = p ∧ s.buf.getD p nul ≠ nul ∧
        strchr s.buf p ';' = some (pre.length + u.length) ∧
      Parsed env true (pre ++ u.takeWhile isBlank) (u.dropWhile isBlank) (v ++ nul :: rest) 0 s
        ((partSteps true ahead (inDef s.acted) u).map Step.event)
        (Parse.parsePartConf env { s with buf := cut s.buf (some (pre.length + u.length)) } p) := by
  intro p
  have hnu : nul ∉ u := notMem_left hw
  obtain ⟨c, x, hx, hc, hcn⟩ := dropWhile_head hne hnu
  have hsplit : s.buf = (pre ++ u.takeWhile isBlank) ++ (u.dropWhile isBlank ++ ';' :: (v ++ nul :: rest)) := by
    rw [hb, List.append_assoc u, split_blank]
    rfl
  have hp : p = (pre ++ u.takeWhile isBlank).length := (List.length_append ..).symm
  refine ⟨?_, ?_, hb ▸ strchr_blank_some _ _ hw hu,
      Parsed.of_buf (b := cut s.buf (some (pre.length + u.length))) ?_⟩
  · rw [hb, List.append_assoc u]
    exact skipHead_at (by decide)
  · rw [hsplit, hx, hp, List.cons_append, getD_at]
    exact hcn
  · have hput : cut s.buf (some (pre.length + u.length)) =
        (pre ++ u.takeWhile isBlank) ++ (u.dropWhile isBlank ++ nul :: (v ++ nul :: rest)) := by
      rw [← split_blank, hb, List.append_assoc u]
      exact put_at _
    rw [← partSteps_dropWhile] at hclean ⊢
    rw [hp]
    exact parsePartConf_parsed (s := { s with buf := cut s.buf (some (pre.length + u.length)) })
      (notMem_dropWhile hnu) (by rw [hx]; simpa using hc) (by rw [hx]; simp) hput ho hclean

lemma parse_open {pre rest : Str} (ht : ';' ∉ t) (hw : nul ∉ t) (hb : s.buf = pre ++ (t ++ nul :: rest))
    (ho : s.acted.ok = true) (hne : blankText t = false) {ahead : Bool}
    (hclean : Clean env s.acted (partSteps false ahead (inDef s.acted) t)) :
    let p := pre.length + (t.takeWhile isBlank).length
    skipHead isBlank s.buf pre.length = p ∧ s.buf.getD p nul ≠ nul ∧ strchr s.buf p ';' = none ∧
      Parsed env false (pre ++ t.takeWhile isBlank) (t.dropWhile isBlank) rest 0 s
        ((partSteps false ahead (inDef s.acted) t).map Step.event) (Parse.parsePartConf env s p) := by
  intro p
  obtain ⟨c, x, hx, hc, hcn⟩ := dropWhile_head hne hw
  have hsplit : s.buf = (pre ++ t.takeWhile isBlank) ++ (t.dropWhile isBlank ++ nul :: rest) := by
    rw [hb, split_blank]
  have hp : p = (pre ++ t.takeWhile isBlank).length := (List.length_append ..).symm
  refine ⟨hb ▸ skipHead_at (by decide), ?_, hb ▸ strchr_blank_none _ _ hw ht, ?_⟩
  · rw [hsplit, hx, hp, List.cons_append, getD_at]
    exact hcn
  · rw [← partSteps_dropWhile] at hclean ⊢
    rw [hp]
    exact parsePartConf_parsed (notMem_dropWhile hw) (by rw [hx]; simpa using hc) (by rw [hx]; simp)
        hsplit ho hclean

lemma MoveOk.of_cons {nul' : ℕ} {m : Parse.Move} (hu : ';' ∉ u) (h : MoveOk v nul' m) :
    MoveOk (u ++ ';' :: v) nul' m :=
  ⟨h.eq, h.le, h.goesOn, fun hc => h.closed ((lineClosed_cons hu).mp hc)⟩

lemma LineDone.of_cons {nul' p : ℕ} {segs : List (Str × Bool)} {s₁ s' : Scan} (hu : ';' ∉ u)
    (hne : blankText u = false)
    (ho₁ : s₁.acted.ok = true) (hp : p ≤ nul')
    (hacted : s₁.acted = runSteps env s.acted
      (partSteps true (!true && colonAhead (marked (v.splitOn ';') ++ segs)) (inDef s.acted) u))
    (hm : s₁.moves = s.moves)
    (h : LineDone env v nul' segs
      (({ s₁ with isParseSuccess := 1, moves := s₁.moves ++ [⟨p, nul', true⟩] } : Scan).next env .flush) s') :
    LineDone env (u ++ ';' :: v) nul' segs s s' := by
  have hflush : runSteps env s₁.acted [⟨some .flush, true⟩] = s₁.acted.next env .flush := step_some ho₁ _
  obtain ⟨ms, hms, hok⟩ := h.moves
  refine ⟨?_, h.clean, ⟨⟨p, nul', true⟩ :: ms, ?_, ?_⟩, h.failed, fun ho => ?_⟩
  · rw [marked_cons hu, List.cons_append, segSteps_text hne, runSteps_append, runSteps_append, ← hacted,
        if_pos rfl, hflush]
    exact h.run
  · rw [hms]
    simp [Scan.next, hm]
  · intro m hmem
    rcases List.mem_cons.mp hmem with rfl | hmem
    · exact ⟨rfl, Nat.le_succ_of_le hp, fun _ => hp, fun _ => hp⟩
    · exact (hok m hmem).of_cons hu
  · rw [h.success ho, marked_cons hu]
    have hany : anyText ((u, true) :: marked (v.splitOn ';')) = true := by simp [anyText, hne]
    rw [if_pos hany]
    exact ite_self 1

lemma LineDone.of_open {nul' p : ℕ} {segs : List (Str × Bool)} {s₁ : Scan} (ht : ';' ∉ t)
    (hne : blankText t = false)
    (ho : s.acted.ok = true) (ho₁ : s₁.acted.ok = true) (hp : p ≤ nul' + 1)
    (hacted : s₁.acted = runSteps env s.acted (partSteps false (!false && colonAhead segs) (inDef s.acted) t))
    (hm : s₁.moves = s.moves) (hclean : Clean env s₁.acted (segSteps true segs)) :
    LineDone env t nul' segs s { s₁ with isParseSuccess := 1, moves := s₁.moves ++ [⟨p, nul', false⟩] } := by
  have hdef : inDef s₁.acted = true := by
    rw [hacted] at ho₁ ⊢
    exact runSteps_part ho ho₁
  refine ⟨?_, ?_, ⟨[⟨p, nul', false⟩], by rw [hm], ?_⟩, fun h => absurd (ho₁.symm.trans h) (by simp), fun _ => ?_⟩
  · rw [marked_single ht, List.singleton_append, segSteps_text hne, runSteps_append, runSteps_append, ← hacted]
    show _ = runSteps env s₁.acted (segSteps (inDef s₁.acted) segs)
    rw [hdef]
    rfl
  · show Clean env s₁.acted (segSteps (inDef s₁.acted) segs)
    rw [hdef]
    exact hclean
  · intro m hmem
    obtain rfl := List.mem_singleton.mp hmem
    refine ⟨rfl, hp, fun h => absurd h Bool.false_ne_true, fun hcl => ?_⟩
    rw [(lineClosed_single ht).mp hcl] at hne
    cases hne
  · rw [marked_single ht, if_pos (by simp [anyText, hne])]

lemma scanLine_done (nul' k : ℕ) : ∀ (pre t rest : Str) (s : Scan) (segs : List (Str × Bool)), nul ∉ t →
    t.length < k →
    pre.length + t.length = nul' → s.buf = pre ++ (t ++ nul :: rest) → s.acted.ok = true →
    Clean env s.acted (segSteps (inDef s.acted) (marked (t.splitOn ';') ++ segs)) →
    LineDone env t nul' segs s (Parse.scanLine env nul' k s pre.length) := by
  induction k with
  | zero => exact fun pre t rest s segs _ hk => absurd hk (Nat.not_lt_zero _)
  | succ k ih =>
    intro pre t rest s segs hw hk hnul hb ho hclean
    by_cases hc : ';' ∈ t
    · obtain ⟨u, v, rfl, hu⟩ := exists_cut hc
      rw [marked_cons hu, List.cons_append] at hclean
      cases hne : blankText u with
      | true =>
        rw [segSteps, if_pos hne, if_pos rfl] at hclean
        exact absurd (clean_head hclean ho) Bool.false_ne_true
      | false =>
        have heq := @segSteps_text _ true (inDef s.acted) hne (marked (v.splitOn ';') ++ segs)
        rw [List.append_assoc] at heq
        rw [heq] at hclean
        obtain ⟨hskip, hget, hq, hparsed⟩ := parse_closed hu hw hb ho hne (clean_append hclean).1
        simp only [Parse.scanLine, hskip, if_neg hget, hq]
        generalize Parse.parsePartConf env { s with buf := cut s.buf (some (pre.length + u.length)) }
          (pre.length + (u.takeWhile isBlank).length) = r at hparsed ⊢
        obtain ⟨s₁, o⟩ := r
        cases ho₁ : s₁.acted.ok with
        | false =>
          obtain rfl : o = none := hparsed.failed ho₁
          rw [← List.cons_append, ← marked_cons hu] at heq
          exact LineDone.of_failed heq hparsed.acted ho₁ hparsed.moves rfl
        | true =>
          obtain ⟨w', n, hw', hb₁, hr, -, hn⟩ := hparsed.goes ho₁
          obtain rfl : o = some (0 + n) := hr
          obtain rfl := hn rfl
          have hblank : (u.takeWhile isBlank).length + (u.dropWhile isBlank).length = u.length := by
            rw [← List.length_append, List.takeWhile_append_dropWhile]
          obtain ⟨hbv, hpos⟩ := behind (pre ++ u.takeWhile isBlank) hw' (v ++ nul :: rest)
          rw [List.length_append, List.length_cons] at hk hnul
          have hpos' : pre.length + (u.takeWhile isBlank).length + (0 + ((u.dropWhile isBlank).length + 1)) =
              (pre ++ u.takeWhile isBlank ++ (w' ++ [nul])).length := by
            rw [← hpos, List.length_append, Nat.zero_add]
          have hlen : (pre ++ u.takeWhile isBlank ++ (w' ++ [nul])).length = pre.length + u.length + 1 := by
            rw [← hpos', Nat.zero_add]
            omega
          have hacted : s₁.acted = runSteps env s.acted _ := hparsed.acted
          have hle : (pre ++ u.takeWhile isBlank ++ (w' ++ [nul])).length ≤ nul' := by omega
          have hflush : runSteps env s₁.acted [⟨some .flush, true⟩] = s₁.acted.next env .flush := step_some ho₁ _
          have hrest := (clean_append (clean_append hclean).2).2
          rw [← hacted, if_pos rfl, hflush] at hrest
          simp only [Option.isSome_some, if_true, hpos']
          refine LineDone.of_cons hu hne ho₁ hle hacted hparsed.moves ?_
          refine ih (pre ++ u.takeWhile isBlank ++ (w' ++ [nul])) v rest _ segs (notMem_right hw) ?_ ?_ ?_ ?_ ?_
          · omega
          · omega
          · exact hb₁.trans hbv
          · rfl
          · exact hrest
    · rw [marked_single hc, List.singleton_append] at hclean
      cases hne : blankText t with
      | true =>
        have hall : t.takeWhile isBlank = t := List.takeWhile_eq_self_iff.mpr (List.all_eq_true.mp hne)
        have hskip : skipHead isBlank s.buf pre.length = (pre ++ t).length := by
          rw [hb, List.length_append, skipHead_at (by decide), hall]
        have hget : s.buf.getD (pre ++ t).length nul = nul := by
          rw [hb, ← List.append_assoc, getD_at]
        simp only [Parse.scanLine, hskip, if_pos hget]
        rw [segSteps_blank hne] at hclean
        refine ⟨?_, hclean, ⟨[], by simp, by simp⟩, fun h => absurd (ho.symm.trans h) (by simp), fun _ => ?_⟩
        · rw [marked_single hc, List.singleton_append, segSteps_blank hne]
        · rw [marked_single hc, if_neg (by simp [anyText, hne])]
      | false =>
        have heq := @segSteps_text _ false (inDef s.acted) hne segs
        rw [List.append_assoc] at heq
        rw [heq] at hclean
        obtain ⟨hskip, hget, hq, hparsed⟩ := parse_open hc hw hb ho hne (clean_append hclean).1
        simp only [Parse.scanLine, hskip, if_neg hget, hq, cut]
        generalize Parse.parsePartConf env s (pre.length + (t.takeWhile isBlank).length) = r at hparsed ⊢
        obtain ⟨s₁, o⟩ := r
        cases ho₁ : s₁.acted.ok with
        | false =>
          obtain rfl : o = none := hparsed.failed ho₁
          rw [← List.singleton_append, ← marked_single hc] at heq
          exact LineDone.of_failed heq hparsed.acted ho₁ hparsed.moves rfl
        | true =>
          obtain ⟨w', n, -, -, hr, hle, -⟩ := hparsed.goes ho₁
          obtain rfl : o = some (0 + n) := hr
          have hblank : (t.takeWhile isBlank).length + (t.dropWhile isBlank).length = t.length := by
            rw [← List.length_append, List.takeWhile_append_dropWhile]
          have hacted : s₁.acted = runSteps env s.acted _ := hparsed.acted
          have hrest := (clean_append (clean_append hclean).2).2
          rw [← hacted] at hrest
          have hle : pre.length + (t.takeWhile isBlank).length + (0 + n) ≤ nul' + 1 := by omega
          simp only [Option.isSome_none, Bool.false_eq_true, if_false]
          exact LineDone.of_open hc hne ho ho₁ hle hacted hparsed.moves hrest

end Lines

section Files

variable {env : Env} {s : Scan} {t u v a line text : Str}

/-- Blanks at the end of a line make no difference. -/
lemma splitOn_append_blank (ha : blankText a = true) (t : Str) : ∀ (inDef : Bool) (segs : List (Str × Bool)),
    segSteps inDef (marked ((t ++ a).splitOn ';') ++ segs) = segSteps inDef (marked (t.splitOn ';') ++ segs) ∧
      anyText (marked ((t ++ a).splitOn ';')) = anyText (marked (t.splitOn ';')) ∧
      (LineClosed (t ++ a) ↔ LineClosed t) := by
  have hna : ';' ∉ a := notMem_blank ha (by decide)
  induction hn : t.length using Nat.strong_induction_on generalizing t with
  | _ n ih =>
    intro inDef segs
    by_cases hc : ';' ∈ t
    · obtain ⟨u, v, rfl, hu⟩ := exists_cut hc
      obtain ⟨h₁, h₂, h₃⟩ := ih v.length (by rw [← hn]; simp; omega) v rfl false segs
      rw [List.append_assoc, List.cons_append, marked_cons hu, marked_cons hu, lineClosed_cons hu,
          lineClosed_cons hu]
      refine ⟨?_, ?_, h₃⟩
      · rw [List.cons_append, List.cons_append]
        cases hb : blankText u with
        | true =>
          rw [segSteps, segSteps, if_pos hb, if_pos hb, if_pos rfl, if_pos rfl, h₁]
        | false =>
          rw [segSteps_text hb, segSteps_text hb]
          exact congrArg (_ ++ ·) h₁
      · simp only [anyText, List.any_cons] at h₂ ⊢
        rw [h₂]
    · have hb : blankText (t ++ a) = blankText t := by rw [blankText_append, ha, Bool.and_true]
      have hca : ';' ∉ t ++ a := by simp [hc, hna]
      rw [marked_single hca, marked_single hc, lineClosed_single hca, lineClosed_single hc, hb]
      refine ⟨?_, by simp only [anyText, List.any_cons, hb], Iff.rfl⟩
      rw [List.singleton_append, List.singleton_append]
      cases hb' : blankText t with
      | true => rw [segSteps_blank (hb.trans hb'), segSteps_blank hb']
      | false => rw [segSteps_text (hb.trans hb'), segSteps_text hb', partSteps_append_blank ha]

lemma takeLine_last (ht : '\n' ∉ t) : ∀ k, t.length ≤ k → takeLine k t = (t, []) := by
  induction t with
  | nil =>
    intro k _
    cases k <;> rfl
  | cons c t ih =>
    intro k hk
    obtain ⟨k, rfl⟩ := Nat.exists_eq_succ_of_ne_zero (Nat.pos_iff_ne_zero.mp (Nat.zero_lt_of_lt hk))
    have hc : c ≠ '\n' := fun h => ht (h ▸ List.mem_cons_self)
    rw [takeLine, if_neg hc, ih (fun h => ht (List.mem_cons_of_mem _ h)) k (Nat.le_of_succ_le_succ hk)]

lemma content_eq (hw : '#' ∉ t) : content t = t := by
  rw [content, List.takeWhile_eq_self_iff]
  intro x hx
  simpa using fun h : x = '#' => hw (h ▸ hx)

lemma readLine_eq (hw : nul ∉ line) (b : Str) : ∃ rest,
    Parse.readLine b line = [] ++ (content line ++ nul :: rest) := by
  have hb : line ++ nul :: b.drop (line.length + 1) = [] ++ (line ++ nul :: b.drop (line.length + 1)) := rfl
  rcases cut_strchr hw '#' [] (b.drop (line.length + 1)) with ⟨hc, hq⟩ | ⟨u, v, rfl, hu, hq, hput⟩
  · refine ⟨b.drop (line.length + 1), ?_⟩
    rw [content_eq hc]
    simp only [Parse.readLine]
    rw [hb, show (0 : ℕ) = ([] : Str).length from rfl, hq]
    rfl
  · refine ⟨v ++ nul :: b.drop ((u ++ '#' :: v).length + 1), ?_⟩
    rw [content, takeWhile_ne hu, ← hput]
    simp only [Parse.readLine]
    rw [hb, show (0 : ℕ) = ([] : Str).length from rfl, hq]
    rfl

lemma content_newline (line : Str) : ∃ a, blankText a = true ∧ content (line ++ ['\n']) = content line ++ a := by
  by_cases hc : '#' ∈ line
  · obtain ⟨u, v, rfl, hu⟩ := exists_cut hc
    refine ⟨[], rfl, ?_⟩
    rw [content, content, List.append_assoc, List.cons_append, takeWhile_ne hu, takeWhile_ne hu, List.append_nil]
  · refine ⟨['\n'], by decide, ?_⟩
    rw [content_eq hc, content_eq (by simp [hc])]

structure FileMove (text : Str) (m : Parse.Move) : Prop where
  le : m.p ≤ m.nul + 1
  goesOn : m.goesOn = true → m.p ≤ m.nul
  closed : (∀ line ∈ text.splitOn '\n', LineClosed (content line)) → m.p ≤ m.nul

structure FileDone (env : Env) (text : Str) (s s' : Scan) : Prop where
  acted : s'.acted = runSteps env s.acted (segSteps (inDef s.acted) (fileSegs text))
  moves : ∃ ms, s'.moves = s.moves ++ ms ∧ ∀ m ∈ ms, FileMove text m
  failed : s'.acted.ok = false → s'.isParseSuccess = -1
  success : s'.acted.ok = true → s'.isParseSuccess = if anyText (fileSegs text) then 1 else s.isParseSuccess

lemma fileSegs_cons (hu : '\n' ∉ u) : fileSegs (u ++ '\n' :: v) = segments u ++ fileSegs v := by
  rw [fileSegs, splitOn_cons hu]
  rfl

lemma fileSegs_single (ht : '\n' ∉ t) : fileSegs t = segments t := by
  rw [fileSegs, splitOn_single ht, List.flatMap_singleton]

/-- The line `u` is read, with its end of line or as the last one. -/
lemma readLine_done {segs : List (Str × Bool)} (hw : nul ∉ line)
    (hline : line = u ∨ line = u ++ ['\n']) (ho : s.acted.ok = true)
    (hclean : Clean env s.acted (segSteps (inDef s.acted) (segments u ++ segs))) :
    let b := Parse.readLine s.buf line
    LineDone env (content u) (content line).length segs s
      (Parse.scanLine env (strlen b 0) (b.length + 1) { s with buf := b } 0) := by
  intro b
  obtain ⟨a, ha, hcont⟩ : ∃ a, blankText a = true ∧ content line = content u ++ a := by
    rcases hline with rfl | rfl
    · exact ⟨[], rfl, (List.append_nil _).symm⟩
    · exact content_newline u
  obtain ⟨rest, hb⟩ := readLine_eq hw s.buf
  have hwc : nul ∉ content line := fun h => hw ((List.takeWhile_sublist _).subset h)
  have hlen : strlen b 0 = (content line).length := by
    rw [show b = _ from hb]
    exact @strlen_at [] _ _ hwc
  have hk : (content line).length < b.length + 1 := by
    rw [show b = _ from hb]
    simp only [List.nil_append, List.length_append, List.length_cons]
    omega
  have heq := splitOn_append_blank ha (content u)
  rw [← hcont] at heq
  have hc' : Clean env s.acted (segSteps (inDef s.acted) (marked ((content line).splitOn ';') ++ segs)) :=
    (heq (inDef s.acted) segs).1 ▸ hclean
  have h := scanLine_done (content line).length (b.length + 1) [] (content line) rest { s with buf := b } segs
    hwc hk (Nat.zero_add _) hb ho hc'
  rw [hlen]
  refine ⟨(heq (inDef s.acted) segs).1 ▸ h.run, h.clean, ?_, h.failed, fun ho' => ?_⟩
  · obtain ⟨ms, hms, hok⟩ := h.moves
    exact ⟨ms, hms, fun m hm => ⟨(hok m hm).eq, (hok m hm).le, (hok m hm).goesOn,
      fun hcl => (hok m hm).closed ((heq false []).2.2.mpr hcl)⟩⟩
  · rw [← (heq false []).2.1]
    exact h.success ho'

lemma scanFile_cons {rest : Str} {k : ℕ} (hf : fgets (Parse.lineSize - 1) text = some (line, rest)) :
    Parse.scanFile env (k + 1) s text =
      let b := Parse.readLine s.buf line
      let s' := Parse.scanLine env (strlen b 0) (b.length + 1) { s with buf := b } 0
      if s'.isParseSuccess = -1 then s' else Parse.scanFile env k s' rest := by
  rw [Parse.scanFile, hf]

lemma FileDone.of_line {s₁ s' : Scan} {n : ℕ} (hline : LineDone env (content u) n (fileSegs v) s s₁)
    (ho₁ : s₁.acted.ok = true)
    (hu : '\n' ∉ u) (h : FileDone env v s₁ s') : FileDone env (u ++ '\n' :: v) s s' := by
  obtain ⟨ms, hms, hok⟩ := hline.moves
  obtain ⟨ms', hms', hok'⟩ := h.moves
  have hmem : ∀ l, l ∈ (u ++ '\n' :: v).splitOn '\n' ↔ l = u ∨ l ∈ v.splitOn '\n' := by
    intro l
    rw [splitOn_cons hu, List.mem_cons]
  refine ⟨?_, ⟨ms ++ ms', by rw [hms', hms, List.append_assoc], ?_⟩, h.failed, fun ho => ?_⟩
  · rw [h.acted, fileSegs_cons hu]
    exact hline.run.symm
  · intro m hm
    rcases List.mem_append.mp hm with hm | hm
    · exact ⟨(hok m hm).le, (hok m hm).goesOn, fun hcl => (hok m hm).closed (hcl u ((hmem u).mpr (Or.inl rfl)))⟩
    · exact ⟨(hok' m hm).le, (hok' m hm).goesOn,
          fun hcl => (hok' m hm).closed fun l hl => hcl l ((hmem l).mpr (Or.inr hl))⟩
  · have hany : anyText (segments u ++ fileSegs v) = (anyText (segments u) || anyText (fileSegs v)) :=
        List.any_append
    rw [h.success ho, hline.success ho₁, fileSegs_cons hu, hany]
    show (if anyText (fileSegs v) = true then _ else if anyText (segments u) = true then _ else _) = _
    cases anyText (segments u) <;> cases anyText (fileSegs v) <;> rfl

lemma FileDone.of_failed {s₁ : Scan} {n : ℕ} (hline : LineDone env (content u) n (fileSegs v) s s₁)
    (ho₁ : s₁.acted.ok = false) (hu : '\n' ∉ u) : FileDone env (u ++ '\n' :: v) s s₁ := by
  obtain ⟨ms, hms, hok⟩ := hline.moves
  refine ⟨?_, ⟨ms, hms, fun m hm => ⟨(hok m hm).le, (hok m hm).goesOn, fun hcl => (hok m hm).closed (hcl u ?_)⟩⟩,
    hline.failed, fun h => absurd (ho₁.symm.trans h) Bool.false_ne_true⟩
  · rw [fileSegs_cons hu]
    exact (runSteps_of_not_ok ho₁ _).symm.trans hline.run.symm
  · rw [splitOn_cons hu]
    exact List.mem_cons_self

lemma FileDone.of_last {s₁ : Scan} {n : ℕ} (hline : LineDone env (content t) n [] s s₁) (ht : '\n' ∉ t) :
    FileDone env t s s₁ := by
  obtain ⟨ms, hms, hok⟩ := hline.moves
  refine ⟨?_, ⟨ms, hms, fun m hm => ⟨(hok m hm).le, (hok m hm).goesOn, fun hcl => (hok m hm).closed (hcl t ?_)⟩⟩,
    hline.failed, fun h => ?_⟩
  · have hr := hline.run
    rw [List.append_nil] at hr
    rw [fileSegs_single ht]
    exact hr.symm
  · rw [splitOn_single ht]
    exact List.mem_cons_self
  · rw [fileSegs_single ht]
    exact hline.success h

lemma scanFile_nil (k : ℕ) (s : Scan) : Parse.scanFile env k s [] = s := by
  cases k <;> rfl

lemma scanFile_done (k : ℕ) : ∀ (text : Str) (s : Scan), text.length ≤ k → nul ∉ text →
    (∀ line ∈ text.splitOn '\n', line.length < 4094) → s.acted.ok = true → s.isParseSuccess ≠ -1 →
    Clean env s.acted (segSteps (inDef s.acted) (fileSegs text)) →
        FileDone env text s (Parse.scanFile env k s text) := by
  have hnil : ∀ s : Scan, s.acted.ok = true → FileDone env [] s s := fun s ho =>
    ⟨rfl, ⟨[], by simp, by simp⟩, fun h => absurd (ho.symm.trans h) (by simp), fun _ => rfl⟩
  induction k with
  | zero =>
    intro text s hk _ _ ho _ _
    obtain rfl := List.length_eq_zero_iff.mp (Nat.le_zero.mp hk)
    exact hnil s ho
  | succ k ih =>
    intro text s hk hw hshort ho hs hclean
    by_cases hne : text = []
    · rw [hne]
      exact hnil s ho
    · by_cases hc : '\n' ∈ text
      · obtain ⟨u, v, rfl, hu⟩ := exists_cut hc
        have hlen : u.length < 4094 := hshort u (by rw [splitOn_cons hu]; exact List.mem_cons_self)
        have hf : fgets (Parse.lineSize - 1) (u ++ '\n' :: v) = some (u ++ ['\n'], v) := by
          rw [fgets, if_neg hne]
          exact congrArg some (takeLine_newline hu hlen v)
        have hwu : nul ∉ u ++ ['\n'] := by
          rw [List.mem_append, List.mem_singleton]
          exact not_or_intro (notMem_left hw) (by decide)
        rw [fileSegs_cons hu] at hclean
        have hline := readLine_done hwu (Or.inr rfl) ho hclean
        rw [scanFile_cons hf]
        cases ho₁ : (Parse.scanLine env (strlen (Parse.readLine s.buf (u ++ ['\n'])) 0)
            ((Parse.readLine s.buf (u ++ ['\n'])).length + 1) { s with buf := Parse.readLine s.buf (u ++ ['\n']) }
                0).acted.ok with
        | false =>
          have hfail := hline.failed ho₁
          simp only [if_pos hfail]
          exact FileDone.of_failed hline ho₁ hu
        | true =>
          have hsucc := hline.success ho₁
          have hs₁ : (if anyText (marked ((content u).splitOn ';')) = true then 1 else s.isParseSuccess) ≠ -1 := by
            split_ifs
            · decide
            · exact hs
          rw [← hsucc] at hs₁
          simp only [if_neg hs₁]
          rw [List.length_append, List.length_cons] at hk
          refine FileDone.of_line hline ho₁ hu (ih v _ (by omega) (notMem_right hw) (fun l hl => hshort l ?_) ho₁
              hs₁ hline.clean)
          rw [splitOn_cons hu]
          exact List.mem_cons_of_mem _ hl
      · have hsplit : text.splitOn '\n' = [text] := splitOn_single hc
        have hlen : text.length < 4094 := hshort text (by rw [hsplit]; exact List.mem_cons_self)
        have hf : fgets (Parse.lineSize - 1) text = some (text, []) := by
          rw [fgets, if_neg hne]
          exact congrArg some (takeLine_last hc _ hlen.le)
        rw [fileSegs_single hc, ← List.append_nil (segments text)] at hclean
        have hline := readLine_done hw (Or.inl rfl) ho hclean
        rw [scanFile_cons hf]
        simp only [scanFile_nil, ite_self]
        exact FileDone.of_last hline hc

end Files

section Files

variable {env : Env} {text : Str}

def Acted.start (s : Subn) : Acted := ⟨⟨s, newPartConf⟩, [], true⟩

/-- Up to the first error, the text is such that every part of it is found where it is. -/
structure CleanText (env : Env) (s : Subn) (text : Str) : Prop where
  nul : CBuffer.nul ∉ text
  steps : Clean env (Acted.start s) (segSteps false (fileSegs text))

/-- The text is acted on as it reads, and only up to where its lines end. -/
structure ActsOn (env : Env) (s : Subn) (text : Str) (r : Scan) : Prop where
  log : r.acted.log = (run env (Acted.start s) (textEvents text)).log
  subn : r.acted.ctx.subn = (run env (Acted.start s) (textEvents text)).ctx.subn
  success : r.isParseSuccess = 1 ↔ (run env (Acted.start s) (textEvents text)).ok = true ∧ textEvents text ≠ []
  moves : ∀ m ∈ r.moves, FileMove text m

lemma closed_of_blank {segs : List (Str × Bool)} (hblank : anyText segs = false) :
    ∀ (b : Bool) (a : Acted), a.ok = true →
    Clean env a (segSteps b segs) → (segs.all fun g => blankText g.1 && !g.2) = true := by
  induction segs with
  | nil => exact fun _ _ _ _ => rfl
  | cons g segs ih =>
    intro b a ho hclean
    obtain ⟨w, closed⟩ := g
    simp only [anyText, List.any_cons, Bool.or_eq_false_iff, Bool.not_eq_false'] at hblank
    cases closed with
    | true =>
      rw [segSteps, if_pos hblank.1, if_pos rfl] at hclean
      exact absurd (clean_head hclean ho) Bool.false_ne_true
    | false =>
      rw [segSteps_blank hblank.1] at hclean
      rw [List.all_cons, hblank.1, ih hblank.2 b a ho hclean]
      rfl

/-- A file scanned to its end is acted on as its text reads. -/
lemma FileDone.actsOn {b : Str} {s : Subn} {r : Scan} (h : FileDone env text (Scan.init b s) r)
    (hclean : CleanText env s text) : ActsOn env s text r := by
  have hreads := @reads_text env text
  have hrun : r.acted = run env (Acted.start s) (docEvents false ((noComments false text).splitOn ';')) :=
    h.acted.trans (hreads.means false (Acted.start s) hclean.steps).symm
  have hsame := @sameOutcome_pieces env ((noComments false text).splitOn ';') (Acted.start s)
  rw [← hrun] at hsame
  obtain ⟨ms, hms, hok⟩ := h.moves
  refine ⟨hsame.log.symm, hsame.subn.symm, ?_, fun m hm => hok m ?_⟩
  swap
  · rw [hms] at hm
    exact hm
  have htext : anyText (fileSegs text) = true ↔ textEvents text ≠ [] := by
    rw [Ne, textEvents_eq_nil, hreads.blank]
    constructor
    · intro hany hall
      obtain ⟨g, hg, ht⟩ := List.any_eq_true.mp hany
      have := List.all_eq_true.mp hall g hg
      simp_all
    · intro hall
      by_contra hany
      exact hall (closed_of_blank (by simpa using hany) false _ rfl hclean.steps)
  have hok' : (run env (Acted.start s) (textEvents text)).ok = r.acted.ok := hsame.ok
  rw [hok', ← htext]
  cases ho : r.acted.ok with
  | false =>
    rw [h.failed ho]
    simp
  | true =>
    rw [h.success ho]
    cases anyText (fileSegs text) <;> simp [Scan.init]

lemma parseFile_done (b : Str) {s : Subn} (hshort : ∀ line ∈ text.splitOn '\n', line.length < 4094)
    (hclean : CleanText env s text) :
    FileDone env text (Scan.init b s) (Parse.osmPrtnConfigParseFile env b s text) := by
  have hinit : (0 : ℤ) ≠ -1 := by decide
  exact scanFile_done text.length text (Scan.init b s) le_rfl hclean.nul hshort rfl hinit hclean.steps

/-- The file is acted on once, as its text reads. -/
theorem parseFile_actsOn (env : Env) (b : Str) (s : Subn) (text : Str)
    (hshort : ∀ line ∈ text.splitOn '\n', line.length < 4094) (hclean : CleanText env s text) :
    ActsOn env s text (Parse.osmPrtnConfigParseFile env b s text) :=
  (parseFile_done b hshort hclean).actsOn hclean

lemma clean_of_all {ss : List Step} (h : (ss.all fun x => x.clean) = true) : ∀ a, Clean env a ss := by
  induction ss with
  | nil => exact fun _ => trivial
  | cons x ss ih =>
    intro a _
    rw [List.all_cons, Bool.and_eq_true] at h
    exact ⟨h.1, ih h.2 _⟩

def shareIo : Str := "ShareIO=0x80,ipoib:ALL=full, # all\n SELF;\n".toList

theorem parseFile_actsOn_shareIo :
    (∀ line ∈ shareIo.splitOn '\n', line.length < 4094) ∧ CleanText oneCa (Subn.init 0) shareIo ∧
      ActsOn oneCa (Subn.init 0) shareIo (Parse.osmPrtnConfigParseFile oneCa [] (Subn.init 0) shareIo) := by
  have hshort : ∀ line ∈ shareIo.splitOn '\n', line.length < 4094 := by decide +kernel
  have hclean : CleanText oneCa (Subn.init 0) shareIo := ⟨by decide +kernel, clean_of_all (by decide +kernel) _⟩
  exact ⟨hshort, hclean, parseFile_actsOn oneCa [] (Subn.init 0) shareIo hshort hclean⟩

def groupFlags : Event → List Token
  | .entry (.mgid _ flags) => flags
  | _ => []

def commented : Str := "A=1:\nmgid=ff12::1 # sl=3\n".toList

/-- The comment is read as a flag of the group. -/
theorem comment_read_as_flag :
    ¬∀ (env : Env) (b : Str) (s : Subn) (text : Str),
        (∀ line ∈ text.splitOn '\n', line.length < 4094) → nul ∉ text →
      (Parse.osmPrtnConfigParseFile env b s text).acted.log = (run env (Acted.start s) (textEvents text)).log := by
  intro h
  have hlog := h oneCa [] (Subn.init 0) commented (by decide +kernel) (by decide +kernel)
  have hcode : (Parse.osmPrtnConfigParseFile oneCa [] (Subn.init 0) commented).acted.log.map groupFlags =
      [[], [⟨"sl".toList, some "3".toList⟩]] := by decide +kernel
  have htext : (run oneCa (Acted.start (Subn.init 0)) (textEvents commented)).log.map groupFlags = [[], []] := by
    decide +kernel
  rw [hlog, htext] at hcode
  revert hcode
  decide

lemma run_actAll (es : List Event) : ∀ (c : Parsing) (l : List Event),
    (run env ⟨c, l, true⟩ (es.map some)).ctx = (actAll env c es).1 ∧
      (run env ⟨c, l, true⟩ (es.map some)).ok = (actAll env c es).2 := by
  induction es with
  | nil => exact fun c l => ⟨rfl, rfl⟩
  | cons e es ih =>
    intro c l
    have hrun : run env ⟨c, l, true⟩ ((e :: es).map some) = run env (Acted.next env ⟨c, l, true⟩ e)
        (es.map some) := rfl
    rw [hrun, actAll]
    cases ha : act env c e with
    | some c' =>
      have hn : Acted.next env ⟨c, l, true⟩ e = ⟨c', if Parse.Event.isFlush e then l else l ++ [e], true⟩ := by
        simp only [Acted.next, ha]
        rfl
      rw [hn]
      exact ih c' _
    | none =>
      have hn : Acted.next env ⟨c, l, true⟩ e = ⟨c, if Parse.Event.isFlush e then l else l ++ [e], false⟩ := by
        simp only [Acted.next, ha]
        rfl
      rw [hn, run_of_not_ok rfl]
      exact ⟨rfl, rfl⟩

/-- A clean file of definitions configures what the list of its definitions does. -/
theorem parseFile_fileEvents {b : Str} {s : Subn} {defs : List PartDef}
    (hshort : ∀ line ∈ text.splitOn '\n', line.length < 4094) (hclean : CleanText env s text)
    (hdefs : (pieces text).map definition = defs.map some) :
    let r := Parse.osmPrtnConfigParseFile env b s text
    (r.acted.ctx.subn, decide (r.isParseSuccess = 1)) = osmPrtnConfigParseFile env s (fileEvents defs) := by
  intro r
  have h := (parseFile_done b hshort hclean).actsOn hclean
  have hevents : ∀ (ws : List Str) (ds : List PartDef), ws.map definition = ds.map some →
      ws.flatMap pieceEvents = (fileEvents ds).map some := by
    intro ws
    induction ws with
    | nil =>
      intro ds hds
      obtain rfl := List.map_eq_nil_iff.mp hds.symm
      rfl
    | cons w ws ih =>
      intro ds hds
      obtain ⟨d, ds, rfl⟩ := List.exists_cons_of_ne_nil (fun h => by simp [h] at hds : ds ≠ [])
      obtain ⟨hw, hds⟩ := List.cons.inj hds
      have hf : fileEvents (d :: ds) = d.events ++ fileEvents ds := rfl
      rw [List.flatMap_cons, ih ds hds, hf, List.map_append, pieceEvents, hw]
  have htext : textEvents text = (fileEvents defs).map some := hevents _ _ hdefs
  obtain ⟨hctx, hok⟩ := run_actAll (fileEvents defs) ⟨s, newPartConf⟩ []
  have hsubn : r.acted.ctx.subn = (actAll env ⟨s, newPartConf⟩ (fileEvents defs)).1.subn := by
    rw [h.subn, htext, ← hctx]
    rfl
  refine Prod.ext hsubn ?_
  have hsucc := h.success
  rw [htext, show (run env (Acted.start s) ((fileEvents defs).map some)).ok = _ from hok] at hsucc
  show decide (r.isParseSuccess = 1) = ((actAll env ⟨s, newPartConf⟩ (fileEvents defs)).2 &&
      !(fileEvents defs).isEmpty)
  rw [Bool.eq_iff_iff, decide_eq_true_iff, hsucc]
  simp

end Files

end OpenSM.Partition.Text
