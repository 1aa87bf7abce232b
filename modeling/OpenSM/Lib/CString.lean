import Mathlib

/-! The functions of the C library on strings that a text format needs: numbers out and in, tokens, lines. -/

namespace OpenSM.Lib.CString

abbrev Str := List Char

def isSpace (c : Char) : Bool := c ∈ [' ', '\t', '\n', '\x0b', '\x0c', '\r']

def digitChar (d : ℕ) : Char := if d < 10 then Char.ofNat (48 + d) else Char.ofNat (87 + d)

def digitVal (c : Char) : ℕ :=
  if '0' ≤ c ∧ c ≤ '9' then c.toNat - 48
  else if 'a' ≤ c ∧ c ≤ 'z' then c.toNat - 87
  else if 'A' ≤ c ∧ c ≤ 'Z' then c.toNat - 55
  else 36

def printNat (base width n : ℕ) : Str :=
  let ds := (Nat.digits base n).reverse.map digitChar
  List.replicate (width - ds.length) '0' ++ ds

def printHex (width n : ℕ) : Str := '0' :: 'x' :: printNat 16 width n

def printDec (n : ℕ) : Str := printNat 10 1 n

def readNat (base : ℕ) (s : Str) : ℕ := s.foldl (fun a c => a * base + digitVal c) 0

def numBase : Str → ℕ × Str
  | '0' :: x :: s => if (x = 'x' ∨ x = 'X') ∧ s.head?.any (digitVal · < 16) then (16, s) else (8, '0' :: x :: s)
  | '0' :: [] => (8, ['0'])
  | s => (10, s)

def numSign : Str → Bool × Str
  | '-' :: s => (true, s)
  | '+' :: s => (false, s)
  | s => (false, s)

def ullongMax : ℕ := 2 ^ 64 - 1

def strtoull (s : Str) : ℕ × Str :=
  let (neg, t) := numSign (s.dropWhile isSpace)
  let (base, t) := numBase t
  let ds := t.takeWhile (digitVal · < base)
  let n := readNat base ds
  if ds = [] then (0, s)
  else (if n > ullongMax then ullongMax else if neg then (2 ^ 64 - n) % 2 ^ 64 else n,
      t.dropWhile (digitVal · < base))

def strtoullRange (s : Str) : Bool :=
  let (base, t) := numBase (numSign (s.dropWhile isSpace)).2
  ullongMax < readNat base (t.takeWhile (digitVal · < base))

def strtol (s : Str) : ℤ :=
  let (neg, t) := numSign (s.dropWhile isSpace)
  let (base, t) := numBase t
  let n := readNat base (t.takeWhile (digitVal · < base))
  if neg then max (-n) (-2 ^ 63) else min n (2 ^ 63 - 1)

def strtok (delim s : Str) : Option (Str × Str) :=
  let s := s.dropWhile (· ∈ delim)
  if s = [] then none else some (s.takeWhile (· ∉ delim), (s.dropWhile (· ∉ delim)).drop 1)

def takeLine : ℕ → Str → Str × Str
  | 0, s => ([], s)
  | _ + 1, [] => ([], [])
  | k + 1, c :: s => if c = '\n' then ([c], s) else (c :: (takeLine k s).1, (takeLine k s).2)

def fgets (size : ℕ) (s : Str) : Option (Str × Str) := if s = [] then none else some (takeLine (size - 1) s)

section Numbers

lemma digitVal_digitChar {d : ℕ} (h : d < 16) : digitVal (digitChar d) = d := by
  have hall : ∀ d : Fin 16, digitVal (digitChar d) = d := by decide
  exact hall ⟨d, h⟩

lemma readNat_append (base : ℕ) (s : Str) (c : Char) :
    readNat base (s ++ [c]) = readNat base s * base + digitVal c := by
  simp [readNat]

lemma readNat_replicate (base k : ℕ) (s : Str) : readNat base (List.replicate k '0' ++ s) = readNat base s := by
  induction k with
  | zero => rfl
  | succ k ih =>
    rw [← ih]
    simp only [readNat, List.replicate_succ, List.cons_append, List.foldl_cons]
    congr 1
    exact (Nat.add_zero _).trans (Nat.zero_mul base)

lemma readNat_digits {base : ℕ} (hb : 1 < base) (hle : base ≤ 16) (n : ℕ) :
    readNat base ((Nat.digits base n).reverse.map digitChar) = n := by
  induction n using Nat.strong_induction_on with
  | _ n ih =>
    rcases Nat.eq_zero_or_pos n with rfl | hn
    · rw [Nat.digits_zero]
      rfl
    · rw [Nat.digits_def' hb hn, List.reverse_cons, List.map_append, List.map_singleton, readNat_append,
        ih (n / base) (Nat.div_lt_self hn hb), digitVal_digitChar ((Nat.mod_lt n (by omega)).trans_le hle),
        Nat.div_add_mod']

lemma readNat_printNat {base : ℕ} (hb : 1 < base) (hle : base ≤ 16) (width n : ℕ) :
    readNat base (printNat base width n) = n := by
  rw [printNat, readNat_replicate, readNat_digits hb hle]

lemma mem_printNat {base : ℕ} (hb : 1 < base) (hle : base ≤ 16) (width n : ℕ) :
    ∀ c ∈ printNat base width n, ∃ d, d < base ∧ c = digitChar d := by
  intro c hc
  rcases List.mem_append.mp hc with hc | hc
  · exact ⟨0, by omega, List.eq_of_mem_replicate hc⟩
  · obtain ⟨d, hd, rfl⟩ := List.mem_map.mp hc
    exact ⟨d, Nat.digits_lt_base hb (List.mem_reverse.mp hd), rfl⟩

lemma digit_printNat {base : ℕ} (hb : 1 < base) (hle : base ≤ 16) (width n : ℕ) :
    ∀ c ∈ printNat base width n, digitVal c < base := by
  intro c hc
  obtain ⟨d, hd, rfl⟩ := mem_printNat hb hle width n c hc
  rwa [digitVal_digitChar (hd.trans_le hle)]

lemma printNat_length (base width n : ℕ) :
    (printNat base width n).length = max width (Nat.digits base n).length := by
  simp only [printNat, List.length_append, List.length_replicate, List.length_map, List.length_reverse]
  omega

lemma printNat_length_eq {base width n : ℕ} (hb : 1 < base) (h : n < base ^ width) :
    (printNat base width n).length = width := by
  have hlen := (Nat.digits_length_le_iff hb n).mpr h
  rw [printNat_length]
  omega

lemma takeWhile_digits (p : Char → Bool) (ds rest : Str) (hd : ∀ c ∈ ds, p c = true)
    (hr : ∀ c ∈ rest.head?, p c = false) :
    (ds ++ rest).takeWhile p = ds ∧ (ds ++ rest).dropWhile p = rest := by
  rw [List.takeWhile_append_of_pos hd, List.dropWhile_append_of_pos hd]
  cases rest with
  | nil => simp
  | cons c rest => simp [hr c rfl]

lemma numSign_length (s : Str) : (numSign s).2.length ≤ s.length := by
  rw [numSign.eq_def]
  split <;> simp

lemma numBase_length (s : Str) : (numBase s).2.length ≤ s.length := by
  rw [numBase.eq_def]
  split
  · split_ifs
    · exact (Nat.le_succ _).trans (Nat.le_succ _)
    · exact le_rfl
  · exact le_rfl
  · exact le_rfl

lemma strtoull_shorter {s : Str} (h : (strtoull s).2 ≠ s) : (strtoull s).2.length < s.length := by
  set t := (numBase (numSign (s.dropWhile isSpace)).2).2
  set base := (numBase (numSign (s.dropWhile isSpace)).2).1
  have hle : t.length ≤ s.length :=
    (numBase_length _).trans ((numSign_length _).trans (List.dropWhile_sublist _).length_le)
  have hrest : (strtoull s).2 = if t.takeWhile (digitVal · < base) = [] then s else t.dropWhile
      (digitVal · < base) := by
    rw [strtoull]
    dsimp only
    split_ifs <;> rfl
  rw [hrest] at h ⊢
  by_cases hds : t.takeWhile (digitVal · < base) = []
  · exact absurd (if_pos hds) h
  · rw [if_neg hds]
    have hsplit := congrArg List.length (List.takeWhile_append_dropWhile (p := (digitVal · < base)) (l := t))
    have hpos := List.length_pos_iff.mpr hds
    rw [List.length_append] at hsplit
    omega

lemma strtoull_digits {base : ℕ} {s : Str} (ds rest : Str) (hspace : s.dropWhile isSpace = s)
    (hsign : numSign s = (false, s))
    (hbase : numBase s = (base, ds ++ rest)) (hne : ds ≠ []) (hd : ∀ c ∈ ds, digitVal c < base)
    (hr : ∀ c ∈ rest.head?, base ≤ digitVal c) (hle : readNat base ds ≤ ullongMax) :
    strtoull s = (readNat base ds, rest) := by
  obtain ⟨htake, hdrop⟩ := takeWhile_digits (fun c => digitVal c < base) ds rest
    (fun c hc => by simpa using hd c hc) fun c hc => by simpa using hr c hc
  simp only [strtoull, hspace, hsign, hbase, htake, hdrop, hne, if_false, not_lt.mpr hle, Bool.false_eq_true]

lemma strtoull_printHex {width n : ℕ} (hw : 0 < width) (hn : n ≤ ullongMax) (rest : Str)
    (hr : ∀ c ∈ rest.head?, 16 ≤ digitVal c) : strtoull (printHex width n ++ rest) = (n, rest) := by
  have hne : printNat 16 width n ≠ [] := by
    rw [← List.length_pos_iff, printNat_length]
    omega
  have hd := digit_printNat (by decide : 1 < 16) le_rfl width n
  have hread := readNat_printNat (by decide : 1 < 16) le_rfl width n
  have hhead : (printNat 16 width n ++ rest).head?.any (digitVal · < 16) = true := by
    cases hp : printNat 16 width n with
    | nil => exact absurd hp hne
    | cons c l => simpa using hd c (hp ▸ List.mem_cons_self)
  refine (strtoull_digits (printNat 16 width n) rest rfl rfl ?_ hne hd hr (hread.symm ▸ hn)).trans (by rw [hread])
  rw [printHex, List.cons_append, List.cons_append, numBase, if_pos ⟨.inl rfl, hhead⟩]

lemma numBase_of_head {c : Char} {s : Str} (h : c ≠ '0') : numBase (c :: s) = (10, c :: s) := by
  rw [numBase]
  all_goals
    intros
    simp_all

lemma numSign_of_head {c : Char} {s : Str} (hm : c ≠ '-') (hp : c ≠ '+') : numSign (c :: s) = (false, c :: s) := by
  rw [numSign]
  all_goals
    intros
    simp_all

/-- `%u` and what cannot be a digit in any base. -/
lemma strtoull_printDec_append {n : ℕ} (hn : n ≤ ullongMax) {rest : Str} (hr : ∀ c ∈ rest.head?, 36 ≤ digitVal c) :
    strtoull (printDec n ++ rest) = (n, rest) := by
  have hd := digit_printNat (by decide : 1 < 10) (by decide : 10 ≤ 16) 1 n
  have hread := readNat_printNat (by decide : 1 < 10) (by decide : 10 ≤ 16) 1 n
  have hr10 : ∀ c ∈ rest.head?, 10 ≤ digitVal c := fun c hc => (by decide : 10 ≤ 36).trans (hr c hc)
  rcases Nat.eq_zero_or_pos n with rfl | hpos
  · have hbase : numBase ('0' :: rest) = (8, ['0'] ++ rest) := by
      cases rest with
      | nil => rfl
      | cons c rest =>
        have hx : ¬((c = 'x' ∨ c = 'X') ∧ rest.head?.any (digitVal · < 16) = true) := by
          rintro ⟨rfl | rfl, -⟩
          · exact absurd (hr 'x' rfl) (by decide)
          · exact absurd (hr 'X' rfl) (by decide)
        rw [numBase, if_neg hx]
        rfl
    have hzero : ∀ c ∈ ['0'], digitVal c < 8 := by
      intro c hc
      rw [List.mem_singleton.mp hc]
      decide
    exact strtoull_digits ['0'] rest rfl rfl hbase (List.cons_ne_nil _ _) hzero
      (fun c hc => (by decide : 8 ≤ 36).trans (hr c hc)) (Nat.zero_le _)
  · have hdigits : Nat.digits 10 n ≠ [] := Nat.digits_ne_nil_iff_ne_zero.mpr hpos.ne'
    have hlen : 1 - (Nat.digits 10 n).length = 0 := by
      have := List.length_pos_iff.mpr hdigits
      omega
    obtain ⟨l, d, hl⟩ : ∃ l d, Nat.digits 10 n = l ++ [d] := ⟨_, _, (List.dropLast_append_getLast hdigits).symm⟩
    have hd0 : d ≠ 0 := by
      have hlast := Nat.getLast_digit_ne_zero 10 hpos.ne'
      simpa [hl] using hlast
    have hd10 : d < 10 := Nat.digits_lt_base (by decide) (hl ▸ List.mem_append_right l (List.mem_singleton_self d))
    have hprint : printDec n = digitChar d :: l.reverse.map digitChar := by
      simp only [printDec, printNat, List.length_map, List.length_reverse, hlen, List.replicate_zero,
          List.nil_append]
      rw [hl, List.reverse_append, List.reverse_singleton, List.singleton_append, List.map_cons]
    have hhead : ∀ d : Fin 10, (d : ℕ) ≠ 0 → isSpace (digitChar d) = false ∧ digitChar d ≠ '0' ∧
        digitChar d ≠ '-' ∧
        digitChar d ≠ '+' := by decide
    obtain ⟨hspace, hzero, hminus, hplus⟩ := hhead ⟨d, hd10⟩ hd0
    refine (strtoull_digits (printDec n) rest ?_ ?_ ?_ ?_ hd hr10 (hread.symm ▸ hn)).trans
        (by rw [printDec, hread])
    all_goals rw [hprint]
    · simp [hspace]
    · exact numSign_of_head hminus hplus
    · rw [List.cons_append, numBase_of_head hzero]
    · exact List.cons_ne_nil _ _

lemma strtoull_printDec {n : ℕ} (hn : n ≤ ullongMax) : strtoull (printDec n) = (n, []) := by
  have happend := @strtoull_printDec_append n hn [] fun c hc => absurd hc (Option.not_mem_none c)
  rwa [List.append_nil] at happend

end Numbers

section Tokens

variable {delim s rest : Str}

lemma strtok_word (hne : s ≠ []) (hs : ∀ c ∈ s, c ∉ delim) {c : Char} (hc : c ∈ delim) :
    strtok delim (s ++ c :: rest) = some (s, rest) := by
  obtain ⟨x, s, rfl⟩ := List.exists_cons_of_ne_nil hne
  have hx : x ∉ delim := hs x List.mem_cons_self
  have hdrop : (x :: s ++ c :: rest).dropWhile (· ∈ delim) = x :: s ++ c :: rest := by simp [hx]
  obtain ⟨htake, hrest⟩ := takeWhile_digits (fun c => decide (c ∉ delim)) (x :: s) (c :: rest)
    (fun c hc => by simpa using hs c hc) (by simpa using hc)
  simp only [strtok, hdrop, htake, hrest]
  simp

lemma strtok_last (hne : s ≠ []) (hs : ∀ c ∈ s, c ∉ delim) : strtok delim s = some (s, []) := by
  obtain ⟨x, s, rfl⟩ := List.exists_cons_of_ne_nil hne
  have hx : x ∉ delim := hs x List.mem_cons_self
  have hdrop : (x :: s).dropWhile (· ∈ delim) = x :: s := by simp [hx]
  obtain ⟨htake, hrest⟩ := takeWhile_digits (fun c => decide (c ∉ delim)) (x :: s) []
    (fun c hc => by simpa using hs c hc) (by simp)
  rw [List.append_nil] at htake hrest
  simp only [strtok, hdrop, htake, hrest]
  simp

end Tokens

section Lines

lemma takeLine_newline {k : ℕ} {l : Str} (hl : '\n' ∉ l) (hk : l.length < k) (rest : Str) :
    takeLine k (l ++ '\n' :: rest) = (l ++ ['\n'], rest) := by
  induction l generalizing k with
  | nil =>
    obtain ⟨k, rfl⟩ := Nat.exists_eq_add_one_of_ne_zero (by simpa using hk.ne' : k ≠ 0)
    simp [takeLine]
  | cons c l ih =>
    obtain ⟨k, rfl⟩ := Nat.exists_eq_add_one_of_ne_zero (Nat.ne_of_gt (Nat.zero_lt_of_lt hk))
    rw [List.mem_cons, not_or] at hl
    have hrec := ih hl.2 (by simpa using hk)
    simp [takeLine, Ne.symm hl.1, hrec]

lemma takeLine_full {l : Str} (hl : '\n' ∉ l) (rest : Str) : takeLine l.length (l ++ rest) = (l, rest) := by
  induction l with
  | nil => rfl
  | cons c l ih =>
    rw [List.mem_cons, not_or] at hl
    simp [takeLine, Ne.symm hl.1, ih hl.2]

lemma takeLine_append (k : ℕ) (s : Str) : (takeLine k s).1 ++ (takeLine k s).2 = s := by
  induction k generalizing s with
  | zero => rfl
  | succ k ih =>
    cases s with
    | nil => rfl
    | cons c s =>
      simp only [takeLine]
      split_ifs
      · rfl
      · rw [List.cons_append, ih]

end Lines

end OpenSM.Lib.CString
