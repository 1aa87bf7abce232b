import Mathlib
import OpenSM.Lib.CString
import OpenSM.Lib.Qmap

/-! The persistent database: a table of texts for each domain, and the file it is stored in. -/

namespace OpenSM.OsmDb

open Lib CString

abbrev Table := Qmap Str Str

def maxLineLen : ℕ := 1024

/-- `st_foreach` visits the entries of the hash once each, in the order of its bins. -/
structure StForeach where
  visit : List (Str × Str) → List (Str × Str)
  perm : ∀ l, (visit l).Perm l

structure Domain where
  file : Str
  hash : Table
  dirty : Bool

def stInsert (t : Table) (key val : Str) : Table :=
  match t.get key with
  | some _ => t.modify key fun _ => val
  | none => t.insert key val

def update (d : Domain) (key val : Str) : Domain :=
  if d.hash.get key = some val then d else { d with hash := stInsert d.hash key val, dirty := true }

def delete (d : Domain) (key : Str) : Domain × ℕ :=
  match d.hash.get key with
  | some _ => ({ d with hash := d.hash.remove key, dirty := true }, 0)
  | none => (d, 1)

def clear (d : Domain) : Domain := { d with hash := ∅ }

def dumpTblEntry (e : Str × Str) : Str := e.1 ++ ' ' :: e.2 ++ ['\n', '\n']

variable (st : StForeach)

def store (d : Domain) : Domain × ℕ :=
  if d.dirty then ({ d with file := (st.visit d.hash.entries).flatMap dumpTblEntry, dirty := false }, 0)
  else (d, 0)

structure Parser where
  hash : Table
  inKey : Option (Str × Str)

def numericKey (key : Str) : Bool := ¬((strtoull key).1 = 0 ∧ (strtoull key).2 ≠ [])

def restoreLine (p : Parser) (line : Str) : Option Parser :=
  match p.inKey with
  | none =>
    if line.head? ≠ some ' ' ∧ line.head? ≠ some '\t' ∧ line.head? ≠ some '\n' then
      (strtok [' ', '\t', '\n'] line).map fun w =>
        { p with inKey := some (w.1, ((strtok ['\n'] w.2).map Prod.fst).getD []) }
    else if line.head? ≠ some '\n' then none
    else some p
  | some (key, val) =>
    if line.head? = some '\n' then
      match p.hash.get key with
      | some _ => some { p with inKey := none }
      | none => some ⟨if numericKey key then stInsert p.hash key val else p.hash, none⟩
    else some { p with inKey := some (key, val ++ line) }

def lines : ℕ → Str → List Str
  | 0, _ => []
  | k + 1, s =>
    match fgets maxLineLen s with
    | none => []
    | some (line, s) => line :: lines k s

def readLines (s : Str) : List Str := lines s.length s

def parse : List Str → Parser → Table × ℕ
  | [], p =>
    -- A last newline ends the key that the file breaks off in.
    match if p.inKey = none then some p else restoreLine p ['\n'] with
    | none => (p.hash, 1)
    | some p => (p.hash, 0)
  | line :: rest, p =>
    match restoreLine p line with
    | none => (p.hash, 1)
    | some p => parse rest p

/-- `osm_db_restore` into an empty domain. -/
def restore (file : Str) : Table × ℕ := parse (readLines file) ⟨∅, none⟩

section Lines

variable {l rest : Str}

lemma lines_nil (k : ℕ) : lines k [] = [] := by cases k <;> rfl

lemma length_takeLine_lt {k : ℕ} {s : Str} (hs : s ≠ []) : (takeLine (k + 1) s).2.length < s.length := by
  have happ := congrArg List.length (takeLine_append (k + 1) s)
  obtain ⟨c, s, rfl⟩ := List.exists_cons_of_ne_nil hs
  have hpos : 0 < (takeLine (k + 1) (c :: s)).1.length := by
    simp only [takeLine]
    split_ifs <;> simp
  rw [List.length_append] at happ
  omega

lemma lines_enough {s : Str} (k k' : ℕ) (hk : s.length ≤ k) (hk' : s.length ≤ k') : lines k s = lines k' s := by
  induction k generalizing s k' with
  | zero =>
    obtain rfl := List.length_eq_zero_iff.mp (Nat.le_zero.mp hk)
    rw [lines_nil, lines_nil]
  | succ k ih =>
    by_cases hs : s = []
    · subst hs
      rw [lines_nil, lines_nil]
    · have hpos := List.length_pos_iff.mpr hs
      obtain ⟨k', rfl⟩ := Nat.exists_eq_add_one_of_ne_zero (show k' ≠ 0 by omega)
      have hlt : (takeLine (maxLineLen - 1) s).2.length < s.length := length_takeLine_lt hs
      simp only [lines, fgets, if_neg hs]
      rw [ih k' (by omega) (by omega)]

lemma readLines_cons {s : Str} (hs : s ≠ []) :
    readLines s = (takeLine (maxLineLen - 1) s).1 :: readLines (takeLine (maxLineLen - 1) s).2 := by
  have hlt : (takeLine (maxLineLen - 1) s).2.length < s.length := length_takeLine_lt hs
  obtain ⟨k, hk⟩ := Nat.exists_eq_add_one_of_ne_zero (List.length_pos_iff.mpr hs).ne'
  rw [readLines, hk]
  simp only [lines, fgets, if_neg hs]
  rw [readLines, lines_enough k _ (by omega) le_rfl]

lemma readLines_newline (hl : '\n' ∉ l) (hlen : l.length < maxLineLen - 1) :
    readLines (l ++ '\n' :: rest) = (l ++ ['\n']) :: readLines rest := by
  rw [readLines_cons (by simp), takeLine_newline hl hlen]

lemma readLines_full (hl : '\n' ∉ l) (hlen : l.length = maxLineLen - 1) :
    readLines (l ++ rest) = l :: readLines rest := by
  have hne : l ≠ [] := List.length_pos_iff.mp (hlen ▸ by decide)
  rw [readLines_cons (by simp [hne]), ← hlen, takeLine_full hl]

end Lines

structure Plain (key val : Str) : Prop where
  nonempty : key ≠ []
  word : ∀ c ∈ key, c ∉ [' ', '\t', '\n']
  numeric : numericKey key = true
  oneLine : '\n' ∉ val
  fits : key.length + 1 + val.length ≤ maxLineLen - 1

section Entries

variable {t : Table} {key val tail : Str}

lemma strtok_value (hval : '\n' ∉ val) (htail : tail = [] ∨ tail = ['\n']) :
    ((strtok ['\n'] (val ++ tail)).map Prod.fst).getD [] = val := by
  have hword : ∀ c ∈ val, c ∉ ['\n'] := by
    intro c hc hn
    rw [List.mem_singleton] at hn
    exact hval (hn ▸ hc)
  by_cases hv : val = []
  · subst hv
    rcases htail with rfl | rfl <;> rfl
  · rcases htail with rfl | rfl
    · rw [List.append_nil, strtok_last hv hword]
      rfl
    · rw [strtok_word hv hword (List.mem_singleton_self _)]
      rfl

lemma restoreLine_key (h : Plain key val) (htail : tail = [] ∨ tail = ['\n']) :
    restoreLine ⟨t, none⟩ (key ++ ' ' :: (val ++ tail)) = some ⟨t, some (key, val)⟩ := by
  have htok : strtok [' ', '\t', '\n'] (key ++ ' ' :: (val ++ tail)) = some (key, val ++ tail) :=
    strtok_word h.nonempty h.word (by decide)
  obtain ⟨c, k, rfl⟩ := List.exists_cons_of_ne_nil h.nonempty
  have hc := h.word c List.mem_cons_self
  simp only [List.mem_cons, List.not_mem_nil, or_false, not_or] at hc
  simp only [restoreLine, List.cons_append, List.head?_cons, ne_eq, Option.some.injEq, hc, not_false_eq_true,
    and_self, if_true]
  rw [List.cons_append] at htok
  rw [htok, Option.map_some, strtok_value h.oneLine htail]

lemma restoreLine_end (h : Plain key val) (hkey : t.get key = none) :
    restoreLine ⟨t, some (key, val)⟩ ['\n'] = some ⟨t.insert key val, none⟩ := by
  simp [restoreLine, hkey, h.numeric, stInsert]

lemma parse_entry (h : Plain key val) (hkey : t.get key = none) (rest : Str) :
    parse (readLines (dumpTblEntry (key, val) ++ rest)) ⟨t, none⟩ = parse (readLines rest)
        ⟨t.insert key val, none⟩ := by
  have hline : '\n' ∉ key ++ ' ' :: val := by
    simp only [List.mem_append, List.mem_cons, not_or]
    exact ⟨fun hn => h.word _ hn (by decide), by decide, h.oneLine⟩
  have hdump : dumpTblEntry (key, val) ++ rest = (key ++ ' ' :: val) ++ '\n' :: '\n' ::
      rest := by simp [dumpTblEntry]
  have hblank : ∀ rest, readLines ('\n' :: rest) = ['\n'] :: readLines rest := fun rest =>
    readLines_newline (l := []) List.not_mem_nil (by decide)
  have hfits := h.fits
  have hlen : (key ++ ' ' :: val).length = key.length + 1 + val.length := by
    rw [List.length_append, List.length_cons]
    omega
  have hkv := restoreLine_key (t := t) h (.inl rfl)
  have hkv' := restoreLine_key (t := t) h (.inr rfl)
  rw [hdump]
  rcases hfits.lt_or_eq with hlt | heq
  · rw [readLines_newline hline (hlen ▸ hlt), hblank]
    simp only [parse, List.append_assoc, List.cons_append, hkv', restoreLine_end h hkey]
  · rw [readLines_full hline (hlen.trans heq), hblank, hblank]
    rw [List.append_nil] at hkv
    simp only [parse, hkv, restoreLine_end h hkey]
    rfl

lemma parse_dump (l : List (Str × Str)) (t : Table) (hl : ∀ e ∈ l, Plain e.1 e.2) (hnodup : (l.map Prod.fst).Nodup)
    (ht : ∀ e ∈ l, t.get e.1 = none) :
    parse (readLines (l.flatMap dumpTblEntry)) ⟨t, none⟩ = (l.foldl (fun t e => t.insert e.1 e.2) t, 0) := by
  induction l generalizing t with
  | nil => rfl
  | cons e l ih =>
    rw [List.map_cons, List.nodup_cons] at hnodup
    rw [List.flatMap_cons, parse_entry (hl e List.mem_cons_self) (ht e List.mem_cons_self)]
    refine ih _ (fun e' he' => hl e' (List.mem_cons_of_mem e he')) hnodup.2 fun e' he' => ?_
    have hne : e'.1 ≠ e.1 := fun h => hnodup.1 (h ▸ List.mem_map_of_mem he')
    rw [Qmap.get_insert, ht e List.mem_cons_self]
    simp [hne, ht e' (List.mem_cons_of_mem e he')]

lemma get_foldl_insert (l : List (Str × Str)) (t : Table) (hnodup : (l.map Prod.fst).Nodup)
    (ht : ∀ e ∈ l, t.get e.1 = none) (key val : Str) :
    (l.foldl (fun t e => t.insert e.1 e.2) t).get key = some val ↔ (key, val) ∈ l ∨ t.get key = some val := by
  induction l generalizing t with
  | nil => simp
  | cons e l ih =>
    rw [List.map_cons, List.nodup_cons] at hnodup
    have hnone : ∀ e' ∈ l, (t.insert e.1 e.2).get e'.1 = none := by
      intro e' he'
      have hne : e'.1 ≠ e.1 := fun h => hnodup.1 (h ▸ List.mem_map_of_mem he')
      rw [Qmap.get_insert, ht e List.mem_cons_self]
      simp [hne, ht e' (List.mem_cons_of_mem e he')]
    rw [List.foldl_cons, ih _ hnodup.2 hnone, Qmap.get_insert, ht e List.mem_cons_self, List.mem_cons]
    by_cases hk : key = e.1
    · subst hk
      simp [ht e List.mem_cons_self, Prod.ext_iff, eq_comm, or_comm]
    · simp [hk, Prod.ext_iff]

end Entries

lemma restore_dump (st : StForeach) (t : Table) (h : ∀ key val, t.get key = some val → Plain key val) :
    restore ((st.visit t.entries).flatMap dumpTblEntry) = (t, 0) := by
  have hperm := st.perm t.entries
  have hmem : ∀ e, e ∈ st.visit t.entries ↔ t.get e.1 = some e.2 := by
    intro e
    rw [hperm.mem_iff, Qmap.get_eq_some]
  have hnodup : ((st.visit t.entries).map Prod.fst).Nodup := (hperm.map _).nodup_iff.mpr t.nodup_keys
  have hnone : ∀ e ∈ st.visit t.entries, (∅ : Table).get e.1 = none := fun _ _ => rfl
  have hparse := parse_dump _ ∅ (fun e he => h e.1 e.2 ((hmem e).mp he)) hnodup hnone
  refine hparse.trans (Prod.ext (Qmap.ext_get fun key => Option.ext fun val => ?_) rfl)
  rw [get_foldl_insert _ _ hnodup hnone, hmem]
  simp

end OpenSM.OsmDb
