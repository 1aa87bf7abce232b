import OpenSM.OsmDb
import OpenSM.Lib.Runs

/-! The three kinds of entries: LID ranges, M_Keys and neighbors, each under a GUID. -/

namespace OpenSM.DbPack

open Lib CString OsmDb

abbrev Guid := BitVec 64
abbrev Lid := BitVec 16
abbrev PortNum := BitVec 8

def packGuid (guid : Guid) : Str := printHex 16 guid.toNat

def unpackGuid (s : Str) : Guid := BitVec.ofNat 64 (strtoull s).1

def packLids (lids : Lid × Lid) : Str := printHex 4 lids.1.toNat ++ ' ' :: printHex 4 lids.2.toNat

def unpackLid (num : Str) : Option Lid :=
  let tmp := (strtoull num).1
  if tmp ≥ 0xC000 then none else some (BitVec.ofNat 16 tmp)

def unpackLids (s : Str) : Option (Lid × Lid) := do
  let (num, next) ← strtok [' ', '\t'] (s.take 23)
  let minLid ← unpackLid num
  let (num, _) ← strtok [' ', '\t'] next
  let maxLid ← unpackLid num
  return (minLid, maxLid)

def packMkey (mkey : BitVec 64) : Str := printHex 16 mkey.toNat

def unpackMkey (s : Str) : BitVec 64 := BitVec.ofNat 64 (strtoull s).1

def packNeighbor (n : Guid × PortNum) : Str := printHex 16 n.1.toNat ++ ':' :: printDec n.2.toNat

def unpackNeighbor (s : Str) : Option (Guid × PortNum) := do
  let (num, next) ← strtok [':'] (s.take 23)
  let (num', _) ← strtok [':'] next
  return (BitVec.ofNat 64 (strtoull num).1, BitVec.ofNat 8 (strtoull num').1)

section Numbers

lemma toNat_le {w : ℕ} (hw : w ≤ 64) (x : BitVec w) : x.toNat ≤ ullongMax := by
  have hx := x.isLt
  have hpow : 2 ^ w ≤ 2 ^ 64 := Nat.pow_le_pow_right (by decide) hw
  unfold ullongMax
  omega

lemma strtoull_hex {w : ℕ} (hw : w ≤ 64) (x : BitVec w) {width : ℕ} (hwidth : 0 < width) (rest : Str)
    (hr : ∀ c ∈ rest.head?, 16 ≤ digitVal c) : strtoull (printHex width x.toNat ++ rest) = (x.toNat, rest) :=
  strtoull_printHex hwidth (toNat_le hw x) rest hr

lemma strtoull_hex_end {w : ℕ} (hw : w ≤ 64) (x : BitVec w) {width : ℕ} (hwidth : 0 < width) :
    strtoull (printHex width x.toNat) = (x.toNat, []) := by
  simpa using strtoull_hex hw x hwidth [] (by simp)

lemma printHex_length {width n : ℕ} (h : n < 16 ^ width) : (printHex width n).length = width + 2 := by
  rw [printHex, List.length_cons, List.length_cons, printNat_length_eq (by decide) h]

lemma digitVal_printHex (width n : ℕ) : ∀ c ∈ printHex width n, digitVal c < 36 := by
  intro c hc
  rcases List.mem_cons.mp hc with rfl | hc
  · decide
  · rcases List.mem_cons.mp hc with rfl | hc
    · decide
    · exact (digit_printNat (by decide) le_rfl width n c hc).trans (by decide)

lemma digitVal_printDec (n : ℕ) : ∀ c ∈ printDec n, digitVal c < 36 := fun c hc =>
  (digit_printNat (by decide) (by decide) 1 n c hc).trans (by decide)

lemma not_mem_of_digitVal {delim : Str} (hd : ∀ c ∈ delim, digitVal c = 36) {c : Char} (hc : digitVal c < 36) :
    c ∉ delim := fun hmem => absurd (hd c hmem) hc.ne

lemma printDec_length (p : PortNum) : (printDec p.toNat).length ≤ 3 := by
  have hp := p.isLt
  have hlen := (Nat.digits_length_le_iff (by decide : 1 < 10) p.toNat).mpr (hp.trans (by decide : 2 ^ 8 < 10 ^ 3))
  rw [printDec, printNat_length]
  omega

lemma printDec_ne_nil (n : ℕ) : printDec n ≠ [] := by
  rw [← List.length_pos_iff, printDec, printNat_length]
  omega

end Numbers

section Keys

lemma packGuid_length (guid : Guid) : (packGuid guid).length = 18 := printHex_length guid.isLt

lemma unpackGuid_packGuid (guid : Guid) : unpackGuid (packGuid guid) = guid := by
  rw [unpackGuid, packGuid, strtoull_hex_end le_rfl guid (by decide), BitVec.ofNat_toNat, BitVec.setWidth_eq]

lemma numericKey_packGuid (guid : Guid) : numericKey (packGuid guid) = true := by
  rw [numericKey, packGuid, strtoull_hex_end le_rfl guid (by decide)]
  simp

lemma packNeighbor_length (n : Guid × PortNum) : (packNeighbor n).length ≤ 22 := by
  have hdec := printDec_length n.2
  rw [packNeighbor, List.length_append, List.length_cons, printHex_length n.1.isLt]
  omega

lemma numericKey_packNeighbor {n : Guid × PortNum} (hn : n.1 ≠ 0) : numericKey (packNeighbor n) = true := by
  have hne : n.1.toNat ≠ 0 := fun h => hn (BitVec.eq_of_toNat_eq h)
  rw [numericKey, packNeighbor, strtoull_hex le_rfl n.1 (by decide) _ (by simp; decide)]
  simp [hne]

lemma mem_packNeighbor (n : Guid × PortNum) : ∀ c ∈ packNeighbor n, c = ':' ∨ digitVal c < 36 := by
  intro c hc
  rcases List.mem_append.mp hc with hc | hc
  · exact .inr (digitVal_printHex _ _ c hc)
  · exact (List.mem_cons.mp hc).imp_right (digitVal_printDec _ c)

lemma unpackNeighbor_packNeighbor (n : Guid × PortNum) : unpackNeighbor (packNeighbor n) = some n := by
  have hdelim : ∀ c ∈ [':'], digitVal c = 36 := List.forall_mem_singleton.mpr rfl
  have htake : (packNeighbor n).take 23 = packNeighbor n :=
      List.take_of_length_le ((packNeighbor_length n).trans (by decide))
  have htok : strtok [':'] (packNeighbor n) = some (printHex 16 n.1.toNat, printDec n.2.toNat) :=
    strtok_word (List.cons_ne_nil _ _) (fun c hc => not_mem_of_digitVal hdelim (digitVal_printHex _ _ c hc))
      (List.mem_singleton_self _)
  have htok' : strtok [':'] (printDec n.2.toNat) = some (printDec n.2.toNat, []) :=
    strtok_last (printDec_ne_nil _) fun c hc => not_mem_of_digitVal hdelim (digitVal_printDec _ c hc)
  simp only [unpackNeighbor, htake, htok, Option.bind_eq_bind, Option.bind_some, htok',
    strtoull_hex_end le_rfl n.1 (by decide : 0 < 16), strtoull_printDec (toNat_le (by decide) n.2)]
  simp

end Keys

section Values

lemma packLids_length (lids : Lid × Lid) : (packLids lids).length = 13 := by
  rw [packLids, List.length_append, List.length_cons, printHex_length lids.1.isLt, printHex_length lids.2.isLt]

lemma unpackLid_printHex {lid : Lid} (h : lid < 0xC000) : unpackLid (printHex 4 lid.toNat) = some lid := by
  have hlt : lid.toNat < 0xC000 := h
  simp only [unpackLid, strtoull_hex_end (by decide) lid (by decide : 0 < 4)]
  rw [if_neg (by omega), BitVec.ofNat_toNat, BitVec.setWidth_eq]

lemma unpackLids_packLids {lids : Lid × Lid} (h : lids.1 < 0xC000 ∧ lids.2 < 0xC000) :
    unpackLids (packLids lids) = some lids := by
  have hdelim : ∀ c ∈ [' ', '\t'], digitVal c = 36 :=
      List.forall_mem_cons.mpr ⟨rfl, List.forall_mem_singleton.mpr rfl⟩
  have hword : ∀ lid : Lid, ∀ c ∈ printHex 4 lid.toNat, c ∉ [' ', '\t'] := fun lid c hc =>
    not_mem_of_digitVal hdelim (digitVal_printHex _ _ c hc)
  have htake : (packLids lids).take 23 = packLids lids := List.take_of_length_le (by rw [packLids_length]; decide)
  have htok : strtok [' ', '\t'] (packLids lids) = some (printHex 4 lids.1.toNat, printHex 4 lids.2.toNat) :=
    strtok_word (List.cons_ne_nil _ _) (hword lids.1) List.mem_cons_self
  have htok' : strtok [' ', '\t'] (printHex 4 lids.2.toNat) = some (printHex 4 lids.2.toNat, []) :=
    strtok_last (List.cons_ne_nil _ _) (hword lids.2)
  simp only [unpackLids, htake, htok, Option.bind_eq_bind, Option.bind_some, htok', unpackLid_printHex h.1,
    unpackLid_printHex h.2]
  rfl

lemma unpackMkey_packMkey (mkey : BitVec 64) : unpackMkey (packMkey mkey) = mkey := unpackGuid_packGuid mkey

end Values

/-- The packing of one kind of entry, for the keys and the values that are used. -/
structure Codec (K V : Type) where
  packKey : K → Str
  unpackKey : Str → Option K
  packVal : V → Str
  unpackVal : Str → Option V
  Valid : K → Prop
  Readable : V → Prop
  plain : ∀ k v, Valid k → Plain (packKey k) (packVal v)
  unpack_packKey : ∀ k, unpackKey (packKey k) = some k
  unpack_packVal : ∀ v, Readable v → unpackVal (packVal v) = some v

lemma plain_of_digits {key val : Str} (hne : key ≠ []) (hk : ∀ c ∈ key, c = ':' ∨ digitVal c < 36)
    (hnum : numericKey key = true) (hv : '\n' ∉ val) (hkl : key.length ≤ 22)
        (hvl : val.length ≤ 22) : Plain key val where
  nonempty := hne
  word c hc hmem := by
    have hdelim : ∀ c ∈ [' ', '\t', '\n'], c ≠ ':' ∧ digitVal c = 36 := by
      simp only [List.forall_mem_cons]
      exact ⟨⟨by decide, rfl⟩, ⟨by decide, rfl⟩, ⟨by decide, rfl⟩, nofun⟩
    obtain ⟨hcolon, hval⟩ := hdelim c hmem
    exact (hk c hc).elim hcolon hval.not_lt
  numeric := hnum
  oneLine := hv
  fits := by
    have hmax : maxLineLen = 1024 := rfl
    omega

lemma newline_not_mem {s : Str} (h : ∀ c ∈ s, c = ':' ∨ c = ' ' ∨ digitVal c < 36) : '\n' ∉ s := fun hn =>
  absurd (h '\n' hn) (by decide)

lemma mem_packGuid (guid : Guid) : ∀ c ∈ packGuid guid, c = ':' ∨ digitVal c < 36 := fun c hc =>
  .inr (digitVal_printHex _ _ c hc)

def guid2lid : Codec Guid (Lid × Lid) where
  packKey := packGuid
  unpackKey s := some (unpackGuid s)
  packVal := packLids
  unpackVal := unpackLids
  Valid guid := guid ≠ 0
  Readable lids := lids.1 < 0xC000 ∧ lids.2 < 0xC000
  plain guid lids _ := by
    refine plain_of_digits (List.cons_ne_nil _ _) (mem_packGuid guid) (numericKey_packGuid guid)
      (newline_not_mem fun c hc => ?_) ((packGuid_length guid).le.trans (by decide))
          ((packLids_length lids).le.trans (by decide))
    rcases List.mem_append.mp hc with hc | hc
    · exact .inr (.inr (digitVal_printHex _ _ c hc))
    · exact .inr ((List.mem_cons.mp hc).imp_right (digitVal_printHex _ _ c))
  unpack_packKey guid := congrArg some (unpackGuid_packGuid guid)
  unpack_packVal _ := unpackLids_packLids

def guid2mkey : Codec Guid (BitVec 64) where
  packKey := packGuid
  unpackKey s := some (unpackGuid s)
  packVal := packMkey
  unpackVal s := some (unpackMkey s)
  Valid guid := guid ≠ 0
  Readable _ := True
  plain guid mkey _ :=
    plain_of_digits (List.cons_ne_nil _ _) (mem_packGuid guid) (numericKey_packGuid guid)
      (newline_not_mem fun c hc => .inr (.inr (digitVal_printHex _ _ c hc)))
      ((packGuid_length guid).le.trans (by decide)) ((packGuid_length mkey).le.trans (by decide))
  unpack_packKey guid := congrArg some (unpackGuid_packGuid guid)
  unpack_packVal mkey _ := congrArg some (unpackMkey_packMkey mkey)

def neighbor : Codec (Guid × PortNum) (Guid × PortNum) where
  packKey := packNeighbor
  unpackKey := unpackNeighbor
  packVal := packNeighbor
  unpackVal := unpackNeighbor
  Valid n := n.1 ≠ 0
  Readable _ := True
  plain n n' hn :=
    plain_of_digits (by simp [packNeighbor, printHex]) (mem_packNeighbor n) (numericKey_packNeighbor hn)
      (newline_not_mem fun c hc => (mem_packNeighbor n' c hc).imp_right .inr) (packNeighbor_length n)
          (packNeighbor_length n')
  unpack_packKey := unpackNeighbor_packNeighbor
  unpack_packVal n _ := unpackNeighbor_packNeighbor n

end OpenSM.DbPack
