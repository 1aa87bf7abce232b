import OpenSM.Lib.Qmap

/-! The P_Key table of a port: the blocks as they were received, and the map of the keys in them. -/

namespace OpenSM.Pkey

open Lib

/-- `ib_net16_t`, the number that the host reads. -/
abbrev PKey := BitVec 16

inductive ByteOrder
  | little
  | big

variable (o : ByteOrder)

def hton16 (x : BitVec 16) : BitVec 16 := if o matches .little then x.rotateLeft 8 else x

def typeMask : PKey := hton16 o 0x8000#16

def baseMask : PKey := hton16 o 0x7fff#16

def getBase (p : PKey) : PKey := p &&& baseMask o

def isFullMember (p : PKey) : Bool := p &&& typeMask o = typeMask o

def isInvalid (p : PKey) : Bool := getBase o p = 0

abbrev Block := Fin 32 → PKey

structure Tbl where
  blocks : List (Option Block)
  /-- The value is the table element that the pointer in the map leads to. -/
  keys : Qmap ℕ PKey

def Tbl.init : Tbl := ⟨[], ∅⟩

/-- `cl_ptr_vector_set` of a block that is allocated when it is not there. -/
def setBlock (blocks : List (Option Block)) (block : ℕ) (tbl : Block) : List (Option Block) :=
  (blocks ++ List.replicate (block + 1 - blocks.length) none).set block (some tbl)

/-- The body of the scan. `cl_map_insert` does not replace the value of a key that is there. -/
def setKey (allowBothPkeys : Bool) (keys : Qmap ℕ PKey) (pkey : PKey) : Qmap ℕ PKey :=
  if isInvalid o pkey then keys
  else
    let pkeyBase := if allowBothPkeys then pkey else getBase o pkey
    match keys.get pkeyBase.toNat with
    | none => keys.insert pkeyBase.toNat pkey
    | some prev =>
      if allowBothPkeys = false ∧ hton16 o prev < hton16 o pkey then keys.insert pkeyBase.toNat pkey else keys

def entries (blocks : List (Option Block)) : List PKey := blocks.flatMap fun b => b.elim [] List.ofFn

/-- Nothing comes back when there are 65536 blocks: the 16 bits of the counter never reach that size. -/
def pkeyTblSet (allowBothPkeys : Bool) (t : Tbl) (block : BitVec 16) (tbl : Block) : Option Tbl :=
  let blocks := setBlock t.blocks block.toNat tbl
  if 2 ^ 16 ≤ blocks.length then none
  else some ⟨blocks, (entries blocks).foldl (setKey o allowBothPkeys) ∅⟩

abbrev Call := BitVec 16 × Block

def fill (allowBothPkeys : Bool) (calls : List Call) : Option Tbl :=
  calls.foldlM (fun t c => pkeyTblSet o allowBothPkeys t c.1 c.2) .init

def matchPkey (pkey1 pkey2 : PKey) : Bool :=
  (isFullMember o pkey1 || isFullMember o pkey2) && getBase o pkey1 = getBase o pkey2

def sharesThisPkey (t₁ t₂ : Tbl) (pkey : PKey) (allowBothPkeys : Bool) : Bool :=
  let find (t : Tbl) : Option PKey :=
    if allowBothPkeys then (t.keys.get (pkey ||| typeMask o).toNat).or (t.keys.get (pkey &&& ~~~typeMask o).toNat)
    else t.keys.get (getBase o pkey).toNat
  (find t₁).any fun pkey1 => (find t₂).any fun pkey2 => matchPkey o pkey1 pkey2

def hasPkey (t : Tbl) (pkey : PKey) : Bool :=
  if isInvalid o pkey then true else (t.keys.get (getBase o pkey).toNat).isSome

section Masks

variable {o} {p q : PKey}

def typeBit (o : ByteOrder) : ℕ := if o matches .little then 7 else 15

lemma typeMask_eq : typeMask o = BitVec.twoPow 16 (typeBit o) := by cases o <;> decide

lemma baseMask_eq : baseMask o = ~~~typeMask o := by cases o <;> decide

lemma typeMask_ne : typeMask o ≠ 0 := by cases o <;> decide

lemma and_typeMask : p &&& typeMask o = if isFullMember o p then typeMask o else 0 := by
  have hcases : p &&& typeMask o = typeMask o ∨ p &&& typeMask o = 0 := by
    rw [typeMask_eq, BitVec.and_twoPow]
    split_ifs
    · exact .inl rfl
    · exact .inr rfl
  rcases hcases with h | h
  · simp [isFullMember, h]
  · have hne : ¬(0#16 = typeMask o) := fun h0 => typeMask_ne h0.symm
    simp [isFullMember, h, hne]

lemma getBase_or : getBase o p ||| p &&& typeMask o = p := by
  rw [getBase, baseMask_eq, ← BitVec.and_or_distrib_left, BitVec.not_or_self, BitVec.and_allOnes]

lemma toNat_eq : p.toNat = (getBase o p).toNat + (p &&& typeMask o).toNat := by
  have hand : getBase o p &&& (p &&& typeMask o) = 0#16 := by
    rw [getBase, baseMask_eq]
    ext i
    simp
    tauto
  rw [← BitVec.toNat_add_of_and_eq_zero hand, BitVec.add_eq_or_of_and_eq_zero _ _ hand, getBase_or]

@[simp] lemma getBase_getBase : getBase o (getBase o p) = getBase o p := by
  rw [getBase, getBase, BitVec.and_assoc, BitVec.and_self]

lemma eq_of_getBase (hb : getBase o p = getBase o q) (hf : isFullMember o p = isFullMember o q) : p = q := by
  rw [← getBase_or (o := o) (p := p), ← getBase_or (o := o) (p := q), and_typeMask, and_typeMask, hb, hf]

lemma lt_iff_getBase (hf : isFullMember o p = isFullMember o q) :
    p.toNat < q.toNat ↔ (getBase o p).toNat < (getBase o q).toNat := by
  rw [toNat_eq (o := o) (p := p), toNat_eq (o := o) (p := q), and_typeMask, and_typeMask, hf]
  exact Nat.add_lt_add_iff_right

def fullForm (o : ByteOrder) (p : PKey) : PKey := p ||| typeMask o

@[simp] lemma getBase_fullForm : getBase o (fullForm o p) = getBase o p := by
  rw [getBase, getBase, fullForm, baseMask_eq, BitVec.and_or_distrib_right, BitVec.and_not_self]
  exact BitVec.or_zero

@[simp] lemma isFullMember_fullForm : isFullMember o (fullForm o p) = true := by
  rw [isFullMember, fullForm]
  refine decide_eq_true ?_
  ext i
  simpa using fun h => .inr h

@[simp] lemma isFullMember_getBase : isFullMember o (getBase o p) = false := by
  have hand : getBase o p &&& typeMask o = 0#16 := by
    rw [getBase, baseMask_eq, BitVec.and_assoc, BitVec.not_and_self]
    exact BitVec.and_zero
  have hne : ¬(0#16 = typeMask o) := fun h0 => typeMask_ne h0.symm
  simp [isFullMember, hand, hne]

lemma fullForm_eq (hb : getBase o p = getBase o q) (hf : isFullMember o q = true) : fullForm o p = q :=
  eq_of_getBase (by rw [getBase_fullForm, hb]) (by rw [isFullMember_fullForm, hf])

lemma getBase_eq (hb : getBase o p = getBase o q) (hf : isFullMember o q = false) : getBase o p = q :=
  eq_of_getBase (by rw [getBase_getBase, hb]) (by rw [isFullMember_getBase, hf])

@[simp] lemma isInvalid_getBase : isInvalid o (getBase o p) = isInvalid o p := by
  rw [isInvalid, isInvalid, getBase_getBase]

lemma isInvalid_congr (hb : getBase o p = getBase o q) : isInvalid o p = isInvalid o q := by
  rw [isInvalid, isInvalid, hb]

end Masks

section Scan

variable {o} {allowBoth : Bool} {p : PKey} {k : ℕ} {t : Tbl} {calls : List Call}

def keyOf (o : ByteOrder) (allowBoth : Bool) (p : PKey) : ℕ := (if allowBoth then p else getBase o p).toNat

def Holds (o : ByteOrder) (blocks : List (Option Block)) (p : PKey) : Prop := p ∈ entries blocks ∧
    isInvalid o p = false

lemma get_setKey (m : Qmap ℕ PKey) : (setKey o allowBoth m p).get k =
    if isInvalid o p = false ∧ keyOf o allowBoth p = k then some ((m.get k).getD p) else m.get k := by
  rw [setKey]
  cases hi : isInvalid o p with
  | true => simp
  | false =>
    rw [if_neg Bool.false_ne_true]
    change Qmap.get (match m.get (keyOf o allowBoth p) with
      | none => m.insert (keyOf o allowBoth p) p
      | some prev =>
        if allowBoth = false ∧ hton16 o prev < hton16 o p then m.insert (keyOf o allowBoth p) p else m) k = _
    by_cases hk : keyOf o allowBoth p = k
    · subst hk
      rw [if_pos ⟨rfl, rfl⟩]
      cases hm : m.get (keyOf o allowBoth p) with
      | none => simp only [Qmap.get_insert, hm, if_true]
      | some prev =>
        dsimp only
        rw [Qmap.insert_of_get hm, ite_self, hm, Option.getD_some]
    · rw [if_neg fun h => hk h.2]
      have hne : ¬k = keyOf o allowBoth p := fun h => hk h.symm
      cases hm : m.get (keyOf o allowBoth p) with
      | none => rw [Qmap.get_insert, if_neg hne]
      | some prev =>
        dsimp only
        split_ifs
        · rw [Qmap.get_insert, if_neg hne]
        · rfl

lemma get_scan (l : List PKey) (m : Qmap ℕ PKey) : (l.foldl (setKey o allowBoth) m).get k =
    (m.get k).or (l.find? fun p => isInvalid o p = false ∧ keyOf o allowBoth p = k) := by
  induction l generalizing m with
  | nil => simp
  | cons p l ih =>
    rw [List.foldl_cons, ih, get_setKey, List.find?_cons]
    by_cases hp : isInvalid o p = false ∧ keyOf o allowBoth p = k
    · simp only [hp, and_self, if_true, decide_true]
      cases m.get k <;> rfl
    · simp only [hp, if_false, decide_false]

def blocksOf (calls : List Call) : List (Option Block) := calls.foldl (fun bs c => setBlock bs c.1.toNat c.2) []

lemma length_setBlock (bs : List (Option Block)) (b : ℕ) (tbl : Block) :
    (setBlock bs b tbl).length = max bs.length (b + 1) := by
  simp only [setBlock, List.length_set, List.length_append, List.length_replicate]
  omega

lemma foldlM_set (calls : List Call) {t : Tbl} (hlen : t.blocks.length < 2 ^ 16)
    (hkeys : t.keys = (entries t.blocks).foldl (setKey o allowBoth) ∅) :
    calls.foldlM (fun t c => pkeyTblSet o allowBoth t c.1 c.2) t =
      if ∀ c ∈ calls, c.1 ≠ 0xffff#16 then
        let blocks := calls.foldl (fun bs c => setBlock bs c.1.toNat c.2) t.blocks
        some ⟨blocks, (entries blocks).foldl (setKey o allowBoth) ∅⟩
      else none := by
  induction calls generalizing t with
  | nil =>
    rw [if_pos (by simp), List.foldlM_nil, List.foldl_nil]
    exact congrArg (fun keys => some (Tbl.mk t.blocks keys)) hkeys
  | cons c calls ih =>
    have hc : 2 ^ 16 ≤ (setBlock t.blocks c.1.toNat c.2).length ↔ c.1 = 0xffff#16 := by
      rw [length_setBlock, ← BitVec.toNat_inj]
      simp
      omega
    rw [List.foldlM_cons, pkeyTblSet]
    by_cases hlast : c.1 = 0xffff#16
    · rw [if_pos (hc.mpr hlast), if_neg fun h => h c List.mem_cons_self hlast]
      rfl
    · have hlen := mt hc.mp hlast
      rw [if_neg hlen, Option.bind_eq_bind, Option.bind_some, ih (Nat.lt_of_not_le hlen) rfl]
      simp [hlast]

lemma fill_eq : fill o allowBoth calls = if ∀ c ∈ calls, c.1 ≠ 0xffff#16 then
    some ⟨blocksOf calls, (entries (blocksOf calls)).foldl (setKey o allowBoth) ∅⟩ else none :=
  foldlM_set calls (by decide) rfl

lemma fill_get (h : fill o allowBoth calls = some t) : t.blocks = blocksOf calls ∧ ∀ k, t.keys.get k =
    (entries t.blocks).find? fun p => isInvalid o p = false ∧ keyOf o allowBoth p = k := by
  rw [fill_eq] at h
  split_ifs at h
  obtain rfl := Option.some.inj h
  refine ⟨rfl, fun k => ?_⟩
  rw [get_scan, Qmap.get_empty, Option.none_or]

lemma fill_isSome (h : fill o allowBoth calls = some t) :
    (t.keys.get k).isSome ↔ ∃ p, Holds o t.blocks p ∧ keyOf o allowBoth p = k := by
  rw [(fill_get h).2, List.find?_isSome]
  simp only [Holds, decide_eq_true_eq, and_assoc]

lemma fill_some (h : fill o allowBoth calls = some t) (hp : t.keys.get k = some p) :
    Holds o t.blocks p ∧ keyOf o allowBoth p = k := by
  rw [(fill_get h).2] at hp
  have hs := List.find?_some hp
  rw [decide_eq_true_eq] at hs
  exact ⟨⟨List.mem_of_find?_eq_some hp, hs.1⟩, hs.2⟩

end Scan

section Precedence

variable {o} {p q : PKey} {t : Tbl} {calls : List Call}

/-- A limited P_Key that is met before its full form has been preceded by it. -/
def FullFirst (o : ByteOrder) (l : List PKey) : Prop :=
  ∀ l₁ q l₂, l = l₁ ++ q :: l₂ → isInvalid o q = false → isFullMember o q = false → fullForm o q ∈ l₂ →
    fullForm o q ∈ l₁

lemma find_base (h : fill o false calls = some t) (hp : Holds o t.blocks p) :
    ∃ l₁ q l₂, entries t.blocks = l₁ ++ q :: l₂ ∧ t.keys.get (getBase o p).toNat = some q ∧
      getBase o q = getBase o p ∧ ∀ x ∈ l₁, getBase o x ≠ getBase o p := by
  obtain ⟨q, hq⟩ := Option.isSome_iff_exists.mp ((fill_isSome h).mpr ⟨p, hp, rfl⟩)
  have hfind := (fill_get h).2 (keyOf o false p) ▸ hq
  obtain ⟨hfit, l₁, l₂, hl, hbefore⟩ := List.find?_eq_some_iff_append.mp hfind
  have hkey : ∀ x, keyOf o false x = keyOf o false p ↔ getBase o x = getBase o p := fun x => BitVec.toNat_inj
  simp only [decide_eq_true_eq, hkey] at hfit
  refine ⟨l₁, q, l₂, hl, hq, hfit.2, fun x hx hb => ?_⟩
  have hno := hbefore x hx
  simp [hkey, hb, (isInvalid_congr hb).trans hp.2] at hno

lemma fullFirst_of_fill (h : fill o false calls = some t)
    (hfull : ∀ p, Holds o t.blocks p → isFullMember o p = true →
      ∃ q, t.keys.get (getBase o p).toNat = some q ∧
          isFullMember o q = true) : FullFirst o (entries t.blocks) := by
  intro l₁ q l₂ hl hv hlim hmem
  have hp : Holds o t.blocks (fullForm o q) := by
    refine ⟨hl ▸ List.mem_append_right l₁ (List.mem_cons_of_mem q hmem), ?_⟩
    rw [isInvalid_congr getBase_fullForm, hv]
  obtain ⟨k₁, x, k₂, hk, hget, hx, hbefore⟩ := find_base h hp
  obtain ⟨y, hy, hyf⟩ := hfull _ hp isFullMember_fullForm
  obtain rfl := Option.some.inj (hget.symm.trans hy)
  -- The element in the map is the full form itself, and q is not before it.
  obtain rfl : x = fullForm o q := eq_of_getBase hx (by rw [hyf, isFullMember_fullForm])
  rw [getBase_fullForm] at hbefore
  rcases List.append_eq_append_iff.mp (hl.symm.trans hk) with ⟨c, rfl, hc⟩ | ⟨c, rfl, hc⟩
  · cases c with
    | nil =>
      have hq : q = fullForm o q := (List.cons.inj hc).1
      rw [hq, isFullMember_fullForm] at hlim
      cases hlim
    | cons d c =>
      obtain rfl : q = d := (List.cons.inj hc).1
      exact absurd rfl (hbefore q (by simp))
  · cases c with
    | nil =>
      have hq : fullForm o q = q := (List.cons.inj hc).1
      rw [← hq, isFullMember_fullForm] at hlim
      cases hlim
    | cons d c =>
      obtain rfl : fullForm o q = d := (List.cons.inj hc).1
      simp

lemma fill_of_fullFirst (h : fill o false calls = some t) (hf : FullFirst o (entries t.blocks))
    (hp : Holds o t.blocks p) (hfull : isFullMember o p = true) :
    ∃ q, t.keys.get (getBase o p).toNat = some q ∧ isFullMember o q = true := by
  obtain ⟨l₁, q, l₂, hl, hget, hq, hbefore⟩ := find_base h hp
  refine ⟨q, hget, ?_⟩
  by_contra hlim
  rw [Bool.not_eq_true] at hlim
  have hpq : fullForm o q = p := fullForm_eq hq hfull
  have hne : p ≠ q := fun hpq => by simp [← hpq, hfull] at hlim
  have hnot : p ∉ l₁ := fun hp => hbefore p hp rfl
  have hmem := hl ▸ hp.1
  simp only [List.mem_append, List.mem_cons, hnot, hne, false_or] at hmem
  exact hnot (hpq ▸ hf l₁ q l₂ hl ((isInvalid_congr hq).trans hp.2) hlim (hpq ▸ hmem))

/-- The map has the bases of the stored P_Keys, and the full forms of those that have them, exactly if no block has
the number 65535 and no limited P_Key comes before its full form. -/
theorem fill_fullFirst (o : ByteOrder) (calls : List Call) :
    (∃ t, fill o false calls = some t ∧
      (∀ k, (t.keys.get k).isSome ↔ ∃ p, Holds o t.blocks p ∧ (getBase o p).toNat = k) ∧
      ∀ p, Holds o t.blocks p → isFullMember o p = true →
        ∃ q, t.keys.get (getBase o p).toNat = some q ∧ isFullMember o q = true) ↔
    (∀ c ∈ calls, c.1 ≠ 0xffff#16) ∧ FullFirst o (entries (blocksOf calls)) := by
  constructor
  · rintro ⟨t, h, -, hfull⟩
    have hcalls := h
    rw [fill_eq, Option.ite_none_right_eq_some] at hcalls
    exact ⟨hcalls.1, (fill_get h).1 ▸ fullFirst_of_fill h hfull⟩
  · rintro ⟨hcalls, hf⟩
    have h := @fill_eq o false calls
    rw [if_pos hcalls] at h
    exact ⟨_, h, fun _ => fill_isSome h, fun _ => fill_of_fullFirst h hf⟩

/-- The default P_Key as it is left by a partition with limited members to which the port was then added as a
full one. -/
def limitedFirst : Block := fun i => if i = 0 then 0xff7f#16 else if i = 1 then 0xffff#16 else 0

theorem limitedFirst_stays : ∃ t, fill .little false [(0, limitedFirst)] = some t ∧
    Holds .little t.blocks 0xffff#16 ∧ isFullMember .little 0xffff#16 = true ∧
    t.keys.get (getBase .little 0xffff#16).toNat = some 0xff7f#16 ∧ isFullMember .little 0xff7f#16 = false := by
  obtain ⟨t, ht, hh, hg⟩ : ∃ t, fill .little false [(0, limitedFirst)] = some t ∧
      ((entries t.blocks).contains 0xffff#16 = true ∧ isInvalid .little 0xffff#16 = false) ∧
      t.keys.get (getBase .little 0xffff#16).toNat = some 0xff7f#16 :=
          ⟨_, rfl, by decide +kernel, by decide +kernel⟩
  exact ⟨t, ht, ⟨by simpa using hh.1, hh.2⟩, by decide, hg, by decide⟩

end Precedence

section Lookups

variable {o} {allowBoth : Bool} {t : Tbl} {calls : List Call} {pkey p : PKey}

lemma get_of_holds (h : fill o true calls = some t) (hp : Holds o t.blocks p) : t.keys.get p.toNat = some p := by
  obtain ⟨q, hq⟩ := Option.isSome_iff_exists.mp ((fill_isSome h).mpr ⟨p, hp, rfl⟩)
  have hqp : q = p := BitVec.toNat_inj.mp (fill_some h hq).2
  exact hqp ▸ hq

lemma get_of_not_holds (h : fill o true calls = some t) (hp : ¬Holds o t.blocks p) :
    t.keys.get p.toNat = none := by
  rw [Option.eq_none_iff_forall_ne_some]
  intro q hq
  obtain ⟨hh, hk⟩ := fill_some h hq
  have hqp : q = p := BitVec.toNat_inj.mp hk
  exact hp (hqp ▸ hh)

lemma hasPkey_iff (hv : isInvalid o pkey = false) : hasPkey o t pkey = true ↔
    (t.keys.get (getBase o pkey).toNat).isSome := by
  rw [hasPkey, hv]
  exact Iff.rfl

lemma matchPkey_self : matchPkey o p p = isFullMember o p := by simp [matchPkey]

lemma getBase_eq_not : getBase o pkey = pkey &&& ~~~typeMask o := by rw [getBase, baseMask_eq]

lemma holds_base_iff (blocks : List (Option Block)) :
    (∃ p, Holds o blocks p ∧ getBase o p = getBase o pkey) ↔
      Holds o blocks (fullForm o pkey) ∨ Holds o blocks (getBase o pkey) := by
  constructor
  · rintro ⟨p, hp, hb⟩
    cases hf : isFullMember o p with
    | true => exact .inl (fullForm_eq hb.symm hf ▸ hp)
    | false => exact .inr (getBase_eq hb.symm hf ▸ hp)
  · rintro (h | h)
    · exact ⟨_, h, getBase_fullForm⟩
    · exact ⟨_, h, getBase_getBase⟩

lemma sharesThisPkey_self (h : fill o true calls = some t) :
    sharesThisPkey o t t pkey true = true ↔ Holds o t.blocks (fullForm o pkey) := by
  have hor : pkey ||| typeMask o = fullForm o pkey := rfl
  simp only [sharesThisPkey, if_true, hor, ← getBase_eq_not]
  by_cases hf : Holds o t.blocks (fullForm o pkey)
  · rw [get_of_holds h hf]
    simp [matchPkey_self, hf]
  · rw [get_of_not_holds h hf]
    by_cases hl : Holds o t.blocks (getBase o pkey)
    · rw [get_of_holds h hl]
      simp [matchPkey_self, hf]
    · rw [get_of_not_holds h hl]
      simp [hf]

/-- The two look-ups of a P_Key agree with the table exactly if the keys leave out the membership, or the
limited form of the P_Key is stored with the full one. -/
theorem lookups_agree (hv : isInvalid o pkey = false) (h : fill o allowBoth calls = some t) :
    ((hasPkey o t pkey = true ↔ ∃ p, Holds o t.blocks p ∧ getBase o p = getBase o pkey) ∧
      (sharesThisPkey o t t pkey allowBoth = true → hasPkey o t pkey = true)) ↔
    (allowBoth = true → Holds o t.blocks (fullForm o pkey) → Holds o t.blocks (getBase o pkey)) := by
  rw [hasPkey_iff hv]
  cases allowBoth with
  | false =>
    refine iff_of_true ⟨?_, fun hs => ?_⟩ nofun
    · simp only [fill_isSome h, keyOf, Bool.false_eq_true, if_false, BitVec.toNat_inj]
    · simp only [sharesThisPkey, Bool.false_eq_true, if_false] at hs
      cases hg : t.keys.get (getBase o pkey).toNat with
      | none =>
        rw [hg] at hs
        cases hs
      | some q => rfl
  | true =>
    have hsome : (t.keys.get (getBase o pkey).toNat).isSome ↔ Holds o t.blocks (getBase o pkey) := by
      by_cases hl : Holds o t.blocks (getBase o pkey)
      · rw [get_of_holds h hl]
        exact iff_of_true rfl hl
      · rw [get_of_not_holds h hl]
        exact iff_of_false Bool.false_ne_true hl
    rw [hsome, sharesThisPkey_self h, holds_base_iff]
    simp only [true_imp_iff]
    exact ⟨fun hh => hh.2, fun hh => ⟨⟨.inr, fun h => h.elim hh id⟩, hh⟩⟩

/-- Both forms of the default P_Key are stored. -/
theorem lookups_agree_both : ∃ t, fill .little true [(0, limitedFirst)] = some t ∧
    ((hasPkey .little t 0xffff#16 = true ↔ ∃ p, Holds .little t.blocks p ∧
      getBase .little p = getBase .little 0xffff#16) ∧ (sharesThisPkey .little t t 0xffff#16 true = true →
      hasPkey .little t 0xffff#16 = true)) := by
  obtain ⟨t, ht, hl⟩ : ∃ t, fill .little true [(0, limitedFirst)] = some t ∧
      ((entries t.blocks).contains 0xff7f#16 = true ∧ isInvalid .little 0xff7f#16 = false) :=
          ⟨_, rfl, by decide +kernel⟩
  have hb : getBase .little 0xffff#16 = 0xff7f#16 := by decide
  exact ⟨t, ht, (lookups_agree (by decide) ht).mpr fun _ _ => by rw [hb]; exact ⟨by simpa using hl.1, hl.2⟩⟩

def fullOnly : Block := fun i => if i = 0 then 0xffff#16 else 0

theorem fullOnly_not_found : ∃ t, fill .little true [(0, fullOnly)] = some t ∧ Holds .little t.blocks 0xffff#16 ∧
    sharesThisPkey .little t t 0xffff#16 true = true ∧ hasPkey .little t 0xffff#16 = false := by
  obtain ⟨t, ht, hh, hs⟩ : ∃ t, fill .little true [(0, fullOnly)] = some t ∧
      ((entries t.blocks).contains 0xffff#16 = true ∧ isInvalid .little 0xffff#16 = false) ∧
      sharesThisPkey .little t t 0xffff#16 true = true ∧ hasPkey .little t 0xffff#16 = false :=
    ⟨_, rfl, by decide +kernel⟩
  exact ⟨t, ht, ⟨by simpa using hh.1, hh.2⟩, hs⟩

end Lookups

end OpenSM.Pkey
