import OpenSM.PkeyCommon

/-! `osm_physp_share_pkey` on the P_Key tables of the ports. -/

namespace OpenSM.Pkey

/-- The table of a port as `osm_pkey_tbl_set` fills it. -/
structure PortTbl (o : ByteOrder) (allowBothPkeys : Bool) where
  tbl : Tbl
  built : ∃ calls, fill o allowBothPkeys calls = some tbl

variable {o : ByteOrder} {allowBoth : Bool} {P : Type} (tbl : P → PortTbl o allowBoth) {p q : P}

def physpSharePkey [DecidableEq P] (p q : P) : Bool :=
  if p = q then true
  else if (tbl p).tbl.keys.entries.isEmpty || (tbl q).tbl.keys.entries.isEmpty then true
  else !isInvalid o (findCommonPkey o (tbl p).tbl (tbl q).tbl allowBoth)

/-- The ports are the same, or one has no P_Keys at all, or they have keys with one base of which one is a full
member's. -/
def SharePkey (p q : P) : Prop :=
  p = q ∨ (tbl p).tbl.keys.entries = [] ∨ (tbl q).tbl.keys.entries = [] ∨
    ∃ p₁ p₂, Common o (tbl p).tbl (tbl q).tbl p₁ p₂

variable {tbl}

lemma physpSharePkey_iff [DecidableEq P] : physpSharePkey tbl p q = true ↔ SharePkey tbl p q := by
  obtain ⟨calls₁, h₁⟩ := (tbl p).built
  obtain ⟨calls₂, h₂⟩ := (tbl q).built
  rw [physpSharePkey, SharePkey]
  split_ifs with hpq hempty
  · exact iff_of_true rfl (.inl hpq)
  · rw [Bool.or_eq_true, List.isEmpty_iff, List.isEmpty_iff] at hempty
    exact iff_of_true rfl (.inr (hempty.elim .inl fun h => .inr (.inl h)))
  · rw [Bool.or_eq_true, not_or, List.isEmpty_iff, List.isEmpty_iff] at hempty
    rw [Bool.not_eq_true', (findCommonPkey_iff h₁ h₂).1, or_iff_right hpq, or_iff_right hempty.1,
        or_iff_right hempty.2]

variable (tbl) in
def physpHasPkey (pkey : PKey) (p : P) : Bool := hasPkey o (tbl p).tbl pkey

variable (tbl) in
/-- The port has the P_Key in its full or its limited form; an invalid one counts for every port. -/
def HasPkey (pkey : PKey) (p : P) : Prop :=
  isInvalid o pkey = true ∨ ∃ key, Holds o (tbl p).tbl.blocks key ∧ getBase o key = getBase o pkey

variable (tbl) in
/-- The port has the P_Key in its full form only, and its keys are looked up with the membership. -/
def FullOnly (pkey : PKey) (p : P) : Prop :=
  allowBoth = true ∧ isInvalid o pkey = false ∧ Holds o (tbl p).tbl.blocks (fullForm o pkey) ∧
    ¬ Holds o (tbl p).tbl.blocks (getBase o pkey)

lemma physpHasPkey_iff {pkey : PKey} :
    physpHasPkey tbl pkey p = true ↔ HasPkey tbl pkey p ∧ ¬ FullOnly tbl pkey p := by
  obtain ⟨calls, h⟩ := (tbl p).built
  rw [physpHasPkey, HasPkey, FullOnly]
  cases hv : isInvalid o pkey with
  | true => simp [hasPkey, hv]
  | false =>
    rw [hasPkey_iff hv, fill_isSome h, holds_base_iff]
    cases allowBoth with
    | true =>
      have hkey : (∃ key, Holds o (tbl p).tbl.blocks key ∧ keyOf o true key = (getBase o pkey).toNat) ↔
          Holds o (tbl p).tbl.blocks (getBase o pkey) := by
        constructor
        · rintro ⟨key, hk, heq⟩
          have hbase : key = getBase o pkey := BitVec.toNat_inj.mp heq
          exact hbase ▸ hk
        · exact fun hk => ⟨_, hk, rfl⟩
      rw [hkey]
      tauto
    | false =>
      have hkey : (∃ key, Holds o (tbl p).tbl.blocks key ∧ keyOf o false key = (getBase o pkey).toNat) ↔
          ∃ key, Holds o (tbl p).tbl.blocks key ∧ getBase o key = getBase o pkey :=
        exists_congr fun key => and_congr_right fun _ => BitVec.toNat_inj
      rw [hkey, holds_base_iff]
      simp

end OpenSM.Pkey
