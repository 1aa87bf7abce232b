import OpenSM.DbPack

/-! Runs of updates, deletions, clears and stores on a domain, and a restart after any of the stores. -/

namespace OpenSM.DbPack

open Lib Lib.Runs CString OsmDb

variable {K V : Type} (C : Codec K V) (st : StForeach)

def set (d : Domain) (k : K) (v : V) : Domain := update d (C.packKey k) (C.packVal v)

def get (t : Table) (k : K) : Option V := (t.get (C.packKey k)).bind C.unpackVal

/-- `osm_db_guid2lid_guids` and its likes. -/
def guids (t : Table) : List (Option K) := ((st.visit t.entries).map fun e => C.unpackKey e.1).reverse

inductive Act (K V : Type)
  | set (k : K) (v : V)
  | delete (k : K)
  | clear
  | store

structure State (K V : Type) where
  domain : Domain
  /-- What was last done with each key since the start. -/
  last : K → Option (Option V)
  /-- Entries were cleared when there was nothing to write, and no key was set since. -/
  cleared : Bool

def State.init (file : Str) (hash : Table) : State K V := ⟨⟨file, hash, false⟩, fun _ => none, false⟩

section Step

variable [DecidableEq K] [DecidablePred C.Valid]

def step (s : State K V) : Act K V → Option (State K V)
  | .set k v =>
    if C.Valid k then
      some ⟨set C s.domain k v, Function.update s.last k (some (some v)), false⟩
    else none
  | .delete k =>
    if C.Valid k then
      some { s with domain := (delete s.domain (C.packKey k)).1, last := Function.update s.last k (some none) }
    else none
  | .clear => some ⟨clear s.domain, fun _ => some none, s.cleared || !s.domain.dirty && s.domain.hash.entries ≠ []⟩
  | .store => some { s with domain := (store st s.domain).1 }

end Step

/-- The condition on a step: no store of a clean domain that was cleared, no entry that does not fit a line,
no values that the getter refuses. -/
def Regular (s : State K V) : Act K V → Prop
  | .set _ v => C.Readable v
  | .store => s.cleared = false ∧
      (s.domain.dirty = true → ∀ key val, s.domain.hash.get key = some val → Plain key val)
  | _ => True

structure Survives (s : State K V) : Prop where
  restored : restore s.domain.file = (s.domain.hash, 0)
  gets : ∀ k v, s.last k = some (some v) → get C (restore s.domain.file).1 k = some v
  listed : ∀ k v, s.last k = some (some v) → some k ∈ guids C st (restore s.domain.file).1
  gone : ∀ k, s.last k = some none → get C (restore s.domain.file).1 k = none

section Tables

variable {t : Table} {key key' val : Str}

lemma get_stInsert (t : Table) (key val key' : Str) :
    (stInsert t key val).get key' = if key' = key then some val else t.get key' := by
  cases hkey : t.get key with
  | some prev =>
    simp only [stInsert, hkey, Qmap.get_modify]
    split_ifs with h
    · rfl
    · rfl
  | none =>
    simp only [stInsert, hkey, Qmap.get_insert]
    split_ifs <;> rfl

lemma get_update (d : Domain) (key val key' : Str) :
    (update d key val).hash.get key' = if key' = key then some val else d.hash.get key' := by
  rw [update]
  split_ifs with hsame hkey hkey
  · rw [hkey, hsame]
  · rfl
  · rw [get_stInsert, if_pos hkey]
  · rw [get_stInsert, if_neg hkey]

lemma get_delete (d : Domain) (key key' : Str) :
    (delete d key).1.hash.get key' = if key' = key then none else d.hash.get key' := by
  cases hkey : d.hash.get key with
  | some prev =>
    simp only [delete, hkey, Qmap.get_remove]
    split_ifs <;> rfl
  | none =>
    simp only [delete, hkey]
    split_ifs with h
    · rw [h, hkey]
    · rfl

end Tables

variable {C st}

lemma packKey_injective (C : Codec K V) : Function.Injective C.packKey := fun k k' h =>
  Option.some.inj ((C.unpack_packKey k).symm.trans ((congrArg C.unpackKey h).trans (C.unpack_packKey k')))

/-- The table has what was last set, and a domain without changes has the table of its file. -/
structure Inv (C : Codec K V) (s : State K V) : Prop where
  synced : s.domain.dirty = false → s.cleared = false → restore s.domain.file = (s.domain.hash, 0)
  empty : s.cleared = true → s.domain.hash = ∅
  held : ∀ k v, s.last k = some (some v) → s.domain.hash.get (C.packKey k) = some (C.packVal v) ∧ C.Readable v
  gone : ∀ k, s.last k = some none → s.domain.hash.get (C.packKey k) = none

lemma init_inv {file : Str} {hash : Table} (h : restore file = (hash, 0)) : Inv C (State.init file hash) :=
  ⟨fun _ _ => h, nofun, nofun, nofun⟩

lemma clear_inv {s : State K V} (hi : Inv C s) : Inv C
    ⟨clear s.domain, fun _ => some none, s.cleared || !s.domain.dirty && s.domain.hash.entries ≠ []⟩ where
  synced hd hc := by
    have hd : s.domain.dirty = false := hd
    rw [Bool.or_eq_false_iff, hd] at hc
    have hnil : s.domain.hash = ∅ := by
      refine Qmap.ext_get fun k => ?_
      have hentries : s.domain.hash.entries = [] := by simpa using hc.2
      rw [Qmap.get, hentries]
      rfl
    rw [clear, ← hnil]
    exact hi.synced hd hc.1
  empty _ := rfl
  held _ _ hk := nomatch hk
  gone _ _ := rfl

lemma store_inv {s : State K V} (hi : Inv C s)
    (hplain : s.domain.dirty = true → ∀ key val, s.domain.hash.get key = some val → Plain key val) :
    Inv C { s with domain := (store st s.domain).1 } := by
  have hhash : (store st s.domain).1.hash = s.domain.hash := by
    rw [store]
    split_ifs <;> rfl
  refine ⟨fun _ hc => ?_, fun hc => hhash.trans (hi.empty hc), fun k v hk => ?_, fun k hk => ?_⟩
  · rw [hhash]
    cases hd : s.domain.dirty with
    | true =>
      simp only [store, hd, if_true]
      exact restore_dump st s.domain.hash (hplain hd)
    | false =>
      simp only [store, hd, Bool.false_eq_true, if_false]
      exact hi.synced hd hc
  · rw [hhash]
    exact hi.held k v hk
  · rw [hhash]
    exact hi.gone k hk

variable [DecidableEq K]

lemma set_inv {s : State K V} (hi : Inv C s) (k : K) {v : V} (hv : C.Readable v) :
    Inv C ⟨set C s.domain k v, Function.update s.last k (some (some v)), false⟩ where
  synced hd _ := by
    simp only [set, update] at hd ⊢
    split_ifs at hd ⊢ with hsame
    refine hi.synced hd ?_
    by_contra hcleared
    rw [hi.empty (by simpa using hcleared)] at hsame
    exact nomatch hsame
  empty := nofun
  held k' v' hk' := by
    dsimp only at hk' ⊢
    rw [set, get_update]
    by_cases hk : k' = k
    · subst hk
      rw [Function.update_self, Option.some.injEq, Option.some.injEq] at hk'
      rw [if_pos rfl, ← hk']
      exact ⟨rfl, hv⟩
    · rw [Function.update_of_ne hk] at hk'
      rw [if_neg ((packKey_injective C).ne hk)]
      exact hi.held k' v' hk'
  gone k' hk' := by
    dsimp only at hk' ⊢
    rw [set, get_update]
    by_cases hk : k' = k
    · subst hk
      simp at hk'
    · rw [Function.update_of_ne hk] at hk'
      rw [if_neg ((packKey_injective C).ne hk)]
      exact hi.gone k' hk'

lemma delete_inv {s : State K V} (hi : Inv C s) (k : K) : Inv C { s with
    domain := (delete s.domain (C.packKey k)).1, last := Function.update s.last k (some none) } where
  synced hd hc := by
    cases hkey : s.domain.hash.get (C.packKey k) with
    | some prev => simp [delete, hkey] at hd
    | none =>
      simp only [delete, hkey] at hd ⊢
      exact hi.synced hd hc
  empty hc := by
    have hkey : s.domain.hash.get (C.packKey k) = none := by rw [hi.empty hc, Qmap.get_empty]
    simp only [delete, hkey]
    exact hi.empty hc
  held k' v' hk' := by
    dsimp only at hk' ⊢
    rw [get_delete]
    by_cases hk : k' = k
    · subst hk
      simp at hk'
    · rw [Function.update_of_ne hk] at hk'
      rw [if_neg ((packKey_injective C).ne hk)]
      exact hi.held k' v' hk'
  gone k' hk' := by
    dsimp only at hk' ⊢
    rw [get_delete]
    by_cases hk : k' = k
    · rw [if_pos (congrArg C.packKey hk)]
    · rw [Function.update_of_ne hk] at hk'
      rw [if_neg ((packKey_injective C).ne hk)]
      exact hi.gone k' hk'

variable [DecidablePred C.Valid]

lemma step_inv {s s' : State K V} {a : Act K V} (hi : Inv C s) (hr : Regular C s a) (h : step C st s a = some s') :
    Inv C s' := by
  cases a with
  | set k v =>
    simp only [step] at h
    split_ifs at h
    obtain rfl := Option.some.inj h
    exact set_inv hi k hr
  | delete k =>
    simp only [step] at h
    split_ifs at h
    obtain rfl := Option.some.inj h
    exact delete_inv hi k
  | clear =>
    obtain rfl := Option.some.inj h
    exact clear_inv hi
  | store =>
    obtain rfl := Option.some.inj h
    exact store_inv hi hr.2

lemma store_survives {s s' : State K V} (hi : Inv C s) (hr : Regular C s .store)
    (h : step C st s .store = some s') :
    Survives C st s' := by
  have hi' := step_inv hi hr h
  obtain rfl := Option.some.inj h
  have hclean : (store st s.domain).1.dirty = false := by
    rw [store]
    split_ifs with hd
    · rfl
    · simpa using hd
  have hrestored := hi'.synced hclean hr.1
  refine ⟨hrestored, fun k v hk => ?_, fun k v hk => ?_, fun k hk => ?_⟩
  all_goals rw [hrestored]
  · obtain ⟨hget, hv⟩ := hi'.held k v hk
    rw [get, hget, Option.bind_some, C.unpack_packVal v hv]
  · obtain ⟨hget, -⟩ := hi'.held k v hk
    refine List.mem_reverse.mpr (List.mem_map.mpr ⟨_, (st.perm _).mem_iff.mpr (Qmap.get_eq_some.mp hget), ?_⟩)
    exact C.unpack_packKey k
  · rw [get, hi'.gone k hk, Option.bind_none]

/-- In a run of regular steps a restart after any store finds the entries of the table. -/
theorem run_survives {file : Str} {hash : Table} (h₀ : restore file = (hash, 0)) {l : List (State K V × Act K V)}
    {s s' : State K V} (h : Run (step C st) (State.init file hash) l s) (hl : ∀ x ∈ l, Regular C x.1 x.2)
    (hr : Regular C s .store) (hs : step C st s .store = some s') : Survives C st s' :=
  store_survives (h.invariant (init_inv h₀) (fun _ _ _ => step_inv) hl) hr hs

lemma plain_step {s s' : State K V} {a : Act K V}
    (hs : ∀ key val, s.domain.hash.get key = some val → Plain key val)
    (h : step C st s a = some s') : ∀ key val, s'.domain.hash.get key = some val → Plain key val := by
  intro key val hkey
  cases a with
  | set k v =>
    simp only [step] at h
    split_ifs at h with hk
    obtain rfl := Option.some.inj h
    rw [set, get_update] at hkey
    split_ifs at hkey with heq
    · obtain rfl := Option.some.inj hkey
      exact heq ▸ C.plain k v hk
    · exact hs key val hkey
  | delete k =>
    simp only [step] at h
    split_ifs at h
    obtain rfl := Option.some.inj h
    rw [get_delete] at hkey
    split_ifs at hkey
    exact hs key val hkey
  | clear =>
    obtain rfl := Option.some.inj h
    exact nomatch hkey
  | store =>
    obtain rfl := Option.some.inj h
    refine hs key val ?_
    rw [← hkey, store]
    split_ifs <;> rfl

instance : DecidablePred guid2lid.Valid := fun guid => inferInstanceAs (Decidable (guid ≠ 0))

instance : DecidablePred guid2mkey.Valid := fun guid => inferInstanceAs (Decidable (guid ≠ 0))

instance : DecidablePred neighbor.Valid := fun n => inferInstanceAs (Decidable (n.1 ≠ 0))

def inOrder : StForeach := ⟨id, fun _ => .refl _⟩

def fresh : State Guid (Lid × Lid) := State.init [] ∅

def setStore : List (Act Guid (Lid × Lid)) := [.set 1 (1, 1), .store, .clear]

lemma fresh_plain {l : List (State Guid (Lid × Lid) × Act Guid (Lid × Lid))} {s : State Guid (Lid × Lid)}
    (h : Run (step guid2lid inOrder) fresh l s) : ∀ key val, s.domain.hash.get key = some val → Plain key val := by
  refine h.always (P := fun s => ∀ key val, s.domain.hash.get key = some val → Plain key val) ?_
      fun _ _ _ => plain_step
  intro key val hkey
  cases (show none = some val from hkey)

theorem run_survives_set :
    Survives guid2lid inOrder
      ((exec (step guid2lid inOrder) fresh (setStore ++ [.set 2 (2, 2), .store])).getD fresh) := by
  have hunicast : ∀ lid : Fin 3, BitVec.ofNat 16 lid < 0xC000 := by decide
  have hrun : Run (step guid2lid inOrder) fresh _ _ := Run.nil.append (setStore ++ [.set 2 (2, 2)]) rfl
  refine @run_survives _ _ guid2lid inOrder _ _ _ _ rfl _ _ _ hrun ?_ ⟨rfl, fun _ => fresh_plain hrun⟩ rfl
  refine List.forall_mem_cons.mpr ⟨⟨hunicast 1, hunicast 1⟩, List.forall_mem_cons.mpr ⟨⟨rfl, fun _ => ?_⟩,
    List.forall_mem_cons.mpr ⟨trivial, List.forall_mem_cons.mpr ⟨⟨hunicast 2, hunicast 2⟩, nofun⟩⟩⟩⟩
  exact fresh_plain (Run.nil.append [.set 1 (1, 1)] rfl)

/-- A cleared domain is not written, and comes back after the restart. -/
theorem cleared_comes_back : ∃ l s s', Run (step guid2lid inOrder) fresh l s ∧
    step guid2lid inOrder s .store = some s' ∧ s'.domain.hash = ∅ ∧ s'.last 1 = some none ∧
      get guid2lid (restore s'.domain.file).1 1 = some (1, 1) ∧ ¬Survives guid2lid inOrder s' := by
  have hset : Run (step guid2lid inOrder) fresh _ _ := Run.nil.append [.set 1 (1, 1)] rfl
  have hrestore := restore_dump inOrder _ (fresh_plain hset)
  have hget : get guid2lid (set guid2lid fresh.domain 1 (1, 1)).hash 1 = some (1, 1) := by
    have hunicast : (1 : Lid) < 0xC000 := by decide
    rw [get, set, get_update, if_pos rfl, Option.bind_some, guid2lid.unpack_packVal _ ⟨hunicast, hunicast⟩]
  refine ⟨_, _, _, Run.nil.append setStore rfl, rfl, rfl, rfl, ?_⟩
  have hback : get guid2lid (restore ((inOrder.visit (set guid2lid fresh.domain 1 (1, 1)).hash.entries).flatMap
      dumpTblEntry)).1 1 = some (1, 1) := by
    rw [hrestore]
    exact hget
  refine ⟨hback, fun h => ?_⟩
  have hgone := h.gone 1 rfl
  exact nomatch hback.symm.trans hgone

end OpenSM.DbPack
