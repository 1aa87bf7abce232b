import OpenSM.PartitionTables

/-! Which P_Key each definition of a configuration file is given. -/

namespace OpenSM.Partition

open Lib Lib.CString Lib.Runs Multicast

variable {env : Env} {s s' : Subn}

section Runs

variable {host : ℕ → ℕ}

/-- A call of `osm_prtn_make_partitions`, with the options and the fabric that it finds. -/
structure Reload (host : ℕ → ℕ) where
  env : Env
  byteOrder : env.hton16 = host
  file : Option (List Event)

def reload (s : Subn) (a : Reload host) : Option Subn := osmPrtnMakePartitions a.env s a.file

lemma run_idsWf {uniq : ℕ} {l : List (Subn × Reload host)} (h : Run reload (Subn.init uniq) l s) :
    IdsWf host (prtnIds s) := by
  induction h with
  | nil => constructor <;> intro k p hp <;> simp [prtnIds, Subn.init] at hp
  | @snoc _ s s' a _ ha ih =>
    obtain ⟨env, rfl, file⟩ := a
    exact Wf.osmPrtnMakePartitions ih ha

end Runs

section Merging

def statedPkey (t : Token) : Option ℕ := (idText t).bind readPkey

def SameName (t u : Token) : Prop := ∃ n, n ≠ [] ∧ nameText t = some n ∧ nameText u = some n

def SamePkey (t u : Token) : Prop :=
  ∃ k l, statedPkey t = some k ∧ statedPkey u = some l ∧ pkeyGetBase k = pkeyGetBase l

inductive How
  | stated | found | generated
deriving DecidableEq

/-- A definition that has been processed, the P_Key it was given, and how this was chosen. -/
structure Given where
  token : Token
  pkey : ℕ
  how : How

def howGiven (s : Subn) (t : Token) : How :=
  if usesPkey t ≠ 0 then .stated
  else if ((nameText t).bind (osmPrtnFindByName s)).isSome then .found
  else .generated

def givenBy (s : Subn) (conf : PartConf) : Event → List Given
  | .create t => [⟨t, conf.prtn.getD 0, howGiven s t⟩]
  | _ => []

def given (env : Env) : Parsing → List Event → List Given
  | _, [] => []
  | c, e :: es =>
    match act env c e with
    | none => []
    | some c' => givenBy c.subn c'.conf e ++ given env c' es

def NeverMerged (log : List Given) : Prop :=
  log.Pairwise fun g d => g.pkey = d.pkey → SamePkey g.token d.token ∨ SameName g.token d.token

/-- What a definition must not meet. Its P_Key is not one that a definition of another name has found by its
name or was given by `generate_pkey`; and the partition that it finds by its name is not one that a definition
of another name stated, or for which one with a long or an empty name had its P_Key generated. -/
structure Separate (log : List Given) (s : Subn) (t : Token) : Prop where
  stated : usesPkey t ≠ 0 → ∀ g ∈ log, g.how ≠ .stated → g.pkey = usesPkey t → SameName g.token t
  found : usesPkey t = 0 → ∀ p, (nameText t).bind (osmPrtnFindByName s) = some p → ∀ g ∈ log, g.pkey = p.pkey →
    (g.how = .stated → SameName g.token t) ∧
    (g.how = .generated → SameName g.token t ∨ (statedPkey g.token).isSome ∧ (statedPkey t).isSome)

def separateEvent (log : List Given) (s : Subn) : Event → Prop
  | .create t => Separate log s t
  | _ => True

/-- Each definition meets the condition in the tables, and after the definitions, that it comes to. -/
def AllSeparate (env : Env) : List Given → Parsing → List Event → Prop
  | _, _, [] => True
  | log, c, e :: es =>
    match act env c e with
    | none => True
    | some c' => separateEvent log c.subn e ∧ AllSeparate env (log ++ givenBy c.subn c'.conf e) c' es

structure LogInv (env : Env) (log : List Given) (s : Subn) : Prop where
  held : ∀ g ∈ log, ∃ name, (prtnIds s).get (env.hton16 g.pkey) = some (g.pkey, name) ∧
    (g.how = .found → nameText g.token = some name)
  uses : ∀ g ∈ log, usesPkey g.token = if g.how = .stated then g.pkey else 0

lemma LogInv.mono {log : List Given} (h : LogInv env log s)
    (hkeep : ∀ k p, (prtnIds s).get k = some p → (prtnIds s').get k = some p) : LogInv env log s' := by
  refine ⟨fun g hg => ?_, h.uses⟩
  obtain ⟨name, hget, hname⟩ := h.held g hg
  exact ⟨name, hkeep _ _ hget, hname⟩

lemma LogInv.lt {log : List Given} (h : LogInv env log s) (hw : Wf env s) {g : Given} (hg : g ∈ log) :
    0 < g.pkey ∧ g.pkey < 2 ^ 15 := by
  obtain ⟨name, hget, -⟩ := h.held g hg
  exact ⟨IdsWf.pos hw _ _ hget, IdsWf.lt hw _ _ hget⟩

lemma LogInv.snoc {log : List Given} {g : Given} (h : LogInv env log s)
    (hheld : ∃ name, (prtnIds s).get (env.hton16 g.pkey) = some (g.pkey, name) ∧
    (g.how = .found → nameText g.token = some name))
    (huses : usesPkey g.token = if g.how = .stated then g.pkey else 0) : LogInv env (log ++ [g]) s := by
  constructor
  · rw [List.forall_mem_append, List.forall_mem_singleton]
    exact ⟨h.held, hheld⟩
  · rw [List.forall_mem_append, List.forall_mem_singleton]
    exact ⟨h.uses, huses⟩

lemma statedPkey_base {t : Token} {k : ℕ} (h : statedPkey t = some k) : usesPkey t = pkeyGetBase k := by
  obtain ⟨id, hid, hk⟩ := Option.bind_eq_some_iff.mp h
  rw [usesPkey, partitionPkey, hid]
  exact congrArg (fun o => pkeyGetBase (Option.getD o 0)) hk

lemma statedPkey_of_uses {t : Token} (h : usesPkey t ≠ 0) : ∃ k, statedPkey t = some k := by
  cases hid : idText t with
  | none => simp [usesPkey, partitionPkey, hid, pkeyGetBase] at h
  | some id =>
    cases hk : readPkey id with
    | none => simp [usesPkey, partitionPkey, hid, hk, pkeyGetBase] at h
    | some k => exact ⟨k, by rw [statedPkey, hid]; exact hk⟩

lemma samePkey_of_uses {t u : Token} (h : usesPkey t = usesPkey u) (hne : usesPkey t ≠ 0) : SamePkey t u := by
  obtain ⟨k, hk⟩ := statedPkey_of_uses hne
  obtain ⟨l, hl⟩ := statedPkey_of_uses (h ▸ hne)
  exact ⟨k, l, hk, hl, by rw [← statedPkey_base hk, ← statedPkey_base hl, h]⟩

lemma SamePkey.uses {t u : Token} (h : SamePkey t u) : usesPkey t = usesPkey u := by
  obtain ⟨k, l, hk, hl, hbase⟩ := h
  rw [statedPkey_base hk, statedPkey_base hl, hbase]

lemma samePkey_iff_isSome {t u : Token} (ht : usesPkey t = 0) (hu : usesPkey u = 0) :
    SamePkey t u ↔ (statedPkey t).isSome ∧ (statedPkey u).isSome := by
  simp only [Option.isSome_iff_exists]
  refine ⟨?_, ?_⟩
  · rintro ⟨k, l, hk, hl, -⟩
    exact ⟨⟨k, hk⟩, ⟨l, hl⟩⟩
  · rintro ⟨⟨k, hk⟩, ⟨l, hl⟩⟩
    exact ⟨k, l, hk, hl, by rw [← statedPkey_base hk, ← statedPkey_base hl, ht, hu]⟩

/-- The definition just processed may be with each earlier one that has its P_Key. -/
def MayJoin (log : List Given) (g : Given) : Prop :=
  ∀ u ∈ log, u.pkey = g.pkey → SamePkey u.token g.token ∨ SameName u.token g.token

lemma neverMerged_snoc {log : List Given} {g : Given} : NeverMerged (log ++ [g]) ↔ NeverMerged log ∧
    MayJoin log g := by
  simp [NeverMerged, MayJoin, List.pairwise_append]

variable {log : List Given} {t : Token} {key : ℕ}

lemma mayJoin_stated (hinv : LogInv env log s) (hw : Wf env s) (huses : usesPkey t = key) (hpos : 0 < key) :
    MayJoin log ⟨t, key, .stated⟩ ↔ Separate log s t := by
  have hne : usesPkey t ≠ 0 := by omega
  refine ⟨fun h => ⟨fun _ g hg hhow hkey => ?_, fun hzero => absurd hzero hne⟩, fun h g hg hkey => ?_⟩
  · have hg0 : usesPkey g.token = 0 := by rw [hinv.uses g hg, if_neg hhow]
    refine (h g hg (hkey.trans huses)).resolve_left fun hsame => hne ?_
    rw [← hsame.uses, hg0]
  · by_cases hhow : g.how = .stated
    · have hg0 : usesPkey g.token = g.pkey := by rw [hinv.uses g hg, if_pos hhow]
      have hgpos := (hinv.lt hw hg).1
      exact .inl (samePkey_of_uses (hg0.trans (hkey.trans huses.symm)) (by omega))
    · exact .inr (h.stated hne g hg hhow (hkey.trans huses.symm))

lemma mayJoin_found (hinv : LogInv env log s) (hw : Wf env s) (huses : usesPkey t = 0) {p : Prtn}
    (hfind : (nameText t).bind (osmPrtnFindByName s) = some p) :
    MayJoin log ⟨t, p.pkey, .found⟩ ↔ Separate log s t := by
  obtain ⟨n, hn, hp⟩ := Option.bind_eq_some_iff.mp hfind
  obtain ⟨hget, rfl⟩ := hw.osmPrtnFindByName hp
  have hid : (prtnIds s).get (env.hton16 p.pkey) = some (p.pkey, p.name) := by
    rw [get_prtnIds, ← getPrtn, hget]
    rfl
  have hne : p.name ≠ [] := IdsWf.name_pos hw _ _ hid
  refine ⟨fun h => ⟨fun hzero => absurd huses hzero, fun _ q hq g hg hkey => ?_⟩, fun h g hg hkey => ?_⟩
  · obtain rfl := Option.some.inj (hfind.symm.trans hq)
    have hjoin := h g hg hkey
    refine ⟨fun hhow => hjoin.resolve_left fun hsame => ?_, fun hhow => hjoin.symm.imp_right fun hsame => ?_⟩
    · have hg0 := hsame.uses
      rw [hinv.uses g hg, if_pos hhow, huses] at hg0
      exact absurd hg0 (hinv.lt hw hg).1.ne'
    · refine (samePkey_iff_isSome ?_ huses).mp hsame
      rw [hinv.uses g hg, hhow]
      rfl
  · obtain ⟨hstated, hgen⟩ := h.found huses p hfind g hg hkey
    cases hhow : g.how with
    | stated => exact .inr (hstated hhow)
    | generated =>
      refine (hgen hhow).symm.imp_left fun hboth => (samePkey_iff_isSome ?_ huses).mpr hboth
      rw [hinv.uses g hg, hhow]
      rfl
    | found =>
      -- both found the partition by the name that it keeps
      obtain ⟨name, hname, hg'⟩ := hinv.held g hg
      rw [hkey, hid] at hname
      obtain ⟨-, rfl⟩ := Prod.mk.inj (Option.some.inj hname)
      exact .inr ⟨p.name, hne, hg' hhow, hn⟩

lemma mayJoin_generated (hinv : LogInv env log s) (huses : usesPkey t = 0)
    (hfind : (nameText t).bind (osmPrtnFindByName s) = none) (hnone : getPrtn env s key = none) :
    MayJoin log ⟨t, key, .generated⟩ ↔ Separate log s t := by
  refine iff_of_true (fun g hg hkey => ?_) ⟨fun hzero => absurd huses hzero, fun _ p hp => ?_⟩
  · obtain ⟨name, hget, -⟩ := hinv.held g hg
    rw [hkey, get_prtnIds, ← getPrtn, hnone] at hget
    simp at hget
  · simp [hfind] at hp

lemma keep_insertPrtn {p : Prtn} (k : ℕ) (q : ℕ × Str) (h : (prtnIds s).get k = some q) :
    (prtnIds (insertPrtn env s p)).get k = some q := by
  rw [prtnIds_insertPrtn, Qmap.get_insert]
  split_ifs with hk
  · subst hk
    rw [h]
    rfl
  · exact h

lemma insertPrtn_get (hw : Wf env s) (name : Option Str) (hlt : key < 2 ^ 15) :
    ∃ n, (prtnIds (insertPrtn env s (prtnNew name key))).get (env.hton16 key) = some (key, n) := by
  rw [prtnIds_insertPrtn]
  change ∃ n, ((prtnIds s).insert (env.hton16 key) (key, (prtnNew name key).name)).get
      (env.hton16 key) = some (key, n)
  rw [Qmap.get_insert, if_pos rfl]
  cases hget : (prtnIds s).get (env.hton16 key) with
  | none => exact ⟨_, rfl⟩
  | some q =>
    have hk := IdsWf.key hw _ _ hget
    have hq := IdsWf.lt hw _ _ hget
    exact ⟨q.2, congrArg some (Prod.ext (env.hton16_inj key q.1 (by omega) (by omega) hk).symm rfl)⟩

/-- One definition: the next state of the log, and whether the new P_Key is as it should be. -/
lemma create_given {c c' : Parsing} (hw : Wf env c.subn) (hinv : LogInv env log c.subn)
    (h : act env c (.create t) = some c') :
    LogInv env (log ++ givenBy c.subn c'.conf (.create t)) c'.subn ∧
      (MayJoin log ⟨t, c'.conf.prtn.getD 0, howGiven c.subn t⟩ ↔ Separate log c.subn t) := by
  obtain ⟨r, hr, rfl⟩ := Option.map_eq_some_iff.mp h
  obtain ⟨pkey, s₁, key, hpkey, hmake, hids, hconf⟩ := partitionCreate_eq hr
  have huses : usesPkey t = pkeyGetBase pkey := by rw [usesPkey, hpkey]; rfl
  have hput : ∀ how, (∀ k p, (prtnIds c.subn).get k = some p → (prtnIds s₁).get k = some p) →
      (∃ name, (prtnIds s₁).get (env.hton16 key) = some (key, name) ∧ (how = How.found → nameText t = some name)) →
      (usesPkey t = if how = How.stated then key else 0) → howGiven c.subn t = how →
      LogInv env (log ++ givenBy c.subn r.2 (.create t)) r.1 := by
    intro how hkeep hheld hu hhow
    rw [← hids] at hkeep hheld
    simp only [givenBy, hconf, hhow, Option.getD_some]
    exact (hinv.mono hkeep).snoc hheld hu
  simp only [hconf, Option.getD_some]
  rcases osmPrtnMakeNew_cases hmake with ⟨hbase, hpos, hlt, rfl⟩ | ⟨hbase, rfl, p, hfind, rfl⟩ |
    ⟨hbase, hfind, hnone, hpos, hlt, counter, rfl⟩
  · have hhow : howGiven c.subn t = .stated := by
      rw [howGiven, if_pos]
      omega
    obtain ⟨name, hname⟩ := insertPrtn_get hw (nameText t) hlt
    refine ⟨hput .stated keep_insertPrtn ⟨name, hname, by simp⟩ (huses.trans hbase) hhow, ?_⟩
    rw [hhow]
    exact mayJoin_stated hinv hw (huses.trans hbase) hpos
  · have hzero : usesPkey t = 0 := huses.trans hbase
    have hhow : howGiven c.subn t = .found := by
      rw [howGiven, if_neg (not_not.mpr hzero), hfind]
      rfl
    obtain ⟨n, hn, hp⟩ := Option.bind_eq_some_iff.mp hfind
    obtain ⟨hget, rfl⟩ := hw.osmPrtnFindByName hp
    have hid : (prtnIds c.subn).get (env.hton16 p.pkey) = some (p.pkey, p.name) := by
      rw [get_prtnIds, ← getPrtn, hget]
      rfl
    refine ⟨hput .found (fun _ _ h => h) ⟨p.name, hid, fun _ => hn⟩ hzero hhow, ?_⟩
    rw [hhow]
    exact mayJoin_found hinv hw hzero hfind
  · have hzero : usesPkey t = 0 := huses.trans hbase
    have hhow : howGiven c.subn t = .generated := by
      rw [howGiven, if_neg (not_not.mpr hzero), hfind]
      rfl
    obtain ⟨name, hname⟩ := insertPrtn_get (s := { c.subn with globalPkeyCounter := counter }) hw (nameText t) hlt
    refine ⟨hput .generated (fun k q hq => keep_insertPrtn k q hq) ⟨name, hname, by simp⟩ hzero hhow, ?_⟩
    rw [hhow]
    exact mayJoin_generated hinv hzero hfind hnone

lemma prtnIds_act {c c' : Parsing} {e : Event} (hne : ∀ t, e ≠ .create t) (h : act env c e = some c') :
    prtnIds c'.subn = prtnIds c.subn := by
  cases e with
  | flag t => exact congrArg (fun c => prtnIds c.subn) (Option.some.inj h).symm
  | create t => exact absurd rfl (hne t)
  | entry e =>
    obtain ⟨pkey, -, he⟩ := Option.bind_eq_some_iff.mp h
    exact prtnIds_actEntry he
  | flush => exact congrArg (fun c => prtnIds c.subn) (Option.some.inj h).symm

lemma neverMerged_given_iff {c : Parsing} (hw : Wf env c.subn) (hinv : LogInv env log c.subn) (es : List Event) :
    NeverMerged (log ++ given env c es) ↔ NeverMerged log ∧ AllSeparate env log c es := by
  induction es generalizing log c with
  | nil => simp [given, AllSeparate]
  | cons e es ih =>
    rw [given, AllSeparate]
    cases ha : act env c e with
    | none => simp
    | some c' =>
      dsimp only
      rw [← List.append_assoc]
      by_cases hcreate : ∃ t, e = .create t
      · obtain ⟨t, rfl⟩ := hcreate
        obtain ⟨hinv', hjoin⟩ := create_given hw hinv ha
        rw [ih (hw.act ha) hinv', givenBy, neverMerged_snoc, hjoin, and_assoc]
        rfl
      · have hne : ∀ t, e ≠ .create t := fun t he => hcreate ⟨t, he⟩
        have hlog : givenBy c.subn c'.conf e = [] := by
          cases e with
          | create t => exact absurd rfl (hne t)
          | _ => rfl
        have hsep : separateEvent log c.subn e := by
          cases e with
          | create t => exact absurd rfl (hne t)
          | _ => trivial
        rw [hlog, List.append_nil, ih (hw.act ha)]
        · simp [hsep]
        · exact hinv.mono fun k p hp => by rw [prtnIds_act hne ha]; exact hp

lemma logInv_nil : LogInv env [] s := ⟨by simp, by simp⟩

def fileStart (env : Env) (s : Subn) : Parsing := ⟨prtnMakeDefault env (clearPortMaps s) false, newPartConf⟩

variable {host : ℕ → ℕ}

/-- Two definitions get one P_Key only when they state it or have one name: this holds of a file exactly when
each of its definitions meets the condition. -/
theorem run_neverMerged_iff {uniq : ℕ} {l : List (Subn × Reload host)}
    (h : Run reload (Subn.init uniq) l s) (env : Env)
    (henv : env.hton16 = host) (events : List Event) :
    NeverMerged (given env (fileStart env s) events) ↔ AllSeparate env [] (fileStart env s) events := by
  subst henv
  have hw : Wf env (fileStart env s).subn := (Wf.clearPortMaps (run_idsWf h)).prtnMakeDefault false
  have hiff := @neverMerged_given_iff env [] (fileStart env s) hw logInv_nil events
  rw [List.nil_append] at hiff
  rw [hiff]
  simp [NeverMerged]

def fooBar : List PartDef :=
  [⟨⟨"foo".toList, none⟩, [], [.port ⟨"ALL".toList, none⟩]⟩,
      ⟨⟨"bar".toList, some "0x1".toList⟩, [], [.port ⟨"ALL".toList, none⟩]⟩]

theorem run_neverMerged_iff_fooBar :
    NeverMerged (given oneCa (fileStart oneCa (Subn.init 0)) (fileEvents fooBar)) ↔
      AllSeparate oneCa [] (fileStart oneCa (Subn.init 0)) (fileEvents fooBar) :=
  run_neverMerged_iff (l := ([] : List (Subn × Reload id))) .nil oneCa rfl (fileEvents fooBar)

/-- The P_Key that is generated for the first definition is the one that the second states. -/
theorem generated_then_stated_merged :
    (osmPrtnConfigParseFile oneCa (fileStart oneCa (Subn.init 0)).subn (fileEvents fooBar)).2 = true ∧
      ¬NeverMerged (given oneCa (fileStart oneCa (Subn.init 0)) (fileEvents fooBar)) := by
  have hgiven : given oneCa (fileStart oneCa (Subn.init 0)) (fileEvents fooBar) =
      [⟨⟨"foo".toList, none⟩, 1, .generated⟩, ⟨⟨"bar".toList, some "0x1".toList⟩, 1, .stated⟩] := by rfl
  refine ⟨rfl, fun h => ?_⟩
  rw [hgiven, NeverMerged, List.pairwise_cons] at h
  rcases h.1 _ List.mem_cons_self rfl with ⟨k, l, hk, -⟩ | ⟨n, -, hn, hn'⟩
  · simp [statedPkey, idText, nameIsId] at hk
  · exact absurd (hn.trans hn'.symm) (by decide)

end Merging

end OpenSM.Partition
