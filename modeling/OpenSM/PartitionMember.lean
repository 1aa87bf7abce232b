import OpenSM.PartitionTables
import OpenSM.Lib.Runs

/-! The members of the partitions and the index 0 P_Keys of the ports, after the rules of a file. -/

namespace OpenSM.Partition

open Lib Lib.CString Lib.Runs Multicast

variable {env : Env} {s s' : Subn}

section Rules

structure Rule where
  pkey : ℕ
  target : Target
  membership : Membership
  indx0 : Bool

variable (env)

def hits (target : Target) (guid : Guid) : Bool :=
  match target with
  | .all type => (env.ports.get guid).elim false (isOfType type)
  | .guid g => guid = g

/-- The full and the limited table; `both` needs `allow_both_pkeys` for the second. -/
def tablesOf : Membership → Bool × Bool
  | .limited => (false, true)
  | .full => (true, false)
  | .both => (true, env.allowBothPkeys)

def matching (rules : List Rule) (guid : Guid) : List Rule :=
    (rules.filter fun r => hits env r.target guid).reverse

def indx0Value (r : Rule) : ℕ := if (tablesOf env r.membership).2 then r.pkey else fullPkey r.pkey

/-- What the rules, the last one first, make of an index 0 P_Key: one with the flag sets it, and one without the
flag takes back that of its own partition. -/
def lastSet (old : ℕ) : List Rule → ℕ
  | [] => old
  | r :: rules =>
    if r.indx0 then indx0Value env r
    else if pkeyGetBase (lastSet old rules) = r.pkey then 0
    else lastSet old rules

def memberOf (s : Subn) (pkey : ℕ) (guid : Guid) : Bool × Bool :=
  (getPrtn env s pkey).elim (false, false) fun p => ((p.fullGuidTbl.get guid).isSome,
      (p.partGuidTbl.get guid).isSome)

def lastMember (rules : List Rule) (pkey : ℕ) (guid : Guid) : Bool × Bool :=
  ((matching env rules guid).find? fun r => r.pkey = pkey).elim (false, false) fun r => tablesOf env r.membership

variable {env}

lemma matching_snoc (rules : List Rule) (r : Rule) (guid : Guid) :
    matching env (rules ++ [r]) guid =
      if hits env r.target guid then r :: matching env rules guid else matching env rules guid := by
  simp only [matching, List.filter_append, List.reverse_append]
  by_cases hr : hits env r.target guid <;> simp [hr]

lemma lastMember_snoc (rules : List Rule) (r : Rule) (pkey : ℕ) (guid : Guid) :
    lastMember env (rules ++ [r]) pkey guid =
      if pkey = r.pkey ∧ hits env r.target guid then tablesOf env r.membership
      else lastMember env rules pkey guid := by
  simp only [lastMember, matching_snoc]
  by_cases hr : hits env r.target guid
  · by_cases hk : pkey = r.pkey
    · simp [hr, hk]
    · simp [hr, hk, Ne.symm hk]
  · simp [hr]

lemma lastSet_of_untouched {old : ℕ} {l : List Rule} (h : ∀ r ∈ l, r.indx0 = false ∧ r.pkey ≠ pkeyGetBase old) :
    lastSet env old l = old := by
  induction l with
  | nil => rfl
  | cons r l ih =>
    obtain ⟨hflag, hkey⟩ := h r List.mem_cons_self
    rw [lastSet, ih fun x hx => h x (List.mem_cons_of_mem r hx)]
    simp [hflag, Ne.symm hkey]

lemma lastSet_zero {l : List Rule} (h : ∀ r ∈ l, r.indx0 = false) : lastSet env 0 l = 0 := by
  induction l with
  | nil => rfl
  | cons r l ih =>
    rw [lastSet, ih fun x hx => h x (List.mem_cons_of_mem r hx)]
    simp [h r List.mem_cons_self]

lemma lastSet_of_touched {old : ℕ} {l : List Rule} (h : ∃ r ∈ l, r.indx0 = true ∨ r.pkey = pkeyGetBase old) :
    lastSet env old l = lastSet env 0 l := by
  induction l with
  | nil => simp at h
  | cons r l ih =>
    by_cases hl : ∃ r ∈ l, r.indx0 = true ∨ r.pkey = pkeyGetBase old
    · rw [lastSet, lastSet, ih hl]
    · push Not at hl
      have hflags : ∀ x ∈ l, x.indx0 = false := fun x hx => by simpa using (hl x hx).1
      have hr : r.indx0 = true ∨ r.pkey = pkeyGetBase old := by
        obtain ⟨x, hx, hx'⟩ := h
        rcases List.mem_cons.mp hx with rfl | hx
        · exact hx'
        · exact absurd hx' (not_or.mpr (hl x hx))
      rw [lastSet, lastSet, lastSet_zero hflags, lastSet_of_untouched fun x hx => ⟨hflags x hx, (hl x hx).2⟩]
      rcases hr with hr | hr <;> simp [hr]

lemma lastSet_eq_iff {old : ℕ} {l : List Rule} :
    lastSet env old l = lastSet env 0 l ↔ old = 0 ∨ ∃ r ∈ l, r.indx0 = true ∨ r.pkey = pkeyGetBase old := by
  refine ⟨fun h => ?_, ?_⟩
  · by_contra hno
    push Not at hno
    have hflags : ∀ x ∈ l, x.indx0 = false := fun x hx => by simpa using (hno.2 x hx).1
    rw [lastSet_zero hflags, lastSet_of_untouched fun x hx => ⟨hflags x hx, (hno.2 x hx).2⟩] at h
    exact hno.1 h
  · rintro (rfl | h)
    · rfl
    · exact lastSet_of_touched h

end Rules

section Ports

lemma getPrtn_modifyPrtn {pkey k : ℕ} (hp : pkey < 2 ^ 15) (hk : k < 2 ^ 15) (f : Prtn → Prtn) :
    getPrtn env (modifyPrtn env s pkey f) k = if k = pkey then (getPrtn env s k).map f else getPrtn env s k := by
  simp only [getPrtn, modifyPrtn, Qmap.get_modify]
  by_cases h : k = pkey
  · subst h
    simp
  · rw [if_neg h, if_neg fun he => h (env.hton16_inj k pkey (by omega) (by omega) he)]

lemma getPrtn_isSome (k : ℕ) : (getPrtn env s k).isSome = ((prtnIds s).get (env.hton16 k)).isSome := by
  rw [get_prtnIds, Option.isSome_map]
  rfl

lemma memberOf_modifyPrtn {pkey k : ℕ} (hp : pkey < 2 ^ 15) (hk : k < 2 ^ 15) (hex : (getPrtn env s pkey).isSome)
    {f : Prtn → Prtn} {guid : Guid} (g : Bool × Bool → Bool × Bool)
    (hf : ∀ p, (((f p).fullGuidTbl.get guid).isSome, ((f p).partGuidTbl.get guid).isSome) =
      g ((p.fullGuidTbl.get guid).isSome, (p.partGuidTbl.get guid).isSome)) :
    memberOf env (modifyPrtn env s pkey f) k guid =
      if k = pkey then g (memberOf env s k guid) else memberOf env s k guid := by
  simp only [memberOf, getPrtn_modifyPrtn hp hk]
  split_ifs with h
  · subst h
    obtain ⟨p, hp⟩ := Option.isSome_iff_exists.mp hex
    simp only [hp, Option.map_some, Option.elim_some, hf]
  · rfl

def putMember (env : Env) (full : Bool) (m : Bool × Bool) : Bool × Bool :=
  if full then (true, env.allowBothPkeys && m.2) else (env.allowBothPkeys && m.1, true)

lemma putPort_self (guid : Guid) (full : Bool) (p : Prtn) :
    (((putPort env guid full p).fullGuidTbl.get guid).isSome,
        ((putPort env guid full p).partGuidTbl.get guid).isSome) =
      putMember env full ((p.fullGuidTbl.get guid).isSome, (p.partGuidTbl.get guid).isSome) := by
  cases full <;> cases hb : env.allowBothPkeys <;> simp [putPort, putMember, hb, Qmap.get_insert, Qmap.get_remove]

lemma putPort_other {guid g : Guid} (h : g ≠ guid) (full : Bool) (p : Prtn) :
    (((putPort env guid full p).fullGuidTbl.get g).isSome, ((putPort env guid full p).partGuidTbl.get g).isSome) =
      ((p.fullGuidTbl.get g).isSome, (p.partGuidTbl.get g).isSome) := by
  cases full <;> cases hb : env.allowBothPkeys <;> simp [putPort, hb, Qmap.get_insert, Qmap.get_remove, h]

variable {pkey k : ℕ} {guid g : Guid}

lemma memberOf_osmPrtnAddPort (hp : pkey < 2 ^ 15) (hk : k < 2 ^ 15) (hex : (getPrtn env s pkey).isSome)
    (hport : (env.ports.get guid).isSome) (full indx0 : Bool) :
    memberOf env (osmPrtnAddPort env s pkey guid full indx0) k g =
      if k = pkey ∧ g = guid then putMember env full (memberOf env s k g) else memberOf env s k g := by
  obtain ⟨t, ht⟩ := Option.isSome_iff_exists.mp hport
  have htbl : memberOf env (osmPrtnAddPort env s pkey guid full indx0) k g =
      memberOf env (modifyPrtn env s pkey (putPort env guid full)) k g := by
    simp only [osmPrtnAddPort, ht]
    rfl
  rw [htbl]
  by_cases hg : g = guid
  · subst hg
    rw [memberOf_modifyPrtn hp hk hex (putMember env full) (putPort_self g full)]
    simp only [and_true]
  · rw [memberOf_modifyPrtn hp hk hex id (putPort_other hg full)]
    simp [hg]

lemma indx0_osmPrtnAddPort (hport : (env.ports.get guid).isSome) (full indx0 : Bool) :
    (osmPrtnAddPort env s pkey guid full indx0).indx0Pkey g =
      if g = guid then indx0After pkey full indx0 (s.indx0Pkey g) else s.indx0Pkey g := by
  obtain ⟨t, ht⟩ := Option.isSome_iff_exists.mp hport
  simp only [osmPrtnAddPort, ht, modifyPrtn, Function.update_apply]
  split_ifs with hg
  · rw [hg]
  · rfl

lemma osmPrtnAddPort_none (h : env.ports.get guid = none) (full indx0 : Bool) :
    osmPrtnAddPort env s pkey guid full indx0 = s := by
  simp only [osmPrtnAddPort, h]

structure PutEffect (env : Env) (s s' : Subn) (pkey : ℕ) (full indx0 : Bool) (hit : Guid → Bool) : Prop where
  member : ∀ k g, k < 2 ^ 15 → (env.ports.get g).isSome → memberOf env s' k g =
    if k = pkey ∧ hit g then putMember env full (memberOf env s k g) else memberOf env s k g
  indx0 : ∀ g, (env.ports.get g).isSome →
    s'.indx0Pkey g = if hit g then indx0After pkey full indx0 (s.indx0Pkey g) else s.indx0Pkey g

lemma osmPrtnAddPort_effect (hp : pkey < 2 ^ 15) (hex : (getPrtn env s pkey).isSome) (guid : Guid)
    (full indx0 : Bool) :
    PutEffect env s (osmPrtnAddPort env s pkey guid full indx0) pkey full indx0 (· = guid) := by
  cases hport : env.ports.get guid with
  | none =>
    rw [osmPrtnAddPort_none hport]
    have hne : ∀ g, (env.ports.get g).isSome → g ≠ guid := by
      rintro g hg rfl
      simp [hport] at hg
    exact ⟨fun k g _ hg => by simp [hne g hg], fun g hg => by simp [hne g hg]⟩
  | some t =>
    have hsome : (env.ports.get guid).isSome := by simp [hport]
    refine ⟨fun k g hk _ => ?_, fun g _ => ?_⟩
    · simpa using memberOf_osmPrtnAddPort hp hk hex hsome full indx0
    · simpa using indx0_osmPrtnAddPort hsome full indx0

/-- The loop over the ports, which comes to each of them once. -/
lemma foldl_effect (hp : pkey < 2 ^ 15) (hex : (getPrtn env s pkey).isSome) (type : Option NodeType)
    (full indx0 : Bool)
    (l : List (Guid × NodeType)) (hnodup : (l.map Prod.fst).Nodup) :
    PutEffect env s (l.foldl
        (fun s e => if isOfType type e.2 then osmPrtnAddPort env s pkey e.1 full indx0 else s) s)
      pkey full indx0 (fun g => l.any fun e => e.1 = g ∧ isOfType type e.2) := by
  induction l generalizing s with
  | nil => exact ⟨fun _ _ _ _ => by simp, fun _ _ => by simp⟩
  | cons e l ih =>
    rw [List.map_cons, List.nodup_cons] at hnodup
    obtain ⟨hnot, hnodup⟩ := hnodup
    rw [List.foldl_cons]
    have hno : ∀ g, g = e.1 → (l.any fun e => e.1 = g ∧ isOfType type e.2) = false := by
      rintro _ rfl
      rw [List.any_eq_false]
      intro x hx
      have : x.1 ≠ e.1 := fun he => hnot (he ▸ List.mem_map_of_mem hx)
      simp [this]
    by_cases ht : isOfType type e.2
    · rw [if_pos ht]
      have hput := osmPrtnAddPort_effect hp hex e.1 full indx0
      have hrest := ih (s := osmPrtnAddPort env s pkey e.1 full indx0)
        (by rw [getPrtn_isSome, prtnIds_osmPrtnAddPort, ← getPrtn_isSome]; exact hex) hnodup
      have hany : ∀ g, ((e :: l).any fun x => x.1 = g ∧ isOfType type x.2) =
          (decide (g = e.1) || l.any fun x => x.1 = g ∧ isOfType type x.2) := by
        intro g
        have hhead : decide (e.1 = g ∧ isOfType type e.2 = true) = decide (g = e.1) :=
          decide_eq_decide.mpr ⟨fun h => h.1.symm, fun h => ⟨h.symm, ht⟩⟩
        rw [List.any_cons, hhead]
      refine ⟨fun k g hk hg => ?_, fun g hg => ?_⟩
      · rw [hany, hrest.member k g hk hg, hput.member k g hk hg]
        by_cases he : g = e.1
        · rw [hno g he]
          simp [he]
        · simp only [he, decide_false, Bool.false_or, Bool.false_eq_true, and_false, if_false]
      · rw [hany, hrest.indx0 g hg, hput.indx0 g hg]
        by_cases he : g = e.1
        · rw [hno g he]
          simp [he]
        · simp only [he, decide_false, Bool.false_or, Bool.false_eq_true, if_false]
    · rw [if_neg ht]
      have hrest := ih hex hnodup
      simpa [ht] using hrest

lemma addTarget_effect (hp : pkey < 2 ^ 15) (hex : (getPrtn env s pkey).isSome) (full indx0 : Bool)
    (target : Target) :
    PutEffect env s (addTarget env s pkey full indx0 target) pkey full indx0 (hits env target) := by
  cases target with
  | guid guid => exact osmPrtnAddPort_effect hp hex guid full indx0
  | all type =>
    have hfold := foldl_effect hp hex type full indx0 env.ports.entries (Qmap.nodup_keys env.ports)
    have hhits : ∀ g, (env.ports.get g).isSome →
        (env.ports.entries.any fun e => e.1 = g ∧ isOfType type e.2) = hits env (.all type) g := by
      intro g hg
      obtain ⟨t, ht⟩ := Option.isSome_iff_exists.mp hg
      simp only [hits, ht, Option.elim_some]
      rw [Bool.eq_iff_iff, List.any_eq_true]
      refine ⟨?_, fun h => ⟨(g, t), Qmap.get_eq_some.mp ht, by simpa using h⟩⟩
      rintro ⟨e, he, heq⟩
      obtain ⟨rfl, htype⟩ := of_decide_eq_true heq
      obtain rfl := Option.some.inj ((Qmap.get_eq_some.mpr he).symm.trans ht)
      exact htype
    refine ⟨fun k g hk hg => ?_, fun g hg => ?_⟩
    · rw [← hhits g hg]
      exact hfold.member k g hk hg
    · rw [← hhits g hg]
      exact hfold.indx0 g hg

lemma leaveTbl_get (target : Target) (tbl : Qmap Guid Unit) (hg : (env.ports.get g).isSome) :
    ((leaveTbl env target tbl).get g).isSome = ((tbl.get g).isSome && !hits env target g) := by
  obtain ⟨t, ht⟩ := Option.isSome_iff_exists.mp hg
  cases target with
  | guid guid =>
    simp only [leaveTbl, hits, Qmap.get_remove]
    by_cases h : g = guid <;> simp [h]
  | all type =>
    cases type with
    | none => simp [leaveTbl, hits, ht, isOfType]
    | some type =>
      simp only [leaveTbl, hits, ht, Qmap.get_filter, isOfType, Option.elim_some]
      by_cases h : t = type
      · simp [h]
      · simp [h, Ne.symm h]

/-- The tables of a port after `manage_membership_change`. -/
def leaveMember (env : Env) (m : Membership) (tables : Bool × Bool) : Bool × Bool :=
  if !env.allowBothPkeys ∨ m = .both then tables
  else if m = .limited then (false, tables.2) else (tables.1, false)

lemma manageMembershipChange_get (target : Target) (m : Membership) (p : Prtn) (hg : (env.ports.get g).isSome) :
    (((manageMembershipChange env target m p).fullGuidTbl.get g).isSome,
      ((manageMembershipChange env target m p).partGuidTbl.get g).isSome) =
    if hits env target g then leaveMember env m ((p.fullGuidTbl.get g).isSome, (p.partGuidTbl.get g).isSome)
    else ((p.fullGuidTbl.get g).isSome, (p.partGuidTbl.get g).isSome) := by
  cases hb : env.allowBothPkeys with
  | false => simp [manageMembershipChange, leaveMember, hb]
  | true =>
    cases m <;> cases hhit : hits env target g <;>
      simp [manageMembershipChange, leaveMember, hb, leaveTbl_get target _ hg, hhit]

lemma memberOf_manage (hp : pkey < 2 ^ 15) (hk : k < 2 ^ 15) (hex : (getPrtn env s pkey).isSome) (target : Target)
    (m : Membership) (hg : (env.ports.get g).isSome) :
    memberOf env (modifyPrtn env s pkey (manageMembershipChange env target m)) k g =
      if k = pkey ∧ hits env target g then leaveMember env m (memberOf env s k g) else memberOf env s k g := by
  refine (memberOf_modifyPrtn hp hk hex (fun x => if hits env target g then leaveMember env m x else x)
    fun p => manageMembershipChange_get target m p hg).trans ?_
  by_cases h : k = pkey <;> simp [h]

/-- The effect of a rule on one port: the tables that it asks for, whatever the port was in. -/
structure RuleEffect (env : Env) (s s' : Subn) (r : Rule) : Prop where
  member : ∀ k g, k < 2 ^ 15 → (env.ports.get g).isSome → memberOf env s' k g =
    if k = r.pkey ∧ hits env r.target g then tablesOf env r.membership else memberOf env s k g
  indx0 : ∀ g, (env.ports.get g).isSome → s'.indx0Pkey g =
    if hits env r.target g then
      if r.indx0 then indx0Value env r else if pkeyGetBase (s.indx0Pkey g) = r.pkey then 0 else s.indx0Pkey g
    else s.indx0Pkey g

lemma isSome_addTarget (k pkey : ℕ) (full indx0 : Bool) (target : Target) :
    (getPrtn env (addTarget env s pkey full indx0 target) k).isSome = (getPrtn env s k).isSome := by
  rw [getPrtn_isSome, prtnIds_addTarget, ← getPrtn_isSome]

lemma isSome_manage (k pkey : ℕ) (target : Target) (m : Membership) :
    (getPrtn env (modifyPrtn env s pkey (manageMembershipChange env target m)) k).isSome =
        (getPrtn env s k).isSome := by
  rw [getPrtn_isSome, prtnIds_modifyPrtn (manageMembershipChange_id target m), ← getPrtn_isSome]

lemma addMembership_effect {r : Rule} (hp : r.pkey < 2 ^ 15) (hpos : 0 < r.pkey)
    (hex : (getPrtn env s r.pkey).isSome) :
    RuleEffect env s (addMembership env s r.pkey r.target r.membership r.indx0) r := by
  obtain ⟨pkey, target, m, indx0⟩ := r
  dsimp only at hp hpos hex ⊢
  have hbase : pkeyGetBase pkey = pkey := Nat.mod_eq_of_lt hp
  have hzero : pkeyGetBase 0 ≠ pkey := by
    rw [pkeyGetBase, Nat.zero_mod]
    omega
  have hfullbase : pkeyGetBase (fullPkey pkey) = pkey := by
    rw [pkeyGetBase, fullPkey, hbase]
    omega
  have hmanage := fun k g hk hg => memberOf_manage (k := k) (g := g) hp hk hex target m hg
  have hex₀ : (getPrtn env (modifyPrtn env s pkey (manageMembershipChange env target m)) pkey).isSome := by
    rw [isSome_manage]
    exact hex
  have hfull := addTarget_effect hp hex₀ true indx0 target
  have hex₁ : (getPrtn env (addTarget env (modifyPrtn env s pkey (manageMembershipChange env target m))
      pkey true indx0 target) pkey).isSome := by
    rw [isSome_addTarget]
    exact hex₀
  have hpart := addTarget_effect hp hex₀ false indx0 target
  have hboth := addTarget_effect hp hex₁ false indx0 target
  have hidx : (modifyPrtn env s pkey (manageMembershipChange env target m)).indx0Pkey = s.indx0Pkey := rfl
  refine ⟨fun k g hk hg => ?_, fun g hg => ?_⟩
  · simp only [addMembership]
    cases m with
    | limited =>
      simp only [ne_eq, not_true, if_false, true_or, if_true]
      rw [hpart.member k g hk hg, hmanage k g hk hg]
      cases ha : env.allowBothPkeys <;> split_ifs <;> simp [putMember, leaveMember, tablesOf, ha]
    | full =>
      simp only [ne_eq, reduceCtorEq, not_false_eq_true, if_true, false_and, or_self, if_false]
      rw [hfull.member k g hk hg, hmanage k g hk hg]
      cases ha : env.allowBothPkeys <;> split_ifs <;> simp [putMember, leaveMember, tablesOf, ha]
    | both =>
      cases ha : env.allowBothPkeys
      · simp only [ne_eq, reduceCtorEq, not_false_eq_true, if_true, Bool.false_eq_true, and_false,
            or_self, if_false]
        rw [hfull.member k g hk hg, hmanage k g hk hg]
        split_ifs <;> simp [putMember, leaveMember, tablesOf, ha]
      · simp only [ne_eq, reduceCtorEq, not_false_eq_true, if_true, and_true, or_true]
        rw [hboth.member k g hk hg, hfull.member k g hk hg, hmanage k g hk hg]
        split_ifs <;> simp [putMember, leaveMember, tablesOf, ha]
  · simp only [addMembership]
    cases m with
    | limited =>
      simp only [ne_eq, not_true, if_false, true_or, if_true]
      rw [hpart.indx0 g hg, hidx]
      simp [indx0After, indx0Value, tablesOf, hbase]
    | full =>
      simp only [ne_eq, reduceCtorEq, not_false_eq_true, if_true, false_and, or_self, if_false]
      rw [hfull.indx0 g hg, hidx]
      simp [indx0After, indx0Value, tablesOf, hbase]
    | both =>
      cases ha : env.allowBothPkeys
      · simp only [ne_eq, reduceCtorEq, not_false_eq_true, if_true, Bool.false_eq_true, and_false,
            or_self, if_false]
        rw [hfull.indx0 g hg, hidx]
        simp [indx0After, indx0Value, tablesOf, hbase, ha]
      · simp only [ne_eq, reduceCtorEq, not_false_eq_true, if_true, and_true, or_true]
        rw [hboth.indx0 g hg, hfull.indx0 g hg, hidx]
        cases hits env target g with
        | false => rfl
        | true =>
          cases indx0 with
          | true => simp [indx0After, indx0Value, tablesOf, ha]
          | false =>
            simp only [indx0After, hbase, if_true, Bool.false_eq_true, if_false]
            by_cases hb : pkeyGetBase (s.indx0Pkey g) = pkey <;> simp [hb, hzero]

end Ports

section Files

variable (env)

def portRule (pkey : ℕ) (conf : PartConf) (t : Token) : Option Rule :=
  if abbreviates t.name "NONE" then none
  else (toTarget env t.name).map fun target => ⟨pkey, target, portMembership conf t.val, conf.indx0⟩

def eventRules (conf : PartConf) : Event → List Rule
  | .entry (.port t) => (conf.prtn.bind fun pkey => portRule env pkey conf t).toList
  | _ => []

def actedRules : Parsing → List Event → List Rule
  | _, [] => []
  | c, e :: es =>
    match act env c e with
    | none => []
    | some c' => eventRules env c.conf e ++ actedRules c' es

def defaultRules (noConfig : Bool) : List Rule :=
  [⟨defaultPartialPkey, .all none, if noConfig then .full else .limited, false⟩,
    ⟨defaultPartialPkey, .guid env.smPortGuid, .full, false⟩]

def InPorts (s : Subn) : Prop := ∀ k p, s.prtnPkeyTbl.get k = some p → ∀ g,
  (p.fullGuidTbl.get g).isSome ∨ (p.partGuidTbl.get g).isSome → (env.ports.get g).isSome

/-- The tables and the ports are as some rules leave them. -/
structure Follows (old : Guid → ℕ) (rules : List Rule) (s : Subn) : Prop where
  wf : Wf env s
  inPorts : InPorts env s
  member : ∀ pkey g, pkey < 2 ^ 15 → (env.ports.get g).isSome → memberOf env s pkey g = lastMember env rules pkey g
  indx0 : ∀ g, (env.ports.get g).isSome → s.indx0Pkey g = lastSet env (old g) (matching env rules g)

variable {env} {old : Guid → ℕ} {rules : List Rule}

lemma Follows.rule (h : Follows env old rules s) {r : Rule} (heff : RuleEffect env s s' r) (hwf : Wf env s')
    (hin : InPorts env s') : Follows env old (rules ++ [r]) s' := by
  refine ⟨hwf, hin, fun pkey g hk hg => ?_, fun g hg => ?_⟩
  · rw [heff.member pkey g hk hg, lastMember_snoc, h.member pkey g hk hg]
  · rw [heff.indx0 g hg, matching_snoc, h.indx0 g hg]
    split_ifs <;> simp_all [lastSet]

lemma SamePrtns.memberOf (h : SamePrtns s s') (pkey : ℕ) (g : Guid) :
    memberOf env s' pkey g = memberOf env s pkey g := by
  have hv := h.view (fun p => ((p.fullGuidTbl.get g).isSome, (p.partGuidTbl.get g).isSome))
      (fun _ => rfl) (env.hton16 pkey)
  simp only [Partition.memberOf, getPrtn]
  cases h₁ : s.prtnPkeyTbl.get (env.hton16 pkey) <;> cases h₂ : s'.prtnPkeyTbl.get (env.hton16 pkey) <;> simp_all

lemma SamePrtns.inPorts (h : SamePrtns s s') (hin : InPorts env s) : InPorts env s' := by
  intro k p hp
  have hv := h.view (fun p => (p.fullGuidTbl, p.partGuidTbl)) (fun _ => rfl) k
  rw [hp] at hv
  obtain ⟨q, hq, hqp⟩ := Option.map_eq_some_iff.mp hv.symm
  obtain ⟨hf, hpt⟩ := Prod.mk.inj hqp
  rw [← hf, ← hpt]
  exact hin k q hq

lemma Follows.same (h : Follows env old rules s) (hs : SamePrtns s s') : Follows env old rules s' := by
  refine ⟨?_, hs.inPorts h.inPorts, fun pkey g hk hg => ?_, fun g hg => ?_⟩
  · rw [Wf, hs.prtnIds]
    exact h.wf
  · rw [hs.memberOf, h.member pkey g hk hg]
  · rw [hs.indx0, h.indx0 g hg]

lemma InPorts.modifyPrtn (h : InPorts env s) {pkey : ℕ} {f : Prtn → Prtn}
    (hf : ∀ p g, ((f p).fullGuidTbl.get g).isSome ∨ ((f p).partGuidTbl.get g).isSome →
      (env.ports.get g).isSome ∨ (p.fullGuidTbl.get g).isSome ∨ (p.partGuidTbl.get g).isSome) :
    InPorts env (modifyPrtn env s pkey f) := by
  intro k p hp g hg
  simp only [Partition.modifyPrtn, Qmap.get_modify] at hp
  split_ifs at hp with hk
  · subst hk
    obtain ⟨q, hq, rfl⟩ := Option.map_eq_some_iff.mp hp
    exact (hf q g hg).elim id (h _ q hq g)
  · exact h k p hp g hg

lemma InPorts.osmPrtnAddPort (h : InPorts env s) (pkey : ℕ) (guid : Guid) (full indx0 : Bool) :
    InPorts env (osmPrtnAddPort env s pkey guid full indx0) := by
  cases hport : env.ports.get guid with
  | none =>
    rw [osmPrtnAddPort_none hport]
    exact h
  | some t =>
    simp only [Partition.osmPrtnAddPort, hport]
    refine InPorts.modifyPrtn (s := { s with
      indx0Pkey := Function.update s.indx0Pkey guid (indx0After pkey full indx0 (s.indx0Pkey guid)) }) h
          fun p g hg => ?_
    by_cases hgg : g = guid
    · subst hgg
      simp [hport]
    · have hother := @putPort_other env _ _ hgg full p
      obtain ⟨h₁, h₂⟩ := Prod.mk.inj hother
      rw [h₁, h₂] at hg
      exact .inr hg

lemma InPorts.addTarget (h : InPorts env s) (pkey : ℕ) (full indx0 : Bool) (target : Target) :
    InPorts env (addTarget env s pkey full indx0 target) := by
  cases target with
  | guid guid => exact h.osmPrtnAddPort pkey guid full indx0
  | all type =>
    have hfold : ∀ (l : List (Guid × NodeType)) (s : Subn), InPorts env s → InPorts env (l.foldl
        (fun s e => if isOfType type e.2 then Partition.osmPrtnAddPort env s pkey e.1 full indx0 else s) s) := by
      intro l
      induction l with
      | nil => exact fun s h => h
      | cons e l ih =>
        intro s h
        refine ih _ ?_
        dsimp only
        split_ifs
        · exact h.osmPrtnAddPort pkey e.1 full indx0
        · exact h
    exact hfold env.ports.entries s h

lemma leaveTbl_sub (target : Target) (tbl : Qmap Guid Unit) (g : Guid)
    (h : ((leaveTbl env target tbl).get g).isSome) :
    (tbl.get g).isSome := by
  cases target with
  | guid guid =>
    rw [leaveTbl, Qmap.get_remove] at h
    split_ifs at h
    · simp at h
    · exact h
  | all type =>
    cases type with
    | none => simp [leaveTbl] at h
    | some t =>
      rw [leaveTbl, Qmap.get_filter] at h
      split_ifs at h
      · exact h
      · simp at h

lemma InPorts.addMembership (h : InPorts env s) (pkey : ℕ) (target : Target) (m : Membership) (indx0 : Bool) :
    InPorts env (addMembership env s pkey target m indx0) := by
  have hmanage : InPorts env (Partition.modifyPrtn env s pkey (manageMembershipChange env target m)) := by
    refine h.modifyPrtn fun p g hg => .inr ?_
    simp only [manageMembershipChange] at hg
    split_ifs at hg
    · exact hg
    · exact hg.imp_left (leaveTbl_sub target _ g)
    · exact hg.imp_right (leaveTbl_sub target _ g)
  simp only [Partition.addMembership]
  split_ifs
  · exact (hmanage.addTarget pkey true indx0 target).addTarget pkey false indx0 target
  · exact hmanage.addTarget pkey false indx0 target
  · exact hmanage.addTarget pkey true indx0 target
  · exact hmanage

lemma get_insertPrtn (env : Env) (s : Subn) (name : Option Str) (pkey k : ℕ) :
    (insertPrtn env s (prtnNew name pkey)).prtnPkeyTbl.get k = s.prtnPkeyTbl.get k ∨
      (s.prtnPkeyTbl.get k = none ∧
          (insertPrtn env s (prtnNew name pkey)).prtnPkeyTbl.get k = some (prtnNew name pkey)) := by
  change (s.prtnPkeyTbl.insert (env.hton16 pkey) (prtnNew name pkey)).get k = _ ∨ _ ∧
    (s.prtnPkeyTbl.insert (env.hton16 pkey) (prtnNew name pkey)).get k = _
  rw [Qmap.get_insert]
  split_ifs with hk
  · subst hk
    cases hget : s.prtnPkeyTbl.get (env.hton16 pkey) with
    | some p => exact .inl rfl
    | none => exact .inr ⟨rfl, rfl⟩
  · exact .inl rfl

lemma memberOf_insertPrtn (name : Option Str) (pkey k : ℕ) (g : Guid) :
    memberOf env (insertPrtn env s (prtnNew name pkey)) k g = memberOf env s k g := by
  simp only [memberOf, getPrtn]
  rcases get_insertPrtn env s name pkey (env.hton16 k) with h | ⟨hnone, h⟩
  · rw [h]
  · rw [h, hnone]
    rfl

lemma InPorts.insertPrtn (h : InPorts env s) (name : Option Str) (pkey : ℕ) :
    InPorts env (insertPrtn env s (prtnNew name pkey)) := by
  intro k p hp g hg
  rcases get_insertPrtn env s name pkey k with heq | ⟨-, heq⟩
  · exact h k p (heq ▸ hp) g hg
  · obtain rfl := Option.some.inj (heq.symm.trans hp)
    simp [prtnNew] at hg

lemma Follows.insertPrtn (h : Follows env old rules s) (name : Option Str) {pkey : ℕ} (hpos : 0 < pkey)
    (hlt : pkey < 2 ^ 15) : Follows env old rules (insertPrtn env s (prtnNew name pkey)) :=
  ⟨h.wf.insertPrtn name hpos hlt, h.inPorts.insertPrtn name pkey,
    fun k g hk hg => (memberOf_insertPrtn name pkey k g).trans (h.member k g hk hg), h.indx0⟩

lemma isSome_insertPrtn (name : Option Str) (pkey : ℕ) :
    (getPrtn env (insertPrtn env s (prtnNew name pkey)) pkey).isSome := by
  simp only [getPrtn, Partition.insertPrtn, Qmap.get_insert]
  exact if_pos rfl ▸ rfl

lemma Follows.makeNew (h : Follows env old rules s) {name : Option Str} {pkey key : ℕ}
    (hm : osmPrtnMakeNew env s name pkey = some (s', key)) :
    Follows env old rules s' ∧ 0 < key ∧ key < 2 ^ 15 ∧ (getPrtn env s' key).isSome := by
  rcases osmPrtnMakeNew_cases hm with ⟨-, hpos, hlt, rfl⟩ | ⟨-, rfl, p, hfind, rfl⟩ | ⟨-, -, -, hpos, hlt, c, rfl⟩
  · exact ⟨h.insertPrtn name hpos hlt, hpos, hlt, isSome_insertPrtn name key⟩
  · obtain ⟨n, -, hp⟩ := Option.bind_eq_some_iff.mp hfind
    obtain ⟨hget, -⟩ := h.wf.osmPrtnFindByName hp
    obtain ⟨-, hpos, hlt, -⟩ := h.wf.of_get hget
    exact ⟨h, hpos, hlt, by rw [hget]; rfl⟩
  · have hc : Follows env old rules { s with globalPkeyCounter := c } := ⟨h.wf, h.inPorts, h.member, h.indx0⟩
    exact ⟨hc.insertPrtn name hpos hlt, hpos, hlt, isSome_insertPrtn name key⟩

def ConfOk (env : Env) (c : Parsing) : Prop := ∀ pkey, c.conf.prtn = some pkey →
  0 < pkey ∧ pkey < 2 ^ 15 ∧ (getPrtn env c.subn pkey).isSome

lemma partitionCreate_follows {conf : PartConf} {t : Token} {r : Subn × PartConf} (h : Follows env old rules s)
    (hr : partitionCreate env s conf t = some r) :
    Follows env old rules r.1 ∧ ConfOk env ⟨r.1, r.2⟩ := by
  simp only [partitionCreate] at hr
  cases hm : (partitionPkey t).bind (osmPrtnMakeNew env s (nameText t)) with
  | none => simp [hm] at hr
  | some m =>
    obtain ⟨pkey, -, hmake⟩ := Option.bind_eq_some_iff.mp hm
    obtain ⟨hf, hpos, hlt, hex⟩ := h.makeNew hmake
    simp only [hm, Option.some.injEq] at hr
    subst hr
    have hsl : ∀ sl, SamePrtns m.1 (modifyPrtn env m.1 m.2 fun p => { p with sl := sl }) :=
      fun sl => samePrtns_modifyPrtn m.2 fun _ => rfl
    have hsame : SamePrtns m.1 (if conf.isIpoib then createMgrp env (modifyPrtn env m.1 m.2 fun p => { p with
          sl := (if env.qos then conf.flags else { conf.flags with sl := defaultSl }).sl % 256 }) m.2
        (broadcastFlags (if env.qos then conf.flags else { conf.flags with sl := defaultSl }))
        (mgidSetPkey ipoibBroadcastMgid (fullPkey m.2)) else modifyPrtn env m.1 m.2 fun p => { p with
          sl := (if env.qos then conf.flags else { conf.flags with sl := defaultSl }).sl % 256 }) := by
      by_cases hip : conf.isIpoib
      · rw [if_pos hip]
        exact (hsl _).trans (samePrtns_createMgrp _ _ _ _)
      · rw [if_neg hip]
        exact hsl _
    refine ⟨hf.same hsame, ?_⟩
    intro k hk
    obtain rfl := Option.some.inj hk
    refine ⟨hpos, hlt, ?_⟩
    rw [getPrtn_isSome, hsame.prtnIds, ← getPrtn_isSome]
    exact hex

/-- One event: the tables follow its rules too. -/
lemma act_follows {c c' : Parsing} {e : Event} (h : Follows env old rules c.subn) (hc : ConfOk env c)
    (ha : act env c e = some c') : Follows env old (rules ++ eventRules env c.conf e) c'.subn ∧ ConfOk env c' := by
  cases e with
  | flag t =>
    obtain rfl := Option.some.inj ha
    refine ⟨by simpa [eventRules] using h, fun k hk => hc k ?_⟩
    rwa [← prtn_partitionAddFlag c.conf t]
  | create t =>
    obtain ⟨r, hr, rfl⟩ := Option.map_eq_some_iff.mp ha
    simpa [eventRules] using partitionCreate_follows h hr
  | flush =>
    obtain rfl := Option.some.inj ha
    exact ⟨by simpa [eventRules] using h, fun k hk => by simp [newPartConf] at hk⟩
  | entry e =>
    obtain ⟨pkey, hpkey, he⟩ := Option.bind_eq_some_iff.mp ha
    obtain ⟨hpos, hlt, hex⟩ := hc pkey hpkey
    have hids := prtnIds_actEntry he
    have hconf : ∀ c'', prtnIds c''.subn = prtnIds c.subn → c''.conf = c.conf → ConfOk env c'' := by
      intro c'' hids hcc k hk
      obtain ⟨h₁, h₂, h₃⟩ := hc k (hcc ▸ hk)
      refine ⟨h₁, h₂, ?_⟩
      rw [getPrtn_isSome, hids, ← getPrtn_isSome]
      exact h₃
    cases e with
    | mgid val flags =>
      obtain rfl := Option.some.inj he
      refine ⟨?_, hconf _ hids rfl⟩
      simpa [eventRules] using h.same (samePrtns_mgroupCreate c.subn c.conf pkey val flags)
    | port t =>
      obtain ⟨s, hs, rfl⟩ := Option.map_eq_some_iff.mp he
      refine ⟨?_, hconf _ hids rfl⟩
      have hrules : eventRules env c.conf (.entry (.port t)) = (portRule env pkey c.conf t).toList := by
        simp [eventRules, hpkey]
      rw [hrules]
      simp only [partitionAddPort] at hs
      simp only [portRule]
      split_ifs at hs ⊢
      · obtain rfl := Option.some.inj hs
        simpa using h
      · obtain ⟨target, htarget, rfl⟩ := Option.map_eq_some_iff.mp hs
        rw [htarget]
        have heff := addMembership_effect (s := c.subn) (r := ⟨pkey, target, portMembership c.conf t.val,
          c.conf.indx0⟩) hlt hpos hex
        refine h.rule heff ?_ (h.inPorts.addMembership _ _ _ _)
        rw [Wf, prtnIds_addMembership]
        exact h.wf

lemma actAll_follows {c : Parsing} (h : Follows env old rules c.subn) (hc : ConfOk env c) (es : List Event) :
    Follows env old (rules ++ actedRules env c es) (actAll env c es).1.subn := by
  induction es generalizing c rules with
  | nil => simpa [actedRules, actAll] using h
  | cons e es ih =>
    rw [actedRules, actAll]
    cases ha : act env c e with
    | none => simpa using h
    | some c' =>
      obtain ⟨h', hc'⟩ := act_follows h hc ha
      have hrest := ih h' hc'
      rwa [List.append_assoc] at hrest

lemma clearPortMaps_follows (hw : Wf env s) : Follows env s.indx0Pkey [] (clearPortMaps s) := by
  have hget : ∀ k, (clearPortMaps s).prtnPkeyTbl.get k =
      (s.prtnPkeyTbl.get k).map fun p => { p with fullGuidTbl := ∅, partGuidTbl := ∅ } := Qmap.get_map _ _
  refine ⟨hw.clearPortMaps, fun k p hp g hg => ?_, fun pkey g _ _ => ?_, fun g _ => rfl⟩
  · rw [hget] at hp
    obtain ⟨q, -, rfl⟩ := Option.map_eq_some_iff.mp hp
    simp at hg
  · rw [memberOf, getPrtn, hget]
    cases s.prtnPkeyTbl.get (env.hton16 pkey) <;> rfl

lemma pkeyGetBase_default : pkeyGetBase defaultPartialPkey = defaultPartialPkey := by decide

lemma defaultPkey_lt : 0 < defaultPartialPkey ∧ defaultPartialPkey < 2 ^ 15 := by decide

lemma osmPrtnAddAll_follows (h : Follows env old [] s) (hex : (getPrtn env s defaultPartialPkey).isSome)
    (full : Bool) :
    Follows env old [⟨defaultPartialPkey, .all none, if full then .full else .limited, false⟩]
      (osmPrtnAddAll env s defaultPartialPkey none full false) := by
  have hput : PutEffect env s (osmPrtnAddAll env s defaultPartialPkey none full false) _ _ _ _ :=
    addTarget_effect defaultPkey_lt.2 hex full false (.all none)
  refine h.rule (r := ⟨defaultPartialPkey, .all none, if full then .full else .limited, false⟩)
    ⟨fun k g hk hg => ?_, fun g hg => ?_⟩ ?_ (h.inPorts.addTarget defaultPartialPkey full false (.all none))
  · rw [hput.member k g hk hg, h.member k g hk hg]
    cases full <;> simp [putMember, lastMember, matching, tablesOf]
  · rw [hput.indx0 g hg]
    simp only [indx0After, pkeyGetBase_default, Bool.false_eq_true, if_false]
  · rw [Wf, prtnIds_osmPrtnAddAll]
    exact h.wf

lemma smPort_follows (h : Follows env old rules s) (hex : (getPrtn env s defaultPartialPkey).isSome) :
    Follows env old (rules ++ [⟨defaultPartialPkey, .guid env.smPortGuid, .full, false⟩])
      (osmPrtnAddPort env (modifyPrtn env s defaultPartialPkey fun p =>
        { p with partGuidTbl := p.partGuidTbl.remove env.smPortGuid }) defaultPartialPkey env.smPortGuid
            true false) := by
  have hids : prtnIds (modifyPrtn env s defaultPartialPkey fun p =>
      { p with partGuidTbl := p.partGuidTbl.remove env.smPortGuid }) = prtnIds s :=
          prtnIds_modifyPrtn fun _ => ⟨rfl, rfl⟩
  have hex' : (getPrtn env (modifyPrtn env s defaultPartialPkey fun p =>
      { p with partGuidTbl := p.partGuidTbl.remove env.smPortGuid }) defaultPartialPkey).isSome := by
    rw [getPrtn_isSome, hids, ← getPrtn_isSome]
    exact hex
  have hput := osmPrtnAddPort_effect defaultPkey_lt.2 hex' env.smPortGuid true false
  refine h.rule (r := ⟨defaultPartialPkey, .guid env.smPortGuid, .full, false⟩) ⟨fun k g hk hg => ?_,
      fun g hg => ?_⟩ ?_ ?_
  · have hremove := @memberOf_modifyPrtn env s _ k defaultPkey_lt.2 hk hex
      (fun p => { p with partGuidTbl := p.partGuidTbl.remove env.smPortGuid }) g
      (fun x => (x.1, x.2 && g ≠ env.smPortGuid)) fun p => by
        by_cases hg : g = env.smPortGuid <;> simp [Qmap.get_remove, hg]
    rw [hput.member k g hk hg, hremove]
    simp only [hits, tablesOf, putMember]
    by_cases hk' : k = defaultPartialPkey
    · by_cases hg' : g = env.smPortGuid <;> simp [hk', hg']
    · simp [hk']
  · rw [hput.indx0 g hg]
    simp only [indx0After, pkeyGetBase_default, Bool.false_eq_true, if_false, hits, decide_eq_true_eq]
    rfl
  · rw [Wf, prtnIds_osmPrtnAddPort, hids]
    exact h.wf
  · refine InPorts.osmPrtnAddPort (h.inPorts.modifyPrtn ?_) _ _ _ _
    refine fun p g hg => .inr (hg.imp_right fun hg => ?_)
    rw [Qmap.get_remove] at hg
    split_ifs at hg
    · simp at hg
    · exact hg

lemma prtnMakeDefault_follows (h : Follows env old [] s) (noConfig : Bool) :
    Follows env old (defaultRules env noConfig) (prtnMakeDefault env s noConfig) := by
  have hmake : osmPrtnMakeNew env s (some "Default".toList) defaultPartialPkey =
      some (insertPrtn env s (prtnNew (some "Default".toList) defaultPartialPkey), defaultPartialPkey) := by
    simp [osmPrtnMakeNew, pkeyGetBase, defaultPartialPkey]
  obtain ⟨h₁, -, -, hex⟩ := h.makeNew hmake
  have h₂ := osmPrtnAddAll_follows h₁ hex noConfig
  have h₃ := smPort_follows h₂ (by rw [getPrtn_isSome, prtnIds_osmPrtnAddAll, ← getPrtn_isSome]; exact hex)
  simp only [prtnMakeDefault, hmake]
  cases noConfig with
  | false => exact h₃
  | true => exact h₃.same (samePrtns_osmPrtnAddMcgroup _ _ _ _ _)

section CleanUp

def goneIn (env : Env) (l : List (ℕ × Prtn)) (k : ℕ) : Bool := l.any fun e => e.2.isEmpty ∧ env.hton16 e.2.pkey = k

lemma cleanUpLoop {l : List (ℕ × Prtn)}
    (h : l.foldlM (fun s e => if e.2.isEmpty then prtnDelete env s e.2 else some s) s = some s') :
    (∀ k, s'.prtnPkeyTbl.get k = if goneIn env l k then none else s.prtnPkeyTbl.get k) ∧
        s'.indx0Pkey = s.indx0Pkey := by
  induction l generalizing s with
  | nil =>
    obtain rfl := Option.some.inj h
    exact ⟨fun k => by simp [goneIn], rfl⟩
  | cons e l ih =>
    obtain ⟨s₁, hs₁, h⟩ := Option.bind_eq_some_iff.mp h
    obtain ⟨hget, hindx⟩ := ih h
    dsimp only at hs₁
    by_cases he : e.2.isEmpty
    · rw [if_pos he] at hs₁
      obtain ⟨htbl, hi⟩ := prtnPkeyTbl_prtnDelete hs₁
      refine ⟨fun k => ?_, hindx.trans hi⟩
      rw [hget, htbl, Qmap.get_remove, goneIn, goneIn, List.any_cons]
      by_cases hk : k = env.hton16 e.2.pkey
      · simp [hk, he]
      · have hhead : decide (e.2.isEmpty = true ∧ env.hton16 e.2.pkey = k) = false :=
          decide_eq_false fun h => hk h.2.symm
        rw [hhead, Bool.false_or, if_neg hk]
    · rw [if_neg he] at hs₁
      obtain rfl := Option.some.inj hs₁
      refine ⟨fun k => ?_, hindx⟩
      have hhead : decide (e.2.isEmpty = true ∧ env.hton16 e.2.pkey = k) = false := decide_eq_false fun h => he h.1
      rw [hget, goneIn, goneIn, List.any_cons, hhead, Bool.false_or]

lemma get_cleanUpEmpty (hw : Wf env s) (h : cleanUpEmpty env s = some s') (k : ℕ) :
    s'.prtnPkeyTbl.get k = (s.prtnPkeyTbl.get k).filter fun p => !p.isEmpty := by
  rw [(cleanUpLoop h).1 k]
  have hgone : goneIn env s.prtnPkeyTbl.entries k = true ↔ ∃ p, s.prtnPkeyTbl.get k = some p ∧
      p.isEmpty = true := by
    rw [goneIn, List.any_eq_true]
    refine ⟨?_, ?_⟩
    · rintro ⟨e, he, heq⟩
      obtain ⟨hempty, hk⟩ := of_decide_eq_true heq
      have hget := Qmap.get_eq_some.mpr he
      refine ⟨e.2, ?_, hempty⟩
      rw [← hk, ← (hw.of_get hget).1]
      exact hget
    · rintro ⟨p, hp, hempty⟩
      exact ⟨(k, p), Qmap.get_eq_some.mp hp, decide_eq_true ⟨hempty, (hw.of_get hp).1.symm⟩⟩
  by_cases hg : goneIn env s.prtnPkeyTbl.entries k = true
  · obtain ⟨p, hp, hempty⟩ := hgone.mp hg
    simp [hg, hp, Option.filter, hempty]
  · rw [if_neg hg]
    cases hp : s.prtnPkeyTbl.get k with
    | none => rfl
    | some p =>
      have hempty : p.isEmpty = false := by
        by_contra hne
        exact hg (hgone.mpr ⟨p, hp, by simpa using hne⟩)
      simp [Option.filter, hempty]

lemma get_of_isEmpty {t : Qmap Guid Unit} (h : t.entries.isEmpty = true) (g : Guid) : t.get g = none := by
  rw [Qmap.get_eq_none, List.isEmpty_iff.mp h]
  simp

lemma exists_of_not_isEmpty {t : Qmap Guid Unit} (h : t.entries.isEmpty = false) : ∃ g, (t.get g).isSome := by
  obtain ⟨e, he⟩ := List.exists_mem_of_ne_nil t.entries fun hnil => by simp [hnil] at h
  exact ⟨e.1, Option.isSome_iff_exists.mpr ⟨e.2, Qmap.get_eq_some.mpr he⟩⟩

lemma memberOf_cleanUpEmpty (hw : Wf env s) (h : cleanUpEmpty env s = some s') (pkey : ℕ) (g : Guid) :
    memberOf env s' pkey g = memberOf env s pkey g := by
  simp only [memberOf, getPrtn, get_cleanUpEmpty hw h]
  cases s.prtnPkeyTbl.get (env.hton16 pkey) with
  | none => rfl
  | some p =>
    cases hempty : p.isEmpty with
    | false => simp [Option.filter, hempty]
    | true =>
      obtain ⟨hpart, hfull⟩ := Bool.and_eq_true_iff.mp hempty
      simp [Option.filter, hempty, get_of_isEmpty hpart, get_of_isEmpty hfull]

lemma isSome_cleanUpEmpty (hw : Wf env s) (hin : InPorts env s) (h : cleanUpEmpty env s = some s') (pkey : ℕ) :
    (getPrtn env s' pkey).isSome ↔ ∃ g, (env.ports.get g).isSome ∧ memberOf env s' pkey g ≠ (false, false) := by
  refine ⟨fun hsome => ?_, ?_⟩
  · obtain ⟨p, hp⟩ := Option.isSome_iff_exists.mp hsome
    have hkeep := hp
    rw [getPrtn, get_cleanUpEmpty hw h, Option.filter_eq_some_iff] at hkeep
    obtain ⟨hget, hne⟩ := hkeep
    have hmember : ∃ g, (p.fullGuidTbl.get g).isSome ∨ (p.partGuidTbl.get g).isSome := by
      cases hpart : p.partGuidTbl.entries.isEmpty with
      | false => exact (exists_of_not_isEmpty hpart).imp fun _ => .inr
      | true =>
        cases hfull : p.fullGuidTbl.entries.isEmpty with
        | false => exact (exists_of_not_isEmpty hfull).imp fun _ => .inl
        | true => simp [Prtn.isEmpty, hpart, hfull] at hne
    obtain ⟨g, hg⟩ := hmember
    refine ⟨g, hin _ p hget g hg, fun hno => ?_⟩
    rw [memberOf, hp] at hno
    obtain ⟨hf, hpt⟩ := Prod.mk.inj hno
    simp [hf, hpt] at hg
  · rintro ⟨g, -, hne⟩
    by_contra hno
    rw [memberOf, Option.not_isSome_iff_eq_none.mp hno] at hne
    exact hne rfl

lemma cleanUpEmpty_follows (h : Follows env old rules s) (hc : cleanUpEmpty env s = some s') :
    Follows env old rules s' := by
  refine ⟨h.wf.cleanUpEmpty hc, fun k p hp => ?_, fun pkey g hk hg => ?_, fun g hg => ?_⟩
  · rw [get_cleanUpEmpty h.wf hc, Option.filter_eq_some_iff] at hp
    exact h.inPorts k p hp.1
  · rw [memberOf_cleanUpEmpty h.wf hc, h.member pkey g hk hg]
  · rw [(cleanUpLoop hc).2, h.indx0 g hg]

end CleanUp

section Definitions

lemma actAll_append (c : Parsing) (es fs : List Event) (h : (actAll env c (es ++ fs)).2 = true) :
    (actAll env c es).2 = true ∧ (actAll env (actAll env c es).1 fs).2 = true ∧
      actedRules env c (es ++ fs) = actedRules env c es ++ actedRules env (actAll env c es).1 fs ∧
      actAll env c (es ++ fs) = actAll env (actAll env c es).1 fs := by
  induction es generalizing c with
  | nil => exact ⟨rfl, h, rfl, rfl⟩
  | cons e es ih =>
    rw [List.cons_append, actAll] at h
    simp only [List.cons_append, actAll, actedRules]
    cases ha : act env c e with
    | none => simp [ha] at h
    | some c' =>
      rw [ha] at h
      obtain ⟨h₁, h₂, h₃, h₄⟩ := ih c' h
      exact ⟨h₁, h₂, by dsimp only; rw [h₃, List.append_assoc], h₄⟩

def confOf (d : PartDef) : PartConf := d.flags.foldl partitionAddFlag newPartConf

variable (env) in
def entryRules (pkey : ℕ) (conf : PartConf) : Entry → List Rule
  | .port t => (portRule env pkey conf t).toList
  | .mgid _ _ => []

variable (env) in
def fileRules (defs : List PartDef) : List Rule :=
  defs.flatMap fun d => d.entries.flatMap (entryRules env (usesPkey d.head) (confOf d))

lemma actAll_flags (c : Parsing) (flags : List Token) :
    actAll env c (flags.map Event.flag) = (⟨c.subn, flags.foldl partitionAddFlag c.conf⟩, true) ∧
      actedRules env c (flags.map Event.flag) = [] := by
  induction flags generalizing c with
  | nil => exact ⟨rfl, rfl⟩
  | cons t flags ih =>
    obtain ⟨h₁, h₂⟩ := ih ⟨c.subn, partitionAddFlag c.conf t⟩
    exact ⟨h₁, h₂⟩

lemma actAll_entries {c : Parsing} {pkey : ℕ} (hpkey : c.conf.prtn = some pkey) (entries : List Entry)
    (h : (actAll env c (entries.map Event.entry)).2 = true) :
    actedRules env c (entries.map Event.entry) = entries.flatMap (entryRules env pkey c.conf) ∧
      (actAll env c (entries.map Event.entry)).1.conf = c.conf := by
  induction entries generalizing c with
  | nil => exact ⟨rfl, rfl⟩
  | cons e entries ih =>
    rw [List.map_cons, actAll] at h
    simp only [List.map_cons, actAll, actedRules, List.flatMap_cons]
    cases ha : act env c (.entry e) with
    | none => simp [ha] at h
    | some c' =>
      rw [ha] at h
      have hconf : c'.conf = c.conf := by
        obtain ⟨k, -, he⟩ := Option.bind_eq_some_iff.mp ha
        cases e with
        | port t =>
          obtain ⟨s, -, rfl⟩ := Option.map_eq_some_iff.mp he
          rfl
        | mgid val flags => rw [← Option.some.inj he]
      obtain ⟨h₁, h₂⟩ := ih (hconf ▸ hpkey) h
      refine ⟨?_, h₂.trans hconf⟩
      dsimp only
      rw [h₁, hconf]
      cases e with
      | port t => simp only [eventRules, hpkey, Option.bind_some, entryRules]
      | mgid val flags => rfl

lemma act_create {c c' : Parsing} {t : Token} (huses : usesPkey t ≠ 0) (h : act env c (.create t) = some c') :
    c'.conf.prtn = some (usesPkey t) ∧ c'.conf.membership = c.conf.membership ∧ c'.conf.indx0 = c.conf.indx0 := by
  obtain ⟨r, hr, rfl⟩ := Option.map_eq_some_iff.mp h
  obtain ⟨pkey, s₁, key, hpkey, hmake, -, hconf⟩ := partitionCreate_eq hr
  have hbase : usesPkey t = pkeyGetBase pkey := by rw [usesPkey, hpkey]; rfl
  have hkey : key = usesPkey t := by
    rcases osmPrtnMakeNew_cases hmake with ⟨hb, -⟩ | ⟨hb, -⟩ | ⟨hb, -⟩
    · exact (hbase.trans hb).symm
    · exact absurd (hbase.trans hb) huses
    · exact absurd (hbase.trans hb) huses
  refine ⟨hkey ▸ hconf, ?_⟩
  simp only [partitionCreate] at hr
  cases hm : (partitionPkey t).bind (osmPrtnMakeNew env c.subn (nameText t)) with
  | none => simp [hm] at hr
  | some m =>
    simp only [hm, Option.some.injEq] at hr
    rw [← hr]
    exact ⟨rfl, rfl⟩

lemma portRule_congr {pkey : ℕ} {conf conf' : PartConf} (hm : conf'.membership = conf.membership)
    (hi : conf'.indx0 = conf.indx0) : entryRules env pkey conf' = entryRules env pkey conf := by
  funext e
  cases e with
  | mgid val flags => rfl
  | port t =>
    have hport : portMembership conf' t.val = portMembership conf t.val := by
      cases t.val with
      | none => exact hm
      | some f => rfl
    simp only [entryRules, portRule, hport, hi]

lemma actedRules_def {c : Parsing} {d : PartDef} (hconf : c.conf = newPartConf) (huses : usesPkey d.head ≠ 0)
    (h : (actAll env c d.events).2 = true) :
    actedRules env c d.events = d.entries.flatMap (entryRules env (usesPkey d.head) (confOf d)) ∧
      (actAll env c d.events).1.conf = newPartConf := by
  rw [PartDef.events, List.append_assoc] at h ⊢
  obtain ⟨-, h, hrules, hact⟩ := actAll_append c _ _ h
  obtain ⟨hflags, hnil⟩ := @actAll_flags env c d.flags
  rw [hrules, hact, hnil, hflags]
  rw [hflags] at h
  simp only [List.cons_append, actAll, actedRules, List.nil_append] at h ⊢
  cases hc : act env ⟨c.subn, d.flags.foldl partitionAddFlag c.conf⟩ (.create d.head) with
  | none => simp [hc] at h
  | some c' =>
    simp only [hc] at h ⊢
    obtain ⟨hprtn, hmem, hindx⟩ := act_create huses hc
    obtain ⟨hentries, -, hrules, hact⟩ := actAll_append c' _ _ h
    obtain ⟨hacted, -⟩ := actAll_entries hprtn d.entries hentries
    have hsame : entryRules env (usesPkey d.head) c'.conf = entryRules env (usesPkey d.head) (confOf d) := by
      refine portRule_congr ?_ ?_
      · rw [hmem, hconf, confOf]
      · rw [hindx, hconf, confOf]
    rw [hrules, hact, hacted, hsame]
    exact ⟨by simp [eventRules, actedRules, act], rfl⟩

lemma actedRules_file {c : Parsing} {defs : List PartDef} (hconf : c.conf = newPartConf)
    (huses : ∀ d ∈ defs, usesPkey d.head ≠ 0) (h : (actAll env c (fileEvents defs)).2 = true) :
    actedRules env c (fileEvents defs) = fileRules env defs := by
  induction defs generalizing c with
  | nil => rfl
  | cons d defs ih =>
    rw [fileEvents, List.flatMap_cons] at h ⊢
    obtain ⟨h₁, h₂, hrules, -⟩ := actAll_append c _ _ h
    obtain ⟨hd, hnew⟩ := actedRules_def hconf (huses d List.mem_cons_self) h₁
    rw [hrules, hd, fileRules, List.flatMap_cons]
    exact congrArg _ (ih hnew (fun x hx => huses x (List.mem_cons_of_mem d hx)) h₂)

end Definitions

end Files

section Runs

variable (env)

/-- The members, the partitions and the index 0 P_Keys are what the rules say, whatever there was before. -/
structure FollowsRules (rules : List Rule) (s : Subn) : Prop where
  member : ∀ pkey g, pkey < 2 ^ 15 → (env.ports.get g).isSome → memberOf env s pkey g = lastMember env rules pkey g
  exists_iff : ∀ pkey, (getPrtn env s pkey).isSome ↔ ∃ g, (env.ports.get g).isSome ∧
      memberOf env s pkey g ≠ (false, false)
  indx0 : ∀ g, (env.ports.get g).isSome → s.indx0Pkey g = lastSet env 0 (matching env rules g)

/-- Only the default partition, with all ports in it. -/
structure DefaultOnly (s : Subn) : Prop where
  exists_iff : ∀ pkey, pkey < 2 ^ 15 → ((getPrtn env s pkey).isSome ↔ pkey = defaultPartialPkey)
  member : ∀ g, (env.ports.get g).isSome → memberOf env s defaultPartialPkey g = (true, false)
  indx0 : ∀ g, (env.ports.get g).isSome → s.indx0Pkey g = 0

variable {env}

lemma parse_follows (hw : Wf env s) (events : List Event) :
    Follows env s.indx0Pkey (defaultRules env false ++
        actedRules env ⟨prtnMakeDefault env (clearPortMaps s) false, newPartConf⟩ events)
      (osmPrtnConfigParseFile env (prtnMakeDefault env (clearPortMaps s) false) events).1 :=
  actAll_follows (prtnMakeDefault_follows (clearPortMaps_follows hw) false)
      (fun k hk => by simp [newPartConf] at hk) events

lemma followsRules_iff {old : Guid → ℕ} {rules : List Rule} (h : Follows env old rules s)
    (hex : ∀ pkey, (getPrtn env s pkey).isSome ↔ ∃ g, (env.ports.get g).isSome ∧
    memberOf env s pkey g ≠ (false, false)) :
    FollowsRules env rules s ↔ ∀ g, (env.ports.get g).isSome →
      old g = 0 ∨ ∃ r ∈ matching env rules g, r.indx0 = true ∨ r.pkey = pkeyGetBase (old g) := by
  refine ⟨fun hf g hg => ?_, fun hc => ⟨h.member, hex, fun g hg => ?_⟩⟩
  · have hset : lastSet env (old g) (matching env rules g) = lastSet env 0 (matching env rules g) := by
      rw [← h.indx0 g hg, hf.indx0 g hg]
    exact lastSet_eq_iff.mp hset
  · rw [h.indx0 g hg, lastSet_eq_iff.mpr (hc g hg)]

lemma matching_default (noConfig : Bool) {g : Guid} (hg : (env.ports.get g).isSome) :
    (matching env (defaultRules env noConfig) g) =
      if g = env.smPortGuid then [⟨defaultPartialPkey, .guid env.smPortGuid, .full, false⟩,
        ⟨defaultPartialPkey, .all none, if noConfig then .full else .limited, false⟩]
      else [⟨defaultPartialPkey, .all none, if noConfig then .full else .limited, false⟩] := by
  obtain ⟨t, ht⟩ := Option.isSome_iff_exists.mp hg
  have hall : hits env (.all none) g = true := by
    rw [hits, ht]
    rfl
  have hsm : hits env (.guid env.smPortGuid) g = decide (g = env.smPortGuid) := rfl
  simp only [matching, defaultRules, List.filter_cons, List.filter_nil, hall, hsm, if_true, decide_eq_true_eq]
  by_cases h : g = env.smPortGuid
  · simp only [if_pos h]
    rfl
  · simp only [if_neg h]
    rfl

lemma lastMember_default {g : Guid} (hg : (env.ports.get g).isSome) (pkey : ℕ) :
    lastMember env (defaultRules env true) pkey g =
      if pkey = defaultPartialPkey then (true, false) else (false, false) := by
  rw [lastMember, matching_default true hg]
  by_cases hk : pkey = defaultPartialPkey
  · by_cases hsm : g = env.smPortGuid <;> simp [hsm, hk, tablesOf]
  · by_cases hsm : g = env.smPortGuid <;> simp [hsm, hk, Ne.symm hk]

lemma lastSet_default (noConfig : Bool) {g : Guid} (hg : (env.ports.get g).isSome) (old : ℕ) :
    lastSet env old (matching env (defaultRules env noConfig) g) =
      if pkeyGetBase old = defaultPartialPkey then 0 else old := by
  rw [matching_default noConfig hg]
  split_ifs <;> simp_all [lastSet]

lemma defaultOnly_iff {old : Guid → ℕ} (h : Follows env old (defaultRules env true) s)
    (hex : ∀ pkey, (getPrtn env s pkey).isSome ↔ ∃ g, (env.ports.get g).isSome ∧
    memberOf env s pkey g ≠ (false, false)) :
    DefaultOnly env s ↔ ∀ g, (env.ports.get g).isSome → old g = 0 ∨ pkeyGetBase (old g) = defaultPartialPkey := by
  have hindx : ∀ g, (env.ports.get g).isSome →
      (s.indx0Pkey g = 0 ↔ old g = 0 ∨ pkeyGetBase (old g) = defaultPartialPkey) := by
    intro g hg
    rw [h.indx0 g hg, lastSet_default true hg]
    split_ifs with hb
    · simp [hb]
    · simp [hb]
  have hmember : ∀ pkey g, pkey < 2 ^ 15 → (env.ports.get g).isSome →
      memberOf env s pkey g = if pkey = defaultPartialPkey then (true, false) else (false, false) :=
    fun pkey g hk hg => (h.member pkey g hk hg).trans (lastMember_default hg pkey)
  refine ⟨fun hd g hg => (hindx g hg).mp (hd.indx0 g hg),
      fun hc => ⟨fun pkey hk => ?_, fun g hg => ?_, fun g hg => ?_⟩⟩
  · rw [hex]
    refine ⟨?_, ?_⟩
    · rintro ⟨g, hg, hne⟩
      rw [hmember pkey g hk hg] at hne
      by_contra hp
      exact hne (if_neg hp)
    · rintro rfl
      have hsm : (env.ports.get env.smPortGuid).isSome := Option.isSome_iff_exists.mpr env.smPort
      refine ⟨env.smPortGuid, hsm, ?_⟩
      rw [hmember _ _ hk hsm, if_pos rfl]
      decide
  · rw [hmember _ g defaultPkey_lt.2 hg, if_pos rfl]
  · exact (hindx g hg).mpr (hc g hg)

lemma run_wf {uniq : ℕ} {l : List (Subn × Option (List Event))}
    (h : Run (osmPrtnMakePartitions env) (Subn.init uniq) l s) :
    Wf env s := by
  induction h with
  | nil => constructor <;> intro k p hp <;> simp [prtnIds, Subn.init] at hp
  | snoc _ ha ih => exact Wf.osmPrtnMakePartitions ih ha

/-- After a file that is accepted the members are those of its rules; after any other there is only the default
partition. All of this holds of a call exactly when no index 0 P_Key is left over. -/
theorem run_followsRules_iff {uniq : ℕ} {l : List (Subn × Option (List Event))}
    (h : Run (osmPrtnMakePartitions env) (Subn.init uniq) l s) {events : List Event}
    (hs : osmPrtnMakePartitions env s (some events) = some s') :
    ((osmPrtnConfigParseFile env (prtnMakeDefault env (clearPortMaps s) false) events).2 = true →
      ∀ defs : List PartDef, events = fileEvents defs → (∀ d ∈ defs, usesPkey d.head ≠ 0) →
      (FollowsRules env (defaultRules env false ++ fileRules env defs) s' ↔ ∀ g, (env.ports.get g).isSome →
        s.indx0Pkey g = 0 ∨ ∃ r ∈ matching env (defaultRules env false ++ fileRules env defs) g,
          r.indx0 = true ∨ r.pkey = pkeyGetBase (s.indx0Pkey g))) ∧
    ((osmPrtnConfigParseFile env (prtnMakeDefault env (clearPortMaps s) false) events).2 = false →
      (DefaultOnly env s' ↔ ∀ g, (env.ports.get g).isSome →
        lastSet env (s.indx0Pkey g) (matching env (defaultRules env false ++
            actedRules env ⟨prtnMakeDefault env (clearPortMaps s) false, newPartConf⟩ events) g) = 0 ∨
        pkeyGetBase (lastSet env (s.indx0Pkey g) (matching env (defaultRules env false ++
            actedRules env ⟨prtnMakeDefault env (clearPortMaps s) false, newPartConf⟩ events)
                g)) = defaultPartialPkey)) := by
  have hparse := parse_follows (run_wf h) events
  obtain ⟨s₁, hs₁, hs⟩ := Option.bind_eq_some_iff.mp hs
  have hclean := cleanUpEmpty_follows hparse hs₁
  refine ⟨fun hacc defs hdefs huses => ?_, fun hrej => ?_⟩
  · rw [if_pos hacc] at hs
    obtain rfl := Option.some.inj hs
    subst hdefs
    have hrules := actedRules_file (c := ⟨prtnMakeDefault env (clearPortMaps s) false, newPartConf⟩) rfl huses
      (Bool.and_eq_true_iff.mp hacc).1
    rw [← hrules]
    exact followsRules_iff hclean (isSome_cleanUpEmpty hparse.wf hparse.inPorts hs₁)
  · rw [if_neg (by simp [hrej])] at hs
    have hdefault := prtnMakeDefault_follows (clearPortMaps_follows hclean.wf) true
    refine (defaultOnly_iff (cleanUpEmpty_follows hdefault hs)
      (isSome_cleanUpEmpty hdefault.wf hdefault.inPorts hs)).trans ?_
    refine forall_congr' fun g => forall_congr' fun hg => ?_
    rw [hclean.indx0 g hg]

def firstFile : List PartDef :=
    [⟨⟨"a".toList, some "1".toList⟩, [⟨"indx0".toList, none⟩], [.port ⟨"ALL".toList, some "full".toList⟩]⟩]

def secondFile : List PartDef := [⟨⟨"b".toList, some "2".toList⟩, [], [.port ⟨"ALL".toList, some "full".toList⟩]⟩]

def afterFile (s : Subn) (defs : List PartDef) : Subn :=
  (osmPrtnMakePartitions oneCa s (some (fileEvents defs))).getD s

theorem run_followsRules_iff_firstFile :
    FollowsRules oneCa (defaultRules oneCa false ++ fileRules oneCa firstFile)
        (afterFile (Subn.init 0) firstFile) :=
  have hs : osmPrtnMakePartitions oneCa (Subn.init 0) (some (fileEvents firstFile)) =
      some (afterFile (Subn.init 0) firstFile) := rfl
  ((run_followsRules_iff .nil hs).1 rfl firstFile rfl (by decide)).mpr fun _ _ => .inl rfl

/-- The second file has no rule with the flag, and the port keeps the P_Key of the first. -/
theorem indx0_left_over :
    Run (osmPrtnMakePartitions oneCa) (Subn.init 0) [(Subn.init 0, some (fileEvents firstFile))]
      (afterFile (Subn.init 0) firstFile) ∧
    osmPrtnMakePartitions oneCa (afterFile (Subn.init 0) firstFile) (some (fileEvents secondFile)) =
      some (afterFile (afterFile (Subn.init 0) firstFile) secondFile) ∧
    (osmPrtnConfigParseFile oneCa (prtnMakeDefault oneCa (clearPortMaps (afterFile (Subn.init 0) firstFile)) false)
      (fileEvents secondFile)).2 = true ∧
    ¬FollowsRules oneCa (defaultRules oneCa false ++ fileRules oneCa secondFile)
      (afterFile (afterFile (Subn.init 0) firstFile) secondFile) := by
  refine ⟨.snoc .nil rfl, rfl, rfl, fun h => ?_⟩
  have hindx : (afterFile (afterFile (Subn.init 0) firstFile) secondFile).indx0Pkey 1 = 0x8001 := by rfl
  have hzero :
      lastSet oneCa 0 (matching oneCa (defaultRules oneCa false ++ fileRules oneCa secondFile) 1) = 0 := by rfl
  rw [h.indx0 1 rfl, hzero] at hindx
  exact absurd hindx (by decide)

end Runs

end OpenSM.Partition
