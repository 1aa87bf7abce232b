import Mathlib
import OpenSM.Lib.Runs
import OpenSM.SubnLines

/-! Configuration files read one after the other, compared with a restart on the last of them. -/

namespace OpenSM.SubnOpt

open Lib.CString Lib.Runs

section Lease

/-- The lines of two files in turn for which the lease period and the sweep interval end as after a restart. -/
def LeaseCarries (p S L q T K : ℕ) : Prop :=
  p ≠ 0 →
    (S = 0 → 2 ≤ L → T = 0 → q ≠ 0 ∧ K = L) ∧
    (0 < L → L ≤ S → (S + 1) % 2 ^ 16 ≠ L → K = L →
      q ≠ 0 ∧ L ≤ T + 1 ∧ ((S + 1) % 2 ^ 16 = (T + 1) % 2 ^ 16 ∨ (0 < (S + 1) % 2 ^ 16 ∧ (S + 1) % 2 ^ 16 ≤ T)))

variable {p S L q T K : ℕ}

lemma fixLease_off (h : p = 0 ∨ L = 0) : fixLease p S L = (S, L) := if_neg (by omega)

lemma fixLease_wake (hp : p ≠ 0) (hL : 0 < L) : fixLease p 0 L = (L - 1, L) := by
  have h : ¬L ≤ L - 1 := by omega
  simp [fixLease, hp, hL.ne', h]

lemma fixLease_raise (hp : p ≠ 0) (hL : 0 < L) (hS : L ≤ S) : fixLease p S L = (S, (S + 1) % 2 ^ 16) := by
  have h : S ≠ 0 := by omega
  simp [fixLease, hp, hL.ne', hS, h]

lemma fixLease_keep (hp : p ≠ 0) (hS : 0 < S) (hL : S < L) : fixLease p S L = (S, L) := by
  have h : ¬L ≤ S := by omega
  simp [fixLease, hp, hS.ne', h]

lemma fixLease_again_wake (hL : 2 ≤ L) (hlt : L < 2 ^ 16) :
    fixLease q (L - 1) K = fixLease q 0 K ↔ q ≠ 0 ∧ K = L := by
  by_cases hq : q = 0 ∨ K = 0
  · rw [fixLease_off hq, fixLease_off hq]
    simp only [Prod.mk.injEq, and_true]
    omega
  · rw [not_or] at hq
    rw [fixLease_wake hq.1 (by omega)]
    rcases lt_or_ge (L - 1) K with h | h
    · rw [fixLease_keep hq.1 (by omega) h]
      simp only [Prod.mk.injEq, and_true]
      omega
    · rw [fixLease_raise hq.1 (by omega) h]
      simp only [Prod.mk.injEq]
      omega

/-- A lease period that has been raised, read again. -/
lemma fixLease_again_raise {R : ℕ} (hL : 0 < L) (hlt : L < 2 ^ 16) (hR : R ≠ L) (hRlt : R < 2 ^ 16) :
    fixLease q T R = fixLease q T L ↔
      q ≠ 0 ∧ L ≤ T + 1 ∧ (R = (T + 1) % 2 ^ 16 ∨ (0 < R ∧ R ≤ T)) := by
  by_cases hq : q = 0
  · rw [fixLease_off (.inl hq), fixLease_off (.inl hq)]
    simp only [Prod.mk.injEq, true_and]
    omega
  · rcases Nat.eq_zero_or_pos T with rfl | hT
    · rw [fixLease_wake hq hL]
      rcases Nat.eq_zero_or_pos R with rfl | hRpos
      · rw [fixLease_off (.inr rfl)]
        simp only [Prod.mk.injEq]
        omega
      · rw [fixLease_wake hq hRpos]
        simp only [Prod.mk.injEq]
        omega
    · rcases Nat.eq_zero_or_pos R with rfl | hRpos
      · rw [fixLease_off (.inr rfl)]
        rcases lt_or_ge T L with h | h
        · rw [fixLease_keep hq hT h]
          simp only [Prod.mk.injEq, true_and, ne_eq, hq, not_false_eq_true]
          omega
        · rw [fixLease_raise hq hL h]
          simp only [Prod.mk.injEq, true_and, ne_eq, hq, not_false_eq_true]
          omega
      · rcases lt_or_ge T L with h | h
        · rw [fixLease_keep hq hT h]
          rcases lt_or_ge T R with h' | h'
          · rw [fixLease_keep hq hT h']
            simp only [Prod.mk.injEq, true_and, ne_eq, hq, not_false_eq_true]
            omega
          · rw [fixLease_raise hq hRpos h']
            simp only [Prod.mk.injEq, true_and, ne_eq, hq, not_false_eq_true]
            omega
        · rw [fixLease_raise hq hL h]
          rcases lt_or_ge T R with h' | h'
          · rw [fixLease_keep hq hT h']
            simp only [Prod.mk.injEq, true_and, ne_eq, hq, not_false_eq_true]
            omega
          · rw [fixLease_raise hq hRpos h']
            exact iff_of_true rfl ⟨hq, by omega, .inr ⟨hRpos, h'⟩⟩

lemma fixLease_again (hL : L < 2 ^ 16) :
    fixLease q (if S = T then (fixLease p S L).1 else T) (if L = K then (fixLease p S L).2 else K) =
        fixLease q T K ↔
      LeaseCarries p S L q T K := by
  have hself : ∀ a b : ℕ, (if a = b then a else b) = b := fun a b => ite_eq_right_iff.mpr id
  by_cases hp : p = 0 ∨ L = 0
  · rw [fixLease_off hp]
    simp only [hself, true_iff]
    intro hp'
    exact ⟨fun _ h => by omega, fun h => by omega⟩
  rw [not_or] at hp
  simp only [LeaseCarries, hp.1, ne_eq, not_false_eq_true, forall_const]
  rcases Nat.eq_zero_or_pos S with rfl | hS
  · rw [fixLease_wake hp.1 (by omega)]
    simp only [hself]
    by_cases hT : T = 0
    · subst hT
      rw [if_pos rfl]
      rcases eq_or_ne L 1 with rfl | hL1
      · simp
      · rw [fixLease_again_wake (by omega) hL]
        exact ⟨fun h => ⟨fun _ _ _ => h, fun h₁ h₂ => by omega⟩, fun h => h.1 trivial (by omega) rfl⟩
    · rw [if_neg (Ne.symm hT)]
      exact iff_of_true rfl ⟨fun _ _ h => absurd h hT, fun h₁ h₂ => by omega⟩
  · rcases lt_or_ge S L with h | h
    · rw [fixLease_keep hp.1 hS h]
      simp only [hself, true_iff]
      exact ⟨fun _ => by omega, fun _ _ => by omega⟩
    · rw [fixLease_raise hp.1 (by omega) h]
      simp only [hself]
      by_cases hK : L = K
      · subst hK
        rw [if_pos rfl]
        by_cases hR : (S + 1) % 2 ^ 16 = L
        · rw [hR]
          exact iff_of_true rfl ⟨fun _ => by omega, fun _ _ h => absurd rfl h⟩
        · rw [fixLease_again_raise (by omega) hL hR (by omega)]
          exact ⟨fun h' => ⟨fun _ => by omega, fun _ _ _ _ => h'⟩, fun h' => h'.2 (by omega) h hR rfl⟩
      · rw [if_neg hK]
        exact iff_of_true rfl ⟨fun _ => by omega, fun _ _ _ h => absurd h.symm hK⟩

end Lease

section Verify

variable {c : Conf} {o : Opts} {f : Field} {s : Scalar}

@[simp] lemma toNum_num (n : ℕ) : (Val.num n).toNum = n := rfl

@[simp] lemma toStr_str (s : Option Str) : (Val.str s).toStr = s := rfl

@[simp] lemma setNum_self (s : Scalar) (h : ℕ → ℕ) (o : Opts) : setNum s h o (.one s) = .num
    (h (o (.one s)).toNum) :=
  Function.update_self _ _ _

lemma setNum_of_ne (hf : f ≠ .one s) (h : ℕ → ℕ) (o : Opts) : setNum s h o f = o f :=
  Function.update_of_ne hf _ _

@[simp] lemma setNum_one {s' : Scalar} (hs : s' ≠ s) (h : ℕ → ℕ) (o : Opts) : setNum s h o
    (.one s') = o (.one s') :=
  setNum_of_ne (by simpa using hs) h o

@[simp] lemma setNum_qos (s : Scalar) (h : ℕ → ℕ) (o : Opts) (q : QosSet) (p : QosOption) :
    setNum s h o (.qosOptions q p) = o (.qosOptions q p) := setNum_of_ne (by simp) h o

@[simp] lemma setNum_cca (s : Scalar) (h : ℕ → ℕ) (o : Opts) (sl : ℕ) (e : CaCongEntry) :
    setNum s h o (.ccCaCongEntries sl e) = o (.ccCaCongEntries sl e) := setNum_of_ne (by simp) h o

@[simp] lemma verifyQos_one (o : Opts) (s : Scalar) : verifyQos o (.one s) = o (.one s) := by
  rw [verifyQos]
  split_ifs <;> rfl

@[simp] lemma verifyQos_cca (o : Opts) (sl : ℕ) (e : CaCongEntry) :
    verifyQos o (.ccCaCongEntries sl e) = o (.ccCaCongEntries sl e) := by
  rw [verifyQos]
  split_ifs <;> rfl

def texts : List Field := [.one .console, .one .partEnforce, .one .partEnforceEnum]

lemma verifyConsole_of_ne (hf : f ∉ texts) : (verifyConsole c).opt f = c.opt f := by
  have hne : f ≠ .one .console := fun h => hf (by simp [h, texts])
  rw [verifyConsole]
  split
  · rfl
  · split_ifs
    · rfl
    · exact Function.update_of_ne hne _ _

lemma verifyPartEnforce_of_ne (hf : f ∉ texts) : (verifyPartEnforce c).opt f = c.opt f := by
  have hne : f ≠ .one .partEnforce := fun h => hf (by simp [h, texts])
  have hne' : f ≠ .one .partEnforceEnum := fun h => hf (by simp [h, texts])
  rw [verifyPartEnforce]
  split
  · rfl
  · split_ifs <;> simp [setEnum, overwrite, Function.update_of_ne hne, Function.update_of_ne hne']

lemma verify_texts (hf : f ∉ texts) : (verifyPartEnforce (verifyConsole c)).opt f = c.opt f := by
  rw [verifyPartEnforce_of_ne hf, verifyConsole_of_ne hf]

@[simp] lemma verify_texts_one (h₁ : s ≠ .console) (h₂ : s ≠ .partEnforce) (h₃ : s ≠ .partEnforceEnum) :
    (verifyPartEnforce (verifyConsole c)).opt (.one s) = c.opt (.one s) :=
  verify_texts (by simp [texts, h₁, h₂, h₃])

@[simp] lemma verify_texts_qos (q : QosSet) (p : QosOption) :
    (verifyPartEnforce (verifyConsole c)).opt (.qosOptions q p) = c.opt (.qosOptions q p) :=
  verify_texts (by simp [texts])

@[simp] lemma verify_texts_cca (sl : ℕ) (e : CaCongEntry) :
    (verifyPartEnforce (verifyConsole c)).opt (.ccCaCongEntries sl e) = c.opt (.ccCaCongEntries sl e) :=
  verify_texts (by simp [texts])

def ownFixes : List (Scalar × (ℕ → ℕ)) :=
  [(.smPriority, fixSmPriority), (.forceLinkSpeed, fixForceLinkSpeed), (.forceLinkSpeedExt, fixForceLinkSpeedExt),
    (.forceLinkWidth, fixForceLinkWidth), (.fdr10, fixFdr10), (.maxWireSmps, fixMaxWireSmps),
    (.mKeyProtectBits, fixMKeyProtectBits)]

lemma verify_own {h : ℕ → ℕ} (hs : (s, h) ∈ ownFixes) :
    (osmSubnVerifyConfig c).opt (.one s) = .num (h (c.opt (.one s)).toNum) := by
  simp only [ownFixes, List.mem_cons, Prod.mk.injEq, List.not_mem_nil, or_false] at hs
  rcases hs with ⟨rfl, rfl⟩ | ⟨rfl, rfl⟩ | ⟨rfl, rfl⟩ | ⟨rfl, rfl⟩ | ⟨rfl, rfl⟩ | ⟨rfl, rfl⟩ | ⟨rfl, rfl⟩
  all_goals
    simp [osmSubnVerifyConfig, Conf.onOpt, verifyRates, verifyMKey, verifyPerfmgr, verifyTimeout,
      verifyMaxWireSmps2, verifyRanges]

lemma fixMaxWireSmps_again (n : ℕ) : fixMaxWireSmps (fixMaxWireSmps n) = fixMaxWireSmps n := by
  have hle : fixMaxWireSmps n ≠ 0 ∧ ¬0x7FFFFFFF < fixMaxWireSmps n := by
    rw [fixMaxWireSmps]
    split_ifs <;> omega
  rw [fixMaxWireSmps, if_neg hle.1, if_neg hle.2]

lemma ownFixes_again {h : ℕ → ℕ} (hs : (s, h) ∈ ownFixes) (n : ℕ) : h (h n) = h n := by
  simp only [ownFixes, List.mem_cons, Prod.mk.injEq, List.not_mem_nil, or_false] at hs
  rcases hs with ⟨-, rfl⟩ | ⟨-, rfl⟩ | ⟨-, rfl⟩ | ⟨-, rfl⟩ | ⟨-, rfl⟩ | ⟨-, rfl⟩ | ⟨-, rfl⟩
  case inr.inr.inr.inr.inr.inl => exact fixMaxWireSmps_again n
  all_goals
    simp only [fixSmPriority, fixForceLinkSpeed, fixForceLinkSpeedExt, fixForceLinkWidth, fixFdr10,
        fixMKeyProtectBits]
    split_ifs <;> omega

lemma verify_smps2 : (osmSubnVerifyConfig c).opt (.one .maxWireSmps2) =
    .num (if 0x7FFFFFFF < (c.opt (.one .maxWireSmps2)).toNum then fixMaxWireSmps (c.opt (.one .maxWireSmps)).toNum
      else (c.opt (.one .maxWireSmps2)).toNum) := by
  simp [osmSubnVerifyConfig, Conf.onOpt, verifyRates, verifyMKey, verifyPerfmgr, verifyTimeout, verifyMaxWireSmps2,
    verifyRanges]

def Opts.lease (o : Opts) : ℕ × ℕ :=
  fixLease (o (.one .mKeyProtectBits)).toNum (o (.one .sweepInterval)).toNum (o (.one .mKeyLeasePeriod)).toNum

lemma fixLease_protect (p S L : ℕ) : fixLease (fixMKeyProtectBits p) S L = fixLease p S L := by
  have h : fixMKeyProtectBits p ≠ 0 ↔ p ≠ 0 := by
    rw [fixMKeyProtectBits]
    split_ifs <;> omega
  simp only [fixLease, h]

lemma verify_sweep : (osmSubnVerifyConfig c).opt (.one .sweepInterval) = .num (Opts.lease c.opt).1 := by
  rw [Opts.lease, ← fixLease_protect]
  simp [osmSubnVerifyConfig, Conf.onOpt, verifyRates, verifyMKey, verifyPerfmgr, verifyTimeout, verifyMaxWireSmps2,
    verifyRanges]

lemma verify_lease : (osmSubnVerifyConfig c).opt (.one .mKeyLeasePeriod) = .num (Opts.lease c.opt).2 := by
  rw [Opts.lease, ← fixLease_protect]
  simp [osmSubnVerifyConfig, Conf.onOpt, verifyRates, verifyMKey, verifyPerfmgr, verifyTimeout, verifyMaxWireSmps2,
    verifyRanges]

lemma verify_rate : (osmSubnVerifyConfig c).opt (.one .maxRateEnum) =
    .num (fixMaxRateEnum (c.opt (.one .useOriginalExtendedSaRatesOnly)).toBool
        (c.opt (.one .maxRateEnum)).toNum) := by
  simp [osmSubnVerifyConfig, Conf.onOpt, verifyRates, verifyMKey, verifyPerfmgr, verifyTimeout, verifyMaxWireSmps2,
    verifyRanges]

def corrected : List Scalar :=
  [.lmc, .smPriority, .forceLinkSpeed, .forceLinkSpeedExt, .forceLinkWidth, .fdr10, .maxWireSmps, .maxWireSmps2,
    .longTransactionTimeout, .console, .partEnforce, .partEnforceEnum, .perfmgrSweepTimeS,
    .perfmgrMaxOutstandingQueries, .mKeyProtectBits, .sweepInterval, .mKeyLeasePeriod, .maxRateEnum]

lemma verify_other (hs : s ∉ corrected) : (osmSubnVerifyConfig c).opt (.one s) = c.opt (.one s) := by
  simp only [corrected, List.mem_cons, List.not_mem_nil, or_false, not_or] at hs
  simp [osmSubnVerifyConfig, Conf.onOpt, verifyRates, verifyMKey, verifyPerfmgr, verifyTimeout, verifyMaxWireSmps2,
    verifyRanges, hs]

lemma verify_cca (sl : ℕ) (e : CaCongEntry) :
    (osmSubnVerifyConfig c).opt (.ccCaCongEntries sl e) = c.opt (.ccCaCongEntries sl e) := by
  simp [osmSubnVerifyConfig, Conf.onOpt, verifyRates, verifyMKey, verifyPerfmgr, verifyTimeout, verifyMaxWireSmps2,
    verifyRanges]

lemma verifyQos_congr {o' : Opts} (hqos : o (.one .qos) = o' (.one .qos))
    (h : ∀ q p, o (.qosOptions q p) = o' (.qosOptions q p))
    (q : QosSet) (p : QosOption) : verifyQos o (.qosOptions q p) = verifyQos o' (.qosOptions q p) := by
  simp only [verifyQos, hqos]
  split_ifs
  · cases p <;> simp only [verifyQosSet, h]
  · exact h q p

lemma verify_qos (q : QosSet) (p : QosOption) :
    (osmSubnVerifyConfig c).opt (.qosOptions q p) = verifyQos c.opt (.qosOptions q p) := by
  simp only [osmSubnVerifyConfig, Conf.onOpt, verifyRates, verifyMKey, verifyPerfmgr, setNum_qos]
  apply verifyQos_congr
  · simp [verifyTimeout, verifyMaxWireSmps2, verifyRanges]
  · simp [verifyTimeout, verifyMaxWireSmps2, verifyRanges]

end Verify

section Texts

variable {c : Conf} {f : Field}

/-- The text that stands in `part_enforce` in the end. -/
def enforced (partEnforce noEnforcement : Val) : Val :=
  partEnforce.toStr.elim partEnforce fun s =>
    if noEnforcement.toBool then .str (some enforceOff)
    else if s = enforceBoth ∨ s = enforceIn ∨ s = enforceOut ∨ s = enforceOff then partEnforce
    else .str (some enforceBoth)

def HasRoom (partEnforce noEnforcement : Val) : Prop :=
  match partEnforce.toStr with
  | none => False
  | some s =>
    if noEnforcement.toBool then enforceOff.length ≤ s.length
    else s ∈ [enforceBoth, enforceIn, enforceOut, enforceOff] ∨ enforceBoth.length ≤ s.length

lemma verifyPartEnforce_spec (hs : c.file (.one .partEnforce) = c.opt (.one .partEnforce)) :
    (verifyPartEnforce c).opt (.one .partEnforce) =
        enforced (c.opt (.one .partEnforce)) (c.opt (.one .noPartitionEnforcement)) ∧
      (verifyPartEnforce c).file (.one .partEnforce) = (verifyPartEnforce c).opt (.one .partEnforce) ∧
      ((verifyPartEnforce c).overrun = false ∧ (verifyPartEnforce c).crashed = false ↔
        (c.overrun = false ∧ c.crashed = false) ∧
          HasRoom (c.opt (.one .partEnforce)) (c.opt (.one .noPartitionEnforcement))) := by
  simp only [verifyPartEnforce, enforced, HasRoom]
  cases hp : (c.opt (.one .partEnforce)).toStr with
  | none => simp [hs]
  | some s =>
    dsimp only
    split_ifs with hno hboth hin hout hoff
    · simp [setEnum, overwrite]
      tauto
    all_goals simp_all [setEnum, overwrite]
    tauto

lemma verifyPartEnforce_file (hf : f ≠ .one .partEnforce) : (verifyPartEnforce c).file f = c.file f := by
  rw [verifyPartEnforce]
  split
  · rfl
  · split_ifs <;> simp [setEnum, overwrite, Function.update_of_ne hf]

lemma verifyConsole_file : (verifyConsole c).file = c.file := by
  rw [verifyConsole]
  split
  · rfl
  · split_ifs <;> rfl

lemma verifyConsole_spec : (verifyConsole c).overrun = c.overrun ∧
    ((verifyConsole c).crashed = false ↔ c.crashed = false ∧ (c.opt (.one .console)).toStr ≠ none) ∧
    (((verifyConsole c).opt (.one .console)).toStr = none ↔ (c.opt (.one .console)).toStr = none) := by
  rw [verifyConsole]
  cases hp : (c.opt (.one .console)).toStr with
  | none => simp [hp]
  | some s =>
    dsimp only
    split_ifs <;> simp [hp]

lemma verifyConsole_partEnforce : (verifyConsole c).opt (.one .partEnforce) = c.opt (.one .partEnforce) := by
  rw [verifyConsole]
  split
  · rfl
  · split_ifs <;> simp

lemma verify_text {t : Scalar} (ht : .one t ∈ texts) : (osmSubnVerifyConfig c).opt (.one t) =
    (verifyPartEnforce (verifyConsole (c.onOpt fun o => verifyTimeout (verifyMaxWireSmps2 (verifyRanges o))))).opt
      (.one t) := by
  simp only [texts, List.mem_cons, Field.one.injEq, List.not_mem_nil, or_false] at ht
  rcases ht with rfl | rfl | rfl <;> simp [osmSubnVerifyConfig, Conf.onOpt, verifyRates, verifyMKey, verifyPerfmgr]

lemma head_text {t : Scalar} (ht : t ∉ corrected) (o : Opts) :
    verifyTimeout (verifyMaxWireSmps2 (verifyRanges o)) (.one t) = o (.one t) := by
  simp only [corrected, List.mem_cons, List.not_mem_nil, or_false, not_or] at ht
  simp [verifyTimeout, verifyMaxWireSmps2, verifyRanges, ht]

lemma head_partEnforce (o : Opts) :
    verifyTimeout (verifyMaxWireSmps2 (verifyRanges o)) (.one .partEnforce) = o (.one .partEnforce) := by
  simp [verifyTimeout, verifyMaxWireSmps2, verifyRanges]

lemma head_console (o : Opts) :
    verifyTimeout (verifyMaxWireSmps2 (verifyRanges o)) (.one .console) = o (.one .console) := by
  simp [verifyTimeout, verifyMaxWireSmps2, verifyRanges]

/-- What the verification does to the texts, to the second copy and to the memory. -/
lemma verify_spec (hs : c.file (.one .partEnforce) = c.opt (.one .partEnforce)) :
    (osmSubnVerifyConfig c).opt (.one .partEnforce) =
        enforced (c.opt (.one .partEnforce)) (c.opt (.one .noPartitionEnforcement)) ∧
      (osmSubnVerifyConfig c).file (.one .partEnforce) = (osmSubnVerifyConfig c).opt (.one .partEnforce) ∧
      ((osmSubnVerifyConfig c).overrun = false ∧ (osmSubnVerifyConfig c).crashed = false ↔
        (c.overrun = false ∧ c.crashed = false) ∧ (c.opt (.one .console)).toStr ≠ none ∧
          HasRoom (c.opt (.one .partEnforce)) (c.opt (.one .noPartitionEnforcement))) ∧
      (((osmSubnVerifyConfig c).opt (.one .console)).toStr = none ↔ (c.opt (.one .console)).toStr = none) := by
  set d := c.onOpt fun o => verifyTimeout (verifyMaxWireSmps2 (verifyRanges o)) with hd
  have hpe : d.opt (.one .partEnforce) = c.opt (.one .partEnforce) := head_partEnforce c.opt
  have hco : d.opt (.one .console) = c.opt (.one .console) := head_console c.opt
  have hnot : Scalar.noPartitionEnforcement ∉ corrected := by decide
  have hno : d.opt (.one .noPartitionEnforcement) = c.opt (.one .noPartitionEnforcement) := head_text hnot c.opt
  have hno' : (verifyConsole d).opt (.one .noPartitionEnforcement) = c.opt (.one .noPartitionEnforcement) := by
    rw [verifyConsole_of_ne (by decide), hno]
  obtain ⟨hover, hcrash, hnone⟩ := verifyConsole_spec (c := d)
  have hs' : (verifyConsole d).file (.one .partEnforce) = (verifyConsole d).opt (.one .partEnforce) := by
    rw [verifyConsole_file, verifyConsole_partEnforce, hpe, ← hs]
    rfl
  obtain ⟨hopt, hfile, hflags⟩ := verifyPartEnforce_spec hs'
  rw [verifyConsole_partEnforce, hpe, hno'] at hopt hflags
  have hcons : (verifyPartEnforce (verifyConsole d)).opt (.one .console) = (verifyConsole d).opt
      (.one .console) := by
    rw [verifyPartEnforce]
    split
    · rfl
    · split_ifs <;> simp [setEnum, overwrite]
  refine ⟨(verify_text (by decide)).trans hopt, ?_, ?_, ?_⟩
  · rw [verify_text (by decide)]
    exact hfile
  · refine hflags.trans ?_
    rw [hover, hcrash, hco]
    exact ⟨fun ⟨⟨h₁, h₂, h₃⟩, h₄⟩ => ⟨⟨h₁, h₂⟩, h₃, h₄⟩, fun ⟨⟨h₁, h₂⟩, h₃, h₄⟩ => ⟨⟨h₁, h₂, h₃⟩, h₄⟩⟩
  · rw [verify_text (by decide), ← hd, hcons, hnone, hco]

lemma verify_overrun {t : Str} (hp : c.opt (.one .partEnforce) = .str (some t))
    (hn : c.opt (.one .noPartitionEnforcement) = .bool true) :
    (osmSubnVerifyConfig c).overrun = (c.overrun || decide (t.length < enforceOff.length)) := by
  have hnot : Scalar.noPartitionEnforcement ∉ corrected := by decide
  set d := c.onOpt fun o => verifyTimeout (verifyMaxWireSmps2 (verifyRanges o)) with hd
  have hpe : (verifyConsole d).opt (.one .partEnforce) = .str (some t) := by
    rw [verifyConsole_partEnforce]
    exact (head_partEnforce c.opt).trans hp
  have hno : (verifyConsole d).opt (.one .noPartitionEnforcement) = .bool true := by
    rw [verifyConsole_of_ne (by decide)]
    exact (head_text hnot c.opt).trans hn
  change (verifyPartEnforce (verifyConsole d)).overrun = _
  have hover : (verifyConsole d).overrun = c.overrun := verifyConsole_spec.1
  rw [← hover]
  simp [verifyPartEnforce, hpe, hno, setEnum, overwrite, Val.toBool]

lemma verify_file (hf : f ≠ .one .partEnforce) : (osmSubnVerifyConfig c).file f = c.file f := by
  refine (verifyPartEnforce_file hf).trans ?_
  rw [verifyConsole_file]
  rfl

end Texts

section Files

variable {c : Conf} {f : Field} {text : Str}

lemma canonical_default : Canonical osmSubnSetDefaultOpt := by
  rintro (s | ⟨q, p⟩ | ⟨sl, e⟩)
  · cases s
    case console | logFile | partitionConfigFile | partEnforce | qosPolicyFile | dumpFilesDir | torusConfFile
        | prefixRoutesFile | perModuleLoggingFile => exact ⟨_, rfl, by decide⟩
    case ccCct => exact .inl rfl
    case ccSwCongSettingVictimMask | ccSwCongSettingCreditMask | ccSwCongSettingCreditStarvationReturnDelay =>
      exact trivial
    all_goals first
      | exact ⟨_, rfl⟩
      | exact ⟨_, rfl, by decide⟩
  · cases p
    case maxVls | highLimit => exact ⟨_, rfl⟩
    all_goals exact ⟨_, rfl, by decide⟩
  · exact ⟨_, rfl⟩

lemma readConf_spec (h : Complete text) (hf : f ∈ updatable) :
    (readConf text osmSubnSetDefaultOpt).file f = raw text f ∧
        (readConf text osmSubnSetDefaultOpt).opt f = raw text f := by
  rw [readConf, (foldl_parseLine canonical_default _).1]
  have hfilter := (filter_assignedAll hf (confLines text)).trans (h.filter hf)
  obtain ⟨hfile, hopt⟩ :=
      foldl_store_one (c := ⟨osmSubnSetDefaultOpt, osmSubnSetDefaultOpt, false, false⟩) _ hfilter
  refine ⟨hfile, hopt.trans ?_⟩
  split_ifs with he
  · exact he
  · rfl

def resetQos (c : Conf) : Conf := [QosSet.qos, .ca, .sw0, .swe, .rtr].foldl initQos c

lemma resetQos_qos (q : QosSet) (p : QosOption) :
    (resetQos c).opt (.qosOptions q p) = defaultQos p ∧ (resetQos c).file (.qosOptions q p) = defaultQos p := by
  cases q <;> exact ⟨rfl, rfl⟩

lemma resetQos_of_ne (hf : ∀ q p, f ≠ .qosOptions q p) : (resetQos c).opt f = c.opt f ∧
    (resetQos c).file f = c.file f := by
  cases f with
  | qosOptions q p => exact absurd rfl (hf q p)
  | _ => exact ⟨rfl, rfl⟩

lemma Canonical.resetQos (h : Canonical c.file) : Canonical (resetQos c).file := by
  rintro (s | ⟨q, p⟩ | ⟨sl, e⟩)
  · exact h (.one s)
  · rw [(resetQos_qos q p).2]
    exact canonical_default (.qosOptions q p)
  · exact h (.ccCaCongEntries sl e)

def reread (c : Conf) (text : Str) : Conf := (confLines text).foldl rescanLine (resetQos c)

lemma rescan_eq (c : Conf) (text : Str) : osmSubnRescanConfFiles c text = osmSubnVerifyConfig
    (reread c text) := rfl

lemma reread_spec (hc : Canonical c.file) (h : Complete text) (hf : f ∈ updatable) :
    (reread c text).file f = raw text f ∧
      (reread c text).opt f = if (resetQos c).file f = raw text f then (resetQos c).opt f else raw text f := by
  rw [reread, (foldl_rescanLine hc.resetQos _).1]
  exact foldl_store_one _ (h.filter hf)

lemma foldl_store_flags (l : List (Field × Val)) :
    (l.foldl store c).overrun = c.overrun ∧ (l.foldl store c).crashed = c.crashed := by
  induction l generalizing c with
  | nil => exact ⟨rfl, rfl⟩
  | cons p l ih =>
    rw [List.foldl_cons, ih.1, ih.2, store]
    split_ifs <;> exact ⟨rfl, rfl⟩

lemma reread_flags (hc : Canonical c.file) : (reread c text).overrun = c.overrun ∧
    (reread c text).crashed = c.crashed := by
  rw [reread, (foldl_rescanLine hc.resetQos _).1]
  exact foldl_store_flags _

lemma readConf_flags : (readConf text osmSubnSetDefaultOpt).overrun = false ∧
    (readConf text osmSubnSetDefaultOpt).crashed = false := by
  rw [readConf, (foldl_parseLine canonical_default _).1]
  exact foldl_store_flags _

lemma reread_fixed (hc : Canonical c.file) (hf : f ∉ updatable) (hq : ∀ q p, f ≠ .qosOptions q p) :
    (reread c text).opt f = c.opt f := by
  rw [reread, (foldl_rescanLine hc.resetQos _).1]
  have hnone : (assigned (confLines text)).filter (·.1 = f) = [] := by
    refine List.filter_eq_nil_iff.mpr fun p hp hpf => hf ?_
    obtain ⟨l, -, hl⟩ := List.mem_filterMap.mp hp
    obtain ⟨r, hr, hs⟩ := Option.bind_eq_some_iff.mp hl
    have hcan : r.canUpdate = true := by
      have hfound := List.find?_some hr
      simp only [decide_eq_true_eq] at hfound
      exact hfound.2
    have hmem := (read_spec (lookupUpdatable_mem hr) hs).1
    rw [show p.1 = f by simpa using hpf] at hmem
    exact List.mem_flatMap.mpr ⟨r, List.mem_filter.mpr ⟨lookupUpdatable_mem hr, hcan⟩, hmem⟩
  rw [(foldl_store_none _ hnone).2, (resetQos_of_ne hq).1]

end Files

section Run

/-- The options, with the contents of the configuration file that was read last. -/
structure Sys where
  text : Str
  conf : Conf

def start (text : Str) : Sys := ⟨text, osmSubnParseConfFile text osmSubnSetDefaultOpt⟩

def step (x : Sys) (text : Str) : Option Sys := some ⟨text, osmSubnRescanConfFiles x.conf text⟩

/-- The options that can be updated are those of a restart, and no text was written past the end of a string. -/
def AsRestart (x : Sys) : Prop :=
  (∀ f ∈ updatable, x.conf.opt f = (start x.text).conf.opt f) ∧ x.conf.overrun = false ∧ x.conf.crashed = false

def num (text : Str) (s : Scalar) : ℕ := (raw text (.one s)).toNum

def flag (text : Str) (s : Scalar) : Bool := (raw text (.one s)).toBool

/-- Two files in turn whose lines do not meet a correction that was made for another line. -/
structure Carries (v w : Str) : Prop where
  smps2 : num w .maxWireSmps2 = num v .maxWireSmps2 → 0x7FFFFFFF < num v .maxWireSmps2 →
    fixMaxWireSmps (num v .maxWireSmps) = fixMaxWireSmps (num w .maxWireSmps)
  lease : LeaseCarries (num v .mKeyProtectBits) (num v .sweepInterval) (num v .mKeyLeasePeriod)
    (num w .mKeyProtectBits) (num w .sweepInterval) (num w .mKeyLeasePeriod)
  rate : num w .maxRateEnum = num v .maxRateEnum →
    (num v .maxRateEnum < 2 → flag w .useOriginalExtendedSaRatesOnly = false) ∧
    (18 < num v .maxRateEnum → flag v .useOriginalExtendedSaRatesOnly = true →
      flag w .useOriginalExtendedSaRatesOnly = true)

/-- The text of `part_enforce` in a file has room for what the verification writes over it. -/
structure Fits (text : Str) : Prop where
  room : HasRoom (raw text (.one .partEnforce)) (raw text (.one .noPartitionEnforcement))

lemma fixMaxRateEnum_again (o o' : Bool) (n : ℕ) :
    fixMaxRateEnum o' (fixMaxRateEnum o n) = fixMaxRateEnum o' n ↔
      (n < 2 → o' = false) ∧ (18 < n → o = true → o' = true) := by
  cases o <;> cases o' <;> simp only [fixMaxRateEnum, true_and, false_and, Bool.false_eq_true, if_false]
  all_goals
    split_ifs <;> simp <;> omega

lemma fixMaxWireSmps_le (n : ℕ) : ¬0x7FFFFFFF < fixMaxWireSmps n := by
  rw [fixMaxWireSmps]
  split_ifs <;> omega

variable {v w : Str} {x : Sys} {f : Field} {s : Scalar}

structure Inv (x : Sys) : Prop where
  complete : Complete x.text
  canonical : Canonical x.conf.file
  file : ∀ f ∈ updatable, f ≠ .one .partEnforce → x.conf.file f = raw x.text f
  shared : x.conf.file (.one .partEnforce) = x.conf.opt (.one .partEnforce)
  console : x.conf.overrun = false → x.conf.crashed = false → (x.conf.opt (.one .console)).toStr ≠ none

lemma partEnforce_updatable : .one .partEnforce ∈ updatable := scalars_updatable _ (by simp [rescanned])

lemma noEnforcement_updatable : .one .noPartitionEnforcement ∈ updatable :=
    scalars_updatable _ (by simp [rescanned])

lemma good_enforced {p n : Val} (h : Good (.str none) p) : Good (.str none) (enforced p n) := by
  obtain ⟨t, rfl, ht⟩ := h
  rw [enforced]
  cases t with
  | none => exact ⟨_, rfl, ht⟩
  | some t =>
    rw [toStr_str, Option.elim_some]
    split_ifs
    · exact ⟨_, rfl, by decide⟩
    · exact ⟨_, rfl, ht⟩
    · exact ⟨_, rfl, by decide⟩

structure Read (d : Conf) (text : Str) : Prop where
  complete : Complete text
  canonical : Canonical d.file
  file : ∀ f ∈ updatable, d.file f = raw text f
  partEnforce : d.opt (.one .partEnforce) = raw text (.one .partEnforce)
  noEnforcement : d.opt (.one .noPartitionEnforcement) = raw text (.one .noPartitionEnforcement)

lemma Read.shared {d : Conf} (h : Read d w) : d.file (.one .partEnforce) = d.opt (.one .partEnforce) := by
  rw [h.file _ partEnforce_updatable, h.partEnforce]

lemma Read.inv {d : Conf} (h : Read d w) : Inv ⟨w, osmSubnVerifyConfig d⟩ := by
  obtain ⟨hopt, hfile, hflags, hnone⟩ := verify_spec h.shared
  refine ⟨h.complete, ?_, ?_, hfile, ?_⟩
  · intro f
    rcases eq_or_ne f (.one .partEnforce) with rfl | hne
    · rw [hfile, hopt, h.partEnforce]
      exact good_enforced (h.complete.good partEnforce_updatable)
    · rw [verify_file hne]
      exact h.canonical f
  · intro f hf hne
    rw [verify_file hne]
    exact h.file f hf
  · intro ho hc
    have hd := (hflags.mp ⟨ho, hc⟩).2.1
    exact fun hn => hd (hnone.mp hn)

lemma Read.flags {d : Conf} (h : Read d w) :
    (osmSubnVerifyConfig d).overrun = false ∧ (osmSubnVerifyConfig d).crashed = false ↔
      (d.overrun = false ∧ d.crashed = false) ∧ (d.opt (.one .console)).toStr ≠ none ∧ Fits w := by
  obtain ⟨-, -, hflags, -⟩ := verify_spec h.shared
  rw [h.partEnforce, h.noEnforcement] at hflags
  exact hflags.trans (and_congr_right fun _ => and_congr_right fun _ => ⟨.mk, Fits.room⟩)

lemma read_start (h : Complete w) : Read (readConf w osmSubnSetDefaultOpt) w where
  complete := h
  canonical := (foldl_parseLine canonical_default _).2
  file := fun _ hf => (readConf_spec h hf).1
  partEnforce := (readConf_spec h partEnforce_updatable).2
  noEnforcement := (readConf_spec h noEnforcement_updatable).2

lemma start_other (h : Complete w) (hf : .one s ∈ updatable) (hs : s ∉ corrected) :
    (start w).conf.opt (.one s) = raw w (.one s) := by
  rw [← (readConf_spec h hf).2]
  exact verify_other hs

lemma reread_one (hx : Inv x) (ha : AsRestart x) (hw : Complete w) (hf : f ∈ updatable)
    (hq : ∀ q p, f ≠ .qosOptions q p)
    (hp : f ≠ .one .partEnforce) :
    (reread x.conf w).opt f = if raw x.text f = raw w f then (start x.text).conf.opt f else raw w f := by
  rw [(reread_spec hx.canonical hw hf).2, (resetQos_of_ne hq).1, (resetQos_of_ne hq).2, hx.file f hf hp, ha.1 f hf]

lemma reread_other (hx : Inv x) (ha : AsRestart x) (hw : Complete w) (hf : .one s ∈ updatable)
    (hs : s ∉ corrected) :
    (reread x.conf w).opt (.one s) = raw w (.one s) := by
  have hp : (.one s : Field) ≠ .one .partEnforce := by
    rintro ⟨⟩
    exact hs (by decide)
  rw [reread_one hx ha hw hf (by simp) hp, start_other hx.complete hf hs]
  exact ite_eq_right_iff.mpr id

lemma reread_cca (hx : Inv x) (ha : AsRestart x) (hw : Complete w) {sl : ℕ} {e : CaCongEntry}
    (hf : .ccCaCongEntries sl e ∈ updatable) :
    (reread x.conf w).opt (.ccCaCongEntries sl e) = raw w (.ccCaCongEntries sl e) := by
  rw [reread_one hx ha hw hf (by simp) (by simp)]
  have hstart : (start x.text).conf.opt (.ccCaCongEntries sl e) = raw x.text (.ccCaCongEntries sl e) := by
    rw [← (readConf_spec hx.complete hf).2]
    exact verify_cca sl e
  rw [hstart]
  exact ite_eq_right_iff.mpr id

lemma reread_qos (hx : Inv x) (hw : Complete w) {q : QosSet} {p : QosOption} (hf : .qosOptions q p ∈ updatable) :
    (reread x.conf w).opt (.qosOptions q p) = raw w (.qosOptions q p) := by
  rw [(reread_spec hx.canonical hw hf).2, (resetQos_qos q p).1, (resetQos_qos q p).2]
  exact ite_eq_right_iff.mpr id

lemma reread_partEnforce (hx : Inv x) (hw : Complete w) :
    (reread x.conf w).opt (.one .partEnforce) = raw w (.one .partEnforce) := by
  rw [(reread_spec hx.canonical hw partEnforce_updatable).2, (resetQos_of_ne (by simp)).1,
    (resetQos_of_ne (by simp)).2, hx.shared]
  exact ite_eq_right_iff.mpr id

lemma read_reread (hx : Inv x) (ha : AsRestart x) (hw : Complete w) : Read (reread x.conf w) w where
  complete := hw
  canonical := (foldl_rescanLine hx.canonical.resetQos _).2
  file := fun _ hf => (reread_spec hx.canonical hw hf).1
  partEnforce := reread_partEnforce hx hw
  noEnforcement := reread_other hx ha hw noEnforcement_updatable (by decide)

section Numbers

lemma raw_num (h : Complete w) (hf : .one s ∈ updatable) {n : ℕ} (hd : defaultScalar s = .num n) :
    raw w (.one s) = .num (num w s) := by
  have hg := h.good hf
  simp only [osmSubnSetDefaultOpt, hd, Good] at hg
  obtain ⟨m, hm⟩ := hg
  rw [num, hm]
  rfl

lemma readConf_num (h : Complete w) (hf : .one s ∈ updatable) :
    ((readConf w osmSubnSetDefaultOpt).opt (.one s)).toNum = num w s := by
  rw [(readConf_spec h hf).2]
  rfl

lemma reread_num (hx : Inv x) (ha : AsRestart x) (hw : Complete w) (hf : .one s ∈ updatable) {n : ℕ}
    (hd : defaultScalar s = .num n) :
    ((reread x.conf w).opt (.one s)).toNum =
      if num x.text s = num w s then ((start x.text).conf.opt (.one s)).toNum else num w s := by
  have hp : (.one s : Field) ≠ .one .partEnforce := by
    rintro ⟨⟩
    exact Val.noConfusion hd
  rw [reread_one hx ha hw hf (by simp) hp, raw_num hx.complete hf hd, raw_num hw hf hd]
  simp only [Val.num.injEq]
  split_ifs <;> rfl

lemma ownFixes_updatable {h : ℕ → ℕ} (hs : (s, h) ∈ ownFixes) :
    .one s ∈ updatable ∧ ∃ n, defaultScalar s = .num n := by
  simp only [ownFixes, List.mem_cons, Prod.mk.injEq, List.not_mem_nil, or_false] at hs
  rcases hs with ⟨rfl, -⟩ | ⟨rfl, -⟩ | ⟨rfl, -⟩ | ⟨rfl, -⟩ | ⟨rfl, -⟩ | ⟨rfl, -⟩ | ⟨rfl, -⟩
  all_goals exact ⟨scalars_updatable _ (by simp [rescanned]), _, rfl⟩

lemma start_own (h : Complete w) {k : ℕ → ℕ} (hs : (s, k) ∈ ownFixes) :
    (start w).conf.opt (.one s) = .num (k (num w s)) := by
  refine (verify_own hs).trans ?_
  rw [readConf_num h (ownFixes_updatable hs).1]

lemma reread_own (hx : Inv x) (ha : AsRestart x) (hw : Complete w) {k : ℕ → ℕ} (hs : (s, k) ∈ ownFixes) :
    k ((reread x.conf w).opt (.one s)).toNum = k (num w s) := by
  obtain ⟨hf, n, hd⟩ := ownFixes_updatable hs
  rw [reread_num hx ha hw hf hd, start_own hx.complete hs]
  split_ifs with he
  · rw [toNum_num, ownFixes_again hs, he]
  · rfl

lemma smps2_updatable : .one .maxWireSmps2 ∈ updatable := scalars_updatable _ (by simp [rescanned])

lemma start_smps2 (h : Complete w) : (start w).conf.opt (.one .maxWireSmps2) =
    .num (if 0x7FFFFFFF < num w .maxWireSmps2 then fixMaxWireSmps (num w .maxWireSmps)
      else num w .maxWireSmps2) := by
  have hown : (.maxWireSmps, fixMaxWireSmps) ∈ ownFixes := by simp [ownFixes]
  refine verify_smps2.trans ?_
  rw [readConf_num h smps2_updatable, readConf_num h (ownFixes_updatable hown).1]

lemma smps2_iff (hx : Inv x) (ha : AsRestart x) (hw : Complete w) :
    (osmSubnRescanConfFiles x.conf w).opt (.one .maxWireSmps2) = (start w).conf.opt (.one .maxWireSmps2) ↔
      (num w .maxWireSmps2 = num x.text .maxWireSmps2 → 0x7FFFFFFF < num x.text .maxWireSmps2 →
        fixMaxWireSmps (num x.text .maxWireSmps) = fixMaxWireSmps (num w .maxWireSmps)) := by
  have hown : (.maxWireSmps, fixMaxWireSmps) ∈ ownFixes := by simp [ownFixes]
  rw [rescan_eq, verify_smps2, start_smps2 hw, reread_own hx ha hw hown, reread_num hx ha hw smps2_updatable rfl,
    start_smps2 hx.complete, toNum_num, Val.num.injEq]
  by_cases he : num x.text .maxWireSmps2 = num w .maxWireSmps2
  · rw [if_pos he, he]
    by_cases hbig : 0x7FFFFFFF < num w .maxWireSmps2
    · rw [if_pos hbig, if_neg (fixMaxWireSmps_le _), if_pos hbig]
      exact ⟨fun h _ _ => h, fun h => h rfl hbig⟩
    · rw [if_neg hbig, if_neg hbig]
      exact iff_of_true rfl fun _ h => absurd h hbig
  · rw [if_neg he]
    exact iff_of_true rfl fun h => absurd h.symm he

lemma rate_updatable : .one .maxRateEnum ∈ updatable := scalars_updatable _ (by simp [rescanned])

lemma original_updatable : .one .useOriginalExtendedSaRatesOnly ∈ updatable :=
    scalars_updatable _ (by simp [rescanned])

lemma start_rate (h : Complete w) : (start w).conf.opt (.one .maxRateEnum) =
    .num (fixMaxRateEnum (flag w .useOriginalExtendedSaRatesOnly) (num w .maxRateEnum)) := by
  refine verify_rate.trans ?_
  rw [readConf_num h rate_updatable, (readConf_spec h original_updatable).2]
  rfl

lemma rate_iff (hx : Inv x) (ha : AsRestart x) (hw : Complete w) :
    (osmSubnRescanConfFiles x.conf w).opt (.one .maxRateEnum) = (start w).conf.opt (.one .maxRateEnum) ↔
      (num w .maxRateEnum = num x.text .maxRateEnum →
        (num x.text .maxRateEnum < 2 → flag w .useOriginalExtendedSaRatesOnly = false) ∧
        (18 < num x.text .maxRateEnum → flag x.text .useOriginalExtendedSaRatesOnly = true →
          flag w .useOriginalExtendedSaRatesOnly = true)) := by
  rw [rescan_eq, verify_rate, start_rate hw, reread_other hx ha hw original_updatable (by decide),
    reread_num hx ha hw rate_updatable rfl, start_rate hx.complete, toNum_num, Val.num.injEq]
  by_cases he : num x.text .maxRateEnum = num w .maxRateEnum
  · rw [if_pos he, he]
    exact (fixMaxRateEnum_again _ _ _).trans ⟨fun h _ => h, fun h => h rfl⟩
  · rw [if_neg he]
    exact iff_of_true rfl fun h => absurd h.symm he

lemma sweep_updatable : .one .sweepInterval ∈ updatable := scalars_updatable _ (by simp [rescanned])

lemma lease_updatable : .one .mKeyLeasePeriod ∈ updatable := scalars_updatable _ (by simp [rescanned])

lemma lease_lt (h : Complete w) : num w .mKeyLeasePeriod < 2 ^ 16 := by
  obtain ⟨r, hr, t, ht⟩ := h.read lease_updatable
  have hfn := lease_net16 r hr (read_spec hr ht).1
  simp only [OptRec.read, hfn] at ht
  obtain ⟨-, n, hn, hlt⟩ := readNum_eq ht
  rw [num, hn]
  exact hlt

lemma start_lease (h : Complete w) :
    Opts.lease (readConf w osmSubnSetDefaultOpt).opt =
      fixLease (num w .mKeyProtectBits) (num w .sweepInterval) (num w .mKeyLeasePeriod) := by
  have hown : (.mKeyProtectBits, fixMKeyProtectBits) ∈ ownFixes := by simp [ownFixes]
  rw [Opts.lease, readConf_num h sweep_updatable, readConf_num h lease_updatable,
    readConf_num h (ownFixes_updatable hown).1]

lemma start_sweep (h : Complete w) : (start w).conf.opt (.one .sweepInterval) =
    .num (fixLease (num w .mKeyProtectBits) (num w .sweepInterval) (num w .mKeyLeasePeriod)).1 :=
  verify_sweep.trans (by rw [start_lease h])

lemma start_leasePeriod (h : Complete w) : (start w).conf.opt (.one .mKeyLeasePeriod) =
    .num (fixLease (num w .mKeyProtectBits) (num w .sweepInterval) (num w .mKeyLeasePeriod)).2 :=
  verify_lease.trans (by rw [start_lease h])

lemma reread_lease (hx : Inv x) (ha : AsRestart x) (hw : Complete w) :
    Opts.lease (reread x.conf w).opt =
      fixLease (num w .mKeyProtectBits)
        (if num x.text .sweepInterval = num w .sweepInterval then
          (fixLease (num x.text .mKeyProtectBits) (num x.text .sweepInterval) (num x.text .mKeyLeasePeriod)).1
        else num w .sweepInterval)
        (if num x.text .mKeyLeasePeriod = num w .mKeyLeasePeriod then
          (fixLease (num x.text .mKeyProtectBits) (num x.text .sweepInterval) (num x.text .mKeyLeasePeriod)).2
        else num w .mKeyLeasePeriod) := by
  have hown : (.mKeyProtectBits, fixMKeyProtectBits) ∈ ownFixes := by simp [ownFixes]
  rw [Opts.lease, ← fixLease_protect, reread_own hx ha hw hown, fixLease_protect,
    reread_num hx ha hw sweep_updatable rfl, reread_num hx ha hw lease_updatable rfl, start_sweep hx.complete,
    start_leasePeriod hx.complete, toNum_num, toNum_num]

lemma lease_iff (hx : Inv x) (ha : AsRestart x) (hw : Complete w) :
    ((osmSubnRescanConfFiles x.conf w).opt (.one .sweepInterval) = (start w).conf.opt (.one .sweepInterval) ∧
      (osmSubnRescanConfFiles x.conf w).opt (.one .mKeyLeasePeriod) = (start w).conf.opt (.one .mKeyLeasePeriod)) ↔
      LeaseCarries (num x.text .mKeyProtectBits) (num x.text .sweepInterval) (num x.text .mKeyLeasePeriod)
        (num w .mKeyProtectBits) (num w .sweepInterval) (num w .mKeyLeasePeriod) := by
  rw [← fixLease_again (lease_lt hx.complete), rescan_eq, verify_sweep, verify_lease, start_sweep hw,
    start_leasePeriod hw, reread_lease hx ha hw, Val.num.injEq, Val.num.injEq, Prod.ext_iff]

end Numbers

lemma corrected_cases : ∀ s ∈ corrected, s ∈ ownFixes.map Prod.fst ∨ s ∈ atStart ∨ s = .maxWireSmps2 ∨
    s = .partEnforce ∨ s = .sweepInterval ∨ s = .mKeyLeasePeriod ∨ s = .maxRateEnum := by decide

/-- The options of a rescan are those of a restart exactly when no line meets a correction made for another. -/
lemma values_iff (hx : Inv x) (ha : AsRestart x) (hw : Complete w) :
    (∀ f ∈ updatable, (osmSubnRescanConfFiles x.conf w).opt f = (start w).conf.opt f) ↔ Carries x.text w := by
  constructor
  · intro h
    exact ⟨(smps2_iff hx ha hw).mp (h _ smps2_updatable),
      (lease_iff hx ha hw).mp ⟨h _ sweep_updatable, h _ lease_updatable⟩,
          (rate_iff hx ha hw).mp (h _ rate_updatable)⟩
  · rintro ⟨hsmps2, hlease, hrate⟩ f hf
    obtain ⟨hs, hl⟩ := (lease_iff hx ha hw).mpr hlease
    cases f with
    | one s =>
      by_cases hc : s ∈ corrected
      · rcases corrected_cases s hc with hown | hfixed | rfl | rfl | rfl | rfl | rfl
        · obtain ⟨⟨s, k⟩, hk, rfl⟩ := List.mem_map.mp hown
          rw [rescan_eq, verify_own hk, reread_own hx ha hw hk, start_own hw hk]
        · exact absurd hf (atStart_not_updatable s hfixed)
        · exact (smps2_iff hx ha hw).mpr hsmps2
        · rw [rescan_eq, (verify_spec (read_reread hx ha hw).shared).1, start, osmSubnParseConfFile,
            (verify_spec (read_start hw).shared).1, (read_reread hx ha hw).partEnforce,
                (read_start hw).partEnforce,
            (read_reread hx ha hw).noEnforcement, (read_start hw).noEnforcement]
        · exact hs
        · exact hl
        · exact (rate_iff hx ha hw).mpr hrate
      · rw [rescan_eq, verify_other hc, reread_other hx ha hw hf hc, start_other hw hf hc]
    | qosOptions q p =>
      rw [rescan_eq, verify_qos, start, osmSubnParseConfFile, verify_qos]
      have hqos : .one .qos ∈ updatable := scalars_updatable _ (by simp [rescanned])
      apply verifyQos_congr
      · rw [reread_other hx ha hw hqos (by decide), (readConf_spec hw hqos).2]
      · intro q p
        rw [reread_qos hx hw (qos_updatable q (by cases q <;> simp) p (by cases p <;> simp)),
            (readConf_spec hw (qos_updatable q (by cases q <;> simp) p (by cases p <;> simp))).2]
    | ccCaCongEntries sl e =>
      rw [rescan_eq, verify_cca, reread_cca hx ha hw hf, start, osmSubnParseConfFile, verify_cca,
        (readConf_spec hw hf).2]

lemma flags_iff (hx : Inv x) (ha : AsRestart x) (hw : Complete w) :
    (osmSubnRescanConfFiles x.conf w).overrun = false ∧
        (osmSubnRescanConfFiles x.conf w).crashed = false ↔ Fits w := by
  have hcons : (reread x.conf w).opt (.one .console) = x.conf.opt (.one .console) :=
    reread_fixed hx.canonical (atStart_not_updatable _ (by decide)) (by simp)
  obtain ⟨hover, hcrash⟩ := @reread_flags x.conf w hx.canonical
  rw [rescan_eq, (read_reread hx ha hw).flags, hcons, hover, hcrash]
  exact ⟨fun h => h.2.2, fun h => ⟨ha.2, hx.console ha.2.1 ha.2.2, h⟩⟩

lemma step_asRestart (hx : Inv x) (ha : AsRestart x) (hw : Complete w) :
    Inv ⟨w, osmSubnRescanConfFiles x.conf w⟩ ∧
      (AsRestart ⟨w, osmSubnRescanConfFiles x.conf w⟩ ↔ Carries x.text w ∧ Fits w) :=
  ⟨(read_reread hx ha hw).inv, and_congr (values_iff hx ha hw) (flags_iff hx ha hw)⟩

/-- The text of the console option, which is only read at the start. -/
def HasConsole (text : Str) : Prop := ((readConf text osmSubnSetDefaultOpt).opt (.one .console)).toStr ≠ none

lemma start_asRestart (hw : Complete w) : Inv (start w) ∧ (AsRestart (start w) ↔ HasConsole w ∧ Fits w) := by
  refine ⟨(read_start hw).inv, ?_⟩
  have hflags := (read_start hw).flags
  rw [readConf_flags.1, readConf_flags.2] at hflags
  exact ⟨fun h => (hflags.mp h.2).2, fun h => ⟨fun _ _ => rfl, hflags.mpr ⟨⟨rfl, rfl⟩, h⟩⟩⟩

section Samples

def confText (ls : List Str) : Str := ls.flatMap fun l => l ++ ['\n']

lemma readLines_confText (ls : List Str) (h : ∀ l ∈ ls, '\n' ∉ l ∧ l.length < 1022) (k : ℕ)
    (hk : (confText ls).length ≤ k) :
    readLines k (confText ls) = ls.map (· ++ ['\n']) := by
  induction ls generalizing k with
  | nil => cases k <;> rfl
  | cons l ls ih =>
    obtain ⟨hl, hls⟩ := List.forall_mem_cons.mp h
    have htext : confText (l :: ls) = l ++ '\n' :: confText ls := by simp [confText]
    rw [htext] at hk ⊢
    simp only [List.length_append, List.length_cons] at hk
    obtain ⟨k, rfl⟩ := Nat.exists_eq_add_one_of_ne_zero (show k ≠ 0 by omega)
    have hne : l ++ '\n' :: confText ls ≠ [] := by simp
    simp only [readLines, fgets, if_neg hne]
    rw [takeLine_newline hl.1 hl.2, List.map_cons, ih hls k (by omega)]

def confOption (p : OptRec × Str) : Str := p.1.name.toList ++ ' ' :: p.2

def shortWord : Str → ℕ → Bool
  | [], k => 0 < k
  | c :: s, k => c ∉ [' ', '\t', '\n', '#', nul] && shortWord s (k - 1)

lemma shortWord_spec {k : ℕ} {s : Str} (h : shortWord s k) :
    s.length < k ∧ ∀ c ∈ s, c ∉ [' ', '\t', '\n', '#', nul] := by
  induction s generalizing k with
  | nil => simpa [shortWord] using h
  | cons c s ih =>
    simp only [shortWord, Bool.and_eq_true, decide_eq_true_eq] at h
    obtain ⟨hlen, hall⟩ := ih h.2
    refine ⟨?_, List.forall_mem_cons.mpr ⟨h.1, hall⟩⟩
    rw [List.length_cons]
    omega

lemma shortWord_ofList {l : Str} (h : shortWord l 100 = true) : shortWord (String.ofList l).toList 100 = true := by
  rwa [String.toList_ofList]

set_option maxRecDepth 10000 in
lemma names_short : ∀ r ∈ optTbl, shortWord r.name.toList 100 := by
  simp only [optTbl, List.forall_mem_cons]
  -- Each name is a literal, which is unfolded to its characters and not decoded.
  repeat' apply And.intro
  all_goals first
    | exact shortWord_ofList rfl
    | simp

def PlainVal (v : Str) : Bool :=
  (v.all fun c => c ∉ ['\n', '#', nul]) && v.length < 20 && cleanVal (v ++ ['\n']) = v

lemma confLine_option {p : OptRec × Str} (hr : p.1 ∈ optTbl) (hv : PlainVal p.2) :
    ('\n' ∉ confOption p ∧ (confOption p).length < 1022) ∧
      confLine (confOption p ++ ['\n']) = some (p.1.name.toList, p.2) := by
  obtain ⟨hlen, hword⟩ := shortWord_spec (names_short _ hr)
  have hname := names_ne_nil p.1 hr
  simp only [PlainVal, Bool.and_eq_true, List.all_eq_true, decide_eq_true_eq, List.mem_cons,
    List.not_mem_nil, or_false, not_or] at hv hword
  obtain ⟨⟨hval, hvlen⟩, hclean⟩ := hv
  refine ⟨⟨?_, ?_⟩, ?_⟩
  · rw [confOption, List.mem_append, List.mem_cons]
    rintro (h | h | h)
    · exact (hword _ h).2.2.1 rfl
    · exact absurd h (by decide)
    · exact (hval _ h).1 rfl
  · rw [confOption, List.length_append, List.length_cons]
    omega
  · have hall : ∀ c ∈ confOption p ++ ['\n'], decide (c ≠ nul ∧ c ≠ '#') = true := by
      intro c hc
      simp only [confOption, List.append_assoc, List.cons_append, List.mem_append, List.mem_cons, List.not_mem_nil,
        or_false] at hc
      rcases hc with h | rfl | h | rfl
      · simpa using ⟨(hword _ h).2.2.2.2, (hword _ h).2.2.2.1⟩
      · decide
      · simpa using ⟨(hval _ h).2.2, (hval _ h).2.1⟩
      · decide
    have hsplit : confOption p ++ ['\n'] = p.1.name.toList ++ ' ' :: (p.2 ++ ['\n']) := by simp [confOption]
    rw [confLine, List.takeWhile_eq_self_iff.mpr hall, hsplit,
      strtok_word hname (fun c hc => by simpa using ⟨(hword c hc).1, (hword c hc).2.1,
          (hword c hc).2.2.1⟩) (by simp)]
    exact congrArg some (Prod.ext rfl hclean)

lemma assigned_confText (ps : List (OptRec × Str)) (hps : ∀ p ∈ ps, p.1 ∈ optTbl ∧ p.1.canUpdate = true)
    (h : ∀ p ∈ ps, PlainVal p.2) :
    assigned (confLines (confText (ps.map confOption))) = ps.filterMap (fun p => p.1.read p.2) ∧
      assignedAll (confLines (confText (ps.map confOption))) = ps.filterMap (fun p => p.1.read p.2) := by
  have hlines : ∀ l ∈ ps.map confOption, '\n' ∉ l ∧ l.length < 1022 := by
    intro l hl
    obtain ⟨p, hp, rfl⟩ := List.mem_map.mp hl
    exact (confLine_option (hps p hp).1 (h p hp)).1
  have hlookup : ∀ p ∈ ps, lookup p.1.name.toList = some p.1 := by
    intro p hp
    cases hl : lookup p.1.name.toList with
    | none => exact absurd (List.find?_eq_none.mp hl p.1 (hps p hp).1) (by simp)
    | some r => rw [lookup_unique (lookup_mem hl).1 (hps p hp).1 (lookup_mem hl).2]
  rw [confLines, readLines_confText _ hlines _ le_rfl, List.map_map, List.filterMap_map, assigned, assignedAll,
    List.filterMap_filterMap, List.filterMap_filterMap]
  constructor
  all_goals
    refine List.filterMap_congr fun p hp => ?_
    simp only [Function.comp_apply, (confLine_option (hps p hp).1 (h p hp)).2, Option.bind_some]
  · rw [lookupUpdatable_eq, hlookup p hp, Option.filter_some_pos (hps p hp).2, Option.bind_some]
  · rw [hlookup p hp, Option.bind_some]

def sampleLines (val : OptRec → Str) : List (OptRec × Str) :=
  (optTbl.filter (·.canUpdate)).flatMap fun r =>
    if r.parseFn ∈ [.cctiTimer, .cctiIncrease, .triggerThreshold, .cctiMin] then
      (List.range caCongEntryDataSize).map fun sl => (r, printDec sl ++ [' ', '0'])
    else [(r, val r)]

lemma sampleLines_spec {val : OptRec → Str} (hval : ∀ r, PlainVal (val r)) :
    ∀ p ∈ sampleLines val, (p.1 ∈ optTbl ∧ p.1.canUpdate = true) ∧ PlainVal p.2 := by
  intro p hp
  obtain ⟨r, hr, hp⟩ := List.mem_flatMap.mp hp
  split_ifs at hp
  · obtain ⟨sl, hsl, rfl⟩ := List.mem_map.mp hp
    have hall : ∀ sl ∈ List.range caCongEntryDataSize, PlainVal (printDec sl ++ [' ', '0']) := by decide +kernel
    exact ⟨List.mem_filter.mp hr, hall sl hsl⟩
  · rw [List.mem_singleton.mp hp]
    exact ⟨List.mem_filter.mp hr, hval r⟩

def sampleVal (r : OptRec) : Str :=
  match r.parseFn with
  | .boolean => ['F', 'A', 'L', 'S', 'E']
  | .charp => ['b', 'o', 't', 'h']
  | .cctEntry | .ccCct => ['0', ':', '0']
  | _ => ['0']

def leaseVal (level : Str) (r : OptRec) : Str :=
  match r.optOffset with
  | .one .mKeyProtectBits => level
  | .one .mKeyLeasePeriod => ['1', '0', '0']
  | _ => sampleVal r

def enforceVal (r : OptRec) : Str :=
  match r.optOffset with
  | .one .noPartitionEnforcement => ['T', 'R', 'U', 'E']
  | .one .partEnforce => ['i', 'n']
  | _ => sampleVal r

def sampleText (val : OptRec → Str) : Str := confText ((sampleLines val).map confOption)

def sampleRead (val : OptRec → Str) : List (Field × Val) := (sampleLines val).filterMap fun p => p.1.read p.2

lemma sample_spec {val : OptRec → Str} (hval : ∀ r, PlainVal (val r))
    (hread : (sampleRead val).map Prod.fst = updatable) :
    Complete (sampleText val) ∧
        (∀ f, raw (sampleText val) f = ((sampleRead val).find? (·.1 = f)).elim (.num 0) Prod.snd) ∧
      HasConsole (sampleText val) := by
  obtain ⟨hupd, hall⟩ := assigned_confText _ (fun p hp => (sampleLines_spec hval p hp).1)
    fun p hp => (sampleLines_spec hval p hp).2
  refine ⟨⟨?_, ?_⟩, ?_, ?_⟩
  · rw [sampleText, hupd, ← sampleRead, hread]
    exact updatable_nodup
  · rw [sampleText, hupd, ← sampleRead, hread]
    exact fun f hf => hf
  · intro f
    rw [raw, sampleText, hupd, ← sampleRead]
  · have hnone : (sampleRead val).filter (·.1 = .one .console) = [] := by
      refine List.filter_eq_nil_iff.mpr fun p hp hpc => ?_
      have hmem : p.1 ∈ (sampleRead val).map Prod.fst := List.mem_map_of_mem hp
      rw [show p.1 = .one .console by simpa using hpc, hread] at hmem
      exact atStart_not_updatable _ (by decide) hmem
    rw [HasConsole, readConf, (foldl_parseLine canonical_default _).1, sampleText, hall, ← sampleRead,
      (foldl_store_none _ hnone).2]
    exact Option.some_ne_none _

lemma plain_sample (r : OptRec) : PlainVal (sampleVal r) := by
  rw [sampleVal]
  split <;> decide

lemma plain_lease {level : Str} (h : PlainVal level) (r : OptRec) : PlainVal (leaseVal level r) := by
  rw [leaseVal]
  split
  · exact h
  · decide
  · exact plain_sample r

lemma plain_enforce (r : OptRec) : PlainVal (enforceVal r) := by
  rw [enforceVal]
  split
  · decide
  · decide
  · exact plain_sample r

def sampleOpt (val : OptRec → Str) (f : Field) : Val := ((sampleRead val).find? (·.1 = f)).elim (.num 0) Prod.snd

lemma sample_facts : (∀ level ∈ [['0'], ['1']],
    ((sampleRead (leaseVal level)).map Prod.fst = updatable ∧
      sampleOpt (leaseVal level) (.one .partEnforce) = .str (some enforceBoth) ∧
      sampleOpt (leaseVal level) (.one .noPartitionEnforcement) = .bool false) ∧
    ((sampleOpt (leaseVal level) (.one .sweepInterval)).toNum = 0 ∧
      (sampleOpt (leaseVal level) (.one .mKeyLeasePeriod)).toNum = 100 ∧
      (sampleOpt (leaseVal level) (.one .mKeyProtectBits)).toNum = if level = ['0'] then 0 else 1) ∧
    (sampleOpt (leaseVal level) (.one .useOriginalExtendedSaRatesOnly)).toBool = false) ∧
    (sampleRead enforceVal).map Prod.fst = updatable ∧
      sampleOpt enforceVal (.one .partEnforce) = .str (some ['i', 'n']) ∧
      sampleOpt enforceVal (.one .noPartitionEnforcement) = .bool true := by decide +kernel

def leaseText (level : Str) : Str := sampleText (leaseVal level)

/-- A file that turns the enforcement of partitions off, and wants it at the entry of the switches. -/
def enforceText : Str := sampleText enforceVal

lemma plain_level : ∀ level ∈ [['0'], ['1']], PlainVal level := by decide

lemma leaseText_spec {level : Str} (hl : level ∈ [['0'], ['1']]) :
    Complete (leaseText level) ∧ HasConsole (leaseText level) ∧ Fits (leaseText level) ∧
      ∀ f, raw (leaseText level) f = sampleOpt (leaseVal level) f := by
  obtain ⟨⟨hread, hpart, hno⟩, -⟩ := sample_facts.1 level hl
  obtain ⟨hc, hraw, hcons⟩ := sample_spec (plain_lease (plain_level level hl)) hread
  refine ⟨hc, hcons, ⟨?_⟩, hraw⟩
  rw [leaseText, hraw, hraw, ← sampleOpt, ← sampleOpt, hpart, hno]
  simp [HasRoom, Val.toBool]

lemma leaseText_num {level : Str} (hl : level ∈ [['0'], ['1']]) :
    num (leaseText level) .sweepInterval = 0 ∧ num (leaseText level) .mKeyLeasePeriod = 100 ∧
      num (leaseText level) .mKeyProtectBits = if level = ['0'] then 0 else 1 := by
  simp only [num, (leaseText_spec hl).2.2.2]
  exact (sample_facts.1 level hl).2.1

lemma leaseText_flag : flag (leaseText ['1']) .useOriginalExtendedSaRatesOnly = false := by
  rw [flag, (leaseText_spec (by simp)).2.2.2]
  exact (sample_facts.1 ['1'] (by simp)).2.2

end Samples

lemma run_inv {l : List (Sys × Str)} (h : Run step (start v) l x) (hv : Complete v)
    (hl : ∀ y ∈ l, AsRestart y.1 ∧ Complete y.2) : Inv x := by
  refine h.invariant (P := Inv) (q := fun y w => AsRestart y ∧ Complete w) (start_asRestart hv).1 ?_ hl
  rintro y w y' hy ⟨ha, hw⟩ hy'
  obtain rfl := Option.some.inj hy'
  exact (step_asRestart hy ha hw).1

/-- However often the file is read again, the options that can be updated are those of a restart, and
`part_enforce` is not written past its end, exactly as long as every file has room and is carried on by the next
one. -/
theorem run_asRestart {l : List (Sys × Str)} (h : Run step (start v) l x) (hv : Complete v)
    (hl : ∀ y ∈ l, Complete y.2) :
    (∀ y ∈ l, AsRestart y.1) ∧ AsRestart x ↔
      (HasConsole v ∧ Fits v) ∧ ∀ y ∈ l, Carries y.1.text y.2 ∧ Fits y.2 := by
  induction h with
  | nil => simpa using (start_asRestart hv).2
  | @snoc l y y' w h hy' ih =>
    obtain rfl := Option.some.inj hy'
    simp only [List.forall_mem_append, List.forall_mem_singleton] at hl ⊢
    have hbefore := ih hl.1
    constructor
    · rintro ⟨⟨hall, hy⟩, hlast⟩
      obtain ⟨hfirst, hq⟩ := hbefore.mp ⟨hall, hy⟩
      have hinv := run_inv h hv fun z hz => ⟨hall z hz, hl.1 z hz⟩
      exact ⟨hfirst, hq, (step_asRestart hinv hy hl.2).2.mp hlast⟩
    · rintro ⟨hfirst, hq, hlast⟩
      obtain ⟨hall, hy⟩ := hbefore.mpr ⟨hfirst, hq⟩
      have hinv := run_inv h hv fun z hz => ⟨hall z hz, hl.1 z hz⟩
      exact ⟨⟨hall, hy⟩, (step_asRestart hinv hy hl.2).2.mpr hlast⟩

/-- Reading a file again that has not changed. -/
theorem run_asRestart_unchanged :
    AsRestart ⟨leaseText ['1'], osmSubnRescanConfFiles (start (leaseText ['1'])).conf (leaseText ['1'])⟩ := by
  obtain ⟨hc, hcons, hfits, -⟩ := @leaseText_spec ['1'] (by simp)
  obtain ⟨hsweep, hlease, -⟩ := @leaseText_num ['1'] (by simp)
  have hflag := leaseText_flag
  generalize leaseText ['1'] = v at *
  have hcarry : Carries v v := by
    refine ⟨fun _ _ => rfl, ?_, fun _ => ⟨fun _ => hflag, fun _ h => h⟩⟩
    rw [hsweep, hlease]
    exact fun hp => ⟨fun _ _ _ => ⟨hp, rfl⟩, fun _ h => absurd h (by omega)⟩
  have hrun : Run step (start v) [(start v, v)] ⟨v, osmSubnRescanConfFiles (start v).conf v⟩ := Run.nil.snoc rfl
  have hall : ∀ y ∈ [(start v, v)], Complete y.2 ∧ Carries y.1.text y.2 ∧ Fits y.2 := by
    simpa using ⟨hc, hcarry, hfits⟩
  exact ((run_asRestart hrun hc fun y hy => (hall y hy).1).mpr ⟨⟨hcons, hfits⟩, fun y hy => (hall y hy).2⟩).2

/-- The interval that was woken for a protected lease stays when the protection is taken back, where a restart
does not sweep; and the text "in" is overwritten by "off". -/
theorem unprotected_keepsInterval :
    Complete (leaseText ['1']) ∧ Complete (leaseText ['0']) ∧ .one .sweepInterval ∈ updatable ∧
      (osmSubnRescanConfFiles (osmSubnParseConfFile (leaseText ['1']) osmSubnSetDefaultOpt) (leaseText ['0'])).opt
        (.one .sweepInterval) = .num 99 ∧
      (osmSubnParseConfFile (leaseText ['0']) osmSubnSetDefaultOpt).opt (.one .sweepInterval) = .num 0 ∧
      Complete enforceText ∧ (osmSubnParseConfFile enforceText osmSubnSetDefaultOpt).overrun = true := by
  obtain ⟨hc₁, hcons, hfits, -⟩ := @leaseText_spec ['1'] (by simp)
  obtain ⟨hsweep₁, hlease₁, hprot₁⟩ := @leaseText_num ['1'] (by simp)
  obtain ⟨hc₀, -⟩ := @leaseText_spec ['0'] (by simp)
  obtain ⟨hsweep₀, hlease₀, hprot₀⟩ := @leaseText_num ['0'] (by simp)
  rw [if_neg (by decide)] at hprot₁
  rw [if_pos rfl] at hprot₀
  generalize leaseText ['1'] = v at *
  generalize leaseText ['0'] = w at *
  obtain ⟨hinv, hstart⟩ := start_asRestart hc₁
  have hread : (osmSubnRescanConfFiles (start v).conf w).opt (.one .sweepInterval) = .num 99 := by
    rw [rescan_eq, verify_sweep, reread_lease hinv (hstart.mpr ⟨hcons, hfits⟩) hc₀]
    simp only [start, hsweep₁, hlease₁, hprot₁, hsweep₀, hlease₀, hprot₀]
    rfl
  have hrestart := start_sweep hc₀
  rw [hsweep₀, hlease₀, hprot₀] at hrestart
  obtain ⟨hread', hpart, hoff⟩ := sample_facts.2
  obtain ⟨hc, hraw, -⟩ := sample_spec plain_enforce hread'
  have hpe := (readConf_spec hc partEnforce_updatable).2.trans ((hraw _).trans hpart)
  have hno := (readConf_spec hc noEnforcement_updatable).2.trans ((hraw _).trans hoff)
  refine ⟨hc₁, hc₀, sweep_updatable, hread, hrestart, hc, ?_⟩
  have hshort : decide (['i', 'n'].length < enforceOff.length) = true := by decide
  rw [osmSubnParseConfFile, enforceText, verify_overrun hpe hno, hshort, Bool.or_true]

end Run

end OpenSM.SubnOpt
