import Mathlib

/-! Writing forwarding tables to switches (`osm_ucast_mgr_set_fwd_tables`): rounds of
`set_lft_block`, with the answers of `osm_lft_rcv_process` coming back in any order or not at all. -/

namespace OpenSM.LftUpdate

/-- The payload of one LFT MAD, `IB_SMP_DATA_SIZE` bytes. -/
abbrev Block := Fin 64 → UInt8

def block (t : ℕ → UInt8) (b : ℕ) : Block := fun i => t (64 * b + i)

def writeBlock (t : ℕ → UInt8) (b : ℕ) (d : Block) : ℕ → UInt8 :=
  fun lid => if lid / 64 = b then d (Fin.ofNat 64 lid) else t lid

@[simp] lemma block_writeBlock (t : ℕ → UInt8) (b : ℕ) (d : Block) : block (writeBlock t b d) b = d := by
  funext i
  have hdiv : (64 * b + i.1) / 64 = b := by omega
  have hmod : Fin.ofNat 64 (64 * b + i.1) = i := Fin.ext (by simp [Fin.ofNat])
  simp only [block, writeBlock, hdiv, if_true, hmod]

lemma block_writeBlock_ne (t : ℕ → UInt8) {b c : ℕ} (d : Block) (h : c ≠ b) :
    block (writeBlock t b d) c = block t c := by
  funext i
  have hdiv : (64 * c + i.1) / 64 ≠ b := by omega
  simp [block, writeBlock, hdiv]

variable {σ : Type} [DecidableEq σ]

structure Subnet (σ : Type) where
  swGuidTbl : List σ
  nodup : swGuidTbl.Nodup
  maxLidHo : σ → ℕ
  lftSize : σ → ℕ
  maxLidHo_lt : ∀ s ∈ swGuidTbl, maxLidHo s < 65536
  lftSize_eq : ∀ s ∈ swGuidTbl, lftSize s = (maxLidHo s / 64 + 1) * 64

/-- The copy `lft` kept for each switch, and the table in the switch itself. -/
structure Tables (σ : Type) where
  lft : σ → ℕ → UInt8
  hw : σ → ℕ → UInt8

/-- What the routing engine and the sweep hand to one call. -/
structure Round (σ : Type) where
  newLft : σ → ℕ → UInt8
  needUpdate : σ → ℕ
  subnNeedUpdate : Bool

structure Mad (σ : Type) where
  sw : σ
  attrMod : ℕ
  payload : Block

def Mad.key (m : Mad σ) : ℕ × σ := (m.attrMod, m.sw)

structure State (σ : Type) extends Tables σ where
  /-- The calls of `set_lft_block` still to come. -/
  todo : List (ℕ × σ)
  flight : List (Mad σ)
  sent : List (ℕ × σ)
  lost : List (ℕ × σ)

def setLftBlock (r : Round σ) (st : State σ) (s : σ) (b : ℕ) : State σ :=
  if r.needUpdate s = 0 ∧ !r.subnNeedUpdate ∧ block (r.newLft s) b = block (st.lft s) b then st
  else { st with
    lft := Function.update st.lft s (writeBlock (st.lft s) b 0)
    flight := st.flight ++ [⟨s, b, block (r.newLft s) b⟩]
    sent := (b, s) :: st.sent }

def osmSwitchSetLftBlock (lftSize : ℕ) (lft : ℕ → UInt8) (d : Block) (b : ℕ) : Option (ℕ → UInt8) :=
  let lidStart := b * 64 % 65536
  if lidStart + 64 > lftSize then none else some (writeBlock lft (lidStart / 64) d)

def osmLftRcvProcess (n : Subnet σ) (st : State σ) (m : Mad σ) : State σ :=
  match osmSwitchSetLftBlock (n.lftSize m.sw) (st.lft m.sw) m.payload m.attrMod with
  | none => st
  | some t => { st with lft := Function.update st.lft m.sw t }

def apply (st : State σ) (m : Mad σ) : State σ :=
  { st with hw := Function.update st.hw m.sw (writeBlock (st.hw m.sw) m.attrMod m.payload) }

def maxLid (n : Subnet σ) : ℕ :=
  n.swGuidTbl.foldl (fun a s => if a < n.maxLidHo s then n.maxLidHo s else a) 0

/-- The calls of `ucast_mgr_pipeline_fwd_tbl`, in order. -/
def pipelineFwdTbl (n : Subnet σ) : List (ℕ × σ) :=
  (List.range (maxLid n / 64 + 1)).flatMap fun b => n.swGuidTbl.map fun s => (b, s)

def setFwdTables (n : Subnet σ) (t : Tables σ) : State σ where
  toTables := t
  todo := pipelineFwdTbl n
  flight := []
  sent := []
  lost := []

inductive Step (n : Subnet σ) (r : Round σ) : State σ → State σ → Prop
  | call (st : State σ) (b : ℕ) (s : σ) (rest : List (ℕ × σ)) (h : st.todo = (b, s) :: rest) :
      Step n r st (setLftBlock r { st with todo := rest } s b)
  | answer (st : State σ) (l k : List (Mad σ)) (m : Mad σ) (h : st.flight = l ++ m :: k) :
      Step n r st (osmLftRcvProcess n (apply { st with flight := l ++ k } m) m)
  | lose (st : State σ) (l k : List (Mad σ)) (m : Mad σ) (h : st.flight = l ++ m :: k) :
      Step n r st { st with flight := l ++ k, lost := m.key :: st.lost }

structure RoundLog (σ : Type) where
  round : Round σ
  before : Tables σ
  after : State σ

/-- A whole round: every block was offered to `set_lft_block` and every MAD is answered or lost. -/
structure Completes (n : Subnet σ) (l : RoundLog σ) : Prop where
  steps : Relation.ReflTransGen (Step n l.round) (setFwdTables n l.before) l.after
  todo : l.after.todo = []
  flight : l.after.flight = []

inductive History (n : Subnet σ) (t₀ : Tables σ) : List (RoundLog σ) → Tables σ → Prop
  | nil : History n t₀ [] t₀
  | snoc {logs : List (RoundLog σ)} {l : RoundLog σ} (h : History n t₀ logs l.before) (hl : Completes n l) :
      History n t₀ (logs ++ [l]) l.after.toTables

def OwnBlock (n : Subnet σ) (s : σ) (b : ℕ) : Prop :=
  s ∈ n.swGuidTbl ∧ b ≤ n.maxLidHo s / 64

def InSync (n : Subnet σ) (t : Tables σ) : Prop :=
  ∀ s b, OwnBlock n s b → block (t.lft s) b = block (t.hw s) b

def OnlyLostDiffer (n : Subnet σ) (l : RoundLog σ) : Prop :=
  ∀ s b, OwnBlock n s b → block (l.after.hw s) b ≠ block (l.round.newLft s) b → (b, s) ∈ l.after.lost

def Resends (n : Subnet σ) (l k : RoundLog σ) : Prop :=
  ∀ s b, OwnBlock n s b → k.round.newLft s = l.round.newLft s →
    block (l.after.hw s) b ≠ block (l.round.newLft s) b → (b, s) ∈ k.after.sent

def Settles (n : Subnet σ) (l k : RoundLog σ) : Prop :=
  ∀ s b, OwnBlock n s b → k.round.newLft s = l.round.newLft s → k.after.lost = [] →
    block (k.after.hw s) b = block (k.round.newLft s) b

structure Retried (n : Subnet σ) (logs : List (RoundLog σ)) : Prop where
  onlyLost : ∀ l ∈ logs, OnlyLostDiffer n l
  resends : logs.IsChain (Resends n)
  settles : logs.IsChain (Settles n)

/-- Without a need_update flag, no all-zero block is to be written where the copy is all-zero
already although the switch still has something else. -/
def NoZeroShadow (n : Subnet σ) (l : RoundLog σ) : Prop :=
  ∀ s b, OwnBlock n s b → l.round.needUpdate s = 0 → l.round.subnNeedUpdate = false →
    block (l.round.newLft s) b = 0 → block (l.before.lft s) b = 0 → block (l.before.hw s) b = 0

lemma block_update (f : σ → ℕ → UInt8) (s s' : σ) (b c : ℕ) (d : Block) :
    block (Function.update f s (writeBlock (f s) b d) s') c =
      if (c, s') = (b, s) then d else block (f s') c := by
  by_cases hs : s' = s
  · subst hs
    by_cases hc : c = b
    · subst hc; simp
    · simp [hc, block_writeBlock_ne _ d hc]
  · simp [hs]

omit [DecidableEq σ] in
lemma le_maxLid (n : Subnet σ) {s : σ} (h : s ∈ n.swGuidTbl) : n.maxLidHo s ≤ maxLid n := by
  have hfold : ∀ (l : List σ) (a : ℕ),
      a ≤ l.foldl (fun a s => if a < n.maxLidHo s then n.maxLidHo s else a) a ∧
        ∀ s ∈ l, n.maxLidHo s ≤ l.foldl (fun a s => if a < n.maxLidHo s then n.maxLidHo s else a) a := by
    intro l
    induction l with
    | nil => simp
    | cons x l ih =>
      intro a
      obtain ⟨hle, hmem⟩ := ih (if a < n.maxLidHo x then n.maxLidHo x else a)
      refine ⟨?_, ?_⟩
      · refine le_trans ?_ hle
        split <;> omega
      · rintro s (_ | ⟨_, hs⟩)
        · refine le_trans ?_ hle
          split <;> omega
        · exact hmem s hs
  exact (hfold n.swGuidTbl 0).2 s h

omit [DecidableEq σ] in
lemma mem_pipelineFwdTbl (n : Subnet σ) {s : σ} {b : ℕ} (h : OwnBlock n s b) : (b, s) ∈ pipelineFwdTbl n := by
  obtain ⟨hs, hb⟩ := h
  have hle := Nat.div_le_div_right (c := 64) (le_maxLid n hs)
  simp only [pipelineFwdTbl, List.mem_flatMap, List.mem_range, List.mem_map]
  exact ⟨b, by omega, s, hs, rfl⟩

omit [DecidableEq σ] in
lemma maxLid_lt (n : Subnet σ) : maxLid n < 65536 := by
  refine List.foldlRecOn (motive := fun a => a < 65536) n.swGuidTbl _ (by omega) ?_
  intro a ha s hs
  have := n.maxLidHo_lt s hs
  split <;> assumption

omit [DecidableEq σ] in
lemma lt_of_mem_pipelineFwdTbl (n : Subnet σ) {k : ℕ × σ} (h : k ∈ pipelineFwdTbl n) : k.1 < 1024 := by
  simp only [pipelineFwdTbl, List.mem_flatMap, List.mem_range, List.mem_map] at h
  obtain ⟨b, hb, s, -, rfl⟩ := h
  have := maxLid_lt n
  simp only
  omega

omit [DecidableEq σ] in
lemma pipelineFwdTbl_nodup (n : Subnet σ) : (pipelineFwdTbl n).Nodup := by
  refine List.nodup_flatMap.mpr ⟨?_, ?_⟩
  · intro b _
    exact n.nodup.map fun _ _ h => (Prod.mk.inj h).2
  · refine List.nodup_range.imp ?_
    intro b c hbc p hp hq
    obtain ⟨s, -, rfl⟩ := List.mem_map.mp hp
    obtain ⟨s', -, h⟩ := List.mem_map.mp hq
    exact hbc (Prod.mk.inj h).1.symm

def Skips (r : Round σ) (t : Tables σ) (k : ℕ × σ) : Prop :=
  r.needUpdate k.2 = 0 ∧ r.subnNeedUpdate = false ∧ block (r.newLft k.2) k.1 = block (t.lft k.2) k.1

inductive Track (r : Round σ) (t : Tables σ) (st : State σ) (k : ℕ × σ) : Prop
  | fresh (hlft : block (st.lft k.2) k.1 = block (t.lft k.2) k.1)
      (hhw : block (st.hw k.2) k.1 = block (t.hw k.2) k.1) (hflight : ∀ m ∈ st.flight, m.key ≠ k)
      (hsent : k ∉ st.sent) (hlost : k ∉ st.lost) (htodo : k ∈ st.todo ∨ Skips r t k)
  | pending (hlft : block (st.lft k.2) k.1 = 0) (hhw : block (st.hw k.2) k.1 = block (t.hw k.2) k.1)
      (hsent : k ∈ st.sent) (htodo : k ∉ st.todo) (hskip : ¬Skips r t k)
      (hfate : (∃ m ∈ st.flight, m.key = k) ∨ k ∈ st.lost)
  | done (hlft : block (st.lft k.2) k.1 = block (r.newLft k.2) k.1)
      (hhw : block (st.hw k.2) k.1 = block (r.newLft k.2) k.1)
      (hsent : k ∈ st.sent) (htodo : k ∉ st.todo) (hskip : ¬Skips r t k)

structure RoundInv (n : Subnet σ) (r : Round σ) (t : Tables σ) (st : State σ) : Prop where
  nodup : st.todo.Nodup
  todo : ∀ k ∈ st.todo, k.1 < 1024
  attrMod : ∀ m ∈ st.flight, m.attrMod < 1024
  payload : ∀ m ∈ st.flight, m.payload = block (r.newLft m.sw) m.attrMod
  track : ∀ s b, OwnBlock n s b → Track r t st (b, s)

omit [DecidableEq σ] in
lemma setFwdTables_inv (n : Subnet σ) (r : Round σ) (t : Tables σ) : RoundInv n r t (setFwdTables n t) where
  nodup := pipelineFwdTbl_nodup n
  todo k hk := lt_of_mem_pipelineFwdTbl n hk
  attrMod := by simp [setFwdTables]
  payload := by simp [setFwdTables]
  track s b h := .fresh rfl rfl (by simp [setFwdTables]) (by simp [setFwdTables]) (by simp [setFwdTables])
    (.inl (mem_pipelineFwdTbl n h))

lemma rcv_lft (n : Subnet σ) (st : State σ) {m : Mad σ} (hm : m.attrMod < 1024) {s : σ} {b : ℕ}
    (h : OwnBlock n s b) :
    block ((osmLftRcvProcess n st m).lft s) b = if (b, s) = m.key then m.payload else block (st.lft s) b := by
  obtain ⟨hs, hb⟩ := h
  have hsize := n.lftSize_eq s hs
  have hstart : m.attrMod * 64 % 65536 = m.attrMod * 64 := Nat.mod_eq_of_lt (by omega)
  have hdiv : m.attrMod * 64 / 64 = m.attrMod := by omega
  unfold osmLftRcvProcess osmSwitchSetLftBlock
  simp only [hstart, hdiv]
  by_cases hfit : m.attrMod * 64 + 64 > n.lftSize m.sw
  · have hne : (b, s) ≠ m.key := by
      rintro hk
      obtain ⟨rfl, rfl⟩ := Prod.mk.inj hk
      omega
    simp [hfit, hne]
  · simp only [hfit, if_false]
    exact block_update st.lft m.sw s m.attrMod b m.payload

lemma rcv_eq (n : Subnet σ) (st : State σ) (m : Mad σ) :
    ∃ f, osmLftRcvProcess n st m = { st with lft := f } := by
  unfold osmLftRcvProcess
  split
  · exact ⟨st.lft, rfl⟩
  · exact ⟨_, rfl⟩

omit [DecidableEq σ] in
lemma Track.frame {r : Round σ} {t : Tables σ} {st st' : State σ} {k : ℕ × σ} (h : Track r t st k)
    (hlft : block (st'.lft k.2) k.1 = block (st.lft k.2) k.1)
    (hhw : block (st'.hw k.2) k.1 = block (st.hw k.2) k.1)
    (hflight : (∃ m ∈ st'.flight, m.key = k) ↔ ∃ m ∈ st.flight, m.key = k) (hsent : k ∈ st'.sent ↔ k ∈ st.sent)
    (hlost : k ∈ st'.lost ↔ k ∈ st.lost) (htodo : k ∈ st'.todo ↔ k ∈ st.todo) : Track r t st' k := by
  cases h with
  | fresh h1 h2 h3 h4 h5 h6 =>
    refine .fresh (hlft.trans h1) (hhw.trans h2) ?_ (by rwa [hsent]) (by rwa [hlost]) (by rwa [htodo])
    intro m hm hk
    obtain ⟨m', hm', hk'⟩ := hflight.mp ⟨m, hm, hk⟩
    exact h3 m' hm' hk'
  | pending h1 h2 h3 h4 h5 h6 =>
    exact .pending (hlft.trans h1) (hhw.trans h2) (by rwa [hsent]) (by rwa [htodo]) h5 (by rwa [hflight, hlost])
  | done h1 h2 h3 h4 h5 => exact .done (hlft.trans h1) (hhw.trans h2) (by rwa [hsent]) (by rwa [htodo]) h5

lemma call_track {r : Round σ} {t : Tables σ} {st : State σ} {b : ℕ} {s : σ} {rest : List (ℕ × σ)}
    (htodo : st.todo = (b, s) :: rest) (hrest : (b, s) ∉ rest) {k : ℕ × σ} (hk : Track r t st k) :
    Track r t (setLftBlock r { st with todo := rest } s b) k := by
  unfold setLftBlock
  by_cases hkey : k = (b, s)
  · subst hkey
    obtain ⟨h1, h2, h3, h4, h5, -⟩ | ⟨-, -, -, h, -, -⟩ | ⟨-, -, -, h, -⟩ := hk
    · split_ifs with hskip
      · refine .fresh h1 h2 h3 h4 h5 (.inr ⟨hskip.1, ?_, ?_⟩)
        · simpa using hskip.2.1
        · exact hskip.2.2.trans h1
      · refine .pending (by simp) h2 (by simp) hrest ?_
            (.inl ⟨_, List.mem_append_right _ (List.mem_singleton_self _), rfl⟩)
        rintro ⟨hs1, hs2, hs3⟩
        exact hskip ⟨hs1, by simpa using hs2, hs3.trans h1.symm⟩
    all_goals exact absurd (htodo ▸ List.mem_cons_self) h
  · split_ifs with hskip
    · exact hk.frame rfl rfl .rfl .rfl .rfl (by simp [htodo, hkey])
    · refine hk.frame ?_ rfl ?_ (by simp [hkey]) .rfl (by simp [htodo, hkey])
      · rw [block_update, if_neg hkey]
      · have hne : (⟨s, b, block (r.newLft s) b⟩ : Mad σ).key ≠ k := Ne.symm hkey
        simp [or_and_right, exists_or, hne]

lemma call_inv {n : Subnet σ} {r : Round σ} {t : Tables σ} {st : State σ} (h : RoundInv n r t st) {b : ℕ}
    {s : σ} {rest : List (ℕ × σ)} (htodo : st.todo = (b, s) :: rest) :
    RoundInv n r t (setLftBlock r { st with todo := rest } s b) := by
  obtain ⟨hrest, hnodup⟩ := List.nodup_cons.mp (htodo ▸ h.nodup)
  have hlt : ∀ k ∈ (b, s) :: rest, k.1 < 1024 := htodo ▸ h.todo
  refine ⟨?_, ?_, ?_, ?_, fun s' b' hown => call_track htodo hrest (h.track s' b' hown)⟩
  all_goals unfold setLftBlock; split_ifs
  · exact hnodup
  · exact hnodup
  · exact fun k hk => hlt k (List.mem_cons_of_mem _ hk)
  · exact fun k hk => hlt k (List.mem_cons_of_mem _ hk)
  · exact h.attrMod
  · intro m hm
    rcases List.mem_append.mp hm with hm | hm
    · exact h.attrMod m hm
    · rw [List.mem_singleton.mp hm]
      exact hlt _ List.mem_cons_self
  · exact h.payload
  · intro m hm
    rcases List.mem_append.mp hm with hm | hm
    · exact h.payload m hm
    · rw [List.mem_singleton.mp hm]

lemma answer_inv {n : Subnet σ} {r : Round σ} {t : Tables σ} {st : State σ} (h : RoundInv n r t st)
    {l k : List (Mad σ)} {m : Mad σ} (hflight : st.flight = l ++ m :: k) :
    RoundInv n r t (osmLftRcvProcess n (apply { st with flight := l ++ k } m) m) := by
  have hsub : ∀ x ∈ l ++ k, x ∈ st.flight := fun x hx => by
    rw [hflight]
    exact (List.Sublist.append_left (List.sublist_cons_self m k) l).subset hx
  have hm : m ∈ st.flight := by simp [hflight]
  have hlft := fun s b => rcv_lft n (apply { st with flight := l ++ k } m) (h.attrMod m hm) (s := s) (b := b)
  obtain ⟨f, hf⟩ := rcv_eq n (apply { st with flight := l ++ k } m) m
  simp only [hf] at hlft ⊢
  refine ⟨h.nodup, h.todo, fun x hx => h.attrMod x (hsub x hx), fun x hx => h.payload x (hsub x hx), ?_⟩
  intro s b hown
  have hhw : block ((apply { st with flight := l ++ k } m).hw s) b =
      if (b, s) = m.key then m.payload else block (st.hw s) b := block_update st.hw m.sw s m.attrMod b m.payload
  specialize hlft s b hown
  by_cases hkey : (b, s) = m.key
  · obtain ⟨rfl, rfl⟩ := Prod.mk.inj hkey
    rw [if_pos hkey] at hlft hhw
    have hnew := h.payload m hm
    obtain ⟨-, -, h3, -, -, -⟩ | ⟨-, -, h3, h4, h5, -⟩ | ⟨-, -, h3, h4, h5⟩ := h.track m.sw m.attrMod hown
    · exact absurd rfl (h3 m hm)
    all_goals exact .done (hlft.trans hnew) (hhw.trans hnew) h3 h4 h5
  · rw [if_neg hkey] at hlft hhw
    refine (h.track s b hown).frame hlft hhw ?_ .rfl .rfl .rfl
    have hne : m.key ≠ (b, s) := Ne.symm hkey
    simp [apply, hflight, or_and_right, exists_or, hne]

omit [DecidableEq σ] in
lemma lose_inv {n : Subnet σ} {r : Round σ} {t : Tables σ} {st : State σ} (h : RoundInv n r t st)
    {l k : List (Mad σ)} {m : Mad σ} (hflight : st.flight = l ++ m :: k) :
    RoundInv n r t { st with flight := l ++ k, lost := m.key :: st.lost } := by
  have hsub : ∀ x ∈ l ++ k, x ∈ st.flight := fun x hx => by
    rw [hflight]
    exact (List.Sublist.append_left (List.sublist_cons_self m k) l).subset hx
  have hm : m ∈ st.flight := by simp [hflight]
  refine ⟨h.nodup, h.todo, fun x hx => h.attrMod x (hsub x hx), fun x hx => h.payload x (hsub x hx), ?_⟩
  intro s b hown
  by_cases hkey : (b, s) = m.key
  · obtain ⟨-, -, h3, -, -, -⟩ | ⟨h1, h2, h3, h4, h5, -⟩ | ⟨h1, h2, h3, h4, h5⟩ := h.track s b hown
    · exact absurd hkey.symm (h3 m hm)
    · exact .pending h1 h2 h3 h4 h5 (.inr (by simp [hkey]))
    · exact .done h1 h2 h3 h4 h5
  · have hne : m.key ≠ (b, s) := Ne.symm hkey
    refine (h.track s b hown).frame rfl rfl ?_ .rfl (by simp [hkey]) .rfl
    simp [hflight, or_and_right, exists_or, hne]

lemma step_inv {n : Subnet σ} {r : Round σ} {t : Tables σ} {st st' : State σ} (h : RoundInv n r t st)
    (hs : Step n r st st') : RoundInv n r t st' := by
  cases hs with
  | call b s rest htodo => exact call_inv h htodo
  | answer l k m hflight => exact answer_inv h hflight
  | lose l k m hflight => exact lose_inv h hflight

lemma steps_inv {n : Subnet σ} {r : Round σ} {t : Tables σ} {st st' : State σ} (h : RoundInv n r t st)
    (hs : Relation.ReflTransGen (Step n r) st st') : RoundInv n r t st' := by
  induction hs with
  | refl => exact h
  | tail _ hs ih => exact step_inv ih hs

lemma Completes.inv {n : Subnet σ} {l : RoundLog σ} (h : Completes n l) :
    RoundInv n l.round l.before l.after :=
  steps_inv (setFwdTables_inv n l.round l.before) h.steps

lemma Completes.outcome {n : Subnet σ} {l : RoundLog σ} (h : Completes n l) {s : σ} {b : ℕ}
    (hown : OwnBlock n s b) :
    (Skips l.round l.before (b, s) ∧ block (l.after.lft s) b = block (l.before.lft s) b ∧
        block (l.after.hw s) b = block (l.before.hw s) b ∧ (b, s) ∉ l.after.lost) ∨
      (¬Skips l.round l.before (b, s) ∧ (b, s) ∈ l.after.sent ∧
        ((block (l.after.lft s) b = 0 ∧ (b, s) ∈ l.after.lost) ∨
          (block (l.after.lft s) b = block (l.round.newLft s) b ∧
            block (l.after.hw s) b = block (l.round.newLft s) b))) := by
  obtain ⟨h1, h2, -, -, h5, h6⟩ | ⟨h1, -, h3, -, h5, h6⟩ | ⟨h1, h2, h3, -, h5⟩ := h.inv.track s b hown
  · exact .inl ⟨h6.resolve_left (by simp [h.todo]), h1, h2, h5⟩
  · exact .inr ⟨h5, h3, .inl ⟨h1, h6.resolve_left (by simp [h.flight])⟩⟩
  · exact .inr ⟨h5, h3, .inr ⟨h1, h2⟩⟩

def RightOrWiped (n : Subnet σ) (t : Tables σ) : Prop :=
  ∀ s b, OwnBlock n s b → block (t.lft s) b = block (t.hw s) b ∨ block (t.lft s) b = 0

lemma Completes.rightOrWiped {n : Subnet σ} {l : RoundLog σ} (h : Completes n l)
    (hb : RightOrWiped n l.before) : RightOrWiped n l.after.toTables := by
  intro s b hown
  obtain ⟨-, hlft, hhw, -⟩ | ⟨-, -, ⟨hlft, -⟩ | ⟨hlft, hhw⟩⟩ := h.outcome hown
  · rw [hlft, hhw]
    exact hb s b hown
  · exact .inr hlft
  · exact .inl (hlft.trans hhw.symm)

lemma Completes.onlyLost_iff {n : Subnet σ} {l : RoundLog σ} (h : Completes n l)
    (hb : RightOrWiped n l.before) : OnlyLostDiffer n l ↔ NoZeroShadow n l := by
  refine ⟨?_, ?_⟩
  · intro hlost s b hown hneed hsubn hnew hzero
    obtain ⟨-, -, hhw, hnot⟩ | ⟨hskip, -⟩ := h.outcome hown
    · by_contra hne
      exact hnot (hlost s b hown (by rwa [hhw, hnew]))
    · exact absurd ⟨hneed, hsubn, hnew.trans hzero.symm⟩ hskip
  · intro hshadow s b hown hne
    obtain ⟨⟨hneed, hsubn, hnew⟩, -, hhw, -⟩ | ⟨-, -, ⟨-, hlost⟩ | ⟨-, hhw⟩⟩ := h.outcome hown
    · refine absurd ?_ hne
      rcases hb s b hown with heq | hzero
      · exact hhw.trans (heq.symm.trans hnew.symm)
      · have hnew0 : block (l.round.newLft s) b = 0 := hnew.trans hzero
        rw [hhw, hnew0]
        exact hshadow s b hown hneed hsubn hnew0 hzero
    · exact hlost
    · exact absurd hhw hne

lemma Completes.resends {n : Subnet σ} {l k : RoundLog σ} (h : Completes n k) (hlk : l.after.toTables = k.before)
    (hb : RightOrWiped n k.before) (hshadow : NoZeroShadow n k) : Resends n l k := by
  intro s b hown hsame hne
  obtain ⟨⟨hneed, hsubn, hnew⟩, -⟩ | ⟨-, hsent, -⟩ := h.outcome hown
  · rw [← hsame] at hne
    have hhw : block (l.after.hw s) b = block (k.before.hw s) b := by rw [← hlk]
    refine absurd ?_ hne
    rw [hhw]
    rcases hb s b hown with heq | hzero
    · exact heq.symm.trans hnew.symm
    · have hnew0 : block (k.round.newLft s) b = 0 := hnew.trans hzero
      rw [hnew0]
      exact hshadow s b hown hneed hsubn hnew0 hzero
  · exact hsent

omit [DecidableEq σ] in
lemma OnlyLostDiffer.settles {n : Subnet σ} {l k : RoundLog σ} (h : OnlyLostDiffer n k) : Settles n l k := by
  intro s b hown _ hlost
  by_contra hne
  simpa [hlost] using h s b hown hne

lemma History.rightOrWiped {n : Subnet σ} {t₀ t : Tables σ} {logs : List (RoundLog σ)} (h : History n t₀ logs t)
    (h0 : InSync n t₀) : RightOrWiped n t := by
  induction h with
  | nil => exact fun s b hown => .inl (h0 s b hown)
  | snoc _ hl ih => exact hl.rightOrWiped ih

lemma History.last {n : Subnet σ} {t₀ t : Tables σ} {logs : List (RoundLog σ)} (h : History n t₀ logs t) :
    ∀ l ∈ logs.getLast?, l.after.toTables = t := by
  cases h with
  | nil => simp
  | snoc => simp

lemma History.chain {n : Subnet σ} {t₀ t : Tables σ} {logs : List (RoundLog σ)} (h : History n t₀ logs t)
    {R : RoundLog σ → RoundLog σ → Prop} (h0 : InSync n t₀)
    (hR : ∀ l k, k ∈ logs → Completes n k → RightOrWiped n k.before → l.after.toTables = k.before → R l k) :
    logs.IsChain R := by
  induction h with
  | nil => exact .nil
  | @snoc logs l h hl ih =>
    refine List.isChain_append.mpr ⟨ih fun a b hb => hR a b (List.mem_append_left _ hb), .singleton l, ?_⟩
    intro a ha b hb
    obtain rfl : l = b := by simpa using hb
    exact hR a l (by simp) hl (h.rightOrWiped h0) (h.last a ha)

lemma History.onlyLost_iff {n : Subnet σ} {t₀ t : Tables σ} {logs : List (RoundLog σ)} (h : History n t₀ logs t)
    (h0 : InSync n t₀) : (∀ l ∈ logs, OnlyLostDiffer n l) ↔ ∀ l ∈ logs, NoZeroShadow n l := by
  induction h with
  | nil => simp
  | @snoc logs l h hl ih =>
    simp only [List.forall_mem_append, List.forall_mem_singleton, ih, hl.onlyLost_iff (h.rightOrWiped h0)]

/-- A lost update is retried in every round of a history exactly when no round has to write zeros
over a wiped copy. -/
theorem retried_iff {n : Subnet σ} {t₀ t : Tables σ} {logs : List (RoundLog σ)} (h : History n t₀ logs t)
    (h0 : InSync n t₀) : Retried n logs ↔ ∀ l ∈ logs, NoZeroShadow n l := by
  refine ⟨fun hr => (h.onlyLost_iff h0).mp hr.onlyLost, ?_⟩
  intro hshadow
  have hlost := (h.onlyLost_iff h0).mpr hshadow
  refine ⟨hlost, h.chain h0 ?_, h.chain h0 ?_⟩
  · intro l k hk hc hb hlk
    exact hc.resends hlk hb (hshadow k hk)
  · intro l k hk _ _ _
    exact (hlost k hk).settles

section Samples

def oneSwitch : Subnet Unit where
  swGuidTbl := [()]
  nodup := by simp
  maxLidHo _ := 127
  lftSize _ := 128
  maxLidHo_lt := by simp
  lftSize_eq := by simp

def noPaths : Tables Unit := ⟨fun _ _ => 255, fun _ _ => 255⟩

/-- LIDs 64 to 127 through one port; port 0 when they are the switch's own at LMC 6. -/
def upperThrough (port : UInt8) : Round Unit where
  newLft _ lid := if 64 ≤ lid then port else 255
  needUpdate _ := 0
  subnNeedUpdate := false

def wiped : Tables Unit := ⟨fun _ => writeBlock (fun _ => 255) 1 0, fun _ _ => 255⟩

lemma Step.skip {n : Subnet Unit} {r : Round Unit} {st : State Unit} {b : ℕ} {rest : List (ℕ × Unit)}
    (htodo : st.todo = (b, ()) :: rest)
    (h : r.needUpdate () = 0 ∧ !r.subnNeedUpdate ∧ block (r.newLft ()) b = block (st.lft ()) b) :
    Step n r st { st with todo := rest } := by
  have hstep : Step n r st _ := .call st b () rest htodo
  rwa [setLftBlock, if_pos h] at hstep

lemma Step.send {n : Subnet Unit} {r : Round Unit} {st : State Unit} {b : ℕ} {rest : List (ℕ × Unit)}
    (htodo : st.todo = (b, ()) :: rest) (h : block (r.newLft ()) b ≠ block (st.lft ()) b) :
    Step n r st { st with
      todo := rest
      lft := fun _ => writeBlock (st.lft ()) b 0
      flight := st.flight ++ [⟨(), b, block (r.newLft ()) b⟩]
      sent := (b, ()) :: st.sent } := by
  have hstep : Step n r st _ := .call st b () rest htodo
  have hlft : Function.update st.lft () (writeBlock (st.lft ()) b 0) = fun _ => writeBlock (st.lft ()) b 0 := by
    funext x
    simp
  rwa [setLftBlock, if_neg (fun hc => h hc.2.2), hlft] at hstep

lemma called_steps (r : Round Unit) (t : Tables Unit)
    (h0 : r.needUpdate () = 0 ∧ !r.subnNeedUpdate ∧ block (r.newLft ()) 0 = block (t.lft ()) 0)
    (h1 : block (r.newLft ()) 1 ≠ block (t.lft ()) 1) :
    Relation.ReflTransGen (Step oneSwitch r) (setFwdTables oneSwitch t)
      ⟨⟨fun _ => writeBlock (t.lft ()) 1 0, t.hw⟩, [], [⟨(), 1, block (r.newLft ()) 1⟩], [(1, ())], []⟩ :=
  (Relation.ReflTransGen.refl.tail (.skip rfl h0)).tail (.send rfl h1)

def lostLog (port : UInt8) : RoundLog Unit where
  round := upperThrough port
  before := noPaths
  after := ⟨wiped, [], [], [(1, ())], [(1, ())]⟩

lemma lostLog_completes {port : UInt8} (h0 : block ((upperThrough port).newLft ()) 0 = block (noPaths.lft ()) 0)
    (h1 : block ((upperThrough port).newLft ()) 1 ≠ block (noPaths.lft ()) 1) :
    Completes oneSwitch (lostLog port) where
  steps := (called_steps _ _ ⟨rfl, rfl, h0⟩ h1).tail (.lose _ [] [] ⟨(), 1, _⟩ rfl)
  todo := rfl
  flight := rfl

def skippedLog : RoundLog Unit where
  round := upperThrough 0
  before := wiped
  after := ⟨wiped, [], [], [], []⟩

lemma skippedLog_completes : Completes oneSwitch skippedLog where
  steps := (Relation.ReflTransGen.refl.tail (.skip rfl (by decide))).tail (.skip rfl (by decide))
  todo := rfl
  flight := rfl

/-- Zeros lost once are not sent again. -/
theorem zeros_not_resent :
    InSync oneSwitch noPaths ∧ History oneSwitch noPaths [lostLog 0, skippedLog] wiped ∧
      ¬Retried oneSwitch [lostLog 0, skippedLog] := by
  have hlost : History oneSwitch noPaths [lostLog 0] wiped :=
    .snoc .nil (lostLog_completes (by decide) (by decide))
  refine ⟨fun _ _ _ => rfl, hlost.snoc skippedLog_completes, ?_⟩
  intro h
  have hown : OwnBlock oneSwitch () 1 := ⟨List.mem_singleton_self _, by decide⟩
  have hmem := h.onlyLost skippedLog (by simp) () 1 hown (by decide)
  exact absurd hmem List.not_mem_nil

def answeredLog : RoundLog Unit where
  round := upperThrough 7
  before := wiped
  after := osmLftRcvProcess oneSwitch
    (apply ⟨⟨fun _ => writeBlock (wiped.lft ()) 1 0, wiped.hw⟩, [], [], [(1, ())], []⟩
      ⟨(), 1, block ((upperThrough 7).newLft ()) 1⟩) ⟨(), 1, block ((upperThrough 7).newLft ()) 1⟩

lemma answeredLog_completes : Completes oneSwitch answeredLog where
  steps := (called_steps (upperThrough 7) wiped (by decide) (by decide)).tail
    (.answer ⟨_, _, [⟨(), 1, _⟩], _, _⟩ [] [] ⟨(), 1, _⟩ rfl)
  todo := rfl
  flight := rfl

end Samples

theorem retried_iff_resent : Retried oneSwitch [lostLog 7, answeredLog] ↔
    ∀ l ∈ [lostLog 7, answeredLog], NoZeroShadow oneSwitch l := by
  have hlost : History oneSwitch noPaths [lostLog 7] wiped :=
    .snoc .nil (lostLog_completes (by decide) (by decide))
  exact retried_iff (hlost.snoc answeredLog_completes) fun _ _ _ => rfl

end OpenSM.LftUpdate
