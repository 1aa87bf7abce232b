import Mathlib

/-! The multicast forwarding table of a switch, and the blocks of it that are sent. MLIDs count from
the first one. -/

namespace OpenSM.McastTbl

def maskSize : ℕ := 16
def blockSize : ℕ := 32

abbrev Mask := ℕ → ℕ → BitVec 16

def forwards (t : Mask) (mlid port : ℕ) : Bool := (t mlid (port / maskSize)).getLsbD (port % maskSize)

structure Tbl where
  maskTbl : Mask
  maxPosition : ℕ
  mftDepth : ℕ
  maxBlockInUse : ℤ

def roundup (val align : ℕ) : ℕ := val / align * align + if val % align ≠ 0 then align else 0

def init (numPorts capacity : ℕ) : Tbl where
  maskTbl _ _ := 0
  maxPosition := if capacity = 0 then 0 else roundup numPorts maskSize / maskSize - 1
  mftDepth := 0
  maxBlockInUse := -1

def set (t : Tbl) (mlid port : ℕ) : Tbl :=
  let blockNum : ℤ := mlid / blockSize
  { t with
    maskTbl := fun i pos =>
      if i = mlid ∧ pos = port / maskSize then t.maskTbl i pos ||| BitVec.twoPow 16 (port % maskSize)
      else t.maskTbl i pos
    maxBlockInUse := if blockNum > t.maxBlockInUse then blockNum else t.maxBlockInUse }

def realloc (t : Tbl) (mlid : ℕ) : Tbl :=
  if mlid < t.mftDepth then t
  else
    let mftDepth := (mlid / blockSize + 1) * blockSize
    { t with
      maskTbl := fun i pos => if t.mftDepth ≤ i ∧ i < mftDepth then 0 else t.maskTbl i pos
      mftDepth := mftDepth }

def clearMlid (t : Tbl) (mlid : ℕ) : Tbl :=
  if mlid < t.mftDepth then { t with maskTbl := Function.update t.maskTbl mlid fun _ => 0 } else t

def getBlock (t : Tbl) (blockNum position : ℕ) : Option (ℕ → BitVec 16) :=
  if (blockNum : ℤ) > t.maxBlockInUse then none
  else if position > t.maxPosition then some fun _ => 0
  else some fun i => t.maskTbl (blockNum * blockSize + i) position

/-- A switch: the table of the subnet manager, the one in the hardware, and the next block to send. -/
structure Switch where
  mcastTbl : Tbl
  mft : Mask
  mftBlockNum : ℕ
  mftPosition : ℕ

def writeBlock (t : Mask) (blockNum position : ℕ) (block : ℕ → BitVec 16) : Mask :=
  fun i pos => if i / blockSize = blockNum ∧ pos = position then block (i % blockSize) else t i pos

def setMftBlock (sw : Switch) (blockNum position : ℕ) : Switch :=
  match getBlock sw.mcastTbl blockNum position with
  | none => sw
  | some block => { sw with mft := writeBlock sw.mft blockNum position block }

def passBlock (blockNum : ℕ) (sw : Switch) : Switch :=
  if sw.mftBlockNum = blockNum then
    let sw := setMftBlock sw sw.mftBlockNum sw.mftPosition
    if sw.mftPosition + 1 > sw.mcastTbl.maxPosition then
      { sw with mftPosition := 0, mftBlockNum := sw.mftBlockNum + 1 }
    else { sw with mftPosition := sw.mftPosition + 1 }
  else sw

variable {n : ℕ}

def stripeBlock (blockNum : ℕ) : ℕ → (Fin n → Switch) → Fin n → Switch
  | 0, sw => sw
  | k + 1, sw =>
    if ∃ s, (sw s).mftBlockNum = blockNum then stripeBlock blockNum k fun s => passBlock blockNum (sw s)
    else sw

def maxPositions (sw : Fin n → Switch) : ℕ := Finset.univ.sup fun s => (sw s).mcastTbl.maxPosition

def blocksInUse (sw : Fin n → Switch) : ℕ := Finset.univ.sup fun s => ((sw s).mcastTbl.maxBlockInUse + 1).toNat

def setMftables (sw : Fin n → Switch) : Fin n → Switch :=
  let sw := fun s => { sw s with mftBlockNum := 0, mftPosition := 0 }
  (List.range (blocksInUse sw)).foldl (fun sw b => stripeBlock b (maxPositions sw + 1) sw) sw

section Tables

variable {t : Tbl} {mlid : ℕ}

structure Blank (t : Tbl) : Prop where
  depth : ∀ i pos, t.mftDepth ≤ i → t.maskTbl i pos = 0
  inUse : ∀ i pos, t.maxBlockInUse < (i / blockSize : ℕ) → t.maskTbl i pos = 0
  position : ∀ i pos, t.maxPosition < pos → t.maskTbl i pos = 0

lemma init_blank (numPorts capacity : ℕ) : Blank (init numPorts capacity) :=
  ⟨fun _ _ _ => rfl, fun _ _ _ => rfl, fun _ _ _ => rfl⟩

lemma realloc_maskTbl (h : Blank t) (mlid : ℕ) : (realloc t mlid).maskTbl = t.maskTbl := by
  unfold realloc
  split_ifs
  · rfl
  · funext i pos
    dsimp only
    split_ifs with hi
    · exact (h.depth i pos hi.1).symm
    · rfl

lemma lt_depth (mlid : ℕ) : mlid < (mlid / blockSize + 1) * blockSize := by
  unfold blockSize
  omega

lemma le_realloc_mftDepth (t : Tbl) (mlid : ℕ) :
    t.mftDepth ≤ (realloc t mlid).mftDepth ∧ mlid < (realloc t mlid).mftDepth := by
  have hlt := lt_depth mlid
  unfold realloc
  split_ifs with hmlid
  · exact ⟨le_rfl, hmlid⟩
  · exact ⟨(Nat.le_of_not_lt hmlid).trans hlt.le, hlt⟩

lemma realloc_frame (t : Tbl) (mlid : ℕ) :
    (realloc t mlid).maxPosition = t.maxPosition ∧ (realloc t mlid).maxBlockInUse = t.maxBlockInUse := by
  unfold realloc
  split_ifs <;> exact ⟨rfl, rfl⟩

lemma realloc_blank (h : Blank t) (mlid : ℕ) : Blank (realloc t mlid) := by
  obtain ⟨hpos, huse⟩ := realloc_frame t mlid
  have hdepth := (le_realloc_mftDepth t mlid).1
  constructor
  all_goals intro i pos hi; rw [realloc_maskTbl h]
  · exact h.depth i pos (hdepth.trans hi)
  · exact h.inUse i pos (huse ▸ hi)
  · exact h.position i pos (hpos ▸ hi)

lemma clearMlid_maskTbl (h : Blank t) (mlid i pos : ℕ) :
    (clearMlid t mlid).maskTbl i pos = if i = mlid then 0 else t.maskTbl i pos := by
  unfold clearMlid
  split_ifs with hlt hi hi
  · simp [hi]
  · simp [hi]
  · exact h.depth i pos (by omega)
  · rfl

lemma clearMlid_frame (t : Tbl) (mlid : ℕ) :
    (clearMlid t mlid).maxPosition = t.maxPosition ∧ (clearMlid t mlid).maxBlockInUse = t.maxBlockInUse ∧
      (clearMlid t mlid).mftDepth = t.mftDepth := by
  unfold clearMlid
  split_ifs <;> exact ⟨rfl, rfl, rfl⟩

lemma clearMlid_blank (h : Blank t) (mlid : ℕ) : Blank (clearMlid t mlid) := by
  obtain ⟨hpos, huse, hdepth⟩ := clearMlid_frame t mlid
  constructor
  all_goals
    intro i pos hi
    rw [clearMlid_maskTbl h]
    split_ifs
    · rfl
  · exact h.depth i pos (hdepth ▸ hi)
  · exact h.inUse i pos (huse ▸ hi)
  · exact h.position i pos (hpos ▸ hi)

lemma le_set_maxBlockInUse (t : Tbl) (mlid port : ℕ) :
    t.maxBlockInUse ≤ (set t mlid port).maxBlockInUse ∧
      ((mlid / blockSize : ℕ) : ℤ) ≤ (set t mlid port).maxBlockInUse := by
  unfold set
  dsimp only
  push_cast
  split_ifs <;> omega

lemma set_maskTbl (t : Tbl) (mlid port i pos : ℕ) (h : ¬(i = mlid ∧ pos = port / maskSize)) :
    (set t mlid port).maskTbl i pos = t.maskTbl i pos := if_neg h

lemma set_blank (h : Blank t) {port : ℕ} (hm : mlid < t.mftDepth) (hp : port / maskSize ≤ t.maxPosition) :
    Blank (set t mlid port) := by
  obtain ⟨hle, hblock⟩ := le_set_maxBlockInUse t mlid port
  refine ⟨fun i pos hi => ?_, fun i pos hi => ?_, fun i pos hi => ?_⟩
  · rw [set_maskTbl t mlid port i pos fun he => absurd (he.1 ▸ hi) (not_le.mpr hm)]
    exact h.depth i pos hi
  · rw [set_maskTbl t mlid port i pos fun he => absurd (he.1 ▸ hi) (not_lt.mpr hblock)]
    exact h.inUse i pos (hle.trans_lt hi)
  · rw [set_maskTbl t mlid port i pos fun he => absurd (he.2 ▸ hi) (not_lt.mpr hp)]
    exact h.position i pos hi

lemma set_maskTbl_ne {i : ℕ} (hi : i ≠ mlid) (port : ℕ) : (set t mlid port).maskTbl i = t.maskTbl i := by
  funext pos
  simp [set, hi]

lemma forwards_set (t : Tbl) (mlid port p : ℕ) :
    forwards (set t mlid port).maskTbl mlid p = (forwards t.maskTbl mlid p || decide (p = port)) := by
  unfold forwards set
  have hmod : p % maskSize < 16 := Nat.mod_lt p (by decide)
  have hdiv := Nat.div_add_mod p maskSize
  have hdiv' := Nat.div_add_mod port maskSize
  by_cases hp : p = port
  · subst hp
    simp [hmod]
  · by_cases hpos : p / maskSize = port / maskSize
    · have hne : port % maskSize ≠ p % maskSize := by
        intro hmods
        rw [hpos, ← hmods, hdiv'] at hdiv
        exact hp hdiv.symm
      simp [hpos, hp, hne]
    · simp [hpos, hp]

lemma le_maxPosition {port numPorts capacity : ℕ} (hc : capacity ≠ 0) (hp : port < numPorts) :
    port / maskSize ≤ (init numPorts capacity).maxPosition := by
  have hround : roundup numPorts 16 / 16 * 16 = roundup numPorts 16 ∧ numPorts ≤ roundup numPorts 16 := by
    unfold roundup
    split_ifs <;> omega
  simp only [init, if_neg hc, maskSize]
  omega

end Tables

section Striping

variable {sw : Fin n → Switch} {b : ℕ}

lemma setMftBlock_eq (s : Switch) (b : ℕ) {k : ℕ} (hk : k ≤ s.mcastTbl.maxPosition) :
    setMftBlock s b k = { s with
      mft := fun i pos =>
        if i / blockSize = b ∧ pos = k ∧ (b : ℤ) ≤ s.mcastTbl.maxBlockInUse then s.mcastTbl.maskTbl i pos
        else s.mft i pos } := by
  have hdecomp : ∀ i, i / blockSize * blockSize + i % blockSize = i := fun i => Nat.div_add_mod' i blockSize
  unfold setMftBlock getBlock
  by_cases huse : (b : ℤ) > s.mcastTbl.maxBlockInUse
  · simp [huse, not_le.mpr huse]
  · simp only [if_neg huse, if_neg (not_lt.mpr hk), not_lt.mp huse, and_true]
    congr 1
    funext i pos
    unfold writeBlock
    split_ifs with hi
    · simp only [← hi.1, hdecomp, hi.2]
    · rfl

def sent (s : Switch) (b k : ℕ) : Mask := fun i pos =>
  if i / blockSize = b ∧ pos < k ∧ (b : ℤ) ≤ s.mcastTbl.maxBlockInUse then s.mcastTbl.maskTbl i pos
  else s.mft i pos

lemma sent_succ (s : Switch) (b k : ℕ) : (fun i pos =>
      if i / blockSize = b ∧ pos = k ∧ (b : ℤ) ≤ s.mcastTbl.maxBlockInUse then s.mcastTbl.maskTbl i pos
      else sent s b k i pos) = sent s b (k + 1) := by
  funext i pos
  unfold sent
  split_ifs <;> first | rfl | omega

lemma passBlock_other {s : Switch} (h : s.mftBlockNum ≠ b) : passBlock b s = s := if_neg h

lemma passBlock_at (s : Switch) {k : ℕ} (hb : s.mftBlockNum = b) (hk : k ≤ s.mcastTbl.maxPosition) :
    passBlock b { s with mft := sent s b k, mftPosition := k } =
      if k + 1 > s.mcastTbl.maxPosition then
        { s with mft := sent s b (k + 1), mftPosition := 0, mftBlockNum := b + 1 }
      else { s with mft := sent s b (k + 1), mftPosition := k + 1 } := by
  unfold passBlock
  subst hb
  have hset := setMftBlock_eq { s with mft := sent s s.mftBlockNum k, mftPosition := k } s.mftBlockNum hk
  dsimp only at hset
  rw [sent_succ] at hset
  simp only [if_true, hset]

lemma iterate_passBlock (s : Switch) (hb : s.mftBlockNum = b) (hp : s.mftPosition = 0) (k : ℕ)
    (hk : k ≤ s.mcastTbl.maxPosition) :
    (passBlock b)^[k] s = { s with mft := sent s b k, mftPosition := k } := by
  induction k with
  | zero =>
    have hmft : sent s b 0 = s.mft := by
      funext i pos
      simp [sent]
    rw [hmft, Function.iterate_zero_apply, ← hp]
  | succ k ih => rw [Function.iterate_succ_apply', ih (by omega), passBlock_at s hb (by omega), if_neg (by omega)]

lemma iterate_passBlock_done (s : Switch) (hb : s.mftBlockNum = b) (hp : s.mftPosition = 0) {k : ℕ}
    (hk : s.mcastTbl.maxPosition < k) :
    (passBlock b)^[k] s =
      { s with mft := sent s b (s.mcastTbl.maxPosition + 1), mftPosition := 0, mftBlockNum := b + 1 } := by
  induction k, hk using Nat.le_induction with
  | base =>
    rw [Function.iterate_succ_apply', iterate_passBlock s hb hp _ le_rfl, passBlock_at s hb le_rfl,
      if_pos (Nat.lt_succ_self _)]
  | succ k _ ih =>
    rw [Function.iterate_succ_apply', ih]
    exact passBlock_other (Nat.succ_ne_self b)

lemma stripeBlock_eq (b k : ℕ) (sw : Fin n → Switch) (s : Fin n) :
    stripeBlock b k sw s = (passBlock b)^[k] (sw s) := by
  induction k generalizing sw with
  | zero => rfl
  | succ k ih =>
    rw [stripeBlock]
    split_ifs with hany
    · rw [ih, Function.iterate_succ_apply]
    · have hfix : passBlock b (sw s) = sw s := passBlock_other fun hs => hany ⟨s, hs⟩
      rw [Function.iterate_fixed hfix]

lemma le_maxPositions (sw : Fin n → Switch) (s : Fin n) : (sw s).mcastTbl.maxPosition ≤ maxPositions sw :=
  Finset.le_sup (f := fun s => (sw s).mcastTbl.maxPosition) (Finset.mem_univ s)

def sentBelow (s : Switch) (b : ℕ) : Mask := fun i pos =>
  if i / blockSize < b ∧ pos ≤ s.mcastTbl.maxPosition ∧ ((i / blockSize : ℕ) : ℤ) ≤ s.mcastTbl.maxBlockInUse then
    s.mcastTbl.maskTbl i pos
  else s.mft i pos

lemma sentBelow_succ (s : Switch) (b : ℕ) :
    sent { s with mft := sentBelow s b } b (s.mcastTbl.maxPosition + 1) = sentBelow s (b + 1) := by
  funext i pos
  unfold sent sentBelow
  dsimp only
  split_ifs <;> first | rfl | omega

lemma foldl_stripeBlock (sw : Fin n → Switch) (hb : ∀ s, (sw s).mftBlockNum = 0) (hp : ∀ s, (sw s).mftPosition = 0)
    (b : ℕ) :
    (List.range b).foldl (fun sw b => stripeBlock b (maxPositions sw + 1) sw) sw =
      fun s => { sw s with mft := sentBelow (sw s) b, mftBlockNum := b, mftPosition := 0 } := by
  induction b with
  | zero =>
    funext s
    have hmft : sentBelow (sw s) 0 = (sw s).mft := by
      funext i pos
      simp [sentBelow]
    have hs : ∀ s : Switch, s.mftBlockNum = 0 → s.mftPosition = 0 →
        s = { s with mftBlockNum := 0, mftPosition := 0 } := by
      rintro ⟨t, m, b, p⟩ rfl rfl
      rfl
    rw [hmft]
    exact hs (sw s) (hb s) (hp s)
  | succ b ih =>
    rw [List.range_succ, List.foldl_append, ih, List.foldl_cons, List.foldl_nil]
    funext s
    have hle := le_maxPositions (fun s =>
      { sw s with mft := sentBelow (sw s) b, mftBlockNum := b, mftPosition := 0 }) s
    rw [stripeBlock_eq, iterate_passBlock_done _ rfl rfl (Nat.lt_succ_of_le hle)]
    simp only [← sentBelow_succ]
    rfl

lemma lt_blocksInUse (sw : Fin n → Switch) (s : Fin n) {b : ℕ} (h : (b : ℤ) ≤ (sw s).mcastTbl.maxBlockInUse) :
    b < blocksInUse sw := by
  have hle : ((sw s).mcastTbl.maxBlockInUse + 1).toNat ≤ blocksInUse sw :=
    Finset.le_sup (f := fun s => ((sw s).mcastTbl.maxBlockInUse + 1).toNat) (Finset.mem_univ s)
  omega

lemma setMftables_eq (sw : Fin n → Switch) (s : Fin n) (i pos : ℕ) :
    (setMftables sw s).mcastTbl = (sw s).mcastTbl ∧
      (setMftables sw s).mft i pos =
        if pos ≤ (sw s).mcastTbl.maxPosition ∧ ((i / blockSize : ℕ) : ℤ) ≤ (sw s).mcastTbl.maxBlockInUse then
          (sw s).mcastTbl.maskTbl i pos
        else (sw s).mft i pos := by
  unfold setMftables
  rw [foldl_stripeBlock _ (fun _ => rfl) fun _ => rfl]
  refine ⟨rfl, ?_⟩
  have hlt := lt_blocksInUse (fun s => { sw s with mftBlockNum := 0, mftPosition := 0 }) s (b := i / blockSize)
  simp only [sentBelow]
  split_ifs with hbelow huse huse
  · rfl
  · exact absurd hbelow.2 huse
  · exact absurd ⟨hlt huse.2, huse⟩ hbelow
  · rfl

end Striping

end OpenSM.McastTbl
