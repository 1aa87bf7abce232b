import OpenSM.PkeyTbl

/-! The table and the partition enforcement of the switch port that an end port is linked to. -/

namespace OpenSM.Pkey

/-- `osm_partition_enforce_type_enum`. -/
inductive EnforceType
  | both
  | inbound
  | outbound
  | off
  deriving DecidableEq

structure NewTbl where
  newBlocks : List (Option Block)
  length_lt : newBlocks.length < 2 ^ 16
  usedBlocks : ℕ
  maxBlocks : ℕ

def blockGet (blocks : List (Option Block)) (block : ℕ) : Option Block := (blocks[block]?).join

structure PeerPort where
  blocks : List (Option Block)
  new : NewTbl
  enforceCap : BitVec 16
  vlEnforce : BitVec 8

def PeerPort.maxBlocks (peer : PeerPort) : ℕ := (peer.enforceCap.toNat + 31) / 32

def Block.at (b : Block) (i : ℕ) : PKey := if h : i < 32 then b ⟨i, h⟩ else 0

def Block.put (b : Block) (i : ℕ) (pkey : PKey) : Block := fun j => if j.val = i then pkey else b j

variable (o : ByteOrder)

def lastValid (b : Block) : ℕ → ℕ
  | 0 => 0
  | index + 1 => if isInvalid o (b.at index) then lastValid b index else index

def lastUsedPkeyIndex (partitionCap : BitVec 16) (t : NewTbl) : Option ℕ :=
  (blockGet t.newBlocks ((t.usedBlocks + 0xffff) % 2 ^ 16)).map fun lastBlock =>
    let lastIndex := if t.usedBlocks = t.maxBlocks then partitionCap.toNat % 32 else 0
    lastValid o lastBlock (if lastIndex = 0 then 32 else lastIndex)

abbrev Sends := List (ℕ × Block)

def updatePeerBlock (blocks : List (Option Block)) (newPeerBlock : Block) (peerBlockIdx : ℕ) : Sends :=
  if blockGet blocks peerBlockIdx = some newPeerBlock then [] else [(peerBlockIdx, newPeerBlock)]

def newPkeyExists (t : NewTbl) (pkey : PKey) : Bool :=
  (entries (t.newBlocks.take (t.newBlocks.length % 2 ^ 16))).contains pkey

structure Pack where
  newPeerBlock : Block
  peerPkeyIdx : ℕ
  peerBlockIdx : ℕ
  sends : Sends
  loopExit : Bool

def packPkey (t : NewTbl) (peer : PeerPort) (s : Pack) (pkey : PKey) : Pack :=
  if s.loopExit then s
  else if isInvalid o pkey then s
  else if !isFullMember o pkey && newPkeyExists t (pkey ||| typeMask o) then s
  else
    let newPeerBlock := s.newPeerBlock.put s.peerPkeyIdx pkey
    if peer.maxBlocks ≤ s.peerBlockIdx then { s with newPeerBlock, loopExit := true }
    else if s.peerPkeyIdx + 1 = 32 then
      { s with
        newPeerBlock
        peerPkeyIdx := 0
        peerBlockIdx := s.peerBlockIdx + 1
        sends := s.sends ++ updatePeerBlock peer.blocks newPeerBlock s.peerBlockIdx }
    else { s with newPeerBlock, peerPkeyIdx := s.peerPkeyIdx + 1 }

def enforceBits : EnforceType → BitVec 8
  | .both => 0xc#8
  | .inbound => 0x8#8
  | .outbound | .off => 0x4#8

def portBits (enforceType : EnforceType) : BitVec 8 := if enforceType = .off then 0 else enforceBits enforceType

/-- The `vl_enforce` that is sent when the port does not have the bits. -/
def enforcePartition (vlEnforce : BitVec 8) (enforceType : EnforceType) : Option (BitVec 8) :=
  if vlEnforce &&& 0xc#8 = portBits enforceType then none
  else some (vlEnforce &&& ~~~0xc#8 ||| portBits enforceType)

structure PeerUpdate where
  sends : Sends
  usedBlocks : ℕ
  vlEnforce : Option (BitVec 8)
  ret : ℤ

/-- The last used index, which is looked up in the new blocks of the switch port, is beyond the capacity. -/
def beyondCap (partitionCap : BitVec 16) (peer : PeerPort) (usedBlocks peerBlockIdx : ℕ) : Bool :=
  (lastUsedPkeyIndex o partitionCap { peer.new with usedBlocks }).any fun lastIndex =>
    peer.enforceCap.toNat ≤ (lastIndex + peerBlockIdx * 32) % 2 ^ 16

def finishPeer (partitionCap : BitVec 16) (peer : PeerPort) (enforceType : EnforceType) (s : Pack) : PeerUpdate :=
  if s.peerBlockIdx < peer.maxBlocks then
    let partialBlock : Block := fun i => if i.val < s.peerPkeyIdx then s.newPeerBlock i else 0
    let sends :=
      if s.peerPkeyIdx = 0 then s.sends else s.sends ++ updatePeerBlock peer.blocks partialBlock s.peerBlockIdx
    let peerBlockIdx := if s.peerPkeyIdx = 0 then (s.peerBlockIdx + 0xffff) % 2 ^ 16 else s.peerBlockIdx
    let usedBlocks := (peerBlockIdx + 1) % 2 ^ 16
    let beyond := decide (usedBlocks = peer.maxBlocks) && beyondCap o partitionCap peer usedBlocks peerBlockIdx
    ⟨sends, usedBlocks, enforcePartition peer.vlEnforce (if beyond then .off else enforceType),
        if beyond then -1 else 0⟩
  else ⟨s.sends, peer.maxBlocks, enforcePartition peer.vlEnforce .off, 0⟩

/-- `stack` is what the memory of the new block holds before, `partitionCap` the capacity of the end port. -/
def updatePeerPort (stack : Block) (partitionCap : BitVec 16) (t : NewTbl) (peer : PeerPort)
    (enforceType : EnforceType) : PeerUpdate :=
  if peer.enforceCap = 0 then ⟨[], peer.new.usedBlocks, none, 0⟩
  else if enforceType = .off then ⟨[], peer.new.usedBlocks, enforcePartition peer.vlEnforce .off, 0⟩
  else finishPeer o partitionCap peer enforceType
    ((entries (t.newBlocks.take t.usedBlocks)).foldl (packPkey o t peer) ⟨stack, 0, 0, [], false⟩)

section Packing

def tableAfter (blocks : List (Option Block)) (sends : Sends) : List (Option Block) :=
  sends.foldl (fun bs e => setBlock bs e.1 e.2) blocks

def forPeer (t : NewTbl) (p : PKey) : Bool :=
  !isInvalid o p && (isFullMember o p || !(entries t.newBlocks).contains (fullForm o p))

def peerPkeys (t : NewTbl) : List PKey := (entries (t.newBlocks.take t.usedBlocks)).filter (forPeer o t)

def blockOf (l : List PKey) (b : ℕ) : Block := fun i => l.getD (32 * b + i.val) 0

variable {o} {blocks : List (Option Block)} {sends : Sends} {t : NewTbl} {peer : PeerPort}
  {l : List PKey} {s : Pack} {p : PKey} {b c : ℕ} {tbl : Block}

lemma blockGet_setBlock : blockGet (setBlock blocks b tbl) c = if c = b then some tbl else blockGet blocks c := by
  rw [blockGet, setBlock, List.getElem?_set]
  by_cases hcb : b = c
  · subst hcb
    rw [if_pos rfl, if_pos rfl, if_pos (by simp; omega)]
    rfl
  · rw [if_neg hcb, if_neg (Ne.symm hcb), List.getElem?_append]
    split_ifs with hlt
    · rfl
    · rw [blockGet, List.getElem?_eq_none (Nat.le_of_not_lt hlt), List.getElem?_replicate]
      split_ifs <;> rfl

lemma tableAfter_update (hb : blockGet (tableAfter blocks sends) b = blockGet blocks b) :
    blockGet (tableAfter blocks (sends ++ updatePeerBlock blocks tbl b)) c =
      if c = b then some tbl else blockGet (tableAfter blocks sends) c := by
  rw [updatePeerBlock]
  split_ifs with hsame hcb hcb
  · rw [List.append_nil, hcb, hb, hsame]
  · rw [List.append_nil]
  · rw [tableAfter, List.foldl_append, List.foldl_cons, List.foldl_nil, blockGet_setBlock, if_pos hcb]
  · rw [tableAfter, List.foldl_append, List.foldl_cons, List.foldl_nil, blockGet_setBlock, if_neg hcb]
    rfl

lemma newPkeyExists_eq : newPkeyExists t p = (entries t.newBlocks).contains p := by
  rw [newPkeyExists, Nat.mod_eq_of_lt t.length_lt, List.take_length]

structure Packed (peer : PeerPort) (l : List PKey) (s : Pack) : Prop where
  blockIdx : s.peerBlockIdx = min (l.length / 32) peer.maxBlocks
  exit : s.loopExit = true ↔ 32 * peer.maxBlocks < l.length
  pkeyIdx : l.length ≤ 32 * peer.maxBlocks → s.peerPkeyIdx = l.length % 32
  current : l.length ≤ 32 * peer.maxBlocks → ∀ i : Fin 32, i.val < l.length % 32 →
    s.newPeerBlock i = blockOf l (l.length / 32) i
  sent : ∀ b < s.peerBlockIdx, blockGet (tableAfter peer.blocks s.sends) b = some (blockOf l b)
  rest : ∀ b, s.peerBlockIdx ≤ b → blockGet (tableAfter peer.blocks s.sends) b = blockGet peer.blocks b

lemma packed_nil (stack : Block) : Packed peer [] ⟨stack, 0, 0, [], false⟩ where
  blockIdx := by simp
  exit := by simp
  pkeyIdx := fun _ => rfl
  current := fun _ i hi => absurd hi (Nat.not_lt_zero _)
  sent := fun b hb => absurd hb (Nat.not_lt_zero _)
  rest := fun _ _ => rfl

lemma blockOf_append (hb : 32 * b + 32 ≤ l.length) : blockOf (l ++ [p]) b = blockOf l b := by
  funext i
  have hi := i.isLt
  rw [blockOf, blockOf, List.getD_append _ _ _ _ (by omega)]

lemma Packed.sent_append (h : Packed peer l s) : ∀ b < s.peerBlockIdx,
    blockGet (tableAfter peer.blocks s.sends) b = some (blockOf (l ++ [p]) b) := by
  intro b hb
  have hidx := h.blockIdx
  rw [h.sent b hb, blockOf_append (by omega)]

lemma put_current (h : Packed peer l s) (hle : l.length ≤ 32 * peer.maxBlocks) (i : Fin 32)
    (hi : i.val ≤ l.length % 32) :
    s.newPeerBlock.put s.peerPkeyIdx p i = blockOf (l ++ [p]) (l.length / 32) i := by
  rw [Block.put, h.pkeyIdx hle, blockOf]
  split_ifs with hlast
  · have hpos : 32 * (l.length / 32) + i.val = l.length := by omega
    simp [hpos]
  · rw [h.current hle i (by omega), blockOf, List.getD_append _ _ _ _ (by omega)]

lemma packPkey_skip (hp : forPeer o t p = false) : packPkey o t peer s p = s := by
  simp only [forPeer, Bool.and_eq_false_iff, Bool.or_eq_false_iff, Bool.not_eq_false'] at hp
  rw [packPkey, newPkeyExists_eq, ← fullForm]
  split_ifs with hexit hinv hlim
  · rfl
  · rfl
  · rfl
  all_goals
    rcases hp with hp | ⟨hf, hp⟩
    · exact absurd hp hinv
    · exact absurd (by rw [hf, hp]; rfl) hlim

lemma packPkey_store (hp : forPeer o t p = true) (hexit : s.loopExit = false) :
    packPkey o t peer s p =
      let newPeerBlock := s.newPeerBlock.put s.peerPkeyIdx p
      if peer.maxBlocks ≤ s.peerBlockIdx then { s with newPeerBlock, loopExit := true }
      else if s.peerPkeyIdx + 1 = 32 then
        { s with
          newPeerBlock
          peerPkeyIdx := 0
          peerBlockIdx := s.peerBlockIdx + 1
          sends := s.sends ++ updatePeerBlock peer.blocks newPeerBlock s.peerBlockIdx }
      else { s with newPeerBlock, peerPkeyIdx := s.peerPkeyIdx + 1 } := by
  simp only [forPeer, Bool.and_eq_true, Bool.or_eq_true, Bool.not_eq_true'] at hp
  have hskip : ¬(!isFullMember o p && newPkeyExists t (p ||| typeMask o)) = true := by
    rw [newPkeyExists_eq, ← fullForm]
    rcases hp.2 with hf | hf
    · rw [hf]
      exact Bool.false_ne_true
    · rw [hf, Bool.and_false]
      exact Bool.false_ne_true
  rw [packPkey, if_neg (by simp [hexit]), if_neg (by simp [hp.1]), if_neg hskip]

lemma packed_store (h : Packed peer l s) (hp : forPeer o t p = true) :
    Packed peer (l ++ [p]) (packPkey o t peer s p) := by
  have hlen : (l ++ [p]).length = l.length + 1 := by simp
  have hidx := h.blockIdx
  cases hexit : s.loopExit with
  | true =>
    have hlong := h.exit.mp hexit
    rw [packPkey, if_pos hexit]
    refine ⟨?_, iff_of_true hexit (by omega), fun hle => by omega, fun hle => by omega, h.sent_append, h.rest⟩
    rw [hlen]
    omega
  | false =>
    have hle : l.length ≤ 32 * peer.maxBlocks := Nat.le_of_not_lt fun hlt => by simp [h.exit.mpr hlt] at hexit
    have hpk := h.pkeyIdx hle
    rw [packPkey_store hp hexit]
    dsimp only
    split_ifs with hmax hfull
    · -- All blocks of the switch port are full.
      refine ⟨?_, iff_of_true rfl (by omega), fun hle => by omega, fun hle => by omega, h.sent_append, h.rest⟩
      rw [hlen]
      dsimp only
      omega
    · have hb : s.peerBlockIdx = l.length / 32 := by omega
      have hnew : s.newPeerBlock.put s.peerPkeyIdx p = blockOf (l ++ [p]) s.peerBlockIdx := by
        funext i
        rw [hb, put_current h hle i (by omega)]
      have hafter := fun c =>
        @tableAfter_update peer.blocks s.sends s.peerBlockIdx c (s.newPeerBlock.put s.peerPkeyIdx p)
            (h.rest _ le_rfl)
      refine ⟨by dsimp only; omega, ?_, fun _ => by dsimp only; omega, fun _ i hi => by omega, fun c hc => ?_,
          fun c hc => ?_⟩
      · rw [hlen]
        exact iff_of_false (by simp [hexit]) (by omega)
      · rw [hafter, hnew]
        split_ifs with hcb
        · rw [hcb]
        · exact h.sent_append c (by dsimp only at hc; omega)
      · dsimp only at hc
        rw [hafter, if_neg (by omega)]
        exact h.rest c (by omega)
    · refine ⟨by dsimp only; omega, ?_, fun _ => by dsimp only; omega, fun _ i hi => ?_, h.sent_append, h.rest⟩
      · rw [hlen]
        exact iff_of_false (by simp [hexit]) (by omega)
      · rw [hlen] at hi ⊢
        have hdiv : (l.length + 1) / 32 = l.length / 32 := by omega
        rw [hdiv]
        exact put_current h hle i (by omega)

lemma packed_foldl (ps : List PKey) (h : Packed peer l s) :
    Packed peer (l ++ ps.filter (forPeer o t)) (ps.foldl (packPkey o t peer) s) := by
  induction ps generalizing l s with
  | nil => simpa using h
  | cons p ps ih =>
    cases hp : forPeer o t p with
    | false =>
      rw [List.foldl_cons, packPkey_skip hp, List.filter_cons_of_neg (by simp [hp])]
      exact ih h
    | true =>
      rw [List.foldl_cons, List.filter_cons_of_pos hp, List.append_cons]
      exact ih (packed_store h hp)

lemma packed_loop (stack : Block) : Packed peer (peerPkeys o t)
    ((entries (t.newBlocks.take t.usedBlocks)).foldl (packPkey o t peer) ⟨stack, 0, 0, [], false⟩) :=
  packed_foldl _ (packed_nil stack)

lemma Packed.table (h : Packed peer l s) (hlt : l.length < 32 * peer.maxBlocks) (hb : b < (l.length + 31) / 32) :
    blockGet (tableAfter peer.blocks (if s.peerPkeyIdx = 0 then s.sends else s.sends ++ updatePeerBlock peer.blocks
      (fun i => if i.val < s.peerPkeyIdx then s.newPeerBlock i else 0) s.peerBlockIdx))
          b = some (blockOf l b) := by
  have hidx := h.blockIdx
  have hpk := h.pkeyIdx hlt.le
  split_ifs with hzero
  · exact h.sent b (by omega)
  · rw [tableAfter_update (h.rest _ le_rfl)]
    split_ifs with hlast
    · have hdiv : b = l.length / 32 := by omega
      refine congrArg some (funext fun i => ?_)
      rw [hpk, hdiv]
      split_ifs with hi
      · exact h.current hlt.le i hi
      · rw [blockOf, List.getD_eq_default _ _ (by omega)]
    · exact h.sent b (by omega)

end Packing

section Enforcement

def enforced (peer : PeerPort) (r : PeerUpdate) : BitVec 8 := r.vlEnforce.getD peer.vlEnforce &&& 0xc#8

def HasBlocks (blocks : List (Option Block)) (l : List PKey) : Prop :=
  ∀ b < (l.length + 31) / 32, blockGet blocks b = some (blockOf l b)

/-- The switch port passes what the end port has, or everything where that does not fit. -/
structure Enforces (peer : PeerPort) (l : List PKey) (enforceType : EnforceType) (r : PeerUpdate) : Prop where
  fits : l.length ≤ peer.enforceCap.toNat →
    HasBlocks (tableAfter peer.blocks r.sends) l ∧ enforced peer r = portBits enforceType
  overflow : peer.enforceCap.toNat < l.length → enforced peer r = portBits .off

/-- The enforcement is on and the list is not one of those for which it comes out wrong, or it is off and there is
nothing to do. -/
def EnforceOk (partitionCap : BitVec 16) (peer : PeerPort) (l : List PKey) (enforceType : EnforceType) : Prop :=
  let beyond := beyondCap o partitionCap peer peer.maxBlocks (peer.maxBlocks - 1) = true
  if enforceType = .off then l.length ≤ peer.enforceCap.toNat → HasBlocks peer.blocks l
  else if l.length ≤ peer.enforceCap.toNat then
    l.length ≠ 32 * peer.maxBlocks ∧ ¬(32 * (peer.maxBlocks - 1) < l.length ∧ beyond)
  else 32 * peer.maxBlocks ≤ l.length ∨ beyond

variable {o} {partitionCap : BitVec 16} {t : NewTbl} {peer : PeerPort} {ty : EnforceType} {vl : BitVec 8}
  {l : List PKey} {s : Pack} {r : PeerUpdate}

lemma beyondCap_nil (hnew : peer.new.newBlocks = []) (used idx : ℕ) :
    beyondCap o partitionCap peer used idx = false := by
  simp [beyondCap, lastUsedPkeyIndex, blockGet, hnew]

lemma portBits_ne (hoff : ty ≠ .off) : portBits ty ≠ portBits .off := by
  cases ty with
  | off => exact absurd rfl hoff
  | both | inbound | outbound => decide

lemma enforcePartition_bits : (enforcePartition vl ty).getD vl &&& 0xc#8 = portBits ty := by
  rw [enforcePartition]
  split_ifs with hsame
  · exact hsame
  · have hbits : portBits ty &&& 0xc#8 = portBits ty := by cases ty <;> decide
    have hclear : ~~~0xc#8 &&& 0xc#8 = 0#8 := by decide
    rw [Option.getD_some, BitVec.and_or_distrib_right, BitVec.and_assoc, hclear, BitVec.and_zero, hbits,
        BitVec.zero_or]

lemma enforced_eq (h : r.vlEnforce = enforcePartition peer.vlEnforce ty) : enforced peer r = portBits ty := by
  rw [enforced, h, enforcePartition_bits]

lemma maxBlocks_bounds (hcap : peer.enforceCap ≠ 0) : 0 < peer.maxBlocks ∧ peer.maxBlocks ≤ 2048 ∧
    peer.enforceCap.toNat ≤ 32 * peer.maxBlocks ∧ 32 * (peer.maxBlocks - 1) < peer.enforceCap.toNat := by
  have hlt := peer.enforceCap.isLt
  have hpos : peer.enforceCap.toNat ≠ 0 := fun h => hcap (BitVec.eq_of_toNat_eq h)
  unfold PeerPort.maxBlocks
  omega

lemma finishPeer_full (h : Packed peer l s) (hlen : 32 * peer.maxBlocks ≤ l.length) :
    (finishPeer o partitionCap peer ty s).vlEnforce = enforcePartition peer.vlEnforce .off := by
  have hidx := h.blockIdx
  rw [finishPeer, if_neg (by omega)]

lemma finishPeer_lt (h : Packed peer l s) (hcap : peer.enforceCap ≠ 0) (hlen : l.length < 32 * peer.maxBlocks) :
    HasBlocks (tableAfter peer.blocks (finishPeer o partitionCap peer ty s).sends) l ∧
      (finishPeer o partitionCap peer ty s).vlEnforce = enforcePartition peer.vlEnforce
        (if 32 * (peer.maxBlocks - 1) < l.length ∧
          beyondCap o partitionCap peer peer.maxBlocks (peer.maxBlocks - 1) = true then .off else ty) := by
  have hidx := h.blockIdx
  have hpk := h.pkeyIdx hlen.le
  obtain ⟨hpos, hmax, -, -⟩ := maxBlocks_bounds hcap
  rw [finishPeer, if_pos (by omega)]
  dsimp only
  generalize hlast : (if s.peerPkeyIdx = 0 then (s.peerBlockIdx + 0xffff) % 2 ^ 16 else s.peerBlockIdx) = last
  have hused : (last + 1) % 2 ^ 16 = peer.maxBlocks ↔ 32 * (peer.maxBlocks - 1) < l.length := by
    split_ifs at hlast <;> omega
  have hlast' : (last + 1) % 2 ^ 16 = peer.maxBlocks → last = peer.maxBlocks - 1 := by
    split_ifs at hlast <;> omega
  refine ⟨fun b hb => h.table hlen hb, ?_⟩
  by_cases hu : (last + 1) % 2 ^ 16 = peer.maxBlocks
  · obtain rfl := hlast' hu
    simp only [hu, hused.mp hu, decide_true, Bool.true_and, true_and]
  · have hu' : ¬(32 * (peer.maxBlocks - 1) < l.length) := fun hlt => hu (hused.mpr hlt)
    simp only [hu, hu', decide_false, Bool.false_and, false_and, if_false, Bool.false_eq_true]

lemma enforces_of_le (hfit : l.length ≤ peer.enforceCap.toNat) : Enforces peer l ty r ↔
    HasBlocks (tableAfter peer.blocks r.sends) l ∧ enforced peer r = portBits ty :=
  ⟨fun h => h.fits hfit, fun h => ⟨fun _ => h, fun hlt => absurd hfit (Nat.not_le_of_lt hlt)⟩⟩

lemma enforces_of_lt (hlt : peer.enforceCap.toNat < l.length) : Enforces peer l ty r ↔
    enforced peer r = portBits .off :=
  ⟨fun h => h.overflow hlt, fun h => ⟨fun hfit => absurd hlt (Nat.not_lt_of_le hfit), fun _ => h⟩⟩

lemma finishPeer_fits (h : Packed peer l s) (hcap : peer.enforceCap ≠ 0) (hoff : ty ≠ .off)
    (hfit : l.length ≤ peer.enforceCap.toNat) : Enforces peer l ty (finishPeer o partitionCap peer ty s) ↔
      l.length ≠ 32 * peer.maxBlocks ∧ ¬(32 * (peer.maxBlocks - 1) < l.length ∧
        beyondCap o partitionCap peer peer.maxBlocks (peer.maxBlocks - 1) = true) := by
  obtain ⟨-, -, hle, -⟩ := maxBlocks_bounds hcap
  rw [enforces_of_le hfit]
  by_cases hfull : l.length = 32 * peer.maxBlocks
  · rw [enforced_eq (finishPeer_full h hfull.ge)]
    exact iff_of_false (fun hh => portBits_ne hoff hh.2.symm) fun hh => hh.1 hfull
  · obtain ⟨htable, hvl⟩ := finishPeer_lt (o := o) h hcap (by omega)
    rw [enforced_eq hvl]
    split_ifs with hbeyond
    · exact iff_of_false (fun hh => portBits_ne hoff hh.2.symm) fun hh => hh.2 hbeyond
    · exact iff_of_true ⟨htable, rfl⟩ ⟨hfull, hbeyond⟩

lemma finishPeer_overflow (h : Packed peer l s) (hcap : peer.enforceCap ≠ 0) (hoff : ty ≠ .off)
    (hlt : peer.enforceCap.toNat < l.length) : Enforces peer l ty (finishPeer o partitionCap peer ty s) ↔
      32 * peer.maxBlocks ≤ l.length ∨
          beyondCap o partitionCap peer peer.maxBlocks (peer.maxBlocks - 1) = true := by
  obtain ⟨-, -, -, hgt⟩ := maxBlocks_bounds hcap
  rw [enforces_of_lt hlt]
  by_cases hfull : 32 * peer.maxBlocks ≤ l.length
  · exact iff_of_true (enforced_eq (finishPeer_full h hfull)) (.inl hfull)
  · obtain ⟨-, hvl⟩ := finishPeer_lt (o := o) h hcap (by omega)
    rw [enforced_eq hvl]
    split_ifs with hbeyond
    · exact iff_of_true rfl (.inr hbeyond.2)
    · exact iff_of_false (portBits_ne hoff) fun hh => hh.elim hfull fun hb => hbeyond ⟨by omega, hb⟩

/-- Exactly when the switch port gets the P_Keys of the end port and the enforcement that they fit. -/
theorem updatePeerPort_enforces (stack : Block) (hcap : peer.enforceCap ≠ 0) :
    Enforces peer (peerPkeys o t) ty (updatePeerPort o stack partitionCap t peer ty) ↔
      EnforceOk o partitionCap peer (peerPkeys o t) ty := by
  have hp := @packed_loop o t peer stack
  rw [updatePeerPort, if_neg hcap, EnforceOk]
  split_ifs with hoff hfit
  · subst hoff
    have hbits := @enforced_eq peer .off ⟨[], peer.new.usedBlocks, enforcePartition peer.vlEnforce .off, 0⟩ rfl
    exact ⟨fun h hfit => (h.fits hfit).1, fun h => ⟨fun hfit => ⟨h hfit, hbits⟩, fun _ => hbits⟩⟩
  · exact finishPeer_fits hp hcap hoff hfit
  · exact finishPeer_overflow hp hcap hoff (Nat.lt_of_not_le hfit)

def NewTbl.empty : NewTbl := ⟨[], by decide, 0, 0⟩

def switchPort (enforceCap : BitVec 16) : PeerPort := ⟨[], .empty, enforceCap, 0⟩

def twoPkeys : NewTbl :=
    ⟨[some fun i => if i.val = 0 then 0xffff#16 else if i.val = 1 then 0x180#16 else 0], by decide, 1, 1⟩

/-- Two P_Keys on a switch that enforces two. -/
theorem updatePeerPort_enforces_two : Enforces (switchPort 2) (peerPkeys .little twoPkeys) .both
    (updatePeerPort .little (fun _ => 0) 32 twoPkeys (switchPort 2) .both) := by
  refine (updatePeerPort_enforces (fun _ => 0) (by decide)).mpr ?_
  have hlen : (peerPkeys .little twoPkeys).length = 2 := by decide +kernel
  rw [EnforceOk, if_neg nofun, hlen, if_pos (by decide), beyondCap_nil rfl]
  exact ⟨by decide, by decide⟩

def fullBlock : NewTbl := ⟨[some fun i => BitVec.ofNat 16 (i.val * 256 + 1)], by decide, 1, 1⟩

/-- With room for one P_Key the switch drops the second one, and 32 that fill its block are not enforced. -/
theorem updatePeerPort_not_enforces :
    ¬Enforces (switchPort 1) (peerPkeys .little twoPkeys) .both
      (updatePeerPort .little (fun _ => 0) 32 twoPkeys (switchPort 1) .both) ∧
    ¬Enforces (switchPort 32) (peerPkeys .little fullBlock) .both
      (updatePeerPort .little (fun _ => 0) 32 fullBlock (switchPort 32) .both) := by
  have hone : (switchPort 1).enforceCap.toNat < (peerPkeys .little twoPkeys).length ∧
      enforced (switchPort 1) (updatePeerPort .little (fun _ => 0) 32 twoPkeys (switchPort 1) .both) ≠
          portBits .off := by
    decide +kernel
  have hfull : (peerPkeys .little fullBlock).length ≤ (switchPort 32).enforceCap.toNat ∧
      enforced (switchPort 32) (updatePeerPort .little (fun _ => 0) 32 fullBlock (switchPort 32) .both) ≠
          portBits .both := by
    decide +kernel
  exact ⟨fun h => hone.2 (h.overflow hone.1), fun h => hfull.2 (h.fits hfull.1).2⟩

end Enforcement

end OpenSM.Pkey
