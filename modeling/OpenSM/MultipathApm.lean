import OpenSM.MultipathRecord

/-! `mpr_rcv_get_apm_paths`: two paths between two sources and two destinations, for automatic path migration. -/

namespace OpenSM.SaPath

section Lids

variable {N : Type}

/-- What the query reads of LIDs: those of the ports, in host order, and `opt.lmc`. All are unicast LIDs. -/
structure Lids (N : Type) where
  baseLid : Physp N → ℕ
  lmc : Physp N → ℕ
  optLmc : ℕ
  le : ∀ p, baseLid p + 2 ^ lmc p ≤ 0xC000

def Lids.maxLid (L : Lids N) (p : Physp N) : ℕ := L.baseLid p + 2 ^ L.lmc p - 1

/-- `src_lids` and `dest_lids`. -/
def Lids.count (L : Lids N) (p : Physp N) : ℕ := L.maxLid p - L.baseLid p + 1

lemma Lids.maxLid_lt_iff (L : Lids N) (p : Physp N) (o : ℕ) :
    L.maxLid p < L.baseLid p + o + 1 ↔ L.count p ≤ o + 1 := by
  have hpos := Nat.two_pow_pos (L.lmc p)
  rw [Lids.count, Lids.maxLid]
  omega

lemma Lids.next (L : Lids N) (p : Physp N) (o : ℕ) :
    (if L.maxLid p < L.baseLid p + o % L.count p + 1 then L.baseLid p else L.baseLid p + o % L.count p + 1) =
      L.baseLid p + (o + 1) % L.count p := by
  have hlt : o % L.count p < L.count p := Nat.mod_lt o (Nat.succ_pos _)
  rw [← Nat.mod_add_mod o (L.count p) 1]
  split_ifs with hmax
  · rw [L.maxLid_lt_iff] at hmax
    have hround : o % L.count p + 1 = L.count p := Nat.le_antisymm hlt hmax
    rw [hround, Nat.mod_self, Nat.add_zero]
  · rw [L.maxLid_lt_iff, not_le] at hmax
    rw [Nat.mod_eq_of_lt hmax, Nat.add_assoc]

end Lids

section Paths

variable {N : Type} [DecidableEq N]

/-- Base LIDs are hashed in network order, here as a little-endian host sees them. -/
def hton16 (x : ℕ) : ℕ := x % 256 * 256 + x / 256

def hashLids (a b lmc : ℕ) : ℕ := ((a >>> lmc) <<< 4 ||| b >>> lmc) % 103

structure MprItem where
  pathRec : PathRec
  hops : ℕ

variable (s : Subn N)

def mprLinks (lid left : ℕ) (dest p : Physp N) : ℕ :=
  if p = dest then 0
  else
    match s.remote p, left with
    | some q, left + 1 =>
      if q = dest then 1
      else
        match switchGetRouteByLid s q.node lid with
        | some e => mprLinks lid left dest e + 1
        | none => 1
    | _, _ => 0

def mprHops (src dest : AliasGuid s) (dlid : ℕ) : ℕ :=
  match routedPort s src.basePort dlid, routedPort s dest.basePort dlid with
  | .ok p, .ok d => mprLinks s dlid maxHops d p
  | _, _ => 0

def mprItem (req : Req) (src dest : AliasGuid s) (slid dlid : ℕ) : Option MprItem :=
  (mprRcvGetLidPairPath s req src dest slid dlid 0).map fun r => ⟨r, mprHops s src dest dlid⟩

/-- The loop of `mpr_rcv_get_apm_port_pair_paths`: both LIDs go round in their ranges. -/
def apmLoop (path : ℕ → ℕ → Option MprItem) (srcMin srcMax destMin destMax : ℕ) : ℕ → ℕ → ℕ → Option MprItem
  | 0, _, _ => none
  | iterations + 1, slid, dlid =>
    match path slid dlid with
    | some r => some r
    | none =>
      apmLoop path srcMin srcMax destMin destMax iterations (if srcMax < slid + 1 then srcMin else slid + 1)
        (if destMax < dlid + 1 then destMin else dlid + 1)

variable (L : Lids N) (req : Req)

def mprRcvGetApmPortPairPaths (src dest : AliasGuid s) (baseOffs : ℕ) : Option MprItem :=
  let srcLids := L.count src.basePort
  let destLids := L.count dest.basePort
  let srcMin := L.baseLid src.basePort
  let destMin := L.baseLid dest.basePort
  apmLoop (mprItem s req src dest) srcMin (L.maxLid src.basePort) destMin (L.maxLid dest.basePort)
    (min srcLids destLids) (srcMin + baseOffs % srcLids) (destMin + baseOffs % destLids)

variable {s}

/-- Two aliases of different ports, which have different GUIDs. -/
structure Side (s : Subn N) where
  fst : AliasGuid s
  snd : AliasGuid s
  guid_ne : s.portGuid fst.basePort ≠ s.portGuid snd.basePort
  alias_ne : fst.aliasGuid ≠ snd.aliasGuid

def Side.swap (S : Side s) : Side s := ⟨S.snd, S.fst, S.guid_ne.symm, S.alias_ne.symm⟩

def Side.sort (S : Side s) : Side s :=
  if s.portGuid S.fst.basePort < s.portGuid S.snd.basePort then S else S.swap

def apmBaseOffs (S D : Side s) : ℕ :=
  let srcLid := hton16 (L.baseLid S.fst.basePort)
  let destLid := hton16 (L.baseLid D.fst.basePort)
  if srcLid < destLid then hashLids srcLid destLid L.optLmc else hashLids destLid srcLid L.optLmc

structure ApmMatrix where
  m00 : Option MprItem
  m01 : Option MprItem
  m10 : Option MprItem
  m11 : Option MprItem

def apmMatrix (S D : Side s) : ApmMatrix :=
  let baseOffs := apmBaseOffs L S D
  ⟨mprRcvGetApmPortPairPaths s L req S.fst D.fst baseOffs, mprRcvGetApmPortPairPaths s L req S.fst D.snd baseOffs,
    mprRcvGetApmPortPairPaths s L req S.snd D.fst (baseOffs + 1),
    mprRcvGetApmPortPairPaths s L req S.snd D.snd (baseOffs + 1)⟩

def diagMin (x y : Option MprItem) : ℕ :=
  let m := (x.map MprItem.hops).getD 0
  match y with
  | none => m
  | some y => if m ≠ 0 then min m y.hops else y.hops

def diagSum (x y : Option MprItem) : ℕ := (x.map MprItem.hops).getD 0 + (y.map MprItem.hops).getD 0

namespace ApmMatrix

variable (m : ApmMatrix)

def minA : ℕ := diagMin m.m00 m.m11
def minB : ℕ := diagMin m.m01 m.m10
def sumA : ℕ := diagSum m.m00 m.m11
def sumB : ℕ := diagSum m.m01 m.m10
def diagA : List MprItem := m.m00.toList ++ m.m11.toList
def diagB : List MprItem := m.m01.toList ++ m.m10.toList

def choosesA : Prop := m.minA ≤ m.minB ∨ m.minA = m.minB ∧ m.sumA < m.sumB

instance : Decidable m.choosesA := inferInstanceAs (Decidable (_ ∨ _))

lemma choosesA_iff : m.choosesA ↔ m.minA ≤ m.minB := or_iff_left_of_imp fun h => h.1.le

def chosen : List MprItem := if m.choosesA then m.diagA else m.diagB
def discarded : List MprItem := if m.choosesA then m.diagB else m.diagA

end ApmMatrix

def mprRcvGetApmPaths (S D : Side s) : List MprItem := (apmMatrix L req S.sort D.sort).chosen

end Paths

section Search

variable {N : Type} [DecidableEq N] {s : Subn N} (L : Lids N) (req : Req)

def apmStop (src dest : AliasGuid s) (o : ℕ) : Option ℕ :=
  (List.range' o (min (L.count src.basePort) (L.count dest.basePort))).find? fun k =>
    (mprItem s req src dest (L.baseLid src.basePort + k % L.count src.basePort)
      (L.baseLid dest.basePort + k % L.count dest.basePort)).isSome

omit [DecidableEq N] in
lemma apmLoop_eq (path : ℕ → ℕ → Option MprItem) (p q : Physp N) (iterations o : ℕ) :
    apmLoop path (L.baseLid p) (L.maxLid p) (L.baseLid q) (L.maxLid q) iterations (L.baseLid p + o % L.count p)
        (L.baseLid q + o % L.count q) =
      ((List.range' o iterations).find? fun k =>
        (path (L.baseLid p + k % L.count p) (L.baseLid q + k % L.count q)).isSome).bind fun k =>
          path (L.baseLid p + k % L.count p) (L.baseLid q + k % L.count q) := by
  induction iterations generalizing o with
  | zero => rfl
  | succ iterations ih =>
    rw [apmLoop, List.range'_succ, List.find?_cons, L.next, L.next, ih]
    cases hpath : path (L.baseLid p + o % L.count p) (L.baseLid q + o % L.count q) with
    | none => rfl
    | some r => exact hpath.symm

lemma mprRcvGetApmPortPairPaths_eq (src dest : AliasGuid s) (o : ℕ) :
    mprRcvGetApmPortPairPaths s L req src dest o = (apmStop L req src dest o).bind fun k =>
      mprItem s req src dest (L.baseLid src.basePort + k % L.count src.basePort)
        (L.baseLid dest.basePort + k % L.count dest.basePort) :=
  apmLoop_eq L _ src.basePort dest.basePort _ o

end Search

section Ends

variable {N : Type} [DecidableEq N] {s : Subn N}

def MprItem.ends (r : MprItem) : (ℕ × ℕ) × ℕ × ℕ :=
  ((r.pathRec.sgid.interfaceId, r.pathRec.slid), r.pathRec.dgid.interfaceId, r.pathRec.dlid)

lemma mprItem_ends {req : Req} {src dest : AliasGuid s} {slid dlid : ℕ} {r : MprItem}
    (h : mprItem s req src dest slid dlid = some r) : r.ends = ((src.aliasGuid, slid), dest.aliasGuid, dlid) := by
  obtain ⟨rec, hrec, rfl⟩ := Option.map_eq_some_iff.mp h
  rw [mprRcvGetLidPairPath] at hrec
  split at hrec
  · cases hrec
  · dsimp only at hrec
    split_ifs at hrec
    rw [← Option.some.inj hrec]
    rfl

variable (L : Lids N) (req : Req)

def apmEnds (src dest : AliasGuid s) (o : ℕ) : Option ((ℕ × ℕ) × ℕ × ℕ) :=
  (apmStop L req src dest o).map fun k =>
    ((src.aliasGuid, L.baseLid src.basePort + k % L.count src.basePort), dest.aliasGuid,
      L.baseLid dest.basePort + k % L.count dest.basePort)

lemma map_ends (src dest : AliasGuid s) (o : ℕ) :
    (mprRcvGetApmPortPairPaths s L req src dest o).map MprItem.ends = apmEnds L req src dest o := by
  rw [mprRcvGetApmPortPairPaths_eq, apmEnds]
  cases hstop : apmStop L req src dest o with
  | none => rfl
  | some k =>
    have hsome := List.find?_some hstop
    obtain ⟨r, hr⟩ := Option.isSome_iff_exists.mp hsome
    rw [Option.bind_some, hr, Option.map_some, Option.map_some, mprItem_ends hr]

lemma apmEnds_key {src dest : AliasGuid s} {o : ℕ} {e : (ℕ × ℕ) × ℕ × ℕ} (h : e ∈ apmEnds L req src dest o) :
    (e.1.1, e.2.1) = (src.aliasGuid, dest.aliasGuid) := by
  obtain ⟨k, -, rfl⟩ := Option.map_eq_some_iff.mp h
  rfl

/-- The searches in the two directions stop at the same LIDs of both ranges, or neither finds a path. -/
def SameStop (src dest : AliasGuid s) (o o' : ℕ) : Prop :=
  (apmStop L req src dest o).map (fun k => (k % L.count src.basePort, k % L.count dest.basePort)) =
    (apmStop L req dest src o').map fun k => (k % L.count src.basePort, k % L.count dest.basePort)

lemma apmEnds_eq_iff (src dest : AliasGuid s) (o o' : ℕ) :
    apmEnds L req src dest o = (apmEnds L req dest src o').map Prod.swap ↔ SameStop L req src dest o o' := by
  rw [apmEnds, apmEnds, SameStop]
  cases apmStop L req src dest o with
  | none => cases apmStop L req dest src o' <;> simp
  | some k =>
    cases apmStop L req dest src o' with
    | none => simp
    | some k' => simp

end Ends

section Options

variable {α β : Type} {key : α → β} {a b : β} {x y x' y' : Option α}

lemma mem_append_iff (hx : ∀ e ∈ x, key e = a) (hx' : ∀ e ∈ x', key e = a) (hy : ∀ e ∈ y, key e = b)
    (hy' : ∀ e ∈ y', key e = b) (hab : a ≠ b) :
    (∀ e, e ∈ x.toList ++ y.toList ↔ e ∈ x'.toList ++ y'.toList) ↔ x = x' ∧ y = y' := by
  simp only [List.mem_append, Option.mem_toList]
  constructor
  · intro h
    constructor
    · ext e
      constructor
      · intro he
        exact ((h e).mp (.inl he)).resolve_right fun hb => hab ((hx e he).symm.trans (hy' e hb))
      · intro he
        exact ((h e).mpr (.inl he)).resolve_right fun hb => hab ((hx' e he).symm.trans (hy e hb))
    · ext e
      constructor
      · intro he
        exact ((h e).mp (.inr he)).resolve_left fun ha => hab ((hx' e ha).symm.trans (hy e he))
      · intro he
        exact ((h e).mpr (.inr he)).resolve_left fun ha => hab ((hx e ha).symm.trans (hy' e he))
  · rintro ⟨rfl, rfl⟩ e
    exact Iff.rfl

lemma mem_append_iff_of_apart (h : ∀ e f, (e ∈ x ∨ e ∈ y) → (f ∈ x' ∨ f ∈ y') → e ≠ f) :
    (∀ e, e ∈ x.toList ++ y.toList ↔ e ∈ x'.toList ++ y'.toList) ↔
      (x = none ∧ y = none) ∧ x' = none ∧ y' = none := by
  simp only [List.mem_append, Option.mem_toList, Option.eq_none_iff_forall_not_mem]
  constructor
  · intro hiff
    have hleft : ∀ e, ¬(e ∈ x ∨ e ∈ y) := fun e he => h e e he ((hiff e).mp he) rfl
    have hright : ∀ e, ¬(e ∈ x' ∨ e ∈ y') := fun e he => hleft e ((hiff e).mpr he)
    exact ⟨⟨fun e he => hleft e (.inl he), fun e he => hleft e (.inr he)⟩,
      fun e he => hright e (.inl he), fun e he => hright e (.inr he)⟩
  · rintro ⟨⟨hx, hy⟩, hx', hy'⟩ e
    exact ⟨fun he => (he.elim (hx e) (hy e)).elim, fun he => (he.elim (hx' e) (hy' e)).elim⟩

end Options

section Results

variable {N : Type} [DecidableEq N] {s : Subn N} (L : Lids N) (req : Req) (S D : Side s)

/-- The records run between the same ports with the same LIDs, in the other direction. -/
def SameEnds (l l' : List MprItem) : Prop :=
  ∀ e, e ∈ l.map MprItem.ends ↔ e ∈ l'.map fun r => r.ends.swap

def NoPathA : Prop :=
  apmStop L req S.fst D.fst (apmBaseOffs L S D) = none ∧ apmStop L req S.snd D.snd (apmBaseOffs L S D + 1) = none

def NoPathB : Prop :=
  apmStop L req S.fst D.snd (apmBaseOffs L S D) = none ∧ apmStop L req S.snd D.fst (apmBaseOffs L S D + 1) = none

/-- What makes the two directions alike. On diagonal B the searches of a pair of ports start one offset apart. -/
def ApmAlike : Prop :=
  let o := apmBaseOffs L S D
  if (apmMatrix L req S D).choosesA then
    if (apmMatrix L req D S).choosesA then
      SameStop L req S.fst D.fst o o ∧ SameStop L req S.snd D.snd (o + 1) (o + 1)
    else NoPathA L req S D ∧ NoPathB L req D S
  else
    if (apmMatrix L req D S).choosesA then NoPathB L req S D ∧ NoPathA L req D S
    else SameStop L req S.fst D.snd o (o + 1) ∧ SameStop L req S.snd D.fst (o + 1) o

/-- The diagonal with more paths has the smaller minimum, where the minimum of no paths is zero. -/
def ApmMatrix.Counted (m : ApmMatrix) : Prop :=
  (m.diagA.length < m.diagB.length → m.minB < m.minA) ∧ (m.diagB.length < m.diagA.length → m.minA ≤ m.minB)

lemma ApmMatrix.counted_iff (m : ApmMatrix) : m.discarded.length ≤ m.chosen.length ↔ m.Counted := by
  rw [ApmMatrix.discarded, ApmMatrix.chosen, ApmMatrix.Counted]
  split_ifs with hA
  · rw [m.choosesA_iff] at hA
    exact ⟨fun h => ⟨fun hlt => absurd hlt h.not_gt, fun _ => hA⟩,
        fun h => not_lt.mp fun hlt => (h.1 hlt).not_ge hA⟩
  · rw [m.choosesA_iff] at hA
    exact ⟨fun h => ⟨fun _ => not_le.mp hA, fun hlt => absurd hlt h.not_gt⟩,
        fun h => not_lt.mp fun hlt => hA (h.2 hlt)⟩

omit [DecidableEq N] in
lemma apmBaseOffs_comm : apmBaseOffs L S D = apmBaseOffs L D S := by
  rw [apmBaseOffs, apmBaseOffs]
  split_ifs with h h' h'
  · exact absurd h' h.asymm
  · rfl
  · rfl
  · rw [le_antisymm (not_lt.mp h) (not_lt.mp h')]

omit [DecidableEq N] in
lemma sort_swap : S.swap.sort = S.sort := by
  rw [Side.sort, Side.sort]
  split_ifs with h h' h'
  · exact absurd h' h.asymm
  · rfl
  · rfl
  · exact absurd (le_antisymm (not_lt.mp h) (not_lt.mp h')) S.guid_ne

lemma map_toList_append {α β : Type} (f : α → β) (x y : Option α) :
    (x.toList ++ y.toList).map f = (x.map f).toList ++ (y.map f).toList := by
  cases x <;> cases y <;> rfl

variable {L req S D}

lemma map_ends_swap (src dest : AliasGuid s) (o : ℕ) :
    (mprRcvGetApmPortPairPaths s L req src dest o).map (fun r => r.ends.swap) =
      (apmEnds L req src dest o).map Prod.swap := by
  rw [← map_ends, Option.map_map]
  rfl

lemma apmEnds_swap_key {src dest : AliasGuid s} {o : ℕ} {e : (ℕ × ℕ) × ℕ × ℕ}
    (h : e ∈ (apmEnds L req src dest o).map Prod.swap) : (e.1.1, e.2.1) = (dest.aliasGuid, src.aliasGuid) := by
  obtain ⟨e', he', rfl⟩ := Option.map_eq_some_iff.mp h
  exact congrArg Prod.swap (apmEnds_key L req he')

omit [DecidableEq N] in
lemma Side.apart (S D : Side s) {e f : (ℕ × ℕ) × ℕ × ℕ}
    (he : (e.1.1, e.2.1) = (S.fst.aliasGuid, D.fst.aliasGuid) ∨
    (e.1.1, e.2.1) = (S.snd.aliasGuid, D.snd.aliasGuid))
    (hf : (f.1.1, f.2.1) = (S.snd.aliasGuid, D.fst.aliasGuid) ∨
    (f.1.1, f.2.1) = (S.fst.aliasGuid, D.snd.aliasGuid)) :
    e ≠ f := by
  rintro rfl
  rcases he with he | he <;> rcases hf with hf | hf <;> have h := Prod.ext_iff.mp (he.symm.trans hf)
  · exact S.alias_ne h.1
  · exact D.alias_ne h.2
  · exact D.alias_ne h.2.symm
  · exact S.alias_ne h.1.symm

def pairOf (e : (ℕ × ℕ) × ℕ × ℕ) : ℕ × ℕ := (e.1.1, e.2.1)

lemma exchange_iff : SameEnds (apmMatrix L req S D).chosen (apmMatrix L req D S).chosen ↔ ApmAlike L req S D := by
  have hstop : ∀ (src dest : AliasGuid s) o, apmEnds L req src dest o = none ↔ apmStop L req src dest o = none :=
    fun src dest o => Option.map_eq_none_iff
  have hback : ∀ (src dest : AliasGuid s) o, (apmEnds L req src dest o).map Prod.swap = none ↔
      apmStop L req src dest o = none := fun src dest o => Option.map_eq_none_iff.trans (hstop src dest o)
  rw [SameEnds, ApmAlike, ApmMatrix.chosen, ApmMatrix.chosen]
  split_ifs with hA hA' hA'
  · rw [← apmEnds_eq_iff, ← apmEnds_eq_iff, ApmMatrix.diagA, ApmMatrix.diagA, map_toList_append, map_toList_append]
    simp only [apmMatrix, map_ends, map_ends_swap, apmBaseOffs_comm L D S]
    exact @mem_append_iff _ _ pairOf _ _ _ _ _ _ (fun _ => apmEnds_key L req) (fun _ => apmEnds_swap_key)
      (fun _ => apmEnds_key L req) (fun _ => apmEnds_swap_key) fun h => S.alias_ne (Prod.ext_iff.mp h).1
  · rw [NoPathA, NoPathB, ApmMatrix.diagA, ApmMatrix.diagB, map_toList_append, map_toList_append]
    simp only [apmMatrix, map_ends, map_ends_swap, apmBaseOffs_comm L D S]
    rw [mem_append_iff_of_apart, hstop, hstop, hback, hback]
    intro e f he hf
    exact S.apart D (he.imp (apmEnds_key L req) (apmEnds_key L req)) (hf.imp apmEnds_swap_key apmEnds_swap_key)
  · rw [NoPathA, NoPathB, ApmMatrix.diagA, ApmMatrix.diagB, map_toList_append, map_toList_append]
    simp only [apmMatrix, map_ends, map_ends_swap, apmBaseOffs_comm L D S]
    rw [mem_append_iff_of_apart, hstop, hstop, hback, hback]
    intro e f he hf
    exact (S.apart D (hf.imp apmEnds_swap_key apmEnds_swap_key)
      (he.symm.imp (apmEnds_key L req) (apmEnds_key L req))).symm
  · rw [← apmEnds_eq_iff, ← apmEnds_eq_iff, ApmMatrix.diagB, ApmMatrix.diagB, map_toList_append, map_toList_append]
    have hcomm : ∀ (x y : Option ((ℕ × ℕ) × ℕ × ℕ)) e, e ∈ x.toList ++ y.toList ↔ e ∈ y.toList ++ x.toList :=
      fun x y e => by rw [List.mem_append, List.mem_append, or_comm]
    simp only [apmMatrix, map_ends, map_ends_swap, apmBaseOffs_comm L D S]
    -- the second path of the one direction joins the ports of the first path of the other
    simp only [hcomm ((apmEnds L req D.fst S.snd _).map Prod.swap)]
    exact @mem_append_iff _ _ pairOf _ _ _ _ _ _ (fun _ => apmEnds_key L req) (fun _ => apmEnds_swap_key)
      (fun _ => apmEnds_key L req) (fun _ => apmEnds_swap_key) fun h => S.alias_ne (Prod.ext_iff.mp h).1

/-- The order of the sources and of the destinations does not matter. Exchanging them leads to the same paths,
and the diagonal with more paths is taken, if and only if the two directions are alike and the minima point to
it. -/
theorem apm_paths_iff (L : Lids N) (req : Req) (S D : Side s) :
    (mprRcvGetApmPaths L req S.swap D = mprRcvGetApmPaths L req S D ∧
      mprRcvGetApmPaths L req S D.swap = mprRcvGetApmPaths L req S D) ∧
    (SameEnds (mprRcvGetApmPaths L req S D) (mprRcvGetApmPaths L req D S) ∧
        (apmMatrix L req S.sort D.sort).discarded.length ≤ (mprRcvGetApmPaths L req S D).length ↔
      ApmAlike L req S.sort D.sort ∧ (apmMatrix L req S.sort D.sort).Counted) := by
  refine ⟨⟨?_, ?_⟩, and_congr exchange_iff (ApmMatrix.counted_iff _)⟩
  · rw [mprRcvGetApmPaths, sort_swap, mprRcvGetApmPaths]
  · rw [mprRcvGetApmPaths, sort_swap, mprRcvGetApmPaths]

end Results

section Cross

def crossRemote (p : Physp ℕ) : Option (Physp ℕ) :=
  if p.node = 0 then if 0 < p.portNum ∧ p.portNum ≤ 4 then some ⟨p.portNum, 1⟩ else none
  else if p.portNum = 1 ∧ p.node ≤ 4 then some ⟨0, p.node⟩ else none

lemma crossRemote_port0 (p q : Physp ℕ) (h : crossRemote p = some q)
    (hsw : (if q.node = 0 then some (⟨4, id⟩ : Switch) else none).isSome) : q.portNum ≠ 0 := by
  rw [crossRemote] at h
  split_ifs at h with h0 hp hp
  · obtain rfl := Option.some.inj h
    exact one_ne_zero
  · obtain rfl := Option.some.inj h
    exact h0

/-- Four CAs, LIDs 1 to 4, on the ports of a switch. Nodes 1 and 4 share a P_Key, and so do nodes 2 and 3. -/
def cross : Subn ℕ where
  sw n := if n = 0 then some ⟨4, id⟩ else none
  nodeType _ := 0
  deviceId _ := 0
  vendorId _ := 0
  valid _ := true
  portInfo _ := sdr 4
  remote := crossRemote
  slvlByPort _ _ := ⟨fun _ => 0⟩
  pkeys p := if p.node = 1 ∨ p.node = 4 then [(1, 0x8001)] else [(2, 0x8002)]
  portGuid p := p.node
  subnetPrefix _ := 0
  portByLid _ := none
  prtnSl _ := some 0
  nilSl := 0
  qosPolicy := none
  pathSl := none
  opt := ⟨false, false, false, 18, saRateMaxEnum⟩
  remote_port0 := crossRemote_port0

def crossCa (n : ℕ) (hn : n ≠ 0) : AliasGuid cross := ⟨n, ⟨n, 1⟩, fun h => absurd h (by simp [cross, hn])⟩

def crossSide (n : ℕ) (hn : n ≠ 0) : Side cross :=
  ⟨crossCa n hn, crossCa (n + 1) n.succ_ne_zero, n.succ_ne_self.symm, n.succ_ne_self.symm⟩

def crossLids : Lids ℕ := ⟨fun p => if p.node ≤ 4 then p.node else 0, fun _ => 0, 0,
    fun p => by split_ifs <;> omega⟩

/-- Both paths of diagonal B are there, and nothing is returned: the minimum of no paths is zero. -/
theorem cross_returns_nothing :
    mprRcvGetApmPaths crossLids anyMultipath.req (crossSide 1 one_ne_zero) (crossSide 3 three_ne_zero) = [] ∧
    ¬(apmMatrix crossLids anyMultipath.req (crossSide 1 one_ne_zero).sort
        (crossSide 3 three_ne_zero).sort).discarded.length ≤
      (mprRcvGetApmPaths crossLids anyMultipath.req (crossSide 1 one_ne_zero)
          (crossSide 3 three_ne_zero)).length := by
  have hlength : ((apmMatrix crossLids anyMultipath.req (crossSide 1 one_ne_zero).sort
      (crossSide 3 three_ne_zero).sort).discarded).length = 2 := by decide +kernel
  have hnil : (mprRcvGetApmPaths crossLids anyMultipath.req (crossSide 1 one_ne_zero)
      (crossSide 3 three_ne_zero)).length = 0 := by decide +kernel
  refine ⟨List.length_eq_zero_iff.mp hnil, ?_⟩
  rw [hlength, hnil]
  decide

end Cross

end OpenSM.SaPath
