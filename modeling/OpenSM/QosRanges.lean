import OpenSM.Lib.Intervals

/-! The number ranges of the QoS policy file: how the parser sorts and reduces them, and the search in the
result. -/

namespace OpenSM.QosRanges

open Lib.Intervals

abbrev Range := UInt64 × UInt64

def Range.nat (r : Range) : ℕ × ℕ := (r.1.toNat, r.2.toNat)

/-- A number or a range in a `list_of_ranges`. -/
inductive Item
  | number (v : UInt64)
  | range (v w : UInt64)

/-- The pair that the grammar's actions put into `num_pair_list`. -/
def Item.pair : Item → Range
  | .number v => (v, v)
  | .range v w => if v ≤ w then (v, w) else (w, v)

def cmpNumRange (p q : Range) : ℤ :=
  if p.1 < q.1 then -1
  else if p.1 > q.1 then 1
  else if p.2 < q.2 then -1
  else if p.2 > q.2 then 1
  else 0

def qsort (arr : List Range) : List Range := arr.mergeSort fun p q => decide (cmpNumRange p q ≤ 0)

/-- The local variables of `__sort_reduce_rangearr`; a pair that has been freed is `none`. -/
structure Reduce where
  arr : List (Option Range)
  isValidArr : List Bool
  lastValidInd : ℕ
  validCnt : ℕ

/-- A round of its first loop; `none` if it reads outside the array or through a null pointer. -/
def Reduce.step (z : Reduce) (i : ℕ) : Option Reduce := do
  let p ← z.arr[i]?.join
  let last ← z.arr[z.lastValidInd]?.join
  if p.1 ≤ last.2 then
    let arr := if p.2 > last.2 then z.arr.set z.lastValidInd (some (last.1, p.2)) else z.arr
    some { z with arr := arr.set i none, isValidArr := z.isValidArr.set i false }
  else if p.1 - 1 = last.2 then
    some { z with
      arr := (z.arr.set z.lastValidInd (some (last.1, p.2))).set i none, isValidArr := z.isValidArr.set i false }
  else some { z with isValidArr := z.isValidArr.set i true, lastValidInd := i, validCnt := z.validCnt + 1 }

def Reduce.valid (z : Reduce) : List (Option Range) := ((z.arr.zip z.isValidArr).filter Prod.snd).map Prod.fst

/-- `none` for an access outside an array, also one of `res_arr` with its `valid_cnt` places. -/
def sortReduceRangearr (arr : List Range) : Option (List Range) := do
  let arr := qsort arr
  if arr = [] then none
  else
    let z ← (List.range' 1 (arr.length - 1)).foldlM Reduce.step
      ⟨arr.map some, true :: List.replicate (arr.length - 1) false, 0, 1⟩
    if z.valid.length = z.validCnt then z.valid.mapM id else none

def rangelist2rangearr (l : List Range) : Option (List Range) := sortReduceRangearr l

def pkeyPair (p : Range) : Range :=
  let p := (p.1 &&& 0x7fff, p.2 &&& 0x7fff)
  if p.1 > p.2 then (p.2, p.1) else p

def pkeyRangelist2rangearr (l : List Range) : Option (List Range) := rangelist2rangearr (l.map pkeyPair)

def mergeRangearr (arr arr' : List Range) : Option (List Range) := sortReduceRangearr (arr ++ arr')

/-- One more line of a list that a level or a rule has: an empty list is skipped, later lines are merged. -/
def addLine (rangearr : List Range → Option (List Range)) (arr : List Range) (line : List Item) :
    Option (List Range) :=
  if line = [] then some arr
  else do
    let new ← rangearr (line.map Item.pair)
    if arr = [] then some new else mergeRangearr arr new

def readLines (rangearr : List Range → Option (List Range)) (lines : List (List Item)) : Option (List Range) :=
  lines.foldlM (addLine rangearr) []

/-- The loop of `__is_num_in_range_arr`; `none` for an index outside the array or below 0. -/
def narrow (arr : List Range) (num : UInt64) (ind₁ ind₂ : ℕ) : Option Bool :=
  if _h : ind₁ ≤ ind₂ then do
    let p ← arr[ind₁]?
    let q ← arr[ind₂]?
    if num < p.1 ∨ num > q.2 then some false
    else if num ≤ p.2 ∨ num ≥ q.1 then some true
    else
      let indMid := ind₁ + (ind₂ - ind₁ + 1) / 2
      let c ← arr[indMid]?
      if num < c.1 then if indMid = 0 then none else narrow arr num (ind₁ + 1) (indMid - 1)
      else if num > c.2 then if ind₂ = 0 then none else narrow arr num (indMid + 1) (ind₂ - 1)
      else some true
  else some false
termination_by ind₂ + 1 - ind₁
decreasing_by all_goals omega

def isNumInRangeArr (arr : List Range) (num : UInt64) : Option Bool :=
  if arr = [] then some false else narrow arr num 0 (arr.length - 1)

section Loops

abbrev PortMap := List ℕ

def addPortToPortMap (map : PortMap) (guid : ℕ) : PortMap := if guid ∈ map then map else map ++ [guid]

/-- `portByGuid` is `osm_get_port_by_guid`, with the GUID of the port's physical port. -/
def addGuidRangeToPortMap (portByGuid : ℕ → Option ℕ) (fuel : ℕ) (arr : List Range) (map : PortMap) :
    Option (Except Empty PortMap) :=
  loopAll 64 (fun guid map => .ok ((portByGuid guid).elim map (addPortToPortMap map))) fuel (arr.map Range.nat) map

/-- `prtnByPkey` gives the GUIDs of the members of a partition, limited and full. -/
def addPkeyRangeToPortMap (prtnByPkey : ℕ → Option (List ℕ)) (fuel : ℕ) (arr : List Range) (map : PortMap) :
    Option (Except Empty PortMap) :=
  loopAll 64 (fun pkey map => .ok (((prtnByPkey (pkey % 2 ^ 15)).getD []).foldl addPortToPortMap map)) fuel
    (arr.map Range.nat) map

/-- The loop of `osm_qos_policy_validate` over the P_Keys of a rule, with the P_Keys it finds no partition for. -/
def validatePkeys (prtnByPkey : ℕ → Option (List ℕ)) (fuel : ℕ) (arr : List Range) :
    Option (Except Empty (List ℕ)) :=
  loopAll 64 (fun pkey missing => .ok
      (if (prtnByPkey (pkey % 2 ^ 15)).isSome then missing else missing ++ [pkey % 2 ^ 15]))
    fuel (arr.map Range.nat) []

/-- `osm_qos_level_get_shared_pkey`, whose counter has 16 bits; 0 when no P_Key is shared. -/
def getSharedPkey (shareThisPkey : ℕ → Bool) (fuel : ℕ) (arr : List Range) : Option ℕ :=
  (loopAll 16 (fun pkey _ => if shareThisPkey pkey then .error pkey else .ok ()) fuel (arr.map Range.nat) ()).map
    fun e => match e with
      | .error pkey => pkey
      | .ok _ => 0

end Loops

end OpenSM.QosRanges
