import OpenSM.Lib.CString
import OpenSM.RecommendSpec

/-! `set_search_ordering_ports`: the ports that a line lists for a switch, the other ports behind them. -/

namespace OpenSM.SearchOrdering

open Lib.CString

structure Sw where
  numPorts : ℕ
  two_le : 2 ≤ numPorts
  le_max : numPorts ≤ 255
  /-- `osm_node_get_physp_ptr` is not null. -/
  physp : ℕ → Bool
  searchOrderingPorts : Option (List ℕ)

def bpw : ℕ := 32

structure Search where
  searchOrderingPorts : List ℕ
  ports : List (BitVec 32)
  i : ℕ

def marked (ports : List (BitVec 32)) (port : ℕ) : Bool :=
    ports.getD (port / bpw) 0 &&& (1#32 <<< (port % bpw)) != 0

def mark (ports : List (BitVec 32)) (port : ℕ) : List (BitVec 32) :=
  ports.set (port / bpw) (ports.getD (port / bpw) 0 ||| (1#32 <<< (port % bpw)))

/-- `search_ordering_ports[i++] = port`. -/
def Search.put (z : Search) (port : ℕ) : Search :=
  { z with searchOrderingPorts := z.searchOrderingPorts.set z.i port, i := z.i + 1 }

def Search.list (z : Search) (port : ℕ) : Search := ({ z with ports := mark z.ports port } : Search).put port

def ended (p : Str) : Bool := p.isEmpty || p.head? == some '#'

def readLine (sw : Sw) (p : Str) (z : Search) : Option Search :=
  if ended p then some z
  else
    let port := (strtoull p).1 % 256
    if _h : (strtoull p).2 = p ∨ port = 0 ∨ sw.numPorts ≤ port ∨ !sw.physp port then none
    else if marked z.ports port then none
    else readLine sw ((strtoull p).2.dropWhile isSpace) (z.list port)
termination_by p.length
decreasing_by
  exact ((List.dropWhile_sublist _).length_le).trans_lt (strtoull_shorter fun heq => _h (.inl heq))

def fillOut (sw : Sw) (z : Search) : Search :=
  (List.range' 1 (sw.numPorts - 1)).foldl (fun z port => if marked z.ports port then z else z.put port) z

def startSearch (sw : Sw) : Search :=
  ⟨List.replicate sw.numPorts 0, List.replicate ((sw.numPorts + bpw - 1) / bpw) 0, 1⟩

def setSearchOrderingPorts (sw : Sw) (malloc malloc' : Bool) (p : Str) : Sw × ℤ :=
  if sw.searchOrderingPorts.isSome then (sw, 0)
  else if !malloc then (sw, -1)
  else if !malloc' then (sw, -1)
  else
    match readLine sw p (startSearch sw) with
    | none => (sw, 0)
    | some z =>
      if 1 < z.i then ({ sw with searchOrderingPorts := some (fillOut sw z).searchOrderingPorts }, 0) else (sw, 0)

/-- What a line lists, up to its end, a comment or the first item that is no number. -/
def items (p : Str) : List (Option ℕ) :=
  if ended p then []
  else if _h : (strtoull p).2 = p then [none]
  else some (strtoull p).1 :: items ((strtoull p).2.dropWhile isSpace)
termination_by p.length
decreasing_by exact ((List.dropWhile_sublist _).length_le).trans_lt (strtoull_shorter _h)

def numbers (p : Str) : List ℕ := (items p).reduceOption

def ports (its : List (Option ℕ)) : List ℕ := its.reduceOption.map (· % 256)

structure Taken (sw : Sw) (before : List ℕ) (its : List (Option ℕ)) : Prop where
  items : ∀ it ∈ its, ∃ v, it = some v ∧ 0 < v % 256 ∧ v % 256 < sw.numPorts ∧ sw.physp (v % 256) = true
  nodup : (before ++ ports its).Nodup

structure Accepted (sw : Sw) (malloc malloc' : Bool) (p : Str) : Prop where
  unset : sw.searchOrderingPorts = none
  memory : malloc = true ∧ malloc' = true
  nonempty : items p ≠ []
  taken : Taken sw [] (items p)

variable {sw : Sw} {n m port q : ℕ} {listed : List ℕ} {words : List (BitVec 32)} {z : Search} {p : Str}
  {its : List (Option ℕ)} {v : ℕ}

section Bitmap

lemma marked_eq : marked words q = (words.getD (q / bpw) 0).getLsbD (q % bpw) := by
  have hlt : q % bpw < 32 := Nat.mod_lt _ (by decide)
  rw [marked, ← BitVec.twoPow_eq, BitVec.and_twoPow]
  split_ifs with h
  · rw [h, bne_iff_ne]
    intro h0
    have hbit := congrArg (fun w => w.getLsbD (q % bpw)) h0
    simp [hlt] at hbit
  · rw [Bool.eq_false_of_not_eq_true h]
    exact bne_self_eq_false 0

lemma marked_mark (hlen : port / bpw < words.length) : marked (mark words port) q ↔ q = port ∨ marked words q := by
  have hport : port % bpw < 32 := Nat.mod_lt _ (by decide)
  have hdiv := Nat.div_add_mod q bpw
  have hdiv' := Nat.div_add_mod port bpw
  rw [marked_eq, marked_eq, mark]
  by_cases hword : port / bpw = q / bpw
  · rw [← hword, List.getD_eq_getElem _ _ (by rwa [List.length_set]), List.getElem_set_self, BitVec.getLsbD_or,
      ← BitVec.twoPow_eq, BitVec.getLsbD_twoPow]
    rw [← hword] at hdiv
    have hiff : port % bpw = q % bpw ↔ q = port := by omega
    simp only [hport, decide_true, Bool.true_and, Bool.or_eq_true, decide_eq_true_eq, hiff]
    exact or_comm
  · have hne : q ≠ port := fun heq => hword (heq ▸ rfl)
    rw [List.getD_eq_getElem?_getD, List.getElem?_set_ne hword, ← List.getD_eq_getElem?_getD]
    exact (or_iff_right hne).symm

end Bitmap

section Loops

structure Filled (n : ℕ) (before : List ℕ) (z : Search) : Prop where
  index : z.i = before.length + 1
  array : z.searchOrderingPorts = 0 :: before ++ List.replicate (n - 1 - before.length) 0

lemma Filled.put (h : Filled n listed z) (hlt : listed.length + 1 < n) : Filled n (listed ++ [port])
    (z.put port) := by
  obtain ⟨k, hk⟩ : ∃ k, n - 1 - listed.length = k + 1 := ⟨n - 2 - listed.length, by omega⟩
  have hk' : n - 1 - (listed ++ [port]).length = k := by
    rw [List.length_append, List.length_singleton]
    omega
  refine ⟨?_, ?_⟩
  · rw [Search.put, h.index, List.length_append, List.length_singleton]
  · have hlen : (0 :: listed).length = listed.length + 1 := List.length_cons
    rw [Search.put, h.array, h.index, hk, hk']
    dsimp only
    rw [List.set_append_right _ _ hlen.le, hlen, Nat.sub_self, List.replicate_succ, List.set_cons_zero,
      List.cons_append, List.cons_append, List.append_assoc]
    rfl

structure Listing (sw : Sw) (listed : List ℕ) (z : Search) : Prop where
  filled : Filled sw.numPorts listed z
  words : z.ports.length = (sw.numPorts + bpw - 1) / bpw
  marked : ∀ q, marked z.ports q = true ↔ q ∈ listed
  inside : ∀ q ∈ listed, 0 < q ∧ q < sw.numPorts
  nodup : listed.Nodup

lemma length_lt (hin : ∀ q ∈ listed, 0 < q ∧ q < n) (hnodup : listed.Nodup) (hn : 0 < n) : listed.length < n := by
  have hsub : listed ⊆ List.range' 1 (n - 1) := fun q hq => List.mem_range'_1.mpr (by have := hin q hq; omega)
  have hle := (hnodup.subperm hsub).length_le
  rw [List.length_range'] at hle
  omega

lemma Listing.list (h : Listing sw listed z) (hpos : 0 < port) (hlt : port < sw.numPorts) (hnew : port ∉ listed) :
    Listing sw (listed ++ [port]) (z.list port) := by
  have hin : ∀ q ∈ listed ++ [port], 0 < q ∧ q < sw.numPorts := by
    intro q hq
    rcases List.mem_append.mp hq with hq | hq
    · exact h.inside q hq
    · rw [List.mem_singleton.mp hq]
      exact ⟨hpos, hlt⟩
  have hnodup : (listed ++ [port]).Nodup :=
    List.nodup_append.mpr ⟨h.nodup, List.nodup_singleton _, fun a ha b hb heq =>
      hnew (List.mem_singleton.mp hb ▸ heq ▸ ha)⟩
  have hword : port / bpw < z.ports.length := by
    rw [h.words, bpw]
    omega
  have hroom := length_lt hin hnodup (hpos.trans hlt)
  rw [List.length_append, List.length_singleton] at hroom
  refine ⟨?_, ?_, fun q => ?_, hin, hnodup⟩
  · exact (Filled.mk h.filled.index h.filled.array : Filled _ _
        ({ z with ports := mark z.ports port } : Search)).put hroom
  · exact List.length_set.trans h.words
  · change SearchOrdering.marked (mark z.ports port) q = true ↔ _
    rw [marked_mark hword, h.marked, List.mem_append, List.mem_singleton]
    exact or_comm

lemma listing_start (hn : 0 < sw.numPorts) : Listing sw [] (startSearch sw) := by
  refine ⟨⟨rfl, ?_⟩, List.length_replicate, fun q => ?_, fun q hq => absurd hq List.not_mem_nil, List.nodup_nil⟩
  · change List.replicate sw.numPorts 0 = 0 :: List.replicate (sw.numPorts - 1 - 0) 0
    rw [← List.replicate_succ]
    congr 1
    omega
  · refine iff_of_false ?_ List.not_mem_nil
    have hzero : (startSearch sw).ports.getD (q / bpw) 0 = 0 := by
      rw [startSearch, List.getD_eq_getElem?_getD, List.getElem?_replicate]
      split_ifs <;> rfl
    rw [marked_eq, hzero]
    simp

lemma ports_cons : ports (some v :: its) = v % 256 :: ports its := by
  rw [ports, List.reduceOption_cons_of_some, List.map_cons]
  rfl

lemma Taken.cons_iff : Taken sw listed (some v :: its) ↔
    ((0 < v % 256 ∧ v % 256 < sw.numPorts ∧ sw.physp (v % 256) = true) ∧ v % 256 ∉ listed) ∧
      Taken sw (listed ++ [v % 256]) its := by
  have happ : listed ++ ports (some v :: its) = listed ++ [v % 256] ++ ports its := by
    rw [ports_cons, List.append_assoc]
    rfl
  constructor
  · rintro ⟨hitems, hnodup⟩
    rw [happ] at hnodup
    obtain ⟨v', hv', hvalid⟩ := hitems _ List.mem_cons_self
    obtain rfl := Option.some.inj hv'
    refine ⟨⟨hvalid, fun hmem => ?_⟩, fun it hit => hitems it (List.mem_cons_of_mem _ hit), hnodup⟩
    have hfront := (List.nodup_append.mp hnodup).1
    exact (List.nodup_append.mp hfront).2.2 _ hmem _ (List.mem_singleton_self _) rfl
  · rintro ⟨⟨hvalid, -⟩, hitems, hnodup⟩
    refine ⟨fun it hit => ?_, happ ▸ hnodup⟩
    rcases List.mem_cons.mp hit with rfl | hit
    · exact ⟨v, rfl, hvalid⟩
    · exact hitems it hit

/-- The loop ends with the items in the array, or drops the line for one of them. -/
lemma readLine_spec (h : Listing sw listed z) :
    (Taken sw listed (items p) → ∃ z', readLine sw p z = some z' ∧ Listing sw (listed ++ ports (items p)) z') ∧
      (¬Taken sw listed (items p) → readLine sw p z = none) := by
  induction p using items.induct generalizing listed z with
  | case1 p hend =>
    rw [items, if_pos hend, readLine, if_pos hend, ports, List.reduceOption_nil, List.map_nil, List.append_nil]
    refine ⟨fun _ => ⟨z, rfl, h⟩, fun hno => absurd ?_ hno⟩
    refine ⟨fun it hit => absurd hit List.not_mem_nil, ?_⟩
    rw [ports, List.reduceOption_nil, List.map_nil, List.append_nil]
    exact h.nodup
  | case2 p hend hno =>
    have hnone : readLine sw p z = none := by
      rw [readLine, if_neg hend, dif_pos (.inl hno)]
    rw [items, if_neg hend, dif_pos hno, hnone]
    refine ⟨fun htaken => ?_, fun _ => rfl⟩
    obtain ⟨v, hv, -⟩ := htaken.items none (List.mem_singleton_self _)
    cases hv
  | case3 p hend hnum ih =>
    rw [items, if_neg hend, dif_neg hnum, readLine, if_neg hend]
    set v := (strtoull p).1
    set e := (strtoull p).2
    rw [Taken.cons_iff, ports_cons]
    by_cases hbad : e = p ∨ v % 256 = 0 ∨ sw.numPorts ≤ v % 256 ∨ (!sw.physp (v % 256)) = true
    · rw [dif_pos hbad]
      refine ⟨fun htaken => absurd hbad ?_, fun _ => rfl⟩
      obtain ⟨⟨⟨hpos, hlt, hphysp⟩, -⟩, -⟩ := htaken
      rw [hphysp]
      push Not
      exact ⟨hnum, hpos.ne', hlt, Bool.false_ne_true⟩
    · rw [dif_neg hbad]
      push Not at hbad
      obtain ⟨-, hne, hlt, hphysp⟩ := hbad
      have hpos := Nat.pos_of_ne_zero hne
      have hphysp' : sw.physp (v % 256) = true := by simpa using hphysp
      by_cases hmark : marked z.ports (v % 256) = true
      · rw [if_pos hmark]
        exact ⟨fun htaken => absurd ((h.marked _).mp hmark) htaken.1.2, fun _ => rfl⟩
      · rw [if_neg hmark]
        have hnew : v % 256 ∉ listed := fun hmem => hmark ((h.marked _).mpr hmem)
        obtain ⟨htake, hdrop⟩ := ih (h.list hpos hlt hnew)
        rw [List.append_assoc] at htake
        exact ⟨fun htaken => htake htaken.2,
            fun hno => hdrop fun htaken => hno ⟨⟨⟨hpos, hlt, hphysp'⟩, hnew⟩, htaken⟩⟩

lemma fill_spec {l : List ℕ} (h : Filled n listed z) (hwords : z.ports = words)
    (hroom : (listed ++ l.filter fun port => !marked words port).length < n) :
    Filled n (listed ++ l.filter fun port => !marked words port)
      (l.foldl (fun z port => if marked z.ports port then z else z.put port) z) := by
  induction l generalizing listed z with
  | nil => rwa [List.filter_nil, List.append_nil]
  | cons port l ih =>
    rw [List.filter_cons] at hroom ⊢
    rw [List.foldl_cons, hwords]
    cases hmark : marked words port with
    | true =>
      simp only [hmark, Bool.not_true, Bool.false_eq_true, if_false] at hroom
      exact ih h hwords hroom
    | false =>
      simp only [hmark, Bool.not_false, if_true] at hroom ⊢
      rw [List.append_cons] at hroom ⊢
      refine ih (h.put ?_) hwords hroom
      rw [List.length_append, List.length_append, List.length_singleton] at hroom
      omega

def ordered (n : ℕ) (listed : List ℕ) : List ℕ :=
    0 :: listed ++ (List.range' 1 (n - 1)).filter fun port => port ∉ listed

lemma ordered_perm (hin : ∀ q ∈ listed, 0 < q ∧ q < n) (hnodup : listed.Nodup) (hn : 0 < n) :
    (ordered n listed).Perm (List.range n) := by
  have hrest : ∀ q ∈ (List.range' 1 (n - 1)).filter (fun port => port ∉ listed), 0 < q ∧ q ∉ listed := by
    intro q hq
    obtain ⟨hrange, hnew⟩ := List.mem_filter.mp hq
    exact ⟨(List.mem_range'_1.mp hrange).1, of_decide_eq_true hnew⟩
  refine (List.perm_ext_iff_of_nodup ?_ List.nodup_range).mpr fun q => ?_
  · rw [ordered, List.cons_append, List.nodup_cons, List.mem_append, not_or, List.nodup_append]
    refine ⟨⟨fun h0 => ?_, fun h0 => ?_⟩, hnodup, (List.nodup_range' ..).filter _, fun a ha b hb heq => ?_⟩
    · exact absurd (hin 0 h0).1 (lt_irrefl 0)
    · exact absurd (hrest 0 h0).1 (lt_irrefl 0)
    · exact (hrest b hb).2 (heq ▸ ha)
  · rw [ordered, List.cons_append, List.mem_cons, List.mem_append, List.mem_filter, List.mem_range'_1,
      List.mem_range, decide_eq_true_eq]
    by_cases hq : q ∈ listed
    · exact iff_of_true (.inr (.inl hq)) (hin q hq).2
    · simp only [hq, false_or, not_false_eq_true, and_true]
      omega

lemma Listing.fillOut (h : Listing sw listed z) (hn : 0 < sw.numPorts) :
    (fillOut sw z).searchOrderingPorts = ordered sw.numPorts listed := by
  have hfilter : (List.range' 1 (sw.numPorts - 1)).filter (fun port => !SearchOrdering.marked z.ports port) =
      (List.range' 1 (sw.numPorts - 1)).filter fun port => port ∉ listed := by
    refine List.filter_congr fun port _ => ?_
    rw [Bool.eq_iff_iff, Bool.not_eq_true', ← Bool.not_eq_true, h.marked, decide_eq_true_iff]
  have hlen := (ordered_perm h.inside h.nodup hn).length_eq
  rw [ordered, ← hfilter, List.cons_append, List.length_cons, List.length_range] at hlen
  have hfilled := fill_spec h.filled rfl (Nat.lt_of_succ_le hlen.le)
  have hzeros : sw.numPorts - 1 -
      (listed ++ (List.range' 1 (sw.numPorts - 1)).filter fun port =>
        !SearchOrdering.marked z.ports port).length = 0 := by
    omega
  rw [SearchOrdering.fillOut, hfilled.array, hzeros, hfilter, ordered, List.replicate_zero, List.append_nil]
  rfl

end Loops

section Line

lemma Taken.inside {before : List ℕ} (h : Taken sw before its) : ∀ q ∈ ports its, 0 < q ∧ q < sw.numPorts := by
  intro q hq
  obtain ⟨v, hv, rfl⟩ := List.mem_map.mp hq
  obtain ⟨v', hv', hpos, hlt, -⟩ := h.items _ (List.reduceOption_mem_iff.mp hv)
  obtain rfl := Option.some.inj hv'
  exact ⟨hpos, hlt⟩

lemma set_accepted {malloc malloc' : Bool} (h : Accepted sw malloc malloc' p) :
    (setSearchOrderingPorts sw malloc malloc' p).1.searchOrderingPorts =
        some (ordered sw.numPorts (ports (items p))) := by
  have hn : 0 < sw.numPorts := Nat.zero_lt_two.trans_le sw.two_le
  obtain ⟨z, hz, hlist⟩ := (readLine_spec (listing_start hn)).1 h.taken
  have hlong : 1 < z.i := by
    rw [hlist.filled.index, List.nil_append]
    obtain ⟨it, its, heq⟩ := List.exists_cons_of_ne_nil h.nonempty
    obtain ⟨v, rfl, -⟩ := h.taken.items it (heq ▸ List.mem_cons_self)
    rw [heq, ports_cons, List.length_cons]
    omega
  rw [setSearchOrderingPorts, h.unset, h.memory.1, h.memory.2, hz]
  simp only [Option.isSome_none, Bool.false_eq_true, Bool.not_true, if_false, hlong, if_true]
  rw [hlist.fillOut hn, List.nil_append]

lemma set_refused {malloc malloc' : Bool} (h : ¬Accepted sw malloc malloc' p) :
    (setSearchOrderingPorts sw malloc malloc' p).1 = sw := by
  have hn : 0 < sw.numPorts := Nat.zero_lt_two.trans_le sw.two_le
  rw [setSearchOrderingPorts]
  split_ifs with hset hmem hmem'
  · rfl
  · rfl
  · rfl
  · by_cases htaken : Taken sw [] (items p)
    · obtain ⟨z, hz, hlist⟩ := (readLine_spec (listing_start hn)).1 htaken
      have hempty : items p = [] := by
        by_contra hne
        exact h ⟨Option.not_isSome_iff_eq_none.mp hset, ⟨by simpa using hmem, by simpa using hmem'⟩, hne, htaken⟩
      have hshort : ¬1 < z.i := by
        rw [hlist.filled.index, hempty]
        exact lt_irrefl 1
      rw [hz]
      dsimp only
      rw [if_neg hshort]
    · rw [(readLine_spec (listing_start hn)).2 htaken]

end Line

section Search

open Switch

variable {u : Subnet n m} {s : Fin n}

/-- The switch of the routing model has the array. -/
structure Carries (u : Subnet n m) (s : Fin n) (sw : Sw) : Prop where
  numPorts : u.numPorts s = sw.numPorts
  order : Switch.setSearchOrderingPorts (u.numPorts s) (u.orderedPorts s) = sw.searchOrderingPorts

lemma carries_set {malloc malloc' : Bool} (h : Accepted sw malloc malloc' p) (hnum : u.numPorts s = sw.numPorts)
    (hports : u.orderedPorts s = ports (items p)) :
    Carries u s (SearchOrdering.setSearchOrderingPorts sw malloc malloc' p).1 := by
  have hset := set_accepted h
  have hlisted : ports (items p) ≠ [] := by
    obtain ⟨it, its, heq⟩ := List.exists_cons_of_ne_nil h.nonempty
    obtain ⟨v, rfl, -⟩ := h.taken.items it (heq ▸ List.mem_cons_self)
    rw [heq, ports_cons]
    exact List.cons_ne_nil _ _
  refine ⟨?_, ?_⟩
  · rw [hnum, SearchOrdering.setSearchOrderingPorts]
    split_ifs
    · rfl
    · rfl
    · rfl
    · split
      · rfl
      · split_ifs <;> rfl
  · have hgood : ¬(ports (items p) = [] ∨ (¬∀ q ∈ ports (items p), 0 < q ∧ q < sw.numPorts) ∨
        ¬(ports (items p)).Nodup) := by
      rintro (hnil | hout | htwice)
      · exact hlisted hnil
      · exact hout h.taken.inside
      · exact htwice h.taken.nodup
    rw [hset, hnum, hports, Switch.setSearchOrderingPorts, if_neg hgood, ordered]

/-- The ports in the order in which the loop of `osm_switch_recommend_path` takes them. -/
def considered (u : Subnet n m) (s : Fin n) (startFrom : ℕ) : List ℕ :=
  (List.range' startFrom (u.numPorts s)).map fun i => Switch.getDimnPort u s (i % u.numPorts s)

structure SearchesAll (u : Subnet n m) (s : Fin n) : Prop where
  once : ∀ startFrom, ∀ port, 0 < port → port < u.numPorts s → (considered u s startFrom).count port = 1
  room : ∀ H prof priv a baseLid leastHops, (firstPass u H prof priv a s baseLid leastHops).portPaths.length ≤ 254

lemma considered_perm (startFrom : ℕ) : (considered u s startFrom).Perm (List.range (u.numPorts s)) := by
  have hsub : List.range (u.numPorts s) ⊆ considered u s startFrom := by
    intro port hport
    obtain ⟨i, hi, rfl⟩ := @exists_round _ _ u s startFrom port (List.mem_range.mp hport)
    exact List.mem_map_of_mem hi
  refine (List.nodup_range.subperm hsub).perm_of_length_le ?_ |>.symm
  rw [considered, List.length_map, List.length_range', List.length_range]

lemma portPaths_lookRemote {a : Args} {priv : List (RemoteNode n)} {portNum k : ℕ} {rem : Remote n m}
    {z z' : Sel n}
    (h : lookRemote u a priv portNum k rem z = some z') : z'.portPaths = z.portPaths := by
  rw [lookRemote] at h
  split_ifs at h
  · rw [lookDor] at h
    dsimp only at h
    split_ifs at h
    all_goals
      cases h
      rfl
  · obtain rfl := Option.some.inj h
    rw [lookLmc]
    split
    · rw [noteOtherSys]
      split_ifs <;> rfl
    · split
      · rw [noteOtherNode]
        split_ifs <;> rfl
      · rfl
  · obtain rfl := Option.some.inj h
    rfl

lemma portPaths_takePort {a : Args} {portNum k : ℕ} {z : Sel n} :
    (takePort a portNum k z).portPaths.map PortPath.portNum = z.portPaths.map PortPath.portNum ++ [portNum] := by
  have hcompare : ∀ z : Sel n, (comparePort a portNum k z).portPaths = z.portPaths := by
    intro z
    rw [comparePort]
    split_ifs
    · rfl
    · rfl
    · split <;> rfl
    · rfl
  rw [takePort, hcompare, recordPort, List.map_append]
  rfl

lemma portPaths_selectStep {H : Hops n} {prof : ℕ → ℕ} {priv : List (RemoteNode n)} {a : Args}
    {b k i : ℕ} {z : Sel n} :
    (selectStep u H prof priv a s b k z i).portPaths = z.portPaths ∨
      (selectStep u H prof priv a s b k z i).portPaths.map PortPath.portNum =
        z.portPaths.map PortPath.portNum ++ [Switch.getDimnPort u s (i % u.numPorts s)] ∧
      Switch.getDimnPort u s (i % u.numPorts s) ≠ 0 := by
  rw [selectStep]
  split
  · exact .inl rfl
  · rename_i rem hrem
    split
    · exact .inl rfl
    · rename_i z' hlook
      refine .inr ⟨?_, fun h0 => ?_⟩
      · rw [portPaths_takePort, portPaths_lookRemote hlook]
      · rw [acceptable, if_pos (.inl h0)] at hrem
        cases hrem

lemma portPaths_foldl {H : Hops n} {prof : ℕ → ℕ} {priv : List (RemoteNode n)} {a : Args} {b k : ℕ} (l : List ℕ)
    (z : Sel n) : ((l.foldl (selectStep u H prof priv a s b k) z).portPaths.map PortPath.portNum).Sublist
      (z.portPaths.map PortPath.portNum ++
        (l.map fun i => Switch.getDimnPort u s (i % u.numPorts s)).filter fun port => port ≠ 0) := by
  induction l generalizing z with
  | nil => rw [List.foldl_nil, List.map_nil, List.filter_nil, List.append_nil]
  | cons i l ih =>
    rw [List.foldl_cons, List.map_cons, List.filter_cons]
    refine (ih _).trans ?_
    rcases @portPaths_selectStep n m u s H prof priv a b k i z with hsame | ⟨hnew, hne⟩
    · rw [hsame]
      refine List.Sublist.append_left ?_ _
      split_ifs
      · exact List.sublist_cons_self _ _
      · exact List.Sublist.refl _
    · rw [hnew, if_pos (decide_eq_true hne), List.append_assoc]
      exact List.Sublist.refl _

lemma searchesAll : SearchesAll u s := by
  refine ⟨fun startFrom port _ hlt => ?_, fun H prof priv a b k => ?_⟩
  · rw [(considered_perm startFrom).count_eq]
    exact List.count_eq_one_of_mem List.nodup_range (List.mem_range.mpr hlt)
  · have hsub := (@portPaths_foldl n m u s H prof priv a b k (List.range' a.startFrom (u.numPorts s)) {}).length_le
    have hperm := ((considered_perm (u := u) (s := s) a.startFrom).filter fun port => port ≠ 0).length_eq
    obtain ⟨N, hN⟩ : ∃ N, u.numPorts s = N + 1 := Nat.exists_eq_succ_of_ne_zero (u.numPorts_pos s).ne'
    have hle := u.numPorts_le s
    have hexternal : ((List.range (u.numPorts s)).filter fun port => port ≠ 0).length ≤ N := by
      rw [hN, List.range_succ_eq_map, List.filter_cons, if_neg (by simp)]
      exact (List.length_filter_le _ _).trans (by rw [List.length_map, List.length_range])
    rw [List.length_map] at hsub
    rw [firstPass]
    refine hsub.trans (hperm.trans_le (hexternal.trans ?_))
    omega

end Search

section Ordering

/-- What a line is to do to its switch: the array is a permutation with 0 first and the numbers of the line
next, and all ports are searched. -/
structure Searchable (sw : Sw) (p : Str) (sw' : Sw) : Prop where
  order : ∀ order, sw'.searchOrderingPorts = some order → sw.searchOrderingPorts = some order ∨
    order.head? = some 0 ∧ order.Perm (List.range sw.numPorts) ∧ 0 :: numbers p <+: order
  search : ∀ n m (u : Subnet n m) s, Carries u s sw' → SearchesAll u s

lemma searchable_iff {malloc malloc' : Bool} : Searchable sw p (setSearchOrderingPorts sw malloc malloc' p).1 ↔
    (Accepted sw malloc malloc' p → ∀ v ∈ numbers p, v < 256) := by
  have hn : 0 < sw.numPorts := Nat.zero_lt_two.trans_le sw.two_le
  constructor
  · intro h hacc v hv
    obtain hold | ⟨-, -, hlisted⟩ := h.order _ (set_accepted hacc)
    · rw [hacc.unset] at hold
      cases hold
    · obtain ⟨rest, hrest⟩ := hlisted
      rw [ordered, List.cons_append, List.cons_append, List.cons.injEq] at hrest
      have hlen : (numbers p).length = (ports (items p)).length := by rw [ports, ← numbers, List.length_map]
      have hsame := (List.append_inj hrest.2 hlen).1
      rw [hsame] at hv
      obtain ⟨w, -, rfl⟩ := List.mem_map.mp hv
      exact Nat.mod_lt _ (by decide)
  · intro h
    refine ⟨fun order horder => ?_, fun n m u s _ => searchesAll⟩
    by_cases hacc : Accepted sw malloc malloc' p
    · obtain rfl := Option.some.inj ((set_accepted hacc).symm.trans horder)
      have hsame : ports (items p) = numbers p := by
        rw [ports, ← numbers]
        exact (List.map_congr_left fun v hv => Nat.mod_eq_of_lt (h hacc v hv)).trans (List.map_id _)
      refine .inr ⟨rfl, ordered_perm hacc.taken.inside hacc.taken.nodup hn, ?_⟩
      rw [← hsame]
      exact List.prefix_append _ _
    · rw [set_refused hacc] at horder
      exact .inl horder

/-- The array is a permutation that starts with the ports listed if and only if no number of an accepted line
goes beyond the 8 bits of a port number. -/
theorem ordering_permutes (sw : Sw) (malloc malloc' : Bool) (p : Str) :
    Searchable sw p (setSearchOrderingPorts sw malloc malloc' p).1 ↔
      (Accepted sw malloc malloc' p → ∀ v ∈ numbers p, v < 256) :=
  searchable_iff

def twoPorts : Sw := ⟨3, Nat.le_succ 2, Nat.le_of_ble_eq_true rfl, fun _ => true, none⟩

/-- The line lists port 257, and the array starts with port 1. -/
theorem number_cut : (setSearchOrderingPorts twoPorts true true "257".toList).1.searchOrderingPorts =
    some [0, 1, 2] ∧
    ¬Searchable twoPorts "257".toList (setSearchOrderingPorts twoPorts true true "257".toList).1 := by
  have hread : strtoull "257".toList = (257, []) := by decide
  have hitems : items "257".toList = [some 257] := by
    rw [items, if_neg (by decide), dif_neg (by decide), hread, items, if_pos (by decide)]
  have hacc : Accepted twoPorts true true "257".toList := by
    refine ⟨rfl, ⟨rfl, rfl⟩, ?_, ?_⟩
    · rw [hitems]
      exact List.cons_ne_nil _ _
    · rw [hitems]
      refine ⟨fun it hit => ⟨257, List.mem_singleton.mp hit, by decide⟩, by decide⟩
  refine ⟨?_, fun h => ?_⟩
  · rw [set_accepted hacc, hitems]
    decide
  · have hlt := searchable_iff.mp h hacc 257 (by rw [numbers, hitems]; exact List.mem_singleton_self _)
    omega

end Ordering

end OpenSM.SearchOrdering
