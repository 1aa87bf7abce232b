import OpenSM.TorusPicture

/-! `port_order` in the configuration of torus-2QoS, and the order that it gives the end ports of a switch. -/

namespace OpenSM.Torus2QoS

section Model

/-- The size of `port_order` and of the table in `torus_lft`, `IB_NODE_NUM_PORTS_MAX + 1`. -/
def portOrderSz : ℕ := 255

/-- `struct torus` from `port_order` on, word by word, with the places that have been written. -/
structure OrderMem where
  word : ℕ → ℕ
  wrote : List ℕ

def OrderMem.put (m : OrderMem) (i v : ℕ) : OrderMem := ⟨Function.update m.word i v, m.wrote ++ [i]⟩

/-- The numbers of a line, read into place `i` as `unsigned`. Nothing is kept of one that has been listed
before. -/
def readOrder : List ℕ → ℕ → OrderMem → ℕ × OrderMem
  | [], i, m => (i, m)
  | v :: vs, i, m =>
    if i < portOrderSz then
      let m := m.put i (v % 2 ^ 32)
      readOrder vs (if (List.range i).any fun j => m.word j == m.word i then i else i + 1) m
    else (i, m)

def appendOrder (i : ℕ) (st : ℕ × OrderMem) (j : ℕ) : ℕ × OrderMem :=
  if (List.range i).any fun k => st.2.word k == j then st else (st.1 + 1, st.2.put st.1 j)

def parsePortOrder (m : OrderMem) (vs : List ℕ) : OrderMem :=
  let r := readOrder vs 0 m
  ((List.range portOrderSz).foldl (appendOrder r.1) r).2

/-- `port_order` at the start of `parse_config`. -/
def defaultOrder (w : ℕ → ℕ) : OrderMem := (List.range portOrderSz).foldl (fun m i => m.put i i) ⟨w, []⟩

/-- The `port_order` lines of a configuration one after the other. -/
def parseOrders (w : ℕ → ℕ) (lines : List (List ℕ)) : OrderMem := lines.foldl parsePortOrder (defaultOrder w)

structure PortGrp where
  ports : List ℕ
  nodup : ports.Nodup
  lt : ∀ p ∈ ports, p < portOrderSz

/-- The table from ports to endpoints of a group, with `IB_INVALID_PORT_NUM` where there is none. -/
def PortGrp.order (pg : PortGrp) : ℕ → ℕ :=
  (List.range pg.ports.length).foldl (fun o p => Function.update o (pg.ports.getD p 0) (p % 256)) fun _ => 255

/-- The loop of `torus_lft` over the endpoints of a destination switch; `visit` has what is done at one. -/
def torusLftPorts {σ : Type} (pg : PortGrp) (portOrder : ℕ → ℕ) (visit : σ → ℕ → Option σ) (st : σ) : Option σ :=
  (List.range portOrderSz).foldlM
    (fun st p => if pg.order (portOrder p) = 255 then some st else visit st (pg.order (portOrder p))) st

end Model

section Spec

/-- The numbers of a line, as `parse_unsigned` reads them, without repetitions. -/
def listed (vs : List ℕ) : List ℕ := (vs.map (· % 2 ^ 32)).eraseDups

def OrderMem.ports (m : OrderMem) : List ℕ := (List.range portOrderSz).map m.word

/-- A permutation of the port numbers that begins with the ports on the line. -/
structure Ordered (m : OrderMem) (vs : List ℕ) : Prop where
  inside : ∀ i ∈ m.wrote, i < portOrderSz
  perm : m.ports.Perm (List.range portOrderSz)
  listed : (listed vs).filter (· < portOrderSz) <+: m.ports

/-- Every endpoint of any port group has its turn once, and no place outside of the table is looked at. -/
structure VisitsAll (m : OrderMem) : Prop where
  inside : ∀ p < portOrderSz, m.word p < portOrderSz
  once : ∀ pg : PortGrp, ∃ eps : List ℕ, eps.Perm (List.range pg.ports.length) ∧
    ∀ (σ : Type) (visit : σ → ℕ → Option σ) (st : σ), torusLftPorts pg m.word visit st = eps.foldlM visit st

/-- As many numbers of a line as there is room for are ports. -/
def PortsFirst (vs : List ℕ) : Prop := ∀ v ∈ (listed vs).take portOrderSz, v < portOrderSz

instance (vs : List ℕ) : Decidable (PortsFirst vs) := inferInstanceAs (Decidable (∀ v ∈ _, _))

end Spec

section Words

variable {m : OrderMem} {l : List ℕ} {v : ℕ}

/-- The words from `port_order` on are those of a list. -/
def Holds (m : OrderMem) (l : List ℕ) : Prop := (List.range l.length).map m.word = l

lemma Holds.word (h : Holds m l) {i : ℕ} (hi : i < l.length) : m.word i = l[i] := by
  have hget := congrArg (·[i]?) h
  simp only [List.getElem?_map, List.getElem?_range hi, Option.map_some, List.getElem?_eq_getElem hi] at hget
  exact Option.some.inj hget

lemma holds_iff : Holds m l ↔ ∀ (i : ℕ) (hi : i < l.length), m.word i = l[i] := by
  constructor
  · intro h i hi
    exact h.word hi
  · intro h
    apply List.ext_getElem
    · rw [List.length_map, List.length_range]
    · intro i hi hi'
      rw [List.getElem_map, List.getElem_range]
      exact h i hi'

lemma Holds.mono {l' : List ℕ} (h : Holds m l) (hp : l' <+: l) : Holds m l' := by
  rw [holds_iff]
  intro i hi
  rw [h.word (hi.trans_le hp.length_le)]
  exact (hp.getElem hi).symm

lemma Holds.put (h : Holds m l) : Holds (m.put l.length v) l := by
  rw [holds_iff]
  intro i hi
  rw [← h.word hi]
  exact Function.update_of_ne hi.ne v m.word

lemma Holds.snoc (h : Holds m l) : Holds (m.put l.length v) (l ++ [v]) := by
  rw [holds_iff]
  intro i hi
  rw [List.getElem_append]
  split_ifs with hlt
  · exact h.put.word hlt
  · rw [List.length_append, List.length_singleton] at hi
    obtain rfl : i = l.length := by omega
    rw [List.getElem_singleton]
    exact Function.update_self _ _ _

lemma Holds.any (h : Holds m l) : ((List.range l.length).any fun j => m.word j == v) = true ↔ v ∈ l := by
  rw [List.any_eq_true]
  constructor
  · rintro ⟨j, hj, heq⟩
    rw [List.mem_range] at hj
    rw [← beq_iff_eq.mp heq, h.word hj]
    exact List.getElem_mem hj
  · intro hv
    obtain ⟨j, hj, rfl⟩ := List.getElem_of_mem hv
    exact ⟨j, List.mem_range.mpr hj, beq_iff_eq.mpr (h.word hj)⟩

end Words

section Read

lemma eraseDups_snoc (us : List ℕ) (v : ℕ) :
    (us ++ [v]).eraseDups = if v ∈ us then us.eraseDups else us.eraseDups ++ [v] := by
  rw [List.eraseDups_append]
  split_ifs with hv
  · simp [List.removeAll, hv]
  · simp [List.removeAll, hv, List.eraseDups_cons]

lemma nodup_eraseDups (us : List ℕ) : us.eraseDups.Nodup := by
  induction us using List.reverseRecOn with
  | nil => exact List.nodup_nil
  | append_singleton us v ih =>
    rw [eraseDups_snoc]
    split_ifs with hv
    · exact ih
    · apply ih.append (List.nodup_singleton v)
      rw [List.disjoint_singleton, List.mem_eraseDups]
      exact hv

/-- The loop over a line, after the numbers `us`, keeps as many numbers as there is room for. -/
lemma readOrder_spec (vs us : List ℕ) (m : OrderMem) (hus : us.eraseDups.length ≤ portOrderSz)
    (hm : Holds m us.eraseDups) :
    ∃ m' ws, readOrder vs us.eraseDups.length m =
        (((us ++ vs.map (· % 2 ^ 32)).eraseDups.take portOrderSz).length, m') ∧
      Holds m' ((us ++ vs.map (· % 2 ^ 32)).eraseDups.take portOrderSz) ∧ m'.wrote = m.wrote ++ ws ∧
      ∀ i ∈ ws, i < portOrderSz := by
  induction vs generalizing us m with
  | nil =>
    rw [List.map_nil, List.append_nil, List.take_of_length_le hus]
    exact ⟨m, [], rfl, hm, (List.append_nil _).symm, fun i hi => absurd hi List.not_mem_nil⟩
  | cons v vs ih =>
    rw [readOrder, List.map_cons]
    by_cases hlt : us.eraseDups.length < portOrderSz
    · rw [if_pos hlt, List.append_cons]
      have hsnoc := eraseDups_snoc us (v % 2 ^ 32)
      have hself : (m.put us.eraseDups.length (v % 2 ^ 32)).word us.eraseDups.length = v % 2 ^ 32 :=
        Function.update_self _ _ _
      -- a number that has been listed leaves the place to the next one
      have hstep : (us ++ [v % 2 ^ 32]).eraseDups.length ≤ portOrderSz ∧
          Holds (m.put us.eraseDups.length (v % 2 ^ 32)) (us ++ [v % 2 ^ 32]).eraseDups ∧
          (if (List.range us.eraseDups.length).any fun j => (m.put us.eraseDups.length (v % 2 ^ 32)).word j ==
              v % 2 ^ 32 then us.eraseDups.length else us.eraseDups.length + 1) =
            (us ++ [v % 2 ^ 32]).eraseDups.length := by
        by_cases hv : v % 2 ^ 32 ∈ us
        · rw [if_pos hv] at hsnoc
          rw [hsnoc, if_pos (hm.put.any.mpr (List.mem_eraseDups.mpr hv))]
          exact ⟨hus, hm.put, rfl⟩
        · rw [if_neg hv] at hsnoc
          rw [hsnoc, if_neg (mt hm.put.any.mp (mt List.mem_eraseDups.mp hv)), List.length_append]
          exact ⟨hlt, hm.snoc, rfl⟩
      obtain ⟨hle, hholds, hnext⟩ := hstep
      obtain ⟨m', ws, heq, hm', hwrote, hws⟩ := ih (us ++ [v % 2 ^ 32]) _ hle hholds
      refine ⟨m', us.eraseDups.length :: ws, ?_, hm', ?_, ?_⟩
      · dsimp only
        rw [hself, hnext]
        exact heq
      · rw [hwrote, List.append_cons]
        rfl
      · intro i hi
        rcases List.mem_cons.mp hi with rfl | hi
        · exact hlt
        · exact hws i hi
    · have hfull : (us ++ v % 2 ^ 32 :: vs.map (· % 2 ^ 32)).eraseDups.take portOrderSz = us.eraseDups := by
        rw [List.eraseDups_append, List.take_append_of_le_length (by omega), List.take_of_length_le hus]
      rw [if_neg hlt, hfull]
      exact ⟨m, [], rfl, hm, (List.append_nil _).symm, fun i hi => absurd hi List.not_mem_nil⟩

end Read

section Append

variable {m : OrderMem} {l k : List ℕ}

lemma appendOrder_spec (js : List ℕ) (hm : Holds m l) (hk : k <+: l) :
    ∃ m', js.foldl (appendOrder k.length) (l.length, m) = ((l ++ js.filter (· ∉ k)).length, m') ∧
      Holds m' (l ++ js.filter (· ∉ k)) ∧
      m'.wrote = m.wrote ++ List.range' l.length (js.filter (· ∉ k)).length := by
  induction js generalizing m l with
  | nil => exact ⟨m, by simp, by simpa using hm, by simp⟩
  | cons j js ih =>
    rw [List.foldl_cons, appendOrder]
    by_cases hj : j ∈ k
    · rw [if_pos ((hm.mono hk).any.mpr hj), List.filter_cons_of_neg (by simpa using hj)]
      exact ih hm hk
    · rw [if_neg (mt (hm.mono hk).any.mp hj), List.filter_cons_of_pos (by simpa using hj)]
      obtain ⟨m', heq, hm', hwrote⟩ := ih hm.snoc (hk.trans (List.prefix_append l [j]))
      rw [List.length_append, List.length_singleton, ← List.append_cons] at heq
      rw [← List.append_cons] at hm'
      refine ⟨m', heq, hm', ?_⟩
      rw [hwrote, List.length_cons, List.range'_succ, List.length_append, List.length_singleton, List.append_cons]
      rfl

end Append

section Line

variable {vs : List ℕ} {m : OrderMem}

def kept (vs : List ℕ) : List ℕ := (listed vs).take portOrderSz

def missing (vs : List ℕ) : List ℕ := (List.range portOrderSz).filter (· ∉ kept vs)

lemma parsePortOrder_spec (vs : List ℕ) (m : OrderMem) : Holds (parsePortOrder m vs) (kept vs ++ missing vs) ∧
    ∃ ws, (parsePortOrder m vs).wrote = m.wrote ++ ws ++ List.range' (kept vs).length (missing vs).length ∧
      ∀ i ∈ ws, i < portOrderSz := by
  obtain ⟨m₁, ws, hread, hm₁, hwrote, hws⟩ := readOrder_spec vs [] m (Nat.zero_le _) rfl
  obtain ⟨m₂, happend, hm₂, hwrote₂⟩ := appendOrder_spec (List.range portOrderSz) hm₁ List.prefix_rfl
  have heq : parsePortOrder m vs = m₂ := by
    rw [parsePortOrder]
    rw [List.eraseDups_nil, List.length_nil] at hread
    rw [hread, happend]
  rw [heq]
  refine ⟨hm₂, ws, ?_, hws⟩
  rw [hwrote₂, hwrote]
  rfl

lemma kept_nodup (vs : List ℕ) : (kept vs).Nodup := (nodup_eraseDups _).sublist (List.take_sublist _ _)

lemma kept_perm (h : PortsFirst vs) : (kept vs ++ missing vs).Perm (List.range portOrderSz) := by
  rw [List.perm_ext_iff_of_nodup]
  · intro p
    rw [List.mem_append, missing, List.mem_filter, List.mem_range, decide_eq_true_eq]
    constructor
    · rintro (hp | ⟨hp, -⟩)
      · exact h p hp
      · exact hp
    · intro hp
      by_cases hk : p ∈ kept vs
      · exact .inl hk
      · exact .inr ⟨hp, hk⟩
  · refine (kept_nodup vs).append (List.nodup_range.filter _) fun p hp hm => ?_
    rw [missing, List.mem_filter, decide_eq_true_eq] at hm
    exact hm.2 hp
  · exact List.nodup_range

lemma lt_of_not_portsFirst (h : ¬ PortsFirst vs) : portOrderSz < (kept vs).length + (missing vs).length := by
  rw [PortsFirst] at h
  push Not at h
  obtain ⟨v, hv, hge⟩ := h
  have hsub : List.range portOrderSz ⊆ (kept vs).erase v ++ missing vs := by
    intro p hp
    have hne : p ≠ v := fun he => by
      rw [he, List.mem_range] at hp
      omega
    by_cases hk : p ∈ kept vs
    · exact List.mem_append_left _ ((List.mem_erase_of_ne hne).mpr hk)
    · exact List.mem_append_right _ (List.mem_filter.mpr ⟨hp, decide_eq_true hk⟩)
  have hle := (List.subperm_of_subset List.nodup_range hsub).length_le
  have hpos : 0 < (kept vs).length := List.length_pos_of_mem hv
  rw [List.length_append, List.length_erase_of_mem (show v ∈ kept vs from hv), List.length_range] at hle
  omega

lemma kept_le (vs : List ℕ) : (kept vs).length ≤ portOrderSz := List.length_take_le _ _

lemma listed_valid (h : PortsFirst vs) : (listed vs).filter (· < portOrderSz) = kept vs := by
  have hkept : (kept vs).filter (· < portOrderSz) = kept vs :=
    List.filter_eq_self.mpr fun v hv => decide_eq_true (h v hv)
  have hsplit : listed vs = kept vs ++ (listed vs).drop portOrderSz := (List.take_append_drop _ _).symm
  by_cases hlen : (listed vs).length ≤ portOrderSz
  · rw [kept, List.take_of_length_le hlen] at hkept ⊢
    exact hkept
  · have hfull : (kept vs).length = portOrderSz := List.length_take_of_le (by omega)
    have hempty : missing vs = [] := by
      have hlen := (kept_perm h).length_eq
      rw [List.length_append, hfull, List.length_range] at hlen
      exact List.eq_nil_of_length_eq_zero (by omega)
    have hnone : ((listed vs).drop portOrderSz).filter (· < portOrderSz) = [] := by
      rw [List.filter_eq_nil_iff]
      intro v hv hlt
      have hmem := (kept_perm h).mem_iff.mpr (List.mem_range.mpr (of_decide_eq_true hlt))
      rw [hempty, List.append_nil] at hmem
      have hnodup : (listed vs).Nodup := nodup_eraseDups _
      rw [hsplit] at hnodup
      exact (List.disjoint_of_nodup_append hnodup) hmem hv
    rw [hsplit, List.filter_append, hkept, hnone, List.append_nil]

lemma Holds.ports {l : List ℕ} (h : Holds m l) (hl : l.length = portOrderSz) : m.ports = l := by
  rw [Holds, hl] at h
  exact h

lemma ordered_parsePortOrder (h : PortsFirst vs) (hm : ∀ i ∈ m.wrote, i < portOrderSz) :
    Ordered (parsePortOrder m vs) vs := by
  obtain ⟨hholds, ws, hwrote, hws⟩ := parsePortOrder_spec vs m
  have hperm := kept_perm h
  have hlen := hperm.length_eq
  rw [List.length_range] at hlen
  have hports := hholds.ports hlen
  refine ⟨fun i hi => ?_, hports ▸ hperm, ?_⟩
  · rw [hwrote, List.mem_append, List.mem_append, List.mem_range'_1] at hi
    rw [List.length_append] at hlen
    rcases hi with (hi | hi) | hi
    · exact hm i hi
    · exact hws i hi
    · omega
  · rw [listed_valid h, hports]
    exact List.prefix_append _ _

lemma mem_wrote_parsePortOrder {i : ℕ} (h : i ∈ m.wrote) : i ∈ (parsePortOrder m vs).wrote := by
  obtain ⟨-, ws, hwrote, -⟩ := parsePortOrder_spec vs m
  rw [hwrote, List.append_assoc]
  exact List.mem_append_left _ h

lemma outside_of_not_portsFirst (h : ¬ PortsFirst vs) (m : OrderMem) :
    portOrderSz ∈ (parsePortOrder m vs).wrote := by
  obtain ⟨-, ws, hwrote, -⟩ := parsePortOrder_spec vs m
  rw [hwrote]
  apply List.mem_append_right
  rw [List.mem_range'_1]
  exact ⟨kept_le vs, lt_of_not_portsFirst h⟩

end Line

section Visits

variable {m : OrderMem} {vs : List ℕ} (pg : PortGrp)

lemma PortGrp.length_le : pg.ports.length ≤ portOrderSz := by
  have hsub : pg.ports ⊆ List.range portOrderSz := fun p hp => List.mem_range.mpr (pg.lt p hp)
  have hle := (List.subperm_of_subset pg.nodup hsub).length_le
  rwa [List.length_range] at hle

lemma order_loop (n : ℕ) (hn : n ≤ pg.ports.length) (p : ℕ) :
    (List.range n).foldl (fun o p => Function.update o (pg.ports.getD p 0) (p % 256)) (fun _ => 255) p =
      if p ∈ pg.ports.take n then pg.ports.idxOf p else 255 := by
  induction n with
  | zero => rfl
  | succ n ih =>
    have hlt : n < pg.ports.length := hn
    have hget : pg.ports.getD n 0 = pg.ports[n] := List.getD_eq_getElem _ _ hlt
    have hle := pg.length_le
    rw [portOrderSz] at hle
    rw [List.range_succ, List.foldl_append, List.foldl_cons, List.foldl_nil, hget,
        List.take_succ_eq_append_getElem hlt]
    by_cases hp : p = pg.ports[n]
    · rw [hp, Function.update_self, if_pos (List.mem_append_right _ (List.mem_singleton_self _)),
        pg.nodup.idxOf_getElem, Nat.mod_eq_of_lt (by omega)]
    · rw [Function.update_of_ne hp, ih hlt.le]
      simp only [List.mem_append, List.mem_singleton, hp, or_false]

lemma PortGrp.order_eq (p : ℕ) : pg.order p = if p ∈ pg.ports then pg.ports.idxOf p else 255 := by
  have h := order_loop pg pg.ports.length le_rfl p
  rwa [List.take_length] at h

def PortGrp.visits (o : List ℕ) : List ℕ := (o.filter (· ∈ pg.ports)).map pg.ports.idxOf

lemma PortGrp.visits_perm {o : List ℕ} (ho : o.Perm (List.range portOrderSz)) :
    (pg.visits o).Perm (List.range pg.ports.length) := by
  have hfilter : (o.filter (· ∈ pg.ports)).Perm pg.ports := by
    rw [List.perm_ext_iff_of_nodup ((ho.nodup_iff.mpr List.nodup_range).filter _) pg.nodup]
    intro p
    rw [List.mem_filter, decide_eq_true_eq, ho.mem_iff, List.mem_range]
    exact ⟨fun h => h.2, fun h => ⟨pg.lt p h, h⟩⟩
  refine (hfilter.map _).trans (List.Perm.of_eq ?_)
  apply List.ext_getElem
  · rw [List.length_map, List.length_range]
  · intro i hi hi'
    rw [List.getElem_map, List.getElem_range, pg.nodup.idxOf_getElem]

lemma torusLftPorts_eq {σ : Type} (visit : σ → ℕ → Option σ) (o : ℕ → ℕ) (ps : List ℕ) (st : σ) :
    ps.foldlM (fun st p => if pg.order (o p) = 255 then some st else visit st (pg.order (o p))) st =
      (pg.visits (ps.map o)).foldlM visit st := by
  have hle := pg.length_le
  rw [portOrderSz] at hle
  induction ps generalizing st with
  | nil => rfl
  | cons p ps ih =>
    rw [List.foldlM_cons, List.map_cons, PortGrp.visits, pg.order_eq]
    by_cases hp : o p ∈ pg.ports
    · have hidx := List.idxOf_lt_length_of_mem hp
      rw [if_pos hp, if_neg (by omega), List.filter_cons_of_pos (by simpa using hp), List.map_cons,
          List.foldlM_cons]
      exact bind_congr fun st' => ih st'
    · rw [if_neg hp, if_pos rfl, List.filter_cons_of_neg (by simpa using hp)]
      exact ih st

lemma Ordered.visitsAll (h : Ordered m vs) : VisitsAll m := by
  refine ⟨fun p hp => ?_, fun pg => ⟨pg.visits m.ports, pg.visits_perm h.perm, fun σ visit st => ?_⟩⟩
  · have hmem : m.word p ∈ m.ports := List.mem_map_of_mem (List.mem_range.mpr hp)
    exact List.mem_range.mp (h.perm.mem_iff.mp hmem)
  · exact torusLftPorts_eq pg visit m.word _ st

end Visits

section Config

variable (w : ℕ → ℕ) {lines : List (List ℕ)}

lemma defaultOrder_spec (n : ℕ) : Holds ((List.range n).foldl (fun m i => m.put i i) ⟨w, []⟩) (List.range n) ∧
    ((List.range n).foldl (fun m i => m.put i i) (⟨w, []⟩ : OrderMem)).wrote = List.range n := by
  induction n with
  | zero => exact ⟨rfl, rfl⟩
  | succ n ih =>
    rw [List.range_succ, List.foldl_append, List.foldl_cons, List.foldl_nil]
    have hput := ih.1.snoc (v := n)
    rw [List.length_range] at hput
    exact ⟨hput, congrArg (· ++ [n]) ih.2⟩

lemma ordered_default : Ordered (defaultOrder w) [] := by
  obtain ⟨hholds, hwrote⟩ := defaultOrder_spec w portOrderSz
  have hports := hholds.ports List.length_range
  exact ⟨fun i hi => by rw [defaultOrder, hwrote] at hi; exact List.mem_range.mp hi, List.Perm.of_eq hports,
    List.nil_prefix⟩

lemma ordered_parseOrders (h : ∀ vs ∈ lines, PortsFirst vs) :
    Ordered (parseOrders w lines) (lines.getLast?.getD []) := by
  induction lines using List.reverseRecOn with
  | nil => exact ordered_default w
  | append_singleton lines vs ih =>
    rw [parseOrders, List.foldl_append, List.getLast?_append]
    exact ordered_parsePortOrder (h vs (by simp)) (ih fun vs hvs => h vs (by simp [hvs])).inside

lemma outside_parseOrders (h : ¬ ∀ vs ∈ lines, PortsFirst vs) : portOrderSz ∈ (parseOrders w lines).wrote := by
  induction lines using List.reverseRecOn with
  | nil => exact absurd (fun vs hvs => absurd hvs List.not_mem_nil) h
  | append_singleton lines vs ih =>
    rw [parseOrders, List.foldl_append]
    by_cases hvs : PortsFirst vs
    · apply mem_wrote_parsePortOrder
      apply ih
      intro hall
      apply h
      intro us hus
      rcases List.mem_append.mp hus with hus | hus
      · exact hall us hus
      · rwa [List.mem_singleton.mp hus]
    · exact outside_of_not_portsFirst hvs _

/-- The order of a configuration is a permutation of the ports, and torus-2QoS visits every endpoint once, if
and only if none of the numbers that there is room for is too large for a port. -/
theorem port_order_iff : (Ordered (parseOrders w lines) (lines.getLast?.getD []) ∧
    VisitsAll (parseOrders w lines)) ↔
    ∀ vs ∈ lines, PortsFirst vs := by
  constructor
  · intro h
    by_contra hbad
    exact absurd (h.1.inside _ (outside_parseOrders w hbad)) (lt_irrefl _)
  · intro h
    exact ⟨ordered_parseOrders w h, (ordered_parseOrders w h).visitsAll⟩

/-- Port 300 in front of the default order leaves no room for port 254, which goes over the next field. -/
theorem port_order_300 : ¬ Ordered (parseOrders (fun _ => 0) [[300]]) [300] := by
  intro h
  have hbad : ¬ ∀ vs ∈ [[300]], PortsFirst vs := by decide
  exact absurd (h.inside _ (outside_parseOrders _ hbad)) (lt_irrefl _)

end Config

end OpenSM.Torus2QoS
