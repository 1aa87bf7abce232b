import OpenSM.RecommendSpec

/-! `ucast_mgr_process_tbl`: the forwarding table of one switch, filled LID offset by LID offset in
the port order. -/

namespace OpenSM.UcastMgr

open Switch

variable {n m : ℕ} (u : Subnet n m)

structure Opts (n m : ℕ) where
  lmc : ℕ
  isDor : Bool
  ignoreExistingLfts : Bool
  portShifting : Bool
  portProfileSwitchNodes : Bool
  portOrderList : List (EndPort n m)
  /-- The values `random()` gives to the choices made for a port of a switch. -/
  random : Fin n → EndPort n m → ℕ → ℕ

def minHopOpts (n m : ℕ) : Opts n m where
  lmc := 0
  isDor := false
  ignoreExistingLfts := true
  portShifting := false
  portProfileSwitchNodes := false
  portOrderList := (List.finRange n).map .sw ++ (List.finRange m).map .ca
  random _ _ _ := 0

structure Tbl (n m : ℕ) where
  newLft : ℕ → ℕ
  /-- The path counts of `p_prof`. -/
  prof : ℕ → ℕ
  /-- `priv` of each port, the remote nodes its LIDs are forwarded through. -/
  priv : EndPort n m → List (RemoteNode n)

def findAndAddRemoteSys (dor : Bool) (node : NodeId n) (remPort : ℕ) (r : List (RemoteNode n)) :
    List (RemoteNode n) × ℕ :=
  match r.findIdx? fun g => g.node = some node ∧ (!dor ∨ g.port = remPort) with
  | some i => (r, i)
  | none => (r ++ [⟨some node, 0, remPort⟩], r.length)

def countRemote (dor : Bool) (s : Fin n) (port : ℕ) (r : List (RemoteNode n)) : List (RemoteNode n) :=
  match u.remote s port with
  | none => r
  | some rem =>
    let (r, i) := findAndAddRemoteSys dor (u.remoteNode rem) (u.remotePortNum rem) r
    r.modify i fun g => { g with forwardedTo := (g.forwardedTo + 1) % 2 ^ 32 }

def isIgnoredByPortProf (o : Opts n m) (s : Fin n) (e : EndPort n m) (port : ℕ) : Bool :=
  u.isProfIgnored s port || (!o.portProfileSwitchNodes && match e with | .sw _ => true | .ca _ => false)

def portArgs (o : Opts n m) (s : Fin n) (e : EndPort n m) (lidOffset lidHo : ℕ) (t : Tbl n m) : Args where
  startFrom := if lidOffset ≠ 0 ∧ !o.isDor then getPortByLid u t.newLft s (lidHo - 1) + 1 else 1
  ignoreExisting := o.ignoreExistingLfts
  routingForLmc := o.lmc ≠ 0
  dor := o.isDor
  portShifting := o.portShifting
  scatterPorts := lidOffset = 0 && u.useScatter e

def processPort (o : Opts n m) (H : Hops n) (s : Fin n) (t : Tbl n m) (e : EndPort n m)
    (lidOffset : ℕ) : Tbl n m :=
  if u.minLidHoOf e = 0 ∨ u.maxLidHoOf e = 0 then t
  else
    let lidHo := (u.minLidHoOf e + lidOffset) % 2 ^ 16
    if u.maxLidHoOf e < lidHo then t
    else
      let port := recommendPath u H t.prof (t.priv e) (portArgs u o s e lidOffset lidHo t)
        (o.random s e lidOffset) s e lidHo
      if port = noPath then { t with newLft := Function.update t.newLft lidHo port }
      else if u.numPorts s ≤ port then t
      else if isIgnoredByPortProf u o s e port then
        { t with newLft := Function.update t.newLft lidHo port }
      else
        { newLft := Function.update t.newLft lidHo port
          prof := Function.update t.prof port ((t.prof port + 1) % 2 ^ 32)
          priv := if 0 < port then
            Function.update t.priv e (countRemote u o.isDor s port (t.priv e)) else t.priv }

def processTbl (o : Opts n m) (H : Hops n) (s : Fin n) (newLft prof : ℕ → ℕ) : Tbl n m :=
  let t₀ : Tbl n m :=
    { newLft := fun l => if l ≤ u.maxLidHo s then noPath else newLft l
      prof := prof
      priv := fun _ => [] }
  (List.range (2 ^ o.lmc)).foldl
    (fun t i => o.portOrderList.foldl (fun t e => processPort u o H s t e i) t) t₀

def target : EndPort n m → Option (Fin n × ℕ)
  | .sw d => some (d, 0)
  | .ca e => u.attach e

def Route (H : Hops n) (s : Fin n) (e : EndPort n m) (p : ℕ) : Prop :=
  ∃ d q, target u e = some (d, q) ∧
    (d = s ∧ p = q ∨ d ≠ s ∧ getLeastHops u.toFabric H s (u.lid d) ≠ noPath ∧
      Candidate u H s (u.lid d) p)

/-- What the LID manager guarantees: LID ranges inside the unicast range that do not overlap; a
port that has no LID yet has base LID 0. -/
structure Addressed : Prop where
  range_le : ∀ e, u.baseLid e + 2 ^ u.lmcOf e ≤ 0xC000
  le_maxLidHo : ∀ s e, u.baseLid e + 2 ^ u.lmcOf e ≤ u.maxLidHo s + 1
  distinct : ∀ e e' i j, u.baseLid e ≠ 0 → u.baseLid e' ≠ 0 → i < 2 ^ u.lmcOf e →
    j < 2 ^ u.lmcOf e' → u.baseLid e + i = u.baseLid e' + j → e = e'

variable {u}

lemma mem_minHopOpts (n m : ℕ) (e : EndPort n m) : e ∈ (minHopOpts n m).portOrderList := by
  cases e <;> simp [minHopOpts]

lemma addressed_triangle (healthy : Fin 3 → ℕ → Bool) : Addressed (Subnet.triangle healthy) where
  range_le e := by
    cases e
    · simp [Subnet.triangle]
      omega
    · simp [Subnet.triangle]
  le_maxLidHo s e := by
    cases e
    · simp [Subnet.triangle, Fabric.triangle]
      omega
    · simp [Subnet.triangle, Fabric.triangle]
  distinct e e' i j _ _ hi hj h := by
    obtain rfl : i = 0 := by simpa [Subnet.triangle] using hi
    obtain rfl : j = 0 := by simpa [Subnet.triangle] using hj
    cases e <;> cases e' <;> simp [Subnet.triangle] at h ⊢ <;> omega

lemma recommendPath_eq (H : Hops n) (prof : ℕ → ℕ) (priv : List (RemoteNode n)) (a : Args)
    (random : ℕ) (s : Fin n) (e : EndPort n m) (l : ℕ) :
    recommendPath u H prof priv a random s e l =
      match target u e with
      | none => noPath
      | some (d, p) => if d = s then p else recommendVia u H prof priv a random s l (u.lid d) := by
  cases e with
  | sw d => simp only [recommendPath, target, u.baseLid_sw]
  | ca c =>
    cases hc : u.attach c with
    | none => simp only [recommendPath, target, hc]
    | some t => simp only [recommendPath, target, hc]

lemma Route.lt_numPorts {H : Hops n} {s : Fin n} {e : EndPort n m} {p : ℕ} (h : Route u H s e p) :
    p < u.numPorts s := by
  obtain ⟨d, q, ht, ⟨rfl, rfl⟩ | ⟨-, -, hc⟩⟩ := h
  · cases e with
    | sw d =>
      cases ht
      exact u.numPorts_pos _
    | ca c => exact (u.remote_port _ _ _ ((u.remote_ca _ _ _).mpr ht)).2
  · obtain ⟨rem, hrem⟩ := hc.linked
    exact (u.remote_port _ _ _ hrem).2

lemma Route.ne_noPath {H : Hops n} {s : Fin n} {e : EndPort n m} {p : ℕ} (h : Route u H s e p) :
    p ≠ noPath := by
  have hlt := h.lt_numPorts
  have hle := u.numPorts_le s
  simp only [noPath]
  omega

section Recommend

variable (H : Hops n) (prof : ℕ → ℕ) (priv : List (RemoteNode n)) (a : Args) (random : ℕ) (s : Fin n)
  (e : EndPort n m) (l : ℕ)

lemma recommendPath_spec :
    recommendPath u H prof priv a random s e l = noPath ∨
      Route u H s e (recommendPath u H prof priv a random s e l) := by
  rw [recommendPath_eq]
  cases ht : target u e with
  | none => exact Or.inl rfl
  | some dp =>
    obtain ⟨d, p⟩ := dp
    dsimp only
    split_ifs with hd
    · exact Or.inr ⟨d, p, ht, Or.inl ⟨hd, rfl⟩⟩
    · exact (recommendVia_spec H prof priv a random s l (u.lid d)).imp_right
        fun hc => ⟨d, p, ht, Or.inr ⟨hd, hc⟩⟩

lemma recommendPath_exists (hprof : ∀ p, prof p < maxPaths) {p : ℕ} (h : Route u H s e p) :
    Route u H s e (recommendPath u H prof priv a random s e l) := by
  obtain ⟨d, q, ht, hr⟩ := h
  have heq := recommendPath_eq (u := u) H prof priv a random s e l
  rw [ht] at heq
  dsimp only at heq
  rw [heq]
  refine ⟨d, q, ht, ?_⟩
  rcases hr with ⟨hd, -⟩ | ⟨hd, hno, hc⟩
  · exact Or.inl ⟨hd, if_pos hd⟩
  · rw [if_neg hd]
    exact Or.inr ⟨hd, hno, recommendVia_exists H prof priv a random s l (u.lid d) hno hprof hc⟩

end Recommend

def Valid (u : Subnet n m) (x : EndPort n m × ℕ) : Prop :=
  u.baseLid x.1 ≠ 0 ∧ x.2 < 2 ^ u.lmcOf x.1

instance (x : EndPort n m × ℕ) : Decidable (Valid u x) := inferInstanceAs (Decidable (_ ∧ _))

def lidAt (u : Subnet n m) (x : EndPort n m × ℕ) : ℕ := u.baseLid x.1 + x.2

structure Filled (u : Subnet n m) (H : Hops n) (s : Fin n) (prof₀ : ℕ → ℕ)
    (done : List (EndPort n m × ℕ)) (t : Tbl n m) : Prop where
  entry : ∀ x ∈ done, Valid u x → Route u H s x.1 (t.newLft (lidAt u x)) ∨
    t.newLft (lidAt u x) = noPath ∧ ∀ p, ¬ Route u H s x.1 p
  rest : ∀ l ≤ u.maxLidHo s, (∀ x ∈ done, Valid u x → lidAt u x ≠ l) → t.newLft l = noPath
  prof_le : ∀ p, t.prof p ≤ prof₀ p + (done.filter fun x => Valid u x).length

lemma Addressed.lidAt_lt (ha : Addressed u) {x : EndPort n m × ℕ} (hx : Valid u x) :
    0 < lidAt u x ∧ lidAt u x < 0xC000 ∧ ∀ s, lidAt u x ≤ u.maxLidHo s := by
  have h₁ := ha.range_le x.1
  obtain ⟨hb, hi⟩ := hx
  refine ⟨?_, ?_, fun s => ?_⟩
  · simp only [lidAt]
    omega
  · simp only [lidAt]
    omega
  · have h₂ := ha.le_maxLidHo s x.1
    simp only [lidAt]
    omega

lemma Addressed.lidAt_inj (ha : Addressed u) {x y : EndPort n m × ℕ} (hx : Valid u x)
    (hy : Valid u y) (h : lidAt u x = lidAt u y) : x = y := by
  have he := ha.distinct x.1 y.1 x.2 y.2 hx.1 hy.1 hx.2 hy.2 h
  refine Prod.ext he ?_
  simp only [lidAt, he] at h
  omega

lemma Addressed.length_le (ha : Addressed u) {done : List (EndPort n m × ℕ)} (hd : done.Nodup) :
    (done.filter fun x => Valid u x).length ≤ 0xC000 := by
  set xs := done.filter fun x => Valid u x
  have hv : ∀ x ∈ xs, Valid u x := fun x hx => by simpa using (List.mem_filter.mp hx).2
  have hnd : (xs.map (lidAt u)).Nodup :=
    (hd.filter _).map_on fun x hx y hy h => ha.lidAt_inj (hv x hx) (hv y hy) h
  have hsub : (xs.map (lidAt u)) ⊆ List.range 0xC000 := by
    intro l hl
    obtain ⟨x, hx, rfl⟩ := List.mem_map.mp hl
    exact List.mem_range.mpr (ha.lidAt_lt (hv x hx)).2.1
  have hle := (hnd.subperm hsub).length_le
  simpa using hle

/-- One call either leaves the table alone, for a pair without a LID, or enters a recommended port. -/
lemma processPort_cases (ha : Addressed u) (o : Opts n m) (H : Hops n) (s : Fin n) (t : Tbl n m)
    (e : EndPort n m) (i : ℕ) (hi : i < 2 ^ 7) :
    (¬ Valid u (e, i) ∧ processPort u o H s t e i = t) ∨
    (Valid u (e, i) ∧ ∃ a random l port,
      port = recommendPath u H t.prof (t.priv e) a random s e l ∧
      (processPort u o H s t e i).newLft = Function.update t.newLft (lidAt u (e, i)) port ∧
      ∀ p, (processPort u o H s t e i).prof p ≤ t.prof p + 1) := by
  have hpow : 1 ≤ 2 ^ u.lmcOf e := Nat.one_le_two_pow
  have hrange := ha.range_le e
  have hmax : u.maxLidHoOf e = u.baseLid e + 2 ^ u.lmcOf e - 1 := Nat.mod_eq_of_lt (by omega)
  have hlid : (u.minLidHoOf e + i) % 2 ^ 16 = lidAt u (e, i) := Nat.mod_eq_of_lt (by
    simp only [Subnet.minLidHoOf]
    omega)
  unfold processPort
  by_cases hz : u.minLidHoOf e = 0 ∨ u.maxLidHoOf e = 0
  · left
    rw [if_pos hz]
    refine ⟨?_, rfl⟩
    rintro ⟨hb, -⟩
    rw [hmax] at hz
    simp only [Subnet.minLidHoOf] at hz
    dsimp only at hb
    omega
  rw [if_neg hz]
  simp only [Subnet.minLidHoOf] at hz
  simp only [hlid]
  by_cases hgt : u.maxLidHoOf e < lidAt u (e, i)
  · left
    rw [if_pos hgt]
    refine ⟨?_, rfl⟩
    rintro ⟨-, hlt⟩
    rw [hmax] at hgt
    simp only [lidAt] at hgt hlt
    omega
  right
  rw [if_neg hgt]
  rw [hmax] at hgt
  simp only [lidAt] at hgt
  have hvalid : Valid u (e, i) := ⟨fun h => hz (Or.inl h), by dsimp only; omega⟩
  refine ⟨hvalid, portArgs u o s e i (lidAt u (e, i)) t, o.random s e i, lidAt u (e, i), _, rfl, ?_⟩
  have hspec := recommendPath_spec (u := u) H t.prof (t.priv e)
    (portArgs u o s e i (lidAt u (e, i)) t) (o.random s e i) s e (lidAt u (e, i))
  set port := recommendPath u H t.prof (t.priv e) (portArgs u o s e i (lidAt u (e, i)) t)
    (o.random s e i) s e (lidAt u (e, i))
  split_ifs with hno hge hig
  · exact ⟨rfl, fun p => Nat.le_succ _⟩
  · exact absurd (hspec.resolve_left hno).lt_numPorts (not_lt.mpr hge)
  · exact ⟨rfl, fun p => Nat.le_succ _⟩
  all_goals
    refine ⟨rfl, fun p => ?_⟩
    by_cases hp : p = port
    · subst hp
      simp only [Function.update_self]
      exact Nat.mod_le _ _
    · simp only [Function.update_of_ne hp]
      exact Nat.le_succ _

lemma Filled.step (ha : Addressed u) {o : Opts n m} {H : Hops n} {s : Fin n} {prof₀ : ℕ → ℕ}
    {done : List (EndPort n m × ℕ)} {t : Tbl n m} (hf : Filled u H s prof₀ done t)
    (hprof : ∀ p, prof₀ p + 0xC000 < maxPaths) {e : EndPort n m} {i : ℕ}
    (hd : (done ++ [(e, i)]).Nodup) (hi : i < 2 ^ 7) :
    Filled u H s prof₀ (done ++ [(e, i)]) (processPort u o H s t e i) := by
  have hmem : ∀ x, x ∈ done ++ [(e, i)] ↔ x ∈ done ∨ x = (e, i) := by simp
  rcases processPort_cases ha o H s t e i hi with ⟨hv, heq⟩ | ⟨hv, a, random, l, port, hport, hlft, hcount⟩
  · rw [heq]
    have hfil : ((done ++ [(e, i)]).filter fun x => Valid u x) = done.filter fun x => Valid u x := by
      simp [List.filter_append, hv]
    refine ⟨?_, ?_, ?_⟩
    · intro x hx hxv
      rcases (hmem x).mp hx with hx | rfl
      · exact hf.entry x hx hxv
      · exact absurd hxv hv
    · intro l hl hno
      exact hf.rest l hl fun x hx => hno x ((hmem x).mpr (Or.inl hx))
    · rw [hfil]
      exact hf.prof_le
  have hfil : ((done ++ [(e, i)]).filter fun x => Valid u x).length =
      (done.filter fun x => Valid u x).length + 1 := by
    simp [List.filter_append, hv]
  have hlen : (done.filter fun x => Valid u x).length ≤ 0xC000 :=
    ha.length_le (List.Nodup.of_append_left hd)
  have hlt : ∀ p, t.prof p < maxPaths := fun p => by
    have h₁ := hf.prof_le p
    have h₂ := hprof p
    omega
  have hnew : ∀ x ∈ done, Valid u x → lidAt u x ≠ lidAt u (e, i) := by
    intro x hx hxv h
    have hxe := ha.lidAt_inj hxv hv h
    subst hxe
    exact (List.nodup_append.mp hd).2.2 _ hx _ (List.mem_singleton_self _) rfl
  refine ⟨?_, ?_, ?_⟩
  · intro x hx hxv
    rw [hlft]
    rcases (hmem x).mp hx with hx | rfl
    · rw [Function.update_of_ne (hnew x hx hxv)]
      exact hf.entry x hx hxv
    · rw [Function.update_self, hport]
      by_cases hex : ∃ p, Route u H s e p
      · obtain ⟨p, hp⟩ := hex
        exact Or.inl (recommendPath_exists H _ _ a random s e l hlt hp)
      · have hno : ∀ p, ¬ Route u H s e p := fun p hp => hex ⟨p, hp⟩
        exact Or.inr ⟨(recommendPath_spec H _ _ a random s e l).resolve_right (hno _), hno⟩
  · intro l' hl hno
    rw [hlft, Function.update_of_ne (fun h => hno (e, i) ((hmem _).mpr (Or.inr rfl)) hv h.symm)]
    exact hf.rest l' hl fun x hx => hno x ((hmem x).mpr (Or.inl hx))
  · intro p
    rw [hfil]
    have h₁ := hf.prof_le p
    have h₂ := hcount p
    omega

/-- The pairs of port and LID offset in the order the loops of `ucast_mgr_process_tbl` take them. -/
def tasks (o : Opts n m) : List (EndPort n m × ℕ) :=
  (List.range (2 ^ o.lmc)).flatMap fun i => o.portOrderList.map fun e => (e, i)

lemma mem_tasks {o : Opts n m} {x : EndPort n m × ℕ} :
    x ∈ tasks o ↔ x.1 ∈ o.portOrderList ∧ x.2 < 2 ^ o.lmc := by
  simp only [tasks, List.mem_flatMap, List.mem_range, List.mem_map]
  constructor
  · rintro ⟨i, hi, e, he, rfl⟩
    exact ⟨he, hi⟩
  · rintro ⟨he, hi⟩
    exact ⟨x.2, hi, x.1, he, rfl⟩

lemma nodup_tasks {o : Opts n m} (ho : o.portOrderList.Nodup) : (tasks o).Nodup := by
  refine List.nodup_flatMap.mpr ⟨fun i _ => ho.map fun a b h => (Prod.mk.inj h).1, ?_⟩
  refine List.nodup_range.imp fun {i j} hij => ?_
  intro x hx hy
  obtain ⟨e, -, rfl⟩ := List.mem_map.mp hx
  obtain ⟨e', -, h⟩ := List.mem_map.mp hy
  exact hij (Prod.mk.inj h).2.symm

lemma processTbl_eq (o : Opts n m) (H : Hops n) (s : Fin n) (newLft prof : ℕ → ℕ) :
    processTbl u o H s newLft prof = (tasks o).foldl (fun t x => processPort u o H s t x.1 x.2)
      { newLft := fun l => if l ≤ u.maxLidHo s then noPath else newLft l
        prof := prof
        priv := fun _ => [] } := by
  unfold processTbl tasks
  rw [List.foldl_flatMap]
  simp only [List.foldl_map]

theorem filled_processTbl (ha : Addressed u) (o : Opts n m) (ho : o.portOrderList.Nodup)
    (hlmc : o.lmc ≤ 7) (H : Hops n) (s : Fin n) (newLft prof : ℕ → ℕ)
    (hprof : ∀ p, prof p + 0xC000 < maxPaths) :
    Filled u H s prof (tasks o) (processTbl u o H s newLft prof) := by
  rw [processTbl_eq]
  set t₀ : Tbl n m :=
    { newLft := fun l => if l ≤ u.maxLidHo s then noPath else newLft l
      prof := prof
      priv := fun _ => [] }
  have h₀ : Filled u H s prof [] t₀ := by
    refine ⟨by simp, fun l hl _ => if_pos hl, fun p => by simp [t₀]⟩
  have hpow : ∀ x ∈ tasks o, x.2 < 2 ^ 7 := fun x hx =>
    (mem_tasks.mp hx).2.trans_le (Nat.pow_le_pow_right (by omega) hlmc)
  have hrun : ∀ (xs done : List (EndPort n m × ℕ)) (t : Tbl n m), Filled u H s prof done t →
      (done ++ xs).Nodup → (∀ x ∈ xs, x.2 < 2 ^ 7) →
      Filled u H s prof (done ++ xs) (xs.foldl (fun t x => processPort u o H s t x.1 x.2) t) := by
    intro xs
    induction xs with
    | nil =>
      intro done t hf _ _
      simpa using hf
    | cons x xs ih =>
      intro done t hf hd hx
      have hd' : (done ++ [x] ++ xs).Nodup := by simpa using hd
      have hstep := hf.step (o := o) ha hprof (List.Nodup.of_append_left hd')
        (hx x List.mem_cons_self)
      have hrest := ih (done ++ [x]) _ hstep hd' fun y hy => hx y (List.mem_cons_of_mem _ hy)
      simpa using hrest
  simpa using hrun (tasks o) [] t₀ h₀ (by simpa using nodup_tasks ho) hpow

end OpenSM.UcastMgr
