import OpenSM.PathRecord

/-! Paths of path records: the route the forwarding tables give, what the walk keeps of it, and
when a record is supported along the whole of it. -/

namespace OpenSM.SaPath

open Lib

variable {N : Type} (s : Subn N)

/-- From `p` the forwarding tables lead to `dest` for the first time, through switches entered and
left by the listed ports. -/
inductive Route (lid : ℕ) (dest : Physp N) : Physp N → List (Physp N × Physp N) → Prop
  | here : Route lid dest dest []
  | link {p} : p ≠ dest → s.remote p = some dest → Route lid dest p []
  | switch {p q e hops} : p ≠ dest → s.remote p = some q → q ≠ dest →
      switchGetRouteByLid s q.node lid = some e → Route lid dest e hops →
      Route lid dest p ((q, e) :: hops)

variable {s}

lemma Route.unique {lid : ℕ} {dest p : Physp N} {hops hops' : List (Physp N × Physp N)}
    (h : Route s lid dest p hops) (h' : Route s lid dest p hops') : hops = hops' := by
  induction h generalizing hops' with
  | here =>
    cases h' with
    | here => rfl
    | link hp => exact absurd rfl hp
    | switch hp => exact absurd rfl hp
  | link hp hr =>
    cases h' with
    | here => rfl
    | link => rfl
    | switch _ hr' hq => exact absurd (Option.some.inj (hr'.symm.trans hr)) hq
  | switch hp hr hq he _ ih =>
    cases h' with
    | here => exact absurd rfl hp
    | link _ hr' => exact absurd (Option.some.inj (hr.symm.trans hr')) hq
    | switch _ hr' _ he' ht =>
      obtain rfl := Option.some.inj (hr.symm.trans hr')
      obtain rfl := Option.some.inj (he.symm.trans he')
      rw [ih ht]

variable (s)

def hopBounds (hops : List (Physp N × Physp N)) : List (ℕ × ℕ) :=
  hops.flatMap fun h =>
    [((s.portInfo h.1).getMtuCap, switchPortRate s h.1),
      ((s.portInfo h.2).getMtuCap, switchPortRate s h.2)]

def endBound (p : Physp N) : ℕ × ℕ := ((s.portInfo p).getMtuCap, endRate s p)

def hopOuts (hops : List (Physp N × Physp N)) : List (Physp N × ℕ) :=
  hops.map fun h => (h.2, h.1.portNum)

def keepSls (outs : List (Physp N × ℕ)) (sls : List ℕ) : List ℕ :=
  if s.opt.qos then sls.filter fun sl => outs.all fun o => !dropped s o.1 o.2 sl else sls

def along (hops : List (Physp N × Physp N)) (t : Track) : Track where
  mtu := lowest id t.mtu ((hopBounds s hops).map (·.1))
  rate := lowest rateOrder t.rate ((hopBounds s hops).map (·.2))
  sls := keepSls s (hopOuts hops) t.sls

lemma keepSls_nil (sls : List ℕ) : keepSls s [] sls = sls := by
  rw [keepSls]
  split_ifs
  · exact List.filter_eq_self.mpr fun _ _ => rfl
  · rfl

lemma keepSls_cons (o : Physp N × ℕ) (outs : List (Physp N × ℕ)) (sls : List ℕ) :
    keepSls s (o :: outs) sls = keepSls s outs (keepSls s [o] sls) := by
  simp only [keepSls]
  split_ifs
  · rw [List.filter_filter]
    apply List.filter_congr
    intro sl _
    simp [Bool.and_comm]
  · rfl

lemma keepSls_subset (outs : List (Physp N × ℕ)) (sls : List ℕ) : keepSls s outs sls ⊆ sls := by
  rw [keepSls]
  split_ifs
  · exact List.filter_subset_self _
  · exact fun _ => id

lemma not_dropped_of_mem_keepSls (hq : s.opt.qos) {outs : List (Physp N × ℕ)} {sls : List ℕ}
    {sl : ℕ} (h : sl ∈ keepSls s outs sls) : ∀ o ∈ outs, dropped s o.1 o.2 sl = false := by
  rw [keepSls, if_pos hq, List.mem_filter, List.all_eq_true] at h
  intro o ho
  simpa using h.2 o ho

lemma updateSls_eq_ok {out : Physp N} {inPort : ℕ} {t t' : Track} (ht : t.sls ≠ []) :
    updateSls s out inPort t = .ok t' ↔
      keepSls s [(out, inPort)] t.sls ≠ [] ∧
        t' = { t with sls := keepSls s [(out, inPort)] t.sls } := by
  by_cases hq : s.opt.qos
  · simp only [updateSls, keepSls, hq, if_true, List.all_cons, List.all_nil, Bool.and_true]
    split_ifs with h
    · exact ⟨nofun, fun h' => absurd h h'.1⟩
    · exact ⟨fun h' => ⟨h, (Except.ok.inj h').symm⟩, fun h' => h'.2 ▸ rfl⟩
  · simp only [updateSls, keepSls, hq]
    exact ⟨fun h' => ⟨ht, (Except.ok.inj h').symm⟩, fun h' => h'.2 ▸ rfl⟩

lemma along_nil (t : Track) : along s [] t = t := by
  rw [along, hopOuts, List.map_nil, keepSls_nil]
  rfl

lemma along_cons (q e : Physp N) (hops : List (Physp N × Physp N)) (t : Track) :
    along s ((q, e) :: hops) t = along s hops
      { (t.restrict (s.portInfo q).getMtuCap (switchPortRate s q)).restrict
          (s.portInfo e).getMtuCap (switchPortRate s e) with
        sls := keepSls s [(e, q.portNum)] t.sls } := by
  rw [along, along, hopOuts, List.map_cons, keepSls_cons]
  rfl

lemma along_step (q e : Physp N) (hops : List (Physp N × Physp N)) (t : Track) :
    along s ((q, e) :: hops) t = along s hops (along s [(q, e)] t) := by
  rw [along_cons, along_cons, along_nil]

lemma traverse_eq_ok {lid : ℕ} {q : Physp N} {t : Track} {r : Physp N × Track} (ht : t.sls ≠ []) :
    traverse s lid q t = .ok r ↔
      ∃ e, switchGetRouteByLid s q.node lid = some e ∧ (along s [(q, e)] t).sls ≠ [] ∧
        r = (e, along s [(q, e)] t) := by
  have hroute : ∀ e, switchGetRouteByLid s q.node lid = some e → (s.sw q.node).isSome := by
    intro e he
    obtain ⟨_, hsw, _⟩ := Option.bind_eq_some_iff.mp he
    exact Option.isSome_of_mem hsw
  rw [traverse]
  split_ifs with hsw
  · cases hr : switchGetRouteByLid s q.node lid with
    | none => exact ⟨nofun, fun ⟨_, h, _⟩ => nomatch h⟩
    | some e =>
      let u := (t.restrict (s.portInfo q).getMtuCap (switchPortRate s q)).restrict
        (s.portInfo e).getMtuCap (switchPortRate s e)
      have hupdate : ∀ t', updateSls s e q.portNum u = .ok t' ↔
          keepSls s [(e, q.portNum)] u.sls ≠ [] ∧
            t' = { u with sls := keepSls s [(e, q.portNum)] u.sls } :=
        fun _ => updateSls_eq_ok s ht
      rw [bind_eq_ok]
      constructor
      · rintro ⟨t', ht', h⟩
        obtain ⟨hne, rfl⟩ := (hupdate t').mp ht'
        exact ⟨e, rfl, hne, (Except.ok.inj h).symm⟩
      · rintro ⟨_, he, hne, rfl⟩
        obtain rfl := Option.some.inj he
        exact ⟨_, (hupdate _).mpr ⟨hne, rfl⟩, rfl⟩
  · exact ⟨nofun, fun ⟨_, h, _⟩ => absurd (hroute _ h) hsw⟩

lemma sls_ne_nil_of_along {hops : List (Physp N × Physp N)} {t : Track}
    (h : (along s hops t).sls ≠ []) : t.sls ≠ [] := by
  obtain ⟨sl, hsl⟩ := List.exists_mem_of_ne_nil _ h
  exact List.ne_nil_of_mem (keepSls_subset s _ _ hsl)

variable [DecidableEq N]

lemma Route.of_prWalk {lid left : ℕ} {dest p : Physp N} {t : Track} {r : Physp N × Track}
    (ht : t.sls ≠ []) (h : prWalk s lid left dest p t = .ok r) :
    ∃ hops, Route s lid dest p hops ∧ hops.length ≤ left ∧ (along s hops t).sls ≠ [] ∧
      r = (dest, along s hops t) := by
  fun_induction prWalk s lid left dest p t with
  | case1 left t =>
    refine ⟨[], .here, Nat.zero_le _, ?_, ?_⟩
    · rwa [along_nil]
    · rw [along_nil, Except.ok.inj h]
  | case2 => exact nomatch h
  | case3 left p t hp hr =>
    refine ⟨[], .link hp hr, Nat.zero_le _, ?_, ?_⟩
    · rwa [along_nil]
    · rw [along_nil, Except.ok.inj h]
  | case4 => exact nomatch h
  | case5 => exact nomatch h
  | case6 p t hp q hr hq r' left htr ih =>
    obtain ⟨e, he, hne, rfl⟩ := (traverse_eq_ok s ht).mp htr
    obtain ⟨hops, hroute, hlen, hsls, hend⟩ := ih hne h
    rw [← along_step] at hsls hend
    exact ⟨(q, e) :: hops, .switch hp hr hq he hroute, Nat.succ_le_succ hlen, hsls, hend⟩

lemma Route.prWalk {lid left : ℕ} {dest p : Physp N} {hops : List (Physp N × Physp N)}
    (h : Route s lid dest p hops) (t : Track) (hlen : hops.length ≤ left)
    (hsls : (along s hops t).sls ≠ []) :
    prWalk s lid left dest p t = .ok (dest, along s hops t) := by
  induction h generalizing left t with
  | here => rw [SaPath.prWalk, if_pos rfl, along_nil]
  | link hp hr =>
    rw [SaPath.prWalk, if_neg hp, hr]
    simp only [if_true, along_nil]
  | @switch p q e hops hp hr hq he _ ih =>
    rw [along_step] at hsls ⊢
    have hmid := sls_ne_nil_of_along s hsls
    have htr := (traverse_eq_ok s (sls_ne_nil_of_along s hmid)).mpr ⟨e, he, hmid, rfl⟩
    obtain ⟨left, rfl⟩ := Nat.exists_eq_succ_of_ne_zero (Nat.ne_of_gt ((Nat.succ_pos _).trans_le hlen))
    rw [SaPath.prWalk, if_neg hp, hr]
    simp only [if_neg hq, htr]
    exact ih _ (Nat.le_of_succ_le_succ hlen) hsls

lemma prWalk_eq_ok {lid left : ℕ} {dest p : Physp N} {t : Track} {r : Physp N × Track}
    (ht : t.sls ≠ []) :
    prWalk s lid left dest p t = .ok r ↔
      ∃ hops, Route s lid dest p hops ∧ hops.length ≤ left ∧ (along s hops t).sls ≠ [] ∧
        r = (dest, along s hops t) := by
  constructor
  · exact Route.of_prWalk s ht
  · rintro ⟨hops, hroute, hlen, hsls, rfl⟩
    exact hroute.prWalk s t hlen hsls

def routeSls (p : Physp N) (hops : List (Physp N × Physp N)) : List ℕ :=
  keepSls s ((p, 0) :: hopOuts hops) (List.range maxNumVls)

def limited (level : Option QosLevel) (t : Track) : Track :=
  { t with
    mtu := ((level.bind (·.mtuLimit)).map (lower id t.mtu)).getD t.mtu
    rate := ((level.bind (·.rateLimit)).map fun r => lower rateOrder t.rate r.1).getD t.rate }

def routeTrack (req : Req) (src dest p d : Physp N) (hops : List (Physp N × Physp N))
    (level : Option QosLevel) : Track :=
  limited level (endTrack s d (along s hops { startTrack s req src dest with
    sls := keepSls s [(p, 0)] (List.range maxNumVls) }))

omit [DecidableEq N] in
lemma sls_routeTrack (req : Req) (src dest p d : Physp N) (hops : List (Physp N × Physp N))
    (level : Option QosLevel) :
    (routeTrack s req src dest p d hops level).sls = routeSls s p hops :=
  (keepSls_cons s _ _ _).symm

omit [DecidableEq N] in
lemma limitTrack_eq_ok {level : QosLevel} {t t' : Track} :
    limitTrack level t = .ok t' ↔ (∀ sl, level.sl = some sl → sl ∈ t.sls) ∧ t' = limited (some level) t := by
  rw [limitTrack]
  cases hsl : level.sl with
  | none => exact ⟨fun h => ⟨nofun, (Except.ok.inj h).symm⟩, fun h => h.2 ▸ rfl⟩
  | some sl =>
    by_cases hmem : sl ∈ t.sls
    · simp only [Option.any_some, hmem, not_true_eq_false, decide_false, Bool.false_eq_true, if_false]
      exact ⟨fun h => ⟨fun _ h' => Option.some.inj h' ▸ hmem, (Except.ok.inj h).symm⟩, fun h => h.2 ▸ rfl⟩
    · simp only [Option.any_some, hmem, not_false_eq_true, decide_true, if_true]
      exact ⟨nofun, fun h => absurd (h.1 sl rfl) hmem⟩

omit [DecidableEq N] in
lemma trackPath_eq_ok {walk : Physp N → Physp N → Track → Except Status (Physp N × Track)}
    (fits : Physp N → Physp N → List (Physp N × Physp N) → Prop) {req : Req} {src dest d : Physp N}
    {lid : ℕ} {level : Option QosLevel} {t : Track}
    (hwalk : ∀ d p t r, t.sls ≠ [] → (walk d p t = .ok r ↔
      ∃ hops, Route s lid d p hops ∧ fits d p hops ∧ (along s hops t).sls ≠ [] ∧ r = (d, along s hops t))) :
    trackPath s walk req src dest lid = .ok (d, level, t) ↔
      level = qosLevel s src d req ∧ routedPort s dest lid = .ok d ∧
        ∃ p hops, routedPort s src lid = .ok p ∧ Route s lid d p hops ∧ fits d p hops ∧ routeSls s p hops ≠ [] ∧
          (∀ sl, level.bind (·.sl) = some sl → sl ∈ routeSls s p hops) ∧
          t = routeTrack s req src dest p d hops level := by
  have hstart : (startTrack s req src dest).sls ≠ [] := List.cons_ne_nil _ _
  have hsls : ∀ p hops, routeSls s p hops = keepSls s (hopOuts hops) (keepSls s [(p, 0)] (List.range maxNumVls)) :=
    fun p hops => keepSls_cons s _ _ _
  simp only [trackPath, bind_eq_ok]
  constructor
  · rintro ⟨p, hp, t0, ht0, d', hd, r, hr, h⟩
    obtain ⟨hne, rfl⟩ := (updateSls_eq_ok s hstart).mp ht0
    obtain ⟨hops, hroute, hfits, hleft, rfl⟩ := (hwalk d' p _ r hne).mp hr
    cases hlevel : qosLevel s src d' req with
    | none =>
      simp only [hlevel] at h
      obtain ⟨rfl, rfl, rfl⟩ := by simpa using Except.ok.inj h
      exact ⟨hlevel.symm, hd, p, hops, hp, hroute, hfits, hsls p hops ▸ hleft, nofun, rfl⟩
    | some level' =>
      simp only [hlevel, bind_eq_ok] at h
      obtain ⟨t1, ht1, h⟩ := h
      obtain ⟨rfl, rfl, rfl⟩ := by simpa using Except.ok.inj h
      obtain ⟨hsl, rfl⟩ := limitTrack_eq_ok.mp ht1
      exact ⟨hlevel.symm, hd, p, hops, hp, hroute, hfits, hsls p hops ▸ hleft, hsls p hops ▸ hsl, rfl⟩
  · rintro ⟨rfl, hd, p, hops, hp, hroute, hfits, hleft, hsl, rfl⟩
    rw [hsls] at hleft hsl
    have hne : keepSls s [(p, 0)] (List.range maxNumVls) ≠ [] := by
      obtain ⟨sl, hmem⟩ := List.exists_mem_of_ne_nil _ hleft
      exact List.ne_nil_of_mem (keepSls_subset s _ _ hmem)
    refine ⟨p, hp, _, (updateSls_eq_ok s hstart).mpr ⟨hne, rfl⟩, d, hd, _,
      (hwalk d p _ _ hne).mpr ⟨hops, hroute, hfits, hleft, rfl⟩, ?_⟩
    cases hlevel : qosLevel s src d req with
    | none => rfl
    | some level =>
      rw [hlevel] at hsl
      exact (bind_eq_ok).mpr ⟨_, limitTrack_eq_ok.mpr ⟨hsl, rfl⟩, rfl⟩

/-! ### What bounds the MTU and the rate -/

def valueBounds (on : Bool) (sel required : ℕ) : List ℕ :=
  if on then
    match sel with
    | 1 => [required - 1]
    | 2 => [required]
    | _ => []
  else []

/-- The values below the MTU capability of `src` that the walk to `d` compares with. -/
def trackMtus (req : Req) (src dest d : Physp N) (hops : List (Physp N × Physp N))
    (level : Option QosLevel) : List ℕ :=
  (if s.opt.enableQuirks ∧ applyTavorMtuLimit s req src dest then [mtuLen1024] else []) ++
    (hopBounds s hops).map (·.1) ++ [(s.portInfo d).getMtuCap] ++ (level.bind (·.mtuLimit)).toList

def trackRates (d : Physp N) (hops : List (Physp N × Physp N)) (level : Option QosLevel) : List ℕ :=
  (hopBounds s hops).map (·.2) ++ [endRate s d] ++
    ((level.bind (·.rateLimit)).map (·.1)).toList

def mtuBounds (req : Req) (src dest d : Physp N) (hops : List (Physp N × Physp N))
    (level : Option QosLevel) : List ℕ :=
  (s.portInfo src).getMtuCap :: trackMtus s req src dest d hops level ++
    valueBounds (req.comp .mtuSelec && req.comp .mtu) req.mtuSel req.mtu

def rateValueBounds (sel required : ℕ) : List ℕ :=
  match sel with
  | 1 => [pathRateGetPrev required]
  | 2 => [required]
  | _ => []

def requestRates (req : Req) : List ℕ :=
  if req.comp .rateSelec && req.comp .rate then rateValueBounds req.rateSel req.rate else []

def rateBounds (req : Req) (src d : Physp N) (hops : List (Physp N × Physp N))
    (level : Option QosLevel) : List ℕ :=
  endRate s src :: trackRates s d hops level ++ requestRates req

def MeetsValue (sel required v : ℕ) : Prop :=
  (sel = 0 → required < v) ∧ (sel = 1 → v < required) ∧ (sel = 2 → v = required)

def MeetsRate (sel required v : ℕ) : Prop :=
  (sel = 0 → pathCompareRates v required = .gt) ∧ (sel = 1 → pathCompareRates v required = .lt) ∧
    (sel = 2 → pathCompareRates v required = .eq)

omit [DecidableEq N] in
lemma mtu_routeTrack (req : Req) (src dest p d : Physp N) (hops : List (Physp N × Physp N))
    (level : Option QosLevel) :
    (routeTrack s req src dest p d hops level).mtu =
      lowest id (s.portInfo src).getMtuCap (trackMtus s req src dest d hops level) := by
  have hstart : (startTrack s req src dest).mtu = lowest id (s.portInfo src).getMtuCap
      (if s.opt.enableQuirks ∧ applyTavorMtuLimit s req src dest then [mtuLen1024] else []) := by
    rw [startTrack]
    split_ifs <;> rfl
  have hlimit : ∀ a, ((level.bind (·.mtuLimit)).map (lower id a)).getD a =
      lowest id a (level.bind (·.mtuLimit)).toList := by
    intro a
    cases level.bind (·.mtuLimit) <;> rfl
  rw [trackMtus, lowest_append, lowest_append, lowest_append, ← hstart, ← hlimit]
  rfl

omit [DecidableEq N] in
lemma rate_routeTrack (req : Req) (src dest p d : Physp N) (hops : List (Physp N × Physp N))
    (level : Option QosLevel) :
    (routeTrack s req src dest p d hops level).rate =
      lowest rateOrder (endRate s src) (trackRates s d hops level) := by
  have hlimit : ∀ a, ((level.bind (·.rateLimit)).map fun r => lower rateOrder a r.1).getD a =
      lowest rateOrder a ((level.bind (·.rateLimit)).map (·.1)).toList := by
    intro a
    cases level.bind (·.rateLimit) <;> rfl
  rw [trackRates, lowest_append, lowest_append, ← hlimit]
  rfl

omit [DecidableEq N] in
lemma valid_trackRates (src d : Physp N) (hops : List (Physp N × Physp N)) (level : Option QosLevel) :
    ∀ b ∈ endRate s src :: trackRates s d hops level, rateIsValid b := by
  intro b hb
  rcases List.mem_cons.mp hb with rfl | hb
  · exact PortInfo.valid_computeRate _ _
  rw [trackRates, List.mem_append, List.mem_append, List.mem_singleton] at hb
  rcases hb with (hb | rfl) | hb
  · simp only [hopBounds, List.mem_map, List.mem_flatMap] at hb
    obtain ⟨x, ⟨h, -, hx⟩, rfl⟩ := hb
    simp only [List.mem_cons, List.not_mem_nil, or_false] at hx
    rcases hx with rfl | rfl <;> exact PortInfo.valid_computeRate _ _
  · exact PortInfo.valid_computeRate _ _
  · obtain ⟨r, -, rfl⟩ := Option.map_eq_some_iff.mp (Option.mem_toList.mp hb)
    exact r.2

/-! ### What the request selects -/

lemma selectValue_ok {sel required value v : ℕ} (h : selectValue sel required value = .ok v) :
    MeetsValue sel required v ∧
      ∀ m, v ≤ m ↔ value ≤ m ∨ ∃ c ∈ valueBounds true sel required, c ≤ m := by
  simp only [MeetsValue, valueBounds, if_true]
  match sel, h with
  | 0, h =>
    simp only [selectValue] at h
    split_ifs at h with hle
    obtain rfl := Except.ok.inj h
    simpa using hle
  | 1, h =>
    simp only [selectValue] at h
    split_ifs at h with hle hone <;> obtain rfl := Except.ok.inj h
    · refine ⟨by omega, fun m => ?_⟩
      simp only [List.mem_singleton, exists_eq_left]
      omega
    · refine ⟨by omega, fun m => ?_⟩
      simp only [List.mem_singleton, exists_eq_left]
      omega
  | 2, h =>
    simp only [selectValue] at h
    split_ifs at h with hlt
    obtain rfl := Except.ok.inj h
    refine ⟨by omega, fun m => ?_⟩
    simp only [List.mem_singleton, exists_eq_left]
    omega
  | 3, h =>
    obtain rfl := Except.ok.inj h
    simp
  | n + 4, h => exact nomatch h

lemma selectMtu_ok {req : Req} {mtu v : ℕ} (h : selectMtu req mtu = .ok v) :
    (req.comp .mtuSelec → req.comp .mtu → MeetsValue req.mtuSel req.mtu v) ∧
      ∀ m, v ≤ m ↔ mtu ≤ m ∨
        ∃ c ∈ valueBounds (req.comp .mtuSelec && req.comp .mtu) req.mtuSel req.mtu, c ≤ m := by
  rw [selectMtu] at h
  split_ifs at h with hon
  · rw [hon.1, hon.2]
    exact ⟨fun _ _ => (selectValue_ok h).1, (selectValue_ok h).2⟩
  · obtain rfl := Except.ok.inj h
    refine ⟨fun h1 h2 => absurd ⟨h1, h2⟩ hon, fun m => ?_⟩
    rw [← Bool.and_eq_true] at hon
    simp [valueBounds, hon]

lemma selectPktLife_ok {req : Req} {life v : ℕ} (h : selectPktLife req life = .ok v)
    (hon : req.comp .pktLifeTimeSelec) (hon' : req.comp .pktLifeTime) :
    selectValue req.pktLifeSel req.pktLife life = .ok v := by
  rwa [selectPktLife, if_pos ⟨hon, hon'⟩] at h

lemma rateOrder_pathRateGetPrev {r : ℕ} (h : rateIsValid r) (hp : pathRateGetPrev r ≠ 0) :
    rateIsValid (pathRateGetPrev r) ∧ rateOrder (pathRateGetPrev r) = rateOrder r - 1 := by
  have horder : rateOrder (pathRateGetPrev r) = rateOrder r - 1 := by
    rw [pathRateGetPrev] at hp ⊢
    split_ifs at hp ⊢
    · exact absurd rfl hp
    · exact absurd rfl hp
    · exact rateOrder_findOrderedRate hp
  refine ⟨?_, horder⟩
  obtain ⟨h2, h24⟩ := h
  rw [minRate] at h2
  rw [maxRate] at h24
  interval_cases r <;> first | exact absurd rfl hp | decide

lemma pathRateGetPrev_ne_zero {r : ℕ} (h : 1 < rateOrder r) : pathRateGetPrev r ≠ 0 := by
  obtain ⟨h2, h24⟩ := rateIsValid_of_pos (Nat.zero_lt_of_lt h)
  rw [minRate] at h2
  rw [maxRate] at h24
  interval_cases r <;> first | exact absurd h (by decide) | decide

private lemma forall_pair {P : ℕ → Prop} {a b : ℕ} (ha : P a) (hb : P b) : ∀ c ∈ [a, b], P c :=
  List.forall_mem_cons.mpr ⟨ha, List.forall_mem_singleton.mpr hb⟩

lemma selectRateValue_ok {sel required rate v : ℕ} (hreq : rateIsValid required)
    (hrate : rateIsValid rate) (h : selectRateValue sel required rate = .ok v) :
    (∀ b ∈ v :: rateValueBounds sel required, rateIsValid b) ∧
      v ∈ rate :: rateValueBounds sel required ∧
      ∀ b ∈ rate :: rateValueBounds sel required, rateOrder v ≤ rateOrder b := by
  have hpos := rateOrder_pos hreq
  match sel, h with
  | 0, h =>
    simp only [selectRateValue] at h
    split_ifs at h
    obtain rfl := Except.ok.inj h
    simpa [rateValueBounds] using hrate
  | 1, h =>
    simp only [selectRateValue] at h
    split_ifs at h with hlt hprev <;> obtain rfl := Except.ok.inj h
    · obtain ⟨hv, ho⟩ := rateOrder_pathRateGetPrev hreq hprev
      have hle := not_lt.mp (mt compare_lt_iff_lt.mpr hlt)
      exact ⟨forall_pair hv hv, List.mem_cons_of_mem _ List.mem_cons_self, forall_pair (by omega) le_rfl⟩
    · have hlt := compare_lt_iff_lt.mp (not_not.mp hlt)
      have hrpos := rateOrder_pos hrate
      obtain ⟨hv, ho⟩ := rateOrder_pathRateGetPrev hreq (pathRateGetPrev_ne_zero (by omega))
      exact ⟨forall_pair hrate hv, List.mem_cons_self, forall_pair le_rfl (by omega)⟩
  | 2, h =>
    simp only [selectRateValue] at h
    split_ifs at h with heq
    obtain rfl := Except.ok.inj h
    have heq := compare_eq_iff_eq.mp (not_not.mp heq)
    exact ⟨forall_pair hreq hreq, List.mem_cons_of_mem _ List.mem_cons_self, forall_pair heq.ge le_rfl⟩
  | 3, h =>
    obtain rfl := Except.ok.inj h
    simpa [rateValueBounds] using hrate
  | n + 4, h => exact nomatch h

lemma selectRate_ok {req : Req} {rate v : ℕ} (hreq : req.Checked) (hrate : rateIsValid rate)
    (h : selectRate req rate = .ok v) :
    (∀ b ∈ v :: requestRates req, rateIsValid b) ∧ v ∈ rate :: requestRates req ∧
      ∀ b ∈ rate :: requestRates req, rateOrder v ≤ rateOrder b := by
  rw [selectRate] at h
  split_ifs at h with hon
  · rw [requestRates, hon.1, hon.2, Bool.and_self, if_pos rfl]
    exact selectRateValue_ok (hreq.rate hon.1 hon.2) hrate h
  · obtain rfl := Except.ok.inj h
    rw [← Bool.and_eq_true] at hon
    simpa [requestRates, hon] using hrate

end OpenSM.SaPath
