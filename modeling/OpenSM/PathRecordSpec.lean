import OpenSM.PathSupport

/-! When a path record is supported along the whole path. -/

namespace OpenSM.SaPath

open Lib

variable {N : Type} [DecidableEq N] (s : Subn N)

def PathRec.getMtu (r : PathRec) : ℕ := r.mtu % 64

def PathRec.getRate (r : PathRec) : ℕ := r.rate % 64

def PathRec.getPktLife (r : PathRec) : ℕ := r.pktLife % 64

/-- MTU and rate of every port traversed: both ends, the ports of the switches on the way, and
the port a source switch is left by. -/
def traversed (src dest p : Physp N) (hops : List (Physp N × Physp N)) : List (ℕ × ℕ) :=
  (endBound s src :: hopBounds s hops ++ [endBound s dest]) ++
    if (s.sw src.node).isSome then [((s.portInfo p).getMtuCap, switchPortRate s p)] else []

/-- A path record that holds along the path of `dlid` from `src` to `dest`, and is what the
request asked for. -/
structure Supported (req : Req) (src dest : Physp N) (dlid : ℕ) (r : PathRec) : Prop where
  path : ∃ p hops, routedPort s src dlid = .ok p ∧ Route s dlid dest p hops ∧
    hops.length ≤ maxHops ∧
    (∀ b ∈ traversed s src dest p hops, r.getMtu ≤ b.1 ∧ pathCompareRates r.getRate b.2 ≠ .gt) ∧
    (s.opt.qos → ∀ o ∈ (p, 0) :: hopOuts hops, dropped s o.1 o.2 r.sl = false)
  mtu : req.comp .mtuSelec → req.comp .mtu → MeetsValue req.mtuSel req.mtu r.getMtu
  rate : req.comp .rateSelec → req.comp .rate → MeetsRate req.rateSel req.rate r.getRate
  pktLife : req.comp .pktLifeTimeSelec → req.comp .pktLifeTime →
    MeetsValue req.pktLifeSel req.pktLife r.getPktLife

def shownRate (req : Req) (src dest : AliasGuid s) (sgid dgid : Option Gid) (slid dlid b : ℕ) : ℕ :=
  recRate s (if sgid.isSome then s.portByLid slid else some src.basePort)
    (if dgid.isSome then s.portByLid dlid else some dest.basePort)
    (prRcvGetPathParms s req dest dlid src slid).isOk b

/-- What keeps a record true to the path: the destination switch routes the LID to the port that
was asked for, the port a source switch is left by is not the narrowest on the path, and what is
done to rate, lifetime and SL after the request was checked does no harm. -/
structure Faithful (req : Req) (src dest : AliasGuid s) (sgid dgid : Option Gid) (slid dlid : ℕ) :
    Prop where
  routed : (s.sw dest.basePort.node).isSome →
    switchGetRouteByLid s dest.basePort.node dlid = some dest.basePort
  mtu : ∀ p hops, routedPort s src.basePort dlid = .ok p → Route s dlid dest.basePort p hops →
    (s.sw src.basePort.node).isSome →
    ∃ c ∈ mtuBounds s req src.basePort dest.basePort dest.basePort hops
      (qosLevel s src.basePort dest.basePort req), c ≤ (s.portInfo p).getMtuCap
  rate : ∀ p hops, routedPort s src.basePort dlid = .ok p → Route s dlid dest.basePort p hops →
    ∀ b ∈ rateBounds s req src.basePort dest.basePort hops
      (qosLevel s src.basePort dest.basePort req),
    (∀ c ∈ rateBounds s req src.basePort dest.basePort hops
      (qosLevel s src.basePort dest.basePort req), rateOrder b ≤ rateOrder c) →
    ((s.sw src.basePort.node).isSome →
      rateOrder (shownRate s req src dest sgid dgid slid dlid b) ≤ rateOrder (switchPortRate s p)) ∧
    (req.comp .rateSelec → req.comp .rate →
      MeetsRate req.rateSel req.rate (shownRate s req src dest sgid dgid slid dlid b))
  pktLife : req.comp .pktLifeTimeSelec → req.comp .pktLifeTime → req.pktLifeSel = 0 →
    req.pktLife < pktLifeTime s (qosLevel s src.basePort dest.basePort req) src.basePort
      dest.basePort % 64
  sl : s.opt.qos → ∀ pathSl, s.pathSl = some pathSl →
    ∀ p hops, routedPort s src.basePort dlid = .ok p → Route s dlid dest.basePort p hops →
    ∀ pkey hint,
    selectPkey s (qosLevel s src.basePort dest.basePort req) src.basePort dest.basePort req = .ok pkey →
    selectSl s (qosLevel s src.basePort dest.basePort req) req pkey (prPrtnSl s (pkeyGetBase pkey))
      (routeSls s p hops) = .ok hint →
    ∀ o ∈ (p, 0) :: hopOuts hops, dropped s o.1 o.2 (pathSl hint slid dlid % 16) = false

structure ParmsSpec (req : Req) (src dest : Physp N) (slid dlid : ℕ) (d p : Physp N)
    (hops : List (Physp N × Physp N)) (parms : PathParms) : Prop where
  routed : routedPort s dest dlid = .ok d
  start : routedPort s src dlid = .ok p
  route : Route s dlid d p hops
  short : hops.length ≤ maxHops
  mtu_le : ∀ m, parms.mtu ≤ m ↔ ∃ c ∈ mtuBounds s req src dest d hops (qosLevel s src d req), c ≤ m
  mtu_meets : req.comp .mtuSelec → req.comp .mtu → MeetsValue req.mtuSel req.mtu parms.mtu
  rate_valid : ∀ b ∈ rateBounds s req src d hops (qosLevel s src d req), rateIsValid b
  rate_mem : parms.rate ∈ rateBounds s req src d hops (qosLevel s src d req)
  rate_le : ∀ b ∈ rateBounds s req src d hops (qosLevel s src d req),
    rateOrder parms.rate ≤ rateOrder b
  pktLife : selectPktLife req (pktLifeTime s (qosLevel s src d req) src dest) = .ok parms.pktLife
  sl : ∃ pkey hint, selectPkey s (qosLevel s src d req) src d req = .ok pkey ∧
    selectSl s (qosLevel s src d req) req pkey (prPrtnSl s (pkeyGetBase pkey)) (routeSls s p hops) =
      .ok hint ∧
    (s.opt.qos → hint ∈ routeSls s p hops) ∧ overrideSl s req slid dlid hint = .ok parms.sl

variable {s}

lemma resetPkey_eq (req : Req) (parms : PathParms) :
    ∃ pkey, resetPkey req parms = { parms with pkey := pkey } := by
  rw [resetPkey]
  split_ifs
  · exact ⟨0, rfl⟩
  · exact ⟨parms.pkey, rfl⟩

lemma prRcvGetPathParms_ok {req : Req} {src dest : AliasGuid s} {slid dlid : ℕ} {parms : PathParms}
    (hreq : req.Checked) (h : prRcvGetPathParms s req src slid dest dlid = .ok parms) :
    ∃ d p hops, ParmsSpec s req src.basePort dest.basePort slid dlid d p hops parms := by
  simp only [prRcvGetPathParms, bind_eq_ok] at h
  obtain ⟨⟨d, level, t⟩, ht, parms', hparms', sl, hsl, h⟩ := h
  obtain ⟨rfl, hd, p, hops, hp, hroute, hlen, -, -, rfl⟩ :=
    (trackPath_eq_ok s (fun _ _ hops => hops.length ≤ maxHops) fun d p t r ht => prWalk_eq_ok s ht).mp ht
  obtain ⟨pkey', hreset⟩ := resetPkey_eq req { parms' with sl := sl }
  obtain rfl := Except.ok.inj (hreset ▸ h)
  simp only [selectParms, bind_eq_ok] at hparms'
  obtain ⟨mtu, hmtu, rate, hrate, life, hlife, pkey, hpkey, hint, hhint, sl', hsl', h⟩ := hparms'
  obtain rfl := Except.ok.inj h
  rw [mtu_routeTrack] at hmtu
  rw [rate_routeTrack] at hrate
  rw [sls_routeTrack] at hhint hsl'
  have hcheck : sl' = hint ∧ (s.opt.qos → hint ∈ routeSls s p hops) := by
    rw [checkSl] at hsl'
    split_ifs at hsl' with hqos
    exact ⟨(Except.ok.inj hsl').symm, fun hq => not_not.mp fun hn => hqos ⟨hq, hn⟩⟩
  have hvalid := valid_trackRates s src.basePort d hops (qosLevel s src.basePort d req)
  obtain ⟨hrv, hrm, hrle⟩ := selectRate_ok hreq (hvalid _ (lowest_mem _ _ _)) hrate
  obtain ⟨hmeets, hmle⟩ := selectMtu_ok hmtu
  refine ⟨d, p, hops, hd, hp, hroute, hlen, fun m => ?_, hmeets, ?_, ?_, ?_, hlife, pkey, hint, hpkey,
    hhint, hcheck.2, hcheck.1 ▸ hsl⟩
  · have hlow := lowest_le_iff id (s.portInfo src.basePort).getMtuCap
      (trackMtus s req src.basePort dest.basePort d hops (qosLevel s src.basePort d req)) m
    rw [hmle m, mtuBounds]
    simp only [id_eq] at hlow
    rw [hlow]
    simp only [List.mem_append, or_and_right, exists_or]
  · intro b hb
    rcases List.mem_append.mp hb with hb | hb
    · exact hvalid b hb
    · exact hrv b (List.mem_cons_of_mem _ hb)
  · rcases List.mem_cons.mp hrm with hrm | hrm
    · rw [hrm]
      exact List.mem_append_left _ (lowest_mem _ _ _)
    · exact List.mem_append_right _ hrm
  · intro b hb
    rcases List.mem_append.mp hb with hb | hb
    · exact (hrle _ List.mem_cons_self).trans (lowest_le rateOrder hb)
    · exact hrle b (List.mem_cons_of_mem _ hb)

omit [DecidableEq N] in
lemma switchGetRouteByLid_node {n : N} {lid : ℕ} {e : Physp N}
    (h : switchGetRouteByLid s n lid = some e) : e.node = n := by
  obtain ⟨sw, -, h⟩ := Option.bind_eq_some_iff.mp h
  simp only at h
  split_ifs at h <;> exact (Option.some.inj h) ▸ rfl

omit [DecidableEq N] in
lemma routed_of_routedPort {p e : Physp N} {lid : ℕ} (h : routedPort s p lid = .ok e)
    (hsw : (s.sw e.node).isSome) : switchGetRouteByLid s e.node lid = some e := by
  rw [routedPort] at h
  split_ifs at h with hp
  · cases hr : switchGetRouteByLid s p.node lid with
    | none => simp [hr] at h
    | some e' =>
      obtain rfl := by simpa [hr] using h
      rwa [switchGetRouteByLid_node hr]
  · exact absurd (Except.ok.inj h ▸ hsw) hp

omit [DecidableEq N] in
lemma Route.routed {lid : ℕ} {dest p : Physp N} {hops : List (Physp N × Physp N)}
    (h : Route s lid dest p hops)
    (hp : (s.sw p.node).isSome → switchGetRouteByLid s p.node lid = some p)
    (h0 : (s.sw dest.node).isSome → dest.portNum = 0) (hsw : (s.sw dest.node).isSome) :
    switchGetRouteByLid s dest.node lid = some dest := by
  induction h with
  | here => exact hp hsw
  | link _ hr => exact absurd (h0 hsw) (s.remote_port0 _ _ hr hsw)
  | switch _ _ _ he _ ih =>
    apply ih
    intro _
    rwa [switchGetRouteByLid_node he]

omit [DecidableEq N] in
lemma routedPort_eq_of_routed {dest d : Physp N} {lid : ℕ} (h : routedPort s dest lid = .ok d)
    (hrouted : (s.sw dest.node).isSome → switchGetRouteByLid s dest.node lid = some dest) :
    d = dest := by
  rw [routedPort] at h
  split_ifs at h with hsw
  · simpa [hrouted hsw] using h.symm
  · exact (Except.ok.inj h).symm

lemma or_0x80_mod (v : ℕ) : (v ||| 0x80) % 64 = v % 64 := by
  have h := Nat.or_mod_two_pow (a := v) (b := 0x80) (n := 6)
  simpa using h

omit [DecidableEq N] in
lemma recRate_spec (src dest : Option (Physp N)) (reversible : Bool) {rate : ℕ}
    (h : rateIsValid rate) :
    rateIsValid (recRate s src dest reversible rate) ∧
      rateOrder (recRate s src dest reversible rate) ≤ rateOrder rate := by
  have hfixup : ∀ (p : Option (Physp N)) {rate : ℕ}, rateIsValid rate →
      rateIsValid ((p.map fun p => (s.portInfo p).rate2xHdrFixups rate).getD rate) ∧
        rateOrder ((p.map fun p => (s.portInfo p).rate2xHdrFixups rate).getD rate) ≤ rateOrder rate := by
    intro p rate hrate
    cases p with
    | none => exact ⟨hrate, le_rfl⟩
    | some p => exact (s.portInfo p).rate2xHdrFixups_spec hrate
  rw [recRate]
  split_ifs
  · rw [saLimitRate]
    split_ifs
    · exact pathGetReducedRate_spec h _
    · exact ⟨h, le_rfl⟩
  · have hsrc := hfixup src h
    have hdest := hfixup dest hsrc.1
    exact ⟨hdest.1, hdest.2.trans hsrc.2⟩
  · exact hfixup src h
  · exact ⟨h, le_rfl⟩

lemma meets_pktLife_iff {sel required life v : ℕ} (h : selectValue sel required life = .ok v)
    (hreq : required < 64) : MeetsValue sel required (v % 64) ↔ (sel = 0 → required < life % 64) := by
  have hmeets := (selectValue_ok h).1
  rw [MeetsValue] at hmeets ⊢
  rcases hsel : sel with _ | _ | _ | n
  · subst hsel
    simp only [selectValue] at h
    split_ifs at h
    obtain rfl := Except.ok.inj h
    simp
  · have := hmeets.2.1 hsel
    omega
  · have := hmeets.2.2 hsel
    omega
  · omega

lemma selectValue_zero {sel required v : ℕ} (h : selectValue sel required 0 = .ok v) : v = 0 := by
  have hle := ((selectValue_ok h).2 0).mpr (.inl le_rfl)
  exact Nat.le_zero.mp hle

lemma shownRate_spec (req : Req) (src dest : AliasGuid s) (sgid dgid : Option Gid) (slid dlid : ℕ)
    {b : ℕ} (h : rateIsValid b) :
    rateIsValid (shownRate s req src dest sgid dgid slid dlid b) ∧
      rateOrder (shownRate s req src dest sgid dgid slid dlid b) ≤ rateOrder b :=
  recRate_spec _ _ _ h

lemma prRcvGetLidPairPath_some {req : Req} {src dest : AliasGuid s} {sgid dgid : Option Gid}
    {slid dlid preference : ℕ} {r : PathRec}
    (h : prRcvGetLidPairPath s req src dest sgid dgid slid dlid preference = some r) :
    ∃ parms, prRcvGetPathParms s req src slid dest dlid = .ok parms ∧
      r = prRcvBuildPr s src dest sgid dgid slid dlid preference parms
        (prRcvGetPathParms s req dest dlid src slid).isOk := by
  rw [prRcvGetLidPairPath] at h
  split at h
  · exact nomatch h
  · simp only at h
    split_ifs at h
    exact ⟨_, by assumption, (Option.some.inj h).symm⟩

namespace ParmsSpec

variable {req : Req} {src dest : Physp N} {slid dlid : ℕ} {d p : Physp N}
  {hops : List (Physp N × Physp N)} {parms : PathParms}

lemma mtu_lt (h : ParmsSpec s req src dest slid dlid d p hops parms) : parms.mtu < 16 := by
  have hle : parms.mtu ≤ (s.portInfo src).getMtuCap := (h.mtu_le _).mpr ⟨_, List.mem_cons_self, le_rfl⟩
  exact hle.trans_lt (Nat.mod_lt _ (by norm_num))

lemma same (h : ParmsSpec s req src dest slid dlid d p hops parms) {p' : Physp N}
    {hops' : List (Physp N × Physp N)} (hp : routedPort s src dlid = .ok p')
    (hroute : Route s dlid d p' hops') : p' = p ∧ hops' = hops := by
  obtain rfl := Except.ok.inj (hp.symm.trans h.start)
  exact ⟨rfl, hroute.unique h.route⟩

lemma rate_unique (h : ParmsSpec s req src dest slid dlid d p hops parms) {b : ℕ}
    (hb : b ∈ rateBounds s req src d hops (qosLevel s src d req))
    (hlow : ∀ c ∈ rateBounds s req src d hops (qosLevel s src d req), rateOrder b ≤ rateOrder c) :
    b = parms.rate :=
  rateOrder_inj (h.rate_valid b hb) (h.rate_valid _ h.rate_mem)
    ((hlow _ h.rate_mem).antisymm (h.rate_le b hb))

lemma counted (h : ParmsSpec s req src dest slid dlid d p hops parms) {b : ℕ × ℕ}
    (hb : b ∈ endBound s src :: hopBounds s hops ++ [endBound s d]) :
    parms.mtu ≤ b.1 ∧ rateOrder parms.rate ≤ rateOrder b.2 := by
  have hmem : b.1 ∈ mtuBounds s req src dest d hops (qosLevel s src d req) ∧
      b.2 ∈ rateBounds s req src d hops (qosLevel s src d req) := by
    simp only [mtuBounds, rateBounds, trackMtus, trackRates, List.mem_append, List.mem_cons,
      List.not_mem_nil, or_false] at hb ⊢
    rcases hb with (rfl | hb) | rfl
    · exact ⟨.inl (.inl rfl), .inl (.inl rfl)⟩
    · exact ⟨.inl (.inr (.inl (.inl (.inr (List.mem_map_of_mem hb))))),
        .inl (.inr (.inl (.inl (List.mem_map_of_mem hb))))⟩
    · exact ⟨.inl (.inr (.inl (.inr rfl))), .inl (.inr (.inl (.inr rfl)))⟩
  exact ⟨(h.mtu_le _).mpr ⟨_, hmem.1, le_rfl⟩, h.rate_le _ hmem.2⟩

lemma traversed_iff (h : ParmsSpec s req src dest slid dlid d p hops parms) {mtu rate : ℕ}
    (hmtu : mtu = parms.mtu) (hrate : rateOrder rate ≤ rateOrder parms.rate) :
    (∀ b ∈ traversed s src d p hops, mtu ≤ b.1 ∧ pathCompareRates rate b.2 ≠ .gt) ↔
      ((s.sw src.node).isSome → mtu ≤ (s.portInfo p).getMtuCap ∧
        rateOrder rate ≤ rateOrder (switchPortRate s p)) := by
  simp only [pathCompareRates_ne_gt]
  constructor
  · intro hb hsw
    apply hb ((s.portInfo p).getMtuCap, switchPortRate s p)
    rw [traversed, if_pos hsw]
    simp
  · intro hegress b hb
    rcases List.mem_append.mp hb with hb | hb
    · have hcounted := h.counted hb
      exact ⟨hmtu ▸ hcounted.1, hrate.trans hcounted.2⟩
    · split_ifs at hb with hsw
      · exact List.mem_singleton.mp hb ▸ hegress hsw
      · exact nomatch hb

/-- The SL checked against the mask is not dropped; what is left is the SL of a routing engine. -/
lemma dropped_iff (h : ParmsSpec s req src dest slid dlid d p hops parms) :
    (s.opt.qos → ∀ o ∈ (p, 0) :: hopOuts hops, dropped s o.1 o.2 (parms.sl % 16) = false) ↔
      (s.opt.qos → ∀ pathSl, s.pathSl = some pathSl → ∀ pkey hint,
        selectPkey s (qosLevel s src d req) src d req = .ok pkey →
        selectSl s (qosLevel s src d req) req pkey (prPrtnSl s (pkeyGetBase pkey))
          (routeSls s p hops) = .ok hint →
        ∀ o ∈ (p, 0) :: hopOuts hops, dropped s o.1 o.2 (pathSl hint slid dlid % 16) = false) := by
  obtain ⟨pkey, hint, hpkey, hhint, hmem, hover⟩ := h.sl
  rw [overrideSl] at hover
  cases hre : s.pathSl with
  | none =>
    rw [hre] at hover
    rw [← Except.ok.inj hover]
    refine ⟨fun _ _ _ hn => (nomatch hn), fun _ hqos => ?_⟩
    have hlt : hint < 16 := List.mem_range.mp (keepSls_subset s _ _ (hmem hqos))
    rw [Nat.mod_eq_of_lt hlt]
    exact not_dropped_of_mem_keepSls s hqos (hmem hqos)
  | some pathSl =>
    simp only [hre] at hover
    split_ifs at hover
    rw [← Except.ok.inj hover]
    constructor
    · intro hd hqos pathSl' hre' pkey' hint' hpkey' hhint'
      obtain rfl := Option.some.inj hre'
      obtain rfl := Except.ok.inj (hpkey.symm.trans hpkey')
      obtain rfl := Except.ok.inj (hhint.symm.trans hhint')
      exact hd hqos
    · intro hd hqos
      exact hd hqos pathSl rfl pkey hint hpkey hhint

end ParmsSpec

theorem supported_iff_faithful {pr : PathRecReq} {src dest : AliasGuid s} {sgid dgid : Option Gid}
    {slid dlid preference : ℕ} {r : PathRec} (hreq : pr.req.Checked)
    (hr : prRcvGetLidPairPath s pr.req src dest sgid dgid slid dlid preference = some r) :
    Supported s pr.req src.basePort dest.basePort dlid r ↔
      Faithful s pr.req src dest sgid dgid slid dlid := by
  obtain ⟨parms, hparms, hbuild⟩ := prRcvGetLidPairPath_some hr
  obtain ⟨d, p, hops, spec⟩ := prRcvGetPathParms_ok hreq hparms
  have hshown := shownRate_spec pr.req src dest sgid dgid slid dlid (spec.rate_valid _ spec.rate_mem)
  have hmtu : r.getMtu = parms.mtu := by
    have := spec.mtu_lt
    rw [hbuild, PathRec.getMtu, prRcvBuildPr, or_0x80_mod]
    omega
  have hrate : r.getRate = shownRate s pr.req src dest sgid dgid slid dlid parms.rate := by
    have hlt : shownRate s pr.req src dest sgid dgid slid dlid parms.rate < 64 :=
      hshown.1.2.trans_lt (by decide)
    rw [hbuild, PathRec.getRate, prRcvBuildPr, or_0x80_mod]
    exact Nat.mod_eq_of_lt hlt
  have hsl : r.sl = parms.sl % 16 := hbuild ▸ rfl
  have hlife : pr.req.comp .pktLifeTimeSelec → pr.req.comp .pktLifeTime →
      (MeetsValue pr.req.pktLifeSel pr.req.pktLife r.getPktLife ↔ (pr.req.pktLifeSel = 0 →
        pr.req.pktLife < pktLifeTime s (qosLevel s src.basePort d pr.req) src.basePort
          dest.basePort % 64)) := by
    intro hon hon'
    have hselect := selectPktLife_ok spec.pktLife hon hon'
    have hget : r.getPktLife = parms.pktLife % 64 := by
      rw [hbuild, PathRec.getPktLife, prRcvBuildPr]
      simp only
      split_ifs with hsame
      · rw [pktLifeTime, if_pos hsame] at hselect
        rw [selectValue_zero hselect]
      · exact or_0x80_mod _
    rw [hget]
    exact meets_pktLife_iff hselect (Nat.mod_lt _ (by norm_num))
  have hkey : d = dest.basePort → (Supported s pr.req src.basePort dest.basePort dlid r ↔
      Faithful s pr.req src dest sgid dgid slid dlid) := by
    rintro rfl
    have htraversed := spec.traversed_iff hmtu (hrate ▸ hshown.2)
    rw [hmtu, hrate] at htraversed
    constructor
    · intro h
      obtain ⟨p', hops', hp', hroute', -, hbounds, hdropped⟩ := h.path
      obtain ⟨rfl, rfl⟩ := spec.same hp' hroute'
      rw [hmtu, hrate] at hbounds
      have hegress := htraversed.mp hbounds
      refine ⟨routed_of_routedPort spec.routed, ?_, ?_, ?_, ?_⟩
      · intro p hops hp hroute hsw
        obtain ⟨rfl, rfl⟩ := spec.same hp hroute
        exact (spec.mtu_le _).mp (hegress hsw).1
      · intro p hops hp hroute b hb hlow
        obtain ⟨rfl, rfl⟩ := spec.same hp hroute
        obtain rfl := spec.rate_unique hb hlow
        exact ⟨fun hsw => (hegress hsw).2, hrate ▸ h.rate⟩
      · intro hon hon'
        exact (hlife hon hon').mp (h.pktLife hon hon')
      · intro hqos pathSl hre p hops hp hroute
        obtain ⟨rfl, rfl⟩ := spec.same hp hroute
        exact spec.dropped_iff.mp (hsl ▸ hdropped) hqos pathSl hre
    · intro h
      have hrates := h.rate p hops spec.start spec.route _ spec.rate_mem spec.rate_le
      refine ⟨⟨p, hops, spec.start, spec.route, spec.short, ?_, ?_⟩, ?_, ?_, ?_⟩
      · rw [hmtu, hrate]
        apply htraversed.mpr
        intro hsw
        exact ⟨(spec.mtu_le _).mpr (h.mtu p hops spec.start spec.route hsw), hrates.1 hsw⟩
      · rw [hsl]
        apply spec.dropped_iff.mpr
        intro hqos pathSl hre
        exact h.sl hqos pathSl hre p hops spec.start spec.route
      · exact hmtu ▸ spec.mtu_meets
      · exact hrate ▸ hrates.2
      · intro hon hon'
        exact (hlife hon hon').mpr (h.pktLife hon hon')
  constructor
  · intro h
    obtain ⟨p', hops', hp', hroute', -⟩ := h.path
    have hrouted := hroute'.routed (routed_of_routedPort hp') dest.port0
    exact (hkey (routedPort_eq_of_routed spec.routed hrouted)).mp h
  · intro h
    exact (hkey (routedPort_eq_of_routed spec.routed h.routed)).mpr h

def sdr (mtuCap : ℕ) : PortInfo := ⟨mtuCap, 2, 0x10, 0, false, false, false, false, false⟩

def pairRemote (p : Physp Bool) : Option (Physp Bool) :=
  if p = ⟨false, 1⟩ then some ⟨true, 1⟩ else if p = ⟨true, 1⟩ then some ⟨false, 1⟩ else none

lemma pairRemote_port0 (p q : Physp Bool) (h : pairRemote p = some q) : q.portNum ≠ 0 := by
  rw [pairRemote] at h
  split_ifs at h <;> obtain rfl := Option.some.inj h <;> decide

/-- A switch, LID 3, and a CA, LID 5, on its port 1, whose MTU capability is `egress`. -/
def pair (egress : ℕ) : Subn Bool where
  sw n := if n = false then some ⟨5, fun lid => if lid = 3 then 0 else if lid = 5 then 1 else noPath⟩ else none
  nodeType _ := 0
  deviceId _ := 0
  vendorId _ := 0
  valid _ := true
  portInfo p := if p = ⟨false, 1⟩ then sdr egress else sdr 4
  remote := pairRemote
  slvlByPort _ _ := ⟨fun _ => 0⟩
  pkeys _ := [(0x7fff, 0xffff)]
  portGuid _ := 0
  subnetPrefix _ := 0
  portByLid _ := none
  prtnSl _ := some 0
  nilSl := 0
  qosPolicy := none
  pathSl := none
  opt := ⟨false, false, false, 18, saRateMaxEnum⟩
  remote_port0 p q h _ := pairRemote_port0 p q h

def pairSwitch (egress : ℕ) : AliasGuid (pair egress) := ⟨1, ⟨false, 0⟩, fun _ => rfl⟩

def pairCa (egress : ℕ) : AliasGuid (pair egress) := ⟨2, ⟨true, 1⟩, fun h => Bool.noConfusion h⟩

def anyPath : PathRecReq := ⟨0, 0, 0, 0, 0, 0, 0, 0, 0⟩

lemma anyPath_checked : anyPath.req.Checked :=
  ⟨fun h => absurd h (by decide), fun h => absurd h (by decide), by decide⟩

def pairRecord : PathRec := ⟨⟨0, 2⟩, ⟨0, 1⟩, 5, 3, 0, 0xffff, 0, 0x84, 0x83, 0x92, 0, 0x80⟩

theorem supported_iff_faithful_pair :
    Supported (pair 4) anyPath.req ⟨false, 0⟩ ⟨true, 1⟩ 5 pairRecord ↔
      Faithful (pair 4) anyPath.req (pairSwitch 4) (pairCa 4) none none 3 5 :=
  @supported_iff_faithful _ _ (pair 4) anyPath (pairSwitch 4) (pairCa 4) none none 3 5 0 pairRecord
    anyPath_checked rfl

/-- The path record of a switch whose port to the destination takes a smaller MTU than the rest of
the path. -/
theorem switch_source_not_supported :
    prRcvGetLidPairPath (pair 1) anyPath.req (pairSwitch 1) (pairCa 1) none none 3 5 0 =
        some pairRecord ∧ anyPath.req.Checked ∧
      ¬Supported (pair 1) anyPath.req ⟨false, 0⟩ ⟨true, 1⟩ 5 pairRecord := by
  refine ⟨rfl, anyPath_checked, fun h => ?_⟩
  obtain ⟨p, hops, hp, -, -, hbounds, -⟩ := h.path
  obtain rfl := Except.ok.inj hp
  have hegress := hbounds (1, 3) (List.mem_append_right _ List.mem_cons_self)
  exact absurd hegress.1 (by decide)

end OpenSM.SaPath
