import Mathlib
import OpenSM.Lib.Runs

/-! The M_Key of a port and what the SM knows of it: the guid2mkey map, which is set when a SubnSet(PortInfo) is
sent, and the stored PortInfo, which is set when it is answered. -/

namespace OpenSM.MKeyMap

open Lib.Runs

abbrev MKey := ℕ

abbrev Mpb := BitVec 2

inductive PortState
  | down
  | init
  | armed
  | active
  deriving DecidableEq

/-- The order of the port states in `link_mgr_process_node`. -/
def PortState.num : PortState → ℕ
  | .down => 1
  | .init => 2
  | .armed => 3
  | .active => 4

section Port

/-- The M_Key and the protection level of a port. -/
structure Port where
  mKey : MKey
  mpb : Mpb
  deriving DecidableEq

def Port.get (p : Port) (mKey : MKey) : Option Port :=
  if p.mKey = 0 ∨ mKey = p.mKey ∨ p.mpb = 0 then some p
  else if p.mpb = 1 then some { p with mKey := 0 }
  else none

def Port.set (p : Port) (mKey : MKey) (new : Port) : Option Port :=
  if p.mKey = 0 ∨ mKey = p.mKey then some new else none

end Port

inductive Kind
  | ca
  | enhancedPort0
  | basePort0
  deriving DecidableEq

structure Opt where
  mKey : MKey
  mKeyProtectBits : Mpb
  deriving DecidableEq

/-- `none` is `IB_LINK_NO_CHANGE`, which the stored PortInfo has before the first answer. -/
structure PortInfo where
  mKey : MKey
  mpb : Mpb
  portState : Option PortState
  deriving DecidableEq

structure State where
  port : Port
  guid2mkey : Option MKey
  portInfo : PortInfo
  deriving DecidableEq

def PortInfo.unknown : PortInfo := ⟨0, 0, none⟩

def start (p : Port) : State := ⟨p, some p.mKey, .unknown⟩

section Requests

variable (opt : Opt) (s : State)

/-- `req_determine_mkey` for a path to the port. -/
def reqDetermineMkey : MKey := s.guid2mkey.getD opt.mKey

/-- The M_Key of a request in `osm_req_get` and `osm_prepare_req_set`, with `m_key_lookup` on. -/
def reqMKey (findMkey : Bool) : MKey := if findMkey then reqDetermineMkey opt s else s.portInfo.mKey

/-- What becomes of a MAD: it is lost (or not sent at all), only its answer is, or it is answered, with the port
state in the answer. -/
inductive Fate
  | lost
  | answerLost
  | answered (portState : PortState)
  deriving DecidableEq

def setPortInfo (answer : Port) (portState : PortState) : State :=
  if portState = .down then { s with portInfo := { s.portInfo with portState := some .down } }
  else
    { s with
      portInfo := ⟨answer.mKey, answer.mpb, some portState⟩
      guid2mkey := if answer.mKey ≠ 0 ∨ answer.mpb = 0 then some answer.mKey else s.guid2mkey }

/-- `osm_pi_rcv_process` for the answer to a SubnGet: PortState is not used on a base port 0. -/
def receiveGet (kind : Kind) (answer : Port) (portState : PortState) : State :=
  if kind = .basePort0 then
    { setPortInfo s answer portState with portInfo := ⟨answer.mKey, answer.mpb, some portState⟩ }
  else setPortInfo s answer portState

def getPortInfo (kind : Kind) : Fate → State
  | .answered portState => ((s.port.get (reqMKey opt s true)).map (receiveGet s kind · portState)).getD s
  | .lost | .answerLost => s

def deliverSet (mKey : MKey) (payload : Port) (fate : Fate) : State :=
  match s.port.set mKey payload with
  | none => s
  | some port =>
    match fate with
    | .lost => s
    | .answerLost => { s with port := port }
    | .answered portState => setPortInfo { s with port := port } payload portState

/-- The end of `lid_mgr_set_physp_pi` and `link_mgr_set_physp_pi`: the map takes the M_Key that is sent on the
assumption that the SubnSet succeeds. -/
def sendSet (updateMkey : Bool) (payload : Port) (fate : Fate) : State :=
  deliverSet (if updateMkey then { s with guid2mkey := some payload.mKey } else s)
      (reqMKey opt s false) payload fate

/-- `other` tells whether another attribute than the M_Key and its protection level has to be set. -/
def lidMgrSetPhyspPi (other : Bool) (fate : Fate) : State :=
  let updateMkey := decide (opt.mKey ≠ s.portInfo.mKey)
  if updateMkey || decide (opt.mKeyProtectBits ≠ s.portInfo.mpb) || s.portInfo.portState.isNone || other then
    sendSet opt s updateMkey ⟨opt.mKey, opt.mKeyProtectBits⟩ fate
  else s

/-- `portState` is the state that is asked for, `none` for `IB_LINK_NO_CHANGE`. -/
def linkMgrSetPhyspPi (kind : Kind) (portState : Option PortState) (other : Bool) (fate : Fate) : State :=
  if kind = .basePort0 then
    if other then sendSet opt s false ⟨s.portInfo.mKey, s.portInfo.mpb⟩ fate else s
  else if portState.isNone then lidMgrSetPhyspPi opt s other fate
  else if other || s.portInfo.portState.isNone || decide (portState ≠ s.portInfo.portState) then
    sendSet opt s false ⟨s.portInfo.mKey, s.portInfo.mpb⟩ fate
  else s

/-- `link_mgr_process_node` for the port. -/
def linkMgrProcessPort (kind : Kind) (linkState : Option PortState) (remote other : Bool) (fate : Fate) : State :=
  if s.portInfo.portState = some .down then s
  else if kind = .ca ∧ ¬ remote then
    if s.portInfo.portState ≠ some .init then linkMgrSetPhyspPi opt s kind (some .down) other fate else s
  else if (linkState.map PortState.num).getD 0 ≤ (s.portInfo.portState.map PortState.num).getD 0 ∧
      linkState.isSome then s
  else linkMgrSetPhyspPi opt s kind linkState other fate

end Requests

/-- A step of a sweep, with the options that it finds. -/
inductive Act
  | get (opt : Opt) (fate : Fate)
  | lidMgr (opt : Opt) (other : Bool) (fate : Fate)
  | linkMgr (opt : Opt) (linkState : Option PortState) (remote other : Bool) (fate : Fate)
  | rediscover
  deriving DecidableEq

def step (kind : Kind) (s : State) : Act → Option State
  | .get opt fate => some (getPortInfo opt s kind fate)
  | .lidMgr opt other fate => some (lidMgrSetPhyspPi opt s other fate)
  | .linkMgr opt linkState remote other fate => some (linkMgrProcessPort opt s kind linkState remote other fate)
  | .rediscover => some { s with portInfo := .unknown }

section Keys

variable {s : State} {kind : Kind} {opt : Opt}

/-- Every request to the port carries its M_Key: those that look it up, and those that take the stored one, once
there is one. -/
def UsesPortKey (s : State) : Prop :=
  ∀ opt findMkey, (findMkey = true ∨ s.portInfo.portState.isSome) → reqMKey opt s findMkey = s.port.mKey

lemma usesPortKey_iff : UsesPortKey s ↔
    s.guid2mkey = some s.port.mKey ∧ (s.portInfo.portState.isSome → s.portInfo.mKey = s.port.mKey) := by
  constructor
  · refine fun h => ⟨?_, fun hs => h ⟨0, 0⟩ false (.inr hs)⟩
    cases hm : s.guid2mkey with
    | some k =>
      have hk := h ⟨0, 0⟩ true (.inl rfl)
      simpa [reqMKey, reqDetermineMkey, hm] using hk
    | none =>
      have hk := h ⟨s.port.mKey + 1, 0⟩ true (.inl rfl)
      simp [reqMKey, reqDetermineMkey, hm] at hk
  · rintro ⟨hm, hs⟩ opt findMkey hf
    cases findMkey with
    | true => simp [reqMKey, reqDetermineMkey, hm]
    | false => exact hs (by simpa using hf)

def Executes (s : State) : Prop := s.port.mKey = 0 ∨ s.portInfo.mKey = s.port.mKey

instance : Decidable (Executes s) := inferInstanceAs (Decidable (_ ∨ _))

/-- The SM keeps track of the M_Key that it sets: it is the port's already, or the SubnSet is executed and
answered with a port state other than DOWN. Before the first PortInfo the answer is not needed, and an M_Key
that is the stored one is not written to the map. -/
def Tracked (opt : Opt) (s : State) (fate : Fate) : Prop :=
  opt.mKey = s.port.mKey ∨
    Executes s ∧ (fate ∈ [.answered .init, .answered .armed, .answered .active] ∨
      s.portInfo.portState = none ∧ fate = .answerLost) ∨
    s.portInfo.portState = none ∧ opt.mKey = s.portInfo.mKey

instance {fate : Fate} : Decidable (Tracked opt s fate) := inferInstanceAs (Decidable (_ ∨ _ ∧ _ ∨ _))

/-- There is nothing stored before the first PortInfo. -/
def Fresh (s : State) : Prop := s.portInfo.portState = none → s.portInfo = .unknown

lemma deliverSet_of_executes {mKey : MKey} {payload : Port} {fate : Fate}
    (h : s.port.mKey = 0 ∨ mKey = s.port.mKey) : deliverSet s mKey payload fate =
      match fate with
      | .lost => s
      | .answerLost => { s with port := payload }
      | .answered portState => setPortInfo { s with port := payload } payload portState := by
  rw [deliverSet, show s.port.set mKey payload = some payload from if_pos h]

lemma deliverSet_of_not_executes {mKey : MKey} {payload : Port} {fate : Fate}
    (h : ¬ (s.port.mKey = 0 ∨ mKey = s.port.mKey)) : deliverSet s mKey payload fate = s := by
  rw [deliverSet, show s.port.set mKey payload = none from if_neg h]

lemma mem_up {portState : PortState} :
    Fate.answered portState ∈ [.answered .init, .answered .armed, .answered .active] ↔ portState ≠ .down := by
  cases portState <;> decide

lemma updated_guid2mkey (hm : s.guid2mkey = some s.port.mKey) :
    (if decide (opt.mKey ≠ s.portInfo.mKey) = true then { s with guid2mkey := some opt.mKey } else s) =
      { s with guid2mkey := some (if opt.mKey = s.portInfo.mKey then s.port.mKey else opt.mKey) } := by
  by_cases heq : opt.mKey = s.portInfo.mKey
  · rw [if_neg (by simpa using heq), if_pos heq, ← hm]
  · rw [if_pos (by simpa using heq), if_neg heq]

/-- A SubnSet that goes out with the M_Key of the options. -/
lemma usesPortKey_sendSet {b : Mpb} {fate : Fate} (hk : UsesPortKey s) (hf : Fresh s) :
    UsesPortKey (sendSet opt s (decide (opt.mKey ≠ s.portInfo.mKey)) ⟨opt.mKey, b⟩ fate) ↔ Tracked opt s fate := by
  obtain ⟨hm, hst⟩ := usesPortKey_iff.mp hk
  rw [sendSet, updated_guid2mkey hm, usesPortKey_iff, Tracked, Executes, reqMKey, if_neg Bool.false_ne_true]
  obtain ⟨x, c⟩ := opt
  obtain ⟨⟨k, b'⟩, m, ⟨sk, sb, st⟩⟩ := s
  simp only at hm hst ⊢
  cases st with
  | some st =>
    obtain rfl := hst rfl
    rw [deliverSet_of_executes (.inr rfl)]
    obtain rfl | hx := eq_or_ne x sk
    · cases fate with
      | lost | answerLost => simp
      | answered portState => by_cases hd : portState = .down <;> simp [setPortInfo, hd]
    · cases fate with
      | lost | answerLost => simp [hx, hx.symm]
      | answered portState =>
        rw [mem_up]
        by_cases hd : portState = .down <;> simp [setPortInfo, hd, hx, hx.symm]
  | none =>
    obtain ⟨rfl, rfl⟩ : sk = 0 ∧ sb = 0 := by simpa [Fresh, PortInfo.unknown] using hf
    by_cases hk0 : k = 0
    · subst hk0
      rw [deliverSet_of_executes (.inr rfl)]
      obtain rfl | hx := eq_or_ne x 0
      · cases fate with
        | lost | answerLost => simp
        | answered portState => by_cases hd : portState = .down <;> simp [setPortInfo, hd]
      · cases fate with
        | lost | answerLost => simp [hx]
        | answered portState =>
          rw [mem_up]
          by_cases hd : portState = .down <;> simp [setPortInfo, hd, hx, hx.symm]
    · -- the port has an M_Key, and the SubnSet carries none
      have hne : ¬ 0 = k := fun h => hk0 h.symm
      rw [deliverSet_of_not_executes (by simpa using ⟨hk0, hne⟩)]
      by_cases hx : x = 0 <;> simp [hx, hk0, hne]

lemma usesPortKey_sendSet_stored {b : Mpb} {fate : Fate} (hk : UsesPortKey s) (hf : Fresh s) :
    UsesPortKey (sendSet opt s false ⟨s.portInfo.mKey, b⟩ fate) := by
  obtain ⟨hm, hst⟩ := usesPortKey_iff.mp hk
  rw [sendSet, usesPortKey_iff, reqMKey, if_neg Bool.false_ne_true, if_neg Bool.false_ne_true]
  by_cases he : Executes s
  · rw [deliverSet_of_executes he]
    have hsk : s.portInfo.mKey = s.port.mKey := by
      cases hps : s.portInfo.portState with
      | some st => exact hst (by rw [hps]; rfl)
      | none =>
        refine he.elim (fun h0 => ?_) id
        rw [hf hps, h0]
        rfl
    cases fate with
    | lost => exact ⟨hm, hst⟩
    | answerLost => exact ⟨hm.trans (by rw [hsk]), fun _ => rfl⟩
    | answered portState => by_cases hd : portState = .down <;> simp [setPortInfo, hd, hm, hsk]
  · rw [deliverSet_of_not_executes he]
    exact ⟨hm, hst⟩

lemma usesPortKey_lidMgr {other : Bool} {fate : Fate} (hk : UsesPortKey s) (hf : Fresh s) :
    UsesPortKey (lidMgrSetPhyspPi opt s other fate) ↔ Tracked opt s fate := by
  rw [lidMgrSetPhyspPi]
  by_cases hsend : (decide (opt.mKey ≠ s.portInfo.mKey) || decide (opt.mKeyProtectBits ≠ s.portInfo.mpb) ||
      s.portInfo.portState.isNone || other) = true
  · rw [if_pos hsend]
    exact usesPortKey_sendSet hk hf
  · rw [if_neg hsend]
    simp only [Bool.or_eq_true, decide_eq_true_iff, not_or, not_not, Option.isNone_iff_eq_none] at hsend
    obtain ⟨⟨⟨heq, -⟩, hsome⟩, -⟩ := hsend
    refine iff_of_true hk (.inl ?_)
    rw [heq]
    exact (usesPortKey_iff.mp hk).2 (Option.isSome_iff_ne_none.mpr hsome)

/-- What the steps of a sweep have to meet. A link manager step matters only where it sets the M_Key, and an answer
with the state DOWN to a SubnGet stores no M_Key. -/
def Meets (kind : Kind) (s : State) : Act → Prop
  | .get _ fate =>
    fate = .answered .down → kind = .basePort0 ∨ s.portInfo.portState.isSome ∨ s.port.mKey = 0
  | .lidMgr opt _ fate => Tracked opt s fate
  | .linkMgr opt linkState remote _ fate =>
    linkState = none → kind ≠ .basePort0 → (kind = .ca → remote = true) → s.portInfo.portState ≠ some .down →
      Tracked opt s fate
  | .rediscover => True

instance : (a : Act) → Decidable (Meets kind s a)
  | .get _ _ => inferInstanceAs (Decidable (_ → _))
  | .lidMgr _ _ _ => inferInstanceAs (Decidable (Tracked _ _ _))
  | .linkMgr _ _ _ _ _ => inferInstanceAs (Decidable (_ → _))
  | .rediscover => inferInstanceAs (Decidable True)

lemma usesPortKey_get {fate : Fate} (hk : UsesPortKey s) (hf : Fresh s) :
    UsesPortKey (getPortInfo opt s kind fate) ↔ Meets kind s (.get opt fate) := by
  obtain ⟨hm, hst⟩ := usesPortKey_iff.mp hk
  cases fate with
  | lost | answerLost => exact iff_of_true hk nofun
  | answered portState =>
    have hget : s.port.get (reqMKey opt s true) = some s.port := if_pos (.inr (.inl (hk opt true (.inl rfl))))
    rw [getPortInfo, hget, Option.map_some, Option.getD_some, usesPortKey_iff, receiveGet, Meets]
    by_cases hd : portState = .down
    · subst hd
      by_cases hb : kind = .basePort0
      · simp [setPortInfo, hb, hm]
      · cases hps : s.portInfo.portState with
        | some st => simp [setPortInfo, hb, hm, hst (by rw [hps]; rfl)]
        | none =>
          have hsk : s.portInfo.mKey = 0 := by rw [hf hps]; rfl
          simp [setPortInfo, hb, hm, hsk, eq_comm]
    · by_cases hb : kind = .basePort0 <;> simp [setPortInfo, hb, hm, hd]

lemma usesPortKey_linkMgrSet {portState : Option PortState} {other : Bool} {fate : Fate} (hk : UsesPortKey s)
    (hf : Fresh s) : UsesPortKey (linkMgrSetPhyspPi opt s kind portState other fate) ↔
      (portState = none → kind ≠ .basePort0 → Tracked opt s fate) := by
  have hstored : UsesPortKey (sendSet opt s false ⟨s.portInfo.mKey, s.portInfo.mpb⟩ fate) :=
    usesPortKey_sendSet_stored hk hf
  rw [linkMgrSetPhyspPi]
  split_ifs with hb ho hn ho
  · exact iff_of_true hstored fun _ h => absurd hb h
  · exact iff_of_true hk fun _ h => absurd hb h
  · rw [Option.isNone_iff_eq_none] at hn
    rw [usesPortKey_lidMgr hk hf]
    exact ⟨fun h _ _ => h, fun h => h hn hb⟩
  · exact iff_of_true hstored fun h => absurd (Option.isNone_iff_eq_none.mpr h) hn
  · exact iff_of_true hk fun h => absurd (Option.isNone_iff_eq_none.mpr h) hn

lemma usesPortKey_linkMgr {linkState : Option PortState} {remote other : Bool} {fate : Fate} (hk : UsesPortKey s)
    (hf : Fresh s) : UsesPortKey (linkMgrProcessPort opt s kind linkState remote other fate) ↔
      Meets kind s (.linkMgr opt linkState remote other fate) := by
  rw [linkMgrProcessPort, Meets]
  split_ifs with hd hr hi hle
  · exact iff_of_true hk fun _ _ _ h => absurd hd h
  · rw [usesPortKey_linkMgrSet hk hf]
    exact iff_of_true nofun fun _ _ h => absurd (h hr.1) hr.2
  · exact iff_of_true hk fun _ _ h => absurd (h hr.1) hr.2
  · refine iff_of_true hk fun h => ?_
    rw [h] at hle
    cases hle.2
  · rw [usesPortKey_linkMgrSet hk hf]
    rw [not_and, not_not] at hr
    exact ⟨fun h hl hb _ _ => h hl hb, fun h hl hb => h hl hb hr hd⟩

lemma usesPortKey_step {s' : State} {a : Act} (hk : UsesPortKey s) (hf : Fresh s) (h : step kind s a = some s') :
    UsesPortKey s' ↔ Meets kind s a := by
  cases a with
  | get opt fate => cases h; exact usesPortKey_get hk hf
  | lidMgr opt other fate => cases h; exact usesPortKey_lidMgr hk hf
  | linkMgr opt linkState remote other fate => cases h; exact usesPortKey_linkMgr hk hf
  | rediscover =>
    cases h
    exact iff_of_true (usesPortKey_iff.mpr ⟨(usesPortKey_iff.mp hk).1, nofun⟩) trivial

end Keys

section Runs

variable {s s' : State} {kind : Kind} {opt : Opt}

lemma fresh_setPortInfo {answer : Port} {portState : PortState} : Fresh (setPortInfo s answer portState) := by
  rw [setPortInfo]
  split_ifs <;> nofun

lemma fresh_sendSet {updateMkey : Bool} {payload : Port} {fate : Fate} (hf : Fresh s) :
    Fresh (sendSet opt s updateMkey payload fate) := by
  have hmap : Fresh (if updateMkey = true then { s with guid2mkey := some payload.mKey } else s) := by
    split_ifs <;> exact hf
  rw [sendSet, deliverSet]
  cases Port.set _ _ _ with
  | none => exact hmap
  | some port =>
    cases fate with
    | lost => exact hmap
    | answerLost => exact hmap
    | answered portState => exact fresh_setPortInfo

lemma fresh_lidMgr {other : Bool} {fate : Fate} (hf : Fresh s) : Fresh (lidMgrSetPhyspPi opt s other fate) := by
  rw [lidMgrSetPhyspPi]
  split_ifs
  · exact fresh_sendSet hf
  · exact hf

lemma fresh_linkMgrSet {portState : Option PortState} {other : Bool} {fate : Fate} (hf : Fresh s) :
    Fresh (linkMgrSetPhyspPi opt s kind portState other fate) := by
  rw [linkMgrSetPhyspPi]
  split_ifs
  exacts [fresh_sendSet hf, hf, fresh_lidMgr hf, fresh_sendSet hf, hf]

lemma fresh_step {a : Act} (hf : Fresh s) (h : step kind s a = some s') : Fresh s' := by
  cases a with
  | get opt fate =>
    cases h
    cases fate with
    | lost | answerLost => exact hf
    | answered portState =>
      rw [getPortInfo]
      cases s.port.get (reqMKey opt s true) with
      | none => exact hf
      | some answer =>
        simp only [Option.map_some, Option.getD_some, receiveGet]
        split_ifs
        · nofun
        · exact fresh_setPortInfo
  | lidMgr opt other fate => cases h; exact fresh_lidMgr hf
  | linkMgr opt linkState remote other fate =>
    cases h
    rw [linkMgrProcessPort]
    split_ifs
    exacts [hf, fresh_linkMgrSet hf, hf, hf, fresh_linkMgrSet hf]
  | rediscover => cases h; exact fun _ => rfl

/-- The requests to a port carry its M_Key throughout a run exactly when every step keeps track of it. -/
theorem run_usesPortKey {p : Port} {l : List (State × Act)} (h : Run (step kind) (start p) l s) :
    (∀ x ∈ l, UsesPortKey x.1) ∧ UsesPortKey s ↔ ∀ x ∈ l, Meets kind x.1 x.2 := by
  have hfresh := (h.always_iff (P := Fresh) (q := fun _ _ => True) (fun _ => rfl)
    fun _ _ _ hf ha => iff_of_true (fresh_step hf ha) trivial).mpr fun _ _ => trivial
  have hstart : UsesPortKey (start p) := usesPortKey_iff.mpr ⟨rfl, nofun⟩
  rw [← h.always_iff (P := fun s => UsesPortKey s ∧ Fresh s) ⟨hstart, fun _ => rfl⟩ fun _ _ _ hp ha =>
    (and_iff_left (fresh_step hp.2 ha)).trans (usesPortKey_step hp.1 hp.2 ha)]
  exact ⟨fun hk => ⟨fun x hx => ⟨hk.1 x hx, hfresh.1 x hx⟩, hk.2, hfresh.2⟩,
    fun hk => ⟨fun x hx => (hk.1 x hx).1, hk.2.1⟩⟩

theorem run_usesPortKey_changed : ∃ l s, Run (step .ca) (start ⟨1, 2⟩) l s ∧ s.port.mKey = 5 ∧
    (∀ x ∈ l, UsesPortKey x.1) ∧ UsesPortKey s := by
  obtain ⟨l, s, h, hp, hq⟩ := Run.of_exec (step .ca) (start ⟨1, 2⟩)
    [.get ⟨1, 2⟩ (.answered .init), .lidMgr ⟨5, 2⟩ false (.answered .init), .get ⟨5, 2⟩ .lost,
      .linkMgr ⟨5, 2⟩ (some .armed) true false (.answered .armed)]
    (fun s => s.port.mKey = 5) (fun x => Meets .ca x.1 x.2) (by decide) (by decide)
  have hkeys := (run_usesPortKey h).mpr fun x hx => of_decide_eq_true (hq x hx)
  exact ⟨l, s, h, of_decide_eq_true hp, hkeys.1, hkeys.2⟩

/-- The M_Key is changed from 1 to 5, and the SubnSet is lost: the map says 5. -/
theorem lostSet_forgets : ¬ ∀ (kind : Kind) (p : Port) (l : List (State × Act)) (s : State),
    Run (step kind) (start p) l s → UsesPortKey s := by
  intro hall
  obtain ⟨l, s, h, hp, -⟩ := Run.of_exec (step .ca) (start ⟨1, 2⟩)
    [.get ⟨1, 2⟩ (.answered .active), .lidMgr ⟨5, 2⟩ false .lost] (fun s => s.guid2mkey ≠ some s.port.mKey)
    (fun _ => true) (by decide) (by decide)
  exact of_decide_eq_true hp (usesPortKey_iff.mp (hall .ca _ l s h)).1

/-- The SM has lost the M_Key of a port with protection level 2 or 3. -/
def LockedOut (s : State) : Prop :=
  s.port.mKey ≠ 0 ∧ 2 ≤ s.port.mpb ∧ (∃ m, s.guid2mkey = some m ∧ m ≠ s.port.mKey) ∧
    s.portInfo.mKey ≠ s.port.mKey

def Act.opt? : Act → Option Opt
  | .get opt _ | .lidMgr opt _ _ | .linkMgr opt _ _ _ _ => some opt
  | .rediscover => none

lemma LockedOut.not_executes (hl : LockedOut s) : ¬ Executes s := not_or.mpr ⟨hl.1, hl.2.2.2⟩

lemma LockedOut.sendSet {updateMkey : Bool} {payload : Port} {fate : Fate} (hl : LockedOut s)
    (hne : updateMkey = true → payload.mKey ≠ s.port.mKey) :
    LockedOut (sendSet opt s updateMkey payload fate) ∧ (sendSet opt s updateMkey payload fate).port = s.port := by
  rw [MKeyMap.sendSet, reqMKey, if_neg Bool.false_ne_true]
  cases updateMkey with
  | false =>
    rw [if_neg Bool.false_ne_true, deliverSet_of_not_executes hl.not_executes]
    exact ⟨hl, rfl⟩
  | true =>
    obtain ⟨h0, hb, -, hst⟩ := hl
    rw [if_pos rfl, deliverSet_of_not_executes (s := { s with guid2mkey := some payload.mKey })
        (not_or.mpr ⟨h0, hst⟩)]
    exact ⟨⟨h0, hb, ⟨_, rfl, hne rfl⟩, hst⟩, rfl⟩

lemma LockedOut.lidMgr {other : Bool} {fate : Fate} (hl : LockedOut s) (hne : opt.mKey ≠ s.port.mKey) :
    LockedOut (lidMgrSetPhyspPi opt s other fate) ∧ (lidMgrSetPhyspPi opt s other fate).port = s.port := by
  rw [lidMgrSetPhyspPi]
  split_ifs
  · exact hl.sendSet fun _ => hne
  · exact ⟨hl, rfl⟩

lemma LockedOut.linkMgrSet {portState : Option PortState} {other : Bool} {fate : Fate} (hl : LockedOut s)
    (hne : opt.mKey ≠ s.port.mKey) : LockedOut (linkMgrSetPhyspPi opt s kind portState other fate) ∧
      (linkMgrSetPhyspPi opt s kind portState other fate).port = s.port := by
  rw [linkMgrSetPhyspPi]
  split_ifs
  exacts [hl.sendSet nofun, ⟨hl, rfl⟩, hl.lidMgr hne, hl.sendSet nofun, ⟨hl, rfl⟩]

lemma LockedOut.step {a : Act} (hl : LockedOut s) (hne : ∀ opt ∈ a.opt?, opt.mKey ≠ s.port.mKey)
    (h : step kind s a = some s') : LockedOut s' ∧ s'.port = s.port := by
  cases a with
  | get opt fate =>
    cases h
    cases fate with
    | lost | answerLost => exact ⟨hl, rfl⟩
    | answered portState =>
      obtain ⟨h0, hb, ⟨m, hm, hmne⟩, hst⟩ := hl
      have hget : s.port.get (reqMKey opt s true) = none := by
        have hreq : reqMKey opt s true = m := by simp [reqMKey, reqDetermineMkey, hm]
        have hb0 : s.port.mpb ≠ 0 := by rintro h; rw [h] at hb; exact absurd hb (by decide)
        have hb1 : s.port.mpb ≠ 1 := by rintro h; rw [h] at hb; exact absurd hb (by decide)
        rw [Port.get, hreq, if_neg (by simp only [h0, hmne, hb0, or_self, not_false_iff]), if_neg hb1]
      rw [getPortInfo, hget, Option.map_none, Option.getD_none]
      exact ⟨⟨h0, hb, ⟨m, hm, hmne⟩, hst⟩, rfl⟩
  | lidMgr opt other fate => cases h; exact hl.lidMgr (hne opt rfl)
  | linkMgr opt linkState remote other fate =>
    cases h
    have hne := hne opt rfl
    rw [linkMgrProcessPort]
    split_ifs
    exacts [⟨hl, rfl⟩, hl.linkMgrSet hne, ⟨hl, rfl⟩, ⟨hl, rfl⟩, hl.linkMgrSet hne]
  | rediscover =>
    cases h
    exact ⟨⟨hl.1, hl.2.1, hl.2.2.1, fun h => hl.1 h.symm⟩, rfl⟩

/-- An SM that is locked out stays so, until it is configured with the M_Key that the port has. -/
theorem run_lockedOut {s₀ : State} {l : List (State × Act)} (hl : LockedOut s₀) (h : Run (step kind) s₀ l s)
    (hne : ∀ x ∈ l, ∀ opt ∈ x.2.opt?, opt.mKey ≠ s₀.port.mKey) : LockedOut s ∧ s.port = s₀.port := by
  refine h.invariant (P := fun s => LockedOut s ∧ s.port = s₀.port)
    (q := fun _ a => ∀ opt ∈ a.opt?, opt.mKey ≠ s₀.port.mKey) ⟨hl, rfl⟩ ?_ hne
  rintro s a s' ⟨hs, hport⟩ ha hstep
  obtain ⟨hs', hport'⟩ := hs.step (by rwa [hport]) hstep
  exact ⟨hs', hport'.trans hport⟩

/-- The port has key 5 and the map says 1. -/
theorem run_lockedOut_wrongKey : ∃ l s, Run (step .ca) { start ⟨5, 2⟩ with guid2mkey := some 1 } l s ∧
    s.guid2mkey = some 3 ∧ LockedOut s ∧ s.port = ⟨5, 2⟩ := by
  obtain ⟨l, s, h, hp, hq⟩ := Run.of_exec (step .ca) { start ⟨5, 2⟩ with guid2mkey := some 1 }
    [.get ⟨1, 2⟩ (.answered .init), .rediscover, .lidMgr ⟨3, 2⟩ true (.answered .init)]
    (fun s => s.guid2mkey = some 3) (fun x => ∀ opt ∈ x.2.opt?, opt.mKey ≠ 5) (by decide) (by decide)
  have hl : LockedOut { start ⟨5, 2⟩ with guid2mkey := some 1 } :=
    ⟨by decide, by decide, ⟨1, rfl, by decide⟩, by decide⟩
  exact ⟨l, s, h, of_decide_eq_true hp, run_lockedOut hl h fun x hx => of_decide_eq_true (hq x hx)⟩

end Runs

end OpenSM.MKeyMap
