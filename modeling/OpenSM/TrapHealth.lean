import OpenSM.TrapRcv

/-! Every port that is marked unhealthy is given back, in runs in which its LID stays and its event is not lost. -/

namespace OpenSM.TrapRcv

open Lib.Runs Lib.TailInsert

section Key

variable {lid : BitVec 16} {portNum : Byte} {ntci : List Byte}

lemma keyLid_trapGetKey : keyLid (trapGetKey lid portNum ntci) = lid := by
  apply BitVec.eq_of_getLsbD_eq
  intro i hi
  have hmask : (0x0000FFFF00000000#64).getLsbD (32 + i) = true := by
    interval_cases i <;> decide
  have h₁ : 32 + i < 48 := by omega
  have h₂ : 32 + i < 64 := by omega
  have h₃ : i < 64 := by omega
  rw [keyLid, trapGetKey]
  simp [hmask, hi, h₁, h₂, h₃]

lemma keyPortNum_trapGetKey : keyPortNum (trapGetKey lid portNum ntci) = portNum := by
  apply BitVec.eq_of_getLsbD_eq
  intro i hi
  have hmask : (0x00FF000000000000#64).getLsbD (48 + i) = true := by
    interval_cases i <;> decide
  have h₁ : 48 + i < 64 := by omega
  have h₂ : i < 64 := by omega
  have hlid : lid.getLsbD (48 + i - 32) = false := BitVec.getLsbD_of_ge _ _ (by omega)
  have hcrc : (trapCalcCrc32 ntci).getLsbD (48 + i) = false := BitVec.getLsbD_of_ge _ _ (by omega)
  rw [keyPortNum, trapGetKey]
  simp [hmask, hi, h₁, h₂, hlid, hcrc]

end Key

section Tables

variable {s : Sm} {lid : BitVec 16} {num : Byte} {p q : ℕ × ℕ} {b : Bool} {n : ℕ}

lemma health_eq_some : s.health p = some b ↔ ∃ node, s.node p.1 = some node ∧ node.healthy p.2 = some b := by
  rw [Sm.health, Option.bind_eq_some_iff]

lemma getPhysp_eq_some : s.getPhyspByLidAndNum lid num = some p ↔
    s.portLidTbl lid = some p.1 ∧ p.2 = num.toNat ∧
      ∃ node, s.node p.1 = some node ∧ num.toNat < node.numPhysp ∧ (node.healthy num.toNat).isSome := by
  rw [Sm.getPhyspByLidAndNum]
  simp only [Option.bind_eq_bind, Option.bind_eq_some_iff]
  constructor
  · rintro ⟨n, hn, node, hnode, h⟩
    split_ifs at h with hlt
    obtain ⟨b, hb, rfl⟩ := Option.map_eq_some_iff.mp h
    exact ⟨hn, rfl, node, hnode, not_le.mp hlt, by rw [hb]; rfl⟩
  · rintro ⟨hn, hnum, node, hnode, hlt, hsome⟩
    obtain ⟨b, hb⟩ := Option.isSome_iff_exists.mp hsome
    refine ⟨p.1, hn, node, hnode, ?_⟩
    rw [if_neg (not_le.mpr hlt), hb, Option.map_some, ← hnum]

lemma health_of_getPhysp (h : s.getPhyspByLidAndNum lid num = some p) : (s.health p).isSome := by
  obtain ⟨-, hnum, node, hnode, -, hsome⟩ := getPhysp_eq_some.mp h
  rw [Sm.health, hnode, Option.bind_some, hnum]
  exact hsome

lemma health_setHealth (hp : (s.health p).isSome) :
    (s.setHealth p b).health q = if q = p then some b else s.health q := by
  obtain ⟨b₀, hb₀⟩ := Option.isSome_iff_exists.mp hp
  obtain ⟨node, hnode, -⟩ := health_eq_some.mp hb₀
  rw [Sm.setHealth, Sm.health, hnode]
  dsimp only [Option.map_some]
  by_cases hn : q.1 = p.1
  · rw [hn, Function.update_self, Option.bind_some]
    dsimp only
    by_cases hk : q.2 = p.2
    · rw [hk, Function.update_self, if_pos (Prod.ext hn hk)]
    · rw [Function.update_of_ne hk, if_neg fun h => hk (congrArg Prod.snd h), Sm.health, hn, hnode,
          Option.bind_some]
  · rw [Function.update_of_ne hn, if_neg fun h => hn (congrArg Prod.fst h), Sm.health]

lemma getPhysp_setHealth (hp : (s.health p).isSome) :
    (s.setHealth p b).getPhyspByLidAndNum lid num = s.getPhyspByLidAndNum lid num := by
  obtain ⟨b₀, hb₀⟩ := Option.isSome_iff_exists.mp hp
  obtain ⟨node, hnode, hbit⟩ := health_eq_some.mp hb₀
  ext q
  rw [getPhysp_eq_some, getPhysp_eq_some]
  refine and_congr_right fun _ => and_congr_right fun _ => ?_
  rw [Sm.setHealth, hnode]
  dsimp only [Option.map_some]
  by_cases hn : q.1 = p.1
  · rw [hn, Function.update_self, hnode]
    simp only [Option.some.injEq, exists_eq_left']
    by_cases hk : num.toNat = p.2
    · rw [hk, Function.update_self, hbit]
      simp
    · rw [Function.update_of_ne hk]
  · rw [Function.update_of_ne hn]

lemma health_callback {key : BitVec 64} : (s.agingTrackerCallback key).health q =
    if s.getPhyspByLidAndNum (keyLid key) (keyPortNum key) = some q then some true else s.health q := by
  rw [Sm.agingTrackerCallback]
  cases hp : s.getPhyspByLidAndNum (keyLid key) (keyPortNum key) with
  | none => rfl
  | some p =>
    have hsome := health_of_getPhysp hp
    dsimp only
    split_ifs with hbad hq hq
    · obtain rfl := Option.some.inj hq
      rw [health_setHealth hsome, if_pos rfl]
    · rw [health_setHealth hsome, if_neg fun h => hq (congrArg some h.symm)]
    · obtain rfl := Option.some.inj hq
      obtain ⟨b, hb⟩ := Option.isSome_iff_exists.mp hsome
      cases b with
      | true => exact hb
      | false => exact absurd hb hbad
    · rfl

lemma getPhysp_callback {key : BitVec 64} :
    (s.agingTrackerCallback key).getPhyspByLidAndNum lid num = s.getPhyspByLidAndNum lid num := by
  rw [Sm.agingTrackerCallback]
  cases hp : s.getPhyspByLidAndNum (keyLid key) (keyPortNum key) with
  | none => rfl
  | some p =>
    dsimp only
    split_ifs
    · exact getPhysp_setHealth (health_of_getPhysp hp)
    · rfl

end Tables

section Wheel

variable {s : Sm} {key : BitVec 64} {agingTime : ℕ} {callback alloc : Bool} {e x : Event}

lemma event_spec (h : s.event key = some e) : e ∈ s.eventsWheel ∧ e.key = key := by
  have hkey := List.find?_some h
  exact ⟨List.mem_of_find?_eq_some h, of_decide_eq_true hkey⟩

lemma event_of_mem (hk : (s.eventsWheel.map Event.key).Nodup) (he : e ∈ s.eventsWheel) (hkey : e.key = key) :
    s.event key = some e := by
  cases hfind : s.event key with
  | none => exact absurd (decide_eq_true hkey) (List.find?_eq_none.mp hfind e he)
  | some e' =>
    obtain ⟨hmem, hkey'⟩ := event_spec hfind
    rw [List.inj_on_of_nodup_map hk hmem he (hkey'.trans hkey.symm)]

lemma event_eq_none (h : s.event key = none) (hx : x ∈ s.eventsWheel) : x.key ≠ key :=
  fun hkey => List.find?_eq_none.mp h x hx (decide_eq_true hkey)

lemma mem_eraseP (hk : (s.eventsWheel.map Event.key).Nodup) :
    x ∈ s.eventsWheel.eraseP (fun e => decide (e.key = key)) ↔ x ∈ s.eventsWheel ∧ x.key ≠ key := by
  generalize s.eventsWheel = l at hk
  induction l with
  | nil => simp
  | cons e l ih =>
    rw [List.map_cons, List.nodup_cons] at hk
    by_cases he : e.key = key
    · rw [List.eraseP_cons_of_pos (p := fun e : Event => decide (e.key = key)) (by simpa using he), List.mem_cons]
      constructor
      · intro hx
        refine ⟨.inr hx, fun hkey => hk.1 ?_⟩
        rw [he, ← hkey]
        exact List.mem_map_of_mem hx
      · rintro ⟨rfl | hx, hne⟩
        · exact absurd he hne
        · exact hx
    · rw [List.eraseP_cons_of_neg (p := fun e : Event => decide (e.key = key)) (by simpa using he), List.mem_cons,
          List.mem_cons, ih hk.2]
      constructor
      · rintro (rfl | ⟨hx, hne⟩)
        · exact ⟨.inl rfl, he⟩
        · exact ⟨.inr hx, hne⟩
      · rintro ⟨rfl | hx, hne⟩
        · exact .inl rfl
        · exact .inr ⟨hx, hne⟩

lemma mem_reg (hk : (s.eventsWheel.map Event.key).Nodup) :
    x ∈ (s.reg key agingTime callback alloc).eventsWheel ↔
      (((s.event key).isSome ∨ alloc = true) ∧ x = ⟨key, agingTime, s.numRegs key + 1, callback⟩) ∨
        (x ∈ s.eventsWheel ∧ x.key ≠ key) := by
  rw [Sm.reg, Sm.numRegs]
  cases he : s.event key with
  | some e =>
    change x ∈ Sm.insert _ _ ↔ _
    rw [Sm.insert, insertAfter_perm.mem_iff, List.mem_cons, mem_eraseP hk]
    simp
  | none =>
    have hno : x ∈ s.eventsWheel ↔ x ∈ s.eventsWheel ∧ x.key ≠ key :=
      ⟨fun hx => ⟨hx, event_eq_none he hx⟩, And.left⟩
    cases alloc with
    | true =>
      rw [if_pos rfl]
      change x ∈ Sm.insert _ _ ↔ _
      rw [Sm.insert, insertAfter_perm.mem_iff, List.mem_cons, ← hno]
      simp
    | false =>
      rw [if_neg Bool.false_ne_true, ← hno]
      simp

lemma reg_keys (hk : (s.eventsWheel.map Event.key).Nodup) :
    ((s.reg key agingTime callback alloc).eventsWheel.map Event.key).Nodup := by
  have hins : ∀ (l : List Event) (e : Event), (l.map Event.key).Nodup → (∀ x ∈ l, x.key ≠ e.key) →
      ((Sm.insert l e).map Event.key).Nodup := by
    intro l e hl hne
    rw [Sm.insert, (insertAfter_perm.map Event.key).nodup_iff, List.map_cons, List.nodup_cons]
    refine ⟨fun hmem => ?_, hl⟩
    obtain ⟨x, hx, hxe⟩ := List.mem_map.mp hmem
    exact hne x hx hxe
  rw [Sm.reg]
  cases he : s.event key with
  | some e =>
    refine hins _ _ (hk.sublist (List.eraseP_sublist.map Event.key)) fun x hx => ?_
    exact ((mem_eraseP hk).mp hx).2
  | none =>
    dsimp only
    split_ifs
    · exact hins _ _ hk fun x hx => event_eq_none he hx
    · exact hk

end Wheel

section Inv

def Sm.silences (s : Sm) (e : Event) : Bool :=
  e.callback && match s.getPhyspByLidAndNum (keyLid e.key) (keyPortNum e.key) with
    | some p => decide (s.health p = some false)
    | none => false

structure GivenBack (s : Sm) : Prop where
  tracked : ∀ p, s.health p = some false →
    ∃ e ∈ s.eventsWheel, e.callback = true ∧ (s.agingTrackerCallback e.key).health p = some true
  inTime : ∀ e, s.eventsWheel.head? = some e → e.agingTime ≤ s.now → s.silences e = true →
    ∀ r ∈ s.received, r.key = e.key → r.time + r.timeout ≤ s.now

structure Inv (s : Sm) : Prop where
  keys : (s.eventsWheel.map Event.key).Nodup
  tracked : ∀ p, s.health p = some false →
    ∃ e ∈ s.eventsWheel, e.callback = true ∧ s.getPhyspByLidAndNum (keyLid e.key) (keyPortNum e.key) = some p
  past : ∀ r ∈ s.received, r.time ≤ s.now ∧ r.timeout ≤ unhealthyTimeout
  covered : ∀ r ∈ s.received, ∀ e ∈ s.eventsWheel, e.key = r.key → e.callback = true →
    r.time + r.timeout ≤ e.agingTime ∨ r.time + r.timeout ≤ s.now
  long : ∀ r ∈ s.received, trapSuppressionTimeout < r.timeout → s.now < r.time + r.timeout →
    ∃ e ∈ s.eventsWheel, e.key = r.key ∧ e.callback = true ∧ 10 ≤ e.numRegs.toNat

variable {s : Sm} {t : Trap} {p : ℕ × ℕ} {key : BitVec 64}

lemma Inv.givenBack (h : Inv s) : GivenBack s where
  tracked p hp := by
    obtain ⟨e, he, hcb, hget⟩ := h.tracked p hp
    refine ⟨e, he, hcb, ?_⟩
    rw [health_callback, if_pos hget]
  inTime e he hle hs r hr hkey := by
    have hcb : e.callback = true := by
      rw [Sm.silences, Bool.and_eq_true] at hs
      exact hs.1
    rcases h.covered r hr e (List.mem_of_mem_head? he) hkey.symm hcb with hbound | hbound
    · exact hbound.trans hle
    · exact hbound

/-- A trap does not take the place of another one's event, and is not left without one of its own while there is
one for its key; the count of an event does not wrap; and a LID that gives a port back is not taken away. -/
def Calm (s : Sm) : Action → Prop
  | .trap t => s.accepts t = true →
    (physpChangeTrap (payload t.data) = false ∨ s.leaves t = true →
      ∀ e ∈ s.eventsWheel, e.key = s.trapKey t → e.callback = false) ∧
    (s.numRegs (s.trapKey t)).toNat + 1 < 2 ^ 32
  | .assign portLidTbl _ => ∀ e ∈ s.eventsWheel, s.silences e = true →
    portLidTbl (keyLid e.key) = s.portLidTbl (keyLid e.key)
  | .tick _ | .age | .remove _ | .discover _ _ _ | .initPhysp _ _ | .destroyPhysp _ _ => True

instance (s : Sm) (a : Action) : Decidable (Calm s a) :=
  match a with
  | .trap t => inferInstanceAs (Decidable (s.accepts t = true →
      (physpChangeTrap (payload t.data) = false ∨ s.leaves t = true →
        ∀ e ∈ s.eventsWheel, e.key = s.trapKey t → e.callback = false) ∧
      (s.numRegs (s.trapKey t)).toNat + 1 < 2 ^ 32))
  | .assign portLidTbl _ => inferInstanceAs (Decidable (∀ e ∈ s.eventsWheel, s.silences e = true →
      portLidTbl (keyLid e.key) = s.portLidTbl (keyLid e.key)))
  | .tick _ | .age | .remove _ | .discover _ _ _ | .initPhysp _ _ | .destroyPhysp _ _ => isTrue trivial

lemma shutup_cases (s : Sm) (t : Trap) : (s.shutup t).2 = s ∨ ∃ p, s.noisy t = true ∧
    s.getPhyspByLidAndNum (noticeLid (payload t.data)) (noticePortNum (payload t.data)) = some p ∧
      (s.shutup t).2 = s.setHealth p false := by
  rw [Sm.shutup]
  split_ifs with hn
  · rw [Sm.shutupNoisyPort]
    cases hp : s.getPhyspByLidAndNum (noticeLid (payload t.data)) (noticePortNum (payload t.data)) with
    | none => exact .inl rfl
    | some p =>
      dsimp only
      split_ifs
      · exact .inl rfl
      · exact .inr ⟨p, hn, rfl, rfl⟩
      · exact .inl rfl
  · exact .inl rfl

lemma reg_eq {agingTime : ℕ} {callback alloc : Bool} : s.reg key agingTime callback alloc =
    { s with eventsWheel := (s.reg key agingTime callback alloc).eventsWheel } := by
  rw [Sm.reg]
  cases s.event key with
  | some e => rfl
  | none =>
    dsimp only
    split_ifs <;> rfl

lemma reg_setHealth {agingTime : ℕ} {callback alloc b : Bool} :
    ((s.setHealth p b).reg key agingTime callback alloc).eventsWheel =
      (s.reg key agingTime callback alloc).eventsWheel := by
  have hev : (s.setHealth p b).event key = s.event key := rfl
  rw [Sm.reg, Sm.reg, hev]
  cases s.event key with
  | some e => rfl
  | none =>
    dsimp only
    split_ifs <;> rfl

/-- A trap that is registered: the events, and the ports. -/
lemma process_spec (hacc : s.accepts t = true) (hleaves : s.leaves t = false) :
    let s' := s.trapRcvProcessRequest t
    let change := physpChangeTrap (payload t.data)
    s'.now = s.now ∧ s'.received = ⟨s.trapKey t, s.now, s.eventWheelTimeout t⟩ :: s.received ∧
      s'.eventsWheel = (s.reg (s.trapKey t) (s.now + s.eventWheelTimeout t) change t.alloc).eventsWheel ∧
      (∀ lid num, s'.getPhyspByLidAndNum lid num = s.getPhyspByLidAndNum lid num) ∧
      ∀ p, s'.health p = some false → s.health p = some false ∨ s.noisy t = true ∧
        s.getPhyspByLidAndNum (noticeLid (payload t.data)) (noticePortNum (payload t.data)) = some p := by
  intro s' change
  have hs' : s' = { (s.shutup t).2.reg (s.trapKey t) (s.now + s.eventWheelTimeout t) change t.alloc with
      received := ⟨s.trapKey t, s.now, s.eventWheelTimeout t⟩ :: s.received } := by
    change s.trapRcvProcessRequest t = _
    rw [Sm.trapRcvProcessRequest, hacc, Bool.not_true, if_neg Bool.false_ne_true]
    dsimp only
    rw [hleaves, if_neg Bool.false_ne_true]
  rw [reg_eq] at hs'
  rcases shutup_cases s t with heq | ⟨p, hn, hp, heq⟩
  · rw [heq] at hs'
    rw [hs']
    exact ⟨rfl, rfl, rfl, fun _ _ => rfl, fun q hq => .inl hq⟩
  · rw [heq, reg_setHealth] at hs'
    rw [hs']
    have hsome := health_of_getPhysp hp
    refine ⟨rfl, rfl, rfl, fun lid num => getPhysp_setHealth (b := false) hsome, fun q hq => ?_⟩
    have hq' : (s.setHealth p false).health q = some false := hq
    rw [health_setHealth hsome] at hq'
    split_ifs at hq' with hqp
    · rw [hqp]
      exact .inr ⟨hn, hp⟩
    · exact .inl hq'

lemma noisy_iff : s.noisy t = true ↔ 10 ≤ (s.numRegs (s.trapKey t)).toNat ∧
    physpChangeTrap (payload t.data) = true := by
  rw [Sm.noisy, Bool.and_eq_true, decide_eq_true_eq]

lemma event_of_noisy (h : s.noisy t = true) : (s.event (s.trapKey t)).isSome := by
  have hnum := (noisy_iff.mp h).1
  rw [Sm.numRegs] at hnum
  cases he : s.event (s.trapKey t) with
  | some e => rfl
  | none =>
    rw [he] at hnum
    exact absurd hnum (by decide)

lemma numRegs_of_mem {e : Event} (hk : (s.eventsWheel.map Event.key).Nodup) (he : e ∈ s.eventsWheel)
    (hkey : e.key = key) : s.numRegs key = e.numRegs := by
  rw [Sm.numRegs, event_of_mem hk he hkey]
  rfl

lemma eventWheelTimeout_of_noisy (hl : s.leaves t = false) (h : s.noisy t = true) :
    s.eventWheelTimeout t = unhealthyTimeout := by
  rw [Sm.eventWheelTimeout, hl, h]
  rfl

lemma suppression_le : trapSuppressionTimeout ≤ s.eventWheelTimeout t ∧
    s.eventWheelTimeout t ≤ unhealthyTimeout := by
  rw [Sm.eventWheelTimeout]
  split_ifs <;> decide

lemma Inv.leave (h : Inv s) {r : Received} (hr : r.time = s.now) (ht : r.timeout = trapSuppressionTimeout)
    (hno : ∀ e ∈ s.eventsWheel, e.key = r.key → e.callback = false) :
    Inv { s with received := r :: s.received } where
  keys := h.keys
  tracked := h.tracked
  past x hx := by
    rcases List.mem_cons.mp hx with rfl | hx
    · exact ⟨hr.le, ht.trans_le (by decide)⟩
    · exact h.past x hx
  covered x hx e he hkey hcb := by
    rcases List.mem_cons.mp hx with rfl | hx
    · rw [hno e he hkey] at hcb
      cases hcb
    · exact h.covered x hx e he hkey hcb
  long x hx hlong := by
    rcases List.mem_cons.mp hx with rfl | hx
    · exact absurd hlong ht.not_gt
    · exact h.long x hx hlong

/-- A trap that is registered. -/
lemma Inv.register (h : Inv s) (hacc : s.accepts t = true) (hl : s.leaves t = false)
    (hother : physpChangeTrap (payload t.data) = false →
      ∀ e ∈ s.eventsWheel, e.key = s.trapKey t → e.callback = false)
    (hwrap : (s.numRegs (s.trapKey t)).toNat + 1 < 2 ^ 32) : Inv (s.trapRcvProcessRequest t) := by
  obtain ⟨hnow, hrec, hwheel, hget, hhealth⟩ := process_spec hacc hl
  have hmem : ∀ x, x ∈ (s.trapRcvProcessRequest t).eventsWheel ↔
      (((s.event (s.trapKey t)).isSome ∨ t.alloc = true) ∧ x = ⟨s.trapKey t, s.now + s.eventWheelTimeout t,
        s.numRegs (s.trapKey t) + 1, physpChangeTrap (payload t.data)⟩) ∨
      (x ∈ s.eventsWheel ∧ x.key ≠ s.trapKey t) := fun x => by
    rw [hwheel, mem_reg h.keys]
  -- the event of a key that had one to give a port back
  have hnew : ∀ e ∈ s.eventsWheel, e.key = s.trapKey t → e.callback = true →
      (⟨s.trapKey t, s.now + s.eventWheelTimeout t, s.numRegs (s.trapKey t) + 1, true⟩ : Event) ∈
        (s.trapRcvProcessRequest t).eventsWheel ∧ physpChangeTrap (payload t.data) = true := by
    intro e he hkey hcb
    have hchange : physpChangeTrap (payload t.data) = true := by
      by_contra hno
      rw [hother (Bool.eq_false_iff.mpr hno) e he hkey] at hcb
      cases hcb
    refine ⟨(hmem _).mpr (.inl ⟨.inl ?_, ?_⟩), hchange⟩
    · rw [event_of_mem h.keys he hkey]
      rfl
    · rw [hchange]
  have hcount : ((s.numRegs (s.trapKey t)) + 1).toNat = (s.numRegs (s.trapKey t)).toNat + 1 := by
    rw [BitVec.toNat_add]
    exact Nat.mod_eq_of_lt hwrap
  constructor
  case keys =>
    rw [hwheel]
    exact reg_keys h.keys
  case tracked =>
    intro p hp
    rcases hhealth p hp with hold | ⟨hn, hp⟩
    · obtain ⟨e, he, hcb, hep⟩ := h.tracked p hold
      by_cases hkey : e.key = s.trapKey t
      · refine ⟨_, (hnew e he hkey hcb).1, rfl, ?_⟩
        rw [hget, ← hkey]
        exact hep
      · exact ⟨e, (hmem e).mpr (.inr ⟨he, hkey⟩), hcb, by rw [hget]; exact hep⟩
    · have hchange := (noisy_iff.mp hn).2
      refine ⟨_, (hmem _).mpr (.inl ⟨.inl (event_of_noisy hn), rfl⟩), hchange, ?_⟩
      rw [hget, Sm.trapKey]
      dsimp only
      rw [if_pos hchange, keyLid_trapGetKey, keyPortNum_trapGetKey]
      exact hp
  case past =>
    intro r hr
    rw [hrec] at hr
    rw [hnow]
    rcases List.mem_cons.mp hr with rfl | hr
    · exact ⟨le_rfl, suppression_le.2⟩
    · exact h.past r hr
  case covered =>
    intro r hr x hx hkey hcb
    rw [hrec] at hr
    rw [hnow]
    rcases (hmem x).mp hx with ⟨-, rfl⟩ | ⟨hx, hne⟩
    · change s.trapKey t = r.key at hkey
      change physpChangeTrap (payload t.data) = true at hcb
      rcases List.mem_cons.mp hr with rfl | hr
      · exact .inl le_rfl
      · have hpast := h.past r hr
        by_cases hexp : r.time + r.timeout ≤ s.now
        · exact .inr hexp
        · refine .inl ?_
          change r.time + r.timeout ≤ s.now + s.eventWheelTimeout t
          have hmin := (suppression_le (s := s) (t := t)).1
          by_cases hlong : trapSuppressionTimeout < r.timeout
          · obtain ⟨e, he, hek, -, hten⟩ := h.long r hr hlong (not_le.mp hexp)
            have hnum := numRegs_of_mem h.keys he (hek.trans hkey.symm)
            rw [eventWheelTimeout_of_noisy hl (noisy_iff.mpr ⟨hnum ▸ hten, hcb⟩)]
            omega
          · omega
    · rcases List.mem_cons.mp hr with rfl | hr
      · exact absurd hkey hne
      · exact h.covered r hr x hx hkey hcb
  case long =>
    intro r hr hlong hlive
    rw [hrec] at hr
    rw [hnow] at hlive
    rcases List.mem_cons.mp hr with rfl | hr
    · have hn : s.noisy t = true := by
        by_contra hno
        change trapSuppressionTimeout < s.eventWheelTimeout t at hlong
        rw [Sm.eventWheelTimeout, Bool.eq_false_iff.mpr hno, Bool.and_false] at hlong
        exact absurd hlong (lt_irrefl _)
      obtain ⟨hten, hchange⟩ := noisy_iff.mp hn
      refine ⟨_, (hmem _).mpr (.inl ⟨.inl (event_of_noisy hn), rfl⟩), rfl, hchange, ?_⟩
      rw [hcount]
      omega
    · obtain ⟨e, he, hek, hcb, hten⟩ := h.long r hr hlong hlive
      by_cases hkey : e.key = s.trapKey t
      · have hnum := numRegs_of_mem h.keys he hkey
        refine ⟨_, (hnew e he hkey hcb).1, hkey.symm.trans hek, rfl, ?_⟩
        rw [hcount, hnum]
        omega
      · exact ⟨e, (hmem e).mpr (.inr ⟨he, hkey⟩), hek, hcb, hten⟩

lemma Inv.trap (h : Inv s) (hc : Calm s (.trap t)) : Inv (s.trapRcvProcessRequest t) := by
  by_cases hacc : s.accepts t = true
  · obtain ⟨hother, hwrap⟩ := hc hacc
    by_cases hl : s.leaves t = true
    · have hs' : s.trapRcvProcessRequest t =
          { s with received := ⟨s.trapKey t, s.now, s.eventWheelTimeout t⟩ :: s.received } := by
        rw [Sm.trapRcvProcessRequest, hacc, Bool.not_true, if_neg Bool.false_ne_true]
        dsimp only
        rw [if_pos hl]
      have htime : s.eventWheelTimeout t = trapSuppressionTimeout := by
        rw [Sm.eventWheelTimeout, hl]
        rfl
      rw [hs']
      exact h.leave rfl htime (hother (.inr hl))
    · exact h.register hacc (Bool.eq_false_iff.mpr hl) (fun hchange => hother (.inl hchange)) hwrap
  · have hs' : s.trapRcvProcessRequest t = s := by
      rw [Sm.trapRcvProcessRequest, Bool.eq_false_iff.mpr hacc]
      rfl
    rw [hs']
    exact h

lemma Inv.tick (h : Inv s) (us : ℕ) : Inv { s with now := s.now + us } where
  keys := h.keys
  tracked := h.tracked
  past r hr := ⟨(h.past r hr).1.trans (Nat.le_add_right _ _), (h.past r hr).2⟩
  covered r hr e he hkey hcb := (h.covered r hr e he hkey hcb).imp_right fun hle => hle.trans
      (Nat.le_add_right _ _)
  long r hr hlong hlive := h.long r hr hlong ((Nat.le_add_right _ _).trans_lt hlive)

lemma Inv.congr (h : Inv s) {s' : Sm} (hwheel : s'.eventsWheel = s.eventsWheel) (hnow : s'.now = s.now)
    (hrec : s'.received = s.received)
    (hport : ∀ p, s'.health p = some false → s.health p = some false ∧
      ∀ e ∈ s.eventsWheel, e.callback = true →
        s.getPhyspByLidAndNum (keyLid e.key) (keyPortNum e.key) = some p →
          s'.getPhyspByLidAndNum (keyLid e.key) (keyPortNum e.key) = some p) : Inv s' where
  keys := by rw [hwheel]; exact h.keys
  tracked p hp := by
    obtain ⟨hold, hlook⟩ := hport p hp
    obtain ⟨e, he, hcb, hget⟩ := h.tracked p hold
    rw [hwheel]
    exact ⟨e, he, hcb, hlook e he hcb hget⟩
  past := by rw [hrec, hnow]; exact h.past
  covered := by rw [hrec, hwheel, hnow]; exact h.covered
  long := by rw [hrec, hwheel, hnow]; exact h.long

/-- An event that has aged. -/
lemma Inv.age (h : Inv s) {e : Event} {wheel : List Event} (hw : s.eventsWheel = e :: wheel)
    (hle : e.agingTime ≤ s.now) :
    Inv { (if e.callback then s.agingTrackerCallback e.key else s) with eventsWheel := wheel } := by
  have hframe : ∀ key, (s.agingTrackerCallback key).now = s.now ∧
      (s.agingTrackerCallback key).received = s.received := by
    intro key
    rw [Sm.agingTrackerCallback]
    cases s.getPhyspByLidAndNum (keyLid key) (keyPortNum key) with
    | none => exact ⟨rfl, rfl⟩
    | some p =>
      dsimp only
      split_ifs <;> exact ⟨rfl, rfl⟩
  have hnow : (if e.callback then s.agingTrackerCallback e.key else s).now = s.now := by
    split_ifs
    · exact (hframe e.key).1
    · rfl
  have hrec : (if e.callback then s.agingTrackerCallback e.key else s).received = s.received := by
    split_ifs
    · exact (hframe e.key).2
    · rfl
  have hget : ∀ lid num, (if e.callback then s.agingTrackerCallback e.key else s).getPhyspByLidAndNum lid num =
      s.getPhyspByLidAndNum lid num := by
    intro lid num
    split_ifs
    · exact getPhysp_callback
    · rfl
  -- who is still unhealthy has another event
  have hhealth : ∀ p, (if e.callback then s.agingTrackerCallback e.key else s).health p = some false →
      s.health p = some false ∧
        ¬(e.callback = true ∧ s.getPhyspByLidAndNum (keyLid e.key) (keyPortNum e.key) = some p) := by
    intro p hp
    split_ifs at hp with hcb
    · rw [health_callback] at hp
      split_ifs at hp with hsame
      · cases hp
      · exact ⟨hp, fun hn => hsame hn.2⟩
    · exact ⟨hp, fun hn => hcb hn.1⟩
  have hkeys := h.keys
  rw [hw, List.map_cons, List.nodup_cons] at hkeys
  have hmem : ∀ x ∈ wheel, x ∈ s.eventsWheel := fun x hx => hw ▸ List.mem_cons_of_mem e hx
  have hcons : ∀ x ∈ s.eventsWheel, x = e ∨ x ∈ wheel := by
    intro x hx
    rw [hw] at hx
    exact List.mem_cons.mp hx
  constructor
  case keys => exact hkeys.2
  case tracked =>
    intro p hp
    obtain ⟨hold, hne⟩ := hhealth p hp
    obtain ⟨x, hx, hcb, hxp⟩ := h.tracked p hold
    rcases hcons x hx with rfl | hx
    · exact absurd ⟨hcb, hxp⟩ hne
    · exact ⟨x, hx, hcb, (hget _ _).trans hxp⟩
  case past =>
    intro r hr
    change r.time ≤ (if e.callback then s.agingTrackerCallback e.key else s).now ∧ _
    rw [hnow]
    exact h.past r (hrec ▸ hr)
  case covered =>
    intro r hr x hx hkey hcb
    change _ ∨ _ ≤ (if e.callback then s.agingTrackerCallback e.key else s).now
    rw [hnow]
    exact h.covered r (hrec ▸ hr) x (hmem x hx) hkey hcb
  case long =>
    intro r hr hlong hlive
    change (if e.callback then s.agingTrackerCallback e.key else s).now < _ at hlive
    rw [hnow] at hlive
    obtain ⟨x, hx, hkey, hcb, hten⟩ := h.long r (hrec ▸ hr) hlong hlive
    rcases hcons x hx with rfl | hx
    · rcases h.covered r (hrec ▸ hr) x (hw ▸ List.mem_cons_self) hkey hcb with hbound | hbound
      · exact absurd hlive (not_lt.mpr (hbound.trans hle))
      · exact absurd hlive (not_lt.mpr hbound)
    · exact ⟨x, hx, hkey, hcb, hten⟩

lemma Inv.assign (h : Inv s) {portLidTbl : BitVec 16 → Option ℕ} {smBaseLid : BitVec 16}
    (hc : Calm s (.assign portLidTbl smBaseLid)) :
    Inv { s with portLidTbl := portLidTbl, smBaseLid := smBaseLid } := by
  refine h.congr rfl rfl rfl fun p hp => ⟨hp, fun e he hcb hget => ?_⟩
  have hbad : s.health p = some false := hp
  have hsil : s.silences e = true := by
    rw [Sm.silences, hcb, hget]
    exact decide_eq_true hbad
  have hsame := hc e he hsil
  obtain ⟨hlid, hrest⟩ := getPhysp_eq_some.mp hget
  exact getPhysp_eq_some.mpr ⟨hsame.trans hlid, hrest⟩

lemma Inv.remove (h : Inv s) (n : ℕ) :
    Inv { s with
      node := Function.update s.node n none
      portLidTbl := fun lid => if s.portLidTbl lid = some n then none else s.portLidTbl lid } := by
  refine h.congr rfl rfl rfl fun p hp => ?_
  obtain ⟨node, hnode, hbit⟩ := health_eq_some.mp hp
  have hne : p.1 ≠ n := by
    intro hn
    change Function.update s.node n none p.1 = some node at hnode
    rw [hn, Function.update_self] at hnode
    cases hnode
  change Function.update s.node n none p.1 = some node at hnode
  rw [Function.update_of_ne hne] at hnode
  refine ⟨health_eq_some.mpr ⟨node, hnode, hbit⟩, fun e _ _ hget => ?_⟩
  obtain ⟨hlid, hnum, node', hnode', hrest⟩ := getPhysp_eq_some.mp hget
  refine getPhysp_eq_some.mpr ⟨?_, hnum, node', ?_, hrest⟩
  · change (if s.portLidTbl (keyLid e.key) = some n then none else s.portLidTbl (keyLid e.key)) = some p.1
    rw [hlid, if_neg fun hn => hne (Option.some.inj hn)]
  · change Function.update s.node n none p.1 = some node'
    rw [Function.update_of_ne hne, hnode']

lemma Inv.setNode (h : Inv s) (n : ℕ) {node : Option Node}
    (hnode : ∀ node₁, node = some node₁ → ∀ k, node₁.healthy k = some false →
      ∃ node₀, s.node n = some node₀ ∧ node₀.numPhysp = node₁.numPhysp ∧ node₀.healthy k = some false) :
    Inv { s with node := Function.update s.node n node } := by
  refine h.congr rfl rfl rfl fun p hp => ?_
  obtain ⟨node₁, hnode₁, hbit⟩ := health_eq_some.mp hp
  change Function.update s.node n node p.1 = some node₁ at hnode₁
  by_cases hn : p.1 = n
  · rw [hn, Function.update_self] at hnode₁
    obtain ⟨node₀, hnode₀, hnum, hbit₀⟩ := hnode node₁ hnode₁ p.2 hbit
    refine ⟨health_eq_some.mpr ⟨node₀, by rw [hn]; exact hnode₀, hbit₀⟩, fun e _ _ hget => ?_⟩
    obtain ⟨hlid, hk, node', hnode', hlt, -⟩ := getPhysp_eq_some.mp hget
    rw [hn, hnode₀] at hnode'
    obtain rfl := Option.some.inj hnode'
    refine getPhysp_eq_some.mpr ⟨hlid, hk, node₁, ?_, hnum ▸ hlt, ?_⟩
    · change Function.update s.node n node p.1 = some node₁
      rw [hn, Function.update_self, hnode₁]
    · rw [← hk, hbit]
      rfl
  · rw [Function.update_of_ne hn] at hnode₁
    refine ⟨health_eq_some.mpr ⟨node₁, hnode₁, hbit⟩, fun e _ _ hget => ?_⟩
    obtain ⟨hlid, hk, node', hnode', hrest⟩ := getPhysp_eq_some.mp hget
    refine getPhysp_eq_some.mpr ⟨hlid, hk, node', ?_, hrest⟩
    change Function.update s.node n node p.1 = some node'
    rw [Function.update_of_ne hn, hnode']

lemma Inv.setPhysp (h : Inv s) (n k : ℕ) {b : Option Bool} (hb : b ≠ some false) :
    Inv { s with
      node := Function.update s.node n
        ((s.node n).map fun node => { node with healthy := Function.update node.healthy k b }) } := by
  refine h.setNode n fun node₁ hnode₁ k' hbit => ?_
  obtain ⟨node₀, hnode₀, rfl⟩ := Option.map_eq_some_iff.mp hnode₁
  change Function.update node₀.healthy k b k' = some false at hbit
  by_cases hk : k' = k
  · rw [hk, Function.update_self] at hbit
    exact absurd hbit hb
  · rw [Function.update_of_ne hk] at hbit
    exact ⟨node₀, hnode₀, rfl, hbit⟩

lemma Inv.step {a : Action} {s' : Sm} (h : Inv s) (hc : Calm s a) (hs : step s a = some s') : Inv s' := by
  cases a with
  | tick us =>
    obtain rfl := Option.some.inj hs
    exact h.tick us
  | trap t =>
    obtain rfl := Option.some.inj hs
    exact h.trap hc
  | age =>
    rw [TrapRcv.step] at hs
    split at hs
    · cases hs
    · next e wheel hw =>
      by_cases hle : e.agingTime ≤ s.now
      · rw [if_pos hle] at hs
        obtain rfl := Option.some.inj hs
        exact h.age hw hle
      · rw [if_neg hle] at hs
        cases hs
  | assign portLidTbl smBaseLid =>
    obtain rfl := Option.some.inj hs
    exact h.assign hc
  | remove n =>
    obtain rfl := Option.some.inj hs
    exact h.remove n
  | discover n numPhysp valid =>
    rw [TrapRcv.step] at hs
    split_ifs at hs
    obtain rfl := Option.some.inj hs
    refine h.setNode n fun node₁ hnode₁ k hbit => ?_
    obtain rfl := Option.some.inj hnode₁
    dsimp only at hbit
    split_ifs at hbit
    cases hbit
  | initPhysp n k =>
    obtain rfl := Option.some.inj hs
    exact h.setPhysp n k (by decide)
  | destroyPhysp n k =>
    obtain rfl := Option.some.inj hs
    exact h.setPhysp n k (by decide)

lemma inv_init (policy : Bool) : Inv (init policy) where
  keys := List.nodup_nil
  tracked p hp := by
    obtain ⟨node, hnode, -⟩ := health_eq_some.mp hp
    cases hnode
  past _ hr := absurd hr List.not_mem_nil
  covered _ hr := absurd hr List.not_mem_nil
  long _ hr := absurd hr List.not_mem_nil

end Inv

section Run

theorem run_givenBack {policy : Bool} {l : List (Sm × Action)} {s : Sm} (h : Run step (init policy) l s)
    (hl : ∀ x ∈ l, Calm x.1 x.2) : GivenBack s := by
  have hinv : Inv s := h.invariant (inv_init policy) (fun _ _ _ hi hc hs => hi.step hc hs) hl
  exact hinv.givenBack

def noise : Trap where
  isGsi := false
  sourceLid := 5
  data := [0x80, 0, 0, 2, 0, 129, 0, 5, 0, 0, 0, 0, 0, 5, 1]
  respOk := true
  setOk := true
  alloc := true

def onLid (lid : BitVec 16) (n : ℕ) : BitVec 16 → Option ℕ := fun l => if l = lid then some n else none

def babble : List Action :=
  [.discover 0 3 fun k => decide (k < 3), .assign (onLid 5 0) 1] ++ List.replicate 11 (.trap noise)

/-- Port 1 is marked, and given back after a minute. -/
theorem run_givenBack_noise : ∃ l s s', Run step (init false) l s ∧ (∀ x ∈ l, Calm x.1 x.2) ∧
    s.health (0, 1) = some false ∧ exec step s [.tick 60000000, .age] = some s' ∧ s'.health (0, 1) = some true ∧
      GivenBack s := by
  obtain ⟨l, s, h, hp, hl⟩ := Run.of_exec step (init false) babble
    (fun s => decide (s.health (0, 1) = some false) &&
      (exec step s [.tick 60000000, .age]).elim false fun s' => decide (s'.health (0, 1) = some true))
    (fun x => decide (Calm x.1 x.2)) (by decide +kernel) (by decide +kernel)
  rw [Bool.and_eq_true] at hp
  have hcalm : ∀ x ∈ l, Calm x.1 x.2 := fun x hx => of_decide_eq_true (hl x hx)
  obtain ⟨hbad, hback⟩ := hp
  cases he : exec step s [.tick 60000000, .age] with
  | none =>
    rw [he] at hback
    cases hback
  | some s' =>
    rw [he] at hback
    exact ⟨l, s, s', h, hcalm, of_decide_eq_true hbad, he, of_decide_eq_true hback, run_givenBack h hcalm⟩

/-- The node gets another LID: nothing gives its port back. -/
theorem lost_by_lid : ∃ l s, Run step (init false) l s ∧ s.health (0, 1) = some false ∧ ¬GivenBack s := by
  obtain ⟨l, s, h, hp, -⟩ := Run.of_exec step (init false) (babble ++ [.assign (onLid 6 0) 1])
    (fun s => decide (s.health (0, 1) = some false) && s.eventsWheel.all fun e =>
      decide ((s.agingTrackerCallback e.key).health (0, 1) ≠ some true))
    (fun _ => true) (by decide +kernel) (by decide +kernel)
  rw [Bool.and_eq_true] at hp
  have hbad := of_decide_eq_true hp.1
  refine ⟨l, s, h, hbad, fun hg => ?_⟩
  obtain ⟨e, he, -, hback⟩ := hg.tracked (0, 1) hbad
  exact of_decide_eq_true (List.all_eq_true.mp hp.2 e he) hback

end Run

end OpenSM.TrapRcv
