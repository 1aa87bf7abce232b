import OpenSM.Lib.Meter
import OpenSM.Lib.Runs

/-! The totals the performance manager keeps for one port: `pc_recv_process` over the responses, and the
port that answers them. -/

namespace OpenSM.PerfMgr.Totals

open Lib.Meter Lib.Runs

/-- The fields of `perfmgr_db_err_reading_t`. -/
inductive ErrCnt
  | symbolErrCnt
  | linkErrRecover
  | linkDowned
  | rcvErr
  | rcvRemPhysErr
  | rcvSwitchRelayErr
  | xmitDiscards
  | xmitConstraintErr
  | rcvConstraintErr
  | linkIntegrity
  | bufferOverrun
  | vl15Dropped
  | xmitWait
  deriving DecidableEq

instance : Fintype ErrCnt :=
  .ofList [.symbolErrCnt, .linkErrRecover, .linkDowned, .rcvErr, .rcvRemPhysErr, .rcvSwitchRelayErr,
    .xmitDiscards, .xmitConstraintErr, .rcvConstraintErr, .linkIntegrity, .bufferOverrun, .vl15Dropped,
    .xmitWait] (by rintro (_ | _) <;> simp)

/-- The fields of `perfmgr_db_data_cnt_reading_t`. -/
inductive DataCnt
  | xmitData
  | rcvData
  | xmitPkts
  | rcvPkts
  | unicastXmitPkts
  | unicastRcvPkts
  | multicastXmitPkts
  | multicastRcvPkts
  deriving DecidableEq

instance : Fintype DataCnt :=
  .ofList [.xmitData, .rcvData, .xmitPkts, .rcvPkts, .unicastXmitPkts, .unicastRcvPkts, .multicastXmitPkts,
    .multicastRcvPkts] (by rintro (_ | _) <;> simp)

def ErrCnt.width : ErrCnt → ℕ
  | .linkErrRecover | .linkDowned | .xmitConstraintErr | .rcvConstraintErr => 8
  | .linkIntegrity | .bufferOverrun => 4
  | .xmitWait => 32
  | _ => 16

/-- The bit of `counter_select`; `xmit_wait` has one of its own in `counter_select2`. -/
def ErrCnt.bit : ErrCnt → ℕ
  | .symbolErrCnt => 0
  | .linkErrRecover => 1
  | .linkDowned => 2
  | .rcvErr => 3
  | .rcvRemPhysErr => 4
  | .rcvSwitchRelayErr => 5
  | .xmitDiscards => 6
  | .xmitConstraintErr => 7
  | .rcvConstraintErr => 8
  | .linkIntegrity => 9
  | .bufferOverrun => 10
  | .vl15Dropped => 11
  | .xmitWait => 0

def DataCnt.bit : DataCnt → ℕ
  | .xmitData => 0
  | .rcvData => 1
  | .xmitPkts => 2
  | .rcvPkts => 3
  | .unicastXmitPkts => 4
  | .unicastRcvPkts => 5
  | .multicastXmitPkts => 6
  | .multicastRcvPkts => 7

/-- The counters that `ib_port_counters_t` has too. -/
def DataCnt.base (i : DataCnt) : Bool := i.bit < 4

/-- What `pc_recv_process` reads of `monitored_port_t`, with the bits of `cap_mask` it tests. -/
structure MonitoredPort where
  cpiValid : Bool
  extWidthSupported : Bool
  extWidthNoIetfSup : Bool
  pcXmitWaitSup : Bool

def MonitoredPort.pceSupported (p : MonitoredPort) : Bool :=
  p.cpiValid && (p.extWidthSupported || p.extWidthNoIetfSup)

def MonitoredPort.xmitWaitSupported (p : MonitoredPort) : Bool := p.cpiValid && p.pcXmitWaitSup

def MonitoredPort.ietfSupported (p : MonitoredPort) : Bool := p.cpiValid && p.extWidthSupported

/-- The hardware: how many events there have been, and the counters of PortCounters and of
PortCountersExtended. -/
structure Pma where
  errEvents : ErrCnt → ℕ
  dataEvents : DataCnt → ℕ
  err : ErrCnt → Counter
  pc : DataCnt → Counter
  pce : DataCnt → Counter

def Pma.errEvent (p : Pma) (i : ErrCnt) (n : ℕ) : Pma :=
  { p with
    errEvents := Function.update p.errEvents i (p.errEvents i + n)
    err := Function.update p.err i ((p.err i).bump (2 ^ i.width - 1) n) }

def Pma.dataEvent (p : Pma) (i : DataCnt) (n : ℕ) : Pma :=
  { p with
    dataEvents := Function.update p.dataEvents i (p.dataEvents i + n)
    pc := Function.update p.pc i ((p.pc i).bump (2 ^ 32 - 1) n)
    pce := Function.update p.pce i ((p.pce i).bump (2 ^ 64 - 1) n) }

def Pma.clear (p : Pma) (err : ErrCnt → Bool) (pc pce : DataCnt → Bool) : Pma :=
  { p with
    err i := if err i then .zero (p.errEvents i) else p.err i
    pc i := if pc i then .zero (p.dataEvents i) else p.pc i
    pce i := if pce i then .zero (p.dataEvents i) else p.pce i }

inductive Attr
  | portCntrs
  | portCntrsExt
  deriving DecidableEq

inductive Method
  | get
  | set
  deriving DecidableEq

structure Request where
  attr : Attr
  method : Method
  counterSelect : ℕ
  counterSelect2 : ℕ

structure Response where
  attr : Attr
  method : Method
  wire : Pma

def Pma.perform (p : Pma) (q : Request) : Pma :=
  match q.method, q.attr with
  | .get, _ => p
  | .set, .portCntrs =>
    p.clear (fun i => if i = .xmitWait then q.counterSelect2.testBit 0 else q.counterSelect.testBit i.bit)
      (fun i => i.base && q.counterSelect.testBit (12 + i.bit)) fun _ => false
  | .set, .portCntrsExt => p.clear (fun _ => false) (fun _ => false) fun i => q.counterSelect.testBit i.bit

structure System where
  port : MonitoredPort
  /-- `err_previous` and `err_total` -/
  errs : ErrCnt → Entry
  /-- `dc_previous` and `dc_total` -/
  dcs : DataCnt → Entry
  pma : Pma
  requests : List Request
  responses : List Response

def init (port : MonitoredPort) (pma : Pma) : System where
  port := port
  errs _ := .fresh
  dcs _ := .fresh
  pma := pma
  requests := []
  responses := []

def perfmgrDbFillErrRead (wire : Pma) (xmitWaitSup : Bool) (i : ErrCnt) : ℕ :=
  if i = .xmitWait ∧ xmitWaitSup = false then 0 else (wire.err i).value

def errWindow (wire : Pma) (xmitWaitSup : Bool) (i : ErrCnt) : Option Window :=
  if i = .xmitWait ∧ xmitWaitSup = false then none else some ((wire.err i).window (wire.errEvents i))

def perfmgrDbFillDataCntReadPc (wire : Pma) (i : DataCnt) : ℕ := if i.base then (wire.pc i).value else 0

/-- `junk` is what the reading, a variable on the stack, holds where it is not filled. -/
def perfmgrDbFillDataCntReadPce (wire : Pma) (ietfSup : Bool) (junk : DataCnt → ℕ) (i : DataCnt) : ℕ :=
  if i.base || ietfSup then (wire.pce i).value else junk i

def perfmgrCheckOobClear (reading : ErrCnt → ℕ) (errs : ErrCnt → Entry) : ErrCnt → Entry :=
  check (fun _ => true) reading errs

def perfmgrCheckDataCntOobClear (ietfSup : Bool) (reading : DataCnt → ℕ) (dcs : DataCnt → Entry) :
    DataCnt → Entry :=
  check (fun i => i.base || ietfSup) reading dcs

def perfmgrDbAddErrReading (wire : Pma) (xmitWaitSup : Bool) (errs : ErrCnt → Entry) : ErrCnt → Entry :=
  addReading 64 (fun _ => true) (perfmgrDbFillErrRead wire xmitWaitSup) (errWindow wire xmitWaitSup) errs

def perfmgrDbAddDcReading (ietfSup : Bool) (reading : DataCnt → ℕ) (window : DataCnt → Window)
    (dcs : DataCnt → Entry) : DataCnt → Entry :=
  addReading 64 (fun i => i.base || ietfSup) reading (fun i => some (window i)) dcs

def System.perfmgrDbClearPrevErr (s : System) : System := { s with errs := fun i => (s.errs i).forget }

def System.perfmgrDbClearPrevDc (s : System) : System := { s with dcs := fun i => (s.dcs i).forget }

def counterOverflow (width val : ℕ) : Bool :=
  if width = 4 then 10 ≤ val else 2 ^ width - 1 - (2 ^ width - 1) / 4 ≤ val

def perfmgrCheckOverflow (s : System) (wire : Pma) (xmitWaitSup reach : Bool) : System :=
  let pceSup := s.port.pceSupported
  if (∃ i : ErrCnt, (i = .xmitWait → xmitWaitSup = true) ∧ counterOverflow i.width (wire.err i).value = true) ∨
      pceSup = false ∧ ∃ i : DataCnt, i.base = true ∧ counterOverflow 32 (wire.pc i).value = true then
    if reach then
      let set : Request :=
        ⟨.portCntrs, .set, if pceSup then 0x0fff else 0xffff, if xmitWaitSup then 1 else 0⟩
      let s := { s with requests := s.requests ++ [set] }
      let s := s.perfmgrDbClearPrevErr
      if pceSup then s else s.perfmgrDbClearPrevDc
    else s
  else s

def perfmgrCheckPceOverflow (s : System) (wire : Pma) (reach : Bool) : System :=
  if ∃ i : DataCnt, (i.base || s.port.ietfSupported) = true ∧ counterOverflow 64 (wire.pce i).value = true then
    if reach then
      let set : Request := ⟨.portCntrsExt, .set, 0x00ff, 0⟩
      let s := { s with requests := s.requests ++ [set] }
      s.perfmgrDbClearPrevDc
    else s
  else s

def pcRecvProcess (s : System) (r : Response) (reach : Bool) (junk : DataCnt → ℕ) : System :=
  match r.attr with
  | .portCntrsExt =>
    let ietfSup := s.port.ietfSupported
    let reading := perfmgrDbFillDataCntReadPce r.wire ietfSup junk
    let window i := (r.wire.pce i).window (r.wire.dataEvents i)
    let s := match r.method with
      | .get =>
        { s with
          dcs := perfmgrDbAddDcReading ietfSup reading window
            (perfmgrCheckDataCntOobClear ietfSup reading s.dcs) }
      | .set => s.perfmgrDbClearPrevDc
    perfmgrCheckPceOverflow s r.wire reach
  | .portCntrs =>
    let pceSup := s.port.pceSupported
    let xmitWaitSup := s.port.xmitWaitSupported
    let errReading := perfmgrDbFillErrRead r.wire xmitWaitSup
    let dataReading := perfmgrDbFillDataCntReadPc r.wire
    let window i := (r.wire.pc i).window (r.wire.dataEvents i)
    let s := match r.method with
      | .get =>
        let s := { s with
          errs := perfmgrDbAddErrReading r.wire xmitWaitSup (perfmgrCheckOobClear errReading s.errs) }
        if pceSup then s
        else
          { s with
            dcs := perfmgrDbAddDcReading false dataReading window
              (perfmgrCheckDataCntOobClear s.port.ietfSupported dataReading s.dcs) }
      | .set =>
        let s := s.perfmgrDbClearPrevErr
        if pceSup then s else s.perfmgrDbClearPrevDc
    perfmgrCheckOverflow s r.wire xmitWaitSup reach

inductive Action
  | errEvent (i : ErrCnt) (n : ℕ)
  | dataEvent (i : DataCnt) (n : ℕ)
  | clear (err : ErrCnt → Bool) (pc pce : DataCnt → Bool)
  /-- `perfmgr_query_counters` -/
  | query (attr : Attr)
  | loseRequest (k : ℕ)
  | answer (k : ℕ)
  | loseResponse (k : ℕ)
  | process (k : ℕ) (reach : Bool) (junk : DataCnt → ℕ)
  | classPortInfo (port : MonitoredPort)

def step (s : System) : Action → Option System
  | .errEvent i n => some { s with pma := s.pma.errEvent i n }
  | .dataEvent i n => some { s with pma := s.pma.dataEvent i n }
  | .clear err pc pce => some { s with pma := s.pma.clear err pc pce }
  | .query attr =>
    some { s with
      requests := s.requests ++ [match attr with
        | .portCntrs => ⟨.portCntrs, .get, 0xffff, 1⟩
        | .portCntrsExt => ⟨.portCntrsExt, .get, 0x00ff, 0⟩] }
  | .loseRequest k => some { s with requests := s.requests.eraseIdx k }
  | .answer k =>
    s.requests[k]?.map fun q =>
      { s with
        pma := s.pma.perform q
        requests := s.requests.eraseIdx k
        responses := s.responses ++ [⟨q.attr, q.method, s.pma.perform q⟩] }
  | .loseResponse k => some { s with responses := s.responses.eraseIdx k }
  | .process k reach junk =>
    s.responses[k]?.map fun r => pcRecvProcess { s with responses := s.responses.eraseIdx k } r reach junk
  | .classPortInfo port => some { s with port := port }

def System.NoWrap (s : System) : Prop := (∀ i, 0 ≤ (s.errs i).difference) ∧ ∀ i, 0 ≤ (s.dcs i).difference

def System.Bounded (s : System) : Prop :=
  (∀ i, (s.errs i).total ≤ s.pma.errEvents i) ∧ ∀ i, (s.dcs i).total ≤ s.pma.dataEvents i

structure Pma.Untouched (p : Pma) : Prop where
  err : ∀ i, (p.err i).since = 0
  pc : ∀ i, (p.pc i).since = 0
  pce : ∀ i, (p.pce i).since = 0

structure Pma.Zeroed (p : Pma) : Prop where
  err : ∀ i, (p.err i).value = 0
  pc : ∀ i, (p.pc i).value = 0
  pce : ∀ i, (p.pce i).value = 0

/-- The totals are the values last read less those the counters had at first. -/
def System.Exact (p₀ : Pma) (s : System) : Prop :=
  (∀ i v, (s.errs i).last = some v → (s.errs i).total = v - (p₀.err i).value) ∧
    ∀ i v, (s.dcs i).last = some v →
      (s.dcs i).total = v - if s.port.pceSupported then (p₀.pce i).value else (p₀.pc i).value

/-- Each counter of the response was last cleared after the events that earlier readings of it have counted
and that are not subtracted any more. -/
def Response.Careful (s : System) (junk : DataCnt → ℕ) (r : Response) : Prop :=
  match r.attr with
  | .portCntrs =>
    let errReading := perfmgrDbFillErrRead r.wire s.port.xmitWaitSupported
    let dataReading := perfmgrDbFillDataCntReadPc r.wire
    (∀ i, (i = .xmitWait → s.port.xmitWaitSupported = true) →
      (s.errs i).After (Decreased (fun _ => true) errReading s.errs) (r.wire.err i).since) ∧
    (s.port.pceSupported = false → ∀ i, i.base = true →
      (s.dcs i).After (Decreased DataCnt.base dataReading s.dcs) (r.wire.pc i).since)
  | .portCntrsExt =>
    let reading := perfmgrDbFillDataCntReadPce r.wire s.port.ietfSupported junk
    ∀ i, (i.base || s.port.ietfSupported) = true →
      (s.dcs i).After (Decreased (fun i => i.base || s.port.ietfSupported) reading s.dcs) (r.wire.pce i).since

/-- The response to a Get is careful; and the counters of the full PortCountersExtended do not come up with
a previous reading that was never filled. -/
def Careful (s : System) : Action → Prop
  | .process k _ junk => ∀ r ∈ s.responses[k]?, r.method = .get → r.Careful s junk
  | .classPortInfo port => port.ietfSupported = true → s.port.ietfSupported = true ∨
      ∀ i : DataCnt, i.base = false → (s.dcs i).previous = 0
  | _ => True

instance (s : System) (junk : DataCnt → ℕ) (r : Response) : Decidable (r.Careful s junk) :=
  match r with
  | ⟨.portCntrs, _, _⟩ => inferInstanceAs (Decidable ((∀ _, _ → _) ∧ (_ → ∀ _, _ → _)))
  | ⟨.portCntrsExt, _, _⟩ => inferInstanceAs (Decidable (∀ _, _ → _))

instance (s : System) (a : Action) : Decidable (Careful s a) :=
  match a with
  | .process _ _ _ => inferInstanceAs (Decidable (∀ r ∈ _, _ → _))
  | .classPortInfo _ => inferInstanceAs (Decidable (_ → (_ ∨ ∀ _ : DataCnt, _ → _)))
  | .errEvent _ _ | .dataEvent _ _ | .clear _ _ _ | .query _ | .loseRequest _ | .answer _ | .loseResponse _ =>
    .isTrue trivial

structure Pma.Sound (p : Pma) : Prop where
  err : ∀ i : ErrCnt, (p.err i).Sound (2 ^ i.width - 1) (p.errEvents i)
  pc : ∀ i, (p.pc i).Sound (2 ^ 32 - 1) (p.dataEvents i)
  pce : ∀ i, (p.pce i).Sound (2 ^ 64 - 1) (p.dataEvents i)

structure Pma.Before (p q : Pma) : Prop where
  errEvents : ∀ i, p.errEvents i ≤ q.errEvents i
  dataEvents : ∀ i, p.dataEvents i ≤ q.dataEvents i
  err : ∀ i, (p.err i).since ≤ (q.err i).since
  pc : ∀ i, (p.pc i).since ≤ (q.pc i).since
  pce : ∀ i, (p.pce i).since ≤ (q.pce i).since

section Pma

variable {p q r : Pma}

lemma Pma.Before.refl (p : Pma) : p.Before p :=
  ⟨fun _ => le_rfl, fun _ => le_rfl, fun _ => le_rfl, fun _ => le_rfl, fun _ => le_rfl⟩

lemma Pma.Before.trans (h : p.Before q) (h' : q.Before r) : p.Before r where
  errEvents i := (h.errEvents i).trans (h'.errEvents i)
  dataEvents i := (h.dataEvents i).trans (h'.dataEvents i)
  err i := (h.err i).trans (h'.err i)
  pc i := (h.pc i).trans (h'.pc i)
  pce i := (h.pce i).trans (h'.pce i)

lemma Pma.Before.untouched (h : p.Before q) (hq : q.Untouched) : p.Untouched where
  err i := Nat.le_zero.mp ((h.err i).trans_eq (hq.err i))
  pc i := Nat.le_zero.mp ((h.pc i).trans_eq (hq.pc i))
  pce i := Nat.le_zero.mp ((h.pce i).trans_eq (hq.pce i))

lemma Pma.Sound.errEvent (h : p.Sound) (i : ErrCnt) (n : ℕ) :
    (p.errEvent i n).Sound ∧ p.Before (p.errEvent i n) := by
  constructor
  · refine ⟨fun j => ?_, h.pc, h.pce⟩
    by_cases hj : j = i
    · subst hj
      simpa [Pma.errEvent] using (h.err j).bump
    · simpa [Pma.errEvent, hj] using h.err j
  · refine ⟨fun j => ?_, fun _ => le_rfl, fun j => ?_, fun _ => le_rfl, fun _ => le_rfl⟩ <;>
      by_cases hj : j = i
    · simp [Pma.errEvent, hj]
    · simp [Pma.errEvent, hj]
    · simp [Pma.errEvent, hj, Counter.bump]
    · simp [Pma.errEvent, hj]

lemma Pma.Sound.dataEvent (h : p.Sound) (i : DataCnt) (n : ℕ) :
    (p.dataEvent i n).Sound ∧ p.Before (p.dataEvent i n) := by
  constructor
  · refine ⟨h.err, fun j => ?_, fun j => ?_⟩ <;> by_cases hj : j = i
    · subst hj
      simpa [Pma.dataEvent] using (h.pc j).bump
    · simpa [Pma.dataEvent, hj] using h.pc j
    · subst hj
      simpa [Pma.dataEvent] using (h.pce j).bump
    · simpa [Pma.dataEvent, hj] using h.pce j
  · refine ⟨fun _ => le_rfl, fun j => ?_, fun _ => le_rfl, fun j => ?_, fun j => ?_⟩ <;>
      by_cases hj : j = i <;> simp [Pma.dataEvent, hj, Counter.bump]

lemma since_le {max events : ℕ} {c : Counter} (h : c.Sound max events) : c.since ≤ events := by
  have he := h.le_events
  omega

lemma Pma.Sound.clear (h : p.Sound) (err : ErrCnt → Bool) (pc pce : DataCnt → Bool) :
    (p.clear err pc pce).Sound ∧ p.Before (p.clear err pc pce) := by
  constructor
  · refine ⟨fun i => ?_, fun i => ?_, fun i => ?_⟩ <;> simp only [Pma.clear] <;> split_ifs
    · exact Counter.zero_sound
    · exact h.err i
    · exact Counter.zero_sound
    · exact h.pc i
    · exact Counter.zero_sound
    · exact h.pce i
  · refine ⟨fun _ => le_rfl, fun _ => le_rfl, fun i => ?_, fun i => ?_, fun i => ?_⟩ <;>
      simp only [Pma.clear] <;> split_ifs
    · exact since_le (h.err i)
    · exact le_rfl
    · exact since_le (h.pc i)
    · exact le_rfl
    · exact since_le (h.pce i)
    · exact le_rfl

lemma Pma.Sound.perform (h : p.Sound) (q : Request) : (p.perform q).Sound ∧ p.Before (p.perform q) := by
  rcases q with ⟨_ | _, _ | _, sel, sel2⟩
  · exact ⟨h, .refl p⟩
  · exact h.clear _ _ _
  · exact ⟨h, .refl p⟩
  · exact h.clear _ _ _

end Pma

structure Accounted (s : System) : Prop where
  pma : s.pma.Sound
  responses : ∀ r ∈ s.responses, r.wire.Sound ∧ r.wire.Before s.pma
  errs : Sound (fun _ => true) s.pma.errEvents s.errs
  dcs : Sound (fun i => i.base || s.port.ietfSupported) s.pma.dataEvents s.dcs
  errsExact : s.pma.Untouched → ∀ i, (s.errs i).Exact 64
  dcsExact : s.pma.Untouched → ∀ i, (s.dcs i).Exact 64

section Database

variable {s : System} {r : Response} {reach : Bool} {junk : DataCnt → ℕ}

lemma Accounted.clearPrevErr (h : Accounted s) : Accounted s.perfmgrDbClearPrevErr :=
  { h with
    errs := h.errs.forget
    errsExact := fun hu i => (h.errsExact hu i).forget }

lemma Accounted.clearPrevDc (h : Accounted s) : Accounted s.perfmgrDbClearPrevDc :=
  { h with
    dcs := h.dcs.forget
    dcsExact := fun hu i => (h.dcsExact hu i).forget }

lemma Accounted.clearPrevDcUnless (h : Accounted s) (b : Bool) :
    Accounted (if b then s else s.perfmgrDbClearPrevDc) := by
  cases b
  · exact h.clearPrevDc
  · exact h

lemma Accounted.withRequests (h : Accounted s) (l : List Request) : Accounted { s with requests := l } :=
  { h with }

lemma Accounted.withResponses (h : Accounted s) {l : List Response} (hl : l.Sublist s.responses) :
    Accounted { s with responses := l } :=
  { h with responses := fun r hr => h.responses r (hl.subset hr) }

lemma Accounted.checkOverflow (h : Accounted s) (wire : Pma) (xmitWaitSup reach : Bool) :
    Accounted (perfmgrCheckOverflow s wire xmitWaitSup reach) := by
  have hsent (q : Request) :=
    (h.withRequests (s.requests ++ [q])).clearPrevErr.clearPrevDcUnless s.port.pceSupported
  rw [perfmgrCheckOverflow]
  split
  · cases reach
    · exact h
    · exact hsent _
  · exact h

lemma Accounted.checkPceOverflow (h : Accounted s) (wire : Pma) (reach : Bool) :
    Accounted (perfmgrCheckPceOverflow s wire reach) := by
  simp only [perfmgrCheckPceOverflow]
  split_ifs
  · exact (h.withRequests _).clearPrevDc
  · exact h
  · exact h

lemma ietfSupported_imp {p : MonitoredPort} (h : p.pceSupported = false) : p.ietfSupported = false := by
  revert h
  simp only [MonitoredPort.pceSupported, MonitoredPort.ietfSupported]
  cases p.cpiValid <;> cases p.extWidthSupported <;> simp

lemma lt_of_sound {max events : ℕ} {c : Counter} (h : c.Sound max events) (hm : max < 2 ^ 64) :
    c.value < 2 ^ 64 :=
  h.le_max.trans_lt hm

lemma errs_admissible (hr : r.wire.Sound ∧ r.wire.Before s.pma)
    (hc : ∀ i, (i = .xmitWait → s.port.xmitWaitSupported = true) →
      (s.errs i).After (Decreased (fun _ => true) (perfmgrDbFillErrRead r.wire s.port.xmitWaitSupported) s.errs)
        (r.wire.err i).since) :
    Admissible 64 (fun _ => true) s.pma.errEvents (perfmgrDbFillErrRead r.wire s.port.xmitWaitSupported)
      (errWindow r.wire s.port.xmitWaitSupported) s.errs := by
  rintro i -
  by_cases hx : i = .xmitWait ∧ s.port.xmitWaitSupported = false
  · simp only [errWindow, perfmgrDbFillErrRead, if_pos hx]
  · simp only [errWindow, if_neg hx]
    have hv : perfmgrDbFillErrRead r.wire s.port.xmitWaitSupported i = (r.wire.err i).value := if_neg hx
    rw [hv]
    have hs := hr.1.err i
    refine ⟨?_, hs.le_events, hr.2.errEvents i, hc i fun hi => ?_⟩
    · apply lt_of_sound hs
      cases i <;> decide
    · simpa [hi] using hx

lemma Accounted.addErr (h : Accounted s) (hr : r.wire.Sound ∧ r.wire.Before s.pma)
    (hc : ∀ i, (i = .xmitWait → s.port.xmitWaitSupported = true) →
      (s.errs i).After (Decreased (fun _ => true) (perfmgrDbFillErrRead r.wire s.port.xmitWaitSupported) s.errs)
        (r.wire.err i).since) :
    Accounted { s with
      errs := perfmgrDbAddErrReading r.wire s.port.xmitWaitSupported
        (perfmgrCheckOobClear (perfmgrDbFillErrRead r.wire s.port.xmitWaitSupported) s.errs) } := by
  have ha := errs_admissible hr hc
  refine { h with errs := h.errs.read 64 ha, errsExact := fun hu => ?_ }
  refine Exact.read 64 h.errs ha (fun i u hw => ?_) (h.errsExact hu)
  simp only [errWindow] at hw
  split_ifs at hw
  obtain rfl := Option.some.inj hw
  exact (hr.2.untouched hu).err i

lemma Accounted.addDc (h : Accounted s) {ietfSup : Bool} (hi : s.port.ietfSupported = ietfSup)
    {reading : DataCnt → ℕ} {regs : DataCnt → Counter} {events : DataCnt → ℕ} {max : ℕ} (hmax : max < 2 ^ 64)
    (hregs : ∀ i, (regs i).Sound max (events i))
    (hread : ∀ i, (i.base || ietfSup) = true → reading i = (regs i).value)
    (hev : ∀ i, events i ≤ s.pma.dataEvents i) (hu : s.pma.Untouched → ∀ i, (regs i).since = 0)
    (hc : ∀ i, (i.base || ietfSup) = true →
      (s.dcs i).After (Decreased (fun i => i.base || ietfSup) reading s.dcs) (regs i).since) :
    Accounted { s with
      dcs := perfmgrDbAddDcReading ietfSup reading (fun i => (regs i).window (events i))
        (perfmgrCheckDataCntOobClear ietfSup reading s.dcs) } := by
  have hd := h.dcs
  rw [hi] at hd
  have ha : Admissible 64 (fun i => i.base || ietfSup) s.pma.dataEvents reading
      (fun i => some ((regs i).window (events i))) s.dcs := by
    intro i hl
    have hs := hregs i
    simp only [hread i hl]
    exact ⟨lt_of_sound hs hmax, hs.le_events, hev i, hc i hl⟩
  refine { h with dcs := ?_, dcsExact := fun hun => ?_ }
  · simp only [hi]
    exact hd.read 64 ha
  · refine Exact.read 64 hd ha (fun i u hw => ?_) (h.dcsExact hun)
    obtain rfl := Option.some.inj hw
    exact hu hun i

lemma Accounted.pcRecvProcess {k : ℕ} (h : Accounted s) (hr : s.responses[k]? = some r)
    (hc : Careful s (.process k reach junk)) :
    Accounted (pcRecvProcess { s with responses := s.responses.eraseIdx k } r reach junk) := by
  have hwire := h.responses r (List.mem_of_getElem? hr)
  have hs := h.withResponses (List.eraseIdx_sublist s.responses k)
  have hcr := hc r hr
  rcases r with ⟨_ | _, _ | _, wire⟩
  · obtain ⟨he, hd⟩ := hcr rfl
    have hs₁ := hs.addErr hwire he
    apply Accounted.checkOverflow
    cases hp : s.port.pceSupported with
    | true => exact hs₁
    | false =>
      have hi := ietfSupported_imp hp
      simp only [hi]
      refine hs₁.addDc hi (by decide) hwire.1.pc (fun i hl => ?_) hwire.2.dataEvents
        (fun hu => (hwire.2.untouched hu).pc) fun i hl => ?_
      · rw [Bool.or_false] at hl
        exact if_pos hl
      · simp only [Bool.or_false] at hl ⊢
        exact hd hp i hl
  · apply Accounted.checkOverflow
    exact hs.clearPrevErr.clearPrevDcUnless _
  · apply Accounted.checkPceOverflow
    refine hs.addDc rfl (by decide) hwire.1.pce (fun i hi => if_pos hi) hwire.2.dataEvents
      (fun hu => (hwire.2.untouched hu).pce) (hcr rfl)
  · apply Accounted.checkPceOverflow
    exact hs.clearPrevDc

end Database

section Run

variable {s s' : System} {a : Action} {p₀ : Pma} {port : MonitoredPort}

lemma accounted_init (h : p₀.Sound) : Accounted (init port p₀) where
  pma := h
  responses := by simp [init]
  errs _ := Entry.fresh_sound
  dcs _ := Entry.fresh_sound
  errsExact _ _ _ hv := nomatch hv
  dcsExact _ _ _ hv := nomatch hv

lemma Accounted.evolve (h : Accounted s) {p : Pma} (hp : p.Sound ∧ s.pma.Before p) :
    Accounted { s with pma := p } where
  pma := hp.1
  responses r hr := ⟨(h.responses r hr).1, (h.responses r hr).2.trans hp.2⟩
  errs i := (h.errs i).mono (hp.2.errEvents i)
  dcs i := (h.dcs i).mono (hp.2.dataEvents i)
  errsExact hu := h.errsExact (hp.2.untouched hu)
  dcsExact hu := h.dcsExact (hp.2.untouched hu)

lemma Accounted.answer (h : Accounted s) (q : Request) (l : List Request) :
    Accounted { s with
      pma := s.pma.perform q
      requests := l
      responses := s.responses ++ [⟨q.attr, q.method, s.pma.perform q⟩] } := by
  have hp := h.pma.perform q
  refine { (h.evolve hp).withRequests l with responses := fun r hr => ?_ }
  rcases List.mem_append.mp hr with hr | hr
  · exact (h.evolve hp).responses r hr
  · obtain rfl := List.mem_singleton.mp hr
    exact ⟨hp.1, .refl _⟩

lemma Accounted.classPortInfo (h : Accounted s)
    (hc : port.ietfSupported = true → s.port.ietfSupported = true ∨ ∀ i, i.base = false → (s.dcs i).previous = 0) :
    Accounted { s with port := port } := by
  refine { h with dcs := fun i => (h.dcs i).relive fun hl => ?_ }
  rw [Bool.or_eq_true] at hl ⊢
  cases hb : i.base with
  | true => exact Or.inl (Or.inl rfl)
  | false =>
    rcases hl with hl | hl
    · exact absurd (hb.symm.trans hl) Bool.false_ne_true
    · rcases hc hl with hs | hz
      · exact Or.inl (Or.inr hs)
      · exact Or.inr (hz i hb)

lemma Accounted.step (h : Accounted s) (hc : Careful s a) (ha : step s a = some s') : Accounted s' := by
  cases a with
  | errEvent i n =>
    obtain rfl := Option.some.inj ha
    exact h.evolve (h.pma.errEvent i n)
  | dataEvent i n =>
    obtain rfl := Option.some.inj ha
    exact h.evolve (h.pma.dataEvent i n)
  | clear err pc pce =>
    obtain rfl := Option.some.inj ha
    exact h.evolve (h.pma.clear err pc pce)
  | query attr =>
    obtain rfl := Option.some.inj ha
    exact h.withRequests _
  | loseRequest k =>
    obtain rfl := Option.some.inj ha
    exact h.withRequests _
  | answer k =>
    obtain ⟨q, -, rfl⟩ := Option.map_eq_some_iff.mp ha
    exact h.answer q _
  | loseResponse k =>
    obtain rfl := Option.some.inj ha
    exact h.withResponses (List.eraseIdx_sublist _ _)
  | process k reach junk =>
    obtain ⟨r, hr, rfl⟩ := Option.map_eq_some_iff.mp ha
    exact h.pcRecvProcess hr hc
  | classPortInfo port =>
    obtain rfl := Option.some.inj ha
    exact h.classPortInfo hc

lemma Accounted.bounded (h : Accounted s) : s.Bounded :=
  ⟨fun i => (h.errs i).total_le_events, fun i => (h.dcs i).total_le_events⟩

lemma Accounted.exact (h : Accounted s) (hz : p₀.Zeroed) (hu : s.pma.Untouched) : s.Exact p₀ := by
  constructor
  · intro i v hv
    rw [hz.err i, Nat.sub_zero]
    exact (h.errsExact hu i v hv).1
  · intro i v hv
    rw [hz.pc i, hz.pce i, ite_self, Nat.sub_zero]
    exact (h.dcsExact hu i v hv).1

end Run

section NoWrap

variable {s s' : System} {a : Action} {r : Response}

lemma System.NoWrap.clearPrevDcUnless (h : s.NoWrap) (b : Bool) :
    (if b then s else s.perfmgrDbClearPrevDc).NoWrap := by
  cases b <;> exact h

lemma System.NoWrap.checkOverflow (h : s.NoWrap) (wire : Pma) (xmitWaitSup reach : Bool) :
    (perfmgrCheckOverflow s wire xmitWaitSup reach).NoWrap := by
  rw [perfmgrCheckOverflow]
  split
  · cases reach
    · exact h
    · cases s.port.pceSupported <;> exact h
  · exact h

lemma System.NoWrap.checkPceOverflow (h : s.NoWrap) (wire : Pma) (reach : Bool) :
    (perfmgrCheckPceOverflow s wire reach).NoWrap := by
  rw [perfmgrCheckPceOverflow]
  split
  · cases reach <;> exact h
  · exact h

lemma System.NoWrap.pcRecvProcess (h : s.NoWrap) (r : Response) (reach : Bool) (junk : DataCnt → ℕ) :
    (pcRecvProcess s r reach junk).NoWrap := by
  rcases r with ⟨_ | _, _ | _, wire⟩
  · apply System.NoWrap.checkOverflow
    cases hp : s.port.pceSupported with
    | true => exact ⟨difference_read_nonneg 64 h.1, h.2⟩
    | false =>
      simp only [ietfSupported_imp hp]
      exact ⟨difference_read_nonneg 64 h.1, difference_read_nonneg 64 h.2⟩
  · apply System.NoWrap.checkOverflow
    exact System.NoWrap.clearPrevDcUnless (s := s.perfmgrDbClearPrevErr) h _
  · apply System.NoWrap.checkPceOverflow
    exact ⟨h.1, difference_read_nonneg 64 h.2⟩
  · apply System.NoWrap.checkPceOverflow
    exact h

lemma System.NoWrap.step (h : s.NoWrap) (ha : step s a = some s') : s'.NoWrap := by
  cases a with
  | answer k =>
    obtain ⟨q, -, rfl⟩ := Option.map_eq_some_iff.mp ha
    exact h
  | process k reach junk =>
    obtain ⟨r, -, rfl⟩ := Option.map_eq_some_iff.mp ha
    exact System.NoWrap.pcRecvProcess (s := { s with responses := s.responses.eraseIdx k }) h r reach junk
  | _ =>
    obtain rfl := Option.some.inj ha
    exact h

end NoWrap

/-- No difference wraps in any run; and where each response that is processed is careful, no event is counted
twice, and the totals are what was read as long as no counter is cleared. -/
theorem totals_run {port : MonitoredPort} {p₀ : Pma} (h₀ : p₀.Sound) {l : List (System × Action)} {s : System}
    (h : Run step (init port p₀) l s) :
    s.NoWrap ∧ ((∀ x ∈ l, Careful x.1 x.2) →
      s.Bounded ∧ (p₀.Zeroed → s.pma.Untouched → s.Exact p₀)) := by
  refine ⟨?_, fun hl => ?_⟩
  · have hw₀ : (init port p₀).NoWrap := ⟨fun _ => le_rfl, fun _ => le_rfl⟩
    exact h.always hw₀ fun _ _ _ hw ha => hw.step ha
  · have hs : Accounted s := h.invariant (accounted_init h₀) (fun _ _ _ hi hc ha => hi.step hc ha) hl
    exact ⟨hs.bounded, hs.exact⟩

def plainPort : MonitoredPort := ⟨false, false, false, false⟩

def idlePma : Pma := ⟨fun _ => 0, fun _ => 0, fun _ => ⟨0, 0⟩, fun _ => ⟨0, 0⟩, fun _ => ⟨0, 0⟩⟩

/-- The Set that follows an overflow is lost: the ten events are counted again. -/
theorem counted_twice : ∃ l s, Run step (init plainPort idlePma) l s ∧
    s.pma.errEvents .linkIntegrity = 10 ∧ (s.errs .linkIntegrity).total = 20 := by
  have hrun := Run.of_exec step (init plainPort idlePma)
    [.errEvent .linkIntegrity 10, .query .portCntrs, .answer 0, .process 0 true fun _ => 0, .loseRequest 0,
      .query .portCntrs, .answer 0, .process 0 true fun _ => 0]
    (fun s => s.pma.errEvents .linkIntegrity = 10 ∧ (s.errs .linkIntegrity).total = 20) (fun _ => true)
    (by decide +kernel) (by decide +kernel)
  obtain ⟨l, s, h, hp, -⟩ := hrun
  exact ⟨l, s, h, of_decide_eq_true hp⟩

lemma idlePma_sound : idlePma.Sound where
  err _ := ⟨Nat.zero_le _, le_rfl⟩
  pc _ := ⟨Nat.zero_le _, le_rfl⟩
  pce _ := ⟨Nat.zero_le _, le_rfl⟩

/-- The Set arrives, and events after it are counted once. -/
theorem totals_run_cleared : ∃ l s, Run step (init plainPort idlePma) l s ∧ s.NoWrap ∧ s.Bounded ∧
    s.pma.errEvents .linkIntegrity = 13 ∧ (s.errs .linkIntegrity).total = 13 := by
  have hrun := Run.of_exec step (init plainPort idlePma)
    [.errEvent .linkIntegrity 10, .query .portCntrs, .answer 0, .process 0 true fun _ => 0, .answer 0,
      .errEvent .linkIntegrity 3, .process 0 true fun _ => 0, .query .portCntrs, .answer 0,
      .process 0 true fun _ => 0]
    (fun s => s.pma.errEvents .linkIntegrity = 13 ∧ (s.errs .linkIntegrity).total = 13)
    (fun x => Careful x.1 x.2) (by decide +kernel) (by decide +kernel)
  obtain ⟨l, s, h, hp, hl⟩ := hrun
  obtain ⟨hw, hc⟩ := totals_run idlePma_sound h
  exact ⟨l, s, h, hw, (hc fun x hx => of_decide_eq_true (hl x hx)).1, of_decide_eq_true hp⟩

end OpenSM.PerfMgr.Totals
