import Mathlib
import OpenSM.Lib.Runs

/-! The transaction match table of the ibumad vendor layer: the threads in `osm_vendor_send`, the receiver
thread and the kernel, one step for each section under `match_tbl_mutex` and for each callback. -/

namespace OpenSM.MatchTbl

open Lib.Runs

structure Madw where
  tid : ℕ
  mgmtClass : ℕ
  method : ℕ
  attrId : ℕ
  attrMod : ℕ
  deriving DecidableEq

structure Entry where
  tid : ℕ
  mgmtClass : ℕ
  v : Option Madw
  version : BitVec 32
  deriving DecidableEq

def subnLid : ℕ := 0x01
def subnDir : ℕ := 0x81
def subnAdm : ℕ := 0x03
def pathRecord : ℕ := 0x35
def multipathRecord : ℕ := 0x3a

def isSmp (mgmtClass : ℕ) : Bool := mgmtClass = subnDir ∨ mgmtClass = subnLid

def isResponse (method : ℕ) : Bool := method &&& 0x80 ≠ 0 ∨ method = 0x07

def Entry.free (e : Entry) : Bool := e.tid = 0 ∧ e.mgmtClass = 0

def getLoop (tid mgmtClass : ℕ) : List Entry → List Entry × Option Madw
  | [] => ([], none)
  | e :: es =>
    if e.tid = tid ∧ e.mgmtClass = mgmtClass then ({ e with tid := 0, mgmtClass := 0 } :: es, e.v)
    else (e :: (getLoop tid mgmtClass es).1, (getLoop tid mgmtClass es).2)

def getMadw (tbl : List Entry) (tid mgmtClass : ℕ) : List Entry × Option Madw :=
  if tid = 0 ∨ mgmtClass = 0 then (tbl, none) else getLoop tid mgmtClass tbl

/-- The two least recently used candidates of `put_madw`, by their places in the table. -/
structure Lru where
  oldest : BitVec 32
  lru : Option ℕ
  oldestSmp : BitVec 32
  lruSmp : Option ℕ
  deriving DecidableEq

def Lru.init : Lru := ⟨-1, none, -1, none⟩

def Lru.look (l : Lru) (i : ℕ) (e : Entry) : Lru :=
  if isSmp e.mgmtClass then
    if e.version ≤ l.oldestSmp then { l with oldestSmp := e.version, lruSmp := some i } else l
  else if e.version ≤ l.oldest then { l with oldest := e.version, lru := some i }
  else l

/-- The loop of `put_madw`: the first free place, or the candidates of a full table. -/
def putLoop : List Entry → ℕ → Lru → ℕ ⊕ Lru
  | [], _, l => .inr l
  | e :: es, i, l => if e.free then .inl i else putLoop es (i + 1) (l.look i e)

def Lru.oldLru (l : Lru) : Option ℕ := if l.oldest ≠ -1 then l.lru else l.lruSmp

def Lru.slot (l : Lru) (mgmtClass : ℕ) : Option ℕ := if isSmp mgmtClass then l.lruSmp else l.lru

/-- Where the thread is that was called to send the request. -/
inductive Pc
  | out
  /-- the request is entered, `umad_send` comes next -/
  | entered
  /-- `umad_send` has failed, `get_madw` comes next -/
  | failed
  | failing
  deriving DecidableEq

inductive Outcome
  | timeout
  | answer (attrId attrMod : ℕ)
  deriving DecidableEq

inductive Receiver
  | idle
  /-- `umad_recv` has returned the end of a request, `get_madw` comes next -/
  | got (m : Madw) (o : Outcome)
  | found (m : Madw) (o : Outcome)
  deriving DecidableEq

structure State where
  tbl : List Entry
  lastVersion : BitVec 32
  pc : Madw → Pc
  kernel : List Madw
  receiver : Receiver
  /-- The history: what was entered, what a callback was called for, what was touched after that. -/
  entered : List Madw
  completed : List Madw
  late : List Madw
  crashed : Bool

def init (max : ℕ) : State where
  tbl := List.replicate max ⟨0, 0, none, 0⟩
  lastVersion := 0
  pc _ := .out
  kernel := []
  receiver := .idle
  entered := []
  completed := []
  late := []
  crashed := false

inductive Act
  | put (m : Madw)
  | send (m : Madw) (ok : Bool)
  | remove (m : Madw)
  | sendErr (m : Madw)
  | recv (m : Madw) (o : Outcome)
  | lookup
  | finish
  deriving DecidableEq

def State.touch (s : State) (m : Madw) : State :=
  { s with late := if m ∈ s.completed then m :: s.late else s.late }

def State.complete (s : State) (m : Madw) : State :=
  { s.touch m with completed := m :: s.completed }

def State.store (s : State) (i : ℕ) (m : Madw) : State :=
  { s with
    tbl := s.tbl.set i ⟨m.tid, m.mgmtClass, some m, s.lastVersion + 1⟩
    lastVersion := s.lastVersion + 1 }

def State.giveUp (s : State) (i : ℕ) : State :=
  match (s.tbl[i]?).bind Entry.v with
  | some m => s.complete m
  | none => { s with crashed := true }

def putMadw (s : State) (m : Madw) : State :=
  match putLoop s.tbl 0 .init with
  | .inl i => s.store i m
  | .inr l =>
    match l.oldLru with
    | none => { s with crashed := true }
    | some i =>
      match l.slot m.mgmtClass with
      | none => { s.giveUp i with crashed := true }
      | some j => (s.giveUp i).store j m

/-- The check of a response against its request. The transaction ids agree already. -/
def validates (m : Madw) (attrId attrMod : ℕ) : Bool :=
  ¬(isResponse m.method ∨
    attrId ≠ m.attrId ∧ ¬(m.mgmtClass = subnAdm ∧ m.attrId = multipathRecord ∧ attrId = pathRecord) ∨
    attrMod ≠ m.attrMod)

def finish (s : State) (m : Madw) : Outcome → State
  | .timeout => { s.complete m with receiver := .idle }
  | .answer attrId attrMod =>
    if validates m attrId attrMod then { s.complete m with receiver := .idle }
    else { s.touch m with receiver := .idle }

def State.goto (s : State) (m : Madw) (c : Pc) : State := { s with pc := Function.update s.pc m c }

/-- A request has an id and a class, and no other request has its id. -/
def Fresh (s : State) (m : Madw) : Prop :=
  m.tid ≠ 0 ∧ m.tid < 2 ^ 32 ∧ m.mgmtClass ≠ 0 ∧ ∀ x ∈ s.entered, x.tid ≠ m.tid

instance (s : State) (m : Madw) : Decidable (Fresh s m) :=
  inferInstanceAs (Decidable (_ ∧ _))

def step (s : State) : Act → Option State
  | .put m => if Fresh s m then some ({ putMadw s m with entered := m :: s.entered }.goto m .entered) else none
  | .send m ok =>
    if s.pc m = .entered then
      some (if ok then { (s.touch m).goto m .out with kernel := m :: s.kernel } else (s.touch m).goto m .failed)
    else none
  | .remove m =>
    if s.pc m = .failed then
      some { (s.touch m).goto m .failing with tbl := (getMadw s.tbl m.tid m.mgmtClass).1 }
    else none
  | .sendErr m => if s.pc m = .failing then some ((s.complete m).goto m .out) else none
  | .recv m o =>
    if s.receiver = .idle ∧ m ∈ s.kernel then some { s with kernel := s.kernel.erase m, receiver := .got m o }
    else none
  | .lookup =>
    match s.receiver with
    | .got m o =>
      some { s with
        tbl := (getMadw s.tbl m.tid m.mgmtClass).1
        receiver := match (getMadw s.tbl m.tid m.mgmtClass).2 with
          | some r => .found r o
          | none => .idle }
    | _ => none
  | .finish =>
    match s.receiver with
    | .found m o => some (finish s m o)
    | _ => none

abbrev MatchRun (max : ℕ) : List (State × Act) → State → Prop := Run step (init max)

def Entry.req (e : Entry) : Option Madw := if e.free then none else e.v

def reqs (tbl : List Entry) : List Madw := tbl.filterMap Entry.req

def State.InHand (s : State) (m : Madw) : Prop := s.pc m = .failing ∨ ∃ o, s.receiver = .found m o

structure ExactlyOnce (s : State) : Prop where
  once : s.completed.Nodup
  untouched : s.late = []
  alive : s.crashed = false
  nodup : (reqs s.tbl).Nodup
  table : ∀ m, m ∈ reqs s.tbl ↔ m ∈ s.entered ∧ m ∉ s.completed ∧ ¬s.InHand m
  quiet : s.kernel = [] → (∀ m, s.pc m = .out) → s.receiver = .idle → ∀ m ∈ s.entered, m ∈ s.completed

/-- The entry given up is the one that is overwritten, and the thread that sent its request has left
`osm_vendor_send`. -/
def SafeEviction (s : State) (m : Madw) (l : Lru) : Prop :=
  l.oldLru.isSome ∧ l.slot m.mgmtClass = l.oldLru ∧
    ∀ r ∈ l.oldLru.bind fun i => (s.tbl[i]?).bind Entry.v, s.pc r = .out

instance (s : State) (m : Madw) (l : Lru) : Decidable (SafeEviction s m l) :=
  inferInstanceAs (Decidable (_ ∧ _))

/-- An eviction is safe, and an answer to a request of the table passes the check. -/
def Harmless (s : State) : Act → Prop
  | .put m =>
    match putLoop s.tbl 0 .init with
    | .inl _ => True
    | .inr l => SafeEviction s m l
  | .finish =>
    match s.receiver with
    | .found m (.answer attrId attrMod) => validates m attrId attrMod = true
    | _ => True
  | _ => True

instance (s : State) : (a : Act) → Decidable (Harmless s a)
  | .put m =>
    match h : putLoop s.tbl 0 .init with
    | .inl _ => isTrue (by simp [Harmless, h])
    | .inr l => decidable_of_iff (SafeEviction s m l) (by simp [Harmless, h])
  | .finish =>
    match h : s.receiver with
    | .idle | .got _ _ | .found _ .timeout => isTrue (by simp [Harmless, h])
    | .found m (.answer attrId attrMod) =>
      decidable_of_iff (validates m attrId attrMod = true) (by simp [Harmless, h])
  | .send _ _ | .remove _ | .sendErr _ | .recv _ _ | .lookup => isTrue trivial

section Table

variable {tbl l₁ l₂ : List Entry} {e x : Entry} {m : Madw}

lemma reqs_cons (e : Entry) (tbl : List Entry) : reqs (e :: tbl) = e.req.toList ++ reqs tbl := by
  cases h : e.req <;> simp [reqs, h]

lemma reqs_append (l₁ l₂ : List Entry) : reqs (l₁ ++ l₂) = reqs l₁ ++ reqs l₂ := List.filterMap_append

lemma reqs_middle (l₁ l₂ : List Entry) (x : Entry) :
    (reqs (l₁ ++ x :: l₂)).Perm (x.req.toList ++ reqs (l₁ ++ l₂)) := by
  rw [reqs_append, reqs_cons, reqs_append, ← List.append_assoc, ← List.append_assoc]
  apply List.Perm.append_right
  exact List.perm_append_comm

lemma req_free (h : e.free = true) : e.req = none := by simp [Entry.req, h]

lemma req_eq_some (h : e.req = some m) : e.free = false ∧ e.v = some m := by
  unfold Entry.req at h
  split_ifs at h with hf
  exact ⟨by simpa using hf, h⟩

lemma exists_entry (h : m ∈ reqs tbl) : ∃ e ∈ tbl, e.free = false ∧ e.v = some m := by
  obtain ⟨e, he, hm⟩ := List.mem_filterMap.mp h
  exact ⟨e, he, req_eq_some hm⟩

lemma getLoop_spec (tid mgmtClass : ℕ) (tbl : List Entry) :
    (∀ e ∈ tbl, ¬(e.tid = tid ∧ e.mgmtClass = mgmtClass)) ∧ getLoop tid mgmtClass tbl = (tbl, none) ∨
      ∃ l₁ e l₂, tbl = l₁ ++ e :: l₂ ∧ e.tid = tid ∧ e.mgmtClass = mgmtClass ∧
        getLoop tid mgmtClass tbl = (l₁ ++ { e with tid := 0, mgmtClass := 0 } :: l₂, e.v) := by
  induction tbl with
  | nil => exact .inl ⟨by simp, rfl⟩
  | cons e es ih =>
    rw [getLoop]
    split_ifs with he
    · exact .inr ⟨[], e, es, rfl, he.1, he.2, rfl⟩
    · rcases ih with ⟨hno, ih⟩ | ⟨l₁, x, l₂, rfl, htid, hcls, ih⟩
      · refine .inl ⟨?_, by rw [ih]⟩
        intro y hy
        rcases List.mem_cons.mp hy with rfl | hy
        · exact he
        · exact hno y hy
      · exact .inr ⟨e :: l₁, x, l₂, rfl, htid, hcls, by rw [ih]; rfl⟩

lemma putLoop_inl {k i : ℕ} {l : Lru} (h : putLoop tbl k l = .inl i) :
    ∃ l₁ e l₂, tbl = l₁ ++ e :: l₂ ∧ e.free = true ∧ i = k + l₁.length := by
  induction tbl generalizing k l with
  | nil => simp [putLoop] at h
  | cons e es ih =>
    rw [putLoop] at h
    split_ifs at h with he
    · exact ⟨[], e, es, rfl, he, (Sum.inl.inj h).symm⟩
    · obtain ⟨l₁, x, l₂, rfl, hx, rfl⟩ := ih h
      exact ⟨e :: l₁, x, l₂, rfl, hx, by simp only [List.length_cons]; omega⟩

/-- The candidates are places of the table that were passed. -/
def Lru.Below (l : Lru) (k : ℕ) : Prop := (∀ i ∈ l.lru, i < k) ∧ ∀ i ∈ l.lruSmp, i < k

lemma Lru.Below.look {l : Lru} {k : ℕ} (h : l.Below k) (e : Entry) : (l.look k e).Below (k + 1) := by
  have hold : l.Below (k + 1) := ⟨fun i hi => (h.1 i hi).trans k.lt_succ_self,
      fun i hi => (h.2 i hi).trans k.lt_succ_self⟩
  unfold Lru.look
  split_ifs
  · exact ⟨hold.1, by simp⟩
  · exact hold
  · exact ⟨by simp, hold.2⟩
  · exact hold

lemma putLoop_inr {k : ℕ} {l l' : Lru} (h : putLoop tbl k l = .inr l') (hl : l.Below k) :
    (∀ e ∈ tbl, e.free = false) ∧ l'.Below (k + tbl.length) := by
  induction tbl generalizing k l with
  | nil => exact ⟨by simp, (Sum.inr.inj h) ▸ hl⟩
  | cons e es ih =>
    rw [putLoop] at h
    split_ifs at h with he
    obtain ⟨hes, hbelow⟩ := ih h (hl.look e)
    refine ⟨?_, ?_⟩
    · intro y hy
      rcases List.mem_cons.mp hy with rfl | hy
      · simpa using he
      · exact hes y hy
    · rwa [List.length_cons, Nat.add_comm es.length, ← Nat.add_assoc]

lemma oldLru_lt {l : Lru} {k i : ℕ} (h : l.Below k) (hi : l.oldLru = some i) : i < k := by
  unfold Lru.oldLru at hi
  split_ifs at hi
  · exact h.1 i hi
  · exact h.2 i hi

end Table

structure Inv (s : State) : Prop where
  wf : ∀ e ∈ s.tbl, e.free = false → ∃ m, e.v = some m ∧ e.tid = m.tid ∧ e.mgmtClass = m.mgmtClass
  nodup : (reqs s.tbl).Nodup
  table : ∀ m, m ∈ reqs s.tbl ↔ m ∈ s.entered ∧ m ∉ s.completed ∧ ¬s.InHand m
  keyed : ∀ x ∈ s.entered, x.tid ≠ 0 ∧ x.mgmtClass ≠ 0
  tids : ∀ x ∈ s.entered, ∀ y ∈ s.entered, x.tid = y.tid → x = y
  once : s.completed.Nodup
  untouched : s.late = []
  alive : s.crashed = false
  known : ∀ m ∈ s.completed, m ∈ s.entered
  calls : ∀ m, s.pc m ≠ .out → m ∈ s.entered ∧ m ∉ s.completed
  kernel : ∀ m ∈ s.kernel, m ∈ s.entered ∧ s.pc m = .out
  got : ∀ m o, s.receiver = .got m o → m ∈ s.entered ∧ s.pc m = .out
  found : ∀ m o, s.receiver = .found m o → m ∈ s.entered ∧ m ∉ s.completed ∧ s.pc m = .out
  progress : ∀ m ∈ s.entered, m ∉ s.completed →
    s.pc m ≠ .out ∨ m ∈ s.kernel ∨ ∃ o, s.receiver = .got m o ∨ s.receiver = .found m o

lemma inv_init (max : ℕ) : Inv (init max) := by
  have hnil : reqs (List.replicate max ⟨0, 0, none, 0⟩) = [] := by
    simp [reqs, Entry.req, Entry.free]
  refine ⟨?_, hnil ▸ List.nodup_nil, ?_, by simp [init], by simp [init], by simp [init], rfl, rfl, by simp [init],
    by simp [init], by simp [init], by simp [init], by simp [init], by simp [init]⟩
  · intro e he hfree
    obtain rfl := List.eq_of_mem_replicate he
    simp [Entry.free] at hfree
  · intro m
    rw [init, hnil]
    simp

section Step

variable {s s' : State} {m : Madw}

lemma Inv.exactlyOnce (h : Inv s) : ExactlyOnce s := by
  refine ⟨h.once, h.untouched, h.alive, h.nodup, h.table, ?_⟩
  intro hk hpc hr m hm
  by_contra hdone
  rcases h.progress m hm hdone with hout | hmem | ⟨o, ho | ho⟩
  · exact hout (hpc m)
  · simp [hk] at hmem
  · simp [hr] at ho
  · simp [hr] at ho

lemma touch_eq (h : m ∉ s.completed) : s.touch m = s := by simp [State.touch, h]

lemma complete_eq (h : m ∉ s.completed) : s.complete m = { s with completed := m :: s.completed } := by
  rw [State.complete, touch_eq h]

lemma goto_pc (s : State) (m : Madw) (c : Pc) (x : Madw) : (s.goto m c).pc x = if x = m then c else s.pc x := by
  rw [State.goto]
  exact Function.update_apply _ _ _ _

lemma mem_reqs {tbl : List Entry} {e : Entry} (he : e ∈ tbl) (hv : e.v = some m) (hfree : e.free = false) :
    m ∈ reqs tbl := List.mem_filterMap.mpr ⟨e, he, by simp [Entry.req, hfree, hv]⟩

lemma set_spec {tbl : List Entry} {i : ℕ} (hi : i < tbl.length) (x : Entry) :
    ∃ l₁ l₂, tbl = l₁ ++ tbl[i] :: l₂ ∧ tbl.set i x = l₁ ++ x :: l₂ := by
  refine ⟨tbl.take i, tbl.drop (i + 1), ?_, List.set_eq_take_cons_drop x hi⟩
  rw [List.cons_getElem_drop_succ, List.take_append_drop]

/-- The request of an entry is completed, and the entry freed. -/
lemma Inv.evict (h : Inv s) {i : ℕ} (hi : i < s.tbl.length) (hfree : s.tbl[i].free = false)
    (hpc : ∀ r ∈ (s.tbl[i]?).bind Entry.v, s.pc r = .out) :
    Inv { s.giveUp i with tbl := s.tbl.set i ⟨0, 0, none, 0⟩ } ∧ (s.giveUp i).lastVersion = s.lastVersion ∧
      (s.giveUp i).entered = s.entered := by
  obtain ⟨r, hv, -, -⟩ := h.wf _ (List.getElem_mem hi) hfree
  have hbind : (s.tbl[i]?).bind Entry.v = some r := by simp [List.getElem?_eq_getElem hi, hv]
  have hmem := mem_reqs (List.getElem_mem hi) hv hfree
  obtain ⟨hent, hcomp, hhand⟩ := (h.table r).mp hmem
  have hout : s.pc r = .out := hpc r (by simp [hbind])
  have hgive : s.giveUp i = { s with completed := r :: s.completed } := by
    simp only [State.giveUp, hbind]
    exact complete_eq hcomp
  obtain ⟨l₁, l₂, htbl, hset⟩ := set_spec hi ⟨0, 0, none, 0⟩
  have hold := reqs_middle l₁ l₂ s.tbl[i]
  rw [← htbl, Entry.req, hfree, if_neg Bool.false_ne_true, hv] at hold
  have hnew : (reqs (s.tbl.set i ⟨0, 0, none, 0⟩)).Perm (reqs (l₁ ++ l₂)) := by
    rw [hset]
    exact reqs_middle l₁ l₂ _
  have hnodup := hold.nodup_iff.mp h.nodup
  rw [Option.toList_some, List.singleton_append, List.nodup_cons] at hnodup
  refine ⟨?_, by rw [hgive], by rw [hgive]⟩
  rw [hgive]
  refine ⟨?_, hnew.nodup_iff.mpr hnodup.2, ?_, h.keyed, h.tids, List.nodup_cons.mpr ⟨hcomp, h.once⟩, h.untouched,
    h.alive, ?_, ?_, h.kernel, h.got, ?_, ?_⟩
  · intro e he
    rcases List.mem_or_eq_of_mem_set he with he | rfl
    · exact h.wf e he
    · simp [Entry.free]
  · intro x
    rw [hnew.mem_iff]
    have hx := h.table x
    rw [hold.mem_iff, Option.toList_some, List.singleton_append, List.mem_cons] at hx
    simp only [List.mem_cons, not_or]
    constructor
    · intro hin
      obtain ⟨he, hc, hh⟩ := hx.mp (.inr hin)
      exact ⟨he, ⟨fun hxr => hnodup.1 (hxr ▸ hin), hc⟩, hh⟩
    · rintro ⟨he, ⟨hne, hc⟩, hh⟩
      exact (hx.mpr ⟨he, hc, hh⟩).resolve_left hne
  · intro x hx
    rcases List.mem_cons.mp hx with rfl | hx
    · exact hent
    · exact h.known x hx
  · intro x hx
    refine ⟨(h.calls x hx).1, ?_⟩
    simp only [List.mem_cons, not_or]
    exact ⟨fun hxr => hx (hxr ▸ hout), (h.calls x hx).2⟩
  · intro x o hx
    obtain ⟨he, hc, ho⟩ := h.found x o hx
    refine ⟨he, ?_, ho⟩
    simp only [List.mem_cons, not_or]
    exact ⟨fun hxr => hhand (.inr ⟨o, hxr ▸ hx⟩), hc⟩
  · intro x hx hc
    exact h.progress x hx (fun hin => hc (List.mem_cons_of_mem _ hin))

/-- A new request is stored in a free place. -/
lemma Inv.enter (h : Inv s) (hm : Fresh s m) {i : ℕ} (hi : i < s.tbl.length) (hfree : s.tbl[i].free = true) :
    Inv ({ s.store i m with entered := m :: s.entered }.goto m .entered) := by
  obtain ⟨htid, -, hcls, hfresh⟩ := hm
  have hnot : m ∉ s.entered := fun hin => hfresh m hin rfl
  have hpc : s.pc m = .out := by
    by_contra hout
    exact hnot (h.calls m hout).1
  have hne : ∀ x ∈ s.entered, x ≠ m := fun x hx hxm => hnot (hxm ▸ hx)
  let e : Entry := ⟨m.tid, m.mgmtClass, some m, s.lastVersion + 1⟩
  have hreq : e.req = some m := by simp [e, Entry.req, Entry.free, htid]
  obtain ⟨l₁, l₂, htbl, hset⟩ := set_spec hi e
  have hold := reqs_middle l₁ l₂ s.tbl[i]
  rw [← htbl, req_free hfree, Option.toList_none, List.nil_append] at hold
  have hnew : (reqs (s.tbl.set i e)).Perm (m :: reqs (l₁ ++ l₂)) := by
    have hmid := reqs_middle l₁ l₂ e
    rwa [hreq, ← hset] at hmid
  have hnotin : m ∉ reqs s.tbl := fun hin => hnot ((h.table m).mp hin).1
  have hhand : ∀ x, ({ s.store i m with entered := m :: s.entered }.goto m .entered).InHand x ↔ s.InHand x := by
    intro x
    simp only [State.InHand, goto_pc]
    split_ifs with hx
    · simp [hx, hpc, State.goto, State.store]
    · rfl
  refine ⟨?_, ?_, ?_, ?_, ?_, h.once, h.untouched, h.alive, ?_, ?_, ?_, ?_, ?_, ?_⟩
  · intro x hx
    rcases List.mem_or_eq_of_mem_set hx with hx | rfl
    · exact h.wf x hx
    · exact fun _ => ⟨m, rfl, rfl, rfl⟩
  · refine hnew.nodup_iff.mpr (List.nodup_cons.mpr ⟨?_, hold.nodup_iff.mp h.nodup⟩)
    rwa [← hold.mem_iff]
  · intro x
    have hx := h.table x
    rw [hhand]
    change x ∈ reqs (s.tbl.set i e) ↔ x ∈ m :: s.entered ∧ x ∉ s.completed ∧ _
    rw [hnew.mem_iff, List.mem_cons, List.mem_cons, ← hold.mem_iff, hx]
    constructor
    · rintro (rfl | ⟨he, hrest⟩)
      · refine ⟨.inl rfl, fun hc => hnot (h.known _ hc), ?_⟩
        rintro (hf | ⟨o, ho⟩)
        · simp [hpc] at hf
        · exact hnot (h.found _ o ho).1
      · exact ⟨.inr he, hrest⟩
    · rintro ⟨rfl | he, hrest⟩
      · exact .inl rfl
      · exact .inr ⟨he, hrest⟩
  · intro x hx
    rcases List.mem_cons.mp hx with rfl | hx
    · exact ⟨htid, hcls⟩
    · exact h.keyed x hx
  · intro x hx y hy hxy
    rcases List.mem_cons.mp hx with hxm | hxe <;> rcases List.mem_cons.mp hy with hym | hye
    · exact hxm.trans hym.symm
    · exact absurd (hxm ▸ hxy.symm) (hfresh y hye)
    · exact absurd (hym ▸ hxy) (hfresh x hxe)
    · exact h.tids x hxe y hye hxy
  · exact fun x hx => List.mem_cons_of_mem _ (h.known x hx)
  · intro x hx
    rw [goto_pc] at hx
    split_ifs at hx with hxm
    · exact ⟨hxm ▸ List.mem_cons_self, fun hc => hnot (h.known m (hxm ▸ hc))⟩
    · exact ⟨List.mem_cons_of_mem _ (h.calls x hx).1, (h.calls x hx).2⟩
  · intro x hx
    obtain ⟨he, ho⟩ := h.kernel x hx
    exact ⟨List.mem_cons_of_mem _ he, by rw [goto_pc, if_neg (hne x he)]; exact ho⟩
  · intro x o hx
    obtain ⟨he, ho⟩ := h.got x o hx
    exact ⟨List.mem_cons_of_mem _ he, by rw [goto_pc, if_neg (hne x he)]; exact ho⟩
  · intro x o hx
    obtain ⟨he, hc, ho⟩ := h.found x o hx
    exact ⟨List.mem_cons_of_mem _ he, hc, by rw [goto_pc, if_neg (hne x he)]; exact ho⟩
  · intro x hx hc
    rcases List.mem_cons.mp hx with rfl | hx
    · exact .inl (by simp [goto_pc])
    · rw [goto_pc, if_neg (hne x hx)]
      exact h.progress x hx hc

lemma Inv.missed (h : Inv s) (hm : m ∈ s.entered) (hin : m ∉ reqs s.tbl) :
    getMadw s.tbl m.tid m.mgmtClass = (s.tbl, none) := by
  obtain ⟨htid, hcls⟩ := h.keyed m hm
  rw [getMadw, if_neg (by simp [htid, hcls])]
  rcases getLoop_spec m.tid m.mgmtClass s.tbl with ⟨-, hget⟩ | ⟨l₁, e, l₂, htbl, het, hec, -⟩
  · exact hget
  · have he : e ∈ s.tbl := by simp [htbl]
    have hfree : e.free = false := by simp [Entry.free, het, htid]
    obtain ⟨r, hv, hrt, -⟩ := h.wf e he hfree
    have hr := mem_reqs he hv hfree
    obtain rfl := h.tids r ((h.table r).mp hr).1 m hm (hrt.symm.trans het)
    exact absurd hr hin

lemma Inv.taken (h : Inv s) (hin : m ∈ reqs s.tbl) :
    ∃ tbl, getMadw s.tbl m.tid m.mgmtClass = (tbl, some m) ∧ (reqs s.tbl).Perm (m :: reqs tbl) ∧
      ∀ e ∈ tbl, e.free = false → ∃ r, e.v = some r ∧ e.tid = r.tid ∧ e.mgmtClass = r.mgmtClass := by
  have hm := ((h.table m).mp hin).1
  obtain ⟨htid, hcls⟩ := h.keyed m hm
  rw [getMadw, if_neg (by simp [htid, hcls])]
  rcases getLoop_spec m.tid m.mgmtClass s.tbl with ⟨hno, -⟩ | ⟨l₁, e, l₂, htbl, het, hec, hget⟩
  · obtain ⟨e, he, hfree, hv⟩ := exists_entry hin
    obtain ⟨r, hr, hrt, hrc⟩ := h.wf e he hfree
    obtain rfl := Option.some.inj (hv.symm.trans hr)
    exact absurd ⟨hrt, hrc⟩ (hno e he)
  · have he : e ∈ s.tbl := by simp [htbl]
    have hfree : e.free = false := by simp [Entry.free, het, htid]
    obtain ⟨r, hv, hrt, -⟩ := h.wf e he hfree
    have hr := mem_reqs he hv hfree
    obtain rfl := h.tids r ((h.table r).mp hr).1 m hm (hrt.symm.trans het)
    have hold := reqs_middle l₁ l₂ e
    have hnew := reqs_middle l₁ l₂ { e with tid := 0, mgmtClass := 0 }
    rw [← htbl, Entry.req, hfree, if_neg Bool.false_ne_true, hv] at hold
    refine ⟨_, by rw [hget, hv], hold.trans (List.Perm.cons _ hnew.symm), ?_⟩
    intro x hx
    rcases List.mem_append.mp hx with hx | hx
    · exact h.wf x (by simp [htbl, hx])
    · rcases List.mem_cons.mp hx with rfl | hx
      · simp [Entry.free]
      · exact h.wf x (by simp [htbl, hx])

lemma Inv.put (h : Inv s) (hm : Fresh s m) (hq : Harmless s (.put m)) :
    Inv ({ putMadw s m with entered := m :: s.entered }.goto m .entered) := by
  unfold putMadw
  split
  next i hput =>
    obtain ⟨l₁, e, l₂, htbl, hfree, rfl⟩ := putLoop_inl hput
    have hi : 0 + l₁.length < s.tbl.length := by simp [htbl]
    exact h.enter hm hi (by simpa [htbl] using hfree)
  next l hput =>
    simp only [Harmless, hput, SafeEviction] at hq
    obtain ⟨i, hold⟩ := Option.isSome_iff_exists.mp hq.1
    have hslot := hq.2.1.trans hold
    have hpc : ∀ r ∈ (s.tbl[i]?).bind Entry.v, s.pc r = .out := by simpa only [hold, Option.bind_some] using hq.2.2
    obtain ⟨hfull, hbelow⟩ := putLoop_inr hput ⟨by simp [Lru.init], by simp [Lru.init]⟩
    have hi : i < s.tbl.length := by simpa using oldLru_lt hbelow hold
    obtain ⟨hinv, hver, hent⟩ := h.evict hi (hfull _ (List.getElem_mem hi)) hpc
    have hfresh : Fresh { s.giveUp i with tbl := s.tbl.set i ⟨0, 0, none, 0⟩ } m := by
      simpa only [Fresh, hent] using hm
    have henter := hinv.enter hfresh (i := i) (by simpa using hi) (by simp [Entry.free])
    have htbl : (s.giveUp i).tbl = s.tbl := by
      unfold State.giveUp
      split <;> rfl
    simp only [hold, hslot]
    simpa only [State.store, List.set_set, htbl, hent] using henter

lemma Inv.send {ok : Bool} (h : Inv s) (hpc : s.pc m = .entered)
    (hs : s' = if ok then { (s.touch m).goto m .out with kernel := m :: s.kernel }
      else (s.touch m).goto m .failed) :
    Inv s' := by
  obtain ⟨hent, hcomp⟩ := h.calls m (by simp [hpc])
  rw [touch_eq hcomp] at hs
  have hhand : ∀ x, s'.InHand x ↔ s.InHand x := by
    intro x
    by_cases hx : x = m
    · cases ok <;> simp [hs, State.InHand, State.goto, hx, hpc]
    · cases ok <;> simp [hs, State.InHand, State.goto, hx]
  have hfound : ∀ o, s.receiver ≠ .found m o := fun o ho => by simpa [hpc] using (h.found m o ho).2.2
  have hgot : ∀ o, s.receiver ≠ .got m o := fun o ho => by simpa [hpc] using (h.got m o ho).2
  have hout : ∀ x, s.pc x = .out → s'.pc x = .out := by
    intro x hx
    have hne : x ≠ m := fun hxm => by simp [hxm, hpc] at hx
    cases ok <;> simpa [hs, State.goto, hne] using hx
  have htbl : s'.tbl = s.tbl := by cases ok <;> simp [hs, State.goto]
  have hentered : s'.entered = s.entered := by cases ok <;> simp [hs, State.goto]
  have hcompleted : s'.completed = s.completed := by cases ok <;> simp [hs, State.goto]
  have hreceiver : s'.receiver = s.receiver := by cases ok <;> simp [hs, State.goto]
  refine ⟨htbl ▸ h.wf, htbl ▸ h.nodup, ?_, hentered ▸ h.keyed, hentered ▸ h.tids, hcompleted ▸ h.once, ?_, ?_, ?_,
    ?_, ?_, ?_, ?_, ?_⟩
  · intro x
    rw [hhand, htbl, hentered, hcompleted]
    exact h.table x
  · cases ok <;> simpa [hs, State.goto] using h.untouched
  · cases ok <;> simpa [hs, State.goto] using h.alive
  · rw [hentered, hcompleted]
    exact h.known
  · intro x hx
    rw [hentered, hcompleted]
    by_cases hxm : x = m
    · exact hxm ▸ ⟨hent, hcomp⟩
    · exact h.calls x (fun ho => hx (hout x ho))
  · intro x hx
    rw [hentered]
    cases ok with
    | false =>
      exact ⟨(h.kernel x (by simpa [hs, State.goto] using hx)).1,
          hout x (h.kernel x (by simpa [hs, State.goto] using hx)).2⟩
    | true =>
      by_cases hxm : x = m
      · exact ⟨hxm ▸ hent, by simp [hs, State.goto, hxm]⟩
      · have hk : x ∈ s.kernel := by simpa [hs, State.goto, hxm] using hx
        exact ⟨(h.kernel x hk).1, hout x (h.kernel x hk).2⟩
  · intro x o hx
    rw [hreceiver] at hx
    exact hentered ▸ ⟨(h.got x o hx).1, hout x (h.got x o hx).2⟩
  · intro x o hx
    rw [hreceiver] at hx
    obtain ⟨he, hc, ho⟩ := h.found x o hx
    exact hentered ▸ hcompleted ▸ ⟨he, hc, hout x ho⟩
  · intro x hx hc
    rw [hentered] at hx
    rw [hcompleted] at hc
    rw [hreceiver]
    by_cases hxm : x = m
    · cases ok with
      | false => exact .inl (by simp [hs, State.goto, hxm])
      | true => exact .inr (.inl (by simp [hs, State.goto, hxm]))
    · rcases h.progress x hx hc with ho | hk | hr
      · refine .inl ?_
        cases ok <;> simpa [hs, State.goto, hxm] using ho
      · refine .inr (.inl ?_)
        cases ok <;> simp [hs, State.goto, hk]
      · exact .inr (.inr hr)

lemma Inv.remove (h : Inv s) (hpc : s.pc m = .failed) :
    Inv { (s.touch m).goto m .failing with tbl := (getMadw s.tbl m.tid m.mgmtClass).1 } := by
  obtain ⟨hent, hcomp⟩ := h.calls m (by simp [hpc])
  have hfound : ∀ o, s.receiver ≠ .found m o := fun o ho => by simpa [hpc] using (h.found m o ho).2.2
  have hin : m ∈ reqs s.tbl := by
    refine (h.table m).mpr ⟨hent, hcomp, ?_⟩
    rintro (hf | ⟨o, ho⟩)
    · simp [hpc] at hf
    · exact hfound o ho
  obtain ⟨tbl, hget, hperm, hwf⟩ := h.taken hin
  have hnodup := List.nodup_cons.mp (hperm.nodup_iff.mp h.nodup)
  have hout : ∀ x, s.pc x = .out → (s.goto m .failing).pc x = .out := by
    intro x hx
    have hne : x ≠ m := fun hxm => by simp [hxm, hpc] at hx
    rwa [goto_pc, if_neg hne]
  rw [hget, touch_eq hcomp]
  refine ⟨hwf, hnodup.2, ?_, h.keyed, h.tids, h.once, h.untouched, h.alive, h.known, ?_, ?_, ?_, ?_, ?_⟩
  · intro x
    have hx := h.table x
    rw [hperm.mem_iff, List.mem_cons] at hx
    simp only [State.InHand, goto_pc] at hx ⊢
    by_cases hxm : x = m
    · simp [hxm, hnodup.1]
    · simp only [hxm, false_or, if_false] at hx ⊢
      exact hx
  · intro x hx
    by_cases hxm : x = m
    · rw [hxm]
      exact ⟨hent, hcomp⟩
    · exact h.calls x (fun ho => hx (hout x ho))
  · exact fun x hx => ⟨(h.kernel x hx).1, hout x (h.kernel x hx).2⟩
  · exact fun x o hx => ⟨(h.got x o hx).1, hout x (h.got x o hx).2⟩
  · exact fun x o hx => ⟨(h.found x o hx).1, (h.found x o hx).2.1, hout x (h.found x o hx).2.2⟩
  · intro x hx hc
    by_cases hxm : x = m
    · exact .inl (by simp [goto_pc, hxm])
    · exact (h.progress x hx hc).imp_left (fun ho => by simpa [goto_pc, hxm] using ho)

/-- A thread that has the request in hand completes it. -/
lemma Inv.complete (h : Inv s) (hent : m ∈ s.entered) (hcomp : m ∉ s.completed) (hhand : s.InHand m)
    (hpc : ∀ x, s'.pc x = if x = m then .out else s.pc x) (htbl : s'.tbl = s.tbl) (hke : s'.kernel = s.kernel)
    (hre : s'.receiver = s.receiver ∨ (∃ o, s.receiver = .found m o) ∧ s'.receiver = .idle)
    (hin : ¬s'.InHand m) (hen : s'.entered = s.entered) (hco : s'.completed = m :: s.completed)
    (hla : s'.late = s.late) (hcr : s'.crashed = s.crashed) : Inv s' := by
  have hnotin : m ∉ reqs s.tbl := fun hx => ((h.table m).mp hx).2.2 hhand
  have hout : ∀ x, s.pc x = .out → s'.pc x = .out := fun x hx => by simp [hpc, hx]
  have hother : ∀ x, x ≠ m → (s'.InHand x ↔ s.InHand x) := by
    intro x hx
    simp only [State.InHand, hpc, if_neg hx]
    rcases hre with hre | ⟨⟨o, ho⟩, hre⟩
    · rw [hre]
    · simp [ho, hre, hx.symm]
  have hback : ∀ x o, s'.receiver = .got x o ∨ s'.receiver = .found x o → s'.receiver = s.receiver := by
    intro x o hx
    rcases hre with hre | ⟨-, hre⟩
    · exact hre
    · simp [hre] at hx
  refine ⟨htbl ▸ h.wf, htbl ▸ h.nodup, ?_, hen ▸ h.keyed, hen ▸ h.tids, hco ▸ List.nodup_cons.mpr ⟨hcomp, h.once⟩,
    hla.trans h.untouched, hcr.trans h.alive, ?_, ?_, ?_, ?_, ?_, ?_⟩
  · intro x
    rw [htbl, hen, hco, List.mem_cons, not_or]
    by_cases hx : x = m
    · simp [hx, hnotin]
    · rw [hother x hx, h.table x]
      simp [hx]
  · intro x hx
    rw [hco] at hx
    rw [hen]
    rcases List.mem_cons.mp hx with rfl | hx
    · exact hent
    · exact h.known x hx
  · intro x hx
    by_cases hxm : x = m
    · simp [hpc, hxm] at hx
    · rw [hpc, if_neg hxm] at hx
      rw [hen, hco, List.mem_cons, not_or]
      exact ⟨(h.calls x hx).1, hxm, (h.calls x hx).2⟩
  · intro x hx
    rw [hke] at hx
    exact hen ▸ ⟨(h.kernel x hx).1, hout x (h.kernel x hx).2⟩
  · intro x o hx
    rw [hback x o (.inl hx)] at hx
    exact hen ▸ ⟨(h.got x o hx).1, hout x (h.got x o hx).2⟩
  · intro x o hx
    have hne : x ≠ m := fun hxm => hin (.inr ⟨o, hxm ▸ hx⟩)
    rw [hback x o (.inr hx)] at hx
    obtain ⟨he, hc, ho⟩ := h.found x o hx
    rw [hen, hco, List.mem_cons, not_or]
    exact ⟨he, ⟨hne, hc⟩, hout x ho⟩
  · intro x hx hc
    rw [hco, List.mem_cons, not_or] at hc
    rw [hen] at hx
    rw [hpc, if_neg hc.1, hke]
    refine (h.progress x hx hc.2).imp_right (Or.imp_right ?_)
    rintro ⟨o, ho⟩
    refine ⟨o, ?_⟩
    rcases hre with hre | ⟨⟨o', ho'⟩, -⟩
    · rwa [hre]
    · rcases ho with ho | ho
      · simp [ho'] at ho
      · simp only [ho', Receiver.found.injEq] at ho
        exact absurd ho.1.symm hc.1

lemma Inv.sendErr (h : Inv s) (hpc : s.pc m = .failing) : Inv ((s.complete m).goto m .out) := by
  obtain ⟨hent, hcomp⟩ := h.calls m (by simp [hpc])
  rw [complete_eq hcomp]
  refine h.complete hent hcomp (.inl hpc) (goto_pc _ _ _) rfl rfl (.inl rfl) ?_ rfl rfl rfl rfl
  rintro (hf | ⟨o, ho⟩)
  · simp [goto_pc] at hf
  · have hout := (h.found m o ho).2.2
    simp [hpc] at hout

lemma Inv.finish {o : Outcome} (h : Inv s) (hre : s.receiver = .found m o) (hq : Harmless s .finish) :
    Inv (finish s m o) := by
  obtain ⟨hent, hcomp, hpc⟩ := h.found m o hre
  have hdone : Inv { s.complete m with receiver := .idle } := by
    rw [complete_eq hcomp]
    refine h.complete hent hcomp (.inr ⟨o, hre⟩) ?_ rfl rfl (.inr ⟨⟨o, hre⟩, rfl⟩) ?_ rfl rfl rfl rfl
    · intro x
      split_ifs with hx
      · rw [hx, hpc]
      · rfl
    · simp [State.InHand, hpc]
  cases o with
  | timeout => exact hdone
  | answer attrId attrMod =>
    simp only [Harmless, hre] at hq
    simpa only [MatchTbl.finish, hq, if_true] using hdone

lemma Inv.recv {o : Outcome} (h : Inv s) (hre : s.receiver = .idle) (hm : m ∈ s.kernel) :
    Inv { s with kernel := s.kernel.erase m, receiver := .got m o } := by
  have hhand : ∀ x, State.InHand { s with kernel := s.kernel.erase m, receiver := .got m o } x ↔ s.InHand x := by
    intro x
    simp [State.InHand, hre]
  refine ⟨h.wf, h.nodup, ?_, h.keyed, h.tids, h.once, h.untouched, h.alive, h.known, h.calls, ?_, ?_, by simp, ?_⟩
  · intro x
    rw [hhand]
    exact h.table x
  · exact fun x hx => h.kernel x (List.mem_of_mem_erase hx)
  · intro x o' hx
    simp only [Receiver.got.injEq] at hx
    exact hx.1 ▸ h.kernel m hm
  · intro x hx hc
    rcases h.progress x hx hc with ho | hk | ⟨o', ho'⟩
    · exact .inl ho
    · by_cases hxm : x = m
      · exact .inr (.inr ⟨o, .inl (by rw [hxm])⟩)
      · exact .inr (.inl ((List.mem_erase_of_ne hxm).mpr hk))
    · simp [hre] at ho'

lemma Inv.lookup {o : Outcome} (h : Inv s) (hre : s.receiver = .got m o) :
    Inv { s with
      tbl := (getMadw s.tbl m.tid m.mgmtClass).1
      receiver := match (getMadw s.tbl m.tid m.mgmtClass).2 with
        | some r => .found r o
        | none => .idle } := by
  obtain ⟨hent, hpc⟩ := h.got m o hre
  by_cases hin : m ∈ reqs s.tbl
  · obtain ⟨tbl, hget, hperm, hwf⟩ := h.taken hin
    have hcomp := ((h.table m).mp hin).2.1
    have hnodup := List.nodup_cons.mp (hperm.nodup_iff.mp h.nodup)
    rw [hget]
    refine ⟨hwf, hnodup.2, ?_, h.keyed, h.tids, h.once, h.untouched, h.alive, h.known, h.calls, h.kernel, by simp,
      ?_, ?_⟩
    · intro x
      have hx := h.table x
      rw [hperm.mem_iff, List.mem_cons] at hx
      simp only [State.InHand, hre, reduceCtorEq, exists_false, or_false] at hx
      by_cases hxm : x = m
      · simp [State.InHand, hxm, hnodup.1]
      · simp only [hxm, false_or] at hx
        rw [hx]
        simp [State.InHand, Ne.symm hxm]
    · intro x o' hx
      simp only [Receiver.found.injEq] at hx
      exact hx.1 ▸ ⟨hent, hcomp, hpc⟩
    · intro x hx hc
      rcases h.progress x hx hc with ho | hk | ⟨o', ho' | ho'⟩
      · exact .inl ho
      · exact .inr (.inl hk)
      · simp only [hre, Receiver.got.injEq] at ho'
        exact .inr (.inr ⟨o, .inr (by rw [ho'.1])⟩)
      · simp [hre] at ho'
  · rw [h.missed hent hin]
    refine ⟨h.wf, h.nodup, ?_, h.keyed, h.tids, h.once, h.untouched, h.alive, h.known, h.calls, h.kernel, by simp,
      by simp, ?_⟩
    · intro x
      rw [h.table x]
      simp [State.InHand, hre]
    · intro x hx hc
      rcases h.progress x hx hc with ho | hk | ⟨o', ho' | ho'⟩
      · exact .inl ho
      · exact .inr (.inl hk)
      · simp only [hre, Receiver.got.injEq] at ho'
        -- the request left the table before, so it is completed
        refine absurd ((h.table m).mpr ⟨hent, ho'.1 ▸ hc, ?_⟩) hin
        simp [State.InHand, hre, hpc]
      · simp [hre] at ho'

lemma Inv.step {a : Act} (h : Inv s) (hq : Harmless s a) (hs : step s a = some s') : Inv s' := by
  unfold MatchTbl.step at hs
  cases a with
  | put m =>
    simp only at hs
    split_ifs at hs with hm
    exact Option.some.inj hs ▸ h.put hm hq
  | send m ok =>
    by_cases hpc : s.pc m = .entered
    · simp only [hpc, if_true] at hs
      exact h.send hpc (Option.some.inj hs).symm
    · simp [hpc] at hs
  | remove m =>
    simp only at hs
    split_ifs at hs with hpc
    exact Option.some.inj hs ▸ h.remove hpc
  | sendErr m =>
    simp only at hs
    split_ifs at hs with hpc
    exact Option.some.inj hs ▸ h.sendErr hpc
  | recv m o =>
    simp only at hs
    split_ifs at hs with hm
    exact Option.some.inj hs ▸ h.recv hm.1 hm.2
  | lookup =>
    simp only at hs
    split at hs
    next m o hre => exact Option.some.inj hs ▸ h.lookup hre
    next => simp at hs
  | finish =>
    simp only at hs
    split at hs
    next m o hre => exact Option.some.inj hs ▸ h.finish hre hq
    next => simp at hs

end Step

/-- Every request is completed once, and not touched afterwards. -/
theorem run_exactlyOnce {max : ℕ} {l : List (State × Act)} {s : State} (h : MatchRun max l s)
    (hl : ∀ x ∈ l, Harmless x.1 x.2) : ExactlyOnce s := by
  have hinv := h.invariant (inv_init max) (fun _ _ _ hi ha => hi.step ha) hl
  exact hinv.exactlyOnce

def get (tid mgmtClass : ℕ) : Madw := ⟨tid, mgmtClass, 0x01, 0x11, 0⟩

/-- The older request is given up for the third one, and answered in vain. -/
def evictedInTurn : List Act :=
  [.put (get 1 subnDir), .send (get 1 subnDir) true, .put (get 2 subnLid), .send (get 2 subnLid) true,
    .put (get 3 subnDir), .send (get 3 subnDir) false, .recv (get 1 subnDir) (.answer 0x11 0), .lookup,
    .remove (get 3 subnDir), .sendErr (get 3 subnDir), .recv (get 2 subnLid) .timeout, .lookup, .finish]

theorem run_exactlyOnce_evicted :
    ∃ l s, MatchRun 2 l s ∧ s.completed = [get 2 subnLid, get 3 subnDir, get 1 subnDir] ∧ ExactlyOnce s := by
  obtain ⟨l, s, hrun, hend, hl⟩ := Run.of_exec step (init 2) evictedInTurn
    (fun s => decide (s.completed = [get 2 subnLid, get 3 subnDir, get 1 subnDir]))
    (fun x => decide (Harmless x.1 x.2)) rfl rfl
  exact ⟨l, s, hrun, by simpa using hend, run_exactlyOnce hrun (fun x hx => by simpa using hl x hx)⟩

/-- An SMP given the place of the other SMP while the callback is called for the GS request, which stays in the
table. -/
def wrongPlace : List Act :=
  [.put (get 1 subnAdm), .send (get 1 subnAdm) true, .put (get 2 subnDir), .send (get 2 subnDir) true,
    .put (get 3 subnDir), .send (get 3 subnDir) true]

theorem wrongPlace_loses : ∃ l s, MatchRun 2 l s ∧ ¬ExactlyOnce s := by
  obtain ⟨l, s, hrun, hend, -⟩ := Run.of_exec step (init 2) wrongPlace
    (fun s => decide (get 1 subnAdm ∈ reqs s.tbl ∧ get 1 subnAdm ∈ s.completed)) (fun _ => true) rfl rfl
  refine ⟨l, s, hrun, fun h => ?_⟩
  simp only [decide_eq_true_eq] at hend
  exact ((h.table _).mp hend.1).2.1 hend.2

/-- An answer with another modifier is dropped after its request has left the table. -/
example : ∃ l s, MatchRun 2 l s ∧ ¬ExactlyOnce s := by
  obtain ⟨l, s, hrun, hend, -⟩ := Run.of_exec step (init 2)
    [.put (get 1 subnDir), .send (get 1 subnDir) true, .recv (get 1 subnDir) (.answer 0x11 1), .lookup, .finish]
    (fun s => decide (get 1 subnDir ∉ reqs s.tbl ∧ get 1 subnDir ∈ s.entered ∧ get 1 subnDir ∉ s.completed ∧
      s.pc (get 1 subnDir) = .out ∧ s.receiver = .idle)) (fun _ => true) rfl rfl
  refine ⟨l, s, hrun, fun h => ?_⟩
  simp only [decide_eq_true_eq] at hend
  refine hend.1 ((h.table _).mpr ⟨hend.2.1, hend.2.2.1, ?_⟩)
  simp [State.InHand, hend.2.2.2]

/-- A GS request finds no place in a table full of SMPs. -/
example : ∃ l s, MatchRun 1 l s ∧ ¬ExactlyOnce s := by
  obtain ⟨l, s, hrun, hend, -⟩ := Run.of_exec step (init 1)
    [.put (get 1 subnDir), .send (get 1 subnDir) true, .put (get 2 subnAdm)] (·.crashed) (fun _ => true) rfl rfl
  exact ⟨l, s, hrun, fun h => Bool.false_ne_true (h.alive.symm.trans hend)⟩

/-- The thread whose request is given up goes on with it. -/
example : ∃ l s, MatchRun 1 l s ∧ ¬ExactlyOnce s := by
  obtain ⟨l, s, hrun, hend, -⟩ := Run.of_exec step (init 1)
    [.put (get 1 subnDir), .put (get 2 subnDir), .send (get 1 subnDir) true] (fun s => decide (s.late ≠ []))
    (fun _ => true) rfl rfl
  exact ⟨l, s, hrun, fun h => of_decide_eq_true hend h.untouched⟩

end OpenSM.MatchTbl
