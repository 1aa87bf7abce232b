import Mathlib

/-! `osm_service.c` and `osm_sa_service_record.c`: the service records of the SA and how their leases run down. -/

namespace OpenSM.ServiceRecord

structure Gid where
  subnetPrefix : UInt64
  interfaceId : UInt64
deriving DecidableEq

def Gid.isMulticast (g : Gid) : Bool := g.subnetPrefix >>> 56 == 0xFF

/-- The leading members of a record, which `match_rid_of_svc_rec` compares. -/
structure Rid where
  serviceId : UInt64
  serviceGid : Gid
  servicePkey : UInt16
deriving DecidableEq

structure Record where
  rid : Rid
  serviceLease : UInt32
deriving DecidableEq

/-- `osm_svcr_t`. -/
structure Svcr where
  serviceRecord : Record
  modifiedTime : UInt32
  leasePeriod : UInt32
deriving DecidableEq

def Svcr.rid (x : Svcr) : Rid := x.serviceRecord.rid

def infiniteLease : UInt32 := 0xFFFFFFFF

def Svcr.isInfinite (x : Svcr) : Bool := x.serviceRecord.serviceLease == infiniteLease

def svcrInit (now : UInt32) (r : Record) : Svcr := ⟨r, now, r.serviceLease⟩

/-- `sa_sr_list`. A record is inserted only if there is none with its RID. -/
structure Db where
  srList : List Svcr
  distinct : (srList.map Svcr.rid).Nodup

def Db.getByRid (db : Db) (rid : Rid) : Option Svcr := db.srList.find? fun x => x.rid = rid

lemma getByRid_eq_none {db : Db} {rid : Rid} : db.getByRid rid = none ↔ rid ∉ db.srList.map Svcr.rid := by
  rw [Db.getByRid, List.find?_eq_none, List.mem_map, not_exists]
  exact ⟨fun h x hx => h x hx.1 (decide_eq_true hx.2), fun h x hx heq => h x ⟨hx, of_decide_eq_true heq⟩⟩

def Db.insert (db : Db) (x : Svcr) (h : db.getByRid x.rid = none) : Db where
  srList := x :: db.srList
  distinct := List.nodup_cons.mpr ⟨getByRid_eq_none.mp h, db.distinct⟩

def Db.modify (db : Db) (rid : Rid) (f : Svcr → Svcr) (hf : ∀ x, x.rid = rid → (f x).rid = rid) : Db where
  srList := db.srList.map fun x => if x.rid = rid then f x else x
  distinct := by
    have hrid : Svcr.rid ∘ (fun x => if x.rid = rid then f x else x) = Svcr.rid := by
      funext x
      rw [Function.comp_apply]
      split_ifs with hx
      · rw [hf x hx, hx]
      · rfl
    rw [List.map_map, hrid]
    exact db.distinct

def Db.remove (db : Db) (rid : Rid) : Db where
  srList := db.srList.filter fun x => x.rid ≠ rid
  distinct := db.distinct.sublist (List.filter_sublist.map _)

/-- The database, and how often the clock has been read. -/
structure Sa where
  db : Db
  reads : ℕ

section Requests

structure CompMask where
  sid : Bool
  sgid : Bool
  spkey : Bool
  slease : Bool

structure Request (P : Type*) where
  compMask : CompMask
  serviceRec : Record
  /-- The physical port with the address that the request comes from. -/
  requester : Option P
  /-- Whether there is memory for a new record, and for the response. -/
  mallocSvcr : Bool
  mallocResp : Bool

structure Ports (P : Type*) where
  byAliasGuid : UInt64 → Option P
  hasPkey : UInt16 → P → Bool

inductive Status where
  | reqInvalid | noResources | noRecords
deriving DecidableEq

variable {P : Type*} (ports : Ports P) (clock : ℕ → UInt32)

def Request.rid (q : Request P) : Rid := q.serviceRec.rid

def validateSr (q : Request P) : Bool :=
  match q.requester with
  | none => false
  | some p =>
    if q.compMask.spkey then
      if ports.hasPkey q.rid.servicePkey p then
        if q.compMask.sgid && !q.rid.serviceGid.isMulticast then
          match ports.byAliasGuid q.rid.serviceGid.interfaceId with
          | none => false
          | some servicePort => ports.hasPkey q.rid.servicePkey servicePort
        else true
      else false
    else true

def Request.record (q : Request P) : Record :=
  if q.compMask.slease then q.serviceRec else { q.serviceRec with serviceLease := infiniteLease }

lemma record_rid (q : Request P) : q.record.rid = q.rid := by
  rw [Request.record]
  split_ifs <;> rfl

def defaultPkey : UInt16 := 0xFFFF

def Request.response (q : Request P) : Except Status Record :=
  if q.mallocResp then
    .ok (if q.compMask.spkey then q.record
      else { q.record with rid := { q.record.rid with servicePkey := defaultPkey } })
  else .error .noResources

/-- The end of `sr_rcv_process_set_method`, where a finite lease is stamped a second time. -/
def stampLease (s : Sa) (q : Request P) : Sa :=
  if q.record.serviceLease ≠ infiniteLease then
    ⟨s.db.modify q.rid (fun x => { x with modifiedTime := clock s.reads }) fun _ hx => hx, s.reads + 1⟩
  else s

def setMethod (s : Sa) (q : Request P) : Sa × Except Status Record :=
  if q.compMask.sid && q.compMask.sgid then
    let x := svcrInit (clock s.reads) q.record
    if h : s.db.getByRid x.rid = none then
      if q.mallocSvcr then (stampLease clock ⟨s.db.insert x h, s.reads + 1⟩ q, q.response)
      else (s, .error .noResources)
    else (stampLease clock ⟨s.db.modify x.rid (fun _ => x) fun _ _ => rfl, s.reads + 1⟩ q, q.response)
  else (s, .error .reqInvalid)

def deleteMethod (s : Sa) (q : Request P) : Sa × Except Status Record :=
  match s.db.getByRid q.rid with
  | none => (s, .error .noRecords)
  | some x =>
    ({ s with db := s.db.remove q.rid }, if q.mallocResp then .ok x.serviceRecord else .error .noResources)

/-- `osm_sr_rcv_process`. -/
def rcvSet (s : Sa) (q : Request P) : Sa × Except Status Record :=
  if validateSr ports q then setMethod clock s q else (s, .error .reqInvalid)

def rcvDelete (s : Sa) (q : Request P) : Sa × Except Status Record :=
  if validateSr ports q then deleteMethod s q else (s, .error .reqInvalid)

end Requests

section Callback

variable (clock : ℕ → UInt32)

def elapsedTime (currTime : UInt32) (x : Svcr) : UInt32 :=
  if currTime - x.modifiedTime < 1 then 1 else currTime - x.modifiedTime

def leaseItem (currTime : UInt32) (x : Svcr) : Option Svcr :=
  if elapsedTime currTime x < x.leasePeriod then
    some { x with leasePeriod := x.leasePeriod - elapsedTime currTime x, modifiedTime := currTime }
  else none

def trimTime (trim : UInt32) (x : Svcr) : UInt32 :=
  if x.leasePeriod < trim then if x.leasePeriod < 1 then 1 else x.leasePeriod else trim

/-- The loop of `osm_sr_rcv_lease_cb`: the records it keeps, the readings of the clock so far, and the trim
time. -/
def leaseLoop : List Svcr → ℕ → UInt32 → List Svcr × ℕ × UInt32
  | [], reads, trim => ([], reads, trim)
  | x :: l, reads, trim =>
    if x.isInfinite then (leaseLoop l reads trim).map (x :: ·) id
    else
      match leaseItem (clock reads) x with
      | some y => (leaseLoop l (reads + 1) (trimTime trim y)).map (y :: ·) id
      | none => leaseLoop l (reads + 1) trim

lemma leaseItem_rid {now : UInt32} {x y : Svcr} (h : leaseItem now x = some y) : y.rid = x.rid := by
  rw [leaseItem] at h
  split_ifs at h
  exact Option.some.inj h ▸ rfl

lemma leaseLoop_sublist (l : List Svcr) (reads : ℕ) (trim : UInt32) :
    ((leaseLoop clock l reads trim).1.map Svcr.rid).Sublist (l.map Svcr.rid) := by
  induction l generalizing reads trim with
  | nil => exact List.Sublist.refl _
  | cons x l ih =>
    rw [leaseLoop]
    split_ifs with hx
    · exact (ih reads trim).cons_cons _
    · split
      next y hy =>
        rw [Prod.map_fst, List.map_cons, leaseItem_rid hy]
        exact (ih _ _).cons_cons _
      next => exact (ih _ _).cons _

def place (l : List Svcr) (rid : Rid) : ℕ := (l.takeWhile fun x => x.rid ≠ rid).countP fun x => !x.isInfinite

/-- The second component is the number of seconds after which the timer fires again. -/
def leaseCb (s : Sa) : Sa × UInt32 :=
  let r := leaseLoop clock s.db.srList s.reads 20
  (⟨⟨r.1, s.db.distinct.sublist (leaseLoop_sublist clock _ _ _)⟩, r.2.1⟩, r.2.2)

end Callback

section Run

variable {P : Type*} (ports : Ports P) (clock : ℕ → UInt32)

inductive Op (P : Type*) where
  | set (q : Request P)
  | delete (q : Request P)
  | leaseCb

def step (s : Sa) : Op P → Sa
  | .set q => (rcvSet ports clock s q).1
  | .delete q => (rcvDelete ports s q).1
  | .leaseCb => (leaseCb clock s).1

def run (s : Sa) (ops : List (Op P)) : Sa := ops.foldl (step ports clock) s

def Accepted (s : Sa) (q : Request P) : Prop :=
  validateSr ports q ∧ q.compMask.sid ∧ q.compMask.sgid ∧ (s.db.getByRid q.rid = none → q.mallocSvcr)

def Touches (s : Sa) (rid : Rid) : Op P → Prop
  | .set q => q.rid = rid ∧ Accepted ports s q
  | .delete q => q.rid = rid ∧ validateSr ports q
  | .leaseCb => False

def reading (s : Sa) (rid : Rid) : UInt32 := clock (s.reads + place s.db.srList rid)

def again (s : Sa) (rid : Rid) : ℕ :=
  if (s.db.getByRid rid).map Svcr.modifiedTime = some (reading clock s rid) then 1 else 0

/-- After `hist` the record is there, set last at `t` for `lease` seconds. Since then `k` callbacks have read
the second of its stamp again. -/
inductive OnLease (s : Sa) (rid : Rid) : List (Op P) → ℕ → ℕ → ℕ → Prop where
  | set {hist q} (hrid : q.rid = rid) (h : Accepted ports (run ports clock s hist) q)
      (hfinite : q.record.serviceLease ≠ infiniteLease) :
      OnLease s rid (hist ++ [.set q]) (clock ((run ports clock s hist).reads + 1)).toNat
          q.record.serviceLease.toNat 0
  | request {hist op t lease k} (h : OnLease s rid hist t lease k) (hop : op ≠ .leaseCb)
      (hrid : ¬Touches ports (run ports clock s hist) rid op) : OnLease s rid (hist ++ [op]) t lease k
  | leaseCb {hist t lease k} (h : OnLease s rid hist t lease k)
      (hin : (run ports clock s (hist ++ [.leaseCb])).db.getByRid rid ≠ none) :
      OnLease s rid (hist ++ [.leaseCb]) t lease (k + again clock (run ports clock s hist) rid)

/-- Every callback removes the records whose lease is over and no others. -/
def LeasesKept (s : Sa) (ops : List (Op P)) : Prop :=
  ∀ hist rid t lease k, hist ++ [.leaseCb] <+: ops → OnLease ports clock s rid hist t lease k →
    ((run ports clock s (hist ++ [.leaseCb])).db.getByRid rid = none ↔
      t + lease ≤ (reading clock (run ports clock s hist) rid).toNat)

/-- No callback comes in the last seconds of a lease, as many as callbacks have read the second of the stamp
again. -/
def Unhurried (s : Sa) (ops : List (Op P)) : Prop :=
  ∀ hist rid t lease k, hist ++ [.leaseCb] <+: ops → OnLease ports clock s rid hist t lease k →
    (reading clock (run ports clock s hist) rid).toNat < t + lease →
      (reading clock (run ports clock s hist) rid).toNat +
          (k + again clock (run ports clock s hist) rid) < t + lease

end Run

section Item

variable {clock : ℕ → UInt32} {now : UInt32} {x y : Svcr} {l : List Svcr}

lemma elapsedTime_toNat (hle : x.modifiedTime ≤ now) : (elapsedTime now x).toNat =
    now.toNat - x.modifiedTime.toNat + if x.modifiedTime = now then 1 else 0 := by
  have hsub : (now - x.modifiedTime).toNat = now.toNat - x.modifiedTime.toNat := UInt32.toNat_sub_of_le _ _ hle
  have hone : now - x.modifiedTime < 1 ↔ x.modifiedTime = now := by
    rw [UInt32.le_iff_toNat_le] at hle
    rw [UInt32.lt_iff_toNat_lt, hsub, UInt32.toNat_one, ← UInt32.toNat_inj]
    omega
  rw [elapsedTime]
  split_ifs with hlt heq heq
  · rw [heq, UInt32.toNat_one]
    omega
  · exact absurd (hone.mp hlt) heq
  · exact absurd (hone.mpr heq) hlt
  · exact hsub

lemma leaseItem_eq_none (hle : x.modifiedTime ≤ now) : leaseItem now x = none ↔
    x.modifiedTime.toNat + x.leasePeriod.toNat ≤ now.toNat + if x.modifiedTime = now then 1 else 0 := by
  have helapsed := elapsedTime_toNat hle
  rw [UInt32.le_iff_toNat_le] at hle
  rw [leaseItem, ite_eq_right_iff, UInt32.lt_iff_toNat_lt, helapsed]
  constructor
  · intro h
    by_contra hlt
    cases h (by omega)
  · intro h hlt
    omega

lemma leaseItem_eq_some (hle : x.modifiedTime ≤ now) (h : leaseItem now x = some y) :
    y.serviceRecord = x.serviceRecord ∧ y.modifiedTime = now ∧
      y.modifiedTime.toNat + y.leasePeriod.toNat + (if x.modifiedTime = now then 1 else 0) =
        x.modifiedTime.toNat + x.leasePeriod.toNat := by
  have helapsed := elapsedTime_toNat hle
  rw [UInt32.le_iff_toNat_le] at hle
  rw [leaseItem] at h
  split_ifs at h with hlt
  obtain rfl := Option.some.inj h
  refine ⟨rfl, rfl, ?_⟩
  rw [UInt32.toNat_sub_of_le _ _ (UInt32.le_of_lt hlt), helapsed]
  rw [UInt32.lt_iff_toNat_lt, helapsed] at hlt
  dsimp only
  omega

lemma place_cons (x : Svcr) (l : List Svcr) (rid : Rid) :
    place (x :: l) rid = if x.rid = rid then 0 else place l rid + if x.isInfinite then 0 else 1 := by
  rw [place, List.takeWhile_cons]
  by_cases h : x.rid = rid
  · simp [h]
  · cases hx : x.isInfinite <;> simp [h, hx, place]

lemma le_leaseLoop (l : List Svcr) (reads : ℕ) (trim : UInt32) : reads ≤ (leaseLoop clock l reads trim).2.1 := by
  induction l generalizing reads trim with
  | nil => exact le_rfl
  | cons x l ih =>
    rw [leaseLoop]
    split_ifs with hx
    · exact ih reads trim
    · split
      next y hy => exact (Nat.le_succ reads).trans (ih _ _)
      next => exact (Nat.le_succ reads).trans (ih _ _)

lemma find_eq_none {rid : Rid} (h : rid ∉ l.map Svcr.rid) : l.find? (fun x => x.rid = rid) = none := by
  rw [List.find?_eq_none]
  exact fun x hx heq => h (List.mem_map.mpr ⟨x, hx, of_decide_eq_true heq⟩)

/-- The loop does to the record with a RID what `leaseItem` does at its reading. -/
lemma leaseLoop_find {rid : Rid} (hnodup : (l.map Svcr.rid).Nodup) (reads : ℕ) (trim : UInt32)
    (hx : l.find? (fun z => z.rid = rid) = some x) (hfinite : x.isInfinite = false) :
    (leaseLoop clock l reads trim).1.find? (fun z => z.rid = rid) = leaseItem (clock (reads + place l rid)) x ∧
      reads + place l rid < (leaseLoop clock l reads trim).2.1 := by
  induction l generalizing reads trim with
  | nil => cases hx
  | cons z l ih =>
    obtain ⟨hz, hnodup⟩ := List.nodup_cons.mp hnodup
    rw [List.find?_cons] at hx
    rw [leaseLoop, place_cons]
    by_cases hrid : z.rid = rid
    · rw [decide_eq_true hrid] at hx
      obtain rfl := Option.some.inj hx
      rw [hfinite, if_neg Bool.false_ne_true, if_pos hrid, Nat.add_zero]
      cases hitem : leaseItem (clock reads) z with
      | none =>
        refine ⟨find_eq_none fun hmem => hz ?_, le_leaseLoop l _ _⟩
        exact hrid ▸ (leaseLoop_sublist clock l _ _).subset hmem
      | some y =>
        have hy : y.rid = rid := (leaseItem_rid hitem).trans hrid
        exact ⟨List.find?_cons_of_pos (decide_eq_true hy), le_leaseLoop l _ _⟩
    · rw [decide_eq_false hrid] at hx
      rw [if_neg hrid]
      cases hz' : z.isInfinite with
      | true =>
        rw [if_pos rfl, if_pos rfl, Nat.add_zero]
        obtain ⟨hfind, hlt⟩ := ih hnodup reads trim hx
        exact ⟨(List.find?_cons_of_neg (Bool.not_eq_true _ ▸ decide_eq_false hrid)).trans hfind, hlt⟩
      | false =>
        rw [if_neg Bool.false_ne_true, if_neg Bool.false_ne_true, Nat.add_comm (place l rid), ← Nat.add_assoc]
        cases hitem : leaseItem (clock reads) z with
        | none => exact ih hnodup _ _ hx
        | some y =>
          have hy : ¬y.rid = rid := fun heq => hrid ((leaseItem_rid hitem).symm.trans heq)
          obtain ⟨hfind, hlt⟩ := ih hnodup (reads + 1) (trimTime trim y) hx
          exact ⟨(List.find?_cons_of_neg (Bool.not_eq_true _ ▸ decide_eq_false hy)).trans hfind, hlt⟩

end Item

section Lookup

variable {db : Db} {rid rid' : Rid} {x : Svcr}

lemma getByRid_rid (h : db.getByRid rid = some x) : x.rid = rid := by
  have hx := List.find?_some h
  exact of_decide_eq_true hx

lemma getByRid_insert (h : db.getByRid x.rid = none) : (db.insert x h).getByRid x.rid = some x :=
  List.find?_cons_of_pos (decide_eq_true rfl)

lemma getByRid_insert_of_ne (h : db.getByRid x.rid = none) (hne : x.rid ≠ rid) :
    (db.insert x h).getByRid rid = db.getByRid rid :=
  List.find?_cons_of_neg (Bool.not_eq_true _ ▸ decide_eq_false hne)

lemma getByRid_modify_map (db : Db) (rid rid' : Rid) (f : Svcr → Svcr) (hf) :
    (db.modify rid f hf).getByRid rid' = (db.getByRid rid').map fun x => if x.rid = rid then f x else x := by
  have hrid : (fun x => decide (Svcr.rid x = rid')) ∘ (fun x => if x.rid = rid then f x else x) =
      fun x => decide (x.rid = rid') := by
    funext x
    rw [Function.comp_apply]
    split_ifs with hx
    · rw [hf x hx, hx]
    · rfl
  rw [Db.getByRid, Db.modify, List.find?_map, hrid]
  rfl

lemma getByRid_modify (f : Svcr → Svcr) (hf) (h : db.getByRid rid = some x) :
    (db.modify rid f hf).getByRid rid = some (f x) := by
  rw [getByRid_modify_map, h, Option.map_some, if_pos (getByRid_rid h)]

lemma getByRid_modify_of_ne (f : Svcr → Svcr) (hf) (hne : rid ≠ rid') :
    (db.modify rid f hf).getByRid rid' = db.getByRid rid' := by
  rw [getByRid_modify_map]
  cases h : db.getByRid rid' with
  | none => rfl
  | some x => rw [Option.map_some, if_neg fun heq => hne (heq.symm.trans (getByRid_rid h))]

lemma getByRid_remove_of_ne (hne : rid ≠ rid') : (db.remove rid).getByRid rid' = db.getByRid rid' := by
  rw [Db.getByRid, Db.remove, List.find?_filter, Db.getByRid]
  congr 1
  funext x
  by_cases hx : x.rid = rid'
  · simp [hx, hne.symm]
  · simp [hx]

end Lookup

section Leases

variable {P : Type*} {ports : Ports P} {clock : ℕ → UInt32} {s : Sa} {rid : Rid} {q : Request P} {op : Op P}

structure Held (clock : ℕ → UInt32) (s : Sa) (rid : Rid) (t lease k : ℕ) (x : Svcr) : Prop where
  found : s.db.getByRid rid = some x
  finite : x.isInfinite = false
  remaining : x.modifiedTime.toNat + x.leasePeriod.toNat + k = t + lease
  stamped : ∃ i < s.reads, x.modifiedTime = clock i

variable {t lease k : ℕ} {x : Svcr}

lemma stampLease_of_ne (s : Sa) (q : Request P) (hne : q.rid ≠ rid) :
    (stampLease clock s q).db.getByRid rid = s.db.getByRid rid ∧ s.reads ≤ (stampLease clock s q).reads := by
  rw [stampLease]
  split_ifs
  · exact ⟨getByRid_modify_of_ne (fun x => { x with modifiedTime := clock s.reads }) (fun _ hx => hx) hne,
        Nat.le_succ _⟩
  · exact ⟨rfl, le_rfl⟩

/-- What a Set request does. -/
lemma rcvSet_cases (s : Sa) (q : Request P) :
    (¬Accepted ports s q ∧ (rcvSet ports clock s q).1 = s) ∨
      (Accepted ports s q ∧ ∃ db : Db, (rcvSet ports clock s q).1 = stampLease clock ⟨db, s.reads + 1⟩ q ∧
        db.getByRid q.rid = some (svcrInit (clock s.reads) q.record) ∧
        ∀ rid, q.rid ≠ rid → db.getByRid rid = s.db.getByRid rid) := by
  have hx : (svcrInit (clock s.reads) q.record).rid = q.rid := record_rid q
  rw [rcvSet]
  by_cases hvalid : validateSr ports q = true
  · rw [if_pos hvalid, setMethod]
    by_cases hmask : (q.compMask.sid && q.compMask.sgid) = true
    · rw [if_pos hmask]
      obtain ⟨hsid, hsgid⟩ := Bool.and_eq_true_iff.mp hmask
      dsimp only
      by_cases hnone : s.db.getByRid (svcrInit (clock s.reads) q.record).rid = none
      · rw [dif_pos hnone]
        by_cases hmalloc : q.mallocSvcr = true
        · rw [if_pos hmalloc]
          refine .inr ⟨⟨hvalid, hsid, hsgid, fun _ => hmalloc⟩, _, rfl, hx ▸ getByRid_insert hnone,
              fun rid hne => ?_⟩
          exact getByRid_insert_of_ne hnone (hx.symm ▸ hne)
        · rw [if_neg hmalloc]
          exact .inl ⟨fun h => hmalloc (h.2.2.2 (hx ▸ hnone)), rfl⟩
      · rw [dif_neg hnone]
        obtain ⟨y, hy⟩ := Option.ne_none_iff_exists'.mp hnone
        refine .inr ⟨⟨hvalid, hsid, hsgid, fun h => absurd (hx.symm ▸ h) hnone⟩, _, rfl, ?_, fun rid hne => ?_⟩
        · exact hx ▸ getByRid_modify (fun _ => svcrInit (clock s.reads) q.record) (fun _ _ => rfl) hy
        · exact getByRid_modify_of_ne (fun _ => svcrInit (clock s.reads) q.record) (fun _ _ => rfl) (hx.symm ▸ hne)
    · rw [if_neg hmask]
      exact .inl ⟨fun h => hmask (Bool.and_eq_true_iff.mpr ⟨h.2.1, h.2.2.1⟩), rfl⟩
  · rw [if_neg hvalid]
    exact .inl ⟨fun h => hvalid h.1, rfl⟩

lemma step_request (hop : op ≠ .leaseCb) (hrid : ¬Touches ports s rid op) :
    (step ports clock s op).db.getByRid rid = s.db.getByRid rid ∧ s.reads ≤ (step ports clock s op).reads := by
  cases op with
  | leaseCb => exact absurd rfl hop
  | delete q =>
    rw [step, rcvDelete]
    split_ifs with hvalid
    · have hne : q.rid ≠ rid := fun heq => hrid ⟨heq, hvalid⟩
      rw [deleteMethod]
      split
      · exact ⟨rfl, le_rfl⟩
      · exact ⟨getByRid_remove_of_ne hne, le_rfl⟩
    · exact ⟨rfl, le_rfl⟩
  | set q =>
    rw [step]
    rcases rcvSet_cases s q with ⟨-, hsame⟩ | ⟨hacc, db, hset, -, hother⟩
    · rw [hsame]
      exact ⟨rfl, le_rfl⟩
    · have hne : q.rid ≠ rid := fun heq => hrid ⟨heq, hacc⟩
      rw [hset]
      obtain ⟨hsame, hle⟩ := stampLease_of_ne ⟨db, s.reads + 1⟩ q hne
      exact ⟨hsame.trans (hother rid hne), (Nat.le_succ _).trans hle⟩

lemma step_set (h : Accepted ports s q) (hfinite : q.record.serviceLease ≠ infiniteLease) :
    Held clock (step ports clock s (.set q)) q.rid (clock (s.reads + 1)).toNat q.record.serviceLease.toNat 0
      ⟨q.record, clock (s.reads + 1), q.record.serviceLease⟩ := by
  rw [step]
  rcases rcvSet_cases s q with ⟨hno, -⟩ | ⟨-, db, hset, hfound, -⟩
  · exact absurd h hno
  · rw [hset, stampLease, if_pos hfinite]
    exact ⟨getByRid_modify (fun x => { x with modifiedTime := clock (s.reads + 1) }) (fun _ hx => hx) hfound,
      beq_eq_false_iff_ne.mpr hfinite, rfl, s.reads + 1, Nat.lt_succ_self _, rfl⟩

lemma Held.leaseCb (hclock : ∀ i j, i ≤ j → clock i ≤ clock j) (h : Held clock s rid t lease k x) :
    ((leaseCb clock s).1.db.getByRid rid = none ↔
      t + lease ≤ (reading clock s rid).toNat + (k + again clock s rid)) ∧
    ∀ y, (ServiceRecord.leaseCb clock s).1.db.getByRid rid = some y →
      Held clock (ServiceRecord.leaseCb clock s).1 rid t lease (k + again clock s rid) y := by
  obtain ⟨i, hi, hstamp⟩ := h.stamped
  have hle : x.modifiedTime ≤ reading clock s rid := hstamp ▸ hclock i _ (hi.le.trans (Nat.le_add_right _ _))
  have hagain : again clock s rid = if x.modifiedTime = reading clock s rid then 1 else 0 := by
    rw [again, h.found, Option.map_some]
    exact if_congr Option.some_inj rfl rfl
  have hremaining := h.remaining
  obtain ⟨hcb, hreads⟩ : (ServiceRecord.leaseCb clock s).1.db.getByRid rid = leaseItem (reading clock s rid) x ∧
      _ :=
    leaseLoop_find s.db.distinct s.reads 20 h.found h.finite
  rw [hcb, hagain]
  constructor
  · rw [leaseItem_eq_none hle]
    omega
  · intro y hy
    obtain ⟨hrecord, htime, hsum⟩ := leaseItem_eq_some hle hy
    refine ⟨hcb.trans hy, ?_, by omega, _, hreads, htime⟩
    rw [Svcr.isInfinite, hrecord]
    exact h.finite

variable {hist ops : List (Op P)}

lemma run_concat (s : Sa) (hist : List (Op P)) (op : Op P) :
    run ports clock s (hist ++ [op]) = step ports clock (run ports clock s hist) op := by
  rw [run, List.foldl_concat, run]

lemma OnLease.held (hclock : ∀ i j, i ≤ j → clock i ≤ clock j) (h : OnLease ports clock s rid hist t lease k) :
    ∃ x, Held clock (run ports clock s hist) rid t lease k x := by
  induction h with
  | set hrid h hfinite =>
    rw [run_concat, ← hrid]
    exact ⟨_, step_set h hfinite⟩
  | request _ hop hrid ih =>
    obtain ⟨x, hx⟩ := ih
    obtain ⟨i, hi, hstamp⟩ := hx.stamped
    rw [run_concat]
    obtain ⟨hsame, hle⟩ := step_request hop hrid
    exact ⟨x, hsame.trans hx.found, hx.finite, hx.remaining, i, hi.trans_le hle, hstamp⟩
  | leaseCb _ hin ih =>
    obtain ⟨x, hx⟩ := ih
    rw [run_concat] at hin ⊢
    obtain ⟨y, hy⟩ := Option.ne_none_iff_exists'.mp hin
    exact ⟨y, (hx.leaseCb hclock).2 y hy⟩

lemma OnLease.removed_iff (hclock : ∀ i j, i ≤ j → clock i ≤ clock j)
    (h : OnLease ports clock s rid hist t lease k) :
    (run ports clock s (hist ++ [.leaseCb])).db.getByRid rid = none ↔
      t + lease ≤ (reading clock (run ports clock s hist) rid).toNat +
        (k + again clock (run ports clock s hist) rid) := by
  obtain ⟨x, hx⟩ := h.held hclock
  rw [run_concat]
  exact (hx.leaseCb hclock).1

end Leases

section Results

variable {P : Type*}

/-- No lease is overrun. Leases are not cut short as long as no callback comes in their last seconds, as many as
callbacks have read the second of the record's stamp again. -/
theorem leases_kept_iff (ports : Ports P) {clock : ℕ → UInt32} (hclock : ∀ i j, i ≤ j → clock i ≤ clock j) (s : Sa)
    (ops : List (Op P)) :
    (∀ hist rid t lease k, OnLease ports clock s rid hist t lease k →
      t + lease ≤ (reading clock (run ports clock s hist) rid).toNat →
        (run ports clock s (hist ++ [.leaseCb])).db.getByRid rid = none) ∧
    (LeasesKept ports clock s ops ↔ Unhurried ports clock s ops) := by
  refine ⟨fun hist rid t lease k hlease hle => ?_, fun hkept hist rid t lease k hpre hlease hlt => ?_,
    fun hun hist rid t lease k hpre hlease => ?_⟩
  · rw [hlease.removed_iff hclock]
    omega
  · have hremoved := hlease.removed_iff hclock
    rw [hkept hist rid t lease k hpre hlease] at hremoved
    omega
  · rw [hlease.removed_iff hclock]
    have hlt := hun hist rid t lease k hpre hlease
    omega

lemma unhurried_of_again {ports : Ports P} {clock : ℕ → UInt32} {s : Sa} {ops : List (Op P)}
    (h : ∀ hist rid, hist ++ [.leaseCb] <+: ops → again clock (run ports clock s hist) rid = 0) :
    Unhurried ports clock s ops := by
  have hzero : ∀ {hist rid t lease k}, OnLease ports clock s rid hist t lease k → hist <+: ops → k = 0 := by
    intro hist rid t lease k hlease
    induction hlease with
    | set => exact fun _ => rfl
    | request _ _ _ ih => exact fun hpre => ih ((List.prefix_append _ _).trans hpre)
    | leaseCb _ _ ih =>
      intro hpre
      rw [ih ((List.prefix_append _ _).trans hpre), h _ _ hpre]
  intro hist rid t lease k hpre hlease hlt
  rw [hzero hlease ((List.prefix_append _ _).trans hpre), h hist rid hpre]
  exact hlt

def onePort : Ports Unit := ⟨fun _ => none, fun _ _ => true⟩

def request (lease : UInt32) : Request Unit :=
  ⟨⟨true, true, false, true⟩, ⟨⟨1, ⟨0, 1⟩, 0⟩, lease⟩, some (), true, true⟩

def laterClock (i : ℕ) : UInt32 := if i < 2 then 0 else 5

def empty : Sa := ⟨⟨[], List.nodup_nil⟩, 0⟩

lemma laterClock_le (i j : ℕ) (hij : i ≤ j) : laterClock i ≤ laterClock j := by
  rw [laterClock, laterClock]
  split_ifs with hi hj
  · decide
  · decide
  · omega
  · decide

theorem leases_kept_later : LeasesKept onePort laterClock empty [.set (request 3), .leaseCb] := by
  refine (leases_kept_iff onePort laterClock_le empty _).2.mpr (unhurried_of_again fun hist rid hpre => ?_)
  obtain rfl : hist = [.set (request 3)] := by
    obtain ⟨post, hpost⟩ := hpre
    rcases hist with - | ⟨op, - | ⟨op', hist⟩⟩
    · cases hpost
    · rw [(List.cons.inj hpost).1]
    · have hlength := congrArg List.length hpost
      simp at hlength
  rw [again, if_neg]
  intro hagain
  obtain ⟨x, hx, hstamp⟩ := Option.map_eq_some_iff.mp hagain
  have hmem : x ∈ [(⟨(request 3).record, 0, 3⟩ : Svcr)] := List.mem_of_find?_eq_some hx
  have hfive : ∀ k, laterClock (2 + k) = 5 := fun k => if_neg (Nat.not_lt.mpr (Nat.le_add_right 2 k))
  rw [List.mem_singleton.mp hmem] at hstamp
  exact absurd (hstamp.trans (hfive _)) (by decide)

/-- A record with a lease of one second is removed in the second of its request. -/
theorem lease_cut_short : ¬LeasesKept onePort (fun _ => 0) empty [.set (request 1), .leaseCb] := by
  intro h
  have hlease : OnLease onePort (fun _ => 0) empty (request 1).rid [.set (request 1)] 0 1 0 :=
    @OnLease.set _ onePort (fun _ => 0) empty _ [] (request 1) rfl ⟨rfl, rfl, rfl, fun _ => rfl⟩ (by decide)
  have hle := (h [.set (request 1)] (request 1).rid 0 1 0 (List.prefix_refl _) hlease).mp rfl
  exact absurd hle (by decide)

end Results

end OpenSM.ServiceRecord
