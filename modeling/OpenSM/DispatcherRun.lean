import OpenSM.Dispatcher

/-! What holds in every state that the dispatcher reaches, as long as the vector of registrations can grow. -/

namespace OpenSM.Dispatcher

open Lib.Runs

variable {w : ℕ}

def Pc.msg : Pc → Option Msg
  | .popped m | .receiving m | .received m | .notifying m | .finished m => some m
  | _ => none

def Pc.running : Pc → Bool
  | .waiting | .blocked => false
  | _ => true

def Msg.refs (m : Msg) (r : ℕ) : ℕ :=
  (if m.dest = r then 1 else 0) + if m.notify ∧ m.src = r then 1 else 0

def Pc.refs (r : ℕ) : Pc → ℕ
  | .popped m | .receiving m => m.refs r
  | .received m | .notifying m => if m.notify ∧ m.src = r then 1 else 0
  | _ => 0

/-- The number of unfinished messages that name a registration, once for each way they name it. -/
def Disp.refs (s : Disp w) (r : ℕ) : ℕ := (s.msgFifo.map fun m => m.refs r).sum + ∑ i, (s.pc i).refs r

structure Delivers (s : Disp w) : Prop where
  order : s.accepted = s.popped ++ s.msgFifo
  once : ∀ m ∈ s.accepted,
    s.log.count (.receive m.seq) = if m ∈ s.msgFifo ∨ ∃ i, s.pc i = .popped m then 0 else 1
  done_after : ∀ l₁ q l₂, s.log = l₁ ++ .done q :: l₂ → .receive q ∈ l₁
  awake : s.msgFifo ≠ [] → (∃ i, (s.pc i).running) ∨ 0 < s.events ∨ 0 < s.signalling
  quiet : (∀ i, s.pc i = .blocked) → s.signalling = 0 → ∀ m ∈ s.accepted, s.log.count (.receive m.seq) = 1
  refCnt : ∀ r info, s.reg r = some info → info.refCnt = s.refs r
  kept : ∀ r, 0 < s.refs r → (s.reg r).isSome
  listed : ∀ r ∈ s.regList, (s.reg r).isSome
  indexed : ∀ k r, s.regVec.get k = some r → (s.reg r).isSome

section Queue

structure Queued (s : Disp w) : Prop where
  order : s.accepted = s.popped ++ s.msgFifo
  seqs : s.accepted.map Msg.seq = List.range s.accepted.length
  held : ∀ i m, (s.pc i).msg = some m → m ∈ s.popped
  holder : ∀ i j m, (s.pc i).msg = some m → (s.pc j).msg = some m → i = j
  once : ∀ m ∈ s.accepted,
    s.log.count (.receive m.seq) = if m ∈ s.msgFifo ∨ ∃ i, s.pc i = .popped m then 0 else 1
  bounded : ∀ q, .receive q ∈ s.log → q < s.accepted.length
  done_after : ∀ l₁ q l₂, s.log = l₁ ++ .done q :: l₂ → .receive q ∈ l₁

variable {s s' : Disp w} {i : Fin w} {c : Pc} {m : Msg}

@[simp] lemma goto_pc (s : Disp w) (i : Fin w) (c : Pc) : (s.goto i c).pc = Function.update s.pc i c := rfl

lemma Queued.congr (h : Queued s) (ha : s'.accepted = s.accepted) (hp : s'.popped = s.popped)
    (hf : s'.msgFifo = s.msgFifo) (hl : s'.log = s.log)
    (hm : ∀ i m, (s'.pc i).msg = some m → (s.pc i).msg = some m)
    (hq : ∀ i m, s'.pc i = .popped m ↔ s.pc i = .popped m) : Queued s' := by
  refine ⟨?_, ?_, ?_, ?_, ?_, ?_, ?_⟩
  · rw [ha, hp, hf]
    exact h.order
  · rw [ha]
    exact h.seqs
  · intro i m hi
    rw [hp]
    exact h.held i m (hm i m hi)
  · intro i j m hi hj
    exact h.holder i j m (hm i m hi) (hm j m hj)
  · rw [ha, hl, hf]
    simp only [hq]
    exact h.once
  · rw [ha, hl]
    exact h.bounded
  · rw [hl]
    exact h.done_after

lemma Queued.goto (h : Queued s) (hm : ∀ m, c.msg = some m → (s.pc i).msg = some m) (hp : ∀ m, s.pc i ≠ .popped m)
    (hc : ∀ m, c ≠ .popped m) : Queued (s.goto i c) := by
  refine h.congr rfl rfl rfl rfl (fun j m hj => ?_) fun j m => ?_
  · rw [goto_pc, Function.update_apply] at hj
    split_ifs at hj with hji
    · exact hji ▸ hm m hj
    · exact hj
  · rw [goto_pc, Function.update_apply]
    split_ifs with hji
    · rw [hji]
      exact iff_of_false (hc m) (hp m)
    · rfl

lemma Queued.goto_idle (h : Queued s) (hi : (s.pc i).msg = none) (hc : c.msg = none) : Queued (s.goto i c) := by
  refine h.goto (fun m hm => ?_) (fun m hm => ?_) fun m hm => ?_
  · rw [hc] at hm
    cases hm
  · rw [hm] at hi
    cases hi
  · rw [hm] at hc
    cases hc

lemma Queued.nodup (h : Queued s) : s.accepted.Nodup := by
  have hnd : (s.accepted.map Msg.seq).Nodup := h.seqs ▸ List.nodup_range
  exact hnd.of_map

lemma Queued.seq_inj (h : Queued s) {m m' : Msg} (hm : m ∈ s.accepted) (hm' : m' ∈ s.accepted)
    (he : m.seq = m'.seq) : m = m' := by
  have hnd : (s.accepted.map Msg.seq).Nodup := h.seqs ▸ List.nodup_range
  exact List.inj_on_of_nodup_map hnd hm hm' he

lemma Queued.mem_accepted (h : Queued s) (hi : (s.pc i).msg = some m) : m ∈ s.accepted := by
  rw [h.order]
  exact List.mem_append_left _ (h.held i m hi)

lemma Queued.notMem_fifo (h : Queued s) (hi : (s.pc i).msg = some m) : m ∉ s.msgFifo := by
  have hnd := h.nodup
  rw [h.order, List.nodup_append] at hnd
  exact fun hm => hnd.2.2 m (h.held i m hi) m hm rfl

lemma Queued.received (h : Queued s) (hi : (s.pc i).msg = some m) (hp : s.pc i ≠ .popped m) :
    .receive m.seq ∈ s.log := by
  have hcount := h.once m (h.mem_accepted hi)
  have hno : ¬∃ j, s.pc j = .popped m := by
    rintro ⟨j, hj⟩
    obtain rfl := h.holder i j m hi (by rw [hj]; rfl)
    exact hp hj
  rw [if_neg (not_or.mpr ⟨h.notMem_fifo hi, hno⟩)] at hcount
  exact List.count_pos_iff.mp (hcount ▸ one_pos)

lemma done_after_append {log : List Event} {e : Event} (h : ∀ l₁ q l₂, log = l₁ ++ .done q :: l₂ → .receive q ∈ l₁)
    (he : ∀ q, e = .done q → .receive q ∈ log) (l₁ : List Event) (q : ℕ) (l₂ : List Event)
    (heq : log ++ [e] = l₁ ++ .done q :: l₂) : .receive q ∈ l₁ := by
  rcases List.eq_nil_or_concat' l₂ with rfl | ⟨l₂, e', rfl⟩
  · obtain ⟨hl, hlast⟩ := List.append_inj' heq rfl
    exact hl ▸ he q (List.singleton_inj.mp hlast)
  · rw [← List.cons_append, ← List.append_assoc] at heq
    exact h l₁ q l₂ (List.append_inj' heq rfl).1

lemma Queued.done (h : Queued s) (hm : .receive m.seq ∈ s.log) :
    Queued { s with log := s.log ++ [.done m.seq] } where
  order := h.order
  seqs := h.seqs
  held := h.held
  holder := h.holder
  once m' hm' := by
    rw [List.count_append, h.once m' hm']
    rfl
  bounded q hq := by
    rw [List.mem_append, List.mem_singleton] at hq
    rcases hq with hq | hq
    · exact h.bounded q hq
    · cases hq
  done_after := by
    refine done_after_append h.done_after fun q he => ?_
    rw [← Event.done.inj he]
    exact hm

lemma Queued.call (h : Queued s) (hi : s.pc i = .popped m) :
    Queued { s with pc := Function.update s.pc i (.receiving m), log := s.log ++ [.receive m.seq] } := by
  have hmsg : (s.pc i).msg = some m := by rw [hi]; rfl
  have hmem := h.mem_accepted hmsg
  have hpc : ∀ j, (Function.update s.pc i (.receiving m) j).msg = (s.pc j).msg := by
    intro j
    rw [Function.update_apply]
    split_ifs with hj
    · rw [hj, hmsg]
      rfl
    · rfl
  refine ⟨h.order, h.seqs, ?_, ?_, ?_, ?_, ?_⟩
  · intro j m' hj
    exact h.held j m' (hpc j ▸ hj)
  · intro j k m' hj hk
    exact h.holder j k m' (hpc j ▸ hj) (hpc k ▸ hk)
  · intro m' hm'
    rw [List.count_append, h.once m' hm', List.count_singleton]
    by_cases he : m' = m
    · subst he
      have hno : ¬∃ j, Function.update s.pc i (.receiving m') j = .popped m' := by
        rintro ⟨j, hj⟩
        obtain rfl := h.holder i j m' hmsg (by rw [← hpc j, hj]; rfl)
        rw [Function.update_self] at hj
        cases hj
      rw [if_pos (.inr ⟨i, hi⟩), if_neg (not_or.mpr ⟨h.notMem_fifo hmsg, hno⟩)]
      simp
    · have hseq : m.seq ≠ m'.seq := fun hs => he (h.seq_inj hmem hm' hs).symm
      have hiff : (∃ j, Function.update s.pc i (.receiving m) j = .popped m') ↔ ∃ j, s.pc j = .popped m' := by
        refine exists_congr fun j => ?_
        rw [Function.update_apply]
        split_ifs with hj
        · subst hj
          rw [hi]
          simp [Ne.symm he]
        · rfl
      simp only [hiff]
      simp [hseq]
  · intro q hq
    rw [List.mem_append, List.mem_singleton] at hq
    rcases hq with hq | hq
    · exact h.bounded q hq
    · obtain rfl := Event.receive.inj hq
      obtain ⟨k, hk, rfl⟩ := List.mem_iff_getElem.mp hmem
      have hs := List.getElem_map Msg.seq (l := s.accepted) (i := k) (h := by simpa using hk)
      simp only [h.seqs, List.getElem_range] at hs
      exact hs ▸ hk
  · refine done_after_append h.done_after fun q he => ?_
    cases he

lemma Queued.pop {rest : List Msg} (h : Queued s) (hf : s.msgFifo = m :: rest)
    (hi : s.pc i = .entered ∨ ∃ m', s.pc i = .finished m') :
    Queued { s with pc := Function.update s.pc i (.popped m), msgFifo := rest, popped := s.popped ++ [m] } := by
  have hnd := h.nodup
  rw [h.order, hf, List.nodup_append] at hnd
  have hnew : m ∉ s.popped := fun hm => hnd.2.2 m hm m List.mem_cons_self rfl
  have hself : ∀ m', s.pc i ≠ .popped m' := by
    intro m' hp
    rcases hi with hi | ⟨m'', hi⟩ <;> rw [hi] at hp <;> cases hp
  refine ⟨?_, h.seqs, ?_, ?_, ?_, h.bounded, h.done_after⟩
  · rw [List.append_assoc, List.singleton_append, ← hf]
    exact h.order
  · intro j m' hj
    dsimp only at hj
    rw [Function.update_apply] at hj
    split_ifs at hj
    · obtain rfl := Option.some.inj hj
      simp
    · exact List.mem_append_left _ (h.held j m' hj)
  · intro j k m' hj hk
    dsimp only at hj hk
    rw [Function.update_apply] at hj hk
    split_ifs at hj hk with hji hki hki
    · rw [hji, hki]
    · obtain rfl := Option.some.inj hj
      exact absurd (h.held k m hk) hnew
    · obtain rfl := Option.some.inj hk
      exact absurd (h.held j m hj) hnew
    · exact h.holder j k m' hj hk
  · intro m' hm'
    have hiff : (m' ∈ rest ∨ ∃ j, Function.update s.pc i (.popped m) j = .popped m') ↔
        m' ∈ s.msgFifo ∨ ∃ j, s.pc j = .popped m' := by
      rw [hf, List.mem_cons]
      constructor
      · rintro (hr | ⟨j, hj⟩)
        · exact .inl (.inr hr)
        · rw [Function.update_apply] at hj
          split_ifs at hj
          · exact .inl (.inl (Pc.popped.inj hj).symm)
          · exact .inr ⟨j, hj⟩
      · rintro ((rfl | hr) | ⟨j, hj⟩)
        · exact .inr ⟨i, by rw [Function.update_self]⟩
        · exact .inl hr
        · refine .inr ⟨j, ?_⟩
          rw [Function.update_of_ne, hj]
          rintro rfl
          exact hself m' hj
    simp only [hiff]
    exact h.once m' hm'

lemma Queued.post (h : Queued s) (hs : m.seq = s.accepted.length) :
    Queued { s with msgFifo := s.msgFifo ++ [m], accepted := s.accepted ++ [m] } := by
  have hnew : m ∉ s.accepted := by
    intro hm
    have hmem := List.mem_map_of_mem (f := Msg.seq) hm
    rw [h.seqs, hs] at hmem
    exact absurd (List.mem_range.mp hmem) (lt_irrefl _)
  refine ⟨?_, ?_, h.held, h.holder, ?_, ?_, h.done_after⟩
  · rw [← List.append_assoc, ← h.order]
  · simp [h.seqs, hs, List.range_succ]
  · intro m' hm'
    rw [List.mem_append, List.mem_singleton] at hm'
    rcases hm' with hm' | rfl
    · have hne : m' ≠ m := fun he => hnew (he ▸ hm')
      simp only [List.mem_append, List.mem_singleton, hne, or_false]
      exact h.once m' hm'
    · rw [if_pos (.inl (by simp))]
      refine List.count_eq_zero.mpr fun hmem => ?_
      exact absurd (h.bounded _ hmem) (by omega)
  · intro q hq
    rw [List.length_append]
    exact (h.bounded q hq).trans (by simp)

end Queue

section Vector

namespace PtrVector

variable {v v' : PtrVector} {k j : ℕ} {x : Option ℕ}

lemma get_resize {size : ℕ} (h : v.size ≤ size) : (v.resize size).get j = v.get j := by
  rw [get, get, resize, List.take_of_length_le h, List.getD_eq_getElem?_getD, List.getD_eq_getElem?_getD]
  by_cases hj : j < v.entries.length
  · rw [List.getElem?_append_left hj]
  · rw [List.getElem?_append_right (not_lt.mp hj), List.getElem?_replicate, List.getElem?_eq_none (not_lt.mp hj)]
    split_ifs <;> rfl

lemma size_resize {size : ℕ} : (v.resize size).size = size := by
  simp only [PtrVector.size, resize, List.length_append, List.length_take, List.length_replicate]
  omega

structure Good (v : PtrVector) : Prop where
  growSize : v.growSize ≠ 0
  capacity : v.growSize ∣ v.capacity

def RoomFor (v : PtrVector) (index : ℕ) : Prop := index < v.size ∨ index < v.capacity

lemma growSize_dvd {g : ℕ} (hg : 0 < g) (size : ℕ) : g ∣ if size % g ≠ 0 then size + (g - size % g) else size := by
  split_ifs with h
  · have hlt := Nat.mod_lt size hg
    have hle := Nat.mod_le size g
    have heq : size + (g - size % g) = size - size % g + g := by omega
    rw [heq]
    exact (Nat.dvd_sub_mod size).add (dvd_refl g)
  · exact Nat.dvd_of_mod_eq_zero (not_not.mp h)

lemma setSize_some {size : ℕ} {alloc : Bool} (hv : v.Good) (hs : v.size < size)
    (h : v.setSize size alloc = some v') :
    v'.size = size ∧ v'.Good ∧ ∀ j, v'.get j = v.get j := by
  have hresize : ∀ u : PtrVector, u.resize size = v' → u.entries = v.entries → u.Good →
      v'.size = size ∧ v'.Good ∧ ∀ j, v'.get j = v.get j := by
    rintro u rfl hu hg
    have hget : ∀ j, (u.resize size).get j = u.get j := by
      intro j
      exact get_resize (by rw [PtrVector.size, hu]; exact hs.le)
    exact ⟨size_resize, ⟨hg.growSize, hg.capacity⟩, fun j => by rw [hget, get, get, hu]⟩
  rw [setSize, if_neg hs.ne'] at h
  by_cases hc : v.capacity ≤ size
  · rw [if_pos hc, if_neg hv.growSize] at h
    obtain ⟨u, hu, hv'⟩ := Option.map_eq_some_iff.mp h
    rw [setCapacity] at hu
    by_cases hcap : (if size % v.growSize ≠ 0 then size + (v.growSize - size % v.growSize) else size) ≤ v.capacity
    · rw [if_pos hcap] at hu
      obtain rfl := Option.some.inj hu
      exact hresize v hv' rfl hv
    · rw [if_neg hcap] at hu
      cases alloc with
      | false => cases hu
      | true =>
        obtain rfl := Option.some.inj hu
        exact hresize _ hv' rfl ⟨hv.growSize, growSize_dvd (Nat.pos_of_ne_zero hv.growSize) _⟩
  · rw [if_neg hc] at h
    exact hresize v (Option.some.inj h) rfl hv

lemma setSize_room {size : ℕ} {alloc : Bool} (hv : v.Good) (h : size ≤ v.capacity ∨ alloc) :
    ∃ v', v.setSize size alloc = some v' := by
  rw [setSize]
  by_cases hs : size = v.size
  · exact ⟨v, if_pos hs⟩
  rw [if_neg hs]
  by_cases hc : v.capacity ≤ size
  · rw [if_pos hc, if_neg hv.growSize]
    obtain ⟨u, hu⟩ : ∃ u, v.setCapacity
        (if size % v.growSize ≠ 0 then size + (v.growSize - size % v.growSize) else size) alloc = some u := by
      rw [setCapacity]
      rcases h with hle | rfl
      · have hsize : size = v.capacity := le_antisymm hle hc
        have hmod : size % v.growSize = 0 := Nat.mod_eq_zero_of_dvd (hsize ▸ hv.capacity)
        exact ⟨v, if_pos (by rw [if_neg (not_not.mpr hmod)]; exact hle)⟩
      · by_cases hcap :
            (if size % v.growSize ≠ 0 then size + (v.growSize - size % v.growSize) else size) ≤ v.capacity
        · exact ⟨_, if_pos hcap⟩
        · exact ⟨_, if_neg hcap⟩
    exact ⟨u.resize size, Option.map_eq_some_iff.mpr ⟨u, hu, rfl⟩⟩
  · exact ⟨_, if_neg hc⟩

lemma get_write (hk : k < v.size) : (v.write k x).get j = if j = k then x else v.get j := by
  rw [get, get, write, List.getD_eq_getElem?_getD, List.getD_eq_getElem?_getD, List.getElem?_set]
  by_cases hj : j = k
  · subst hj
    rw [if_pos rfl, if_pos rfl, if_pos (show j < v.entries.length from hk)]
    rfl
  · rw [if_neg (Ne.symm hj), if_neg hj]

lemma set_room {alloc : Bool} (hv : v.Good) (h : v.RoomFor k ∨ alloc) :
    ∃ v', v.set k x alloc = some v' ∧ v'.Good ∧ ∀ j, v'.get j = if j = k then x else v.get j := by
  by_cases hk : v.size ≤ k
  · have hroom : k + 1 ≤ v.capacity ∨ alloc := by
      refine h.imp_left fun hr => ?_
      rcases hr with hr | hr
      · exact absurd hr (not_lt.mpr hk)
      · exact hr
    obtain ⟨u, hu⟩ := setSize_room hv hroom
    obtain ⟨hsize, hgood, hget⟩ := setSize_some hv (Nat.lt_succ_of_le hk) hu
    refine ⟨u.write k x, by rw [set, if_pos hk, hu], ⟨hgood.growSize, hgood.capacity⟩, fun j => ?_⟩
    rw [get_write (by omega), hget]
  · exact ⟨v.write k x, by rw [set, if_neg hk], ⟨hv.growSize, hv.capacity⟩, fun j => get_write (not_le.mp hk)⟩

lemma get_of_size_le (h : v.size ≤ k) : v.get k = none := by
  rw [get, List.getD_eq_getElem?_getD, List.getElem?_eq_none h]
  rfl

lemma get_clear (hv : v.Good) (k : ℕ) (alloc : Bool) :
    ((v.set k none alloc).getD v).Good ∧ ∀ j,
        ((v.set k none alloc).getD v).get j = if j = k then none else v.get j := by
  have hsame : v.size ≤ k → ∀ j, v.get j = if j = k then none else v.get j := by
    intro hk j
    split_ifs with hj
    · rw [hj, get_of_size_le hk]
    · rfl
  by_cases hk : v.size ≤ k
  · rw [set, if_pos hk]
    cases hu : v.setSize (k + 1) alloc with
    | none =>
      by_cases hlt : v.size < k
      · rw [if_pos hlt]
        exact ⟨hv, hsame hk⟩
      · rw [if_neg hlt]
        exact ⟨hv, hsame hk⟩
    | some u =>
      obtain ⟨hsize, hgood, hget⟩ := setSize_some hv (Nat.lt_succ_of_le hk) hu
      refine ⟨⟨hgood.growSize, hgood.capacity⟩, fun j => ?_⟩
      have hw : (u.write k none).get j = if j = k then none else u.get j := get_write (by omega)
      rw [← hget]
      exact hw
  · rw [set, if_neg hk]
    exact ⟨⟨hv.growSize, hv.capacity⟩, fun j => get_write (not_le.mp hk)⟩

end PtrVector

end Vector

section References

variable {s s' : Disp w} {i : Fin w} {c : Pc} {m : Msg} {count count' : ℕ → ℕ} {r : ℕ} {d : ℤ}

/-- Reference counts, and what the list and the vector refer to. -/
structure Counted (count : ℕ → ℕ) (s : Disp w) : Prop where
  refCnt : ∀ r info, s.reg r = some info → info.refCnt = count r
  kept : ∀ r, 0 < count r → (s.reg r).isSome
  drained : ∀ r info, s.reg r = some info → info.stage = .drained → count r = 0
  indexed : ∀ k r, s.regVec.get k = some r →
    ∃ info, s.reg r = some info ∧ info.stage = .registered ∧ info.msgId = k ∧ k ≠ msgidNone
  vector : s.regVec.Good
  fresh : ∀ r, s.nextReg ≤ r → s.reg r = none
  listed : ∀ r ∈ s.regList, (s.reg r).isSome
  nodup : s.regList.Nodup

lemma Counted.congr (h : Counted count s) (hc : ∀ r, count' r = count r) (hr : s'.reg = s.reg)
    (hv : s'.regVec = s.regVec) (hn : s'.nextReg = s.nextReg) (hl : s'.regList = s.regList) :
    Counted count' s' := by
  obtain rfl : count' = count := funext hc
  refine ⟨?_, ?_, ?_, ?_, ?_, ?_, ?_, ?_⟩
  · rw [hr]
    exact h.refCnt
  · rw [hr]
    exact h.kept
  · rw [hr]
    exact h.drained
  · rw [hr, hv]
    exact h.indexed
  · rw [hv]
    exact h.vector
  · rw [hr, hn]
    exact h.fresh
  · rw [hr, hl]
    exact h.listed
  · rw [hl]
    exact h.nodup

/-- A reference count goes up or down together with what it counts. -/
lemma Counted.addRef {info : RegInfo} (h : Counted count s) (hr : s.reg r = some info)
    (hd : info.stage = .drained → d ≤ 0) (hc : ∀ q, (count' q : ℤ) = count q + if r = q then d else 0) :
    Counted count' (s.addRef r d) := by
  have hother : ∀ q, q ≠ r → count' q = count q := by
    intro q hq
    have := hc q
    rw [if_neg (Ne.symm hq)] at this
    omega
  have hself := hc r
  rw [if_pos rfl] at hself
  have hreg : ∀ q, (s.addRef r d).reg q =
      if q = r then some { info with refCnt := info.refCnt + d } else s.reg q := by
    intro q
    change Function.update s.reg r ((s.reg r).map fun info => { info with refCnt := info.refCnt + d }) q = _
    rw [Function.update_apply, hr, Option.map_some]
  have hsome : ∀ q, ((s.addRef r d).reg q).isSome = (s.reg q).isSome := by
    intro q
    rw [hreg]
    split_ifs with hq
    · rw [hq, hr]
      rfl
    · rfl
  refine ⟨?_, ?_, ?_, ?_, h.vector, ?_, ?_, h.nodup⟩
  · intro q info' hq
    rw [hreg] at hq
    split_ifs at hq with hqr
    · obtain rfl := Option.some.inj hq
      rw [hqr, hself, ← h.refCnt r info hr]
    · rw [hother q hqr]
      exact h.refCnt q info' hq
  · intro q hq
    rw [hsome]
    by_cases hqr : q = r
    · rw [hqr, hr]
      rfl
    · exact h.kept q (hother q hqr ▸ hq)
  · intro q info' hq hst
    rw [hreg] at hq
    split_ifs at hq with hqr
    · obtain rfl := Option.some.inj hq
      have hzero := h.drained r info hr hst
      have := hd hst
      rw [hqr]
      omega
    · rw [hother q hqr]
      exact h.drained q info' hq hst
  · intro k q hk
    obtain ⟨info', hq, hst, hid⟩ := h.indexed k q hk
    rw [hreg]
    split_ifs with hqr
    · subst hqr
      obtain rfl := Option.some.inj (hr.symm.trans hq)
      exact ⟨_, rfl, hst, hid⟩
    · exact ⟨info', hq, hst, hid⟩
  · intro q hq
    have hnone := hsome q
    rw [h.fresh q hq] at hnone
    exact Option.not_isSome_iff_eq_none.mp (by simp [hnone])
  · intro q hq
    rw [hsome]
    exact h.listed q hq

/-- The stage of a registration changes. -/
lemma Counted.setStage {info : RegInfo} {st : Stage} (h : Counted count s) (hr : s.reg r = some info)
    (hd : st = .drained → count r = 0) (hv : ∀ k, s.regVec.get k ≠ some r) :
    Counted count { s with reg := Function.update s.reg r (some { info with stage := st }) } := by
  refine ⟨?_, ?_, ?_, ?_, h.vector, ?_, ?_, h.nodup⟩
  · intro q info' hq
    dsimp only at hq
    rw [Function.update_apply] at hq
    split_ifs at hq with hqr
    · obtain rfl := Option.some.inj hq
      rw [hqr]
      exact h.refCnt r info hr
    · exact h.refCnt q info' hq
  · intro q hq
    dsimp only
    rw [Function.update_apply]
    split_ifs
    · rfl
    · exact h.kept q hq
  · intro q info' hq hst
    dsimp only at hq
    rw [Function.update_apply] at hq
    split_ifs at hq with hqr
    · obtain rfl := Option.some.inj hq
      rw [hqr]
      exact hd hst
    · exact h.drained q info' hq hst
  · intro k q hk
    obtain ⟨info', hq, hrest⟩ := h.indexed k q hk
    refine ⟨info', ?_, hrest⟩
    dsimp only
    rw [Function.update_of_ne, hq]
    rintro rfl
    exact hv k hk
  · intro q hq
    dsimp only
    rw [Function.update_of_ne, h.fresh q hq]
    rintro rfl
    rw [h.fresh q hq] at hr
    cases hr
  · intro q hq
    dsimp only
    rw [Function.update_apply]
    split_ifs
    · rfl
    · exact h.listed q hq

lemma Counted.setVec (h : Counted count s) {v : PtrVector} (hg : v.Good)
    (hv : ∀ k r, v.get k = some r →
      ∃ info, s.reg r = some info ∧ info.stage = .registered ∧ info.msgId = k ∧ k ≠ msgidNone) :
    Counted count { s with regVec := v } :=
  ⟨h.refCnt, h.kept, h.drained, hv, hg, h.fresh, h.listed, h.nodup⟩

lemma Counted.add (h : Counted count s) (msgId : ℕ) :
    Counted count { s with
      reg := Function.update s.reg s.nextReg (some ⟨msgId, 0, .registered⟩), nextReg := s.nextReg + 1,
      regList := s.regList ++ [s.nextReg] } := by
  have hnone := h.fresh s.nextReg le_rfl
  have hzero : count s.nextReg = 0 := by
    by_contra hpos
    have hkept := h.kept _ (Nat.pos_of_ne_zero hpos)
    rw [hnone] at hkept
    cases hkept
  have hold : ∀ q, (s.reg q).isSome →
      (Function.update s.reg s.nextReg (some ⟨msgId, 0, .registered⟩) q).isSome := by
    intro q hq
    rw [Function.update_apply]
    split_ifs
    · rfl
    · exact hq
  refine ⟨?_, fun q hq => hold q (h.kept q hq), ?_, ?_, h.vector, ?_, ?_, ?_⟩
  · intro q info hq
    dsimp only at hq
    rw [Function.update_apply] at hq
    split_ifs at hq with hqr
    · obtain rfl := Option.some.inj hq
      rw [hqr, hzero]
      rfl
    · exact h.refCnt q info hq
  · intro q info hq hst
    dsimp only at hq
    rw [Function.update_apply] at hq
    split_ifs at hq with hqr
    · rw [hqr, hzero]
    · exact h.drained q info hq hst
  · intro k q hk
    obtain ⟨info, hq, hrest⟩ := h.indexed k q hk
    refine ⟨info, ?_, hrest⟩
    dsimp only
    rw [Function.update_of_ne, hq]
    rintro rfl
    rw [hnone] at hq
    cases hq
  · intro q hq
    dsimp only at hq ⊢
    rw [Function.update_of_ne (by omega), h.fresh q (by omega)]
  · intro q hq
    rw [List.mem_append, List.mem_singleton] at hq
    rcases hq with hq | rfl
    · exact hold q (h.listed q hq)
    · dsimp only
      rw [Function.update_self]
      rfl
  · refine h.nodup.append (List.nodup_singleton _) ?_
    rw [List.disjoint_singleton]
    intro hmem
    have hlisted := h.listed _ hmem
    rw [hnone] at hlisted
    cases hlisted

lemma Counted.register {msgId : ℕ} {regAlloc vecAlloc : Bool} (h : Counted count s)
    (hg : regAlloc → msgId ≠ msgidNone → s.regVec.RoomFor msgId ∨ vecAlloc) :
    Counted count (dispRegister s msgId regAlloc vecAlloc) := by
  by_cases hfull : msgId ≠ msgidNone ∧ msgId < s.regVec.size ∧ (s.regVec.get msgId).isSome
  · rw [dispRegister, if_pos hfull]
    exact h
  rw [dispRegister, if_neg hfull]
  cases regAlloc with
  | false => exact h
  | true =>
    rw [Bool.not_true, if_neg Bool.false_ne_true]
    dsimp only
    have hadd := h.add msgId
    by_cases hid : msgId ≠ msgidNone
    · rw [if_pos hid]
      obtain ⟨v, hv, hgood, hget⟩ :
          ∃ v, s.regVec.set msgId (some s.nextReg) vecAlloc = some v ∧ v.Good ∧
            ∀ j, v.get j = if j = msgId then some s.nextReg else s.regVec.get j :=
        PtrVector.set_room h.vector (hg rfl hid)
      rw [hv]
      refine hadd.setVec hgood fun k r hk => ?_
      rw [hget] at hk
      split_ifs at hk with hkm
      · obtain rfl := Option.some.inj hk
        exact ⟨_, Function.update_self .., rfl, hkm.symm, hkm ▸ hid⟩
      · exact hadd.indexed k r hk
    · rw [if_neg hid]
      exact hadd

lemma Counted.clear {h' : ℕ} {vecAlloc : Bool} (h : Counted count s)
    (hs : unregisterClear s h' vecAlloc = some s') : Counted count s' := by
  rw [unregisterClear] at hs
  cases hr : s.reg h' with
  | none =>
    rw [hr] at hs
    cases hs
  | some info =>
    rw [hr] at hs
    dsimp only at hs
    split_ifs at hs with hst hid
    all_goals obtain rfl := Option.some.inj hs
    · obtain ⟨hgood, hget⟩ := PtrVector.get_clear h.vector info.msgId vecAlloc
      have hvec : Counted count { s with regVec := (s.regVec.set info.msgId none vecAlloc).getD s.regVec } := by
        refine h.setVec hgood fun k r hk => ?_
        rw [hget] at hk
        split_ifs at hk
        exact h.indexed k r hk
      refine hvec.setStage hr (fun hd => by cases hd) fun k hk => ?_
      dsimp only at hk
      rw [hget] at hk
      split_ifs at hk with hkm
      obtain ⟨info', hr', -, hid', -⟩ := h.indexed k h' hk
      obtain rfl := Option.some.inj (hr.symm.trans hr')
      exact hkm hid'.symm
    · refine h.setStage hr (fun hd => by cases hd) fun k hk => ?_
      obtain ⟨info', hr', -, hid', hne⟩ := h.indexed k h' hk
      obtain rfl := Option.some.inj (hr.symm.trans hr')
      exact hid (hid' ▸ hne)

lemma Counted.drain {h' : ℕ} (h : Counted count s) (hs : unregisterDrain s h' = some s') : Counted count s' := by
  rw [unregisterDrain] at hs
  cases hr : s.reg h' with
  | none =>
    rw [hr] at hs
    cases hs
  | some info =>
    rw [hr] at hs
    dsimp only at hs
    split_ifs at hs with hst
    obtain rfl := Option.some.inj hs
    refine h.setStage hr (fun _ => ?_) fun k hk => ?_
    · have hcount := h.refCnt h' info hr
      omega
    · obtain ⟨info', hr', hst', -⟩ := h.indexed k h' hk
      obtain rfl := Option.some.inj (hr.symm.trans hr')
      rw [hst.1] at hst'
      cases hst'

/-- What is freed is neither listed nor indexed, and nothing counts on it. -/
lemma Counted.free {h' : ℕ} (h : Counted count s) (hs : unregisterFree s h' = some s') : Counted count s' := by
  rw [unregisterFree] at hs
  cases hr : s.reg h' with
  | none =>
    rw [hr] at hs
    cases hs
  | some info =>
    rw [hr] at hs
    dsimp only at hs
    split_ifs at hs with hst
    obtain rfl := Option.some.inj hs
    have hzero := h.drained h' info hr hst
    have hne : ∀ q info', Function.update s.reg h' none q = some info' → q ≠ h' ∧ s.reg q = some info' := by
      intro q info' hq
      rw [Function.update_apply] at hq
      split_ifs at hq with hqh
      exact ⟨hqh, hq⟩
    refine ⟨?_, ?_, ?_, ?_, h.vector, ?_, ?_, h.nodup.erase h'⟩
    · intro q info' hq
      exact h.refCnt q info' (hne q info' hq).2
    · intro q hq
      dsimp only
      rw [Function.update_of_ne]
      · exact h.kept q hq
      · rintro rfl
        omega
    · intro q info' hq
      exact h.drained q info' (hne q info' hq).2
    · intro k q hk
      obtain ⟨info', hq, hst', hrest⟩ := h.indexed k q hk
      refine ⟨info', ?_, hst', hrest⟩
      dsimp only
      rw [Function.update_of_ne, hq]
      rintro rfl
      obtain rfl := Option.some.inj (hr.symm.trans hq)
      rw [hst] at hst'
      cases hst'
    · intro q hq
      dsimp only
      rw [Function.update_apply, h.fresh q hq, ite_self]
    · intro q hq
      rw [h.nodup.mem_erase_iff] at hq
      dsimp only
      rw [Function.update_of_ne hq.1]
      exact h.listed q hq.2

lemma refs_goto (s : Disp w) (i : Fin w) (c : Pc) (r : ℕ) :
    (s.goto i c).refs r + (s.pc i).refs r = s.refs r + c.refs r := by
  have hold := Finset.add_sum_erase Finset.univ (fun j => (s.pc j).refs r) (Finset.mem_univ i)
  have hnew := Finset.add_sum_erase Finset.univ (fun j => (Function.update s.pc i c j).refs r) (Finset.mem_univ i)
  have hsame : ∑ j ∈ Finset.univ.erase i, (Function.update s.pc i c j).refs r =
      ∑ j ∈ Finset.univ.erase i, (s.pc j).refs r := by
    refine Finset.sum_congr rfl fun j hj => ?_
    rw [Function.update_of_ne (Finset.ne_of_mem_erase hj)]
  rw [Function.update_self, hsame] at hnew
  rw [Disp.refs, Disp.refs, goto_pc, ← hold, ← hnew]
  change _ + _ + _ = _ + _ + _
  have hfifo : (s.goto i c).msgFifo = s.msgFifo := rfl
  rw [hfifo]
  omega

lemma refs_goto_eq (s : Disp w) (hc : c.refs r = (s.pc i).refs r) : (s.goto i c).refs r = s.refs r := by
  have := refs_goto s i c r
  omega

lemma le_refs (s : Disp w) (i : Fin w) (r : ℕ) : (s.pc i).refs r ≤ s.refs r := by
  have hle := Finset.single_le_sum (f := fun j => (s.pc j).refs r) (fun _ _ => Nat.zero_le _) (Finset.mem_univ i)
  exact hle.trans (Nat.le_add_left _ _)

lemma refs_pop {rest : List Msg} (hf : s.msgFifo = m :: rest) (hi : (s.pc i).refs r = 0) :
    { s.goto i (.popped m) with msgFifo := rest, popped := s.popped ++ [m] : Disp w }.refs r = s.refs r := by
  have hgoto := refs_goto s i (.popped m) r
  have hfifo : (s.goto i (.popped m)).refs r =
      m.refs r + { s.goto i (.popped m) with msgFifo := rest, popped := s.popped ++ [m] : Disp w }.refs r := by
    rw [Disp.refs, Disp.refs]
    change ((s.msgFifo.map fun m => m.refs r).sum) + _ = _
    rw [hf, List.map_cons, List.sum_cons, add_assoc]
  have hm : (Pc.popped m).refs r = m.refs r := rfl
  omega

lemma refs_post (s : Disp w) (m : Msg) (r : ℕ) :
    { s with msgFifo := s.msgFifo ++ [m], accepted := s.accepted ++ [m] : Disp w }.refs r = s.refs
        r + m.refs r := by
  rw [Disp.refs, Disp.refs]
  change ((s.msgFifo ++ [m]).map fun m => m.refs r).sum + _ = _
  rw [List.map_append, List.sum_append, List.map_singleton, List.sum_singleton]
  exact Nat.add_right_comm _ _ _

end References

section Workers

structure Workers (s : Disp w) : Prop where
  awake : s.msgFifo ≠ [] → (∃ i, (s.pc i).running) ∨ 0 < s.events ∨ 0 < s.signalling
  roused : 0 < s.events → ∃ i, s.pc i ≠ .blocked
  notified : ∀ i m, s.pc i = .received m ∨ s.pc i = .notifying m → m.notify

variable {s s' : Disp w} {i : Fin w} {c : Pc} {m : Msg} {h' : ℕ}

lemma Workers.congr (h : Workers s) (hf : s'.msgFifo = s.msgFifo) (he : s'.events = s.events)
    (hs : s'.signalling = s.signalling) (hp : s'.pc = s.pc) : Workers s' := by
  refine ⟨?_, ?_, ?_⟩
  · rw [hf, he, hs, hp]
    exact h.awake
  · rw [he, hp]
    exact h.roused
  · rw [hp]
    exact h.notified

lemma Workers.goto (h : Workers s) (hr : (s.pc i).running → c.running) (hb : c ≠ .blocked)
    (hn : ∀ m, c = .received m ∨ c = .notifying m → m.notify) : Workers (s.goto i c) := by
  refine ⟨fun hf => ?_, fun _ => ⟨i, ?_⟩, fun j m hj => ?_⟩
  · refine (h.awake hf).imp_left ?_
    rintro ⟨j, hj⟩
    by_cases hji : j = i
    · subst hji
      exact ⟨j, by rw [goto_pc, Function.update_self]; exact hr hj⟩
    · exact ⟨j, by rw [goto_pc, Function.update_of_ne hji]; exact hj⟩
  · rw [goto_pc, Function.update_self]
    exact hb
  · rw [goto_pc, Function.update_apply] at hj
    split_ifs at hj
    · exact hn m hj
    · exact h.notified j m hj

lemma Workers.test (h : Workers s) (hi : s.pc i = .waiting) : Workers (poolTest s i) := by
  rw [poolTest]
  split_ifs with he
  · refine ⟨fun hf => ?_, fun hpos => absurd he hpos.ne', fun j m hj => ?_⟩
    · rcases h.awake hf with ⟨j, hj⟩ | hrest
      · refine .inl ⟨j, ?_⟩
        rw [goto_pc, Function.update_of_ne]
        · exact hj
        · rintro rfl
          rw [hi] at hj
          cases hj
      · exact .inr hrest
    · rw [goto_pc, Function.update_apply] at hj
      split_ifs at hj
      · rcases hj with hj | hj <;> cases hj
      · exact h.notified j m hj
  · have hentered : Workers (s.goto i .entered) := by
      refine h.goto (fun _ => rfl) (fun hb => by cases hb) fun m hm => ?_
      rcases hm with hm | hm <;> cases hm
    refine ⟨fun _ => .inl ⟨i, ?_⟩, fun _ => ⟨i, ?_⟩, hentered.notified⟩
    · change (Function.update s.pc i .entered i).running
      rw [Function.update_self]
      rfl
    · change Function.update s.pc i .entered i ≠ .blocked
      rw [Function.update_self]
      exact fun hb => by cases hb

lemma Workers.signal {woken : Option (Fin w)} (h : Workers s) (hw : 0 < w) (hs : poolSignal s woken = some s') :
    Workers s' := by
  rw [poolSignal] at hs
  split_ifs at hs
  cases woken with
  | some i =>
    dsimp only at hs
    split_ifs at hs with hi
    obtain rfl := Option.some.inj hs
    refine ⟨fun _ => .inr (.inl (Nat.succ_pos _)), fun _ => ⟨i, ?_⟩, fun j m hj => ?_⟩
    · rw [goto_pc, Function.update_self]
      exact fun hb => by cases hb
    · rw [goto_pc, Function.update_apply] at hj
      split_ifs at hj
      · rcases hj with hj | hj <;> cases hj
      · exact h.notified j m hj
  | none =>
    dsimp only at hs
    split_ifs at hs with hi
    obtain rfl := Option.some.inj hs
    exact ⟨fun _ => .inr (.inl (Nat.succ_pos _)), fun _ => ⟨⟨0, hw⟩, hi _⟩, h.notified⟩

lemma Workers.next (h : Workers s) : Workers (workerNext s i) := by
  rw [workerNext]
  cases hf : s.msgFifo with
  | nil =>
    refine ⟨fun hne => absurd hf hne, fun _ => ⟨i, ?_⟩, fun j m hj => ?_⟩
    · rw [goto_pc, Function.update_self]
      exact fun hb => by cases hb
    · rw [goto_pc, Function.update_apply] at hj
      split_ifs at hj
      · rcases hj with hj | hj <;> cases hj
      · exact h.notified j m hj
  | cons m rest =>
    have hpopped : Workers (s.goto i (.popped m)) := by
      refine h.goto (fun _ => rfl) (fun hb => by cases hb) fun m hm => ?_
      rcases hm with hm | hm <;> cases hm
    refine ⟨fun _ => .inl ⟨i, ?_⟩, hpopped.roused, hpopped.notified⟩
    change (Function.update s.pc i (.popped m) i).running
    rw [Function.update_self]
    rfl

lemma mayPost_reg (hwk : Workers s) (h : Counted s.refs s) (hm : mayPost s h') :
    ∃ info, s.reg h' = some info ∧ info.stage ≠ .drained := by
  rcases hm with ⟨info, hr, hst⟩ | ⟨i, hi⟩
  · refine ⟨info, hr, fun hd => ?_⟩
    rw [hst] at hd
    cases hd
  · have hpos : 0 < s.refs h' := by
      refine lt_of_lt_of_le ?_ (le_refs s i h')
      cases hpc : s.pc i with
      | receiving m =>
        rw [hpc] at hi
        have hdest : m.dest = h' := of_decide_eq_true hi
        rw [Pc.refs, Msg.refs, if_pos hdest]
        omega
      | notifying m =>
        rw [hpc] at hi
        have hsrc : m.src = h' := of_decide_eq_true hi
        rw [Pc.refs, if_pos ⟨hwk.notified i m (.inr hpc), hsrc⟩]
        exact one_pos
      | _ =>
        rw [hpc] at hi
        cases hi
    obtain ⟨info, hr⟩ := Option.isSome_iff_exists.mp (h.kept h' hpos)
    exact ⟨info, hr, fun hd => hpos.ne' (h.drained h' info hr hd)⟩

end Workers

section Run

structure Inv (s : Disp w) : Prop where
  queued : Queued s
  workers : Workers s
  counted : Counted s.refs s

variable {s s' : Disp w} {i : Fin w} {c : Pc} {m : Msg} {h' msgId : ℕ}

lemma Inv.counted_congr (h : Inv s) (hc : Counted s.refs s') (ha : s'.accepted = s.accepted)
    (hp : s'.popped = s.popped)
    (hf : s'.msgFifo = s.msgFifo) (hl : s'.log = s.log) (he : s'.events = s.events)
    (hs : s'.signalling = s.signalling) (hpc : s'.pc = s.pc) : Inv s' := by
  refine ⟨h.queued.congr ha hp hf hl (fun i m hi => by rwa [hpc] at hi) (fun i m => by rw [hpc]),
      h.workers.congr hf he hs hpc, ?_⟩
  have hrefs : s'.refs = s.refs := by
    funext r
    rw [Disp.refs, Disp.refs, hf, hpc]
  exact hrefs ▸ hc

lemma dispRegister_frame (s : Disp w) (msgId : ℕ) (regAlloc vecAlloc : Bool) :
    ∃ reg next list vec, dispRegister s msgId regAlloc vecAlloc =
      { s with reg := reg, nextReg := next, regList := list, regVec := vec } := by
  rw [dispRegister]
  split_ifs
  · exact ⟨_, _, _, _, rfl⟩
  · exact ⟨_, _, _, _, rfl⟩
  · dsimp only
    cases s.regVec.set msgId (some s.nextReg) vecAlloc with
    | none => exact ⟨_, _, _, _, rfl⟩
    | some v => exact ⟨_, _, _, _, rfl⟩
  · exact ⟨_, _, _, _, rfl⟩

lemma Inv.register {regAlloc vecAlloc : Bool} (h : Inv s)
    (hg : regAlloc → msgId ≠ msgidNone → s.regVec.RoomFor msgId ∨ vecAlloc) :
    Inv (dispRegister s msgId regAlloc vecAlloc) := by
  have hc := h.counted.register hg
  obtain ⟨reg, next, list, vec, he⟩ := dispRegister_frame s msgId regAlloc vecAlloc
  rw [he] at hc ⊢
  exact h.counted_congr hc rfl rfl rfl rfl rfl rfl rfl

lemma Inv.clear {vecAlloc : Bool} (h : Inv s) (hs : unregisterClear s h' vecAlloc = some s') : Inv s' := by
  have hc := h.counted.clear hs
  rw [unregisterClear] at hs
  cases hr : s.reg h' with
  | none =>
    rw [hr] at hs
    cases hs
  | some info =>
    rw [hr] at hs
    dsimp only at hs
    split_ifs at hs
    all_goals
      obtain rfl := Option.some.inj hs
      exact h.counted_congr hc rfl rfl rfl rfl rfl rfl rfl

lemma Inv.drain (h : Inv s) (hs : unregisterDrain s h' = some s') : Inv s' := by
  have hc := h.counted.drain hs
  rw [unregisterDrain] at hs
  cases hr : s.reg h' with
  | none =>
    rw [hr] at hs
    cases hs
  | some info =>
    rw [hr] at hs
    dsimp only at hs
    split_ifs at hs
    obtain rfl := Option.some.inj hs
    exact h.counted_congr hc rfl rfl rfl rfl rfl rfl rfl

lemma Inv.free (h : Inv s) (hs : unregisterFree s h' = some s') : Inv s' := by
  have hc := h.counted.free hs
  rw [unregisterFree] at hs
  cases hr : s.reg h' with
  | none =>
    rw [hr] at hs
    cases hs
  | some info =>
    rw [hr] at hs
    dsimp only at hs
    split_ifs at hs
    obtain rfl := Option.some.inj hs
    exact h.counted_congr hc rfl rfl rfl rfl rfl rfl rfl

lemma Counted.post {count : ℕ → ℕ} {info : RegInfo} {k : ℕ} (h : Counted count s) (m : Msg)
    (hr : s.reg m.src = some info) (hst : info.stage ≠ .drained) (hk : s.regVec.get k = some m.dest) :
    Counted (fun r => count r + m.refs r) ((if m.notify then s.addRef m.src 1 else s).addRef m.dest 1) := by
  have hsrc : Counted (fun r => count r + if m.notify ∧ m.src = r then 1 else 0)
      (if m.notify then s.addRef m.src 1 else s) := by
    split_ifs with hn
    · refine h.addRef hr (fun hd => absurd hd hst) fun q => ?_
      simp only [hn, true_and]
      push_cast
      rfl
    · refine h.congr (fun r => ?_) rfl rfl rfl rfl
      rw [if_neg (fun hf => hn hf.1), add_zero]
  have hvec : (if m.notify then s.addRef m.src 1 else s).regVec.get k = some m.dest := by
    split_ifs
    · exact hk
    · exact hk
  obtain ⟨dinfo, hd, hdst, -⟩ := hsrc.indexed k m.dest hvec
  refine hsrc.addRef hd (fun hdr => ?_) fun q => ?_
  · rw [hdst] at hdr
    cases hdr
  · rw [Msg.refs]
    push_cast
    ring

lemma Inv.post {notify poolAlloc : Bool} (h : Inv s)
    (hs : dispPost s h' msgId notify poolAlloc = some s') : Inv s' := by
  rw [dispPost] at hs
  by_cases hm : mayPost s h' ∧ msgId ≠ msgidNone
  · rw [if_pos hm] at hs
    by_cases hsize : s.regVec.size ≤ msgId
    · rw [if_pos hsize] at hs
      exact Option.some.inj hs ▸ h
    · rw [if_neg hsize] at hs
      cases hget : s.regVec.get msgId with
      | none =>
        rw [hget] at hs
        exact Option.some.inj hs ▸ h
      | some dest =>
        rw [hget] at hs
        dsimp only at hs
        cases poolAlloc with
        | false => exact Option.some.inj hs ▸ h
        | true =>
          generalize hmsg : Msg.mk s.accepted.length h' dest notify = m at hs
          obtain ⟨info, hr, hst⟩ := mayPost_reg h.workers h.counted hm.1
          have hc := h.counted.post m (by rw [← hmsg]; exact hr) hst (by rw [← hmsg]; exact hget)
          have hq : Queued { s with msgFifo := s.msgFifo ++ [m], accepted := s.accepted ++ [m] } :=
            h.queued.post (by rw [← hmsg])
          have he : (if notify then s.addRef h' 1 else s).addRef dest 1 =
              (if m.notify then s.addRef m.src 1 else s).addRef m.dest 1 := by rw [← hmsg]
          obtain ⟨reg, hreg⟩ : ∃ reg, (if m.notify then s.addRef m.src 1 else s).addRef m.dest 1 =
              { s with reg := reg } := by
            split_ifs
            · exact ⟨_, rfl⟩
            · exact ⟨_, rfl⟩
          rw [Bool.not_true, if_neg Bool.false_ne_true, he, hreg] at hs
          rw [hreg] at hc
          obtain rfl := Option.some.inj hs
          refine ⟨hq.congr rfl rfl rfl rfl (fun _ _ hm => hm) (fun _ _ => Iff.rfl), ?_, ?_⟩
          · exact ⟨fun _ => .inr (.inr (Nat.succ_pos _)), h.workers.roused, h.workers.notified⟩
          · exact hc.congr (refs_post s m) rfl rfl rfl rfl
  · rw [if_neg hm] at hs
    cases hs

lemma Inv.goto_idle (h : Inv s) (hi : (s.pc i).msg = none) (hc : c.msg = none) (hr : (s.pc i).running → c.running)
    (hb : c ≠ .blocked) : Inv (s.goto i c) := by
  have hrefs : ∀ {c : Pc} {r : ℕ}, c.msg = none → c.refs r = 0 := by
    intro c r hc
    cases c with
    | waiting => rfl
    | blocked => rfl
    | entered => rfl
    | _ => cases hc
  refine ⟨h.queued.goto_idle hi hc, h.workers.goto hr hb fun m hm => ?_, ?_⟩
  · rcases hm with rfl | rfl <;> cases hc
  · exact h.counted.congr (fun r => refs_goto_eq s (by rw [hrefs hc, hrefs hi])) rfl rfl rfl rfl

lemma Inv.signal {woken : Option (Fin w)} (h : Inv s) (hw : 0 < w)
    (hs : poolSignal s woken = some s') : Inv s' := by
  have hwk := h.workers.signal hw hs
  rw [poolSignal] at hs
  split_ifs at hs
  cases woken with
  | some i =>
    dsimp only at hs
    split_ifs at hs with hi
    obtain rfl := Option.some.inj hs
    have hrefs : ∀ r, (s.goto i .waiting).refs r = s.refs r := fun r => refs_goto_eq s (by rw [hi]; rfl)
    refine ⟨?_, hwk, h.counted.congr hrefs rfl rfl rfl rfl⟩
    have hq : Queued (s.goto i .waiting) := h.queued.goto_idle (by rw [hi]; rfl) rfl
    exact hq.congr rfl rfl rfl rfl (fun _ _ hm => hm) fun _ _ => Iff.rfl
  | none =>
    dsimp only at hs
    split_ifs at hs with hi
    obtain rfl := Option.some.inj hs
    exact ⟨h.queued.congr rfl rfl rfl rfl (fun _ _ hm => hm) fun _ _ => Iff.rfl, hwk,
      h.counted.congr (fun _ => rfl) rfl rfl rfl rfl⟩

lemma Inv.test (h : Inv s) (hi : s.pc i = .waiting) : Inv (poolTest s i) := by
  have hwk := h.workers.test hi
  have hidle : (s.pc i).msg = none := by rw [hi]; rfl
  have hrefs : ∀ {c : Pc}, (∀ r, c.refs r = 0) → ∀ r, (s.goto i c).refs r = s.refs r := by
    intro c hc r
    exact refs_goto_eq s (by rw [hc, hi]; rfl)
  rw [poolTest] at hwk ⊢
  split_ifs with he
  · rw [if_pos he] at hwk
    exact ⟨h.queued.goto_idle hidle rfl, hwk, h.counted.congr (hrefs fun _ => rfl) rfl rfl rfl rfl⟩
  · rw [if_neg he] at hwk
    have hq : Queued (s.goto i .entered) := h.queued.goto_idle hidle rfl
    exact ⟨hq.congr rfl rfl rfl rfl (fun _ _ hm => hm) fun _ _ => Iff.rfl, hwk,
      h.counted.congr (hrefs fun _ => rfl) rfl rfl rfl rfl⟩

lemma Inv.next (h : Inv s) (hi : s.pc i = .entered ∨ ∃ m, s.pc i = .finished m) : Inv (workerNext s i) := by
  have hwk := h.workers.next (i := i)
  have hzero : ∀ r, (s.pc i).refs r = 0 := by
    intro r
    rcases hi with hi | ⟨m, hi⟩ <;> rw [hi] <;> rfl
  rw [workerNext] at hwk ⊢
  cases hf : s.msgFifo with
  | nil =>
    rw [hf] at hwk
    have hrefs : ∀ r, (s.goto i .waiting).refs r = s.refs r := fun r => refs_goto_eq s (by rw [hzero]; rfl)
    refine ⟨h.queued.goto (fun m hm => by cases hm) (fun m hm => ?_) (fun m hm => by cases hm), hwk,
      h.counted.congr hrefs rfl rfl rfl rfl⟩
    rcases hi with hi | ⟨m', hi⟩ <;> rw [hi] at hm <;> cases hm
  | cons m rest =>
    rw [hf] at hwk
    exact ⟨h.queued.pop hf hi, hwk, h.counted.congr (fun r => refs_pop hf (hzero r)) rfl rfl rfl rfl⟩

lemma Inv.call (h : Inv s) (hi : s.pc i = .popped m) :
    Inv { s.goto i (.receiving m) with log := s.log ++ [.receive m.seq] } := by
  have hwk : Workers (s.goto i (.receiving m)) := by
    refine h.workers.goto (fun _ => rfl) (fun hb => by cases hb) fun m hm => ?_
    rcases hm with hm | hm <;> cases hm
  have hrefs : ∀ r, (s.goto i (.receiving m)).refs r = s.refs r := fun r => refs_goto_eq s (by rw [hi]; rfl)
  exact ⟨h.queued.call hi, hwk.congr rfl rfl rfl rfl, h.counted.congr hrefs rfl rfl rfl rfl⟩

lemma Inv.notify (h : Inv s) (hi : s.pc i = .received m) :
    Inv { s.goto i (.notifying m) with log := s.log ++ [.done m.seq] } := by
  have hmsg : (s.pc i).msg = some m := by rw [hi]; rfl
  have hp : ∀ m, s.pc i ≠ .popped m := by
    intro m' hf
    rw [hi] at hf
    cases hf
  have hrefs : ∀ r, (s.goto i (.notifying m)).refs r = s.refs r := fun r => refs_goto_eq s (by rw [hi]; rfl)
  have hq : Queued (s.goto i (.notifying m)) := by
    refine h.queued.goto (fun m' hm' => ?_) hp fun m' hm' => by cases hm'
    rw [hmsg]
    exact hm'
  have hwk : Workers (s.goto i (.notifying m)) := by
    refine h.workers.goto (fun _ => rfl) (fun hb => by cases hb) fun m' hm' => ?_
    rcases hm' with hm' | hm'
    · cases hm'
    · exact Pc.notifying.inj hm' ▸ h.workers.notified i m (.inl hi)
  exact ⟨hq.done (h.queued.received hmsg (hp m)), hwk.congr rfl rfl rfl rfl, h.counted.congr hrefs rfl rfl rfl rfl⟩

lemma Inv.dec {r : ℕ} (h : Inv s) (hm : c.msg = (s.pc i).msg) (hp : ∀ m, s.pc i ≠ .popped m)
    (hc : ∀ m, c ≠ .popped m)
    (hrun : c.running) (hn : ∀ m, c = .received m ∨ c = .notifying m → m.notify)
    (hr : ∀ q, (s.pc i).refs q = c.refs q + if r = q then 1 else 0) : Inv ((s.addRef r (-1)).goto i c) := by
  have hb : c ≠ .blocked := by
    rintro rfl
    cases hrun
  have hpos : 0 < s.refs r := by
    have hle := le_refs s i r
    have hself := hr r
    rw [if_pos rfl] at hself
    omega
  obtain ⟨info, hreg⟩ := Option.isSome_iff_exists.mp (h.counted.kept r hpos)
  have hcount : Counted (s.goto i c).refs (s.addRef r (-1)) := by
    refine h.counted.addRef hreg (fun _ => by omega) fun q => ?_
    have hgoto := refs_goto s i c q
    have hq := hr q
    split_ifs at hq ⊢
    · omega
    · omega
  refine ⟨?_, ?_, hcount.congr (fun _ => rfl) rfl rfl rfl rfl⟩
  · have hq : Queued (s.goto i c) := h.queued.goto (fun m hcm => hm ▸ hcm) hp hc
    exact hq.congr rfl rfl rfl rfl (fun _ _ hm => hm) fun _ _ => Iff.rfl
  · have hwk : Workers (s.goto i c) := h.workers.goto (fun _ => hrun) hb hn
    exact hwk.congr rfl rfl rfl rfl

lemma Inv.release (h : Inv s) (hi : s.pc i = .receiving m) :
    Inv ((s.addRef m.dest (-1)).goto i (if m.notify then .received m else .finished m)) := by
  have hp : ∀ m', s.pc i ≠ .popped m' := by
    intro m' hf
    rw [hi] at hf
    cases hf
  have hrefs : ∀ q, (s.pc i).refs q = m.refs q := by
    intro q
    rw [hi]
    rfl
  have hmsg : some m = (s.pc i).msg := by
    rw [hi]
    rfl
  split_ifs with hn
  · refine h.dec hmsg hp (fun m' hm' => by cases hm') rfl (fun m' hm' => ?_) fun q => ?_
    · rcases hm' with hm' | hm'
      · exact Pc.received.inj hm' ▸ hn
      · cases hm'
    · rw [hrefs, Msg.refs, add_comm, Pc.refs]
  · refine h.dec hmsg hp (fun m' hm' => by cases hm') rfl (fun m' hm' => ?_) fun q => ?_
    · rcases hm' with hm' | hm' <;> cases hm'
    · rw [hrefs, Msg.refs, add_comm, if_neg fun hf => hn hf.1]
      rfl

lemma Inv.releaseSrc (h : Inv s) (hi : s.pc i = .notifying m) :
    Inv ((s.addRef m.src (-1)).goto i (.finished m)) := by
  have hn := h.workers.notified i m (.inr hi)
  refine h.dec (by rw [hi]; rfl) (fun m' hf => ?_) (fun m' hm' => by cases hm') rfl (fun m' hm' => ?_) fun q => ?_
  · rw [hi] at hf
    cases hf
  · rcases hm' with hm' | hm' <;> cases hm'
  · have hzero : (Pc.finished m).refs q = 0 := rfl
    rw [hzero, hi, Pc.refs, hn, zero_add]
    simp only [true_and]

/-- A registration that needs a larger vector finds the memory for it. -/
def Grows (s : Disp w) : Action w → Prop
  | .register msgId regAlloc vecAlloc => regAlloc → msgId ≠ msgidNone → s.regVec.RoomFor msgId ∨ vecAlloc
  | _ => True

lemma Inv.step (hw : 0 < w) {a : Action w} (h : Inv s) (ha : Grows s a) (hs : Dispatcher.step s a = some s') :
    Inv s' := by
  cases a with
  | register msgId regAlloc vecAlloc => exact Option.some.inj hs ▸ h.register ha
  | clear h' vecAlloc => exact h.clear hs
  | drain h' => exact h.drain hs
  | free h' => exact h.free hs
  | post h' msgId notify poolAlloc => exact h.post hs
  | signal woken => exact h.signal hw hs
  | test i =>
    rw [Dispatcher.step] at hs
    split_ifs at hs with hi
    exact Option.some.inj hs ▸ h.test hi
  | wake i =>
    rw [Dispatcher.step] at hs
    split_ifs at hs with hi
    refine Option.some.inj hs ▸ h.goto_idle (by rw [hi]; rfl) rfl (fun hr => ?_) fun hf => by cases hf
    rw [hi] at hr
    cases hr
  | next i =>
    rw [Dispatcher.step] at hs
    cases hi : s.pc i with
    | entered =>
      rw [hi] at hs
      exact Option.some.inj hs ▸ h.next (.inl hi)
    | finished m =>
      rw [hi] at hs
      exact Option.some.inj hs ▸ h.next (.inr ⟨m, hi⟩)
    | _ =>
      rw [hi] at hs
      cases hs
  | call i =>
    rw [Dispatcher.step] at hs
    cases hi : s.pc i with
    | popped m =>
      rw [hi] at hs
      exact Option.some.inj hs ▸ h.call hi
    | _ =>
      rw [hi] at hs
      cases hs
  | release i =>
    rw [Dispatcher.step] at hs
    cases hi : s.pc i with
    | receiving m =>
      rw [hi] at hs
      exact Option.some.inj hs ▸ h.release hi
    | _ =>
      rw [hi] at hs
      cases hs
  | notify i =>
    rw [Dispatcher.step] at hs
    cases hi : s.pc i with
    | received m =>
      rw [hi] at hs
      exact Option.some.inj hs ▸ h.notify hi
    | _ =>
      rw [hi] at hs
      cases hs
  | releaseSrc i =>
    rw [Dispatcher.step] at hs
    cases hi : s.pc i with
    | notifying m =>
      rw [hi] at hs
      exact Option.some.inj hs ▸ h.releaseSrc hi
    | _ =>
      rw [hi] at hs
      cases hs

lemma inv_init : Inv (init w) := by
  have hrefs : ∀ r, (init w).refs r = 0 := by
    intro r
    have hsum : ∑ i, ((init w).pc i).refs r = 0 := Finset.sum_eq_zero fun i _ => rfl
    rw [Disp.refs, hsum]
    rfl
  have hvec : ∀ k, (init w).regVec.get k = none := by
    intro k
    rw [init, PtrVector.get, List.getD_eq_getElem?_getD, List.getElem?_replicate]
    split_ifs <;> rfl
  refine ⟨⟨rfl, rfl, ?_, ?_, ?_, ?_, ?_⟩, ⟨?_, ?_, ?_⟩, ⟨?_, ?_, ?_, ?_, ?_, ?_, ?_, List.nodup_nil⟩⟩
  · intro i m hi
    cases hi
  · intro i j m hi
    cases hi
  · intro m hm
    cases hm
  · intro q hq
    cases hq
  · intro l₁ q l₂ hl
    have hne : l₁ ++ .done q :: l₂ ≠ [] := by simp
    exact absurd hl.symm hne
  · intro hne
    exact absurd rfl hne
  · intro hpos
    cases hpos
  · intro i m hi
    rcases hi with hi | hi <;> cases hi
  · intro r info hr
    cases hr
  · intro r hpos
    rw [hrefs] at hpos
    cases hpos
  · intro r info hr
    cases hr
  · intro k r hk
    rw [hvec] at hk
    cases hk
  · exact ⟨Nat.succ_ne_zero 15, dvd_refl 16⟩
  · intro r _
    rfl
  · intro r hr
    cases hr

lemma Inv.delivers (h : Inv s) : Delivers s where
  order := h.queued.order
  once := h.queued.once
  done_after := h.queued.done_after
  awake := h.workers.awake
  quiet hb hs m hm := by
    have hevents : s.events = 0 := by
      by_contra hpos
      obtain ⟨i, hi⟩ := h.workers.roused (Nat.pos_of_ne_zero hpos)
      exact hi (hb i)
    have hfifo : s.msgFifo = [] := by
      by_contra hne
      rcases h.workers.awake hne with ⟨i, hi⟩ | hpos | hpos
      · rw [hb i] at hi
        cases hi
      · omega
      · omega
    rw [h.queued.once m hm, if_neg]
    rintro (hmem | ⟨i, hi⟩)
    · rw [hfifo] at hmem
      cases hmem
    · rw [hb i] at hi
      cases hi
  refCnt := h.counted.refCnt
  kept := h.counted.kept
  listed := h.counted.listed
  indexed k r hk := by
    obtain ⟨info, hr, -⟩ := h.counted.indexed k r hk
    rw [hr]
    rfl

/-- Every accepted message is delivered once and none is stranded, as long as no growth of the vector fails
in `cl_disp_register`. -/
theorem run_delivers (hw : 0 < w) {l : List (Disp w × Action w)} {s : Disp w} (h : Run step (init w) l s)
    (hl : ∀ x ∈ l, Grows x.1 x.2) : Delivers s := by
  have hinv : Inv s := h.invariant inv_init (fun _ _ _ hi ha hs => hi.step hw ha hs) hl
  exact hinv.delivers

instance (s : Disp w) (a : Action w) : Decidable (Grows s a) :=
  match a with
  | .register msgId regAlloc vecAlloc =>
    inferInstanceAs (Decidable (regAlloc → msgId ≠ msgidNone → (msgId < _ ∨ msgId < _) ∨ vecAlloc))
  | .clear _ _ | .drain _ | .free _ | .post _ _ _ _ | .signal _ | .test _ | .wake _ | .next _ | .call _
  | .release _
  | .notify _ | .releaseSrc _ => isTrue trivial

/-- A client registers for 20 and posts to itself, with notice; a worker takes the message through. -/
def lifetime (i : Fin w) : List (Action w) :=
  [.test i, .register 20 true true, .post 0 20 true true, .signal (some i), .test i, .next i, .call i, .release i,
    .notify i, .releaseSrc i, .next i, .clear 0 true, .drain 0, .free 0]

theorem run_delivers_lifetime : ∃ l s, Run step (init 1) l s ∧ (∀ x ∈ l, Grows x.1 x.2) ∧
    s.log = [.receive 0, .done 0] ∧ s.reg 0 = none ∧ Delivers s := by
  obtain ⟨l, s, h, hp, hl⟩ := Run.of_exec step (init 1) (lifetime 0)
    (fun s => decide (s.log = [.receive 0, .done 0] ∧ s.reg 0 = none)) (fun x => decide (Grows x.1 x.2))
    (by decide +kernel) (by decide +kernel)
  have hgrows : ∀ x ∈ l, Grows x.1 x.2 := fun x hx => of_decide_eq_true (hl x hx)
  obtain ⟨hlog, hreg⟩ := of_decide_eq_true hp
  exact ⟨l, s, h, hgrows, hlog, hreg, run_delivers one_pos h hgrows⟩

/-- The registration is freed while it is in the list. -/
theorem freed_in_list : ∃ l s, Run (step (w := 1)) (init 1) l s ∧ 0 ∈ s.regList ∧ s.reg 0 = none ∧
    ¬Delivers s := by
  obtain ⟨l, s, h, hp, -⟩ := Run.of_exec step (init 1) [.register 20 true false]
    (fun s => decide (0 ∈ s.regList ∧ s.reg 0 = none)) (fun _ => true) (by decide +kernel) (by decide +kernel)
  obtain ⟨hlist, hreg⟩ := of_decide_eq_true hp
  refine ⟨l, s, h, hlist, hreg, fun hd => ?_⟩
  have hsome := hd.listed 0 hlist
  rw [hreg] at hsome
  cases hsome

end Run

end OpenSM.Dispatcher
