import OpenSM.DnUpSearch
import OpenSM.UpDnLegal

/-! The search from one switch. It ends and has every switch in its list at most once, whatever the directions are.
Where it comes to every switch in time to go on up, it finds the switches by their first words. -/

namespace OpenSM.UpDn

open Lib.Drive Lib.FirstWord Switch DnUp

variable {n m : ℕ} {f : Fabric n m} {rank id : Fin n → ℕ}

section Ports

variable {b b' : Bfs n} {lid p q x : ℕ} {u r : Fin n} {dir : SwitchDir}

lemma Bfs.offer_hops : (b.offer f lid r q dir x).hops = (setHops f b.hops r lid q (x + 1)).1 := by
  rw [Bfs.offer]
  split_ifs <;> rfl

lemma Bfs.offer_visited (h : b.visited r = true) : (b.offer f lid r q dir x).list = b.list ∧
    (b.offer f lid r q dir x).dir = b.dir ∧ (b.offer f lid r q dir x).visited = b.visited := by
  rw [Bfs.offer, if_pos h]
  exact ⟨rfl, rfl, rfl⟩

lemma Bfs.offer_fresh (h : b.visited r = false) : (b.offer f lid r q dir x).list = b.list ++ [r] ∧
    (b.offer f lid r q dir x).dir = Function.update b.dir r dir ∧
      (b.offer f lid r q dir x).visited = Function.update b.visited r true := by
  have hne : ¬b.visited r = true := by
    rw [h]
    exact Bool.false_ne_true
  rw [Bfs.offer, if_neg hne]
  exact ⟨rfl, rfl, rfl⟩

lemma bfsPort_cases (f : Fabric n m) (rank id : Fin n → ℕ) (lid : ℕ) (u : Fin n) (dir : SwitchDir)
    (b : Bfs n) (p : ℕ) :
    (bfsPort f rank id lid u dir b p = b ∧ ∀ r q, f.remote u p = some (.sw r q) →
      dir = .down ∧ stepDir rank id u r = .up ∨
        getHopCount f b.hops r lid q ≤ getLeastHops f b.hops u lid + 1) ∨
    ∃ r q, f.remote u p = some (.sw r q) ∧ ¬(dir = .down ∧ stepDir rank id u r = .up) ∧
      getLeastHops f b.hops u lid + 1 < getHopCount f b.hops r lid q ∧
      bfsPort f rank id lid u dir b p = b.offer f lid r q (stepDir rank id u r) (getLeastHops f b.hops u lid) := by
  rw [bfsPort]
  rcases hr : f.remote u p with _ | (⟨r, q⟩ | ⟨e, q⟩)
  · refine .inl ⟨rfl, fun r q h => ?_⟩
    cases h
  · dsimp only
    split_ifs with hdir hlt
    · refine .inl ⟨rfl, fun r' q' h => ?_⟩
      cases h
      exact .inl hdir
    · exact .inr ⟨r, q, rfl, hdir, hlt, rfl⟩
    · refine .inl ⟨rfl, fun r' q' h => ?_⟩
      cases h
      exact .inr (not_lt.mp hlt)
  · refine .inl ⟨rfl, fun r q h => ?_⟩
    cases h

/-- The switches that are marked are those of the list, and it has none of them twice. -/
def Bfs.Marked (b : Bfs n) : Prop := (∀ v, b.visited v = true ↔ v ∈ b.list) ∧ b.list.Nodup

lemma Bfs.Marked.offer (h : b.Marked) : (b.offer f lid r q dir x).Marked := by
  cases hv : b.visited r with
  | true =>
    obtain ⟨hlist, -, hvis⟩ := @Bfs.offer_visited n m f b lid q x r dir hv
    rw [Bfs.Marked, hlist, hvis]
    exact h
  | false =>
    obtain ⟨hlist, -, hvis⟩ := @Bfs.offer_fresh n m f b lid q x r dir hv
    have hmem : r ∉ b.list := fun hmem => by
      rw [(h.1 r).mpr hmem] at hv
      cases hv
    rw [Bfs.Marked, hlist, hvis]
    refine ⟨fun v => ?_, ?_⟩
    · rw [Function.update_apply, List.mem_append, List.mem_singleton]
      split_ifs with hvr
      · exact iff_of_true rfl (.inr hvr)
      · rw [h.1 v, or_iff_left hvr]
    · refine List.nodup_append.mpr ⟨h.2, List.nodup_singleton r, fun v hv w hw => ?_⟩
      rw [List.mem_singleton.mp hw]
      exact fun heq => hmem (heq ▸ hv)

lemma Bfs.Marked.port (h : b.Marked) : (bfsPort f rank id lid u dir b p).Marked := by
  rcases bfsPort_cases f rank id lid u dir b p with ⟨heq, -⟩ | ⟨r, q, -, -, -, heq⟩
  · rw [heq]
    exact h
  · rw [heq]
    exact h.offer

lemma Bfs.Marked.ports (h : b.Marked) (l : List ℕ) : (l.foldl (bfsPort f rank id lid u dir) b).Marked := by
  induction l generalizing b with
  | nil => exact h
  | cons p l ih => exact ih h.port

def Bfs.pop (b : Bfs n) (u : Fin n) (rest : List (Fin n)) : Bfs n :=
  { b with list := rest, visited := Function.update b.visited u false }

lemma bfsBody_some (h : bfsBody f rank id lid b = some b') : ∃ u rest, b.list = u :: rest ∧
    b' = (DnUp.ports f u).foldl (bfsPort f rank id lid u (b.dir u)) (b.pop u rest) := by
  cases hl : b.list with
  | nil =>
    rw [bfsBody, hl] at h
    cases h
  | cons u rest =>
    rw [bfsBody, hl] at h
    exact ⟨u, rest, rfl, (Option.some.inj h).symm⟩

lemma bfsBody_none (h : bfsBody f rank id lid b = none) : b.list = [] := by
  cases hl : b.list with
  | nil => rfl
  | cons u rest =>
    rw [bfsBody, hl] at h
    cases h

/-- Between two turns the head of the list need not be marked: the first switch is not. -/
structure Bfs.Once (b : Bfs n) : Prop where
  nodup : b.list.Nodup
  mem : ∀ v, b.visited v = true → v ∈ b.list
  tail : ∀ v ∈ b.list.tail, b.visited v = true

lemma Bfs.Marked.once (h : b.Marked) : b.Once :=
  ⟨h.2, fun v => (h.1 v).mp, fun v hv => (h.1 v).mpr (List.mem_of_mem_tail hv)⟩

lemma Bfs.Once.pop {rest : List (Fin n)} (h : b.Once) (hl : b.list = u :: rest) : (b.pop u rest).Marked := by
  obtain ⟨hnodup, hmem, htail⟩ := h
  rw [hl] at hnodup htail
  obtain ⟨hu, hrest⟩ := List.nodup_cons.mp hnodup
  refine ⟨fun v => ?_, hrest⟩
  change Function.update b.visited u false v = true ↔ v ∈ rest
  by_cases hv : v = u
  · rw [hv, Function.update_self]
    exact iff_of_false Bool.false_ne_true hu
  · rw [Function.update_of_ne hv]
    constructor
    · intro hvis
      have hv' := hmem v hvis
      rw [hl] at hv'
      exact (List.mem_cons.mp hv').resolve_left hv
    · exact htail v

lemma Bfs.Once.body (h : b.Once) (hb : bfsBody f rank id lid b = some b') : b'.Once := by
  obtain ⟨u, rest, hl, rfl⟩ := bfsBody_some hb
  exact ((h.pop hl).ports _).once

def work (f : Fabric n m) (lid : ℕ) (b : Bfs n) : ℕ :=
  (∑ v, ∑ q ∈ Finset.range 256, getHopCount f b.hops v lid q) + b.list.length

lemma work_port (hl : 0 < lid) (hm : ∀ r, lid ≤ f.maxLidHo r) :
    work f lid (bfsPort f rank id lid u dir b p) ≤ work f lid b := by
  rcases bfsPort_cases f rank id lid u dir b p with ⟨heq, -⟩ | ⟨r, q, hr, -, hlt, heq⟩
  · rw [heq]
  · have hq := f.remote_port _ _ _ (f.remote_symm _ _ _ _ hr)
    have hsum := sum_setHops_lt hl (hm r) hq.1 hq.2 hlt
    have hlen : (b.offer f lid r q (stepDir rank id u r) (getLeastHops f b.hops u lid)).list.length ≤
        b.list.length + 1 := by
      cases hv : b.visited r with
      | true =>
        rw [(Bfs.offer_visited hv).1]
        exact Nat.le_succ _
      | false => rw [(Bfs.offer_fresh hv).1, List.length_append, List.length_singleton]
    rw [heq, work, work, Bfs.offer_hops]
    omega

lemma work_ports (hl : 0 < lid) (hm : ∀ r, lid ≤ f.maxLidHo r) (l : List ℕ) (b : Bfs n) :
    work f lid (l.foldl (bfsPort f rank id lid u dir) b) ≤ work f lid b := by
  induction l generalizing b with
  | nil => exact le_rfl
  | cons p l ih => exact (ih _).trans (work_port hl hm)

lemma work_body (hl : 0 < lid) (hm : ∀ r, lid ≤ f.maxLidHo r) (hb : bfsBody f rank id lid b = some b') :
    work f lid b' < work f lid b := by
  obtain ⟨u, rest, hlist, rfl⟩ := bfsBody_some hb
  apply (work_ports hl hm _ _).trans_lt
  rw [work, work, hlist]
  exact Nat.lt_succ_self _

lemma same_ports (l : List ℕ) (b : Bfs n) : Same f lid b.hops (l.foldl (bfsPort f rank id lid u dir) b).hops := by
  induction l generalizing b with
  | nil => exact fun _ _ _ _ => rfl
  | cons p l ih =>
    intro v l' q' hl'
    rw [List.foldl_cons, ih _ v l' q' hl']
    rcases bfsPort_cases f rank id lid u dir b p with ⟨heq, -⟩ | ⟨r, q, -, -, -, heq⟩
    · rw [heq]
    · rw [heq, Bfs.offer_hops]
      exact same_setHops r q _ v l' q' hl'

lemma same_body (hb : bfsBody f rank id lid b = some b') : Same f lid b.hops b'.hops := by
  obtain ⟨u, rest, -, rfl⟩ := bfsBody_some hb
  exact same_ports (DnUp.ports f u) (b.pop u rest)

end Ports

section Search

variable (f) (rank) (id) (d : Fin n)

/-- The rows for `d` after the switches of `P` have had their first turn and the steps in `S` have been tried. -/
structure Search (P : Fin n → Prop) (S : Fin n → ℕ → Prop) (b : Bfs n) : Prop where
  frontier : Frontier (Step f rank id d) d noPath (fun v => getLeastHops f b.hops v (f.lid d) < noPath) P S b.list
  level : ∀ v x, getLeastHops f b.hops v (f.lid d) < noPath → First (Step f rank id d) d x v →
    getLeastHops f b.hops v (f.lid d) = x.length
  le : ∀ v, getLeastHops f b.hops v (f.lid d) ≤ noPath
  settled : ∀ v q u p x, f.remote v q = some (.sw u p) → S u p → Step f rank id d u p v →
    First (Step f rank id d) d x u → getHopCount f b.hops v (f.lid d) q = min noPath (x.length + 1)
  blank : ∀ v q, q ≠ 0 → (∀ u p, f.remote v q = some (.sw u p) → S u p → ¬Step f rank id d u p v) →
    getHopCount f b.hops v (f.lid d) q = noPath
  up : ∀ v ∈ b.list, b.dir v = .up → Free f rank id d v
  timely : ∀ v ∈ b.list, ¬P v → Free f rank id d v → HasUp f rank id v → b.dir v = .up

variable {f} {rank} {id} {d} {P : Fin n → Prop} {S S' : Fin n → ℕ → Prop} {b b' : Bfs n} {u r : Fin n} {p q : ℕ}
  {x : List ℕ} {dir : SwitchDir}

lemma Search.congr (h : Search f rank id d P S b) (hle : ∀ v p, S v p → S' v p) (hP : ∀ v p, S' v p → P v)
    (hge : ∀ v p w q, S' v p → f.remote v p = some (.sw w q) → S v p) : Search f rank id d P S' b := by
  refine { h with
    frontier := h.frontier.congr hle hP fun v p w hS hstep => ?_
    settled := fun v q u p x hr hS => h.settled v q u p x hr (hge u p v q hS (f.remote_symm _ _ _ _ hr))
    blank := fun v q hq hno => h.blank v q hq fun u p hr hS => hno u p hr (hle u p hS) }
  obtain ⟨⟨q, hq⟩, -⟩ := hstep
  exact hge v p w q hS hq

lemma step_det (u : Fin n) (p : ℕ) (v w : Fin n) (hv : Step f rank id d u p v)
    (hw : Step f rank id d u p w) : v = w :=
  hv.unique hw

lemma step_of_allowed (hr : f.remote u p = some (.sw r q)) (hup : dir = .up → Free f rank id d u)
    (hdir : ¬(dir = .down ∧ stepDir rank id u r = .up)) : Step f rank id d u p r := by
  refine ⟨⟨q, hr⟩, ?_⟩
  rcases dir.eq_up_or_down with h | h
  · exact .inl (hup h)
  · exact .inr ((stepDir rank id u r).eq_up_or_down.resolve_left fun hs => hdir ⟨h, hs⟩)

lemma free_of_allowed (hr : f.remote u p = some (.sw r q)) (hup : dir = .up → Free f rank id d u)
    (hdir : ¬(dir = .down ∧ stepDir rank id u r = .up)) (h : stepDir rank id u r = .up) : Free f rank id d r := by
  obtain ⟨x, hx⟩ := hup (dir.eq_up_or_down.resolve_right fun hdown => hdir ⟨hdown, h⟩)
  have hlast := hx.snoc hr fun hdown => by cases hdown.1
  rw [h] at hlast
  exact ⟨_, hlast⟩

lemma not_step (hr : f.remote u p = some (.sw r q)) (htimely : Free f rank id d u → HasUp f rank id u → dir = .up)
    (hdir : dir = .down ∧ stepDir rank id u r = .up) : ¬Step f rank id d u p r := by
  rintro ⟨-, hfree | hdown⟩
  · have hup := htimely hfree ⟨p, r, q, hr, hdir.2⟩
    rw [hdir.1] at hup
    cases hup
  · rw [hdir.2] at hdown
    cases hdown

lemma timely_of_first (ht : Timely f rank id d) (hx : First (Step f rank id d) d (x ++ [p]) r)
    (hu : First (Step f rank id d) d x u) (hfree : Free f rank id d r) (hhas : HasUp f rank id r) :
    stepDir rank id u r = .up := by
  obtain ⟨dir, hlegal, hdir⟩ := first_legal ht hx
  obtain ⟨dir', w, q, hw, -, hlast⟩ := hlegal.inv_snoc
  have hend := hw.walk.end_eq step_det hu.walk
  rw [← hend, ← hlast]
  exact hdir hfree hhas

section Offer

variable (hf : Ready f) (h : Search f rank id d P S b) (hr : f.remote u p = some (.sw r q))
  (hx : First (Step f rank id d) d x u) (hnew : ¬S u p) (hcap : x.length + 1 < noPath)

include hf hr in
lemma getHopCount_offer (y : ℕ) (v : Fin n) (q' : ℕ) :
    getHopCount f (setHops f b.hops r (f.lid d) q y).1 v (f.lid d) q' =
      if v = r ∧ q' = 0 then min (getLeastHops f b.hops r (f.lid d)) y
      else if v = r ∧ q' = q then y else getHopCount f b.hops v (f.lid d) q' := by
  have hq := f.remote_port _ _ _ (f.remote_symm _ _ _ _ hr)
  rw [getHopCount_setHops (hf.lid_pos d) (hf.lid_le r d) hq.2, if_neg hq.1.ne']
  by_cases hv : v = r
  · subst hv
    simp only [true_and, and_true, if_true, getLeastHops]
  · simp only [hv, false_and, if_false]

include hf h hr hx hnew hcap in
lemma Search.entries : (∀ v q' u' p' y, f.remote v q' = some (.sw u' p') → S u' p' ∨ u' = u ∧ p' = p →
      Step f rank id d u' p' v → First (Step f rank id d) d y u' →
      getHopCount f (setHops f b.hops r (f.lid d) q (x.length + 1)).1 v (f.lid d) q' = min noPath (y.length + 1)) ∧
    ∀ v q', q' ≠ 0 → (∀ u' p', f.remote v q' = some (.sw u' p') → S u' p' ∨ u' = u ∧ p' = p →
      ¬Step f rank id d u' p' v) → Step f rank id d u p r →
      getHopCount f (setHops f b.hops r (f.lid d) q (x.length + 1)).1 v (f.lid d) q' = noPath := by
  have hback := f.remote_symm _ _ _ _ hr
  constructor
  · intro v q' u' p' y hr' hS hstep hy
    rw [getHopCount_offer hf hr, if_neg fun h0 => (f.remote_port _ _ _ hr').1.ne' h0.2]
    split_ifs with hv
    · obtain ⟨rfl, rfl⟩ := hv
      rw [hback] at hr'
      cases hr'
      rw [hy.unique hx, min_eq_right hcap.le]
    · refine h.settled v q' u' p' y hr' (hS.resolve_right ?_) hstep hy
      rintro ⟨rfl, rfl⟩
      rw [f.remote_symm _ _ _ _ hr'] at hr
      cases hr
      exact hv ⟨rfl, rfl⟩
  · intro v q' hq' hno hstep
    rw [getHopCount_offer hf hr, if_neg fun h0 => hq' h0.2]
    split_ifs with hv
    · obtain ⟨rfl, rfl⟩ := hv
      exact absurd hstep (hno u p hback (.inr ⟨rfl, rfl⟩))
    · exact h.blank v q' hq' fun u' p' hr' hS => hno u' p' hr' (.inl hS)

end Offer

lemma Search.skip (h : Search f rank id d P S b) (hu : P u) (hx : First (Step f rank id d) d x u) (hnew : ¬S u p)
    (hno : ∀ r, Step f rank id d u p r → noPath ≤ x.length + 1) :
    Search f rank id d P (fun v p' => S v p' ∨ v = u ∧ p' = p) b := by
  refine { h with
    frontier := h.frontier.look hu hx fun r hr hlt => absurd (hno r hr) (not_le.mpr hlt)
    settled := ?_
    blank := fun v q hq hall => h.blank v q hq fun u' p' hr hS => hall u' p' hr (.inl hS) }
  rintro v q u' p' y hr (hS | ⟨rfl, rfl⟩) hstep hy
  · exact h.settled v q u' p' y hr hS hstep hy
  · rw [hy.unique hx, min_eq_left (hno v hstep)]
    refine h.blank v q (f.remote_port _ _ _ hr).1.ne' fun u₁ p₁ hr₁ hS₁ => ?_
    rw [hr] at hr₁
    cases hr₁
    exact absurd hS₁ hnew

/-- A step to a switch that has been found before gives it one more port. -/
lemma Search.again (hf : Ready f) (h : Search f rank id d P S b) (hm : b.Marked) (hu : P u)
    (hr : f.remote u p = some (.sw r q)) (hx : First (Step f rank id d) d x u) (hnew : ¬S u p)
    (hcap : x.length + 1 < noPath) (hstep : Step f rank id d u p r) (hfree : dir = .up → Free f rank id d r)
    (hfound : getLeastHops f b.hops r (f.lid d) < noPath) :
    Search f rank id d P (fun v p' => S v p' ∨ v = u ∧ p' = p) (b.offer f (f.lid d) r q dir x.length) := by
  obtain ⟨y, hy, -⟩ := h.frontier.first r hfound
  have hyx : y.length ≤ x.length + 1 := by
    have hle := hy.length_le (hx.walk.snoc hstep)
    rwa [List.length_append, List.length_singleton] at hle
  have hleast : ∀ v, getLeastHops f (b.offer f (f.lid d) r q dir x.length).hops v (f.lid d) =
      getLeastHops f b.hops v (f.lid d) := by
    intro v
    rw [Bfs.offer_hops, getLeastHops, getHopCount_offer hf hr]
    have hqv := (f.remote_port _ _ _ (f.remote_symm _ _ _ _ hr)).1.ne
    split_ifs with hv hv
    · rw [hv.1, min_eq_left ((h.level r y hfound hy).trans_le hyx)]
    · exact absurd hv.2 hqv
    · rfl
  have hlook : Frontier (Step f rank id d) d noPath (fun v => getLeastHops f b.hops v (f.lid d) < noPath) P
      (fun v p' => S v p' ∨ v = u ∧ p' = p) b.list :=
    h.frontier.look hu hx fun r' hr' _ => hr'.unique hstep ▸ hfound
  obtain ⟨hsettled, hblank⟩ := h.entries hf hr hx hnew hcap
  rw [← @Bfs.offer_hops n m f b (f.lid d) q x.length r dir] at hsettled hblank
  cases hv : b.visited r with
  | true =>
    obtain ⟨hlist, hdir, -⟩ := @Bfs.offer_visited n m f b (f.lid d) q x.length r dir hv
    refine ⟨?_, ?_, ?_, hsettled, fun v q' hq' hno => hblank v q' hq' hno hstep, ?_, ?_⟩
    · simp only [hleast, hlist]
      exact hlook
    · simp only [hleast]
      exact h.level
    · simp only [hleast]
      exact h.le
    · rw [hlist, hdir]
      exact h.up
    · rw [hlist, hdir]
      exact h.timely
  | false =>
    obtain ⟨hlist, hdir, -⟩ := @Bfs.offer_fresh n m f b (f.lid d) q x.length r dir hv
    have hmem : r ∉ b.list := fun hmem => by
      rw [(hm.1 r).mpr hmem] at hv
      cases hv
    have hP : P r := (h.frontier.complete r hfound).resolve_right hmem
    refine ⟨?_, ?_, ?_, hsettled, fun v q' hq' hno => hblank v q' hq' hno hstep, ?_, ?_⟩
    · simp only [hleast, hlist]
      exact hlook.requeue hP
    · simp only [hleast]
      exact h.level
    · simp only [hleast]
      exact h.le
    · rw [hlist, hdir]
      intro v hv
      rw [Function.update_apply, List.mem_append, List.mem_singleton] at *
      split_ifs with hvr
      · rw [hvr]
        exact hfree
      · exact h.up v (hv.resolve_right hvr)
    · rw [hlist, hdir]
      intro v hv hPv
      have hvr : v ≠ r := fun heq => hPv (heq ▸ hP)
      rw [Function.update_of_ne hvr]
      rw [List.mem_append, List.mem_singleton] at hv
      exact h.timely v (hv.resolve_right hvr) hPv

/-- A step to a new switch puts it at the end of the list. -/
lemma Search.find (hf : Ready f) (ht : Timely f rank id d) (h : Search f rank id d P S b) (hm : b.Marked)
    (hn : Frontier.Next (Step f rank id d) d P S u x p) (hr : f.remote u p = some (.sw r q))
    (hcap : x.length + 1 < noPath) (hstep : Step f rank id d u p r)
    (hfree : stepDir rank id u r = .up → Free f rank id d r) (hnew : ¬getLeastHops f b.hops r (f.lid d) < noPath) :
    Search f rank id d P (fun v p' => S v p' ∨ v = u ∧ p' = p)
      (b.offer f (f.lid d) r q (stepDir rank id u r) x.length) := by
  have hrx : First (Step f rank id d) d (x ++ [p]) r := h.frontier.first_new step_det hn hstep hnew hcap
  have hleast : ∀ v, getLeastHops f (b.offer f (f.lid d) r q (stepDir rank id u r) x.length).hops v (f.lid d) =
      if v = r then x.length + 1 else getLeastHops f b.hops v (f.lid d) := by
    intro v
    rw [Bfs.offer_hops, getLeastHops, getHopCount_offer hf hr]
    have hqv := (f.remote_port _ _ _ (f.remote_symm _ _ _ _ hr)).1.ne
    by_cases hv : v = r
    · rw [if_pos ⟨hv, rfl⟩, if_pos hv, min_eq_right (hcap.le.trans (not_lt.mp hnew))]
    · rw [if_neg fun h => hv h.1, if_neg fun h => hv h.1, if_neg hv]
      rfl
  have hnot : ¬S u p := fun hS => lt_irrefl _ (hn.below p hS)
  obtain ⟨hsettled, hblank⟩ := h.entries hf hr hn.first hnot hcap
  rw [← @Bfs.offer_hops n m f b (f.lid d) q x.length r (stepDir rank id u r)] at hsettled hblank
  have hmem : r ∉ b.list := fun hmem => hnew (h.frontier.queued r hmem)
  have hv : b.visited r = false := by
    rw [← Bool.not_eq_true, hm.1 r]
    exact hmem
  obtain ⟨hlist, hdir, -⟩ := @Bfs.offer_fresh n m f b (f.lid d) q x.length r (stepDir rank id u r) hv
  have hfound : (fun v => getLeastHops f
      (b.offer f (f.lid d) r q (stepDir rank id u r) x.length).hops v (f.lid d) <
      noPath) = fun v => getLeastHops f b.hops v (f.lid d) < noPath ∨ v = r := by
    funext v
    rw [hleast]
    split_ifs with hv
    · exact propext (iff_of_true hcap (.inr hv))
    · exact propext (or_iff_left hv).symm
  refine ⟨?_, ?_, ?_, hsettled, fun v q' hq' hno => hblank v q' hq' hno hstep, ?_, ?_⟩
  · rw [hfound, hlist]
    exact h.frontier.find step_det hn hstep hrx hcap
  · intro v y
    rw [hleast]
    split_ifs with hv
    · subst hv
      intro _ hy
      rw [hy.unique hrx, List.length_append, List.length_singleton]
    · exact h.level v y
  · intro v
    rw [hleast]
    split_ifs with hv
    · exact hcap.le
    · exact h.le v
  · rw [hlist, hdir]
    intro v hv
    rw [List.mem_append, List.mem_singleton] at hv
    rw [Function.update_apply]
    split_ifs with hvr
    · rw [hvr]
      exact hfree
    · exact h.up v (hv.resolve_right hvr)
  · rw [hlist, hdir]
    intro v hv hP
    rw [List.mem_append, List.mem_singleton] at hv
    rw [Function.update_apply]
    split_ifs with hvr
    · rw [hvr]
      exact timely_of_first ht hrx hn.first
    · exact h.timely v (hv.resolve_right hvr) hP

lemma Search.port (hf : Ready f) (ht : Timely f rank id d) (h : Search f rank id d P S b) (hm : b.Marked)
    (hn : Frontier.Next (Step f rank id d) d P S u x p) (hfound : getLeastHops f b.hops u (f.lid d) < noPath)
    (hup : dir = .up → Free f rank id d u) (htimely : Free f rank id d u → HasUp f rank id u → dir = .up) :
    Search f rank id d P (fun v p' => S v p' ∨ v = u ∧ p' = p) (bfsPort f rank id (f.lid d) u dir b p) := by
  have hnot : ¬S u p := fun hS => lt_irrefl _ (hn.below p hS)
  have hlevel := h.level u x hfound hn.first
  have hentry : ∀ r q, f.remote u p = some (.sw r q) → getHopCount f b.hops r (f.lid d) q = noPath := by
    intro r q hr
    have hback := f.remote_symm _ _ _ _ hr
    refine h.blank r q (f.remote_port _ _ _ hback).1.ne' fun u' p' hr' hS' => ?_
    rw [hback] at hr'
    cases hr'
    exact absurd hS' hnot
  rcases bfsPort_cases f rank id (f.lid d) u dir b p with ⟨heq, hno⟩ | ⟨r, q, hr, hdir, hlt, heq⟩
  · rw [heq]
    refine h.skip hn.taken hn.first hnot fun r hstep => ?_
    obtain ⟨q, hr⟩ := hstep.1
    rcases hno r q hr with hdir | hle
    · exact absurd hstep (not_step hr htimely hdir)
    · rwa [hentry r q hr, hlevel] at hle
  · rw [heq, hlevel]
    rw [hentry r q hr, hlevel] at hlt
    have hstep := step_of_allowed hr hup hdir
    have hfree := free_of_allowed hr hup hdir
    by_cases hold : getLeastHops f b.hops r (f.lid d) < noPath
    · exact h.again hf hm hn.taken hr hn.first hnot hlt hstep hfree hold
    · exact h.find hf ht hm hn hr hlt hstep hfree hold

/-- The ports of a switch that has its first turn, in their order. -/
lemma Search.ports (hf : Ready f) (ht : Timely f rank id d) {k : ℕ}
    (h : Search f rank id d (fun v => P v ∨ v = u) (fun v p => P v ∨ v = u ∧ p < 1) b) (hm : b.Marked) (hu : ¬P u)
    (hx : First (Step f rank id d) d x u) (hlast : ∀ v y, P v → First (Step f rank id d) d y v → Before y x)
    (hearlier : ∀ v y, First (Step f rank id d) d y v → Before y x → P v)
    (hup : dir = .up → Free f rank id d u) (htimely : Free f rank id d u → HasUp f rank id u → dir = .up) :
    Search f rank id d (fun v => P v ∨ v = u) (fun v p => P v ∨ v = u ∧ p < 1 + k)
      ((List.range' 1 k).foldl (bfsPort f rank id (f.lid d) u dir) b) := by
  induction k with
  | zero => exact h
  | succ k ih =>
    rw [List.range'_1_concat, List.foldl_append]
    have hn : Frontier.Next (Step f rank id d) d (fun v => P v ∨ v = u) (fun v p => P v ∨ v = u ∧ p < 1 + k) u x
        (1 + k) := by
      refine ⟨hx, .inr rfl, ?_, fun v y p hy hlt => .inl (hearlier v y hy hlt), ?_,
          fun p v hlt _ => .inr ⟨rfl, hlt⟩⟩
      · rintro v y (hv | rfl) hy
        · exact .inr (hlast v y hv hy)
        · exact .inl rfl
      · rintro p (hv | hv)
        · exact absurd hv hu
        · exact hv.2
    refine (ih.port hf ht (hm.ports _) hn (ih.frontier.taken u (.inr rfl)) hup htimely).congr ?_ ?_ ?_
    · rintro v p ((hv | ⟨rfl, hp⟩) | ⟨rfl, rfl⟩)
      · exact .inl hv
      · exact .inr ⟨rfl, hp.trans (Nat.lt_succ_self _)⟩
      · exact .inr ⟨rfl, Nat.lt_succ_self _⟩
    · rintro v p (hv | ⟨rfl, -⟩)
      · exact .inl hv
      · exact .inr rfl
    · rintro v p w q (hv | ⟨rfl, hp⟩) -
      · exact .inl (.inl hv)
      · rcases (Nat.lt_succ_iff.mp hp).lt_or_eq with hlt | heq
        · exact .inl (.inr ⟨rfl, hlt⟩)
        · exact .inr ⟨rfl, heq⟩

/-- The first turn of a switch: all its steps are tried. -/
lemma Search.firstTurn {rest : List (Fin n)} (hf : Ready f) (ht : Timely f rank id d)
    (h : Search f rank id d P (fun v _ => P v) b) (ho : b.Once) (hl : b.list = u :: rest) (hu : ¬P u) :
    Search f rank id d (fun v => P v ∨ v = u) (fun v _ => P v ∨ v = u)
      ((DnUp.ports f u).foldl (bfsPort f rank id (f.lid d) u (b.dir u)) (b.pop u rest)) := by
  have hmem : u ∈ b.list := hl ▸ List.mem_cons_self
  have hfr := h.frontier
  rw [hl] at hfr
  obtain ⟨x, hx, -⟩ := hfr.first u (hfr.queued u List.mem_cons_self)
  have hrest : ∀ v ∈ rest, v ∈ b.list := fun v hv => hl ▸ List.mem_cons_of_mem u hv
  have hpop : Search f rank id d (fun v => P v ∨ v = u) (fun v _ => P v) (b.pop u rest) :=
    { h with
      frontier := hfr.take hu
      up := fun v hv => h.up v (hrest v hv)
      timely := fun v hv hP => h.timely v (hrest v hv) fun hv => hP (.inl hv) }
  have hstart : Search f rank id d (fun v => P v ∨ v = u) (fun v p => P v ∨ v = u ∧ p < 1) (b.pop u rest) := by
    refine hpop.congr (fun v p hv => .inl hv) ?_ ?_
    · rintro v p (hv | ⟨rfl, -⟩)
      · exact .inl hv
      · exact .inr rfl
    · rintro v p w q (hv | ⟨rfl, hp⟩) hr
      · exact hv
      · exact absurd hp (not_lt.mpr (f.remote_port _ _ _ hr).1)
  have hdone := @Search.ports n m f rank id d P (b.pop u rest) u x (b.dir u) hf ht (f.numPorts u - 1)
    hstart (ho.pop hl) hu hx (fun v y hv hy => hfr.after v u y x hv List.mem_cons_self hu hy hx)
    (fun v y hy hlt => hfr.earlier hu hx hy hlt) (h.up u hmem) (h.timely u hmem hu)
  refine hdone.congr ?_ (fun v p hv => hv) ?_
  · rintro v p (hv | ⟨rfl, -⟩)
    · exact .inl hv
    · exact .inr rfl
  · rintro v p w q (hv | rfl) hr
    · exact .inl hv
    · have hp := f.remote_port _ _ _ hr
      exact .inr ⟨rfl, by omega⟩

lemma Search.laterTurn {rest : List (Fin n)} (h : Search f rank id d P (fun v _ => P v) b)
    (hl : b.list = u :: rest)
    (hu : P u) :
    Search f rank id d P (fun v _ => P v)
      ((DnUp.ports f u).foldl (bfsPort f rank id (f.lid d) u (b.dir u)) (b.pop u rest)) := by
  have hmem : u ∈ b.list := hl ▸ List.mem_cons_self
  have hfr := h.frontier
  rw [hl] at hfr
  have hrest : ∀ v ∈ rest, v ∈ b.list := fun v hv => hl ▸ List.mem_cons_of_mem u hv
  have hpop : Search f rank id d P (fun v _ => P v) (b.pop u rest) :=
    { h with
      frontier := hfr.drop hu
      up := fun v hv => h.up v (hrest v hv)
      timely := fun v hv => h.timely v (hrest v hv) }
  obtain ⟨x, hx, -⟩ := hfr.first u (hfr.taken u hu)
  have hlevel := h.level u x (hfr.taken u hu) hx
  have hidle : ∀ p, bfsPort f rank id (f.lid d) u (b.dir u) (b.pop u rest) p = b.pop u rest := by
    intro p
    rcases bfsPort_cases f rank id (f.lid d) u (b.dir u) (b.pop u rest) p with ⟨heq, -⟩ | ⟨r, q, hr, hdir, hlt, -⟩
    · exact heq
    · have hstep := step_of_allowed hr (h.up u hmem) hdir
      rw [hpop.settled r q u p x (f.remote_symm _ _ _ _ hr) hu hstep hx, hpop.level u x (hfr.taken u hu) hx] at hlt
      exact absurd hlt (not_lt.mpr (min_le_right _ _))
  rw [List.foldl_fixed' hidle]
  exact hpop

lemma Search.body (hf : Ready f) (ht : Timely f rank id d)
    (h : Search f rank id d P (fun v _ => P v) b) (ho : b.Once)
    (hb : bfsBody f rank id (f.lid d) b = some b') : ∃ P', Search f rank id d P' (fun v _ => P' v) b' := by
  obtain ⟨u, rest, hl, rfl⟩ := bfsBody_some hb
  by_cases hu : P u
  · exact ⟨P, h.laterTurn hl hu⟩
  · exact ⟨_, h.firstTurn hf ht ho hl hu⟩

end Search

section Found

variable (f) (rank) (id) (d : Fin n)

def start (b : Bfs n) (s : Fin n) : Bfs n :=
  { b with
    hops := (setHops f b.hops s (f.lid s) 0 0).1
    dir := Function.update b.dir s .up
    list := [s] }

structure Found (H : Hops n) : Prop where
  level : ∀ v x, First (Step f rank id d) d x v → getLeastHops f H v (f.lid d) = min noPath x.length
  walk : ∀ v, getLeastHops f H v (f.lid d) ≠ noPath → ∃ x, First (Step f rank id d) d x v
  le : ∀ v, getLeastHops f H v (f.lid d) ≤ noPath
  next : ∀ v q, q ≠ 0 → getHopCount f H v (f.lid d) q ≠ noPath → ∃ u p, f.remote v q = some (.sw u p) ∧
    Step f rank id d u p v ∧ getHopCount f H v (f.lid d) q = getLeastHops f H u (f.lid d) + 1

variable {f} {rank} {id} {d} {b : Bfs n} {P : Fin n → Prop}

lemma Search.found (h : Search f rank id d P (fun v _ => P v) b) (hnil : b.list = []) :
    Found f rank id d b.hops := by
  have hfr := h.frontier
  rw [hnil] at hfr
  refine ⟨fun v x hx => ?_, fun v hv => ?_, h.le, fun v q hq hne => ?_⟩
  · by_cases hlt : x.length < noPath
    · rw [min_eq_right hlt.le]
      exact h.level v x (hfr.finished hx hlt) hx
    · have hge := not_lt.mp hlt
      rw [min_eq_left hge]
      refine le_antisymm (h.le v) (not_lt.mp fun hv => ?_)
      obtain ⟨y, hy, hcap⟩ := hfr.first v hv
      rw [hy.unique hx] at hcap
      exact hlt hcap
  · obtain ⟨x, hx, -⟩ := hfr.first v (lt_of_le_of_ne (h.le v) hv)
    exact ⟨x, hx⟩
  · by_cases hno : ∃ u p, f.remote v q = some (.sw u p) ∧ P u ∧ Step f rank id d u p v
    · obtain ⟨u, p, hr, hu, hstep⟩ := hno
      obtain ⟨x, hx, hcap⟩ := hfr.first u (hfr.taken u hu)
      have hentry := h.settled v q u p x hr hu hstep hx
      refine ⟨u, p, hr, hstep, ?_⟩
      rw [hentry, h.level u x (hfr.taken u hu) hx]
      exact min_eq_right hcap
    · exact absurd (h.blank v q hq fun u p hr hu hstep => hno ⟨u, p, hr, hu, hstep⟩) hne

lemma Search.start (hf : Ready f) (hblank : ∀ v q, getHopCount f b.hops v (f.lid d) q = noPath) :
    Search f rank id d (fun _ => False) (fun _ _ => False) (start f b d) := by
  have hget : ∀ v q, getHopCount f (UpDn.start f b d).hops v (f.lid d) q = if v = d ∧
      q = 0 then 0 else noPath := by
    intro v q
    rw [UpDn.start, getHopCount_setHops (hf.lid_pos d) (hf.lid_le d d) (f.numPorts_pos d), if_pos rfl,
        hblank, hblank]
    by_cases hv : v = d
    · by_cases hq : q = 0
      · rw [if_pos ⟨hv, rfl⟩, if_pos hq, if_pos ⟨hv, hq⟩]
      · rw [if_pos ⟨hv, rfl⟩, if_neg hq, if_neg hq, if_neg fun h => hq h.2]
    · rw [if_neg fun h => hv h.1, if_neg fun h => hv h.1]
  have hfound : (fun v => getLeastHops f (UpDn.start f b d).hops v (f.lid d) < noPath) = (· = d) := by
    funext v
    rw [getLeastHops, hget]
    split_ifs with hv
    · exact propext (iff_of_true (by decide) hv.1)
    · exact propext (iff_of_false (lt_irrefl _) fun h => hv ⟨h, rfl⟩)
  refine ⟨?_, fun v x hv hx => ?_, fun v => ?_, fun _ _ _ _ _ _ h => h.elim, fun v q hq _ => ?_, ?_, ?_⟩
  · rw [hfound]
    exact frontier_start (by decide)
  · obtain rfl : v = d := by
      have hv' := congrFun hfound v
      exact hv'.mp hv
    rw [getLeastHops, hget, if_pos ⟨rfl, rfl⟩, hx.unique first_nil]
    rfl
  · rw [getLeastHops, hget]
    split_ifs
    · exact Nat.zero_le _
    · exact le_rfl
  · rw [hget, if_neg fun h => hq h.2]
  · intro v hv _
    obtain rfl := List.mem_singleton.mp hv
    exact ⟨[], .nil⟩
  · intro v hv _ _ _
    obtain rfl := List.mem_singleton.mp hv
    exact Function.update_self v SwitchDir.up b.dir

lemma once_start (hvis : ∀ v, b.visited v = false) : (start f b d).Once := by
  refine ⟨List.nodup_singleton d, fun v hv => ?_, fun v hv => absurd hv List.not_mem_nil⟩
  have hv' : b.visited v = true := hv
  rw [hvis v] at hv'
  cases hv'

/-- A search ends, whatever the directions are, and leaves the rows of other LIDs alone. In a search that is
timely the rows are those of the first words. -/
lemma bfsByNode_spec (hf : Ready f) (hvis : ∀ v, b.visited v = false)
    (hblank : ∀ v q, getHopCount f b.hops v (f.lid d) q = noPath) :
    ∃ b', bfsByNode f rank id b d = some b' ∧ (∀ v, b'.visited v = false) ∧ Same f (f.lid d) b.hops b'.hops ∧
      (Timely f rank id d → Found f rank id d b'.hops) := by
  have hwork : work f (f.lid d) (start f b d) ≤ bfsRounds n := by
    have hle : ∀ v q, getHopCount f (start f b d).hops v (f.lid d) q ≤ 256 := by
      intro v q
      rw [UpDn.start, getHopCount_setHops (hf.lid_pos d) (hf.lid_le d d) (f.numPorts_pos d), hblank,
          hblank, hblank]
      split_ifs <;> decide
    have hsum : ∑ v, ∑ q ∈ Finset.range 256, getHopCount f (start f b d).hops v (f.lid d) q ≤
        ∑ v : Fin n, 256 * 256 :=
      Finset.sum_le_sum fun v _ => (Finset.sum_le_card_nsmul _ _ 256 fun q _ => hle v q).trans (by simp)
    rw [Finset.sum_const, Finset.card_univ, Fintype.card_fin, smul_eq_mul, ← mul_assoc] at hsum
    exact Nat.succ_le_succ hsum
  have hbody : ∀ s s' : Bfs n, (s.Once ∧ Same f (f.lid d) b.hops s.hops ∧
        (Timely f rank id d → ∃ P, Search f rank id d P (fun v _ => P v) s)) →
      bfsBody f rank id (f.lid d) s = some s' → (s'.Once ∧ Same f (f.lid d) b.hops s'.hops ∧
        (Timely f rank id d → ∃ P, Search f rank id d P (fun v _ => P v) s')) ∧
          work f (f.lid d) s' < work f (f.lid d) s := by
    rintro s s' ⟨honce, hsame, hsearch⟩ hs
    refine ⟨⟨honce.body hs, fun v l q hl => ?_, fun ht => ?_⟩,
        work_body (hf.lid_pos d) (fun r => hf.lid_le r d) hs⟩
    · rw [same_body hs v l q hl, hsame v l q hl]
    · obtain ⟨P, hP⟩ := hsearch ht
      exact hP.body hf ht honce hs
  have hsame : Same f (f.lid d) b.hops (start f b d).hops := same_setHops d 0 0
  obtain ⟨t, ht, ⟨honce, hsame', hsearch⟩, hnone⟩ := drive_spec hbody (bfsRounds n)
    ⟨once_start hvis, hsame, fun _ => ⟨_, Search.start hf hblank⟩⟩ hwork
  have hnil := bfsBody_none hnone
  refine ⟨t, ht, fun v => ?_, hsame', fun htimely => ?_⟩
  · rw [← Bool.not_eq_true]
    intro hv
    have hmem := honce.mem v hv
    rw [hnil] at hmem
    exact List.not_mem_nil hmem
  · obtain ⟨P, hP⟩ := hsearch htimely
    exact hP.found hnil

end Found

end OpenSM.UpDn
