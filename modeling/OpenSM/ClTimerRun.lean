import OpenSM.ClTimer

/-! Timers fire in time and stay stopped, in runs without a few races that the code leaves open. -/

namespace OpenSM.ClTimer

open Lib.Runs Lib.TailInsert Timers

section Time

variable {a b c : Timespec} {now later : ℕ}

lemma isEarlier_iff : a.isEarlier b = true ↔ a.sec < b.sec ∨ a.sec = b.sec ∧ a.nsec < b.nsec := by
  simp only [Timespec.isEarlier, Bool.or_eq_true, Bool.and_eq_true, decide_eq_true_eq]

lemma not_isEarlier_trans (hab : ¬b.isEarlier a = true) (hbc : ¬c.isEarlier b = true) : ¬c.isEarlier a = true := by
  rw [isEarlier_iff] at *
  omega

lemma isEarlier_asymm (h : a.isEarlier b = true) : ¬b.isEarlier a = true := by
  rw [isEarlier_iff] at *
  omega

lemma isEarlier_of_le (hab : ¬b.isEarlier a = true) (hbc : b.isEarlier c = true) : a.isEarlier c = true := by
  rw [isEarlier_iff] at *
  omega

lemma calculate_mono (h : now ≤ later) : ¬(calculate later 0).isEarlier (calculate now 0) = true := by
  have hsmall : ∀ n : ℕ, n % 1000000 + 0 % 1000 * 1000 < 1000000 := fun n => by omega
  rw [calculate, calculate, if_neg (not_le.mpr (hsmall later)), if_neg (not_le.mpr (hsmall now)), isEarlier_iff]
  dsimp only
  omega

lemma calculate_passed (h : ¬(calculate now 0).isEarlier a = true) (hle : now ≤ later) :
    ¬(calculate later 0).isEarlier a = true :=
  not_isEarlier_trans h (calculate_mono hle)

end Time

section Insert

variable {τ : Type*} {timeout : τ → Timespec} {queue : List τ} {p : τ}

def Sorted (timeout : τ → Timespec) (queue : List τ) : Prop :=
  queue.Pairwise fun a b => ¬(timeout b).isEarlier (timeout a) = true

lemma insert_perm : (insert timeout queue p).Perm (p :: queue) := insertAfter_perm

lemma Sorted.insert (h : Sorted timeout queue) : Sorted timeout (insert timeout queue p) :=
  pairwise_insertAfter h (fun _ hx => isEarlier_asymm hx) (fun _ hx => Bool.eq_false_iff.mp hx)
    fun _ _ hxy hy => isEarlier_of_le hxy hy

lemma Sorted.erase [DecidableEq τ] (h : Sorted timeout queue) : Sorted timeout (queue.erase p) :=
  List.Pairwise.sublist List.erase_sublist h

lemma Sorted.update [DecidableEq τ] (h : Sorted timeout queue) (hp : p ∉ queue) (d : Timespec) :
    Sorted (Function.update timeout p d) queue := by
  refine h.imp_of_mem fun {a b} ha hb hab => ?_
  have hne : ∀ x ∈ queue, x ≠ p := by
    rintro x hx rfl
    exact hp hx
  rwa [Function.update_of_ne (hne a ha), Function.update_of_ne (hne b hb)]

end Insert

section Queue

variable {τ : Type*} {m : ℕ}

structure Queued (s : Timers τ m) : Prop where
  sorted : Sorted s.timeout s.queue
  nodup : s.queue.Nodup
  queued : ∀ p, p ∈ s.queue ↔ s.timerState p = .queued
  running : ∀ p, s.timerState p = .running → s.prov = .running p
  timed : ∀ p d, s.prov = .timed p d → s.timerState p = .queued ∧ s.timeout p = d

variable {s s' : Timers τ m} {p q : τ} {d : Timespec} {w : Option (Fin m)}

lemma signal_running : s.signal.prov = .running p ↔ s.prov = .running p := by
  rw [signal]
  dsimp only
  split <;> simp_all

lemma signal_expired : s.signal.prov = .expired p ↔ s.prov = .expired p := by
  rw [signal]
  dsimp only
  split <;> simp_all

lemma signal_timed : s.signal.prov ≠ .timed p d := by
  rw [signal]
  dsimp only
  split <;> simp_all

lemma sleep_running : s.sleep.prov ≠ .running p := by
  rw [sleep]
  dsimp only
  split <;> simp

lemma sleep_expired : s.sleep.prov ≠ .expired p := by
  rw [sleep]
  dsimp only
  split <;> simp

namespace Queued

lemma signal (h : Queued s) : Queued s.signal where
  sorted := h.sorted
  nodup := h.nodup
  queued := h.queued
  running p hp := signal_running.mpr (h.running p hp)
  timed _ _ hp := absurd hp signal_timed

lemma setCall (h : Queued s) (c : Call τ) : Queued (s.setCall w c) :=
  ⟨h.sorted, h.nodup, h.queued, h.running, h.timed⟩

lemma sleep (h : Queued s) (hno : ∀ p, s.timerState p ≠ .running) : Queued s.sleep where
  sorted := h.sorted
  nodup := h.nodup
  queued := h.queued
  running p hp := absurd hp (hno p)
  timed p d hp := by
    rw [Timers.sleep] at hp
    dsimp only at hp
    split at hp
    · cases hp
    · next q hq =>
      obtain ⟨rfl, rfl⟩ := Prov.timed.inj hp
      exact ⟨(h.queued q).mp (List.mem_of_mem_head? hq), rfl⟩

variable [DecidableEq τ]

lemma returned (h : Queued s) : Queued (s.returned w p) :=
  ⟨h.sorted, h.nodup, h.queued, h.running, h.timed⟩

lemma mem_erase (h : Queued s) : q ∈ s.queue.erase p ↔ q ≠ p ∧ s.timerState q = .queued := by
  rw [h.nodup.mem_erase_iff, h.queued]

lemma dequeue (h : Queued s) : Queued (s.dequeue p) where
  sorted := h.sorted.erase
  nodup := h.nodup.erase p
  queued q := by
    change q ∈ s.queue.erase p ↔ Function.update s.timerState p .idle q = .queued
    rw [h.mem_erase]
    by_cases hq : q = p
    · rw [hq, Function.update_self]
      exact iff_of_false (fun hn => hn.1 rfl) (by decide)
    · rw [Function.update_of_ne hq]
      exact and_iff_right hq
  running q hq := by
    change Function.update s.timerState p .idle q = .running at hq
    by_cases hqp : q = p
    · rw [hqp, Function.update_self] at hq
      cases hq
    · rw [Function.update_of_ne hqp] at hq
      exact signal_running.mpr (h.running q hq)
  timed _ _ hp := absurd hp signal_timed

lemma start (h : Queued s) (timeMs : ℕ) : Queued (s.start p timeMs) := by
  have hrest : (if s.timerState p = .queued then s.queue.erase p else s.queue) = s.queue.erase p := by
    split_ifs with hp
    · rfl
    · exact (List.erase_of_not_mem fun hm => hp ((h.queued p).mp hm)).symm
  have hfree : p ∉ s.queue.erase p := fun hm => (h.mem_erase.mp hm).1 rfl
  have hqueue : (s.start p timeMs).queue =
      insert (Function.update s.timeout p (calculate s.now timeMs)) (s.queue.erase p) p := by
    rw [← hrest]
    rfl
  constructor
  case sorted =>
    rw [hqueue]
    exact (h.sorted.erase.update hfree _).insert
  case nodup =>
    rw [hqueue, insert_perm.nodup_iff]
    exact List.nodup_cons.mpr ⟨hfree, h.nodup.erase p⟩
  case queued =>
    intro q
    change q ∈ (s.start p timeMs).queue ↔ Function.update s.timerState p .queued q = .queued
    rw [hqueue, insert_perm.mem_iff, List.mem_cons, h.mem_erase]
    by_cases hq : q = p
    · rw [hq, Function.update_self]
      exact iff_of_true (.inl rfl) rfl
    · rw [Function.update_of_ne hq]
      exact (or_iff_right hq).trans (and_iff_right hq)
  case running =>
    intro q hq
    change Function.update s.timerState p .queued q = .running at hq
    by_cases hqp : q = p
    · rw [hqp, Function.update_self] at hq
      cases hq
    · rw [Function.update_of_ne hqp] at hq
      exact signal_running.mpr (h.running q hq)
  case timed => exact fun _ _ hp => absurd hp signal_timed

lemma begin (h : Queued s) (hno : ∀ p, s.timerState p ≠ .running) : Queued (s.begin p) where
  sorted := h.sorted.erase
  nodup := h.nodup.erase p
  queued q := by
    change q ∈ s.queue.erase p ↔ Function.update s.timerState p .running q = .queued
    rw [h.mem_erase]
    by_cases hq : q = p
    · rw [hq, Function.update_self]
      exact iff_of_false (fun hn => hn.1 rfl) (by decide)
    · rw [Function.update_of_ne hq]
      exact and_iff_right hq
  running q hq := by
    change Function.update s.timerState p .running q = .running at hq
    by_cases hqp : q = p
    · rw [hqp]
      rfl
    · rw [Function.update_of_ne hqp] at hq
      exact absurd hq (hno q)
  timed _ _ hp := by cases hp

end Queued

end Queue

section Inv

variable {τ : Type*} {m : ℕ}

structure Counted (s : Timers τ m) : Prop where
  once : (s.begun.map fun b => (b.timer, b.serial)).Nodup
  old : ∀ b ∈ s.begun, b.serial ≤ s.starts b.timer ∧ (s.timerState b.timer = .queued → b.serial < s.starts b.timer)

structure Timely (s : Timers τ m) : Prop where
  expired : ∀ p, s.prov = .expired p → s.timerState p = .queued →
      ¬(calculate s.now 0).isEarlier (s.timeout p) = true
  begun : ∀ b ∈ s.begun, ¬(calculate b.time 0).isEarlier b.timeout = true

lemma Counted.congr {s s' : Timers τ m} (h : Counted s) (hb : s'.begun = s.begun) (hs : s'.starts = s.starts)
    (hq : ∀ q, s'.timerState q = .queued → s.timerState q = .queued) : Counted s' := by
  refine ⟨by rw [hb]; exact h.once, fun b hmem => ?_⟩
  rw [hb] at hmem
  obtain ⟨hle, hlt⟩ := h.old b hmem
  rw [hs]
  exact ⟨hle, fun hn => hlt (hq _ hn)⟩

variable [DecidableEq τ]

structure Stops (s : Timers τ m) : Prop where
  stopped : ∀ p, s.stopped p = true → s.prov ≠ .running p ∧ s.timerState p ≠ .queued
  blocked : ∀ w p n, s.call w = .blocked p n → s.prov = .running p ∧ s.runs p = n
  one : ∀ c c' p n n', s.call (some c) = .blocked p n → s.call (some c') = .blocked p n' → c = c'

structure Inv (s : Timers τ m) : Prop where
  queued : Queued s
  counted : Counted s
  timely : Timely s
  stops : Stops s

variable {s : Timers τ m} {p q : τ} {w : Option (Fin m)}

lemma Counted.start (h : Counted s) (timeMs : ℕ) : Counted (s.start p timeMs) := by
  refine ⟨h.once, fun b hb => ?_⟩
  obtain ⟨hle, hlt⟩ := h.old b hb
  change b.serial ≤ Function.update s.starts p (s.starts p + 1) b.timer ∧
    (Function.update s.timerState p .queued b.timer = .queued →
      b.serial < Function.update s.starts p (s.starts p + 1) b.timer)
  by_cases hp : b.timer = p
  · subst hp
    rw [Function.update_self]
    exact ⟨by omega, fun _ => by omega⟩
  · rw [Function.update_of_ne hp, Function.update_of_ne hp]
    exact ⟨hle, hlt⟩

lemma Counted.begin (h : Counted s) (hp : s.timerState p = .queued) : Counted (s.begin p) := by
  constructor
  case once =>
    refine List.nodup_cons.mpr ⟨fun hmem => ?_, h.once⟩
    obtain ⟨b, hb, heq⟩ := List.mem_map.mp hmem
    obtain ⟨rfl, hserial⟩ := Prod.mk.inj heq
    have hlt := (h.old b hb).2 hp
    change b.serial = s.starts b.timer at hserial
    omega
  case old =>
    intro b hb
    change b.serial ≤ s.starts b.timer ∧ (Function.update s.timerState p .running b.timer = .queued →
      b.serial < s.starts b.timer)
    by_cases hbp : b.timer = p
    · rw [hbp, Function.update_self]
      refine ⟨?_, fun hn => by cases hn⟩
      rcases List.mem_cons.mp hb with rfl | hb
      · exact le_rfl
      · rw [← hbp]
        exact (h.old b hb).1
    · rw [Function.update_of_ne hbp]
      rcases List.mem_cons.mp hb with rfl | hb
      · exact absurd rfl hbp
      · exact h.old b hb

lemma update_idle_queued {f : τ → TimerState} (h : Function.update f p .idle q = .queued) : q ≠ p ∧
    f q = .queued := by
  by_cases hq : q = p
  · rw [hq, Function.update_self] at h
    cases h
  · rw [Function.update_of_ne hq] at h
    exact ⟨hq, h⟩

lemma exists_blocked {c : Call τ} (h : c.blockedOn p = true) : ∃ n, c = .blocked p n := by
  cases c with
  | blocked q n =>
    obtain rfl : q = p := of_decide_eq_true h
    exact ⟨n, rfl⟩
  | none | trimming | woken => cases h

namespace Inv

lemma tick (h : Inv s) (us : ℕ) : Inv { s with now := s.now + us } where
  queued := ⟨h.queued.sorted, h.queued.nodup, h.queued.queued, h.queued.running, h.queued.timed⟩
  counted := ⟨h.counted.once, h.counted.old⟩
  timely := ⟨fun p hp hq => calculate_passed (h.timely.expired p hp hq) (Nat.le_add_right _ _), h.timely.begun⟩
  stops := ⟨h.stops.stopped, h.stops.blocked, h.stops.one⟩

lemma setCall (h : Inv s) {c : Call τ} (hc : ∀ p n, c ≠ .blocked p n) : Inv (s.setCall w c) where
  queued := h.queued.setCall c
  counted := ⟨h.counted.once, h.counted.old⟩
  timely := ⟨h.timely.expired, h.timely.begun⟩
  stops := by
    have hcall : ∀ {v p n}, (s.setCall w c).call v = .blocked p n → s.call v = .blocked p n := by
      intro v p n hv
      change Function.update s.call w c v = _ at hv
      by_cases hvw : v = w
      · rw [hvw, Function.update_self] at hv
        exact absurd hv (hc p n)
      · rwa [Function.update_of_ne hvw] at hv
    exact ⟨h.stops.stopped, fun v p n hv => h.stops.blocked v p n (hcall hv),
      fun _ _ _ _ _ hv hv' => h.stops.one _ _ _ _ _ (hcall hv) (hcall hv')⟩

/-- A thread begins to wait for a callback, and no other client does so for the same timer. -/
lemma block (h : Inv s) (hp : s.timerState p = .running)
    (hw : w.isSome → ∀ c, ¬(s.call (some c)).blockedOn p = true) : Inv (s.setCall w (.blocked p (s.runs p))) where
  queued := h.queued.setCall _
  counted := ⟨h.counted.once, h.counted.old⟩
  timely := ⟨h.timely.expired, h.timely.begun⟩
  stops := by
    have hcall : ∀ {v q n}, (s.setCall w (.blocked p (s.runs p))).call v = .blocked q n →
        (v = w ∧ q = p ∧ n = s.runs p) ∨ (v ≠ w ∧ s.call v = .blocked q n) := by
      intro v q n hv
      change Function.update s.call w (.blocked p (s.runs p)) v = _ at hv
      by_cases hvw : v = w
      · rw [hvw, Function.update_self] at hv
        obtain ⟨rfl, rfl⟩ := Call.blocked.inj hv
        exact .inl ⟨hvw, rfl, rfl⟩
      · rw [Function.update_of_ne hvw] at hv
        exact .inr ⟨hvw, hv⟩
    have hnone : ∀ {c n}, w.isSome → s.call (some c) ≠ .blocked p n := by
      intro c n hsome hn
      refine hw hsome c ?_
      rw [hn]
      exact decide_eq_true rfl
    refine ⟨h.stops.stopped, fun v q n hv => ?_, fun c c' q n n' hc hc' => ?_⟩
    · rcases hcall hv with ⟨-, rfl, rfl⟩ | ⟨-, hv⟩
      · exact ⟨h.queued.running q hp, rfl⟩
      · exact h.stops.blocked v q n hv
    · rcases hcall hc with ⟨heq, rfl, -⟩ | ⟨-, hold⟩
      · rcases hcall hc' with ⟨heq', -, -⟩ | ⟨-, hc'⟩
        · exact Option.some.inj (heq.trans heq'.symm)
        · exact absurd hc' (hnone (heq ▸ rfl))
      · rcases hcall hc' with ⟨heq', rfl, -⟩ | ⟨-, hc'⟩
        · exact absurd hold (hnone (heq' ▸ rfl))
        · exact h.stops.one c c' q n n' hold hc'

lemma signal (h : Inv s) : Inv s.signal where
  queued := h.queued.signal
  counted := ⟨h.counted.once, h.counted.old⟩
  timely := ⟨fun p hp hq => h.timely.expired p (signal_expired.mp hp) hq, h.timely.begun⟩
  stops := ⟨fun p hp => ⟨fun hr => (h.stops.stopped p hp).1 (signal_running.mp hr), (h.stops.stopped p hp).2⟩,
    fun w p n hw => ⟨signal_running.mpr (h.stops.blocked w p n hw).1, (h.stops.blocked w p n hw).2⟩, h.stops.one⟩

lemma dequeue (h : Inv s) : Inv (s.dequeue p) where
  queued := h.queued.dequeue
  counted := h.counted.congr rfl rfl fun _ hq => (update_idle_queued hq).2
  timely := ⟨fun q hq hs => h.timely.expired q (signal_expired.mp hq) (update_idle_queued hs).2, h.timely.begun⟩
  stops := by
    have hs := h.signal.stops
    exact ⟨fun q hq => ⟨(hs.stopped q hq).1, fun hn => (hs.stopped q hq).2 (update_idle_queued hn).2⟩,
        hs.blocked, hs.one⟩

lemma start (h : Inv s) {timeMs : ℕ} (hq : s.prov = .expired p → timeMs = 0) : Inv (s.start p timeMs) where
  queued := h.queued.start timeMs
  counted := h.counted.start timeMs
  timely := by
    refine ⟨fun q hexp hs => ?_, h.timely.begun⟩
    have hexp' : s.prov = .expired q := signal_expired.mp hexp
    change Function.update s.timerState p .queued q = .queued at hs
    change ¬(calculate s.now 0).isEarlier (Function.update s.timeout p (calculate s.now timeMs) q) = true
    by_cases hqp : q = p
    · subst hqp
      rw [Function.update_self, hq hexp']
      exact calculate_mono le_rfl
    · rw [Function.update_of_ne hqp] at hs ⊢
      exact h.timely.expired q hexp' hs
  stops := by
    have hs := h.signal.stops
    refine ⟨fun q hstop => ?_, hs.blocked, hs.one⟩
    change Function.update s.stopped p false q = true at hstop
    by_cases hqp : q = p
    · rw [hqp, Function.update_self] at hstop
      cases hstop
    · rw [Function.update_of_ne hqp] at hstop
      refine ⟨(hs.stopped q hstop).1, ?_⟩
      change Function.update s.timerState p .queued q ≠ .queued
      rw [Function.update_of_ne hqp]
      exact (hs.stopped q hstop).2

lemma returned (h : Inv s) (hw : w.isSome → s.prov ≠ .running p ∧ s.timerState p ≠ .queued) :
    Inv (s.returned w p) where
  queued := h.queued.returned
  counted := ⟨h.counted.once, h.counted.old⟩
  timely := ⟨h.timely.expired, h.timely.begun⟩
  stops := by
    refine ⟨fun q hq => ?_, h.stops.blocked, h.stops.one⟩
    change (if w.isSome then Function.update s.stopped p true else s.stopped) q = true at hq
    split_ifs at hq with hsome
    · by_cases hqp : q = p
      · rw [hqp]
        exact hw hsome
      · rw [Function.update_of_ne hqp] at hq
        exact h.stops.stopped q hq
    · exact h.stops.stopped q hq

lemma sleep (h : Inv s) (hno : ∀ p, s.timerState p ≠ .running) (hb : ∀ w p n, s.call w ≠ .blocked p n) :
    Inv s.sleep where
  queued := h.queued.sleep hno
  counted := ⟨h.counted.once, h.counted.old⟩
  timely := ⟨fun _ hp => absurd hp sleep_expired, h.timely.begun⟩
  stops := ⟨fun p hp => ⟨sleep_running, (h.stops.stopped p hp).2⟩, fun w p n hw => absurd hw (hb w p n),
    fun _ _ _ _ _ hw => absurd hw (hb _ _ _)⟩

lemma not_running (h : Inv s) (hp : ∀ p, s.prov ≠ .running p) (q : τ) : s.timerState q ≠ .running :=
  fun hq => hp q (h.queued.running q hq)

lemma not_blocked (h : Inv s) (hp : ∀ p, s.prov ≠ .running p) (v : Option (Fin m)) (q : τ) (n : ℕ) :
    s.call v ≠ .blocked q n :=
  fun hv => hp q (h.stops.blocked v q n hv).1

lemma expire (h : Inv s) {abstime : Timespec} (hp : s.prov = .timed p abstime)
    (hpassed : ¬(calculate s.now 0).isEarlier abstime = true) : Inv { s with prov := .expired p } := by
  obtain ⟨-, htime⟩ := h.queued.timed p abstime hp
  have hrun : ∀ q, s.prov ≠ .running q := by
    intro q hn
    rw [hp] at hn
    cases hn
  constructor
  case queued =>
    exact ⟨h.queued.sorted, h.queued.nodup, h.queued.queued, fun q hq => absurd hq (h.not_running hrun q),
      fun q d hq => by cases hq⟩
  case counted => exact ⟨h.counted.once, h.counted.old⟩
  case timely =>
    refine ⟨fun q hq _ => ?_, h.timely.begun⟩
    obtain rfl := Prov.expired.inj hq
    change ¬(calculate s.now 0).isEarlier (s.timeout p) = true
    rwa [htime]
  case stops =>
    exact ⟨fun q hq => ⟨fun hn => (by cases hn), (h.stops.stopped q hq).2⟩,
      fun v q n hv => absurd hv (h.not_blocked hrun v q n), h.stops.one⟩

lemma begin (h : Inv s) (hp : s.prov = .expired p) (hq : s.timerState p = .queued) : Inv (s.begin p) where
  queued := h.queued.begin (h.not_running fun q hn => by rw [hp] at hn; cases hn)
  counted := h.counted.begin hq
  timely := by
    refine ⟨fun _ hexp => (by cases hexp), fun b hb => ?_⟩
    rcases List.mem_cons.mp hb with rfl | hb
    · exact h.timely.expired p hp hq
    · exact h.timely.begun b hb
  stops := by
    have hnone := h.not_blocked fun q hn => by
      rw [hp] at hn
      cases hn
    refine ⟨fun q hstop => ?_, fun v q n hv => absurd hv (hnone v q n), h.stops.one⟩
    have hne : q ≠ p := by
      rintro rfl
      exact (h.stops.stopped q hstop).2 hq
    refine ⟨fun hn => hne (Prov.running.inj hn).symm, ?_⟩
    change Function.update s.timerState p .running q ≠ .queued
    rw [Function.update_of_ne hne]
    exact (h.stops.stopped q hstop).2

/-- After a callback the state of its timer is idle, or what the callback made of it. -/
lemma finish (h : Inv s) (hp : s.prov = .running p) :
    Inv (s.finish p) ∧ ∀ q, (s.finish p).timerState q ≠ .running := by
  have hrun : ∀ q, (s.finish p).timerState q ≠ .running := by
    intro q hq
    change (if s.timerState p = .running then Function.update s.timerState p .idle else s.timerState)
        q = .running at hq
    split_ifs at hq with hr
    · by_cases hqp : q = p
      · rw [hqp, Function.update_self] at hq
        cases hq
      · rw [Function.update_of_ne hqp] at hq
        have hpq := h.queued.running q hq
        rw [hp] at hpq
        exact hqp (Prov.running.inj hpq).symm
    · have hpq := h.queued.running q hq
      rw [hp] at hpq
      rw [← Prov.running.inj hpq] at hq
      exact hr hq
  have hqueued : ∀ q, (s.finish p).timerState q = .queued ↔ s.timerState q = .queued := by
    intro q
    change (if s.timerState p = .running then Function.update s.timerState p .idle else s.timerState) q =
        .queued ↔ _
    split_ifs with hr
    · by_cases hqp : q = p
      · rw [hqp, Function.update_self, hr]
        exact iff_of_false (by decide) (by decide)
      · rw [Function.update_of_ne hqp]
    · exact Iff.rfl
  refine ⟨⟨?_, h.counted.congr rfl rfl fun q hq => (hqueued q).mp hq, ?_, ?_⟩, hrun⟩
  · refine ⟨h.queued.sorted, h.queued.nodup, fun q => (h.queued.queued q).trans (hqueued q).symm,
      fun q hq => absurd hq (hrun q), fun q d hq => ?_⟩
    have hq' : s.prov = .timed q d := hq
    rw [hp] at hq'
    cases hq'
  · exact ⟨fun q hexp hq => h.timely.expired q hexp ((hqueued q).mp hq), h.timely.begun⟩
  · exact ⟨fun q hq => ⟨(h.stops.stopped q hq).1, fun hn => (h.stops.stopped q hq).2 ((hqueued q).mp hn)⟩,
      h.stops.blocked, h.stops.one⟩

end Inv

lemma Inv.finish_wake (h : Inv s) (hp : s.prov = .running p) (hnone : s.call none = .none) {c : Fin m}
    (hc : (s.call (some c)).blockedOn p = true) : Inv ((s.finish p).setCall (some c) (.woken p)).sleep := by
  obtain ⟨hfin, hrun⟩ := h.finish hp
  have hset : Inv ((s.finish p).setCall (some c) (.woken p)) := hfin.setCall fun _ _ hn => by cases hn
  refine hset.sleep hrun fun v q n hv => ?_
  have hpq := (hset.stops.blocked v q n hv).1
  have hpq' : s.prov = .running q := hpq
  rw [hp] at hpq'
  obtain rfl := Prov.running.inj hpq'
  change Function.update s.call (some c) (.woken p) v = .blocked p n at hv
  obtain ⟨k, hk⟩ := exists_blocked hc
  by_cases hvc : v = some c
  · rw [hvc, Function.update_self] at hv
    cases hv
  · rw [Function.update_of_ne hvc] at hv
    cases v with
    | none =>
      rw [hnone] at hv
      cases hv
    | some c' => exact hvc (congrArg some (h.stops.one c' c p n k hv hk))

lemma Inv.finish_none (h : Inv s) (hp : s.prov = .running p) (hnone : s.call none = .none)
    (hc : ¬∃ c : Fin m, (s.call (some c)).blockedOn p = true) : Inv (s.finish p).sleep := by
  obtain ⟨hfin, hrun⟩ := h.finish hp
  refine hfin.sleep hrun fun v q n hv => ?_
  have hpq : s.prov = .running q := (h.stops.blocked v q n hv).1
  rw [hp] at hpq
  obtain rfl := Prov.running.inj hpq
  have hv' : s.call v = .blocked p n := hv
  cases v with
  | none =>
    rw [hnone] at hv'
    cases hv'
  | some c =>
    refine hc ⟨c, ?_⟩
    rw [hv']
    exact decide_eq_true rfl

/-- No start of the timer whose time the timer thread takes to be up; no client's stop in a callback that has
been restarted, or while another client waits for it; and no waiting client that comes back into another
callback. -/
def calm (s : Timers τ m) : Action τ m → Bool
  | .start _ p timeMs => decide (s.prov = .expired p → timeMs = 0)
  | .restart w =>
    match s.call w with
    | .trimming p timeMs => decide (s.prov = .expired p → timeMs = 0)
    | _ => true
  | .stop w p =>
    decide (w.isSome → s.prov = .running p →
      s.timerState p = .running ∧ ∀ c, ¬(s.call (some c)).blockedOn p = true)
  | .resume w =>
    match s.call w with
    | .woken p => decide (w.isSome → s.prov ≠ .running p)
    | _ => true
  | _ => true

lemma Inv.step {a : Action τ m} {s' : Timers τ m} (h : Inv s) (hc : calm s a = true) (hs : step s a = some s') :
    Inv s' := by
  cases a with
  | tick us =>
    obtain rfl := Option.some.inj hs
    exact h.tick us
  | start w p timeMs =>
    rw [ClTimer.step] at hs
    split_ifs at hs
    obtain rfl := Option.some.inj hs
    exact h.start (of_decide_eq_true hc)
  | trim w p timeMs =>
    rw [ClTimer.step] at hs
    split_ifs at hs
    · obtain rfl := Option.some.inj hs
      exact h
    · obtain rfl := Option.some.inj hs
      exact h.setCall fun _ _ hn => by cases hn
  | restart w =>
    rw [ClTimer.step] at hs
    rw [calm] at hc
    split at hs
    · next p timeMs hw =>
      obtain rfl := Option.some.inj hs
      rw [hw] at hc
      have hset : Inv (s.setCall w .none) := h.setCall fun _ _ hn => by cases hn
      exact hset.start (of_decide_eq_true hc)
    · cases hs
  | stop w p =>
    rw [ClTimer.step] at hs
    have hcalm := of_decide_eq_true hc
    split_ifs at hs
    split at hs
    · next hp =>
      obtain rfl := Option.some.inj hs
      exact h.block hp fun hw => (hcalm hw (h.queued.running p hp)).2
    · next hp =>
      obtain rfl := Option.some.inj hs
      refine h.dequeue.returned fun hw => ⟨fun hn => ?_, fun hn => (update_idle_queued hn).1 rfl⟩
      have hstate := (hcalm hw (signal_running.mp hn)).1
      rw [hp] at hstate
      cases hstate
    · next hp =>
      obtain rfl := Option.some.inj hs
      refine h.returned fun hw => ⟨fun hn => ?_, by rw [hp]; decide⟩
      have hstate := (hcalm hw hn).1
      rw [hp] at hstate
      cases hstate
  | wake w =>
    rw [ClTimer.step] at hs
    split at hs
    · obtain rfl := Option.some.inj hs
      exact h.setCall fun _ _ hn => by cases hn
    · cases hs
  | resume w =>
    rw [ClTimer.step] at hs
    rw [calm] at hc
    split at hs
    · next p hw =>
      obtain rfl := Option.some.inj hs
      rw [hw] at hc
      have hcalm := of_decide_eq_true hc
      have hset : Inv (s.setCall w .none) := h.setCall fun _ _ hn => by cases hn
      split_ifs with hq
      · exact hset.dequeue.returned fun hsome =>
          ⟨fun hn => hcalm hsome (signal_running.mp hn), fun hn => (update_idle_queued hn).1 rfl⟩
      · exact hset.returned fun hsome => ⟨hcalm hsome, hq⟩
    · cases hs
  | wakeProv =>
    rw [ClTimer.step] at hs
    split at hs
    · obtain rfl := Option.some.inj hs
      exact h.signal
    · obtain rfl := Option.some.inj hs
      exact h.signal
    · cases hs
  | expire =>
    rw [ClTimer.step] at hs
    split at hs
    · next p abstime hp =>
      split_ifs at hs with hpassed
      obtain rfl := Option.some.inj hs
      exact h.expire hp hpassed
    · cases hs
  | acquire =>
    rw [ClTimer.step] at hs
    split at hs
    · next hp =>
      obtain rfl := Option.some.inj hs
      have hrun : ∀ q, s.prov ≠ .running q := by
        intro q hn
        rw [hp] at hn
        cases hn
      exact h.sleep (h.not_running hrun) (h.not_blocked hrun)
    · next p hp =>
      obtain rfl := Option.some.inj hs
      have hrun : ∀ q, s.prov ≠ .running q := by
        intro q hn
        rw [hp] at hn
        cases hn
      split_ifs with hq
      · exact h.begin hp hq
      · exact h.sleep (h.not_running hrun) (h.not_blocked hrun)
    · cases hs
  | finish c =>
    rw [ClTimer.step] at hs
    split at hs
    · next p hp =>
      by_cases hnone : s.call none = .none
      · rw [if_pos hnone] at hs
        cases c with
        | some c =>
          dsimp only at hs
          split_ifs at hs with hc
          obtain rfl := Option.some.inj hs
          exact h.finish_wake hp hnone hc
        | none =>
          dsimp only at hs
          split_ifs at hs with hc
          obtain rfl := Option.some.inj hs
          exact h.finish_none hp hnone hc
      · rw [if_neg hnone] at hs
        cases hs
    · cases hs

lemma inv_init : Inv (init τ m) where
  queued := ⟨List.Pairwise.nil, List.nodup_nil, fun _ => iff_of_false List.not_mem_nil (fun h => by cases h),
    fun _ h => (by cases h), fun _ _ h => by cases h⟩
  counted := ⟨List.nodup_nil, fun _ h => absurd h List.not_mem_nil⟩
  timely := ⟨fun _ h => (by cases h), fun _ h => absurd h List.not_mem_nil⟩
  stops := ⟨fun _ h => (by cases h), fun _ _ _ h => (by cases h), fun _ _ _ _ _ h => by cases h⟩

end Inv

section Run

variable {τ : Type*} [DecidableEq τ] {m : ℕ}

/-- A timer is in the queue, in its order, exactly when its state says so; callbacks begin when their time is up,
one for each start; a timer that was stopped does not run; and who waits for a callback waits for one that runs. -/
structure Reliable (s : Timers τ m) : Prop where
  sorted : Sorted s.timeout s.queue
  queued : ∀ p, s.queue.count p = if s.timerState p = .queued then 1 else 0
  inTime : ∀ b ∈ s.begun, ¬(calculate b.time 0).isEarlier b.timeout = true
  once : (s.begun.map fun b => (b.timer, b.serial)).Nodup
  stopped : ∀ p, s.stopped p = true → s.prov ≠ .running p
  waited : ∀ w p n, s.call w = .blocked p n → s.prov = .running p ∧ s.runs p = n

lemma Inv.reliable {s : Timers τ m} (h : Inv s) : Reliable s where
  sorted := h.queued.sorted
  queued p := by
    rw [h.queued.nodup.count]
    exact if_congr (h.queued.queued p) rfl rfl
  inTime := h.timely.begun
  once := h.counted.once
  stopped p hp := (h.stops.stopped p hp).1
  waited := h.stops.blocked

theorem run_reliable {l : List (Timers τ m × Action τ m)} {s : Timers τ m} (h : Run step (init τ m) l s)
    (hl : ∀ x ∈ l, calm x.1 x.2 = true) : Reliable s := by
  have hinv : Inv s := h.invariant inv_init (fun _ _ _ hi hc hs => hi.step hc hs) hl
  exact hinv.reliable

/-- A timer is started, stopped, and started again; its callback starts it once more while a client waits. -/
def session (c d : Fin m) : List (Action Unit m) :=
  [.start (some c) () 7, .acquire, .stop (some c) (), .acquire, .start (some d) () 3, .acquire,
    .tick 3000, .expire, .acquire, .stop (some c) (), .start none () 5, .finish (some c),
    .resume (some c), .acquire]

theorem run_reliable_session : ∃ l s, Run step (init Unit 2) l s ∧ (∀ x ∈ l, calm x.1 x.2 = true) ∧
    s.begun = [⟨(), 2, calculate 3000 0, 3000⟩] ∧ s.stopped () = true ∧ Reliable s := by
  obtain ⟨l, s, h, hp, hl⟩ := Run.of_exec step (init Unit 2) (session 0 1)
    (fun s => decide (s.begun = [⟨(), 2, calculate 3000 0, 3000⟩] ∧ s.stopped () = true)) (fun x => calm x.1 x.2)
    (by decide +kernel) (by decide +kernel)
  obtain ⟨hbegun, hstopped⟩ := of_decide_eq_true hp
  exact ⟨l, s, h, hl, hbegun, hstopped, run_reliable h hl⟩

/-- A start after the time was up, before the timer thread has the mutex: the callback begins five seconds early. A
stop while the callback has started its timer again: it returns, and the callback runs. Two clients that wait for
one callback: one of them is not woken. -/
theorem fires_early :
    (∃ l s, Run step (init Unit 2) l s ∧ (∃ b ∈ s.begun, b.time = 1000000 ∧ b.timeout = ⟨6, 0⟩) ∧ ¬Reliable s) ∧
    (∃ l s, Run step (init Unit 2) l s ∧ s.stopped () = true ∧ s.prov = .running () ∧ ¬Reliable s) ∧
    ∃ l s, Run step (init Unit 2) l s ∧ s.call (some 1) = .blocked () 1 ∧ s.prov = .sleeping ∧ ¬Reliable s := by
  refine ⟨?_, ?_, ?_⟩
  · obtain ⟨l, s, h, hp, -⟩ := Run.of_exec step (init Unit 2)
      [.start (some 0) () 1000, .acquire, .tick 1000000, .expire, .start (some 1) () 5000, .acquire]
      (fun s => decide (s.begun = [⟨(), 2, ⟨6, 0⟩, 1000000⟩])) (fun _ => true) (by decide +kernel)
          (by decide +kernel)
    have hbegun := of_decide_eq_true hp
    have hmem : (⟨(), 2, ⟨6, 0⟩, 1000000⟩ : Begun Unit) ∈ s.begun := by
      rw [hbegun]
      exact List.mem_cons_self
    exact ⟨l, s, h, ⟨_, hmem, rfl, rfl⟩, fun hr => hr.inTime _ hmem (by decide)⟩
  · obtain ⟨l, s, h, hp, -⟩ := Run.of_exec step (init Unit 2)
      [.start (some 0) () 0, .acquire, .expire, .acquire, .start none () 1000, .stop (some 0) ()]
      (fun s => decide (s.stopped () = true ∧ s.prov = .running ())) (fun _ => true) (by decide +kernel)
      (by decide +kernel)
    obtain ⟨hstopped, hprov⟩ := of_decide_eq_true hp
    exact ⟨l, s, h, hstopped, hprov, fun hr => hr.stopped () hstopped hprov⟩
  · obtain ⟨l, s, h, hp, -⟩ := Run.of_exec step (init Unit 2)
      [.start (some 0) () 0, .acquire, .expire, .acquire, .stop (some 0) (), .stop (some 1) (), .finish (some 0)]
      (fun s => decide (s.call (some 1) = .blocked () 1 ∧ s.prov = .sleeping)) (fun _ => true) (by decide +kernel)
      (by decide +kernel)
    obtain ⟨hcall, hprov⟩ := of_decide_eq_true hp
    refine ⟨l, s, h, hcall, hprov, fun hr => ?_⟩
    have hrun := (hr.waited _ _ _ hcall).1
    rw [hprov] at hrun
    cases hrun

end Run

end OpenSM.ClTimer
