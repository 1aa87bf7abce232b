import OpenSM.DnUpRoutes
import OpenSM.Lib.Cycles
import OpenSM.UpDnRoutes

/-! The channels that the routes of UPDN hold and wait for. -/

namespace OpenSM.UpDn

open Lib Switch DnUp

variable {n m : ℕ} {f : Fabric n m} {rank id : Fin n → ℕ}

/-- A packet for one of the destinations holds the first channel and waits for the second; a channel is a switch
and one of its ports. -/
def Waits (f : Fabric n m) (H : Hops n) (D : Fin n → Prop) (c c' : Fin n × ℕ) : Prop :=
  ∃ d q r x, D d ∧ LeastPort f H d c.1 c.2 ∧ f.remote c.1 c.2 = some (.sw c'.1 q) ∧ LeastPort f H d c'.1 c'.2 ∧
    f.remote c'.1 c'.2 = some (.sw r x)

def Down (f : Fabric n m) (rank id : Fin n → ℕ) (c : Fin n × ℕ) : Prop :=
  ∃ r q, f.remote c.1 c.2 = some (.sw r q) ∧ stepDir rank id c.1 r = .down

def key (rank id : Fin n → ℕ) (c : Fin n × ℕ) : ℕ ×ₗ ℕ := toLex (rank c.1, id c.1)

section Channels

variable {H : Hops n} {d s r : Fin n} {p q : ℕ} {c c' : Fin n × ℕ}

lemma follows_of_leastPort (h : LeastPort f H d s p) (hr : f.remote s p = some (.sw r q)) : Follows f H d s r :=
  ⟨h.2.1, p, q, hr, h.2.2⟩

lemma Found.link (h : Found f rank id d H) (hs : Follows f H d s r) : Link f s r := by
  obtain ⟨p, hp, hlt⟩ := h.follows hs
  refine ⟨fun heq => ?_, ?_⟩
  · rw [heq] at hlt
    exact absurd hlt (Nat.succ_ne_self _).symm
  · obtain ⟨-, p, q, hr, -⟩ := hs
    exact ⟨p, q, hr⟩

lemma key_lt_of_up (hroots : ∀ u r, Link f u r → ¬(rank u = 0 ∧ rank r = 0)) (hl : Link f s r)
    (hup : stepDir rank id s r = .up) (p q : ℕ) : key rank id (r, q) < key rank id (s, p) := by
  rw [key, key, Prod.Lex.toLex_lt_toLex]
  exact ((getDir_up (hroots s r hl)).mp hup).imp_right fun h => ⟨h.1.symm, h.2⟩

lemma key_lt_of_down (hid : Function.Injective id) (hroots : ∀ u r, Link f u r → ¬(rank u = 0 ∧ rank r = 0))
    (hl : Link f s r) (hdown : stepDir rank id s r = .down) (p q : ℕ) : key rank id (s,
        p) < key rank id (r, q) := by
  rw [key, key, Prod.Lex.toLex_lt_toLex]
  exact ((getDir_down (hroots s r hl)).mp hdown).imp_right fun h => ⟨h.1,
      lt_of_le_of_ne h.2 fun heq => hl.1 (hid heq)⟩

lemma waits_acyclic (hid : Function.Injective id) (hroots : ∀ u r, Link f u r → ¬(rank u = 0 ∧ rank r = 0))
    (hfound : ∀ d, Soon f rank id d → Found f rank id d H) : Acyclic (Waits f H (Soon f rank id)) := by
  refine Acyclic.of_upDown (Down f rank id) (key rank id) ?_ ?_ ?_
  · rintro ⟨s, p⟩ ⟨r, p'⟩ ⟨d, q, t, x, hd, hs, hr, hs', ht⟩ ⟨r', q', hr', hdown⟩
    rw [hr] at hr'
    cases hr'
    exact ⟨t, x, ht, (hfound d hd).stays_down hid hroots hd (follows_of_leastPort hs hr)
      (follows_of_leastPort hs' ht) hdown⟩
  · rintro ⟨s, p⟩ ⟨r, p'⟩ ⟨d, q, t, x, hd, hs, hr, hs', ht⟩ hup
    have hsr := follows_of_leastPort hs hr
    refine key_lt_of_up hroots ((hfound d hd).link hsr) ?_ p p'
    -- a step down here would be followed by another one
    refine (stepDir rank id s r).eq_up_or_down.resolve_right fun hdown => hup ⟨t, x, ht, ?_⟩
    exact (hfound d hd).stays_down hid hroots hd hsr (follows_of_leastPort hs' ht) hdown
  · rintro ⟨s, p⟩ ⟨r, p'⟩ ⟨d, q, t, x, hd, hs, hr, -, -⟩ ⟨r', q', hr', hdown⟩
    rw [hr] at hr'
    cases hr'
    exact key_lt_of_down hid hroots ((hfound d hd).link (follows_of_leastPort hs hr)) hdown p p'

end Channels

/-- The routes to the destinations whose searches come up early never wait for one another. -/
theorem routes_deadlockFree {f : Fabric n m} (hf : Ready f) (root : Fin n → Bool) {id : Fin n → ℕ}
    (hid : Function.Injective id) (hroots : ∀ s r, Link f s r → ¬(root s = true ∧ root r = true)) (H : Hops n) :
    ∃ rank H', subnRank f (rootRank root) = some rank ∧ setMinHopTable f false rank id H = some H' ∧
      Acyclic (Waits f H' (Soon f rank id)) := by
  obtain ⟨rank, hrank, hzero⟩ := subnRank_spec f root
  obtain ⟨H', hH', hfound⟩ := setMinHopTable_spec hf rank id H
  refine ⟨rank, H', hrank, hH', waits_acyclic hid (fun u r hur => ?_) fun d hd => hfound d hd.timely⟩
  rw [hzero, hzero]
  exact hroots u r hur

theorem routes_deadlockFree_fork : Soon fork forkRank forkId 1 ∧
    ∃ H', setMinHopTable fork false forkRank forkId (fun _ _ => none) = some H' ∧
      Waits fork H' (Soon fork forkRank forkId) (2, 1) (0, 1) ∧
          Acyclic (Waits fork H' (Soon fork forkRank forkId)) := by
  obtain ⟨rank, H', hrank, hH', hfree⟩ := routes_deadlockFree ready_fork forkRoot forkId_injective
    forkRoot_apart fun _ _ => none
  obtain rfl : forkRank = rank := Option.some.inj (subnRank_fork.symm.trans hrank)
  obtain ⟨h20, h21, h00, h01⟩ := fork_route hH'
  refine ⟨soon_fork, H', hH', ⟨1, 2, 1, 1, soon_fork, ⟨by decide, ?_, h21.trans h20.symm⟩, rfl,
    ⟨by decide, ?_, h01.trans h00.symm⟩, rfl⟩, hfree⟩
  · change getLeastHops fork H' 2 2 ≠ noPath
    rw [h20]
    decide
  · change getLeastHops fork H' 0 2 ≠ noPath
    rw [h00]
    decide

end OpenSM.UpDn
