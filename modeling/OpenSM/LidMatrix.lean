import OpenSM.Fabric

/-! The per-switch LID matrix `hops[lid][port]`: column 0 of a row caches the least hop count. -/

namespace OpenSM.Switch

variable {n m : ℕ} (f : Fabric n m)

/-- `hops[lid]` of every switch; `none` is a row that has not been allocated. -/
abbrev Hops (n : ℕ) := Fin n → ℕ → Option (ℕ → ℕ)

def setHops (H : Hops n) (s : Fin n) (lidHo portNum numHops : ℕ) : Hops n × ℤ :=
  if lidHo = 0 ∨ f.maxLidHo s < lidHo then (H, -1)
  else if f.numPorts s ≤ portNum then (H, -1)
  else
    let row := (H s lidHo).getD (fun _ => noPath)
    let row := Function.update row portNum numHops
    let row := if numHops < row 0 then Function.update row 0 numHops else row
    (Function.update H s (Function.update (H s) lidHo (some row)), 0)

def getHopCount (H : Hops n) (s : Fin n) (lidHo portNum : ℕ) : ℕ :=
  if f.maxLidHo s < lidHo then noPath
  else match H s lidHo with
    | none => noPath
    | some row => row portNum

def getLeastHops (H : Hops n) (s : Fin n) (lidHo : ℕ) : ℕ := getHopCount f H s lidHo 0

def clearHops (H : Hops n) : Hops n := fun s lidHo => (H s lidHo).map fun _ => fun _ => noPath

@[simp] lemma getHopCount_clearHops (H : Hops n) (s : Fin n) (l p : ℕ) :
    getHopCount f (clearHops H) s l p = noPath := by
  unfold getHopCount clearHops
  split_ifs
  · rfl
  · cases H s l <;> rfl

variable {f}

lemma getHopCount_setHops {H : Hops n} {s : Fin n} {l p h : ℕ} (hl : 0 < l) (hm : l ≤ f.maxLidHo s)
    (hp : p < f.numPorts s) (s' : Fin n) (l' p' : ℕ) :
    getHopCount f (setHops f H s l p h).1 s' l' p' =
      if s' = s ∧ l' = l then
        if p' = 0 then (if p = 0 then h else min (getHopCount f H s l 0) h)
        else if p' = p then h else getHopCount f H s l p'
      else getHopCount f H s' l' p' := by
  have hg : ∀ q, getHopCount f H s l q = (H s l).getD (fun _ => noPath) q := by
    intro q
    rw [getHopCount, if_neg (by omega)]
    cases H s l <;> rfl
  rw [setHops, if_neg (by omega), if_neg (by omega)]
  simp only [hg]
  generalize hrow : (H s l).getD (fun _ => noPath) = row
  by_cases hs : s' = s
  · subst hs
    by_cases hl' : l' = l
    · subst hl'
      simp only [getHopCount, Function.update_self, if_neg (show ¬ f.maxLidHo s' < l' by omega),
        and_self, if_true]
      by_cases hp0 : p = 0
      · subst hp0
        by_cases hp' : p' = 0 <;> simp [hp']
      · by_cases hp' : p' = 0
        · subst hp'
          simp only [Function.update_apply, if_neg (Ne.symm hp0), if_neg hp0, if_true]
          split_ifs with hh
          · simp [min_eq_right hh.le]
          · simp [min_eq_left (not_lt.mp hh), Ne.symm hp0]
        · simp only [Function.update_apply, if_neg (Ne.symm hp0), hp', if_false]
          split_ifs <;> simp_all
    · simp [getHopCount, hl']
  · simp [getHopCount, hs]

lemma getHopCount_setHops_ne {H : Hops n} {s s' : Fin n} {l l' : ℕ} (p h p' : ℕ)
    (hne : ¬ (s' = s ∧ l' = l)) :
    getHopCount f (setHops f H s l p h).1 s' l' p' = getHopCount f H s' l' p' := by
  unfold setHops
  split_ifs <;> try rfl
  all_goals
    by_cases hs : s' = s
    · subst hs
      have hl : l' ≠ l := fun hl => hne ⟨rfl, hl⟩
      simp [getHopCount, hl]
    · simp [getHopCount, hs]

lemma getHopCount_setHops_port {H : Hops n} {s : Fin n} {l p h p' : ℕ} (hp : p' ≠ p) (hp0 : p' ≠ 0)
    (s' : Fin n) (l' : ℕ) :
    getHopCount f (setHops f H s l p h).1 s' l' p' = getHopCount f H s' l' p' := by
  by_cases hne : s' = s ∧ l' = l
  · obtain ⟨rfl, rfl⟩ := hne
    by_cases hv : 0 < l' ∧ l' ≤ f.maxLidHo s' ∧ p < f.numPorts s'
    · rw [getHopCount_setHops hv.1 hv.2.1 hv.2.2]
      simp [hp, hp0]
    · have he : (setHops f H s' l' p h).1 = H := by
        unfold setHops
        split_ifs <;> first | rfl | omega
      rw [he]
  · exact getHopCount_setHops_ne _ _ _ hne

end OpenSM.Switch
