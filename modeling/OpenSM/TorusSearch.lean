import OpenSM.TorusMoves
import OpenSM.TorusSpan

/-! The search for the torus ends, and keeps what holds of a torus under construction. -/

namespace OpenSM.Torus2QoS

variable (g : Setup)

/-- What an operation does to a torus under construction. -/
def Grows (s : BuildSt) (srcs : List (ℕ × Bool)) (s' : BuildSt) : Prop :=
  ∃ srcs', Inv g s' srcs' ∧ Extends s srcs s' srcs'

section Links

variable {g} {s s' s'' : BuildSt} {srcs : List (ℕ × Bool)} {d : Dim} {c c' : Coord} {f f₀ f₁ p : ℕ}

lemma Grows.refl (hi : Inv g s srcs) : Grows g s srcs s := ⟨srcs, hi, .refl⟩

lemma Grows.of_extends {srcs' : List (ℕ × Bool)} (hx : Extends s srcs s' srcs') (h : Grows g s' srcs' s'') :
    Grows g s srcs s'' := by
  obtain ⟨srcs'', hi, hx'⟩ := h
  exact ⟨srcs'', hi, hx.trans hx'⟩

lemma Grows.trans (h : Grows g s srcs s')
    (h' : ∀ srcs', Inv g s' srcs' → Extends s srcs s' srcs' → Grows g s' srcs' s'') : Grows g s srcs s'' := by
  obtain ⟨srcs', hi, hx⟩ := h
  exact .of_extends hx (h' srcs' hi hx)

lemma Grows.sw (h : Grows g s srcs s') (hc : s.sw c = some f) : s'.sw c = some f := by
  obtain ⟨_, -, hx⟩ := h
  exact hx.sw c f hc

lemma fswPort_lend {l : ℕ} {b : Bool} (h : fswPort g s f p = some (.lend l b)) :
    g.fabric.port f p = some (.lend l b) ∧ s.gone l = false := by
  rw [fswPort] at h
  cases hp : g.fabric.port f p with
  | none =>
    rw [hp] at h
    cases h
  | some e =>
    cases e with
    | mgmt o =>
      rw [hp] at h
      dsimp only at h
      split_ifs at h
      cases h
    | lend l' b' =>
      rw [hp] at h
      dsimp only at h
      split_ifs at h with hgone
      obtain ⟨rfl, rfl⟩ := FEp.lend.inj (Option.some.inj h)
      exact ⟨rfl, by simpa using hgone⟩

lemma fswPort_mgmt {o : ℕ} (h : fswPort g s f p = some (.mgmt o)) :
    g.fabric.port f p = some (.mgmt o) ∧ s.moved f p = false := by
  rw [fswPort] at h
  cases hp : g.fabric.port f p with
  | none =>
    rw [hp] at h
    cases h
  | some e =>
    cases e with
    | mgmt o' =>
      rw [hp] at h
      dsimp only at h
      split_ifs at h with hmoved
      obtain rfl := FEp.mgmt.inj (Option.some.inj h)
      exact ⟨rfl, by simpa using hmoved⟩
    | lend l' b' =>
      rw [hp] at h
      dsimp only at h
      split_ifs at h
      cases h

lemma sw_of_nId {l : ℕ} {b : Bool} (hl : l < g.fabric.linkCnt) (hf : f < g.fabric.swCnt)
    (hsw : (g.fabric.ends l b).sw.isSome) (hn : (g.fabric.ends l b).nId = g.fabric.nId f) :
    (g.fabric.ends l b).sw = some f := by
  obtain ⟨f', hf'⟩ := Option.isSome_iff_exists.mp hsw
  obtain ⟨hport, hn'⟩ := g.fabric.lend_port l b f' hl hf'
  have hlt := (g.fabric.port_lt f' _ (by rw [hport]; rfl)).1
  rw [hf', g.fabric.nId_inj f hf f' hlt (hn.symm.trans hn')]

lemma linkPort_grows (hi : Inv g s srcs) (h₀ : s.sw c = some f₀) (h₁ : s.sw (along g c d 1) = some f₁) :
    Grows g s srcs (linkPort g s d c (along g c d 1) f₀ f₁ p).2 := by
  rw [linkPort]
  cases hp : fswPort g s f₀ p with
  | none => exact .refl hi
  | some e =>
    cases e with
    | mgmt o => exact .refl hi
    | lend l b =>
      obtain ⟨hport, hgone⟩ := fswPort_lend hp
      have hl := (g.fabric.port_lend f₀ p l b hport).1
      dsimp only
      generalize hb : (!decide ((g.fabric.ends l false).nId = g.fabric.nId f₀ ∧
        (g.fabric.ends l !false).nId = g.fabric.nId f₁)) = b'
      split_ifs with hno htype hsw
      · exact .refl hi
      · exact .refl hi
      · exact .refl hi
      · have hends : (g.fabric.ends l false).sw.isSome ∧ (g.fabric.ends l true).sw.isSome := by
          simpa [endSw, hgone, Option.isSome_iff_ne_none] using hsw
        have hmatch : (g.fabric.ends l b').nId = g.fabric.nId f₀ ∧
            (g.fabric.ends l !b').nId = g.fabric.nId f₁ := by
          cases b' with
          | false => simpa using hb
          | true => simpa [hb] using hno
        have hsome : ∀ b, (g.fabric.ends l b).sw.isSome := fun b => by
          cases b with
          | false => exact hends.1
          | true => exact hends.2
        exact connectTlink_inv hi hl hgone ⟨f₀, h₀, sw_of_nId hl (hi.inRange _ _ h₀).2 (hsome _) hmatch.1⟩
          ⟨f₁, h₁, sw_of_nId hl (hi.inRange _ _ h₁).2 (hsome _) hmatch.2⟩

lemma linkPorts_grows {ps : List ℕ} (hi : Inv g s srcs) (h₀ : s.sw c = some f₀)
    (h₁ : s.sw (along g c d 1) = some f₁) :
    Grows g s srcs (linkPorts g d c (along g c d 1) f₀ f₁ ps s).2 := by
  induction ps generalizing s srcs with
  | nil => exact .refl hi
  | cons p ps ih =>
    have hone := linkPort_grows (p := p) hi h₀ h₁
    rw [linkPorts]
    split_ifs with hok
    · exact hone.trans fun srcs' hi' hx => ih hi' (hx.sw _ _ h₀) (hx.sw _ _ h₁)
    · exact hone

lemma linkTswitches_grows (hi : Inv g s srcs) (hc : c' = along g c d 1) :
    Grows g s srcs (linkTswitches g s d c c').2 := by
  subst hc
  rw [linkTswitches]
  split_ifs
  · exact .refl hi
  · exact .refl hi
  · cases h₀ : s.sw c with
    | none => exact .refl hi
    | some f₀ =>
      cases h₁ : s.sw (along g c d 1) with
      | none => exact .refl hi
      | some f₁ => exact linkPorts_grows hi h₀ h₁

lemma linkPresent_grows (hi : Inv g s srcs) (hc : c' = along g c d 1) :
    Grows g s srcs (linkPresent g s d c c').2 := by
  rw [linkPresent]
  split_ifs
  · exact linkTswitches_grows hi hc
  · exact .refl hi

lemma along_along {n m : ℤ} (h : canonicalize (((canonicalize (c d + n) (g.sz d) : ℕ) : ℤ) + 1) (g.sz d) =
    canonicalize (c d + m) (g.sz d)) : along g c d m = along g (along g c d n) d 1 := by
  rw [along, along, along, Function.update_self, Function.update_idem, h]

lemma safeRing_grows (hi : Inv g s srcs) (hc : c d < g.sz d) : Grows g s srcs (safeRing g s d c).2 := by
  rw [safeRing]
  split_ifs with hskip
  · exact .refl hi
  dsimp only
  have h4 : g.sz d = 4 := by
    by_contra h4
    exact hskip (by simp [h4])
  have hstep : along g c d (-1) = along g (along g c d 2) d 1 ∧ c = along g (along g c d (-1)) d 1 ∧
      along g c d 2 = along g (along g c d 1) d 1 := by
    have hself : c = along g c d 0 := by
      rw [along, add_zero, canonicalize_of_lt hc, Function.update_eq_self]
    have hlt : c d < 4 := h4 ▸ hc
    refine ⟨along_along ?_, ?_, along_along ?_⟩
    · rw [h4]
      interval_cases c d <;> decide
    · conv_lhs => rw [hself]
      refine along_along ?_
      rw [h4]
      interval_cases c d <;> decide
    · rw [h4]
      interval_cases c d <;> decide
  split_ifs
  · exact .refl hi
  · refine (linkPresent_grows hi hstep.1).trans fun _ hi _ => ?_
    refine (linkPresent_grows hi hstep.2.1).trans fun _ hi _ => ?_
    refine (linkPresent_grows (d := d) (c := c) hi rfl).trans fun _ hi _ => ?_
    exact linkPresent_grows hi hstep.2.2

lemma safePerpendicular_grows (hi : Inv g s srcs) (hc : ∀ d, c d < g.sz d) :
    Grows g s srcs (safePerpendicular g s d c).2 := by
  have htwo : ∀ e e', Grows g s srcs (if (safeRing g s e c).1 then safeRing g (safeRing g s e c).2 e' c
      else safeRing g s e c).2 := by
    intro e e'
    have hone := safeRing_grows hi (hc e)
    split_ifs
    · exact hone.trans fun _ hi _ => safeRing_grows hi (hc e')
    · exact hone
  cases d with
  | x => exact htwo .y .z
  | y => exact htwo .x .z
  | z => exact htwo .x .y

end Links

section Handlers

variable {g} {s : BuildSt} {srcs : List (ℕ × Bool)} {c : Coord} {f : ℕ} {h : Handler} {a : Attempt}

lemma mem_farSwitches {f' : ℕ} (h : f ∈ farSwitches g s f') : f < g.fabric.swCnt := by
  obtain ⟨p, -, hp⟩ := List.mem_filterMap.mp h
  rw [farSwitch] at hp
  cases he : fswPort g s f' p with
  | none =>
    rw [he] at hp
    cases hp
  | some e =>
    cases e with
    | mgmt o =>
      rw [he] at hp
      cases hp
    | lend l b =>
      rw [he] at hp
      dsimp only at hp
      split_ifs at hp with _ _
      rw [endSw] at hp
      split_ifs at hp
      have hl := (g.fabric.port_lend f' p l b (fswPort_lend he).1).1
      exact (g.fabric.port_lt f _ (by rw [(g.fabric.lend_port l _ f hl hp).1]; rfl)).1

lemma find_lt {x : Finder} (h : f ∈ x.find g s c) : f < g.fabric.swCnt := by
  cases x with
  | faceCorner sw0 sw1 sw2 =>
    simp only [Finder.find, Option.mem_def, Option.bind_eq_bind, Option.bind_eq_some_iff] at h
    obtain ⟨f₀, -, f₁, -, f₂, -, hf⟩ := h
    exact mem_farSwitches (List.mem_of_find?_eq_some hf)
  | perpendicular3d sw0 sw1 sw2 sw3 =>
    simp only [Finder.find, Option.mem_def, Option.bind_eq_bind, Option.bind_eq_some_iff] at h
    obtain ⟨f₀, -, f₁, -, f₂, -, f₃, -, hf⟩ := h
    exact mem_farSwitches (List.mem_of_find?_eq_some hf)
  | perpendicular2d sw0 sw1 sw2 =>
    simp only [Finder.find, Option.mem_def, Option.bind_eq_bind, Option.bind_eq_some_iff] at h
    obtain ⟨f₀, -, f₁, -, f₂, -, hf⟩ := h
    exact mem_farSwitches (List.mem_of_find?_eq_some hf)

variable (hsz : ∀ d, 0 < g.sz d)

include hsz

lemma corner_lt (o : Off) (d : Dim) : corner g c o d < g.sz d := by
  cases d <;> exact canonicalize_lt (hsz _)

omit hsz in
lemma installTswitch_present {o : Option ℕ} (h : (installTswitch g s c o).1 = true) :
    (installTswitch g s c o).2.present c = true := by
  rw [installTswitch] at h ⊢
  cases hsw : s.sw c with
  | some f =>
    dsimp only
    rw [BuildSt.present, hsw]
    rfl
  | none =>
    rw [hsw] at h
    dsimp only at h ⊢
    cases ha : allocTswitch g s o with
    | mk o' s' =>
      cases o' with
      | none =>
        rw [ha] at h
        cases h
      | some f =>
        rw [BuildSt.present]
        dsimp only
        rw [Function.update_self]
        rfl

lemma Attempt.grows (hi : Inv g s srcs) : Grows g s srcs (a.run g s c).2 := by
  have hsafe : Grows g s srcs (a.isSafe g s c).2 := by
    rw [Attempt.isSafe]
    cases a.safe with
    | none => exact .refl hi
    | some x => exact safePerpendicular_grows hi (corner_lt hsz x.2)
  rw [Attempt.run]
  split_ifs
  · refine hsafe.trans fun srcs' hi' _ => ⟨srcs', ?_⟩
    exact installTswitch_inv hi' (corner_lt hsz a.place) fun f hf => find_lt hf
  · exact hsafe

lemma Handler.grows (hi : Inv g s srcs) : Grows g s srcs (h.run g c s).2 := by
  induction h generalizing s srcs with
  | nil => exact .refl hi
  | cons a h ih =>
    have hone := Attempt.grows (a := a) (c := c) hsz hi
    rw [Handler.run]
    split_ifs
    · exact hone
    · exact hone.trans fun _ hi' _ => ih hi'

omit hsz in
lemma Handler.filled (hrun : (h.run g c s).1 = true) :
    ∃ a ∈ h, (h.run g c s).2.present (corner g c a.place) = true := by
  induction h generalizing s with
  | nil => cases hrun
  | cons a h ih =>
    rw [Handler.run] at hrun ⊢
    split_ifs at hrun ⊢ with hone
    · refine ⟨a, List.mem_cons_self, ?_⟩
      rw [Attempt.run] at hone ⊢
      split_ifs at hone ⊢ with hsafe
      · exact installTswitch_present hone
      · exact absurd hone hsafe
    · obtain ⟨b, hb, hpres⟩ := ih hrun
      exact ⟨b, List.mem_cons_of_mem a hb, hpres⟩

omit hsz in
lemma edges_along (hc : ∀ d, c d < g.sz d) {e : Dim × Off × Off} (he : e ∈ edges) :
    corner g c e.2.2 = along g (corner g c e.2.1) e.1 1 := by
  simp only [edges, List.mem_cons, List.not_mem_nil, or_false] at he
  rcases he with rfl | rfl | rfl | rfl | rfl | rfl | rfl | rfl | rfl | rfl | rfl | rfl <;>
    · funext d
      cases d <;> simp [corner, along, coord, Function.update, canonicalize_of_lt (hc _)]

omit hsz in
lemma checkTlinks_grows (hi : Inv g s srcs) (hc : ∀ d, c d < g.sz d) : Grows g s srcs (checkTlinks g s c) := by
  have hall : ∀ {es : List (Dim × Off × Off)} {s : BuildSt} {srcs : List (ℕ × Bool)}, (∀ e ∈ es, e ∈ edges) →
      Inv g s srcs → Grows g s srcs
        (es.foldl (fun s e => (linkPresent g s e.1 (corner g c e.2.1) (corner g c e.2.2)).2) s) := by
    intro es
    induction es with
    | nil => exact fun _ hi => .refl hi
    | cons e es ih =>
      intro s srcs hes hi
      rw [List.forall_mem_cons] at hes
      exact (linkPresent_grows hi (edges_along hc hes.1)).trans fun _ hi' _ => ih hes.2 hi'
  exact hall (fun _ => id) hi

end Handlers

section Loops

variable {g} {s : BuildSt} {srcs : List (ℕ × Bool)} {c : Coord}

lemma testBit_setFpBit (b : Bool) (i j k m : ℕ) :
    (setFpBit b i j k).testBit m = true ↔ m = i + 2 * j + 4 * k ∧ b = false := by
  rw [setFpBit, Nat.testBit_shiftLeft]
  cases b with
  | true => simp
  | false =>
    simp only [Bool.not_false, Bool.toNat_true, Bool.and_eq_true, decide_eq_true_eq, and_true]
    constructor
    · rintro ⟨hle, hbit⟩
      have hzero : m - (i + 2 * j + 4 * k) = 0 := by
        by_contra hne
        rw [Nat.testBit_eq_false_of_lt (Nat.one_lt_two_pow hne)] at hbit
        cases hbit
      omega
    · rintro rfl
      exact ⟨le_rfl, by simp⟩

/-- One of the eight bits of the corners is set where the corner is absent. -/
lemma fingerprint_absent (hsz : ∀ d, 0 < g.sz d) {i j k : ℕ} (hi : i < 2) (hj : j < 2) (hk : k < 2)
    (h : (fingerprint g s c).testBit (i + 2 * j + 4 * k) = true) : s.present (corner g c ⟨i, j, k⟩) = false := by
  have hflat : ∀ {n : ℕ} {v w : ℤ}, 0 < n → ¬1 < n → canonicalize v n = canonicalize w n := by
    intro n v w hn h1
    have hv := canonicalize_lt hn (v := v)
    have hw := canonicalize_lt hn (v := w)
    omega
  have hcorner : ∀ {i j k i' j' k' : ℤ}, (1 < g.sz .x → i = i') → (1 < g.sz .y → j = j') → (1 < g.sz .z → k = k') →
      corner g c ⟨i, j, k⟩ = corner g c ⟨i', j', k'⟩ := by
    intro i j k i' j' k' hx hy hz
    rw [corner, corner]
    congr 1
    · by_cases h1 : 1 < g.sz .x
      · rw [hx h1]
      · exact hflat (hsz .x) h1
    · by_cases h1 : 1 < g.sz .y
      · rw [hy h1]
      · exact hflat (hsz .y) h1
    · by_cases h1 : 1 < g.sz .z
      · rw [hz h1]
      · exact hflat (hsz .z) h1
  have hhigh : ∀ (b : Bool) (m : ℕ), 8 ≤ m → (b.toNat <<< m).testBit (i + 2 * j + 4 * k) = false := by
    intro b m hm
    rw [Nat.testBit_shiftLeft, decide_eq_false (by omega), Bool.false_and]
  have hbits : ∀ b : Bool, b.toNat < 2 := fun b => by cases b <;> decide
  rw [fingerprint] at h
  simp only [Nat.testBit_or, Bool.or_eq_true, testBit_setFpBit, hhigh _ 8 (by omega), hhigh _ 9 (by omega),
    hhigh _ 10 (by omega), Bool.false_eq_true, or_false] at h
  have hx : ∀ {p : Prop} [Decidable p], p → (decide p).toNat = 1 := fun hp => by simp [hp]
  have hb1 := hbits (decide (1 < g.sz .x))
  have hb2 := hbits (decide (1 < g.sz .y))
  have hb3 := hbits (decide (1 < g.sz .z))
  rcases h with (((((((⟨he, hp⟩ | ⟨he, hp⟩) | ⟨he, hp⟩) | ⟨he, hp⟩) | ⟨he, hp⟩) | ⟨he, hp⟩) | ⟨he,
      hp⟩) | ⟨he, hp⟩) <;>
    · rw [← hp]
      congr 1
      refine hcorner (fun h1 => ?_) (fun h1 => ?_) (fun h1 => ?_) <;>
        · have h1 := hx h1
          omega

def Attempt.fits (fp : ℕ) (a : Attempt) : Bool :=
  decide ((a.place.x = 0 ∨ a.place.x = 1) ∧ (a.place.y = 0 ∨ a.place.y = 1) ∧ (a.place.z = 0 ∨ a.place.z = 1)) &&
    fp.testBit (a.place.x.toNat + 2 * a.place.y.toNat + 4 * a.place.z.toNat)

lemma cases_fit : cases.all (fun x => x.2.all (Attempt.fits x.1)) = true := by decide

def cube : List Off :=
  [⟨0, 0, 0⟩, ⟨1, 0, 0⟩, ⟨0, 1, 0⟩, ⟨1, 1, 0⟩, ⟨0, 0, 1⟩, ⟨1, 0, 1⟩, ⟨0, 1, 1⟩, ⟨1, 1, 1⟩]

/-- The corners of a cube without a switch, which each round of `locate_sw` but the last makes fewer. -/
def absentCnt (g : Setup) (s : BuildSt) (c : Coord) : ℕ := cube.countP fun o => !s.present (corner g c o)

lemma countP_lt_countP {α : Type*} {l : List α} {p q : α → Bool} (h : ∀ x, q x → p x) {x : α} (hx : x ∈ l)
    (hp : p x = true) (hq : q x = false) : l.countP q < l.countP p := by
  obtain ⟨l₁, l₂, rfl⟩ := List.append_of_mem hx
  have h₁ := List.countP_mono_left (l := l₁) fun x _ => h x
  have h₂ := List.countP_mono_left (l := l₂) fun x _ => h x
  rw [List.countP_append, List.countP_append, List.countP_cons_of_pos hp,
      List.countP_cons_of_neg (by rw [hq]; decide)]
  omega

lemma Grows.present {s' : BuildSt} (h : Grows g s srcs s') {c : Coord} (hc : s.present c = true) :
    s'.present c = true := by
  obtain ⟨f, hf⟩ := Option.isSome_iff_exists.mp hc
  rw [BuildSt.present, h.sw hf]
  rfl

lemma Grows.absent {s' : BuildSt} (h : Grows g s srcs s') (o : Off) (ho : (!s'.present (corner g c o)) = true) :
    (!s.present (corner g c o)) = true := by
  rw [Bool.not_eq_true'] at ho ⊢
  by_contra hp
  rw [h.present (by simpa using hp)] at ho
  cases ho

variable (hsz : ∀ d, 0 < g.sz d)

include hsz

/-- A handler that succeeds leaves fewer corners without a switch. -/
lemma absentCnt_lt {h : Handler} (hi : Inv g s srcs) (hcase : cases.lookup (fingerprint g s c) = some h)
    (hrun : (h.run g c s).1 = true) : absentCnt g (h.run g c s).2 c < absentCnt g s c := by
  obtain ⟨l₁, l₂, hl, -⟩ := List.lookup_eq_some_iff.mp hcase
  have hmem : (fingerprint g s c, h) ∈ cases := by
    rw [hl]
    exact List.mem_append_right l₁ List.mem_cons_self
  obtain ⟨a, ha, hpres⟩ := Handler.filled hrun
  have hfit := List.all_eq_true.mp (List.all_eq_true.mp cases_fit _ hmem) a ha
  rw [Attempt.fits, Bool.and_eq_true, decide_eq_true_eq] at hfit
  obtain ⟨⟨hx, hy, hz⟩, hbit⟩ := hfit
  obtain ⟨i, hi2, hix⟩ : ∃ i < 2, a.place.x = (i : ℕ) := by
    rcases hx with hx | hx
    · exact ⟨0, by decide, hx⟩
    · exact ⟨1, by decide, hx⟩
  obtain ⟨j, hj2, hjy⟩ : ∃ j < 2, a.place.y = (j : ℕ) := by
    rcases hy with hy | hy
    · exact ⟨0, by decide, hy⟩
    · exact ⟨1, by decide, hy⟩
  obtain ⟨k, hk2, hkz⟩ : ∃ k < 2, a.place.z = (k : ℕ) := by
    rcases hz with hz | hz
    · exact ⟨0, by decide, hz⟩
    · exact ⟨1, by decide, hz⟩
  have hplace : a.place = ⟨i, j, k⟩ := by rw [← hix, ← hjy, ← hkz]
  rw [hplace] at hpres hbit
  rw [Int.toNat_natCast, Int.toNat_natCast, Int.toNat_natCast] at hbit
  have habs := fingerprint_absent hsz hi2 hj2 hk2 hbit
  have hcube : (⟨i, j, k⟩ : Off) ∈ cube := by
    interval_cases i <;> interval_cases j <;> interval_cases k <;> simp [cube]
  refine countP_lt_countP (Handler.grows hsz hi).absent hcube ?_ ?_
  · rw [habs]
    rfl
  · rw [hpres]
    rfl

lemma locateLoop_spec (hc : ∀ d, c d < g.sz d) {fuel : ℕ} (hi : Inv g s srcs) (hfuel : absentCnt g s c < fuel) :
    ∃ s', locateLoop g c fuel s = some s' ∧ Grows g s srcs s' := by
  induction fuel generalizing s srcs with
  | zero => omega
  | succ fuel ih =>
    have hcheck := checkTlinks_grows hi hc
    have hle : absentCnt g (checkTlinks g s c) c ≤ absentCnt g s c :=
      List.countP_mono_left fun o _ => hcheck.absent o
    rw [locateLoop]
    dsimp only
    cases hcase : cases.lookup (fingerprint g (checkTlinks g s c) c) with
    | none => exact ⟨_, rfl, hcheck⟩
    | some h =>
      dsimp only
      obtain ⟨srcs₁, hi₁, hx₁⟩ := hcheck
      obtain ⟨srcs₂, hi₂, hx₂⟩ := Handler.grows (h := h) (c := c) hsz hi₁
      split_ifs with hok
      · have hlt := absentCnt_lt hsz hi₁ hcase hok
        obtain ⟨s', hs', hgrows⟩ := ih hi₂ (by omega)
        exact ⟨s', hs', .of_extends (hx₁.trans hx₂) hgrows⟩
      · exact ⟨_, rfl, .of_extends (hx₁.trans hx₂) (checkTlinks_grows hi₂ hc)⟩

lemma locateSw_spec (hc : ∀ d, c d < g.sz d) (hi : Inv g s srcs) : ∃ s', locateSw g s c = some s' ∧
    Grows g s srcs s' := by
  rw [locateSw]
  split_ifs
  · exact ⟨s, rfl, .refl hi⟩
  · refine locateLoop_spec hsz hc hi ?_
    have hle : absentCnt g s c ≤ cube.length := List.countP_le_length
    exact Nat.lt_succ_of_le hle

omit hsz in
lemma mem_setup_coords : c ∈ g.coords ↔ ∀ d, c d < g.sz d := by
  rw [Setup.coords, Dim.forall]
  simp only [List.mem_flatMap, List.mem_map, List.mem_range]
  constructor
  · rintro ⟨k, hk, j, hj, i, hi, rfl⟩
    exact ⟨hi, hj, hk⟩
  · rintro ⟨hi, hj, hk⟩
    refine ⟨c .z, hk, c .y, hj, c .x, hi, ?_⟩
    funext d
    cases d <;> rfl

lemma locateAll_spec (hi : Inv g s srcs) : ∃ s', locateAll g s = some s' ∧ Grows g s srcs s' := by
  have hall : ∀ {cs : List Coord} {s : BuildSt} {srcs : List (ℕ × Bool)}, (∀ c ∈ cs, ∀ d, c d < g.sz d) →
      Inv g s srcs → ∃ s', cs.foldlM (locateSw g) s = some s' ∧ Grows g s srcs s' := by
    intro cs
    induction cs with
    | nil => exact fun _ hi => ⟨_, rfl, .refl hi⟩
    | cons c cs ih =>
      intro s srcs hcs hi
      rw [List.forall_mem_cons] at hcs
      obtain ⟨s₁, hs₁, srcs₁, hi₁, hx₁⟩ := locateSw_spec hsz hcs.1 hi
      obtain ⟨s₂, hs₂, hgrows⟩ := ih hcs.2 hi₁
      refine ⟨s₂, ?_, .of_extends hx₁ hgrows⟩
      rw [List.foldlM_cons, hs₁]
      exact hs₂
  exact hall (fun c hc => mem_setup_coords.mp hc) hi

omit hsz in
lemma Inv.links_le (hi : Inv g s srcs) : s.links.length ≤ g.fabric.linkCnt := by
  have hsub : srcs.map Prod.fst ⊆ List.range g.fabric.linkCnt := by
    intro l hl
    obtain ⟨x, hx, rfl⟩ := List.mem_map.mp hl
    exact List.mem_range.mpr (hi.lt x hx)
  have hle := (hi.nodup.subperm hsub).length_le
  rwa [List.length_map, List.length_range, ← hi.len] at hle

lemma searchLoop_spec {fuel : ℕ} (hi : Inv g s srcs) (hfuel : g.fabric.linkCnt < fuel + s.links.length) :
    ∃ s', searchLoop g fuel s = some s' ∧ Grows g s srcs s' := by
  induction fuel generalizing s srcs with
  | zero =>
    have hle := hi.links_le
    omega
  | succ fuel ih =>
    obtain ⟨s₁, hs₁, srcs₁, hi₁, hx₁⟩ := locateAll_spec hsz hi
    rw [searchLoop, hs₁]
    change ∃ s', (if s₁.links.length ≠ s.links.length then searchLoop g fuel s₁ else some s₁) = some s' ∧ _
    split_ifs with hmore
    · have hle := hx₁.links.length_le
      obtain ⟨s₂, hs₂, hgrows⟩ := ih hi₁ (by omega)
      exact ⟨s₂, hs₂, .of_extends hx₁ hgrows⟩
    · exact ⟨s₁, rfl, srcs₁, hi₁, hx₁⟩

omit hsz in
lemma inv_init : Inv g (.init g) [] := by
  constructor
  case len => rfl
  case nodup => exact List.nodup_nil
  case gone => exact fun l => by simp [BuildSt.init]
  case lt => exact fun x hx => by simp at hx
  case inRange => exact fun c f h => by cases h
  case once => exact fun c i => List.nodup_nil
  case size => exact fun c i => Nat.zero_le _
  case seats => exact fun c i e h => by cases h
  case links => exact fun k l b h => by cases h
  case mgmt => exact fun f p h => by cases h
  case priv => exact fun o e h => by cases h
  case claimed => exact fun c o h => by cases h
  case back => exact fun o c h => by cases h

omit hsz in
lemma findFSw_lt (nId f : ℕ) (h : f ∈ findFSw g.fabric nId) : f < g.fabric.swCnt :=
  List.mem_range.mp (List.mem_of_find?_eq_some h)

lemma seedSw_lt (d : Dim) : seedSw g d < g.sz d := canonicalize_lt (hsz d)

lemma seedEnd_lt (d' : Dim) (up : Bool) (d : Dim) : seedEnd g d' up d < g.sz d := by
  rw [seedEnd]
  by_cases h : d = d'
  · rw [h, Function.update_self]
    exact canonicalize_lt (hsz d')
  · rw [Function.update_of_ne h]
    exact seedSw_lt hsz d

lemma installSeed_inv : Inv g (installSeed g).2 [] := by
  have hall : ∀ {xs : List (Dim × Bool)} {st : Bool × BuildSt}, Inv g st.2 [] →
      Inv g (xs.foldl (installSeedLink g) st).2 [] := by
    intro xs
    induction xs with
    | nil => exact id
    | cons x xs ih =>
      intro st hi
      refine ih ?_
      rw [installSeedLink]
      cases hlink : g.seed.link x.1 x.2 with
      | none => exact hi
      | some ids =>
        have hone := (installTswitch_inv hi (seedSw_lt hsz) (findFSw_lt ids.1)).1
        dsimp only
        split_ifs
        · exact hone
        · exact (installTswitch_inv hone (seedEnd_lt hsz x.1 x.2) (findFSw_lt ids.2)).1
  exact hall inv_init

end Loops

end OpenSM.Torus2QoS
