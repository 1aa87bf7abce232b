import OpenSM.MeshGeometry

/-! The loops of the mesh analysis end when the links of the seed go in pairs. -/

namespace OpenSM.LashMesh

variable {P L : Type}

section Types

structure MeshInfo where
  dimension : ℕ
  degree : ℕ
  poly : List ℤ

def meshInfo : List MeshInfo := [
    ⟨0, 0, [0]⟩, ⟨1, 1, [0, -1]⟩, ⟨1, 2, [-1, 0, 1]⟩, ⟨1, 2, [-9, 0, 1]⟩, ⟨1, 2, [-36, 0, 1]⟩, ⟨2, 2, [-4, 0, 1]⟩,
    ⟨2, 3, [8, 9, 0, -1]⟩, ⟨2, 3, [24, 17, 0, -1]⟩, ⟨2, 3, [32, 24, 0, -1]⟩, ⟨2, 4, [-15, -32, -18, 0, 1]⟩,
    ⟨2, 4, [-39, -64, -26, 0, 1]⟩, ⟨2, 4, [-48, -80, -33, 0, 1]⟩, ⟨2, 4, [-63, -96, -34, 0, 1]⟩,
    ⟨2, 4, [-48, -112, -41, 0, 1]⟩, ⟨2, 4, [0, -128, -48, 0, 1]⟩, ⟨3, 3, [16, 12, 0, -1]⟩,
    ⟨3, 4, [-28, -48, -21, 0, 1]⟩, ⟨3, 4, [-60, -80, -29, 0, 1]⟩, ⟨3, 4, [-64, -96, -36, 0, 1]⟩,
    ⟨3, 5, [48, 127, 112, 34, 0, -1]⟩, ⟨3, 5, [96, 215, 160, 42, 0, -1]⟩, ⟨3, 5, [96, 232, 184, 49, 0, -1]⟩,
    ⟨3, 5, [144, 303, 208, 50, 0, -1]⟩, ⟨3, 5, [96, 296, 232, 57, 0, -1]⟩, ⟨3, 5, [0, 256, 256, 64, 0, -1]⟩,
    ⟨3, 6, [-81, -288, -381, -224, -51, 0, 1]⟩, ⟨3, 6, [-153, -480, -557, -288, -59, 0, 1]⟩,
    ⟨3, 6, [-144, -480, -591, -320, -66, 0, 1]⟩, ⟨3, 6, [-225, -672, -733, -352, -67, 0, 1]⟩,
    ⟨3, 6, [-144, -576, -743, -384, -74, 0, 1]⟩, ⟨3, 6, [0, -384, -720, -416, -81, 0, 1]⟩,
    ⟨3, 6, [-297, -864, -909, -416, -75, 0, 1]⟩, ⟨3, 6, [-144, -672, -895, -448, -82, 0, 1]⟩,
    ⟨3, 6, [0, -384, -848, -480, -89, 0, 1]⟩, ⟨3, 6, [0, 0, -768, -512, -96, 0, 1]⟩, ⟨4, 4, [-48, -64, -24, 0, 1]⟩,
    ⟨4, 5, [80, 180, 136, 37, 0, -1]⟩, ⟨4, 5, [144, 276, 184, 45, 0, -1]⟩, ⟨4, 5, [128, 288, 208, 52, 0, -1]⟩,
    ⟨4, 6, [-132, -416, -487, -256, -54, 0, 1]⟩, ⟨4, 6, [-228, -640, -671, -320, -62, 0, 1]⟩,
    ⟨4, 6, [-192, -608, -700, -352, -69, 0, 1]⟩, ⟨4, 6, [-324, -864, -855, -384, -70, 0, 1]⟩,
    ⟨4, 6, [-192, -736, -860, -416, -77, 0, 1]⟩, ⟨4, 6, [0, -512, -832, -448, -84, 0, 1]⟩,
    ⟨4, 7, [216, 873, 1392, 1101, 440, 75, 0, -1]⟩, ⟨4, 7, [360, 1329, 1936, 1405, 520, 83, 0, -1]⟩,
    ⟨4, 7, [288, 1176, 1872, 1455, 560, 90, 0, -1]⟩, ⟨4, 7, [504, 1785, 2480, 1709, 600, 91, 0, -1]⟩,
    ⟨4, 7, [288, 1368, 2272, 1735, 640, 98, 0, -1]⟩, ⟨4, 7, [0, 768, 1920, 1728, 680, 105, 0, -1]⟩,
    ⟨4, 7, [648, 2241, 3024, 2013, 680, 99, 0, -1]⟩, ⟨4, 7, [288, 1560, 2672, 2015, 720, 106, 0, -1]⟩,
    ⟨4, 7, [0, 768, 2176, 1984, 760, 113, 0, -1]⟩, ⟨4, 7, [0, 0, 1536, 1920, 800, 120, 0, -1]⟩,
    ⟨4, 8, [-351, -1728, -3492, -3712, -2202, -704, -100, 0, 1]⟩,
    ⟨4, 8, [-567, -2592, -4860, -4800, -2658, -800, -108, 0, 1]⟩,
    ⟨4, 8, [-432, -2160, -4401, -4672, -2733, -848, -115, 0, 1]⟩,
    ⟨4, 8, [-783, -3456, -6228, -5888, -3114, -896, -116, 0, 1]⟩,
    ⟨4, 8, [-432, -2448, -5241, -5568, -3165, -944, -123, 0, 1]⟩,
    ⟨4, 8, [0, -1152, -3888, -5056, -3183, -992, -130, 0, 1]⟩,
    ⟨4, 8, [-999, -4320, -7596, -6976, -3570, -992, -124, 0, 1]⟩,
    ⟨4, 8, [-432, -2736, -6081, -6464, -3597, -1040, -131, 0, 1]⟩,
    ⟨4, 8, [0, -1152, -4272, -5760, -3591, -1088, -138, 0, 1]⟩,
    ⟨4, 8, [0, 0, -2304, -4864, -3552, -1136, -145, 0, 1]⟩, ⟨5, 5, [128, 240, 160, 40, 0, -1]⟩,
    ⟨5, 6, [-208, -576, -600, -288, -57, 0, 1]⟩, ⟨5, 6, [-336, -832, -792, -352, -65, 0, 1]⟩,
    ⟨5, 6, [-256, -768, -816, -384, -72, 0, 1]⟩, ⟨5, 7, [336, 1228, 1776, 1287, 480, 78, 0, -1]⟩,
    ⟨5, 7, [528, 1772, 2368, 1599, 560, 86, 0, -1]⟩, ⟨5, 7, [384, 1504, 2256, 1644, 600, 93, 0, -1]⟩,
    ⟨5, 7, [720, 2316, 2960, 1911, 640, 94, 0, -1]⟩, ⟨5, 7, [384, 1760, 2704, 1932, 680, 101, 0, -1]⟩,
    ⟨5, 7, [0, 1024, 2304, 1920, 720, 108, 0, -1]⟩, ⟨5, 8, [-540, -2448, -4557, -4480, -2481, -752, -103, 0, 1]⟩,
    ⟨5, 8, [-828, -3504, -6101, -5632, -2945, -848, -111, 0, 1]⟩,
    ⟨5, 8, [-576, -2784, -5412, -5440, -3015, -896, -118, 0, 1]⟩,
    ⟨5, 8, [-1116, -4560, -7645, -6784, -3409, -944, -119, 0, 1]⟩,
    ⟨5, 8, [-576, -3168, -6404, -6400, -3455, -992, -126, 0, 1]⟩,
    ⟨5, 8, [0, -1536, -4800, -5824, -3468, -1040, -133, 0, 1]⟩,
    ⟨5, 8, [-1404, -5616, -9189, -7936, -3873, -1040, -127, 0, 1]⟩,
    ⟨5, 8, [-576, -3552, -7396, -7360, -3895, -1088, -134, 0, 1]⟩,
    ⟨5, 8, [0, -1536, -5312, -6592, -3884, -1136, -141, 0, 1]⟩,
    ⟨5, 8, [0, 0, -3072, -5632, -3840, -1184, -148, 0, 1]⟩, ⟨6, 6, [-320, -768, -720, -320, -60, 0, 1]⟩,
    ⟨6, 7, [512, 1680, 2208, 1480, 520, 81, 0, -1]⟩, ⟨6, 7, [768, 2320, 2848, 1800, 600, 89, 0, -1]⟩,
    ⟨6, 7, [512, 1920, 2688, 1840, 640, 96, 0, -1]⟩, ⟨6, 8, [-816, -3392, -5816, -5312, -2767, -800, -106, 0, 1]⟩,
    ⟨6, 8, [-1200, -4672, -7544, -6528, -3239, -896, -114, 0, 1]⟩,
    ⟨6, 8, [-768, -3584, -6608, -6272, -3304, -944, -121, 0, 1]⟩,
    ⟨6, 8, [-1584, -5952, -9272, -7744, -3711, -992, -122, 0, 1]⟩,
    ⟨6, 8, [-768, -4096, -7760, -7296, -3752, -1040, -129, 0, 1]⟩,
    ⟨6, 8, [0, -2048, -5888, -6656, -3760, -1088, -136, 0, 1]⟩, ⟨7, 7, [768, 2240, 2688, 1680, 560, 84, 0, -1]⟩,
    ⟨7, 8, [-1216, -4608, -7280, -6208, -3060, -848, -109, 0, 1]⟩,
    ⟨7, 8, [-1728, -6144, -9200, -7488, -3540, -944, -117, 0, 1]⟩,
    ⟨7, 8, [-1024, -4608, -8000, -7168, -3600, -992, -124, 0, 1]⟩,
    ⟨8, 8, [-1792, -6144, -8960, -7168, -3360, -896, -112, 0, 1]⟩, ⟨2, 4, [-192, -256, -80, 0, 1]⟩
  ]

def polyDiff (t : MeshInfo) (numLinks : ℕ) (poly : ℕ → ℤ) : Bool :=
  numLinks ≠ t.degree ∨ ∃ k < t.degree, t.poly.getD k 0 ≠ poly k

def classifyMeshType (numLinks : ℕ) (poly : ℕ → ℤ) : ℕ :=
  ((meshInfo.zipIdx.drop 1).find? fun t => !polyDiff t.1 numLinks poly).elim 0 Prod.snd

def meshDimension (numLinks : ℕ) (poly : ℕ → ℤ) : ℕ :=
    (meshInfo[classifyMeshType numLinks poly]?).elim 0 (·.dimension)

end Types

section Coordinates

def ltmag (a b : ℤ) : Prop := |a| < |b| ∨ |a| = |b| ∧ b < a

instance (a b : ℤ) : Decidable (ltmag a b) := inferInstanceAs (Decidable (|a| < |b| ∨ |a| = |b| ∧ b < a))

variable (g : Lash P L) (ax : Axes) (dimension : ℕ)

def along (axis k : ℕ) (coord : ℤ) : ℤ := if k = axis / 2 then coord + (if axis % 2 = 1 then -1 else 1) else coord

def coordStep (sw sw1 j : ℕ) (st : (ℕ → ℕ → ℤ) × ℕ) (k : ℕ) : (ℕ → ℕ → ℤ) × ℕ :=
  let coord := along (axis ax sw j - 1) k (st.1 sw k)
  if ltmag coord (st.1 sw1 k) then (Function.update st.1 sw1 (Function.update (st.1 sw1) k coord),
      st.2 + 1) else st

def coordSwitch (st : (ℕ → ℕ → ℤ) × ℕ) (x : Switch P L × ℕ) : (ℕ → ℕ → ℤ) × ℕ :=
  if st.1 x.2 0 = LARGE then st
  else x.1.node.links.zipIdx.foldl (fun st y =>
    if axis ax x.2 y.2 = 0 then st
    else (List.range dimension).foldl (coordStep ax x.2 (g.link y.1).switchId y.2) st) st

def makeCoord (fuel seed : ℕ) : Option (ℕ → ℕ → ℤ) :=
  Lib.Rounds.loop (fun coord => g.switches.zipIdx.foldl (coordSwitch g ax dimension) (coord, 0)) fuel
    fun sw _ => if sw = seed then 0 else LARGE

def magnitude (a : ℤ) : ℕ := 2 * a.natAbs + if a < 0 then 1 else 0

lemma magnitude_lt {a b : ℤ} (h : ltmag a b) : magnitude a < magnitude b := by
  rw [ltmag, Int.abs_eq_natAbs, Int.abs_eq_natAbs] at h
  rw [magnitude, magnitude]
  rcases h with h | ⟨heq, hlt⟩
  · split_ifs
    all_goals omega
  · rw [if_neg (show ¬ a < 0 by omega), if_pos (show b < 0 by omega)]
    omega

variable {g ax dimension}

def heights (g : Lash P L) (dimension : ℕ) (coord : ℕ → ℕ → ℤ) : ℕ :=
  ∑ sw ∈ Finset.range g.switches.length, ∑ k ∈ Finset.range dimension, magnitude (coord sw k)

lemma heights_update {coord : ℕ → ℕ → ℤ} {sw k : ℕ} {c : ℤ} (hsw : sw < g.switches.length) (hk : k < dimension)
    (hlt : magnitude c < magnitude (coord sw k)) :
    heights g dimension (Function.update coord sw (Function.update (coord sw) k c)) < heights g
        dimension coord := by
  have hle : ∀ k' ∈ Finset.range dimension,
      magnitude (Function.update (coord sw) k c k') ≤ magnitude (coord sw k') := by
    intro k' _
    rw [Function.update_apply]
    split_ifs with heq
    · rw [heq]
      exact hlt.le
    · exact le_rfl
  have hrow : ∑ k' ∈ Finset.range dimension, magnitude (Function.update (coord sw) k c k') <
      ∑ k' ∈ Finset.range dimension, magnitude (coord sw k') := by
    refine Finset.sum_lt_sum hle ⟨k, Finset.mem_range.mpr hk, ?_⟩
    rw [Function.update_self]
    exact hlt
  apply Finset.sum_lt_sum
  · intro sw' _
    rw [Function.update_apply]
    split_ifs with heq
    · rw [heq]
      exact hrow.le
    · exact le_rfl
  · refine ⟨sw, Finset.mem_range.mpr hsw, ?_⟩
    rw [Function.update_self]
    exact hrow

lemma coordStep_counted {sw sw1 j k : ℕ} (hsw : sw1 < g.switches.length) (hk : k < dimension)
    (st : (ℕ → ℕ → ℤ) × ℕ) :
    Lib.Rounds.Counted (fun _ => True) (heights g dimension) st (coordStep ax sw sw1 j st k) := by
  rw [coordStep]
  split_ifs with hlt
  · exact .change trivial (heights_update hsw hk (magnitude_lt hlt))
  · exact .refl trivial

lemma makeCoord_ends (hrange : ∀ s ∈ g.switches, ∀ l ∈ s.node.links, (g.link l).switchId < g.switches.length)
    (ax : Axes) (seed : ℕ) {fuel : ℕ}
    (hfuel : heights g dimension (fun sw _ => if sw = seed then 0 else LARGE) ≤ fuel) :
    ∃ coord, makeCoord g ax dimension fuel seed = some coord := by
  have hround : ∀ coord : ℕ → ℕ → ℤ, True → Lib.Rounds.Counted (fun _ => True) (heights g dimension) (coord, 0)
      (g.switches.zipIdx.foldl (coordSwitch g ax dimension) (coord, 0)) := by
    refine fun coord _ => .foldl (fun x hx st _ => ?_) trivial
    have hs := List.mem_of_getElem? (List.mem_zipIdx_iff_getElem?.mp hx)
    rw [coordSwitch]
    split_ifs
    · exact .refl trivial
    · refine .foldl (fun y hy st _ => ?_) trivial
      have hl := List.mem_of_getElem? (List.mem_zipIdx_iff_getElem?.mp hy)
      split_ifs
      · exact .refl trivial
      · exact .foldl (fun k hk st _ => coordStep_counted (hrange x.1 hs y.1 hl) (List.mem_range.mp hk) st) trivial
  obtain ⟨coord, hrun, -⟩ := Lib.Rounds.loop_spec hround trivial hfuel
  exact ⟨coord, hrun⟩

end Coordinates

section Analysis

def blankAxes (g : Lash P L) : Axes := g.switches.map fun s => List.replicate s.node.links.length 0

/-- The axes between the rounds of `make_geometry`. -/
inductive Reached (g : Lash P L) (seed : ℕ) (nd : MeshNode L) (D : ℕ → ℕ → ℤ) (dimension : ℕ) : Axes → Prop
  | start {row : List ℕ} (h : seedAxes D dimension (List.replicate nd.links.length 0) = some row) :
      Reached g seed nd D dimension ((blankAxes g).set seed row)
  | round {ax : Axes} (h : Reached g seed nd D dimension ax) :
      Reached g seed nd D dimension (geometryRound g seed nd ax).1

/-- `seed_axes` stays at the links of the seed, the loops stop, each change of a round gives an axis to a link
that had none, and no axis that is reversed is without an opposite. -/
structure AnalysisEnds (g : Lash P L) (seed : ℕ) (nd : MeshNode L) (D : ℕ → ℕ → ℤ) (dimension : ℕ) : Prop where
  seeded : ∃ row, seedAxes D dimension (List.replicate nd.links.length 0) = some row
  metric : ∀ sw sw1, ∃ rounds, ∀ fuel ≥ rounds, ∃ temp, relax g sw fuel sw1 = some temp
  geometry : ∃ rounds, ∀ fuel ≥ rounds, ∃ ax, makeGeometry g seed dimension fuel (blankAxes g) = some ax
  changes : ∀ ax, Reached g seed nd D dimension ax →
    zeros g (geometryRound g seed nd ax).1 + (geometryRound g seed nd ax).2 ≤ zeros g ax
  opposites : ∀ ax, Reached g seed nd D dimension ax → ∀ sw i, axis ax sw i ≠ 0 →
    seedOpposite seed nd ax (axis ax sw i) ≠ 0
  coord : ∀ ax, ∃ rounds, ∀ fuel ≥ rounds, ∃ coord, makeCoord g ax dimension fuel seed = some coord

variable {g : Lash P L} {seed : ℕ} {s : Switch P L} {D : ℕ → ℕ → ℤ}

lemma blankAxes_row {sw : ℕ} {s : Switch P L} (hs : g.switches[sw]? = some s) :
    (blankAxes g).getD sw [] = List.replicate s.node.links.length 0 := by
  rw [blankAxes, List.getD_eq_getElem?_getD, List.getElem?_map, hs]
  rfl

lemma axis_blank (sw i : ℕ) : axis (blankAxes g) sw i = 0 := by
  rw [axis]
  cases hs : g.switches[sw]? with
  | none =>
    have hrow : (blankAxes g).getD sw [] = [] := by
      rw [blankAxes, List.getD_eq_getElem?_getD, List.getElem?_map, hs]
      rfl
    rw [hrow]
    rfl
  | some s =>
    rw [blankAxes_row hs, List.getD_eq_getElem?_getD, List.getElem?_replicate]
    split_ifs
    · rfl
    · rfl

/-- The state in which the rounds start. -/
lemma induced_start {row : List ℕ} (hs : g.switches[seed]? = some s)
    (hext : Extends (List.replicate s.node.links.length 0) row) :
    Induced g seed row [] ((blankAxes g).set seed row) := by
  have hlen : (blankAxes g).length = g.switches.length := List.length_map _
  have hlt : seed < (blankAxes g).length := hlen ▸ (List.getElem?_eq_some_iff.mp hs).1
  have hrow : ∀ sw, ((blankAxes g).set seed row).getD sw
      [] = if sw = seed then row else (blankAxes g).getD sw [] := by
    intro sw
    split_ifs with h
    · rw [h, List.getD_eq_getElem?_getD, List.getElem?_set_self hlt]
      rfl
    · rw [List.getD_eq_getElem?_getD, List.getElem?_set_ne (Ne.symm h), List.getD_eq_getElem?_getD]
  refine ⟨?_, fun sw s' hs' => ?_, fun sw i hne => ?_, ?_, fun m hm => absurd hm List.not_mem_nil⟩
  · rw [List.length_set, hlen]
  · rw [hrow]
    split_ifs with h
    · subst h
      obtain rfl := Option.some.inj (hs.symm.trans hs')
      rw [hext.length, List.length_replicate]
    · rw [blankAxes_row hs', List.length_replicate]
  · rw [axis, hrow] at hne ⊢
    split_ifs at hne ⊢ with h
    · have hi : i < row.length := by
        by_contra hge
        rw [List.getD_eq_getElem?_getD, List.getElem?_eq_none (not_lt.mp hge)] at hne
        exact hne rfl
      rw [List.getD_eq_getElem _ _ hi]
      exact List.getElem_mem hi
    · exact absurd (axis_blank sw i) hne
  · rw [hrow, if_pos rfl]
    exact .refl row

/-- The analysis ends when the links of the seed go in pairs. -/
theorem analysis_ends (hs : g.switches[seed]? = some s) (hD : s.node.matrix = some D)
    (hrange : ∀ s ∈ g.switches, ∀ l ∈ s.node.links, (g.link l).switchId < g.switches.length) (hnum : Numbered g)
    (poly : ℕ → ℤ)
    (hpair : Pairable D s.node.links.length (meshDimension s.node.links.length poly)
      (List.range s.node.links.length)) :
    AnalysisEnds g seed s.node D (meshDimension s.node.links.length poly) := by
  generalize meshDimension s.node.links.length poly = dimension at hpair ⊢
  have hblank : Closed D (List.replicate s.node.links.length 0) := by
    intro i c hi hc
    exact absurd (List.eq_of_mem_replicate (List.mem_of_getElem? hi)) hc
  have hfree : freeLinks (List.replicate s.node.links.length 0) = List.range s.node.links.length := by
    rw [freeLinks, List.length_replicate]
    apply List.filter_eq_self.mpr
    intro i _
    rw [List.getD_eq_getElem?_getD, List.getElem?_replicate]
    split_ifs
    · rfl
    · rfl
  have hpairable : Pairable D (List.replicate s.node.links.length 0).length (List.range dimension).length
      (freeLinks (List.replicate s.node.links.length 0)) := by
    rw [List.length_replicate, List.length_range, hfree]
    exact hpair
  obtain ⟨row, hseed, hclosed, hext⟩ := seedAxes_spec hblank hpairable
  have hlen : s.node.links.length = row.length := by
    rw [hext.length, List.length_replicate]
  have hstart := induced_start hs hext
  have hround : ∀ ax, Induced g seed row [] ax →
      Lib.Rounds.Counted (Induced g seed row []) (zeros g) (ax, 0) (geometryRound g seed s.node ax) :=
    fun ax h => geometryRound_counted hD hlen hclosed hnum h
  have hreached : ∀ ax, Reached g seed s.node D dimension ax → Induced g seed row [] ax := by
    intro ax h
    induction h with
    | start h =>
      obtain rfl := Option.some.inj (hseed.symm.trans h)
      exact hstart
    | round _ ih => exact (hround _ ih).inv
  refine ⟨⟨row, hseed⟩, fun sw sw1 => ?_, ?_, fun ax h => (hround ax (hreached ax h)).spent,
    fun ax h sw i hne => ?_, fun ax => ⟨_, fun fuel hfuel => makeCoord_ends hrange ax seed hfuel⟩⟩
  · refine ⟨g.switches.length * LARGE, fun fuel hfuel => ?_⟩
    obtain ⟨temp, hrun, -⟩ := relax_ends hrange sw sw1 hfuel
    exact ⟨temp, hrun⟩
  · refine ⟨zeros g ((blankAxes g).set seed row), fun fuel hfuel => ?_⟩
    obtain ⟨ax, hrun, -⟩ := Lib.Rounds.loop_spec hround hstart hfuel
    refine ⟨ax, ?_⟩
    have hseed' : seedAxes D dimension ((blankAxes g).getD seed []) = some row := (blankAxes_row hs).symm ▸ hseed
    rw [makeGeometry, hs, Option.bind_some, hD]
    dsimp only
    rw [hseed', Option.bind_some]
    exact hrun
  · have hinv := hreached ax h
    exact (seedOpposite_spec hD hlen hclosed hinv hne (hinv.among sw i hne)).1

lemma numbered_of {g : Lash P L} (h : ∀ s ∈ g.switches, ∀ l ∈ s.node.links, (g.link l).linkId.all fun l2 =>
    g.switches[(g.link l).switchId]?.any fun s' => l2 < s'.node.links.length) : Numbered g := by
  intro s hs l hl l2 hl2
  have hall := h s hs l hl
  rw [hl2, Option.all_some, Option.any_eq_true] at hall
  obtain ⟨s', hs', hlt⟩ := hall
  exact ⟨s', hs', of_decide_eq_true hlt⟩

/-- The seed has a neighbour on either side, and they are three hops apart. -/
theorem analysis_ends_pentagon : meshDimension 2 (fun k => [-9, 0, 1].getD k 0) = 1 ∧
    seedAxes (fun i j => if i = j then 0 else 3) 1 [0, 0] = some [1, 2] ∧
    AnalysisEnds pentagon 0 ⟨fun _ => 0, fun _ => 0, some fun i j => if i = j then 0 else 3, [(0, 0), (0, 1)]⟩
      (fun i j => if i = j then 0 else 3) (meshDimension 2 fun k => [-9, 0, 1].getD k 0) := by
  have hdimension : meshDimension 2 (fun k => [-9, 0, 1].getD k 0) = 1 := by decide
  refine ⟨hdimension, by decide, ?_⟩
  refine @analysis_ends ℕ (ℕ × ℕ) pentagon 0
    ⟨10, 0, ⟨fun _ => 0, fun _ => 0, some fun i j => if i = j then 0 else 3, [(0, 0), (0, 1)]⟩⟩
    (fun i j => if i = j then 0 else 3) rfl rfl pentagon_connected.1.range pentagon_connected.2
    (fun k => [-9, 0, 1].getD k 0) ?_
  change Pairable _ 2 (meshDimension 2 fun k => [-9, 0, 1].getD k 0) [0, 1]
  rw [hdimension]
  exact trivial

end Analysis

section Gaps

/-- A mesh of three by four switches without two of its corners: where each link leads, and its number there. -/
def gapLinks : List (List (ℕ × ℕ)) := [[(5, 0), (6, 0), (4, 3)], [(2, 0), (9, 1)], [(1, 0), (5, 2)],
  [(4, 1), (6, 1)], [(8, 1), (3, 0), (9, 0), (0, 2)], [(0, 0), (9, 2), (2, 1)], [(0, 1), (3, 1)],
  [(8, 0), (9, 3)], [(7, 0), (4, 0)],
  [(4, 2), (1, 1), (5, 1), (7, 1)]]

def gapDistances : List (List (List ℤ)) := [[[0, 4, 2], [4, 0, 2], [2, 2, 0]], [[0, 2], [2, 0]], [[0, 2], [2, 0]],
  [[0, 2], [2, 0]], [[0, 6, 2, 4], [6, 0, 4, 2], [2, 4, 0, 2], [4, 2, 2, 0]], [[0, 2, 4], [2, 0, 2], [4, 2, 0]],
  [[0, 2], [2, 0]], [[0, 2], [2, 0]], [[0, 2], [2, 0]], [[0, 4, 2, 2], [4, 0, 2, 6], [2, 2, 0, 4], [2, 6, 4, 0]]]

def gapDistance (sw i j : ℕ) : ℤ := ((gapDistances.getD sw []).getD i []).getD j 0

def gapNode (sw : ℕ) : MeshNode (ℕ × ℕ) where
  axes _ := 0
  coord _ := 0
  matrix := some (gapDistance sw)
  links := (List.range (gapLinks.getD sw []).length).map fun i => (sw, i)

def gaps : Lash ℕ (ℕ × ℕ) where
  switches := (List.range 10).map fun sw => ⟨sw, sw, gapNode sw⟩
  link l := ⟨((gapLinks.getD l.1 []).getD l.2 (0, 0)).1,
      some ((gapLinks.getD l.1 []).getD l.2 (0, 0)).2, 0, [l.2 + 1]⟩

lemma exists_of_metric {run : Option (Except Lib.CheckedPoly.Fault ((ℕ → ℕ → ℤ) × (ℕ → ℤ)))}
    {q : (ℕ → ℕ → ℤ) → (ℕ → ℤ) → Bool} (h : (run.any fun r => r.toOption.any fun mp => q mp.1 mp.2) = true) :
    ∃ m p, run = some (.ok (m, p)) ∧ q m p = true := by
  match run, h with
  | some (.ok (m, p)), h => exact ⟨m, p, rfl, h⟩

/-- A seed that the table of tori knows, with two of its links in different directions taken for a pair: one of
the others has no opposite, and the rounds never stop. -/
theorem gaps_never_end : TwoWay gaps ∧ Numbered gaps ∧
    (∀ x ∈ gaps.switches.zipIdx, ∃ D m p, x.1.node.matrix = some D ∧
      getSwitchMetric gaps x.2 16 = some (.ok (m, p)) ∧ (∀ i < x.1.node.links.length, ∀ j < x.1.node.links.length,
      m i j = D i j) ∧
      (x.2 = 4 → meshDimension x.1.node.links.length p = 2)) ∧
    (∀ fuel, makeGeometry gaps 4 2 fuel (blankAxes gaps) = none) ∧
    ∀ D, ¬ AnalysisEnds gaps 4 (gapNode 4) D 2 := by
  have hfirst : geometryRound gaps 4 (gapNode 4) ((blankAxes gaps).set 4 [1, 2, 3, 0]) =
      ([[0, 0, 0], [0, 0], [0, 0], [1, 0], [1, 2, 3, 0], [0, 0, 0], [0, 0], [4, 2], [3, 2],
          [4, 0, 0, 1]], 6 + 1) := by
    decide +kernel
  have hstuck : geometryRound gaps 4 (gapNode 4)
      [[0, 0, 0], [0, 0], [0, 0], [1, 0], [1, 2, 3, 0], [0, 0, 0], [0, 0], [4, 2], [3, 2], [4, 0, 0, 1]] =
      ([[0, 0, 0], [0, 0], [0, 0], [1, 0], [1, 2, 3, 0], [0, 0, 0], [0, 0], [4, 2], [3, 2],
          [4, 0, 0, 1]], 0 + 1) := by
    decide +kernel
  have hnone : ∀ fuel, makeGeometry gaps 4 2 fuel (blankAxes gaps) = none := by
    intro fuel
    have hrun : makeGeometry gaps 4 2 fuel (blankAxes gaps) =
        Lib.Rounds.loop (geometryRound gaps 4 (gapNode 4)) fuel ((blankAxes gaps).set 4 [1, 2, 3, 0]) := rfl
    rw [hrun]
    cases fuel with
    | zero => exact Lib.Rounds.loop_zero hfirst
    | succ fuel => exact (Lib.Rounds.loop_succ hfirst fuel).trans (Lib.Rounds.loop_stuck hstuck fuel)
  refine ⟨twoWay_of (by decide +kernel), numbered_of (by decide +kernel), fun x hx => ?_, hnone, fun D h => ?_⟩
  · have hall : ∀ x ∈ gaps.switches.zipIdx, ((getSwitchMetric gaps x.2 16).any fun r => r.toOption.any fun mp =>
        decide (∀ i < x.1.node.links.length, ∀ j < x.1.node.links.length, mp.1 i j = gapDistance x.2 i j) &&
          decide (x.2 = 4 → meshDimension x.1.node.links.length mp.2 = 2)) = true := by
      decide +kernel
    obtain ⟨m, p, hrun, hq⟩ := exists_of_metric (q := fun m p =>
      decide (∀ i < x.1.node.links.length, ∀ j < x.1.node.links.length, m i j = gapDistance x.2 i j) &&
        decide (x.2 = 4 → meshDimension x.1.node.links.length p = 2)) (hall x hx)
    have hmatrix : x.1.node.matrix = some (gapDistance x.2) := by
      have hget := List.mem_zipIdx_iff_getElem?.mp hx
      rw [gaps, List.getElem?_map] at hget
      obtain ⟨k, hk, heq⟩ := Option.map_eq_some_iff.mp hget
      obtain ⟨hlt, hk⟩ := List.getElem?_eq_some_iff.mp hk
      rw [List.getElem_range] at hk
      rw [← heq, hk]
      rfl
    rw [Bool.and_eq_true] at hq
    exact ⟨_, m, p, hmatrix, hrun, of_decide_eq_true hq.1, of_decide_eq_true hq.2⟩
  · obtain ⟨rounds, hrounds⟩ := h.geometry
    obtain ⟨ax, hax⟩ := hrounds rounds le_rfl
    rw [hnone] at hax
    cases hax

end Gaps

end OpenSM.LashMesh
