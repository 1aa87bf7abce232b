import OpenSM.Lib.Paths

/-! The discovered subnet as the routing code sees it: switches in `sw_guid_tbl` order, end ports
of channel adapters and routers, cables, hop weights and health flags. -/

namespace OpenSM

/-- `OSM_NO_PATH`, the filler of hop tables and forwarding tables. -/
def noPath : ℕ := 255

/-- The far side of a cable: a port of a switch, or an end port of a CA or router. -/
inductive Remote (n m : ℕ)
  | sw (r : Fin n) (port : ℕ)
  | ca (e : Fin m)
  deriving DecidableEq

structure Fabric (n m : ℕ) where
  /-- `num_ports`: one more than the number of external ports. -/
  numPorts : Fin n → ℕ
  /-- `p_remote_physp` of each switch port. -/
  remote : Fin n → ℕ → Option (Remote n m)
  /-- The switch port an end port is cabled to, if it is cabled to a switch. -/
  attach : Fin m → Option (Fin n × ℕ)
  lid : Fin n → ℕ
  maxLidHo : Fin n → ℕ
  hopWf : Fin n → ℕ → ℕ
  healthy : Fin n → ℕ → Bool
  caHealthy : Fin m → Bool
  numPorts_pos : ∀ s, 0 < numPorts s
  numPorts_le : ∀ s, numPorts s ≤ 255
  remote_port : ∀ s p x, remote s p = some x → 0 < p ∧ p < numPorts s
  remote_symm : ∀ s p r q, remote s p = some (.sw r q) → remote r q = some (.sw s p)
  remote_ca : ∀ s p e, remote s p = some (.ca e) ↔ attach e = some (s, p)

namespace Fabric

variable {n m : ℕ} (f : Fabric n m)

/-- `osm_link_is_healthy`: both ends of the cable carry the healthy flag; a link whose other side
is not known counts as healthy. -/
def linkIsHealthy (s : Fin n) (p : ℕ) : Bool :=
  match f.remote s p with
  | some (.sw r q) => f.healthy s p && f.healthy r q
  | some (.ca e) => f.healthy s p && f.caHealthy e
  | none => true

/-- A cable from `s` to a switch `r`, with the hop weight of the port it leaves through. -/
def Link (s r : Fin n) (w : ℕ) : Prop :=
  ∃ p q, f.remote s p = some (.sw r q) ∧ f.hopWf s p = w

def HealthyLink (s r : Fin n) (w : ℕ) : Prop :=
  ∃ p q, f.remote s p = some (.sw r q) ∧ f.linkIsHealthy s p = true ∧ f.hopWf s p = w

noncomputable def dist (s d : Fin n) : ℕ∞ := Lib.Paths.dist f.Link f.Link s d

noncomputable def healthyDist (s d : Fin n) : ℕ∞ := Lib.Paths.dist f.HealthyLink f.HealthyLink s d

/-- The weight of the lightest path whose links, the last one excepted, are healthy. -/
noncomputable def seededDist (s d : Fin n) : ℕ∞ := Lib.Paths.dist f.HealthyLink f.Link s d

/-- What the LID manager and the hop weight parser guarantee to the routing code. -/
structure Ready : Prop where
  lid_injective : Function.Injective f.lid
  lid_pos : ∀ d, 0 < f.lid d
  lid_le : ∀ s d, f.lid d ≤ f.maxLidHo s
  hopWf_pos : ∀ s p, 0 < f.hopWf s p
  hopWf_le : ∀ s p, f.hopWf s p ≤ 255

def AllHealthy : Prop := ∀ s p, f.healthy s p = true

variable {f}

lemma link_iff_of_allHealthy (h : f.AllHealthy) (s r : Fin n) (w : ℕ) :
    f.HealthyLink s r w ↔ f.Link s r w := by
  constructor
  · rintro ⟨p, q, hc, -, hw⟩
    exact ⟨p, q, hc, hw⟩
  · rintro ⟨p, q, hc, hw⟩
    refine ⟨p, q, hc, ?_, hw⟩
    simp [linkIsHealthy, hc, h _ _]

lemma seededDist_of_allHealthy (h : f.AllHealthy) (s d : Fin n) : f.seededDist s d = f.dist s d := by
  have hl : f.HealthyLink = f.Link := by
    funext s r w
    exact propext (link_iff_of_allHealthy h s r w)
  rw [seededDist, dist, hl]

/-- Three switches in a ring, each cabled from port 1 to port 2 of the next, and an end port on the
last of them. -/
def triangle (healthy : Fin 3 → ℕ → Bool) : Fabric 3 1 where
  numPorts _ := 4
  remote s p :=
    if p = 1 then some (.sw (s + 1) 2)
    else if p = 2 then some (.sw (s + 2) 1)
    else if p = 3 ∧ s = 2 then some (.ca 0)
    else none
  attach _ := some (2, 3)
  lid s := s + 1
  maxLidHo _ := 4
  hopWf _ _ := 1
  healthy := healthy
  caHealthy _ := true
  numPorts_pos _ := by decide
  numPorts_le _ := by decide
  remote_port s p x h := by
    split_ifs at h <;> omega
  remote_symm s p r q h := by
    split_ifs at h with h₁ h₂
    · obtain ⟨rfl, rfl⟩ : s + 1 = r ∧ 2 = q := by simpa using h
      subst h₁
      revert s
      decide
    · obtain ⟨rfl, rfl⟩ : s + 2 = r ∧ 1 = q := by simpa using h
      subst h₂
      revert s
      decide
    · cases h
  remote_ca s p e := by
    obtain rfl : e = 0 := Subsingleton.elim _ _
    constructor
    · intro h
      split_ifs at h with h₁ h₂ h₃
      · cases h
      · cases h
      · rw [h₃.1, h₃.2]
    · intro h
      obtain ⟨rfl, rfl⟩ : 2 = s ∧ 3 = p := by simpa using h
      rfl

lemma ready_triangle (healthy : Fin 3 → ℕ → Bool) : (triangle healthy).Ready where
  lid_injective a b h := by
    apply Fin.ext
    simpa [triangle] using h
  lid_pos d := Nat.succ_pos _
  lid_le s d := by
    have := d.isLt
    change (d : ℕ) + 1 ≤ 4
    omega
  hopWf_pos _ _ := one_pos
  hopWf_le _ _ := Nat.le_of_ble_eq_true rfl

end Fabric

end OpenSM
