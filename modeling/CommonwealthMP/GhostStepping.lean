import CommonwealthMP.PoseSampling
import Mathlib.Analysis.Real.Sqrt
import Mathlib.Tactic.Positivity

/-! # Stepping a ghost toward its target, over the reals

`StepToward` with exact numbers: a snap, or a step along the straight line that is no longer than the distance left. -/
namespace CommonwealthMP.Motion

noncomputable section

def kSnapUu : ℝ := 2048
def kMinMoveUu : ℝ := 0.01
def kCatchUpMult : ℝ := 2.5

structure ApplyResult where
  x : ℝ
  y : ℝ
  z : ℝ
  yaw : ℝ
  snapped : Bool

structure Point where
  x : ℝ
  y : ℝ
  z : ℝ

/-- The length that `StepToward` computes. -/
def distance (cur aim : Point) : ℝ :=
  Real.sqrt ((aim.x - cur.x) * (aim.x - cur.x) + (aim.y - cur.y) * (aim.y - cur.y) + (aim.z - cur.z) * (aim.z - cur.z))

def SampledTransform.point (target : SampledTransform ℝ) : Point := ⟨target.x, target.y, target.z⟩

def ApplyResult.point (r : ApplyResult) : Point := ⟨r.x, r.y, r.z⟩

def frameStep (target : SampledTransform ℝ) (dist dt : ℝ) : ℝ :=
  let speed := max target.speed 40
  let catchUp := if 256 < dist then kCatchUpMult else 1.35
  min dist (speed * dt * catchUp)

open Classical in
def stepToward (cur : Point) (target : SampledTransform ℝ) (dt interpDelayMs : ℝ) : ApplyResult :=
  let dx := target.x - cur.x
  let dy := target.y - cur.y
  let dz := target.z - cur.z
  let dist := distance cur target.point
  if kSnapUu < dist ∨ dist < kMinMoveUu ∨ interpDelayMs ≤ 0 then
    { x := target.x, y := target.y, z := target.z, yaw := target.yaw, snapped := decide (kSnapUu < dist) }
  else
    let s := frameStep target dist dt / dist
    { x := cur.x + dx * s, y := cur.y + dy * s, z := cur.z + dz * s, yaw := target.yaw, snapped := false }

def along (cur aim : Point) (s : ℝ) : Point :=
  ⟨cur.x + (aim.x - cur.x) * s, cur.y + (aim.y - cur.y) * s, cur.z + (aim.z - cur.z) * s⟩

theorem along_one (cur aim : Point) : along cur aim 1 = aim := by
  simp [along]

theorem distance_nonneg (cur aim : Point) : 0 ≤ distance cur aim := Real.sqrt_nonneg _

theorem distance_self (p : Point) : distance p p = 0 := by
  simp [distance]

theorem distance_along {s : ℝ} (h : s ≤ 1) (cur aim : Point) : distance (along cur aim s) aim = (1 - s) * distance cur aim := by
  have hfactor : (aim.x - (along cur aim s).x) * (aim.x - (along cur aim s).x) +
      (aim.y - (along cur aim s).y) * (aim.y - (along cur aim s).y) + (aim.z - (along cur aim s).z) * (aim.z - (along cur aim s).z) =
      (1 - s) ^ 2 * ((aim.x - cur.x) * (aim.x - cur.x) + (aim.y - cur.y) * (aim.y - cur.y) + (aim.z - cur.z) * (aim.z - cur.z)) := by
    simp only [along]
    ring
  rw [distance, hfactor, Real.sqrt_mul (sq_nonneg _), Real.sqrt_sq (sub_nonneg.mpr h), distance]

section Step
variable {cur : Point} {target : SampledTransform ℝ} {dt interpDelayMs : ℝ}

theorem frameStep_nonneg (hdt : 0 ≤ dt) : 0 ≤ frameStep target (distance cur target.point) dt := by
  unfold frameStep
  refine le_min (distance_nonneg _ _) (mul_nonneg (mul_nonneg ?_ hdt) ?_)
  · exact le_max_of_le_right (by norm_num)
  · split <;> norm_num [kCatchUpMult]

theorem frameStep_le (dist dt : ℝ) : frameStep target dist dt ≤ dist := min_le_left _ _

/-- Where a step ends: at the target, or a frame's distance on the way. -/
theorem stepToward_cases (cur : Point) (target : SampledTransform ℝ) (dt interpDelayMs : ℝ) :
    ((stepToward cur target dt interpDelayMs).point = target.point ∧
      ((stepToward cur target dt interpDelayMs).snapped = true → kSnapUu < distance cur target.point)) ∨
    (0 < distance cur target.point ∧ (stepToward cur target dt interpDelayMs).snapped = false ∧
      (stepToward cur target dt interpDelayMs).point =
        along cur target.point (frameStep target (distance cur target.point) dt / distance cur target.point)) := by
  by_cases h : kSnapUu < distance cur target.point ∨ distance cur target.point < kMinMoveUu ∨ interpDelayMs ≤ 0
  · left
    have hstep : stepToward cur target dt interpDelayMs =
        { x := target.x, y := target.y, z := target.z, yaw := target.yaw,
          snapped := @decide (kSnapUu < distance cur target.point) (Classical.propDecidable _) } := if_pos h
    rw [hstep]
    exact ⟨rfl, fun hs => of_decide_eq_true hs⟩
  · right
    have hmin : kMinMoveUu ≤ distance cur target.point := not_lt.mp fun hlt => h (.inr (.inl hlt))
    have hpos : (0 : ℝ) < kMinMoveUu := by norm_num [kMinMoveUu]
    rw [stepToward, if_neg h]
    exact ⟨hpos.trans_le hmin, rfl, rfl⟩

theorem stepToward_segment (hdt : 0 < dt) :
    ∃ s, 0 ≤ s ∧ s ≤ 1 ∧ (stepToward cur target dt interpDelayMs).point = along cur target.point s := by
  rcases stepToward_cases cur target dt interpDelayMs with ⟨hpoint, -⟩ | ⟨hpos, -, hpoint⟩
  · exact ⟨1, zero_le_one, le_rfl, by rw [hpoint, along_one]⟩
  · refine ⟨_, div_nonneg (frameStep_nonneg hdt.le) hpos.le, ?_, hpoint⟩
    rw [div_le_one hpos]
    exact frameStep_le _ _

theorem distance_stepToward_le (hdt : 0 < dt) :
    distance (stepToward cur target dt interpDelayMs).point target.point ≤ distance cur target.point := by
  obtain ⟨s, hzero, hone, hpoint⟩ : ∃ s, 0 ≤ s ∧ s ≤ 1 ∧
      (stepToward cur target dt interpDelayMs).point = along cur target.point s := stepToward_segment hdt
  rw [hpoint, distance_along hone]
  exact mul_le_of_le_one_left (distance_nonneg _ _) (by linarith)

/-- A frame of at least 1/120 s arrives, or gets closer by a fixed amount. -/
theorem stepToward_progress (hdt : 1 / 120 ≤ dt) :
    (stepToward cur target dt interpDelayMs).point = target.point ∨
      distance (stepToward cur target dt interpDelayMs).point target.point ≤ distance cur target.point - 0.45 := by
  rcases stepToward_cases cur target dt interpDelayMs with ⟨hpoint, -⟩ | ⟨hpos, -, hpoint⟩
  · exact .inl hpoint
  · have hle : frameStep target (distance cur target.point) dt / distance cur target.point ≤ 1 := by
      rw [div_le_one hpos]
      exact frameStep_le _ _
    by_cases hall : frameStep target (distance cur target.point) dt = distance cur target.point
    · left
      rw [hpoint, hall, div_self hpos.ne', along_one]
    · right
      have hstep : 0.45 ≤ frameStep target (distance cur target.point) dt := by
        have hspeed : (40 : ℝ) ≤ max target.speed 40 := le_max_right _ _
        have hcatch : (1.35 : ℝ) ≤ if 256 < distance cur target.point then kCatchUpMult else 1.35 := by
          split
          · norm_num [kCatchUpMult]
          · exact le_rfl
        have hmul : (40 : ℝ) * (1 / 120) * 1.35 ≤
            max target.speed 40 * dt * if 256 < distance cur target.point then kCatchUpMult else 1.35 := by
          refine mul_le_mul (mul_le_mul hspeed hdt (by norm_num) (by linarith)) hcatch (by norm_num) ?_
          exact mul_nonneg (by linarith) (by linarith)
        have hmin := (min_choice (distance cur target.point)
          (max target.speed 40 * dt * if 256 < distance cur target.point then kCatchUpMult else 1.35)).resolve_left hall
        rw [frameStep, hmin]
        linarith
      rw [hpoint, distance_along hle, sub_mul, one_mul, div_mul_cancel₀ _ hpos.ne']
      linarith

theorem stepToward_arrived (target : SampledTransform ℝ) (dt interpDelayMs : ℝ) :
    (stepToward target.point target dt interpDelayMs).point = target.point := by
  rcases stepToward_cases target.point target dt interpDelayMs with ⟨hpoint, -⟩ | ⟨hpos, -, -⟩
  · exact hpoint
  · rw [distance_self] at hpos
    exact absurd hpos (lt_irrefl _)

end Step

/-- The positions of a ghost whose target stands still, frame by frame. -/
def positions (target : SampledTransform ℝ) (dt interpDelayMs : ℕ → ℝ) (start : Point) : ℕ → Point
  | 0 => start
  | n + 1 => (stepToward (positions target dt interpDelayMs start n) target (dt n) (interpDelayMs n)).point

section Frames
variable {target : SampledTransform ℝ} {dt interpDelayMs : ℕ → ℝ} {start : Point}

theorem positions_arrived {n : ℕ} (h : positions target dt interpDelayMs start n = target.point) {m : ℕ} (hm : n ≤ m) :
    positions target dt interpDelayMs start m = target.point := by
  induction m, hm using Nat.le_induction with
  | base => exact h
  | succ m _ ih => rw [positions, ih, stepToward_arrived]

theorem positions_progress (hdt : ∀ n, 1 / 120 ≤ dt n) (n : ℕ) :
    positions target dt interpDelayMs start n = target.point ∨
      distance (positions target dt interpDelayMs start n) target.point ≤ distance start target.point - 0.45 * n := by
  induction n with
  | zero => exact .inr (by simp [positions])
  | succ n ih =>
    rcases ih with ih | ih
    · exact .inl (positions_arrived ih (Nat.le_succ n))
    · have hstep : (stepToward (positions target dt interpDelayMs start n) target (dt n) (interpDelayMs n)).point = target.point ∨
          distance (stepToward (positions target dt interpDelayMs start n) target (dt n) (interpDelayMs n)).point target.point ≤
            distance (positions target dt interpDelayMs start n) target.point - 0.45 := stepToward_progress (hdt n)
      rcases hstep with h | h
      · exact .inl h
      · right
        rw [positions]
        push_cast
        linarith

theorem positions_arrive (hdt : ∀ n, 1 / 120 ≤ dt n) :
    ∃ n, ∀ m, n ≤ m → positions target dt interpDelayMs start m = target.point := by
  obtain ⟨n, hn⟩ := exists_nat_gt (distance start target.point / 0.45)
  refine ⟨n, fun m hm => positions_arrived ?_ hm⟩
  refine (positions_progress hdt n).resolve_right fun h => ?_
  rw [div_lt_iff₀ (by norm_num)] at hn
  have hnonneg := distance_nonneg (positions target dt interpDelayMs start n) target.point
  linarith

/-- `dt` of `MoveGhost`, from the time of its last call for the ghost. -/
def moveSeconds (lastMove : Option ℝ) (now : ℝ) : ℝ := lastMove.elim (1 / 20) fun last => max (1 / 120) (min (now - last) 0.25)

theorem le_moveSeconds (lastMove : Option ℝ) (now : ℝ) : 1 / 120 ≤ moveSeconds lastMove now := by
  cases lastMove with
  | none =>
    rw [moveSeconds, Option.elim_none]
    norm_num
  | some last => exact le_max_left _ _

/-- Whatever the clock shows at the calls of `MoveGhost`, the ghost arrives. -/
theorem positions_arrive_moveGhost (clock : ℕ → ℝ) :
    ∃ n, ∀ m, n ≤ m → positions target (fun k => moveSeconds (if k = 0 then none else some (clock (k - 1))) (clock k))
      interpDelayMs start m = target.point :=
  positions_arrive fun _ => le_moveSeconds _ _

end Frames

/-- A step ends on the way to the target and never farther from it, and is called a snap only over a long distance; frames
of at least 1/120 s bring the ghost to a target that stands still, and leave it there. -/
theorem stepToward_converges (target : SampledTransform ℝ) :
    (∀ cur dt interpDelayMs, 0 < dt → 0 < interpDelayMs →
      (∃ s, 0 ≤ s ∧ s ≤ 1 ∧ (stepToward cur target dt interpDelayMs).point = along cur target.point s) ∧
      distance (stepToward cur target dt interpDelayMs).point target.point ≤ distance cur target.point ∧
      ((stepToward cur target dt interpDelayMs).snapped = true → 2048 < distance cur target.point)) ∧
    (∀ start dt interpDelayMs, (∀ n, 1 / 120 ≤ dt n) →
      ∃ n, ∀ m, n ≤ m → positions target dt interpDelayMs start m = target.point) := by
  refine ⟨fun cur dt interpDelayMs hdt _ => ⟨stepToward_segment hdt, distance_stepToward_le hdt, fun hsnap => ?_⟩,
    fun start dt interpDelayMs hdt => positions_arrive hdt⟩
  rcases stepToward_cases cur target dt interpDelayMs with ⟨-, hfar⟩ | ⟨-, hno, -⟩
  · exact hfar hsnap
  · rw [hno] at hsnap
    cases hsnap

end
end CommonwealthMP.Motion
