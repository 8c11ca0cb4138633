import CommonwealthMP.PluginClient
import Mathlib.Algebra.Order.Floor.Semiring
import Mathlib.Data.Rat.Floor
import Mathlib.Tactic.Linarith

/-! # Sampling a ring of poses, over the rationals

The functions of `motion_interp.h` with exact numbers. The ring keeps its samples in the order of their times,
so that a time between the first and the last lies between two neighbours. -/
namespace CommonwealthMP.Motion

structure TimedSample (K : Type) where
  recvSec : K
  x : K
  y : K
  z : K
  yaw : K
  pitch : K
  speed : K
  vx : K
  vy : K
  flags : UInt32
  locationFormId : UInt32
  deriving DecidableEq

structure SampledTransform (K : Type) where
  x : K
  y : K
  z : K
  yaw : K
  pitch : K
  speed : K
  vx : K
  vy : K
  flags : UInt32 := 0
  locationFormId : UInt32 := 0
  valid : Bool := false
  extrapolated : Bool := false
  deriving DecidableEq

structure PoseRing (K : Type) where
  samples : List (TimedSample K) := []
  deriving DecidableEq

section Push
variable {K : Type} [LinearOrder K]

/-- The comparison that lets a new sample replace the last one. -/
def TimedSample.still (s last : TimedSample K) : Bool :=
  decide (s.x = last.x) && decide (s.y = last.y) && decide (s.z = last.z) && decide (s.yaw = last.yaw) &&
    decide (s.speed = last.speed) && decide (s.flags = last.flags)

def TimedSample.raised (s last : TimedSample K) : TimedSample K :=
  if s.recvSec < last.recvSec then { s with recvSec := last.recvSec } else s

def PoseRing.push (ring : PoseRing K) (s : TimedSample K) : PoseRing K :=
  match ring.samples.getLast? with
  | none => { samples := [s] }
  | some last =>
    let s := s.raised last
    if s.still last then { samples := ring.samples.dropLast ++ [s] }
    else
      let samples := ring.samples ++ [s]
      { samples := samples.drop (samples.length - Plugin.kPoseRingSize) }

end Push

def lerp (a b t : ℚ) : ℚ := a + (b - a) * t

/-- `while (d > 3.14159265f) d -= 6.2831853f` -/
def unwindAbove (d : ℚ) : ℚ := if 3.14159265 < d then unwindAbove (d - 6.2831853) else d
termination_by ⌈d⌉₊
decreasing_by
  rename_i h
  have hle := Nat.ceil_mono (show d - 6.2831853 ≤ d - 1 by linarith)
  have hone : 1 ≤ ⌈d⌉₊ := Nat.one_le_ceil_iff.mpr (by linarith)
  rw [Nat.ceil_sub_one] at hle
  omega

/-- `while (d < -3.14159265f) d += 6.2831853f` -/
def unwindBelow (d : ℚ) : ℚ := if d < -3.14159265 then unwindBelow (d + 6.2831853) else d
termination_by ⌈-d⌉₊
decreasing_by
  rename_i h
  have hle := Nat.ceil_mono (show -(d + 6.2831853) ≤ -d - 1 by linarith)
  have hone : 1 ≤ ⌈-d⌉₊ := Nat.one_le_ceil_iff.mpr (by linarith)
  rw [Nat.ceil_sub_one] at hle
  omega

def lerpAngle (a b t : ℚ) : ℚ := a + unwindBelow (unwindAbove (b - a)) * t

def SampledTransform.ofSample (s : TimedSample ℚ) : SampledTransform ℚ where
  x := s.x
  y := s.y
  z := s.z
  yaw := s.yaw
  pitch := s.pitch
  speed := s.speed
  vx := s.vx
  vy := s.vy
  flags := s.flags
  locationFormId := s.locationFormId
  valid := true

def extrapolate (newest : TimedSample ℚ) (renderSec : ℚ) : SampledTransform ℚ :=
  let dt := min 0.15 (renderSec - newest.recvSec)
  { SampledTransform.ofSample newest with
    x := newest.x + newest.vx * dt
    y := newest.y + newest.vy * dt
    extrapolated := decide (0.0001 < dt) }

def progress (a b : TimedSample ℚ) (renderSec : ℚ) : ℚ :=
  let span := b.recvSec - a.recvSec
  if 1e-6 < span then (renderSec - a.recvSec) / span else 1

def interpolate (a b : TimedSample ℚ) (renderSec : ℚ) : SampledTransform ℚ :=
  let t := progress a b renderSec
  { x := lerp a.x b.x t
    y := lerp a.y b.y t
    z := lerp a.z b.z t
    yaw := lerpAngle a.yaw b.yaw t
    pitch := lerp a.pitch b.pitch t
    speed := lerp a.speed b.speed t
    vx := lerp a.vx b.vx t
    vy := lerp a.vy b.vy t
    flags := if t < 0.5 then a.flags else b.flags
    locationFormId := if b.locationFormId ≠ 0 then b.locationFormId else a.locationFormId
    valid := true }

/-- The search loop: the first two neighbours with the time between them. -/
def bracket (renderSec : ℚ) : List (TimedSample ℚ) → Option (TimedSample ℚ × TimedSample ℚ)
  | a :: b :: samples =>
    if renderSec < a.recvSec ∨ b.recvSec < renderSec then bracket renderSec (b :: samples) else some (a, b)
  | _ => none

inductive SampleExit
  | empty
  | front (s : TimedSample ℚ)
  | newest (s : TimedSample ℚ)
  | between (a b : TimedSample ℚ)
  | fallThrough (s : TimedSample ℚ)
  deriving DecidableEq

def sampleExit (ring : PoseRing ℚ) (renderSec : ℚ) : SampleExit :=
  match ring.samples with
  | [] => .empty
  | [s] => .front s
  | s :: next :: samples =>
    if renderSec ≤ s.recvSec then .front s
    else
      let newest := (next :: samples).getLast (List.cons_ne_nil _ _)
      if newest.recvSec ≤ renderSec then .newest newest
      else
        match bracket renderSec (s :: next :: samples) with
        | some (a, b) => .between a b
        | none => .fallThrough newest

def sampleAt (ring : PoseRing ℚ) (renderSec : ℚ) : SampledTransform ℚ :=
  match sampleExit ring renderSec with
  | .empty => ⟨0, 0, 0, 0, 0, 0, 0, 0, 0, 0, false, false⟩
  | .front s => .ofSample s
  | .newest s => extrapolate s renderSec
  | .between a b => interpolate a b renderSec
  | .fallThrough s => .ofSample s

section Ring
variable {K : Type} [LinearOrder K]

/-- The samples stand in the order of their times, and there are not too many of them. -/
structure PoseRing.Ordered (ring : PoseRing K) : Prop where
  sorted : ring.samples.Pairwise fun a b => a.recvSec ≤ b.recvSec
  length_le : ring.samples.length ≤ Plugin.kPoseRingSize

theorem TimedSample.le_raised (s last : TimedSample K) : last.recvSec ≤ (s.raised last).recvSec := by
  unfold TimedSample.raised
  split
  · exact le_rfl
  · exact not_lt.mp ‹_›

theorem TimedSample.raised_eq (s last : TimedSample K) : s.raised last = { s with recvSec := max s.recvSec last.recvSec } := by
  unfold TimedSample.raised
  split
  · rw [max_eq_right (le_of_lt ‹_›)]
  · rw [max_eq_left (not_lt.mp ‹_›)]

theorem PoseRing.ordered_empty : PoseRing.Ordered ({} : PoseRing K) := ⟨.nil, Nat.zero_le _⟩

theorem le_last {samples : List (TimedSample K)} {last : TimedSample K}
    (h : (samples ++ [last]).Pairwise fun a b => a.recvSec ≤ b.recvSec) {a : TimedSample K} (ha : a ∈ samples ++ [last]) :
    a.recvSec ≤ last.recvSec := by
  rcases List.mem_append.mp ha with ha | ha
  · exact (List.pairwise_append.mp h).2.2 a ha last (List.mem_singleton.mpr rfl)
  · rw [List.mem_singleton.mp ha]

/-- One sample keeps the order, and stands last with its time raised to that of the one before. -/
theorem PoseRing.Ordered.push {ring : PoseRing K} (h : ring.Ordered) (s : TimedSample K) :
    (ring.push s).Ordered ∧
      (ring.push s).samples.getLast? = some (ring.samples.getLast?.elim s fun last => s.raised last) := by
  unfold PoseRing.push
  cases hlast : ring.samples.getLast? with
  | none => exact ⟨⟨List.pairwise_singleton _ _, Nat.le_add_left 1 7⟩, rfl⟩
  | some last =>
    obtain ⟨samples, hsamples⟩ := List.getLast?_eq_some_iff.mp hlast
    have hle : ∀ a ∈ samples ++ [last], a.recvSec ≤ (s.raised last).recvSec := fun a ha =>
      (le_last (hsamples ▸ h.sorted) ha).trans (s.le_raised last)
    have hlength := h.length_le
    rw [hsamples] at hlength ⊢
    dsimp only
    split
    · rw [List.dropLast_concat]
      refine ⟨⟨?_, ?_⟩, List.getLast?_concat⟩
      · refine List.pairwise_append.mpr ⟨(List.pairwise_append.mp (hsamples ▸ h.sorted)).1, List.pairwise_singleton _ _, ?_⟩
        intro a ha b hb
        rw [List.mem_singleton.mp hb]
        exact hle a (List.mem_append_left _ ha)
      · simpa using hlength
    · refine ⟨⟨?_, ?_⟩, ?_⟩
      · refine List.Pairwise.sublist (List.drop_sublist _ _) ?_
        refine List.pairwise_append.mpr ⟨hsamples ▸ h.sorted, List.pairwise_singleton _ _, fun a ha b hb => ?_⟩
        rw [List.mem_singleton.mp hb]
        exact hle a ha
      · rw [List.length_drop]
        omega
      · have hshort : ¬ (samples ++ [last] ++ [s.raised last]).length ≤
            (samples ++ [last] ++ [s.raised last]).length - Plugin.kPoseRingSize := by
          simp only [List.length_append, List.length_singleton, Plugin.kPoseRingSize]
          omega
        rw [List.getLast?_drop, if_neg hshort, List.getLast?_concat]
        rfl

theorem ordered_pushes (pushes : List (TimedSample K)) : (pushes.foldl PoseRing.push ({} : PoseRing K)).Ordered := by
  induction pushes using List.reverseRecOn with
  | nil => exact PoseRing.ordered_empty
  | append_singleton pushes s ih =>
    rw [List.foldl_append]
    exact (ih.push s).1

end Ring

/-- The position lies on the way from one sample to the next. -/
def OnTheWay (a b : TimedSample ℚ) (out : SampledTransform ℚ) : Prop :=
  ∃ t, 0 ≤ t ∧ t ≤ 1 ∧ out.x = (1 - t) * a.x + t * b.x ∧ out.y = (1 - t) * a.y + t * b.y ∧ out.z = (1 - t) * a.z + t * b.z

/-- The position of the sample, moved on by its velocity for a while. -/
def MovedOn (s : TimedSample ℚ) (out : SampledTransform ℚ) : Prop :=
  ∃ dt, 0 ≤ dt ∧ dt ≤ 0.15 ∧ out.x = s.x + s.vx * dt ∧ out.y = s.y + s.vy * dt ∧ out.z = s.z

/-- What `SampleAt` may give for a time. -/
inductive Located (ring : PoseRing ℚ) (renderSec : ℚ) (out : SampledTransform ℚ) : Prop
  | front (s : TimedSample ℚ) (h : ring.samples.head? = some s) (hx : out.x = s.x) (hy : out.y = s.y) (hz : out.z = s.z)
  | between (before : List (TimedSample ℚ)) (a b : TimedSample ℚ) (after : List (TimedSample ℚ))
      (h : ring.samples = before ++ a :: b :: after) (ha : a.recvSec ≤ renderSec) (hb : renderSec ≤ b.recvSec)
      (hout : OnTheWay a b out)
  | newest (s : TimedSample ℚ) (h : ring.samples.getLast? = some s) (hout : MovedOn s out)

/-- Between the first and the last time there are neighbours with the time between them. -/
theorem bracket_spec {renderSec : ℚ} {s last : TimedSample ℚ} {samples : List (TimedSample ℚ)} (hs : s.recvSec ≤ renderSec)
    (hlast : (s :: samples).getLast? = some last) (hnewest : renderSec < last.recvSec) :
    ∃ before a b after, bracket renderSec (s :: samples) = some (a, b) ∧ s :: samples = before ++ a :: b :: after ∧
      a.recvSec ≤ renderSec ∧ renderSec ≤ b.recvSec := by
  induction samples generalizing s with
  | nil =>
    obtain rfl : s = last := Option.some.inj hlast
    exact absurd hs (not_le.mpr hnewest)
  | cons b samples ih =>
    by_cases hb : renderSec ≤ b.recvSec
    · refine ⟨[], s, b, samples, ?_, rfl, hs, hb⟩
      rw [bracket, if_neg (not_or.mpr ⟨not_lt.mpr hs, not_lt.mpr hb⟩)]
    · push Not at hb
      rw [List.getLast?_cons_cons] at hlast
      obtain ⟨before, a, c, after, hbracket, hsplit, ha, hc⟩ := ih hb.le hlast
      refine ⟨s :: before, a, c, after, ?_, by rw [hsplit, List.cons_append], ha, hc⟩
      rw [bracket, if_pos (.inr hb), hbracket]

theorem progress_bounds {a b : TimedSample ℚ} {renderSec : ℚ} (ha : a.recvSec ≤ renderSec) (hb : renderSec ≤ b.recvSec) :
    0 ≤ progress a b renderSec ∧ progress a b renderSec ≤ 1 := by
  unfold progress
  dsimp only
  split
  · rename_i hspan
    have hpos : 0 < b.recvSec - a.recvSec := by linarith
    constructor
    · exact div_nonneg (by linarith) hpos.le
    · rw [div_le_one hpos]
      linarith
  · exact ⟨zero_le_one, le_rfl⟩

theorem onTheWay_interpolate {a b : TimedSample ℚ} {renderSec : ℚ} (ha : a.recvSec ≤ renderSec) (hb : renderSec ≤ b.recvSec) :
    OnTheWay a b (interpolate a b renderSec) := by
  obtain ⟨hzero, hone⟩ := progress_bounds ha hb
  refine ⟨progress a b renderSec, hzero, hone, ?_, ?_, ?_⟩ <;> simp only [interpolate, lerp] <;> ring

theorem movedOn_extrapolate {s : TimedSample ℚ} {renderSec : ℚ} (h : s.recvSec ≤ renderSec) :
    MovedOn s (extrapolate s renderSec) := by
  refine ⟨min 0.15 (renderSec - s.recvSec), le_min (by norm_num) (sub_nonneg.mpr h), min_le_left _ _, rfl, rfl, rfl⟩

/-- The sample is taken, not by the fall-through, from the places it may be. -/
structure Sampled (ring : PoseRing ℚ) (renderSec : ℚ) : Prop where
  exit : ∀ s, sampleExit ring renderSec ≠ .fallThrough s
  valid : (sampleAt ring renderSec).valid = true
  located : Located ring renderSec (sampleAt ring renderSec)

section Exits
variable {ring : PoseRing ℚ} {renderSec : ℚ}

theorem located_front {s : TimedSample ℚ} (hexit : sampleExit ring renderSec = .front s) (h : ring.samples.head? = some s) :
    Sampled ring renderSec := by
  have hat : sampleAt ring renderSec = .ofSample s := by rw [sampleAt, hexit]
  refine ⟨fun _ => hexit ▸ nofun, hat ▸ rfl, ?_⟩
  rw [hat]
  exact .front s h rfl rfl rfl

theorem located_newest {s : TimedSample ℚ} (hexit : sampleExit ring renderSec = .newest s)
    (h : ring.samples.getLast? = some s) (hs : s.recvSec ≤ renderSec) : Sampled ring renderSec := by
  have hat : sampleAt ring renderSec = extrapolate s renderSec := by rw [sampleAt, hexit]
  refine ⟨fun _ => hexit ▸ nofun, hat ▸ rfl, ?_⟩
  rw [hat]
  exact .newest s h (movedOn_extrapolate hs)

theorem located_between {before : List (TimedSample ℚ)} {a b : TimedSample ℚ} {after : List (TimedSample ℚ)}
    (hexit : sampleExit ring renderSec = .between a b) (h : ring.samples = before ++ a :: b :: after)
    (ha : a.recvSec ≤ renderSec) (hb : renderSec ≤ b.recvSec) : Sampled ring renderSec := by
  have hat : sampleAt ring renderSec = interpolate a b renderSec := by rw [sampleAt, hexit]
  refine ⟨fun _ => hexit ▸ nofun, hat ▸ rfl, ?_⟩
  rw [hat]
  exact .between before a b after h ha hb (onTheWay_interpolate ha hb)

end Exits

theorem sampleAt_located {ring : PoseRing ℚ} {renderSec : ℚ} (hne : ring.samples ≠ []) :
    Sampled ring renderSec := by
  obtain ⟨samples⟩ := ring
  match samples, hne with
  | [s], _ => exact located_front rfl rfl
  | s :: next :: samples, _ =>
    have hlast : (s :: next :: samples).getLast? = some ((next :: samples).getLast (List.cons_ne_nil _ _)) := by
      rw [List.getLast?_cons_cons, List.getLast?_eq_some_getLast (List.cons_ne_nil _ _)]
    have hexit : sampleExit ⟨s :: next :: samples⟩ renderSec =
        if renderSec ≤ s.recvSec then .front s
        else if ((next :: samples).getLast (List.cons_ne_nil _ _)).recvSec ≤ renderSec then
          .newest ((next :: samples).getLast (List.cons_ne_nil _ _))
        else (bracket renderSec (s :: next :: samples)).elim
          (.fallThrough ((next :: samples).getLast (List.cons_ne_nil _ _))) fun e => .between e.1 e.2 := by
      rw [sampleExit]
      dsimp only
      cases bracket renderSec (s :: next :: samples) <;> rfl
    generalize (next :: samples).getLast (List.cons_ne_nil _ _) = newest at hlast hexit
    by_cases hfront : renderSec ≤ s.recvSec
    · rw [if_pos hfront] at hexit
      exact located_front hexit rfl
    · rw [if_neg hfront] at hexit
      push Not at hfront
      by_cases hnewest : newest.recvSec ≤ renderSec
      · rw [if_pos hnewest] at hexit
        exact located_newest hexit hlast hnewest
      · rw [if_neg hnewest] at hexit
        push Not at hnewest
        obtain ⟨before, a, b, after, hbracket, hsplit, ha, hb⟩ := bracket_spec hfront.le hlast hnewest
        rw [hbracket] at hexit
        exact located_between hexit hsplit ha hb

/-- However poses come in, the ring stays sorted by their times and short, with the last pose at its end; and a time is
sampled exactly when the ring is not empty, at the front, between two neighbours, or a little ahead of the newest. -/
theorem poseRing_sampling (pushes : List (TimedSample ℚ)) (renderSec : ℚ) :
    (pushes.foldl PoseRing.push {}).Ordered ∧
    (∀ before s, pushes = before ++ [s] → (pushes.foldl PoseRing.push {}).samples.getLast? =
      some { s with
        recvSec := (before.foldl PoseRing.push {}).samples.getLast?.elim s.recvSec (fun last => max s.recvSec last.recvSec) }) ∧
    ((sampleAt (pushes.foldl PoseRing.push {}) renderSec).valid = true ↔ (pushes.foldl PoseRing.push {}).samples ≠ []) ∧
    (∀ s, sampleExit (pushes.foldl PoseRing.push {}) renderSec ≠ .fallThrough s) ∧
    ((pushes.foldl PoseRing.push {}).samples ≠ [] →
      Located (pushes.foldl PoseRing.push {}) renderSec (sampleAt (pushes.foldl PoseRing.push {}) renderSec)) := by
  refine ⟨ordered_pushes pushes, ?_, ?_⟩
  · rintro before s rfl
    rw [List.foldl_append, List.foldl_cons, List.foldl_nil, ((ordered_pushes before).push s).2]
    cases (before.foldl PoseRing.push {}).samples.getLast? with
    | none => rfl
    | some last => exact congrArg some (s.raised_eq last)
  · generalize pushes.foldl PoseRing.push {} = ring
    by_cases hne : ring.samples = []
    · obtain ⟨samples⟩ := ring
      dsimp only at hne
      subst hne
      have hexit : sampleExit ⟨[]⟩ renderSec = .empty := rfl
      have hinvalid : (sampleAt ⟨[]⟩ renderSec).valid = false := by rw [sampleAt, hexit]
      refine ⟨by simp [hinvalid], fun s he => ?_, fun h => absurd rfl h⟩
      rw [hexit] at he
      cases he
    · obtain ⟨hexit, hvalid, hlocated⟩ : Sampled ring renderSec := sampleAt_located hne
      exact ⟨⟨fun _ => hne, fun _ => hvalid⟩, hexit, fun _ => hlocated⟩

end CommonwealthMP.Motion
