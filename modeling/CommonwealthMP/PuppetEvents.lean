import CommonwealthMP.Binary32
import CommonwealthMP.StepRuns
import Mathlib.Data.List.Induction
import Mathlib.Logic.Function.Basic

/-! # Puppet events

A ghost's animation graph is driven by events. The plugin fires them where the flags of a pose differ from
the flags it stored, and again every so often for the motions that may have been lost. -/
namespace CommonwealthMP
open Binary32
namespace Puppet

namespace PoseFlag
def sneak : UInt32 := 1
def sprint : UInt32 := 2
def drawn : UInt32 := 4
def reloading : UInt32 := 8
def attacking : UInt32 := 16
def jumping : UInt32 := 32
def sighted : UInt32 := 64
def dead : UInt32 := 128
def pipboy : UInt32 := 256
def menu : UInt32 := 512
end PoseFlag

def hasPoseFlag (flags bit : UInt32) : Bool := flags &&& bit ≠ 0

/-- 5.0 -/
def kMoveSpeedEps : F32 := ⟨0x40A00000⟩
def kStickyRetryTicks : ℕ := 30

structure PuppetPrev where
  flags : UInt32 := 0
  moving : Bool := false
  have_ : Bool := false
  stickyTicks : ℕ := 0
  yaw : F32 := ⟨0⟩
  deriving DecidableEq, Repr

/-- The names given to `NotifyAnimationGraph`. -/
inductive AnimEvent
  | MoveStart
  | walkStart
  | MoveStop
  | sneakStart
  | sneakStop
  | sprintStart
  | sprintStop
  | weaponDraw
  | weaponSheathe
  | attackStart
  | attackStop
  | reloadStart
  | reloadState
  | reloadStop
  | sightedStart
  | SightedStart
  | sightedRelease
  | sightedEnd
  | JumpStandingStart
  | JumpLand
  | pipboyIdle
  | pipboyLower
  deriving DecidableEq, Repr

/-- What a call does to the actor, its graph variables apart. -/
inductive PuppetAction
  | fire (event : AnimEvent)
  | drawHands (draw : Bool)
  deriving DecidableEq, Repr

/-- A call of `CMP_ApplyGhostPuppet` for one id, with what the engine answers in it: whether the graph is
ready, whether the actor is a ghost, and whether its weapon is drawn, at the edges and at the retry. -/
structure PuppetCall where
  graphReady : Bool
  isGhost : Bool
  drawnAtEdges : Bool
  drawnAtRetry : Bool
  yaw : F32
  speed : F32
  flags : UInt32
  deriving DecidableEq, Repr

def edgeFlag (had now : Bool) (onEvent offEvent : AnimEvent) (onAlt offAlt : Option AnimEvent) : List PuppetAction :=
  if had = now then []
  else if now then (onEvent :: onAlt.toList).map .fire
  else (offEvent :: offAlt.toList).map .fire

/-- The hands, at the edges and at the retry. -/
def drawWeapon (want drawn : Bool) : List PuppetAction :=
  if want && !drawn then [.drawHands true] else if !want && drawn then [.drawHands false] else []

def applyCombatFlags (drawn : Bool) (prevFlags flags : UInt32) (hadPrev isGhost : Bool) : List PuppetAction :=
  let nowDrawn := hasPoseFlag flags PoseFlag.drawn
  let wasDrawn := hasPoseFlag prevFlags PoseFlag.drawn
  let nowAttack := hasPoseFlag flags PoseFlag.attacking
  let wasAttack := hasPoseFlag prevFlags PoseFlag.attacking
  drawWeapon nowDrawn drawn ++
    (if !hadPrev || wasDrawn != nowDrawn then
      if nowDrawn then [.fire .weaponDraw] else if hadPrev then [.fire .weaponSheathe] else []
    else []) ++
    if !hadPrev then
      (if nowAttack && !isGhost then [.fire .attackStart] else []) ++
        (if hasPoseFlag flags PoseFlag.reloading then [.fire .reloadStart, .fire .reloadState] else []) ++
        (if hasPoseFlag flags PoseFlag.sighted then [.fire .sightedStart, .fire .SightedStart] else []) ++
        (if hasPoseFlag flags PoseFlag.jumping then [.fire .JumpStandingStart] else []) ++
        (if hasPoseFlag flags PoseFlag.pipboy then [.fire .pipboyIdle] else [])
    else
      (if !isGhost then edgeFlag wasAttack nowAttack .attackStart .attackStop none none else []) ++
        edgeFlag (hasPoseFlag prevFlags PoseFlag.reloading) (hasPoseFlag flags PoseFlag.reloading)
          .reloadStart .reloadStop (some .reloadState) none ++
        edgeFlag (hasPoseFlag prevFlags PoseFlag.sighted) (hasPoseFlag flags PoseFlag.sighted)
          .sightedStart .sightedRelease (some .SightedStart) (some .sightedEnd) ++
        edgeFlag (hasPoseFlag prevFlags PoseFlag.jumping) (hasPoseFlag flags PoseFlag.jumping)
          .JumpStandingStart .JumpLand none none ++
        edgeFlag (hasPoseFlag prevFlags PoseFlag.pipboy) (hasPoseFlag flags PoseFlag.pipboy)
          .pipboyIdle .pipboyLower none none

def retryStickyFlags (drawn : Bool) (flags : UInt32) (stickyTicks : ℕ) : ℕ × List PuppetAction :=
  if stickyTicks + 1 < kStickyRetryTicks then (stickyTicks + 1, [])
  else
    let wantDrawn := hasPoseFlag flags PoseFlag.drawn
    (0, drawWeapon wantDrawn drawn ++
      (if wantDrawn && !drawn then [.fire .weaponDraw] else if !wantDrawn && drawn then [.fire .weaponSheathe] else []) ++
      (if hasPoseFlag flags PoseFlag.sneak then [.fire .sneakStart] else []) ++
      (if hasPoseFlag flags PoseFlag.jumping then [.fire .JumpStandingStart] else []))

def PuppetCall.moving (call : PuppetCall) : Bool :=
  let inMenu := hasPoseFlag call.flags PoseFlag.pipboy || hasPoseFlag call.flags PoseFlag.menu
  !inMenu && lt kMoveSpeedEps call.speed

def applyGhostPuppet (prev : PuppetPrev) (call : PuppetCall) : PuppetPrev × List PuppetAction :=
  if !call.graphReady then (prev, [])
  else if hasPoseFlag call.flags PoseFlag.dead then
    ({ prev with yaw := call.yaw, flags := call.flags, moving := false, have_ := true },
      applyCombatFlags call.drawnAtEdges prev.flags call.flags prev.have_ call.isGhost)
  else
    let moving := call.moving
    let moves : List PuppetAction :=
      if !prev.have_ || prev.moving != moving then
        .fire (if moving then .MoveStart else .MoveStop) :: (if moving then [.fire .walkStart] else [])
      else []
    let stances : List PuppetAction :=
      if !prev.have_ then
        (if hasPoseFlag call.flags PoseFlag.sneak then [.fire .sneakStart] else []) ++
          (if hasPoseFlag call.flags PoseFlag.sprint then [.fire .sprintStart] else [])
      else
        edgeFlag (hasPoseFlag prev.flags PoseFlag.sneak) (hasPoseFlag call.flags PoseFlag.sneak)
            .sneakStart .sneakStop none none ++
          edgeFlag (hasPoseFlag prev.flags PoseFlag.sprint) (hasPoseFlag call.flags PoseFlag.sprint)
            .sprintStart .sprintStop none none
    let combat := applyCombatFlags call.drawnAtEdges prev.flags call.flags prev.have_ call.isGhost
    let retry := if prev.have_ then retryStickyFlags call.drawnAtRetry call.flags prev.stickyTicks else (0, [])
    (⟨call.flags, moving, true, retry.1, call.yaw⟩, moves ++ stances ++ combat ++ retry.2)

inductive Motion
  | movement
  | sneak
  | sprint
  | drawn
  | reloading
  | sighted
  | jumping
  | pipboy
  deriving DecidableEq, Repr

/-- What an event turns on or off. -/
def turns : AnimEvent → Option (Motion × Bool)
  | .MoveStart | .walkStart => some (.movement, true)
  | .MoveStop => some (.movement, false)
  | .sneakStart => some (.sneak, true)
  | .sneakStop => some (.sneak, false)
  | .sprintStart => some (.sprint, true)
  | .sprintStop => some (.sprint, false)
  | .weaponDraw => some (.drawn, true)
  | .weaponSheathe => some (.drawn, false)
  | .reloadStart => some (.reloading, true)
  | .reloadStop => some (.reloading, false)
  | .sightedStart | .SightedStart => some (.sighted, true)
  | .sightedRelease | .sightedEnd => some (.sighted, false)
  | .JumpStandingStart => some (.jumping, true)
  | .JumpLand => some (.jumping, false)
  | .pipboyIdle => some (.pipboy, true)
  | .pipboyLower => some (.pipboy, false)
  | .attackStart | .attackStop | .reloadState => none

abbrev Motions := Motion → Bool

def replayAction (m : Motions) : PuppetAction → Motions
  | .drawHands _ => m
  | .fire event => match turns event with
    | none => m
    | some (motion, on) => Function.update m motion on

def replay (m : Motions) (actions : List PuppetAction) : Motions := actions.foldl replayAction m

/-- The flag of a motion; movement has none. -/
def Motion.flag : Motion → UInt32
  | movement => 0
  | sneak => PoseFlag.sneak
  | sprint => PoseFlag.sprint
  | drawn => PoseFlag.drawn
  | reloading => PoseFlag.reloading
  | sighted => PoseFlag.sighted
  | jumping => PoseFlag.jumping
  | pipboy => PoseFlag.pipboy

def motionsOf (moving : Bool) (flags : UInt32) : Motions := fun m =>
  if m = .movement then moving else hasPoseFlag flags m.flag

/-- What a call asks for. A dead puppet does not move. -/
def PuppetCall.asks (call : PuppetCall) : Motions :=
  motionsOf (!hasPoseFlag call.flags PoseFlag.dead && call.moving) call.flags

def noMotion : Motions := fun _ => false

/-- The entry of the id, the actions so far, and what was asked for last. -/
structure PuppetRun where
  prev : PuppetPrev := {}
  actions : List PuppetAction := []
  asked : Motions := noMotion

def puppetStep (r : PuppetRun) (call : PuppetCall) : PuppetRun where
  prev := (applyGhostPuppet r.prev call).1
  actions := r.actions ++ (applyGhostPuppet r.prev call).2
  asked := if call.graphReady then call.asks else r.asked

def puppetRun (calls : List PuppetCall) : PuppetRun := StepRuns.run puppetStep {} calls

/-- Replayed from rest, the actions give what was asked for last. -/
def Agrees (r : PuppetRun) : Prop := replay noMotion r.actions = r.asked

/-- The call is for a puppet that dies in motion, or in another stance than the one it was left in. -/
def DiesOutOfStep (r : PuppetRun) (call : PuppetCall) : Prop :=
  call.graphReady = true ∧ hasPoseFlag call.flags PoseFlag.dead = true ∧
    (r.prev.moving = true ∨ hasPoseFlag call.flags PoseFlag.sneak ≠ hasPoseFlag r.prev.flags PoseFlag.sneak ∨
      hasPoseFlag call.flags PoseFlag.sprint ≠ hasPoseFlag r.prev.flags PoseFlag.sprint)

theorem replay_append (m : Motions) (as bs : List PuppetAction) : replay m (as ++ bs) = replay (replay m as) bs :=
  List.foldl_append

@[simp] theorem replay_nil (m : Motions) : replay m [] = m := rfl

theorem replay_fire (m : Motions) {event : AnimEvent} {motion : Motion} {on : Bool} (h : turns event = some (motion, on)) :
    replay m [.fire event] = Function.update m motion on := by
  show replayAction m (.fire event) = _
  rw [replayAction, h]

theorem replay_drawWeapon (m : Motions) (want drawn : Bool) : replay m (drawWeapon want drawn) = m := by
  cases want <;> cases drawn <;> rfl

/-- The actions take a motion from one state to another and leave the others. -/
def Turns (motion : Motion) (had now : Bool) (actions : List PuppetAction) : Prop :=
  ∀ m : Motions, m motion = had → replay m actions = Function.update m motion now

theorem turns_nil (motion : Motion) (had : Bool) : Turns motion had had [] := by
  intro m hm
  rw [replay_nil, ← hm, Function.update_eq_self]

/-- An edge fires the events of its motion. -/
theorem turns_edgeFlag (motion : Motion) (prevFlags flags : UInt32) (onEvent offEvent : AnimEvent)
    (onAlt offAlt : Option AnimEvent)
    (hon : ∀ m, replay m ((onEvent :: onAlt.toList).map .fire) = Function.update m motion true)
    (hoff : ∀ m, replay m ((offEvent :: offAlt.toList).map .fire) = Function.update m motion false) :
    Turns motion (hasPoseFlag prevFlags motion.flag) (hasPoseFlag flags motion.flag)
      (edgeFlag (hasPoseFlag prevFlags motion.flag) (hasPoseFlag flags motion.flag) onEvent offEvent onAlt offAlt) := by
  intro m hm
  unfold edgeFlag
  by_cases h : hasPoseFlag prevFlags motion.flag = hasPoseFlag flags motion.flag
  · rw [if_pos h, ← h]
    exact turns_nil motion _ m hm
  · rw [if_neg h]
    cases hasPoseFlag flags motion.flag
    · exact hoff m
    · exact hon m

theorem hasPoseFlag_zero (bit : UInt32) : hasPoseFlag 0 bit = false := by simp [hasPoseFlag]

/-- The first call starts the motions that are wanted. -/
theorem turns_first (motion : Motion) (flags : UInt32) (actions : List PuppetAction)
    (h : ∀ m, replay m actions = Function.update m motion true) :
    Turns motion (hasPoseFlag 0 motion.flag) (hasPoseFlag flags motion.flag)
      (if hasPoseFlag flags motion.flag then actions else []) := by
  rw [hasPoseFlag_zero]
  cases hasPoseFlag flags motion.flag
  · exact turns_nil motion false
  · exact fun m _ => h m

theorem replay_pair (m : Motions) {e e' : AnimEvent} {motion : Motion} {on : Bool} (h : turns e = some (motion, on))
    (h' : turns e' = some (motion, on)) : replay m [.fire e, .fire e'] = Function.update m motion on := by
  have hsplit : ([.fire e, .fire e'] : List PuppetAction) = [.fire e] ++ [.fire e'] := rfl
  rw [hsplit, replay_append, replay_fire m h, replay_fire _ h', Function.update_idem]

/-- The motions in `done` are as the flags say, the others as in `m`. -/
def setTo (m : Motions) (flags : UInt32) (done : List Motion) : Motions := fun x =>
  if x ∈ done then hasPoseFlag flags x.flag else m x

theorem Turns.replay_setTo {x : Motion} {had : Bool} {flags : UInt32} {actions : List PuppetAction}
    (h : Turns x had (hasPoseFlag flags x.flag) actions) {m : Motions} (hm : m x = had) (done : List Motion) (hx : x ∉ done) :
    replay (setTo m flags done) actions = setTo m flags (x :: done) := by
  rw [h _ (by rw [setTo, if_neg hx, hm])]
  funext y
  by_cases hy : y = x
  · subst hy
    simp [setTo]
  · simp [setTo, hy]

/-- Attacks move no motion that is followed. -/
theorem replay_attack (m : Motions) (isGhost had now : Bool) :
    replay m (if !isGhost then edgeFlag had now .attackStart .attackStop none none else []) = m := by
  cases isGhost <;> cases had <;> cases now <;> rfl

theorem replay_attackStart (m : Motions) (now isGhost : Bool) :
    replay m (if now && !isGhost then [.fire .attackStart] else []) = m := by
  cases isGhost <;> cases now <;> rfl

/-- The motions of `ApplyCombatFlags`, the last first. -/
def combatMotions : List Motion := [.pipboy, .jumping, .sighted, .reloading, .drawn]

/-- `ApplyCombatFlags` brings its motions from the stored flags to the new ones. -/
theorem replay_applyCombatFlags {m : Motions} {prevFlags flags : UInt32} {hadPrev : Bool} (hfresh : hadPrev = false → prevFlags = 0)
    (hm : ∀ x ∈ combatMotions, m x = hasPoseFlag prevFlags x.flag) (drawn isGhost : Bool) :
    replay m (applyCombatFlags drawn prevFlags flags hadPrev isGhost) = setTo m flags combatMotions := by
  have hdrawn := hm .drawn (by decide)
  have hreloading := hm .reloading (by decide)
  have hsighted := hm .sighted (by decide)
  have hjumping := hm .jumping (by decide)
  have hpipboy := hm .pipboy (by decide)
  have hreload (m : Motions) : replay m [.fire .reloadStart, .fire .reloadState] = Function.update m .reloading true := rfl
  have hsight (m : Motions) : replay m [.fire .sightedStart, .fire .SightedStart] = Function.update m .sighted true :=
    replay_pair m rfl rfl
  unfold applyCombatFlags
  dsimp only
  cases hadPrev
  · have h0 := hfresh rfl
    subst h0
    have h1 : replay m (if hasPoseFlag flags PoseFlag.drawn then [.fire .weaponDraw] else []) = setTo m flags [.drawn] :=
      (turns_first .drawn flags _ fun m => replay_fire m rfl).replay_setTo hdrawn [] List.not_mem_nil
    have h2 : replay (setTo m flags [.drawn])
        (if hasPoseFlag flags PoseFlag.reloading then [.fire .reloadStart, .fire .reloadState] else []) =
        setTo m flags [.reloading, .drawn] :=
      (turns_first .reloading flags _ hreload).replay_setTo hreloading _ (by decide)
    have h3 : replay (setTo m flags [.reloading, .drawn])
        (if hasPoseFlag flags PoseFlag.sighted then [.fire .sightedStart, .fire .SightedStart] else []) =
        setTo m flags [.sighted, .reloading, .drawn] :=
      (turns_first .sighted flags _ hsight).replay_setTo hsighted _ (by decide)
    have h4 : replay (setTo m flags [.sighted, .reloading, .drawn])
        (if hasPoseFlag flags PoseFlag.jumping then [.fire .JumpStandingStart] else []) =
        setTo m flags [.jumping, .sighted, .reloading, .drawn] :=
      (turns_first .jumping flags _ fun m => replay_fire m rfl).replay_setTo hjumping _ (by decide)
    have h5 : replay (setTo m flags [.jumping, .sighted, .reloading, .drawn])
        (if hasPoseFlag flags PoseFlag.pipboy then [.fire .pipboyIdle] else []) = setTo m flags combatMotions :=
      (turns_first .pipboy flags _ fun m => replay_fire m rfl).replay_setTo hpipboy _ (by decide)
    simp only [Bool.not_false, Bool.true_or, if_true, Bool.false_eq_true, if_false, replay_append, replay_drawWeapon,
      replay_attackStart]
    rw [h1, h2, h3, h4, h5]
  · have hdraw : Turns .drawn (hasPoseFlag prevFlags PoseFlag.drawn) (hasPoseFlag flags PoseFlag.drawn)
        (if hasPoseFlag prevFlags PoseFlag.drawn != hasPoseFlag flags PoseFlag.drawn then
          if hasPoseFlag flags PoseFlag.drawn then [.fire .weaponDraw] else [.fire .weaponSheathe]
        else []) := by
      cases hasPoseFlag prevFlags PoseFlag.drawn <;> cases hasPoseFlag flags PoseFlag.drawn
      · exact turns_nil _ _
      · exact fun m _ => replay_fire m rfl
      · exact fun m _ => replay_fire m rfl
      · exact turns_nil _ _
    have h1 : replay m _ = setTo m flags [.drawn] := hdraw.replay_setTo hdrawn [] List.not_mem_nil
    have h2 := (turns_edgeFlag .reloading prevFlags flags .reloadStart .reloadStop (some .reloadState) none hreload
      fun m => replay_fire m rfl).replay_setTo hreloading [.drawn] (by decide)
    have h3 := (turns_edgeFlag .sighted prevFlags flags .sightedStart .sightedRelease (some .SightedStart) (some .sightedEnd)
      hsight fun m => replay_pair m rfl rfl).replay_setTo hsighted [.reloading, .drawn] (by decide)
    have h4 := (turns_edgeFlag .jumping prevFlags flags .JumpStandingStart .JumpLand none none (fun m => replay_fire m rfl)
      fun m => replay_fire m rfl).replay_setTo hjumping [.sighted, .reloading, .drawn] (by decide)
    have h5 := (turns_edgeFlag .pipboy prevFlags flags .pipboyIdle .pipboyLower none none (fun m => replay_fire m rfl)
      fun m => replay_fire m rfl).replay_setTo hpipboy [.jumping, .sighted, .reloading, .drawn] (by decide)
    simp only [Bool.not_true, Bool.false_or, if_true, Bool.false_eq_true, if_false, replay_append, replay_drawWeapon,
      replay_attack]
    rw [h1]
    exact (congrArg (fun m => replay (replay (replay m _) _) _) h2).trans ((congrArg (fun m => replay (replay m _) _) h3).trans
      ((congrArg (fun m => replay m _) h4).trans h5))

theorem motionsOf_flag (moving : Bool) (flags : UInt32) {x : Motion} (hx : x ≠ .movement) :
    motionsOf moving flags x = hasPoseFlag flags x.flag := if_neg hx

theorem replay_moves {m : Motions} (had : Bool) {have_ : Bool} (hm : m .movement = had) (hfresh : have_ = false → had = false)
    (moving : Bool) :
    replay m (if !have_ || had != moving then
      .fire (if moving then .MoveStart else .MoveStop) :: (if moving then [.fire .walkStart] else []) else []) =
      Function.update m .movement moving := by
  have hstart : replay m [.fire .MoveStart, .fire .walkStart] = Function.update m .movement true := replay_pair m rfl rfl
  have hstop : replay m [.fire .MoveStop] = Function.update m .movement false := replay_fire m rfl
  have hsame : had = moving → replay m [] = Function.update m .movement moving := fun h => turns_nil _ _ m (hm.trans h)
  cases have_ <;> cases moving <;> cases had
  · exact hstop
  · exact hstop
  · exact hstart
  · exact absurd (hfresh rfl) (by decide)
  · exact hsame rfl
  · exact hstop
  · exact hstart
  · exact hsame rfl

theorem replay_stances {m : Motions} {prevFlags flags : UInt32} {have_ : Bool} (hfresh : have_ = false → prevFlags = 0)
    (hsneak : m .sneak = hasPoseFlag prevFlags PoseFlag.sneak) (hsprint : m .sprint = hasPoseFlag prevFlags PoseFlag.sprint) :
    replay m (if !have_ then
        (if hasPoseFlag flags PoseFlag.sneak then [.fire .sneakStart] else []) ++
          (if hasPoseFlag flags PoseFlag.sprint then [.fire .sprintStart] else [])
      else
        edgeFlag (hasPoseFlag prevFlags PoseFlag.sneak) (hasPoseFlag flags PoseFlag.sneak) .sneakStart .sneakStop none none ++
          edgeFlag (hasPoseFlag prevFlags PoseFlag.sprint) (hasPoseFlag flags PoseFlag.sprint)
            .sprintStart .sprintStop none none) = setTo m flags [.sprint, .sneak] := by
  cases have_
  · have h0 := hfresh rfl
    subst h0
    have h1 : replay m (if hasPoseFlag flags PoseFlag.sneak then [.fire .sneakStart] else []) = setTo m flags [.sneak] :=
      (turns_first .sneak flags _ fun m => replay_fire m rfl).replay_setTo hsneak [] List.not_mem_nil
    rw [if_pos Bool.not_false, replay_append, h1]
    exact (turns_first .sprint flags _ fun m => replay_fire m rfl).replay_setTo hsprint [.sneak] (by decide)
  · have h1 : replay m (edgeFlag (hasPoseFlag prevFlags PoseFlag.sneak) (hasPoseFlag flags PoseFlag.sneak)
        .sneakStart .sneakStop none none) = setTo m flags [.sneak] :=
      (turns_edgeFlag .sneak prevFlags flags .sneakStart .sneakStop none none (fun m => replay_fire m rfl)
        fun m => replay_fire m rfl).replay_setTo hsneak [] List.not_mem_nil
    rw [if_neg (by decide), replay_append, h1]
    exact (turns_edgeFlag .sprint prevFlags flags .sprintStart .sprintStop none none (fun m => replay_fire m rfl)
      fun m => replay_fire m rfl).replay_setTo hsprint [.sneak] (by decide)

theorem replay_retryStickyFlags {m : Motions} {flags : UInt32} (hm : ∀ x, x ≠ .movement → m x = hasPoseFlag flags x.flag)
    (drawn : Bool) (stickyTicks : ℕ) : replay m (retryStickyFlags drawn flags stickyTicks).2 = m := by
  have again {x : Motion} {event : AnimEvent} {on : Bool} (h : turns event = some (x, on)) (hx : m x = on) :
      replay m [.fire event] = m := by
    rw [replay_fire m h, ← hx, Function.update_eq_self]
  have hdrawn := hm .drawn (by decide)
  have hsneak := hm .sneak (by decide)
  have hjumping := hm .jumping (by decide)
  have hweapon : replay m (if hasPoseFlag flags PoseFlag.drawn && !drawn then [.fire .weaponDraw]
      else if !hasPoseFlag flags PoseFlag.drawn && drawn then [.fire .weaponSheathe] else []) = m := by
    split
    · rename_i h
      exact again rfl (hdrawn.trans (Bool.and_eq_true_iff.mp h).1)
    · split
      · rename_i h
        exact again rfl (hdrawn.trans ((Bool.not_eq_true' _).mp (Bool.and_eq_true_iff.mp h).1))
      · rfl
  have hstance : replay m (if hasPoseFlag flags PoseFlag.sneak then [.fire .sneakStart] else []) = m := by
    split
    · rename_i h
      exact again rfl (hsneak.trans h)
    · rfl
  have hjump : replay m (if hasPoseFlag flags PoseFlag.jumping then [.fire .JumpStandingStart] else []) = m := by
    split
    · rename_i h
      exact again rfl (hjumping.trans h)
    · rfl
  unfold retryStickyFlags
  split
  · rfl
  · dsimp only
    rw [replay_append, replay_append, replay_append, replay_drawWeapon, hweapon, hstance, hjump]

/-- What was asked for last is what the entry holds. -/
structure Settled (r : PuppetRun) : Prop where
  asked : r.asked = motionsOf r.prev.moving r.prev.flags
  fresh : r.prev.have_ = false → r.prev.flags = 0 ∧ r.prev.moving = false

theorem settled_step {r : PuppetRun} (h : Settled r) (call : PuppetCall) : Settled (puppetStep r call) := by
  unfold puppetStep applyGhostPuppet
  by_cases hready : call.graphReady = true
  · by_cases hdead : hasPoseFlag call.flags PoseFlag.dead = true
    · simp only [hready, hdead, Bool.not_true, Bool.false_eq_true, if_false, if_true]
      exact ⟨by rw [PuppetCall.asks, hdead]; rfl, fun h => by cases h⟩
    · rw [Bool.not_eq_true] at hdead
      simp only [hready, hdead, Bool.not_true, Bool.false_eq_true, if_false, if_true]
      exact ⟨by rw [PuppetCall.asks, hdead]; rfl, fun h => by cases h⟩
  · rw [Bool.not_eq_true] at hready
    simp only [hready, Bool.not_false, if_true, Bool.false_eq_true, if_false]
    exact ⟨h.asked, h.fresh⟩

/-- A call keeps the agreement unless it is for a puppet that dies out of step. -/
theorem agrees_step {r : PuppetRun} (hset : Settled r) (h : Agrees r) (call : PuppetCall) :
    Agrees (puppetStep r call) ↔ ¬ DiesOutOfStep r call := by
  have hview : replay noMotion r.actions = motionsOf r.prev.moving r.prev.flags := h.trans hset.asked
  have hflags : r.prev.have_ = false → r.prev.flags = 0 := fun h => (hset.fresh h).1
  rw [Agrees, puppetStep]
  dsimp only
  rw [replay_append, hview]
  unfold applyGhostPuppet
  by_cases hready : call.graphReady = true
  · by_cases hdead : hasPoseFlag call.flags PoseFlag.dead = true
    · -- nothing is fired for the movement and the two stances
      have hasks : call.asks = motionsOf false call.flags := by
        rw [PuppetCall.asks, hdead]
        rfl
      simp only [hready, hdead, Bool.not_true, Bool.false_eq_true, if_false, if_true]
      rw [replay_applyCombatFlags hflags (fun x hx => motionsOf_flag _ _ (by rintro rfl; exact absurd hx (by decide))), hasks]
      constructor
      · rintro he ⟨-, -, hmoving | hsneak | hsprint⟩
        · exact Bool.false_ne_true ((congrFun he .movement).symm.trans hmoving)
        · exact hsneak (congrFun he .sneak).symm
        · exact hsprint (congrFun he .sprint).symm
      · intro hstep
        simp only [DiesOutOfStep, hready, hdead, true_and, not_or, ne_eq, not_not, Bool.not_eq_true] at hstep
        obtain ⟨hmoving, hsneak, hsprint⟩ := hstep
        funext x
        cases x
        · exact hmoving
        · exact hsneak.symm
        · exact hsprint.symm
        all_goals rfl
    · rw [Bool.not_eq_true] at hdead
      have hasks : call.asks = motionsOf call.moving call.flags := by
        rw [PuppetCall.asks, hdead]
        rfl
      have hmoves : Function.update (motionsOf r.prev.moving r.prev.flags) .movement call.moving =
          motionsOf call.moving r.prev.flags := by
        funext x
        cases x <;> rfl
      have hall : setTo (setTo (motionsOf call.moving r.prev.flags) call.flags [.sprint, .sneak]) call.flags combatMotions =
          motionsOf call.moving call.flags := by
        funext x
        cases x <;> rfl
      have hcombat : ∀ x ∈ combatMotions, setTo (motionsOf call.moving r.prev.flags) call.flags [.sprint, .sneak] x =
          hasPoseFlag r.prev.flags x.flag := by
        intro x hx
        cases x
        case movement => exact absurd hx (by decide)
        case sneak => exact absurd hx (by decide)
        case sprint => exact absurd hx (by decide)
        all_goals rfl
      have hretry : replay (motionsOf call.moving call.flags) (if r.prev.have_ then
          retryStickyFlags call.drawnAtRetry call.flags r.prev.stickyTicks else (0, [])).2 =
          motionsOf call.moving call.flags := by
        split
        · exact replay_retryStickyFlags (fun x hx => motionsOf_flag _ _ hx) _ _
        · rfl
      have hlive : ¬ DiesOutOfStep r call := by
        rintro ⟨-, hd, -⟩
        exact Bool.false_ne_true (hdead.symm.trans hd)
      simp only [hready, hdead, Bool.not_true, Bool.false_eq_true, if_false, if_true, hasks, hlive, not_false_eq_true, iff_true]
      rw [replay_append, replay_append, replay_append, replay_moves r.prev.moving rfl (fun h => (hset.fresh h).2), hmoves,
        replay_stances hflags rfl rfl, replay_applyCombatFlags hflags hcombat, hall, hretry]
  · rw [Bool.not_eq_true] at hready
    simp only [hready, Bool.not_false, if_true, Bool.false_eq_true, if_false, replay_nil]
    refine ⟨fun _ hd => ?_, fun _ => hset.asked.symm⟩
    rw [DiesOutOfStep, hready] at hd
    exact Bool.false_ne_true hd.1

theorem settled_run (calls : List PuppetCall) : Settled (puppetRun calls) := by
  induction calls using List.reverseRecOn with
  | nil => exact ⟨by funext x; cases x <;> rfl, fun _ => ⟨rfl, rfl⟩⟩
  | append_singleton calls call ih =>
    rw [puppetRun, StepRuns.run_concat]
    exact settled_step ih call

/-- The events agree with the calls throughout a run exactly when no call of it is for a puppet that dies
out of step. -/
theorem puppetRun_agrees (calls : List PuppetCall) :
    (∀ past rest, calls = past ++ rest → Agrees (puppetRun past)) ↔
      StepRuns.AllSteps puppetStep (fun r call => ¬ DiesOutOfStep r call) {} calls := by
  constructor
  · intro h
    rw [StepRuns.allSteps_iff_split]
    intro past call rest he
    have hbefore := h past (call :: rest) he
    have hafter := h (past ++ [call]) rest (by rw [he, List.append_assoc, List.singleton_append])
    rw [puppetRun, StepRuns.run_concat] at hafter
    exact (agrees_step (settled_run past) hbefore call).mp hafter
  · intro h past rest he
    rw [he, StepRuns.allSteps_append] at h
    have hboth : Settled (puppetRun past) ∧ Agrees (puppetRun past) := by
      refine StepRuns.run_invariant (I := fun r => Settled r ∧ Agrees r) ?_ ⟨settled_run [], ?_⟩ h.1
      · intro r call hr hnot
        exact ⟨settled_step hr.1 call, (agrees_step hr.1 hr.2 call).mpr hnot⟩
      · rfl
    exact hboth.2

/-- A sneaking puppet that dies without the sneak flag is left sneaking. -/
theorem not_puppetRun_agrees_sneak :
    ¬ ∀ past rest, [(⟨true, true, false, false, ⟨0⟩, ⟨0⟩, PoseFlag.sneak⟩ : PuppetCall),
        ⟨true, true, false, false, ⟨0⟩, ⟨0⟩, PoseFlag.dead⟩] = past ++ rest → Agrees (puppetRun past) := by
  intro h
  have hsneak := congrFun (h _ [] (List.append_nil _).symm) .sneak
  revert hsneak
  decide

end Puppet
end CommonwealthMP
