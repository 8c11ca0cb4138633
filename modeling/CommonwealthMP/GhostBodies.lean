import CommonwealthMP.OrderedTables
import CommonwealthMP.PluginClient
import CommonwealthMP.StepRuns

/-! # Ghost bodies and driven actors

The plugin's tables about the actors it puts in the world and drives, and what it asks of the
engine for them. An actor is what stands under a form id from its creation to its removal, so a
body that comes back is another actor. -/
namespace CommonwealthMP.GhostBodies
open OrderedTables StepRuns

structure Actor where
  formId : UInt32
  /-- Which creation of the game it was. -/
  serial : ℕ
  deriving DecidableEq, Repr

/-- What the plugin asks of the engine. -/
inductive EngineCall
  /-- `CreateReferenceAtLocation` -/
  | place (actor : Actor)
  | applyAppearance (actor : Actor) (peer : UInt32)
  | applyInventory (actor : Actor) (peer : UInt32)
  | enableAI (actor : Actor) (on : Bool)
  | moveGhost (actor : Actor) (peer : UInt32)
  | moveUnique (actor : Actor) (id : UInt32)
  deriving DecidableEq, Repr

structure World where
  byPeer : Table UInt32 Actor := ∅
  ghostReady : List UInt32 := []
  freezeTicks : Table UInt32 ℕ := ∅
  puppeted : List UInt32 := []
  actorSeen : Table UInt32 Time := ∅
  latestActors : Table UInt32 ActorPose := ∅
  /-- The engine's references: the serial number of what stands under a form id. -/
  refs : Table UInt32 ℕ := ∅
  nextSerial : ℕ := 0
  /-- The newest first. -/
  calls : List EngineCall := []

namespace World

def call (c : EngineCall) (s : World) : World := { s with calls := c :: s.calls }

/-- `GetFormByID(id)->As<Actor>()` -/
def actorAt (s : World) (id : UInt32) : Option Actor := (s.refs.lookup id).map (Actor.mk id)

def Resolves (s : World) (a : Actor) : Prop := s.refs.lookup a.formId = some a.serial

instance (s : World) (a : Actor) : Decidable (s.Resolves a) := inferInstanceAs (Decidable (_ = _))

def ghostOf (s : World) (peer : UInt32) : Option Actor := (s.byPeer.lookup peer).filter fun a => s.Resolves a

def create (id : UInt32) (s : World) : World :=
  if id ∈ s.refs then s else { s with refs := s.refs.insert id s.nextSerial, nextSerial := s.nextSerial + 1 }

def remove (id : UInt32) (s : World) : World := { s with refs := s.refs.erase id }

def freezeGhost (a : Actor) (id : UInt32) (s : World) : World :=
  let tick := (s.freezeTicks.lookup id).getD 0 + 1
  let s := { s with freezeTicks := s.freezeTicks.insert id tick }
  if tick = 1 then s.call (.enableAI a false) else s

def unfreezeRemoteActor (a : Actor) (s : World) : World := s.call (.enableAI a true)

/-- What is done to a body whose 3D is there for the first time. -/
def readyGhost (a : Actor) (peer : UInt32) (s : World) : World :=
  let s := freezeGhost a peer { s with ghostReady := s.ghostReady.insert peer }
  (s.call (.applyAppearance a peer)).call (.applyInventory a peer)

def finishGhostSetup (has3D : Bool) (a : Actor) (peer : UInt32) (s : World) : World :=
  if !has3D then s else s.readyGhost a peer

def moveGhost (has3D : Bool) (a : Actor) (peer : UInt32) (s : World) : World :=
  if !has3D then s
  else
    let s := if peer ∉ s.ghostReady then s.readyGhost a peer else s.freezeGhost a peer
    s.call (.moveGhost a peer)

def dropPeerClone (peer : UInt32) (s : World) : World :=
  { s with ghostReady := s.ghostReady.filter (· ≠ peer), freezeTicks := s.freezeTicks.erase peer }

/-- `CMP_DespawnGhosts`, with `ClearAllClones`. -/
def despawnGhosts (s : World) : World := { s with byPeer := ∅, ghostReady := [], freezeTicks := ∅ }

end World

/-- What `CMP_ApplyGhosts` finds in a frame, with the engine's answers for each peer. -/
structure GhostFrame where
  /-- The player stands in a cell. -/
  inCell : Bool
  location : UInt32
  ghostSpawn : Bool
  myPeerId : UInt32
  latestPose : List PlayerPose
  /-- The form id of a new reference, where one is placed. -/
  place : UInt32 → Option UInt32
  /-- The body has its 3D when its setup is finished. -/
  setup3D : UInt32 → Bool
  /-- It has it when it is moved. -/
  move3D : UInt32 → Bool

namespace GhostFrame
variable (f : GhostFrame)

/-- The poses that get a body. -/
def Wanted (pose : PlayerPose) : Prop :=
  pose.peerId ≠ f.myPeerId ∧ f.ghostSpawn = true ∧
    (pose.locationFormId = 0 ∨ f.location = 0 ∨ pose.locationFormId = f.location)

instance (pose : PlayerPose) : Decidable (f.Wanted pose) := inferInstanceAs (Decidable (_ ∧ _))

def spawnGhost (peer : UInt32) (s : World) : Option (Actor × World) :=
  match f.place peer with
  | none => none
  | some id =>
    if id ∈ s.refs then none
    else
      let a : Actor := ⟨id, s.nextSerial⟩
      some (a, ((s.create id).call (.place a)).finishGhostSetup (f.setup3D peer) a peer)

def turn (s : World) (pose : PlayerPose) : World :=
  let peer := pose.peerId
  if ¬ f.Wanted pose then s
  else
    match s.ghostOf peer with
    | some a => s.moveGhost (f.move3D peer) a peer
    | none =>
      match f.spawnGhost peer s with
      | none => s
      | some (a, s) => { s with byPeer := s.byPeer.insert peer a }.moveGhost (f.move3D peer) a peer

def live : List UInt32 := (f.latestPose.filter fun pose => f.Wanted pose).map (·.peerId)

def sweep (s : World) (peer : UInt32) : World :=
  if peer ∈ f.live then s
  else
    let s := s.dropPeerClone peer
    { s with byPeer := s.byPeer.erase peer }

/-- `CMP_ApplyGhosts` -/
def apply (s : World) : World :=
  if !f.inCell then s
  else
    let s := run f.turn s f.latestPose
    run f.sweep s s.byPeer.keys

end GhostFrame

structure HostFrame where
  joined : Bool
  isHost : Bool
  inCell : Bool
  location : UInt32
  now : Time
  isPlayerRef : UInt32 → Bool

namespace HostFrame
variable (f : HostFrame)

def driven (s : World) (id : UInt32) (pose : ActorPose) : Option Actor :=
  match s.actorSeen.lookup id with
  | none => none
  | some seen =>
    if 3 / 2 < f.now - seen ∨ (pose.locationFormId ≠ 0 ∧ f.location ≠ 0 ∧ pose.locationFormId ≠ f.location) ∨
        pose.unique = 0 ∨ pose.dead ≠ 0 then none
    else
      -- a stored body's base is one of the clones
      (s.actorAt pose.refFormId).filter fun a => !f.isPlayerRef pose.refFormId && decide (a ∉ s.byPeer.values)

/-- One turn of the loop over the poses, with the ids that are live so far. -/
def turn (r : List UInt32 × World) (entry : Σ _ : UInt32, ActorPose) : List UInt32 × World :=
  let id := entry.2.refFormId
  match f.driven r.2 entry.1 entry.2 with
  | none => r
  | some a =>
    (r.1.insert id, ({ r.2 with puppeted := r.2.puppeted.insert id }.freezeGhost a id).call (.moveUnique a id))

def release (live : List UInt32) (s : World) (id : UInt32) : World :=
  if id ∈ live then s
  else
    let s := match s.actorAt id with
      | some a => s.unfreezeRemoteActor a
      | none => s
    { s with puppeted := s.puppeted.filter (· ≠ id) }

/-- `CMP_ApplyHostActors` -/
def apply (s : World) : World :=
  if !f.joined || f.isHost || !f.inCell then s
  else
    let r := run f.turn ([], s) s.latestActors.entries
    run (HostFrame.release r.1) r.2 r.2.puppeted

end HostFrame

def World.clearHostActors (s : World) : World :=
  { run (HostFrame.release []) s s.puppeted with actorSeen := ∅, latestActors := ∅ }

def World.onActorPose (joined isHost : Bool) (now : Time) (pose : ActorPose) (s : World) : World :=
  if pose.refFormId = 0 ∨ joined = false ∨ isHost = true then s
  else
    { s with
      latestActors := s.latestActors.insert pose.refFormId pose
      actorSeen := s.actorSeen.insert pose.refFormId now }

inductive Happening
  | applyGhosts (f : GhostFrame)
  | applyHostActors (f : HostFrame)
  | onActorPose (joined isHost : Bool) (now : Time) (pose : ActorPose)
  /-- A look or an inventory of a peer has arrived. -/
  | appearanceArrived (peer : UInt32)
  | inventoryArrived (peer : UInt32)
  | despawnGhosts
  /-- `CMP_Leave` -/
  | leave
  /-- The engine's own creations and removals. -/
  | create (id : UInt32)
  | remove (id : UInt32)

def step (s : World) : Happening → World
  | .applyGhosts f => f.apply s
  | .applyHostActors f => f.apply s
  | .onActorPose joined isHost now pose => s.onActorPose joined isHost now pose
  | .appearanceArrived peer =>
    match s.ghostOf peer with
    | some a => s.call (.applyAppearance a peer)
    | none => s
  | .inventoryArrived peer =>
    match s.ghostOf peer with
    | some a => s.call (.applyInventory a peer)
    | none => s
  | .despawnGhosts => s.despawnGhosts
  | .leave => s.despawnGhosts.clearHostActors
  | .create id => s.create id
  | .remove id => s.remove id

end CommonwealthMP.GhostBodies
