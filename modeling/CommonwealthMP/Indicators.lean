import CommonwealthMP.GhostSetup
import CommonwealthMP.TrackedLists

/-! # The indicators of the HUD

The peers the compass and the map show. The compass array and the list of map markers belong to the game; the plugin puts
its slots behind the array's own entries and the bodies of the peers into the list. -/
namespace CommonwealthMP.Indicators
open ByteLayout Binary32 OrderedTables StepRuns
open GhostBodies (Actor World)

structure PeerIndicator where
  peer : UInt32
  pose : PlayerPose
  name : Bytes
  hasGhost : Bool
  ghostHandle : Option Actor
  isHost : Bool
  isNearest : Bool := false

structure HudFrame where
  hudRoot : Bool
  compassArray : Bool
  /-- Where the player is, if there is one. -/
  player : Option (F32 × F32 × F32)

/-- The HUD's lookups succeed, and there is a player. -/
def HudFrame.Found (f : HudFrame) : Prop := f.hudRoot = true ∧ f.compassArray = true ∧ f.player.isSome = true

structure IndicatorFrame extends HudFrame where
  pointerHud : Bool
  joined : Bool
  now : Time
  lastRecvPoseSec : Time
  youLoc : UInt32
  myPeerId : UInt32
  /-- `lastSnapshot.hostPeerId`, 0 without a snapshot. -/
  hostPeer : UInt32
  latestPose : Table UInt32 PlayerPose
  names : Table UInt32 Bytes
  /-- The frames of the markers, as the movie has them. -/
  movieSetFrame : Option ℤ
  movieQuestFrame : Option ℤ
  /-- `WorldBearingDeg` -/
  bearing : F32 × F32 × F32 → F32 × F32 × F32 → F32
  /-- Whether `PushBack` takes one more value, by the size of the array. -/
  pushBack : ℕ → Bool

def sameWorldspace (youLoc peerLoc : UInt32) : Bool := youLoc ≠ 0 && peerLoc ≠ 0 && youLoc == peerLoc

/-- The rows so far, and which of them is the nearest. -/
structure Collected where
  out : List PeerIndicator := []
  nearestDist : F32 := ⟨0x7149F2CA⟩
  nearestIdx : ℕ := 0

namespace IndicatorFrame
variable (f : IndicatorFrame)

def dist (pose : PlayerPose) : F32 :=
  let you := f.player.getD (⟨0⟩, ⟨0⟩, ⟨0⟩)
  let dx := sub pose.x you.1
  let dy := sub pose.y you.2.1
  let dz := sub pose.z you.2.2
  add (add (mul dx dx) (mul dy dy)) (mul dz dz)

def row (w : World) (peer : UInt32) (pose : PlayerPose) : PeerIndicator where
  peer := peer
  pose := pose
  name := match f.names.lookup peer with
    | some name => if name = [] then ascii "peer " ++ decimal peer.toNat else name
    | none => ascii "peer " ++ decimal peer.toNat
  hasGhost := (w.byPeer.lookup peer).any fun a => w.Resolves a
  ghostHandle := w.byPeer.lookup peer
  isHost := f.hostPeer ≠ 0 && peer == f.hostPeer

def Listed (peer : UInt32) (pose : PlayerPose) : Prop := peer ≠ f.myPeerId ∧ sameWorldspace f.youLoc pose.locationFormId = true

instance (peer : UInt32) (pose : PlayerPose) : Decidable (f.Listed peer pose) := inferInstanceAs (Decidable (_ ∧ _))

def collectTurn (w : World) (c : Collected) (e : Σ _ : UInt32, PlayerPose) : Collected :=
  if ¬ f.Listed e.1 e.2 then c
  else if lt (f.dist e.2) c.nearestDist then
    { out := c.out ++ [f.row w e.1 e.2], nearestDist := f.dist e.2, nearestIdx := c.out.length }
  else { c with out := c.out ++ [f.row w e.1 e.2] }

/-- No pose has come for `kPeerTimeoutSec`. -/
def silent : Bool := decide (0 < f.lastRecvPoseSec) && decide (5 < f.now - f.lastRecvPoseSec)

def collectPeers (w : World) : List PeerIndicator :=
  if f.silent then []
  else
    let c := run (f.collectTurn w) {} f.latestPose.entries
    c.out.modify c.nearestIdx fun row => { row with isNearest := true }

end IndicatorFrame

inductive GfxNumber
  /-- One the game put there. -/
  | own (bits : UInt64)
  | float (x : F32)
  | int (n : ℤ)
  deriving DecidableEq

def kCompassStride : ℕ := 4

structure Hud where
  world : World := {}
  /-- `CompassTargetDataA` -/
  compass : List GfxNumber := []
  compassPeerSlots : ℕ := 0
  compassPlayerSetFrame : ℤ := 0
  compassQuestFrame : ℤ := 0
  currentMapMarkers : List Actor := []
  mapMarkerHandles : List Actor := []
  /-- `SetPosition`, the newest first. -/
  positions : List (Actor × F32 × F32 × F32) := []

def cacheCompassFrames (f : IndicatorFrame) (s : Hud) : Hud :=
  { s with
    compassPlayerSetFrame := if s.compassPlayerSetFrame = 0 then f.movieSetFrame.getD 3 else s.compassPlayerSetFrame
    compassQuestFrame := if s.compassQuestFrame = 0 then f.movieQuestFrame.getD 1 else s.compassQuestFrame }

/-- `PushCompassSlot`: the array after the pushes, up to the first that fails. -/
def pushCompassSlot (pushBack : ℕ → Bool) : List GfxNumber → List GfxNumber → Bool × List GfxNumber
  | arr, [] => (true, arr)
  | arr, v :: vs => if pushBack arr.length then pushCompassSlot pushBack (arr ++ [v]) vs else (false, arr)

def trimCompassPeers (s : Hud) : Hud :=
  let trim := s.compassPeerSlots * kCompassStride
  { s with
    compass := if s.compassPeerSlots ≠ 0 ∧ trim ≤ s.compass.length then s.compass.take (s.compass.length - trim) else s.compass
    compassPeerSlots := 0 }

def compassSlot (f : IndicatorFrame) (s : Hud) (you : F32 × F32 × F32) (row : PeerIndicator) : List GfxNumber :=
  [.float (f.bearing you (row.pose.x, row.pose.y, row.pose.z)), .int (if row.isNearest || row.isHost then 100 else 72),
    .int (if row.isHost then s.compassQuestFrame else s.compassPlayerSetFrame), .int (if row.isNearest then 112 else 100)]

/-- The loop over the peers, left at the first push that fails. -/
def pushPeers (f : IndicatorFrame) (you : F32 × F32 × F32) : List PeerIndicator → Hud → Hud
  | [], s => s
  | row :: rows, s =>
    let (pushed, arr) := pushCompassSlot f.pushBack s.compass (compassSlot f s you row)
    let s := { s with compass := arr }
    if pushed then pushPeers f you rows { s with compassPeerSlots := s.compassPeerSlots + 1 } else s

def updateCompass (f : IndicatorFrame) (peers : List PeerIndicator) (s : Hud) : Hud :=
  if !f.hudRoot then s
  else
    let s := cacheCompassFrames f s
    if !f.compassArray then s
    else
      let s := trimCompassPeers s
      match f.player with
      | none => s
      | some you => pushPeers f you peers s

def clearCompassPeers (f : HudFrame) (s : Hud) : Hud :=
  if !f.hudRoot || !f.compassArray then { s with compassPeerSlots := 0 } else trimCompassPeers s

def removeMapMarkerHandle (player : Bool) (handle : Actor) (markers : List Actor) : List Actor :=
  if player then markers.erase handle else markers

def clearMapMarkers (f : HudFrame) (s : Hud) : Hud :=
  { s with
    currentMapMarkers := run (fun markers handle => removeMapMarkerHandle f.player.isSome handle markers) s.currentMapMarkers s.mapMarkerHandles
    mapMarkerHandles := [] }

/-- One turn of the loop over the peers, with the handles that are kept so far. -/
def markTurn (r : List Actor × Hud) (row : PeerIndicator) : List Actor × Hud :=
  match row.ghostHandle with
  | none => r
  | some handle =>
    let s := if r.2.world.Resolves handle then
        { r.2 with positions := (handle, row.pose.x, row.pose.y, row.pose.z) :: r.2.positions }
      else r.2
    let s := if handle ∈ s.mapMarkerHandles then s else { s with currentMapMarkers := s.currentMapMarkers ++ [handle] }
    (r.1 ++ [handle], s)

def updateMapMarkers (f : HudFrame) (peers : List PeerIndicator) (s : Hud) : Hud :=
  match f.player with
  | none => s
  | some _ =>
    let (next, s) := run markTurn ([], s) peers
    let markers := run (fun markers old => if old ∈ next then markers else removeMapMarkerHandle true old markers)
      s.currentMapMarkers s.mapMarkerHandles
    { s with currentMapMarkers := markers, mapMarkerHandles := next }

def indicatorsClear (f : HudFrame) (s : Hud) : Hud := clearMapMarkers f (clearCompassPeers f s)

def IndicatorFrame.shown (f : IndicatorFrame) (w : World) : List PeerIndicator :=
  if !f.pointerHud || !f.joined then [] else f.collectPeers w

def indicatorsTick (f : IndicatorFrame) (s : Hud) : Hud :=
  if !f.pointerHud || !f.joined then indicatorsClear f.toHudFrame s
  else
    let peers := f.collectPeers s.world
    if peers.isEmpty then indicatorsClear f.toHudFrame s
    else updateMapMarkers f.toHudFrame peers (updateCompass f peers s)

inductive Happening
  | tick (f : IndicatorFrame)
  | clear (f : HudFrame)
  /-- The bodies of the peers come and go. -/
  | bodies (h : GhostBodies.Happening)
  /-- The game rewrites its array or its list. -/
  | compass (arr : List GfxNumber)
  | markers (list : List Actor)

def step (s : Hud) : Happening → Hud
  | .tick f => indicatorsTick f s
  | .clear f => indicatorsClear f s
  | .bodies h => { s with world := GhostBodies.step s.world h }
  | .compass arr => { s with compass := arr }
  | .markers list => { s with currentMapMarkers := list }

end CommonwealthMP.Indicators
