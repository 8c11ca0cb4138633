import CommonwealthMP.BlobChunks
import CommonwealthMP.OrderedTables

/-! # The plugin client: its session, the messages it handles, the network poll

The client reaches the sockets through the functions of `udp_win.h`, which stand here for any
behaviour of the network, and reads the running game through a `LocalGame`. What it does to
the game in return (HUD lines, ghosts, the player's position) is left out. -/
namespace CommonwealthMP.Plugin
open ByteLayout Binary32 OrderedTables

/-- What `cmp_net_tcp_recv_frame` returns: -1, -2, or the frame it wrote. -/
inductive RecvFrame
  | nothing
  | closed
  | frame (buf : Bytes)
  deriving DecidableEq, Repr

/-- The functions of `udp_win.h` and the steady clock, over a state of the network. -/
structure Sockets (σ : Type) where
  nowSec : σ → Time
  startup : σ → Bool × σ
  shutdown : σ → σ
  tcpConnected : σ → Bool
  tcpConnect : σ → Bool × σ
  tcpSend : Bytes → σ → Bool × σ
  tcpRecvFrame : σ → RecvFrame × σ
  udpSend : Bytes → σ → Bool × σ
  udpRecv : σ → Option Bytes × σ

structure LocalWorld where
  location : UInt32 := 0
  x : F32 := ⟨0⟩
  y : F32 := ⟨0⟩
  z : F32 := ⟨0⟩
  yaw : F32 := ⟨0⟩
  days : F32 := ⟨0⟩
  hour : F32 := ⟨0⟩
  weather : UInt32 := 0
  inWorld : Bool := false
  interior : Bool := false
  deriving DecidableEq, Repr

/-- The running game: the world around the player, the load order's hash, and the local
player's look and inventory, where they can be extracted, with the keys that tell whether they changed. -/
structure LocalGame where
  world : LocalWorld := {}
  modHash : UInt32 := 0
  appearance : Option Bytes := none
  equipKey : UInt64 := 0
  inventory : Option Bytes := none
  invKey : UInt64 := 0

structure Settings where
  playerKey : Bytes := []
  playerName : Bytes := ascii "Player"
  password : Bytes := []
  blobAssembleTtlMs : ℤ := 5000

def kPoseRingSize : ℕ := 8

structure TimedSample where
  recvSec : Time := 0
  x : F32 := ⟨0⟩
  y : F32 := ⟨0⟩
  z : F32 := ⟨0⟩
  yaw : F32 := ⟨0⟩
  pitch : F32 := ⟨0⟩
  speed : F32 := ⟨0⟩
  vx : F32 := ⟨0⟩
  vy : F32 := ⟨0⟩
  flags : UInt32 := 0
  locationFormId : UInt32 := 0
  deriving DecidableEq

structure PoseRing where
  samples : List TimedSample := []
  deriving DecidableEq

/-- `==` on floats. -/
def same (x y : F32) : Bool := le x y && le y x

/-- The comparison that lets a new sample replace the last one. -/
def TimedSample.still (s last : TimedSample) : Bool :=
  same s.x last.x && same s.y last.y && same s.z last.z && same s.yaw last.yaw && same s.speed last.speed &&
    s.flags == last.flags

def PoseRing.push (ring : PoseRing) (s : TimedSample) : PoseRing :=
  match ring.samples.getLast? with
  | none => { samples := [s] }
  | some last =>
    let s := if s.recvSec < last.recvSec then { s with recvSec := last.recvSec } else s
    if s.still last then { samples := ring.samples.dropLast ++ [s] }
    else
      let samples := ring.samples ++ [s]
      { samples := samples.drop (samples.length - kPoseRingSize) }

def fromPlayerPose (pose : PlayerPose) (recvSec : Time) : TimedSample where
  recvSec := recvSec
  x := pose.x
  y := pose.y
  z := pose.z
  yaw := pose.yaw
  pitch := pose.pitch
  speed := pose.speed
  vx := pose.vx
  vy := pose.vy
  flags := pose.flags
  locationFormId := pose.locationFormId

def fromActorPose (pose : ActorPose) (recvSec : Time) : TimedSample where
  recvSec := recvSec
  x := pose.x
  y := pose.y
  z := pose.z
  yaw := pose.yaw
  pitch := pose.pitch
  speed := pose.speed
  vx := pose.vx
  vy := pose.vy
  flags := pose.flags
  locationFormId := pose.locationFormId

structure QueuedPose where
  pose : PlayerPose
  recvSec : Time
  deriving DecidableEq

structure NetRuntime where
  joined : Bool := false
  myPeerId : UInt32 := 0
  isHost : Bool := false
  isNewPlayer : Bool := false
  incoming : List QueuedPose := []
  latestPose : Table UInt32 PlayerPose := ∅
  poseRing : Table UInt32 PoseRing := ∅
  actorRing : Table UInt32 PoseRing := ∅
  latestActors : Table UInt32 ActorPose := ∅
  lastSnapshot : Option WorldSnapshot := none
  haveSnapshot : Bool := false
  snapshotApplied : Bool := false
  joinSentSec : Time := 0
  lastHelloRetrySec : Time := 0
  udpToken : UInt32 := 0
  udpBound : Bool := false

structure BlobRuntime where
  appearances : Table UInt32 Bytes := ∅
  inventories : Table UInt32 Bytes := ∅
  appearanceParts : Table UInt32 BlobAssembly := ∅
  inventoryParts : Table UInt32 BlobAssembly := ∅
  lastEquipKey : UInt64 := 0
  lastInvKey : UInt64 := 0
  lastAppearanceSend : Time := 0
  lastInventorySend : Time := 0
  pendingInventoryForce : Bool := false
  pendingInventoryAt : Time := 0

structure MenuJoinRuntime where
  joinFlags : UInt8 := 0
  sessionFlags : UInt32 := 0

structure Session where
  settings : Settings := {}
  net : NetRuntime := {}
  blobs : BlobRuntime := {}
  menu : MenuJoinRuntime := {}
  /-- `g_lastRecvSec` -/
  lastRecvSec : Time := 0

/-- What an observer of the client sees: a buffer handed to `HandleMessage` from TCP or from
UDP, and the three ways `CMP_NetPoll` reports the connection gone. -/
inductive Event
  | frame (buf : Bytes)
  | datagram (buf : Bytes)
  | lost
  | closed
  | timedOut
  deriving DecidableEq, Repr

/-- The client and the network it runs on. -/
structure Client (σ : Type) where
  session : Session
  sockets : σ
  events : List Event := []

variable {σ : Type} (S : Sockets σ)

def tcpSend (data : Bytes) (c : Client σ) : Client σ := { c with sockets := (S.tcpSend data c.sockets).2 }

/-- `cmp_net_udp_send`, and what it returned. -/
def udpSend (data : Bytes) (c : Client σ) : Bool × Client σ :=
  let (sent, sockets) := S.udpSend data c.sockets
  (sent, { c with sockets := sockets })

def sendChunks (type : Msg) (blob : Bytes) (c : Client σ) : Client σ :=
  match splitBlobChunks type c.session.net.myPeerId blob with
  | none => c
  | some packets => packets.foldl (fun c packet => tcpSend S packet c) c

def sendAppearance (game : LocalGame) (force : Bool) (c : Client σ) : Client σ :=
  let net := c.session.net
  let blobs := c.session.blobs
  if !net.joined || net.myPeerId == 0 || !game.world.inWorld then c
  else
    let t := S.nowSec c.sockets
    if !force && decide (0 < blobs.lastAppearanceSend) && decide (t - blobs.lastAppearanceSend < 2) &&
        game.equipKey == blobs.lastEquipKey then c
    else
      let c := { c with session.blobs.lastAppearanceSend := t, session.blobs.lastEquipKey := game.equipKey }
      match game.appearance with
      | none => c
      | some blob => sendChunks S .AppearanceChunk blob c

def sendInventory (game : LocalGame) (force : Bool) (c : Client σ) : Client σ :=
  let net := c.session.net
  let blobs := c.session.blobs
  if !net.joined || net.myPeerId == 0 || !game.world.inWorld then c
  else
    let t := S.nowSec c.sockets
    if !force && decide (0 < blobs.lastInventorySend) && decide (t - blobs.lastInventorySend < 3) &&
        game.invKey == blobs.lastInvKey then c
    else
      let c := { c with session.blobs.lastInventorySend := t, session.blobs.lastInvKey := game.invKey }
      match game.inventory with
      | none => c
      | some blob => sendChunks S .InventoryChunk blob c

/-- The Hello of `CMP_Join` and of the retry. -/
def hello (game : LocalGame) (s : Session) : Bytes :=
  let w := game.world
  (makeHello s.settings.playerName s.settings.playerKey true w.location w.days w.hour w.weather w.x w.y w.z w.interior
    s.menu.joinFlags game.modHash s.settings.password).encode

/-- What `CMP_Leave` resets. -/
def Session.left (s : Session) : Session :=
  { s with
    net := { s.net with
      joined := false, myPeerId := 0, isHost := false, isNewPlayer := false, haveSnapshot := false
      snapshotApplied := false, udpToken := 0, udpBound := false, incoming := [], latestPose := ∅, poseRing := ∅
      actorRing := ∅, latestActors := ∅ }
    blobs := { s.blobs with
      appearances := ∅, inventories := ∅, appearanceParts := ∅, inventoryParts := ∅, lastAppearanceSend := 0
      lastInventorySend := 0 }
    menu := { s.menu with joinFlags := 0, sessionFlags := 0 } }

def leave (c : Client σ) : Client σ :=
  let c := if c.session.net.joined && S.tcpConnected c.sockets then
      tcpSend S (makeBye c.session.net.myPeerId).encode c
    else c
  { c with session := c.session.left, sockets := S.shutdown c.sockets }

/-- `CMP_Join`, and what it returned. -/
def join (game : LocalGame) (flags : UInt8) (c : Client σ) : Bool × Client σ :=
  let c := leave S c
  let (started, sockets) := S.startup c.sockets
  let c := { c with sockets := sockets }
  if !started then (false, c)
  else
    let c := { c with
      session.menu.joinFlags := flags, session.net.snapshotApplied := false, session.net.haveSnapshot := false
      session.net.isHost := false, session.net.isNewPlayer := false, session.net.udpToken := 0
      session.net.udpBound := false }
    if !game.world.inWorld then (false, { c with sockets := S.shutdown c.sockets })
    else
      let (connected, sockets) := S.tcpConnect c.sockets
      let c := { c with sockets := sockets }
      if !connected then (false, { c with sockets := S.shutdown c.sockets })
      else
        let (sent, sockets) := S.tcpSend (hello game c.session) c.sockets
        let c := { c with sockets := sockets }
        if !sent then (false, { c with sockets := S.shutdown c.sockets })
        else
          let now := S.nowSec c.sockets
          (true, { c with
            session.net.joined := true, session.net.joinSentSec := now, session.net.lastHelloRetrySec := now })

/-- The tables a chunk type is assembled in and stored to. -/
def BlobRuntime.parts (b : BlobRuntime) (type : Msg) : Table UInt32 BlobAssembly :=
  if type = .AppearanceChunk then b.appearanceParts else b.inventoryParts

def BlobRuntime.setParts (b : BlobRuntime) (type : Msg) (parts : Table UInt32 BlobAssembly) : BlobRuntime :=
  if type = .AppearanceChunk then { b with appearanceParts := parts } else { b with inventoryParts := parts }

def BlobRuntime.store (b : BlobRuntime) (type : Msg) (peerId : UInt32) (blob : Bytes) : BlobRuntime :=
  if type = .AppearanceChunk then { b with appearances := b.appearances.insert peerId blob }
  else { b with inventories := b.inventories.insert peerId blob }

def handleBlobChunk (type : Msg) (now : Time) (buf : Bytes) (b : BlobRuntime) : BlobRuntime :=
  if buf.length < sizeofBlobChunk then b
  else
    let peerId := (BlobChunk.decode buf).peerId
    let asmbl := ((b.parts type).lookup peerId).getD {}
    let asmbl := if asmbl.startedSec ≤ 0 then { asmbl with startedSec := now } else asmbl
    match assembleBlobChunk now asmbl buf with
    | (_, .Complete, complete) => (b.store type peerId complete).setParts type ((b.parts type).erase peerId)
    | (asmbl, _, _) => b.setParts type ((b.parts type).insert peerId asmbl)

def applyWorldSnapshot (snap : WorldSnapshot) (net : NetRuntime) : NetRuntime :=
  { net with lastSnapshot := some snap, haveSnapshot := true, snapshotApplied := true }

def onActorPose (pose : ActorPose) (now : Time) (net : NetRuntime) : NetRuntime :=
  if pose.refFormId = 0 then net
  else if !net.joined || net.isHost then net
  else
    let ring := (net.actorRing.lookup pose.refFormId).getD {}
    { net with
      latestActors := net.latestActors.insert pose.refFormId pose
      actorRing := net.actorRing.insert pose.refFormId (ring.push (fromActorPose pose now)) }

/-- Send the binding datagram; the binding counts as done when the socket took it. -/
def bindUdp (c : Client σ) : Client σ :=
  let (sent, c) := udpSend S (makeUdpBind c.session.net.myPeerId c.session.net.udpToken).encode c
  if sent then { c with session.net.udpBound := true } else c

def localSnapshot (game : LocalGame) (net : NetRuntime) : Bytes :=
  let w := game.world
  (makeWorldSnapshot w.hour w.days w.weather w.location w.x w.y w.z net.myPeerId w.location w.x w.y w.z net.isNewPlayer).encode

def Session.welcomed (welcome : Welcome) (s : Session) : Session :=
  { s with
    net := { s.net with
      myPeerId := welcome.peerId, isNewPlayer := welcome.isNewPlayer != 0, isHost := welcome.isHost != 0
      udpToken := welcome.udpToken }
    menu := { s.menu with sessionFlags := welcome.sessionFlags } }

def handleWelcome (game : LocalGame) (welcome : Welcome) (c : Client σ) : Client σ :=
  let c := { c with session := c.session.welcomed welcome }
  let c := bindUdp S c
  let c := tcpSend S (localSnapshot game c.session.net) c
  let c := sendAppearance S game true c
  let now := S.nowSec c.sockets
  { c with session.blobs.pendingInventoryForce := true, session.blobs.pendingInventoryAt := now + 15 / 100 }

def forgetPeer (peerId : UInt32) (s : Session) : Session :=
  { s with
    net := { s.net with latestPose := s.net.latestPose.erase peerId, poseRing := s.net.poseRing.erase peerId }
    blobs := { s.blobs with
      appearances := s.blobs.appearances.erase peerId, inventories := s.blobs.inventories.erase peerId } }

/-- The branches of `HandleMessage`. -/
def message (game : LocalGame) (type : Msg) (buf : Bytes) (c : Client σ) : Client σ :=
  let now := S.nowSec c.sockets
  match type with
  | .Reject => if sizeofReject ≤ buf.length then leave S c else c
  | .Welcome => if sizeofWelcome ≤ buf.length then handleWelcome S game (Welcome.decode buf) c else c
  | .WorldSnapshot =>
    if sizeofWorldSnapshot ≤ buf.length then
      { c with session.net := applyWorldSnapshot (WorldSnapshot.decode buf) c.session.net }
    else c
  | .Bye =>
    if sizeofBye ≤ buf.length then
      let bye := Bye.decode buf
      if bye.peerId = c.session.net.myPeerId then leave S c else { c with session := forgetPeer bye.peerId c.session }
    else c
  | .PlayerPose =>
    if sizeofPlayerPose ≤ buf.length then
      { c with session.net.incoming := c.session.net.incoming ++ [{ pose := PlayerPose.decode buf, recvSec := now }] }
    else c
  | .ActorPose =>
    if sizeofActorPose ≤ buf.length then
      { c with session.net := onActorPose (ActorPose.decode buf) now c.session.net }
    else c
  | .AppearanceChunk | .InventoryChunk =>
    { c with session.blobs := handleBlobChunk type now buf c.session.blobs }
  | .SessionRules =>
    if sizeofSessionRules ≤ buf.length then
      { c with session.menu.sessionFlags := (SessionRules.decode buf).sessionFlags }
    else c
  | .Kick => if sizeofKick ≤ buf.length then leave S c else c
  | _ => c

def handleMessage (game : LocalGame) (buf : Bytes) (c : Client σ) : Client σ :=
  match headerOk (Header.decode buf) buf.length with
  | none => c
  | some type => message S game type buf { c with session.lastRecvSec := S.nowSec c.sockets }

def expireBlobAssemblies (now ttlSec : Time) (parts : Table UInt32 BlobAssembly) : Table UInt32 BlobAssembly :=
  ⟨parts.entries.filter fun e => !(decide (0 < e.2.startedSec) && decide (ttlSec < now - e.2.startedSec)),
    parts.nodupKeys.sublist List.filter_sublist⟩

/-- The Hello of a client that still waits for its Welcome. -/
def helloRetry (game : LocalGame) (now : Time) (c : Client σ) : Client σ :=
  let net := c.session.net
  if net.myPeerId = 0 ∧ 0 < net.joinSentSec ∧ 3 / 2 < now - net.joinSentSec ∧ 3 / 2 < now - net.lastHelloRetrySec then
    let c := { c with session.net.lastHelloRetrySec := now }
    if game.world.inWorld then tcpSend S (hello game c.session) c else c
  else c

def bindRetry (c : Client σ) : Client σ :=
  let net := c.session.net
  if net.myPeerId ≠ 0 ∧ net.udpToken ≠ 0 ∧ !net.udpBound then bindUdp S c else c

def inventoryDue (game : LocalGame) (now : Time) (c : Client σ) : Client σ :=
  let blobs := c.session.blobs
  if blobs.pendingInventoryForce && decide (blobs.pendingInventoryAt ≤ now) then
    sendInventory S game true { c with session.blobs.pendingInventoryForce := false }
  else c

def expireParts (now : Time) (c : Client σ) : Client σ :=
  let ttlSec : Time := (max 1 c.session.settings.blobAssembleTtlMs : ℤ) / 1000
  { c with
    session.blobs.appearanceParts := expireBlobAssemblies now ttlSec c.session.blobs.appearanceParts
    session.blobs.inventoryParts := expireBlobAssemblies now ttlSec c.session.blobs.inventoryParts }

/-- What the poll does before it reads. -/
def prelude (game : LocalGame) (c : Client σ) : Client σ :=
  let now := S.nowSec c.sockets
  expireParts now (inventoryDue S game now (bindRetry S (helloRetry S game now c)))

/-- The TCP loop with at most `fuel` turns. -/
def pollTcp (game : LocalGame) : ℕ → Client σ → Client σ
  | 0, c => c
  | fuel + 1, c =>
    let (received, sockets) := S.tcpRecvFrame c.sockets
    let c := { c with sockets := sockets }
    match received with
    | .closed => leave S { c with events := c.events ++ [.closed] }
    | .nothing => c
    | .frame buf =>
      if buf.length < sizeofHeader then c
      else
        let c := handleMessage S game buf { c with events := c.events ++ [.frame buf] }
        if c.session.net.joined then pollTcp game fuel c else c

section Turns
variable {S} {game : LocalGame} {fuel : ℕ} {c : Client σ} {w : σ}

theorem pollTcp_nothing (h : S.tcpRecvFrame c.sockets = (.nothing, w)) :
    pollTcp S game (fuel + 1) c = { c with sockets := w } := by
  rw [pollTcp, h]

theorem pollTcp_closed (h : S.tcpRecvFrame c.sockets = (.closed, w)) :
    pollTcp S game (fuel + 1) c = leave S { c with sockets := w, events := c.events ++ [.closed] } := by
  rw [pollTcp, h]

theorem pollTcp_frame {buf : Bytes} (h : S.tcpRecvFrame c.sockets = (.frame buf, w)) (hl : ¬ buf.length < sizeofHeader) :
    pollTcp S game (fuel + 1) c =
      let c' := handleMessage S game buf { c with sockets := w, events := c.events ++ [.frame buf] }
      if c'.session.net.joined then pollTcp S game fuel c' else c' := by
  rw [pollTcp, h]
  dsimp only
  rw [if_neg hl]

end Turns

/-- The UDP loop with at most `fuel` turns. -/
def pollUdp (game : LocalGame) : ℕ → Client σ → Client σ
  | 0, c => c
  | fuel + 1, c =>
    let (received, sockets) := S.udpRecv c.sockets
    let c := { c with sockets := sockets }
    match received with
    | none => c
    | some buf =>
      if buf.length < sizeofHeader then c
      else
        let c := handleMessage S game buf { c with events := c.events ++ [.datagram buf] }
        if c.session.net.joined then pollUdp game fuel c else c

/-- `Server timed out` -/
def serverTimeout (c : Client σ) : Client σ :=
  if 0 < c.session.lastRecvSec ∧ 15 < S.nowSec c.sockets - c.session.lastRecvSec then
    leave S { c with events := c.events ++ [.timedOut] }
  else c

/-- One queued pose of another peer. -/
def mergePose (net : NetRuntime) (q : QueuedPose) : NetRuntime :=
  let peerId := q.pose.peerId
  if peerId = net.myPeerId then net
  else
    { net with
      latestPose := net.latestPose.insert peerId q.pose
      poseRing := net.poseRing.insert peerId
        (((net.poseRing.lookup peerId).getD {}).push (fromPlayerPose q.pose q.recvSec)) }

def mergeIncoming (net : NetRuntime) : NetRuntime :=
  { net.incoming.foldl mergePose net with incoming := [] }

def netPoll (game : LocalGame) (c : Client σ) : Client σ :=
  if !c.session.net.joined then c
  else if !S.tcpConnected c.sockets then leave S { c with events := c.events ++ [.lost] }
  else
    let c := pollTcp S game 16 (prelude S game c)
    if !c.session.net.joined then c
    else
      let c := pollUdp S game 16 c
      if !c.session.net.joined then c
      else
        let c := serverTimeout S c
        if !c.session.net.joined then c
        else { c with session.net := mergeIncoming c.session.net }

/-- The parts of a session that no send touches. -/
structure Core where
  joined : Bool
  myPeerId : UInt32
  isHost : Bool
  isNewPlayer : Bool
  udpToken : UInt32
  incoming : List QueuedPose
  latestPose : Table UInt32 PlayerPose
  poseRing : Table UInt32 PoseRing
  appearances : Table UInt32 Bytes
  inventories : Table UInt32 Bytes
  sessionFlags : UInt32
  lastRecvSec : Time

def Session.core (s : Session) : Core where
  joined := s.net.joined
  myPeerId := s.net.myPeerId
  isHost := s.net.isHost
  isNewPlayer := s.net.isNewPlayer
  udpToken := s.net.udpToken
  incoming := s.net.incoming
  latestPose := s.net.latestPose
  poseRing := s.net.poseRing
  appearances := s.blobs.appearances
  inventories := s.blobs.inventories
  sessionFlags := s.menu.sessionFlags
  lastRecvSec := s.lastRecvSec

/-- A view of the network that sends do not change. -/
structure KeptBySends {τ : Type} (view : σ → τ) : Prop where
  tcp : ∀ data w, view (S.tcpSend data w).2 = view w
  udp : ∀ data w, view (S.udpSend data w).2 = view w

/-- Nothing but sends happened between two states of the client. -/
structure Sends {τ : Type} (view : σ → τ) (c c' : Client σ) : Prop where
  core : c'.session.core = c.session.core
  events : c'.events = c.events
  view : view c'.sockets = view c.sockets

section Sends
variable {S} {τ : Type} {view : σ → τ} {c c' c'' : Client σ}

theorem Sends.refl (c : Client σ) : Sends view c c := ⟨rfl, rfl, rfl⟩

theorem Sends.trans (h : Sends view c c') (h' : Sends view c' c'') : Sends view c c'' :=
  ⟨h'.core.trans h.core, h'.events.trans h.events, h'.view.trans h.view⟩

variable (hv : KeptBySends S view)
include hv

theorem sends_tcpSend (data : Bytes) (c : Client σ) : Sends view c (tcpSend S data c) := ⟨rfl, rfl, hv.tcp data c.sockets⟩

theorem sends_bindUdp (c : Client σ) : Sends view c (bindUdp S c) := by
  have hu := hv.udp (makeUdpBind c.session.net.myPeerId c.session.net.udpToken).encode c.sockets
  unfold bindUdp udpSend
  dsimp only
  split
  · exact ⟨rfl, rfl, hu⟩
  · exact ⟨rfl, rfl, hu⟩

theorem sends_sendChunks (type : Msg) (blob : Bytes) (c : Client σ) : Sends view c (sendChunks S type blob c) := by
  unfold sendChunks
  split
  · exact .refl c
  · rename_i packets _
    clear * - hv
    induction packets generalizing c with
    | nil => exact .refl c
    | cons packet packets ih => exact (sends_tcpSend hv packet c).trans (ih _)

theorem sends_sendAppearance (game : LocalGame) (force : Bool) (c : Client σ) :
    Sends view c (sendAppearance S game force c) := by
  unfold sendAppearance
  dsimp only
  split
  · exact .refl c
  · split
    · exact .refl c
    · split
      · exact ⟨rfl, rfl, rfl⟩
      · rename_i blob _
        have h := sends_sendChunks hv .AppearanceChunk blob { c with
          session.blobs.lastAppearanceSend := S.nowSec c.sockets, session.blobs.lastEquipKey := game.equipKey }
        exact ⟨h.core, h.events, h.view⟩

theorem sends_sendInventory (game : LocalGame) (force : Bool) (c : Client σ) :
    Sends view c (sendInventory S game force c) := by
  unfold sendInventory
  dsimp only
  split
  · exact .refl c
  · split
    · exact .refl c
    · split
      · exact ⟨rfl, rfl, rfl⟩
      · rename_i blob _
        have h := sends_sendChunks hv .InventoryChunk blob { c with
          session.blobs.lastInventorySend := S.nowSec c.sockets, session.blobs.lastInvKey := game.invKey }
        exact ⟨h.core, h.events, h.view⟩

theorem sends_helloRetry (game : LocalGame) (now : Time) (c : Client σ) : Sends view c (helloRetry S game now c) := by
  unfold helloRetry
  dsimp only
  split
  · split
    · exact ⟨rfl, rfl, hv.tcp _ c.sockets⟩
    · exact ⟨rfl, rfl, rfl⟩
  · exact .refl c

theorem sends_bindRetry (c : Client σ) : Sends view c (bindRetry S c) := by
  unfold bindRetry
  dsimp only
  split
  · exact sends_bindUdp hv c
  · exact .refl c

theorem sends_inventoryDue (game : LocalGame) (now : Time) (c : Client σ) : Sends view c (inventoryDue S game now c) := by
  unfold inventoryDue
  dsimp only
  split
  · have h := sends_sendInventory hv game true { c with session.blobs.pendingInventoryForce := false }
    exact ⟨h.core, h.events, h.view⟩
  · exact .refl c

theorem sends_prelude (game : LocalGame) (c : Client σ) : Sends view c (prelude S game c) := by
  have h := ((sends_helloRetry hv game (S.nowSec c.sockets) c).trans (sends_bindRetry hv _)).trans
    (sends_inventoryDue hv game (S.nowSec c.sockets) _)
  exact ⟨h.core, h.events, h.view⟩

end Sends

/-- The messages on which the client leaves. -/
def endsSession (me : UInt32) (buf : Bytes) : Bool :=
  match headerOk (Header.decode buf) buf.length with
  | some .Reject => true
  | some .Kick => true
  | some .Bye => (Bye.decode buf).peerId = me
  | _ => false

def peerAfter (me : UInt32) (buf : Bytes) : UInt32 :=
  match headerOk (Header.decode buf) buf.length with
  | some .Welcome => (Welcome.decode buf).peerId
  | _ => me

section Identity
variable {S} {τ : Type} {view : σ → τ}

theorem leave_joined (c : Client σ) : (leave S c).session.net.joined = false := by
  unfold leave Session.left
  rfl

theorem leave_events (c : Client σ) : (leave S c).events = c.events := by
  unfold leave
  dsimp only
  split <;> rfl

theorem message_leaves (game : LocalGame) {type : Msg} {buf : Bytes} (c : Client σ)
    (hh : headerOk (Header.decode buf) buf.length = some type)
    (h : endsSession c.session.net.myPeerId buf = true) : message S game type buf c = leave S c := by
  unfold endsSession at h
  rw [hh] at h
  cases type <;> simp only [Bool.false_eq_true, decide_eq_true_eq] at h
  case Reject =>
    have hl : sizeofReject ≤ buf.length := headerOk_length hh fun _ => of_decide_eq_true
    rw [message, if_pos hl]
  case Kick =>
    have hl : sizeofKick ≤ buf.length := headerOk_length hh fun _ => of_decide_eq_true
    rw [message, if_pos hl]
  case Bye =>
    have hl : sizeofBye ≤ buf.length := headerOk_length hh fun _ => of_decide_eq_true
    rw [message, if_pos hl]
    dsimp only
    rw [if_pos h]

theorem handleMessage_ends {g : LocalGame} {buf : Bytes} {c : Client σ}
    (h : endsSession c.session.net.myPeerId buf = true) :
    (handleMessage S g buf c).session.net.joined = false ∧ (handleMessage S g buf c).events = c.events := by
  cases hh : headerOk (Header.decode buf) buf.length with
  | none => simp [endsSession, hh] at h
  | some type =>
    rw [handleMessage, hh]
    dsimp only
    rw [message_leaves g { c with session.lastRecvSec := S.nowSec c.sockets } hh h]
    exact ⟨leave_joined _, leave_events _⟩

/-- What a message that does not end the session does to the client's place in it. -/
structure Carries (view : σ → τ) (buf : Bytes) (c c' : Client σ) : Prop where
  joined : c'.session.net.joined = c.session.net.joined
  myPeerId : c'.session.net.myPeerId = peerAfter c.session.net.myPeerId buf
  events : c'.events = c.events
  view : view c'.sockets = view c.sockets

theorem sends_handleWelcome (hv : KeptBySends S view) (game : LocalGame) (welcome : Welcome) (c : Client σ) :
    Sends view { c with session := c.session.welcomed welcome } (handleWelcome S game welcome c) := by
  have hbind := sends_bindUdp hv { c with session := c.session.welcomed welcome }
  have hsnap := sends_tcpSend hv
    (localSnapshot game (bindUdp S { c with session := c.session.welcomed welcome }).session.net)
    (bindUdp S { c with session := c.session.welcomed welcome })
  have hlook := (hbind.trans hsnap).trans (sends_sendAppearance hv game true _)
  exact ⟨hlook.core, hlook.events, hlook.view⟩

theorem handleMessage_carries (hv : KeptBySends S view) (game : LocalGame) {buf : Bytes} {c : Client σ}
    (h : endsSession c.session.net.myPeerId buf = false) : Carries view buf c (handleMessage S game buf c) := by
  unfold endsSession at h
  unfold handleMessage
  cases hh : headerOk (Header.decode buf) buf.length with
  | none => exact ⟨rfl, by rw [peerAfter, hh], rfl, rfl⟩
  | some type =>
    rw [hh] at h
    have hp (hne : type ≠ .Welcome) : peerAfter c.session.net.myPeerId buf = c.session.net.myPeerId := by
      rw [peerAfter, hh]
      cases type <;> first | rfl | exact absurd rfl hne
    dsimp only
    cases type <;> simp only [reduceCtorEq, decide_eq_false_iff_not] at h
    case Welcome =>
      have hl : sizeofWelcome ≤ buf.length := headerOk_length hh fun _ => of_decide_eq_true
      rw [message, if_pos hl]
      have hw := sends_handleWelcome hv game (Welcome.decode buf) { c with session.lastRecvSec := S.nowSec c.sockets }
      have hid := congrArg Core.myPeerId hw.core
      exact ⟨congrArg Core.joined hw.core, by rw [peerAfter, hh]; exact hid, hw.events, hw.view⟩
    case Bye =>
      unfold message
      dsimp only
      rw [if_neg h]
      split
      · exact ⟨rfl, (hp (by decide)).symm, rfl, rfl⟩
      · exact ⟨rfl, (hp (by decide)).symm, rfl, rfl⟩
    all_goals
      unfold message
      dsimp only [onActorPose]
      repeat' split
      all_goals exact ⟨rfl, (hp (by decide)).symm, rfl, rfl⟩

end Identity

end CommonwealthMP.Plugin
