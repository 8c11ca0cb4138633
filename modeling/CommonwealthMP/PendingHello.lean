import CommonwealthMP.ServerRuntime

/-! # Frames of a connection that has not joined: session queries and Hello -/
namespace CommonwealthMP
open ByteLayout Binary32 OrderedTables
namespace ServerRuntime

/-- The return statement through which `handle_pending_message` leaves. -/
inductive PendingExit
  | dropped
  | answered
  | rejected (reason : RejectReason)
  /-- a require-host join taken back after its client was inserted -/
  | rolledBack
  | reconnected (id : PeerId)
  /-- a new client; `fresh` is false when the allocated id was still taken -/
  | joined (id : PeerId) (fresh : Bool)
  deriving DecidableEq, Repr

structure PendingResult where
  runtime : ServerRuntime
  pending : PendingTcp
  exit : PendingExit

/-- The received Hello with its character arrays terminated. -/
def readHello (buf : Bytes) : Hello :=
  let hello := Hello.decode buf
  { hello with
    name := hello.name.set 31 0, playerKey := hello.playerKey.set 31 0, password := hello.password.set 15 0 }

def helloKey (hello : Hello) : Bytes := sanitizePlayerKey (cString hello.playerKey) (ascii "player")

def helloRequiresHost (hello : Hello) : Bool := hello.flags &&& kHelloFlagRequireHost != 0

/-- `reconnect`: the first live client with this player key. -/
def findByKey (s : ServerRuntime) (key : Bytes) : Option (Σ _ : PeerId, Client) :=
  s.clients.entries.find? (·.2.playerKey = key)

def answerQuery (s : ServerRuntime) (pending : PendingTcp) : ServerRuntime :=
  let (host, world) := findHost s.clients s.world
  let s := { s with world := world }
  let haveHost := (host.any fun h => h.havePose) && world.hostPeerId != 0
  let hostInterior := haveHost && world.hostLocation != 0 && world.hostLocation != kCommonwealthWorldspace
  let info := makeSessionInfo (if haveHost then world.hostPeerId else 0) (if haveHost then world.hostLocation else 0)
    (if haveHost then world.hostX else ⟨0⟩) (if haveHost then world.hostY else ⟨0⟩) (if haveHost then world.hostZ else ⟨0⟩)
    (UInt32.ofNat s.clients.size) haveHost hostInterior s.cfg.name (UInt32.ofInt s.cfg.maxPlayers) s.cfg.motd
    (buildSessionFlags s.cfg)
  s.queue (sendTcpConn pending.connId info.encode)

/-- The gate on the number of players, which a reconnecting player passes. -/
def capacityGate (s : ServerRuntime) (hello : Hello) : Option (RejectReason × Bytes) :=
  if (findByKey s (helloKey hello)).isNone ∧ s.cfg.maxPlayers ≤ s.clients.size then some (.Full, ascii "server full")
  else none

/-- The gate of a require-host join, and the world after the `find_host` it calls. -/
def hostGate (s : ServerRuntime) : SessionWorld × Option (RejectReason × Bytes) :=
  let (liveHost, world) := findHost s.clients s.world
  (world,
    if (liveHost.all fun h => !h.havePose) ∨ world.hostPeerId = 0 then
      some (.NoHost, ascii "need a live host in the world")
    else if world.hostLocation ≠ kCommonwealthWorldspace then
      some (.HostNotStreaming, ascii "host is not Commonwealth exterior")
    else none)

/-- The gates before the host gate, in the order of the source. -/
def contentGates (s : ServerRuntime) (header : Header) (hello : Hello) : Option (RejectReason × Bytes) :=
  if hello.protocol ≠ kProtocolVersion.toUInt32 ∨ header.version ≠ kProtocolVersion then
    some (.Protocol, ascii "need protocol 12")
  else if hello.pluginVersion ≠ kPluginVersion then some (.PluginVersion, ascii "plugin version mismatch")
  else if hello.inWorld = 0 then some (.NotInWorld, ascii "load a save and enter the world")
  else if helloKey hello ∈ s.bannedKeys then some (.Banned, ascii "banned")
  else if s.cfg.password ≠ [] ∧ cString hello.password = [] then some (.Password, ascii "password required")
  else if s.cfg.password ≠ [] ∧ s.cfg.password ≠ cString hello.password then some (.Password, ascii "wrong password")
  else if s.sessionModHash ≠ 0 ∧ hello.modHash ≠ s.sessionModHash then some (.ModMismatch, ascii "mod list mismatch")
  else none

/-- Every gate of a Hello; `find_host` may rewrite the world's host on the way. -/
def helloGates (s : ServerRuntime) (header : Header) (hello : Hello) : ServerRuntime × Option (RejectReason × Bytes) :=
  match contentGates s header hello with
  | some refusal => (s, some refusal)
  | none =>
    if helloRequiresHost hello then
      match hostGate s with
      | (world, some refusal) => ({ s with world := world }, some refusal)
      | (world, none) => ({ s with world := world }, capacityGate s hello)
    else (s, capacityGate s hello)

/-- `players[pkey]` with its key and, when it has none, its name filled in. -/
def helloRecord (s : ServerRuntime) (hello : Hello) : PlayerRec :=
  let rec_ := (s.players.lookup (helloKey hello)).getD {}
  { rec_ with
    key := helloKey hello
    name := if rec_.name = [] then (if cString hello.name = [] then ascii "player" else cString hello.name) else rec_.name }

/-- The record is stored and the world exists from the first admitted Hello on. -/
def enterRecord (s : ServerRuntime) (hello : Hello) : ServerRuntime :=
  { s with
    players := s.players.insert (helloKey hello) (helloRecord s hello)
    world := { s.world with created := true }
    worldDirty := s.worldDirty || !s.world.created }

/-- The record of a live client that moves to a new connection. -/
def reconnectedClient (pending : PendingTcp) (hello : Hello) (rec_ : PlayerRec) (token : UInt32) (t : Time)
    (c : Client) : Client :=
  { c with
    connId := pending.connId
    tcpAddr := pending.addr
    lastSeen := t
    playerKey := helloKey hello
    name := if cString hello.name = [] then c.name else cString hello.name
    udpToken := token
    udpBound := false
    appearance := if rec_.appearance = [] then c.appearance else rec_.appearance
    inventory := if rec_.inventory = [] then c.inventory else rec_.inventory
    lastPose := if !c.havePose && rec_.havePose then
        makePose c.peerId rec_.locationFormId rec_.x rec_.y rec_.z rec_.yaw else c.lastPose
    havePose := c.havePose || rec_.havePose }

def softReconnect (s : ServerRuntime) (id : PeerId) (client : Client) (pending : PendingTcp) (hello : Hello)
    (rec_ : PlayerRec) (t : Time) : ServerRuntime :=
  let s := s.unbindUdp id
  let s := if client.connId ≠ 0 ∧ client.connId ≠ pending.connId then s.queue (closeConn client.connId) else s
  let token := makeUdpToken s.udpToken
  let s := { s with
    udpToken := token
    clients := s.clients.modify id (reconnectedClient pending hello rec_ token t) }
  s.queue (bindPeer pending.connId client.peerId)

def joiningClient (s : ServerRuntime) (pending : PendingTcp) (hello : Hello) (rec_ : PlayerRec) (t : Time) : Client where
  connId := pending.connId
  tcpAddr := pending.addr
  peerId := s.nextPeer
  udpToken := makeUdpToken s.udpToken
  playerKey := helloKey hello
  name := if cString hello.name = [] then rec_.name else cString hello.name
  lastSeen := t
  lastPose := if rec_.havePose then makePose s.nextPeer rec_.locationFormId rec_.x rec_.y rec_.z rec_.yaw
    else makePose s.nextPeer s.world.spawnLocation s.world.spawnX s.world.spawnY s.world.spawnZ ⟨0⟩
  havePose := true
  appearance := rec_.appearance
  inventory := rec_.inventory

/-- `alloc_peer`, the token and `clients.emplace`. -/
def insertJoining (env : Env) (s : ServerRuntime) (pending : PendingTcp) (hello : Hello) (rec_ : PlayerRec)
    (t : Time) : ServerRuntime :=
  { s with
    nextPeer := s.nextPeer + 1
    udpToken := makeUdpToken s.udpToken
    clients := s.clients.emplace env.placement s.nextPeer (joiningClient s pending hello rec_ t) }

/-- The world a joining host brings, and the mod list it locks. -/
def adoptHostWorld (s : ServerRuntime) (joined : Client) (hello : Hello) : ServerRuntime :=
  if joined.peerId = s.world.hostPeerId then
    { s with
      world := { s.world with
        gameHour := hello.gameHour
        gameDaysPassed := hello.gameDaysPassed
        weatherFormId := hello.weatherFormId
        hostLocation := if hello.locationFormId ≠ 0 then hello.locationFormId else s.world.hostLocation
        hostX := hello.x
        hostY := hello.y
        hostZ := hello.z }
      worldDirty := true
      sessionModHash := if s.sessionModHash = 0 ∧ hello.modHash ≠ 0 then hello.modHash else s.sessionModHash }
  else s

def welcomeMessages (s : ServerRuntime) (joined : Client) (hello : Hello) (rec_ : PlayerRec) : List OutboundCmd :=
  let isNew := !rec_.havePose
  let welcome := makeWelcome joined.peerId 0 isNew (joined.peerId = s.world.hostPeerId) (buildSessionFlags s.cfg)
    joined.udpToken
  let w := s.world
  let ownPlace := !helloRequiresHost hello && !isNew && rec_.havePose && rec_.locationFormId != 0
    && rec_.locationFormId == w.hostLocation
  let placeX := if helloRequiresHost hello then add w.hostX kGuestSpawnOffsetX else if ownPlace then rec_.x else w.hostX
  let snap := makeWorldSnapshot w.gameHour w.gameDaysPassed w.weatherFormId w.hostLocation w.hostX w.hostY w.hostZ
    w.hostPeerId (if ownPlace then rec_.locationFormId else w.hostLocation) placeX
    (if ownPlace then rec_.y else w.hostY) (if ownPlace then rec_.z else w.hostZ) isNew
  sendTcp joined welcome.encode ++ sendTcp joined snap.encode ++
    toOthers s.clients joined.peerId fun other =>
      if other.havePose then
        sendUdp joined other.lastPose.encode ++
          (if other.appearance = [] then [] else sendBlobTcp joined .AppearanceChunk other.peerId other.appearance) ++
          (if other.inventory = [] then [] else sendBlobTcp joined .InventoryChunk other.peerId other.inventory)
      else []

def completeJoin (s : ServerRuntime) (id : PeerId) (hello : Hello) (rec_ : PlayerRec) : ServerRuntime :=
  match s.clients.lookup id with
  | none => s
  | some joined =>
    let s := adoptHostWorld s joined hello
    s.queue (welcomeMessages s joined hello rec_)

/-- An admitted Hello: reconnect the live client of this key, or join as a new one. -/
def admitHello (env : Env) (s : ServerRuntime) (pending : PendingTcp) (hello : Hello) (t : Time) : PendingResult :=
  let rec_ := helloRecord s hello
  let s := enterRecord s hello
  let released := { pending with connId := 0 }
  match findByKey s (helloKey hello) with
  | some ⟨id, client⟩ =>
    ⟨completeJoin (softReconnect s id client pending hello rec_ t) id hello rec_, released, .reconnected id⟩
  | none =>
    let id := s.nextPeer
    let fresh := decide (id ∉ s.clients)
    let s := insertJoining env s pending hello rec_ t
    if s.world.hostPeerId = 0 then
      if helloRequiresHost hello then
        let conn := (s.clients.lookup id).elim 0 (·.connId)
        let s := s.queue (rejectConn conn .NoHost (ascii "need a live host in the world") ++ closeConn conn)
        ⟨{ s with clients := s.clients.erase id }, released, .rolledBack⟩
      else
        let s := { s with world := { s.world with hostPeerId := id } }
        ⟨completeJoin (s.queue (bindPeer pending.connId id)) id hello rec_, released, .joined id fresh⟩
    else ⟨completeJoin (s.queue (bindPeer pending.connId id)) id hello rec_, released, .joined id fresh⟩

def handlePendingMessage (env : Env) (s : ServerRuntime) (pending : PendingTcp) (buf : Bytes) (t : Time) :
    PendingResult :=
  let key := addrKey pending.addr
  match openFrame buf with
  | none => ⟨{ s with badHeaders := s.badHeaders + 1 }, pending, .dropped⟩
  | some (header, type) =>
    if type = .SessionQuery ∧ sizeofSessionQuery ≤ buf.length then
      let (ok, rates) := allowRate s.queryRates key t 4
      let s := { s with queryRates := rates }
      if ok then ⟨answerQuery s pending, pending, .answered⟩ else ⟨s, pending, .dropped⟩
    else if type ≠ .Hello ∨ buf.length < sizeofHello then ⟨s, pending, .dropped⟩
    else
      let (ok, rates) := allowRate s.helloRates key t 2
      let s := { s with helloRates := rates }
      if !ok then ⟨s, pending, .dropped⟩
      else
        let hello := readHello buf
        match helloGates s header hello with
        | (s, some (reason, text)) => ⟨s.queue (rejectConn pending.connId reason text), pending, .rejected reason⟩
        | (s, none) => admitHello env s pending hello t

theorem softReconnect_eq {s : ServerRuntime} {id : PeerId} {client : Client} (h : s.clients.lookup id = some client)
    (pending : PendingTcp) (hello : Hello) (rec_ : PlayerRec) (t : Time) :
    softReconnect s id client pending hello rec_ t = { s with
      udpToken := makeUdpToken s.udpToken
      clients := s.clients.modify id fun c =>
        reconnectedClient pending hello rec_ (makeUdpToken s.udpToken) t (Client.unbound c)
      udpPeerByAddr := forgetAddr s.udpPeerByAddr client
      outbound := s.outbound ++ ((if client.connId ≠ 0 ∧ client.connId ≠ pending.connId then closeConn client.connId
        else []) ++ bindPeer pending.connId client.peerId) } := by
  rw [softReconnect, unbindUdp_eq h]
  by_cases hc : client.connId ≠ 0 ∧ client.connId ≠ pending.connId <;>
    simp only [queue, hc, if_false, if_true, and_self, not_false_eq_true, ne_eq, Table.modify_modify, Function.comp_def,
      List.append_assoc, List.nil_append]

theorem adoptHostWorld_eq (s : ServerRuntime) (joined : Client) (hello : Hello) :
    ∃ world dirty hash, adoptHostWorld s joined hello =
        { s with world := world, worldDirty := dirty, sessionModHash := hash } ∧
      world.hostPeerId = s.world.hostPeerId := by
  unfold adoptHostWorld
  split
  · exact ⟨_, _, _, rfl, rfl⟩
  · exact ⟨s.world, s.worldDirty, s.sessionModHash, rfl, rfl⟩

theorem completeJoin_eq {s : ServerRuntime} {id : PeerId} {joined : Client} (h : s.clients.lookup id = some joined)
    (hello : Hello) (rec_ : PlayerRec) :
    ∃ world dirty hash, completeJoin s id hello rec_ = { s with
        world := world, worldDirty := dirty, sessionModHash := hash
        outbound := s.outbound ++ welcomeMessages (adoptHostWorld s joined hello) joined hello rec_ } ∧
      world.hostPeerId = s.world.hostPeerId := by
  obtain ⟨world, dirty, hash, he, hw⟩ := adoptHostWorld_eq s joined hello
  refine ⟨world, dirty, hash, ?_, hw⟩
  rw [completeJoin, h]
  dsimp only
  rw [he]
  rfl

theorem completeJoin_clients (s : ServerRuntime) (id : PeerId) (hello : Hello) (rec_ : PlayerRec) :
    (completeJoin s id hello rec_).clients = s.clients ∧ (completeJoin s id hello rec_).cfg = s.cfg := by
  cases h : s.clients.lookup id with
  | none =>
    rw [completeJoin, h]
    exact ⟨rfl, rfl⟩
  | some joined =>
    obtain ⟨world, dirty, hash, he, -⟩ := completeJoin_eq h hello rec_
    rw [he]
    exact ⟨rfl, rfl⟩

theorem helloGates_passed {s s' : ServerRuntime} {header : Header} {hello : Hello}
    (h : helloGates s header hello = (s', none)) :
    contentGates s header hello = none ∧ capacityGate s hello = none ∧
      (helloRequiresHost hello = true → hostGate s = (s'.world, none)) := by
  unfold helloGates at h
  cases hc : contentGates s header hello with
  | some refusal =>
    rw [hc] at h
    cases h
  | none =>
    rw [hc] at h
    dsimp only at h
    by_cases hr : helloRequiresHost hello
    · rw [if_pos hr] at h
      rcases hg : hostGate s with ⟨world, refusal⟩
      rw [hg] at h
      cases refusal with
      | some refusal => cases h
      | none =>
        dsimp only at h
        obtain ⟨rfl, hcap⟩ := Prod.mk.inj h
        exact ⟨rfl, hcap, fun _ => rfl⟩
    · rw [if_neg hr] at h
      obtain ⟨rfl, hcap⟩ := Prod.mk.inj h
      exact ⟨rfl, hcap, fun h => absurd h hr⟩

theorem hostGate_hostPeerId {s : ServerRuntime} {world : SessionWorld} (h : hostGate s = (world, none)) :
    world.hostPeerId ≠ 0 := by
  intro h0
  rcases hf : findHost s.clients s.world with ⟨live, w⟩
  rw [hostGate, hf] at h
  obtain ⟨rfl, hg⟩ := Prod.mk.inj h
  rw [if_pos (.inr h0)] at hg
  cases hg

theorem findByKey_some {s : ServerRuntime} {key : Bytes} {e : Σ _ : PeerId, Client} (h : findByKey s key = some e) :
    s.clients.lookup e.1 = some e.2 ∧ e.2.playerKey = key :=
  ⟨Table.mem_entries.mp (List.mem_of_find?_eq_some h), by simpa using List.find?_some h⟩

theorem findByKey_none {s : ServerRuntime} {key : Bytes} (h : findByKey s key = none) {id : PeerId} {c : Client}
    (hc : s.clients.lookup id = some c) : c.playerKey ≠ key := by
  have := List.find?_eq_none.mp h ⟨id, c⟩ (Table.mem_entries.mpr hc)
  simpa using this

theorem admitHello_reconnect (env : Env) {s : ServerRuntime} {hello : Hello} {id : PeerId} {client : Client}
    (h : findByKey s (helloKey hello) = some ⟨id, client⟩) (pending : PendingTcp) (t : Time) :
    admitHello env s pending hello t =
      { runtime := completeJoin (softReconnect (enterRecord s hello) id client pending hello (helloRecord s hello) t) id
          hello (helloRecord s hello)
        pending := { pending with connId := 0 }
        exit := .reconnected id } := by
  have h' : findByKey (enterRecord s hello) (helloKey hello) = some ⟨id, client⟩ := h
  rw [admitHello]
  dsimp only
  rw [h']

def takeHost (s : ServerRuntime) (id : PeerId) : ServerRuntime :=
  { s with world := { s.world with hostPeerId := if s.world.hostPeerId = 0 then id else s.world.hostPeerId } }

theorem takeHost_of_ne {s : ServerRuntime} (h : s.world.hostPeerId ≠ 0) (id : PeerId) : takeHost s id = s := by
  rw [takeHost, if_neg h]

theorem takeHost_of_eq {s : ServerRuntime} (h : s.world.hostPeerId = 0) (id : PeerId) :
    takeHost s id = { s with world := { s.world with hostPeerId := id } } := by
  rw [takeHost, if_pos h]

/-- With a host behind every require-host Hello, no join is taken back. -/
theorem admitHello_join (env : Env) {s : ServerRuntime} {hello : Hello} (h : findByKey s (helloKey hello) = none)
    (hhost : helloRequiresHost hello = true → s.world.hostPeerId ≠ 0) (pending : PendingTcp) (t : Time) :
    admitHello env s pending hello t =
      { runtime := completeJoin ((takeHost (insertJoining env (enterRecord s hello) pending hello (helloRecord s hello) t)
          s.nextPeer).queue (bindPeer pending.connId s.nextPeer)) s.nextPeer hello (helloRecord s hello)
        pending := { pending with connId := 0 }
        exit := .joined s.nextPeer (decide (s.nextPeer ∉ s.clients)) } := by
  have h' : findByKey (enterRecord s hello) (helloKey hello) = none := h
  have hn : (enterRecord s hello).nextPeer = s.nextPeer := rfl
  have hc : (enterRecord s hello).clients = s.clients := rfl
  have hw : (insertJoining env (enterRecord s hello) pending hello (helloRecord s hello) t).world.hostPeerId =
      s.world.hostPeerId := rfl
  rw [admitHello]
  dsimp only
  rw [h']
  dsimp only
  rw [hn, hc]
  by_cases h0 : s.world.hostPeerId = 0
  · rw [if_pos (hw.trans h0), if_neg fun hr => hhost hr h0, takeHost_of_eq (hw.trans h0)]
  · rw [if_neg (hw ▸ h0), takeHost_of_ne (hw ▸ h0)]

end ServerRuntime
end CommonwealthMP
