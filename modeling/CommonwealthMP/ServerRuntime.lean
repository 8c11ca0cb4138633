import CommonwealthMP.ServerState

/-! # The simulation thread: state, sends and session bookkeeping

`outbound` and `persist` are the commands and jobs a step hands to the two queues, in order;
the handlers ignore what the pushes return, so whether a push is refused is decided where
the queues are modelled. -/
namespace CommonwealthMP
open ByteLayout Binary32 OrderedTables

structure ServerRuntime where
  cfg : ServerConfig
  world : SessionWorld
  players : Table Bytes PlayerRec
  bannedKeys : List Bytes
  clients : ClientTable
  udpPeerByAddr : Table Bytes PeerId
  pendingTcp : List PendingTcp
  appearAsm : Table PeerId BlobAssembly
  invAsm : Table PeerId BlobAssembly
  dirtyPlayers : List Bytes
  worldDirty : Bool
  nextPeer : PeerId
  sessionModHash : UInt32
  queryRates : RateTable
  helloRates : RateTable
  hitRates : RateTable
  poseRates : RateTable
  chatRates : RateTable
  blobRates : RateTable
  datagrams : UInt64
  badHeaders : UInt64
  removePeers : List PeerId
  keepTcpPeers : List PeerId
  /-- The static of `make_udp_token`. -/
  udpToken : UInt32
  /-- `g_running` -/
  running : Bool
  outbound : List OutboundCmd
  persist : List PersistJob

/-- What a step reads from outside the server: the clock of `now_sec`, where the client map
puts a new entry, the text of the configuration file, and the C library's `stof` and base 16
`stoul` (whose range depends on the platform). -/
structure Env where
  now : Time
  placement : Placement PeerId Client
  iniText : Option Bytes
  stof : Bytes → Option F32
  stoul16 : Bytes → Option UInt32

namespace ServerRuntime

/-- `main`: the loaded world, records and bans, with nobody connected. -/
def initial (cfg : ServerConfig) (loaded : SessionWorld) (players : Table Bytes PlayerRec)
    (bannedKeys : List Bytes) : ServerRuntime where
  cfg := cfg
  world := { loaded with
    hostPeerId := 0, hostLocation := kCommonwealthWorldspace, hostX := kSanctuaryX, hostY := kSanctuaryY, hostZ := kSanctuaryZ }
  players := players
  bannedKeys := bannedKeys
  clients := ∅
  udpPeerByAddr := ∅
  pendingTcp := []
  appearAsm := ∅
  invAsm := ∅
  dirtyPlayers := []
  worldDirty := false
  nextPeer := 1
  sessionModHash := cfg.modHash
  queryRates := ∅
  helloRates := ∅
  hitRates := ∅
  poseRates := ∅
  chatRates := ∅
  blobRates := ∅
  datagrams := 0
  badHeaders := 0
  removePeers := []
  keepTcpPeers := []
  udpToken := udpTokenSeed
  running := true
  outbound := []
  persist := []

def queue (s : ServerRuntime) (cmds : List OutboundCmd) : ServerRuntime := { s with outbound := s.outbound ++ cmds }

def sendTcpConn (connId : ConnId) (data : Bytes) : List OutboundCmd :=
  if connId = 0 ∨ data = [] then [] else [{ kind := .TcpSend, connId := connId, bytes := data }]

def sendTcp (client : Client) (data : Bytes) : List OutboundCmd :=
  if client.connId = 0 ∨ data = [] then []
  else [{ kind := .TcpSend, connId := client.connId, peerId := client.peerId, bytes := data }]

def sendUdpAddr (addr : SockAddr) (data : Bytes) : List OutboundCmd :=
  if data = [] then [] else [{ kind := .UdpSend, addr := addr, bytes := data }]

def sendUdp (client : Client) (data : Bytes) : List OutboundCmd :=
  if client.udpBound then sendUdpAddr client.udpAddr data else []

def sendBlobTcp (client : Client) (type : Msg) (peerId : PeerId) (blob : Bytes) : List OutboundCmd :=
  match splitBlobChunks type peerId blob with
  | none => []
  | some packets => packets.flatMap (sendTcp client)

def rejectConn (connId : ConnId) (reason : RejectReason) (text : Bytes) : List OutboundCmd :=
  sendTcpConn connId (makeReject reason text).encode

def closeConn (connId : ConnId) : List OutboundCmd :=
  if connId = 0 then [] else [{ kind := .CloseConn, connId := connId }]

def bindPeer (connId : ConnId) (peerId : PeerId) : List OutboundCmd :=
  if connId = 0 ∨ peerId = 0 then [] else [{ kind := .BindPeer, connId := connId, peerId := peerId }]

/-- A loop over the clients that skips the map entry `skip`. -/
def toOthers (clients : ClientTable) (skip : PeerId) (send : Client → List OutboundCmd) : List OutboundCmd :=
  clients.entries.flatMap fun e => if e.1 = skip then [] else send e.2

def broadcastSessionRules (s : ServerRuntime) : ServerRuntime :=
  let rules := makeSessionRules (buildSessionFlags s.cfg)
  s.queue (s.clients.values.flatMap fun client => sendTcp client rules.encode)

def sendHeartbeat (s : ServerRuntime) : ServerRuntime :=
  s.queue (s.clients.values.flatMap fun client => sendTcp client (makeHeartbeat 0 0).encode)

def flushDirtyAsync (s : ServerRuntime) : ServerRuntime :=
  let job : PersistJob := {
    world := if s.worldDirty then some s.world else none
    players := s.dirtyPlayers.filterMap fun key => s.players.lookup key }
  let cleared := { s with worldDirty := false, dirtyPlayers := [] }
  if job.world = none ∧ job.players = [] then cleared else { cleared with persist := s.persist ++ [job] }

def persistBansAsync (s : ServerRuntime) : ServerRuntime :=
  { s with persist := s.persist ++ [{ banKeys := some s.bannedKeys }] }

def markDirty (s : ServerRuntime) (key : Bytes) : ServerRuntime := { s with dirtyPlayers := s.dirtyPlayers.insert key }

def unbindUdp (s : ServerRuntime) (id : PeerId) : ServerRuntime :=
  match s.clients.lookup id with
  | none => s
  | some client =>
    if client.udpBound then
      { s with
        udpPeerByAddr := s.udpPeerByAddr.erase (addrKey client.udpAddr)
        clients := s.clients.modify id fun c => { c with udpBound := false, udpAddr := {} } }
    else s

/-- The client an address is bound to; an entry of a departed peer is dropped. -/
def findByUdp (s : ServerRuntime) (from_ : SockAddr) : Option PeerId × ServerRuntime :=
  match s.udpPeerByAddr.lookup (addrKey from_) with
  | none => (none, s)
  | some id =>
    if id ∈ s.clients then (some id, s)
    else (none, { s with udpPeerByAddr := s.udpPeerByAddr.erase (addrKey from_) })

def findPending (s : ServerRuntime) (connId : ConnId) : Option PendingTcp :=
  s.pendingTcp.find? (·.connId = connId)

/-- The map entry of the first client on a connection. -/
def findByConn (s : ServerRuntime) (connId : ConnId) : Option (Σ _ : PeerId, Client) :=
  s.clients.entries.find? (·.2.connId = connId)

def electHost (s : ServerRuntime) : ServerRuntime := { s with world := (findHost s.clients s.world).2 }

/-- What happens to the connection of a leaving client. -/
def releaseConn (env : Env) (s : ServerRuntime) (id : PeerId) (client : Client) (keepTcp : Bool) : ServerRuntime :=
  if keepTcp ∧ client.connId ≠ 0 then
    { s with
      outbound := s.outbound ++ [{ kind := .KeepPending, peerId := id }]
      pendingTcp := s.pendingTcp ++ [{ connId := client.connId, addr := client.tcpAddr, connectedAt := env.now }] }
  else s.queue (closeConn client.connId)

/-- The marks a departure leaves: the record is dirty, and nobody is host if the host left. -/
def noteDeparture (s : ServerRuntime) (client : Client) : ServerRuntime :=
  let s := if client.playerKey ∈ s.players then s.markDirty client.playerKey else s
  if client.peerId = s.world.hostPeerId then { s with world := { s.world with hostPeerId := 0 } } else s

def removeClient (env : Env) (s : ServerRuntime) (id : PeerId) (keepTcp : Bool) : ServerRuntime :=
  match s.clients.lookup id with
  | none => s
  | some client =>
    let s := noteDeparture s client
    let s := s.queue (toOthers s.clients id fun other => sendTcp other (makeBye client.peerId).encode)
    let s := s.unbindUdp id
    let s := releaseConn env s id client keepTcp
    let s := { s with clients := s.clients.erase id }
    s.electHost.flushDirtyAsync

def expirePending (s : ServerRuntime) (t : Time) : ServerRuntime :=
  let expired (p : PendingTcp) : Bool := kPendingTcpTimeoutSec < t - p.connectedAt
  { s with
    outbound := s.outbound ++ (s.pendingTcp.filter expired).flatMap fun p => closeConn p.connId
    pendingTcp := s.pendingTcp.filter fun p => !expired p }

def expireClients (env : Env) (s : ServerRuntime) (t : Time) : ServerRuntime :=
  let dead := (s.clients.entries.filter fun e => kClientTimeoutSec < t - e.2.lastSeen).map (·.1)
  dead.foldl (fun s id => removeClient env s id false) s

def Client.unbound (c : Client) : Client := if c.udpBound then { c with udpBound := false, udpAddr := {} } else c

theorem Client.unbound_eq (c : Client) :
    (Client.unbound c).connId = c.connId ∧ (Client.unbound c).peerId = c.peerId ∧ (Client.unbound c).udpToken = c.udpToken := by
  unfold Client.unbound
  split <;> exact ⟨rfl, rfl, rfl⟩

def forgetAddr (udp : Table Bytes PeerId) (client : Client) : Table Bytes PeerId :=
  if client.udpBound then udp.erase (addrKey client.udpAddr) else udp

theorem unbindUdp_eq {s : ServerRuntime} {id : PeerId} {client : Client} (h : s.clients.lookup id = some client) :
    s.unbindUdp id = { s with
      udpPeerByAddr := forgetAddr s.udpPeerByAddr client, clients := s.clients.modify id Client.unbound } := by
  rw [unbindUdp, h]
  dsimp only
  by_cases hb : client.udpBound
  · have hf : s.clients.modify id (fun c => { c with udpBound := false, udpAddr := {} }) =
        s.clients.modify id Client.unbound := by
      refine Table.modify_congr fun c hc => ?_
      rw [h] at hc
      cases hc
      rw [Client.unbound, if_pos hb]
    rw [if_pos hb, hf, forgetAddr, if_pos hb]
  · have hf : s.clients.modify id Client.unbound = s.clients := by
      refine Table.modify_eq_self fun c hc => ?_
      rw [h] at hc
      cases hc
      rw [Client.unbound, if_neg hb]
    rw [if_neg hb, hf, forgetAddr, if_neg hb]

def dirtyJob (s : ServerRuntime) : List PersistJob :=
  let job : PersistJob := {
    world := if s.worldDirty then some s.world else none
    players := s.dirtyPlayers.filterMap fun key => s.players.lookup key }
  if job.world = none ∧ job.players = [] then [] else [job]

theorem flushDirtyAsync_eq (s : ServerRuntime) :
    s.flushDirtyAsync = { s with worldDirty := false, dirtyPlayers := [], persist := s.persist ++ s.dirtyJob } := by
  rw [flushDirtyAsync, dirtyJob]
  dsimp only
  by_cases h : (if s.worldDirty then some s.world else none) = none ∧
      (s.dirtyPlayers.filterMap fun key => s.players.lookup key) = []
  · rw [if_pos h, if_pos h, List.append_nil]
  · rw [if_neg h, if_neg h]

theorem noteDeparture_eq (s : ServerRuntime) (client : Client) :
    noteDeparture s client = { s with
      dirtyPlayers := if client.playerKey ∈ s.players then s.dirtyPlayers.insert client.playerKey else s.dirtyPlayers
      world := if client.peerId = s.world.hostPeerId then { s.world with hostPeerId := 0 } else s.world } := by
  by_cases hk : client.playerKey ∈ s.players <;> by_cases hp : client.peerId = s.world.hostPeerId <;>
    simp [noteDeparture, markDirty, hk, hp]

def releaseCmds (id : PeerId) (client : Client) (keepTcp : Bool) : List OutboundCmd :=
  if keepTcp ∧ client.connId ≠ 0 then [{ kind := .KeepPending, peerId := id }] else closeConn client.connId

def releasePending (env : Env) (pending : List PendingTcp) (client : Client) (keepTcp : Bool) : List PendingTcp :=
  if keepTcp ∧ client.connId ≠ 0 then
    pending ++ [{ connId := client.connId, addr := client.tcpAddr, connectedAt := env.now }]
  else pending

theorem releaseConn_eq (env : Env) (s : ServerRuntime) (id : PeerId) (client : Client) (keepTcp : Bool) :
    releaseConn env s id client keepTcp = { s with
      outbound := s.outbound ++ releaseCmds id client keepTcp
      pendingTcp := releasePending env s.pendingTcp client keepTcp } := by
  unfold releaseConn releaseCmds releasePending
  split <;> rfl

def byeOthers (clients : ClientTable) (id : PeerId) (client : Client) : List OutboundCmd :=
  toOthers clients id fun other => sendTcp other (makeBye client.peerId).encode

theorem removeClient_of_absent (env : Env) {s : ServerRuntime} {id : PeerId} (h : s.clients.lookup id = none)
    (keepTcp : Bool) : removeClient env s id keepTcp = s := by
  rw [removeClient, h]

/-- Everything a departure writes. -/
theorem removeClient_eq (env : Env) {s : ServerRuntime} {id : PeerId} {client : Client}
    (h : s.clients.lookup id = some client) (keepTcp : Bool) :
    ∃ persist, removeClient env s id keepTcp = { s with
      clients := s.clients.erase id
      pendingTcp := releasePending env s.pendingTcp client keepTcp
      udpPeerByAddr := forgetAddr s.udpPeerByAddr client
      world := (findHost (s.clients.erase id)
        (if client.peerId = s.world.hostPeerId then { s.world with hostPeerId := 0 } else s.world)).2
      outbound := s.outbound ++ (byeOthers s.clients id client ++ releaseCmds id client keepTcp)
      dirtyPlayers := []
      worldDirty := false
      persist := persist } := by
  have hl : ((noteDeparture s client).queue (byeOthers s.clients id client)).clients.lookup id = some client := by
    simpa [noteDeparture_eq, queue] using h
  have hu := unbindUdp_eq hl
  simp only [noteDeparture_eq, queue, byeOthers] at hu
  refine ⟨(removeClient env s id keepTcp).persist, ?_⟩
  rw [removeClient, h]
  simp only [noteDeparture_eq, queue, byeOthers, hu, releaseConn_eq, electHost, flushDirtyAsync_eq, Table.erase_modify,
    List.append_assoc]

def toTcp (client : Client) (data : Bytes) : OutboundCmd :=
  { kind := .TcpSend, connId := client.connId, peerId := client.peerId, bytes := data }

def toUdp (client : Client) (data : Bytes) : OutboundCmd := { kind := .UdpSend, addr := client.udpAddr, bytes := data }

theorem mem_sendTcp {client : Client} {data : Bytes} {cmd : OutboundCmd} (h : cmd ∈ sendTcp client data) :
    cmd = toTcp client data := by
  unfold sendTcp at h
  split at h
  · cases h
  · exact List.mem_singleton.mp h

theorem sendTcp_eq {client : Client} {data : Bytes} (hc : client.connId ≠ 0) (hd : data ≠ []) :
    sendTcp client data = [toTcp client data] := if_neg (not_or.mpr ⟨hc, hd⟩)

theorem mem_sendUdp {client : Client} {data : Bytes} {cmd : OutboundCmd} (h : cmd ∈ sendUdp client data) :
    client.udpBound = true ∧ cmd = toUdp client data := by
  unfold sendUdp sendUdpAddr at h
  split at h
  · rename_i hb
    split at h
    · cases h
    · exact ⟨hb, List.mem_singleton.mp h⟩
  · cases h

theorem mem_sendBlobTcp {client : Client} {type : Msg} {peerId : PeerId} {blob : Bytes} {cmd : OutboundCmd}
    (h : cmd ∈ sendBlobTcp client type peerId blob) :
    ∃ k < chunkCountOf blob, cmd = toTcp client (chunkPacket type peerId blob k) := by
  unfold sendBlobTcp splitBlobChunks at h
  split at h
  · cases h
  · rename_i packets hp
    split at hp
    · cases hp
    · cases hp
      obtain ⟨packet, hm, hc⟩ := List.mem_flatMap.mp h
      obtain ⟨k, hk, rfl⟩ := List.mem_map.mp hm
      exact ⟨k, List.mem_range.mp hk, mem_sendTcp hc⟩

theorem mem_toOthers {clients : ClientTable} {skip : PeerId} {send : Client → List OutboundCmd} {cmd : OutboundCmd} :
    cmd ∈ toOthers clients skip send ↔ ∃ q other, clients.lookup q = some other ∧ q ≠ skip ∧ cmd ∈ send other := by
  unfold toOthers
  simp only [List.mem_flatMap]
  constructor
  · rintro ⟨⟨q, other⟩, hm, hc⟩
    split at hc
    · cases hc
    · exact ⟨q, other, Table.mem_entries.mp hm, ‹_›, hc⟩
  · rintro ⟨q, other, hl, hne, hc⟩
    exact ⟨⟨q, other⟩, Table.mem_entries.mpr hl, by rwa [if_neg hne]⟩

end ServerRuntime
end CommonwealthMP
