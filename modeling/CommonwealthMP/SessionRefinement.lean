import CommonwealthMP.ServerRuns

/-! # The runtime refines the session table

`sessions` reads the session table off a runtime, `moves` is what an input does to it. Every
step of the runtime is those moves; the rest of the handlers leaves the table alone. -/
namespace CommonwealthMP
open ByteLayout Binary32 OrderedTables SessionTable
namespace ServerRuntime

abbrev Sessions := SessionTable.Sessions PeerId ConnId Bytes UInt32 Bytes
abbrev Endpoint := SessionTable.Endpoint ConnId Bytes UInt32 Bytes
abbrev Move := SessionTable.Move PeerId ConnId Bytes UInt32 Bytes

def endpointOf (c : Client) : Endpoint where
  conn := c.connId
  key := c.playerKey
  token := c.udpToken
  udp := if c.udpBound then some (addrKey c.udpAddr) else none

@[simp] theorem endpointOf_conn (c : Client) : (endpointOf c).conn = c.connId := rfl

@[simp] theorem endpointOf_key (c : Client) : (endpointOf c).key = c.playerKey := rfl

@[simp] theorem endpointOf_token (c : Client) : (endpointOf c).token = c.udpToken := rfl

def liveOf (clients : ClientTable) (id : PeerId) : Option Endpoint := (clients.lookup id).map endpointOf

def sessions (s : ServerRuntime) : Sessions where
  live := liveOf s.clients
  pending := s.pendingTcp.map (·.connId)
  host := s.world.hostPeerId
  udp := fun a => s.udpPeerByAddr.lookup a
  next := s.nextPeer

/-- Every map entry has its client's peer id as key. -/
def Keyed (clients : ClientTable) : Prop := ∀ id c, clients.lookup id = some c → c.peerId = id

theorem liveOf_some {clients : ClientTable} {id : PeerId} {c : Client} (h : clients.lookup id = some c) :
    liveOf clients id = some (endpointOf c) := by
  rw [liveOf, h, Option.map_some]

theorem liveOf_eq_some {clients : ClientTable} {id : PeerId} {e : Endpoint} :
    liveOf clients id = some e ↔ ∃ c, clients.lookup id = some c ∧ endpointOf c = e := by
  simp [liveOf, Option.map_eq_some_iff]

theorem liveOf_eq_none {clients : ClientTable} {id : PeerId} : liveOf clients id = none ↔ clients.lookup id = none := by
  simp [liveOf]

theorem liveOf_modify {clients : ClientTable} {id : PeerId} {c : Client} (h : clients.lookup id = some c)
    (f : Client → Client) :
    liveOf (clients.modify id f) = Function.update (liveOf clients) id (some (endpointOf (f c))) := by
  funext a
  rcases eq_or_ne a id with rfl | ha
  · simp [liveOf, h]
  · simp [liveOf, Table.lookup_modify_ne f clients ha, ha]

theorem liveOf_modify_same (clients : ClientTable) (id : PeerId) {f : Client → Client}
    (hf : ∀ c, endpointOf (f c) = endpointOf c) : liveOf (clients.modify id f) = liveOf clients := by
  funext a
  simp only [liveOf, Table.lookup_modify]
  split
  · cases clients.lookup a <;> simp [hf]
  · rfl

theorem liveOf_erase (clients : ClientTable) (id : PeerId) :
    liveOf (clients.erase id) = Function.update (liveOf clients) id none := by
  funext a
  rcases eq_or_ne a id with rfl | ha
  · simp [liveOf]
  · simp [liveOf, AList.lookup_erase_ne ha, ha]

theorem liveOf_emplace (p : Placement PeerId Client) (clients : ClientTable) (id : PeerId) (c : Client) :
    liveOf (clients.emplace p id c) =
      if liveOf clients id = none then Function.update (liveOf clients) id (some (endpointOf c)) else liveOf clients := by
  by_cases hm : id ∈ clients
  · rw [Table.emplace_of_mem p c hm, if_neg]
    rwa [liveOf_eq_none, AList.lookup_eq_none, not_not]
  · rw [if_pos (by rwa [liveOf_eq_none, AList.lookup_eq_none])]
    funext a
    rcases eq_or_ne a id with rfl | ha
    · simp [liveOf, Table.lookup_emplace p c hm]
    · simp [liveOf, Table.lookup_emplace p c hm, ha]

theorem Keyed.modify {clients : ClientTable} (h : Keyed clients) (id : PeerId) {f : Client → Client}
    (hf : ∀ c, (f c).peerId = c.peerId) : Keyed (clients.modify id f) := by
  intro a c hc
  rw [Table.lookup_modify] at hc
  split at hc
  · obtain ⟨c', hc', rfl⟩ := Option.map_eq_some_iff.mp hc
    rw [hf]
    exact h a c' hc'
  · exact h a c hc

theorem Keyed.erase {clients : ClientTable} (h : Keyed clients) (id : PeerId) : Keyed (clients.erase id) := by
  intro a c hc
  rw [Table.lookup_erase] at hc
  split at hc
  · cases hc
  · exact h a c hc

theorem Keyed.emplace {clients : ClientTable} (h : Keyed clients) (p : Placement PeerId Client) {id : PeerId}
    {c : Client} (hc : c.peerId = id) : Keyed (clients.emplace p id c) := by
  by_cases hm : id ∈ clients
  · rwa [Table.emplace_of_mem p c hm]
  · intro a d hd
    rw [Table.lookup_emplace p c hm] at hd
    split at hd
    · cases hd
      exact hc.trans (Eq.symm ‹_›)
    · exact h a d hd

/-- A value of a keyed table sits under its peer id. -/
theorem Keyed.lookup {clients : ClientTable} (h : Keyed clients) {c : Client} (hc : c ∈ clients.values) :
    clients.lookup c.peerId = some c := by
  obtain ⟨k, hk⟩ := Table.mem_values.mp hc
  rwa [h k c hk]

/-- `find_host` is an election of the session table. -/
theorem findHost_elects_live {clients : ClientTable} (h : Keyed clients) (world : SessionWorld) :
    Elects (liveOf clients) world.hostPeerId (findHost clients world).2.hostPeerId := by
  by_cases hv : clients.values = []
  · refine .inr (.inr ⟨fun i => ?_, ?_⟩)
    · exact liveOf_eq_none.mpr (Table.values_eq_nil.mp hv i)
    · rw [findHost_of_empty world hv]
  · by_cases hl : liveOf clients world.hostPeerId = none
    · obtain ⟨host, hmem, hid⟩ := findHost_elects world hv
      refine .inr (.inl ⟨hl, ?_⟩)
      rw [hid, liveOf_some (h.lookup hmem)]
      simp
    · obtain ⟨e, he⟩ := Option.ne_none_iff_exists'.mp hl
      obtain ⟨c, hc, -⟩ := liveOf_eq_some.mp he
      have hid : c.peerId = world.hostPeerId := h _ _ hc
      obtain ⟨_, -, -, hf⟩ := findHost_of_live (Table.lookup_mem_values hc) hid
      exact .inl ⟨hl, by rw [hf]⟩

structure Quiet (s s' : ServerRuntime) : Prop where
  sessions : s'.sessions = s.sessions
  keyed : Keyed s.clients → Keyed s'.clients
  removals : s'.removePeers = s.removePeers

theorem Quiet.refl (s : ServerRuntime) : Quiet s s := ⟨rfl, id, rfl⟩

theorem Quiet.trans {s s' s'' : ServerRuntime} (h : Quiet s s') (h' : Quiet s' s'') : Quiet s s'' :=
  ⟨h'.sessions.trans h.sessions, h'.keyed ∘ h.keyed, h'.removals.trans h.removals⟩

theorem Quiet.of_eq {s s' : ServerRuntime} (hc : s'.clients = s.clients) (hp : s'.pendingTcp = s.pendingTcp)
    (hw : s'.world.hostPeerId = s.world.hostPeerId) (hu : s'.udpPeerByAddr = s.udpPeerByAddr)
    (hr : s'.removePeers = s.removePeers) (hn : s'.nextPeer = s.nextPeer) : Quiet s s' :=
  ⟨by simp [ServerRuntime.sessions, hc, hp, hw, hu, hn], by simp [hc], hr⟩

theorem Quiet.of_modify {s s' : ServerRuntime} (id : PeerId) {f : Client → Client}
    (hc : s'.clients = s.clients.modify id f) (hp : s'.pendingTcp = s.pendingTcp)
    (hw : s'.world.hostPeerId = s.world.hostPeerId) (hu : s'.udpPeerByAddr = s.udpPeerByAddr)
    (hr : s'.removePeers = s.removePeers) (hn : s'.nextPeer = s.nextPeer)
    (hf : ∀ c, endpointOf (f c) = endpointOf c) (hf' : ∀ c, (f c).peerId = c.peerId) : Quiet s s' :=
  ⟨by simp [ServerRuntime.sessions, hc, hp, hw, hu, hn, liveOf_modify_same _ _ hf], by
    rw [hc]
    exact fun h => h.modify id hf', hr⟩

theorem quiet_ready (s : ServerRuntime) : Quiet s s.ready := .of_eq rfl rfl rfl rfl rfl rfl

theorem quiet_queue (s : ServerRuntime) (cmds : List OutboundCmd) : Quiet s (s.queue cmds) := .of_eq rfl rfl rfl rfl rfl rfl

theorem quiet_flushDirtyAsync (s : ServerRuntime) : Quiet s s.flushDirtyAsync := by
  rw [flushDirtyAsync_eq]
  exact .of_eq rfl rfl rfl rfl rfl rfl

theorem quiet_tcpWorldSnapshot (s : ServerRuntime) (client : Client) (buf : Bytes) :
    Quiet s (tcpWorldSnapshot s client buf) := by
  rcases tcpWorldSnapshot_cases s client buf with ⟨-, he⟩ | ⟨-, world, hhost, he⟩
  · rw [he]
    exact .refl s
  · rw [he]
    exact .of_eq rfl rfl hhost rfl rfl rfl

theorem quiet_setAssemblies (s : ServerRuntime) (type : Msg) (asm : Table PeerId BlobAssembly) :
    Quiet s (s.setAssemblies type asm) := by
  rw [setAssemblies_eq]
  exact .of_eq rfl rfl rfl rfl rfl rfl

theorem quiet_storeBlob (s : ServerRuntime) (type : Msg) (id : PeerId) (client : Client) (blob : Bytes) :
    Quiet s (storeBlob s type id client blob) := by
  refine .of_modify id (f := Client.storeBlob type blob) rfl rfl rfl rfl rfl rfl ?_ ?_ <;> intro c <;> unfold Client.storeBlob <;>
    split <;> rfl

theorem quiet_tcpBlobChunk (env : Env) (s : ServerRuntime) (type : Msg) (id : PeerId) (client : Client) (buf : Bytes)
    (t : Time) : Quiet s (tcpBlobChunk env s type id client buf t) := by
  have hcount : Quiet s (countChunk s client t) := .of_eq rfl rfl rfl rfl rfl rfl
  rcases tcpBlobChunk_cases env s type id client buf t with ⟨-, he⟩ | ⟨a, -, -, he⟩ | ⟨a, blob, -, -, he⟩
  · rw [he]
    exact hcount
  · rw [he]
    exact hcount.trans (quiet_setAssemblies _ type _)
  · rw [he]
    exact (hcount.trans (quiet_setAssemblies _ type _)).trans (quiet_storeBlob _ type id client blob)

theorem quiet_tcpChat (s : ServerRuntime) (client : Client) (buf : Bytes) (t : Time) :
    Quiet s (tcpChat s client buf t) := by
  rcases tcpChat_cases s client buf t with ⟨-, he⟩ | ⟨-, he⟩ <;> rw [he] <;> exact .of_eq rfl rfl rfl rfl rfl rfl

theorem quiet_tcpKick (s : ServerRuntime) (client : Client) (buf : Bytes) : Quiet s (tcpKick s client buf) := by
  rcases tcpKick_cases s client buf with he | ⟨other, -, -, he⟩
  · rw [he]
    exact .refl s
  · rw [he]
    exact quiet_queue s _

theorem quiet_tcpTeleport (s : ServerRuntime) (client : Client) (buf : Bytes) : Quiet s (tcpTeleport s client buf) := by
  rcases tcpTeleport_cases s client buf with he | ⟨other, -, -, he⟩
  · rw [he]
    exact .refl s
  · rw [he]
    exact quiet_queue s _

theorem quiet_tcpHit (s : ServerRuntime) (client : Client) (buf : Bytes) (t : Time) :
    Quiet s (tcpHit s client buf t) := by
  have hcount : Quiet s (countHit s client t) := .of_eq rfl rfl rfl rfl rfl rfl
  rcases tcpHit_cases s client buf t with he | he | ⟨hit, -, -, -, -, -, -, he⟩
  · rw [he]
    exact .refl s
  · rw [he]
    exact hcount
  · rw [he]
    exact hcount.trans (quiet_queue _ _)

theorem quiet_udpPlayerPose (s : ServerRuntime) (id : PeerId) (client : Client) (buf : Bytes) (t : Time) :
    Quiet s (udpPlayerPose s id client buf t) := by
  rcases udpPlayerPose_cases s id client buf t with ⟨-, he⟩ | ⟨-, _, ⟨-, he⟩ | ⟨-, world, hhost, he⟩⟩
  · rw [he]
    exact .of_eq rfl rfl rfl rfl rfl rfl
  · rw [he]
    exact .of_modify id rfl rfl rfl rfl rfl rfl (fun _ => rfl) (fun _ => rfl)
  · rw [he]
    exact .of_modify id rfl rfl hhost rfl rfl rfl (fun _ => rfl) (fun _ => rfl)

theorem quiet_udpActorPose (s : ServerRuntime) (client : Client) (buf : Bytes) : Quiet s (udpActorPose s client buf) := by
  rcases udpActorPose_cases s client buf with he | ⟨_, -, he⟩
  · rw [he]
    exact .refl s
  · rw [he]
    exact quiet_queue s _

def expiredIds (s : ServerRuntime) (t : Time) : List PeerId :=
  (s.clients.entries.filter fun e => kClientTimeoutSec < t - e.2.lastSeen).map (·.1)

def acceptedBind (s : ServerRuntime) (buf : Bytes) : Option PeerId :=
  match openFrame buf with
  | some (_, .UdpBind) =>
    if sizeofUdpBind ≤ buf.length then
      (s.clients.lookup (UdpBind.decode buf).peerId).bind fun client =>
        if client.udpToken = 0 ∨ client.udpToken ≠ (UdpBind.decode buf).udpToken then none
        else some (UdpBind.decode buf).peerId
    else none
  | _ => none

def kickTarget (s : ServerRuntime) (cmdLine : Bytes) : Option PeerId :=
  match splitWords cmdLine with
  | word :: arg :: _ => if lowerCopy word = ascii "kick" then (findKickTarget s arg).map (·.1) else none
  | _ => none

def messageMoves (s : ServerRuntime) (id : PeerId) (buf : Bytes) : Msg → List Move
  | .Bye => [.leave id true]
  | .Hello => if sizeofHello ≤ buf.length then [.retoken id (makeUdpToken s.udpToken)] else []
  | _ => []

def clientMoves (s : ServerRuntime) (id : PeerId) (buf : Bytes) : List Move :=
  (openFrame buf).elim [] fun frame => messageMoves s id buf frame.2

def pendingMoves (env : Env) (s : ServerRuntime) (pending : PendingTcp) (buf : Bytes) (t : Time) : List Move :=
  match (handlePendingMessage env s pending buf t).exit with
  | .joined id _ =>
    [.join id { conn := pending.connId, key := helloKey (readHello buf), token := makeUdpToken s.udpToken, udp := none }]
  | .reconnected id => [.reconnect id pending.connId (makeUdpToken s.udpToken)]
  | _ => if pending.connId = 0 then [.prune] else []

def frameMoves (env : Env) (s : ServerRuntime) (ev : InboundEvent) (t : Time) : List Move :=
  match frameTarget s ev with
  | .client id _ => clientMoves s id ev.bytes
  | .pending pending => pendingMoves env s pending ev.bytes t
  | .nobody => []

def closedPeer (s : ServerRuntime) (ev : InboundEvent) : Option PeerId :=
  if ev.peerId ≠ 0 then some ev.peerId else (findByConn s ev.connId).map (·.1)

def moves (env : Env) (s : ServerRuntime) : Input → List Move
  | .inbound ev t =>
    match ev.kind with
    | .TcpAccept => [.accept ev.connId]
    | .TcpFrame => frameMoves env s ev t
    | .TcpClosed => .close ev.connId :: (closedPeer s ev).toList.map (.leave · false)
    | .UdpDatagram => (acceptedBind s ev.bytes).toList.map (.bind · (addrKey ev.addr))
  | .expirePending _ => [.prune]
  | .expireClients t => (expiredIds s t).map (.leave · false)
  | .sendHeartbeat => []
  | .flushDirty => []
  | .admin cmdLine => (kickTarget s cmdLine).toList.map (.leave · false)

structure Simulates (s : ServerRuntime) (ms : List Move) (s' : ServerRuntime) : Prop where
  keyed : Keyed s'.clients
  steps : Steps s.sessions ms s'.sessions

theorem Simulates.of_quiet {s s' : ServerRuntime} (hk : Keyed s.clients) (h : Quiet s s') : Simulates s [] s' :=
  ⟨h.keyed hk, by
    rw [h.sessions]
    exact .nil _⟩

theorem Simulates.quiet {s s' s'' : ServerRuntime} {ms : List Move} (h : Simulates s ms s') (h' : Quiet s' s'') :
    Simulates s ms s'' :=
  ⟨h'.keyed h.keyed, by
    rw [h'.sessions]
    exact h.steps⟩

theorem Quiet.simulates {s s' s'' : ServerRuntime} {ms : List Move} (h : Quiet s s') (h' : Simulates s' ms s'') :
    Simulates s ms s'' :=
  ⟨h'.keyed, h.sessions ▸ h'.steps⟩

theorem Simulates.append {s s' s'' : ServerRuntime} {ms ns : List Move} (h : Simulates s ms s')
    (h' : Simulates s' ns s'') : Simulates s (ms ++ ns) s'' :=
  ⟨h'.keyed, h.steps.append h'.steps⟩

theorem lookup_forgetAddr (udp : Table Bytes PeerId) (client : Client) :
    (fun a => (forgetAddr udp client).lookup a) = forget (fun a => udp.lookup a) (endpointOf client).udp := by
  funext a
  unfold forgetAddr endpointOf
  split
  · rcases eq_or_ne a (addrKey client.udpAddr) with rfl | ha
    · simp [forget]
    · simp [forget, ha, AList.lookup_erase_ne ha]
  · simp [forget]

theorem endpointOf_unbound (client : Client) : endpointOf (Client.unbound client) = { endpointOf client with udp := none } := by
  unfold Client.unbound endpointOf
  split
  · rfl
  · simp

theorem leave_simulates {s s' : ServerRuntime} (hk : Keyed s.clients) {id : PeerId} {client : Client}
    (h : s.clients.lookup id = some client) (keep : Bool) (hc : s'.clients = s.clients.erase id)
    (hp : s'.pendingTcp.map (·.connId) =
      if keep ∧ client.connId ≠ 0 then s.pendingTcp.map (·.connId) ++ [client.connId] else s.pendingTcp.map (·.connId))
    (hu : s'.udpPeerByAddr = forgetAddr s.udpPeerByAddr client)
    (hw : s'.world = (findHost (s.clients.erase id)
        (if client.peerId = s.world.hostPeerId then { s.world with hostPeerId := 0 } else s.world)).2)
    (hn : s'.nextPeer = s.nextPeer) : Simulates s [.leave id keep] s' := by
  have he := findHost_elects_live (hk.erase id)
    (if client.peerId = s.world.hostPeerId then { s.world with hostPeerId := 0 } else s.world)
  rw [liveOf_erase] at he
  refine ⟨by rw [hc]; exact hk.erase id, .single ?_⟩
  have hs : s'.sessions = {
      live := Function.update s.sessions.live id none
      pending := if keep ∧ (endpointOf client).conn ≠ 0 then s.sessions.pending ++ [(endpointOf client).conn]
        else s.sessions.pending
      host := s'.world.hostPeerId
      udp := forget s.sessions.udp (endpointOf client).udp
      next := s.sessions.next } := by
    simp only [sessions, hc, hp, hu, hn, liveOf_erase, lookup_forgetAddr]
    rfl
  rw [hs]
  refine .leave s.sessions id keep (endpointOf client) _ (liveOf_some h) ?_
  have hhost : (if id = s.sessions.host then 0 else s.sessions.host) =
      (if client.peerId = s.world.hostPeerId then { s.world with hostPeerId := 0 } else s.world).hostPeerId := by
    rw [hk id client h]
    by_cases hh : id = s.world.hostPeerId <;> simp [sessions, hh]
  rw [hw, hhost]
  exact he

theorem removeClient_simulates (env : Env) {s : ServerRuntime} (hk : Keyed s.clients) (id : PeerId) (keep : Bool) :
    Simulates s [.leave id keep] (removeClient env s id keep) := by
  cases h : s.clients.lookup id with
  | none =>
    rw [removeClient_of_absent env h]
    exact ⟨hk, .single (.absent _ id keep (liveOf_eq_none.mpr h))⟩
  | some client =>
    obtain ⟨persist, he⟩ := removeClient_eq env h keep
    rw [he]
    refine leave_simulates hk h keep rfl ?_ rfl rfl rfl
    dsimp only [releasePending]
    split <;> simp

theorem expireClients_simulates (env : Env) {s : ServerRuntime} (hk : Keyed s.clients) (ids : List PeerId) :
    Simulates s (ids.map (.leave · false)) (ids.foldl (fun s id => removeClient env s id false) s) := by
  induction ids generalizing s with
  | nil => exact .of_quiet hk (.refl s)
  | cons id ids ih =>
    have h := removeClient_simulates env hk id false
    exact h.append (ih h.keyed)

theorem kickClient_simulates {s : ServerRuntime} (hk : Keyed s.clients) {id : PeerId} {client : Client}
    (h : s.clients.lookup id = some client) (doBan : Bool) :
    Simulates s [.leave id false] (kickClient s id client doBan) := by
  obtain ⟨dirty, he⟩ := kickClient_eq h doBan
  rw [he]
  exact leave_simulates hk h false rfl (by simp) rfl rfl rfl

theorem helloAgain_simulates {s : ServerRuntime} (hk : Keyed s.clients) {id : PeerId} {client : Client}
    (h : s.clients.lookup id = some client) :
    Simulates s [.retoken id (makeUdpToken s.udpToken)] (helloAgain s id client) := by
  rw [helloAgain_eq h]
  refine ⟨hk.modify id fun c => ?_, .single ?_⟩
  · unfold Client.unbound
    split <;> rfl
  · have he := Step.retoken s.sessions id (makeUdpToken s.udpToken) (endpointOf client) (liveOf_some h)
    simp only [sessions, liveOf_modify h, lookup_forgetAddr, endpointOf_unbound, endpointOf_conn, endpointOf_key,
      endpointOf_token] at he ⊢
    exact he

theorem removals_helloAgain {s : ServerRuntime} {id : PeerId} {client : Client}
    (h : s.clients.lookup id = some client) : (helloAgain s id client).removePeers = s.removePeers := by
  rw [helloAgain_eq h]

theorem quiet_tcpMessage (env : Env) (s : ServerRuntime) (type : Msg) (id : PeerId) (client : Client) (buf : Bytes)
    (t : Time) (hb : type ≠ .Bye) (hh : type ≠ .Hello) : Quiet s (tcpMessage env s type id client buf t) := by
  apply tcpMessage_cases (P := Quiet s)
  case unhandled => exact .refl s
  case bye => exact fun h => absurd h hb
  case hello => exact fun h => absurd h hh
  case snapshot => exact fun _ => quiet_tcpWorldSnapshot s client buf
  case chunk => exact fun _ => quiet_tcpBlobChunk env s type id client buf t
  case heartbeat => exact fun _ => quiet_queue s _
  case chat => exact fun _ => quiet_tcpChat s client buf t
  case kick => exact fun _ => quiet_tcpKick s client buf
  case teleport => exact fun _ => quiet_tcpTeleport s client buf
  case hit => exact fun _ => quiet_tcpHit s client buf t

theorem quiet_seen (s : ServerRuntime) (id : PeerId) (t : Time) : Quiet s (s.seen id t) :=
  .of_modify id rfl rfl rfl rfl rfl rfl (fun _ => rfl) fun _ => rfl

theorem lookup_seen {s : ServerRuntime} {id : PeerId} {client : Client} (h : s.clients.lookup id = some client)
    (t : Time) : (s.seen id t).clients.lookup id = some { client with lastSeen := t } := by
  simp [seen, h]

/-- A received TCP message other than Bye: its moves, and no removal. -/
theorem handleTcpMessage_simulates (env : Env) {s : ServerRuntime} (hk : Keyed s.clients) {id : PeerId}
    {client : Client} (h : s.clients.lookup id = some client) (buf : Bytes) (t : Time)
    (hb : ∀ header, openFrame buf ≠ some (header, .Bye)) :
    Simulates s (clientMoves s id buf) (handleTcpMessage env s id client buf t) ∧
      (handleTcpMessage env s id client buf t).removePeers = s.removePeers := by
  unfold handleTcpMessage clientMoves
  cases ho : openFrame buf with
  | none => exact ⟨.of_quiet hk (.of_eq rfl rfl rfl rfl rfl rfl), rfl⟩
  | some frame =>
    obtain ⟨header, type⟩ := frame
    have hseen := quiet_seen s id t
    have hl := lookup_seen h t
    rw [Option.elim_some]
    dsimp only
    by_cases hhello : type = .Hello
    · subst hhello
      rw [if_neg (show ¬ (!msgIsTcp .Hello) = true by decide)]
      by_cases hn : sizeofHello ≤ buf.length
      · simp only [tcpMessage, messageMoves, if_pos hn]
        exact ⟨hseen.simulates (helloAgain_simulates (hseen.keyed hk) hl), (removals_helloAgain hl).trans hseen.removals⟩
      · simp only [tcpMessage, messageMoves, if_neg hn]
        exact ⟨.of_quiet hk hseen, hseen.removals⟩
    · have hbye : type ≠ .Bye := by
        rintro rfl
        exact hb header ho
      have hq : Quiet s (if (!msgIsTcp type) = true then s
          else tcpMessage env (s.seen id t) type id { client with lastSeen := t } buf t) := by
        split
        · exact .refl s
        · exact hseen.trans (quiet_tcpMessage env _ type id _ buf t hbye hhello)
      have hm : messageMoves s id buf type = [] := by
        cases type <;> first | rfl | exact absurd rfl hbye | exact absurd rfl hhello
      rw [hm]
      exact ⟨.of_quiet hk hq, hq.removals⟩

theorem handleTcpMessage_bye (env : Env) (s : ServerRuntime) (id : PeerId) (client : Client) {buf : Bytes} {t : Time}
    {header : Header} (ho : openFrame buf = some (header, .Bye)) :
    handleTcpMessage env s id client buf t = { s.seen id t with
      removePeers := s.removePeers ++ [client.peerId], keepTcpPeers := s.keepTcpPeers ++ [client.peerId] } := by
  rw [handleTcpMessage, ho]
  rfl

theorem handleClientFrame_simulates (env : Env) {s : ServerRuntime} (hk : Keyed s.clients) {id : PeerId}
    {client : Client} (h : s.clients.lookup id = some client) (buf : Bytes) (t : Time) :
    Simulates s (clientMoves s id buf) (handleClientFrame env s id client buf t) := by
  unfold handleClientFrame
  dsimp only
  by_cases hb : ∀ header, openFrame buf ≠ some (header, .Bye)
  · obtain ⟨hs, hr⟩ := handleTcpMessage_simulates env (s := { s with removePeers := [], keepTcpPeers := [] }) hk h buf t hb
    rw [hr]
    exact ⟨hs.keyed, hs.steps⟩
  · push Not at hb
    obtain ⟨header, ho⟩ := hb
    rw [handleTcpMessage_bye env _ id client ho, clientMoves, ho, Option.elim_some, messageMoves, hk id client h]
    have hseen := quiet_seen s id t
    have hs := removeClient_simulates env (s := { s.seen id t with removePeers := [id], keepTcpPeers := [id] })
      (hseen.keyed hk) id true
    have hkeep : ([] ++ [id] : List PeerId).contains id = true := by simp
    simp only [List.nil_append, List.foldl_cons, List.foldl_nil] at hkeep ⊢
    rw [hkeep]
    exact ⟨hs.keyed, hseen.sessions ▸ hs.steps⟩

/-- With the session table in order, `find_host` finds the host and leaves the world alone. -/
theorem findHost_of_ok {s : ServerRuntime} (hk : Keyed s.clients) (hok : Ok s.sessions) :
    (findHost s.clients s.world).2 = s.world := by
  by_cases hv : s.clients.values = []
  · have h0 : s.world.hostPeerId = 0 := hok.host_idle fun i => liveOf_eq_none.mpr (Table.values_eq_nil.mp hv i)
    rw [findHost_of_empty _ hv]
    simp [← h0]
  · obtain ⟨c, hc⟩ := List.exists_mem_of_ne_nil _ hv
    have hl := hok.host_live (liveOf_some (hk.lookup hc))
    obtain ⟨e, he⟩ := Option.ne_none_iff_exists'.mp hl
    obtain ⟨c', hc', -⟩ := liveOf_eq_some.mp he
    have hid : c'.peerId = s.world.hostPeerId := hk _ _ hc'
    obtain ⟨_, -, -, hf⟩ := findHost_of_live (Table.lookup_mem_values hc') hid
    rw [hf]

theorem helloGates_runtime {s : ServerRuntime} (hk : Keyed s.clients) (hok : Ok s.sessions) (header : Header)
    (hello : Hello) : (helloGates s header hello).1 = s := by
  have hw : (hostGate s).1 = s.world := findHost_of_ok hk hok
  unfold helloGates
  split
  · rfl
  · split
    · split
      · rename_i world refusal hg
        rw [hg] at hw
        dsimp only at hw ⊢
        rw [hw]
      · rename_i world hg
        rw [hg] at hw
        dsimp only at hw ⊢
        rw [hw]
    · rfl

theorem answerQuery_eq {s : ServerRuntime} (hw : (findHost s.clients s.world).2 = s.world) (pending : PendingTcp) :
    answerQuery s pending = { s with outbound := (answerQuery s pending).outbound } := by
  unfold answerQuery queue
  dsimp only
  rw [hw]

/-- An answer to a connection that stays pending: a SessionInfo or a Reject. -/
def IsAnswer (pending : PendingTcp) (cmd : OutboundCmd) : Prop :=
  ∃ header rest, (header.type = Msg.SessionInfo.code ∨ header.type = Msg.Reject.code) ∧
    cmd = { kind := .TcpSend, connId := pending.connId, bytes := Header.encode header ++ rest }

theorem mem_sendTcpConn {connId : ConnId} {data : Bytes} {cmd : OutboundCmd} (h : cmd ∈ sendTcpConn connId data) :
    cmd = { kind := .TcpSend, connId := connId, bytes := data } := by
  unfold sendTcpConn at h
  split at h
  · cases h
  · exact List.mem_singleton.mp h

/-- What a frame that admits nobody leaves behind: rate buckets, a counter and an answer. -/
structure Unadmitted (s : ServerRuntime) (pending : PendingTcp) (r : PendingResult) : Prop where
  runtime : r.runtime = { s with
    badHeaders := r.runtime.badHeaders, queryRates := r.runtime.queryRates, helloRates := r.runtime.helloRates
    outbound := r.runtime.outbound }
  pending_eq : r.pending = pending
  exit_eq : r.exit = .dropped ∨ r.exit = .answered ∨ ∃ reason, r.exit = .rejected reason
  answers : ∀ cmd ∈ r.runtime.outbound, cmd ∈ s.outbound ∨ IsAnswer pending cmd

/-- The frame is a Hello that passes the rate limit and every gate. -/
structure Admitted (s : ServerRuntime) (pending : PendingTcp) (buf : Bytes) (t : Time) (header : Header) : Prop where
  frame : openFrame buf = some (header, .Hello)
  size : sizeofHello ≤ buf.length
  rate : (allowRate s.helloRates (addrKey pending.addr) t 2).1 = true
  content : contentGates s header (readHello buf) = none
  capacity : capacityGate s (readHello buf) = none
  host : helloRequiresHost (readHello buf) = true → hostGate s = (s.world, none)

def countHello (s : ServerRuntime) (pending : PendingTcp) (t : Time) : ServerRuntime :=
  { s with helloRates := (allowRate s.helloRates (addrKey pending.addr) t 2).2 }

theorem quiet_countHello (s : ServerRuntime) (pending : PendingTcp) (t : Time) : Quiet s (s.countHello pending t) :=
  .of_eq rfl rfl rfl rfl rfl rfl

theorem handlePendingMessage_cases (env : Env) {s : ServerRuntime} (hk : Keyed s.clients) (hok : Ok s.sessions)
    (pending : PendingTcp) (buf : Bytes) (t : Time) :
    Unadmitted s pending (handlePendingMessage env s pending buf t) ∨
      ∃ header, Admitted s pending buf t header ∧
        handlePendingMessage env s pending buf t = admitHello env (s.countHello pending t) pending (readHello buf) t := by
  unfold handlePendingMessage
  cases ho : openFrame buf with
  | none => exact .inl ⟨rfl, rfl, .inl rfl, fun _ => .inl⟩
  | some frame =>
    obtain ⟨header, type⟩ := frame
    dsimp only
    split
    · left
      split
      · refine ⟨?_, rfl, .inr (.inl rfl), fun cmd hc => ?_⟩
        · dsimp only
          rw [answerQuery_eq (by exact findHost_of_ok hk hok)]
        · rcases List.mem_append.mp hc with hc | hc
          · exact .inl hc
          · rw [mem_sendTcpConn hc]
            exact .inr ⟨_, _, .inl rfl, rfl⟩
      · exact ⟨rfl, rfl, .inl rfl, fun _ => .inl⟩
    · split
      · exact .inl ⟨rfl, rfl, .inl rfl, fun _ => .inl⟩
      · rename_i hhello
        simp only [not_or, ne_eq, not_not, not_lt] at hhello
        obtain ⟨rfl, hsize⟩ := hhello
        have hq := quiet_countHello s pending t
        have hst := helloGates_runtime (hq.keyed hk) (hq.sessions ▸ hok) header (readHello buf)
        rw [show { s with helloRates := (allowRate s.helloRates (addrKey pending.addr) t 2).2 } = s.countHello pending t
          from rfl]
        cases hr : (allowRate s.helloRates (addrKey pending.addr) t 2).1 with
        | false => exact .inl ⟨rfl, rfl, .inl rfl, fun _ => .inl⟩
        | true =>
          rw [if_neg (by decide)]
          rcases hg : helloGates (s.countHello pending t) header (readHello buf) with ⟨s', refusal⟩
          rw [hg] at hst
          dsimp only at hst
          subst hst
          cases refusal with
          | some refusal =>
            refine .inl ⟨rfl, rfl, .inr (.inr ⟨_, rfl⟩), fun cmd hc => ?_⟩
            rcases List.mem_append.mp hc with hc | hc
            · exact .inl hc
            · rw [mem_sendTcpConn hc]
              exact .inr ⟨_, _, .inr rfl, rfl⟩
          | none =>
            obtain ⟨hcontent, hcap, hhost⟩ := helloGates_passed hg
            exact .inr ⟨header, ⟨ho, hsize, hr, hcontent, hcap, hhost⟩, rfl⟩

theorem writePending_sublist (c : ConnId) {p : PendingTcp} (hp : p.connId = 0) (l : List PendingTcp) :
    (((writePending c p l).filter fun q => q.connId ≠ 0).map (·.connId)).Sublist ((l.map (·.connId)).erase c) := by
  induction l with
  | nil => simp [writePending]
  | cons q l ih =>
    by_cases hq : q.connId = c
    · simp only [writePending, hq, if_true, List.map_cons, List.erase_cons_head]
      rw [List.filter_cons_of_neg (by simp [hp])]
      exact List.filter_sublist.map _
    · simp only [writePending, hq, if_false, List.map_cons]
      rw [List.erase_cons_tail (by simpa using hq)]
      by_cases hq0 : q.connId = 0
      · rw [List.filter_cons_of_neg (by simp [hq0])]
        exact ih.trans (List.sublist_cons_self _ _)
      · rw [List.filter_cons_of_pos (by simp [hq0]), List.map_cons]
        exact ih.cons_cons _

/-- A runtime whose pending list the released connection has left. -/
def releasePendingEntry (s : ServerRuntime) (pending : PendingTcp) : ServerRuntime :=
  { s with pendingTcp := (writePending pending.connId { pending with connId := 0 } s.pendingTcp).filter fun p => p.connId ≠ 0 }

theorem reconnect_simulates {s : ServerRuntime} (hk : Keyed s.clients) {id : PeerId} {client : Client}
    (h : s.clients.lookup id = some client) {hello : Hello} (hkey : client.playerKey = helloKey hello)
    {pending : PendingTcp} (hp : pending.connId ∈ s.pendingTcp.map (·.connId)) (rec_ : PlayerRec) (t : Time) :
    Simulates s [.reconnect id pending.connId (makeUdpToken s.udpToken)]
      (releasePendingEntry (softReconnect s id client pending hello rec_ t) pending) := by
  rw [softReconnect_eq h]
  refine ⟨hk.modify id fun c => ?_, .single ?_⟩
  · unfold Client.unbound
    split <;> rfl
  · have he := Step.reconnect s.sessions id pending.connId (makeUdpToken s.udpToken) (endpointOf client) _ hp
      (writePending_sublist pending.connId (p := { pending with connId := 0 }) rfl s.pendingTcp) (liveOf_some h)
    have hend : endpointOf (reconnectedClient pending hello rec_ (makeUdpToken s.udpToken) t (Client.unbound client)) =
        { endpointOf client with conn := pending.connId, token := makeUdpToken s.udpToken, udp := none } := by
      simp [endpointOf, reconnectedClient, hkey]
    simp only [releasePendingEntry, sessions, liveOf_modify h, lookup_forgetAddr, hend] at he ⊢
    exact he

theorem join_simulates (env : Env) {s : ServerRuntime} (hk : Keyed s.clients) {hello : Hello}
    (hkey : findByKey s (helloKey hello) = none) {pending : PendingTcp}
    (hp : pending.connId ∈ s.pendingTcp.map (·.connId)) (rec_ : PlayerRec) (t : Time) :
    Simulates s
      [.join s.nextPeer { conn := pending.connId, key := helloKey hello, token := makeUdpToken s.udpToken, udp := none }]
      (releasePendingEntry (takeHost (insertJoining env s pending hello rec_ t) s.nextPeer) pending) := by
  refine ⟨hk.emplace env.placement rfl, .single ?_⟩
  have hfree : ∀ i e', s.sessions.live i = some e' → e'.key ≠ helloKey hello := by
    intro i e' hi
    obtain ⟨c, hc, rfl⟩ := liveOf_eq_some.mp hi
    exact findByKey_none hkey hc
  have he := Step.join s.sessions
    { conn := pending.connId, key := helloKey hello, token := makeUdpToken s.udpToken, udp := none } _ hp
    (writePending_sublist pending.connId (p := { pending with connId := 0 }) rfl s.pendingTcp) hfree rfl
  have hend : endpointOf (joiningClient s pending hello rec_ t) =
      { conn := pending.connId, key := helloKey hello, token := makeUdpToken s.udpToken, udp := none } := by
    simp [endpointOf, joiningClient]
  simp only [releasePendingEntry, takeHost, insertJoining, sessions, liveOf_emplace, hend] at he ⊢
  exact he

theorem quiet_release_completeJoin (s : ServerRuntime) (pending : PendingTcp) (id : PeerId) (hello : Hello)
    (rec_ : PlayerRec) :
    Quiet (releasePendingEntry s pending) (releasePendingEntry (completeJoin s id hello rec_) pending) := by
  cases h : s.clients.lookup id with
  | none =>
    rw [completeJoin, h]
    exact .refl _
  | some joined =>
    obtain ⟨world, dirty, hash, he, hw⟩ := completeJoin_eq h hello rec_
    rw [he]
    exact .of_eq rfl rfl hw rfl rfl rfl

theorem quiet_release_queue (s : ServerRuntime) (pending : PendingTcp) (cmds : List OutboundCmd) :
    Quiet (releasePendingEntry s pending) (releasePendingEntry (s.queue cmds) pending) := .of_eq rfl rfl rfl rfl rfl rfl

theorem handlePendingFrame_simulates (env : Env) {s : ServerRuntime} (hk : Keyed s.clients) (hok : Ok s.sessions)
    {pending : PendingTcp} (hp : pending.connId ∈ s.pendingTcp.map (·.connId)) (buf : Bytes) (t : Time) :
    Simulates s (pendingMoves env s pending buf t) (handlePendingFrame env s pending buf t) := by
  unfold pendingMoves handlePendingFrame
  dsimp only
  rcases handlePendingMessage_cases env hk hok pending buf t with hu | ⟨header, ha, he⟩
  · have hm : (match (handlePendingMessage env s pending buf t).exit with
        | .joined id _ => [SessionTable.Move.join id
            { conn := pending.connId, key := helloKey (readHello buf), token := makeUdpToken s.udpToken, udp := none }]
        | .reconnected id => [.reconnect id pending.connId (makeUdpToken s.udpToken)]
        | _ => (if pending.connId = 0 then [.prune] else [] : List Move)) =
          if pending.connId = 0 then [.prune] else [] := by
      rcases hu.exit_eq with h | h | ⟨reason, h⟩ <;> rw [h]
    rw [hm, hu.pending_eq]
    have hq : Quiet s (handlePendingMessage env s pending buf t).runtime := by
      rw [hu.runtime]
      exact .of_eq rfl rfl rfl rfl rfl rfl
    split
    · rename_i h0
      have hsub := (writePending_sublist pending.connId h0 (handlePendingMessage env s pending buf t).runtime.pendingTcp).trans
        List.erase_sublist
      exact hq.simulates ⟨hq.keyed hk, .single (.prune _ _ hsub)⟩
    · exact .of_quiet hk hq
  · rw [he]
    have hq : Quiet s (enterRecord (s.countHello pending t) (readHello buf)) :=
      (quiet_countHello s pending t).trans (.of_eq rfl rfl rfl rfl rfl rfl)
    cases hf : findByKey (s.countHello pending t) (helloKey (readHello buf)) with
    | some e =>
      obtain ⟨id, client⟩ := e
      obtain ⟨hl, hkey⟩ := findByKey_some hf
      rw [admitHello_reconnect env hf]
      have hs := hq.simulates (reconnect_simulates (hq.keyed hk) hl hkey hp
        (helloRecord (s.countHello pending t) (readHello buf)) t)
      exact hs.quiet (quiet_release_completeJoin _ pending id _ _)
    | none =>
      have hhost : helloRequiresHost (readHello buf) = true → (s.countHello pending t).world.hostPeerId ≠ 0 :=
        fun hr => hostGate_hostPeerId (ha.host hr)
      rw [admitHello_join env hf hhost]
      have hs := hq.simulates (join_simulates env (hq.keyed hk) hf hp
        (helloRecord (s.countHello pending t) (readHello buf)) t)
      exact hs.quiet ((quiet_release_queue _ pending _).trans (quiet_release_completeJoin _ pending _ _ _))

theorem acceptedBind_some {s : ServerRuntime} {buf : Bytes} {id : PeerId} :
    acceptedBind s buf = some id ↔
      (∃ header, openFrame buf = some (header, .UdpBind)) ∧ sizeofUdpBind ≤ buf.length ∧ (UdpBind.decode buf).peerId = id ∧
        ∃ client, s.clients.lookup id = some client ∧ client.udpToken ≠ 0 ∧ client.udpToken = (UdpBind.decode buf).udpToken := by
  unfold acceptedBind
  cases ho : openFrame buf with
  | none => simp
  | some frame =>
    obtain ⟨header, type⟩ := frame
    by_cases ht : type = .UdpBind
    · subst ht
      by_cases hs : sizeofUdpBind ≤ buf.length
      · simp only [hs, if_true, true_and, Option.bind_eq_some_iff]
        constructor
        · rintro ⟨client, hl, hc⟩
          split at hc
          · cases hc
          · rename_i hok
            cases hc
            push Not at hok
            exact ⟨⟨header, rfl⟩, rfl, client, hl, hok.1, hok.2⟩
        · rintro ⟨-, rfl, client, hl, h0, htok⟩
          exact ⟨client, hl, if_neg (not_or.mpr ⟨h0, not_not.mpr htok⟩)⟩
      · simp [hs]
    · have hm : (match some (header, type) with
          | some (_, .UdpBind) =>
            if sizeofUdpBind ≤ buf.length then
              (s.clients.lookup (UdpBind.decode buf).peerId).bind fun client =>
                if client.udpToken = 0 ∨ client.udpToken ≠ (UdpBind.decode buf).udpToken then none
                else some (UdpBind.decode buf).peerId
            else none
          | _ => none) = none := by
        cases type <;> first | rfl | exact absurd rfl ht
      rw [hm]
      simp [ht]

theorem udpBind_simulates {s : ServerRuntime} (hk : Keyed s.clients) {buf : Bytes} {client : Client}
    (h : s.clients.lookup (UdpBind.decode buf).peerId = some client)
    (ht : ¬ (client.udpToken = 0 ∨ client.udpToken ≠ (UdpBind.decode buf).udpToken)) (from_ : SockAddr) (t : Time) :
    Simulates s [.bind (UdpBind.decode buf).peerId (addrKey from_)] (udpBind s buf from_ t) := by
  rw [udpBind_eq h ht, hk _ _ h]
  refine ⟨hk.modify _ fun c => ?_, .single ?_⟩
  · unfold Client.unbound
    split <;> rfl
  · have he := Step.bind s.sessions (UdpBind.decode buf).peerId (addrKey from_) (endpointOf client) (liveOf_some h)
    have hend : endpointOf { Client.unbound client with udpAddr := from_, udpBound := true, lastSeen := t } =
        { endpointOf client with udp := some (addrKey from_) } := by
      unfold Client.unbound
      split <;> simp [endpointOf]
    have hudp : (fun a => ((forgetAddr s.udpPeerByAddr client).insert (addrKey from_) (UdpBind.decode buf).peerId).lookup a) =
        Function.update (forget (fun a => s.udpPeerByAddr.lookup a) (endpointOf client).udp) (addrKey from_)
          (some (UdpBind.decode buf).peerId) := by
      rw [← lookup_forgetAddr]
      funext a
      rcases eq_or_ne a (addrKey from_) with rfl | ha
      · simp
      · simp [ha, AList.lookup_insert_ne]
    simp only [sessions, liveOf_modify h, hend, hudp] at he ⊢
    exact he

/-- The address table names live clients only, so no lookup drops an entry. -/
theorem findByUdp_of_ok {s : ServerRuntime} (hok : Ok s.sessions) (from_ : SockAddr) :
    findByUdp s from_ = (s.udpPeerByAddr.lookup (addrKey from_), s) := by
  unfold findByUdp
  cases h : s.udpPeerByAddr.lookup (addrKey from_) with
  | none => rfl
  | some id =>
    obtain ⟨e, he, -⟩ := hok.udp_sound (show s.sessions.udp (addrKey from_) = some id from h)
    obtain ⟨c, hc, -⟩ := liveOf_eq_some.mp he
    have hmem : id ∈ s.clients := by
      rw [← AList.lookup_isSome, hc]
      rfl
    dsimp only
    rw [if_pos hmem]

/-- What becomes of a datagram: an accepted bind, an ignored one, or one of a bound client. -/
inductive DatagramCase (s : ServerRuntime) (buf : Bytes) (from_ : SockAddr) (t : Time) : ServerRuntime → Prop
  | bind (id) (ha : acceptedBind s buf = some id) : DatagramCase s buf from_ t (udpBind s.countDatagram buf from_ t)
  | ignored (badHeaders) (ha : acceptedBind s buf = none) :
      DatagramCase s buf from_ t { s.countDatagram with badHeaders := badHeaders }
  | short (id client) (ha : acceptedBind s buf = none) (hu : s.udpPeerByAddr.lookup (addrKey from_) = some id)
      (hl : s.clients.lookup id = some client) : DatagramCase s buf from_ t (s.countDatagram.seen id t)
  | playerPose (id client header) (ha : acceptedBind s buf = none) (hu : s.udpPeerByAddr.lookup (addrKey from_) = some id)
      (hl : s.clients.lookup id = some client) (ho : openFrame buf = some (header, .PlayerPose)) :
      DatagramCase s buf from_ t (udpPlayerPose (s.countDatagram.seen id t) id { client with lastSeen := t } buf t)
  | actorPose (id client header) (ha : acceptedBind s buf = none) (hu : s.udpPeerByAddr.lookup (addrKey from_) = some id)
      (hl : s.clients.lookup id = some client) (ho : openFrame buf = some (header, .ActorPose)) :
      DatagramCase s buf from_ t (udpActorPose (s.countDatagram.seen id t) { client with lastSeen := t } buf)

theorem udpBind_of_none {s : ServerRuntime} {buf : Bytes} {header : Header} (ho : openFrame buf = some (header, .UdpBind))
    (hs : sizeofUdpBind ≤ buf.length) (ha : acceptedBind s buf = none) (from_ : SockAddr) (t : Time) :
    udpBind s buf from_ t = s := by
  rw [udpBind]
  dsimp only
  cases hl : s.clients.lookup (UdpBind.decode buf).peerId with
  | none => rfl
  | some client =>
    dsimp only
    rw [if_pos]
    by_contra hok
    push Not at hok
    have := acceptedBind_some.mpr ⟨⟨header, ho⟩, hs, rfl, client, hl, hok.1, hok.2⟩
    rw [ha] at this
    cases this

theorem handleUdpPacket_cases {s : ServerRuntime} (hok : Ok s.sessions) (buf : Bytes) (from_ : SockAddr) (t : Time) :
    DatagramCase s buf from_ t (handleUdpPacket s buf from_ t) := by
  unfold handleUdpPacket
  dsimp only
  by_cases hb : ∃ header, openFrame buf = some (header, .UdpBind) ∧ sizeofUdpBind ≤ buf.length
  · obtain ⟨header, ho, hs⟩ := hb
    rw [ho]
    dsimp only
    rw [if_neg (show ¬ (!msgIsUdp .UdpBind) = true by decide), if_pos ⟨rfl, hs⟩]
    cases ha : acceptedBind s buf with
    | none =>
      rw [udpBind_of_none (s := s.countDatagram) ho hs ha]
      exact .ignored s.badHeaders ha
    | some id => exact .bind id ha
  · have hnone : acceptedBind s buf = none := by
      refine Option.eq_none_iff_forall_ne_some.mpr fun id ha => ?_
      obtain ⟨⟨header, ho⟩, hs, -⟩ := acceptedBind_some.mp ha
      exact hb ⟨header, ho, hs⟩
    cases ho : openFrame buf with
    | none => exact .ignored _ hnone
    | some frame =>
      obtain ⟨header, type⟩ := frame
      dsimp only
      split
      · exact .ignored s.badHeaders hnone
      · split
        · rename_i hbind
          exact absurd ⟨header, by rw [ho, hbind.1], hbind.2⟩ hb
        · rw [findByUdp_of_ok (s := s.countDatagram) hok]
          cases hu : s.udpPeerByAddr.lookup (addrKey from_) with
          | none =>
            rw [show s.countDatagram.udpPeerByAddr.lookup (addrKey from_) = none from hu]
            exact .ignored s.badHeaders hnone
          | some id =>
            rw [show s.countDatagram.udpPeerByAddr.lookup (addrKey from_) = some id from hu]
            obtain ⟨e, he, -⟩ := hok.udp_sound (show s.sessions.udp (addrKey from_) = some id from hu)
            obtain ⟨client, hl, -⟩ := liveOf_eq_some.mp he
            dsimp only
            rw [lookup_seen (s := s.countDatagram) hl t]
            dsimp only
            split
            · rename_i hpose
              exact .playerPose id client header hnone hu hl (by rw [ho, hpose.1])
            · split
              · rename_i hactor
                exact .actorPose id client header hnone hu hl (by rw [ho, hactor.1])
              · exact .short id client hnone hu hl

theorem handleUdpPacket_simulates {s : ServerRuntime} (hk : Keyed s.clients) (hok : Ok s.sessions) (buf : Bytes)
    (from_ : SockAddr) (t : Time) :
    Simulates s ((acceptedBind s buf).toList.map (.bind · (addrKey from_))) (handleUdpPacket s buf from_ t) := by
  have hq : Quiet s s.countDatagram := .of_eq rfl rfl rfl rfl rfl rfl
  have hseen : ∀ id, Quiet s (s.countDatagram.seen id t) := fun id => hq.trans (quiet_seen s.countDatagram id t)
  have hcase := handleUdpPacket_cases hok buf from_ t
  generalize handleUdpPacket s buf from_ t = s' at hcase ⊢
  cases hcase with
  | bind id ha =>
    rw [ha]
    obtain ⟨-, -, rfl, client, hl, h0, htok⟩ := acceptedBind_some.mp ha
    exact hq.simulates (udpBind_simulates (hq.keyed hk) hl (not_or.mpr ⟨h0, not_not.mpr htok⟩) from_ t)
  | ignored badHeaders ha =>
    rw [ha]
    exact .of_quiet hk (hq.trans (.of_eq rfl rfl rfl rfl rfl rfl))
  | short id client ha hu hl =>
    rw [ha]
    exact .of_quiet hk (hseen id)
  | playerPose id client header ha hu hl ho =>
    rw [ha]
    exact .of_quiet hk ((hseen id).trans (quiet_udpPlayerPose _ id _ buf t))
  | actorPose id client header ha hu hl ho =>
    rw [ha]
    exact .of_quiet hk ((hseen id).trans (quiet_udpActorPose _ _ buf))

theorem findByConn_some {s : ServerRuntime} {c : ConnId} {e : Σ _ : PeerId, Client} (h : findByConn s c = some e) :
    s.clients.lookup e.1 = some e.2 ∧ e.2.connId = c :=
  ⟨Table.mem_entries.mp (List.mem_of_find?_eq_some h), by simpa using List.find?_some h⟩

theorem findByConn_none {s : ServerRuntime} {c : ConnId} (h : findByConn s c = none) {id : PeerId} {client : Client}
    (hc : s.clients.lookup id = some client) : client.connId ≠ c := by
  have := List.find?_eq_none.mp h ⟨id, client⟩ (Table.mem_entries.mpr hc)
  simpa using this

theorem findPending_some {s : ServerRuntime} {c : ConnId} {p : PendingTcp} (h : findPending s c = some p) :
    p ∈ s.pendingTcp ∧ p.connId = c :=
  ⟨List.mem_of_find?_eq_some h, by simpa using List.find?_some h⟩

theorem frameTarget_client {s : ServerRuntime} {ev : InboundEvent} {id : PeerId} {client : Client}
    (h : frameTarget s ev = .client id client) : s.clients.lookup id = some client := by
  unfold frameTarget at h
  cases hs : stampedClient s ev with
  | some c =>
    rw [hs] at h
    cases h
    unfold stampedClient at hs
    split at hs
    · exact hs
    · cases hs
  | none =>
    rw [hs] at h
    cases hp : findPending s ev.connId with
    | some p =>
      rw [hp] at h
      cases h
    | none =>
      rw [hp] at h
      cases hc : findByConn s ev.connId with
      | some e =>
        rw [hc] at h
        cases h
        exact (findByConn_some hc).1
      | none =>
        rw [hc] at h
        cases h

theorem frameTarget_pending {s : ServerRuntime} {ev : InboundEvent} {p : PendingTcp}
    (h : frameTarget s ev = .pending p) : stampedClient s ev = none ∧ findPending s ev.connId = some p := by
  unfold frameTarget at h
  cases hs : stampedClient s ev with
  | some c =>
    rw [hs] at h
    cases h
  | none =>
    rw [hs] at h
    cases hp : findPending s ev.connId with
    | some p =>
      rw [hp] at h
      cases h
      exact ⟨rfl, rfl⟩
    | none =>
      rw [hp] at h
      cases hc : findByConn s ev.connId <;> rw [hc] at h <;> cases h

theorem tcpClosed_simulates (env : Env) {s : ServerRuntime} (hk : Keyed s.clients) {ev : InboundEvent}
    (hev : ev.kind = .TcpClosed) (t : Time) :
    Simulates s (.close ev.connId :: (closedPeer s ev).toList.map (.leave · false)) (applyInbound env s ev t) := by
  let s₁ : ServerRuntime := { s with pendingTcp := s.pendingTcp.filter fun p => p.connId ≠ ev.connId }
  have h₁ : Simulates s [.close ev.connId] s₁ := by
    refine ⟨hk, .single ?_⟩
    have he := Step.close s.sessions ev.connId
    have hp : s₁.pendingTcp.map (·.connId) = (s.pendingTcp.map (·.connId)).filter (· ≠ ev.connId) := by
      rw [List.filter_map]
      rfl
    simp only [sessions, hp]
    exact he
  unfold applyInbound
  rw [hev]
  unfold closedPeer
  by_cases hp : ev.peerId ≠ 0
  · rw [if_pos hp]
    dsimp only
    rw [if_pos hp]
    exact h₁.append (removeClient_simulates env h₁.keyed ev.peerId false)
  · rw [if_neg hp]
    dsimp only
    rw [if_neg hp]
    cases hc : findByConn s ev.connId with
    | none =>
      rw [show findByConn { s with pendingTcp := s.pendingTcp.filter fun p => p.connId ≠ ev.connId } ev.connId = none from hc]
      exact h₁
    | some e =>
      obtain ⟨id, client⟩ := e
      obtain ⟨hl, -⟩ := findByConn_some hc
      rw [show findByConn { s with pendingTcp := s.pendingTcp.filter fun p => p.connId ≠ ev.connId } ev.connId =
        some ⟨id, client⟩ from hc]
      have hid : client.peerId = id := hk id client hl
      dsimp only
      rw [hid]
      refine h₁.append ?_
      have hl' : (s.clients.modify id fun c => { c with connId := 0 }).lookup id = some { client with connId := 0 } := by
        simp [hl]
      obtain ⟨persist, he⟩ := removeClient_eq env
        (s := { s₁ with clients := s.clients.modify id fun c => { c with connId := 0 } }) hl' false
      rw [he]
      exact leave_simulates (s := s₁) hk hl false (Table.erase_modify id _ s.clients) (by simp [releasePending]) rfl
        (congrArg (fun clients => (findHost clients _).2) (Table.erase_modify id _ s.clients)) rfl

theorem kickTarget_simulates {s : ServerRuntime} (hk : Keyed s.clients) (target : Bytes) (doBan : Bool) :
    Simulates s (((findKickTarget s target).map (·.1)).toList.map (.leave · false)) (adminKick s target doBan) := by
  unfold adminKick
  cases h : findKickTarget s target with
  | none => exact .of_quiet hk (.refl s)
  | some e =>
    obtain ⟨id, client⟩ := e
    exact kickClient_simulates hk (Table.mem_entries.mp (List.mem_of_find?_eq_some h)) doBan

theorem quiet_broadcast {s : ServerRuntime} (cfg : ServerConfig) (hash : UInt32) :
    Quiet s (broadcastSessionRules { s with cfg := cfg, sessionModHash := hash }) := .of_eq rfl rfl rfl rfl rfl rfl

theorem quiet_adminSave (s : ServerRuntime) : Quiet s (adminSave s) := by
  rw [adminSave, flushDirtyAsync_eq]
  exact .of_eq rfl rfl rfl rfl rfl rfl

theorem quiet_runAdminCommand (env : Env) (s : ServerRuntime) (cmdLine : Bytes)
    (h : ∀ word arg rest, splitWords cmdLine = word :: arg :: rest → lowerCopy word ≠ ascii "kick") :
    Quiet s (runAdminCommand env s cmdLine) := by
  apply adminLine_cases (P := Quiet s)
  case ignored => exact .refl s
  case kick => exact fun word arg rest hw hkick => absurd hkick (h word arg rest hw)
  case say => exact fun _ _ _ _ _ => quiet_queue s _
  case save => exact quiet_adminSave s
  case reload => exact fun _ _ => quiet_broadcast _ _
  case rules => exact fun _ _ => quiet_broadcast _ s.sessionModHash
  case quit => exact .of_eq rfl rfl rfl rfl rfl rfl
  case settings => exact fun _ _ => .of_eq rfl rfl rfl rfl rfl rfl
  case ban => exact fun _ => .of_eq rfl rfl rfl rfl rfl rfl
  case unban => exact fun _ => .of_eq rfl rfl rfl rfl rfl rfl

theorem runAdminCommand_simulates (env : Env) {s : ServerRuntime} (hk : Keyed s.clients) (cmdLine : Bytes) :
    Simulates s ((kickTarget s cmdLine).toList.map (.leave · false)) (runAdminCommand env s cmdLine) := by
  by_cases h : ∃ word arg rest, splitWords cmdLine = word :: arg :: rest ∧ lowerCopy word = ascii "kick"
  · obtain ⟨word, arg, rest, hw, hkick⟩ := h
    have hm : kickTarget s cmdLine = (findKickTarget s arg).map (·.1) := by
      rw [kickTarget, hw]
      exact if_pos hkick
    have hr : runAdminCommand env s cmdLine = adminKick s arg ((rest.head?.map lowerCopy) == some (ascii "ban")) := by
      rw [runAdminCommand, hw]
      exact if_pos hkick
    rw [hm, hr]
    exact kickTarget_simulates hk arg _
  · have hne : ∀ word arg rest, splitWords cmdLine = word :: arg :: rest → lowerCopy word ≠ ascii "kick" :=
      fun word arg rest hw hkick => h ⟨word, arg, rest, hw, hkick⟩
    have hm : kickTarget s cmdLine = none := by
      unfold kickTarget
      split
      · rename_i word arg rest hw
        exact if_neg (hne _ _ _ hw)
      · rfl
    rw [hm]
    exact .of_quiet hk (quiet_runAdminCommand env s cmdLine hne)

/-- The runtime's step is the moves of its input. -/
theorem handle_simulates (env : Env) {s : ServerRuntime} (hk : Keyed s.clients) (hok : Ok s.sessions) (i : Input) :
    Simulates s (moves env s i) (handle env s i) := by
  cases i with
  | inbound ev t =>
    unfold moves handle
    dsimp only
    cases hev : ev.kind with
    | TcpAccept =>
      have hs : applyInbound env s ev t =
          { s with pendingTcp := s.pendingTcp ++ [{ connId := ev.connId, addr := ev.addr, connectedAt := t }] } := by
        simp only [applyInbound, hev]
      rw [hs]
      refine ⟨hk, .single ?_⟩
      have he := Step.accept s.sessions ev.connId
      simp only [sessions, List.map_append, List.map_cons, List.map_nil] at he ⊢
      exact he
    | TcpFrame =>
      simp only [applyInbound, hev, frameMoves]
      cases hf : frameTarget s ev with
      | client id client => exact handleClientFrame_simulates env hk (frameTarget_client hf) ev.bytes t
      | pending p =>
        have hp := findPending_some (frameTarget_pending hf).2
        exact handlePendingFrame_simulates env hk hok (List.mem_map_of_mem hp.1) ev.bytes t
      | nobody => exact .of_quiet hk (.refl s)
    | TcpClosed => exact tcpClosed_simulates env hk hev t
    | UdpDatagram =>
      simp only [applyInbound, hev]
      exact handleUdpPacket_simulates hk hok ev.bytes ev.addr t
  | expirePending t =>
    refine ⟨hk, .single (.prune _ _ ?_)⟩
    exact List.filter_sublist.map _
  | expireClients t => exact expireClients_simulates env hk _
  | sendHeartbeat => exact .of_quiet hk (quiet_queue s _)
  | flushDirty => exact .of_quiet hk (quiet_flushDirtyAsync s)
  | admin cmdLine => exact runAdminCommand_simulates env hk cmdLine

structure ClientStep (s : ServerRuntime) (i : Input) (ev : InboundEvent) (t : Time) (id : PeerId) (client : Client) : Prop where
  input : i = .inbound ev t
  kind : ev.kind = .TcpFrame
  target : frameTarget s ev = .client id client

structure PendingStep (s : ServerRuntime) (i : Input) (ev : InboundEvent) (t : Time) (pending : PendingTcp) : Prop where
  input : i = .inbound ev t
  kind : ev.kind = .TcpFrame
  target : frameTarget s ev = .pending pending

inductive Cause (env : Env) (s : ServerRuntime) (i : Input) : Move → Prop
  | accept (ev t) (hi : i = .inbound ev t) (hk : ev.kind = .TcpAccept) : Cause env s i (.accept ev.connId)
  | prune : Cause env s i .prune
  | close (ev t) (hi : i = .inbound ev t) (hk : ev.kind = .TcpClosed) : Cause env s i (.close ev.connId)
  | join (id ev t pending fresh) (hs : PendingStep s i ev t pending)
      (hx : (handlePendingMessage env s pending ev.bytes t).exit = .joined id fresh) :
      Cause env s i (.join id
        { conn := pending.connId, key := helloKey (readHello ev.bytes), token := makeUdpToken s.udpToken, udp := none })
  | reconnect (id ev t pending) (hs : PendingStep s i ev t pending)
      (hx : (handlePendingMessage env s pending ev.bytes t).exit = .reconnected id) :
      Cause env s i (.reconnect id pending.connId (makeUdpToken s.udpToken))
  | retoken (id ev t client header) (hs : ClientStep s i ev t id client) (ho : openFrame ev.bytes = some (header, .Hello))
      (hn : sizeofHello ≤ ev.bytes.length) : Cause env s i (.retoken id (makeUdpToken s.udpToken))
  | bind (id ev t) (hi : i = .inbound ev t) (hk : ev.kind = .UdpDatagram) (ha : acceptedBind s ev.bytes = some id) :
      Cause env s i (.bind id (addrKey ev.addr))
  | bye (id ev t client header) (hs : ClientStep s i ev t id client) (ho : openFrame ev.bytes = some (header, .Bye)) :
      Cause env s i (.leave id true)
  | closed (id ev t) (hi : i = .inbound ev t) (hk : ev.kind = .TcpClosed) (hc : closedPeer s ev = some id) :
      Cause env s i (.leave id false)
  | expired (id t) (hi : i = .expireClients t) (hm : id ∈ expiredIds s t) : Cause env s i (.leave id false)
  | kicked (id cmdLine) (hi : i = .admin cmdLine) (hk : kickTarget s cmdLine = some id) : Cause env s i (.leave id false)

theorem mem_leaves {ids : List PeerId} {m : Move} (h : m ∈ ids.map fun id => (SessionTable.Move.leave id false : Move)) :
    ∃ id ∈ ids, m = .leave id false := by
  obtain ⟨id, hm, rfl⟩ := List.mem_map.mp h
  exact ⟨id, hm, rfl⟩

theorem cause_clientMoves {env : Env} {s : ServerRuntime} {i : Input} {ev : InboundEvent} {t : Time} {id : PeerId}
    {client : Client} (hs : ClientStep s i ev t id client) {m : Move} (h : m ∈ clientMoves s id ev.bytes) :
    Cause env s i m := by
  unfold clientMoves at h
  cases ho : openFrame ev.bytes with
  | none =>
    rw [ho] at h
    cases h
  | some frame =>
    obtain ⟨header, type⟩ := frame
    rw [ho, Option.elim_some] at h
    cases type with
    | Bye =>
      obtain rfl := List.mem_singleton.mp h
      exact .bye id ev t client header hs ho
    | Hello =>
      simp only [messageMoves] at h
      split at h
      · rename_i hn
        obtain rfl := List.mem_singleton.mp h
        exact .retoken id ev t client header hs ho hn
      · cases h
    | _ => cases h

theorem cause_pendingMoves {env : Env} {s : ServerRuntime} {i : Input} {ev : InboundEvent} {t : Time}
    {pending : PendingTcp} (hs : PendingStep s i ev t pending) {m : Move}
    (h : m ∈ pendingMoves env s pending ev.bytes t) : Cause env s i m := by
  unfold pendingMoves at h
  split at h
  · rename_i id fresh hx
    obtain rfl := List.mem_singleton.mp h
    exact .join id ev t pending fresh hs hx
  · rename_i id hx
    obtain rfl := List.mem_singleton.mp h
    exact .reconnect id ev t pending hs hx
  · split at h
    · obtain rfl := List.mem_singleton.mp h
      exact .prune
    · cases h

/-- Every move of an input has its cause. -/
theorem cause_of_mem {env : Env} {s : ServerRuntime} {i : Input} {m : Move} (h : m ∈ moves env s i) :
    Cause env s i m := by
  unfold moves at h
  cases i with
  | inbound ev t =>
    cases hev : ev.kind with
    | TcpAccept =>
      simp only [hev, List.mem_singleton] at h
      exact h ▸ .accept ev t rfl hev
    | TcpFrame =>
      simp only [hev, frameMoves] at h
      cases hf : frameTarget s ev with
      | client id client =>
        rw [hf] at h
        exact cause_clientMoves ⟨rfl, hev, hf⟩ h
      | pending p =>
        rw [hf] at h
        exact cause_pendingMoves ⟨rfl, hev, hf⟩ h
      | nobody =>
        rw [hf] at h
        cases h
    | TcpClosed =>
      simp only [hev] at h
      rcases List.mem_cons.mp h with rfl | h
      · exact .close ev t rfl hev
      · obtain ⟨id, hm, rfl⟩ := mem_leaves h
        exact .closed id ev t rfl hev (Option.mem_toList.mp hm)
    | UdpDatagram =>
      simp only [hev] at h
      obtain ⟨id, hm, rfl⟩ := List.mem_map.mp h
      exact .bind id ev t rfl hev (Option.mem_toList.mp hm)
  | expirePending t =>
    obtain rfl := List.mem_singleton.mp h
    exact .prune
  | expireClients t =>
    obtain ⟨id, hm, rfl⟩ := mem_leaves h
    exact .expired id t rfl hm
  | sendHeartbeat => cases h
  | flushDirty => cases h
  | admin cmdLine =>
    obtain ⟨id, hm, rfl⟩ := mem_leaves h
    exact .kicked id cmdLine rfl (Option.mem_toList.mp hm)

end ServerRuntime
end CommonwealthMP
