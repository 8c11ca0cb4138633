import CommonwealthMP.RulesAgreement
import CommonwealthMP.WholeMessages

/-! # Where the messages of a step come from

Every message the server sends in a step is one of its own account, the relay of the frame or
datagram it handles, or a line of the console. `step_mail` says which, and what of the input
the message carries. -/
namespace CommonwealthMP
open ByteLayout Binary32 OrderedTables SessionTable
namespace ServerRuntime

/-- What the server says over TCP on its own account: the session, its peers and its records. -/
def ownTypes : List Msg :=
  [.Welcome, .Reject, .SessionInfo, .SessionRules, .WorldSnapshot, .Bye, .Heartbeat, .AppearanceChunk, .InventoryChunk]

/-- A whole TCP message of one of these types, or a command to the net thread. -/
structure OfTypes (types : List Msg) (cmd : OutboundCmd) : Prop where
  tcp : cmd.kind = .TcpSend → ∃ type ∈ types, WholeMessage type cmd.bytes
  notUdp : cmd.kind ≠ .UdpSend

theorem OfTypes.command {types : List Msg} {cmd : OutboundCmd} (ht : cmd.kind ≠ .TcpSend) (hu : cmd.kind ≠ .UdpSend) :
    OfTypes types cmd := ⟨fun h => absurd h ht, hu⟩

theorem OfTypes.message {types : List Msg} {cmd : OutboundCmd} {type : Msg} (ht : type ∈ types) (hk : cmd.kind = .TcpSend)
    (hw : WholeMessage type cmd.bytes) : OfTypes types cmd where
  tcp _ := ⟨type, ht, hw⟩
  notUdp h := by rw [hk] at h; cases h

/-- The chat message that the others get of a frame of `p`. -/
def relayedChat (p : PeerId) (buf : Bytes) : Chat :=
  { Chat.decode buf with text := (Chat.decode buf).text.set 79 0, fromPeerId := p, header := fillHeader .Chat 96 }

def relayedHit (buf : Bytes) : Hit :=
  { Hit.decode buf with damage := clampHitDamage (Hit.decode buf).damage, header := fillHeader .Hit 28 }

def relayedKick (buf : Bytes) : Kick := { Kick.decode buf with reason := (Kick.decode buf).reason.set 79 0 }

/-- The pose of an actor that the others get of a datagram of the host. -/
def relayedActor (buf : Bytes) : ActorPose := { ActorPose.decode buf with header := fillHeader .ActorPose 64 }

/-- What a frame of `p` makes the server send on to `q`, by the type of the frame. -/
inductive Relayed (s : ServerRuntime) (p : PeerId) (buf : Bytes) : Msg → PeerId → Bytes → Prop
  | chat (q) (hq : q ≠ p) : Relayed s p buf .Chat q (relayedChat p buf).encode
  | hit (hpvp : s.cfg.pvp = true) (ha : (Hit.decode buf).attackerPeerId = p) (ht : (Hit.decode buf).targetPeerId ≠ p)
      (hd : le (clampHitDamage (Hit.decode buf).damage) ⟨0⟩ = false) :
      Relayed s p buf .Hit (Hit.decode buf).targetPeerId (relayedHit buf).encode
  | kick (hp : p = s.world.hostPeerId) : Relayed s p buf .Kick (Kick.decode buf).targetPeerId (relayedKick buf).encode
  | teleport (hp : p = s.world.hostPeerId) :
      Relayed s p buf .Teleport (Teleport.decode buf).targetPeerId (Teleport.decode buf).encode

/-- What is sent on is a whole message of the frame's type. A kick and a teleport keep the sender's header, whose size
`header_ok` has checked. -/
theorem Relayed.whole {s : ServerRuntime} {p q : PeerId} {buf data : Bytes} {header : Header} {type : Msg}
    (ho : openFrame buf = some (header, type)) (h : Relayed s p buf type q data) : WholeMessage type data := by
  obtain ⟨rfl, -, hle, hsize⟩ := openFrame_spec ho
  have hok := (openFrame_ok ho).2
  cases h with
  | chat q hq =>
    have h96 : (Header.decode buf).size.toNat = 96 := by simpa [expectedMsgSize] using hsize
    have htext : (slice buf 16 80).length = 80 := by
      rw [slice, List.length_take, List.length_drop]
      omega
    exact .of_fill (by decide) (by simp [relayedChat, Chat.decode, htext])
  | hit hpvp ha ht hd => exact .of_fill (by decide) (by simp [f32])
  | kick hp =>
    have h96 : (Header.decode buf).size.toNat = 96 := by simpa [expectedMsgSize] using hsize
    have hreason : (slice buf 16 80).length = 80 := by
      rw [slice, List.length_take, List.length_drop]
      omega
    exact .of_header hok (by simp [relayedKick, Kick.decode, hreason, h96])
  | teleport hp =>
    have h32 : (Header.decode buf).size.toNat = 32 := by simpa [expectedMsgSize] using hsize
    exact .of_header hok (by simp [f32, Teleport.decode, h32])

/-- The input is a datagram of the client `p`, from the address it is bound to. -/
structure DatagramStep (s : ServerRuntime) (i : Input) (ev : InboundEvent) (t : Time) (p : PeerId) (client : Client) : Prop where
  input : i = .inbound ev t
  kind : ev.kind = .UdpDatagram
  noBind : acceptedBind s ev.bytes = none
  bound : s.udpPeerByAddr.lookup (addrKey ev.addr) = some p
  live : s.clients.lookup p = some client

/-- The administrator's line is a `say` of the text. -/
def Says (cmdLine text : Bytes) : Prop :=
  ∃ word arg rest, splitWords cmdLine = word :: arg :: rest ∧ lowerCopy word = ascii "say" ∧ text = joinWords (arg :: rest)

/-- Why the server sends a message in a step. -/
inductive Mail (s : ServerRuntime) (i : Env × Input) (cmd : OutboundCmd) : Prop
  | own (h : OfTypes ownTypes cmd)
  | greeting (q c) (hl : s.clients.lookup q = some c) (hk : cmd.kind = .UdpSend) (hb : cmd.bytes = c.lastPose.encode)
  | console (cmdLine text q c) (hi : i.2 = .admin cmdLine) (hsay : Says cmdLine text) (hl : s.clients.lookup q = some c)
      (hc : cmd = toTcp c (makeChat 0 text).encode)
  | relayed (ev t p client header type q c data) (hs : ClientStep s.ready i.2 ev t p client)
      (ho : openFrame ev.bytes = some (header, type)) (hl : s.clients.lookup q = some c) (h : Relayed s p ev.bytes type q data)
      (hc : cmd = toTcp c data)
  | pose (ev t p client header q c) (hs : DatagramStep s.ready i.2 ev t p client)
      (ho : openFrame ev.bytes = some (header, .PlayerPose)) (hr : (allowRate s.poseRates (rateKey client) t 30).1 = true)
      (hl : s.clients.lookup q = some c) (hq : q ≠ p) (hc : cmd = toUdp c (relayedPose client ev.bytes).encode)
  | actor (ev t p client header q c) (hs : DatagramStep s.ready i.2 ev t p client)
      (ho : openFrame ev.bytes = some (header, .ActorPose)) (hl : s.clients.lookup q = some c) (hq : q ≠ p)
      (hp : p = s.world.hostPeerId) (hc : cmd = toUdp c (relayedActor ev.bytes).encode)

/-- Every command added since `s` is an `M`. -/
def Emits (M : OutboundCmd → Prop) (s s' : ServerRuntime) : Prop := ∀ cmd ∈ s'.outbound, cmd ∈ s.outbound ∨ M cmd

section Emits
variable {M N : OutboundCmd → Prop} {s s' s'' : ServerRuntime}

theorem Emits.of_eq (h : s'.outbound = s.outbound) : Emits M s s' := fun _ hc => .inl (h ▸ hc)

theorem Emits.of_append {cmds : List OutboundCmd} (h : s'.outbound = s.outbound ++ cmds) (hc : ∀ cmd ∈ cmds, M cmd) :
    Emits M s s' := by
  intro cmd hm
  rw [h] at hm
  exact (List.mem_append.mp hm).imp_right (hc cmd)

theorem Emits.trans (h : Emits M s s') (h' : Emits M s' s'') : Emits M s s'' := fun cmd hm => (h' cmd hm).elim (h cmd) .inr

theorem Emits.imp (h : Emits M s s') (hmn : ∀ cmd, M cmd → N cmd) : Emits N s s' := fun cmd hm => (h cmd hm).imp_right (hmn cmd)

end Emits

theorem own_sendTcp {type : Msg} (ht : type ∈ ownTypes) {client : Client} {data : Bytes} (hw : WholeMessage type data)
    {cmd : OutboundCmd} (h : cmd ∈ sendTcp client data) : OfTypes ownTypes cmd := by
  rw [mem_sendTcp h]
  exact .message ht rfl hw

theorem own_sendTcpConn {type : Msg} (ht : type ∈ ownTypes) {connId : ConnId} {data : Bytes} (hw : WholeMessage type data)
    {cmd : OutboundCmd} (h : cmd ∈ sendTcpConn connId data) : OfTypes ownTypes cmd := by
  rw [mem_sendTcpConn h]
  exact .message ht rfl hw

theorem own_sendBlobTcp {client : Client} {type : Msg} (ht : type = .AppearanceChunk ∨ type = .InventoryChunk) {p : PeerId}
    {blob : Bytes} {cmd : OutboundCmd} (h : cmd ∈ sendBlobTcp client type p blob) : OfTypes ownTypes cmd := by
  obtain ⟨k, -, rfl⟩ := mem_sendBlobTcp h
  refine .message ?_ rfl (whole_chunkPacket ht p blob k)
  rcases ht with rfl | rfl <;> decide

theorem own_closeConn {c : ConnId} {cmd : OutboundCmd} (h : cmd ∈ closeConn c) : OfTypes ownTypes cmd := by
  obtain ⟨-, rfl⟩ := closeConn_kind h
  exact .command nofun nofun

theorem own_bindPeer {c : ConnId} {p : PeerId} {cmd : OutboundCmd} (h : cmd ∈ bindPeer c p) : OfTypes ownTypes cmd := by
  obtain ⟨-, -, rfl⟩ := bindPeer_kind h
  exact .command nofun nofun

theorem own_releaseCmds {id : PeerId} {client : Client} {keepTcp : Bool} {cmd : OutboundCmd}
    (h : cmd ∈ releaseCmds id client keepTcp) : OfTypes ownTypes cmd := by
  unfold releaseCmds at h
  split at h
  · rw [List.mem_singleton.mp h]
    exact .command nofun nofun
  · exact own_closeConn h

theorem emits_removeClient (env : Env) (s : ServerRuntime) (id : PeerId) (keepTcp : Bool) :
    Emits (OfTypes ownTypes) s (removeClient env s id keepTcp) := by
  cases h : s.clients.lookup id with
  | none =>
    rw [removeClient_of_absent env h]
    exact .of_eq rfl
  | some client =>
    obtain ⟨persist, he⟩ := removeClient_eq env h keepTcp
    rw [he]
    refine .of_append rfl fun cmd hm => ?_
    rcases List.mem_append.mp hm with hm | hm
    · obtain ⟨q, other, -, -, hc⟩ := mem_toOthers.mp hm
      exact own_sendTcp (by decide) (whole_makeBye _) hc
    · exact own_releaseCmds hm

theorem emits_removals (env : Env) (keep : PeerId → Bool) (s : ServerRuntime) (ids : List PeerId) :
    Emits (OfTypes ownTypes) s (ids.foldl (fun s id => removeClient env s id (keep id)) s) := by
  induction ids generalizing s with
  | nil => exact .of_eq rfl
  | cons id ids ih => exact (emits_removeClient env s id (keep id)).trans (ih _)

/-- A client other than `id` has its record of before. -/
def SameOthers (id : PeerId) (s s' : ServerRuntime) : Prop := ∀ q, q ≠ id → s'.clients.lookup q = s.clients.lookup q

/-- The pose a client greets another with is the last one of a client. -/
def Greets (s : ServerRuntime) (cmd : OutboundCmd) : Prop :=
  ∃ q c, s.clients.lookup q = some c ∧ cmd.kind = .UdpSend ∧ cmd.bytes = c.lastPose.encode

theorem greets_sendUdp {s : ServerRuntime} {q : PeerId} {c client : Client} (hl : s.clients.lookup q = some c) {cmd : OutboundCmd}
    (h : cmd ∈ sendUdp client c.lastPose.encode) : Greets s cmd := by
  obtain ⟨-, rfl⟩ := mem_sendUdp h
  exact ⟨q, c, hl, rfl, rfl⟩

/-- The first messages of a session are the server's own, and greetings of the others. -/
theorem mem_welcomeMessages {s s₀ : ServerRuntime} {joined : Client} {hello : Hello} {rec_ : PlayerRec} {cmd : OutboundCmd}
    (hsame : SameOthers joined.peerId s₀ s) (h : cmd ∈ welcomeMessages s joined hello rec_) :
    OfTypes ownTypes cmd ∨ Greets s₀ cmd := by
  unfold welcomeMessages at h
  rcases List.mem_append.mp h with h | h
  · rcases List.mem_append.mp h with h | h
    · exact .inl (own_sendTcp (by decide) (whole_makeWelcome ..) h)
    · exact .inl (own_sendTcp (by decide) (whole_makeWorldSnapshot ..) h)
  · obtain ⟨q, other, hl, hq, hm⟩ := mem_toOthers.mp h
    rw [hsame q hq] at hl
    split at hm
    · rcases List.mem_append.mp hm with hm | hm
      · rcases List.mem_append.mp hm with hm | hm
        · exact .inr (greets_sendUdp hl hm)
        · split at hm
          · cases hm
          · exact .inl (own_sendBlobTcp (.inl rfl) hm)
      · split at hm
        · cases hm
        · exact .inl (own_sendBlobTcp (.inr rfl) hm)
    · cases hm

theorem emits_completeJoin {s s₀ : ServerRuntime} {id : PeerId} {joined : Client} (h : s.clients.lookup id = some joined)
    (hid : joined.peerId = id) (hsame : SameOthers id s₀ s) (hello : Hello) (rec_ : PlayerRec) :
    Emits (fun cmd => OfTypes ownTypes cmd ∨ Greets s₀ cmd) s (completeJoin s id hello rec_) := by
  obtain ⟨world, dirty, hash, he, -⟩ := completeJoin_eq h hello rec_
  obtain ⟨world', dirty', hash', ha, -⟩ := adoptHostWorld_eq s joined hello
  rw [he]
  refine .of_append rfl fun cmd hm => mem_welcomeMessages (s := adoptHostWorld s joined hello) ?_ hm
  rw [hid, ha]
  exact hsame

theorem emits_admitHello (env : Env) {s : ServerRuntime} (hk : Keyed s.clients) {hello : Hello}
    (hhost : helloRequiresHost hello = true → s.world.hostPeerId ≠ 0) (pending : PendingTcp) (t : Time) :
    Emits (fun cmd => OfTypes ownTypes cmd ∨ Greets s cmd) s (admitHello env s pending hello t).runtime := by
  cases hf : findByKey s (helloKey hello) with
  | some e =>
    obtain ⟨id, client⟩ := e
    have hl : (enterRecord s hello).clients.lookup id = some client := (findByKey_some hf).1
    rw [admitHello_reconnect env hf]
    have he := softReconnect_eq hl pending hello (helloRecord s hello) t
    have hsame : SameOthers id s (softReconnect (enterRecord s hello) id client pending hello (helloRecord s hello) t) := by
      intro q hq
      rw [he]
      exact Table.lookup_modify_ne _ _ hq
    have hj : (softReconnect (enterRecord s hello) id client pending hello (helloRecord s hello) t).clients.lookup id =
        some (reconnectedClient pending hello (helloRecord s hello) (makeUdpToken s.udpToken) t (Client.unbound client)) := by
      rw [he]
      dsimp only
      rw [Table.lookup_modify_self, hl]
      rfl
    have hid : (Client.unbound client).peerId = id := (Client.unbound_eq client).2.1.trans (hk id client hl)
    refine Emits.trans (.of_append (congrArg outbound he) fun cmd hm => ?_) (emits_completeJoin hj hid hsame hello _)
    rcases List.mem_append.mp hm with hm | hm
    · split at hm
      · exact .inl (own_closeConn hm)
      · cases hm
    · exact .inl (own_bindPeer hm)
  | none =>
    rw [admitHello_join env hf hhost]
    have hkeyed : Keyed (s.clients.emplace env.placement s.nextPeer
        (joiningClient (enterRecord s hello) pending hello (helloRecord s hello) t)) := hk.emplace env.placement rfl
    have hsame : SameOthers s.nextPeer s ((takeHost (insertJoining env (enterRecord s hello) pending hello (helloRecord s hello) t)
        s.nextPeer).queue (bindPeer pending.connId s.nextPeer)) := by
      intro q hq
      exact Table.lookup_emplace_ne env.placement _ s.clients hq
    obtain ⟨joined, hj⟩ := Table.exists_lookup_emplace env.placement s.nextPeer
      (joiningClient (enterRecord s hello) pending hello (helloRecord s hello) t) s.clients
    have hbind : Emits (fun cmd => OfTypes ownTypes cmd ∨ Greets s cmd) s
        ((takeHost (insertJoining env (enterRecord s hello) pending hello (helloRecord s hello) t) s.nextPeer).queue
          (bindPeer pending.connId s.nextPeer)) := .of_append rfl fun cmd hm => .inl (own_bindPeer hm)
    exact hbind.trans (emits_completeJoin hj (hkeyed _ _ hj) hsame hello _)

/-- The frame of `p` makes the server send `data` on to `q`. -/
def SendsOn (s : ServerRuntime) (p : PeerId) (buf : Bytes) (type : Msg) (cmd : OutboundCmd) : Prop :=
  ∃ q c data, s.clients.lookup q = some c ∧ Relayed s p buf type q data ∧ cmd = toTcp c data

section Frames
variable {s : ServerRuntime} {p : PeerId} {client : Client} (hk : Keyed s.clients) (hl : s.clients.lookup p = some client)
include hk hl

theorem emits_tcpChat (buf : Bytes) (t : Time) : Emits (SendsOn s p buf .Chat) s (tcpChat s client buf t) := by
  rcases tcpChat_cases s client buf t with ⟨-, he⟩ | ⟨-, he⟩
  · rw [he]
    exact .of_eq rfl
  · rw [he]
    refine .of_append rfl fun cmd hm => ?_
    obtain ⟨q, other, hq, hne, hc⟩ := mem_toOthers.mp hm
    rw [hk p client hl] at hne hc
    exact ⟨q, other, _, hq, .chat q hne, mem_sendTcp hc⟩

theorem emits_tcpHit (buf : Bytes) (t : Time) : Emits (SendsOn s p buf .Hit) s (tcpHit s client buf t) := by
  unfold tcpHit
  dsimp only
  split
  · exact .of_eq rfl
  · rename_i hpvp
    split
    · exact .of_eq rfl
    · split
      · exact .of_eq rfl
      · rename_i hauth
        push Not at hauth
        rw [hk p client hl] at hauth
        split
        · exact .of_eq rfl
        · rename_i hpos
          refine .of_append rfl fun cmd hm => ?_
          obtain ⟨other, hmem, hc⟩ := List.mem_flatMap.mp hm
          split at hc
          · rename_i hid
            have hother := hk.lookup (show other ∈ s.clients.values from hmem)
            rw [hid] at hother
            exact ⟨_, other, _, hother, .hit (by simpa using hpvp) hauth.1 (hauth.1 ▸ hauth.2.2) (by simpa using hpos),
              mem_sendTcp hc⟩
          · cases hc

theorem emits_tcpKick (buf : Bytes) : Emits (SendsOn s p buf .Kick) s (tcpKick s client buf) := by
  rcases tcpKick_cases s client buf with he | ⟨other, hhost, hf, he⟩
  · rw [he]
    exact .of_eq rfl
  · rw [hk p client hl] at hhost
    rw [he]
    exact .of_append rfl fun cmd hm => ⟨_, other, _, lookup_findTarget hk hf, .kick hhost, mem_sendTcp hm⟩

theorem emits_tcpTeleport (buf : Bytes) : Emits (SendsOn s p buf .Teleport) s (tcpTeleport s client buf) := by
  rcases tcpTeleport_cases s client buf with he | ⟨other, hhost, hf, he⟩
  · rw [he]
    exact .of_eq rfl
  · rw [hk p client hl] at hhost
    rw [he]
    exact .of_append rfl fun cmd hm => ⟨_, other, _, lookup_findTarget hk hf, .teleport hhost, mem_sendTcp hm⟩

end Frames

theorem emits_helloAgain {s : ServerRuntime} {p : PeerId} {client : Client} (hl : s.clients.lookup p = some client) :
    Emits (OfTypes ownTypes) s (helloAgain s p client) := by
  rw [helloAgain_eq hl]
  exact .of_append rfl fun cmd hm => own_sendTcp (by decide) (whole_makeWelcome ..) hm

theorem emits_tcpHeartbeat (s : ServerRuntime) (client : Client) (buf : Bytes) :
    Emits (OfTypes ownTypes) s (tcpHeartbeat s client buf) :=
  .of_append rfl fun cmd hm => own_sendTcp (by decide) (whole_makeHeartbeat ..) hm

theorem emits_tcpBlobChunk (env : Env) (s : ServerRuntime) {type : Msg} (ht : Chunked type) (p : PeerId) (client : Client)
    (buf : Bytes) (t : Time) : Emits (OfTypes ownTypes) s (tcpBlobChunk env s type p client buf t) := by
  rcases tcpBlobChunk_cases env s type p client buf t with ⟨-, he⟩ | ⟨a, -, -, he⟩ | ⟨a, blob, -, -, he⟩
  · rw [he]
    exact .of_eq rfl
  · rw [he, setAssemblies_eq]
    exact .of_eq rfl
  · rw [he, setAssemblies_eq]
    refine .of_append rfl fun cmd hm => ?_
    obtain ⟨q, other, -, -, hc⟩ := mem_toOthers.mp hm
    exact own_sendBlobTcp ht hc

/-- What the frames of clients make the server send. -/
def Answers (s : ServerRuntime) (p : PeerId) (buf : Bytes) (cmd : OutboundCmd) : Prop :=
  OfTypes ownTypes cmd ∨ ∃ header type, openFrame buf = some (header, type) ∧ SendsOn s p buf type cmd

theorem emits_tcpMessage (env : Env) {s : ServerRuntime} {p : PeerId} {client : Client} (hk : Keyed s.clients)
    (hl : s.clients.lookup p = some client) {buf : Bytes} {header : Header} {type : Msg} (ho : openFrame buf = some (header, type))
    (t : Time) : Emits (Answers s p buf) s (tcpMessage env s type p client buf t) := by
  have own {s' : ServerRuntime} (h : Emits (OfTypes ownTypes) s s') : Emits (Answers s p buf) s s' := h.imp fun _ => .inl
  have onward {s' : ServerRuntime} {type' : Msg} (ht : type = type') (h : Emits (SendsOn s p buf type') s s') :
      Emits (Answers s p buf) s s' := h.imp fun _ hm => .inr ⟨header, type', ht ▸ ho, hm⟩
  refine tcpMessage_cases (.of_eq rfl) ?bye ?hello ?snapshot ?chunk ?heartbeat ?chat ?kick ?teleport ?hit
  case bye => exact fun _ => .of_eq rfl
  case hello => exact fun _ => own (emits_helloAgain hl)
  case snapshot =>
    intro _
    rcases tcpWorldSnapshot_cases s client buf with ⟨-, he⟩ | ⟨-, world, -, he⟩ <;> rw [he] <;> exact .of_eq rfl
  case chunk => exact fun ht => own (emits_tcpBlobChunk env s ht p client buf t)
  case heartbeat => exact fun _ => own (emits_tcpHeartbeat s client buf)
  case chat => exact fun ht => onward ht (emits_tcpChat hk hl buf t)
  case kick => exact fun ht => onward ht (emits_tcpKick hk hl buf)
  case teleport => exact fun ht => onward ht (emits_tcpTeleport hk hl buf)
  case hit => exact fun ht => onward ht (emits_tcpHit hk hl buf t)

theorem SendsOn.of_seen {s s₁ : ServerRuntime} {p : PeerId} {t : Time} {buf : Bytes} {type : Msg} {cmd : OutboundCmd}
    (h : SendsOn s₁ p buf type cmd) (hc : s₁.clients = (s.seen p t).clients) (hw : s₁.world = s.world) (hcfg : s₁.cfg = s.cfg) :
    SendsOn s p buf type cmd := by
  obtain ⟨q, c, data, hl, hr, rfl⟩ := h
  have hr' : Relayed s p buf type q data := by
    cases hr with
    | chat q hq => exact .chat q hq
    | hit hpvp ha ht hd => exact .hit (hcfg ▸ hpvp) ha ht hd
    | kick hp => exact .kick (hw ▸ hp)
    | teleport hp => exact .teleport (hw ▸ hp)
  rw [hc, seen, Table.lookup_modify] at hl
  split at hl
  · obtain ⟨c', hl', rfl⟩ := Option.map_eq_some_iff.mp hl
    exact ⟨q, c', data, hl', hr', rfl⟩
  · exact ⟨q, c, data, hl, hr', rfl⟩

theorem emits_handleClientFrame (env : Env) {s : ServerRuntime} {p : PeerId} {client : Client} (hk : Keyed s.clients)
    (hl : s.clients.lookup p = some client) (buf : Bytes) (t : Time) :
    Emits (Answers s p buf) s (handleClientFrame env s p client buf t) := by
  unfold handleClientFrame
  dsimp only
  let s₀ : ServerRuntime := { s with removePeers := [], keepTcpPeers := [] }
  have hmessage : Emits (Answers s p buf) s (handleTcpMessage env s₀ p client buf t) := by
    unfold handleTcpMessage
    cases ho : openFrame buf with
    | none => exact .of_eq rfl
    | some frame =>
      obtain ⟨header, type⟩ := frame
      dsimp only
      split
      · exact .of_eq rfl
      · have hseen := (quiet_seen s₀ p t).keyed hk
        have h := emits_tcpMessage env (s := s₀.seen p t) hseen (lookup_seen hl t) ho t
        exact fun cmd hm => (h cmd hm).imp_right fun ha => ha.imp_right fun ⟨header, type, ho, hs⟩ =>
          ⟨header, type, ho, hs.of_seen (s := s) (t := t) rfl rfl rfl⟩
  have hremovals := emits_removals env (fun peerId => (handleTcpMessage env s₀ p client buf t).keepTcpPeers.contains peerId)
    (handleTcpMessage env s₀ p client buf t) (handleTcpMessage env s₀ p client buf t).removePeers
  exact hmessage.trans (hremovals.imp fun _ => .inl)

theorem emits_udpBind {s : ServerRuntime} (hk : Keyed s.clients) (buf : Bytes) (from_ : SockAddr) (t : Time) :
    Emits (Greets s) s (udpBind s buf from_ t) := by
  cases hl : s.clients.lookup (UdpBind.decode buf).peerId with
  | none =>
    rw [udpBind]
    dsimp only
    rw [hl]
    exact .of_eq rfl
  | some client =>
    by_cases ht : client.udpToken = 0 ∨ client.udpToken ≠ (UdpBind.decode buf).udpToken
    · rw [udpBind]
      dsimp only
      rw [hl]
      dsimp only
      rw [if_pos ht]
      exact .of_eq rfl
    · rw [udpBind_eq hl ht, hk _ _ hl]
      refine .of_append rfl fun cmd hm => ?_
      obtain ⟨q, other, hq, hne, hc⟩ := mem_toOthers.mp hm
      rw [Table.lookup_modify_ne _ _ hne] at hq
      split at hc
      · exact greets_sendUdp hq hc
      · cases hc

/-- The datagram goes to a client other than `p`. -/
def GoesRound (s : ServerRuntime) (p : PeerId) (data : Bytes) (cmd : OutboundCmd) : Prop :=
  ∃ q c, s.clients.lookup q = some c ∧ q ≠ p ∧ cmd = toUdp c data

theorem emits_relayTo {s s' : ServerRuntime} {p : PeerId} {client : Client} (hid : client.peerId = p) (hsame : SameOthers p s s')
    (ho : s'.outbound = s.outbound) (data : Bytes) (interested : Client → Bool) :
    Emits (GoesRound s p data) s (s'.relayTo client data interested) := by
  refine .of_append (congrArg (· ++ _) ho) fun cmd hm => ?_
  obtain ⟨q, other, hq, hne, hc⟩ := mem_toOthers.mp hm
  rw [hid] at hne
  rw [hsame q hne] at hq
  split at hc
  · exact ⟨q, other, hq, hne, (mem_sendUdp hc).2⟩
  · cases hc

theorem emits_udpPlayerPose {s : ServerRuntime} {p : PeerId} {client : Client} (hid : client.peerId = p) (buf : Bytes) (t : Time) :
    Emits (fun cmd => (allowRate s.poseRates (rateKey client) t 30).1 = true ∧
      GoesRound s p (relayedPose client buf).encode cmd) s (udpPlayerPose s p client buf t) := by
  have hsame : SameOthers p s (storePose (countPose s client t) p client (relayedPose client buf)) :=
    fun q hq => Table.lookup_modify_ne _ _ hq
  rcases udpPlayerPose_cases s p client buf t with ⟨-, he⟩ | ⟨hr, interested, ⟨-, he⟩ | ⟨-, world, -, he⟩⟩
  · rw [he]
    exact .of_eq rfl
  · rw [he]
    exact (emits_relayTo hid hsame rfl _ interested).imp fun _ hm => ⟨hr, hm⟩
  · rw [he]
    exact (emits_relayTo hid hsame rfl _ interested).imp fun _ hm => ⟨hr, hm⟩

theorem emits_udpActorPose {s : ServerRuntime} {p : PeerId} {client : Client} (hid : client.peerId = p) (buf : Bytes) :
    Emits (fun cmd => p = s.world.hostPeerId ∧ GoesRound s p (relayedActor buf).encode cmd) s (udpActorPose s client buf) := by
  rcases udpActorPose_cases s client buf with he | ⟨interested, hhost, he⟩
  · rw [he]
    exact .of_eq rfl
  · rw [he]
    exact (emits_relayTo hid (fun _ _ => rfl) rfl _ interested).imp fun _ hm => ⟨hid ▸ hhost, hm⟩

theorem GoesRound.of_seen {s s₁ : ServerRuntime} {p : PeerId} {data : Bytes} {cmd : OutboundCmd} (hsame : SameOthers p s s₁)
    (h : GoesRound s₁ p data cmd) : GoesRound s p data cmd := by
  obtain ⟨q, c, hl, hq, hc⟩ := h
  exact ⟨q, c, (hsame q hq) ▸ hl, hq, hc⟩

theorem mail_of_datagram {s : ServerRuntime} (hw : WellFormed s) {i : Env × Input} {ev : InboundEvent} {t : Time}
    (hi : i.2 = .inbound ev t) (hev : ev.kind = .UdpDatagram) {cmd : OutboundCmd}
    (hc : cmd ∈ (handleUdpPacket s.ready ev.bytes ev.addr t).outbound) : Mail s i cmd := by
  have hsame (p : PeerId) : SameOthers p s.ready (s.ready.countDatagram.seen p t) := fun q hq => Table.lookup_modify_ne _ _ hq
  have hcase := handleUdpPacket_cases (s := s.ready) hw.ok ev.bytes ev.addr t
  generalize handleUdpPacket s.ready ev.bytes ev.addr t = s' at hcase hc
  cases hcase with
  | bind id ha =>
    rcases emits_udpBind (s := s.ready.countDatagram) hw.keyed ev.bytes ev.addr t cmd hc with h | ⟨q, c, hl, hk, hb⟩
    · cases h
    · exact .greeting q c hl hk hb
  | ignored badHeaders ha => cases hc
  | short id client ha hu hl => cases hc
  | playerPose id client header ha hu hl ho =>
    rcases emits_udpPlayerPose (s := s.ready.countDatagram.seen id t)
      (hw.keyed id client hl : Client.peerId { client with lastSeen := t } = id) ev.bytes t cmd hc with h | ⟨hr, h⟩
    · cases h
    · obtain ⟨q, c, hlq, hq, he⟩ := h.of_seen (hsame id)
      exact .pose ev t id client header q c ⟨hi, hev, ha, hu, hl⟩ ho hr hlq hq he
  | actorPose id client header ha hu hl ho =>
    rcases emits_udpActorPose (s := s.ready.countDatagram.seen id t)
      (hw.keyed id client hl : Client.peerId { client with lastSeen := t } = id) ev.bytes cmd hc with h | ⟨hp, h⟩
    · cases h
    · obtain ⟨q, c, hlq, hq, he⟩ := h.of_seen (hsame id)
      exact .actor ev t id client header q c ⟨hi, hev, ha, hu, hl⟩ ho hlq hq hp he

theorem own_broadcast {type : Msg} (ht : type ∈ ownTypes) {clients : ClientTable} {data : Client → Bytes}
    (hw : ∀ client, WholeMessage type (data client)) {cmd : OutboundCmd}
    (h : cmd ∈ clients.values.flatMap fun client => sendTcp client (data client)) : OfTypes ownTypes cmd := by
  obtain ⟨client, -, hc⟩ := List.mem_flatMap.mp h
  exact own_sendTcp ht (hw client) hc

/-- What a line of the console sends: messages of the server's own account, or the text of a `say`. -/
theorem emits_kickClient {s : ServerRuntime} {id : PeerId} {client : Client} (hl : s.clients.lookup id = some client)
    (doBan : Bool) : Emits (OfTypes ownTypes) s (kickClient s id client doBan) := by
  obtain ⟨dirty, he⟩ := kickClient_eq hl doBan
  rw [he]
  refine .of_append rfl fun cmd hm => (List.mem_append.mp hm).elim (fun hm => ?_) own_closeConn
  exact own_sendTcp (by decide) (whole_makeBye _) hm

theorem emits_rules (s : ServerRuntime) (cfg : ServerConfig) (hash : UInt32) :
    Emits (OfTypes ownTypes) s (broadcastSessionRules { s with cfg := cfg, sessionModHash := hash }) :=
  .of_append rfl fun cmd hm => own_broadcast (by decide) (fun _ => whole_makeSessionRules _) hm

theorem runAdminCommand_emits (env : Env) (s : ServerRuntime) (cmdLine : Bytes) :
    Emits (OfTypes ownTypes) s (runAdminCommand env s cmdLine) ∨
      ∃ text, Says cmdLine text ∧ runAdminCommand env s cmdLine = adminSay s text := by
  apply adminLine_cases (P := fun s' => Emits (OfTypes ownTypes) s s' ∨ ∃ text, Says cmdLine text ∧ s' = adminSay s text)
  case ignored => exact .inl (.of_eq rfl)
  case kick => exact fun _ _ _ _ _ id client doBan _ hl => .inl (emits_kickClient hl doBan)
  case say => exact fun word arg rest hw hsay => .inr ⟨_, ⟨word, arg, rest, hw, hsay, rfl⟩, rfl⟩
  case save =>
    rw [adminSave, flushDirtyAsync_eq]
    exact .inl (.of_eq rfl)
  case reload => exact fun _ _ => .inl (emits_rules s _ _)
  case rules => exact fun _ _ => .inl (emits_rules s _ s.sessionModHash)
  case quit => exact .inl (.of_eq rfl)
  case settings => exact fun _ _ => .inl (.of_eq rfl)
  case ban => exact fun _ => .inl (.of_eq rfl)
  case unban => exact fun _ => .inl (.of_eq rfl)

theorem mail_of_console {s : ServerRuntime} {i : Env × Input} {cmdLine : Bytes} (hi : i.2 = .admin cmdLine) {cmd : OutboundCmd}
    (hc : cmd ∈ (runAdminCommand i.1 s.ready cmdLine).outbound) : Mail s i cmd := by
  rcases runAdminCommand_emits i.1 s.ready cmdLine with h | ⟨text, hsay, he⟩
  · exact .own ((h cmd hc).resolve_left List.not_mem_nil)
  · rw [he] at hc
    rcases List.mem_append.mp hc with hc | hc
    · cases hc
    · obtain ⟨client, hm, hc⟩ := List.mem_flatMap.mp hc
      obtain ⟨q, hl⟩ := Table.mem_values.mp hm
      exact .console cmdLine text q client hi hsay hl (mem_sendTcp hc)

theorem emits_handlePendingMessage (env : Env) {s : ServerRuntime} (hk : Keyed s.clients) (hok : Ok s.sessions)
    (pending : PendingTcp) (buf : Bytes) (t : Time) :
    Emits (fun cmd => OfTypes ownTypes cmd ∨ Greets s cmd) s (handlePendingMessage env s pending buf t).runtime := by
  unfold handlePendingMessage
  cases openFrame buf with
  | none => exact .of_eq rfl
  | some frame =>
    obtain ⟨header, type⟩ := frame
    dsimp only
    split
    · split
      · exact .of_append rfl fun cmd hm => .inl (own_sendTcpConn (by decide) (whole_makeSessionInfo ..) hm)
      · exact .of_eq rfl
    · split
      · exact .of_eq rfl
      · split
        · exact .of_eq rfl
        · have hst := helloGates_runtime (s := s.countHello pending t) hk hok header (readHello buf)
          rw [countHello] at hst
          split
          · rename_i s' reason text hg
            rw [hg] at hst
            dsimp only at hst
            subst hst
            exact .of_append rfl fun cmd hm => .inl (own_sendTcpConn (by decide) (whole_makeReject ..) hm)
          · rename_i s' hg
            rw [hg] at hst
            dsimp only at hst
            subst hst
            obtain ⟨-, -, hhost⟩ := helloGates_passed hg
            exact emits_admitHello env (s := s.countHello pending t) hk (fun hr => hostGate_hostPeerId (hhost hr)) pending t

theorem mail_of_pending {s : ServerRuntime} (hw : WellFormed s) {i : Env × Input} {ev : InboundEvent} {t : Time}
    {pending : PendingTcp} (hs : PendingStep s.ready i.2 ev t pending) {cmd : OutboundCmd} (hc : cmd ∈ (s.step i).outbound) :
    Mail s i cmd := by
  obtain ⟨ps, hframe⟩ := handlePendingFrame_eq i.1 s.ready pending ev.bytes t
  rw [step_pending hs, hframe] at hc
  rcases emits_handlePendingMessage i.1 (s := s.ready) hw.keyed hw.ok pending ev.bytes t cmd hc with h | h | ⟨q, c, hl, hk, hb⟩
  · cases h
  · exact .own h
  · exact .greeting q c hl hk hb

/-- Every message of a step has its origin in what the step handles. -/
theorem step_mail {s : ServerRuntime} (hw : WellFormed s) (i : Env × Input) {cmd : OutboundCmd} (hc : cmd ∈ (s.step i).outbound) :
    Mail s i cmd := by
  have own {s' : ServerRuntime} (h : Emits (OfTypes ownTypes) s.ready s') (hc : cmd ∈ s'.outbound) : Mail s i cmd :=
    .own ((h cmd hc).resolve_left List.not_mem_nil)
  obtain ⟨env, i⟩ := i
  cases i with
  | inbound ev t =>
    cases hev : ev.kind with
    | TcpAccept =>
      simp only [ServerRuntime.step, handle, applyInbound, hev] at hc
      cases hc
    | TcpFrame =>
      cases ht : frameTarget s.ready ev with
      | client p client =>
        have hs : ClientStep s.ready (Input.inbound ev t) ev t p client := ⟨rfl, hev, ht⟩
        rw [step_client (i := (env, .inbound ev t)) hs] at hc
        rcases emits_handleClientFrame env (s := s.ready) hw.keyed (frameTarget_client ht) ev.bytes t cmd hc with
          h | h | ⟨header, type, ho, q, c, data, hl, hr, rfl⟩
        · cases h
        · exact .own h
        · refine .relayed ev t p client header type q c data hs ho hl ?_ rfl
          cases hr with
          | chat q hq => exact .chat q hq
          | hit hpvp ha htarget hd => exact .hit hpvp ha htarget hd
          | kick hp => exact .kick hp
          | teleport hp => exact .teleport hp
      | pending pending => exact mail_of_pending hw (i := (env, .inbound ev t)) ⟨rfl, hev, ht⟩ hc
      | nobody =>
        simp only [ServerRuntime.step, handle, applyInbound, hev, ht] at hc
        cases hc
    | TcpClosed =>
      simp only [ServerRuntime.step, handle, applyInbound, hev] at hc
      split at hc
      · exact .own ((emits_removeClient env _ _ _ cmd hc).resolve_left List.not_mem_nil)
      · split at hc
        · exact .own ((emits_removeClient env _ _ _ cmd hc).resolve_left List.not_mem_nil)
        · cases hc
    | UdpDatagram =>
      simp only [ServerRuntime.step, handle, applyInbound, hev] at hc
      exact mail_of_datagram hw rfl hev hc
  | expirePending t =>
    refine own (.of_append rfl fun cmd hm => ?_) hc
    obtain ⟨p, -, hm⟩ := List.mem_flatMap.mp hm
    exact own_closeConn hm
  | expireClients t => exact own (emits_removals env (fun _ => false) s.ready _) hc
  | sendHeartbeat => exact own (.of_append rfl fun cmd hm => own_broadcast (by decide) (fun _ => whole_makeHeartbeat ..) hm) hc
  | flushDirty =>
    simp only [ServerRuntime.step, handle, flushDirtyAsync_eq] at hc
    cases hc
  | admin cmdLine => exact mail_of_console rfl hc

end ServerRuntime
end CommonwealthMP
