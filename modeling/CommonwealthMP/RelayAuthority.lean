import CommonwealthMP.SessionInvariant

/-! # Sender authority: what an event of one client makes the server send -/
namespace CommonwealthMP
open ByteLayout Binary32 OrderedTables SessionTable
namespace ServerRuntime

def kMaxHitDamage : ℚ := 500

/-- Damage that is relayed is a number of the allowed range, whatever word was received. -/
theorem clampHitDamage_range {damage : F32} (h : le (clampHitDamage damage) ⟨0⟩ = false) :
    ∃ d, toRat? (clampHitDamage damage) = some d ∧ 0 < d ∧ d ≤ kMaxHitDamage := by
  have hzero : toRat? ⟨0⟩ = some 0 := by decide +kernel
  have hmax : toRat? ⟨0x43FA0000⟩ = some kMaxHitDamage := by decide +kernel
  unfold clampHitDamage at h ⊢
  split at h
  · exact absurd h (by decide)
  · rename_i hlow
    have hlow' : lt ⟨0⟩ damage = true := by simpa using hlow
    rw [if_neg hlow]
    split
    · exact ⟨kMaxHitDamage, hmax, by norm_num [kMaxHitDamage], le_rfl⟩
    · rename_i hhigh
      exact between_toRat hzero hmax hlow' (by simpa using hhigh)

/-- The commands an event of client `p` may queue: answers to `p` itself (a Welcome only to a
Hello), its departure, and messages to one other client `q` that carry the identity of `p` or
its authority as host. The poses a UdpBind is answered with go to the address it binds. -/
inductive Authorized (clients : ClientTable) (host : PeerId) (pvp : Bool) (hello : Prop) (bound : SockAddr → Prop)
    (p : PeerId) : OutboundCmd → Prop
  | welcome (client : Client) (w : Welcome) (hl : clients.lookup p = some client)
      (ht : w.header = fillHeader .Welcome 30) (hh : hello) : Authorized clients host pvp hello bound p (toTcp client w.encode)
  | heartbeat (client : Client) (hb : Heartbeat) (hl : clients.lookup p = some client)
      (ht : hb.header = fillHeader .Heartbeat 20) : Authorized clients host pvp hello bound p (toTcp client hb.encode)
  | greet (addr : SockAddr) (q : PeerId) (other : Client) (ha : bound addr) (hl : clients.lookup q = some other) (hq : q ≠ p) :
      Authorized clients host pvp hello bound p { kind := .UdpSend, addr := addr, bytes := other.lastPose.encode }
  | keepPending : Authorized clients host pvp hello bound p { kind := .KeepPending, peerId := p }
  | closeConn (client : Client) (hl : clients.lookup p = some client) :
      Authorized clients host pvp hello bound p { kind := .CloseConn, connId := client.connId }
  | bye (q : PeerId) (other : Client) (hl : clients.lookup q = some other) (hq : q ≠ p) :
      Authorized clients host pvp hello bound p (toTcp other (makeBye p).encode)
  | chat (q : PeerId) (other : Client) (m : Chat) (hl : clients.lookup q = some other) (hq : q ≠ p)
      (ht : m.header = fillHeader .Chat 96) (hm : m.fromPeerId = p) :
      Authorized clients host pvp hello bound p (toTcp other m.encode)
  | blob (q : PeerId) (other : Client) (type : Msg) (blob : Bytes) (k : ℕ) (hl : clients.lookup q = some other)
      (hq : q ≠ p) (ht : type = .AppearanceChunk ∨ type = .InventoryChunk) :
      Authorized clients host pvp hello bound p (toTcp other (chunkPacket type p blob k))
  | hit (q : PeerId) (other : Client) (m : Hit) (hl : clients.lookup q = some other) (hq : q ≠ p)
      (ht : m.header = fillHeader .Hit 28) (hpvp : pvp = true) (ha : m.attackerPeerId = p)
      (hm : m.targetPeerId = q) (hd : ∃ d, toRat? m.damage = some d ∧ 0 < d ∧ d ≤ kMaxHitDamage) :
      Authorized clients host pvp hello bound p (toTcp other m.encode)
  | kick (q : PeerId) (other : Client) (m : Kick) (hl : clients.lookup q = some other)
      (ht : m.header.type = Msg.Kick.code) (hp : p = host) (hm : m.targetPeerId = q) :
      Authorized clients host pvp hello bound p (toTcp other m.encode)
  | teleport (q : PeerId) (other : Client) (m : Teleport) (hl : clients.lookup q = some other)
      (ht : m.header.type = Msg.Teleport.code) (hp : p = host) (hm : m.targetPeerId = q) :
      Authorized clients host pvp hello bound p (toTcp other m.encode)
  | pose (q : PeerId) (other : Client) (m : PlayerPose) (hl : clients.lookup q = some other) (hq : q ≠ p)
      (hb : other.udpBound = true) (ht : m.header = fillHeader .PlayerPose 56) (hm : m.peerId = p) :
      Authorized clients host pvp hello bound p (toUdp other m.encode)
  | actorPose (q : PeerId) (other : Client) (m : ActorPose) (hl : clients.lookup q = some other) (hq : q ≠ p)
      (hb : other.udpBound = true) (ht : m.header = fillHeader .ActorPose 64) (hp : p = host) :
      Authorized clients host pvp hello bound p (toUdp other m.encode)

/-- The commands added since `s` are authorized. -/
def Sends (s : ServerRuntime) (hello : Prop) (bound : SockAddr → Prop) (p : PeerId) (s' : ServerRuntime) : Prop :=
  ∀ cmd ∈ s'.outbound, cmd ∈ s.outbound ∨ Authorized s.clients s.world.hostPeerId s.cfg.pvp hello bound p cmd

section authority
variable {hello : Prop} {bound : SockAddr → Prop} {p : PeerId}

theorem Sends.of_eq {s s' : ServerRuntime} (h : s'.outbound = s.outbound) : Sends s hello bound p s' :=
  fun _ hc => .inl (h ▸ hc)

theorem Sends.of_append {s s' : ServerRuntime} {cmds : List OutboundCmd}
    (h : s'.outbound = s.outbound ++ cmds)
    (hc : ∀ cmd ∈ cmds, Authorized s.clients s.world.hostPeerId s.cfg.pvp hello bound p cmd) : Sends s hello bound p s' := by
  intro cmd hm
  rw [h] at hm
  rcases List.mem_append.mp hm with hm | hm
  · exact .inl hm
  · exact .inr (hc cmd hm)

/-- What the commands of a step depend on has not changed. -/
structure SameSenders (s s₁ : ServerRuntime) : Prop where
  outbound : s₁.outbound = s.outbound
  clients : s₁.clients = s.clients
  host : s₁.world.hostPeerId = s.world.hostPeerId
  cfg : s₁.cfg = s.cfg

theorem SameSenders.sends {s s₁ s' : ServerRuntime} (h : SameSenders s s₁) (hs : Sends s₁ hello bound p s') :
    Sends s hello bound p s' := by
  unfold Sends at hs ⊢
  rwa [h.outbound, h.clients, h.host, h.cfg] at hs

theorem sameSenders_setAssemblies (s : ServerRuntime) (type : Msg) (asm : Table PeerId BlobAssembly) :
    SameSenders s (s.setAssemblies type asm) := by
  rw [setAssemblies_eq]
  exact ⟨rfl, rfl, rfl, rfl⟩

/-- A message to a client whose record has been touched is the message to that client. -/
theorem Authorized.of_seen {clients : ClientTable} {host : PeerId} {pvp : Bool} {t : Time}
    {cmd : OutboundCmd} (h : Authorized (clients.modify p fun c => { c with lastSeen := t }) host pvp hello bound p cmd) :
    Authorized clients host pvp hello bound p cmd := by
  have back : ∀ {q : PeerId} {c : Client}, (clients.modify p fun c => { c with lastSeen := t }).lookup q = some c →
      ∃ c', clients.lookup q = some c' ∧ (∀ data, toTcp c data = toTcp c' data) ∧ c.connId = c'.connId := by
    intro q c hc
    rw [Table.lookup_modify] at hc
    split at hc
    · obtain ⟨c', hc', rfl⟩ := Option.map_eq_some_iff.mp hc
      exact ⟨c', hc', fun _ => rfl, rfl⟩
    · exact ⟨c, hc, fun _ => rfl, rfl⟩
  have other : ∀ {q : PeerId} {c : Client}, q ≠ p →
      (clients.modify p fun c => { c with lastSeen := t }).lookup q = some c → clients.lookup q = some c := by
    intro q c hq hc
    rwa [Table.lookup_modify_ne _ _ hq] at hc
  cases h with
  | welcome client w hl ht hh =>
    obtain ⟨c, hc, htcp, -⟩ := back hl
    exact htcp _ ▸ .welcome c w hc ht hh
  | heartbeat client hb hl ht =>
    obtain ⟨c, hc, htcp, -⟩ := back hl
    exact htcp _ ▸ .heartbeat c hb hc ht
  | greet addr q c ha hl hq => exact .greet addr q c ha (other hq hl) hq
  | keepPending => exact .keepPending
  | closeConn client hl =>
    obtain ⟨c, hc, -, hconn⟩ := back hl
    exact hconn ▸ .closeConn c hc
  | bye q c hl hq => exact .bye q c (other hq hl) hq
  | chat q c m hl hq ht hm => exact .chat q c m (other hq hl) hq ht hm
  | blob q c type blob k hl hq ht => exact .blob q c type blob k (other hq hl) hq ht
  | hit q c m hl hq ht hpvp ha hm hd => exact .hit q c m (other hq hl) hq ht hpvp ha hm hd
  | kick q c m hl ht hp hm =>
    obtain ⟨c', hc, htcp, -⟩ := back hl
    exact htcp _ ▸ .kick q c' m hc ht hp hm
  | teleport q c m hl ht hp hm =>
    obtain ⟨c', hc, htcp, -⟩ := back hl
    exact htcp _ ▸ .teleport q c' m hc ht hp hm
  | pose q c m hl hq hb ht hm => exact .pose q c m (other hq hl) hq hb ht hm
  | actorPose q c m hl hq hb ht hp => exact .actorPose q c m (other hq hl) hq hb ht hp

theorem Sends.of_seen {s s' : ServerRuntime} {t : Time} (h : Sends (s.seen p t) hello bound p s') :
    Sends s hello bound p s' :=
  fun cmd hc => (h cmd hc).imp_right Authorized.of_seen

section handlers
variable {s : ServerRuntime} {client : Client} (hk : Keyed s.clients) (hl : s.clients.lookup p = some client)
include hk hl

omit hk in
theorem sends_helloAgain (hh : hello) : Sends s hello bound p (helloAgain s p client) := by
  rw [helloAgain_eq hl]
  refine .of_append rfl fun cmd hm => ?_
  rw [mem_sendTcp hm]
  exact .welcome client _ hl rfl hh

theorem sends_storeBlob {type : Msg} (ht : type = .AppearanceChunk ∨ type = .InventoryChunk) (blob : Bytes) :
    Sends s hello bound p (storeBlob s type p client blob) := by
  refine .of_append rfl fun cmd hm => ?_
  obtain ⟨q, other, hq, hne, hc⟩ := mem_toOthers.mp hm
  rw [hk p client hl] at hne hc
  obtain ⟨k, -, rfl⟩ := mem_sendBlobTcp hc
  have hq' : s.clients.lookup q = some other := by
    rwa [Table.lookup_modify_ne _ _ hne] at hq
  exact .blob q other type blob k hq' hne ht

theorem sends_tcpBlobChunk (env : Env) {type : Msg} (ht : type = .AppearanceChunk ∨ type = .InventoryChunk) (buf : Bytes)
    (t : Time) : Sends s hello bound p (tcpBlobChunk env s type p client buf t) := by
  have hset := sameSenders_setAssemblies (countChunk s client t) type
  rcases tcpBlobChunk_cases env s type p client buf t with ⟨-, he⟩ | ⟨a, -, -, he⟩ | ⟨a, blob, -, -, he⟩
  · rw [he]
    exact .of_eq rfl
  · rw [he]
    exact .of_eq (hset _).outbound
  · have h₁ := hset ((s.assemblies type).erase client.peerId)
    have hsame : SameSenders s (countChunk s client t) := ⟨rfl, rfl, rfl, rfl⟩
    rw [he]
    exact hsame.sends (h₁.sends (sends_storeBlob (h₁.clients.symm ▸ hk) (h₁.clients.symm ▸ hl) ht blob))

omit hk in
theorem sends_tcpHeartbeat (buf : Bytes) : Sends s hello bound p (tcpHeartbeat s client buf) := by
  refine .of_append rfl fun cmd hm => ?_
  rw [mem_sendTcp hm]
  exact .heartbeat client _ hl rfl

theorem sends_tcpChat (buf : Bytes) (t : Time) : Sends s hello bound p (tcpChat s client buf t) := by
  rcases tcpChat_cases s client buf t with ⟨-, he⟩ | ⟨-, he⟩
  · rw [he]
    exact .of_eq rfl
  · rw [he]
    refine .of_append rfl fun cmd hm => ?_
    obtain ⟨q, other, hq, hne, hc⟩ := mem_toOthers.mp hm
    rw [mem_sendTcp hc]
    rw [hk p client hl] at hne
    exact .chat q other _ hq hne rfl (hk p client hl)

omit hl in
theorem lookup_findTarget {target : PeerId} {other : Client} (hf : findTarget s target = some other) :
    s.clients.lookup target = some other := by
  have hmem : other ∈ s.clients.values := List.mem_of_find?_eq_some hf
  have hid : other.peerId = target := by simpa using List.find?_some hf
  exact hid ▸ hk.lookup hmem

theorem sends_tcpKick {buf : Bytes} {header : Header} (ho : openFrame buf = some (header, .Kick)) :
    Sends s hello bound p (tcpKick s client buf) := by
  obtain ⟨rfl, htype, -⟩ := openFrame_spec ho
  rcases tcpKick_cases s client buf with he | ⟨other, hhost, hf, he⟩
  · rw [he]
    exact .of_eq rfl
  · rw [hk p client hl] at hhost
    rw [he]
    refine .of_append rfl fun cmd hm => ?_
    rw [mem_sendTcp hm]
    exact .kick _ other _ (lookup_findTarget hk hf) htype hhost rfl

theorem sends_tcpTeleport {buf : Bytes} {header : Header} (ho : openFrame buf = some (header, .Teleport)) :
    Sends s hello bound p (tcpTeleport s client buf) := by
  obtain ⟨rfl, htype, -⟩ := openFrame_spec ho
  rcases tcpTeleport_cases s client buf with he | ⟨other, hhost, hf, he⟩
  · rw [he]
    exact .of_eq rfl
  · rw [hk p client hl] at hhost
    rw [he]
    refine .of_append rfl fun cmd hm => ?_
    rw [mem_sendTcp hm]
    exact .teleport _ other _ (lookup_findTarget hk hf) htype hhost rfl

theorem sends_tcpHit (buf : Bytes) (t : Time) : Sends s hello bound p (tcpHit s client buf t) := by
  rcases tcpHit_cases s client buf t with he | he | ⟨hit, hpvp, htype, hattacker, htarget, hdamage, hpos, he⟩
  · rw [he]
    exact .of_eq rfl
  · rw [he]
    exact .of_eq rfl
  · rw [hk p client hl] at hattacker
    rw [he]
    refine .of_append rfl fun cmd hm => ?_
    obtain ⟨other, hmem, hc⟩ := List.mem_flatMap.mp hm
    split at hc
    · rename_i hid
      rw [mem_sendTcp hc]
      refine .hit other.peerId other hit (hk.lookup hmem) ?_ htype hpvp hattacker hid.symm ?_
      · rw [hid, ← hattacker]
        exact htarget
      · rw [hdamage] at hpos ⊢
        exact clampHitDamage_range hpos
    · cases hc

theorem sends_tcpMessage (env : Env) {buf : Bytes} {header : Header} {type : Msg} (ho : openFrame buf = some (header, type))
    (hh : type = .Hello → hello) (t : Time) : Sends s hello bound p (tcpMessage env s type p client buf t) := by
  apply tcpMessage_cases (P := Sends s hello bound p)
  case unhandled => exact .of_eq rfl
  case bye => exact fun _ => .of_eq rfl
  case hello => exact fun htype => sends_helloAgain hl (hh htype)
  case snapshot =>
    intro _
    rcases tcpWorldSnapshot_cases s client buf with ⟨-, he⟩ | ⟨-, world, -, he⟩ <;> rw [he] <;> exact .of_eq rfl
  case chunk => exact fun hchunk => sends_tcpBlobChunk hk hl env hchunk buf t
  case heartbeat => exact fun _ => sends_tcpHeartbeat hl buf
  case chat => exact fun _ => sends_tcpChat hk hl buf t
  case kick => exact fun htype => sends_tcpKick hk hl (htype ▸ ho)
  case teleport => exact fun htype => sends_tcpTeleport hk hl (htype ▸ ho)
  case hit => exact fun _ => sends_tcpHit hk hl buf t

theorem sends_handleTcpMessage (env : Env) (buf : Bytes) (t : Time)
    (hh : (∃ header, openFrame buf = some (header, .Hello)) → hello) :
    Sends s hello bound p (handleTcpMessage env s p client buf t) := by
  unfold handleTcpMessage
  cases ho : openFrame buf with
  | none => exact .of_eq rfl
  | some frame =>
    obtain ⟨header, type⟩ := frame
    dsimp only
    split
    · exact .of_eq rfl
    · exact Sends.of_seen (t := t) (sends_tcpMessage ((quiet_seen s p t).keyed hk) (lookup_seen hl t) env ho
        (fun htype => hh ⟨header, htype ▸ ho⟩) t)

/-- A departure sends Byes to the others and settles the connection of `p`. -/
theorem mem_removeClient (env : Env) {keepTcp : Bool} {cmd : OutboundCmd}
    (h : cmd ∈ (removeClient env s p keepTcp).outbound) :
    cmd ∈ s.outbound ∨ (∃ q other, s.clients.lookup q = some other ∧ q ≠ p ∧ cmd = toTcp other (makeBye p).encode) ∨
      cmd ∈ releaseCmds p client keepTcp := by
  obtain ⟨persist, he⟩ := removeClient_eq env hl keepTcp
  rw [he] at h
  rcases List.mem_append.mp h with hm | hm
  · exact .inl hm
  · rcases List.mem_append.mp hm with hm | hm
    · obtain ⟨q, other, hq, hne, hc⟩ := mem_toOthers.mp hm
      rw [hk p client hl] at hc
      exact .inr (.inl ⟨q, other, hq, hne, mem_sendTcp hc⟩)
    · exact .inr (.inr hm)

theorem sends_removeClient (env : Env) (keepTcp : Bool) : Sends s hello bound p (removeClient env s p keepTcp) := by
  intro cmd hm
  rcases mem_removeClient hk hl env hm with hm | ⟨q, other, hq, hne, rfl⟩ | hm
  · exact .inl hm
  · exact .inr (.bye q other hq hne)
  · right
    unfold releaseCmds closeConn at hm
    split at hm
    · rw [List.mem_singleton.mp hm]
      exact .keepPending
    · split at hm
      · cases hm
      · rw [List.mem_singleton.mp hm]
        exact .closeConn client hl

theorem sends_removeClosed (env : Env) :
    Sends s hello bound p
      (removeClient env { s with clients := s.clients.modify p fun c => { c with connId := 0 } } p false) := by
  have hl' : (s.clients.modify p fun c => { c with connId := 0 }).lookup p = some { client with connId := 0 } := by
    simp [hl]
  intro cmd hm
  rcases mem_removeClient (s := { s with clients := s.clients.modify p fun c => { c with connId := 0 } })
    (hk.modify p fun _ => rfl) hl' env hm with hm | ⟨q, other, hq, hne, rfl⟩ | hm
  · exact .inl hm
  · rw [Table.lookup_modify_ne _ _ hne] at hq
    exact .inr (.bye q other hq hne)
  · cases hm

theorem sends_handleClientFrame (env : Env) (buf : Bytes) (t : Time)
    (hh : (∃ header, openFrame buf = some (header, .Hello)) → hello) :
    Sends s hello bound p (handleClientFrame env s p client buf t) := by
  unfold handleClientFrame
  dsimp only
  by_cases hb : ∀ header, openFrame buf ≠ some (header, .Bye)
  · obtain ⟨-, hr⟩ := handleTcpMessage_simulates env (s := { s with removePeers := [], keepTcpPeers := [] }) hk hl buf t hb
    rw [hr]
    exact sends_handleTcpMessage (s := { s with removePeers := [], keepTcpPeers := [] }) hk hl env buf t hh
  · push Not at hb
    obtain ⟨header, ho⟩ := hb
    rw [handleTcpMessage_bye env _ p client ho, hk p client hl]
    have hseen := quiet_seen s p t
    exact Sends.of_seen (t := t) (sends_removeClient (s := { s.seen p t with removePeers := [p], keepTcpPeers := [p] })
      (hseen.keyed hk) (lookup_seen hl t) env _)

theorem sends_udpPlayerPose (buf : Bytes) (t : Time) : Sends s hello bound p (udpPlayerPose s p client buf t) := by
  have hid : client.peerId = p := hk p client hl
  have relay {s' : ServerRuntime} {interested : Client → Bool}
      (ho : s'.outbound = s.outbound ++ toOthers (storePose s p client (relayedPose client buf)).clients client.peerId
        fun other => if interested other then sendUdp other (relayedPose client buf).encode else []) :
      Sends s hello bound p s' := by
    refine .of_append ho fun cmd hm => ?_
    obtain ⟨q, other, hq, hne, hc⟩ := mem_toOthers.mp hm
    rw [hid] at hne
    split at hc
    · obtain ⟨hb, rfl⟩ := mem_sendUdp hc
      replace hq : s.clients.lookup q = some other := (Table.lookup_modify_ne _ _ hne).symm.trans hq
      exact .pose q other _ hq hne hb rfl hid
    · cases hc
  rcases udpPlayerPose_cases s p client buf t with ⟨-, he⟩ | ⟨-, _, ⟨-, he⟩ | ⟨-, world, -, he⟩⟩
  · rw [he]
    exact .of_eq rfl
  · rw [he]
    exact relay rfl
  · rw [he]
    exact relay rfl

theorem sends_udpActorPose (buf : Bytes) : Sends s hello bound p (udpActorPose s client buf) := by
  rcases udpActorPose_cases s client buf with he | ⟨_, hhost, he⟩
  · rw [he]
    exact .of_eq rfl
  · rw [hk p client hl] at hhost
    rw [he]
    refine .of_append rfl fun cmd hm => ?_
    obtain ⟨q, other, hq, hne, hc⟩ := mem_toOthers.mp hm
    rw [hk p client hl] at hne
    split at hc
    · obtain ⟨hb, rfl⟩ := mem_sendUdp hc
      exact .actorPose q other _ hq hne hb rfl hhost
    · cases hc

end handlers

theorem sends_udpBind {s : ServerRuntime} (hk : Keyed s.clients) (buf : Bytes) {from_ : SockAddr} (t : Time)
    (hbound : bound from_) : Sends s hello bound (UdpBind.decode buf).peerId (udpBind s buf from_ t) := by
  cases hl : s.clients.lookup (UdpBind.decode buf).peerId with
  | none =>
    rw [udpBind]
    dsimp only
    rw [hl]
    exact .of_eq rfl
  | some client =>
    by_cases ht : client.udpToken = 0 ∨ client.udpToken ≠ (UdpBind.decode buf).udpToken
    · rw [udpBind]
      dsimp only
      rw [hl]
      dsimp only
      rw [if_pos ht]
      exact .of_eq rfl
    · rw [udpBind_eq hl ht, hk _ _ hl]
      refine .of_append rfl fun cmd hm => ?_
      obtain ⟨q, other, hq, hne, hc⟩ := mem_toOthers.mp hm
      rw [Table.lookup_modify_ne _ _ hne] at hq
      split at hc
      · obtain ⟨-, rfl⟩ := mem_sendUdp hc
        exact .greet from_ q other hbound hq hne
      · cases hc

def HelloInput (i : Input) : Prop := ∃ ev t header, i = .inbound ev t ∧ openFrame ev.bytes = some (header, .Hello)

/-- The address an accepted UdpBind comes from. -/
def BindInput (s : ServerRuntime) (i : Input) (a : SockAddr) : Prop :=
  ∃ ev t p, i = .inbound ev t ∧ ev.kind = .UdpDatagram ∧ acceptedBind s ev.bytes = some p ∧ a = ev.addr

/-- The live client an input is the doing of. -/
inductive Attributed (s : ServerRuntime) (i : Input) (p : PeerId) : Prop
  | frame (ev t client) (hs : ClientStep s i ev t p client)
  | closed (ev t) (hi : i = .inbound ev t) (hk : ev.kind = .TcpClosed) (hc : closedPeer s ev = some p)
  | bind (ev t) (hi : i = .inbound ev t) (hk : ev.kind = .UdpDatagram) (ha : acceptedBind s ev.bytes = some p)
  | datagram (ev t) (hi : i = .inbound ev t) (hk : ev.kind = .UdpDatagram) (ha : acceptedBind s ev.bytes = none)
      (hf : (findByUdp s ev.addr).1 = some p)

theorem sends_handleUdpPacket {s : ServerRuntime} (hk : Keyed s.clients) (hok : Ok s.sessions) {buf : Bytes}
    {from_ : SockAddr} (t : Time) (hbound : acceptedBind s buf = some p → bound from_)
    (hp : ∀ id,
      (acceptedBind s buf = some id ∨ acceptedBind s buf = none ∧ s.udpPeerByAddr.lookup (addrKey from_) = some id) → id = p) : Sends s hello bound p (handleUdpPacket s buf from_ t) := by
  have hq : Quiet s s.countDatagram := .of_eq rfl rfl rfl rfl rfl rfl
  have hseen : Keyed (s.countDatagram.seen p t).clients := (hq.trans (quiet_seen s.countDatagram p t)).keyed hk
  have hcase := handleUdpPacket_cases hok buf from_ t
  generalize handleUdpPacket s buf from_ t = s' at hcase ⊢
  cases hcase with
  | bind id ha =>
    obtain rfl := hp id (.inl ha)
    obtain ⟨-, -, rfl, -⟩ := acceptedBind_some.mp ha
    exact sends_udpBind (s := s.countDatagram) hk buf t (hbound ha)
  | ignored badHeaders ha => exact .of_eq rfl
  | short id client ha hu hl => exact .of_eq rfl
  | playerPose id client header ha hu hl ho =>
    obtain rfl := hp id (.inr ⟨ha, hu⟩)
    exact Sends.of_seen (s := s.countDatagram) (t := t) (sends_udpPlayerPose hseen (lookup_seen hl t) buf t)
  | actorPose id client header ha hu hl ho =>
    obtain rfl := hp id (.inr ⟨ha, hu⟩)
    exact Sends.of_seen (s := s.countDatagram) (t := t) (sends_udpActorPose hseen (lookup_seen hl t) buf)

theorem sends_tcpClosed (env : Env) {s : ServerRuntime} (hk : Keyed s.clients) {ev : InboundEvent}
    (hev : ev.kind = .TcpClosed) (t : Time) (hc : closedPeer s ev = some p) :
    Sends s hello bound p (applyInbound env s ev t) := by
  let s₁ : ServerRuntime := { s with pendingTcp := s.pendingTcp.filter fun q => q.connId ≠ ev.connId }
  have h₁ : SameSenders s s₁ := ⟨rfl, rfl, rfl, rfl⟩
  unfold closedPeer at hc
  simp only [applyInbound, hev]
  refine h₁.sends ?_
  split
  · rename_i hp
    rw [if_pos hp] at hc
    cases hc
    cases hl : s₁.clients.lookup ev.peerId with
    | none =>
      rw [removeClient_of_absent env hl]
      exact .of_eq rfl
    | some client => exact sends_removeClient (s := s₁) hk hl env false
  · rename_i hp
    rw [if_neg hp] at hc
    obtain ⟨⟨id, client⟩, hf, rfl⟩ := Option.map_eq_some_iff.mp hc
    rw [show findByConn s₁ ev.connId = some ⟨id, client⟩ from hf]
    have hl := (findByConn_some hf).1
    dsimp only at hl ⊢
    rw [hk id client hl]
    exact sends_removeClosed (s := s₁) hk hl env

/-- One step: whatever an event of `p` makes the server send is authorized. -/
theorem step_authorized {s : ServerRuntime} (hw : WellFormed s) {i : Env × Input}
    (ha : Attributed s.ready i.2 p) {cmd : OutboundCmd} (hc : cmd ∈ (s.step i).outbound) :
    Authorized s.clients s.world.hostPeerId s.cfg.pvp (HelloInput i.2) (BindInput s.ready i.2) p cmd := by
  have hs : Sends s.ready (HelloInput i.2) (BindInput s.ready i.2) p (s.step i) := by
    obtain ⟨env, i⟩ := i
    unfold ServerRuntime.step handle
    cases ha with
    | frame ev t client hs =>
      obtain ⟨rfl, hev, ht⟩ := hs
      simp only [applyInbound, hev, ht]
      exact sends_handleClientFrame (s := s.ready) hw.keyed (frameTarget_client ht) env ev.bytes t
        fun hello => hello.elim fun header ho => ⟨ev, t, header, rfl, ho⟩
    | closed ev t hi hev hclosed =>
      subst hi
      exact sends_tcpClosed env (s := s.ready) hw.keyed hev t hclosed
    | bind ev t hi hev hb =>
      subst hi
      simp only [applyInbound, hev]
      refine sends_handleUdpPacket (s := s.ready) hw.keyed hw.ok t (fun ha => ⟨ev, t, p, rfl, hev, ha, rfl⟩) fun id hid => ?_
      rcases hid with hid | ⟨hid, -⟩
      · exact Option.some.inj (hid.symm.trans hb)
      · rw [hb] at hid
        cases hid
    | datagram ev t hi hev hb hf =>
      subst hi
      simp only [applyInbound, hev]
      refine sends_handleUdpPacket (s := s.ready) hw.keyed hw.ok t (fun ha => ⟨ev, t, p, rfl, hev, ha, rfl⟩) fun id hid => ?_
      rcases hid with hid | ⟨-, hid⟩
      · rw [hb] at hid
        cases hid
      · rw [findByUdp_of_ok (s := s.ready) hw.ok, hid] at hf
        exact Option.some.inj hf
  rcases hs cmd hc with h | h
  · cases h
  · exact h

end authority

end ServerRuntime
end CommonwealthMP
