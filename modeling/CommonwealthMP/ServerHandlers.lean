import CommonwealthMP.PendingHello

/-! # Frames of joined clients, datagrams, and the dispatch of inbound events -/
namespace CommonwealthMP
open ByteLayout Binary32 OrderedTables
namespace ServerRuntime

def rateKey (client : Client) : Bytes := decimal client.peerId.toNat

/-- `client.lastSeen = t` -/
def seen (s : ServerRuntime) (id : PeerId) (t : Time) : ServerRuntime :=
  { s with clients := s.clients.modify id fun c => { c with lastSeen := t } }

/-- A repeated Hello: a new token, no UDP binding, and a Welcome. -/
def helloAgain (s : ServerRuntime) (id : PeerId) (client : Client) : ServerRuntime :=
  let token := makeUdpToken s.udpToken
  let s := { s with udpToken := token, clients := s.clients.modify id fun c => { c with udpToken := token } }
  let s := s.unbindUdp id
  let rec_ := (s.players.lookup client.playerKey).getD {}
  let s := { s with players := s.players.insert client.playerKey rec_ }
  let welcome := makeWelcome client.peerId 0 (!rec_.havePose) (client.peerId = s.world.hostPeerId)
    (buildSessionFlags s.cfg) token
  s.queue (sendTcp client welcome.encode)

theorem helloAgain_eq {s : ServerRuntime} {id : PeerId} {client : Client} (h : s.clients.lookup id = some client) :
    helloAgain s id client = { s with
      udpToken := makeUdpToken s.udpToken
      clients := s.clients.modify id fun c => Client.unbound { c with udpToken := makeUdpToken s.udpToken }
      udpPeerByAddr := forgetAddr s.udpPeerByAddr client
      players := s.players.insert client.playerKey ((s.players.lookup client.playerKey).getD {})
      outbound := s.outbound ++ sendTcp client (makeWelcome client.peerId 0
        (!((s.players.lookup client.playerKey).getD {}).havePose) (client.peerId = s.world.hostPeerId)
        (buildSessionFlags s.cfg) (makeUdpToken s.udpToken)).encode } := by
  have hl : (s.clients.modify id fun c => { c with udpToken := makeUdpToken s.udpToken }).lookup id =
      some { client with udpToken := makeUdpToken s.udpToken } := by
    simp [h]
  have hu := unbindUdp_eq (s := { s with
      udpToken := makeUdpToken s.udpToken
      clients := s.clients.modify id fun c => { c with udpToken := makeUdpToken s.udpToken } }) hl
  rw [Table.modify_modify] at hu
  rw [helloAgain]
  dsimp only
  rw [hu]
  simp only [queue, Function.comp_def, forgetAddr]

def tcpWorldSnapshot (s : ServerRuntime) (client : Client) (buf : Bytes) : ServerRuntime :=
  let snap := WorldSnapshot.decode buf
  if client.peerId = s.world.hostPeerId then
    { s with
      world := { s.world with
        gameHour := snap.gameHour
        gameDaysPassed := snap.gameDaysPassed
        weatherFormId := snap.weatherFormId
        hostLocation := if snap.hostLocationFormId ≠ 0 then snap.hostLocationFormId else s.world.hostLocation
        hostX := snap.hostX
        hostY := snap.hostY
        hostZ := snap.hostZ }
      worldDirty := true }
  else s

theorem tcpWorldSnapshot_cases (s : ServerRuntime) (client : Client) (buf : Bytes) :
    (client.peerId ≠ s.world.hostPeerId ∧ tcpWorldSnapshot s client buf = s) ∨
    client.peerId = s.world.hostPeerId ∧ ∃ world, world.hostPeerId = s.world.hostPeerId ∧
      tcpWorldSnapshot s client buf = { s with world := world, worldDirty := true } := by
  unfold tcpWorldSnapshot
  dsimp only
  split
  · refine .inr ⟨‹_›, _, ?_, rfl⟩
    rfl
  · exact .inl ⟨‹_›, rfl⟩

/-- `take_blob`: the assembly after the datagram, and the blob if it is complete. -/
def takeBlob (now : Time) (assembly : BlobAssembly) (buf : Bytes) : BlobAssembly × Option Bytes :=
  match assembleBlobChunk now assembly buf with
  | (a, .Complete, out) => (a, some out)
  | (a, _, _) => (a, none)

theorem takeBlob_fst (now : Time) (a : BlobAssembly) (buf : Bytes) : (takeBlob now a buf).1 = (assembleBlobChunk now a buf).1 := by
  unfold takeBlob
  split <;> rename_i he <;> rw [he]

theorem takeBlob_some {now : Time} {a a' : BlobAssembly} {buf blob : Bytes} (h : takeBlob now a buf = (a', some blob)) :
    assembleBlobChunk now a buf = (a', .Complete, blob) := by
  unfold takeBlob at h
  split at h
  · rename_i he
    cases h
    exact he
  · cases h

/-- The two blob kinds: which assemblies they use and which fields they fill. -/
def assemblies (s : ServerRuntime) (type : Msg) : Table PeerId BlobAssembly :=
  if type = .AppearanceChunk then s.appearAsm else s.invAsm

def setAssemblies (s : ServerRuntime) (type : Msg) (asm : Table PeerId BlobAssembly) : ServerRuntime :=
  if type = .AppearanceChunk then { s with appearAsm := asm } else { s with invAsm := asm }

def Client.storeBlob (type : Msg) (blob : Bytes) (c : Client) : Client :=
  if type = .AppearanceChunk then { c with appearance := blob } else { c with inventory := blob }

def PlayerRec.storeBlob (type : Msg) (blob : Bytes) (r : PlayerRec) : PlayerRec :=
  if type = .AppearanceChunk then { r with appearance := blob } else { r with inventory := blob }

/-- A complete blob is stored with the client and its record and sent to the others. -/
def storeBlob (s : ServerRuntime) (type : Msg) (id : PeerId) (client : Client) (blob : Bytes) : ServerRuntime :=
  let rec_ := PlayerRec.storeBlob type blob { (s.players.lookup client.playerKey).getD {} with key := client.playerKey }
  let s := { s with
    players := s.players.insert client.playerKey rec_
    clients := s.clients.modify id (Client.storeBlob type blob)
    dirtyPlayers := s.dirtyPlayers.insert rec_.key }
  s.queue (toOthers s.clients client.peerId fun other => sendBlobTcp other type client.peerId blob)

def tcpBlobChunk (env : Env) (s : ServerRuntime) (type : Msg) (id : PeerId) (client : Client) (buf : Bytes)
    (t : Time) : ServerRuntime :=
  let (ok, rates) := allowRate s.blobRates (rateKey client) t 64
  let s := { s with blobRates := rates }
  if !ok then s
  else
    let asm := (s.assemblies type).lookup client.peerId
    match takeBlob env.now (asm.getD {}) buf with
    | (a, none) => s.setAssemblies type ((s.assemblies type).insert client.peerId a)
    | (_, some blob) =>
      storeBlob (s.setAssemblies type ((s.assemblies type).erase client.peerId)) type id client blob

theorem setAssemblies_eq (s : ServerRuntime) (type : Msg) (asm : Table PeerId BlobAssembly) :
    s.setAssemblies type asm = { s with
      appearAsm := if type = .AppearanceChunk then asm else s.appearAsm
      invAsm := if type = .AppearanceChunk then s.invAsm else asm } := by
  unfold setAssemblies
  split <;> rfl

/-- The limiter of the chunks lets the client's next one through. -/
def passesLimit (s : ServerRuntime) (client : Client) (t : Time) : Bool := (allowRate s.blobRates (rateKey client) t 64).1

def countChunk (s : ServerRuntime) (client : Client) (t : Time) : ServerRuntime :=
  { s with blobRates := (allowRate s.blobRates (rateKey client) t 64).2 }

def assemblyOf (s : ServerRuntime) (type : Msg) (q : PeerId) : BlobAssembly := ((s.assemblies type).lookup q).getD {}

/-- A chunk is turned away and only counted, or joins the assembly of its client, or completes a blob. -/
theorem tcpBlobChunk_cases (env : Env) (s : ServerRuntime) (type : Msg) (id : PeerId) (client : Client) (buf : Bytes) (t : Time) :
    (passesLimit s client t = false ∧ tcpBlobChunk env s type id client buf t = countChunk s client t) ∨
    (∃ a, passesLimit s client t = true ∧ takeBlob env.now (assemblyOf s type client.peerId) buf = (a, none) ∧
      tcpBlobChunk env s type id client buf t =
        (countChunk s client t).setAssemblies type ((s.assemblies type).insert client.peerId a)) ∨
    ∃ a blob, passesLimit s client t = true ∧ takeBlob env.now (assemblyOf s type client.peerId) buf = (a, some blob) ∧
      tcpBlobChunk env s type id client buf t =
        storeBlob ((countChunk s client t).setAssemblies type ((s.assemblies type).erase client.peerId)) type id client blob := by
  unfold tcpBlobChunk
  dsimp only
  split
  · rename_i hok
    exact .inl ⟨by rwa [Bool.not_eq_true'] at hok, rfl⟩
  · rename_i hok
    rw [Bool.not_eq_true', Bool.not_eq_false] at hok
    split
    · rename_i a htake
      exact .inr (.inl ⟨a, hok, htake, rfl⟩)
    · rename_i a blob htake
      exact .inr (.inr ⟨a, blob, hok, htake, rfl⟩)

def tcpHeartbeat (s : ServerRuntime) (client : Client) (buf : Bytes) : ServerRuntime :=
  let hb := { Heartbeat.decode buf with peerId := client.peerId, header := fillHeader .Heartbeat 20 }
  s.queue (sendTcp client hb.encode)

def tcpChat (s : ServerRuntime) (client : Client) (buf : Bytes) (t : Time) : ServerRuntime :=
  let chat := Chat.decode buf
  let chat := { chat with text := chat.text.set 79 0 }
  let (ok, rates) := allowRate s.chatRates (rateKey client) t 4
  let s := { s with chatRates := rates }
  if !ok then s
  else
    let chat := { chat with fromPeerId := client.peerId, header := fillHeader .Chat 96 }
    s.queue (toOthers s.clients client.peerId fun other => sendTcp other chat.encode)

def countChat (s : ServerRuntime) (client : Client) (t : Time) : ServerRuntime :=
  { s with chatRates := (allowRate s.chatRates (rateKey client) t 4).2 }

/-- A chat message is counted, and goes to the others if the limiter lets it through. -/
theorem tcpChat_cases (s : ServerRuntime) (client : Client) (buf : Bytes) (t : Time) :
    ((allowRate s.chatRates (rateKey client) t 4).1 = false ∧ tcpChat s client buf t = countChat s client t) ∨
    (allowRate s.chatRates (rateKey client) t 4).1 = true ∧
      tcpChat s client buf t = (countChat s client t).queue (toOthers s.clients client.peerId fun other => sendTcp other
        { Chat.decode buf with
          text := (Chat.decode buf).text.set 79 0, fromPeerId := client.peerId, header := fillHeader .Chat 96 }.encode) := by
  unfold tcpChat
  dsimp only
  cases (allowRate s.chatRates (rateKey client) t 4).1 with
  | false => exact .inl ⟨rfl, rfl⟩
  | true => exact .inr ⟨rfl, rfl⟩

/-- The first client whose id is `target`. -/
def findTarget (s : ServerRuntime) (target : PeerId) : Option Client := s.clients.values.find? (·.peerId = target)

def tcpKick (s : ServerRuntime) (client : Client) (buf : Bytes) : ServerRuntime :=
  let kick := Kick.decode buf
  let kick := { kick with reason := kick.reason.set 79 0 }
  if client.peerId = s.world.hostPeerId then
    match findTarget s kick.targetPeerId with
    | some other => s.queue (sendTcp other kick.encode)
    | none => s
  else s

theorem tcpKick_cases (s : ServerRuntime) (client : Client) (buf : Bytes) :
    tcpKick s client buf = s ∨
    ∃ other, client.peerId = s.world.hostPeerId ∧ findTarget s (Kick.decode buf).targetPeerId = some other ∧
      tcpKick s client buf =
        s.queue (sendTcp other { Kick.decode buf with reason := (Kick.decode buf).reason.set 79 0 }.encode) := by
  unfold tcpKick
  dsimp only
  split
  · split
    · exact .inr ⟨_, ‹_›, ‹_›, rfl⟩
    · exact .inl rfl
  · exact .inl rfl

def tcpTeleport (s : ServerRuntime) (client : Client) (buf : Bytes) : ServerRuntime :=
  let tp := Teleport.decode buf
  if client.peerId = s.world.hostPeerId then
    match findTarget s tp.targetPeerId with
    | some other => s.queue (sendTcp other tp.encode)
    | none => s
  else s

theorem tcpTeleport_cases (s : ServerRuntime) (client : Client) (buf : Bytes) :
    tcpTeleport s client buf = s ∨
    ∃ other, client.peerId = s.world.hostPeerId ∧ findTarget s (Teleport.decode buf).targetPeerId = some other ∧
      tcpTeleport s client buf = s.queue (sendTcp other (Teleport.decode buf).encode) := by
  unfold tcpTeleport
  dsimp only
  split
  · split
    · exact .inr ⟨_, ‹_›, ‹_›, rfl⟩
    · exact .inl rfl
  · exact .inl rfl

def tcpHit (s : ServerRuntime) (client : Client) (buf : Bytes) (t : Time) : ServerRuntime :=
  if !s.cfg.pvp then s
  else
    let hit := Hit.decode buf
    let (ok, rates) := allowRate s.hitRates (rateKey client) t 24
    let s := { s with hitRates := rates }
    if !ok then s
    else if hit.attackerPeerId ≠ client.peerId ∨ hit.targetPeerId = 0 ∨ hit.targetPeerId = hit.attackerPeerId then s
    else
      let hit := { hit with damage := clampHitDamage hit.damage }
      if le hit.damage ⟨0⟩ then s
      else
        let hit := { hit with header := fillHeader .Hit 28 }
        s.queue (s.clients.values.flatMap fun other =>
          if other.peerId = hit.targetPeerId then sendTcp other hit.encode else [])

def countHit (s : ServerRuntime) (client : Client) (t : Time) : ServerRuntime :=
  { s with hitRates := (allowRate s.hitRates (rateKey client) t 24).2 }

/-- A hit is left alone, or counted and no more, or goes to the player it is for. -/
theorem tcpHit_cases (s : ServerRuntime) (client : Client) (buf : Bytes) (t : Time) :
    tcpHit s client buf t = s ∨ tcpHit s client buf t = countHit s client t ∨
    ∃ hit : Hit, s.cfg.pvp = true ∧ hit.header = fillHeader .Hit 28 ∧ hit.attackerPeerId = client.peerId ∧
      hit.targetPeerId ≠ hit.attackerPeerId ∧ hit.damage = clampHitDamage (Hit.decode buf).damage ∧
      le hit.damage ⟨0⟩ = false ∧
      tcpHit s client buf t = (countHit s client t).queue (s.clients.values.flatMap fun other =>
        if other.peerId = hit.targetPeerId then sendTcp other hit.encode else []) := by
  unfold tcpHit
  dsimp only
  split
  · exact .inl rfl
  · rename_i hpvp
    split
    · exact .inr (.inl rfl)
    · split
      · exact .inr (.inl rfl)
      · rename_i hauth
        push Not at hauth
        split
        · exact .inr (.inl rfl)
        · rename_i hpos
          refine .inr (.inr ⟨{ Hit.decode buf with
            header := fillHeader .Hit 28, damage := clampHitDamage (Hit.decode buf).damage },
            ?_, rfl, hauth.1, hauth.2.2, rfl, ?_, rfl⟩)
          · simpa using hpvp
          · simpa using hpos

/-- The handler of each TCP message, after the checks that precede them all. -/
def tcpMessage (env : Env) (s : ServerRuntime) (type : Msg) (id : PeerId) (client : Client) (buf : Bytes)
    (t : Time) : ServerRuntime :=
  match type with
  | .Bye => { s with removePeers := s.removePeers ++ [client.peerId], keepTcpPeers := s.keepTcpPeers ++ [client.peerId] }
  | .Hello => if sizeofHello ≤ buf.length then helloAgain s id client else s
  | .WorldSnapshot => if sizeofWorldSnapshot ≤ buf.length then tcpWorldSnapshot s client buf else s
  | .AppearanceChunk | .InventoryChunk =>
    if sizeofBlobChunk ≤ buf.length then tcpBlobChunk env s type id client buf t else s
  | .Heartbeat => if sizeofHeartbeat ≤ buf.length then tcpHeartbeat s client buf else s
  | .Chat => if sizeofChat ≤ buf.length then tcpChat s client buf t else s
  | .Kick => if sizeofKick ≤ buf.length then tcpKick s client buf else s
  | .Teleport => if sizeofTeleport ≤ buf.length then tcpTeleport s client buf else s
  | .Hit => if sizeofHit ≤ buf.length then tcpHit s client buf t else s
  | _ => s

/-- A message is left unhandled, or its handler takes it. -/
theorem tcpMessage_cases {P : ServerRuntime → Prop} {env : Env} {s : ServerRuntime} {type : Msg} {id : PeerId} {client : Client}
    {buf : Bytes} {t : Time} (unhandled : P s)
    (bye : type = .Bye → P { s with
      removePeers := s.removePeers ++ [client.peerId], keepTcpPeers := s.keepTcpPeers ++ [client.peerId] })
    (hello : type = .Hello → P (helloAgain s id client))
    (snapshot : type = .WorldSnapshot → P (tcpWorldSnapshot s client buf))
    (chunk : Chunked type → P (tcpBlobChunk env s type id client buf t))
    (heartbeat : type = .Heartbeat → P (tcpHeartbeat s client buf))
    (chat : type = .Chat → P (tcpChat s client buf t))
    (kick : type = .Kick → P (tcpKick s client buf))
    (teleport : type = .Teleport → P (tcpTeleport s client buf))
    (hit : type = .Hit → P (tcpHit s client buf t)) : P (tcpMessage env s type id client buf t) := by
  have guard {p : Prop} [Decidable p] {s' : ServerRuntime} (h : P s') : P (if p then s' else s) := by
    split
    · exact h
    · exact unhandled
  cases type with
  | Bye => exact bye rfl
  | Hello => exact guard (hello rfl)
  | WorldSnapshot => exact guard (snapshot rfl)
  | AppearanceChunk => exact guard (chunk (.inl rfl))
  | InventoryChunk => exact guard (chunk (.inr rfl))
  | Heartbeat => exact guard (heartbeat rfl)
  | Chat => exact guard (chat rfl)
  | Kick => exact guard (kick rfl)
  | Teleport => exact guard (teleport rfl)
  | Hit => exact guard (hit rfl)
  | _ => exact unhandled

def handleTcpMessage (env : Env) (s : ServerRuntime) (id : PeerId) (client : Client) (buf : Bytes) (t : Time) :
    ServerRuntime :=
  match openFrame buf with
  | none => { s with badHeaders := s.badHeaders + 1 }
  | some (_, type) =>
    if !msgIsTcp type then s
    else tcpMessage env (s.seen id t) type id { client with lastSeen := t } buf t

def udpBind (s : ServerRuntime) (buf : Bytes) (from_ : SockAddr) (t : Time) : ServerRuntime :=
  let bindMsg := UdpBind.decode buf
  match s.clients.lookup bindMsg.peerId with
  | none => s
  | some client =>
    if client.udpToken = 0 ∨ client.udpToken ≠ bindMsg.udpToken then s
    else
      let s := s.unbindUdp bindMsg.peerId
      let bound := { client with udpAddr := from_, udpBound := true, lastSeen := t }
      let s := { s with
        clients := s.clients.modify bindMsg.peerId fun c => { c with udpAddr := from_, udpBound := true, lastSeen := t }
        udpPeerByAddr := s.udpPeerByAddr.insert (addrKey from_) client.peerId }
      s.queue (toOthers s.clients client.peerId fun other =>
        if other.havePose then sendUdp bound other.lastPose.encode else [])

theorem udpBind_eq {s : ServerRuntime} {buf : Bytes} {client : Client}
    (h : s.clients.lookup (UdpBind.decode buf).peerId = some client)
    (ht : ¬ (client.udpToken = 0 ∨ client.udpToken ≠ (UdpBind.decode buf).udpToken)) (from_ : SockAddr) (t : Time) :
    udpBind s buf from_ t = { s with
      clients := s.clients.modify (UdpBind.decode buf).peerId fun c =>
        { Client.unbound c with udpAddr := from_, udpBound := true, lastSeen := t }
      udpPeerByAddr := (forgetAddr s.udpPeerByAddr client).insert (addrKey from_) client.peerId
      outbound := s.outbound ++ toOthers
        (s.clients.modify (UdpBind.decode buf).peerId fun c =>
          { Client.unbound c with udpAddr := from_, udpBound := true, lastSeen := t }) client.peerId fun other =>
        if other.havePose then
          sendUdp { client with udpAddr := from_, udpBound := true, lastSeen := t } other.lastPose.encode
        else [] } := by
  rw [udpBind]
  dsimp only
  rw [h]
  dsimp only
  rw [if_neg ht, unbindUdp_eq h]
  simp only [queue, Table.modify_modify, Function.comp_def]

/-- The record of a player whose pose arrived. -/
def PlayerRec.follow (key : Bytes) (pose : PlayerPose) (r : PlayerRec) : PlayerRec :=
  { r with
    key := key, havePose := true, locationFormId := pose.locationFormId, x := pose.x, y := pose.y, z := pose.z, yaw := pose.yaw }

def udpPlayerPose (s : ServerRuntime) (id : PeerId) (client : Client) (buf : Bytes) (t : Time) : ServerRuntime :=
  let (ok, rates) := allowRate s.poseRates (rateKey client) t 30
  let s := { s with poseRates := rates }
  if !ok then s
  else
    let pose := { PlayerPose.decode buf with peerId := client.peerId, header := fillHeader .PlayerPose 56 }
    let posed := { client with posesIn := client.posesIn + 1, lastPose := pose, havePose := true }
    let rec_ := PlayerRec.follow client.playerKey pose ((s.players.lookup client.playerKey).getD {})
    let s := { s with
      clients := s.clients.modify id fun c => { c with posesIn := c.posesIn + 1, lastPose := pose, havePose := true }
      players := s.players.insert client.playerKey rec_
      dirtyPlayers := s.dirtyPlayers.insert rec_.key }
    let s := if client.peerId = s.world.hostPeerId then
        { s with
          world := { s.world with
            hostLocation := if pose.locationFormId ≠ 0 then pose.locationFormId else s.world.hostLocation
            hostX := pose.x
            hostY := pose.y
            hostZ := pose.z }
          worldDirty := true }
      else s
    s.queue (toOthers s.clients client.peerId fun other =>
      if other.udpBound && posed.lastPose.inInterest posed.havePose other.lastPose other.havePose s.cfg.interestUu then
        sendUdp other pose.encode
      else [])

def countPose (s : ServerRuntime) (client : Client) (t : Time) : ServerRuntime :=
  { s with poseRates := (allowRate s.poseRates (rateKey client) t 30).2 }

def relayedPose (client : Client) (buf : Bytes) : PlayerPose :=
  { PlayerPose.decode buf with peerId := client.peerId, header := fillHeader .PlayerPose 56 }

def storePose (s : ServerRuntime) (id : PeerId) (client : Client) (pose : PlayerPose) : ServerRuntime :=
  { s with
    clients := s.clients.modify id fun c => { c with posesIn := c.posesIn + 1, lastPose := pose, havePose := true }
    players := s.players.insert client.playerKey
      (PlayerRec.follow client.playerKey pose ((s.players.lookup client.playerKey).getD {}))
    dirtyPlayers := s.dirtyPlayers.insert client.playerKey }

/-- A datagram goes to the others that it is of interest to. -/
def relayTo (s : ServerRuntime) (client : Client) (data : Bytes) (interested : Client → Bool) : ServerRuntime :=
  s.queue (toOthers s.clients client.peerId fun other => if interested other then sendUdp other data else [])

/-- A pose is counted and no more, or stored and relayed; the host's also moves the world's host. -/
theorem udpPlayerPose_cases (s : ServerRuntime) (id : PeerId) (client : Client) (buf : Bytes) (t : Time) :
    ((allowRate s.poseRates (rateKey client) t 30).1 = false ∧ udpPlayerPose s id client buf t = countPose s client t) ∨
    (allowRate s.poseRates (rateKey client) t 30).1 = true ∧ ∃ interested,
      ((client.peerId ≠ s.world.hostPeerId ∧ udpPlayerPose s id client buf t =
        (storePose (countPose s client t) id client (relayedPose client buf)).relayTo client (relayedPose client buf).encode
          interested) ∨
      client.peerId = s.world.hostPeerId ∧ ∃ world, world.hostPeerId = s.world.hostPeerId ∧ udpPlayerPose s id client buf t =
        relayTo { storePose (countPose s client t) id client (relayedPose client buf) with world := world, worldDirty := true }
          client (relayedPose client buf).encode interested) := by
  unfold udpPlayerPose
  dsimp only
  cases (allowRate s.poseRates (rateKey client) t 30).1 with
  | false => exact .inl ⟨rfl, rfl⟩
  | true =>
    refine .inr ⟨rfl, ?_⟩
    rw [Bool.not_true, if_neg Bool.false_ne_true]
    split
    · refine ⟨_, .inr ⟨‹_›, _, ?_, rfl⟩⟩
      rfl
    · exact ⟨_, .inl ⟨‹_›, rfl⟩⟩

def udpActorPose (s : ServerRuntime) (client : Client) (buf : Bytes) : ServerRuntime :=
  if client.peerId ≠ s.world.hostPeerId then s
  else
    let pose := { ActorPose.decode buf with header := fillHeader .ActorPose 64 }
    s.queue (toOthers s.clients client.peerId fun other =>
      if other.udpBound && pose.inInterest other.lastPose other.havePose s.cfg.interestUu then sendUdp other pose.encode
      else [])

theorem udpActorPose_cases (s : ServerRuntime) (client : Client) (buf : Bytes) :
    udpActorPose s client buf = s ∨
    ∃ interested, client.peerId = s.world.hostPeerId ∧ udpActorPose s client buf =
      s.relayTo client { ActorPose.decode buf with header := fillHeader .ActorPose 64 }.encode interested := by
  unfold udpActorPose
  dsimp only
  split
  · exact .inl rfl
  · rename_i hhost
    exact .inr ⟨_, not_ne_iff.mp hhost, rfl⟩

def countDatagram (s : ServerRuntime) : ServerRuntime := { s with datagrams := s.datagrams + 1 }

def handleUdpPacket (s : ServerRuntime) (buf : Bytes) (from_ : SockAddr) (t : Time) : ServerRuntime :=
  let s := s.countDatagram
  match openFrame buf with
  | none => { s with badHeaders := s.badHeaders + 1 }
  | some (_, type) =>
    if !msgIsUdp type then s
    else if type = .UdpBind ∧ sizeofUdpBind ≤ buf.length then udpBind s buf from_ t
    else
      match findByUdp s from_ with
      | (none, s) => s
      | (some id, s) =>
        let s := s.seen id t
        match s.clients.lookup id with
        | none => s
        | some client =>
          if type = .PlayerPose ∧ sizeofPlayerPose ≤ buf.length then udpPlayerPose s id client buf t
          else if type = .ActorPose ∧ sizeofActorPose ≤ buf.length then udpActorPose s client buf
          else s

/-- Whose frame an event is: the live client its stamp names, else the pending entry of its
connection, else the client of its connection. -/
inductive FrameTarget
  | client (id : PeerId) (client : Client)
  | pending (pending : PendingTcp)
  | nobody

def stampedClient (s : ServerRuntime) (ev : InboundEvent) : Option Client :=
  if ev.peerId ≠ 0 then s.clients.lookup ev.peerId else none

def frameTarget (s : ServerRuntime) (ev : InboundEvent) : FrameTarget :=
  match stampedClient s ev with
  | some client => .client ev.peerId client
  | none =>
    match findPending s ev.connId with
    | some pending => .pending pending
    | none =>
      match findByConn s ev.connId with
      | some ⟨id, client⟩ => .client id client
      | none => .nobody

def handleClientFrame (env : Env) (s : ServerRuntime) (id : PeerId) (client : Client) (buf : Bytes) (t : Time) :
    ServerRuntime :=
  let s := { s with removePeers := [], keepTcpPeers := [] }
  let s := handleTcpMessage env s id client buf t
  let s := s.removePeers.foldl (fun r peerId => removeClient env r peerId (s.keepTcpPeers.contains peerId)) s
  { s with removePeers := [], keepTcpPeers := [] }

/-- `pending.connId = 0` on the entry that `find_pending` returned. -/
def writePending (connId : ConnId) (pending : PendingTcp) : List PendingTcp → List PendingTcp
  | [] => []
  | p :: ps => if p.connId = connId then pending :: ps else p :: writePending connId pending ps

def handlePendingFrame (env : Env) (s : ServerRuntime) (pending : PendingTcp) (buf : Bytes) (t : Time) : ServerRuntime :=
  let r := handlePendingMessage env s pending buf t
  if r.pending.connId = 0 then
    { r.runtime with
      pendingTcp := (writePending pending.connId r.pending r.runtime.pendingTcp).filter fun p => p.connId ≠ 0 }
  else r.runtime

def applyInbound (env : Env) (s : ServerRuntime) (ev : InboundEvent) (t : Time) : ServerRuntime :=
  match ev.kind with
  | .TcpAccept =>
    { s with pendingTcp := s.pendingTcp ++ [{ connId := ev.connId, addr := ev.addr, connectedAt := t }] }
  | .TcpFrame =>
    match frameTarget s ev with
    | .client id client => handleClientFrame env s id client ev.bytes t
    | .pending pending => handlePendingFrame env s pending ev.bytes t
    | .nobody => s
  | .TcpClosed =>
    let s := { s with pendingTcp := s.pendingTcp.filter fun p => p.connId ≠ ev.connId }
    if ev.peerId ≠ 0 then removeClient env s ev.peerId false
    else
      match findByConn s ev.connId with
      | some ⟨id, client⟩ =>
        removeClient env { s with clients := s.clients.modify id fun c => { c with connId := 0 } } client.peerId false
      | none => s
  | .UdpDatagram => handleUdpPacket s ev.bytes ev.addr t

end ServerRuntime
end CommonwealthMP
