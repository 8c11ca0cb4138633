import CommonwealthMP.ShownPoses

/-! # Relays that come back to their sender

Whatever an event of a client makes the server send is authorized, and goes to other clients.
The poses go to their addresses, so that they come back where another client is bound to the
address of the sender. -/
namespace CommonwealthMP
open ByteLayout Binary32 OrderedTables SessionTable
namespace ServerRuntime

/-- The messages that only ever go to others, by their type byte. -/
def IsRelay (data : Bytes) : Prop :=
  u8At data 4 = Msg.Chat.code ∨ u8At data 4 = Msg.Hit.code ∨ u8At data 4 = Msg.AppearanceChunk.code ∨
    u8At data 4 = Msg.InventoryChunk.code

/-- The datagram is a pose of `p`, or of an actor. -/
def IsPoseRelay (p : PeerId) (data : Bytes) : Prop :=
  u8At data 4 = Msg.PlayerPose.code ∧ (PlayerPose.decode data).peerId = p ∨ u8At data 4 = Msg.ActorPose.code

/-- A relay of `p` that is queued to the connection or to the address of `p`. -/
inductive SentBack (p : PeerId) (client : Client) (cmd : OutboundCmd) : Prop
  | tcp (hk : cmd.kind = .TcpSend) (hr : IsRelay cmd.bytes) (hc : cmd.connId = client.connId)
  | udp (hk : cmd.kind = .UdpSend) (hr : IsPoseRelay p cmd.bytes) (hb : client.udpBound = true) (ha : cmd.addr = client.udpAddr)

/-- An event of a live client makes the server send only what this client may have sent, and
nothing of it back. -/
def RelaySound (s : ServerRuntime) (i : Env × Input) : Prop :=
  ∀ p client, s.clients.lookup p = some client → Attributed s.ready i.2 p → ∀ cmd ∈ (s.step i).outbound,
    Authorized s.clients s.world.hostPeerId s.cfg.pvp (HelloInput i.2) (BindInput s.ready i.2) p cmd ∧ ¬ SentBack p client cmd

/-- Another client in reach is bound to the address of `p`. -/
structure ReachesAddress (s : ServerRuntime) (p : PeerId) (client : Client) (reach : Client → Bool) (q : PeerId)
    (other : Client) : Prop where
  live : s.clients.lookup q = some other
  ne : q ≠ p
  bound : other.udpBound = true
  addr : other.udpAddr = client.udpAddr
  reach : reach other = true

/-- The input is a pose that the server relays to a client with the address of its sender. -/
inductive Echoes (s : ServerRuntime) (i : Env × Input) : Prop
  | pose (ev t p client header q other) (hs : DatagramStep s.ready i.2 ev t p client)
      (ho : openFrame ev.bytes = some (header, .PlayerPose)) (hr : (allowRate s.poseRates (rateKey client) t 30).1 = true)
      (hq : ReachesAddress s p client
        (fun c => (PlayerPose.decode ev.bytes).inInterest true c.lastPose c.havePose s.cfg.interestUu) q other)
  | actor (ev t p client header q other) (hs : DatagramStep s.ready i.2 ev t p client)
      (ho : openFrame ev.bytes = some (header, .ActorPose)) (hp : p = s.world.hostPeerId)
      (hq : ReachesAddress s p client
        (fun c => (ActorPose.decode ev.bytes).inInterest c.lastPose c.havePose s.cfg.interestUu) q other)

theorem not_isRelay (type : Msg) {header : Header} {rest : Bytes} (ht : header.type = type.code)
    (hn : ∀ relay ∈ [Msg.Chat, .Hit, .AppearanceChunk, .InventoryChunk], type.code ≠ relay.code) :
    ¬ IsRelay (header.encode ++ rest) := by
  unfold IsRelay
  rw [u8At_encode_type, ht]
  rintro (h | h | h | h)
  · exact hn .Chat (by decide) h
  · exact hn .Hit (by decide) h
  · exact hn .AppearanceChunk (by decide) h
  · exact hn .InventoryChunk (by decide) h

/-- A relay leaves by another connection than the sender's. -/
theorem Authorized.not_back {clients : ClientTable} {host : PeerId} {pvp : Bool} {hello : Prop} {bound : SockAddr → Prop}
    {p : PeerId} {client : Client} {cmd : OutboundCmd} (h : Authorized clients host pvp hello bound p cmd)
    (hconn : ∀ q other, clients.lookup q = some other → q ≠ p → other.connId ≠ client.connId)
    (hkind : cmd.kind = .TcpSend) (hr : IsRelay cmd.bytes) : cmd.connId ≠ client.connId := by
  cases h with
  | welcome c w hc ht hh => exact absurd hr (not_isRelay .Welcome (by rw [ht]; rfl) (by decide))
  | heartbeat c hb hc ht => exact absurd hr (not_isRelay .Heartbeat (by rw [ht]; rfl) (by decide))
  | greet addr q other ha hq hne => cases hkind
  | keepPending => cases hkind
  | closeConn c hc => cases hkind
  | bye q other hq hne => exact hconn q other hq hne
  | chat q other m hq hne ht hm => exact hconn q other hq hne
  | blob q other type blob k hq hne ht => exact hconn q other hq hne
  | hit q other m hq hne ht hpvp ha hm hd => exact hconn q other hq hne
  | kick q other m hq ht hp hm => exact absurd hr (not_isRelay .Kick ht (by decide))
  | teleport q other m hq ht hp hm => exact absurd hr (not_isRelay .Teleport ht (by decide))
  | pose q other m hq hne hb ht hm => cases hkind
  | actorPose q other m hq hne hb ht hp => cases hkind

/-- A datagram goes to the others that are bound and in reach, and to nobody else. -/
theorem mem_toOthers_reach {clients : ClientTable} {p : PeerId} {reach : Client → Bool} {data : Bytes} (hd : data ≠ [])
    {cmd : OutboundCmd} :
    cmd ∈ toOthers clients p (fun other => if other.udpBound && reach other then sendUdp other data else []) ↔
      ∃ q other, clients.lookup q = some other ∧ q ≠ p ∧ other.udpBound = true ∧ reach other = true ∧
        cmd = toUdp other data := by
  rw [mem_toOthers]
  refine exists_congr fun q => exists_congr fun other => and_congr_right fun _ => and_congr_right fun _ => ?_
  rw [← and_assoc, ← Bool.and_eq_true]
  split
  · rename_i h
    have hb := (Bool.and_eq_true _ _ ▸ h).1
    rw [sendUdp, if_pos hb, sendUdpAddr, if_neg hd, List.mem_singleton]
    exact (and_iff_right h).symm
  · rename_i h
    exact iff_of_false List.not_mem_nil fun hc => h hc.1

theorem udpPlayerPose_outbound (s : ServerRuntime) (id : PeerId) (client : Client) (buf : Bytes) {t : Time}
    (hr : (allowRate s.poseRates (rateKey client) t 30).1 = true) :
    (udpPlayerPose s id client buf t).outbound = s.outbound ++ toOthers
      (s.clients.modify id fun c =>
        { c with posesIn := c.posesIn + 1, lastPose := relayedPose client buf, havePose := true }) client.peerId
      fun other => if other.udpBound && (PlayerPose.decode buf).inInterest true other.lastPose other.havePose s.cfg.interestUu
        then sendUdp other (relayedPose client buf).encode else [] := by
  unfold udpPlayerPose
  dsimp only
  rw [hr, if_neg (by decide)]
  split <;> rfl

theorem udpActorPose_outbound (s : ServerRuntime) (client : Client) (buf : Bytes) (hhost : client.peerId = s.world.hostPeerId) :
    (udpActorPose s client buf).outbound = s.outbound ++ toOthers s.clients client.peerId fun other =>
      if other.udpBound && (ActorPose.decode buf).inInterest other.lastPose other.havePose s.cfg.interestUu
        then sendUdp other (relayedActor buf).encode else [] := by
  unfold udpActorPose
  rw [if_neg (not_not.mpr hhost)]
  rfl

theorem encode_actor_ne_nil (m : ActorPose) : m.encode ≠ [] := fun h => by
  have := congrArg List.length h
  simp [ActorPose.encode] at this

theorem step_actor {s : ServerRuntime} (hw : WellFormed s) {i : Env × Input} {ev : InboundEvent} {t : Time} {p : PeerId}
    {client : Client} {header : Header} (hs : DatagramStep s.ready i.2 ev t p client)
    (ho : openFrame ev.bytes = some (header, .ActorPose)) :
    s.step i = udpActorPose (s.ready.countDatagram.seen p t) { client with lastSeen := t } ev.bytes := by
  obtain ⟨env, i⟩ := i
  have hi : i = .inbound ev t := hs.input
  subst hi
  have hlen : sizeofActorPose ≤ ev.bytes.length := Joint.openFrame_length ho fun _ => of_decide_eq_true
  have hfind : findByUdp s.ready.countDatagram ev.addr = (some p, s.ready.countDatagram) := by
    rw [findByUdp_of_ok (s := s.ready.countDatagram) hw.ok]
    exact congrArg (fun q => (q, s.ready.countDatagram)) hs.bound
  have hseen : (s.ready.countDatagram.seen p t).clients.lookup p = some { client with lastSeen := t } :=
    lookup_seen (s := s.ready.countDatagram) hs.live t
  simp only [ServerRuntime.step, handle, applyInbound, hs.kind, handleUdpPacket, ho]
  rw [if_neg (by decide), if_neg (by simp), hfind]
  dsimp only
  rw [hseen]
  dsimp only
  rw [if_neg (by simp), if_pos (by simpa using hlen)]

theorem mem_step_pose {s : ServerRuntime} (hw : WellFormed s) {i : Env × Input} {ev : InboundEvent} {t : Time} {p : PeerId}
    {client : Client} {header : Header} (hs : DatagramStep s.ready i.2 ev t p client)
    (ho : openFrame ev.bytes = some (header, .PlayerPose)) (hr : (allowRate s.poseRates (rateKey client) t 30).1 = true)
    {cmd : OutboundCmd} :
    cmd ∈ (s.step i).outbound ↔ ∃ q other, s.clients.lookup q = some other ∧ q ≠ p ∧ other.udpBound = true ∧
      (PlayerPose.decode ev.bytes).inInterest true other.lastPose other.havePose s.cfg.interestUu = true ∧
        cmd = toUdp other (relayedPose client ev.bytes).encode := by
  have hid : client.peerId = p := hw.keyed p client hs.live
  rw [step_pose hw hs ho, udpPlayerPose_outbound (s.ready.countDatagram.seen p t) p { client with lastSeen := t } ev.bytes hr]
  show cmd ∈ [] ++ _ ↔ _
  rw [List.nil_append, mem_toOthers_reach (encode_pose_ne_nil _)]
  subst hid
  have hlook {q : PeerId} (hne : q ≠ client.peerId) (f : Client → Client) :
      ((s.ready.countDatagram.seen client.peerId t).clients.modify client.peerId f).lookup q = s.clients.lookup q := by
    rw [Table.lookup_modify_ne _ _ hne]
    exact Table.lookup_modify_ne _ _ hne
  refine exists_congr fun q => exists_congr fun other => ?_
  constructor
  · rintro ⟨hq, hne, h⟩
    exact ⟨(hlook hne _).symm.trans hq, hne, h⟩
  · rintro ⟨hq, hne, h⟩
    exact ⟨(hlook hne _).trans hq, hne, h⟩

theorem mem_step_actor {s : ServerRuntime} (hw : WellFormed s) {i : Env × Input} {ev : InboundEvent} {t : Time} {p : PeerId}
    {client : Client} {header : Header} (hs : DatagramStep s.ready i.2 ev t p client)
    (ho : openFrame ev.bytes = some (header, .ActorPose)) (hp : p = s.world.hostPeerId) {cmd : OutboundCmd} :
    cmd ∈ (s.step i).outbound ↔ ∃ q other, s.clients.lookup q = some other ∧ q ≠ p ∧ other.udpBound = true ∧
      (ActorPose.decode ev.bytes).inInterest other.lastPose other.havePose s.cfg.interestUu = true ∧
        cmd = toUdp other (relayedActor ev.bytes).encode := by
  have hid : client.peerId = p := hw.keyed p client hs.live
  rw [step_actor hw hs ho,
    udpActorPose_outbound (s.ready.countDatagram.seen p t) { client with lastSeen := t } ev.bytes (hid.trans hp)]
  show cmd ∈ [] ++ _ ↔ _
  rw [List.nil_append, mem_toOthers_reach (encode_actor_ne_nil _)]
  subst hid
  refine exists_congr fun q => exists_congr fun other => ?_
  constructor
  · rintro ⟨hq, hne, h⟩
    exact ⟨(Table.lookup_modify_ne _ _ hne).symm.trans hq, hne, h⟩
  · rintro ⟨hq, hne, h⟩
    exact ⟨(Table.lookup_modify_ne _ _ hne).trans hq, hne, h⟩

theorem DatagramStep.bound_addr {s : ServerRuntime} (hw : WellFormed s) {i : Input} {ev : InboundEvent} {t : Time} {p : PeerId}
    {client : Client} (hs : DatagramStep s.ready i ev t p client) : client.udpBound = true ∧ client.udpAddr = ev.addr := by
  obtain ⟨e, he, ha⟩ := hw.ok.udp_sound (show s.sessions.udp (addrKey ev.addr) = some p from hs.bound)
  rw [show s.sessions.live p = some (endpointOf client) from liveOf_some hs.live] at he
  cases he
  obtain ⟨hb, haddr⟩ := endpointOf_udp.mp ha
  exact ⟨hb, addrKey_injective haddr⟩

theorem DatagramStep.attributed {s : ServerRuntime} (hw : WellFormed s) {i : Input} {ev : InboundEvent} {t : Time} {p : PeerId}
    {client : Client} (hs : DatagramStep s.ready i ev t p client) : Attributed s.ready i p :=
  .datagram ev t hs.input hs.kind hs.noBind (by rw [findByUdp_of_ok (s := s.ready) hw.ok, hs.bound])

theorem step_udp {s : ServerRuntime} {i : Env × Input} {ev : InboundEvent} {t : Time} (hi : i.2 = .inbound ev t)
    (hk : ev.kind = .UdpDatagram) : s.step i = handleUdpPacket s.ready ev.bytes ev.addr t := by
  simp only [ServerRuntime.step, handle, hi, applyInbound, hk]

/-- The poses that a UdpBind of `p` is answered with are not poses of `p`. -/
theorem not_isPoseRelay_bind {s : ServerRuntime} (hw : WellFormed s) (hposed : Posed s) {buf : Bytes} {p : PeerId}
    (ha : acceptedBind s.ready buf = some p) {from_ : SockAddr} {t : Time} {cmd : OutboundCmd}
    (hc : cmd ∈ (udpBind s.ready.countDatagram buf from_ t).outbound) : ¬ IsPoseRelay p cmd.bytes := by
  obtain ⟨-, -, rfl, client, hl, h0, ht⟩ := acceptedBind_some.mp ha
  rw [udpBind_eq (s := s.ready.countDatagram) hl (by rw [not_or]; exact ⟨h0, not_not.mpr ht⟩), hw.keyed _ client hl] at hc
  rcases List.mem_append.mp hc with hc | hc
  · cases hc
  obtain ⟨q, other, hq, hne, hm⟩ := mem_toOthers.mp hc
  rw [Table.lookup_modify_ne _ _ hne] at hq
  split at hm
  · obtain ⟨-, rfl⟩ := mem_sendUdp hm
    rintro (⟨-, hid⟩ | htype)
    · rw [show (toUdp _ other.lastPose.encode).bytes = other.lastPose.encode from rfl, Angles.decode_encode_playerPose,
        hposed.peerId q other hq] at hid
      exact hne hid
    · rw [show (toUdp _ other.lastPose.encode).bytes = other.lastPose.encode from rfl, PlayerPose.encode, u8At_encode_type,
        hposed.header q other hq] at htype
      exact absurd htype (by decide)
  · cases hm

/-- One step: a pose of `p` that the server queues to the address of `p` is one it relays to a
client that has this address. -/
theorem echoes_of_sentBack {s : ServerRuntime} (hw : WellFormed s) (hposed : Posed s) {i : Env × Input} {p : PeerId}
    {client : Client} (hl : s.clients.lookup p = some client) (ha : Attributed s.ready i.2 p) {cmd : OutboundCmd}
    (hc : cmd ∈ (s.step i).outbound) (hk : cmd.kind = .UdpSend) (hr : IsPoseRelay p cmd.bytes)
    (haddr : cmd.addr = client.udpAddr) : Echoes s i := by
  cases ha with
  | frame ev t client' hs =>
    rw [step_client hs] at hc
    rcases emits_handleClientFrame i.1 (s := s.ready) hw.keyed (frameTarget_client hs.target) ev.bytes t cmd hc with
      h | h | ⟨header, type, ho, q, c, data, hq, hsent, rfl⟩
    · cases h
    · exact absurd hk h.notUdp
    · cases hk
  | closed ev t hi hev hclosed =>
    simp only [ServerRuntime.step, handle, hi, applyInbound, hev] at hc
    split at hc
    · exact absurd hk ((emits_removeClient i.1 _ _ _ cmd hc).resolve_left List.not_mem_nil).notUdp
    · split at hc
      · exact absurd hk ((emits_removeClient i.1 _ _ _ cmd hc).resolve_left List.not_mem_nil).notUdp
      · cases hc
  | bind ev t hi hev hb =>
    have hcase := handleUdpPacket_cases (s := s.ready) hw.ok ev.bytes ev.addr t
    rw [step_udp hi hev] at hc
    generalize handleUdpPacket s.ready ev.bytes ev.addr t = s' at hcase hc
    cases hcase with
    | bind id hid => exact absurd hr (not_isPoseRelay_bind hw hposed hb hc)
    | ignored badHeaders hno => cases hc
    | short id c hno hu hq => cases hno.symm.trans hb
    | playerPose id c header hno hu hq ho => cases hno.symm.trans hb
    | actorPose id c header hno hu hq ho => cases hno.symm.trans hb
  | datagram ev t hi hev hb hf =>
    rw [findByUdp_of_ok (s := s.ready) hw.ok] at hf
    have hs : DatagramStep s.ready i.2 ev t p client := ⟨hi, hev, hb, hf, hl⟩
    have hcase := handleUdpPacket_cases (s := s.ready) hw.ok ev.bytes ev.addr t
    have hc' := hc
    rw [step_udp hi hev] at hc'
    generalize handleUdpPacket s.ready ev.bytes ev.addr t = s' at hcase hc'
    cases hcase with
    | bind id hid => cases hb.symm.trans hid
    | ignored badHeaders hno => cases hc'
    | short id c hno hu hq => cases hc'
    | playerPose id c header hno hu hq ho =>
      obtain rfl : id = p := Option.some.inj (hu.symm.trans hf)
      obtain rfl : c = client := Option.some.inj (hq.symm.trans hl)
      by_cases hrate : (allowRate s.poseRates (rateKey c) t 30).1 = true
      · obtain ⟨q, other, hq, hne, hbound, hin, rfl⟩ := (mem_step_pose hw hs ho hrate).mp hc
        exact .pose ev t id c header q other hs ho hrate ⟨hq, hne, hbound, haddr, hin⟩
      · rcases udpPlayerPose_cases (s.ready.countDatagram.seen id t) id { c with lastSeen := t } ev.bytes t with
          ⟨-, he⟩ | ⟨hok, -⟩
        · rw [he] at hc'
          cases hc'
        · exact absurd hok hrate
    | actorPose id c header hno hu hq ho =>
      obtain rfl : id = p := Option.some.inj (hu.symm.trans hf)
      obtain rfl : c = client := Option.some.inj (hq.symm.trans hl)
      rcases udpActorPose_cases (s.ready.countDatagram.seen id t) { c with lastSeen := t } ev.bytes with he | ⟨_, hhost, -⟩
      · rw [he] at hc'
        cases hc'
      · have hp : id = s.world.hostPeerId := (hw.keyed id c hl).symm.trans hhost
        obtain ⟨q, other, hq, hne, hbound, hin, rfl⟩ := (mem_step_actor hw hs ho hp).mp hc
        exact .actor ev t id c header q other hs ho hp ⟨hq, hne, hbound, haddr, hin⟩

/-- One step: a pose that reaches the address of its sender is sent back. -/
theorem sentBack_of_echoes {s : ServerRuntime} (hw : WellFormed s) {i : Env × Input} (h : Echoes s i) :
    ∃ p client, s.clients.lookup p = some client ∧ Attributed s.ready i.2 p ∧
      ∃ cmd ∈ (s.step i).outbound, SentBack p client cmd := by
  cases h with
  | pose ev t p client header q other hs ho hr hq =>
    refine ⟨p, client, hs.live, hs.attributed hw, _,
      (mem_step_pose hw hs ho hr).mpr ⟨q, other, hq.live, hq.ne, hq.bound, hq.reach, rfl⟩, ?_⟩
    refine .udp rfl (.inl ⟨u8At_encode_type _ _, ?_⟩) (hs.bound_addr hw).1 hq.addr
    show (PlayerPose.decode (relayedPose client ev.bytes).encode).peerId = p
    rw [Angles.decode_encode_playerPose]
    exact hw.keyed p client hs.live
  | actor ev t p client header q other hs ho hp hq =>
    exact ⟨p, client, hs.live, hs.attributed hw, _,
      (mem_step_actor hw hs ho hp).mpr ⟨q, other, hq.live, hq.ne, hq.bound, hq.reach, rfl⟩,
      .udp rfl (.inr (u8At_encode_type _ _)) (hs.bound_addr hw).1 hq.addr⟩

/-- In every run, what the events of live clients make the server send is authorized and goes
to others, exactly when no pose is relayed to a client that has the address of its sender. -/
theorem relay_authority_iff (b : Startup) (is : List (Env × Input)) (hf : FreshAccepts is) :
    StepRuns.AllSteps step RelaySound b.runtime is ↔ StepRuns.AllSteps step (fun s i => ¬ Echoes s i) b.runtime is := by
  rw [StepRuns.allSteps_iff_split, StepRuns.allSteps_iff_split]
  refine forall_congr' fun before => forall_congr' fun i => forall_congr' fun after => forall_congr' fun he => ?_
  have hr := runFrom_reachable b before
  have hown := run_owned b (show FreshAccepts before by subst he; exact freshAccepts_of_append hf)
  show RelaySound (runFrom b before) i ↔ ¬ Echoes (runFrom b before) i
  constructor
  · intro h hecho
    obtain ⟨p, client, hl, ha, cmd, hc, hback⟩ := sentBack_of_echoes hr.wellFormed hecho
    exact (h p client hl ha cmd hc).2 hback
  · intro h p client hl ha cmd hc
    have hauth := step_authorized hr.wellFormed ha hc
    refine ⟨hauth, fun hback => ?_⟩
    cases hback with
    | tcp hk hrelay hconn =>
      refine hauth.not_back (fun q other hq hne he => hne ?_) hk hrelay hconn
      exact hown.conn_unique (liveOf_some hq) (liveOf_some hl) he
    | udp hk hrelay hb haddr => exact h (echoes_of_sentBack hr.wellFormed hr.posed hl ha hc hk hrelay haddr)

/-- A step echoes only where two clients are bound to one address. -/
theorem Echoes.shared {s : ServerRuntime} (hw : WellFormed s) {i : Env × Input} (h : Echoes s i) :
    ∃ p q a, p ≠ q ∧ BoundAt s p a ∧ BoundAt s q a := by
  have shared {ev : InboundEvent} {t : Time} {p q : PeerId} {client other : Client} {reach : Client → Bool}
      (hs : DatagramStep s.ready i.2 ev t p client) (hq : ReachesAddress s p client reach q other) :
      ∃ p q a, p ≠ q ∧ BoundAt s p a ∧ BoundAt s q a :=
    ⟨p, q, addrKey client.udpAddr, hq.ne.symm, ⟨client, hs.live, (hs.bound_addr hw).1, rfl⟩,
      ⟨other, hq.live, hq.bound, congrArg addrKey hq.addr⟩⟩
  cases h with
  | pose ev t p client header q other hs ho hr hq => exact shared hs hq
  | actor ev t p client header q other hs ho hp hq => exact shared hs hq

/-- A run in which no client takes the address of another has no echoes. -/
theorem noEchoes_of_noTakes (b : Startup) (is : List (Env × Input))
    (h : StepRuns.AllSteps step (fun s i => ¬ TakesAddress s i) b.runtime is) :
    StepRuns.AllSteps step (fun s i => ¬ Echoes s i) b.runtime is := by
  refine StepRuns.allSteps_iff_split.mpr fun before i after he hecho => ?_
  have hI := StepRuns.run_invariant (I := fun s => WellFormed s ∧ Inverse s.sessions)
    (fun s i hs hi => ⟨hs.1.step i, (step_inverse_iff hs.1 hs.2 i).mpr hi⟩) ⟨wellFormed_initial b, inverse_initial b⟩
    ((StepRuns.allSteps_append before (i :: after)).mp (he ▸ h)).1
  obtain ⟨p, q, a, hne, hp, hq⟩ := hecho.shared hI.1
  exact hne ((addressTable_of_inverse hI.1 hI.2).address_unique a p q hp hq)

/-- A chat line that claims to come from another peer. -/
def forgedChat : Bytes := (makeChat 7 (ascii "hello")).encode

/-- Every step of the run in which a player sends it is sound. -/
theorem relay_authority_iff_forgedChat :
    StepRuns.AllSteps step RelaySound freshStart.runtime (twoJoins ++ [frameAt 1 1 forgedChat]) := by
  refine (relay_authority_iff freshStart _ (by unfold FreshAccepts; decide)).mpr (noEchoes_of_noTakes _ _ ?_)
  refine StepRuns.allSteps_iff_split.mpr fun before i after he => ?_
  have hmem : i ∈ twoJoins ++ [frameAt 1 1 forgedChat] := he ▸ List.mem_append_right _ List.mem_cons_self
  rintro ⟨ev, t, p, q, hi, hk, -⟩
  simp only [twoJoins, List.cons_append, List.nil_append, List.mem_cons, List.not_mem_nil, or_false] at hmem
  rcases hmem with rfl | rfl | rfl | rfl | rfl <;> cases hi <;> cases hk

def poseTwo : Bytes := (makePose 2 kCommonwealthWorldspace kSanctuaryX kSanctuaryY kSanctuaryZ ⟨0⟩).encode

/-- When both players have bound from one address, the pose of the second is relayed to this address, which is its own. -/
theorem not_relaySound_sharedAddress :
    ¬ ∀ b is, FreshAccepts is → ∀ i, RelaySound (runFrom b is) i := by
  intro h
  have hsound := h freshStart sharedAddress (by unfold FreshAccepts; decide) (datagramAt ⟨10, 0, 0, 1, 2000⟩ poseTwo)
  have htwo : ((runFrom freshStart sharedAddress).clients.lookup 2).map (fun c =>
      (c.udpAddr, (allowRate (runFrom freshStart sharedAddress).poseRates (rateKey c) 1 30).1)) =
        some (⟨10, 0, 0, 1, 2000⟩, true) := by
    decide +kernel
  have hone : ((runFrom freshStart sharedAddress).clients.lookup 1).map (fun c => (c.udpBound, c.udpAddr,
      (PlayerPose.decode poseTwo).inInterest true c.lastPose c.havePose (runFrom freshStart sharedAddress).cfg.interestUu)) =
        some (true, ⟨10, 0, 0, 1, 2000⟩, true) := by
    decide +kernel
  have haddr : (runFrom freshStart sharedAddress).udpPeerByAddr.lookup (addrKey ⟨10, 0, 0, 1, 2000⟩) = some 2 := by
    decide +kernel
  have hbind : acceptedBind (runFrom freshStart sharedAddress).ready poseTwo = none := by decide +kernel
  have hw := (runFrom_reachable freshStart sharedAddress).wellFormed
  generalize runFrom freshStart sharedAddress = s at hsound htwo hone haddr hbind hw
  obtain ⟨client, hclient, hc⟩ := Option.map_eq_some_iff.mp htwo
  obtain ⟨other, hother, ho⟩ := Option.map_eq_some_iff.mp hone
  simp only [Prod.mk.injEq] at hc ho
  have hs : DatagramStep s.ready (datagramAt ⟨10, 0, 0, 1, 2000⟩ poseTwo).2
      { kind := .UdpDatagram, addr := ⟨10, 0, 0, 1, 2000⟩, bytes := poseTwo } 1 2 client :=
    ⟨rfl, rfl, hbind, haddr, hclient⟩
  have hecho : Echoes s (datagramAt ⟨10, 0, 0, 1, 2000⟩ poseTwo) :=
    .pose _ _ _ client (fillHeader .PlayerPose 56) 1 other hs (openFrame_fill rfl rfl) hc.2
      ⟨hother, by decide, ho.1, ho.2.1.trans hc.1.symm, ho.2.2⟩
  obtain ⟨p, c, hl, ha, cmd, hm, hback⟩ := sentBack_of_echoes hw hecho
  exact (hsound p c hl ha cmd hm).2 hback

end ServerRuntime
end CommonwealthMP
