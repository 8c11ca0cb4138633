import CommonwealthMP.RelayAuthority
import CommonwealthMP.Admission

/-! # The shared world and whose messages change it -/
namespace CommonwealthMP
open ByteLayout Binary32 OrderedTables SessionTable

/-- The calendar, the weather, the place of the host and the spawn point. -/
structure SharedWorld where
  gameHour : F32
  gameDaysPassed : F32
  weatherFormId : UInt32
  hostLocation : UInt32
  hostX : F32
  hostY : F32
  hostZ : F32
  spawnLocation : UInt32
  spawnX : F32
  spawnY : F32
  spawnZ : F32
  deriving DecidableEq

def SessionWorld.shared (w : SessionWorld) : SharedWorld where
  gameHour := w.gameHour
  gameDaysPassed := w.gameDaysPassed
  weatherFormId := w.weatherFormId
  hostLocation := w.hostLocation
  hostX := w.hostX
  hostY := w.hostY
  hostZ := w.hostZ
  spawnLocation := w.spawnLocation
  spawnX := w.spawnX
  spawnY := w.spawnY
  spawnZ := w.spawnZ

/-- What a message says about the world: hour, days and weather, where it carries them, and a place. -/
structure WorldReport where
  calendar : Option (F32 × F32 × UInt32)
  location : UInt32
  x : F32
  y : F32
  z : F32

/-- The world after a report of the host: a zero location leaves the known one, the spawn point stays. -/
def WorldReport.apply (r : WorldReport) (w : SharedWorld) : SharedWorld :=
  { w with
    gameHour := r.calendar.elim w.gameHour (·.1)
    gameDaysPassed := r.calendar.elim w.gameDaysPassed (·.2.1)
    weatherFormId := r.calendar.elim w.weatherFormId (·.2.2)
    hostLocation := if r.location ≠ 0 then r.location else w.hostLocation
    hostX := r.x
    hostY := r.y
    hostZ := r.z }

def Hello.report (m : Hello) : WorldReport :=
  ⟨some (m.gameHour, m.gameDaysPassed, m.weatherFormId), m.locationFormId, m.x, m.y, m.z⟩

def WorldSnapshot.report (m : WorldSnapshot) : WorldReport :=
  ⟨some (m.gameHour, m.gameDaysPassed, m.weatherFormId), m.hostLocationFormId, m.hostX, m.hostY, m.hostZ⟩

def PlayerPose.report (m : PlayerPose) : WorldReport := ⟨none, m.locationFormId, m.x, m.y, m.z⟩

def messageReport (kind : InboundKind) (type : Msg) (buf : Bytes) : Option WorldReport :=
  match kind, type with
  | .TcpFrame, .Hello => some (Hello.decode buf).report
  | .TcpFrame, .WorldSnapshot => some (WorldSnapshot.decode buf).report
  | .UdpDatagram, .PlayerPose => some (PlayerPose.decode buf).report
  | _, _ => none

/-- The report an event carries, by its transport and message type. -/
def reportOf (ev : InboundEvent) : Option WorldReport :=
  (openFrame ev.bytes).bind fun frame => messageReport ev.kind frame.2 ev.bytes

namespace ServerRuntime

/-- The event leaves the shared world alone, or it is a report of `p`, who is host. -/
def Reports (s : ServerRuntime) (ev : InboundEvent) (p : PeerId) (s' : ServerRuntime) : Prop :=
  s'.world.shared = s.world.shared ∨
    p = s'.world.hostPeerId ∧ ∃ r, reportOf ev = some r ∧ s'.world.shared = r.apply s.world.shared

theorem Reports.of_world {s s' : ServerRuntime} {ev : InboundEvent} {p : PeerId} (h : s'.world = s.world) : Reports s ev p s' :=
  .inl (congrArg SessionWorld.shared h)

theorem Reports.congr {s s₁ s' : ServerRuntime} {ev : InboundEvent} {p : PeerId} (h : Reports s₁ ev p s')
    (hs : s₁.world.shared = s.world.shared) : Reports s ev p s' := by
  unfold Reports at h ⊢
  rwa [hs] at h

theorem shared_findHost (clients : ClientTable) (world : SessionWorld) : (findHost clients world).2.shared = world.shared := by
  obtain ⟨id, he, -⟩ := findHost_spec clients world
  rw [he]
  rfl

theorem shared_removeClient (env : Env) (s : ServerRuntime) (id : PeerId) (keepTcp : Bool) :
    (removeClient env s id keepTcp).world.shared = s.world.shared := by
  cases h : s.clients.lookup id with
  | none => rw [removeClient_of_absent env h]
  | some client =>
    obtain ⟨persist, he⟩ := removeClient_eq env h keepTcp
    rw [he]
    dsimp only
    rw [shared_findHost]
    split <;> rfl

/-- The world, the settings and the mod list lock are the same. -/
structure Steady (s s' : ServerRuntime) : Prop where
  world : s'.world = s.world
  cfg : s'.cfg = s.cfg
  sessionModHash : s'.sessionModHash = s.sessionModHash

theorem Steady.refl (s : ServerRuntime) : Steady s s := ⟨rfl, rfl, rfl⟩

theorem steady_tcpBlobChunk (env : Env) (s : ServerRuntime) (type : Msg) (id : PeerId) (client : Client) (buf : Bytes) (t : Time) :
    Steady s (tcpBlobChunk env s type id client buf t) := by
  rcases tcpBlobChunk_cases env s type id client buf t with ⟨-, he⟩ | ⟨a, -, -, he⟩ | ⟨a, blob, -, -, he⟩
  · rw [he]
    exact ⟨rfl, rfl, rfl⟩
  · rw [he, setAssemblies_eq]
    exact ⟨rfl, rfl, rfl⟩
  · rw [he, setAssemblies_eq]
    exact ⟨rfl, rfl, rfl⟩

theorem steady_tcpChat (s : ServerRuntime) (client : Client) (buf : Bytes) (t : Time) : Steady s (tcpChat s client buf t) := by
  rcases tcpChat_cases s client buf t with ⟨-, he⟩ | ⟨-, he⟩ <;> rw [he] <;> exact ⟨rfl, rfl, rfl⟩

theorem steady_tcpKick (s : ServerRuntime) (client : Client) (buf : Bytes) : Steady s (tcpKick s client buf) := by
  rcases tcpKick_cases s client buf with he | ⟨other, -, -, he⟩ <;> rw [he] <;> exact ⟨rfl, rfl, rfl⟩

theorem steady_tcpTeleport (s : ServerRuntime) (client : Client) (buf : Bytes) : Steady s (tcpTeleport s client buf) := by
  rcases tcpTeleport_cases s client buf with he | ⟨other, -, -, he⟩ <;> rw [he] <;> exact ⟨rfl, rfl, rfl⟩

theorem steady_tcpHit (s : ServerRuntime) (client : Client) (buf : Bytes) (t : Time) : Steady s (tcpHit s client buf t) := by
  rcases tcpHit_cases s client buf t with he | he | ⟨hit, -, -, -, -, -, -, he⟩ <;> rw [he] <;> exact ⟨rfl, rfl, rfl⟩

theorem steady_helloAgain {s : ServerRuntime} {id : PeerId} {client : Client} (hl : s.clients.lookup id = some client) :
    Steady s (helloAgain s id client) := by
  rw [helloAgain_eq hl]
  exact ⟨rfl, rfl, rfl⟩

theorem shared_tcpWorldSnapshot {s : ServerRuntime} {client : Client} (hh : client.peerId = s.world.hostPeerId) (buf : Bytes) :
    (tcpWorldSnapshot s client buf).world.hostPeerId = s.world.hostPeerId ∧
      (tcpWorldSnapshot s client buf).world.shared = (WorldSnapshot.decode buf).report.apply s.world.shared := by
  unfold tcpWorldSnapshot
  dsimp only
  rw [if_pos hh]
  exact ⟨rfl, rfl⟩

theorem reports_tcpMessage (env : Env) {s : ServerRuntime} {p : PeerId} {client : Client} (hl : s.clients.lookup p = some client)
    (hp : client.peerId = p) {ev : InboundEvent} {header : Header} {type : Msg} (hk : ev.kind = .TcpFrame)
    (ho : openFrame ev.bytes = some (header, type)) (t : Time) :
    Reports s ev p (tcpMessage env s type p client ev.bytes t) := by
  apply tcpMessage_cases (P := Reports s ev p)
  case unhandled => exact .of_world rfl
  case bye => exact fun _ => .of_world rfl
  case hello => exact fun _ => .of_world (steady_helloAgain hl).world
  case snapshot =>
    rintro rfl
    rcases tcpWorldSnapshot_cases s client ev.bytes with ⟨-, he⟩ | ⟨hh, -⟩
    · exact .of_world (by rw [he])
    · obtain ⟨hhost, hw⟩ := shared_tcpWorldSnapshot hh ev.bytes
      refine .inr ⟨by rw [hhost, ← hh, hp], (WorldSnapshot.decode ev.bytes).report, ?_, hw⟩
      rw [reportOf, hk, ho]
      rfl
  case chunk => exact fun _ => .of_world (steady_tcpBlobChunk env s type p client ev.bytes t).world
  case heartbeat => exact fun _ => .of_world rfl
  case chat => exact fun _ => .of_world (steady_tcpChat s client ev.bytes t).world
  case kick => exact fun _ => .of_world (steady_tcpKick s client ev.bytes).world
  case teleport => exact fun _ => .of_world (steady_tcpTeleport s client ev.bytes).world
  case hit => exact fun _ => .of_world (steady_tcpHit s client ev.bytes t).world

theorem reports_handleTcpMessage (env : Env) {s : ServerRuntime} {p : PeerId} {client : Client}
    (hl : s.clients.lookup p = some client) (hp : client.peerId = p) {ev : InboundEvent} (hk : ev.kind = .TcpFrame) (t : Time) :
    Reports s ev p (handleTcpMessage env s p client ev.bytes t) := by
  unfold handleTcpMessage
  cases ho : openFrame ev.bytes with
  | none => exact .of_world rfl
  | some frame =>
    obtain ⟨header, type⟩ := frame
    dsimp only
    split
    · exact .of_world rfl
    · exact reports_tcpMessage env (s := s.seen p t) (lookup_seen hl t) hp hk ho t

theorem reports_handleClientFrame (env : Env) {s : ServerRuntime} (hk : Keyed s.clients) {p : PeerId} {client : Client}
    (hl : s.clients.lookup p = some client) {ev : InboundEvent} (hev : ev.kind = .TcpFrame) (t : Time) :
    Reports s ev p (handleClientFrame env s p client ev.bytes t) := by
  let s₁ : ServerRuntime := { s with removePeers := [], keepTcpPeers := [] }
  have hmsg := reports_handleTcpMessage env (s := s₁) hl (hk p client hl) hev t
  unfold handleClientFrame
  dsimp only
  by_cases hb : ∀ header, openFrame ev.bytes ≠ some (header, .Bye)
  · obtain ⟨-, hr⟩ := handleTcpMessage_simulates env (s := s₁) hk hl ev.bytes t hb
    rw [hr]
    exact hmsg
  · push Not at hb
    obtain ⟨header, ho⟩ := hb
    rw [handleTcpMessage_bye env _ p client ho]
    exact .inl (shared_removeClient env { s.seen p t with removePeers := [] ++ [client.peerId], keepTcpPeers := [] ++ [client.peerId] } _ _)

theorem shared_adoptHostWorld (s : ServerRuntime) (joined : Client) (hello : Hello) :
    (adoptHostWorld s joined hello).world.shared = s.world.shared ∨
      joined.peerId = s.world.hostPeerId ∧ (adoptHostWorld s joined hello).world.shared = hello.report.apply s.world.shared := by
  unfold adoptHostWorld
  by_cases h : joined.peerId = s.world.hostPeerId
  · rw [if_pos h]
    exact .inr ⟨h, rfl⟩
  · rw [if_neg h]
    exact .inl rfl

theorem reports_completeJoin {s : ServerRuntime} {p : PeerId} {joined : Client} (hl : s.clients.lookup p = some joined)
    (hp : joined.peerId = p) (hello : Hello) (rec_ : PlayerRec) :
    (completeJoin s p hello rec_).world.shared = s.world.shared ∨
      p = (completeJoin s p hello rec_).world.hostPeerId ∧
        (completeJoin s p hello rec_).world.shared = hello.report.apply s.world.shared := by
  have hc : (completeJoin s p hello rec_).world = (adoptHostWorld s joined hello).world := by
    rw [completeJoin, hl]
    rfl
  obtain ⟨world, dirty, hash, he, hw⟩ := adoptHostWorld_eq s joined hello
  have hhost : (adoptHostWorld s joined hello).world.hostPeerId = s.world.hostPeerId := by rw [he]; exact hw
  rw [hc]
  refine (shared_adoptHostWorld s joined hello).imp_right fun h => ⟨?_, h.2⟩
  rw [hhost, ← h.1, hp]

theorem steady_softReconnect {s : ServerRuntime} {id : PeerId} {client : Client} (h : s.clients.lookup id = some client)
    (pending : PendingTcp) (hello : Hello) (rec_ : PlayerRec) (t : Time) :
    Steady s (softReconnect s id client pending hello rec_ t) := by
  rw [softReconnect_eq h]
  exact ⟨rfl, rfl, rfl⟩

theorem lookup_softReconnect {s : ServerRuntime} {id : PeerId} {client : Client} (h : s.clients.lookup id = some client)
    (pending : PendingTcp) (hello : Hello) (rec_ : PlayerRec) (t : Time) :
    ∃ joined, (softReconnect s id client pending hello rec_ t).clients.lookup id = some joined ∧ joined.peerId = client.peerId := by
  refine ⟨reconnectedClient pending hello rec_ (makeUdpToken s.udpToken) t (Client.unbound client), ?_,
    (Client.unbound_eq client).2.1⟩
  rw [softReconnect_eq h]
  dsimp only
  rw [Table.lookup_modify_self, h, Option.map_some]

/-- An admitted Hello is a report of the client it admits. -/
theorem reports_admitHello (env : Env) {s : ServerRuntime} (hk : Keyed s.clients) {hello : Hello}
    (hhost : helloRequiresHost hello = true → s.world.hostPeerId ≠ 0) (pending : PendingTcp) (t : Time) {p : PeerId}
    (hx : (admitHello env s pending hello t).exit = .reconnected p ∨
      ∃ fresh, (admitHello env s pending hello t).exit = .joined p fresh) :
    (admitHello env s pending hello t).runtime.world.shared = s.world.shared ∨
      p = (admitHello env s pending hello t).runtime.world.hostPeerId ∧
        (admitHello env s pending hello t).runtime.world.shared = hello.report.apply s.world.shared := by
  cases hf : findByKey s (helloKey hello) with
  | some e =>
    obtain ⟨id, client⟩ := e
    have hl : (enterRecord s hello).clients.lookup id = some client := (findByKey_some hf).1
    rw [admitHello_reconnect env hf] at hx ⊢
    obtain rfl : id = p := by
      rcases hx with hx | ⟨fresh, hx⟩
      · exact PendingExit.reconnected.inj hx
      · cases hx
    obtain ⟨joined, hj, hid⟩ := lookup_softReconnect hl pending hello (helloRecord s hello) t
    have hw := (steady_softReconnect hl pending hello (helloRecord s hello) t).world
    dsimp only
    have h := reports_completeJoin hj (hid.trans (hk id client (findByKey_some hf).1)) hello (helloRecord s hello)
    rw [hw] at h
    exact h
  | none =>
    rw [admitHello_join env hf hhost] at hx ⊢
    obtain rfl : s.nextPeer = p := by
      rcases hx with hx | ⟨fresh, hx⟩
      · cases hx
      · exact (PendingExit.joined.inj hx).1
    dsimp only
    let s₁ := insertJoining env (enterRecord s hello) pending hello (helloRecord s hello) t
    obtain ⟨joined, hj, hid⟩ : ∃ joined, s₁.clients.lookup s.nextPeer = some joined ∧ joined.peerId = s.nextPeer := by
      by_cases hm : s.nextPeer ∈ s.clients
      · obtain ⟨c, hl⟩ := Option.isSome_iff_exists.mp (AList.lookup_isSome.mpr hm)
        refine ⟨c, ?_, hk _ _ hl⟩
        exact (congrArg (AList.lookup s.nextPeer) (Table.emplace_of_mem env.placement _ hm)).trans hl
      · refine ⟨joiningClient (enterRecord s hello) pending hello (helloRecord s hello) t, ?_, rfl⟩
        exact (Table.lookup_emplace env.placement _ hm _).trans (if_pos rfl)
    exact reports_completeJoin (s := (takeHost s₁ s.nextPeer).queue (bindPeer pending.connId s.nextPeer)) hj hid hello
      (helloRecord s hello)

theorem reports_udpPlayerPose {s : ServerRuntime} {p : PeerId} {client : Client} (hp : client.peerId = p) {ev : InboundEvent}
    {header : Header} (hk : ev.kind = .UdpDatagram) (ho : openFrame ev.bytes = some (header, .PlayerPose)) (t : Time) :
    Reports s ev p (udpPlayerPose s p client ev.bytes t) := by
  unfold udpPlayerPose
  dsimp only
  split
  · exact .of_world rfl
  · split
    · rename_i hh
      refine .inr ⟨hp ▸ hh, (PlayerPose.decode ev.bytes).report, ?_, rfl⟩
      rw [reportOf, ho, hk]
      rfl
    · exact .of_world rfl

theorem steady_udpActorPose (s : ServerRuntime) (client : Client) (buf : Bytes) : Steady s (udpActorPose s client buf) := by
  rcases udpActorPose_cases s client buf with he | ⟨_, -, he⟩ <;> rw [he] <;> exact ⟨rfl, rfl, rfl⟩

theorem steady_udpBind {s : ServerRuntime} {buf : Bytes} {id : PeerId} (ha : acceptedBind s buf = some id) (from_ : SockAddr)
    (t : Time) : Steady s (udpBind s buf from_ t) := by
  obtain ⟨-, -, rfl, client, hl, h0, ht⟩ := acceptedBind_some.mp ha
  rw [udpBind_eq hl (not_or.mpr ⟨h0, not_not.mpr ht⟩)]
  exact ⟨rfl, rfl, rfl⟩

theorem reports_handleUdpPacket {s : ServerRuntime} (hk : Keyed s.clients) (hok : Ok s.sessions) {ev : InboundEvent}
    (hev : ev.kind = .UdpDatagram) (t : Time) {p : PeerId}
    (hp : ∀ id, s.udpPeerByAddr.lookup (addrKey ev.addr) = some id → acceptedBind s ev.bytes = none → id = p) :
    Reports s ev p (handleUdpPacket s ev.bytes ev.addr t) := by
  have hcase := handleUdpPacket_cases hok ev.bytes ev.addr t
  generalize handleUdpPacket s ev.bytes ev.addr t = s' at hcase ⊢
  cases hcase with
  | bind id ha => exact .of_world (steady_udpBind (s := s.countDatagram) ha ev.addr t).world
  | ignored badHeaders ha => exact .of_world rfl
  | short id client ha hu hl => exact .of_world rfl
  | playerPose id client header ha hu hl ho =>
    obtain rfl := hp id hu ha
    exact reports_udpPlayerPose (s := s.countDatagram.seen id t) (hk id client hl) hev ho t
  | actorPose id client header ha hu hl ho =>
    exact .of_world (steady_udpActorPose (s.countDatagram.seen id t) _ _).world

/-- The step handles an inbound event of the client `p`: one of a live client, or the Hello that
admits it. -/
inductive OnBehalf (s : ServerRuntime) (i : Env × Input) (p : PeerId) : Prop
  | event (h : Attributed s.ready i.2 p)
  | joined (fresh) (hx : pendingExit s i = some (.joined p fresh))
  | reconnected (hx : pendingExit s i = some (.reconnected p))

theorem reports_pending {s : ServerRuntime} (hw : WellFormed s) {i : Env × Input} {ev : InboundEvent} {t : Time}
    {pending : PendingTcp} (hs : PendingStep s.ready i.2 ev t pending) {p : PeerId}
    (hx : pendingExit s i = some (.reconnected p) ∨ ∃ fresh, pendingExit s i = some (.joined p fresh)) :
    Reports s ev p (s.step i) := by
  obtain ⟨ps, hframe⟩ := handlePendingFrame_eq i.1 s.ready pending ev.bytes t
  have hstep : (s.step i).world = (handlePendingMessage i.1 s.ready pending ev.bytes t).runtime.world := by
    rw [step_pending hs, hframe]
  have hexit : pendingExit s i = some (handlePendingMessage i.1 s.ready pending ev.bytes t).exit :=
    pendingExit_some.mpr ⟨ev, t, pending, hs, rfl⟩
  simp only [hexit, Option.some.injEq] at hx
  unfold Reports
  rw [hstep]
  rcases handlePendingMessage_cases i.1 (s := s.ready) hw.keyed hw.ok pending ev.bytes t with hu | ⟨header, ha, he⟩
  · rw [hu.runtime]
    exact .inl rfl
  · have hhost : helloRequiresHost (readHello ev.bytes) = true → (s.ready.countHello pending t).world.hostPeerId ≠ 0 :=
      fun hr => hostGate_hostPeerId (ha.host hr)
    rw [he] at hx ⊢
    refine (reports_admitHello i.1 (s := s.ready.countHello pending t) hw.keyed hhost pending t hx).imp_right fun h => ?_
    refine ⟨h.1, (Hello.decode ev.bytes).report, ?_, h.2⟩
    rw [reportOf, ha.frame, hs.kind]
    rfl

/-- One step: an event of `p` changes the shared world only as a report of the host `p`. -/
theorem step_reports {s : ServerRuntime} (hw : WellFormed s) {i : Env × Input} {p : PeerId} (h : OnBehalf s i p) :
    ∃ ev t, i.2 = .inbound ev t ∧ Reports s ev p (s.step i) := by
  cases h with
  | event ha =>
    cases ha with
    | frame ev t client hs =>
      refine ⟨ev, t, hs.input, ?_⟩
      rw [ServerRuntime.step, hs.input, handle]
      simp only [applyInbound, hs.kind, hs.target]
      exact reports_handleClientFrame i.1 (s := s.ready) hw.keyed (frameTarget_client hs.target) hs.kind t
    | closed ev t hi hk hc =>
      refine ⟨ev, t, hi, .inl ?_⟩
      rw [ServerRuntime.step, hi, handle]
      simp only [applyInbound, hk]
      split
      · exact shared_removeClient i.1 { s.ready with pendingTcp := _ } _ _
      · split
        · exact shared_removeClient i.1 { s.ready with pendingTcp := _, clients := _ } _ _
        · rfl
    | bind ev t hi hk ha =>
      refine ⟨ev, t, hi, ?_⟩
      rw [ServerRuntime.step, hi, handle]
      simp only [applyInbound, hk]
      refine reports_handleUdpPacket (s := s.ready) hw.keyed hw.ok hk t fun id _ hn => ?_
      rw [ha] at hn
      cases hn
    | datagram ev t hi hk ha hf =>
      refine ⟨ev, t, hi, ?_⟩
      rw [ServerRuntime.step, hi, handle]
      simp only [applyInbound, hk]
      refine reports_handleUdpPacket (s := s.ready) hw.keyed hw.ok hk t fun id hid _ => ?_
      rw [findByUdp_of_ok (s := s.ready) hw.ok, hid] at hf
      exact Option.some.inj hf
  | joined fresh hx =>
    obtain ⟨ev, t, pending, hs, -⟩ := pendingExit_some.mp hx
    exact ⟨ev, t, hs.input, reports_pending hw hs (.inr ⟨fresh, hx⟩)⟩
  | reconnected hx =>
    obtain ⟨ev, t, pending, hs, -⟩ := pendingExit_some.mp hx
    exact ⟨ev, t, hs.input, reports_pending hw hs (.inl hx)⟩

/-- Only the host changes the shared world: an event of a client that is not host before and
after it leaves the world alone, and one of the host leaves it alone or applies its report. -/
theorem host_world_authority (s : ServerRuntime) (hr : Reachable s) (i : Env × Input) (p : PeerId) (h : OnBehalf s i p) :
    (p ≠ s.world.hostPeerId → p ≠ (s.step i).world.hostPeerId → (s.step i).world.shared = s.world.shared) ∧
      ((s.step i).world.shared = s.world.shared ∨
        ∃ ev t r, i.2 = .inbound ev t ∧ reportOf ev = some r ∧ (s.step i).world.shared = r.apply s.world.shared) := by
  obtain ⟨ev, t, hi, hrep⟩ := step_reports hr.wellFormed h
  refine ⟨fun _ hafter => ?_, ?_⟩
  · rcases hrep with hsame | ⟨hhost, -⟩
    · exact hsame
    · exact absurd hhost hafter
  · exact hrep.imp_right fun h => h.2.elim fun r hr => ⟨ev, t, r, hi, hr.1, hr.2⟩

def guestSnapshot : Bytes :=
  (makeWorldSnapshot ⟨0x41900000⟩ ⟨0⟩ 5 7 ⟨0⟩ ⟨0⟩ ⟨0⟩ 2 7 ⟨0⟩ ⟨0⟩ ⟨0⟩ false).encode

theorem host_world_authority_guestSnapshot :
    ((runFrom freshStart twoJoins).step (frameAt 2 2 guestSnapshot)).world.shared =
      (runFrom freshStart twoJoins).world.shared := by
  have hs : ((runFrom freshStart twoJoins).clients.lookup 2).isSome = true := by decide +kernel
  obtain ⟨client, hl⟩ := Option.isSome_iff_exists.mp hs
  have ht : frameTarget (runFrom freshStart twoJoins).ready
      { kind := .TcpFrame, connId := 2, peerId := 2, bytes := guestSnapshot } = .client 2 client := by
    have hst : stampedClient (runFrom freshStart twoJoins).ready
        { kind := .TcpFrame, connId := 2, peerId := 2, bytes := guestSnapshot } = some client := by
      rw [stampedClient, if_pos (by decide), ready_clients]
      exact hl
    rw [frameTarget, hst]
  exact (host_world_authority _ (runFrom_reachable freshStart twoJoins) (frameAt 2 2 guestSnapshot) 2
    (.event (.frame _ _ client ⟨by rw [frameAt], rfl, ht⟩))).1 (by decide +kernel) (by decide +kernel)

end ServerRuntime
end CommonwealthMP
