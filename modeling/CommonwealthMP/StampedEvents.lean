import CommonwealthMP.ServerThreads

/-! # Stamped events

The net thread stamps each event with the peer it knows on the connection when it queues it.
By the time the simulation takes the event up, the stamp may be out of date: the handlers
trust it before they look at the connection. -/
namespace CommonwealthMP
open ByteLayout OrderedTables SessionTable StepRuns
namespace ServerRuntime

/-- No record but that of `id` is touched, and no pending entry leaves. -/
structure Spares (id : PeerId) (s s' : ServerRuntime) : Prop where
  others : ∀ q, q ≠ id → s'.clients.lookup q = s.clients.lookup q
  waiting : ∀ p ∈ s.pendingTcp, p ∈ s'.pendingTcp

theorem Spares.refl (id : PeerId) (s : ServerRuntime) : Spares id s s := ⟨fun _ _ => rfl, fun _ h => h⟩

theorem Spares.trans {id : PeerId} {s s' s'' : ServerRuntime} (h : Spares id s s') (h' : Spares id s' s'') : Spares id s s'' :=
  ⟨fun q hq => (h'.others q hq).trans (h.others q hq), fun p hp => h'.waiting p (h.waiting p hp)⟩

theorem Spares.of_eq {id : PeerId} {s s' : ServerRuntime} (hc : s'.clients = s.clients) (hp : s'.pendingTcp = s.pendingTcp) :
    Spares id s s' := ⟨fun _ _ => by rw [hc], fun _ h => hp ▸ h⟩

theorem Spares.of_modify {id : PeerId} {s s' : ServerRuntime} {f : Client → Client} (hc : s'.clients = s.clients.modify id f)
    (hp : s'.pendingTcp = s.pendingTcp) : Spares id s s' :=
  ⟨fun q hq => by rw [hc, Table.lookup_modify_ne f s.clients hq], fun _ h => hp ▸ h⟩

theorem spares_removeClient (env : Env) (s : ServerRuntime) (id : PeerId) (keepTcp : Bool) :
    Spares id s (removeClient env s id keepTcp) := by
  cases hl : s.clients.lookup id with
  | none =>
    rw [removeClient_of_absent env hl]
    exact .refl id s
  | some client =>
    obtain ⟨persist, he⟩ := removeClient_eq env hl keepTcp
    rw [he]
    refine ⟨fun q hq => ?_, fun p hp => ?_⟩
    · dsimp only
      rw [Table.lookup_erase, if_neg hq]
    · dsimp only [releasePending]
      split
      · exact List.mem_append_left _ hp
      · exact hp

theorem spares_setAssemblies (id : PeerId) (s : ServerRuntime) (type : Msg) (asm : Table PeerId BlobAssembly) :
    Spares id s (s.setAssemblies type asm) := by
  rw [setAssemblies_eq]
  exact .of_eq rfl rfl

theorem spares_tcpBlobChunk (env : Env) (s : ServerRuntime) (type : Msg) (id : PeerId) (client : Client) (buf : Bytes)
    (t : Time) : Spares id s (tcpBlobChunk env s type id client buf t) := by
  have hcount : Spares id s (countChunk s client t) := .of_eq rfl rfl
  rcases tcpBlobChunk_cases env s type id client buf t with ⟨-, he⟩ | ⟨a, -, -, he⟩ | ⟨a, blob, -, -, he⟩
  · rw [he]
    exact hcount
  · rw [he]
    exact hcount.trans (spares_setAssemblies id _ type _)
  · rw [he]
    exact (hcount.trans (spares_setAssemblies id _ type _)).trans (.of_modify (f := Client.storeBlob type blob) rfl rfl)

theorem spares_tcpMessage (env : Env) {s : ServerRuntime} (type : Msg) {id : PeerId} {client : Client}
    (h : s.clients.lookup id = some client) (buf : Bytes) (t : Time) : Spares id s (tcpMessage env s type id client buf t) := by
  apply tcpMessage_cases (P := Spares id s)
  case unhandled => exact .refl id s
  case bye => exact fun _ => .of_eq rfl rfl
  case hello =>
    intro _
    rw [helloAgain_eq h]
    exact .of_modify rfl rfl
  case snapshot =>
    intro _
    rcases tcpWorldSnapshot_cases s client buf with ⟨-, he⟩ | ⟨-, world, -, he⟩ <;> rw [he] <;> exact .of_eq rfl rfl
  case chunk => exact fun _ => spares_tcpBlobChunk env s type id client buf t
  case heartbeat => exact fun _ => .of_eq rfl rfl
  case chat =>
    intro _
    rcases tcpChat_cases s client buf t with ⟨-, he⟩ | ⟨-, he⟩ <;> rw [he] <;> exact .of_eq rfl rfl
  case kick =>
    intro _
    rcases tcpKick_cases s client buf with he | ⟨other, -, -, he⟩ <;> rw [he] <;> exact .of_eq rfl rfl
  case teleport =>
    intro _
    rcases tcpTeleport_cases s client buf with he | ⟨other, -, -, he⟩ <;> rw [he] <;> exact .of_eq rfl rfl
  case hit =>
    intro _
    rcases tcpHit_cases s client buf t with he | he | ⟨hit, -, -, -, -, -, -, he⟩ <;> rw [he] <;> exact .of_eq rfl rfl

theorem spares_handleTcpMessage (env : Env) {s : ServerRuntime} {id : PeerId} {client : Client}
    (h : s.clients.lookup id = some client) (buf : Bytes) (t : Time) :
    Spares id s (handleTcpMessage env s id client buf t) := by
  unfold handleTcpMessage
  split
  · exact .of_eq rfl rfl
  · split
    · exact .refl id s
    · have hseen : Spares id s (s.seen id t) := .of_modify rfl rfl
      exact hseen.trans (spares_tcpMessage env _ (lookup_seen h t) buf t)

theorem spares_handleClientFrame (env : Env) {s : ServerRuntime} (hk : Keyed s.clients) {id : PeerId} {client : Client}
    (h : s.clients.lookup id = some client) (buf : Bytes) (t : Time) :
    Spares id s (handleClientFrame env s id client buf t) := by
  have hmsg := spares_handleTcpMessage env (s := { s with removePeers := [], keepTcpPeers := [] }) h buf t
  unfold handleClientFrame
  dsimp only
  by_cases hb : ∀ header, openFrame buf ≠ some (header, .Bye)
  · obtain ⟨-, hr⟩ := handleTcpMessage_simulates env (s := { s with removePeers := [], keepTcpPeers := [] }) hk h buf t hb
    rw [hr]
    exact ⟨hmsg.others, hmsg.waiting⟩
  · push Not at hb
    obtain ⟨header, ho⟩ := hb
    have hbye := handleTcpMessage_bye env { s with removePeers := [], keepTcpPeers := [] } id client (t := t) ho
    rw [hk id client h] at hbye
    rw [hbye] at hmsg ⊢
    have hgone := hmsg.trans (spares_removeClient env _ id (([] ++ [id] : List PeerId).contains id))
    exact ⟨hgone.others, hgone.waiting⟩

/-- A client whose session a Hello has moved to connection `c`. -/
structure MovedTo (c : ConnId) (client client' : Client) : Prop where
  connId : client'.connId = c
  playerKey : client'.playerKey = client.playerKey

/-- An admitted Hello moves the live client of its key or adds one, and touches nobody else. -/
theorem admitHello_records (env : Env) {s : ServerRuntime} {hello : Hello}
    (hhost : helloRequiresHost hello = true → s.world.hostPeerId ≠ 0) (pending : PendingTcp) (t : Time) {q : PeerId}
    {client : Client} (hl : s.clients.lookup q = some client) :
    (admitHello env s pending hello t).runtime.clients.lookup q = some client ∨
      ((admitHello env s pending hello t).exit = .reconnected q ∧
        ∃ client', (admitHello env s pending hello t).runtime.clients.lookup q = some client' ∧
          MovedTo pending.connId client client') := by
  cases hf : findByKey s (helloKey hello) with
  | some e =>
    obtain ⟨p, moved⟩ := e
    obtain ⟨hp, hkey⟩ := findByKey_some hf
    rw [admitHello_reconnect env hf]
    dsimp only at hp hkey ⊢
    rw [(completeJoin_clients _ p hello _).1, softReconnect_eq (s := enterRecord s hello) hp]
    dsimp only
    by_cases hq : q = p
    · subst hq
      obtain rfl : moved = client := Option.some.inj (hp.symm.trans hl)
      refine .inr ⟨rfl, reconnectedClient pending hello (helloRecord s hello) (makeUdpToken s.udpToken) t
        (Client.unbound moved), ?_, rfl, hkey.symm⟩
      rw [Table.lookup_modify_self, show (enterRecord s hello).clients.lookup q = some moved from hl]
      rfl
    · left
      rw [Table.lookup_modify_ne _ _ hq]
      exact hl
  | none =>
    left
    rw [admitHello_join env hf hhost]
    dsimp only
    rw [(completeJoin_clients _ s.nextPeer hello _).1]
    change (s.clients.emplace env.placement s.nextPeer _).lookup q = some client
    by_cases hnew : s.nextPeer ∈ s.clients
    · rw [Table.emplace, dif_pos hnew]
      exact hl
    · rw [Table.lookup_emplace env.placement _ hnew, if_neg]
      · exact hl
      · rintro rfl
        exact hnew (AList.lookup_isSome.mp (by rw [hl]; rfl))

/-- A pending entry on another connection waits on, and a client there keeps its record unless the
frame moves it here. -/
theorem pending_records {s : ServerRuntime} (hw : WellFormed s) {used : List ConnId} (ho : Owned used s.sessions)
    (h0 : 0 ∉ used) {i : Env × Input} {ev : InboundEvent} {t : Time} {pending : PendingTcp}
    (hs : PendingStep s.ready i.2 ev t pending) :
    (∀ q client, s.clients.lookup q = some client → (s.step i).clients.lookup q = some client ∨
      (pendingExit s i = some (.reconnected q) ∧
        ∃ client', (s.step i).clients.lookup q = some client' ∧ MovedTo pending.connId client client')) ∧
      ∀ p ∈ s.pendingTcp, p.connId ≠ pending.connId → p ∈ (s.step i).pendingTcp := by
  have hp := (findPending_some (frameTarget_pending hs.target).2).1
  have hne : ∀ {p : PendingTcp}, p ∈ s.pendingTcp → p.connId ≠ 0 :=
    fun hm hz => h0 (hz ▸ ho.pending_used (List.mem_map_of_mem hm))
  have hx := pendingExit_of hs
  have hstep := step_pending hs
  rw [handlePendingFrame] at hstep
  dsimp only at hstep
  rcases handlePendingMessage_cases i.1 (s := s.ready) hw.keyed hw.ok pending ev.bytes t with hu | ⟨header, ha, he⟩
  · rw [hu.pending_eq, if_neg (hne hp)] at hstep
    rw [hstep, hu.runtime]
    exact ⟨fun q client hl => .inl hl, fun p hm _ => hm⟩
  · have hhost : helloRequiresHost (readHello ev.bytes) = true → (s.ready.countHello pending t).world.hostPeerId ≠ 0 :=
      fun hr => hostGate_hostPeerId (ha.host hr)
    obtain ⟨hzero, hpending⟩ := admitHello_released i.1 hhost pending t
    rw [he, hzero, if_pos rfl, hpending] at hstep
    rw [he] at hx
    rw [hstep, hx]
    refine ⟨fun q client hl => ?_, fun p hm hpc => mem_writePending hpc (hne hm) hm⟩
    rcases admitHello_records i.1 hhost pending t (s := s.ready.countHello pending t) hl with h | ⟨hexit, h⟩
    · exact .inl h
    · exact .inr ⟨congrArg some hexit, h⟩

theorem removeClient_table (env : Env) (s : ServerRuntime) (id : PeerId) :
    (∀ q, (removeClient env s id false).clients.lookup q = if q = id then none else s.clients.lookup q) ∧
      (removeClient env s id false).pendingTcp = s.pendingTcp := by
  cases hl : s.clients.lookup id with
  | none =>
    rw [removeClient_of_absent env hl]
    refine ⟨fun q => ?_, rfl⟩
    split
    · rename_i hq
      exact hq ▸ hl
    · rfl
  | some client =>
    obtain ⟨persist, he⟩ := removeClient_eq env hl false
    rw [he]
    exact ⟨fun q => Table.lookup_erase id s.clients q, rfl⟩

/-- A close takes out the client it names and the pending entries of its connection. -/
theorem closed_records {s : ServerRuntime} (hk : Keyed s.clients) (env : Env) {ev : InboundEvent} (hev : ev.kind = .TcpClosed)
    (t : Time) :
    (∀ q, (s.step (env, .inbound ev t)).clients.lookup q = if closedPeer s ev = some q then none else s.clients.lookup q) ∧
      (s.step (env, .inbound ev t)).pendingTcp = s.pendingTcp.filter fun p => p.connId ≠ ev.connId := by
  have hstep : s.step (env, .inbound ev t) = applyInbound env s.ready ev t := rfl
  rw [applyInbound_closed env s.ready hev] at hstep
  unfold closedPeer
  by_cases hp : ev.peerId ≠ 0
  · rw [if_pos hp] at hstep ⊢
    obtain ⟨hclients, hpending⟩ := removeClient_table env (withoutPending s.ready ev.connId) ev.peerId
    rw [hstep]
    refine ⟨fun q => ?_, hpending⟩
    rw [hclients]
    refine if_congr ?_ rfl rfl
    exact ⟨fun h => h ▸ rfl, fun h => (Option.some.inj h).symm⟩
  · rw [if_neg hp] at hstep ⊢
    cases hf : findByConn s.ready ev.connId with
    | none =>
      rw [hf] at hstep
      rw [hstep, show findByConn s ev.connId = none from hf]
      exact ⟨fun _ => rfl, rfl⟩
    | some e =>
      obtain ⟨id, client⟩ := e
      obtain ⟨hl, -⟩ := findByConn_some hf
      rw [hf] at hstep
      obtain ⟨hclients, hpending, -⟩ := removeClosed_spec env (s := withoutPending s.ready ev.connId) hk hl hstep
      rw [show findByConn s ev.connId = some ⟨id, client⟩ from hf]
      refine ⟨fun q => ?_, hpending⟩
      rw [hclients, Table.lookup_erase]
      refine if_congr ?_ rfl rfl
      exact ⟨fun h => h ▸ rfl, fun h => (Option.some.inj h).symm⟩

/-- The client on the connection of a close is the one taken out, unless the close names another. -/
theorem closedPeer_of_conn {s : ServerRuntime} {used : List ConnId} (ho : Owned used s.sessions) {ev : InboundEvent}
    {q : PeerId} {client : Client} (hl : s.clients.lookup q = some client) (hc : client.connId = ev.connId)
    (hq : ev.peerId ≠ 0 → q = ev.peerId) : closedPeer s ev = some q := by
  unfold closedPeer
  by_cases hp : ev.peerId ≠ 0
  · rw [if_pos hp, hq hp]
  · rw [if_neg hp]
    cases hf : findByConn s ev.connId with
    | none => exact absurd hc (findByConn_none hf hl)
    | some e =>
      obtain ⟨hl', hc'⟩ := findByConn_some hf
      rw [Option.map_some, client_of_owned ho hl hl' (hc'.trans hc.symm)]

/-- A close that names no other client leaves its connection without an owner. -/
theorem closed_unowned {s : ServerRuntime} (hk : Keyed s.clients) {used : List ConnId} (ho : Owned used s.sessions) (env : Env)
    {ev : InboundEvent} (hev : ev.kind = .TcpClosed) (t : Time)
    (h : ev.peerId ≠ 0 → ∀ q client, s.clients.lookup q = some client → client.connId = ev.connId → q = ev.peerId) :
    ev.connId ∉ ownedConns (s.step (env, .inbound ev t)) := by
  obtain ⟨hclients, hpending⟩ := closed_records hk env hev t
  intro hown
  rcases mem_ownedConns.mp hown with ⟨q, client, hq, hc⟩ | ⟨p, hp, hc⟩
  · rw [hclients] at hq
    split at hq
    · cases hq
    · rename_i hne
      exact hne (closedPeer_of_conn ho hq hc fun hp => h hp q client hq hc)
  · rw [hpending] at hp
    have hne := (List.mem_filter.mp hp).2
    simp [hc] at hne

/-- The stamp of the event fits the clients of this moment: the live client a frame names is on
the connection, and a close names the client of the connection and no other. -/
def StampCurrent (s : ServerRuntime) (ev : InboundEvent) : Prop :=
  ev.peerId ≠ 0 → ∀ q client, s.clients.lookup q = some client →
    (ev.kind = .TcpFrame → q = ev.peerId → client.connId = ev.connId) ∧
      (ev.kind = .TcpClosed → (q = ev.peerId ↔ client.connId = ev.connId))

/-- A frame or close that came from a connection acts for the client or the pending entry on that
connection, if there is one, and for nobody else. -/
structure ActsForOwner (s : ServerRuntime) (i : Env × Input) (ev : InboundEvent) : Prop where
  sender : ev.kind = .TcpFrame → ∀ id client, frameTarget s ev = .client id client →
    s.clients.lookup id = some client ∧ client.connId = ev.connId
  entry : ev.kind = .TcpFrame → ∀ pending, frameTarget s ev = .pending pending →
    pending ∈ s.pendingTcp ∧ pending.connId = ev.connId
  others : ∀ q client, s.clients.lookup q = some client → client.connId ≠ ev.connId →
    (s.step i).clients.lookup q = some client ∨
      (pendingExit s i = some (.reconnected q) ∧
        ∃ client', (s.step i).clients.lookup q = some client' ∧ MovedTo ev.connId client client')
  waiting : ∀ p ∈ s.pendingTcp, p.connId ≠ ev.connId → p ∈ (s.step i).pendingTcp
  closed : ev.kind = .TcpClosed → ev.connId ∉ ownedConns (s.step i)

theorem frameTarget_client_found {s : ServerRuntime} {ev : InboundEvent} {id : PeerId} {client : Client}
    (h : frameTarget s ev = .client id client) :
    (ev.peerId ≠ 0 ∧ id = ev.peerId) ∨ findByConn s ev.connId = some ⟨id, client⟩ := by
  unfold frameTarget at h
  cases hst : stampedClient s ev with
  | some c =>
    rw [hst] at h
    cases h
    refine .inl ⟨fun h0 => ?_, rfl⟩
    rw [stampedClient, if_neg (not_not.mpr h0)] at hst
    cases hst
  | none =>
    rw [hst] at h
    cases hp : findPending s ev.connId with
    | some p =>
      rw [hp] at h
      cases h
    | none =>
      rw [hp] at h
      cases hc : findByConn s ev.connId with
      | some e =>
        rw [hc] at h
        cases h
        exact .inr rfl
      | none =>
        rw [hc] at h
        cases h

theorem actsForOwner_frame {s : ServerRuntime} (hw : WellFormed s) {used : List ConnId} (ho : Owned used s.sessions)
    (h0 : 0 ∉ used) (env : Env) {ev : InboundEvent} (hev : ev.kind = .TcpFrame) (t : Time) (hst : StampCurrent s ev) :
    ActsForOwner s (env, .inbound ev t) ev := by
  have hsender : ∀ id client, frameTarget s ev = .client id client →
      s.clients.lookup id = some client ∧ client.connId = ev.connId := by
    intro id client htarget
    refine ⟨frameTarget_client htarget, ?_⟩
    rcases frameTarget_client_found htarget with ⟨hp, hid⟩ | hf
    · exact (hst hp id client (frameTarget_client htarget)).1 hev hid
    · exact (findByConn_some hf).2
  have hentry : ∀ pending, frameTarget s ev = .pending pending → pending ∈ s.pendingTcp ∧ pending.connId = ev.connId :=
    fun pending htarget => findPending_some (frameTarget_pending htarget).2
  have hnot : ev.kind ≠ .TcpClosed := by
    rw [hev]
    nofun
  cases htarget : frameTarget s ev with
  | client id client =>
    obtain ⟨hl, hconn⟩ := hsender id client htarget
    have hs : ClientStep s.ready (.inbound ev t) ev t id client := ⟨rfl, hev, htarget⟩
    have hsp := spares_handleClientFrame env (s := s.ready) hw.keyed hl ev.bytes t
    rw [← step_client (i := (env, .inbound ev t)) hs] at hsp
    refine ⟨fun _ => hsender, fun _ => hentry, fun q other hq hne => .inl ?_, fun p hp _ => hsp.waiting p hp,
      fun h => absurd h hnot⟩
    have hqid : q ≠ id := by
      rintro rfl
      exact hne (Option.some.inj (hq.symm.trans hl) ▸ hconn)
    exact (hsp.others q hqid).trans hq
  | pending pending =>
    obtain ⟨-, hconn⟩ := hentry pending htarget
    have hs : PendingStep s.ready (.inbound ev t) ev t pending := ⟨rfl, hev, htarget⟩
    obtain ⟨hrecords, hwait⟩ := pending_records hw ho h0 (i := (env, .inbound ev t)) hs
    rw [hconn] at hrecords hwait
    exact ⟨fun _ => hsender, fun _ => hentry, fun q other hq _ => hrecords q other hq, hwait, fun h => absurd h hnot⟩
  | nobody =>
    have hstep : s.step (env, .inbound ev t) = s.ready := by
      simp only [ServerRuntime.step, handle, applyInbound, hev, show frameTarget s.ready ev = .nobody from htarget]
    refine ⟨fun _ => hsender, fun _ => hentry, fun q other hq _ => .inl ?_, fun p hp _ => ?_, fun h => absurd h hnot⟩
    · rw [hstep]
      exact hq
    · rw [hstep]
      exact hp

theorem actsForOwner_closed {s : ServerRuntime} (hw : WellFormed s) {used : List ConnId} (ho : Owned used s.sessions)
    (env : Env) {ev : InboundEvent} (hev : ev.kind = .TcpClosed) (t : Time) (hst : StampCurrent s ev) :
    ActsForOwner s (env, .inbound ev t) ev := by
  obtain ⟨hclients, hpending⟩ := closed_records hw.keyed env hev t
  have hnot : ev.kind ≠ .TcpFrame := by
    rw [hev]
    nofun
  -- the client the close takes out is on the connection
  have hpeer : ∀ q client, s.clients.lookup q = some client → closedPeer s ev = some q → client.connId = ev.connId := by
    intro q client hl h
    unfold closedPeer at h
    by_cases hp : ev.peerId ≠ 0
    · rw [if_pos hp] at h
      exact ((hst hp q client hl).2 hev).mp (Option.some.inj h).symm
    · rw [if_neg hp] at h
      cases hf : findByConn s ev.connId with
      | none =>
        rw [hf] at h
        cases h
      | some e =>
        obtain ⟨hl', hc'⟩ := findByConn_some hf
        rw [hf] at h
        cases h
        exact Option.some.inj (hl'.symm.trans hl) ▸ hc'
  refine ⟨fun h => absurd h hnot, fun h => absurd h hnot, fun q client hl hne => .inl ?_, fun p hp hne => ?_, fun _ => ?_⟩
  · rw [hclients, if_neg fun h => hne (hpeer q client hl h)]
    exact hl
  · rw [hpending]
    exact List.mem_filter.mpr ⟨hp, by simpa using hne⟩
  · exact closed_unowned hw.keyed ho env hev t fun hp q client hl hc => ((hst hp q client hl).2 hev).mpr hc

/-- A frame or close acts for the owner of its connection exactly when its stamp is current. -/
theorem actsForOwner_iff {s : ServerRuntime} (hw : WellFormed s) {used : List ConnId} (ho : Owned used s.sessions)
    (h0 : 0 ∉ used) (env : Env) {ev : InboundEvent} (hev : ev.kind = .TcpFrame ∨ ev.kind = .TcpClosed) (t : Time) :
    ActsForOwner s (env, .inbound ev t) ev ↔ StampCurrent s ev := by
  constructor
  · intro h hp q client hl
    refine ⟨fun hframe hq => ?_, fun hclosed => ?_⟩
    · have htarget : frameTarget s ev = .client q client := by
        rw [frameTarget, stampedClient, if_pos hp, ← hq, hl]
      exact (h.sender hframe q client htarget).2
    · obtain ⟨hclients, -⟩ := closed_records hw.keyed env hclosed t
      have hpeer : closedPeer s ev = some ev.peerId := if_pos hp
      refine ⟨fun hq => ?_, fun hc => ?_⟩
      · -- the client it takes out may not be on another connection
        by_contra hne
        have hgone := hclients q
        rw [hpeer, hq, if_pos rfl] at hgone
        rcases h.others q client hl hne with hkept | ⟨-, client', hkept, -⟩
        · rw [hq, hgone] at hkept
          cases hkept
        · rw [hq, hgone] at hkept
          cases hkept
      · by_contra hne
        refine h.closed hclosed (mem_ownedConns.mpr (.inl ⟨q, client, ?_, hc⟩))
        rw [hclients, hpeer, if_neg fun he => hne (Option.some.inj he).symm]
        exact hl
  · intro hst
    rcases hev with hev | hev
    · exact actsForOwner_frame hw ho h0 env hev t hst
    · exact actsForOwner_closed hw ho env hev t hst

end ServerRuntime

namespace Threads
open ServerRuntime

structure Takes (s : Threads) (a : Action) (env : Env) (t : Time) (ev : InboundEvent) : Prop where
  action : a = .consume env t
  todo : s.todo = []
  head : ∃ inbound, s.inbound.tryPop = some (ev, inbound)
  kind : ev.kind = .TcpFrame ∨ ev.kind = .TcpClosed

theorem Takes.step {s : Threads} {a : Action} {env : Env} {t : Time} {ev : InboundEvent} (h : Takes s a env t ev) :
    (s.step a).sim = s.sim.step (env, .inbound ev t) := by
  obtain ⟨inbound, hpop⟩ := h.head
  simp only [h.action, Threads.step, h.todo, hpop, handleInput]

/-- Whatever event of a connection the step takes up acts for the owner of that connection. -/
def EventActsForOwner (s : Threads) (a : Action) : Prop :=
  ∀ env t ev, Takes s a env t ev → ActsForOwner s.sim (env, .inbound ev t) ev

/-- Whatever event of a connection the step takes up carries a current stamp. -/
def TakesCurrent (s : Threads) (a : Action) : Prop := ∀ env t ev, Takes s a env t ev → StampCurrent s.sim ev

theorem Numbered.eventActsForOwner_iff {used : List ConnId} {s : Threads} (h : Numbered used s) (a : Action) :
    EventActsForOwner s a ↔ TakesCurrent s a := by
  refine forall₃_congr fun env t ev => forall_congr' fun htakes => ?_
  exact actsForOwner_iff h.wf h.owned h.zero_not_mem env htakes.kind t

/-- In every run of the two threads the events act for the owners of their connections exactly
when no stamp is out of date where its event is taken up. -/
theorem events_act_for_owner_iff (b : Startup) (inboundMax outboundMax : ℕ) (as : List Action) :
    AllSteps Threads.step EventActsForOwner (start b inboundMax outboundMax) as ↔
      AllSteps Threads.step TakesCurrent (start b inboundMax outboundMax) as := by
  simp only [allSteps_iff_split]
  refine forall₃_congr fun before a after => forall_congr' fun _ => ?_
  obtain ⟨used, h⟩ := run_numbered b inboundMax outboundMax before
  exact h.eventActsForOwner_iff a

/-- A player joins on connection 1 and comes back on connection 2, whose Hello is queued before
connection 1 hangs up. -/
def reconnectThenHangUp : List Action :=
  joinedOn1 ++ [.process [], .process [], .process [],
    .accept ⟨10, 0, 0, 1, 1001⟩, .deliver, .consume plainEnv 2, .readable 2 (helloFrame (ascii "a")), .deliver,
    .hangUp 1, .deliver, .consume plainEnv 2, .push, .push, .push, .push]

/-- The close of the old connection removes the player, who is on the new one. -/
theorem not_actsForOwner_oldClose :
    ¬ ∀ as, AllSteps Threads.step EventActsForOwner (start freshStart 8192 8192) as := by
  intro hall
  let s := run Threads.step (start freshStart 8192 8192) reconnectThenHangUp
  let ev : InboundEvent := { kind := .TcpClosed, connId := 1, peerId := 1, addr := ⟨10, 0, 0, 1, 1000⟩ }
  have hacts : EventActsForOwner s (.consume plainEnv 2) :=
    allSteps_iff_split.mp (hall (reconnectThenHangUp ++ [.consume plainEnv 2])) reconnectThenHangUp _ [] rfl
  have hhead : s.inbound.items.head? = some ev := by decide +kernel
  have htakes : Takes s (.consume plainEnv 2) plainEnv 2 ev := by
    refine ⟨rfl, by decide +kernel, ?_, .inr rfl⟩
    obtain ⟨rest, hrest⟩ := List.head?_eq_some_iff.mp hhead
    exact ⟨{ s.inbound with items := rest }, by rw [AsyncQueue.tryPop, hrest]⟩
  obtain ⟨client, hl, hc⟩ : ∃ client, s.sim.clients.lookup 1 = some client ∧ client.connId = 2 := by
    have h : (s.sim.clients.lookup 1).any (fun client => client.connId = 2) = true := by decide +kernel
    cases hl : s.sim.clients.lookup 1 with
    | none =>
      rw [hl] at h
      cases h
    | some client =>
      rw [hl] at h
      exact ⟨client, rfl, of_decide_eq_true h⟩
  have hgone : (s.sim.step (plainEnv, .inbound ev 2)).clients.lookup 1 = none := by decide +kernel
  rcases (hacts plainEnv 2 ev htakes).others 1 client hl (by rw [hc]; decide) with h | ⟨-, client', h, -⟩
  · rw [hgone] at h
    cases h
  · rw [hgone] at h
    cases h

end Threads
end CommonwealthMP
