import CommonwealthMP.Welcomes

/-! # What a step tells the net thread

The messages of a step go to connections that the runtime owned before it, and apart from
departures and joins a step queues nothing but messages. -/
namespace CommonwealthMP
open ByteLayout Binary32 OrderedTables SessionTable
namespace ServerRuntime

/-- The messages that some commands send on a connection. -/
def framesTo (k : ConnId) (cmds : List OutboundCmd) : List Bytes :=
  (cmds.filter fun cmd => cmd.kind = .TcpSend ∧ cmd.connId = k).map (·.bytes)

@[simp] theorem framesTo_append (k : ConnId) (l l' : List OutboundCmd) : framesTo k (l ++ l') = framesTo k l ++ framesTo k l' := by
  simp [framesTo]

theorem mem_framesTo {k : ConnId} {cmds : List OutboundCmd} {buf : Bytes} :
    buf ∈ framesTo k cmds ↔ ∃ cmd ∈ cmds, cmd.kind = .TcpSend ∧ cmd.connId = k ∧ cmd.bytes = buf := by
  simp [framesTo, and_assoc]

theorem framesTo_eq_nil {k : ConnId} {cmds : List OutboundCmd} (h : ∀ cmd ∈ cmds, cmd.kind = .TcpSend → cmd.connId ≠ k) :
    framesTo k cmds = [] := by
  rw [framesTo, List.map_eq_nil_iff, List.filter_eq_nil_iff]
  intro cmd hm hk
  have hk := of_decide_eq_true hk
  exact h cmd hm hk.1 hk.2

theorem mem_ownedConns_sessions {s : ServerRuntime} {c : ConnId} :
    c ∈ ownedConns s ↔ (∃ i e, s.sessions.live i = some e ∧ e.conn = c) ∨ c ∈ s.sessions.pending := by
  rw [ownedConns, List.mem_append, List.mem_map]
  refine or_congr ⟨?_, ?_⟩ Iff.rfl
  · rintro ⟨client, hm, rfl⟩
    obtain ⟨id, hl⟩ := Table.mem_values.mp hm
    exact ⟨id, endpointOf client, liveOf_some hl, rfl⟩
  · rintro ⟨id, e, he, rfl⟩
    obtain ⟨client, hl, rfl⟩ := liveOf_eq_some.mp he
    exact ⟨client, Table.lookup_mem_values hl, rfl⟩

theorem mem_ownedConns {s : ServerRuntime} {c : ConnId} :
    c ∈ ownedConns s ↔ (∃ id client, s.clients.lookup id = some client ∧ client.connId = c) ∨
      ∃ p ∈ s.pendingTcp, p.connId = c := by
  rw [ownedConns, List.mem_append, List.mem_map, List.mem_map]
  refine or_congr ⟨?_, ?_⟩ Iff.rfl
  · rintro ⟨client, hm, rfl⟩
    obtain ⟨id, hl⟩ := Table.mem_values.mp hm
    exact ⟨id, client, hl, rfl⟩
  · rintro ⟨id, client, hl, rfl⟩
    exact ⟨client, Table.lookup_mem_values hl, rfl⟩

theorem owned_client {s : ServerRuntime} {p : PeerId} {c : Client} (h : s.clients.lookup p = some c) :
    c.connId ∈ ownedConns s := mem_ownedConns.mpr (.inl ⟨p, c, h, rfl⟩)

theorem owned_pending {s : ServerRuntime} {p : PendingTcp} (h : p ∈ s.pendingTcp) : p.connId ∈ ownedConns s :=
  mem_ownedConns.mpr (.inr ⟨p, h, rfl⟩)

theorem Quiet.ownedConns {s s' : ServerRuntime} (h : Quiet s s') (c : ConnId) :
    c ∈ ServerRuntime.ownedConns s' ↔ c ∈ ServerRuntime.ownedConns s := by
  rw [mem_ownedConns_sessions, mem_ownedConns_sessions, h.sessions]

/-- The connection of a client is no other client's and waits nowhere. -/
theorem client_of_owned {used : List ConnId} {s : ServerRuntime} (ho : Owned used s.sessions) {id : PeerId} {client : Client}
    (h : s.clients.lookup id = some client) {j : PeerId} {other : Client} (hj : s.clients.lookup j = some other)
    (hc : other.connId = client.connId) : j = id :=
  ho.conn_unique (liveOf_some hj) (liveOf_some h) hc

theorem not_pending_of_owned {used : List ConnId} {s : ServerRuntime} (ho : Owned used s.sessions) {id : PeerId}
    {client : Client} (h : s.clients.lookup id = some client) {p : PendingTcp} (hp : p ∈ s.pendingTcp) :
    p.connId ≠ client.connId := by
  intro he
  refine ho.not_pending (liveOf_some h) ?_
  rw [endpointOf_conn, ← he]
  exact List.mem_map_of_mem hp

/-- A TcpSend names a connection the runtime owns. -/
def ToOwned (s : ServerRuntime) (cmd : OutboundCmd) : Prop := cmd.kind = .TcpSend → cmd.connId ∈ ownedConns s

def SendsToOwned (s s' : ServerRuntime) : Prop := ∀ cmd ∈ s'.outbound, cmd ∈ s.outbound ∨ ToOwned s cmd

theorem toOwned_of_kind {s : ServerRuntime} {cmd : OutboundCmd} (h : cmd.kind ≠ .TcpSend) : ToOwned s cmd :=
  fun hk => absurd hk h

theorem toOwned_toTcp {s : ServerRuntime} {q : PeerId} {client : Client} (h : s.clients.lookup q = some client) (data : Bytes) :
    ToOwned s (toTcp client data) := fun _ => owned_client h

theorem Authorized.toOwned {s : ServerRuntime} {host : PeerId} {pvp : Bool} {hello : Prop} {bound : SockAddr → Prop}
    {p : PeerId} {cmd : OutboundCmd} (h : Authorized s.clients host pvp hello bound p cmd) : ToOwned s cmd := by
  cases h with
  | welcome client w hl ht hh => exact toOwned_toTcp hl _
  | heartbeat client hb hl ht => exact toOwned_toTcp hl _
  | greet addr q other ha hl hq => exact toOwned_of_kind nofun
  | keepPending => exact toOwned_of_kind nofun
  | closeConn client hl => exact toOwned_of_kind nofun
  | bye q other hl hq => exact toOwned_toTcp hl _
  | chat q other m hl hq ht hm => exact toOwned_toTcp hl _
  | blob q other type blob k hl hq ht => exact toOwned_toTcp hl _
  | hit q other m hl hq ht hpvp ha hm hd => exact toOwned_toTcp hl _
  | kick q other m hl ht hp hm => exact toOwned_toTcp hl _
  | teleport q other m hl ht hp hm => exact toOwned_toTcp hl _
  | pose q other m hl hq hb ht hm => exact toOwned_of_kind nofun
  | actorPose q other m hl hq hb ht hp => exact toOwned_of_kind nofun

theorem SendsToOwned.of_eq {s s' : ServerRuntime} (h : s'.outbound = s.outbound) : SendsToOwned s s' :=
  fun _ hc => .inl (h ▸ hc)

theorem SendsToOwned.of_append {s s' : ServerRuntime} {cmds : List OutboundCmd} (h : s'.outbound = s.outbound ++ cmds)
    (hc : ∀ cmd ∈ cmds, ToOwned s cmd) : SendsToOwned s s' := by
  intro cmd hm
  rw [h] at hm
  exact (List.mem_append.mp hm).imp_right (hc cmd)

theorem SendsToOwned.trans {s s' s'' : ServerRuntime} (h : SendsToOwned s s') (h' : SendsToOwned s' s'')
    (hsub : ∀ c ∈ ownedConns s', c ∈ ownedConns s) : SendsToOwned s s'' := by
  intro cmd hm
  rcases h' cmd hm with hm | ho
  · exact h cmd hm
  · exact .inr fun hk => hsub _ (ho hk)

theorem closeConn_kind {c : ConnId} {cmd : OutboundCmd} (h : cmd ∈ closeConn c) :
    c ≠ 0 ∧ cmd = { kind := .CloseConn, connId := c } := by
  unfold closeConn at h
  split at h
  · cases h
  · exact ⟨‹_›, List.mem_singleton.mp h⟩

theorem toOwned_closeConn {s : ServerRuntime} {c : ConnId} {cmd : OutboundCmd} (h : cmd ∈ closeConn c) : ToOwned s cmd := by
  obtain ⟨-, rfl⟩ := closeConn_kind h
  exact toOwned_of_kind nofun

theorem toOwned_releaseCmds {s : ServerRuntime} {id : PeerId} {client : Client} {keepTcp : Bool} {cmd : OutboundCmd}
    (h : cmd ∈ releaseCmds id client keepTcp) : ToOwned s cmd := by
  unfold releaseCmds at h
  split at h
  · rw [List.mem_singleton.mp h]
    exact toOwned_of_kind nofun
  · exact toOwned_closeConn h

theorem sendsToOwned_removeClient (env : Env) (s : ServerRuntime) (id : PeerId) (keepTcp : Bool) :
    SendsToOwned s (removeClient env s id keepTcp) := by
  cases h : s.clients.lookup id with
  | none =>
    rw [removeClient_of_absent env h]
    exact .of_eq rfl
  | some client =>
    obtain ⟨persist, he⟩ := removeClient_eq env h keepTcp
    rw [he]
    refine .of_append rfl fun cmd hm => ?_
    rcases List.mem_append.mp hm with hm | hm
    · obtain ⟨q, other, hq, -, hc⟩ := mem_toOthers.mp hm
      rw [mem_sendTcp hc]
      exact toOwned_toTcp hq _
    · exact toOwned_releaseCmds hm

/-- A removal gives no connection a new owner. -/
theorem removeClient_owns (env : Env) (s : ServerRuntime) (id : PeerId) (keepTcp : Bool) {c : ConnId}
    (h : c ∈ ownedConns (removeClient env s id keepTcp)) : c ∈ ownedConns s := by
  cases hl : s.clients.lookup id with
  | none => rwa [removeClient_of_absent env hl] at h
  | some client =>
    obtain ⟨persist, he⟩ := removeClient_eq env hl keepTcp
    rw [he, mem_ownedConns] at h
    rcases h with ⟨q, other, hq, rfl⟩ | ⟨p, hp, rfl⟩
    · rw [Table.lookup_erase] at hq
      split at hq
      · cases hq
      · exact owned_client hq
    · dsimp only at hp
      unfold releasePending at hp
      split at hp
      · rcases List.mem_append.mp hp with hp | hp
        · exact owned_pending hp
        · rw [List.mem_singleton.mp hp]
          exact owned_client hl
      · exact owned_pending hp

theorem sendsToOwned_removals (env : Env) (s : ServerRuntime) (ids : List PeerId) :
    SendsToOwned s (ids.foldl (fun s id => removeClient env s id false) s) := by
  induction ids generalizing s with
  | nil => exact .of_eq rfl
  | cons id ids ih =>
    exact (sendsToOwned_removeClient env s id false).trans (ih _) fun c hc => removeClient_owns env s id false hc

theorem sendsToOwned_broadcast {s s' : ServerRuntime} {data : Bytes}
    (h : s'.outbound = s.outbound ++ s.clients.values.flatMap fun client => sendTcp client data) : SendsToOwned s s' := by
  refine .of_append h fun cmd hm => ?_
  obtain ⟨client, hc, hm⟩ := List.mem_flatMap.mp hm
  obtain ⟨q, hq⟩ := Table.mem_values.mp hc
  rw [mem_sendTcp hm]
  exact toOwned_toTcp hq data

theorem sendsToOwned_kickClient {s : ServerRuntime} {id : PeerId} {client : Client} (h : s.clients.lookup id = some client)
    (doBan : Bool) : SendsToOwned s (kickClient s id client doBan) := by
  obtain ⟨dirty, he⟩ := kickClient_eq h doBan
  rw [he]
  refine .of_append rfl fun cmd hm => ?_
  rcases List.mem_append.mp hm with hm | hm
  · rw [mem_sendTcp hm]
    exact toOwned_toTcp h _
  · exact toOwned_closeConn hm

/-- What an admin line does: a kick, or at most one message to everybody. -/
inductive AdminCase (s : ServerRuntime) : ServerRuntime → Prop
  | kick (id client doBan) (hl : s.clients.lookup id = some client) : AdminCase s (kickClient s id client doBan)
  | silent (s') (hq : Quiet s s') (ho : s'.outbound = s.outbound) : AdminCase s s'
  | broadcast (s' data) (hq : Quiet s s')
      (ho : s'.outbound = s.outbound ++ s.clients.values.flatMap fun client => sendTcp client data) : AdminCase s s'

theorem runAdminCommand_cases (env : Env) (s : ServerRuntime) (cmdLine : Bytes) :
    AdminCase s (runAdminCommand env s cmdLine) := by
  apply adminLine_cases (P := AdminCase s)
  case ignored => exact .silent s (.refl s) rfl
  case kick => exact fun _ _ _ _ _ id client doBan _ hl => .kick id client doBan hl
  case say => exact fun _ _ _ _ _ => .broadcast _ _ (quiet_queue s _) rfl
  case save =>
    refine .silent _ (quiet_adminSave s) ?_
    rw [adminSave, flushDirtyAsync_eq]
  case reload => exact fun _ _ => .broadcast _ _ (quiet_broadcast _ _) rfl
  case rules => exact fun _ _ => .broadcast _ _ (quiet_broadcast _ s.sessionModHash) rfl
  case quit => exact .silent _ (.of_eq rfl rfl rfl rfl rfl rfl) rfl
  case settings => exact fun _ _ => .silent _ (.of_eq rfl rfl rfl rfl rfl rfl) rfl
  case ban => exact fun _ => .silent _ (.of_eq rfl rfl rfl rfl rfl rfl) rfl
  case unban => exact fun _ => .silent _ (.of_eq rfl rfl rfl rfl rfl rfl) rfl

theorem sendsToOwned_runAdminCommand (env : Env) (s : ServerRuntime) (cmdLine : Bytes) :
    SendsToOwned s (runAdminCommand env s cmdLine) := by
  have hcase := runAdminCommand_cases env s cmdLine
  generalize runAdminCommand env s cmdLine = s' at hcase ⊢
  cases hcase with
  | kick id client doBan hl => exact sendsToOwned_kickClient hl doBan
  | silent _ hq ho => exact .of_eq ho
  | broadcast _ data hq ho => exact sendsToOwned_broadcast ho

/-- What a command of the console sends, with the clients it leaves and the flags it sets. -/
inductive ConsoleCase (s : ServerRuntime) : ServerRuntime → Prop
  | kick (id client doBan) (hl : s.clients.lookup id = some client) : ConsoleCase s (kickClient s id client doBan)
  | silent (s') (hc : s'.clients = s.clients) (hf : buildSessionFlags s'.cfg = buildSessionFlags s.cfg)
      (ho : s'.outbound = s.outbound) : ConsoleCase s s'
  | say (text) : ConsoleCase s (adminSay s text)
  | rules (cfg hash) : ConsoleCase s (broadcastSessionRules { s with cfg := cfg, sessionModHash := hash })

theorem runAdminCommand_console (env : Env) (s : ServerRuntime) (cmdLine : Bytes) :
    ConsoleCase s (runAdminCommand env s cmdLine) := by
  apply adminLine_cases (P := ConsoleCase s)
  case ignored => exact .silent s rfl rfl rfl
  case kick => exact fun _ _ _ _ _ id client doBan _ hl => .kick id client doBan hl
  case say => exact fun _ _ _ _ _ => .say _
  case save =>
    rw [adminSave, flushDirtyAsync_eq]
    exact .silent _ rfl rfl rfl
  case reload => exact fun _ _ => .rules _ _
  case rules => exact fun _ _ => .rules _ s.sessionModHash
  case quit => exact .silent _ rfl rfl rfl
  -- the capacity and the message of the day are settings without a flag
  case settings => exact fun _ _ => .silent _ rfl rfl rfl
  case ban => exact fun _ => .silent _ rfl rfl rfl
  case unban => exact fun _ => .silent _ rfl rfl rfl

theorem toOwned_welcomeMessages {s : ServerRuntime} {joined : Client} {hello : Hello} {rec_ : PlayerRec} {cmd : OutboundCmd}
    (h : cmd ∈ welcomeMessages s joined hello rec_) (hk : cmd.kind = .TcpSend) : cmd.connId = joined.connId := by
  have tcp : ∀ {data}, cmd ∈ sendTcp joined data → cmd.connId = joined.connId := by
    intro data hm
    rw [mem_sendTcp hm]
    rfl
  have blob : ∀ {type q blob}, cmd ∈ sendBlobTcp joined type q blob → cmd.connId = joined.connId := by
    intro type q blob hm
    obtain ⟨k, -, rfl⟩ := mem_sendBlobTcp hm
    rfl
  unfold welcomeMessages at h
  rcases List.mem_append.mp h with h | h
  · rcases List.mem_append.mp h with h | h
    · exact tcp h
    · exact tcp h
  · obtain ⟨q, other, -, -, hm⟩ := mem_toOthers.mp h
    split at hm
    · rcases List.mem_append.mp hm with hm | hm
      · rcases List.mem_append.mp hm with hm | hm
        · rw [(mem_sendUdp hm).2] at hk
          cases hk
        · split at hm
          · cases hm
          · exact blob hm
      · split at hm
        · cases hm
        · exact blob hm
    · cases hm

theorem completeJoin_sends {s : ServerRuntime} {id : PeerId} {joined : Client} (h : s.clients.lookup id = some joined)
    {hello : Hello} {rec_ : PlayerRec} {cmd : OutboundCmd} (hm : cmd ∈ (completeJoin s id hello rec_).outbound) :
    cmd ∈ s.outbound ∨ (cmd.kind = .TcpSend → cmd.connId = joined.connId) := by
  obtain ⟨world, dirty, hash, he, -⟩ := completeJoin_eq h hello rec_
  rw [he] at hm
  exact (List.mem_append.mp hm).imp_right toOwned_welcomeMessages

theorem bindPeer_kind {c : ConnId} {p : PeerId} {cmd : OutboundCmd} (h : cmd ∈ bindPeer c p) :
    c ≠ 0 ∧ p ≠ 0 ∧ cmd = { kind := .BindPeer, connId := c, peerId := p } := by
  unfold bindPeer at h
  split at h
  · cases h
  · rename_i hne
    rw [not_or] at hne
    exact ⟨hne.1, hne.2, List.mem_singleton.mp h⟩

theorem sendsToOwned_admitHello (env : Env) {s : ServerRuntime} {hello : Hello}
    (hhost : helloRequiresHost hello = true → s.world.hostPeerId ≠ 0) {pending : PendingTcp} (hp : pending ∈ s.pendingTcp)
    (t : Time) : SendsToOwned s (admitHello env s pending hello t).runtime := by
  have bind : ∀ {p cmd}, cmd ∈ bindPeer pending.connId p → ToOwned s cmd := by
    intro p cmd hm
    obtain ⟨-, -, rfl⟩ := bindPeer_kind hm
    exact toOwned_of_kind nofun
  cases hf : findByKey s (helloKey hello) with
  | some e =>
    obtain ⟨p, client⟩ := e
    have hl : (enterRecord s hello).clients.lookup p = some client := (findByKey_some hf).1
    rw [admitHello_reconnect env hf]
    have hs := softReconnect_eq hl pending hello (helloRecord s hello) t
    dsimp only
    generalize softReconnect (enterRecord s hello) p client pending hello (helloRecord s hello) t = s₁ at hs ⊢
    obtain ⟨joined, hj, hconn⟩ : ∃ joined, s₁.clients.lookup p = some joined ∧ joined.connId = pending.connId := by
      rw [hs]
      dsimp only
      rw [Table.lookup_modify_self, hl, Option.map_some]
      exact ⟨_, rfl, rfl⟩
    intro cmd hm
    rcases completeJoin_sends hj hm with hm | hto
    · rw [hs] at hm
      rcases List.mem_append.mp hm with hm | hm
      · exact .inl hm
      · rcases List.mem_append.mp hm with hm | hm
        · split at hm
          · exact .inr (toOwned_closeConn hm)
          · cases hm
        · exact .inr (bind hm)
    · exact .inr fun hk => by
        rw [hto hk, hconn]
        exact owned_pending hp
  | none =>
    rw [admitHello_join env hf hhost]
    have hc : ∀ id c, (insertJoining env (enterRecord s hello) pending hello (helloRecord s hello) t).clients.lookup id = some c →
        c.connId ∈ ownedConns s := by
      intro id c hl
      by_cases hmem : s.nextPeer ∈ s.clients
      · refine owned_client (p := id) (c := c) ?_
        rw [insertJoining] at hl
        dsimp only at hl
        rwa [Table.emplace_of_mem env.placement _ (show (enterRecord s hello).nextPeer ∈ (enterRecord s hello).clients from hmem)]
          at hl
      · rw [insertJoining] at hl
        dsimp only at hl
        rw [Table.lookup_emplace env.placement _
          (show (enterRecord s hello).nextPeer ∉ (enterRecord s hello).clients from hmem)] at hl
        split at hl
        · cases hl
          exact owned_pending hp
        · exact owned_client hl
    obtain ⟨joined, hj⟩ : ∃ joined, ((takeHost (insertJoining env (enterRecord s hello) pending hello (helloRecord s hello) t)
        s.nextPeer).queue (bindPeer pending.connId s.nextPeer)).clients.lookup s.nextPeer = some joined := by
      refine Option.isSome_iff_exists.mp (AList.lookup_isSome.mpr ?_)
      change s.nextPeer ∈ s.clients.emplace env.placement s.nextPeer _
      by_cases hmem : s.nextPeer ∈ s.clients
      · rwa [Table.emplace_of_mem env.placement _ hmem]
      · rw [← AList.lookup_isSome, Table.lookup_emplace env.placement _ hmem, if_pos rfl]
        rfl
    intro cmd hm
    rcases completeJoin_sends hj hm with hm | hto
    · rcases List.mem_append.mp hm with hm | hm
      · exact .inl hm
      · exact .inr (bind hm)
    · exact .inr fun hk => by
        rw [hto hk]
        exact hc _ joined hj

/-- A TcpSend of a step goes to a connection the runtime owned before it. -/
theorem step_toOwned {s : ServerRuntime} (hw : WellFormed s) {i : Env × Input} {cmd : OutboundCmd}
    (hc : cmd ∈ (s.step i).outbound) : ToOwned s cmd := by
  have hsend : SendsToOwned s.ready (s.step i) := by
    have attributed : ∀ {p}, Attributed s.ready i.2 p → SendsToOwned s.ready (s.step i) := fun ha cmd hm =>
      .inr (step_authorized hw ha hm).toOwned
    obtain ⟨env, i⟩ := i
    cases i with
    | inbound ev t =>
      cases hev : ev.kind with
      | TcpAccept => exact .of_eq (by simp only [ServerRuntime.step, handle, applyInbound, hev])
      | TcpFrame =>
        cases ht : frameTarget s.ready ev with
        | client p client => exact attributed (.frame ev t client ⟨rfl, hev, ht⟩)
        | pending pending =>
          have hs : PendingStep s.ready (Input.inbound ev t) ev t pending := ⟨rfl, hev, ht⟩
          have hp := (findPending_some (frameTarget_pending ht).2).1
          obtain ⟨ps, hframe⟩ := handlePendingFrame_eq env s.ready pending ev.bytes t
          rw [step_pending (i := (env, .inbound ev t)) hs, hframe]
          rcases handlePendingMessage_cases env (s := s.ready) hw.keyed hw.ok pending ev.bytes t with hu | ⟨header, ha, he⟩
          · intro cmd hm
            rcases hu.answers cmd hm with hm | ⟨header, rest, -, rfl⟩
            · exact .inl hm
            · exact .inr fun _ => owned_pending (s := s.ready) hp
          · rw [he]
            exact sendsToOwned_admitHello (s := s.ready.countHello pending t) env
              (fun hr => hostGate_hostPeerId (ha.host hr)) hp t
        | nobody => exact .of_eq (by simp only [ServerRuntime.step, handle, applyInbound, hev, ht])
      | TcpClosed =>
        cases hcp : closedPeer s.ready ev with
        | some p => exact attributed (.closed ev t rfl hev hcp)
        | none =>
          refine .of_eq ?_
          unfold closedPeer at hcp
          split at hcp
          · cases hcp
          · rename_i h0
            have hf : findByConn { s.ready with pendingTcp := s.ready.pendingTcp.filter fun p => p.connId ≠ ev.connId }
                ev.connId = none := Option.map_eq_none_iff.mp hcp
            simp only [ServerRuntime.step, handle, applyInbound, hev, if_neg h0, hf]
      | UdpDatagram =>
        cases ha : acceptedBind s.ready ev.bytes with
        | some p => exact attributed (.bind ev t rfl hev ha)
        | none =>
          cases hf : (findByUdp s.ready ev.addr).1 with
          | some p => exact attributed (.datagram ev t rfl hev ha hf)
          | none =>
            refine .of_eq ?_
            simp only [ServerRuntime.step, handle, applyInbound, hev]
            have hcase := handleUdpPacket_cases (s := s.ready) hw.ok ev.bytes ev.addr t
            rw [findByUdp_of_ok (s := s.ready) hw.ok] at hf
            generalize handleUdpPacket s.ready ev.bytes ev.addr t = s' at hcase ⊢
            cases hcase with
            | bind id hb =>
              rw [ha] at hb
              cases hb
            | ignored badHeaders hb => rfl
            | short id client hb hu hl =>
              cases hf.symm.trans hu
            | playerPose id client header hb hu hl ho =>
              cases hf.symm.trans hu
            | actorPose id client header hb hu hl ho =>
              cases hf.symm.trans hu
    | expirePending t =>
      refine .of_append rfl fun cmd hm => ?_
      obtain ⟨p, -, hm⟩ := List.mem_flatMap.mp hm
      exact toOwned_closeConn hm
    | expireClients t => exact sendsToOwned_removals env s.ready _
    | sendHeartbeat => exact sendsToOwned_broadcast rfl
    | flushDirty =>
      refine .of_eq ?_
      simp only [ServerRuntime.step, handle, flushDirtyAsync_eq]
    | admin cmdLine => exact sendsToOwned_runAdminCommand env s.ready cmdLine
  rcases hsend cmd hc with h | h
  · cases h
  · exact h

def IsMessage (cmd : OutboundCmd) : Prop := cmd.kind = .TcpSend ∨ cmd.kind = .UdpSend

/-- The commands added since `s` are messages. -/
def OnlyMessages (s s' : ServerRuntime) : Prop :=
  ∃ cmds, s'.outbound = s.outbound ++ cmds ∧ ∀ cmd ∈ cmds, IsMessage cmd

theorem OnlyMessages.of_eq {s s' : ServerRuntime} (h : s'.outbound = s.outbound) : OnlyMessages s s' :=
  ⟨[], by rw [h, List.append_nil], fun _ hm => nomatch hm⟩

theorem isMessage_sendTcp {client : Client} {data : Bytes} {cmd : OutboundCmd} (h : cmd ∈ sendTcp client data) : IsMessage cmd := by
  rw [mem_sendTcp h]
  exact .inl rfl

theorem isMessage_sendUdp {client : Client} {data : Bytes} {cmd : OutboundCmd} (h : cmd ∈ sendUdp client data) : IsMessage cmd := by
  rw [(mem_sendUdp h).2]
  exact .inr rfl

theorem isMessage_sendBlobTcp {client : Client} {type : Msg} {q : PeerId} {blob : Bytes} {cmd : OutboundCmd}
    (h : cmd ∈ sendBlobTcp client type q blob) : IsMessage cmd := by
  obtain ⟨k, -, rfl⟩ := mem_sendBlobTcp h
  exact .inl rfl

theorem isMessage_toOthers {clients : ClientTable} {skip : PeerId} {send : Client → List OutboundCmd} {cmd : OutboundCmd}
    (h : cmd ∈ toOthers clients skip send) (hs : ∀ other, ∀ cmd ∈ send other, IsMessage cmd) : IsMessage cmd := by
  obtain ⟨q, other, -, -, hm⟩ := mem_toOthers.mp h
  exact hs other cmd hm

theorem isMessage_welcomeMessages {s : ServerRuntime} {joined : Client} {hello : Hello} {rec_ : PlayerRec} {cmd : OutboundCmd}
    (h : cmd ∈ welcomeMessages s joined hello rec_) : IsMessage cmd := by
  unfold welcomeMessages at h
  rcases List.mem_append.mp h with h | h
  · rcases List.mem_append.mp h with h | h
    · exact isMessage_sendTcp h
    · exact isMessage_sendTcp h
  · refine isMessage_toOthers h fun other cmd hm => ?_
    split at hm
    · rcases List.mem_append.mp hm with hm | hm
      · rcases List.mem_append.mp hm with hm | hm
        · exact isMessage_sendUdp hm
        · split at hm
          · cases hm
          · exact isMessage_sendBlobTcp hm
      · split at hm
        · cases hm
        · exact isMessage_sendBlobTcp hm
    · cases hm

theorem onlyMessages_tcpBlobChunk (env : Env) (s : ServerRuntime) (type : Msg) (id : PeerId) (client : Client) (buf : Bytes)
    (t : Time) : OnlyMessages s (tcpBlobChunk env s type id client buf t) := by
  rcases tcpBlobChunk_cases env s type id client buf t with ⟨-, he⟩ | ⟨a, -, -, he⟩ | ⟨a, blob, -, -, he⟩
  · rw [he]
    exact .of_eq rfl
  · rw [he, setAssemblies_eq]
    exact .of_eq rfl
  · rw [he, setAssemblies_eq]
    refine ⟨_, rfl, fun cmd hm => ?_⟩
    exact isMessage_toOthers hm fun other cmd hm => isMessage_sendBlobTcp hm

theorem onlyMessages_tcpHit (s : ServerRuntime) (client : Client) (buf : Bytes) (t : Time) :
    OnlyMessages s (tcpHit s client buf t) := by
  rcases tcpHit_cases s client buf t with he | he | ⟨hit, -, -, -, -, -, -, he⟩
  · rw [he]
    exact .of_eq rfl
  · rw [he]
    exact .of_eq rfl
  · rw [he]
    refine ⟨_, rfl, fun cmd hm => ?_⟩
    obtain ⟨other, -, hm⟩ := List.mem_flatMap.mp hm
    split at hm
    · exact isMessage_sendTcp hm
    · cases hm

theorem onlyMessages_tcpMessage (env : Env) {s : ServerRuntime} (type : Msg) {id : PeerId} {client : Client}
    (h : s.clients.lookup id = some client) (buf : Bytes) (t : Time) :
    OnlyMessages s (tcpMessage env s type id client buf t) := by
  have sent (other : Client) (data : Bytes) : OnlyMessages s (s.queue (sendTcp other data)) :=
    ⟨_, rfl, fun cmd hm => isMessage_sendTcp hm⟩
  apply tcpMessage_cases (P := OnlyMessages s)
  case unhandled => exact .of_eq rfl
  case bye => exact fun _ => .of_eq rfl
  case hello =>
    intro _
    rw [helloAgain_eq h]
    exact ⟨_, rfl, fun cmd hm => isMessage_sendTcp hm⟩
  case snapshot =>
    intro _
    rcases tcpWorldSnapshot_cases s client buf with ⟨-, he⟩ | ⟨-, world, -, he⟩ <;> rw [he] <;> exact .of_eq rfl
  case chunk => exact fun _ => onlyMessages_tcpBlobChunk env s type id client buf t
  case heartbeat => exact fun _ => sent client _
  case chat =>
    intro _
    rcases tcpChat_cases s client buf t with ⟨-, he⟩ | ⟨-, he⟩
    · rw [he]
      exact .of_eq rfl
    · rw [he]
      exact ⟨_, rfl, fun cmd hm => isMessage_toOthers hm fun other cmd hm => isMessage_sendTcp hm⟩
  case kick =>
    intro _
    rcases tcpKick_cases s client buf with he | ⟨other, -, -, he⟩
    · rw [he]
      exact .of_eq rfl
    · rw [he]
      exact sent other _
  case teleport =>
    intro _
    rcases tcpTeleport_cases s client buf with he | ⟨other, -, -, he⟩
    · rw [he]
      exact .of_eq rfl
    · rw [he]
      exact sent other _
  case hit => exact fun _ => onlyMessages_tcpHit s client buf t

theorem onlyMessages_handleUdpPacket {s : ServerRuntime} (hok : Ok s.sessions) (buf : Bytes) (from_ : SockAddr) (t : Time) :
    OnlyMessages s (handleUdpPacket s buf from_ t) := by
  have relay : ∀ {interested : Client → Bool} {data : Bytes} (other : Client) (cmd : OutboundCmd),
      cmd ∈ (if interested other then sendUdp other data else []) → IsMessage cmd := by
    intro interested data other cmd hm
    split at hm
    · exact isMessage_sendUdp hm
    · cases hm
  have hcase := handleUdpPacket_cases hok buf from_ t
  generalize handleUdpPacket s buf from_ t = s' at hcase ⊢
  cases hcase with
  | bind id ha =>
    obtain ⟨-, -, rfl, client, hl, h0, htok⟩ := acceptedBind_some.mp ha
    rw [udpBind_eq (s := s.countDatagram) hl (not_or.mpr ⟨h0, not_not.mpr htok⟩)]
    refine ⟨_, rfl, fun cmd hm => isMessage_toOthers hm fun other cmd hm => ?_⟩
    split at hm
    · exact isMessage_sendUdp hm
    · cases hm
  | ignored badHeaders ha => exact .of_eq rfl
  | short id client ha hu hl => exact .of_eq rfl
  | playerPose id client header ha hu hl ho =>
    rcases udpPlayerPose_cases (s.countDatagram.seen id t) id { client with lastSeen := t } buf t with
      ⟨-, he⟩ | ⟨-, _, ⟨-, he⟩ | ⟨-, world, -, he⟩⟩
    · rw [he]
      exact .of_eq rfl
    · rw [he]
      exact ⟨_, rfl, fun cmd hm => isMessage_toOthers hm relay⟩
    · rw [he]
      exact ⟨_, rfl, fun cmd hm => isMessage_toOthers hm relay⟩
  | actorPose id client header ha hu hl ho =>
    rcases udpActorPose_cases (s.countDatagram.seen id t) { client with lastSeen := t } buf with he | ⟨_, -, he⟩
    · rw [he]
      exact .of_eq rfl
    · rw [he]
      exact ⟨_, rfl, fun cmd hm => isMessage_toOthers hm relay⟩

end ServerRuntime
end CommonwealthMP
