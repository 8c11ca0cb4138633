import CommonwealthMP.Admission
import CommonwealthMP.RelayAuthority

/-! # When the server welcomes

A Welcome leaves the server in a join, in a soft reconnect and in the answer to a repeated
Hello, once each time and to the client it is about; only the first two bind a connection. -/
namespace CommonwealthMP
open ByteLayout Binary32 OrderedTables SessionTable
namespace ServerRuntime

def isWelcome (cmd : OutboundCmd) : Bool := cmd.kind = .TcpSend && u8At cmd.bytes 4 == Msg.Welcome.code

/-- A command that neither welcomes nor binds. -/
structure Plain (cmd : OutboundCmd) : Prop where
  not_welcome : isWelcome cmd = false
  not_bind : cmd.kind ≠ .BindPeer

theorem Plain.of_kind {cmd : OutboundCmd} (h : cmd.kind ≠ .TcpSend) (hb : cmd.kind ≠ .BindPeer) : Plain cmd :=
  ⟨by simp [isWelcome, h], hb⟩

theorem Plain.message (type : Msg) {cmd : OutboundCmd} {header : Header} {rest : Bytes} (hk : cmd.kind = .TcpSend)
    (hb : cmd.bytes = header.encode ++ rest) (ht : header.type = type.code) (hn : type.code ≠ Msg.Welcome.code) : Plain cmd := by
  refine ⟨?_, by rw [hk]; decide⟩
  rw [isWelcome, hb, u8At_encode_type, ht, hk]
  simpa using hn

theorem plain_toTcp (type : Msg) (client : Client) {header : Header} {rest : Bytes} (ht : header.type = type.code)
    (hn : type.code ≠ Msg.Welcome.code) : Plain (toTcp client (header.encode ++ rest)) := .message type rfl rfl ht hn

theorem plain_chunk (client : Client) {type : Msg} (ht : type = .AppearanceChunk ∨ type = .InventoryChunk) (p : PeerId)
    (blob : Bytes) (k : ℕ) : Plain (toTcp client (chunkPacket type p blob k)) := by
  have hn : type.code ≠ Msg.Welcome.code := by rcases ht with rfl | rfl <;> decide
  exact Plain.message type rfl (List.append_assoc _ _ _) rfl hn

theorem Authorized.plain {clients : ClientTable} {host : PeerId} {pvp : Bool} {bound : SockAddr → Prop}
    {p : PeerId} {cmd : OutboundCmd} (h : Authorized clients host pvp False bound p cmd) : Plain cmd := by
  cases h with
  | welcome c w hc ht hh => exact hh.elim
  | heartbeat c hb hc ht => exact plain_toTcp .Heartbeat c (by rw [ht]; rfl) (by decide)
  | greet addr q other ha hq hne => exact .of_kind nofun nofun
  | keepPending => exact .of_kind nofun nofun
  | closeConn c hc => exact .of_kind nofun nofun
  | bye q other hq hne => exact plain_toTcp .Bye other rfl (by decide)
  | chat q other m hq hne ht hm => exact plain_toTcp .Chat other (by rw [ht]; rfl) (by decide)
  | blob q other type blob k hq hne ht => exact plain_chunk other ht p blob k
  | hit q other m hq hne ht hpvp ha hm hd => exact plain_toTcp .Hit other (by rw [ht]; rfl) (by decide)
  | kick q other m hq ht hp hm => exact plain_toTcp .Kick other ht (by decide)
  | teleport q other m hq ht hp hm => exact plain_toTcp .Teleport other ht (by decide)
  | pose q other m hq hne hb ht hm => exact .of_kind nofun nofun
  | actorPose q other m hq hne hb ht hp => exact .of_kind nofun nofun

/-- The commands added since `s` are plain. -/
def SendsPlain (s s' : ServerRuntime) : Prop := ∀ cmd ∈ s'.outbound, cmd ∈ s.outbound ∨ Plain cmd

theorem SendsPlain.of_eq {s s' : ServerRuntime} (h : s'.outbound = s.outbound) : SendsPlain s s' :=
  fun _ hc => .inl (h ▸ hc)

theorem SendsPlain.of_append {s s' : ServerRuntime} {cmds : List OutboundCmd} (h : s'.outbound = s.outbound ++ cmds)
    (hc : ∀ cmd ∈ cmds, Plain cmd) : SendsPlain s s' := by
  intro cmd hm
  rw [h] at hm
  rcases List.mem_append.mp hm with hm | hm
  · exact .inl hm
  · exact .inr (hc cmd hm)

theorem SendsPlain.trans {s s' s'' : ServerRuntime} (h : SendsPlain s s') (h' : SendsPlain s' s'') : SendsPlain s s'' := by
  intro cmd hm
  rcases h' cmd hm with hm | hp
  · exact h cmd hm
  · exact .inr hp

theorem plain_closeConn {c : ConnId} {cmd : OutboundCmd} (h : cmd ∈ closeConn c) : Plain cmd := by
  unfold closeConn at h
  split at h
  · cases h
  · rw [List.mem_singleton.mp h]
    exact .of_kind nofun nofun

theorem plain_bye {client : Client} {id : PeerId} {cmd : OutboundCmd} (h : cmd ∈ sendTcp client (makeBye id).encode) :
    Plain cmd := by
  rw [mem_sendTcp h]
  exact plain_toTcp .Bye client rfl (by decide)

theorem sendsPlain_removeClient (env : Env) (s : ServerRuntime) (id : PeerId) (keepTcp : Bool) :
    SendsPlain s (removeClient env s id keepTcp) := by
  cases h : s.clients.lookup id with
  | none =>
    rw [removeClient_of_absent env h]
    exact .of_eq rfl
  | some client =>
    obtain ⟨persist, he⟩ := removeClient_eq env h keepTcp
    rw [he]
    refine .of_append rfl fun cmd hm => ?_
    rcases List.mem_append.mp hm with hm | hm
    · obtain ⟨q, other, -, -, hc⟩ := mem_toOthers.mp hm
      exact plain_bye hc
    · unfold releaseCmds at hm
      split at hm
      · rw [List.mem_singleton.mp hm]
        exact .of_kind nofun nofun
      · exact plain_closeConn hm

theorem sendsPlain_removals (env : Env) (s : ServerRuntime) (ids : List PeerId) :
    SendsPlain s (ids.foldl (fun s id => removeClient env s id false) s) := by
  induction ids generalizing s with
  | nil => exact .of_eq rfl
  | cons id ids ih => exact (sendsPlain_removeClient env s id false).trans (ih _)

theorem sendsPlain_broadcast (type : Msg) {s s' : ServerRuntime} {header : Header} {rest : Bytes}
    (ht : header.type = type.code) (hn : type.code ≠ Msg.Welcome.code)
    (h : s'.outbound = s.outbound ++ s.clients.values.flatMap fun client => sendTcp client (header.encode ++ rest)) :
    SendsPlain s s' := by
  refine .of_append h fun cmd hm => ?_
  obtain ⟨client, -, hc⟩ := List.mem_flatMap.mp hm
  rw [mem_sendTcp hc]
  exact plain_toTcp type client ht hn

theorem sendsPlain_rules (s : ServerRuntime) (cfg : ServerConfig) (hash : UInt32) :
    SendsPlain s (broadcastSessionRules { s with cfg := cfg, sessionModHash := hash }) :=
  sendsPlain_broadcast .SessionRules rfl (by decide) rfl

theorem sendsPlain_kickClient {s : ServerRuntime} {id : PeerId} {client : Client} (hl : s.clients.lookup id = some client)
    (doBan : Bool) : SendsPlain s (kickClient s id client doBan) := by
  obtain ⟨dirty, he⟩ := kickClient_eq hl doBan
  rw [he]
  refine .of_append rfl fun cmd hm => ?_
  rcases List.mem_append.mp hm with hm | hm
  · exact plain_bye hm
  · exact plain_closeConn hm

theorem sendsPlain_runAdminCommand (env : Env) (s : ServerRuntime) (cmdLine : Bytes) :
    SendsPlain s (runAdminCommand env s cmdLine) := by
  apply adminLine_cases (P := SendsPlain s)
  case ignored => exact .of_eq rfl
  case kick => exact fun _ _ _ _ _ id client doBan _ hl => sendsPlain_kickClient hl doBan
  case say => exact fun _ _ _ _ _ => sendsPlain_broadcast .Chat rfl (by decide) rfl
  case save =>
    rw [adminSave, flushDirtyAsync_eq]
    exact .of_eq rfl
  case reload => exact fun _ _ => sendsPlain_rules s _ _
  case rules => exact fun _ _ => sendsPlain_rules s _ s.sessionModHash
  case quit => exact .of_eq rfl
  case settings => exact fun _ _ => .of_eq rfl
  case ban => exact fun _ => .of_eq rfl
  case unban => exact fun _ => .of_eq rfl

def welcomeOf (s : ServerRuntime) (c : Client) (isNew : Bool) : Welcome :=
  makeWelcome c.peerId 0 isNew (c.peerId = s.world.hostPeerId) (buildSessionFlags s.cfg) c.udpToken

/-- The step gives `p` a Welcome. -/
inductive Welcomed (s : ServerRuntime) (i : Env × Input) (p : PeerId) : Prop
  | joined (fresh) (hx : pendingExit s i = some (.joined p fresh))
  | reconnected (hx : pendingExit s i = some (.reconnected p))
  | again (ev t client header) (hs : ClientStep s.ready i.2 ev t p client) (ho : openFrame ev.bytes = some (header, .Hello))
      (hn : sizeofHello ≤ ev.bytes.length)

def replacedConn (old new : ConnId) : List OutboundCmd := if old ≠ 0 ∧ old ≠ new then closeConn old else []

/-- What a step sends, as far as bindings and Welcomes go. -/
inductive StepOutput (s : ServerRuntime) (i : Env × Input) : Prop
  | plain (hn : ∀ p, ¬ Welcomed s i p) (hp : ∀ cmd ∈ (s.step i).outbound, Plain cmd)
  | joined (ev t pending p joined isNew rest) (hs : PendingStep s.ready i.2 ev t pending)
      (hx : pendingExit s i = some (.joined p (decide (p ∉ s.clients)))) (hp : p = s.nextPeer)
      (hl : (s.step i).clients.lookup p = some joined) (hconn : p ∉ s.clients → joined.connId = pending.connId)
      (ho : (s.step i).outbound =
        bindPeer pending.connId p ++ (sendTcp joined (welcomeOf (s.step i) joined isNew).encode ++ rest))
      (hr : ∀ cmd ∈ rest, Plain cmd)
  | reconnected (ev t pending p client joined isNew rest) (hs : PendingStep s.ready i.2 ev t pending)
      (hx : pendingExit s i = some (.reconnected p)) (hc : s.clients.lookup p = some client)
      (hl : (s.step i).clients.lookup p = some joined) (hconn : joined.connId = pending.connId)
      (ho : (s.step i).outbound = replacedConn client.connId pending.connId ++ (bindPeer pending.connId p ++
        (sendTcp joined (welcomeOf (s.step i) joined isNew).encode ++ rest)))
      (hr : ∀ cmd ∈ rest, Plain cmd)
  | again (ev t p client header joined isNew) (hs : ClientStep s.ready i.2 ev t p client)
      (ho : openFrame ev.bytes = some (header, .Hello)) (hn : sizeofHello ≤ ev.bytes.length)
      (hl : (s.step i).clients.lookup p = some joined)
      (hw : (s.step i).outbound = sendTcp joined (welcomeOf (s.step i) joined isNew).encode)

theorem plain_welcomeRest (s : ServerRuntime) (joined : Client) {cmd : OutboundCmd}
    (h : cmd ∈ toOthers s.clients joined.peerId fun other =>
      if other.havePose then
        sendUdp joined other.lastPose.encode ++
          (if other.appearance = [] then [] else sendBlobTcp joined .AppearanceChunk other.peerId other.appearance) ++
          (if other.inventory = [] then [] else sendBlobTcp joined .InventoryChunk other.peerId other.inventory)
      else []) : Plain cmd := by
  obtain ⟨q, other, -, -, hc⟩ := mem_toOthers.mp h
  split at hc
  · rcases List.mem_append.mp hc with hc | hc
    · rcases List.mem_append.mp hc with hc | hc
      · obtain ⟨-, rfl⟩ := mem_sendUdp hc
        exact .of_kind nofun nofun
      · split at hc
        · cases hc
        · obtain ⟨k, -, rfl⟩ := mem_sendBlobTcp hc
          exact plain_chunk joined (.inl rfl) other.peerId other.appearance k
    · split at hc
      · cases hc
      · obtain ⟨k, -, rfl⟩ := mem_sendBlobTcp hc
        exact plain_chunk joined (.inr rfl) other.peerId other.inventory k
  · cases hc

theorem welcomeMessages_eq (s : ServerRuntime) (joined : Client) (hello : Hello) (rec_ : PlayerRec) :
    ∃ isNew rest, welcomeMessages s joined hello rec_ = sendTcp joined (welcomeOf s joined isNew).encode ++ rest ∧
      ∀ cmd ∈ rest, Plain cmd := by
  refine ⟨!rec_.havePose, _, List.append_assoc _ _ _, fun cmd hm => ?_⟩
  rcases List.mem_append.mp hm with hm | hm
  · rw [mem_sendTcp hm]
    exact plain_toTcp .WorldSnapshot joined rfl (by decide)
  · exact plain_welcomeRest s joined hm

theorem completeJoin_output {s : ServerRuntime} {id : PeerId} {joined : Client} (h : s.clients.lookup id = some joined)
    (hello : Hello) (rec_ : PlayerRec) :
    ∃ isNew rest, (completeJoin s id hello rec_).outbound =
        s.outbound ++ (sendTcp joined (welcomeOf (completeJoin s id hello rec_) joined isNew).encode ++ rest) ∧
      ∀ cmd ∈ rest, Plain cmd := by
  obtain ⟨world, dirty, hash, he, hw⟩ := adoptHostWorld_eq s joined hello
  obtain ⟨isNew, rest, hm, hr⟩ := welcomeMessages_eq (adoptHostWorld s joined hello) joined hello rec_
  refine ⟨isNew, rest, ?_, hr⟩
  have hc : completeJoin s id hello rec_ =
      (adoptHostWorld s joined hello).queue (welcomeMessages (adoptHostWorld s joined hello) joined hello rec_) := by
    rw [completeJoin, h]
  rw [hc, hm, queue]
  dsimp only
  rw [show (adoptHostWorld s joined hello).outbound = s.outbound by rw [he]]
  rfl

theorem pendingExit_of {s : ServerRuntime} {i : Env × Input} {ev : InboundEvent} {t : Time} {pending : PendingTcp}
    (hs : PendingStep s.ready i.2 ev t pending) :
    pendingExit s i = some (handlePendingMessage i.1 s.ready pending ev.bytes t).exit :=
  pendingExit_some.mpr ⟨ev, t, pending, hs, rfl⟩

theorem PendingStep.not_client {s : ServerRuntime} {i : Input} {ev ev' : InboundEvent} {t t' : Time} {pending : PendingTcp}
    {id : PeerId} {client : Client} (h : PendingStep s i ev t pending) (h' : ClientStep s i ev' t' id client) : False := by
  have hi := h.input.symm.trans h'.input
  cases hi
  have ht := h.target.symm.trans h'.target
  cases ht

theorem admitHello_reconnect_output (env : Env) {s : ServerRuntime} {hello : Hello} {p : PeerId} {client : Client}
    (hf : findByKey s (helloKey hello) = some ⟨p, client⟩) (hid : client.peerId = p) (pending : PendingTcp) (t : Time) :
    ∃ joined isNew rest, (admitHello env s pending hello t).runtime.clients.lookup p = some joined ∧
      joined.connId = pending.connId ∧
      (admitHello env s pending hello t).runtime.outbound = s.outbound ++ (replacedConn client.connId pending.connId ++
        (bindPeer pending.connId p ++
          (sendTcp joined (welcomeOf (admitHello env s pending hello t).runtime joined isNew).encode ++ rest))) ∧
      ∀ cmd ∈ rest, Plain cmd := by
  have hl : (enterRecord s hello).clients.lookup p = some client := (findByKey_some hf).1
  rw [admitHello_reconnect env hf]
  dsimp only
  have hs := softReconnect_eq hl pending hello (helloRecord s hello) t
  generalize softReconnect (enterRecord s hello) p client pending hello (helloRecord s hello) t = s₁ at hs ⊢
  obtain ⟨joined, hj, hconn⟩ : ∃ joined, s₁.clients.lookup p = some joined ∧ joined.connId = pending.connId := by
    rw [hs]
    dsimp only
    rw [Table.lookup_modify_self, hl, Option.map_some]
    exact ⟨_, rfl, rfl⟩
  obtain ⟨isNew, rest, ho, hr⟩ := completeJoin_output hj hello (helloRecord s hello)
  refine ⟨joined, isNew, rest, ?_, hconn, ?_, hr⟩
  · rw [(completeJoin_clients _ _ _ _).1]
    exact hj
  · rw [ho, show s₁.outbound = s.outbound ++ (replacedConn client.connId pending.connId ++ bindPeer pending.connId p) by
      rw [hs, ← hid]; rfl]
    simp only [List.append_assoc]

theorem admitHello_join_output (env : Env) {s : ServerRuntime} {hello : Hello} (hf : findByKey s (helloKey hello) = none)
    (hhost : helloRequiresHost hello = true → s.world.hostPeerId ≠ 0) (pending : PendingTcp) (t : Time) :
    ∃ joined isNew rest, (admitHello env s pending hello t).runtime.clients.lookup s.nextPeer = some joined ∧
      (s.nextPeer ∉ s.clients → joined.connId = pending.connId) ∧
      (admitHello env s pending hello t).runtime.outbound = s.outbound ++ (bindPeer pending.connId s.nextPeer ++
        (sendTcp joined (welcomeOf (admitHello env s pending hello t).runtime joined isNew).encode ++ rest)) ∧
      ∀ cmd ∈ rest, Plain cmd := by
  rw [admitHello_join env hf hhost]
  dsimp only
  have hc : (insertJoining env (enterRecord s hello) pending hello (helloRecord s hello) t).clients =
      s.clients.emplace env.placement s.nextPeer (joiningClient (enterRecord s hello) pending hello (helloRecord s hello) t) := rfl
  obtain ⟨joined, hj, hconn⟩ : ∃ joined, (insertJoining env (enterRecord s hello) pending hello (helloRecord s hello)
      t).clients.lookup s.nextPeer = some joined ∧ (s.nextPeer ∉ s.clients → joined.connId = pending.connId) := by
    by_cases hm : s.nextPeer ∈ s.clients
    · obtain ⟨c, hl⟩ := Option.isSome_iff_exists.mp (AList.lookup_isSome.mpr hm)
      refine ⟨c, ?_, fun h => absurd hm h⟩
      rw [hc, Table.emplace_of_mem env.placement _ hm]
      exact hl
    · rw [hc, Table.lookup_emplace env.placement _ hm, if_pos rfl]
      exact ⟨_, rfl, fun _ => rfl⟩
  have hs : (takeHost (insertJoining env (enterRecord s hello) pending hello (helloRecord s hello) t) s.nextPeer).clients =
      (insertJoining env (enterRecord s hello) pending hello (helloRecord s hello) t).clients := rfl
  have ho' : (takeHost (insertJoining env (enterRecord s hello) pending hello (helloRecord s hello) t)
      s.nextPeer).outbound = s.outbound := rfl
  generalize takeHost (insertJoining env (enterRecord s hello) pending hello (helloRecord s hello) t) s.nextPeer = s₁ at hs ho' ⊢
  rw [← hs] at hj
  obtain ⟨isNew, rest, ho, hr⟩ := completeJoin_output (s := s₁.queue (bindPeer pending.connId s.nextPeer)) hj hello
    (helloRecord s hello)
  refine ⟨joined, isNew, rest, ?_, hconn, ?_, hr⟩
  · rw [(completeJoin_clients _ _ _ _).1]
    exact hj
  · rw [ho, queue]
    dsimp only
    rw [ho', List.append_assoc]

/-- The output of a frame on a pending connection. -/
theorem pendingFrame_output {s : ServerRuntime} (hw : WellFormed s) {i : Env × Input} {ev : InboundEvent} {t : Time}
    {pending : PendingTcp} (hs : PendingStep s.ready i.2 ev t pending) : StepOutput s i := by
  have hx := pendingExit_of hs
  obtain ⟨ps, hframe⟩ := handlePendingFrame_eq i.1 s.ready pending ev.bytes t
  have hstep := (step_pending hs).trans hframe
  rcases handlePendingMessage_cases i.1 (s := s.ready) hw.keyed hw.ok pending ev.bytes t with hu | ⟨header, ha, he⟩
  · refine .plain (fun p hp => ?_) fun cmd hc => ?_
    · cases hp with
      | joined fresh hj =>
        have := hx.symm.trans hj
        rcases hu.exit_eq with h | h | ⟨reason, h⟩ <;> rw [h] at this <;> cases this
      | reconnected hr =>
        have := hx.symm.trans hr
        rcases hu.exit_eq with h | h | ⟨reason, h⟩ <;> rw [h] at this <;> cases this
      | again ev' t' client header hc ho hn => exact hs.not_client hc
    · rw [hstep] at hc
      rcases hu.answers cmd hc with hc | ⟨header, rest, ht, rfl⟩
      · cases hc
      · rcases ht with ht | ht
        · exact .message .SessionInfo rfl rfl ht (by decide)
        · exact .message .Reject rfl rfl ht (by decide)
  · rw [he] at hstep hx
    cases hf : findByKey (s.ready.countHello pending t) (helloKey (readHello ev.bytes)) with
    | some e =>
      obtain ⟨p, client⟩ := e
      have hl : s.clients.lookup p = some client := (findByKey_some hf).1
      obtain ⟨joined, isNew, rest, hj, hconn, ho, hr⟩ :=
        admitHello_reconnect_output i.1 hf (hw.keyed p client hl) pending t
      rw [show (admitHello i.1 (s.ready.countHello pending t) pending (readHello ev.bytes) t).exit = .reconnected p by
        rw [admitHello_reconnect i.1 hf]] at hx
      rw [← step_pending hs] at hframe
      refine .reconnected ev t pending p client joined isNew rest hs hx hl (hstep ▸ hj) hconn ?_ hr
      rw [hstep]
      exact ho
    | none =>
      have hhost : helloRequiresHost (readHello ev.bytes) = true → (s.ready.countHello pending t).world.hostPeerId ≠ 0 :=
        fun hr => hostGate_hostPeerId (ha.host hr)
      obtain ⟨joined, isNew, rest, hj, hconn, ho, hr⟩ := admitHello_join_output i.1 hf hhost pending t
      rw [show (admitHello i.1 (s.ready.countHello pending t) pending (readHello ev.bytes) t).exit =
        .joined s.nextPeer (decide (s.nextPeer ∉ s.clients)) by rw [admitHello_join i.1 hf hhost]; rfl] at hx
      refine .joined ev t pending s.nextPeer joined isNew rest hs hx rfl (hstep ▸ hj) hconn ?_ hr
      rw [hstep]
      exact ho

theorem sizeofHello_le {buf : Bytes} {header : Header} (ho : openFrame buf = some (header, .Hello)) :
    sizeofHello ≤ buf.length := by
  obtain ⟨-, -, hle, hsize⟩ := openFrame_spec ho
  have h135 : header.size.toNat = 135 := by simpa [expectedMsgSize] using hsize
  rw [h135] at hle
  exact hle

theorem handleClientFrame_hello (env : Env) {s : ServerRuntime} {p : PeerId} {client : Client}
    (hl : s.clients.lookup p = some client) {buf : Bytes} {header : Header} (ho : openFrame buf = some (header, .Hello))
    (t : Time) :
    ∃ joined isNew, (handleClientFrame env s p client buf t).clients.lookup p = some joined ∧
      (handleClientFrame env s p client buf t).outbound =
        s.outbound ++ sendTcp joined (welcomeOf (handleClientFrame env s p client buf t) joined isNew).encode := by
  let s₁ : ServerRuntime := ({ s with removePeers := [], keepTcpPeers := [] } : ServerRuntime).seen p t
  have hl₁ : s₁.clients.lookup p = some { client with lastSeen := t } := lookup_seen hl t
  have hmsg : handleTcpMessage env { s with removePeers := [], keepTcpPeers := [] } p client buf t =
      helloAgain s₁ p { client with lastSeen := t } := by
    unfold handleTcpMessage
    rw [ho]
    dsimp only
    rw [if_neg (show ¬ (!msgIsTcp .Hello) = true by decide)]
    simp only [tcpMessage, if_pos (sizeofHello_le ho)]
    rfl
  have hagain := helloAgain_eq hl₁
  have hremovals := removals_helloAgain hl₁
  have hframe : handleClientFrame env s p client buf t =
      { helloAgain s₁ p { client with lastSeen := t } with removePeers := [], keepTcpPeers := [] } := by
    unfold handleClientFrame
    dsimp only
    rw [hmsg, hremovals]
    rfl
  generalize helloAgain s₁ p { client with lastSeen := t } = s₂ at hagain hframe
  obtain ⟨joined, hj, hconn, hid, hw⟩ : ∃ joined, s₂.clients.lookup p = some joined ∧ joined.connId = client.connId ∧
      joined.peerId = client.peerId ∧ joined.udpToken = makeUdpToken s₁.udpToken := by
    rw [hagain]
    dsimp only
    rw [Table.lookup_modify_self, hl₁, Option.map_some]
    obtain ⟨hconn, hid, hw⟩ := Client.unbound_eq { client with lastSeen := t, udpToken := makeUdpToken s₁.udpToken }
    dsimp only at hconn hid hw ⊢
    exact ⟨_, rfl, hconn, hid, hw⟩
  have hout : s₂.outbound = s.outbound ++ sendTcp { client with lastSeen := t } (makeWelcome client.peerId 0
      (!((s₁.players.lookup client.playerKey).getD {}).havePose) (client.peerId = s.world.hostPeerId)
      (buildSessionFlags s.cfg) (makeUdpToken s₁.udpToken)).encode := by
    rw [hagain]
    rfl
  have hworld : s₂.world = s.world := by rw [hagain]; rfl
  have hcfg : s₂.cfg = s.cfg := by rw [hagain]; rfl
  have hsend : ∀ data, sendTcp joined data = sendTcp { client with lastSeen := t } data := by
    intro data
    simp only [sendTcp, hconn, hid]
  rw [hframe]
  refine ⟨joined, !((s₁.players.lookup client.playerKey).getD {}).havePose, hj, ?_⟩
  rw [hsend, welcomeOf, hid, hw, hworld, hcfg]
  exact hout

theorem step_client {s : ServerRuntime} {i : Env × Input} {ev : InboundEvent} {t : Time} {p : PeerId} {client : Client}
    (h : ClientStep s.ready i.2 ev t p client) : s.step i = handleClientFrame i.1 s.ready p client ev.bytes t := by
  rw [ServerRuntime.step, h.input, handle]
  simp only [applyInbound, h.kind, h.target]

theorem ClientStep.unique {s : ServerRuntime} {i : Input} {ev ev' : InboundEvent} {t t' : Time} {p p' : PeerId}
    {client client' : Client} (h : ClientStep s i ev t p client) (h' : ClientStep s i ev' t' p' client') : ev' = ev ∧ p' = p := by
  have hi := h.input.symm.trans h'.input
  cases hi
  have ht := h.target.symm.trans h'.target
  cases ht
  exact ⟨rfl, rfl⟩

/-- The output of a frame of a joined client. -/
theorem clientFrame_output {s : ServerRuntime} (hw : WellFormed s) {i : Env × Input} {ev : InboundEvent} {t : Time}
    {p : PeerId} {client : Client} (hs : ClientStep s.ready i.2 ev t p client) : StepOutput s i := by
  have hl : s.ready.clients.lookup p = some client := frameTarget_client hs.target
  by_cases hh : ∃ header, openFrame ev.bytes = some (header, .Hello)
  · obtain ⟨header, ho⟩ := hh
    obtain ⟨joined, isNew, hj, hout⟩ := handleClientFrame_hello i.1 hl ho t
    rw [← step_client hs] at hj hout
    exact .again ev t p client header joined isNew hs ho (sizeofHello_le ho) hj hout
  · have hsend : Sends s.ready False (fun _ => True) p (s.step i) := by
      rw [step_client hs]
      exact sends_handleClientFrame (s := s.ready) hw.keyed hl i.1 ev.bytes t fun h => hh h
    refine .plain (fun q hq => ?_) fun cmd hc => ?_
    · cases hq with
      | joined fresh hx =>
        obtain ⟨ev', t', pending, hs', -⟩ := pendingExit_some.mp hx
        exact hs'.not_client hs
      | reconnected hx =>
        obtain ⟨ev', t', pending, hs', -⟩ := pendingExit_some.mp hx
        exact hs'.not_client hs
      | again ev' t' client' header hs' ho hn =>
        obtain ⟨rfl, -⟩ := hs.unique hs'
        exact hh ⟨header, ho⟩
    · rcases hsend cmd hc with h | h
      · cases h
      · exact h.plain

theorem not_welcomed_of {s : ServerRuntime} {i : Env × Input}
    (h : ∀ ev t, i.2 = .inbound ev t → ev.kind = .TcpFrame → frameTarget s.ready ev = .nobody) (p : PeerId) :
    ¬ Welcomed s i p := by
  have pending : ∀ {ev t pending}, ¬ PendingStep s.ready i.2 ev t pending := by
    intro ev t pending hs
    have ht := (h ev t hs.input hs.kind).symm.trans hs.target
    cases ht
  intro hp
  cases hp with
  | joined fresh hx =>
    obtain ⟨ev, t, q, hs, -⟩ := pendingExit_some.mp hx
    exact pending hs
  | reconnected hx =>
    obtain ⟨ev, t, q, hs, -⟩ := pendingExit_some.mp hx
    exact pending hs
  | again ev t client header hs ho hn =>
    have ht := (h ev t hs.input hs.kind).symm.trans hs.target
    cases ht

/-- Every step has one of the four outputs. -/
theorem step_output {s : ServerRuntime} (hw : WellFormed s) (i : Env × Input) : StepOutput s i := by
  by_cases hf : ∀ ev t, i.2 = .inbound ev t → ev.kind = .TcpFrame → frameTarget s.ready ev = .nobody
  · refine .plain (not_welcomed_of hf) fun cmd hc => ?_
    have hplain : SendsPlain s.ready (s.step i) := by
      obtain ⟨env, i⟩ := i
      unfold ServerRuntime.step handle
      cases i with
      | inbound ev t =>
        dsimp only
        unfold applyInbound
        cases hev : ev.kind with
        | TcpAccept => exact .of_eq rfl
        | TcpFrame =>
          dsimp only
          rw [hf ev t rfl hev]
          exact .of_eq rfl
        | TcpClosed =>
          dsimp only
          split
          · exact sendsPlain_removeClient env { s.ready with pendingTcp := _ } _ _
          · split
            · exact sendsPlain_removeClient env { s.ready with pendingTcp := _, clients := _ } _ _
            · exact .of_eq rfl
        | UdpDatagram =>
          dsimp only
          have hsend : Sends s.ready False (fun _ => True) ((acceptedBind s.ready ev.bytes).getD
              ((s.ready.udpPeerByAddr.lookup (addrKey ev.addr)).getD 0)) (handleUdpPacket s.ready ev.bytes ev.addr t) := by
            refine sends_handleUdpPacket (s := s.ready) hw.keyed hw.ok t (fun _ => trivial) fun id hid => ?_
            rcases hid with hid | ⟨hid, hu⟩
            · rw [hid, Option.getD_some]
            · rw [hid, hu, Option.getD_none, Option.getD_some]
          exact fun cmd hm => (hsend cmd hm).imp_right Authorized.plain
      | expirePending t =>
        refine .of_append rfl fun cmd hm => ?_
        obtain ⟨p, -, hm⟩ := List.mem_flatMap.mp hm
        exact plain_closeConn hm
      | expireClients t => exact sendsPlain_removals env s.ready _
      | sendHeartbeat => exact sendsPlain_broadcast .Heartbeat rfl (by decide) rfl
      | flushDirty =>
        dsimp only
        rw [flushDirtyAsync_eq]
        exact .of_eq rfl
      | admin cmdLine => exact sendsPlain_runAdminCommand env s.ready cmdLine
    rcases hplain cmd hc with h | h
    · cases h
    · exact h
  · push Not at hf
    obtain ⟨ev, t, hi, hk, ht⟩ := hf
    cases htarget : frameTarget s.ready ev with
    | client p client => exact clientFrame_output hw ⟨hi, hk, htarget⟩
    | pending pending => exact pendingFrame_output hw ⟨hi, hk, htarget⟩
    | nobody => exact absurd htarget ht

end ServerRuntime
end CommonwealthMP
