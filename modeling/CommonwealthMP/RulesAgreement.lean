import CommonwealthMP.ClientHearing
import CommonwealthMP.EmptiedSession

/-! # The session flags of a client and of the server

The flags reach a client in its Welcomes and in the SessionRules that every command changing them
broadcasts. Both are made from the settings the step ends with, so the last one under way is right. -/
namespace CommonwealthMP
open ByteLayout OrderedTables SessionTable StepRuns
namespace ServerRuntime

/-- The command is no TCP message of this type. -/
def Lacks (type : Msg) (cmd : OutboundCmd) : Prop := cmd.kind = .TcpSend → u8At cmd.bytes 4 ≠ type.code

theorem Lacks.of_kind {type : Msg} {cmd : OutboundCmd} (h : cmd.kind ≠ .TcpSend) : Lacks type cmd := fun hk => absurd hk h

theorem Lacks.message {type : Msg} {cmd : OutboundCmd} {header : Header} {rest : Bytes} (hb : cmd.bytes = header.encode ++ rest)
    (hne : header.type ≠ type.code) : Lacks type cmd := by
  intro _
  rwa [hb, u8At_encode_type]

theorem lacks_chunk (client : Client) {type : Msg} (ht : type = .AppearanceChunk ∨ type = .InventoryChunk) (p : PeerId)
    (blob : Bytes) (k : ℕ) : Lacks .SessionRules (toTcp client (chunkPacket type p blob k)) := by
  refine .message (List.append_assoc _ _ _) ?_
  rcases ht with rfl | rfl
  · exact (show Msg.AppearanceChunk.code ≠ Msg.SessionRules.code by decide)
  · exact (show Msg.InventoryChunk.code ≠ Msg.SessionRules.code by decide)

/-- No event of a client makes the server send SessionRules. -/
theorem Authorized.lacks_rules {clients : ClientTable} {host : PeerId} {pvp : Bool} {hello : Prop}
    {bound : SockAddr → Prop} {p : PeerId} {cmd : OutboundCmd} (h : Authorized clients host pvp hello bound p cmd) :
    Lacks .SessionRules cmd := by
  cases h with
  | welcome c w hl ht hh => exact .message rfl (by rw [ht]; decide)
  | heartbeat c hb hl ht => exact .message rfl (by rw [ht]; decide)
  | greet addr q other ha hl hq => exact .of_kind nofun
  | keepPending => exact .of_kind nofun
  | closeConn c hl => exact .of_kind nofun
  | bye q other hl hq => exact .message rfl (show Msg.Bye.code ≠ Msg.SessionRules.code by decide)
  | chat q other m hl hq ht hm => exact .message rfl (by rw [ht]; decide)
  | blob q other type blob k hl hq ht => exact lacks_chunk other ht p blob k
  | hit q other m hl hq ht hpvp ha hm hd => exact .message rfl (by rw [ht]; decide)
  | kick q other m hl ht hp hm => exact .message rfl (by rw [ht]; decide)
  | teleport q other m hl ht hp hm => exact .message rfl (by rw [ht]; decide)
  | pose q other m hl hq hb ht hm => exact .of_kind nofun
  | actorPose q other m hl hq hb ht hp => exact .of_kind nofun

/-- The commands added since `s` are no SessionRules. -/
def NoRules (s s' : ServerRuntime) : Prop := ∀ cmd ∈ s'.outbound, cmd ∈ s.outbound ∨ Lacks .SessionRules cmd

section Silent
variable {s s' s'' : ServerRuntime}

theorem NoRules.of_eq (h : s'.outbound = s.outbound) : NoRules s s' := fun _ hc => .inl (h ▸ hc)

theorem NoRules.of_append {cmds : List OutboundCmd} (h : s'.outbound = s.outbound ++ cmds)
    (hc : ∀ cmd ∈ cmds, Lacks .SessionRules cmd) : NoRules s s' := by
  intro cmd hm
  rw [h] at hm
  exact (List.mem_append.mp hm).imp_right (hc cmd)

theorem NoRules.trans (h : NoRules s s') (h' : NoRules s' s'') : NoRules s s'' :=
  fun cmd hm => (h' cmd hm).elim (h cmd) .inr

theorem lacks_closeConn {type : Msg} {c : ConnId} {cmd : OutboundCmd} (h : cmd ∈ closeConn c) : Lacks type cmd := by
  obtain ⟨-, rfl⟩ := closeConn_kind h
  exact .of_kind nofun

theorem lacks_sendTcp {type : Msg} {client : Client} {header : Header} {rest : Bytes} {cmd : OutboundCmd}
    (h : cmd ∈ sendTcp client (header.encode ++ rest)) (hne : header.type ≠ type.code) : Lacks type cmd := by
  rw [mem_sendTcp h]
  exact .message rfl hne

theorem noRules_removeClient (env : Env) (s : ServerRuntime) (id : PeerId) (keepTcp : Bool) :
    NoRules s (removeClient env s id keepTcp) := by
  cases h : s.clients.lookup id with
  | none =>
    rw [removeClient_of_absent env h]
    exact .of_eq rfl
  | some client =>
    obtain ⟨persist, he⟩ := removeClient_eq env h keepTcp
    rw [he]
    refine .of_append rfl fun cmd hm => ?_
    rcases List.mem_append.mp hm with hm | hm
    · obtain ⟨q, other, -, -, hc⟩ := mem_toOthers.mp hm
      exact lacks_sendTcp hc (show Msg.Bye.code ≠ Msg.SessionRules.code by decide)
    · unfold releaseCmds at hm
      split at hm
      · rw [List.mem_singleton.mp hm]
        exact .of_kind nofun
      · exact lacks_closeConn hm

theorem noRules_removals (env : Env) (s : ServerRuntime) (ids : List PeerId) :
    NoRules s (ids.foldl (fun s id => removeClient env s id false) s) := by
  induction ids generalizing s with
  | nil => exact .of_eq rfl
  | cons id ids ih => exact (noRules_removeClient env s id false).trans (ih _)

theorem lacks_broadcast {clients : ClientTable} {header : Header} {rest : Bytes} (hne : header.type ≠ Msg.SessionRules.code)
    {cmd : OutboundCmd} (h : cmd ∈ clients.values.flatMap fun client => sendTcp client (header.encode ++ rest)) :
    Lacks .SessionRules cmd := by
  obtain ⟨client, -, hc⟩ := List.mem_flatMap.mp h
  exact lacks_sendTcp hc hne

theorem lacks_welcomeMessages {joined : Client} {hello : Hello} {rec_ : PlayerRec} {cmd : OutboundCmd}
    (h : cmd ∈ welcomeMessages s joined hello rec_) : Lacks .SessionRules cmd := by
  have blob : ∀ {type q blob}, type = Msg.AppearanceChunk ∨ type = Msg.InventoryChunk →
      cmd ∈ sendBlobTcp joined type q blob → Lacks .SessionRules cmd := by
    intro type q blob ht hm
    obtain ⟨k, -, rfl⟩ := mem_sendBlobTcp hm
    exact lacks_chunk joined ht q blob k
  unfold welcomeMessages at h
  rcases List.mem_append.mp h with h | h
  · rcases List.mem_append.mp h with h | h
    · exact lacks_sendTcp h (show Msg.Welcome.code ≠ Msg.SessionRules.code by decide)
    · exact lacks_sendTcp h (show Msg.WorldSnapshot.code ≠ Msg.SessionRules.code by decide)
  · obtain ⟨q, other, -, -, hm⟩ := mem_toOthers.mp h
    split at hm
    · rcases List.mem_append.mp hm with hm | hm
      · rcases List.mem_append.mp hm with hm | hm
        · rw [(mem_sendUdp hm).2]
          exact .of_kind nofun
        · split at hm
          · cases hm
          · exact blob (.inl rfl) hm
      · split at hm
        · cases hm
        · exact blob (.inr rfl) hm
    · cases hm

theorem noRules_completeJoin {id : PeerId} {joined : Client} (h : s.clients.lookup id = some joined) (hello : Hello)
    (rec_ : PlayerRec) : NoRules s (completeJoin s id hello rec_) := by
  obtain ⟨world, dirty, hash, he, -⟩ := completeJoin_eq h hello rec_
  rw [he]
  exact .of_append rfl fun cmd hm => lacks_welcomeMessages hm

theorem lacks_bindPeer {c : ConnId} {p : PeerId} {cmd : OutboundCmd} (h : cmd ∈ bindPeer c p) : Lacks .SessionRules cmd := by
  obtain ⟨-, -, rfl⟩ := bindPeer_kind h
  exact .of_kind nofun

end Silent

/-- What an input does to the flags: it keeps them and sends no SessionRules, or it tells everyone
the new ones. -/
inductive RulesCase (s : ServerRuntime) (s' : ServerRuntime) : Prop
  | kept (hf : buildSessionFlags s'.cfg = buildSessionFlags s.cfg) (hn : NoRules s s')
  | announced (hc : s'.clients = s.clients)
      (ho : s'.outbound = s.outbound ++
        s.clients.values.flatMap fun client => sendTcp client (makeSessionRules (buildSessionFlags s'.cfg)).encode)

theorem rules_kickClient {s : ServerRuntime} {id : PeerId} {client : Client} (h : s.clients.lookup id = some client)
    (doBan : Bool) : RulesCase s (kickClient s id client doBan) := by
  obtain ⟨dirty, he⟩ := kickClient_eq h doBan
  rw [he]
  refine .kept rfl (.of_append rfl fun cmd hm => ?_)
  rcases List.mem_append.mp hm with hm | hm
  · exact lacks_sendTcp hm (show Msg.Bye.code ≠ Msg.SessionRules.code by decide)
  · exact lacks_closeConn hm

theorem runAdminCommand_rules (env : Env) (s : ServerRuntime) (cmdLine : Bytes) :
    RulesCase s (runAdminCommand env s cmdLine) := by
  have hcase := runAdminCommand_console env s cmdLine
  generalize runAdminCommand env s cmdLine = s' at hcase ⊢
  cases hcase with
  | kick id client doBan hl => exact rules_kickClient hl doBan
  | silent _ hc hf ho => exact .kept hf (.of_eq ho)
  | say text =>
    exact .kept rfl (.of_append rfl fun _ hm => lacks_broadcast (show Msg.Chat.code ≠ Msg.SessionRules.code by decide) hm)
  | rules cfg hash => exact .announced rfl rfl

theorem noRules_admitHello (env : Env) {s : ServerRuntime} (hk : Keyed s.clients) {hello : Hello}
    (hhost : helloRequiresHost hello = true → s.world.hostPeerId ≠ 0) (pending : PendingTcp) (t : Time) :
    NoRules s (admitHello env s pending hello t).runtime := by
  cases hf : findByKey s (helloKey hello) with
  | some e =>
    obtain ⟨id, client⟩ := e
    have hl : (enterRecord s hello).clients.lookup id = some client := (findByKey_some hf).1
    obtain ⟨joined, isNew, rest, hj, -, -⟩ := admitHello_reconnect_output env hf (hk id client hl) pending t
    rw [admitHello_reconnect env hf] at hj ⊢
    rw [(completeJoin_clients _ _ _ _).1] at hj
    refine NoRules.trans (.of_append (congrArg outbound (softReconnect_eq hl pending hello (helloRecord s hello) t)) ?_)
      (noRules_completeJoin hj hello _)
    intro cmd hm
    rcases List.mem_append.mp hm with hm | hm
    · split at hm
      · exact lacks_closeConn hm
      · cases hm
    · exact lacks_bindPeer hm
  | none =>
    obtain ⟨joined, isNew, rest, hj, -, -⟩ := admitHello_join_output env hf hhost pending t
    rw [admitHello_join env hf hhost] at hj ⊢
    rw [(completeJoin_clients _ _ _ _).1] at hj
    exact NoRules.trans (.of_append rfl fun cmd hm => lacks_bindPeer hm) (noRules_completeJoin hj hello _)

/-- Only the console announces rules. -/
theorem step_noRules {s : ServerRuntime} (hw : WellFormed s) {i : Env × Input} (hi : ∀ cmdLine, i.2 ≠ .admin cmdLine) :
    NoRules s.ready (s.step i) := by
  have attributed : ∀ {p}, Attributed s.ready i.2 p → NoRules s.ready (s.step i) := fun ha cmd hm =>
    .inr (step_authorized hw ha hm).lacks_rules
  obtain ⟨env, i⟩ := i
  cases i with
  | inbound ev t =>
    cases hev : ev.kind with
    | TcpAccept => exact .of_eq (by simp only [ServerRuntime.step, handle, applyInbound, hev])
    | TcpFrame =>
      cases ht : frameTarget s.ready ev with
      | client p client => exact attributed (.frame ev t client ⟨rfl, hev, ht⟩)
      | pending pending =>
        have hs : PendingStep s.ready (Input.inbound ev t) ev t pending := ⟨rfl, hev, ht⟩
        obtain ⟨ps, hframe⟩ := handlePendingFrame_eq env s.ready pending ev.bytes t
        rw [step_pending (i := (env, .inbound ev t)) hs, hframe]
        rcases handlePendingMessage_cases env (s := s.ready) hw.keyed hw.ok pending ev.bytes t with hu | ⟨header, ha, he⟩
        · intro cmd hm
          refine (hu.answers cmd hm).imp_right ?_
          rintro ⟨header, rest, ht, rfl⟩
          refine .message rfl ?_
          rcases ht with ht | ht
          · rw [ht]
            decide
          · rw [ht]
            decide
        · rw [he]
          exact noRules_admitHello (s := s.ready.countHello pending t) env hw.keyed (fun hr => hostGate_hostPeerId (ha.host hr)) pending t
      | nobody => exact .of_eq (by simp only [ServerRuntime.step, handle, applyInbound, hev, ht])
    | TcpClosed =>
      simp only [ServerRuntime.step, handle, applyInbound, hev]
      split
      · exact noRules_removeClient env { s.ready with pendingTcp := _ } _ _
      · split
        · exact noRules_removeClient env { s.ready with pendingTcp := _, clients := _ } _ _
        · exact .of_eq rfl
    | UdpDatagram =>
      have hsend : Sends s.ready False (fun _ => True) ((acceptedBind s.ready ev.bytes).getD
          ((s.ready.udpPeerByAddr.lookup (addrKey ev.addr)).getD 0)) (handleUdpPacket s.ready ev.bytes ev.addr t) := by
        refine sends_handleUdpPacket (s := s.ready) hw.keyed hw.ok t (fun _ => trivial) fun id hid => ?_
        rcases hid with hid | ⟨hid, hu⟩
        · rw [hid, Option.getD_some]
        · rw [hid, hu, Option.getD_none, Option.getD_some]
      simp only [ServerRuntime.step, handle, applyInbound, hev]
      exact fun cmd hm => (hsend cmd hm).imp_right Authorized.lacks_rules
  | expirePending t =>
    refine .of_append rfl fun cmd hm => ?_
    obtain ⟨p, -, hm⟩ := List.mem_flatMap.mp hm
    exact lacks_closeConn hm
  | expireClients t => exact noRules_removals env s.ready _
  | sendHeartbeat =>
    exact .of_append rfl fun cmd hm => lacks_broadcast (show Msg.Heartbeat.code ≠ Msg.SessionRules.code by decide) hm
  | flushDirty =>
    refine .of_eq ?_
    simp only [ServerRuntime.step, handle, flushDirtyAsync_eq]
  | admin cmdLine => exact absurd rfl (hi cmdLine)

theorem step_rules {s : ServerRuntime} (hw : WellFormed s) (i : Env × Input) : RulesCase s.ready (s.step i) := by
  by_cases hi : ∃ cmdLine, i.2 = .admin cmdLine
  · obtain ⟨cmdLine, hi⟩ := hi
    rw [ServerRuntime.step, hi]
    exact runAdminCommand_rules i.1 s.ready cmdLine
  · push Not at hi
    exact .kept (congrArg buildSessionFlags (keepsSettings_step hw hi).cfg) (step_noRules hw hi)

theorem decode_makeSessionRules (flags : UInt32) : SessionRules.decode (makeSessionRules flags).encode = makeSessionRules flags := by
  simp [SessionRules.decode, SessionRules.encode, makeSessionRules, Header.decode_encode_append, u32At_skip]

def flagsIn (buf : Bytes) : Option UInt32 :=
  match headerOk (Header.decode buf) buf.length with
  | some .Welcome => some (Welcome.decode buf).sessionFlags
  | some .SessionRules => some (SessionRules.decode buf).sessionFlags
  | _ => none

def hearFlags (flags : UInt32) (buf : Bytes) : UInt32 := (flagsIn buf).getD flags

theorem foldl_hearFlags {frames : List Bytes} {flags : UInt32} (h : ∀ buf ∈ frames, ∀ f, flagsIn buf = some f → f = flags)
    (x : UInt32) : (∀ buf ∈ frames, flagsIn buf = none) ∧ frames.foldl hearFlags x = x ∨ frames.foldl hearFlags x = flags := by
  induction frames generalizing x with
  | nil => exact .inl ⟨nofun, rfl⟩
  | cons buf frames ih =>
    rw [List.foldl_cons]
    have hrest := fun x => ih (fun b hb => h b (List.mem_cons_of_mem _ hb)) x
    cases hf : flagsIn buf with
    | none =>
      rw [show hearFlags x buf = x by rw [hearFlags, hf]; rfl]
      exact (hrest x).imp_left fun ⟨hn, hx⟩ => ⟨List.forall_mem_cons.mpr ⟨hf, hn⟩, hx⟩
    | some f =>
      have hflags : hearFlags x buf = flags := by
        rw [hearFlags, hf]
        exact h buf List.mem_cons_self f hf
      rw [hflags]
      exact .inr ((hrest flags).elim (·.2) id)

theorem flagsIn_welcome {buf : Bytes} {w : Welcome} (h : welcomeIn buf = some w) : flagsIn buf = some w.sessionFlags := by
  unfold welcomeIn at h
  split at h
  · rename_i hok
    cases h
    rw [flagsIn, hok]
  · cases h

theorem flagsIn_rules (flags : UInt32) : flagsIn (makeSessionRules flags).encode = some flags := by
  have hok : headerOk (Header.decode (makeSessionRules flags).encode) (makeSessionRules flags).encode.length =
      some .SessionRules := by
    have hlen : (makeSessionRules flags).encode.length = 16 := by simp [SessionRules.encode]
    rw [hlen, SessionRules.encode, Header.decode_encode_append]
    exact headerOk_fill rfl (by decide) (by decide)
  rw [flagsIn, hok, decode_makeSessionRules]
  rfl

theorem flagsIn_some {buf : Bytes} {f : UInt32} (h : flagsIn buf = some f) :
    (∃ w, welcomeIn buf = some w ∧ w.sessionFlags = f) ∨
      u8At buf 4 = Msg.SessionRules.code ∧ (SessionRules.decode buf).sessionFlags = f := by
  unfold flagsIn at h
  split at h
  · rename_i hok
    exact .inl ⟨_, by rw [welcomeIn, hok], Option.some.inj h⟩
  · rename_i hok
    exact .inr ⟨(headerOk_spec hok).1, Option.some.inj h⟩
  · cases h

theorem flagsTo_current {s : ServerRuntime} (hw : WellFormed s) {i : Env × Input} {k : ConnId} (hk : k ≠ 0) {buf : Bytes}
    (hm : buf ∈ framesTo k (s.step i).outbound) {f : UInt32} (hf : flagsIn buf = some f) :
    f = buildSessionFlags (s.step i).cfg := by
  rcases flagsIn_some hf with ⟨w, hwelcome, rfl⟩ | ⟨htype, rfl⟩
  · obtain ⟨p, c, isNew, -, rfl⟩ := welcomesTo_live hw hk (List.mem_filterMap.mpr ⟨buf, hm, hwelcome⟩)
    rfl
  · obtain ⟨cmd, hcmd, hkind, -, rfl⟩ := mem_framesTo.mp hm
    cases step_rules hw i with
    | kept hflags hn =>
      rcases hn cmd hcmd with h | h
      · cases h
      · exact absurd htype (h hkind)
    | announced hc ho =>
      rw [ho] at hcmd
      rcases List.mem_append.mp hcmd with h | h
      · cases h
      · obtain ⟨client, -, h⟩ := List.mem_flatMap.mp h
        rw [mem_sendTcp h, toTcp]
        dsimp only
        rw [decode_makeSessionRules]
        rfl

/-- The server's flags are the ones told on a connection, if it has a session there. -/
def ToldFlags (s : ServerRuntime) (k : ConnId) (flags : UInt32) : Prop :=
  ∀ p c, s.clients.lookup p = some c → c.connId = k → flags = buildSessionFlags s.cfg

theorem ToldFlags.step {s : ServerRuntime} {i : Env × Input} {k : ConnId} {x : UInt32} {used : List ConnId}
    (hw : WellFormed s) (ho : Owned used s.sessions) (h0 : 0 ∉ used) (hk : k ≠ 0) (hnot : closeCmd k ∉ (s.step i).outbound)
    (hhung : closedConn i ≠ some k) (h : ToldFlags s k x) :
    ToldFlags (s.step i) k ((framesTo k (s.step i).outbound).foldl hearFlags x) := by
  intro p c hl hc
  rcases foldl_hearFlags (fun buf hm f hf => flagsTo_current hw hk hm hf) x with ⟨hnone, hx⟩ | hx
  · rw [hx]
    cases step_attended hw ho h0 i hk with
    | closed hc => exact absurd hc hnot
    | hungUp hc => exact absurd hc hhung
    | bye ev t q client header hs hconn hopen =>
      exact absurd (hc.trans hconn.symm) (bye_leaves hw ho hs hopen (liveOf_some hl))
    | welcomed q client isNew hq hconn hwelcomes =>
      -- the Welcome carries flags
      have hm : welcomeOf (s.step i) client isNew ∈ welcomesTo k (s.step i).outbound := by
        rw [hwelcomes]
        exact List.mem_singleton.mpr rfl
      obtain ⟨buf, hbuf, hw⟩ := List.mem_filterMap.mp hm
      exact nomatch (flagsIn_welcome hw).symm.trans (hnone buf hbuf)
    | same hwelcomes hstays =>
      obtain ⟨e, he, hconn, -⟩ := hstays.back p _ (liveOf_some hl) hc
      obtain ⟨c₀, hl₀, rfl⟩ := liveOf_eq_some.mp he
      have hold := h p c₀ hl₀ hconn
      cases step_rules hw i with
      | kept hflags hn => exact hold.trans hflags.symm
      | announced hclients hout =>
        -- the rules reach everyone who is live
        have hl : s.clients.lookup p = some c := hclients ▸ hl
        have hrules : (makeSessionRules (buildSessionFlags (s.step i).cfg)).encode ∈ framesTo k (s.step i).outbound := by
          refine mem_framesTo.mpr ⟨toTcp c (makeSessionRules (buildSessionFlags (s.step i).cfg)).encode, ?_, rfl, hc, rfl⟩
          rw [hout]
          refine List.mem_append_right _ (List.mem_flatMap.mpr ⟨c, Table.mem_values.mpr ⟨p, hl⟩, ?_⟩)
          rw [sendTcp_eq (hc.symm ▸ hk) (List.ne_nil_of_length_pos (by simp [SessionRules.encode]))]
          exact List.mem_singleton.mpr rfl
        exact nomatch (flagsIn_rules _).symm.trans (hnone _ hrules)
  · exact hx

end ServerRuntime

namespace Call
open Plugin ServerRuntime

theorem flagsIn_handled (game : LocalGame) {buf : Bytes} {c : Plugin.Client Link}
    (h : endsSession c.session.net.myPeerId buf = false) :
    (handleMessage linkSockets game buf c).session.menu.sessionFlags = hearFlags c.session.menu.sessionFlags buf := by
  unfold endsSession at h
  unfold handleMessage hearFlags flagsIn
  cases hh : headerOk (Header.decode buf) buf.length with
  | none => rfl
  | some type =>
    rw [hh] at h
    dsimp only
    cases type <;> simp only [reduceCtorEq, decide_eq_false_iff_not] at h
    case Welcome =>
      have hl : sizeofWelcome ≤ buf.length := headerOk_length hh fun _ => of_decide_eq_true
      rw [message, if_pos hl]
      exact congrArg Core.sessionFlags (undisturbed_handleWelcome (S := linkSockets) game (Welcome.decode buf)
        { c with session.lastRecvSec := linkSockets.nowSec c.sockets }).core
    case SessionRules =>
      have hl : sizeofSessionRules ≤ buf.length := headerOk_length hh fun _ => of_decide_eq_true
      rw [message, if_pos hl]
      rfl
    case Bye =>
      unfold message
      dsimp only
      rw [if_neg h]
      split <;> rfl
    all_goals
      unfold message
      dsimp only
      first | rfl | (split <;> rfl)

/-- The session flags, as the frames under way will leave them. -/
def flagsHearing : Hearing UInt32 where
  part s := s.menu.sessionFlags
  blank := 0
  hear := hearFlags
  joined h := h.sessionFlags
  undisturbed h := congrArg Core.sessionFlags h.core
  merged _ := rfl
  message := flagsIn_handled
  invalid x buf h := by
    rw [hearFlags, flagsIn, h]
    rfl
  pose x buf h := by
    cases hf : flagsIn buf with
    | none =>
      rw [hearFlags, hf]
      rfl
    | some f =>
      have htype : u8At buf 4 = Msg.Welcome.code ∨ u8At buf 4 = Msg.SessionRules.code :=
        (flagsIn_some hf).imp (fun ⟨_, hw, _⟩ => welcomeIn_type hw) And.left
      unfold typeIs at h
      exfalso
      rcases htype with ht | ht <;> rw [ht] at h <;> revert h <;> decide

end Call

namespace Joint
open Call Plugin ServerRuntime

theorem follows_toldFlags : Follows flagsHearing ToldFlags fun _ _ _ _ => True where
  unheard h p _ hl hc := absurd hc (h p _ (liveOf_some hl))
  step hs ho h0 hk hnot hhung _ h := h.step hs.wellFormed ho h0 hk hnot hhung

theorem meets_flags (w : Joint) (a : Action) : Meets flagsHearing (fun _ _ _ _ => True) w a := by
  cases a with
  | call os a =>
    intro game _
    obtain ⟨d, hd, he⟩ := undisturbed_prelude (S := linkSockets) game { w.client with sockets.os := os }
    rw [he]
    exact congrArg Core.sessionFlags hd.core
  | serve => exact fun _ _ _ _ => trivial
  | arrive => exact fun _ _ _ _ => trivial
  | lose => exact trivial
  | other => exact fun _ _ => trivial

/-- In every run, when no TCP message is under way, a client that is live on the server has the
flags of the server's settings. -/
theorem rulesAgree (b : Startup) (settings : Settings) (as : List Action)
    (hs : Settled (run Joint.step (start b settings) as)) (h0 : (run Joint.step (start b settings) as).client.sockets.conn ≠ 0)
    (p : PeerId) (c : CommonwealthMP.Client) (hl : (run Joint.step (start b settings) as).server.clients.lookup p = some c)
    (hc : c.connId = (run Joint.step (start b settings) as).client.sockets.conn) :
    (run Joint.step (start b settings) as).client.session.menu.sessionFlags =
      buildSessionFlags (run Joint.step (start b settings) as).server.cfg := by
  have hall : AllSteps Joint.step (Meets flagsHearing fun _ _ _ _ => True) (start b settings) as :=
    allSteps_iff_split.mpr fun _ _ _ _ => meets_flags _ _
  exact (inStep_run follows_toldFlags b settings hall).settled hs h0 p c hl hc

/-- PvP goes on while the Welcome of the first player is under way. -/
def joinAndPvp : List Action :=
  [.call firstAnswers (.join outdoors 0), .serve 1 plainEnv 1 0, .serve 1 plainEnv 1 0,
    .other (plainEnv, .admin (ascii "pvp on")), .call firstAnswers (.begin outdoors), .call firstAnswers (.turn outdoors),
    .call firstAnswers (.turn outdoors), .call firstAnswers (.turn outdoors), .serve 1 plainEnv 1 1, .serve 1 plainEnv 1 1,
    .call firstAnswers (.turn outdoors)]

theorem rulesAgree_joinAndPvp :
    (run Joint.step onePlayer joinAndPvp).client.session.menu.sessionFlags =
        buildSessionFlags (run Joint.step onePlayer joinAndPvp).server.cfg ∧
      (run Joint.step onePlayer joinAndPvp).client.session.menu.sessionFlags = kSessionPvpEnabled := by
  have hl : ((run Joint.step onePlayer joinAndPvp).server.clients.lookup 1).map (·.connId) = some 1 := by decide +kernel
  have hconn : (run Joint.step onePlayer joinAndPvp).client.sockets.conn = 1 := by decide +kernel
  obtain ⟨c, hl, hc⟩ := Option.map_eq_some_iff.mp hl
  have hagree := rulesAgree freshStart { playerKey := ascii "a" } joinAndPvp
  rw [show start freshStart { playerKey := ascii "a" } = onePlayer from rfl] at hagree
  have hsettled : Settled (run Joint.step onePlayer joinAndPvp) :=
    ⟨by decide +kernel, by decide +kernel, by decide +kernel⟩
  refine ⟨hagree hsettled (by rw [hconn]; decide) 1 c hl (hc.trans hconn.symm), ?_⟩
  decide +kernel

end Joint
end CommonwealthMP
