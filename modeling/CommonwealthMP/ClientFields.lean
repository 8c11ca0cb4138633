import CommonwealthMP.MailOrigins

/-! # What steps leave of a client

A part of a client's record that only its own messages set: departures, blobs, tokens and the
administrator leave it as it is. -/
namespace CommonwealthMP
open ByteLayout OrderedTables SessionTable
namespace ServerRuntime

def opens (want : Msg → Bool) (buf : Bytes) : Bool := (openFrame buf).elim false fun frame => want frame.2

theorem opens_some {want : Msg → Bool} {buf : Bytes} {header : Header} {type : Msg} (ho : openFrame buf = some (header, type)) :
    opens want buf = want type := by rw [opens, ho, Option.elim_some]

theorem opens_none {want : Msg → Bool} {buf : Bytes} (ho : openFrame buf = none) : opens want buf = false := by
  rw [opens, ho, Option.elim_none]

/-- A part of the record that is neither its connection, its address, its token nor its blobs. -/
structure Lasting {β : Type} (f : Client → β) : Prop where
  conn : ∀ c conn, f { c with connId := conn } = f c
  unbound : ∀ c, f (Client.unbound c) = f c
  token : ∀ c token, f { c with udpToken := token } = f c
  blob : ∀ c type blob, f (Client.storeBlob type blob c) = f c

/-- The clients of `s'` were clients of `s`, and this part of them is what it was. -/
def Retains {β : Type} (f : Client → β) (s s' : ServerRuntime) : Prop :=
  ∀ q c', s'.clients.lookup q = some c' → ∃ c, s.clients.lookup q = some c ∧ f c' = f c

section Retains
variable {β : Type} {f : Client → β} {s s' s'' : ServerRuntime}

theorem Retains.of_eq (h : s'.clients = s.clients) : Retains f s s' := fun _ c' hc => ⟨c', h ▸ hc, rfl⟩

theorem Retains.trans (h : Retains f s s') (h' : Retains f s' s'') : Retains f s s'' := by
  intro q c'' hc
  obtain ⟨c', hc', hf'⟩ := h' q c'' hc
  obtain ⟨c, hc, hf⟩ := h q c' hc'
  exact ⟨c, hc, hf'.trans hf⟩

theorem Retains.modify {id : PeerId} {g : Client → Client} (h : s'.clients = s.clients.modify id g)
    (hg : ∀ c, s.clients.lookup id = some c → f (g c) = f c) : Retains f s s' := by
  intro q c' hc
  rw [h, Table.lookup_modify] at hc
  split at hc
  · rename_i hq
    obtain ⟨c, hl, rfl⟩ := Option.map_eq_some_iff.mp hc
    exact ⟨c, hl, hg c (hq ▸ hl)⟩
  · exact ⟨c', hc, rfl⟩

theorem Retains.erase {id : PeerId} (h : s'.clients = s.clients.erase id) : Retains f s s' := by
  intro q c' hc
  rw [h, Table.lookup_erase] at hc
  split at hc
  · cases hc
  · exact ⟨c', hc, rfl⟩

theorem retains_removeClient (env : Env) (s : ServerRuntime) (id : PeerId) (keepTcp : Bool) :
    Retains f s (removeClient env s id keepTcp) := by
  cases h : s.clients.lookup id with
  | none =>
    rw [removeClient_of_absent env h]
    exact .of_eq rfl
  | some client =>
    obtain ⟨persist, he⟩ := removeClient_eq env h keepTcp
    exact .erase (congrArg clients he)

theorem retains_removals (env : Env) (keep : PeerId → Bool) (s : ServerRuntime) (ids : List PeerId) :
    Retains f s (ids.foldl (fun s id => removeClient env s id (keep id)) s) := by
  induction ids generalizing s with
  | nil => exact .of_eq rfl
  | cons id ids ih => exact (retains_removeClient env s id (keep id)).trans (ih _)

theorem retains_tcpBlobChunk (hf : Lasting f) (env : Env) (s : ServerRuntime) (type : Msg) (id : PeerId) (client : Client) (buf : Bytes)
    (t : Time) : Retains f s (tcpBlobChunk env s type id client buf t) := by
  rcases tcpBlobChunk_cases env s type id client buf t with ⟨-, he⟩ | ⟨a, -, -, he⟩ | ⟨a, blob, -, -, he⟩
  · rw [he]
    exact .of_eq rfl
  · rw [he, setAssemblies_eq]
    exact .of_eq rfl
  · rw [he, setAssemblies_eq]
    exact .modify rfl fun c _ => hf.blob c type blob

theorem retains_tcpMessage (hf : Lasting f) (env : Env) {s : ServerRuntime} {id : PeerId} {client : Client}
    (hl : s.clients.lookup id = some client) (type : Msg) (buf : Bytes) (t : Time) :
    Retains f s (tcpMessage env s type id client buf t) := by
  refine tcpMessage_cases (.of_eq rfl) ?bye ?hello ?snapshot ?chunk ?heartbeat ?chat ?kick ?teleport ?hit
  case bye => exact fun _ => .of_eq rfl
  case hello =>
    intro _
    rw [helloAgain_eq hl]
    exact .modify rfl fun c _ => (hf.unbound _).trans (hf.token c _)
  case snapshot =>
    intro _
    rcases tcpWorldSnapshot_cases s client buf with ⟨-, he⟩ | ⟨-, world, -, he⟩ <;> rw [he] <;> exact .of_eq rfl
  case chunk => exact fun _ => retains_tcpBlobChunk hf env s type id client buf t
  case heartbeat => exact fun _ => .of_eq rfl
  case chat =>
    intro _
    rcases tcpChat_cases s client buf t with ⟨-, he⟩ | ⟨-, he⟩ <;> rw [he] <;> exact .of_eq rfl
  case kick =>
    intro _
    rcases tcpKick_cases s client buf with he | ⟨other, -, -, he⟩ <;> rw [he] <;> exact .of_eq rfl
  case teleport =>
    intro _
    rcases tcpTeleport_cases s client buf with he | ⟨other, -, -, he⟩ <;> rw [he] <;> exact .of_eq rfl
  case hit =>
    intro _
    rcases tcpHit_cases s client buf t with he | he | ⟨hit, -, -, -, -, -, -, he⟩ <;> rw [he] <;> exact .of_eq rfl

theorem retains_handleClientFrame (hf : Lasting f) (env : Env) {s : ServerRuntime} {id : PeerId} {client : Client}
    (hl : s.clients.lookup id = some client) (buf : Bytes) (t : Time) :
    Retains f (if opens msgIsTcp buf then s.seen id t else s) (handleClientFrame env s id client buf t) := by
  unfold handleClientFrame
  dsimp only
  let s₀ : ServerRuntime := { s with removePeers := [], keepTcpPeers := [] }
  have hmessage : Retains f (if opens msgIsTcp buf then s.seen id t else s) (handleTcpMessage env s₀ id client buf t) := by
    unfold handleTcpMessage
    cases ho : openFrame buf with
    | none =>
      rw [opens_none ho]
      exact .of_eq rfl
    | some frame =>
      obtain ⟨header, type⟩ := frame
      rw [opens_some ho]
      dsimp only
      by_cases htcp : msgIsTcp type = true
      · rw [if_pos htcp, if_neg (by simp [htcp])]
        have hseen : Retains f (s.seen id t) (s₀.seen id t) := .of_eq rfl
        exact hseen.trans (retains_tcpMessage hf env (s := s₀.seen id t) (lookup_seen hl t) type buf t)
      · rw [if_neg htcp, if_pos (by simp [htcp])]
        exact .of_eq rfl
  have hremovals := retains_removals (f := f) env
    (fun peerId => (handleTcpMessage env s₀ id client buf t).keepTcpPeers.contains peerId)
    (handleTcpMessage env s₀ id client buf t) (handleTcpMessage env s₀ id client buf t).removePeers
  exact hmessage.trans (hremovals.trans (.of_eq rfl))

theorem retains_kickClient {s : ServerRuntime} {id : PeerId} {client : Client} (hl : s.clients.lookup id = some client)
    (doBan : Bool) : Retains f s (kickClient s id client doBan) := by
  obtain ⟨dirty, he⟩ := kickClient_eq hl doBan
  exact .erase (congrArg clients he)

theorem retains_runAdminCommand (env : Env) (s : ServerRuntime) (cmdLine : Bytes) : Retains f s (runAdminCommand env s cmdLine) := by
  have hcase := runAdminCommand_console env s cmdLine
  generalize runAdminCommand env s cmdLine = s' at hcase ⊢
  cases hcase with
  | kick id client doBan hl => exact retains_kickClient hl doBan
  | silent _ hc hf ho => exact .of_eq hc
  | say text => exact .of_eq rfl
  | rules cfg hash => exact .of_eq rfl

end Retains

/-- What a step does to such a part: nothing, unless it handles a frame or a datagram of a client, or admits one. -/
inductive RetainCase {β : Type} (f : Client → β) (s : ServerRuntime) (i : Env × Input) : Prop
  | kept (h : Retains f s.ready (s.step i)) (hi : ∀ ev t, i.2 = .inbound ev t → ev.kind = .TcpFrame →
      (∀ id c, frameTarget s.ready ev ≠ .client id c) ∧
        ∀ pending, frameTarget s.ready ev = .pending pending →
          Unadmitted s.ready pending (handlePendingMessage i.1 s.ready pending ev.bytes t))
      (hd : ∀ ev t, i.2 = .inbound ev t → ev.kind ≠ .UdpDatagram)
  | frame (ev t p client) (hs : ClientStep s.ready i.2 ev t p client)
      (h : Retains f (if opens msgIsTcp ev.bytes then s.ready.seen p t else s.ready) (s.step i))
  | datagram (ev t) (hi : i.2 = .inbound ev t) (hev : ev.kind = .UdpDatagram)
      (h : s.step i = handleUdpPacket s.ready ev.bytes ev.addr t)
  | admitted (ev t pending header ps) (hs : PendingStep s.ready i.2 ev t pending) (ha : Admitted s.ready pending ev.bytes t header)
      (he : handlePendingMessage i.1 s.ready pending ev.bytes t =
        admitHello i.1 (s.ready.countHello pending t) pending (readHello ev.bytes) t)
      (h : s.step i = { (handlePendingMessage i.1 s.ready pending ev.bytes t).runtime with pendingTcp := ps })

theorem step_retainCase {β : Type} {f : Client → β} (hf : Lasting f) {s : ServerRuntime} (hw : WellFormed s) (i : Env × Input) :
    RetainCase f s i := by
  obtain ⟨env, i⟩ := i
  have other (h : Retains f s.ready (s.step (env, i))) (hi : ∀ ev t, i ≠ .inbound ev t) : RetainCase f s (env, i) :=
    .kept h (fun ev t he => absurd he (hi ev t)) fun ev t he => absurd he (hi ev t)
  cases i with
  | inbound ev t =>
    have idle (h : Retains f s.ready (s.step (env, .inbound ev t))) (hframe : ev.kind ≠ .TcpFrame) (hd : ev.kind ≠ .UdpDatagram) :
        RetainCase f s (env, .inbound ev t) := by
      refine .kept h (fun ev' t' he hk => ?_) fun ev' t' he hk => ?_
      · cases he
        exact absurd hk hframe
      · cases he
        exact absurd hk hd
    cases hev : ev.kind with
    | TcpAccept =>
      exact idle (.of_eq (by simp only [ServerRuntime.step, handle, applyInbound, hev])) (by rw [hev]; decide) (by rw [hev]; decide)
    | TcpFrame =>
      cases ht : frameTarget s.ready ev with
      | client p client =>
        have hs : ClientStep s.ready (Input.inbound ev t) ev t p client := ⟨rfl, hev, ht⟩
        refine .frame ev t p client hs ?_
        rw [step_client (i := (env, .inbound ev t)) hs]
        exact retains_handleClientFrame hf env (frameTarget_client ht) ev.bytes t
      | pending pending =>
        have hs : PendingStep s.ready (Input.inbound ev t) ev t pending := ⟨rfl, hev, ht⟩
        obtain ⟨ps, hframe⟩ := handlePendingFrame_eq env s.ready pending ev.bytes t
        have hstep : s.step (env, .inbound ev t) =
            { (handlePendingMessage env s.ready pending ev.bytes t).runtime with pendingTcp := ps } := by
          rw [step_pending (i := (env, .inbound ev t)) hs, hframe]
        rcases handlePendingMessage_cases env (s := s.ready) hw.keyed hw.ok pending ev.bytes t with hu | ⟨header, ha, he⟩
        · refine .kept ?_ (fun ev' t' he hk => ?_) fun ev' t' he hk => ?_
          · rw [hstep]
            have hclients := congrArg clients hu.runtime
            exact .of_eq hclients
          · cases he
            refine ⟨fun id c hc => ?_, fun pending' hp => ?_⟩
            · rw [ht] at hc
              cases hc
            · rw [ht] at hp
              cases hp
              exact hu
          · cases he
            rw [hev] at hk
            cases hk
        · exact .admitted ev t pending header ps hs ha he hstep
      | nobody =>
        refine .kept (.of_eq (by simp only [ServerRuntime.step, handle, applyInbound, hev, ht])) (fun ev' t' he hk => ?_)
          fun ev' t' he hk => ?_
        · cases he
          refine ⟨fun id c hc => ?_, fun pending hp => ?_⟩
          · rw [ht] at hc
            cases hc
          · rw [ht] at hp
            cases hp
        · cases he
          rw [hev] at hk
          cases hk
    | TcpClosed =>
      refine idle ?_ (by rw [hev]; decide) (by rw [hev]; decide)
      simp only [ServerRuntime.step, handle, applyInbound, hev]
      split
      · exact Retains.trans (.of_eq rfl) (retains_removeClient env _ _ _)
      · split
        · exact Retains.trans (.modify rfl fun c _ => hf.conn c 0) (retains_removeClient env _ _ _)
        · exact .of_eq rfl
    | UdpDatagram =>
      exact .datagram ev t rfl hev (by simp only [ServerRuntime.step, handle, applyInbound, hev])
  | expirePending t => exact other (.of_eq rfl) fun _ _ h => by cases h
  | expireClients t => exact other (retains_removals env (fun _ => false) s.ready _) fun _ _ h => by cases h
  | sendHeartbeat => exact other (.of_eq rfl) fun _ _ h => by cases h
  | flushDirty =>
    refine other ?_ fun _ _ h => by cases h
    simp only [ServerRuntime.step, handle, flushDirtyAsync_eq]
    exact .of_eq rfl
  | admin cmdLine => exact other (retains_runAdminCommand env s.ready cmdLine) fun _ _ h => by cases h

end ServerRuntime
end CommonwealthMP
