import CommonwealthMP.AddressTable
import CommonwealthMP.Welcomes

/-! # Freshness of the UDP bindings

The authority of a pose datagram is its source address. The address was bound with the token
of the client's last Welcome, and no step since then has given the client a new token. -/
namespace CommonwealthMP
open ByteLayout Binary32 OrderedTables SessionTable
namespace ServerRuntime

/-- The tokens of the Welcomes that commands carry to `p`, in order. -/
def welcomeTokens (p : PeerId) (cmds : List OutboundCmd) : List UInt32 :=
  (cmds.filter fun cmd => isWelcome cmd && cmd.peerId == p).map fun cmd => (Welcome.decode cmd.bytes).udpToken

/-- The token of the last Welcome that the run sent to `p`. -/
def lastWelcomeToken (b : Startup) (is : List (Env × Input)) (p : PeerId) : Option UInt32 :=
  (StepRuns.collect step (fun s i => welcomeTokens p (s.step i).outbound) b.runtime is).getLast?

inductive Reissued (s : ServerRuntime) (i : Env × Input) (p : PeerId) : Prop
  | softReconnect (hx : pendingExit s i = some (.reconnected p))
  | helloAgain (ev t client header) (hs : ClientStep s.ready i.2 ev t p client)
      (ho : openFrame ev.bytes = some (header, .Hello))

/-- The run bound `p` to `addr` with this token, and has neither removed `p` nor given it a new
token since. -/
def BoundInRun (b : Startup) (is : List (Env × Input)) (p : PeerId) (addr : SockAddr) (token : UInt32) : Prop :=
  ∃ before env ev t after, is = before ++ (env, .inbound ev t) :: after ∧ ev.kind = .UdpDatagram ∧ ev.addr = addr ∧
    (∃ header, openFrame ev.bytes = some (header, .UdpBind)) ∧ (UdpBind.decode ev.bytes).peerId = p ∧
    (UdpBind.decode ev.bytes).udpToken = token ∧
    StepRuns.AllSteps step (fun s i => p ∈ s.clients ∧ ¬ Reissued s i p) (runFrom b (before ++ [(env, .inbound ev t)])) after

theorem welcomeTokens_append (p : PeerId) (l l' : List OutboundCmd) :
    welcomeTokens p (l ++ l') = welcomeTokens p l ++ welcomeTokens p l' := by
  simp [welcomeTokens]

theorem welcomeTokens_plain (p : PeerId) {l : List OutboundCmd} (h : ∀ cmd ∈ l, Plain cmd) : welcomeTokens p l = [] := by
  rw [welcomeTokens, List.filter_eq_nil_iff.mpr, List.map_nil]
  intro cmd hm
  rw [(h cmd hm).not_welcome]
  exact Bool.false_ne_true

theorem welcomeTokens_bindPeer (p q : PeerId) (c : ConnId) : welcomeTokens p (bindPeer c q) = [] := by
  unfold bindPeer
  split
  · rfl
  · rfl

theorem welcomeTokens_replacedConn (p : PeerId) (old new : ConnId) : welcomeTokens p (replacedConn old new) = [] := by
  refine welcomeTokens_plain p fun cmd hm => ?_
  unfold replacedConn at hm
  split at hm
  · exact plain_closeConn hm
  · cases hm

theorem Welcome.decode_encode (w : Welcome) : Welcome.decode w.encode = w := by
  simp [Welcome.decode, Welcome.encode, Header.decode_encode_append, u32At_skip, u8At_skip]

theorem isWelcome_welcomeOf (s : ServerRuntime) (c : Client) (isNew : Bool) (q : Client) :
    isWelcome (toTcp q (welcomeOf s c isNew).encode) = true := by
  rw [isWelcome, toTcp, Welcome.encode, u8At_encode_type]
  rfl

theorem welcomeTokens_sendTcp {p : PeerId} {joined : Client} (hc : joined.connId ≠ 0) (s : ServerRuntime) (isNew : Bool) :
    welcomeTokens p (sendTcp joined (welcomeOf s joined isNew).encode) = if joined.peerId = p then [joined.udpToken] else [] := by
  have hne : (welcomeOf s joined isNew).encode ≠ [] := by
    refine List.ne_nil_of_length_pos ?_
    simp [Welcome.encode]
  have hid : (toTcp joined (welcomeOf s joined isNew).encode).peerId = joined.peerId := rfl
  have htok : (Welcome.decode (toTcp joined (welcomeOf s joined isNew).encode).bytes).udpToken = joined.udpToken := by
    rw [toTcp, Welcome.decode_encode, welcomeOf, makeWelcome]
  rw [sendTcp_eq hc hne, welcomeTokens, List.filter_singleton, isWelcome_welcomeOf, hid]
  by_cases hp : joined.peerId = p
  · rw [if_pos hp, hp, Bool.true_and, beq_self_eq_true, cond_true, List.map_singleton, htok]
  · rw [if_neg hp, Bool.true_and, beq_eq_false_iff_ne.mpr hp]
    rfl

theorem pendingExit_unique {s : ServerRuntime} {i : Env × Input} {exit exit' : PendingExit}
    (h : pendingExit s i = some exit) (h' : pendingExit s i = some exit') : exit' = exit :=
  Option.some.inj (h'.symm.trans h)

theorem Welcomed.unique {s : ServerRuntime} {i : Env × Input} {p q : PeerId} (hp : Welcomed s i p) (hq : Welcomed s i q) :
    p = q := by
  have mixed : ∀ {exit ev t id client}, pendingExit s i = some exit → ClientStep s.ready i.2 ev t id client → False := by
    intro exit ev t id client hx hs
    obtain ⟨ev', t', pending, hs', -⟩ := pendingExit_some.mp hx
    exact hs'.not_client hs
  cases hp with
  | joined fresh hx =>
    cases hq with
    | joined fresh' hx' => cases pendingExit_unique hx hx'; rfl
    | reconnected hx' => cases pendingExit_unique hx hx'
    | again ev t client header hs ho hn => exact (mixed hx hs).elim
  | reconnected hx =>
    cases hq with
    | joined fresh' hx' => cases pendingExit_unique hx hx'
    | reconnected hx' => cases pendingExit_unique hx hx'; rfl
    | again ev t client header hs ho hn => exact (mixed hx hs).elim
  | again ev t client header hs ho hn =>
    cases hq with
    | joined fresh' hx' => exact (mixed hx' hs).elim
    | reconnected hx' => exact (mixed hx' hs).elim
    | again ev' t' client' header' hs' ho' hn' => exact (hs.unique hs').2.symm

/-- A step sends `p` one Welcome, with the token `p` then has, or none. -/
theorem welcomeTokens_step {s : ServerRuntime} (hw : WellFormed s) (i : Env × Input)
    (hconn : ∀ p c, (s.step i).clients.lookup p = some c → c.connId ≠ 0) (p : PeerId) :
    (Welcomed s i p ∧ ∃ c, (s.step i).clients.lookup p = some c ∧ welcomeTokens p (s.step i).outbound = [c.udpToken]) ∨
      (¬ Welcomed s i p ∧ welcomeTokens p (s.step i).outbound = []) := by
  have welcome : ∀ {q joined} (isNew : Bool), Welcomed s i q → (s.step i).clients.lookup q = some joined →
      welcomeTokens p (s.step i).outbound =
        welcomeTokens p (sendTcp joined (welcomeOf (s.step i) joined isNew).encode) →
      (Welcomed s i p ∧ ∃ c, (s.step i).clients.lookup p = some c ∧ welcomeTokens p (s.step i).outbound = [c.udpToken]) ∨
        (¬ Welcomed s i p ∧ welcomeTokens p (s.step i).outbound = []) := by
    intro q joined isNew hq hl ho
    have hid : joined.peerId = q := (hw.step i).keyed q joined hl
    rw [welcomeTokens_sendTcp (hconn q joined hl), hid] at ho
    by_cases hp : q = p
    · rw [if_pos hp] at ho
      exact .inl ⟨hp ▸ hq, joined, hp ▸ hl, ho⟩
    · rw [if_neg hp] at ho
      exact .inr ⟨fun h => hp (hq.unique h), ho⟩
  cases step_output hw i with
  | plain hn hp => exact .inr ⟨hn p, welcomeTokens_plain p hp⟩
  | joined ev t pending q joined isNew rest hs hx hq hl hc ho hr =>
    refine welcome isNew (.joined _ hx) hl ?_
    rw [ho, welcomeTokens_append, welcomeTokens_bindPeer, welcomeTokens_append, welcomeTokens_plain p hr, List.nil_append,
      List.append_nil]
  | reconnected ev t pending q client joined isNew rest hs hx hc hl hconn' ho hr =>
    refine welcome isNew (.reconnected hx) hl ?_
    rw [ho, welcomeTokens_append, welcomeTokens_replacedConn, welcomeTokens_append, welcomeTokens_bindPeer,
      welcomeTokens_append, welcomeTokens_plain p hr, List.nil_append, List.nil_append, List.append_nil]
  | again ev t q client header joined isNew hs ho hn hl hout =>
    exact welcome isNew (.again ev t client header hs ho hn) hl (by rw [hout])

theorem welcomed_of_renews {s : ServerRuntime} {i : Env × Input} {p : PeerId} {m : Move} (hm : m ∈ stepMoves s i)
    (hr : Renews p m) : Welcomed s i p := by
  cases cause_of_mem hm with
  | join id ev t pending fresh hs hx =>
    cases hr
    exact .joined fresh (pendingExit_some.mpr ⟨ev, t, pending, hs, hx⟩)
  | reconnect id ev t pending hs hx =>
    cases hr
    exact .reconnected (pendingExit_some.mpr ⟨ev, t, pending, hs, hx⟩)
  | retoken id ev t client header hs ho hn =>
    cases hr
    exact .again ev t client header hs ho hn
  | _ => exact hr.elim

theorem Reissued.welcomed {s : ServerRuntime} {i : Env × Input} {p : PeerId} (h : Reissued s i p) : Welcomed s i p := by
  cases h with
  | softReconnect hx => exact .reconnected hx
  | helloAgain ev t client header hs ho => exact .again ev t client header hs ho (sizeofHello_le ho)

theorem stepMoves_joined {s : ServerRuntime} {i : Env × Input} {ev : InboundEvent} {t : Time} {pending : PendingTcp}
    (hs : PendingStep s.ready i.2 ev t pending) {p : PeerId} {fresh : Bool}
    (hx : pendingExit s i = some (.joined p fresh)) : stepMoves s i = [.join p
      { conn := pending.connId, key := helloKey (readHello ev.bytes), token := makeUdpToken s.udpToken, udp := none }] := by
  have hx := (pendingExit_of hs).symm.trans hx
  rw [stepMoves, hs.input, moves]
  simp only [hs.kind, frameMoves, hs.target, pendingMoves, Option.some.inj hx]
  rfl

theorem stepMoves_reconnected {s : ServerRuntime} {i : Env × Input} {ev : InboundEvent} {t : Time} {pending : PendingTcp}
    (hs : PendingStep s.ready i.2 ev t pending) {p : PeerId} (hx : pendingExit s i = some (.reconnected p)) :
    stepMoves s i = [.reconnect p pending.connId (makeUdpToken s.udpToken)] := by
  have hx := (pendingExit_of hs).symm.trans hx
  rw [stepMoves, hs.input, moves]
  simp only [hs.kind, frameMoves, hs.target, pendingMoves, Option.some.inj hx]
  rfl

theorem stepMoves_again {s : ServerRuntime} {i : Env × Input} {ev : InboundEvent} {t : Time} {p : PeerId} {client : Client}
    (hs : ClientStep s.ready i.2 ev t p client) {header : Header} (ho : openFrame ev.bytes = some (header, .Hello)) :
    stepMoves s i = [.retoken p (makeUdpToken s.udpToken)] := by
  rw [stepMoves, hs.input, moves]
  simp only [hs.kind, frameMoves, hs.target, clientMoves, ho, Option.elim_some, messageMoves, if_pos (sizeofHello_le ho)]
  rfl

/-- A new token leaves the client unbound. -/
theorem Reissued.unbound {s : ServerRuntime} (hw : WellFormed s) {i : Env × Input} {p : PeerId} (h : Reissued s i p)
    {e' : Endpoint} (he : (s.step i).sessions.live p = some e') : e'.udp = none := by
  have hsteps := (step_simulates hw i).steps
  cases h with
  | softReconnect hx =>
    obtain ⟨ev, t, pending, hs, -⟩ := pendingExit_some.mp hx
    rw [stepMoves_reconnected hs hx] at hsteps
    exact (Steps.single_iff.mp hsteps).renewed_unbound (.inl ⟨_, _, rfl⟩) he
  | helloAgain ev t client header hs ho =>
    rw [stepMoves_again hs ho] at hsteps
    exact (Steps.single_iff.mp hsteps).renewed_unbound (.inr ⟨_, rfl⟩) he

theorem joined_unbound {s : ServerRuntime} (hw : WellFormed s) {i : Env × Input} {p : PeerId} {fresh : Bool}
    (hx : pendingExit s i = some (.joined p fresh)) {e' : Endpoint} (he : (s.step i).sessions.live p = some e') :
    e'.udp = none ∨ s.sessions.live p = some e' := by
  have hsteps := (step_simulates hw i).steps
  obtain ⟨ev, t, pending, hs, -⟩ := pendingExit_some.mp hx
  rw [stepMoves_joined hs hx] at hsteps
  rcases (Steps.single_iff.mp hsteps).live_cases he with h | ⟨hj, -⟩ | ⟨e, -, ⟨c, t, hj, -⟩ | ⟨t, hj, -⟩ | ⟨a, hj, -⟩⟩
  · exact .inr h
  · cases hj
    exact .inl rfl
  · cases hj
  · cases hj
  · cases hj

theorem BoundInRun.extend {b : Startup} {is : List (Env × Input)} {i : Env × Input} {p : PeerId} {addr : SockAddr}
    {token : UInt32} (h : BoundInRun b is p addr token) (hp : p ∈ (runFrom b is).clients)
    (hr : ¬ Reissued (runFrom b is) i p) : BoundInRun b (is ++ [i]) p addr token := by
  obtain ⟨before, env, ev, t, after, rfl, hk, ha, ho, hid, htok, hall⟩ := h
  refine ⟨before, env, ev, t, after ++ [i], by simp, hk, ha, ho, hid, htok, ?_⟩
  refine (StepRuns.allSteps_append after [i]).mpr ⟨hall, ⟨?_, ?_⟩, trivial⟩
  · rw [runFrom, ← StepRuns.run_append, List.append_assoc]
    exact hp
  · rw [runFrom, ← StepRuns.run_append, List.append_assoc]
    exact hr

theorem connId_ne_zero {b : Startup} {is : List (Env × Input)} {i : Env × Input} (hf : FreshAccepts (is ++ [i])) (p : PeerId)
    (c : Client) (hl : ((runFrom b is).step i).clients.lookup p = some c) : c.connId ≠ 0 := by
  intro h0
  rw [← runFrom_concat] at hl
  have hu := (run_owned b hf).live_used (liveOf_some hl)
  rw [endpointOf_conn, h0] at hu
  exact hf.2 hu

/-- What a run keeps of tokens and bindings. -/
structure Fresh (b : Startup) (is : List (Env × Input)) : Prop where
  token : ∀ p c, (runFrom b is).clients.lookup p = some c → lastWelcomeToken b is p = some c.udpToken
  bound : ∀ p c, (runFrom b is).clients.lookup p = some c → c.udpBound = true → BoundInRun b is p c.udpAddr c.udpToken

theorem lastWelcomeToken_concat (b : Startup) (is : List (Env × Input)) (i : Env × Input) (p : PeerId) :
    lastWelcomeToken b (is ++ [i]) p =
      ((welcomeTokens p ((runFrom b is).step i).outbound).getLast?).or (lastWelcomeToken b is p) := by
  rw [lastWelcomeToken, StepRuns.collect_concat, List.getLast?_append]
  rfl

theorem Fresh.step {b : Startup} {is : List (Env × Input)} {i : Env × Input} (hf : FreshAccepts (is ++ [i]))
    (h : Fresh b is) : Fresh b (is ++ [i]) := by
  have hw := (runFrom_reachable b is).wellFormed
  have hconn := connId_ne_zero (b := b) hf
  have hsteps := (step_simulates hw i).steps
  -- a client the step does not renew was there before, with the same token
  have kept : ∀ {p c'}, ((runFrom b is).step i).clients.lookup p = some c' → ¬ Welcomed (runFrom b is) i p →
      ∃ c, (runFrom b is).clients.lookup p = some c ∧ c.udpToken = c'.udpToken ∧
        ((endpointOf c).udp = (endpointOf c').udp ∨ ∃ a, .bind p a ∈ stepMoves (runFrom b is) i ∧ (endpointOf c').udp = some a) := by
    intro p c' hl hn
    obtain ⟨e, he, htok, hudp⟩ := hsteps.not_renewed (fun m hm hr => hn (welcomed_of_renews hm hr)) (liveOf_some hl)
    obtain ⟨c, hc, rfl⟩ := liveOf_eq_some.mp he
    exact ⟨c, hc, htok, hudp⟩
  constructor
  · intro p c' hl
    rw [runFrom_concat] at hl
    rw [lastWelcomeToken_concat]
    rcases welcomeTokens_step hw i hconn p with ⟨-, c, hc, htok⟩ | ⟨hn, htok⟩
    · rw [hl] at hc
      cases hc
      rw [htok]
      rfl
    · obtain ⟨c, hc, hct, -⟩ := kept hl hn
      rw [htok, ← hct]
      exact h.token p c hc
  · intro p c' hl hb
    rw [runFrom_concat] at hl
    have hudp : (endpointOf c').udp = some (addrKey c'.udpAddr) := endpointOf_udp.mpr ⟨hb, rfl⟩
    have hnr : ¬ Reissued (runFrom b is) i p := by
      intro hr
      have hnone := hr.unbound hw (liveOf_some hl)
      rw [hudp] at hnone
      cases hnone
    -- the binding is the one the client had before the step
    have extend : ∀ {c}, (runFrom b is).clients.lookup p = some c → c.udpToken = c'.udpToken →
        (endpointOf c).udp = (endpointOf c').udp → BoundInRun b (is ++ [i]) p c'.udpAddr c'.udpToken := by
      intro c hc htok ha
      rw [hudp] at ha
      obtain ⟨hcb, hca⟩ := endpointOf_udp.mp ha
      have hold := h.bound p c hc hcb
      rw [htok, addrKey_injective hca] at hold
      exact hold.extend (AList.lookup_isSome.mp (by rw [hc]; rfl)) hnr
    by_cases hn : Welcomed (runFrom b is) i p
    · cases hn with
      | joined fresh hx =>
        rcases joined_unbound hw hx (liveOf_some hl) with hnone | hsame
        · rw [hudp] at hnone
          cases hnone
        · obtain ⟨c, hc, hce⟩ := liveOf_eq_some.mp hsame
          exact extend hc (congrArg SessionTable.Endpoint.token hce) (congrArg SessionTable.Endpoint.udp hce)
      | reconnected hx => exact absurd (.softReconnect hx) hnr
      | again ev t client header hs ho hsize => exact absurd (.helloAgain ev t client header hs ho) hnr
    · obtain ⟨c, hc, htok, ha | ⟨a, hbind, ha⟩⟩ := kept hl hn
      · exact extend hc htok ha
      · obtain ⟨-, ev, t, hi, hk, hacc, rfl⟩ := stepMoves_bind hbind
        obtain ⟨ho, -, hid, client, hlc, -, htc⟩ := acceptedBind_some.mp hacc
        rw [hudp, Option.some.injEq] at ha
        obtain ⟨env, i⟩ := i
        dsimp only at hi
        subst hi
        rw [ready_clients, hc] at hlc
        cases hlc
        exact ⟨is, env, ev, t, [], rfl, hk, (addrKey_injective ha).symm, ho, hid, by rw [← htc, htok], trivial⟩

theorem fresh_run (b : Startup) {is : List (Env × Input)} (hf : FreshAccepts is) : Fresh b is := by
  induction is using List.reverseRecOn with
  | nil =>
    constructor
    · intro p c h
      simp [runFrom, Startup.runtime, initial] at h
    · intro p c h
      simp [runFrom, Startup.runtime, initial] at h
  | append_singleton is i ih => exact (ih (freshAccepts_of_append hf)).step hf

def PoseDatagram (ev : InboundEvent) : Prop :=
  ev.kind = .UdpDatagram ∧ ∃ header, openFrame ev.bytes = some (header, .PlayerPose) ∨ openFrame ev.bytes = some (header, .ActorPose)

/-- The datagram is counted and has no other effect. -/
def IgnoredDatagram (s s' : ServerRuntime) : Prop :=
  ∃ n, s' = { s with datagrams := s.datagrams + 1, badHeaders := n, outbound := [], persist := [] }

/-- The datagram acts for `p`, from the address that `p` bound with its current token. -/
structure DrivenBy (b : Startup) (is : List (Env × Input)) (i : Env × Input) (from_ : SockAddr) (p : PeerId)
    (client : Client) : Prop where
  live : (runFrom b is).clients.lookup p = some client
  bound : client.udpBound = true
  addr : client.udpAddr = from_
  others : ∀ q, q ≠ p → ((runFrom b is).step i).clients.lookup q = (runFrom b is).clients.lookup q
  records : ∀ key, key ≠ client.playerKey → ((runFrom b is).step i).players.lookup key = (runFrom b is).players.lookup key
  sends : ∀ cmd ∈ ((runFrom b is).step i).outbound,
    Authorized (runFrom b is).clients (runFrom b is).world.hostPeerId (runFrom b is).cfg.pvp (HelloInput i.2)
      (BindInput (runFrom b is).ready i.2) p cmd
  token : lastWelcomeToken b is p = some client.udpToken
  bind : BoundInRun b is p from_ client.udpToken

theorem udpPlayerPose_frame (s : ServerRuntime) (id : PeerId) (client : Client) (buf : Bytes) (t : Time) :
    (∀ q, q ≠ id → (udpPlayerPose s id client buf t).clients.lookup q = s.clients.lookup q) ∧
      ∀ key, key ≠ client.playerKey → (udpPlayerPose s id client buf t).players.lookup key = s.players.lookup key := by
  rcases udpPlayerPose_cases s id client buf t with ⟨-, he⟩ | ⟨-, _, ⟨-, he⟩ | ⟨-, world, -, he⟩⟩
  · rw [he]
    exact ⟨fun _ _ => rfl, fun _ _ => rfl⟩
  · rw [he]
    exact ⟨fun q hq => Table.lookup_modify_ne _ _ hq, fun key hkey => AList.lookup_insert_ne hkey⟩
  · rw [he]
    exact ⟨fun q hq => Table.lookup_modify_ne _ _ hq, fun key hkey => AList.lookup_insert_ne hkey⟩

theorem udpActorPose_frame (s : ServerRuntime) (client : Client) (buf : Bytes) :
    (udpActorPose s client buf).clients = s.clients ∧ (udpActorPose s client buf).players = s.players := by
  rcases udpActorPose_cases s client buf with he | ⟨_, -, he⟩ <;> rw [he] <;> exact ⟨rfl, rfl⟩

theorem poseDatagram_driven (b : Startup) (is : List (Env × Input)) (hf : FreshAccepts is) (env : Env) {ev : InboundEvent}
    (hp : PoseDatagram ev) (t : Time) :
    IgnoredDatagram (runFrom b is) ((runFrom b is).step (env, .inbound ev t)) ∨
      ∃ p client, DrivenBy b is (env, .inbound ev t) ev.addr p client := by
  have hw := (runFrom_reachable b is).wellFormed
  have hfresh := fresh_run b hf
  obtain ⟨hk, header, ht⟩ := hp
  have hstep : (runFrom b is).step (env, .inbound ev t) = handleUdpPacket (runFrom b is).ready ev.bytes ev.addr t := by
    rw [ServerRuntime.step, handle]
    simp only [applyInbound, hk]
  have hcase := handleUdpPacket_cases (s := (runFrom b is).ready) hw.ok ev.bytes ev.addr t
  rw [← hstep] at hcase
  -- the datagram of a bound client, once the frame of its handler is known
  have driven : ∀ {p client}, acceptedBind (runFrom b is).ready ev.bytes = none →
      (runFrom b is).ready.udpPeerByAddr.lookup (addrKey ev.addr) = some p → (runFrom b is).ready.clients.lookup p = some client →
      (∀ q, q ≠ p → ((runFrom b is).step (env, .inbound ev t)).clients.lookup q = (runFrom b is).clients.lookup q) →
      (∀ key, key ≠ client.playerKey → ((runFrom b is).step (env, .inbound ev t)).players.lookup key =
        (runFrom b is).players.lookup key) → ∃ p client, DrivenBy b is (env, .inbound ev t) ev.addr p client := by
    intro p client ha hu hl hothers hrecords
    rw [ready_clients] at hl
    obtain ⟨e, he, hea⟩ := hw.ok.udp_sound (show (runFrom b is).sessions.udp (addrKey ev.addr) = some p from hu)
    rw [show (runFrom b is).sessions.live p = some (endpointOf client) from liveOf_some hl] at he
    cases he
    obtain ⟨hb, haddr⟩ := endpointOf_udp.mp hea
    have haddr' := addrKey_injective haddr
    have hatt : Attributed (runFrom b is).ready (Input.inbound ev t) p :=
      .datagram ev t rfl hk ha (by rw [findByUdp_of_ok (s := (runFrom b is).ready) hw.ok, hu])
    have hbind := hfresh.bound p client hl hb
    rw [haddr'] at hbind
    exact ⟨p, client, hl, hb, haddr', hothers, hrecords, fun cmd hc => step_authorized hw hatt hc,
      hfresh.token p client hl, hbind⟩
  generalize (runFrom b is).step (env, .inbound ev t) = s' at hcase driven ⊢
  cases hcase with
  | bind id ha =>
    obtain ⟨⟨header', ho⟩, -⟩ := acceptedBind_some.mp ha
    rcases ht with ht | ht <;> cases ho.symm.trans ht
  | ignored badHeaders ha => exact .inl ⟨badHeaders, rfl⟩
  | short id client ha hu hl =>
    exact .inr (driven ha hu hl (fun q hq => Table.lookup_modify_ne _ _ hq) fun _ _ => rfl)
  | playerPose id client header ha hu hl ho =>
    obtain ⟨hc, hr⟩ := udpPlayerPose_frame ((runFrom b is).ready.countDatagram.seen id t) id { client with lastSeen := t }
      ev.bytes t
    exact .inr (driven ha hu hl (fun q hq => (hc q hq).trans (Table.lookup_modify_ne _ _ hq)) hr)
  | actorPose id client header ha hu hl ho =>
    obtain ⟨hc, hr⟩ := udpActorPose_frame ((runFrom b is).ready.countDatagram.seen id t) { client with lastSeen := t } ev.bytes
    exact .inr (driven ha hu hl (fun q hq => by rw [hc]; exact Table.lookup_modify_ne _ _ hq) fun key _ => by rw [hr]; rfl)

/-- Nobody's datagrams are attributed to a client that has just got a new token or has just left. -/
theorem no_address_after {s : ServerRuntime} (hw : WellFormed s) {i : Env × Input} {p : PeerId}
    (h : Reissued s i p ∨ p ∉ (s.step i).clients) (a : Bytes) : (s.step i).udpPeerByAddr.lookup a ≠ some p := by
  intro hu
  obtain ⟨e, he, ha⟩ := (hw.step i).ok.udp_sound (show (s.step i).sessions.udp a = some p from hu)
  rcases h with hr | hout
  · have hnone := hr.unbound hw he
    rw [ha] at hnone
    cases hnone
  · obtain ⟨c, hc, -⟩ := liveOf_eq_some.mp he
    rw [AList.lookup_eq_none.mpr hout] at hc
    cases hc

/-- In every run a pose datagram is ignored or acts for a client from the address this client
bound with the token of its last Welcome; and a step that welcomes a live client again, or
removes it, leaves no address attributed to it. -/
theorem udp_binding_fresh (b : Startup) (is : List (Env × Input)) (i : Env × Input) (hf : FreshAccepts (is ++ [i])) :
    (∀ ev t, i.2 = .inbound ev t → PoseDatagram ev →
      IgnoredDatagram (runFrom b is) ((runFrom b is).step i) ∨ ∃ p client, DrivenBy b is i ev.addr p client) ∧
    (∀ p, Reissued (runFrom b is) i p →
      (∃ c, ((runFrom b is).step i).clients.lookup p = some c ∧
        welcomeTokens p ((runFrom b is).step i).outbound = [c.udpToken]) ∧
      ∀ a, ((runFrom b is).step i).udpPeerByAddr.lookup a ≠ some p) ∧
    (∀ p, p ∈ (runFrom b is).clients → p ∉ ((runFrom b is).step i).clients →
      ∀ a, ((runFrom b is).step i).udpPeerByAddr.lookup a ≠ some p) := by
  have hw := (runFrom_reachable b is).wellFormed
  refine ⟨?_, fun p hr => ⟨?_, no_address_after hw (.inl hr)⟩, fun p _ hout => no_address_after hw (.inr hout)⟩
  · intro ev t hi hp
    obtain ⟨env, i⟩ := i
    dsimp only at hi
    subst hi
    exact poseDatagram_driven b is (freshAccepts_of_append hf) env hp t
  · rcases welcomeTokens_step hw i (connId_ne_zero hf) p with ⟨-, h⟩ | ⟨hn, -⟩
    · exact h
    · exact absurd hr.welcomed hn

/-- The first player binds. -/
def firstBinds : List (Env × Input) := twoJoins ++ [datagramAt ⟨10, 0, 0, 1, 2000⟩ (makeUdpBind 1 1079734124).encode]

def poseFrame : Bytes := (makePose 1 kCommonwealthWorldspace ⟨0⟩ ⟨0⟩ ⟨0⟩ ⟨0⟩).encode

/-- The pose that follows the bind acts for a client. -/
theorem udp_binding_fresh_firstPose :
    ∃ p client, DrivenBy freshStart firstBinds (datagramAt ⟨10, 0, 0, 1, 2000⟩ poseFrame) ⟨10, 0, 0, 1, 2000⟩ p client := by
  have ho : (openFrame poseFrame).map (·.2) = some .PlayerPose := by decide +kernel
  obtain ⟨⟨header, type⟩, ho, rfl⟩ := Option.map_eq_some_iff.mp ho
  refine ((udp_binding_fresh freshStart firstBinds (datagramAt ⟨10, 0, 0, 1, 2000⟩ poseFrame)
    (by unfold FreshAccepts; decide)).1 _ _ rfl ⟨rfl, header, .inl ho⟩).resolve_left ?_
  rintro ⟨n, hn⟩
  have hposes := congrArg (fun s : ServerRuntime => (s.clients.lookup 1).map (·.posesIn)) hn
  dsimp only at hposes
  revert hposes
  decide +kernel

end ServerRuntime
end CommonwealthMP
