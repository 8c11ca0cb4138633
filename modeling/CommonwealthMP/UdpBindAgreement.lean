import CommonwealthMP.JointConnections

/-! # The two views of a UDP binding

The client counts its binding as done when the socket takes the datagram, the server when the
datagram arrives with the token of the session. What the client is told on its connection is
the session the server has there; that the server has its address as well takes a datagram
that is neither lost nor refused. -/
namespace CommonwealthMP
open ByteLayout OrderedTables SessionTable StepRuns Plugin ServerRuntime
namespace Joint
open Call

/-- No message is under way in either direction. -/
structure Quiescent (w : Joint) : Prop where
  up : w.client.sockets.up = []
  down : w.client.sockets.down = []
  air : w.client.sockets.air = []
  stream : w.client.sockets.closed = false

/-- A `CMP_NetPoll` in this game, with these answers, would send nothing. -/
structure SendsNothing (w : Joint) (game : LocalGame) (os : Answers) : Prop where
  up : (netPoll linkSockets game { w.client with sockets.os := os }).sockets.up = w.client.sockets.up
  air : (netPoll linkSockets game { w.client with sockets.os := os }).sockets.air = w.client.sockets.air

/-- The server has the client bound to its UDP address, with the client's token. -/
def BoundAtServer (w : Joint) : Prop :=
  ∃ p, w.server.clients.lookup w.client.session.net.myPeerId = some p ∧ p.udpBound = true ∧
    w.client.sockets.udp = some p.udpAddr ∧ p.udpToken = w.client.session.net.udpToken

/-- A settled client that counts its binding as done is bound. -/
def BindAgrees (w : Joint) : Prop :=
  ∀ game os, Quiescent w → SendsNothing w game os → w.client.session.net.joined = true →
    w.client.session.net.udpBound = true → BoundAtServer w

def HasBound (s : ServerRuntime) (p : PeerId) (addr : SockAddr) : Prop :=
  (s.sessions.live p).bind (·.udp) = some (addrKey addr)

/-- The binding the client counts as done: the server has it, or its datagram is under way. -/
def Secured (s : ServerRuntime) (c : Plugin.Client Link) : Prop :=
  ∃ addr ∈ c.sockets.udp, ∀ place ∈ told c,
    HasBound s place.peerId addr ∨ (addr, (makeUdpBind place.peerId place.udpToken).encode) ∈ c.sockets.air

def targetConn (s : ServerRuntime) (ev : InboundEvent) : Option ConnId :=
  match frameTarget s ev with
  | .client _ client => some client.connId
  | _ => none

/-- A Bye that another connection brings for the client on this one: the net thread had
stamped it before the client came back. -/
def StrayBye (w : Joint) : ServerRuntime.Input → Prop
  | .inbound ev _ => ev.kind = .TcpFrame ∧ ev.connId ≠ w.client.sockets.conn ∧ (openFrame ev.bytes).map (·.2) = some .Bye ∧
    targetConn w.server.ready ev = some w.client.sockets.conn
  | _ => False

/-- A datagram from elsewhere that binds the client on this connection. -/
def StrayBind (w : Joint) : ServerRuntime.Input → Prop
  | .inbound ev _ => ev.kind = .UdpDatagram ∧ w.client.sockets.udp ≠ some ev.addr ∧
    ((acceptedBind w.server.ready ev.bytes).bind w.server.clients.lookup).map (·.connId) = some w.client.sockets.conn
  | _ => False

/-- The network loses no datagram that a binding counted as done still needs, the socket takes
the one that renews such a binding, and neither a Bye nor a bind for the client on its
connection comes from elsewhere. -/
def Keeps (w : Joint) : Action → Prop
  | .call os a => Rebinds { w.client with sockets.os := os } a
  | .serve c _ t stamp => ∀ r ∈ takeItem c w.client.sockets.up, ¬ StrayBye w (.inbound (r.1.event c stamp) t)
  | .arrive n _ t => ∀ d ∈ w.client.sockets.air[n]?,
    ¬ StrayBind w (.inbound { kind := .UdpDatagram, addr := d.1, bytes := d.2 } t)
  | .lose n => Believes w.client → Secured w.server { w.client with sockets.air := w.client.sockets.air.eraseIdx n }
  | .other i => ¬ StrayBye w i.2 ∧ ¬ StrayBind w i.2

instance (s : ServerRuntime) (p : PeerId) (addr : SockAddr) : Decidable (HasBound s p addr) := inferInstanceAs (Decidable (_ = _))

instance (s : ServerRuntime) (c : Plugin.Client Link) : Decidable (Secured s c) := inferInstanceAs (Decidable (∃ _ ∈ _, _))

instance (w : Joint) (i : ServerRuntime.Input) : Decidable (StrayBye w i) :=
  match i with
  | .inbound _ _ => inferInstanceAs (Decidable (_ ∧ _))
  | .expirePending _ | .expireClients _ | .sendHeartbeat | .flushDirty | .admin _ => inferInstanceAs (Decidable False)

instance (w : Joint) (i : ServerRuntime.Input) : Decidable (StrayBind w i) :=
  match i with
  | .inbound _ _ => inferInstanceAs (Decidable (_ ∧ _))
  | .expirePending _ | .expireClients _ | .sendHeartbeat | .flushDirty | .admin _ => inferInstanceAs (Decidable False)

instance (c : Plugin.Client Link) : Decidable (Believes c) := inferInstanceAs (Decidable (_ ∧ _))

instance (c : Plugin.Client Link) (a : Call) : Decidable (Rebinds c a) :=
  match a with
  | .turn _ => inferInstanceAs (Decidable (_ = true → _ = true → _ = true))
  | .join _ _ | .leave | .begin _ | .hear _ | .finish | .say _ | .emit _ => inferInstanceAs (Decidable True)

instance (w : Joint) (a : Action) : Decidable (Keeps w a) := by
  cases a <;> unfold Keeps <;> infer_instance

/-- What the client has been told is the session on its connection, and its binding is secured. -/
structure Agrees (s : ServerRuntime) (c : Plugin.Client Link) : Prop where
  place : ∀ p t, (∃ e, s.sessions.live p = some e ∧ e.conn = c.sockets.conn ∧ e.token = t) ↔
    ∃ place, told c = some place ∧ place.peerId = p ∧ place.udpToken = t
  secured : Believes c → Secured s c

structure Invariant (w : Joint) : Prop where
  numbered : Numbered [] w
  attached : Attached w.client
  agrees : w.client.sockets.conn ≠ 0 → w.client.sockets.closed = false → Agrees w.server w.client

theorem Invariant.linked {w : Joint} (h : Invariant w) : Linked w := ⟨h.numbered, h.attached⟩

theorem invariant_start (b : Startup) (settings : Settings) : Invariant (start b settings) where
  numbered := (linked_start b settings).numbered
  attached := (linked_start b settings).attached
  agrees h := absurd rfl h

/-- A binding stays secured as long as the client keeps its connection. -/
theorem Secured.kept {s : ServerRuntime} {c c' : Plugin.Client Link} (h : Secured s c) (hk : Kept c c') : Secured s c' := by
  obtain ⟨addr, ha, hs⟩ := h
  refine ⟨addr, hk.udp.trans ha, fun place hp => ?_⟩
  exact (hs place (hk.told.symm.trans hp)).imp_right fun hm => hk.air hm

theorem Agrees.kept {s : ServerRuntime} {c c' : Plugin.Client Link} (h : Agrees s c) (hk : Kept c c') : Agrees s c' where
  place p t := by
    rw [hk.conn, hk.told]
    exact h.place p t
  secured hb := by
    rcases hk.believes hb with hb | ⟨addr, ha, hs⟩
    · exact (h.secured hb).kept hk
    · exact ⟨addr, ha, fun place hp => .inr (hs place hp)⟩

theorem Invariant.call {w : Joint} (h : Invariant w) {os : Answers} {a : Call} (hcan : w.CanCall os a)
    (hk : Keeps w (.call os a)) :
    Invariant { w with
      client := a.run { w.client with sockets.os := os }, mine := w.mine ++ opens os a, taken := w.taken ++ opens os a } := by
  have hlinked := h.linked.call hcan
  have hattached := h.attached.answered os
  have heffect := run_effect (a := a) (c := { w.client with sockets.os := os }) hattached.welcomes hattached.udp hcan.1 hk
  refine ⟨hlinked.numbered, hlinked.attached, ?_⟩
  generalize a.run { w.client with sockets.os := os } = c' at heffect
  cases heffect with
  | kept hkept =>
    intro hc hopen
    dsimp only at hc hopen
    rw [hkept.conn] at hc
    rw [hkept.closed] at hopen
    exact Agrees.kept (c := { w.client with sockets.os := os }) ⟨(h.agrees hc hopen).place, (h.agrees hc hopen).secured⟩ hkept
  | hung hhung => exact fun hc => absurd hhung.conn hc
  | opened hopened h0 game flags ha =>
    subst ha
    have hnew : os.newConn ∉ w.taken := hcan.2 _ (List.mem_singleton.mpr rfl)
    refine fun _ _ => ⟨fun p t => ?_, fun hb => ?_⟩
    · have htold : told c' = none := by
        rw [told_of_nil (by rw [Call.welcomes, hopened.down]; rfl), Place.own, if_pos hopened.token]
      rw [htold]
      constructor
      · rintro ⟨e, he, hconn, -⟩
        exact absurd (hconn.trans hopened.conn) (h.numbered.no_session hnew he)
      · rintro ⟨place, hplace, -⟩
        cases hplace
    · exact absurd (hb.1.symm.trans hopened.udpBound) (by decide)

theorem decode_makeUdpBind (p t : UInt32) : UdpBind.decode (makeUdpBind p t).encode = makeUdpBind p t := by
  simp [UdpBind.decode, UdpBind.encode, Header.decode_encode_append, u32At_skip]

theorem hasBound_of_datagram {s : ServerRuntime} (hw : WellFormed s) {p : PeerId} {e : Endpoint} (he : s.sessions.live p = some e)
    (h0 : e.token ≠ 0) {i : Env × ServerRuntime.Input} {addr : SockAddr} {t : Time}
    (hi : i.2 = .inbound { kind := .UdpDatagram, addr := addr, bytes := (makeUdpBind p e.token).encode } t) :
    HasBound (s.step i) p addr := by
  obtain ⟨client, hl, rfl⟩ := liveOf_eq_some.mp he
  have haccept : acceptedBind s.ready (makeUdpBind p (endpointOf client).token).encode = some p := by
    rw [acceptedBind_some, decode_makeUdpBind]
    exact ⟨⟨_, openFrame_fill rfl rfl⟩, by simp [UdpBind.encode, sizeofUdpBind], rfl, client, hl, h0, rfl⟩
  have hmoves : stepMoves s i = [.bind p (addrKey addr)] := by
    rw [stepMoves, hi, moves]
    simp only [haccept, Option.toList_some, List.map_cons, List.map_nil]
  have hsteps := (step_simulates hw i).steps
  rw [hmoves] at hsteps
  have hstep := Steps.single_iff.mp hsteps
  rw [HasBound]
  generalize (s.step i).sessions = S' at hstep
  cases hstep with
  | bind _ _ e' he' =>
    dsimp only
    rw [Function.update_self, Option.bind_some]

theorem welcomes_tell {w : Joint} {i : Env × ServerRuntime.Input} (h0 : w.client.sockets.conn ≠ 0)
    (hopen : w.client.sockets.closed = false) (hopen' : (w.tell i).client.sockets.closed = false) :
    closeCmd w.client.sockets.conn ∉ (w.server.step i).outbound ∧ Call.welcomes (w.tell i).client =
      Call.welcomes w.client ++ welcomesTo w.client.sockets.conn (w.server.step i).outbound := by
  rcases Link.receive_cases h0 hopen (w.server.step i).outbound with ⟨hnot, he⟩ | ⟨frames, -, he⟩
  · refine ⟨hnot, ?_⟩
    rw [Call.welcomes, tell, he, List.filterMap_append]
    rfl
  · rw [tell, he] at hopen'
    cases hopen'

/-- A step keeps the two views of the session together, unless the session goes without a word. -/
theorem Agrees.tell {w : Joint} {i : Env × ServerRuntime.Input} {air : List (SockAddr × Bytes)} (hw : WellFormed w.server)
    (htokened : Tokened w.server) {used used' : List ConnId} (ho : Owned used w.server.sessions) (hzero : 0 ∉ used)
    (ho' : Owned used' (w.server.step i).sessions) (h0 : w.client.sockets.conn ≠ 0) (hopen : w.client.sockets.closed = false)
    (hopen' : (w.tell i).client.sockets.closed = false) (h : Agrees w.server { w.client with sockets.air := air })
    (hair : ∀ d ∈ air, d ∈ w.client.sockets.air ∨
      ∃ t, i.2 = .inbound { kind := .UdpDatagram, addr := d.1, bytes := d.2 } t)
    (hhung : closedConn i ≠ some w.client.sockets.conn) (hbind : ¬ StrayBind w i.2)
    (hbye : ∀ ev t p client header, ClientStep w.server.ready i.2 ev t p client → client.connId = w.client.sockets.conn →
      openFrame ev.bytes ≠ some (header, .Bye)) : Agrees (w.server.step i) (w.tell i).client := by
  obtain ⟨hnot, hwelcomes⟩ := welcomes_tell h0 hopen hopen'
  obtain ⟨hconn', hudp', -, hair'⟩ := receive_link w.client.sockets (w.server.step i).outbound
  have hconn : (w.tell i).client.sockets.conn = w.client.sockets.conn := hconn'
  cases step_attended hw ho hzero i h0 with
  | closed hc => exact absurd hc hnot
  | hungUp hc => exact absurd hc hhung
  | bye ev t p client header hs hc hopen => exact absurd hopen (hbye ev t p client header hs hc)
  | welcomed p c isNew hl hc hwelcome =>
    rw [hwelcome] at hwelcomes
    have hne : Call.welcomes (w.tell i).client ≠ [] := by rw [hwelcomes]; exact List.append_ne_nil_of_right_ne_nil _ nofun
    have htold : told (w.tell i).client = some (.ofWelcome (welcomeOf (w.server.step i) c isNew)) := by
      rw [told, hwelcomes, List.getLast?_concat]
      rfl
    obtain rfl : c.peerId = p := (hw.step i).keyed p c hl
    refine ⟨fun q t => ?_, fun hb => absurd hb.2 hne⟩
    rw [htold, hconn]
    constructor
    · rintro ⟨e, he, hconn, rfl⟩
      obtain rfl := ho'.conn_unique he (liveOf_some hl) (hconn.trans hc.symm)
      cases (liveOf_some hl).symm.trans he
      exact ⟨_, rfl, rfl, rfl⟩
    · rintro ⟨place, hp, rfl, rfl⟩
      cases hp
      exact ⟨endpointOf c, liveOf_some hl, hc, rfl⟩
  | same hnone hstays =>
    rw [hnone, List.append_nil] at hwelcomes
    have htold : told (w.tell i).client = told w.client := by
      rw [told, hwelcomes]
      rfl
    refine ⟨fun q t => ?_, fun hb => ?_⟩
    · rw [htold, hconn]
      refine Iff.trans ⟨?_, ?_⟩ (h.place q t)
      · rintro ⟨e', he', hc, rfl⟩
        obtain ⟨e, he, hec, htok⟩ := hstays.back q e' he' hc
        exact ⟨e, he, hec, htok⟩
      · rintro ⟨e, he, hc, rfl⟩
        obtain ⟨e', he', hec, htok, -⟩ := hstays.forth q e he hc
        exact ⟨e', he', hec, htok⟩
    · obtain ⟨addr, ha, hs⟩ := h.secured ⟨hb.1, hwelcomes.symm.trans hb.2⟩
      refine ⟨addr, hudp'.trans ha, fun place hp => ?_⟩
      have hp : told w.client = some place := htold.symm.trans hp
      obtain ⟨e, he, hc, htok⟩ := (h.place place.peerId place.udpToken).mpr ⟨place, hp, rfl, rfl⟩
      rcases hs place hp with hbound | hm
      · obtain ⟨e', he', -, -, hudp⟩ := hstays.forth _ e he hc
        rw [HasBound, he, Option.bind_some] at hbound
        rw [HasBound, he', Option.bind_some]
        rcases hudp with hudp | ⟨a, hm, hudp⟩
        · exact .inl (hudp.trans hbound)
        · obtain ⟨-, ev, t, hi, hk, haccept, rfl⟩ := stepMoves_bind hm
          obtain ⟨client, hl, rfl⟩ := liveOf_eq_some.mp he
          rw [hi] at hbind
          have haddr : w.client.sockets.udp = some ev.addr := by
            by_contra hne
            refine hbind ⟨hk, hne, ?_⟩
            rw [haccept, Option.bind_some, hl, Option.map_some]
            exact congrArg some hc
          cases ha.symm.trans haddr
          exact .inl hudp
      · rcases hair _ hm with hm | ⟨t, hi⟩
        · exact .inr (hair'.symm ▸ hm)
        · exact .inl (hasBound_of_datagram hw he (htokened _ e he) (htok.symm ▸ hi))

/-- The server takes an input that does not end the session on the client's connection without
a word, and that binds nobody elsewhere. -/
theorem Invariant.tell {w : Joint} {i : Env × ServerRuntime.Input} {l : List (SockAddr × Bytes)}
    (hn : Numbered (acceptedConn i) w) (ha : Attached w.client)
    (h : w.client.sockets.conn ≠ 0 → w.client.sockets.closed = false → Agrees w.server { w.client with sockets.air := l })
    (hair : ∀ d ∈ l, d ∈ w.client.sockets.air ∨ ∃ t, i.2 = .inbound { kind := .UdpDatagram, addr := d.1, bytes := d.2 } t)
    (hhung : w.client.sockets.conn ≠ 0 → closedConn i ≠ some w.client.sockets.conn) (hbind : ¬ StrayBind w i.2)
    (hbye : w.client.sockets.conn ≠ 0 → ∀ ev t p client header, ClientStep w.server.ready i.2 ev t p client →
      client.connId = w.client.sockets.conn → openFrame ev.bytes ≠ some (header, .Bye)) : Invariant (w.tell i) := by
  obtain ⟨used, ho, -, htaken⟩ := hn.owned
  obtain ⟨used', ho', -, -⟩ := hn.tell.owned
  have hlinked := Linked.tell hn ha
  refine ⟨hlinked.numbered, hlinked.attached, fun h0 hopen' => ?_⟩
  have h0 : w.client.sockets.conn ≠ 0 := by
    rw [Joint.tell, (receive_link w.client.sockets _).1] at h0
    exact h0
  have hopen : w.client.sockets.closed = false := by
    cases hopen : w.client.sockets.closed with
    | false => rfl
    | true =>
      rw [Joint.tell, Link.receive_of_closed hopen, hopen] at hopen'
      cases hopen'
  have hzero : 0 ∉ used := fun hm => hn.zero (htaken 0 (List.mem_append_left _ hm))
  exact Agrees.tell hn.wf hn.tokened ho hzero ho' h0 hopen hopen' (h h0 hopen) hair (hhung h0) hbind (hbye h0)

theorem Invariant.serve {w : Joint} (h : Invariant w) {c : ConnId} {env : Env} {t : Time} {stamp : PeerId} {item : UpItem}
    {up : List (ConnId × UpItem)} (hr : takeItem c w.client.sockets.up = some (item, up))
    (hk : Keeps w (.serve c env t stamp)) :
    Invariant ({ w with client.sockets.up := up }.tell (env, .inbound (item.event c stamp) t)) := by
  have hitem : (c, item) ∈ w.client.sockets.up := (takeItem_spec hr).mem_iff.mpr List.mem_cons_self
  obtain ⟨hnumbered, hattached⟩ := h.linked.taken hr env t stamp
  have hquiet := h.attached.quiet (c, item) hitem
  refine Invariant.tell (l := w.client.sockets.air) hnumbered hattached (fun h0 hopen => ?_) (fun d hd => .inl hd)
    (fun _ hc => ?_) (fun hbind => ?_) fun _ ev t' p client header hs hc ho => ?_
  · exact ⟨(h.agrees h0 hopen).place, (h.agrees h0 hopen).secured⟩
  · cases item with
    | closed =>
      have hc : c = w.client.sockets.conn := by simpa [closedConn, UpItem.event] using hc
      exact (hquiet hc).1 rfl
    | _ => cases hc
  · obtain ⟨hkind, -⟩ := hbind
    cases item <;> cases hkind
  · cases hs.input
    cases item with
    | frame data =>
      have hbye : typeIs .Bye data := by
        obtain ⟨rfl, htype, -⟩ := openFrame_spec ho
        exact htype
      by_cases hcc : c = w.client.sockets.conn
      · exact (hquiet hcc).2 data rfl hbye
      · refine hk (.frame data, up) hr ⟨rfl, hcc, ?_, ?_⟩
        · exact congrArg (Option.map _) ho
        · rw [targetConn, show frameTarget w.server.ready _ = .client p client from hs.target]
          exact congrArg some hc
    | _ => cases hs.kind

theorem mem_eraseIdx_or {τ : Type} {l : List τ} {n : ℕ} {x d : τ} (hx : l[n]? = some x) (hd : d ∈ l) : d ∈ l.eraseIdx n ∨ d = x := by
  rw [List.eraseIdx_eq_take_drop_succ, List.mem_append]
  rw [← List.take_append_drop n l, List.mem_append] at hd
  rcases hd with hd | hd
  · exact .inl (.inl hd)
  · obtain ⟨hn, rfl⟩ := List.getElem?_eq_some_iff.mp hx
    rw [List.drop_eq_getElem_cons hn] at hd
    exact (List.mem_cons.mp hd).elim .inr fun hd => .inl (.inr hd)

theorem Invariant.arrive {w : Joint} (h : Invariant w) {n : ℕ} {env : Env} {t : Time} {addr : SockAddr} {data : Bytes}
    (hd : w.client.sockets.air[n]? = some (addr, data)) (hk : Keeps w (.arrive n env t)) :
    Invariant ({ w with client.sockets.air := w.client.sockets.air.eraseIdx n }.tell
      (env, .inbound { kind := .UdpDatagram, addr := addr, bytes := data } t)) := by
  have haired := h.linked.aired (w.client.sockets.air.eraseIdx n)
  refine Invariant.tell (l := w.client.sockets.air) haired.numbered haired.attached (fun h0 hopen => ?_)
    (fun d hm => ?_) nofun ?_ fun _ ev t' p client header hs => ?_
  · exact ⟨(h.agrees h0 hopen).place, (h.agrees h0 hopen).secured⟩
  · refine (mem_eraseIdx_or hd hm).imp_right ?_
    rintro rfl
    exact ⟨t, rfl⟩
  · exact hk (addr, data) hd
  · cases hs.input
    cases hs.kind

theorem Invariant.lose {w : Joint} (h : Invariant w) {n : ℕ} (hk : Keeps w (.lose n)) :
    Invariant { w with client.sockets.air := w.client.sockets.air.eraseIdx n } where
  numbered := (h.linked.aired _).numbered
  attached := (h.linked.aired _).attached
  agrees h0 hopen := ⟨(h.agrees h0 hopen).place, hk⟩

theorem Invariant.other {w : Joint} (h : Invariant w) {i : Env × ServerRuntime.Input} (hi : w.IsOther i.2)
    (hk : Keeps w (.other i)) : Invariant ({ w with taken := w.taken ++ acceptedConn i }.tell i) := by
  have hnumbered := h.linked.numbered_other hi
  refine Invariant.tell (l := w.client.sockets.air) hnumbered h.attached (fun h0 hopen => ?_) (fun d hd => .inl hd)
    (fun h0 hc => ?_) hk.2 fun h0 ev t p client header hs hc ho => ?_
  · exact ⟨(h.agrees h0 hopen).place, (h.agrees h0 hopen).secured⟩
  · obtain ⟨env, i⟩ := i
    cases i with
    | inbound ev t =>
      rw [closedConn] at hc
      dsimp only at hc
      split at hc
      · rename_i hkind
        exact hi.2 (.inr hkind) (Option.some.inj hc ▸ h.numbered.conn_mine h0)
      · cases hc
    | _ => cases hc
  · obtain ⟨env, i⟩ := i
    cases hs.input
    have hne : ev.connId ≠ w.client.sockets.conn := fun he => hi.2 (.inl hs.kind) (he ▸ h.numbered.conn_mine h0)
    refine hk.1 ⟨hs.kind, hne, congrArg (Option.map _) ho, ?_⟩
    rw [targetConn, show frameTarget w.server.ready ev = .client p client from hs.target]
    exact congrArg some hc

theorem Invariant.step {w : Joint} (h : Invariant w) {a : Action} (hk : Keeps w a) : Invariant (w.step a) := by
  cases a with
  | call os a =>
    rw [Joint.step]
    split
    · rename_i hcan
      exact h.call hcan hk
    · exact h
  | serve c env t stamp =>
    rw [Joint.step]
    split
    · exact h
    · rename_i item up hr
      exact h.serve hr hk
  | arrive n env t =>
    rw [Joint.step]
    split
    · exact h
    · rename_i addr data hd
      exact h.arrive hd hk
  | lose n => exact h.lose hk
  | other i =>
    rw [Joint.step]
    split
    · rename_i hi
      exact h.other hi hk
    · exact h

/-- When nothing is under way, a client that counts its binding as done is bound. -/
theorem Invariant.bindAgrees {w : Joint} (h : Invariant w) : BindAgrees w := by
  intro game os hq _ hj hb
  have h0 := h.attached.conn hj
  have hagrees := h.agrees h0 hq.stream
  have hnone : Call.welcomes w.client = [] := by rw [Call.welcomes, hq.down]; rfl
  have htold := (told_of_nil hnone).trans (Place.own_of_ne_zero (h.attached.token hb))
  obtain ⟨e, he, -, htok⟩ := (hagrees.place _ _).mpr ⟨_, htold, rfl, rfl⟩
  obtain ⟨addr, ha, hs⟩ := hagrees.secured ⟨hb, hnone⟩
  rcases hs _ htold with hbound | hm
  · obtain ⟨p, hl, rfl⟩ := liveOf_eq_some.mp he
    rw [HasBound, he, Option.bind_some] at hbound
    obtain ⟨hpb, haddr⟩ := endpointOf_udp.mp hbound
    cases addrKey_injective haddr
    exact ⟨p, hl, hpb, ha, htok⟩
  · rw [hq.air] at hm
    cases hm

/-- In a run whose steps lose no datagram a counted binding needs, and in which neither a Bye
nor a bind for the client comes from elsewhere, the two views of the binding agree. -/
theorem bindAgrees_of_kept (b : Startup) (settings : Settings) (as : List Action)
    (h : AllSteps Joint.step Keeps (start b settings) as) (before after : List Action) (he : as = before ++ after) :
    BindAgrees (run Joint.step (start b settings) before) := by
  rw [he] at h
  exact (run_invariant (fun _ _ hi hk => hi.step hk) (invariant_start b settings) ((allSteps_append before after).mp h).1).bindAgrees

def joinAndWelcome : List Action :=
  [.call firstAnswers (.join outdoors 0), .serve 1 plainEnv 1 0, .serve 1 plainEnv 1 0, .call firstAnswers (.begin outdoors),
    .call firstAnswers (.turn outdoors)]

def settle : List Action := [.serve 1 plainEnv 1 1, .call firstAnswers (.turn outdoors), .call firstAnswers .finish]

/-- The binding datagram arrives, and then nothing is under way. -/
theorem bindAgrees_of_kept_joinAndBind :
    AllSteps Joint.step Keeps onePlayer (joinAndWelcome ++ .arrive 0 plainEnv 1 :: settle) ∧
      BoundAtServer (run Joint.step onePlayer (joinAndWelcome ++ .arrive 0 plainEnv 1 :: settle)) := by
  have h : AllSteps Joint.step Keeps onePlayer (joinAndWelcome ++ .arrive 0 plainEnv 1 :: settle) := by
    refine ⟨?_, ?_, ?_, ?_, ?_, ?_, ?_, ?_, ?_, trivial⟩ <;> decide +kernel
  refine ⟨h, bindAgrees_of_kept freshStart { playerKey := ascii "a" } _ h _ [] (List.append_nil _).symm outdoors firstAnswers
    ⟨?_, ?_, ?_, ?_⟩ ⟨?_, ?_⟩ ?_ ?_⟩ <;> decide +kernel

/-- The binding datagram is lost, and nothing will ever send it again. -/
theorem not_bindAgrees_lostBind : ¬ ∀ as, BindAgrees (run Joint.step onePlayer as) := by
  intro hall
  have hbound : ((run Joint.step onePlayer (joinAndWelcome ++ .lose 0 :: settle)).server.clients.lookup 1).map (·.udpBound) =
      some false := by decide +kernel
  have hid : (run Joint.step onePlayer (joinAndWelcome ++ .lose 0 :: settle)).client.session.net.myPeerId = 1 := by decide +kernel
  obtain ⟨p, hl, hb, -⟩ := hall (joinAndWelcome ++ .lose 0 :: settle) outdoors firstAnswers
    ⟨by decide +kernel, by decide +kernel, by decide +kernel, by decide +kernel⟩ ⟨by decide +kernel, by decide +kernel⟩
    (by decide +kernel) (by decide +kernel)
  rw [hid] at hl
  rw [hl, Option.map_some, hb] at hbound
  cases hbound

end Joint
end CommonwealthMP
