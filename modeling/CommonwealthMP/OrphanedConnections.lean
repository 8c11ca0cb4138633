import CommonwealthMP.StampedEvents

/-! # Orphaned connections

A socket is open on the net thread and owned on the simulation thread, and the two learn of
each other by events and commands whose pushes may be refused. As long as no refused push is
the only word of a connection, every open one has an owner or one on its way. -/
namespace CommonwealthMP
open ByteLayout OrderedTables SessionTable StepRuns
namespace ServerRuntime

/-- The connections some commands bind to `p`. -/
def bindsOf (p : PeerId) (cmds : List OutboundCmd) : List ConnId :=
  (cmds.filter fun cmd => cmd.kind = .BindPeer ∧ cmd.peerId = p).map (·.connId)

@[simp] theorem bindsOf_append (p : PeerId) (cmds cmds' : List OutboundCmd) :
    bindsOf p (cmds ++ cmds') = bindsOf p cmds ++ bindsOf p cmds' := by
  simp [bindsOf]

theorem bindsOf_eq_nil {p : PeerId} {cmds : List OutboundCmd} (h : ∀ cmd ∈ cmds, cmd.kind ≠ .BindPeer) : bindsOf p cmds = [] := by
  rw [bindsOf, List.map_eq_nil_iff, List.filter_eq_nil_iff]
  exact fun cmd hm => by simp [h cmd hm]

theorem bindsOf_plain (p : PeerId) {cmds : List OutboundCmd} (h : ∀ cmd ∈ cmds, Plain cmd) : bindsOf p cmds = [] :=
  bindsOf_eq_nil fun cmd hm => (h cmd hm).not_bind

theorem bindsOf_sendTcp (p : PeerId) (client : Client) (data : Bytes) : bindsOf p (sendTcp client data) = [] := by
  refine bindsOf_eq_nil fun cmd hm => ?_
  rw [mem_sendTcp hm]
  nofun

theorem bindsOf_bindPeer_ne {p q : PeerId} (h : q ≠ p) (c : ConnId) : bindsOf p (bindPeer c q) = [] := by
  unfold bindPeer
  split
  · rfl
  · simp [bindsOf, h]

theorem bindsOf_bindPeer (p : PeerId) (c : ConnId) : (bindsOf p (bindPeer c p)).Sublist [c] := by
  unfold bindPeer
  split
  · exact List.nil_sublist _
  · simp [bindsOf]

theorem bindsOf_replacedConn (p : PeerId) (old new : ConnId) : bindsOf p (replacedConn old new) = [] := by
  refine bindsOf_eq_nil fun cmd hm => ?_
  unfold replacedConn at hm
  split at hm
  · obtain ⟨-, rfl⟩ := closeConn_kind hm
    nofun
  · cases hm

/-- What a step binds to `p`, and the connection `p` is on afterwards. -/
inductive Rebound (s : ServerRuntime) (i : Env × Input) (p : PeerId) : Prop
  | same (hb : bindsOf p (s.step i).outbound = [])
      (hc : ∀ client', (s.step i).clients.lookup p = some client' →
        ∃ client, s.clients.lookup p = some client ∧ client.connId = client'.connId)
  | joined (c) (hj : p ∈ joins s i) (hb : (bindsOf p (s.step i).outbound).Sublist [c])
      (hc : p ∉ s.clients → ∀ client', (s.step i).clients.lookup p = some client' → client'.connId = c)
  | reconnected (c client) (hl : s.clients.lookup p = some client) (hb : (bindsOf p (s.step i).outbound).Sublist [c])
      (hc : ∀ client', (s.step i).clients.lookup p = some client' → client'.connId = c)
      (hold : client.connId ≠ 0 → closeCmd client.connId ∈ (s.step i).outbound)

/-- A client is on the connection it was on, unless it has joined or reconnected. -/
theorem conn_origin {s : ServerRuntime} (hw : WellFormed s) {i : Env × Input} {p : PeerId} {client' : Client}
    (hl : (s.step i).clients.lookup p = some client') (hj : ∀ fresh, pendingExit s i ≠ some (.joined p fresh))
    (hr : pendingExit s i ≠ some (.reconnected p)) :
    ∃ client, s.clients.lookup p = some client ∧ client.connId = client'.connId := by
  rcases (step_simulates hw i).steps.conn_origin (liveOf_some hl) with ⟨e, he, hc⟩ | ⟨e, hm⟩ | ⟨c, t, hm⟩
  · obtain ⟨client, hclient, rfl⟩ := liveOf_eq_some.mp he
    exact ⟨client, hclient, hc⟩
  · cases cause_of_mem hm with
    | join _ ev t pending fresh hs hx => exact absurd (pendingExit_some.mpr ⟨ev, t, pending, hs, hx⟩) (hj fresh)
  · cases cause_of_mem hm with
    | reconnect _ ev t pending hs hx => exact absurd (pendingExit_some.mpr ⟨ev, t, pending, hs, hx⟩) hr

theorem mem_joins {s : ServerRuntime} {i : Env × Input} {p : PeerId} {fresh : Bool}
    (h : pendingExit s i = some (.joined p fresh)) : p ∈ joins s i := by
  rw [joins, h]
  exact List.mem_singleton.mpr rfl

theorem step_rebound {s : ServerRuntime} (hw : WellFormed s) {used : List ConnId} (ho : Owned used s.sessions)
    (i : Env × Input) (p : PeerId) : Rebound s i p := by
  cases step_output hw i with
  | plain hn hp =>
    refine .same (bindsOf_plain p hp) fun client' hl => conn_origin hw hl (fun fresh hx => hn p (.joined fresh hx)) fun hx => ?_
    exact hn p (.reconnected hx)
  | again ev t q client header joined isNew hs hopen hsize hl hout =>
    refine .same ?_ fun client' hl' => conn_origin hw hl' (fun fresh hx => ?_) fun hx => ?_
    · rw [hout, bindsOf_sendTcp]
    · obtain ⟨ev', t', pending, hs', -⟩ := pendingExit_some.mp hx
      exact hs'.not_client hs
    · obtain ⟨ev', t', pending, hs', -⟩ := pendingExit_some.mp hx
      exact hs'.not_client hs
  | joined ev t pending q joined isNew rest hs hx hq hl hconn hout hr =>
    have hbinds : bindsOf p (s.step i).outbound = bindsOf p (bindPeer pending.connId q) := by
      rw [hout, bindsOf_append, bindsOf_append, bindsOf_sendTcp, bindsOf_plain p hr, List.append_nil, List.append_nil]
    by_cases hqp : q = p
    · subst hqp
      refine .joined pending.connId (mem_joins hx) (hbinds ▸ bindsOf_bindPeer q _) fun hnew client' hl' => ?_
      exact Option.some.inj (hl.symm.trans hl') ▸ hconn hnew
    · refine .same (hbinds.trans (bindsOf_bindPeer_ne hqp _)) fun client' hl' => conn_origin hw hl' (fun fresh hx' => ?_) fun hx' => ?_
      · rw [hx] at hx'
        cases hx'
        exact hqp rfl
      · rw [hx] at hx'
        cases hx'
  | reconnected ev t pending q client joined isNew rest hs hx hc hl hconn hout hr =>
    have hbinds : bindsOf p (s.step i).outbound = bindsOf p (bindPeer pending.connId q) := by
      rw [hout, bindsOf_append, bindsOf_append, bindsOf_append, bindsOf_sendTcp, bindsOf_plain p hr, bindsOf_replacedConn,
        List.append_nil, List.append_nil, List.nil_append]
    by_cases hqp : q = p
    · subst hqp
      refine .reconnected pending.connId client hc (hbinds ▸ bindsOf_bindPeer q _) (fun client' hl' => ?_) fun h0 => ?_
      · exact Option.some.inj (hl.symm.trans hl') ▸ hconn
      · have hp := (findPending_some (frameTarget_pending hs.target).2).1
        have hne : client.connId ≠ pending.connId := fun he => not_pending_of_owned ho hc hp he.symm
        rw [hout, replacedConn, if_pos ⟨h0, hne⟩, closeConn_eq h0]
        exact List.mem_append_left _ (List.mem_singleton.mpr rfl)
    · refine .same (hbinds.trans (bindsOf_bindPeer_ne hqp _)) fun client' hl' => conn_origin hw hl' (fun fresh hx' => ?_) fun hx' => ?_
      · rw [hx] at hx'
        cases hx'
      · rw [hx] at hx'
        cases hx'
        exact hqp rfl

theorem accepted_owned (s : ServerRuntime) {i : Env × Input} {c : ConnId} (h : c ∈ acceptedConn i) :
    c ∈ ownedConns (s.step i) := by
  obtain ⟨env, i⟩ := i
  cases i with
  | inbound ev t =>
    rw [acceptedConn] at h
    split at h
    · rename_i hev
      rw [List.mem_singleton.mp h]
      have hstep : s.step (env, .inbound ev t) = { s.ready with
          pendingTcp := s.ready.pendingTcp ++ [{ connId := ev.connId, addr := ev.addr, connectedAt := t }] } := by
        simp only [ServerRuntime.step, handle, applyInbound, hev]
      rw [hstep]
      exact mem_ownedConns.mpr (.inr ⟨_, List.mem_append_right _ (List.mem_singleton.mpr rfl), rfl⟩)
    · cases h
  | _ => cases h

end ServerRuntime

namespace NetIo

/-- What the net thread hands over in one go: frames, or a single event. -/
def OneTurn (evs : List InboundEvent) : Prop := (∀ ev ∈ evs, ev.kind = .TcpFrame) ∨ evs.length ≤ 1

variable (n : NetIo)

theorem oneTurn_closeConn (c : ConnId) (notifySim : Bool) : OneTurn (n.closeConn c notifySim).2 := by
  unfold closeConn
  split
  · exact .inr (Nat.zero_le _)
  · dsimp only
    split <;> exact .inr (by simp)

theorem oneTurn_drainConn (c : ConnId) (answers : List SendResult) : OneTurn (n.drainConn c answers).2 := by
  unfold drainConn
  split
  · exact .inr (Nat.zero_le _)
  · dsimp only
    split
    · exact oneTurn_closeConn _ c true
    · exact .inr (Nat.zero_le _)

theorem oneTurn_processOutbound (cmd : OutboundCmd) (answers : List SendResult) : OneTurn (n.processOutbound cmd answers).2 := by
  unfold processOutbound
  split
  · unfold processTcpSend
    split
    · exact .inr (Nat.zero_le _)
    · split
      · exact .inr (Nat.zero_le _)
      · exact oneTurn_drainConn _ _ answers
  all_goals exact .inr (Nat.zero_le _)

theorem oneTurn_readConn (c : ConnId) (data : Bytes) : OneTurn (n.readConn c data).2 := by
  unfold readConn
  split
  · exact .inr (Nat.zero_le _)
  · split
    · exact oneTurn_closeConn n c true
    · refine .inl fun ev hm => ?_
      obtain ⟨frame, -, rfl⟩ := List.mem_map.mp hm
      rfl

theorem OneTurn.tail {ev : InboundEvent} {rest : List InboundEvent} (h : OneTurn (ev :: rest)) : OneTurn rest := by
  rcases h with h | h
  · exact .inl fun x hx => h x (List.mem_cons_of_mem _ hx)
  · exact .inr (by simp only [List.length_cons] at h; omega)

theorem not_mem_processOutbound {cmd : OutboundCmd} (hk : cmd.kind = .CloseConn) (h0 : cmd.connId ≠ 0)
    (answers : List SendResult) : cmd.connId ∉ (n.processOutbound cmd answers).1.conns := by
  have htarget : n.target cmd = some cmd.connId := if_pos h0
  rw [processOutbound, hk]
  dsimp only
  rw [processCloseConn, htarget]
  exact fun hm => (mem_closeConn.mp hm).2 rfl

end NetIo

namespace Threads
open ServerRuntime

/-- The connection has an owner, or its TcpAccept is on the way to the simulation. -/
def Held (s : Threads) (c : ConnId) : Prop := c ∈ ownedConns s.sim ∨ c ∈ acceptIds s.coming

/-- Every open connection is owned, or its TcpAccept or a CloseConn for it is under way; every
owner of a closed one has a TcpClosed coming. -/
structure NoOrphans (s : Threads) : Prop where
  conns : ∀ c ∈ s.net.conns, c ∈ ownedConns s.sim ∨ (∃ ev ∈ s.coming, ev.kind = .TcpAccept ∧ ev.connId = c) ∨
    ∃ cmd ∈ s.going, cmd.kind = .CloseConn ∧ cmd.connId = c
  owners : ∀ c ∈ ownedConns s.sim, c ∉ s.net.conns → ∃ ev ∈ s.coming, ev.kind = .TcpClosed ∧ ev.connId = c

/-- The connections `p` is mapped to, now and by the commands under way. -/
def track (s : Threads) (p : PeerId) : List ConnId := (s.net.peerToConn.lookup p).toList ++ bindsOf p s.going

/-- A close names a client that is not the one on its connection. -/
def misnames (s : ServerRuntime) (ev : InboundEvent) : Bool :=
  ev.kind = .TcpClosed && ev.peerId ≠ 0 && s.clients.entries.any fun e => e.2.connId = ev.connId && e.1 ≠ ev.peerId

/-- A join is given an id that is live, or that the net thread still maps or is about to. -/
def reissues (s : Threads) (i : Env × Input) : Bool :=
  (joins s.sim i).any fun p => p ∈ s.sim.clients || s.track p ≠ []

/-- The step loses the last word of a connection: a full queue refuses the TcpAccept, the
TcpClosed of a connection that has or gets an owner, or the CloseConn of an open one; or a close
is taken for that of another client, or a join for a session that was there before. -/
def loses (s : Threads) : Action → Bool
  | .deliver =>
    match s.events with
    | [] => false
    | ev :: _ =>
      (s.inbound.push ev).isNone && (ev.kind = .TcpAccept ||
        (ev.kind = .TcpClosed && (ev.connId ∈ ownedConns s.sim || ev.connId ∈ acceptIds s.coming)))
  | .push =>
    match s.todo with
    | [] => false
    | cmd :: _ => (s.outbound.push cmd).isNone && cmd.kind = .CloseConn && cmd.connId ∈ s.net.conns
  | .consume env t =>
    match s.todo, s.inbound.tryPop with
    | [], some (ev, _) => misnames s.sim ev || s.reissues (env, .inbound ev t)
    | _, _ => false
  | _ => false

/-- A connection that had an owner and will have none again. -/
def Abandoned (s : Threads) (c : ConnId) : Prop := ¬ Held s c ∧ c < s.net.nextConnId

theorem Abandoned.mono {s s' : Threads} {c : ConnId} (h : Abandoned s c) (hheld : Held s' c → Held s c)
    (hnext : s.net.nextConnId ≤ s'.net.nextConnId) : Abandoned s' c :=
  ⟨fun hc => h.1 (hheld hc), Nat.lt_of_lt_of_le h.2 hnext⟩

/-- A TcpClosed comes after the TcpAccept of its connection. -/
def InOrder (evs : List InboundEvent) : Prop :=
  evs.Pairwise fun ev ev' => ev.kind = .TcpClosed → ev'.kind = .TcpAccept → ev'.connId ≠ ev.connId

/-- Among the connections of a peer only the last can still have an owner, and a live peer is on it. -/
structure Tracked (s : Threads) (p : PeerId) : Prop where
  superseded : (s.track p).Pairwise fun c _ => Abandoned s c
  current : ∀ client, s.sim.clients.lookup p = some client → ∀ c ∈ s.track p, Abandoned s c ∨ client.connId = c

structure Covered (s : Threads) : Prop where
  conns : ∀ c ∈ s.net.conns, Held s c ∨ ∃ cmd ∈ s.going, cmd.kind = .CloseConn ∧ cmd.connId = c
  owners : ∀ c, Held s c → c ∉ s.net.conns → ∃ ev ∈ s.coming, ev.kind = .TcpClosed ∧ ev.connId = c
  closed : ∀ ev ∈ s.coming, ev.kind = .TcpClosed → ev.connId ∉ s.net.conns ∧ ev.connId < s.net.nextConnId
  in_order : InOrder s.coming
  closing : ∀ cmd ∈ s.going, cmd.kind = .CloseConn → cmd.connId ≠ 0 ∧ Abandoned s cmd.connId
  one_turn : NetIo.OneTurn s.events
  tracked : ∀ p, Tracked s p

theorem Covered.noOrphans {s : Threads} (h : Covered s) : NoOrphans s where
  conns c hc := by
    rcases h.conns c hc with (hown | hm) | hcmd
    · exact .inl hown
    · exact .inr (.inl (mem_acceptIds.mp hm))
    · exact .inr (.inr hcmd)
  owners c hown hc := h.owners c (.inl hown) hc

theorem covered_start (b : Startup) (inboundMax outboundMax : ℕ) : Covered (start b inboundMax outboundMax) where
  conns c hc := by
    rw [NetIo.mem_conns] at hc
    obtain ⟨conn, hc⟩ := hc
    cases hc
  owners c hc := by
    rcases hc with hc | hc
    · rcases mem_ownedConns.mp hc with ⟨p, client, hl, -⟩ | ⟨p, hp, -⟩
      · cases hl
      · cases hp
    · cases hc
  closed := nofun
  in_order := .nil
  closing := nofun
  one_turn := .inl nofun
  tracked p := ⟨.nil, fun client hl => nomatch hl⟩

theorem Tracked.of_sublist {s s' : Threads} {p : PeerId} (h : Tracked s p) (hsim : s'.sim = s.sim)
    (htrack : (s'.track p).Sublist (s.track p)) (hmono : ∀ c, Abandoned s c → Abandoned s' c) : Tracked s' p where
  superseded := (h.superseded.sublist htrack).imp fun hc => hmono _ hc
  current client hl c hc := by
    rw [hsim] at hl
    exact (h.current client hl c (htrack.subset hc)).imp_left (hmono c)

theorem acceptIds_frames {evs : List InboundEvent} (h : ∀ ev ∈ evs, ev.kind = .TcpFrame) : acceptIds evs = [] :=
  acceptIds_eq_nil fun ev hm => by
    rw [h ev hm]
    nofun

/-- The net thread does something by which no owned connection is closed unheard. -/
theorem Covered.effect {used : List ConnId} {s : Threads} (h : Covered s) (hnum : Numbered used s)
    (hev : ∀ ev ∈ s.events, ev.kind = .TcpFrame) (outbound : AsyncQueue OutboundCmd) {silent : ConnId → Prop}
    {bound : PeerId → ConnId → Prop} {r : NetIo × List InboundEvent} (hr : NetIo.Effect s.net silent bound r)
    (hsilent : ∀ c, silent c → ¬ Held s c) (hturn : NetIo.OneTurn r.2) (hsub : (outbound.items ++ s.todo).Sublist s.going)
    (hclose : ∀ cmd ∈ s.going, cmd.kind = .CloseConn → cmd.connId ∈ r.1.conns → cmd ∈ outbound.items ++ s.todo)
    (htrack : ∀ p, (({ s with outbound := outbound }.netStep r).track p).Sublist (s.track p)) :
    Covered ({ s with outbound := outbound }.netStep r) := by
  have hids : acceptIds (s.inbound.items ++ r.2) = acceptIds s.coming := by
    rw [coming, acceptIds_append, acceptIds_append, acceptIds_frames hev, acceptIds_eq_nil hr.no_accept]
  have hheld : ∀ c, Held ({ s with outbound := outbound }.netStep r) c ↔ Held s c := by
    intro c
    exact or_congr Iff.rfl (by rw [← hids]; rfl)
  have hold : ∀ ev ∈ s.coming, ev.kind = .TcpClosed → ev ∈ s.inbound.items := by
    intro ev hm hk
    refine (List.mem_append.mp hm).resolve_right fun hm => ?_
    rw [hev ev hm] at hk
    cases hk
  have hmono : ∀ c, Abandoned s c → Abandoned ({ s with outbound := outbound }.netStep r) c :=
    fun c hc => hc.mono (hheld c).mp hr.next.ge
  refine ⟨fun c hc => ?_, fun c hc hnot => ?_, fun ev hm hk => ?_, ?_, fun cmd hm hk => ?_, hturn,
    fun p => (h.tracked p).of_sublist rfl (htrack p) hmono⟩
  · rcases h.conns c (hr.kept c hc) with hc' | ⟨cmd, hm, hk, rfl⟩
    · exact .inl ((hheld c).mpr hc')
    · exact .inr ⟨cmd, hclose cmd hm hk hc, hk, rfl⟩
  · have hc' := (hheld c).mp hc
    by_cases hopen : c ∈ s.net.conns
    · rcases hr.closed c hopen hnot with ⟨ev, hm, hk⟩ | hs
      · exact ⟨ev, List.mem_append_right _ hm, hk⟩
      · exact absurd hc' (hsilent c hs)
    · obtain ⟨ev, hm, hk, hid⟩ := h.owners c hc' hopen
      exact ⟨ev, List.mem_append_left _ (hold ev hm hk), hk, hid⟩
  · rcases List.mem_append.mp hm with hm | hm
    · obtain ⟨hnot, hlt⟩ := h.closed ev (List.mem_append_left _ hm) hk
      exact ⟨fun hc => hnot (hr.kept _ hc), Nat.lt_of_lt_of_le hlt hr.next.ge⟩
    · obtain ⟨hopen, hnot⟩ := hr.closes ev hm hk
      exact ⟨hnot, Nat.lt_of_lt_of_le (hnum.conns_range _ hopen) hr.next.ge⟩
  · refine List.pairwise_append.mpr ⟨?_, ?_, fun ev _ ev' hm' _ hk' => absurd hk' (hr.no_accept ev' hm')⟩
    · exact (List.pairwise_append.mp h.in_order).1
    · exact List.pairwise_of_forall_mem_list fun ev _ ev' hm' _ hk' => absurd hk' (hr.no_accept ev' hm')
  · obtain ⟨h0, hgone⟩ := h.closing cmd (hsub.subset hm) hk
    exact ⟨h0, hmono _ hgone⟩

theorem track_kept {s : Threads} (outbound : AsyncQueue OutboundCmd) {silent : ConnId → Prop} {r : NetIo × List InboundEvent}
    (hr : NetIo.Effect s.net silent (fun _ _ => False) r) (hsub : (outbound.items ++ s.todo).Sublist s.going) (p : PeerId) :
    (({ s with outbound := outbound }.netStep r).track p).Sublist (s.track p) := by
  refine List.Sublist.append ?_ ((hsub.filter _).map _)
  change (r.1.peerToConn.lookup p).toList.Sublist _
  cases hl : r.1.peerToConn.lookup p with
  | none => exact List.nil_sublist _
  | some c =>
    rcases hr.mapped p c hl with hc | hc
    · rw [hc]
    · exact hc.elim

theorem Covered.move {used : List ConnId} {s : Threads} (h : Covered s) (hnum : Numbered used s)
    (hev : ∀ ev ∈ s.events, ev.kind = .TcpFrame) {r : NetIo × List InboundEvent}
    (hr : NetIo.Effect s.net (fun _ => False) (fun _ _ => False) r) (hturn : NetIo.OneTurn r.2) : Covered (s.netStep r) :=
  h.effect hnum hev s.outbound hr (fun _ => False.elim) hturn (List.Sublist.refl _) (fun _ hm _ _ => hm)
    (track_kept s.outbound hr (List.Sublist.refl _))

/-- A command of the outbound queue moves its binding from the commands to the mapping. -/
theorem track_process {s : Threads} {cmd : OutboundCmd} {outbound : AsyncQueue OutboundCmd}
    (hout : s.outbound.items = cmd :: outbound.items) (answers : List SendResult) (p : PeerId) :
    (({ s with outbound := outbound }.netStep (s.net.processOutbound cmd answers)).track p).Sublist (s.track p) := by
  have hr := NetIo.effect_processOutbound s.net cmd answers
  have htrack : s.track p = (s.net.peerToConn.lookup p).toList ++ (bindsOf p [cmd] ++ bindsOf p (outbound.items ++ s.todo)) := by
    rw [track, going, hout, ← bindsOf_append]
    rfl
  rw [htrack, ← List.append_assoc]
  refine List.Sublist.append ?_ (List.Sublist.refl _)
  change ((s.net.processOutbound cmd answers).1.peerToConn.lookup p).toList.Sublist _
  cases hl : (s.net.processOutbound cmd answers).1.peerToConn.lookup p with
  | none => exact List.nil_sublist _
  | some c =>
    rcases hr.mapped p c hl with hc | ⟨hk, rfl, rfl, -⟩
    · rw [hc]
      exact List.sublist_append_left _ _
    · refine List.Sublist.trans ?_ (List.sublist_append_right _ _)
      simp [bindsOf, hk]

theorem Covered.process {used : List ConnId} {s : Threads} (h : Covered s) (hnum : Numbered used s) {cmd : OutboundCmd}
    {outbound : AsyncQueue OutboundCmd} (hev : s.events = []) (hout : s.outbound.items = cmd :: outbound.items)
    (answers : List SendResult) :
    Covered ({ s with outbound := outbound }.netStep (s.net.processOutbound cmd answers)) := by
  have hgoing : s.going = cmd :: (outbound.items ++ s.todo) := by
    rw [going, hout]
    rfl
  have hcmd : cmd ∈ s.going := hgoing ▸ List.mem_cons_self
  refine h.effect hnum (by rw [hev]; nofun) outbound (NetIo.effect_processOutbound s.net cmd answers) ?_
    (NetIo.oneTurn_processOutbound s.net cmd answers) (hgoing ▸ List.sublist_cons_self _ _) ?_ (track_process hout answers)
  · rintro c (⟨hk, htarget⟩ | ⟨hk, hmapped, hne⟩)
    · obtain ⟨h0, hgone⟩ := h.closing cmd hcmd hk
      rw [NetIo.target, if_pos h0, Option.some.injEq] at htarget
      exact htarget ▸ hgone.1
    · -- the connection the peer was on before the one it is bound to
      have htrack : s.track cmd.peerId = c :: cmd.connId :: bindsOf cmd.peerId (outbound.items ++ s.todo) := by
        rw [track, hmapped, hgoing, bindsOf, List.filter_cons_of_pos (by simp [hk])]
        rfl
      have hpair := (h.tracked cmd.peerId).superseded
      rw [htrack] at hpair
      exact ((List.pairwise_cons.mp hpair).1 cmd.connId List.mem_cons_self).1
  · intro cmd' hm hk hopen
    rw [hgoing] at hm
    rcases List.mem_cons.mp hm with rfl | hm
    · exact absurd hopen (NetIo.not_mem_processOutbound s.net hk (h.closing cmd' hcmd hk).1 answers)
    · exact hm

theorem Covered.accept {used : List ConnId} {s : Threads} (h : Covered s) (hnum : Numbered used s) (hev : s.events = [])
    (addr : SockAddr) : Covered (s.netStep (s.net.acceptReady addr)) := by
  have hcoming : (s.netStep (s.net.acceptReady addr)).coming =
      s.coming ++ [{ kind := .TcpAccept, connId := s.net.nextConnId, addr := addr }] := by
    rw [coming, coming, hev, List.append_nil]
    rfl
  have hheld : ∀ c, Held (s.netStep (s.net.acceptReady addr)) c ↔ Held s c ∨ c = s.net.nextConnId := by
    intro c
    rw [Held, Held, hcoming, acceptIds_append, List.mem_append, ← or_assoc]
    exact or_congr Iff.rfl List.mem_singleton
  have hnew : s.net.nextConnId ∉ s.net.conns := fun hm => absurd (hnum.conns_range _ hm) (lt_irrefl _)
  have hopen : ∀ c, c ∈ (s.netStep (s.net.acceptReady addr)).net.conns ↔ c ∈ s.net.conns ∨ c = s.net.nextConnId := by
    intro c
    rw [NetIo.mem_conns, NetIo.mem_conns]
    change (∃ conn, (s.net.conns.emplace (.front _ _) s.net.nextConnId { addr := addr }).lookup c = some conn) ↔ _
    rw [Table.lookup_emplace (.front _ _) _ hnew]
    split
    · rename_i hc
      simp [hc]
    · rename_i hc
      simp [hc]
  have hmono : ∀ c, Abandoned s c → Abandoned (s.netStep (s.net.acceptReady addr)) c := by
    refine fun c hc => ⟨fun hheld' => ?_, Nat.lt_succ_of_lt hc.2⟩
    rcases (hheld c).mp hheld' with hheld' | rfl
    · exact hc.1 hheld'
    · exact absurd hc.2 (lt_irrefl _)
  refine ⟨fun c hc => ?_, fun c hc hnot => ?_, fun ev hm hk => ?_, ?_, fun cmd hm hk => ?_, .inr (le_refl _),
    fun p => (h.tracked p).of_sublist rfl (List.Sublist.refl _) hmono⟩
  · rcases (hopen c).mp hc with hc | hc
    · exact (h.conns c hc).imp_left fun h' => (hheld c).mpr (.inl h')
    · exact .inl ((hheld c).mpr (.inr hc))
  · rcases (hheld c).mp hc with hc | rfl
    · obtain ⟨ev, hm, hk⟩ := h.owners c hc fun hm => hnot ((hopen c).mpr (.inl hm))
      exact ⟨ev, hcoming ▸ List.mem_append_left _ hm, hk⟩
    · exact absurd ((hopen _).mpr (.inr rfl)) hnot
  · rw [hcoming] at hm
    rcases List.mem_append.mp hm with hm | hm
    · obtain ⟨hnot, hlt⟩ := h.closed ev hm hk
      refine ⟨fun hc => ?_, Nat.lt_succ_of_lt hlt⟩
      rcases (hopen _).mp hc with hc | hc
      · exact hnot hc
      · exact absurd (hc ▸ hlt) (lt_irrefl _)
    · rw [List.mem_singleton.mp hm] at hk
      cases hk
  · rw [InOrder, hcoming]
    refine List.pairwise_append.mpr ⟨h.in_order, List.pairwise_singleton _ _, fun ev hm ev' hm' hk _ => ?_⟩
    rw [List.mem_singleton.mp hm']
    exact (h.closed ev hm hk).2.ne'
  · obtain ⟨h0, hgone⟩ := h.closing cmd hm hk
    exact ⟨h0, hmono _ hgone⟩

theorem Covered.of_same {s s' : Threads} (h : Covered s) (hsim : s'.sim = s.sim) (hnet : s'.net = s.net)
    (hcoming : s'.coming = s.coming) (hgoing : s'.going = s.going) (hturn : NetIo.OneTurn s'.events) : Covered s' := by
  have hheld : ∀ c, Held s' c ↔ Held s c := by
    intro c
    rw [Held, Held, hsim, hcoming]
  have hgone : ∀ c, Abandoned s' c ↔ Abandoned s c := by
    intro c
    rw [Abandoned, Abandoned, hheld, hnet]
  have htrack : ∀ p, s'.track p = s.track p := by
    intro p
    rw [track, track, hnet, hgoing]
  refine ⟨?_, ?_, ?_, hcoming ▸ h.in_order, ?_, hturn, fun p =>
    (h.tracked p).of_sublist hsim (htrack p ▸ List.Sublist.refl _) fun c => (hgone c).mpr⟩
  · simpa only [hheld, hnet, hgoing] using h.conns
  · simpa only [hheld, hnet, hcoming] using h.owners
  · simpa only [hnet, hcoming] using h.closed
  · simpa only [hgone, hgoing] using h.closing

theorem Covered.refuse {s : Threads} (h : Covered s) {cmd : OutboundCmd} {rest : List OutboundCmd} (htodo : s.todo = cmd :: rest)
    (hcmd : cmd.kind = .CloseConn → cmd.connId ∉ s.net.conns) : Covered { s with todo := rest } := by
  have hsub : (s.outbound.items ++ rest).Sublist s.going := by
    rw [going, htodo]
    exact (List.sublist_cons_self cmd rest).append_left _
  refine ⟨fun c hc => ?_, h.owners, h.closed, h.in_order, fun cmd' hm hk => h.closing cmd' (hsub.subset hm) hk, h.one_turn,
    fun p => (h.tracked p).of_sublist rfl (((hsub.filter _).map _).append_left _) fun _ hc => hc⟩
  refine (h.conns c hc).imp_right fun hclose => ?_
  obtain ⟨cmd', hm, hk, rfl⟩ := hclose
  refine ⟨cmd', ?_, hk, rfl⟩
  rw [going, htodo] at hm
  rcases List.mem_append.mp hm with hm | hm
  · exact List.mem_append_left _ hm
  · rcases List.mem_cons.mp hm with rfl | hm
    · exact absurd hc (hcmd hk)
    · exact List.mem_append_right _ hm

theorem Covered.drop {s : Threads} (h : Covered s) {ev : InboundEvent} {rest : List InboundEvent} (hev : s.events = ev :: rest)
    (haccept : ev.kind ≠ .TcpAccept) (hclosed : ev.kind = .TcpClosed → ¬ Held s ev.connId) :
    Covered { s with events := rest } := by
  have hsub : (s.inbound.items ++ rest).Sublist s.coming := by
    rw [coming, hev]
    exact (List.sublist_cons_self ev rest).append_left _
  have hids : acceptIds (s.inbound.items ++ rest) = acceptIds s.coming := by
    rw [coming, hev, acceptIds_append, acceptIds_append, acceptIds_cons, if_neg haccept, List.nil_append]
  have hheld : ∀ c, Held { s with events := rest } c ↔ Held s c := by
    intro c
    exact or_congr Iff.rfl (by rw [← hids]; rfl)
  have hgone : ∀ c, Abandoned s c → Abandoned { s with events := rest } c := fun c hc => hc.mono (hheld c).mp (le_refl _)
  refine ⟨fun c hc => (h.conns c hc).imp_left (hheld c).mpr, fun c hc hnot => ?_,
    fun ev' hm hk => h.closed ev' (hsub.subset hm) hk, h.in_order.sublist hsub, fun cmd hm hk => ?_, ?_,
    fun p => (h.tracked p).of_sublist rfl (List.Sublist.refl _) hgone⟩
  · have hc' := (hheld c).mp hc
    obtain ⟨ev', hm, hk, rfl⟩ := h.owners c hc' hnot
    refine ⟨ev', ?_, hk, rfl⟩
    rw [coming, hev] at hm
    rcases List.mem_append.mp hm with hm | hm
    · exact List.mem_append_left _ hm
    · rcases List.mem_cons.mp hm with rfl | hm
      · exact absurd hc' (hclosed hk)
      · exact List.mem_append_right _ hm
  · obtain ⟨h0, hc⟩ := h.closing cmd hm hk
    exact ⟨h0, hgone _ hc⟩
  · have hturn := h.one_turn
    rw [hev] at hturn
    exact hturn.tail

/-- What the simulation is handed, and what the inbound queue keeps. -/
structure Handed (s : Threads) (i : Env × ServerRuntime.Input) (inbound : AsyncQueue InboundEvent) : Prop where
  accounts : Accounts s.sim i
  fresh : ∀ p ∈ joins s.sim i, p ∉ s.sim.clients ∧ s.track p = []
  sublist : inbound.items.Sublist s.inbound.items
  accepts : acceptIds s.inbound.items = acceptedConn i ++ acceptIds inbound.items
  /-- A TcpClosed leaves the queue as the input, and then nothing holds its connection any more. -/
  closed : ∀ ev ∈ s.inbound.items, ev.kind = .TcpClosed →
    ev ∈ inbound.items ∨ (closedConn i = some ev.connId ∧ ev.connId ∉ ownedConns (s.sim.step i) ∧
      ev.connId ∉ acceptIds (inbound.items ++ s.events))
  /-- A connection reported closed is one whose TcpClosed was in the queue. -/
  reported : ∀ c, closedConn i = some c → ∃ ev ∈ s.inbound.items, ev.kind = .TcpClosed ∧ ev.connId = c

theorem Covered.handle {used : List ConnId} {s : Threads} (h : Covered s) (hnum : Numbered used s) (htodo : s.todo = [])
    {i : Env × ServerRuntime.Input} {inbound : AsyncQueue InboundEvent} (hi : Handed s i inbound) :
    Covered ({ s with inbound := inbound }.handleInput i) := by
  have hcoming : (inbound.items ++ s.events).Sublist s.coming := hi.sublist.append_right s.events
  have hids : acceptIds s.coming = acceptedConn i ++ acceptIds (inbound.items ++ s.events) := by
    rw [coming, acceptIds_append, hi.accepts, acceptIds_append, List.append_assoc]
  have hgoing : s.going = s.outbound.items := by rw [going, htodo, List.append_nil]
  have hheld : ∀ c, Held ({ s with inbound := inbound }.handleInput i) c → Held s c := by
    rintro c (hc | hc)
    · rcases hi.accounts.gains c hc with hc | hc
      · exact .inl hc
      · exact .inr (hids ▸ List.mem_append_left _ hc)
    · exact .inr (hids ▸ List.mem_append_right _ hc)
  have hmono : ∀ c, Abandoned s c → Abandoned ({ s with inbound := inbound }.handleInput i) c :=
    fun c hc => hc.mono (hheld c) (le_refl _)
  -- an owned connection the step closes is abandoned
  have hdropped : ∀ cmd ∈ (s.sim.step i).outbound, cmd.kind = .CloseConn →
      cmd.connId ≠ 0 ∧ Abandoned ({ s with inbound := inbound }.handleInput i) cmd.connId := by
    intro cmd hm hk
    obtain ⟨h0, hown, hnot⟩ := hi.accounts.closes cmd hm hk
    have hused := mem_used_of_owned hnum.owned hown
    refine ⟨h0, ?_, (hnum.used_range _ (List.mem_append_left _ hused)).2⟩
    rintro (hc | hc)
    · exact hnot hc
    · exact (List.disjoint_of_nodup_append hnum.nodup) hused (hids ▸ List.mem_append_right _ hc)
  refine ⟨fun c hc => ?_, fun c hc hnot => ?_, fun ev hm hk => h.closed ev (hcoming.subset hm) hk,
    h.in_order.sublist hcoming, fun cmd hm hk => ?_, h.one_turn, fun p => ?_⟩
  · rcases h.conns c hc with (hown | hacc) | ⟨cmd, hm, hk⟩
    · by_cases hown' : c ∈ ownedConns (s.sim.step i)
      · exact .inl (.inl hown')
      · have h0 : c ≠ 0 := fun h0 => hnum.zero_not_mem (h0 ▸ mem_used_of_owned hnum.owned hown)
        rcases hi.accounts.drops c hown hown' h0 with hm | hclosed
        · exact .inr ⟨closeCmd c, List.mem_append_right _ hm, rfl, rfl⟩
        · obtain ⟨ev, hm, hk, rfl⟩ := hi.reported c hclosed
          exact absurd hc (h.closed ev (List.mem_append_left _ hm) hk).1
    · rw [hids] at hacc
      rcases List.mem_append.mp hacc with hacc | hacc
      · exact .inl (.inl (accepted_owned s.sim hacc))
      · exact .inl (.inr hacc)
    · rw [hgoing] at hm
      exact .inr ⟨cmd, List.mem_append_left _ hm, hk⟩
  · obtain ⟨ev, hm, hk, rfl⟩ := h.owners c (hheld c hc) hnot
    refine ⟨ev, ?_, hk, rfl⟩
    rcases List.mem_append.mp hm with hm | hm
    · rcases hi.closed ev hm hk with hm | ⟨-, hown, hacc⟩
      · exact List.mem_append_left _ hm
      · exact absurd hc (not_or.mpr ⟨hown, hacc⟩)
    · exact List.mem_append_right _ hm
  · rcases List.mem_append.mp hm with hm | hm
    · obtain ⟨h0, hc⟩ := h.closing cmd (hgoing ▸ hm) hk
      exact ⟨h0, hmono _ hc⟩
    · exact hdropped cmd hm hk
  · have htrack : ({ s with inbound := inbound }.handleInput i).track p = s.track p ++ bindsOf p (s.sim.step i).outbound := by
      rw [track, track, hgoing, List.append_assoc, ← bindsOf_append]
      rfl
    have hold := h.tracked p
    cases step_rebound hnum.wf hnum.owned i p with
    | same hb hc =>
      rw [hb, List.append_nil] at htrack
      refine ⟨htrack ▸ hold.superseded.imp fun hc => hmono _ hc, fun client' hl c hm => ?_⟩
      obtain ⟨client, hl, he⟩ := hc client' hl
      rw [htrack] at hm
      exact (hold.current client hl c hm).imp (hmono c) fun h => he ▸ h
    | joined c hj hb hc =>
      obtain ⟨hnew, hnone⟩ := hi.fresh p hj
      rw [hnone, List.nil_append] at htrack
      refine ⟨htrack ▸ (List.pairwise_singleton _ c).sublist hb, fun client' hl d hm => .inr ?_⟩
      rw [htrack] at hm
      rw [List.mem_singleton.mp (hb.subset hm)]
      exact hc hnew client' hl
    | reconnected c client hl hb hc hgone =>
      have hbefore : ∀ d ∈ s.track p, Abandoned ({ s with inbound := inbound }.handleInput i) d := by
        intro d hd
        rcases hold.current client hl d hd with hd | rfl
        · exact hmono d hd
        · have hused := mem_used_of_owned hnum.owned (owned_client hl)
          have h0 : client.connId ≠ 0 := fun h0 => hnum.zero_not_mem (h0 ▸ hused)
          exact (hdropped _ (hgone h0) rfl).2
      refine ⟨?_, fun client' hl' d hm => ?_⟩
      · rw [htrack]
        refine List.pairwise_append.mpr ⟨List.pairwise_of_forall_mem_list fun d hd _ _ => hbefore d hd,
          (List.pairwise_singleton _ c).sublist hb, fun d hd _ _ => hbefore d hd⟩
      · rw [htrack] at hm
        rcases List.mem_append.mp hm with hm | hm
        · exact .inl (hbefore d hm)
        · rw [List.mem_singleton.mp (hb.subset hm)]
          exact .inr (hc client' hl')

theorem handed_inbound {used : List ConnId} {s : Threads} (h : Covered s) (hnum : Numbered used s) {env : Env} {t : Time}
    {ev : InboundEvent} {inbound : AsyncQueue InboundEvent} (hin : s.inbound.items = ev :: inbound.items)
    (hm : misnames s.sim ev = false) (hr : s.reissues (env, .inbound ev t) = false) :
    Handed s (env, .inbound ev t) inbound := by
  have hfresh : ∀ p ∈ joins s.sim (env, .inbound ev t), p ∉ s.sim.clients ∧ s.track p = [] := by
    intro p hp
    have hnot := List.any_eq_false.mp hr p hp
    simpa using hnot
  have hclosed : ∀ c, closedConn (env, .inbound ev t) = some c ↔ ev.kind = .TcpClosed ∧ ev.connId = c := by
    intro c
    rw [closedConn]
    dsimp only
    split
    · rename_i hk
      exact ⟨fun he => ⟨hk, Option.some.inj he⟩, fun he => congrArg some he.2⟩
    · rename_i hk
      exact ⟨nofun, fun he => absurd he.1 hk⟩
  refine ⟨step_accounts hnum.wf hnum.owned hnum.zero_not_mem fun p hp => (hfresh p hp).1, hfresh,
    hin ▸ List.sublist_cons_self ev _, ?_, fun ev' hm' hk' => ?_, fun c hc => ?_⟩
  · rw [hin, acceptIds_cons]
    rfl
  · rw [hin] at hm'
    rcases List.mem_cons.mp hm' with rfl | hm'
    · refine .inr ⟨(hclosed _).mpr ⟨hk', rfl⟩, ?_, fun hacc => ?_⟩
      · refine closed_unowned hnum.wf.keyed hnum.owned env hk' t fun hp q client hl hc => ?_
        rw [misnames, hk'] at hm
        by_contra hne
        have hany : (s.sim.clients.entries.any fun e => e.2.connId = ev'.connId && e.1 ≠ ev'.peerId) = true :=
          List.any_eq_true.mpr ⟨⟨q, client⟩, Table.mem_entries.mpr hl, by simpa using ⟨hc, hne⟩⟩
        rw [hany] at hm
        simp [hp] at hm
      · obtain ⟨ev, hm₂, hk₂, hid⟩ := mem_acceptIds.mp hacc
        have hord := h.in_order
        rw [InOrder, coming, hin, List.cons_append] at hord
        exact (List.pairwise_cons.mp hord).1 ev hm₂ hk' hk₂ hid
    · exact .inl hm'
  · obtain ⟨hk, rfl⟩ := (hclosed c).mp hc
    exact ⟨ev, hin ▸ List.mem_cons_self, hk, rfl⟩

/-- What the main loop calls besides `apply_inbound`. -/
theorem handed_house {used : List ConnId} {s : Threads} (hnum : Numbered used s) (env : Env) {i : ServerRuntime.Input}
    (hi : ∀ ev t, i ≠ .inbound ev t) : Handed s (env, i) s.inbound := by
  have hj : joins s.sim (env, i) = [] := by
    cases i with
    | inbound ev t => exact absurd rfl (hi ev t)
    | _ => rfl
  refine ⟨step_accounts hnum.wf hnum.owned hnum.zero_not_mem ?_, ?_, List.Sublist.refl _, ?_, fun ev hm _ => .inl hm, ?_⟩
  · rw [FreshJoin, hj]
    nofun
  · rw [hj]
    nofun
  · cases i with
    | inbound ev t => exact absurd rfl (hi ev t)
    | _ => rfl
  · cases i with
    | inbound ev t => exact absurd rfl (hi ev t)
    | _ => nofun

theorem step_covered {used : List ConnId} {s : Threads} (hnum : Numbered used s) (h : Covered s) {a : Action}
    (ha : loses s a = false) : Covered (s.step a) := by
  have hm := step_moves s a
  generalize s.step a = s' at hm
  cases hm with
  | idle => exact h
  | consumed env t ev inbound htodo hin =>
    have hpop : s.inbound.tryPop = some (ev, { s.inbound with items := inbound.items }) := by
      rw [AsyncQueue.tryPop, hin]
    simp only [loses, htodo, hpop, Bool.or_eq_false_iff] at ha
    exact h.handle hnum htodo (handed_inbound h hnum hin ha.1 ha.2)
  | housed env i htodo hi => exact h.handle hnum htodo (handed_house hnum env hi)
  | pushed cmd rest outbound htodo hp =>
    refine h.of_same rfl rfl rfl ?_ h.one_turn
    rw [AsyncQueue.push_some hp, going, going, htodo, List.append_assoc]
    rfl
  | refused cmd rest htodo hp =>
    refine h.refuse htodo fun hk hopen => ?_
    simp [loses, htodo, hp, hk, hopen] at ha
  | processed cmd outbound answers hev hout => exact h.process hnum hev hout answers
  | delivered ev rest inbound hev hp =>
    have hturn := h.one_turn
    rw [hev] at hturn
    refine h.of_same rfl rfl ?_ rfl hturn.tail
    rw [AsyncQueue.push_some hp, coming, coming, hev, List.append_assoc]
    rfl
  | dropped ev rest hev hp hk =>
    simp only [loses, hev, hp] at ha
    refine h.drop hev (fun hacc => ?_) fun hclosed hheld => ?_
    · simp [hacc] at ha
    · rcases hheld with hown | hacc
      · simp [hclosed, hown] at ha
      · simp [hclosed, hacc] at ha
  | cut ev rest hev hp hk =>
    refine h.move hnum (fun ev' hm => ?_) (NetIo.effect_closeConn s.net ev.connId fun h => by cases h)
      (NetIo.oneTurn_closeConn s.net _ true)
    rcases h.one_turn with hframes | hone
    · exact hframes ev' hm
    · rw [hev] at hm hone
      have hnil : rest = [] := List.eq_nil_of_length_eq_zero (by simp only [List.length_cons] at hone; omega)
      rw [hnil] at hm
      rw [List.mem_singleton.mp hm]
      exact hk
  | datagram addr bytes hev =>
    have hr : NetIo.Effect s.net (fun _ => False) (fun _ _ => False)
        (s.net, [{ kind := .UdpDatagram, addr := addr, bytes := bytes }]) := by
      refine ⟨fun _ hc => hc, fun _ hc hnot => absurd hc hnot, fun ev hm hk => ?_, fun ev hm => ?_, rfl, fun _ _ hl => .inl hl⟩
      · rw [List.mem_singleton.mp hm] at hk
        cases hk
      · rw [List.mem_singleton.mp hm]
        intro h
        cases h
    exact h.move hnum (by rw [hev]; intro _ h; cases h) hr (.inr (le_refl _))
  | net _ r hev hr =>
    have hframes : ∀ ev ∈ s.events, ev.kind = .TcpFrame := by
      rw [hev]
      intro _ hm
      cases hm
    cases hr with
    | accept addr => exact h.accept hnum hev addr
    | readable connId data =>
      exact h.move hnum hframes (NetIo.effect_readConn s.net connId data) (NetIo.oneTurn_readConn s.net connId data)
    | writable connId answers =>
      exact h.move hnum hframes (NetIo.effect_drainConn s.net connId answers) (NetIo.oneTurn_drainConn s.net connId answers)
    | hangUp connId =>
      exact h.move hnum hframes (NetIo.effect_closeConn s.net connId fun h => by cases h) (NetIo.oneTurn_closeConn s.net connId true)

/-- In a run that loses no last word of a connection, no connection is orphaned in any state. -/
theorem no_orphans_of_lossless (b : Startup) (inboundMax outboundMax : ℕ) (as : List Action)
    (h : AllSteps Threads.step (fun s a => loses s a = false) (start b inboundMax outboundMax) as) (before after : List Action)
    (he : as = before ++ after) : NoOrphans (run Threads.step (start b inboundMax outboundMax) before) := by
  rw [he] at h
  have hrun : Covered (run Threads.step (start b inboundMax outboundMax) before) ∧
      ∃ used, Numbered used (run Threads.step (start b inboundMax outboundMax) before) := by
    refine run_invariant (I := fun s => Covered s ∧ ∃ used, Numbered used s) (fun s a hs ha => ?_)
      ⟨covered_start b inboundMax outboundMax, [], numbered_start b inboundMax outboundMax⟩ ((allSteps_append before after).mp h).1
    obtain ⟨hcovered, used, hnum⟩ := hs
    exact ⟨step_covered hnum hcovered ha, step_numbered hnum a⟩
  exact hrun.1.noOrphans

/-- A player joins and leaves, and the connection hangs up. -/
def joinByeHangUp : List Action :=
  joinedOn1 ++ [.process [], .process [], .process [], .readable 1 (makeBye 1).encode, .deliver, .hangUp 1, .deliver,
    .consume plainEnv 2, .push, .consume plainEnv 3]

theorem no_orphans_of_lossless_joinByeHangUp :
    AllSteps Threads.step (fun s a => loses s a = false) (start freshStart 8192 8192) joinByeHangUp ∧
      NoOrphans (run Threads.step (start freshStart 8192 8192) joinByeHangUp) := by
  have h : AllSteps Threads.step (fun s a => loses s a = false) (start freshStart 8192 8192) joinByeHangUp := by
    refine ⟨?_, ?_, ?_, ?_, ?_, ?_, ?_, ?_, ?_, ?_, ?_, ?_, ?_, ?_, ?_, ?_, ?_, ?_, ?_, trivial⟩ <;> decide +kernel
  exact ⟨h, no_orphans_of_lossless freshStart 8192 8192 joinByeHangUp h joinByeHangUp [] (List.append_nil _).symm⟩

/-- A player says Bye and sends the Hello of another on the same connection, which hangs up; the
net thread has stamped all three events with the first player. -/
def byeHelloHangUp : List Action :=
  joinedOn1 ++ [.process [], .process [], .process [], .readable 1 ((makeBye 1).encode ++ helloFrame (ascii "b")), .deliver,
    .deliver, .hangUp 1, .deliver, .consume plainEnv 2, .push, .consume plainEnv 2, .push, .push, .push, .consume plainEnv 2]

/-- The second player stays on the closed connection, and nothing under way says so. -/
theorem not_noOrphans_staleClose : ¬ ∀ as, NoOrphans (run Threads.step (start freshStart 8192 8192) as) := by
  intro hall
  have howned : 1 ∈ ownedConns (run Threads.step (start freshStart 8192 8192) byeHelloHangUp).sim := by decide +kernel
  have hclosed : 1 ∉ (run Threads.step (start freshStart 8192 8192) byeHelloHangUp).net.conns := by decide +kernel
  have hcoming : (run Threads.step (start freshStart 8192 8192) byeHelloHangUp).coming = [] :=
    List.eq_nil_of_length_eq_zero (by decide +kernel)
  obtain ⟨ev, hm, -⟩ := (hall byeHelloHangUp).owners 1 howned hclosed
  rw [hcoming] at hm
  cases hm

end Threads
end CommonwealthMP
