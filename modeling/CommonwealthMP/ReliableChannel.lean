import CommonwealthMP.ServerThreads

/-! # The reliable channel

A TCP message passes the outbound queue and the send queue of its connection. As long as
neither refuses one, what the socket has taken, what the send queue holds and what is still
under way add up, in this order, to what the simulation has sent. A refusal skips the message
and leaves the connection open. -/
namespace CommonwealthMP
open ByteLayout OrderedTables SessionTable StepRuns

namespace NetIo

/-- The bytes a connection has taken over, sent or not. -/
def carried (conn : NetConn) : Bytes := conn.wire ++ conn.sendQ.unsent

/-- Where `c` is still open in `n'`, it carries what it carried in `n`. -/
def SameCarried (n n' : NetIo) (c : ConnId) : Prop :=
  ∀ conn', n'.conns.lookup c = some conn' → ∃ conn, n.conns.lookup c = some conn ∧ carried conn' = carried conn

variable {n n' : NetIo} {c : ConnId}

theorem SameCarried.of_conns (h : n'.conns = n.conns) : SameCarried n n' c := by
  intro conn' hl
  rw [h] at hl
  exact ⟨conn', hl, rfl⟩

theorem SameCarried.trans {n'' : NetIo} (h : SameCarried n n' c) (h' : SameCarried n' n'' c) : SameCarried n n'' c := by
  intro conn'' hl
  obtain ⟨conn', hl', hc'⟩ := h' conn'' hl
  obtain ⟨conn, hl, hc⟩ := h conn' hl'
  exact ⟨conn, hl, hc'.trans hc⟩

theorem lookup_setConn (n : NetIo) (d : ConnId) (f : NetConn → NetConn) (c : ConnId) :
    (n.setConn d f).conns.lookup c = if c = d then (n.conns.lookup c).map f else n.conns.lookup c :=
  Table.lookup_modify d f n.conns c

theorem sameCarried_setConn (n : NetIo) (d : ConnId) {f : NetConn → NetConn}
    (hf : ∀ conn, n.conns.lookup d = some conn → carried (f conn) = carried conn) : SameCarried n (n.setConn d f) c := by
  intro conn' hl
  rw [lookup_setConn] at hl
  split at hl
  · rename_i hcd
    obtain ⟨conn, hconn, rfl⟩ := Option.map_eq_some_iff.mp hl
    exact ⟨conn, hconn, hf conn (hcd ▸ hconn)⟩
  · exact ⟨conn', hl, rfl⟩

theorem sameCarried_closeConn (n : NetIo) (d : ConnId) (notifySim : Bool) : SameCarried n (n.closeConn d notifySim).1 c := by
  intro conn' hl
  rw [lookup_closeConn] at hl
  split at hl
  · cases hl
  · exact ⟨conn', hl, rfl⟩

theorem sameCarried_drainConn (n : NetIo) (d : ConnId) (answers : List SendResult) :
    SameCarried n (n.drainConn d answers).1 c := by
  unfold drainConn
  cases hl : n.conns.lookup d with
  | none => exact .of_conns rfl
  | some conn =>
    have hdrain := conn.sendQ.drain_unsent answers
    dsimp only
    have hset : SameCarried n (n.setConn d fun c =>
        { c with sendQ := (conn.sendQ.drain answers).1, wire := c.wire ++ (conn.sendQ.drain answers).2.1 }) c := by
      refine sameCarried_setConn n d fun conn' hl' => ?_
      rw [hl] at hl'
      cases hl'
      rw [carried, carried]
      dsimp only
      rw [List.append_assoc, hdrain]
    split
    · exact hset.trans (sameCarried_closeConn _ d true)
    · exact hset

theorem sameCarried_readConn (n : NetIo) (d : ConnId) (data : Bytes) : SameCarried n (n.readConn d data).1 c := by
  unfold readConn
  split
  · exact .of_conns rfl
  · split
    · exact sameCarried_closeConn n d true
    · exact sameCarried_setConn n d fun _ _ => rfl

theorem sameCarried_processBindPeer (n : NetIo) (cmd : OutboundCmd) : SameCarried n (n.processBindPeer cmd) c := by
  unfold processBindPeer
  split
  · exact .of_conns rfl
  · rename_i conn hl
    have hset : ∀ (m : NetIo), SameCarried m (m.setConn cmd.connId fun c => { c with peerId := cmd.peerId }) c :=
      fun m => sameCarried_setConn m cmd.connId fun _ _ => rfl
    have herase : SameCarried n (if conn.peerId ≠ 0 ∧ conn.peerId ≠ cmd.peerId then
        { n with peerToConn := n.peerToConn.erase conn.peerId } else n) c := by
      split <;> exact .of_conns rfl
    dsimp only
    generalize (if conn.peerId ≠ 0 ∧ conn.peerId ≠ cmd.peerId then
      { n with peerToConn := n.peerToConn.erase conn.peerId } else n) = n₁ at herase ⊢
    refine herase.trans ?_
    split
    · have hmapped : ∀ m : NetIo, SameCarried n₁ m c → SameCarried n₁ (({ m with
          peerToConn := m.peerToConn.insert cmd.peerId cmd.connId } : NetIo).setConn cmd.connId
            fun c => { c with peerId := cmd.peerId }) c :=
        fun m hm => hm.trans (SameCarried.trans (.of_conns rfl) (hset _))
      cases n₁.peerToConn.lookup cmd.peerId with
      | none => exact hmapped n₁ (.of_conns rfl)
      | some old =>
        refine hmapped (if old ≠ cmd.connId then (n₁.closeConn old false).1 else n₁) ?_
        split
        · exact sameCarried_closeConn n₁ _ false
        · exact .of_conns rfl
    · exact hset n₁

theorem sameCarried_processKeepPending (n : NetIo) (cmd : OutboundCmd) : SameCarried n (n.processKeepPending cmd) c := by
  unfold processKeepPending
  split
  · exact .of_conns rfl
  · dsimp only
    split
    · exact SameCarried.trans (.of_conns rfl) (sameCarried_setConn _ _ fun _ _ => rfl)
    · exact .of_conns rfl

theorem sameCarried_processCloseConn (n : NetIo) (cmd : OutboundCmd) : SameCarried n (n.processCloseConn cmd) c := by
  unfold processCloseConn
  split
  · exact .of_conns rfl
  · exact sameCarried_closeConn n _ false

/-- A TcpSend by connection adds its bytes to that connection, unless its send queue refuses them. -/
theorem processTcpSend_carried {cmd : OutboundCmd} (h0 : cmd.connId ≠ 0) (answers : List SendResult) :
    (cmd.connId ≠ c → SameCarried n (n.processTcpSend cmd answers).1 c) ∧
      (cmd.connId = c → ∀ conn', (n.processTcpSend cmd answers).1.conns.lookup c = some conn' →
        ∃ conn, n.conns.lookup c = some conn ∧
          ((conn.sendQ.append cmd.bytes ≠ none ∧ carried conn' = carried conn ++ cmd.bytes) ∨
            (conn.sendQ.append cmd.bytes = none ∧ (conn.sendQ.drain answers).2.2 ≠ .closed ∧
              carried conn' = carried conn))) := by
  have htarget : n.target cmd = some cmd.connId := if_pos h0
  unfold processTcpSend
  rw [htarget]
  dsimp only
  cases hl : n.conns.lookup cmd.connId with
  | none =>
    refine ⟨fun _ => .of_conns rfl, fun hc conn' hl' => ?_⟩
    rw [← hc, hl] at hl'
    cases hl'
  | some conn =>
    dsimp only
    cases ha : conn.sendQ.append cmd.bytes with
    | some sendQ =>
      dsimp only
      refine ⟨fun hne => ?_, fun hc conn' hl' => ?_⟩
      · refine SameCarried.trans (fun conn' hl' => ?_) (sameCarried_drainConn _ _ answers)
        rw [lookup_setConn, if_neg (Ne.symm hne)] at hl'
        exact ⟨conn', hl', rfl⟩
      · obtain ⟨conn₁, hl₁, hcarried⟩ := sameCarried_drainConn _ _ answers conn' hl'
        rw [lookup_setConn, if_pos hc.symm, ← hc, hl] at hl₁
        cases hl₁
        refine ⟨conn, hc ▸ hl, .inl ⟨by rw [ha]; nofun, ?_⟩⟩
        rw [hcarried, carried, carried]
        dsimp only
        rw [TcpSendQueue.append_unsent ha, List.append_assoc]
    | none =>
      dsimp only
      refine ⟨fun _ => sameCarried_drainConn n _ answers,
        fun hc conn' hl' => ⟨conn, hc ▸ hl, .inr ⟨ha, fun hclosed => ?_, ?_⟩⟩⟩
      · rw [drainConn, hl] at hl'
        dsimp only at hl'
        rw [if_pos hclosed, lookup_closeConn, if_pos hc.symm] at hl'
        cases hl'
      · obtain ⟨conn₁, hl₁, hcarried⟩ := sameCarried_drainConn n _ answers conn' hl'
        cases (hc ▸ hl).symm.trans hl₁
        exact hcarried

theorem processOutbound_sameCarried {cmd : OutboundCmd} (h : cmd.kind = .TcpSend → cmd.connId ≠ 0 ∧ cmd.connId ≠ c)
    (answers : List SendResult) : SameCarried n (n.processOutbound cmd answers).1 c := by
  unfold processOutbound
  cases hk : cmd.kind with
  | TcpSend => exact (processTcpSend_carried (h hk).1 answers).1 (h hk).2
  | UdpSend => exact .of_conns rfl
  | BindPeer => exact sameCarried_processBindPeer n cmd
  | CloseConn => exact sameCarried_processCloseConn n cmd
  | KeepPending => exact sameCarried_processKeepPending n cmd

end NetIo

namespace Threads
open ServerRuntime (framesTo framesTo_append framesTo_eq_nil)

def isTcpTo (c : ConnId) (cmd : OutboundCmd) : Bool := cmd.kind = .TcpSend ∧ cmd.connId = c

theorem isTcpTo_iff {c : ConnId} {cmd : OutboundCmd} : isTcpTo c cmd = true ↔ cmd.kind = .TcpSend ∧ cmd.connId = c := by
  simp [isTcpTo]

/-- The messages to `c` among some commands, one after the other. -/
def tcpTo (c : ConnId) (cmds : List OutboundCmd) : Bytes := (cmds.filter (isTcpTo c)).flatMap (·.bytes)

theorem tcpTo_eq (c : ConnId) (cmds : List OutboundCmd) : tcpTo c cmds = (framesTo c cmds).flatten := by
  rw [tcpTo, List.flatMap_def]
  rfl

theorem framesTo_cons (c : ConnId) (cmd : OutboundCmd) (cmds : List OutboundCmd) :
    framesTo c (cmd :: cmds) = if isTcpTo c cmd then cmd.bytes :: framesTo c cmds else framesTo c cmds := by
  unfold framesTo
  by_cases h : cmd.kind = .TcpSend ∧ cmd.connId = c <;> simp [isTcpTo, h]

def issued (s : Threads) (a : Action) : List OutboundCmd := if s.todo = [] then (s.step a).todo else []

/-- The step meets a message to `c` that cannot be queued: the outbound queue is full, or the
send queue of the open connection refuses it. -/
def unqueued (c : ConnId) (s : Threads) : Action → Bool
  | .push =>
    match s.todo with
    | [] => false
    | cmd :: _ => isTcpTo c cmd && (s.outbound.push cmd).isNone
  | .process _ =>
    match s.events, s.outbound.tryPop with
    | [], some (cmd, _) =>
      isTcpTo c cmd && (s.net.conns.lookup c).any fun conn => (conn.sendQ.append cmd.bytes).isNone
    | _, _ => false
  | _ => false

/-- The message is lost to a connection that goes on: it is open, and its socket does not fail
in the same turn. -/
def stalls (c : ConnId) (s : Threads) (a : Action) : Bool :=
  unqueued c s a && (s.net.conns.lookup c).any fun conn =>
    match a with
    | .process answers => (conn.sendQ.drain answers).2.2 != .closed
    | _ => true

/-- How much of what was sent a connection takes over: all of it, or what the queues do not refuse. -/
structure Keeps (R : List Bytes → List Bytes → Prop) : Prop where
  nil : R [] []
  append_right : ∀ {frames sent : List Bytes} (more : List Bytes), R frames sent → R (frames ++ more) (sent ++ more)

/-- A message under way may be lost. -/
def Drops (R : List Bytes → List Bytes → Prop) : Prop :=
  ∀ (frames : List Bytes) (frame : Bytes) (more sent : List Bytes), R (frames ++ frame :: more) sent → R (frames ++ more) sent

theorem keeps_eq : Keeps (· = ·) := ⟨rfl, fun more h => congrArg (· ++ more) h⟩

theorem keeps_sublist : Keeps List.Sublist := ⟨.slnil, fun more h => h.append_right more⟩

theorem drops_sublist : Drops List.Sublist := fun frames frame more _ h =>
  ((List.sublist_cons_self frame more).append_left frames).trans h

/-- What an open connection has taken over are messages sent to it; those under way come after
them, and both together are as much of what was sent as `R` says. -/
structure Outgoing (R : List Bytes → List Bytes → Prop) (c : ConnId) (s : Threads) (sent : List OutboundCmd) : Prop where
  numbered : ∃ used, Numbered used s
  range : ∀ cmd ∈ sent, cmd.kind = .TcpSend → 0 < cmd.connId ∧ cmd.connId < s.net.nextConnId
  under_way : ∀ cmd ∈ s.going, cmd ∈ sent
  taken : ∀ conn, s.net.conns.lookup c = some conn →
    ∃ frames, NetIo.carried conn = frames.flatten ∧ R (frames ++ framesTo c s.going) (framesTo c sent)

/-- What a handler issues goes to connections that were accepted before. -/
theorem Numbered.issued_range {used : List ConnId} {s : Threads} (h : Numbered used s) {i : Env × ServerRuntime.Input}
    {cmd : OutboundCmd} (hm : cmd ∈ (s.sim.step i).outbound) (hk : cmd.kind = .TcpSend) :
    0 < cmd.connId ∧ cmd.connId < s.net.nextConnId := by
  have howned := ServerRuntime.step_toOwned h.wf hm hk
  exact h.used_range _ (List.mem_append_left _ (mem_used_of_owned h.owned howned))

theorem NetMove.sameCarried {c : ConnId} {n : NetIo} {r : NetIo × List InboundEvent} (h : NetMove n r)
    (hne : ∀ addr, r ≠ n.acceptReady addr) : NetIo.SameCarried n r.1 c := by
  cases h with
  | accept addr => exact absurd rfl (hne addr)
  | readable connId data => exact NetIo.sameCarried_readConn n connId data
  | writable connId answers => exact NetIo.sameCarried_drainConn n connId answers
  | hangUp connId => exact NetIo.sameCarried_closeConn n connId true

section Outgoing
variable {R : List Bytes → List Bytes → Prop} {c : ConnId} {s s' : Threads} {sent : List OutboundCmd}

theorem Outgoing.of_same (h : Outgoing R c s sent) (hn : ∃ used, Numbered used s') (hnext : s.net.nextConnId ≤ s'.net.nextConnId)
    (hgoing : framesTo c s'.going = framesTo c s.going) (hsub : ∀ cmd ∈ s'.going, cmd ∈ s.going)
    (hcarried : NetIo.SameCarried s.net s'.net c) : Outgoing R c s' sent where
  numbered := hn
  range cmd hm hk := ⟨(h.range cmd hm hk).1, Nat.lt_of_lt_of_le (h.range cmd hm hk).2 hnext⟩
  under_way cmd hm := h.under_way cmd (hsub cmd hm)
  taken conn' hl := by
    obtain ⟨conn, hl, hc⟩ := hcarried conn' hl
    obtain ⟨frames, hf, hr⟩ := h.taken conn hl
    exact ⟨frames, hc.trans hf, hgoing ▸ hr⟩

theorem Outgoing.handle (hR : Keeps R) (h : Outgoing R c s sent) (htodo : s.todo = []) (i : Env × ServerRuntime.Input)
    (inbound : AsyncQueue InboundEvent) (hn : ∃ used, Numbered used ({ s with inbound := inbound }.handleInput i)) :
    Outgoing R c ({ s with inbound := inbound }.handleInput i) (sent ++ (s.sim.step i).outbound) where
  numbered := hn
  range cmd hm hk := by
    obtain ⟨used, hnum⟩ := h.numbered
    rcases List.mem_append.mp hm with hm | hm
    · exact h.range cmd hm hk
    · exact hnum.issued_range hm hk
  under_way cmd hm := by
    rcases List.mem_append.mp hm with hm | hm
    · refine List.mem_append_left _ (h.under_way cmd ?_)
      rw [going, htodo, List.append_nil]
      exact hm
    · exact List.mem_append_right _ hm
  taken conn hl := by
    obtain ⟨frames, hf, hr⟩ := h.taken conn hl
    rw [going, htodo, List.append_nil] at hr
    refine ⟨frames, hf, ?_⟩
    change R (frames ++ framesTo c (s.outbound.items ++ (s.sim.step i).outbound)) _
    rw [framesTo_append, framesTo_append, ← List.append_assoc]
    exact hR.append_right _ hr

theorem Outgoing.process (h : Outgoing R c s sent) {cmd : OutboundCmd} {outbound : AsyncQueue OutboundCmd} (hev : s.events = [])
    (hout : s.outbound.items = cmd :: outbound.items) (answers : List SendResult)
    (hloss : stalls c s (.process answers) = true → Drops R)
    (hn : ∃ used, Numbered used ({ s with outbound := outbound }.netStep (s.net.processOutbound cmd answers))) :
    Outgoing R c ({ s with outbound := outbound }.netStep (s.net.processOutbound cmd answers)) sent := by
  have hcmd : cmd ∈ sent := h.under_way cmd (List.mem_append_left _ (hout ▸ List.mem_cons_self))
  have hnext := (NetIo.effect_processOutbound s.net cmd answers).next
  have hgoing : s.going = cmd :: (outbound.items ++ s.todo) := by rw [going, hout, List.cons_append]
  have hsub : ∀ x ∈ outbound.items ++ s.todo, x ∈ s.going := fun x hx => hgoing ▸ List.mem_cons_of_mem _ hx
  by_cases hto : isTcpTo c cmd = true
  · obtain ⟨hk, hc⟩ := isTcpTo_iff.mp hto
    have h0 : cmd.connId ≠ 0 := (h.range cmd hcmd hk).1.ne'
    refine ⟨hn, fun x hx hxk => ?_, fun x hx => h.under_way x (hsub x hx), fun conn' hl => ?_⟩
    · exact ⟨(h.range x hx hxk).1, Nat.lt_of_lt_of_le (h.range x hx hxk).2 hnext.ge⟩
    · have hproc : s.net.processOutbound cmd answers = s.net.processTcpSend cmd answers := by
        rw [NetIo.processOutbound, hk]
      change (s.net.processOutbound cmd answers).1.conns.lookup c = some conn' at hl
      rw [hproc] at hl
      obtain ⟨conn, hconn, hcase⟩ := (NetIo.processTcpSend_carried h0 answers).2 hc conn' hl
      obtain ⟨frames, hf, hr⟩ := h.taken conn hconn
      rw [hgoing, framesTo_cons, if_pos hto] at hr
      rcases hcase with ⟨-, hcarried⟩ | ⟨hrefused, hgoes, hcarried⟩
      · -- the send queue has taken the message behind the others
        refine ⟨frames ++ [cmd.bytes], by rw [hcarried, hf, List.flatten_append, List.flatten_singleton], ?_⟩
        rw [List.append_assoc]
        exact hr
      · have hpop : s.outbound.tryPop = some (cmd, { s.outbound with items := outbound.items }) := by
          rw [AsyncQueue.tryPop, hout]
        have hstalls : stalls c s (.process answers) = true := by
          rw [stalls, unqueued, hev, hpop, hconn]
          simp [hto, hrefused, hgoes]
        exact ⟨frames, hcarried.trans hf, hloss hstalls _ _ _ _ hr⟩
  · have hsame : NetIo.SameCarried s.net (s.net.processOutbound cmd answers).1 c := by
      refine NetIo.processOutbound_sameCarried (fun hk => ⟨(h.range cmd hcmd hk).1.ne', fun hc => hto ?_⟩) answers
      exact isTcpTo_iff.mpr ⟨hk, hc⟩
    refine h.of_same hn hnext.ge ?_ hsub hsame
    rw [hgoing, framesTo_cons, if_neg hto]
    rfl

theorem Outgoing.accept (hR : Keeps R) (h : Outgoing R c s sent) {used : List ConnId} (hnum : Numbered used s) (addr : SockAddr)
    (hn : ∃ used, Numbered used (s.netStep (s.net.acceptReady addr))) :
    Outgoing R c (s.netStep (s.net.acceptReady addr)) sent := by
  refine ⟨hn, fun x hx hxk => ⟨(h.range x hx hxk).1, Nat.lt_succ_of_lt (h.range x hx hxk).2⟩, h.under_way, fun conn hl => ?_⟩
  have hnew : s.net.nextConnId ∉ s.net.conns := fun hm => absurd (hnum.conns_range _ hm) (lt_irrefl _)
  change (s.net.conns.emplace (.front _ _) s.net.nextConnId { addr := addr }).lookup c = some conn at hl
  rw [Table.lookup_emplace (.front _ _) _ hnew] at hl
  split at hl
  · -- nothing has been sent to a connection that is new
    rename_i hc
    have unsent {cmds : List OutboundCmd} (hsub : ∀ x ∈ cmds, x ∈ sent) : framesTo c cmds = [] := by
      refine framesTo_eq_nil fun x hx hk hxc => ?_
      have hlt := (h.range x (hsub x hx) hk).2
      rw [hxc, hc] at hlt
      exact absurd hlt (lt_irrefl _)
    cases hl
    refine ⟨[], rfl, ?_⟩
    change R ([] ++ framesTo c s.going) (framesTo c sent)
    rw [unsent h.under_way, unsent fun _ hx => hx]
    exact hR.nil
  · exact h.taken conn hl

theorem Outgoing.refuse (h : Outgoing R c s sent) {cmd : OutboundCmd} {rest : List OutboundCmd} (htodo : s.todo = cmd :: rest)
    (hp : s.outbound.push cmd = none) (hloss : stalls c s .push = true → Drops R)
    (hn : ∃ used, Numbered used { s with todo := rest }) : Outgoing R c { s with todo := rest } sent := by
  have hsub : ∀ x ∈ s.outbound.items ++ rest, x ∈ s.going := by
    intro x hx
    rw [going, htodo]
    exact (List.sublist_cons_self cmd rest).append_left _ |>.subset hx
  refine ⟨hn, h.range, fun x hx => h.under_way x (hsub x hx), fun conn hl => ?_⟩
  obtain ⟨frames, hf, hr⟩ := h.taken conn hl
  refine ⟨frames, hf, ?_⟩
  rw [going, htodo, framesTo_append, framesTo_cons, ← List.append_assoc] at hr
  rw [going, framesTo_append, ← List.append_assoc]
  by_cases hto : isTcpTo c cmd = true
  · have hopen : s.net.conns.lookup c = some conn := hl
    have hstalls : stalls c s .push = true := by
      rw [stalls, unqueued, htodo, hopen]
      simp [hto, hp]
    rw [if_pos hto] at hr
    exact hloss hstalls _ _ _ _ hr
  · rw [if_neg hto] at hr
    exact hr

/-- A step that hands nothing to the simulation, or one whose commands are still to be pushed. -/
theorem issued_eq_nil {a : Action} (h : (s.step a).todo = s.todo ∨ s.todo ≠ []) : issued s a = [] := by
  rw [issued]
  split
  · rename_i htodo
    exact (h.resolve_right fun hne => hne htodo).trans htodo
  · rfl

theorem step_outgoing (hR : Keeps R) (h : Outgoing R c s sent) {a : Action} (hloss : stalls c s a = true → Drops R) :
    Outgoing R c (s.step a) (sent ++ issued s a) := by
  obtain ⟨used, hnum⟩ := h.numbered
  have hn := step_numbered hnum a
  have hm := step_moves s a
  have silent : (s.step a).todo = s.todo ∨ s.todo ≠ [] → issued s a = [] := issued_eq_nil
  have handled : s.todo = [] → issued s a = (s.step a).todo := fun htodo => if_pos htodo
  generalize s.step a = s' at hm hn silent handled ⊢
  cases hm with
  | idle =>
    rw [silent (.inl rfl), List.append_nil]
    exact h
  | consumed env t ev inbound htodo hin =>
    rw [handled htodo]
    exact h.handle hR htodo (env, .inbound ev t) inbound hn
  | housed env i htodo hi =>
    rw [handled htodo]
    exact h.handle hR htodo (env, i) s.inbound hn
  | pushed cmd rest outbound htodo hp =>
    rw [silent (.inr (by rw [htodo]; nofun)), List.append_nil]
    have hgoing : outbound.items ++ rest = s.going := by
      rw [AsyncQueue.push_some hp, going, htodo, List.append_assoc]
      rfl
    exact h.of_same hn (le_refl _) (congrArg (framesTo c) hgoing) (fun x hx => hgoing ▸ hx) (.of_conns rfl)
  | refused cmd rest htodo hp =>
    rw [silent (.inr (by rw [htodo]; nofun)), List.append_nil]
    exact h.refuse htodo hp hloss hn
  | processed cmd outbound answers hev hout =>
    rw [silent (.inl rfl), List.append_nil]
    exact h.process hev hout answers hloss hn
  | delivered ev rest inbound hev hp =>
    rw [silent (.inl rfl), List.append_nil]
    exact h.of_same hn (le_refl _) rfl (fun _ hx => hx) (.of_conns rfl)
  | dropped ev rest hev hp hk =>
    rw [silent (.inl rfl), List.append_nil]
    exact h.of_same hn (le_refl _) rfl (fun _ hx => hx) (.of_conns rfl)
  | cut ev rest hev hp hk =>
    rw [silent (.inl rfl), List.append_nil]
    exact h.of_same hn (NetIo.closeConn_nextConnId s.net ev.connId true).ge rfl (fun _ hx => hx)
      (NetIo.sameCarried_closeConn s.net ev.connId true)
  | datagram addr bytes hev =>
    rw [silent (.inl rfl), List.append_nil]
    exact h.of_same hn (le_refl _) rfl (fun _ hx => hx) (.of_conns rfl)
  | net _ r hev hr =>
    rw [silent (.inl rfl), List.append_nil]
    by_cases haccept : ∃ addr, r = s.net.acceptReady addr
    · obtain ⟨addr, rfl⟩ := haccept
      exact h.accept hR hnum addr hn
    · push Not at haccept
      rcases hr.cases with ⟨addr, hr'⟩ | heffect
      · exact absurd hr' (haccept addr)
      · exact h.of_same hn heffect.next.ge rfl (fun _ hx => hx) (hr.sameCarried haccept)

end Outgoing

def sentIn (s : Threads) (as : List Action) : List OutboundCmd := collect step issued s as

/-- In every run: a connection has all that was sent to it, up to what a queue that stalls may lose. -/
theorem run_outgoing {R : List Bytes → List Bytes → Prop} (hR : Keeps R) (b : ServerRuntime.Startup)
    (inboundMax outboundMax : ℕ) (c : ConnId) {as : List Action}
    (h : AllSteps step (fun s a => stalls c s a = true → Drops R) (start b inboundMax outboundMax) as) :
    Outgoing R c (run step (start b inboundMax outboundMax) as) (sentIn (start b inboundMax outboundMax) as) := by
  induction as using List.reverseRecOn with
  | nil => exact ⟨⟨[], numbered_start b inboundMax outboundMax⟩, nofun, nofun, fun conn hl => nomatch hl⟩
  | append_singleton as a ih =>
    obtain ⟨hbefore, hlast, -⟩ := (allSteps_append as [a]).mp h
    rw [run_concat, sentIn, collect_concat]
    exact step_outgoing hR (ih hbefore) hlast

theorem run_unstalled (b : ServerRuntime.Startup) (inboundMax outboundMax : ℕ) (c : ConnId) {as : List Action}
    (h : AllSteps step (fun s a => stalls c s a = false) (start b inboundMax outboundMax) as) :
    Outgoing (· = ·) c (run step (start b inboundMax outboundMax) as) (sentIn (start b inboundMax outboundMax) as) :=
  run_outgoing keeps_eq b inboundMax outboundMax c (h.imp fun _ _ hs hstalls => nomatch hs.symm.trans hstalls)

/-- The connection carries a prefix of what was sent to it, and a message that cannot be queued
ends it. -/
structure Reliable (c : ConnId) (s : Threads) (as : List Action) : Prop where
  in_order : ∀ conn, (run step s as).net.conns.lookup c = some conn → conn.wire <+: tcpTo c (sentIn s as)
  closes : AllSteps step (fun s a => unqueued c s a = true → c ∉ (s.step a).net.conns) s as

/-- A message that is lost without stalling its connection is lost to a closed one. -/
theorem Outgoing.closed_of_unqueued {R : List Bytes → List Bytes → Prop} {c : ConnId} {s : Threads} {sent : List OutboundCmd}
    (h : Outgoing R c s sent) {a : Action} (ha : stalls c s a = false) (hu : unqueued c s a = true) :
    c ∉ (s.step a).net.conns := by
  rw [stalls, hu, Bool.true_and] at ha
  cases a with
  | push =>
    have hnet : (s.step .push).net = s.net := by
      simp only [step, push]
      split
      · rfl
      · split <;> rfl
    rw [hnet, NetIo.mem_conns]
    rintro ⟨conn, hl⟩
    rw [hl] at ha
    cases ha
  | process answers =>
    simp only [unqueued] at hu
    split at hu
    · rename_i cmd outbound hev hpop
      have hout := AsyncQueue.tryPop_some hpop
      simp only [Bool.and_eq_true] at hu
      obtain ⟨hk, hc⟩ := isTcpTo_iff.mp hu.1
      have hcmd : cmd ∈ sent := h.under_way cmd (List.mem_append_left _ (hout ▸ List.mem_cons_self))
      have hstep : (s.step (.process answers)).net = (s.net.processTcpSend cmd answers).1 := by
        simp only [step, hev, hpop, netStep, NetIo.processOutbound, hk]
      rw [hstep, NetIo.mem_conns]
      rintro ⟨conn', hl⟩
      obtain ⟨conn, hconn, hcase⟩ := (NetIo.processTcpSend_carried (h.range cmd hcmd hk).1.ne' answers).2 hc conn' hl
      rw [hconn] at ha hu
      rcases hcase with ⟨haccepted, -⟩ | ⟨-, hgoes, -⟩
      · exact haccepted (by simpa using hu.2)
      · simp [hgoes] at ha
    · cases hu
  | _ => cases hu

/-- In every run in which no message to `c` stalls, the bytes `c` carries are a prefix of the
messages sent to it, in order, and a message that cannot be queued ends it. -/
theorem reliable_of_unstalled (b : ServerRuntime.Startup) (inboundMax outboundMax : ℕ) (c : ConnId) (as : List Action)
    (h : AllSteps step (fun s a => stalls c s a = false) (start b inboundMax outboundMax) as) :
    Reliable c (start b inboundMax outboundMax) as where
  in_order conn hl := by
    obtain ⟨frames, hcarried, hall⟩ := (run_unstalled b inboundMax outboundMax c h).taken conn hl
    rw [tcpTo_eq, ← hall, List.flatten_append, ← hcarried, NetIo.carried, List.append_assoc]
    exact List.prefix_append _ _
  closes := by
    refine allSteps_iff_split.mpr fun before a after he hu => ?_
    subst he
    obtain ⟨hbefore, hlast, -⟩ := (allSteps_append before (a :: after)).mp h
    exact (run_unstalled b inboundMax outboundMax c hbefore).closed_of_unqueued hlast hu

/-- A connection on which the server answers a Hello and writes to the socket in small parts. -/
def joinAndDrain : List Action :=
  [.accept ⟨10, 0, 0, 1, 1000⟩, .deliver, .consume ServerRuntime.plainEnv 1,
    .readable 1 (ServerRuntime.helloFrame (ascii "a")), .deliver, .consume ServerRuntime.plainEnv 1,
    .push, .push, .push, .process [], .process [.sent 6, .wouldBlock], .process [.sent 2], .writable 1 [.sent 100]]

theorem reliable_of_unstalled_joinAndDrain :
    AllSteps step (fun s a => stalls 1 s a = false) (start ServerRuntime.freshStart 8192 8192) joinAndDrain ∧
      Reliable 1 (start ServerRuntime.freshStart 8192 8192) joinAndDrain := by
  have h : AllSteps step (fun s a => stalls 1 s a = false) (start ServerRuntime.freshStart 8192 8192) joinAndDrain := by
    refine ⟨?_, ?_, ?_, ?_, ?_, ?_, ?_, ?_, ?_, ?_, ?_, ?_, ?_, trivial⟩ <;> decide +kernel
  exact ⟨h, reliable_of_unstalled ServerRuntime.freshStart 8192 8192 1 joinAndDrain h⟩

def heartbeatRound : List Action := [.house ServerRuntime.plainEnv .sendHeartbeat, .push]

/-- The handlers are done, and a heartbeat is the one message `hb`. -/
structure Beats (hb : OutboundCmd) (s : Threads) : Prop where
  todo : s.todo = []
  beat : s.sim.clients.values.flatMap (fun client => ServerRuntime.sendTcp client (makeHeartbeat 0 0).encode) = [hb]

theorem Beats.step_house {hb : OutboundCmd} {s : Threads} (h : Beats hb s) :
    s.step (.house ServerRuntime.plainEnv .sendHeartbeat) =
      { s with sim := { s.sim.ready with outbound := [hb] }, todo := [hb] } := by
  have hout : s.sim.step (ServerRuntime.plainEnv, .sendHeartbeat) = { s.sim.ready with outbound := [hb] } := by
    rw [← h.beat]
    rfl
  simp only [step, h.todo, handleInput, hout]

/-- While the net thread takes nothing, a round adds its message to the outbound queue. -/
theorem Beats.round {hb : OutboundCmd} {s : Threads} (h : Beats hb s) (hroom : s.outbound.items.length < s.outbound.maxSize) :
    Beats hb (run step s heartbeatRound) ∧ (run step s heartbeatRound).net = s.net ∧
      (run step s heartbeatRound).outbound = { s.outbound with items := s.outbound.items ++ [hb] } := by
  have hrun : run step s heartbeatRound = { s with
      sim := { s.sim.ready with outbound := [hb] }
      todo := []
      outbound := { s.outbound with items := s.outbound.items ++ [hb] } } := by
    rw [heartbeatRound, run_cons, h.step_house, run_cons, run_nil]
    simp only [step, push, AsyncQueue.push]
    rw [if_neg (Nat.not_le.mpr hroom)]
  rw [hrun]
  exact ⟨⟨rfl, h.beat⟩, rfl, rfl⟩

theorem Beats.rounds {hb : OutboundCmd} {s : Threads} (h : Beats hb s) (n : ℕ)
    (hroom : s.outbound.items.length + n ≤ s.outbound.maxSize) :
    Beats hb (run step s (List.replicate n heartbeatRound).flatten) ∧
      (run step s (List.replicate n heartbeatRound).flatten).net = s.net ∧
      (run step s (List.replicate n heartbeatRound).flatten).outbound.items.length = s.outbound.items.length + n ∧
      (run step s (List.replicate n heartbeatRound).flatten).outbound.maxSize = s.outbound.maxSize := by
  induction n generalizing s with
  | zero => exact ⟨h, rfl, rfl, rfl⟩
  | succ n ih =>
    obtain ⟨hbeat, hnet, hout⟩ := h.round (by omega)
    have hlen : (run step s heartbeatRound).outbound.items.length = s.outbound.items.length + 1 := by
      rw [hout, List.length_append, List.length_singleton]
    have hmax : (run step s heartbeatRound).outbound.maxSize = s.outbound.maxSize := by rw [hout]
    obtain ⟨hbeat', hnet', hlen', hmax'⟩ := ih hbeat (by omega)
    rw [List.replicate_succ, List.flatten_cons, run_append]
    exact ⟨hbeat', hnet'.trans hnet, by omega, hmax'.trans hmax⟩

/-- A full queue refuses the next heartbeat, whose connection stays open. -/
theorem Beats.unqueued_full {hb : OutboundCmd} {s : Threads} (h : Beats hb s) {c : ConnId} (hto : isTcpTo c hb = true)
    (hfull : s.outbound.maxSize ≤ s.outbound.items.length) (hc : c ∈ s.net.conns) :
    unqueued c (s.step (.house ServerRuntime.plainEnv .sendHeartbeat)) .push = true ∧
      c ∈ ((s.step (.house ServerRuntime.plainEnv .sendHeartbeat)).step .push).net.conns := by
  rw [h.step_house]
  simp only [unqueued, step, push, AsyncQueue.push]
  rw [if_pos hfull]
  exact ⟨by rw [hto]; rfl, hc⟩

/-- The net thread does not get to the outbound queue for 8190 heartbeats. -/
theorem not_reliable_floodedQueue : ¬ ∀ as, Reliable 1 (start ServerRuntime.freshStart 8192 8192) as := by
  intro hall
  let s₀ := run step (start ServerRuntime.freshStart 8192 8192) joinedOn1
  let hb : OutboundCmd := { kind := .TcpSend, connId := 1, peerId := 1, bytes := (makeHeartbeat 0 0).encode }
  have hbeats : Beats hb s₀ := ⟨by decide +kernel, by decide +kernel⟩
  have hlen : s₀.outbound.items.length = 3 := by decide +kernel
  have hmax : s₀.outbound.maxSize = 8192 := by decide +kernel
  have hopen : 1 ∈ s₀.net.conns := by decide +kernel
  obtain ⟨n, hn⟩ : ∃ n, n = 8189 := ⟨_, rfl⟩
  let flood := (List.replicate n heartbeatRound).flatten
  obtain ⟨hbeats', hnet, hlen', hmax'⟩ := hbeats.rounds n (by omega)
  obtain ⟨hu, hstays⟩ := hbeats'.unqueued_full (c := 1) (by decide +kernel) (by omega) (by rw [hnet]; exact hopen)
  have hlast := allSteps_iff_split.mp (hall (joinedOn1 ++ (flood ++ heartbeatRound))).closes
    (joinedOn1 ++ (flood ++ [.house ServerRuntime.plainEnv .sendHeartbeat])) .push [] (by simp [heartbeatRound])
  rw [run_append, run_concat] at hlast
  exact hlast hu hstays

end Threads
end CommonwealthMP
