import CommonwealthMP.TcpFraming
import CommonwealthMP.ServerState

/-! # The net thread

`conns_` and `peerToConn_` of `NetIo`, what each outbound command and each readiness of a
socket does to them, and the inbound events that follow. A socket is known by the answers
`send` gives; `wire` is what it has taken so far. -/
namespace CommonwealthMP
open ByteLayout OrderedTables

structure AsyncQueue (α : Type) where
  items : List α := []
  maxSize : ℕ := 4096

namespace AsyncQueue
variable {α : Type}

/-- `push`; `none` where it returns false. -/
def push (q : AsyncQueue α) (item : α) : Option (AsyncQueue α) :=
  if q.maxSize ≤ q.items.length then none else some { q with items := q.items ++ [item] }

/-- `try_pop`: the head and the queue without it. -/
def tryPop (q : AsyncQueue α) : Option (α × AsyncQueue α) :=
  match q.items with
  | [] => none
  | item :: rest => some (item, { q with items := rest })

theorem push_some {q q' : AsyncQueue α} {item : α} (h : q.push item = some q') :
    q' = { q with items := q.items ++ [item] } := by
  unfold push at h
  split at h
  · cases h
  · exact (Option.some.inj h).symm

theorem tryPop_some {q q' : AsyncQueue α} {item : α} (h : q.tryPop = some (item, q')) :
    q.items = item :: q'.items := by
  unfold tryPop at h
  cases hi : q.items with
  | nil =>
    rw [hi] at h
    cases h
  | cons x rest =>
    rw [hi] at h
    cases h
    rfl

end AsyncQueue

def kTcpSendQueueMax : ℕ := 1024 * 1024

/-- What `send` answers: `n + 1` bytes taken, or as many as there are; would block; failed. -/
inductive SendResult
  | sent (n : ℕ)
  | wouldBlock
  | failed
  deriving DecidableEq, Repr

structure TcpSendQueue where
  bytes : Bytes := []
  offset : ℕ := 0
  offset_le : offset ≤ bytes.length := by exact Nat.zero_le _

namespace TcpSendQueue

def unsent (q : TcpSendQueue) : Bytes := q.bytes.drop q.offset

def empty (q : TcpSendQueue) : Bool := decide (q.bytes.length ≤ q.offset)

def pending (q : TcpSendQueue) : ℕ := if q.empty then 0 else q.bytes.length - q.offset

/-- What `append` frees before it inserts. -/
def compact (q : TcpSendQueue) : TcpSendQueue :=
  if 0 < q.offset ∧ q.offset = q.bytes.length then {}
  else if 64 * 1024 < q.offset ∧ q.bytes.length < q.offset * 2 then { bytes := q.bytes.drop q.offset }
  else q

def insert (q : TcpSendQueue) (data : Bytes) : TcpSendQueue where
  bytes := q.bytes ++ data
  offset := q.offset
  offset_le := by
    rw [List.length_append]
    exact q.offset_le.trans (Nat.le_add_right _ _)

/-- `append`; `none` where it returns false. -/
def append (q : TcpSendQueue) (data : Bytes) : Option TcpSendQueue :=
  if data = [] then none
  else if kTcpSendQueueMax < q.pending + data.length then none
  else some (q.compact.insert data)

/-- `offset += n` -/
def advance (q : TcpSendQueue) (n : ℕ) : TcpSendQueue where
  bytes := q.bytes
  offset := min (q.offset + n) q.bytes.length
  offset_le := Nat.min_le_right _ _

inductive DrainEnd
  | drained
  | wantOut
  | closed
  deriving DecidableEq, Repr

/-- The loop of `drain`: the queue, the bytes taken, and how it ends. A socket that answers
nothing more would block. -/
def sendLoop (q : TcpSendQueue) : List SendResult → TcpSendQueue × Bytes × DrainEnd
  | [] => (q, [], if q.empty then .drained else .wantOut)
  | answer :: more =>
    if q.empty then (q, [], .drained)
    else
      match answer with
      | .wouldBlock => (q, [], .wantOut)
      | .failed => (q, [], .closed)
      | .sent n =>
        let (left, taken, finish) := sendLoop (q.advance (n + 1)) more
        (left, q.unsent.take (n + 1) ++ taken, finish)

def drain (q : TcpSendQueue) (answers : List SendResult) : TcpSendQueue × Bytes × DrainEnd :=
  match q.sendLoop answers with
  | (left, taken, .drained) => (if 0 < left.offset then {} else left, taken, .drained)
  | (left, taken, finish) => (left, taken, finish)

@[simp] theorem unsent_mk_nil : ({} : TcpSendQueue).unsent = [] := rfl

theorem empty_iff {q : TcpSendQueue} : q.empty = true ↔ q.unsent = [] := by
  rw [empty, decide_eq_true_iff, unsent, List.drop_eq_nil_iff]

theorem unsent_compact (q : TcpSendQueue) : q.compact.unsent = q.unsent := by
  unfold compact
  split
  · rename_i h
    rw [unsent_mk_nil, unsent, h.2, List.drop_length]
  · split
    · rfl
    · rfl

theorem unsent_insert (q : TcpSendQueue) (data : Bytes) : (q.insert data).unsent = q.unsent ++ data :=
  List.drop_append_of_le_length q.offset_le

theorem append_unsent {q q' : TcpSendQueue} {data : Bytes} (h : q.append data = some q') :
    q'.unsent = q.unsent ++ data := by
  unfold append at h
  split at h
  · cases h
  · split at h
    · cases h
    · rw [← Option.some.inj h, unsent_insert, unsent_compact]

theorem unsent_advance (q : TcpSendQueue) (n : ℕ) : (q.advance n).unsent = q.unsent.drop n := by
  rw [unsent, advance, unsent, List.drop_drop]
  dsimp only
  rcases Nat.le_total (q.offset + n) q.bytes.length with h | h
  · rw [Nat.min_eq_left h]
  · rw [Nat.min_eq_right h, List.drop_length, List.drop_eq_nil_of_le h]

/-- Whatever the socket answers, the bytes it takes are the front of what was waiting. -/
theorem sendLoop_unsent (q : TcpSendQueue) (answers : List SendResult) :
    (q.sendLoop answers).2.1 ++ (q.sendLoop answers).1.unsent = q.unsent := by
  induction answers generalizing q with
  | nil => rfl
  | cons answer more ih =>
    unfold sendLoop
    split
    · rfl
    · cases answer with
      | wouldBlock => rfl
      | failed => rfl
      | sent n =>
        have h := ih (q.advance (n + 1))
        rw [unsent_advance] at h
        dsimp only
        rw [List.append_assoc, h, List.take_append_drop]

theorem sendLoop_drained {q : TcpSendQueue} {answers : List SendResult} (h : (q.sendLoop answers).2.2 = .drained) :
    (q.sendLoop answers).1.unsent = [] := by
  induction answers generalizing q with
  | nil =>
    rw [sendLoop] at h ⊢
    dsimp only at h ⊢
    split at h
    · exact empty_iff.mp ‹_›
    · cases h
  | cons answer more ih =>
    unfold sendLoop at h ⊢
    split at h
    · rename_i he
      rw [if_pos he]
      exact empty_iff.mp he
    · rename_i he
      rw [if_neg he]
      cases answer with
      | wouldBlock => cases h
      | failed => cases h
      | sent n => exact ih h

theorem drain_unsent (q : TcpSendQueue) (answers : List SendResult) :
    (q.drain answers).2.1 ++ (q.drain answers).1.unsent = q.unsent := by
  have h := sendLoop_unsent q answers
  have hd : (q.sendLoop answers).2.2 = .drained → (q.sendLoop answers).1.unsent = [] := sendLoop_drained
  unfold drain
  rcases hl : q.sendLoop answers with ⟨left, taken, finish⟩
  rw [hl] at h hd
  cases finish with
  | drained =>
    have hleft := hd rfl
    dsimp only at h hleft ⊢
    split
    · rw [← h, hleft, unsent_mk_nil]
    · exact h
  | wantOut => exact h
  | closed => exact h

end TcpSendQueue

structure NetConn where
  addr : SockAddr := {}
  recvBuf : Bytes := []
  sendQ : TcpSendQueue := {}
  peerId : PeerId := 0
  wire : Bytes := []

structure NetIo where
  conns : Table ConnId NetConn := ∅
  peerToConn : Table PeerId ConnId := ∅
  nextConnId : ConnId := 1

namespace NetIo

def setConn (n : NetIo) (connId : ConnId) (f : NetConn → NetConn) : NetIo := { n with conns := n.conns.modify connId f }

def closedEvent (connId : ConnId) (conn : NetConn) : InboundEvent :=
  { kind := .TcpClosed, connId := connId, peerId := conn.peerId, addr := conn.addr }

def closeConn (n : NetIo) (connId : ConnId) (notifySim : Bool) : NetIo × List InboundEvent :=
  match n.conns.lookup connId with
  | none => (n, [])
  | some conn =>
    ({ n with
        peerToConn := if conn.peerId ≠ 0 then n.peerToConn.erase conn.peerId else n.peerToConn
        conns := n.conns.erase connId },
      if notifySim then [closedEvent connId conn] else [])

/-- `drain` on the send queue of a connection, which a failed `send` closes. -/
def drainConn (n : NetIo) (connId : ConnId) (answers : List SendResult) : NetIo × List InboundEvent :=
  match n.conns.lookup connId with
  | none => (n, [])
  | some conn =>
    match conn.sendQ.drain answers with
    | (left, taken, finish) =>
      let n := n.setConn connId fun c => { c with sendQ := left, wire := c.wire ++ taken }
      if finish = .closed then n.closeConn connId true else (n, [])

def target (n : NetIo) (cmd : OutboundCmd) : Option ConnId :=
  if cmd.connId ≠ 0 then some cmd.connId
  else if cmd.peerId ≠ 0 then n.peerToConn.lookup cmd.peerId
  else none

def processTcpSend (n : NetIo) (cmd : OutboundCmd) (answers : List SendResult) : NetIo × List InboundEvent :=
  match n.target cmd with
  | none => (n, [])
  | some id =>
    match n.conns.lookup id with
    | none => (n, [])
    | some conn =>
      -- a refused append is only logged
      let n := match conn.sendQ.append cmd.bytes with
        | some sendQ => n.setConn id fun c => { c with sendQ := sendQ }
        | none => n
      n.drainConn id answers

def processBindPeer (n : NetIo) (cmd : OutboundCmd) : NetIo :=
  match n.conns.lookup cmd.connId with
  | none => n
  | some conn =>
    let n := if conn.peerId ≠ 0 ∧ conn.peerId ≠ cmd.peerId then { n with peerToConn := n.peerToConn.erase conn.peerId } else n
    let n :=
      if cmd.peerId ≠ 0 then
        let n := match n.peerToConn.lookup cmd.peerId with
          | some old => if old ≠ cmd.connId then (n.closeConn old false).1 else n
          | none => n
        { n with peerToConn := n.peerToConn.insert cmd.peerId cmd.connId }
      else n
    n.setConn cmd.connId fun c => { c with peerId := cmd.peerId }

def processCloseConn (n : NetIo) (cmd : OutboundCmd) : NetIo :=
  match n.target cmd with
  | none => n
  | some id => (n.closeConn id false).1

def processKeepPending (n : NetIo) (cmd : OutboundCmd) : NetIo :=
  match n.peerToConn.lookup cmd.peerId with
  | none => n
  | some id =>
    let n := { n with peerToConn := n.peerToConn.erase cmd.peerId }
    if id ∈ n.conns then n.setConn id fun c => { c with peerId := 0 } else n

/-- One turn of `process_outbound`; `answers` are those of the socket the command writes to. -/
def processOutbound (n : NetIo) (cmd : OutboundCmd) (answers : List SendResult) : NetIo × List InboundEvent :=
  match cmd.kind with
  | .TcpSend => n.processTcpSend cmd answers
  | .UdpSend => (n, [])
  | .BindPeer => (n.processBindPeer cmd, [])
  | .CloseConn => (n.processCloseConn cmd, [])
  | .KeepPending => (n.processKeepPending cmd, [])

/-- One connection taken off the listening socket by `accept_ready`. -/
def acceptReady (n : NetIo) (addr : SockAddr) : NetIo × List InboundEvent :=
  ({ n with
      nextConnId := n.nextConnId + 1
      conns := n.conns.emplace (.front _ _) n.nextConnId { addr := addr } },
    [{ kind := .TcpAccept, connId := n.nextConnId, addr := addr }])

def frameEvent (connId : ConnId) (conn : NetConn) (frame : Bytes) : InboundEvent :=
  { kind := .TcpFrame, connId := connId, peerId := conn.peerId, addr := conn.addr, bytes := frame }

/-- One `recv` of `poll_conn` and the frames it completes. -/
def readConn (n : NetIo) (connId : ConnId) (data : Bytes) : NetIo × List InboundEvent :=
  match n.conns.lookup connId with
  | none => (n, [])
  | some conn =>
    match recvTurn conn.recvBuf data with
    | none => n.closeConn connId true
    | some (frames, left) =>
      (n.setConn connId fun c => { c with recvBuf := left }, frames.map (frameEvent connId conn))

@[simp] theorem mem_setConn {n : NetIo} {c d : ConnId} {f : NetConn → NetConn} : d ∈ (n.setConn c f).conns ↔ d ∈ n.conns :=
  Table.mem_modify

@[simp] theorem setConn_peerToConn (n : NetIo) (c : ConnId) (f : NetConn → NetConn) :
    (n.setConn c f).peerToConn = n.peerToConn := rfl

@[simp] theorem setConn_nextConnId (n : NetIo) (c : ConnId) (f : NetConn → NetConn) :
    (n.setConn c f).nextConnId = n.nextConnId := rfl

/-- An operation that opens nothing. The connections it closes without an event are `silent`
ones; the peer it maps anew, if any, is `bound`. -/
structure Effect (n : NetIo) (silent : ConnId → Prop) (bound : PeerId → ConnId → Prop) (r : NetIo × List InboundEvent) :
    Prop where
  kept : ∀ c ∈ r.1.conns, c ∈ n.conns
  closed : ∀ c ∈ n.conns, c ∉ r.1.conns → (∃ ev ∈ r.2, ev.kind = .TcpClosed ∧ ev.connId = c) ∨ silent c
  closes : ∀ ev ∈ r.2, ev.kind = .TcpClosed → ev.connId ∈ n.conns ∧ ev.connId ∉ r.1.conns
  no_accept : ∀ ev ∈ r.2, ev.kind ≠ .TcpAccept
  next : r.1.nextConnId = n.nextConnId
  mapped : ∀ p c, r.1.peerToConn.lookup p = some c → n.peerToConn.lookup p = some c ∨ bound p c

variable {n : NetIo} {silent : ConnId → Prop} {bound : PeerId → ConnId → Prop}

theorem Effect.refl (n : NetIo) : Effect n silent bound (n, []) :=
  ⟨fun _ h => h, fun _ h h' => absurd h h', fun _ h => (nomatch h), fun _ h => (nomatch h), rfl, fun _ _ h => .inl h⟩

theorem Effect.of_setConn {c : ConnId} {f : NetConn → NetConn} {r : NetIo × List InboundEvent}
    (h : Effect (n.setConn c f) silent bound r) : Effect n silent bound r :=
  ⟨fun d hd => mem_setConn.mp (h.kept d hd), fun d hd => h.closed d (mem_setConn.mpr hd),
    fun ev hm hk => ⟨mem_setConn.mp (h.closes ev hm hk).1, (h.closes ev hm hk).2⟩, h.no_accept, h.next, h.mapped⟩

theorem mem_conns {c : ConnId} : c ∈ n.conns ↔ ∃ conn, n.conns.lookup c = some conn := by
  rw [← AList.lookup_isSome, Option.isSome_iff_exists]

theorem lookup_closeConn (n : NetIo) (c : ConnId) (notifySim : Bool) (d : ConnId) :
    (n.closeConn c notifySim).1.conns.lookup d = if d = c then none else n.conns.lookup d := by
  unfold closeConn
  cases hl : n.conns.lookup c with
  | none =>
    dsimp only
    by_cases hd : d = c
    · rw [if_pos hd, hd, hl]
    · rw [if_neg hd]
  | some conn => exact Table.lookup_erase c n.conns d

theorem mem_closeConn {c d : ConnId} {notifySim : Bool} : d ∈ (n.closeConn c notifySim).1.conns ↔ d ∈ n.conns ∧ d ≠ c := by
  rw [mem_conns, mem_conns, lookup_closeConn]
  split
  · rename_i hd
    simp [hd]
  · rename_i hd
    simp [hd]

theorem events_closeConn {c : ConnId} {notifySim : Bool} {ev : InboundEvent} (h : ev ∈ (n.closeConn c notifySim).2) :
    c ∈ n.conns ∧ ev.kind = .TcpClosed ∧ ev.connId = c := by
  unfold closeConn at h
  cases hl : n.conns.lookup c with
  | none =>
    rw [hl] at h
    cases h
  | some conn =>
    rw [hl] at h
    dsimp only at h
    split at h
    · rw [List.mem_singleton.mp h]
      exact ⟨mem_conns.mpr ⟨conn, hl⟩, rfl, rfl⟩
    · cases h

theorem closeConn_notifies {c : ConnId} (h : c ∈ n.conns) :
    ∃ ev ∈ (n.closeConn c true).2, ev.kind = .TcpClosed ∧ ev.connId = c := by
  obtain ⟨conn, hl⟩ := mem_conns.mp h
  refine ⟨closedEvent c conn, ?_, rfl, rfl⟩
  rw [closeConn, hl]
  exact List.mem_singleton.mpr rfl

theorem closeConn_nextConnId (n : NetIo) (c : ConnId) (notifySim : Bool) :
    (n.closeConn c notifySim).1.nextConnId = n.nextConnId := by
  unfold closeConn
  split <;> rfl

theorem closeConn_mapped {c : ConnId} {notifySim : Bool} {p : PeerId} {d : ConnId}
    (h : (n.closeConn c notifySim).1.peerToConn.lookup p = some d) : n.peerToConn.lookup p = some d := by
  unfold closeConn at h
  cases hl : n.conns.lookup c with
  | none =>
    rw [hl] at h
    exact h
  | some conn =>
    rw [hl] at h
    dsimp only at h
    split at h
    · rw [Table.lookup_erase] at h
      split at h
      · cases h
      · exact h
    · exact h

theorem effect_closeConn (n : NetIo) (c : ConnId) {notifySim : Bool} (hs : notifySim = false → silent c) :
    Effect n silent bound (n.closeConn c notifySim) := by
  refine ⟨fun d hd => (mem_closeConn.mp hd).1, fun d hd hnot => ?_, fun ev hm _ => ?_, fun ev hm => ?_,
    closeConn_nextConnId n c notifySim, fun p d h => .inl (closeConn_mapped h)⟩
  · have hdc : d = c := by
      by_contra hne
      exact hnot (mem_closeConn.mpr ⟨hd, hne⟩)
    cases notifySim with
    | true => exact .inl (hdc ▸ closeConn_notifies (hdc ▸ hd))
    | false => exact .inr (hdc ▸ hs rfl)
  · obtain ⟨hc, -, rfl⟩ := events_closeConn hm
    exact ⟨hc, fun hm => (mem_closeConn.mp hm).2 rfl⟩
  · rw [(events_closeConn hm).2.1]
    nofun

theorem effect_drainConn (n : NetIo) (c : ConnId) (answers : List SendResult) : Effect n silent bound (n.drainConn c answers) := by
  unfold drainConn
  split
  · exact .refl n
  · split
    rename_i left taken finish hd
    dsimp only
    split
    · exact Effect.of_setConn (effect_closeConn _ c nofun)
    · exact Effect.of_setConn (.refl _)

theorem effect_processTcpSend (n : NetIo) (cmd : OutboundCmd) (answers : List SendResult) :
    Effect n silent bound (n.processTcpSend cmd answers) := by
  unfold processTcpSend
  split
  · exact .refl n
  · split
    · exact .refl n
    · dsimp only
      split
      · exact Effect.of_setConn (effect_drainConn _ _ answers)
      · exact effect_drainConn n _ answers

theorem effect_processCloseConn (n : NetIo) (cmd : OutboundCmd) :
    Effect n (fun c => n.target cmd = some c) bound (n.processCloseConn cmd, []) := by
  unfold processCloseConn
  split
  · exact .refl n
  · rename_i c hc
    have h : Effect n (fun c => n.target cmd = some c) bound (n.closeConn c false) := effect_closeConn n c fun _ => hc
    have hnil : (n.closeConn c false).2 = [] := by
      unfold closeConn
      split <;> rfl
    rw [show ((n.closeConn c false).1, ([] : List InboundEvent)) = n.closeConn c false from Prod.ext rfl hnil.symm]
    exact h

theorem effect_processKeepPending (n : NetIo) (cmd : OutboundCmd) : Effect n silent bound (n.processKeepPending cmd, []) := by
  have erased : ∀ {p d}, (n.peerToConn.erase cmd.peerId).lookup p = some d → n.peerToConn.lookup p = some d := by
    intro p d h
    rw [Table.lookup_erase] at h
    split at h
    · cases h
    · exact h
  unfold processKeepPending
  split
  · exact .refl n
  · dsimp only
    split
    · refine ⟨fun c hc => ?_, fun c hc hnot => ?_, nofun, nofun, rfl, fun p d h => .inl (erased h)⟩
      · exact mem_setConn.mp hc
      · exact absurd (mem_setConn.mpr hc) hnot
    · exact ⟨fun c hc => hc, fun c hc hnot => absurd hc hnot, nofun, nofun, rfl, fun p d h => .inl (erased h)⟩

/-- A BindPeer closes the connection its peer was mapped to before, without telling anyone. -/
theorem effect_processBindPeer (n : NetIo) (cmd : OutboundCmd) :
    Effect n (fun c => n.peerToConn.lookup cmd.peerId = some c ∧ c ≠ cmd.connId)
      (fun p c => p = cmd.peerId ∧ c = cmd.connId ∧ p ≠ 0) (n.processBindPeer cmd, []) := by
  unfold processBindPeer
  cases hl : n.conns.lookup cmd.connId with
  | none => exact .refl n
  | some conn =>
    let n₁ : NetIo :=
      if conn.peerId ≠ 0 ∧ conn.peerId ≠ cmd.peerId then { n with peerToConn := n.peerToConn.erase conn.peerId } else n
    have h₁ : n₁.conns = n.conns ∧ n₁.nextConnId = n.nextConnId := by
      dsimp only [n₁]
      split <;> exact ⟨rfl, rfl⟩
    have hmap : ∀ {p c}, n₁.peerToConn.lookup p = some c → n.peerToConn.lookup p = some c := by
      intro p c h
      dsimp only [n₁] at h
      split at h
      · rw [Table.lookup_erase] at h
        split at h
        · cases h
        · exact h
      · exact h
    change Effect n _ _ ((if cmd.peerId ≠ 0 then _ else n₁ : NetIo).setConn _ _, _)
    by_cases hp : cmd.peerId ≠ 0
    · rw [if_pos hp]
      cases ho : n₁.peerToConn.lookup cmd.peerId with
      | none =>
        refine ⟨fun c hc => ?_, fun c hc hnot => ?_, nofun, nofun, h₁.2, fun p c h => ?_⟩
        · rw [← h₁.1]
          exact mem_setConn.mp hc
        · refine absurd (mem_setConn.mpr ?_) hnot
          dsimp only
          rwa [h₁.1]
        · rw [setConn_peerToConn, Table.lookup_insert] at h
          split at h
          · rename_i hpp
            exact .inr ⟨hpp, (Option.some.inj h).symm, hpp ▸ hp⟩
          · exact .inl (hmap h)
      | some old =>
        let n₂ : NetIo := if old ≠ cmd.connId then (n₁.closeConn old false).1 else n₁
        have hold := hmap ho
        have h₂ : ∀ c, c ∈ n₂.conns ↔ c ∈ n.conns ∧ (c ≠ old ∨ old = cmd.connId) := by
          intro c
          dsimp only [n₂]
          split
          · rename_i hne
            rw [mem_closeConn, h₁.1]
            simp [hne]
          · rename_i he
            rw [not_not] at he
            rw [h₁.1]
            simp [he]
        have hnext : n₂.nextConnId = n.nextConnId := by
          dsimp only [n₂]
          split
          · exact (closeConn_nextConnId n₁ old false).trans h₁.2
          · exact h₁.2
        have hmap₂ : ∀ {p c}, n₂.peerToConn.lookup p = some c → n.peerToConn.lookup p = some c := by
          intro p c h
          dsimp only [n₂] at h
          split at h
          · exact hmap (closeConn_mapped h)
          · exact hmap h
        change Effect n _ _ (NetIo.setConn { n₂ with peerToConn := n₂.peerToConn.insert cmd.peerId cmd.connId } _ _, _)
        refine ⟨fun c hc => ?_, fun c hc hnot => .inr ?_, nofun, nofun, hnext, fun p c h => ?_⟩
        · exact ((h₂ c).mp (mem_setConn.mp hc)).1
        · have hgone : ¬ (c ≠ old ∨ old = cmd.connId) := fun h => hnot (mem_setConn.mpr ((h₂ c).mpr ⟨hc, h⟩))
          push Not at hgone
          obtain ⟨rfl, hne⟩ := hgone
          exact ⟨hold, hne⟩
        · rw [setConn_peerToConn, Table.lookup_insert] at h
          split at h
          · rename_i hpp
            exact .inr ⟨hpp, (Option.some.inj h).symm, hpp ▸ hp⟩
          · exact .inl (hmap₂ h)
    · rw [if_neg hp]
      refine ⟨fun c hc => ?_, fun c hc hnot => ?_, nofun, nofun, h₁.2, fun p c h => .inl (hmap h)⟩
      · rw [← h₁.1]
        exact mem_setConn.mp hc
      · refine absurd (mem_setConn.mpr ?_) hnot
        rwa [h₁.1]

theorem effect_readConn (n : NetIo) (c : ConnId) (data : Bytes) : Effect n silent bound (n.readConn c data) := by
  unfold readConn
  split
  · exact .refl n
  · rename_i conn hl
    split
    · exact effect_closeConn n c nofun
    · rename_i frames left hr
      refine ⟨fun d hd => mem_setConn.mp hd, fun d hd hnot => absurd (mem_setConn.mpr hd) hnot, fun ev hm hk => ?_,
        fun ev hm => ?_, rfl, fun p d h => .inl h⟩
      · obtain ⟨frame, -, rfl⟩ := List.mem_map.mp hm
        cases hk
      · obtain ⟨frame, -, rfl⟩ := List.mem_map.mp hm
        nofun

/-- The connections a command closes without an event. -/
def Silences (n : NetIo) (cmd : OutboundCmd) (c : ConnId) : Prop :=
  (cmd.kind = .CloseConn ∧ n.target cmd = some c) ∨
    (cmd.kind = .BindPeer ∧ n.peerToConn.lookup cmd.peerId = some c ∧ c ≠ cmd.connId)

def Binds (cmd : OutboundCmd) (p : PeerId) (c : ConnId) : Prop :=
  cmd.kind = .BindPeer ∧ p = cmd.peerId ∧ c = cmd.connId ∧ p ≠ 0

theorem Effect.weaken {silent' : ConnId → Prop} {bound' : PeerId → ConnId → Prop} {r : NetIo × List InboundEvent}
    (h : Effect n silent bound r) (hs : ∀ c, silent c → silent' c) (hb : ∀ p c, bound p c → bound' p c) :
    Effect n silent' bound' r :=
  ⟨h.kept, fun c hc hnot => (h.closed c hc hnot).imp_right (hs c), h.closes, h.no_accept, h.next,
    fun p c hm => (h.mapped p c hm).imp_right (hb p c)⟩

theorem effect_processOutbound (n : NetIo) (cmd : OutboundCmd) (answers : List SendResult) :
    Effect n (n.Silences cmd) (Binds cmd) (n.processOutbound cmd answers) := by
  unfold processOutbound
  cases hk : cmd.kind with
  | TcpSend => exact effect_processTcpSend n cmd answers
  | UdpSend => exact .refl n
  | BindPeer =>
    exact (effect_processBindPeer n cmd).weaken (fun c h => .inr ⟨hk, h⟩) fun p c h => ⟨hk, h.1, h.2.1, h.2.2⟩
  | CloseConn =>
    have h : Effect n (fun c => n.target cmd = some c) (Binds cmd) (n.processCloseConn cmd, []) :=
      effect_processCloseConn n cmd
    exact h.weaken (fun c h => .inl ⟨hk, h⟩) fun _ _ h => h
  | KeepPending => exact effect_processKeepPending n cmd

end NetIo
end CommonwealthMP
