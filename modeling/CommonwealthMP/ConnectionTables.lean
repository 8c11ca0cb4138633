import CommonwealthMP.NetThread
import CommonwealthMP.PartialPairing
import CommonwealthMP.StepRuns

/-! # The two tables of the net thread

`conns_` knows the peer of a connection and `peerToConn_` the connection of a peer. Both are
edited by hand; together they stand for one partial pairing of peers and connections, and
every operation of the net thread is an edit of that pairing. -/
namespace CommonwealthMP
open ByteLayout OrderedTables StepRuns PartialPairing
namespace NetIo

/-- What the net thread does next. The answers of a socket are given with the turn. -/
inductive Turn
  | accept (addr : SockAddr)
  | outbound (cmd : OutboundCmd) (answers : List SendResult)
  | readable (connId : ConnId) (data : Bytes)
  | writable (connId : ConnId) (answers : List SendResult)
  /-- the connection is reset, or `push_inbound` refuses one of its frames -/
  | hangUp (connId : ConnId)

def turn (n : NetIo) : Turn → NetIo
  | .accept addr => (n.acceptReady addr).1
  | .outbound cmd answers => (n.processOutbound cmd answers).1
  | .readable connId data => (n.readConn connId data).1
  | .writable connId answers => (n.drainConn connId answers).1
  | .hangUp connId => (n.closeConn connId true).1

def peerOf (n : NetIo) (c : ConnId) : Option PeerId :=
  match n.conns.lookup c with
  | none => none
  | some conn => if conn.peerId = 0 then none else some conn.peerId

/-- `peerToConn_` maps `p` to `c` exactly if `conns_` has `c` with the peer id `p`, not 0. -/
def Inverse (n : NetIo) : Prop :=
  ∀ p c, n.peerToConn.lookup p = some c ↔ ∃ conn, n.conns.lookup c = some conn ∧ conn.peerId = p ∧ p ≠ 0

/-- The tables stand for the pairing `e`. -/
structure Paired (n : NetIo) (e : PeerId ≃. ConnId) : Prop where
  conn : ∀ p, n.peerToConn.lookup p = e p
  peer : ∀ c, n.peerOf c = e.symm c

variable {n : NetIo} {e : PeerId ≃. ConnId}

theorem peerOf_some {c : ConnId} {conn : NetConn} (h : n.conns.lookup c = some conn) :
    n.peerOf c = if conn.peerId = 0 then none else some conn.peerId := by
  rw [peerOf, h]

theorem peerOf_eq_some {c : ConnId} {p : PeerId} :
    n.peerOf c = some p ↔ ∃ conn, n.conns.lookup c = some conn ∧ conn.peerId = p ∧ p ≠ 0 := by
  cases h : n.conns.lookup c with
  | none =>
    rw [peerOf, h]
    simp
  | some conn =>
    rw [peerOf_some h]
    by_cases h0 : conn.peerId = 0
    · simp only [if_pos h0, Option.some.injEq, exists_eq_left', reduceCtorEq, false_iff]
      rintro ⟨rfl, hne⟩
      exact hne h0
    · simp only [if_neg h0, Option.some.injEq, exists_eq_left']
      constructor
      · rintro rfl
        exact ⟨rfl, h0⟩
      · exact And.left

theorem Paired.inverse (h : Paired n e) : n.Inverse := by
  intro p c
  rw [← peerOf_eq_some, h.conn, h.peer, PEquiv.eq_some_iff]

theorem Paired.live (h : Paired n e) {p : PeerId} {c : ConnId} (hp : e p = some c) :
    ∃ conn, n.conns.lookup c = some conn ∧ conn.peerId = p := by
  rw [← PEquiv.eq_some_iff, ← h.peer] at hp
  obtain ⟨conn, hl, hpeer, -⟩ := peerOf_eq_some.mp hp
  exact ⟨conn, hl, hpeer⟩

theorem paired_start : Paired {} ⊥ := ⟨fun _ => rfl, fun _ => rfl⟩

theorem lookup_setConn_self {c : ConnId} {conn : NetConn} (hl : n.conns.lookup c = some conn) (f : NetConn → NetConn) :
    (n.setConn c f).conns.lookup c = some (f conn) := by
  rw [setConn, Table.lookup_modify_self, hl]
  rfl

theorem peerOf_setConn_ne {c d : ConnId} (hd : d ≠ c) (f : NetConn → NetConn) : (n.setConn c f).peerOf d = n.peerOf d := by
  rw [peerOf, setConn, Table.lookup_modify_ne _ _ hd, ← peerOf]

theorem peerOf_setConn {c : ConnId} {f : NetConn → NetConn} (hf : ∀ conn, (f conn).peerId = conn.peerId) (d : ConnId) :
    (n.setConn c f).peerOf d = n.peerOf d := by
  unfold peerOf setConn
  dsimp only
  rw [Table.lookup_modify]
  by_cases hd : d = c
  · rw [if_pos hd]
    cases n.conns.lookup d with
    | none => rfl
    | some conn =>
      dsimp only [Option.map_some]
      rw [hf]
  · rw [if_neg hd]

theorem Paired.setConn (h : Paired n e) {c : ConnId} {f : NetConn → NetConn} (hf : ∀ conn, (f conn).peerId = conn.peerId) :
    Paired (n.setConn c f) e :=
  ⟨h.conn, fun d => (peerOf_setConn hf d).trans (h.peer d)⟩

theorem peerOf_closeConn (n : NetIo) (c : ConnId) (notifySim : Bool) (d : ConnId) :
    (n.closeConn c notifySim).1.peerOf d = if d = c then none else n.peerOf d := by
  unfold peerOf
  rw [lookup_closeConn]
  by_cases hd : d = c
  · rw [if_pos hd, if_pos hd]
  · rw [if_neg hd, if_neg hd]

theorem peerToConn_closeConn (n : NetIo) (c : ConnId) (notifySim : Bool) (p : PeerId) :
    (n.closeConn c notifySim).1.peerToConn.lookup p = if n.peerOf c = some p then none else n.peerToConn.lookup p := by
  cases hl : n.conns.lookup c with
  | none => rw [closeConn, hl, peerOf, hl, if_neg (Option.some_ne_none p).symm]
  | some conn =>
    rw [peerOf_some hl, closeConn, hl]
    by_cases h0 : conn.peerId = 0
    · simp [h0]
    · by_cases hp : p = conn.peerId
      · simp [h0, hp, Table.lookup_erase]
      · simp [h0, hp, Ne.symm hp]

theorem Paired.closeConn (h : Paired n e) (c : ConnId) (notifySim : Bool) : Paired (n.closeConn c notifySim).1 (drop e c) := by
  constructor
  · intro p
    rw [peerToConn_closeConn, drop_apply, h.peer, h.conn]
    exact if_congr (PEquiv.eq_some_iff e) rfl rfl
  · intro d
    rw [peerOf_closeConn, drop_symm_apply, h.peer]

theorem Paired.drainConn (h : Paired n e) (c : ConnId) (answers : List SendResult) :
    Paired (n.drainConn c answers).1 e ∨ Paired (n.drainConn c answers).1 (drop e c) := by
  unfold NetIo.drainConn
  cases n.conns.lookup c with
  | none => exact .inl h
  | some conn =>
    have hset : Paired (n.setConn c _) e :=
      h.setConn (f := fun c => { c with
        sendQ := (conn.sendQ.drain answers).1, wire := c.wire ++ (conn.sendQ.drain answers).2.1 }) fun _ => rfl
    dsimp only
    split
    · exact .inr (hset.closeConn c true)
    · exact .inl hset

theorem Paired.processTcpSend (h : Paired n e) (cmd : OutboundCmd) (answers : List SendResult) :
    Paired (n.processTcpSend cmd answers).1 e ∨ ∃ c, Paired (n.processTcpSend cmd answers).1 (drop e c) := by
  unfold NetIo.processTcpSend
  cases n.target cmd with
  | none => exact .inl h
  | some id =>
    dsimp only
    cases n.conns.lookup id with
    | none => exact .inl h
    | some conn =>
      dsimp only
      cases conn.sendQ.append cmd.bytes with
      | none => exact (h.drainConn id answers).imp_right fun h => ⟨id, h⟩
      | some sendQ =>
        have hset := h.setConn (c := id) (f := fun c => { c with sendQ := sendQ }) fun _ => rfl
        exact (hset.drainConn id answers).imp_right fun h => ⟨id, h⟩

theorem Paired.readConn (h : Paired n e) (c : ConnId) (data : Bytes) :
    Paired (n.readConn c data).1 e ∨ Paired (n.readConn c data).1 (drop e c) := by
  unfold NetIo.readConn
  cases n.conns.lookup c with
  | none => exact .inl h
  | some conn =>
    dsimp only
    cases recvTurn conn.recvBuf data with
    | none => exact .inr (h.closeConn c true)
    | some r => exact .inl (h.setConn fun _ => rfl)

theorem Paired.acceptReady (h : Paired n e) (addr : SockAddr) : Paired (n.acceptReady addr).1 e := by
  refine ⟨h.conn, fun d => ?_⟩
  rw [← h.peer]
  unfold NetIo.acceptReady peerOf
  dsimp only
  by_cases hn : n.nextConnId ∈ n.conns
  · rw [Table.emplace_of_mem _ _ hn]
  · rw [Table.lookup_emplace _ _ hn]
    by_cases hd : d = n.nextConnId
    · rw [if_pos hd, hd, AList.lookup_eq_none.mpr hn]
      rfl
    · rw [if_neg hd]

theorem Paired.processCloseConn (h : Paired n e) (cmd : OutboundCmd) :
    Paired (n.processCloseConn cmd) e ∨ ∃ c, Paired (n.processCloseConn cmd) (drop e c) := by
  unfold NetIo.processCloseConn
  cases n.target cmd with
  | none => exact .inl h
  | some id => exact .inr ⟨id, h.closeConn id false⟩

theorem Paired.processKeepPending (h : Paired n e) (cmd : OutboundCmd) :
    Paired (n.processKeepPending cmd) (free e cmd.peerId) := by
  unfold NetIo.processKeepPending
  rw [h.conn]
  cases hp : e cmd.peerId with
  | none =>
    rw [free_of_unpaired hp]
    exact h
  | some id =>
    obtain ⟨conn, hl, hpeer⟩ := h.live hp
    have hsymm : e.symm id = some cmd.peerId := (PEquiv.eq_some_iff e).mpr hp
    dsimp only
    rw [if_pos (mem_conns.mpr ⟨conn, hl⟩)]
    constructor
    · intro p
      rw [setConn_peerToConn, Table.lookup_erase, free_apply, h.conn]
    · intro d
      rw [free_symm_apply, ← h.peer]
      by_cases hd : d = id
      · subst hd
        rw [h.peer, if_pos hsymm]
        exact (peerOf_some (lookup_setConn_self (n := { n with peerToConn := _ }) hl _)).trans (if_pos rfl)
      · rw [peerOf_setConn_ne hd, if_neg]
        · rfl
        · rw [h.peer]
          exact fun hd' => hd (PEquiv.inj e.symm hd' hsymm)

/-- `n` after BindPeer has taken the connection's own peer off the map. -/
def unmapped (n : NetIo) (conn : NetConn) (p : PeerId) : NetIo :=
  if conn.peerId ≠ 0 ∧ conn.peerId ≠ p then { n with peerToConn := n.peerToConn.erase conn.peerId } else n

theorem conns_unmapped (n : NetIo) (conn : NetConn) (p : PeerId) : (n.unmapped conn p).conns = n.conns := by
  unfold unmapped
  split <;> rfl

theorem peerOf_unmapped (n : NetIo) (conn : NetConn) (p : PeerId) (d : ConnId) : (n.unmapped conn p).peerOf d = n.peerOf d := by
  rw [peerOf, conns_unmapped, ← peerOf]

theorem Paired.peerToConn_unmapped (h : Paired n e) {c : ConnId} {conn : NetConn} (hl : n.conns.lookup c = some conn) (p q : PeerId) :
    (n.unmapped conn p).peerToConn.lookup q = if q ≠ p ∧ e q = some c then none else e q := by
  have hq : e q = some c ↔ conn.peerId = q ∧ q ≠ 0 := by
    rw [← PEquiv.eq_some_iff, ← h.peer, peerOf_eq_some]
    simp [hl]
  unfold unmapped
  split
  · rename_i hne
    rw [Table.lookup_erase, h.conn]
    refine if_congr ?_ rfl rfl
    rw [hq]
    constructor
    · rintro rfl
      exact ⟨hne.2, rfl, hne.1⟩
    · exact fun hq => hq.2.1.symm
  · rename_i hne
    rw [h.conn, if_neg]
    rintro ⟨hqp, hqc⟩
    obtain ⟨rfl, h0⟩ := hq.mp hqc
    exact hne ⟨h0, hqp⟩

/-- `n` after BindPeer has closed the connection its peer had before. -/
def evicted (n : NetIo) (c : ConnId) (p : PeerId) : NetIo :=
  match n.peerToConn.lookup p with
  | some old => if old ≠ c then (n.closeConn old false).1 else n
  | none => n

theorem processBindPeer_eq {cmd : OutboundCmd} {conn : NetConn} (hl : n.conns.lookup cmd.connId = some conn) :
    n.processBindPeer cmd =
      (if cmd.peerId ≠ 0 then
        { (n.unmapped conn cmd.peerId).evicted cmd.connId cmd.peerId with
          peerToConn := ((n.unmapped conn cmd.peerId).evicted cmd.connId cmd.peerId).peerToConn.insert cmd.peerId cmd.connId }
      else n.unmapped conn cmd.peerId).setConn cmd.connId fun c => { c with peerId := cmd.peerId } := by
  unfold processBindPeer
  rw [hl]
  rfl

/-- The connection evicted is the one the peer had before. -/
theorem Paired.evicted_unmapped (h : Paired n e) {c : ConnId} {conn : NetConn} (hl : n.conns.lookup c = some conn) (p : PeerId) :
    (∀ q ≠ p, ((n.unmapped conn p).evicted c p).peerToConn.lookup q = if e q = some c then none else e q) ∧
      (∀ d ≠ c, ((n.unmapped conn p).evicted c p).peerOf d = if e.symm d = some p then none else e.symm d) ∧
      ((n.unmapped conn p).evicted c p).conns.lookup c = some conn := by
  have hmap : ∀ q ≠ p, (n.unmapped conn p).peerToConn.lookup q = if e q = some c then none else e q := by
    intro q hq
    rw [h.peerToConn_unmapped hl]
    exact if_congr (and_iff_right hq) rfl rfl
  have hpeer : ∀ d, (n.unmapped conn p).peerOf d = e.symm d := fun d => (peerOf_unmapped n conn p d).trans (h.peer d)
  have hconn : (n.unmapped conn p).conns.lookup c = some conn := by rw [conns_unmapped, hl]
  have hp : (n.unmapped conn p).peerToConn.lookup p = e p := by
    rw [h.peerToConn_unmapped hl, if_neg fun hp => hp.1 rfl]
  unfold evicted
  rw [hp]
  cases ho : e p with
  | none =>
    refine ⟨hmap, fun d _ => ?_, hconn⟩
    rw [hpeer, if_neg]
    rw [PEquiv.eq_some_iff, ho]
    nofun
  | some old =>
    have hsymm : e.symm old = some p := (PEquiv.eq_some_iff e).mpr ho
    dsimp only
    by_cases hc : old = c
    · rw [if_neg (not_not.mpr hc)]
      refine ⟨hmap, fun d hd => ?_, hconn⟩
      rw [hpeer, if_neg]
      rw [PEquiv.eq_some_iff, ho]
      exact fun he => hd ((Option.some.inj he).symm.trans hc)
    · rw [if_pos hc]
      refine ⟨fun q hq => ?_, fun d hd => ?_, ?_⟩
      · rw [peerToConn_closeConn, hpeer, hsymm, if_neg (fun he => hq (Option.some.inj he).symm), hmap q hq]
      · rw [peerOf_closeConn, hpeer]
        refine if_congr ?_ rfl rfl
        rw [PEquiv.eq_some_iff, ho]
        exact ⟨fun hd => congrArg some hd.symm, fun he => (Option.some.inj he).symm⟩
      · rw [lookup_closeConn, if_neg (Ne.symm hc), hconn]

/-- BindPeer makes the peer and the connection partners, or without a peer id takes the peer off. -/
theorem Paired.processBindPeer (h : Paired n e) (cmd : OutboundCmd) :
    Paired (n.processBindPeer cmd)
      (if cmd.connId ∉ n.conns then e else if cmd.peerId = 0 then drop e cmd.connId else pair e cmd.peerId cmd.connId) := by
  by_cases hc : cmd.connId ∈ n.conns
  · obtain ⟨conn, hl⟩ := mem_conns.mp hc
    rw [if_neg (not_not.mpr hc), processBindPeer_eq hl]
    by_cases h0 : cmd.peerId = 0
    · rw [if_pos h0, if_neg (not_not.mpr h0), h0]
      have hzero : e 0 = none := by
        rw [Option.eq_none_iff_forall_ne_some]
        intro c hc
        exact ((h.inverse 0 c).mp ((h.conn 0).trans hc)).choose_spec.2.2 rfl
      constructor
      · intro q
        rw [setConn_peerToConn, h.peerToConn_unmapped hl, drop_apply]
        refine if_congr (and_iff_right_of_imp ?_) rfl rfl
        rintro hq rfl
        rw [hzero] at hq
        cases hq
      · intro d
        rw [drop_symm_apply, ← h.peer]
        by_cases hd : d = cmd.connId
        · subst hd
          rw [if_pos rfl, peerOf_some (lookup_setConn_self ((congrArg _ (conns_unmapped n conn 0)).trans hl) _)]
          exact if_pos rfl
        · rw [if_neg hd, peerOf_setConn_ne hd, peerOf_unmapped]
    · rw [if_neg h0, if_pos h0]
      obtain ⟨hmap, hpeer, hconn⟩ := h.evicted_unmapped hl cmd.peerId
      constructor
      · intro q
        rw [setConn_peerToConn, Table.lookup_insert, pair_apply]
        by_cases hq : q = cmd.peerId
        · rw [if_pos hq, if_pos hq]
        · rw [if_neg hq, if_neg hq, hmap q hq]
      · intro d
        rw [pair_symm_apply]
        by_cases hd : d = cmd.connId
        · subst hd
          rw [if_pos rfl]
          exact (peerOf_some (lookup_setConn_self (n := { evicted _ _ _ with peerToConn := _ }) hconn _)).trans (if_neg h0)
        · rw [if_neg hd, ← hpeer d hd, peerOf_setConn_ne hd]
          rfl
  · rw [if_pos hc, NetIo.processBindPeer, AList.lookup_eq_none.mpr hc]
    exact h

theorem Paired.turn (h : Paired n e) (t : Turn) : ∃ e', Paired (n.turn t) e' := by
  cases t with
  | accept addr => exact ⟨_, h.acceptReady addr⟩
  | readable connId data => exact (h.readConn connId data).elim (fun h => ⟨_, h⟩) fun h => ⟨_, h⟩
  | writable connId answers => exact (h.drainConn connId answers).elim (fun h => ⟨_, h⟩) fun h => ⟨_, h⟩
  | hangUp connId => exact ⟨_, h.closeConn connId true⟩
  | outbound cmd answers =>
    change ∃ e', Paired (n.processOutbound cmd answers).1 e'
    unfold processOutbound
    cases cmd.kind with
    | TcpSend => exact (h.processTcpSend cmd answers).elim (fun h => ⟨_, h⟩) fun ⟨_, h⟩ => ⟨_, h⟩
    | UdpSend => exact ⟨_, h⟩
    | BindPeer => exact ⟨_, h.processBindPeer cmd⟩
    | CloseConn => exact (h.processCloseConn cmd).elim (fun h => ⟨_, h⟩) fun ⟨_, h⟩ => ⟨_, h⟩
    | KeepPending => exact ⟨_, h.processKeepPending cmd⟩

theorem paired_run (turns : List Turn) : ∃ e, Paired (run turn {} turns) e := by
  refine run_invariant (I := fun n => ∃ e, Paired n e) (P := fun _ _ => True) ?_ ⟨⊥, paired_start⟩ ?_
  · rintro n t ⟨e, h⟩ -
    exact h.turn t
  · exact allSteps_iff_split.mpr fun _ _ _ _ => trivial

/-- However the net thread runs, the two tables are inverse: no two connections carry the
same peer and no peer is mapped to a connection that is gone. -/
theorem inverse_run (turns : List Turn) :
    (run turn {} turns).Inverse ∧
      (∀ c d conn conn', (run turn {} turns).conns.lookup c = some conn → (run turn {} turns).conns.lookup d = some conn' →
        conn.peerId = conn'.peerId → conn.peerId ≠ 0 → c = d) ∧
      ∀ p c, (run turn {} turns).peerToConn.lookup p = some c → c ∈ (run turn {} turns).conns := by
  obtain ⟨e, h⟩ := paired_run turns
  refine ⟨h.inverse, fun c d conn conn' hc hd hpeer h0 => ?_, fun p c hp => ?_⟩
  · have hmc := (h.inverse conn.peerId c).mpr ⟨conn, hc, rfl, h0⟩
    have hmd := (h.inverse conn.peerId d).mpr ⟨conn', hd, hpeer.symm, h0⟩
    exact Option.some.inj (hmc.symm.trans hmd)
  · obtain ⟨conn, hl, -⟩ := (h.inverse p c).mp hp
    exact mem_conns.mpr ⟨conn, hl⟩

end NetIo
end CommonwealthMP
