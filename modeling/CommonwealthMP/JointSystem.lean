import CommonwealthMP.ConnectionWelcomes
import CommonwealthMP.PluginClient

/-! # A client and the server

The sockets of `udp_win.h` on a network that keeps the order of every TCP connection and
loses or reorders datagrams, the plugin client on these sockets, and the server, to which
others talk as well. `CMP_NetPoll` is taken apart into the pieces between which messages may
arrive; the threads of the server are left to the order in which its inputs come. -/
namespace CommonwealthMP
open ByteLayout OrderedTables SessionTable StepRuns Plugin ServerRuntime

inductive UpItem
  | accept (addr : SockAddr)
  | frame (bytes : Bytes)
  | closed
  deriving DecidableEq, Repr

/-- What the operating system and the network answer during one action of the client. -/
structure Answers where
  now : Time := 0
  startup : Bool := true
  connect : Bool := true
  /-- the number the server's net thread gives the connection -/
  newConn : ConnId := 0
  /-- the new sockets as the server sees them -/
  tcpAddr : SockAddr := {}
  udpAddr : SockAddr := {}
  sendto : Bool := true
  /-- the end of a stream the server closed, or a frame, has arrived -/
  eof : Bool := true
  arrived : Bool := true
  datagram : Option Bytes := none

/-- The two sockets and what is under way: the frames `down` of the open connection, the
connection items `up` and the datagrams `air` to the server. -/
structure Link where
  os : Answers := {}
  /-- 0 without a connection -/
  conn : ConnId := 0
  /-- the server has closed the connection -/
  closed : Bool := false
  udp : Option SockAddr := none
  down : List Bytes := []
  up : List (ConnId × UpItem) := []
  air : List (SockAddr × Bytes) := []

namespace Link

def hangUp (w : Link) : Link :=
  if w.conn = 0 then w else { w with conn := 0, closed := false, down := [], up := w.up ++ [(w.conn, .closed)] }

/-- `cmp_net_startup` -/
def startup (w : Link) : Bool × Link := (w.os.startup, { w with udp := if w.os.startup then some w.os.udpAddr else none })

/-- `cmp_net_shutdown` -/
def shutdown (w : Link) : Link := { w.hangUp with udp := none }

/-- `cmp_net_tcp_connect` -/
def tcpConnect (w : Link) : Bool × Link :=
  let w := w.hangUp
  if w.os.connect then
    (true, { w with
      conn := w.os.newConn, closed := false, down := [], up := w.up ++ [(w.os.newConn, .accept w.os.tcpAddr)] })
  else (false, w)

/-- `cmp_net_tcp_send` -/
def tcpSend (data : Bytes) (w : Link) : Bool × Link :=
  if w.conn = 0 ∨ data = [] then (false, w) else (true, { w with up := w.up ++ [(w.conn, .frame data)] })

/-- `cmp_net_tcp_recv_frame`: at the end of the stream the frames still buffered are lost. -/
def tcpRecvFrame (w : Link) : RecvFrame × Link :=
  if w.conn = 0 then (.nothing, w)
  else if w.closed && w.os.eof then (.closed, { w with conn := 0, closed := false, down := [] })
  else if !w.os.arrived then (.nothing, w)
  else
    match w.down with
    | [] => (.nothing, w)
    | buf :: down => (.frame buf, { w with down := down })

/-- `cmp_net_udp_send` -/
def udpSend (data : Bytes) (w : Link) : Bool × Link :=
  match w.udp with
  | none => (false, w)
  | some addr => if w.os.sendto then (true, { w with air := w.air ++ [(addr, data)] }) else (false, w)

/-- `cmp_net_udp_recv` -/
def udpRecv (w : Link) : Option Bytes × Link :=
  match w.udp with
  | none => (none, w)
  | some _ => (w.os.datagram, { w with os.datagram := none })

/-- A command of the server reaches the connection it is for. -/
def obey (w : Link) (cmd : OutboundCmd) : Link :=
  if w.conn = 0 ∨ cmd.connId ≠ w.conn ∨ w.closed then w
  else
    match cmd.kind with
    | .TcpSend => { w with down := w.down ++ [cmd.bytes] }
    | .CloseConn => { w with closed := true }
    | _ => w

def receive (w : Link) (cmds : List OutboundCmd) : Link := cmds.foldl obey w

theorem receive_of_none {w : Link} (h : w.conn = 0) (cmds : List OutboundCmd) : w.receive cmds = w := by
  induction cmds with
  | nil => rfl
  | cons cmd cmds ih => rw [receive, List.foldl_cons, obey, if_pos (.inl h)]; exact ih

theorem receive_of_closed {w : Link} (h : w.closed = true) (cmds : List OutboundCmd) : w.receive cmds = w := by
  induction cmds with
  | nil => rfl
  | cons cmd cmds ih => rw [receive, List.foldl_cons, obey, if_pos (.inr (.inr h))]; exact ih

/-- An open connection gets the frames that are sent on it, until it is closed. -/
theorem receive_cases {w : Link} (h0 : w.conn ≠ 0) (hopen : w.closed = false) (cmds : List OutboundCmd) :
    (closeCmd w.conn ∉ cmds ∧ w.receive cmds = { w with down := w.down ++ framesTo w.conn cmds }) ∨
      ∃ frames, frames ⊆ framesTo w.conn cmds ∧ w.receive cmds = { w with closed := true, down := w.down ++ frames } := by
  induction cmds generalizing w with
  | nil => exact .inl ⟨List.not_mem_nil, by simp [receive, framesTo]⟩
  | cons cmd cmds ih =>
    have hfold : w.receive (cmd :: cmds) = (w.obey cmd).receive cmds := rfl
    -- a command that is not for the connection changes nothing
    have skip : w.obey cmd = w → framesTo w.conn (cmd :: cmds) = framesTo w.conn cmds → cmd ≠ closeCmd w.conn →
        (closeCmd w.conn ∉ cmd :: cmds ∧ w.receive (cmd :: cmds) = { w with down := w.down ++ framesTo w.conn (cmd :: cmds) }) ∨
          ∃ frames, frames ⊆ framesTo w.conn (cmd :: cmds) ∧
            w.receive (cmd :: cmds) = { w with closed := true, down := w.down ++ frames } := by
      intro hobey hframes hne
      rw [hfold, hobey, hframes]
      refine (ih h0 hopen).imp_left (And.imp_left fun hnot => ?_)
      rw [List.mem_cons, not_or]
      exact ⟨hne.symm, hnot⟩
    by_cases hconn : cmd.connId = w.conn
    · have hhere : ¬ (w.conn = 0 ∨ cmd.connId ≠ w.conn ∨ w.closed) := by simp [h0, hconn, hopen]
      cases hkind : cmd.kind with
      | TcpSend =>
        have hobey : w.obey cmd = { w with down := w.down ++ [cmd.bytes] } := by rw [obey, if_neg hhere, hkind]
        have hframes : framesTo w.conn (cmd :: cmds) = cmd.bytes :: framesTo w.conn cmds := by
          simp [framesTo, hkind, hconn]
        rw [hfold, hobey, hframes]
        rcases ih (w := { w with down := w.down ++ [cmd.bytes] }) h0 hopen with ⟨hnot, he⟩ | ⟨frames, hsub, he⟩
        · refine .inl ⟨?_, by rw [he, List.append_assoc]; rfl⟩
          rw [List.mem_cons, not_or]
          refine ⟨fun hc => ?_, hnot⟩
          rw [← hc] at hkind
          cases hkind
        · exact .inr ⟨cmd.bytes :: frames, List.cons_subset_cons _ hsub, by rw [he, List.append_assoc]; rfl⟩
      | CloseConn =>
        have hobey : w.obey cmd = { w with closed := true } := by rw [obey, if_neg hhere, hkind]
        refine .inr ⟨[], List.nil_subset _, ?_⟩
        rw [hfold, hobey, receive_of_closed rfl, List.append_nil]
      | _ =>
        refine skip (by rw [obey, if_neg hhere, hkind]) (by simp [framesTo, hkind]) fun hc => ?_
        rw [hc] at hkind
        cases hkind
    · refine skip (if_pos (.inr (.inl hconn))) (by simp [framesTo, hconn]) fun hc => hconn ?_
      rw [hc, closeCmd]

end Link

def linkSockets : Sockets Link where
  nowSec w := w.os.now
  startup := Link.startup
  shutdown := Link.shutdown
  tcpConnected w := w.conn ≠ 0
  tcpConnect := Link.tcpConnect
  tcpSend := Link.tcpSend
  tcpRecvFrame := Link.tcpRecvFrame
  udpSend := Link.udpSend
  udpRecv := Link.udpRecv

def typeIs (type : Msg) (data : Bytes) : Prop := u8At data 4 = type.code

instance (type : Msg) (data : Bytes) : Decidable (typeIs type data) := inferInstanceAs (Decidable (_ = _))

/-- What the client does: `CMP_Join`, `CMP_Leave`, the pieces of `CMP_NetPoll`, and the frames
and datagrams that other parts of the plugin send in a session. -/
inductive Call
  | join (game : LocalGame) (flags : UInt8)
  | leave
  | begin (game : LocalGame)
  | turn (game : LocalGame)
  | hear (game : LocalGame)
  | finish
  | say (data : Bytes)
  | emit (data : Bytes)

namespace Call

/-- `CMP_NetPoll` up to its loops. -/
def pollBegin (game : LocalGame) (c : Plugin.Client Link) : Plugin.Client Link :=
  if !linkSockets.tcpConnected c.sockets then Plugin.leave linkSockets { c with events := c.events ++ [.lost] }
  else prelude linkSockets game c

/-- `CMP_NetPoll` after its loops. -/
def pollFinish (c : Plugin.Client Link) : Plugin.Client Link :=
  let c := serverTimeout linkSockets c
  if !c.session.net.joined then c else { c with session.net := mergeIncoming c.session.net }

def run (a : Call) (c : Plugin.Client Link) : Plugin.Client Link :=
  match a with
  | .join game flags => (Plugin.join linkSockets game flags c).2
  | .leave => Plugin.leave linkSockets c
  | .begin game => if c.session.net.joined then pollBegin game c else c
  | .turn game => if c.session.net.joined then pollTcp linkSockets game 1 c else c
  | .hear game => if c.session.net.joined then pollUdp linkSockets game 1 c else c
  | .finish => if c.session.net.joined then pollFinish c else c
  | .say data => if c.session.net.joined then Plugin.tcpSend linkSockets data c else c
  | .emit data => if c.session.net.joined then (Plugin.udpSend linkSockets data c).2 else c

/-- The server's datagrams are poses, only `CMP_Leave` says Bye, and only the client binds. -/
def Proper (os : Answers) : Call → Prop
  | .join _ _ => os.newConn ≠ 0
  | .hear _ => ∀ data ∈ os.datagram, typeIs .PlayerPose data ∨ typeIs .ActorPose data
  | .say data => ¬ typeIs .Bye data
  | .emit data => ¬ typeIs .UdpBind data
  | _ => True

instance (os : Answers) (a : Call) : Decidable (a.Proper os) := by
  cases a <;> unfold Proper <;> infer_instance

end Call

structure Joint where
  client : Plugin.Client Link
  server : ServerRuntime
  /-- the numbers of the connections this client has opened, and of all connections -/
  mine : List ConnId := []
  taken : List ConnId := []

def UpItem.event (c : ConnId) (stamp : PeerId) : UpItem → InboundEvent
  | .accept addr => { kind := .TcpAccept, connId := c, addr := addr }
  | .frame bytes => { kind := .TcpFrame, connId := c, peerId := stamp, bytes := bytes }
  | .closed => { kind := .TcpClosed, connId := c, peerId := stamp }

/-- The next item of a connection, and what stays under way. -/
def takeItem (c : ConnId) : List (ConnId × UpItem) → Option (UpItem × List (ConnId × UpItem))
  | [] => none
  | x :: up => if x.1 = c then some (x.2, up) else (takeItem c up).map fun r => (r.1, x :: r.2)

namespace Joint

inductive Action
  | call (os : Answers) (a : Call)
  /-- the server takes the next item of a connection, which its net thread stamped with a peer -/
  | serve (c : ConnId) (env : Env) (t : Time) (stamp : PeerId)
  | arrive (n : ℕ) (env : Env) (t : Time)
  | lose (n : ℕ)
  /-- timers, the administrator, and the connections and datagrams of others -/
  | other (i : Env × ServerRuntime.Input)

def start (b : ServerRuntime.Startup) (settings : Settings) : Joint where
  client := { session := { settings := settings }, sockets := {} }
  server := b.runtime

def tell (w : Joint) (i : Env × ServerRuntime.Input) : Joint :=
  { w with server := w.server.step i, client.sockets := w.client.sockets.receive (w.server.step i).outbound }

def opens (os : Answers) : Call → List ConnId
  | .join _ _ => [os.newConn]
  | _ => []

/-- Connection numbers are new. -/
def CanCall (w : Joint) (os : Answers) (a : Call) : Prop := a.Proper os ∧ ∀ c ∈ opens os a, c ∉ w.taken

/-- Others use their own connections. -/
def IsOther (w : Joint) : ServerRuntime.Input → Prop
  | .inbound ev _ =>
    (ev.kind = .TcpAccept → ev.connId ≠ 0 ∧ ev.connId ∉ w.taken) ∧
      (ev.kind = .TcpFrame ∨ ev.kind = .TcpClosed → ev.connId ∉ w.mine)
  | _ => True

instance (w : Joint) (os : Answers) (a : Call) : Decidable (w.CanCall os a) := inferInstanceAs (Decidable (_ ∧ _))

instance (w : Joint) (i : ServerRuntime.Input) : Decidable (w.IsOther i) := by
  cases i <;> unfold IsOther <;> infer_instance

def step (w : Joint) : Action → Joint
  | .call os a =>
    if w.CanCall os a then
      { w with
        client := a.run { w.client with sockets.os := os }
        mine := w.mine ++ opens os a
        taken := w.taken ++ opens os a }
    else w
  | .serve c env t stamp =>
    match takeItem c w.client.sockets.up with
    | none => w
    | some (item, up) => { w with client.sockets.up := up }.tell (env, .inbound (item.event c stamp) t)
  | .arrive n env t =>
    match w.client.sockets.air[n]? with
    | none => w
    | some (addr, data) =>
      { w with client.sockets.air := w.client.sockets.air.eraseIdx n }.tell
        (env, .inbound { kind := .UdpDatagram, addr := addr, bytes := data } t)
  | .lose n => { w with client.sockets.air := w.client.sockets.air.eraseIdx n }
  | .other i => if w.IsOther i.2 then { w with taken := w.taken ++ ServerRuntime.acceptedConn i }.tell i else w

end Joint
end CommonwealthMP
