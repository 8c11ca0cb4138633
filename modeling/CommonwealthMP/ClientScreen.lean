import CommonwealthMP.HeardPoses

/-! # Chat, hits and teleports at the client

The branches of `HandleMessage` that the session does not remember: lines of the chat panel,
damage to the player, and moves of the player. -/
namespace CommonwealthMP
open ByteLayout Binary32 OrderedTables StepRuns Plugin ServerRuntime
namespace Plugin

/-- What the branches read of the game: the names of the ghosts, whether there is a player, and
whether it is dead. -/
structure Stage where
  names : UInt32 → Bytes := fun _ => []
  player : Bool := true
  dead : Bool := false

/-- What the branches write: `chatHistory`, the damage of `HandleHealthDamage` under the attacker
it is logged with, the positions of `SetPosition`, and the reasons of kicks that were printed. -/
structure Screen where
  chatHistory : List Bytes := []
  damage : List (UInt32 × F32) := []
  moves : List (F32 × F32 × F32) := []
  kicks : List Bytes := []

def kChatHistoryMax : ℕ := 200

def peerDisplayName (stage : Stage) (peerId : UInt32) : Bytes :=
  if stage.names peerId = [] then ascii "peer " ++ decimal peerId.toNat else stage.names peerId

def chatLine (stage : Stage) (chat : Chat) : Bytes :=
  let from_ := if chat.fromPeerId = 0 then ascii "Server" else peerDisplayName stage chat.fromPeerId
  ascii "[" ++ from_ ++ ascii "] " ++ cString (chat.text.set 79 0)

def Screen.chat (stage : Stage) (chat : Chat) (s : Screen) : Screen :=
  let history := s.chatHistory ++ [chatLine stage chat]
  { s with chatHistory := if kChatHistoryMax < history.length then history.tail else history }

def Screen.onHit (stage : Stage) (session : Session) (hit : Hit) (s : Screen) : Screen :=
  if !session.net.joined || hit.targetPeerId != session.net.myPeerId then s
  else if session.menu.sessionFlags &&& kSessionPvpEnabled = 0 then s
  else
    let damage := clampHitDamage hit.damage
    if le damage ⟨0⟩ then s
    else if !stage.player || stage.dead then s
    else { s with damage := s.damage ++ [(hit.attackerPeerId, damage)] }

def Screen.teleport (stage : Stage) (session : Session) (tp : Teleport) (s : Screen) : Screen :=
  if stage.player && tp.targetPeerId == session.net.myPeerId then
    { s with moves := s.moves ++ [(tp.x, tp.y, add tp.z ⟨0x41000000⟩)] }
  else s

/-- The branches of `HandleMessage` for a session as it is before the message. -/
def Screen.message (stage : Stage) (session : Session) (buf : Bytes) (s : Screen) : Screen :=
  match headerOk (Header.decode buf) buf.length with
  | some .Chat => if sizeofChat ≤ buf.length then s.chat stage (Chat.decode buf) else s
  | some .Hit => if sizeofHit ≤ buf.length then s.onHit stage session (Hit.decode buf) else s
  | some .Teleport => if sizeofTeleport ≤ buf.length then s.teleport stage session (Teleport.decode buf) else s
  | some .Kick =>
    if sizeofKick ≤ buf.length then { s with kicks := s.kicks ++ [cString ((Kick.decode buf).reason.set 79 0)] } else s
  | _ => s

/-- What a message of the session puts on the screen. -/
inductive Shows (stage : Stage) (session : Session) (buf : Bytes) (s : Screen) : Screen → Prop
  | nothing : Shows stage session buf s s
  | line (ht : typeIs .Chat buf) : Shows stage session buf s (s.chat stage (Chat.decode buf))
  | hurt (ht : typeIs .Hit buf) (hme : (Hit.decode buf).targetPeerId = session.net.myPeerId)
      (hd : le (clampHitDamage (Hit.decode buf).damage) ⟨0⟩ = false) :
      Shows stage session buf s { s with
        damage := s.damage ++ [((Hit.decode buf).attackerPeerId, clampHitDamage (Hit.decode buf).damage)] }
  | moved (ht : typeIs .Teleport buf) (hme : (Teleport.decode buf).targetPeerId = session.net.myPeerId) :
      Shows stage session buf s { s with
        moves := s.moves ++ [((Teleport.decode buf).x, (Teleport.decode buf).y, add (Teleport.decode buf).z ⟨0x41000000⟩)] }
  | kicked (ht : typeIs .Kick buf) :
      Shows stage session buf s { s with kicks := s.kicks ++ [cString ((Kick.decode buf).reason.set 79 0)] }

theorem message_shows (stage : Stage) (session : Session) (buf : Bytes) (s : Screen) :
    Shows stage session buf s (s.message stage session buf) := by
  unfold Screen.message
  cases hh : headerOk (Header.decode buf) buf.length with
  | none => exact .nothing
  | some type =>
    have htype : typeIs type buf := (headerOk_spec hh).1
    cases type with
    | Chat =>
      dsimp only
      split
      · exact .line htype
      · exact .nothing
    | Hit =>
      dsimp only [Screen.onHit]
      split
      · split
        · exact .nothing
        · rename_i hmine
          split
          · exact .nothing
          · split
            · exact .nothing
            · rename_i hpos
              split
              · exact .nothing
              · simp only [Bool.not_eq_true', Bool.or_eq_true, bne_iff_ne, ne_eq, not_or, not_not] at hmine
                exact .hurt htype hmine.2 (by simpa using hpos)
      · exact .nothing
    | Teleport =>
      dsimp only [Screen.teleport]
      split
      · split
        · rename_i hmine
          simp only [Bool.and_eq_true, beq_iff_eq] at hmine
          exact .moved htype hmine.2
        · exact .nothing
      · exact .nothing
    | Kick =>
      dsimp only
      split
      · exact .kicked htype
      · exact .nothing
    | _ => exact .nothing

end Plugin

namespace Call

def heard (a : Call) (c : Plugin.Client Link) : Option Bytes :=
  if !c.session.net.joined then none
  else
    match a with
    | .turn _ =>
      match linkSockets.tcpRecvFrame c.sockets with
      | (.frame buf, _) => if buf.length < sizeofHeader then none else some buf
      | _ => none
    | .hear _ =>
      match linkSockets.udpRecv c.sockets with
      | (some buf, _) => if buf.length < sizeofHeader then none else some buf
      | _ => none
    | _ => none

end Call

/-- The system with what the client shows, and the datagrams the server has sent. -/
structure Watched where
  joint : Joint
  screen : Screen := {}
  sent : List (SockAddr × Bytes) := []

namespace Watched

def heard (w : Joint) : Joint.Action → Option Bytes
  | .call os a => if w.CanCall os a then a.heard { w.client with sockets.os := os } else none
  | _ => none

def datagramsOf (cmds : List OutboundCmd) : List (SockAddr × Bytes) :=
  cmds.filterMap fun cmd => if cmd.kind = .UdpSend then some (cmd.addr, cmd.bytes) else none

def step (o : Watched) (x : Joint.Action × Stage) : Watched where
  joint := o.joint.step x.1
  screen := (heard o.joint x.1).elim o.screen fun buf => o.screen.message x.2 o.joint.client.session buf
  sent := o.sent ++ (o.joint.input x.1).elim [] fun i => datagramsOf (o.joint.server.step i).outbound

/-- The datagram a call receives is one the server has sent to the socket. -/
def Delivers (o : Watched) (x : Joint.Action × Stage) : Prop :=
  match x.1 with
  | .call os (.hear _) => ∀ data ∈ os.datagram, ∃ addr ∈ o.joint.client.sockets.udp, (addr, data) ∈ o.sent
  | _ => True

def start (b : ServerRuntime.Startup) (settings : Settings) : Watched := { joint := Joint.start b settings }

theorem run_joint (o : Watched) (xs : List (Joint.Action × Stage)) :
    (StepRuns.run step o xs).joint = StepRuns.run Joint.step o.joint (xs.map (·.1)) := by
  induction xs generalizing o with
  | nil => rfl
  | cons x xs ih => exact ih (o.step x)

end Watched
end CommonwealthMP
