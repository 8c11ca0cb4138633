import CommonwealthMP.AngleWrapping
import CommonwealthMP.ClientScreen
import CommonwealthMP.GhostTables
import CommonwealthMP.PoseOrigins
import Mathlib.Data.List.DropRight

/-! # Where the lines, the hits and the poses of a client come from

The frames a client handles are frames the server has sent on its connection, so what it shows
and stores goes back to what clients sent to the server, or to the administrator. -/
namespace CommonwealthMP
open ByteLayout Binary32 OrderedTables StepRuns Plugin ServerRuntime

namespace Call

/-- What the client has under way it had under way before, and what it has handled came from
there or was a datagram `D`. -/
structure Draws (D : Bytes → Prop) (c c' : Plugin.Client Link) : Prop where
  down : c'.sockets.down ⊆ c.sockets.down
  frames : ∀ buf, .frame buf ∈ c'.events → .frame buf ∈ c.events ∨ buf ∈ c.sockets.down
  datagrams : ∀ data, .datagram data ∈ c'.events → .datagram data ∈ c.events ∨ D data

section Draws
variable {D : Bytes → Prop} {c c' c'' : Plugin.Client Link}

theorem Draws.of_events (hd : c'.sockets.down ⊆ c.sockets.down) (he : c'.events = c.events) : Draws D c c' :=
  ⟨hd, fun _ hm => .inl (he ▸ hm), fun _ hm => .inl (he ▸ hm)⟩

theorem Draws.same (hd : c'.sockets.down = c.sockets.down) (he : c'.events = c.events) : Draws D c c' :=
  .of_events (by rw [hd]; exact List.Subset.refl _) he

theorem Draws.refl (c : Plugin.Client Link) : Draws D c c := .same rfl rfl

theorem Draws.trans (h : Draws D c c') (h' : Draws D c' c'') : Draws D c c'' where
  down := List.Subset.trans h'.down h.down
  frames buf hm := (h'.frames buf hm).elim (h.frames buf) fun hb => .inr (h.down hb)
  datagrams data hm := (h'.datagrams data hm).elim (h.datagrams data) .inr

/-- An event that is neither a frame nor a datagram. -/
theorem Draws.event {e : Event} (hf : ∀ buf, e ≠ .frame buf) (hd : ∀ data, e ≠ .datagram data) :
    Draws D c { c with events := c.events ++ [e] } where
  down := List.Subset.refl _
  frames buf hm := by
    refine (List.mem_append.mp hm).imp_right fun hm => ?_
    exact absurd (List.mem_singleton.mp hm).symm (hf buf)
  datagrams data hm := by
    refine (List.mem_append.mp hm).imp_right fun hm => ?_
    exact absurd (List.mem_singleton.mp hm).symm (hd data)

theorem draws_leave (c : Plugin.Client Link) : Draws D c (Plugin.leave linkSockets c) :=
  .of_events (hung_leave (c := c) rfl (.inl rfl) (List.suffix_refl _)).down.subset (leave_events c)

theorem draws_handleMessage (game : LocalGame) (buf : Bytes) (c : Plugin.Client Link) :
    Draws D c (handleMessage linkSockets game buf c) := by
  have hevents := handleMessage_events (S := linkSockets) game buf c
  cases he : endsSession c.session.net.myPeerId buf with
  | true =>
    cases hh : headerOk (Header.decode buf) buf.length with
    | none => simp [endsSession, hh] at he
    | some type =>
      rw [handleMessage, hh] at hevents ⊢
      dsimp only at hevents ⊢
      rw [message_leaves game { c with session.lastRecvSec := linkSockets.nowSec c.sockets } hh he] at hevents ⊢
      have hleft : Hung c (Plugin.leave linkSockets { c with session.lastRecvSec := linkSockets.nowSec c.sockets }) :=
        hung_leave rfl (.inl rfl) (List.suffix_refl _)
      exact .of_events hleft.down.subset hevents
  | false => exact .same (handleMessage_carries keptBySends_down game he).view hevents

theorem draws_turn (game : LocalGame) (c : Plugin.Client Link) : Draws D c (pollTcp linkSockets game 1 c) := by
  rcases tcpRecvFrame_cases c.sockets with hr | hr | ⟨buf, down, hd, hr⟩
  · rw [pollTcp_nothing hr]
    exact .refl c
  · rw [pollTcp_closed hr]
    have hclosed : Draws D c { c with sockets := { c.sockets with conn := 0, closed := false, down := [] } } :=
      .of_events (List.nil_subset _) rfl
    exact (hclosed.trans (.event (e := .closed) nofun nofun)).trans (draws_leave _)
  · have hdown : down ⊆ c.sockets.down := by
      rw [hd]
      exact List.subset_cons_self _ _
    by_cases hl : buf.length < sizeofHeader
    · have hshort : pollTcp linkSockets game 1 c = { c with sockets := { c.sockets with down := down } } := by
        rw [pollTcp, hr]
        dsimp only
        rw [if_pos hl]
      rw [hshort]
      exact .of_events hdown rfl
    · rw [pollTcp_frame hr hl]
      simp only [pollTcp, ite_self]
      have htaken : Draws D c { c with sockets := { c.sockets with down := down }, events := c.events ++ [.frame buf] } := by
        refine ⟨hdown, fun buf' hm => ?_, fun data hm => ?_⟩
        · refine (List.mem_append.mp hm).imp_right fun hm => ?_
          cases List.mem_singleton.mp hm
          exact hd ▸ List.mem_cons_self
        · exact (List.mem_append.mp hm).imp_right fun hm => by cases List.mem_singleton.mp hm
      exact htaken.trans (draws_handleMessage game buf _)

def Received (c : Plugin.Client Link) (data : Bytes) : Prop := c.sockets.udp ≠ none ∧ data ∈ c.sockets.os.datagram

theorem draws_hear (game : LocalGame) (c : Plugin.Client Link) : Draws (Received c) c (pollUdp linkSockets game 1 c) := by
  obtain ⟨⟨os, hos⟩, -⟩ := udpRecv_link c.sockets
  have hreceived : ∀ data, c.sockets.udpRecv.1 = some data → Received c data := by
    unfold Link.udpRecv
    split
    · exact nofun
    · rename_i hudp
      exact fun data he => ⟨by rw [hudp]; exact nofun, he⟩
  obtain ⟨⟨received, w⟩, hr⟩ : ∃ r, linkSockets.udpRecv c.sockets = r := ⟨_, rfl⟩
  have hw : w.down = c.sockets.down := by rw [show w = { c.sockets with os := os } from (congrArg Prod.snd hr).symm.trans hos]
  rw [pollUdp, hr]
  cases received with
  | none => exact .same hw rfl
  | some data =>
    dsimp only
    split
    · exact .same hw rfl
    · simp only [pollUdp, ite_self]
      have htaken : Draws (Received c) c { c with sockets := w, events := c.events ++ [.datagram data] } := by
        refine ⟨by rw [hw]; exact List.Subset.refl _, fun buf hm => ?_, fun data' hm => ?_⟩
        · exact (List.mem_append.mp hm).imp_right fun hm => by cases List.mem_singleton.mp hm
        · refine (List.mem_append.mp hm).imp_right fun hm => ?_
          cases List.mem_singleton.mp hm
          exact hreceived data (congrArg Prod.fst hr)
      exact htaken.trans (draws_handleMessage game data _)

theorem draws_join (game : LocalGame) (flags : UInt8) {c : Plugin.Client Link} (h0 : c.sockets.os.newConn ≠ 0) :
    Draws D c (Plugin.join linkSockets game flags c).2 := by
  have hevents : (Plugin.join linkSockets game flags c).2.events = c.events := by
    have hleft := leave_events (S := linkSockets) c
    unfold Plugin.join
    dsimp only
    split
    · exact hleft
    · split
      · exact hleft
      · split
        · exact hleft
        · split <;> exact hleft
  refine .of_events ?_ hevents
  rcases join_cases game flags h0 with h | h
  · exact h.down.subset
  · rw [h.down]
    exact List.nil_subset _

def Takes (c : Plugin.Client Link) : Call → Bytes → Prop
  | .hear _ => Received c
  | _ => fun _ => False

/-- Every call draws on what is under way and on its datagram. -/
theorem draws_run {a : Call} {c : Plugin.Client Link} (ha : a.Proper c.sockets.os) : Draws (Takes c a) c (a.run c) := by
  have joined {D : Bytes → Prop} {d : Plugin.Client Link} (h : Draws D c d) :
      Draws D c (if c.session.net.joined then d else c) := by
    split
    · exact h
    · exact .refl c
  cases a with
  | join game flags => exact draws_join game flags ha
  | leave => exact draws_leave c
  | begin game =>
    refine joined (d := pollBegin game c) ?_
    unfold pollBegin
    split
    · exact (Draws.event (e := .lost) nofun nofun).trans (draws_leave _)
    · have hsends := sends_prelude keptBySends_down game c
      exact .same hsends.view hsends.events
  | turn game => exact joined (draws_turn game c)
  | hear game => exact joined (draws_hear game c)
  | finish =>
    refine joined (d := pollFinish c) ?_
    unfold pollFinish serverTimeout
    dsimp only
    split
    · rw [if_pos (by rw [leave_joined]; rfl)]
      exact (Draws.event (e := .timedOut) nofun nofun).trans (draws_leave _)
    · split
      · exact .refl c
      · exact .of_events (List.Subset.refl _) rfl
  | say data => exact joined (.same (keptBySends_down.tcp data c.sockets) rfl)
  | emit data => exact joined (.same (keptBySends_down.udp data c.sockets) rfl)

end Draws
end Call

namespace Joint
open Call

/-- The server sends the frame on the client's connection. -/
def Posts (w : Joint) (a : Action) (buf : Bytes) : Prop :=
  ∃ i cmd, w.input a = some i ∧ cmd ∈ (w.server.step i).outbound ∧ cmd.kind = .TcpSend ∧ cmd.connId = w.client.sockets.conn ∧
    cmd.bytes = buf

/-- A frame that is under way or handled was so before, or the server sends it. -/
theorem hears_step (w : Joint) (a : Action) {buf : Bytes} (h : Hears buf (w.step a).client) : Hears buf w.client ∨ Posts w a buf := by
  cases step_cases w a with
  | called os a hcan =>
    have hdraws := draws_run (c := { w.client with sockets.os := os }) hcan.1
    rw [Joint.step, if_pos hcan] at h
    rcases h with h | h
    · exact .inl (hdraws.frames buf h)
    · exact .inl (.inr (hdraws.down h))
  | answered _ i hi hw =>
    obtain ⟨up, air, hs⟩ := hw.sockets
    rw [Hears, hw.events, hs] at h
    rcases h with h | h
    · exact .inl (.inl h)
    · have posted (h : buf ∈ framesTo w.client.sockets.conn (w.server.step i).outbound) : Posts w a buf := by
        obtain ⟨cmd, hm, hk, hc, hb⟩ := mem_framesTo.mp h
        exact ⟨i, cmd, hi, hm, hk, hc, hb⟩
      by_cases h0 : w.client.sockets.conn = 0
      · rw [Link.receive_of_none (w := { w.client.sockets with up := up, air := air }) h0] at h
        exact .inl (.inr h)
      · cases hopen : w.client.sockets.closed with
        | true =>
          rw [Link.receive_of_closed (w := { w.client.sockets with up := up, air := air }) hopen] at h
          exact .inl (.inr h)
        | false =>
          rcases Link.receive_cases (w := { w.client.sockets with up := up, air := air }) h0 hopen (w.server.step i).outbound with
            ⟨-, he⟩ | ⟨frames, hsub, he⟩
          · rw [he] at h
            exact (List.mem_append.mp h).imp .inr posted
          · rw [he] at h
            exact (List.mem_append.mp h).imp .inr fun h => posted (hsub h)
  | idle _ air hi hw =>
    rw [hw] at h
    exact .inl h

/-- Every frame under way or handled was sent by the server in some step. -/
theorem hears_run (b : Startup) (settings : Settings) {as : List Action} {buf : Bytes}
    (h : Hears buf (run Joint.step (start b settings) as).client) :
    SomeStep Joint.step (fun w a => Posts w a buf) (start b settings) as := by
  rcases held_run (I := fun _ : Joint => True) (P := fun _ _ => True) (H := fun w buf => Hears buf w.client) (B := Posts)
    (fun _ _ _ _ => trivial) (fun w a _ _ _ h => hears_step w a h) trivial (allSteps_of_forall fun _ _ => trivial) h with h | h
  · exact h.elim nofun nofun
  · exact h

theorem server_of_no_input {w : Joint} {a : Action} (hi : w.input a = none) : (w.step a).server = w.server := by
  cases a with
  | call os a =>
    rw [Joint.step]
    split <;> rfl
  | lose n => rfl
  | serve c env t stamp => rw [Joint.step, Option.map_eq_none_iff.mp hi]
  | arrive n env t => rw [Joint.step, Option.map_eq_none_iff.mp hi]
  | other i =>
    rw [Joint.step]
    split
    · rename_i hother
      rw [input, if_pos hother] at hi
      cases hi
    · rfl

theorem reachable_step {w : Joint} (h : Reachable w.server) (a : Action) : Reachable (w.step a).server := by
  cases hi : w.input a with
  | some i =>
    rw [(step_of_input hi).server]
    exact h.step i
  | none =>
    rw [server_of_no_input hi]
    exact h

theorem reachable_run (b : Startup) (settings : Settings) (as : List Action) :
    Reachable (run Joint.step (start b settings) as).server :=
  run_invariant (P := fun _ _ => True) (I := fun w : Joint => Reachable w.server) (fun _ a h _ => reachable_step h a)
    (runFrom_reachable b []) (allSteps_of_forall fun _ _ => trivial)

/-- What the server brings the client on behalf of others: a `say` of the administrator, or a frame of a client `p`
that it sends on to the session `q` of the connection. -/
inductive Brings (w : Joint) (a : Action) (buf : Bytes) : Msg → Prop
  | console (i cmdLine text) (hi : w.input a = some i) (hadmin : i.2 = .admin cmdLine) (hsay : Says cmdLine text)
      (hb : buf = (makeChat 0 text).encode) : Brings w a buf .Chat
  | relayed (i ev t p client header type q c) (hi : w.input a = some i) (hs : ClientStep w.server.ready i.2 ev t p client)
      (ho : openFrame ev.bytes = some (header, type)) (hl : w.server.clients.lookup q = some c)
      (hconn : c.connId = w.client.sockets.conn) (h : Relayed w.server p ev.bytes type q buf) : Brings w a buf type

theorem code_injective {m m' : Msg} (h : m.code = m'.code) : m = m' := by
  have hm := Msg.ofCode_code m
  rw [h, Msg.ofCode_code] at hm
  exact (Option.some_inj.mp hm).symm

theorem Posts.brings {w : Joint} (hr : Reachable w.server) {a : Action} {buf : Bytes} (h : Posts w a buf) {type : Msg}
    (ht : typeIs type buf) (hown : type ∉ ownTypes) : Brings w a buf type := by
  obtain ⟨i, cmd, hi, hm, hk, hconn, rfl⟩ := h
  cases step_mail hr.wellFormed i hm with
  | own h =>
    obtain ⟨type', hmem, htype⟩ := h.tcp hk
    exact absurd (code_injective (ht.symm.trans htype.type_at) ▸ hmem) hown
  | greeting q c hl hu hb =>
    rw [hu] at hk
    cases hk
  | console cmdLine text q c hadmin hsay hl hc =>
    subst hc
    have htype : typeIs .Chat (toTcp c (makeChat 0 text).encode).bytes := u8At_encode_type _ _
    cases code_injective (ht.symm.trans htype)
    exact .console i cmdLine text hi hadmin hsay rfl
  | relayed ev t p client header type' q c data hs ho hl h hc =>
    subst hc
    cases code_injective (ht.symm.trans (h.whole ho).type_at)
    exact .relayed i ev t p client header type q c hi hs ho hl hconn h
  | pose ev t p client header q c hs ho hr hl hq hc =>
    rw [hc] at hk
    cases hk
  | actor ev t p client header q c hs ho hl hq hp hc =>
    rw [hc] at hk
    cases hk

theorem Chat.decode_encode (m : Chat) (h : m.text.length = 80) : Chat.decode m.encode = m := by
  have htext : slice m.text 0 80 = m.text := slice_all h
  simp [Chat.decode, Chat.encode, Header.decode_encode_append, u32At_skip, slice_skip, htext]

theorem Kick.decode_encode (m : Kick) (h : m.reason.length = 80) : Kick.decode m.encode = m := by
  have hreason : slice m.reason 0 80 = m.reason := slice_all h
  simp [Kick.decode, Kick.encode, Header.decode_encode_append, u32At_skip, slice_skip, hreason]

theorem Hit.decode_encode (m : Hit) : Hit.decode m.encode = m := by
  simp [Hit.decode, Hit.encode, Header.decode_encode_append, u32At_skip, f32At, f32]

theorem Teleport.decode_encode (m : Teleport) : Teleport.decode m.encode = m := by
  simp [Teleport.decode, Teleport.encode, Header.decode_encode_append, u32At_skip, f32At, f32]

theorem ActorPose.decode_encode (m : ActorPose) : ActorPose.decode m.encode = m := by
  have hpad : u16At (u16 m.pad) 0 = m.pad := by simpa using u16At_u16 m.pad []
  simp [hpad, ActorPose.decode, ActorPose.encode, Header.decode_encode_append, u32At_skip, u16At_skip, u8At_skip, f32At, f32]

theorem openFrame_length {buf : Bytes} {header : Header} {type : Msg} {k : ℕ} (ho : openFrame buf = some (header, type))
    (hk : ∀ size, expectedMsgSize type size = true → size = k) : k ≤ buf.length := by
  obtain ⟨-, -, hle, hsize⟩ := openFrame_spec ho
  rwa [hk _ hsize] at hle

theorem clampHitDamage_clamped (damage : F32) : clampHitDamage (clampHitDamage damage) = clampHitDamage damage := by
  by_cases h : lt ⟨0⟩ damage = true
  · by_cases hmax : lt ⟨0x43FA0000⟩ damage = true
    · have hclamped : clampHitDamage damage = ⟨0x43FA0000⟩ := by simp [clampHitDamage, h, hmax]
      rw [hclamped]
      decide +kernel
    · have hclamped : clampHitDamage damage = damage := by simp [clampHitDamage, h, hmax]
      rw [hclamped, hclamped]
  · have hclamped : clampHitDamage damage = ⟨0⟩ := by simp [clampHitDamage, h]
    rw [hclamped]
    decide +kernel

/-- The step brings the client this chat message: a `say` of the administrator, or a frame of another client. -/
inductive ChatFrom (w : Joint) (a : Action) (chat : Chat) : Prop
  | console (i cmdLine text) (hi : w.input a = some i) (hadmin : i.2 = .admin cmdLine) (hsay : Says cmdLine text)
      (hchat : chat = makeChat 0 text)
  | player (i ev t p client header q c) (hi : w.input a = some i) (hs : ClientStep w.server.ready i.2 ev t p client)
      (ho : openFrame ev.bytes = some (header, .Chat)) (hl : w.server.clients.lookup q = some c)
      (hconn : c.connId = w.client.sockets.conn) (hq : q ≠ p) (hchat : chat = relayedChat p ev.bytes)

theorem Brings.chat {w : Joint} {a : Action} {buf : Bytes} (h : Brings w a buf .Chat) : ChatFrom w a (Chat.decode buf) := by
  cases h with
  | console i cmdLine text hi hadmin hsay hb =>
    refine .console i cmdLine text hi hadmin hsay ?_
    rw [hb, Chat.decode_encode _ (charArray_length 80 text)]
  | relayed i ev t p client header _ q c hi hs ho hl hconn h =>
    cases h with
    | chat _ hq =>
      refine .player i ev t p client header q c hi hs ho hl hconn hq (Chat.decode_encode _ ?_)
      have hsize : 96 ≤ ev.bytes.length := openFrame_length ho fun _ => of_decide_eq_true
      simp only [relayedChat, Chat.decode, List.length_set, slice, List.length_take, List.length_drop]
      omega

/-- The step brings the client this hit: a frame that another client has sent as its own attack, while PvP is on,
with a damage in range. -/
def HitFrom (w : Joint) (a : Action) (hit : Hit) : Prop :=
  ∃ i ev t p client header c, w.input a = some i ∧ ClientStep w.server.ready i.2 ev t p client ∧
    openFrame ev.bytes = some (header, .Hit) ∧ hit = relayedHit ev.bytes ∧ w.server.cfg.pvp = true ∧ hit.attackerPeerId = p ∧
    hit.targetPeerId ≠ p ∧ w.server.clients.lookup hit.targetPeerId = some c ∧ c.connId = w.client.sockets.conn ∧
    le hit.damage ⟨0⟩ = false

theorem Brings.hit {w : Joint} {a : Action} {buf : Bytes} (h : Brings w a buf .Hit) : HitFrom w a (Hit.decode buf) := by
  cases h with
  | relayed i ev t p client header _ q c hi hs ho hl hconn h =>
    cases h with
    | hit hpvp ha ht hd =>
      rw [Hit.decode_encode]
      exact ⟨i, ev, t, p, client, header, c, hi, hs, ho, rfl, hpvp, ha, ht, hl, hconn, hd⟩

/-- The input is a frame of the host, and the client's session is the one the frame is for. -/
def HostSends (w : Joint) (a : Action) (type : Msg) (frame : Bytes) (q : PeerId) : Prop :=
  ∃ i ev t p client header c, w.input a = some i ∧ ClientStep w.server.ready i.2 ev t p client ∧ ev.bytes = frame ∧
    openFrame frame = some (header, type) ∧ p = w.server.world.hostPeerId ∧ w.server.clients.lookup q = some c ∧
    c.connId = w.client.sockets.conn

theorem Brings.kick {w : Joint} {a : Action} {buf : Bytes} (h : Brings w a buf .Kick) :
    ∃ frame, HostSends w a .Kick frame (Kick.decode buf).targetPeerId ∧ Kick.decode buf = relayedKick frame := by
  cases h with
  | relayed i ev t p client header _ q c hi hs ho hl hconn h =>
    cases h with
    | kick hp =>
      have hsize : 96 ≤ ev.bytes.length := openFrame_length ho fun _ => of_decide_eq_true
      have hdecode : Kick.decode (relayedKick ev.bytes).encode = relayedKick ev.bytes := by
        refine Kick.decode_encode _ ?_
        simp only [relayedKick, Kick.decode, List.length_set, slice, List.length_take, List.length_drop]
        omega
      rw [hdecode]
      exact ⟨ev.bytes, ⟨i, ev, t, p, client, header, c, hi, hs, rfl, ho, hp, hl, hconn⟩, rfl⟩

theorem Brings.teleport {w : Joint} {a : Action} {buf : Bytes} (h : Brings w a buf .Teleport) :
    ∃ frame, HostSends w a .Teleport frame (Teleport.decode buf).targetPeerId ∧ Teleport.decode buf = Teleport.decode frame := by
  cases h with
  | relayed i ev t p client header _ q c hi hs ho hl hconn h =>
    cases h with
    | teleport hp =>
      rw [Teleport.decode_encode]
      exact ⟨ev.bytes, ⟨i, ev, t, p, client, header, c, hi, hs, rfl, ho, hp, hl, hconn⟩, rfl⟩

end Joint

namespace Watched
open Joint Call

/-- A message that is handled and is no pose was under way on the connection. -/
theorem heard_frame {w : Joint} {a : Joint.Action} {buf : Bytes} (h : heard w a = some buf) {type : Msg} (ht : typeIs type buf)
    (hpose : type ≠ .PlayerPose) (hactor : type ≠ .ActorPose) : Hears buf w.client := by
  cases a with
  | call os a =>
    rw [heard] at h
    split at h
    · rename_i hcan
      unfold Call.heard at h
      split at h
      · cases h
      · cases a with
        | turn game =>
          dsimp only at h
          rcases tcpRecvFrame_cases { w.client.sockets with os := os } with hr | hr | ⟨frame, down, hd, hr⟩
          · rw [hr] at h
            cases h
          · rw [hr] at h
            cases h
          · rw [hr] at h
            dsimp only at h
            split at h
            · cases h
            · cases h
              refine .inr ?_
              rw [show w.client.sockets.down = buf :: down from hd]
              exact List.mem_cons_self
        | hear game =>
          -- a datagram is a pose
          obtain ⟨-, hmem⟩ := udpRecv_link { w.client.sockets with os := os }
          obtain ⟨⟨received, w'⟩, hr⟩ : ∃ r, linkSockets.udpRecv { w.client.sockets with os := os } = r := ⟨_, rfl⟩
          dsimp only at h
          rw [hr] at h
          cases received with
          | none => cases h
          | some data =>
            dsimp only at h
            split at h
            · cases h
            · cases h
              rcases hcan.1 buf (hmem buf (congrArg Prod.fst hr)) with hp | hp
              · exact absurd (code_injective (ht.symm.trans hp)) hpose
              · exact absurd (code_injective (ht.symm.trans hp)) hactor
        | _ => cases h
    · cases h
  | _ => cases h

theorem someStep_joint {P : Joint → Joint.Action → Prop} {o : Watched} {xs : List (Joint.Action × Stage)}
    (h : SomeStep Joint.step P o.joint (xs.map (·.1))) : SomeStep step (fun o x => P o.joint x.1) o xs := by
  induction xs generalizing o with
  | nil => exact h
  | cons x xs ih => exact h.imp_right fun h => ih (o := o.step x) h

/-- The message handled after a run, unless it is a pose or of the server's own account, was brought by a step of the run. -/
theorem heard_brought (b : Startup) (settings : Settings) {xs : List (Joint.Action × Stage)} {a : Joint.Action} {buf : Bytes}
    (h : heard (run step (start b settings) xs).joint a = some buf) {type : Msg} (ht : typeIs type buf) (hown : type ∉ ownTypes)
    (hpose : type ≠ .PlayerPose) (hactor : type ≠ .ActorPose) :
    SomeStep step (fun o x => Brings o.joint x.1 buf type) (start b settings) xs := by
  rw [run_joint] at h
  have hposts := hears_run b settings (heard_frame h ht hpose hactor)
  obtain ⟨before, x, after, he, hx⟩ := someStep_iff_split.mp hposts
  refine someStep_joint (P := fun w a => Brings w a buf type) (someStep_iff_split.mpr ⟨before, x, after, he, ?_⟩)
  exact hx.brings (reachable_run b settings before) ht hown

/-- Every entry of a part of the screen goes back to a message that was brought before it was shown. -/
theorem shown_brought {α : Type} (part : Screen → List α) (hpart : part {} = []) (type : Msg) (hown : type ∉ ownTypes)
    (hpose : type ≠ .PlayerPose) (hactor : type ≠ .ActorPose) (entry : Stage → Session → Bytes → α → Prop)
    (hshows : ∀ stage session buf s s', Shows stage session buf s s' →
      ∀ e ∈ part s', e ∈ part s ∨ typeIs type buf ∧ entry stage session buf e)
    (b : Startup) (settings : Settings) {xs : List (Joint.Action × Stage)} {e : α}
    (h : e ∈ part (run step (start b settings) xs).screen) :
    ∃ before x after buf, xs = before ++ x :: after ∧
      entry x.2 (run step (start b settings) before).joint.client.session buf e ∧
      SomeStep step (fun o y => Brings o.joint y.1 buf type) (start b settings) before := by
  have hsome := held_run (I := fun _ : Watched => True) (P := fun _ _ => True) (H := fun o e => e ∈ part o.screen)
    (B := fun o x e => ∃ buf, heard o.joint x.1 = some buf ∧ typeIs type buf ∧ entry x.2 o.joint.client.session buf e)
    (fun _ _ _ _ => trivial) ?_ trivial (allSteps_of_forall fun _ _ => trivial) h
  · rcases hsome with h | h
    · rw [start, hpart] at h
      cases h
    · obtain ⟨before, x, after, he, buf, hbuf, ht, hentry⟩ := someStep_iff_split.mp h
      exact ⟨before, x, after, buf, he, hentry, heard_brought b settings hbuf ht hown hpose hactor⟩
  · intro o x e _ _ he
    rw [step] at he
    dsimp only at he
    cases hb : heard o.joint x.1 with
    | none =>
      rw [hb] at he
      exact .inl he
    | some buf =>
      rw [hb] at he
      have hshown := message_shows x.2 o.joint.client.session buf o.screen
      exact (hshows _ _ _ _ _ hshown e he).imp_right fun h => ⟨buf, rfl, h⟩

def chatLines (o : Watched) (x : Joint.Action × Stage) : List Bytes :=
  (((heard o.joint x.1).filter fun buf => headerOk (Header.decode buf) buf.length = some .Chat).map fun buf =>
    chatLine x.2 (Chat.decode buf)).toList

theorem rtake_concat {α : Type} (l : List α) (a : α) (n : ℕ) :
    (l ++ [a]).rtake n = if n < (l.rtake n ++ [a]).length then (l.rtake n ++ [a]).tail else l.rtake n ++ [a] := by
  have hjoin : l.rtake n ++ [a] = (l ++ [a]).drop (l.length - n) := by
    rw [List.rtake, List.drop_append_of_le_length (Nat.sub_le _ _)]
  rw [hjoin, List.rtake, List.tail_drop]
  simp only [List.length_drop, List.length_append, List.length_singleton]
  split
  · congr 1
    omega
  · congr 1
    omega

theorem chatHistory_message (stage : Stage) (session : Session) (buf : Bytes) (s : Screen) :
    (s.message stage session buf).chatHistory =
      if headerOk (Header.decode buf) buf.length = some .Chat then (s.chat stage (Chat.decode buf)).chatHistory
      else s.chatHistory := by
  unfold Screen.message
  cases hh : headerOk (Header.decode buf) buf.length with
  | none => rfl
  | some type =>
    cases type with
    | Chat =>
      have hl : sizeofChat ≤ buf.length := headerOk_length hh fun _ => of_decide_eq_true
      dsimp only
      rw [if_pos hl, if_pos rfl]
    | Hit =>
      dsimp only [Screen.onHit]
      repeat' split
      all_goals first | rfl | contradiction
    | Teleport =>
      dsimp only [Screen.teleport]
      repeat' split
      all_goals first | rfl | contradiction
    | Kick =>
      dsimp only
      repeat' split
      all_goals first | rfl | contradiction
    | _ => rfl

/-- The panel has the last lines that were handled. -/
theorem chatHistory_eq (o : Watched) (h : o.screen.chatHistory = []) (xs : List (Joint.Action × Stage)) :
    (run step o xs).screen.chatHistory = (collect step chatLines o xs).rtake kChatHistoryMax := by
  induction xs using List.reverseRecOn with
  | nil => rw [collect, List.rtake_nil]; exact h
  | append_singleton xs x ih =>
    rw [run_concat, collect_concat, step]
    dsimp only
    cases hb : heard (run step o xs).joint x.1 with
    | none => rw [chatLines, hb, Option.elim_none, ih, Option.filter_none, Option.map_none, Option.toList_none, List.append_nil]
    | some buf =>
      rw [Option.elim_some, chatHistory_message]
      by_cases hc : headerOk (Header.decode buf) buf.length = some .Chat
      · have hline : chatLines (run step o xs) x = [chatLine x.2 (Chat.decode buf)] := by simp [chatLines, hb, hc]
        rw [if_pos hc, hline, rtake_concat, ← ih, Screen.chat]
      · have hline : chatLines (run step o xs) x = [] := by simp [chatLines, hb, hc]
        rw [if_neg hc, hline, List.append_nil, ih]

/-- The chat panel has the last two hundred lines that were handled, and each of them is a line of the administrator or the
frame of another client, under that client's number. -/
theorem chat_authentic (b : Startup) (settings : Settings) (xs : List (Joint.Action × Stage)) :
    (run step (start b settings) xs).screen.chatHistory =
        (collect step chatLines (start b settings) xs).rtake kChatHistoryMax ∧
      ∀ line ∈ (run step (start b settings) xs).screen.chatHistory, ∃ before x after chat, xs = before ++ x :: after ∧
        line = chatLine x.2 chat ∧ SomeStep step (fun o y => ChatFrom o.joint y.1 chat) (start b settings) before := by
  refine ⟨chatHistory_eq _ rfl xs, fun line hline => ?_⟩
  have hshows : ∀ stage session buf s s', Shows stage session buf s s' → ∀ line ∈ s'.chatHistory,
      line ∈ s.chatHistory ∨ typeIs .Chat buf ∧ line = chatLine stage (Chat.decode buf) := by
    intro stage session buf s s' h line hm
    cases h with
    | line ht =>
      rw [Screen.chat] at hm
      dsimp only at hm
      have hm : line ∈ s.chatHistory ++ [chatLine stage (Chat.decode buf)] := by
        split at hm
        · exact List.mem_of_mem_tail hm
        · exact hm
      exact (List.mem_append.mp hm).imp_right fun hm => ⟨ht, List.mem_singleton.mp hm⟩
    | _ => exact .inl hm
  obtain ⟨before, x, after, buf, he, hentry, hsome⟩ := shown_brought Screen.chatHistory rfl .Chat (by decide) (by decide) (by decide)
    (fun stage _ buf line => line = chatLine stage (Chat.decode buf)) hshows b settings hline
  exact ⟨before, x, after, Chat.decode buf, he, hentry, hsome.imp fun _ _ h => h.chat⟩

def hitOnTwo : Hit where
  header := fillHeader .Hit 28
  attackerPeerId := 1
  targetPeerId := 2
  damage := ⟨0x41200000⟩
  flags := 0

def atSpawn : PlayerPose :=
  let world := freshStart.world
  makePose 1 world.spawnLocation world.spawnX world.spawnY world.spawnZ ⟨0⟩

/-- The player joins a session with a host, hears of the host's place, and is hit by the host. -/
def visit : List (Joint.Action × Stage) :=
  List.map (fun a => (a, {})) [.other (acceptAt 9 ⟨10, 0, 0, 9, 1000⟩), .other (frameAt 9 0 (helloFrame (ascii "b"))),
    .call firstAnswers (.join outdoors 0), .serve 1 plainEnv 1 0, .serve 1 plainEnv 1 0, .call firstAnswers (.begin outdoors),
    .call firstAnswers (.turn outdoors), .arrive 0 plainEnv 1, .other (frameAt 9 1 hitOnTwo.encode),
    .call firstAnswers (.turn outdoors), .call firstAnswers (.turn outdoors),
    .call { firstAnswers with datagram := some atSpawn.encode } (.hear outdoors), .call firstAnswers .finish]

def visitor : Settings := { playerKey := ascii "a" }

/-- The player is only hurt by hits that another client has sent as its own attack on this player while PvP is on, and by
no more than the limit at a time. -/
theorem damage_authentic (b : Startup) (settings : Settings) (xs : List (Joint.Action × Stage)) :
    ∀ e ∈ (run step (start b settings) xs).screen.damage, ∃ before x after hit, xs = before ++ x :: after ∧
      e = (hit.attackerPeerId, hit.damage) ∧ (∃ d, toRat? hit.damage = some d ∧ 0 < d ∧ d ≤ kMaxHitDamage) ∧
      hit.targetPeerId = (run step (start b settings) before).joint.client.session.net.myPeerId ∧
      SomeStep step (fun o y => HitFrom o.joint y.1 hit) (start b settings) before := by
  intro e hm
  have hshows : ∀ stage session buf s s', Shows stage session buf s s' → ∀ e ∈ s'.damage, e ∈ s.damage ∨ typeIs .Hit buf ∧
      e = ((Hit.decode buf).attackerPeerId, clampHitDamage (Hit.decode buf).damage) ∧
        (Hit.decode buf).targetPeerId = session.net.myPeerId := by
    intro stage session buf s s' h e hm
    cases h with
    | hurt ht hme hd => exact (List.mem_append.mp hm).imp_right fun hm => ⟨ht, List.mem_singleton.mp hm, hme⟩
    | _ => exact .inl hm
  obtain ⟨before, x, after, buf, he, ⟨hentry, hme⟩, hsome⟩ := shown_brought Screen.damage rfl .Hit (by decide) (by decide) (by decide)
    _ hshows b settings hm
  have hhit := hsome.imp fun _ _ h => h.hit
  obtain ⟨_, y, _, _, i, ev, t, p, client, header, c, -, -, -, hrelay, -, -, -, -, -, hd⟩ := someStep_iff_split.mp hhit
  -- the server has clamped the damage already
  have hclamped : clampHitDamage (Hit.decode buf).damage = (Hit.decode buf).damage := by
    rw [hrelay]
    exact clampHitDamage_clamped _
  rw [hclamped] at hentry
  rw [← hclamped] at hd
  have hrange := clampHitDamage_range hd
  rw [hclamped] at hrange
  exact ⟨before, x, after, Hit.decode buf, he, hentry, hrange, hme, hhit⟩

theorem damage_authentic_visit :
    ∃ before x after hit, visit = before ++ x :: after ∧ (1, ⟨0x41200000⟩) = (hit.attackerPeerId, hit.damage) ∧
    (∃ d, toRat? hit.damage = some d ∧ 0 < d ∧ d ≤ kMaxHitDamage) ∧
    hit.targetPeerId = (run step (start freshStart visitor) before).joint.client.session.net.myPeerId ∧
    SomeStep step (fun o y => HitFrom o.joint y.1 hit) (start freshStart visitor) before :=
  damage_authentic freshStart visitor visit (1, ⟨0x41200000⟩) (by decide +kernel)

/-- The player is moved and kicked by nobody but the host of the time. -/
theorem host_moves_and_kicks (b : Startup) (settings : Settings) (xs : List (Joint.Action × Stage)) :
    (∀ e ∈ (run step (start b settings) xs).screen.moves, ∃ before x after frame, xs = before ++ x :: after ∧
      e = ((Teleport.decode frame).x, (Teleport.decode frame).y, add (Teleport.decode frame).z ⟨0x41000000⟩) ∧
      (Teleport.decode frame).targetPeerId = (run step (start b settings) before).joint.client.session.net.myPeerId ∧
      SomeStep step (fun o y => HostSends o.joint y.1 .Teleport frame (Teleport.decode frame).targetPeerId)
        (start b settings) before) ∧
      ∀ reason ∈ (run step (start b settings) xs).screen.kicks, ∃ before x after frame, xs = before ++ x :: after ∧
        reason = cString ((Kick.decode frame).reason.set 79 0) ∧
        SomeStep step (fun o y => HostSends o.joint y.1 .Kick frame (Kick.decode frame).targetPeerId) (start b settings) before := by
  have hmoves : ∀ stage session buf s s', Shows stage session buf s s' → ∀ e ∈ s'.moves, e ∈ s.moves ∨ typeIs .Teleport buf ∧
      e = ((Teleport.decode buf).x, (Teleport.decode buf).y, add (Teleport.decode buf).z ⟨0x41000000⟩) ∧
        (Teleport.decode buf).targetPeerId = session.net.myPeerId := by
    intro stage session buf s s' h e hm
    cases h with
    | moved ht hme => exact (List.mem_append.mp hm).imp_right fun hm => ⟨ht, List.mem_singleton.mp hm, hme⟩
    | _ => exact .inl hm
  have hkicks : ∀ stage session buf s s', Shows stage session buf s s' → ∀ reason ∈ s'.kicks, reason ∈ s.kicks ∨
      typeIs .Kick buf ∧ reason = cString ((Kick.decode buf).reason.set 79 0) := by
    intro stage session buf s s' h reason hm
    cases h with
    | kicked ht => exact (List.mem_append.mp hm).imp_right fun hm => ⟨ht, List.mem_singleton.mp hm⟩
    | _ => exact .inl hm
  constructor
  · intro e hm
    obtain ⟨before, x, after, buf, he, ⟨hentry, hme⟩, hsome⟩ := shown_brought Screen.moves rfl .Teleport (by decide) (by decide)
      (by decide) _ hmoves b settings hm
    obtain ⟨earlier, y, later, hb, hy⟩ := someStep_iff_split.mp hsome
    obtain ⟨frame, hhost, hframe⟩ := hy.teleport
    rw [hframe] at hentry hme hhost
    exact ⟨before, x, after, frame, he, hentry, hme, someStep_iff_split.mpr ⟨earlier, y, later, hb, hhost⟩⟩
  · intro reason hm
    obtain ⟨before, x, after, buf, he, hentry, hsome⟩ := shown_brought Screen.kicks rfl .Kick (by decide) (by decide) (by decide)
      (fun _ _ buf reason => reason = cString ((Kick.decode buf).reason.set 79 0)) hkicks b settings hm
    obtain ⟨earlier, y, later, hb, hy⟩ := someStep_iff_split.mp hsome
    obtain ⟨frame, hhost, hframe⟩ := hy.kick
    rw [hframe] at hentry hhost
    refine ⟨before, x, after, frame, he, ?_, someStep_iff_split.mpr ⟨earlier, y, later, hb, hhost⟩⟩
    rw [hentry, relayedKick, List.set_set]

theorem sourced_step {w : Joint} (h : Sourced w.client) (a : Joint.Action) : Sourced (w.step a).client := by
  cases a with
  | call os a =>
    rw [Joint.step]
    split
    · have hos : Sourced { w.client with sockets.os := os } := h.same ⟨rfl, rfl, rfl, fun _ hm => hm⟩
      exact hos.run a
    · exact h
  | lose n => exact h.same ⟨rfl, rfl, rfl, fun _ hm => hm⟩
  | _ =>
    rw [Joint.step]
    split
    all_goals exact h.same ⟨rfl, rfl, rfl, fun _ hm => hm⟩

/-- A datagram that has been sent was sent before, or the server sends it in this step. -/
theorem sent_step (o : Watched) (x : Joint.Action × Stage) {d : SockAddr × Bytes} (h : d ∈ (o.step x).sent) :
    d ∈ o.sent ∨ ∃ i cmd, o.joint.input x.1 = some i ∧ cmd ∈ (o.joint.server.step i).outbound ∧ cmd.kind = .UdpSend ∧
      cmd.bytes = d.2 := by
  refine (List.mem_append.mp h).imp_right fun h => ?_
  cases hi : o.joint.input x.1 with
  | none =>
    rw [hi] at h
    cases h
  | some i =>
    rw [hi] at h
    obtain ⟨cmd, hm, hc⟩ := List.mem_filterMap.mp h
    split at hc
    · rename_i hk
      cases hc
      exact ⟨i, cmd, rfl, hm, hk, rfl⟩
    · cases hc

structure Delivered (o : Watched) : Prop where
  reachable : Reachable o.joint.server
  sourced : Sourced o.joint.client
  sent : ∀ data, .datagram data ∈ o.joint.client.events → ∃ addr, (addr, data) ∈ o.sent

theorem Delivered.step {o : Watched} (h : Delivered o) {x : Joint.Action × Stage} (hd : o.Delivers x) : Delivered (o.step x) where
  reachable := reachable_step h.reachable x.1
  sourced := sourced_step h.sourced x.1
  sent data hm := by
    have hmono : ∀ d ∈ o.sent, d ∈ (o.step x).sent := fun d hd => List.mem_append_left _ hd
    obtain ⟨a, stage⟩ := x
    cases step_cases o.joint a with
    | called os a hcan =>
      have hdraws := draws_run (c := { o.joint.client with sockets.os := os }) hcan.1
      have hjoint : (o.step (.call os a, stage)).joint.client = a.run { o.joint.client with sockets.os := os } := by
        rw [Watched.step, Joint.step, if_pos hcan]
      rw [hjoint] at hm
      rcases hdraws.datagrams data hm with hm | ht
      · exact (h.sent data hm).imp fun _ => hmono _
      · cases a with
        | hear game =>
          obtain ⟨addr, -, hsent⟩ := hd data ht.2
          exact ⟨addr, hmono _ hsent⟩
        | _ => exact ht.elim
    | answered _ i hi hw =>
      have hevents : (o.step (a, stage)).joint.client.events = o.joint.client.events := hw.events
      rw [hevents] at hm
      exact (h.sent data hm).imp fun _ => hmono _
    | idle _ air hi hw =>
      have hclient : (o.step (a, stage)).joint.client = { o.joint.client with sockets.air := air } := hw
      rw [hclient] at hm
      exact (h.sent data hm).imp fun _ => hmono _

theorem delivered_start (b : Startup) (settings : Settings) : Delivered (start b settings) where
  reachable := runFrom_reachable b []
  sourced := sourced_of_empty rfl rfl rfl
  sent data hm := by cases hm

/-- The step sets the pose of `p` at the server. -/
def SetsPoseAt (w : Joint) (a : Joint.Action) (p : PeerId) (pose : PlayerPose) : Prop :=
  ∃ i, w.input a = some i ∧ SetsPose w.server i p pose

def HostMoves (w : Joint) (a : Joint.Action) (pose : ActorPose) : Prop :=
  ∃ i ev t p client header, w.input a = some i ∧ DatagramStep w.server.ready i.2 ev t p client ∧
    openFrame ev.bytes = some (header, .ActorPose) ∧ p = w.server.world.hostPeerId ∧ pose = relayedActor ev.bytes

/-- The pose is that of a client at the server, or in a datagram. -/
def Spread (o : Watched) (x : PeerId × PlayerPose) : Prop :=
  HasPose o.joint.server x ∨
    ∃ addr data, (addr, data) ∈ o.sent ∧ typeIs .PlayerPose data ∧ PlayerPose.decode data = x.2 ∧ x.2.peerId = x.1

theorem spread_step {o : Watched} (hr : Reachable o.joint.server) (x : Joint.Action × Stage) {e : PeerId × PlayerPose}
    (h : Spread (o.step x) e) : Spread o e ∨ SetsPoseAt o.joint x.1 e.1 e.2 := by
  rcases h with h | ⟨addr, data, hm, ht, he, hp⟩
  · cases hi : o.joint.input x.1 with
    | some i =>
      have hserver : (o.step x).joint.server = o.joint.server.step i := (step_of_input hi).server
      rw [hserver] at h
      exact (hasPose_step hr i h).imp .inl fun h => ⟨i, hi, h⟩
    | none =>
      have hserver : (o.step x).joint.server = o.joint.server := server_of_no_input hi
      rw [hserver] at h
      exact .inl (.inl h)
  · rcases sent_step o x hm with hm | ⟨i, cmd, hi, hc, hk, hb⟩
    · exact .inl (.inr ⟨addr, data, hm, ht, he, hp⟩)
    · dsimp only at hb
      subst hb
      cases step_mail hr.wellFormed i hc with
      | own h => exact absurd hk h.notUdp
      | greeting q c hl _ hb =>
        rw [hb, Angles.decode_encode_playerPose] at he
        have hq : e.1 = q := by rw [← hp, ← he, hr.posed.peerId q c hl]
        exact .inl (.inl ⟨c, hq ▸ hl, he⟩)
      | console cmdLine text q c hi' hsay hl hc => rw [hc] at hk; cases hk
      | relayed ev t p client header type q c data hs ho hl h hc => rw [hc] at hk; cases hk
      | pose ev t p client header q c hs ho hrate hl hq hc =>
        subst hc
        have he : relayedPose client ev.bytes = e.2 := (Angles.decode_encode_playerPose _).symm.trans he
        have hp : e.1 = p := by
          rw [← hp, ← he]
          exact hr.wellFormed.keyed p client hs.live
        rw [hp]
        exact .inr ⟨i, hi, .sent ev t client header hs ho hrate he.symm⟩
      | actor ev t p client header q c hs ho hl hq hp' hc =>
        subst hc
        have htype : typeIs .ActorPose (toUdp c (relayedActor ev.bytes).encode).bytes := u8At_encode_type _ _
        cases code_injective (ht.symm.trans htype)

theorem sent_actor {o : Watched} (hr : Reachable o.joint.server) (x : Joint.Action × Stage) {pose : ActorPose}
    (h : ∃ addr data, (addr, data) ∈ (o.step x).sent ∧ typeIs .ActorPose data ∧ ActorPose.decode data = pose) :
    (∃ addr data, (addr, data) ∈ o.sent ∧ typeIs .ActorPose data ∧ ActorPose.decode data = pose) ∨
      HostMoves o.joint x.1 pose := by
  obtain ⟨addr, data, hm, ht, rfl⟩ := h
  rcases sent_step o x hm with hm | ⟨i, cmd, hi, hc, hk, hb⟩
  · exact .inl ⟨addr, data, hm, ht, rfl⟩
  · dsimp only at hb
    subst hb
    have notPose {pose : PlayerPose} (hh : pose.header = fillHeader .PlayerPose 56)
        (hb : cmd.bytes = pose.encode) : False := by
      have htype : typeIs .PlayerPose cmd.bytes := by
        rw [hb]
        exact (u8At_encode_type _ _).trans (by rw [hh]; rfl)
      cases code_injective (ht.symm.trans htype)
    cases step_mail hr.wellFormed i hc with
    | own h => exact absurd hk h.notUdp
    | greeting q c hl _ hb => exact (notPose (hr.posed.header q c hl) hb).elim
    | console cmdLine text q c hi' hsay hl hc => rw [hc] at hk; cases hk
    | relayed ev t p client header type q c data hs ho hl h hc => rw [hc] at hk; cases hk
    | pose ev t p client header q c hs ho hrate hl hq hc =>
      have hheader : (relayedPose client ev.bytes).header = fillHeader .PlayerPose 56 := rfl
      exact (notPose hheader (by rw [hc]; rfl)).elim
    | actor ev t p client header q c hs ho hl hq hp hc =>
      subst hc
      exact .inr ⟨i, ev, t, p, client, header, hi, hs, ho, hp, ActorPose.decode_encode _⟩

theorem sent_of_heard (b : Startup) (settings : Settings) {xs : List (Joint.Action × Stage)}
    (h : Delivered (run step (start b settings) xs)) {buf : Bytes}
    (hb : HasHeard (run step (start b settings) xs).joint.client.events buf) {type : Msg} (ht : typeIs type buf)
    (hpose : type = .PlayerPose ∨ type = .ActorPose) : ∃ addr, (addr, buf) ∈ (run step (start b settings) xs).sent := by
  rcases hb with hb | hb
  · -- no frame of the server is a pose
    rw [run_joint] at hb
    obtain ⟨before, a, after, -, hposts⟩ := someStep_iff_split.mp (hears_run b settings (.inl hb))
    have hown : type ∉ ownTypes := by rcases hpose with rfl | rfl <;> decide
    have hbrings := hposts.brings (reachable_run b settings before) ht hown
    rcases hpose with rfl | rfl <;> cases hbrings with
    | relayed i ev t p client header _ q c hi hs ho hl hconn h => cases h
  · exact h.sent buf hb

/-- The poses of other players and of actors that the client has are poses the players have sent or were put at, each under
the number of its player, and poses of actors the host has sent. -/
theorem poses_authentic (b : Startup) (settings : Settings) (xs : List (Joint.Action × Stage))
    (hd : AllSteps step Delivers (start b settings) xs) :
    (∀ p pose, (run step (start b settings) xs).joint.client.session.net.latestPose.lookup p = some pose →
      SomeStep step (fun o x => SetsPoseAt o.joint x.1 p pose) (start b settings) xs) ∧
      ∀ r pose, (run step (start b settings) xs).joint.client.session.net.latestActors.lookup r = some pose →
        pose.refFormId = r ∧ SomeStep step (fun o x => HostMoves o.joint x.1 pose) (start b settings) xs := by
  have hstep : ∀ (o : Watched) x, Delivered o → o.Delivers x → Delivered (o.step x) := fun _ _ h hd => h.step hd
  have hdelivered := run_invariant hstep (delivered_start b settings) hd
  constructor
  · intro p pose hp
    obtain ⟨hid, buf, hb, ht, he⟩ := hdelivered.sourced.latestPose p pose hp
    obtain ⟨addr, hsent⟩ := sent_of_heard b settings hdelivered hb ht (.inl rfl)
    have hspread : Spread (run step (start b settings) xs) (p, pose) := .inr ⟨addr, buf, hsent, ht, he, hid⟩
    rcases held_run (B := fun o x (e : PeerId × PlayerPose) => SetsPoseAt o.joint x.1 e.1 e.2) hstep
      (fun o x e h _ he => spread_step h.reachable x he) (delivered_start b settings) hd hspread with h | h
    · rcases h with ⟨c, hl, -⟩ | ⟨addr, data, hm, -⟩
      · simp [start, Joint.start, Startup.runtime, initial] at hl
      · cases hm
    · exact h
  · intro r pose hr
    obtain ⟨hid, buf, hb, ht, he⟩ := hdelivered.sourced.latestActors r pose hr
    obtain ⟨addr, hsent⟩ := sent_of_heard b settings hdelivered hb ht (.inr rfl)
    refine ⟨hid, ?_⟩
    rcases held_run (H := fun (o : Watched) (pose : ActorPose) => ∃ addr data, (addr, data) ∈ o.sent ∧ typeIs .ActorPose data ∧
        ActorPose.decode data = pose) (B := fun o x pose => HostMoves o.joint x.1 pose) hstep
      (fun o x e h _ he => sent_actor h.reachable x he) (delivered_start b settings) hd ⟨addr, buf, hsent, ht, he⟩ with h | h
    · obtain ⟨addr, data, hm, -⟩ := h
      cases hm
    · exact h

theorem poses_authentic_visit :
    (run step (start freshStart visitor) visit).joint.client.session.net.latestPose.lookup 1 = some atSpawn ∧
      SomeStep step (fun o x => SetsPoseAt o.joint x.1 1 atSpawn) (start freshStart visitor) visit := by
  have hl : (run step (start freshStart visitor) visit).joint.client.session.net.latestPose.lookup 1 = some atSpawn := by
    decide +kernel
  have hd : AllSteps step Delivers (start freshStart visitor) visit := by
    refine ⟨?_, ?_, ?_, ?_, ?_, ?_, ?_, ?_, ?_, ?_, ?_, ?_, ?_, trivial⟩
    case refine_12 =>
      intro data hdata
      cases hdata
      exact ⟨⟨10, 0, 0, 1, 2000⟩, by decide +kernel, by decide +kernel⟩
    all_goals trivial
  exact ⟨hl, (poses_authentic freshStart visitor visit hd).1 1 atSpawn hl⟩

end Watched
end CommonwealthMP
