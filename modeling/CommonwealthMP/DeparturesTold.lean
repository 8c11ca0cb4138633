import CommonwealthMP.ClientHearing
import CommonwealthMP.Departures

/-! # Departures as a client hears of them

A Bye that the server has sent on a connection is under way to the client until the client has
handled it, so a client to which nothing is under way has been told of every departure. -/
namespace CommonwealthMP
open ByteLayout OrderedTables SessionTable StepRuns Plugin ServerRuntime

namespace Call

/-- The peers that the client has been told have left. -/
def toldLeft (c : Plugin.Client Link) : Set UInt32 := { p | .frame (makeBye p).encode ∈ c.events }

/-- The client has handled the frame, or has it under way. -/
def Hears (buf : Bytes) (c : Plugin.Client Link) : Prop := .frame buf ∈ c.events ∨ buf ∈ c.sockets.down

variable {buf : Bytes} {c : Plugin.Client Link}

theorem Hears.mono (h : Hears buf c) {c' : Plugin.Client Link} (he : c.events ⊆ c'.events)
    (hd : c'.sockets.down = c.sockets.down) : Hears buf c' := by
  rcases h with h | h
  · exact .inl (he h)
  · exact .inr (hd.symm ▸ h)

theorem Hears.turn (hlen : sizeofHeader ≤ buf.length) (h : Hears buf c) (game : LocalGame)
    (hconn : (pollTcp linkSockets game 1 c).sockets.conn ≠ 0) : Hears buf (pollTcp linkSockets game 1 c) := by
  rcases tcpRecvFrame_cases c.sockets with hr | hr | ⟨frame, down, hd, hr⟩
  · rw [pollTcp_nothing hr]
    exact h
  · rw [pollTcp_closed hr] at hconn
    exact absurd (leave_conn _) hconn
  · rw [Hears, hd] at h
    by_cases hl : frame.length < sizeofHeader
    · have hshort : pollTcp linkSockets game 1 c = { c with sockets := { c.sockets with down := down } } := by
        rw [pollTcp, hr]
        dsimp only
        rw [if_pos hl]
      rw [hshort]
      refine h.imp_right fun hm => (List.mem_cons.mp hm).resolve_left ?_
      rintro rfl
      exact absurd hl (Nat.not_lt.mpr hlen)
    · rw [pollTcp_frame hr hl] at hconn ⊢
      simp only [pollTcp, ite_self] at hconn ⊢
      cases he : endsSession c.session.net.myPeerId frame with
      | true =>
        exact absurd (handleMessage_conn game
          (c := { c with sockets := { c.sockets with down := down }, events := c.events ++ [.frame frame] }) he) hconn
      | false =>
        have hcarries := handleMessage_carries keptBySends_down game
          (c := { c with sockets := { c.sockets with down := down }, events := c.events ++ [.frame frame] }) he
        rw [Hears, hcarries.events, hcarries.view]
        rcases h with h | h
        · exact .inl (List.mem_append_left _ h)
        · rcases List.mem_cons.mp h with rfl | h
          · exact .inl (List.mem_append_right _ (List.mem_singleton.mpr rfl))
          · exact .inr h

theorem Hears.hear (h : Hears buf c) (game : LocalGame)
    (hp : ∀ data ∈ c.sockets.os.datagram, typeIs .PlayerPose data ∨ typeIs .ActorPose data) :
    Hears buf (pollUdp linkSockets game 1 c) := by
  obtain ⟨⟨os, hos⟩, hmem⟩ := udpRecv_link c.sockets
  obtain ⟨⟨received, w⟩, hr⟩ : ∃ r, linkSockets.udpRecv c.sockets = r := ⟨_, rfl⟩
  have hlink : w = { c.sockets with os := os } := (congrArg Prod.snd hr).symm.trans hos
  have hw : w.down = c.sockets.down := by rw [hlink]
  rw [pollUdp, hr]
  cases received with
  | none => exact h.mono (fun _ hm => hm) hw
  | some data =>
    dsimp only
    split
    · exact h.mono (fun _ hm => hm) hw
    · simp only [pollUdp, ite_self]
      have he : endsSession c.session.net.myPeerId data = false := endsSession_pose (hp data (hmem data (congrArg Prod.fst hr)))
      have hcarries := handleMessage_carries keptBySends_down game
        (c := { c with sockets := w, events := c.events ++ [.datagram data] }) he
      exact h.mono (by rw [hcarries.events]; exact List.subset_append_left _ _) (hcarries.view.trans hw)

/-- A call that keeps the connection loses no frame. -/
theorem Hears.run (hlen : sizeofHeader ≤ buf.length) (h : Hears buf c) {a : Call} (ha : a.Proper c.sockets.os)
    (hjoin : ∀ game flags, a ≠ .join game flags) (hconn : (a.run c).sockets.conn ≠ 0) : Hears buf (a.run c) := by
  have hjoined : ∀ c' : Plugin.Client Link, (c'.sockets.conn ≠ 0 → Hears buf c') →
      (if c.session.net.joined then c' else c).sockets.conn ≠ 0 → Hears buf (if c.session.net.joined then c' else c) := by
    intro c' h' hconn
    split
    · rename_i hj
      rw [if_pos hj] at hconn
      exact h' hconn
    · exact h
  cases a with
  | join game flags => exact absurd rfl (hjoin game flags)
  | leave => exact absurd (leave_conn c) hconn
  | begin game =>
    refine hjoined (pollBegin game c) (fun hconn => ?_) hconn
    unfold pollBegin at hconn ⊢
    split
    · rename_i hlost
      rw [if_pos hlost] at hconn
      exact absurd (leave_conn _) hconn
    · have hsends := sends_prelude keptBySends_down game c
      exact h.mono (by rw [hsends.events]; exact fun _ hm => hm) hsends.view
  | turn game => exact hjoined _ (h.turn hlen game) hconn
  | hear game => exact hjoined _ (fun _ => h.hear game ha) hconn
  | finish =>
    refine hjoined (pollFinish c) (fun hconn => ?_) hconn
    unfold pollFinish serverTimeout at hconn ⊢
    dsimp only at hconn ⊢
    split
    · rename_i hlate
      rw [if_pos hlate, leave_joined] at hconn
      exact absurd (leave_conn _) hconn
    · split
      · exact h
      · exact h.mono (fun _ hm => hm) rfl
  | say data => exact hjoined _ (fun _ => h.mono (fun _ hm => hm) (keptBySends_down.tcp data c.sockets)) hconn
  | emit data => exact hjoined _ (fun _ => h.mono (fun _ hm => hm) (keptBySends_down.udp data c.sockets)) hconn

end Call
namespace Joint
open Call

def input (w : Joint) : Action → Option (Env × ServerRuntime.Input)
  | .call _ _ | .lose _ => none
  | .serve c env t stamp => (takeItem c w.client.sockets.up).map fun r => (env, .inbound (r.1.event c stamp) t)
  | .arrive n env t => w.client.sockets.air[n]?.map fun d => (env, .inbound { kind := .UdpDatagram, addr := d.1, bytes := d.2 } t)
  | .other i => if w.IsOther i.2 then some i else none

/-- The server has taken an input, and the client has what it sends under way. -/
structure Answered (w w' : Joint) (i : Env × ServerRuntime.Input) : Prop where
  server : w'.server = w.server.step i
  events : w'.client.events = w.client.events
  sockets : ∃ up air, w'.client.sockets = Link.receive { w.client.sockets with up := up, air := air } (w.server.step i).outbound

theorem step_of_input {w : Joint} {a : Action} {i : Env × ServerRuntime.Input} (h : w.input a = some i) : Answered w (w.step a) i := by
  cases a with
  | call os a => cases h
  | lose n => cases h
  | serve c env t stamp =>
    obtain ⟨⟨item, up⟩, hr, rfl⟩ := Option.map_eq_some_iff.mp h
    rw [Joint.step, hr]
    exact ⟨rfl, rfl, _, _, rfl⟩
  | arrive n env t =>
    obtain ⟨⟨addr, data⟩, hd, rfl⟩ := Option.map_eq_some_iff.mp h
    rw [Joint.step, hd]
    exact ⟨rfl, rfl, _, _, rfl⟩
  | other i =>
    rw [input] at h
    split at h
    · rename_i hi
      cases h
      rw [Joint.step, if_pos hi]
      exact ⟨rfl, rfl, _, _, rfl⟩
    · cases h

theorem receive_down (w : Link) (cmds : List OutboundCmd) : w.down ⊆ (w.receive cmds).down := by
  by_cases h0 : w.conn = 0
  · rw [Link.receive_of_none h0]
    exact fun _ hm => hm
  · cases hopen : w.closed with
    | true =>
      rw [Link.receive_of_closed hopen]
      exact fun _ hm => hm
    | false =>
      rcases Link.receive_cases h0 hopen cmds with ⟨-, he⟩ | ⟨frames, -, he⟩
      · rw [he]
        exact List.subset_append_left _ _
      · rw [he]
        exact List.subset_append_left _ _

theorem Answered.hears {w w' : Joint} {i : Env × ServerRuntime.Input} (h : Answered w w' i) {buf : Bytes} (hb : Hears buf w.client) :
    Hears buf w'.client := by
  obtain ⟨up, air, hs⟩ := h.sockets
  rw [Hears, h.events, hs]
  exact hb.imp_right fun hm => receive_down { w.client.sockets with up := up, air := air } _ hm

/-- What an action is to the client: a call, an answer of the server, or nothing on its connection. -/
inductive StepCase (w : Joint) : Action → Prop
  | called (os a) (hcan : w.CanCall os a) : StepCase w (.call os a)
  | answered (a i) (hi : w.input a = some i) (h : Answered w (w.step a) i) : StepCase w a
  | idle (a air) (hi : w.input a = none) (h : (w.step a).client = { w.client with sockets.air := air }) : StepCase w a

theorem step_cases (w : Joint) (a : Action) : StepCase w a := by
  cases hi : w.input a with
  | some i => exact .answered a i hi (step_of_input hi)
  | none =>
    cases a with
    | call os a =>
      by_cases hcan : w.CanCall os a
      · exact .called os a hcan
      · exact .idle _ w.client.sockets.air hi (by rw [Joint.step, if_neg hcan])
    | serve c env t stamp =>
      have hr : takeItem c w.client.sockets.up = none := Option.map_eq_none_iff.mp hi
      exact .idle _ w.client.sockets.air hi (by rw [Joint.step, hr])
    | arrive n env t =>
      have hd : w.client.sockets.air[n]? = none := Option.map_eq_none_iff.mp hi
      exact .idle _ w.client.sockets.air hi (by rw [Joint.step, hd])
    | lose n => exact .idle _ _ hi rfl
    | other i =>
      have hother : ¬ w.IsOther i.2 := by
        intro hother
        rw [input, if_pos hother] at hi
        cases hi
      exact .idle _ w.client.sockets.air hi (by rw [Joint.step, if_neg hother])

theorem taken_step (w : Joint) (a : Action) : w.taken ⊆ (w.step a).taken := by
  cases a with
  | call os a =>
    rw [Joint.step]
    split
    · exact List.subset_append_left _ _
    · exact fun _ hm => hm
  | other i =>
    rw [Joint.step]
    split
    · exact List.subset_append_left _ _
    · exact fun _ hm => hm
  | lose n => exact fun _ hm => hm
  | _ =>
    rw [Joint.step]
    split <;> exact fun _ hm => hm

/-- A connection that is not new is the one the client had, and the server had not closed it if it has not now. -/
theorem step_conn {w : Joint} (hl : Linked w) {a : Action} (hk : (w.step a).client.sockets.conn ∈ w.taken) :
    (w.step a).client.sockets.conn = w.client.sockets.conn ∧
      ((w.step a).client.sockets.closed = false → w.client.sockets.closed = false) := by
  cases step_cases w a with
  | called os a hcan =>
    have hattached := hl.attached.answered os
    have houtcome := run_outcome (a := a) (c := { w.client with sockets.os := os }) hattached.welcomes hattached.udp hcan.1
    rw [Joint.step, if_pos hcan] at hk ⊢
    dsimp only at hk ⊢
    cases houtcome with
    | steady hsteady => exact ⟨hsteady.conn, fun h => hsteady.closed.symm.trans h⟩
    | hung hhung => exact absurd (hhung.conn ▸ hk) hl.numbered.zero
    | opened hopened h0 game flags ha =>
      subst ha
      exact absurd (hopened.conn ▸ hk) (hcan.2 _ (List.mem_singleton.mpr rfl))
  | answered _ i hi h =>
    obtain ⟨up, air, hs⟩ := h.sockets
    rw [hs]
    refine ⟨(receive_link _ _).1, fun hopen => eq_false_of_ne_true fun hclosed => ?_⟩
    rw [Link.receive_of_closed (w := { w.client.sockets with up := up, air := air }) hclosed] at hopen
    cases hclosed.symm.trans hopen
  | idle _ air hi h =>
    rw [h]
    exact ⟨rfl, id⟩

theorem Hears.step {w : Joint} (hl : Linked w) {buf : Bytes} (hlen : sizeofHeader ≤ buf.length) (h : Hears buf w.client) {a : Action}
    (hk : (w.step a).client.sockets.conn ∈ w.taken) : Hears buf (w.step a).client := by
  cases step_cases w a with
  | called os a hcan =>
    rw [Joint.step, if_pos hcan] at hk ⊢
    refine Hears.run (c := { w.client with sockets.os := os }) hlen h hcan.1 ?_ fun h0 => hl.numbered.zero (h0 ▸ hk)
    rintro game flags rfl
    -- a join goes to a new connection, or to none
    rcases join_cases game flags (c := { w.client with sockets.os := os }) hcan.1 with hhung | hopened
    · exact hl.numbered.zero (hhung.conn ▸ hk)
    · exact hcan.2 _ (List.mem_singleton.mpr rfl) (hopened.conn ▸ hk)
  | answered _ i hi hw => exact hw.hears h
  | idle _ air hi hw =>
    rw [hw]
    exact h

/-- A step of the server takes `p` out, while the client is in a session on its connection and stays there. -/
structure DepartsFrom (w : Joint) (i : Env × ServerRuntime.Input) (p : PeerId) : Prop where
  live : p ∈ w.server.clients
  gone : p ∉ (w.server.step i).clients
  session : ∃ q c, (w.server.step i).clients.lookup q = some c ∧ c.connId = w.client.sockets.conn

theorem makeBye_length (p : PeerId) : sizeofHeader ≤ (makeBye p).encode.length := by
  simp [Bye.encode, sizeofHeader]

/-- The Bye is under way, unless the connection is being closed. -/
theorem DepartsFrom.hears {w w' : Joint} {i : Env × ServerRuntime.Input} {p : PeerId} (h : DepartsFrom w i p) (hw : Answered w w' i)
    (hl : Linked w) (hk : ¬ KicksAmongOthers w.server i) (h0 : w.client.sockets.conn ≠ 0)
    (hopen : w'.client.sockets.closed = false) : Hears (makeBye p).encode w'.client := by
  obtain ⟨used, ho, -, htaken⟩ := hl.numbered.owned
  have hzero : 0 ∉ used := fun hm => hl.numbered.zero (htaken 0 (List.mem_append_left _ hm))
  have hall := (announcesAll_iff hl.numbered.wf ho hzero (j := (i, fun _ => true)) fun _ _ => rfl).mpr hk
  obtain ⟨q, c, hq, hc⟩ := h.session
  have hbye := (hall p h.live h.gone).byes q c hq
  rw [queued, admitted_of_room fun _ _ => rfl] at hbye
  have hframe : (makeBye p).encode ∈ framesTo w.client.sockets.conn (w.server.step i).outbound :=
    mem_framesTo.mpr ⟨_, hbye, rfl, hc, rfl⟩
  obtain ⟨up, air, hs⟩ := hw.sockets
  rw [hs] at hopen
  cases hclosed : w.client.sockets.closed with
  | true =>
    rw [Link.receive_of_closed (w := { w.client.sockets with up := up, air := air }) hclosed] at hopen
    cases hclosed.symm.trans hopen
  | false =>
    rcases Link.receive_cases (w := { w.client.sockets with up := up, air := air }) h0 hclosed (w.server.step i).outbound with
      ⟨-, he⟩ | ⟨frames, -, he⟩
    · rw [Hears, hs, he]
      exact .inr (List.mem_append_right _ hframe)
    · rw [he] at hopen
      cases hopen

/-- A departure in one of the actions, from the session that the client was in on connection `k`. -/
def Departed (w : Joint) (as : List Action) (k : ConnId) (p : PeerId) : Prop :=
  ∃ before a after i, as = before ++ a :: after ∧ (run Joint.step w before).input a = some i ∧
    DepartsFrom (run Joint.step w before) i p ∧ (run Joint.step w before).client.sockets.conn = k

theorem departed_concat {w : Joint} {as : List Action} {a : Action} {k : ConnId} {p : PeerId} (h : Departed w (as ++ [a]) k p) :
    Departed w as k p ∨ ∃ i, (run Joint.step w as).input a = some i ∧ DepartsFrom (run Joint.step w as) i p ∧
      (run Joint.step w as).client.sockets.conn = k := by
  obtain ⟨before, b, after, i, he, hi, hp, hk⟩ := h
  rcases List.eq_nil_or_concat after with rfl | ⟨after, c, rfl⟩
  · obtain ⟨rfl, hab⟩ := List.append_inj' he rfl
    cases hab
    exact .inr ⟨i, hi, hp, hk⟩
  · rw [List.concat_eq_append, ← List.cons_append, ← List.append_assoc] at he
    obtain ⟨rfl, -⟩ := List.append_inj' he rfl
    exact .inl ⟨before, b, after, i, rfl, hi, hp, hk⟩

def KicksNobody (w : Joint) (a : Action) : Prop := ∀ i ∈ w.input a, ¬ KicksAmongOthers w.server i

/-- The Byes of connection `k` are handled or under way as long as the client has it open. -/
def ToldOn (w : Joint) (k : ConnId) (p : PeerId) : Prop :=
  k ∈ w.taken ∧ (w.client.sockets.conn = k → w.client.sockets.closed = false → Hears (makeBye p).encode w.client)

theorem ToldOn.step {w : Joint} (hl : Linked w) {k : ConnId} {p : PeerId} (h : ToldOn w k p) (a : Action) : ToldOn (w.step a) k p := by
  refine ⟨taken_step w a h.1, fun hconn hopen => ?_⟩
  have hk : (w.step a).client.sockets.conn ∈ w.taken := hconn.symm ▸ h.1
  obtain ⟨hsame, hclosed⟩ := step_conn hl hk
  exact Hears.step hl (makeBye_length p) (h.2 (hsame.symm.trans hconn) (hclosed hopen)) hk

theorem toldOn_departed (b : Startup) (settings : Settings) {as : List Action}
    (ha : AllSteps Joint.step KicksNobody (start b settings) as) : Linked (run Joint.step (start b settings) as) ∧
      ∀ k p, k ≠ 0 → Departed (start b settings) as k p → ToldOn (run Joint.step (start b settings) as) k p := by
  induction as using List.reverseRecOn with
  | nil =>
    refine ⟨linked_start b settings, fun k p h0 ⟨before, a, after, i, he, _⟩ => ?_⟩
    cases before <;> cases he
  | append_singleton as a ih =>
    obtain ⟨has, hlast, -⟩ := (allSteps_append as [a]).mp ha
    obtain ⟨hlinked, htold⟩ := ih has
    rw [run_concat]
    refine ⟨hlinked.step a, fun k p h0 h => ?_⟩
    rcases departed_concat h with h | ⟨i, hi, hp, rfl⟩
    · exact (htold k p h0 h).step hlinked a
    · refine ⟨taken_step _ a (hlinked.numbered.mine (hlinked.numbered.conn_mine h0)), fun _ hopen => ?_⟩
      exact hp.hears (step_of_input hi) hlinked (hlast i hi) h0 hopen

/-- A server whose queue takes its pushes announces its departures in exactly the steps that kick nobody among others;
and where no step does, a client with no TCP message under way has been told of everybody who left the session it is in. -/
theorem departures_announced (b : Startup) :
    (∀ is, FreshAccepts is → ∀ j, Room (runFrom b is) j →
      (AnnouncesAll (runFrom b is) j ↔ ¬ KicksAmongOthers (runFrom b is) j.1)) ∧
    ∀ settings as, AllSteps Joint.step KicksNobody (start b settings) as → Settled (run Joint.step (start b settings) as) →
      ∀ k p, k ≠ 0 → Departed (start b settings) as k p → (run Joint.step (start b settings) as).client.sockets.conn = k →
        p ∈ toldLeft (run Joint.step (start b settings) as).client := by
  constructor
  · intro is hf j hroom
    exact announcesAll_iff (runFrom_reachable b is).wellFormed (run_owned b hf) hf.2 hroom
  · intro settings as ha hs k p h0 hp hconn
    rcases ((toldOn_departed b settings ha).2 k p h0 hp).2 hconn hs.stream with h | h
    · exact h
    · rw [hs.down] at h
      cases h

/-- The second of two players says Bye. -/
def guestBye : QueuedInput := (frameAt 2 2 (makeBye 2).encode, fun _ => true)

theorem departures_announced_guestBye : AnnouncesAll (runFrom freshStart twoJoins) guestBye ∧ 2 ∈ (runFrom freshStart twoJoins).clients ∧
    2 ∉ ((runFrom freshStart twoJoins).step guestBye.1).clients := by
  refine ⟨((departures_announced freshStart).1 twoJoins (by unfold FreshAccepts; decide) guestBye fun _ _ => rfl).mpr ?_, ?_, ?_⟩
  · rintro ⟨cmdLine, p, q, hi, -⟩
    cases hi
  · decide +kernel
  · decide +kernel

/-- The second of two players is kicked. -/
def guestKick : QueuedInput := ((plainEnv, .admin (ascii "kick 2")), fun _ => true)

/-- The first one is not told. -/
theorem not_announcesAll_guestKick : ¬ AnnouncesAll (runFrom freshStart twoJoins) guestKick := by
  refine not_announcesAll_kick (runFrom_reachable freshStart twoJoins).wellFormed (fun _ _ => rfl)
    ⟨ascii "kick 2", 2, 1, rfl, ?_, ?_, ?_⟩
  · decide +kernel
  · decide +kernel
  · decide

end Joint
end CommonwealthMP
