import CommonwealthMP.ScreenOrigins

/-! # The poses a bound client is shown

The server keeps one pose of each client. What a bound client has been sent of another is that pose, unless it was out
of reach when the other sent it, or the other has only just joined. -/
namespace CommonwealthMP
open ByteLayout Binary32 OrderedTables SessionTable

namespace ServerRuntime

/-- A client is bound to the address after a step if it was before, or by the step. -/
theorem bound_step {s : ServerRuntime} (hw : WellFormed s) (i : Env × Input) {p : PeerId} {c' : Client}
    (hl : (s.step i).clients.lookup p = some c') (hb : c'.udpBound = true) :
    (∃ c, s.clients.lookup p = some c ∧ c.udpBound = true ∧ c.udpAddr = c'.udpAddr) ∨
      ∃ ev t, i.2 = .inbound ev t ∧ ev.kind = .UdpDatagram ∧ acceptedBind s.ready ev.bytes = some p ∧ ev.addr = c'.udpAddr := by
  have hudp : (endpointOf c').udp = some (addrKey c'.udpAddr) := endpointOf_udp.mpr ⟨hb, rfl⟩
  rcases (step_simulates hw i).steps.address_cases (liveOf_some hl) hudp with ⟨e, he, ha⟩ | hbind
  · obtain ⟨c, hc, rfl⟩ := liveOf_eq_some.mp he
    obtain ⟨hcb, hca⟩ := endpointOf_udp.mp ha
    exact .inl ⟨c, hc, hcb, addrKey_injective hca⟩
  · obtain ⟨-, ev, t, hi, hk, hacc, ha⟩ := stepMoves_bind hbind
    exact .inr ⟨ev, t, hi, hk, hacc, addrKey_injective ha⟩

/-- `viewer` is bound to `addr`, and `pose` is what the server has of `peer`. -/
structure View where
  viewer : PeerId
  addr : SockAddr
  peer : PeerId
  pose : PlayerPose

namespace View

def Holds (s : ServerRuntime) (v : View) : Prop :=
  (∃ c, s.clients.lookup v.viewer = some c ∧ c.udpBound = true ∧ c.udpAddr = v.addr) ∧
    ∃ d, s.clients.lookup v.peer = some d ∧ d.lastPose = v.pose

def datagram (v : View) : OutboundCmd := { kind := .UdpSend, addr := v.addr, bytes := v.pose.encode }

/-- How a step comes to set up a view. -/
inductive Arises (s : ServerRuntime) (i : Env × Input) (v : View) : Prop
  /-- The pose is sent to the viewer. -/
  | shown (h : v.datagram ∈ (s.step i).outbound)
  /-- The peer has sent it, and the viewer is out of reach. -/
  | away (ev t client header c) (hs : DatagramStep s.ready i.2 ev t v.peer client)
      (ho : openFrame ev.bytes = some (header, .PlayerPose)) (hp : v.pose = relayedPose client ev.bytes)
      (hl : s.clients.lookup v.viewer = some c)
      (hfar : v.pose.inInterest true c.lastPose c.havePose s.cfg.interestUu = false)
  /-- The peer joins; nobody is told where it was put. -/
  | placed (ev t pending header) (hs : PendingStep s.ready i.2 ev t pending) (ha : Admitted s.ready pending ev.bytes t header)
      (hnew : v.peer ∉ s.clients) (hid : v.peer = s.nextPeer) (hp : v.pose = joiningPose s (readHello ev.bytes))

/-- A datagram with some pose of the peer. -/
def Concerns (v : View) (cmd : OutboundCmd) : Prop :=
  cmd.kind = .UdpSend ∧ u8At cmd.bytes 4 = Msg.PlayerPose.code ∧ (PlayerPose.decode cmd.bytes).peerId = v.peer

end View

theorem encode_pose_ne_nil (pose : PlayerPose) : pose.encode ≠ [] := fun h => by
  have := congrArg List.length h
  simp [PlayerPose.encode] at this

theorem udpBind_shows {s : ServerRuntime} (hw : WellFormed s) (hposed : Posed s) {ev : InboundEvent} {p q : PeerId} (hne : p ≠ q)
    {d : Client} (hq : s.clients.lookup q = some d) (ha : acceptedBind s.ready ev.bytes = some p) (t : Time) :
    ({ kind := .UdpSend, addr := ev.addr, bytes := d.lastPose.encode } : OutboundCmd) ∈
      (udpBind s.ready.countDatagram ev.bytes ev.addr t).outbound := by
  obtain ⟨-, -, hid, client, hl, h0, ht⟩ := acceptedBind_some.mp ha
  subst hid
  have hpeer : client.peerId = (UdpBind.decode ev.bytes).peerId := hw.keyed _ client hl
  rw [udpBind_eq (s := s.ready.countDatagram) hl (by rw [not_or]; exact ⟨h0, not_not.mpr ht⟩)]
  refine List.mem_append_right _ (mem_toOthers.mpr ⟨q, d, ?_, hpeer ▸ hne.symm, ?_⟩)
  · exact (Table.lookup_modify_ne _ _ hne.symm).trans hq
  · rw [if_pos (hposed.have_pose q d hq), sendUdp, if_pos rfl, sendUdpAddr, if_neg (encode_pose_ne_nil _)]
    exact List.mem_singleton_self _

theorem step_pose {s : ServerRuntime} (hw : WellFormed s) {i : Env × Input} {ev : InboundEvent} {t : Time} {p : PeerId}
    {client : Client} {header : Header} (hs : DatagramStep s.ready i.2 ev t p client)
    (ho : openFrame ev.bytes = some (header, .PlayerPose)) :
    s.step i = udpPlayerPose (s.ready.countDatagram.seen p t) p { client with lastSeen := t } ev.bytes t := by
  obtain ⟨env, i⟩ := i
  have hi : i = .inbound ev t := hs.input
  subst hi
  have hstep : s.step (env, .inbound ev t) = handleUdpPacket s.ready ev.bytes ev.addr t := by
    simp only [ServerRuntime.step, handle, applyInbound, hs.kind]
  have hlen : sizeofPlayerPose ≤ ev.bytes.length := Joint.openFrame_length ho fun _ => of_decide_eq_true
  rw [hstep]
  exact @Angles.step_playerPose s hw.ok env ev.addr ev.bytes t p client header ho hlen hs.bound hs.live

/-- A pose that is taken in is the one the server has of its sender. -/
theorem lastPose_step {s : ServerRuntime} (hw : WellFormed s) {i : Env × Input} {ev : InboundEvent} {t : Time} {p : PeerId}
    {client : Client} {header : Header} (hs : DatagramStep s.ready i.2 ev t p client)
    (ho : openFrame ev.bytes = some (header, .PlayerPose)) (hr : (allowRate s.poseRates (rateKey client) t 30).1 = true) {d' : Client}
    (hd : (s.step i).clients.lookup p = some d') : d'.lastPose = relayedPose client ev.bytes := by
  rw [step_pose hw hs ho] at hd
  have stored {s' : ServerRuntime} (h : s'.clients = (s.clients.modify p fun c => { c with lastSeen := t }).modify p fun c =>
      { c with posesIn := c.posesIn + 1, lastPose := relayedPose client ev.bytes, havePose := true })
      (hd : s'.clients.lookup p = some d') : d'.lastPose = relayedPose client ev.bytes := by
    rw [h, Table.modify_modify, Table.lookup_modify, if_pos rfl] at hd
    obtain ⟨c, -, rfl⟩ := Option.map_eq_some_iff.mp hd
    rfl
  rcases udpPlayerPose_cases (s.ready.countDatagram.seen p t) p { client with lastSeen := t } ev.bytes t with
    ⟨hlimited, -⟩ | ⟨-, _, ⟨-, he⟩ | ⟨-, world, -, he⟩⟩
  · exact absurd (hlimited.symm.trans hr) Bool.false_ne_true
  · exact stored (by rw [he]; rfl) hd
  · exact stored (by rw [he]; rfl) hd

/-- A view that a step ends with was there before it, or arises in it. -/
theorem view_step {s : ServerRuntime} (hr : Reachable s) (i : Env × Input) {v : View} (hne : v.viewer ≠ v.peer)
    (h : v.Holds (s.step i)) : v.Holds s ∨ v.Arises s i := by
  have hw := hr.wellFormed
  obtain ⟨⟨c', hc', hb, ha⟩, d', hd', hp⟩ := h
  have hpose := step_poseCase hw hr.posed i v.peer d' hd'
  rcases bound_step hw i hc' hb with ⟨c, hc, hcb, hca⟩ | ⟨ev, t, hi, hk, hacc, haddr⟩
  · rcases hpose with ⟨d, hd, hpose, -⟩ | ⟨hset, -⟩
    · exact .inl ⟨⟨c, hc, hcb, hca.trans ha⟩, d, hd, hpose.symm.trans hp⟩
    · right
      rw [hp] at hset
      cases hset with
      | placed ev t pending header hs hadm hnew hid hpose => exact .placed ev t pending header hs hadm hnew hid hpose
      | sent ev t client header hs ho hrate hpose =>
        by_cases hin : v.pose.inInterest true c.lastPose c.havePose s.cfg.interestUu = true
        · refine .shown ?_
          have hpeer : client.peerId = v.peer := hw.keyed v.peer client hs.live
          have hviewer : (s.ready.countDatagram.seen v.peer t).clients.lookup v.viewer = some c :=
            (Table.lookup_modify_ne _ _ hne).trans hc
          rw [hpose] at hin
          have hmem := Angles.mem_udpPlayerPose (s := s.ready.countDatagram.seen v.peer t) { client with lastSeen := t } ev.bytes
            hrate hpeer hne hviewer hcb hin
          have hdata : relayedPose client ev.bytes =
              { PlayerPose.decode ev.bytes with peerId := v.peer, header := fillHeader .PlayerPose 56 } := by
            rw [relayedPose, hpeer]
          rw [View.datagram, hpose, hdata, ← ha, ← hca, step_pose hw hs ho]
          exact hmem
        · exact .away ev t client header c hs ho hpose hc (Bool.not_eq_true _ ▸ hin)
  · -- the viewer is bound in this step, and its datagram sets no pose
    right
    rcases hpose with ⟨d, hd, hpose, -⟩ | ⟨hset, -⟩
    · refine .shown ?_
      obtain ⟨env, i⟩ := i
      dsimp only at hi
      subst hi
      have hstep : s.step (env, .inbound ev t) = handleUdpPacket s.ready ev.bytes ev.addr t := by
        simp only [ServerRuntime.step, handle, applyInbound, hk]
      have hcase := handleUdpPacket_cases (s := s.ready) hw.ok ev.bytes ev.addr t
      rw [View.datagram, ← ha, ← haddr, ← hp, hpose, hstep]
      generalize handleUdpPacket s.ready ev.bytes ev.addr t = s' at hcase ⊢
      have other (hno : acceptedBind s.ready ev.bytes = none) : False := by
        rw [hacc] at hno
        cases hno
      cases hcase with
      | bind id ha => exact udpBind_shows hw hr.posed hne hd hacc t
      | ignored badHeaders hno => exact (other hno).elim
      | short id client hno hu hl => exact (other hno).elim
      | playerPose id client header hno hu hl ho => exact (other hno).elim
      | actorPose id client header hno hu hl ho => exact (other hno).elim
    · cases hset with
      | placed ev' t' pending header hs =>
        have := hs.input
        rw [hi] at this
        cases this
        rw [hs.kind] at hk
        cases hk
      | sent ev' t' client header hs =>
        have := hs.input
        rw [hi] at this
        cases this
        have hno := hs.noBind
        rw [hacc] at hno
        cases hno

/-- No step sends another pose of the peer than the one it ends with. -/
theorem concerns_step {s : ServerRuntime} (hr : Reachable s) (i : Env × Input) {v : View} (hs : v.Holds s) (hs' : v.Holds (s.step i))
    {cmd : OutboundCmd} (hc : cmd ∈ (s.step i).outbound) (hv : v.Concerns cmd) : cmd.bytes = v.pose.encode := by
  have hw := hr.wellFormed
  obtain ⟨hk, htype, hpeer⟩ := hv
  obtain ⟨-, d, hd, hp⟩ := hs
  obtain ⟨-, d', hd', hp'⟩ := hs'
  have htcp {c : Client} {data : Bytes} (hc : cmd = toTcp c data) : False := by
    rw [hc] at hk
    cases hk
  cases step_mail hw i hc with
  | own h => exact absurd hk h.notUdp
  | greeting q c hl _ hb =>
    rw [hb, Angles.decode_encode_playerPose, hr.posed.peerId q c hl] at hpeer
    subst hpeer
    rw [hd] at hl
    cases hl
    rw [hb, hp]
  | console cmdLine text q c hi hsay hl hc => exact (htcp hc).elim
  | relayed ev t p client header type q c data hs ho hl h hc => exact (htcp hc).elim
  | pose ev t p client header q c hstep ho hrate hl hq hc =>
    have hbytes : cmd.bytes = (relayedPose client ev.bytes).encode := by rw [hc]; rfl
    rw [hbytes, Angles.decode_encode_playerPose] at hpeer
    have hid : client.peerId = p := hw.keyed p client hstep.live
    have hpv : p = v.peer := hid.symm.trans hpeer
    rw [hbytes, ← hp', lastPose_step hw hstep ho hrate (hpv ▸ hd')]
  | actor ev t p client header q c hstep ho hl hq hhost hc =>
    rw [hc] at htype
    have hactor : u8At (toUdp c (relayedActor ev.bytes).encode).bytes 4 = Msg.ActorPose.code := u8At_encode_type _ _
    rw [hactor] at htype
    exact absurd htype (by decide)

/-- The view arose in some step of the run and has stood since; no other pose of the peer was sent after that step. -/
def Explained (b : Startup) (is : List (Env × Input)) (v : View) : Prop :=
  ∃ before i after, is = before ++ i :: after ∧ v.Arises (runFrom b before) i ∧
    (∀ mid, mid <+: after → v.Holds (runFrom b (before ++ i :: mid))) ∧
    ∀ mid j, mid ++ [j] <+: after → ∀ cmd ∈ ((runFrom b (before ++ i :: mid)).step j).outbound,
      v.Concerns cmd → cmd.bytes = v.pose.encode

/-- A bound client was sent the pose the server has of another, and no other since, unless it was out of reach when the
other sent it or the other has not moved since it joined. -/
theorem poses_shown (b : Startup) (is : List (Env × Input)) {p q : PeerId} {c d : Client} (hne : p ≠ q)
    (hp : (runFrom b is).clients.lookup p = some c) (hb : c.udpBound = true) (hq : (runFrom b is).clients.lookup q = some d) :
    Explained b is ⟨p, c.udpAddr, q, d.lastPose⟩ := by
  let v : View := ⟨p, c.udpAddr, q, d.lastPose⟩
  have hv : v.Holds (runFrom b is) := ⟨⟨c, hp, hb, rfl⟩, d, hq, rfl⟩
  have hsince := StepRuns.held_since (I := Reachable) (P := fun _ _ => True) (H := fun s (_ : Unit) => v.Holds s)
    (B := fun s i _ => v.Arises s i) (x := ()) (fun s i h _ => h.step i) (fun s i _ h _ hv => view_step h i hne hv)
    (⟨b, [], rfl⟩ : Reachable b.runtime) (StepRuns.allSteps_of_forall fun _ _ => trivial) hv
  rcases hsince with hall | ⟨before, i, after, rfl, ha, hmid⟩
  · obtain ⟨⟨c, hc, -⟩, -⟩ := hall [] List.nil_prefix
    simp [StepRuns.run, Startup.runtime, initial] at hc
  · refine ⟨before, i, after, rfl, ha, hmid, fun mid j hm cmd hc hcon => ?_⟩
    have hbefore := hmid mid ((List.prefix_append mid [j]).trans hm)
    have hafter := hmid (mid ++ [j]) hm
    rw [← List.cons_append, ← List.append_assoc, StepRuns.run_concat] at hafter
    exact concerns_step ⟨b, _, rfl⟩ j hbefore hafter hc hcon

/-- The first player binds when the second has joined. -/
theorem poses_shown_firstBinds : ∃ v : View, v.viewer = 1 ∧ v.peer = 2 ∧ Explained freshStart firstBinds v := by
  have hone : ((runFrom freshStart firstBinds).clients.lookup 1).map (·.udpBound) = some true := by decide +kernel
  have htwo : ((runFrom freshStart firstBinds).clients.lookup 2).isSome = true := by decide +kernel
  obtain ⟨c, hc, hb⟩ := Option.map_eq_some_iff.mp hone
  obtain ⟨d, hd⟩ := Option.isSome_iff_exists.mp htwo
  exact ⟨_, rfl, rfl, poses_shown freshStart firstBinds (by decide) hc hb hd⟩

end ServerRuntime
end CommonwealthMP
