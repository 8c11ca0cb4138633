import CommonwealthMP.ClientFields

/-! # Where the pose of a client comes from

The last pose the server has of a client is one the client has sent from the address it is bound
to, or the place it was put at when it joined. -/
namespace CommonwealthMP
open ByteLayout Binary32 OrderedTables SessionTable
namespace ServerRuntime

def poseOf (c : Client) : PlayerPose × Bool := (c.lastPose, c.havePose)

theorem lasting_pose : Lasting poseOf where
  conn _ _ := rfl
  unbound c := by
    unfold Client.unbound
    split <;> rfl
  token _ _ := rfl
  blob c type blob := by
    unfold Client.storeBlob
    split <;> rfl

theorem retainsPoses_seen (s : ServerRuntime) (id : PeerId) (t : Time) : Retains poseOf s (s.seen id t) := .modify rfl fun _ _ => rfl

/-- Where a client that joins is put: where its player was last, or at the spawn. -/
def joiningPose (s : ServerRuntime) (hello : Hello) : PlayerPose :=
  let rec_ := helloRecord s hello
  if rec_.havePose then makePose s.nextPeer rec_.locationFormId rec_.x rec_.y rec_.z rec_.yaw
  else makePose s.nextPeer s.world.spawnLocation s.world.spawnX s.world.spawnY s.world.spawnZ ⟨0⟩

/-- The step sets the pose of `p`. -/
inductive SetsPose (s : ServerRuntime) (i : Env × Input) (p : PeerId) (pose : PlayerPose) : Prop
  | sent (ev t client header) (hs : DatagramStep s.ready i.2 ev t p client) (ho : openFrame ev.bytes = some (header, .PlayerPose))
      (hr : (allowRate s.poseRates (rateKey client) t 30).1 = true) (hp : pose = relayedPose client ev.bytes)
  | placed (ev t pending header) (hs : PendingStep s.ready i.2 ev t pending) (ha : Admitted s.ready pending ev.bytes t header)
      (hnew : p ∉ s.clients) (hid : p = s.nextPeer) (hp : pose = joiningPose s (readHello ev.bytes))

/-- Every client has a pose of its own. -/
structure Posed (s : ServerRuntime) : Prop where
  have_pose : ∀ q c, s.clients.lookup q = some c → c.havePose = true
  header : ∀ q c, s.clients.lookup q = some c → c.lastPose.header = fillHeader .PlayerPose 56
  peerId : ∀ q c, s.clients.lookup q = some c → c.lastPose.peerId = q

theorem Posed.ready {s : ServerRuntime} (h : Posed s) : Posed s.ready := ⟨h.have_pose, h.header, h.peerId⟩

theorem posed_initial (b : Startup) : Posed b.runtime := by
  constructor <;> intro q c h <;> simp [Startup.runtime, initial] at h

/-- After a step a client has the pose it had, or the one the step sets. -/
def PoseCase (s : ServerRuntime) (i : Env × Input) (s' : ServerRuntime) : Prop :=
  ∀ q c', s'.clients.lookup q = some c' →
    (∃ c, s.clients.lookup q = some c ∧ c'.lastPose = c.lastPose ∧ c'.havePose = c.havePose) ∨
      (SetsPose s i q c'.lastPose ∧ c'.havePose = true)

theorem poseCase_kept {s s' : ServerRuntime} {i : Env × Input} (h : Retains poseOf s.ready s') : PoseCase s i s' := by
  intro q c' hc
  obtain ⟨c, hl, hp⟩ := h q c' hc
  exact .inl ⟨c, hl, congrArg Prod.fst hp, congrArg Prod.snd hp⟩

theorem poseCase_admitted {s : ServerRuntime} (hposed : Posed s) {i : Env × Input} {ev : InboundEvent} {t : Time}
    {pending : PendingTcp} {header : Header} (hs : PendingStep s.ready i.2 ev t pending)
    (ha : Admitted s.ready pending ev.bytes t header) {s' : ServerRuntime}
    (h : s'.clients = (admitHello i.1 (s.ready.countHello pending t) pending (readHello ev.bytes) t).runtime.clients) :
    PoseCase s i s' := by
  have hhost : helloRequiresHost (readHello ev.bytes) = true → (s.ready.countHello pending t).world.hostPeerId ≠ 0 :=
    fun hr => hostGate_hostPeerId (ha.host hr)
  cases hf : findByKey (s.ready.countHello pending t) (helloKey (readHello ev.bytes)) with
  | some e =>
    obtain ⟨id, client⟩ := e
    have hl : (enterRecord (s.ready.countHello pending t) (readHello ev.bytes)).clients.lookup id = some client :=
      (findByKey_some hf).1
    rw [admitHello_reconnect i.1 hf] at h
    dsimp only at h
    rw [(completeJoin_clients _ _ _ _).1, softReconnect_eq hl] at h
    refine poseCase_kept (Retains.modify h fun c hc => ?_)
    -- a client that is there has a pose, so the record's is not taken
    have hpose := lasting_pose.unbound c
    have hh : (Client.unbound c).havePose = true := (congrArg Prod.snd hpose).trans (hposed.have_pose id c hc)
    rw [← hpose, poseOf, reconnectedClient, hh]
    simp [poseOf, hh]
  | none =>
    intro q c' hc
    rw [h, admitHello_join i.1 hf hhost] at hc
    dsimp only at hc
    rw [(completeJoin_clients _ _ _ _).1] at hc
    replace hc : (s.clients.emplace i.1.placement s.nextPeer (joiningClient
      (enterRecord (s.ready.countHello pending t) (readHello ev.bytes)) pending (readHello ev.bytes)
        (helloRecord (s.ready.countHello pending t) (readHello ev.bytes)) t)).lookup q = some c' := hc
    by_cases hm : s.nextPeer ∈ s.clients
    · rw [Table.emplace_of_mem _ _ hm] at hc
      exact .inl ⟨c', hc, rfl, rfl⟩
    · rw [Table.lookup_emplace _ _ hm] at hc
      split at hc
      · rename_i hq
        cases hc
        exact .inr ⟨.placed ev t pending header hs ha (hq ▸ hm) hq rfl, rfl⟩
      · exact .inl ⟨c', hc, rfl, rfl⟩

theorem poseCase_datagram {s : ServerRuntime} (hw : WellFormed s) {i : Env × Input} {ev : InboundEvent} {t : Time}
    (hi : i.2 = .inbound ev t) (hev : ev.kind = .UdpDatagram) : PoseCase s i (handleUdpPacket s.ready ev.bytes ev.addr t) := by
  have hcase := handleUdpPacket_cases (s := s.ready) hw.ok ev.bytes ev.addr t
  generalize handleUdpPacket s.ready ev.bytes ev.addr t = s' at hcase ⊢
  cases hcase with
  | bind id ha =>
    obtain ⟨-, -, hid, client, hl, h0, ht⟩ := acceptedBind_some.mp ha
    subst hid
    rw [udpBind_eq (s := s.ready.countDatagram) hl (by rw [not_or]; exact ⟨h0, not_not.mpr ht⟩)]
    exact poseCase_kept (.modify rfl fun c _ => lasting_pose.unbound c)
  | ignored badHeaders ha => exact poseCase_kept (.of_eq rfl)
  | short id client ha hu hl => exact poseCase_kept (retainsPoses_seen _ _ _)
  | actorPose id client header ha hu hl ho =>
    rcases udpActorPose_cases (s.ready.countDatagram.seen id t) { client with lastSeen := t } ev.bytes with he | ⟨_, -, he⟩
    · rw [he]
      exact poseCase_kept (retainsPoses_seen _ _ _)
    · rw [he]
      exact poseCase_kept (retainsPoses_seen _ _ _)
  | playerPose id client header ha hu hl ho =>
    have stored {s' : ServerRuntime} (hr : (allowRate s.poseRates (rateKey client) t 30).1 = true)
        (h : s'.clients = (s.clients.modify id fun c => { c with lastSeen := t }).modify id fun c =>
        { c with posesIn := c.posesIn + 1, lastPose := relayedPose client ev.bytes, havePose := true }) : PoseCase s i s' := by
      intro q c' hc
      rw [h, Table.modify_modify, Table.lookup_modify] at hc
      split at hc
      · rename_i hq
        obtain ⟨c, hc, rfl⟩ := Option.map_eq_some_iff.mp hc
        exact .inr ⟨.sent ev t client header ⟨hi, hev, ha, hq ▸ hu, hq ▸ hl⟩ ho hr rfl, rfl⟩
      · exact .inl ⟨c', hc, rfl, rfl⟩
    rcases udpPlayerPose_cases (s.ready.countDatagram.seen id t) id { client with lastSeen := t } ev.bytes t with
      ⟨-, he⟩ | ⟨hr, _, ⟨-, he⟩ | ⟨-, world, -, he⟩⟩
    · rw [he]
      exact poseCase_kept (retainsPoses_seen _ _ _)
    · rw [he]
      exact stored hr rfl
    · rw [he]
      exact stored hr rfl

theorem step_poseCase {s : ServerRuntime} (hw : WellFormed s) (hposed : Posed s) (i : Env × Input) : PoseCase s i (s.step i) := by
  cases step_retainCase lasting_pose hw i with
  | kept h _ _ => exact poseCase_kept h
  | frame ev t p client hs h =>
    refine poseCase_kept (Retains.trans ?_ h)
    split
    · exact retainsPoses_seen _ _ _
    · exact .of_eq rfl
  | datagram ev t hi hev h =>
    rw [h]
    exact poseCase_datagram hw hi hev
  | admitted ev t pending header ps hs ha he h => exact poseCase_admitted hposed hs ha (by rw [h, he])

theorem SetsPose.own {s : ServerRuntime} (hw : WellFormed s) {i : Env × Input} {p : PeerId} {pose : PlayerPose}
    (h : SetsPose s i p pose) : pose.header = fillHeader .PlayerPose 56 ∧ pose.peerId = p := by
  cases h with
  | sent ev t client header hs ho hr hp =>
    rw [hp]
    exact ⟨rfl, hw.keyed p client hs.live⟩
  | placed ev t pending header hs ha hnew hid hp =>
    rw [hp, hid]
    unfold joiningPose
    dsimp only
    split <;> exact ⟨rfl, rfl⟩

theorem Posed.step {s : ServerRuntime} (hw : WellFormed s) (h : Posed s) (i : Env × Input) : Posed (s.step i) := by
  have hcase := step_poseCase hw h i
  constructor
  · intro q c' hc
    rcases hcase q c' hc with ⟨c, hl, -, hh⟩ | ⟨-, hh⟩
    · rw [hh]
      exact h.have_pose q c hl
    · exact hh
  · intro q c' hc
    rcases hcase q c' hc with ⟨c, hl, hp, -⟩ | ⟨hset, -⟩
    · rw [hp]
      exact h.header q c hl
    · exact (hset.own hw).1
  · intro q c' hc
    rcases hcase q c' hc with ⟨c, hl, hp, -⟩ | ⟨hset, -⟩
    · rw [hp]
      exact h.peerId q c hl
    · exact (hset.own hw).2

theorem Reachable.posed {s : ServerRuntime} (h : Reachable s) : Posed s := by
  have hboth := h.induction (I := fun s => WellFormed s ∧ Posed s) (fun b => ⟨wellFormed_initial b, posed_initial b⟩)
    fun _ i h => ⟨h.1.step i, h.2.step h.1 i⟩
  exact hboth.2

def HasPose (s : ServerRuntime) (x : PeerId × PlayerPose) : Prop := ∃ c, s.clients.lookup x.1 = some c ∧ c.lastPose = x.2

theorem hasPose_step {s : ServerRuntime} (hr : Reachable s) (i : Env × Input) {x : PeerId × PlayerPose} (h : HasPose (s.step i) x) :
    HasPose s x ∨ SetsPose s i x.1 x.2 := by
  obtain ⟨c', hc', hx⟩ := h
  rcases step_poseCase hr.wellFormed hr.posed i x.1 c' hc' with ⟨c, hl, hp, -⟩ | ⟨hset, -⟩
  · exact .inl ⟨c, hl, hp.symm.trans hx⟩
  · exact .inr (hx ▸ hset)

/-- The server sends no datagrams but poses. -/
theorem Mail.udp {s : ServerRuntime} (hp : Posed s) {i : Env × Input} {cmd : OutboundCmd} (h : Mail s i cmd)
    (hk : cmd.kind = .UdpSend) : u8At cmd.bytes 4 = Msg.PlayerPose.code ∨ u8At cmd.bytes 4 = Msg.ActorPose.code := by
  cases h with
  | own h => exact absurd hk h.notUdp
  | greeting q c hl _ hb =>
    left
    rw [hb, PlayerPose.encode, u8At_encode_type, hp.header q c hl]
    rfl
  | console cmdLine text q c hi hsay hl hc => rw [hc] at hk; cases hk
  | relayed ev t p client header type q c data hs ho hl h hc => rw [hc] at hk; cases hk
  | pose ev t p client header q c hs ho hr hl hq hc =>
    left
    rw [hc]
    exact u8At_encode_type _ _
  | actor ev t p client header q c hs ho hl hq hp hc =>
    right
    rw [hc]
    exact u8At_encode_type _ _

end ServerRuntime
end CommonwealthMP
