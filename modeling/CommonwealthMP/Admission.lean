import CommonwealthMP.SessionInvariant

/-! # Admission: who gets in, and what a refusal leaves behind -/
namespace CommonwealthMP
open ByteLayout Binary32 OrderedTables SessionTable
namespace ServerRuntime

theorem pendingExit_some {s : ServerRuntime} {i : Env × Input} {exit : PendingExit} :
    pendingExit s i = some exit ↔ ∃ ev t pending, PendingStep s.ready i.2 ev t pending ∧
      (handlePendingMessage i.1 s.ready pending ev.bytes t).exit = exit := by
  obtain ⟨env, i⟩ := i
  unfold pendingExit pendingFrame
  constructor
  · intro h
    cases i with
    | inbound ev t =>
      dsimp only at h
      split at h
      · rename_i hk
        cases hf : frameTarget s.ready ev with
        | pending p =>
          rw [hf] at h
          exact ⟨ev, t, p, ⟨rfl, hk, hf⟩, Option.some.inj h⟩
        | client id client =>
          rw [hf] at h
          cases h
        | nobody =>
          rw [hf] at h
          cases h
      · cases h
    | _ => cases h
  · rintro ⟨ev, t, p, ⟨rfl, hk, hf⟩, rfl⟩
    simp only [hk, hf, if_true, Option.map_some]

/-- The exits of a refused frame: it is dropped or answered with a Reject. -/
def Refused : PendingExit → Prop
  | .dropped => True
  | .rejected _ => True
  | .rolledBack => True
  | _ => False

/-- What a refused frame may write: rate buckets, the counter of bad headers, and the logs of the step. -/
def OnlyCounted (s s' : ServerRuntime) : Prop :=
  s' = { s with
    queryRates := s'.queryRates, helloRates := s'.helloRates, badHeaders := s'.badHeaders
    outbound := s'.outbound, persist := s'.persist }

theorem step_pending {s : ServerRuntime} {i : Env × Input} {ev : InboundEvent} {t : Time} {pending : PendingTcp}
    (h : PendingStep s.ready i.2 ev t pending) : s.step i = handlePendingFrame i.1 s.ready pending ev.bytes t := by
  rw [ServerRuntime.step, h.input, handle]
  simp only [applyInbound, h.kind, h.target]

/-- With fresh accepts, no pending connection has id zero. -/
theorem pending_connId_ne_zero {b : Startup} {is : List (Env × Input)} (hf : FreshAccepts is) {p : PendingTcp}
    (hp : p ∈ (runFrom b is).pendingTcp) : p.connId ≠ 0 := by
  intro h0
  have hu := (run_owned b hf).pending_used (List.mem_map_of_mem hp)
  rw [h0] at hu
  exact hf.2 hu

theorem admitHello_exit (env : Env) {s : ServerRuntime} {hello : Hello}
    (hhost : helloRequiresHost hello = true → s.world.hostPeerId ≠ 0) (pending : PendingTcp) (t : Time) :
    ¬ Refused (admitHello env s pending hello t).exit := by
  cases hf : findByKey s (helloKey hello) with
  | some e =>
    obtain ⟨id, client⟩ := e
    rw [admitHello_reconnect env hf]
    exact not_false
  | none =>
    rw [admitHello_join env hf hhost]
    exact not_false

theorem Admitted.not_refused (env : Env) {s : ServerRuntime} {pending : PendingTcp} {buf : Bytes} {t : Time}
    {header : Header} (h : Admitted s pending buf t header) :
    ¬ Refused (admitHello env (s.countHello pending t) pending (readHello buf) t).exit := by
  have hhost : helloRequiresHost (readHello buf) = true → (s.countHello pending t).world.hostPeerId ≠ 0 :=
    fun hr => hostGate_hostPeerId (h.host hr)
  exact admitHello_exit env hhost pending t

/-- A refused frame on a pending connection changes nothing but rate buckets and the counter of
bad headers; a require-host join is never taken back. -/
theorem refused_frame_changes_nothing (b : Startup) (is : List (Env × Input)) (hf : FreshAccepts is) (i : Env × Input)
    (exit : PendingExit) (hx : pendingExit (runFrom b is) i = some exit) :
    exit ≠ .rolledBack ∧ (Refused exit → OnlyCounted (runFrom b is) ((runFrom b is).step i)) := by
  have hw := (runFrom_reachable b is).wellFormed
  obtain ⟨ev, t, pending, hs, rfl⟩ := pendingExit_some.mp hx
  rcases handlePendingMessage_cases i.1 (s := (runFrom b is).ready) hw.keyed hw.ok pending ev.bytes t with
    hu | ⟨header, ha, he⟩
  · refine ⟨?_, fun _ => ?_⟩
    · rcases hu.exit_eq with h | h | ⟨reason, h⟩ <;> rw [h] <;> simp
    · have hmem := (findPending_some (frameTarget_pending hs.target).2).1
      have hne := pending_connId_ne_zero hf hmem
      rw [step_pending hs, handlePendingFrame]
      dsimp only
      rw [hu.pending_eq, if_neg hne, OnlyCounted, hu.runtime]
      rfl
  · rw [he]
    have hn := ha.not_refused i.1
    refine ⟨fun hr => hn ?_, fun hr => absurd hr hn⟩
    rw [hr]
    trivial

/-- The Hello of a player in the main menu. -/
def menuHello : Bytes :=
  (makeHello (ascii "a") (ascii "a") false 0 ⟨0⟩ ⟨0⟩ 0 ⟨0⟩ ⟨0⟩ ⟨0⟩ false 0 0 []).encode

theorem refused_frame_changes_nothing_menuHello :
    PendingExit.rejected .NotInWorld ≠ .rolledBack ∧ (Refused (.rejected .NotInWorld) →
      OnlyCounted (runFrom freshStart [acceptAt 1 ⟨10, 0, 0, 1, 1000⟩])
        ((runFrom freshStart [acceptAt 1 ⟨10, 0, 0, 1, 1000⟩]).step (frameAt 1 0 menuHello))) :=
  refused_frame_changes_nothing freshStart _ (by unfold FreshAccepts; decide) _ _ (by decide +kernel)

/-- The gates a Hello passes, in terms of its fields. The host gate asks where the session has
its host, which is the place a host last reported by a Hello, a WorldSnapshot or a pose. -/
structure PassesGates (s : ServerRuntime) (header : Header) (hello : Hello) : Prop where
  protocol : hello.protocol = kProtocolVersion.toUInt32
  version : header.version = kProtocolVersion
  pluginVersion : hello.pluginVersion = kPluginVersion
  inWorld : hello.inWorld ≠ 0
  notBanned : sanitizePlayerKey (cString hello.playerKey) (ascii "player") ∉ s.bannedKeys
  password : s.cfg.password ≠ [] → cString hello.password = s.cfg.password
  modHash : s.sessionModHash ≠ 0 → hello.modHash = s.sessionModHash
  host : hello.flags &&& kHelloFlagRequireHost ≠ 0 → ∃ host, s.clients.lookup s.world.hostPeerId = some host ∧
    host.havePose = true ∧ s.world.hostLocation = kCommonwealthWorldspace

theorem contentGates_none {s : ServerRuntime} {header : Header} {hello : Hello}
    (h : contentGates s header hello = none) :
    (hello.protocol = kProtocolVersion.toUInt32 ∧ header.version = kProtocolVersion) ∧
      hello.pluginVersion = kPluginVersion ∧ hello.inWorld ≠ 0 ∧ helloKey hello ∉ s.bannedKeys ∧
      (s.cfg.password ≠ [] → cString hello.password = s.cfg.password) ∧
      (s.sessionModHash ≠ 0 → hello.modHash = s.sessionModHash) := by
  have gate : ∀ {p : Prop} [Decidable p] {r : RejectReason × Bytes} {rest : Option (RejectReason × Bytes)},
      (if p then some r else rest) = none → ¬ p ∧ rest = none := by
    intro p _ r rest hg
    split at hg
    · cases hg
    · exact ⟨‹_›, hg⟩
  unfold contentGates at h
  obtain ⟨hproto, h⟩ := gate h
  obtain ⟨hplugin, h⟩ := gate h
  obtain ⟨hworld, h⟩ := gate h
  obtain ⟨hban, h⟩ := gate h
  obtain ⟨-, h⟩ := gate h
  obtain ⟨hpw, h⟩ := gate h
  obtain ⟨hmod, -⟩ := gate h
  push Not at hproto hplugin hpw hmod
  exact ⟨hproto, hplugin, hworld, hban, fun hne => (hpw hne).symm, hmod⟩

theorem hostGate_none {s : ServerRuntime} (hw : WellFormed s) (h : hostGate s = (s.world, none)) :
    ∃ host, s.clients.lookup s.world.hostPeerId = some host ∧ host.havePose = true ∧
      s.world.hostLocation = kCommonwealthWorldspace := by
  have hworld := findHost_of_ok hw.keyed hw.ok
  obtain ⟨id, hid, hspec⟩ := findHost_spec s.clients s.world
  rcases hf : findHost s.clients s.world with ⟨live, world⟩
  rw [hf] at hworld hid hspec
  dsimp only at hworld hid hspec
  subst hworld
  rw [hostGate, hf] at h
  have hg := (Prod.mk.inj h).2
  split at hg
  · cases hg
  · rename_i hpose
    split at hg
    · cases hg
    · rename_i hloc
      push Not at hpose hloc
      cases live with
      | none => exact absurd rfl hpose.1
      | some host =>
        obtain ⟨hm, hp⟩ := hspec host rfl
        refine ⟨host, ?_, by simpa using hpose.1, hloc⟩
        have hhost : id = s.world.hostPeerId := (congrArg SessionWorld.hostPeerId hid).symm
        rw [← hhost, ← hp]
        exact hw.keyed.lookup hm

theorem Admitted.passesGates {s : ServerRuntime} (hw : WellFormed s) {pending : PendingTcp} {buf : Bytes} {t : Time}
    {header : Header} (h : Admitted s pending buf t header) : PassesGates s header (readHello buf) := by
  obtain ⟨⟨hproto, hversion⟩, hplugin, hworld, hban, hpw, hmod⟩ := contentGates_none h.content
  refine ⟨hproto, hversion, hplugin, hworld, hban, hpw, hmod, fun hr => hostGate_none hw (h.host ?_)⟩
  rw [helloRequiresHost, bne_iff_ne]
  exact hr

/-- The step handles a Hello frame on a pending connection that passes every gate. -/
def HelloStep (s : ServerRuntime) (i : Env × Input) : Prop :=
  ∃ ev t pending header, PendingStep s.ready i.2 ev t pending ∧ openFrame ev.bytes = some (header, .Hello) ∧
    sizeofHello ≤ ev.bytes.length ∧ PassesGates s header (readHello ev.bytes)

theorem admitted_of_exit {s : ServerRuntime} (hw : WellFormed s) {env : Env} {pending : PendingTcp} {buf : Bytes} {t : Time}
    {exit : PendingExit} (hx : (handlePendingMessage env s pending buf t).exit = exit)
    (he : (∃ id, exit = .reconnected id) ∨ ∃ id fresh, exit = .joined id fresh) :
    ∃ header, Admitted s pending buf t header ∧
      handlePendingMessage env s pending buf t = admitHello env (s.countHello pending t) pending (readHello buf) t := by
  rcases handlePendingMessage_cases env hw.keyed hw.ok pending buf t with hu | h
  · have hne : ¬ (exit = .dropped ∨ exit = .answered ∨ ∃ reason, exit = .rejected reason) := by
      rcases he with ⟨id, rfl⟩ | ⟨id, fresh, rfl⟩ <;> simp
    exact absurd (hx ▸ hu.exit_eq) hne
  · exact h

/-- A client that is new, or on a new connection, got there by an admitted Hello. -/
theorem helloStep_of_new {s : ServerRuntime} (hw : WellFormed s) {i : Env × Input} {id : PeerId} {c' : Client}
    (hc : (s.step i).clients.lookup id = some c')
    (hnew : ∀ c, s.clients.lookup id = some c → c.connId ≠ c'.connId) :
    ∃ ev t pending header, PendingStep s.ready i.2 ev t pending ∧ Admitted s.ready pending ev.bytes t header ∧
      handlePendingMessage i.1 s.ready pending ev.bytes t =
        admitHello i.1 (s.ready.countHello pending t) pending (readHello ev.bytes) t := by
  have hwr : WellFormed s.ready := ⟨hw.keyed, hw.ok⟩
  rcases (step_simulates hw i).steps.conn_origin (liveOf_some hc) with ⟨e, he, hconn⟩ | ⟨e, hm⟩ | ⟨c, tok, hm⟩
  · obtain ⟨c, hl, rfl⟩ := liveOf_eq_some.mp he
    exact absurd hconn (hnew c hl)
  · cases cause_of_mem hm with
    | join _ ev t pending fresh hs hx =>
      obtain ⟨header, ha, heq⟩ := admitted_of_exit hwr hx (.inr ⟨_, _, rfl⟩)
      exact ⟨ev, t, pending, header, hs, ha, heq⟩
  · cases cause_of_mem hm with
    | reconnect _ ev t pending hs hx =>
      obtain ⟨header, ha, heq⟩ := admitted_of_exit hwr hx (.inl ⟨_, rfl⟩)
      exact ⟨ev, t, pending, header, hs, ha, heq⟩

theorem handlePendingFrame_eq (env : Env) (s : ServerRuntime) (pending : PendingTcp) (buf : Bytes) (t : Time) :
    ∃ ps, handlePendingFrame env s pending buf t =
      { (handlePendingMessage env s pending buf t).runtime with pendingTcp := ps } := by
  unfold handlePendingFrame
  dsimp only
  split
  · exact ⟨_, rfl⟩
  · exact ⟨_, rfl⟩

/-- A step that adds a client leaves at most `maxPlayers` of them. -/
theorem size_le_maxPlayers {s : ServerRuntime} (hw : WellFormed s) {i : Env × Input} {id : PeerId}
    (hnew : id ∉ s.clients) (hmem : id ∈ (s.step i).clients) :
    ((s.step i).clients.size : ℤ) ≤ (s.step i).cfg.maxPlayers := by
  have hnone : s.clients.lookup id = none := AList.lookup_eq_none.mpr hnew
  obtain ⟨c', hc⟩ : ∃ c', (s.step i).clients.lookup id = some c' :=
    Option.isSome_iff_exists.mp (AList.lookup_isSome.mpr hmem)
  obtain ⟨ev, t, pending, header, hs, ha, heq⟩ := helloStep_of_new hw hc fun c hl => by rw [hnone] at hl; cases hl
  obtain ⟨ps, hframe⟩ := handlePendingFrame_eq i.1 s.ready pending ev.bytes t
  rw [step_pending hs, hframe, heq] at hmem ⊢
  have hhost : helloRequiresHost (readHello ev.bytes) = true → (s.ready.countHello pending t).world.hostPeerId ≠ 0 :=
    fun hr => hostGate_hostPeerId (ha.host hr)
  cases hf : findByKey (s.ready.countHello pending t) (helloKey (readHello ev.bytes)) with
  | some e =>
    obtain ⟨j, client⟩ := e
    have hl : (enterRecord (s.ready.countHello pending t) (readHello ev.bytes)).clients.lookup j = some client :=
      (findByKey_some hf).1
    rw [admitHello_reconnect i.1 hf] at hmem
    dsimp only at hmem
    rw [(completeJoin_clients _ _ _ _).1, softReconnect_eq hl] at hmem
    exact absurd (Table.mem_modify.mp hmem) hnew
  | none =>
    have hcap := ha.capacity
    rw [capacityGate] at hcap
    split at hcap
    · cases hcap
    · rename_i hfull
      have hroom : (s.clients.size : ℤ) < s.cfg.maxPlayers := by
        by_contra hle
        exact hfull ⟨by rw [show findByKey s.ready (helloKey (readHello ev.bytes)) = none from hf]; rfl, not_lt.mp hle⟩
      rw [admitHello_join i.1 hf hhost]
      dsimp only
      rw [(completeJoin_clients _ _ _ _).1, (completeJoin_clients _ _ _ _).2]
      have hle := Table.size_emplace_le i.1.placement (s.ready.countHello pending t).nextPeer
        (joiningClient (enterRecord (s.ready.countHello pending t) (readHello ev.bytes)) pending (readHello ev.bytes)
          (helloRecord (s.ready.countHello pending t) (readHello ev.bytes)) t) s.clients
      have hle' : ((s.clients.emplace i.1.placement (s.ready.countHello pending t).nextPeer
        (joiningClient (enterRecord (s.ready.countHello pending t) (readHello ev.bytes)) pending (readHello ev.bytes)
          (helloRecord (s.ready.countHello pending t) (readHello ev.bytes)) t)).size : ℤ) ≤ s.clients.size + 1 := by
        exact_mod_cast hle
      exact hle'.trans hroom

/-- Only a Hello on a pending connection that passes every gate adds a client or moves one to
another connection, and a client is only added where `maxPlayers` allows it. -/
theorem admission_sound (s : ServerRuntime) (hr : Reachable s) (i : Env × Input) :
    (∀ id c', (s.step i).clients.lookup id = some c' →
      (∀ c, s.clients.lookup id = some c → c.connId ≠ c'.connId) → HelloStep s i) ∧
    (∀ id, id ∉ s.clients → id ∈ (s.step i).clients → ((s.step i).clients.size : ℤ) ≤ (s.step i).cfg.maxPlayers) ∧
    (s.clients.size < (s.step i).clients.size → HelloStep s i) := by
  have hw := hr.wellFormed
  have hnew : ∀ id c', (s.step i).clients.lookup id = some c' →
      (∀ c, s.clients.lookup id = some c → c.connId ≠ c'.connId) → HelloStep s i := by
    intro id c' hc h
    obtain ⟨ev, t, pending, header, hs, ha, -⟩ := helloStep_of_new hw hc h
    have hwr : WellFormed s.ready := ⟨hw.keyed, hw.ok⟩
    have hp := ha.passesGates hwr
    exact ⟨ev, t, pending, header, hs, ha.frame, ha.size, { hp with }⟩
  refine ⟨hnew, fun id h h' => size_le_maxPlayers hw h h', fun hsize => ?_⟩
  obtain ⟨id, hmem, hnot⟩ := Table.exists_new_key hsize
  obtain ⟨c', hc⟩ := Option.isSome_iff_exists.mp (AList.lookup_isSome.mpr hmem)
  refine hnew id c' hc fun c hl => ?_
  rw [AList.lookup_eq_none.mpr hnot] at hl
  cases hl

theorem admission_sound_firstHello :
    HelloStep (runFrom freshStart [acceptAt 1 ⟨10, 0, 0, 1, 1000⟩]) (frameAt 1 0 (helloFrame (ascii "a"))) :=
  (admission_sound _ (runFrom_reachable freshStart _) _).2.2 (by decide +kernel)

/-- The live host's own pose is in the exterior. -/
def HostOutside (s : ServerRuntime) : Prop :=
  ∃ host, s.clients.lookup s.world.hostPeerId = some host ∧ host.havePose = true ∧
    host.lastPose.locationFormId = kCommonwealthWorldspace

/-- The second player reports that it is in an interior, and becomes the host. -/
def handedOver : List (Env × Input) :=
  twoJoins ++ [datagramAt ⟨10, 0, 0, 2, 2000⟩ (makeUdpBind 2 3506742235).encode,
    datagramAt ⟨10, 0, 0, 2, 2000⟩ (makePose 2 0x0001A26F ⟨0⟩ ⟨0⟩ ⟨0⟩ ⟨0⟩).encode,
    (plainEnv, .inbound { kind := .TcpClosed, connId := 1, peerId := 1 } 1), acceptAt 3 ⟨10, 0, 0, 3, 1000⟩]

/-- The Hello of a player that wants a host in the exterior. -/
def requireHostHello : Bytes :=
  (makeHello (ascii "c") (ascii "c") true kCommonwealthWorldspace ⟨0⟩ ⟨0⟩ 0 ⟨0⟩ ⟨0⟩ ⟨0⟩ false kHelloFlagRequireHost 0
    []).encode

/-- The session has its host where the former one was, so such a player is let in. -/
theorem not_admission_hostOutside :
    ¬ ∀ s, Reachable s → ∀ i ev t pending header, PendingStep s.ready i.2 ev t pending →
      openFrame ev.bytes = some (header, .Hello) → (readHello ev.bytes).flags &&& kHelloFlagRequireHost ≠ 0 →
        s.clients.size < (s.step i).clients.size → HostOutside s := by
  intro h
  have hexit : (pendingExit (runFrom freshStart handedOver) (frameAt 3 0 requireHostHello)).isSome := by decide +kernel
  have hloc : ((runFrom freshStart handedOver).clients.lookup (runFrom freshStart handedOver).world.hostPeerId).map
      (fun c => c.lastPose.locationFormId) = some 0x0001A26F := by decide +kernel
  have hopen : (openFrame requireHostHello).map (·.2) = some .Hello := by decide +kernel
  obtain ⟨⟨header, type⟩, ho, rfl⟩ := Option.map_eq_some_iff.mp hopen
  obtain ⟨exit, hx⟩ := Option.isSome_iff_exists.mp hexit
  obtain ⟨ev, t, pending, hs, -⟩ := pendingExit_some.mp hx
  cases hs.input
  obtain ⟨host, hl, -, hcommonwealth⟩ := h _ (runFrom_reachable freshStart handedOver) (frameAt 3 0 requireHostHello) _ _
    pending header hs ho (by decide +kernel) (by decide +kernel)
  rw [hl, Option.map_some, hcommonwealth] at hloc
  exact absurd hloc (by decide)

end ServerRuntime
end CommonwealthMP
