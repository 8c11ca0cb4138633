import CommonwealthMP.PeerLooks

/-! # Looks of the players at the server and at the clients

A client that is live on the server holds of every other live player the blobs that the server stores for it, as long as no
player comes back with blobs while the client is there, and nothing that is under way is given up. -/
namespace CommonwealthMP
open ByteLayout OrderedTables SessionTable StepRuns Plugin ServerRuntime
namespace Joint
open Call

theorem follows_seenOn : Follows looksHearing SeenOn KeepsSight where
  unheard h := by
    refine ⟨fun type q => ?_, fun p ⟨c, hl, hc⟩ => absurd hc (h p _ (liveOf_some hl)), fun _ type q c _ => .inl ?_⟩
    · unfold Looks.of
      split <;> rfl
    · unfold Looks.of
      split <;> rfl
  step hr ho _ hk hnot hhung hkeep h := staysSeen_step hr ho hk hnot hhung hkeep h

/-- The client holds of the player what the server stores. -/
structure HoldsLook (w : Joint) (q : PeerId) (d : CommonwealthMP.Client) : Prop where
  appearance : w.client.session.blobs.appearances.lookup q = held d.appearance
  inventory : w.client.session.blobs.inventories.lookup q = held d.inventory

/-- The client is live on the server as `p`, and no TCP message is under way. -/
structure Present (w : Joint) (p : PeerId) : Prop where
  settled : Settled w
  connected : w.client.sockets.conn ≠ 0
  live : OnConn w.server w.client.sockets.conn p

/-- In every run without such steps, a client that has heard everything holds the looks of the others. -/
theorem Present.holdsLook {b : Startup} {settings : Settings} {as : List Action}
    (hm : AllSteps Joint.step (Meets looksHearing KeepsSight) (start b settings) as) {p : PeerId}
    (hp : Present (run Joint.step (start b settings) as) p) {q : PeerId} {d : CommonwealthMP.Client}
    (hq : (run Joint.step (start b settings) as).server.clients.lookup q = some d) (hne : q ≠ p) :
    HoldsLook (run Joint.step (start b settings) as) q d := by
  have hseen := (inStep_run follows_seenOn b settings hm).settled hp.settled hp.connected
  have hstored := hseen.live p hp.live
  exact ⟨hstored .AppearanceChunk q d hq hne, hstored .InventoryChunk q d hq hne⟩

/-- Seen from two clients, a server whose every step keeps both in sight has told them the same of any third player: what it
stores. -/
theorem looksAgree (b : Startup) (settings settings' : Settings) (as as' : List Joint.Action)
    (hm : AllSteps Joint.step (Meets looksHearing KeepsSight) (start b settings) as)
    (hm' : AllSteps Joint.step (Meets looksHearing KeepsSight) (start b settings') as')
    (hserver : (run Joint.step (start b settings') as').server = (run Joint.step (start b settings) as).server) {p p' : PeerId}
    (hp : Present (run Joint.step (start b settings) as) p) (hp' : Present (run Joint.step (start b settings') as') p') {q : PeerId}
    {d : CommonwealthMP.Client} (hq : (run Joint.step (start b settings) as).server.clients.lookup q = some d) (hne : q ≠ p)
    (hne' : q ≠ p') :
    HoldsLook (run Joint.step (start b settings) as) q d ∧ HoldsLook (run Joint.step (start b settings') as') q d :=
  ⟨hp.holdsLook hm hq hne, hp'.holdsLook hm' (hserver ▸ hq) hne'⟩

/-- The connection without a session that a frame is for. -/
def pendingOf (s : ServerRuntime) (i : Env × ServerRuntime.Input) : Option PendingTcp :=
  match i.2 with
  | .inbound ev _ =>
    if ev.kind = .TcpFrame then
      match frameTarget s.ready ev with
      | .pending pending => some pending
      | _ => none
    else none
  | _ => none

/-- Only the client itself can be admitted, to players whose blobs can all be sent. -/
def AdmitsSelf (w : Joint) (i : Env × ServerRuntime.Input) : Prop :=
  (∀ pending ∈ pendingOf w.server i, pending.connId = w.client.sockets.conn) ∧
    ∀ e ∈ w.server.clients.entries, e.2.appearance.length ≤ 0xFFFF ∧ e.2.inventory.length ≤ 0xFFFF

instance (w : Joint) (i : Env × ServerRuntime.Input) : Decidable (AdmitsSelf w i) := inferInstanceAs (Decidable (_ ∧ _))

theorem blob_fits {s : ServerRuntime} (h : ∀ e ∈ s.clients.entries, e.2.appearance.length ≤ 0xFFFF ∧ e.2.inventory.length ≤ 0xFFFF)
    (type : Msg) (q : PeerId) (c : CommonwealthMP.Client) (hl : s.clients.lookup q = some c) :
    (Client.blob type c).length ≤ 0xFFFF := by
  obtain ⟨happearance, hinventory⟩ := h ⟨q, c⟩ (Table.mem_entries.mpr hl)
  unfold Client.blob
  split
  · exact happearance
  · exact hinventory

theorem AdmitsSelf.served {w : Joint} {i : Env × ServerRuntime.Input} (h : AdmitsSelf w i) : w.Served looksHearing KeepsSight i := by
  have hown : ∀ pending hello, AdmitsOn w.server i pending hello → pending.connId = w.client.sockets.conn := by
    rintro pending hello ⟨ev, t, header, hs, -, -⟩
    refine h.1 pending ?_
    rw [pendingOf, hs.input]
    dsimp only
    rw [if_pos hs.kind, hs.target]
    rfl
  intro _ _
  exact ⟨fun _ _ _ _ => blob_fits h.2, fun pending hello ha hne => absurd (hown pending hello ha) hne⟩

theorem looksOf_prelude (game : LocalGame) {c : Plugin.Client Link} (ha : c.session.blobs.appearanceParts = ∅)
    (hi : c.session.blobs.inventoryParts = ∅) : looksOf (prelude linkSockets game c).session.blobs = looksOf c.session.blobs := by
  obtain ⟨d, hd, he⟩ := undisturbed_prelude (S := linkSockets) game c
  rw [he, ← looksOf_undisturbed hd, expireParts, looksOf, looksOf]
  dsimp only
  rw [hd.appearanceParts, hd.inventoryParts, ha, hi]
  rfl

theorem meets_begin {w : Joint} {os : Answers} {game : LocalGame} (ha : w.client.session.blobs.appearanceParts.entries = [])
    (hi : w.client.session.blobs.inventoryParts.entries = []) : Meets looksHearing KeepsSight w (.call os (.begin game)) := by
  intro game' _
  exact looksOf_prelude game' (c := { w.client with sockets.os := os }) (AList.ext ha) (AList.ext hi)

deriving instance DecidableEq for ServerRuntime.Input

def Action.input (w : Joint) : Action → Option ServerRuntime.Input
  | .call _ _ => none
  | .serve c _ t stamp => (takeItem c w.client.sockets.up).map fun r => .inbound (r.1.event c stamp) t
  | .arrive n _ t => w.client.sockets.air[n]?.map fun d => .inbound { kind := .UdpDatagram, addr := d.1, bytes := d.2 } t
  | .lose _ => none
  | .other i => if w.IsOther i.2 then some i.2 else none

/-- The step happens in the environment, where it is one of the server. -/
def Action.In (env : Env) : Action → Prop
  | .serve _ e _ _ => e = env
  | .arrive _ e _ => e = env
  | .other i => i.1 = env
  | _ => True

def inputs : Joint → List Action → List ServerRuntime.Input
  | _, [] => []
  | w, a :: as => (a.input w).toList ++ inputs (Joint.step w a) as

theorem server_step {env : Env} (w : Joint) {a : Action} (h : a.In env) :
    (Joint.step w a).server = run ServerRuntime.step w.server ((a.input w).toList.map (env, ·)) := by
  cases a with
  | call os a =>
    rw [Joint.step]
    split <;> rfl
  | serve c e t stamp =>
    cases h
    rw [Joint.step, Action.input]
    cases takeItem c w.client.sockets.up <;> rfl
  | arrive n e t =>
    cases h
    rw [Joint.step, Action.input]
    cases w.client.sockets.air[n]? <;> rfl
  | lose n => rfl
  | other i =>
    cases h
    rw [Joint.step, Action.input]
    split <;> rfl

/-- In a run of the system the server has the run of what it takes in. -/
theorem server_run {env : Env} (w : Joint) {as : List Action} (h : ∀ a ∈ as, a.In env) :
    (run Joint.step w as).server = run ServerRuntime.step w.server ((inputs w as).map (env, ·)) := by
  induction as generalizing w with
  | nil => rfl
  | cons a as ih =>
    obtain ⟨ha, has⟩ := List.forall_mem_cons.mp h
    rw [run_cons, ih _ has, server_step w ha, inputs, List.map_append, run_append]

/-- A frame that admits nobody but a newcomer, of whom the server has no blob and the client has heard nothing. -/
structure AdmitsNew (w : Joint) (bytes : Bytes) : Prop where
  fits : ∀ e ∈ w.server.clients.entries, e.2.appearance.length ≤ 0xFFFF ∧ e.2.inventory.length ≤ 0xFFFF
  appearance : (looksHearing.told w.client).appearance.stored w.server.nextPeer = none
  inventory : (looksHearing.told w.client).inventory.stored w.server.nextPeer = none
  blobless : (helloRecord w.server (readHello bytes)).appearance = [] ∧ (helloRecord w.server (readHello bytes)).inventory = []

theorem AdmitsNew.served {w : Joint} {env : Env} (ev : InboundEvent) {t : Time} (h : AdmitsNew w ev.bytes) :
    w.Served looksHearing KeepsSight (env, .inbound ev t) := by
  intro _ _
  refine ⟨fun _ _ _ _ => blob_fits h.fits, ?_⟩
  rintro pending hello ⟨ev', t', header, hs, -, rfl⟩ - - -
  cases hs.input
  refine ⟨fun type => ?_, fun _ => h.blobless⟩
  unfold Looks.of
  split
  · exact h.appearance
  · exact h.inventory

/-- A player with an appearance is there before two others join. -/
def threePlayers : List Joint.Action :=
  [.other (acceptAt 3 ⟨10, 0, 0, 3, 1000⟩), .other (frameAt 3 0 (helloFrame (ascii "c"))),
    .other (frameAt 3 1 (chunkPacket .AppearanceChunk 1 [7] 0))]

def worldOf (p : PeerId) : Bytes :=
  (makeWorldSnapshot ⟨0⟩ ⟨0⟩ 0 kCommonwealthWorldspace ⟨0⟩ ⟨0⟩ ⟨0⟩ p kCommonwealthWorldspace ⟨0⟩ ⟨0⟩ ⟨0⟩ true).encode

def secondAnswers : Answers := { newConn := 2, tcpAddr := ⟨10, 0, 0, 2, 1000⟩, udpAddr := ⟨10, 0, 0, 2, 2000⟩ }

def named (key : Bytes) : Settings := { playerName := key, playerKey := key }

/-- The run as the first of the two has it. -/
def seenByFirst : List Joint.Action :=
  threePlayers ++ [.call firstAnswers (.join outdoors 0), .serve 1 plainEnv 1 0, .serve 1 plainEnv 1 0,
    .other (acceptAt 2 ⟨10, 0, 0, 2, 1000⟩), .other (frameAt 2 0 (helloFrame (ascii "b"))), .call firstAnswers (.begin outdoors),
    .call firstAnswers (.turn outdoors), .call firstAnswers (.turn outdoors), .call firstAnswers (.turn outdoors),
    .serve 1 plainEnv 1 2, .other (frameAt 2 3 (worldOf 3))]

/-- The run as the second has it. -/
def seenBySecond : List Joint.Action :=
  threePlayers ++ [.other (acceptAt 1 ⟨10, 0, 0, 1, 1000⟩), .other (frameAt 1 0 (helloFrame (ascii "a"))),
    .call secondAnswers (.join outdoors 0), .serve 2 plainEnv 1 0, .serve 2 plainEnv 1 0, .call secondAnswers (.begin outdoors),
    .call secondAnswers (.turn outdoors), .call secondAnswers (.turn outdoors), .call secondAnswers (.turn outdoors),
    .other (frameAt 1 2 (worldOf 2)), .serve 2 plainEnv 1 3]

theorem served_unconnected {w : Joint} {i} (h : w.client.sockets.conn = 0) : Meets looksHearing KeepsSight w (.other i) :=
  fun h0 => absurd h h0

theorem meets_serve {w : Joint} {c env t stamp}
    (h : ∀ r ∈ takeItem c w.client.sockets.up, AdmitsSelf w (env, .inbound (r.1.event c stamp) t)) :
    Meets looksHearing KeepsSight w (.serve c env t stamp) := fun r hr => (h r hr).served

theorem meets_frame {w : Joint} {c stamp bytes} (h : AdmitsNew w bytes) :
    Meets looksHearing KeepsSight w (.other (frameAt c stamp bytes)) :=
  AdmitsNew.served ⟨.TcpFrame, c, stamp, {}, bytes⟩ h

theorem meets_accept {w : Joint} {c addr} (h : AdmitsNew w []) : Meets looksHearing KeepsSight w (.other (acceptAt c addr)) :=
  AdmitsNew.served ⟨.TcpAccept, c, 0, addr, []⟩ h

instance (w : Joint) (bytes : Bytes) : Decidable (AdmitsNew w bytes) :=
  decidable_of_iff ((∀ e ∈ w.server.clients.entries, e.2.appearance.length ≤ 0xFFFF ∧ e.2.inventory.length ≤ 0xFFFF) ∧
      ((looksHearing.told w.client).appearance.stored w.server.nextPeer = none ∧
        (looksHearing.told w.client).inventory.stored w.server.nextPeer = none) ∧
      (helloRecord w.server (readHello bytes)).appearance = [] ∧ (helloRecord w.server (readHello bytes)).inventory = [])
    ⟨fun h => ⟨h.1, h.2.1.1, h.2.1.2, h.2.2⟩, fun h => ⟨h.fits, ⟨h.appearance, h.inventory⟩, h.blobless⟩⟩

theorem meets_first :
    AllSteps Joint.step (Meets looksHearing KeepsSight) (start freshStart (named (ascii "a"))) seenByFirst := by
  refine ⟨served_unconnected ?_, served_unconnected ?_, served_unconnected ?_, nofun, meets_serve ?_, meets_serve ?_,
    meets_accept ?_, meets_frame ?_, meets_begin ?_ ?_, nofun, nofun, nofun, meets_serve ?_, meets_frame ?_, trivial⟩ <;>
    decide +kernel

theorem meets_second :
    AllSteps Joint.step (Meets looksHearing KeepsSight) (start freshStart (named (ascii "b"))) seenBySecond := by
  refine ⟨served_unconnected ?_, served_unconnected ?_, served_unconnected ?_, served_unconnected ?_, served_unconnected ?_,
    nofun, meets_serve ?_, meets_serve ?_, meets_begin ?_ ?_, nofun, nofun, nofun, meets_frame ?_, meets_serve ?_, trivial⟩ <;>
    decide +kernel

theorem server_seen : (run Joint.step (start freshStart (named (ascii "b"))) seenBySecond).server =
    (run Joint.step (start freshStart (named (ascii "a"))) seenByFirst).server := by
  have hfirst : ∀ a ∈ seenByFirst, a.In plainEnv := by
    simp only [seenByFirst, threePlayers, List.forall_mem_append, List.forall_mem_cons]
    exact ⟨⟨rfl, rfl, rfl, List.forall_mem_nil _⟩, trivial, rfl, rfl, rfl, rfl, trivial, trivial, trivial, trivial, rfl, rfl,
      List.forall_mem_nil _⟩
  have hsecond : ∀ a ∈ seenBySecond, a.In plainEnv := by
    simp only [seenBySecond, threePlayers, List.forall_mem_append, List.forall_mem_cons]
    exact ⟨⟨rfl, rfl, rfl, List.forall_mem_nil _⟩, rfl, rfl, trivial, rfl, rfl, trivial, trivial, trivial, trivial, rfl, rfl,
      List.forall_mem_nil _⟩
  have hinputs : inputs (start freshStart (named (ascii "b"))) seenBySecond =
      inputs (start freshStart (named (ascii "a"))) seenByFirst := by decide +kernel
  rw [server_run _ hfirst, server_run _ hsecond, hinputs]
  rfl

/-- Both hold the appearance that the server has for the third. -/
theorem looksAgree_threePlayers :
    (run Joint.step (start freshStart (named (ascii "a"))) seenByFirst).client.session.blobs.appearances.lookup 1 = some [7] ∧
      (run Joint.step (start freshStart (named (ascii "b"))) seenBySecond).client.session.blobs.appearances.lookup 1 = some [7] := by
  have happearance : ((run Joint.step (start freshStart (named (ascii "a"))) seenByFirst).server.clients.lookup 1).map
      (·.appearance) = some [7] := by decide +kernel
  obtain ⟨d, hq, hd⟩ := Option.map_eq_some_iff.mp happearance
  have hfirst : ((run Joint.step (start freshStart (named (ascii "a"))) seenByFirst).server.clients.lookup 2).map (·.connId) =
      some (run Joint.step (start freshStart (named (ascii "a"))) seenByFirst).client.sockets.conn := by decide +kernel
  have hsecond : ((run Joint.step (start freshStart (named (ascii "b"))) seenBySecond).server.clients.lookup 3).map (·.connId) =
      some (run Joint.step (start freshStart (named (ascii "b"))) seenBySecond).client.sockets.conn := by decide +kernel
  have hp : Present (run Joint.step (start freshStart (named (ascii "a"))) seenByFirst) 2 :=
    ⟨⟨by decide +kernel, by decide +kernel, by decide +kernel⟩, by decide +kernel, Option.map_eq_some_iff.mp hfirst⟩
  have hp' : Present (run Joint.step (start freshStart (named (ascii "b"))) seenBySecond) 3 :=
    ⟨⟨by decide +kernel, by decide +kernel, by decide +kernel⟩, by decide +kernel, Option.map_eq_some_iff.mp hsecond⟩
  obtain ⟨hholds, hholds'⟩ := looksAgree freshStart (named (ascii "a")) (named (ascii "b")) seenByFirst seenBySecond meets_first
    meets_second server_seen hp hp' hq (by decide) (by decide)
  rw [hholds.appearance, hholds'.appearance, hd]
  exact ⟨rfl, rfl⟩

/-- A player comes back, whose appearance only those who join after it are sent. -/
def comesBack : List Joint.Action :=
  [.call firstAnswers (.join outdoors 0), .serve 1 plainEnv 1 0, .serve 1 plainEnv 1 0, .other (acceptAt 2 ⟨10, 0, 0, 2, 1000⟩),
    .other (frameAt 2 0 (helloFrame (ascii "b"))), .other (frameAt 2 2 (chunkPacket .AppearanceChunk 2 [7] 0)),
    .other (plainEnv, .inbound { kind := .TcpClosed, connId := 2, peerId := 2 } 1), .other (acceptAt 3 ⟨10, 0, 0, 2, 1001⟩),
    .other (frameAt 3 0 (helloFrame (ascii "b"))), .other (acceptAt 4 ⟨10, 0, 0, 3, 1000⟩),
    .other (frameAt 4 0 (helloFrame (ascii "c"))), .call firstAnswers (.begin outdoors), .call firstAnswers (.turn outdoors),
    .call firstAnswers (.turn outdoors), .call firstAnswers (.turn outdoors), .call firstAnswers (.turn outdoors),
    .serve 1 plainEnv 1 1]

theorem not_holdsLook_comesBack :
    Present (run Joint.step onePlayer comesBack) 1 ∧ OnConn (run Joint.step onePlayer comesBack).server 4 4 ∧
      ∃ d, (run Joint.step onePlayer comesBack).server.clients.lookup 3 = some d ∧ d.appearance = [7] ∧
        ¬ HoldsLook (run Joint.step onePlayer comesBack) 3 d := by
  have hlive : ((run Joint.step onePlayer comesBack).server.clients.lookup 1).map (·.connId) =
      some (run Joint.step onePlayer comesBack).client.sockets.conn := by decide +kernel
  have hlater : ((run Joint.step onePlayer comesBack).server.clients.lookup 4).map (·.connId) = some 4 := by decide +kernel
  have happearance : ((run Joint.step onePlayer comesBack).server.clients.lookup 3).map (·.appearance) = some [7] := by
    decide +kernel
  have hnone : (run Joint.step onePlayer comesBack).client.session.blobs.appearances.lookup 3 = none := by decide +kernel
  refine ⟨⟨⟨by decide +kernel, by decide +kernel, by decide +kernel⟩, by decide +kernel, Option.map_eq_some_iff.mp hlive⟩,
    Option.map_eq_some_iff.mp hlater, ?_⟩
  obtain ⟨d, hq, hd⟩ := Option.map_eq_some_iff.mp happearance
  refine ⟨d, hq, hd, fun h => ?_⟩
  have hstored := h.appearance
  rw [hnone, hd] at hstored
  cases hstored

end Joint
end CommonwealthMP
