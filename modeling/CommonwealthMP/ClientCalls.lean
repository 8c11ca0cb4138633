import CommonwealthMP.JointSystem

/-! # What the client's calls do to its connection

A call either keeps the connection, hangs up, or opens a new one. As long as the connection
is kept, what the client has been told there, by the frames it has handled and those still
under way, stays the same, and a binding it believes in has been sought. -/
namespace CommonwealthMP
open ByteLayout OrderedTables StepRuns Plugin
namespace Call

def welcomes (c : Plugin.Client Link) : List Welcome := c.sockets.down.filterMap welcomeIn

structure Place where
  peerId : UInt32
  udpToken : UInt32
  isHost : Bool
  deriving DecidableEq

def Place.ofWelcome (w : Welcome) : Place := ⟨w.peerId, w.udpToken, w.isHost != 0⟩

/-- The place a handled Welcome has left. -/
def Place.own (net : NetRuntime) : Option Place :=
  if net.udpToken = 0 then none else some ⟨net.myPeerId, net.udpToken, net.isHost⟩

/-- The place the client will know when it has handled what is under way: that of the last
Welcome. -/
def told (c : Plugin.Client Link) : Option Place := ((welcomes c).getLast?.map Place.ofWelcome).or (Place.own c.session.net)

theorem told_of_nil {c : Plugin.Client Link} (h : welcomes c = []) : told c = Place.own c.session.net := by
  rw [told, h]
  rfl

theorem Place.own_of_ne_zero {net : NetRuntime} (h : net.udpToken ≠ 0) :
    Place.own net = some ⟨net.myPeerId, net.udpToken, net.isHost⟩ := if_neg h

/-- The client counts its binding as done, and no Welcome is about to change that. -/
def Believes (c : Plugin.Client Link) : Prop := c.session.net.udpBound = true ∧ welcomes c = []

/-- The binding datagram for the client's place is under way. -/
def Sought (c : Plugin.Client Link) : Prop :=
  ∃ addr, c.sockets.udp = some addr ∧
    ∀ place, told c = some place → (addr, (makeUdpBind place.peerId place.udpToken).encode) ∈ c.sockets.air

def framesOn (conn : ConnId) (frames : List Bytes) : List (ConnId × UpItem) := frames.map fun data => (conn, .frame data)

/-- The client keeps its connection, and what it has been told there. -/
structure Steady (c c' : Plugin.Client Link) : Prop where
  conn : c'.sockets.conn = c.sockets.conn
  closed : c'.sockets.closed = c.sockets.closed
  udp : c'.sockets.udp = c.sockets.udp
  up : ∃ frames, c'.sockets.up = c.sockets.up ++ framesOn c.sockets.conn frames ∧ (∀ data ∈ frames, ¬ typeIs .Bye data) ∧
    (frames ≠ [] → c.sockets.conn ≠ 0)
  air : c.sockets.air ⊆ c'.sockets.air
  told : told c' = told c
  welcomes : welcomes c' ⊆ welcomes c
  joined : c'.session.net.joined = true → c.session.net.joined = true
  token : (∀ w ∈ Call.welcomes c, w.udpToken ≠ 0) → (c.session.net.udpBound = true → c.session.net.udpToken ≠ 0) →
    c'.session.net.udpBound = true → c'.session.net.udpToken ≠ 0

/-- Moreover a binding it comes to believe in is under way. -/
structure Kept (c c' : Plugin.Client Link) : Prop extends Steady c c' where
  believes : Believes c' → Believes c ∨ Sought c'

theorem Steady.refl (c : Plugin.Client Link) : Steady c c where
  conn := rfl
  closed := rfl
  udp := rfl
  up := ⟨[], (List.append_nil _).symm, nofun, fun h => absurd rfl h⟩
  air _ hm := hm
  told := rfl
  welcomes _ hm := hm
  joined := id
  token _ h := h

theorem Steady.trans {c c' c'' : Plugin.Client Link} (h : Steady c c') (h' : Steady c' c'') : Steady c c'' where
  conn := h'.conn.trans h.conn
  closed := h'.closed.trans h.closed
  udp := h'.udp.trans h.udp
  up := by
    obtain ⟨frames, hup, hbye, h0⟩ := h.up
    obtain ⟨frames', hup', hbye', h0'⟩ := h'.up
    refine ⟨frames ++ frames', ?_, fun data hm => ?_, fun hne hc => ?_⟩
    · rw [hup', hup, h.conn, framesOn, framesOn, framesOn, List.map_append, List.append_assoc]
    · exact (List.mem_append.mp hm).elim (hbye data) (hbye' data)
    · have hnil : frames = [] := by_contra fun hf => h0 hf hc
      have hnil' : frames' = [] := by_contra fun hf => h0' hf (h.conn.trans hc)
      exact hne (by rw [hnil, hnil', List.append_nil])
  air _ hm := h'.air (h.air hm)
  told := h'.told.trans h.told
  welcomes _ hm := h.welcomes (h'.welcomes hm)
  joined hj := h.joined (h'.joined hj)
  token hw ht := h'.token (fun w hm => hw w (h.welcomes hm)) (h.token hw ht)

theorem Sought.mono {c c' : Plugin.Client Link} (hs : Sought c) (h : Steady c c') : Sought c' := by
  obtain ⟨addr, ha, hs⟩ := hs
  exact ⟨addr, h.udp.trans ha, fun place hp => h.air (hs place (h.told.symm.trans hp))⟩

theorem Kept.refl (c : Plugin.Client Link) : Kept c c := ⟨.refl c, .inl⟩

theorem Kept.trans {c c' c'' : Plugin.Client Link} (h : Kept c c') (h' : Kept c' c'') : Kept c c'' :=
  ⟨h.toSteady.trans h'.toSteady, fun hb =>
    (h'.believes hb).elim (fun hb => (h.believes hb).imp_right fun hs => hs.mono h'.toSteady) .inr⟩

/-- Frames were sent, and nothing else happened to the client's place. -/
structure Sent (c c' : Plugin.Client Link) : Prop where
  core : c'.session.core = c.session.core
  udpBound : c'.session.net.udpBound = c.session.net.udpBound
  link : ∃ frames, c'.sockets = { c.sockets with up := c.sockets.up ++ framesOn c.sockets.conn frames } ∧
    (∀ data ∈ frames, ¬ typeIs .Bye data) ∧ (frames ≠ [] → c.sockets.conn ≠ 0)

theorem Sent.quiet {c c' : Plugin.Client Link} (hcore : c'.session.core = c.session.core)
    (hb : c'.session.net.udpBound = c.session.net.udpBound) (hs : c'.sockets = c.sockets) : Sent c c' :=
  ⟨hcore, hb, [], by rw [hs, framesOn, List.map_nil, List.append_nil], nofun, fun h => absurd rfl h⟩

theorem Sent.refl (c : Plugin.Client Link) : Sent c c := .quiet rfl rfl rfl

theorem Sent.trans {c d e : Plugin.Client Link} (h : Sent c d) (h' : Sent d e) : Sent c e := by
  obtain ⟨frames, hl, hbye, h0⟩ := h.link
  obtain ⟨frames', hl', hbye', h0'⟩ := h'.link
  have hconn : d.sockets.conn = c.sockets.conn := by rw [hl]
  refine ⟨h'.core.trans h.core, h'.udpBound.trans h.udpBound, frames ++ frames', ?_, fun data hm => ?_, fun hne hc => ?_⟩
  · rw [hl', hconn, hl, framesOn, framesOn, framesOn, List.map_append, List.append_assoc]
  · exact (List.mem_append.mp hm).elim (hbye data) (hbye' data)
  · have hnil : frames = [] := by_contra fun hf => h0 hf hc
    have hnil' : frames' = [] := by_contra fun hf => h0' hf (hconn.trans hc)
    exact hne (by rw [hnil, hnil', List.append_nil])

theorem sent_tcpSend {data : Bytes} (h : ¬ typeIs .Bye data) (c : Plugin.Client Link) :
    Sent c (Plugin.tcpSend linkSockets data c) := by
  by_cases h0 : c.sockets.conn = 0 ∨ data = []
  · refine .quiet rfl rfl ?_
    show (c.sockets.tcpSend data).2 = c.sockets
    rw [Link.tcpSend, if_pos h0]
  · refine ⟨rfl, rfl, [data], ?_, fun d hm => List.mem_singleton.mp hm ▸ h, fun _ => fun hc => h0 (.inl hc)⟩
    show (c.sockets.tcpSend data).2 = _
    rw [Link.tcpSend, if_neg h0]
    rfl

theorem typeIs_fillHeader {type : Msg} {size : UInt16} (rest : Bytes) : typeIs type ((fillHeader type size).encode ++ rest) :=
  u8At_encode_type (fillHeader type size) rest

theorem not_typeIs {m m' : Msg} {data : Bytes} (h : typeIs m data) (hne : m.code ≠ m'.code) : ¬ typeIs m' data :=
  fun h' => hne (h.symm.trans h')

theorem typeIs_chunkPacket (type : Msg) (peerId : UInt32) (blob : Bytes) (i : ℕ) : typeIs type (chunkPacket type peerId blob i) := by
  rw [chunkPacket, BlobChunk.encode, List.append_assoc]
  exact typeIs_fillHeader _

theorem sent_sendChunks {type : Msg} (ht : type.code ≠ Msg.Bye.code) (blob : Bytes) (c : Plugin.Client Link) :
    Sent c (sendChunks linkSockets type blob c) := by
  unfold sendChunks
  split
  · exact .refl c
  · rename_i packets hsplit
    have hpackets : ∀ packet ∈ packets, ¬ typeIs .Bye packet := by
      unfold splitBlobChunks at hsplit
      split at hsplit
      · cases hsplit
      · cases hsplit
        intro packet hm
        obtain ⟨i, -, rfl⟩ := List.mem_map.mp hm
        exact not_typeIs (typeIs_chunkPacket type _ blob i) ht
    clear hsplit
    induction packets generalizing c with
    | nil => exact .refl c
    | cons packet packets ih =>
      exact (sent_tcpSend (hpackets packet List.mem_cons_self) c).trans
        (ih _ fun p hm => hpackets p (List.mem_cons_of_mem _ hm))

theorem sent_sendAppearance (game : LocalGame) (force : Bool) (c : Plugin.Client Link) :
    Sent c (sendAppearance linkSockets game force c) := by
  unfold sendAppearance
  dsimp only
  split
  · exact .refl c
  · split
    · exact .refl c
    · refine Sent.trans (d := { c with
        session.blobs.lastAppearanceSend := linkSockets.nowSec c.sockets, session.blobs.lastEquipKey := game.equipKey })
        (.quiet rfl rfl rfl) ?_
      split
      · exact .quiet rfl rfl rfl
      · exact sent_sendChunks (by decide) _ _

theorem sent_sendInventory (game : LocalGame) (force : Bool) (c : Plugin.Client Link) :
    Sent c (sendInventory linkSockets game force c) := by
  unfold sendInventory
  dsimp only
  split
  · exact .refl c
  · split
    · exact .refl c
    · refine Sent.trans (d := { c with
        session.blobs.lastInventorySend := linkSockets.nowSec c.sockets, session.blobs.lastInvKey := game.invKey })
        (.quiet rfl rfl rfl) ?_
      split
      · exact .quiet rfl rfl rfl
      · exact sent_sendChunks (by decide) _ _

theorem not_bye_hello (game : LocalGame) (s : Session) : ¬ typeIs .Bye (hello game s) := by
  refine not_typeIs (m := .Hello) ?_ (by decide)
  rw [hello, Hello.encode]
  exact typeIs_fillHeader _

theorem sent_helloRetry (game : LocalGame) (now : Time) (c : Plugin.Client Link) : Sent c (helloRetry linkSockets game now c) := by
  unfold helloRetry
  dsimp only
  split
  · refine Sent.trans (d := { c with session.net.lastHelloRetrySec := now }) (.quiet rfl rfl rfl) ?_
    split
    · exact sent_tcpSend (not_bye_hello game _) _
    · exact .refl _
  · exact .refl c

theorem sent_inventoryDue (game : LocalGame) (now : Time) (c : Plugin.Client Link) : Sent c (inventoryDue linkSockets game now c) := by
  unfold inventoryDue
  dsimp only
  split
  · exact Sent.trans (d := { c with session.blobs.pendingInventoryForce := false }) (.quiet rfl rfl rfl)
      (sent_sendInventory game true _)
  · exact .refl c

theorem welcomes_of_down {c c' : Plugin.Client Link} (h : c'.sockets.down = c.sockets.down) : welcomes c' = welcomes c := by
  rw [welcomes, h, welcomes]

theorem Sent.kept {c c' : Plugin.Client Link} (h : Sent c c') : Kept c c' := by
  obtain ⟨frames, hl, hbye, h0⟩ := h.link
  have hwelcomes : welcomes c' = welcomes c := welcomes_of_down (by rw [hl])
  have hpeer : c'.session.net.myPeerId = c.session.net.myPeerId := congrArg Core.myPeerId h.core
  have htoken : c'.session.net.udpToken = c.session.net.udpToken := congrArg Core.udpToken h.core
  have hhost : c'.session.net.isHost = c.session.net.isHost := congrArg Core.isHost h.core
  have hjoined : c'.session.net.joined = c.session.net.joined := congrArg Core.joined h.core
  refine ⟨⟨by rw [hl], by rw [hl], by rw [hl], ⟨frames, by rw [hl], hbye, h0⟩, by rw [hl]; exact fun _ hm => hm, ?_,
    by rw [hwelcomes]; exact fun _ hm => hm, fun hj => hjoined.symm.trans hj, fun _ ht hb => ?_⟩, fun hb => .inl ?_⟩
  · rw [told, told, hwelcomes, Place.own, Place.own, hpeer, htoken, hhost]
  · rw [htoken]
    exact ht (h.udpBound.symm.trans hb)
  · exact ⟨h.udpBound.symm.trans hb.1, hwelcomes.symm.trans hb.2⟩

structure Bound (c c' : Plugin.Client Link) : Prop where
  session : c'.session = { c.session with net.udpBound := true }
  link : ∃ addr, c.sockets.udp = some addr ∧ c'.sockets = { c.sockets with
    air := c.sockets.air ++ [(addr, (makeUdpBind c.session.net.myPeerId c.session.net.udpToken).encode)] }

theorem bindUdp_cases (c : Plugin.Client Link) : (bindUdp linkSockets c = c ∧ ¬ (c.sockets.os.sendto = true ∧ c.sockets.udp ≠ none)) ∨
    Bound c (bindUdp linkSockets c) := by
  cases hudp : c.sockets.udp with
  | none => exact .inl ⟨by simp [bindUdp, udpSend, linkSockets, Link.udpSend, hudp], fun h => h.2 rfl⟩
  | some addr =>
    cases hos : c.sockets.os.sendto with
    | false => exact .inl ⟨by simp [bindUdp, udpSend, linkSockets, Link.udpSend, hudp, hos], fun h => absurd h.1 Bool.false_ne_true⟩
    | true =>
      have hbind : bindUdp linkSockets c = { c with
          session.net.udpBound := true
          sockets.air := c.sockets.air ++ [(addr, (makeUdpBind c.session.net.myPeerId c.session.net.udpToken).encode)] } := by
        simp [bindUdp, udpSend, linkSockets, Link.udpSend, hudp, hos]
      rw [hbind]
      exact .inr ⟨rfl, addr, hudp, rfl⟩

theorem Bound.steady {c c' : Plugin.Client Link} (h : Bound c c') (hz : c.session.net.udpToken ≠ 0) : Steady c c' := by
  obtain ⟨addr, ha, hl⟩ := h.link
  have hwelcomes : welcomes c' = welcomes c := welcomes_of_down (by rw [hl])
  refine ⟨by rw [hl], by rw [hl], by rw [hl], ⟨[], by rw [hl, framesOn, List.map_nil, List.append_nil], nofun, fun h => absurd rfl h⟩,
    ?_, ?_, by rw [hwelcomes]; exact fun _ hm => hm, fun hj => ?_, fun _ _ _ => ?_⟩
  · rw [hl]
    exact List.subset_append_left _ _
  · rw [told, told, hwelcomes, h.session]
    rfl
  · rw [h.session] at hj
    exact hj
  · rw [h.session]
    exact hz

theorem Bound.sought {c c' : Plugin.Client Link} (h : Bound c c') (hz : c.session.net.udpToken ≠ 0) (hb : Believes c') : Sought c' := by
  obtain ⟨addr, ha, hl⟩ := h.link
  refine ⟨addr, by rw [hl]; exact ha, fun place hp => ?_⟩
  have hz' : c'.session.net.udpToken ≠ 0 := by rw [h.session]; exact hz
  rw [told_of_nil hb.2, Place.own_of_ne_zero hz'] at hp
  cases hp
  rw [hl, h.session]
  exact List.mem_append_right _ (List.mem_singleton.mpr rfl)

theorem kept_bindRetry (c : Plugin.Client Link) : Kept c (bindRetry linkSockets c) := by
  unfold bindRetry
  dsimp only
  split
  · rename_i hwant
    rcases bindUdp_cases c with ⟨he, -⟩ | hb
    · rw [he]
      exact .refl c
    · exact ⟨hb.steady hwant.2.1, fun h => .inr (hb.sought hwant.2.1 h)⟩
  · exact .refl c

theorem steady_welcomed {c c' : Plugin.Client Link} {buf : Bytes} {down : List Bytes} {w : Welcome}
    (hd : c.sockets.down = buf :: down) (hw : welcomeIn buf = some w)
    (hl : c'.sockets = { c.sockets with down := down }) (hown : Place.own c'.session.net = some (.ofWelcome w))
    (hj : c'.session.net.joined = c.session.net.joined) : Steady c c' := by
  have hold : welcomes c = w :: down.filterMap welcomeIn := by rw [welcomes, hd, List.filterMap_cons, hw]
  have hnew : welcomes c' = down.filterMap welcomeIn := by rw [welcomes, hl]
  have hz' : c'.session.net.udpToken ≠ 0 := by
    intro h0
    rw [Place.own, if_pos h0] at hown
    cases hown
  refine ⟨by rw [hl], by rw [hl], by rw [hl], ⟨[], by rw [hl, framesOn, List.map_nil, List.append_nil], nofun, fun h => absurd rfl h⟩,
    by rw [hl]; exact fun _ hm => hm, ?_, ?_, fun h => hj.symm.trans h, fun _ _ _ => hz'⟩
  · rw [told, told, hown, hold, hnew]
    cases down.filterMap welcomeIn with
    | nil => rfl
    | cons w' ws => rw [List.getLast?_cons_cons, List.getLast?_eq_some_getLast (List.cons_ne_nil w' ws)]; rfl
  · rw [hold, hnew]
    exact List.subset_cons_self _ _

theorem sent_afterWelcome (game : LocalGame) (c : Plugin.Client Link) :
    Sent c { sendAppearance linkSockets game true (Plugin.tcpSend linkSockets (localSnapshot game c.session.net) c) with
      session.blobs.pendingInventoryForce := true
      session.blobs.pendingInventoryAt := linkSockets.nowSec
        (sendAppearance linkSockets game true (Plugin.tcpSend linkSockets (localSnapshot game c.session.net) c)).sockets +
          15 / 100 } := by
  have hsnap : ¬ typeIs .Bye (localSnapshot game c.session.net) := by
    refine not_typeIs (m := .WorldSnapshot) ?_ (by decide)
    rw [localSnapshot, WorldSnapshot.encode]
    exact typeIs_fillHeader _
  exact ((sent_tcpSend hsnap c).trans (sent_sendAppearance game true _)).trans (.quiet rfl rfl rfl)

/-- An old binding would stay believed if the socket refused the datagram that answers the
Welcome. -/
theorem kept_handleWelcome {c c' : Plugin.Client Link} {buf : Bytes} {down : List Bytes} {w : Welcome} (game : LocalGame)
    (hd : c.sockets.down = buf :: down) (hw : welcomeIn buf = some w) (hz : w.udpToken ≠ 0)
    (hl : c'.sockets = { c.sockets with down := down }) (hs : c'.session.net = c.session.net)
    (hsend : c.session.net.udpBound = true → c.sockets.os.sendto = true ∧ c.sockets.udp ≠ none) :
    Kept c (handleWelcome linkSockets game w c') := by
  have hwelcomed : Steady c { c' with session := c'.session.welcomed w } :=
    steady_welcomed hd hw hl (Place.own_of_ne_zero hz) (show c'.session.net.joined = _ by rw [hs])
  have hbound : Kept c (bindUdp linkSockets { c' with session := c'.session.welcomed w }) := by
    rcases bindUdp_cases { c' with session := c'.session.welcomed w } with ⟨he, hrefused⟩ | hb
    · rw [he]
      refine ⟨hwelcomed, fun hb => absurd ?_ hrefused⟩
      have hub : c'.session.net.udpBound = true := hb.1
      rw [hs] at hub
      dsimp only
      rw [hl]
      exact hsend hub
    · exact ⟨hwelcomed.trans (hb.steady hz), fun h => .inr (hb.sought hz h)⟩
  exact hbound.trans (sent_afterWelcome game _).kept

/-- Whatever the socket answers, the place is the one the Welcome tells. -/
theorem steady_handleWelcome {c c' : Plugin.Client Link} {buf : Bytes} {down : List Bytes} {w : Welcome} (game : LocalGame)
    (hd : c.sockets.down = buf :: down) (hw : welcomeIn buf = some w) (hz : w.udpToken ≠ 0)
    (hl : c'.sockets = { c.sockets with down := down }) (hs : c'.session.net = c.session.net) :
    Steady c (handleWelcome linkSockets game w c') := by
  have hwelcomed : Steady c { c' with session := c'.session.welcomed w } :=
    steady_welcomed hd hw hl (Place.own_of_ne_zero hz) (show c'.session.net.joined = _ by rw [hs])
  have hbound : Steady c (bindUdp linkSockets { c' with session := c'.session.welcomed w }) := by
    rcases bindUdp_cases { c' with session := c'.session.welcomed w } with ⟨he, -⟩ | hb
    · rw [he]
      exact hwelcomed
    · exact hwelcomed.trans (hb.steady hz)
  exact hbound.trans (sent_afterWelcome game _).kept.toSteady

/-- Nothing changed but the tables and the clock. -/
structure SamePlace (c c' : Plugin.Client Link) : Prop where
  sockets : c'.sockets = c.sockets
  joined : c'.session.net.joined = c.session.net.joined
  own : Place.own c'.session.net = Place.own c.session.net
  token : c'.session.net.udpToken = c.session.net.udpToken
  udpBound : c'.session.net.udpBound = c.session.net.udpBound

/-- A message that is no Welcome leaves the place alone, unless the client leaves. -/
theorem handleMessage_other (game : LocalGame) {buf : Bytes} {c : Plugin.Client Link} (hw : welcomeIn buf = none) :
    (endsSession c.session.net.myPeerId buf = true ∧ ∃ t, handleMessage linkSockets game buf c =
      Plugin.leave linkSockets { c with session.lastRecvSec := t }) ∨ SamePlace c (handleMessage linkSockets game buf c) := by
  unfold handleMessage
  cases hh : headerOk (Header.decode buf) buf.length with
  | none => exact .inr ⟨rfl, rfl, rfl, rfl, rfl⟩
  | some type =>
    dsimp only
    cases he : endsSession c.session.net.myPeerId buf with
    | true => exact .inl ⟨rfl, _, message_leaves game { c with session.lastRecvSec := linkSockets.nowSec c.sockets } hh he⟩
    | false =>
      right
      unfold endsSession at he
      unfold welcomeIn at hw
      rw [hh] at he hw
      cases type <;> simp only [reduceCtorEq, decide_eq_false_iff_not] at he hw
      case Bye =>
        unfold message
        dsimp only
        rw [if_neg he]
        split <;> exact ⟨rfl, rfl, rfl, rfl, rfl⟩
      all_goals
        unfold message
        dsimp only [onActorPose]
        repeat' split
        all_goals exact ⟨rfl, rfl, rfl, rfl, rfl⟩

theorem SamePlace.kept {c a d : Plugin.Client Link} (h : SamePlace a d) {os : Answers} {down : List Bytes}
    (hl : a.sockets = { c.sockets with os := os, down := down }) (hs : a.session.net = c.session.net)
    (hd : down.filterMap welcomeIn = welcomes c) : Kept c d := by
  have hl' : d.sockets = { c.sockets with os := os, down := down } := h.sockets.trans hl
  have hwelcomes : welcomes d = welcomes c := by rw [welcomes, hl', hd]
  refine ⟨⟨by rw [hl'], by rw [hl'], by rw [hl'],
    ⟨[], by rw [hl', framesOn, List.map_nil, List.append_nil], nofun, fun h => absurd rfl h⟩, by rw [hl']; exact fun _ hm => hm, ?_,
    by rw [hwelcomes]; exact fun _ hm => hm, fun hj => ?_, fun _ ht hb => ?_⟩, fun hb => .inl ⟨?_, ?_⟩⟩
  · rw [told, told, hwelcomes, h.own, hs]
  · rw [h.joined, hs] at hj
    exact hj
  · rw [h.udpBound, hs] at hb
    rw [h.token, hs]
    exact ht hb
  · rw [← hs, ← h.udpBound]
    exact hb.1
  · exact hwelcomes.symm.trans hb.2

def Parting (conn : ConnId) (items : List (ConnId × UpItem)) : Prop :=
  ∀ x ∈ items, x.1 = conn ∧ conn ≠ 0 ∧ ∀ addr, x.2 ≠ .accept addr

/-- The client is without a connection and out of the session. -/
structure Hung (c c' : Plugin.Client Link) : Prop where
  conn : c'.sockets.conn = 0
  joined : c'.session.net.joined = false
  udpBound : c'.session.net.udpBound = false
  up : ∃ items, c'.sockets.up = c.sockets.up ++ items ∧ Parting c.sockets.conn items
  down : c'.sockets.down <:+ c.sockets.down

/-- The client is on a new connection and waits for its Welcome. -/
structure Opened (os : Answers) (c c' : Plugin.Client Link) : Prop where
  conn : c'.sockets.conn = os.newConn
  closed : c'.sockets.closed = false
  udp : c'.sockets.udp ≠ none
  down : c'.sockets.down = []
  token : c'.session.net.udpToken = 0
  udpBound : c'.session.net.udpBound = false
  up : ∃ items data, c'.sockets.up = c.sockets.up ++ items ++ [(os.newConn, .accept os.tcpAddr), (os.newConn, .frame data)] ∧
    Parting c.sockets.conn items ∧ ¬ typeIs .Bye data

theorem hangUp_up (w : Link) : ∃ items, w.hangUp.up = w.up ++ items ∧ Parting w.conn items := by
  unfold Link.hangUp
  split
  · exact ⟨[], (List.append_nil _).symm, nofun⟩
  · rename_i h0
    refine ⟨[(w.conn, .closed)], rfl, fun x hm => ?_⟩
    rw [List.mem_singleton.mp hm]
    exact ⟨rfl, h0, nofun⟩

theorem hangUp_down (w : Link) : w.hangUp.down <:+ w.down := by
  unfold Link.hangUp
  split
  · exact List.suffix_refl _
  · exact List.nil_suffix

theorem hangUp_link (w : Link) : w.hangUp.conn = 0 ∧ w.hangUp.udp = w.udp ∧ w.hangUp.os = w.os ∧
    (w.conn = 0 → w.hangUp = w) ∧ (w.conn ≠ 0 → w.hangUp.closed = false ∧ w.hangUp.down = []) := by
  unfold Link.hangUp
  split
  · rename_i h0
    exact ⟨h0, rfl, rfl, fun _ => rfl, fun h => absurd h0 h⟩
  · rename_i h0
    exact ⟨rfl, rfl, rfl, fun h => absurd h h0, fun _ => ⟨rfl, rfl⟩⟩

theorem Parting.append {conn : ConnId} {items items' : List (ConnId × UpItem)} (h : Parting conn items)
    (h' : Parting conn items') : Parting conn (items ++ items') :=
  fun x hm => (List.mem_append.mp hm).elim (h x) (h' x)

/-- The Bye of `CMP_Leave`. -/
def farewell (c : Plugin.Client Link) : Plugin.Client Link :=
  if c.session.net.joined && linkSockets.tcpConnected c.sockets then
    Plugin.tcpSend linkSockets (makeBye c.session.net.myPeerId).encode c
  else c

theorem leave_eq (c : Plugin.Client Link) : Plugin.leave linkSockets c =
    { farewell c with session := (farewell c).session.left, sockets := (farewell c).sockets.shutdown } := rfl

theorem farewell_link (c : Plugin.Client Link) : (farewell c).sockets.conn = c.sockets.conn ∧
    (farewell c).sockets.os = c.sockets.os ∧ (farewell c).sockets.down = c.sockets.down ∧
    ∃ items, (farewell c).sockets.up = c.sockets.up ++ items ∧ Parting c.sockets.conn items := by
  unfold farewell
  split
  · have hsend : (Plugin.tcpSend linkSockets (makeBye c.session.net.myPeerId).encode c).sockets =
        (c.sockets.tcpSend (makeBye c.session.net.myPeerId).encode).2 := rfl
    rw [hsend, Link.tcpSend]
    split
    · exact ⟨rfl, rfl, rfl, [], (List.append_nil _).symm, nofun⟩
    · rename_i h0
      refine ⟨rfl, rfl, rfl, [_], rfl, fun x hm => ?_⟩
      rw [List.mem_singleton.mp hm]
      exact ⟨rfl, fun hc => h0 (.inl hc), nofun⟩
  · exact ⟨rfl, rfl, rfl, [], (List.append_nil _).symm, nofun⟩

/-- `CMP_Leave`, of a client that has its connection still or has just lost it. -/
theorem hung_leave {c c₁ : Plugin.Client Link} (hup : c₁.sockets.up = c.sockets.up)
    (hconn : c₁.sockets.conn = c.sockets.conn ∨ c₁.sockets.conn = 0) (hdown : c₁.sockets.down <:+ c.sockets.down) :
    Hung c (Plugin.leave linkSockets c₁) := by
  obtain ⟨hfare, -, hrest, items, hitems, hparting⟩ := farewell_link c₁
  obtain ⟨items', hitems', hparting'⟩ := hangUp_up (farewell c₁).sockets
  rw [hfare] at hparting'
  rw [leave_eq]
  refine ⟨(hangUp_link _).1, rfl, rfl, ⟨items ++ items', ?_, fun x hm => ?_⟩, ?_⟩
  · show (farewell c₁).sockets.hangUp.up = _
    rw [hitems', hitems, hup, List.append_assoc]
  · obtain ⟨hx, h0, hacc⟩ := hparting.append hparting' x hm
    have hsame := hconn.resolve_right h0
    exact ⟨hx.trans hsame, hsame ▸ h0, hacc⟩
  · exact (hangUp_down _).trans (hrest ▸ hdown)

theorem hangUp_of_zero {w : Link} (h : w.conn = 0) : w.hangUp = w := if_pos h

theorem Hung.again {c c₁ c₂ : Plugin.Client Link} (h : Hung c c₁) (hconn : c₂.sockets.conn = 0)
    (hjoined : c₂.session.net.joined = false) (hbound : c₂.session.net.udpBound = false) (hup : c₂.sockets.up = c₁.sockets.up)
    (hdown : c₂.sockets.down = c₁.sockets.down) : Hung c c₂ :=
  ⟨hconn, hjoined, hbound, by rw [hup]; exact h.up, by rw [hdown]; exact h.down⟩

theorem leave_os (c : Plugin.Client Link) : (Plugin.leave linkSockets c).sockets.os = c.sockets.os :=
  (hangUp_link _).2.2.1.trans (farewell_link c).2.1

section Connect
variable {σ : Type} (S : Sockets σ)

/-- `CMP_Join` once the sockets are up: the connection and the Hello. -/
def connectAndHello (game : LocalGame) (c : Plugin.Client σ) : Bool × Plugin.Client σ :=
  let (connected, sockets) := S.tcpConnect c.sockets
  let c := { c with sockets := sockets }
  if !connected then (false, { c with sockets := S.shutdown c.sockets })
  else
    let (sent, sockets) := S.tcpSend (hello game c.session) c.sockets
    let c := { c with sockets := sockets }
    if !sent then (false, { c with sockets := S.shutdown c.sockets })
    else
      let now := S.nowSec c.sockets
      (true, { c with
        session.net.joined := true, session.net.joinSentSec := now, session.net.lastHelloRetrySec := now })

variable {S} {game : LocalGame} {c : Plugin.Client σ} {w w' : σ}

theorem connectAndHello_refused (h : S.tcpConnect c.sockets = (false, w)) :
    connectAndHello S game c = (false, { c with sockets := S.shutdown w }) := by
  rw [connectAndHello, h]
  rfl

theorem connectAndHello_sent (h : S.tcpConnect c.sockets = (true, w)) (h' : S.tcpSend (hello game c.session) w = (true, w')) :
    connectAndHello S game c = (true, { c with
      session.net.joined := true, session.net.joinSentSec := S.nowSec w', session.net.lastHelloRetrySec := S.nowSec w'
      sockets := w' }) := by
  simp only [connectAndHello, h, h', Bool.not_true, Bool.false_eq_true, if_false]

def joining (flags : UInt8) (s : Session) : Session :=
  { s with
    menu.joinFlags := flags, net.snapshotApplied := false, net.haveSnapshot := false, net.isHost := false
    net.isNewPlayer := false, net.udpToken := 0, net.udpBound := false }

theorem join_unstarted {flags : UInt8} (h : S.startup (Plugin.leave S c).sockets = (false, w)) :
    Plugin.join S game flags c = (false, { Plugin.leave S c with sockets := w }) := by
  simp only [Plugin.join, h, Bool.not_false, if_true]

theorem join_started {flags : UInt8} (h : S.startup (Plugin.leave S c).sockets = (true, w)) :
    Plugin.join S game flags c =
      if !game.world.inWorld then
        (false, { Plugin.leave S c with session := joining flags (Plugin.leave S c).session, sockets := S.shutdown w })
      else
        connectAndHello S game { Plugin.leave S c with session := joining flags (Plugin.leave S c).session, sockets := w } := by
  simp only [Plugin.join, h, Bool.not_true, Bool.false_eq_true, if_false]
  rfl

end Connect

theorem hello_ne_nil (game : LocalGame) (s : Session) : hello game s ≠ [] := by
  intro hnil
  have hlength := congrArg List.length hnil
  simp [hello, Hello.encode] at hlength

theorem connectAndHello_cases (game : LocalGame) {c : Plugin.Client Link} (hconn : c.sockets.conn = 0)
    (hnew : c.sockets.os.newConn ≠ 0) :
    (connectAndHello linkSockets game c).2 = { c with sockets := c.sockets.shutdown } ∨
      ∃ now, (connectAndHello linkSockets game c).2 = { c with
        session.net.joined := true, session.net.joinSentSec := now, session.net.lastHelloRetrySec := now
        sockets := { c.sockets with
          conn := c.sockets.os.newConn, closed := false, down := []
          up := c.sockets.up ++ [(c.sockets.os.newConn, .accept c.sockets.os.tcpAddr)] ++
            [(c.sockets.os.newConn, .frame (hello game c.session))] } } := by
  have hconnect : linkSockets.tcpConnect c.sockets = c.sockets.tcpConnect := rfl
  rw [Link.tcpConnect, hangUp_of_zero hconn] at hconnect
  cases hos : c.sockets.os.connect with
  | false =>
    rw [hos, if_neg Bool.false_ne_true] at hconnect
    rw [connectAndHello_refused hconnect]
    exact .inl rfl
  | true =>
    rw [hos, if_pos rfl] at hconnect
    rw [connectAndHello_sent hconnect (if_neg (not_or.mpr ⟨hnew, hello_ne_nil game c.session⟩))]
    exact .inr ⟨_, rfl⟩

theorem shutdown_of_zero {w : Link} (h : w.conn = 0) :
    w.shutdown.conn = 0 ∧ w.shutdown.up = w.up ∧ w.shutdown.down = w.down := by
  rw [Link.shutdown, hangUp_of_zero h]
  exact ⟨h, rfl, rfl⟩

theorem join_cases (game : LocalGame) (flags : UInt8) {c : Plugin.Client Link} (h0 : c.sockets.os.newConn ≠ 0) :
    Hung c (Plugin.join linkSockets game flags c).2 ∨ Opened c.sockets.os c (Plugin.join linkSockets game flags c).2 := by
  have hleft := hung_leave (c := c) rfl (.inl rfl) (List.suffix_refl _)
  obtain ⟨⟨started, w⟩, hstart⟩ : ∃ r, linkSockets.startup (Plugin.leave linkSockets c).sockets = r := ⟨_, rfl⟩
  have hudp : started = true → w.udp ≠ none := by
    intro ht
    have hs : (Plugin.leave linkSockets c).sockets.os.startup = true := (congrArg Prod.fst hstart).trans ht
    rw [← congrArg (fun r => Link.udp r.2) hstart]
    show (if _ then _ else _) ≠ none
    rw [if_pos hs]
    nofun
  have hup : w.up = (Plugin.leave linkSockets c).sockets.up := (congrArg (fun r => Link.up r.2) hstart).symm
  have hrest : w.down = (Plugin.leave linkSockets c).sockets.down := (congrArg (fun r => Link.down r.2) hstart).symm
  have hos : w.os = c.sockets.os := (congrArg (fun r => Link.os r.2) hstart).symm.trans (leave_os c)
  have hconn : w.conn = 0 := (congrArg (fun r => Link.conn r.2) hstart).symm.trans hleft.conn
  cases started with
  | false =>
    rw [join_unstarted hstart]
    exact .inl (hleft.again hconn hleft.joined hleft.udpBound hup hrest)
  | true =>
    rw [join_started hstart]
    generalize Plugin.leave linkSockets c = c₁ at hleft hup hrest
    obtain ⟨hdown, hdown', hdown''⟩ := shutdown_of_zero hconn
    split
    · exact .inl (hleft.again hdown hleft.joined rfl (hdown'.trans hup) (hdown''.trans hrest))
    · rcases connectAndHello_cases game (c := { c₁ with session := joining flags c₁.session, sockets := w }) hconn
        (hos.symm ▸ h0) with he | ⟨now, he⟩
      · rw [he]
        exact .inl (hleft.again hdown hleft.joined rfl (hdown'.trans hup) (hdown''.trans hrest))
      · obtain ⟨items, hitems, hparting⟩ := hleft.up
        rw [he]
        refine .inr ⟨?_, rfl, hudp rfl, rfl, rfl, rfl, items, _, ?_, hparting,
          not_bye_hello game (joining flags c₁.session)⟩
        · exact congrArg Answers.newConn hos
        · dsimp only
          rw [hup, hitems, hos, List.append_assoc]
          rfl

inductive Effect (c c' : Plugin.Client Link) (a : Call) : Prop
  | kept (h : Kept c c')
  | hung (h : Hung c c')
  | opened (h : Opened c.sockets.os c c') (h0 : c.sockets.os.newConn ≠ 0) (game flags) (ha : a = .join game flags)

/-- The socket takes the datagram that answers a Welcome, in a client that counts its binding as done. -/
def Rebinds (c : Plugin.Client Link) : Call → Prop
  | .turn _ =>
    c.session.net.udpBound = true → (c.sockets.down.head?.bind welcomeIn).isSome → c.sockets.os.sendto = true
  | _ => True

theorem kept_prelude (game : LocalGame) (c : Plugin.Client Link) : Kept c (prelude linkSockets game c) := by
  have hretry := (sent_helloRetry game (linkSockets.nowSec c.sockets) c).kept.trans (kept_bindRetry _)
  exact hretry.trans (Sent.kept (Sent.trans (sent_inventoryDue game _ _) (.quiet rfl rfl rfl)))

theorem handled_effect (game : LocalGame) {c c₁ : Plugin.Client Link} {buf : Bytes} {os : Answers} {down : List Bytes} {a : Call}
    (hl : c₁.sockets = { c.sockets with os := os, down := down }) (hs : c₁.session.net = c.session.net) (hw : welcomeIn buf = none)
    (hd : down.filterMap welcomeIn = welcomes c) (hsuffix : down <:+ c.sockets.down) :
    Effect c (handleMessage linkSockets game buf c₁) a := by
  rcases handleMessage_other game (c := c₁) hw with ⟨-, t, he⟩ | h
  · rw [he]
    exact .hung (hung_leave (by dsimp only; rw [hl]) (.inl (by dsimp only; rw [hl])) (by dsimp only; rw [hl]; exact hsuffix))
  · exact .kept (h.kept hl hs hd)

theorem handleMessage_welcome (game : LocalGame) {buf : Bytes} {w : Welcome} (hw : welcomeIn buf = some w)
    (c : Plugin.Client Link) : ∃ t, handleMessage linkSockets game buf c =
      handleWelcome linkSockets game w { c with session.lastRecvSec := t } := by
  unfold welcomeIn at hw
  split at hw
  · rename_i hok
    have hl : sizeofWelcome ≤ buf.length := headerOk_length hok fun _ => of_decide_eq_true
    cases hw
    refine ⟨linkSockets.nowSec c.sockets, ?_⟩
    rw [handleMessage, hok]
    dsimp only
    rw [message, if_pos hl]
  · cases hw

theorem tcpRecvFrame_cases (w : Link) : linkSockets.tcpRecvFrame w = (.nothing, w) ∨
    linkSockets.tcpRecvFrame w = (.closed, { w with conn := 0, closed := false, down := [] }) ∨
      ∃ buf down, w.down = buf :: down ∧ linkSockets.tcpRecvFrame w = (.frame buf, { w with down := down }) := by
  show w.tcpRecvFrame = _ ∨ w.tcpRecvFrame = _ ∨ ∃ buf down, _ ∧ w.tcpRecvFrame = _
  unfold Link.tcpRecvFrame
  split
  · exact .inl rfl
  · split
    · exact .inr (.inl rfl)
    · split
      · exact .inl rfl
      · split
        · exact .inl rfl
        · rename_i buf down hd
          exact .inr (.inr ⟨buf, down, hd, rfl⟩)

theorem welcomeIn_short {buf : Bytes} (h : buf.length < sizeofHeader) : welcomeIn buf = none := by
  refine Option.eq_none_iff_forall_ne_some.mpr fun w hw => ?_
  unfold welcomeIn at hw
  split at hw
  · rename_i hok
    have hl : sizeofWelcome ≤ buf.length := headerOk_length hok fun _ => of_decide_eq_true
    simp only [sizeofHeader, sizeofWelcome] at h hl
    omega
  · cases hw

theorem turn_effect (game : LocalGame) {c : Plugin.Client Link} (hw : ∀ w ∈ welcomes c, w.udpToken ≠ 0)
    (hudp : c.sockets.udp ≠ none) (hr : Rebinds c (.turn game)) :
    Effect c (pollTcp linkSockets game 1 c) (.turn game) := by
  rcases tcpRecvFrame_cases c.sockets with h | h | ⟨buf, down, hd, h⟩
  · rw [pollTcp_nothing h]
    exact .kept (.refl c)
  · rw [pollTcp_closed h]
    exact .hung (hung_leave rfl (.inr rfl) List.nil_suffix)
  · by_cases hl : buf.length < sizeofHeader
    · have hshort : pollTcp linkSockets game 1 c = { c with sockets := { c.sockets with down := down } } := by
        rw [pollTcp, h]
        dsimp only
        rw [if_pos hl]
      have hrest : down.filterMap welcomeIn = welcomes c := by rw [welcomes, hd, List.filterMap_cons, welcomeIn_short hl]
      rw [hshort]
      exact .kept (SamePlace.kept (a := { c with sockets := { c.sockets with down := down } }) ⟨rfl, rfl, rfl, rfl, rfl⟩ rfl rfl hrest)
    · rw [pollTcp_frame h hl]
      simp only [pollTcp, ite_self]
      cases hin : welcomeIn buf with
      | none =>
        have hrest : down.filterMap welcomeIn = welcomes c := by rw [welcomes, hd, List.filterMap_cons, hin]
        exact handled_effect game rfl rfl hin hrest (hd ▸ List.suffix_cons buf down)
      | some w =>
        have hmem : w ∈ welcomes c := by
          rw [welcomes, hd, List.filterMap_cons, hin]
          exact List.mem_cons_self
        obtain ⟨t, he⟩ := handleMessage_welcome game hin
          { c with sockets := { c.sockets with down := down }, events := c.events ++ [.frame buf] }
        rw [he]
        refine .kept (kept_handleWelcome game hd hin (hw w hmem) rfl rfl fun hb => ⟨hr hb ?_, hudp⟩)
        rw [hd, List.head?_cons, Option.bind_some, hin]
        rfl

theorem welcomeIn_pose {data : Bytes} (h : typeIs .PlayerPose data ∨ typeIs .ActorPose data) : welcomeIn data = none := by
  refine Option.eq_none_iff_forall_ne_some.mpr fun w hw => ?_
  have hw : typeIs .Welcome data := ServerRuntime.welcomeIn_type hw
  rcases h with h | h
  · exact not_typeIs h (by decide) hw
  · exact not_typeIs h (by decide) hw

theorem udpRecv_link (w : Link) : (∃ os, w.udpRecv.2 = { w with os := os }) ∧
    ∀ data, w.udpRecv.1 = some data → data ∈ w.os.datagram := by
  unfold Link.udpRecv
  split
  · exact ⟨⟨w.os, rfl⟩, nofun⟩
  · exact ⟨⟨{ w.os with datagram := none }, rfl⟩, fun _ h => h⟩

theorem hear_effect (game : LocalGame) {c : Plugin.Client Link}
    (hp : ∀ data ∈ c.sockets.os.datagram, typeIs .PlayerPose data ∨ typeIs .ActorPose data) :
    Effect c (pollUdp linkSockets game 1 c) (.hear game) := by
  obtain ⟨⟨os, hos⟩, hmem⟩ := udpRecv_link c.sockets
  obtain ⟨⟨received, w⟩, hr⟩ : ∃ r, linkSockets.udpRecv c.sockets = r := ⟨_, rfl⟩
  have hw : w = { c.sockets with os := os } := (congrArg Prod.snd hr).symm.trans hos
  have hquiet : Kept c { c with sockets := w } :=
    SamePlace.kept (a := { c with sockets := w }) ⟨rfl, rfl, rfl, rfl, rfl⟩ hw rfl rfl
  rw [pollUdp, hr]
  cases received with
  | none => exact .kept hquiet
  | some buf =>
    dsimp only
    split
    · exact .kept hquiet
    · simp only [pollUdp, ite_self]
      exact handled_effect game hw rfl (welcomeIn_pose (hp buf (hmem buf (congrArg Prod.fst hr)))) rfl
        (List.suffix_refl _)

theorem mergeIncoming_place (net : NetRuntime) : (mergeIncoming net).joined = net.joined ∧
    Place.own (mergeIncoming net) = Place.own net ∧ (mergeIncoming net).udpToken = net.udpToken ∧
    (mergeIncoming net).udpBound = net.udpBound := by
  have hfold : ∀ (qs : List QueuedPose) (net : NetRuntime), (qs.foldl mergePose net).joined = net.joined ∧
      Place.own (qs.foldl mergePose net) = Place.own net ∧ (qs.foldl mergePose net).udpToken = net.udpToken ∧
      (qs.foldl mergePose net).udpBound = net.udpBound := by
    intro qs
    induction qs with
    | nil => exact fun net => ⟨rfl, rfl, rfl, rfl⟩
    | cons q qs ih =>
      intro net
      obtain ⟨hj, ho, ht, hb⟩ := ih (mergePose net q)
      have hq : (mergePose net q).joined = net.joined ∧ Place.own (mergePose net q) = Place.own net ∧
          (mergePose net q).udpToken = net.udpToken ∧ (mergePose net q).udpBound = net.udpBound := by
        unfold mergePose
        dsimp only
        split <;> exact ⟨rfl, rfl, rfl, rfl⟩
      exact ⟨hj.trans hq.1, ho.trans hq.2.1, ht.trans hq.2.2.1, hb.trans hq.2.2.2⟩
  exact hfold net.incoming net

theorem finish_effect (c : Plugin.Client Link) : Effect c (pollFinish c) .finish := by
  unfold pollFinish serverTimeout
  dsimp only
  split
  · rw [leave_joined]
    exact .hung (hung_leave rfl (.inl rfl) (List.suffix_refl _))
  · split
    · exact .kept (.refl c)
    · obtain ⟨hj, ho, ht, hb⟩ := mergeIncoming_place c.session.net
      exact .kept (SamePlace.kept (a := c) ⟨rfl, hj, ho, ht, hb⟩ rfl rfl rfl)

theorem begin_effect (game : LocalGame) (c : Plugin.Client Link) : Effect c (pollBegin game c) (.begin game) := by
  unfold pollBegin
  split
  · exact .hung (hung_leave rfl (.inl rfl) (List.suffix_refl _))
  · exact .kept (kept_prelude game c)

theorem kept_emit (data : Bytes) (c : Plugin.Client Link) : Kept c (Plugin.udpSend linkSockets data c).2 := by
  have hlink : ∃ air, (c.sockets.udpSend data).2 = { c.sockets with air := c.sockets.air ++ air } := by
    unfold Link.udpSend
    split
    · exact ⟨[], by rw [List.append_nil]⟩
    · split
      · exact ⟨[_], rfl⟩
      · exact ⟨[], by rw [List.append_nil]⟩
  obtain ⟨air, hair⟩ := hlink
  have hsockets : (Plugin.udpSend linkSockets data c).2.sockets = { c.sockets with air := c.sockets.air ++ air } := hair
  have hsession : (Plugin.udpSend linkSockets data c).2.session = c.session := rfl
  generalize (Plugin.udpSend linkSockets data c).2 = c' at hsockets hsession
  have hwelcomes : welcomes c' = welcomes c := welcomes_of_down (by rw [hsockets])
  refine ⟨⟨by rw [hsockets], by rw [hsockets], by rw [hsockets],
    ⟨[], by rw [hsockets, framesOn, List.map_nil, List.append_nil], nofun, fun h => absurd rfl h⟩, ?_, ?_,
    by rw [hwelcomes]; exact fun _ hm => hm, by rw [hsession]; exact id, by rw [hsession]; exact fun _ h => h⟩,
    fun hb => .inl ⟨hsession ▸ hb.1, hwelcomes.symm.trans hb.2⟩⟩
  · rw [hsockets]
    exact List.subset_append_left _ _
  · rw [told, told, hwelcomes, hsession]

/-- Every call keeps the connection, hangs up or opens a new one. -/
theorem run_effect {a : Call} {c : Plugin.Client Link} (hw : ∀ w ∈ welcomes c, w.udpToken ≠ 0)
    (hudp : c.session.net.joined = true → c.sockets.udp ≠ none) (ha : a.Proper c.sockets.os) (hr : Rebinds c a) :
    Effect c (a.run c) a := by
  have hjoined : ∀ c' : Plugin.Client Link, (c.session.net.joined = true → Effect c c' a) →
      Effect c (if c.session.net.joined then c' else c) a := by
    intro c' h
    split
    · rename_i hj
      exact h hj
    · exact .kept (.refl c)
  cases a with
  | join game flags =>
    rcases join_cases game flags ha with h | h
    · exact .hung h
    · exact .opened h ha game flags rfl
  | leave => exact .hung (hung_leave rfl (.inl rfl) (List.suffix_refl _))
  | begin game => exact hjoined _ fun _ => begin_effect game c
  | turn game => exact hjoined _ fun hj => turn_effect game hw (hudp hj) hr
  | hear game => exact hjoined _ fun _ => hear_effect game ha
  | finish => exact hjoined _ fun _ => finish_effect c
  | say data => exact hjoined _ fun _ => .kept (sent_tcpSend ha c).kept
  | emit data => exact hjoined _ fun _ => .kept (kept_emit data c)

/-- What a call does to the client's connection, whatever the socket answers. -/
inductive Outcome (c c' : Plugin.Client Link) (a : Call) : Prop
  | steady (h : Steady c c')
  | hung (h : Hung c c')
  | opened (h : Opened c.sockets.os c c') (h0 : c.sockets.os.newConn ≠ 0) (game flags) (ha : a = .join game flags)

theorem Effect.outcome {a : Call} {c c' : Plugin.Client Link} (h : Effect c c' a) : Outcome c c' a := by
  cases h with
  | kept h => exact .steady h.toSteady
  | hung h => exact .hung h
  | opened h h0 game flags ha => exact .opened h h0 game flags ha

/-- The turn that takes a Welcome is the only call in which the answer of the socket matters. -/
theorem turn_outcome (game : LocalGame) {c : Plugin.Client Link} (hw : ∀ w ∈ welcomes c, w.udpToken ≠ 0)
    (hudp : c.sockets.udp ≠ none) : Outcome c (pollTcp linkSockets game 1 c) (.turn game) := by
  by_cases hr : Rebinds c (.turn game)
  · exact (turn_effect game hw hudp hr).outcome
  · unfold Rebinds at hr
    push Not at hr
    obtain ⟨-, hsome, -⟩ := hr
    obtain ⟨w, hhead⟩ := Option.isSome_iff_exists.mp hsome
    obtain ⟨buf, hbuf, hin⟩ := Option.bind_eq_some_iff.mp hhead
    have hl : ¬ buf.length < sizeofHeader := by
      intro hl
      rw [welcomeIn_short hl] at hin
      cases hin
    rcases tcpRecvFrame_cases c.sockets with h | h | ⟨buf', down, hd, h⟩
    · rw [pollTcp_nothing h]
      exact .steady (.refl c)
    · rw [pollTcp_closed h]
      exact .hung (hung_leave rfl (.inr rfl) List.nil_suffix)
    · rw [hd, List.head?_cons] at hbuf
      cases hbuf
      have hmem : w ∈ welcomes c := by
        rw [welcomes, hd, List.filterMap_cons, hin]
        exact List.mem_cons_self
      rw [pollTcp_frame h hl]
      simp only [pollTcp, ite_self]
      obtain ⟨t, he⟩ := handleMessage_welcome game hin
        { c with sockets := { c.sockets with down := down }, events := c.events ++ [.frame buf] }
      rw [he]
      exact .steady (steady_handleWelcome game hd hin (hw w hmem) rfl rfl)

theorem run_outcome {a : Call} {c : Plugin.Client Link} (hw : ∀ w ∈ welcomes c, w.udpToken ≠ 0)
    (hudp : c.session.net.joined = true → c.sockets.udp ≠ none) (ha : a.Proper c.sockets.os) : Outcome c (a.run c) a := by
  cases a with
  | turn game =>
    rw [run]
    split
    · rename_i hj
      exact turn_outcome game hw (hudp hj)
    · exact .steady (.refl c)
  | _ => exact (run_effect hw hudp ha trivial).outcome

theorem pollTcp_turns (game : LocalGame) (fuel : ℕ) {c : Plugin.Client Link} (hj : c.session.net.joined = true) :
    ∃ n, pollTcp linkSockets game fuel c = (Call.turn game).run^[n] c := by
  induction fuel generalizing c with
  | zero => exact ⟨0, rfl⟩
  | succ fuel ih =>
    have hturn : (Call.turn game).run c = pollTcp linkSockets game 1 c := if_pos hj
    rcases tcpRecvFrame_cases c.sockets with h | h | ⟨buf, down, -, h⟩
    · exact ⟨1, by rw [Function.iterate_one, hturn, pollTcp_nothing h, pollTcp_nothing h]⟩
    · exact ⟨1, by rw [Function.iterate_one, hturn, pollTcp_closed h, pollTcp_closed h]⟩
    · by_cases hl : buf.length < sizeofHeader
      · refine ⟨1, ?_⟩
        rw [Function.iterate_one, hturn, pollTcp, pollTcp, h]
        dsimp only
        rw [if_pos hl, if_pos hl]
      · rw [pollTcp_frame h hl] at hturn ⊢
        simp only [pollTcp, ite_self] at hturn
        dsimp only
        split
        · rename_i hj'
          obtain ⟨n, hn⟩ := ih hj'
          exact ⟨n + 1, by rw [hn, Function.iterate_succ_apply, hturn]⟩
        · exact ⟨1, by rw [Function.iterate_one, hturn]⟩

theorem pollUdp_hears (game : LocalGame) (fuel : ℕ) {c : Plugin.Client Link} (hj : c.session.net.joined = true) :
    ∃ n, pollUdp linkSockets game fuel c = (Call.hear game).run^[n] c := by
  induction fuel generalizing c with
  | zero => exact ⟨0, rfl⟩
  | succ fuel ih =>
    have hhear : (Call.hear game).run c = pollUdp linkSockets game 1 c := if_pos hj
    obtain ⟨⟨received, w⟩, hr⟩ : ∃ r, linkSockets.udpRecv c.sockets = r := ⟨_, rfl⟩
    rw [pollUdp, hr] at hhear ⊢
    cases received with
    | none => exact ⟨1, by rw [Function.iterate_one, hhear]⟩
    | some buf =>
      simp only [pollUdp, ite_self] at hhear
      dsimp only
      split
      · rename_i hl
        rw [if_pos hl] at hhear
        exact ⟨1, by rw [Function.iterate_one, hhear]⟩
      · rename_i hl
        rw [if_neg hl] at hhear
        split
        · rename_i hj'
          obtain ⟨n, hn⟩ := ih hj'
          exact ⟨n + 1, by rw [hn, Function.iterate_succ_apply, hhear]⟩
        · exact ⟨1, by rw [Function.iterate_one, hhear]⟩

/-- `CMP_NetPoll` is its pieces, one after another. -/
theorem netPoll_pieces (game : LocalGame) (c : Plugin.Client Link) : ∃ n m, netPoll linkSockets game c =
    Call.finish.run ((Call.hear game).run^[m] ((Call.turn game).run^[n] ((Call.begin game).run c))) := by
  have hout : ∀ {c : Plugin.Client Link}, ¬ c.session.net.joined = true → Call.finish.run c = c := fun h => if_neg h
  unfold netPoll
  split
  · rename_i hj
    have hj : ¬ c.session.net.joined = true := by simpa using hj
    have hbegin : (Call.begin game).run c = c := if_neg hj
    exact ⟨0, 0, by rw [Function.iterate_zero_apply, Function.iterate_zero_apply, hbegin, hout hj]⟩
  · rename_i hj
    have hj : c.session.net.joined = true := by simpa using hj
    have hbegin : (Call.begin game).run c = pollBegin game c := if_pos hj
    rw [hbegin, pollBegin]
    split
    · exact ⟨0, 0, (hout (by rw [leave_joined]; exact Bool.false_ne_true)).symm⟩
    · have hview : KeptBySends linkSockets fun _ : Link => () := ⟨fun _ _ => rfl, fun _ _ => rfl⟩
      have hsends := sends_prelude hview game c
      obtain ⟨n, hn⟩ := pollTcp_turns game 16 ((congrArg Core.joined hsends.core).trans hj)
      dsimp only
      generalize pollTcp linkSockets game 16 (prelude linkSockets game c) = c₁ at hn
      split
      · rename_i hj₁
        have hj₁ : ¬ c₁.session.net.joined = true := by simpa using hj₁
        exact ⟨n, 0, by rw [← hn, Function.iterate_zero_apply, hout hj₁]⟩
      · rename_i hj₁
        obtain ⟨m, hm⟩ := pollUdp_hears game 16 (c := c₁) (by simpa using hj₁)
        refine ⟨n, m, ?_⟩
        rw [← hn, ← hm]
        generalize pollUdp linkSockets game 16 c₁ = c₂
        split
        · rename_i hj₂
          exact (hout (by simpa using hj₂)).symm
        · rename_i hj₂
          exact (if_pos (by simpa using hj₂)).symm

end Call
end CommonwealthMP
