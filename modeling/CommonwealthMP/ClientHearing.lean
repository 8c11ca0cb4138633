import CommonwealthMP.JointConnections

/-! # What a client makes of what it hears

A part of the session that only messages change is known as soon as the frames are under way: it
is what handling them one after another leaves. What the server keeps in step with that part on
every connection, the client has once nothing is under way. -/
namespace CommonwealthMP
open ByteLayout OrderedTables SessionTable StepRuns Plugin ServerRuntime
namespace Call

/-- No message has changed the session, nor has the clock. -/
structure Undisturbed (s s' : Session) : Prop where
  core : s'.core = s.core
  appearanceParts : s'.blobs.appearanceParts = s.blobs.appearanceParts
  inventoryParts : s'.blobs.inventoryParts = s.blobs.inventoryParts

theorem Undisturbed.refl (s : Session) : Undisturbed s s := ⟨rfl, rfl, rfl⟩

theorem Undisturbed.trans {s s' s'' : Session} (h : Undisturbed s s') (h' : Undisturbed s' s'') : Undisturbed s s'' :=
  ⟨h'.core.trans h.core, h'.appearanceParts.trans h.appearanceParts, h'.inventoryParts.trans h.inventoryParts⟩

section Sends
variable {σ : Type} {S : Sockets σ}

theorem undisturbed_sendChunks (type : Msg) (blob : Bytes) (c : Plugin.Client σ) :
    Undisturbed c.session (sendChunks S type blob c).session := by
  unfold sendChunks
  split
  · exact .refl _
  · rename_i packets _
    clear * -
    induction packets generalizing c with
    | nil => exact .refl _
    | cons packet packets ih => exact ih (Plugin.tcpSend S packet c)

theorem undisturbed_sendAppearance (game : LocalGame) (force : Bool) (c : Plugin.Client σ) :
    Undisturbed c.session (sendAppearance S game force c).session := by
  unfold sendAppearance
  dsimp only
  split
  · exact .refl _
  · split
    · exact .refl _
    · split
      · exact ⟨rfl, rfl, rfl⟩
      · rename_i blob _
        have h := undisturbed_sendChunks (S := S) .AppearanceChunk blob
          { c with session.blobs.lastAppearanceSend := S.nowSec c.sockets, session.blobs.lastEquipKey := game.equipKey }
        exact ⟨h.core, h.appearanceParts, h.inventoryParts⟩

theorem undisturbed_sendInventory (game : LocalGame) (force : Bool) (c : Plugin.Client σ) :
    Undisturbed c.session (sendInventory S game force c).session := by
  unfold sendInventory
  dsimp only
  split
  · exact .refl _
  · split
    · exact .refl _
    · split
      · exact ⟨rfl, rfl, rfl⟩
      · rename_i blob _
        have h := undisturbed_sendChunks (S := S) .InventoryChunk blob
          { c with session.blobs.lastInventorySend := S.nowSec c.sockets, session.blobs.lastInvKey := game.invKey }
        exact ⟨h.core, h.appearanceParts, h.inventoryParts⟩

theorem undisturbed_bindUdp (c : Plugin.Client σ) : Undisturbed c.session (bindUdp S c).session := by
  unfold bindUdp udpSend
  dsimp only
  split <;> exact ⟨rfl, rfl, rfl⟩

theorem undisturbed_handleWelcome (game : LocalGame) (welcome : Welcome) (c : Plugin.Client σ) :
    Undisturbed (c.session.welcomed welcome) (handleWelcome S game welcome c).session := by
  have hbind := undisturbed_bindUdp (S := S) { c with session := c.session.welcomed welcome }
  have hlook := undisturbed_sendAppearance (S := S) game true (Plugin.tcpSend S
    (localSnapshot game (bindUdp S { c with session := c.session.welcomed welcome }).session.net)
    (bindUdp S { c with session := c.session.welcomed welcome }))
  exact (hbind.trans hlook).trans ⟨rfl, rfl, rfl⟩

/-- What the poll does before it reads changes nothing but the assemblies that it expires. -/
theorem undisturbed_prelude (game : LocalGame) (c : Plugin.Client σ) :
    ∃ d : Plugin.Client σ, Undisturbed c.session d.session ∧ prelude S game c = expireParts (S.nowSec c.sockets) d := by
  have hretry : Undisturbed c.session (helloRetry S game (S.nowSec c.sockets) c).session := by
    unfold helloRetry
    dsimp only
    split
    · split <;> exact ⟨rfl, rfl, rfl⟩
    · exact .refl _
  have hbind : Undisturbed c.session (bindRetry S (helloRetry S game (S.nowSec c.sockets) c)).session := by
    unfold bindRetry
    dsimp only
    split
    · exact hretry.trans (undisturbed_bindUdp _)
    · exact hretry
  have hdue : ∀ d : Plugin.Client σ, Undisturbed d.session (inventoryDue S game (S.nowSec c.sockets) d).session := by
    intro d
    unfold inventoryDue
    dsimp only
    split
    · have h := undisturbed_sendInventory (S := S) game true { d with session.blobs.pendingInventoryForce := false }
      exact ⟨h.core, h.appearanceParts, h.inventoryParts⟩
    · exact .refl _
  exact ⟨_, hbind.trans (hdue _), rfl⟩

end Sends

/-- What a leave resets of what messages say. -/
structure Blank (s : Session) : Prop where
  isHost : s.net.isHost = false
  appearances : s.blobs.appearances = ∅
  inventories : s.blobs.inventories = ∅
  appearanceParts : s.blobs.appearanceParts = ∅
  inventoryParts : s.blobs.inventoryParts = ∅
  sessionFlags : s.menu.sessionFlags = 0

theorem blank_join (game : LocalGame) (flags : UInt8) (c : Plugin.Client Link) :
    Blank (Plugin.join linkSockets game flags c).2.session := by
  unfold Plugin.join
  dsimp only
  split
  · exact ⟨rfl, rfl, rfl, rfl, rfl, rfl⟩
  · split
    · exact ⟨rfl, rfl, rfl, rfl, rfl, rfl⟩
    · split
      · exact ⟨rfl, rfl, rfl, rfl, rfl, rfl⟩
      · split <;> exact ⟨rfl, rfl, rfl, rfl, rfl, rfl⟩

/-- A part of the session, what it is after a join, and what a message makes of it. -/
structure Hearing (χ : Type) where
  part : Session → χ
  blank : χ
  hear : χ → Bytes → χ
  joined : ∀ {s}, Blank s → part s = blank
  undisturbed : ∀ {s s'}, Undisturbed s s' → part s' = part s
  merged : ∀ s, part { s with net := mergeIncoming s.net } = part s
  message : ∀ (game : LocalGame) {buf : Bytes} {c : Plugin.Client Link}, endsSession c.session.net.myPeerId buf = false →
    part (handleMessage linkSockets game buf c).session = hear (part c.session) buf
  invalid : ∀ x {buf : Bytes}, headerOk (Header.decode buf) buf.length = none → hear x buf = x
  pose : ∀ x {buf : Bytes}, typeIs .PlayerPose buf ∨ typeIs .ActorPose buf → hear x buf = x

variable {χ : Type} (H : Hearing χ)

/-- The part that the client will have when it has handled what is under way. -/
def Hearing.told (c : Plugin.Client Link) : χ := c.sockets.down.foldl H.hear (H.part c.session)

theorem Hearing.told_of_nil {c : Plugin.Client Link} (h : c.sockets.down = []) : H.told c = H.part c.session := by
  rw [told, h]
  rfl

theorem keptBySends_down : KeptBySends linkSockets Link.down := by
  constructor
  · intro data w
    show (w.tcpSend data).2.down = w.down
    unfold Link.tcpSend
    split <;> rfl
  · intro data w
    show (w.udpSend data).2.down = w.down
    unfold Link.udpSend
    split
    · rfl
    · split <;> rfl

theorem leave_conn (c : Plugin.Client Link) : (Plugin.leave linkSockets c).sockets.conn = 0 :=
  (hung_leave (c := c) rfl (.inl rfl) (List.suffix_refl _)).conn

/-- A frame that ends the session takes the connection with it. -/
theorem handleMessage_conn (game : LocalGame) {buf : Bytes} {c : Plugin.Client Link}
    (h : endsSession c.session.net.myPeerId buf = true) : (handleMessage linkSockets game buf c).sockets.conn = 0 := by
  cases hh : headerOk (Header.decode buf) buf.length with
  | none => simp [endsSession, hh] at h
  | some type =>
    rw [handleMessage, hh]
    dsimp only
    rw [message_leaves game { c with session.lastRecvSec := linkSockets.nowSec c.sockets } hh h]
    exact leave_conn _

theorem endsSession_pose {me : UInt32} {buf : Bytes} (h : typeIs .PlayerPose buf ∨ typeIs .ActorPose buf) :
    endsSession me buf = false := by
  unfold endsSession
  cases hh : headerOk (Header.decode buf) buf.length with
  | none => rfl
  | some type =>
    have htype : u8At buf 4 = type.code := (headerOk_spec hh).1
    have hpose : type.code = Msg.PlayerPose.code ∨ type.code = Msg.ActorPose.code :=
      h.imp (fun h => htype.symm.trans h) fun h => htype.symm.trans h
    cases type <;> first | rfl | (exfalso; revert hpose; decide)

/-- A frame is handled: what it says moves from what is under way to what the client has. -/
theorem Hearing.told_frame (game : LocalGame) {c c₁ : Plugin.Client Link} {buf : Bytes} {down : List Bytes}
    (hd : c.sockets.down = buf :: down) (hl : c₁.sockets.down = down) (hs : c₁.session = c.session)
    (hconn : (handleMessage linkSockets game buf c₁).sockets.conn ≠ 0) : H.told (handleMessage linkSockets game buf c₁) = H.told c := by
  cases he : endsSession c₁.session.net.myPeerId buf with
  | true => exact absurd (handleMessage_conn game he) hconn
  | false =>
    have hdown : (handleMessage linkSockets game buf c₁).sockets.down = down :=
      (handleMessage_carries keptBySends_down game he).view.trans hl
    rw [told, told, hdown, H.message game he, hs, hd, List.foldl_cons]

theorem headerOk_short {buf : Bytes} (h : buf.length < sizeofHeader) : headerOk (Header.decode buf) buf.length = none := by
  unfold headerOk
  rw [if_pos]
  by_cases hs : buf.length < (Header.decode buf).size.toNat
  · exact .inr (.inl hs)
  · exact .inr (.inr (by omega))

theorem Hearing.told_turn (game : LocalGame) {c : Plugin.Client Link} (hconn : (pollTcp linkSockets game 1 c).sockets.conn ≠ 0) :
    H.told (pollTcp linkSockets game 1 c) = H.told c := by
  rcases tcpRecvFrame_cases c.sockets with h | h | ⟨buf, down, hd, h⟩
  · rw [pollTcp_nothing h]
  · rw [pollTcp_closed h] at hconn
    exact absurd (leave_conn _) hconn
  · by_cases hl : buf.length < sizeofHeader
    · have hshort : pollTcp linkSockets game 1 c = { c with sockets := { c.sockets with down := down } } := by
        rw [pollTcp, h]
        dsimp only
        rw [if_pos hl]
      rw [hshort, told, told, hd, List.foldl_cons, H.invalid _ (headerOk_short hl)]
    · rw [pollTcp_frame h hl] at hconn ⊢
      simp only [pollTcp, ite_self] at hconn ⊢
      exact H.told_frame game hd rfl rfl hconn

theorem Hearing.told_hear (game : LocalGame) {c : Plugin.Client Link}
    (hp : ∀ data ∈ c.sockets.os.datagram, typeIs .PlayerPose data ∨ typeIs .ActorPose data) :
    H.told (pollUdp linkSockets game 1 c) = H.told c := by
  obtain ⟨⟨os, hos⟩, hmem⟩ := udpRecv_link c.sockets
  obtain ⟨⟨received, w⟩, hr⟩ : ∃ r, linkSockets.udpRecv c.sockets = r := ⟨_, rfl⟩
  have hlink : w = { c.sockets with os := os } := (congrArg Prod.snd hr).symm.trans hos
  have hw : w.down = c.sockets.down := by rw [hlink]
  rw [pollUdp, hr]
  cases received with
  | none =>
    dsimp only
    rw [told, told, hw]
  | some buf =>
    dsimp only
    split
    · rw [told, told, hw]
    · simp only [pollUdp, ite_self]
      have hpose := hp buf (hmem buf (congrArg Prod.fst hr))
      have he : endsSession c.session.net.myPeerId buf = false := endsSession_pose hpose
      have hcarries := handleMessage_carries keptBySends_down game
        (c := { c with sockets := w, events := c.events ++ [.datagram buf] }) he
      have hmessage := H.message game (c := { c with sockets := w, events := c.events ++ [.datagram buf] }) he
      rw [H.pose _ hpose] at hmessage
      rw [told, told, hmessage, hcarries.view, hw]

/-- A call that keeps the connection leaves what the client has been told as it is, if it expires nothing. -/
theorem Hearing.told_run {a : Call} {c : Plugin.Client Link} (ha : a.Proper c.sockets.os) (hjoin : ∀ game flags, a ≠ .join game flags)
    (hexpire : ∀ game, a = .begin game → H.part (prelude linkSockets game c).session = H.part c.session)
    (hconn : (a.run c).sockets.conn ≠ 0) : H.told (a.run c) = H.told c := by
  have hjoined : ∀ c' : Plugin.Client Link, (c'.sockets.conn ≠ 0 → H.told c' = H.told c) →
      (if c.session.net.joined then c' else c).sockets.conn ≠ 0 →
        H.told (if c.session.net.joined then c' else c) = H.told c := by
    intro c' h hconn
    split
    · rename_i hj
      rw [if_pos hj] at hconn
      exact h hconn
    · rfl
  cases a with
  | join game flags => exact absurd rfl (hjoin game flags)
  | leave => exact absurd (leave_conn c) hconn
  | begin game =>
    refine hjoined (pollBegin game c) (fun hconn => ?_) hconn
    unfold pollBegin at hconn ⊢
    split
    · rename_i hlost
      rw [if_pos hlost] at hconn
      exact absurd (leave_conn _) hconn
    · rw [told, told, hexpire game rfl, (sends_prelude keptBySends_down game c).view]
  | turn game => exact hjoined _ (H.told_turn game) hconn
  | hear game => exact hjoined _ (fun _ => H.told_hear game ha) hconn
  | finish =>
    refine hjoined (pollFinish c) (fun hconn => ?_) hconn
    unfold pollFinish serverTimeout at hconn ⊢
    dsimp only at hconn ⊢
    split
    · rename_i hlate
      rw [if_pos hlate, leave_joined] at hconn
      exact absurd (leave_conn _) hconn
    · split
      · rfl
      · exact congrArg (c.sockets.down.foldl H.hear) (H.merged c.session)
  | say data => exact hjoined _ (fun _ => congrArg (List.foldl H.hear _) (keptBySends_down.tcp data c.sockets)) hconn
  | emit data => exact hjoined _ (fun _ => congrArg (List.foldl H.hear _) (keptBySends_down.udp data c.sockets)) hconn

end Call

namespace Joint
open Call

variable {χ : Type}

/-- `T` relates the server to what is told on a connection: every step that meets `P` keeps it, as long as the connection
stays open, and a connection the server has no session on meets it before anything is told. -/
structure Follows (H : Hearing χ) (T : ServerRuntime → ConnId → χ → Prop)
    (P : ServerRuntime → Env × ServerRuntime.Input → ConnId → χ → Prop) : Prop where
  unheard : ∀ {s k}, (∀ p e, s.sessions.live p = some e → e.conn ≠ k) → T s k H.blank
  step : ∀ {s i k x used}, Reachable s → Owned used s.sessions → 0 ∉ used → k ≠ 0 → closeCmd k ∉ (s.step i).outbound →
    closedConn i ≠ some k → P s i k x → T s k x → T (s.step i) k ((framesTo k (s.step i).outbound).foldl H.hear x)

/-- The server's step meets `P` for the connection of the client, while it is open. -/
def Served (H : Hearing χ) (P : ServerRuntime → Env × ServerRuntime.Input → ConnId → χ → Prop) (w : Joint)
    (i : Env × ServerRuntime.Input) : Prop :=
  w.client.sockets.conn ≠ 0 → w.client.sockets.closed = false → P w.server i w.client.sockets.conn (H.told w.client)

/-- The steps of the system that meet `P`, and in which the poll expires nothing that `H` is about. -/
def Meets (H : Hearing χ) (P : ServerRuntime → Env × ServerRuntime.Input → ConnId → χ → Prop) (w : Joint) : Action → Prop
  | .call os a => ∀ game, a = .begin game →
    H.part (prelude linkSockets game { w.client with sockets.os := os }).session = H.part w.client.session
  | .serve c env t stamp => ∀ r ∈ takeItem c w.client.sockets.up, w.Served H P (env, .inbound (r.1.event c stamp) t)
  | .arrive n env t => ∀ d ∈ w.client.sockets.air[n]?,
    w.Served H P (env, .inbound { kind := .UdpDatagram, addr := d.1, bytes := d.2 } t)
  | .lose _ => True
  | .other i => w.Served H P i

/-- What the client has been told is what the server has for its connection. -/
structure InStep (H : Hearing χ) (T : ServerRuntime → ConnId → χ → Prop) (w : Joint) : Prop where
  linked : Linked w
  server : Reachable w.server
  told : w.client.sockets.conn ≠ 0 → w.client.sockets.closed = false → T w.server w.client.sockets.conn (H.told w.client)

variable {H : Hearing χ} {T : ServerRuntime → ConnId → χ → Prop} {P : ServerRuntime → Env × ServerRuntime.Input → ConnId → χ → Prop}

theorem inStep_start (b : Startup) (settings : Settings) : InStep H T (start b settings) :=
  ⟨linked_start b settings, ⟨b, [], rfl⟩, fun h => absurd rfl h⟩

theorem InStep.call (hf : Follows H T P) {w : Joint} (h : InStep H T w) {os : Answers} {a : Call} (hcan : w.CanCall os a)
    (hm : Meets H P w (.call os a)) :
    InStep H T { w with
      client := a.run { w.client with sockets.os := os }, mine := w.mine ++ opens os a, taken := w.taken ++ opens os a } := by
  refine ⟨h.linked.call hcan, h.server, fun hconn hopen => ?_⟩
  by_cases hjoin : ∃ game flags, a = .join game flags
  · obtain ⟨game, flags, rfl⟩ := hjoin
    have hnew : os.newConn ∉ w.taken := hcan.2 _ (List.mem_singleton.mpr rfl)
    rcases join_cases game flags (c := { w.client with sockets.os := os }) hcan.1 with hhung | hopened
    · exact absurd hhung.conn hconn
    · have hnone := hf.unheard (k := os.newConn) fun p e he => h.linked.numbered.no_session hnew he
      have htold : H.told (Plugin.join linkSockets game flags { w.client with sockets.os := os }).2 = H.blank :=
        (H.told_of_nil hopened.down).trans (H.joined (blank_join game flags { w.client with sockets.os := os }))
      rw [← hopened.conn, ← htold] at hnone
      exact hnone
  · push Not at hjoin
    have hattached := h.linked.attached.answered os
    have houtcome := run_outcome (a := a) (c := { w.client with sockets.os := os }) hattached.welcomes hattached.udp hcan.1
    have htold := H.told_run (c := { w.client with sockets.os := os }) hcan.1 hjoin hm hconn
    dsimp only at hconn hopen ⊢
    rw [htold]
    generalize a.run { w.client with sockets.os := os } = c' at houtcome hconn hopen
    cases houtcome with
    | steady hsteady =>
      rw [hsteady.conn] at hconn ⊢
      rw [hsteady.closed] at hopen
      exact h.told hconn hopen
    | hung hhung => exact absurd hhung.conn hconn
    | opened hopened h0 game flags ha => exact absurd ha (hjoin game flags)

/-- A step of the server, from a state whose connections are in order just before it. -/
theorem InStep.tell (hf : Follows H T P) {w : Joint} {i : Env × ServerRuntime.Input} (hn : Numbered (acceptedConn i) w)
    (ha : Attached w.client) (hs : Reachable w.server)
    (h : w.client.sockets.conn ≠ 0 → w.client.sockets.closed = false → T w.server w.client.sockets.conn (H.told w.client))
    (hhung : w.client.sockets.conn ≠ 0 → closedConn i ≠ some w.client.sockets.conn) (hp : w.Served H P i) :
    InStep H T (w.tell i) := by
  obtain ⟨used, ho, -, htaken⟩ := hn.owned
  have hzero : 0 ∉ used := fun hm => hn.zero (htaken 0 (List.mem_append_left _ hm))
  refine ⟨.tell hn ha, hs.step i, fun h0' hopen' => ?_⟩
  have hconn : (w.tell i).client.sockets.conn = w.client.sockets.conn := (receive_link w.client.sockets _).1
  have h0 : w.client.sockets.conn ≠ 0 := hconn ▸ h0'
  have hopen : w.client.sockets.closed = false := by
    cases hopen : w.client.sockets.closed with
    | false => rfl
    | true =>
      rw [Joint.tell, Link.receive_of_closed hopen, hopen] at hopen'
      cases hopen'
  rcases Link.receive_cases h0 hopen (w.server.step i).outbound with ⟨hnot, he⟩ | ⟨frames, -, he⟩
  · have htold : H.told (w.tell i).client =
        (framesTo w.client.sockets.conn (w.server.step i).outbound).foldl H.hear (H.told w.client) := by
      rw [Hearing.told, Joint.tell, he]
      exact List.foldl_append
    rw [hconn, htold]
    exact hf.step hs ho hzero h0 hnot (hhung h0) (hp h0 hopen) (h h0 hopen)
  · rw [Joint.tell, he] at hopen'
    cases hopen'

theorem InStep.step (hf : Follows H T P) {w : Joint} (h : InStep H T w) {a : Action} (hm : Meets H P w a) :
    InStep H T (w.step a) := by
  cases a with
  | call os a =>
    rw [Joint.step]
    split
    · rename_i hcan
      exact h.call hf hcan hm
    · exact h
  | serve c env t stamp =>
    rw [Joint.step]
    split
    · exact h
    · rename_i item up hr
      obtain ⟨hnumbered, hattached⟩ := h.linked.taken hr env t stamp
      refine InStep.tell hf hnumbered hattached h.server h.told (fun _ hc => ?_) (hm (item, up) hr)
      -- the client closes a connection only when it leaves it
      have hitem : (c, item) ∈ w.client.sockets.up := (takeItem_spec hr).mem_iff.mpr List.mem_cons_self
      cases item with
      | closed =>
        have hc : c = w.client.sockets.conn := by simpa [closedConn, UpItem.event] using hc
        exact (h.linked.attached.quiet (c, .closed) hitem hc).1 rfl
      | _ => cases hc
  | arrive n env t =>
    rw [Joint.step]
    split
    · exact h
    · rename_i addr data hd
      have haired := h.linked.aired (w.client.sockets.air.eraseIdx n)
      exact InStep.tell hf haired.numbered haired.attached h.server h.told (fun _ hc => by cases hc) (hm (addr, data) hd)
  | lose n => exact ⟨h.linked.aired _, h.server, h.told⟩
  | other i =>
    rw [Joint.step]
    split
    · rename_i hi
      refine InStep.tell hf (h.linked.numbered_other hi) h.linked.attached h.server h.told (fun h0 hc => ?_) hm
      -- others close connections of their own
      obtain ⟨env, i⟩ := i
      cases i with
      | inbound ev t =>
        rw [closedConn] at hc
        dsimp only at hc
        split at hc
        · rename_i hkind
          exact hi.2 (.inr hkind) (Option.some.inj hc ▸ h.linked.numbered.conn_mine h0)
        · cases hc
      | _ => cases hc
    · exact h

/-- What the server keeps in step with every connection, it keeps in step with the client along every run. -/
theorem inStep_run (hf : Follows H T P) (b : Startup) (settings : Settings) {as : List Action}
    (hm : AllSteps Joint.step (Meets H P) (start b settings) as) : InStep H T (run Joint.step (start b settings) as) :=
  run_invariant (fun _ _ hi hm => hi.step hf hm) (inStep_start b settings) hm

/-- No TCP message is under way in either direction. -/
structure Settled (w : Joint) : Prop where
  up : w.client.sockets.up = []
  down : w.client.sockets.down = []
  stream : w.client.sockets.closed = false

/-- A client with nothing under way has what it has been told. -/
theorem InStep.settled {w : Joint} (h : InStep H T w) (hs : Settled w) (h0 : w.client.sockets.conn ≠ 0) :
    T w.server w.client.sockets.conn (H.part w.client.session) := by
  have htold := h.told h0 hs.stream
  rwa [H.told_of_nil hs.down] at htold

end Joint
end CommonwealthMP
