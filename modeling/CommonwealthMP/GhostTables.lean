import CommonwealthMP.PluginClient
import CommonwealthMP.StepRuns

/-! # The tables of the other peers after a departure

A Bye arrives on the TCP stream, poses arrive as datagrams. The poll drains TCP, then UDP, and
then merges the queued poses, so what decides is whether a pose of the departed peer is still
taken from the UDP socket after the Bye. -/
namespace CommonwealthMP.Plugin
open ByteLayout OrderedTables StepRuns

variable {σ : Type} {S : Sockets σ} {P : UInt32}

def isByeOf (P : UInt32) (buf : Bytes) : Bool :=
  match headerOk (Header.decode buf) buf.length with
  | some .Bye => (Bye.decode buf).peerId == P
  | _ => false

def isPoseOf (P : UInt32) (buf : Bytes) : Bool :=
  match headerOk (Header.decode buf) buf.length with
  | some .PlayerPose => (PlayerPose.decode buf).peerId == P
  | _ => false

def isChunkOf (P : UInt32) (buf : Bytes) : Bool :=
  match headerOk (Header.decode buf) buf.length with
  | some .AppearanceChunk | some .InventoryChunk => (BlobChunk.decode buf).peerId == P
  | _ => false

/-- The session holds nothing of `P` that a ghost is drawn from. -/
structure Forgotten (P : UInt32) (s : Session) : Prop where
  latestPose : P ∉ s.net.latestPose
  poseRing : P ∉ s.net.poseRing
  appearances : P ∉ s.blobs.appearances
  inventories : P ∉ s.blobs.inventories

/-- No pose of `P` waits to be merged. -/
def NoneQueued (P : UInt32) (s : Session) : Prop := ∀ q ∈ s.net.incoming, q.pose.peerId ≠ P

theorem Forgotten.of_core {s s' : Session} (h : Forgotten P s) (hc : s'.core = s.core) : Forgotten P s' where
  latestPose := by rw [show s'.net.latestPose = s.net.latestPose from congrArg Core.latestPose hc]; exact h.latestPose
  poseRing := by rw [show s'.net.poseRing = s.net.poseRing from congrArg Core.poseRing hc]; exact h.poseRing
  appearances := by rw [show s'.blobs.appearances = s.blobs.appearances from congrArg Core.appearances hc]; exact h.appearances
  inventories := by rw [show s'.blobs.inventories = s.blobs.inventories from congrArg Core.inventories hc]; exact h.inventories

theorem incoming_of_core {s s' : Session} (hc : s'.core = s.core) : s'.net.incoming = s.net.incoming :=
  congrArg Core.incoming hc

theorem forgotten_left (s : Session) : Forgotten P s.left :=
  ⟨AList.notMem_empty P, AList.notMem_empty P, AList.notMem_empty P, AList.notMem_empty P⟩

theorem forgotten_forgetPeer (s : Session) : Forgotten P (forgetPeer P s) := by
  constructor <;> simp [forgetPeer, AList.mem_erase]

theorem Forgotten.forgetPeer {s : Session} (h : Forgotten P s) (other : UInt32) : Forgotten P (forgetPeer other s) := by
  constructor
  · exact fun hm => h.latestPose (AList.mem_erase.mp hm).2
  · exact fun hm => h.poseRing (AList.mem_erase.mp hm).2
  · exact fun hm => h.appearances (AList.mem_erase.mp hm).2
  · exact fun hm => h.inventories (AList.mem_erase.mp hm).2

theorem Forgotten.handleBlobChunk {s : Session} (h : Forgotten P s) {type : Msg} (now : Time) {buf : Bytes}
    (hne : (BlobChunk.decode buf).peerId ≠ P) :
    Forgotten P { s with blobs := Plugin.handleBlobChunk type now buf s.blobs } := by
  have hset (b : BlobRuntime) (parts : Table UInt32 BlobAssembly) :
      (b.setParts type parts).appearances = b.appearances ∧ (b.setParts type parts).inventories = b.inventories := by
    unfold BlobRuntime.setParts
    split <;> exact ⟨rfl, rfl⟩
  have hstore (blob : Bytes) : (P ∉ (s.blobs.store type (BlobChunk.decode buf).peerId blob).appearances) ∧
      P ∉ (s.blobs.store type (BlobChunk.decode buf).peerId blob).inventories := by
    unfold BlobRuntime.store
    split
    · exact ⟨fun hm => ((AList.mem_insert _).mp hm).elim (fun he => hne he.symm) h.appearances, h.inventories⟩
    · exact ⟨h.appearances, fun hm => ((AList.mem_insert _).mp hm).elim (fun he => hne he.symm) h.inventories⟩
  refine ⟨h.latestPose, h.poseRing, ?_, ?_⟩
  · unfold Plugin.handleBlobChunk
    dsimp only
    split
    · exact h.appearances
    · split
      · rw [(hset _ _).1]
        exact (hstore _).1
      · rw [(hset _ _).1]
        exact h.appearances
  · unfold Plugin.handleBlobChunk
    dsimp only
    split
    · exact h.inventories
    · split
      · rw [(hset _ _).2]
        exact (hstore _).2
      · rw [(hset _ _).2]
        exact h.inventories

theorem leave_session (c : Client σ) : (leave S c).session = c.session.left := by
  unfold leave tcpSend
  dsimp only
  split <;> rfl

theorem keptBySends_nothing : KeptBySends S (fun _ : σ => ()) := ⟨fun _ _ => rfl, fun _ _ => rfl⟩

theorem handleWelcome_tables (game : LocalGame) (welcome : Welcome) (c : Client σ) :
    (Forgotten P c.session → Forgotten P (handleWelcome S game welcome c).session) ∧
      (handleWelcome S game welcome c).session.net.incoming = c.session.net.incoming := by
  have hw := (sends_handleWelcome (keptBySends_nothing (S := S)) game welcome c).core
  refine ⟨fun hf => ?_, congrArg Core.incoming hw⟩
  have hset : Forgotten P (c.session.welcomed welcome) := ⟨hf.latestPose, hf.poseRing, hf.appearances, hf.inventories⟩
  exact hset.of_core hw

theorem handleMessage_forgotten {game : LocalGame} {buf : Bytes} {c : Client σ} (hf : Forgotten P c.session)
    (hc : isChunkOf P buf = false) : Forgotten P (handleMessage S game buf c).session := by
  unfold isChunkOf at hc
  unfold handleMessage
  cases hh : headerOk (Header.decode buf) buf.length with
  | none => exact hf
  | some type =>
    rw [hh] at hc
    have hseen : Forgotten P { c.session with lastRecvSec := S.nowSec c.sockets } :=
      ⟨hf.latestPose, hf.poseRing, hf.appearances, hf.inventories⟩
    dsimp only
    cases type <;> simp only [beq_eq_false_iff_ne] at hc <;> unfold message <;> dsimp only
    case Welcome =>
      split
      · exact (handleWelcome_tables game _ _).1 hseen
      · exact hseen
    case AppearanceChunk => exact hseen.handleBlobChunk _ hc
    case InventoryChunk => exact hseen.handleBlobChunk _ hc
    case Bye =>
      split
      · split
        · rw [leave_session]
          exact forgotten_left _
        · exact hseen.forgetPeer _
      · exact hseen
    case Reject =>
      split
      · rw [leave_session]
        exact forgotten_left _
      · exact hseen
    case Kick =>
      split
      · rw [leave_session]
        exact forgotten_left _
      · exact hseen
    case ActorPose =>
      split
      · unfold onActorPose
        split
        · exact hseen
        · split
          · exact hseen
          · exact ⟨hf.latestPose, hf.poseRing, hf.appearances, hf.inventories⟩
      · exact hseen
    all_goals
      first
        | exact hseen
        | (split <;> exact ⟨hf.latestPose, hf.poseRing, hf.appearances, hf.inventories⟩)

/-- A Bye of `P` forgets `P`. -/
theorem handleMessage_bye (game : LocalGame) {buf : Bytes} (c : Client σ) (h : isByeOf P buf = true) :
    Forgotten P (handleMessage S game buf c).session := by
  unfold isByeOf at h
  unfold handleMessage
  cases hh : headerOk (Header.decode buf) buf.length with
  | none => simp [hh] at h
  | some type =>
    rw [hh] at h
    dsimp only
    cases type <;> simp only [Bool.false_eq_true, beq_iff_eq] at h
    have hl : sizeofBye ≤ buf.length := headerOk_length hh fun _ => of_decide_eq_true
    unfold message
    dsimp only
    rw [if_pos hl]
    split
    · rw [leave_session]
      exact forgotten_left _
    · rw [h]
      exact forgotten_forgetPeer _

/-- Only a pose is queued. -/
theorem handleMessage_incoming {game : LocalGame} {buf : Bytes} {c : Client σ} {q : QueuedPose}
    (hq : q ∈ (handleMessage S game buf c).session.net.incoming) :
    q ∈ c.session.net.incoming ∨ isPoseOf q.pose.peerId buf = true := by
  unfold handleMessage at hq
  cases hh : headerOk (Header.decode buf) buf.length with
  | none =>
    rw [hh] at hq
    exact .inl hq
  | some type =>
    rw [hh] at hq
    dsimp only at hq
    have hleft : ∀ c' : Client σ, ¬ q ∈ (leave S c').session.net.incoming := by
      intro c' hm
      rw [leave_session] at hm
      cases hm
    cases type <;> unfold message at hq <;> dsimp only at hq
    case PlayerPose =>
      split at hq
      · rcases List.mem_append.mp hq with hq | hq
        · exact .inl hq
        · refine .inr ?_
          rw [List.mem_singleton.mp hq, isPoseOf, hh]
          exact beq_self_eq_true _
      · exact .inl hq
    case Welcome =>
      split at hq
      · rw [(handleWelcome_tables (P := 0) game _ _).2] at hq
        exact .inl hq
      · exact .inl hq
    case AppearanceChunk => exact .inl hq
    case InventoryChunk => exact .inl hq
    case Reject =>
      split at hq
      · exact absurd hq (hleft _)
      · exact .inl hq
    case Kick =>
      split at hq
      · exact absurd hq (hleft _)
      · exact .inl hq
    case Bye =>
      split at hq
      · split at hq
        · exact absurd hq (hleft _)
        · exact .inl hq
      · exact .inl hq
    case ActorPose =>
      unfold onActorPose at hq
      repeat' split at hq
      all_goals exact .inl hq
    all_goals
      first
        | exact .inl hq
        | (split at hq <;> exact .inl hq)

theorem handleMessage_events (game : LocalGame) (buf : Bytes) (c : Client σ) : (handleMessage S game buf c).events = c.events := by
  cases h : endsSession c.session.net.myPeerId buf with
  | true => exact (handleMessage_ends h).2
  | false => exact (handleMessage_carries keptBySends_nothing game h).events

/-- A condition on every event and what came before it. -/
def Throughout (Q : List Event → Event → Prop) (events : List Event) : Prop :=
  ∀ earlier e later, events = earlier ++ e :: later → Q earlier e

theorem throughout_nil {Q : List Event → Event → Prop} : Throughout Q [] := by
  intro earlier e later h
  simp at h

theorem Throughout.of_isPrefix {Q : List Event → Event → Prop} {events longer : List Event} (hp : events <+: longer)
    (h : Throughout Q longer) : Throughout Q events := by
  obtain ⟨rest, rfl⟩ := hp
  intro earlier e later he
  exact h earlier e (later ++ rest) (by rw [he, List.append_assoc, List.cons_append])

theorem throughout_concat {Q : List Event → Event → Prop} {events : List Event} {e : Event} :
    Throughout Q (events ++ [e]) ↔ Throughout Q events ∧ Q events e := by
  constructor
  · intro h
    exact ⟨h.of_isPrefix (List.prefix_append _ _), h events e [] rfl⟩
  · rintro ⟨h, hlast⟩ earlier x later he
    rcases List.eq_nil_or_concat later with rfl | ⟨later, y, rfl⟩
    · obtain ⟨rfl, hx⟩ := List.append_inj' he rfl
      cases hx
      exact hlast
    · rw [List.concat_eq_append, ← List.cons_append, ← List.append_assoc] at he
      exact h earlier x later (List.append_inj' he rfl).1

/-- A Bye of `P` has been handed to `HandleMessage`. -/
def byeSeen (P : UInt32) (events : List Event) : Bool :=
  events.any fun
    | .frame buf => isByeOf P buf
    | _ => false

/-- What the server keeps to: TCP and UDP each carry their own message types, and on the TCP
stream nothing of `P` follows its Bye. -/
def ServerKeeps (P : UInt32) (earlier : List Event) : Event → Prop
  | .frame buf => (∀ type, headerOk (Header.decode buf) buf.length = some type → msgIsTcp type = true) ∧
      (byeSeen P earlier = true → isChunkOf P buf = false)
  | .datagram buf => ∀ type, headerOk (Header.decode buf) buf.length = some type → msgIsUdp type = true
  | _ => True

/-- A pose of `P` is taken from the UDP socket after the Bye. -/
def LatePose (P : UInt32) (earlier : List Event) : Event → Prop
  | .datagram buf => byeSeen P earlier = true ∧ isPoseOf P buf = true
  | _ => False

def Untroubled (P : UInt32) (events : List Event) : Prop :=
  Throughout (fun earlier e => ServerKeeps P earlier e ∧ ¬ LatePose P earlier e) events

/-- Once the Bye was handled nothing of `P` is stored or queued. -/
def Cleared (P : UInt32) (c : Client σ) : Prop :=
  byeSeen P c.events = true → Forgotten P c.session ∧ NoneQueued P c.session

theorem cleared_leave (c : Client σ) : Cleared P (leave S c) ∧ (leave S c).session.net.incoming = [] := by
  rw [Cleared, NoneQueued, leave_session]
  exact ⟨fun _ => ⟨forgotten_left _, by simp [Session.left]⟩, rfl⟩

theorem Cleared.sends {τ : Type} {view : σ → τ} {c c' : Client σ} (h : Cleared P c) (hs : Sends view c c') : Cleared P c' := by
  intro hb
  rw [hs.events] at hb
  obtain ⟨hf, hq⟩ := h hb
  refine ⟨hf.of_core hs.core, ?_⟩
  rw [NoneQueued, incoming_of_core hs.core]
  exact hq

variable {game : LocalGame} {buf : Bytes} {c : Client σ} {w : σ}

theorem notPose_of_tcp {Q : UInt32} (h : ∀ type, headerOk (Header.decode buf) buf.length = some type → msgIsTcp type = true) :
    isPoseOf Q buf = false := by
  unfold isPoseOf
  split
  · exact absurd (h _ ‹_›) (by decide)
  · rfl

theorem notChunk_of_udp (h : ∀ type, headerOk (Header.decode buf) buf.length = some type → msgIsUdp type = true) :
    isChunkOf P buf = false := by
  unfold isChunkOf
  split
  · exact absurd (h _ ‹_›) (by decide)
  · exact absurd (h _ ‹_›) (by decide)
  · rfl

variable (game) in
/-- A frame of the server's stream: nothing of it waits for the merge, so a Bye is final. -/
theorem cleared_frame (hc : Cleared P c) (hq : c.session.net.incoming = []) (hs : ServerKeeps P c.events (.frame buf)) :
    let c' := handleMessage S game buf { c with sockets := w, events := c.events ++ [.frame buf] }
    Cleared P c' ∧ c'.session.net.incoming = [] := by
  obtain ⟨htcp, hchunk⟩ := hs
  have hnone : (handleMessage S game buf { c with sockets := w, events := c.events ++ [.frame buf] }).session.net.incoming = [] := by
    rw [List.eq_nil_iff_forall_not_mem]
    intro q hm
    rcases handleMessage_incoming hm with hm | hpose
    · rw [hq] at hm
      cases hm
    · rw [notPose_of_tcp htcp] at hpose
      cases hpose
  refine ⟨fun hb => ⟨?_, by rw [NoneQueued, hnone]; simp⟩, hnone⟩
  rw [handleMessage_events, byeSeen, List.any_append, ← byeSeen, Bool.or_eq_true] at hb
  rcases hb with hb | hb
  · exact handleMessage_forgotten (hc hb).1 (hchunk hb)
  · exact handleMessage_bye game _ (by simpa using hb)

variable (game) in
theorem cleared_datagram (hc : Cleared P c) (hs : ServerKeeps P c.events (.datagram buf))
    (hl : ¬ LatePose P c.events (.datagram buf)) :
    Cleared P (handleMessage S game buf { c with sockets := w, events := c.events ++ [.datagram buf] }) := by
  intro hb
  have hseen : byeSeen P c.events = true := by
    rw [handleMessage_events, byeSeen, List.any_append, ← byeSeen] at hb
    simpa using hb
  obtain ⟨hf, hnone⟩ := hc hseen
  refine ⟨handleMessage_forgotten hf (notChunk_of_udp hs), fun q hm he => ?_⟩
  rcases handleMessage_incoming hm with hm | hpose
  · exact hnone q hm he
  · rw [he] at hpose
    exact hl ⟨hseen, hpose⟩

theorem pollTcp_events (fuel : ℕ) (c : Client σ) : c.events <+: (pollTcp S game fuel c).events := by
  induction fuel generalizing c with
  | zero => exact List.prefix_rfl
  | succ fuel ih =>
    cases hr : S.tcpRecvFrame c.sockets with
    | mk received w =>
      cases received with
      | nothing =>
        rw [pollTcp_nothing hr]
      | closed =>
        rw [pollTcp_closed hr, leave_events]
        exact List.prefix_append _ _
      | frame buf =>
        by_cases hl : buf.length < sizeofHeader
        · rw [pollTcp, hr]
          dsimp only
          rw [if_pos hl]
        · rw [pollTcp_frame hr hl]
          dsimp only
          have hstep : c.events <+: (handleMessage S game buf
              { c with sockets := w, events := c.events ++ [.frame buf] }).events := by
            rw [handleMessage_events]
            exact List.prefix_append _ _
          split
          · exact hstep.trans (ih _)
          · exact hstep

theorem cleared_pollTcp (fuel : ℕ) (hc : Cleared P c) (hq : c.session.net.incoming = [])
    (hu : Untroubled P (pollTcp S game fuel c).events) :
    Cleared P (pollTcp S game fuel c) ∧ (pollTcp S game fuel c).session.net.incoming = [] := by
  induction fuel generalizing c with
  | zero => exact ⟨hc, hq⟩
  | succ fuel ih =>
    cases hr : S.tcpRecvFrame c.sockets with
    | mk received w =>
      cases received with
      | nothing =>
        rw [pollTcp_nothing hr]
        exact ⟨hc, hq⟩
      | closed =>
        rw [pollTcp_closed hr]
        exact cleared_leave _
      | frame buf =>
        by_cases hl : buf.length < sizeofHeader
        · rw [pollTcp, hr]
          dsimp only
          rw [if_pos hl]
          exact ⟨hc, hq⟩
        · rw [pollTcp_frame hr hl] at hu ⊢
          dsimp only at hu ⊢
          have hev : (handleMessage S game buf { c with sockets := w, events := c.events ++ [.frame buf] }).events =
              c.events ++ [.frame buf] := handleMessage_events _ _ _
          have hok : Untroubled P (c.events ++ [.frame buf]) := by
            split at hu
            · rw [← hev]
              exact hu.of_isPrefix (pollTcp_events fuel _)
            · rwa [hev] at hu
          have hstep := cleared_frame (S := S) (w := w) game hc hq (throughout_concat.mp hok).2.1
          split at hu
          · rename_i hj
            rw [if_pos hj]
            exact ih hstep.1 hstep.2 hu
          · rename_i hj
            rw [if_neg hj]
            exact hstep

theorem pollUdp_events (fuel : ℕ) (c : Client σ) : c.events <+: (pollUdp S game fuel c).events := by
  induction fuel generalizing c with
  | zero => exact List.prefix_rfl
  | succ fuel ih =>
    rw [pollUdp]
    cases hr : S.udpRecv c.sockets with
    | mk received w =>
      cases received with
      | none => exact List.prefix_rfl
      | some buf =>
        dsimp only
        split
        · exact List.prefix_rfl
        · have hstep : c.events <+: (handleMessage S game buf
              { c with sockets := w, events := c.events ++ [.datagram buf] }).events := by
            rw [handleMessage_events]
            exact List.prefix_append _ _
          split
          · exact hstep.trans (ih _)
          · exact hstep

theorem cleared_pollUdp (fuel : ℕ) (hc : Cleared P c) (hu : Untroubled P (pollUdp S game fuel c).events) :
    Cleared P (pollUdp S game fuel c) := by
  induction fuel generalizing c with
  | zero => exact hc
  | succ fuel ih =>
    rw [pollUdp] at hu ⊢
    cases hr : S.udpRecv c.sockets with
    | mk received w =>
      rw [hr] at hu
      cases received with
      | none => exact hc
      | some buf =>
        dsimp only at hu ⊢
        split
        · exact hc
        · rename_i hl
          rw [if_neg hl] at hu
          have hev : (handleMessage S game buf { c with sockets := w, events := c.events ++ [.datagram buf] }).events =
              c.events ++ [.datagram buf] := handleMessage_events _ _ _
          have hok : Untroubled P (c.events ++ [.datagram buf]) := by
            split at hu
            · rw [← hev]
              exact hu.of_isPrefix (pollUdp_events fuel _)
            · rwa [hev] at hu
          obtain ⟨hs, hlate⟩ := (throughout_concat.mp hok).2
          have hstep := cleared_datagram (S := S) (w := w) game hc hs hlate
          split at hu
          · rename_i hj
            rw [if_pos hj]
            exact ih hstep hu
          · rename_i hj
            rw [if_neg hj]
            exact hstep

theorem forgotten_mergeIncoming {s : Session} (hf : Forgotten P s) (hq : NoneQueued P s) :
    Forgotten P { s with net := mergeIncoming s.net } := by
  have hfold : ∀ (qs : List QueuedPose) (net : NetRuntime), (∀ q ∈ qs, q.pose.peerId ≠ P) → P ∉ net.latestPose →
      P ∉ net.poseRing → P ∉ (qs.foldl mergePose net).latestPose ∧ P ∉ (qs.foldl mergePose net).poseRing := by
    intro qs
    induction qs with
    | nil => exact fun _ _ hl hr => ⟨hl, hr⟩
    | cons q qs ih =>
      intro net hqs hl hr
      have hne : P ≠ q.pose.peerId := fun he => hqs q List.mem_cons_self he.symm
      refine ih _ (fun q' hm => hqs q' (List.mem_cons_of_mem _ hm)) ?_ ?_
      · unfold mergePose
        dsimp only
        split
        · exact hl
        · exact fun hm => ((AList.mem_insert _).mp hm).elim hne hl
      · unfold mergePose
        dsimp only
        split
        · exact hr
        · exact fun hm => ((AList.mem_insert _).mp hm).elim hne hr
  obtain ⟨hl, hr⟩ := hfold s.net.incoming s.net hq hf.latestPose hf.poseRing
  exact ⟨hl, hr, hf.appearances, hf.inventories⟩

theorem serverTimeout_events (c : Client σ) : c.events <+: (serverTimeout S c).events := by
  unfold serverTimeout
  split
  · rw [leave_events]
    exact List.prefix_append _ _
  · exact List.prefix_rfl

theorem netPoll_events (game : LocalGame) (c : Client σ) : c.events <+: (netPoll S game c).events := by
  have hbegin := (sends_prelude (keptBySends_nothing (S := S)) game c).events
  have htcp : (prelude S game c).events <+: (pollTcp S game 16 (prelude S game c)).events := pollTcp_events 16 _
  rw [hbegin] at htcp
  unfold netPoll
  split
  · exact List.prefix_rfl
  · split
    · rw [leave_events]
      exact List.prefix_append _ _
    · dsimp only
      split
      · exact htcp
      · split
        · exact htcp.trans (pollUdp_events 16 _)
        · split
          · exact (htcp.trans (pollUdp_events 16 _)).trans (serverTimeout_events _)
          · exact (htcp.trans (pollUdp_events 16 _)).trans (serverTimeout_events _)

/-- One poll of a client in session: it starts and ends with an empty queue. -/
theorem cleared_netPoll (game : LocalGame) (hc : Cleared P c) (hq : c.session.net.joined = true → c.session.net.incoming = [])
    (hu : Untroubled P (netPoll S game c).events) :
    Cleared P (netPoll S game c) ∧
      ((netPoll S game c).session.net.joined = true → (netPoll S game c).session.net.incoming = []) := by
  have hbegin := sends_prelude (keptBySends_nothing (S := S)) game c
  unfold netPoll at hu ⊢
  split
  · exact ⟨hc, hq⟩
  · rename_i hj
    rw [if_neg hj] at hu
    have hqueue : (prelude S game c).session.net.incoming = [] :=
      (incoming_of_core hbegin.core).trans (hq (by simpa using hj))
    split
    · exact ⟨(cleared_leave _).1, fun _ => (cleared_leave (P := P) _).2⟩
    · rename_i hconn
      rw [if_neg hconn] at hu
      dsimp only at hu ⊢
      split
      · rename_i hgone
        rw [if_pos hgone] at hu
        exact ⟨(cleared_pollTcp 16 (hc.sends hbegin) hqueue hu).1, fun h => by simp [h] at hgone⟩
      · rename_i hon
        rw [if_neg hon] at hu
        have hudp : Untroubled P (pollUdp S game 16 (pollTcp S game 16 (prelude S game c))).events := by
          split at hu
          · exact hu
          · split at hu
            · exact hu.of_isPrefix (serverTimeout_events _)
            · exact hu.of_isPrefix (serverTimeout_events _)
        have htcp := (cleared_pollTcp 16 (hc.sends hbegin) hqueue (hudp.of_isPrefix (pollUdp_events 16 _))).1
        have hread := cleared_pollUdp 16 htcp hudp
        have hlate : Cleared P (serverTimeout S (pollUdp S game 16 (pollTcp S game 16 (prelude S game c)))) := by
          unfold serverTimeout
          split
          · exact (cleared_leave _).1
          · exact hread
        split
        · rename_i hgone
          exact ⟨hread, fun h => by simp [h] at hgone⟩
        · split
          · rename_i hgone
            exact ⟨hlate, fun h => by simp [h] at hgone⟩
          · refine ⟨fun hb => ?_, fun _ => rfl⟩
            obtain ⟨hf, hnone⟩ := hlate hb
            exact ⟨forgotten_mergeIncoming hf hnone, by simp [NoneQueued, mergeIncoming]⟩

structure NewSession (c : Client σ) : Prop where
  joined : c.session.net.joined = true
  incoming : c.session.net.incoming = []
  events : c.events = []

theorem newSession_join (game : LocalGame) (flags : UInt8) (c : Client σ) (he : c.events = [])
    (h : (join S game flags c).1 = true) : NewSession (join S game flags c).2 := by
  have hleave := leave_session (S := S) c
  have hevents := (leave_events (S := S) c).trans he
  unfold join at h ⊢
  dsimp only at h ⊢
  split at h
  · cases h
  · rename_i h₁
    rw [if_neg h₁]
    split at h
    · cases h
    · rename_i h₂
      rw [if_neg h₂]
      split at h
      · cases h
      · rename_i h₃
        rw [if_neg h₃]
        split at h
        · cases h
        · rename_i h₄
          rw [if_neg h₄]
          exact ⟨rfl, by dsimp only; rw [hleave]; rfl, hevents⟩

/-- In every run of polls in which no pose of `P` is taken from the UDP socket after the Bye of
`P` was handled, every state after the Bye has nothing of `P` to draw a ghost from. -/
theorem forgotten_after_bye (c : Client σ) (games : List LocalGame) (hc : NewSession c)
    (hserver : Throughout (ServerKeeps P) (run (fun c game => netPoll S game c) c games).events)
    (hlate : Throughout (fun earlier e => ¬ LatePose P earlier e) (run (fun c game => netPoll S game c) c games).events)
    (hbye : byeSeen P (run (fun c game => netPoll S game c) c games).events = true) :
    Forgotten P (run (fun c game => netPoll S game c) c games).session := by
  have hu : Untroubled P (run (fun c game => netPoll S game c) c games).events :=
    fun earlier e later he => ⟨hserver earlier e later he, hlate earlier e later he⟩
  suffices h : Cleared P (run (fun c game => netPoll S game c) c games) ∧
      ((run (fun c game => netPoll S game c) c games).session.net.joined = true →
        (run (fun c game => netPoll S game c) c games).session.net.incoming = []) from (h.1 hbye).1
  clear hserver hlate hbye
  induction games using List.reverseRecOn with
  | nil =>
    refine ⟨fun hb => ?_, fun _ => hc.incoming⟩
    rw [run_nil, hc.events] at hb
    cases hb
  | append_singleton games game ih =>
    rw [run_concat] at hu ⊢
    obtain ⟨hclear, hqueue⟩ := ih (hu.of_isPrefix (netPoll_events game _))
    exact cleared_netPoll game hclear hqueue hu

/-- Sockets that deliver given frames and datagrams, one a call. -/
def feedSockets : Sockets (List RecvFrame × List Bytes) where
  nowSec _ := 0
  startup w := (true, w)
  shutdown w := w
  tcpConnected _ := true
  tcpConnect w := (true, w)
  tcpSend _ w := (true, w)
  tcpRecvFrame w := (w.1.headD .nothing, w.1.tail, w.2)
  udpSend _ w := (true, w)
  udpRecv w := (w.2.head?, w.1, w.2.tail)

/-- Client 2 in session, with what it will receive. -/
def feedClient (frames : List RecvFrame) (datagrams : List Bytes) : Client (List RecvFrame × List Bytes) where
  session := { net := { joined := true, myPeerId := 2 } }
  sockets := (frames, datagrams)

def poseOfOne : Bytes := (makePose 1 kCommonwealthWorldspace ⟨0⟩ ⟨0⟩ ⟨0⟩ ⟨0⟩).encode

/-- A pose one poll before the Bye is forgotten with it. -/
theorem forgotten_after_bye_poseThenBye :
    Forgotten 1 (run (fun c game => netPoll feedSockets game c)
      (feedClient [.nothing, .frame (makeBye 1).encode] [poseOfOne]) [{}, {}]).session := by
  have hevents : (run (fun c game => netPoll feedSockets game c)
      (feedClient [.nothing, .frame (makeBye 1).encode] [poseOfOne]) [{}, {}]).events =
        ([] ++ [.datagram poseOfOne]) ++ [.frame (makeBye 1).encode] := by decide +kernel
  have hpose : headerOk (Header.decode poseOfOne) poseOfOne.length = some .PlayerPose := by decide
  have hbye : headerOk (Header.decode (makeBye 1).encode) (makeBye 1).encode.length = some .Bye := by decide
  refine forgotten_after_bye (S := feedSockets) _ _ ⟨rfl, rfl, rfl⟩ ?_ ?_ ?_
  · rw [hevents, throughout_concat, throughout_concat]
    refine ⟨⟨throughout_nil, fun type h => ?_⟩, fun type h => ?_, fun _ => by decide⟩
    · rw [hpose] at h
      cases h
      rfl
    · rw [hbye] at h
      cases h
      rfl
  · rw [hevents, throughout_concat, throughout_concat]
    exact ⟨⟨throughout_nil, fun h => by cases h.1⟩, id⟩
  · rw [hevents]
    decide

/-- A pose that arrives with the Bye: TCP is drained first, the pose is merged afterwards, and the
table keeps client 1. -/
theorem not_forgotten_crossingPose :
    ¬ ∀ (σ : Type) (S : Sockets σ) (P : UInt32) (c : Client σ) (games : List LocalGame), NewSession c →
      Throughout (ServerKeeps P) (run (fun c game => netPoll S game c) c games).events →
        byeSeen P (run (fun c game => netPoll S game c) c games).events = true →
          Forgotten P (run (fun c game => netPoll S game c) c games).session := by
  intro hall
  have hevents : (run (fun c game => netPoll feedSockets game c)
      (feedClient [.frame (makeBye 1).encode] [poseOfOne]) [{}]).events =
        ([] ++ [.frame (makeBye 1).encode]) ++ [.datagram poseOfOne] := by decide +kernel
  have hpose : headerOk (Header.decode poseOfOne) poseOfOne.length = some .PlayerPose := by decide
  have hbye : headerOk (Header.decode (makeBye 1).encode) (makeBye 1).encode.length = some .Bye := by decide
  have hforgot := hall _ feedSockets 1 (feedClient [.frame (makeBye 1).encode] [poseOfOne]) [{}] ⟨rfl, rfl, rfl⟩
    (by
      rw [hevents, throughout_concat, throughout_concat]
      refine ⟨⟨throughout_nil, fun type h => ?_, fun h => by cases h⟩, fun type h => ?_⟩
      · rw [hbye] at h
        cases h
        rfl
      · rw [hpose] at h
        cases h
        rfl)
    (by rw [hevents]; decide)
  have hkept : ((run (fun c game => netPoll feedSockets game c)
      (feedClient [.frame (makeBye 1).encode] [poseOfOne]) [{}]).session.net.latestPose.lookup 1).isSome = true := by
    decide +kernel
  exact hforgot.latestPose (AList.lookup_isSome.mp hkept)

end CommonwealthMP.Plugin
