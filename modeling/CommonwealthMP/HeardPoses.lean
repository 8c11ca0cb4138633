import CommonwealthMP.DeparturesTold

/-! # What the client has of others, it has heard

The poses of players and actors in the client's tables are those of messages that
`HandleMessage` was given in the session. -/
namespace CommonwealthMP
open ByteLayout OrderedTables StepRuns Plugin
namespace Call

/-- The message was handed to `HandleMessage`. -/
def HasHeard (events : List Event) (buf : Bytes) : Prop := .frame buf ∈ events ∨ .datagram buf ∈ events

/-- A message of this type that decodes to `x` has been heard. -/
def Source {α : Type} (events : List Event) (type : Msg) (decode : Bytes → α) (x : α) : Prop :=
  ∃ buf, HasHeard events buf ∧ typeIs type buf ∧ decode buf = x

/-- The poses of the client are poses it has heard, each under its own number. -/
structure Sourced (c : Plugin.Client Link) : Prop where
  incoming : ∀ q ∈ c.session.net.incoming, Source c.events .PlayerPose PlayerPose.decode q.pose
  latestPose : ∀ p pose, c.session.net.latestPose.lookup p = some pose →
    pose.peerId = p ∧ Source c.events .PlayerPose PlayerPose.decode pose
  latestActors : ∀ r pose, c.session.net.latestActors.lookup r = some pose →
    pose.refFormId = r ∧ Source c.events .ActorPose ActorPose.decode pose

theorem Source.mono {α : Type} {events events' : List Event} {type : Msg} {decode : Bytes → α} {x : α}
    (h : Source events type decode x) (hsub : events ⊆ events') : Source events' type decode x := by
  obtain ⟨buf, hb, ht, he⟩ := h
  exact ⟨buf, hb.imp (@hsub _) (@hsub _), ht, he⟩

/-- The tables are as they were, and nothing that was heard is forgotten. -/
structure SameTables (c c' : Plugin.Client Link) : Prop where
  incoming : c'.session.net.incoming = c.session.net.incoming
  latestPose : c'.session.net.latestPose = c.session.net.latestPose
  latestActors : c'.session.net.latestActors = c.session.net.latestActors
  events : c.events ⊆ c'.events

section Tables
variable {c c' c'' : Plugin.Client Link}

theorem SameTables.refl (c : Plugin.Client Link) : SameTables c c := ⟨rfl, rfl, rfl, fun _ h => h⟩

theorem SameTables.trans (h : SameTables c c') (h' : SameTables c' c'') : SameTables c c'' :=
  ⟨h'.incoming.trans h.incoming, h'.latestPose.trans h.latestPose, h'.latestActors.trans h.latestActors,
    fun _ hm => h'.events (h.events hm)⟩

theorem Sourced.same (h : Sourced c) (hs : SameTables c c') : Sourced c' where
  incoming q hq := (h.incoming q (hs.incoming ▸ hq)).mono hs.events
  latestPose p pose hp := (h.latestPose p pose (hs.latestPose ▸ hp)).imp_right (·.mono hs.events)
  latestActors r pose hr := (h.latestActors r pose (hs.latestActors ▸ hr)).imp_right (·.mono hs.events)

theorem sourced_of_empty (hi : c.session.net.incoming = []) (hp : c.session.net.latestPose = ∅)
    (ha : c.session.net.latestActors = ∅) : Sourced c where
  incoming q hq := by rw [hi] at hq; cases hq
  latestPose p pose h := by rw [hp] at h; simp at h
  latestActors r pose h := by rw [ha] at h; simp at h

theorem sourced_leave (c : Plugin.Client Link) : Sourced (Plugin.leave linkSockets c) := sourced_of_empty rfl rfl rfl

theorem sameTables_tcpSend (data : Bytes) (c : Plugin.Client Link) : SameTables c (Plugin.tcpSend linkSockets data c) :=
  ⟨rfl, rfl, rfl, fun _ h => h⟩

theorem sameTables_bindUdp (c : Plugin.Client Link) : SameTables c (bindUdp linkSockets c) := by
  unfold bindUdp Plugin.udpSend
  dsimp only
  split <;> exact ⟨rfl, rfl, rfl, fun _ h => h⟩

theorem sameTables_sendChunks (type : Msg) (blob : Bytes) (c : Plugin.Client Link) :
    SameTables c (sendChunks linkSockets type blob c) := by
  unfold sendChunks
  split
  · exact .refl c
  · rename_i packets _
    clear * -
    induction packets generalizing c with
    | nil => exact .refl c
    | cons packet packets ih => exact (sameTables_tcpSend packet c).trans (ih _)

theorem sameTables_sendAppearance (game : LocalGame) (force : Bool) (c : Plugin.Client Link) :
    SameTables c (sendAppearance linkSockets game force c) := by
  unfold sendAppearance
  dsimp only
  split
  · exact .refl c
  · split
    · exact .refl c
    · split
      · exact ⟨rfl, rfl, rfl, fun _ h => h⟩
      · rename_i blob _
        have h := sameTables_sendChunks .AppearanceChunk blob { c with
          session.blobs.lastAppearanceSend := linkSockets.nowSec c.sockets, session.blobs.lastEquipKey := game.equipKey }
        exact ⟨h.incoming, h.latestPose, h.latestActors, h.events⟩

theorem sameTables_sendInventory (game : LocalGame) (force : Bool) (c : Plugin.Client Link) :
    SameTables c (sendInventory linkSockets game force c) := by
  unfold sendInventory
  dsimp only
  split
  · exact .refl c
  · split
    · exact .refl c
    · split
      · exact ⟨rfl, rfl, rfl, fun _ h => h⟩
      · rename_i blob _
        have h := sameTables_sendChunks .InventoryChunk blob { c with
          session.blobs.lastInventorySend := linkSockets.nowSec c.sockets, session.blobs.lastInvKey := game.invKey }
        exact ⟨h.incoming, h.latestPose, h.latestActors, h.events⟩

theorem sameTables_prelude (game : LocalGame) (c : Plugin.Client Link) : SameTables c (prelude linkSockets game c) := by
  have hretry (now : Time) (c : Plugin.Client Link) : SameTables c (helloRetry linkSockets game now c) := by
    unfold helloRetry
    dsimp only
    split
    · split <;> exact ⟨rfl, rfl, rfl, fun _ h => h⟩
    · exact .refl c
  have hbind (c : Plugin.Client Link) : SameTables c (bindRetry linkSockets c) := by
    unfold bindRetry
    dsimp only
    split
    · exact sameTables_bindUdp c
    · exact .refl c
  have hdue (now : Time) (c : Plugin.Client Link) : SameTables c (inventoryDue linkSockets game now c) := by
    unfold inventoryDue
    dsimp only
    split
    · have h := sameTables_sendInventory game true { c with session.blobs.pendingInventoryForce := false }
      exact ⟨h.incoming, h.latestPose, h.latestActors, h.events⟩
    · exact .refl c
  have h := ((hretry (linkSockets.nowSec c.sockets) c).trans (hbind _)).trans (hdue (linkSockets.nowSec c.sockets) _)
  exact ⟨h.incoming, h.latestPose, h.latestActors, h.events⟩

theorem sameTables_handleWelcome (game : LocalGame) (welcome : Welcome) (c : Plugin.Client Link) :
    SameTables c (handleWelcome linkSockets game welcome c) := by
  have hbind := sameTables_bindUdp { c with session := c.session.welcomed welcome }
  have hsnap := sameTables_tcpSend
    (localSnapshot game (bindUdp linkSockets { c with session := c.session.welcomed welcome }).session.net)
    (bindUdp linkSockets { c with session := c.session.welcomed welcome })
  have hlook := (hbind.trans hsnap).trans (sameTables_sendAppearance game true _)
  exact ⟨hlook.incoming, hlook.latestPose, hlook.latestActors, hlook.events⟩

variable {buf : Bytes}

theorem Sourced.message (h : Sourced c) (hb : HasHeard c.events buf) (game : LocalGame) {type : Msg} (ht : typeIs type buf) :
    Sourced (message linkSockets game type buf c) := by
  cases type with
  | PlayerPose =>
    unfold Plugin.message
    dsimp only
    split
    · refine ⟨fun q hq => ?_, h.latestPose, h.latestActors⟩
      rcases List.mem_append.mp hq with hq | hq
      · exact h.incoming q hq
      · rw [List.mem_singleton.mp hq]
        exact ⟨buf, hb, ht, rfl⟩
    · exact h
  | ActorPose =>
    unfold Plugin.message onActorPose
    dsimp only
    split
    · split
      · exact h
      · split
        · exact h
        · refine ⟨h.incoming, h.latestPose, fun r pose hr => ?_⟩
          replace hr : (c.session.net.latestActors.insert (ActorPose.decode buf).refFormId (ActorPose.decode buf)).lookup r =
            some pose := hr
          rw [Table.lookup_insert] at hr
          split at hr
          · cases hr
            exact ⟨Eq.symm ‹_›, buf, hb, ht, rfl⟩
          · exact h.latestActors r pose hr
    · exact h
  | Bye =>
    unfold Plugin.message
    dsimp only
    split
    · split
      · exact sourced_leave _
      · refine ⟨h.incoming, fun p pose hp => ?_, h.latestActors⟩
        replace hp : (c.session.net.latestPose.erase (Bye.decode buf).peerId).lookup p = some pose := hp
        rw [Table.lookup_erase] at hp
        split at hp
        · cases hp
        · exact h.latestPose p pose hp
    · exact h
  | Welcome =>
    unfold Plugin.message
    dsimp only
    split
    · exact h.same (sameTables_handleWelcome game _ c)
    · exact h
  | Reject =>
    unfold Plugin.message
    dsimp only
    split
    · exact sourced_leave _
    · exact h
  | Kick =>
    unfold Plugin.message
    dsimp only
    split
    · exact sourced_leave _
    · exact h
  | WorldSnapshot =>
    unfold Plugin.message
    dsimp only
    split
    · exact ⟨h.incoming, h.latestPose, h.latestActors⟩
    · exact h
  | SessionRules =>
    unfold Plugin.message
    dsimp only
    split
    · exact ⟨h.incoming, h.latestPose, h.latestActors⟩
    · exact h
  | AppearanceChunk => exact ⟨h.incoming, h.latestPose, h.latestActors⟩
  | InventoryChunk => exact ⟨h.incoming, h.latestPose, h.latestActors⟩
  | _ => exact h

theorem Sourced.handleMessage (h : Sourced c) (hb : HasHeard c.events buf) (game : LocalGame) :
    Sourced (handleMessage linkSockets game buf c) := by
  unfold Plugin.handleMessage
  cases hh : headerOk (Header.decode buf) buf.length with
  | none => exact h
  | some type =>
    have htype : typeIs type buf := (headerOk_spec hh).1
    have hstamped : Sourced { c with session.lastRecvSec := linkSockets.nowSec c.sockets } :=
      ⟨h.incoming, h.latestPose, h.latestActors⟩
    exact hstamped.message hb game htype

theorem latestActors_mergePose (net : NetRuntime) (q : QueuedPose) : (mergePose net q).latestActors = net.latestActors := by
  unfold mergePose
  dsimp only
  split <;> rfl

theorem latestPose_merged {queue : List QueuedPose} {n : NetRuntime} {P : PlayerPose → Prop} (hq : ∀ q ∈ queue, P q.pose)
    (hnet : ∀ p pose, n.latestPose.lookup p = some pose → pose.peerId = p ∧ P pose) :
    (∀ p pose, (queue.foldl mergePose n).latestPose.lookup p = some pose → pose.peerId = p ∧ P pose) ∧
      (queue.foldl mergePose n).latestActors = n.latestActors := by
  induction queue generalizing n with
  | nil => exact ⟨hnet, rfl⟩
  | cons q queue ih =>
    have hrest := ih (n := mergePose n q) (fun q' hq' => hq q' (List.mem_cons_of_mem _ hq')) ?_
    · exact ⟨hrest.1, hrest.2.trans (latestActors_mergePose n q)⟩
    · intro p pose hp
      unfold mergePose at hp
      dsimp only at hp
      split at hp
      · exact hnet p pose hp
      · dsimp only at hp
        rw [Table.lookup_insert] at hp
        split at hp
        · cases hp
          exact ⟨Eq.symm ‹_›, hq q List.mem_cons_self⟩
        · exact hnet p pose hp

theorem Sourced.merged (h : Sourced c) : Sourced { c with session.net := mergeIncoming c.session.net } := by
  obtain ⟨hposes, hactors⟩ := latestPose_merged (n := c.session.net) h.incoming h.latestPose
  refine ⟨nofun, hposes, fun r pose hr => h.latestActors r pose ?_⟩
  rw [← hactors]
  exact hr

theorem Sourced.turn (h : Sourced c) (game : LocalGame) : Sourced (pollTcp linkSockets game 1 c) := by
  rcases tcpRecvFrame_cases c.sockets with hr | hr | ⟨frame, down, hd, hr⟩
  · rw [pollTcp_nothing hr]
    exact h
  · rw [pollTcp_closed hr]
    exact sourced_leave _
  · by_cases hl : frame.length < sizeofHeader
    · have hshort : pollTcp linkSockets game 1 c = { c with sockets := { c.sockets with down := down } } := by
        rw [pollTcp, hr]
        dsimp only
        rw [if_pos hl]
      rw [hshort]
      exact h.same ⟨rfl, rfl, rfl, fun _ h => h⟩
    · rw [pollTcp_frame hr hl]
      simp only [pollTcp, ite_self]
      have hnow : Sourced { c with sockets := { c.sockets with down := down }, events := c.events ++ [.frame frame] } :=
        h.same ⟨rfl, rfl, rfl, List.subset_append_left _ _⟩
      exact hnow.handleMessage (.inl (List.mem_append_right _ (List.mem_singleton.mpr rfl))) game

theorem Sourced.hear (h : Sourced c) (game : LocalGame) : Sourced (pollUdp linkSockets game 1 c) := by
  obtain ⟨⟨received, w⟩, hr⟩ : ∃ r, linkSockets.udpRecv c.sockets = r := ⟨_, rfl⟩
  rw [pollUdp, hr]
  cases received with
  | none => exact h.same ⟨rfl, rfl, rfl, fun _ h => h⟩
  | some data =>
    dsimp only
    split
    · exact h.same ⟨rfl, rfl, rfl, fun _ h => h⟩
    · simp only [pollUdp, ite_self]
      have hnow : Sourced { c with sockets := w, events := c.events ++ [.datagram data] } :=
        h.same ⟨rfl, rfl, rfl, List.subset_append_left _ _⟩
      exact hnow.handleMessage (.inr (List.mem_append_right _ (List.mem_singleton.mpr rfl))) game

theorem sourced_join (game : LocalGame) (flags : UInt8) (c : Plugin.Client Link) :
    Sourced (Plugin.join linkSockets game flags c).2 := by
  have h := sourced_leave c
  unfold Plugin.join
  dsimp only
  split
  · exact h.same ⟨rfl, rfl, rfl, fun _ h => h⟩
  · split
    · exact h.same ⟨rfl, rfl, rfl, fun _ h => h⟩
    · split
      · exact h.same ⟨rfl, rfl, rfl, fun _ h => h⟩
      · split <;> exact h.same ⟨rfl, rfl, rfl, fun _ h => h⟩

/-- Every call keeps the tables in order. -/
theorem Sourced.run (h : Sourced c) (a : Call) : Sourced (a.run c) := by
  have joined {d : Plugin.Client Link} (h' : Sourced d) : Sourced (if c.session.net.joined then d else c) := by
    split
    · exact h'
    · exact h
  cases a with
  | join game flags => exact sourced_join game flags c
  | leave => exact sourced_leave c
  | begin game =>
    refine joined (d := pollBegin game c) ?_
    unfold pollBegin
    split
    · exact sourced_leave _
    · exact h.same (sameTables_prelude game c)
  | turn game => exact joined (h.turn game)
  | hear game => exact joined (h.hear game)
  | finish =>
    refine joined (d := pollFinish c) ?_
    unfold pollFinish serverTimeout
    dsimp only
    split
    · rw [if_pos (by rw [leave_joined]; rfl)]
      exact sourced_leave _
    · split
      · exact h
      · exact h.merged
  | say data => exact joined (h.same (sameTables_tcpSend data c))
  | emit data => exact joined (h.same ⟨rfl, rfl, rfl, fun _ h => h⟩)

end Tables

end Call
end CommonwealthMP
