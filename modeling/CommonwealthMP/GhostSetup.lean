import CommonwealthMP.GhostBodies

/-! # The setup of ghost bodies

A body is dressed when its 3D is there for the first time. What remembers that is a set of
peers, so a body that is placed without its 3D while its peer is still in the set never is. -/
namespace CommonwealthMP.GhostBodies
open OrderedTables StepRuns

def Dressed (calls : List EngineCall) (a : Actor) (peer : UInt32) : Prop :=
  .applyAppearance a peer ∈ calls ∧ .applyInventory a peer ∈ calls

/-- Every body was dressed before it was moved with its 3D. -/
def AllDressed (calls : List EngineCall) : Prop :=
  ∀ newer older a peer, calls = newer ++ .moveGhost a peer :: older → Dressed older a peer

/-- A new body has no 3D when its setup is finished, while its peer counts as ready from another. -/
def SpawnsBare (f : GhostFrame) (s : World) (pose : PlayerPose) : Prop :=
  f.Wanted pose ∧ s.ghostOf pose.peerId = none ∧ (f.spawnGhost pose.peerId s).isSome = true ∧
    f.setup3D pose.peerId = false ∧ pose.peerId ∈ s.ghostReady

/-- No turn of a frame spawns a bare body. -/
def NeverBare (s : World) : Happening → Prop
  | .applyGhosts f => f.inCell = true → AllSteps f.turn (fun s pose => ¬ SpawnsBare f s pose) s f.latestPose
  | _ => True

theorem Dressed.mono {calls calls' : List EngineCall} {a : Actor} {peer : UInt32} (h : Dressed calls a peer)
    (hsub : calls ⊆ calls') : Dressed calls' a peer := ⟨hsub h.1, hsub h.2⟩

def Quiet (c : EngineCall) : Prop := ∀ a peer, c ≠ .moveGhost a peer

theorem AllDressed.quiet {calls : List EngineCall} (h : AllDressed calls) {more : List EngineCall} (hmore : ∀ c ∈ more, Quiet c) :
    AllDressed (more ++ calls) := by
  induction more with
  | nil => exact h
  | cons c more ih =>
    obtain ⟨hc, hmore⟩ := List.forall_mem_cons.mp hmore
    intro newer older a peer hcalls
    cases newer with
    | nil => exact absurd (List.cons.inj hcalls).1 (hc a peer)
    | cons d newer => exact ih hmore newer older a peer (List.cons.inj hcalls).2

theorem AllDressed.moved {calls : List EngineCall} (h : AllDressed calls) {a : Actor} {peer : UInt32} (hd : Dressed calls a peer) :
    AllDressed (.moveGhost a peer :: calls) := by
  intro newer older b q hcalls
  cases newer with
  | nil =>
    obtain ⟨hc, rfl⟩ := List.cons.inj hcalls
    cases hc
    exact hd
  | cons d newer => exact h newer older b q (List.cons.inj hcalls).2

/-- A state that adds nothing but quiet calls. -/
def Adds (s s' : World) : Prop := ∃ more, s'.calls = more ++ s.calls ∧ ∀ c ∈ more, Quiet c

theorem Adds.refl (s : World) : Adds s s := ⟨[], rfl, List.forall_mem_nil _⟩

theorem Adds.trans {s t u : World} (h : Adds s t) (h' : Adds t u) : Adds s u := by
  obtain ⟨more, hmore, hquiet⟩ := h
  obtain ⟨more', hmore', hquiet'⟩ := h'
  refine ⟨more' ++ more, by rw [hmore', hmore, List.append_assoc], fun c hc => ?_⟩
  rcases List.mem_append.mp hc with hc | hc
  · exact hquiet' c hc
  · exact hquiet c hc

theorem adds_call {c : EngineCall} (hc : Quiet c) (s : World) : Adds s (s.call c) := ⟨[c], rfl, List.forall_mem_singleton.mpr hc⟩

theorem quiet_enableAI (a : Actor) (on : Bool) : Quiet (.enableAI a on) := fun _ _ h => by cases h

theorem Adds.subset {s s' : World} (h : Adds s s') : s.calls ⊆ s'.calls := by
  obtain ⟨more, hmore, -⟩ := h
  rw [hmore]
  exact List.subset_append_right _ _

theorem adds_freezeGhost (a : Actor) (id : UInt32) (s : World) : Adds s (s.freezeGhost a id) := by
  unfold World.freezeGhost
  dsimp only
  split
  · exact ⟨[.enableAI a false], rfl, List.forall_mem_singleton.mpr (quiet_enableAI a false)⟩
  · exact .refl s

theorem freezeGhost_tables (a : Actor) (id : UInt32) (s : World) :
    (s.freezeGhost a id).byPeer = s.byPeer ∧ (s.freezeGhost a id).ghostReady = s.ghostReady := by
  unfold World.freezeGhost
  dsimp only
  split <;> exact ⟨rfl, rfl⟩

/-- What the setup of a body does. -/
structure Readied (a : Actor) (peer : UInt32) (s s' : World) : Prop where
  byPeer : s'.byPeer = s.byPeer
  ghostReady : ∀ q, q ∈ s'.ghostReady ↔ q = peer ∨ q ∈ s.ghostReady
  adds : Adds s s'
  dressed : Dressed s'.calls a peer

theorem readied (a : Actor) (peer : UInt32) (s : World) : Readied a peer s (s.readyGhost a peer) := by
  obtain ⟨hbyPeer, hready⟩ := freezeGhost_tables a peer { s with ghostReady := s.ghostReady.insert peer }
  have hadds := adds_freezeGhost a peer { s with ghostReady := s.ghostReady.insert peer }
  exact {
    byPeer := hbyPeer
    ghostReady := by
      intro q
      change q ∈ (World.freezeGhost a peer { s with ghostReady := s.ghostReady.insert peer }).ghostReady ↔ _
      rw [hready]
      exact List.mem_insert_iff
    adds := (Adds.trans hadds (adds_call (fun _ _ h => by cases h) _)).trans (adds_call (fun _ _ h => by cases h) _)
    dressed := ⟨List.mem_cons_of_mem _ List.mem_cons_self, List.mem_cons_self⟩ }

/-- Whoever counts as ready has a dressed body. -/
structure Clothed (s : World) : Prop where
  dressed : AllDressed s.calls
  ready : ∀ peer a, s.byPeer.lookup peer = some a → peer ∈ s.ghostReady → Dressed s.calls a peer

theorem Clothed.adds {s s' : World} (h : Clothed s) (hadds : Adds s s')
    (hready : ∀ peer a, s'.byPeer.lookup peer = some a → peer ∈ s'.ghostReady →
      Dressed s'.calls a peer ∨ s.byPeer.lookup peer = some a ∧ peer ∈ s.ghostReady) : Clothed s' where
  dressed := by
    obtain ⟨more, hmore, hquiet⟩ := hadds
    rw [hmore]
    exact h.dressed.quiet hquiet
  ready := by
    intro peer a hbody hpeer
    rcases hready peer a hbody hpeer with hd | ⟨hbody, hpeer⟩
    · exact hd
    · exact (h.ready peer a hbody hpeer).mono hadds.subset

theorem Clothed.same {s s' : World} (h : Clothed s) (hadds : Adds s s') (hbyPeer : s'.byPeer = s.byPeer)
    (hready : s'.ghostReady = s.ghostReady) : Clothed s' :=
  h.adds hadds fun _ _ hbody hpeer => .inr ⟨hbyPeer ▸ hbody, hready ▸ hpeer⟩

theorem Clothed.moveGhost {s : World} (h : Clothed s) (has3D : Bool) {a : Actor} {peer : UInt32}
    (hbody : s.byPeer.lookup peer = some a) : Clothed (s.moveGhost has3D a peer) := by
  -- once the body is dressed, the move itself is one more call
  have hmove : ∀ t : World, Clothed t → Dressed t.calls a peer → Clothed (t.call (.moveGhost a peer)) := by
    intro t ht hd
    refine ⟨ht.dressed.moved hd, fun q b hb hq => ?_⟩
    exact (ht.ready q b hb hq).mono (List.subset_cons_self _ _)
  unfold World.moveGhost
  cases has3D with
  | false => exact h
  | true =>
    rw [if_neg (by decide)]
    dsimp only
    split
    · have hready := readied a peer s
      refine hmove _ (h.adds hready.adds fun q b hb hq => ?_) hready.dressed
      rw [hready.byPeer] at hb
      rcases (hready.ghostReady q).mp hq with rfl | hq
      · rw [hbody] at hb
        cases hb
        exact .inl hready.dressed
      · exact .inr ⟨hb, hq⟩
    · rename_i hpeer
      obtain ⟨hbyPeer, hready⟩ := freezeGhost_tables a peer s
      have hadds := adds_freezeGhost a peer s
      exact hmove _ (h.same hadds hbyPeer hready) ((h.ready peer a hbody (not_not.mp hpeer)).mono hadds.subset)

theorem create_tables (id : UInt32) (s : World) :
    (s.create id).byPeer = s.byPeer ∧ (s.create id).ghostReady = s.ghostReady ∧ (s.create id).calls = s.calls := by
  unfold World.create
  split <;> exact ⟨rfl, rfl, rfl⟩

variable {f : GhostFrame}

theorem spawnGhost_eq_some {peer : UInt32} {s t : World} {a : Actor} (h : f.spawnGhost peer s = some (a, t)) :
    ∃ id, f.place peer = some id ∧ id ∉ s.refs ∧ a = ⟨id, s.nextSerial⟩ ∧
      t = ((s.create id).call (.place a)).finishGhostSetup (f.setup3D peer) a peer := by
  unfold GhostFrame.spawnGhost at h
  split at h
  · cases h
  · rename_i id hplace
    split at h
    · cases h
    · rename_i hfree
      cases h
      exact ⟨id, hplace, hfree, rfl, rfl⟩

/-- A body that is placed with its 3D is dressed; without it, its peer must not count as ready. -/
theorem Clothed.spawn {s t : World} (h : Clothed s) {peer : UInt32} {a : Actor} (hspawn : f.spawnGhost peer s = some (a, t))
    (hbare : f.setup3D peer = false → peer ∉ s.ghostReady) : Clothed { t with byPeer := t.byPeer.insert peer a } := by
  obtain ⟨id, -, -, -, rfl⟩ := spawnGhost_eq_some hspawn
  obtain ⟨hbyPeer, hready, hcalls⟩ := create_tables id s
  have hquiet : Quiet (.place a) := fun _ _ h => by cases h
  have hplaced : Adds s ((s.create id).call (.place a)) := ⟨[.place a], congrArg _ hcalls, List.forall_mem_singleton.mpr hquiet⟩
  replace hbyPeer : ((s.create id).call (.place a)).byPeer = s.byPeer := hbyPeer
  replace hready : ((s.create id).call (.place a)).ghostReady = s.ghostReady := hready
  generalize (s.create id).call (.place a) = placed at hplaced hbyPeer hready
  -- the entry of the peer is the new body, the others are as they were
  have hentry : ∀ {table : Table UInt32 Actor} {q : UInt32} {b : Actor}, (table.insert peer a).lookup q = some b →
      (q = peer ∧ b = a) ∨ q ≠ peer ∧ table.lookup q = some b := by
    intro table q b hb
    rw [Table.lookup_insert] at hb
    split at hb
    · rename_i hq
      exact .inl ⟨hq, (Option.some.inj hb).symm⟩
    · rename_i hq
      exact .inr ⟨hq, hb⟩
  cases hsetup : f.setup3D peer with
  | false =>
    refine h.adds hplaced fun q b hb hq => ?_
    rcases hentry hb with ⟨rfl, -⟩ | ⟨-, hb⟩
    · exact absurd (hready ▸ hq) (hbare hsetup)
    · exact .inr ⟨hbyPeer ▸ hb, hready ▸ hq⟩
  | true =>
    have hset := readied a peer placed
    refine h.adds (hplaced.trans hset.adds) fun q b hb hq => ?_
    rcases hentry hb with ⟨rfl, rfl⟩ | ⟨hne, hb⟩
    · exact .inl hset.dressed
    · refine .inr ⟨hbyPeer ▸ hset.byPeer ▸ hb, ?_⟩
      exact hready ▸ ((hset.ghostReady q).mp hq).resolve_left hne

theorem Clothed.turn {s : World} (h : Clothed s) {pose : PlayerPose} (hbare : ¬ SpawnsBare f s pose) : Clothed (f.turn s pose) := by
  unfold GhostFrame.turn
  dsimp only
  split
  · exact h
  · rename_i hwanted
    split
    · rename_i a hghost
      exact h.moveGhost _ (Option.filter_eq_some_iff.mp hghost).1
    · rename_i hghost
      split
      · exact h
      · rename_i a t hspawn
        have hset := h.spawn hspawn fun hsetup hready =>
          hbare ⟨not_not.mp hwanted, hghost, by rw [hspawn]; rfl, hsetup, hready⟩
        exact hset.moveGhost _ (by rw [Table.lookup_insert, if_pos rfl])

theorem Clothed.sweep {s : World} (h : Clothed s) (peer : UInt32) : Clothed (f.sweep s peer) := by
  unfold GhostFrame.sweep
  split
  · exact h
  · refine h.adds ⟨[], rfl, List.forall_mem_nil _⟩ fun q b hb hq => .inr ?_
    change (s.byPeer.erase peer).lookup q = some b at hb
    rw [Table.lookup_erase] at hb
    split at hb
    · cases hb
    · exact ⟨hb, (List.mem_filter.mp hq).1⟩

theorem Clothed.applyGhosts {s : World} (h : Clothed s) (hbare : NeverBare s (.applyGhosts f)) : Clothed (f.apply s) := by
  unfold GhostFrame.apply
  cases hcell : f.inCell with
  | false => exact h
  | true =>
    rw [if_neg (by decide)]
    have hturns := run_invariant (I := Clothed) (P := fun s pose => ¬ SpawnsBare f s pose)
      (fun _ _ hs hpose => hs.turn hpose) h (hbare hcell)
    exact run_invariant (P := fun _ _ => True) (fun s peer hs _ => hs.sweep peer) hturns
      (allSteps_iff_split.mpr fun _ _ _ _ => trivial)

theorem Clothed.hostTurn {g : HostFrame} {r : List UInt32 × World} (h : Clothed r.2) (entry : Σ _ : UInt32, ActorPose) :
    Clothed (g.turn r entry).2 := by
  unfold HostFrame.turn
  dsimp only
  split
  · exact h
  · rename_i a _
    generalize entry.2.refFormId = id
    have hquiet : Quiet (.moveUnique a id) := fun _ _ h => by cases h
    have hlisted : Clothed { r.2 with puppeted := r.2.puppeted.insert id } := h.same ⟨[], rfl, List.forall_mem_nil _⟩ rfl rfl
    obtain ⟨hbyPeer, hready⟩ := freezeGhost_tables a id { r.2 with puppeted := r.2.puppeted.insert id }
    exact hlisted.same ((adds_freezeGhost a id _).trans (adds_call hquiet _)) hbyPeer hready

theorem Clothed.release {live : List UInt32} {s : World} (h : Clothed s) (id : UInt32) : Clothed (HostFrame.release live s id) := by
  unfold HostFrame.release
  split
  · exact h
  · dsimp only
    split
    · rename_i a _
      exact h.same ⟨[.enableAI a true], rfl, List.forall_mem_singleton.mpr (quiet_enableAI a true)⟩ rfl rfl
    · exact h.same (.refl s) rfl rfl

theorem Clothed.releases {live : List UInt32} {s : World} (h : Clothed s) (ids : List UInt32) :
    Clothed (run (HostFrame.release live) s ids) :=
  run_invariant (P := fun _ _ => True) (fun _ id hs _ => hs.release id) h (allSteps_iff_split.mpr fun _ _ _ _ => trivial)

theorem Clothed.applyHostActors {s : World} (h : Clothed s) (g : HostFrame) : Clothed (g.apply s) := by
  unfold HostFrame.apply
  split
  · exact h
  · have hturns : Clothed (run g.turn ([], s) s.latestActors.entries).2 :=
      run_invariant (P := fun _ _ => True) (I := fun r : List UInt32 × World => Clothed r.2) (fun _ entry hr _ => hr.hostTurn entry) h
        (allSteps_iff_split.mpr fun _ _ _ _ => trivial)
    exact hturns.releases _

theorem Clothed.despawnGhosts {s : World} (h : Clothed s) : Clothed s.despawnGhosts :=
  h.adds ⟨[], rfl, List.forall_mem_nil _⟩ fun peer a hb _ => by
    change (∅ : Table UInt32 Actor).lookup peer = some a at hb
    rw [AList.lookup_empty] at hb
    cases hb

theorem Clothed.step {s : World} (h : Clothed s) {happening : Happening} (hbare : NeverBare s happening) :
    Clothed (step s happening) := by
  cases happening with
  | applyGhosts f => exact h.applyGhosts hbare
  | applyHostActors g => exact h.applyHostActors g
  | onActorPose joined isHost now pose =>
    change Clothed (s.onActorPose joined isHost now pose)
    unfold World.onActorPose
    split
    · exact h
    · exact h.same ⟨[], rfl, List.forall_mem_nil _⟩ rfl rfl
  | appearanceArrived peer =>
    unfold GhostBodies.step
    dsimp only
    split
    · exact h.same (adds_call (fun _ _ h => by cases h) s) rfl rfl
    · exact h
  | inventoryArrived peer =>
    unfold GhostBodies.step
    dsimp only
    split
    · exact h.same (adds_call (fun _ _ h => by cases h) s) rfl rfl
    · exact h
  | despawnGhosts => exact h.despawnGhosts
  | leave => exact (h.despawnGhosts.releases s.despawnGhosts.puppeted).same ⟨[], rfl, List.forall_mem_nil _⟩ rfl rfl
  | create id =>
    obtain ⟨hbyPeer, hready, hcalls⟩ := create_tables id s
    exact h.same ⟨[], hcalls, List.forall_mem_nil _⟩ hbyPeer hready
  | remove id => exact h.same ⟨[], rfl, List.forall_mem_nil _⟩ rfl rfl

/-- In a run that never spawns a bare body, every body is dressed before it is moved with its 3D. -/
theorem ghosts_setUp {happenings : List Happening} (h : AllSteps step NeverBare {} happenings) :
    AllDressed (run step {} happenings).calls := by
  have hstart : Clothed {} := by
    refine ⟨fun newer older a peer hcalls => ?_, fun peer a hb _ => ?_⟩
    · have hmem : EngineCall.moveGhost a peer ∈ ([] : List EngineCall) := by
        rw [show ([] : List EngineCall) = newer ++ .moveGhost a peer :: older from hcalls]
        exact List.mem_append_right _ List.mem_cons_self
      exact absurd hmem List.not_mem_nil
    · change (∅ : Table UInt32 Actor).lookup peer = some a at hb
      rw [AList.lookup_empty] at hb
      cases hb
  exact (run_invariant (fun _ _ hs hbare => hs.step hbare) hstart h).dressed

/-- The pose of a peer that gets a body wherever the player is. -/
def peerPose (peer : UInt32) : PlayerPose := makePose peer 0 ⟨0⟩ ⟨0⟩ ⟨0⟩ ⟨0⟩

/-- A frame with one other peer, whose body is placed under the form id 0xFF000801. -/
def onePeerFrame (setup3D move3D : Bool) : GhostFrame where
  inCell := true
  location := 0x3C
  ghostSpawn := true
  myPeerId := 1
  latestPose := [peerPose 2]
  place _ := some 0xFF000801
  setup3D _ := setup3D
  move3D _ := move3D

/-- A body that unloads and is placed again with its 3D. -/
theorem ghosts_setUp_respawn : AllDressed (run step {}
    [.applyGhosts (onePeerFrame true true), .remove 0xFF000801, .applyGhosts (onePeerFrame true true)]).calls := by
  have hset : ∀ s, ¬ SpawnsBare (onePeerFrame true true) s (peerPose 2) := by
    rintro s ⟨-, -, -, hsetup, -⟩
    cases hsetup
  exact ghosts_setUp ⟨fun _ => ⟨hset _, trivial⟩, trivial, fun _ => ⟨hset _, trivial⟩, trivial⟩

/-- The body unloads, the next one has no 3D when it is placed and gets it a frame later. -/
def lateRespawn : List Happening :=
  [.applyGhosts (onePeerFrame true true), .remove 0xFF000801, .applyGhosts (onePeerFrame false false),
    .applyGhosts (onePeerFrame false true)]

/-- It is moved without ever having been dressed. -/
theorem not_ghosts_setUp_lateRespawn : ¬ AllDressed (run step {} lateRespawn).calls := by
  intro h
  have hcalls : (run step {} lateRespawn).calls = [] ++ .moveGhost ⟨0xFF000801, 1⟩ 2 :: (run step {} lateRespawn).calls.tail := by
    decide +kernel
  have hdressed := (h _ _ _ _ hcalls).1
  exact absurd hdressed (by decide +kernel)

end CommonwealthMP.GhostBodies
