import CommonwealthMP.GhostSetup

/-! # Whose AI is off

The plugin switches an actor's AI off when the tick counter of its id starts and on again when
a host actor is let go, without touching the counter. -/
namespace CommonwealthMP.GhostBodies
open OrderedTables StepRuns

/-- The last value that `EnableAI` was called with on an actor. -/
def lastAI : List EngineCall → Actor → Option Bool
  | [], _ => none
  | .enableAI b on :: calls, a => if b = a then some on else lastAI calls a
  | _ :: calls, a => lastAI calls a

/-- A stored body that has been moved with its 3D. -/
def DrivenGhost (s : World) (a : Actor) : Prop := ∃ peer, s.byPeer.lookup peer = some a ∧ .moveGhost a peer ∈ s.calls

/-- A host actor that is driven now. -/
def DrivenUnique (s : World) (a : Actor) : Prop := a.formId ∈ s.puppeted ∧ .moveUnique a a.formId ∈ s.calls

/-- Of the actors there are: AI is off for the driven ones, and for no native one that is not driven. -/
structure FollowsFreeze (s : World) : Prop where
  ghost : ∀ a, s.Resolves a → DrivenGhost s a → lastAI s.calls a = some false
  unique : ∀ a, s.Resolves a → DrivenUnique s a → lastAI s.calls a = some false
  released : ∀ a, s.Resolves a → .place a ∉ s.calls → a.formId ∉ s.puppeted → lastAI s.calls a ≠ some false

/-- A freeze of the actor would find the counter of its id running, with its AI not off. -/
def StaleCounter (s : World) (a : Actor) (id : UInt32) : Prop :=
  lastAI s.calls a ≠ some false ∧ (s.freezeTicks.lookup id).getD 0 ≠ 0

/-- A turn over a pose whose freeze finds a stale counter, or that places a body under the id of a puppeted actor. -/
def StaleTurn (f : GhostFrame) (s : World) (pose : PlayerPose) : Prop :=
  f.Wanted pose ∧
    ((∃ a, s.ghostOf pose.peerId = some a ∧ f.move3D pose.peerId = true ∧ StaleCounter s a pose.peerId) ∨
      s.ghostOf pose.peerId = none ∧ ∃ id, f.place pose.peerId = some id ∧ id ∉ s.refs ∧
        (id ∈ s.puppeted ∨ (f.setup3D pose.peerId = true ∨ f.move3D pose.peerId = true) ∧
          (s.freezeTicks.lookup pose.peerId).getD 0 ≠ 0))

def StaleHostTurn (g : HostFrame) (r : List UInt32 × World) (entry : Σ _ : UInt32, ActorPose) : Prop :=
  ∃ a, g.driven r.2 entry.1 entry.2 = some a ∧ StaleCounter r.2 a entry.2.refFormId

/-- No turn of a frame finds a stale counter. -/
def NeverStale (s : World) : Happening → Prop
  | .applyGhosts f => f.inCell = true → AllSteps f.turn (fun s pose => ¬ StaleTurn f s pose) s f.latestPose
  | .applyHostActors g => g.joined = true → g.isHost = false → g.inCell = true →
      AllSteps g.turn (fun r entry => ¬ StaleHostTurn g r entry) ([], s) s.latestActors.entries
  | _ => True

def EngineCall.actor : EngineCall → Actor
  | .place a => a
  | .applyAppearance a _ => a
  | .applyInventory a _ => a
  | .enableAI a _ => a
  | .moveGhost a _ => a
  | .moveUnique a _ => a

/-- The call is about no AI and moves nobody. -/
def EngineCall.Plain : EngineCall → Prop
  | .enableAI _ _ => False
  | .moveGhost _ _ => False
  | .moveUnique _ _ => False
  | _ => True

theorem lastAI_cons_of_ne {c : EngineCall} {a : Actor} (hc : c.actor ≠ a) (calls : List EngineCall) :
    lastAI (c :: calls) a = lastAI calls a := by
  cases c with
  | enableAI b on => exact if_neg hc
  | place | applyAppearance | applyInventory | moveGhost | moveUnique => rfl

theorem lastAI_cons_plain {c : EngineCall} (hc : c.Plain) (calls : List EngineCall) (a : Actor) :
    lastAI (c :: calls) a = lastAI calls a := by
  cases c with
  | enableAI => exact hc.elim
  | place | applyAppearance | applyInventory | moveGhost | moveUnique => rfl

theorem lastAI_of_unheard {calls : List EngineCall} {a : Actor} (h : ∀ c ∈ calls, c.actor ≠ a) : lastAI calls a = none := by
  induction calls with
  | nil => rfl
  | cons c calls ih =>
    obtain ⟨hc, hcalls⟩ := List.forall_mem_cons.mp h
    rw [lastAI_cons_of_ne hc, ih hcalls]

structure Frozen (s : World) : Prop where
  ghost : ∀ peer a, s.byPeer.lookup peer = some a → s.Resolves a → .moveGhost a peer ∈ s.calls → lastAI s.calls a = some false
  unique : ∀ a, s.Resolves a → a.formId ∈ s.puppeted → .moveUnique a a.formId ∈ s.calls → lastAI s.calls a = some false
  released : ∀ a, s.Resolves a → .place a ∉ s.calls → lastAI s.calls a = some false → a.formId ∈ s.puppeted
  placed : ∀ peer a, s.byPeer.lookup peer = some a → .place a ∈ s.calls
  /-- No stored body stands under the id of a puppeted actor. -/
  apart : ∀ peer a, s.byPeer.lookup peer = some a → s.Resolves a → a.formId ∉ s.puppeted
  serial_refs : ∀ id n, s.refs.lookup id = some n → n < s.nextSerial
  serial_calls : ∀ c ∈ s.calls, c.actor.serial < s.nextSerial

theorem frozen_start : Frozen {} where
  ghost := fun _ _ h => by cases h
  unique := fun _ h => by cases h
  released := fun _ h => by cases h
  placed := fun _ _ h => by cases h
  apart := fun _ _ h => by cases h
  serial_refs := fun _ _ h => by cases h
  serial_calls := List.forall_mem_nil _

theorem Frozen.followsFreeze {s : World} (h : Frozen s) : FollowsFreeze s where
  ghost := by
    rintro a ha ⟨peer, hbody, hmoved⟩
    exact h.ghost peer a hbody ha hmoved
  unique := fun a ha hdriven => h.unique a ha hdriven.1 hdriven.2
  released := fun a ha hnative hfree hoff => hfree (h.released a ha hnative hoff)

theorem Frozen.unheard {s : World} (h : Frozen s) (id : UInt32) : ∀ c ∈ s.calls, c.actor ≠ ⟨id, s.nextSerial⟩ := by
  intro c hc heq
  have hlt := h.serial_calls c hc
  rw [heq] at hlt
  exact absurd hlt (lt_irrefl _)

theorem Frozen.create {s : World} (h : Frozen s) (id : UInt32) : Frozen (s.create id) := by
  unfold World.create
  split
  · exact h
  · rename_i hfree
    -- what resolves is the new reference or resolved before
    have hcases : ∀ a : Actor, (s.refs.insert id s.nextSerial).lookup a.formId = some a.serial →
        a = ⟨id, s.nextSerial⟩ ∨ s.Resolves a := by
      intro a ha
      rw [Table.lookup_insert] at ha
      split at ha
      · rename_i hid
        left
        rw [← hid, Option.some.inj ha]
      · exact .inr ha
    have hnew : ∀ a : Actor, a = ⟨id, s.nextSerial⟩ → ∀ c ∈ s.calls, c.actor ≠ a := by
      rintro a rfl
      exact h.unheard id
    exact {
      ghost := by
        intro peer a hbody ha hmoved
        rcases hcases a ha with ha | ha
        · exact absurd rfl (hnew a ha _ hmoved)
        · exact h.ghost peer a hbody ha hmoved
      unique := by
        intro a ha hid hmoved
        rcases hcases a ha with ha | ha
        · exact absurd rfl (hnew a ha _ hmoved)
        · exact h.unique a ha hid hmoved
      released := by
        intro a ha hnative hoff
        rcases hcases a ha with ha | ha
        · rw [lastAI_of_unheard (hnew a ha)] at hoff
          cases hoff
        · exact h.released a ha hnative hoff
      placed := h.placed
      apart := by
        intro peer a hbody ha
        rcases hcases a ha with ha | ha
        · exact absurd rfl (hnew a ha _ (h.placed peer a hbody))
        · exact h.apart peer a hbody ha
      serial_refs := by
        intro q n hq
        rw [Table.lookup_insert] at hq
        split at hq
        · rw [← Option.some.inj hq]
          exact Nat.lt_succ_self _
        · exact (h.serial_refs q n hq).trans (Nat.lt_succ_self _)
      serial_calls := fun c hc => (h.serial_calls c hc).trans (Nat.lt_succ_self _) }

theorem Frozen.fewer {s s' : World} (h : Frozen s) (hrefs : ∀ id n, s'.refs.lookup id = some n → s.refs.lookup id = some n)
    (hbyPeer : ∀ peer a, s'.byPeer.lookup peer = some a → s.byPeer.lookup peer = some a) (hpuppeted : s'.puppeted = s.puppeted)
    (hcalls : s'.calls = s.calls) (hserial : s'.nextSerial = s.nextSerial) : Frozen s' where
  ghost := fun peer a hbody ha hmoved => by
    rw [hcalls] at hmoved ⊢
    exact h.ghost peer a (hbyPeer peer a hbody) (hrefs _ _ ha) hmoved
  unique := fun a ha hid hmoved => by
    rw [hcalls] at hmoved ⊢
    exact h.unique a (hrefs _ _ ha) (hpuppeted ▸ hid) hmoved
  released := fun a ha hnative hoff => by
    rw [hcalls] at hnative hoff
    exact hpuppeted ▸ h.released a (hrefs _ _ ha) hnative hoff
  placed := fun peer a hbody => hcalls ▸ h.placed peer a (hbyPeer peer a hbody)
  apart := fun peer a hbody ha => hpuppeted ▸ h.apart peer a (hbyPeer peer a hbody) (hrefs _ _ ha)
  serial_refs := fun id n hn => hserial ▸ h.serial_refs id n (hrefs id n hn)
  serial_calls := fun c hc => hserial ▸ h.serial_calls c (hcalls ▸ hc)

theorem Frozen.plain {s : World} (h : Frozen s) {c : EngineCall} (hc : c.Plain) (hserial : c.actor.serial < s.nextSerial) :
    Frozen (s.call c) where
  ghost := fun peer a hbody ha hmoved => by
    rw [World.call, lastAI_cons_plain hc]
    rcases List.mem_cons.mp hmoved with rfl | hmoved
    · exact hc.elim
    · exact h.ghost peer a hbody ha hmoved
  unique := fun a ha hid hmoved => by
    rw [World.call, lastAI_cons_plain hc]
    rcases List.mem_cons.mp hmoved with rfl | hmoved
    · exact hc.elim
    · exact h.unique a ha hid hmoved
  released := fun a ha hnative hoff => by
    rw [World.call, lastAI_cons_plain hc] at hoff
    exact h.released a ha (fun hm => hnative (List.mem_cons_of_mem _ hm)) hoff
  placed := fun peer a hbody => List.mem_cons_of_mem _ (h.placed peer a hbody)
  apart := h.apart
  serial_refs := h.serial_refs
  serial_calls := List.forall_mem_cons.mpr ⟨hserial, h.serial_calls⟩

structure Froze (a : Actor) (id : UInt32) (s s' : World) : Prop where
  byPeer : s'.byPeer = s.byPeer
  puppeted : s'.puppeted = s.puppeted
  refs : s'.refs = s.refs
  nextSerial : s'.nextSerial = s.nextSerial
  calls : s'.calls = s.calls ∨ s'.calls = .enableAI a false :: s.calls
  off : ¬ StaleCounter s a id → lastAI s'.calls a = some false

theorem froze (a : Actor) (id : UInt32) (s : World) : Froze a id s (s.freezeGhost a id) := by
  unfold World.freezeGhost
  dsimp only
  split
  · exact ⟨rfl, rfl, rfl, rfl, .inr rfl, fun _ => if_pos rfl⟩
  · rename_i hrunning
    refine ⟨rfl, rfl, rfl, rfl, .inl rfl, fun hstale => ?_⟩
    by_contra hon
    exact hstale ⟨hon, fun hzero => hrunning (by rw [hzero])⟩

variable {a : Actor} {id : UInt32} {s s' : World}

theorem Froze.lastAI_eq (h : Froze a id s s') {b : Actor} (hne : a ≠ b) : lastAI s'.calls b = lastAI s.calls b := by
  rcases h.calls with hcalls | hcalls
  · rw [hcalls]
  · rw [hcalls]
    exact if_neg hne

/-- Nobody's AI goes on. -/
theorem Froze.keeps (h : Froze a id s s') {b : Actor} (hoff : lastAI s.calls b = some false) : lastAI s'.calls b = some false := by
  by_cases hab : a = b
  · exact hab ▸ h.off fun hstale => hstale.1 (hab.symm ▸ hoff)
  · rw [h.lastAI_eq hab]
    exact hoff

theorem Froze.mem (h : Froze a id s s') {c : EngineCall} : c ∈ s'.calls ↔ c ∈ s.calls ∨ c = .enableAI a false ∧ s'.calls ≠ s.calls := by
  rcases h.calls with hcalls | hcalls
  · rw [hcalls]
    exact ⟨.inl, fun h => h.resolve_right fun h => h.2 rfl⟩
  · rw [hcalls, List.mem_cons]
    constructor
    · rintro (rfl | hc)
      · exact .inr ⟨rfl, List.cons_ne_self _ _⟩
      · exact .inl hc
    · rintro (hc | ⟨rfl, -⟩)
      · exact .inr hc
      · exact .inl rfl

theorem Froze.subset (h : Froze a id s s') : s.calls ⊆ s'.calls := fun _ hc => h.mem.mpr (.inl hc)

theorem Frozen.froze (h : Frozen s) (hf : Froze a id s s') (hplaced : .place a ∈ s.calls) : Frozen s' where
  ghost := by
    intro peer b hbody hb hmoved
    rw [hf.byPeer] at hbody
    unfold World.Resolves at hb
    rw [hf.refs] at hb
    have hmoved := (hf.mem.mp hmoved).resolve_right fun h => by cases h.1
    exact hf.keeps (h.ghost peer b hbody hb hmoved)
  unique := by
    intro b hb hid hmoved
    unfold World.Resolves at hb
    rw [hf.refs] at hb
    rw [hf.puppeted] at hid
    have hmoved := (hf.mem.mp hmoved).resolve_right fun h => by cases h.1
    exact hf.keeps (h.unique b hb hid hmoved)
  released := by
    intro b hb hnative hoff
    unfold World.Resolves at hb
    rw [hf.refs] at hb
    have hne : a ≠ b := by
      rintro rfl
      exact hnative (hf.subset hplaced)
    rw [hf.lastAI_eq hne] at hoff
    rw [hf.puppeted]
    exact h.released b hb (fun hm => hnative (hf.subset hm)) hoff
  placed := fun peer b hbody => hf.subset (h.placed peer b (hf.byPeer ▸ hbody))
  apart := by
    intro peer b hbody hb
    rw [hf.byPeer] at hbody
    unfold World.Resolves at hb
    rw [hf.refs] at hb
    rw [hf.puppeted]
    exact h.apart peer b hbody hb
  serial_refs := by
    rw [hf.refs, hf.nextSerial]
    exact h.serial_refs
  serial_calls := by
    intro c hc
    rw [hf.nextSerial]
    rcases hf.mem.mp hc with hc | ⟨rfl, -⟩
    · exact h.serial_calls c hc
    · exact h.serial_calls (.place a) hplaced

/-- What the setup of a placed body keeps and does. -/
structure Prepared (a : Actor) (peer : UInt32) (s s' : World) : Prop where
  frozen : Frozen s'
  byPeer : s'.byPeer = s.byPeer
  puppeted : s'.puppeted = s.puppeted
  refs : s'.refs = s.refs
  nextSerial : s'.nextSerial = s.nextSerial
  placed : .place a ∈ s'.calls
  off : ¬ StaleCounter s a peer → lastAI s'.calls a = some false

theorem Frozen.prepared (h : Frozen s) (peer : UInt32) (hplaced : .place a ∈ s.calls) : Prepared a peer s (s.readyGhost a peer) := by
  have hlisted : Frozen { s with ghostReady := s.ghostReady.insert peer } :=
    h.fewer (fun _ _ h => h) (fun _ _ h => h) rfl rfl rfl
  have hf := GhostBodies.froze a peer { s with ghostReady := s.ghostReady.insert peer }
  have hfrozen := hlisted.froze hf hplaced
  unfold World.readyGhost
  dsimp only
  generalize World.freezeGhost a peer { s with ghostReady := s.ghostReady.insert peer } = t at hf hfrozen ⊢
  have hserial : a.serial < t.nextSerial := by
    rw [hf.nextSerial]
    exact h.serial_calls (.place a) hplaced
  have happear := hfrozen.plain (c := .applyAppearance a peer) trivial hserial
  exact {
    frozen := happear.plain trivial hserial
    byPeer := hf.byPeer
    puppeted := hf.puppeted
    refs := hf.refs
    nextSerial := hf.nextSerial
    placed := List.mem_cons_of_mem _ (List.mem_cons_of_mem _ (hf.subset hplaced))
    off := hf.off }

theorem Frozen.moveGhost (h : Frozen s) (has3D : Bool) {peer : UInt32} (hbody : s.byPeer.lookup peer = some a)
    (hstale : has3D = true → ¬ StaleCounter s a peer) : Frozen (s.moveGhost has3D a peer) := by
  have hplaced := h.placed peer a hbody
  -- the move itself, of a body whose AI is off
  have hmove : ∀ t : World, Frozen t → .place a ∈ t.calls → lastAI t.calls a = some false → Frozen (t.call (.moveGhost a peer)) := by
    intro t ht hplaced hoff
    have hlast : ∀ b, lastAI (t.call (.moveGhost a peer)).calls b = lastAI t.calls b := fun _ => rfl
    exact {
      ghost := by
        intro q b hb hresolves hmoved
        rw [hlast]
        rcases List.mem_cons.mp hmoved with hc | hmoved
        · cases hc
          exact hoff
        · exact ht.ghost q b hb hresolves hmoved
      unique := by
        intro b hresolves hid hmoved
        rw [hlast]
        rcases List.mem_cons.mp hmoved with hc | hmoved
        · cases hc
        · exact ht.unique b hresolves hid hmoved
      released := by
        intro b hresolves hnative hb
        rw [hlast] at hb
        exact ht.released b hresolves (fun hm => hnative (List.mem_cons_of_mem _ hm)) hb
      placed := fun q b hb => List.mem_cons_of_mem _ (ht.placed q b hb)
      apart := ht.apart
      serial_refs := ht.serial_refs
      serial_calls := List.forall_mem_cons.mpr ⟨ht.serial_calls (.place a) hplaced, ht.serial_calls⟩ }
  unfold World.moveGhost
  cases has3D with
  | false => exact h
  | true =>
    rw [if_neg (by decide)]
    dsimp only
    split
    · have hset := h.prepared peer hplaced
      exact hmove _ hset.frozen hset.placed (hset.off (hstale rfl))
    · have hf := GhostBodies.froze a peer s
      exact hmove _ (h.froze hf hplaced) (hf.subset hplaced) (hf.off (hstale rfl))

variable {f : GhostFrame} {g : HostFrame}

theorem Frozen.store (h : Frozen s) {peer : UInt32} (hplaced : .place a ∈ s.calls)
    (hoff : .moveGhost a peer ∈ s.calls → lastAI s.calls a = some false) (hid : a.formId ∉ s.puppeted) :
    Frozen { s with byPeer := s.byPeer.insert peer a } := by
  have hentry : ∀ {q : UInt32} {b : Actor}, (s.byPeer.insert peer a).lookup q = some b →
      (q = peer ∧ b = a) ∨ s.byPeer.lookup q = some b := by
    intro q b hb
    rw [Table.lookup_insert] at hb
    split at hb
    · rename_i hq
      exact .inl ⟨hq, (Option.some.inj hb).symm⟩
    · exact .inr hb
  exact {
    ghost := by
      intro q b hb hresolves hmoved
      rcases hentry hb with ⟨rfl, rfl⟩ | hb
      · exact hoff hmoved
      · exact h.ghost q b hb hresolves hmoved
    unique := h.unique
    released := h.released
    placed := by
      intro q b hb
      rcases hentry hb with ⟨rfl, rfl⟩ | hb
      · exact hplaced
      · exact h.placed q b hb
    apart := by
      intro q b hb hresolves
      rcases hentry hb with ⟨rfl, rfl⟩ | hb
      · exact hid
      · exact h.apart q b hb hresolves
    serial_refs := h.serial_refs
    serial_calls := h.serial_calls }

/-- A body is spawned under a free id that no puppeted actor has, with the counter of its peer at rest. -/
theorem Frozen.spawn (h : Frozen s) {peer : UInt32} {t : World} (hspawn : f.spawnGhost peer s = some (a, t))
    (hid : a.formId ∉ s.puppeted)
    (hticks : f.setup3D peer = true ∨ f.move3D peer = true → (s.freezeTicks.lookup peer).getD 0 = 0) :
    Frozen { t with byPeer := t.byPeer.insert peer a } ∧ (f.move3D peer = true → ¬ StaleCounter t a peer) := by
  obtain ⟨id, -, hfree, rfl, rfl⟩ := spawnGhost_eq_some hspawn
  have hcreate : s.create id = { s with refs := s.refs.insert id s.nextSerial, nextSerial := s.nextSerial + 1 } := if_neg hfree
  have hcreated := h.create id
  have hunheard := h.unheard id
  rw [hcreate] at hcreated ⊢
  have hplaced := hcreated.plain (c := .place ⟨id, s.nextSerial⟩) trivial (Nat.lt_succ_self _)
  have hmem : EngineCall.place ⟨id, s.nextSerial⟩ ∈ EngineCall.place ⟨id, s.nextSerial⟩ :: s.calls := List.mem_cons_self
  generalize (⟨id, s.nextSerial⟩ : Actor) = a at hplaced hunheard hid hmem ⊢
  unfold World.finishGhostSetup
  cases hsetup : f.setup3D peer with
  | false =>
    rw [if_pos (show (!false) = true from rfl)]
    refine ⟨hplaced.store hmem (fun hmoved => ?_) hid, fun hmove hstale => hstale.2 (hticks (.inr hmove))⟩
    rcases List.mem_cons.mp hmoved with hc | hc
    · cases hc
    · exact absurd rfl (hunheard _ hc)
  | true =>
    rw [if_neg (by decide)]
    have hset := hplaced.prepared peer hmem
    have hoff := hset.off fun hstale => hstale.2 (hticks (.inl hsetup))
    refine ⟨hset.frozen.store hset.placed (fun _ => hoff) ?_, fun _ hstale => hstale.1 hoff⟩
    rw [hset.puppeted]
    exact hid

theorem Frozen.turn (h : Frozen s) {pose : PlayerPose} (hstale : ¬ StaleTurn f s pose) : Frozen (f.turn s pose) := by
  unfold GhostFrame.turn
  dsimp only
  split
  · exact h
  · rename_i hwanted
    replace hstale : ¬ _ := fun hturn => hstale ⟨not_not.mp hwanted, hturn⟩
    split
    · rename_i a hghost
      exact h.moveGhost _ (Option.filter_eq_some_iff.mp hghost).1 fun hmove hcounter => hstale (.inl ⟨a, hghost, hmove, hcounter⟩)
    · rename_i hghost
      split
      · exact h
      · rename_i a t hspawn
        obtain ⟨id, hplace, hfree, ha, -⟩ := spawnGhost_eq_some hspawn
        have hid : a.formId = id := congrArg Actor.formId ha
        have hset := h.spawn hspawn (fun hmem => hstale (.inr ⟨hghost, id, hplace, hfree, .inl (hid ▸ hmem)⟩)) fun h3D => by
          by_contra hticks
          exact hstale (.inr ⟨hghost, id, hplace, hfree, .inr ⟨h3D, hticks⟩⟩)
        exact hset.1.moveGhost _ (by rw [Table.lookup_insert, if_pos rfl]) hset.2

theorem Frozen.sweep (h : Frozen s) (peer : UInt32) : Frozen (f.sweep s peer) := by
  unfold GhostFrame.sweep
  split
  · exact h
  · refine h.fewer (fun _ _ hn => hn) (fun q b hb => ?_) rfl rfl rfl
    change (s.byPeer.erase peer).lookup q = some b at hb
    rw [Table.lookup_erase] at hb
    split at hb
    · cases hb
    · exact hb

theorem Frozen.applyGhosts (h : Frozen s) (hstale : NeverStale s (.applyGhosts f)) : Frozen (f.apply s) := by
  unfold GhostFrame.apply
  cases hcell : f.inCell with
  | false => exact h
  | true =>
    rw [if_neg (by decide)]
    have hturns := run_invariant (I := Frozen) (P := fun s pose => ¬ StaleTurn f s pose) (fun _ _ hs hpose => hs.turn hpose) h
      (hstale hcell)
    exact run_invariant (P := fun _ _ => True) (fun s peer hs _ => hs.sweep peer) hturns
      (allSteps_iff_split.mpr fun _ _ _ _ => trivial)

theorem actorAt_eq_some : s.actorAt id = some a ↔ a.formId = id ∧ s.Resolves a := by
  unfold World.actorAt World.Resolves
  rw [Option.map_eq_some_iff]
  constructor
  · rintro ⟨serial, hserial, rfl⟩
    exact ⟨rfl, hserial⟩
  · rintro ⟨rfl, hserial⟩
    exact ⟨a.serial, hserial, rfl⟩

theorem driven_eq_some {pose : ActorPose} (h : g.driven s id pose = some a) :
    a.formId = pose.refFormId ∧ s.Resolves a ∧ a ∉ s.byPeer.values := by
  unfold HostFrame.driven at h
  split at h
  · cases h
  · split at h
    · cases h
    · obtain ⟨hat, hkept⟩ := Option.filter_eq_some_iff.mp h
      obtain ⟨hid, hresolves⟩ := actorAt_eq_some.mp hat
      exact ⟨hid, hresolves, of_decide_eq_true (Bool.and_eq_true_iff.mp hkept).2⟩

theorem Frozen.drive (h : Frozen s) (hresolves : s.Resolves a) (hghost : a ∉ s.byPeer.values) (hstale : ¬ StaleCounter s a a.formId) :
    Frozen (({ s with puppeted := s.puppeted.insert a.formId }.freezeGhost a a.formId).call (.moveUnique a a.formId)) := by
  have hf := GhostBodies.froze a a.formId { s with puppeted := s.puppeted.insert a.formId }
  have hoff := hf.off hstale
  generalize World.freezeGhost a a.formId { s with puppeted := s.puppeted.insert a.formId } = t at hf hoff
  have hbyPeer : t.byPeer = s.byPeer := hf.byPeer
  have hpuppeted : ∀ q, q ∈ t.puppeted ↔ q = a.formId ∨ q ∈ s.puppeted := by
    intro q
    rw [hf.puppeted]
    exact List.mem_insert_iff
  have hrefs : t.refs = s.refs := hf.refs
  have hserial : t.nextSerial = s.nextSerial := hf.nextSerial
  have hback : ∀ {c : EngineCall}, c ∈ t.calls → c ∈ s.calls ∨ c = .enableAI a false := fun hc => (hf.mem.mp hc).imp id And.left
  have hres : ∀ {b : Actor}, World.Resolves (t.call (.moveUnique a a.formId)) b → s.Resolves b := by
    intro b hb
    unfold World.Resolves at hb ⊢
    exact hrefs ▸ hb
  have hlast : ∀ b, lastAI (t.call (.moveUnique a a.formId)).calls b = lastAI t.calls b := fun _ => rfl
  -- two actors that stand under one id are one
  have hsame : ∀ {b : Actor}, s.Resolves b → b.formId = a.formId → b = a := by
    rintro ⟨_, n⟩ hb rfl
    unfold World.Resolves at hb hresolves
    rw [hresolves] at hb
    exact congrArg (Actor.mk a.formId) (Option.some.inj hb).symm
  exact {
    ghost := by
      intro peer b hbody hb hmoved
      rw [hlast]
      have hmoved := (List.mem_cons.mp hmoved).resolve_left fun hc => by cases hc
      have hmoved := (hback hmoved).resolve_right fun hc => by cases hc
      exact hf.keeps (h.ghost peer b (hbyPeer ▸ hbody) (hres hb) hmoved)
    unique := by
      intro b hb hid hmoved
      rw [hlast]
      by_cases hne : b.formId = a.formId
      · rw [hsame (hres hb) hne]
        exact hoff
      · have hmoved := (List.mem_cons.mp hmoved).resolve_left fun hc => by
          cases hc
          exact hne rfl
        have hmoved := (hback hmoved).resolve_right fun hc => by cases hc
        exact hf.keeps (h.unique b (hres hb) (((hpuppeted _).mp hid).resolve_left hne) hmoved)
    released := by
      intro b hb hnative hbOff
      rw [hlast] at hbOff
      refine (hpuppeted _).mpr ?_
      by_cases hab : a = b
      · exact .inl (congrArg Actor.formId hab.symm)
      · have hbOff : lastAI s.calls b = some false := (hf.lastAI_eq hab).symm.trans hbOff
        exact .inr (h.released b (hres hb) (fun hm => hnative (List.mem_cons_of_mem _ (hf.subset hm))) hbOff)
    placed := fun peer b hbody => List.mem_cons_of_mem _ (hf.subset (h.placed peer b (hbyPeer ▸ hbody)))
    apart := by
      intro peer b hbody hb hid
      have hbody : s.byPeer.lookup peer = some b := hbyPeer ▸ hbody
      rcases (hpuppeted _).mp hid with hid | hid
      · exact hghost (hsame (hres hb) hid ▸ Table.lookup_mem_values hbody)
      · exact h.apart peer b hbody (hres hb) hid
    serial_refs := by
      change ∀ q n, t.refs.lookup q = some n → n < t.nextSerial
      rw [hrefs, hserial]
      exact h.serial_refs
    serial_calls := by
      have ha : a.serial < s.nextSerial := h.serial_refs _ _ hresolves
      change ∀ c ∈ EngineCall.moveUnique a a.formId :: t.calls, c.actor.serial < t.nextSerial
      rw [hserial]
      refine List.forall_mem_cons.mpr ⟨ha, fun c hc => ?_⟩
      rcases hback hc with hc | rfl
      · exact h.serial_calls c hc
      · exact ha }

theorem Frozen.hostTurn {r : List UInt32 × World} (h : Frozen r.2) {entry : Σ _ : UInt32, ActorPose}
    (hstale : ¬ StaleHostTurn g r entry) : Frozen (g.turn r entry).2 := by
  unfold HostFrame.turn
  dsimp only
  split
  · exact h
  · rename_i a hdriven
    obtain ⟨hid, hresolves, hghost⟩ := driven_eq_some hdriven
    rw [← hid]
    exact h.drive hresolves hghost fun hcounter => hstale ⟨a, hdriven, hid ▸ hcounter⟩

/-- No stored body stands under the id. -/
def Unbodied (s : World) (id : UInt32) : Prop := ∀ peer a, s.byPeer.lookup peer = some a → s.Resolves a → a.formId ≠ id

theorem Frozen.release (h : Frozen s) {live : List UInt32} (hid : Unbodied s id) : Frozen (HostFrame.release live s id) := by
  unfold HostFrame.release
  split
  · exact h
  · have hfilter : ∀ q, q ∈ s.puppeted.filter (· ≠ id) ↔ q ∈ s.puppeted ∧ q ≠ id := by
      intro q
      rw [List.mem_filter, decide_eq_true_iff]
    cases hat : s.actorAt id with
    | none =>
      have hgone : ∀ {b : Actor}, s.Resolves b → b.formId ≠ id := by
        intro b hb hbid
        rw [actorAt_eq_some.mpr ⟨hbid, hb⟩] at hat
        cases hat
      exact {
        ghost := h.ghost
        unique := fun b hb hq hmoved => h.unique b hb ((hfilter _).mp hq).1 hmoved
        released := fun b hb hnative hoff => (hfilter _).mpr ⟨h.released b hb hnative hoff, hgone hb⟩
        placed := h.placed
        apart := fun peer b hbody hb hq => h.apart peer b hbody hb ((hfilter _).mp hq).1
        serial_refs := h.serial_refs
        serial_calls := h.serial_calls }
    | some a =>
      obtain ⟨hformId, hresolves⟩ := actorAt_eq_some.mp hat
      have hlast : ∀ {b : Actor}, a ≠ b → lastAI (s.unfreezeRemoteActor a).calls b = lastAI s.calls b := fun hne => if_neg hne
      have hmem : ∀ {c : EngineCall}, c ∈ (s.unfreezeRemoteActor a).calls → c ≠ .enableAI a true → c ∈ s.calls :=
        fun hc hne => (List.mem_cons.mp hc).resolve_left hne
      exact {
        ghost := by
          intro peer b hbody hb hmoved
          have hne : a ≠ b := by
            rintro rfl
            exact hid peer a hbody hb hformId
          exact (hlast hne).trans (h.ghost peer b hbody hb (hmem hmoved fun hc => by cases hc))
        unique := by
          intro b hb hq hmoved
          have hne : a ≠ b := by
            rintro rfl
            exact ((hfilter _).mp hq).2 hformId
          exact (hlast hne).trans (h.unique b hb ((hfilter _).mp hq).1 (hmem hmoved fun hc => by cases hc))
        released := by
          intro b hb hnative hoff
          have hne : a ≠ b := by
            rintro rfl
            have hon : lastAI (s.unfreezeRemoteActor a).calls a = some true := if_pos rfl
            cases hon.symm.trans hoff
          refine (hfilter _).mpr ⟨?_, fun hbid => ?_⟩
          · exact h.released b hb (fun hm => hnative (List.mem_cons_of_mem _ hm)) ((hlast hne).symm.trans hoff)
          · have hb : s.Resolves b := hb
            rw [actorAt_eq_some.mpr ⟨hbid, hb⟩] at hat
            exact hne (Option.some.inj hat).symm
        placed := fun peer b hbody => List.mem_cons_of_mem _ (h.placed peer b hbody)
        apart := fun peer b hbody hb hq => h.apart peer b hbody hb ((hfilter _).mp hq).1
        serial_refs := h.serial_refs
        serial_calls := List.forall_mem_cons.mpr ⟨h.serial_refs _ _ hresolves, h.serial_calls⟩ }

theorem unbodied_release {live : List UInt32} {q : UInt32} (h : Unbodied s q) : Unbodied (HostFrame.release live s id) q := by
  unfold HostFrame.release
  split
  · exact h
  · dsimp only
    split <;> exact h

theorem Frozen.releases (h : Frozen s) {live ids : List UInt32} (hids : ∀ id ∈ ids, Unbodied s id) :
    Frozen (run (HostFrame.release live) s ids) := by
  induction ids generalizing s with
  | nil => exact h
  | cons id ids ih =>
    obtain ⟨hid, hids⟩ := List.forall_mem_cons.mp hids
    exact ih (h.release hid) fun q hq => unbodied_release (hids q hq)

theorem Frozen.unbodied (h : Frozen s) : ∀ id ∈ s.puppeted, Unbodied s id := by
  rintro id hid peer a hbody ha rfl
  exact h.apart peer a hbody ha hid

theorem Frozen.applyHostActors (h : Frozen s) (hstale : NeverStale s (.applyHostActors g)) : Frozen (g.apply s) := by
  unfold HostFrame.apply
  cases hjoined : g.joined with
  | false => exact h
  | true =>
    cases hhost : g.isHost with
    | true => exact h
    | false =>
      cases hcell : g.inCell with
      | false => exact h
      | true =>
        rw [if_neg (by decide)]
        have hturns : Frozen (run g.turn ([], s) s.latestActors.entries).2 :=
          run_invariant (I := fun r : List UInt32 × World => Frozen r.2) (P := fun r entry => ¬ StaleHostTurn g r entry)
            (fun _ _ hr hentry => hr.hostTurn hentry) h (hstale hjoined hhost hcell)
        exact hturns.releases hturns.unbodied

theorem Frozen.despawnGhosts (h : Frozen s) : Frozen s.despawnGhosts :=
  h.fewer (fun _ _ hn => hn) (fun peer a hb => by
    change (∅ : Table UInt32 Actor).lookup peer = some a at hb
    rw [AList.lookup_empty] at hb
    cases hb) rfl rfl rfl

theorem Frozen.ghostOf (h : Frozen s) {peer : UInt32} (hghost : s.ghostOf peer = some a) : a.serial < s.nextSerial :=
  h.serial_calls (.place a) (h.placed peer a (Option.filter_eq_some_iff.mp hghost).1)

theorem Frozen.step (h : Frozen s) {happening : Happening} (hstale : NeverStale s happening) : Frozen (step s happening) := by
  cases happening with
  | applyGhosts f => exact h.applyGhosts hstale
  | applyHostActors g => exact h.applyHostActors hstale
  | onActorPose joined isHost now pose =>
    change Frozen (s.onActorPose joined isHost now pose)
    unfold World.onActorPose
    split
    · exact h
    · exact h.fewer (fun _ _ hn => hn) (fun _ _ hb => hb) rfl rfl rfl
  | appearanceArrived peer =>
    unfold GhostBodies.step
    dsimp only
    split
    · rename_i hghost
      exact h.plain trivial (h.ghostOf hghost)
    · exact h
  | inventoryArrived peer =>
    unfold GhostBodies.step
    dsimp only
    split
    · rename_i hghost
      exact h.plain trivial (h.ghostOf hghost)
    · exact h
  | despawnGhosts => exact h.despawnGhosts
  | leave =>
    have hreleased : Frozen (run (HostFrame.release []) s.despawnGhosts s.despawnGhosts.puppeted) :=
      h.despawnGhosts.releases h.despawnGhosts.unbodied
    exact hreleased.fewer (fun _ _ hn => hn) (fun _ _ hb => hb) rfl rfl rfl
  | create id => exact h.create id
  | remove id =>
    refine h.fewer (fun q n hn => ?_) (fun _ _ hb => hb) rfl rfl rfl
    change (s.refs.erase id).lookup q = some n at hn
    rw [Table.lookup_erase] at hn
    split at hn
    · cases hn
    · exact hn

/-- In a run without stale counters, AI follows the freeze. -/
theorem puppets_followFreeze {happenings : List Happening} (h : AllSteps step NeverStale {} happenings) :
    FollowsFreeze (run step {} happenings) :=
  (run_invariant (fun _ _ hs hstale => hs.step hstale) frozen_start h).followsFreeze

def uniquePose (id : UInt32) : ActorPose where
  header := fillHeader .ActorPose 64
  refFormId := id
  baseFormId := 0
  locationFormId := 0
  x := ⟨0⟩
  y := ⟨0⟩
  z := ⟨0⟩
  yaw := ⟨0⟩
  pitch := ⟨0⟩
  speed := ⟨0⟩
  vx := ⟨0⟩
  vy := ⟨0⟩
  flags := 0
  unique := 1
  dead := 0
  pad := 0

def guestFrame (now : Time) : HostFrame where
  joined := true
  isHost := false
  inCell := true
  location := 0x3C
  now := now
  isPlayerRef id := id = 0x14

def feedStarts : List Happening :=
  [.create 0x1A4D7, .onActorPose true false 0 (uniquePose 0x1A4D7), .applyHostActors (guestFrame 1)]

theorem puppets_followFreeze_feedStarts : FollowsFreeze (run step {} feedStarts) := by
  have hentries : (run step {} (feedStarts.take 2)).latestActors.entries = [⟨0x1A4D7, uniquePose 0x1A4D7⟩] := by decide +kernel
  refine puppets_followFreeze ⟨trivial, trivial, fun _ _ _ => ?_, trivial⟩
  change AllSteps _ _ _ (run step {} (feedStarts.take 2)).latestActors.entries
  rw [hentries]
  refine ⟨?_, trivial⟩
  rintro ⟨a, -, -, hticks⟩
  exact hticks (by decide +kernel)

/-- The feed falls silent for three seconds and goes on. -/
def feedBreaks : List Happening :=
  feedStarts ++ [.applyHostActors (guestFrame 3), .onActorPose true false 4 (uniquePose 0x1A4D7), .applyHostActors (guestFrame 4)]

/-- The actor is driven again with the AI that its release switched on. -/
theorem not_followsFreeze_feedBreaks : ¬ FollowsFreeze (run step {} feedBreaks) := by
  intro h
  have hoff := h.unique ⟨0x1A4D7, 0⟩ (by decide +kernel) ⟨by decide +kernel, by decide +kernel⟩
  exact absurd hoff (by decide +kernel)

end CommonwealthMP.GhostBodies
