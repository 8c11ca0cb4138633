import CommonwealthMP.Indicators

/-! # The peers the indicators show

Each listed peer has one row and no body two, and the nearest of them is marked. What an update makes of the compass array
and of the list of markers. -/
namespace CommonwealthMP

namespace GhostBodies
open OrderedTables StepRuns

def Unplaced (c : EngineCall) : Prop := ∀ a, c ≠ .place a

/-- Each stored body is one the plugin has placed, and belongs to one peer. -/
structure Bodied (w : World) : Prop where
  placed : ∀ peer a, w.byPeer.lookup peer = some a → .place a ∈ w.calls
  serial : ∀ a, .place a ∈ w.calls → a.serial < w.nextSerial
  single : ∀ p q a, w.byPeer.lookup p = some a → w.byPeer.lookup q = some a → p = q

/-- The bodies placed since are new ones. -/
structure Grows (w w' : World) : Prop where
  calls : w.calls ⊆ w'.calls
  serial : w.nextSerial ≤ w'.nextSerial
  fresh : ∀ a, .place a ∈ w'.calls → .place a ∈ w.calls ∨ w.nextSerial ≤ a.serial

def Evolves (w w' : World) : Prop := Bodied w → Bodied w' ∧ Grows w w'

theorem bodied_start : Bodied {} where
  placed _ _ h := by cases h
  serial _ h := by cases h
  single _ _ _ h := by cases h

section Evolves
variable {w w' w'' : World}

theorem Evolves.trans (h : Evolves w w') (h' : Evolves w' w'') : Evolves w w'' := by
  intro hb
  obtain ⟨hb', hg⟩ := h hb
  obtain ⟨hb'', hg'⟩ := h' hb'
  refine ⟨hb'', fun _ hc => hg'.calls (hg.calls hc), hg.serial.trans hg'.serial, fun a ha => ?_⟩
  rcases hg'.fresh a ha with ha | ha
  · exact hg.fresh a ha
  · exact .inr (hg.serial.trans ha)

theorem Evolves.plain (hbody : ∀ p a, w'.byPeer.lookup p = some a → w.byPeer.lookup p = some a) (hserial : w.nextSerial ≤ w'.nextSerial)
    {l : List EngineCall} (hcalls : w'.calls = l ++ w.calls) (hl : ∀ c ∈ l, Unplaced c) : Evolves w w' := by
  have hold {a : Actor} (ha : .place a ∈ w'.calls) : .place a ∈ w.calls := by
    rw [hcalls] at ha
    exact (List.mem_append.mp ha).resolve_left fun ha => hl _ ha a rfl
  have hsub : w.calls ⊆ w'.calls := by
    rw [hcalls]
    exact List.subset_append_right _ _
  intro hb
  refine ⟨⟨fun p a h => hsub (hb.placed p a (hbody p a h)), fun a ha => (hb.serial a (hold ha)).trans_le hserial, ?_⟩, hsub, hserial,
    fun a ha => .inl (hold ha)⟩
  exact fun p q a h h' => hb.single p q a (hbody p a h) (hbody q a h')

theorem Evolves.refl (w : World) : Evolves w w := .plain (fun _ _ h => h) le_rfl (List.nil_append _).symm (List.forall_mem_nil _)

theorem Evolves.same (hbody : w'.byPeer = w.byPeer) (hserial : w'.nextSerial = w.nextSerial) (hcalls : w'.calls = w.calls) :
    Evolves w w' :=
  .plain (fun _ _ h => hbody ▸ h) hserial.ge (l := []) hcalls (List.forall_mem_nil _)

theorem evolves_call {c : EngineCall} (hc : Unplaced c) (w : World) : Evolves w (w.call c) :=
  .plain (l := [c]) (fun _ _ h => h) le_rfl rfl (List.forall_mem_singleton.mpr hc)

theorem evolves_run {ι : Type} {f : World → ι → World} (h : ∀ w i, Evolves w (f w i)) (w : World) (is : List ι) :
    Evolves w (run f w is) := by
  induction is generalizing w with
  | nil => exact .refl w
  | cons i is ih => exact (h w i).trans (ih _)

theorem evolves_freezeGhost (a : Actor) (id : UInt32) (w : World) : Evolves w (w.freezeGhost a id) := by
  unfold World.freezeGhost
  dsimp only
  split
  · exact .plain (l := [.enableAI a false]) (fun _ _ h => h) le_rfl rfl (List.forall_mem_singleton.mpr fun _ h => by cases h)
  · exact .same rfl rfl rfl

theorem evolves_readyGhost (a : Actor) (peer : UInt32) (w : World) : Evolves w (w.readyGhost a peer) := by
  have hready : Evolves w { w with ghostReady := w.ghostReady.insert peer } := .same rfl rfl rfl
  exact ((hready.trans (evolves_freezeGhost a peer _)).trans (evolves_call (fun _ h => by cases h) _)).trans
    (evolves_call (fun _ h => by cases h) _)

theorem evolves_moveGhost (has3D : Bool) (a : Actor) (peer : UInt32) (w : World) : Evolves w (w.moveGhost has3D a peer) := by
  unfold World.moveGhost
  have hmove : Unplaced (.moveGhost a peer) := fun _ h => by cases h
  cases has3D with
  | false => exact .refl w
  | true =>
    rw [if_neg (by decide)]
    dsimp only
    split
    · exact (evolves_readyGhost a peer w).trans (evolves_call hmove _)
    · exact (evolves_freezeGhost a peer w).trans (evolves_call hmove _)

theorem evolves_create (id : UInt32) (w : World) : Evolves w (w.create id) := by
  unfold World.create
  split
  · exact .refl w
  · exact .plain (l := []) (fun _ _ h => h) (Nat.le_succ _) rfl (List.forall_mem_nil _)

theorem evolves_place {id : UInt32} (hfree : id ∉ w.refs) : Evolves w ((w.create id).call (.place ⟨id, w.nextSerial⟩)) := by
  have hcreate : w.create id = { w with refs := w.refs.insert id w.nextSerial, nextSerial := w.nextSerial + 1 } := by
    rw [World.create, if_neg hfree]
  rw [hcreate]
  have hcases {a : Actor} (ha : EngineCall.place a ∈ .place ⟨id, w.nextSerial⟩ :: w.calls) :
      a = ⟨id, w.nextSerial⟩ ∨ .place a ∈ w.calls := by
    rcases List.mem_cons.mp ha with ha | ha
    · exact .inl (EngineCall.place.inj ha)
    · exact .inr ha
  intro hb
  refine ⟨⟨fun p a h => List.mem_cons_of_mem _ (hb.placed p a h), fun a ha => ?_, hb.single⟩, List.subset_cons_self _ _,
    Nat.le_succ _, fun a ha => ?_⟩
  · rcases hcases ha with rfl | ha
    · exact Nat.lt_succ_self _
    · exact (hb.serial a ha).trans (Nat.lt_succ_self _)
  · rcases hcases ha with rfl | ha
    · exact .inr le_rfl
    · exact .inl ha

theorem evolves_finishGhostSetup (has3D : Bool) (a : Actor) (peer : UInt32) (w : World) :
    Evolves w (w.finishGhostSetup has3D a peer) ∧ (w.finishGhostSetup has3D a peer).byPeer = w.byPeer := by
  unfold World.finishGhostSetup
  cases has3D with
  | false => exact ⟨.refl w, rfl⟩
  | true => exact ⟨evolves_readyGhost a peer w, (readied a peer w).byPeer⟩

theorem evolves_spawn {f : GhostFrame} {peer : UInt32} {t : World} {a : Actor} (h : f.spawnGhost peer w = some (a, t)) :
    Evolves w { t with byPeer := t.byPeer.insert peer a } := by
  obtain ⟨id, -, hfree, rfl, rfl⟩ := spawnGhost_eq_some h
  obtain ⟨hsetup, hbyPeer⟩ := evolves_finishGhostSetup (f.setup3D peer) ⟨id, w.nextSerial⟩ peer
    ((w.create id).call (.place ⟨id, w.nextSerial⟩))
  replace hbyPeer := hbyPeer.trans (create_tables id w).1
  have hplaced : EngineCall.place ⟨id, w.nextSerial⟩ ∈ ((w.create id).call (.place ⟨id, w.nextSerial⟩)).calls := List.mem_cons_self
  intro hb
  obtain ⟨hbt, hgrows⟩ := (evolves_place hfree).trans hsetup hb
  have hcall := (hsetup (evolves_place hfree hb).1).2.calls hplaced
  generalize ((w.create id).call (.place ⟨id, w.nextSerial⟩)).finishGhostSetup (f.setup3D peer) ⟨id, w.nextSerial⟩ peer = t at *
  have hentry {q : UInt32} {b : Actor} (hl : (t.byPeer.insert peer ⟨id, w.nextSerial⟩).lookup q = some b) :
      (q = peer ∧ b = ⟨id, w.nextSerial⟩) ∨ w.byPeer.lookup q = some b := by
    rw [Table.lookup_insert] at hl
    split at hl
    · exact .inl ⟨‹_›, (Option.some.inj hl).symm⟩
    · exact .inr (hbyPeer ▸ hl)
  -- the new body has a number that no stored one has
  have hnew {q : UInt32} (hl : w.byPeer.lookup q = some ⟨id, w.nextSerial⟩) : False :=
    lt_irrefl _ (hb.serial _ (hb.placed q _ hl))
  refine ⟨⟨fun q b hl => ?_, hbt.serial, fun p q b hl hl' => ?_⟩, hgrows.calls, hgrows.serial, hgrows.fresh⟩
  · rcases hentry hl with ⟨-, rfl⟩ | hl
    · exact hcall
    · exact hgrows.calls (hb.placed q b hl)
  · rcases hentry hl with ⟨hp, hbp⟩ | hold <;> rcases hentry hl' with ⟨hq, hbq⟩ | hold'
    · rw [hp, hq]
    · exact (hnew (hbp ▸ hold')).elim
    · exact (hnew (hbq ▸ hold)).elim
    · exact hb.single p q b hold hold'

theorem evolves_turn (f : GhostFrame) (w : World) (pose : PlayerPose) : Evolves w (f.turn w pose) := by
  unfold GhostFrame.turn
  dsimp only
  split
  · exact .refl w
  · split
    · exact evolves_moveGhost _ _ _ w
    · split
      · exact .refl w
      · rename_i hspawn
        exact (evolves_spawn hspawn).trans (evolves_moveGhost _ _ _ _)

theorem evolves_sweep (f : GhostFrame) (w : World) (peer : UInt32) : Evolves w (f.sweep w peer) := by
  unfold GhostFrame.sweep
  split
  · exact .refl w
  · refine .plain (l := []) (fun q b hl => ?_) le_rfl rfl (List.forall_mem_nil _)
    change (w.byPeer.erase peer).lookup q = some b at hl
    rw [Table.lookup_erase] at hl
    split at hl
    · cases hl
    · exact hl

theorem evolves_release (live : List UInt32) (w : World) (id : UInt32) : Evolves w (HostFrame.release live w id) := by
  unfold HostFrame.release
  split
  · exact .refl w
  · dsimp only
    split
    · exact .plain (l := [.enableAI _ true]) (fun _ _ h => h) le_rfl rfl (List.forall_mem_singleton.mpr fun _ h => by cases h)
    · exact .same rfl rfl rfl

theorem evolves_applyHostActors (g : HostFrame) (w : World) : Evolves w (g.apply w) := by
  have hturns (entries : List (Σ _ : UInt32, ActorPose)) (r : List UInt32 × World) : Evolves r.2 (run g.turn r entries).2 := by
    induction entries generalizing r with
    | nil => exact .refl _
    | cons entry entries ih =>
      refine Evolves.trans ?_ (ih _)
      unfold HostFrame.turn
      dsimp only
      split
      · exact .refl _
      · rename_i a _
        have hlisted : Evolves r.2 { r.2 with puppeted := r.2.puppeted.insert entry.2.refFormId } := .same rfl rfl rfl
        exact (hlisted.trans (evolves_freezeGhost a _ _)).trans (evolves_call (fun _ h => by cases h) _)
  unfold HostFrame.apply
  split
  · exact .refl w
  · exact (hturns w.latestActors.entries ([], w)).trans (evolves_run (evolves_release _) _ _)

theorem evolves_despawnGhosts (w : World) : Evolves w w.despawnGhosts :=
  .plain (l := []) (fun p a h => by
    change (∅ : Table UInt32 Actor).lookup p = some a at h
    rw [AList.lookup_empty] at h
    cases h) le_rfl rfl (List.forall_mem_nil _)

theorem evolves_step (w : World) (h : Happening) : Evolves w (step w h) := by
  cases h with
  | applyGhosts f =>
    change Evolves w (f.apply w)
    unfold GhostFrame.apply
    split
    · exact .refl w
    · exact (evolves_run (evolves_turn f) w _).trans (evolves_run (evolves_sweep f) _ _)
  | applyHostActors f => exact evolves_applyHostActors f w
  | onActorPose joined isHost now pose =>
    change Evolves w (w.onActorPose joined isHost now pose)
    unfold World.onActorPose
    split
    · exact .refl w
    · exact .same rfl rfl rfl
  | appearanceArrived peer =>
    unfold GhostBodies.step
    dsimp only
    split
    · exact evolves_call (fun _ h => by cases h) w
    · exact .refl w
  | inventoryArrived peer =>
    unfold GhostBodies.step
    dsimp only
    split
    · exact evolves_call (fun _ h => by cases h) w
    · exact .refl w
  | despawnGhosts => exact evolves_despawnGhosts w
  | leave =>
    have hreleases := evolves_run (evolves_release []) w.despawnGhosts w.despawnGhosts.puppeted
    exact ((evolves_despawnGhosts w).trans hreleases).trans (.same rfl rfl rfl)
  | create id => exact evolves_create id w
  | remove id => exact .same rfl rfl rfl

end Evolves
end GhostBodies

namespace Indicators
open ByteLayout Binary32 OrderedTables StepRuns TrackedLists
open GhostBodies (Actor World EngineCall Bodied Evolves)

section Shown
variable (f : IndicatorFrame) (w : World)

def handles (rows : List PeerIndicator) : List Actor := rows.filterMap (·.ghostHandle)

/-- The poses that make a row, in the order of the table. -/
def listed : List (Σ _ : UInt32, PlayerPose) := f.latestPose.entries.filter fun e => f.Listed e.1 e.2

theorem run_collectTurn (c : Collected) (entries : List (Σ _ : UInt32, PlayerPose)) :
    (run (f.collectTurn w) c entries).out = c.out ++ (entries.filter fun e => f.Listed e.1 e.2).map fun e => f.row w e.1 e.2 := by
  induction entries generalizing c with
  | nil => rw [List.filter_nil, List.map_nil, List.append_nil, run_nil]
  | cons e entries ih =>
    rw [run_cons, ih]
    by_cases hl : f.Listed e.1 e.2
    · have hout : (f.collectTurn w c e).out = c.out ++ [f.row w e.1 e.2] := by
        rw [IndicatorFrame.collectTurn, if_neg (not_not.mpr hl)]
        split <;> rfl
      rw [hout, List.filter_cons_of_pos (by simpa using hl), List.map_cons, List.append_assoc, List.singleton_append]
    · rw [IndicatorFrame.collectTurn, if_pos hl, List.filter_cons_of_neg (by simpa using hl)]

theorem map_modify_nearest {β : Type} (g : PeerIndicator → β) (hg : ∀ row, g { row with isNearest := true } = g row)
    (rows : List PeerIndicator) (i : ℕ) : (rows.modify i fun row => { row with isNearest := true }).map g = rows.map g := by
  refine List.ext_getElem (by simp) fun j hj hj' => ?_
  rw [List.getElem_map, List.getElem_map, List.getElem_modify]
  split
  · rw [hg]
  · rfl

theorem map_shown {β : Type} (g : PeerIndicator → β) (hg : ∀ row, g { row with isNearest := true } = g row) :
    (f.shown w).map g = if !f.pointerHud || !f.joined || f.silent then [] else (listed f).map fun e => g (f.row w e.1 e.2) := by
  unfold IndicatorFrame.shown IndicatorFrame.collectPeers
  cases (!f.pointerHud || !f.joined) with
  | true => rfl
  | false =>
    cases f.silent with
    | true => rfl
    | false =>
      simp only [Bool.false_eq_true, if_false, Bool.or_false]
      rw [map_modify_nearest g hg, run_collectTurn, List.map_append, List.map_map]
      rfl

theorem shown_row {row : PeerIndicator} (h : row ∈ f.shown w) : row.ghostHandle = w.byPeer.lookup row.peer := by
  have hmem := List.mem_map_of_mem (f := fun row : PeerIndicator => (row.peer, row.ghostHandle)) h
  rw [map_shown f w _ fun _ => rfl] at hmem
  split at hmem
  · cases hmem
  · obtain ⟨e, -, he⟩ := List.mem_map.mp hmem
    obtain ⟨hpeer, hhandle⟩ := Prod.mk.inj he
    rw [← hpeer, ← hhandle]
    rfl

theorem handles_eq : handles (f.shown w) = ((f.shown w).map (·.peer)).filterMap w.byPeer.lookup := by
  rw [List.filterMap_map]
  exact List.filterMap_congr fun row hrow => shown_row f w hrow

theorem nodup_peers : ((f.shown w).map (·.peer)).Nodup := by
  rw [map_shown f w (·.peer) fun _ => rfl]
  split
  · exact List.nodup_nil
  · exact List.Nodup.sublist (List.filter_sublist.map Sigma.fst) f.latestPose.nodupKeys

/-- No body is shown twice. -/
theorem nodup_handles (hb : Bodied w) : (handles (f.shown w)).Nodup := by
  rw [handles_eq]
  exact (nodup_peers f w).filterMap fun p q a hp hq => hb.single p q a hp hq

theorem handles_placed (hb : Bodied w) : ∀ a ∈ handles (f.shown w), EngineCall.place a ∈ w.calls := by
  intro a ha
  rw [handles_eq] at ha
  obtain ⟨p, -, hp⟩ := List.mem_filterMap.mp ha
  exact hb.placed p a hp

theorem mem_shown_peers {peer : UInt32} : peer ∈ (f.shown w).map (·.peer) ↔
    f.pointerHud = true ∧ f.joined = true ∧ f.silent = false ∧ ∃ pose, f.latestPose.lookup peer = some pose ∧ f.Listed peer pose := by
  rw [map_shown f w (·.peer) fun _ => rfl]
  have hlisted : peer ∈ (listed f).map (fun e => (f.row w e.1 e.2).peer) ↔
      ∃ pose, f.latestPose.lookup peer = some pose ∧ f.Listed peer pose := by
    simp only [List.mem_map, listed, List.mem_filter, decide_eq_true_eq]
    constructor
    · rintro ⟨⟨q, pose⟩, ⟨hmem, hl⟩, rfl⟩
      exact ⟨pose, Table.mem_entries.mp hmem, hl⟩
    · rintro ⟨pose, hpose, hl⟩
      exact ⟨⟨peer, pose⟩, ⟨Table.mem_entries.mpr hpose, hl⟩, rfl⟩
  cases hon : f.pointerHud <;> cases hjoined : f.joined <;> cases hsilent : f.silent <;> simp [hlisted]

end Shown

theorem ltValue_trans {a b c : Value} (h : ltValue a b = true) (h' : ltValue b c = true) : ltValue a c = true := by
  cases a <;> cases b <;> cases c <;> simp_all [ltValue]
  exact h.trans h'

theorem lt_irrefl (x : F32) : lt x x = false := by
  unfold lt
  cases value x <;> simp [ltValue]

/-- `nearestDist` before any row. -/
def farAway : F32 := ⟨0x7149F2CA⟩

section Nearest
variable {f : IndicatorFrame} {w : World} {c : Collected}

/-- The loop has seen no row in reach, or knows one that no other is nearer than. -/
inductive Knows (f : IndicatorFrame) (c : Collected) : Prop
  | none (hdist : c.nearestDist = farAway) (hidx : c.nearestIdx = 0) (h : ∀ row ∈ c.out, lt (f.dist row.pose) farAway = false)
  | some (row) (hrow : c.out[c.nearestIdx]? = some row) (hdist : f.dist row.pose = c.nearestDist)
      (hfar : lt c.nearestDist farAway = true) (h : ∀ row ∈ c.out, lt (f.dist row.pose) c.nearestDist = false)

theorem Knows.least (h : Knows f c) : ∀ row ∈ c.out, lt (f.dist row.pose) c.nearestDist = false := by
  cases h with
  | none hdist hidx h => rwa [hdist]
  | some row hrow hdist hfar h => exact h

theorem Knows.turn (h : Knows f c) (e : Σ _ : UInt32, PlayerPose) : Knows f (f.collectTurn w c e) := by
  unfold IndicatorFrame.collectTurn
  split
  · exact h
  · split
    · rename_i hlt
      have hfar : lt (f.dist e.2) farAway = true := by
        cases h with
        | none hdist hidx h => rwa [← hdist]
        | some row hrow hdist hfar h => exact ltValue_trans hlt hfar
      refine .some (f.row w e.1 e.2) List.getElem?_concat_length rfl hfar fun row hrow => ?_
      rcases List.mem_append.mp hrow with hrow | hrow
      · by_contra hnear
        have hnearer := ltValue_trans (Bool.not_eq_false _ ▸ hnear) hlt
        exact absurd (hnearer.symm.trans (h.least row hrow)) Bool.true_eq_false_eq_False
      · rw [List.mem_singleton.mp hrow]
        exact lt_irrefl _
    · rename_i hlt
      replace hlt : lt (f.dist e.2) c.nearestDist = false := Bool.not_eq_true _ ▸ hlt
      cases h with
      | none hdist hidx h =>
        refine .none hdist hidx fun row hrow => ?_
        rcases List.mem_append.mp hrow with hrow | hrow
        · exact h row hrow
        · rw [List.mem_singleton.mp hrow]
          exact hdist ▸ hlt
      | some row hrow hdist hfar h =>
        refine .some row ?_ hdist hfar fun row hrow => ?_
        · exact (List.getElem?_append_left (List.getElem?_eq_some_iff.mp hrow).1).trans hrow
        · rcases List.mem_append.mp hrow with hrow | hrow
          · exact h row hrow
          · rw [List.mem_singleton.mp hrow]
            exact hlt

theorem knows_run (entries : List (Σ _ : UInt32, PlayerPose)) : Knows f (run (f.collectTurn w) {} entries) :=
  run_invariant (P := fun _ _ => True) (fun _ e h _ => h.turn e) (.none rfl rfl (List.forall_mem_nil _))
    (allSteps_of_forall fun _ _ => trivial)

/-- The row at `i` is the only one marked, and no row in reach is nearer. -/
structure MarksNearest (f : IndicatorFrame) (rows : List PeerIndicator) (i : ℕ) : Prop where
  inside : i < rows.length
  only : ∀ j (hj : j < rows.length), (rows[j]).isNearest = true ↔ j = i
  least : ∀ row ∈ rows, lt (f.dist row.pose) farAway = true →
    lt (f.dist (rows[i]).pose) farAway = true ∧ lt (f.dist row.pose) (f.dist (rows[i]).pose) = false

theorem Knows.nearest (h : Knows f c) (hne : c.out ≠ []) : ∃ hi : c.nearestIdx < c.out.length, ∀ row ∈ c.out,
    lt (f.dist row.pose) farAway = true →
      lt (f.dist (c.out[c.nearestIdx]).pose) farAway = true ∧ lt (f.dist row.pose) (f.dist (c.out[c.nearestIdx]).pose) = false := by
  cases h with
  | none hdist hidx h =>
    refine ⟨hidx ▸ List.length_pos_of_ne_nil hne, fun row hrow hfar => ?_⟩
    exact absurd (hfar.symm.trans (h row hrow)) Bool.true_eq_false_eq_False
  | some row hrow hdist hfar h =>
    obtain ⟨hi, hrow⟩ := List.getElem?_eq_some_iff.mp hrow
    refine ⟨hi, fun other hother _ => ?_⟩
    rw [hrow, hdist]
    exact ⟨hfar, h other hother⟩

theorem unmarked_run (entries : List (Σ _ : UInt32, PlayerPose)) :
    ∀ row ∈ (run (f.collectTurn w) {} entries).out, row.isNearest = false := by
  intro row hrow
  rw [run_collectTurn] at hrow
  obtain ⟨e, -, rfl⟩ := List.mem_map.mp hrow
  rfl

theorem marksNearest_shown (hne : f.shown w ≠ []) : ∃ i, MarksNearest f (f.shown w) i := by
  have hshown : f.shown w = (run (f.collectTurn w) {} f.latestPose.entries).out.modify
      (run (f.collectTurn w) {} f.latestPose.entries).nearestIdx fun row => { row with isNearest := true } := by
    unfold IndicatorFrame.shown IndicatorFrame.collectPeers at hne ⊢
    split <;> rename_i hoff
    · exact (hne (if_pos hoff)).elim
    · rw [if_neg hoff] at hne
      split <;> rename_i hsilent
      · exact (hne (if_pos hsilent)).elim
      · rfl
  have hknows := knows_run (f := f) (w := w) f.latestPose.entries
  have hunmarked := unmarked_run (f := f) (w := w) f.latestPose.entries
  rw [hshown] at hne ⊢
  generalize run (f.collectTurn w) {} f.latestPose.entries = c at *
  obtain ⟨hi, hleast⟩ := hknows.nearest fun hout => hne (by rw [hout, List.modify_nil])
  -- the mark changes no pose
  have hpose (j : ℕ) (hj : j < c.out.length) (hj' : j < (c.out.modify c.nearestIdx fun row => { row with isNearest := true }).length) :
      ((c.out.modify c.nearestIdx fun row => { row with isNearest := true })[j]).pose = (c.out[j]).pose := by
    rw [List.getElem_modify]
    split <;> rfl
  have hi' : c.nearestIdx < (c.out.modify c.nearestIdx fun row => { row with isNearest := true }).length := by
    rwa [List.length_modify]
  refine ⟨c.nearestIdx, hi', fun j hj => ?_, fun row hrow hfar => ?_⟩
  · rw [List.getElem_modify]
    split
    · simp_all
    · rw [hunmarked _ (List.getElem_mem _)]
      exact ⟨fun h => (Bool.false_ne_true h).elim, fun h => absurd h.symm ‹_›⟩
  · obtain ⟨j, hj, rfl⟩ := List.getElem_of_mem hrow
    rw [List.length_modify] at hj
    rw [hpose j hj] at hfar ⊢
    rw [hpose _ hi]
    exact hleast _ (List.getElem_mem hj) hfar

/-- Each peer in the player's worldspace is shown once, and one of those shown is marked as the nearest. -/
theorem shown_exact (f : IndicatorFrame) (w : World) :
    (∀ peer, peer ∈ (f.shown w).map (·.peer) ↔
      f.pointerHud = true ∧ f.joined = true ∧ f.silent = false ∧ ∃ pose, f.latestPose.lookup peer = some pose ∧ f.Listed peer pose) ∧
    ((f.shown w).map (·.peer)).Nodup ∧ (f.shown w ≠ [] → ∃ i, MarksNearest f (f.shown w) i) :=
  ⟨fun _ => mem_shown_peers f w, nodup_peers f w, marksNearest_shown⟩

end Nearest

section Markers
variable {f : HudFrame} {s : Hud}

theorem run_markTurn (rows : List PeerIndicator) (kept : List Actor) (s : Hud) : ∃ positions, run markTurn (kept, s) rows =
    (kept ++ handles rows, { s with
      positions := positions
      currentMapMarkers := s.currentMapMarkers ++ (handles rows).filter (· ∉ s.mapMarkerHandles) }) := by
  induction rows generalizing kept s with
  | nil => exact ⟨s.positions, by simp [handles]⟩
  | cons row rows ih =>
    rw [run_cons]
    cases hhandle : row.ghostHandle with
    | none =>
      have hturn : markTurn (kept, s) row = (kept, s) := by
        unfold markTurn
        rw [hhandle]
      have hrows : handles (row :: rows) = handles rows := List.filterMap_cons_none hhandle
      rw [hturn, hrows]
      exact ih kept s
    | some a =>
      have hrows : handles (row :: rows) = a :: handles rows := List.filterMap_cons_some hhandle
      obtain ⟨positions, hturn⟩ : ∃ positions, markTurn (kept, s) row = (kept ++ [a], { s with
          positions := positions
          currentMapMarkers := s.currentMapMarkers ++ if a ∈ s.mapMarkerHandles then [] else [a] }) := by
        refine ⟨if s.world.Resolves a then (a, row.pose.x, row.pose.y, row.pose.z) :: s.positions else s.positions, ?_⟩
        unfold markTurn
        rw [hhandle]
        by_cases hresolves : s.world.Resolves a <;> by_cases ha : a ∈ s.mapMarkerHandles <;> simp [hresolves, ha]
      obtain ⟨positions', hrest⟩ := ih (kept ++ [a]) { s with
        positions := positions
        currentMapMarkers := s.currentMapMarkers ++ if a ∈ s.mapMarkerHandles then [] else [a] }
      rw [hturn, hrest, hrows]
      refine ⟨positions', Prod.ext (List.append_assoc _ _ _) ?_⟩
      by_cases ha : a ∈ s.mapMarkerHandles
      · rw [List.filter_cons_of_neg (by simpa using ha)]
        simp only [if_pos ha, List.append_nil]
      · rw [List.filter_cons_of_pos (by simpa using ha)]
        simp only [if_neg ha, List.append_assoc, List.singleton_append]

theorem run_erase (next old markers : List Actor) :
    run (fun markers a => if a ∈ next then markers else removeMapMarkerHandle true a markers) markers old =
      markers.diff (old.filter (· ∉ next)) := by
  induction old generalizing markers with
  | nil => rw [List.filter_nil, List.diff_nil, run_nil]
  | cons a old ih =>
    rw [run_cons, ih]
    by_cases ha : a ∈ next
    · rw [if_pos ha, List.filter_cons_of_neg (by simpa using ha)]
    · rw [if_neg ha, List.filter_cons_of_pos (by simpa using ha), List.diff_cons]
      rfl

theorem updateMapMarkers_eq (hplayer : f.player.isSome = true) (rows : List PeerIndicator) (s : Hud) :
    ∃ positions, updateMapMarkers f rows s = { s with
      positions := positions
      currentMapMarkers := retrack s.mapMarkerHandles (handles rows) s.currentMapMarkers
      mapMarkerHandles := handles rows } := by
  obtain ⟨you, hyou⟩ := Option.isSome_iff_exists.mp hplayer
  obtain ⟨positions, hturns⟩ := run_markTurn rows [] s
  refine ⟨positions, ?_⟩
  unfold updateMapMarkers
  rw [hyou, hturns]
  dsimp only
  rw [run_erase]
  rfl

theorem clearMapMarkers_eq (hplayer : f.player.isSome = true) (s : Hud) : clearMapMarkers f s = { s with
    currentMapMarkers := retrack s.mapMarkerHandles [] s.currentMapMarkers
    mapMarkerHandles := [] } := by
  have herase := run_erase [] s.mapMarkerHandles s.currentMapMarkers
  simp only [List.not_mem_nil, if_false] at herase
  rw [clearMapMarkers, hplayer, herase, retrack, List.filter_nil, List.append_nil]
  rfl

end Markers

section Slots
variable {f : IndicatorFrame}

theorem pushCompassSlot_eq (hpush : ∀ n, f.pushBack n = true) (arr vs : List GfxNumber) :
    pushCompassSlot f.pushBack arr vs = (true, arr ++ vs) := by
  induction vs generalizing arr with
  | nil => rw [List.append_nil, pushCompassSlot]
  | cons v vs ih => rw [pushCompassSlot, hpush, if_pos rfl, ih, List.append_assoc, List.singleton_append]

theorem pushPeers_eq (hpush : ∀ n, f.pushBack n = true) (you : F32 × F32 × F32) (rows : List PeerIndicator) (s : Hud) :
    pushPeers f you rows s = { s with
      compass := s.compass ++ rows.flatMap (compassSlot f s you)
      compassPeerSlots := s.compassPeerSlots + rows.length } := by
  induction rows generalizing s with
  | nil => simp [pushPeers]
  | cons row rows ih =>
    unfold pushPeers
    rw [pushCompassSlot_eq hpush]
    dsimp only
    rw [if_pos rfl, ih]
    have hslots : compassSlot f { s with
        compass := s.compass ++ compassSlot f s you row
        compassPeerSlots := s.compassPeerSlots + 1 } you = compassSlot f s you := rfl
    simp only [hslots, List.flatMap_cons, List.append_assoc, List.length_cons, Nat.add_assoc, Nat.add_comm 1]

theorem length_slots (s : Hud) (you : F32 × F32 × F32) (rows : List PeerIndicator) :
    (rows.flatMap (compassSlot f s you)).length = rows.length * kCompassStride := by
  induction rows with
  | nil => rfl
  | cons row rows ih =>
    rw [List.flatMap_cons, List.length_append, ih, List.length_cons, Nat.succ_mul, Nat.add_comm]
    rfl

/-- The slots at the end of the array go, whoever pushed them. -/
theorem trimCompassPeers_eq {s : Hud} {own slots : List GfxNumber} (harr : s.compass = own ++ slots)
    (hslots : slots.length = s.compassPeerSlots * kCompassStride) :
    trimCompassPeers s = { s with compass := own, compassPeerSlots := 0 } := by
  have htrim : s.compass.take (s.compass.length - s.compassPeerSlots * kCompassStride) = own := by
    rw [harr, List.length_append, hslots, Nat.add_sub_cancel, List.take_left]
  unfold trimCompassPeers
  dsimp only
  split <;> rename_i h
  · rw [htrim]
  · have hnone : s.compassPeerSlots = 0 := by
      by_contra hne
      refine h ⟨hne, ?_⟩
      rw [harr, List.length_append, hslots]
      exact Nat.le_add_left _ _
    rw [hnone, Nat.zero_mul, List.length_eq_zero_iff] at hslots
    rw [harr, hslots, List.append_nil]

end Slots

end Indicators
end CommonwealthMP
