import CommonwealthMP.IndicatorRuns

/-! # The HUD that the game and the plugin share

The compass array has the game's values and behind them a slot for each peer shown; the list of map markers has the
game's markers and among them one for each body shown. Over any run each party's part is what that party put there. -/
namespace CommonwealthMP.Indicators
open ByteLayout Binary32 OrderedTables StepRuns TrackedLists
open GhostBodies (Actor World EngineCall Bodied Evolves)

def ours (w : World) (a : Actor) : Bool := decide (EngineCall.place a ∈ w.calls)

/-- What the game put on the HUD, and what the plugin did. -/
structure Parts where
  own : List GfxNumber := []
  slots : List GfxNumber := []
  others : List Actor := []
  bodies : List Actor := []

def peerSlots (f : IndicatorFrame) (s : Hud) : List GfxNumber :=
  f.player.elim [] fun you => (f.shown s.world).flatMap (compassSlot f (cacheCompassFrames f s) you)

/-- The plugin replaces its own part only, and the game its own. -/
def Parts.step (s : Hud) (p : Parts) : Happening → Parts
  | .tick f =>
    if (f.shown s.world).isEmpty then { p with slots := [], bodies := [] }
    else
      { p with
        slots := if f.hudRoot && f.compassArray then peerSlots f s else p.slots
        bodies := if f.player.isSome then handles (f.shown s.world) else p.bodies }
  | .clear _ => { p with slots := [], bodies := [] }
  | .bodies _ => p
  | .compass arr => { p with own := arr.take (arr.length - p.slots.length) }
  | .markers list => { p with others := list.filter fun a => !ours s.world a }

def parts : Hud → Parts → List Happening → Parts
  | _, p, [] => p
  | s, p, h :: hs => parts (step s h) (p.step s h) hs

/-- The plugin finds the HUD whenever it clears, the array takes what is pushed, and the game leaves the plugin's part as
it is: the slots at the end of the array, the markers of its bodies. -/
def Tame (s : Hud) : Happening → Prop
  | .tick f => (∀ n, f.pushBack n = true) ∧ (f.shown s.world = [] → f.Found)
  | .clear f => f.Found
  | .bodies _ => True
  | .compass arr => ∃ own, arr = own ++ s.compass.drop (s.compass.length - s.compassPeerSlots * kCompassStride)
  | .markers list => (list.filter (ours s.world)).Perm (s.currentMapMarkers.filter (ours s.world)) ∧
      ∀ a ∈ list, a.serial < s.world.nextSerial

structure Shows (s : Hud) (p : Parts) : Prop where
  bodied : Bodied s.world
  named : ∀ a ∈ s.currentMapMarkers, a.serial < s.world.nextSerial
  placed : ∀ a ∈ p.bodies, EngineCall.place a ∈ s.world.calls
  nodup : p.bodies.Nodup
  tracked : s.mapMarkerHandles = p.bodies
  compass : s.compass = p.own ++ p.slots
  slots : p.slots.length = s.compassPeerSlots * kCompassStride
  others : (s.currentMapMarkers.filter fun a => !ours s.world a) = p.others
  bodies : (s.currentMapMarkers.filter (ours s.world)).Perm p.bodies

theorem shows_start : Shows {} {} where
  bodied := GhostBodies.bodied_start
  named := List.forall_mem_nil _
  placed := List.forall_mem_nil _
  nodup := List.nodup_nil
  tracked := rfl
  compass := rfl
  slots := rfl
  others := rfl
  bodies := .nil

section Shows
variable {s : Hud} {p : Parts}

theorem Shows.mark {next : List Actor} (h : Shows s p) (hplaced : ∀ a ∈ next, EngineCall.place a ∈ s.world.calls)
    (hnodup : next.Nodup) (positions : List (Actor × F32 × F32 × F32)) :
    Shows { s with
      positions := positions
      currentMapMarkers := retrack s.mapMarkerHandles next s.currentMapMarkers
      mapMarkerHandles := next } { p with bodies := next } := by
  have hold : ∀ a ∈ s.mapMarkerHandles, ours s.world a = true := fun a ha => decide_eq_true (h.placed a (h.tracked ▸ ha))
  have hnext : ∀ a ∈ next, ours s.world a = true := fun a ha => decide_eq_true (hplaced a ha)
  refine ⟨h.bodied, fun a ha => ?_, hplaced, hnodup, rfl, h.compass, h.slots, ?_, ?_⟩
  · rcases List.mem_append.mp (List.diff_subset _ _ ha) with ha | ha
    · exact h.named a ha
    · exact h.bodied.serial a (hplaced a (List.mem_filter.mp ha).1)
  · exact (retrack_others hold hnext).trans h.others
  · exact retrack_own hnext (h.tracked ▸ h.nodup) hnodup (h.tracked ▸ h.bodies)

theorem Shows.slotted {n : ℕ} {slots : List GfxNumber} (h : Shows s p) (hslots : slots.length = n * kCompassStride) :
    Shows { s with compass := p.own ++ slots, compassPeerSlots := n } { p with slots := slots } :=
  { h with compass := rfl, slots := hslots }

theorem Shows.trim (h : Shows s p) : Shows (trimCompassPeers s) { p with slots := [] } := by
  rw [trimCompassPeers_eq h.compass h.slots]
  exact { h with compass := (List.append_nil _).symm, slots := (Nat.zero_mul _).symm }

theorem Shows.clear {f : HudFrame} (h : Shows s p) (hfound : f.Found) :
    Shows (indicatorsClear f s) { p with slots := [], bodies := [] } := by
  obtain ⟨hroot, harray, hplayer⟩ := hfound
  have hcompass : clearCompassPeers f s = trimCompassPeers s := by
    rw [clearCompassPeers, hroot, harray]
    rfl
  rw [indicatorsClear, hcompass, clearMapMarkers_eq hplayer]
  exact h.trim.mark (List.forall_mem_nil _) List.nodup_nil _

theorem updateCompass_world (f : IndicatorFrame) (rows : List PeerIndicator) (hpush : ∀ n, f.pushBack n = true) :
    (updateCompass f rows s).world = s.world := by
  unfold updateCompass
  split
  · rfl
  · dsimp only
    split
    · rfl
    · split
      · rfl
      · rw [pushPeers_eq hpush]
        rfl

theorem Shows.update {f : IndicatorFrame} (h : Shows s p) (hpush : ∀ n, f.pushBack n = true) (rows : List PeerIndicator) :
    Shows (updateCompass f rows s) { p with
      slots := if f.hudRoot && f.compassArray then
        f.player.elim [] fun you => rows.flatMap (compassSlot f (cacheCompassFrames f s) you) else p.slots } := by
  have hcached : Shows (cacheCompassFrames f s) p := { h with }
  unfold updateCompass
  cases hroot : f.hudRoot with
  | false => exact h
  | true =>
    dsimp only
    cases harray : f.compassArray with
    | false => exact hcached
    | true =>
      cases hplayer : f.player with
      | none => exact hcached.trim
      | some you =>
        have hshows := hcached.slotted (length_slots (f := f) (cacheCompassFrames f s) you rows)
        have htrim := trimCompassPeers_eq hcached.compass hcached.slots
        have hpushed : pushPeers f you rows (trimCompassPeers (cacheCompassFrames f s)) = { cacheCompassFrames f s with
            compass := p.own ++ rows.flatMap (compassSlot f (cacheCompassFrames f s) you)
            compassPeerSlots := rows.length } := by
          rw [pushPeers_eq hpush, htrim]
          simp only [Nat.zero_add]
          rfl
        simp only [Bool.not_true, Bool.false_eq_true, if_false]
        rw [hpushed]
        exact hshows

theorem Shows.tick {f : IndicatorFrame} (h : Shows s p) (htame : Tame s (.tick f)) : Shows (indicatorsTick f s) (p.step s (.tick f)) := by
  obtain ⟨hpush, hfound⟩ := htame
  have htick : indicatorsTick f s = if (f.shown s.world).isEmpty then indicatorsClear f.toHudFrame s
      else updateMapMarkers f.toHudFrame (f.shown s.world) (updateCompass f (f.shown s.world) s) := by
    unfold indicatorsTick IndicatorFrame.shown
    split <;> rfl
  rw [htick, Parts.step]
  cases hempty : (f.shown s.world).isEmpty with
  | true => exact h.clear (hfound (List.isEmpty_iff.mp hempty))
  | false =>
    rw [if_neg (by decide), if_neg (by decide)]
    have hcompass := h.update hpush (f.shown s.world)
    have hworld := updateCompass_world (s := s) f (f.shown s.world) hpush
    cases hplayer : f.player with
    | none =>
      have hsame : updateMapMarkers f.toHudFrame (f.shown s.world) (updateCompass f (f.shown s.world) s) =
          updateCompass f (f.shown s.world) s := by
        unfold updateMapMarkers
        rw [hplayer]
      rw [hsame]
      rw [hplayer] at hcompass
      rw [peerSlots, hplayer]
      exact hcompass
    | some you =>
      have hsome : f.player.isSome = true := by rw [hplayer]; rfl
      obtain ⟨positions, hmarks⟩ := updateMapMarkers_eq hsome (f.shown s.world) (updateCompass f (f.shown s.world) s)
      rw [hmarks]
      have hplaced : ∀ a ∈ handles (f.shown s.world), EngineCall.place a ∈ (updateCompass f (f.shown s.world) s).world.calls := by
        rw [hworld]
        exact handles_placed f s.world h.bodied
      have hshows := hcompass.mark hplaced (nodup_handles f s.world h.bodied) positions
      rw [hplayer] at hshows
      rw [peerSlots, hplayer]
      exact hshows

theorem ours_evolves {w w' : World} {a : Actor} (hb : Bodied w) (hevolves : Evolves w w') (ha : a.serial < w.nextSerial) :
    ours w' a = ours w a := by
  obtain ⟨-, hgrows⟩ := hevolves hb
  refine decide_eq_decide.mpr ⟨fun h => ?_, fun h => hgrows.calls h⟩
  exact (hgrows.fresh a h).resolve_right (Nat.not_le_of_lt ha)

theorem Shows.bodiesStep (h : Shows s p) (b : GhostBodies.Happening) : Shows (step s (.bodies b)) p := by
  have hevolves := GhostBodies.evolves_step s.world b
  obtain ⟨hbodied, hgrows⟩ := hevolves h.bodied
  have hours : ∀ a ∈ s.currentMapMarkers, ours (GhostBodies.step s.world b) a = ours s.world a :=
    fun a ha => ours_evolves h.bodied hevolves (h.named a ha)
  refine { h with
    bodied := hbodied
    named := fun a ha => (h.named a ha).trans_le hgrows.serial
    placed := fun a ha => hgrows.calls (h.placed a ha)
    others := ?_
    bodies := ?_ }
  · refine (List.filter_congr fun a ha => ?_).trans h.others
    rw [← hours a ha]
    rfl
  · refine .trans (.of_eq (List.filter_congr fun a ha => ?_)) h.bodies
    rw [← hours a ha]
    rfl

theorem Shows.step (h : Shows s p) (i : Happening) (htame : Tame s i) : Shows (step s i) (p.step s i) := by
  cases i with
  | tick f => exact h.tick htame
  | clear f => exact h.clear htame
  | bodies b => exact h.bodiesStep b
  | compass arr =>
    obtain ⟨own, rfl⟩ := htame
    have hslots : s.compass.drop (s.compass.length - s.compassPeerSlots * kCompassStride) = p.slots := by
      rw [h.compass, List.length_append, h.slots, Nat.add_sub_cancel, List.drop_left]
    have hown : (own ++ p.slots).take ((own ++ p.slots).length - p.slots.length) = own := by
      rw [List.length_append, Nat.add_sub_cancel, List.take_left]
    rw [hslots]
    exact { h with compass := by rw [Parts.step, hown]; rfl }
  | markers list =>
    obtain ⟨hkept, hnamed⟩ := htame
    exact { h with named := hnamed, others := rfl, bodies := hkept.trans h.bodies }

theorem Shows.run (h : Shows s p) {is : List Happening} (htame : AllSteps Indicators.step Tame s is) :
    Shows (run Indicators.step s is) (parts s p is) := by
  induction is generalizing s p with
  | nil => exact h
  | cons i is ih => exact ih (h.step i htame.1) htame.2

end Shows

/-- The array and the list are the game's part with the plugin's, and the plugin's part is its last update's. -/
theorem hud_shared {is : List Happening} (htame : AllSteps step Tame {} is) :
    let s := run step {} is
    let p := parts {} {} is
    s.compass = p.own ++ p.slots ∧ (s.currentMapMarkers.filter fun a => !ours s.world a) = p.others ∧
      (s.currentMapMarkers.filter (ours s.world)).Perm p.bodies := by
  have h := shows_start.run htame
  exact ⟨h.compass, h.others, h.bodies⟩

/-- A HUD with one other peer next to the player. -/
def onePeerHud : IndicatorFrame where
  hudRoot := true
  compassArray := true
  player := some (⟨0⟩, ⟨0⟩, ⟨0⟩)
  pointerHud := true
  joined := true
  now := 1
  lastRecvPoseSec := 1
  youLoc := 0x3C
  myPeerId := 1
  hostPeer := 1
  latestPose := (∅ : Table UInt32 PlayerPose).insert 2 { GhostBodies.peerPose 2 with locationFormId := 0x3C }
  names := ∅
  movieSetFrame := none
  movieQuestFrame := none
  bearing _ _ := ⟨0⟩
  pushBack _ := true

/-- The game draws its part anew while the peer is shown. -/
def redrawnHud : List Happening :=
  [.bodies (.create 0x14), .markers [⟨0x14, 0⟩], .compass [.own 1, .own 2],
    .bodies (.applyGhosts (GhostBodies.onePeerFrame true true)), .tick onePeerHud,
    .compass ([.own 3] ++ [.float ⟨0⟩, .int 100, .int 3, .int 112]), .markers [⟨0xFF000801, 1⟩, ⟨0x14, 0⟩],
    .tick onePeerHud, .clear onePeerHud.toHudFrame]

theorem hud_shared_redrawnHud :
    let s := run step {} redrawnHud
    let p := parts {} {} redrawnHud
    s.compass = p.own ++ p.slots ∧ (s.currentMapMarkers.filter fun a => !ours s.world a) = p.others ∧
      (s.currentMapMarkers.filter (ours s.world)).Perm p.bodies := by
  have htick {s : Hud} : Tame s (.tick onePeerHud) := ⟨fun _ => rfl, fun _ => ⟨rfl, rfl, rfl⟩⟩
  exact hud_shared ⟨trivial, ⟨by decide, by decide⟩, ⟨_, (List.append_nil _).symm⟩, trivial, htick, ⟨[.own 3], by decide +kernel⟩,
    ⟨by decide +kernel, by decide +kernel⟩, htick, ⟨rfl, rfl, rfl⟩, trivial⟩

end CommonwealthMP.Indicators
