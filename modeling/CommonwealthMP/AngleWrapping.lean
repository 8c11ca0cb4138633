import CommonwealthMP.BindingFreshness
import CommonwealthMP.Binary32Wrapping
import CommonwealthMP.PluginClient
import CommonwealthMP.PuppetEvents

/-! # Angles of a remote pose

The loops that wrap an angle, where a pose that came over the network reaches them: between two samples of its
ring, at the heading of its body, and at the turn and the direction of its puppet. -/
namespace CommonwealthMP
open Binary32 ByteLayout OrderedTables
open Plugin (TimedSample PoseRing)
open ServerRuntime (Startup Input runFrom FreshAccepts freshStart twoJoins datagramAt rateKey toUdp)
open Puppet (PuppetPrev PuppetCall PuppetAction hasPoseFlag)
namespace Angles

structure SampledTransform where
  x : F32 := ⟨0⟩
  y : F32 := ⟨0⟩
  z : F32 := ⟨0⟩
  yaw : F32 := ⟨0⟩
  pitch : F32 := ⟨0⟩
  speed : F32 := ⟨0⟩
  vx : F32 := ⟨0⟩
  vy : F32 := ⟨0⟩
  flags : UInt32 := 0
  locationFormId : UInt32 := 0
  valid : Bool := false
  extrapolated : Bool := false
  deriving DecidableEq

def lerp (a b t : F32) : F32 := add a (mul (sub b a) t)

/-- The loops run between 3.14159265f and 6.2831853f. -/
def lerpAngle (fuel : ℕ) (a b t : F32) : Option F32 :=
  (wrap ⟨0x40490FDB⟩ ⟨0x40C90FDB⟩ fuel (sub b a)).map fun d => add a (mul d t)

def SampledTransform.ofSample (s : TimedSample) : SampledTransform where
  x := s.x
  y := s.y
  z := s.z
  yaw := s.yaw
  pitch := s.pitch
  speed := s.speed
  vx := s.vx
  vy := s.vy
  flags := s.flags
  locationFormId := s.locationFormId
  valid := true

section SampleAt
variable (toFloat : Time → F32)

def extrapolate (newest : TimedSample) (renderSec : Time) : SampledTransform :=
  let dt := toFloat (min 0.15 (renderSec - newest.recvSec))
  { SampledTransform.ofSample newest with
    x := add newest.x (mul newest.vx dt)
    y := add newest.y (mul newest.vy dt)
    extrapolated := lt ⟨0x38D1B717⟩ dt }

/-- How far the time is on its way from one sample to the next. -/
def progress (a b : TimedSample) (renderSec : Time) : F32 :=
  let span := b.recvSec - a.recvSec
  if 1e-6 < span then toFloat ((renderSec - a.recvSec) / span) else ⟨0x3F800000⟩

def interpolate (fuel : ℕ) (a b : TimedSample) (renderSec : Time) : Option SampledTransform :=
  let t := progress toFloat a b renderSec
  (lerpAngle fuel a.yaw b.yaw t).map fun yaw =>
    { x := lerp a.x b.x t
      y := lerp a.y b.y t
      z := lerp a.z b.z t
      yaw := yaw
      pitch := lerp a.pitch b.pitch t
      speed := lerp a.speed b.speed t
      vx := lerp a.vx b.vx t
      vy := lerp a.vy b.vy t
      flags := if lt t ⟨0x3F000000⟩ then a.flags else b.flags
      locationFormId := if b.locationFormId ≠ 0 then b.locationFormId else a.locationFormId
      valid := true }

/-- The search loop: the first two neighbours with the time between them. -/
def bracket (renderSec : Time) : List TimedSample → Option (TimedSample × TimedSample)
  | a :: b :: samples =>
    if renderSec < a.recvSec ∨ b.recvSec < renderSec then bracket renderSec (b :: samples) else some (a, b)
  | _ => none

def sampleAt (fuel : ℕ) (ring : PoseRing) (renderSec : Time) : Option SampledTransform :=
  match ring.samples with
  | [] => some {}
  | [s] => some (.ofSample s)
  | s :: next :: samples =>
    if renderSec ≤ s.recvSec then some (.ofSample s)
    else
      let newest := (next :: samples).getLast (List.cons_ne_nil _ _)
      if newest.recvSec ≤ renderSec then some (extrapolate toFloat newest renderSec)
      else
        match bracket renderSec (s :: next :: samples) with
        | some (a, b) => interpolate toFloat fuel a b renderSec
        | none => some (.ofSample newest)

end SampleAt

def kPi : F32 := ⟨0x40490FDB⟩

/-- `180.0f / kPi` -/
def degreesPerRadian : F32 := ⟨0x42652EE0⟩

/-- No word is nearer to the quotient. -/
example : ∃ k p : ℕ, value degreesPerRadian = .finite false k ∧ value kPi = .finite false p ∧
    2 * (180 * 2 ^ 149 * 2 ^ 149 - (k * p : ℤ)).natAbs ≤ 2 ^ 131 * p := ⟨_, _, rfl, rfl, by decide⟩

def wrapRad (fuel : ℕ) (a : F32) : Option F32 := wrap kPi (mul ⟨0x40000000⟩ kPi) fuel a

/-- The loops run between 180.0f and 360.0f. -/
def wrapDeg (fuel : ℕ) (d : F32) : Option F32 := wrap ⟨0x43340000⟩ ⟨0x43B40000⟩ fuel d

def clamp (v lo hi : F32) : F32 := if lt v lo then lo else if lt hi v then hi else v

def interpolateHeading (fuel : ℕ) (currentRad targetRad alpha : F32) : Option F32 :=
  (wrapRad fuel (sub targetRad currentRad)).map fun delta => add currentRad (mul delta (clamp alpha ⟨0⟩ ⟨0x3F800000⟩))

/-- The float variables of the animation graph. -/
structure GraphFloats where
  speed : F32
  speedSampled : F32
  pitch : F32
  turnDelta : F32
  direction : F32
  deriving DecidableEq

section Puppet
variable (atan2 : F32 → F32 → F32)

/-- `SetDumpVars`, as far as it computes with angles. -/
def setDumpVars (fuel : ℕ) (pitch yaw turnDelta speed vx vy : F32) (moving inMenu : Bool) : Option GraphFloats :=
  let useSpeed := if inMenu then ⟨0⟩ else speed
  let dir := if moving && !inMenu then wrapDeg fuel (mul (sub (atan2 vx vy) yaw) degreesPerRadian) else some ⟨0⟩
  dir.map fun dir => ⟨useSpeed, useSpeed, pitch, turnDelta, dir⟩

/-- `CMP_ApplyGhostPuppet`: what `Puppet.applyGhostPuppet` does, with the variables it sets before the events. -/
def applyGhostPuppet (fuel : ℕ) (prev : PuppetPrev) (call : PuppetCall) (pitch vx vy : F32) :
    Option ((PuppetPrev × List PuppetAction) × Option GraphFloats) :=
  if !call.graphReady then some (Puppet.applyGhostPuppet prev call, none)
  else
    let inMenu := hasPoseFlag call.flags Puppet.PoseFlag.pipboy || hasPoseFlag call.flags Puppet.PoseFlag.menu
    let turn := if prev.have_ then wrapDeg fuel (mul (sub call.yaw prev.yaw) degreesPerRadian) else some ⟨0⟩
    turn.bind fun turnDelta =>
      let vars :=
        if hasPoseFlag call.flags Puppet.PoseFlag.dead then
          setDumpVars atan2 fuel pitch call.yaw ⟨0⟩ ⟨0⟩ ⟨0⟩ ⟨0⟩ false true
        else setDumpVars atan2 fuel pitch call.yaw turnDelta call.speed vx vy call.moving inMenu
      vars.map fun vars => (Puppet.applyGhostPuppet prev call, some vars)

end Puppet

/-- Some fuel is enough. -/
def Ends {α : Type} (f : ℕ → Option α) : Prop := ∃ fuel r, f fuel = some r

/-- A NaN, or a number of at most this magnitude. -/
def Tame (limit d : F32) : Prop := value d = .nan ∨ (le (neg limit) d = true ∧ le d limit = true)

/-- 2 ^ 27 -/
def tameRadians : F32 := ⟨0x4D000000⟩

/-- 2 ^ 33 -/
def tameDegrees : F32 := ⟨0x50000000⟩

/-- The samples the search loop stops at. -/
def Neighbours (ring : PoseRing) (renderSec : Time) (a b : TimedSample) : Prop :=
  (∃ s, ring.samples.head? = some s ∧ s.recvSec < renderSec) ∧
    (∃ newest, ring.samples.getLast? = some newest ∧ renderSec < newest.recvSec) ∧
      bracket renderSec ring.samples = some (a, b)

theorem ends_some {α : Type} (r : α) : Ends fun _ => some r := ⟨0, r, rfl⟩

theorem ends_map {α β : Type} {f : ℕ → Option α} {g : α → β} : Ends (fun fuel => (f fuel).map g) ↔ Ends f := by
  constructor
  · rintro ⟨fuel, r, hr⟩
    obtain ⟨x, hx, -⟩ := Option.map_eq_some_iff.mp hr
    exact ⟨fuel, x, hx⟩
  · rintro ⟨fuel, x, hx⟩
    exact ⟨fuel, g x, Option.map_eq_some_iff.mpr ⟨x, hx, rfl⟩⟩

theorem ends_bind {α β : Type} {f : ℕ → Option α} {g : ℕ → α → Option β} {p : Prop}
    (hf : ∀ {fuel fuel' : ℕ} {x : α}, fuel ≤ fuel' → f fuel = some x → f fuel' = some x)
    (hg : ∀ (x : α) {fuel fuel' : ℕ} {r : β}, fuel ≤ fuel' → g fuel x = some r → g fuel' x = some r)
    (hp : ∀ x, Ends (fun fuel => g fuel x) ↔ p) : Ends (fun fuel => (f fuel).bind (g fuel)) ↔ Ends f ∧ p := by
  constructor
  · rintro ⟨fuel, r, h⟩
    obtain ⟨x, hx, hr⟩ := Option.bind_eq_some_iff.mp h
    exact ⟨⟨fuel, x, hx⟩, (hp x).mp ⟨fuel, r, hr⟩⟩
  · rintro ⟨⟨m, x, hx⟩, h⟩
    obtain ⟨n, r, hr⟩ := (hp x).mpr h
    exact ⟨max m n, r, Option.bind_eq_some_iff.mpr ⟨x, hf (Nat.le_max_left _ _) hx, hg x (Nat.le_max_right _ _) hr⟩⟩

theorem within_iff {limit : F32} {m : ℕ} (hlimit : value limit = .finite false m)
    (hneg : value (neg limit) = .finite true m) (d : F32) : Within m d ↔ le (neg limit) d = true ∧ le d limit = true := by
  unfold Within le
  rw [hlimit, hneg]
  cases value d with
  | nan => simp
  | inf a => cases a <;> simp [ltValue]
  | finite a n =>
    cases a <;> simp [ltValue, signed]

theorem turn_radians : Turn kPi (mul ⟨0x40000000⟩ kPi) (13176795 * 2 ^ 127) (13176795 * 2 ^ 128) 152 := by
  constructor <;> decide +kernel

theorem turn_degrees : Turn ⟨0x43340000⟩ ⟨0x43B40000⟩ (180 * 2 ^ 149) (360 * 2 ^ 149) 158 := by
  constructor <;> first | rfl | decide

theorem ends_wrapRad (a : F32) : Ends (fun fuel => wrapRad fuel a) ↔ Tame tameRadians a := by
  have hlimit : value tameRadians = .finite false (2 ^ (24 + 152)) := rfl
  have hneg : value (neg tameRadians) = .finite true (2 ^ (24 + 152)) := rfl
  rw [Tame, ← within_iff hlimit hneg]
  exact wrap_ends_iff turn_radians a

theorem ends_wrapDeg (d : F32) : Ends (fun fuel => wrapDeg fuel d) ↔ Tame tameDegrees d := by
  have hlimit : value tameDegrees = .finite false (2 ^ (24 + 158)) := rfl
  have hneg : value (neg tameDegrees) = .finite true (2 ^ (24 + 158)) := rfl
  rw [Tame, ← within_iff hlimit hneg]
  exact wrap_ends_iff turn_degrees d

/-- The literals of `LerpAngle` are the words of `WrapRad`. -/
theorem ends_lerpAngle (a b t : F32) : Ends (fun fuel => lerpAngle fuel a b t) ↔ Tame tameRadians (sub b a) := by
  have hturn : mul ⟨0x40000000⟩ kPi = ⟨0x40C90FDB⟩ := by decide +kernel
  have hwrap := ends_wrapRad (sub b a)
  unfold wrapRad at hwrap
  rw [hturn, kPi] at hwrap
  unfold lerpAngle
  rw [ends_map]
  exact hwrap

theorem ends_interpolateHeading (cur target alpha : F32) :
    Ends (fun fuel => interpolateHeading fuel cur target alpha) ↔ Tame tameRadians (sub target cur) := by
  rw [← ends_wrapRad]
  exact ends_map

theorem ends_interpolate (toFloat : Time → F32) (a b : TimedSample) (renderSec : Time) :
    Ends (fun fuel => interpolate toFloat fuel a b renderSec) ↔ Tame tameRadians (sub b.yaw a.yaw) := by
  rw [← ends_lerpAngle a.yaw b.yaw (progress toFloat a b renderSec)]
  exact ends_map

theorem ends_sampleAt (toFloat : Time → F32) (ring : PoseRing) (renderSec : Time) :
    Ends (fun fuel => sampleAt toFloat fuel ring renderSec) ↔
      ∀ a b, Neighbours ring renderSec a b → Tame tameRadians (sub b.yaw a.yaw) := by
  unfold sampleAt Neighbours
  cases ring.samples with
  | nil => exact iff_of_true (ends_some _) fun a b h => absurd h.1 (by simp)
  | cons s rest =>
    cases rest with
    | nil =>
      refine iff_of_true (ends_some _) fun a b ⟨⟨_, rfl, hs⟩, ⟨_, rfl, hnewest⟩, _⟩ => ?_
      exact absurd hnewest (not_lt.mpr hs.le)
    | cons next samples =>
      have hlast : (s :: next :: samples).getLast? = some ((next :: samples).getLast (List.cons_ne_nil _ _)) := by
        rw [List.getLast?_cons_cons, List.getLast?_eq_some_getLast]
      dsimp only
      by_cases hfront : renderSec ≤ s.recvSec
      · simp only [if_pos hfront]
        refine iff_of_true (ends_some _) fun a b ⟨⟨_, hhead, hs⟩, _⟩ => ?_
        cases hhead
        exact absurd hs (not_lt.mpr hfront)
      · simp only [if_neg hfront]
        by_cases hnewest : ((next :: samples).getLast (List.cons_ne_nil _ _)).recvSec ≤ renderSec
        · simp only [if_pos hnewest]
          refine iff_of_true (ends_some _) fun a b ⟨_, ⟨_, hn, hlt⟩, _⟩ => ?_
          cases hlast.symm.trans hn
          exact absurd hlt (not_lt.mpr hnewest)
        · simp only [if_neg hnewest]
          cases hb : bracket renderSec (s :: next :: samples) with
          | none => exact iff_of_true (ends_some _) fun a b ⟨_, _, h⟩ => absurd h nofun
          | some ab =>
            rw [ends_interpolate]
            constructor
            · rintro h a b ⟨_, _, hab⟩
              cases hab
              exact h
            · exact fun h => h _ _ ⟨⟨s, rfl, not_le.mp hfront⟩, ⟨_, hlast, not_le.mp hnewest⟩, rfl⟩

theorem ends_turn (asked : Bool) (d : F32) :
    Ends (fun fuel => if asked then wrapDeg fuel d else some ⟨0⟩) ↔ (asked = true → Tame tameDegrees d) := by
  cases asked with
  | false => exact iff_of_true (ends_some _) nofun
  | true =>
    rw [← ends_wrapDeg]
    exact ⟨fun h _ => h, fun h => h rfl⟩

/-- More fuel changes no result. -/
theorem turn_mono {asked : Bool} {d : F32} {fuel fuel' : ℕ} {r : F32} (hle : fuel ≤ fuel')
    (h : (if asked then wrapDeg fuel d else some ⟨0⟩) = some r) :
    (if asked then wrapDeg fuel' d else some ⟨0⟩) = some r := by
  cases asked with
  | false => exact h
  | true => exact wrap_mono hle h

section Puppet
variable (atan2 : F32 → F32 → F32)

theorem ends_setDumpVars (pitch yaw turnDelta speed vx vy : F32) (moving inMenu : Bool) :
    Ends (fun fuel => setDumpVars atan2 fuel pitch yaw turnDelta speed vx vy moving inMenu) ↔
      ((moving && !inMenu) = true → Tame tameDegrees (mul (sub (atan2 vx vy) yaw) degreesPerRadian)) := by
  rw [← ends_turn]
  exact ends_map

theorem setDumpVars_mono {pitch yaw turnDelta speed vx vy : F32} {moving inMenu : Bool} {fuel fuel' : ℕ}
    {r : GraphFloats} (hle : fuel ≤ fuel') (h : setDumpVars atan2 fuel pitch yaw turnDelta speed vx vy moving inMenu = some r) :
    setDumpVars atan2 fuel' pitch yaw turnDelta speed vx vy moving inMenu = some r := by
  obtain ⟨dir, hdir, hr⟩ := Option.map_eq_some_iff.mp h
  exact Option.map_eq_some_iff.mpr ⟨dir, turn_mono hle hdir, hr⟩

theorem moving_and_not_inMenu (call : PuppetCall) :
    (call.moving && !(hasPoseFlag call.flags Puppet.PoseFlag.pipboy || hasPoseFlag call.flags Puppet.PoseFlag.menu)) =
      call.moving := by
  unfold PuppetCall.moving
  cases hasPoseFlag call.flags Puppet.PoseFlag.pipboy || hasPoseFlag call.flags Puppet.PoseFlag.menu <;> simp

theorem ends_applyGhostPuppet (prev : PuppetPrev) (call : PuppetCall) (pitch vx vy : F32) :
    Ends (fun fuel => applyGhostPuppet atan2 fuel prev call pitch vx vy) ↔
      (call.graphReady = true →
        (prev.have_ = true → Tame tameDegrees (mul (sub call.yaw prev.yaw) degreesPerRadian)) ∧
        (hasPoseFlag call.flags Puppet.PoseFlag.dead = false → call.moving = true →
          Tame tameDegrees (mul (sub (atan2 vx vy) call.yaw) degreesPerRadian))) := by
  unfold applyGhostPuppet
  cases hready : call.graphReady with
  | false => exact iff_of_true (ends_some _) nofun
  | true =>
    simp only [Bool.not_true, Bool.false_eq_true, if_false, forall_const]
    rw [← ends_turn]
    have hmono : ∀ {speed vx vy turnDelta : F32} {moving inMenu : Bool} {m n : ℕ}
        {r : (PuppetPrev × List PuppetAction) × Option GraphFloats}, m ≤ n →
        (setDumpVars atan2 m pitch call.yaw turnDelta speed vx vy moving inMenu).map (fun vars =>
          (Puppet.applyGhostPuppet prev call, some vars)) = some r →
        (setDumpVars atan2 n pitch call.yaw turnDelta speed vx vy moving inMenu).map (fun vars =>
          (Puppet.applyGhostPuppet prev call, some vars)) = some r := by
      intro speed vx vy turnDelta moving inMenu m n r hle h
      obtain ⟨vars, hvars, hr⟩ := Option.map_eq_some_iff.mp h
      exact Option.map_eq_some_iff.mpr ⟨vars, setDumpVars_mono atan2 hle hvars, hr⟩
    cases hasPoseFlag call.flags Puppet.PoseFlag.dead with
    | true =>
      simp only [if_true]
      refine ends_bind turn_mono (fun turnDelta => hmono) fun turnDelta => ?_
      refine iff_of_true (ends_map.mpr ?_) nofun
      exact (ends_setDumpVars atan2 pitch call.yaw ⟨0⟩ ⟨0⟩ ⟨0⟩ ⟨0⟩ false true).mpr nofun
    | false =>
      simp only [Bool.false_eq_true, if_false, true_implies]
      refine ends_bind turn_mono (fun turnDelta => hmono) fun turnDelta => ?_
      have hlooks := ends_setDumpVars atan2 pitch call.yaw turnDelta call.speed vx vy call.moving
        (hasPoseFlag call.flags Puppet.PoseFlag.pipboy || hasPoseFlag call.flags Puppet.PoseFlag.menu)
      rw [moving_and_not_inMenu] at hlooks
      rw [← hlooks]
      exact ends_map

end Puppet

theorem decode_encode_playerPose (m : PlayerPose) : PlayerPose.decode m.encode = m := by
  simp [PlayerPose.decode, PlayerPose.encode, Header.decode_encode_append, u32At_skip, f32At, f32]

/-- A pose goes to every other bound client in reach, with the words it came with. -/
theorem mem_udpPlayerPose {s : ServerRuntime} {p q : PeerId} (client : Client) {other : Client} (buf : Bytes) {t : Time}
    (hrate : (allowRate s.poseRates (rateKey client) t 30).1 = true) (hp : client.peerId = p) (hne : q ≠ p)
    (hl : s.clients.lookup q = some other) (hb : other.udpBound = true)
    (hin : (PlayerPose.decode buf).inInterest true other.lastPose other.havePose s.cfg.interestUu = true) :
    toUdp other { PlayerPose.decode buf with peerId := p, header := fillHeader .PlayerPose 56 }.encode ∈
      (ServerRuntime.udpPlayerPose s p client buf t).outbound := by
  subst hp
  have hsend : ∀ (pose : PlayerPose) (f : Client → Client), toUdp other pose.encode ∈
      ServerRuntime.toOthers (s.clients.modify client.peerId f) client.peerId fun other =>
        if other.udpBound && (PlayerPose.decode buf).inInterest true other.lastPose other.havePose s.cfg.interestUu then
          ServerRuntime.sendUdp other pose.encode
        else [] := by
    intro pose f
    refine ServerRuntime.mem_toOthers.mpr ⟨q, other, (Table.lookup_modify_ne _ _ hne).trans hl, hne, ?_⟩
    have hbytes : pose.encode ≠ [] := fun h => by
      have := congrArg List.length h
      simp [PlayerPose.encode] at this
    rw [hb, hin, Bool.and_self, if_pos rfl, ServerRuntime.sendUdp, if_pos hb, ServerRuntime.sendUdpAddr, if_neg hbytes]
    exact List.mem_singleton_self _
  unfold ServerRuntime.udpPlayerPose
  dsimp only
  rw [hrate, if_neg (by decide)]
  split
  · exact List.mem_append_right _ (hsend _ _)
  · exact List.mem_append_right _ (hsend _ _)

theorem step_playerPose {s : ServerRuntime} (hok : SessionTable.Ok s.sessions) {env : Env} {addr : SockAddr} {buf : Bytes}
    {t : Time} {p : PeerId} {client : Client} {header : Header} (ho : openFrame buf = some (header, .PlayerPose))
    (hlen : sizeofPlayerPose ≤ buf.length) (hu : s.udpPeerByAddr.lookup (addrKey addr) = some p)
    (hl : s.clients.lookup p = some client) :
    s.step (env, .inbound { kind := .UdpDatagram, addr := addr, bytes := buf } t) =
      ServerRuntime.udpPlayerPose (s.ready.countDatagram.seen p t) p { client with lastSeen := t } buf t := by
  have hfind : ServerRuntime.findByUdp s.ready.countDatagram addr = (some p, s.ready.countDatagram) := by
    rw [ServerRuntime.findByUdp_of_ok (s := s.ready.countDatagram) hok]
    exact congrArg (fun q => (q, s.ready.countDatagram)) hu
  have hseen : (s.ready.countDatagram.seen p t).clients.lookup p = some { client with lastSeen := t } :=
    ServerRuntime.lookup_seen (s := s.ready.countDatagram) hl t
  show ServerRuntime.handleUdpPacket s.ready buf addr t = _
  unfold ServerRuntime.handleUdpPacket
  dsimp only
  rw [ho]
  dsimp only
  rw [if_neg (by decide), if_neg (by simp), hfind]
  dsimp only
  rw [hseen]
  dsimp only
  rw [if_pos ⟨rfl, hlen⟩]

/-- A pose the server sends to another player in some run. -/
def Relayed (pose : PlayerPose) : Prop :=
  ∃ (b : Startup) (is : List (Env × Input)) (i : Env × Input), FreshAccepts is ∧
    ∃ cmd ∈ ((runFrom b is).step i).outbound, cmd.kind = .UdpSend ∧ cmd.bytes = pose.encode

/-- Both players bind. -/
def twoBinds : List (Env × Input) :=
  twoJoins ++ [datagramAt ⟨10, 0, 0, 1, 2000⟩ (makeUdpBind 1 1079734124).encode,
    datagramAt ⟨10, 0, 0, 2, 2000⟩ (makeUdpBind 2 3506742235).encode]

def poseOfTwo (yaw pitch : F32) : PlayerPose :=
  { makePose 2 kCommonwealthWorldspace kSanctuaryX kSanctuaryY kSanctuaryZ yaw with pitch := pitch }

theorem relayed_poseOfTwo (yaw pitch : F32) : Relayed (poseOfTwo yaw pitch) := by
  have hone : ((runFrom freshStart twoBinds).clients.lookup 1).map (fun c => (c.udpBound,
      (poseOfTwo ⟨0⟩ ⟨0⟩).inInterest true c.lastPose c.havePose (runFrom freshStart twoBinds).cfg.interestUu)) =
        some (true, true) := by
    decide +kernel
  have htwo : ((runFrom freshStart twoBinds).clients.lookup 2).map (fun c =>
      (c.peerId, (allowRate (runFrom freshStart twoBinds).poseRates (rateKey c) 1 30).1)) = some (2, true) := by
    decide +kernel
  have haddr : (runFrom freshStart twoBinds).udpPeerByAddr.lookup (addrKey ⟨10, 0, 0, 2, 2000⟩) = some 2 := by
    decide +kernel
  have hok := (ServerRuntime.runFrom_reachable freshStart twoBinds).wellFormed.ok
  refine ⟨freshStart, twoBinds, datagramAt ⟨10, 0, 0, 2, 2000⟩ (poseOfTwo yaw pitch).encode, ?_, ?_⟩
  · unfold FreshAccepts
    decide
  generalize runFrom freshStart twoBinds = s at hone htwo haddr hok ⊢
  obtain ⟨other, hother, hbound⟩ := Option.map_eq_some_iff.mp hone
  obtain ⟨client, hclient, hrate⟩ := Option.map_eq_some_iff.mp htwo
  rw [Prod.mk.injEq] at hbound hrate
  have hopen : openFrame (poseOfTwo yaw pitch).encode = some (fillHeader .PlayerPose 56, .PlayerPose) :=
    openFrame_fill rfl rfl
  have hlen : sizeofPlayerPose ≤ (poseOfTwo yaw pitch).encode.length := by
    simp [PlayerPose.encode, sizeofPlayerPose]
  have hseen : (s.ready.countDatagram.seen 2 1).clients.lookup 1 = some other :=
    (Table.lookup_modify_ne _ _ (by decide)).trans hother
  have hmem := mem_udpPlayerPose (s := s.ready.countDatagram.seen 2 1) (q := 1) (t := 1) { client with lastSeen := 1 }
    (poseOfTwo yaw pitch).encode hrate.2 hrate.1 (by decide) hseen hbound.1 (by rw [decode_encode_playerPose]; exact hbound.2)
  rw [datagramAt, step_playerPose hok hopen hlen haddr hclient]
  rw [decode_encode_playerPose] at hmem
  exact ⟨_, hmem, rfl, rfl⟩

/-- The server relays every word of a yaw and a pitch, and the loops end exactly on the differences that are a
NaN or small enough for the subtraction of a turn to change them. -/
theorem angleLoops_end_iff (toFloat : Time → F32) (atan2 : F32 → F32 → F32) :
    (∀ yaw pitch, ∃ pose, Relayed pose ∧ pose.yaw = yaw ∧ pose.pitch = pitch) ∧
    (∀ ring renderSec, Ends (fun fuel => sampleAt toFloat fuel ring renderSec) ↔
      ∀ a b, Neighbours ring renderSec a b → Tame tameRadians (sub b.yaw a.yaw)) ∧
    (∀ currentRad targetRad alpha, Ends (fun fuel => interpolateHeading fuel currentRad targetRad alpha) ↔
      Tame tameRadians (sub targetRad currentRad)) ∧
    ∀ prev call pitch vx vy, Ends (fun fuel => applyGhostPuppet atan2 fuel prev call pitch vx vy) ↔
      (call.graphReady = true →
        (prev.have_ = true → Tame tameDegrees (mul (sub call.yaw prev.yaw) degreesPerRadian)) ∧
        (hasPoseFlag call.flags Puppet.PoseFlag.dead = false → call.moving = true →
          Tame tameDegrees (mul (sub (atan2 vx vy) call.yaw) degreesPerRadian))) := by
  refine ⟨fun yaw pitch => ?_, ends_sampleAt toFloat, ends_interpolateHeading, ends_applyGhostPuppet atan2⟩
  exact ⟨poseOfTwo yaw pitch, relayed_poseOfTwo yaw pitch, rfl, rfl⟩

/-- The ring of the poses that were received at these times. -/
def ringOf (poses : List (PlayerPose × Time)) : PoseRing :=
  poses.foldl (fun ring e => ring.push (Plugin.fromPlayerPose e.1 e.2)) {}

/-- A second pose whose yaw is infinite stops the frames between its time and the time of the first. -/
theorem not_angleLoops_end_infinity :
    ¬ ∀ (toFloat : Time → F32) (atan2 : F32 → F32 → F32) (poses : List (PlayerPose × Time)),
      (∀ e ∈ poses, Relayed e.1) →
      (∀ renderSec, Ends fun fuel => sampleAt toFloat fuel (ringOf poses) renderSec) ∧
        ∀ e ∈ poses, (∀ currentRad alpha, Ends fun fuel => interpolateHeading fuel currentRad e.1.yaw alpha) ∧
          ∀ prev call, call.yaw = e.1.yaw →
            Ends fun fuel => applyGhostPuppet atan2 fuel prev call e.1.pitch e.1.vx e.1.vy := by
  intro hall
  have hends := (hall (fun _ => ⟨0⟩) (fun _ _ => ⟨0⟩) [(poseOfTwo ⟨0⟩ ⟨0⟩, 1), (poseOfTwo ⟨0x7F800000⟩ ⟨0⟩, 2)] (by
    intro e he
    rcases List.mem_pair.mp he with rfl | rfl
    · exact relayed_poseOfTwo _ _
    · exact relayed_poseOfTwo _ _)).1 1.5
  have hring : (ringOf [(poseOfTwo ⟨0⟩ ⟨0⟩, 1), (poseOfTwo ⟨0x7F800000⟩ ⟨0⟩, 2)]).samples =
      [Plugin.fromPlayerPose (poseOfTwo ⟨0⟩ ⟨0⟩) 1, Plugin.fromPlayerPose (poseOfTwo ⟨0x7F800000⟩ ⟨0⟩) 2] := by
    decide +kernel
  have htame := (ends_sampleAt _ _ _).mp hends (Plugin.fromPlayerPose (poseOfTwo ⟨0⟩ ⟨0⟩) 1)
    (Plugin.fromPlayerPose (poseOfTwo ⟨0x7F800000⟩ ⟨0⟩) 2) ⟨by
      rw [hring]
      exact ⟨_, rfl, by decide +kernel⟩, by
      rw [hring]
      exact ⟨_, rfl, by decide +kernel⟩, by
      rw [hring]
      decide +kernel⟩
  revert htame
  unfold Tame
  decide +kernel

end Angles
end CommonwealthMP
