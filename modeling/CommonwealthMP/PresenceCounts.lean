import CommonwealthMP.QuotedText
import CommonwealthMP.SessionTimeout

/-! # The presence snapshot

What Discord and Steam are told of a session. The table of poses, which holds the other players, is counted as if
it held the local player too. -/
namespace CommonwealthMP.Plugin
open ByteLayout OrderedTables StepRuns

inductive PresencePhase
  | Idle | MenuJoin | Connecting | Host | Guest
  deriving DecidableEq, Repr

def PresencePhase.code : PresencePhase → ℕ
  | .Idle => 0
  | .MenuJoin => 1
  | .Connecting => 2
  | .Host => 3
  | .Guest => 4

structure PresenceSnapshot where
  phase : PresencePhase := .Idle
  details : Bytes := []
  state : Bytes := []
  steamStatus : Bytes := []
  playerCount : UInt32 := 0
  maxPlayers : UInt32 := 0
  hash : UInt64 := 0
  deriving DecidableEq, Repr

/-- The presence settings of the session, its status line, and what `CMP_MenuPresencePhase` returns. -/
structure PresenceRuntime where
  serverName : Bytes := []
  maxPlayers : UInt32 := 0
  interior : Bool := false
  worldspace : UInt32 := 0
  lastStatus : Bytes := ascii "idle"
  menuActive : Bool := false
  menuPhase : Bytes := []

def hashSnapshot (snap : PresenceSnapshot) : UInt64 :=
  let mix (h : UInt64) (s : Bytes) : UInt64 := s.foldl (fun h c => (h ^^^ c.toUInt64) * 1099511628211) h
  let h := mix 14695981039346656037 (decimal snap.phase.code)
  let h := mix (mix (mix h snap.details) snap.state) snap.steamStatus
  h ^^^ snap.playerCount.toUInt64 ^^^ (snap.maxPlayers.toUInt64 <<< 32)

def locationText (joined interior : Bool) (worldspace : UInt32) : Bytes :=
  if !joined then []
  else if interior then ascii "Interior"
  else if worldspace = kCommonwealthWorldspace then ascii "Commonwealth"
  else if worldspace ≠ 0 then ascii "Wasteland"
  else ascii "Unknown"

/-- The suffix that names the place. -/
def atLocation (location : Bytes) : Bytes := if location = [] then [] else ascii " - " ++ location

/-- `snap.playerCount`: the size of the table of poses. -/
def playerCount (s : Session) : UInt32 := UInt32.ofNat s.net.latestPose.keys.length

/-- The others a guest is shown. -/
def shownOthers (s : Session) : UInt32 := if 0 < playerCount s then playerCount s - 1 else 0

def hostState (s : Session) (p : PresenceRuntime) (location : Bytes) : Bytes :=
  let cap := if 0 < p.maxPlayers then p.maxPlayers else playerCount s
  ascii "Hosting (" ++ decimal (playerCount s).toNat ++ ascii "/" ++ decimal cap.toNat ++ ascii " players)" ++ atLocation location

def guestState (s : Session) (location : Bytes) : Bytes :=
  ascii "Playing (" ++ decimal (shownOthers s).toNat ++ ascii " others)" ++ atLocation location

def buildSnapshot (s : Session) (p : PresenceRuntime) : PresenceSnapshot :=
  let snap : PresenceSnapshot := { playerCount := playerCount s, maxPlayers := p.maxPlayers }
  let serverName := if p.serverName = [] then ascii "CMP" else p.serverName
  let connecting := s.net.joined && s.net.myPeerId == 0
  let waiting := (QuotedText.after (ascii "waiting Welcome") p.lastStatus).isSome
  let location := locationText s.net.joined p.interior p.worldspace
  let snap :=
    if p.menuActive then
      let state := if p.menuPhase = [] then ascii "Joining" else p.menuPhase
      { snap with phase := .MenuJoin, details := ascii "CMP", state := state, steamStatus := state }
    else if connecting || (!s.net.joined && waiting) then
      { snap with
        phase := .Connecting, details := ascii "CMP", state := ascii "Connecting...", steamStatus := ascii "Connecting" }
    else if s.net.joined && s.net.myPeerId != 0 then
      if s.net.isHost then
        { snap with
          phase := .Host, details := serverName, state := hostState s p location, steamStatus := ascii "Hosting" }
      else
        { snap with
          phase := .Guest, details := serverName, state := guestState s location, steamStatus := ascii "Playing" }
    else { snap with phase := .Idle, details := ascii "CMP", state := ascii "Solo", steamStatus := ascii "Solo" }
  { snap with hash := hashSnapshot snap }

theorem buildSnapshot_playerCount (s : Session) (p : PresenceRuntime) : (buildSnapshot s p).playerCount = playerCount s := by
  unfold buildSnapshot
  dsimp only
  split_ifs <;> rfl

/-- The distinct other peers in the table of poses. -/
def otherPeers (net : NetRuntime) : List UInt32 := net.latestPose.keys.filter (· ≠ net.myPeerId)

/-- The local player and each other one are counted once. -/
structure CountsOnce (s : Session) (snap : PresenceSnapshot) : Prop where
  players : snap.playerCount.toNat = 1 + (otherPeers s.net).length
  shown : snap.phase = .Guest →
    ∃ place, snap.state = ascii "Playing (" ++ decimal (otherPeers s.net).length ++ ascii " others)" ++ place
  absent : s.net.myPeerId ∉ s.net.latestPose

/-- While the player itself is not in the table, its size is the number of the others. -/
theorem playerCount_of_absent {s : Session} (h : s.net.myPeerId ∉ s.net.latestPose) :
    (playerCount s).toNat = (otherPeers s.net).length % 2 ^ 32 := by
  have hall : otherPeers s.net = s.net.latestPose.keys := by
    refine List.filter_eq_self.mpr fun p hp => decide_eq_true ?_
    rintro rfl
    exact h (AList.mem_keys.mpr hp)
  rw [playerCount, hall, UInt32.toNat_ofNat']

theorem not_countsOnce (s : Session) (p : PresenceRuntime) : ¬ CountsOnce s (buildSnapshot s p) := by
  intro h
  have hplayers := h.players
  rw [buildSnapshot_playerCount, playerCount_of_absent h.absent] at hplayers
  have hle := Nat.mod_le (otherPeers s.net).length (2 ^ 32)
  omega

section Runs
variable {σ : Type} (S : Sockets σ)

/-- In no session that is joined with a peer id does the snapshot after a poll count every player once. -/
theorem presence_never_countsOnce (settings : Settings) (w : σ) (calls : List (TimedCall σ)) (game : LocalGame)
    (p : PresenceRuntime) :
    let c := netPoll (heardSockets S) game (run (timedStep S) (timedStart settings w) calls).client
    c.session.net.joined = true → c.session.net.myPeerId ≠ 0 → ¬ CountsOnce c.session (buildSnapshot c.session p) := by
  intro c _ _
  exact not_countsOnce c.session p

end Runs

/-- Client 3 in a session with clients 1 and 2. -/
def threePlayers : List (TimedCall ClockedLink) :=
  [.join gameInWorld 0, .elapse { now := 2, connected := true, frames := [(makeWelcome 3 1 true false 0 1).encode,
    (makePose 1 kCommonwealthWorldspace ⟨0⟩ ⟨0⟩ ⟨0⟩ ⟨0⟩).encode, (makePose 2 kCommonwealthWorldspace ⟨0⟩ ⟨0⟩ ⟨0⟩ ⟨0⟩).encode] }]

theorem presence_never_countsOnce_threePlayers :
    ¬ CountsOnce (netPoll (heardSockets clockedSockets) gameInWorld
        (run (timedStep clockedSockets) (timedStart {} { now := 1 }) threePlayers).client).session
      (buildSnapshot (netPoll (heardSockets clockedSockets) gameInWorld
        (run (timedStep clockedSockets) (timedStart {} { now := 1 }) threePlayers).client).session {}) :=
  presence_never_countsOnce clockedSockets {} { now := 1 } threePlayers gameInWorld {} (by decide +kernel) (by decide +kernel)

/-- The guest among three is counted out: two players, and one other. -/
theorem not_presence_counts_threePlayers :
    ¬ ∀ (σ : Type) (S : Sockets σ) (settings : Settings) (w : σ) (calls : List (TimedCall σ)) (game : LocalGame)
        (p : PresenceRuntime),
      let c := netPoll (heardSockets S) game (run (timedStep S) (timedStart settings w) calls).client
      c.session.net.joined = true → c.session.net.myPeerId ≠ 0 → CountsOnce c.session (buildSnapshot c.session p) := by
  intro hall
  have h := hall _ clockedSockets {} { now := 1 } threePlayers gameInWorld {} (by decide +kernel) (by decide +kernel)
  have hcount : (buildSnapshot (netPoll (heardSockets clockedSockets) gameInWorld
      (run (timedStep clockedSockets) (timedStart {} { now := 1 }) threePlayers).client).session {}).playerCount.toNat = 2 := by
    decide +kernel
  have hothers : (otherPeers (netPoll (heardSockets clockedSockets) gameInWorld
      (run (timedStep clockedSockets) (timedStart {} { now := 1 }) threePlayers).client).session.net).length = 2 := by
    decide +kernel
  exact absurd (hcount.symm.trans (h.players.trans (congrArg (1 + ·) hothers))) (by decide)

end CommonwealthMP.Plugin
