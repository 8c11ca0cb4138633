import CommonwealthMP.AdminCommands
import CommonwealthMP.SessionTable
import CommonwealthMP.StepRuns

/-! # Runs of the simulation thread

An input is one thing the main loop hands to the runtime. A step starts with empty logs, so
the logs of the state it ends in are the commands and jobs of that step alone. -/
namespace CommonwealthMP
open ByteLayout Binary32 OrderedTables
namespace ServerRuntime

inductive Input
  | inbound (ev : InboundEvent) (t : Time)
  | expirePending (t : Time)
  | expireClients (t : Time)
  | sendHeartbeat
  | flushDirty
  | admin (cmdLine : Bytes)

def handle (env : Env) (s : ServerRuntime) : Input → ServerRuntime
  | .inbound ev t => applyInbound env s ev t
  | .expirePending t => expirePending s t
  | .expireClients t => expireClients env s t
  | .sendHeartbeat => sendHeartbeat s
  | .flushDirty => flushDirtyAsync s
  | .admin cmdLine => runAdminCommand env s cmdLine

/-- The state before a step, its logs emptied. -/
def ready (s : ServerRuntime) : ServerRuntime := { s with outbound := [], persist := [] }

@[simp] theorem ready_clients (s : ServerRuntime) : s.ready.clients = s.clients := rfl

def step (s : ServerRuntime) (i : Env × Input) : ServerRuntime := handle i.1 s.ready i.2

/-- What `main` loads before the loop starts. -/
structure Startup where
  cfg : ServerConfig
  world : SessionWorld
  players : Table Bytes PlayerRec
  bannedKeys : List Bytes

def Startup.runtime (b : Startup) : ServerRuntime := initial b.cfg b.world b.players b.bannedKeys

def runFrom (b : Startup) (is : List (Env × Input)) : ServerRuntime := StepRuns.run step b.runtime is

def Reachable (s : ServerRuntime) : Prop := ∃ b is, s = runFrom b is

theorem Reachable.step {s : ServerRuntime} (h : Reachable s) (i : Env × Input) : Reachable (s.step i) := by
  obtain ⟨b, is, rfl⟩ := h
  exact ⟨b, is ++ [i], by simp [runFrom, StepRuns.run_concat]⟩

/-- What the start establishes and every step keeps holds in every reachable state. -/
theorem Reachable.induction {I : ServerRuntime → Prop} (hI : ∀ b : Startup, I b.runtime) (hs : ∀ s i, I s → I (s.step i))
    {s : ServerRuntime} (h : Reachable s) : I s := by
  obtain ⟨b, is, rfl⟩ := h
  exact StepRuns.run_invariant (P := fun _ _ => True) (fun s i h _ => hs s i h) (hI b)
    (StepRuns.allSteps_iff_split.mpr fun _ _ _ _ => trivial)

def acceptedConn : Env × Input → List ConnId
  | (_, .inbound ev _) => if ev.kind = .TcpAccept then [ev.connId] else []
  | _ => []

/-- Every TcpAccept of the run carries a fresh non-zero connId. -/
def FreshAccepts (is : List (Env × Input)) : Prop := (is.flatMap acceptedConn).Nodup ∧ 0 ∉ is.flatMap acceptedConn

def pendingFrame (s : ServerRuntime) (ev : InboundEvent) : Option PendingTcp :=
  match frameTarget s ev with
  | .pending pending => some pending
  | _ => none

/-- The way `handle_pending_message` is left, in a step that calls it. -/
def pendingExit (s : ServerRuntime) (i : Env × Input) : Option PendingExit :=
  match i.2 with
  | .inbound ev t =>
    if ev.kind = .TcpFrame then
      (pendingFrame s.ready ev).map fun pending => (handlePendingMessage i.1 s.ready pending ev.bytes t).exit
    else none
  | _ => none

/-- The ids a step takes from `alloc_peer` for joining clients. -/
def joins (s : ServerRuntime) (i : Env × Input) : List PeerId :=
  match pendingExit s i with
  | some (.joined id _) => [id]
  | _ => []

/-- An environment with no configuration file. -/
def plainEnv : Env where
  now := 1
  placement := .front _ _
  iniText := none
  stof := fun _ => none
  stoul16 := fun _ => none

def freshStart : Startup where
  cfg := {}
  world := {}
  players := ∅
  bannedKeys := []

/-- The Hello of a player in the exterior. -/
def helloFrame (key : Bytes) : Bytes :=
  (makeHello key key true kCommonwealthWorldspace ⟨0⟩ ⟨0⟩ 0 ⟨0⟩ ⟨0⟩ ⟨0⟩ false 0 0 []).encode

def acceptAt (connId : ConnId) (addr : SockAddr) : Env × Input :=
  (plainEnv, .inbound { kind := .TcpAccept, connId := connId, addr := addr } 1)

def frameAt (connId : ConnId) (peerId : PeerId) (bytes : Bytes) : Env × Input :=
  (plainEnv, .inbound { kind := .TcpFrame, connId := connId, peerId := peerId, bytes := bytes } 1)

def datagramAt (addr : SockAddr) (bytes : Bytes) : Env × Input :=
  (plainEnv, .inbound { kind := .UdpDatagram, addr := addr, bytes := bytes } 1)

/-- A first and a second player join. -/
def twoJoins : List (Env × Input) :=
  [acceptAt 1 ⟨10, 0, 0, 1, 1000⟩, frameAt 1 0 (helloFrame (ascii "a")),
    acceptAt 2 ⟨10, 0, 0, 2, 1000⟩, frameAt 2 0 (helloFrame (ascii "b"))]

end ServerRuntime
end CommonwealthMP
