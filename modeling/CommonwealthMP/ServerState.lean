import CommonwealthMP.BlobChunks
import CommonwealthMP.OrderedTables

/-! # Server state: clients, pending connections, world, rate buckets -/
namespace CommonwealthMP
open ByteLayout Binary32 OrderedTables

abbrev PeerId := UInt32
/-- The net thread's 64-bit connection counter, which no run wraps. -/
abbrev ConnId := ℕ

def kClientTimeoutSec : Time := 8
def kPendingTcpTimeoutSec : Time := 10

/-- An IPv4 address in network byte order and a port. -/
structure SockAddr where
  a : UInt8 := 0
  b : UInt8 := 0
  c : UInt8 := 0
  d : UInt8 := 0
  port : UInt16 := 0
  deriving DecidableEq, Repr

/-- `a.b.c.d:port` -/
def addrKey (addr : SockAddr) : Bytes :=
  decimal addr.a.toNat ++ (46 :: (decimal addr.b.toNat ++ (46 :: (decimal addr.c.toNat ++ (46 ::
    (decimal addr.d.toNat ++ (58 :: decimal addr.port.toNat)))))))

example : addrKey ⟨127, 0, 0, 1, 7777⟩ = ascii "127.0.0.1:7777" := by decide

theorem addrKey_injective : Function.Injective addrKey := by
  intro x y h
  have hdot : ¬ IsDigit 46 := by unfold IsDigit; decide
  have hcolon : ¬ IsDigit 58 := by unfold IsDigit; decide
  obtain ⟨ha, h⟩ := decimal_sep_inj hdot h
  obtain ⟨hb, h⟩ := decimal_sep_inj hdot h
  obtain ⟨hc, h⟩ := decimal_sep_inj hdot h
  obtain ⟨hd, h⟩ := decimal_sep_inj hcolon h
  cases x
  cases y
  simp only [SockAddr.mk.injEq]
  exact ⟨UInt8.toNat_inj.mp ha, UInt8.toNat_inj.mp hb, UInt8.toNat_inj.mp hc, UInt8.toNat_inj.mp hd,
    UInt16.toNat_inj.mp (decimal_injective h)⟩

structure PlayerRec where
  key : Bytes := []
  name : Bytes := []
  havePose : Bool := false
  locationFormId : UInt32 := kCommonwealthWorldspace
  x : F32 := kSanctuaryX
  y : F32 := kSanctuaryY
  z : F32 := kSanctuaryZ
  yaw : F32 := ⟨0⟩
  appearance : Bytes := []
  inventory : Bytes := []
  deriving DecidableEq, Repr

structure Client where
  connId : ConnId := 0
  tcpAddr : SockAddr := {}
  udpAddr : SockAddr := {}
  udpBound : Bool := false
  udpToken : UInt32 := 0
  peerId : PeerId := 0
  playerKey : Bytes := []
  name : Bytes := []
  lastSeen : Time := 0
  posesIn : UInt64 := 0
  lastPose : PlayerPose
  havePose : Bool := false
  appearance : Bytes := []
  inventory : Bytes := []
  deriving DecidableEq

structure PendingTcp where
  connId : ConnId := 0
  addr : SockAddr := {}
  connectedAt : Time := 0
  deriving DecidableEq

structure SessionWorld where
  created : Bool := false
  spawnLocation : UInt32 := kCommonwealthWorldspace
  spawnX : F32 := kSanctuaryX
  spawnY : F32 := kSanctuaryY
  spawnZ : F32 := kSanctuaryZ
  gameHour : F32 := ⟨0x41200000⟩
  gameDaysPassed : F32 := ⟨0⟩
  weatherFormId : UInt32 := 0
  hostPeerId : PeerId := 0
  hostLocation : UInt32 := kCommonwealthWorldspace
  hostX : F32 := kSanctuaryX
  hostY : F32 := kSanctuaryY
  hostZ : F32 := kSanctuaryZ
  deriving DecidableEq, Repr

/-- The settings the running server reads. -/
structure ServerConfig where
  name : Bytes := ascii "CommonwealthMP"
  motd : Bytes := []
  maxPlayers : ℤ := 8
  pvp : Bool := true
  password : Bytes := []
  modHash : UInt32 := 0
  interestUu : F32 := ⟨0x469C4000⟩
  deriving DecidableEq, Repr

/-- `count` is an `int` in the source; that many calls of one key in one window are out of scope. -/
structure RateBucket where
  windowStart : Time := 0
  count : ℤ := 0
  deriving DecidableEq

abbrev RateTable := Table Bytes RateBucket

/-- `allow_rate`: whether the call is accepted, and the buckets after it. -/
def allowRate (buckets : RateTable) (key : Bytes) (t : Time) (maxPerSec : ℤ) : Bool × RateTable :=
  let b := (buckets.lookup key).getD {}
  let b := if 1 ≤ t - b.windowStart then { windowStart := t, count := 0 } else b
  let b := { b with count := b.count + 1 }
  (decide (b.count ≤ maxPerSec), buckets.insert key b)

def inInterest (locA : UInt32) (ax ay az : F32) (haveA : Bool) (locB : UInt32) (bx byy bz : F32) (haveB : Bool)
    (maxUu : F32) : Bool :=
  if le maxUu ⟨0⟩ then true
  else if !haveA || !haveB then true
  else if locA ≠ 0 ∧ locB ≠ 0 ∧ locA ≠ locB then true
  else
    let dx := sub ax bx
    let dy := sub ay byy
    let dz := sub az bz
    le (add (add (mul dx dx) (mul dy dy)) (mul dz dz)) (mul maxUu maxUu)

def PlayerPose.inInterest (p : PlayerPose) (haveA : Bool) (other : PlayerPose) (haveB : Bool) (maxUu : F32) : Bool :=
  CommonwealthMP.inInterest p.locationFormId p.x p.y p.z haveA other.locationFormId other.x other.y other.z haveB maxUu

def ActorPose.inInterest (a : ActorPose) (other : PlayerPose) (haveB : Bool) (maxUu : F32) : Bool :=
  CommonwealthMP.inInterest a.locationFormId a.x a.y a.z true other.locationFormId other.x other.y other.z haveB maxUu

def kPlayerKeyMax : ℕ := 31

/-- `std::isalnum` of the C locale. -/
def isAlnum (c : UInt8) : Bool :=
  (48 ≤ c && c ≤ 57) || (65 ≤ c && c ≤ 90) || (97 ≤ c && c ≤ 122)

def sanitizePlayerKey (raw emptyFallback : Bytes) : Bytes :=
  let out := raw.filter fun c => isAlnum c || c == 45 || c == 95
  if out = [] then emptyFallback else out.take kPlayerKeyMax

abbrev ClientTable := Table PeerId Client

/-- The host's client record, or a newly elected one, and the world after the election. -/
def findHost (clients : ClientTable) (world : SessionWorld) : Option Client × SessionWorld :=
  match clients.values.find? (·.peerId = world.hostPeerId) with
  | some client => (some client, world)
  | none =>
    match clients.values with
    | [] => (none, { world with hostPeerId := 0 })
    | client :: _ => (some client, { world with hostPeerId := client.peerId })

def buildSessionFlags (cfg : ServerConfig) : UInt32 :=
  (if cfg.pvp then kSessionPvpEnabled else 0) ||| (if cfg.password ≠ [] then kSessionPasswordRequired else 0)

/-- The static of `make_udp_token`: its start value and one draw. -/
def udpTokenSeed : UInt32 := 0xC0FFEE01

def makeUdpToken (s : UInt32) : UInt32 :=
  let s := s * 1664525 + 1013904223
  if s = 0 then 1 else s

theorem makeUdpToken_ne_zero (s : UInt32) : makeUdpToken s ≠ 0 := by
  unfold makeUdpToken
  dsimp only
  split
  · decide
  · assumption

inductive InboundKind
  | TcpAccept | TcpFrame | TcpClosed | UdpDatagram
  deriving DecidableEq, Repr

structure InboundEvent where
  kind : InboundKind
  connId : ConnId := 0
  peerId : PeerId := 0
  addr : SockAddr := {}
  bytes : Bytes := []
  deriving DecidableEq, Repr

inductive OutboundKind
  | TcpSend | UdpSend | BindPeer | CloseConn | KeepPending
  deriving DecidableEq, Repr

structure OutboundCmd where
  kind : OutboundKind
  connId : ConnId := 0
  peerId : PeerId := 0
  addr : SockAddr := {}
  bytes : Bytes := []
  deriving DecidableEq, Repr

structure PersistJob where
  world : Option SessionWorld := none
  players : List PlayerRec := []
  banKeys : Option (List Bytes) := none
  deriving DecidableEq

/-- `find_host` leaves a world alone whose host is a live client. -/
theorem findHost_of_live {clients : ClientTable} {world : SessionWorld} {client : Client}
    (h : client ∈ clients.values) (hp : client.peerId = world.hostPeerId) :
    ∃ host, host ∈ clients.values ∧ host.peerId = world.hostPeerId ∧ findHost clients world = (some host, world) := by
  unfold findHost
  cases hf : clients.values.find? (·.peerId = world.hostPeerId) with
  | some host =>
    exact ⟨host, List.mem_of_find?_eq_some hf, by simpa using List.find?_some hf, rfl⟩
  | none =>
    have := List.find?_eq_none.mp hf client h
    simp [hp] at this

theorem findHost_of_empty {clients : ClientTable} (world : SessionWorld) (h : clients.values = []) :
    findHost clients world = (none, { world with hostPeerId := 0 }) := by
  simp [findHost, h]

/-- Only the host id may change, and afterwards it names the returned client. -/
theorem findHost_spec (clients : ClientTable) (world : SessionWorld) :
    ∃ id, (findHost clients world).2 = { world with hostPeerId := id } ∧
      ∀ host, (findHost clients world).1 = some host → host ∈ clients.values ∧ host.peerId = id := by
  unfold findHost
  cases hf : clients.values.find? (·.peerId = world.hostPeerId) with
  | some host =>
    refine ⟨world.hostPeerId, rfl, ?_⟩
    rintro _ ⟨⟩
    exact ⟨List.mem_of_find?_eq_some hf, by simpa using List.find?_some hf⟩
  | none =>
    cases hv : clients.values with
    | nil => exact ⟨0, rfl, by simp⟩
    | cons client rest =>
      refine ⟨client.peerId, rfl, ?_⟩
      rintro _ ⟨⟩
      exact ⟨List.mem_cons_self, rfl⟩

/-- With clients left, the election ends with a live host. -/
theorem findHost_elects {clients : ClientTable} (world : SessionWorld) (h : clients.values ≠ []) :
    ∃ host ∈ clients.values, (findHost clients world).2.hostPeerId = host.peerId := by
  unfold findHost
  cases hf : clients.values.find? (·.peerId = world.hostPeerId) with
  | some host =>
    exact ⟨host, List.mem_of_find?_eq_some hf, Eq.symm (by simpa using List.find?_some hf)⟩
  | none =>
    cases hv : clients.values with
    | nil => exact absurd hv h
    | cons client rest => exact ⟨client, List.mem_cons_self, rfl⟩

end CommonwealthMP
