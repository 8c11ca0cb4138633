import Mathlib.Data.UInt
import Mathlib.Algebra.Order.Field.Rat
import Mathlib.Data.List.Induction
import CommonwealthMP.ByteLayout
import CommonwealthMP.Binary32

/-! # The wire protocol

Packed messages of the TCP and UDP channels: their fields in wire order, the bytes they are
sent as, and the copy of a received buffer into a message. A copied message keeps the
sender's header until `fillHeader` overwrites it. -/
namespace CommonwealthMP
open ByteLayout Binary32

/-- `char magic[4]`, read as one little-endian word. -/
def kMagic : UInt32 := 0x31504D43
example : u32 kMagic = ascii "CMP1" := by decide

def kProtocolVersion : UInt8 := 12
def kPluginVersion : UInt32 := 12
def kCommonwealthWorldspace : UInt32 := 0x0000003C
def kMaxDatagram : ℕ := 512
def kMaxTcpFrame : ℕ := 65535

def kSanctuaryX : F32 := ⟨0xC79AFA00⟩
def kSanctuaryY : F32 := ⟨0x47AF4C00⟩
def kSanctuaryZ : F32 := ⟨0x45F80000⟩
def kGuestSpawnOffsetX : F32 := ⟨0x42A00000⟩

def kHelloFlagRequireHost : UInt8 := 1
def kSessionPvpEnabled : UInt32 := 1
def kSessionPasswordRequired : UInt32 := 2

inductive Msg
  | Hello | Welcome | PlayerPose | Bye | Reject | WorldSnapshot | AppearanceChunk | InventoryChunk
  | SessionQuery | SessionInfo | ActorPose | Hit | Chat | Kick | Heartbeat | Teleport | SessionRules | UdpBind
  deriving DecidableEq, Repr

/-- The enumerator's value. -/
def Msg.code : Msg → UInt8
  | .Hello => 1 | .Welcome => 2 | .PlayerPose => 3 | .Bye => 4 | .Reject => 5 | .WorldSnapshot => 6
  | .AppearanceChunk => 7 | .InventoryChunk => 8 | .SessionQuery => 9 | .SessionInfo => 10 | .ActorPose => 11
  | .Hit => 12 | .Chat => 13 | .Kick => 14 | .Heartbeat => 15 | .Teleport => 16 | .SessionRules => 17
  | .UdpBind => 18

def Msg.all : List Msg := [.Hello, .Welcome, .PlayerPose, .Bye, .Reject, .WorldSnapshot, .AppearanceChunk,
  .InventoryChunk, .SessionQuery, .SessionInfo, .ActorPose, .Hit, .Chat, .Kick, .Heartbeat, .Teleport,
  .SessionRules, .UdpBind]

/-- `static_cast<Msg>`; a byte that is no enumerator is refused by `expected_msg_size`. -/
def Msg.ofCode (b : UInt8) : Option Msg := Msg.all.find? (·.code = b)

@[simp] theorem Msg.ofCode_code (m : Msg) : Msg.ofCode m.code = some m := by
  cases m <;> decide

theorem Msg.code_of_ofCode {b : UInt8} {m : Msg} (h : Msg.ofCode b = some m) : m.code = b := by
  simpa using List.find?_some h

inductive RejectReason
  | None | Protocol | PluginVersion | NotInWorld | NoHost | HostNotStreaming | Full | Banned | Password | ModMismatch
  deriving DecidableEq, Repr

def RejectReason.code : RejectReason → UInt32
  | .None => 0 | .Protocol => 1 | .PluginVersion => 2 | .NotInWorld => 4 | .NoHost => 8 | .HostNotStreaming => 16
  | .Full => 32 | .Banned => 64 | .Password => 128 | .ModMismatch => 256

structure Header where
  magic : UInt32
  type : UInt8
  version : UInt8
  size : UInt16
  seq : UInt16
  flags : UInt8
  reserved : UInt8
  deriving DecidableEq, Repr

def Header.encode (h : Header) : Bytes :=
  u32 h.magic ++ (u8 h.type ++ (u8 h.version ++ (u16 h.size ++ (u16 h.seq ++ (u8 h.flags ++ u8 h.reserved)))))

def Header.decode (buf : Bytes) : Header where
  magic := u32At buf 0
  type := u8At buf 4
  version := u8At buf 5
  size := u16At buf 6
  seq := u16At buf 8
  flags := u8At buf 10
  reserved := u8At buf 11

def sizeofHeader : ℕ := 12

@[simp] theorem Header.encode_length (h : Header) : h.encode.length = 12 := by
  simp [Header.encode]

/-- The header `fill_header` writes for a message of `size` bytes. -/
def fillHeader (type : Msg) (size : UInt16) : Header :=
  { magic := kMagic, type := type.code, version := kProtocolVersion, size := size, seq := 0, flags := 0, reserved := 0 }

def f32 (x : F32) : Bytes := u32 x.bits
def f32At (buf : Bytes) (off : ℕ) : F32 := ⟨u32At buf off⟩
def boolByte (b : Bool) : UInt8 := if b then 1 else 0

@[simp] theorem f32_length (x : F32) : (f32 x).length = 4 := u32_length _

structure Hello where
  header : Header
  protocol : UInt32
  pluginVersion : UInt32
  playerKey : Bytes
  name : Bytes
  locationFormId : UInt32
  gameDaysPassed : F32
  gameHour : F32
  weatherFormId : UInt32
  x : F32
  y : F32
  z : F32
  inWorld : UInt8
  interior : UInt8
  flags : UInt8
  modHash : UInt32
  password : Bytes
  deriving DecidableEq, Repr

def sizeofHello : ℕ := 135

def Hello.decode (buf : Bytes) : Hello where
  header := Header.decode buf
  protocol := u32At buf 12
  pluginVersion := u32At buf 16
  playerKey := slice buf 20 32
  name := slice buf 52 32
  locationFormId := u32At buf 84
  gameDaysPassed := f32At buf 88
  gameHour := f32At buf 92
  weatherFormId := u32At buf 96
  x := f32At buf 100
  y := f32At buf 104
  z := f32At buf 108
  inWorld := u8At buf 112
  interior := u8At buf 113
  flags := u8At buf 114
  modHash := u32At buf 115
  password := slice buf 119 16

def Hello.encode (m : Hello) : Bytes :=
  m.header.encode ++ (u32 m.protocol ++ (u32 m.pluginVersion ++ (m.playerKey ++ (m.name ++ (u32 m.locationFormId ++
    (f32 m.gameDaysPassed ++ (f32 m.gameHour ++ (u32 m.weatherFormId ++ (f32 m.x ++ (f32 m.y ++ (f32 m.z ++
    (u8 m.inWorld ++ (u8 m.interior ++ (u8 m.flags ++ (u32 m.modHash ++ m.password)))))))))))))))

structure Welcome where
  header : Header
  peerId : UInt32
  fakePeerId : UInt32
  isNewPlayer : UInt8
  isHost : UInt8
  sessionFlags : UInt32
  udpToken : UInt32
  deriving DecidableEq, Repr

def sizeofWelcome : ℕ := 30

def Welcome.encode (m : Welcome) : Bytes :=
  m.header.encode ++ (u32 m.peerId ++ (u32 m.fakePeerId ++ (u8 m.isNewPlayer ++ (u8 m.isHost ++
    (u32 m.sessionFlags ++ u32 m.udpToken)))))

def Welcome.decode (buf : Bytes) : Welcome where
  header := Header.decode buf
  peerId := u32At buf 12
  fakePeerId := u32At buf 16
  isNewPlayer := u8At buf 20
  isHost := u8At buf 21
  sessionFlags := u32At buf 22
  udpToken := u32At buf 26

structure SessionRules where
  header : Header
  sessionFlags : UInt32
  deriving DecidableEq, Repr

def sizeofSessionRules : ℕ := 16

def SessionRules.encode (m : SessionRules) : Bytes := m.header.encode ++ u32 m.sessionFlags

def SessionRules.decode (buf : Bytes) : SessionRules where
  header := Header.decode buf
  sessionFlags := u32At buf 12

structure PlayerPose where
  header : Header
  peerId : UInt32
  locationFormId : UInt32
  x : F32
  y : F32
  z : F32
  yaw : F32
  pitch : F32
  speed : F32
  vx : F32
  vy : F32
  flags : UInt32
  deriving DecidableEq, Repr

def sizeofPlayerPose : ℕ := 56

def PlayerPose.encode (m : PlayerPose) : Bytes :=
  m.header.encode ++ (u32 m.peerId ++ (u32 m.locationFormId ++ (f32 m.x ++ (f32 m.y ++ (f32 m.z ++ (f32 m.yaw ++
    (f32 m.pitch ++ (f32 m.speed ++ (f32 m.vx ++ (f32 m.vy ++ u32 m.flags))))))))))

def PlayerPose.decode (buf : Bytes) : PlayerPose where
  header := Header.decode buf
  peerId := u32At buf 12
  locationFormId := u32At buf 16
  x := f32At buf 20
  y := f32At buf 24
  z := f32At buf 28
  yaw := f32At buf 32
  pitch := f32At buf 36
  speed := f32At buf 40
  vx := f32At buf 44
  vy := f32At buf 48
  flags := u32At buf 52

structure Bye where
  header : Header
  peerId : UInt32
  deriving DecidableEq, Repr

def sizeofBye : ℕ := 16

def Bye.encode (m : Bye) : Bytes := m.header.encode ++ u32 m.peerId

def Bye.decode (buf : Bytes) : Bye where
  header := Header.decode buf
  peerId := u32At buf 12

structure Hit where
  header : Header
  attackerPeerId : UInt32
  targetPeerId : UInt32
  damage : F32
  flags : UInt32
  deriving DecidableEq, Repr

def sizeofHit : ℕ := 28

def Hit.encode (m : Hit) : Bytes :=
  m.header.encode ++ (u32 m.attackerPeerId ++ (u32 m.targetPeerId ++ (f32 m.damage ++ u32 m.flags)))

def Hit.decode (buf : Bytes) : Hit where
  header := Header.decode buf
  attackerPeerId := u32At buf 12
  targetPeerId := u32At buf 16
  damage := f32At buf 20
  flags := u32At buf 24

structure Chat where
  header : Header
  fromPeerId : UInt32
  text : Bytes
  deriving DecidableEq, Repr

def sizeofChat : ℕ := 96

def Chat.encode (m : Chat) : Bytes := m.header.encode ++ (u32 m.fromPeerId ++ m.text)

def Chat.decode (buf : Bytes) : Chat where
  header := Header.decode buf
  fromPeerId := u32At buf 12
  text := slice buf 16 80

structure Kick where
  header : Header
  targetPeerId : UInt32
  reason : Bytes
  deriving DecidableEq, Repr

def sizeofKick : ℕ := 96

def Kick.encode (m : Kick) : Bytes := m.header.encode ++ (u32 m.targetPeerId ++ m.reason)

def Kick.decode (buf : Bytes) : Kick where
  header := Header.decode buf
  targetPeerId := u32At buf 12
  reason := slice buf 16 80

structure Heartbeat where
  header : Header
  peerId : UInt32
  clientStampMs : UInt32
  deriving DecidableEq, Repr

def sizeofHeartbeat : ℕ := 20

def Heartbeat.encode (m : Heartbeat) : Bytes := m.header.encode ++ (u32 m.peerId ++ u32 m.clientStampMs)

def Heartbeat.decode (buf : Bytes) : Heartbeat where
  header := Header.decode buf
  peerId := u32At buf 12
  clientStampMs := u32At buf 16

structure Teleport where
  header : Header
  targetPeerId : UInt32
  x : F32
  y : F32
  z : F32
  locationFormId : UInt32
  deriving DecidableEq, Repr

def sizeofTeleport : ℕ := 32

def Teleport.encode (m : Teleport) : Bytes :=
  m.header.encode ++ (u32 m.targetPeerId ++ (f32 m.x ++ (f32 m.y ++ (f32 m.z ++ u32 m.locationFormId))))

def Teleport.decode (buf : Bytes) : Teleport where
  header := Header.decode buf
  targetPeerId := u32At buf 12
  x := f32At buf 16
  y := f32At buf 20
  z := f32At buf 24
  locationFormId := u32At buf 28

structure ActorPose where
  header : Header
  refFormId : UInt32
  baseFormId : UInt32
  locationFormId : UInt32
  x : F32
  y : F32
  z : F32
  yaw : F32
  pitch : F32
  speed : F32
  vx : F32
  vy : F32
  flags : UInt32
  unique : UInt8
  dead : UInt8
  pad : UInt16
  deriving DecidableEq, Repr

def sizeofActorPose : ℕ := 64

def ActorPose.encode (m : ActorPose) : Bytes :=
  m.header.encode ++ (u32 m.refFormId ++ (u32 m.baseFormId ++ (u32 m.locationFormId ++ (f32 m.x ++ (f32 m.y ++
    (f32 m.z ++ (f32 m.yaw ++ (f32 m.pitch ++ (f32 m.speed ++ (f32 m.vx ++ (f32 m.vy ++ (u32 m.flags ++
    (u8 m.unique ++ (u8 m.dead ++ u16 m.pad))))))))))))))

def ActorPose.decode (buf : Bytes) : ActorPose where
  header := Header.decode buf
  refFormId := u32At buf 12
  baseFormId := u32At buf 16
  locationFormId := u32At buf 20
  x := f32At buf 24
  y := f32At buf 28
  z := f32At buf 32
  yaw := f32At buf 36
  pitch := f32At buf 40
  speed := f32At buf 44
  vx := f32At buf 48
  vy := f32At buf 52
  flags := u32At buf 56
  unique := u8At buf 60
  dead := u8At buf 61
  pad := u16At buf 62

structure Reject where
  header : Header
  reason : UInt32
  message : Bytes
  deriving DecidableEq, Repr

def sizeofReject : ℕ := 112

def Reject.encode (m : Reject) : Bytes := m.header.encode ++ (u32 m.reason ++ m.message)

structure WorldSnapshot where
  header : Header
  gameHour : F32
  gameDaysPassed : F32
  weatherFormId : UInt32
  hostLocationFormId : UInt32
  hostX : F32
  hostY : F32
  hostZ : F32
  hostPeerId : UInt32
  placeLocationFormId : UInt32
  placeX : F32
  placeY : F32
  placeZ : F32
  isNewPlayer : UInt8
  pad : Bytes
  deriving DecidableEq, Repr

def sizeofWorldSnapshot : ℕ := 64

def WorldSnapshot.encode (m : WorldSnapshot) : Bytes :=
  m.header.encode ++ (f32 m.gameHour ++ (f32 m.gameDaysPassed ++ (u32 m.weatherFormId ++ (u32 m.hostLocationFormId ++
    (f32 m.hostX ++ (f32 m.hostY ++ (f32 m.hostZ ++ (u32 m.hostPeerId ++ (u32 m.placeLocationFormId ++ (f32 m.placeX ++
    (f32 m.placeY ++ (f32 m.placeZ ++ (u8 m.isNewPlayer ++ m.pad)))))))))))))

def WorldSnapshot.decode (buf : Bytes) : WorldSnapshot where
  header := Header.decode buf
  gameHour := f32At buf 12
  gameDaysPassed := f32At buf 16
  weatherFormId := u32At buf 20
  hostLocationFormId := u32At buf 24
  hostX := f32At buf 28
  hostY := f32At buf 32
  hostZ := f32At buf 36
  hostPeerId := u32At buf 40
  placeLocationFormId := u32At buf 44
  placeX := f32At buf 48
  placeY := f32At buf 52
  placeZ := f32At buf 56
  isNewPlayer := u8At buf 60
  pad := slice buf 61 3

structure BlobChunk where
  header : Header
  peerId : UInt32
  chunkIndex : UInt16
  chunkCount : UInt16
  blobBytes : UInt16
  payloadBytes : UInt16
  deriving DecidableEq, Repr

def sizeofBlobChunk : ℕ := 24

def BlobChunk.encode (m : BlobChunk) : Bytes :=
  m.header.encode ++ (u32 m.peerId ++ (u16 m.chunkIndex ++ (u16 m.chunkCount ++ (u16 m.blobBytes ++ u16 m.payloadBytes))))

def BlobChunk.decode (buf : Bytes) : BlobChunk where
  header := Header.decode buf
  peerId := u32At buf 12
  chunkIndex := u16At buf 16
  chunkCount := u16At buf 18
  blobBytes := u16At buf 20
  payloadBytes := u16At buf 22

structure SessionQuery where
  header : Header
  pluginVersion : UInt32
  pad : Bytes
  deriving DecidableEq, Repr

def sizeofSessionQuery : ℕ := 20

def SessionQuery.encode (m : SessionQuery) : Bytes := m.header.encode ++ (u32 m.pluginVersion ++ m.pad)

structure SessionInfo where
  header : Header
  hostPeerId : UInt32
  hostLocationFormId : UInt32
  hostX : F32
  hostY : F32
  hostZ : F32
  clientCount : UInt32
  haveHost : UInt8
  hostInterior : UInt8
  sessionFlags : UInt32
  serverName : Bytes
  maxPlayers : UInt32
  motd : Bytes
  deriving DecidableEq, Repr

def SessionInfo.encode (m : SessionInfo) : Bytes :=
  m.header.encode ++ (u32 m.hostPeerId ++ (u32 m.hostLocationFormId ++ (f32 m.hostX ++ (f32 m.hostY ++ (f32 m.hostZ ++
    (u32 m.clientCount ++ (u8 m.haveHost ++ (u8 m.hostInterior ++ (u32 m.sessionFlags ++ (m.serverName ++
    (u32 m.maxPlayers ++ m.motd)))))))))))

def sizeofSessionInfo : ℕ := 142

def SessionInfo.decode (buf : Bytes) : SessionInfo where
  header := Header.decode buf
  hostPeerId := u32At buf 12
  hostLocationFormId := u32At buf 16
  hostX := f32At buf 20
  hostY := f32At buf 24
  hostZ := f32At buf 28
  clientCount := u32At buf 32
  haveHost := u8At buf 36
  hostInterior := u8At buf 37
  sessionFlags := u32At buf 38
  serverName := slice buf 42 32
  maxPlayers := u32At buf 74
  motd := slice buf 78 64

structure UdpBind where
  header : Header
  peerId : UInt32
  udpToken : UInt32
  deriving DecidableEq, Repr

def sizeofUdpBind : ℕ := 20

def UdpBind.encode (m : UdpBind) : Bytes := m.header.encode ++ (u32 m.peerId ++ u32 m.udpToken)

def UdpBind.decode (buf : Bytes) : UdpBind where
  header := Header.decode buf
  peerId := u32At buf 12
  udpToken := u32At buf 16

def kBlobPayloadMax : ℕ := kMaxDatagram - sizeofBlobChunk

def msgIsUdp : Msg → Bool
  | .PlayerPose | .ActorPose | .UdpBind => true
  | _ => false

def msgIsTcp (type : Msg) : Bool := !msgIsUdp type

def expectedMsgSize (type : Msg) (size : ℕ) : Bool :=
  match type with
  | .Hello => size = 135
  | .Welcome => size = 30
  | .PlayerPose => size = 56
  | .Bye => size = 16
  | .Reject => size = 112
  | .WorldSnapshot => size = 64
  | .AppearanceChunk | .InventoryChunk => 24 ≤ size
  | .SessionQuery => size = 20
  | .SessionInfo => size = 142
  | .ActorPose => size = 64
  | .Hit => size = 28
  | .Chat => size = 96
  | .Kick => size = 96
  | .Heartbeat => size = 20
  | .Teleport => size = 32
  | .SessionRules => size = 16
  | .UdpBind => size = 20

/-- `header_ok` together with the cast of the type byte: the type of an acceptable header. -/
def headerOk (h : Header) (nbytes : ℕ) : Option Msg :=
  if h.magic ≠ kMagic ∨ nbytes < h.size.toNat ∨ h.size.toNat < sizeofHeader then none
  else match Msg.ofCode h.type with
    | none => none
    | some type => if expectedMsgSize type h.size.toNat then some type else none

/-- The common prologue of the handlers: the length test, the header copy and `header_ok`. -/
def openFrame (buf : Bytes) : Option (Header × Msg) :=
  if buf.length < sizeofHeader then none
  else (headerOk (Header.decode buf) buf.length).map fun type => (Header.decode buf, type)

def clampHitDamage (damage : F32) : F32 :=
  if !lt ⟨0⟩ damage then ⟨0⟩
  else if lt ⟨0x43FA0000⟩ damage then ⟨0x43FA0000⟩
  else damage

def makeHello (name playerKey : Bytes) (inWorld : Bool) (locationFormId : UInt32) (gameDaysPassed gameHour : F32)
    (weatherFormId : UInt32) (x y z : F32) (interior : Bool) (flags : UInt8) (modHash : UInt32)
    (password : Bytes) : Hello where
  header := fillHeader .Hello 135
  protocol := kProtocolVersion.toUInt32
  pluginVersion := kPluginVersion
  playerKey := charArray 32 playerKey
  name := charArray 32 name
  locationFormId := locationFormId
  gameDaysPassed := gameDaysPassed
  gameHour := gameHour
  weatherFormId := weatherFormId
  x := x
  y := y
  z := z
  inWorld := boolByte inWorld
  interior := boolByte interior
  flags := flags
  modHash := modHash
  password := charArray 16 password

def makeWelcome (peerId fakePeerId : UInt32) (isNewPlayer isHost : Bool) (sessionFlags udpToken : UInt32) : Welcome where
  header := fillHeader .Welcome 30
  peerId := peerId
  fakePeerId := fakePeerId
  isNewPlayer := boolByte isNewPlayer
  isHost := boolByte isHost
  sessionFlags := sessionFlags
  udpToken := udpToken

def makeSessionRules (sessionFlags : UInt32) : SessionRules where
  header := fillHeader .SessionRules 16
  sessionFlags := sessionFlags

def makePose (peerId locationFormId : UInt32) (x y z yaw : F32) : PlayerPose where
  header := fillHeader .PlayerPose 56
  peerId := peerId
  locationFormId := locationFormId
  x := x
  y := y
  z := z
  yaw := yaw
  pitch := ⟨0⟩
  speed := ⟨0⟩
  vx := ⟨0⟩
  vy := ⟨0⟩
  flags := 0

def makeBye (peerId : UInt32) : Bye where
  header := fillHeader .Bye 16
  peerId := peerId

def makeChat (fromPeerId : UInt32) (text : Bytes) : Chat where
  header := fillHeader .Chat 96
  fromPeerId := fromPeerId
  text := charArray 80 text

def makeHeartbeat (peerId clientStampMs : UInt32) : Heartbeat where
  header := fillHeader .Heartbeat 20
  peerId := peerId
  clientStampMs := clientStampMs

def makeUdpBind (peerId udpToken : UInt32) : UdpBind where
  header := fillHeader .UdpBind 20
  peerId := peerId
  udpToken := udpToken

def makeReject (reason : RejectReason) (text : Bytes) : Reject where
  header := fillHeader .Reject 112
  reason := reason.code
  message := charArray 96 text

def makeWorldSnapshot (gameHour gameDaysPassed : F32) (weatherFormId hostLocationFormId : UInt32)
    (hostX hostY hostZ : F32) (hostPeerId placeLocationFormId : UInt32) (placeX placeY placeZ : F32)
    (isNewPlayer : Bool) : WorldSnapshot where
  header := fillHeader .WorldSnapshot 64
  gameHour := gameHour
  gameDaysPassed := gameDaysPassed
  weatherFormId := weatherFormId
  hostLocationFormId := hostLocationFormId
  hostX := hostX
  hostY := hostY
  hostZ := hostZ
  hostPeerId := hostPeerId
  placeLocationFormId := placeLocationFormId
  placeX := placeX
  placeY := placeY
  placeZ := placeZ
  isNewPlayer := boolByte isNewPlayer
  pad := List.replicate 3 0

def makeSessionQuery : SessionQuery where
  header := fillHeader .SessionQuery 20
  pluginVersion := kPluginVersion
  pad := List.replicate 4 0

def makeSessionInfo (hostPeerId hostLocationFormId : UInt32) (hostX hostY hostZ : F32) (clientCount : UInt32)
    (haveHost hostInterior : Bool) (serverName : Bytes) (maxPlayers : UInt32) (motd : Bytes)
    (sessionFlags : UInt32) : SessionInfo where
  header := fillHeader .SessionInfo 142
  hostPeerId := hostPeerId
  hostLocationFormId := hostLocationFormId
  hostX := hostX
  hostY := hostY
  hostZ := hostZ
  clientCount := clientCount
  haveHost := boolByte haveHost
  hostInterior := boolByte hostInterior
  sessionFlags := sessionFlags
  serverName := charArray 32 serverName
  maxPlayers := maxPlayers
  motd := charArray 64 motd

theorem Header.decode_encode_append (h : Header) (rest : Bytes) : Header.decode (h.encode ++ rest) = h := by
  simp [Header.decode, Header.encode, u16At_skip, u8At_skip]

theorem u8At_encode_type (h : Header) (rest : Bytes) : u8At (h.encode ++ rest) 4 = h.type :=
  congrArg Header.type (Header.decode_encode_append h rest)

theorem headerOk_fill {type : Msg} {size : UInt16} {n : ℕ} (hs : expectedMsgSize type size.toNat = true)
    (h12 : 12 ≤ size.toNat) (hn : size.toNat ≤ n) : headerOk (fillHeader type size) n = some type := by
  have hlt : ¬ n < size.toNat := by omega
  have hlt' : ¬ size.toNat < 12 := by omega
  simp [headerOk, fillHeader, sizeofHeader, hlt, hlt', hs]

/-- A message built by `fill_header` and sent whole is accepted with its own type. -/
theorem openFrame_fill {type : Msg} {size : UInt16} {body : Bytes} (hs : expectedMsgSize type size.toNat = true)
    (hb : 12 + body.length = size.toNat) :
    openFrame ((fillHeader type size).encode ++ body) = some (fillHeader type size, type) := by
  have hl : ((fillHeader type size).encode ++ body).length = size.toNat := by simp [hb]
  have hlt : ¬ size.toNat < sizeofHeader := by rw [sizeofHeader]; omega
  have hok := headerOk_fill (n := size.toNat) hs (by omega) le_rfl
  simp [openFrame, hl, hlt, Header.decode_encode_append, hok]

/-- What an acceptable header guarantees. -/
theorem headerOk_spec {h : Header} {n : ℕ} {type : Msg} (hok : headerOk h n = some type) :
    h.type = type.code ∧ h.size.toNat ≤ n ∧ expectedMsgSize type h.size.toNat = true := by
  unfold headerOk at hok
  split at hok
  · cases hok
  · rename_i hgood
    split at hok
    · cases hok
    · rename_i m hm
      split at hok
      · rename_i hsize
        cases hok
        simp only [not_or, not_lt, ne_eq, Decidable.not_not] at hgood
        exact ⟨(Msg.code_of_ofCode hm).symm, hgood.2.1, hsize⟩
      · cases hok

theorem headerOk_length {h : Header} {n k : ℕ} {type : Msg} (hok : headerOk h n = some type)
    (hk : ∀ size, expectedMsgSize type size = true → size = k) : k ≤ n := by
  obtain ⟨-, hle, hsize⟩ := headerOk_spec hok
  rwa [hk _ hsize] at hle

/-- What an accepted buffer guarantees: enough bytes for its type. -/
theorem openFrame_spec {buf : Bytes} {h : Header} {type : Msg} (ho : openFrame buf = some (h, type)) :
    h = Header.decode buf ∧ h.type = type.code ∧ h.size.toNat ≤ buf.length ∧
      expectedMsgSize type h.size.toNat = true := by
  unfold openFrame at ho
  split at ho
  · cases ho
  · simp only [Option.map_eq_some_iff, Prod.mk.injEq] at ho
    obtain ⟨m, hok, rfl, rfl⟩ := ho
    exact ⟨rfl, headerOk_spec hok⟩

end CommonwealthMP
