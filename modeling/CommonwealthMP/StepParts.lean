import CommonwealthMP.SessionInvariant
import Mathlib.Logic.Relation

/-! # The parts of a step

Whatever the main loop hands to the runtime, what becomes of clients, records, marks, jobs and
per-peer tables is put together from a few kinds of writes. `Part` lists them, each with what
is known when it is made; `step_parts` takes a step apart. -/
namespace CommonwealthMP
open ByteLayout Binary32 OrderedTables SessionTable
namespace ServerRuntime

/-- The tables agree but for one key. -/
def SameBut {K V : Type*} [DecidableEq K] (k : K) (m m' : Table K V) : Prop := ∀ q, q ≠ k → m'.lookup q = m.lookup q

theorem sameBut_insert {K V : Type*} [DecidableEq K] (k : K) (v : V) (m : Table K V) : SameBut k m (m.insert k v) :=
  fun _ hq => AList.lookup_insert_ne hq

theorem sameBut_erase {K V : Type*} [DecidableEq K] (k : K) (m : Table K V) : SameBut k m (m.erase k) :=
  fun _ hq => AList.lookup_erase_ne hq

/-- What the world and the records know a client by. -/
def Client.look (c : Client) : PeerId × Bytes × PlayerPose × Bool × Bytes × Bytes :=
  (c.peerId, c.playerKey, c.lastPose, c.havePose, c.appearance, c.inventory)

theorem Client.look_unbound (c : Client) : Client.look (Client.unbound c) = Client.look c := by
  unfold Client.unbound
  split <;> rfl

theorem Client.look_retoken (c : Client) (token : UInt32) :
    Client.look (Client.unbound { c with udpToken := token }) = Client.look c := Client.look_unbound _

/-- Nothing is written that a part below is about. -/
structure Aside (s s' : ServerRuntime) : Prop where
  world : s'.world = s.world
  players : s'.players = s.players
  bannedKeys : s'.bannedKeys = s.bannedKeys
  clients : s'.clients = s.clients
  appearAsm : s'.appearAsm = s.appearAsm
  invAsm : s'.invAsm = s.invAsm
  dirtyPlayers : s'.dirtyPlayers = s.dirtyPlayers
  worldDirty : s'.worldDirty = s.worldDirty
  hitRates : s'.hitRates = s.hitRates
  poseRates : s'.poseRates = s.poseRates
  chatRates : s'.chatRates = s.chatRates
  blobRates : s'.blobRates = s.blobRates
  persist : s'.persist = s.persist

/-- The input removes `p`. -/
def Leaves (s₀ : ServerRuntime) (i : Env × Input) (p : PeerId) : Prop :=
  ∃ keep, SessionTable.Move.leave p keep ∈ moves i.1 s₀ i.2

/-- The input is a Hello that passes every gate. -/
def Admits (s₀ : ServerRuntime) (i : Env × Input) (hello : Hello) : Prop :=
  ∃ ev t pending header, PendingStep s₀ i.2 ev t pending ∧ Admitted s₀ pending ev.bytes t header ∧
    handlePendingMessage i.1 s₀ pending ev.bytes t =
      admitHello i.1 (s₀.countHello pending t) pending (readHello ev.bytes) t ∧ hello = readHello ev.bytes

def Noted (s : ServerRuntime) (id : PeerId) : Prop :=
  ∀ c, s.clients.lookup id = some c → c.playerKey ∈ s.players → c.playerKey ∈ s.dirtyPlayers

/-- Every assembly has a slot for each chunk. -/
def Slotted (s : ServerRuntime) : Prop := ∀ type id a, (s.assemblies type).lookup id = some a → a.Slotted

/-- One write of the step that takes `i` from `s₀`. -/
inductive Part (s₀ : ServerRuntime) (i : Env × Input) : ServerRuntime → ServerRuntime → Prop
  | aside {s s' : ServerRuntime} (h : Aside s s') : Part s₀ i s s'
  | touch {s : ServerRuntime} (id : PeerId) (f : Client → Client) (hf : ∀ c, Client.look (f c) = Client.look c) :
      Part s₀ i s { s with clients := s.clients.modify id f }
  /-- `players[client.playerKey]` -/
  | remember {s : ServerRuntime} (id : PeerId) (client : Client) (hl : s.clients.lookup id = some client) :
      Part s₀ i s { s with players := s.players.insert client.playerKey ((s.players.lookup client.playerKey).getD {}) }
  | snapshot {s : ServerRuntime} (world : SessionWorld) : Part s₀ i s { s with world := world, worldDirty := true }
  | host {s : ServerRuntime} (id : PeerId) : Part s₀ i s { s with world := { s.world with hostPeerId := id } }
  | count {s : ServerRuntime} (id : PeerId) (hid : id ∈ s.clients) (hstay : ¬ Leaves s₀ i id) (hit pose chat blob : RateTable)
      (hhit : SameBut (decimal id.toNat) s.hitRates hit) (hpose : SameBut (decimal id.toNat) s.poseRates pose)
      (hchat : SameBut (decimal id.toNat) s.chatRates chat) (hblob : SameBut (decimal id.toNat) s.blobRates blob) :
      Part s₀ i s { s with hitRates := hit, poseRates := pose, chatRates := chat, blobRates := blob }
  | assemble {s : ServerRuntime} (type : Msg) (id : PeerId) (hid : id ∈ s.clients) (hstay : ¬ Leaves s₀ i id)
      (asm : Table PeerId BlobAssembly) (h : SameBut id (s.assemblies type) asm)
      (hslots : Slotted s → ∀ a, asm.lookup id = some a → a.Slotted) : Part s₀ i s (s.setAssemblies type asm)
  | store {s : ServerRuntime} (type : Msg) (id : PeerId) (client : Client) (hl : s.clients.lookup id = some client)
      (blob : Bytes) (hblob : Slotted s₀ → blob ≠ []) : Part s₀ i s (storeBlob s type id client blob)
  | pose {s : ServerRuntime} (id : PeerId) (client : Client) (hl : s.clients.lookup id = some client) (pose : PlayerPose) :
      Part s₀ i s { s with
        clients := s.clients.modify id fun c => { c with posesIn := c.posesIn + 1, lastPose := pose, havePose := true }
        players := s.players.insert client.playerKey
          (PlayerRec.follow client.playerKey pose ((s.players.lookup client.playerKey).getD {}))
        dirtyPlayers := s.dirtyPlayers.insert client.playerKey }
  | enter {s : ServerRuntime} (hello : Hello) (ha : Admits s₀ i hello) (hp : s.players = s₀.players)
      (hd : s.dirtyPlayers = s₀.dirtyPlayers) (hj : s.persist = s₀.persist) : Part s₀ i s (enterRecord s hello)
  | join {s : ServerRuntime} (env : Env) (pending : PendingTcp) (hello : Hello) (rec_ : PlayerRec) (t : Time)
      (hnone : findByKey s (helloKey hello) = none) (hkey : rec_.key = helloKey hello)
      (hrec : s.players.lookup (helloKey hello) = some rec_) :
      Part s₀ i s (insertJoining env s pending hello rec_ t)
  | reconnect {s : ServerRuntime} (id : PeerId) (client : Client) (hl : s.clients.lookup id = some client)
      (pending : PendingTcp) (hello : Hello) (hkey : client.playerKey = helloKey hello) (rec_ : PlayerRec)
      (hrec : s.players.lookup (helloKey hello) = some rec_) (token : UInt32) (t : Time) :
      Part s₀ i s { s with
        clients := s.clients.modify id fun c => reconnectedClient pending hello rec_ token t (Client.unbound c) }
  | mark {s : ServerRuntime} (dirty : List Bytes) (h : s.dirtyPlayers ⊆ dirty) : Part s₀ i s { s with dirtyPlayers := dirty }
  | markWorld {s : ServerRuntime} : Part s₀ i s { s with worldDirty := true }
  | erase {s : ServerRuntime} (id : PeerId) (hleave : Leaves s₀ i id) (hnoted : Noted s id) :
      Part s₀ i s { s with clients := s.clients.erase id }
  | flush {s : ServerRuntime} : Part s₀ i s s.flushDirtyAsync
  | bans {s : ServerRuntime} (keys : List Bytes) : Part s₀ i s (persistBansAsync { s with bannedKeys := keys })

abbrev Parts (s₀ : ServerRuntime) (i : Env × Input) : ServerRuntime → ServerRuntime → Prop := Relation.ReflTransGen (Part s₀ i)

variable {s₀ : ServerRuntime} {i : Env × Input} {s s' : ServerRuntime}

/-- What every part keeps, the step keeps. -/
theorem Parts.invariant {I : ServerRuntime → Prop} (h : Parts s₀ i s s') (hpart : ∀ s s', Part s₀ i s s' → I s → I s')
    (hs : I s) : I s' := by
  induction h with
  | refl => exact hs
  | tail _ hp ih => exact hpart _ _ hp ih

def Client.blob (type : Msg) (c : Client) : Bytes := if type = .AppearanceChunk then c.appearance else c.inventory

def PlayerRec.blob (type : Msg) (r : PlayerRec) : Bytes := if type = .AppearanceChunk then r.appearance else r.inventory

/-- A live client of the player or its record holds the blob. -/
def Holds (s : ServerRuntime) (key : Bytes) (type : Msg) (blob : Bytes) : Prop :=
  (∃ id c, s.clients.lookup id = some c ∧ c.playerKey = key ∧ Client.blob type c = blob) ∨
    ∃ r, s.players.lookup key = some r ∧ PlayerRec.blob type r = blob

/-- No blob is new, and no assembly has changed. -/
structure SameBlobs (s s' : ServerRuntime) : Prop where
  holds : ∀ key type blob, Holds s' key type blob → blob = [] ∨ Holds s key type blob
  appearAsm : s'.appearAsm = s.appearAsm
  invAsm : s'.invAsm = s.invAsm

theorem SameBlobs.refl (s : ServerRuntime) : SameBlobs s s := ⟨fun _ _ _ => .inr, rfl, rfl⟩

theorem SameBlobs.trans {s'' : ServerRuntime} (h : SameBlobs s s') (h' : SameBlobs s' s'') : SameBlobs s s'' where
  holds key type blob hb := (h'.holds key type blob hb).elim .inl (h.holds key type blob)
  appearAsm := h'.appearAsm.trans h.appearAsm
  invAsm := h'.invAsm.trans h.invAsm

theorem look_blob {c c' : Client} (h : Client.look c' = Client.look c) :
    c'.playerKey = c.playerKey ∧ ∀ type, Client.blob type c' = Client.blob type c := by
  simp only [Client.look, Prod.mk.injEq] at h
  obtain ⟨-, hkey, -, -, happ, hinv⟩ := h
  refine ⟨hkey, fun type => ?_⟩
  rw [Client.blob, Client.blob, happ, hinv]

theorem holds_of_look (hc : ∀ id c', s'.clients.lookup id = some c' →
    ∃ c, s.clients.lookup id = some c ∧ Client.look c' = Client.look c) (hp : s'.players = s.players) {key : Bytes}
    {type : Msg} {blob : Bytes} (h : Holds s' key type blob) : Holds s key type blob := by
  rcases h with ⟨id, c', hl, hkey, hblob⟩ | ⟨r, hr, hblob⟩
  · obtain ⟨c, hc, hlook⟩ := hc id c' hl
    obtain ⟨hk, hb⟩ := look_blob hlook
    exact .inl ⟨id, c, hc, hk ▸ hkey, hb type ▸ hblob⟩
  · exact .inr ⟨r, hp ▸ hr, hblob⟩

theorem SameBlobs.of_look (hc : ∀ id c', s'.clients.lookup id = some c' →
    ∃ c, s.clients.lookup id = some c ∧ Client.look c' = Client.look c) (hp : s'.players = s.players)
    (ha : s'.appearAsm = s.appearAsm) (hi : s'.invAsm = s.invAsm) : SameBlobs s s' :=
  ⟨fun _ _ _ h => .inr (holds_of_look hc hp h), ha, hi⟩

theorem SameBlobs.of_eq (hc : s'.clients = s.clients) (hp : s'.players = s.players) (ha : s'.appearAsm = s.appearAsm)
    (hi : s'.invAsm = s.invAsm) : SameBlobs s s' :=
  .of_look (fun _ c hl => ⟨c, hc ▸ hl, rfl⟩) hp ha hi

theorem sameBlobs_touch (id : PeerId) (f : Client → Client) (hf : ∀ c, Client.look (f c) = Client.look c) :
    SameBlobs s { s with clients := s.clients.modify id f } := by
  refine .of_look (fun q c' hl => ?_) rfl rfl rfl
  rw [Table.lookup_modify] at hl
  split at hl
  · obtain ⟨c, hc, rfl⟩ := Option.map_eq_some_iff.mp hl
    exact ⟨c, hc, hf c⟩
  · exact ⟨c', hl, rfl⟩

theorem SameBlobs.record (key : Bytes) (r : PlayerRec)
    (hr : ∀ type, PlayerRec.blob type r = [] ∨ Holds s key type (PlayerRec.blob type r)) :
    SameBlobs s { s with players := s.players.insert key r } := by
  refine ⟨?_, rfl, rfl⟩
  rintro k type blob (h | ⟨r', hl, hblob⟩)
  · exact .inr (.inl h)
  · rw [Table.lookup_insert] at hl
    split at hl
    · rename_i hk
      cases hl
      rw [hk, ← hblob]
      exact hr type
    · exact .inr (.inr ⟨r', hl, hblob⟩)

theorem holds_getD (key : Bytes) (type : Msg) : PlayerRec.blob type ((s.players.lookup key).getD {}) = [] ∨
    Holds s key type (PlayerRec.blob type ((s.players.lookup key).getD {})) := by
  cases hr : s.players.lookup key with
  | none => exact .inl (by rw [Option.getD_none, PlayerRec.blob, ite_self])
  | some r => exact .inr (.inr ⟨r, hr, rfl⟩)

theorem SameBlobs.client (id : PeerId) (c : Client)
    (hother : ∀ q c', s'.clients.lookup q = some c' → q ≠ id → s.clients.lookup q = some c')
    (hown : ∀ c', s'.clients.lookup id = some c' → c' = c)
    (hc : ∀ type, Client.blob type c = [] ∨ Holds s c.playerKey type (Client.blob type c)) (hp : s'.players = s.players)
    (ha : s'.appearAsm = s.appearAsm) (hi : s'.invAsm = s.invAsm) : SameBlobs s s' := by
  refine ⟨?_, ha, hi⟩
  rintro key type blob (⟨q, c', hl, hkey, hblob⟩ | ⟨r, hr, hblob⟩)
  · by_cases hq : q = id
    · obtain rfl : c' = c := hown c' (hq ▸ hl)
      rw [← hkey, ← hblob]
      exact hc type
    · exact .inr (.inl ⟨q, c', hother q c' hl hq, hkey, hblob⟩)
  · exact .inr (.inr ⟨r, hp ▸ hr, hblob⟩)

/-- A write of the step that leaves the blobs alone. -/
def CalmPart (s₀ : ServerRuntime) (i : Env × Input) (s s' : ServerRuntime) : Prop := Part s₀ i s s' ∧ SameBlobs s s'

abbrev CalmParts (s₀ : ServerRuntime) (i : Env × Input) : ServerRuntime → ServerRuntime → Prop :=
  Relation.ReflTransGen (CalmPart s₀ i)

theorem CalmParts.parts (h : CalmParts s₀ i s s') : Parts s₀ i s s' := Relation.ReflTransGen.mono (fun _ _ hp => hp.1) _ _ h

theorem CalmParts.sameBlobs (h : CalmParts s₀ i s s') : SameBlobs s s' := by
  induction h with
  | refl => exact .refl s
  | tail _ hp ih => exact ih.trans hp.2

theorem calmPart_aside (h : Aside s s') : CalmPart s₀ i s s' :=
  ⟨.aside h, .of_eq h.clients h.players h.appearAsm h.invAsm⟩

theorem calmPart_touch (id : PeerId) (f : Client → Client) (hf : ∀ c, Client.look (f c) = Client.look c) :
    CalmPart s₀ i s { s with clients := s.clients.modify id f } :=
  ⟨.touch id f hf, sameBlobs_touch id f hf⟩

theorem calmPart_remember (id : PeerId) (client : Client) (hl : s.clients.lookup id = some client) :
    CalmPart s₀ i s { s with players := s.players.insert client.playerKey ((s.players.lookup client.playerKey).getD {}) } :=
  ⟨.remember id client hl, .record _ _ fun type => holds_getD client.playerKey type⟩

theorem calmPart_snapshot (world : SessionWorld) : CalmPart s₀ i s { s with world := world, worldDirty := true } :=
  ⟨.snapshot world, .of_eq rfl rfl rfl rfl⟩

theorem calmPart_host (id : PeerId) : CalmPart s₀ i s { s with world := { s.world with hostPeerId := id } } :=
  ⟨.host id, .of_eq rfl rfl rfl rfl⟩

theorem calmPart_count (id : PeerId) (hid : id ∈ s.clients) (hstay : ¬ Leaves s₀ i id) (hit pose chat blob : RateTable)
    (hhit : SameBut (decimal id.toNat) s.hitRates hit) (hpose : SameBut (decimal id.toNat) s.poseRates pose)
    (hchat : SameBut (decimal id.toNat) s.chatRates chat) (hblob : SameBut (decimal id.toNat) s.blobRates blob) :
    CalmPart s₀ i s { s with hitRates := hit, poseRates := pose, chatRates := chat, blobRates := blob } :=
  ⟨.count id hid hstay hit pose chat blob hhit hpose hchat hblob, .of_eq rfl rfl rfl rfl⟩

theorem calmPart_pose (id : PeerId) (client : Client) (hl : s.clients.lookup id = some client) (pose : PlayerPose) :
    CalmPart s₀ i s { s with
      clients := s.clients.modify id fun c => { c with posesIn := c.posesIn + 1, lastPose := pose, havePose := true }
      players := s.players.insert client.playerKey
        (PlayerRec.follow client.playerKey pose ((s.players.lookup client.playerKey).getD {}))
      dirtyPlayers := s.dirtyPlayers.insert client.playerKey } := by
  refine ⟨.pose id client hl pose, ?_⟩
  have hclient (r : ServerRuntime) : SameBlobs r { r with
      clients := r.clients.modify id fun c => { c with posesIn := c.posesIn + 1, lastPose := pose, havePose := true } } := by
    refine ⟨?_, rfl, rfl⟩
    rintro key type blob (⟨q, c', hl, hkey, hblob⟩ | h)
    · rw [Table.lookup_modify] at hl
      split at hl
      · obtain ⟨c, hc, rfl⟩ := Option.map_eq_some_iff.mp hl
        exact .inr (.inl ⟨q, c, hc, hkey, hblob⟩)
      · exact .inr (.inl ⟨q, c', hl, hkey, hblob⟩)
    · exact .inr (.inr h)
  have hrecord : SameBlobs s { s with
      players := s.players.insert client.playerKey
        (PlayerRec.follow client.playerKey pose ((s.players.lookup client.playerKey).getD {})) } :=
    .record _ _ fun type => holds_getD client.playerKey type
  exact (hrecord.trans (hclient _)).trans (.of_eq rfl rfl rfl rfl)

theorem calmPart_enter (hello : Hello) (ha : Admits s₀ i hello) (hp : s.players = s₀.players)
    (hd : s.dirtyPlayers = s₀.dirtyPlayers) (hj : s.persist = s₀.persist) : CalmPart s₀ i s (enterRecord s hello) := by
  refine ⟨.enter hello ha hp hd hj, ?_⟩
  have hrecord : SameBlobs s { s with players := s.players.insert (helloKey hello) (helloRecord s hello) } :=
    .record _ _ fun type => holds_getD (helloKey hello) type
  exact hrecord.trans (.of_eq rfl rfl rfl rfl)

theorem calmPart_join (env : Env) (pending : PendingTcp) (hello : Hello) (rec_ : PlayerRec) (t : Time)
    (hnone : findByKey s (helloKey hello) = none) (hkey : rec_.key = helloKey hello)
    (hrec : s.players.lookup (helloKey hello) = some rec_) : CalmPart s₀ i s (insertJoining env s pending hello rec_ t) := by
  refine ⟨.join env pending hello rec_ t hnone hkey hrec, ?_⟩
  by_cases hfresh : s.nextPeer ∈ s.clients
  · have hsame : (insertJoining env s pending hello rec_ t).clients = s.clients := by
      rw [insertJoining, Table.emplace_of_mem _ _ hfresh]
    exact .of_eq hsame rfl rfl rfl
  · refine .client s.nextPeer (joiningClient s pending hello rec_ t) (fun q c' hl hq => ?_) (fun c' hl => ?_)
      (fun type => .inr (.inr ⟨rec_, hrec, rfl⟩)) rfl rfl rfl
    · rwa [insertJoining, Table.lookup_emplace _ _ hfresh, if_neg hq] at hl
    · rw [insertJoining, Table.lookup_emplace _ _ hfresh, if_pos rfl] at hl
      exact (Option.some.inj hl).symm

theorem calmPart_reconnect (id : PeerId) (client : Client) (hl : s.clients.lookup id = some client) (pending : PendingTcp)
    (hello : Hello) (hkey : client.playerKey = helloKey hello) (rec_ : PlayerRec)
    (hrec : s.players.lookup (helloKey hello) = some rec_) (token : UInt32) (t : Time) :
    CalmPart s₀ i s { s with
      clients := s.clients.modify id fun c => reconnectedClient pending hello rec_ token t (Client.unbound c) } := by
  refine ⟨.reconnect id client hl pending hello hkey rec_ hrec token t, ?_⟩
  refine .client id (reconnectedClient pending hello rec_ token t (Client.unbound client)) (fun q c' hl' hq => ?_)
    (fun c' hl' => ?_) (fun type => ?_) rfl rfl rfl
  · rwa [Table.lookup_modify_ne _ _ hq] at hl'
  · rw [Table.lookup_modify_self, hl] at hl'
    exact (Option.some.inj hl').symm
  · have hown : Holds s (helloKey hello) type (Client.blob type (Client.unbound client)) :=
      .inl ⟨id, client, hl, hkey, ((look_blob (Client.look_unbound client)).2 type).symm⟩
    have hrecord : Holds s (helloKey hello) type (PlayerRec.blob type rec_) := .inr ⟨rec_, hrec, rfl⟩
    have hblob : Client.blob type (reconnectedClient pending hello rec_ token t (Client.unbound client)) =
        if PlayerRec.blob type rec_ = [] then Client.blob type (Client.unbound client) else PlayerRec.blob type rec_ := by
      unfold Client.blob PlayerRec.blob
      split <;> rfl
    rw [hblob]
    split
    · exact .inr hown
    · exact .inr hrecord

theorem calmPart_mark (dirty : List Bytes) (h : s.dirtyPlayers ⊆ dirty) : CalmPart s₀ i s { s with dirtyPlayers := dirty } :=
  ⟨.mark dirty h, .of_eq rfl rfl rfl rfl⟩

theorem calmPart_markWorld : CalmPart s₀ i s { s with worldDirty := true } := ⟨.markWorld, .of_eq rfl rfl rfl rfl⟩

theorem calmPart_erase (id : PeerId) (hleave : Leaves s₀ i id) (hnoted : Noted s id) :
    CalmPart s₀ i s { s with clients := s.clients.erase id } := by
  refine ⟨.erase id hleave hnoted, .of_look (fun q c' hl => ?_) rfl rfl rfl⟩
  rw [Table.lookup_erase] at hl
  split at hl
  · cases hl
  · exact ⟨c', hl, rfl⟩

theorem calmPart_flush : CalmPart s₀ i s s.flushDirtyAsync := by
  refine ⟨.flush, ?_⟩
  rw [flushDirtyAsync_eq]
  exact .of_eq rfl rfl rfl rfl

theorem calmPart_bans (keys : List Bytes) : CalmPart s₀ i s (persistBansAsync { s with bannedKeys := keys }) :=
  ⟨.bans keys, .of_eq rfl rfl rfl rfl⟩

theorem calm_aside (h : Aside s s') : CalmParts s₀ i s s' := .single (calmPart_aside h)

theorem calm_queue (s : ServerRuntime) (cmds : List OutboundCmd) : CalmParts s₀ i s (s.queue cmds) :=
  calm_aside ⟨rfl, rfl, rfl, rfl, rfl, rfl, rfl, rfl, rfl, rfl, rfl, rfl, rfl⟩

theorem calm_seen (s : ServerRuntime) (id : PeerId) (t : Time) : CalmParts s₀ i s (s.seen id t) :=
  .single (calmPart_touch id (fun c => { c with lastSeen := t }) fun _ => rfl)

theorem calm_unbindUdp (s : ServerRuntime) (id : PeerId) : CalmParts s₀ i s (s.unbindUdp id) := by
  cases h : s.clients.lookup id with
  | none =>
    rw [unbindUdp, h]
  | some client =>
    rw [unbindUdp_eq h]
    have htouch : CalmParts s₀ i s { s with clients := s.clients.modify id Client.unbound } :=
      .single (calmPart_touch id _ Client.look_unbound)
    exact htouch.trans (calm_aside ⟨rfl, rfl, rfl, rfl, rfl, rfl, rfl, rfl, rfl, rfl, rfl, rfl, rfl⟩)

theorem calm_noteDeparture (s : ServerRuntime) (client : Client) : CalmParts s₀ i s (noteDeparture s client) := by
  rw [noteDeparture_eq]
  have hmark : CalmParts s₀ i s { s with
      dirtyPlayers := if client.playerKey ∈ s.players then s.dirtyPlayers.insert client.playerKey else s.dirtyPlayers } := by
    refine .single (calmPart_mark _ fun k hk => ?_)
    split
    · exact List.mem_insert_of_mem hk
    · exact hk
  by_cases hp : client.peerId = s.world.hostPeerId
  · rw [if_pos hp]
    exact hmark.tail (calmPart_host 0)
  · rw [if_neg hp]
    exact hmark

theorem noted_noteDeparture {id : PeerId} {client : Client} (hl : s.clients.lookup id = some client) :
    Noted (noteDeparture s client) id := by
  rw [noteDeparture_eq]
  intro c hc hp
  have he : client = c := Option.some.inj (hl.symm.trans hc)
  rw [← he] at hp ⊢
  dsimp only at hp ⊢
  rw [if_pos hp]
  exact List.mem_insert_self

theorem Noted.unbindUdp {id : PeerId} (h : Noted s id) : Noted (s.unbindUdp id) id := by
  cases hl : s.clients.lookup id with
  | none =>
    rw [ServerRuntime.unbindUdp, hl]
    exact h
  | some client =>
    rw [unbindUdp_eq hl]
    intro c hc
    rw [Table.lookup_modify_self, hl] at hc
    have hkey : c.playerKey = client.playerKey :=
      Option.some.inj hc ▸ (Prod.mk.inj (Prod.mk.inj (Client.look_unbound client)).2).1
    rw [hkey]
    exact h client hl

theorem calm_electHost (s : ServerRuntime) : CalmParts s₀ i s s.electHost := by
  obtain ⟨id, he, -⟩ := findHost_spec s.clients s.world
  rw [electHost, he]
  exact .single (calmPart_host id)

theorem calm_releaseConn (env : Env) (s : ServerRuntime) (id : PeerId) (client : Client) (keepTcp : Bool) :
    CalmParts s₀ i s (releaseConn env s id client keepTcp) := by
  rw [releaseConn_eq]
  exact calm_aside ⟨rfl, rfl, rfl, rfl, rfl, rfl, rfl, rfl, rfl, rfl, rfl, rfl, rfl⟩

theorem calm_removeClient (env : Env) (s : ServerRuntime) {id : PeerId} (hleave : Leaves s₀ i id) (keepTcp : Bool) :
    CalmParts s₀ i s (removeClient env s id keepTcp) := by
  unfold removeClient
  split
  · exact .refl
  · rename_i client hl
    have hnoted : CalmParts s₀ i s (noteDeparture s client) := calm_noteDeparture s client
    have htold := hnoted.trans (calm_queue _ (toOthers (noteDeparture s client).clients id fun other =>
      sendTcp other (makeBye client.peerId).encode))
    have hreleased := (htold.trans (calm_unbindUdp _ id)).trans (calm_releaseConn env _ id client keepTcp)
    have hmarked : Noted (releaseConn env (((noteDeparture s client).queue
        (toOthers (noteDeparture s client).clients id fun other => sendTcp other (makeBye client.peerId).encode)).unbindUdp id)
        id client keepTcp) id := by
      rw [releaseConn_eq]
      exact Noted.unbindUdp (by exact noted_noteDeparture hl)
    have herased := hreleased.tail (calmPart_erase id hleave hmarked)
    exact (herased.trans (calm_electHost _)).tail calmPart_flush

theorem calm_removals (env : Env) (keep : PeerId → Bool) (s : ServerRuntime) {ids : List PeerId}
    (hleave : ∀ id ∈ ids, Leaves s₀ i id) : CalmParts s₀ i s (ids.foldl (fun r id => removeClient env r id (keep id)) s) := by
  induction ids generalizing s with
  | nil => exact .refl
  | cons id ids ih =>
    exact (calm_removeClient env s (hleave id List.mem_cons_self) _).trans
      (ih _ fun id hid => hleave id (List.mem_cons_of_mem _ hid))

theorem calm_persistBans (s : ServerRuntime) (keys : List Bytes) :
    CalmParts s₀ i s (persistBansAsync { s with bannedKeys := keys }) :=
  .single (calmPart_bans keys)

theorem calm_kickClient (s : ServerRuntime) {id : PeerId} (hleave : Leaves s₀ i id) {client : Client}
    (hl : s.clients.lookup id = some client) (doBan : Bool) : CalmParts s₀ i s (kickClient s id client doBan) := by
  unfold kickClient
  have hban : CalmParts s₀ i s (if doBan then banKey s client.playerKey else s) := by
    split
    · exact calm_persistBans s _
    · exact .refl
  have hlive : ((if doBan then banKey s client.playerKey else s).queue
      (sendTcp client (makeBye client.peerId).encode)).clients.lookup id = some client := by
    split <;> exact hl
  have hnoted := (hban.trans (calm_queue _ (sendTcp client (makeBye client.peerId).encode))).trans
    (calm_noteDeparture _ client)
  have hclosed := (hnoted.trans (calm_unbindUdp _ id)).trans (calm_queue _ (closeConn client.connId))
  exact (hclosed.tail (calmPart_erase id hleave (Noted.unbindUdp (noted_noteDeparture hlive)))).trans (calm_electHost _)

theorem calm_helloAgain {id : PeerId} {client : Client} (hl : s.clients.lookup id = some client) :
    CalmParts s₀ i s (helloAgain s id client) := by
  rw [helloAgain_eq hl]
  have htouch : CalmParts s₀ i s { s with
      clients := s.clients.modify id fun c => Client.unbound { c with udpToken := makeUdpToken s.udpToken } } :=
    .single (calmPart_touch id _ fun c => Client.look_retoken c _)
  have hlookup : (s.clients.modify id fun c => Client.unbound { c with udpToken := makeUdpToken s.udpToken }).lookup id =
      some (Client.unbound { client with udpToken := makeUdpToken s.udpToken }) := by
    rw [Table.lookup_modify_self, hl]
    rfl
  have hkey : (Client.unbound { client with udpToken := makeUdpToken s.udpToken }).playerKey = client.playerKey := by
    unfold Client.unbound
    split <;> rfl
  have hrecall := htouch.tail (calmPart_remember id _ hlookup)
  rw [hkey] at hrecall
  exact hrecall.trans (calm_aside ⟨rfl, rfl, rfl, rfl, rfl, rfl, rfl, rfl, rfl, rfl, rfl, rfl, rfl⟩)

theorem sameBut_allowRate {client : Client} {id : PeerId} (hid : client.peerId = id) (rates : RateTable) (t : Time)
    (maxPerSec : ℤ) : SameBut (decimal id.toNat) rates (allowRate rates (rateKey client) t maxPerSec).2 := by
  rw [rateKey, hid]
  exact sameBut_insert _ _ _

theorem sameBut_refl {K V : Type*} [DecidableEq K] (k : K) (m : Table K V) : SameBut k m m := fun _ _ => rfl

theorem slotted_lookup {asm : Table PeerId BlobAssembly} (h : ∀ id a, asm.lookup id = some a → a.Slotted) (id : PeerId) :
    ((asm.lookup id).getD {}).Slotted := by
  cases ha : asm.lookup id with
  | none => rfl
  | some a => exact h id a ha

theorem slotted_takeBlob (now : Time) {a : BlobAssembly} (h : a.Slotted) (buf : Bytes) : (takeBlob now a buf).1.Slotted :=
  takeBlob_fst now a buf ▸ slotted_assembleBlobChunk now h buf

theorem tcpMessage_chunk (env : Env) (s : ServerRuntime) (id : PeerId) (client : Client) {type : Msg} (hchunk : Chunked type)
    (buf : Bytes) (t : Time) :
    tcpMessage env s type id client buf t =
      if sizeofBlobChunk ≤ buf.length then tcpBlobChunk env s type id client buf t else s := by
  rcases hchunk with rfl | rfl <;> rfl

section Rated
variable {id : PeerId} {client : Client} (hl : s.clients.lookup id = some client) (hid : client.peerId = id)
  (hstay : ¬ Leaves s₀ i id)
include hl hid hstay

theorem parts_tcpBlobChunk (hslots : Slotted s₀ → Slotted s) (env : Env) (type : Msg) (buf : Bytes) (t : Time) :
    Parts s₀ i s (tcpBlobChunk env s type id client buf t) := by
  have hlive : id ∈ s.clients := AList.lookup_isSome.mp (by rw [hl]; rfl)
  have hcount : Parts s₀ i s (countChunk s client t) :=
    .single (.count id hlive hstay _ _ _ _ (sameBut_refl _ _) (sameBut_refl _ _) (sameBut_refl _ _)
      (sameBut_allowRate hid _ t 64))
  rcases tcpBlobChunk_cases env s type id client buf t with ⟨-, he⟩ | ⟨a, -, htake, he⟩ | ⟨a, blob, -, htake, he⟩
  · rw [he]
    exact hcount
  · rw [he]
    refine hcount.tail (.assemble type id (by exact hlive) hstay _ ?_ fun h b hb => ?_)
    · rw [hid]
      exact sameBut_insert _ _ _
    · have hslot : (takeBlob env.now (assemblyOf s type client.peerId) buf).1.Slotted :=
        slotted_takeBlob env.now (slotted_lookup (h type) client.peerId) buf
      rw [htake] at hslot
      rw [hid, AList.lookup_insert] at hb
      cases hb
      exact hslot
  · rw [he]
    have herase := hcount.tail (.assemble type id (by exact hlive) hstay ((s.assemblies type).erase client.peerId) (by
      rw [hid]
      exact sameBut_erase _ _) fun _ b hb => by
        rw [hid, AList.lookup_erase] at hb
        cases hb)
    refine herase.tail (.store type id client ?_ blob fun h => ?_)
    · rw [setAssemblies_eq]
      exact hl
    · exact complete_ne_nil (slotted_lookup (hslots h type) client.peerId) (takeBlob_some htake)

theorem calm_tcpChat (buf : Bytes) (t : Time) : CalmParts s₀ i s (tcpChat s client buf t) := by
  have hlive : id ∈ s.clients := AList.lookup_isSome.mp (by rw [hl]; rfl)
  have hcount : CalmParts s₀ i s (countChat s client t) :=
    .single (calmPart_count id hlive hstay _ _ _ _ (sameBut_refl _ _) (sameBut_refl _ _) (sameBut_allowRate hid _ t 4)
      (sameBut_refl _ _))
  rcases tcpChat_cases s client buf t with ⟨-, he⟩ | ⟨-, he⟩
  · rw [he]
    exact hcount
  · rw [he]
    exact hcount.trans (calm_queue _ _)

theorem calm_tcpHit (buf : Bytes) (t : Time) : CalmParts s₀ i s (tcpHit s client buf t) := by
  have hlive : id ∈ s.clients := AList.lookup_isSome.mp (by rw [hl]; rfl)
  have hcount : CalmParts s₀ i s (countHit s client t) :=
    .single (calmPart_count id hlive hstay _ _ _ _ (sameBut_allowRate hid _ t 24) (sameBut_refl _ _) (sameBut_refl _ _)
      (sameBut_refl _ _))
  rcases tcpHit_cases s client buf t with he | he | ⟨hit, -, -, -, -, -, -, he⟩
  · rw [he]
  · rw [he]
    exact hcount
  · rw [he]
    exact hcount.trans (calm_queue _ _)

theorem calm_udpPlayerPose (buf : Bytes) (t : Time) : CalmParts s₀ i s (udpPlayerPose s id client buf t) := by
  have hlive : id ∈ s.clients := AList.lookup_isSome.mp (by rw [hl]; rfl)
  have hcount : CalmParts s₀ i s (countPose s client t) :=
    .single (calmPart_count id hlive hstay _ _ _ _ (sameBut_refl _ _) (sameBut_allowRate hid _ t 30) (sameBut_refl _ _)
      (sameBut_refl _ _))
  have hpose := hcount.tail (calmPart_pose id client (by exact hl) (relayedPose client buf))
  rcases udpPlayerPose_cases s id client buf t with ⟨-, he⟩ | ⟨-, _, ⟨-, he⟩ | ⟨-, world, -, he⟩⟩
  · rw [he]
    exact hcount
  · rw [he]
    exact hpose.trans (calm_queue _ _)
  · rw [he]
    exact (hpose.tail (calmPart_snapshot world)).trans (calm_queue _ _)

theorem calm_tcpMessage (env : Env) {type : Msg} (hb : type ≠ .Bye) (hchunk : ¬ Chunked type) (buf : Bytes) (t : Time) :
    CalmParts s₀ i s (tcpMessage env s type id client buf t) := by
  apply tcpMessage_cases (P := CalmParts s₀ i s)
  case unhandled => exact .refl
  case bye => exact fun h => absurd h hb
  case hello => exact fun _ => calm_helloAgain hl
  case snapshot =>
    intro _
    rcases tcpWorldSnapshot_cases s client buf with ⟨-, he⟩ | ⟨-, world, -, he⟩
    · rw [he]
    · rw [he]
      exact .single (calmPart_snapshot world)
  case chunk => exact fun h => absurd h hchunk
  case heartbeat => exact fun _ => calm_queue _ _
  case chat => exact fun _ => calm_tcpChat hl hid hstay buf t
  case kick =>
    intro _
    rcases tcpKick_cases s client buf with he | ⟨other, -, -, he⟩
    · rw [he]
    · rw [he]
      exact calm_queue _ _
  case teleport =>
    intro _
    rcases tcpTeleport_cases s client buf with he | ⟨other, -, -, he⟩
    · rw [he]
    · rw [he]
      exact calm_queue _ _
  case hit => exact fun _ => calm_tcpHit hl hid hstay buf t

theorem parts_tcpMessage (hslots : Slotted s₀ → Slotted s) (env : Env) {type : Msg} (hb : type ≠ .Bye) (buf : Bytes) (t : Time) :
    Parts s₀ i s (tcpMessage env s type id client buf t) := by
  by_cases hchunk : Chunked type
  · rw [tcpMessage_chunk env s id client hchunk]
    split
    · exact parts_tcpBlobChunk hl hid hstay hslots env type buf t
    · exact .refl
  · exact (calm_tcpMessage hl hid hstay env hb hchunk buf t).parts

end Rated

theorem not_leaves_of_frame {ev : InboundEvent} {t : Time} {id : PeerId} {client : Client} (hs : ClientStep s₀ i.2 ev t id client)
    (hb : ∀ header, openFrame ev.bytes ≠ some (header, .Bye)) (p : PeerId) : ¬ Leaves s₀ i p := by
  rintro ⟨keep, hm⟩
  generalize hmv : SessionTable.Move.leave p keep = m at hm
  cases cause_of_mem hm with
  | bye id' ev' t' client' header hs' ho =>
    rw [hs.input] at hs'
    cases hs'.input
    exact hb header ho
  | closed id' ev' t' hi hk hc =>
    rw [hs.input] at hi
    cases hi
    rw [hs.kind] at hk
    cases hk
  | expired id' t' hi hm =>
    rw [hs.input] at hi
    cases hi
  | kicked id' cmdLine hi hk =>
    rw [hs.input] at hi
    cases hi
  | _ => cases hmv

theorem leaves_of_bye {ev : InboundEvent} {t : Time} {id : PeerId} {client : Client} (hs : ClientStep s₀ i.2 ev t id client)
    {header : Header} (ho : openFrame ev.bytes = some (header, .Bye)) : Leaves s₀ i id := by
  refine ⟨true, ?_⟩
  rw [hs.input]
  simp only [moves, hs.kind, frameMoves, hs.target, clientMoves, ho]
  exact List.mem_singleton.mpr rfl

/-- A frame of a client that is no Bye is its message, between writes that leave the blobs alone. -/
theorem relates_handleClientFrame {R : ServerRuntime → ServerRuntime → Prop} (hcalm : ∀ {a b}, CalmParts s₀ i a b → R a b)
    (htrans : ∀ {a b c}, R a b → R b c → R a c) (hk : Keyed s₀.clients) {ev : InboundEvent} {t : Time} {id : PeerId}
    {client : Client} (hl : s₀.clients.lookup id = some client) (hb : ∀ header, openFrame ev.bytes ≠ some (header, .Bye))
    (hmsg : ∀ header type, openFrame ev.bytes = some (header, type) →
      R (ServerRuntime.seen { s₀ with removePeers := [], keepTcpPeers := [] } id t)
        (tcpMessage i.1 (ServerRuntime.seen { s₀ with removePeers := [], keepTcpPeers := [] } id t) type id
          { client with lastSeen := t } ev.bytes t)) :
    R s₀ (handleClientFrame i.1 s₀ id client ev.bytes t) := by
  have hnone : CalmParts s₀ i s₀ { s₀ with removePeers := [], keepTcpPeers := [] } :=
    calm_aside ⟨rfl, rfl, rfl, rfl, rfl, rfl, rfl, rfl, rfl, rfl, rfl, rfl, rfl⟩
  have hr := (handleTcpMessage_simulates i.1 (s := { s₀ with removePeers := [], keepTcpPeers := [] }) hk hl ev.bytes t hb).2
  have hall : R s₀ (handleTcpMessage i.1 { s₀ with removePeers := [], keepTcpPeers := [] } id client ev.bytes t) := by
    unfold handleTcpMessage
    cases ho : openFrame ev.bytes with
    | none =>
      exact hcalm (hnone.trans (calm_aside ⟨rfl, rfl, rfl, rfl, rfl, rfl, rfl, rfl, rfl, rfl, rfl, rfl, rfl⟩))
    | some frame =>
      obtain ⟨header, type⟩ := frame
      dsimp only
      split
      · exact hcalm hnone
      · exact htrans (hcalm (hnone.trans (calm_seen _ id t))) (hmsg header type ho)
  unfold handleClientFrame
  dsimp only
  rw [hr]
  exact htrans hall (hcalm (calm_aside ⟨rfl, rfl, rfl, rfl, rfl, rfl, rfl, rfl, rfl, rfl, rfl, rfl, rfl⟩))

theorem calm_byeFrame (hk : Keyed s₀.clients) {ev : InboundEvent} {t : Time} {id : PeerId} {client : Client}
    (hs : ClientStep s₀ i.2 ev t id client) {header : Header} (ho : openFrame ev.bytes = some (header, .Bye)) :
    CalmParts s₀ i s₀ (handleClientFrame i.1 s₀ id client ev.bytes t) := by
  have hid := hk id client (frameTarget_client hs.target)
  have hnone : CalmParts s₀ i s₀ { s₀ with removePeers := [], keepTcpPeers := [] } :=
    calm_aside ⟨rfl, rfl, rfl, rfl, rfl, rfl, rfl, rfl, rfl, rfl, rfl, rfl, rfl⟩
  unfold handleClientFrame
  dsimp only
  rw [handleTcpMessage_bye i.1 _ id client ho, hid]
  have hseen : CalmParts s₀ i s₀ { ServerRuntime.seen { s₀ with removePeers := [], keepTcpPeers := [] } id t with
      removePeers := [id], keepTcpPeers := [id] } :=
    (hnone.trans (calm_seen _ id t)).trans
      (calm_aside ⟨rfl, rfl, rfl, rfl, rfl, rfl, rfl, rfl, rfl, rfl, rfl, rfl, rfl⟩)
  have hgone := hseen.trans (calm_removeClient i.1 _ (leaves_of_bye hs ho) ([id].contains id))
  exact hgone.trans (calm_aside ⟨rfl, rfl, rfl, rfl, rfl, rfl, rfl, rfl, rfl, rfl, rfl, rfl, rfl⟩)

/-- The input hands a chunk of a blob to the handler of its client. -/
def HandsChunk (s₀ : ServerRuntime) (i : Env × Input) : Prop :=
  ∃ ev t id client header type, ClientStep s₀ i.2 ev t id client ∧ openFrame ev.bytes = some (header, type) ∧ Chunked type

theorem calm_handleClientFrame (hk : Keyed s₀.clients) {ev : InboundEvent} {t : Time} {id : PeerId} {client : Client}
    (hs : ClientStep s₀ i.2 ev t id client) (hno : ¬ HandsChunk s₀ i) :
    CalmParts s₀ i s₀ (handleClientFrame i.1 s₀ id client ev.bytes t) := by
  have hl := frameTarget_client hs.target
  by_cases hb : ∀ header, openFrame ev.bytes ≠ some (header, .Bye)
  · refine relates_handleClientFrame (fun h => h) Relation.ReflTransGen.trans hk hl hb fun header type ho => ?_
    refine calm_tcpMessage ?_ ?_ (not_leaves_of_frame hs hb id) i.1 ?_ ?_ ev.bytes t
    · exact lookup_seen hl t
    · exact hk id client hl
    · rintro rfl
      exact hb header ho
    · exact fun hchunk => hno ⟨ev, t, id, client, header, type, hs, ho, hchunk⟩
  · push Not at hb
    obtain ⟨header, ho⟩ := hb
    exact calm_byeFrame hk hs ho

theorem parts_handleClientFrame (hk : Keyed s₀.clients) {ev : InboundEvent} {t : Time} {id : PeerId} {client : Client}
    (hs : ClientStep s₀ i.2 ev t id client) : Parts s₀ i s₀ (handleClientFrame i.1 s₀ id client ev.bytes t) := by
  have hl := frameTarget_client hs.target
  by_cases hb : ∀ header, openFrame ev.bytes ≠ some (header, .Bye)
  · refine relates_handleClientFrame CalmParts.parts Relation.ReflTransGen.trans hk hl hb fun header type ho => ?_
    refine parts_tcpMessage ?_ ?_ (not_leaves_of_frame hs hb id) ?_ i.1 ?_ ev.bytes t
    · exact lookup_seen hl t
    · exact hk id client hl
    · exact fun h => h
    · rintro rfl
      exact hb header ho
  · push Not at hb
    obtain ⟨header, ho⟩ := hb
    exact (calm_byeFrame hk hs ho).parts

theorem calm_snapshot (s : ServerRuntime) (world : SessionWorld) (hash : UInt32) :
    CalmParts s₀ i s { s with world := world, worldDirty := true, sessionModHash := hash } := by
  have hsnap : CalmParts s₀ i s { s with world := world, worldDirty := true } := .single (calmPart_snapshot world)
  exact hsnap.trans (calm_aside ⟨rfl, rfl, rfl, rfl, rfl, rfl, rfl, rfl, rfl, rfl, rfl, rfl, rfl⟩)

theorem calm_completeJoin (s : ServerRuntime) (id : PeerId) (hello : Hello) (rec_ : PlayerRec) :
    CalmParts s₀ i s (completeJoin s id hello rec_) := by
  unfold completeJoin
  split
  · exact .refl
  · rename_i joined _
    have hadopt : CalmParts s₀ i s (adoptHostWorld s joined hello) := by
      unfold adoptHostWorld
      split
      · exact calm_snapshot s _ _
      · exact .refl
    exact hadopt.trans (calm_queue _ _)

theorem calm_takeHost (s : ServerRuntime) (id : PeerId) : CalmParts s₀ i s (takeHost s id) := .single (calmPart_host _)

theorem calm_handlePendingFrame (hk : Keyed s₀.clients) (hok : Ok s₀.sessions) {ev : InboundEvent} {t : Time}
    {pending : PendingTcp} (hs : PendingStep s₀ i.2 ev t pending) :
    CalmParts s₀ i s₀ (handlePendingFrame i.1 s₀ pending ev.bytes t) := by
  have hmsg : CalmParts s₀ i s₀ (handlePendingMessage i.1 s₀ pending ev.bytes t).runtime := by
    rcases handlePendingMessage_cases i.1 hk hok pending ev.bytes t with hu | ⟨header, ha, he⟩
    · rw [hu.runtime]
      exact calm_aside ⟨rfl, rfl, rfl, rfl, rfl, rfl, rfl, rfl, rfl, rfl, rfl, rfl, rfl⟩
    · rw [he]
      have hcount : CalmParts s₀ i s₀ (s₀.countHello pending t) :=
        calm_aside ⟨rfl, rfl, rfl, rfl, rfl, rfl, rfl, rfl, rfl, rfl, rfl, rfl, rfl⟩
      have henter : CalmParts s₀ i s₀ (enterRecord (s₀.countHello pending t) (readHello ev.bytes)) :=
        hcount.tail (calmPart_enter _ ⟨ev, t, pending, header, hs, ha, he, rfl⟩ rfl rfl rfl)
      have hrec : (enterRecord (s₀.countHello pending t) (readHello ev.bytes)).players.lookup (helloKey (readHello ev.bytes)) =
          some (helloRecord (s₀.countHello pending t) (readHello ev.bytes)) := AList.lookup_insert _
      cases hf : findByKey (s₀.countHello pending t) (helloKey (readHello ev.bytes)) with
      | some e =>
        obtain ⟨id, client⟩ := e
        obtain ⟨hl, hkey⟩ := findByKey_some hf
        rw [admitHello_reconnect i.1 hf]
        refine Relation.ReflTransGen.trans ?_ (calm_completeJoin _ id _ _)
        rw [softReconnect_eq (s := enterRecord (s₀.countHello pending t) (readHello ev.bytes)) hl]
        have hmoved := henter.tail (calmPart_reconnect id client (by exact hl) pending _ hkey _ hrec
          (makeUdpToken (enterRecord (s₀.countHello pending t) (readHello ev.bytes)).udpToken) t)
        exact hmoved.trans (calm_aside ⟨rfl, rfl, rfl, rfl, rfl, rfl, rfl, rfl, rfl, rfl, rfl, rfl, rfl⟩)
      | none =>
        have hhost : helloRequiresHost (readHello ev.bytes) = true → (s₀.countHello pending t).world.hostPeerId ≠ 0 :=
          fun hr => hostGate_hostPeerId (ha.host hr)
        rw [admitHello_join i.1 hf hhost]
        have hjoined := henter.tail (calmPart_join i.1 pending (readHello ev.bytes) _ t (by exact hf) rfl hrec)
        exact ((hjoined.trans (calm_takeHost _ _)).trans (calm_queue _ _)).trans (calm_completeJoin _ _ _ _)
  unfold handlePendingFrame
  dsimp only
  split
  · exact hmsg.trans (calm_aside ⟨rfl, rfl, rfl, rfl, rfl, rfl, rfl, rfl, rfl, rfl, rfl, rfl, rfl⟩)
  · exact hmsg

theorem not_leaves_of_datagram {ev : InboundEvent} {t : Time} (hi : i.2 = .inbound ev t) (hk : ev.kind = .UdpDatagram)
    (p : PeerId) : ¬ Leaves s₀ i p := by
  rintro ⟨keep, hm⟩
  rw [hi] at hm
  simp only [moves, hk] at hm
  obtain ⟨id, -, he⟩ := List.mem_map.mp hm
  cases he

theorem calm_udpBind (buf : Bytes) (from_ : SockAddr) (t : Time) : CalmParts s₀ i s (udpBind s buf from_ t) := by
  unfold udpBind
  dsimp only
  split
  · exact .refl
  · split
    · exact .refl
    · have hunbound : CalmParts s₀ i s (s.unbindUdp (UdpBind.decode buf).peerId) := calm_unbindUdp s _
      have htouch := hunbound.tail
        (calmPart_touch (UdpBind.decode buf).peerId (fun c => { c with udpAddr := from_, udpBound := true, lastSeen := t })
          fun _ => rfl)
      refine (htouch.trans (calm_aside ?_)).trans (calm_queue _ _)
      exact ⟨rfl, rfl, rfl, rfl, rfl, rfl, rfl, rfl, rfl, rfl, rfl, rfl, rfl⟩

theorem calm_handleUdpPacket (hk : Keyed s₀.clients) (hok : Ok s₀.sessions) {ev : InboundEvent} {t : Time}
    (hi : i.2 = .inbound ev t) (hkind : ev.kind = .UdpDatagram) :
    CalmParts s₀ i s₀ (handleUdpPacket s₀ ev.bytes ev.addr t) := by
  have hcount : CalmParts s₀ i s₀ s₀.countDatagram :=
    calm_aside ⟨rfl, rfl, rfl, rfl, rfl, rfl, rfl, rfl, rfl, rfl, rfl, rfl, rfl⟩
  have hcase := handleUdpPacket_cases hok ev.bytes ev.addr t
  generalize handleUdpPacket s₀ ev.bytes ev.addr t = s' at hcase ⊢
  cases hcase with
  | bind id ha => exact hcount.trans (calm_udpBind _ _ t)
  | ignored badHeaders ha =>
    exact hcount.trans (calm_aside ⟨rfl, rfl, rfl, rfl, rfl, rfl, rfl, rfl, rfl, rfl, rfl, rfl, rfl⟩)
  | short id client ha hu hl => exact hcount.trans (calm_seen _ id t)
  | playerPose id client header ha hu hl ho =>
    refine (hcount.trans (calm_seen _ id t)).trans (calm_udpPlayerPose ?_ ?_ (not_leaves_of_datagram hi hkind id) _ t)
    · exact lookup_seen (s := s₀.countDatagram) hl t
    · exact hk id client hl
  | actorPose id client header ha hu hl ho =>
    refine (hcount.trans (calm_seen _ id t)).trans ?_
    rcases udpActorPose_cases (s₀.countDatagram.seen id t) { client with lastSeen := t } ev.bytes with he | ⟨_, -, he⟩
    · rw [he]
    · rw [he]
      exact calm_queue _ _

theorem calm_tcpClosed (hk : Keyed s₀.clients) {ev : InboundEvent} {t : Time} (hi : i.2 = .inbound ev t)
    (hkind : ev.kind = .TcpClosed) : CalmParts s₀ i s₀ (applyInbound i.1 s₀ ev t) := by
  have hleave : ∀ id, closedPeer s₀ ev = some id → Leaves s₀ i id := by
    intro id hc
    refine ⟨false, ?_⟩
    rw [hi]
    simp only [moves, hkind, hc]
    exact List.mem_cons_of_mem _ (List.mem_singleton.mpr rfl)
  have hfilter : CalmParts s₀ i s₀ { s₀ with pendingTcp := s₀.pendingTcp.filter fun p => p.connId ≠ ev.connId } :=
    calm_aside ⟨rfl, rfl, rfl, rfl, rfl, rfl, rfl, rfl, rfl, rfl, rfl, rfl, rfl⟩
  unfold applyInbound
  rw [hkind]
  dsimp only
  by_cases hp : ev.peerId ≠ 0
  · rw [if_pos hp]
    exact hfilter.trans (calm_removeClient _ _ (hleave _ (if_pos hp)) false)
  · rw [if_neg hp]
    have hclosed : closedPeer s₀ ev = (findByConn s₀ ev.connId).map (·.1) := if_neg hp
    cases hc : findByConn s₀ ev.connId with
    | none =>
      rw [show findByConn { s₀ with pendingTcp := s₀.pendingTcp.filter fun p => p.connId ≠ ev.connId } ev.connId = none from hc]
      exact hfilter
    | some e =>
      obtain ⟨id, client⟩ := e
      rw [show findByConn { s₀ with pendingTcp := s₀.pendingTcp.filter fun p => p.connId ≠ ev.connId } ev.connId =
        some ⟨id, client⟩ from hc]
      have hid : client.peerId = id := hk id client (findByConn_some hc).1
      rw [hc] at hclosed
      dsimp only
      rw [hid]
      exact (hfilter.tail (calmPart_touch id (fun c => { c with connId := 0 }) fun _ => rfl)).trans
        (calm_removeClient _ _ (hleave id hclosed) false)

theorem calm_broadcast (s : ServerRuntime) (cfg : ServerConfig) (hash : UInt32) :
    CalmParts s₀ i s (broadcastSessionRules { s with cfg := cfg, sessionModHash := hash }) := by
  have hcfg : CalmParts s₀ i s { s with cfg := cfg, sessionModHash := hash } :=
    calm_aside ⟨rfl, rfl, rfl, rfl, rfl, rfl, rfl, rfl, rfl, rfl, rfl, rfl, rfl⟩
  exact hcfg.trans (calm_queue _ _)

theorem calm_adminSave (s : ServerRuntime) : CalmParts s₀ i s (adminSave s) := by
  have hsub : ∀ (l : List Client) (dirty : List Bytes), dirty ⊆ l.foldl (fun dirty client => dirty.insert client.playerKey) dirty := by
    intro l
    induction l with
    | nil => exact fun dirty => List.Subset.refl dirty
    | cons client l ih => exact fun dirty k hk => ih _ (List.mem_insert_of_mem hk)
  have hmark : CalmParts s₀ i s { s with
      dirtyPlayers := s.clients.values.foldl (fun dirty client => dirty.insert client.playerKey) s.dirtyPlayers } :=
    .single (calmPart_mark _ (hsub _ _))
  exact (hmark.tail calmPart_markWorld).tail calmPart_flush

theorem calm_runAdminCommand {cmdLine : Bytes} (hi : i.2 = .admin cmdLine) :
    CalmParts s₀ i s₀ (runAdminCommand i.1 s₀ cmdLine) := by
  apply adminLine_cases (P := CalmParts s₀ i s₀)
  case ignored => exact .refl
  case kick =>
    intro word arg rest hw hkick id client doBan hf hl
    have htarget : kickTarget s₀ cmdLine = (findKickTarget s₀ arg).map (·.1) := by
      rw [kickTarget, hw]
      exact if_pos hkick
    refine calm_kickClient s₀ ⟨false, ?_⟩ hl doBan
    rw [hi]
    simp only [moves, htarget, hf]
    exact List.mem_singleton.mpr rfl
  case say => exact fun _ _ _ _ _ => calm_queue _ _
  case save => exact calm_adminSave s₀
  case reload => exact fun _ _ => calm_broadcast s₀ _ _
  case rules => exact fun _ _ => calm_broadcast s₀ _ s₀.sessionModHash
  case quit => exact calm_aside ⟨rfl, rfl, rfl, rfl, rfl, rfl, rfl, rfl, rfl, rfl, rfl, rfl, rfl⟩
  case settings => exact fun _ _ => calm_aside ⟨rfl, rfl, rfl, rfl, rfl, rfl, rfl, rfl, rfl, rfl, rfl, rfl, rfl⟩
  case ban => exact fun _ => calm_persistBans s₀ _
  case unban => exact fun _ => calm_persistBans s₀ _

theorem Part.slotted (hp : Part s₀ i s s') (h : Slotted s) : Slotted s' := by
  have set : ∀ {type : Msg} {asm : Table PeerId BlobAssembly}, (∀ id a, asm.lookup id = some a → a.Slotted) →
      Slotted (s.setAssemblies type asm) := by
    intro type asm hasm type'
    by_cases ht : type = .AppearanceChunk <;> by_cases ht' : type' = .AppearanceChunk <;>
      simp only [setAssemblies, assemblies, ht, ht', if_true, if_false]
    · exact hasm
    · simpa [assemblies, ht'] using h type'
    · simpa [assemblies] using h .AppearanceChunk
    · exact hasm
  cases hp with
  | aside ha =>
    intro type
    unfold assemblies
    rw [ha.appearAsm, ha.invAsm]
    exact h type
  | assemble type id hid hstay asm hs hslots =>
    refine set fun q a hq => ?_
    by_cases hqi : q = id
    · exact hslots h a (hqi ▸ hq)
    · exact h type q a (hs q hqi ▸ hq)
  | flush =>
    rw [flushDirtyAsync_eq]
    exact h
  | _ => exact h

theorem handle_calm (hk : Keyed s₀.clients) (hok : Ok s₀.sessions) (hno : ¬ HandsChunk s₀ i) :
    CalmParts s₀ i s₀ (handle i.1 s₀ i.2) := by
  cases hi : i.2 with
  | inbound ev t =>
    unfold handle
    dsimp only
    cases hev : ev.kind with
    | TcpAccept =>
      simp only [applyInbound, hev]
      exact calm_aside ⟨rfl, rfl, rfl, rfl, rfl, rfl, rfl, rfl, rfl, rfl, rfl, rfl, rfl⟩
    | TcpFrame =>
      simp only [applyInbound, hev]
      cases hf : frameTarget s₀ ev with
      | client id client => exact calm_handleClientFrame hk ⟨hi, hev, hf⟩ hno
      | pending p => exact calm_handlePendingFrame hk hok ⟨hi, hev, hf⟩
      | nobody => exact .refl
    | TcpClosed => exact calm_tcpClosed hk hi hev
    | UdpDatagram =>
      simp only [applyInbound, hev]
      exact calm_handleUdpPacket hk hok hi hev
  | expirePending t => exact calm_aside ⟨rfl, rfl, rfl, rfl, rfl, rfl, rfl, rfl, rfl, rfl, rfl, rfl, rfl⟩
  | expireClients t =>
    refine calm_removals i.1 (fun _ => false) s₀ fun id hid => ⟨false, ?_⟩
    rw [hi]
    exact List.mem_map.mpr ⟨id, hid, rfl⟩
  | sendHeartbeat => exact calm_queue _ _
  | flushDirty => exact .single calmPart_flush
  | admin cmdLine => exact calm_runAdminCommand hi

theorem handle_client {ev : InboundEvent} {t : Time} {id : PeerId} {client : Client} (hs : ClientStep s₀ i.2 ev t id client) :
    handle i.1 s₀ i.2 = handleClientFrame i.1 s₀ id client ev.bytes t := by
  rw [hs.input]
  simp only [handle, applyInbound, hs.kind, hs.target]

theorem handle_parts (hk : Keyed s₀.clients) (hok : Ok s₀.sessions) : Parts s₀ i s₀ (handle i.1 s₀ i.2) := by
  by_cases hchunk : HandsChunk s₀ i
  · obtain ⟨ev, t, id, client, header, type, hs, -, -⟩ := hchunk
    rw [handle_client hs]
    exact parts_handleClientFrame hk hs
  · exact (handle_calm hk hok hchunk).parts

theorem step_calm (hw : WellFormed s) (hno : ¬ HandsChunk s.ready i) : CalmParts s.ready i s.ready (s.step i) :=
  handle_calm hw.keyed hw.ok hno

/-- A step is made of parts. -/
theorem step_parts (hw : WellFormed s) (i : Env × Input) : Parts s.ready i s.ready (s.step i) :=
  handle_parts hw.keyed hw.ok

theorem not_leaves_of_pending {ev : InboundEvent} {t : Time} {pending : PendingTcp} (hs : PendingStep s₀ i.2 ev t pending)
    (p : PeerId) : ¬ Leaves s₀ i p := by
  rintro ⟨keep, hl⟩
  rw [hs.input] at hl
  simp only [moves, hs.kind, frameMoves, hs.target, pendingMoves] at hl
  split at hl
  · cases List.mem_singleton.mp hl
  · cases List.mem_singleton.mp hl
  · split at hl
    · cases List.mem_singleton.mp hl
    · cases hl

/-- A step that removes a client gives no session a token. -/
theorem not_renews_of_leaves {p : PeerId} (h : Leaves s₀ i p) {m : Move} (hm : m ∈ moves i.1 s₀ i.2) (q : PeerId) :
    ¬ Renews q m := by
  intro hr
  cases cause_of_mem hm with
  | join id ev t pending fresh hs hx => exact not_leaves_of_pending hs p h
  | reconnect id ev t pending hs hx => exact not_leaves_of_pending hs p h
  | retoken id ev t client header hs ho hn =>
    exact not_leaves_of_frame hs (fun header' hb => by rw [ho] at hb; cases hb) p h
  | _ => exact hr

theorem not_mem_of_leaves (hw : WellFormed s) {p : PeerId} (h : Leaves s.ready i p) : p ∉ (s.step i).clients := by
  have hgone : (s.step i).sessions.live p = none :=
    (step_simulates hw i).steps.left h.choose_spec fun m hm => not_renews_of_leaves h hm p
  exact AList.lookup_eq_none.mp (liveOf_eq_none.mp hgone)

end ServerRuntime
end CommonwealthMP
