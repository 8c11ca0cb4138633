import CommonwealthMP.ChunkArrivals
import CommonwealthMP.PersistThreads

/-! # Blobs that the server stores

What the server holds, saves and relays for a player was loaded at the start, or has been completed by a chunk of the
player's client. When the chunks of two of the client's blobs do not meet in an assembly, it is one of the blobs. -/
namespace CommonwealthMP
open ByteLayout OrderedTables StepRuns
namespace ServerRuntime

structure HandedChunk where
  peer : PeerId
  client : Client
  type : Msg
  arrival : Arrival

def chunkOf (s : ServerRuntime) (i : Env × Input) : Option HandedChunk :=
  match i.2 with
  | .inbound ev t =>
    if ev.kind = .TcpFrame then
      match frameTarget s.ready ev with
      | .client id client =>
        (openFrame ev.bytes).bind fun frame =>
          if Chunked frame.2 then
            some { peer := id, client := client, type := frame.2,
                   arrival := { now := i.1.now, bytes := ev.bytes, passed := passesLimit s client t } }
          else none
      | _ => none
    else none
  | _ => none

variable {s : ServerRuntime} {i : Env × Input} {c : HandedChunk}

theorem chunkOf_eq_some (h : chunkOf s i = some c) : ∃ ev t header, ClientStep s.ready i.2 ev t c.peer c.client ∧
    openFrame ev.bytes = some (header, c.type) ∧ Chunked c.type ∧
    c.arrival = { now := i.1.now, bytes := ev.bytes, passed := passesLimit s c.client t } := by
  obtain ⟨env, input⟩ := i
  cases input with
  | inbound ev t =>
    unfold chunkOf at h
    dsimp only at h
    split at h
    · rename_i hkind
      split at h
      · rename_i id client htarget
        obtain ⟨⟨header, type⟩, ho, hc⟩ := Option.bind_eq_some_iff.mp h
        dsimp only at hc
        split at hc
        · rename_i hchunked
          cases hc
          exact ⟨ev, t, header, ⟨rfl, hkind, htarget⟩, ho, hchunked, rfl⟩
        · cases hc
      · cases h
    · cases h
  | _ => cases h

theorem chunkOf_of_step {ev : InboundEvent} {t : Time} {id : PeerId} {client : Client} {header : Header} {type : Msg}
    (hs : ClientStep s.ready i.2 ev t id client) (ho : openFrame ev.bytes = some (header, type)) (hc : Chunked type) :
    chunkOf s i = some { peer := id, client := client, type := type,
                         arrival := { now := i.1.now, bytes := ev.bytes, passed := passesLimit s client t } } := by
  obtain ⟨env, input⟩ := i
  obtain ⟨rfl, hkind, htarget⟩ := hs
  simp [chunkOf, hkind, htarget, ho, hc]

theorem not_handsChunk (h : chunkOf s i = none) : ¬ HandsChunk s.ready i := by
  rintro ⟨ev, t, id, client, header, type, hs, ho, hc⟩
  rw [chunkOf_of_step hs ho hc] at h
  cases h

/-- The frame of a chunk is long enough for the chunk's header. -/
theorem sizeofBlobChunk_le {buf : Bytes} {header : Header} {type : Msg} (ho : openFrame buf = some (header, type))
    (hc : Chunked type) : sizeofBlobChunk ≤ buf.length := by
  obtain ⟨-, -, hsize, hexpected⟩ := openFrame_spec ho
  have hmin : 24 ≤ header.size.toNat := by
    rcases hc with rfl | rfl <;> exact of_decide_eq_true hexpected
  exact hmin.trans hsize

def chunkStart (s : ServerRuntime) (id : PeerId) (t : Time) : ServerRuntime :=
  ServerRuntime.seen { s.ready with removePeers := [], keepTcpPeers := [] } id t

theorem step_chunk (hw : WellFormed s) (h : chunkOf s i = some c) : ∃ t,
    c.arrival.passed = passesLimit s c.client t ∧ c.arrival.now = i.1.now ∧
      (∀ type, c.arrival.reaches type = (c.arrival.passed && decide (c.type = type))) ∧ Chunked c.type ∧
      s.clients.lookup c.peer = some c.client ∧
      s.step i = {
        tcpBlobChunk i.1 (chunkStart s c.peer t) c.type c.peer { c.client with lastSeen := t } c.arrival.bytes t with
        removePeers := []
        keepTcpPeers := [] } := by
  obtain ⟨ev, t, header, hs, ho, hc, ha⟩ := chunkOf_eq_some h
  have hl : s.clients.lookup c.peer = some c.client := frameTarget_client hs.target
  refine ⟨t, congrArg Arrival.passed ha, congrArg Arrival.now ha, fun type => ?_, hc, hl, ?_⟩
  · rw [Arrival.reaches, ha]
    simp [ho]
  · have hb : ∀ header, openFrame ev.bytes ≠ some (header, .Bye) := by
      intro header' hbye
      rw [ho] at hbye
      have htype : c.type = .Bye := (Prod.mk.inj (Option.some.inj hbye)).2
      rw [htype] at hc
      rcases hc with hc | hc <;> cases hc
    have htcp : msgIsTcp c.type = true := by rcases hc with hc | hc <;> rw [hc] <;> rfl
    have hr := (handleTcpMessage_simulates i.1 (s := { s.ready with removePeers := [], keepTcpPeers := [] }) hw.keyed hl
      ev.bytes t hb).2
    have hmsg : handleTcpMessage i.1 { s.ready with removePeers := [], keepTcpPeers := [] } c.peer c.client ev.bytes t =
        tcpBlobChunk i.1 (chunkStart s c.peer t) c.type c.peer { c.client with lastSeen := t } ev.bytes t := by
      unfold handleTcpMessage
      rw [ho]
      dsimp only
      rw [htcp, Bool.not_true, if_neg Bool.false_ne_true, tcpMessage_chunk _ _ _ _ hc, if_pos (sizeofBlobChunk_le ho hc)]
      rfl
    have hstep : s.step i = handleClientFrame i.1 s.ready c.peer c.client ev.bytes t := handle_client hs
    rw [hstep]
    unfold handleClientFrame
    dsimp only
    rw [hr, hmsg, ha]
    rfl

theorem takeBlob_complete {now : Time} {a a' : BlobAssembly} {buf out : Bytes} (h : takeBlob now a buf = (a', some out)) :
    a' = {} := by
  have he := takeBlob_some h
  unfold assembleBlobChunk at he
  dsimp only at he
  split_ifs at he <;> cases he
  rfl

theorem assemblies_setAssemblies {type type' : Msg} (h : Chunked type) (h' : Chunked type') (asm : Table PeerId BlobAssembly) :
    (s.setAssemblies type asm).assemblies type' = if type' = type then asm else s.assemblies type' := by
  rcases h with rfl | rfl <;> rcases h' with rfl | rfl <;> rfl

section Handler
variable {type : Msg} {id : PeerId} {client : Client} {env : Env} {buf : Bytes} {t : Time} {a : BlobAssembly}

theorem tcpBlobChunk_complete (hid : client.peerId = id) (hok : passesLimit s client t = true) {blob : Bytes}
    (htake : takeBlob env.now (assemblyOf s type id) buf = (a, some blob)) :
    tcpBlobChunk env s type id client buf t =
      storeBlob ((countChunk s client t).setAssemblies type ((s.assemblies type).erase id)) type id client blob := by
  rcases tcpBlobChunk_cases env s type id client buf t with ⟨hno, -⟩ | ⟨a', -, htake', -⟩ | ⟨a', blob', -, htake', he⟩
  · cases hok.symm.trans hno
  · rw [hid, htake] at htake'
    cases htake'
  · rw [hid, htake] at htake'
    cases htake'
    rw [he, hid]

/-- The handler of a chunk that the limiter lets through takes it to the assembly of its client, and no other. -/
theorem assemblyOf_tcpBlobChunk (hid : client.peerId = id) (hc : Chunked type) (env : Env) (buf : Bytes) (t : Time)
    {type' : Msg} (hc' : Chunked type') (q : PeerId) :
    assemblyOf (tcpBlobChunk env s type id client buf t) type' q =
      if q = id ∧ type' = type ∧ passesLimit s client t = true then (takeBlob env.now (assemblyOf s type id) buf).1
      else assemblyOf s type' q := by
  have hcounted : ∀ q, assemblyOf (countChunk s client t) type' q = assemblyOf s type' q := fun _ => rfl
  rcases tcpBlobChunk_cases env s type id client buf t with ⟨hno, he⟩ | ⟨a, hok, htake, he⟩ | ⟨a, blob, hok, htake, he⟩
  · rw [he, hcounted]
    simp [hno]
  · rw [hid] at htake
    rw [he, hid, assemblyOf, assemblies_setAssemblies hc hc', hok, htake]
    by_cases ht : type' = type
    · subst ht
      rw [if_pos rfl, Table.lookup_insert]
      by_cases hq : q = id <;> simp [hq, assemblyOf]
    · simp only [ht, false_and, and_false, if_false]
      exact hcounted q
  · have hstored : ∀ r : ServerRuntime, assemblyOf (storeBlob r type id client blob) type' q = assemblyOf r type' q :=
      fun _ => rfl
    have hempty := takeBlob_complete htake
    subst hempty
    rw [hid] at htake
    rw [he, hid, hstored, assemblyOf, assemblies_setAssemblies hc hc', hok, htake]
    by_cases ht : type' = type
    · subst ht
      rw [if_pos rfl, Table.lookup_erase]
      by_cases hq : q = id <;> simp [hq, assemblyOf]
    · simp only [ht, false_and, and_false, if_false]
      exact hcounted q

end Handler

/-- A step takes its chunk to the assembly of its client, and leaves the other assemblies. -/
theorem assemblyOf_step (hw : WellFormed s) {type : Msg} (hc : Chunked type) (q : PeerId) :
    assemblyOf (s.step i) type q =
      (((chunkOf s i).toList.filter (·.peer = q)).map (·.arrival)).foldl (Arrival.take type) (assemblyOf s type q) := by
  cases hch : chunkOf s i with
  | none =>
    have hsame := (step_calm hw (not_handsChunk hch)).sameBlobs
    rcases hc with rfl | rfl
    · exact congrArg (fun asm : Table PeerId BlobAssembly => (asm.lookup q).getD {}) hsame.appearAsm
    · exact congrArg (fun asm : Table PeerId BlobAssembly => (asm.lookup q).getD {}) hsame.invAsm
  | some c =>
    obtain ⟨t, hpassed, hnow, hreaches, hchunked, hl, hstep⟩ := step_chunk hw hch
    have hid : ({ c.client with lastSeen := t } : Client).peerId = c.peer := hw.keyed c.peer c.client hl
    have htaken := assemblyOf_tcpBlobChunk (s := chunkStart s c.peer t) hid hchunked i.1 c.arrival.bytes t hc q
    have hsame : assemblyOf (s.step i) type q = assemblyOf
        (tcpBlobChunk i.1 (chunkStart s c.peer t) c.type c.peer { c.client with lastSeen := t } c.arrival.bytes t) type q := by
      rw [hstep]
      rfl
    have hrate : passesLimit (chunkStart s c.peer t) { c.client with lastSeen := t } t = c.arrival.passed := hpassed.symm
    have hold : ∀ type q, assemblyOf (chunkStart s c.peer t) type q = assemblyOf s type q := fun _ _ => rfl
    rw [hsame, htaken, hrate, hold, hold]
    by_cases hq : c.peer = q
    · subst hq
      simp only [Option.toList_some, List.filter_singleton, decide_true, cond_true, List.map_singleton, List.foldl_cons,
        List.foldl_nil, Arrival.take, hreaches, hnow]
      by_cases ht : c.type = type
      · subst ht
        simp
      · simp [ht, Ne.symm ht]
    · simp [hq, Ne.symm hq]

theorem blobs_storeBlob {type type' : Msg} (h : Chunked type) (h' : Chunked type') (blob : Bytes) :
    (∀ client : Client, Client.blob type' (Client.storeBlob type blob client) =
        if type' = type then blob else Client.blob type' client) ∧
      ∀ r : PlayerRec, PlayerRec.blob type' (PlayerRec.storeBlob type blob r) =
        if type' = type then blob else PlayerRec.blob type' r := by
  rcases h with rfl | rfl <;> rcases h' with rfl | rfl <;> exact ⟨fun _ => rfl, fun _ => rfl⟩

/-- No blob is stored, and nothing is sent or saved. -/
structure Unstored (s s' : ServerRuntime) : Prop where
  players : s'.players = s.players
  clients : ∀ q client', s'.clients.lookup q = some client' → ∃ client, s.clients.lookup q = some client ∧
    Client.look client' = Client.look client
  outbound : s'.outbound = []
  persist : s'.persist = []

/-- The blob is stored with the client and its record, and sent to the others; the other blobs stay. -/
structure Stored (s s' : ServerRuntime) (c : HandedChunk) (blob : Bytes) : Prop where
  client : (s'.clients.lookup c.peer).map (Client.blob c.type) = some blob
  record : (s'.players.lookup c.client.playerKey).map (PlayerRec.blob c.type) = some blob
  outbound : s'.outbound = toOthers s'.clients c.peer fun other => sendBlobTcp other c.type c.peer blob
  persist : s'.persist = []
  others : ∀ key type out, Chunked type → Holds s' key type out → out = [] ∨ Holds s key type out ∨
    key = c.client.playerKey ∧ type = c.type ∧ out = blob

theorem Unstored.holds {s' : ServerRuntime} (h : Unstored s s') {key : Bytes} {type : Msg} {blob : Bytes}
    (hb : Holds s' key type blob) : Holds s key type blob := holds_of_look h.clients h.players hb

theorem holds_storeBlob {type : Msg} (hc : Chunked type) {id : PeerId} {client : Client}
    (hl : s.clients.lookup id = some client) (blob : Bytes) {key : Bytes} {type' : Msg} (hc' : Chunked type') {out : Bytes}
    (h : Holds (storeBlob s type id client blob) key type' out) :
    out = [] ∨ Holds s key type' out ∨ key = client.playerKey ∧ type' = type ∧ out = blob := by
  obtain ⟨hclient, hrecord⟩ := blobs_storeBlob hc hc' blob
  have hkey : (Client.storeBlob type blob client).playerKey = client.playerKey := by
    unfold Client.storeBlob
    split <;> rfl
  rcases h with ⟨q, client', hq, hk, hblob⟩ | ⟨r, hr, hblob⟩
  · replace hq : (s.clients.modify id (Client.storeBlob type blob)).lookup q = some client' := hq
    rw [Table.lookup_modify] at hq
    split at hq
    · rename_i hqi
      rw [hqi, hl] at hq
      cases hq
      rw [hclient] at hblob
      rw [hkey] at hk
      split at hblob
      · exact .inr (.inr ⟨hk.symm, ‹_›, hblob.symm⟩)
      · exact .inr (.inl (.inl ⟨id, client, hl, hk, hblob⟩))
    · exact .inr (.inl (.inl ⟨q, client', hq, hk, hblob⟩))
  · replace hr : (s.players.insert client.playerKey (PlayerRec.storeBlob type blob
        { (s.players.lookup client.playerKey).getD {} with key := client.playerKey })).lookup key = some r := hr
    rw [Table.lookup_insert] at hr
    split at hr
    · rename_i hk
      cases hr
      rw [hrecord] at hblob
      split at hblob
      · exact .inr (.inr ⟨hk, ‹_›, hblob.symm⟩)
      · have hrest := holds_getD (s := s) client.playerKey type'
        rw [← hblob, hk]
        exact hrest.imp_right .inl
    · exact .inr (.inl (.inr ⟨r, hr, hblob⟩))

/-- The clients, the records and the logs are the same. -/
structure SameLooks (s s' : ServerRuntime) : Prop where
  clients : s'.clients = s.clients
  players : s'.players = s.players
  outbound : s'.outbound = s.outbound
  persist : s'.persist = s.persist

theorem sameLooks_counted (s : ServerRuntime) (client : Client) (t : Time) (type : Msg) (asm : Table PeerId BlobAssembly) :
    SameLooks s ((countChunk s client t).setAssemblies type asm) := by
  rw [setAssemblies_eq]
  exact ⟨rfl, rfl, rfl, rfl⟩

/-- Where no blob is completed, nothing is stored or sent. -/
theorem sameLooks_tcpBlobChunk {id : PeerId} {client : Client} (hid : client.peerId = id) (env : Env) (type : Msg) (buf : Bytes)
    (t : Time) (hn : passesLimit s client t = true → (takeBlob env.now (assemblyOf s type id) buf).2 = none) :
    SameLooks s (tcpBlobChunk env s type id client buf t) := by
  rcases tcpBlobChunk_cases env s type id client buf t with ⟨-, he⟩ | ⟨a, -, -, he⟩ | ⟨a, blob, hok, htake, -⟩
  · rw [he]
    exact ⟨rfl, rfl, rfl, rfl⟩
  · rw [he]
    exact sameLooks_counted s client t type _
  · have hnone := hn hok
    rw [← hid, htake] at hnone
    cases hnone

theorem look_chunkStart (s : ServerRuntime) (id : PeerId) (t : Time) (q : PeerId) (client' : Client)
    (h : (chunkStart s id t).clients.lookup q = some client') :
    ∃ client, s.clients.lookup q = some client ∧ Client.look client' = Client.look client := by
  replace h : (s.clients.modify id fun client => { client with lastSeen := t }).lookup q = some client' := h
  rw [Table.lookup_modify] at h
  split at h
  · obtain ⟨client, hc, rfl⟩ := Option.map_eq_some_iff.mp h
    exact ⟨client, hc, rfl⟩
  · exact ⟨client', h, rfl⟩

theorem completes_own (hreaches : ∀ type, c.arrival.reaches type = (c.arrival.passed && decide (c.type = type)))
    (a : BlobAssembly) :
    c.arrival.completes c.type a = if c.arrival.passed then (takeBlob c.arrival.now a c.arrival.bytes).2 else none := by
  simp [Arrival.completes, hreaches]

/-- A chunk that completes no blob. -/
theorem step_chunk_pending (hw : WellFormed s) (h : chunkOf s i = some c)
    (hn : c.arrival.completes c.type (assemblyOf s c.type c.peer) = none) : Unstored s (s.step i) := by
  obtain ⟨t, hpassed, hnow, hreaches, hchunked, hl, hstep⟩ := step_chunk hw h
  have hid : ({ c.client with lastSeen := t } : Client).peerId = c.peer := hw.keyed c.peer c.client hl
  have hsame : SameLooks (chunkStart s c.peer t)
      (tcpBlobChunk i.1 (chunkStart s c.peer t) c.type c.peer { c.client with lastSeen := t } c.arrival.bytes t) := by
    refine sameLooks_tcpBlobChunk hid i.1 c.type c.arrival.bytes t fun hok => ?_
    rw [completes_own hreaches, if_pos (hpassed.trans hok), hnow] at hn
    exact hn
  rw [hstep]
  refine ⟨hsame.players, fun q client' hq => look_chunkStart s c.peer t q client' ?_, hsame.outbound, hsame.persist⟩
  exact (congrArg (fun clients : ClientTable => clients.lookup q) hsame.clients).symm.trans hq

/-- A chunk that completes a blob. -/
theorem step_chunk_stores (hw : WellFormed s) (h : chunkOf s i = some c) {blob : Bytes}
    (hn : c.arrival.completes c.type (assemblyOf s c.type c.peer) = some blob) : Stored s (s.step i) c blob := by
  obtain ⟨t, hpassed, hnow, hreaches, hchunked, hl, hstep⟩ := step_chunk hw h
  have hid : ({ c.client with lastSeen := t } : Client).peerId = c.peer := hw.keyed c.peer c.client hl
  rw [completes_own hreaches, hnow, Option.ite_none_right_eq_some] at hn
  obtain ⟨hp, hn⟩ := hn
  have hstored := tcpBlobChunk_complete (s := chunkStart s c.peer t) (t := t) hid (hpassed.symm.trans hp)
    (show takeBlob i.1.now (assemblyOf (chunkStart s c.peer t) c.type c.peer) c.arrival.bytes = _ from Prod.ext rfl hn)
  have hsame := sameLooks_counted (chunkStart s c.peer t) { c.client with lastSeen := t } t c.type
    ((assemblies (chunkStart s c.peer t) c.type).erase c.peer)
  generalize (countChunk (chunkStart s c.peer t) { c.client with lastSeen := t } t).setAssemblies c.type
    ((assemblies (chunkStart s c.peer t) c.type).erase c.peer) = r at hsame hstored
  have hlr : r.clients.lookup c.peer = some { c.client with lastSeen := t } := by
    rw [hsame.clients]
    exact lookup_seen (s := { s.ready with removePeers := [], keepTcpPeers := [] }) hl t
  obtain ⟨hclient, hrecord⟩ := blobs_storeBlob hchunked hchunked blob
  rw [hstep, hstored]
  refine ⟨?_, ?_, ?_, hsame.persist, fun key type out hc hheld => ?_⟩
  · have hlookup : ((r.clients.modify c.peer (Client.storeBlob c.type blob)).lookup c.peer).map (Client.blob c.type) =
        some blob := by
      rw [Table.lookup_modify_self, hlr]
      exact congrArg some ((hclient _).trans (if_pos rfl))
    exact hlookup
  · have hlookup : ((r.players.insert c.client.playerKey (PlayerRec.storeBlob c.type blob
        { (r.players.lookup c.client.playerKey).getD {} with key := c.client.playerKey })).lookup c.client.playerKey).map
        (PlayerRec.blob c.type) = some blob := by
      rw [AList.lookup_insert]
      exact congrArg some ((hrecord _).trans (if_pos rfl))
    exact hlookup
  · have hout : (storeBlob r c.type c.peer { c.client with lastSeen := t } blob).outbound = r.outbound ++
        toOthers (r.clients.modify c.peer (Client.storeBlob c.type blob)) c.client.peerId fun other =>
          sendBlobTcp other c.type c.client.peerId blob := rfl
    have hquiet : r.outbound = [] := hsame.outbound
    rw [hquiet, List.nil_append, show c.client.peerId = c.peer from hid] at hout
    exact hout
  · rcases holds_storeBlob hchunked hlr blob hc hheld with hnil | hold | hnew
    · exact .inl hnil
    · refine .inr (.inl (holds_of_look (fun q client' hq => look_chunkStart s c.peer t q client' ?_) hsame.players hold))
      exact (congrArg (fun clients : ClientTable => clients.lookup q) hsame.clients).symm.trans hq
    · exact .inr (.inr hnew)

def chunksOf (b : Startup) (is : List (Env × Input)) : List HandedChunk :=
  collect step (fun s i => (chunkOf s i).toList) b.runtime is

def traffic (b : Startup) (is : List (Env × Input)) (q : PeerId) : List Arrival :=
  ((chunksOf b is).filter (·.peer = q)).map (·.arrival)

section Run
variable {b : Startup} {is : List (Env × Input)}

theorem chunksOf_concat (b : Startup) (is : List (Env × Input)) (i : Env × Input) :
    chunksOf b (is ++ [i]) = chunksOf b is ++ (chunkOf (runFrom b is) i).toList := collect_concat _ _ _ _ _

theorem chunksOf_split {before : List (Env × Input)} {i : Env × Input} (h : chunkOf (runFrom b before) i = some c)
    (after : List (Env × Input)) :
    ∃ rest, chunksOf b (before ++ i :: after) = chunksOf b before ++ c :: rest := by
  have hsplit := collect_append step (fun s i => (chunkOf s i).toList) b.runtime before (i :: after)
  refine ⟨collect step (fun s i => (chunkOf s i).toList) ((runFrom b before).step i) after, hsplit.trans ?_⟩
  have hchunk : (chunkOf (run step b.runtime before) i).toList = [c] := congrArg Option.toList h
  rw [collect, hchunk]
  rfl

/-- An assembly is what the chunks of its peer have made of it. -/
theorem assemblyOf_run (b : Startup) (is : List (Env × Input)) {type : Msg} (hc : Chunked type) (q : PeerId) :
    assemblyOf (runFrom b is) type q = gathered type (traffic b is q) := by
  induction is using List.reverseRecOn with
  | nil =>
    rcases hc with rfl | rfl <;> rfl
  | append_singleton is i ih =>
    rw [runFrom_concat, assemblyOf_step (runFrom_reachable b is).wellFormed hc q, ih, traffic, traffic, chunksOf_concat,
      List.filter_append, List.map_append, gathered, gathered, List.foldl_append]

/-- A chunk of the run completes the blob of the player. -/
def Completed (b : Startup) (is : List (Env × Input)) (key : Bytes) (type : Msg) (blob : Bytes) : Prop :=
  ∃ before i after c, is = before ++ i :: after ∧ chunkOf (runFrom b before) i = some c ∧ c.client.playerKey = key ∧
    c.type = type ∧ c.arrival.completes type (gathered type (traffic b before c.peer)) = some blob

theorem Completed.concat {key : Bytes} {type : Msg} {blob : Bytes} (h : Completed b is key type blob) (i : Env × Input) :
    Completed b (is ++ [i]) key type blob := by
  obtain ⟨before, j, after, c, rfl, hch, hkey, htype, hdone⟩ := h
  exact ⟨before, j, after ++ [i], c, by rw [List.append_assoc, List.cons_append], hch, hkey, htype, hdone⟩

/-- What is held was there at the start, or a chunk of the player has completed it. -/
theorem holds_run {key : Bytes} {type : Msg} (hc : Chunked type) {blob : Bytes} (h : Holds (runFrom b is) key type blob) :
    blob = [] ∨ Holds b.runtime key type blob ∨ Completed b is key type blob := by
  induction is using List.reverseRecOn generalizing key type blob with
  | nil => exact .inr (.inl h)
  | append_singleton is i ih =>
    rw [runFrom_concat] at h
    have hw := (runFrom_reachable b is).wellFormed
    have hold : Holds (runFrom b is) key type blob →
        blob = [] ∨ Holds b.runtime key type blob ∨ Completed b (is ++ [i]) key type blob :=
      fun hb => (ih hc hb).imp_right (Or.imp_right fun hdone => hdone.concat i)
    cases hch : chunkOf (runFrom b is) i with
    | none => exact ((step_calm hw (not_handsChunk hch)).sameBlobs.holds key type blob h).elim .inl hold
    | some c =>
      obtain ⟨-, -, -, -, -, hchunked, -⟩ := chunkOf_eq_some hch
      cases hdone : c.arrival.completes c.type (assemblyOf (runFrom b is) c.type c.peer) with
      | none => exact hold ((step_chunk_pending hw hch hdone).holds h)
      | some out =>
        rcases (step_chunk_stores hw hch hdone).others key type blob hc h with hnil | hb | ⟨rfl, rfl, rfl⟩
        · exact .inl hnil
        · exact hold hb
        · rw [assemblyOf_run b is hchunked] at hdone
          exact .inr (.inr ⟨is, i, [], c, rfl, hch, rfl, rfl, hdone⟩)

/-- A job that the last step has made saves the blob in the player's record. -/
def Saves (s : ServerRuntime) (key : Bytes) (type : Msg) (blob : Bytes) : Prop :=
  ∃ job ∈ s.persist, ∃ r ∈ job.players, r.key = key ∧ PlayerRec.blob type r = blob

/-- A flush saves what the records hold. -/
theorem holds_of_dirtyJob (hk : KeyedRecords s.players) {job : PersistJob} (hjob : job ∈ s.dirtyJob) {r : PlayerRec}
    (hr : r ∈ job.players) (type : Msg) : Holds s r.key type (PlayerRec.blob type r) := by
  rcases s.dirtyJob_cases with ⟨hj, -⟩ | ⟨hj, -⟩
  · rw [hj] at hjob
    cases hjob
  · rw [hj] at hjob
    rw [List.mem_singleton.mp hjob] at hr
    exact .inr ⟨r, ((mem_markedRecords hk r).mp hr).2, rfl⟩

theorem CalmParts.saves {s₀ s' : ServerRuntime} (h : CalmParts s₀ i s s') (hm : Mirrored s) (hk : KeyedRecords s.players) :
    Mirrored s' ∧ KeyedRecords s'.players ∧ ∀ key type blob, Saves s' key type blob →
      blob = [] ∨ Holds s key type blob ∨ Saves s key type blob := by
  induction h with
  | refl => exact ⟨hm, hk, fun _ _ _ hs => .inr (.inr hs)⟩
  | @tail r r' hr hp ih =>
    obtain ⟨hmr, hkr, hsaves⟩ := ih
    refine ⟨hp.1.mirrored hmr, hp.1.keyedRecords hmr hkr, ?_⟩
    rintro key type blob ⟨job, hjob, rec_, hrec, hkey, hblob⟩
    have hold : job ∈ r.persist → blob = [] ∨ Holds s key type blob ∨ Saves s key type blob :=
      fun hj => hsaves key type blob ⟨job, hj, rec_, hrec, hkey, hblob⟩
    rcases hp.1.persist with he | he | ⟨keys, he⟩
    · exact hold (he ▸ hjob)
    · rw [he, flushDirtyAsync_eq] at hjob
      rcases List.mem_append.mp hjob with hj | hj
      · exact hold hj
      · have hheld := holds_of_dirtyJob hkr hj hrec type
        rw [hkey, hblob] at hheld
        exact (CalmParts.sameBlobs hr).holds key type blob hheld |>.imp_right .inl
    · rw [he] at hjob
      rcases List.mem_append.mp hjob with hj | hj
      · exact hold hj
      · rw [List.mem_singleton.mp hj] at hrec
        cases hrec

theorem recorded_runFrom (b : LoadedStartup) (is : List (Env × Input)) : Recorded (runFrom b.toStartup is) := by
  induction is using List.reverseRecOn with
  | nil => exact recorded_start b
  | append_singleton is i ih =>
    rw [runFrom_concat]
    exact (ih.step i).1

/-- What a step saves was held before the step. -/
theorem saves_step (hr : Recorded s) {key : Bytes} {type : Msg} {blob : Bytes} (h : Saves (s.step i) key type blob) :
    blob = [] ∨ Holds s key type blob := by
  cases hch : chunkOf s i with
  | none =>
    have hcalm := step_calm hr.wellFormed (not_handsChunk hch)
    rcases (hcalm.saves (hr.mirrored.of_eq rfl rfl) hr.keyed).2.2 key type blob h with hnil | hheld | ⟨job, hjob, -⟩
    · exact .inl hnil
    · exact .inr hheld
    · cases hjob
  | some c =>
    have hnone : (s.step i).persist = [] := by
      cases hdone : c.arrival.completes c.type (assemblyOf s c.type c.peer) with
      | none => exact (step_chunk_pending hr.wellFormed hch hdone).persist
      | some blob => exact (step_chunk_stores hr.wellFormed hch hdone).persist
    obtain ⟨job, hjob, -⟩ := h
    rw [hnone] at hjob
    cases hjob

/-- What is held or saved was there at the start, or a chunk of the player has completed it. -/
theorem stored_run (b : LoadedStartup) (is : List (Env × Input)) {key : Bytes} {type : Msg} (hc : Chunked type) {blob : Bytes}
    (h : Holds (runFrom b.toStartup is) key type blob ∨ Saves (runFrom b.toStartup is) key type blob) :
    blob = [] ∨ Holds b.runtime key type blob ∨ Completed b.toStartup is key type blob := by
  rcases h with h | h
  · exact holds_run hc h
  · cases is using List.reverseRecOn with
    | nil =>
      obtain ⟨job, hjob, -⟩ := h
      cases hjob
    | append_singleton is i =>
      rw [runFrom_concat] at h
      rcases saves_step (recorded_runFrom b is) h with hnil | hheld
      · exact .inl hnil
      · exact (holds_run hc hheld).imp_right (Or.imp_right fun hdone => hdone.concat i)

end Run

/-- A client of the player sends the blob. -/
def SentUnder (b : Startup) (is : List (Env × Input)) (key : Bytes) (sent : PeerId → List SentBlob) (type : Msg)
    (blob : Bytes) : Prop :=
  ∃ c ∈ chunksOf b is, c.client.playerKey = key ∧ ∃ x ∈ sent c.peer, x.type = type ∧ x.blob = blob

/-- The clients of the player send the packets of their blobs in order. -/
def SendsInOrder (b : Startup) (is : List (Env × Input)) (key : Bytes) (sent : PeerId → List SentBlob) : Prop :=
  ∀ c ∈ chunksOf b is, c.client.playerKey = key →
    (traffic b is c.peer).map (·.bytes) <+: (sent c.peer).flatMap SentBlob.packets

section Whole
variable {b : LoadedStartup} {is : List (Env × Input)} {key : Bytes} {sent : PeerId → List SentBlob}

theorem traffic_split {b : Startup} {before : List (Env × Input)} {i : Env × Input}
    (hch : chunkOf (runFrom b before) i = some c) (after : List (Env × Input)) :
    c ∈ chunksOf b (before ++ i :: after) ∧
      ∃ rest, traffic b (before ++ i :: after) c.peer = traffic b before c.peer ++ c.arrival :: rest := by
  obtain ⟨rest, hsplit⟩ := chunksOf_split hch after
  refine ⟨?_, (rest.filter (·.peer = c.peer)).map (·.arrival), ?_⟩
  · rw [hsplit]
    exact List.mem_append_right _ List.mem_cons_self
  · rw [traffic, hsplit, List.filter_append, List.filter_cons_of_pos (by simp), List.map_append, List.map_cons]
    rfl

/-- A chunk of the player completes one of the blobs. -/
theorem completes_sentUnder (hsent : SendsInOrder b.toStartup is key sent)
    (hwhen : ∀ c ∈ chunksOf b.toStartup is, c.client.playerKey = key → Unmixed (sent c.peer) (traffic b.toStartup is c.peer))
    {before after : List (Env × Input)} {i : Env × Input} (he : is = before ++ i :: after)
    (hch : chunkOf (runFrom b.toStartup before) i = some c) (hkey : c.client.playerKey = key) {type : Msg} {blob : Bytes}
    (hdone : c.arrival.completes type (gathered type (traffic b.toStartup before c.peer)) = some blob) :
    c ∈ chunksOf b.toStartup is ∧ ∃ x ∈ sent c.peer, x.type = type ∧ x.blob = blob := by
  subst he
  obtain ⟨hmem, rest, htraffic⟩ := traffic_split hch after
  exact ⟨hmem, completes_sent (hsent c hmem hkey) (hwhen c hmem hkey) htraffic hdone⟩

/-- What a chunk makes the server store is the blob that the chunk was cut from exactly where the chunk finds no chunk of
another. -/
theorem stored_iff_unmixedAt (hsent : SendsInOrder b.toStartup is key sent) {before after : List (Env × Input)}
    {i : Env × Input} (he : is = before ++ i :: after) (hch : chunkOf (runFrom b.toStartup before) i = some c)
    (hkey : c.client.playerKey = key) :
    Unstored (runFrom b.toStartup before) ((runFrom b.toStartup before).step i) ∨
      ∃ x j blob, (outline (sent c.peer))[(traffic b.toStartup before c.peer).length]? = some (x, j) ∧ x.type = c.type ∧
        c.arrival.passed = true ∧ Stored (runFrom b.toStartup before) ((runFrom b.toStartup before).step i) c blob ∧
        (x.blob = blob ↔ UnmixedAt (traffic b.toStartup before c.peer) (x, j)) := by
  subst he
  obtain ⟨hmem, rest, htraffic⟩ := traffic_split hch after
  obtain ⟨-, -, -, -, -, hchunked, -⟩ := chunkOf_eq_some hch
  have hw := (runFrom_reachable b.toStartup before).wellFormed
  cases hdone : c.arrival.completes c.type (assemblyOf (runFrom b.toStartup before) c.type c.peer) with
  | none => exact .inl (step_chunk_pending hw hch hdone)
  | some blob =>
    have hstored := step_chunk_stores hw hch hdone
    rw [assemblyOf_run b.toStartup before hchunked] at hdone
    obtain ⟨x, j, hplace, hx⟩ := place_of_part (hsent c hmem hkey) htraffic
    obtain ⟨hpassed, htype, -⟩ := completes_slots hplace hx hdone
    exact .inr ⟨x, j, blob, hplace, htype, hpassed, hstored, completes_iff (hsent c hmem hkey) htraffic hplace hx hdone⟩

/-- **Whole blobs.** Where no chunk fills the last slot beside chunks of another blob, what the server holds and saves for a
player was loaded at the start or is one of the blobs of the player, and so is what a chunk makes it store and relay. -/
theorem blobs_whole (b : LoadedStartup) (is : List (Env × Input)) (key : Bytes) (sent : PeerId → List SentBlob)
    (hsent : SendsInOrder b.toStartup is key sent)
    (hwhen : ∀ c ∈ chunksOf b.toStartup is, c.client.playerKey = key →
      Unmixed (sent c.peer) (traffic b.toStartup is c.peer)) :
    (∀ type blob, Chunked type → Holds (runFrom b.toStartup is) key type blob ∨ Saves (runFrom b.toStartup is) key type blob →
      blob = [] ∨ Holds b.runtime key type blob ∨ SentUnder b.toStartup is key sent type blob) ∧
    ∀ before i after c, is = before ++ i :: after → chunkOf (runFrom b.toStartup before) i = some c →
      c.client.playerKey = key →
      Unstored (runFrom b.toStartup before) ((runFrom b.toStartup before).step i) ∨
        ∃ x ∈ sent c.peer, x.type = c.type ∧
          Stored (runFrom b.toStartup before) ((runFrom b.toStartup before).step i) c x.blob := by
  refine ⟨fun type blob hc h => (stored_run b is hc h).imp_right (Or.imp_right ?_), fun before i after c he hch hkey => ?_⟩
  · rintro ⟨before, i, after, c, he, hch, hkey, -, hdone⟩
    obtain ⟨hmem, hx⟩ := completes_sentUnder hsent hwhen he hch hkey hdone
    exact ⟨c, hmem, hkey, hx⟩
  · rcases stored_iff_unmixedAt hsent he hch hkey with hnone | ⟨x, j, blob, hplace, htype, hpassed, hstored, hown⟩
    · exact .inl hnone
    · subst he
      obtain ⟨hmem, rest, htraffic⟩ := traffic_split hch after
      obtain rfl := hown.mpr (hwhen c hmem hkey _ _ _ htraffic (x, j) hplace hpassed)
      exact .inr ⟨x, (mem_outline hplace).1, htype, hstored⟩

end Whole

/-- An appearance of one byte over and over. -/
def monotone (x : UInt8) (n : ℕ) (h : n + 1 ≤ 0xFFFF) : SentBlob where
  type := .AppearanceChunk
  peerId := 1
  blob := List.replicate (n + 1) x
  chunked := .inl rfl
  ne_nil := by simp
  fits := by rwa [List.length_replicate]

/-- Sixty-three appearances of one byte, and two of a packet and a byte. -/
def appearances : List SentBlob :=
  List.replicate 63 (monotone 7 0 (by decide)) ++ [monotone 1 488 (by decide), monotone 2 488 (by decide)]

def chunkAt (t : Time) (bytes : Bytes) : Env × Input :=
  (plainEnv, .inbound { kind := .TcpFrame, connId := 1, bytes := bytes } t)

/-- A player joins and sends the appearances, the first `n` packets at once and the others a second later. -/
def sendsAppearances (n : ℕ) : List (Env × Input) :=
  [acceptAt 1 ⟨10, 0, 0, 1, 1000⟩, frameAt 1 0 (helloFrame (ascii "a"))] ++
    ((appearances.flatMap SentBlob.packets).take n).map (chunkAt 1) ++
    ((appearances.flatMap SentBlob.packets).drop n).map (chunkAt 2)

/-- The first packet of the one and the last of the other. -/
def tornBlob : Bytes := List.replicate 488 1 ++ [2]

theorem sendsInOrder_appearances {is : List (Env × Input)} (hpeers : (chunksOf freshStart is).all (·.peer = 1) = true)
    (hbytes : (traffic freshStart is 1).map (·.bytes) = appearances.flatMap SentBlob.packets) :
    SendsInOrder freshStart is (ascii "a") fun _ => appearances := by
  intro c hc _
  rw [of_decide_eq_true (List.all_eq_true.mp hpeers c hc), hbytes]

theorem not_blobs_whole_sendsAppearances :
    ¬ ∀ (b : LoadedStartup) (is : List (Env × Input)) (key : Bytes) (sent : PeerId → List SentBlob),
      SendsInOrder b.toStartup is key sent → ∀ type blob, Chunked type → Holds (runFrom b.toStartup is) key type blob →
        blob = [] ∨ Holds b.runtime key type blob ∨ SentUnder b.toStartup is key sent type blob := by
  intro h
  have hsent : SendsInOrder freshStart (sendsAppearances 66) (ascii "a") fun _ => appearances :=
    sendsInOrder_appearances (by decide +kernel) (by decide +kernel)
  have hstored : ((runFrom freshStart (sendsAppearances 66)).clients.lookup 1).map (fun c => (c.playerKey, c.appearance)) =
      some (ascii "a", tornBlob) := by decide +kernel
  obtain ⟨client, hl, hclient⟩ := Option.map_eq_some_iff.mp hstored
  obtain ⟨hkey, happearance⟩ := Prod.mk.inj hclient
  have hholds : Holds (runFrom freshStart (sendsAppearances 66)) (ascii "a") .AppearanceChunk tornBlob :=
    .inl ⟨1, client, hl, hkey, happearance⟩
  rcases h emptyFolder (sendsAppearances 66) (ascii "a") _ hsent .AppearanceChunk tornBlob (.inl rfl) hholds with
    hnil | hloaded | ⟨c, -, -, x, hx, -, hblob⟩
  · cases hnil
  · rcases hloaded with ⟨id, c, hl, -⟩ | ⟨r, hr, -⟩
    · cases hl
    · cases hr
  · have hnone : appearances.all (·.blob ≠ tornBlob) = true := by decide +kernel
    exact of_decide_eq_true (List.all_eq_true.mp hnone x hx) hblob

/-- The limiter turns away the last packet of the one, and the other comes a second later and is stored whole. -/
theorem blobs_whole_sendsAppearances :
    (traffic freshStart (sendsAppearances 65) 1).any (!·.passed) = true ∧
      ∀ type blob, Chunked type → Holds (runFrom freshStart (sendsAppearances 65)) (ascii "a") type blob →
        blob = [] ∨ Holds freshStart.runtime (ascii "a") type blob ∨
          SentUnder freshStart (sendsAppearances 65) (ascii "a") (fun _ => appearances) type blob := by
  have hpeers : (chunksOf freshStart (sendsAppearances 65)).all (·.peer = 1) = true := by decide +kernel
  have hsent : SendsInOrder freshStart (sendsAppearances 65) (ascii "a") fun _ => appearances :=
    sendsInOrder_appearances hpeers (by decide +kernel)
  have hwhen : Unmixed appearances (traffic freshStart (sendsAppearances 65) 1) := by decide +kernel
  refine ⟨by decide +kernel, fun type blob hc h => ?_⟩
  have hwhole := blobs_whole emptyFolder (sendsAppearances 65) (ascii "a") (fun _ => appearances) hsent fun c hm _ => by
    rw [of_decide_eq_true (List.all_eq_true.mp hpeers c hm)]
    exact hwhen
  exact hwhole.1 type blob hc (.inl h)

end ServerRuntime
end CommonwealthMP
