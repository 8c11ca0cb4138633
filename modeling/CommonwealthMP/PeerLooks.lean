import CommonwealthMP.LooksHearing
import CommonwealthMP.RecordMirror

/-! # What the server tells of the players' looks

A blob reaches a client when it is completed, and when the client is welcomed. A player who comes back
gets the blobs of its record without a word to those who are there already. -/
namespace CommonwealthMP
open ByteLayout OrderedTables SessionTable StepRuns
namespace ServerRuntime

def held (blob : Bytes) : Option Bytes := if blob = [] then none else some blob

/-- The live player `p` is on the connection. -/
def OnConn (s : ServerRuntime) (k : ConnId) (p : PeerId) : Prop := ∃ c, s.clients.lookup p = some c ∧ c.connId = k

/-- The player on a connection holds the blobs of the others as the server stores them; while nobody is on it, nothing is
held that a welcome does not replace. -/
structure SeenOn (s : ServerRuntime) (k : ConnId) (x : Looks) : Prop where
  begun : ∀ type q, (x.of type).begun q = none
  live : ∀ p, OnConn s k p → ∀ type q c, s.clients.lookup q = some c → q ≠ p → (x.of type).stored q = held (Client.blob type c)
  nobody : (∀ p, ¬ OnConn s k p) → ∀ type q c, s.clients.lookup q = some c →
    (x.of type).stored q = none ∨ Client.blob type c ≠ []

/-- From `s` to `s'` the connection is told enough to keep its sight, unless it is closed. -/
def Tells (k : ConnId) (s s' : ServerRuntime) : Prop :=
  ∃ cmds, s'.outbound = s.outbound ++ cmds ∧
    (closeCmd k ∉ cmds → ∀ x, SeenOn s k x → SeenOn s' k ((framesTo k cmds).foldl Looks.hear x))

section Tells
variable {k : ConnId} {s s' s'' : ServerRuntime}

theorem Tells.refl (s : ServerRuntime) : Tells k s s := ⟨[], (List.append_nil _).symm, fun _ _ h => h⟩

theorem Tells.trans (h : Tells k s s') (h' : Tells k s' s'') : Tells k s s'' := by
  obtain ⟨cmds, ho, hs⟩ := h
  obtain ⟨cmds', ho', hs'⟩ := h'
  refine ⟨cmds ++ cmds', by rw [ho', ho, List.append_assoc], fun hnot x hx => ?_⟩
  rw [List.mem_append, not_or] at hnot
  rw [framesTo_append, List.foldl_append]
  exact hs' hnot.2 _ (hs hnot.1 x hx)

/-- The command tells nobody of looks. -/
def Lookless (cmd : OutboundCmd) : Prop := cmd.kind = .TcpSend → Looks.Unlooked cmd.bytes

/-- The commands that are added from `s` to `s'` tell nobody of looks. -/
def NoLooks (s s' : ServerRuntime) : Prop := ∃ cmds, s'.outbound = s.outbound ++ cmds ∧ ∀ cmd ∈ cmds, Lookless cmd

theorem NoLooks.of_eq (h : s'.outbound = s.outbound) : NoLooks s s' := ⟨[], by rw [h, List.append_nil], nofun⟩

theorem Lookless.of_kind {cmd : OutboundCmd} (h : cmd.kind ≠ .TcpSend) : Lookless cmd := fun hk => absurd hk h

theorem unlooked_message (type : Msg) (hn : type.code ≠ Msg.AppearanceChunk.code ∧ type.code ≠ Msg.InventoryChunk.code ∧
    type.code ≠ Msg.Bye.code) {header : Header} (ht : header.type = type.code) (rest : Bytes) :
    Looks.Unlooked (header.encode ++ rest) := by
  unfold Looks.Unlooked
  rw [u8At_encode_type, ht]
  exact hn

theorem foldl_lookless (x : Looks) {cmds : List OutboundCmd} (h : ∀ cmd ∈ cmds, Lookless cmd) :
    (framesTo k cmds).foldl Looks.hear x = x := by
  refine Looks.foldl_hear_unlooked x fun buf hm => ?_
  obtain ⟨cmd, hc, rfl⟩ := List.mem_map.mp hm
  obtain ⟨hc, hk⟩ := List.mem_filter.mp hc
  exact h cmd hc (of_decide_eq_true hk).1

/-- Nothing has changed that a player on the connection sees. -/
structure SameSight (k : ConnId) (s s' : ServerRuntime) : Prop where
  conn : ∀ p, OnConn s' k p ↔ OnConn s k p
  blob : ∀ q c', s'.clients.lookup q = some c' →
    ∃ c, s.clients.lookup q = some c ∧ ∀ type, Client.blob type c' = Client.blob type c

theorem SameSight.seenOn (h : SameSight k s s') {x : Looks} (hx : SeenOn s k x) : SeenOn s' k x where
  begun := hx.begun
  live p hp type q c' hl hq := by
    obtain ⟨c, hc, hblob⟩ := h.blob q c' hl
    rw [hblob]
    exact hx.live p ((h.conn p).mp hp) type q c hc hq
  nobody hp type q c' hl := by
    obtain ⟨c, hc, hblob⟩ := h.blob q c' hl
    rw [hblob]
    exact hx.nobody (fun p hc => hp p ((h.conn p).mpr hc)) type q c hc

theorem SameSight.of_eq (h : s'.clients = s.clients) : SameSight k s s' where
  conn p := by rw [OnConn, OnConn, h]
  blob q c' hl := ⟨c', h ▸ hl, fun _ => rfl⟩

theorem SameSight.trans (h : SameSight k s s') (h' : SameSight k s' s'') : SameSight k s s'' where
  conn p := (h'.conn p).trans (h.conn p)
  blob q c'' hl := by
    obtain ⟨c', hc', hblob'⟩ := h'.blob q c'' hl
    obtain ⟨c, hc, hblob⟩ := h.blob q c' hc'
    exact ⟨c, hc, fun type => (hblob' type).trans (hblob type)⟩

theorem SameSight.modify {id : PeerId} {f : Client → Client} (h : s'.clients = s.clients.modify id f)
    (hconn : ∀ c, s.clients.lookup id = some c → ((f c).connId = k ↔ c.connId = k))
    (hblob : ∀ c, s.clients.lookup id = some c → ∀ type, Client.blob type (f c) = Client.blob type c) : SameSight k s s' where
  conn p := by
    rw [OnConn, OnConn, h]
    by_cases hp : p = id
    · subst hp
      rw [Table.lookup_modify_self]
      constructor
      · rintro ⟨c', hmap, hc⟩
        obtain ⟨c, hl, rfl⟩ := Option.map_eq_some_iff.mp hmap
        exact ⟨c, hl, (hconn c hl).mp hc⟩
      · rintro ⟨c, hl, hc⟩
        exact ⟨f c, by rw [hl]; rfl, (hconn c hl).mpr hc⟩
    · rw [Table.lookup_modify, if_neg hp]
  blob q c' hl := by
    rw [h, Table.lookup_modify] at hl
    split at hl
    · obtain ⟨c, hc, rfl⟩ := Option.map_eq_some_iff.mp hl
      rename_i hq
      exact ⟨c, hc, hblob c (hq ▸ hc)⟩
    · exact ⟨c', hl, fun _ => rfl⟩

theorem tells_of_same (h : SameSight k s s') (hn : NoLooks s s') : Tells k s s' := by
  obtain ⟨cmds, ho, hl⟩ := hn
  refine ⟨cmds, ho, fun _ x hx => ?_⟩
  rw [foldl_lookless x hl]
  exact h.seenOn hx

end Tells

section Frames
variable {k : ConnId} {s : ServerRuntime} {id : PeerId} {client : Client}

theorem noLooks_queue {cmds : List OutboundCmd} (h : ∀ cmd ∈ cmds, Lookless cmd) : NoLooks s (s.queue cmds) := ⟨cmds, rfl, h⟩

theorem lookless_sendTcp {other : Client} {data : Bytes} (h : Looks.Unlooked data) : ∀ cmd ∈ sendTcp other data, Lookless cmd := by
  intro cmd hm
  rw [mem_sendTcp hm]
  exact fun _ => h

theorem lookless_toOthers {clients : ClientTable} {skip : PeerId} {send : Client → List OutboundCmd}
    (h : ∀ other, ∀ cmd ∈ send other, Lookless cmd) : ∀ cmd ∈ toOthers clients skip send, Lookless cmd := by
  intro cmd hm
  obtain ⟨q, other, -, -, hc⟩ := mem_toOthers.mp hm
  exact h other cmd hc

theorem blob_unbound (type : Msg) (c : Client) : Client.blob type (Client.unbound c) = Client.blob type c := by
  unfold Client.unbound
  split <;> rfl

theorem blob_retoken (type : Msg) (c : Client) (token : UInt32) :
    Client.blob type (Client.unbound { c with udpToken := token }) = Client.blob type c := blob_unbound type _

theorem tells_helloAgain (hl : s.clients.lookup id = some client) : Tells k s (helloAgain s id client) := by
  rw [helloAgain_eq hl]
  refine tells_of_same (.modify rfl (fun c _ => ?_) fun c _ type => blob_retoken type c _) ⟨_, rfl, lookless_sendTcp ?_⟩
  · rw [(Client.unbound_eq _).1]
  · exact unlooked_message .Welcome (by decide) rfl _

theorem tells_tcpChat (buf : Bytes) (t : Time) : Tells k s (tcpChat s client buf t) := by
  rcases tcpChat_cases s client buf t with ⟨-, he⟩ | ⟨-, he⟩
  · rw [he]
    exact tells_of_same (.of_eq rfl) (.of_eq rfl)
  · rw [he]
    refine tells_of_same (.of_eq rfl) ⟨_, rfl, lookless_toOthers fun other => lookless_sendTcp ?_⟩
    exact unlooked_message .Chat (by decide) rfl _

theorem tells_tcpHit (buf : Bytes) (t : Time) : Tells k s (tcpHit s client buf t) := by
  rcases tcpHit_cases s client buf t with he | he | ⟨hit, -, htype, -, -, -, -, he⟩
  · rw [he]
    exact .refl s
  · rw [he]
    exact tells_of_same (.of_eq rfl) (.of_eq rfl)
  · rw [he]
    refine tells_of_same (.of_eq rfl) ⟨_, rfl, fun cmd hm => ?_⟩
    obtain ⟨other, -, hc⟩ := List.mem_flatMap.mp hm
    split at hc
    · exact lookless_sendTcp (unlooked_message .Hit (by decide) (by rw [htype]; rfl) _) cmd hc
    · cases hc

theorem tells_tcpKick {buf : Bytes} {header : Header} (ho : openFrame buf = some (header, .Kick)) :
    Tells k s (tcpKick s client buf) := by
  obtain ⟨rfl, ht, -⟩ := openFrame_spec ho
  rcases tcpKick_cases s client buf with he | ⟨other, -, -, he⟩
  · rw [he]
    exact .refl s
  · rw [he]
    refine tells_of_same (.of_eq rfl) (noLooks_queue (lookless_sendTcp ?_))
    exact unlooked_message .Kick (by decide) ht _

theorem tells_tcpTeleport {buf : Bytes} {header : Header} (ho : openFrame buf = some (header, .Teleport)) :
    Tells k s (tcpTeleport s client buf) := by
  obtain ⟨rfl, ht, -⟩ := openFrame_spec ho
  rcases tcpTeleport_cases s client buf with he | ⟨other, -, -, he⟩
  · rw [he]
    exact .refl s
  · rw [he]
    refine tells_of_same (.of_eq rfl) (noLooks_queue (lookless_sendTcp ?_))
    exact unlooked_message .Teleport (by decide) ht _

end Frames

section Blobs
variable {k : ConnId} {s : ServerRuntime}

theorem Reachable.slotted (h : Reachable s) : Slotted s := by
  have hboth : WellFormed s ∧ Slotted s := by
    refine h.induction (I := fun s => WellFormed s ∧ Slotted s) (fun b => ⟨wellFormed_initial b, fun type id a ha => ?_⟩) ?_
    · unfold assemblies at ha
      split at ha <;> cases ha
    · intro s i hs
      exact ⟨hs.1.step i, Parts.invariant (step_parts hs.1 i) (fun _ _ => Part.slotted) hs.2⟩
  exact hboth.2

def Alone (s : ServerRuntime) (k : ConnId) : Prop := ∀ p q, OnConn s k p → OnConn s k q → p = q

theorem framesTo_sendBlobTcp {c : Client} (hc : c.connId = k) (h0 : k ≠ 0) (type : Msg) (p : PeerId) (blob : Bytes) :
    framesTo k (sendBlobTcp c type p blob) =
      if blob = [] ∨ 0xFFFF < blob.length then [] else (List.range (chunkCountOf blob)).map (chunkPacket type p blob) := by
  unfold sendBlobTcp splitBlobChunks
  split_ifs
  · rfl
  · dsimp only
    generalize List.range (chunkCountOf blob) = is
    induction is with
    | nil => rfl
    | cons i is ih =>
      have hne : chunkPacket type p blob i ≠ [] := by
        refine List.ne_nil_of_length_pos ?_
        rw [chunkPacket_length, sizeofBlobChunk]
        omega
      rw [List.map_cons, List.flatMap_cons, framesTo_append, ih, sendTcp_eq (hc.symm ▸ h0) hne]
      simp [framesTo, toTcp, hc]

/-- Each command of a list of messages goes to the client it is made for. -/
def ToClient (send : Client → List OutboundCmd) : Prop :=
  ∀ other, ∀ cmd ∈ send other, cmd.kind = .TcpSend → cmd.connId = other.connId

theorem toClient_sendBlobTcp (type : Msg) (p : PeerId) (blob : Bytes) : ToClient fun other => sendBlobTcp other type p blob := by
  intro other cmd hm _
  obtain ⟨i, -, rfl⟩ := mem_sendBlobTcp hm
  rfl

theorem toClient_sendTcp (data : Bytes) : ToClient fun other => sendTcp other data := by
  intro other cmd hm _
  rw [mem_sendTcp hm]
  rfl

theorem framesTo_flatMap {α : Type} (k : ConnId) (l : List α) (f : α → List OutboundCmd) :
    framesTo k (l.flatMap f) = l.flatMap fun a => framesTo k (f a) := by
  induction l with
  | nil => rfl
  | cons a l ih => rw [List.flatMap_cons, List.flatMap_cons, framesTo_append, ih]

theorem flatMap_of_one {α β : Type} {l : List α} (hn : l.Nodup) {a : α} (ha : a ∈ l) {f : α → List β}
    (h : ∀ b ∈ l, b ≠ a → f b = []) : l.flatMap f = f a := by
  induction l with
  | nil => cases ha
  | cons b l ih =>
    obtain ⟨hb, hn⟩ := List.nodup_cons.mp hn
    rw [List.flatMap_cons]
    rcases List.mem_cons.mp ha with rfl | ha
    · have hrest : l.flatMap f = [] :=
        List.flatMap_eq_nil_iff.mpr fun c hc => h c (List.mem_cons_of_mem _ hc) fun he => hb (he ▸ hc)
      rw [hrest, List.append_nil]
    · have hne : b ≠ a := fun he => hb (he ▸ ha)
      rw [h b List.mem_cons_self hne, List.nil_append]
      exact ih hn ha fun c hc => h c (List.mem_cons_of_mem _ hc)

theorem framesTo_toOthers {send : Client → List OutboundCmd} (hsend : ToClient send) (ha : Alone s k) {p : PeerId} {c : Client}
    (hl : s.clients.lookup p = some c) (hc : c.connId = k) (skip : PeerId) :
    framesTo k (toOthers s.clients skip send) = if p = skip then [] else framesTo k (send c) := by
  rw [toOthers, framesTo_flatMap]
  have hn : s.clients.entries.Nodup := s.clients.nodupKeys.nodup
  rw [flatMap_of_one hn (Table.mem_entries.mpr hl)]
  · dsimp only
    split <;> rfl
  · intro e he hne
    split
    · rfl
    · refine framesTo_eq_nil fun cmd hm hk => ?_
      rw [hsend e.2 cmd hm hk]
      intro hconn
      have hlookup := Table.mem_entries.mp he
      obtain rfl := ha e.1 p ⟨e.2, hlookup, hconn⟩ ⟨c, hl, hc⟩
      rw [hl] at hlookup
      exact hne (Sigma.ext rfl (heq_of_eq (Option.some.inj hlookup).symm))

theorem framesTo_toOthers_of_nobody {send : Client → List OutboundCmd} (hsend : ToClient send) (h : ∀ p, ¬ OnConn s k p)
    (skip : PeerId) : framesTo k (toOthers s.clients skip send) = [] := by
  refine framesTo_eq_nil fun cmd hm hk => ?_
  obtain ⟨q, other, hl, -, hm⟩ := mem_toOthers.mp hm
  rw [hsend other cmd hm hk]
  exact fun hc => h q ⟨other, hl, hc⟩

theorem blob_storeBlob (type type' : Msg) (blob : Bytes) (c : Client) :
    Client.blob type' (Client.storeBlob type blob c) = if Looks.SameKind type' type then blob else Client.blob type' c := by
  unfold Client.blob Client.storeBlob Looks.SameKind
  by_cases ht : type = .AppearanceChunk <;> by_cases ht' : type' = .AppearanceChunk <;> simp [ht, ht']

/-- A completed blob is stored, and told to the others. -/
theorem tells_storeBlob {type : Msg} (ht : type = .AppearanceChunk ∨ type = .InventoryChunk) (h0 : k ≠ 0) (ha : Alone s k)
    {id : PeerId} {client : Client} (hl : s.clients.lookup id = some client) (hid : client.peerId = id) {blob : Bytes}
    (hne : blob ≠ []) (hb : blob.length ≤ 0xFFFF) : Tells k s (storeBlob s type id client blob) := by
  have hclients : ∀ q, (storeBlob s type id client blob).clients.lookup q =
      if q = id then some (Client.storeBlob type blob client) else s.clients.lookup q := lookup_modify_of hl _
  have ho : (storeBlob s type id client blob).outbound = s.outbound ++
      toOthers (storeBlob s type id client blob).clients id fun other => sendBlobTcp other type id blob := by
    rw [storeBlob, hid]
    rfl
  generalize storeBlob s type id client blob = s' at hclients ho ⊢
  have hon : ∀ p, OnConn s' k p ↔ OnConn s k p := by
    intro p
    have hconn : (Client.storeBlob type blob client).connId = client.connId := by
      unfold Client.storeBlob
      split <;> rfl
    rw [OnConn, OnConn, hclients]
    split
    · rename_i hp
      rw [hp, hl]
      simp [hconn]
    · rfl
  have halone : Alone s' k := fun p q hp hq => ha p q ((hon p).mp hp) ((hon q).mp hq)
  refine ⟨_, ho, fun _ x hx => ?_⟩
  by_cases hsomeone : ∃ p, OnConn s' k p
  · obtain ⟨p, hp⟩ := hsomeone
    have hlive := hx.live p ((hon p).mp hp)
    have hsees : ∀ x' : Looks, (∀ type q, (x'.of type).begun q = none) →
        (∀ type' q c', s'.clients.lookup q = some c' → q ≠ p → (x'.of type').stored q = held (Client.blob type' c')) →
          SeenOn s' k x' := by
      refine fun x' hbegun hstored => ⟨hbegun, fun p' hp' => ?_, fun hnone => absurd hp (hnone p)⟩
      obtain rfl := halone p' p hp' hp
      exact hstored
    obtain ⟨c, hc, hk⟩ := hp
    rw [framesTo_toOthers (toClient_sendBlobTcp type id blob) halone hc hk]
    by_cases hpid : p = id
    · rw [if_pos hpid]
      refine hsees x hx.begun fun type' q c' hq hqp => ?_
      rw [hclients, if_neg (hpid ▸ hqp)] at hq
      exact hlive type' q c' hq hqp
    · rw [if_neg hpid, framesTo_sendBlobTcp hk h0, if_neg (by simp [hne, hb]),
        Looks.foldl_hear_blob ht x id hne hb (hx.begun type id)]
      refine hsees _ (fun type' q => (Looks.begun_store ..).trans (hx.begun type' q)) fun type' q c' hq hqp => ?_
      rw [Looks.stored_store]
      rw [hclients] at hq
      by_cases hqid : q = id
      · rw [if_pos hqid] at hq
        cases hq
        rw [blob_storeBlob]
        by_cases hkind : Looks.SameKind type' type
        · rw [if_pos ⟨hkind, hqid⟩, if_pos hkind, held, if_neg hne]
        · rw [if_neg fun h => hkind h.1, if_neg hkind]
          exact hlive type' q client (hqid ▸ hl) hqp
      · rw [if_neg hqid] at hq
        rw [if_neg fun h => hqid h.2]
        exact hlive type' q c' hq hqp
  · push Not at hsomeone
    rw [framesTo_toOthers_of_nobody (toClient_sendBlobTcp type id blob) hsomeone]
    have hnobody := hx.nobody fun p hp => hsomeone p ((hon p).mpr hp)
    refine ⟨hx.begun, fun p hp => absurd hp (hsomeone p), fun _ type' q c' hq => ?_⟩
    rw [hclients] at hq
    by_cases hqid : q = id
    · rw [if_pos hqid] at hq
      cases hq
      rw [blob_storeBlob]
      split
      · exact .inr hne
      · exact hnobody type' q client (hqid ▸ hl)
    · rw [if_neg hqid] at hq
      exact hnobody type' q c' hq

theorem tells_tcpBlobChunk (hslots : Slotted s) {type : Msg} (ht : type = .AppearanceChunk ∨ type = .InventoryChunk) (h0 : k ≠ 0)
    (ha : Alone s k) {id : PeerId} {client : Client} (hl : s.clients.lookup id = some client) (hid : client.peerId = id) (env : Env)
    (buf : Bytes) (t : Time) : Tells k s (tcpBlobChunk env s type id client buf t) := by
  have hset : ∀ asm, Tells k s ((countChunk s client t).setAssemblies type asm) := by
    intro asm
    rw [setAssemblies_eq]
    exact tells_of_same (.of_eq rfl) (.of_eq rfl)
  rcases tcpBlobChunk_cases env s type id client buf t with ⟨-, he⟩ | ⟨a, -, -, he⟩ | ⟨a, blob, -, htake, he⟩
  · rw [he]
    exact tells_of_same (.of_eq rfl) (.of_eq rfl)
  · rw [he]
    exact hset _
  · have htaken := takeBlob_some htake
    have hne := complete_ne_nil (slotted_lookup (hslots type) client.peerId) htaken
    have hclients : ∀ asm, ((countChunk s client t).setAssemblies type asm).clients = s.clients := by
      intro asm
      rw [setAssemblies_eq]
      rfl
    rw [he]
    refine (hset _).trans (tells_storeBlob ht h0 ?_ ?_ hid hne (complete_length_le htaken))
    · intro p q hp hq
      rw [OnConn, hclients] at hp hq
      exact ha p q hp hq
    · rw [hclients]
      exact hl

end Blobs

section Departures
variable {k : ConnId} {s : ServerRuntime}

theorem onConn_erase {s' : ServerRuntime} {id p : PeerId} (h : s'.clients = s.clients.erase id) :
    OnConn s' k p ↔ p ≠ id ∧ OnConn s k p := by
  rw [OnConn, OnConn, h]
  by_cases hp : p = id
  · rw [hp, AList.lookup_erase]
    simp
  · rw [AList.lookup_erase_ne hp]
    simp [hp]

theorem SeenOn.erase {s' : ServerRuntime} {id : PeerId} (h : s'.clients = s.clients.erase id) {x x' : Looks} (hx : SeenOn s k x)
    (htold : x' = x ∨ x' = x.forget id) : SeenOn s' k x' := by
  have hlook : ∀ q c, s'.clients.lookup q = some c → q ≠ id ∧ s.clients.lookup q = some c := by
    intro q c hl
    rw [h] at hl
    by_cases hq : q = id
    · rw [hq, AList.lookup_erase] at hl
      cases hl
    · exact ⟨hq, AList.lookup_erase_ne hq ▸ hl⟩
  have hstored : ∀ type q, q ≠ id → (x'.of type).stored q = (x.of type).stored q := by
    intro type q hq
    rcases htold with rfl | rfl
    · rfl
    · rw [Looks.stored_forget, if_neg hq]
  refine ⟨fun type q => ?_, fun p hp type q c hl hq => ?_, fun hp type q c hl => ?_⟩
  · rcases htold with rfl | rfl
    · exact hx.begun type q
    · exact (Looks.begun_forget ..).trans (hx.begun type q)
  · obtain ⟨hqid, hl⟩ := hlook q c hl
    rw [hstored type q hqid]
    exact hx.live p ((onConn_erase h).mp hp).2 type q c hl hq
  · obtain ⟨hqid, hl⟩ := hlook q c hl
    rw [hstored type q hqid]
    by_cases hon : OnConn s k id
    · -- it went by a Bye, which leaves the connection open
      rw [hx.live id hon type q c hl hqid, held]
      by_cases hblob : Client.blob type c = []
      · exact .inl (if_pos hblob)
      · exact .inr hblob
    · refine hx.nobody (fun p hc => ?_) type q c hl
      by_cases hpid : p = id
      · exact hon (hpid ▸ hc)
      · exact hp p ((onConn_erase h).mpr ⟨hpid, hc⟩)

theorem tells_removeClient (h0 : k ≠ 0) (hk : Keyed s.clients) (ha : Alone s k) (env : Env) (id : PeerId) (keepTcp : Bool) :
    Tells k s (removeClient env s id keepTcp) := by
  cases hl : s.clients.lookup id with
  | none =>
    rw [removeClient_of_absent env hl]
    exact .refl s
  | some client =>
    have hid := hk id client hl
    obtain ⟨persist, he⟩ := removeClient_eq env hl keepTcp
    rw [he]
    refine ⟨_, rfl, fun _ x hx => hx.erase rfl ?_⟩
    rw [framesTo_append, framesTo_releaseCmds, List.append_nil, byeOthers]
    by_cases hsomeone : ∃ p, OnConn s k p
    · obtain ⟨p, c, hc, hck⟩ := hsomeone
      rw [framesTo_toOthers (toClient_sendTcp _) ha hc hck]
      split
      · exact .inl rfl
      · rw [sendTcp_eq (hck.symm ▸ h0) (List.ne_nil_of_length_pos (by simp [Bye.encode]))]
        simp only [framesTo, toTcp, hck, and_self, decide_true, List.filter_cons_of_pos, List.filter_nil, List.map_cons,
          List.map_nil, List.foldl_cons, List.foldl_nil]
        rw [Looks.hear_bye, hid]
        exact .inr rfl
    · push Not at hsomeone
      rw [framesTo_toOthers_of_nobody (toClient_sendTcp _) hsomeone]
      exact .inl rfl

theorem tells_kickClient (h0 : k ≠ 0) {id : PeerId} {client : Client} (hl : s.clients.lookup id = some client) (doBan : Bool) :
    Tells k s (kickClient s id client doBan) := by
  obtain ⟨dirty, he⟩ := kickClient_eq hl doBan
  rw [he]
  refine ⟨_, rfl, fun hnot x hx => hx.erase rfl (.inl ?_)⟩
  have hne : client.connId ≠ k := by
    intro hck
    apply hnot
    rw [closeConn_eq (hck.symm ▸ h0), hck]
    exact List.mem_append_right _ (List.mem_singleton.mpr rfl)
  have hnone : framesTo k (sendTcp client (makeBye client.peerId).encode ++ closeConn client.connId) = [] := by
    rw [framesTo_append, framesTo_sendTcp_of_ne hne, framesTo_closeConn, List.append_nil]
  rw [hnone]
  rfl

end Departures

section Inputs
variable {k : ConnId} {s s' : ServerRuntime}

theorem SameSight.alone (h : SameSight k s s') (ha : Alone s k) : Alone s' k :=
  fun p q hp hq => ha p q ((h.conn p).mp hp) ((h.conn q).mp hq)

theorem sameSight_seen (s : ServerRuntime) (id : PeerId) (t : Time) : SameSight k s (s.seen id t) :=
  .modify rfl (fun _ _ => Iff.rfl) fun _ _ _ => rfl

theorem tells_tcpMessage (hslots : Slotted s) (h0 : k ≠ 0) (ha : Alone s k) {id : PeerId} {client : Client}
    (hl : s.clients.lookup id = some client) (hid : client.peerId = id) (env : Env) {type : Msg} {header : Header} {buf : Bytes}
    (ho : openFrame buf = some (header, type)) (hb : type ≠ .Bye) (t : Time) : Tells k s (tcpMessage env s type id client buf t) := by
  apply tcpMessage_cases (P := Tells k s)
  case unhandled => exact .refl s
  case bye => exact fun h => absurd h hb
  case hello => exact fun _ => tells_helloAgain hl
  case snapshot =>
    intro _
    rcases tcpWorldSnapshot_cases s client buf with ⟨-, he⟩ | ⟨-, world, -, he⟩
    · rw [he]
      exact .refl s
    · rw [he]
      exact tells_of_same (.of_eq rfl) (.of_eq rfl)
  case chunk => exact fun hchunk => tells_tcpBlobChunk hslots hchunk h0 ha hl hid env buf t
  case heartbeat =>
    intro _
    refine tells_of_same (.of_eq rfl) (noLooks_queue (lookless_sendTcp ?_))
    exact unlooked_message .Heartbeat (by decide) rfl _
  case chat => exact fun _ => tells_tcpChat buf t
  case kick => exact fun htype => tells_tcpKick (htype ▸ ho)
  case teleport => exact fun htype => tells_tcpTeleport (htype ▸ ho)
  case hit => exact fun _ => tells_tcpHit buf t

theorem tells_handleClientFrame (hslots : Slotted s) (h0 : k ≠ 0) (hk : Keyed s.clients) (ha : Alone s k) {id : PeerId}
    {client : Client} (hl : s.clients.lookup id = some client) (env : Env) (buf : Bytes) (t : Time) :
    Tells k s (handleClientFrame env s id client buf t) := by
  have hid := hk id client hl
  let s₁ : ServerRuntime := { s with removePeers := [], keepTcpPeers := [] }
  have h₁ : Tells k s s₁ := tells_of_same (.of_eq rfl) (.of_eq rfl)
  have hcleared : SameSight k s s₁ := .of_eq rfl
  have hseen : SameSight k s (s₁.seen id t) := hcleared.trans (sameSight_seen s₁ id t)
  have hend : ∀ s₂ : ServerRuntime, Tells k s₂ { s₂ with removePeers := [], keepTcpPeers := [] } :=
    fun s₂ => tells_of_same (.of_eq rfl) (.of_eq rfl)
  unfold handleClientFrame
  dsimp only
  by_cases hb : ∀ header, openFrame buf ≠ some (header, .Bye)
  · have hr := (handleTcpMessage_simulates env (s := s₁) hk hl buf t hb).2
    rw [show (handleTcpMessage env { s with removePeers := [], keepTcpPeers := [] } id client buf t).removePeers = [] from hr]
    refine Tells.trans (h₁.trans ?_) (hend _)
    unfold handleTcpMessage
    cases ho : openFrame buf with
    | none => exact tells_of_same (.of_eq rfl) (.of_eq rfl)
    | some frame =>
      obtain ⟨header, type⟩ := frame
      dsimp only
      split
      · exact .refl _
      · refine (tells_of_same (sameSight_seen s₁ id t) (.of_eq rfl)).trans (tells_tcpMessage (fun type q a h => ?_) h0
          (hseen.alone ha) (lookup_seen (s := s₁) hl t) hid env ho ?_ t)
        · exact hslots type q a h
        · rintro rfl
          exact hb header ho
  · push Not at hb
    obtain ⟨header, ho⟩ := hb
    rw [handleTcpMessage_bye env _ id client ho, hid]
    let s₂ : ServerRuntime := { s₁.seen id t with removePeers := [id], keepTcpPeers := [id] }
    have hlisted : SameSight k (s₁.seen id t) s₂ := .of_eq rfl
    have h₂ : SameSight k s s₂ := hseen.trans hlisted
    have hgone : Tells k s₂ (removeClient env s₂ id ([id].contains id)) :=
      tells_removeClient (s := s₂) h0 ((quiet_seen s₁ id t).keyed hk) (h₂.alone ha) env id _
    exact ((tells_of_same h₂ (.of_eq rfl)).trans hgone).trans (hend _)

theorem lookless_sendUdp {c : Client} {data : Bytes} : ∀ cmd ∈ sendUdp c data, Lookless cmd := by
  intro cmd hm
  rw [(mem_sendUdp hm).2]
  exact .of_kind nofun

theorem tells_udpBind (buf : Bytes) (from_ : SockAddr) (t : Time) : Tells k s (udpBind s buf from_ t) := by
  cases hl : s.clients.lookup (UdpBind.decode buf).peerId with
  | none =>
    rw [udpBind]
    dsimp only
    rw [hl]
    exact .refl s
  | some client =>
    by_cases ht : client.udpToken = 0 ∨ client.udpToken ≠ (UdpBind.decode buf).udpToken
    · rw [udpBind]
      dsimp only
      rw [hl]
      dsimp only
      rw [if_pos ht]
      exact .refl s
    · rw [udpBind_eq hl ht]
      refine tells_of_same (.modify rfl (fun c _ => ?_) fun c _ type => blob_unbound type c)
        ⟨_, rfl, lookless_toOthers fun other cmd hm => ?_⟩
      · dsimp only
        rw [(Client.unbound_eq c).1]
      · split at hm
        · exact lookless_sendUdp cmd hm
        · cases hm

theorem tells_relayTo {s : ServerRuntime} (client : Client) (data : Bytes) (interested : Client → Bool) :
    Tells k s (s.relayTo client data interested) := by
  refine tells_of_same (.of_eq rfl) (noLooks_queue (lookless_toOthers fun other cmd hm => ?_))
  split at hm
  · exact lookless_sendUdp cmd hm
  · cases hm

theorem tells_udpPlayerPose {id : PeerId} {client : Client} (buf : Bytes) (t : Time) :
    Tells k s (udpPlayerPose s id client buf t) := by
  have hpose {s' : ServerRuntime} (h : s'.clients = (storePose s id client (relayedPose client buf)).clients)
      (ho : s'.outbound = s.outbound) : Tells k s s' :=
    tells_of_same (.modify h (fun _ _ => Iff.rfl) fun _ _ _ => rfl) (.of_eq ho)
  rcases udpPlayerPose_cases s id client buf t with ⟨-, he⟩ | ⟨-, _, ⟨-, he⟩ | ⟨-, world, -, he⟩⟩
  · rw [he]
    exact tells_of_same (.of_eq rfl) (.of_eq rfl)
  · rw [he]
    refine .trans ?_ (tells_relayTo _ _ _)
    exact hpose rfl rfl
  · rw [he]
    refine .trans ?_ (tells_relayTo _ _ _)
    exact hpose rfl rfl

theorem tells_udpActorPose {client : Client} (buf : Bytes) : Tells k s (udpActorPose s client buf) := by
  rcases udpActorPose_cases s client buf with he | ⟨_, -, he⟩
  · rw [he]
    exact .refl s
  · rw [he]
    exact tells_relayTo _ _ _

theorem tells_handleUdpPacket (hok : Ok s.sessions) (buf : Bytes) (from_ : SockAddr) (t : Time) :
    Tells k s (handleUdpPacket s buf from_ t) := by
  have hcount : Tells k s s.countDatagram := tells_of_same (.of_eq rfl) (.of_eq rfl)
  have hseen : ∀ id, Tells k s (s.countDatagram.seen id t) := fun id =>
    hcount.trans (tells_of_same (sameSight_seen _ id t) (.of_eq rfl))
  have hcase := handleUdpPacket_cases hok buf from_ t
  generalize handleUdpPacket s buf from_ t = s' at hcase ⊢
  cases hcase with
  | bind id ha => exact hcount.trans (tells_udpBind buf from_ t)
  | ignored badHeaders ha => exact tells_of_same (.of_eq rfl) (.of_eq rfl)
  | short id client ha hu hl => exact hseen id
  | playerPose id client header ha hu hl ho => exact (hseen id).trans (tells_udpPlayerPose buf t)
  | actorPose id client header ha hu hl ho => exact (hseen id).trans (tells_udpActorPose buf)

theorem tells_tcpClosed (h0 : k ≠ 0) (hk : Keyed s.clients) (ha : Alone s k) (env : Env) {ev : InboundEvent}
    (hkind : ev.kind = .TcpClosed) (hne : ev.connId ≠ k) (t : Time) : Tells k s (applyInbound env s ev t) := by
  let s₁ : ServerRuntime := { s with pendingTcp := s.pendingTcp.filter fun p => p.connId ≠ ev.connId }
  have h₁ : Tells k s s₁ := tells_of_same (.of_eq rfl) (.of_eq rfl)
  unfold applyInbound
  rw [hkind]
  dsimp only
  split
  · exact h₁.trans (tells_removeClient (s := s₁) h0 hk ha env _ _)
  · split
    · rename_i id client hf
      obtain ⟨hl, hc⟩ := findByConn_some hf
      let s₂ : ServerRuntime := { s₁ with clients := s.clients.modify id fun c => { c with connId := 0 } }
      have h₂ : SameSight k s₁ s₂ := by
        refine .modify rfl (fun c hcl => ?_) fun _ _ _ => rfl
        cases hl.symm.trans hcl
        exact ⟨fun h => absurd h.symm h0, fun h => absurd (hc.symm.trans h) hne⟩
      refine (h₁.trans (tells_of_same h₂ (.of_eq rfl))).trans ?_
      exact tells_removeClient (s := s₂) h0 (hk.modify id fun _ => rfl) (h₂.alone ha) env _ _
    · exact h₁

theorem tells_removals (h0 : k ≠ 0) (hk : Keyed s.clients) (ha : Alone s k) (env : Env) (ids : List PeerId) :
    Tells k s (ids.foldl (fun s id => removeClient env s id false) s) := by
  induction ids generalizing s with
  | nil => exact .refl s
  | cons id ids ih =>
    rw [List.foldl_cons]
    cases hl : s.clients.lookup id with
    | none =>
      rw [removeClient_of_absent env hl]
      exact ih hk ha
    | some client =>
      have hclients : (removeClient env s id false).clients = s.clients.erase id := by
        obtain ⟨persist, he⟩ := removeClient_eq env hl false
        rw [he]
      refine (tells_removeClient h0 hk ha env id false).trans (ih ?_ fun p q hp hq => ?_)
      · rw [hclients]
        exact hk.erase id
      · exact ha p q ((onConn_erase hclients).mp hp).2 ((onConn_erase hclients).mp hq).2

theorem lookless_broadcast {clients : ClientTable} {data : Bytes} (h : Looks.Unlooked data) :
    ∀ cmd ∈ clients.values.flatMap fun client => sendTcp client data, Lookless cmd := by
  intro cmd hm
  obtain ⟨client, -, hc⟩ := List.mem_flatMap.mp hm
  exact lookless_sendTcp h cmd hc

theorem tells_runAdminCommand (h0 : k ≠ 0) (env : Env) (cmdLine : Bytes) : Tells k s (runAdminCommand env s cmdLine) := by
  have hcase := runAdminCommand_console env s cmdLine
  generalize runAdminCommand env s cmdLine = s' at hcase ⊢
  cases hcase with
  | kick id client doBan hl => exact tells_kickClient h0 hl doBan
  | silent _ hc hf ho => exact tells_of_same (.of_eq hc) (.of_eq ho)
  | say text =>
    refine tells_of_same (.of_eq rfl) ⟨_, rfl, lookless_broadcast ?_⟩
    exact unlooked_message .Chat (by decide) rfl _
  | rules cfg hash =>
    refine tells_of_same (.of_eq rfl) ⟨_, rfl, lookless_broadcast ?_⟩
    exact unlooked_message .SessionRules (by decide) rfl _

end Inputs

section Admission
variable {k : ConnId} {s : ServerRuntime}

/-- What the messages about a player's blob, if there is one, make of the looks. -/
def offer (x : Looks) (type : Msg) (p : PeerId) (blob : Bytes) : Looks :=
  if blob = [] ∨ 0xFFFF < blob.length then x else x.store type p blob

theorem begun_offer (x : Looks) (type type' : Msg) (p q : PeerId) (blob : Bytes) :
    ((offer x type p blob).of type').begun q = (x.of type').begun q := by
  unfold offer
  split
  · rfl
  · exact Looks.begun_store ..

theorem stored_offer (x : Looks) (type type' : Msg) (p q : PeerId) (blob : Bytes) :
    ((offer x type p blob).of type').stored q =
      if (Looks.SameKind type' type ∧ q = p) ∧ ¬(blob = [] ∨ 0xFFFF < blob.length) then some blob else (x.of type').stored q := by
  unfold offer
  split
  · rename_i hnone
    rw [if_neg fun h => h.2 hnone]
  · rename_i hsome
    rw [Looks.stored_store]
    simp only [hsome, not_false_eq_true, and_true]

theorem foldl_offer {type : Msg} (ht : type = .AppearanceChunk ∨ type = .InventoryChunk) (h0 : k ≠ 0) {joined : Client}
    (hc : joined.connId = k) (p : PeerId) (blob : Bytes) {x : Looks} (hx : ∀ type q, (x.of type).begun q = none) :
    (framesTo k (if blob = [] then [] else sendBlobTcp joined type p blob)).foldl Looks.hear x = offer x type p blob := by
  have hsend : framesTo k (if blob = [] then [] else sendBlobTcp joined type p blob) =
      framesTo k (sendBlobTcp joined type p blob) := by
    split
    · rename_i hnil
      rw [framesTo_sendBlobTcp hc h0, if_pos (.inl hnil)]
      rfl
    · rfl
  rw [hsend, framesTo_sendBlobTcp hc h0, offer]
  split
  · rfl
  · rename_i hsome
    rw [not_or, not_lt] at hsome
    exact Looks.foldl_hear_blob ht x p hsome.1 hsome.2 (hx type p)

/-- What the messages about one player make of the looks. -/
def replay (x : Looks) (e : Σ _ : PeerId, Client) : Looks :=
  offer (offer x .AppearanceChunk e.1 e.2.appearance) .InventoryChunk e.1 e.2.inventory

theorem begun_replay (x : Looks) (e : Σ _ : PeerId, Client) (type : Msg) (q : PeerId) :
    ((replay x e).of type).begun q = (x.of type).begun q := (begun_offer ..).trans (begun_offer ..)

theorem stored_replay (x : Looks) (e : Σ _ : PeerId, Client) (type : Msg) (q : PeerId) :
    ((replay x e).of type).stored q =
      if q = e.1 ∧ ¬(Client.blob type e.2 = [] ∨ 0xFFFF < (Client.blob type e.2).length) then some (Client.blob type e.2)
      else (x.of type).stored q := by
  rw [replay, stored_offer, stored_offer]
  unfold Looks.SameKind Client.blob
  by_cases ht : type = .AppearanceChunk <;> simp [ht]

/-- What the messages about everyone but one make of the looks. -/
def replayOthers (skip : PeerId) (l : List (Σ _ : PeerId, Client)) (x : Looks) : Looks :=
  l.foldl (fun x e => if e.1 = skip then x else replay x e) x

theorem begun_replayOthers (skip : PeerId) (l : List (Σ _ : PeerId, Client)) (x : Looks) (type : Msg) (q : PeerId) :
    ((replayOthers skip l x).of type).begun q = (x.of type).begun q := by
  induction l generalizing x with
  | nil => rfl
  | cons e l ih =>
    rw [replayOthers, List.foldl_cons]
    refine (ih _).trans ?_
    split
    · rfl
    · exact begun_replay ..

theorem stored_replayOthers_of_notMem {skip : PeerId} {l : List (Σ _ : PeerId, Client)} {q : PeerId} (h : ∀ e ∈ l, e.1 ≠ q)
    (x : Looks) (type : Msg) : ((replayOthers skip l x).of type).stored q = (x.of type).stored q := by
  induction l generalizing x with
  | nil => rfl
  | cons e l ih =>
    rw [replayOthers, List.foldl_cons]
    refine (ih (fun e he => h e (List.mem_cons_of_mem _ he)) _).trans ?_
    split
    · rfl
    · rw [stored_replay, if_neg fun hq => h e List.mem_cons_self hq.1.symm]

theorem stored_replayOthers {skip : PeerId} {l : List (Σ _ : PeerId, Client)} (hn : (l.map Sigma.fst).Nodup)
    {e : Σ _ : PeerId, Client} (he : e ∈ l) (hskip : e.1 ≠ skip) (x : Looks) (type : Msg) :
    ((replayOthers skip l x).of type).stored e.1 =
      if Client.blob type e.2 = [] ∨ 0xFFFF < (Client.blob type e.2).length then (x.of type).stored e.1
      else some (Client.blob type e.2) := by
  induction l generalizing x with
  | nil => cases he
  | cons f l ih =>
    rw [List.map_cons, List.nodup_cons] at hn
    rw [replayOthers, List.foldl_cons]
    rcases List.mem_cons.mp he with rfl | he
    · rw [if_neg hskip]
      have hnot : ∀ f ∈ l, f.1 ≠ e.1 := fun f hf hq => hn.1 (hq ▸ List.mem_map_of_mem hf)
      refine (stored_replayOthers_of_notMem hnot _ type).trans ?_
      rw [stored_replay]
      split_ifs <;> simp_all
    · refine (ih hn.2 he _).trans ?_
      have hne : e.1 ≠ f.1 := fun hq => hn.1 (hq ▸ List.mem_map_of_mem he)
      have hsame : ((if f.1 = skip then x else replay x f).of type).stored e.1 = (x.of type).stored e.1 := by
        split
        · rfl
        · rw [stored_replay, if_neg fun hq => hne hq.1]
      rw [hsame]

theorem foldl_replay (h0 : k ≠ 0) {joined : Client} (hc : joined.connId = k) (skip : PeerId) {l : List (Σ _ : PeerId, Client)}
    (hl : ∀ e ∈ l, e.2.peerId = e.1 ∧ e.2.havePose = true) {x : Looks} (hx : ∀ type q, (x.of type).begun q = none) :
    (framesTo k (l.flatMap fun e => if e.1 = skip then [] else
      if e.2.havePose then
        sendUdp joined e.2.lastPose.encode ++
          (if e.2.appearance = [] then [] else sendBlobTcp joined .AppearanceChunk e.2.peerId e.2.appearance) ++
          (if e.2.inventory = [] then [] else sendBlobTcp joined .InventoryChunk e.2.peerId e.2.inventory)
      else [])).foldl Looks.hear x = replayOthers skip l x := by
  induction l generalizing x with
  | nil => rfl
  | cons e l ih =>
    obtain ⟨hid, hpose⟩ := hl e List.mem_cons_self
    have hrest := fun e he => hl e (List.mem_cons_of_mem _ he)
    rw [List.flatMap_cons, framesTo_append, List.foldl_append, replayOthers, List.foldl_cons]
    by_cases hs : e.1 = skip
    · rw [if_pos hs, if_pos hs]
      exact ih hrest hx
    · have hudp : framesTo k (sendUdp joined e.2.lastPose.encode) = [] :=
        framesTo_eq_nil fun cmd hm hk => by rw [(mem_sendUdp hm).2] at hk; cases hk
      rw [if_neg hs, if_neg hs, if_pos hpose, framesTo_append, framesTo_append, hudp, List.nil_append, List.foldl_append,
        foldl_offer (.inl rfl) h0 hc _ _ hx, foldl_offer (.inr rfl) h0 hc _ _ fun type q => (begun_offer ..).trans (hx type q), hid]
      exact ih hrest fun type q => (begun_replay ..).trans (hx type q)

/-- A client that is welcomed is told of everyone whose blobs it does not hold already. -/
theorem foldl_welcomeMessages (h0 : k ≠ 0) {joined : Client} (hc : joined.connId = k)
    (hl : ∀ e ∈ s.clients.entries, e.2.peerId = e.1 ∧ e.2.havePose = true) (hello : Hello) (rec_ : PlayerRec) {x : Looks}
    (hx : ∀ type q, (x.of type).begun q = none) :
    (framesTo k (welcomeMessages s joined hello rec_)).foldl Looks.hear x = replayOthers joined.peerId s.clients.entries x := by
  rw [welcomeMessages, framesTo_append, List.foldl_append, framesTo_append, List.foldl_append]
  have hplain : ∀ {type : Msg} {header : Header} {rest : Bytes}, header.type = type.code →
      type.code ≠ Msg.AppearanceChunk.code ∧ type.code ≠ Msg.InventoryChunk.code ∧ type.code ≠ Msg.Bye.code → ∀ x : Looks,
        (framesTo k (sendTcp joined (header.encode ++ rest))).foldl Looks.hear x = x :=
    fun ht hn x => foldl_lookless x (lookless_sendTcp (unlooked_message _ hn ht _))
  have hwelcome : Msg.Welcome.code ≠ Msg.AppearanceChunk.code ∧ Msg.Welcome.code ≠ Msg.InventoryChunk.code ∧
      Msg.Welcome.code ≠ Msg.Bye.code := by decide
  have hsnapshot : Msg.WorldSnapshot.code ≠ Msg.AppearanceChunk.code ∧ Msg.WorldSnapshot.code ≠ Msg.InventoryChunk.code ∧
      Msg.WorldSnapshot.code ≠ Msg.Bye.code := by decide
  rw [Welcome.encode, WorldSnapshot.encode, hplain rfl hsnapshot, hplain rfl hwelcome]
  exact foldl_replay h0 hc joined.peerId hl hx

/-- The connection of a client that is welcomed. -/
theorem seenOn_welcomed {id : PeerId} {joined : Client} (hl : s.clients.lookup id = some joined) (hid : joined.peerId = id)
    (hc : joined.connId = k) (h0 : k ≠ 0) (ha : Alone s k) (hk : Keyed s.clients) (hm : Mirrored s) {s' : ServerRuntime}
    (hs : s'.clients = s.clients) (hello : Hello) (rec_ : PlayerRec) {x : Looks} (hx : ∀ type q, (x.of type).begun q = none)
    (hstored : ∀ type q c, s.clients.lookup q = some c → q ≠ id → (x.of type).stored q = held (Client.blob type c) ∨
      ((x.of type).stored q = none ∨ Client.blob type c ≠ []) ∧ (Client.blob type c).length ≤ 0xFFFF) :
    SeenOn s k ((framesTo k (welcomeMessages s' joined hello rec_)).foldl Looks.hear x) := by
  have hentries : ∀ e ∈ s'.clients.entries, e.2.peerId = e.1 ∧ e.2.havePose = true := by
    intro e he
    have hlookup := Table.mem_entries.mp (hs ▸ he)
    obtain ⟨rec', -, hmirror⟩ := hm.all e.1 e.2 hlookup
    exact ⟨hk e.1 e.2 hlookup, hmirror.havePose⟩
  rw [foldl_welcomeMessages h0 hc hentries hello rec_ hx, hid, hs]
  refine ⟨fun type q => (begun_replayOthers ..).trans (hx type q), fun p hp type q c hq hqp => ?_, fun hnone => ?_⟩
  · obtain rfl := ha p id hp ⟨joined, hl, hc⟩
    have hreplayed := stored_replayOthers (e := ⟨q, c⟩) s.clients.nodupKeys (Table.mem_entries.mpr hq) hqp x type
    rw [hreplayed]
    dsimp only
    rw [held]
    rcases hstored type q c hq hqp with hheld | ⟨hfree, hfits⟩
    · rw [hheld, held]
      split_ifs <;> simp_all
    · by_cases hnil : Client.blob type c = []
      · rw [if_pos (.inl hnil), if_pos hnil]
        exact hfree.resolve_right fun h => h hnil
      · rw [if_neg (by simp [hnil, hfits]), if_neg hnil]
  · exact absurd ⟨joined, hl, hc⟩ (hnone id)

/-- The looks that a welcome of `id` on the connection brings in step. -/
structure Welcomable (s : ServerRuntime) (id : PeerId) (x : Looks) : Prop where
  begun : ∀ type q, (x.of type).begun q = none
  stored : ∀ type q c, s.clients.lookup q = some c → q ≠ id → (x.of type).stored q = held (Client.blob type c) ∨
    ((x.of type).stored q = none ∨ Client.blob type c ≠ []) ∧ (Client.blob type c).length ≤ 0xFFFF

/-- After a join, the connection of the client has been told of the others, and no other connection of anything. -/
theorem seenOn_completeJoin {id : PeerId} {joined : Client} (hl : s.clients.lookup id = some joined) (hid : joined.peerId = id)
    (h0 : k ≠ 0) (ha : Alone s k) (hk : Keyed s.clients) (hm : Mirrored s) (hello : Hello) (rec_ : PlayerRec) :
    ∃ cmds, (completeJoin s id hello rec_).outbound = s.outbound ++ cmds ∧ ∀ x, (joined.connId = k → Welcomable s id x) →
      (joined.connId ≠ k → SeenOn s k x) → SeenOn (completeJoin s id hello rec_) k ((framesTo k cmds).foldl Looks.hear x) := by
  obtain ⟨world, dirty, hash, ho, -⟩ := completeJoin_eq hl hello rec_
  have hsame : SameSight k s (completeJoin s id hello rec_) := .of_eq (completeJoin_clients s id hello rec_).1
  have hclients : (adoptHostWorld s joined hello).clients = s.clients := by
    obtain ⟨world, dirty, hash, he, -⟩ := adoptHostWorld_eq s joined hello
    rw [he]
  refine ⟨welcomeMessages (adoptHostWorld s joined hello) joined hello rec_, congrArg outbound ho, fun x hthis helse => ?_⟩
  refine hsame.seenOn ?_
  by_cases hc : joined.connId = k
  · have hx := hthis hc
    exact seenOn_welcomed hl hid hc h0 ha hk hm hclients hello rec_ hx.begun hx.stored
  · have hnone : framesTo k (welcomeMessages (adoptHostWorld s joined hello) joined hello rec_) = [] := by
      refine framesTo_eq_nil fun cmd hm hkind => ?_
      rw [toOwned_welcomeMessages hm hkind]
      exact hc
    rw [hnone]
    exact helse hc

theorem blob_reconnected {s : ServerRuntime} (hm : Mirrored s) {hello : Hello} {id : PeerId} {client : Client}
    (hf : findByKey s (helloKey hello) = some ⟨id, client⟩) (pending : PendingTcp) (token : UInt32) (t : Time) (type : Msg) :
    Client.blob type (reconnectedClient pending hello (helloRecord s hello) token t (Client.unbound client)) =
      Client.blob type client := by
  obtain ⟨hl, hkey⟩ := findByKey_some hf
  obtain ⟨rec', hr, hmirror⟩ := hm.all id client hl
  dsimp only at hkey
  rw [hkey] at hr
  have happearance : (helloRecord s hello).appearance = client.appearance := by
    rw [helloRecord, hr]
    exact hmirror.appearance.symm
  have hinventory : (helloRecord s hello).inventory = client.inventory := by
    rw [helloRecord, hr]
    exact hmirror.inventory.symm
  rw [← blob_unbound type client]
  have hlook := Client.look_unbound client
  simp only [Client.look, Prod.mk.injEq] at hlook
  obtain ⟨-, -, -, -, hunboundA, hunboundI⟩ := hlook
  unfold Client.blob reconnectedClient
  dsimp only
  rw [happearance, hinventory, hunboundA, hunboundI, ite_self, ite_self]

section Entered
variable {s' : ServerRuntime} {id : PeerId} {joined : Client}

theorem onConn_entered (hlookup : ∀ q, s'.clients.lookup q = if q = id then some joined else s.clients.lookup q) (p : PeerId) :
    OnConn s' k p ↔ p = id ∧ joined.connId = k ∨ p ≠ id ∧ OnConn s k p := by
  rw [OnConn, hlookup]
  by_cases hp : p = id
  · simp [hp]
  · simp [hp, OnConn]

theorem alone_entered (hlookup : ∀ q, s'.clients.lookup q = if q = id then some joined else s.clients.lookup q)
    (ha : Alone s k) (hfree : ∀ p, ¬ OnConn s joined.connId p) : Alone s' k := by
  intro p q hp hq
  rcases (onConn_entered hlookup p).mp hp with ⟨rfl, hc⟩ | ⟨-, hp⟩ <;>
    rcases (onConn_entered hlookup q).mp hq with ⟨rfl, hc'⟩ | ⟨-, hq⟩
  · rfl
  · exact absurd (hc ▸ hq) (hfree q)
  · exact absurd (hc' ▸ hp) (hfree p)
  · exact ha p q hp hq

theorem keyed_entered (hlookup : ∀ q, s'.clients.lookup q = if q = id then some joined else s.clients.lookup q)
    (hk : Keyed s.clients) (hid : joined.peerId = id) : Keyed s'.clients := by
  intro q c hq
  rw [hlookup] at hq
  split at hq
  · rename_i hqid
    cases hq
    exact hid.trans hqid.symm
  · exact hk q c hq

theorem onConn_elsewhere (hlookup : ∀ q, s'.clients.lookup q = if q = id then some joined else s.clients.lookup q)
    (hc : joined.connId ≠ k) (hoff : ¬ OnConn s k id) (p : PeerId) : OnConn s' k p ↔ OnConn s k p := by
  rw [onConn_entered hlookup]
  by_cases hp : p = id
  · simp [hp, hoff, hc]
  · simp [hp]

end Entered

/-- What a Hello of a new player, admitted on another connection, has to leave as it is. -/
structure Unforeseen (s : ServerRuntime) (k : ConnId) (hello : Hello) (x : Looks) : Prop where
  /-- nothing is held under the id that the player gets -/
  fresh : ∀ type, (x.of type).stored s.nextPeer = none
  /-- a player who is there already has not missed a blob -/
  blobless : (∃ p, OnConn s k p) → (helloRecord s hello).appearance = [] ∧ (helloRecord s hello).inventory = []

theorem told_reconnect (env : Env) (h0 : k ≠ 0) (hk : Keyed s.clients) (hm : Mirrored s) (ha : Alone s k) {hello : Hello}
    {id : PeerId} {client : Client} (hf : findByKey s (helloKey hello) = some ⟨id, client⟩) {pending : PendingTcp}
    (hfree : ∀ p, ¬ OnConn s pending.connId p) (hfits : pending.connId = k → ∀ type q c, s.clients.lookup q = some c →
      (Client.blob type c).length ≤ 0xFFFF) (t : Time) : Tells k s (admitHello env s pending hello t).runtime := by
  have hl : s.clients.lookup id = some client := (findByKey_some hf).1
  have hid := hk id client hl
  have hl' : (enterRecord s hello).clients.lookup id = some client := hl
  rw [admitHello_reconnect env hf]
  dsimp only
  have hrec : (enterRecord s hello).players.lookup (helloKey hello) = some (helloRecord s hello) := AList.lookup_insert _
  have hmirrored := (hm.enter hello).reconnect hl' pending (findByKey_some hf).2 hrec (makeUdpToken (enterRecord s hello).udpToken) t
  have hs := softReconnect_eq hl' pending hello (helloRecord s hello) t
  generalize softReconnect (enterRecord s hello) id client pending hello (helloRecord s hello) t = s₁ at hs ⊢
  have hclients : s₁.clients = s.clients.modify id fun c =>
      reconnectedClient pending hello (helloRecord s hello) (makeUdpToken s.udpToken) t (Client.unbound c) := by rw [hs]; rfl
  have hm₁ : Mirrored s₁ := hmirrored.of_eq hclients (by rw [hs])
  have ho : s₁.outbound = s.outbound ++ ((if client.connId ≠ 0 ∧ client.connId ≠ pending.connId then closeConn client.connId
      else []) ++ bindPeer pending.connId client.peerId) := by rw [hs]; rfl
  clear hs hmirrored
  have hlookup := lookup_modify_of hl fun c =>
    reconnectedClient pending hello (helloRecord s hello) (makeUdpToken s.udpToken) t (Client.unbound c)
  have hblob := blob_reconnected hm hf pending (makeUdpToken s.udpToken) t
  have hjoinedId : (reconnectedClient pending hello (helloRecord s hello) (makeUdpToken s.udpToken) t
      (Client.unbound client)).peerId = id := by
    rw [← hid]
    have hlook := Client.look_unbound client
    simp only [Client.look, Prod.mk.injEq] at hlook
    exact hlook.1
  rw [← hclients] at hlookup
  generalize hj : reconnectedClient pending hello (helloRecord s hello) (makeUdpToken s.udpToken) t (Client.unbound client) = joined
    at hlookup hblob hjoinedId
  have hconn : joined.connId = pending.connId := by rw [← hj]; rfl
  have hblobs : ∀ q c', s₁.clients.lookup q = some c' →
      ∃ c, s.clients.lookup q = some c ∧ ∀ type, Client.blob type c' = Client.blob type c := by
    intro q c' hq
    rw [hlookup] at hq
    split at hq
    · rename_i hqid
      cases hq
      exact ⟨client, hqid ▸ hl, hblob⟩
    · exact ⟨c', hq, fun _ => rfl⟩
  obtain ⟨cmds, hout, htell⟩ := seenOn_completeJoin (by rw [hlookup, if_pos rfl]) hjoinedId h0
    (alone_entered hlookup ha (hconn ▸ hfree)) (keyed_entered hlookup hk hjoinedId) hm₁ hello (helloRecord s hello)
  refine ⟨_, by rw [hout, ho, List.append_assoc], fun hnot x hx => ?_⟩
  have hsilent : framesTo k ((if client.connId ≠ 0 ∧ client.connId ≠ pending.connId then closeConn client.connId else []) ++
      bindPeer pending.connId client.peerId) = [] := by
    rw [framesTo_append, framesTo_bindPeer, List.append_nil]
    exact framesTo_replacedConn k client.connId pending.connId
  rw [framesTo_append, hsilent, List.nil_append]
  refine htell x (fun hc => ⟨hx.begun, fun type q c' hq hqid => .inr ?_⟩) fun hc => ?_
  · obtain rfl : pending.connId = k := hconn.symm.trans hc
    rw [hlookup, if_neg hqid] at hq
    exact ⟨hx.nobody hfree type q c' hq, hfits rfl type q c' hq⟩
  · -- the connection that the client leaves is closed
    have hleft : client.connId ≠ k := by
      intro hck
      refine hnot (List.mem_append_left _ (List.mem_append_left _ ?_))
      rw [if_pos ⟨hck ▸ h0, hck.trans_ne fun h => hc (hconn.trans h.symm)⟩, closeConn_eq (hck ▸ h0), hck]
      exact List.mem_singleton.mpr rfl
    have hoff : ¬ OnConn s k id := by
      rintro ⟨c, hc', hck⟩
      cases hl.symm.trans hc'
      exact hleft hck
    have hsame : SameSight k s s₁ := ⟨onConn_elsewhere hlookup hc hoff, hblobs⟩
    exact hsame.seenOn hx

theorem told_join (env : Env) (h0 : k ≠ 0) (hk : Keyed s.clients) (hm : Mirrored s) (ha : Alone s k) {hello : Hello}
    (hf : findByKey s (helloKey hello) = none) (hhost : helloRequiresHost hello = true → s.world.hostPeerId ≠ 0)
    {pending : PendingTcp} (hfree : ∀ p, ¬ OnConn s pending.connId p) (hfits : pending.connId = k → ∀ type q c,
      s.clients.lookup q = some c → (Client.blob type c).length ≤ 0xFFFF) (t : Time) :
    ∃ cmds, (admitHello env s pending hello t).runtime.outbound = s.outbound ++ cmds ∧ ∀ x, SeenOn s k x →
      (pending.connId ≠ k → s.nextPeer ∉ s.clients → Unforeseen s k hello x) →
        SeenOn (admitHello env s pending hello t).runtime k ((framesTo k cmds).foldl Looks.hear x) := by
  rw [admitHello_join env hf hhost]
  dsimp only
  have hrec : (enterRecord s hello).players.lookup (helloKey hello) = some (helloRecord s hello) := AList.lookup_insert _
  have hmirrored := (hm.enter hello).join env pending t hf rfl hrec
  have hclients : (insertJoining env (enterRecord s hello) pending hello (helloRecord s hello) t).clients =
      s.clients.emplace env.placement s.nextPeer (joiningClient (enterRecord s hello) pending hello (helloRecord s hello) t) := rfl
  have hplayers : (takeHost (insertJoining env (enterRecord s hello) pending hello (helloRecord s hello) t) s.nextPeer).players =
      (insertJoining env (enterRecord s hello) pending hello (helloRecord s hello) t).players := rfl
  have htake : (takeHost (insertJoining env (enterRecord s hello) pending hello (helloRecord s hello) t) s.nextPeer).clients =
      (insertJoining env (enterRecord s hello) pending hello (helloRecord s hello) t).clients := rfl
  have ho : (takeHost (insertJoining env (enterRecord s hello) pending hello (helloRecord s hello) t) s.nextPeer).outbound =
      s.outbound := rfl
  have hm₁ := Mirrored.of_eq hmirrored htake hplayers
  clear hplayers hmirrored
  rw [hclients] at htake
  clear hclients
  generalize takeHost (insertJoining env (enterRecord s hello) pending hello (helloRecord s hello) t) s.nextPeer = s₁
    at htake ho hm₁ ⊢
  have hm₂ : Mirrored (s₁.queue (bindPeer pending.connId s.nextPeer)) := hm₁.of_eq rfl rfl
  have ho₂ : (s₁.queue (bindPeer pending.connId s.nextPeer)).outbound = s.outbound ++ bindPeer pending.connId s.nextPeer := by
    rw [← ho]
    rfl
  by_cases hn : s.nextPeer ∈ s.clients
  · -- the client that has the id is welcomed once more
    rw [Table.emplace_of_mem env.placement _ hn] at htake
    have hclients₂ : (s₁.queue (bindPeer pending.connId s.nextPeer)).clients = s.clients := htake
    obtain ⟨c, hl⟩ := Option.isSome_iff_exists.mp (AList.lookup_isSome.mpr hn)
    generalize s₁.queue (bindPeer pending.connId s.nextPeer) = s₂ at hm₂ ho₂ hclients₂ ⊢
    have hsame : SameSight k s s₂ := .of_eq hclients₂
    obtain ⟨cmds, hout, htell⟩ := seenOn_completeJoin (s := s₂) (hclients₂ ▸ hl) (hk _ c hl) h0 (hsame.alone ha)
      (hclients₂ ▸ hk) hm₂ hello (helloRecord s hello)
    refine ⟨_, by rw [hout, ho₂, List.append_assoc], fun x hx _ => ?_⟩
    rw [framesTo_append, framesTo_bindPeer, List.nil_append]
    refine htell x (fun hc => ⟨hx.begun, fun type q c' hq hqid => .inl ?_⟩) fun _ => hsame.seenOn hx
    exact hx.live s.nextPeer ⟨c, hl, hc⟩ type q c' (hclients₂ ▸ hq) hqid
  · have hlookup : ∀ q, (s₁.queue (bindPeer pending.connId s.nextPeer)).clients.lookup q =
        if q = s.nextPeer then some (joiningClient (enterRecord s hello) pending hello (helloRecord s hello) t)
        else s.clients.lookup q := by
      intro q
      rw [queue]
      dsimp only
      rw [htake]
      exact Table.lookup_emplace env.placement _ hn q
    have hblob : ∀ type, Client.blob type (joiningClient (enterRecord s hello) pending hello (helloRecord s hello) t) =
        if type = .AppearanceChunk then (helloRecord s hello).appearance else (helloRecord s hello).inventory := fun _ => rfl
    have hconn : (joiningClient (enterRecord s hello) pending hello (helloRecord s hello) t).connId = pending.connId := rfl
    have hjoinedId : (joiningClient (enterRecord s hello) pending hello (helloRecord s hello) t).peerId = s.nextPeer := rfl
    generalize joiningClient (enterRecord s hello) pending hello (helloRecord s hello) t = joined at hlookup hblob hconn hjoinedId
    generalize s₁.queue (bindPeer pending.connId s.nextPeer) = s₂ at hm₂ ho₂ hlookup ⊢
    have hnew : ¬ OnConn s k s.nextPeer := by
      rintro ⟨c, hc, -⟩
      exact hn (AList.lookup_isSome.mp (by rw [hc]; rfl))
    obtain ⟨cmds, hout, htell⟩ := seenOn_completeJoin (by rw [hlookup, if_pos rfl]) hjoinedId h0
      (alone_entered hlookup ha (hconn ▸ hfree)) (keyed_entered hlookup hk hjoinedId) hm₂ hello (helloRecord s hello)
    refine ⟨_, by rw [hout, ho₂, List.append_assoc], fun x hx hunforeseen => ?_⟩
    rw [framesTo_append, framesTo_bindPeer, List.nil_append]
    refine htell x (fun hc => ⟨hx.begun, fun type q c' hq hqid => .inr ?_⟩) fun hc => ?_
    · obtain rfl : pending.connId = k := hconn.symm.trans hc
      rw [hlookup, if_neg hqid] at hq
      exact ⟨hx.nobody hfree type q c' hq, hfits rfl type q c' hq⟩
    · have hx' := hunforeseen (fun h => hc (hconn.trans h)) hn
      have hon := onConn_elsewhere hlookup hc hnew
      refine ⟨hx.begun, fun p hp type q c' hq hqp => ?_, fun hnone type q c' hq => ?_⟩
      · have hp := (hon p).mp hp
        rw [hlookup] at hq
        split at hq
        · rename_i hqid
          cases hq
          obtain ⟨happearance, hinventory⟩ := hx'.blobless ⟨p, hp⟩
          rw [hqid, hx'.fresh, hblob, happearance, hinventory, ite_self]
          rfl
        · exact hx.live p hp type q c' hq hqp
      · rw [hlookup] at hq
        split at hq
        · rename_i hqid
          exact .inl (hqid ▸ hx'.fresh type)
        · exact hx.nobody (fun p hp => hnone p ((hon p).mpr hp)) type q c' hq

end Admission

section Step
variable {k : ConnId} {s : ServerRuntime} {i : Env × Input}

/-- The step admits a Hello on a pending connection. -/
def AdmitsOn (s : ServerRuntime) (i : Env × Input) (pending : PendingTcp) (hello : Hello) : Prop :=
  ∃ ev t header, PendingStep s.ready i.2 ev t pending ∧ Admitted s.ready pending ev.bytes t header ∧ hello = readHello ev.bytes

/-- What an admission must not do, for a connection that has been told `x`. -/
structure KeepsSight (s : ServerRuntime) (i : Env × Input) (k : ConnId) (x : Looks) : Prop where
  /-- a client that is admitted on the connection can be sent every blob -/
  fits : ∀ pending hello, AdmitsOn s i pending hello → pending.connId = k → ∀ type q c, s.clients.lookup q = some c →
    (Client.blob type c).length ≤ 0xFFFF
  unforeseen : ∀ pending hello, AdmitsOn s i pending hello → pending.connId ≠ k → findByKey s (helloKey hello) = none →
    s.nextPeer ∉ s.clients → Unforeseen s k hello x

theorem alone_of_owned {used : List ConnId} (ho : Owned used s.sessions) : Alone s k := by
  rintro p q ⟨c, hl, hc⟩ ⟨c', hl', hc'⟩
  exact ho.conn_unique (liveOf_some hl) (liveOf_some hl') (hc.trans hc'.symm)

theorem nobody_on_pending {used : List ConnId} (ho : Owned used s.sessions) {pending : PendingTcp} (hp : pending ∈ s.pendingTcp)
    (p : PeerId) : ¬ OnConn s pending.connId p := by
  rintro ⟨c, hl, hc⟩
  refine ho.not_pending (liveOf_some hl) ?_
  rw [show (endpointOf c).conn = pending.connId from hc]
  exact List.mem_map_of_mem hp

/-- The step leaves a connection in sight that has been told `x`. -/
def StaysSeen (s : ServerRuntime) (i : Env × Input) (k : ConnId) (x : Looks) : Prop :=
  SeenOn (s.step i) k ((framesTo k (s.step i).outbound).foldl Looks.hear x)

theorem Tells.staysSeen (h : Tells k s.ready (s.step i)) (hnot : closeCmd k ∉ (s.step i).outbound) {x : Looks} (hx : SeenOn s k x) :
    StaysSeen s i k x := by
  obtain ⟨cmds, ho, hs⟩ := h
  have ho : (s.step i).outbound = cmds := ho
  have hready : SameSight k s s.ready := .of_eq rfl
  rw [StaysSeen, ho]
  exact hs (ho ▸ hnot) x (hready.seenOn hx)

theorem staysSeen_pending (hr : Reachable s) {used : List ConnId} (ho : Owned used s.sessions) (h0 : k ≠ 0)
    (hnot : closeCmd k ∉ (s.step i).outbound) {x : Looks} (hkeep : KeepsSight s i k x) (hx : SeenOn s k x) {ev : InboundEvent} {t : Time}
    {pending : PendingTcp} (hs : PendingStep s.ready i.2 ev t pending) : StaysSeen s i k x := by
  have hw := hr.wellFormed
  obtain ⟨ps, hframe⟩ := handlePendingFrame_eq i.1 s.ready pending ev.bytes t
  have hstep := (step_pending hs).trans hframe
  have hp := (findPending_some (frameTarget_pending hs.target).2).1
  rcases handlePendingMessage_cases i.1 (s := s.ready) hw.keyed hw.ok pending ev.bytes t with hu | ⟨header, ha, he⟩
  · refine Tells.staysSeen (tells_of_same (.of_eq ?_) ⟨_, rfl, fun cmd hm _ => ?_⟩) hnot hx
    · rw [hstep]
      dsimp only
      rw [hu.runtime]
    · rw [hstep] at hm
      rcases hu.answers cmd hm with hm | ⟨header, rest, ht, rfl⟩
      · cases hm
      · rcases ht with ht | ht
        · exact unlooked_message .SessionInfo (by decide) ht rest
        · exact unlooked_message .Reject (by decide) ht rest
  · rw [he] at hstep
    have hadmits : AdmitsOn s i pending (readHello ev.bytes) := ⟨ev, t, header, hs, ha, rfl⟩
    have hm : Mirrored (s.ready.countHello pending t) := hr.mirrored.of_eq rfl rfl
    have hfree : ∀ p, ¬ OnConn (s.ready.countHello pending t) pending.connId p := nobody_on_pending ho hp
    have halone : Alone (s.ready.countHello pending t) k := alone_of_owned ho
    have hready : SameSight k s (s.ready.countHello pending t) := .of_eq rfl
    have hlast : ∀ s' : ServerRuntime, SameSight k s' { s' with pendingTcp := ps } := fun _ => .of_eq rfl
    cases hf : findByKey (s.ready.countHello pending t) (helloKey (readHello ev.bytes)) with
    | some e =>
      have htold := told_reconnect (s := s.ready.countHello pending t) i.1 h0 hw.keyed hm
        halone hf hfree (hkeep.fits pending _ hadmits) t
      have hcounted : Tells k s.ready (s.ready.countHello pending t) := tells_of_same (.of_eq rfl) (.of_eq rfl)
      refine Tells.staysSeen (hcounted.trans (htold.trans ?_)) hnot hx
      rw [hstep]
      exact tells_of_same (hlast _) (.of_eq rfl)
    | none =>
      obtain ⟨cmds, hout, htold⟩ := told_join (s := s.ready.countHello pending t) i.1 h0 hw.keyed hm halone hf
        (fun hr => hostGate_hostPeerId (ha.host hr)) hfree (hkeep.fits pending _ hadmits) t
      have hseen := htold x (hready.seenOn hx) fun hc hn => by
        have h := hkeep.unforeseen pending _ hadmits hc hf hn
        exact ⟨h.fresh, h.blobless⟩
      have hout : (s.step i).outbound = cmds := by
        rw [hstep]
        exact hout
      rw [StaysSeen, hout, hstep]
      exact (hlast _).seenOn hseen

theorem staysSeen_step (hr : Reachable s) {used : List ConnId} (ho : Owned used s.sessions) (h0 : k ≠ 0)
    (hnot : closeCmd k ∉ (s.step i).outbound) (hhung : closedConn i ≠ some k) {x : Looks} (hkeep : KeepsSight s i k x)
    (hx : SeenOn s k x) : StaysSeen s i k x := by
  have hw := hr.wellFormed
  have halone : Alone s.ready k := alone_of_owned ho
  have hslots : Slotted s.ready := hr.slotted
  obtain ⟨env, i⟩ := i
  cases i with
  | inbound ev t =>
    cases hev : ev.kind with
    | TcpAccept =>
      refine Tells.staysSeen ?_ hnot hx
      simp only [ServerRuntime.step, handle, applyInbound, hev]
      exact tells_of_same (.of_eq rfl) (.of_eq rfl)
    | TcpFrame =>
      cases ht : frameTarget s.ready ev with
      | client p client =>
        refine Tells.staysSeen ?_ hnot hx
        rw [step_client (i := (env, .inbound ev t)) ⟨rfl, hev, ht⟩]
        exact tells_handleClientFrame hslots h0 hw.keyed halone (frameTarget_client ht) env ev.bytes t
      | pending pending =>
        have hs : PendingStep s.ready (Input.inbound ev t) ev t pending := ⟨rfl, hev, ht⟩
        exact staysSeen_pending hr ho h0 hnot hkeep hx hs
      | nobody =>
        refine Tells.staysSeen ?_ hnot hx
        simp only [ServerRuntime.step, handle, applyInbound, hev, ht]
        exact .refl _
    | TcpClosed =>
      refine Tells.staysSeen (tells_tcpClosed (s := s.ready) h0 hw.keyed halone env hev (fun hc => hhung ?_) t) hnot hx
      rw [closedConn]
      dsimp only
      rw [if_pos hev, hc]
    | UdpDatagram =>
      refine Tells.staysSeen ?_ hnot hx
      simp only [ServerRuntime.step, handle, applyInbound, hev]
      exact tells_handleUdpPacket (s := s.ready) hw.ok ev.bytes ev.addr t
  | expirePending t =>
    refine Tells.staysSeen (tells_of_same (.of_eq rfl) ⟨_, rfl, fun cmd hm => ?_⟩) hnot hx
    obtain ⟨p, -, hm⟩ := List.mem_flatMap.mp hm
    obtain ⟨-, rfl⟩ := closeConn_kind hm
    exact .of_kind fun h => by cases h
  | expireClients t => exact Tells.staysSeen (tells_removals (s := s.ready) h0 hw.keyed halone env _) hnot hx
  | sendHeartbeat =>
    have hbeat : ∀ cmd ∈ s.clients.values.flatMap fun client => sendTcp client (makeHeartbeat 0 0).encode, Lookless cmd :=
      lookless_broadcast (unlooked_message .Heartbeat (by decide) rfl _)
    have hnone : NoLooks s.ready (s.step (env, .sendHeartbeat)) := noLooks_queue (s := s.ready) hbeat
    exact Tells.staysSeen (tells_of_same (.of_eq rfl) hnone) hnot hx
  | flushDirty =>
    refine Tells.staysSeen ?_ hnot hx
    simp only [ServerRuntime.step, handle, flushDirtyAsync_eq]
    exact tells_of_same (.of_eq rfl) (.of_eq rfl)
  | admin cmdLine => exact Tells.staysSeen (tells_runAdminCommand h0 env cmdLine) hnot hx

end Step

end ServerRuntime
end CommonwealthMP
