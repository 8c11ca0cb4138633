import CommonwealthMP.BlobAssembly

/-! # Sequences of chunks

An assembly that starts empty and is fed one datagram after another. The packets of one blob
complete it in any order and with any repetition, as soon as each has been seen; arbitrary
datagrams never drive it out of its bounds. -/
namespace CommonwealthMP
open ByteLayout

/-- The assembly after datagrams, each with the clock read that would stamp it. -/
def assembled (a : BlobAssembly) (fed : List (Time × Bytes)) : BlobAssembly :=
  fed.foldl (fun a datagram => (assembleBlobChunk datagram.1 a datagram.2).1) a

theorem assembled_append (a : BlobAssembly) (fed : List (Time × Bytes)) (now : Time) (datagram : Bytes) :
    assembled a (fed ++ [(now, datagram)]) = (assembleBlobChunk now (assembled a fed) datagram).1 := by
  rw [assembled, List.foldl_append]
  rfl

theorem chunkPacket_inj {type : Msg} {peerId : UInt32} {blob : Bytes} (hb : blob.length ≤ 0xFFFF) {i j : ℕ}
    (hi : i < chunkCountOf blob) (hj : j < chunkCountOf blob)
    (h : chunkPacket type peerId blob i = chunkPacket type peerId blob j) : i = j := by
  have hindex := congrArg (fun packet => (BlobChunk.decode packet).chunkIndex.toNat) h
  have hle := chunkCountOf_le hb
  have hmax : kMaxBlobChunks < 65536 := by decide
  simp only [decode_chunkPacket, UInt16.toNat_ofNat'] at hindex
  omega

theorem splitBlobChunks_eq_some {type : Msg} {peerId : UInt32} {blob : Bytes} {packets : List Bytes}
    (h : splitBlobChunks type peerId blob = some packets) :
    blob ≠ [] ∧ blob.length ≤ 0xFFFF ∧ packets = (List.range (chunkCountOf blob)).map (chunkPacket type peerId blob) := by
  unfold splitBlobChunks at h
  split at h
  · cases h
  · rename_i hbounds
    obtain ⟨hne, hlong⟩ := not_or.mp hbounds
    exact ⟨hne, not_lt.mp hlong, (Option.some.inj h).symm⟩

theorem mem_packets {type : Msg} {peerId : UInt32} {blob packet : Bytes} :
    packet ∈ (List.range (chunkCountOf blob)).map (chunkPacket type peerId blob) ↔
      ∃ i < chunkCountOf blob, chunkPacket type peerId blob i = packet := by
  simp only [List.mem_map, List.mem_range]

section Feeding
variable {type : Msg} {peerId : UInt32} {blob : Bytes} {packets : List Bytes}

theorem opened_assembled (hs : splitBlobChunks type peerId blob = some packets) {fed : List (Time × Bytes)}
    (hfed : ∀ f ∈ fed, f.2 ∈ packets) (hmissing : ¬ packets ⊆ fed.map Prod.snd) :
    ∃ seen, Opened blob seen (assembled {} fed) ∧
      ∀ i < chunkCountOf blob, i ∈ seen ↔ chunkPacket type peerId blob i ∈ fed.map Prod.snd := by
  obtain ⟨hne, hb, rfl⟩ := splitBlobChunks_eq_some hs
  induction fed using List.reverseRecOn with
  | nil => exact ⟨[], .inr ⟨rfl, rfl⟩, fun i _ => by simp⟩
  | append_singleton fed last ih =>
    rw [List.map_append] at hmissing
    obtain ⟨seen, hopened, hseen⟩ := ih (fun f hf => hfed f (List.mem_append_left _ hf))
      fun hall => hmissing fun packet hp => List.mem_append_left _ (hall hp)
    obtain ⟨now, packet⟩ := last
    obtain ⟨i, hi, rfl⟩ := mem_packets.mp (hfed _ (List.mem_append_right _ (List.mem_singleton.mpr rfl)))
    have hnext : ∀ j < chunkCountOf blob, j ∈ i :: seen ↔
        chunkPacket type peerId blob j ∈ (fed ++ [(now, chunkPacket type peerId blob i)]).map Prod.snd := by
      intro j hj
      rw [List.mem_cons, hseen j hj, List.map_append, List.mem_append]
      constructor
      · rintro (rfl | hold)
        · exact .inr (List.mem_singleton.mpr rfl)
        · exact .inl hold
      · rintro (hold | hnew)
        · exact .inr hold
        · exact .inl (chunkPacket_inj hb hj hi (List.mem_singleton.mp hnew))
    have hnot : ¬ ∀ j < chunkCountOf blob, j ∈ i :: seen := by
      intro hall
      refine hmissing fun packet hp => ?_
      obtain ⟨j, hj, rfl⟩ := mem_packets.mp hp
      simpa using (hnext j hj).mp (hall j hj)
    obtain ⟨a', ha', hr⟩ := (assembleBlobChunk_opened now type peerId hne hb hi hopened).2 hnot
    refine ⟨i :: seen, .inl ?_, hnext⟩
    rw [assembled_append, hr]
    exact ha'

/-- The packet that makes the blob whole completes it, and no earlier one does. -/
theorem assembleBlobChunk_assembled (hs : splitBlobChunks type peerId blob = some packets) {fed : List (Time × Bytes)}
    (hfed : ∀ f ∈ fed, f.2 ∈ packets) (hmissing : ¬ packets ⊆ fed.map Prod.snd) (now : Time) {packet : Bytes}
    (hp : packet ∈ packets) :
    (packets ⊆ packet :: fed.map Prod.snd → assembleBlobChunk now (assembled {} fed) packet = ({}, .Complete, blob)) ∧
      (¬ packets ⊆ packet :: fed.map Prod.snd → (assembleBlobChunk now (assembled {} fed) packet).2.1 = .Pending) := by
  obtain ⟨seen, hopened, hseen⟩ := opened_assembled hs hfed hmissing
  obtain ⟨hne, hb, rfl⟩ := splitBlobChunks_eq_some hs
  obtain ⟨i, hi, rfl⟩ := mem_packets.mp hp
  obtain ⟨hcomplete, hpending⟩ := assembleBlobChunk_opened now type peerId hne hb hi hopened
  constructor
  · intro hall
    refine hcomplete fun j hj => ?_
    rcases List.mem_cons.mp (hall (mem_packets.mpr ⟨j, hj, rfl⟩)) with hnew | hold
    · rw [chunkPacket_inj hb hj hi hnew]
      exact List.mem_cons_self
    · exact List.mem_cons_of_mem _ ((hseen j hj).mpr hold)
  · intro hnot
    obtain ⟨a', -, hr⟩ := hpending fun hall => hnot fun packet hp => by
      obtain ⟨j, hj, rfl⟩ := mem_packets.mp hp
      rcases List.mem_cons.mp (hall j hj) with rfl | hold
      · exact List.mem_cons_self
      · exact List.mem_cons_of_mem _ ((hseen j hj).mp hold)
    rw [hr]

end Feeding

/-- A blob of a legal size is split into packets that fit a datagram, and any sequence of them
is pending up to the first place at which each has occurred, where the blob is complete. The
header check of the packets is the size check of their type. -/
theorem chunkSequence_roundTrip (type : Msg) (peerId : UInt32) (blob : Bytes) :
    (blob.length = 0 ∨ 65535 < blob.length → splitBlobChunks type peerId blob = none) ∧
    (1 ≤ blob.length ∧ blob.length ≤ 65535 → ∃ packets, splitBlobChunks type peerId blob = some packets ∧
      packets.length ≤ kMaxBlobChunks ∧
      (∀ packet ∈ packets, packet.length ≤ 512 ∧
        (headerOk (Header.decode packet) packet.length = some type ↔ expectedMsgSize type packet.length = true) ∧
        (type = .AppearanceChunk ∨ type = .InventoryChunk → headerOk (Header.decode packet) packet.length = some type)) ∧
      ∀ fed : List (Time × Bytes), (∀ f ∈ fed, f.2 ∈ packets) → ¬ packets ⊆ fed.map Prod.snd →
        ∀ now, ∀ packet ∈ packets,
          (packets ⊆ packet :: fed.map Prod.snd →
            assembleBlobChunk now (assembled {} fed) packet = ({}, .Complete, blob)) ∧
          (¬ packets ⊆ packet :: fed.map Prod.snd →
            (assembleBlobChunk now (assembled {} fed) packet).2.1 = .Pending)) := by
  constructor
  · intro hbounds
    rw [splitBlobChunks, if_pos]
    exact hbounds.imp_left List.eq_nil_of_length_eq_zero
  · rintro ⟨hpos, hb⟩
    have hs : splitBlobChunks type peerId blob =
        some ((List.range (chunkCountOf blob)).map (chunkPacket type peerId blob)) := by
      rw [splitBlobChunks, if_neg]
      rintro (rfl | hlong)
      · exact absurd hpos (by decide)
      · omega
    refine ⟨_, hs, ?_, ?_, ?_⟩
    · rw [List.length_map, List.length_range]
      exact chunkCountOf_le hb
    · intro packet hp
      obtain ⟨i, -, rfl⟩ := mem_packets.mp hp
      exact ⟨chunkPacket_length_le type peerId blob i, headerOk_chunkPacket_iff type peerId blob i,
        fun ht => (headerOk_chunkPacket_iff type peerId blob i).mpr (expectedMsgSize_chunkPacket ht peerId blob i)⟩
    · intro fed hfed hmissing now packet hp
      exact assembleBlobChunk_assembled hs hfed hmissing now hp

def longBlob : Bytes := (List.range 1000).map UInt8.ofNat

def longPacket (i : ℕ) : Bytes := chunkPacket .AppearanceChunk 1 longBlob i

/-- The last packet, the first and the last again leave the blob pending; with the one between it is complete. -/
theorem chunkSequence_roundTrip_outOfOrder :
    ∃ packets, splitBlobChunks .AppearanceChunk 1 longBlob = some packets ∧ packets.length ≤ kMaxBlobChunks ∧
      (∀ packet ∈ packets, packet.length ≤ 512 ∧ headerOk (Header.decode packet) packet.length = some .AppearanceChunk) ∧
      ∀ now, (assembleBlobChunk now (assembled {} [(1, longPacket 2), (2, longPacket 0)]) (longPacket 2)).2.1 = .Pending ∧
        assembleBlobChunk now (assembled {} [(1, longPacket 2), (2, longPacket 0), (3, longPacket 2)]) (longPacket 1) =
          ({}, .Complete, longBlob) := by
  have hlength : longBlob.length = 1000 := by rw [longBlob, List.length_map, List.length_range]
  have hcount : chunkCountOf longBlob = 3 := by rw [chunkCountOf, hlength]; rfl
  obtain ⟨packets, hs, hmax, hpackets, hfed⟩ := (chunkSequence_roundTrip .AppearanceChunk 1 longBlob).2
    ⟨by rw [hlength]; decide, by rw [hlength]; decide⟩
  obtain ⟨-, hb, heq⟩ := splitBlobChunks_eq_some hs
  have hthree : packets = [longPacket 0, longPacket 1, longPacket 2] := by
    rw [heq, hcount]
    rfl
  have hmissing : ∀ packet ∈ [longPacket 2, longPacket 0, longPacket 2], packet ≠ longPacket 1 := by
    have hne {i : ℕ} (hi : i < 3) (h1 : i ≠ 1) : longPacket i ≠ longPacket 1 := fun h =>
      h1 (chunkPacket_inj hb (by rw [hcount]; exact hi) (by rw [hcount]; decide) h)
    simp only [List.forall_mem_cons]
    exact ⟨hne (by decide) (by decide), hne (by decide) (by decide), hne (by decide) (by decide), List.forall_mem_nil _⟩
  have hsubset (fed : List Bytes) (hsub : fed ⊆ [longPacket 2, longPacket 0, longPacket 2]) : ¬ packets ⊆ fed := by
    intro hall
    exact hmissing (longPacket 1) (hsub (hall (by simp [hthree]))) rfl
  refine ⟨packets, hs, hmax, fun packet hp => ⟨(hpackets packet hp).1, (hpackets packet hp).2.2 (.inl rfl)⟩, fun now => ⟨?_, ?_⟩⟩
  · refine (hfed [(1, longPacket 2), (2, longPacket 0)] ?_ (hsubset _ (by simp)) now (longPacket 2) (by simp [hthree])).2
      (hsubset _ (by simp))
    simp [hthree]
  · refine (hfed [(1, longPacket 2), (2, longPacket 0), (3, longPacket 2)] ?_ (hsubset _ (by simp)) now (longPacket 1)
      (by simp [hthree])).1 ?_
    · simp [hthree]
    · simp [hthree]

/-- A packet sent under a type of fixed size is refused. -/
theorem not_headerOk_chatPacket :
    splitBlobChunks .Chat 1 [7] = some [chunkPacket .Chat 1 [7] 0] ∧
      headerOk (Header.decode (chunkPacket .Chat 1 [7] 0)) (chunkPacket .Chat 1 [7] 0).length = none := by
  decide +kernel

/-- The slots stay within the bounds of the protocol. -/
structure BlobAssembly.Bounded (a : BlobAssembly) : Prop where
  slotted : a.Slotted
  chunkCount_le : a.chunkCount.toNat ≤ kMaxBlobChunks
  length_le : ∀ chunk ∈ a.chunks, chunk.length ≤ kBlobPayloadMax

/-- `slice` as an access to memory: nothing is read past the end. -/
def readSlice (buf : Bytes) (off len : ℕ) : Option Bytes := if off + len ≤ buf.length then some (slice buf off len) else none

/-- The write to a slot as an access to memory. -/
def writeSlot (chunks : List Bytes) (i : ℕ) (payload : Bytes) : Option (List Bytes) :=
  if i < chunks.length then some (chunks.set i payload) else none

/-- `assembleBlobChunk` with its accesses to memory checked; `none` where one is out of bounds. -/
def assembleBlobChunkChecked (now : Time) (a : BlobAssembly) (datagram : Bytes) :
    Option (BlobAssembly × AssembleStatus × Bytes) :=
  if datagram.length < sizeofBlobChunk then some (a, .Reject, [])
  else (readSlice datagram 0 sizeofBlobChunk).bind fun head =>
    let chunk := BlobChunk.decode head
    if !chunkAcceptable chunk datagram.length then some (a, .Reject, [])
    else
      let a := openAssembly now a chunk
      (readSlice datagram sizeofBlobChunk chunk.payloadBytes.toNat).bind fun payload =>
        (writeSlot a.chunks chunk.chunkIndex.toNat payload).bind fun chunks =>
          let a := { a with chunks := chunks }
          if a.chunks.any (· = []) then some (a, .Pending, [])
          else if a.chunks.flatten.length ≠ chunk.blobBytes.toNat then some (a, .Reject, [])
          else some ({}, .Complete, a.chunks.flatten)

theorem slice_slice {buf : Bytes} {n off len : ℕ} (h : off + len ≤ n) : slice (slice buf 0 n) off len = slice buf off len := by
  simp only [slice, List.drop_zero, List.drop_take, List.take_take]
  rw [min_eq_left (by omega)]

theorem BlobChunk.decode_slice (datagram : Bytes) : BlobChunk.decode (slice datagram 0 sizeofBlobChunk) = BlobChunk.decode datagram := by
  simp [BlobChunk.decode, Header.decode, sizeofBlobChunk, u32At, u16At, u8At, slice_slice]

/-- What the header checks grant. -/
theorem chunkAcceptable_iff {chunk : BlobChunk} {size : ℕ} :
    chunkAcceptable chunk size = true ↔
      (chunk.payloadBytes ≠ 0 ∧ chunk.payloadBytes.toNat ≤ kBlobPayloadMax ∧
        sizeofBlobChunk + chunk.payloadBytes.toNat ≤ size) ∧
      chunk.chunkCount ≠ 0 ∧ chunk.chunkCount.toNat ≤ kMaxBlobChunks ∧
        chunk.chunkIndex.toNat < chunk.chunkCount.toNat := by
  simp [chunkAcceptable, and_assoc, UInt16.lt_iff_toNat_lt]

theorem bounded_openAssembly (now : Time) {a : BlobAssembly} (h : a.Bounded) {chunk : BlobChunk}
    (hc : chunk.chunkCount.toNat ≤ kMaxBlobChunks) :
    (openAssembly now a chunk).Bounded ∧ (openAssembly now a chunk).chunks.length = chunk.chunkCount.toNat := by
  obtain ⟨hlength, hcount⟩ := slotted_openAssembly now h.slotted chunk
  refine ⟨⟨hlength.trans (congrArg UInt16.toNat hcount).symm, hcount ▸ hc, ?_⟩, hlength⟩
  simp only [openAssembly, apply_ite BlobAssembly.chunks, ite_self]
  split
  · intro c hm
    rw [List.eq_of_mem_replicate hm]
    exact Nat.zero_le _
  · exact h.length_le

theorem bounded_set {a : BlobAssembly} (h : a.Bounded) (i : ℕ) {payload : Bytes} (hp : payload.length ≤ kBlobPayloadMax) :
    BlobAssembly.Bounded { a with chunks := a.chunks.set i payload } where
  slotted := by
    have hs := h.slotted
    simpa [BlobAssembly.Slotted] using hs
  chunkCount_le := h.chunkCount_le
  length_le := by
    intro c hm
    rcases List.mem_or_eq_of_mem_set hm with hm | rfl
    · exact h.length_le c hm
    · exact hp

theorem bounded_empty : BlobAssembly.Bounded {} where
  slotted := rfl
  chunkCount_le := Nat.zero_le _
  length_le := fun _ hm => absurd hm List.not_mem_nil

theorem slice_length_le (buf : Bytes) (off len : ℕ) : (slice buf off len).length ≤ len := by
  rw [slice, List.length_take]
  exact Nat.min_le_left _ _

theorem bounded_assembleBlobChunk (now : Time) {a : BlobAssembly} (h : a.Bounded) (datagram : Bytes) :
    (assembleBlobChunk now a datagram).1.Bounded := by
  unfold assembleBlobChunk
  split
  · exact h
  · dsimp only
    split
    · exact h
    · rename_i hacceptable
      obtain ⟨⟨-, hpayload, -⟩, -, hcount, -⟩ := chunkAcceptable_iff.mp (by simpa using hacceptable)
      have hset := bounded_set (bounded_openAssembly now h hcount).1 (BlobChunk.decode datagram).chunkIndex.toNat
        ((slice_length_le datagram sizeofBlobChunk _).trans hpayload)
      split
      · exact hset
      · split
        · exact hset
        · exact bounded_empty

theorem bounded_assembled (fed : List (Time × Bytes)) : (assembled {} fed).Bounded := by
  induction fed using List.reverseRecOn with
  | nil => exact bounded_empty
  | append_singleton fed last ih =>
    rw [assembled_append]
    exact bounded_assembleBlobChunk last.1 ih last.2

/-- Within the bounds no access to memory goes astray. -/
theorem assembleBlobChunkChecked_eq (now : Time) {a : BlobAssembly} (h : a.Bounded) (datagram : Bytes) :
    assembleBlobChunkChecked now a datagram = some (assembleBlobChunk now a datagram) := by
  unfold assembleBlobChunkChecked assembleBlobChunk
  by_cases hshort : datagram.length < sizeofBlobChunk
  · rw [if_pos hshort, if_pos hshort]
  · rw [if_neg hshort, if_neg hshort, readSlice, if_pos (by omega), Option.bind_some, BlobChunk.decode_slice]
    dsimp only
    by_cases hacceptable : chunkAcceptable (BlobChunk.decode datagram) datagram.length = true
    · obtain ⟨⟨-, -, hpayload⟩, -, hcount, hindex⟩ := chunkAcceptable_iff.mp hacceptable
      have hslots := (bounded_openAssembly now h hcount).2
      rw [hacceptable, if_neg (by decide), if_neg (by decide), readSlice, if_pos hpayload, Option.bind_some, writeSlot,
        if_pos (hslots ▸ hindex), Option.bind_some]
      split
      · rfl
      · split <;> rfl
    · rw [if_pos (by simpa using hacceptable), if_pos (by simpa using hacceptable)]

theorem assembleBlobChunk_rejected (now : Time) (a : BlobAssembly) {datagram : Bytes}
    (h : datagram.length < sizeofBlobChunk ∨ chunkAcceptable (BlobChunk.decode datagram) datagram.length = false) :
    assembleBlobChunk now a datagram = (a, .Reject, []) := by
  unfold assembleBlobChunk
  by_cases hshort : datagram.length < sizeofBlobChunk
  · rw [if_pos hshort]
  · rw [if_neg hshort]
    dsimp only
    rw [h.resolve_left hshort, if_pos (by decide)]

theorem assembleBlobChunk_complete {now : Time} {a : BlobAssembly} {datagram : Bytes}
    (h : (assembleBlobChunk now a datagram).2.1 = .Complete) :
    (assembleBlobChunk now a datagram).2.2.length = (BlobChunk.decode datagram).blobBytes.toNat ∧
      (assembleBlobChunk now a datagram).1 = {} := by
  unfold assembleBlobChunk at h ⊢
  split at h
  · cases h
  · rename_i hlong
    rw [if_neg hlong]
    dsimp only at h ⊢
    split at h
    · cases h
    · split at h
      · cases h
      · split at h
        · cases h
        · rename_i hacceptable hfull hbytes
          rw [if_neg hacceptable, if_neg hfull, if_neg hbytes]
          exact ⟨not_not.mp hbytes, rfl⟩

/-- Whatever has been fed before, the next datagram meets an assembly within its bounds and is
taken without an access outside it or the datagram; one that fails the header checks changes
nothing, and a completed blob has the announced length and leaves nothing behind. -/
theorem assembleBlobChunk_hostile (fed : List (Time × Bytes)) (now : Time) (datagram : Bytes) :
    ((assembled {} fed).chunks.length = (assembled {} fed).chunkCount.toNat ∧
      (assembled {} fed).chunkCount.toNat ≤ kMaxBlobChunks ∧
      ∀ chunk ∈ (assembled {} fed).chunks, chunk.length ≤ kBlobPayloadMax) ∧
    assembleBlobChunkChecked now (assembled {} fed) datagram = some (assembleBlobChunk now (assembled {} fed) datagram) ∧
    (datagram.length < sizeofBlobChunk ∨ chunkAcceptable (BlobChunk.decode datagram) datagram.length = false →
      assembleBlobChunk now (assembled {} fed) datagram = (assembled {} fed, .Reject, [])) ∧
    ((assembleBlobChunk now (assembled {} fed) datagram).2.1 = .Complete →
      (assembleBlobChunk now (assembled {} fed) datagram).2.2.length = (BlobChunk.decode datagram).blobBytes.toNat ∧
        (assembleBlobChunk now (assembled {} fed) datagram).1 = {}) := by
  have h := bounded_assembled fed
  exact ⟨⟨h.slotted, h.chunkCount_le, h.length_le⟩, assembleBlobChunkChecked_eq now h datagram,
    assembleBlobChunk_rejected now _, assembleBlobChunk_complete⟩

end CommonwealthMP
