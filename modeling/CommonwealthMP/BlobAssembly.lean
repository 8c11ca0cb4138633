import CommonwealthMP.BlobChunks

/-! # A blob and its packets

The packets of a blob, taken in their order by an assembly that has nothing begun, give the blob back. -/
namespace CommonwealthMP
open ByteLayout

/-- The pieces of `n` elements that a list falls into. -/
theorem flatten_pieces {α : Type*} (n : ℕ) (l : List α) (k : ℕ) :
    ((List.range k).map fun i => (l.drop (i * n)).take n).flatten = l.take (k * n) := by
  induction k with
  | zero => simp
  | succ k ih =>
    rw [List.range_succ, List.map_append, List.flatten_append, ih, Nat.succ_mul, List.take_add]
    simp

theorem kBlobPayloadMax_pos : 0 < kBlobPayloadMax := by decide

theorem le_chunkCountOf_mul (blob : Bytes) : blob.length ≤ chunkCountOf blob * kBlobPayloadMax := by
  have h := Nat.lt_mul_div_succ (blob.length + kBlobPayloadMax - 1) kBlobPayloadMax_pos
  have hpos := kBlobPayloadMax_pos
  rw [Nat.mul_add, Nat.mul_one, Nat.mul_comm] at h
  unfold chunkCountOf
  omega

theorem flatten_chunkPayload (blob : Bytes) : ((List.range (chunkCountOf blob)).map (chunkPayload blob)).flatten = blob :=
  (flatten_pieces kBlobPayloadMax blob (chunkCountOf blob)).trans (List.take_of_length_le (le_chunkCountOf_mul blob))

theorem lt_length_of_chunk {blob : Bytes} {i : ℕ} (h : i < chunkCountOf blob) : i * kBlobPayloadMax < blob.length := by
  have hle := Nat.mul_le_of_le_div _ _ _ (show i + 1 ≤ (blob.length + kBlobPayloadMax - 1) / kBlobPayloadMax from h)
  have hpos := kBlobPayloadMax_pos
  rw [Nat.succ_mul] at hle
  omega

theorem chunkPayload_ne_nil {blob : Bytes} {i : ℕ} (h : i < chunkCountOf blob) : chunkPayload blob i ≠ [] := by
  have hlt := lt_length_of_chunk h
  have hpos := kBlobPayloadMax_pos
  refine List.ne_nil_of_length_pos ?_
  simp only [chunkPayload, slice, List.length_take, List.length_drop]
  omega

theorem chunkPayload_length_le (blob : Bytes) (i : ℕ) : (chunkPayload blob i).length ≤ kBlobPayloadMax := by
  simp only [chunkPayload, slice, List.length_take]
  exact Nat.min_le_left _ _

theorem chunkCountOf_pos {blob : Bytes} (h : blob ≠ []) : 0 < chunkCountOf blob := by
  have hle := le_chunkCountOf_mul blob
  have hpos := List.length_pos_iff.mpr h
  refine Nat.pos_of_ne_zero fun h0 => ?_
  rw [h0] at hle
  omega

theorem chunkCountOf_le {blob : Bytes} (h : blob.length ≤ 0xFFFF) : chunkCountOf blob ≤ kMaxBlobChunks :=
  Nat.div_le_div_right (by omega)

theorem decode_chunkPacket (type : Msg) (peerId : UInt32) (blob : Bytes) (i : ℕ) :
    BlobChunk.decode (chunkPacket type peerId blob i) = {
      header := fillHeader type (UInt16.ofNat (sizeofBlobChunk + (chunkPayload blob i).length))
      peerId := peerId
      chunkIndex := UInt16.ofNat i
      chunkCount := UInt16.ofNat (chunkCountOf blob)
      blobBytes := UInt16.ofNat blob.length
      payloadBytes := UInt16.ofNat (chunkPayload blob i).length } := by
  simp [chunkPacket, BlobChunk.decode, BlobChunk.encode, Header.decode_encode_append, u32At_skip, u16At_skip]

theorem chunkPacket_length (type : Msg) (peerId : UInt32) (blob : Bytes) (i : ℕ) :
    (chunkPacket type peerId blob i).length = sizeofBlobChunk + (chunkPayload blob i).length := by
  simp [chunkPacket, BlobChunk.encode, sizeofBlobChunk]
  omega

theorem not_short_chunkPacket (type : Msg) (peerId : UInt32) (blob : Bytes) (i : ℕ) :
    ¬ (chunkPacket type peerId blob i).length < sizeofBlobChunk := by
  rw [chunkPacket_length]
  omega

theorem payload_chunkPacket (type : Msg) (peerId : UInt32) (blob : Bytes) (i : ℕ) :
    slice (chunkPacket type peerId blob i) sizeofBlobChunk (chunkPayload blob i).length = chunkPayload blob i := by
  have hlen : ∀ m : BlobChunk, m.encode.length = sizeofBlobChunk := fun m => by simp [BlobChunk.encode, sizeofBlobChunk]
  rw [chunkPacket, slice_skip (hlen _).le, hlen, Nat.sub_self, slice_all rfl]

theorem chunkAcceptable_chunkPacket (type : Msg) (peerId : UInt32) {blob : Bytes} (hb : blob.length ≤ 0xFFFF) {i : ℕ}
    (hi : i < chunkCountOf blob) :
    chunkAcceptable (BlobChunk.decode (chunkPacket type peerId blob i)) (chunkPacket type peerId blob i).length = true := by
  have hp := chunkPayload_length_le blob i
  have hpos := List.length_pos_iff.mpr (chunkPayload_ne_nil hi)
  have hc := chunkCountOf_le hb
  have hmax : kBlobPayloadMax < 65536 := by decide
  have hmax' : kMaxBlobChunks < 65536 := by decide
  rw [decode_chunkPacket, chunkPacket_length]
  simp only [chunkAcceptable, Bool.and_eq_true, Bool.not_eq_true', Bool.or_eq_false_iff, decide_eq_false_iff_not,
    beq_eq_false_iff_ne, ne_eq, ← UInt16.toNat_inj, UInt16.le_iff_toNat_le, UInt16.toNat_ofNat']
  simp only [UInt16.toNat_zero]
  omega

theorem header_chunkPacket (type : Msg) (peerId : UInt32) (blob : Bytes) (i : ℕ) :
    Header.decode (chunkPacket type peerId blob i) = fillHeader type (UInt16.ofNat (chunkPacket type peerId blob i).length) := by
  rw [chunkPacket_length]
  exact congrArg BlobChunk.header (decode_chunkPacket type peerId blob i)

theorem chunkPacket_length_le (type : Msg) (peerId : UInt32) (blob : Bytes) (i : ℕ) :
    (chunkPacket type peerId blob i).length ≤ kMaxDatagram := by
  have hp := chunkPayload_length_le blob i
  have hmax : sizeofBlobChunk + kBlobPayloadMax = kMaxDatagram := by decide
  rw [chunkPacket_length]
  omega

theorem headerOk_chunkPacket_iff (type : Msg) (peerId : UInt32) (blob : Bytes) (i : ℕ) :
    headerOk (Header.decode (chunkPacket type peerId blob i)) (chunkPacket type peerId blob i).length = some type ↔
      expectedMsgSize type (chunkPacket type peerId blob i).length = true := by
  have hle := chunkPacket_length_le type peerId blob i
  have hlen := chunkPacket_length type peerId blob i
  have hmax : kMaxDatagram = 512 := rfl
  have hsize : (UInt16.ofNat (chunkPacket type peerId blob i).length).toNat = (chunkPacket type peerId blob i).length := by
    rw [UInt16.toNat_ofNat']
    omega
  rw [header_chunkPacket]
  constructor
  · intro h
    obtain ⟨-, -, h⟩ := headerOk_spec h
    rwa [fillHeader, hsize] at h
  · intro h
    refine headerOk_fill (by rwa [hsize]) ?_ hsize.le
    rw [hsize, hlen, sizeofBlobChunk]
    omega

theorem expectedMsgSize_chunkPacket {type : Msg} (ht : type = .AppearanceChunk ∨ type = .InventoryChunk) (peerId : UInt32)
    (blob : Bytes) (i : ℕ) : expectedMsgSize type (chunkPacket type peerId blob i).length = true := by
  rw [chunkPacket_length]
  rcases ht with rfl | rfl <;> simp [expectedMsgSize, sizeofBlobChunk]

def BlobAssembly.unstamped (a : BlobAssembly) : BlobAssembly := { a with startedSec := 0 }

theorem unstamped_fields {a b : BlobAssembly} (h : a.unstamped = b.unstamped) :
    a.chunkCount = b.chunkCount ∧ a.blobBytes = b.blobBytes ∧ a.chunks = b.chunks := by
  cases a
  cases b
  simpa [BlobAssembly.unstamped] using h

/-- The packets of the indices `seen` have been taken, in whatever order. -/
def filled (blob : Bytes) (seen : List ℕ) : BlobAssembly where
  chunkCount := UInt16.ofNat (chunkCountOf blob)
  blobBytes := UInt16.ofNat blob.length
  chunks := (List.range (chunkCountOf blob)).map fun i => if i ∈ seen then chunkPayload blob i else []

/-- Nothing is begun, or the packets of the indices `seen`. -/
def Opened (blob : Bytes) (seen : List ℕ) (a : BlobAssembly) : Prop :=
  a.unstamped = filled blob seen ∨ seen = [] ∧ a.unstamped = {}

theorem set_filled (blob : Bytes) (seen : List ℕ) (i : ℕ) :
    (filled blob seen).chunks.set i (chunkPayload blob i) = (filled blob (i :: seen)).chunks := by
  refine List.ext_getElem (by simp [filled]) fun j _ _ => ?_
  rw [List.getElem_set]
  by_cases hij : i = j
  · subst hij
    simp [filled]
  · simp [filled, hij, Ne.symm hij]

theorem filled_full {blob : Bytes} {seen : List ℕ} (h : ∀ i < chunkCountOf blob, i ∈ seen) :
    (filled blob seen).chunks = (List.range (chunkCountOf blob)).map (chunkPayload blob) :=
  List.map_congr_left fun i hi => if_pos (h i (List.mem_range.mp hi))

/-- A slot is empty exactly while its packet has not been seen. -/
theorem filled_any {blob : Bytes} {seen : List ℕ} :
    (filled blob seen).chunks.any (· = []) = true ↔ ¬ ∀ i < chunkCountOf blob, i ∈ seen := by
  simp only [filled, List.any_map, List.any_eq_true, List.mem_range, Function.comp_apply, decide_eq_true_eq, not_forall]
  constructor
  · rintro ⟨i, hi, hnil⟩
    refine ⟨i, hi, fun hs => ?_⟩
    rw [if_pos hs] at hnil
    exact chunkPayload_ne_nil hi hnil
  · rintro ⟨i, hi, hs⟩
    exact ⟨i, hi, if_neg hs⟩

theorem unstamped_openAssembly (now : Time) (type : Msg) (peerId : UInt32) {blob : Bytes} (hne : blob ≠ [])
    (hb : blob.length ≤ 0xFFFF) {i : ℕ} {seen : List ℕ} {a : BlobAssembly} (ha : Opened blob seen a) :
    (openAssembly now a (BlobChunk.decode (chunkPacket type peerId blob i))).unstamped = filled blob seen := by
  rw [decode_chunkPacket]
  have hstamp : ∀ b : BlobAssembly, (if b.startedSec ≤ 0 then { b with startedSec := now } else b).unstamped = b.unstamped := by
    intro b
    split <;> rfl
  unfold openAssembly
  dsimp only
  rw [hstamp]
  rcases ha with ha | ⟨rfl, ha⟩
  · obtain ⟨hc, hbytes, -⟩ := unstamped_fields (b := filled blob seen) (ha.trans rfl)
    rw [if_neg (by simp [hc, hbytes, filled]), ha]
  · have hc : a.chunkCount ≠ UInt16.ofNat (chunkCountOf blob) := by
      rw [(unstamped_fields (b := {}) (ha.trans rfl)).1]
      intro h0
      have hpos := chunkCountOf_pos hne
      have hle := chunkCountOf_le hb
      have hmax : kMaxBlobChunks < 65536 := by decide
      have h := congrArg UInt16.toNat h0
      rw [UInt16.toNat_ofNat'] at h
      simp at h
      omega
    rw [if_pos (.inl hc)]
    have hle := chunkCountOf_le hb
    have hmax : kMaxBlobChunks < 65536 := by decide
    have hn : (UInt16.ofNat (chunkCountOf blob)).toNat = chunkCountOf blob := by
      rw [UInt16.toNat_ofNat']
      omega
    simp [BlobAssembly.unstamped, filled, hn]

/-- What becomes of a packet that an assembly is handed: it fills its slot, and the slots are told by their length
when none is empty. -/
theorem assembleBlobChunk_packet (now : Time) (type : Msg) (peerId : UInt32) {blob : Bytes} (hb : blob.length ≤ 0xFFFF) {i : ℕ}
    (hi : i < chunkCountOf blob) (a : BlobAssembly) :
    assembleBlobChunk now a (chunkPacket type peerId blob i) =
      (let b := openAssembly now a (BlobChunk.decode (chunkPacket type peerId blob i))
       let slots := b.chunks.set i (chunkPayload blob i)
       if slots.any (· = []) then ({ b with chunks := slots }, .Pending, [])
       else if slots.flatten.length ≠ blob.length then ({ b with chunks := slots }, .Reject, [])
       else ({}, .Complete, slots.flatten)) := by
  have hle := chunkCountOf_le hb
  have hmax : kMaxBlobChunks < 65536 := by decide
  have hindex : (BlobChunk.decode (chunkPacket type peerId blob i)).chunkIndex.toNat = i := by
    rw [decode_chunkPacket, UInt16.toNat_ofNat']
    omega
  have hpayload : slice (chunkPacket type peerId blob i) sizeofBlobChunk
      (BlobChunk.decode (chunkPacket type peerId blob i)).payloadBytes.toNat = chunkPayload blob i := by
    have hlen := chunkPayload_length_le blob i
    have hmax : kBlobPayloadMax < 65536 := by decide
    rw [decode_chunkPacket, UInt16.toNat_ofNat', Nat.mod_eq_of_lt (by omega), payload_chunkPacket]
  have hbytes : (BlobChunk.decode (chunkPacket type peerId blob i)).blobBytes.toNat = blob.length := by
    rw [decode_chunkPacket, UInt16.toNat_ofNat']
    omega
  rw [assembleBlobChunk, if_neg (not_short_chunkPacket type peerId blob i)]
  dsimp only
  rw [chunkAcceptable_chunkPacket type peerId hb hi, hindex, hpayload, hbytes]
  rfl

/-- A packet fills its slot; the one that fills the last empty slot completes the blob. -/
theorem assembleBlobChunk_opened (now : Time) (type : Msg) (peerId : UInt32) {blob : Bytes} (hne : blob ≠ [])
    (hb : blob.length ≤ 0xFFFF) {i : ℕ} (hi : i < chunkCountOf blob) {seen : List ℕ} {a : BlobAssembly}
    (ha : Opened blob seen a) :
    ((∀ j < chunkCountOf blob, j ∈ i :: seen) →
      assembleBlobChunk now a (chunkPacket type peerId blob i) = ({}, .Complete, blob)) ∧
    ((¬ ∀ j < chunkCountOf blob, j ∈ i :: seen) → ∃ a', a'.unstamped = filled blob (i :: seen) ∧
      assembleBlobChunk now a (chunkPacket type peerId blob i) = (a', .Pending, [])) := by
  have hopen := unstamped_openAssembly now type peerId hne hb (i := i) ha
  rw [assembleBlobChunk_packet now type peerId hb hi]
  dsimp only
  generalize openAssembly now a (BlobChunk.decode (chunkPacket type peerId blob i)) = b at hopen
  obtain ⟨hc, hbb, hchunks⟩ := unstamped_fields (b := filled blob seen) (hopen.trans rfl)
  have hset : b.chunks.set i (chunkPayload blob i) = (filled blob (i :: seen)).chunks := by
    rw [hchunks]
    exact set_filled blob seen i
  rw [hset]
  constructor
  · intro hfull
    have hnone : ¬ (filled blob (i :: seen)).chunks.any (· = []) = true := fun h => filled_any.mp h hfull
    rw [if_neg hnone, filled_full hfull, flatten_chunkPayload]
    simp
  · intro hnot
    rw [if_pos (filled_any.mpr hnot)]
    refine ⟨{ b with chunks := (filled blob (i :: seen)).chunks }, ?_, by simp⟩
    rw [BlobAssembly.unstamped, hc, hbb]
    rfl

/-- The first `i` packets of the blob have been taken. -/
def taken (blob : Bytes) (i : ℕ) : BlobAssembly where
  chunkCount := UInt16.ofNat (chunkCountOf blob)
  blobBytes := UInt16.ofNat blob.length
  chunks := (List.range i).map (chunkPayload blob) ++ List.replicate (chunkCountOf blob - i) []

/-- Nothing is begun, or the packets before `i`. -/
def Begun (blob : Bytes) (i : ℕ) (a : BlobAssembly) : Prop := a.unstamped = taken blob i ∨ i = 0 ∧ a.unstamped = {}

theorem filled_eq_taken {blob : Bytes} {i : ℕ} (hi : i ≤ chunkCountOf blob) {seen : List ℕ} (h : ∀ j, j ∈ seen ↔ j < i) :
    filled blob seen = taken blob i := by
  obtain ⟨k, hk⟩ := Nat.exists_eq_add_of_le hi
  have hsplit : ((List.range (i + k)).map fun j => if j ∈ seen then chunkPayload blob j else []) =
      (List.range i).map (chunkPayload blob) ++ List.replicate k [] := by
    rw [List.range_add, List.map_append]
    congr 1
    · exact List.map_congr_left fun j hj => if_pos ((h j).mpr (List.mem_range.mp hj))
    · refine List.eq_replicate_iff.mpr ⟨by simp, fun c hc => ?_⟩
      obtain ⟨j, hj, rfl⟩ := List.mem_map.mp hc
      obtain ⟨m, -, rfl⟩ := List.mem_map.mp hj
      exact if_neg fun hs => absurd ((h _).mp hs) (by omega)
  rw [filled, taken, hk, hsplit, Nat.add_sub_cancel_left]

/-- The next packet is taken; the last one completes the blob. -/
theorem assembleBlobChunk_taken (now : Time) (type : Msg) (peerId : UInt32) {blob : Bytes} (hne : blob ≠ [])
    (hb : blob.length ≤ 0xFFFF) {i : ℕ} (hi : i < chunkCountOf blob) {a : BlobAssembly} (ha : Begun blob i a) :
    if i + 1 = chunkCountOf blob then
      assembleBlobChunk now a (chunkPacket type peerId blob i) = ({}, .Complete, blob)
    else ∃ a', a'.unstamped = taken blob (i + 1) ∧
      assembleBlobChunk now a (chunkPacket type peerId blob i) = (a', .Pending, []) := by
  have hseen : Opened blob (List.range i) a := by
    rcases ha with ha | ⟨rfl, ha⟩
    · exact .inl (ha.trans (filled_eq_taken hi.le fun j => List.mem_range).symm)
    · exact .inr ⟨rfl, ha⟩
  have hnext : ∀ j, j ∈ i :: List.range i ↔ j < i + 1 := by
    intro j
    rw [List.mem_cons, List.mem_range]
    omega
  obtain ⟨hcomplete, hpending⟩ := assembleBlobChunk_opened now type peerId hne hb hi hseen
  by_cases hlast : i + 1 = chunkCountOf blob
  · rw [if_pos hlast]
    exact hcomplete fun j hj => (hnext j).mpr (hlast ▸ hj)
  · rw [if_neg hlast]
    obtain ⟨a', ha', hr⟩ := hpending fun hall => absurd ((hnext _).mp (hall (i + 1) (by omega))) (by omega)
    exact ⟨a', ha'.trans (filled_eq_taken hi hnext), hr⟩

theorem complete_length_le {now : Time} {a a' : BlobAssembly} {datagram out : Bytes}
    (hc : assembleBlobChunk now a datagram = (a', .Complete, out)) : out.length ≤ 0xFFFF := by
  unfold assembleBlobChunk at hc
  split at hc
  · cases hc
  · dsimp only at hc
    split at hc
    · cases hc
    · split at hc
      · cases hc
      · split at hc
        · cases hc
        · rename_i hlen
          cases hc
          have hbytes := (BlobChunk.decode datagram).blobBytes.toNat_lt
          push Not at hlen
          omega

theorem assembleBlobChunk_unstamped (now now' : Time) {a a' : BlobAssembly} (h : a.unstamped = a'.unstamped) (datagram : Bytes) :
    (assembleBlobChunk now a datagram).1.unstamped = (assembleBlobChunk now' a' datagram).1.unstamped ∧
      (assembleBlobChunk now a datagram).2 = (assembleBlobChunk now' a' datagram).2 := by
  have hopen : ∀ chunk, (openAssembly now a chunk).unstamped = (openAssembly now' a' chunk).unstamped := by
    intro chunk
    obtain ⟨hc, hb, hchunks⟩ := unstamped_fields h
    have hstamp : ∀ (now : Time) (b : BlobAssembly),
        (if b.startedSec ≤ 0 then { b with startedSec := now } else b).unstamped = b.unstamped := by
      intro now b
      split <;> rfl
    unfold openAssembly
    dsimp only
    rw [hstamp, hstamp, hc, hb]
    split
    · rfl
    · exact h
  unfold assembleBlobChunk
  split
  · exact ⟨h, rfl⟩
  · dsimp only
    obtain ⟨hc, hb, hchunks⟩ := unstamped_fields (hopen (BlobChunk.decode datagram))
    split
    · exact ⟨h, rfl⟩
    · rw [hchunks]
      split
      · exact ⟨by simp [BlobAssembly.unstamped, hc, hb], rfl⟩
      · split
        · exact ⟨by simp [BlobAssembly.unstamped, hc, hb], rfl⟩
        · exact ⟨rfl, rfl⟩

end CommonwealthMP
