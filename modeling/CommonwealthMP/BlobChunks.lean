import CommonwealthMP.Protocol

/-! # Splitting a blob into packets and assembling it again -/
namespace CommonwealthMP
open ByteLayout

/-- Seconds of the steady clock. -/
abbrev Time := ℚ

def kMaxBlobChunks : ℕ := (0xFFFF + kBlobPayloadMax - 1) / kBlobPayloadMax

inductive AssembleStatus
  | Pending | Complete | Reject
  deriving DecidableEq, Repr

structure BlobAssembly where
  chunkCount : UInt16 := 0
  blobBytes : UInt16 := 0
  chunks : List Bytes := []
  startedSec : Time := 0
  deriving DecidableEq

def chunkPayload (blob : Bytes) (i : ℕ) : Bytes := slice blob (i * kBlobPayloadMax) kBlobPayloadMax

def chunkCountOf (blob : Bytes) : ℕ := (blob.length + kBlobPayloadMax - 1) / kBlobPayloadMax

/-- Packet `i` of a blob: a `BlobChunk` followed by its payload. -/
def chunkPacket (type : Msg) (peerId : UInt32) (blob : Bytes) (i : ℕ) : Bytes :=
  let payload := chunkPayload blob i
  let chunk : BlobChunk := {
    header := fillHeader type (UInt16.ofNat (sizeofBlobChunk + payload.length))
    peerId := peerId
    chunkIndex := UInt16.ofNat i
    chunkCount := UInt16.ofNat (chunkCountOf blob)
    blobBytes := UInt16.ofNat blob.length
    payloadBytes := UInt16.ofNat payload.length }
  chunk.encode ++ payload

def Chunked (type : Msg) : Prop := type = .AppearanceChunk ∨ type = .InventoryChunk

instance (type : Msg) : Decidable (Chunked type) := inferInstanceAs (Decidable (_ ∨ _))

/-- The packets of a blob; `none` where the source returns false with no packets. -/
def splitBlobChunks (type : Msg) (peerId : UInt32) (blob : Bytes) : Option (List Bytes) :=
  if blob = [] ∨ 0xFFFF < blob.length then none
  else some ((List.range (chunkCountOf blob)).map (chunkPacket type peerId blob))

def openAssembly (now : Time) (a : BlobAssembly) (chunk : BlobChunk) : BlobAssembly :=
  let a := if a.chunkCount ≠ chunk.chunkCount ∨ a.blobBytes ≠ chunk.blobBytes then
      { chunkCount := chunk.chunkCount, blobBytes := chunk.blobBytes,
        chunks := List.replicate chunk.chunkCount.toNat [], startedSec := 0 }
    else a
  if a.startedSec ≤ 0 then { a with startedSec := now } else a

def chunkAcceptable (chunk : BlobChunk) (size : ℕ) : Bool :=
  !(chunk.payloadBytes == 0 || decide (kBlobPayloadMax < chunk.payloadBytes.toNat) ||
      decide (size < sizeofBlobChunk + chunk.payloadBytes.toNat)) &&
    !(chunk.chunkCount == 0 || decide (kMaxBlobChunks < chunk.chunkCount.toNat) ||
      decide (chunk.chunkCount ≤ chunk.chunkIndex))

/-- The new assembly, the status and what `out` holds on completion. `now` is the clock
read that stamps a fresh assembly. -/
def assembleBlobChunk (now : Time) (a : BlobAssembly) (datagram : Bytes) : BlobAssembly × AssembleStatus × Bytes :=
  if datagram.length < sizeofBlobChunk then (a, .Reject, [])
  else
    let chunk := BlobChunk.decode datagram
    if !chunkAcceptable chunk datagram.length then (a, .Reject, [])
    else
      let a := openAssembly now a chunk
      let payload := slice datagram sizeofBlobChunk chunk.payloadBytes.toNat
      let a := { a with chunks := a.chunks.set chunk.chunkIndex.toNat payload }
      if a.chunks.any (· = []) then (a, .Pending, [])
      else if a.chunks.flatten.length ≠ chunk.blobBytes.toNat then (a, .Reject, [])
      else ({}, .Complete, a.chunks.flatten)

/-- There is a slot for each chunk. -/
def BlobAssembly.Slotted (a : BlobAssembly) : Prop := a.chunks.length = a.chunkCount.toNat

theorem slotted_openAssembly (now : Time) {a : BlobAssembly} (h : a.Slotted) (chunk : BlobChunk) :
    (openAssembly now a chunk).chunks.length = chunk.chunkCount.toNat ∧
      (openAssembly now a chunk).chunkCount = chunk.chunkCount := by
  unfold BlobAssembly.Slotted at h
  simp only [openAssembly, apply_ite BlobAssembly.chunks, apply_ite BlobAssembly.chunkCount, ite_self]
  split
  · simp
  · rename_i hsame
    simp only [not_or, ne_eq, not_not] at hsame
    exact ⟨hsame.1 ▸ h, hsame.1⟩

theorem slotted_assembleBlobChunk (now : Time) {a : BlobAssembly} (h : a.Slotted) (datagram : Bytes) :
    (assembleBlobChunk now a datagram).1.Slotted := by
  unfold assembleBlobChunk
  split
  · exact h
  · dsimp only
    obtain ⟨hlength, hcount⟩ := slotted_openAssembly now h (BlobChunk.decode datagram)
    have hset : ∀ i payload, BlobAssembly.Slotted { openAssembly now a (BlobChunk.decode datagram) with
        chunks := (openAssembly now a (BlobChunk.decode datagram)).chunks.set i payload } := by
      intro i payload
      simp only [BlobAssembly.Slotted, List.length_set, hlength, hcount]
    split
    · exact h
    · split
      · exact hset _ _
      · split
        · exact hset _ _
        · rfl

theorem flatten_ne_nil {chunks : List Bytes} (hne : chunks ≠ []) (h : ¬ chunks.any (· = []) = true) : chunks.flatten ≠ [] := by
  cases chunks with
  | nil => exact absurd rfl hne
  | cons chunk chunks =>
    intro hnil
    apply h
    rw [List.flatten_cons, List.append_eq_nil_iff] at hnil
    simp [hnil.1]

theorem chunkCount_pos {chunk : BlobChunk} {size : ℕ} (h : chunkAcceptable chunk size = true) : 0 < chunk.chunkCount.toNat := by
  have hz : chunk.chunkCount ≠ 0 := by
    intro hz
    simp [chunkAcceptable, hz] at h
  exact Nat.pos_of_ne_zero fun h0 => hz (UInt16.toNat_inj.mp (by simpa using h0))

theorem complete_ne_nil {now : Time} {a a' : BlobAssembly} (h : a.Slotted) {datagram out : Bytes}
    (hc : assembleBlobChunk now a datagram = (a', .Complete, out)) : out ≠ [] := by
  unfold assembleBlobChunk at hc
  split at hc
  · cases hc
  · dsimp only at hc
    obtain ⟨hlength, -⟩ := slotted_openAssembly now h (BlobChunk.decode datagram)
    split at hc
    · cases hc
    · rename_i hacceptable
      split at hc
      · cases hc
      · rename_i hfull
        split at hc
        · cases hc
        · cases hc
          have hpos := chunkCount_pos (by simpa using hacceptable)
          rw [← hlength] at hpos
          refine flatten_ne_nil ?_ hfull
          rw [← List.length_pos_iff, List.length_set]
          exact hpos

end CommonwealthMP
