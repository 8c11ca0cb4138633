import CommonwealthMP.BlobAssembly
import CommonwealthMP.ServerHandlers

/-! # Chunks that a limiter lets through

A client sends the packets of its blobs one after the other, and the limiter turns some of them away. What an
assembly then completes is one of the blobs as long as no chunk fills the last slot beside chunks of another blob. -/
namespace CommonwealthMP
open ByteLayout ServerRuntime

/-- A blob that a client splits, and the id it stamps the packets with. -/
structure SentBlob where
  type : Msg
  peerId : UInt32
  blob : Bytes
  chunked : Chunked type
  ne_nil : blob ≠ []
  fits : blob.length ≤ 0xFFFF

def SentBlob.packets (b : SentBlob) : List Bytes := (splitBlobChunks b.type b.peerId b.blob).getD []

/-- The chunks of the blobs in the order they are sent, each as its blob and its index. -/
def outline (sent : List SentBlob) : List (SentBlob × ℕ) :=
  sent.flatMap fun b => (List.range (chunkCountOf b.blob)).map fun j => (b, j)

def packetOf (c : SentBlob × ℕ) : Bytes := chunkPacket c.1.type c.1.peerId c.1.blob c.2

theorem SentBlob.packets_eq (b : SentBlob) :
    b.packets = ((List.range (chunkCountOf b.blob)).map fun j => (b, j)).map packetOf := by
  have hsplit : ¬ (b.blob = [] ∨ 0xFFFF < b.blob.length) := not_or.mpr ⟨b.ne_nil, not_lt.mpr b.fits⟩
  rw [packets, splitBlobChunks, if_neg hsplit, List.map_map]
  rfl

theorem flatMap_packets (sent : List SentBlob) : sent.flatMap SentBlob.packets = (outline sent).map packetOf := by
  rw [outline, List.map_flatMap]
  exact congrArg (sent.flatMap ·) (funext SentBlob.packets_eq)

section Outline
variable {sent : List SentBlob} {b : SentBlob} {n j : ℕ}

theorem mem_outline (h : (outline sent)[n]? = some (b, j)) : b ∈ sent ∧ j < chunkCountOf b.blob := by
  obtain ⟨c, hc, hm⟩ := List.mem_flatMap.mp (List.mem_of_getElem? h)
  obtain ⟨i, hi, he⟩ := List.mem_map.mp hm
  cases he
  exact ⟨hc, List.mem_range.mp hi⟩

theorem outline_head (h : (outline sent)[0]? = some (b, j)) : j = 0 := by
  cases sent with
  | nil => cases h
  | cons c sent =>
    have hpos := chunkCountOf_pos c.ne_nil
    rw [outline, List.flatMap_cons, List.getElem?_append_left (by simpa using hpos), List.getElem?_map,
      List.getElem?_range hpos] at h
    cases h
    rfl

theorem outline_succ (h : (outline sent)[n + 1]? = some (b, j + 1)) : (outline sent)[n]? = some (b, j) := by
  induction sent generalizing n with
  | nil => cases h
  | cons c sent ih =>
    have hlen : ((List.range (chunkCountOf c.blob)).map fun j => (c, j)).length = chunkCountOf c.blob := by simp
    rw [outline, List.flatMap_cons] at h ⊢
    rcases lt_trichotomy (n + 1) (chunkCountOf c.blob) with hlt | heq | hgt
    · rw [List.getElem?_append_left (by omega), List.getElem?_map, List.getElem?_range hlt] at h
      rw [List.getElem?_append_left (by omega), List.getElem?_map, List.getElem?_range (by omega)]
      cases h
      rfl
    · rw [List.getElem?_append_right (by omega), hlen, heq, Nat.sub_self] at h
      cases outline_head h
    · have hshift : n + 1 - chunkCountOf c.blob = n - chunkCountOf c.blob + 1 := by omega
      rw [List.getElem?_append_right (by omega), hlen, hshift] at h
      rw [List.getElem?_append_right (by omega), hlen]
      exact ih h

theorem index_le (h : (outline sent)[n]? = some (b, j)) : j ≤ n := by
  induction j generalizing n with
  | zero => exact Nat.zero_le n
  | succ j ih =>
    cases n with
    | zero => cases outline_head h
    | succ n => exact Nat.succ_le_succ (ih (outline_succ h))

end Outline

/-- A chunk frame: when its assembly reads the clock, its bytes, and what the limiter says. -/
structure Arrival where
  now : Time
  bytes : Bytes
  passed : Bool
  deriving DecidableEq

namespace Arrival

def reaches (type : Msg) (x : Arrival) : Bool := x.passed && decide ((openFrame x.bytes).map (·.2) = some type)

def take (type : Msg) (a : BlobAssembly) (x : Arrival) : BlobAssembly :=
  if x.reaches type then (takeBlob x.now a x.bytes).1 else a

def completes (type : Msg) (a : BlobAssembly) (x : Arrival) : Option Bytes :=
  if x.reaches type then (takeBlob x.now a x.bytes).2 else none

end Arrival

def gathered (type : Msg) (xs : List Arrival) : BlobAssembly := xs.foldl (Arrival.take type) {}

theorem gathered_concat (type : Msg) (xs : List Arrival) (x : Arrival) :
    gathered type (xs ++ [x]) = Arrival.take type (gathered type xs) x := by
  rw [gathered, List.foldl_append]
  rfl

def LastSlot (a : BlobAssembly) (blob : Bytes) (j : ℕ) : Prop :=
  a.chunkCount = UInt16.ofNat (chunkCountOf blob) ∧ a.blobBytes = UInt16.ofNat blob.length ∧
    ∀ k < chunkCountOf blob, k ≠ j → ∃ c, a.chunks[k]? = some c ∧ c ≠ []

/-- Before chunk `j` of a blob comes, its chunk `k` has come and been let through. -/
def LetThrough (past : List Arrival) (j k : ℕ) : Prop := k < j ∧ ∃ y, past[past.length - j + k]? = some y ∧ y.passed = true

/-- A chunk of the blobs that comes after `past` to the last empty slot finds each other chunk of its blob let through
before it, or the slot with the same bytes. -/
def UnmixedAt (past : List Arrival) (c : SentBlob × ℕ) : Prop :=
  LastSlot (gathered c.1.type past) c.1.blob c.2 → ∀ k < chunkCountOf c.1.blob, k ≠ c.2 →
    LetThrough past c.2 k ∨ (gathered c.1.type past).chunks[k]? = some (chunkPayload c.1.blob k)

/-- No chunk that is let through completes an assembly that holds chunks of other blobs. -/
def Unmixed (sent : List SentBlob) (xs : List Arrival) : Prop :=
  ∀ past x rest, xs = past ++ x :: rest → ∀ c, (outline sent)[past.length]? = some c → x.passed = true → UnmixedAt past c

instance (past : List Arrival) (j k : ℕ) : Decidable (LetThrough past j k) :=
  decidable_of_iff (k < j ∧ (past[past.length - j + k]?).any (·.passed) = true) (by rw [LetThrough, Option.any_eq_true])

instance (a : BlobAssembly) (blob : Bytes) (j : ℕ) : Decidable (LastSlot a blob j) :=
  decidable_of_iff (a.chunkCount = UInt16.ofNat (chunkCountOf blob) ∧ a.blobBytes = UInt16.ofNat blob.length ∧
    ∀ k < chunkCountOf blob, k ≠ j → (a.chunks[k]?).any (· ≠ []) = true) (by
    simp only [LastSlot, Option.any_eq_true, decide_eq_true_eq])

instance (past : List Arrival) (c : SentBlob × ℕ) : Decidable (UnmixedAt past c) :=
  inferInstanceAs (Decidable (LastSlot (gathered c.1.type past) c.1.blob c.2 → _))

theorem unmixed_iff (sent : List SentBlob) (xs : List Arrival) :
    (∀ n < xs.length, ∀ x ∈ xs[n]?.toList, ∀ c ∈ (outline sent)[n]?.toList, x.passed = true → UnmixedAt (xs.take n) c) ↔
      Unmixed sent xs := by
  simp only [Option.mem_toList]
  constructor
  · rintro h past x rest rfl c hc hpassed
    have hn := h past.length (by simp) x (by simp) c hc hpassed
    rwa [List.take_left] at hn
  · intro h n hn x hx c hc hpassed
    obtain ⟨hlt, hget⟩ := List.getElem?_eq_some_iff.mp hx
    have hsplit : xs = xs.take n ++ x :: xs.drop (n + 1) := by
      rw [← hget, ← List.drop_eq_getElem_cons hlt, List.take_append_drop]
    have hlen : (xs.take n).length = n := by
      rw [List.length_take]
      exact Nat.min_eq_left hlt.le
    exact h (xs.take n) x (xs.drop (n + 1)) hsplit c (hlen.symm ▸ hc) hpassed

instance (sent : List SentBlob) (xs : List Arrival) : Decidable (Unmixed sent xs) := decidable_of_iff _ (unmixed_iff sent xs)

section Packet
variable (now : Time) (type : Msg) (peerId : UInt32) {blob : Bytes} {j : ℕ} {a : BlobAssembly}

def slotsFor (a : BlobAssembly) (blob : Bytes) : List Bytes :=
  if a.chunkCount = UInt16.ofNat (chunkCountOf blob) ∧ a.blobBytes = UInt16.ofNat blob.length then a.chunks
  else List.replicate (chunkCountOf blob) []

theorem toNat_chunkCountOf (hb : blob.length ≤ 0xFFFF) : (UInt16.ofNat (chunkCountOf blob)).toNat = chunkCountOf blob := by
  have hle := chunkCountOf_le hb
  have hmax : kMaxBlobChunks < 65536 := by decide
  rw [UInt16.toNat_ofNat']
  omega

theorem openAssembly_packet (hb : blob.length ≤ 0xFFFF) (a : BlobAssembly) :
    (openAssembly now a (BlobChunk.decode (chunkPacket type peerId blob j))).chunkCount = UInt16.ofNat (chunkCountOf blob) ∧
      (openAssembly now a (BlobChunk.decode (chunkPacket type peerId blob j))).blobBytes = UInt16.ofNat blob.length ∧
      (openAssembly now a (BlobChunk.decode (chunkPacket type peerId blob j))).chunks = slotsFor a blob := by
  rw [decode_chunkPacket]
  simp only [openAssembly, apply_ite BlobAssembly.chunks, apply_ite BlobAssembly.chunkCount, apply_ite BlobAssembly.blobBytes,
    ite_self, toNat_chunkCountOf hb]
  by_cases hsame : a.chunkCount = UInt16.ofNat (chunkCountOf blob) ∧ a.blobBytes = UInt16.ofNat blob.length
  · obtain ⟨hc, hbytes⟩ := hsame
    simp [slotsFor, hc, hbytes]
  · have hreset : a.chunkCount ≠ UInt16.ofNat (chunkCountOf blob) ∨ a.blobBytes ≠ UInt16.ofNat blob.length := by
      by_contra hnot
      push Not at hnot
      exact hsame hnot
    simp [slotsFor, hreset, hsame]

/-- A packet of a blob is put in its slot, and when that was the last the blob is what the slots hold. -/
theorem takeBlob_packet (hb : blob.length ≤ 0xFFFF) (hj : j < chunkCountOf blob) (a : BlobAssembly) :
    ([] ∉ (slotsFor a blob).set j (chunkPayload blob j) ∧ takeBlob now a (chunkPacket type peerId blob j) =
        ({}, some ((slotsFor a blob).set j (chunkPayload blob j)).flatten)) ∨
      ∃ a', a'.chunkCount = UInt16.ofNat (chunkCountOf blob) ∧ a'.blobBytes = UInt16.ofNat blob.length ∧
        a'.chunks = (slotsFor a blob).set j (chunkPayload blob j) ∧
        takeBlob now a (chunkPacket type peerId blob j) = (a', none) := by
  obtain ⟨hcount, hbytes, hchunks⟩ := openAssembly_packet now type peerId (j := j) hb a
  have htaken := assembleBlobChunk_packet now type peerId hb hj a
  generalize openAssembly now a (BlobChunk.decode (chunkPacket type peerId blob j)) = o at hcount hbytes hchunks htaken
  dsimp only at htaken
  rw [hchunks] at htaken
  generalize (slotsFor a blob).set j (chunkPayload blob j) = slots at htaken
  have hkept : ∀ status : AssembleStatus, status ≠ .Complete →
      assembleBlobChunk now a (chunkPacket type peerId blob j) = ({ o with chunks := slots }, status, []) →
      ∃ a', a'.chunkCount = UInt16.ofNat (chunkCountOf blob) ∧ a'.blobBytes = UInt16.ofNat blob.length ∧ a'.chunks = slots ∧
        takeBlob now a (chunkPacket type peerId blob j) = (a', none) := by
    intro status hs he
    refine ⟨{ o with chunks := slots }, hcount, hbytes, rfl, ?_⟩
    rw [takeBlob, he]
    cases status with
    | Complete => exact absurd rfl hs
    | Pending => rfl
    | Reject => rfl
  by_cases hempty : slots.any (· = []) = true
  · rw [if_pos hempty] at htaken
    exact .inr (hkept .Pending (by decide) htaken)
  · rw [if_neg hempty] at htaken
    by_cases hlen : slots.flatten.length ≠ blob.length
    · rw [if_pos hlen] at htaken
      exact .inr (hkept .Reject (by decide) htaken)
    · rw [if_neg hlen] at htaken
      refine .inl ⟨fun hm => hempty (List.any_eq_true.mpr ⟨[], hm, rfl⟩), ?_⟩
      rw [takeBlob, htaken]

end Packet

section Runs
variable {sent : List SentBlob} {past : List Arrival} {x : Arrival} {b : SentBlob} {j : ℕ}

theorem openFrame_packet (b : SentBlob) (j : ℕ) : (openFrame (packetOf (b, j))).map (·.2) = some b.type := by
  have hlong : ¬ (packetOf (b, j)).length < sizeofHeader := by
    have hheader : sizeofHeader ≤ sizeofBlobChunk := by decide
    rw [packetOf, chunkPacket_length]
    omega
  have hok := (headerOk_chunkPacket_iff b.type b.peerId b.blob j).mpr (expectedMsgSize_chunkPacket b.chunked b.peerId b.blob j)
  rw [openFrame, if_neg hlong, packetOf]
  dsimp only
  rw [hok]
  rfl

theorem reaches_packet (hx : x.bytes = packetOf (b, j)) (type : Msg) :
    x.reaches type = (x.passed && decide (b.type = type)) := by
  simp only [Arrival.reaches, hx, openFrame_packet, Option.some.injEq]

/-- An assembly has a slot for each chunk whatever arrives. -/
theorem slotted_gathered (type : Msg) (xs : List Arrival) : (gathered type xs).Slotted := by
  induction xs using List.reverseRecOn with
  | nil => rfl
  | append_singleton xs x ih =>
    rw [gathered_concat, Arrival.take]
    split
    · have hset := slotted_assembleBlobChunk x.now ih x.bytes
      unfold takeBlob
      split
      · rename_i a out he
        rwa [he] at hset
      · rename_i a status out hs he
        rwa [he] at hset
    · exact ih

/-- Of the blob whose turn it is, each chunk that was let through is in its slot, or the slot is empty. -/
def SlotsKept (sent : List SentBlob) (past : List Arrival) : Prop :=
  ∀ b j, (outline sent)[past.length]? = some (b, j) →
    (gathered b.type past).chunkCount = UInt16.ofNat (chunkCountOf b.blob) →
    (gathered b.type past).blobBytes = UInt16.ofNat b.blob.length → ∀ k, LetThrough past j k →
      ∀ c, (gathered b.type past).chunks[k]? = some c → c = [] ∨ c = chunkPayload b.blob k

theorem slotsFor_of_kept (hk : SlotsKept sent past) (hplace : (outline sent)[past.length]? = some (b, j)) {k : ℕ}
    (hl : LetThrough past j k) {c : Bytes} (hc : (slotsFor (gathered b.type past) b.blob)[k]? = some c) :
    c = [] ∨ c = chunkPayload b.blob k := by
  unfold slotsFor at hc
  split at hc
  · rename_i hsame
    exact hk b j hplace hsame.1 hsame.2 k hl c hc
  · left
    exact List.eq_of_mem_replicate (List.mem_of_getElem? hc)

theorem slotsFor_length (type : Msg) (hb : b.blob.length ≤ 0xFFFF) :
    (slotsFor (gathered type past) b.blob).length = chunkCountOf b.blob := by
  unfold slotsFor
  split
  · rename_i hsame
    rw [slotted_gathered type past, hsame.1, toNat_chunkCountOf hb]
  · exact List.length_replicate

theorem letThrough_of_concat {k : ℕ} (hj : j ≤ past.length) (h : LetThrough (past ++ [x]) (j + 1) k) (hk : k ≠ j) :
    LetThrough past j k := by
  obtain ⟨hlt, y, hy, hpassed⟩ := h
  refine ⟨by omega, y, ?_, hpassed⟩
  rwa [List.length_append, List.length_singleton, Nat.add_sub_add_right, List.getElem?_append_left (by omega)] at hy

theorem passed_of_concat (hj : j ≤ past.length) (h : LetThrough (past ++ [x]) (j + 1) j) : x.passed = true := by
  obtain ⟨-, y, hy, hpassed⟩ := h
  rw [List.length_append, List.length_singleton, Nat.add_sub_add_right, Nat.sub_add_cancel hj,
    List.getElem?_append_right le_rfl, Nat.sub_self] at hy
  cases hy
  exact hpassed

theorem take_packet (hx : x.bytes = packetOf (b, j)) (a : BlobAssembly) :
    Arrival.take b.type a x = if x.passed then (takeBlob x.now a (packetOf (b, j))).1 else a := by
  simp [Arrival.take, reaches_packet hx, hx]

theorem SlotsKept.concat (hk : SlotsKept sent past) (hplace : (outline sent)[past.length]? = some (b, j))
    (hx : x.bytes = packetOf (b, j)) : SlotsKept sent (past ++ [x]) := by
  intro b' j' hplace' hcount hbytes k hl c hc
  rw [List.length_append, List.length_singleton] at hplace'
  cases j' with
  | zero => exact absurd hl.1 (Nat.not_lt_zero k)
  | succ j' =>
    have hsame := (outline_succ hplace').symm.trans hplace
    cases hsame
    have hle := index_le hplace
    rw [gathered_concat, take_packet hx] at hcount hbytes hc
    cases hpassed : x.passed with
    | false =>
      rw [hpassed, if_neg Bool.false_ne_true] at hcount hbytes hc
      refine hk b j hplace hcount hbytes k (letThrough_of_concat hle hl ?_) c hc
      rintro rfl
      rw [passed_of_concat hle hl] at hpassed
      cases hpassed
    | true =>
      rw [hpassed, if_pos rfl, packetOf] at hcount hc
      rcases takeBlob_packet x.now b.type b.peerId b.fits (mem_outline hplace).2 (gathered b.type past) with
        ⟨-, he⟩ | ⟨a', -, -, hchunks, he⟩
      · rw [he] at hcount
        have hnone := congrArg UInt16.toNat hcount
        rw [toNat_chunkCountOf b.fits] at hnone
        exact absurd hnone.symm (chunkCountOf_pos b.ne_nil).ne'
      · rw [he] at hc
        dsimp only at hc
        rw [hchunks, List.getElem?_set] at hc
        split at hc
        · rename_i hjk
          split at hc
          · cases hc
            exact .inr (hjk ▸ rfl)
          · cases hc
        · rename_i hjk
          exact slotsFor_of_kept hk hplace (letThrough_of_concat hle hl (Ne.symm hjk)) hc

theorem place_of_part {xs rest : List Arrival} (hsent : xs.map (·.bytes) <+: sent.flatMap SentBlob.packets)
    (he : xs = past ++ x :: rest) : ∃ b j, (outline sent)[past.length]? = some (b, j) ∧ x.bytes = packetOf (b, j) := by
  rw [flatMap_packets] at hsent
  have hget := List.prefix_iff_getElem?.mp hsent past.length (by simp [he])
  rw [List.getElem?_map, Option.map_eq_some_iff] at hget
  obtain ⟨⟨b, j⟩, hplace, hpacket⟩ := hget
  refine ⟨b, j, hplace, ?_⟩
  rw [hpacket]
  simp [he]

theorem slotsKept_of_part {xs : List Arrival} (hsent : xs.map (·.bytes) <+: sent.flatMap SentBlob.packets)
    {rest : List Arrival} (he : xs = past ++ rest) : SlotsKept sent past := by
  induction past using List.reverseRecOn generalizing rest with
  | nil =>
    intro b j hplace _ _ k hl
    exact absurd hl.1 (by rw [outline_head hplace]; exact Nat.not_lt_zero k)
  | append_singleton past x ih =>
    rw [List.append_assoc, List.singleton_append] at he
    obtain ⟨b, j, hplace, hx⟩ := place_of_part hsent he
    exact (ih he).concat hplace hx

/-- Each slot that is not empty is as long as the counts make it. -/
def Sized (a : BlobAssembly) : Prop :=
  ∀ k c, a.chunks[k]? = some c → c ≠ [] → c.length = min kBlobPayloadMax (a.blobBytes.toNat - k * kBlobPayloadMax)

theorem chunkPayload_length (blob : Bytes) (k : ℕ) :
    (chunkPayload blob k).length = min kBlobPayloadMax (blob.length - k * kBlobPayloadMax) := by
  rw [chunkPayload, slice, List.length_take, List.length_drop]

theorem toNat_blobBytes {blob : Bytes} (hb : blob.length ≤ 0xFFFF) : (UInt16.ofNat blob.length).toNat = blob.length := by
  rw [UInt16.toNat_ofNat']
  omega

theorem slotsFor_sized {a : BlobAssembly} (ha : Sized a) {blob : Bytes} (hb : blob.length ≤ 0xFFFF) {k : ℕ} {c : Bytes}
    (hc : (slotsFor a blob)[k]? = some c) (hne : c ≠ []) : c.length = (chunkPayload blob k).length := by
  unfold slotsFor at hc
  split at hc
  · rename_i hsame
    rw [ha k c hc hne, hsame.2, toNat_blobBytes hb, chunkPayload_length]
  · exact absurd (List.eq_of_mem_replicate (List.mem_of_getElem? hc)) hne

theorem sized_take (hx : x.bytes = packetOf (b, j)) (hj : j < chunkCountOf b.blob) (type : Msg) {a : BlobAssembly}
    (ha : Sized a) : Sized (Arrival.take type a x) := by
  unfold Arrival.take
  split
  · rw [hx, packetOf]
    rcases takeBlob_packet x.now b.type b.peerId b.fits hj a with ⟨-, he⟩ | ⟨a', -, hbytes, hchunks, he⟩
    · rw [he]
      intro k c hc
      cases hc
    · rw [he]
      intro k c hc hne
      dsimp only at hc ⊢
      rw [hbytes, toNat_blobBytes b.fits, ← chunkPayload_length]
      rw [hchunks, List.getElem?_set] at hc
      split at hc
      · rename_i hjk
        split at hc
        · cases hc
          rw [hjk]
        · cases hc
      · exact slotsFor_sized ha b.fits hc hne
  · exact ha

theorem sized_of_part {xs : List Arrival} (hsent : xs.map (·.bytes) <+: sent.flatMap SentBlob.packets) (type : Msg)
    {rest : List Arrival} (he : xs = past ++ rest) : Sized (gathered type past) := by
  induction past using List.reverseRecOn generalizing rest with
  | nil =>
    intro k c hc
    cases hc
  | append_singleton past x ih =>
    rw [List.append_assoc, List.singleton_append] at he
    obtain ⟨b, j, hplace, hx⟩ := place_of_part hsent he
    rw [gathered_concat]
    exact sized_take hx (mem_outline hplace).2 type (ih he)

/-- What completes a blob fills the last slot, and the blob is what the slots hold. -/
theorem completes_slots (hplace : (outline sent)[past.length]? = some (b, j)) (hx : x.bytes = packetOf (b, j)) {type : Msg}
    {out : Bytes} (hc : x.completes type (gathered type past) = some out) :
    x.passed = true ∧ b.type = type ∧ ((slotsFor (gathered type past) b.blob).set j (chunkPayload b.blob j)).flatten = out ∧
      ∀ k < chunkCountOf b.blob, k ≠ j → ∃ c, (slotsFor (gathered type past) b.blob)[k]? = some c ∧ c ≠ [] := by
  rw [Arrival.completes, reaches_packet hx, Option.ite_none_right_eq_some] at hc
  obtain ⟨hreaches, hc⟩ := hc
  simp only [Bool.and_eq_true, decide_eq_true_eq] at hreaches
  refine ⟨hreaches.1, hreaches.2, ?_⟩
  rw [hx, packetOf] at hc
  rcases takeBlob_packet x.now b.type b.peerId b.fits (mem_outline hplace).2 (gathered type past) with
    ⟨hfull, he⟩ | ⟨a', -, -, -, he⟩
  · rw [he] at hc
    refine ⟨Option.some.inj hc, fun k hk hkj => ?_⟩
    have hlen : (slotsFor (gathered type past) b.blob).length = chunkCountOf b.blob := slotsFor_length type b.fits
    have hget := List.getElem?_eq_getElem (hlen.symm ▸ hk)
    refine ⟨_, hget, fun hnil => hfull (List.mem_of_getElem? (i := k) ?_)⟩
    rw [List.getElem?_set_ne (Ne.symm hkj), hget, hnil]
  · rw [he] at hc
    cases hc

theorem set_slots_eq {slots : List Bytes} {blob : Bytes} (hlen : slots.length = chunkCountOf blob) (hj : j < chunkCountOf blob) :
    slots.set j (chunkPayload blob j) = (List.range (chunkCountOf blob)).map (chunkPayload blob) ↔
      ∀ k < chunkCountOf blob, k ≠ j → slots[k]? = some (chunkPayload blob k) := by
  constructor
  · intro h k hk hkj
    rw [← List.getElem?_set_ne (Ne.symm hkj) (a := chunkPayload blob j), h, List.getElem?_map, List.getElem?_range hk,
      Option.map_some]
  · intro h
    refine List.ext_getElem? fun k => ?_
    rw [List.getElem?_map]
    by_cases hk : k < chunkCountOf blob
    · rw [List.getElem?_range hk, Option.map_some]
      by_cases hkj : k = j
      · rw [hkj, List.getElem?_set_self (hlen.symm ▸ hj)]
      · rw [List.getElem?_set_ne (Ne.symm hkj)]
        exact h k hk hkj
    · rw [List.getElem?_eq_none (by simpa [hlen] using hk), List.getElem?_eq_none (by simpa using hk), Option.map_none]

/-- The assembly is the blob's when a slot besides the last one is filled. -/
theorem lastSlot_or_alone (hfilled : ∀ k < chunkCountOf b.blob, k ≠ j →
      ∃ c, (slotsFor (gathered b.type past) b.blob)[k]? = some c ∧ c ≠ []) :
    (slotsFor (gathered b.type past) b.blob = (gathered b.type past).chunks ∧ LastSlot (gathered b.type past) b.blob j) ∨
      ∀ k < chunkCountOf b.blob, k = j := by
  by_cases hsame : (gathered b.type past).chunkCount = UInt16.ofNat (chunkCountOf b.blob) ∧
      (gathered b.type past).blobBytes = UInt16.ofNat b.blob.length
  · have hslots : slotsFor (gathered b.type past) b.blob = (gathered b.type past).chunks := if_pos hsame
    exact .inl ⟨hslots, hsame.1, hsame.2, hslots ▸ hfilled⟩
  · refine .inr fun k hk => by_contra fun hkj => ?_
    obtain ⟨c, hc, hne⟩ := hfilled k hk hkj
    rw [show slotsFor (gathered b.type past) b.blob = List.replicate (chunkCountOf b.blob) [] from if_neg hsame] at hc
    exact hne (List.eq_of_mem_replicate (List.mem_of_getElem? hc))

/-- Slots of the right lengths that make up the blob hold its chunks. -/
theorem flatten_set_slots_iff {slots : List Bytes} {blob : Bytes} (hlen : slots.length = chunkCountOf blob)
    (hj : j < chunkCountOf blob)
    (hsized : ∀ k < chunkCountOf blob, k ≠ j → ∃ c, slots[k]? = some c ∧ c.length = (chunkPayload blob k).length) :
    (slots.set j (chunkPayload blob j)).flatten = blob ↔
      ∀ k < chunkCountOf blob, k ≠ j → slots[k]? = some (chunkPayload blob k) := by
  rw [← set_slots_eq hlen hj]
  constructor
  · intro h
    refine List.eq_iff_flatten_eq.mpr ⟨h.trans (flatten_chunkPayload blob).symm, List.ext_getElem? fun k => ?_⟩
    rw [List.getElem?_map, List.getElem?_map, List.getElem?_map]
    by_cases hk : k < chunkCountOf blob
    · rw [List.getElem?_range hk]
      by_cases hkj : k = j
      · rw [hkj, List.getElem?_set_self (hlen.symm ▸ hj)]
        rfl
      · obtain ⟨c, hc, hclen⟩ := hsized k hk hkj
        rw [List.getElem?_set_ne (Ne.symm hkj), hc, Option.map_some, Option.map_some, Option.map_some, hclen]
    · rw [List.getElem?_eq_none (by simpa [hlen] using hk), List.getElem?_eq_none (by simpa using hk)]
      rfl
  · intro h
    rw [h, flatten_chunkPayload]

/-- A blob that is completed is the one whose turn it is exactly where the chunks are unmixed. -/
theorem completes_iff {xs : List Arrival} (hsent : xs.map (·.bytes) <+: sent.flatMap SentBlob.packets) {rest : List Arrival}
    (he : xs = past ++ x :: rest) (hplace : (outline sent)[past.length]? = some (b, j)) (hx : x.bytes = packetOf (b, j))
    {type : Msg} {out : Bytes} (hc : x.completes type (gathered type past) = some out) :
    b.blob = out ↔ UnmixedAt past (b, j) := by
  have hk := slotsKept_of_part hsent he
  obtain ⟨-, rfl, rfl, hfilled⟩ := completes_slots hplace hx hc
  have hj := (mem_outline hplace).2
  have hlen : (slotsFor (gathered b.type past) b.blob).length = chunkCountOf b.blob := slotsFor_length b.type b.fits
  have hslots := flatten_set_slots_iff hlen hj fun k hlt hne => by
    obtain ⟨c, hc, hcne⟩ := hfilled k hlt hne
    exact ⟨c, hc, slotsFor_sized (sized_of_part hsent b.type he) b.fits hc hcne⟩
  rw [eq_comm, hslots]
  rcases lastSlot_or_alone hfilled with ⟨hchunks, hlast⟩ | halone
  · rw [hchunks] at hfilled ⊢
    constructor
    · exact fun h _ k hlt hne => .inr (h k hlt hne)
    · intro h k hlt hne
      rcases h hlast k hlt hne with hl | hslot
      · obtain ⟨c, hc, hcne⟩ := hfilled k hlt hne
        rw [hc, (slotsFor_of_kept hk hplace hl (hchunks ▸ hc)).resolve_left hcne]
      · exact hslot
  · exact ⟨fun _ _ k hlt hne => absurd (halone k hlt) hne, fun _ k hlt hne => absurd (halone k hlt) hne⟩

/-- **Unmixed chunks.** Whatever an arrival completes is one of the blobs. -/
theorem completes_sent {xs : List Arrival} (hsent : xs.map (·.bytes) <+: sent.flatMap SentBlob.packets) (hwhen : Unmixed sent xs)
    {rest : List Arrival} (he : xs = past ++ x :: rest) {type : Msg} {out : Bytes}
    (hc : x.completes type (gathered type past) = some out) : ∃ b ∈ sent, b.type = type ∧ b.blob = out := by
  obtain ⟨b, j, hplace, hx⟩ := place_of_part hsent he
  obtain ⟨hpassed, htype, -⟩ := completes_slots hplace hx hc
  have hown := (completes_iff hsent he hplace hx hc).mpr (hwhen past x rest he (b, j) hplace hpassed)
  exact ⟨b, (mem_outline hplace).1, htype, hown⟩

end Runs

end CommonwealthMP
