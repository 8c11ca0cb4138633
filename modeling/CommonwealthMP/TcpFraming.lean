import CommonwealthMP.Protocol
import CommonwealthMP.FrameStream

/-! # Framing of the TCP byte stream on the server -/
namespace CommonwealthMP
open ByteLayout FrameStream

/-- `tcp_try_extract_frame`: the frame, if the buffer holds one, and the buffer after the call. -/
def tcpTryExtractFrame (buf : Bytes) : Option Bytes × Bytes :=
  if buf.length < sizeofHeader then (none, buf)
  else
    let h := Header.decode buf
    if h.magic ≠ kMagic ∨ h.size.toNat < sizeofHeader ∨ kMaxTcpFrame < h.size.toNat then (none, [])
    else if buf.length < h.size.toNat then (none, buf)
    else (some (buf.take h.size.toNat), buf.drop h.size.toNat)

/-- The `maxBuf` of `tcp_recv_append` and the size of its stack buffer. -/
def kMaxRecvBuf : ℕ := kMaxTcpFrame * 2
def kRecvChunk : ℕ := 4096

/-- `tcp_recv_append` after `recv` returned `data`; `none` where it returns -2 and clears the buffer. -/
def tcpRecvAppend (buf data : Bytes) : Option Bytes :=
  if kMaxRecvBuf < buf.length + data.length then none else some (buf ++ data)

/-- A frame with the right magic whose header states its length. -/
structure WellFramed (frame : Bytes) : Prop where
  long : sizeofHeader ≤ frame.length
  magic : (Header.decode frame).magic = kMagic
  size : (Header.decode frame).size.toNat = frame.length

theorem WellFramed.length_le {frame : Bytes} (h : WellFramed frame) : frame.length ≤ kMaxTcpFrame := by
  have hs := (Header.decode frame).size.toNat_lt
  rw [h.size] at hs
  rw [kMaxTcpFrame]
  omega

theorem WellFramed.accepted {frame : Bytes} (h : WellFramed frame) :
    ¬ ((Header.decode frame).magic ≠ kMagic ∨ (Header.decode frame).size.toNat < sizeofHeader ∨
      kMaxTcpFrame < (Header.decode frame).size.toNat) := by
  have hl := h.long
  have hm := h.length_le
  rw [h.size]
  rintro (hmagic | hshort | hlong)
  · exact hmagic h.magic
  · exact absurd hl (not_le.mpr hshort)
  · exact absurd hm (not_le.mpr hlong)

theorem Header.decode_append {front : Bytes} (h : sizeofHeader ≤ front.length) (rest : Bytes) :
    Header.decode (front ++ rest) = Header.decode front := by
  rw [sizeofHeader] at h
  simp only [Header.decode, u32At, u16At, u8At]
  iterate 7 rw [slice_inside (by omega)]

theorem Header.decode_of_isPrefix {front whole : Bytes} (hp : front <+: whole) (h : sizeofHeader ≤ front.length) :
    Header.decode whole = Header.decode front := by
  obtain ⟨rest, rfl⟩ := hp
  exact Header.decode_append h rest

theorem tcpTryExtractFrame_whole {frame : Bytes} (rest : Bytes) (h : WellFramed frame) :
    tcpTryExtractFrame (frame ++ rest) = (some frame, rest) := by
  have hlong : ¬ (frame ++ rest).length < sizeofHeader := by
    have := h.long
    rw [List.length_append]
    omega
  have hall : ¬ (frame ++ rest).length < (Header.decode frame).size.toNat := by
    rw [h.size, List.length_append]
    omega
  unfold tcpTryExtractFrame
  dsimp only
  rw [if_neg hlong, Header.decode_append h.long, if_neg h.accepted, if_neg hall, h.size, List.take_left, List.drop_left]

theorem tcpTryExtractFrame_short {frame buf : Bytes} (h : WellFramed frame) (hp : buf <+: frame) (hne : buf ≠ frame) :
    tcpTryExtractFrame buf = (none, buf) := by
  have hlt : buf.length < frame.length := Nat.lt_of_le_of_ne hp.length_le fun he => hne (hp.eq_of_length he)
  unfold tcpTryExtractFrame
  dsimp only
  by_cases hs : buf.length < sizeofHeader
  · rw [if_pos hs]
  · have hd := Header.decode_of_isPrefix hp (not_lt.mp hs)
    rw [if_neg hs, ← hd, if_neg h.accepted, if_pos (by rw [h.size]; exact hlt)]

theorem tcpTryExtractFrame_shrinks {buf frame rest : Bytes} (h : tcpTryExtractFrame buf = (some frame, rest)) :
    rest.length < buf.length := by
  unfold tcpTryExtractFrame at h
  dsimp only at h
  split at h
  · cases h
  · rename_i hlong
    split at h
    · cases h
    · rename_i hgood
      split at h
      · cases h
      · cases h
        rw [List.length_drop]
        rw [sizeofHeader] at hlong hgood
        omega

/-- The server's frame cutter. -/
def tcpFrames : Cutter UInt8 where
  cut := tcpTryExtractFrame
  Whole := WellFramed
  whole_ne_nil h he := by
    have := h.long
    rw [he] at this
    exact absurd this (by decide)
  cut_nil := rfl
  cut_whole := tcpTryExtractFrame_whole
  cut_short := tcpTryExtractFrame_short
  cut_shrinks := tcpTryExtractFrame_shrinks

/-- One turn of the read loop of `poll_conn`: the data of a `recv` is appended and every complete
frame taken off. `none` where `tcp_recv_append` returns -2. -/
def recvTurn (recvBuf data : Bytes) : Option (List Bytes × Bytes) :=
  (tcpRecvAppend recvBuf data).map tcpFrames.drain

/-- The read loop over the successive results of `recv`: the frames handed on and the buffer left. -/
def readLoop (recvBuf : Bytes) : List Bytes → Option (List Bytes × Bytes)
  | [] => some ([], recvBuf)
  | data :: more =>
    match recvTurn recvBuf data with
    | none => none
    | some (frames, left) => (readLoop left more).map fun r => (frames ++ r.1, r.2)

/-- What the loop leaves between two turns is shorter than one frame, so a turn never overflows. -/
theorem tcpRecvAppend_of_short {recvBuf data : Bytes} {frames : List Bytes} (hw : ∀ frame ∈ frames, WellFramed frame)
    (hs : Short recvBuf frames) (hd : data.length ≤ kRecvChunk) : tcpRecvAppend recvBuf data = some (recvBuf ++ data) := by
  have hl : recvBuf.length ≤ kMaxTcpFrame := by
    cases frames with
    | nil =>
      obtain rfl : recvBuf = [] := hs
      exact Nat.zero_le _
    | cons frame rest => exact (hs.length_lt.trans_le (hw frame List.mem_cons_self).length_le).le
  rw [tcpRecvAppend, if_neg]
  rw [kMaxTcpFrame] at hl
  rw [kRecvChunk] at hd
  simp only [kMaxRecvBuf, kMaxTcpFrame]
  omega

/-- One turn in the middle of a stream of whole frames. -/
theorem recvTurn_stream {recvBuf data tail : Bytes} {frames : List Bytes} (hw : ∀ frame ∈ frames, WellFramed frame)
    (hs : Short recvBuf frames) (hd : data.length ≤ kRecvChunk) (he : recvBuf ++ data ++ tail = frames.flatten) :
    ∃ done rest left, frames = done ++ rest ∧ recvTurn recvBuf data = some (done, left) ∧ Short left rest ∧
      left ++ tail = rest.flatten := by
  obtain ⟨done, rest, left, hf, hdrain, hshort, htail⟩ := Cutter.drain_stream (C := tcpFrames) hw he
  refine ⟨done, rest, left, hf, ?_, hshort, htail⟩
  rw [recvTurn, tcpRecvAppend_of_short hw hs hd, Option.map_some, hdrain]

theorem readLoop_stream {recvBuf : Bytes} {frames chunks : List Bytes} (hw : ∀ frame ∈ frames, WellFramed frame)
    (hs : Short recvBuf frames) (hd : ∀ data ∈ chunks, data.length ≤ kRecvChunk)
    (he : recvBuf ++ chunks.flatten = frames.flatten) : readLoop recvBuf chunks = some (frames, []) := by
  induction chunks generalizing recvBuf frames with
  | nil =>
    rw [List.flatten_nil, List.append_nil] at he
    cases frames with
    | nil =>
      obtain rfl : recvBuf = [] := hs
      rfl
    | cons frame rest =>
      -- the buffer would be the whole stream, but it ends inside the first frame
      have hlt := hs.length_lt
      rw [he, List.flatten_cons, List.length_append] at hlt
      omega
  | cons data more ih =>
    rw [List.flatten_cons, ← List.append_assoc] at he
    obtain ⟨done, rest, left, rfl, ht, hshort, htail⟩ := recvTurn_stream hw hs (hd data List.mem_cons_self) he
    have hrest := ih (fun f hm => hw f (List.mem_append_right _ hm)) hshort
      (fun d hm => hd d (List.mem_cons_of_mem _ hm)) htail
    rw [readLoop, ht]
    dsimp only
    rw [hrest, Option.map_some]

/-- However a stream of well-framed messages is cut into reads, the loop hands on exactly these
messages, leaves an empty buffer and never overflows it. -/
theorem readLoop_frames (frames chunks : List Bytes) (hw : ∀ frame ∈ frames, WellFramed frame)
    (hd : ∀ data ∈ chunks, 1 ≤ data.length ∧ data.length ≤ kRecvChunk) (he : chunks.flatten = frames.flatten) :
    readLoop [] chunks = some (frames, []) := by
  have hs : Short [] frames := by
    cases frames with
    | nil => rfl
    | cons frame rest => exact ⟨List.nil_prefix, (tcpFrames.whole_ne_nil (hw frame List.mem_cons_self)).symm⟩
  exact readLoop_stream hw hs (fun data hm => (hd data hm).2) he

/-- A Bye and a Heartbeat, the first header cut in two. -/
theorem readLoop_frames_splitHeader :
    readLoop [] [(makeBye 7).encode.take 5, (makeBye 7).encode.drop 5 ++ (makeHeartbeat 7 1).encode] =
      some ([(makeBye 7).encode, (makeHeartbeat 7 1).encode], []) := by
  have hbye : WellFramed (makeBye 7).encode := ⟨by decide, by decide, by decide⟩
  have hbeat : WellFramed (makeHeartbeat 7 1).encode := ⟨by decide, by decide, by decide⟩
  refine readLoop_frames _ _ ?_ (by decide) (by decide)
  intro frame hm
  rcases List.mem_cons.mp hm with rfl | hm
  · exact hbye
  · rw [List.mem_singleton.mp hm]
    exact hbeat

end CommonwealthMP
