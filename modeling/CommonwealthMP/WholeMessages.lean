import CommonwealthMP.TcpFraming
import CommonwealthMP.BlobAssembly

/-! # Whole messages

What `header_ok` accepts and whose header states the length of what is sent: a sender that
writes nothing else keeps the framing of the stream. -/
namespace CommonwealthMP
open ByteLayout Binary32

structure WholeMessage (type : Msg) (data : Bytes) : Prop where
  opens : openFrame data = some (Header.decode data, type)
  size : (Header.decode data).size.toNat = data.length

theorem headerOk_magic {h : Header} {n : ℕ} {type : Msg} (hok : headerOk h n = some type) :
    h.magic = kMagic ∧ sizeofHeader ≤ h.size.toNat := by
  unfold headerOk at hok
  split at hok
  · cases hok
  · rename_i hgood
    push Not at hgood
    exact ⟨hgood.1, hgood.2.2⟩

/-- A header is judged by the size it states, as long as that much is there. -/
theorem headerOk_of_le {h : Header} {n k : ℕ} {type : Msg} (hok : headerOk h n = some type) (hk : h.size.toNat ≤ k) :
    headerOk h k = some type := by
  obtain ⟨hmagic, hlong⟩ := headerOk_magic hok
  have hle := (headerOk_spec hok).2.1
  rw [headerOk, if_neg (by simp [hmagic, hle, hlong])] at hok
  rwa [headerOk, if_neg (by simp [hmagic, hk, hlong])]

theorem openFrame_ok {buf : Bytes} {header : Header} {type : Msg} (ho : openFrame buf = some (header, type)) :
    sizeofHeader ≤ buf.length ∧ headerOk (Header.decode buf) buf.length = some type := by
  unfold openFrame at ho
  split at ho
  · cases ho
  · rename_i hlong
    obtain ⟨m, hok, he⟩ := Option.map_eq_some_iff.mp ho
    cases he
    exact ⟨not_lt.mp hlong, hok⟩

namespace WholeMessage
variable {type : Msg} {data : Bytes}

theorem type_at (h : WholeMessage type data) : u8At data 4 = type.code := (openFrame_spec h.opens).2.1

theorem wellFramed (h : WholeMessage type data) : WellFramed data :=
  ⟨(openFrame_ok h.opens).1, (headerOk_magic (openFrame_ok h.opens).2).1, h.size⟩

theorem of_header {header : Header} {n : ℕ} {rest : Bytes} (hok : headerOk header n = some type)
    (hr : 12 + rest.length = header.size.toNat) : WholeMessage type (header.encode ++ rest) := by
  have hdecode := Header.decode_encode_append header rest
  have hlength : (header.encode ++ rest).length = header.size.toNat := by
    rw [List.length_append, Header.encode_length, hr]
  refine ⟨?_, by rw [hdecode, hlength]⟩
  rw [openFrame, if_neg (by rw [hlength]; exact not_lt.mpr (headerOk_magic hok).2), hdecode, hlength,
    headerOk_of_le hok le_rfl]
  rfl

theorem of_fill {size : UInt16} {rest : Bytes} (hs : expectedMsgSize type size.toNat = true)
    (hr : 12 + rest.length = size.toNat) : WholeMessage type ((fillHeader type size).encode ++ rest) :=
  of_header (headerOk_fill hs (by omega) le_rfl) hr

end WholeMessage

section Builders
variable (p q flags stamp : UInt32) (b c : Bool) (hour days x y z u v w : F32) (name text : Bytes)

theorem whole_makeWelcome (token : UInt32) : WholeMessage .Welcome (makeWelcome p q b c flags token).encode :=
  .of_fill (by decide) (by simp)

theorem whole_makeSessionRules : WholeMessage .SessionRules (makeSessionRules flags).encode :=
  .of_fill (by decide) (by simp)

theorem whole_makeBye : WholeMessage .Bye (makeBye p).encode := .of_fill (by decide) (by simp)

theorem whole_makeChat : WholeMessage .Chat (makeChat p text).encode := .of_fill (by decide) (by simp [makeChat])

theorem whole_makeHeartbeat : WholeMessage .Heartbeat (makeHeartbeat p stamp).encode := .of_fill (by decide) (by simp)

theorem whole_makeReject (reason : RejectReason) : WholeMessage .Reject (makeReject reason text).encode :=
  .of_fill (by decide) (by simp [makeReject])

theorem whole_makeWorldSnapshot (weather location host place : UInt32) :
    WholeMessage .WorldSnapshot (makeWorldSnapshot hour days weather location x y z host place u v w b).encode :=
  .of_fill (by decide) (by simp [makeWorldSnapshot, f32])

theorem whole_makeSessionInfo (location count maxPlayers : UInt32) (motd : Bytes) :
    WholeMessage .SessionInfo (makeSessionInfo p location x y z count b c name maxPlayers motd flags).encode :=
  .of_fill (by decide) (by simp [makeSessionInfo, f32])

end Builders

theorem whole_chunkPacket {type : Msg} (ht : Chunked type) (p : UInt32) (blob : Bytes) (i : ℕ) :
    WholeMessage type (chunkPacket type p blob i) := by
  have hlong := not_short_chunkPacket type p blob i
  rw [sizeofBlobChunk] at hlong
  have hle := chunkPacket_length_le type p blob i
  rw [kMaxDatagram] at hle
  refine ⟨?_, ?_⟩
  · rw [openFrame, if_neg (by rw [sizeofHeader]; omega),
      (headerOk_chunkPacket_iff type p blob i).mpr (expectedMsgSize_chunkPacket ht p blob i)]
    rfl
  · rw [header_chunkPacket, fillHeader]
    dsimp only
    rw [UInt16.toNat_ofNat', Nat.mod_eq_of_lt (by omega)]

theorem whole_playerPose {pose : PlayerPose} (h : pose.header = fillHeader .PlayerPose 56) : WholeMessage .PlayerPose pose.encode := by
  rw [PlayerPose.encode, h]
  exact .of_fill (by decide) (by simp [f32])

end CommonwealthMP
