import CommonwealthMP.PluginClient
import CommonwealthMP.TcpFraming
import CommonwealthMP.StepRuns
import Mathlib.Tactic.Linarith

/-! # The byte stream the plugin reads

`cmp_net_tcp_recv_frame` reads the socket until it would block and then takes one frame. The
end of the stream is reported where it is read, whatever the buffer still holds. -/
namespace CommonwealthMP.Plugin
open ByteLayout FrameStream FrameStream.Cutter StepRuns

/-- An answer of `recv` other than would-block: data, the end of the stream, or an error. -/
inductive Recv
  | data (bytes : Bytes)
  | ended
  | failed
  deriving DecidableEq, Repr

/-- The loop over `recv`: the buffer after it, and whether it ended in a would-block. -/
def recvAll (tcpRecv : Bytes) : List Recv → Bytes × Bool
  | [] => (tcpRecv, true)
  | .data bytes :: more => recvAll (tcpRecv ++ bytes) more
  | .ended :: _ => (tcpRecv, false)
  | .failed :: _ => (tcpRecv, false)

/-- The extraction of a frame, and the buffer after it. -/
def extractFrame (maxlen : ℕ) (tcpRecv : Bytes) : Option Bytes × Bytes :=
  if tcpRecv.length < sizeofHeader then (none, tcpRecv)
  else
    let size := (u16At tcpRecv 6).toNat
    if size < sizeofHeader ∨ 65535 < size then (none, [])
    else if tcpRecv.length < size then (none, tcpRecv)
    else if maxlen < size then (none, tcpRecv.drop size)
    else (some (tcpRecv.take size), tcpRecv.drop size)

/-- `g_tcp`, `g_tcpRecv`, and what each call will read until `recv` would block. -/
structure TcpStream where
  connected : Bool
  tcpRecv : Bytes
  arrivals : List (List Recv)

/-- `cmp_net_tcp_recv_frame` -/
def TcpStream.recvFrame (maxlen : ℕ) (t : TcpStream) : RecvFrame × TcpStream :=
  if !t.connected || decide (maxlen < sizeofHeader) then (.nothing, t)
  else
    match recvAll t.tcpRecv (t.arrivals.headD []) with
    | (tcpRecv, false) => (.closed, { connected := false, tcpRecv := tcpRecv, arrivals := t.arrivals.tail })
    | (tcpRecv, true) =>
      match extractFrame maxlen tcpRecv with
      | (none, left) => (.nothing, { t with tcpRecv := left, arrivals := t.arrivals.tail })
      | (some buf, left) => (.frame buf, { t with tcpRecv := left, arrivals := t.arrivals.tail })

/-- The buffer of `CMP_NetPoll`. -/
def kPollBuffer : ℕ := 65536

/-- The TCP side of `udp_win.cpp` over any sockets that do the rest. -/
def winSockets {σ : Type} (rest : Sockets σ) : Sockets (TcpStream × σ) where
  nowSec w := rest.nowSec w.2
  startup w := ((rest.startup w.2).1, w.1, (rest.startup w.2).2)
  shutdown w := ({ w.1 with connected := false, tcpRecv := [] }, rest.shutdown w.2)
  tcpConnected w := w.1.connected
  tcpConnect w :=
    let r := rest.tcpConnect w.2
    (r.1, { w.1 with connected := r.1, tcpRecv := [] }, r.2)
  tcpSend data w := ((rest.tcpSend data w.2).1, w.1, (rest.tcpSend data w.2).2)
  tcpRecvFrame w :=
    let r := w.1.recvFrame kPollBuffer
    (r.1, r.2, (rest.tcpRecvFrame w.2).2)
  udpSend data w := ((rest.udpSend data w.2).1, w.1, (rest.udpSend data w.2).2)
  udpRecv w := ((rest.udpRecv w.2).1, w.1, (rest.udpRecv w.2).2)

theorem u16At_size (buf : Bytes) : u16At buf 6 = (Header.decode buf).size := rfl

theorem extractFrame_whole {frame : Bytes} (rest : Bytes) (h : WellFramed frame) :
    extractFrame kPollBuffer (frame ++ rest) = (some frame, rest) := by
  have hle := h.length_le
  have hlong := h.long
  rw [kMaxTcpFrame] at hle
  rw [sizeofHeader] at hlong
  have hsize : (u16At (frame ++ rest) 6).toNat = frame.length := by
    rw [u16At_size, Header.decode_append h.long, h.size]
  unfold extractFrame
  dsimp only
  rw [hsize, if_neg (by rw [List.length_append, sizeofHeader]; omega), if_neg (by rw [sizeofHeader]; omega),
    if_neg (by rw [List.length_append]; omega), if_neg (by rw [kPollBuffer]; omega), List.take_left, List.drop_left]

theorem extractFrame_short {frame buf : Bytes} (h : WellFramed frame) (hp : buf <+: frame) (hne : buf ≠ frame) :
    extractFrame kPollBuffer buf = (none, buf) := by
  have hlt : buf.length < frame.length := Nat.lt_of_le_of_ne hp.length_le fun he => hne (hp.eq_of_length he)
  have hle := h.length_le
  have hlong := h.long
  rw [kMaxTcpFrame] at hle
  rw [sizeofHeader] at hlong
  unfold extractFrame
  dsimp only
  by_cases hs : buf.length < sizeofHeader
  · rw [if_pos hs]
  · have hsize : (u16At buf 6).toNat = frame.length := by
      rw [u16At_size, ← Header.decode_of_isPrefix hp (not_lt.mp hs), h.size]
    rw [if_neg hs, hsize, if_neg (by rw [sizeofHeader]; omega), if_pos hlt]

theorem extractFrame_shrinks {buf frame rest : Bytes} (h : extractFrame kPollBuffer buf = (some frame, rest)) :
    rest.length < buf.length := by
  unfold extractFrame at h
  dsimp only at h
  split at h
  · cases h
  · rename_i hlong
    split at h
    · cases h
    · rename_i hgood
      split at h
      · cases h
      · split at h
        · cases h
        · cases h
          rw [List.length_drop]
          rw [sizeofHeader] at hlong hgood
          omega

def clientFrames : Cutter UInt8 where
  cut := extractFrame kPollBuffer
  Whole := WellFramed
  whole_ne_nil h := List.ne_nil_of_length_pos (lt_of_lt_of_le (show 0 < sizeofHeader from Nat.succ_pos 11) h.long)
  cut_nil := rfl
  cut_whole := extractFrame_whole
  cut_short := extractFrame_short
  cut_shrinks := extractFrame_shrinks

theorem recvAll_data (tcpRecv : Bytes) (chunks : List Bytes) (more : List Recv) :
    recvAll tcpRecv (chunks.map .data ++ more) = recvAll (tcpRecv ++ chunks.flatten) more := by
  induction chunks generalizing tcpRecv with
  | nil => simp
  | cons chunk chunks ih =>
    rw [List.map_cons, List.cons_append, recvAll, ih, List.flatten_cons, List.append_assoc]

section Reads
variable {tcpRecv rest : Bytes} {chunks : List Bytes}

theorem recvFrame_short (later : List (List Recv)) (h : clientFrames.cut (tcpRecv ++ chunks.flatten) = (none, rest)) :
    TcpStream.recvFrame kPollBuffer ⟨true, tcpRecv, chunks.map .data :: later⟩ = (.nothing, ⟨true, rest, later⟩) := by
  have hread := recvAll_data tcpRecv chunks []
  rw [List.append_nil, recvAll] at hread
  rw [TcpStream.recvFrame, if_neg (by simp [kPollBuffer, sizeofHeader])]
  dsimp only [List.headD_cons, List.tail_cons]
  rw [hread]
  dsimp only [clientFrames] at h ⊢
  rw [h]

theorem recvFrame_whole (later : List (List Recv)) {frame : Bytes}
    (h : clientFrames.cut (tcpRecv ++ chunks.flatten) = (some frame, rest)) :
    TcpStream.recvFrame kPollBuffer ⟨true, tcpRecv, chunks.map .data :: later⟩ = (.frame frame, ⟨true, rest, later⟩) := by
  have hread := recvAll_data tcpRecv chunks []
  rw [List.append_nil, recvAll] at hread
  rw [TcpStream.recvFrame, if_neg (by simp [kPollBuffer, sizeofHeader])]
  dsimp only [List.headD_cons, List.tail_cons]
  rw [hread]
  dsimp only [clientFrames] at h ⊢
  rw [h]

theorem recvFrame_ended (tcpRecv : Bytes) (chunks : List Bytes) (later : List (List Recv)) :
    (TcpStream.recvFrame kPollBuffer ⟨true, tcpRecv, (chunks.map .data ++ [.ended]) :: later⟩).1 = .closed := by
  rw [TcpStream.recvFrame, if_neg (by simp [kPollBuffer, sizeofHeader])]
  dsimp only [List.headD_cons]
  rw [recvAll_data, recvAll]

end Reads

/-- The frames the server wrote before it closed, and how they reach the client: what each call
reads before the one that meets the end of the stream, and what that last call reads. -/
structure Delivery where
  frames : List Bytes
  rounds : List (List Bytes)
  final : List Bytes
  whole : ∀ frame ∈ frames, WellFramed frame
  carried : rounds.flatten.flatten ++ final.flatten = frames.flatten

namespace Delivery
variable (d : Delivery)

def pieces : List Bytes := d.rounds.map List.flatten

def arrivals : List (List Recv) := d.rounds.map (·.map .data) ++ [d.final.map .data ++ [.ended]]

/-- The frames taken by the first `k` calls, and what the buffer holds after them. -/
def handed (k : ℕ) : List Bytes := (clientFrames.serve [] (d.pieces.take k)).1
def left (k : ℕ) : Bytes := (clientFrames.serve [] (d.pieces.take k)).2

theorem pieces_length : d.pieces.length = d.rounds.length := List.length_map _

theorem pieces_flatten (k : ℕ) :
    (d.pieces.take k).flatten ++ ((d.pieces.drop k).flatten ++ d.final.flatten) = d.frames.flatten := by
  rw [← List.append_assoc, ← List.flatten_append, List.take_append_drop, pieces, ← d.carried, List.flatten_flatten]

variable {d} {k : ℕ}

theorem served_succ (h : k < d.rounds.length) :
    d.handed (k + 1) = d.handed k ++ (clientFrames.cut (d.left k ++ d.rounds[k].flatten)).1.toList ∧
      d.left (k + 1) = (clientFrames.cut (d.left k ++ d.rounds[k].flatten)).2 := by
  have hp : d.pieces.take (k + 1) = d.pieces.take k ++ [d.rounds[k].flatten] := by
    rw [List.take_add_one, List.getElem?_eq_getElem (by rwa [pieces_length]), Option.toList_some]
    simp [pieces]
  have hs := Cutter.serve_concat (C := clientFrames) [] (d.pieces.take k) d.rounds[k].flatten
  rw [← hp] at hs
  exact ⟨congrArg Prod.fst hs, congrArg Prod.snd hs⟩

theorem handed_whole {buf : Bytes} (h : buf ∈ d.handed k) : WellFramed buf := by
  obtain ⟨n, -, hn, -⟩ := Cutter.serve_stream (C := clientFrames) d.whole (d.pieces_flatten k)
  rw [handed, hn] at h
  exact d.whole buf (List.mem_of_mem_take h)

/-- How many frames have been taken when the end of the stream is read. -/
theorem handed_all : ∃ h ≤ d.frames.length, d.handed d.rounds.length = d.frames.take h ∧
    ∀ k ≤ d.frames.length, k ≤ h ↔ InTime d.frames d.pieces k := by
  have he := d.pieces_flatten d.rounds.length
  obtain ⟨h, hle, hfront, -, hcount⟩ := Cutter.serve_stream (C := clientFrames) d.whole he
  rw [← pieces_length, List.take_length] at hfront hcount
  refine ⟨h, hle, ?_, hcount⟩
  rw [handed, ← pieces_length, List.take_length, hfront]

theorem arrivals_drop (h : k < d.rounds.length) :
    d.arrivals.drop k = d.rounds[k].map .data :: d.arrivals.drop (k + 1) := by
  have hk : k < d.arrivals.length := by
    rw [arrivals, List.length_append, List.length_map]
    omega
  rw [List.drop_eq_getElem_cons hk]
  simp [arrivals, List.getElem_append_left, h]

theorem arrivals_last : d.arrivals.drop d.rounds.length = [d.final.map .data ++ [.ended]] := by
  rw [arrivals, List.drop_append_of_le_length (by simp), List.drop_eq_nil_of_le (by simp), List.nil_append]

end Delivery

/-- The client stays in the session through all of these frames. -/
def stays (me : UInt32) : List Bytes → Bool
  | [] => true
  | buf :: more => !endsSession me buf && stays (peerAfter me buf) more

theorem stays_append (me : UInt32) (front rest : List Bytes) :
    stays me (front ++ rest) = (stays me front && stays (front.foldl peerAfter me) rest) := by
  induction front generalizing me with
  | nil => simp [stays]
  | cons buf front ih => simp [stays, ih, Bool.and_assoc]

theorem Delivery.stays_handed {d : Delivery} {me : UInt32} {k : ℕ} (hk : k ≤ d.rounds.length)
    (h : stays me (d.handed d.rounds.length) = true) : stays me (d.handed k) = true := by
  induction hk using Nat.decreasingInduction with
  | of_succ k hk ih =>
    rw [(served_succ hk).1, stays_append, Bool.and_eq_true] at ih
    exact ih.1
  | self => exact h

/-- The frames handed to `HandleMessage` so far. -/
def tcpFrames (events : List Event) : List Bytes :=
  events.filterMap fun
    | .frame buf => some buf
    | _ => none

def Reported (events : List Event) : Prop := .closed ∈ events ∨ .lost ∈ events

/-- The datagrams that arrive are of the kinds the server sends by UDP. -/
def PosesOnly {σ : Type} (rest : Sockets σ) : Prop :=
  ∀ w buf type, (rest.udpRecv w).1 = some buf → headerOk (Header.decode buf) buf.length = some type → msgIsUdp type = true

structure Delivery.Starts {σ : Type} (d : Delivery) (me : UInt32) (c : Client (TcpStream × σ)) : Prop where
  joined : c.session.net.joined = true
  myPeerId : c.session.net.myPeerId = me
  stream : c.sockets.1 = ⟨true, [], d.arrivals⟩
  events : c.events = []

structure Delivery.Reads {σ : Type} (d : Delivery) (me : UInt32) (k : ℕ) (c : Client (TcpStream × σ)) : Prop where
  within : k ≤ d.rounds.length
  joined : c.session.net.joined = true
  myPeerId : c.session.net.myPeerId = (d.handed k).foldl peerAfter me
  stream : c.sockets.1 = ⟨true, d.left k, d.arrivals.drop k⟩
  frames : tcpFrames c.events = d.handed k
  stayed : stays me (d.handed k) = true
  silent : ¬ Reported c.events

structure Delivery.Closed {σ : Type} (d : Delivery) (me : UInt32) (c : Client (TcpStream × σ)) : Prop where
  joined : c.session.net.joined = false
  frames : tcpFrames c.events = d.handed d.rounds.length
  stayed : stays me (d.handed d.rounds.length) = true
  reported : Reported c.events

def TimesOut {σ : Type} (rest : Sockets σ) : Prop := ∃ w received, 0 < received ∧ 15 < rest.nowSec w - received

/-- Where a session stands that had made `k` reads: still reading, closed at the end of the
stream, or left for another reason. -/
inductive Delivery.After {σ : Type} (d : Delivery) (me : UInt32) (rest : Sockets σ) (k : ℕ)
    (c : Client (TcpStream × σ)) : Prop
  | reading (k' : ℕ) (hk : k ≤ k') (h : d.Reads me k' c)
  | closed (h : d.Closed me c)
  | gone (hj : c.session.net.joined = false) (hs : ¬ Reported c.events)
      (why : stays me (d.handed d.rounds.length) = true → TimesOut rest)

section Polls
variable {σ : Type} {rest : Sockets σ} {d : Delivery} {me : UInt32} {k : ℕ} {c c' : Client (TcpStream × σ)}

theorem keptBySends_stream (rest : Sockets σ) : KeptBySends (winSockets rest) (Prod.fst : TcpStream × σ → TcpStream) :=
  ⟨fun _ _ => rfl, fun _ _ => rfl⟩

theorem Delivery.Reads.sends (h : d.Reads me k c) (hs : Sends (Prod.fst : TcpStream × σ → TcpStream) c c') :
    d.Reads me k c' where
  within := h.within
  joined := (congrArg Core.joined hs.core).trans h.joined
  myPeerId := (congrArg Core.myPeerId hs.core).trans h.myPeerId
  stream := hs.view.trans h.stream
  frames := by rw [hs.events, h.frames]
  stayed := h.stayed
  silent := by rw [hs.events]; exact h.silent

variable (rest) in
theorem Delivery.Reads.handle (h : d.Reads me k c) {buf : Bytes} {w : σ} (game : LocalGame) (hk : k < d.rounds.length)
    (hs : d.handed (k + 1) = d.handed k ++ [buf]) :
    let c' := handleMessage (winSockets rest) game buf
      { c with sockets := (⟨true, d.left (k + 1), d.arrivals.drop (k + 1)⟩, w), events := c.events ++ [.frame buf] }
    if c'.session.net.joined then d.Reads me (k + 1) c'
    else ¬ Reported c'.events ∧ stays me (d.handed d.rounds.length) = false := by
  have hframes : tcpFrames (c.events ++ [.frame buf]) = d.handed (k + 1) := by
    rw [tcpFrames, List.filterMap_append, ← tcpFrames, h.frames, hs]
    rfl
  have hsilent : ¬ Reported (c.events ++ [.frame buf]) := by
    simpa [Reported] using h.silent
  dsimp only
  cases he : endsSession c.session.net.myPeerId buf with
  | true =>
    -- the message ends the session before the end of the stream is read
    obtain ⟨hgone, hsame⟩ := handleMessage_ends (S := winSockets rest) (g := game)
      (c := { c with
        sockets := (⟨true, d.left (k + 1), d.arrivals.drop (k + 1)⟩, w), events := c.events ++ [.frame buf] }) he
    rw [if_neg (by rw [hgone]; decide), hsame]
    refine ⟨hsilent, ?_⟩
    by_contra hall
    have hstay := Delivery.stays_handed hk (Bool.eq_true_of_not_eq_false hall)
    rw [hs, stays_append, ← h.myPeerId] at hstay
    simp [stays, he] at hstay
  | false =>
    obtain ⟨hjoined, hpeer, hsame, hview⟩ := handleMessage_carries (keptBySends_stream rest) game
      (c := { c with
        sockets := (⟨true, d.left (k + 1), d.arrivals.drop (k + 1)⟩, w), events := c.events ++ [.frame buf] }) he
    rw [if_pos (hjoined.trans h.joined)]
    exact {
      within := hk
      joined := hjoined.trans h.joined
      myPeerId := by rw [hpeer, h.myPeerId, hs, List.foldl_append]; rfl
      stream := hview
      frames := by rw [hsame, hframes]
      stayed := by
        rw [hs, stays_append, ← h.myPeerId]
        simp [stays, he, h.stayed]
      silent := by rw [hsame]; exact hsilent }

variable (rest) in
theorem pollTcp_after (game : LocalGame) (fuel : ℕ) (h : d.Reads me k c) :
    d.After me rest (k + min 1 fuel) (pollTcp (winSockets rest) game fuel c) := by
  induction fuel generalizing k c with
  | zero => exact .reading k le_rfl h
  | succ fuel ih =>
    have hmin : min 1 (fuel + 1) = 1 := by omega
    have hc : c.sockets = (⟨true, d.left k, d.arrivals.drop k⟩, c.sockets.2) := by rw [← h.stream]
    rw [hmin]
    rcases h.within.lt_or_eq with hk | rfl
    · obtain ⟨hhanded, hleft⟩ := Delivery.served_succ hk
      rw [d.arrivals_drop hk] at hc
      cases hcut : clientFrames.cut (d.left k ++ d.rounds[k].flatten) with
      | mk front left =>
        rw [hcut] at hhanded hleft
        cases front with
        | none =>
          have hr := recvFrame_short (d.arrivals.drop (k + 1)) hcut
          rw [pollTcp_nothing (w := (⟨true, left, d.arrivals.drop (k + 1)⟩, (rest.tcpRecvFrame c.sockets.2).2))
            (by rw [hc]; simp only [winSockets, hr])]
          rw [Option.toList_none, List.append_nil] at hhanded
          exact .reading (k + 1) le_rfl
            { within := hk, joined := h.joined, myPeerId := by rw [hhanded]; exact h.myPeerId
              stream := by rw [hleft], frames := by rw [hhanded]; exact h.frames
              stayed := by rw [hhanded]; exact h.stayed, silent := h.silent }
        | some buf =>
          have hr := recvFrame_whole (d.arrivals.drop (k + 1)) hcut
          rw [Option.toList_some] at hhanded
          have hbuf : WellFramed buf := d.handed_whole (k := k + 1) (by rw [hhanded]; simp)
          rw [pollTcp_frame (w := (⟨true, left, d.arrivals.drop (k + 1)⟩, (rest.tcpRecvFrame c.sockets.2).2))
            (by rw [hc]; simp only [winSockets, hr]) (not_lt.mpr hbuf.long)]
          have hstep := h.handle rest (w := (rest.tcpRecvFrame c.sockets.2).2) game hk hhanded
          dsimp only at hstep hleft ⊢
          rw [← hleft]
          split
          · rename_i hj
            rw [if_pos hj] at hstep
            cases ih hstep with
            | reading k' hk' h' => exact .reading k' (by omega) h'
            | closed h' => exact .closed h'
            | gone hj' hs' why => exact .gone hj' hs' why
          · rename_i hj
            rw [if_neg hj] at hstep
            exact .gone (Bool.eq_false_of_not_eq_true hj) hstep.1 fun hall => by simp [hall] at hstep
    · have hr := recvFrame_ended (d.left d.rounds.length) d.final []
      rw [d.arrivals_last] at hc
      rw [pollTcp_closed (w := ((winSockets rest).tcpRecvFrame c.sockets).2)
        (by rw [hc]; exact Prod.ext hr rfl)]
      refine .closed { joined := leave_joined _, frames := ?_, stayed := h.stayed, reported := ?_ }
      · rw [leave_events, tcpFrames, List.filterMap_append]
        simpa [tcpFrames] using h.frames
      · rw [leave_events]
        exact .inl (by simp)

/-- Datagrams of the kinds the server sends leave the stream and the session's identity alone. -/
theorem pollUdp_reads (hp : PosesOnly rest) (game : LocalGame) (fuel : ℕ) (h : d.Reads me k c) :
    d.Reads me k (pollUdp (winSockets rest) game fuel c) := by
  induction fuel generalizing c with
  | zero => exact h
  | succ fuel ih =>
    rw [pollUdp]
    cases hr : rest.udpRecv c.sockets.2 with
    | mk received w =>
      have hread : (winSockets rest).udpRecv c.sockets = (received, c.sockets.1, w) := by
        simp only [winSockets, hr]
      rw [hread]
      cases received with
      | none => exact { h with stream := h.stream }
      | some buf =>
        dsimp only
        split
        · exact { h with stream := h.stream }
        · have hkind := fun type => hp c.sockets.2 buf type (congrArg Prod.fst hr)
          have hends (id : UInt32) : endsSession id buf = false := by
            unfold endsSession
            split <;> first | rfl | exact absurd (hkind _ ‹_›) (by decide)
          have hpeer (id : UInt32) : peerAfter id buf = id := by
            unfold peerAfter
            split <;> first | rfl | exact absurd (hkind _ ‹_›) (by decide)
          have hc := handleMessage_carries (keptBySends_stream rest) game
            (c := { c with sockets := (c.sockets.1, w), events := c.events ++ [.datagram buf] }) (hends _)
          have hnext : d.Reads me k (handleMessage (winSockets rest) game buf
              { c with sockets := (c.sockets.1, w), events := c.events ++ [.datagram buf] }) :=
            { within := h.within
              joined := hc.joined.trans h.joined
              myPeerId := by rw [hc.myPeerId, hpeer]; exact h.myPeerId
              stream := hc.view.trans h.stream
              frames := by
                rw [hc.events, tcpFrames, List.filterMap_append]
                simpa [tcpFrames] using h.frames
              stayed := h.stayed
              silent := by
                rw [hc.events]
                simpa [Reported] using h.silent }
          rw [if_pos hnext.joined]
          exact ih hnext

variable (rest) in
theorem finish_after (h : d.Reads me k c) :
    d.After me rest k (let c := serverTimeout (winSockets rest) c
      if !c.session.net.joined then c else { c with session.net := mergeIncoming c.session.net }) := by
  unfold serverTimeout
  split
  · rename_i hlate
    have hj := leave_joined (S := winSockets rest) { c with events := c.events ++ [.timedOut] }
    have hs : ¬ Reported (leave (winSockets rest) { c with events := c.events ++ [.timedOut] }).events := by
      rw [leave_events]
      simpa [Reported] using h.silent
    change d.After me rest k (if !(leave (winSockets rest) _).session.net.joined then leave (winSockets rest) _ else _)
    rw [hj]
    exact .gone hj hs fun _ => ⟨c.sockets.2, c.session.lastRecvSec, hlate⟩
  · have hmerge : ∀ (qs : List QueuedPose) (net : NetRuntime), (qs.foldl mergePose net).joined = net.joined ∧
        (qs.foldl mergePose net).myPeerId = net.myPeerId := by
      intro qs
      induction qs with
      | nil => exact fun _ => ⟨rfl, rfl⟩
      | cons q qs ih =>
        intro net
        rw [List.foldl_cons, (ih _).1, (ih _).2, mergePose]
        split <;> exact ⟨rfl, rfl⟩
    change d.After me rest k (if !c.session.net.joined then c else { c with session.net := mergeIncoming c.session.net })
    rw [h.joined]
    obtain ⟨hj, hid⟩ := hmerge c.session.net.incoming c.session.net
    exact .reading k le_rfl
      { h with joined := hj.trans h.joined, myPeerId := hid.trans h.myPeerId }

theorem netPoll_after (hp : PosesOnly rest) (game : LocalGame) (h : d.Reads me k c) :
    d.After me rest (k + 1) (netPoll (winSockets rest) game c) := by
  have hconn : (winSockets rest).tcpConnected c.sockets = true := congrArg TcpStream.connected h.stream
  rw [netPoll, h.joined, hconn]
  have hbegin := h.sends (sends_prelude (keptBySends_stream rest) game c)
  have htcp := pollTcp_after rest game 16 hbegin
  simp only [Bool.not_true, Bool.false_eq_true, if_false]
  generalize pollTcp (winSockets rest) game 16 (prelude (winSockets rest) game c) = c₁ at htcp
  cases htcp with
  | reading k' hk' h' =>
    have hudp := pollUdp_reads hp game 16 h'
    rw [h'.joined, hudp.joined]
    cases finish_after rest hudp with
    | reading k₂ hk₂ h₂ => exact .reading k₂ (by omega) h₂
    | closed h₂ => exact .closed h₂
    | gone hj hs why => exact .gone hj hs why
  | closed h' =>
    rw [h'.joined]
    exact .closed h'
  | gone hj hs why =>
    rw [hj]
    exact .gone hj hs why

theorem netPoll_left {S : Sockets (TcpStream × σ)} (game : LocalGame) (h : c.session.net.joined = false) :
    netPoll S game c = c := by
  rw [netPoll, h]
  rfl

theorem netPoll_step (hp : PosesOnly rest) (game : LocalGame) (h : d.After me rest k c) :
    d.After me rest (k + 1) (netPoll (winSockets rest) game c) := by
  cases h with
  | reading k' hk' h' =>
    cases netPoll_after hp game h' with
    | reading k₂ hk₂ h₂ => exact .reading k₂ (by omega) h₂
    | closed h₂ => exact .closed h₂
    | gone hj hs why => exact .gone hj hs why
  | closed h' =>
    rw [netPoll_left game h'.joined]
    exact .closed h'
  | gone hj hs why =>
    rw [netPoll_left game hj]
    exact .gone hj hs why

/-- A run of polls makes at least one read each until the session is over. -/
theorem polls_after (hp : PosesOnly rest) (hc : d.Starts me c) (games : List LocalGame) :
    d.After me rest games.length (run (fun c game => netPoll (winSockets rest) game c) c games) := by
  have hzero : d.handed 0 = [] ∧ d.left 0 = [] := ⟨rfl, rfl⟩
  have hstart : d.Reads me 0 c :=
    { within := Nat.zero_le _, joined := hc.joined, myPeerId := hc.myPeerId, stream := hc.stream
      frames := by rw [hc.events]; rfl, stayed := rfl, silent := by rw [hc.events]; simp [Reported] }
  induction games using List.reverseRecOn with
  | nil => exact .reading 0 le_rfl hstart
  | append_singleton games game ih =>
    rw [run_concat, List.length_append, List.length_singleton]
    exact netPoll_step hp game ih

end Polls

/-- In every schedule of polls, all the frames are handed to `HandleMessage` before the client
reports the connection closed. -/
def Delivery.HandsAll (d : Delivery) (me : UInt32) : Prop :=
  ∀ (σ : Type) (rest : Sockets σ) (c : Client (TcpStream × σ)) (games : List LocalGame), PosesOnly rest → d.Starts me c →
    Reported (run (fun c game => netPoll (winSockets rest) game c) c games).events →
      tcpFrames (run (fun c game => netPoll (winSockets rest) game c) c games).events = d.frames

/-- Sockets on which nothing else happens and no time passes. -/
def stillSockets : Sockets Unit where
  nowSec _ := 0
  startup w := (true, w)
  shutdown w := w
  tcpConnected _ := true
  tcpConnect w := (true, w)
  tcpSend _ w := (true, w)
  tcpRecvFrame w := (.nothing, w)
  udpSend _ w := (true, w)
  udpRecv w := (none, w)

/-- A client with a peer id that begins to read. -/
def Delivery.listener (d : Delivery) (me : UInt32) : Client (TcpStream × Unit) where
  session := { net := { joined := true, myPeerId := me } }
  sockets := (⟨true, [], d.arrivals⟩, ())

theorem Delivery.listener_starts (d : Delivery) (me : UInt32) : d.Starts me (d.listener me) := ⟨rfl, rfl, rfl, rfl⟩

theorem stillSockets_posesOnly : PosesOnly stillSockets := by
  intro w buf type h
  cases h

/-- Every frame is handed over before the close is reported exactly when nothing is left in the
buffer at the read that meets the end of the stream, or the client has left before it. -/
theorem handsAll_iff (d : Delivery) (me : UInt32) :
    d.HandsAll me ↔ ∃ k ≤ d.frames.length, InTime d.frames d.pieces k ∧
      (k = d.frames.length ∨ stays me (d.frames.take k) = false) := by
  obtain ⟨h, hle, hfront, hcount⟩ := d.handed_all
  constructor
  · intro hall
    by_cases hstay : stays me (d.handed d.rounds.length) = true
    · -- enough polls of a client to whom nothing else happens reach the end of the stream
      have hrun := polls_after stillSockets_posesOnly (d.listener_starts me)
        (List.replicate (d.rounds.length + 1) {})
      rw [List.length_replicate] at hrun
      cases hrun with
      | reading k' hk' h' => exact absurd h'.within (by omega)
      | closed h' =>
        have hframes := hall Unit stillSockets (d.listener me) _ stillSockets_posesOnly (d.listener_starts me) h'.reported
        rw [h'.frames] at hframes
        have hlen := congrArg List.length (hfront.symm.trans hframes)
        rw [List.length_take, Nat.min_eq_left hle] at hlen
        exact ⟨h, hle, (hcount h hle).mp le_rfl, .inl hlen⟩
      | gone hj hs why =>
        obtain ⟨w, received, hpos, hlate⟩ := why hstay
        simp only [stillSockets] at hlate
        linarith
    · refine ⟨h, hle, (hcount h hle).mp le_rfl, .inr ?_⟩
      rw [← hfront]
      exact Bool.eq_false_of_not_eq_true hstay
  · rintro ⟨k, hk, hin, hdone⟩ σ rest c games hp hc hreported
    have hkh := (hcount k hk).mpr hin
    cases polls_after hp hc games with
    | reading k' hk' h' => exact absurd hreported h'.silent
    | closed h' =>
      rw [h'.frames, hfront]
      rcases hdone with rfl | hleft
      · rw [List.take_of_length_le hkh]
      · have hstay := h'.stayed
        rw [hfront, ← List.take_append_drop k (d.frames.take h), List.take_take, Nat.min_eq_left hkh, stays_append,
          hleft] at hstay
        cases hstay
    | gone hj hs why => exact absurd hreported hs

/-- A Bye that arrives one read before the close. -/
theorem handsAll_iff_byeThenClose :
    Delivery.HandsAll
      { frames := [(makeBye 2).encode], rounds := [[(makeBye 2).encode]], final := []
        whole := by
          intro frame hm
          rw [List.mem_singleton.mp hm]
          exact ⟨by decide, by decide, by decide⟩
        carried := by simp } 2 :=
  (handsAll_iff _ 2).mpr ⟨1, le_rfl, fun i hi => by
    obtain rfl : i = 0 := by omega
    exact ⟨by decide, by decide⟩, .inl rfl⟩

/-- The Bye of a kick that arrives together with the close. -/
def byeWithClose : Delivery where
  frames := [(makeBye 2).encode]
  rounds := []
  final := [(makeBye 2).encode]
  whole frame hm := by
    rw [List.mem_singleton.mp hm]
    exact ⟨by decide, by decide, by decide⟩
  carried := by simp

/-- It is never handled: the client only reports the connection closed. -/
theorem not_handsAll_byeWithClose : ¬ ∀ (d : Delivery) (me : UInt32), d.HandsAll me := by
  intro hall
  have hevents : (run (fun c game => netPoll (winSockets stillSockets) game c) (byeWithClose.listener 2) [{}]).events =
      [.closed] := by decide +kernel
  have hframes := hall byeWithClose 2 Unit stillSockets (byeWithClose.listener 2) [{}] stillSockets_posesOnly
    (byeWithClose.listener_starts 2) (by rw [hevents]; exact .inl (by simp))
  rw [hevents] at hframes
  exact absurd hframes (by decide)

end CommonwealthMP.Plugin
