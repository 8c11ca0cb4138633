import CommonwealthMP.ClientStream

/-! # What the calls of `cmp_net_tcp_recv_frame` return

On a stream of whole messages the client takes the first of them, however the bytes arrive and
whenever the connection ends, and all that have arrived when it asks often enough. -/
namespace CommonwealthMP.Plugin
open ByteLayout FrameStream

/-- The frames that this many calls of `cmp_net_tcp_recv_frame` return. -/
def recvFrames : ℕ → TcpStream → List Bytes
  | 0, _ => []
  | n + 1, t =>
    match t.recvFrame kPollBuffer with
    | (.frame buf, t') => buf :: recvFrames n t'
    | (_, t') => recvFrames n t'

def dataOf (answers : List Recv) : Bytes :=
  answers.flatMap fun
    | .data bytes => bytes
    | _ => []

def TcpStream.incoming (t : TcpStream) : Bytes := t.tcpRecv ++ t.arrivals.flatMap dataOf

theorem recvAll_would_block {answers : List Recv} {tcpRecv buf : Bytes} (h : recvAll tcpRecv answers = (buf, true)) :
    buf = tcpRecv ++ dataOf answers := by
  induction answers generalizing tcpRecv with
  | nil =>
    cases h
    simp [dataOf]
  | cons answer more ih =>
    cases answer with
    | data bytes =>
      rw [ih h]
      simp [dataOf]
    | ended => cases h
    | failed => cases h

/-- The socket has data for each call, and no end of the stream. -/
def OnlyData (answers : List Recv) : Prop := ∀ answer ∈ answers, ∃ bytes, answer = .data bytes

theorem recvAll_of_onlyData {answers : List Recv} (h : OnlyData answers) (tcpRecv : Bytes) : (recvAll tcpRecv answers).2 = true := by
  induction answers generalizing tcpRecv with
  | nil => rfl
  | cons answer more ih =>
    obtain ⟨bytes, rfl⟩ := h answer List.mem_cons_self
    exact ih (fun a hm => h a (List.mem_cons_of_mem _ hm)) _

theorem recvFrames_disconnected (n : ℕ) {t : TcpStream} (h : t.connected = false) : recvFrames n t = [] := by
  have hr : t.recvFrame kPollBuffer = (.nothing, t) := by rw [TcpStream.recvFrame, h]; rfl
  induction n with
  | zero => rfl
  | succ n ih =>
    rw [recvFrames, hr]
    exact ih

theorem recvFrame_cases (t : TcpStream) (h : t.connected = true) :
    (¬ OnlyData (t.arrivals.headD []) ∧ (t.recvFrame kPollBuffer).1 = .closed ∧
        (t.recvFrame kPollBuffer).2.connected = false) ∨
      ∃ buf, buf ++ t.arrivals.tail.flatMap dataOf = t.incoming ∧
        ((∃ rest, clientFrames.cut buf = (none, rest) ∧
            t.recvFrame kPollBuffer = (.nothing, ⟨true, rest, t.arrivals.tail⟩)) ∨
          ∃ frame rest, clientFrames.cut buf = (some frame, rest) ∧
            t.recvFrame kPollBuffer = (.frame frame, ⟨true, rest, t.arrivals.tail⟩)) := by
  have hopen : ¬ (!t.connected || decide (kPollBuffer < sizeofHeader)) = true := by
    simp [h, kPollBuffer, sizeofHeader]
  rw [TcpStream.recvFrame, if_neg hopen]
  cases hr : recvAll t.tcpRecv (t.arrivals.headD []) with
  | mk buf more =>
    cases more with
    | false =>
      refine .inl ⟨fun hdata => ?_, rfl, rfl⟩
      have hall := recvAll_of_onlyData hdata t.tcpRecv
      rw [hr] at hall
      cases hall
    | true =>
      have hbuf := recvAll_would_block hr
      refine .inr ⟨buf, ?_, ?_⟩
      · rw [hbuf, TcpStream.incoming]
        cases t.arrivals with
        | nil => simp [dataOf]
        | cons head later => simp [List.append_assoc]
      · dsimp only
        cases hcut : extractFrame kPollBuffer buf with
        | mk front rest =>
          cases front with
          | none => exact .inl ⟨rest, hcut, by rw [← h]⟩
          | some frame => exact .inr ⟨frame, rest, hcut, by rw [← h]⟩

/-- One call on a stream of whole frames: it finds an end of the stream, it waits because the buffer
ends inside the next frame, or it returns the next frame. -/
theorem recvFrame_stream {t : TcpStream} {frames : List Bytes} (hw : ∀ frame ∈ frames, WellFramed frame)
    (he : t.incoming <+: frames.flatten) (h : t.connected = true) :
    (¬ OnlyData (t.arrivals.headD []) ∧ (t.recvFrame kPollBuffer).1 = .closed ∧
        (t.recvFrame kPollBuffer).2.connected = false) ∨
      (∃ buf, t.recvFrame kPollBuffer = (.nothing, ⟨true, buf, t.arrivals.tail⟩) ∧ clientFrames.cut buf = (none, buf) ∧
        Short buf frames ∧ TcpStream.incoming ⟨true, buf, t.arrivals.tail⟩ = t.incoming) ∨
      ∃ frame rest buf, frames = frame :: rest ∧ t.recvFrame kPollBuffer = (.frame frame, ⟨true, buf, t.arrivals.tail⟩) ∧
        t.incoming = frame ++ TcpStream.incoming ⟨true, buf, t.arrivals.tail⟩ ∧
        TcpStream.incoming ⟨true, buf, t.arrivals.tail⟩ <+: rest.flatten := by
  refine (recvFrame_cases t h).imp id ?_
  rintro ⟨buf, hin, hcall⟩
  obtain ⟨tail, ht⟩ := he
  rw [← hin, List.append_assoc] at ht
  rcases Cutter.cut_stream (C := clientFrames) hw ht with ⟨hcut, hshort⟩ | ⟨frame, rest, buf', rfl, hcut, hbuf, hrest⟩
  · left
    rw [hcut] at hcall
    rcases hcall with ⟨left, hnone, hr⟩ | ⟨frame, left, hsome, -⟩
    · cases hnone
      exact ⟨buf, hr, hcut, hshort, hin⟩
    · cases hsome
  · right
    rw [hcut] at hcall
    rcases hcall with ⟨left, hnone, -⟩ | ⟨frame', left, hsome, hr⟩
    · cases hnone
    · cases hsome
      refine ⟨frame, rest, buf', rfl, hr, ?_, tail, ?_⟩
      · rw [← hin, hbuf, TcpStream.incoming, List.append_assoc]
      · rw [TcpStream.incoming, List.append_assoc]
        exact hrest

/-- On a stream of whole frames the calls return the first of them, whatever the socket answers. -/
theorem recvFrames_prefix (n : ℕ) {t : TcpStream} {frames : List Bytes} (hw : ∀ frame ∈ frames, WellFramed frame)
    (he : t.incoming <+: frames.flatten) : recvFrames n t <+: frames := by
  induction n generalizing t frames with
  | zero => exact List.nil_prefix
  | succ n ih =>
    cases h : t.connected with
    | false =>
      rw [recvFrames_disconnected _ h]
      exact List.nil_prefix
    | true =>
      rcases recvFrame_stream hw he h with ⟨-, hr, hclosed⟩ | ⟨buf, hr, -, -, hin⟩ | ⟨frame, rest, buf, rfl, hr, -, hrest⟩
      · have hcall : recvFrames (n + 1) t = recvFrames n (t.recvFrame kPollBuffer).2 := by
          rw [recvFrames]
          split
          · rename_i buf t' hf
            rw [hf] at hr
            cases hr
          · rename_i t' hf
            rw [hf]
        rw [hcall, recvFrames_disconnected _ hclosed]
        exact List.nil_prefix
      · rw [recvFrames, hr]
        exact ih hw (hin ▸ he)
      · rw [recvFrames, hr]
        exact (List.prefix_cons_inj frame).mpr (ih (fun f hm => hw f (List.mem_cons_of_mem _ hm)) hrest)

theorem recvFrames_stuck (n : ℕ) {buf : Bytes} (h : clientFrames.cut buf = (none, buf)) : recvFrames n ⟨true, buf, []⟩ = [] := by
  have hr : TcpStream.recvFrame kPollBuffer ⟨true, buf, []⟩ = (.nothing, ⟨true, buf, []⟩) := by
    rcases recvFrame_cases ⟨true, buf, []⟩ rfl with ⟨hdata, -⟩ | ⟨buf', hin, ⟨rest, hcut, hr⟩ | ⟨frame, rest, hcut, hr⟩⟩
    · exact absurd (fun _ hm => nomatch hm) hdata
    all_goals
      obtain rfl : buf' = buf := by simpa [TcpStream.incoming] using hin
      rw [h] at hcut
      cases hcut
    exact hr
  induction n with
  | zero => rfl
  | succ n ih =>
    rw [recvFrames, hr]
    exact ih

/-- Called often enough, they return every frame that has arrived whole. -/
theorem recvFrames_all (n : ℕ) {t : TcpStream} {frames : List Bytes} (hw : ∀ frame ∈ frames, WellFramed frame)
    (he : t.incoming <+: frames.flatten) (hopen : t.connected = true) (hdata : ∀ answers ∈ t.arrivals, OnlyData answers)
    (hn : t.arrivals.length + frames.length ≤ n) :
    ∃ rest left, frames = recvFrames n t ++ rest ∧ Short left rest ∧ (recvFrames n t).flatten ++ left = t.incoming := by
  induction n generalizing t frames with
  | zero =>
    obtain rfl : frames = [] := List.length_eq_zero_iff.mp (by omega)
    obtain ⟨tail, ht⟩ := he
    exact ⟨[], [], rfl, rfl, (List.append_eq_nil_iff.mp ht).1.symm⟩
  | succ n ih =>
    have hhead : OnlyData (t.arrivals.headD []) := by
      cases ha : t.arrivals with
      | nil => exact fun _ hm => nomatch hm
      | cons head later => exact hdata head (ha ▸ List.mem_cons_self)
    have htail : ∀ answers ∈ t.arrivals.tail, OnlyData answers := fun answers hm => hdata answers (List.mem_of_mem_tail hm)
    have hlater : t.arrivals.tail.length = t.arrivals.length - 1 := List.length_tail
    rcases recvFrame_stream hw he hopen with ⟨hends, -⟩ | ⟨buf, hr, hcut, hshort, hin⟩ | ⟨frame, rest, buf, rfl, hr, hin, hrest⟩
    · exact absurd hhead hends
    · rw [recvFrames, hr]
      dsimp only
      cases ha : t.arrivals.tail with
      | nil =>
        -- nothing more comes: the buffer ends inside the next frame
        rw [ha, TcpStream.incoming, List.flatMap_nil, List.append_nil] at hin
        rw [recvFrames_stuck n hcut]
        exact ⟨frames, buf, rfl, hshort, hin⟩
      | cons head later =>
        rw [ha, List.length_cons] at hlater
        rw [← hin, ← ha]
        exact ih hw (hin ▸ he) rfl htail (by dsimp only; rw [ha, List.length_cons]; omega)
    · rw [recvFrames, hr]
      dsimp only
      rw [List.length_cons] at hn
      obtain ⟨more, left, hframes, hshort, hflat⟩ :=
        ih (fun f hm => hw f (List.mem_cons_of_mem _ hm)) hrest rfl htail (by dsimp only; omega)
      refine ⟨more, left, by rw [List.cons_append, ← hframes], hshort, ?_⟩
      rw [List.flatten_cons, List.append_assoc, hflat, hin]

end CommonwealthMP.Plugin
