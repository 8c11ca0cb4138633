import CommonwealthMP.NetThread
import CommonwealthMP.StepRuns

/-! # What the client puts on its connection

The socket does not block: a `send` takes some of the bytes, would block, or fails. A message
that is cut short after its first bytes is reported as not sent, and the connection stays. -/
namespace CommonwealthMP
open ByteLayout StepRuns
namespace ClientSend

/-- The loop of `cmp_net_tcp_send`: the bytes taken, and whether it ends with all of them. A socket
that answers nothing more would block. -/
def sendAll (rest : Bytes) : List SendResult → Bytes × Bool
  | [] => ([], rest.isEmpty)
  | answer :: answers =>
    if rest = [] then ([], true)
    else
      match answer with
      | .sent n =>
        let (taken, whole) := sendAll (rest.drop (n + 1)) answers
        (rest.take (n + 1) ++ taken, whole)
      | .wouldBlock => ([], false)
      | .failed => ([], false)

/-- How many bytes the sends can take before one of them takes none. -/
def capacity : List SendResult → ℕ
  | [] => 0
  | .sent n :: answers => n + 1 + capacity answers
  | .wouldBlock :: _ => 0
  | .failed :: _ => 0

theorem sendAll_eq (rest : Bytes) (answers : List SendResult) :
    sendAll rest answers = (rest.take (capacity answers), decide (rest.length ≤ capacity answers)) := by
  induction answers generalizing rest with
  | nil =>
    cases rest with
    | nil => rfl
    | cons b rest => simp [sendAll, capacity]
  | cons answer answers ih =>
    by_cases hrest : rest = []
    · simp [sendAll, hrest]
    · cases answer with
      | sent n =>
        have htake : rest.take (n + 1) ++ (rest.drop (n + 1)).take (capacity answers) =
            rest.take (n + 1 + capacity answers) := List.take_add.symm
        have hlength : (rest.drop (n + 1)).length ≤ capacity answers ↔ rest.length ≤ n + 1 + capacity answers := by
          rw [List.length_drop]
          omega
        rw [sendAll, if_neg hrest]
        dsimp only
        rw [ih]
        exact Prod.ext htake (decide_eq_decide.mpr hlength)
      | wouldBlock => simp [sendAll, capacity, hrest]
      | failed => simp [sendAll, capacity, hrest]

/-- The connection of `g_tcp`: the bytes on its wire, and the messages for which `cmp_net_tcp_send`
returned 1. -/
structure Connection where
  connected : Bool := true
  wire : Bytes := []
  sent : List Bytes := []

/-- `cmp_net_tcp_send`, and what it returns. -/
def tcpSend (s : Connection) (data : Bytes) (answers : List SendResult) : Connection × Bool :=
  if s.connected = false ∨ data = [] then (s, false)
  else
    match sendAll data answers with
    | (taken, true) => ({ s with wire := s.wire ++ taken, sent := s.sent ++ [data] }, true)
    | (taken, false) => ({ s with wire := s.wire ++ taken }, false)

inductive Call
  | tcpSend (data : Bytes) (answers : List SendResult)
  /-- `closesocket`, wherever it is called -/
  | close

def step (s : Connection) : Call → Connection
  | .tcpSend data answers => (tcpSend s data answers).1
  | .close => { s with connected := false }

/-- As long as the connection is open its wire carries whole messages, those reported as sent. -/
def Framed (s : Connection) : Prop := s.connected = true → s.wire = s.sent.flatten

/-- A call that returns 0 has put nothing on the wire, or the connection is closed. -/
def ZeroIsNothing (s : Connection) : Call → Prop
  | .tcpSend data answers =>
    (tcpSend s data answers).2 = false →
      (tcpSend s data answers).1.wire = s.wire ∨ (tcpSend s data answers).1.connected = false
  | .close => True

/-- The sends of a call on an open connection take the whole message or nothing. -/
def Untorn (s : Connection) : Call → Prop
  | .tcpSend data answers => s.connected = true → capacity answers = 0 ∨ data.length ≤ capacity answers
  | .close => True

theorem tcpSend_whole {s : Connection} {data : Bytes} {answers : List SendResult} (hs : s.connected = true) (hd : data ≠ [])
    (h : data.length ≤ capacity answers) :
    tcpSend s data answers = ({ s with wire := s.wire ++ data, sent := s.sent ++ [data] }, true) := by
  rw [tcpSend, if_neg (by simp [hs, hd]), sendAll_eq, decide_eq_true h, List.take_of_length_le h]

theorem tcpSend_torn {s : Connection} {data : Bytes} {answers : List SendResult} (hs : s.connected = true) (hd : data ≠ [])
    (h : ¬ data.length ≤ capacity answers) :
    tcpSend s data answers = ({ s with wire := s.wire ++ data.take (capacity answers) }, false) := by
  rw [tcpSend, if_neg (by simp [hs, hd]), sendAll_eq, decide_eq_false h]

theorem tcpSend_unsent {s : Connection} {data : Bytes} (answers : List SendResult) (h : s.connected = false ∨ data = []) :
    tcpSend s data answers = (s, false) := if_pos h

/-- A call whose sends take the whole message or nothing keeps the framing. -/
theorem framed_step {s : Connection} {c : Call} (h : Framed s) (hu : Untorn s c) :
    Framed (step s c) ∧ ZeroIsNothing s c := by
  cases c with
  | close => exact ⟨nofun, trivial⟩
  | tcpSend data answers =>
    show Framed (tcpSend s data answers).1 ∧ ((tcpSend s data answers).2 = false →
      (tcpSend s data answers).1.wire = s.wire ∨ (tcpSend s data answers).1.connected = false)
    by_cases hidle : s.connected = false ∨ data = []
    · rw [tcpSend_unsent answers hidle]
      exact ⟨h, fun _ => .inl rfl⟩
    · obtain ⟨hs, hd⟩ : s.connected = true ∧ data ≠ [] := by simpa using hidle
      by_cases hwhole : data.length ≤ capacity answers
      · rw [tcpSend_whole hs hd hwhole]
        refine ⟨fun _ => ?_, nofun⟩
        simp [h hs]
      · have hzero : capacity answers = 0 := (hu hs).resolve_right hwhole
        rw [tcpSend_torn hs hd hwhole, hzero, List.take_zero, List.append_nil]
        exact ⟨h, fun _ => .inl rfl⟩

theorem untorn_of_zeroIsNothing {s : Connection} {c : Call} (h : ZeroIsNothing s c) : Untorn s c := by
  cases c with
  | close => trivial
  | tcpSend data answers =>
    intro hs
    by_contra htorn
    obtain ⟨hpos, hshort⟩ : capacity answers ≠ 0 ∧ ¬ data.length ≤ capacity answers := not_or.mp htorn
    have hd : data ≠ [] := by
      rintro rfl
      exact hshort (Nat.zero_le _)
    have hzero : (tcpSend s data answers).2 = false →
      (tcpSend s data answers).1.wire = s.wire ∨ (tcpSend s data answers).1.connected = false := h
    rw [tcpSend_torn hs hd hshort] at hzero
    rcases hzero rfl with hwire | hclosed
    · have hnil := List.append_right_eq_self.mp hwire
      rw [List.take_eq_nil_iff] at hnil
      exact hnil.elim hpos hd
    · rw [hs] at hclosed
      cases hclosed

/-- On a new connection, whatever is sent: the wire carries whole messages after every call, and no
call that returns 0 puts a byte on an open connection, exactly if no message is torn. -/
theorem framed_iff (cs : List Call) :
    AllSteps step (fun s c => Framed (step s c) ∧ ZeroIsNothing s c) {} cs ↔ AllSteps step Untorn {} cs := by
  constructor
  · exact AllSteps.imp fun s c h => untorn_of_zeroIsNothing h.2
  · intro h
    have hstart : Framed {} := fun _ => rfl
    generalize ({} : Connection) = s at h hstart
    induction cs generalizing s with
    | nil => trivial
    | cons c cs ih =>
      have hstep := framed_step hstart h.1
      exact ⟨hstep, ih _ h.2 hstep.1⟩

/-- A Bye is cut after its first four bytes, and the next message follows on the same connection. -/
def tornMessage : List Call :=
  [.tcpSend (makeBye 1).encode [.sent 3, .wouldBlock], .tcpSend (makeBye 2).encode [.sent 99]]

theorem not_framed_tornMessage :
    ¬ AllSteps step (fun s c => Framed (step s c) ∧ ZeroIsNothing s c) {} tornMessage ∧
      (run step {} tornMessage).connected = true ∧
      (run step {} tornMessage).wire = (makeBye 1).encode.take 4 ++ (makeBye 2).encode ∧
      (run step {} tornMessage).sent = [(makeBye 2).encode] := by
  refine ⟨fun h => ?_, rfl, by decide, by decide⟩
  have hwire := h.2.1.1 rfl
  revert hwire
  decide

end ClientSend
end CommonwealthMP
