import CommonwealthMP.NetThread
import CommonwealthMP.StepRuns

/-! # The send queue as a stream

Appends and drains in any order, whatever the socket answers: what it has been handed and what
is pending are the accepted messages end to end. -/
namespace CommonwealthMP
open ByteLayout StepRuns

inductive QueueCall
  | append (data : Bytes)
  | drain (valid : Bool) (answers : List SendResult)

/-- A queue with the bytes its socket took and the messages its `append` accepted. -/
structure SendStream where
  queue : TcpSendQueue := {}
  handed : Bytes := []
  accepted : List Bytes := []

/-- A drain of the invalid socket returns at once. -/
def SendStream.call (s : SendStream) : QueueCall → SendStream
  | .append data =>
    match s.queue.append data with
    | some queue => { s with queue := queue, accepted := s.accepted ++ [data] }
    | none => s
  | .drain valid answers =>
    if valid then { s with queue := (s.queue.drain answers).1, handed := s.handed ++ (s.queue.drain answers).2.1 } else s

namespace TcpSendQueue

theorem pending_eq (q : TcpSendQueue) : q.pending = q.unsent.length := by
  rw [pending, unsent, List.length_drop]
  split
  · rename_i h
    have hle := of_decide_eq_true h
    omega
  · rfl

theorem append_eq_none {q : TcpSendQueue} {data : Bytes} (h : data ≠ []) :
    q.append data = none ↔ kTcpSendQueueMax < q.pending + data.length := by
  rw [append, if_neg h]
  split
  · rename_i hlong
    exact iff_of_true rfl hlong
  · rename_i hfits
    exact iff_of_false (by simp) hfits

theorem append_pending_le {q q' : TcpSendQueue} {data : Bytes} (h : q.append data = some q') : q'.pending ≤ kTcpSendQueueMax := by
  have hdata : data ≠ [] := by
    rintro rfl
    cases h
  have hfits : ¬ kTcpSendQueueMax < q.pending + data.length := by
    rw [← append_eq_none hdata, h]
    simp
  have hpending := q.pending_eq
  rw [pending_eq, append_unsent h, List.length_append]
  omega

theorem drain_pending_le (q : TcpSendQueue) (answers : List SendResult) : (q.drain answers).1.pending ≤ q.pending := by
  have h := congrArg List.length (q.drain_unsent answers)
  rw [List.length_append] at h
  rw [pending_eq, pending_eq]
  omega

end TcpSendQueue

namespace SendStream

/-- Nothing accepted is lost, doubled or out of order, and the queue stays within its bound. -/
structure Faithful (s : SendStream) : Prop where
  bytes : s.handed ++ s.queue.unsent = s.accepted.flatten
  pending_le : s.queue.pending ≤ kTcpSendQueueMax

theorem faithful_call {s : SendStream} (h : s.Faithful) (c : QueueCall) : (s.call c).Faithful := by
  cases c with
  | append data =>
    rw [call]
    split
    · rename_i queue hq
      refine ⟨?_, TcpSendQueue.append_pending_le hq⟩
      rw [TcpSendQueue.append_unsent hq, ← List.append_assoc, h.bytes, List.flatten_append, List.flatten_singleton]
    · exact h
  | drain valid answers =>
    rw [call]
    split
    · refine ⟨?_, (s.queue.drain_pending_le answers).trans h.pending_le⟩
      rw [List.append_assoc, s.queue.drain_unsent answers, h.bytes]
    · exact h

theorem faithful_run (calls : List QueueCall) : (run call {} calls).Faithful := by
  have hall : AllSteps call (fun _ _ => True) {} calls := allSteps_iff_split.mpr fun _ _ _ _ => trivial
  exact run_invariant (fun s c hs _ => faithful_call hs c) ⟨rfl, Nat.zero_le _⟩ hall

end SendStream

/-- After any calls, the bytes handed to the socket and the pending ones are the messages whose
`append` returned true, `pending` is within its bound, and the next message is refused exactly
when it would not fit, which changes nothing. -/
theorem tcpSendQueue_stream (calls : List QueueCall) :
    (run SendStream.call {} calls).handed ++ (run SendStream.call {} calls).queue.unsent =
        (run SendStream.call {} calls).accepted.flatten ∧
      (run SendStream.call {} calls).queue.pending = (run SendStream.call {} calls).queue.unsent.length ∧
      (run SendStream.call {} calls).queue.pending ≤ kTcpSendQueueMax ∧
      ∀ data, data ≠ [] →
        ((run SendStream.call {} calls).queue.append data = none ↔
          kTcpSendQueueMax < (run SendStream.call {} calls).queue.pending + data.length) ∧
        ((run SendStream.call {} calls).queue.append data = none →
          (run SendStream.call {} calls).call (.append data) = run SendStream.call {} calls) := by
  have h := SendStream.faithful_run calls
  refine ⟨h.bytes, TcpSendQueue.pending_eq _, h.pending_le, fun data hdata => ⟨TcpSendQueue.append_eq_none hdata, ?_⟩⟩
  intro hnone
  rw [SendStream.call, hnone]

end CommonwealthMP
