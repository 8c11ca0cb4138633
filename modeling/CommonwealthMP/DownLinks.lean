import CommonwealthMP.ClientReads
import CommonwealthMP.PoseOrigins
import CommonwealthMP.ReliableChannel

/-! # The link from the server to a client

Whatever the queues refuse and however the bytes are cut, what the client takes off its
connection are whole messages of the simulation, in the order it sent them. -/
namespace CommonwealthMP
open ByteLayout Binary32 FrameStream OrderedTables SessionTable StepRuns

/-- Every message the server sends is a whole one, of a type that belongs on its channel. -/
theorem ServerRuntime.Mail.whole {s : ServerRuntime} (hp : Posed s) {i : Env × Input} {cmd : OutboundCmd} (h : Mail s i cmd) :
    (cmd.kind = .TcpSend → ∃ type, msgIsTcp type = true ∧ WholeMessage type cmd.bytes) ∧
      (cmd.kind = .UdpSend → ∃ type, msgIsUdp type = true ∧ WholeMessage type cmd.bytes) := by
  cases h with
  | own h =>
    refine ⟨fun hk => ?_, fun hk => absurd hk h.notUdp⟩
    obtain ⟨type, hm, hw⟩ := h.tcp hk
    have htcp : ∀ type ∈ ownTypes, msgIsTcp type = true := by decide
    exact ⟨type, htcp type hm, hw⟩
  | greeting q c hl hk hb =>
    refine ⟨fun ht => absurd (hk.symm.trans ht) (by decide), fun _ => ⟨.PlayerPose, rfl, ?_⟩⟩
    rw [hb]
    exact whole_playerPose (hp.header q c hl)
  | console cmdLine text q c hi hsay hl hc =>
    rw [hc]
    exact ⟨fun _ => ⟨.Chat, rfl, whole_makeChat 0 text⟩, by simp [toTcp]⟩
  | relayed ev t p client header type q c data hs ho hl h hc =>
    rw [hc]
    refine ⟨fun _ => ⟨type, ?_, h.whole ho⟩, by simp [toTcp]⟩
    cases h <;> rfl
  | pose ev t p client header q c hs ho hr hl hq hc =>
    rw [hc]
    exact ⟨(by simp [toUdp]), fun _ => ⟨.PlayerPose, rfl, whole_playerPose rfl⟩⟩
  | actor ev t p client header q c hs ho hl hq hp hc =>
    rw [hc]
    exact ⟨(by simp [toUdp]), fun _ => ⟨.ActorPose, rfl, .of_fill (by decide) (by simp [f32])⟩⟩

namespace Threads
open ServerRuntime (framesTo mem_framesTo)

theorem issued_cases (s : Threads) (a : Action) : (issued s a = [] ∧ (s.step a).sim = s.sim) ∨
    ∃ i, issued s a = (s.sim.step i).outbound ∧ (s.step a).sim = s.sim.step i := by
  have hm := step_moves s a
  have silent : (s.step a).todo = s.todo ∨ s.todo ≠ [] → issued s a = [] := issued_eq_nil
  have handled : s.todo = [] → issued s a = (s.step a).todo := fun htodo => if_pos htodo
  generalize s.step a = s' at hm silent handled ⊢
  cases hm with
  | consumed env t ev inbound htodo hin => exact .inr ⟨(env, .inbound ev t), handled htodo, rfl⟩
  | housed env i htodo hi => exact .inr ⟨(env, i), handled htodo, rfl⟩
  | pushed cmd rest outbound htodo hp => exact .inl ⟨silent (.inr (by rw [htodo]; nofun)), rfl⟩
  | refused cmd rest htodo hp => exact .inl ⟨silent (.inr (by rw [htodo]; nofun)), rfl⟩
  | _ => exact .inl ⟨silent (.inl rfl), rfl⟩

section Runs
variable (b : ServerRuntime.Startup) (inboundMax outboundMax : ℕ) (as : List Action)

theorem run_posed : ServerRuntime.WellFormed (run step (start b inboundMax outboundMax) as).sim ∧
    ServerRuntime.Posed (run step (start b inboundMax outboundMax) as).sim := by
  induction as using List.reverseRecOn with
  | nil => exact ⟨ServerRuntime.wellFormed_initial b, ServerRuntime.posed_initial b⟩
  | append_singleton as a ih =>
    rw [run_concat]
    rcases issued_cases (run step (start b inboundMax outboundMax) as) a with ⟨-, hsim⟩ | ⟨i, -, hsim⟩
    · rw [hsim]
      exact ih
    · rw [hsim]
      exact ⟨ih.1.step i, ih.2.step ih.1 i⟩

/-- Every TCP message of the simulation is a whole one. -/
theorem sent_whole {cmd : OutboundCmd} (hm : cmd ∈ sentIn (start b inboundMax outboundMax) as) (hk : cmd.kind = .TcpSend) :
    ∃ type, msgIsTcp type = true ∧ WholeMessage type cmd.bytes := by
  induction as using List.reverseRecOn with
  | nil => cases hm
  | append_singleton as a ih =>
    rw [sentIn, collect_concat] at hm
    rcases List.mem_append.mp hm with hm | hm
    · exact ih hm
    · obtain ⟨hw, hp⟩ := run_posed b inboundMax outboundMax as
      rcases issued_cases (run step (start b inboundMax outboundMax) as) a with ⟨he, -⟩ | ⟨i, he, -⟩
      · rw [he] at hm
        cases hm
      · rw [he] at hm
        exact ((ServerRuntime.step_mail hw i hm).whole hp).1 hk

end Runs

/-- The calls of a client that is to read `arrivals` return messages of `frames`, the first of them and whole. -/
structure Delivers (frames : List Bytes) (arrivals : List (List Plugin.Recv)) (n : ℕ) : Prop where
  first : Plugin.recvFrames n ⟨true, [], arrivals⟩ <+: frames
  whole : ∀ frame ∈ frames, ∃ type, msgIsTcp type = true ∧ WholeMessage type frame
  all : (∀ answers ∈ arrivals, Plugin.OnlyData answers) → arrivals.length + frames.length ≤ n →
    ∃ rest left, frames = Plugin.recvFrames n ⟨true, [], arrivals⟩ ++ rest ∧ Short left rest ∧
      (Plugin.recvFrames n ⟨true, [], arrivals⟩).flatten ++ left = arrivals.flatMap Plugin.dataOf

/-- Whatever the queues refuse, whatever the sockets answer and however the bytes arrive: what the
client takes off an open connection are messages that the simulation sent to it, in that order and
none twice, each one whole and accepted by `header_ok`; and it takes all that have arrived, when it
asks often enough. -/
theorem down_link (b : ServerRuntime.Startup) (inboundMax outboundMax : ℕ) (as : List Action) (c : ConnId) (conn : NetConn)
    (hopen : (run step (start b inboundMax outboundMax) as).net.conns.lookup c = some conn)
    (arrivals : List (List Plugin.Recv)) (ha : arrivals.flatMap Plugin.dataOf <+: conn.wire) (n : ℕ) :
    ∃ frames, frames.Sublist (framesTo c (sentIn (start b inboundMax outboundMax) as)) ∧ Delivers frames arrivals n := by
  have hloss : AllSteps step (fun s a => stalls c s a = true → Drops List.Sublist) (start b inboundMax outboundMax) as :=
    allSteps_of_forall fun _ _ _ => drops_sublist
  obtain ⟨frames, hcarried, hsub⟩ := (run_outgoing keeps_sublist b inboundMax outboundMax c hloss).taken conn hopen
  have hkept : frames.Sublist (framesTo c (sentIn (start b inboundMax outboundMax) as)) :=
    (List.sublist_append_left frames _).trans hsub
  have hwhole : ∀ frame ∈ frames, ∃ type, msgIsTcp type = true ∧ WholeMessage type frame := by
    intro frame hm
    obtain ⟨cmd, hcmd, hk, -, rfl⟩ := mem_framesTo.mp (hkept.subset hm)
    exact sent_whole b inboundMax outboundMax as hcmd hk
  have hframed : ∀ frame ∈ frames, WellFramed frame := fun frame hm => by
    obtain ⟨type, -, hw⟩ := hwhole frame hm
    exact hw.wellFramed
  have hin : Plugin.TcpStream.incoming ⟨true, [], arrivals⟩ <+: frames.flatten := by
    rw [← hcarried]
    exact ha.trans (List.prefix_append _ _)
  refine ⟨frames, hkept, Plugin.recvFrames_prefix n hframed hin, hwhole, fun hdata hn => ?_⟩
  exact Plugin.recvFrames_all n hframed hin rfl hdata hn

/-- The Welcome and the world of a new client, read in two pieces. -/
theorem down_link_joinAndDrain : ∃ conn, (run step (start ServerRuntime.freshStart 8192 8192) joinAndDrain).net.conns.lookup 1 = some conn ∧
    conn.wire.length = 94 ∧
    ∃ frames, frames.Sublist (framesTo 1 (sentIn (start ServerRuntime.freshStart 8192 8192) joinAndDrain)) ∧
      Delivers frames [[.data (conn.wire.take 5)], [.data (conn.wire.drop 5)]] 4 := by
  have hlength : ((run step (start ServerRuntime.freshStart 8192 8192) joinAndDrain).net.conns.lookup 1).map (·.wire.length) =
      some 94 := by decide +kernel
  obtain ⟨conn, hopen, hwire⟩ := Option.map_eq_some_iff.mp hlength
  refine ⟨conn, hopen, hwire, down_link ServerRuntime.freshStart 8192 8192 joinAndDrain 1 conn hopen _ ?_ 4⟩
  simp [Plugin.dataOf]

end Threads
end CommonwealthMP
