import CommonwealthMP.EmptiedSession
import CommonwealthMP.GhostTables

/-! # The verdict of a session query

The client asks for a `SessionInfo` before it joins and tells from it whether a require-host join
would find a host. The server decides the same when the Hello arrives. -/
namespace CommonwealthMP
open ByteLayout Binary32 OrderedTables SessionTable ServerRuntime
namespace QueryVerdict

structure SessionQueryResult where
  ok : Bool := false
  info : SessionInfo
  error : Bytes := []
  deriving DecidableEq

/-- The zeroed `SessionInfo`. -/
def blankInfo : SessionInfo := SessionInfo.decode (List.replicate sizeofSessionInfo 0)

/-- The statics of `query.cpp`, what the query writes to the presence, and the client. -/
structure QueryClient (σ : Type) where
  queryPending : Bool := false
  queryStart : Time := 0
  queryResult : SessionQueryResult := { info := blankInfo }
  presenceServerName : Bytes := []
  presenceMaxPlayers : UInt32 := 0
  client : Plugin.Client σ

section Client
variable {σ : Type} (S : Plugin.Sockets σ)

def queryStart (q : QueryClient σ) : QueryClient σ :=
  let c := if q.client.session.net.joined then Plugin.leave S q.client
    else { q.client with sockets := S.shutdown q.client.sockets }
  let failed (error : Bytes) (sockets : σ) : QueryClient σ :=
    { q with
      queryPending := false
      queryResult := { info := blankInfo, error := error }
      client := { c with sockets := sockets } }
  match S.startup c.sockets with
  | (false, sockets) => failed (ascii "net startup failed") sockets
  | (true, sockets) =>
    match S.tcpConnect sockets with
    | (false, sockets) => failed (ascii "tcp connect failed (bad host?)") (S.shutdown sockets)
    | (true, sockets) =>
      match S.tcpSend makeSessionQuery.encode sockets with
      | (false, sockets) => failed (ascii "send query failed") (S.shutdown sockets)
      | (true, sockets) =>
        { q with
          queryPending := true
          queryStart := S.nowSec sockets
          queryResult := { info := blankInfo }
          client := { c with sockets := sockets } }

/-- The loop over the received frames: the `SessionInfo` it stops at, and the network after it. -/
def queryFrames : ℕ → σ → Option Bytes × σ
  | 0, sockets => (none, sockets)
  | turns + 1, sockets =>
    match S.tcpRecvFrame sockets with
    | (.frame buf, sockets) =>
      if buf.length < sizeofHeader then (none, sockets)
      else
        match headerOk (Header.decode buf) buf.length with
        | none => queryFrames turns sockets
        | some type =>
          if type = .SessionInfo ∧ sizeofSessionInfo ≤ buf.length then (some buf, sockets) else queryFrames turns sockets
    | (_, sockets) => (none, sockets)

/-- The received `SessionInfo` with its character arrays terminated. -/
def readInfo (buf : Bytes) : SessionInfo :=
  let info := SessionInfo.decode buf
  { info with serverName := info.serverName.set 31 0, motd := info.motd.set 63 0 }

def judge (info : SessionInfo) : SessionQueryResult :=
  if info.haveHost = 0 then { ok := false, info := info, error := ascii "no live host on that server" }
  else if info.hostInterior ≠ 0 ∨ info.hostLocationFormId ≠ kCommonwealthWorldspace then
    { ok := false, info := info, error := ascii "host is not Commonwealth exterior" }
  else { ok := true, info := info }

/-- `CMP_QueryPoll`: what it returns, its `out` and the client after it. -/
def queryPoll (out : SessionQueryResult) (q : QueryClient σ) : Bool × SessionQueryResult × QueryClient σ :=
  if !q.queryPending then
    if q.queryResult.error ≠ [] ∨ q.queryResult.ok = true then (true, q.queryResult, q)
    else (true, { out with error := ascii "no query" }, q)
  else
    match queryFrames S 8 q.client.sockets with
    | (some buf, sockets) =>
      let result := judge (readInfo buf)
      (true, result, { q with
        queryPending := false
        queryResult := result
        presenceServerName := cString result.info.serverName
        presenceMaxPlayers := result.info.maxPlayers
        client := { q.client with sockets := S.shutdown sockets } })
    | (none, sockets) =>
      let q := { q with client := { q.client with sockets := sockets } }
      if 2 < S.nowSec sockets - q.queryStart then
        let result := { q.queryResult with
          ok := false, error := ascii "server timeout (need matching protocol server)" }
        (true, result, { q with
          queryPending := false, queryResult := result, client := { q.client with sockets := S.shutdown sockets } })
      else (false, out, q)

variable {S}

/-- A query that is not under way after its start has failed, and the next poll says so. -/
theorem queryStart_failed {q : QueryClient σ} (h : (queryStart S q).queryPending = false) (out : SessionQueryResult) :
    (queryStart S q).queryResult.ok = false ∧
      queryPoll S out (queryStart S q) = (true, (queryStart S q).queryResult, queryStart S q) := by
  have herror : (queryStart S q).queryResult.ok = false ∧ (queryStart S q).queryResult.error ≠ [] := by
    unfold queryStart at h ⊢
    dsimp only at h ⊢
    split
    · exact ⟨rfl, show ascii "net startup failed" ≠ [] by decide⟩
    · rename_i hstarted
      rw [hstarted] at h
      dsimp only at h
      split
      · exact ⟨rfl, show ascii "tcp connect failed (bad host?)" ≠ [] by decide⟩
      · rename_i hconnected
        rw [hconnected] at h
        dsimp only at h
        split
        · exact ⟨rfl, show ascii "send query failed" ≠ [] by decide⟩
        · rename_i hsent
          rw [hsent] at h
          cases h
  refine ⟨herror.1, ?_⟩
  unfold queryPoll
  rw [h, if_pos (show (!false) = true from rfl), if_pos (.inl herror.2)]

theorem queryPoll_of_frames {out : SessionQueryResult} {q : QueryClient σ} {buf : Bytes} {sockets : σ} (hp : q.queryPending = true)
    (hf : queryFrames S 8 q.client.sockets = (some buf, sockets)) :
    (queryPoll S out q).1 = true ∧ (queryPoll S out q).2.1 = judge (readInfo buf) := by
  unfold queryPoll
  rw [hp, hf]
  exact ⟨rfl, rfl⟩

theorem queryFrames_info {turns : ℕ} {sockets sockets' : σ} {buf : Bytes}
    (hr : S.tcpRecvFrame sockets = (.frame buf, sockets'))
    (hok : headerOk (Header.decode buf) buf.length = some .SessionInfo) :
    queryFrames S (turns + 1) sockets = (some buf, sockets') := by
  have hlong : sizeofSessionInfo ≤ buf.length := headerOk_length hok fun size hs => of_decide_eq_true hs
  have hheader : ¬ buf.length < sizeofHeader := by
    rw [sizeofSessionInfo] at hlong
    rw [sizeofHeader]
    omega
  rw [queryFrames, hr]
  dsimp only
  rw [if_neg hheader, hok]
  exact if_pos ⟨rfl, hlong⟩

theorem judge_ok (info : SessionInfo) : (judge info).ok = true ↔
    info.haveHost ≠ 0 ∧ info.hostInterior = 0 ∧ info.hostLocationFormId = kCommonwealthWorldspace := by
  unfold judge
  by_cases hh : info.haveHost = 0
  · simp [hh]
  · by_cases hp : info.hostInterior ≠ 0 ∨ info.hostLocationFormId ≠ kCommonwealthWorldspace
    · rw [if_neg hh, if_pos hp]
      simp only [Bool.false_eq_true, false_iff]
      tauto
    · rw [if_neg hh, if_neg hp]
      simp only [true_iff]
      tauto

end Client

def sessionInfo (s : ServerRuntime) : SessionInfo :=
  let (host, world) := findHost s.clients s.world
  let haveHost := (host.any fun h => h.havePose) && world.hostPeerId != 0
  let hostInterior := haveHost && world.hostLocation != 0 && world.hostLocation != kCommonwealthWorldspace
  makeSessionInfo (if haveHost then world.hostPeerId else 0) (if haveHost then world.hostLocation else 0)
    (if haveHost then world.hostX else ⟨0⟩) (if haveHost then world.hostY else ⟨0⟩) (if haveHost then world.hostZ else ⟨0⟩)
    (UInt32.ofNat s.clients.size) haveHost hostInterior s.cfg.name (UInt32.ofInt s.cfg.maxPlayers) s.cfg.motd
    (buildSessionFlags s.cfg)

theorem SessionInfo.length_makeSessionInfo (a b : UInt32) (x y z : F32) (n : UInt32) (h i : Bool) (name : Bytes)
    (m : UInt32) (motd : Bytes) (f : UInt32) :
    (makeSessionInfo a b x y z n h i name m motd f).encode.length = sizeofSessionInfo := by
  simp [makeSessionInfo, SessionInfo.encode, f32, sizeofSessionInfo]

theorem headerOk_sessionInfo (s : ServerRuntime) :
    headerOk (Header.decode (sessionInfo s).encode) (sessionInfo s).encode.length = some .SessionInfo := by
  have hlength : (sessionInfo s).encode.length = 142 := SessionInfo.length_makeSessionInfo ..
  have hheader : Header.decode (sessionInfo s).encode = fillHeader .SessionInfo 142 := by
    rw [SessionInfo.encode, Header.decode_encode_append]
    rfl
  rw [hlength, hheader]
  exact headerOk_fill rfl (by decide) (by decide)

theorem SessionInfo.decode_encode (m : SessionInfo) (hn : m.serverName.length = 32) (hm : m.motd.length = 64) :
    SessionInfo.decode m.encode = m := by
  have hname : ∀ rest, slice (m.serverName ++ rest) 0 32 = m.serverName := fun rest => slice_front hn
  have hmotd : slice m.motd 0 64 = m.motd := slice_all hm
  simp [SessionInfo.decode, SessionInfo.encode, Header.decode_encode_append, f32, f32At, u32At_skip, u8At_skip,
    slice_skip, hn, hname, hmotd]

/-- A live client is host, its pose is known, and it is in the Commonwealth. -/
structure HostShown (s : ServerRuntime) : Prop where
  host : ∃ host, s.clients.lookup s.world.hostPeerId = some host ∧ host.havePose = true
  hostPeerId : s.world.hostPeerId ≠ 0
  hostLocation : s.world.hostLocation = kCommonwealthWorldspace

section Answer
variable {s : ServerRuntime}

/-- The host that `find_host` finds is the client under the host's id. -/
theorem findHost_lookup (hw : WellFormed s) : (findHost s.clients s.world).1 = s.clients.lookup s.world.hostPeerId := by
  cases hl : s.clients.lookup s.world.hostPeerId with
  | some host =>
    obtain ⟨found, hm, hid, hf⟩ := findHost_of_live (Table.lookup_mem_values hl) (hw.keyed _ _ hl)
    have hfound := hw.keyed.lookup hm
    rw [hid, hl] at hfound
    rw [hf, hfound]
  | none =>
    by_cases hv : s.clients.values = []
    · rw [findHost_of_empty _ hv]
    · obtain ⟨c, hc⟩ := List.exists_mem_of_ne_nil _ hv
      have hlive := hw.ok.host_live (liveOf_some (hw.keyed.lookup hc))
      exact absurd (liveOf_eq_none.mpr hl) hlive

theorem hostShown_iff (hw : WellFormed s) : HostShown s ↔
    ((findHost s.clients s.world).1.any fun h => h.havePose) = true ∧ s.world.hostPeerId ≠ 0 ∧
      s.world.hostLocation = kCommonwealthWorldspace := by
  rw [findHost_lookup hw]
  constructor
  · rintro ⟨⟨host, hl, hp⟩, hid, hloc⟩
    rw [hl]
    exact ⟨hp, hid, hloc⟩
  · rintro ⟨hany, hid, hloc⟩
    refine ⟨?_, hid, hloc⟩
    cases hl : s.clients.lookup s.world.hostPeerId with
    | none =>
      rw [hl] at hany
      cases hany
    | some host =>
      rw [hl] at hany
      exact ⟨host, rfl, hany⟩

theorem hostGate_eq_none_iff (hw : WellFormed s) : (hostGate s).2 = none ↔ HostShown s := by
  have hworld := findHost_of_ok hw.keyed hw.ok
  rw [hostShown_iff hw]
  unfold hostGate
  dsimp only
  rw [hworld]
  cases (findHost s.clients s.world).1 with
  | none => simp
  | some host => cases hp : host.havePose <;> by_cases hid : s.world.hostPeerId = 0 <;> simp [hp, hid]

theorem hostGate_eq_some {reason : RejectReason} {text : Bytes} (h : (hostGate s).2 = some (reason, text)) :
    reason = .NoHost ∨ reason = .HostNotStreaming := by
  unfold hostGate at h
  dsimp only at h
  split at h
  · cases h
    exact .inl rfl
  · split at h
    · cases h
      exact .inr rfl
    · cases h

/-- The client's verdict on the answer is whether a host is shown. -/
theorem judge_sessionInfo (hw : WellFormed s) : (judge (readInfo (sessionInfo s).encode)).ok = true ↔ HostShown s := by
  have hworld := findHost_of_ok hw.keyed hw.ok
  rw [judge_ok, hostShown_iff hw, readInfo, SessionInfo.decode_encode _ (charArray_length 32 _) (charArray_length 64 _)]
  unfold sessionInfo makeSessionInfo
  dsimp only
  rw [hworld]
  cases (findHost s.clients s.world).1 with
  | none => simp [boolByte]
  | some host =>
    cases hp : host.havePose
    · simp [boolByte, hp]
    · by_cases hid : s.world.hostPeerId = 0
      · simp [boolByte, hid]
      · by_cases hloc : s.world.hostLocation = kCommonwealthWorldspace <;> simp [boolByte, hp, hid, hloc]

/-- An answered query leaves the answer in the log of commands, and nothing else. -/
theorem answerQuery_sends (hw : WellFormed s) (asker : PendingTcp) : answerQuery s asker =
    { s with outbound := s.outbound ++ sendTcpConn asker.connId (sessionInfo s).encode } := by
  have hworld := findHost_of_ok hw.keyed hw.ok
  unfold answerQuery queue sessionInfo
  dsimp only
  rw [hworld]

/-- A query changes its rate bucket, and sends the answer unless the bucket is full. -/
theorem handlePendingMessage_query (env : Env) (hw : WellFormed s) (asker : PendingTcp) {buf : Bytes} {header : Header}
    (hf : openFrame buf = some (header, .SessionQuery)) (t : Time) :
    handlePendingMessage env s asker buf t =
      let (ok, rates) := allowRate s.queryRates (addrKey asker.addr) t 4
      ⟨{ s with
          queryRates := rates
          outbound := s.outbound ++ if ok then sendTcpConn asker.connId (sessionInfo s).encode else [] },
        asker, if ok then .answered else .dropped⟩ := by
  have hlong : sizeofSessionQuery ≤ buf.length := by
    obtain ⟨-, -, hle, hsize⟩ := openFrame_spec hf
    rwa [of_decide_eq_true hsize] at hle
  unfold handlePendingMessage
  rw [hf]
  dsimp only
  rw [if_pos ⟨rfl, hlong⟩]
  cases hr : (allowRate s.queryRates (addrKey asker.addr) t 4).1 with
  | false =>
    rw [if_neg Bool.false_ne_true, if_neg Bool.false_ne_true, if_neg Bool.false_ne_true, List.append_nil]
  | true =>
    have hcounted : WellFormed { s with queryRates := (allowRate s.queryRates (addrKey asker.addr) t 4).2 } :=
      ⟨hw.keyed, hw.ok⟩
    have hsends := answerQuery_sends hcounted asker
    rw [if_pos rfl, if_pos rfl, if_pos rfl, hsends]
    rfl

end Answer

/-- The frame is a require-host Hello that passes the rate limit and every gate but those on the host. -/
structure PassesOtherGates (s : ServerRuntime) (pending : PendingTcp) (buf : Bytes) (t : Time) (header : Header) : Prop where
  frame : openFrame buf = some (header, .Hello)
  size : sizeofHello ≤ buf.length
  requiresHost : helloRequiresHost (readHello buf) = true
  rate : (allowRate s.helloRates (addrKey pending.addr) t 2).1 = true
  content : contentGates s header (readHello buf) = none
  capacity : capacityGate s (readHello buf) = none

/-- The Hello is rejected with a reason that names the host. -/
def RefusedForHost (exit : PendingExit) : Prop :=
  exit.decision = .rejected .NoHost ∨ exit.decision = .rejected .HostNotStreaming

section Gate
variable {s : ServerRuntime} {pending : PendingTcp} {buf : Bytes} {t : Time} {header : Header}

theorem admitHello_accepted (env : Env) (hid : s.world.hostPeerId ≠ 0) (pending : PendingTcp) (hello : Hello) (t : Time) :
    (admitHello env s pending hello t).exit.decision = .accepted := by
  cases hf : findByKey s (helloKey hello) with
  | some found =>
    rw [admitHello_reconnect env hf]
    rfl
  | none =>
    rw [admitHello_join env hf (fun _ => hid)]
    rfl

/-- The host's gates refuse a Hello that passes the others exactly if no host is shown. -/
theorem refusedForHost_iff (env : Env) (hw : WellFormed s) (hp : PassesOtherGates s pending buf t header) :
    RefusedForHost (handlePendingMessage env s pending buf t).exit ↔ ¬ HostShown s := by
  have hquiet : WellFormed (s.countHello pending t) := ⟨hw.keyed, hw.ok⟩
  have hkept : (helloGates (s.countHello pending t) header (readHello buf)).1 = s.countHello pending t :=
    helloGates_runtime hquiet.keyed hquiet.ok header (readHello buf)
  have hgate : (helloGates (s.countHello pending t) header (readHello buf)).2 = (hostGate s).2 := by
    have hcontent : contentGates (s.countHello pending t) header (readHello buf) = none := hp.content
    have hcapacity : capacityGate (s.countHello pending t) (readHello buf) = none := hp.capacity
    have hhost : hostGate (s.countHello pending t) = hostGate s := rfl
    unfold helloGates
    rw [hcontent]
    dsimp only
    rw [if_pos hp.requiresHost, hhost]
    obtain ⟨⟨world, refusal⟩, hg⟩ : ∃ g, hostGate s = g := ⟨_, rfl⟩
    rw [hg]
    cases refusal with
    | some refusal => rfl
    | none => exact hcapacity
  obtain ⟨⟨s', refusal⟩, hg⟩ : ∃ g, helloGates (s.countHello pending t) header (readHello buf) = g := ⟨_, rfl⟩
  rw [hg] at hkept hgate
  dsimp only at hkept hgate
  cases refusal with
  | some refusal =>
    obtain ⟨reason, text⟩ := refusal
    rw [handlePendingMessage_refused env hp.frame hp.size hp.rate hg]
    have hclosed : ¬ HostShown s := by
      rw [← hostGate_eq_none_iff hw, ← hgate]
      exact Option.some_ne_none _
    have hreason : RefusedForHost (.rejected reason) := by
      rcases hostGate_eq_some hgate.symm with rfl | rfl
      · exact .inl rfl
      · exact .inr rfl
    exact iff_of_true hreason hclosed
  | none =>
    rw [handlePendingMessage_passed env hp.frame hp.size hp.rate hg]
    have hopen : HostShown s := (hostGate_eq_none_iff hw).mp hgate.symm
    have hid : s'.world.hostPeerId ≠ 0 := by
      rw [hkept]
      exact hopen.hostPeerId
    have haccepted := admitHello_accepted env hid pending (readHello buf) t
    refine iff_of_false ?_ (not_not_intro hopen)
    unfold RefusedForHost
    rw [haccepted]
    simp

/-- In every reachable state, for every Hello that asks for a host and passes the other gates: a client that reads the
answer to a query in this state says ok if and only if the Hello is not rejected for the host's sake; and a query changes
its rate bucket alone and sends this answer. -/
theorem verdict_iff_gate (hs : Reachable s) (hp : PassesOtherGates s pending buf t header) (env : Env) {σ : Type}
    (S : Plugin.Sockets σ) (q : QueryClient σ) (out : SessionQueryResult) (hq : q.queryPending = true) (sockets : σ)
    (hread : queryFrames S 8 q.client.sockets = (some (sessionInfo s).encode, sockets)) :
    ((queryPoll S out q).2.1.ok = true ↔ ¬ RefusedForHost (handlePendingMessage env s pending buf t).exit) ∧
      ∀ (env : Env) (asker : PendingTcp) (query : Bytes) (header : Header) (t : Time),
        openFrame query = some (header, .SessionQuery) →
          handlePendingMessage env s asker query t =
            let (ok, rates) := allowRate s.queryRates (addrKey asker.addr) t 4
            ⟨{ s with
                queryRates := rates
                outbound := s.outbound ++ if ok then sendTcpConn asker.connId (sessionInfo s).encode else [] },
              asker, if ok then .answered else .dropped⟩ := by
  have hw := hs.wellFormed
  constructor
  · rw [(queryPoll_of_frames hq hread).2, judge_sessionInfo hw, refusedForHost_iff env hw hp, not_not]
  · intro env asker query header t hf
    exact handlePendingMessage_query env hw asker hf t

end Gate

def guestFrame (key : Bytes) : Bytes :=
  (makeHello key key true kCommonwealthWorldspace ⟨0⟩ ⟨0⟩ 0 ⟨0⟩ ⟨0⟩ ⟨0⟩ false kHelloFlagRequireHost 0 []).encode

def hostedSession : ServerRuntime := runFrom freshStart twoJoins

def guestConn : PendingTcp := { connId := 3, addr := ⟨10, 0, 0, 3, 1000⟩, connectedAt := 1 }

/-- A client whose query is under way, with the answer of the hosted session next on its connection. -/
def asking : QueryClient (List Plugin.RecvFrame × List Bytes) where
  queryPending := true
  client := { session := {}, sockets := ([.frame (sessionInfo hostedSession).encode], []) }

theorem asking_reads : queryFrames Plugin.feedSockets 8 asking.client.sockets =
    (some (sessionInfo hostedSession).encode, [], []) := by
  have hnext : ∀ buf : Bytes, Plugin.feedSockets.tcpRecvFrame ([.frame buf], []) = (.frame buf, [], []) := fun _ => rfl
  exact queryFrames_info (hnext _) (headerOk_sessionInfo hostedSession)

theorem guest_passesOtherGates : PassesOtherGates hostedSession guestConn (guestFrame (ascii "c")) 1
    (fillHeader .Hello 135) := by
  constructor <;> decide +kernel

theorem verdict_iff_gate_guest :
    (queryPoll Plugin.feedSockets { info := blankInfo } asking).2.1.ok = true ↔
      ¬ RefusedForHost (handlePendingMessage plainEnv hostedSession guestConn (guestFrame (ascii "c")) 1).exit :=
  (verdict_iff_gate ⟨freshStart, twoJoins, rfl⟩ guest_passesOtherGates plainEnv Plugin.feedSockets asking { info := blankInfo }
    rfl ([], []) asking_reads).1

end QueryVerdict
end CommonwealthMP
