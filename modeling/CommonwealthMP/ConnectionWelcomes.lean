import CommonwealthMP.OrphanedConnections
import CommonwealthMP.BindingFreshness

/-! # What a connection hears of its session

What one step does to the session on a connection, and the Welcomes the step sends there: the
session stays as it is, or its Welcome says what it has become, or the connection ends. Only
a Bye taken from elsewhere takes the session away without a word. -/
namespace CommonwealthMP
open ByteLayout OrderedTables SessionTable

def welcomeIn (buf : Bytes) : Option Welcome :=
  match headerOk (Header.decode buf) buf.length with
  | some .Welcome => some (Welcome.decode buf)
  | _ => none

namespace ServerRuntime

def welcomesTo (k : ConnId) (cmds : List OutboundCmd) : List Welcome := (framesTo k cmds).filterMap welcomeIn

@[simp] theorem welcomesTo_append (k : ConnId) (l l' : List OutboundCmd) :
    welcomesTo k (l ++ l') = welcomesTo k l ++ welcomesTo k l' := by
  simp [welcomesTo]

@[simp] theorem framesTo_closeConn (k c : ConnId) : framesTo k (closeConn c) = [] := by
  refine framesTo_eq_nil fun cmd hm hkind => ?_
  obtain ⟨-, rfl⟩ := closeConn_kind hm
  cases hkind

@[simp] theorem framesTo_bindPeer (k c : ConnId) (p : PeerId) : framesTo k (bindPeer c p) = [] := by
  refine framesTo_eq_nil fun cmd hm hkind => ?_
  obtain ⟨-, -, rfl⟩ := bindPeer_kind hm
  cases hkind

theorem framesTo_releaseCmds (k : ConnId) (id : PeerId) (client : Client) (keepTcp : Bool) :
    framesTo k (releaseCmds id client keepTcp) = [] := by
  unfold releaseCmds
  split
  · rfl
  · exact framesTo_closeConn k client.connId

theorem framesTo_replacedConn (k old new : ConnId) : framesTo k (replacedConn old new) = [] := by
  unfold replacedConn
  split
  · exact framesTo_closeConn k old
  · rfl

theorem framesTo_sendTcp_of_ne {k : ConnId} {client : Client} (h : client.connId ≠ k) (buf : Bytes) :
    framesTo k (sendTcp client buf) = [] := by
  refine framesTo_eq_nil fun cmd hm _ => ?_
  rw [mem_sendTcp hm]
  exact h

theorem welcomeIn_type {buf : Bytes} {w : Welcome} (h : welcomeIn buf = some w) : u8At buf 4 = Msg.Welcome.code := by
  unfold welcomeIn at h
  split at h
  · rename_i hok
    exact (headerOk_spec hok).1
  · cases h

theorem welcomesTo_plain (k : ConnId) {cmds : List OutboundCmd} (h : ∀ cmd ∈ cmds, Plain cmd) : welcomesTo k cmds = [] := by
  refine List.filterMap_eq_nil_iff.mpr fun buf hbuf => ?_
  obtain ⟨cmd, hcmd, rfl⟩ := List.mem_map.mp hbuf
  obtain ⟨hm, hk⟩ := List.mem_filter.mp hcmd
  refine Option.eq_none_iff_forall_ne_some.mpr fun w hw => ?_
  have hplain := (h cmd hm).not_welcome
  have hkind : cmd.kind = .TcpSend := (of_decide_eq_true hk).1
  rw [isWelcome, hkind, welcomeIn_type hw] at hplain
  simp at hplain

theorem welcomesTo_bindPeer (k c : ConnId) (p : PeerId) : welcomesTo k (bindPeer c p) = [] := by
  rw [welcomesTo, framesTo_bindPeer, List.filterMap_nil]

theorem welcomesTo_replacedConn (k old new : ConnId) : welcomesTo k (replacedConn old new) = [] := by
  rw [welcomesTo, framesTo_replacedConn, List.filterMap_nil]

theorem welcomeIn_encode {w : Welcome} (h : w.header = fillHeader .Welcome 30) : welcomeIn w.encode = some w := by
  have hlen : w.encode.length = 30 := by simp [Welcome.encode]
  have hok : headerOk (Header.decode w.encode) w.encode.length = some .Welcome := by
    rw [hlen, Welcome.encode, h, Header.decode_encode_append]
    decide
  rw [welcomeIn, hok, ServerRuntime.Welcome.decode_encode]

theorem welcomesTo_sendTcp {k : ConnId} (h0 : k ≠ 0) (s : ServerRuntime) (joined : Client) (isNew : Bool) :
    welcomesTo k (sendTcp joined (welcomeOf s joined isNew).encode) =
      if joined.connId = k then [welcomeOf s joined isNew] else [] := by
  have hne : (welcomeOf s joined isNew).encode ≠ [] := List.ne_nil_of_length_pos (by simp [Welcome.encode])
  by_cases hk : joined.connId = k
  · have hc : joined.connId ≠ 0 := hk.symm ▸ h0
    have hin : welcomeIn (welcomeOf s joined isNew).encode = some (welcomeOf s joined isNew) := welcomeIn_encode rfl
    rw [if_pos hk, sendTcp_eq hc hne]
    simp [welcomesTo, framesTo, toTcp, hk, hin]
  · rw [if_neg hk]
    rw [welcomesTo, framesTo_sendTcp_of_ne hk, List.filterMap_nil]

/-- The session on `k` keeps its id and token; its address changes only by a bind. -/
structure Stays (s : ServerRuntime) (i : Env × Input) (k : ConnId) : Prop where
  back : ∀ p e', (s.step i).sessions.live p = some e' → e'.conn = k →
    ∃ e, s.sessions.live p = some e ∧ e.conn = k ∧ e.token = e'.token
  forth : ∀ p e, s.sessions.live p = some e → e.conn = k → ∃ e', (s.step i).sessions.live p = some e' ∧ e'.conn = k ∧
    e'.token = e.token ∧ (e'.udp = e.udp ∨ ∃ a, .bind p a ∈ stepMoves s i ∧ e'.udp = some a)

inductive Attended (s : ServerRuntime) (i : Env × Input) (k : ConnId) : Prop
  | same (hw : welcomesTo k (s.step i).outbound = []) (hs : Stays s i k)
  | welcomed (p c isNew) (hl : (s.step i).clients.lookup p = some c) (hc : c.connId = k)
      (hw : welcomesTo k (s.step i).outbound = [welcomeOf (s.step i) c isNew])
  | closed (h : closeCmd k ∈ (s.step i).outbound)
  | hungUp (h : closedConn i = some k)
  | bye (ev t p client header) (hs : ClientStep s.ready i.2 ev t p client) (hc : client.connId = k)
      (ho : openFrame ev.bytes = some (header, .Bye))

/-- A session is on the connection it was on, unless the step renews it. -/
theorem conn_of_not_renewed {s : ServerRuntime} (hw : WellFormed s) {i : Env × Input} {p : PeerId}
    (hr : ∀ m ∈ stepMoves s i, ¬ Renews p m) {e' : Endpoint} (he' : (s.step i).sessions.live p = some e') :
    ∃ e, s.sessions.live p = some e ∧ e.conn = e'.conn ∧ e.token = e'.token := by
  obtain ⟨e, he, htok, -⟩ := (step_simulates hw i).steps.not_renewed hr he'
  rcases (step_simulates hw i).steps.conn_origin he' with ⟨x, hx, hconn⟩ | ⟨x, hm⟩ | ⟨c, t, hm⟩
  · rw [he] at hx
    cases hx
    exact ⟨e, he, hconn, htok⟩
  · exact absurd rfl (hr _ hm)
  · exact absurd rfl (hr _ hm)

/-- The sessions on `k` stay when the step touches only one session, which is elsewhere. -/
theorem stays_of_elsewhere {s : ServerRuntime} (hw : WellFormed s) {i : Env × Input} {k : ConnId} {p : PeerId}
    (hm : ∀ m ∈ stepMoves s i, ∀ q, Renews q m ∨ (∃ keep, m = .leave q keep) → q = p)
    (hbefore : ∀ e, s.sessions.live p = some e → e.conn ≠ k)
    (hafter : ∀ e', (s.step i).sessions.live p = some e' → e'.conn ≠ k) : Stays s i k where
  back q e' he' hk := by
    have hne : q ≠ p := by
      rintro rfl
      exact hafter e' he' hk
    obtain ⟨e, he, hconn, htok⟩ := conn_of_not_renewed hw (fun m hmem hr => hne (hm m hmem q (.inl hr))) he'
    exact ⟨e, he, hconn.trans hk, htok⟩
  forth q e he hk := by
    have hne : q ≠ p := by
      rintro rfl
      exact hbefore e he hk
    obtain ⟨e', he', hconn, htok, hudp⟩ := (step_simulates hw i).steps.kept
      (fun m hmem hr => hne (hm m hmem q (.inl hr))) (fun keep hmem => hne (hm _ hmem q (.inr ⟨keep, rfl⟩))) he
    exact ⟨e', he', hconn.trans hk, htok, hudp⟩

/-- A session that is taken out other than by a Bye leaves its connection without an owner. -/
theorem unowned_of_leave {s : ServerRuntime} (hw : WellFormed s) {used : List ConnId} (ho : Owned used s.sessions)
    {i : Env × Input} (hr : ∀ p, ∀ m ∈ stepMoves s i, ¬ Renews p m) {p : PeerId} {e : Endpoint}
    (he : s.sessions.live p = some e) {keep : Bool} (hl : .leave p keep ∈ stepMoves s i)
    (hbye : ∀ q, .leave q true ∉ stepMoves s i) (haccept : ∀ c, .accept c ∉ stepMoves s i) :
    e.conn ∉ ownedConns (s.step i) := by
  have hsteps := (step_simulates hw i).steps
  intro hown
  rcases mem_ownedConns_sessions.mp hown with ⟨q, e', he', hconn⟩ | hp
  · obtain ⟨x, hx, hxc, -⟩ := conn_of_not_renewed hw (hr q) he'
    obtain rfl := ho.conn_unique hx he (hxc.trans hconn)
    exact absurd (hsteps.left hl (hr q)) (by rw [he']; nofun)
  · rcases hsteps.pending_origin hp with hp | hp | ⟨q, hp⟩
    · exact ho.not_pending he hp
    · exact haccept _ hp
    · exact hbye q hp

theorem stepMoves_of_bye {s : ServerRuntime} {i : Env × Input} {ev : InboundEvent} {t : Time} {p : PeerId} {client : Client}
    {header : Header} (hs : ClientStep s.ready i.2 ev t p client) (hopen : openFrame ev.bytes = some (header, .Bye)) :
    stepMoves s i = [.leave p true] := by
  rw [stepMoves, hs.input, moves]
  simp only [hs.kind, frameMoves, hs.target, clientMoves, hopen, Option.elim_some, messageMoves]

theorem stepMoves_bye {s : ServerRuntime} {i : Env × Input} {p : PeerId} (h : .leave p true ∈ stepMoves s i) :
    ∃ ev t client header, ClientStep s.ready i.2 ev t p client ∧ openFrame ev.bytes = some (header, .Bye) := by
  cases cause_of_mem h with
  | bye _ ev t client header hs ho => exact ⟨ev, t, client, header, hs, ho⟩

theorem bye_leaves {s : ServerRuntime} (hw : WellFormed s) {used : List ConnId} (ho : Owned used s.sessions) {i : Env × Input}
    {ev : InboundEvent} {t : Time} {p : PeerId} {client : Client} {header : Header} (hs : ClientStep s.ready i.2 ev t p client)
    (hopen : openFrame ev.bytes = some (header, .Bye)) {q : PeerId} {e' : Endpoint}
    (he' : (s.step i).sessions.live q = some e') : e'.conn ≠ client.connId := by
  intro hc
  have hmoves := stepMoves_of_bye hs hopen
  have hr : ∀ q, ∀ m ∈ stepMoves s i, ¬ Renews q m := by
    intro q m hm hr
    rw [hmoves, List.mem_singleton] at hm
    subst hm
    exact hr
  have hl : s.clients.lookup p = some client := frameTarget_client hs.target
  obtain ⟨e, he, hconn, -⟩ := conn_of_not_renewed hw (hr q) he'
  obtain rfl := ho.conn_unique he (liveOf_some hl) (hconn.trans hc)
  have hnone := (step_simulates hw i).steps.left (by rw [hmoves]; exact List.mem_singleton.mpr rfl) (hr q)
  rw [he'] at hnone
  cases hnone

theorem not_renewed_of_leave {s : ServerRuntime} {i : Env × Input} {p : PeerId} {keep : Bool} (h : .leave p keep ∈ stepMoves s i)
    (q : PeerId) : ∀ m ∈ stepMoves s i, ¬ Renews q m := by
  intro m hm hr
  cases cause_of_mem h with
  | bye _ ev t client header hs hopen =>
    rw [stepMoves_of_bye hs hopen, List.mem_singleton] at hm
    subst hm
    exact hr
  | closed _ ev t hi hk =>
    rw [stepMoves, hi, moves] at hm
    simp only [hk] at hm
    rcases List.mem_cons.mp hm with rfl | hm
    · exact hr
    · obtain ⟨_, -, rfl⟩ := mem_leaves hm
      exact hr
  | expired _ t hi =>
    rw [stepMoves, hi, moves] at hm
    obtain ⟨_, -, rfl⟩ := mem_leaves hm
    exact hr
  | kicked _ cmdLine hi =>
    rw [stepMoves, hi, moves] at hm
    obtain ⟨_, -, rfl⟩ := mem_leaves hm
    exact hr

theorem stepMoves_accept {s : ServerRuntime} {i : Env × Input} {c : ConnId} (h : .accept c ∈ stepMoves s i) :
    stepMoves s i = [.accept c] := by
  cases cause_of_mem h with
  | accept ev t hi hk =>
    rw [stepMoves, hi, moves]
    simp only [hk]

/-- A step without a Welcome keeps the session on a connection, or the connection ends. -/
theorem attended_of_quiet {s : ServerRuntime} (hw : WellFormed s) {used : List ConnId} (ho : Owned used s.sessions)
    (h0 : 0 ∉ used) {i : Env × Input} (hn : ∀ p, ¬ Welcomed s i p) (hp : ∀ cmd ∈ (s.step i).outbound, Plain cmd)
    {k : ConnId} (hk : k ≠ 0) : Attended s i k := by
  have hr (p : PeerId) : ∀ m ∈ stepMoves s i, ¬ Renews p m := fun m hm hr => hn p (welcomed_of_renews hm hr)
  have back (p e') (he' : (s.step i).sessions.live p = some e') (hc : e'.conn = k) :
      ∃ e, s.sessions.live p = some e ∧ e.conn = k ∧ e.token = e'.token := by
    obtain ⟨e, he, hconn, htok⟩ := conn_of_not_renewed hw (hr p) he'
    exact ⟨e, he, hconn.trans hc, htok⟩
  by_cases hleave : ∃ p e keep, s.sessions.live p = some e ∧ e.conn = k ∧ .leave p keep ∈ stepMoves s i
  · obtain ⟨p, e, keep, he, rfl, hmem⟩ := hleave
    by_cases hbye : ∃ q, .leave q true ∈ stepMoves s i
    · obtain ⟨q, hq⟩ := hbye
      obtain ⟨ev, t, client, header, hs, hopen⟩ := stepMoves_bye hq
      have hmoves := stepMoves_of_bye hs hopen
      rw [hmoves, List.mem_singleton] at hmem
      cases hmem
      have hl : s.clients.lookup p = some client := frameTarget_client hs.target
      rw [show s.sessions.live p = some (endpointOf client) from liveOf_some hl] at he
      cases he
      exact .bye ev t p client header hs rfl hopen
    · push Not at hbye
      have hout := unowned_of_leave hw ho hr he hmem hbye fun c hc => by
        rw [stepMoves_accept hc, List.mem_singleton] at hmem
        cases hmem
      have hjoins : FreshJoin s i := by
        intro q hq
        unfold joins at hq
        split at hq
        · rename_i id fresh hx
          exact absurd (.joined fresh hx) (hn id)
        · cases hq
      have hown := mem_ownedConns_sessions.mpr (.inl ⟨p, e, he, rfl⟩)
      rcases (step_accounts hw ho h0 hjoins).drops e.conn hown hout hk with h | h
      · exact .closed h
      · exact .hungUp h
  · push Not at hleave
    refine .same (welcomesTo_plain k hp) ⟨back, fun p e he hc => ?_⟩
    obtain ⟨e', he', hconn, htok, hudp⟩ :=
      (step_simulates hw i).steps.kept (hr p) (fun keep hm => hleave p e keep he hc hm) he
    exact ⟨e', he', hconn.trans hc, htok, hudp⟩

/-- Every step attends to every connection. -/
theorem step_attended {s : ServerRuntime} (hw : WellFormed s) {used : List ConnId} (ho : Owned used s.sessions)
    (h0 : 0 ∉ used) (i : Env × Input) {k : ConnId} (hk : k ≠ 0) : Attended s i k := by
  have hsteps := (step_simulates hw i).steps
  cases step_output hw i with
  | plain hn hp => exact attended_of_quiet hw ho h0 hn hp hk
  | joined ev t pending p joined isNew rest hs hx hp hl hconn hout hr =>
    have hwelcomes : welcomesTo k (s.step i).outbound = if joined.connId = k then [welcomeOf (s.step i) joined isNew] else [] := by
      rw [hout, welcomesTo_append, welcomesTo_append, welcomesTo_bindPeer, welcomesTo_plain k hr, List.nil_append,
        List.append_nil, welcomesTo_sendTcp hk]
    by_cases hjk : joined.connId = k
    · rw [if_pos hjk] at hwelcomes
      exact .welcomed p joined isNew hl hjk hwelcomes
    · rw [if_neg hjk] at hwelcomes
      refine .same hwelcomes ?_
      have hmoves := stepMoves_joined hs hx
      by_cases htaken : p ∈ s.clients
      · rw [hmoves] at hsteps
        have hsame : (s.step i).sessions.live = s.sessions.live := by
          refine (Steps.single_iff.mp hsteps).join_taken ?_
          obtain ⟨c, hc⟩ := Option.isSome_iff_exists.mp (AList.lookup_isSome.mpr htaken)
          rw [show s.sessions.live p = some (endpointOf c) from liveOf_some hc]
          nofun
        exact ⟨fun q e' he' hc => ⟨e', hsame ▸ he', hc, rfl⟩, fun q e he hc => ⟨e, hsame ▸ he, hc, rfl, .inl rfl⟩⟩
      · refine stays_of_elsewhere hw (p := p) (fun m hm q hq => ?_) (fun e he => ?_) fun e' he' hc => ?_
        · rw [hmoves, List.mem_singleton] at hm
          subst hm
          rcases hq with hq | ⟨keep, hq⟩
          · exact hq.symm
          · cases hq
        · obtain ⟨c, hc, -⟩ := liveOf_eq_some.mp he
          exact absurd (AList.lookup_isSome.mp (hc ▸ rfl)) htaken
        · rw [show (s.step i).sessions.live p = some (endpointOf joined) from liveOf_some hl] at he'
          cases he'
          exact hjk hc
  | reconnected ev t pending p client joined isNew rest hs hx hc hl hconn hout hr =>
    have hwelcomes : welcomesTo k (s.step i).outbound = if joined.connId = k then [welcomeOf (s.step i) joined isNew] else [] := by
      rw [hout, welcomesTo_append, welcomesTo_append, welcomesTo_append, welcomesTo_bindPeer, welcomesTo_replacedConn,
        welcomesTo_plain k hr, List.nil_append, List.nil_append, List.append_nil, welcomesTo_sendTcp hk]
    by_cases hjk : joined.connId = k
    · rw [if_pos hjk] at hwelcomes
      exact .welcomed p joined isNew hl hjk hwelcomes
    · by_cases hold : client.connId = k
      · refine .closed ?_
        have hne : client.connId ≠ pending.connId := by
          rw [← hconn, hold]
          exact Ne.symm hjk
        rw [hout, replacedConn, if_pos ⟨hold.symm ▸ hk, hne⟩, closeConn_eq (hold.symm ▸ hk), hold]
        exact List.mem_append_left _ (List.mem_singleton.mpr rfl)
      · rw [if_neg hjk] at hwelcomes
        refine .same hwelcomes (stays_of_elsewhere hw (p := p) (fun m hm q hq => ?_) (fun e he => ?_) fun e' he' hc' => ?_)
        · rw [stepMoves_reconnected hs hx, List.mem_singleton] at hm
          subst hm
          rcases hq with hq | ⟨keep, hq⟩
          · exact hq.symm
          · cases hq
        · rw [show s.sessions.live p = some (endpointOf client) from liveOf_some hc] at he
          cases he
          exact hold
        · rw [show (s.step i).sessions.live p = some (endpointOf joined) from liveOf_some hl] at he'
          cases he'
          exact hjk hc'
  | again ev t p client header joined isNew hs hopen hn hl hout =>
    have hwelcomes : welcomesTo k (s.step i).outbound = if joined.connId = k then [welcomeOf (s.step i) joined isNew] else [] := by
      rw [hout, welcomesTo_sendTcp hk]
    by_cases hjk : joined.connId = k
    · rw [if_pos hjk] at hwelcomes
      exact .welcomed p joined isNew hl hjk hwelcomes
    · rw [if_neg hjk] at hwelcomes
      have hmoves := stepMoves_again hs hopen
      have hlive' : (s.step i).sessions.live p = some (endpointOf joined) := liveOf_some hl
      refine .same hwelcomes (stays_of_elsewhere hw (p := p) (fun m hm q hq => ?_) (fun e he hc => ?_) fun e' he' hc => ?_)
      · rw [hmoves, List.mem_singleton] at hm
        subst hm
        rcases hq with hq | ⟨keep, hq⟩
        · exact hq.symm
        · cases hq
      · -- the answer to a Hello leaves the connection as it was
        obtain ⟨x, hx, hxc⟩ | ⟨x, hm⟩ | ⟨c, t, hm⟩ := hsteps.conn_origin hlive'
        · obtain rfl := Option.some.inj (he.symm.trans hx)
          exact hjk (hxc.symm.trans hc)
        · rw [hmoves, List.mem_singleton] at hm
          cases hm
        · rw [hmoves, List.mem_singleton] at hm
          cases hm
      · rw [hlive'] at he'
        cases he'
        exact hjk hc

theorem welcomesTo_live {s : ServerRuntime} (hw : WellFormed s) {i : Env × Input} {k : ConnId} (hk : k ≠ 0) {w : Welcome}
    (hm : w ∈ welcomesTo k (s.step i).outbound) :
    ∃ p c isNew, (s.step i).clients.lookup p = some c ∧ w = welcomeOf (s.step i) c isNew := by
  have hone : ∀ {joined : Client} {isNew : Bool},
      w ∈ welcomesTo k (sendTcp joined (welcomeOf (s.step i) joined isNew).encode) → w = welcomeOf (s.step i) joined isNew := by
    intro joined isNew hm
    rw [welcomesTo_sendTcp hk] at hm
    split at hm
    · exact List.mem_singleton.mp hm
    · cases hm
  cases step_output hw i with
  | plain hn hp =>
    rw [welcomesTo_plain k hp] at hm
    cases hm
  | joined ev t pending p joined isNew rest hs hx hp hl hconn hout hr =>
    rw [hout, welcomesTo_append, welcomesTo_append, welcomesTo_bindPeer, welcomesTo_plain k hr, List.nil_append,
      List.append_nil] at hm
    exact ⟨p, joined, isNew, hl, hone hm⟩
  | reconnected ev t pending p client joined isNew rest hs hx hc hl hconn hout hr =>
    rw [hout, welcomesTo_append, welcomesTo_append, welcomesTo_append, welcomesTo_bindPeer, welcomesTo_replacedConn,
      welcomesTo_plain k hr, List.nil_append, List.nil_append, List.append_nil] at hm
    exact ⟨p, joined, isNew, hl, hone hm⟩
  | again ev t p client header joined isNew hs hopen hn hl hout =>
    rw [hout] at hm
    exact ⟨p, joined, isNew, hl, hone hm⟩

/-- No token of a session is zero. -/
def Tokened (s : ServerRuntime) : Prop := ∀ p e, s.sessions.live p = some e → e.token ≠ 0

theorem Tokened.step {s : ServerRuntime} (hw : WellFormed s) (h : Tokened s) (i : Env × Input) : Tokened (s.step i) := by
  have hnew : makeUdpToken s.ready.udpToken ≠ 0 := makeUdpToken_ne_zero s.ready.udpToken
  generalize htoken : makeUdpToken s.ready.udpToken = token at hnew
  refine (step_simulates hw i).steps.tokens (P := (· ≠ (0 : UInt32))) (fun q e hm => ?_) (fun q c t hm => ?_) (fun q t hm => ?_) h
  · cases cause_of_mem hm with
    | join _ ev t pending fresh hs hx =>
      dsimp only
      rw [htoken]
      exact hnew
  · cases cause_of_mem hm with
    | reconnect _ ev t pending hs hx =>
      rw [htoken]
      exact hnew
  · cases cause_of_mem hm with
    | retoken _ ev t client header hs ho hn =>
      rw [htoken]
      exact hnew

end ServerRuntime
end CommonwealthMP
