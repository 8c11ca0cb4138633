import CommonwealthMP.ClientHearing

/-! # The host of the server and of its clients

The server names a host at the first join and again whenever the host is taken out, while a
client takes its role from its Welcomes alone: nobody tells it that it has inherited the session. -/
namespace CommonwealthMP
open ByteLayout OrderedTables SessionTable StepRuns
namespace ServerRuntime

def leavers (s : ServerRuntime) (i : Env × Input) : List PeerId :=
  (stepMoves s i).filterMap fun m => match m with
    | .leave p _ => some p
    | _ => none

def byes (s : ServerRuntime) (i : Env × Input) : List PeerId :=
  (stepMoves s i).filterMap fun m => match m with
    | .leave p true => some p
    | _ => none

def newcomers (s : ServerRuntime) (i : Env × Input) : List PeerId :=
  (stepMoves s i).filterMap fun m => match m with
    | .join p _ => some p
    | _ => none

/-- The host is taken out, or there is none when a player joins, while another session stays. -/
def HandsOver (s : ServerRuntime) (i : Env × Input) : Prop :=
  (∃ p ∈ s.clients.keys, p ∉ leavers s i) ∧
    (s.world.hostPeerId ∈ leavers s i ∨ s.world.hostPeerId = 0 ∧ newcomers s i ≠ [])

/-- A Bye takes out the host that is on connection `k`. -/
def HostByes (s : ServerRuntime) (i : Env × Input) (k : ConnId) : Prop :=
  s.world.hostPeerId ∈ byes s i ∧ ∃ c ∈ s.clients.lookup s.world.hostPeerId, c.connId = k

instance (s : ServerRuntime) (i : Env × Input) : Decidable (HandsOver s i) := inferInstanceAs (Decidable (_ ∧ _))

instance (s : ServerRuntime) (i : Env × Input) (k : ConnId) : Decidable (HostByes s i k) := inferInstanceAs (Decidable (_ ∧ _))

theorem mem_leavers {s : ServerRuntime} {i : Env × Input} {p : PeerId} : p ∈ leavers s i ↔ ∃ keep, .leave p keep ∈ stepMoves s i := by
  constructor
  · intro h
    obtain ⟨m, hm, hp⟩ := List.mem_filterMap.mp h
    cases m with
    | leave q keep => exact ⟨keep, Option.some.inj hp ▸ hm⟩
    | _ => cases hp
  · rintro ⟨keep, hm⟩
    exact List.mem_filterMap.mpr ⟨_, hm, rfl⟩

/-- The peer id under which a Welcome makes its receiver host. -/
def roleIn (w : Welcome) : Option UInt32 := if w.isHost ≠ 0 then some w.peerId else none

def hearRole (role : Option UInt32) (buf : Bytes) : Option UInt32 := (welcomeIn buf).elim role roleIn

theorem foldl_hearRole (frames : List Bytes) (role : Option UInt32) :
    frames.foldl hearRole role = (frames.filterMap welcomeIn).foldl (fun _ w => roleIn w) role := by
  induction frames generalizing role with
  | nil => rfl
  | cons buf frames ih =>
    rw [List.foldl_cons, ih, List.filterMap_cons, hearRole]
    cases welcomeIn buf <;> rfl

/-- The role told on a connection is that of the session there. -/
structure ToldRole (s : ServerRuntime) (k : ConnId) (role : Option UInt32) : Prop where
  seated : ∀ p e, s.sessions.live p = some e → e.conn = k → role = if s.world.hostPeerId = p then some p else none
  unseated : (∀ p e, s.sessions.live p = some e → e.conn ≠ k) → role = none

theorem roleIn_welcomeOf (s : ServerRuntime) (c : Client) (isNew : Bool) :
    roleIn (welcomeOf s c isNew) = if s.world.hostPeerId = c.peerId then some c.peerId else none := by
  rw [roleIn, welcomeOf, makeWelcome]
  by_cases h : c.peerId = s.world.hostPeerId
  · simp [boolByte, h]
  · simp [boolByte, h, Ne.symm h]

theorem welcomesTo_bye {s : ServerRuntime} (hw : WellFormed s) {i : Env × Input} {ev : InboundEvent} {t : Time} {p : PeerId}
    {client : Client} {header : Header} (hs : ClientStep s.ready i.2 ev t p client)
    (hopen : openFrame ev.bytes = some (header, .Bye)) (k : ConnId) : welcomesTo k (s.step i).outbound = [] := by
  cases step_output hw i with
  | plain hn hp => exact welcomesTo_plain k hp
  | joined _ _ _ _ _ _ _ hpending => exact (hpending.not_client hs).elim
  | reconnected _ _ _ _ _ _ _ _ hpending => exact (hpending.not_client hs).elim
  | again ev' t' p' client' header' joined isNew hs' hopen' =>
    obtain ⟨rfl, -⟩ := hs.unique hs'
    cases hopen.symm.trans hopen'

/-- A session that stays keeps its role, unless the host changes over its head. -/
theorem host_kept {s : ServerRuntime} (hw : WellFormed s) {i : Env × Input} (hover : ¬ HandsOver s i) {p : PeerId}
    {e e' : Endpoint} (he : s.sessions.live p = some e) (he' : (s.step i).sessions.live p = some e') :
    (s.step i).world.hostPeerId = s.world.hostPeerId := by
  have hstays : ∃ q ∈ s.clients.keys, q ∉ leavers s i := by
    obtain ⟨c, hl, -⟩ := liveOf_eq_some.mp he
    refine ⟨p, AList.mem_keys.mp (AList.lookup_isSome.mp (hl ▸ rfl)), fun hm => ?_⟩
    obtain ⟨keep, hm⟩ := mem_leavers.mp hm
    have hnone := (step_simulates hw i).steps.left hm (not_renewed_of_leave hm p)
    cases he'.symm.trans hnone
  refine (step_simulates hw i).steps.host_kept hw.ok (fun keep hm => ?_) fun h0 q e hm => ?_
  · exact hover ⟨hstays, .inl (mem_leavers.mpr ⟨keep, hm⟩)⟩
  · exact hover ⟨hstays, .inr ⟨h0, List.ne_nil_of_mem (List.mem_filterMap.mpr ⟨_, hm, rfl⟩)⟩⟩

theorem acceptedConn_welcomed {s : ServerRuntime} (hw : WellFormed s) {i : Env × Input} {k : ConnId}
    (h : welcomesTo k (s.step i).outbound ≠ []) : acceptedConn i = [] := by
  obtain ⟨ev, t, hi, hk⟩ : ∃ ev t, i.2 = .inbound ev t ∧ ev.kind = .TcpFrame := by
    cases step_output hw i with
    | plain hn hp => exact absurd (welcomesTo_plain k hp) h
    | joined ev t _ _ _ _ _ hs => exact ⟨ev, t, hs.input, hs.kind⟩
    | reconnected ev t _ _ _ _ _ _ hs => exact ⟨ev, t, hs.input, hs.kind⟩
    | again ev t _ _ _ _ _ hs => exact ⟨ev, t, hs.input, hs.kind⟩
  obtain ⟨env, i⟩ := i
  cases hi
  exact if_neg (by rw [hk]; decide)

theorem ToldRole.step {s : ServerRuntime} {i : Env × Input} {k : ConnId} {role : Option UInt32} {used : List ConnId}
    (hw : WellFormed s) (ho : Owned used s.sessions) (h0 : 0 ∉ used) (hk : k ≠ 0) (hnot : closeCmd k ∉ (s.step i).outbound)
    (hhung : closedConn i ≠ some k) (hover : ¬ HandsOver s i) (hbyes : ¬ HostByes s i k) (h : ToldRole s k role) :
    ToldRole (s.step i) k ((framesTo k (s.step i).outbound).foldl hearRole role) := by
  rw [foldl_hearRole]
  change ToldRole _ k ((welcomesTo k (s.step i).outbound).foldl _ role)
  cases step_attended hw ho h0 i hk with
  | closed hc => exact absurd hc hnot
  | hungUp hc => exact absurd hc hhung
  | bye ev t p client header hs hconn hopen =>
    rw [welcomesTo_bye hw hs hopen]
    have hl : s.clients.lookup p = some client := frameTarget_client hs.target
    refine ⟨fun q e' he' hc => absurd (hc.trans hconn.symm) (bye_leaves hw ho hs hopen he'), fun _ => ?_⟩
    have hhost : s.world.hostPeerId ≠ p := by
      rintro rfl
      refine hbyes ⟨?_, client, hl, hconn⟩
      rw [byes, stepMoves_of_bye hs hopen]
      exact List.mem_singleton.mpr rfl
    exact (h.seated p _ (liveOf_some hl) hconn).trans (if_neg hhost)
  | welcomed p c isNew hl hconn hwelcomes =>
    obtain rfl : c.peerId = p := (hw.step i).keyed p c hl
    rw [hwelcomes, List.foldl_cons, List.foldl_nil, roleIn_welcomeOf]
    refine ⟨fun q e he hc => ?_, fun hnone => absurd hconn (hnone _ _ (liveOf_some hl))⟩
    have haccepted := acceptedConn_welcomed hw (hwelcomes ▸ List.cons_ne_nil _ _)
    rw [← accepted_stepMoves s i] at haccepted
    have hafter := (step_simulates hw i).steps.owned ho.dedup (by rw [haccepted, List.append_nil]; exact used.nodup_dedup) used.nodup_dedup
    rw [hafter.conn_unique he (liveOf_some hl) (hc.trans hconn.symm)]
  | same hwelcomes hstays =>
    rw [hwelcomes]
    refine ⟨fun p e' he' hc => ?_, fun hnone => h.unseated fun p e he hc => ?_⟩
    · obtain ⟨e, he, hconn, -⟩ := hstays.back p e' he' hc
      rw [host_kept hw hover he he']
      exact h.seated p e he hconn
    · obtain ⟨e', he', hconn, -⟩ := hstays.forth p e he hc
      exact hnone p e' he' hconn

end ServerRuntime

namespace Call
open Plugin ServerRuntime

def hostRole (net : NetRuntime) : Option UInt32 := if net.isHost then some net.myPeerId else none

theorem hostRole_welcomed (s : Session) (w : Welcome) : hostRole (s.welcomed w).net = roleIn w := by
  by_cases h : w.isHost = 0
  · simp [hostRole, roleIn, Session.welcomed, h]
  · simp [hostRole, roleIn, Session.welcomed, h]

theorem hostRole_undisturbed {s s' : Session} (h : Undisturbed s s') : hostRole s'.net = hostRole s.net := by
  have hhost : s'.net.isHost = s.net.isHost := congrArg Core.isHost h.core
  have hid : s'.net.myPeerId = s.net.myPeerId := congrArg Core.myPeerId h.core
  rw [hostRole, hostRole, hhost, hid]

/-- Only a Welcome changes the role, unless the client leaves. -/
theorem hostRole_handled (game : LocalGame) {buf : Bytes} {c : Plugin.Client Link}
    (h : endsSession c.session.net.myPeerId buf = false) :
    hostRole (handleMessage linkSockets game buf c).session.net = hearRole (hostRole c.session.net) buf := by
  unfold endsSession at h
  unfold handleMessage hearRole welcomeIn
  cases hh : headerOk (Header.decode buf) buf.length with
  | none => rfl
  | some type =>
    rw [hh] at h
    dsimp only
    cases type <;> simp only [reduceCtorEq, decide_eq_false_iff_not] at h
    case Welcome =>
      have hl : sizeofWelcome ≤ buf.length := headerOk_length hh fun _ => of_decide_eq_true
      rw [message, if_pos hl, hostRole_undisturbed (undisturbed_handleWelcome (S := linkSockets) game (Welcome.decode buf)
        { c with session.lastRecvSec := linkSockets.nowSec c.sockets }), hostRole_welcomed]
      rfl
    case Bye =>
      unfold message
      dsimp only
      rw [if_neg h]
      split <;> rfl
    all_goals
      unfold message
      dsimp only [onActorPose]
      repeat' split
      all_goals rfl

theorem mergeIncoming_role (net : NetRuntime) : hostRole (mergeIncoming net) = hostRole net := by
  have hfold : ∀ (qs : List QueuedPose) (net : NetRuntime), hostRole (qs.foldl mergePose net) = hostRole net := by
    intro qs
    induction qs with
    | nil => exact fun _ => rfl
    | cons q qs ih =>
      intro net
      rw [List.foldl_cons, ih]
      unfold mergePose
      dsimp only
      split <;> rfl
  exact hfold net.incoming net

/-- The role of the client, as the frames under way will leave it. -/
def roleHearing : Hearing (Option UInt32) where
  part s := hostRole s.net
  blank := none
  hear := hearRole
  joined h := if_neg (h.isHost ▸ Bool.false_ne_true)
  undisturbed := hostRole_undisturbed
  merged s := mergeIncoming_role s.net
  message := hostRole_handled
  invalid x buf h := by
    rw [hearRole, welcomeIn, h]
    rfl
  pose x buf h := by
    cases hw : welcomeIn buf with
    | none => rw [hearRole, hw, Option.elim_none]
    | some w =>
      have htype : u8At buf 4 = Msg.Welcome.code := welcomeIn_type hw
      unfold typeIs at h
      exfalso
      rw [htype] at h
      revert h
      decide

end Call

namespace Joint
open Call Plugin ServerRuntime

/-- The server's step neither hands the session over nor takes a host out that still has its connection. -/
def KeepsRole (s : ServerRuntime) (i : Env × ServerRuntime.Input) (k : ConnId) : Prop := ¬ HandsOver s i ∧ ¬ HostByes s i k

instance (s : ServerRuntime) (i : Env × ServerRuntime.Input) (k : ConnId) : Decidable (KeepsRole s i k) :=
  inferInstanceAs (Decidable (_ ∧ _))

theorem follows_toldRole : Follows roleHearing ToldRole fun s i k _ => KeepsRole s i k where
  unheard h := ⟨fun p e he hc => absurd hc (h p e he), fun _ => rfl⟩
  step hs ho h0 hk hnot hhung hkeeps h := h.step hs.wellFormed ho h0 hk hnot hhung hkeeps.1 hkeeps.2

/-- Every input that the server takes while the client has its connection keeps the role told there. -/
def KeepsHost (w : Joint) (a : Action) : Prop := Meets roleHearing (fun s i k _ => KeepsRole s i k) w a

/-- No call of the client is in the way. -/
theorem keepsHost_call (w : Joint) (os : Answers) (a : Call) : KeepsHost w (.call os a) := by
  intro game _
  obtain ⟨d, hd, he⟩ := undisturbed_prelude (S := linkSockets) game { w.client with sockets.os := os }
  have hprelude : hostRole (prelude linkSockets game { w.client with sockets.os := os }).session.net = hostRole d.session.net := by
    rw [he]
    rfl
  exact hprelude.trans (hostRole_undisturbed hd)

/-- The client is host, and knows the id it is host under, exactly when its session on the server is. -/
structure HostAgrees (w : Joint) : Prop where
  live : ∀ p c, w.server.clients.lookup p = some c → c.connId = w.client.sockets.conn →
    (w.client.session.net.isHost = true ↔ w.server.world.hostPeerId = p) ∧
      (w.client.session.net.isHost = true → w.client.session.net.myPeerId = p)
  out : (∀ p c, w.server.clients.lookup p = some c → c.connId ≠ w.client.sockets.conn) → w.client.session.net.isHost = false

theorem ToldRole.hostAgrees {w : Joint} (h : ToldRole w.server w.client.sockets.conn (hostRole w.client.session.net)) :
    HostAgrees w where
  live p c hl hc := by
    have hrole := h.seated p _ (liveOf_some hl) hc
    unfold hostRole at hrole
    cases hhost : w.client.session.net.isHost with
    | true =>
      rw [hhost, if_pos rfl] at hrole
      split at hrole
      · rename_i hp
        exact ⟨iff_of_true rfl hp, fun _ => Option.some.inj hrole⟩
      · cases hrole
    | false =>
      rw [hhost, if_neg Bool.false_ne_true] at hrole
      split at hrole
      · cases hrole
      · rename_i hp
        exact ⟨iff_of_false Bool.false_ne_true hp, fun h => absurd h Bool.false_ne_true⟩
  out hnone := by
    have hrole := h.unseated fun p e he hc => by
      obtain ⟨c, hl, rfl⟩ := liveOf_eq_some.mp he
      exact hnone p c hl hc
    unfold hostRole at hrole
    split at hrole
    · cases hrole
    · rename_i hhost
      exact eq_false_of_ne_true hhost

/-- In every run that hands the session over to nobody: when no TCP message is under way, a client in a session is host
exactly if the server has it as host. -/
theorem hostAgrees_of_kept (b : Startup) (settings : Settings) (as : List Action)
    (ha : AllSteps Joint.step KeepsHost (start b settings) as) (hs : Settled (run Joint.step (start b settings) as))
    (hj : (run Joint.step (start b settings) as).client.session.net.joined = true) :
    HostAgrees (run Joint.step (start b settings) as) := by
  have hstep := inStep_run follows_toldRole b settings ha
  exact ToldRole.hostAgrees (hstep.settled hs (hstep.linked.attached.conn hj))

/-- The first player hosts, and a second one comes and says Bye. -/
def guestLeaves : List Joint.Action :=
  [.call firstAnswers (.join outdoors 0), .serve 1 plainEnv 1 0, .serve 1 plainEnv 1 0, .other (acceptAt 2 ⟨10, 0, 0, 2, 1000⟩),
    .other (frameAt 2 0 (helloFrame (ascii "b"))), .other (frameAt 2 2 (makeBye 2).encode), .call firstAnswers (.begin outdoors),
    .call firstAnswers (.turn outdoors), .call firstAnswers (.turn outdoors), .call firstAnswers (.turn outdoors),
    .serve 1 plainEnv 1 1]

theorem keepsHost_guestLeaves : AllSteps Joint.step KeepsHost onePlayer guestLeaves := by
  have call : ∀ {w : Joint} {os a}, KeepsHost w (.call os a) := keepsHost_call _ _ _
  have other : ∀ {w : Joint} {i}, KeepsRole w.server i w.client.sockets.conn → KeepsHost w (.other i) := fun h _ _ => h
  have serve : ∀ {w : Joint} {c env t stamp},
      (∀ r ∈ takeItem c w.client.sockets.up, KeepsRole w.server (env, .inbound (r.1.event c stamp) t) w.client.sockets.conn) →
        KeepsHost w (.serve c env t stamp) := fun h r hr _ _ => h r hr
  refine ⟨call, serve ?_, serve ?_, other ?_, other ?_, other ?_, call, call, call, call, serve ?_, trivial⟩ <;> decide +kernel

theorem hostAgrees_of_kept_guestLeaves :
    HostAgrees (run Joint.step onePlayer guestLeaves) ∧ (run Joint.step onePlayer guestLeaves).client.session.net.isHost = true :=
  ⟨hostAgrees_of_kept freshStart { playerKey := ascii "a" } guestLeaves keepsHost_guestLeaves
    ⟨by decide +kernel, by decide +kernel, by decide +kernel⟩ (by decide +kernel), by decide +kernel⟩

/-- The player joins a session whose host says Bye. -/
def hostSaysBye : List Joint.Action :=
  [.other (acceptAt 2 ⟨10, 0, 0, 2, 1000⟩), .other (frameAt 2 0 (helloFrame (ascii "b"))), .call firstAnswers (.join outdoors 0),
    .serve 1 plainEnv 1 0, .serve 1 plainEnv 1 0, .call firstAnswers (.begin outdoors), .call firstAnswers (.turn outdoors),
    .call firstAnswers (.turn outdoors), .serve 1 plainEnv 1 2, .other (frameAt 2 1 (makeBye 1).encode),
    .call firstAnswers (.turn outdoors)]

/-- The server has the player as host, who has not been told. -/
theorem not_hostAgrees_hostSaysBye :
    Settled (run Joint.step onePlayer hostSaysBye) ∧ (run Joint.step onePlayer hostSaysBye).client.session.net.joined = true ∧
      ¬ HostAgrees (run Joint.step onePlayer hostSaysBye) := by
  refine ⟨⟨by decide +kernel, by decide +kernel, by decide +kernel⟩, by decide +kernel, fun h => ?_⟩
  have hlive : ((run Joint.step onePlayer hostSaysBye).server.clients.lookup 2).map (·.connId) =
      some (run Joint.step onePlayer hostSaysBye).client.sockets.conn := by decide +kernel
  obtain ⟨c, hl, hc⟩ := Option.map_eq_some_iff.mp hlive
  have hhost : (run Joint.step onePlayer hostSaysBye).client.session.net.isHost = true := (h.live 2 c hl hc).1.mpr (by decide +kernel)
  revert hhost
  decide +kernel

end Joint
end CommonwealthMP
