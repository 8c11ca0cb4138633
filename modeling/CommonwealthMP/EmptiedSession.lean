import CommonwealthMP.Welcomes
import CommonwealthMP.HostWorld

/-! # Admission to an emptied session

What a Hello meets in a server nobody is connected to, compared with a server freshly started
from the same settings, bans and records. -/
namespace CommonwealthMP
open ByteLayout Binary32 OrderedTables SessionTable
namespace ServerRuntime

/-- What a frame of a pending connection comes to, as far as admission goes. -/
inductive Decision
  | accepted
  | rejected (reason : RejectReason)
  | undecided
  deriving DecidableEq, Repr

def PendingExit.decision : PendingExit → Decision
  | .dropped => .undecided
  | .answered => .undecided
  | .rejected reason => .rejected reason
  | .rolledBack => .rejected .NoHost
  | .reconnected _ => .accepted
  | .joined _ _ => .accepted

/-- The runtime with no calls counted against the rate limits. -/
def unlimited (s : ServerRuntime) : ServerRuntime := { s with queryRates := ∅, helloRates := ∅ }

def decision (env : Env) (s : ServerRuntime) (pending : PendingTcp) (buf : Bytes) (t : Time) : Decision :=
  (handlePendingMessage env s.unlimited pending buf t).exit.decision

theorem allowRate_empty (key : Bytes) (t : Time) {maxPerSec : ℤ} (h : 1 ≤ maxPerSec) :
    (allowRate ∅ key t maxPerSec).1 = true := by
  unfold allowRate
  dsimp only
  rw [AList.lookup_empty, Option.getD_none]
  split <;> exact decide_eq_true h

section Hello
variable {s s' : ServerRuntime} {pending : PendingTcp} {buf : Bytes} {header : Header} {t : Time}

theorem handlePendingMessage_refused (env : Env) (ho : openFrame buf = some (header, .Hello)) (hsize : sizeofHello ≤ buf.length)
    (hrate : (allowRate s.helloRates (addrKey pending.addr) t 2).1 = true) {refusal : RejectReason × Bytes}
    (hg : helloGates (s.countHello pending t) header (readHello buf) = (s', some refusal)) :
    handlePendingMessage env s pending buf t =
      ⟨s'.queue (rejectConn pending.connId refusal.1 refusal.2), pending, .rejected refusal.1⟩ := by
  unfold handlePendingMessage
  rw [ho]
  dsimp only
  rw [if_neg (by simp), if_neg (by simpa using hsize), hrate, show { s with
    helloRates := (allowRate s.helloRates (addrKey pending.addr) t 2).2 } = s.countHello pending t from rfl, hg]
  rfl

theorem handlePendingMessage_passed (env : Env) (ho : openFrame buf = some (header, .Hello)) (hsize : sizeofHello ≤ buf.length)
    (hrate : (allowRate s.helloRates (addrKey pending.addr) t 2).1 = true)
    (hg : helloGates (s.countHello pending t) header (readHello buf) = (s', none)) :
    handlePendingMessage env s pending buf t = admitHello env s' pending (readHello buf) t := by
  unfold handlePendingMessage
  rw [ho]
  dsimp only
  rw [if_neg (by simp), if_neg (by simpa using hsize), hrate, show { s with
    helloRates := (allowRate s.helloRates (addrKey pending.addr) t 2).2 } = s.countHello pending t from rfl, hg]
  rfl

end Hello

section Empty
variable {s : ServerRuntime} (he : s.clients = ∅)
include he

theorem hostGate_empty : (hostGate s).2 = some (.NoHost, ascii "need a live host in the world") := by
  unfold hostGate
  rw [he, findHost_of_empty s.world rfl]
  rfl

theorem capacityGate_empty (hello : Hello) :
    capacityGate s hello = if s.cfg.maxPlayers ≤ 0 then some (.Full, ascii "server full") else none := by
  unfold capacityGate findByKey
  rw [he]
  exact if_congr (and_iff_right rfl) rfl rfl

theorem admitHello_empty (env : Env) {hello : Hello} (hr : helloRequiresHost hello = false) (pending : PendingTcp) (t : Time) :
    (admitHello env s pending hello t).exit.decision = .accepted := by
  have hf : findByKey s (helloKey hello) = none := by
    unfold findByKey
    rw [he]
    rfl
  rw [admitHello_join env hf (fun h => by rw [hr] at h; cases h)]
  rfl

/-- The gates of a Hello, in the order they decide. -/
theorem helloGates_empty (header : Header) (hello : Hello) :
    (∃ refusal, contentGates s header hello = some refusal ∧ helloGates s header hello = (s, some refusal)) ∨
      contentGates s header hello = none ∧
        ((helloRequiresHost hello = true ∧ ∃ s' text, helloGates s header hello = (s', some (.NoHost, text))) ∨
          helloRequiresHost hello = false ∧ helloGates s header hello = (s, capacityGate s hello)) := by
  unfold helloGates
  cases hc : contentGates s header hello with
  | some refusal => exact .inl ⟨refusal, rfl, rfl⟩
  | none =>
    refine .inr ⟨rfl, ?_⟩
    dsimp only
    cases hr : helloRequiresHost hello with
    | true =>
      have hg := hostGate_empty he
      rcases hh : hostGate s with ⟨world, refusal⟩
      rw [hh] at hg
      dsimp only at hg
      subst hg
      exact .inl ⟨rfl, _, _, if_pos rfl⟩
    | false => exact .inr ⟨rfl, if_neg (by decide)⟩

/-- The verdict on a Hello frame in a server without clients. -/
theorem decision_empty (env : Env) (pending : PendingTcp) {buf : Bytes} {header : Header}
    (ho : openFrame buf = some (header, .Hello)) (t : Time) :
    decision env s pending buf t =
      match contentGates s header (readHello buf) with
      | some refusal => .rejected refusal.1
      | none =>
        if helloRequiresHost (readHello buf) then .rejected .NoHost
        else if s.cfg.maxPlayers ≤ 0 then .rejected .Full
        else .accepted := by
  let s₁ : ServerRuntime := s.unlimited.countHello pending t
  have hsize := sizeofHello_le ho
  have hrate : (allowRate s.unlimited.helloRates (addrKey pending.addr) t 2).1 = true := by
    rw [unlimited, allowRate_empty _ _ (by decide)]
  have hcontent : contentGates s₁ header (readHello buf) = contentGates s header (readHello buf) := rfl
  have hcfg : s₁.cfg = s.cfg := rfl
  rw [decision, ← hcontent]
  rcases helloGates_empty (s := s₁) he header (readHello buf) with ⟨refusal, hc, hg⟩ | ⟨hc, ⟨hr, s', text, hg⟩ | ⟨hr, hg⟩⟩
  · rw [hc, handlePendingMessage_refused env ho hsize hrate hg]
    rfl
  · rw [hc, handlePendingMessage_refused env ho hsize hrate hg, hr]
    rfl
  · rw [capacityGate_empty (s := s₁) he, hcfg] at hg
    by_cases hm : s.cfg.maxPlayers ≤ 0
    · rw [if_pos hm] at hg
      rw [hc, handlePendingMessage_refused env ho hsize hrate hg, hr]
      exact (if_pos hm).symm
    · rw [if_neg hm] at hg
      rw [hc, handlePendingMessage_passed env ho hsize hrate hg, hr]
      exact (admitHello_empty (s := s₁) he env hr pending t).trans (if_neg hm).symm

end Empty

theorem decision_other (env : Env) (pending : PendingTcp) {buf : Bytes} (ho : ∀ header, openFrame buf ≠ some (header, .Hello))
    (t : Time) : decision env s pending buf t = .undecided := by
  unfold decision handlePendingMessage
  cases hf : openFrame buf with
  | none => rfl
  | some frame =>
    obtain ⟨header, type⟩ := frame
    dsimp only
    split
    · split <;> rfl
    · rw [if_pos (.inl fun h => ho header (by rw [hf, h]))]
      rfl

/-- A pinned mod list is the one that is checked. -/
def PinHeld (s : ServerRuntime) : Prop := s.cfg.modHash ≠ 0 → s.sessionModHash = s.cfg.modHash

/-- The pin is the same, and the lock has moved only if it was open. -/
structure KeepsPin (s s' : ServerRuntime) : Prop where
  modHash : s'.cfg.modHash = s.cfg.modHash
  lock : s'.sessionModHash = s.sessionModHash ∨ s.sessionModHash = 0

theorem KeepsPin.pinHeld {s s' : ServerRuntime} (h : KeepsPin s s') (hp : PinHeld s) : PinHeld s' := by
  intro hne
  rw [h.modHash] at hne ⊢
  rcases h.lock with he | h0
  · exact he.trans (hp hne)
  · exact absurd ((hp hne).symm.trans h0) hne

/-- The settings are the same, and the lock has moved only if it was open. -/
structure KeepsSettings (s s' : ServerRuntime) : Prop where
  cfg : s'.cfg = s.cfg
  lock : s'.sessionModHash = s.sessionModHash ∨ s.sessionModHash = 0

theorem KeepsSettings.keepsPin {s s' : ServerRuntime} (h : KeepsSettings s s') : KeepsPin s s' :=
  ⟨congrArg ServerConfig.modHash h.cfg, h.lock⟩

theorem KeepsSettings.of_eq {s s' : ServerRuntime} (hc : s'.cfg = s.cfg) (hl : s'.sessionModHash = s.sessionModHash) :
    KeepsSettings s s' := ⟨hc, .inl hl⟩

theorem KeepsSettings.trans {s s' s'' : ServerRuntime} (h : KeepsSettings s s') (h' : KeepsSettings s' s'') : KeepsSettings s s'' := by
  refine ⟨h'.cfg.trans h.cfg, ?_⟩
  rcases h.lock with he | h0
  · rcases h'.lock with he' | h0'
    · exact .inl (he'.trans he)
    · exact .inr (he ▸ h0')
  · exact .inr h0

theorem Steady.keepsSettings {s s' : ServerRuntime} (h : Steady s s') : KeepsSettings s s' :=
  .of_eq h.cfg h.sessionModHash

theorem keepsSettings_removeClient (env : Env) (s : ServerRuntime) (id : PeerId) (keepTcp : Bool) :
    KeepsSettings s (removeClient env s id keepTcp) := by
  cases h : s.clients.lookup id with
  | none =>
    rw [removeClient_of_absent env h]
    exact .of_eq rfl rfl
  | some client =>
    obtain ⟨persist, he⟩ := removeClient_eq env h keepTcp
    rw [he]
    exact .of_eq rfl rfl

theorem keepsSettings_removals (env : Env) (keep : PeerId → Bool) (s : ServerRuntime) (ids : List PeerId) :
    KeepsSettings s (ids.foldl (fun s id => removeClient env s id (keep id)) s) := by
  induction ids generalizing s with
  | nil => exact .of_eq rfl rfl
  | cons id ids ih => exact (keepsSettings_removeClient env s id (keep id)).trans (ih _)

theorem keepsSettings_tcpWorldSnapshot (s : ServerRuntime) (client : Client) (buf : Bytes) :
    KeepsSettings s (tcpWorldSnapshot s client buf) := by
  rcases tcpWorldSnapshot_cases s client buf with ⟨-, he⟩ | ⟨-, world, -, he⟩ <;> rw [he] <;> exact .of_eq rfl rfl

theorem keepsSettings_tcpMessage (env : Env) {s : ServerRuntime} {id : PeerId} {client : Client} (hl : s.clients.lookup id = some client)
    (type : Msg) (buf : Bytes) (t : Time) : KeepsSettings s (tcpMessage env s type id client buf t) := by
  apply tcpMessage_cases (P := KeepsSettings s)
  case unhandled => exact .of_eq rfl rfl
  case bye => exact fun _ => .of_eq rfl rfl
  case hello => exact fun _ => (steady_helloAgain hl).keepsSettings
  case snapshot => exact fun _ => keepsSettings_tcpWorldSnapshot s client buf
  case chunk => exact fun _ => (steady_tcpBlobChunk env s type id client buf t).keepsSettings
  case heartbeat => exact fun _ => .of_eq rfl rfl
  case chat => exact fun _ => (steady_tcpChat s client buf t).keepsSettings
  case kick => exact fun _ => (steady_tcpKick s client buf).keepsSettings
  case teleport => exact fun _ => (steady_tcpTeleport s client buf).keepsSettings
  case hit => exact fun _ => (steady_tcpHit s client buf t).keepsSettings

theorem keepsSettings_handleClientFrame (env : Env) {s : ServerRuntime} {id : PeerId} {client : Client}
    (hl : s.clients.lookup id = some client) (buf : Bytes) (t : Time) :
    KeepsSettings s (handleClientFrame env s id client buf t) := by
  have hmsg : KeepsSettings s (handleTcpMessage env { s with removePeers := [], keepTcpPeers := [] } id client buf t) := by
    unfold handleTcpMessage
    split
    · exact .of_eq rfl rfl
    · split
      · exact .of_eq rfl rfl
      · rename_i header type ho hm
        have h := keepsSettings_tcpMessage env (s := ({ s with removePeers := [], keepTcpPeers := [] } : ServerRuntime).seen id t)
          (lookup_seen hl t) type buf t
        exact ⟨h.cfg, h.lock⟩
  unfold handleClientFrame
  dsimp only
  generalize handleTcpMessage env { s with removePeers := [], keepTcpPeers := [] } id client buf t = s₁ at hmsg ⊢
  have h := hmsg.trans (keepsSettings_removals env (fun id => s₁.keepTcpPeers.contains id) s₁ s₁.removePeers)
  exact ⟨h.cfg, h.lock⟩

theorem keepsSettings_completeJoin (s : ServerRuntime) (id : PeerId) (hello : Hello) (rec_ : PlayerRec) :
    KeepsSettings s (completeJoin s id hello rec_) := by
  cases h : s.clients.lookup id with
  | none =>
    rw [completeJoin, h]
    exact .of_eq rfl rfl
  | some joined =>
    have hc : completeJoin s id hello rec_ =
        (adoptHostWorld s joined hello).queue (welcomeMessages (adoptHostWorld s joined hello) joined hello rec_) := by
      rw [completeJoin, h]
    rw [hc]
    unfold adoptHostWorld
    split
    · refine ⟨rfl, ?_⟩
      dsimp only [queue]
      split
      · rename_i hopen
        exact .inr hopen.1
      · exact .inl rfl
    · exact .of_eq rfl rfl

theorem keepsSettings_admitHello (env : Env) {s : ServerRuntime} {hello : Hello}
    (hhost : helloRequiresHost hello = true → s.world.hostPeerId ≠ 0) (pending : PendingTcp) (t : Time) :
    KeepsSettings s (admitHello env s pending hello t).runtime := by
  cases hf : findByKey s (helloKey hello) with
  | some e =>
    obtain ⟨id, client⟩ := e
    have hl : (enterRecord s hello).clients.lookup id = some client := (findByKey_some hf).1
    have hr := (steady_softReconnect hl pending hello (helloRecord s hello) t).keepsSettings
    rw [admitHello_reconnect env hf]
    have h := hr.trans (keepsSettings_completeJoin _ id hello (helloRecord s hello))
    exact ⟨h.cfg, h.lock⟩
  | none =>
    rw [admitHello_join env hf hhost]
    have h := keepsSettings_completeJoin ((takeHost (insertJoining env (enterRecord s hello) pending hello (helloRecord s hello) t)
      s.nextPeer).queue (bindPeer pending.connId s.nextPeer)) s.nextPeer hello (helloRecord s hello)
    exact ⟨h.cfg, h.lock⟩

theorem keepsSettings_handlePendingFrame (env : Env) {s : ServerRuntime} (hk : Keyed s.clients) (hok : Ok s.sessions)
    (pending : PendingTcp) (buf : Bytes) (t : Time) : KeepsSettings s (handlePendingFrame env s pending buf t) := by
  obtain ⟨ps, hframe⟩ := handlePendingFrame_eq env s pending buf t
  rw [hframe]
  rcases handlePendingMessage_cases env hk hok pending buf t with hu | ⟨header, ha, he⟩
  · rw [hu.runtime]
    exact .of_eq rfl rfl
  · rw [he]
    have h := keepsSettings_admitHello env (s := s.countHello pending t) (fun hr => hostGate_hostPeerId (ha.host hr)) pending t
    exact ⟨h.cfg, h.lock⟩

theorem keepsSettings_handleUdpPacket {s : ServerRuntime} (hok : Ok s.sessions) (buf : Bytes) (from_ : SockAddr) (t : Time) :
    KeepsSettings s (handleUdpPacket s buf from_ t) := by
  have hcase := handleUdpPacket_cases hok buf from_ t
  generalize handleUdpPacket s buf from_ t = s' at hcase ⊢
  cases hcase with
  | bind id ha =>
    have h := (steady_udpBind (s := s.countDatagram) ha from_ t).keepsSettings
    exact ⟨h.cfg, h.lock⟩
  | ignored badHeaders ha => exact .of_eq rfl rfl
  | short id client ha hu hl => exact .of_eq rfl rfl
  | playerPose id client header ha hu hl ho =>
    rcases udpPlayerPose_cases (s.countDatagram.seen id t) id { client with lastSeen := t } buf t with
      ⟨-, he⟩ | ⟨-, _, ⟨-, he⟩ | ⟨-, world, -, he⟩⟩ <;> rw [he] <;> exact .of_eq rfl rfl
  | actorPose id client header ha hu hl ho =>
    have h := (steady_udpActorPose (s.countDatagram.seen id t) { client with lastSeen := t } buf).keepsSettings
    exact ⟨h.cfg, h.lock⟩

/-- A reload moves pin and lock together; nothing else on the console touches them. -/
theorem pinHeld_runAdminCommand (env : Env) {s : ServerRuntime} (hp : PinHeld s) (cmdLine : Bytes) :
    PinHeld (runAdminCommand env s cmdLine) := by
  apply adminLine_cases (P := PinHeld)
  case kick =>
    intro _ _ _ _ _ id client doBan _ hl
    obtain ⟨dirty, he⟩ := kickClient_eq hl doBan
    rw [he]
    exact hp
  case save =>
    rw [adminSave, flushDirtyAsync_eq]
    exact hp
  case reload =>
    intro reloaded hload
    by_cases hr : reloaded.modHash = 0
    · intro hne
      simp only [broadcastSessionRules, queue, hr, ne_eq, not_true_eq_false, if_false] at hne ⊢
      exact hp hne
    · intro hne
      simp only [broadcastSessionRules, queue, hr, ne_eq, not_false_eq_true, if_true]
  all_goals
    intros
    exact hp

/-- Only the console changes the settings. -/
theorem keepsSettings_step {s : ServerRuntime} (hw : WellFormed s) {i : Env × Input} (hi : ∀ cmdLine, i.2 ≠ .admin cmdLine) :
    KeepsSettings s (s.step i) := by
  suffices h : KeepsSettings s.ready (s.step i) from ⟨h.cfg, h.lock⟩
  obtain ⟨env, i⟩ := i
  unfold ServerRuntime.step handle
  cases i with
  | inbound ev t =>
    dsimp only
    unfold applyInbound
    cases hev : ev.kind with
    | TcpAccept => exact .of_eq rfl rfl
    | TcpFrame =>
      dsimp only
      cases ht : frameTarget s.ready ev with
      | client id client => exact keepsSettings_handleClientFrame env (s := s.ready) (frameTarget_client ht) ev.bytes t
      | pending pending => exact keepsSettings_handlePendingFrame env (s := s.ready) hw.keyed hw.ok pending ev.bytes t
      | nobody => exact .of_eq rfl rfl
    | TcpClosed =>
      dsimp only
      split
      · have h := keepsSettings_removeClient env
          { s.ready with pendingTcp := s.ready.pendingTcp.filter fun p => p.connId ≠ ev.connId } ev.peerId false
        exact ⟨h.cfg, h.lock⟩
      · split
        · rename_i id client hf
          have h := keepsSettings_removeClient env { s.ready with
            pendingTcp := s.ready.pendingTcp.filter fun p => p.connId ≠ ev.connId
            clients := s.ready.clients.modify id fun c => { c with connId := 0 } } client.peerId false
          exact ⟨h.cfg, h.lock⟩
        · exact .of_eq rfl rfl
    | UdpDatagram => exact keepsSettings_handleUdpPacket (s := s.ready) hw.ok ev.bytes ev.addr t
  | expirePending t => exact .of_eq rfl rfl
  | expireClients t => exact keepsSettings_removals env (fun _ => false) s.ready _
  | sendHeartbeat => exact .of_eq rfl rfl
  | flushDirty =>
    dsimp only
    rw [flushDirtyAsync_eq]
    exact .of_eq rfl rfl
  | admin cmdLine => exact absurd rfl (hi cmdLine)

theorem pinHeld_step {s : ServerRuntime} (hw : WellFormed s) (hp : PinHeld s) (i : Env × Input) : PinHeld (s.step i) := by
  by_cases hi : ∃ cmdLine, i.2 = .admin cmdLine
  · obtain ⟨cmdLine, hi⟩ := hi
    rw [ServerRuntime.step, hi]
    exact pinHeld_runAdminCommand i.1 (s := s.ready) hp cmdLine
  · push Not at hi
    exact (keepsSettings_step hw hi).keepsPin.pinHeld hp

theorem Reachable.pinHeld {s : ServerRuntime} (h : Reachable s) : PinHeld s := by
  have hboth : WellFormed s ∧ PinHeld s := by
    refine h.induction (I := fun s => WellFormed s ∧ PinHeld s) (fun b => ⟨wellFormed_initial b, fun _ => rfl⟩) ?_
    intro s i hs
    exact ⟨hs.1.step i, pinHeld_step hs.1 hs.2 i⟩
  exact hboth.2

/-- The refusal of the mod list gate. -/
def lockGate (lock : UInt32) (hello : Hello) : Option (RejectReason × Bytes) :=
  if lock ≠ 0 ∧ hello.modHash ≠ lock then some (.ModMismatch, ascii "mod list mismatch") else none

theorem contentGates_lock (s : ServerRuntime) (header : Header) (hello : Hello) :
    contentGates s header hello =
      (contentGates { s with sessionModHash := 0 } header hello).or (lockGate s.sessionModHash hello) := by
  unfold contentGates lockGate
  dsimp only
  split_ifs <;> first | rfl | simp_all

/-- A Hello that passes the gates before the mod list, while the list is not pinned but locked by
a host that is gone, to another one than the Hello's. -/
structure LockedOut (s : ServerRuntime) (buf : Bytes) : Prop where
  hello : ∃ header, openFrame buf = some (header, .Hello) ∧
    contentGates { s with sessionModHash := 0 } header (readHello buf) = none
  unpinned : s.cfg.modHash = 0
  locked : s.sessionModHash ≠ 0
  differs : (readHello buf).modHash ≠ s.sessionModHash

/-- A server that is started now, with the settings, bans and records of a running one. -/
def restarted (s : ServerRuntime) (world : SessionWorld) : Startup := ⟨s.cfg, world, s.players, s.bannedKeys⟩

/-- An emptied session decides on a frame as a restarted server does, but for the players its
last host's mod list still locks out. -/
theorem emptied_admission_iff (s : ServerRuntime) (hr : Reachable s) (he : s.clients = ∅) (world : SessionWorld) (env : Env)
    (pending : PendingTcp) (buf : Bytes) (t : Time) :
    decision env s pending buf t = decision env (s.restarted world).runtime pending buf t ↔ ¬ LockedOut s buf := by
  by_cases hh : ∃ header, openFrame buf = some (header, .Hello)
  · obtain ⟨header, ho⟩ := hh
    have hfresh : contentGates (s.restarted world).runtime header (readHello buf) =
        (contentGates { s with sessionModHash := 0 } header (readHello buf)).or (lockGate s.cfg.modHash (readHello buf)) :=
      contentGates_lock (s.restarted world).runtime header (readHello buf)
    have hcfg : (s.restarted world).runtime.cfg = s.cfg := rfl
    rw [decision_empty he env pending ho, decision_empty (s := (s.restarted world).runtime) rfl env pending ho,
      contentGates_lock s header (readHello buf), hfresh, hcfg]
    cases hg : contentGates { s with sessionModHash := 0 } header (readHello buf) with
    | some refusal =>
      refine iff_of_true rfl fun hl => ?_
      obtain ⟨header', ho', hn⟩ := hl.hello
      obtain rfl : header = header' := by
        rw [ho] at ho'
        exact (Prod.mk.inj (Option.some.inj ho')).1
      rw [hg] at hn
      cases hn
    | none =>
      rw [Option.none_or, Option.none_or]
      by_cases hpin : s.cfg.modHash = 0
      · have hopen : lockGate s.cfg.modHash (readHello buf) = none := if_neg fun h => h.1 hpin
        rw [hopen]
        by_cases hl : s.sessionModHash ≠ 0 ∧ (readHello buf).modHash ≠ s.sessionModHash
        · refine iff_of_false ?_ (not_not.mpr ⟨⟨header, ho, hg⟩, hpin, hl.1, hl.2⟩)
          rw [lockGate, if_pos hl]
          dsimp only
          split_ifs <;> decide
        · refine iff_of_true ?_ fun h => hl ⟨h.locked, h.differs⟩
          rw [lockGate, if_neg hl]
      · rw [hr.pinHeld hpin]
        exact iff_of_true rfl fun h => hpin h.unpinned
  · have hno : ∀ header, openFrame buf ≠ some (header, .Hello) := fun header ho => hh ⟨header, ho⟩
    rw [decision_other env pending hno, decision_other env pending hno]
    exact iff_of_true rfl fun h => hh (h.hello.imp fun _ h => h.1)

/-- The Hello of a player with a mod list. -/
def moddedHello (key : Bytes) (modHash : UInt32) : Bytes :=
  (makeHello key key true kCommonwealthWorldspace ⟨0⟩ ⟨0⟩ 0 ⟨0⟩ ⟨0⟩ ⟨0⟩ false 0 modHash []).encode

/-- The only player joins with a mod list and leaves. -/
def hostLeaves : List (Env × Input) :=
  [acceptAt 1 ⟨10, 0, 0, 1, 1000⟩, frameAt 1 0 (moddedHello (ascii "a") 0xAAAA), frameAt 1 1 (makeBye 1).encode]

theorem hostLeaves_empty : (runFrom freshStart hostLeaves).clients = ∅ := by
  have hs : (runFrom freshStart hostLeaves).clients.values.length = 0 := by decide +kernel
  refine AList.ext ?_
  rw [OrderedTables.Table.values, List.length_map] at hs
  exact List.eq_nil_of_length_eq_zero hs

theorem emptied_admission_iff_hostLeaves :
    decision plainEnv (runFrom freshStart hostLeaves) { connId := 2 } (moddedHello (ascii "b") 0xAAAA) 5 =
        decision plainEnv ((runFrom freshStart hostLeaves).restarted {}).runtime { connId := 2 }
          (moddedHello (ascii "b") 0xAAAA) 5 ↔
      ¬ LockedOut (runFrom freshStart hostLeaves) (moddedHello (ascii "b") 0xAAAA) :=
  emptied_admission_iff _ ⟨freshStart, hostLeaves, rfl⟩ hostLeaves_empty {} plainEnv _ _ _

theorem not_emptied_like_restarted :
    Reachable (runFrom freshStart hostLeaves) ∧ (runFrom freshStart hostLeaves).clients = ∅ ∧
      decision plainEnv (runFrom freshStart hostLeaves) { connId := 2 } (moddedHello (ascii "b") 0xBBBB) 5 =
        .rejected .ModMismatch ∧
      decision plainEnv ((runFrom freshStart hostLeaves).restarted {}).runtime { connId := 2 }
        (moddedHello (ascii "b") 0xBBBB) 5 = .accepted :=
  ⟨⟨freshStart, hostLeaves, rfl⟩, hostLeaves_empty, by decide +kernel, by decide +kernel⟩

end ServerRuntime
end CommonwealthMP
