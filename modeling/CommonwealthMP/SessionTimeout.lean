import CommonwealthMP.PluginClient
import CommonwealthMP.StepRuns

/-! # The server timeout of the client

The time of the last packet belongs to the process, not to the session. To say when a session
was joined and what it has received, the sockets are wrapped: each connection starts an empty
log, and every buffer read from it is logged with the time at which it is read. -/
namespace CommonwealthMP.Plugin
open ByteLayout OrderedTables StepRuns

abbrev PacketLog := List (Time × Bytes)

/-- Sockets that log what is read since the last connection. -/
def heardSockets {σ : Type} (S : Sockets σ) : Sockets (σ × PacketLog) where
  nowSec w := S.nowSec w.1
  startup w := ((S.startup w.1).1, (S.startup w.1).2, w.2)
  shutdown w := (S.shutdown w.1, w.2)
  tcpConnected w := S.tcpConnected w.1
  tcpConnect w := ((S.tcpConnect w.1).1, (S.tcpConnect w.1).2, [])
  tcpSend data w := ((S.tcpSend data w.1).1, (S.tcpSend data w.1).2, w.2)
  tcpRecvFrame w :=
    match S.tcpRecvFrame w.1 with
    | (.frame buf, w') => (.frame buf, w', w.2 ++ [(S.nowSec w', buf)])
    | (received, w') => (received, w', w.2)
  udpSend data w := ((S.udpSend data w.1).1, (S.udpSend data w.1).2, w.2)
  udpRecv w :=
    match S.udpRecv w.1 with
    | (some buf, w') => (some buf, w', w.2 ++ [(S.nowSec w', buf)])
    | (none, w') => (none, w', w.2)

/-- The packets of a log: the buffers whose header `HandleMessage` accepts. -/
def packets (log : PacketLog) : PacketLog := log.filter fun e => (headerOk (Header.decode e.2) e.2.length).isSome

/-- No function of the sockets turns the clock back. -/
structure SteadyClock {σ : Type} (S : Sockets σ) : Prop where
  tcpSend : ∀ data w, S.nowSec w ≤ S.nowSec (S.tcpSend data w).2
  udpSend : ∀ data w, S.nowSec w ≤ S.nowSec (S.udpSend data w).2
  tcpRecvFrame : ∀ w, S.nowSec w ≤ S.nowSec (S.tcpRecvFrame w).2
  udpRecv : ∀ w, S.nowSec w ≤ S.nowSec (S.udpRecv w).2

/-- A property of the network that sends keep. -/
structure StableBySends {σ : Type} (S : Sockets σ) (Q : σ → Prop) : Prop where
  tcp : ∀ data w, Q w → Q (S.tcpSend data w).2
  udp : ∀ data w, Q w → Q (S.udpSend data w).2

section Stable
variable {σ : Type} {S : Sockets σ} {Q : σ → Prop} {c : Client σ} (hs : StableBySends S Q)
include hs

theorem stable_sendChunks (type : Msg) (blob : Bytes) (h : Q c.sockets) : Q (sendChunks S type blob c).sockets := by
  unfold sendChunks
  split
  · exact h
  · rename_i packets _
    clear * - hs h
    induction packets generalizing c with
    | nil => exact h
    | cons packet packets ih => exact ih (c := tcpSend S packet c) (hs.tcp packet _ h)

theorem stable_sendAppearance (game : LocalGame) (force : Bool) (h : Q c.sockets) :
    Q (sendAppearance S game force c).sockets := by
  unfold sendAppearance
  dsimp only
  split
  · exact h
  · split
    · exact h
    · split
      · exact h
      · exact stable_sendChunks hs _ _ (by exact h)

theorem stable_sendInventory (game : LocalGame) (force : Bool) (h : Q c.sockets) :
    Q (sendInventory S game force c).sockets := by
  unfold sendInventory
  dsimp only
  split
  · exact h
  · split
    · exact h
    · split
      · exact h
      · exact stable_sendChunks hs _ _ (by exact h)

theorem stable_bindUdp (h : Q c.sockets) : Q (bindUdp S c).sockets := by
  have hu := hs.udp (makeUdpBind c.session.net.myPeerId c.session.net.udpToken).encode c.sockets h
  unfold bindUdp udpSend
  dsimp only
  split <;> exact hu

theorem stable_prelude (game : LocalGame) (h : Q c.sockets) : Q (prelude S game c).sockets := by
  have hretry : Q (helloRetry S game (S.nowSec c.sockets) c).sockets := by
    unfold helloRetry
    dsimp only
    split
    · split
      · exact hs.tcp _ _ h
      · exact h
    · exact h
  have hbind : Q (bindRetry S (helloRetry S game (S.nowSec c.sockets) c)).sockets := by
    unfold bindRetry
    dsimp only
    split
    · exact stable_bindUdp hs hretry
    · exact hretry
  unfold prelude expireParts inventoryDue
  dsimp only
  split
  · exact stable_sendInventory hs game true (by exact hbind)
  · exact hbind

theorem stable_handleWelcome (game : LocalGame) (welcome : Welcome) (h : Q c.sockets) :
    Q (handleWelcome S game welcome c).sockets := by
  have hbind : Q (bindUdp S { c with session := c.session.welcomed welcome }).sockets := stable_bindUdp hs (by exact h)
  exact stable_sendAppearance hs game true (by exact hs.tcp _ _ hbind)

end Stable

section Received
variable {σ : Type} {S : Sockets σ} {c : Client σ}

/-- A message that does not end the session stamps it, if its header is accepted. -/
theorem handleMessage_stamps (game : LocalGame) {buf : Bytes} (h : endsSession c.session.net.myPeerId buf = false) :
    (handleMessage S game buf c).session.lastRecvSec =
      if (headerOk (Header.decode buf) buf.length).isSome then S.nowSec c.sockets else c.session.lastRecvSec := by
  unfold endsSession at h
  unfold handleMessage
  cases hh : headerOk (Header.decode buf) buf.length with
  | none => rfl
  | some type =>
    rw [hh] at h
    rw [if_pos (Option.isSome_some : (some type).isSome = true)]
    dsimp only
    cases type <;> simp only [reduceCtorEq, decide_eq_false_iff_not] at h
    case Welcome =>
      have hview : KeptBySends S fun _ => () := ⟨fun _ _ => rfl, fun _ _ => rfl⟩
      have hw := sends_handleWelcome hview game (Welcome.decode buf) { c with session.lastRecvSec := S.nowSec c.sockets }
      unfold message
      dsimp only
      split
      · exact congrArg Core.lastRecvSec hw.core
      · rfl
    case Bye =>
      unfold message
      dsimp only
      rw [if_neg h]
      split <;> rfl
    all_goals
      unfold message
      dsimp only
      repeat' split
      all_goals rfl

theorem stable_handleMessage {Q : σ → Prop} (hs : StableBySends S Q) (game : LocalGame) {buf : Bytes}
    (h : endsSession c.session.net.myPeerId buf = false) (hq : Q c.sockets) : Q (handleMessage S game buf c).sockets := by
  unfold endsSession at h
  unfold handleMessage
  cases hh : headerOk (Header.decode buf) buf.length with
  | none => exact hq
  | some type =>
    rw [hh] at h
    dsimp only
    cases type <;> simp only [reduceCtorEq, decide_eq_false_iff_not] at h
    case Welcome =>
      unfold message
      dsimp only
      split
      · exact stable_handleWelcome hs game _ (by exact hq)
      · exact hq
    case Bye =>
      unfold message
      dsimp only
      rw [if_neg h]
      split <;> exact hq
    all_goals
      unfold message
      dsimp only
      repeat' split
      all_goals exact hq

end Received

section Poll
variable {σ : Type} (S : Sockets σ)

/-- The poll up to its timeout test: the client that is tested, or the client after an earlier return. -/
def pollRead (game : LocalGame) (c : Client σ) : Client σ ⊕ Client σ :=
  if !c.session.net.joined then .inl c
  else if !S.tcpConnected c.sockets then .inl (leave S { c with events := c.events ++ [.lost] })
  else
    let c := pollTcp S game 16 (prelude S game c)
    if !c.session.net.joined then .inl c
    else
      let c := pollUdp S game 16 c
      if !c.session.net.joined then .inl c else .inr c

/-- The poll of `c` takes the exit of a timed out server, and `c'` is the client it tests. -/
def GivesUp (game : LocalGame) (c c' : Client σ) : Prop :=
  pollRead S game c = .inr c' ∧ 0 < c'.session.lastRecvSec ∧ 15 < S.nowSec c'.sockets - c'.session.lastRecvSec

theorem netPoll_eq (game : LocalGame) (c : Client σ) : netPoll S game c =
    match pollRead S game c with
    | .inl c => c
    | .inr c =>
      let c := serverTimeout S c
      if !c.session.net.joined then c else { c with session.net := mergeIncoming c.session.net } := by
  unfold netPoll pollRead
  split
  · rfl
  · split
    · rfl
    · dsimp only
      split
      · rfl
      · split <;> rfl

variable {S} {game : LocalGame} {c c' : Client σ}

theorem netPoll_of_givesUp (h : GivesUp S game c c') :
    netPoll S game c = leave S { c' with events := c'.events ++ [.timedOut] } := by
  rw [netPoll_eq, h.1]
  dsimp only
  rw [serverTimeout, if_pos h.2, leave_joined]
  rfl

theorem netPoll_of_not_givesUp (hr : pollRead S game c = .inr c') (h : ¬ GivesUp S game c c') (hj : c'.session.net.joined = true) :
    netPoll S game c = { c' with session.net := mergeIncoming c'.session.net } := by
  rw [netPoll_eq, hr]
  dsimp only
  rw [serverTimeout, if_neg fun ht => h ⟨hr, ht⟩, hj]
  rfl

end Poll

section Heard
variable {σ : Type} (S : Sockets σ)

/-- In a session joined at `J`: the packets of its log came later, and the last of them has set the time of the last
packet, which is `L` as long as there is none. -/
structure Heard (J L : Time) (c : Client (σ × PacketLog)) : Prop where
  clock : J ≤ S.nowSec c.sockets.1
  since : ∀ e ∈ packets c.sockets.2, J ≤ e.1
  last : ∀ e, (packets c.sockets.2).getLast? = some e → c.session.lastRecvSec = e.1
  unheard : packets c.sockets.2 = [] → c.session.lastRecvSec = L

variable {S} (hS : SteadyClock S) {J L : Time} {game : LocalGame} {c c' : Client (σ × PacketLog)}

theorem headerOk_short (h : Header) {n : ℕ} (hn : n < sizeofHeader) : headerOk h n = none := by
  unfold headerOk
  rw [if_pos]
  by_cases hs : n < h.size.toNat
  · exact .inr (.inl hs)
  · exact .inr (.inr (by omega))

theorem packets_concat (log : PacketLog) (t : Time) (buf : Bytes) : packets (log ++ [(t, buf)]) =
    packets log ++ if (headerOk (Header.decode buf) buf.length).isSome then [(t, buf)] else [] := by
  unfold packets
  rw [List.filter_append, List.filter_singleton, Bool.cond_eq_ite]

theorem keptBySends_log : KeptBySends (heardSockets S) (Prod.snd : σ × PacketLog → PacketLog) := ⟨fun _ _ => rfl, fun _ _ => rfl⟩

include hS in
theorem stable_clock (J : Time) : StableBySends (heardSockets S) fun w => J ≤ S.nowSec w.1 :=
  ⟨fun data w h => h.trans (hS.tcpSend data w.1), fun data w h => h.trans (hS.udpSend data w.1)⟩

include hS in
theorem Heard.prelude (h : Heard S J L c) : Heard S J L (Plugin.prelude (heardSockets S) game c) := by
  have hsends := sends_prelude (keptBySends_log (S := S)) game c
  have hlog : (Plugin.prelude (heardSockets S) game c).sockets.2 = c.sockets.2 := hsends.view
  have hstamp : (Plugin.prelude (heardSockets S) game c).session.lastRecvSec = c.session.lastRecvSec :=
    congrArg Core.lastRecvSec hsends.core
  constructor
  · exact stable_prelude (stable_clock hS J) game h.clock
  · rw [hlog]
    exact h.since
  · rw [hlog, hstamp]
    exact h.last
  · rw [hlog, hstamp]
    exact h.unheard

theorem Heard.elapse (h : Heard S J L c) {w : σ} (hw : S.nowSec c.sockets.1 ≤ S.nowSec w) :
    Heard S J L { c with sockets := (w, c.sockets.2) } :=
  ⟨h.clock.trans hw, h.since, h.last, h.unheard⟩

include hS in
theorem Heard.receive (h : Heard S J L c) {w : σ} (hw : S.nowSec c.sockets.1 ≤ S.nowSec w) {buf : Bytes} {events : List Event}
    (he : endsSession c.session.net.myPeerId buf = false) :
    Heard S J L (handleMessage (heardSockets S) game buf
      { c with sockets := (w, c.sockets.2 ++ [(S.nowSec w, buf)]), events := events }) := by
  obtain ⟨d, hd⟩ : ∃ d : Client (σ × PacketLog), d =
      { c with sockets := (w, c.sockets.2 ++ [(S.nowSec w, buf)]), events := events } := ⟨_, rfl⟩
  rw [← hd]
  have he' : endsSession d.session.net.myPeerId buf = false := by rw [hd]; exact he
  have hcarries := handleMessage_carries (keptBySends_log (S := S)) game he'
  have hlog : (handleMessage (heardSockets S) game buf d).sockets.2 = c.sockets.2 ++ [(S.nowSec w, buf)] := by
    rw [hcarries.view, hd]
  have hstamp : (handleMessage (heardSockets S) game buf d).session.lastRecvSec =
      if (headerOk (Header.decode buf) buf.length).isSome then S.nowSec w else c.session.lastRecvSec := by
    rw [handleMessage_stamps game he', hd]
    rfl
  have hclock : J ≤ S.nowSec w := h.clock.trans hw
  have hstable := stable_handleMessage (stable_clock hS J) game he' (by rw [hd]; exact hclock)
  cases hok : (headerOk (Header.decode buf) buf.length).isSome with
  | false =>
    have hsame : packets (handleMessage (heardSockets S) game buf d).sockets.2 = packets c.sockets.2 := by
      rw [hlog, packets_concat, hok]
      exact List.append_nil _
    rw [hok] at hstamp
    refine ⟨hstable, ?_, ?_, ?_⟩
    · rw [hsame]
      exact h.since
    · rw [hsame, hstamp]
      exact h.last
    · rw [hsame, hstamp]
      exact h.unheard
  | true =>
    have hmore : packets (handleMessage (heardSockets S) game buf d).sockets.2 = packets c.sockets.2 ++ [(S.nowSec w, buf)] := by
      rw [hlog, packets_concat, hok]
      rfl
    rw [hok] at hstamp
    refine ⟨hstable, ?_, ?_, ?_⟩
    · rw [hmore]
      intro e hm
      rcases List.mem_append.mp hm with hm | hm
      · exact h.since e hm
      · rw [List.mem_singleton.mp hm]
        exact hclock
    · rw [hmore, hstamp]
      intro e hlast
      rw [List.getLast?_concat] at hlast
      rw [← Option.some.inj hlast]
      rfl
    · rw [hmore]
      intro hnil
      exact absurd hnil (by simp)

theorem Heard.drop (h : Heard S J L c) {w : σ} (hw : S.nowSec c.sockets.1 ≤ S.nowSec w) {buf : Bytes}
    (hl : buf.length < sizeofHeader) : Heard S J L { c with sockets := (w, c.sockets.2 ++ [(S.nowSec w, buf)]) } := by
  have hsame : packets (c.sockets.2 ++ [(S.nowSec w, buf)]) = packets c.sockets.2 := by
    rw [packets_concat, headerOk_short _ hl]
    exact List.append_nil _
  constructor
  · exact h.clock.trans hw
  · rw [hsame]
    exact h.since
  · rw [hsame]
    exact h.last
  · rw [hsame]
    exact h.unheard

include hS in
/-- A turn of a receive loop that handles a buffer, if the rest of the loop keeps what is known. -/
theorem Heard.turn (h : Heard S J L c) {w : σ} (hw : S.nowSec c.sockets.1 ≤ S.nowSec w) {buf : Bytes} {events : List Event}
    {next : Client (σ × PacketLog) → Client (σ × PacketLog)}
    (hnext : ∀ d, Heard S J L d → (next d).session.net.joined = true → Heard S J L (next d)) :
    let d := handleMessage (heardSockets S) game buf
      { c with sockets := (w, c.sockets.2 ++ [(S.nowSec w, buf)]), events := events }
    (if d.session.net.joined then next d else d).session.net.joined = true →
      Heard S J L (if d.session.net.joined then next d else d) := by
  intro d hj
  by_cases hd : d.session.net.joined = true
  · have he : endsSession c.session.net.myPeerId buf = false := by
      by_contra he
      have hgone := (handleMessage_ends (S := heardSockets S) (g := game)
        (c := { c with sockets := (w, c.sockets.2 ++ [(S.nowSec w, buf)]), events := events })
        (Bool.eq_true_of_not_eq_false he)).1
      exact Bool.false_ne_true (hgone.symm.trans hd)
    rw [if_pos hd] at hj ⊢
    exact hnext d (h.receive hS hw he) hj
  · rw [if_neg hd] at hj
    exact absurd hj hd

include hS in
theorem Heard.pollTcp {fuel : ℕ} (h : Heard S J L c)
    (hj : (Plugin.pollTcp (heardSockets S) game fuel c).session.net.joined = true) :
    Heard S J L (Plugin.pollTcp (heardSockets S) game fuel c) := by
  induction fuel generalizing c with
  | zero => exact h
  | succ fuel ih =>
    have hw := hS.tcpRecvFrame c.sockets.1
    obtain ⟨⟨received, w⟩, hr⟩ : ∃ r, S.tcpRecvFrame c.sockets.1 = r := ⟨_, rfl⟩
    rw [hr] at hw
    cases received with
    | nothing =>
      have hrecv : (heardSockets S).tcpRecvFrame c.sockets = (.nothing, w, c.sockets.2) := by simp [heardSockets, hr]
      rw [pollTcp_nothing hrecv]
      exact h.elapse hw
    | closed =>
      have hrecv : (heardSockets S).tcpRecvFrame c.sockets = (.closed, w, c.sockets.2) := by simp [heardSockets, hr]
      rw [pollTcp_closed hrecv, leave_joined] at hj
      cases hj
    | frame buf =>
      have hrecv : (heardSockets S).tcpRecvFrame c.sockets = (.frame buf, w, c.sockets.2 ++ [(S.nowSec w, buf)]) := by
        simp [heardSockets, hr]
      by_cases hl : buf.length < sizeofHeader
      · have hshort : Plugin.pollTcp (heardSockets S) game (fuel + 1) c =
            { c with sockets := (w, c.sockets.2 ++ [(S.nowSec w, buf)]) } := by
          rw [Plugin.pollTcp, hrecv]
          dsimp only
          rw [if_pos hl]
        rw [hshort]
        exact h.drop hw hl
      · rw [pollTcp_frame hrecv hl] at hj ⊢
        exact h.turn hS hw (fun d hd => ih hd) hj

include hS in
theorem Heard.pollUdp {fuel : ℕ} (h : Heard S J L c)
    (hj : (Plugin.pollUdp (heardSockets S) game fuel c).session.net.joined = true) :
    Heard S J L (Plugin.pollUdp (heardSockets S) game fuel c) := by
  induction fuel generalizing c with
  | zero => exact h
  | succ fuel ih =>
    have hw := hS.udpRecv c.sockets.1
    obtain ⟨⟨received, w⟩, hr⟩ : ∃ r, S.udpRecv c.sockets.1 = r := ⟨_, rfl⟩
    rw [hr] at hw
    rw [Plugin.pollUdp] at hj ⊢
    cases received with
    | none =>
      have hrecv : (heardSockets S).udpRecv c.sockets = (none, w, c.sockets.2) := by simp [heardSockets, hr]
      rw [hrecv]
      exact h.elapse hw
    | some buf =>
      have hrecv : (heardSockets S).udpRecv c.sockets = (some buf, w, c.sockets.2 ++ [(S.nowSec w, buf)]) := by
        simp [heardSockets, hr]
      rw [hrecv] at hj ⊢
      dsimp only at hj ⊢
      by_cases hl : buf.length < sizeofHeader
      · rw [if_pos hl]
        exact h.drop hw hl
      · rw [if_neg hl] at hj ⊢
        exact h.turn hS hw (fun d hd => ih hd) hj

include hS in
theorem Heard.pollRead (h : Heard S J L c) (hr : Plugin.pollRead (heardSockets S) game c = .inr c') : Heard S J L c' := by
  unfold Plugin.pollRead at hr
  split at hr
  · cases hr
  · split at hr
    · cases hr
    · dsimp only at hr
      split at hr
      · cases hr
      · rename_i htcp
        split at hr
        · cases hr
        · rename_i hudp
          cases hr
          exact ((h.prelude hS).pollTcp hS (by simpa using htcp)).pollUdp hS (by simpa using hudp)

end Heard

section Runs
variable {σ : Type} (S : Sockets σ)

/-- The client, and when its current session was joined. -/
structure TimedRun (σ : Type) where
  client : Client (σ × PacketLog)
  joinedAt : Time

inductive TimedCall (σ : Type)
  | join (game : LocalGame) (flags : UInt8)
  | leave
  | poll (game : LocalGame)
  /-- time passes, packets arrive, the game sends -/
  | elapse (w : σ)

def timedStart (settings : Settings) (w : σ) : TimedRun σ := ⟨{ session := { settings := settings }, sockets := (w, []) }, 0⟩

def timedStep (r : TimedRun σ) : TimedCall σ → TimedRun σ
  | .join game flags =>
    let (ok, c) := join (heardSockets S) game flags r.client
    ⟨c, if ok then S.nowSec c.sockets.1 else r.joinedAt⟩
  | .leave => { r with client := leave (heardSockets S) r.client }
  | .poll game => { r with client := netPoll (heardSockets S) game r.client }
  | .elapse w => { r with client := { r.client with sockets := (w, r.client.sockets.2) } }

/-- The clock does not go back between two calls. -/
def Forward (r : TimedRun σ) (a : TimedCall σ) : Prop := ∀ w, a = .elapse w → S.nowSec r.client.sockets.1 ≤ S.nowSec w

/-- More than 15 seconds have passed since the session was joined and since its last packet. -/
structure OnTime (joinedAt : Time) (c : Client (σ × PacketLog)) : Prop where
  session : 15 < S.nowSec c.sockets.1 - joinedAt
  packet : ∃ e, (packets c.sockets.2).getLast? = some e ∧ 15 < S.nowSec c.sockets.1 - e.1

/-- A poll that takes the exit takes it on account of its own session. -/
def TimedPerSession (r : TimedRun σ) (a : TimedCall σ) : Prop :=
  ∀ game c', a = .poll game → GivesUp (heardSockets S) game r.client c' → OnTime S r.joinedAt c'

/-- A poll that gets to its test in a session without a packet finds no old packet, or one not yet 15 seconds old. -/
def NoStalePacket (r : TimedRun σ) (a : TimedCall σ) : Prop :=
  ∀ game c', a = .poll game → pollRead (heardSockets S) game r.client = .inr c' → packets c'.sockets.2 = [] →
    0 < r.client.session.lastRecvSec → S.nowSec c'.sockets.1 - r.client.session.lastRecvSec ≤ 15

/-- What is known of a session as long as it lasts. -/
def SessionHeard (r : TimedRun σ) : Prop :=
  r.client.session.net.joined = true → Heard S r.joinedAt r.client.session.lastRecvSec r.client

variable {S}

theorem Heard.renew {J L : Time} {c : Client (σ × PacketLog)} (h : Heard S J L c) : Heard S J c.session.lastRecvSec c :=
  ⟨h.clock, h.since, h.last, fun _ => rfl⟩

theorem join_joined {S : Sockets σ} (game : LocalGame) (flags : UInt8) (c : Client σ) :
    (join S game flags c).2.session.net.joined = (join S game flags c).1 := by
  have hleft := leave_joined (S := S) c
  have branch : ∀ {p : Prop} [Decidable p] {a b : Bool × Client σ}, a.2.session.net.joined = a.1 →
      b.2.session.net.joined = b.1 → (if p then a else b).2.session.net.joined = (if p then a else b).1 := by
    intro p _ a b ha hb
    split
    · exact ha
    · exact hb
  unfold join
  dsimp only
  exact branch hleft (branch hleft (branch hleft (branch hleft rfl)))

theorem join_log {game : LocalGame} {flags : UInt8} {c : Client (σ × PacketLog)}
    (h : (join (heardSockets S) game flags c).1 = true) : (join (heardSockets S) game flags c).2.sockets.2 = [] := by
  unfold join at h ⊢
  dsimp only at h ⊢
  split at h
  · cases h
  · rename_i hstarted
    rw [if_neg hstarted]
    split at h
    · cases h
    · rename_i hworld
      rw [if_neg hworld]
      split at h
      · cases h
      · rename_i hconnected
        rw [if_neg hconnected]
        split at h
        · cases h
        · rename_i hsent
          rw [if_neg hsent]
          rfl

theorem joined_of_pollRead {S : Sockets σ} {game : LocalGame} {c c' : Client σ} (h : pollRead S game c = .inr c') :
    c.session.net.joined = true := by
  by_contra hj
  rw [pollRead, Bool.eq_false_of_not_eq_true hj] at h
  cases h

theorem pollRead_tested {S : Sockets σ} {game : LocalGame} {c c' : Client σ} (h : pollRead S game c = .inr c') :
    c'.session.net.joined = true := by
  unfold pollRead at h
  split at h
  · cases h
  · split at h
    · cases h
    · dsimp only at h
      split at h
      · cases h
      · split at h
        · cases h
        · rename_i hj
          cases h
          exact Bool.not_not_eq.mp hj

/-- A poll that returns before its test has no session any more. -/
theorem pollRead_joined {S : Sockets σ} {game : LocalGame} {c c' : Client σ} (h : pollRead S game c = .inl c') :
    c'.session.net.joined = false := by
  unfold pollRead at h
  split at h
  · rename_i hj
    cases h
    exact (Bool.not_eq_true' _).mp hj
  · split at h
    · cases h
      exact leave_joined _
    · dsimp only at h
      split at h
      · rename_i hj
        cases h
        exact (Bool.not_eq_true' _).mp hj
      · split at h
        · rename_i hj
          cases h
          exact (Bool.not_eq_true' _).mp hj
        · cases h

variable (hS : SteadyClock S)
include hS

theorem SessionHeard.step {r : TimedRun σ} {a : TimedCall σ} (h : SessionHeard S r) (hf : Forward S r a) :
    SessionHeard S (timedStep S r a) := by
  cases a with
  | join game flags =>
    intro hj
    have hok : (join (heardSockets S) game flags r.client).1 = true := (join_joined game flags r.client).symm.trans hj
    have hlog := join_log hok
    unfold timedStep
    dsimp only
    rw [if_pos hok]
    constructor
    · exact le_refl _
    · rw [hlog]
      nofun
    · rw [hlog]
      nofun
    · exact fun _ => rfl
  | leave =>
    intro hj
    have hleft := leave_joined (S := heardSockets S) r.client
    exact absurd (hleft.symm.trans hj) Bool.false_ne_true
  | poll game =>
    intro hj
    have hj' : (netPoll (heardSockets S) game r.client).session.net.joined = true := hj
    cases hr : pollRead (heardSockets S) game r.client with
    | inl c =>
      rw [netPoll_eq, hr] at hj'
      exact absurd ((pollRead_joined hr).symm.trans hj') Bool.false_ne_true
    | inr c =>
      have hheard := (h (joined_of_pollRead hr)).pollRead hS hr
      by_cases ht : GivesUp (heardSockets S) game r.client c
      · rw [netPoll_of_givesUp ht, leave_joined] at hj'
        cases hj'
      · have hpoll := netPoll_of_not_givesUp hr ht (pollRead_tested hr)
        unfold timedStep
        dsimp only
        rw [hpoll]
        exact ⟨hheard.clock, hheard.since, hheard.last, fun _ => rfl⟩
  | elapse w =>
    intro hj
    exact ((h hj).elapse (hf w rfl)).renew

/-- In a session of which this is known, a poll exits for its own session's sake, unless the old time is stale. -/
theorem SessionHeard.timed_iff {r : TimedRun σ} (h : SessionHeard S r) (a : TimedCall σ) :
    TimedPerSession S r a ↔ NoStalePacket S r a := by
  constructor
  · intro ht game c' ha hr hnone hold
    have hheard := (h (joined_of_pollRead hr)).pollRead hS hr
    have hlast := hheard.unheard hnone
    by_contra hstale
    rw [← hlast] at hold hstale
    obtain ⟨e, he, -⟩ := (ht game c' ha ⟨hr, hold, not_le.mp hstale⟩).packet
    rw [hnone] at he
    cases he
  · intro hfresh game c' ha ht
    have hheard := (h (joined_of_pollRead ht.1)).pollRead hS ht.1
    obtain ⟨hpos, hlate⟩ := ht.2
    cases he : (packets c'.sockets.2).getLast? with
    | none =>
      have hnone := List.getLast?_eq_none_iff.mp he
      rw [hheard.unheard hnone] at hpos hlate
      exact absurd (hfresh game c' ha ht.1 hnone hpos) (not_le.mpr hlate)
    | some e =>
      have hlast := hheard.last e he
      rw [hlast] at hlate
      have hsince : r.joinedAt ≤ e.1 := hheard.since e (List.mem_of_getLast? he)
      exact ⟨hlate.trans_le (sub_le_sub_left hsince _), e, he, hlate⟩

/-- In every run with a clock that does not go back, the polls that exit on a timed out server do so on account of
their own session if and only if no poll tests the time of an earlier session's packet after 15 seconds. -/
theorem timedPerSession_iff (settings : Settings) (w : σ) (calls : List (TimedCall σ))
    (hclock : AllSteps (timedStep S) (Forward S) (timedStart settings w) calls) :
    AllSteps (timedStep S) (TimedPerSession S) (timedStart settings w) calls ↔
      AllSteps (timedStep S) (NoStalePacket S) (timedStart settings w) calls := by
  have hstart : SessionHeard S (timedStart settings w) := nofun
  have hheard : ∀ before a after, calls = before ++ a :: after →
      SessionHeard S (run (timedStep S) (timedStart settings w) before) := by
    rintro before a after rfl
    exact run_invariant (fun _ _ hi hf => hi.step hS hf) hstart ((allSteps_append before (a :: after)).mp hclock).1
  rw [allSteps_iff_split, allSteps_iff_split]
  constructor
  · intro h before a after he
    exact ((hheard before a after he).timed_iff hS a).mp (h before a after he)
  · intro h before a after he
    exact ((hheard before a after he).timed_iff hS a).mpr (h before a after he)

end Runs

/-- A network with a clock, a connection, and the frames it will deliver. -/
structure ClockedLink where
  now : Time
  connected : Bool := false
  frames : List Bytes := []

def clockedSockets : Sockets ClockedLink where
  nowSec w := w.now
  startup w := (true, w)
  shutdown w := { w with connected := false, frames := [] }
  tcpConnected w := w.connected
  tcpConnect w := (true, { w with connected := true })
  tcpSend _ w := (true, w)
  tcpRecvFrame w :=
    match w.frames with
    | [] => (.nothing, w)
    | frame :: frames => (.frame frame, { w with frames := frames })
  udpSend _ w := (true, w)
  udpRecv w := (none, w)

theorem clockedSockets_steady : SteadyClock clockedSockets := by
  refine ⟨fun _ _ => le_refl _, fun _ _ => le_refl _, fun w => ?_, fun _ => le_refl _⟩
  unfold clockedSockets
  dsimp only
  split <;> exact le_refl _

def gameInWorld : LocalGame := { world := { inWorld := true } }

/-- A session that starts at 1 and receives a packet at 2. -/
def welcomedSession : List (TimedCall ClockedLink) :=
  [.join gameInWorld 0, .elapse { now := 2, connected := true, frames := [(makeWelcome 1 1 true true 0 1).encode] },
    .poll gameInWorld]

/-- The player leaves, and joins again at 100. -/
def rejoinedLate : List (TimedCall ClockedLink) :=
  welcomedSession ++ [.leave, .elapse { now := 100 }, .join gameInWorld 0]

theorem rejoinedLate_forward (game : LocalGame) :
    AllSteps (timedStep clockedSockets) (Forward clockedSockets) (timedStart {} { now := 1 })
      (rejoinedLate ++ [.poll game]) := by
  refine ⟨nofun, ?_, nofun, nofun, ?_, nofun, nofun, trivial⟩
  · intro w hw
    cases hw
    decide +kernel
  · intro w hw
    cases hw
    decide +kernel

/-- The equivalence in a run of two sessions. -/
theorem timedPerSession_iff_rejoinedLate :
    AllSteps (timedStep clockedSockets) (TimedPerSession clockedSockets) (timedStart {} { now := 1 })
        (rejoinedLate ++ [.poll gameInWorld]) ↔
      AllSteps (timedStep clockedSockets) (NoStalePacket clockedSockets) (timedStart {} { now := 1 })
        (rejoinedLate ++ [.poll gameInWorld]) :=
  timedPerSession_iff clockedSockets_steady {} _ _ (rejoinedLate_forward gameInWorld)

/-- The first poll of the second session finds the packet of the first one and times out at once. -/
theorem not_timedPerSession_rejoinedLate :
    ¬ ∀ (σ : Type) (S : Sockets σ), SteadyClock S → ∀ (settings : Settings) (w : σ) (calls : List (TimedCall σ)),
      AllSteps (timedStep S) (Forward S) (timedStart settings w) calls →
        AllSteps (timedStep S) (TimedPerSession S) (timedStart settings w) calls := by
  intro hall
  have hexits := hall _ clockedSockets clockedSockets_steady {} { now := 1 } (rejoinedLate ++ [.poll gameInWorld])
    (rejoinedLate_forward gameInWorld)
  have hlast := allSteps_iff_split.mp hexits rejoinedLate (.poll gameInWorld) [] rfl
  have htested : (pollRead (heardSockets clockedSockets) gameInWorld
      (run (timedStep clockedSockets) (timedStart {} { now := 1 }) rejoinedLate).client).elim (fun _ => false) (fun c =>
        decide (0 < c.session.lastRecvSec ∧ 15 < clockedSockets.nowSec c.sockets.1 - c.session.lastRecvSec ∧
          clockedSockets.nowSec c.sockets.1 -
            (run (timedStep clockedSockets) (timedStart {} { now := 1 }) rejoinedLate).joinedAt ≤ 15)) = true := by
    decide +kernel
  cases hr : pollRead (heardSockets clockedSockets) gameInWorld
      (run (timedStep clockedSockets) (timedStart {} { now := 1 }) rejoinedLate).client with
  | inl c =>
    rw [hr] at htested
    cases htested
  | inr c =>
    rw [hr] at htested
    obtain ⟨hold, hlate, hjust⟩ := of_decide_eq_true htested
    exact absurd (hlast gameInWorld c rfl ⟨hr, hold, hlate⟩).session (not_lt.mpr hjust)

end CommonwealthMP.Plugin
