import CommonwealthMP.PoseOrigins
import CommonwealthMP.Restarts

/-! # A player who comes back

While nobody plays under a key its record stays as it is, so the first client with that key has the look and the place the
record had at the start; after a restart these are those of the life before. -/
namespace CommonwealthMP
open ByteLayout Binary32 OrderedTables QuotedText SessionTable StepRuns

namespace ServerRuntime
variable {s : ServerRuntime} {k : Bytes}

/-- Nobody plays under the key. -/
def Away (k : Bytes) (s : ServerRuntime) : Prop := ∀ id c, s.clients.lookup id = some c → c.playerKey ≠ k

theorem players_removeClient (env : Env) (s : ServerRuntime) (id : PeerId) (keepTcp : Bool) :
    (removeClient env s id keepTcp).players = s.players := by
  cases hl : s.clients.lookup id with
  | none => rw [removeClient, hl]
  | some client =>
    obtain ⟨persist, he⟩ := removeClient_eq env hl keepTcp
    rw [he]

theorem players_removals (env : Env) (keep : PeerId → Bool) (s : ServerRuntime) (ids : List PeerId) :
    (ids.foldl (fun r id => removeClient env r id (keep id)) s).players = s.players := by
  induction ids generalizing s with
  | nil => rfl
  | cons id ids ih => exact (ih _).trans (players_removeClient env s id _)

theorem players_runAdminCommand (env : Env) (s : ServerRuntime) (cmdLine : Bytes) :
    (runAdminCommand env s cmdLine).players = s.players := by
  apply adminLine_cases (P := fun s' => s'.players = s.players)
  case kick =>
    intro _ _ _ _ _ id client doBan _ hl
    obtain ⟨dirty, he⟩ := kickClient_eq hl doBan
    rw [he]
  case save => rw [adminSave, flushDirtyAsync_eq]
  all_goals
    intros
    rfl

section Record
variable {id : PeerId} {client : Client} (hl : s.clients.lookup id = some client) (hk : client.playerKey ≠ k)
include hl hk

theorem record_tcpMessage (env : Env) (type : Msg) (buf : Bytes) (t : Time) :
    (tcpMessage env s type id client buf t).players.lookup k = s.players.lookup k := by
  apply tcpMessage_cases (P := fun s' => s'.players.lookup k = s.players.lookup k)
  case unhandled => rfl
  case bye => exact fun _ => rfl
  case hello =>
    intro _
    rw [helloAgain_eq hl]
    exact AList.lookup_insert_ne (Ne.symm hk)
  case snapshot =>
    intro _
    rcases tcpWorldSnapshot_cases s client buf with ⟨-, he⟩ | ⟨-, world, -, he⟩ <;> rw [he]
  case chunk =>
    intro _
    rcases tcpBlobChunk_cases env s type id client buf t with ⟨-, he⟩ | ⟨a, -, -, he⟩ | ⟨a, blob, -, -, he⟩
    · rw [he]
      rfl
    · rw [he, setAssemblies_eq]
      rfl
    · rw [he, setAssemblies_eq]
      exact AList.lookup_insert_ne (Ne.symm hk)
  case heartbeat => exact fun _ => rfl
  case chat =>
    intro _
    rcases tcpChat_cases s client buf t with ⟨-, he⟩ | ⟨-, he⟩ <;> rw [he] <;> rfl
  case kick =>
    intro _
    rcases tcpKick_cases s client buf with he | ⟨other, -, -, he⟩ <;> rw [he]
    rfl
  case teleport =>
    intro _
    rcases tcpTeleport_cases s client buf with he | ⟨other, -, -, he⟩ <;> rw [he]
    rfl
  case hit =>
    intro _
    rcases tcpHit_cases s client buf t with he | he | ⟨hit, -, -, -, -, -, -, he⟩ <;> rw [he] <;> rfl

theorem record_handleClientFrame (env : Env) (buf : Bytes) (t : Time) :
    (handleClientFrame env s id client buf t).players.lookup k = s.players.lookup k := by
  let s₀ : ServerRuntime := { s with removePeers := [], keepTcpPeers := [] }
  have hmessage : (handleTcpMessage env s₀ id client buf t).players.lookup k = s.players.lookup k := by
    unfold handleTcpMessage
    repeat' split
    · rfl
    · rfl
    · exact record_tcpMessage (s := s₀.seen id t) (lookup_seen (s := s₀) hl t) hk env _ buf t
  have hremovals := players_removals env (fun peerId => (handleTcpMessage env s₀ id client buf t).keepTcpPeers.contains peerId)
    (handleTcpMessage env s₀ id client buf t) (handleTcpMessage env s₀ id client buf t).removePeers
  unfold handleClientFrame
  exact (congrArg (AList.lookup k) hremovals).trans hmessage

end Record

theorem record_udpPlayerPose (id : PeerId) {client : Client} (hk : client.playerKey ≠ k) (buf : Bytes) (t : Time) :
    (udpPlayerPose s id client buf t).players.lookup k = s.players.lookup k := by
  rcases udpPlayerPose_cases s id client buf t with ⟨-, he⟩ | ⟨-, _, ⟨-, he⟩ | ⟨-, world, -, he⟩⟩
  · rw [he]
    rfl
  · rw [he]
    exact AList.lookup_insert_ne (Ne.symm hk)
  · rw [he]
    exact AList.lookup_insert_ne (Ne.symm hk)

theorem players_udpBind (s : ServerRuntime) (buf : Bytes) (from_ : SockAddr) (t : Time) : (udpBind s buf from_ t).players = s.players := by
  cases hl : s.clients.lookup (UdpBind.decode buf).peerId with
  | none => rw [udpBind, hl]
  | some client =>
    by_cases ht : client.udpToken = 0 ∨ client.udpToken ≠ (UdpBind.decode buf).udpToken
    · rw [udpBind, hl]
      exact congrArg players (if_pos ht)
    · rw [udpBind_eq hl ht]

theorem record_handleUdpPacket (hw : WellFormed s) (haway : Away k s) (buf : Bytes) (from_ : SockAddr) (t : Time) :
    (handleUdpPacket s buf from_ t).players.lookup k = s.players.lookup k := by
  have hcase := handleUdpPacket_cases hw.ok buf from_ t
  generalize handleUdpPacket s buf from_ t = s' at hcase ⊢
  cases hcase with
  | bind id ha => exact congrArg (AList.lookup k) (players_udpBind s.countDatagram buf from_ t)
  | ignored badHeaders ha => rfl
  | short id client ha hu hl => rfl
  | playerPose id client header ha hu hl ho =>
    exact record_udpPlayerPose (s := s.countDatagram.seen id t) id (haway id client hl) buf t
  | actorPose id client header ha hu hl ho =>
    rcases udpActorPose_cases (s.countDatagram.seen id t) { client with lastSeen := t } buf with he | ⟨_, -, he⟩ <;> rw [he] <;> rfl

theorem players_admitHello (env : Env) (s : ServerRuntime) (pending : PendingTcp) (hello : Hello) (t : Time)
    (hhost : helloRequiresHost hello = true → s.world.hostPeerId ≠ 0) :
    (admitHello env s pending hello t).runtime.players = s.players.insert (helloKey hello) (helloRecord s hello) := by
  have hcomplete (s : ServerRuntime) (id : PeerId) (rec_ : PlayerRec) : (completeJoin s id hello rec_).players = s.players := by
    cases hl : s.clients.lookup id with
    | none => rw [completeJoin, hl]
    | some joined =>
      obtain ⟨world, dirty, hash, he, -⟩ := completeJoin_eq hl hello rec_
      rw [he]
  cases hf : findByKey s (helloKey hello) with
  | some e =>
    obtain ⟨id, client⟩ := e
    have hl : (enterRecord s hello).clients.lookup id = some client := (findByKey_some hf).1
    rw [admitHello_reconnect env hf]
    dsimp only
    rw [hcomplete, softReconnect_eq hl]
    rfl
  | none =>
    rw [admitHello_join env hf hhost]
    dsimp only
    rw [hcomplete]
    rfl

/-- What is stored under the key but for the key itself and the name, which a Hello fills in. -/
def keptRecord (k : Bytes) (s : ServerRuntime) : PlayerRec := { (s.players.lookup k).getD {} with key := [], name := [] }

theorem keptRecord_congr {s' : ServerRuntime} (h : s'.players.lookup k = s.players.lookup k) : keptRecord k s' = keptRecord k s := by
  rw [keptRecord, h, keptRecord]

theorem keptRecord_admitHello (env : Env) (s : ServerRuntime) (pending : PendingTcp) (hello : Hello) (t : Time)
    (hhost : helloRequiresHost hello = true → s.world.hostPeerId ≠ 0) :
    keptRecord k (admitHello env s pending hello t).runtime = keptRecord k s := by
  have hplayers := players_admitHello env s pending hello t hhost
  by_cases hkey : k = helloKey hello
  · subst hkey
    rw [keptRecord, hplayers, AList.lookup_insert]
    rfl
  · refine keptRecord_congr ?_
    rw [hplayers]
    exact AList.lookup_insert_ne hkey

theorem keptRecord_step (hw : WellFormed s) (haway : Away k s) (i : Env × Input) : keptRecord k (s.step i) = keptRecord k s := by
  have hwr : WellFormed s.ready := ⟨hw.keyed, hw.ok⟩
  obtain ⟨env, i⟩ := i
  cases i with
  | inbound ev t =>
    cases hev : ev.kind with
    | TcpAccept =>
      simp only [ServerRuntime.step, handle, applyInbound, hev]
      rfl
    | TcpFrame =>
      cases ht : frameTarget s.ready ev with
      | client p client =>
        rw [step_client (i := (env, .inbound ev t)) ⟨rfl, hev, ht⟩]
        exact keptRecord_congr (record_handleClientFrame (frameTarget_client ht) (haway p client (frameTarget_client ht)) env ev.bytes t)
      | pending pending =>
        obtain ⟨ps, hframe⟩ := handlePendingFrame_eq env s.ready pending ev.bytes t
        rw [step_pending (i := (env, .inbound ev t)) ⟨rfl, hev, ht⟩, hframe]
        rcases handlePendingMessage_cases env hwr.keyed hwr.ok pending ev.bytes t with hu | ⟨header, ha, he⟩
        · rw [hu.runtime]
          rfl
        · rw [he]
          exact keptRecord_admitHello env (s.ready.countHello pending t) pending _ t fun hr => hostGate_hostPeerId (ha.host hr)
      | nobody =>
        simp only [ServerRuntime.step, handle, applyInbound, hev, ht]
        rfl
    | TcpClosed =>
      refine keptRecord_congr (congrArg (AList.lookup k) ?_)
      simp only [ServerRuntime.step, handle, applyInbound, hev]
      repeat' split
      all_goals first
        | exact players_removeClient _ _ _ _
        | rfl
    | UdpDatagram =>
      simp only [ServerRuntime.step, handle, applyInbound, hev]
      exact keptRecord_congr (record_handleUdpPacket hwr haway _ _ _)
  | expirePending t => rfl
  | expireClients t => exact keptRecord_congr (congrArg (AList.lookup k) (players_removals env (fun _ => false) s.ready _))
  | sendHeartbeat => rfl
  | flushDirty =>
    refine keptRecord_congr (congrArg (AList.lookup k) ?_)
    simp only [ServerRuntime.step, handle]
    rw [flushDirtyAsync_eq]
    rfl
  | admin cmdLine => exact keptRecord_congr (congrArg (AList.lookup k) (players_runAdminCommand env s.ready cmdLine))

theorem lasting_playerKey : Lasting Client.playerKey where
  conn _ _ := rfl
  unbound c := by
    unfold Client.unbound
    split <;> rfl
  token _ _ := rfl
  blob c type blob := by
    unfold Client.storeBlob
    split <;> rfl

theorem retains_datagram (hw : WellFormed s) (buf : Bytes) (from_ : SockAddr) (t : Time) :
    Retains Client.playerKey s (handleUdpPacket s buf from_ t) := by
  have hseen (id : PeerId) : Retains Client.playerKey s (s.countDatagram.seen id t) := .modify rfl fun _ _ => rfl
  have hcase := handleUdpPacket_cases hw.ok buf from_ t
  generalize handleUdpPacket s buf from_ t = s' at hcase ⊢
  cases hcase with
  | bind id ha =>
    obtain ⟨-, -, hid, client, hl, h0, ht⟩ := acceptedBind_some.mp ha
    subst hid
    rw [udpBind_eq (s := s.countDatagram) hl (by rw [not_or]; exact ⟨h0, not_not.mpr ht⟩)]
    exact .modify rfl fun c _ => lasting_playerKey.unbound c
  | ignored badHeaders ha => exact .of_eq rfl
  | short id client ha hu hl => exact hseen id
  | playerPose id client header ha hu hl ho =>
    rcases udpPlayerPose_cases (s.countDatagram.seen id t) id { client with lastSeen := t } buf t with
      ⟨-, he⟩ | ⟨hr, _, ⟨-, he⟩ | ⟨-, world, -, he⟩⟩
    · rw [he]
      exact hseen id
    · rw [he]
      exact (hseen id).trans (.modify rfl fun _ _ => rfl)
    · rw [he]
      exact (hseen id).trans (.modify rfl fun _ _ => rfl)
  | actorPose id client header ha hu hl ho =>
    rcases udpActorPose_cases (s.countDatagram.seen id t) { client with lastSeen := t } buf with he | ⟨_, -, he⟩
    · rw [he]
      exact hseen id
    · rw [he]
      exact hseen id

/-- The first client under a key has joined in this step, with the record of the key. -/
theorem joins_of_away (hw : WellFormed s) (haway : Away k s) {i : Env × Input} {p : PeerId} {c : Client}
    (hc : (s.step i).clients.lookup p = some c) (hk : c.playerKey = k) : ∃ pending hello t, helloKey hello = k ∧ p = s.nextPeer ∧
      c = joiningClient (enterRecord (s.ready.countHello pending t) hello) pending hello (helloRecord s hello) t := by
  have absent (h : Retains Client.playerKey s (s.step i)) : False := by
    obtain ⟨c₀, hl, hkey⟩ := h p c hc
    exact haway p c₀ hl (hkey.symm.trans hk)
  cases step_retainCase lasting_playerKey hw i with
  | kept h hi hd => exact (absent h).elim
  | frame ev t q client hs h =>
    refine (absent (Retains.trans ?_ h)).elim
    split
    · exact .modify rfl fun _ _ => rfl
    · exact .of_eq rfl
  | datagram ev t hi hev h => exact (absent (h ▸ retains_datagram (s := s.ready) ⟨hw.keyed, hw.ok⟩ _ _ _)).elim
  | admitted ev t pending header ps hs ha he h =>
    rw [h, he] at hc
    dsimp only at hc
    cases hf : findByKey (s.ready.countHello pending t) (helloKey (readHello ev.bytes)) with
    | some e =>
      obtain ⟨id, client⟩ := e
      have hl : (enterRecord (s.ready.countHello pending t) (readHello ev.bytes)).clients.lookup id = some client :=
        (findByKey_some hf).1
      rw [admitHello_reconnect i.1 hf] at hc
      dsimp only at hc
      rw [(completeJoin_clients _ _ _ _).1, softReconnect_eq hl] at hc
      replace hc : (s.clients.modify id fun c => reconnectedClient pending (readHello ev.bytes) _ _ t (Client.unbound c)).lookup p =
        some c := hc
      rw [Table.lookup_modify] at hc
      split at hc
      · obtain ⟨c₀, hl₀, rfl⟩ := Option.map_eq_some_iff.mp hc
        cases hl₀.symm.trans (‹p = id› ▸ hl)
        exact (haway id client hl ((findByKey_some hf).2.trans hk)).elim
      · exact (haway p c hc hk).elim
    | none =>
      rw [admitHello_join i.1 hf fun hr => hostGate_hostPeerId (ha.host hr)] at hc
      dsimp only at hc
      rw [(completeJoin_clients _ _ _ _).1] at hc
      replace hc : (s.clients.emplace i.1.placement s.nextPeer (joiningClient
        (enterRecord (s.ready.countHello pending t) (readHello ev.bytes)) pending (readHello ev.bytes)
          (helloRecord s (readHello ev.bytes)) t)).lookup p = some c := hc
      by_cases hm : s.nextPeer ∈ s.clients
      · rw [Table.emplace_of_mem _ _ hm] at hc
        exact (haway p c hc hk).elim
      · rw [Table.lookup_emplace _ _ hm] at hc
        split at hc
        · obtain rfl := Option.some.inj hc
          exact ⟨pending, readHello ev.bytes, t, hk, ‹p = s.nextPeer›, rfl⟩
        · exact (haway p c hc hk).elim

theorem keptRecord_run (b : Startup) {is : List (Env × Input)} (h : AllSteps ServerRuntime.step (fun s _ => Away k s) b.runtime is) :
    keptRecord k (runFrom b is) = keptRecord k b.runtime := by
  induction is using List.reverseRecOn with
  | nil => rfl
  | append_singleton is i ih =>
    obtain ⟨hbefore, haway, -⟩ := (allSteps_append is [i]).mp h
    rw [runFrom_concat]
    exact (keptRecord_step (runFrom_reachable b is).wellFormed haway i).trans (ih hbefore)

/-- In a run in which nobody plays under the key, its record is at every point what it was at the start. -/
theorem keptRecord_prefix (b : Startup) {is before : List (Env × Input)}
    (h : AllSteps ServerRuntime.step (fun s _ => Away k s) b.runtime is) (hbefore : before <+: is) :
    keptRecord k (runFrom b before) = keptRecord k b.runtime := by
  obtain ⟨after, rfl⟩ := hbefore
  exact keptRecord_run b ((allSteps_append before after).mp h).1

/-- The first client under a key has the look of the record the start has for the key, and stands where it says. -/
structure ComesAs (r : PlayerRec) (p : PeerId) (c : Client) : Prop where
  appearance : c.appearance = r.appearance
  inventory : c.inventory = r.inventory
  place : r.havePose = true → c.lastPose = makePose p r.locationFormId r.x r.y r.z r.yaw

theorem comesAs_run (b : Startup) {r : PlayerRec} (hr : b.players.lookup k = some r) {is : List (Env × Input)}
    (h : AllSteps ServerRuntime.step (fun s _ => Away k s) b.runtime is) {p : PeerId} {c : Client}
    (hc : (runFrom b is).clients.lookup p = some c) (hk : c.playerKey = k) : ComesAs r p c := by
  obtain rfl | ⟨is, i, rfl⟩ := List.eq_nil_or_concat' is
  · cases hc
  obtain ⟨hbefore, haway, -⟩ := (allSteps_append is [i]).mp h
  have hkept := keptRecord_run b hbefore
  rw [runFrom_concat] at hc
  obtain ⟨pending, hello, t, hkey, rfl, rfl⟩ := joins_of_away (runFrom_reachable b is).wellFormed haway hc hk
  subst hkey
  have hstart : keptRecord (helloKey hello) b.runtime = { r with key := [], name := [] } := by
    rw [keptRecord]
    change { (b.players.lookup (helloKey hello)).getD {} with key := [], name := [] } = _
    rw [hr]
    rfl
  have hrecord : { helloRecord (runFrom b is) hello with key := [], name := [] } = ({ r with key := [], name := [] } : PlayerRec) :=
    hkept.trans hstart
  generalize hrec : helloRecord (runFrom b is) hello = rec_ at hrecord
  have hjoined : helloRecord ((runFrom b is).ready.countHello pending t) hello = rec_ := hrec
  obtain ⟨-, -, hhave, hlocation, hx, hy, hz, hyaw, happearance, hinventory⟩ := PlayerRec.mk.inj hrecord
  refine ⟨happearance, hinventory, fun hpose => ?_⟩
  rw [joiningClient, ← hlocation, ← hx, ← hy, ← hz, ← hyaw]
  exact if_pos (hhave.trans hpose)

end ServerRuntime

open ServerRuntime

namespace Life

/-- While a player of the last life is away its record stays as it was loaded, and when it comes back it looks as it did,
and stands where it did as far as the file tells. -/
theorem player_returns (fmt : NumberText) (lives : List Life) (life next : Life)
    (hdown : AllSteps (leaves fmt) (ShutDown fmt) {} (lives ++ [life])) (hkeep : next.resetSession = false) {k : Bytes} {r : PlayerRec}
    (hr : (life.ended fmt (run (leaves fmt) {} lives)).sim.players.lookup k = some r) (is : List (Env × Input))
    (haway : AllSteps ServerRuntime.step (fun s _ => Away k s)
      (next.loaded fmt (run (leaves fmt) {} (lives ++ [life]))).toStartup.runtime is) :
    (∀ before, before <+: is → keptRecord k (runFrom (next.loaded fmt (run (leaves fmt) {} (lives ++ [life]))).toStartup before) =
        keptRecord k (next.loaded fmt (run (leaves fmt) {} (lives ++ [life]))).toStartup.runtime) ∧
      ∀ p c, (runFrom (next.loaded fmt (run (leaves fmt) {} (lives ++ [life]))).toStartup is).clients.lookup p = some c →
        c.playerKey = k → c.appearance = r.appearance ∧ c.inventory = r.inventory ∧ (Restorable fmt r → r.havePose = true →
          c.lastPose = makePose p r.locationFormId (fmt.asPrinted r.x) (fmt.asPrinted r.y) (fmt.asPrinted r.z) (fmt.asPrinted r.yaw)) := by
  refine ⟨fun before hbefore => keptRecord_prefix _ haway hbefore, fun p c hc hk => ?_⟩
  obtain ⟨r', hr', hrestored⟩ := (players_restored hdown hkeep).records k r hr
  have hcomes := comesAs_run _ hr' haway hc hk
  refine ⟨hcomes.appearance.trans hrestored.appearance, hcomes.inventory.trans hrestored.inventory, fun hwhole hpose => ?_⟩
  obtain rfl := hrestored.whole.mpr hwhole
  exact hcomes.place hpose

/-- The second of two players who join is the one of the last life. -/
def comebackInputs : List (Env × Input) :=
  [acceptAt 1 ⟨10, 0, 0, 1, 1000⟩, frameAt 1 0 (helloFrame (ascii "b")), acceptAt 2 ⟨10, 0, 0, 2, 1000⟩,
    frameAt 2 0 (helloFrame (ascii "a"))]

theorem player_returns_settledLife : ∃ c,
    (runFrom (settledLife.loaded plainNumbers (run (leaves plainNumbers) {} ([] ++ [settledLife]))).toStartup
      comebackInputs).clients.lookup 2 = some c ∧
    c.appearance = [7, 7] ∧ c.lastPose = makePose 2 0x3C ⟨0x42280000⟩ ⟨0⟩ ⟨0⟩ ⟨0⟩ := by
  let r : PlayerRec :=
    { key := [97], name := [97], havePose := true, x := ⟨0x42280000⟩, y := ⟨0⟩, z := ⟨0⟩, appearance := [7, 7] }
  let next := settledLife.loaded plainNumbers (run (leaves plainNumbers) {} ([] ++ [settledLife]))
  have hr : (settledLife.ended plainNumbers (run (leaves plainNumbers) {} [])).sim.players.lookup (ascii "a") = some r := by
    decide +kernel
  have hrestorable : Restorable plainNumbers r := by
    constructor <;> decide +kernel
  have hclient : ((runFrom next.toStartup comebackInputs).clients.lookup 2).map Client.playerKey = some (ascii "a") := by
    decide +kernel
  obtain ⟨c, hc, hk⟩ := Option.map_eq_some_iff.mp hclient
  have hdown : AllSteps (leaves plainNumbers) (ShutDown plainNumbers) {} ([] ++ [settledLife]) :=
    ⟨by unfold ShutDown; decide +kernel, trivial⟩
  have away (s : ServerRuntime) (hs : (s.clients.entries.all fun e => decide (e.2.playerKey ≠ ascii "a")) = true) :
      Away (ascii "a") s := fun id c hl => of_decide_eq_true (List.all_eq_true.mp hs ⟨id, c⟩ (Table.mem_entries.mpr hl))
  have haway : AllSteps ServerRuntime.step (fun s _ => Away (ascii "a") s) next.toStartup.runtime comebackInputs :=
    ⟨away _ (by decide +kernel), away _ (by decide +kernel), away _ (by decide +kernel), away _ (by decide +kernel), trivial⟩
  obtain ⟨ha, -, hpose⟩ := (player_returns plainNumbers [] settledLife settledLife hdown rfl hr _ haway).2 2 c hc hk
  refine ⟨c, hc, ha, (hpose hrestorable rfl).trans ?_⟩
  decide +kernel

end Life
end CommonwealthMP
