import CommonwealthMP.BanFiles
import CommonwealthMP.StepParts

/-! # Banned keys over a run

Only the admin commands write the banned keys, and every key they put there is sanitized. -/
namespace CommonwealthMP
open ByteLayout OrderedTables SessionTable
namespace ServerRuntime

variable {s₀ s s' : ServerRuntime} {i : Env × Input}

@[simp] theorem bannedKeys_unbindUdp (s : ServerRuntime) (id : PeerId) : (s.unbindUdp id).bannedKeys = s.bannedKeys := by
  unfold unbindUdp
  cases s.clients.lookup id with
  | none => rfl
  | some client =>
    dsimp only
    split <;> rfl

@[simp] theorem bannedKeys_flushDirtyAsync (s : ServerRuntime) : s.flushDirtyAsync.bannedKeys = s.bannedKeys := by
  rw [flushDirtyAsync_eq]

theorem bannedKeys_removeClient (env : Env) (s : ServerRuntime) (id : PeerId) (keepTcp : Bool) :
    (removeClient env s id keepTcp).bannedKeys = s.bannedKeys := by
  cases h : s.clients.lookup id with
  | none => rw [removeClient_of_absent env h]
  | some client =>
    obtain ⟨persist, he⟩ := removeClient_eq env h keepTcp
    rw [he]

theorem bannedKeys_removals (env : Env) (keep : PeerId → Bool) (ids : List PeerId) (s : ServerRuntime) :
    (ids.foldl (fun r id => removeClient env r id (keep id)) s).bannedKeys = s.bannedKeys := by
  induction ids generalizing s with
  | nil => rfl
  | cons id ids ih => rw [List.foldl_cons, ih, bannedKeys_removeClient]

theorem bannedKeys_storeBlob (s : ServerRuntime) (type : Msg) (id : PeerId) (client : Client) (blob : Bytes) :
    (storeBlob s type id client blob).bannedKeys = s.bannedKeys := rfl

theorem bannedKeys_setAssemblies (s : ServerRuntime) (type : Msg) (asm : Table PeerId BlobAssembly) :
    (s.setAssemblies type asm).bannedKeys = s.bannedKeys := by
  rw [setAssemblies_eq]

theorem bannedKeys_tcpBlobChunk (env : Env) (s : ServerRuntime) (type : Msg) (id : PeerId) (client : Client) (buf : Bytes)
    (t : Time) : (tcpBlobChunk env s type id client buf t).bannedKeys = s.bannedKeys := by
  rcases tcpBlobChunk_cases env s type id client buf t with ⟨-, he⟩ | ⟨a, -, -, he⟩ | ⟨a, blob, -, -, he⟩
  · rw [he]
    rfl
  · rw [he, bannedKeys_setAssemblies]
    rfl
  · rw [he, bannedKeys_storeBlob, bannedKeys_setAssemblies]
    rfl

theorem bannedKeys_helloAgain (s : ServerRuntime) (id : PeerId) (client : Client) :
    (helloAgain s id client).bannedKeys = s.bannedKeys :=
  bannedKeys_unbindUdp _ id

theorem bannedKeys_tcpMessage (env : Env) (s : ServerRuntime) (type : Msg) (id : PeerId) (client : Client) (buf : Bytes)
    (t : Time) : (tcpMessage env s type id client buf t).bannedKeys = s.bannedKeys := by
  apply tcpMessage_cases (P := fun r => r.bannedKeys = s.bannedKeys)
  case unhandled => rfl
  case bye => exact fun _ => rfl
  case hello => exact fun _ => bannedKeys_helloAgain s id client
  case snapshot =>
    intro _
    rcases tcpWorldSnapshot_cases s client buf with ⟨-, he⟩ | ⟨-, world, -, he⟩ <;> rw [he]
  case chunk => exact fun _ => bannedKeys_tcpBlobChunk env s type id client buf t
  case heartbeat => exact fun _ => rfl
  case chat =>
    intro _
    rcases tcpChat_cases s client buf t with ⟨-, he⟩ | ⟨-, he⟩ <;> rw [he] <;> rfl
  case kick =>
    intro _
    rcases tcpKick_cases s client buf with he | ⟨other, -, -, he⟩
    · rw [he]
    · rw [he]
      rfl
  case teleport =>
    intro _
    rcases tcpTeleport_cases s client buf with he | ⟨other, -, -, he⟩
    · rw [he]
    · rw [he]
      rfl
  case hit =>
    intro _
    rcases tcpHit_cases s client buf t with he | he | ⟨hit, -, -, -, -, -, -, he⟩ <;> rw [he] <;> rfl

theorem bannedKeys_handleClientFrame (env : Env) (s : ServerRuntime) (id : PeerId) (client : Client) (buf : Bytes) (t : Time) :
    (handleClientFrame env s id client buf t).bannedKeys = s.bannedKeys := by
  have hmessage (r : ServerRuntime) : (handleTcpMessage env r id client buf t).bannedKeys = r.bannedKeys := by
    unfold handleTcpMessage
    split
    · rfl
    · split
      · rfl
      · rw [bannedKeys_tcpMessage]
        rfl
  unfold handleClientFrame
  dsimp only
  rw [bannedKeys_removals, hmessage]

theorem bannedKeys_completeJoin (s : ServerRuntime) (id : PeerId) (hello : Hello) (rec_ : PlayerRec) :
    (completeJoin s id hello rec_).bannedKeys = s.bannedKeys := by
  cases h : s.clients.lookup id with
  | none => rw [completeJoin, h]
  | some joined =>
    obtain ⟨world, dirty, hash, he, -⟩ := completeJoin_eq h hello rec_
    rw [he]

theorem bannedKeys_admitHello (env : Env) (s : ServerRuntime) (pending : PendingTcp) (hello : Hello) (t : Time) :
    (admitHello env s pending hello t).runtime.bannedKeys = s.bannedKeys := by
  unfold admitHello
  dsimp only
  split
  · rename_i id client hf
    rw [bannedKeys_completeJoin, softReconnect_eq (findByKey_some hf).1]
    rfl
  · split
    · split
      · rfl
      · rw [bannedKeys_completeJoin]
        rfl
    · rw [bannedKeys_completeJoin]
      rfl

theorem bannedKeys_handlePendingMessage (env : Env) (s : ServerRuntime) (pending : PendingTcp) (buf : Bytes) (t : Time) :
    (handlePendingMessage env s pending buf t).runtime.bannedKeys = s.bannedKeys := by
  have hgates (r : ServerRuntime) (header : Header) (hello : Hello) :
      (helloGates r header hello).1.bannedKeys = r.bannedKeys := by
    unfold helloGates
    split
    · rfl
    · split
      · split <;> rfl
      · rfl
  unfold handlePendingMessage
  dsimp only
  split
  · rfl
  · split
    · split <;> rfl
    · split
      · rfl
      · split
        · rfl
        · split
          · rename_i r reason text hg
            exact (congrArg (fun p => p.1.bannedKeys) hg).symm.trans (hgates _ _ _)
          · rename_i r hg
            rw [bannedKeys_admitHello]
            exact (congrArg (fun p => p.1.bannedKeys) hg).symm.trans (hgates _ _ _)

theorem bannedKeys_handlePendingFrame (env : Env) (s : ServerRuntime) (pending : PendingTcp) (buf : Bytes) (t : Time) :
    (handlePendingFrame env s pending buf t).bannedKeys = s.bannedKeys := by
  unfold handlePendingFrame
  dsimp only
  split <;> exact bannedKeys_handlePendingMessage env s pending buf t

theorem bannedKeys_handleUdpPacket (s : ServerRuntime) (buf : Bytes) (from_ : SockAddr) (t : Time) :
    (handleUdpPacket s buf from_ t).bannedKeys = s.bannedKeys := by
  have hbind (r : ServerRuntime) : (udpBind r buf from_ t).bannedKeys = r.bannedKeys := by
    unfold udpBind
    dsimp only
    split
    · rfl
    · split
      · rfl
      · exact bannedKeys_unbindUdp r _
  have hfind (r : ServerRuntime) : (findByUdp r from_).2.bannedKeys = r.bannedKeys := by
    unfold findByUdp
    split
    · rfl
    · split <;> rfl
  have hpose (r : ServerRuntime) (id : PeerId) (client : Client) :
      (udpPlayerPose r id client buf t).bannedKeys = r.bannedKeys := by
    rcases udpPlayerPose_cases r id client buf t with ⟨-, he⟩ | ⟨-, _, ⟨-, he⟩ | ⟨-, world, -, he⟩⟩ <;> rw [he] <;> rfl
  have hactor (r : ServerRuntime) (client : Client) : (udpActorPose r client buf).bannedKeys = r.bannedKeys := by
    rcases udpActorPose_cases r client buf with he | ⟨_, -, he⟩
    · rw [he]
    · rw [he]
      rfl
  unfold handleUdpPacket
  dsimp only
  split
  · rfl
  · split
    · rfl
    · split
      · exact hbind _
      · split
        · rename_i r hf
          exact (congrArg (fun p => p.2.bannedKeys) hf).symm.trans (hfind _)
        · rename_i id r hf
          have hr : r.bannedKeys = s.bannedKeys := (congrArg (fun p => p.2.bannedKeys) hf).symm.trans (hfind _)
          split
          · exact hr
          · split
            · exact (hpose _ _ _).trans hr
            · split
              · exact (hactor _ _).trans hr
              · exact hr

/-- Only an admin line writes the banned keys. -/
theorem bannedKeys_handle (hi : ∀ cmdLine, i.2 ≠ .admin cmdLine) (s : ServerRuntime) :
    (handle i.1 s i.2).bannedKeys = s.bannedKeys := by
  cases h : i.2 with
  | inbound ev t =>
    unfold handle applyInbound
    dsimp only
    split
    · rfl
    · split
      · exact bannedKeys_handleClientFrame _ _ _ _ _ _
      · exact bannedKeys_handlePendingFrame _ _ _ _ _
      · rfl
    · split
      · exact bannedKeys_removeClient _ _ _ _
      · split
        · exact bannedKeys_removeClient _ _ _ _
        · rfl
    · exact bannedKeys_handleUdpPacket _ _ _ _
  | expirePending t => rfl
  | expireClients t => exact bannedKeys_removals i.1 (fun _ => false) _ s
  | sendHeartbeat => rfl
  | flushDirty => exact bannedKeys_flushDirtyAsync s
  | admin cmdLine => exact absurd h (hi cmdLine)

structure SaneKeys (s : ServerRuntime) : Prop where
  bans : ∀ k ∈ s.bannedKeys, SaneKey k
  clients : ∀ id c, s.clients.lookup id = some c → SaneKey c.playerKey

theorem sane_runAdminCommand (env : Env) (h : SaneKeys s) (cmdLine : Bytes) :
    ∀ k ∈ (runAdminCommand env s cmdLine).bannedKeys, SaneKey k := by
  apply adminLine_cases (P := fun s' => ∀ k ∈ s'.bannedKeys, SaneKey k)
  case kick =>
    intro _ _ _ _ _ id client doBan _ hl
    obtain ⟨dirty, he⟩ := kickClient_eq hl doBan
    rw [he]
    dsimp only
    split
    · exact sane_insert h.bans (h.clients id client hl)
    · exact h.bans
  case save =>
    rw [adminSave, bannedKeys_flushDirtyAsync]
    exact h.bans
  case ban => exact fun key => sane_insert h.bans (sane_key key)
  case unban => exact fun key k hk => h.bans k (List.mem_filter.mp hk).1
  all_goals
    intros
    exact h.bans _ ‹_›

theorem Part.saneClients (hp : Part s₀ i s s') (h : ∀ id c, s.clients.lookup id = some c → SaneKey c.playerKey) :
    ∀ id c, s'.clients.lookup id = some c → SaneKey c.playerKey := by
  have modify {id : PeerId} {f : Client → Client} (hf : ∀ c, (f c).playerKey = c.playerKey) :
      ∀ q c, (s.clients.modify id f).lookup q = some c → SaneKey c.playerKey := by
    intro q c hq
    by_cases hqi : q = id
    · rw [hqi, Table.lookup_modify_self] at hq
      obtain ⟨c', hc', rfl⟩ := Option.map_eq_some_iff.mp hq
      rw [hf]
      exact h id c' hc'
    · rw [Table.lookup_modify_ne _ _ hqi] at hq
      exact h q c hq
  cases hp with
  | aside ha =>
    rw [ha.clients]
    exact h
  | touch id f hf => exact modify fun c => (Prod.mk.inj (Prod.mk.inj (hf c)).2).1
  | store type id client hl blob hblob =>
    refine modify fun c => ?_
    unfold Client.storeBlob
    split <;> rfl
  | pose id client hl pose => exact modify fun _ => rfl
  | assemble type id hid hstay asm hs hslots =>
    rw [setAssemblies_eq]
    exact h
  | join env pending hello rec_ t hnone hkey hrec =>
    intro q c hq
    by_cases hmem : s.nextPeer ∈ s.clients
    · rw [insertJoining, Table.emplace_of_mem _ _ hmem] at hq
      exact h q c hq
    · rw [insertJoining, Table.lookup_emplace _ _ hmem] at hq
      split at hq
      · rw [← Option.some.inj hq]
        exact sane_key _
      · exact h q c hq
  | reconnect id client hl pending hello hkey rec_ hrec token t =>
    intro q c hq
    by_cases hqi : q = id
    · rw [hqi, Table.lookup_modify_self] at hq
      obtain ⟨c', -, rfl⟩ := Option.map_eq_some_iff.mp hq
      exact sane_key _
    · rw [Table.lookup_modify_ne _ _ hqi] at hq
      exact h q c hq
  | erase id hleave hnoted =>
    intro q c hq
    by_cases hqi : q = id
    · rw [hqi, AList.lookup_erase] at hq
      cases hq
    · rw [AList.lookup_erase_ne hqi] at hq
      exact h q c hq
  | flush =>
    rw [flushDirtyAsync_eq]
    exact h
  | _ => exact h

theorem SaneKeys.step (hw : WellFormed s) (h : SaneKeys s) (i : Env × Input) : SaneKeys (s.step i) := by
  have hready : SaneKeys s.ready := ⟨h.bans, h.clients⟩
  refine ⟨?_, Parts.invariant (I := fun r => ∀ id c, r.clients.lookup id = some c → SaneKey c.playerKey) (step_parts hw i)
    (fun _ _ => Part.saneClients) hready.clients⟩
  cases hi : i.2 with
  | admin cmdLine =>
    rw [ServerRuntime.step, hi]
    exact sane_runAdminCommand i.1 hready cmdLine
  | _ =>
    rw [ServerRuntime.step, bannedKeys_handle fun cmdLine h => by rw [hi] at h; cases h]
    exact hready.bans

/-- A start with the bans of the file and of the configuration. -/
def bannedStart (cfg : ServerConfig) (world : SessionWorld) (players : Table Bytes PlayerRec) (file : Option Bytes)
    (banKeys : List Bytes) : Startup := ⟨cfg, world, players, startBans file banKeys⟩

theorem saneKeys_run (cfg : ServerConfig) (world : SessionWorld) (players : Table Bytes PlayerRec) (file : Option Bytes)
    (banKeys : List Bytes) (is : List (Env × Input)) : SaneKeys (runFrom (bannedStart cfg world players file banKeys) is) := by
  have hstart : WellFormed (bannedStart cfg world players file banKeys).runtime ∧
      SaneKeys (bannedStart cfg world players file banKeys).runtime :=
    ⟨wellFormed_initial _, sane_startBans file banKeys, fun id c hl => by cases hl⟩
  exact (StepRuns.run_invariant (I := fun s => WellFormed s ∧ SaneKeys s) (P := fun _ _ => True)
    (fun s i h _ => ⟨h.1.step i, h.2.step h.1 i⟩) hstart (StepRuns.allSteps_iff_split.mpr fun _ _ _ _ => trivial)).2

/-- Whatever the commands did, the banned keys are sanitized and the file gives them back; and whatever
the file holds, only sanitized keys of at most 31 letters are read. -/
theorem bannedKeys_roundTrip (cfg : ServerConfig) (world : SessionWorld) (players : Table Bytes PlayerRec)
    (file : Option Bytes) (banKeys : List Bytes) (is : List (Env × Input)) (order : List Bytes)
    (horder : order.Perm (runFrom (bannedStart cfg world players file banKeys) is).bannedKeys) :
    (∀ k ∈ (runFrom (bannedStart cfg world players file banKeys) is).bannedKeys, k ≠ [] ∧ sanitizePlayerKey k [] = k) ∧
      (∀ k, k ∈ loadBans (some (persistBans order)) ↔
        k ∈ (runFrom (bannedStart cfg world players file banKeys) is).bannedKeys) ∧
      ∀ text, ∀ k ∈ loadBans (some text), sanitizePlayerKey k [] = k ∧ 1 ≤ k.length ∧ k.length ≤ 31 := by
  have hsane := (saneKeys_run cfg world players file banKeys is).bans
  refine ⟨fun k hk => ⟨(hsane k hk).nonempty, (hsane k hk).fixed⟩, fun k => ?_, fun text k hk => ?_⟩
  · rw [mem_loadBans_persistBans fun k hk => hsane k (horder.mem_iff.mp hk)]
    exact horder.mem_iff
  · have h := sane_loadBans (some text) k hk
    exact ⟨h.fixed, List.length_pos_of_ne_nil h.nonempty, h.length_le⟩

theorem bannedKeys_roundTrip_twoBans :
    (∀ k ∈ (runFrom (bannedStart {} {} ∅ none [ascii "x y"]) [(plainEnv, .admin (ascii "ban other"))]).bannedKeys,
        k ≠ [] ∧ sanitizePlayerKey k [] = k) ∧
      (∀ k, k ∈ loadBans (some (persistBans [ascii "xy", ascii "other"])) ↔
        k ∈ (runFrom (bannedStart {} {} ∅ none [ascii "x y"]) [(plainEnv, .admin (ascii "ban other"))]).bannedKeys) ∧
      ∀ text, ∀ k ∈ loadBans (some text), sanitizePlayerKey k [] = k ∧ 1 ≤ k.length ∧ k.length ≤ 31 :=
  bannedKeys_roundTrip {} {} ∅ none [ascii "x y"] [(plainEnv, .admin (ascii "ban other"))] [ascii "xy", ascii "other"]
    (by decide +kernel)

end ServerRuntime
end CommonwealthMP
