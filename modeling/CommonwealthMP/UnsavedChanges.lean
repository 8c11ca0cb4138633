import CommonwealthMP.Admission
import CommonwealthMP.RecordMirror
import CommonwealthMP.SessionFolder

/-! # Changes, marks and accepted jobs

A flush clears the marks and hands what was marked to the persistence queue, which may refuse
it; the ban list is handed over whole and has no mark. `Saved` is what the accepted jobs have
written so far. -/
namespace CommonwealthMP
open ByteLayout Binary32 OrderedTables SessionTable
namespace ServerRuntime

/-- What `main` starts with: the records are those of `load_world`, each under its own key. -/
structure LoadedStartup extends Startup where
  keyed : KeyedRecords toStartup.players

theorem keyed_loadEntry (fmt : NumberText) (folder : SessionFolder) (entries : List (Σ _ : Bytes, Bytes))
    {players : Table Bytes PlayerRec}
    (h : KeyedRecords players) : KeyedRecords (entries.foldl (loadEntry fmt folder) players) := by
  induction entries generalizing players with
  | nil => exact h
  | cons entry entries ih =>
    refine ih fun k rec_ hl => ?_
    unfold loadEntry at hl
    split at hl
    · exact h k rec_ hl
    · dsimp only at hl
      rw [Table.lookup_insert] at hl
      split at hl
      · rename_i hk
        rw [hk, Option.some.inj hl]
      · exact h k rec_ hl

/-- The startup from a session folder; `bannedKeys` are those of the ban file and the configuration. -/
def loadedStartup (cfg : ServerConfig) (fmt : NumberText) (order : DirectoryOrder) (folder : SessionFolder)
    (bannedKeys : List Bytes) : LoadedStartup where
  cfg := cfg
  world := (loadWorld fmt order folder {} ∅).1
  players := (loadWorld fmt order folder {} ∅).2
  bannedKeys := bannedKeys
  keyed := keyed_loadEntry fmt folder _ nofun

/-- The world, the records and the bans, as the jobs written last have left them. -/
structure Saved where
  world : SessionWorld
  players : Table Bytes PlayerRec
  bans : List Bytes

/-- A job as the persist worker executes it. -/
def Saved.write (d : Saved) (job : PersistJob) : Saved where
  world := job.world.getD d.world
  players := job.players.foldl (fun players rec_ => players.insert rec_.key rec_) d.players
  bans := job.banKeys.getD d.bans

def Saved.loaded (b : LoadedStartup) : Saved := ⟨b.world, b.players, b.bannedKeys⟩

def storedWorld (w : SessionWorld) : UInt32 × F32 × F32 × F32 × F32 × F32 × UInt32 :=
  (w.spawnLocation, w.spawnX, w.spawnY, w.spawnZ, w.gameHour, w.gameDaysPassed, w.weatherFormId)

/-- The jobs of a step that the queue accepts; `room k` says whether it takes the `k`-th of them. -/
def acceptedJobs (room : ℕ → Bool) : List PersistJob → List PersistJob
  | [] => []
  | job :: jobs => (if room 0 then [job] else []) ++ acceptedJobs (fun k => room (k + 1)) jobs

theorem acceptedJobs_all {room : ℕ → Bool} (h : ∀ k, room k = true) (jobs : List PersistJob) : acceptedJobs room jobs = jobs := by
  induction jobs generalizing room with
  | nil => rfl
  | cons job jobs ih =>
    rw [acceptedJobs, if_pos (h 0), ih fun k => h (k + 1)]
    rfl

def PendingExit.admits : PendingExit → Bool
  | .reconnected _ => true
  | .joined _ _ => true
  | _ => false

def registered (s : ServerRuntime) (i : Env × Input) : List Bytes :=
  match i.2 with
  | .inbound ev _ =>
    if (pendingExit s i).any PendingExit.admits ∧
        s.players.lookup (helloKey (readHello ev.bytes)) ≠ some (helloRecord s (readHello ev.bytes)) then
      [helloKey (readHello ev.bytes)]
    else []
  | _ => []

def leaver : Move → Option PeerId
  | .leave p _ => some p
  | _ => none

def leaving (s : ServerRuntime) (i : Env × Input) : List PeerId := (moves i.1 s.ready i.2).filterMap leaver

def saves (i : Env × Input) : Bool :=
  match i.2 with
  | .admin cmdLine => (splitWords cmdLine).head?.map lowerCopy == some (ascii "save")
  | _ => false

/-- The players that a step marks before it flushes: those it removes, and all of them in a `save`. -/
def noted (s : ServerRuntime) (i : Env × Input) : List Bytes :=
  (if saves i then s.clients.keys else leaving s i).filterMap fun p => (s.clients.lookup p).map (·.playerKey)

/-- The step calls `flush_dirty_async` or `persist_bans_async`; `remove_client` ends with a flush where the peer is
still there, and an admin line that calls one of them hands over a job. -/
def Flushes (s : ServerRuntime) (i : Env × Input) : Prop :=
  match i.2 with
  | .flushDirty => True
  | .admin _ => (s.step i).persist ≠ []
  | _ => ∃ p ∈ leaving s i, p ∈ s.clients

/-- A run with what is saved; `owed` are the players whose record a Hello altered and who have not been
marked since. -/
structure SavingRun where
  runtime : ServerRuntime
  saved : Saved
  owed : List Bytes

def SavingRun.start (b : LoadedStartup) : SavingRun := ⟨b.runtime, Saved.loaded b, []⟩

/-- An input, and what the persistence queue does with the pushes of its step. -/
abbrev SavingInput := (Env × Input) × (ℕ → Bool)

def savingStep (r : SavingRun) (j : SavingInput) : SavingRun where
  runtime := r.runtime.step j.1
  saved := (acceptedJobs j.2 (r.runtime.step j.1).persist).foldl Saved.write r.saved
  owed := (r.owed ++ registered r.runtime j.1).filter fun key =>
    !(r.runtime.step j.1).dirtyPlayers.contains key && !(noted r.runtime j.1).contains key

def TakesAll (j : SavingInput) : Prop := ∀ k, j.2 k = true

/-- No push is refused, and a flush finds nobody owed whom it does not mark itself. -/
structure Keeps (r : SavingRun) (j : SavingInput) : Prop where
  room : TakesAll j
  marked : Flushes r.runtime j.1 → ∀ key ∈ r.owed, key ∈ noted r.runtime j.1

def written (jobs : List PersistJob) : List Bytes := jobs.flatMap fun job => job.players.map (·.key)

/-- What a part keeps, the accepted jobs being those of the step so far; `owed` includes whom the step registers. -/
structure Accounted (d : Saved) (owed : List Bytes) (s : ServerRuntime) : Prop where
  mirrored : Mirrored s
  keyed : KeyedRecords s.players
  known : ∀ k, k ∈ (s.persist.foldl Saved.write d).players → k ∈ s.players
  world : s.worldDirty = true ∨ storedWorld s.world = storedWorld (s.persist.foldl Saved.write d).world
  players : ∀ k, k ∈ s.dirtyPlayers ∨ s.players.lookup k = (s.persist.foldl Saved.write d).players.lookup k ∨
    (k ∈ owed ∧ k ∉ written s.persist)
  bans : s.bannedKeys = (s.persist.foldl Saved.write d).bans

variable {s₀ s s' : ServerRuntime} {i : Env × Input} {d : Saved} {owed : List Bytes}

/-- The records are rewritten under marked or owed keys only, and no job is made. -/
theorem Accounted.of_players (h : Accounted d owed s) (hm : Mirrored s') (hpersist : s'.persist = s.persist)
    (hbans : s'.bannedKeys = s.bannedKeys)
    (hworld : s'.worldDirty = true ∨ (s'.worldDirty = s.worldDirty ∧ storedWorld s'.world = storedWorld s.world))
    (hdirty : s.dirtyPlayers ⊆ s'.dirtyPlayers) (hkeyed : KeyedRecords s'.players)
    (hmem : ∀ k ∈ s.players, k ∈ s'.players)
    (hplayers : ∀ k, k ∈ s'.dirtyPlayers ∨ s'.players.lookup k = s.players.lookup k ∨ (k ∈ owed ∧ k ∉ written s.persist)) :
    Accounted d owed s' := by
  refine ⟨hm, hkeyed, fun k hk => hmem k (h.known k (hpersist ▸ hk)), ?_, fun k => ?_, ?_⟩
  · rw [hpersist]
    rcases hworld with hw | ⟨hw, hsame⟩
    · exact .inl hw
    · rw [hw, hsame]
      exact h.world
  · rw [hpersist]
    rcases hplayers k with hk | hk | hk
    · exact .inl hk
    · rw [hk]
      exact (h.players k).imp_left fun hk => hdirty hk
    · exact .inr (.inr hk)
  · rw [hpersist, hbans]
    exact h.bans

theorem Accounted.of_eq (h : Accounted d owed s) (hm : Mirrored s') (hplayers : s'.players = s.players)
    (hpersist : s'.persist = s.persist) (hbans : s'.bannedKeys = s.bannedKeys)
    (hworld : s'.worldDirty = true ∨ (s'.worldDirty = s.worldDirty ∧ storedWorld s'.world = storedWorld s.world))
    (hdirty : s.dirtyPlayers ⊆ s'.dirtyPlayers) : Accounted d owed s' := by
  refine h.of_players hm hpersist hbans hworld hdirty ?_ (fun k hk => hplayers ▸ hk) fun k => .inr (.inl (by rw [hplayers]))
  rw [hplayers]
  exact h.keyed

/-- One record is written under its own key, and if that changes it the key is marked or owed. -/
theorem Accounted.insert (h : Accounted d owed s) (hm : Mirrored s') (hkeyed : KeyedRecords s'.players) {key : Bytes}
    {rec_ : PlayerRec} (hplayers : s'.players = s.players.insert key rec_) (hpersist : s'.persist = s.persist)
    (hbans : s'.bannedKeys = s.bannedKeys)
    (hworld : s'.worldDirty = true ∨ (s'.worldDirty = s.worldDirty ∧ storedWorld s'.world = storedWorld s.world))
    (hdirty : s.dirtyPlayers ⊆ s'.dirtyPlayers)
    (hmark : key ∈ s'.dirtyPlayers ∨ s.players.lookup key = some rec_ ∨ (key ∈ owed ∧ key ∉ written s.persist)) :
    Accounted d owed s' := by
  have hlookup : ∀ k, s'.players.lookup k = if k = key then some rec_ else s.players.lookup k := by
    intro k
    rw [hplayers, Table.lookup_insert]
  refine h.of_players hm hpersist hbans hworld hdirty hkeyed ?_ fun k => ?_
  · intro k hk
    rw [← AList.lookup_isSome, hlookup]
    split
    · rfl
    · exact AList.lookup_isSome.mpr hk
  · rw [hlookup]
    by_cases hk : k = key
    · rw [if_pos hk, hk]
      exact hmark.imp_right (Or.imp_left Eq.symm)
    · rw [if_neg hk]
      exact .inr (.inl rfl)

/-- The records a job writes, when each is the record of its key. -/
theorem lookup_writeAll {records : List PlayerRec} {players : Table Bytes PlayerRec} {k : Bytes} {x : PlayerRec}
    (h : ∀ r ∈ records, r.key = k → r = x) :
    (records.foldl (fun players rec_ => players.insert rec_.key rec_) players).lookup k =
      if ∃ r ∈ records, r.key = k then some x else players.lookup k := by
  induction records using List.reverseRecOn with
  | nil => simp
  | append_singleton records r ih =>
    have ih := ih fun r hr => h r (List.mem_append_left _ hr)
    rw [List.foldl_append, List.foldl_cons, List.foldl_nil, Table.lookup_insert]
    by_cases hk : k = r.key
    · have hr : r = x := h r (List.mem_append_right _ (List.mem_singleton.mpr rfl)) hk.symm
      rw [if_pos hk, if_pos ⟨r, List.mem_append_right _ (List.mem_singleton.mpr rfl), hk.symm⟩, hr]
    · rw [if_neg hk, ih]
      refine if_congr ?_ rfl rfl
      simp [Ne.symm hk]

def markedRecords (s : ServerRuntime) : List PlayerRec := s.dirtyPlayers.filterMap fun key => s.players.lookup key

/-- A flush hands over one job, or none when nothing is marked. -/
theorem dirtyJob_cases (s : ServerRuntime) :
    (s.dirtyJob = [] ∧ s.worldDirty = false ∧ s.markedRecords = []) ∨
      s.dirtyJob = [{ world := if s.worldDirty then some s.world else none, players := s.markedRecords }] ∧
        ¬ (s.worldDirty = false ∧ s.markedRecords = []) := by
  have hworld : (if s.worldDirty then some s.world else none) = none ↔ s.worldDirty = false := by
    cases s.worldDirty <;> simp
  by_cases h : s.worldDirty = false ∧ s.markedRecords = []
  · exact .inl ⟨if_pos ⟨hworld.mpr h.1, h.2⟩, h.1, h.2⟩
  · exact .inr ⟨if_neg fun hn => h ⟨hworld.mp hn.1, hn.2⟩, h⟩

theorem write_dirtyJob (s : ServerRuntime) (d : Saved) :
    s.dirtyJob.foldl Saved.write d =
      d.write { world := if s.worldDirty then some s.world else none, players := s.markedRecords } := by
  rcases s.dirtyJob_cases with ⟨hj, hw, hp⟩ | ⟨hj, -⟩
  · rw [hj, hw, hp]
    rfl
  · rw [hj]
    rfl

theorem mem_markedRecords (hkeyed : KeyedRecords s.players) (r : PlayerRec) :
    r ∈ s.markedRecords ↔ r.key ∈ s.dirtyPlayers ∧ s.players.lookup r.key = some r := by
  unfold markedRecords
  rw [List.mem_filterMap]
  constructor
  · rintro ⟨key, hk, hr⟩
    rw [hkeyed key r hr]
    exact ⟨hk, hr⟩
  · rintro ⟨hk, hr⟩
    exact ⟨r.key, hk, hr⟩

/-- A flush writes what is marked. -/
theorem lookup_flush (hkeyed : KeyedRecords s.players) (d : Saved) (k : Bytes) :
    (s.dirtyJob.foldl Saved.write d).players.lookup k =
      if k ∈ s.dirtyPlayers ∧ k ∈ s.players then s.players.lookup k else d.players.lookup k := by
  have hmem := mem_markedRecords hkeyed
  have hwrite : (s.markedRecords.foldl (fun players rec_ => players.insert rec_.key rec_) d.players).lookup k =
        if k ∈ s.dirtyPlayers ∧ k ∈ s.players then s.players.lookup k else d.players.lookup k := by
    cases hl : s.players.lookup k with
    | none =>
      have hnone : k ∉ s.players := AList.lookup_eq_none.mp hl
      rw [lookup_writeAll (x := {}), if_neg, if_neg fun h => hnone h.2]
      · rintro ⟨r, hr, rfl⟩
        have hr' := ((hmem r).mp hr).2
        rw [hl] at hr'
        cases hr'
      · rintro r hr rfl
        have hr' := ((hmem r).mp hr).2
        rw [hl] at hr'
        cases hr'
    | some rec_ =>
      have hk : k ∈ s.players := AList.lookup_isSome.mp (by rw [hl]; rfl)
      have hkey := hkeyed k rec_ hl
      rw [lookup_writeAll (x := rec_)]
      · refine if_congr ⟨?_, fun h => ⟨rec_, (hmem rec_).mpr ?_, hkey⟩⟩ rfl rfl
        · rintro ⟨r, hr, rfl⟩
          exact ⟨((hmem r).mp hr).1, hk⟩
        · rw [hkey]
          exact ⟨h.1, hl⟩
      · rintro r hr rfl
        have hr' := ((hmem r).mp hr).2
        rw [hl] at hr'
        exact (Option.some.inj hr').symm
  rw [write_dirtyJob]
  exact hwrite

theorem world_flush (d : Saved) : (s.dirtyJob.foldl Saved.write d).world = if s.worldDirty then s.world else d.world := by
  rw [write_dirtyJob]
  unfold Saved.write
  cases s.worldDirty <;> rfl

theorem bans_flush (d : Saved) : (s.dirtyJob.foldl Saved.write d).bans = d.bans := by
  rw [write_dirtyJob]
  rfl

theorem mem_written_dirtyJob (hkeyed : KeyedRecords s.players) (k : Bytes) :
    k ∈ written s.dirtyJob ↔ k ∈ s.dirtyPlayers ∧ k ∈ s.players := by
  have hjob : written s.dirtyJob = s.markedRecords.map (·.key) := by
    rcases s.dirtyJob_cases with ⟨hj, -, hp⟩ | ⟨hj, -⟩
    · rw [hj, hp]
      rfl
    · rw [hj]
      exact List.append_nil _
  rw [hjob, List.mem_map]
  constructor
  · rintro ⟨r, hr, rfl⟩
    obtain ⟨hd, hl⟩ := (mem_markedRecords hkeyed r).mp hr
    exact ⟨hd, AList.lookup_isSome.mp (by rw [hl]; rfl)⟩
  · rintro ⟨hd, hp⟩
    obtain ⟨r, hl⟩ := Option.isSome_iff_exists.mp (AList.lookup_isSome.mpr hp)
    have hkey := hkeyed k r hl
    exact ⟨r, (mem_markedRecords hkeyed r).mpr (by rw [hkey]; exact ⟨hd, hl⟩), hkey⟩

theorem written_append (jobs jobs' : List PersistJob) : written (jobs ++ jobs') = written jobs ++ written jobs' :=
  List.flatMap_append

theorem Accounted.flush (h : Accounted d owed s) : Accounted d owed s.flushDirtyAsync := by
  rw [flushDirtyAsync_eq]
  have hplayers : ∀ k, s.players.lookup k = ((s.persist ++ s.dirtyJob).foldl Saved.write d).players.lookup k ∨
      (k ∈ owed ∧ k ∉ written (s.persist ++ s.dirtyJob)) := by
    intro k
    rw [List.foldl_append, lookup_flush h.keyed, written_append]
    by_cases hk : k ∈ s.dirtyPlayers ∧ k ∈ s.players
    · rw [if_pos hk]
      exact .inl rfl
    · rw [if_neg hk]
      rcases h.players k with hd | hsame | ⟨ho, hw⟩
      · have hnone : k ∉ s.players := fun hp => hk ⟨hd, hp⟩
        rw [AList.lookup_eq_none.mpr hnone, AList.lookup_eq_none.mpr (mt (h.known k) hnone)]
        exact .inl rfl
      · exact .inl hsame
      · refine .inr ⟨ho, fun hm => ?_⟩
        rcases List.mem_append.mp hm with hm | hm
        · exact hw hm
        · exact hk ((mem_written_dirtyJob h.keyed k).mp hm)
  refine ⟨h.mirrored.of_eq rfl rfl, h.keyed, fun k hk => ?_, .inr ?_, fun k => .inr (hplayers k), ?_⟩
  · rw [List.foldl_append, ← AList.lookup_isSome, lookup_flush h.keyed] at hk
    split at hk
    · exact AList.lookup_isSome.mp hk
    · exact h.known k (AList.lookup_isSome.mp hk)
  · rw [List.foldl_append, world_flush]
    cases hw : s.worldDirty with
    | true => rfl
    | false => exact h.world.resolve_left (by rw [hw]; exact Bool.false_ne_true)
  · rw [List.foldl_append, bans_flush]
    exact h.bans

theorem Accounted.persistBans (h : Accounted d owed s) (keys : List Bytes) :
    Accounted d owed (persistBansAsync { s with bannedKeys := keys }) := by
  unfold persistBansAsync
  refine ⟨h.mirrored.of_eq rfl rfl, h.keyed, fun k hk => h.known k ?_, ?_, fun k => ?_, ?_⟩
  · simpa [List.foldl_append, Saved.write] using hk
  · simpa [List.foldl_append, Saved.write] using h.world
  · simpa [List.foldl_append, Saved.write, written] using h.players k
  · simp [List.foldl_append, Saved.write]

/-- A Hello of the step alters no other record than an owed one. -/
def Registers (s₀ : ServerRuntime) (i : Env × Input) (owed : List Bytes) : Prop :=
  ∀ hello, Admits s₀ i hello → helloKey hello ∈ owed ∨ s₀.players.lookup (helloKey hello) = some (helloRecord s₀ hello)

theorem Part.accounted (hp : Part s₀ i s s') (hj : s₀.persist = []) (hreg : Registers s₀ i owed) (h : Accounted d owed s) :
    Accounted d owed s' := by
  have hm := hp.mirrored h.mirrored
  have hkeyed := hp.keyedRecords h.mirrored h.keyed
  cases hp with
  | aside ha =>
    exact h.of_eq hm ha.players ha.persist ha.bannedKeys (.inr ⟨ha.worldDirty, by rw [ha.world]⟩)
      (ha.dirtyPlayers ▸ List.Subset.refl _)
  | remember id client hl =>
    obtain ⟨rec_, hr, -⟩ := h.mirrored.all id client hl
    refine h.insert hm hkeyed rfl rfl rfl (.inr ⟨rfl, rfl⟩) (List.Subset.refl _) (.inr (.inl ?_))
    rw [hr, Option.getD_some]
  | snapshot world => exact h.of_eq hm rfl rfl rfl (.inl rfl) (List.Subset.refl _)
  | assemble type id hid hstay asm hs hslots =>
    rw [setAssemblies_eq] at hm ⊢
    exact h.of_eq hm rfl rfl rfl (.inr ⟨rfl, rfl⟩) (List.Subset.refl _)
  | store type id client hl blob hblob =>
    have hkey : (PlayerRec.storeBlob type blob
      { (s.players.lookup client.playerKey).getD {} with key := client.playerKey }).key = client.playerKey := storeBlob_key _ _ _
    refine h.insert hm hkeyed rfl rfl rfl (.inr ⟨rfl, rfl⟩) (fun k hk => List.mem_insert_of_mem hk) (.inl ?_)
    exact hkey.subst (motive := (· ∈ (storeBlob s type id client blob).dirtyPlayers)) List.mem_insert_self
  | pose id client hl pose =>
    exact h.insert hm hkeyed rfl rfl rfl (.inr ⟨rfl, rfl⟩) (fun k hk => List.mem_insert_of_mem hk) (.inl List.mem_insert_self)
  | enter hello ha hpl hd hjobs =>
    have hrec : helloRecord s hello = helloRecord s₀ hello := by
      unfold helloRecord
      rw [hpl]
    refine h.insert hm hkeyed rfl rfl rfl ?_ (List.Subset.refl _) ?_
    · cases hc : s.world.created with
      | true => exact .inr ⟨by simp [enterRecord, hc], rfl⟩
      | false => exact .inl (by simp [enterRecord, hc])
    · rw [hpl, hrec, hjobs, hj]
      rcases hreg hello ha with ho | hl
      · exact .inr (.inr ⟨ho, List.not_mem_nil⟩)
      · exact .inr (.inl hl)
  | mark dirty hsub => exact h.of_eq hm rfl rfl rfl (.inr ⟨rfl, rfl⟩) hsub
  | markWorld => exact h.of_eq hm rfl rfl rfl (.inl rfl) (List.Subset.refl _)
  | flush => exact h.flush
  | bans keys => exact h.persistBans keys
  | _ => exact h.of_eq hm rfl rfl rfl (.inr ⟨rfl, rfl⟩) (List.Subset.refl _)

/-- The client `p` of the player `k` is live, or its record has been marked. -/
structure LiveOrNoted (p : PeerId) (k : Bytes) (s : ServerRuntime) : Prop where
  recorded : k ∈ s.players
  noted : (∃ c, s.clients.lookup p = some c ∧ c.playerKey = k) ∨ k ∈ s.dirtyPlayers ∨ k ∈ written s.persist

variable {p : PeerId} {k : Bytes}

theorem LiveOrNoted.mono (h : LiveOrNoted p k s) (hplayers : k ∈ s.players → k ∈ s'.players)
    (hclients : ∀ c, s.clients.lookup p = some c → ∃ c', s'.clients.lookup p = some c' ∧ c'.playerKey = c.playerKey)
    (hdirty : s.dirtyPlayers ⊆ s'.dirtyPlayers) (hpersist : written s.persist ⊆ written s'.persist) : LiveOrNoted p k s' := by
  refine ⟨hplayers h.recorded, ?_⟩
  rcases h.noted with ⟨c, hl, hk⟩ | hk | hk
  · obtain ⟨c', hl', hk'⟩ := hclients c hl
    exact .inl ⟨c', hl', hk'.trans hk⟩
  · exact .inr (.inl (hdirty hk))
  · exact .inr (.inr (hpersist hk))

theorem LiveOrNoted.of_eq (h : LiveOrNoted p k s) (hplayers : k ∈ s.players → k ∈ s'.players)
    (hclients : s'.clients = s.clients) (hdirty : s'.dirtyPlayers = s.dirtyPlayers) (hpersist : s'.persist = s.persist) :
    LiveOrNoted p k s' := by
  refine h.mono hplayers (fun c hl => ⟨c, hclients ▸ hl, rfl⟩) ?_ ?_
  · rw [hdirty]
    exact List.Subset.refl _
  · rw [hpersist]
    exact List.Subset.refl _

theorem lookup_modify_key {clients : ClientTable} {id : PeerId} {f : Client → Client} {c : Client}
    (hf : ∀ c, clients.lookup id = some c → (f c).playerKey = c.playerKey) (hl : clients.lookup p = some c) :
    ∃ c', (clients.modify id f).lookup p = some c' ∧ c'.playerKey = c.playerKey := by
  rw [Table.lookup_modify]
  by_cases hp : p = id
  · subst hp
    rw [if_pos rfl, hl]
    exact ⟨f c, rfl, hf c hl⟩
  · rw [if_neg hp]
    exact ⟨c, hl, rfl⟩

theorem mem_insert_of_mem {players : Table Bytes PlayerRec} (key : Bytes) (rec_ : PlayerRec) (h : k ∈ players) :
    k ∈ players.insert key rec_ := (AList.mem_insert _).mpr (.inr h)

theorem Part.liveOrNoted (hp : Part s₀ i s s') (hkeyed : KeyedRecords s.players)
    (h : LiveOrNoted p k s) : LiveOrNoted p k s' := by
  cases hp with
  | aside ha => exact h.of_eq (fun hk => ha.players ▸ hk) ha.clients ha.dirtyPlayers ha.persist
  | touch id f hf =>
    refine h.mono (fun hk => hk) (fun c hl => lookup_modify_key (fun c _ => ?_) hl) (List.Subset.refl _) (List.Subset.refl _)
    exact (Prod.mk.inj (Prod.mk.inj (hf c)).2).1
  | remember id client hl => exact h.of_eq (mem_insert_of_mem _ _) rfl rfl rfl
  | assemble type id hid hstay asm hs hslots =>
    rw [setAssemblies_eq]
    exact h.of_eq (fun hk => hk) rfl rfl rfl
  | store type id client hl blob hblob =>
    refine h.mono (mem_insert_of_mem _ _) (fun c hl => lookup_modify_key (fun c _ => ?_) hl)
      (fun k hk => List.mem_insert_of_mem hk) (List.Subset.refl _)
    unfold Client.storeBlob
    split <;> rfl
  | pose id client hl pose =>
    exact h.mono (mem_insert_of_mem _ _) (fun c hl => lookup_modify_key (fun _ _ => rfl) hl)
      (fun k hk => List.mem_insert_of_mem hk) (List.Subset.refl _)
  | enter hello ha hpl hd hjobs => exact h.of_eq (mem_insert_of_mem _ _) rfl rfl rfl
  | join env pending hello rec_ t hnone hkey hrec =>
    refine h.mono (fun hk => hk) (fun c hl => ⟨c, ?_, rfl⟩) (List.Subset.refl _) (List.Subset.refl _)
    by_cases hn : s.nextPeer ∈ s.clients
    · rw [insertJoining, Table.emplace_of_mem _ _ hn]
      exact hl
    · have hne : p ≠ s.nextPeer := fun he => hn (he ▸ AList.lookup_isSome.mp (by rw [hl]; rfl))
      rw [insertJoining, Table.lookup_emplace env.placement _ hn, if_neg hne]
      exact hl
  | reconnect id client hl pending hello hkey rec_ hrec token t =>
    refine h.mono (fun hk => hk) (fun c hc => lookup_modify_key (fun c hc => ?_) hc) (List.Subset.refl _) (List.Subset.refl _)
    have he : client = c := Option.some.inj (hl.symm.trans hc)
    exact hkey.symm.trans (congrArg Client.playerKey he)
  | mark dirty hsub => exact h.mono (fun hk => hk) (fun c hl => ⟨c, hl, rfl⟩) hsub (List.Subset.refl _)
  | erase id hleave hnoted =>
    refine ⟨h.recorded, ?_⟩
    rcases h.noted with ⟨c, hl, rfl⟩ | hk
    · by_cases hid : p = id
      · subst hid
        exact .inr (.inl (hnoted c hl h.recorded))
      · exact .inl ⟨c, (AList.lookup_erase_ne hid).trans hl, rfl⟩
    · exact .inr hk
  | flush =>
    rw [flushDirtyAsync_eq]
    refine ⟨h.recorded, ?_⟩
    dsimp only
    rw [written_append, List.mem_append, mem_written_dirtyJob hkeyed]
    rcases h.noted with hl | hk | hk
    · exact .inl hl
    · exact .inr (.inr (.inr ⟨hk, h.recorded⟩))
    · exact .inr (.inr (.inl hk))
  | bans keys =>
    unfold persistBansAsync
    refine h.mono (fun hk => hk) (fun c hl => ⟨c, hl, rfl⟩) (List.Subset.refl _) ?_
    rw [written_append]
    exact List.subset_append_left _ _
  | _ => exact h.of_eq (fun hk => hk) rfl rfl rfl

theorem mem_leaving {s : ServerRuntime} {i : Env × Input} : p ∈ leaving s i ↔ Leaves s.ready i p := by
  unfold leaving
  rw [List.mem_filterMap]
  constructor
  · rintro ⟨m, hm, hp⟩
    cases m with
    | leave q keep =>
      cases hp
      exact ⟨keep, hm⟩
    | _ => cases hp
  · rintro ⟨keep, hm⟩
    exact ⟨_, hm, rfl⟩

theorem runAdminCommand_save {env : Env} {cmdLine : Bytes}
    (h : (splitWords cmdLine).head?.map lowerCopy = some (ascii "save")) : runAdminCommand env s cmdLine = adminSave s := by
  unfold runAdminCommand
  cases hw : splitWords cmdLine with
  | nil =>
    rw [hw] at h
    cases h
  | cons word args =>
    rw [hw] at h
    have hcmd : lowerCopy word = ascii "save" := Option.some.inj h
    cases args with
    | nil => exact if_pos hcmd
    | cons arg rest =>
      dsimp only
      rw [hcmd, if_neg (by decide), if_neg (by decide), if_pos rfl]

/-- A `save` hands over the record of every live client. -/
theorem written_adminSave (hm : Mirrored s) (hkeyed : KeyedRecords s.players) {c : Client}
    (hl : s.clients.lookup p = some c) : c.playerKey ∈ written (adminSave s).persist := by
  have hmark : ∀ (l : List Client) (dirty : List Bytes), (c ∈ l ∨ c.playerKey ∈ dirty) →
      c.playerKey ∈ l.foldl (fun dirty client => dirty.insert client.playerKey) dirty := by
    intro l
    induction l with
    | nil => exact fun dirty h => h.resolve_left List.not_mem_nil
    | cons client l ih =>
      intro dirty h
      refine ih _ ?_
      rcases h with h | h
      · rcases List.mem_cons.mp h with rfl | h
        · exact .inr List.mem_insert_self
        · exact .inl h
      · exact .inr (List.mem_insert_of_mem h)
  have hlive : c ∈ s.clients.values := Table.mem_values.mpr ⟨p, hl⟩
  obtain ⟨rec_, hr, -⟩ := hm.all p c hl
  rw [adminSave, flushDirtyAsync_eq]
  dsimp only
  rw [written_append, List.mem_append]
  refine .inr ((mem_written_dirtyJob (by exact hkeyed) _).mpr ⟨hmark _ _ (.inl hlive), ?_⟩)
  exact AList.lookup_isSome.mp (by rw [hr]; rfl)

theorem marked_of_noted (hw : WellFormed s) (h : Accounted d owed s.ready) (hreg : Registers s.ready i owed)
    (hk : k ∈ noted s i) : k ∈ (s.step i).dirtyPlayers ∨ k ∈ written (s.step i).persist := by
  unfold noted at hk
  obtain ⟨q, hq, hkey⟩ := List.mem_filterMap.mp hk
  obtain ⟨c, hl, rfl⟩ := Option.map_eq_some_iff.mp hkey
  by_cases hs : saves i = true
  · unfold saves at hs
    split at hs
    · rename_i cmdLine hi
      have hstep : s.step i = adminSave s.ready := by
        unfold step handle
        rw [hi]
        exact runAdminCommand_save (by simpa using hs)
      rw [hstep]
      exact .inr (written_adminSave h.mirrored h.keyed (by exact hl))
    · cases hs
  · rw [if_neg hs] at hq
    have hleave := mem_leaving.mp hq
    obtain ⟨rec_, hr, -⟩ := h.mirrored.all q c hl
    have hstart : LiveOrNoted q c.playerKey s.ready := ⟨AList.lookup_isSome.mp (by rw [hr]; rfl), .inl ⟨c, hl, rfl⟩⟩
    have hend := Parts.invariant (I := fun r => Accounted d owed r ∧ LiveOrNoted q c.playerKey r) (step_parts hw i)
      (fun r r' hp hr => ⟨hp.accounted rfl hreg hr.1, hp.liveOrNoted hr.1.keyed hr.2⟩) ⟨h, hstart⟩
    refine hend.2.noted.resolve_left ?_
    rintro ⟨c', hc', -⟩
    exact not_mem_of_leaves hw hleave (AList.lookup_isSome.mp (by rw [hc']; rfl))

structure Sound (r : SavingRun) : Prop where
  wellFormed : WellFormed r.runtime
  accounted : Accounted r.saved r.owed r.runtime.ready

theorem Accounted.owe (h : Accounted d owed s) (keys : List Bytes) : Accounted d (owed ++ keys) s where
  mirrored := h.mirrored
  keyed := h.keyed
  known := h.known
  world := h.world
  players := fun k => (h.players k).imp_right (Or.imp_right (And.imp_left (List.mem_append_left _)))
  bans := h.bans

theorem registers_registered (s : ServerRuntime) (i : Env × Input) : Registers s.ready i (registered s i) := by
  rintro hello ⟨ev, t, pending, header, hs, ha, he, rfl⟩
  by_cases hl : s.players.lookup (helloKey (readHello ev.bytes)) = some (helloRecord s (readHello ev.bytes))
  · exact .inr hl
  · refine .inl ?_
    have hx : pendingExit s i = some (admitHello i.1 (s.ready.countHello pending t) pending (readHello ev.bytes) t).exit :=
      pendingExit_some.mpr ⟨ev, t, pending, hs, by rw [he]⟩
    have hadmits : (pendingExit s i).any PendingExit.admits = true := by
      have hhost : helloRequiresHost (readHello ev.bytes) = true → (s.ready.countHello pending t).world.hostPeerId ≠ 0 :=
        fun hr => hostGate_hostPeerId (ha.host hr)
      rw [hx]
      cases hf : findByKey (s.ready.countHello pending t) (helloKey (readHello ev.bytes)) with
      | some e => rw [admitHello_reconnect i.1 hf]; rfl
      | none => rw [admitHello_join i.1 hf hhost]; rfl
    unfold registered
    rw [hs.input]
    dsimp only
    rw [if_pos ⟨hadmits, hl⟩]
    exact List.mem_singleton.mpr rfl

theorem Sound.step {r : SavingRun} {j : SavingInput} (h : Sound r) (hroom : TakesAll j) : Sound (savingStep r j) := by
  have hw := h.wellFormed
  have hreg : Registers r.runtime.ready j.1 (r.owed ++ registered r.runtime j.1) := fun hello ha =>
    (registers_registered _ _ hello ha).imp_left (List.mem_append_right _)
  have howe := h.accounted.owe (registered r.runtime j.1)
  have hend := Parts.invariant (I := Accounted r.saved (r.owed ++ registered r.runtime j.1)) (step_parts hw j.1)
    (fun s s' hp hs => hp.accounted rfl hreg hs) howe
  refine ⟨hw.step j.1, ?_⟩
  unfold savingStep
  rw [acceptedJobs_all hroom]
  refine ⟨hend.mirrored.of_eq rfl rfl, hend.keyed, hend.known, hend.world, fun k => ?_, hend.bans⟩
  by_cases hd : k ∈ (r.runtime.step j.1).dirtyPlayers
  · exact .inl hd
  · rcases hend.players k with hk | hk | ⟨ho, hk⟩
    · exact absurd hk hd
    · exact .inr (.inl hk)
    · have hn : k ∉ noted r.runtime j.1 := fun hn => (marked_of_noted hw howe hreg hn).elim hd hk
      exact .inr (.inr ⟨List.mem_filter.mpr ⟨ho, by simp [hd, hn]⟩, List.not_mem_nil⟩)

theorem sound_start (b : LoadedStartup) : Sound (SavingRun.start b) where
  wellFormed := wellFormed_initial b.toStartup
  accounted := by
    refine ⟨(mirrored_initial b.toStartup).of_eq rfl rfl, b.keyed, fun k hk => hk, .inr rfl, fun k => .inr (.inl rfl), rfl⟩

/-- A server with an empty session folder. -/
def emptyFolder : LoadedStartup where
  toStartup := freshStart
  keyed := nofun

end ServerRuntime
end CommonwealthMP
