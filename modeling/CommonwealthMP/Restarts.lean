import CommonwealthMP.BannedKeys
import CommonwealthMP.ShutdownFiles
import CommonwealthMP.TornBlobs

/-! # The session through restarts

Each life of the server loads the session folder, serves and is shut down. What the last life knew of the players is what
the next one starts with; the files of the folder are those of the records and no others, which carries the induction over
the lives. -/
namespace CommonwealthMP
open ByteLayout Binary32 OrderedTables QuotedText SessionTable StepRuns

namespace ServerRuntime
variable {s₀ s s' : ServerRuntime} {i : Env × Input}

structure SaneRecords (s : ServerRuntime) : Prop where
  clients : ∀ id c, s.clients.lookup id = some c → SaneKey c.playerKey
  players : ∀ k ∈ s.players, SaneKey k

theorem mem_of_mem_insert {players : Table Bytes PlayerRec} {key k : Bytes} {rec_ : PlayerRec} (h : k ∈ players.insert key rec_) :
    k = key ∨ k ∈ players := by
  by_cases hk : k = key
  · exact .inl hk
  · rw [← AList.lookup_isSome, AList.lookup_insert_ne hk, AList.lookup_isSome] at h
    exact .inr h

theorem Part.saneRecords (hp : Part s₀ i s s') (h : SaneRecords s) : SaneRecords s' := by
  refine ⟨hp.saneClients h.clients, ?_⟩
  have insert {key : Bytes} {rec_ : PlayerRec} (hkey : SaneKey key) : ∀ k ∈ s.players.insert key rec_, SaneKey k :=
    fun k hk => (mem_of_mem_insert hk).elim (fun he => he ▸ hkey) (h.players k)
  cases hp with
  | aside ha =>
    rw [ha.players]
    exact h.players
  | remember id client hl => exact insert (h.clients id client hl)
  | store type id client hl blob hblob => exact insert (h.clients id client hl)
  | pose id client hl pose => exact insert (h.clients id client hl)
  | enter hello ha hp hd hj => exact insert (sane_key _)
  | assemble type id hid hstay asm hs hslots =>
    rw [setAssemblies_eq]
    exact h.players
  | flush =>
    rw [flushDirtyAsync_eq]
    exact h.players
  | _ => exact h.players

theorem saneRecords_run (b : LoadedStartup) (hb : ∀ k ∈ b.players, SaneKey k) (is : List (Env × Input)) :
    SaneRecords (runFrom b.toStartup is) := by
  induction is using List.reverseRecOn with
  | nil => exact ⟨fun _ _ h => (by cases h), hb⟩
  | append_singleton is i ih =>
    rw [runFrom_concat]
    exact Parts.invariant (step_parts (runFrom_reachable b.toStartup is).wellFormed i) (fun _ _ => Part.saneRecords)
      ⟨ih.clients, ih.players⟩

/-- `read_bin` takes no more than a mebibyte. -/
def SmallBlobs (players : Table Bytes PlayerRec) : Prop :=
  ∀ k r, players.lookup k = some r → r.appearance.length ≤ 2 ^ 20 ∧ r.inventory.length ≤ 2 ^ 20

theorem Completed.length_le {b : Startup} {is : List (Env × Input)} {key blob : Bytes} {type : Msg}
    (h : Completed b is key type blob) : blob.length ≤ 0xFFFF := by
  obtain ⟨before, j, after, c, -, -, -, -, hdone⟩ := h
  unfold Arrival.completes at hdone
  split at hdone
  · exact complete_length_le (takeBlob_some (Prod.ext rfl hdone))
  · cases hdone

theorem smallBlobs_run (b : LoadedStartup) (hb : SmallBlobs b.players) (is : List (Env × Input)) :
    SmallBlobs (runFrom b.toStartup is).players := by
  intro k r hl
  have small {type : Msg} (hc : Chunked type) : (PlayerRec.blob type r).length ≤ 2 ^ 20 := by
    rcases holds_run hc (.inr ⟨r, hl, rfl⟩) with hnil | hold | hdone
    · rw [hnil]
      exact Nat.zero_le _
    · rcases hold with ⟨id, c, hc', -⟩ | ⟨r₀, hl₀, hblob⟩
      · cases hc'
      · rw [← hblob]
        rcases hc with rfl | rfl
        · exact (hb k r₀ hl₀).1
        · exact (hb k r₀ hl₀).2
    · exact hdone.length_le.trans (by norm_num)
  exact ⟨small (.inl rfl), small (.inr rfl)⟩

theorem outlived_run (b : LoadedStartup) {r : PlayerRec} (hr : Outlived b.players r) (is : List (Env × Input)) :
    Outlived (runFrom b.toStartup is).players r := by
  induction is using List.reverseRecOn with
  | nil => exact hr
  | append_singleton is i ih =>
    rw [runFrom_concat]
    exact ((recorded_runFrom b is).step i).2.2 r ih

end ServerRuntime

open ServerRuntime

/-- What the simulation thread does is a run of the server; the shutdown saves as the command does. -/
theorem PersistThreads.sim_run (b : LoadedStartup) (as : List PersistAction) :
    ∃ is, (run PersistThreads.step (PersistThreads.start b) as).sim = runFrom b.toStartup is := by
  induction as using List.reverseRecOn with
  | nil => exact ⟨[], rfl⟩
  | append_singleton as a ih =>
    obtain ⟨is, his⟩ := ih
    rw [run_concat]
    have same : ∃ js, (run PersistThreads.step (PersistThreads.start b) as).sim = runFrom b.toStartup js := ⟨is, his⟩
    cases a with
    | handle i =>
      rw [PersistThreads.step]
      split
      · exact ⟨is ++ [i], by rw [runFrom_concat, ← his]⟩
      · exact same
    | shutDown =>
      rw [PersistThreads.step]
      split
      · exact ⟨is ++ [(plainEnv, .admin (ascii "save"))], by rw [runFrom_concat, step_save, ← his]⟩
      · exact same
    | main =>
      rw [PersistThreads.step, PersistThreads.mainStep]
      split
      · exact same
      · unfold PersistThreads.shutdownStep
        repeat' split
        all_goals exact same
    | worker => exact same

section Folder
variable (fmt : NumberText)

/-- The files are those of the records, each under its sanitized key, and no others. -/
structure HoldsRecords (folder : SessionFolder) (players : Table Bytes PlayerRec) : Prop where
  keyed : KeyedRecords players
  sane : ∀ k ∈ players, SaneKey k
  small : SmallBlobs players
  files : ∀ k r, players.lookup k = some r → ∀ suffix ∈ playerSuffixes,
    folder.players.lookup (k ++ suffix) = recordFile fmt r (k ++ suffix)
  others : ∀ name, folder.players.lookup name ≠ none → ∃ k ∈ players, ∃ suffix ∈ playerSuffixes, name = k ++ suffix

theorem holdsRecords_empty : HoldsRecords fmt {} ∅ :=
  ⟨fun _ _ h => (by cases h), fun _ h => (by cases h), fun _ _ h => (by cases h), fun _ _ h => (by cases h),
    fun _ h => absurd rfl h⟩

theorem recordFile_suffix {r : PlayerRec} {name : Bytes} (h : recordFile fmt r name ≠ none) :
    ∃ suffix ∈ playerSuffixes, name = r.key ++ suffix := by
  unfold recordFile at h
  split_ifs at h with hi ha hj
  · exact ⟨_, by decide, hi.1⟩
  · exact ⟨_, by decide, ha.1⟩
  · exact ⟨_, by decide, hj⟩
  · exact absurd rfl h

variable {fmt} {folder : SessionFolder} {players : Table Bytes PlayerRec}

/-- The records as a set that is written into an empty folder. -/
def HoldsRecords.roster (h : HoldsRecords fmt folder players) : Roster where
  records := players.values
  sanitized r hr := by
    obtain ⟨k, hl⟩ := Table.mem_values.mp hr
    have hsane := h.sane k (by rw [← AList.lookup_isSome, hl]; rfl)
    refine ⟨k, (h.keyed k r hl).trans ?_⟩
    have hfixed := hsane.fixed
    unfold sanitizePlayerKey at hfixed ⊢
    dsimp only at hfixed ⊢
    split at hfixed
    · exact absurd hfixed.symm hsane.nonempty
    · rename_i hne
      rw [if_neg hne]
      exact hfixed.symm
  distinct := Table.nodup_map_values fun k k' r r' hl hl' hkey => by
    rw [← h.keyed k r hl, ← h.keyed k' r' hl', hkey]

theorem HoldsRecords.mem_roster (h : HoldsRecords fmt folder players) {k : Bytes} {r : PlayerRec} (hl : players.lookup k = some r) :
    r ∈ h.roster.records := Table.lookup_mem_values hl

theorem HoldsRecords.key_ne_nil (h : HoldsRecords fmt folder players) {k : Bytes} (hk : k ∈ players) : k ≠ [] :=
  (h.sane k hk).nonempty

/-- The folder reads as the one into which the records have been written. -/
theorem HoldsRecords.lookup_eq (h : HoldsRecords fmt folder players) (name : Bytes) :
    folder.players.lookup name = (persistAll fmt h.roster).players.lookup name := by
  have hends : ∀ suffix ∈ playerSuffixes, ∃ tail, suffix = 46 :: tail := by
    intro suffix hs
    simp only [playerSuffixes, List.mem_cons, List.not_mem_nil, or_false] at hs
    rcases hs with rfl | rfl | rfl
    · exact ⟨ascii "json", rfl⟩
    · exact ⟨ascii "appearance.bin", rfl⟩
    · exact ⟨ascii "inventory.bin", rfl⟩
  by_cases hname : ∃ k ∈ players, ∃ suffix ∈ playerSuffixes, name = k ++ suffix
  · obtain ⟨k, hk, suffix, hs, rfl⟩ := hname
    obtain ⟨r, hl⟩ := Option.isSome_iff_exists.mp (AList.lookup_isSome.mpr hk)
    obtain ⟨tail, rfl⟩ := hends suffix hs
    have hwritten := lookup_persistAll fmt h.roster (h.mem_roster hl) tail
    rw [h.keyed k r hl] at hwritten
    rw [h.files k r hl _ hs, hwritten]
  · have hfolder : folder.players.lookup name = none := by
      by_contra hne
      exact hname (h.others name hne)
    rcases lookup_persist fmt h.roster.records (fun r hr => h.roster.key_ne_nil hr) name with ⟨r, hr, hsome, -⟩ | ⟨-, hnone⟩
    · obtain ⟨k, hl⟩ := Table.mem_values.mp hr
      obtain ⟨suffix, hs, rfl⟩ := recordFile_suffix fmt hsome
      exact absurd ⟨k, by rw [← AList.lookup_isSome, hl]; rfl, suffix, hs, by rw [h.keyed k r hl]⟩ hname
    · rw [hfolder]
      exact hnone.symm

/-- Two folders with the same files load alike, each listed in some order. -/
theorem load_of_sameFiles {folder' : SessionFolder} (hf : ∀ name, folder.players.lookup name = folder'.players.lookup name)
    (order : DirectoryOrder) :
    ∃ order' : DirectoryOrder, (loadWorld fmt order folder {} ∅).2 = (loadWorld fmt order' folder' {} ∅).2 := by
  have hperm : folder.players.entries.Perm folder'.players.entries :=
    List.lookup_ext folder.players.nodupKeys folder'.players.nodupKeys fun name content => by
      change content ∈ folder.players.lookup name ↔ content ∈ folder'.players.lookup name
      rw [hf]
  let order' : DirectoryOrder := {
    visit := fun l => if l = folder'.players.entries then order.visit folder.players.entries else l
    perm := fun l => by
      split
      · rename_i hl
        rw [hl]
        exact (order.perm _).trans hperm
      · exact .refl l }
  have hentry : loadEntry fmt folder = loadEntry fmt folder' := by
    funext loaded entry
    simp only [loadEntry, loadPlayer, SessionFolder.readBin, hf]
  refine ⟨order', ?_⟩
  simp only [loadWorld, order', if_true, hentry]

/-- A record as the next life has it: the same player with the same blobs, and all of it as written where it can be. -/
structure RecordRestored (fmt : NumberText) (r r' : PlayerRec) : Prop where
  key : r'.key = r.key
  appearance : r'.appearance = r.appearance
  inventory : r'.inventory = r.inventory
  whole : r' = asWritten fmt r ↔ Restorable fmt r

structure PlayersRestored (fmt : NumberText) (players players' : Table Bytes PlayerRec) : Prop where
  keys : ∀ k, k ∈ players' ↔ k ∈ players
  records : ∀ k r, players.lookup k = some r → ∃ r', players'.lookup k = some r' ∧ RecordRestored fmt r r'

theorem HoldsRecords.restored (h : HoldsRecords fmt folder players) (order : DirectoryOrder) :
    PlayersRestored fmt players (loadWorld fmt order folder {} ∅).2 := by
  obtain ⟨order', hload⟩ : ∃ order', (loadWorld fmt order folder {} ∅).2 = (loadWorld fmt order' (persistAll fmt h.roster) {} ∅).2 :=
    load_of_sameFiles h.lookup_eq order
  rw [hload]
  change PlayersRestored fmt players (loaded fmt h.roster order')
  constructor
  · intro k
    rw [mem_loaded]
    constructor
    · rintro ⟨r, hr, rfl⟩
      obtain ⟨k, hl⟩ := Table.mem_values.mp hr
      rw [h.keyed k r hl, ← AList.lookup_isSome, hl]
      rfl
    · intro hk
      obtain ⟨r, hl⟩ := Option.isSome_iff_exists.mp (AList.lookup_isSome.mpr hk)
      exact ⟨r, h.mem_roster hl, h.keyed k r hl⟩
  · intro k r hl
    have hr := h.mem_roster hl
    obtain ⟨happ, hinv⟩ := h.small k r hl
    have hkey := jsonQuoted_key fmt r (h.roster.key_mark hr)
    refine ⟨_, h.keyed k r hl ▸ lookup_loaded fmt h.roster order' hr, ?_⟩
    constructor
    · exact loadPlayer_key fmt h.roster hr _ _
    · simp only [loadPlayer, hkey, if_neg (h.roster.key_ne_nil hr), readBin_appearance fmt h.roster hr, if_neg (not_lt.mpr happ)]
    · simp only [loadPlayer, hkey, if_neg (h.roster.key_ne_nil hr), readBin_inventory fmt h.roster hr, if_neg (not_lt.mpr hinv)]
    · exact loadPlayer_eq_iff fmt h.roster hr _

end Folder

section World
variable (fmt : NumberText) (world : SessionWorld)

def worldNumbers : List (Bytes × Bytes) :=
  [(ascii "pluginVersion", decimal kPluginVersion.toNat), (ascii "spawnLocation", decimal world.spawnLocation.toNat),
    (ascii "spawnX", fmt.print world.spawnX), (ascii "spawnY", fmt.print world.spawnY), (ascii "spawnZ", fmt.print world.spawnZ),
    (ascii "gameHour", fmt.print world.gameHour), (ascii "gameDaysPassed", fmt.print world.gameDaysPassed),
    (ascii "weatherFormId", decimal world.weatherFormId.toNat)]

theorem worldJson_eq : worldJson fmt world = [123, 10, 32, 32] ++ numberFields (worldNumbers fmt world) := by
  have hopen : ascii "\x7b\n" = [123, 10] := by decide
  have hclose : ascii "\n\x7d\n" = [10, 125, 10] := by decide
  have hcomma : ascii ",\n" = [44, 10] := by decide
  have hindent : ascii "  " = [32, 32] := by decide
  have hcolon : ascii ": " = [58, 32] := by decide
  simp only [worldJson, jsonField, quoted, worldNumbers, numberFields, numberField, nextField, hopen, hclose, hcomma, hindent, hcolon,
    List.append_assoc, List.cons_append, List.nil_append]

theorem worldNumbers_plain : ∀ f ∈ worldNumbers fmt world, 34 ∉ f.1 ∧ ∀ c ∈ f.2, NumberChar c := by
  have hdec (n : ℕ) : ∀ c ∈ decimal n, NumberChar c := fun c hc => numberChar_of_isDigit (decimal_isDigit hc)
  intro f hf
  simp only [worldNumbers, List.mem_cons, List.not_mem_nil, or_false] at hf
  rcases hf with rfl | rfl | rfl | rfl | rfl | rfl | rfl | rfl
  · exact ⟨by dsimp only; decide, hdec _⟩
  · exact ⟨by dsimp only; decide, hdec _⟩
  · exact ⟨by dsimp only; decide, fmt.print_chars _⟩
  · exact ⟨by dsimp only; decide, fmt.print_chars _⟩
  · exact ⟨by dsimp only; decide, fmt.print_chars _⟩
  · exact ⟨by dsimp only; decide, fmt.print_chars _⟩
  · exact ⟨by dsimp only; decide, fmt.print_chars _⟩
  · exact ⟨by dsimp only; decide, hdec _⟩

theorem jsonNumber_worldJson {w number : Bytes} {d : fmt.Double} (fallback : fmt.Double) (hw : FieldName w) (hd : fmt.Reads number d)
    (h : (worldNumbers fmt world).lookup w = some number) : jsonNumber fmt (worldJson fmt world) w fallback = d := by
  obtain ⟨rest, hrest, hafter⟩ := after_numberFields hw (worldNumbers_plain fmt world) h
  refine jsonNumber_of_after fmt fallback [] rest List.not_mem_nil hd hrest ?_
  rw [worldJson_eq, after_quoted_append (by decide), hafter]
  rfl

/-- The world as the file has it; who the host is and where is not in it. -/
def restoredWorld : SessionWorld :=
  { ({} : SessionWorld) with
    created := true
    spawnLocation := world.spawnLocation
    spawnX := fmt.asPrinted world.spawnX
    spawnY := fmt.asPrinted world.spawnY
    spawnZ := fmt.asPrinted world.spawnZ
    gameHour := fmt.asPrinted world.gameHour
    gameDaysPassed := fmt.asPrinted world.gameDaysPassed
    weatherFormId := world.weatherFormId }

theorem loadWorldJson_worldJson : loadWorldJson fmt (worldJson fmt world) {} = restoredWorld fmt world := by
  have form {w : Bytes} (n : UInt32) (fallback : fmt.Double) (hw : FieldName w)
      (h : (worldNumbers fmt world).lookup w = some (decimal n.toNat)) :
      fmt.toUInt (jsonNumber fmt (worldJson fmt world) w fallback) = n := by
    rw [jsonNumber_worldJson fmt world fallback hw (fmt.reads_decimal n) h, fmt.toUInt_ofUInt]
  have coordinate {w : Bytes} (v : F32) (fallback : fmt.Double) (hw : FieldName w)
      (h : (worldNumbers fmt world).lookup w = some (fmt.print v)) :
      fmt.toFloat (jsonNumber fmt (worldJson fmt world) w fallback) = fmt.asPrinted v := by
    obtain ⟨d, hd, hprinted⟩ := fmt.reads_print v
    rw [jsonNumber_worldJson fmt world fallback hw hd h, hprinted]
  rw [loadWorldJson, restoredWorld, form world.spawnLocation _ ⟨by decide, by decide, by decide⟩ rfl,
    coordinate world.spawnX _ ⟨by decide, by decide, by decide⟩ rfl, coordinate world.spawnY _ ⟨by decide, by decide, by decide⟩ rfl,
    coordinate world.spawnZ _ ⟨by decide, by decide, by decide⟩ rfl, coordinate world.gameHour _ ⟨by decide, by decide, by decide⟩ rfl,
    coordinate world.gameDaysPassed _ ⟨by decide, by decide, by decide⟩ rfl,
    form world.weatherFormId _ ⟨by decide, by decide, by decide⟩ rfl]

end World

/-- One life of the server. `--reset-session` empties the folder before it is loaded. -/
structure Life where
  cfg : ServerConfig
  bannedKeys : List Bytes
  order : DirectoryOrder
  resetSession : Bool
  actions : List PersistAction

namespace Life
variable (fmt : NumberText)

def found (life : Life) (folder : SessionFolder) : SessionFolder := if life.resetSession then {} else folder

def loaded (folder : SessionFolder) (life : Life) : LoadedStartup :=
  loadedStartup life.cfg fmt life.order (life.found folder) life.bannedKeys

def ended (folder : SessionFolder) (life : Life) : PersistThreads :=
  run PersistThreads.step (PersistThreads.start (life.loaded fmt folder)) life.actions

def leaves (folder : SessionFolder) (life : Life) : SessionFolder :=
  filesAfter fmt (life.found folder) (life.ended fmt folder).worker.executed

/-- The shutdown of the life has run to its end. -/
def ShutDown (folder : SessionFolder) (life : Life) : Prop := (life.ended fmt folder).main = .stopped

variable {fmt} {folder : SessionFolder} {players : Table Bytes PlayerRec} {life : Life}

theorem holdsRecords_found (h : ∃ players, HoldsRecords fmt folder players) (life : Life) :
    ∃ players, HoldsRecords fmt (life.found folder) players := by
  unfold found
  split
  · exact ⟨∅, holdsRecords_empty fmt⟩
  · exact h

section Ended
variable (h : HoldsRecords fmt (life.found folder) players)
include h

theorem loaded_restored : PlayersRestored fmt players (life.loaded fmt folder).players := h.restored life.order

theorem loaded_sane : ∀ k ∈ (life.loaded fmt folder).players, SaneKey k := fun k hk => h.sane k (((loaded_restored h).keys k).mp hk)

theorem loaded_small : SmallBlobs (life.loaded fmt folder).players := by
  intro k r' hl'
  have hk : k ∈ players := ((loaded_restored h).keys k).mp (by rw [← AList.lookup_isSome, hl']; rfl)
  obtain ⟨r, hl⟩ := Option.isSome_iff_exists.mp (AList.lookup_isSome.mpr hk)
  obtain ⟨r'', hl'', hr⟩ := (loaded_restored h).records k r hl
  cases hl'.symm.trans hl''
  rw [hr.appearance, hr.inventory]
  exact h.small k r hl

theorem ended_sane : ∀ k ∈ (life.ended fmt folder).sim.players, SaneKey k := by
  obtain ⟨is, his⟩ : ∃ is, (life.ended fmt folder).sim = runFrom (life.loaded fmt folder).toStartup is :=
    PersistThreads.sim_run (life.loaded fmt folder) life.actions
  rw [his]
  exact (saneRecords_run _ (loaded_sane h) is).players

theorem ended_small : SmallBlobs (life.ended fmt folder).sim.players := by
  obtain ⟨is, his⟩ : ∃ is, (life.ended fmt folder).sim = runFrom (life.loaded fmt folder).toStartup is :=
    PersistThreads.sim_run (life.loaded fmt folder) life.actions
  rw [his]
  exact smallBlobs_run _ (loaded_small h) is

/-- A record that the folder holds has all its files at the end of the life, too. -/
theorem ended_grown {k : Bytes} {r : PlayerRec} (hl : players.lookup k = some r) :
    ∃ rec_, (life.ended fmt folder).sim.players.lookup k = some rec_ ∧ ∀ suffix ∈ playerSuffixes,
      recordFile fmt r (k ++ suffix) ≠ none → recordFile fmt rec_ (k ++ suffix) ≠ none := by
  obtain ⟨r', hl', hr⟩ := (loaded_restored h).records k r hl
  have hkey : r'.key = k := hr.key.trans (h.keyed k r hl)
  obtain ⟨is, his⟩ : ∃ is, (life.ended fmt folder).sim = runFrom (life.loaded fmt folder).toStartup is :=
    PersistThreads.sim_run (life.loaded fmt folder) life.actions
  obtain ⟨rec_, hrec, hg⟩ := outlived_run (life.loaded fmt folder) (r := r') ⟨r', by rw [hkey]; exact hl', .refl r'⟩ is
  rw [hkey] at hrec
  refine ⟨rec_, by rw [his]; exact hrec, fun suffix hs hfile => ?_⟩
  have hloaded : recordFile fmt r' (k ++ suffix) ≠ none := by
    rw [recordFile_ne_none fmt hs] at hfile ⊢
    exact ⟨hkey, fun ha => hr.appearance ▸ hfile.2.1 ha, fun hi => hr.inventory ▸ hfile.2.2 hi⟩
  exact recordFile_grown fmt hs hg ((recorded_runFrom (life.loaded fmt folder) is).keyed k rec_ hrec) hloaded

theorem mem_ended {k : Bytes} (hk : k ∈ players) : k ∈ (life.ended fmt folder).sim.players := by
  obtain ⟨r, hl⟩ := Option.isSome_iff_exists.mp (AList.lookup_isSome.mpr hk)
  obtain ⟨rec_, hrec, -⟩ := ended_grown h hl
  rw [← AList.lookup_isSome, hrec]
  rfl

/-- The records of a life outlive those it has loaded, file by file. -/
theorem holdsRecords_ended (hd : life.ShutDown fmt folder) :
    HoldsRecords fmt (life.leaves fmt folder) (life.ended fmt folder).sim.players := by
  have hsound : PersistThreads.Sound (life.ended fmt folder) := PersistThreads.sound_run (life.loaded fmt folder) life.actions
  have hfinal := hsound.files hd fmt (life.found folder)
  refine ⟨hsound.recorded.keyed, ended_sane h, ended_small h, fun k rec_ hrec suffix hs => ?_, fun name hname => ?_⟩
  · have hne := (ended_sane h k (by rw [← AList.lookup_isSome, hrec]; rfl)).nonempty
    refine (hfinal.players k rec_ hrec hne suffix hs).trans ?_
    cases hwritten : recordFile fmt rec_ (k ++ suffix) with
    | some content => exact Option.some_or
    | none =>
      -- a file the record does not have would be one of a record that was loaded
      rw [Option.none_or]
      by_contra hold
      obtain ⟨k', hk', suffix', hs', he⟩ := h.others _ hold
      obtain ⟨rfl, rfl⟩ := suffix_inj hs hs' he
      obtain ⟨r, hl⟩ := Option.isSome_iff_exists.mp (AList.lookup_isSome.mpr hk')
      obtain ⟨rec', hrec', hkept⟩ := ended_grown h hl
      cases hrec.symm.trans hrec'
      refine hkept suffix hs ?_ hwritten
      rw [← h.files k r hl suffix hs]
      exact hold
  · unfold leaves at hname
    rw [← filesAfter_solid, hsound.executed_all hd] at hname
    by_cases hjobs : ∀ job ∈ (life.ended fmt folder).worker.accepted, ∀ r ∈ job.players, recordFile fmt r name = none
    · rw [lookup_filesAfter fmt hjobs] at hname
      obtain ⟨k, hk, suffix, hs, he⟩ := h.others name hname
      exact ⟨k, mem_ended h hk, suffix, hs, he⟩
    · push Not at hjobs
      obtain ⟨job, hjob, r, hr, hfile⟩ := hjobs
      obtain ⟨rec_, hrec, -⟩ := (hsound.accepted job hjob).2 r hr
      obtain ⟨suffix, hs, he⟩ := recordFile_suffix fmt hfile
      exact ⟨r.key, by rw [← AList.lookup_isSome, hrec]; rfl, suffix, hs, he⟩

end Ended

theorem holdsRecords_run {lives : List Life} (h : AllSteps (leaves fmt) (ShutDown fmt) {} lives) :
    ∃ players, HoldsRecords fmt (run (leaves fmt) {} lives) players :=
  run_invariant (I := fun folder => ∃ players, HoldsRecords fmt folder players)
    (fun folder life hfolder hd => by
      obtain ⟨players, hfound⟩ := holdsRecords_found hfolder life
      exact ⟨_, holdsRecords_ended hfound hd⟩)
    ⟨∅, holdsRecords_empty fmt⟩ h

/-- What a life starts with after one that knew the players and the world. -/
structure Restored (fmt : NumberText) (s : ServerRuntime) (b : LoadedStartup) : Prop where
  players : PlayersRestored fmt s.players b.players
  world : b.world = restoredWorld fmt s.world

section Next
variable {lives : List Life} {next : Life}

theorem found_next (hkeep : next.resetSession = false) :
    next.found (run (leaves fmt) {} (lives ++ [life])) = life.leaves fmt (run (leaves fmt) {} lives) := by
  rw [found, hkeep, run_concat]
  rfl

variable (hdown : AllSteps (leaves fmt) (ShutDown fmt) {} (lives ++ [life]))
include hdown

theorem shutDown_last : AllSteps (leaves fmt) (ShutDown fmt) {} lives ∧ life.ShutDown fmt (run (leaves fmt) {} lives) := by
  obtain ⟨hbefore, hlast, -⟩ := (allSteps_append lives [life]).mp hdown
  exact ⟨hbefore, hlast⟩

variable (hkeep : next.resetSession = false)
include hkeep

theorem players_restored : PlayersRestored fmt (life.ended fmt (run (leaves fmt) {} lives)).sim.players
    (next.loaded fmt (run (leaves fmt) {} (lives ++ [life]))).players := by
  obtain ⟨hbefore, hd⟩ := shutDown_last hdown
  obtain ⟨players, hfound⟩ := holdsRecords_found (holdsRecords_run hbefore) life
  rw [loaded, found_next hkeep]
  exact (holdsRecords_ended hfound hd).restored next.order

theorem world_restored : (next.loaded fmt (run (leaves fmt) {} (lives ++ [life]))).world =
    restoredWorld fmt (life.ended fmt (run (leaves fmt) {} lives)).sim.world := by
  obtain ⟨-, hd⟩ := shutDown_last hdown
  have hsound := PersistThreads.sound_run (life.loaded fmt (run (leaves fmt) {} lives)) life.actions
  have hfile : (life.leaves fmt (run (leaves fmt) {} lives)).worldJson =
      some (worldJson fmt (life.ended fmt (run (leaves fmt) {} lives)).sim.world) :=
    (hsound.files hd fmt (life.found (run (leaves fmt) {} lives))).world
  rw [loaded, found_next hkeep]
  change (loadWorld fmt next.order (life.leaves fmt (run (leaves fmt) {} lives)) {} ∅).1 = _
  rw [loadWorld, hfile]
  exact loadWorldJson_worldJson fmt _

end Next

/-- After any number of lives a life starts with the players and the world that the one before it ended with. -/
theorem session_restored (fmt : NumberText) (lives : List Life) (life next : Life)
    (hdown : AllSteps (leaves fmt) (ShutDown fmt) {} (lives ++ [life])) (hkeep : next.resetSession = false) :
    Restored fmt (life.ended fmt (run (leaves fmt) {} lives)).sim (next.loaded fmt (run (leaves fmt) {} (lives ++ [life]))) :=
  ⟨players_restored hdown hkeep, world_restored hdown hkeep⟩

/-- A player joins, shows its look, stands somewhere and is still there at the shutdown. -/
def settledLife : Life where
  cfg := {}
  bannedKeys := []
  order := ⟨id, fun l => .refl l⟩
  resetSession := false
  actions := [.handle (acceptAt 1 ⟨10, 0, 0, 1, 1000⟩), .handle (frameAt 1 0 (helloFrame (ascii "a"))),
      .handle (frameAt 1 1 (chunkPacket .AppearanceChunk 1 [7, 7] 0)),
      .handle (datagramAt ⟨10, 0, 0, 1, 2000⟩ (makeUdpBind 1 1079734124).encode),
      .handle (datagramAt ⟨10, 0, 0, 1, 2000⟩ (makePose 1 0x3C ⟨0x42280000⟩ ⟨0⟩ ⟨0⟩ ⟨0⟩).encode), .shutDown] ++
    List.replicate 4 .main ++ List.replicate 14 .worker ++ [.main]

theorem session_restored_settledLife :
    (settledLife.ended plainNumbers {}).sim.players.keys = [ascii "a"] ∧ Restored plainNumbers (settledLife.ended plainNumbers {}).sim
      (settledLife.loaded plainNumbers (run (leaves plainNumbers) {} ([] ++ [settledLife]))) :=
  ⟨by decide +kernel, session_restored plainNumbers [] settledLife settledLife ⟨by unfold ShutDown; decide +kernel, trivial⟩ rfl⟩

end Life
end CommonwealthMP
