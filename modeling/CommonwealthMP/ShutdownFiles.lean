import CommonwealthMP.PersistThreads
import CommonwealthMP.PlayerRecords

/-! # What the shutdown leaves in the session folder

The final job holds the world and every record, and it is the last one accepted; so what the
worker has written when `stop` returns is the final state. -/
namespace CommonwealthMP
open ByteLayout OrderedTables SessionTable StepRuns ServerRuntime

section Files
variable (fmt : NumberText)

/-- A job as the worker executes it; the ban list is a file outside the folder. -/
def PersistJob.execute (folder : SessionFolder) (job : PersistJob) : SessionFolder :=
  job.players.foldl (SessionFolder.persistPlayer fmt)
    (match job.world with
      | some world => folder.persistWorld fmt world
      | none => folder)

def filesAfter (folder : SessionFolder) (jobs : List PersistJob) : SessionFolder := jobs.foldl (PersistJob.execute fmt) folder

def playerSuffixes : List Bytes := [ascii ".json", ascii ".appearance.bin", ascii ".inventory.bin"]

/-- The files hold the final world and the final records; a file that the final record of a player does not have
was not written at all. -/
structure FilesFinal (s : ServerRuntime) (before after : SessionFolder) : Prop where
  world : after.worldJson = some (worldJson fmt s.world)
  players : ∀ k rec_, s.players.lookup k = some rec_ → k ≠ [] → ∀ suffix ∈ playerSuffixes,
    after.players.lookup (k ++ suffix) = (recordFile fmt rec_ (k ++ suffix)).or (before.players.lookup (k ++ suffix))

theorem execute_blank {job : PersistJob} (h : job.blank = true) (folder : SessionFolder) : job.execute fmt folder = folder := by
  simp only [PersistJob.blank, decide_eq_true_eq] at h
  unfold PersistJob.execute
  rw [h.1, h.2.1]
  rfl

theorem filesAfter_solid (folder : SessionFolder) (jobs : List PersistJob) :
    filesAfter fmt folder (solid jobs) = filesAfter fmt folder jobs := by
  induction jobs generalizing folder with
  | nil => rfl
  | cons job jobs ih =>
    cases hb : job.blank with
    | true =>
      rw [solid_cons_of_blank hb, ih]
      unfold filesAfter
      rw [List.foldl_cons, execute_blank fmt hb]
    | false =>
      rw [show solid (job :: jobs) = job :: solid jobs from List.filter_cons_of_pos (by simp [hb])]
      exact ih _

theorem suffix_inj {k k' suffix suffix' : Bytes} (hs : suffix ∈ playerSuffixes) (hs' : suffix' ∈ playerSuffixes)
    (h : k ++ suffix = k' ++ suffix') : k = k' ∧ suffix = suffix' := by
  have hlong : ∀ s ∈ playerSuffixes, 5 ≤ s.length := by decide
  have hends : ∀ s ∈ playerSuffixes, ∀ s' ∈ playerSuffixes, s.reverse.take 5 = s'.reverse.take 5 → s = s' := by decide
  have hend : ∀ (l : Bytes), ∀ s ∈ playerSuffixes, (l ++ s).reverse.take 5 = s.reverse.take 5 := by
    intro l s hs
    rw [List.reverse_append, List.take_append_of_le_length]
    rw [List.length_reverse]
    exact hlong s hs
  have hsuffix : suffix = suffix' := by
    apply hends suffix hs suffix' hs'
    rw [← hend k suffix hs, h, hend k' suffix' hs']
  subst hsuffix
  exact ⟨List.append_cancel_right h, rfl⟩

theorem recordFile_ne_none {r : PlayerRec} {k suffix : Bytes} (hs : suffix ∈ playerSuffixes) :
    recordFile fmt r (k ++ suffix) ≠ none ↔ r.key = k ∧ (suffix = ascii ".appearance.bin" → r.appearance ≠ []) ∧
      (suffix = ascii ".inventory.bin" → r.inventory ≠ []) := by
  have hname : ∀ suffix' ∈ playerSuffixes, (k ++ suffix = r.key ++ suffix' ↔ r.key = k ∧ suffix = suffix') := by
    intro suffix' hs'
    constructor
    · intro h
      obtain ⟨hk, he⟩ := suffix_inj hs hs' h
      exact ⟨hk.symm, he⟩
    · rintro ⟨rfl, rfl⟩
      rfl
  simp only [recordFile, hname (ascii ".json") (by decide), hname (ascii ".appearance.bin") (by decide),
    hname (ascii ".inventory.bin") (by decide)]
  by_cases hk : r.key = k
  · have hne : (ascii ".json" ≠ ascii ".appearance.bin" ∧ ascii ".json" ≠ ascii ".inventory.bin" ∧
        ascii ".appearance.bin" ≠ ascii ".inventory.bin") := by decide
    simp only [playerSuffixes, List.mem_cons, List.not_mem_nil, or_false] at hs
    rcases hs with rfl | rfl | rfl
    · simp [hk, hne.1, hne.2.1]
    · simp [hk, hne.2.2, hne.1.symm]
    · simp [hk, hne.2.1.symm, hne.2.2.symm]
  · simp [hk]

/-- A file that an earlier record of a player has, the later one has. -/
theorem recordFile_grown {r r' : PlayerRec} {k suffix : Bytes} (hs : suffix ∈ playerSuffixes) (hg : Grown r r')
    (hk : r'.key = k) (h : recordFile fmt r (k ++ suffix) ≠ none) : recordFile fmt r' (k ++ suffix) ≠ none := by
  rw [recordFile_ne_none fmt hs] at h ⊢
  exact ⟨hk, fun ha => hg.appearance (h.2.1 ha), fun hi => hg.inventory (h.2.2 hi)⟩

theorem lookup_persistRecord (folder : SessionFolder) (r : PlayerRec) (name : Bytes) :
    (folder.persistPlayer fmt r).players.lookup name =
      (if r.key = [] then none else recordFile fmt r name).or (folder.players.lookup name) := by
  by_cases hk : r.key = []
  · rw [if_pos hk, Option.none_or, SessionFolder.persistPlayer, if_pos hk]
  · rw [if_neg hk, lookup_persistPlayer fmt folder hk]

theorem lookup_persistRecords {rs : List PlayerRec} {folder : SessionFolder} {name c : Bytes}
    (h : ∀ r ∈ rs, r.key ≠ [] → recordFile fmt r name = none ∨ recordFile fmt r name = some c) :
    (rs.foldl (SessionFolder.persistPlayer fmt) folder).players.lookup name =
      if ∃ r ∈ rs, r.key ≠ [] ∧ recordFile fmt r name ≠ none then some c else folder.players.lookup name := by
  induction rs using List.reverseRecOn with
  | nil => simp
  | append_singleton rs r ih =>
    have ih := ih fun r' hr' => h r' (List.mem_append_left _ hr')
    have hr := h r (List.mem_append_right _ (List.mem_singleton.mpr rfl))
    rw [List.foldl_append, List.foldl_cons, List.foldl_nil, lookup_persistRecord, ih]
    by_cases hk : r.key = []
    · rw [if_pos hk, Option.none_or]
      refine if_congr ?_ rfl rfl
      simp [hk]
    · rw [if_neg hk]
      rcases hr hk with hnone | hsome
      · rw [hnone, Option.none_or]
        refine if_congr ?_ rfl rfl
        simp [hnone]
      · rw [hsome, Option.some_or, if_pos ⟨r, List.mem_append_right _ (List.mem_singleton.mpr rfl), hk, by rw [hsome]; nofun⟩]

theorem lookup_filesAfter {jobs : List PersistJob} {name : Bytes}
    (h : ∀ job ∈ jobs, ∀ r ∈ job.players, recordFile fmt r name = none) (folder : SessionFolder) :
    (filesAfter fmt folder jobs).players.lookup name = folder.players.lookup name := by
  induction jobs generalizing folder with
  | nil => rfl
  | cons job jobs ih =>
    have hjob := h job List.mem_cons_self
    have hnone : ¬ ∃ r ∈ job.players, r.key ≠ [] ∧ recordFile fmt r name ≠ none := fun ⟨r, hr, _, hn⟩ => hn (hjob r hr)
    have hexecute : (job.execute fmt folder).players.lookup name = folder.players.lookup name := by
      unfold PersistJob.execute
      rw [lookup_persistRecords fmt (c := []) fun r hr _ => .inl (hjob r hr), if_neg hnone]
      cases job.world <;> rfl
    rw [← hexecute]
    exact ih (fun job' hjob' => h job' (List.mem_cons_of_mem _ hjob')) _

theorem worldJson_persistRecords (rs : List PlayerRec) (folder : SessionFolder) :
    (rs.foldl (SessionFolder.persistPlayer fmt) folder).worldJson = folder.worldJson := by
  induction rs generalizing folder with
  | nil => rfl
  | cons r rs ih =>
    rw [List.foldl_cons, ih]
    unfold SessionFolder.persistPlayer SessionFolder.write
    split_ifs <;> rfl

/-- The final job writes the final files over those of earlier jobs. -/
theorem filesFinal_of_last {s : ServerRuntime} (hk : KeyedRecords s.players) {jobs : List PersistJob}
    (hjobs : JobsSound s.players jobs) (folder : SessionFolder) :
    FilesFinal fmt s folder (filesAfter fmt folder (jobs ++ [PersistThreads.finalJob s])) := by
  unfold filesAfter
  rw [List.foldl_append, List.foldl_cons, List.foldl_nil]
  constructor
  · unfold PersistJob.execute
    rw [worldJson_persistRecords]
    rfl
  · intro k rec_ hl hne suffix hs
    have hkey : rec_.key = k := hk k rec_ hl
    have hmem : rec_ ∈ (PersistThreads.finalJob s).players := Table.lookup_mem_values hl
    -- a record of the table that writes the file is that of `k`
    have hown : ∀ r, s.players.lookup r.key = some r → recordFile fmt r (k ++ suffix) ≠ none → r = rec_ := by
      intro r hr hfile
      have he := ((recordFile_ne_none fmt hs).mp hfile).1
      rw [he, hl] at hr
      exact (Option.some.inj hr).symm
    have htable : ∀ r ∈ (PersistThreads.finalJob s).players, s.players.lookup r.key = some r := by
      intro r hr
      obtain ⟨key, hkr⟩ := Table.mem_values.mp hr
      rw [hk key r hkr]
      exact hkr
    unfold PersistJob.execute
    cases hfile : recordFile fmt rec_ (k ++ suffix) with
    | some content =>
      rw [lookup_persistRecords fmt (c := content), if_pos ⟨rec_, hmem, hkey ▸ hne, by rw [hfile]; nofun⟩, Option.some_or]
      intro r hr _
      by_cases hrf : recordFile fmt r (k ++ suffix) = none
      · exact .inl hrf
      · rw [hown r (htable r hr) hrf]
        exact .inr hfile
    | none =>
      have hnone : ∀ r ∈ (PersistThreads.finalJob s).players, recordFile fmt r (k ++ suffix) = none := by
        intro r hr
        by_contra hrf
        rw [hown r (htable r hr) hrf] at hrf
        exact hrf hfile
      have hearlier : ∀ job ∈ jobs, ∀ r ∈ job.players, recordFile fmt r (k ++ suffix) = none := by
        intro job hjob r hr
        by_contra hrf
        obtain ⟨rec', hl', hg⟩ := (hjobs job hjob).2 r hr
        have he := ((recordFile_ne_none fmt hs).mp hrf).1
        rw [he, hl] at hl'
        exact recordFile_grown fmt hs (Option.some.inj hl' ▸ hg) hkey hrf hfile
      rw [lookup_persistRecords fmt (c := []) fun r hr _ => .inl (hnone r hr), if_neg, Option.none_or]
      · exact lookup_filesAfter fmt hearlier folder
      · rintro ⟨r, hr, -, hrf⟩
        exact hrf (hnone r hr)

end Files

namespace PersistThreads

variable {s : PersistThreads}

theorem solid_of_sound {players : Table Bytes PlayerRec} {jobs : List PersistJob} (h : JobsSound players jobs) :
    solid jobs = jobs := List.filter_eq_self.mpr fun job hjob => by simp [(h job hjob).1]

theorem Sound.accepted (h : Sound s) : JobsSound s.sim.players s.worker.accepted :=
  JobsSound.sublist h.jobs (List.sublist_append_left _ _)

theorem Sound.executed_all (h : Sound s) (hs : s.main = .stopped) : solid s.worker.executed = s.worker.accepted := by
  have hc := h.ordered.conserved
  have hf := h.stopped hs
  rw [solid_of_sound h.accepted, solid_append, solid_append, hf, h.ordered.finished hf] at hc
  rw [← hc]
  exact (List.append_nil _).symm

theorem Sound.files (h : Sound s) (hs : s.main = .stopped) (fmt : NumberText) (folder : SessionFolder) :
    FilesFinal fmt s.sim folder (filesAfter fmt folder s.worker.executed) := by
  obtain ⟨jobs, hlast⟩ := h.last (by rw [hs]; rfl)
  have hjobs : JobsSound s.sim.players jobs := JobsSound.sublist h.accepted (by rw [hlast]; exact List.sublist_append_left _ _)
  rw [← filesAfter_solid, h.executed_all hs, hlast]
  exact filesFinal_of_last fmt h.recorded.keyed hjobs folder

end PersistThreads
end CommonwealthMP
