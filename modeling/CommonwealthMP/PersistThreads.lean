import CommonwealthMP.NetThread
import CommonwealthMP.UnsavedChanges

/-! # The main thread and the persist worker

The two threads share the queue of jobs and the flag. Every read of the flag, every push and
every pop is a step of its own, so what the other thread does in between is up to the run; a
timed wait that finds nothing returns to the test of the flag. -/
namespace CommonwealthMP
open ByteLayout OrderedTables SessionTable StepRuns

inductive LoopAt
  | testing
  | waiting
  | popped (job : PersistJob)
  | writing (job : PersistJob)
  | draining
  | drained (job : PersistJob)
  | finished

/-- `accepted` and `executed` log the jobs whose `enqueue` succeeded and those written. -/
structure PersistWorker where
  queue : AsyncQueue PersistJob := { maxSize := 256 }
  running : Bool := true
  thread : LoopAt := .testing
  accepted : List PersistJob := []
  executed : List PersistJob := []

def PersistJob.blank (job : PersistJob) : Bool := decide (job.players = [] ∧ job.world = none ∧ job.banKeys = none)

namespace PersistWorker

/-- `enqueue`, and what it returns. -/
def enqueue (w : PersistWorker) (job : PersistJob) : PersistWorker × Bool :=
  match w.queue.push job with
  | some queue => ({ w with queue := queue, accepted := w.accepted ++ [job] }, true)
  | none => (w, false)

/-- The sentinel that `stop` pushes; a full queue refuses it. -/
def pushSentinel (w : PersistWorker) : PersistWorker :=
  match w.queue.push {} with
  | some queue => { w with queue := queue }
  | none => w

def execute (w : PersistWorker) (job : PersistJob) (next : LoopAt) : PersistWorker :=
  { w with executed := w.executed ++ [job], thread := next }

/-- The next step of `loop`. -/
def loop (w : PersistWorker) : PersistWorker :=
  match w.thread with
  | .testing => { w with thread := if w.running then .waiting else .draining }
  | .waiting =>
    match w.queue.tryPop with
    | some (job, queue) => { w with queue := queue, thread := .popped job }
    | none => { w with thread := .testing }
  | .popped job => { w with thread := if !w.running && job.blank then .draining else .writing job }
  | .writing job => w.execute job .testing
  | .draining =>
    match w.queue.tryPop with
    | some (job, queue) => { w with queue := queue, thread := .drained job }
    | none => { w with thread := .finished }
  | .drained job => w.execute job .draining
  | .finished => w

end PersistWorker

/-- Where the main thread is: in its loop and in the drain of the inbound queue, in `enqueue_blocking` of the final
job, in `stop`, or behind it. -/
inductive MainAt
  | serving
  | finalJob
  | refused
  | stopping
  | sentinel
  | joining
  | stopped
  deriving DecidableEq

structure PersistThreads where
  sim : ServerRuntime
  /-- The jobs the last handler has still to enqueue. -/
  todo : List PersistJob := []
  main : MainAt := .serving
  worker : PersistWorker := {}

inductive PersistAction
  /-- one call of the main loop or of the drain of the inbound queue -/
  | handle (i : Env × ServerRuntime.Input)
  /-- the end of the drain: everything is marked and flushed -/
  | shutDown
  /-- the next push of the main thread, or the next step of its shutdown -/
  | main
  | worker

namespace PersistThreads

/-- The final job that `main` builds. -/
def finalJob (s : ServerRuntime) : PersistJob := { world := some s.world, players := s.players.values }

def start (b : ServerRuntime.LoadedStartup) : PersistThreads := { sim := b.runtime }

def shutdownStep (s : PersistThreads) : PersistThreads :=
  match s.main with
  | .serving => s
  | .finalJob =>
    match s.worker.enqueue (finalJob s.sim) with
    | (worker, true) => { s with worker := worker, main := .stopping }
    | (worker, false) => { s with worker := worker, main := .refused }
  | .refused => { s with main := if s.worker.running then .finalJob else .stopping }
  | .stopping =>
    { s with worker := { s.worker with running := false }, main := if s.worker.running then .sentinel else .stopped }
  | .sentinel => { s with worker := s.worker.pushSentinel, main := .joining }
  | .joining =>
    match s.worker.thread with
    | .finished => { s with main := .stopped }
    | _ => s
  | .stopped => s

def mainStep (s : PersistThreads) : PersistThreads :=
  match s.todo with
  | job :: todo => { s with todo := todo, worker := (s.worker.enqueue job).1 }
  | [] => s.shutdownStep

def step (s : PersistThreads) : PersistAction → PersistThreads
  | .handle i =>
    if s.main = .serving ∧ s.todo = [] then { s with sim := s.sim.step i, todo := (s.sim.step i).persist } else s
  | .shutDown =>
    -- the source repeats the body of the admin command `save`
    if s.main = .serving ∧ s.todo = [] then
      let sim := ServerRuntime.adminSave s.sim.ready
      { s with sim := sim, todo := sim.persist, main := .finalJob }
    else s
  | .main => s.mainStep
  | .worker => { s with worker := s.worker.loop }

end PersistThreads

def LoopAt.held : LoopAt → List PersistJob
  | .popped job => [job]
  | .writing job => [job]
  | .drained job => [job]
  | _ => []

def LoopAt.left : LoopAt → Bool
  | .draining => true
  | .drained _ => true
  | .finished => true
  | _ => false

/-- The jobs that write something. -/
def solid (jobs : List PersistJob) : List PersistJob := jobs.filter fun job => !job.blank

@[simp] theorem solid_append (jobs jobs' : List PersistJob) : solid (jobs ++ jobs') = solid jobs ++ solid jobs' :=
  List.filter_append ..

theorem solid_cons_of_blank {job : PersistJob} (h : job.blank = true) (jobs : List PersistJob) :
    solid (job :: jobs) = solid jobs := List.filter_cons_of_neg (by simp [h])

/-- Every accepted job is executed, held by the worker or in the queue, in this order. -/
structure Ordered (w : PersistWorker) : Prop where
  conserved : solid (w.executed ++ (w.thread.held ++ w.queue.items)) = solid w.accepted
  left : w.thread.left = true → w.running = false
  finished : w.thread = .finished → solid w.queue.items = []

variable {w : PersistWorker}

theorem Ordered.enqueue (h : Ordered w) (hr : w.running = true) (job : PersistJob) : Ordered (w.enqueue job).1 := by
  unfold PersistWorker.enqueue
  cases hp : w.queue.push job with
  | none => exact h
  | some queue =>
    have hq := AsyncQueue.push_some hp
    have hstays : w.thread.left ≠ true := fun hl => by simp [h.left hl] at hr
    constructor
    · have hc := h.conserved
      simp only [solid_append] at hc ⊢
      rw [hq]
      simp only [solid_append, ← hc, List.append_assoc]
    · exact fun hl => absurd hl hstays
    · intro hf
      exact absurd (by rw [show w.thread = .finished from hf]; rfl) hstays

theorem Ordered.pushSentinel (h : Ordered w) : Ordered w.pushSentinel := by
  unfold PersistWorker.pushSentinel
  cases hp : w.queue.push {} with
  | none => exact h
  | some queue =>
    have hq := AsyncQueue.push_some hp
    have hitems : solid queue.items = solid w.queue.items := by
      rw [hq]
      rw [solid_append, solid_cons_of_blank rfl]
      exact List.append_nil _
    constructor
    · have hc := h.conserved
      simp only [solid_append] at hc ⊢
      rw [hitems, hc]
    · exact h.left
    · intro hf
      rw [hitems]
      exact h.finished hf

theorem Ordered.loop (h : Ordered w) : Ordered w.loop := by
  have hc := h.conserved
  unfold PersistWorker.loop
  cases ht : w.thread with
  | testing =>
    rw [ht] at hc
    cases hr : w.running with
    | true => exact ⟨by simpa [LoopAt.held] using hc, nofun, nofun⟩
    | false => exact ⟨by simpa [LoopAt.held] using hc, fun _ => rfl, nofun⟩
  | waiting =>
    rw [ht] at hc
    dsimp only
    cases hp : w.queue.tryPop with
    | none => exact ⟨by simpa [LoopAt.held] using hc, nofun, nofun⟩
    | some popped =>
      obtain ⟨job, queue⟩ := popped
      have hitems := AsyncQueue.tryPop_some hp
      refine ⟨?_, nofun, nofun⟩
      rw [hitems] at hc
      exact hc
  | popped job =>
    rw [ht] at hc
    dsimp only
    split
    · rename_i hb
      simp only [Bool.and_eq_true, Bool.not_eq_true'] at hb
      refine ⟨?_, fun _ => hb.1, nofun⟩
      simpa [LoopAt.held, solid_cons_of_blank hb.2] using hc
    · exact ⟨hc, nofun, nofun⟩
  | writing job =>
    rw [ht] at hc
    refine ⟨?_, nofun, nofun⟩
    simpa [PersistWorker.execute, LoopAt.held] using hc
  | draining =>
    rw [ht] at hc
    have hr := h.left (by rw [ht]; rfl)
    dsimp only
    cases hp : w.queue.tryPop with
    | none =>
      refine ⟨by simpa [LoopAt.held] using hc, fun _ => hr, fun _ => ?_⟩
      unfold AsyncQueue.tryPop at hp
      split at hp
      · rename_i hnil
        rw [show w.queue.items = [] from hnil]
        rfl
      · cases hp
    | some popped =>
      obtain ⟨job, queue⟩ := popped
      have hitems := AsyncQueue.tryPop_some hp
      refine ⟨?_, fun _ => hr, nofun⟩
      rw [hitems] at hc
      exact hc
  | drained job =>
    rw [ht] at hc
    have hr := h.left (by rw [ht]; rfl)
    refine ⟨?_, fun _ => hr, nofun⟩
    simpa [PersistWorker.execute, LoopAt.held] using hc
  | finished => exact h

namespace ServerRuntime

/-- No job is blank, and the records of the jobs stay. -/
def JobsSound (players : Table Bytes PlayerRec) (jobs : List PersistJob) : Prop :=
  ∀ job ∈ jobs, job.blank = false ∧ ∀ r ∈ job.players, Outlived players r

/-- What the records of a state that a run reaches are. -/
structure Recorded (s : ServerRuntime) : Prop where
  wellFormed : WellFormed s
  mirrored : Mirrored s
  keyed : KeyedRecords s.players
  slotted : Slotted s

variable {s₀ s s' : ServerRuntime} {i : Env × Input}

theorem Part.persist (hp : Part s₀ i s s') :
    s'.persist = s.persist ∨ s' = s.flushDirtyAsync ∨ ∃ keys, s' = persistBansAsync { s with bannedKeys := keys } := by
  cases hp with
  | aside ha => exact .inl ha.persist
  | assemble type id hid hstay asm hs hslots =>
    left
    rw [setAssemblies_eq]
  | flush => exact .inr (.inl rfl)
  | bans keys => exact .inr (.inr ⟨keys, rfl⟩)
  | _ => exact .inl rfl

theorem jobsSound_dirtyJob (hk : KeyedRecords s.players) : JobsSound s.players s.dirtyJob := by
  intro job hjob
  rcases s.dirtyJob_cases with ⟨hj, -⟩ | ⟨hj, hnot⟩
  · rw [hj] at hjob
    cases hjob
  · rw [hj] at hjob
    rw [List.mem_singleton.mp hjob]
    refine ⟨?_, fun r hr => ⟨r, ((mem_markedRecords hk r).mp hr).2, .refl r⟩⟩
    simp only [PersistJob.blank, and_true, decide_eq_false_iff_not]
    rintro ⟨hp, hw⟩
    refine hnot ⟨?_, hp⟩
    cases hd : s.worldDirty with
    | false => rfl
    | true => simp [hd] at hw

theorem Part.jobsSound (hp : Part s₀ i s s') (hm : Mirrored s) (hk : KeyedRecords s.players) (hs : Slotted s₀)
    (h : JobsSound s.players s.persist) : JobsSound s'.players s'.persist := by
  have kept : ∀ job ∈ s.persist, job.blank = false ∧ ∀ r ∈ job.players, Outlived s'.players r := fun job hjob =>
    ⟨(h job hjob).1, fun r hr => hp.outlived hm hs ((h job hjob).2 r hr)⟩
  rcases hp.persist with he | rfl | ⟨keys, rfl⟩
  · rw [he]
    exact kept
  · rw [flushDirtyAsync_eq] at kept ⊢
    intro job hjob
    rcases List.mem_append.mp hjob with hjob | hjob
    · exact kept job hjob
    · exact jobsSound_dirtyJob hk job hjob
  · intro job hjob
    rcases List.mem_append.mp hjob with hjob | hjob
    · exact kept job hjob
    · rw [List.mem_singleton.mp hjob]
      exact ⟨rfl, nofun⟩

/-- A step makes sound jobs, and the records of earlier jobs stay. -/
theorem Recorded.step (h : Recorded s) (i : Env × Input) :
    Recorded (s.step i) ∧ JobsSound (s.step i).players (s.step i).persist ∧
      ∀ r, Outlived s.players r → Outlived (s.step i).players r := by
  have hstart : Mirrored s.ready ∧ KeyedRecords s.players ∧ Slotted s.ready := ⟨h.mirrored.of_eq rfl rfl, h.keyed, h.slotted⟩
  have hend := Parts.invariant (I := fun r => Mirrored r ∧ KeyedRecords r.players ∧ Slotted r ∧ JobsSound r.players r.persist ∧
      ∀ x, Outlived s.players x → Outlived r.players x) (step_parts h.wellFormed i)
    (fun r r' hp hr => ⟨hp.mirrored hr.1, hp.keyedRecords hr.1 hr.2.1, hp.slotted hr.2.2.1,
      hp.jobsSound hr.1 hr.2.1 hstart.2.2 hr.2.2.2.1, fun x hx => hp.outlived hr.1 hstart.2.2 (hr.2.2.2.2 x hx)⟩)
    ⟨hstart.1, hstart.2.1, hstart.2.2, nofun, fun _ hx => hx⟩
  exact ⟨⟨h.wellFormed.step i, hend.1, hend.2.1, hend.2.2.1⟩, hend.2.2.2.1, hend.2.2.2.2⟩

theorem recorded_start (b : LoadedStartup) : Recorded b.runtime where
  wellFormed := wellFormed_initial b.toStartup
  mirrored := mirrored_initial b.toStartup
  keyed := b.keyed
  slotted := by
    intro type id a ha
    unfold assemblies at ha
    split at ha <;> simp [Startup.runtime, initial] at ha

/-- The flush of `main`'s shutdown is the step of an admin `save`. -/
theorem step_save (s : ServerRuntime) : s.step (plainEnv, .admin (ascii "save")) = adminSave s.ready := by
  have hword : (splitWords (ascii "save")).head?.map lowerCopy = some (ascii "save") := by decide
  exact show runAdminCommand plainEnv s.ready (ascii "save") = _ from runAdminCommand_save hword

end ServerRuntime

/-- `stop` has cleared the flag. -/
def MainAt.cleared : MainAt → Bool
  | .sentinel => true
  | .joining => true
  | .stopped => true
  | _ => false

def MainAt.handedOver (m : MainAt) : Bool := m == .stopping || m.cleared

namespace PersistThreads
open ServerRuntime

structure Sound (s : PersistThreads) : Prop where
  recorded : Recorded s.sim
  ordered : Ordered s.worker
  running : s.worker.running = !s.main.cleared
  pushes : s.todo ≠ [] → s.main.cleared = false ∧ s.main.handedOver = false
  jobs : JobsSound s.sim.players (s.worker.accepted ++ s.todo)
  last : s.main.handedOver = true → ∃ jobs, s.worker.accepted = jobs ++ [finalJob s.sim]
  stopped : s.main = .stopped → s.worker.thread = .finished

variable {s : PersistThreads}

theorem enqueue_running (w : PersistWorker) (job : PersistJob) : (w.enqueue job).1.running = w.running := by
  unfold PersistWorker.enqueue
  split <;> rfl

theorem enqueue_accepted (w : PersistWorker) (job : PersistJob) :
    (w.enqueue job).1.accepted = w.accepted ++ if (w.enqueue job).2 then [job] else [] := by
  unfold PersistWorker.enqueue
  split
  · rfl
  · exact (List.append_nil _).symm

theorem JobsSound.sublist {players : Table Bytes PlayerRec} {jobs jobs' : List PersistJob} (h : JobsSound players jobs)
    (hs : jobs'.Sublist jobs) : JobsSound players jobs' := fun job hjob => h job (hs.subset hjob)

theorem finalJob_sound {s : ServerRuntime} (h : KeyedRecords s.players) : ∀ r ∈ (finalJob s).players, Outlived s.players r := by
  intro r hr
  obtain ⟨k, hl⟩ := Table.mem_values.mp hr
  exact ⟨r, h k r hl ▸ hl, .refl r⟩

theorem sound_start (b : LoadedStartup) : Sound (start b) where
  recorded := recorded_start b
  ordered := ⟨rfl, nofun, nofun⟩
  running := rfl
  pushes := fun h => absurd rfl h
  jobs := nofun
  last := nofun
  stopped := nofun

/-- The simulation thread takes an input and leaves the jobs of its step to push. -/
theorem Sound.handle (h : Sound s) (hmain : s.main = .serving) (i : Env × ServerRuntime.Input)
    {m : MainAt} (hm : m.cleared = false ∧ m.handedOver = false) :
    Sound { s with sim := s.sim.step i, todo := (s.sim.step i).persist, main := m } := by
  obtain ⟨hrec, hjobs, hkept⟩ := h.recorded.step i
  constructor
  · exact hrec
  · exact h.ordered
  · have hr := h.running
    rw [hmain] at hr
    rw [hr, hm.1]
    rfl
  · exact fun _ => hm
  · intro job hjob
    rcases List.mem_append.mp hjob with hjob | hjob
    · obtain ⟨hb, hr⟩ := h.jobs job (List.mem_append_left _ hjob)
      exact ⟨hb, fun r hm => hkept r (hr r hm)⟩
    · exact hjobs job hjob
  · intro hl
    rw [hm.2] at hl
    cases hl
  · rintro rfl
    cases hm.1

theorem Sound.push (h : Sound s) {job : PersistJob} {todo : List PersistJob} (htodo : s.todo = job :: todo) :
    Sound { s with todo := todo, worker := (s.worker.enqueue job).1 } := by
  have hfree := h.pushes (by rw [htodo]; exact List.cons_ne_nil _ _)
  have hr : s.worker.running = true := by rw [h.running, hfree.1]; rfl
  constructor
  · exact h.recorded
  · exact h.ordered.enqueue hr job
  · rw [enqueue_running]
    exact h.running
  · exact fun _ => hfree
  · have hjobs := h.jobs
    rw [htodo] at hjobs
    refine JobsSound.sublist hjobs ?_
    rw [enqueue_accepted]
    dsimp only
    split
    · rw [List.append_assoc]
      exact List.Sublist.refl _
    · rw [List.append_nil]
      exact (List.sublist_cons_self _ _).append_left _
  · intro hl
    rw [hfree.2] at hl
    cases hl
  · intro hs
    have hclear := hfree.1
    rw [show s.main = .stopped from hs] at hclear
    cases hclear

theorem Sound.advance (h : Sound s) {m : MainAt} (htodo : s.todo = []) (hc : m.cleared = s.main.cleared)
    (hl : m.handedOver = true → s.main.handedOver = true) (hs : m = .stopped → s.worker.thread = .finished) :
    Sound { s with main := m } where
  recorded := h.recorded
  ordered := h.ordered
  running := by
    dsimp only
    rw [hc]
    exact h.running
  pushes := fun hne => absurd htodo hne
  jobs := h.jobs
  last := fun hm => h.last (hl hm)
  stopped := hs

theorem Sound.offer (h : Sound s) (hmain : s.main = .finalJob) (htodo : s.todo = []) :
    Sound { s with
      worker := (s.worker.enqueue (finalJob s.sim)).1
      main := if (s.worker.enqueue (finalJob s.sim)).2 then .stopping else .refused } := by
  have hr : s.worker.running = true := by rw [h.running, hmain]; rfl
  have haccepted := enqueue_accepted s.worker (finalJob s.sim)
  constructor
  · exact h.recorded
  · exact h.ordered.enqueue hr _
  · rw [enqueue_running, hr]
    split <;> rfl
  · exact fun hne => absurd htodo hne
  · dsimp only
    rw [htodo, List.append_nil, haccepted]
    intro job hjob
    rcases List.mem_append.mp hjob with hjob | hjob
    · exact h.jobs job (List.mem_append_left _ hjob)
    · split at hjob
      · rw [List.mem_singleton.mp hjob]
        exact ⟨by simp [finalJob, PersistJob.blank], finalJob_sound h.recorded.keyed⟩
      · cases hjob
  · intro hm
    dsimp only at hm ⊢
    cases hres : (s.worker.enqueue (finalJob s.sim)).2 with
    | true =>
      rw [hres] at haccepted
      exact ⟨_, haccepted⟩
    | false =>
      rw [hres] at hm
      cases hm
  · intro hm
    dsimp only at hm
    split at hm <;> cases hm

theorem pushSentinel_eq (w : PersistWorker) : ∃ queue, w.pushSentinel = { w with queue := queue } := by
  unfold PersistWorker.pushSentinel
  split
  · exact ⟨_, rfl⟩
  · exact ⟨w.queue, rfl⟩

theorem Sound.shutdownStep (h : Sound s) (htodo : s.todo = []) : Sound s.shutdownStep := by
  unfold PersistThreads.shutdownStep
  cases hmain : s.main with
  | serving => exact h
  | finalJob =>
    have hoffer := h.offer hmain htodo
    dsimp only
    split <;> rename_i he <;> rw [he] at hoffer <;> exact hoffer
  | refused =>
    have hr : s.worker.running = true := by rw [h.running, hmain]; rfl
    dsimp only
    rw [hr]
    exact h.advance htodo (by rw [hmain]; rfl) nofun nofun
  | stopping =>
    have hr : s.worker.running = true := by rw [h.running, hmain]; rfl
    dsimp only
    rw [hr]
    refine ⟨h.recorded, ⟨h.ordered.conserved, fun _ => rfl, h.ordered.finished⟩, rfl, fun hne => absurd htodo hne, h.jobs,
      fun _ => h.last (by rw [hmain]; rfl), nofun⟩
  | sentinel =>
    have hordered := h.ordered.pushSentinel
    obtain ⟨queue, hw⟩ := pushSentinel_eq s.worker
    have hr := h.running
    rw [hmain] at hr
    dsimp only
    rw [hw] at hordered ⊢
    exact ⟨h.recorded, hordered, hr, fun hne => absurd htodo hne, h.jobs, fun _ => h.last (by rw [hmain]; rfl), nofun⟩
  | joining =>
    dsimp only
    split
    · rename_i hf
      exact h.advance htodo (by rw [hmain]; rfl) (fun _ => by rw [hmain]; rfl) fun _ => hf
    · exact h
  | stopped => exact h

theorem loop_main (w : PersistWorker) : w.loop.running = w.running ∧ w.loop.accepted = w.accepted := by
  unfold PersistWorker.loop
  cases w.thread with
  | waiting =>
    dsimp only
    split <;> exact ⟨rfl, rfl⟩
  | draining =>
    dsimp only
    split <;> exact ⟨rfl, rfl⟩
  | _ => exact ⟨rfl, rfl⟩

theorem Sound.step (h : Sound s) (a : PersistAction) : Sound (s.step a) := by
  cases a with
  | handle i =>
    by_cases hfree : s.main = .serving ∧ s.todo = []
    · rw [PersistThreads.step, if_pos hfree]
      exact h.handle hfree.1 i (m := s.main) (by rw [hfree.1]; exact ⟨rfl, rfl⟩)
    · rw [PersistThreads.step, if_neg hfree]
      exact h
  | shutDown =>
    by_cases hfree : s.main = .serving ∧ s.todo = []
    · have hsave := h.handle hfree.1 (plainEnv, .admin (ascii "save")) (m := .finalJob) ⟨rfl, rfl⟩
      rw [step_save] at hsave
      rw [PersistThreads.step, if_pos hfree]
      exact hsave
    · rw [PersistThreads.step, if_neg hfree]
      exact h
  | main =>
    rw [PersistThreads.step, mainStep]
    cases htodo : s.todo with
    | nil => exact h.shutdownStep htodo
    | cons job todo => exact h.push htodo
  | worker =>
    obtain ⟨hr, ha⟩ := loop_main s.worker
    refine ⟨h.recorded, h.ordered.loop, hr.trans h.running, h.pushes, ?_, ?_, fun hs => ?_⟩
    · exact ha.symm ▸ h.jobs
    · exact fun hl => ha.symm ▸ h.last hl
    · have hf := h.stopped hs
      unfold PersistThreads.step PersistWorker.loop
      dsimp only
      rw [hf]
      exact hf

theorem sound_run (b : LoadedStartup) (as : List PersistAction) : Sound (run step (start b) as) :=
  run_invariant (P := fun _ _ => True) (fun _ a h _ => h.step a) (sound_start b) (allSteps_iff_split.mpr fun _ _ _ _ => trivial)

end PersistThreads
end CommonwealthMP
