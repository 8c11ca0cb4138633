import CommonwealthMP.ClientTimeouts
import CommonwealthMP.OrphanedConnections
import CommonwealthMP.UnsavedChanges
import Mathlib.Tactic.Linarith

/-! # The main loop

A turn of the loop hands the runtime what the console and the net thread have queued, and then
runs the timers with the time at which the turn began. -/
namespace CommonwealthMP
open ByteLayout OrderedTables SessionTable StepRuns

def kPersistIntervalSec : Time := 2

structure Turn where
  t : Time
  /-- the lines `admin.poll` returns -/
  lines : List (Env × Bytes) := []
  /-- the events `inbound.try_pop` returns -/
  events : List (Env × InboundEvent) := []
  env : Env
  /-- `on_signal` is called before the next turn -/
  interrupted : Bool := false

structure MainLoop where
  runtime : ServerRuntime
  lastPersist : Time
  lastHeartbeat : Time
  interrupted : Bool := false

namespace MainLoop
open ServerRuntime (Startup Input runFrom Heard HearsOf eventTimes)

def start (b : Startup) (t : Time) : MainLoop where
  runtime := b.runtime
  lastPersist := t
  lastHeartbeat := t

/-- `g_running` -/
def running (m : MainLoop) : Bool := m.runtime.running && !m.interrupted

/-- What a turn takes from the queues, and the check for connections that have not said Hello. -/
def received (x : Turn) : List (Env × Input) :=
  x.lines.map (fun line => (line.1, .admin line.2)) ++ x.events.map (fun ev => (ev.1, .inbound ev.2 x.t)) ++
    [(x.env, .expirePending x.t)]

/-- A timer that was last set off at `last`. -/
def due (interval last t : Time) : Bool := decide (interval ≤ t - last)

def timers (m : MainLoop) (x : Turn) : List (Env × Input) :=
  (if due kPersistIntervalSec m.lastPersist x.t then [(x.env, .flushDirty)] else []) ++
    if due 5 m.lastHeartbeat x.t then [(x.env, .sendHeartbeat)] else []

def inputs (m : MainLoop) (x : Turn) : List (Env × Input) := received x ++ (x.env, .expireClients x.t) :: timers m x

def step (m : MainLoop) (x : Turn) : MainLoop :=
  if m.running then
    { runtime := run ServerRuntime.step m.runtime (m.inputs x)
      lastPersist := if due kPersistIntervalSec m.lastPersist x.t then x.t else m.lastPersist
      lastHeartbeat := if due 5 m.lastHeartbeat x.t then x.t else m.lastHeartbeat
      interrupted := x.interrupted }
  else m

def allInputs (m : MainLoop) (xs : List Turn) : List (Env × Input) :=
  collect step (fun m x => if m.running then m.inputs x else []) m xs

def Clocked (t : Time) (xs : List Turn) : Prop := (t :: xs.map (·.t)).Pairwise (· ≤ ·)

variable {b : Startup} {t t₀ : Time} {m : MainLoop} {x : Turn} {xs : List Turn}

theorem step_running (h : m.running = true) : step m x = {
    runtime := run ServerRuntime.step m.runtime (m.inputs x)
    lastPersist := if due kPersistIntervalSec m.lastPersist x.t then x.t else m.lastPersist
    lastHeartbeat := if due 5 m.lastHeartbeat x.t then x.t else m.lastHeartbeat
    interrupted := x.interrupted } := if_pos h

theorem step_stopped (h : m.running = false) : step m x = m := if_neg (by simp [h])

theorem allInputs_concat (m : MainLoop) (xs : List Turn) (x : Turn) :
    allInputs m (xs ++ [x]) = allInputs m xs ++ if (run step m xs).running then (run step m xs).inputs x else [] :=
  collect_concat _ _ _ _ _

/-- A run of the loop is a run of the runtime. -/
theorem run_runtime (b : Startup) (t₀ : Time) (xs : List Turn) :
    (run step (start b t₀) xs).runtime = runFrom b (allInputs (start b t₀) xs) := by
  induction xs using List.reverseRecOn with
  | nil => rfl
  | append_singleton xs x ih =>
    rw [allInputs_concat, run_concat, runFrom, run_append, ← runFrom, ← ih]
    by_cases hr : (run step (start b t₀) xs).running = true
    · rw [step_running hr, if_pos hr]
    · rw [step_stopped (Bool.not_eq_true _ ▸ hr), if_neg hr, run_nil]

theorem reachable_run (b : Startup) (t₀ : Time) (xs : List Turn) : ServerRuntime.Reachable (run step (start b t₀) xs).runtime :=
  ⟨b, allInputs (start b t₀) xs, run_runtime b t₀ xs⟩

theorem Clocked.before {x : Turn} (h : Clocked t (xs ++ [x])) : Clocked t xs := by
  unfold Clocked at h ⊢
  rw [List.map_append, ← List.cons_append] at h
  exact (List.pairwise_append.mp h).1

theorem Clocked.le_last {x : Turn} (h : Clocked t (xs ++ [x])) : t ≤ x.t ∧ ∀ y ∈ xs, y.t ≤ x.t := by
  unfold Clocked at h
  rw [List.map_append, ← List.cons_append] at h
  have hlast := (List.pairwise_append.mp h).2.2
  refine ⟨hlast t List.mem_cons_self x.t (by simp), fun y hy => hlast y.t ?_ x.t (by simp)⟩
  exact List.mem_cons_of_mem _ (List.mem_map_of_mem hy)

theorem eventTimes_append (is js : List (Env × Input)) : eventTimes (is ++ js) = eventTimes is ++ eventTimes js :=
  List.filterMap_append

theorem mem_timers {m : MainLoop} {x : Turn} {i : Env × Input} (h : i ∈ timers m x) :
    i = (x.env, .flushDirty) ∨ i = (x.env, .sendHeartbeat) := by
  unfold timers at h
  rcases List.mem_append.mp h with h | h
  · split at h
    · exact .inl (List.mem_singleton.mp h)
    · cases h
  · split at h
    · exact .inr (List.mem_singleton.mp h)
    · cases h

/-- All events of a turn are applied at its time. -/
theorem eventTimes_inputs (m : MainLoop) (x : Turn) : ∀ u ∈ eventTimes (m.inputs x), u = x.t := by
  intro u hu
  obtain ⟨i, hi, ht⟩ := List.mem_filterMap.mp hu
  simp only [inputs, received, List.mem_append, List.mem_map, List.mem_cons, List.not_mem_nil, or_false] at hi
  rcases hi with ((⟨l, -, rfl⟩ | ⟨ev, -, rfl⟩) | rfl) | rfl | htimer
  · cases ht
  · exact (Option.some.inj ht).symm
  · cases ht
  · cases ht
  · rcases mem_timers htimer with rfl | rfl <;> cases ht

theorem eventTimes_turn (m : MainLoop) (x : Turn) : ∀ u ∈ eventTimes (if m.running then m.inputs x else []), u = x.t := by
  intro u hu
  split at hu
  · exact eventTimes_inputs m x u hu
  · cases hu

theorem mem_eventTimes_allInputs (m : MainLoop) (xs : List Turn) : ∀ u ∈ eventTimes (allInputs m xs), ∃ y ∈ xs, u = y.t := by
  induction xs using List.reverseRecOn with
  | nil => nofun
  | append_singleton xs x ih =>
    intro u hu
    rw [allInputs_concat, eventTimes_append] at hu
    rcases List.mem_append.mp hu with hu | hu
    · obtain ⟨y, hy, he⟩ := ih u hu
      exact ⟨y, List.mem_append_left _ hy, he⟩
    · exact ⟨x, by simp, eventTimes_turn _ x u hu⟩

theorem Clocked.eventTimes (h : Clocked t xs) (m : MainLoop) : (eventTimes (allInputs m xs)).Pairwise (· ≤ ·) := by
  induction xs using List.reverseRecOn with
  | nil => exact List.Pairwise.nil
  | append_singleton xs x ih =>
    rw [allInputs_concat, eventTimes_append, List.pairwise_append]
    refine ⟨ih h.before, ?_, fun u hu v hv => ?_⟩
    · refine List.pairwise_of_forall_mem_list fun u hu v hv => ?_
      rw [eventTimes_turn _ x u hu, eventTimes_turn _ x v hv]
    · obtain ⟨y, hy, rfl⟩ := mem_eventTimes_allInputs m xs u hu
      rw [eventTimes_turn _ x v hv]
      exact h.le_last.2 y hy

theorem clients_timers (m : MainLoop) (x : Turn) (s : ServerRuntime) : (run ServerRuntime.step s (timers m x)).clients = s.clients := by
  have hall : ∀ is : List (Env × Input), (∀ i ∈ is, i = (x.env, .flushDirty) ∨ i = (x.env, .sendHeartbeat)) →
      ∀ s : ServerRuntime,
      (run ServerRuntime.step s is).clients = s.clients := by
    intro is
    induction is with
    | nil => exact fun _ _ => rfl
    | cons i is ih =>
      intro h s
      rw [run_cons, ih fun j hj => h j (List.mem_cons_of_mem _ hj)]
      rcases h i List.mem_cons_self with rfl | rfl
      · simp only [ServerRuntime.step, ServerRuntime.handle, ServerRuntime.flushDirtyAsync_eq, ServerRuntime.ready_clients]
      · rfl
  exact hall (timers m x) (fun i hi => mem_timers hi) s

/-- The check for silent clients takes out those who were last heard longer ago than the timeout. -/
theorem expired_iff {is : List (Env × Input)} (hclock : (eventTimes is).Pairwise (· ≤ ·)) {p : PeerId}
    (hp : p ∈ (runFrom b is).clients) (env : Env) (t : Time) :
    p ∉ (runFrom b (is ++ [(env, .expireClients t)])).clients ↔ ∀ u, Heard b is p u → kClientTimeoutSec < t - u := by
  obtain ⟨c, hl⟩ := Option.isSome_iff_exists.mp (AList.lookup_isSome.mpr hp)
  obtain ⟨hheard, hbound⟩ := ServerRuntime.stamp_run hclock hl
  have hlookup : (runFrom b (is ++ [(env, .expireClients t)])).clients.lookup p =
      if kClientTimeoutSec < t - c.lastSeen then none else some c := by
    rw [runFrom, run_concat, ← runFrom]
    exact ServerRuntime.lookup_expireClients env (s := (runFrom b is).ready) t hl
  rw [← AList.lookup_eq_none, hlookup]
  constructor
  · intro hnone u hu
    have hlate : kClientTimeoutSec < t - c.lastSeen := by
      by_contra hle
      rw [if_neg hle] at hnone
      cases hnone
    linarith [hbound u hu]
  · intro h
    exact if_pos (h c.lastSeen hheard)

/-- A client is dropped by the timer exactly if it was silent for longer than the timeout; the clients that a turn leaves
were all heard within the timeout. -/
theorem silent_clients_dropped (b : Startup) (t₀ : Time) (xs : List Turn) (x : Turn) (hclock : Clocked t₀ (xs ++ [x])) :
    (∀ before env t after, allInputs (start b t₀) (xs ++ [x]) = before ++ (env, .expireClients t) :: after →
      ∀ p ∈ (runFrom b before).clients,
        (p ∉ (runFrom b (before ++ [(env, .expireClients t)])).clients ↔ ∀ u, Heard b before p u → kClientTimeoutSec < t - u)) ∧
    ((run step (start b t₀) xs).running = true → ∀ p ∈ (run step (start b t₀) (xs ++ [x])).runtime.clients,
      ∃ u, Heard b (allInputs (start b t₀) (xs ++ [x])) p u ∧ x.t - u ≤ kClientTimeoutSec) := by
  have htimes := hclock.eventTimes (start b t₀)
  refine ⟨fun before env t after he p hp => ?_, fun hr p hp => ?_⟩
  · rw [he, eventTimes_append] at htimes
    exact expired_iff (List.pairwise_append.mp htimes).1 hp env t
  · have hinputs : allInputs (start b t₀) (xs ++ [x]) = (allInputs (start b t₀) xs ++ received x) ++
        (x.env, .expireClients x.t) :: timers (run step (start b t₀) xs) x := by
      rw [allInputs_concat, if_pos hr, inputs, List.append_assoc]
    rw [run_runtime, hinputs, List.append_cons, runFrom, run_append, clients_timers, ← runFrom] at hp
    rw [hinputs, List.append_cons, eventTimes_append] at htimes
    have hbefore := (List.pairwise_append.mp htimes).1
    rw [eventTimes_append] at hbefore
    have hlive : p ∈ (runFrom b (allInputs (start b t₀) xs ++ received x)).clients := by
      rw [runFrom, run_concat] at hp
      exact ServerRuntime.mem_of_mem_expireClients (s := (runFrom b (allInputs (start b t₀) xs ++ received x)).ready) hp
    have hheard := mt (expired_iff (List.pairwise_append.mp hbefore).1 hlive x.env x.t).mpr (not_not.mpr hp)
    push Not at hheard
    obtain ⟨u, hu, hle⟩ := hheard
    refine ⟨u, ?_, hle⟩
    rw [hinputs]
    exact (someStep_append _ _).mpr (.inl hu)

def joinTurn : Turn where
  t := 1
  events := [(ServerRuntime.plainEnv, { kind := .TcpAccept, connId := 1, addr := ⟨10, 0, 0, 1, 1000⟩ }),
    (ServerRuntime.plainEnv, { kind := .TcpFrame, connId := 1, bytes := ServerRuntime.helloFrame (ascii "a") })]
  env := ServerRuntime.plainEnv

def quietTurn (t : Time) : Turn := { t := t, env := ServerRuntime.plainEnv }

theorem silent_clients_dropped_join :
    ∃ u, Heard ServerRuntime.freshStart (allInputs (start ServerRuntime.freshStart 0) ([joinTurn] ++ [quietTurn 6])) 1 u ∧
      6 - u ≤ kClientTimeoutSec :=
  (silent_clients_dropped ServerRuntime.freshStart 0 [joinTurn] (quietTurn 6) (by unfold Clocked; decide +kernel)).2
    (by decide +kernel) 1 (by decide +kernel)

end MainLoop
end CommonwealthMP
