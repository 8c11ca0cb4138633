import CommonwealthMP.MainLoop
import CommonwealthMP.PersistThreads

/-! # What the timers of the main loop keep up

A heartbeat goes to every client at most five seconds after the last one, and what is marked is
handed over at most two seconds after it was marked. -/
namespace CommonwealthMP
open ByteLayout OrderedTables SessionTable StepRuns
namespace ServerRuntime

variable {s₀ s s' : ServerRuntime} {i : Env × Input}

/-- A Heartbeat or a Welcome on the connection. -/
def Reassures (k : ConnId) (cmd : OutboundCmd) : Prop :=
  cmd.kind = .TcpSend ∧ cmd.connId = k ∧ (cmd.bytes = (makeHeartbeat 0 0).encode ∨ isWelcome cmd = true)

theorem reassures_welcome {joined : Client} (h : joined.connId ≠ 0) (s : ServerRuntime) (isNew : Bool) :
    ∃ cmd ∈ sendTcp joined (welcomeOf s joined isNew).encode, Reassures joined.connId cmd := by
  have hne : (welcomeOf s joined isNew).encode ≠ [] := List.ne_nil_of_length_pos (by simp [Welcome.encode])
  rw [sendTcp_eq h hne]
  exact ⟨_, List.mem_singleton.mpr rfl, rfl, rfl, .inr (isWelcome_welcomeOf s joined isNew joined)⟩

theorem conn_reassured (hw : WellFormed s) (i : Env × Input) {p : PeerId} {client' : Client}
    (hl : (s.step i).clients.lookup p = some client') (h0 : client'.connId ≠ 0) :
    (∃ client, s.clients.lookup p = some client ∧ client.connId = client'.connId) ∨
      ∃ cmd ∈ (s.step i).outbound, Reassures client'.connId cmd := by
  have welcomed {q : PeerId} {joined : Client} {isNew : Bool} {before rest : List OutboundCmd}
      (hj : (s.step i).clients.lookup q = some joined) (hqp : q = p)
      (ho : (s.step i).outbound = before ++ (sendTcp joined (welcomeOf (s.step i) joined isNew).encode ++ rest)) :
      ∃ cmd ∈ (s.step i).outbound, Reassures client'.connId cmd := by
    rw [hqp] at hj
    cases hj.symm.trans hl
    obtain ⟨cmd, hm, hg⟩ := reassures_welcome h0 (s.step i) isNew
    exact ⟨cmd, ho ▸ List.mem_append_right _ (List.mem_append_left _ hm), hg⟩
  cases step_output hw i with
  | plain hn hp => exact .inl (conn_origin hw hl (fun fresh hx => hn p (.joined fresh hx)) fun hx => hn p (.reconnected hx))
  | again ev t q client header joined isNew hs hopen hsize hj hout =>
    refine .inl (conn_origin hw hl (fun fresh hx => ?_) fun hx => ?_)
    · obtain ⟨ev', t', pending, hs', -⟩ := pendingExit_some.mp hx
      exact hs'.not_client hs
    · obtain ⟨ev', t', pending, hs', -⟩ := pendingExit_some.mp hx
      exact hs'.not_client hs
  | joined ev t pending q joined isNew rest hs hx hq hj hconn hout hr =>
    by_cases hqp : q = p
    · exact .inr (welcomed hj hqp hout)
    · refine .inl (conn_origin hw hl (fun fresh hx' => ?_) fun hx' => ?_)
      · cases hx.symm.trans hx'
        exact hqp rfl
      · cases hx.symm.trans hx'
  | reconnected ev t pending q client joined isNew rest hs hx hc hj hconn hout hr =>
    by_cases hqp : q = p
    · exact .inr (welcomed hj hqp (by rw [hout, ← List.append_assoc]))
    · refine .inl (conn_origin hw hl (fun fresh hx' => ?_) fun hx' => ?_)
      · cases hx.symm.trans hx'
      · cases hx.symm.trans hx'
        exact hqp rfl

theorem heartbeat_reassures {p : PeerId} {client : Client} (hl : s.clients.lookup p = some client) (h0 : client.connId ≠ 0) (env : Env) :
    ∃ cmd ∈ (s.step (env, .sendHeartbeat)).outbound, Reassures client.connId cmd := by
  have hne : (makeHeartbeat 0 0).encode ≠ [] := by decide
  refine ⟨toTcp client (makeHeartbeat 0 0).encode, ?_, rfl, rfl, .inl rfl⟩
  have hvalue : client ∈ s.clients.values := Table.mem_values.mpr ⟨p, hl⟩
  refine List.mem_append_right _ (List.mem_flatMap.mpr ⟨client, hvalue, ?_⟩)
  rw [sendTcp_eq h0 hne]
  exact List.mem_singleton.mpr rfl

/-- What a mark is for: the world, or a player's record. -/
inductive Mark
  | world
  | player (key : Bytes)

def Marked (s : ServerRuntime) : Mark → Prop
  | .world => s.worldDirty = true
  | .player key => key ∈ s.dirtyPlayers ∧ key ∈ s.players

def Carries (job : PersistJob) : Mark → Prop
  | .world => job.world ≠ none
  | .player key => ∃ r ∈ job.players, r.key = key

def Queues (s : ServerRuntime) (k : Mark) : Prop := ∃ job ∈ s.persist, Carries job k

/-- A flush hands over what is marked. -/
theorem queues_flush (hk : KeyedRecords s.players) {k : Mark} (h : Marked s k) : Queues s.flushDirtyAsync k := by
  rw [flushDirtyAsync_eq]
  have hjob : ∃ job ∈ s.dirtyJob, Carries job k := by
    rcases s.dirtyJob_cases with ⟨-, hw, hp⟩ | ⟨hj, -⟩
    · cases k with
      | world => rw [Marked, hw] at h; cases h
      | player key =>
        obtain ⟨r, hl⟩ := Option.isSome_iff_exists.mp (AList.lookup_isSome.mpr h.2)
        have hr : r ∈ s.markedRecords := by
          rw [mem_markedRecords hk, hk key r hl]
          exact ⟨h.1, hl⟩
        rw [hp] at hr
        cases hr
    · refine ⟨_, hj ▸ List.mem_singleton.mpr rfl, ?_⟩
      cases k with
      | world =>
        rw [Marked] at h
        simp [Carries, h]
      | player key =>
        obtain ⟨r, hl⟩ := Option.isSome_iff_exists.mp (AList.lookup_isSome.mpr h.2)
        refine ⟨r, ?_, hk key r hl⟩
        rw [mem_markedRecords hk, hk key r hl]
        exact ⟨h.1, hl⟩
  obtain ⟨job, hm, hc⟩ := hjob
  exact ⟨job, List.mem_append_right _ hm, hc⟩

theorem not_marked_flush (s : ServerRuntime) (env : Env) (k : Mark) : ¬ Marked (s.step (env, .flushDirty)) k := by
  have he : s.step (env, .flushDirty) = s.ready.flushDirtyAsync := rfl
  rw [he, flushDirtyAsync_eq]
  cases k <;> simp [Marked]

theorem marked_sendHeartbeat (s : ServerRuntime) (env : Env) (k : Mark) : Marked (s.step (env, .sendHeartbeat)) k ↔ Marked s k := by
  cases k <;> exact Iff.rfl

/-- A mark stays until its flush. -/
theorem Part.marks (hp : Part s₀ i s s') (hk : KeyedRecords s.players) {k : Mark} (h : Marked s k) :
    Marked s' k ∨ Queues s' k := by
  have grown {s' : ServerRuntime} (hw : s.worldDirty = true → s'.worldDirty = true) (hd : s.dirtyPlayers ⊆ s'.dirtyPlayers)
      (hpl : ∀ key ∈ s.players, key ∈ s'.players) : Marked s' k ∨ Queues s' k := by
    cases k with
    | world => exact .inl (hw h)
    | player key => exact .inl ⟨hd h.1, hpl key h.2⟩
  have inserted {key : Bytes} {r : PlayerRec} : ∀ k ∈ s.players, k ∈ s.players.insert key r := by
    intro k hk
    rw [← AList.lookup_isSome] at hk ⊢
    rw [Table.lookup_insert]
    split
    · rfl
    · exact hk
  cases hp with
  | aside ha => exact grown (fun h => ha.worldDirty ▸ h) (ha.dirtyPlayers ▸ List.Subset.refl _) fun key hm => ha.players ▸ hm
  | remember id client hl => exact grown (fun h => h) (List.Subset.refl _) inserted
  | snapshot world => exact grown (fun _ => rfl) (List.Subset.refl _) fun _ h => h
  | assemble type id hid hstay asm hs hslots =>
    rw [setAssemblies_eq]
    exact grown (fun h => h) (List.Subset.refl _) fun _ h => h
  | store type id client hl blob hblob => exact grown (fun h => h) (fun k hk => List.mem_insert_of_mem hk) inserted
  | pose id client hl pose => exact grown (fun h => h) (fun k hk => List.mem_insert_of_mem hk) inserted
  | enter hello ha hpl hd hjobs =>
    refine grown (fun hw => ?_) (List.Subset.refl _) inserted
    simp [enterRecord, hw]
  | mark dirty hsub => exact grown (fun h => h) hsub fun _ h => h
  | markWorld => exact grown (fun _ => rfl) (List.Subset.refl _) fun _ h => h
  | flush => exact .inr (queues_flush hk h)
  | bans keys => exact .inl h
  | _ => exact .inl h

theorem Part.queues (hp : Part s₀ i s s') {k : Mark} (h : Queues s k) : Queues s' k := by
  obtain ⟨job, hm, hc⟩ := h
  refine ⟨job, ?_, hc⟩
  rcases hp.persist with he | rfl | ⟨keys, rfl⟩
  · exact he ▸ hm
  · rw [flushDirtyAsync_eq]
    exact List.mem_append_left _ hm
  · exact List.mem_append_left _ hm

/-- What is marked before a step is marked after it, or the step hands it over. -/
theorem Recorded.marks (h : Recorded s) (i : Env × Input) {k : Mark} (hm : Marked s k) :
    Marked (s.step i) k ∨ Queues (s.step i) k := by
  have hend := Parts.invariant (I := fun r => Mirrored r ∧ KeyedRecords r.players ∧ (Marked r k ∨ Queues r k))
    (step_parts h.wellFormed i) (fun r r' hp ⟨hr, hk, hm⟩ => ⟨hp.mirrored hr, hp.keyedRecords hr hk,
      hm.elim (fun hm => hp.marks hk hm) fun hm => .inr (hp.queues hm)⟩) ⟨h.mirrored.of_eq rfl rfl, h.keyed, .inl hm⟩
  exact hend.2.2

end ServerRuntime

namespace MainLoop
open ServerRuntime (Startup Input Reassures WellFormed)

variable {b : Startup} {t t₀ : Time} {m : MainLoop} {x : Turn} {xs : List Turn}

def commands (m : MainLoop) (x : Turn) : List OutboundCmd :=
  collect ServerRuntime.step (fun s i => (s.step i).outbound) m.runtime (m.inputs x)

theorem elapsed_lt {d : Time} (h : 0 < d) (last t : Time) : t - (if due d last t then t else last) < d := by
  by_cases hd : due d last t = true
  · rw [if_pos hd, sub_self]
    exact h
  · rw [if_neg hd]
    simpa [due] using hd

/-- A turn of the loop from `since` on queues a Heartbeat or a Welcome on the connection. -/
def SpokenTo (k : ConnId) (since : Time) (m : MainLoop) (y : Turn) : Prop :=
  m.running = true ∧ since ≤ y.t ∧ ∃ cmd ∈ m.commands y, Reassures k cmd

/-- After a turn a client is on the connection it was on, or the turn has welcomed it. -/
theorem turn_reassures (hr : ServerRuntime.Reachable m.runtime) (x : Turn) {p : PeerId} {client : Client}
    (hl : (run ServerRuntime.step m.runtime (m.inputs x)).clients.lookup p = some client) (h0 : client.connId ≠ 0) :
    (∃ c, m.runtime.clients.lookup p = some c ∧ c.connId = client.connId) ∨ ∃ cmd ∈ m.commands x, Reassures client.connId cmd := by
  have hheld := held_run (I := ServerRuntime.Reachable) (P := fun _ _ => True)
    (H := fun s (k : ConnId) => k ≠ 0 ∧ ∃ c, s.clients.lookup p = some c ∧ c.connId = k)
    (B := fun s i k => ∃ cmd ∈ (s.step i).outbound, Reassures k cmd) (fun s i h _ => h.step i)
    (fun s i k h _ ⟨hk, c, hc, he⟩ => by
      subst he
      exact (ServerRuntime.conn_reassured h.wellFormed i hc hk).imp_left fun h => ⟨hk, h⟩)
    hr (allSteps_of_forall fun _ _ => trivial) (x := client.connId) ⟨h0, client, hl, rfl⟩
  rcases hheld with ⟨-, hc⟩ | hsome
  · exact .inl hc
  · obtain ⟨before, i, after, he, cmd, hm, hg⟩ := someStep_iff_split.mp hsome
    exact .inr ⟨cmd, mem_collect.mpr (someStep_iff_split.mpr ⟨before, i, after, he, hm⟩), hg⟩

/-- A turn that sends heartbeats sends one to every client it leaves. -/
theorem turn_heartbeat (hd : due 5 m.lastHeartbeat x.t = true) {p : PeerId} {client : Client}
    (hl : (run ServerRuntime.step m.runtime (m.inputs x)).clients.lookup p = some client) (h0 : client.connId ≠ 0) :
    ∃ cmd ∈ m.commands x, Reassures client.connId cmd := by
  obtain ⟨is, his⟩ : ∃ is, m.inputs x = is ++ [(x.env, .sendHeartbeat)] := by
    refine ⟨received x ++ (x.env, .expireClients x.t) ::
      if due kPersistIntervalSec m.lastPersist x.t then [(x.env, .flushDirty)] else [], ?_⟩
    rw [inputs, timers, if_pos hd, List.append_assoc, List.cons_append]
  rw [his, run_concat] at hl
  obtain ⟨cmd, hm, hg⟩ := ServerRuntime.heartbeat_reassures (s := run ServerRuntime.step m.runtime is) hl h0 x.env
  refine ⟨cmd, ?_, hg⟩
  rw [commands, his, collect_concat]
  exact List.mem_append_right _ hm

/-- The timers were set off at the start or in a turn. -/
theorem timers_mem (b : Startup) (t₀ : Time) (xs : List Turn) :
    (run step (start b t₀) xs).lastPersist ∈ t₀ :: xs.map (·.t) ∧
      (run step (start b t₀) xs).lastHeartbeat ∈ t₀ :: xs.map (·.t) := by
  induction xs using List.reverseRecOn with
  | nil => exact ⟨List.mem_cons_self, List.mem_cons_self⟩
  | append_singleton xs y ih =>
    have hlast : y.t ∈ t₀ :: (xs ++ [y]).map (·.t) := by simp
    have hold : t₀ :: xs.map (·.t) ⊆ t₀ :: (xs ++ [y]).map (·.t) := by
      rw [List.map_append, ← List.cons_append]
      exact List.subset_append_left _ _
    rw [run_concat, step]
    split
    · dsimp only
      refine ⟨?_, ?_⟩
      · split
        · exact hlast
        · exact hold ih.1
      · split
        · exact hlast
        · exact hold ih.2
    · exact ⟨hold ih.1, hold ih.2⟩

theorem timers_le (hclock : Clocked t₀ (xs ++ [x])) (b : Startup) :
    (run step (start b t₀) xs).lastPersist ≤ x.t ∧ (run step (start b t₀) xs).lastHeartbeat ≤ x.t := by
  have hle : ∀ u ∈ t₀ :: xs.map (·.t), u ≤ x.t := by
    intro u hu
    rcases List.mem_cons.mp hu with rfl | hu
    · exact hclock.le_last.1
    · obtain ⟨y, hy, rfl⟩ := List.mem_map.mp hu
      exact hclock.le_last.2 y hy
  exact ⟨hle _ (timers_mem b t₀ xs).1, hle _ (timers_mem b t₀ xs).2⟩

/-- Each client has had word from the server since the last heartbeat. -/
theorem spokenTo_run (hclock : Clocked t₀ xs) {p : PeerId} {client : Client}
    (hl : (run step (start b t₀) xs).runtime.clients.lookup p = some client) (h0 : client.connId ≠ 0) :
    SomeStep step (SpokenTo client.connId (run step (start b t₀) xs).lastHeartbeat) (start b t₀) xs := by
  induction xs using List.reverseRecOn generalizing client with
  | nil => simp [start, Startup.runtime, ServerRuntime.initial] at hl
  | append_singleton xs x ih =>
    have ih {client} := @ih hclock.before client
    have hr := reachable_run b t₀ xs
    have hle := (timers_le hclock b).2
    rw [run_concat] at hl ⊢
    generalize hm : run step (start b t₀) xs = m at hl hr hle ih ⊢
    cases hrun : m.running with
    | false =>
      rw [step_stopped hrun] at hl ⊢
      exact (someStep_append _ _).mpr (.inl (ih hl h0))
    | true =>
      rw [step_running hrun] at hl ⊢
      dsimp only at hl ⊢
      have now (since : Time) (hs : since ≤ x.t) (hg : ∃ cmd ∈ m.commands x, Reassures client.connId cmd) :
          SomeStep step (SpokenTo client.connId since) (start b t₀) (xs ++ [x]) := by
        refine (someStep_append _ _).mpr (.inr (.inl ?_))
        rw [hm]
        exact ⟨hrun, hs, hg⟩
      by_cases hd : due 5 m.lastHeartbeat x.t = true
      · rw [if_pos hd]
        exact now x.t le_rfl (turn_heartbeat hd hl h0)
      · rw [if_neg hd]
        rcases turn_reassures hr x hl h0 with ⟨c, hc, he⟩ | hg
        · have hold := ih hc (he ▸ h0)
          rw [he] at hold
          exact (someStep_append _ _).mpr (.inl hold)
        · exact now m.lastHeartbeat hle hg

/-- After every turn, each client has been sent a Heartbeat or a Welcome less than five seconds ago. -/
theorem clients_spoken_to (b : Startup) (t₀ : Time) (xs : List Turn) (x : Turn) (hclock : Clocked t₀ (xs ++ [x]))
    (hr : (run step (start b t₀) xs).running = true) (p : PeerId) (client : Client)
    (hl : (run step (start b t₀) (xs ++ [x])).runtime.clients.lookup p = some client) (h0 : client.connId ≠ 0) :
    SomeStep step (fun m y => m.running = true ∧ x.t - y.t < 5 ∧ ∃ cmd ∈ m.commands y, Reassures client.connId cmd)
      (start b t₀) (xs ++ [x]) := by
  refine (spokenTo_run hclock hl h0).imp fun m y ⟨hm, hsince, hg⟩ => ⟨hm, ?_, hg⟩
  rw [run_concat, step_running hr] at hsince
  have hlt := elapsed_lt (d := 5) (by norm_num) (run step (start b t₀) xs).lastHeartbeat x.t
  dsimp only at hsince
  linarith

theorem clients_spoken_to_join :
    SomeStep step (fun m y => m.running = true ∧ 6 - y.t < 5 ∧ ∃ cmd ∈ m.commands y, Reassures 1 cmd)
      (start ServerRuntime.freshStart 0) ([joinTurn] ++ [quietTurn 6]) := by
  have hlive : ((run step (start ServerRuntime.freshStart 0) ([joinTurn] ++ [quietTurn 6])).runtime.clients.lookup 1).map
      (·.connId) = some 1 := by decide +kernel
  obtain ⟨client, hl, hc⟩ := Option.map_eq_some_iff.mp hlive
  have hspoken := clients_spoken_to ServerRuntime.freshStart 0 [joinTurn] (quietTurn 6) (by unfold Clocked; decide +kernel)
    (by decide +kernel) 1 client hl (by rw [hc]; decide)
  rw [hc] at hspoken
  exact hspoken

def jobs (m : MainLoop) (x : Turn) : List PersistJob :=
  collect ServerRuntime.step (fun s i => (s.step i).persist) m.runtime (m.inputs x)

/-- A turn of the loop hands over what the mark is for. -/
def HandsOver (k : ServerRuntime.Mark) (m : MainLoop) (y : Turn) : Prop :=
  m.running = true ∧ ∃ job ∈ m.jobs y, ServerRuntime.Carries job k

variable {k : ServerRuntime.Mark}

theorem recorded_inputs {s : ServerRuntime} (h : ServerRuntime.Recorded s) (is : List (Env × Input)) :
    ServerRuntime.Recorded (run ServerRuntime.step s is) :=
  run_invariant (P := fun _ _ => True) (fun _ i h _ => (h.step i).1) h (allSteps_of_forall fun _ _ => trivial)

theorem turn_marks (hr : ServerRuntime.Recorded m.runtime) (hrun : m.running = true) (x : Turn)
    (hm : ServerRuntime.Marked m.runtime k) :
    ServerRuntime.Marked (run ServerRuntime.step m.runtime (m.inputs x)) k ∨ HandsOver k m x := by
  have hkept : (ServerRuntime.Recorded (run ServerRuntime.step m.runtime (m.inputs x)) ∧
      ServerRuntime.Marked (run ServerRuntime.step m.runtime (m.inputs x)) k) ∨
      SomeStep ServerRuntime.step (fun s i => ServerRuntime.Queues (s.step i) k) m.runtime (m.inputs x) :=
    kept_run (K := fun s => ServerRuntime.Recorded s ∧ ServerRuntime.Marked s k)
      (fun s i ⟨hs, hk⟩ => (hs.marks i hk).imp_left fun hk => ⟨(hs.step i).1, hk⟩) ⟨hr, hm⟩
  rcases hkept with ⟨-, hk⟩ | hsome
  · exact .inl hk
  · obtain ⟨before, i, after, he, job, hjob, hc⟩ := someStep_iff_split.mp hsome
    exact .inr ⟨hrun, job, mem_collect.mpr (someStep_iff_split.mpr ⟨before, i, after, he, hjob⟩), hc⟩

/-- A turn that flushes leaves no mark. -/
theorem turn_flush (hd : due kPersistIntervalSec m.lastPersist x.t = true) :
    ¬ ServerRuntime.Marked (run ServerRuntime.step m.runtime (m.inputs x)) k := by
  have hinputs : m.inputs x = (received x ++ [(x.env, .expireClients x.t)]) ++ ((x.env, .flushDirty) ::
      if due 5 m.lastHeartbeat x.t then [(x.env, .sendHeartbeat)] else []) := by
    rw [inputs, timers, if_pos hd, List.append_cons, List.singleton_append]
  rw [hinputs, run_append, run_cons]
  by_cases hb : due 5 m.lastHeartbeat x.t = true
  · rw [if_pos hb, run_cons, run_nil, ServerRuntime.marked_sendHeartbeat]
    exact ServerRuntime.not_marked_flush _ x.env k
  · rw [if_neg hb, run_nil]
    exact ServerRuntime.not_marked_flush _ x.env k

/-- What is marked and not yet due for a flush. -/
structure Pending (k : ServerRuntime.Mark) (u : Time) (m : MainLoop) : Prop where
  recorded : ServerRuntime.Recorded m.runtime
  marked : ServerRuntime.Marked m.runtime k
  since : m.lastPersist ≤ u

theorem Pending.step {u : Time} (h : Pending k u m) (x : Turn) : Pending k u (step m x) ∨ HandsOver k m x := by
  cases hrun : m.running with
  | false =>
    rw [step_stopped hrun]
    exact .inl h
  | true =>
    rw [step_running hrun]
    rcases turn_marks h.recorded hrun x h.marked with hk | hk
    · left
      by_cases hd : due kPersistIntervalSec m.lastPersist x.t = true
      · exact absurd hk (turn_flush hd)
      · exact ⟨recorded_inputs h.recorded _, hk, by rw [if_neg hd]; exact h.since⟩
    · exact .inr hk

/-- What is marked after a turn is handed over before two seconds are past. -/
theorem marks_handed_over (b : ServerRuntime.LoadedStartup) (t₀ : Time) (k : ServerRuntime.Mark) (xs : List Turn) (y : Turn)
    (zs : List Turn) (x : Turn) (hclock : Clocked t₀ (xs ++ [y]))
    (hm : ServerRuntime.Marked (run step (start b.toStartup t₀) (xs ++ [y])).runtime k)
    (hr : (run step (start b.toStartup t₀) (xs ++ [y] ++ zs)).running = true) (hlate : kPersistIntervalSec ≤ x.t - y.t) :
    SomeStep step (HandsOver k) (run step (start b.toStartup t₀) (xs ++ [y])) (zs ++ [x]) := by
  have hrecorded : ServerRuntime.Recorded (run step (start b.toStartup t₀) (xs ++ [y])).runtime := by
    rw [run_runtime]
    exact recorded_inputs (ServerRuntime.recorded_start b) _
  have hsince : (run step (start b.toStartup t₀) (xs ++ [y])).lastPersist ≤ y.t := by
    have hle := (timers_le hclock b.toStartup).1
    rw [run_concat, step]
    split
    · dsimp only
      split
      · exact le_rfl
      · exact hle
    · exact hle
  rw [run_append] at hr
  generalize run step (start b.toStartup t₀) (xs ++ [y]) = m at hm hr hrecorded hsince ⊢
  rw [someStep_append]
  refine (kept_run (fun _ z h => h.step z) ⟨hrecorded, hm, hsince⟩ : Pending k y.t (run step m zs) ∨ _).symm.imp_right fun h => .inl ?_
  have hdue : due kPersistIntervalSec (run step m zs).lastPersist x.t = true := by
    have := h.since
    simp only [due, decide_eq_true_eq]
    linarith
  exact (turn_marks h.recorded hr x h.marked).resolve_left (turn_flush hdue)

theorem marks_handed_over_join :
    SomeStep step (HandsOver .world) (run step (start ServerRuntime.emptyFolder.toStartup 0) ([] ++ [joinTurn]))
      ([] ++ [quietTurn 3]) :=
  marks_handed_over ServerRuntime.emptyFolder 0 .world [] joinTurn [] (quietTurn 3) (by unfold Clocked; decide +kernel)
    (by unfold ServerRuntime.Marked; decide +kernel) (by decide +kernel) (by decide +kernel)

end MainLoop
end CommonwealthMP
