import CommonwealthMP.SessionRefinement

/-! # The session invariant

What holds of clients, pending connections and the host in every state a run reaches. -/
namespace CommonwealthMP
open ByteLayout Binary32 OrderedTables SessionTable
namespace ServerRuntime

structure WellFormed (s : ServerRuntime) : Prop where
  keyed : Keyed s.clients
  ok : Ok s.sessions

def stepMoves (s : ServerRuntime) (i : Env × Input) : List Move := moves i.1 s.ready i.2

theorem step_simulates {s : ServerRuntime} (h : WellFormed s) (i : Env × Input) :
    Simulates s (stepMoves s i) (s.step i) :=
  (quiet_ready s).simulates (handle_simulates i.1 (s := s.ready) h.keyed h.ok i.2)

theorem WellFormed.step {s : ServerRuntime} (h : WellFormed s) (i : Env × Input) : WellFormed (s.step i) :=
  ⟨(step_simulates h i).keyed, (step_simulates h i).steps.ok h.ok⟩

theorem wellFormed_initial (b : Startup) : WellFormed b.runtime where
  keyed id c h := by simp [Startup.runtime, initial] at h
  ok := {
    key_unique := fun h => by simp [sessions, liveOf, Startup.runtime, initial] at h
    host_idle := fun _ => rfl
    host_live := fun h => by simp [sessions, liveOf, Startup.runtime, initial] at h
    udp_sound := fun h => by simp [sessions, Startup.runtime, initial] at h }

theorem Reachable.wellFormed {s : ServerRuntime} (h : Reachable s) : WellFormed s :=
  h.induction wellFormed_initial fun _ i h => h.step i

theorem runFrom_reachable (b : Startup) (is : List (Env × Input)) : Reachable (runFrom b is) := ⟨b, is, rfl⟩

theorem runFrom_concat (b : Startup) (is : List (Env × Input)) (i : Env × Input) :
    runFrom b (is ++ [i]) = (runFrom b is).step i := StepRuns.run_concat step b.runtime is i

theorem accepted_clientMoves (s : ServerRuntime) (id : PeerId) (buf : Bytes) :
    (clientMoves s id buf).flatMap accepted = [] := by
  unfold clientMoves
  cases openFrame buf with
  | none => rfl
  | some frame =>
    rw [Option.elim_some]
    unfold messageMoves
    split
    · rfl
    · split <;> rfl
    · rfl

theorem accepted_pendingMoves (env : Env) (s : ServerRuntime) (pending : PendingTcp) (buf : Bytes) (t : Time) :
    (pendingMoves env s pending buf t).flatMap accepted = [] := by
  unfold pendingMoves
  split
  · rfl
  · rfl
  · split <;> rfl

theorem flatMap_leaves {τ : Type} (f : Move → List τ) (hf : ∀ id, f (.leave id false) = []) (ids : List PeerId) :
    (ids.map fun id => (SessionTable.Move.leave id false : Move)).flatMap f = [] := by
  simp [List.flatMap_map, hf]

/-- A step takes from the network the connection its input brings in. -/
theorem accepted_stepMoves (s : ServerRuntime) (i : Env × Input) :
    (stepMoves s i).flatMap accepted = acceptedConn i := by
  obtain ⟨env, i⟩ := i
  unfold stepMoves moves acceptedConn
  cases i with
  | inbound ev t =>
    cases hev : ev.kind with
    | TcpAccept => simp [hev, accepted]
    | TcpFrame =>
      simp only [hev, frameMoves]
      split
      · exact accepted_clientMoves _ _ _
      · exact accepted_pendingMoves _ _ _ _ _
      · rfl
    | TcpClosed =>
      simp only [hev, List.flatMap_cons]
      exact flatMap_leaves accepted (fun _ => rfl) _
    | UdpDatagram => simp [hev, List.flatMap_map, accepted]
  | expirePending t => rfl
  | expireClients t => exact flatMap_leaves accepted (fun _ => rfl) _
  | sendHeartbeat => rfl
  | flushDirty => rfl
  | admin cmdLine => exact flatMap_leaves accepted (fun _ => rfl) _

theorem freshAccepts_of_append {is js : List (Env × Input)} (hf : FreshAccepts (is ++ js)) : FreshAccepts is := by
  refine ⟨?_, fun h0 => hf.2 ?_⟩
  · have := hf.1
    rw [List.flatMap_append] at this
    exact (List.nodup_append.mp this).1
  · rw [List.flatMap_append]
    exact List.mem_append_left _ h0

/-- Every connection in the table was accepted in the run, and has one owner. -/
theorem run_owned (b : Startup) {is : List (Env × Input)} (hf : FreshAccepts is) :
    Owned (is.flatMap acceptedConn) (runFrom b is).sessions := by
  induction is using List.reverseRecOn with
  | nil =>
    constructor
    · intro i j e e' h
      simp [sessions, liveOf, runFrom, Startup.runtime, initial] at h
    · intro i e h
      simp [sessions, liveOf, runFrom, Startup.runtime, initial] at h
    · exact List.nodup_nil
    · intro i e h
      simp [sessions, liveOf, runFrom, Startup.runtime, initial] at h
    · intro c h
      simp [sessions, runFrom, Startup.runtime, initial] at h
  | append_singleton is i ih =>
    have hsub := freshAccepts_of_append hf
    have hnd := hf.1
    simp only [List.flatMap_append, List.flatMap_singleton] at hnd ⊢
    rw [runFrom_concat, ← accepted_stepMoves (runFrom b is) i] at *
    exact (step_simulates (runFrom_reachable b is).wellFormed i).steps.owned (ih hsub) hnd hsub.1

theorem issued_clientMoves (s : ServerRuntime) (id : PeerId) (buf : Bytes) :
    (clientMoves s id buf).flatMap issued = [] := by
  unfold clientMoves
  cases openFrame buf with
  | none => rfl
  | some frame =>
    rw [Option.elim_some]
    unfold messageMoves
    split
    · rfl
    · split <;> rfl
    · rfl

theorem issued_stepMoves (s : ServerRuntime) (i : Env × Input) : (stepMoves s i).flatMap issued = joins s i := by
  obtain ⟨env, i⟩ := i
  unfold stepMoves moves joins pendingExit
  cases i with
  | inbound ev t =>
    cases hev : ev.kind with
    | TcpAccept => simp [hev, issued]
    | TcpFrame =>
      simp only [hev, frameMoves, pendingFrame, if_true]
      cases hf : frameTarget s.ready ev with
      | client id client => exact issued_clientMoves _ _ _
      | pending p =>
        simp only [pendingMoves, Option.map_some]
        have hprune : (if p.connId = 0 then [SessionTable.Move.prune] else [] : List Move).flatMap issued = [] := by
          split <;> rfl
        cases (handlePendingMessage env s.ready p ev.bytes t).exit with
        | joined id fresh => rfl
        | reconnected id => rfl
        | dropped => exact hprune
        | answered => exact hprune
        | rejected reason => exact hprune
        | rolledBack => exact hprune
      | nobody => rfl
    | TcpClosed =>
      simp only [hev, List.flatMap_cons]
      exact flatMap_leaves issued (fun _ => rfl) _
    | UdpDatagram => simp [hev, List.flatMap_map, issued]
  | expirePending t => rfl
  | expireClients t => exact flatMap_leaves issued (fun _ => rfl) _
  | sendHeartbeat => rfl
  | flushDirty => rfl
  | admin cmdLine => exact flatMap_leaves issued (fun _ => rfl) _

def joinsOf (b : Startup) (is : List (Env × Input)) : List PeerId := StepRuns.collect step joins b.runtime is

theorem joinsOf_concat (b : Startup) (is : List (Env × Input)) (i : Env × Input) :
    joinsOf b (is ++ [i]) = joinsOf b is ++ joins (runFrom b is) i := StepRuns.collect_concat step joins b.runtime is i

/-- Ids are given away in order, from 1 on, and a live session has one of them. -/
structure IssuedIds (ids : List PeerId) (S : Sessions) : Prop where
  ids_eq : ids = (List.range ids.length).map fun k => UInt32.ofNat (k + 1)
  next_eq : S.next = UInt32.ofNat (ids.length + 1)
  live_mem : ∀ {i e}, S.live i = some e → i ∈ ids

theorem issuedIds_step {ids : List PeerId} {S S' : Sessions} {m : Move} (hS : IssuedIds ids S) (h : Step S m S') :
    IssuedIds (ids ++ issued m) S' := by
  have hlive : ∀ {i e}, S'.live i = some e → i ∈ ids ++ issued m := by
    intro i e hi
    rcases h.live_cases hi with hi | ⟨rfl, -⟩ | ⟨e, hi, -⟩
    · exact List.mem_append_left _ (hS.live_mem hi)
    · exact List.mem_append_right _ (by simp [issued])
    · exact List.mem_append_left _ (hS.live_mem hi)
  rcases h.issued_next with ⟨hm, hn⟩ | ⟨hm, hn⟩
  · rw [hm, List.append_nil] at hlive ⊢
    exact ⟨hS.ids_eq, hn.trans hS.next_eq, hlive⟩
  · rw [hm] at hlive ⊢
    refine ⟨?_, ?_, hlive⟩
    · rw [List.length_append, List.length_singleton, List.range_succ, List.map_append, ← hS.ids_eq, hS.next_eq]
      rfl
    · rw [hn, hS.next_eq, List.length_append, List.length_singleton]
      simp [UInt32.ofNat_add]

theorem issuedIds_steps {ids : List PeerId} {S S' : Sessions} {ms : List Move} (hS : IssuedIds ids S)
    (h : Steps S ms S') : IssuedIds (ids ++ ms.flatMap issued) S' := by
  induction h generalizing ids with
  | nil => simpa using hS
  | cons hm _ ih =>
    rw [List.flatMap_cons, ← List.append_assoc]
    exact ih (issuedIds_step hS hm)

theorem run_issuedIds (b : Startup) (is : List (Env × Input)) : IssuedIds (joinsOf b is) (runFrom b is).sessions := by
  induction is using List.reverseRecOn with
  | nil =>
    refine ⟨rfl, rfl, fun h => ?_⟩
    simp [sessions, liveOf, runFrom, Startup.runtime, initial] at h
  | append_singleton is i ih =>
    rw [joinsOf_concat, runFrom_concat, ← issued_stepMoves]
    exact issuedIds_steps ih (step_simulates (runFrom_reachable b is).wellFormed i).steps

/-- Short of a wrap-around the ids are distinct and none is zero. -/
theorem IssuedIds.fresh {ids : List PeerId} {S : Sessions} (h : IssuedIds ids S) (hlen : ids.length < 2 ^ 32 - 1) :
    ids.Nodup ∧ 0 ∉ ids := by
  have hval : ∀ k < ids.length, (UInt32.ofNat (k + 1)).toNat = k + 1 := by
    intro k hk
    rw [UInt32.toNat_ofNat']
    exact Nat.mod_eq_of_lt (by omega)
  rw [h.ids_eq]
  constructor
  · refine List.Nodup.map_on ?_ List.nodup_range
    intro x hx y hy hxy
    have := congrArg UInt32.toNat hxy
    rw [hval x (List.mem_range.mp hx), hval y (List.mem_range.mp hy)] at this
    omega
  · intro h0
    obtain ⟨k, hk, hk0⟩ := List.mem_map.mp h0
    have := congrArg UInt32.toNat hk0
    rw [hval k (List.mem_range.mp hk)] at this
    simp at this

def ownedConns (s : ServerRuntime) : List ConnId := s.clients.values.map (·.connId) ++ s.pendingTcp.map (·.connId)

structure SessionInvariant (s : ServerRuntime) : Prop where
  key_eq_peerId : ∀ id c, s.clients.lookup id = some c → id = c.peerId ∧ c.peerId ≠ 0
  playerKey_unique : ∀ id id' c c', s.clients.lookup id = some c → s.clients.lookup id' = some c' →
    c.playerKey = c'.playerKey → id = id'
  conn_owned_once : ∀ connId, connId ≠ 0 → (ownedConns s).count connId ≤ 1
  host_zero_iff : s.world.hostPeerId = 0 ↔ s.clients = ∅
  host_live : s.clients ≠ ∅ → ∃! e, e ∈ s.clients.entries ∧ e.1 = s.world.hostPeerId

theorem count_ownedConns {used : List ConnId} {s : ServerRuntime} (h : Owned used s.sessions) (connId : ConnId) :
    (ownedConns s).count connId ≤ 1 := by
  refine List.nodup_iff_count_le_one.mp ?_ connId
  refine List.Nodup.append ?_ h.pending_nodup ?_
  · exact Table.nodup_map_values fun k k' c c' hc hc' hcc => h.conn_unique (liveOf_some hc) (liveOf_some hc') hcc
  · intro c hc hp
    obtain ⟨client, hm, rfl⟩ := List.mem_map.mp hc
    obtain ⟨k, hk⟩ := Table.mem_values.mp hm
    exact h.not_pending (liveOf_some hk) hp

theorem eq_empty_iff {clients : ClientTable} : clients = ∅ ↔ ∀ id, liveOf clients id = none := by
  constructor
  · rintro rfl id
    simp [liveOf]
  · intro h
    refine AList.ext ?_
    have hv : clients.values = [] := Table.values_eq_nil.mpr fun id => liveOf_eq_none.mp (h id)
    simpa [Table.values] using hv

theorem sessionInvariant_of {ids : List PeerId} {used : List ConnId} {s : ServerRuntime} (hw : WellFormed s)
    (ho : Owned used s.sessions) (hi : IssuedIds ids s.sessions) (h0 : 0 ∉ ids) : SessionInvariant s := by
  have hne : ∀ {id c}, s.clients.lookup id = some c → id ≠ 0 := by
    rintro id c hc rfl
    exact h0 (hi.live_mem (liveOf_some hc))
  constructor
  · intro id c hc
    have := hw.keyed id c hc
    exact ⟨this.symm, this ▸ hne hc⟩
  · intro id id' c c' hc hc' hk
    exact hw.ok.key_unique (liveOf_some hc) (liveOf_some hc') hk
  · exact fun connId _ => count_ownedConns ho connId
  · rw [eq_empty_iff]
    refine ⟨fun hz id => ?_, hw.ok.host_idle⟩
    by_contra hlive
    obtain ⟨e, he⟩ := Option.ne_none_iff_exists'.mp hlive
    obtain ⟨e', he'⟩ := Option.ne_none_iff_exists'.mp (hw.ok.host_live he)
    obtain ⟨c, hc, -⟩ := liveOf_eq_some.mp he'
    exact hne hc hz
  · intro hnonempty
    obtain ⟨id, hlive⟩ := not_forall.mp (mt eq_empty_iff.mpr hnonempty)
    obtain ⟨e, he⟩ := Option.ne_none_iff_exists'.mp hlive
    obtain ⟨e', he'⟩ := Option.ne_none_iff_exists'.mp (hw.ok.host_live he)
    obtain ⟨c, hc, -⟩ := liveOf_eq_some.mp he'
    refine ⟨⟨s.world.hostPeerId, c⟩, ⟨Table.mem_entries.mpr hc, rfl⟩, ?_⟩
    rintro ⟨k, c'⟩ ⟨hm, rfl⟩
    have hc' := Table.mem_entries.mp hm
    rw [show s.clients.lookup s.world.hostPeerId = some c from hc] at hc'
    cases hc'
    rfl

/-- In every run with fresh connections and fewer than `2 ^ 32 - 1` joins the session invariant
holds, and no two joins get the same id. -/
theorem run_sessionInvariant (b : Startup) (is : List (Env × Input)) (hf : FreshAccepts is)
    (hj : (joinsOf b is).length < 2 ^ 32 - 1) : SessionInvariant (runFrom b is) ∧ (joinsOf b is).Nodup := by
  have hi := run_issuedIds b is
  obtain ⟨hnd, h0⟩ := hi.fresh hj
  exact ⟨sessionInvariant_of (runFrom_reachable b is).wellFormed (run_owned b hf) hi h0, hnd⟩

theorem run_sessionInvariant_twoJoins :
    SessionInvariant (runFrom freshStart twoJoins) ∧ (joinsOf freshStart twoJoins).Nodup :=
  run_sessionInvariant freshStart twoJoins (by unfold FreshAccepts; decide) (by decide +kernel)

end ServerRuntime
end CommonwealthMP
