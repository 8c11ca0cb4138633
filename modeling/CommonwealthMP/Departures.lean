import CommonwealthMP.ConnectionWelcomes

/-! # Departures

What a step that removes clients tells the others. `remove_client` announces every departure;
the kick of the admin console is written out on its own and tells only the kicked client. -/
namespace CommonwealthMP
open ByteLayout Binary32 OrderedTables SessionTable StepRuns
namespace ServerRuntime

/-- The pushes of a step that a bounded queue accepts; `room k` says whether there is room when
the `k`-th of them is made. -/
def admitted (room : ℕ → Bool) : List OutboundCmd → List OutboundCmd
  | [] => []
  | cmd :: cmds => (if room 0 then [cmd] else []) ++ admitted (fun k => room (k + 1)) cmds

/-- An input, and what the queue does with the pushes of its step. -/
abbrev QueuedInput := (Env × Input) × (ℕ → Bool)

def queued (s : ServerRuntime) (j : QueuedInput) : List OutboundCmd := admitted j.2 (s.step j.1).outbound

/-- The departure of `p` in a step is announced and leaves the other clients alone. -/
structure Announced (s : ServerRuntime) (j : QueuedInput) (p : PeerId) : Prop where
  byes : ∀ q other, (s.step j.1).clients.lookup q = some other → toTcp other (makeBye p).encode ∈ queued s j
  address : ∀ a, (s.step j.1).udpPeerByAddr.lookup a ≠ some p
  host : s.world.hostPeerId = p → ((s.step j.1).clients = ∅ ∧ (s.step j.1).world.hostPeerId = 0) ∨
    (s.step j.1).world.hostPeerId ∈ (s.step j.1).clients
  records : ∀ q other, (s.step j.1).clients.lookup q = some other → s.clients.lookup q = some other

/-- Every departure of the step is announced. -/
def AnnouncesAll (s : ServerRuntime) (j : QueuedInput) : Prop :=
  ∀ p, p ∈ s.clients → p ∉ (s.step j.1).clients → Announced s j p

/-- The step is an admin line that kicks a client while another one is live. -/
def KicksAmongOthers (s : ServerRuntime) (i : Env × Input) : Prop :=
  ∃ cmdLine p q, i.2 = .admin cmdLine ∧ kickTarget s.ready cmdLine = some p ∧ q ∈ s.clients ∧ q ≠ p

/-- From `s` to `s'` clients are only removed, and every removal is announced to those who stay. -/
structure Departs (s s' : ServerRuntime) : Prop where
  records : ∀ q other, s'.clients.lookup q = some other → s.clients.lookup q = some other
  byes : ∀ p, p ∈ s.clients → p ∉ s'.clients → ∀ q other, s'.clients.lookup q = some other → other.connId ≠ 0 →
    toTcp other (makeBye p).encode ∈ s'.outbound
  outbound : ∀ cmd ∈ s.outbound, cmd ∈ s'.outbound

theorem Departs.refl (s : ServerRuntime) : Departs s s :=
  ⟨fun _ _ h => h, fun _ h h' => absurd h h', fun _ h => h⟩

theorem Departs.trans {s s' s'' : ServerRuntime} (h : Departs s s') (h' : Departs s' s'') : Departs s s'' := by
  refine ⟨fun q other hq => h.records q other (h'.records q other hq), ?_, fun cmd hm => h'.outbound cmd (h.outbound cmd hm)⟩
  intro p hp hout q other hq hc
  by_cases hmid : p ∈ s'.clients
  · exact h'.byes p hmid hout q other hq hc
  · exact h'.outbound _ (h.byes p hp hmid q other (h'.records q other hq) hc)

theorem makeBye_encode_ne_nil (p : PeerId) : (makeBye p).encode ≠ [] := by
  refine List.ne_nil_of_length_pos ?_
  simp [Bye.encode]

theorem mem_sendTcp_self {client : Client} (hc : client.connId ≠ 0) (p : PeerId) :
    toTcp client (makeBye p).encode ∈ sendTcp client (makeBye p).encode := by
  rw [sendTcp_eq hc (makeBye_encode_ne_nil p)]
  exact List.mem_singleton.mpr rfl

/-- `remove_client` announces; the record of the leaving client may have been touched before. -/
theorem departs_removeClient (env : Env) {s s₁ : ServerRuntime} {id : PeerId} (hk : Keyed s₁.clients)
    (hmem : ∀ p, p ∈ s₁.clients ↔ p ∈ s.clients)
    (hothers : ∀ q, q ≠ id → s₁.clients.lookup q = s.clients.lookup q) (ho : s₁.outbound = s.outbound)
    (hid : id ∈ s₁.clients) (keepTcp : Bool) : Departs s (removeClient env s₁ id keepTcp) := by
  obtain ⟨client, hl⟩ := Option.isSome_iff_exists.mp (AList.lookup_isSome.mpr hid)
  obtain ⟨persist, he⟩ := removeClient_eq env hl keepTcp
  have hrecords : ∀ q other, (s₁.clients.erase id).lookup q = some other → q ≠ id ∧ s.clients.lookup q = some other := by
    intro q other hq
    rw [Table.lookup_erase] at hq
    split at hq
    · cases hq
    · rename_i hne
      exact ⟨hne, hothers q hne ▸ hq⟩
  rw [he]
  refine ⟨fun q other hq => (hrecords q other hq).2, ?_, ?_⟩
  · intro p hp hout q other hq hc
    have hpid : p = id := by
      by_contra hne
      refine hout ?_
      rw [AList.mem_erase]
      exact ⟨hne, (hmem p).mpr hp⟩
    obtain ⟨hne, hq'⟩ := hrecords q other hq
    have hbye : toTcp other (makeBye id).encode ∈ byeOthers s₁.clients id client := by
      rw [byeOthers, hk id client hl]
      exact mem_toOthers.mpr ⟨q, other, (hothers q hne).trans hq', hne, mem_sendTcp_self hc id⟩
    rw [hpid]
    exact List.mem_append_right _ (List.mem_append_left _ hbye)
  · intro cmd hm
    rw [← ho] at hm
    exact List.mem_append_left _ hm

theorem departs_removals (env : Env) {s : ServerRuntime} (hk : Keyed s.clients) (ids : List PeerId) :
    Departs s (ids.foldl (fun s id => removeClient env s id false) s) := by
  induction ids generalizing s with
  | nil => exact .refl s
  | cons id ids ih =>
    by_cases hid : id ∈ s.clients
    · have h := departs_removeClient env (s := s) hk (fun _ => Iff.rfl) (fun _ _ => rfl) rfl hid false
      exact h.trans (ih (removeClient_simulates env hk id false).keyed)
    · have hsame := removeClient_of_absent env (AList.lookup_eq_none.mpr hid) false
      rw [List.foldl_cons, hsame]
      exact ih hk

/-- A client that is gone was taken out by the step. -/
theorem leave_of_gone {s : ServerRuntime} (hw : WellFormed s) {i : Env × Input} {p : PeerId} (hp : p ∈ s.clients)
    (hout : p ∉ (s.step i).clients) : ∃ keep, .leave p keep ∈ stepMoves s i := by
  by_contra hnone
  push Not at hnone
  obtain ⟨c, hl⟩ := Option.isSome_iff_exists.mp (AList.lookup_isSome.mpr hp)
  have hlive : s.sessions.live p ≠ none := by
    rw [show s.sessions.live p = some (endpointOf c) from liveOf_some hl]
    nofun
  refine (step_simulates hw i).steps.live_stays hlive hnone ?_
  exact liveOf_eq_none.mpr (AList.lookup_eq_none.mpr hout)

theorem departs_bye {s : ServerRuntime} (hw : WellFormed s) {i : Env × Input} {ev : InboundEvent} {t : Time} {p : PeerId}
    {client : Client} {header : Header} (hs : ClientStep s.ready i.2 ev t p client)
    (hopen : openFrame ev.bytes = some (header, .Bye)) : Departs s.ready (s.step i) := by
  have hl : s.clients.lookup p = some client := frameTarget_client hs.target
  have hid : client.peerId = p := hw.keyed p client hl
  rw [step_client hs, handleClientFrame, handleTcpMessage_bye i.1 _ p client hopen]
  dsimp only
  rw [hid]
  simp only [List.nil_append, List.foldl_cons, List.foldl_nil]
  have hseen := quiet_seen s.ready p t
  have hin : p ∈ (s.ready.seen p t).clients := Table.mem_modify.mpr (AList.lookup_isSome.mp (hl ▸ rfl))
  have h := @departs_removeClient i.1 s.ready { s.ready.seen p t with removePeers := [p], keepTcpPeers := [p] } p
    (hseen.keyed hw.keyed) (fun q => Table.mem_modify) (fun q hq => Table.lookup_modify_ne _ _ hq) rfl hin ([p].contains p)
  exact ⟨h.records, h.byes, h.outbound⟩

theorem departs_closed {s : ServerRuntime} (hw : WellFormed s) {i : Env × Input} {ev : InboundEvent} {t : Time}
    (hi : i.2 = .inbound ev t) (hk : ev.kind = .TcpClosed) {p : PeerId} (hc : closedPeer s.ready ev = some p) :
    Departs s.ready (s.step i) := by
  have hs : s.step i = applyInbound i.1 s.ready ev t := by
    rw [ServerRuntime.step, hi]
    rfl
  unfold closedPeer at hc
  split at hc
  · rename_i hp
    cases hc
    obtain ⟨s₁, hclients, hout, hstep⟩ : ∃ s₁ : ServerRuntime, s₁.clients = s.clients ∧ s₁.outbound = s.ready.outbound ∧
        s.step i = removeClient i.1 s₁ ev.peerId false := by
      refine ⟨{ s.ready with pendingTcp := s.ready.pendingTcp.filter fun q => q.connId ≠ ev.connId }, rfl, rfl, ?_⟩
      rw [hs, applyInbound, hk]
      exact if_pos hp
    rw [hstep]
    by_cases hid : ev.peerId ∈ s.clients
    · exact departs_removeClient i.1 (hclients ▸ hw.keyed) (fun _ => hclients ▸ Iff.rfl) (fun _ _ => hclients ▸ rfl) hout
        (hclients ▸ hid) false
    · rw [removeClient_of_absent i.1 (hclients ▸ AList.lookup_eq_none.mpr hid)]
      exact ⟨fun q other hq => hclients ▸ hq, fun q hq hgone => absurd (hclients ▸ hq) hgone, fun cmd hm => hout ▸ hm⟩
  · rename_i hp
    obtain ⟨⟨id, client⟩, hf, hid⟩ := Option.map_eq_some_iff.mp hc
    have hl : s.clients.lookup id = some client := (findByConn_some hf).1
    obtain ⟨s₁, hclients, hout, hstep⟩ : ∃ s₁ : ServerRuntime,
        s₁.clients = s.clients.modify id (fun c => { c with connId := 0 }) ∧ s₁.outbound = s.ready.outbound ∧
          s.step i = removeClient i.1 s₁ id false := by
      refine ⟨{ s.ready with
        pendingTcp := s.ready.pendingTcp.filter fun q => q.connId ≠ ev.connId
        clients := s.clients.modify id fun c => { c with connId := 0 } }, rfl, rfl, ?_⟩
      have hconn : findByConn { s.ready with pendingTcp := s.ready.pendingTcp.filter fun q => q.connId ≠ ev.connId }
          ev.connId = some ⟨id, client⟩ := hf
      rw [hs, applyInbound, hk]
      dsimp only
      rw [if_neg hp, hconn]
      dsimp only
      rw [hw.keyed id client hl]
      rfl
    rw [hstep]
    refine departs_removeClient i.1 ?_ (fun _ => hclients ▸ Table.mem_modify) (fun q hq => ?_) hout ?_ false
    · rw [hclients]
      exact Keyed.modify hw.keyed id fun _ => rfl
    · rw [hclients]
      exact Table.lookup_modify_ne _ _ hq
    · rw [hclients]
      exact Table.mem_modify.mpr (AList.lookup_isSome.mp (hl ▸ rfl))

theorem stepMoves_of_kick {s : ServerRuntime} {i : Env × Input} {cmdLine : Bytes} (hi : i.2 = .admin cmdLine) {p : PeerId}
    (ht : kickTarget s.ready cmdLine = some p) : stepMoves s i = [.leave p false] := by
  rw [stepMoves, hi, moves]
  simp only [ht, Option.toList_some, List.map_cons, List.map_nil]

theorem departs_lastKicked {s : ServerRuntime} (hw : WellFormed s) {i : Env × Input} (hk : ¬ KicksAmongOthers s i) {cmdLine : Bytes}
    (hi : i.2 = .admin cmdLine) {p : PeerId} (ht : kickTarget s.ready cmdLine = some p) : Departs s.ready (s.step i) := by
  have hleave : .leave p false ∈ stepMoves s i := by
    rw [stepMoves_of_kick hi ht]
    exact List.mem_singleton.mpr rfl
  have hnobody : ∀ q other, (s.step i).clients.lookup q ≠ some other := by
    intro q other hq
    have hr := not_renewed_of_leave hleave q
    obtain ⟨e, he, -⟩ := conn_of_not_renewed hw hr (liveOf_some hq)
    obtain ⟨c, hl, -⟩ := liveOf_eq_some.mp he
    refine hk ⟨cmdLine, p, q, hi, ht, AList.lookup_isSome.mp (hl ▸ rfl), ?_⟩
    rintro rfl
    have hgone := (step_simulates hw i).steps.left hleave hr
    cases (liveOf_some hq).symm.trans hgone
  exact ⟨fun q other hq => absurd hq (hnobody q other), fun _ _ _ q other hq => absurd hq (hnobody q other), fun _ hm => by cases hm⟩

/-- A step in which a client departs announces it, unless it is kicked among others. -/
theorem departs_step {s : ServerRuntime} (hw : WellFormed s) {i : Env × Input} (hk : ¬ KicksAmongOthers s i) {p : PeerId}
    (hp : p ∈ s.clients) (hout : p ∉ (s.step i).clients) : Departs s.ready (s.step i) := by
  obtain ⟨keep, hm⟩ := leave_of_gone hw hp hout
  cases cause_of_mem hm with
  | bye _ ev t client header hs hopen => exact departs_bye hw hs hopen
  | closed _ ev t hi hkind hc => exact departs_closed hw hi hkind hc
  | expired _ t hi =>
    rw [ServerRuntime.step, hi]
    exact departs_removals i.1 (s := s.ready) hw.keyed (expiredIds s.ready t)
  | kicked _ cmdLine hi ht => exact departs_lastKicked hw hk hi ht

def Room (s : ServerRuntime) (j : QueuedInput) : Prop := ∀ k, k < (s.step j.1).outbound.length → j.2 k = true

theorem admitted_of_room {room : ℕ → Bool} {cmds : List OutboundCmd} (h : ∀ k, k < cmds.length → room k = true) :
    admitted room cmds = cmds := by
  induction cmds generalizing room with
  | nil => rfl
  | cons cmd cmds ih =>
    rw [admitted, if_pos (h 0 (Nat.succ_pos _)), ih fun k hk => h (k + 1) (Nat.succ_lt_succ hk)]
    rfl

/-- The host after a departure is live, or there is nobody left. -/
theorem host_after {s : ServerRuntime} (hw : WellFormed s) :
    (s.clients = ∅ ∧ s.world.hostPeerId = 0) ∨ s.world.hostPeerId ∈ s.clients := by
  by_cases hlive : ∃ p e, s.sessions.live p = some e
  · obtain ⟨p, e, he⟩ := hlive
    right
    by_contra hout
    exact hw.ok.host_live he (liveOf_eq_none.mpr (AList.lookup_eq_none.mpr hout))
  · push Not at hlive
    have hnone : ∀ p, s.sessions.live p = none := fun p => Option.eq_none_iff_forall_ne_some.mpr (hlive p)
    refine .inl ⟨AList.ext (List.eq_nil_iff_forall_not_mem.mpr fun e hm => ?_), hw.ok.host_idle hnone⟩
    have hl : s.clients.lookup e.1 = some e.2 := Table.mem_entries.mp hm
    cases (liveOf_some hl).symm.trans (hnone e.1)

theorem Departs.announced {s : ServerRuntime} (hw : WellFormed s) {used : List ConnId} (ho : Owned used s.sessions) (h0 : 0 ∉ used)
    {j : QueuedInput} (hroom : Room s j) (h : Departs s.ready (s.step j.1)) {p : PeerId} (hp : p ∈ s.clients)
    (hout : p ∉ (s.step j.1).clients) : Announced s j p where
  byes q other hq := by
    have hlive : s.clients.lookup q = some other := h.records q other hq
    have hconn : other.connId ≠ 0 := fun hc => h0 (hc ▸ ho.live_used (show s.sessions.live q = _ from liveOf_some hlive))
    rw [queued, admitted_of_room hroom]
    exact h.byes p hp hout q other hq hconn
  address a ha := by
    obtain ⟨e, he, -⟩ := (hw.step j.1).ok.udp_sound (show (s.step j.1).sessions.udp a = some p from ha)
    obtain ⟨c, hl, -⟩ := liveOf_eq_some.mp he
    exact hout (AList.lookup_isSome.mp (hl ▸ rfl))
  host _ := host_after (hw.step j.1)
  records := h.records

theorem kick_outbound {s : ServerRuntime} {i : Env × Input} {cmdLine : Bytes} (hi : i.2 = .admin cmdLine) {p : PeerId}
    (ht : kickTarget s.ready cmdLine = some p) : ∃ client, s.clients.lookup p = some client ∧
      (s.step i).outbound = sendTcp client (makeBye client.peerId).encode ++ closeConn client.connId := by
  unfold kickTarget at ht
  split at ht
  · rename_i word arg rest hw
    split at ht
    · rename_i hkick
      obtain ⟨⟨id, client⟩, hf, hid⟩ := Option.map_eq_some_iff.mp ht
      obtain rfl : id = p := hid
      have hl : s.clients.lookup id = some client := Table.mem_entries.mp (List.mem_of_find?_eq_some hf)
      refine ⟨client, hl, ?_⟩
      have hr : s.step i = adminKick s.ready arg ((rest.head?.map lowerCopy) == some (ascii "ban")) := by
        rw [ServerRuntime.step, hi, handle, runAdminCommand, hw]
        exact if_pos hkick
      rw [hr, adminKick, hf]
      dsimp only
      obtain ⟨dirty, he⟩ := kickClient_eq (s := s.ready) hl ((rest.head?.map lowerCopy) == some (ascii "ban"))
      rw [he]
      exact List.nil_append _
    · cases ht
  · cases ht

theorem not_announcesAll_kick {s : ServerRuntime} (hw : WellFormed s) {j : QueuedInput} (hroom : Room s j)
    (hk : KicksAmongOthers s j.1) : ¬ AnnouncesAll s j := by
  obtain ⟨cmdLine, p, q, hi, ht, hq, hne⟩ := hk
  obtain ⟨client, hl, hsent⟩ := kick_outbound hi ht
  have hmoves : stepMoves s j.1 = [.leave p false] := stepMoves_of_kick hi ht
  have hleave : .leave p false ∈ stepMoves s j.1 := hmoves ▸ List.mem_singleton.mpr rfl
  have hstays : ∀ keep, .leave q keep ∉ stepMoves s j.1 := by
    intro keep hm
    rw [hmoves, List.mem_singleton] at hm
    cases hm
    exact hne rfl
  have hgone : p ∉ (s.step j.1).clients := by
    have hnone := (step_simulates hw j.1).steps.left hleave (not_renewed_of_leave hleave p)
    exact AList.lookup_eq_none.mp (liveOf_eq_none.mp hnone)
  obtain ⟨before, hbefore⟩ := Option.isSome_iff_exists.mp (AList.lookup_isSome.mpr hq)
  obtain ⟨e, he, -⟩ := (step_simulates hw j.1).steps.kept (not_renewed_of_leave hleave q) hstays (liveOf_some hbefore)
  obtain ⟨other, hother, -⟩ := liveOf_eq_some.mp he
  intro h
  have hbye := (h p (AList.lookup_isSome.mp (hl ▸ rfl)) hgone).byes q other hother
  rw [queued, admitted_of_room hroom, hsent] at hbye
  rcases List.mem_append.mp hbye with hm | hm
  · have hid : other.peerId = client.peerId := congrArg OutboundCmd.peerId (mem_sendTcp hm)
    exact hne (((hw.step j.1).keyed q other hother).symm.trans (hid.trans (hw.keyed p client hl)))
  · obtain ⟨-, he⟩ := closeConn_kind hm
    cases congrArg OutboundCmd.kind he

/-- When the queue takes its pushes, a step announces its departures exactly if it kicks nobody among others. -/
theorem announcesAll_iff {s : ServerRuntime} (hw : WellFormed s) {used : List ConnId} (ho : Owned used s.sessions) (h0 : 0 ∉ used)
    {j : QueuedInput} (hroom : Room s j) : AnnouncesAll s j ↔ ¬ KicksAmongOthers s j.1 :=
  ⟨fun h hk => not_announcesAll_kick hw hroom hk h, fun hk _ hp hout =>
    (departs_step hw hk hp hout).announced hw ho h0 hroom hp hout⟩

end ServerRuntime
end CommonwealthMP
