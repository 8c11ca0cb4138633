import CommonwealthMP.ConnectionCommands

/-! # Connections and their owners

How the ownership of connections goes with the CloseConns a step queues: a connection that
loses its owner is closed by the same step, unless the step is the report that it is closed
already. -/
namespace CommonwealthMP
open ByteLayout Binary32 OrderedTables SessionTable
namespace ServerRuntime

def closeCmd (c : ConnId) : OutboundCmd := { kind := .CloseConn, connId := c }

theorem closeConn_eq {c : ConnId} (h : c ≠ 0) : closeConn c = [closeCmd c] := if_neg h

/-- From `s` to `s'` no connection gains an owner, and exactly those that lose theirs are closed. -/
structure Releases (s s' : ServerRuntime) : Prop where
  shrinks : ∀ c ∈ ownedConns s', c ∈ ownedConns s
  keeps : ∀ cmd ∈ s.outbound, cmd ∈ s'.outbound
  drops : ∀ c ∈ ownedConns s, c ∉ ownedConns s' → c ≠ 0 → closeCmd c ∈ s'.outbound
  closes : ∀ cmd ∈ s'.outbound, cmd.kind = .CloseConn →
    cmd ∈ s.outbound ∨ (cmd.connId ≠ 0 ∧ cmd.connId ∈ ownedConns s ∧ cmd.connId ∉ ownedConns s')

theorem Releases.refl (s : ServerRuntime) : Releases s s :=
  ⟨fun _ h => h, fun _ h => h, fun _ h h' => absurd h h', fun _ h _ => .inl h⟩

theorem Releases.trans {s s' s'' : ServerRuntime} (h : Releases s s') (h' : Releases s' s'') : Releases s s'' := by
  refine ⟨fun c hc => h.shrinks c (h'.shrinks c hc), fun cmd hm => h'.keeps cmd (h.keeps cmd hm), ?_, ?_⟩
  · intro c hc hout h0
    by_cases hmid : c ∈ ownedConns s'
    · exact h'.drops c hmid hout h0
    · exact h'.keeps _ (h.drops c hc hmid h0)
  · intro cmd hm hk
    rcases h'.closes cmd hm hk with hm | ⟨h0, hin, hout⟩
    · exact (h.closes cmd hm hk).imp_right fun ⟨h0, hin, hout⟩ => ⟨h0, hin, fun hc => hout (h'.shrinks _ hc)⟩
    · exact .inr ⟨h0, h.shrinks _ hin, hout⟩

theorem Releases.of_messages {s s' : ServerRuntime} (hown : ∀ c, c ∈ ownedConns s' ↔ c ∈ ownedConns s) (h : OnlyMessages s s') :
    Releases s s' := by
  obtain ⟨cmds, ho, hm⟩ := h
  refine ⟨fun c hc => (hown c).mp hc, fun cmd hc => ho ▸ List.mem_append_left _ hc, fun c hc hout => ?_, fun cmd hc hk => ?_⟩
  · exact absurd ((hown c).mpr hc) hout
  · rw [ho] at hc
    rcases List.mem_append.mp hc with hc | hc
    · exact .inl hc
    · rcases hm cmd hc with h | h <;> rw [h] at hk <;> cases hk

theorem releases_of_erase {s s' : ServerRuntime} {used : List ConnId} (ho : Owned used s.sessions) {id : PeerId}
    {client : Client} (hl : s.clients.lookup id = some client) (hc : s'.clients = s.clients.erase id)
    (hp : s'.pendingTcp = s.pendingTcp) {l : List OutboundCmd} (hm : ∀ cmd ∈ l, IsMessage cmd)
    (hout : s'.outbound = s.outbound ++ (l ++ closeConn client.connId)) : Releases s s' := by
  have hothers : ∀ {q other}, s.clients.lookup q = some other → q ≠ id → other.connId ∈ ownedConns s' := by
    intro q other hq hne
    exact owned_client (p := q) (by rw [hc, Table.lookup_erase, if_neg hne, hq])
  have hgone : client.connId ∉ ownedConns s' := by
    intro hm
    rcases mem_ownedConns.mp hm with ⟨q, other, hq, hconn⟩ | ⟨p, hq, hconn⟩
    · rw [hc, Table.lookup_erase] at hq
      split at hq
      · cases hq
      · rename_i hne
        exact hne (client_of_owned ho hl hq hconn)
    · exact not_pending_of_owned ho hl (hp ▸ hq) hconn
  constructor
  · intro c hown
    rcases mem_ownedConns.mp hown with ⟨q, other, hq, rfl⟩ | ⟨p, hq, rfl⟩
    · rw [hc, Table.lookup_erase] at hq
      split at hq
      · cases hq
      · exact owned_client hq
    · exact owned_pending (hp ▸ hq)
  · exact fun cmd hcmd => hout ▸ List.mem_append_left _ hcmd
  · intro c hown hnot h0
    rcases mem_ownedConns.mp hown with ⟨q, other, hq, rfl⟩ | ⟨p, hq, rfl⟩
    · by_cases hne : q = id
      · subst hne
        rw [hl] at hq
        cases hq
        rw [hout, closeConn_eq h0]
        exact List.mem_append_right _ (List.mem_append_right _ (List.mem_singleton.mpr rfl))
      · exact absurd (hothers hq hne) hnot
    · exact absurd (owned_pending (hp ▸ hq)) hnot
  · intro cmd hcmd hk
    rw [hout] at hcmd
    rcases List.mem_append.mp hcmd with hcmd | hcmd
    · exact .inl hcmd
    · rcases List.mem_append.mp hcmd with hcmd | hcmd
      · rcases hm cmd hcmd with h | h <;> rw [h] at hk <;> cases hk
      · obtain ⟨h0, rfl⟩ := closeConn_kind hcmd
        exact .inr ⟨h0, owned_client hl, hgone⟩

theorem releases_of_keep (env : Env) {s : ServerRuntime} {id : PeerId} {client : Client} (hl : s.clients.lookup id = some client)
    {keepTcp : Bool} (hkeep : keepTcp = true ∧ client.connId ≠ 0) : Releases s (removeClient env s id keepTcp) := by
  obtain ⟨persist, he⟩ := removeClient_eq env hl keepTcp
  have hpending : (removeClient env s id keepTcp).pendingTcp =
      s.pendingTcp ++ [{ connId := client.connId, addr := client.tcpAddr, connectedAt := env.now }] := by
    rw [he]
    exact if_pos hkeep
  refine ⟨fun c hc => removeClient_owns env s id keepTcp hc, fun cmd hc => he ▸ List.mem_append_left _ hc,
    fun c hc hout _ => absurd ?_ hout, fun cmd hc hk => ?_⟩
  · rcases mem_ownedConns.mp hc with ⟨q, other, hq, rfl⟩ | ⟨p, hp, rfl⟩
    · by_cases hne : q = id
      · subst hne
        rw [hl] at hq
        cases hq
        refine owned_pending (p := { connId := client.connId, addr := client.tcpAddr, connectedAt := env.now }) ?_
        rw [hpending]
        exact List.mem_append_right _ (List.mem_singleton.mpr rfl)
      · refine owned_client (p := q) ?_
        rw [he]
        dsimp only
        rw [Table.lookup_erase, if_neg hne, hq]
    · refine owned_pending ?_
      rw [hpending]
      exact List.mem_append_left _ hp
  · rw [he] at hc
    rcases List.mem_append.mp hc with hc | hc
    · exact .inl hc
    · rcases List.mem_append.mp hc with hc | hc
      · rcases isMessage_toOthers hc fun other cmd hm => isMessage_sendTcp hm with h | h <;> rw [h] at hk <;> cases hk
      · rw [releaseCmds, if_pos hkeep] at hc
        rw [List.mem_singleton.mp hc] at hk
        cases hk

theorem releases_removeClient (env : Env) {s : ServerRuntime} {used : List ConnId} (ho : Owned used s.sessions) (id : PeerId)
    (keepTcp : Bool) : Releases s (removeClient env s id keepTcp) := by
  cases hl : s.clients.lookup id with
  | none =>
    rw [removeClient_of_absent env hl]
    exact .refl s
  | some client =>
    by_cases hkeep : keepTcp = true ∧ client.connId ≠ 0
    · exact releases_of_keep env hl hkeep
    · obtain ⟨persist, he⟩ := removeClient_eq env hl keepTcp
      refine releases_of_erase ho hl (by rw [he]) ?_ (l := byeOthers s.clients id client) ?_ ?_
      · rw [he]
        exact if_neg hkeep
      · exact fun cmd hm => isMessage_toOthers hm fun other cmd hm => isMessage_sendTcp hm
      · rw [he]
        dsimp only
        rw [releaseCmds, if_neg hkeep]

theorem releases_kickClient {s : ServerRuntime} {used : List ConnId} (ho : Owned used s.sessions) {id : PeerId}
    {client : Client} (hl : s.clients.lookup id = some client) (doBan : Bool) : Releases s (kickClient s id client doBan) := by
  obtain ⟨dirty, he⟩ := kickClient_eq hl doBan
  rw [he]
  exact releases_of_erase ho hl rfl rfl (fun cmd hm => isMessage_sendTcp hm) rfl

theorem removeClient_owned (env : Env) {s : ServerRuntime} {used : List ConnId} (hk : Keyed s.clients)
    (ho : Owned used s.sessions) (id : PeerId) (keepTcp : Bool) : Owned used (removeClient env s id keepTcp).sessions :=
  (removeClient_simulates env hk id keepTcp).steps.invariant (I := Owned used) (fun S m S' hm hI h => by
    have := h.owned hI (by rw [List.mem_singleton.mp hm]; exact fun _ h => nomatch h)
    rwa [List.mem_singleton.mp hm, show accepted (SessionTable.Move.leave id keepTcp : Move) = [] from rfl, List.append_nil] at this) ho

theorem releases_removals (env : Env) {s : ServerRuntime} {used : List ConnId} (hk : Keyed s.clients)
    (ho : Owned used s.sessions) (ids : List PeerId) : Releases s (ids.foldl (fun s id => removeClient env s id false) s) := by
  induction ids generalizing s with
  | nil => exact .refl s
  | cons id ids ih =>
    have hnext := ih (removeClient_simulates env hk id false).keyed (removeClient_owned env hk ho id false)
    exact (releases_removeClient env ho id false).trans hnext

theorem Releases.of_quiet {s s' : ServerRuntime} (h : Quiet s s') (hm : OnlyMessages s s') : Releases s s' :=
  .of_messages h.ownedConns hm

theorem ownedConns_of_idle {s s' : ServerRuntime} (h : Steps s.sessions [] s'.sessions) (c : ConnId) :
    c ∈ ownedConns s' ↔ c ∈ ownedConns s := by
  rw [mem_ownedConns_sessions, mem_ownedConns_sessions]
  generalize s'.sessions = S' at h ⊢
  cases h
  rfl

theorem ownedConns_of_touch {s s' : ServerRuntime} {id : PeerId} {m : Move}
    (h : Steps s.sessions [m] s'.sessions) (hm : (∃ token, m = .retoken id token) ∨ ∃ a, m = .bind id a) (c : ConnId) :
    c ∈ ownedConns s' ↔ c ∈ ownedConns s := by
  have touched : ∀ {e e' : Endpoint}, s.sessions.live id = some e → e'.conn = e.conn →
      ((∃ i x, Function.update s.sessions.live id (some e') i = some x ∧ x.conn = c) ↔
        ∃ i x, s.sessions.live i = some x ∧ x.conn = c) := by
    intro e e' he hconn
    constructor
    · rintro ⟨i, x, hx, rfl⟩
      rcases eq_or_ne i id with rfl | hne
      · rw [Function.update_self] at hx
        cases hx
        exact ⟨i, e, he, hconn.symm⟩
      · rw [Function.update_of_ne hne] at hx
        exact ⟨i, x, hx, rfl⟩
    · rintro ⟨i, x, hx, rfl⟩
      rcases eq_or_ne i id with rfl | hne
      · rw [he] at hx
        cases hx
        exact ⟨i, e', Function.update_self .., hconn⟩
      · exact ⟨i, x, (Function.update_of_ne hne ..).trans hx, rfl⟩
  rw [mem_ownedConns_sessions, mem_ownedConns_sessions]
  have hstep := Steps.single_iff.mp h
  generalize s'.sessions = S' at hstep ⊢
  rcases hm with ⟨token, rfl⟩ | ⟨a, rfl⟩
  · cases hstep with
    | retoken _ _ e he => exact or_congr (touched he rfl) Iff.rfl
  · cases hstep with
    | bind _ _ e he => exact or_congr (touched he rfl) Iff.rfl

theorem releases_handleTcpMessage (env : Env) {s : ServerRuntime} (hk : Keyed s.clients) {id : PeerId} {client : Client}
    (hl : s.clients.lookup id = some client) (buf : Bytes) (t : Time) (hb : ∀ header, openFrame buf ≠ some (header, .Bye)) :
    Releases s (handleTcpMessage env s id client buf t) := by
  refine .of_messages (fun c => ?_) ?_
  · have hsteps := (handleTcpMessage_simulates env hk hl buf t hb).1.steps
    unfold clientMoves at hsteps
    cases hopen : openFrame buf with
    | none =>
      rw [hopen, Option.elim_none] at hsteps
      exact ownedConns_of_idle hsteps c
    | some frame =>
      obtain ⟨header, type⟩ := frame
      rw [hopen, Option.elim_some] at hsteps
      cases type with
      | Bye => exact absurd hopen (hb header)
      | Hello =>
        simp only [messageMoves] at hsteps
        split at hsteps
        · exact ownedConns_of_touch hsteps (.inl ⟨_, rfl⟩) c
        · exact ownedConns_of_idle hsteps c
      | _ => exact ownedConns_of_idle hsteps c
  · unfold handleTcpMessage
    cases hopen : openFrame buf with
    | none => exact .of_eq rfl
    | some frame =>
      dsimp only
      split
      · exact .of_eq rfl
      · exact onlyMessages_tcpMessage env frame.2 (s := s.seen id t) (lookup_seen hl t) buf t

theorem releases_handleClientFrame (env : Env) {s : ServerRuntime} {used : List ConnId} (hk : Keyed s.clients)
    (ho : Owned used s.sessions) {id : PeerId} {client : Client} (hl : s.clients.lookup id = some client) (buf : Bytes)
    (t : Time) : Releases s (handleClientFrame env s id client buf t) := by
  unfold handleClientFrame
  dsimp only
  by_cases hb : ∀ header, openFrame buf ≠ some (header, .Bye)
  · have hr := (handleTcpMessage_simulates env (s := { s with removePeers := [], keepTcpPeers := [] }) hk hl buf t hb).2
    have h := releases_handleTcpMessage env (s := { s with removePeers := [], keepTcpPeers := [] }) hk hl buf t hb
    rw [hr]
    exact ⟨h.shrinks, h.keeps, h.drops, h.closes⟩
  · push Not at hb
    obtain ⟨header, hopen⟩ := hb
    rw [handleTcpMessage_bye env _ id client hopen, hk id client hl]
    let s₁ : ServerRuntime := { s.seen id t with removePeers := [id], keepTcpPeers := [id] }
    have hseen : Releases s s₁ := .of_messages (fun c => (quiet_seen s id t).ownedConns c) (.of_eq rfl)
    have hleave := hseen.trans (releases_removeClient env (s := s₁) ((quiet_seen s id t).sessions ▸ ho) id true)
    have hkeep : ([] ++ [id] : List PeerId).contains id = true := by simp
    simp only [List.nil_append, List.foldl_cons, List.foldl_nil] at hkeep ⊢
    rw [hkeep]
    exact ⟨hleave.shrinks, hleave.keeps, hleave.drops, hleave.closes⟩

theorem mem_writePending {c : ConnId} {p q : PendingTcp} (hne : q.connId ≠ c) (h0 : q.connId ≠ 0) {l : List PendingTcp}
    (hq : q ∈ l) : q ∈ (writePending c p l).filter fun q => q.connId ≠ 0 := by
  induction l with
  | nil => cases hq
  | cons r l ih =>
    have keep : ∀ {l' : List PendingTcp}, q ∈ l' → q ∈ l'.filter fun q => q.connId ≠ 0 :=
      fun hm => List.mem_filter.mpr ⟨hm, by simpa using h0⟩
    unfold writePending
    split
    · rename_i hr
      refine keep (List.mem_cons_of_mem _ ?_)
      rcases List.mem_cons.mp hq with rfl | hq
      · exact absurd hr hne
      · exact hq
    · rcases List.mem_cons.mp hq with rfl | hq
      · exact keep List.mem_cons_self
      · have hkept := ih hq
        rw [List.filter_cons]
        split
        · exact List.mem_cons_of_mem _ hkept
        · exact hkept

theorem mem_releasePendingEntry {s : ServerRuntime} {used : List ConnId} (ho : Owned used s.sessions) {pending : PendingTcp}
    {d : ConnId} (h : ∃ q ∈ (releasePendingEntry s pending).pendingTcp, q.connId = d) :
    (∃ q ∈ s.pendingTcp, q.connId = d) ∧ d ≠ pending.connId := by
  have hsub := writePending_sublist pending.connId (p := { pending with connId := 0 }) rfl s.pendingTcp
  obtain ⟨q, hq, rfl⟩ := h
  have hm := hsub.subset (List.mem_map_of_mem (f := (·.connId)) hq)
  refine ⟨?_, fun he => ?_⟩
  · obtain ⟨q', hq', he⟩ := List.mem_map.mp (List.mem_of_mem_erase hm)
    exact ⟨q', hq', he⟩
  · rw [he] at hm
    exact ho.pending_nodup.not_mem_erase hm

/-- Session `p` takes over a pending connection; the one it was on, if any, is closed. -/
theorem releases_admit {s s' : ServerRuntime} {used : List ConnId} (ho : Owned used s.sessions) {pending : PendingTcp}
    (hp : pending ∈ s.pendingTcp) {p : PeerId} {joined : Client} (hconn : joined.connId = pending.connId)
    (hc : ∀ q, s'.clients.lookup q = if q = p then some joined else s.clients.lookup q)
    (hps : s'.pendingTcp = (releasePendingEntry s pending).pendingTcp) {l : List OutboundCmd}
    (hm : ∀ cmd ∈ l, cmd.kind ≠ .CloseConn)
    (hout : s'.outbound = s.outbound ++
      ((s.clients.lookup p).elim [] (fun client => replacedConn client.connId pending.connId) ++ l)) : Releases s s' := by
  have hself : pending.connId ∈ ownedConns s' := hconn ▸ owned_client (p := p) (by rw [hc, if_pos rfl])
  constructor
  · intro c hown
    rcases mem_ownedConns.mp hown with ⟨q, other, hq, rfl⟩ | hq
    · rw [hc] at hq
      split at hq
      · cases hq
        exact hconn ▸ owned_pending hp
      · exact owned_client hq
    · rw [hps] at hq
      exact mem_ownedConns.mpr (.inr (mem_releasePendingEntry ho hq).1)
  · exact fun cmd hcmd => hout ▸ List.mem_append_left _ hcmd
  · intro c hown hnot h0
    have hne : c ≠ pending.connId := fun he => hnot (he ▸ hself)
    rcases mem_ownedConns.mp hown with ⟨q, other, hq, rfl⟩ | hq
    · by_cases hqp : q = p
      · subst hqp
        rw [hout, hq, Option.elim_some, replacedConn, if_pos ⟨h0, hne⟩, closeConn_eq h0]
        exact List.mem_append_right _ (List.mem_append_left _ (List.mem_singleton.mpr rfl))
      · exact absurd (owned_client (p := q) (by rw [hc, if_neg hqp, hq])) hnot
    · refine absurd (mem_ownedConns.mpr (.inr ?_)) hnot
      rw [hps]
      obtain ⟨q, hq, rfl⟩ := hq
      exact ⟨q, mem_writePending hne h0 hq, rfl⟩
  · intro cmd hcmd hk
    rw [hout] at hcmd
    rcases List.mem_append.mp hcmd with hcmd | hcmd
    · exact .inl hcmd
    · rcases List.mem_append.mp hcmd with hcmd | hcmd
      · cases hl : s.clients.lookup p with
        | none =>
          rw [hl] at hcmd
          cases hcmd
        | some client =>
          rw [hl, Option.elim_some, replacedConn] at hcmd
          split at hcmd
          · rename_i hreplaced
            obtain ⟨h0, rfl⟩ := closeConn_kind hcmd
            refine .inr ⟨h0, owned_client hl, fun hown => ?_⟩
            rcases mem_ownedConns.mp hown with ⟨q, other, hq, he⟩ | ⟨r, hr, he⟩
            · rw [hc] at hq
              split at hq
              · cases hq
                exact hreplaced.2 (he.symm.trans hconn)
              · rename_i hqp
                exact hqp (client_of_owned ho hl hq he)
            · rw [hps] at hr
              obtain ⟨⟨r', hr', he'⟩, -⟩ := mem_releasePendingEntry ho ⟨r, hr, rfl⟩
              exact not_pending_of_owned ho hl hr' (he'.trans he)
          · cases hcmd
      · exact absurd hk (hm cmd hcmd)

theorem closeless_bindPeer {c : ConnId} {p : PeerId} {cmd : OutboundCmd} (h : cmd ∈ bindPeer c p) : cmd.kind ≠ .CloseConn := by
  obtain ⟨-, -, rfl⟩ := bindPeer_kind h
  nofun

theorem closeless_welcome {s : ServerRuntime} {joined : Client} {hello : Hello} {rec_ : PlayerRec} {cmd : OutboundCmd}
    (h : cmd ∈ welcomeMessages s joined hello rec_) : cmd.kind ≠ .CloseConn := by
  rcases isMessage_welcomeMessages h with h | h <;> rw [h] <;> nofun

theorem releases_completeJoin {s s₁ : ServerRuntime} {used : List ConnId} (ho : Owned used s.sessions) {pending : PendingTcp}
    (hp : pending ∈ s.pendingTcp) {p b : PeerId} {joined : Client} (hconn : joined.connId = pending.connId)
    (hc : ∀ q, s₁.clients.lookup q = if q = p then some joined else s.clients.lookup q) (hps : s₁.pendingTcp = s.pendingTcp)
    (hout : s₁.outbound = s.outbound ++ ((s.clients.lookup p).elim []
      (fun client => replacedConn client.connId pending.connId) ++ bindPeer pending.connId b)) (hello : Hello)
    (rec_ : PlayerRec) : Releases s (releasePendingEntry (completeJoin s₁ p hello rec_) pending) := by
  obtain ⟨world, dirty, hash, he, -⟩ := completeJoin_eq ((hc p).trans (if_pos rfl)) hello rec_
  refine releases_admit ho hp (p := p) hconn (fun q => ?_) ?_
    (l := bindPeer pending.connId b ++ welcomeMessages (adoptHostWorld s₁ joined hello) joined hello rec_) (fun cmd hm => ?_) ?_
  · rw [releasePendingEntry, he]
    exact hc q
  · simp only [releasePendingEntry, he, hps]
  · rcases List.mem_append.mp hm with hm | hm
    · exact closeless_bindPeer hm
    · exact closeless_welcome hm
  · rw [releasePendingEntry, he]
    dsimp only
    rw [hout]
    simp only [List.append_assoc]

theorem releases_admitHello (env : Env) {s : ServerRuntime} {used : List ConnId} (ho : Owned used s.sessions) {hello : Hello}
    (hhost : helloRequiresHost hello = true → s.world.hostPeerId ≠ 0)
    (hfresh : findByKey s (helloKey hello) = none → s.nextPeer ∉ s.clients) {pending : PendingTcp}
    (hp : pending ∈ s.pendingTcp) (t : Time) :
    Releases s (releasePendingEntry (admitHello env s pending hello t).runtime pending) := by
  cases hf : findByKey s (helloKey hello) with
  | some e =>
    obtain ⟨p, client⟩ := e
    have hl : s.clients.lookup p = some client := (findByKey_some hf).1
    rw [admitHello_reconnect env hf]
    have hs := softReconnect_eq (s := enterRecord s hello) hl pending hello (helloRecord s hello) t
    dsimp only
    generalize softReconnect (enterRecord s hello) p client pending hello (helloRecord s hello) t = s₁ at hs ⊢
    have hlookup : ∀ q, s₁.clients.lookup q = if q = p then some (reconnectedClient pending hello (helloRecord s hello)
        (makeUdpToken s.udpToken) t (Client.unbound client)) else s.clients.lookup q := by
      intro q
      rw [hs]
      dsimp only
      rw [Table.lookup_modify]
      split
      · rename_i hq
        rw [hq, show (enterRecord s hello).clients.lookup p = some client from hl]
        rfl
      · rfl
    refine releases_completeJoin ho hp rfl hlookup (by rw [hs]; rfl) ?_ (b := client.peerId) hello _
    rw [hs, hl]
    rfl
  | none =>
    have hnew := hfresh hf
    rw [admitHello_join env hf hhost]
    have hlookup : ∀ q, ((takeHost (insertJoining env (enterRecord s hello) pending hello (helloRecord s hello) t)
        s.nextPeer).queue (bindPeer pending.connId s.nextPeer)).clients.lookup q = if q = s.nextPeer then
          some (joiningClient (enterRecord s hello) pending hello (helloRecord s hello) t) else s.clients.lookup q :=
      fun q => Table.lookup_emplace env.placement _ hnew q
    refine releases_completeJoin ho hp rfl hlookup rfl ?_ (b := s.nextPeer) hello _
    rw [AList.lookup_eq_none.mpr hnew]
    rfl

/-- The state in which a TcpClosed looks for the client. -/
def withoutPending (s : ServerRuntime) (c : ConnId) : ServerRuntime :=
  { s with pendingTcp := s.pendingTcp.filter fun p => p.connId ≠ c }

theorem owned_withoutPending {s : ServerRuntime} {used : List ConnId} (ho : Owned used s.sessions) (c : ConnId) :
    Owned used (withoutPending s c).sessions := ho.sublist (List.filter_sublist.map _)

theorem mem_withoutPending {s : ServerRuntime} {c d : ConnId} :
    d ∈ ownedConns (withoutPending s c) ↔ (∃ id client, s.clients.lookup id = some client ∧ client.connId = d) ∨
      ((∃ p ∈ s.pendingTcp, p.connId = d) ∧ d ≠ c) := by
  rw [mem_ownedConns]
  refine or_congr Iff.rfl ⟨?_, ?_⟩
  · rintro ⟨p, hp, rfl⟩
    obtain ⟨hp, hne⟩ := List.mem_filter.mp hp
    exact ⟨⟨p, hp, rfl⟩, by simpa using hne⟩
  · rintro ⟨⟨p, hp, rfl⟩, hne⟩
    exact ⟨p, List.mem_filter.mpr ⟨hp, by simpa using hne⟩, rfl⟩

theorem applyInbound_closed (env : Env) (s : ServerRuntime) {ev : InboundEvent} (hev : ev.kind = .TcpClosed) (t : Time) :
    applyInbound env s ev t =
      if ev.peerId ≠ 0 then removeClient env (withoutPending s ev.connId) ev.peerId false
      else
        match findByConn s ev.connId with
        | some ⟨id, client⟩ =>
          removeClient env { withoutPending s ev.connId with
            clients := s.clients.modify id fun c => { c with connId := 0 } } client.peerId false
        | none => withoutPending s ev.connId := by
  simp only [applyInbound, hev]
  rfl

/-- A close that finds the client by its connection removes it and sends no CloseConn. -/
theorem removeClosed_spec (env : Env) {s : ServerRuntime} (hk : Keyed s.clients) {id : PeerId} {client : Client}
    (hl : s.clients.lookup id = some client) {s' : ServerRuntime}
    (h : s' = removeClient env { s with clients := s.clients.modify id fun c => { c with connId := 0 } } client.peerId false) :
    s'.clients = s.clients.erase id ∧ s'.pendingTcp = s.pendingTcp ∧ OnlyMessages s s' := by
  obtain rfl := hk id client hl
  have hl' : (s.clients.modify client.peerId fun c => { c with connId := 0 }).lookup client.peerId =
      some { client with connId := 0 } := by
    simp [hl]
  obtain ⟨persist, he⟩ := removeClient_eq env
    (s := { s with clients := s.clients.modify client.peerId fun c => { c with connId := 0 } }) hl' false
  rw [h, he]
  refine ⟨Table.erase_modify _ _ _, rfl, _, rfl, fun cmd hm => ?_⟩
  rcases List.mem_append.mp hm with hm | hm
  · exact isMessage_toOthers hm fun other cmd hm => isMessage_sendTcp hm
  · cases hm

def closedConn (i : Env × Input) : Option ConnId :=
  match i.2 with
  | .inbound ev _ => if ev.kind = .TcpClosed then some ev.connId else none
  | _ => none

/-- The id a step gives a joining client is not live. -/
def FreshJoin (s : ServerRuntime) (i : Env × Input) : Prop := ∀ p ∈ joins s i, p ∉ s.clients

/-- A step accounts for every connection: what gains an owner was accepted, what loses it is
closed or known to be closed, and a CloseConn is for one that lost it. -/
structure Accounts (s : ServerRuntime) (i : Env × Input) : Prop where
  gains : ∀ c ∈ ownedConns (s.step i), c ∈ ownedConns s ∨ c ∈ acceptedConn i
  drops : ∀ c ∈ ownedConns s, c ∉ ownedConns (s.step i) → c ≠ 0 →
    closeCmd c ∈ (s.step i).outbound ∨ closedConn i = some c
  closes : ∀ cmd ∈ (s.step i).outbound, cmd.kind = .CloseConn →
    cmd.connId ≠ 0 ∧ cmd.connId ∈ ownedConns s ∧ cmd.connId ∉ ownedConns (s.step i)

theorem Releases.accounts {s : ServerRuntime} {i : Env × Input} (h : Releases s.ready (s.step i)) : Accounts s i := by
  refine ⟨fun c hc => .inl (h.shrinks c hc), fun c hc hout h0 => .inl (h.drops c hc hout h0), fun cmd hm hk => ?_⟩
  rcases h.closes cmd hm hk with hm | hc
  · cases hm
  · exact hc

theorem accounts_closed {s : ServerRuntime} (hw : WellFormed s) {used : List ConnId} (ho : Owned used s.sessions) {env : Env}
    {ev : InboundEvent} (hev : ev.kind = .TcpClosed) (t : Time) : Accounts s (env, .inbound ev t) := by
  have hstep : s.step (env, .inbound ev t) = applyInbound env s.ready ev t := rfl
  have hclosed : closedConn (env, .inbound ev t) = some ev.connId := if_pos hev
  have hsub : ∀ {c}, c ∈ ownedConns (withoutPending s.ready ev.connId) → c ∈ ownedConns s := by
    intro c hc
    rw [mem_withoutPending] at hc
    exact mem_ownedConns.mpr (hc.imp_right And.left)
  have hkept : ∀ {c}, c ∈ ownedConns s → c ≠ ev.connId → c ∈ ownedConns (withoutPending s.ready ev.connId) := by
    intro c hc hne
    rw [mem_withoutPending]
    exact (mem_ownedConns.mp hc).imp_right fun h => ⟨h, hne⟩
  rw [applyInbound_closed env s.ready hev] at hstep
  have given : ∀ {s'}, Releases (withoutPending s.ready ev.connId) s' → s.step (env, .inbound ev t) = s' →
      Accounts s (env, .inbound ev t) := by
    rintro s' h rfl
    refine ⟨fun c hc => .inl (hsub (h.shrinks c hc)), fun c hc hout h0 => ?_, fun cmd hm hk => ?_⟩
    · by_cases hne : c = ev.connId
      · exact .inr (hne ▸ hclosed)
      · exact .inl (h.drops c (hkept hc hne) hout h0)
    · rcases h.closes cmd hm hk with hm | ⟨h0, hin, hout⟩
      · cases hm
      · exact ⟨h0, hsub hin, hout⟩
  split at hstep
  · exact given (releases_removeClient env (owned_withoutPending (s := s.ready) ho ev.connId) ev.peerId false) hstep
  · cases hf : findByConn s.ready ev.connId with
    | none =>
      rw [hf] at hstep
      exact given (.refl _) hstep
    | some e =>
      obtain ⟨id, client⟩ := e
      obtain ⟨hl, hc⟩ := findByConn_some hf
      rw [hf] at hstep
      dsimp only at hstep hc
      obtain ⟨hclients, hpending, cmds, hout, hmessages⟩ :=
        removeClosed_spec env (s := withoutPending s.ready ev.connId) hw.keyed hl hstep
      refine ⟨fun c hown => .inl ?_, fun c hown hnot h0 => .inr ?_, fun cmd hm hk => ?_⟩
      · rcases mem_ownedConns.mp hown with ⟨q, other, hq, rfl⟩ | ⟨p, hp, rfl⟩
        · rw [hclients, Table.lookup_erase] at hq
          split at hq
          · cases hq
          · exact owned_client (s := s) hq
        · rw [hpending] at hp
          exact owned_pending (s := s) (List.mem_filter.mp hp).1
      · rw [hclosed]
        by_contra hne
        refine hnot (mem_ownedConns.mpr ?_)
        rw [hclients, hpending]
        rcases mem_ownedConns.mp (hkept hown fun he => hne (he ▸ rfl)) with ⟨q, other, hq, rfl⟩ | hp
        · refine .inl ⟨q, other, ?_, rfl⟩
          rw [Table.lookup_erase, if_neg, hq]
          rintro rfl
          obtain rfl : client = other := Option.some.inj (hl.symm.trans hq)
          exact hne (hc ▸ rfl)
        · exact .inr hp
      · rw [hout] at hm
        rcases List.mem_append.mp hm with hm | hm
        · cases hm
        · rcases hmessages cmd hm with h | h <;> rw [h] at hk <;> cases hk

theorem releases_expirePending {s : ServerRuntime} {used : List ConnId} (ho : Owned used s.sessions) (t : Time) :
    Releases s (expirePending s t) := by
  have same : ∀ {p q : PendingTcp}, p ∈ s.pendingTcp → q ∈ s.pendingTcp → p.connId = q.connId → p = q :=
    fun hp hq he => List.inj_on_of_nodup_map ho.pending_nodup hp hq he
  unfold expirePending
  dsimp only
  constructor
  · intro c hc
    rcases mem_ownedConns.mp hc with ⟨q, other, hq, rfl⟩ | ⟨p, hp, rfl⟩
    · exact owned_client (s := s) hq
    · exact owned_pending (List.mem_filter.mp hp).1
  · exact fun cmd hm => List.mem_append_left _ hm
  · intro c hc hout h0
    rcases mem_ownedConns.mp hc with ⟨q, other, hq, rfl⟩ | ⟨p, hp, rfl⟩
    · exact (hout (mem_ownedConns.mpr (.inl ⟨q, other, hq, rfl⟩))).elim
    · by_cases hexp : decide (kPendingTcpTimeoutSec < t - p.connectedAt) = true
      · refine List.mem_append_right _ (List.mem_flatMap.mpr ⟨p, List.mem_filter.mpr ⟨hp, hexp⟩, ?_⟩)
        rw [closeConn_eq h0]
        exact List.mem_singleton.mpr rfl
      · refine absurd (owned_pending (List.mem_filter.mpr ⟨hp, ?_⟩)) hout
        simpa using hexp
  · intro cmd hm hk
    rcases List.mem_append.mp hm with hm | hm
    · exact .inl hm
    · obtain ⟨p, hp, hm⟩ := List.mem_flatMap.mp hm
      obtain ⟨hp, hexp⟩ := List.mem_filter.mp hp
      obtain ⟨h0, rfl⟩ := closeConn_kind hm
      refine .inr ⟨h0, owned_pending hp, fun hc => ?_⟩
      rcases mem_ownedConns.mp hc with ⟨q, other, hq, he⟩ | ⟨r, hr, he⟩
      · exact not_pending_of_owned ho (s := s) hq hp he.symm
      · obtain ⟨hr, hnot⟩ := List.mem_filter.mp hr
        rw [same hr hp he, hexp] at hnot
        cases hnot

theorem completeJoin_pendingTcp (s : ServerRuntime) (id : PeerId) (hello : Hello) (rec_ : PlayerRec) :
    (completeJoin s id hello rec_).pendingTcp = s.pendingTcp := by
  cases h : s.clients.lookup id with
  | none => rw [completeJoin, h]
  | some joined =>
    obtain ⟨world, dirty, hash, he, -⟩ := completeJoin_eq h hello rec_
    rw [he]

/-- An admitted Hello releases its pending entry. -/
theorem admitHello_released (env : Env) {s : ServerRuntime} {hello : Hello}
    (hhost : helloRequiresHost hello = true → s.world.hostPeerId ≠ 0) (pending : PendingTcp) (t : Time) :
    (admitHello env s pending hello t).pending = { pending with connId := 0 } ∧
      (admitHello env s pending hello t).runtime.pendingTcp = s.pendingTcp := by
  cases hf : findByKey s (helloKey hello) with
  | some e =>
    obtain ⟨p, moved⟩ := e
    have hp : (enterRecord s hello).clients.lookup p = some moved := (findByKey_some hf).1
    rw [admitHello_reconnect env hf]
    exact ⟨rfl, (completeJoin_pendingTcp _ p hello _).trans (by rw [softReconnect_eq hp]; rfl)⟩
  | none =>
    rw [admitHello_join env hf hhost]
    exact ⟨rfl, completeJoin_pendingTcp _ s.nextPeer hello _⟩

theorem accounts_pending {s : ServerRuntime} (hw : WellFormed s) {used : List ConnId} (ho : Owned used s.sessions)
    (h0 : 0 ∉ used) {i : Env × Input} (hfresh : FreshJoin s i) {ev : InboundEvent} {t : Time} {pending : PendingTcp}
    (hs : PendingStep s.ready i.2 ev t pending) : Accounts s i := by
  have hp := (findPending_some (frameTarget_pending hs.target).2).1
  have hx := pendingExit_of hs
  have hstep := step_pending hs
  rcases handlePendingMessage_cases i.1 (s := s.ready) hw.keyed hw.ok pending ev.bytes t with hu | ⟨header, ha, he⟩
  · have hne : pending.connId ≠ 0 := fun hz => h0 (hz ▸ ho.pending_used (List.mem_map_of_mem hp))
    rw [handlePendingFrame] at hstep
    dsimp only at hstep
    rw [hu.pending_eq, if_neg hne] at hstep
    refine Releases.accounts (.of_messages (fun c => ?_) ⟨(s.step i).outbound, rfl, fun cmd hm => ?_⟩)
    · rw [hstep, hu.runtime]
      rfl
    · rw [hstep] at hm
      rcases hu.answers cmd hm with hm | ⟨header, rest, -, rfl⟩
      · cases hm
      · exact .inl rfl
  · have hhost : helloRequiresHost (readHello ev.bytes) = true → (s.ready.countHello pending t).world.hostPeerId ≠ 0 :=
      fun hr => hostGate_hostPeerId (ha.host hr)
    have hrel : Releases (s.ready.countHello pending t)
        (releasePendingEntry (admitHello i.1 (s.ready.countHello pending t) pending (readHello ev.bytes) t).runtime pending) := by
      refine releases_admitHello i.1 (s := s.ready.countHello pending t) ho hhost (fun hf => ?_) hp t
      refine hfresh _ ?_
      rw [joins, hx, he, admitHello_join i.1 hf hhost]
      exact List.mem_singleton.mpr rfl
    rw [handlePendingFrame, he] at hstep
    dsimp only at hstep
    rw [(admitHello_released i.1 hhost pending t).1, if_pos rfl] at hstep
    refine Releases.accounts ?_
    rw [hstep]
    exact ⟨hrel.shrinks, hrel.keeps, hrel.drops, hrel.closes⟩

/-- Every step accounts for the connections. -/
theorem step_accounts {s : ServerRuntime} (hw : WellFormed s) {used : List ConnId} (ho : Owned used s.sessions)
    (h0 : 0 ∉ used) {i : Env × Input} (hfresh : FreshJoin s i) : Accounts s i := by
  obtain ⟨env, i⟩ := i
  cases i with
  | inbound ev t =>
    cases hev : ev.kind with
    | TcpAccept =>
      have hstep : s.step (env, .inbound ev t) = { s.ready with
          pendingTcp := s.pendingTcp ++ [{ connId := ev.connId, addr := ev.addr, connectedAt := t }] } := by
        simp only [ServerRuntime.step, handle, applyInbound, hev]
        rfl
      have haccept : acceptedConn (env, .inbound ev t) = [ev.connId] := if_pos hev
      refine ⟨fun c hc => ?_, fun c hc hout _ => absurd ?_ hout, fun cmd hm => ?_⟩
      · rw [haccept]
        rw [hstep] at hc
        rcases mem_ownedConns.mp hc with ⟨q, other, hq, rfl⟩ | ⟨p, hp, rfl⟩
        · exact .inl (owned_client (s := s) hq)
        · rcases List.mem_append.mp hp with hp | hp
          · exact .inl (owned_pending hp)
          · exact .inr (List.mem_singleton.mpr (List.mem_singleton.mp hp ▸ rfl))
      · rw [hstep]
        rcases mem_ownedConns.mp hc with ⟨q, other, hq, rfl⟩ | ⟨p, hp, rfl⟩
        · exact owned_client hq
        · exact owned_pending (List.mem_append_left _ hp)
      · rw [hstep] at hm
        cases hm
    | TcpFrame =>
      cases ht : frameTarget s.ready ev with
      | client p client =>
        have hs : ClientStep s.ready (Input.inbound ev t) ev t p client := ⟨rfl, hev, ht⟩
        refine Releases.accounts ?_
        rw [step_client (i := (env, .inbound ev t)) hs]
        exact releases_handleClientFrame (s := s.ready) env hw.keyed ho (frameTarget_client ht) ev.bytes t
      | pending pending => exact accounts_pending hw ho h0 hfresh (i := (env, .inbound ev t)) ⟨rfl, hev, ht⟩
      | nobody =>
        have hstep : s.step (env, .inbound ev t) = s.ready := by
          simp only [ServerRuntime.step, handle, applyInbound, hev, ht]
        refine Releases.accounts ?_
        rw [hstep]
        exact .refl _
    | TcpClosed => exact accounts_closed hw ho hev t
    | UdpDatagram =>
      have hstep : s.step (env, .inbound ev t) = handleUdpPacket s.ready ev.bytes ev.addr t := by
        simp only [ServerRuntime.step, handle, applyInbound, hev]
      refine Releases.accounts ?_
      rw [hstep]
      refine .of_messages (fun c => ?_) (onlyMessages_handleUdpPacket (s := s.ready) hw.ok ev.bytes ev.addr t)
      have hsteps := (handleUdpPacket_simulates (s := s.ready) hw.keyed hw.ok ev.bytes ev.addr t).steps
      cases ha : acceptedBind s.ready ev.bytes with
      | none =>
        rw [ha] at hsteps
        exact ownedConns_of_idle hsteps c
      | some id =>
        rw [ha] at hsteps
        exact ownedConns_of_touch hsteps (.inr ⟨_, rfl⟩) c
  | expirePending t => exact Releases.accounts (releases_expirePending (s := s.ready) ho t)
  | expireClients t => exact Releases.accounts (releases_removals (s := s.ready) env hw.keyed ho _)
  | sendHeartbeat =>
    refine Releases.accounts (.of_quiet (quiet_queue s.ready _) ⟨_, rfl, fun cmd hm => ?_⟩)
    obtain ⟨client, -, hm⟩ := List.mem_flatMap.mp hm
    exact isMessage_sendTcp hm
  | flushDirty =>
    refine Releases.accounts (.of_quiet (quiet_flushDirtyAsync s.ready) (.of_eq ?_))
    simp only [ServerRuntime.step, handle, flushDirtyAsync_eq]
  | admin cmdLine =>
    refine Releases.accounts ?_
    have hcase := runAdminCommand_cases env s.ready cmdLine
    change AdminCase s.ready (s.step (env, .admin cmdLine)) at hcase
    generalize s.step (env, .admin cmdLine) = s' at hcase ⊢
    cases hcase with
    | kick id client doBan hl => exact releases_kickClient (s := s.ready) ho hl doBan
    | silent _ hq hout => exact .of_quiet hq (.of_eq hout)
    | broadcast _ data hq hout =>
      refine .of_quiet hq ⟨_, hout, fun cmd hm => ?_⟩
      obtain ⟨client, -, hm⟩ := List.mem_flatMap.mp hm
      exact isMessage_sendTcp hm

end ServerRuntime
end CommonwealthMP
