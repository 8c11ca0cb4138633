import CommonwealthMP.ClientFields

/-! # When a client was heard

The server stamps a client with the time of each message it takes as the client's own, and
`expire_clients` goes by the stamp. -/
namespace CommonwealthMP
open ByteLayout OrderedTables SessionTable StepRuns
namespace ServerRuntime

theorem lasting_lastSeen : Lasting Client.lastSeen where
  conn _ _ := rfl
  unbound c := by
    unfold Client.unbound
    split <;> rfl
  token _ _ := rfl
  blob c type blob := by
    unfold Client.storeBlob
    split <;> rfl

def PendingExit.entered : PendingExit → Option PeerId
  | .reconnected id => some id
  | .joined id true => some id
  | _ => none

def datagramPeer (s : ServerRuntime) (buf : Bytes) (from_ : SockAddr) : Option PeerId :=
  match openFrame buf with
  | none => none
  | some (_, type) =>
    if !msgIsUdp type then none
    else if type = .UdpBind ∧ sizeofUdpBind ≤ buf.length then acceptedBind s buf
    else s.udpPeerByAddr.lookup (addrKey from_)

theorem datagramPeer_none {s : ServerRuntime} {buf : Bytes} (ho : openFrame buf = none) (from_ : SockAddr) :
    datagramPeer s buf from_ = none := by rw [datagramPeer, ho]

theorem datagramPeer_some {s : ServerRuntime} {buf : Bytes} {header : Header} {type : Msg}
    (ho : openFrame buf = some (header, type)) (from_ : SockAddr) :
    datagramPeer s buf from_ = if !msgIsUdp type then none
      else if type = .UdpBind ∧ sizeofUdpBind ≤ buf.length then acceptedBind s buf
      else s.udpPeerByAddr.lookup (addrKey from_) := by rw [datagramPeer, ho]

def speaker (env : Env) (s : ServerRuntime) (ev : InboundEvent) (t : Time) : Option PeerId :=
  match ev.kind with
  | .TcpFrame =>
    match frameTarget s ev with
    | .client p _ => if opens msgIsTcp ev.bytes then some p else none
    | .pending pending => (handlePendingMessage env s pending ev.bytes t).exit.entered
    | .nobody => none
  | .UdpDatagram => datagramPeer s ev.bytes ev.addr
  | _ => none

/-- A step hears `p` at the time `u`. -/
def HearsOf (s : ServerRuntime) (i : Env × Input) (p : PeerId) (u : Time) : Prop :=
  ∃ ev, i.2 = .inbound ev u ∧ speaker i.1 s.ready ev u = some p

/-- After a step a client has the stamp it had, unless the step hears it. -/
structure Stamps (s : ServerRuntime) (i : Env × Input) (p : PeerId) (c' : Client) : Prop where
  heard : ∀ u, HearsOf s i p u → c'.lastSeen = u
  unheard : (∀ u, ¬ HearsOf s i p u) → ∃ c, s.clients.lookup p = some c ∧ c'.lastSeen = c.lastSeen

def StampCase (s : ServerRuntime) (i : Env × Input) (s' : ServerRuntime) : Prop :=
  ∀ p c', s'.clients.lookup p = some c' → Stamps s i p c'

variable {s s' : ServerRuntime} {i : Env × Input} {ev : InboundEvent} {t : Time}

theorem not_hearsOf (hi : ∀ ev t, i.2 = .inbound ev t → speaker i.1 s.ready ev t = none) (p : PeerId) (u : Time) : ¬ HearsOf s i p u := by
  rintro ⟨ev, he, hp⟩
  rw [hi ev u he] at hp
  cases hp

theorem stampCase_unheard (hi : ∀ ev t, i.2 = .inbound ev t → speaker i.1 s.ready ev t = none)
    (h : Retains Client.lastSeen s.ready s') : StampCase s i s' := by
  intro p c' hc
  exact ⟨fun u hu => absurd hu (not_hearsOf hi p u), fun _ => h p c' hc⟩

theorem stampCase_heard {id : PeerId} (hi : i.2 = .inbound ev t) (hs : speaker i.1 s.ready ev t = some id)
    (hid : ∀ c', s'.clients.lookup id = some c' → c'.lastSeen = t)
    (h : ∀ q c', q ≠ id → s'.clients.lookup q = some c' → ∃ c, s.clients.lookup q = some c ∧ c'.lastSeen = c.lastSeen) :
    StampCase s i s' := by
  have heard {p : PeerId} {u : Time} (hu : HearsOf s i p u) : p = id ∧ u = t := by
    obtain ⟨ev', he, hp⟩ := hu
    cases hi.symm.trans he
    exact ⟨Option.some.inj (hp.symm.trans hs), rfl⟩
  intro p c' hc
  refine ⟨fun u hu => ?_, fun hn => h p c' (fun he => hn t ⟨ev, hi, he ▸ hs⟩) hc⟩
  obtain ⟨rfl, rfl⟩ := heard hu
  exact hid c' hc

theorem stampCase_seen {id : PeerId} (hi : i.2 = .inbound ev t) (hs : speaker i.1 s.ready ev t = some id)
    (h : Retains Client.lastSeen (s.ready.seen id t) s') : StampCase s i s' := by
  refine stampCase_heard hi hs (fun c' hc => ?_) fun q c' hq hc => ?_
  · obtain ⟨c, hl, he⟩ := h id c' hc
    rw [seen, Table.lookup_modify, if_pos rfl] at hl
    obtain ⟨c₀, -, rfl⟩ := Option.map_eq_some_iff.mp hl
    exact he
  · obtain ⟨c, hl, he⟩ := h q c' hc
    rw [seen, Table.lookup_modify, if_neg hq] at hl
    exact ⟨c, hl, he⟩

theorem stampCase_datagram (hw : WellFormed s) (hi : i.2 = .inbound ev t) (hev : ev.kind = .UdpDatagram) :
    StampCase s i (handleUdpPacket s.ready ev.bytes ev.addr t) := by
  have hspeaker : speaker i.1 s.ready ev t = datagramPeer s.ready ev.bytes ev.addr := by
    unfold speaker
    rw [hev]
  have unheard {s' : ServerRuntime} (hn : datagramPeer s.ready ev.bytes ev.addr = none) (h : s'.clients = s.clients) :
      StampCase s i s' := by
    refine stampCase_unheard (fun ev' t' he => ?_) (.of_eq h)
    cases hi.symm.trans he
    exact hspeaker.trans hn
  unfold handleUdpPacket
  cases ho : openFrame ev.bytes with
  | none => exact unheard (datagramPeer_none ho _) rfl
  | some frame =>
    obtain ⟨header, type⟩ := frame
    dsimp only
    by_cases hudp : (!msgIsUdp type) = true
    · rw [if_pos hudp]
      exact unheard (by rw [datagramPeer_some ho, if_pos hudp]) rfl
    rw [if_neg hudp]
    by_cases hbind : type = .UdpBind ∧ sizeofUdpBind ≤ ev.bytes.length
    · rw [if_pos hbind]
      have hpeer : datagramPeer s.ready ev.bytes ev.addr = acceptedBind s.ready ev.bytes := by
        rw [datagramPeer_some ho, if_neg hudp, if_pos hbind]
      cases ha : acceptedBind s.ready ev.bytes with
      | none =>
        rw [udpBind_of_none (s := s.ready.countDatagram) (by rw [ho, hbind.1]) hbind.2 ha]
        exact unheard (hpeer.trans ha) rfl
      | some id =>
        obtain ⟨-, -, rfl, client, hl, h0, ht⟩ := acceptedBind_some.mp ha
        rw [udpBind_eq (s := s.ready.countDatagram) hl (by rw [not_or]; exact ⟨h0, not_not.mpr ht⟩)]
        refine stampCase_heard hi (hspeaker.trans (hpeer.trans ha)) (fun c' hc => ?_) fun q c' hq hc => ?_
        · rw [Table.lookup_modify, if_pos rfl] at hc
          obtain ⟨c, -, rfl⟩ := Option.map_eq_some_iff.mp hc
          rfl
        · rw [Table.lookup_modify, if_neg hq] at hc
          exact ⟨c', hc, rfl⟩
    rw [if_neg hbind, findByUdp_of_ok (s := s.ready.countDatagram) hw.ok]
    have hpeer : datagramPeer s.ready ev.bytes ev.addr = s.ready.udpPeerByAddr.lookup (addrKey ev.addr) := by
      rw [datagramPeer_some ho, if_neg hudp, if_neg hbind]
    cases hu : s.ready.udpPeerByAddr.lookup (addrKey ev.addr) with
    | none =>
      rw [show s.ready.countDatagram.udpPeerByAddr.lookup (addrKey ev.addr) = none from hu]
      exact unheard (hpeer.trans hu) rfl
    | some id =>
      rw [show s.ready.countDatagram.udpPeerByAddr.lookup (addrKey ev.addr) = some id from hu]
      obtain ⟨e, he, -⟩ := hw.ok.udp_sound (show s.sessions.udp (addrKey ev.addr) = some id from hu)
      obtain ⟨client, hl, -⟩ := liveOf_eq_some.mp he
      dsimp only
      rw [lookup_seen (s := s.ready.countDatagram) hl t]
      dsimp only
      refine stampCase_seen hi (hspeaker.trans (hpeer.trans hu)) ?_
      split
      · rcases udpPlayerPose_cases (s.ready.countDatagram.seen id t) id { client with lastSeen := t } ev.bytes t with
          ⟨-, he⟩ | ⟨-, _, ⟨-, he⟩ | ⟨-, world, -, he⟩⟩
        · rw [he]
          exact .of_eq rfl
        · rw [he]
          exact .modify rfl fun _ _ => rfl
        · rw [he]
          exact .modify rfl fun _ _ => rfl
      · split
        · rcases udpActorPose_cases (s.ready.countDatagram.seen id t) { client with lastSeen := t } ev.bytes with he | ⟨_, -, he⟩ <;>
            rw [he] <;> exact .of_eq rfl
        · exact .of_eq rfl

theorem stampCase_frame {p : PeerId} {client : Client} (hs : ClientStep s.ready i.2 ev t p client)
    (h : Retains Client.lastSeen (if opens msgIsTcp ev.bytes then s.ready.seen p t else s.ready) s') : StampCase s i s' := by
  have hspeaker : speaker i.1 s.ready ev t = if opens msgIsTcp ev.bytes then some p else none := by
    unfold speaker
    rw [hs.kind, hs.target]
  by_cases ho : opens msgIsTcp ev.bytes = true
  · rw [if_pos ho] at h hspeaker
    exact stampCase_seen hs.input hspeaker h
  · rw [if_neg ho] at h hspeaker
    refine stampCase_unheard (fun ev' t' he => ?_) h
    cases hs.input.symm.trans he
    exact hspeaker

theorem stampCase_admitted {pending : PendingTcp} {header : Header} (hs : PendingStep s.ready i.2 ev t pending)
    (ha : Admitted s.ready pending ev.bytes t header)
    (he : handlePendingMessage i.1 s.ready pending ev.bytes t =
      admitHello i.1 (s.ready.countHello pending t) pending (readHello ev.bytes) t)
    (h : s'.clients = (admitHello i.1 (s.ready.countHello pending t) pending (readHello ev.bytes) t).runtime.clients) :
    StampCase s i s' := by
  have hhost : helloRequiresHost (readHello ev.bytes) = true → (s.ready.countHello pending t).world.hostPeerId ≠ 0 :=
    fun hr => hostGate_hostPeerId (ha.host hr)
  have hspeaker : speaker i.1 s.ready ev t =
      (admitHello i.1 (s.ready.countHello pending t) pending (readHello ev.bytes) t).exit.entered := by
    unfold speaker
    rw [hs.kind, hs.target]
    dsimp only
    rw [he]
  cases hf : findByKey (s.ready.countHello pending t) (helloKey (readHello ev.bytes)) with
  | some e =>
    obtain ⟨id, client⟩ := e
    have hl : (enterRecord (s.ready.countHello pending t) (readHello ev.bytes)).clients.lookup id = some client :=
      (findByKey_some hf).1
    rw [admitHello_reconnect i.1 hf] at h hspeaker
    dsimp only at h
    rw [(completeJoin_clients _ _ _ _).1, softReconnect_eq hl] at h
    refine stampCase_heard hs.input hspeaker (fun c' hc => ?_) fun q c' hq hc => ?_
    · rw [h, Table.lookup_modify, if_pos rfl] at hc
      obtain ⟨c, -, rfl⟩ := Option.map_eq_some_iff.mp hc
      rfl
    · rw [h, Table.lookup_modify, if_neg hq] at hc
      exact ⟨c', hc, rfl⟩
  | none =>
    rw [admitHello_join i.1 hf hhost] at h hspeaker
    dsimp only at h
    rw [(completeJoin_clients _ _ _ _).1] at h
    replace h : s'.clients = s.clients.emplace i.1.placement s.nextPeer (joiningClient
      (enterRecord (s.ready.countHello pending t) (readHello ev.bytes)) pending (readHello ev.bytes)
        (helloRecord (s.ready.countHello pending t) (readHello ev.bytes)) t) := h
    replace hspeaker : speaker i.1 s.ready ev t = (PendingExit.joined s.nextPeer (decide (s.nextPeer ∉ s.clients))).entered :=
      hspeaker
    by_cases hm : s.nextPeer ∈ s.clients
    · have hnone : speaker i.1 s.ready ev t = none := by
        rw [hspeaker, decide_eq_false (not_not.mpr hm)]
        rfl
      rw [Table.emplace_of_mem _ _ hm] at h
      refine stampCase_unheard (fun ev' t' he => ?_) (.of_eq h)
      cases hs.input.symm.trans he
      exact hnone
    · have hsome : speaker i.1 s.ready ev t = some s.nextPeer := by
        rw [hspeaker, decide_eq_true hm]
        rfl
      refine stampCase_heard hs.input hsome (fun c' hc => ?_) fun q c' hq hc => ?_
      · rw [h, Table.lookup_emplace _ _ hm, if_pos rfl] at hc
        cases hc
        rfl
      · rw [h, Table.lookup_emplace _ _ hm, if_neg hq] at hc
        exact ⟨c', hc, rfl⟩

theorem step_stampCase (hw : WellFormed s) (i : Env × Input) : StampCase s i (s.step i) := by
  cases step_retainCase lasting_lastSeen hw i with
  | kept h hframe hdatagram =>
    refine stampCase_unheard (fun ev t he => ?_) h
    have hframe := hframe ev t he
    have hdatagram := hdatagram ev t he
    unfold speaker
    cases hev : ev.kind with
    | TcpAccept => rfl
    | TcpFrame =>
      obtain ⟨hclient, hpending⟩ := hframe hev
      cases ht : frameTarget s.ready ev with
      | client id c => exact absurd ht (hclient id c)
      | pending pending =>
        dsimp only
        rcases (hpending pending ht).exit_eq with he | he | ⟨reason, he⟩ <;> rw [he] <;> rfl
      | nobody => rfl
    | TcpClosed => rfl
    | UdpDatagram => exact absurd hev hdatagram
  | frame ev t p client hs h => exact stampCase_frame hs h
  | datagram ev t hi hev h =>
    rw [h]
    exact stampCase_datagram hw hi hev
  | admitted ev t pending header ps hs ha he h => exact stampCase_admitted hs ha he (by rw [h, he])

/-- Some step of the run hears `p` at the time `u`. -/
def Heard (b : Startup) (is : List (Env × Input)) (p : PeerId) (u : Time) : Prop :=
  SomeStep ServerRuntime.step (fun s i => HearsOf s i p u) b.runtime is

def Input.time : Input → Option Time
  | .inbound _ t => some t
  | _ => none

/-- The times at which the events of a run are applied. -/
def eventTimes (is : List (Env × Input)) : List Time := is.filterMap fun i => i.2.time

variable {b : Startup} {is : List (Env × Input)} {p : PeerId} {u : Time}

theorem HearsOf.time (h : HearsOf s i p u) : i.2.time = some u := by
  obtain ⟨ev, hi, -⟩ := h
  rw [hi]
  rfl

theorem heard_concat : Heard b (is ++ [i]) p u ↔ Heard b is p u ∨ HearsOf (runFrom b is) i p u := by
  unfold Heard
  rw [someStep_append]
  exact or_congr Iff.rfl (or_iff_left id)

theorem Heard.mem_eventTimes (h : Heard b is p u) : u ∈ eventTimes is := by
  obtain ⟨before, i, after, rfl, hi⟩ := someStep_iff_split.mp h
  exact List.mem_filterMap.mpr ⟨i, by simp, hi.time⟩

/-- The stamp of a client is the last time it was heard. -/
theorem stamp_run (hclock : (eventTimes is).Pairwise (· ≤ ·)) {c : Client} (hl : (runFrom b is).clients.lookup p = some c) :
    Heard b is p c.lastSeen ∧ ∀ u, Heard b is p u → u ≤ c.lastSeen := by
  induction is using List.reverseRecOn generalizing c with
  | nil => simp [runFrom, Startup.runtime, initial] at hl
  | append_singleton is i ih =>
    have hw : WellFormed (runFrom b is) := Reachable.wellFormed ⟨b, is, rfl⟩
    rw [runFrom, run_concat] at hl
    have hcase := step_stampCase hw i p c hl
    have htimes : eventTimes (is ++ [i]) = eventTimes is ++ eventTimes [i] := List.filterMap_append
    rw [htimes, List.pairwise_append] at hclock
    obtain ⟨hbefore, -, hlast⟩ := hclock
    by_cases hh : ∃ u, HearsOf (runFrom b is) i p u
    · obtain ⟨u, hu⟩ := hh
      rw [hcase.heard u hu]
      refine ⟨heard_concat.mpr (.inr hu), fun v hv => ?_⟩
      rcases heard_concat.mp hv with hv | hv
      · exact hlast v hv.mem_eventTimes u (by simp [eventTimes, hu.time])
      · exact (Option.some.inj (hv.time.symm.trans hu.time)).le
    · have hnot : ∀ u, ¬ HearsOf (runFrom b is) i p u := fun u hu => hh ⟨u, hu⟩
      obtain ⟨c₀, hl₀, he⟩ := hcase.unheard hnot
      obtain ⟨hheard, hbound⟩ := ih hbefore hl₀
      rw [he]
      exact ⟨heard_concat.mpr (.inl hheard), fun v hv => hbound v ((heard_concat.mp hv).resolve_right (hnot v))⟩

theorem lookup_removals (env : Env) (s : ServerRuntime) (ids : List PeerId) (q : PeerId) :
    (ids.foldl (fun s id => removeClient env s id false) s).clients.lookup q = if q ∈ ids then none else s.clients.lookup q := by
  have one (s : ServerRuntime) (id : PeerId) :
      (removeClient env s id false).clients.lookup q = if q = id then none else s.clients.lookup q := by
    cases h : s.clients.lookup id with
    | none =>
      rw [removeClient_of_absent env h]
      split
      · rename_i hq
        rw [hq, h]
      · rfl
    | some client =>
      obtain ⟨persist, he⟩ := removeClient_eq env h false
      rw [he, Table.lookup_erase]
  induction ids generalizing s with
  | nil => simp
  | cons id ids ih =>
    rw [List.foldl_cons, ih, one]
    by_cases hq : q = id <;> by_cases hm : q ∈ ids <;> simp [hq, hm]

theorem mem_expiredIds {s : ServerRuntime} {t : Time} {p : PeerId} :
    p ∈ expiredIds s t ↔ ∃ c, s.clients.lookup p = some c ∧ kClientTimeoutSec < t - c.lastSeen := by
  simp only [expiredIds, List.mem_map, List.mem_filter, decide_eq_true_eq]
  constructor
  · rintro ⟨⟨q, c⟩, ⟨hm, ht⟩, rfl⟩
    exact ⟨c, Table.mem_entries.mp hm, ht⟩
  · rintro ⟨c, hl, ht⟩
    exact ⟨⟨p, c⟩, ⟨Table.mem_entries.mpr hl, ht⟩, rfl⟩

/-- The timer leaves the clients that were heard in time, as they were. -/
theorem lookup_expireClients (env : Env) {s : ServerRuntime} (t : Time) {p : PeerId} {c : Client} (hl : s.clients.lookup p = some c) :
    (expireClients env s t).clients.lookup p = if kClientTimeoutSec < t - c.lastSeen then none else some c := by
  have hfold : expireClients env s t = (expiredIds s t).foldl (fun s id => removeClient env s id false) s := rfl
  rw [hfold, lookup_removals, hl]
  refine if_congr ⟨fun hm => ?_, fun ht => mem_expiredIds.mpr ⟨c, hl, ht⟩⟩ rfl rfl
  obtain ⟨c', hl', ht⟩ := mem_expiredIds.mp hm
  cases hl.symm.trans hl'
  exact ht

theorem mem_of_mem_expireClients {env : Env} {s : ServerRuntime} {t : Time} {p : PeerId} (h : p ∈ (expireClients env s t).clients) :
    p ∈ s.clients := by
  rw [← AList.lookup_isSome] at h ⊢
  have hfold : expireClients env s t = (expiredIds s t).foldl (fun s id => removeClient env s id false) s := rfl
  rw [hfold, lookup_removals] at h
  split at h
  · cases h
  · exact h

end ServerRuntime
end CommonwealthMP
