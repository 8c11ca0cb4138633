import CommonwealthMP.SessionInvariant

/-! # The address table and the bindings

`udpPeerByAddr` is meant to be the inverse of the bindings the clients hold. It is, in the
runs where no client binds from the address another live client is bound to. -/
namespace CommonwealthMP
open ByteLayout Binary32 OrderedTables SessionTable
namespace ServerRuntime

def BoundAt (s : ServerRuntime) (p : PeerId) (a : Bytes) : Prop :=
  ∃ c, s.clients.lookup p = some c ∧ c.udpBound = true ∧ addrKey c.udpAddr = a

structure AddressTable (s : ServerRuntime) : Prop where
  inverse : ∀ a p, s.udpPeerByAddr.lookup a = some p ↔ BoundAt s p a
  address_unique : ∀ a p q, BoundAt s p a → BoundAt s q a → p = q
  attributed : ∀ p c, s.clients.lookup p = some c → c.udpBound = true → findByUdp s c.udpAddr = (some p, s)
  unbind_keeps : ∀ p q a, q ≠ p → BoundAt s q a → (s.unbindUdp p).udpPeerByAddr.lookup a = some q
  remove_keeps : ∀ env keepTcp p q a, q ≠ p → BoundAt s q a →
    (removeClient env s p keepTcp).udpPeerByAddr.lookup a = some q
  kick_keeps : ∀ doBan p client q a, s.clients.lookup p = some client → q ≠ p → BoundAt s q a →
    (kickClient s p client doBan).udpPeerByAddr.lookup a = some q

/-- The step is a UdpBind, accepted for one client, from the address another live client is bound to. -/
def TakesAddress (s : ServerRuntime) (i : Env × Input) : Prop :=
  ∃ ev t p q, i.2 = .inbound ev t ∧ ev.kind = .UdpDatagram ∧ acceptedBind s.ready ev.bytes = some p ∧ q ≠ p ∧
    BoundAt s q (addrKey ev.addr)

theorem endpointOf_udp {c : Client} {a : Bytes} :
    (endpointOf c).udp = some a ↔ c.udpBound = true ∧ addrKey c.udpAddr = a := by
  unfold endpointOf
  by_cases hb : c.udpBound <;> simp [hb]

theorem boundAt_iff {s : ServerRuntime} {p : PeerId} {a : Bytes} :
    BoundAt s p a ↔ ∃ e, s.sessions.live p = some e ∧ e.udp = some a := by
  constructor
  · rintro ⟨c, hl, hb⟩
    exact ⟨endpointOf c, liveOf_some hl, endpointOf_udp.mpr hb⟩
  · rintro ⟨e, he, ha⟩
    obtain ⟨c, hl, rfl⟩ := liveOf_eq_some.mp he
    exact ⟨c, hl, endpointOf_udp.mp ha⟩

theorem AddressTable.sessions_inverse {s : ServerRuntime} (h : AddressTable s) : Inverse s.sessions :=
  fun a p => (h.inverse a p).trans boundAt_iff

theorem lookup_forgetAddr_of_ne {s : ServerRuntime} (h : Inverse s.sessions) {p q : PeerId} {client : Client} {a : Bytes}
    (hl : s.clients.lookup p = some client) (hne : q ≠ p) (hq : BoundAt s q a) :
    (forgetAddr s.udpPeerByAddr client).lookup a = some q := by
  obtain ⟨e, he, ha⟩ := boundAt_iff.mp hq
  have hforget := h.forget (liveOf_some hl) hne he ha
  rw [show s.sessions.udp = fun a => s.udpPeerByAddr.lookup a from rfl, ← lookup_forgetAddr] at hforget
  exact hforget

theorem addressTable_of_inverse {s : ServerRuntime} (hw : WellFormed s) (h : Inverse s.sessions) : AddressTable s := by
  have hlookup : ∀ {q a}, BoundAt s q a → s.udpPeerByAddr.lookup a = some q := fun hq =>
    (h _ _).mpr (boundAt_iff.mp hq)
  constructor
  · exact fun a p => (h a p).trans boundAt_iff.symm
  · intro a p q hp hq
    exact Option.some.inj ((hlookup hp).symm.trans (hlookup hq))
  · intro p c hl hb
    rw [findByUdp_of_ok hw.ok, hlookup ⟨c, hl, hb, rfl⟩]
  · intro p q a hne hq
    cases hl : s.clients.lookup p with
    | none =>
      rw [unbindUdp, hl]
      exact hlookup hq
    | some client =>
      rw [unbindUdp_eq hl]
      exact lookup_forgetAddr_of_ne h hl hne hq
  · intro env keepTcp p q a hne hq
    cases hl : s.clients.lookup p with
    | none =>
      rw [removeClient_of_absent env hl]
      exact hlookup hq
    | some client =>
      obtain ⟨persist, he⟩ := removeClient_eq env hl keepTcp
      rw [he]
      exact lookup_forgetAddr_of_ne h hl hne hq
  · intro doBan p client q a hl hne hq
    obtain ⟨dirty, he⟩ := kickClient_eq hl doBan
    rw [he]
    exact lookup_forgetAddr_of_ne h hl hne hq

theorem stepMoves_bind {s : ServerRuntime} {i : Env × Input} {p : PeerId} {a : Bytes}
    (h : SessionTable.Move.bind p a ∈ stepMoves s i) :
    stepMoves s i = [.bind p a] ∧ ∃ ev t, i.2 = .inbound ev t ∧ ev.kind = .UdpDatagram ∧
      acceptedBind s.ready ev.bytes = some p ∧ addrKey ev.addr = a := by
  cases cause_of_mem h with
  | bind _ ev t hi hk ha =>
    refine ⟨?_, ev, t, hi, hk, ha, rfl⟩
    rw [stepMoves, hi, moves]
    simp only [hk, ha, Option.toList_some, List.map_cons, List.map_nil]

/-- One step: the table stays the inverse exactly when the step takes no address. -/
theorem step_inverse_iff {s : ServerRuntime} (hw : WellFormed s) (h : Inverse s.sessions) (i : Env × Input) :
    Inverse (s.step i).sessions ↔ ¬ TakesAddress s i := by
  have hsteps := (step_simulates hw i).steps
  by_cases hbind : ∃ p a, SessionTable.Move.bind p a ∈ stepMoves s i
  · obtain ⟨p, a, hm⟩ := hbind
    obtain ⟨hms, ev, t, hi, hk, ha, rfl⟩ := stepMoves_bind hm
    rw [hms] at hsteps
    have hstep := Steps.single_iff.mp hsteps
    have htakes : TakesAddress s i ↔ Takes s.sessions (.bind p (addrKey ev.addr)) := by
      constructor
      · rintro ⟨ev', t', p', q, hi', -, ha', hne, hq⟩
        rw [hi, Input.inbound.injEq] at hi'
        obtain ⟨rfl, -⟩ := hi'
        rw [ha, Option.some.injEq] at ha'
        subst ha'
        obtain ⟨e, he, hae⟩ := boundAt_iff.mp hq
        exact ⟨q, e, hne, he, hae⟩
      · rintro ⟨q, e, hne, he, hae⟩
        exact ⟨ev, t, p, q, hi, hk, ha, hne, boundAt_iff.mpr ⟨e, he, hae⟩⟩
    rw [htakes]
    exact ⟨fun h' ht => hstep.not_inverse ht h', fun ht => hstep.inverse hw.ok h ht⟩
  · push Not at hbind
    have hnot : ¬ TakesAddress s i := by
      rintro ⟨ev, t, p, q, hi, hk, ha, -, -⟩
      refine hbind p (addrKey ev.addr) ?_
      rw [stepMoves, hi, moves]
      simp [hk, ha]
    refine iff_of_true ?_ hnot
    have hI := hsteps.invariant (I := fun S => Ok S ∧ Inverse S) ?_ ⟨hw.ok, h⟩
    · exact hI.2
    · intro S m S' hm hS hstep
      refine ⟨hstep.ok hS.1, hstep.inverse hS.1 hS.2 ?_⟩
      cases m with
      | bind p a => exact absurd hm (hbind p a)
      | _ => exact not_false

theorem inverse_initial (b : Startup) : Inverse b.runtime.sessions := by
  intro a p
  simp [sessions, liveOf, Startup.runtime, initial]

/-- In every state a run passes through the table is the inverse of the bindings, exactly when
no step of the run takes the address of another client. -/
theorem addressTable_iff (b : Startup) (is : List (Env × Input)) :
    (∀ before, before <+: is → AddressTable (runFrom b before)) ↔
      StepRuns.AllSteps step (fun s i => ¬ TakesAddress s i) b.runtime is := by
  constructor
  · intro h
    refine StepRuns.allSteps_iff_split.mpr fun before i after he => ?_
    have hbefore := h before ⟨i :: after, he.symm⟩
    have hafter := h (before ++ [i]) ⟨after, by rw [he, List.append_assoc, List.singleton_append]⟩
    rw [runFrom_concat] at hafter
    exact (step_inverse_iff (runFrom_reachable b before).wellFormed hbefore.sessions_inverse i).mp hafter.sessions_inverse
  · rintro h before ⟨after, rfl⟩
    have hw := (runFrom_reachable b before).wellFormed
    have hI := StepRuns.run_invariant (I := fun s => WellFormed s ∧ Inverse s.sessions)
      (fun s i hs hi => ⟨hs.1.step i, (step_inverse_iff hs.1 hs.2 i).mpr hi⟩)
      ⟨wellFormed_initial b, inverse_initial b⟩ ((StepRuns.allSteps_append before after).mp h).1
    exact addressTable_of_inverse hw hI.2

/-- Both players bind from one address. -/
def sharedAddress : List (Env × Input) :=
  twoJoins ++ [datagramAt ⟨10, 0, 0, 1, 2000⟩ (makeUdpBind 1 1079734124).encode,
    datagramAt ⟨10, 0, 0, 1, 2000⟩ (makeUdpBind 2 3506742235).encode]

/-- Then both are bound to it, but its datagrams are the second player's only. -/
theorem not_addressTable_sharedAddress :
    ¬ ∀ b is, FreshAccepts is → (joinsOf b is).length < 2 ^ 32 - 1 → AddressTable (runFrom b is) := by
  intro h
  have ht := h freshStart sharedAddress (by unfold FreshAccepts; decide) (by decide +kernel)
  have hat : ∀ p, ((runFrom freshStart sharedAddress).clients.lookup p).map (fun c => (c.udpBound, addrKey c.udpAddr)) =
      some (true, addrKey ⟨10, 0, 0, 1, 2000⟩) →
      BoundAt (runFrom freshStart sharedAddress) p (addrKey ⟨10, 0, 0, 1, 2000⟩) := by
    intro p hp
    obtain ⟨c, hl, hc⟩ := Option.map_eq_some_iff.mp hp
    exact ⟨c, hl, congrArg Prod.fst hc, congrArg Prod.snd hc⟩
  have h₁ := hat 1 (by decide +kernel)
  have h₂ := hat 2 (by decide +kernel)
  have := ht.address_unique _ 1 2 h₁ h₂
  exact absurd this (by decide)

end ServerRuntime
end CommonwealthMP
