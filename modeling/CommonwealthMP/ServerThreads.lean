import CommonwealthMP.ConnectionOwners
import CommonwealthMP.NetThread

/-! # The two threads of the server

The simulation thread and the net thread run side by side and share nothing but the inbound
and the outbound queue. A handler runs at once and leaves its pushes in `todo`, the net thread
its own in `events`: each push is a step, so everything the other thread can do in between is
a run. Which socket is ready, what it answers and when, is up to the run. -/
namespace CommonwealthMP
open ByteLayout OrderedTables SessionTable StepRuns

structure Threads where
  sim : ServerRuntime
  /-- The commands the last handler has still to push. -/
  todo : List OutboundCmd := []
  net : NetIo := {}
  /-- The events the net thread has still to push. -/
  events : List InboundEvent := []
  inbound : AsyncQueue InboundEvent := {}
  outbound : AsyncQueue OutboundCmd := {}

inductive Action
  /-- `apply_inbound` on the head of the inbound queue -/
  | consume (env : Env) (t : Time)
  /-- whatever else the main loop calls -/
  | house (env : Env) (i : ServerRuntime.Input)
  | push
  | process (answers : List SendResult)
  | deliver
  | accept (addr : SockAddr)
  | datagram (addr : SockAddr) (bytes : Bytes)
  | readable (connId : ConnId) (data : Bytes)
  | writable (connId : ConnId) (answers : List SendResult)
  | hangUp (connId : ConnId)

namespace Threads

def handleInput (s : Threads) (i : Env × ServerRuntime.Input) : Threads :=
  { s with sim := s.sim.step i, todo := (s.sim.step i).outbound }

def netStep (s : Threads) (r : NetIo × List InboundEvent) : Threads := { s with net := r.1, events := r.2 }

/-- The push of the first event the net thread has to push; a refused frame closes its connection. -/
def deliver (s : Threads) : Threads :=
  match s.events with
  | [] => s
  | ev :: rest =>
    match s.inbound.push ev with
    | some inbound => { s with events := rest, inbound := inbound }
    | none => if ev.kind = .TcpFrame then s.netStep (s.net.closeConn ev.connId true) else { s with events := rest }

def push (s : Threads) : Threads :=
  match s.todo with
  | [] => s
  | cmd :: rest =>
    match s.outbound.push cmd with
    | some outbound => { s with todo := rest, outbound := outbound }
    | none => { s with todo := rest }

/-- A thread takes up something new only when its pushes are made. -/
def step (s : Threads) : Action → Threads
  | .consume env t =>
    match s.todo, s.inbound.tryPop with
    | [], some (ev, inbound) => { s with inbound := inbound }.handleInput (env, .inbound ev t)
    | _, _ => s
  | .house env i =>
    match s.todo with
    | [] =>
      match i with
      | .inbound _ _ => s
      | _ => s.handleInput (env, i)
    | _ => s
  | .push => s.push
  | .process answers =>
    match s.events, s.outbound.tryPop with
    | [], some (cmd, outbound) => { s with outbound := outbound }.netStep (s.net.processOutbound cmd answers)
    | _, _ => s
  | .deliver => s.deliver
  | .accept addr =>
    match s.events with
    | [] => s.netStep (s.net.acceptReady addr)
    | _ => s
  | .datagram addr bytes =>
    match s.events with
    | [] => { s with events := [{ kind := .UdpDatagram, addr := addr, bytes := bytes }] }
    | _ => s
  | .readable connId data =>
    match s.events with
    | [] => s.netStep (s.net.readConn connId data)
    | _ => s
  | .writable connId answers =>
    match s.events with
    | [] => s.netStep (s.net.drainConn connId answers)
    | _ => s
  | .hangUp connId =>
    match s.events with
    | [] => s.netStep (s.net.closeConn connId true)
    | _ => s

/-- The server `main` starts, with queues of the given sizes. -/
def start (b : ServerRuntime.Startup) (inboundMax outboundMax : ℕ) : Threads where
  sim := b.runtime
  inbound := { maxSize := inboundMax }
  outbound := { maxSize := outboundMax }

/-- What the net thread does to a socket of its own accord. -/
inductive NetMove (n : NetIo) : NetIo × List InboundEvent → Prop
  | accept (addr) : NetMove n (n.acceptReady addr)
  | readable (connId data) : NetMove n (n.readConn connId data)
  | writable (connId answers) : NetMove n (n.drainConn connId answers)
  | hangUp (connId) : NetMove n (n.closeConn connId true)

inductive Moves (s : Threads) : Action → Threads → Prop
  | idle (a) : Moves s a s
  | consumed (env t ev inbound) (htodo : s.todo = []) (hin : s.inbound.items = ev :: inbound.items) :
      Moves s (.consume env t) ({ s with inbound := inbound }.handleInput (env, .inbound ev t))
  | housed (env i) (htodo : s.todo = []) (hi : ∀ ev t, i ≠ .inbound ev t) : Moves s (.house env i) (s.handleInput (env, i))
  | pushed (cmd rest outbound) (htodo : s.todo = cmd :: rest) (hp : s.outbound.push cmd = some outbound) :
      Moves s .push { s with todo := rest, outbound := outbound }
  | refused (cmd rest) (htodo : s.todo = cmd :: rest) (hp : s.outbound.push cmd = none) :
      Moves s .push { s with todo := rest }
  | processed (cmd outbound answers) (hev : s.events = []) (hout : s.outbound.items = cmd :: outbound.items) :
      Moves s (.process answers) ({ s with outbound := outbound }.netStep (s.net.processOutbound cmd answers))
  | delivered (ev rest inbound) (hev : s.events = ev :: rest) (hp : s.inbound.push ev = some inbound) :
      Moves s .deliver { s with events := rest, inbound := inbound }
  | dropped (ev rest) (hev : s.events = ev :: rest) (hp : s.inbound.push ev = none) (hk : ev.kind ≠ .TcpFrame) :
      Moves s .deliver { s with events := rest }
  | cut (ev rest) (hev : s.events = ev :: rest) (hp : s.inbound.push ev = none) (hk : ev.kind = .TcpFrame) :
      Moves s .deliver (s.netStep (s.net.closeConn ev.connId true))
  | datagram (addr bytes) (hev : s.events = []) :
      Moves s (.datagram addr bytes) { s with events := [{ kind := .UdpDatagram, addr := addr, bytes := bytes }] }
  | net (a r) (hev : s.events = []) (hr : NetMove s.net r) : Moves s a (s.netStep r)

theorem step_moves (s : Threads) (a : Action) : Moves s a (s.step a) := by
  cases a with
  | consume env t =>
    simp only [step]
    split
    · rename_i ev inbound htodo hpop
      exact .consumed env t ev inbound htodo (AsyncQueue.tryPop_some hpop)
    · exact .idle _
  | house env i =>
    simp only [step]
    split
    · rename_i htodo
      cases i with
      | inbound ev t => exact .idle _
      | _ => exact .housed env _ htodo nofun
    · exact .idle _
  | push =>
    simp only [step, push]
    split
    · exact .idle _
    · rename_i cmd rest htodo
      cases hp : s.outbound.push cmd with
      | some outbound => exact .pushed cmd rest outbound htodo hp
      | none => exact .refused cmd rest htodo hp
  | process answers =>
    simp only [step]
    split
    · rename_i cmd outbound hev hpop
      exact .processed cmd outbound answers hev (AsyncQueue.tryPop_some hpop)
    · exact .idle _
  | deliver =>
    simp only [step, deliver]
    split
    · exact .idle _
    · rename_i ev rest hev
      cases hp : s.inbound.push ev with
      | some inbound => exact .delivered ev rest inbound hev hp
      | none =>
        dsimp only
        split
        · exact .cut ev rest hev hp ‹_›
        · exact .dropped ev rest hev hp ‹_›
  | accept addr =>
    simp only [step]
    split
    · exact .net _ _ ‹_› (.accept addr)
    · exact .idle _
  | datagram addr bytes =>
    simp only [step]
    split
    · exact .datagram addr bytes ‹_›
    · exact .idle _
  | readable connId data =>
    simp only [step]
    split
    · exact .net _ _ ‹_› (.readable connId data)
    · exact .idle _
  | writable connId answers =>
    simp only [step]
    split
    · exact .net _ _ ‹_› (.writable connId answers)
    · exact .idle _
  | hangUp connId =>
    simp only [step]
    split
    · exact .net _ _ ‹_› (.hangUp connId)
    · exact .idle _

/-- Apart from an accepted connection, the net thread opens nothing. -/
theorem NetMove.cases {n : NetIo} {r : NetIo × List InboundEvent} (h : NetMove n r) :
    (∃ addr, r = n.acceptReady addr) ∨ NetIo.Effect n (fun _ => False) (fun _ _ => False) r := by
  cases h with
  | accept addr => exact .inl ⟨addr, rfl⟩
  | readable connId data => exact .inr (NetIo.effect_readConn n connId data)
  | writable connId answers => exact .inr (NetIo.effect_drainConn n connId answers)
  | hangUp connId => exact .inr (NetIo.effect_closeConn n connId nofun)

def acceptIds (evs : List InboundEvent) : List ConnId := (evs.filter fun ev => ev.kind = .TcpAccept).map (·.connId)

@[simp] theorem acceptIds_append (evs evs' : List InboundEvent) : acceptIds (evs ++ evs') = acceptIds evs ++ acceptIds evs' := by
  simp [acceptIds]

theorem mem_acceptIds {evs : List InboundEvent} {c : ConnId} :
    c ∈ acceptIds evs ↔ ∃ ev ∈ evs, ev.kind = .TcpAccept ∧ ev.connId = c := by
  simp [acceptIds, and_assoc]

theorem acceptIds_eq_nil {evs : List InboundEvent} (h : ∀ ev ∈ evs, ev.kind ≠ .TcpAccept) : acceptIds evs = [] := by
  rw [acceptIds, List.map_eq_nil_iff, List.filter_eq_nil_iff]
  exact fun ev hm => by simpa using h ev hm

theorem acceptIds_cons (ev : InboundEvent) (evs : List InboundEvent) :
    acceptIds (ev :: evs) = (if ev.kind = .TcpAccept then [ev.connId] else []) ++ acceptIds evs := by
  by_cases h : ev.kind = .TcpAccept <;> simp [acceptIds, h]

def coming (s : Threads) : List InboundEvent := s.inbound.items ++ s.events

def going (s : Threads) : List OutboundCmd := s.outbound.items ++ s.todo

/-- Connection ids are given out once: `used` are those the simulation has accepted. -/
structure Numbered (used : List ConnId) (s : Threads) : Prop where
  wf : ServerRuntime.WellFormed s.sim
  owned : Owned used s.sim.sessions
  nodup : (used ++ acceptIds s.coming).Nodup
  used_range : ∀ c ∈ used ++ acceptIds s.coming, 0 < c ∧ c < s.net.nextConnId
  conns_range : ∀ c ∈ s.net.conns, c < s.net.nextConnId
  next_pos : 0 < s.net.nextConnId

theorem Numbered.zero_not_mem {used : List ConnId} {s : Threads} (h : Numbered used s) : 0 ∉ used :=
  fun hm => absurd (h.used_range 0 (List.mem_append_left _ hm)).1 (lt_irrefl 0)

theorem numbered_start (b : ServerRuntime.Startup) (inboundMax outboundMax : ℕ) :
    Numbered [] (start b inboundMax outboundMax) where
  wf := ServerRuntime.wellFormed_initial b
  owned := by
    have hf : ServerRuntime.FreshAccepts [] := ⟨List.nodup_nil, List.not_mem_nil⟩
    exact ServerRuntime.run_owned b hf
  nodup := List.nodup_nil
  used_range := nofun
  conns_range c hc := by
    rw [NetIo.mem_conns] at hc
    obtain ⟨conn, hc⟩ := hc
    cases hc
  next_pos := Nat.one_pos

theorem mem_used_of_owned {used : List ConnId} {s : ServerRuntime} (ho : Owned used s.sessions) {c : ConnId}
    (h : c ∈ ServerRuntime.ownedConns s) : c ∈ used := by
  rcases ServerRuntime.mem_ownedConns_sessions.mp h with ⟨i, e, he, rfl⟩ | hp
  · exact ho.live_used he
  · exact ho.pending_used hp

theorem Numbered.of_coming {used : List ConnId} {s s' : Threads} (h : Numbered used s) (hsim : s'.sim = s.sim)
    (hcoming : (acceptIds s'.coming).Sublist (acceptIds s.coming)) (hnext : s'.net.nextConnId = s.net.nextConnId)
    (hconns : ∀ c ∈ s'.net.conns, c ∈ s.net.conns) : Numbered used s' where
  wf := hsim ▸ h.wf
  owned := hsim ▸ h.owned
  nodup := (hcoming.append_left used).nodup h.nodup
  used_range c hc := by
    rw [hnext]
    exact h.used_range c ((hcoming.append_left used).subset hc)
  conns_range c hc := by
    rw [hnext]
    exact h.conns_range c (hconns c hc)
  next_pos := hnext ▸ h.next_pos

theorem Numbered.handle {used : List ConnId} {s : Threads} (h : Numbered used s) (i : Env × ServerRuntime.Input)
    (inbound : AsyncQueue InboundEvent)
    (hin : acceptIds s.inbound.items = ServerRuntime.acceptedConn i ++ acceptIds inbound.items) :
    Numbered (used ++ ServerRuntime.acceptedConn i) ({ s with inbound := inbound }.handleInput i) := by
  have hcoming : used ++ acceptIds s.coming =
      (used ++ ServerRuntime.acceptedConn i) ++ acceptIds (inbound.items ++ s.events) := by
    rw [coming, acceptIds_append, acceptIds_append, hin, List.append_assoc, List.append_assoc]
  have hnodup := hcoming ▸ h.nodup
  have hrange := hcoming ▸ h.used_range
  refine ⟨h.wf.step i, ?_, hnodup, hrange, h.conns_range, h.next_pos⟩
  have hsim := ServerRuntime.step_simulates h.wf i
  rw [← ServerRuntime.accepted_stepMoves s.sim i] at hnodup ⊢
  have hpre := (List.nodup_append.mp hnodup).1
  exact hsim.steps.owned h.owned hpre (List.nodup_append.mp hpre).1

theorem Numbered.effect {used : List ConnId} {s : Threads} (h : Numbered used s) (hev : s.events = [])
    (outbound : AsyncQueue OutboundCmd) {silent : ConnId → Prop} {bound : PeerId → ConnId → Prop}
    {r : NetIo × List InboundEvent} (hr : NetIo.Effect s.net silent bound r) :
    Numbered used ({ s with outbound := outbound }.netStep r) := by
  refine h.of_coming rfl ?_ hr.next hr.kept
  change (acceptIds (s.inbound.items ++ r.2)).Sublist (acceptIds (s.inbound.items ++ s.events))
  rw [hev, acceptIds_append, acceptIds_append, acceptIds_eq_nil hr.no_accept]
  exact List.Sublist.refl _

theorem step_numbered {used : List ConnId} {s : Threads} (h : Numbered used s) (a : Action) :
    ∃ used', Numbered used' (s.step a) := by
  have hm := step_moves s a
  generalize s.step a = s' at hm
  cases hm with
  | idle => exact ⟨used, h⟩
  | consumed env t ev inbound htodo hin =>
    refine ⟨_, h.handle (env, .inbound ev t) inbound ?_⟩
    rw [hin, acceptIds_cons]
    rfl
  | housed env i htodo hi =>
    refine ⟨_, h.handle (env, i) s.inbound ?_⟩
    cases i with
    | inbound ev t => exact absurd rfl (hi ev t)
    | _ => rfl
  | pushed cmd rest outbound htodo hp => exact ⟨used, h.of_coming rfl (List.Sublist.refl _) rfl fun _ hc => hc⟩
  | refused cmd rest htodo hp => exact ⟨used, h.of_coming rfl (List.Sublist.refl _) rfl fun _ hc => hc⟩
  | processed cmd outbound answers hev hout => exact ⟨used, h.effect hev outbound (NetIo.effect_processOutbound s.net cmd answers)⟩
  | delivered ev rest inbound hev hp =>
    refine ⟨used, h.of_coming rfl ?_ rfl fun _ hc => hc⟩
    rw [AsyncQueue.push_some hp, coming, coming, hev]
    simp
  | dropped ev rest hev hp hk =>
    refine ⟨used, h.of_coming rfl ?_ rfl fun _ hc => hc⟩
    rw [coming, coming, hev, acceptIds_append, acceptIds_append, acceptIds_cons]
    exact (List.sublist_append_right _ _).append_left _
  | cut ev rest hev hp hk =>
    have hr : NetIo.Effect s.net (fun _ => False) (fun _ _ => False) (s.net.closeConn ev.connId true) :=
      NetIo.effect_closeConn s.net ev.connId nofun
    refine ⟨used, h.of_coming rfl ?_ hr.next hr.kept⟩
    rw [coming, coming, acceptIds_append, acceptIds_append]
    rw [show (s.netStep (s.net.closeConn ev.connId true)).events = (s.net.closeConn ev.connId true).2 from rfl,
      acceptIds_eq_nil hr.no_accept, List.append_nil]
    exact List.sublist_append_left _ _
  | datagram addr bytes hev =>
    refine ⟨used, h.of_coming rfl ?_ rfl fun _ hc => hc⟩
    rw [coming, coming, hev]
    simp [acceptIds]
  | net _ r hev hr =>
    rcases hr.cases with ⟨addr, rfl⟩ | heffect
    · have hcoming : (s.netStep (s.net.acceptReady addr)).coming =
          s.coming ++ [{ kind := .TcpAccept, connId := s.net.nextConnId, addr := addr }] := by
        rw [coming, coming, hev, List.append_nil]
        rfl
      have hids : used ++ acceptIds (s.netStep (s.net.acceptReady addr)).coming =
          (used ++ acceptIds s.coming) ++ [s.net.nextConnId] := by
        rw [hcoming, acceptIds_append, List.append_assoc]
        rfl
      refine ⟨used, h.wf, h.owned, ?_, ?_, ?_, Nat.succ_pos _⟩
      · rw [hids]
        refine List.Nodup.append h.nodup (List.nodup_singleton _) ?_
        rw [List.disjoint_singleton]
        exact fun hm => absurd (h.used_range _ hm).2 (lt_irrefl _)
      · intro c hc
        rw [hids] at hc
        rcases List.mem_append.mp hc with hc | hc
        · obtain ⟨h0, hlt⟩ := h.used_range c hc
          exact ⟨h0, Nat.lt_succ_of_lt hlt⟩
        · rw [List.mem_singleton.mp hc]
          exact ⟨h.next_pos, Nat.lt_succ_self _⟩
      · intro c hc
        rw [NetIo.mem_conns] at hc
        obtain ⟨conn, hc⟩ := hc
        by_cases hnew : s.net.nextConnId ∈ s.net.conns
        · exact absurd (h.conns_range _ hnew) (lt_irrefl _)
        · have hl := Table.lookup_emplace (.front _ _) { addr := addr } hnew c
          rw [show (s.netStep (s.net.acceptReady addr)).net.conns =
            s.net.conns.emplace (.front _ _) s.net.nextConnId { addr := addr } from rfl, hl] at hc
          split at hc
          · rename_i hcn
            exact hcn ▸ Nat.lt_succ_self _
          · exact Nat.lt_succ_of_lt (h.conns_range c (NetIo.mem_conns.mpr ⟨conn, hc⟩))
    · exact ⟨used, h.effect hev s.outbound heffect⟩

/-- In every state of a run the connection ids are in order. -/
theorem run_numbered (b : ServerRuntime.Startup) (inboundMax outboundMax : ℕ) (as : List Action) :
    ∃ used, Numbered used (run step (start b inboundMax outboundMax) as) := by
  refine run_invariant (I := fun s => ∃ used, Numbered used s) (P := fun _ _ => True) (fun s a h _ => ?_)
    ⟨[], numbered_start b inboundMax outboundMax⟩ (allSteps_iff_split.mpr fun _ _ _ _ => trivial)
  obtain ⟨used, h⟩ := h
  exact step_numbered h a

/-- A player joins on connection 1, and the simulation pushes all it has to. -/
def joinedOn1 : List Action :=
  [.accept ⟨10, 0, 0, 1, 1000⟩, .deliver, .consume ServerRuntime.plainEnv 1,
    .readable 1 (ServerRuntime.helloFrame (ascii "a")), .deliver, .consume ServerRuntime.plainEnv 1, .push, .push, .push]

end Threads
end CommonwealthMP
