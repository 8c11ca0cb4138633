import Mathlib.Data.List.Dedup
import Mathlib.Logic.Function.Basic
import Mathlib.Data.Set.Insert

/-! # Session tables

The purpose of a session server, apart from its messages: connections wait in a list until
they are admitted, an admitted connection is an endpoint of a session, one session is the
host, and datagram addresses are attributed to sessions by tokens. `Step` says what each
move of the table does; the host after a departure is any remaining session. -/
set_option linter.unusedSectionVars false

namespace SessionTable

structure Endpoint (Conn Key Token Addr : Type*) where
  conn : Conn
  key : Key
  token : Token
  udp : Option Addr

structure Sessions (Id Conn Key Token Addr : Type*) where
  live : Id → Option (Endpoint Conn Key Token Addr)
  pending : List Conn
  host : Id
  udp : Addr → Option Id
  /-- the id of the next session -/
  next : Id

inductive Move (Id Conn Key Token Addr : Type*)
  | accept (c : Conn)
  | prune
  | close (c : Conn)
  | join (id : Id) (e : Endpoint Conn Key Token Addr)
  | reconnect (id : Id) (c : Conn) (token : Token)
  | retoken (id : Id) (token : Token)
  | bind (id : Id) (a : Addr)
  | leave (id : Id) (keep : Bool)

variable {Id Conn Key Token Addr : Type*} [DecidableEq Id] [DecidableEq Conn] [DecidableEq Addr] [Zero Id] [One Id] [Add Id]
  [Zero Conn]

/-- Drop the entry of a released address, whoever holds it. -/
def forget (udp : Addr → Option Id) : Option Addr → Addr → Option Id
  | none => udp
  | some a => Function.update udp a none

/-- The outcome of an election: a live host stays, otherwise somebody live follows. -/
def Elects (live : Id → Option (Endpoint Conn Key Token Addr)) (host host' : Id) : Prop :=
  (live host ≠ none ∧ host' = host) ∨ (live host = none ∧ live host' ≠ none) ∨ ((∀ i, live i = none) ∧ host' = 0)

inductive Step : Sessions Id Conn Key Token Addr → Move Id Conn Key Token Addr → Sessions Id Conn Key Token Addr → Prop
  | accept (S) (c : Conn) : Step S (.accept c) { S with pending := S.pending ++ [c] }
  | prune (S) (ps : List Conn) (h : ps.Sublist S.pending) : Step S .prune { S with pending := ps }
  | close (S) (c : Conn) : Step S (.close c) { S with pending := S.pending.filter (· ≠ c) }
  | join (S) (e : Endpoint Conn Key Token Addr) (ps : List Conn) (hc : e.conn ∈ S.pending)
      (hps : ps.Sublist (S.pending.erase e.conn)) (hkey : ∀ i e', S.live i = some e' → e'.key ≠ e.key) (hudp : e.udp = none) :
      Step S (.join S.next e) { S with
        live := if S.live S.next = none then Function.update S.live S.next (some e) else S.live
        pending := ps
        host := if S.host = 0 then S.next else S.host
        next := S.next + 1 }
  | reconnect (S) (id : Id) (c : Conn) (token : Token) (e : Endpoint Conn Key Token Addr) (ps : List Conn)
      (hc : c ∈ S.pending) (hps : ps.Sublist (S.pending.erase c)) (he : S.live id = some e) :
      Step S (.reconnect id c token) { S with
        live := Function.update S.live id (some { e with conn := c, token := token, udp := none })
        pending := ps
        udp := forget S.udp e.udp }
  | retoken (S) (id : Id) (token : Token) (e : Endpoint Conn Key Token Addr) (he : S.live id = some e) :
      Step S (.retoken id token) { S with
        live := Function.update S.live id (some { e with token := token, udp := none })
        udp := forget S.udp e.udp }
  | bind (S) (id : Id) (a : Addr) (e : Endpoint Conn Key Token Addr) (he : S.live id = some e) :
      Step S (.bind id a) { S with
        live := Function.update S.live id (some { e with udp := some a })
        udp := Function.update (forget S.udp e.udp) a (some id) }
  | leave (S) (id : Id) (keep : Bool) (e : Endpoint Conn Key Token Addr) (host : Id) (he : S.live id = some e)
      (hh : Elects (Function.update S.live id none) (if id = S.host then 0 else S.host) host) :
      Step S (.leave id keep) { S with
        live := Function.update S.live id none
        pending := if keep ∧ e.conn ≠ 0 then S.pending ++ [e.conn] else S.pending
        host := host
        udp := forget S.udp e.udp }
  | absent (S) (id : Id) (keep : Bool) (he : S.live id = none) : Step S (.leave id keep) S

inductive Steps : Sessions Id Conn Key Token Addr → List (Move Id Conn Key Token Addr) → Sessions Id Conn Key Token Addr → Prop
  | nil (S) : Steps S [] S
  | cons {S S' S'' m ms} (h : Step S m S') (hs : Steps S' ms S'') : Steps S (m :: ms) S''

theorem Steps.single {S S' : Sessions Id Conn Key Token Addr} {m : Move Id Conn Key Token Addr} (h : Step S m S') :
    Steps S [m] S' := .cons h (.nil _)

theorem Steps.single_iff {S S' : Sessions Id Conn Key Token Addr} {m : Move Id Conn Key Token Addr} :
    Steps S [m] S' ↔ Step S m S' := by
  constructor
  · rintro (_ | ⟨h, ⟨⟩⟩)
    exact h
  · exact .single

theorem Steps.append {S S' S'' : Sessions Id Conn Key Token Addr} {ms ns : List (Move Id Conn Key Token Addr)}
    (h : Steps S ms S') (h' : Steps S' ns S'') : Steps S (ms ++ ns) S'' := by
  induction h with
  | nil => exact h'
  | cons hm _ ih => exact .cons hm (ih h')

/-- What each move keeps, a sequence of moves keeps. -/
theorem Steps.invariant {I : Sessions Id Conn Key Token Addr → Prop} {S S' : Sessions Id Conn Key Token Addr}
    {ms : List (Move Id Conn Key Token Addr)} (hI : ∀ S m S', m ∈ ms → I S → Step S m S' → I S') (h : Steps S ms S')
    (hS : I S) : I S' := by
  induction h with
  | nil => exact hS
  | cons hm _ ih => exact ih (fun _ _ _ hmem => hI _ _ _ (.tail _ hmem)) (hI _ _ _ (.head _) hS hm)

/-- What holds of a table whatever the connections are called. -/
structure Ok (S : Sessions Id Conn Key Token Addr) : Prop where
  key_unique : ∀ {i j e e'}, S.live i = some e → S.live j = some e' → e.key = e'.key → i = j
  host_idle : (∀ i, S.live i = none) → S.host = 0
  host_live : ∀ {i e}, S.live i = some e → S.live S.host ≠ none
  udp_sound : ∀ {a i}, S.udp a = some i → ∃ e, S.live i = some e ∧ e.udp = some a

theorem forget_some {udp : Addr → Option Id} {a? : Option Addr} {a : Addr} {i : Id}
    (h : forget udp a? a = some i) : udp a = some i ∧ a? ≠ some a := by
  cases a? with
  | none => exact ⟨h, by simp⟩
  | some b =>
    rcases eq_or_ne a b with rfl | hab
    · simp [forget] at h
    · exact ⟨by simpa [forget, hab] using h, by simpa using hab.symm⟩

theorem Ok.forget_ne {S : Sessions Id Conn Key Token Addr} (hS : Ok S) {i : Id} {e : Endpoint Conn Key Token Addr}
    (he : S.live i = some e) (a : Addr) : forget S.udp e.udp a ≠ some i := by
  intro h
  obtain ⟨hu, hne⟩ := forget_some h
  obtain ⟨e', he', hae⟩ := hS.udp_sound hu
  rw [he] at he'
  cases he'
  exact hne hae

theorem Elects.idle {live : Id → Option (Endpoint Conn Key Token Addr)} {host host' : Id} (h : Elects live host host')
    (hl : ∀ i, live i = none) : host' = 0 := by
  rcases h with ⟨hn, _⟩ | ⟨_, hn⟩ | ⟨_, h⟩
  · exact absurd (hl _) hn
  · exact absurd (hl _) hn
  · exact h

theorem Elects.live {live : Id → Option (Endpoint Conn Key Token Addr)} {host host' : Id} (h : Elects live host host')
    {i : Id} {e : Endpoint Conn Key Token Addr} (hi : live i = some e) : live host' ≠ none := by
  rcases h with ⟨hn, rfl⟩ | ⟨_, hn⟩ | ⟨hn, _⟩
  · exact hn
  · exact hn
  · rw [hn i] at hi
    cases hi

/-- Replacing an endpoint by one with the same key, and giving its address entries up, keeps
the table sound; `udp'` may name the session again at its new address. -/
theorem Ok.update {S : Sessions Id Conn Key Token Addr} (hS : Ok S) {id : Id} {e : Endpoint Conn Key Token Addr}
    (he : S.live id = some e) (e' : Endpoint Conn Key Token Addr) (hkey : e'.key = e.key) {udp : Addr → Option Id} {ps : List Conn}
    (hudp : ∀ {a i}, udp a = some i → (i = id ∧ e'.udp = some a) ∨ (i ≠ id ∧ S.udp a = some i)) :
    Ok { S with live := Function.update S.live id (some e'), pending := ps, udp := udp } where
  key_unique {i j a b} hi hj hk := by
    have back : ∀ {k x}, Function.update S.live id (some e') k = some x → ∃ y, S.live k = some y ∧ y.key = x.key := by
      intro k x hx
      rcases eq_or_ne k id with rfl | hne
      · simp only [Function.update_self, Option.some.injEq] at hx
        exact ⟨e, he, by rw [← hx, hkey]⟩
      · exact ⟨x, by simpa [hne] using hx, rfl⟩
    obtain ⟨x, hx, hxk⟩ := back hi
    obtain ⟨y, hy, hyk⟩ := back hj
    exact hS.key_unique hx hy (by rw [hxk, hyk, hk])
  host_idle hl := by
    have := hl id
    simp at this
  host_live {i x} hi := by
    rcases eq_or_ne S.host id with hh | hh
    · simp [hh]
    · simpa [hh] using hS.host_live he
  udp_sound {a i} ha := by
    rcases hudp ha with ⟨rfl, hu⟩ | ⟨hne, hu⟩
    · exact ⟨e', by simp, hu⟩
    · obtain ⟨x, hx, hxa⟩ := hS.udp_sound hu
      exact ⟨x, by simpa [hne] using hx, hxa⟩

theorem Step.ok {S S' : Sessions Id Conn Key Token Addr} {m : Move Id Conn Key Token Addr} (h : Step S m S')
    (hS : Ok S) : Ok S' := by
  cases h with
  | accept c => exact { hS with }
  | prune ps h => exact { hS with }
  | close c => exact { hS with }
  | join e ps hc hps hkey hudp =>
    have hlive : ∀ {i x}, (if S.live S.next = none then Function.update S.live S.next (some e) else S.live) i = some x →
        (i = S.next ∧ x = e ∧ S.live S.next = none) ∨ S.live i = some x := by
      intro i x hi
      split at hi
      · rename_i hn
        rcases eq_or_ne i S.next with rfl | hne
        · exact .inl ⟨rfl, by simpa [eq_comm] using hi, hn⟩
        · exact .inr (by simpa [hne] using hi)
      · exact .inr hi
    have hid : (if S.live S.next = none then Function.update S.live S.next (some e) else S.live) S.next ≠ none := by
      split
      · simp
      · assumption
    constructor
    · intro i j a b hi hj hk
      rcases hlive hi with ⟨hin, rfl, -⟩ | hi' <;> rcases hlive hj with ⟨hjn, rfl, -⟩ | hj'
      · exact hin.trans hjn.symm
      · exact absurd hk.symm (hkey _ _ hj')
      · exact absurd hk (hkey _ _ hi')
      · exact hS.key_unique hi' hj' hk
    · intro hl
      exact absurd (hl S.next) hid
    · intro i x hi
      dsimp only
      by_cases hh : S.host = 0
      · rw [if_pos hh]
        exact hid
      · rw [if_neg hh]
        obtain ⟨j, y, hj⟩ : ∃ j y, S.live j = some y := by
          by_contra hnone
          push Not at hnone
          exact hh (hS.host_idle fun j => Option.eq_none_iff_forall_ne_some.mpr (hnone j))
        have hlv := hS.host_live hj
        split
        · rcases eq_or_ne S.host S.next with he | he
          · simp [he]
          · simpa [he] using hlv
        · exact hlv
    · intro a i ha
      obtain ⟨x, hx, hxa⟩ := hS.udp_sound ha
      refine ⟨x, ?_, hxa⟩
      dsimp only
      split
      · rename_i hn
        have hne : i ≠ S.next := fun hi => by simp [hi, hn] at hx
        simpa [hne] using hx
      · exact hx
  | reconnect id c token e ps hc hps he =>
    refine hS.update he ⟨c, e.key, token, none⟩ rfl fun {a i} ha => .inr ⟨?_, (forget_some ha).1⟩
    rintro rfl
    exact hS.forget_ne he a ha
  | retoken id token e he =>
    refine hS.update he ⟨e.conn, e.key, token, none⟩ rfl fun {a i} ha => .inr ⟨?_, (forget_some ha).1⟩
    rintro rfl
    exact hS.forget_ne he a ha
  | bind id b e he =>
    refine hS.update he ⟨e.conn, e.key, e.token, some b⟩ rfl fun {a i} ha => ?_
    rcases eq_or_ne a b with rfl | hab
    · exact .inl ⟨by simpa [eq_comm] using ha, rfl⟩
    · have ha' : forget S.udp e.udp a = some i := by simpa [hab] using ha
      refine .inr ⟨?_, (forget_some ha').1⟩
      rintro rfl
      exact hS.forget_ne he a ha'
  | leave id keep e host he hh =>
    have hlive : ∀ {i x}, Function.update S.live id none i = some x → i ≠ id ∧ S.live i = some x := by
      intro i x hi
      rcases eq_or_ne i id with rfl | hne
      · simp at hi
      · exact ⟨hne, by simpa [hne] using hi⟩
    constructor
    · intro i j a b hi hj hk
      exact hS.key_unique (hlive hi).2 (hlive hj).2 hk
    · exact hh.idle
    · intro i x hi
      exact hh.live hi
    · intro a i ha
      obtain ⟨hu, -⟩ := forget_some ha
      obtain ⟨x, hx, hxa⟩ := hS.udp_sound hu
      have hne : i ≠ id := by
        rintro rfl
        exact hS.forget_ne he a ha
      exact ⟨x, by simpa [hne] using hx, hxa⟩
  | absent => exact hS

theorem Steps.ok {S S' : Sessions Id Conn Key Token Addr} {ms : List (Move Id Conn Key Token Addr)} (h : Steps S ms S')
    (hS : Ok S) : Ok S' :=
  h.invariant (fun _ _ _ _ hI hm => hm.ok hI) hS

/-- The host changes only when it leaves, or when there is none and a session joins. -/
theorem Step.host_kept {S S' : Sessions Id Conn Key Token Addr} {m : Move Id Conn Key Token Addr} (h : Step S m S') (hS : Ok S)
    (hl : ∀ keep, m ≠ .leave S.host keep) (hj : S.host = 0 → ∀ id e, m ≠ .join id e) : S'.host = S.host := by
  cases h with
  | join e ps hc hps hkey hudp => exact if_neg fun h0 => hj h0 _ _ rfl
  | leave id keep e host he hh =>
    have hne : id ≠ S.host := by
      rintro rfl
      exact hl keep rfl
    have hlive : Function.update S.live id none S.host ≠ none := by
      rw [Function.update_of_ne hne.symm]
      exact hS.host_live he
    rw [if_neg hne] at hh
    rcases hh with ⟨-, hh⟩ | ⟨hn, -⟩ | ⟨hn, -⟩
    · exact hh
    · exact absurd hn hlive
    · exact absurd (hn _) hlive
  | _ => rfl

theorem Steps.host_kept {S S' : Sessions Id Conn Key Token Addr} {ms : List (Move Id Conn Key Token Addr)} (h : Steps S ms S')
    (hS : Ok S) (hl : ∀ keep, .leave S.host keep ∉ ms) (hj : S.host = 0 → ∀ id e, .join id e ∉ ms) : S'.host = S.host := by
  have hboth : Ok S' ∧ S'.host = S.host := by
    refine h.invariant (I := fun T => Ok T ∧ T.host = S.host) ?_ ⟨hS, rfl⟩
    rintro T m T' hm ⟨hT, hhost⟩ hstep
    refine ⟨hstep.ok hT, (hstep.host_kept hT ?_ ?_).trans hhost⟩
    · rintro keep rfl
      exact hl keep (hhost ▸ hm)
    · rintro h0 id e rfl
      exact hj (hhost ▸ h0) id e hm
  exact hboth.2

/-- Every connection in the table was accepted, and has one owner. -/
structure Owned (used : List Conn) (S : Sessions Id Conn Key Token Addr) : Prop where
  conn_unique : ∀ {i j e e'}, S.live i = some e → S.live j = some e' → e.conn = e'.conn → i = j
  not_pending : ∀ {i e}, S.live i = some e → e.conn ∉ S.pending
  pending_nodup : S.pending.Nodup
  live_used : ∀ {i e}, S.live i = some e → e.conn ∈ used
  pending_used : ∀ {c}, c ∈ S.pending → c ∈ used

def accepted : Move Id Conn Key Token Addr → List Conn
  | .accept c => [c]
  | _ => []

theorem Owned.sublist {used : List Conn} {S : Sessions Id Conn Key Token Addr} (hS : Owned used S) {ps : List Conn}
    (h : ps.Sublist S.pending) : Owned used { S with pending := ps } where
  conn_unique := hS.conn_unique
  not_pending hi hm := hS.not_pending hi (h.subset hm)
  pending_nodup := h.nodup hS.pending_nodup
  live_used := hS.live_used
  pending_used hc := hS.pending_used (h.subset hc)

theorem Owned.dedup {used : List Conn} {S : Sessions Id Conn Key Token Addr} (hS : Owned used S) : Owned used.dedup S where
  conn_unique := hS.conn_unique
  not_pending := hS.not_pending
  pending_nodup := hS.pending_nodup
  live_used hi := List.mem_dedup.mpr (hS.live_used hi)
  pending_used hc := List.mem_dedup.mpr (hS.pending_used hc)

theorem Owned.take {used : List Conn} {S : Sessions Id Conn Key Token Addr} (hS : Owned used S) {id : Id}
    {e : Endpoint Conn Key Token Addr} (hc : e.conn ∈ S.pending) {ps : List Conn}
    (hps : ps.Sublist (S.pending.erase e.conn)) {host : Id} {udp : Addr → Option Id} {next : Id} :
    Owned used (Sessions.mk (Function.update S.live id (some e)) ps host udp next) := by
  have hsub : ps.Sublist S.pending := hps.trans List.erase_sublist
  have hnot : e.conn ∉ ps := fun hm => hS.pending_nodup.not_mem_erase (hps.subset hm)
  have hlive : ∀ {i x}, Function.update S.live id (some e) i = some x → (i = id ∧ x = e) ∨ (i ≠ id ∧ S.live i = some x) := by
    intro i x hi
    rcases eq_or_ne i id with rfl | hne
    · exact .inl ⟨rfl, by simpa [eq_comm] using hi⟩
    · exact .inr ⟨hne, by simpa [hne] using hi⟩
  constructor
  · intro i j a b hi hj hk
    rcases hlive hi with ⟨rfl, rfl⟩ | ⟨-, hi'⟩ <;> rcases hlive hj with ⟨rfl, rfl⟩ | ⟨-, hj'⟩
    · rfl
    · exact absurd (hk ▸ hc) (hS.not_pending hj')
    · exact absurd (hk ▸ hc) (hS.not_pending hi')
    · exact hS.conn_unique hi' hj' hk
  · intro i x hi
    rcases hlive hi with ⟨-, rfl⟩ | ⟨-, hi'⟩
    · exact hnot
    · exact fun hm => hS.not_pending hi' (hsub.subset hm)
  · exact hsub.nodup hS.pending_nodup
  · intro i x hi
    rcases hlive hi with ⟨-, rfl⟩ | ⟨-, hi'⟩
    · exact hS.pending_used hc
    · exact hS.live_used hi'
  · exact fun hc' => hS.pending_used (hsub.subset hc')

theorem Owned.same_conn {used : List Conn} {S : Sessions Id Conn Key Token Addr} (hS : Owned used S) {id : Id}
    {e : Endpoint Conn Key Token Addr} (he : S.live id = some e) (e' : Endpoint Conn Key Token Addr)
    (hc : e'.conn = e.conn) {udp : Addr → Option Id} :
    Owned used { S with live := Function.update S.live id (some e'), udp := udp } := by
  have back : ∀ {k x}, Function.update S.live id (some e') k = some x → ∃ y, S.live k = some y ∧ y.conn = x.conn := by
    intro k x hx
    rcases eq_or_ne k id with rfl | hne
    · simp only [Function.update_self, Option.some.injEq] at hx
      exact ⟨e, he, by rw [← hx, hc]⟩
    · exact ⟨x, by simpa [hne] using hx, rfl⟩
  constructor
  · intro i j a b hi hj hk
    obtain ⟨x, hx, hxc⟩ := back hi
    obtain ⟨y, hy, hyc⟩ := back hj
    exact hS.conn_unique hx hy (by rw [hxc, hyc, hk])
  · intro i a hi
    obtain ⟨x, hx, hxc⟩ := back hi
    exact hxc ▸ hS.not_pending hx
  · exact hS.pending_nodup
  · intro i a hi
    obtain ⟨x, hx, hxc⟩ := back hi
    exact hxc ▸ hS.live_used hx
  · exact hS.pending_used

theorem Owned.remove {used : List Conn} {S : Sessions Id Conn Key Token Addr} (hS : Owned used S) {id : Id}
    {e : Endpoint Conn Key Token Addr} (he : S.live id = some e) (keep : Bool) {host : Id} {udp : Addr → Option Id} {next : Id} :
    Owned used (Sessions.mk (Function.update S.live id none)
      (if keep ∧ e.conn ≠ 0 then S.pending ++ [e.conn] else S.pending) host udp next) := by
  have hlive : ∀ {i x}, Function.update S.live id none i = some x → i ≠ id ∧ S.live i = some x := by
    intro i x hi
    rcases eq_or_ne i id with rfl | hne
    · simp at hi
    · exact ⟨hne, by simpa [hne] using hi⟩
  have hpend : ∀ {c}, c ∈ (if keep ∧ e.conn ≠ 0 then S.pending ++ [e.conn] else S.pending) → c ∈ S.pending ∨ c = e.conn := by
    intro c hm
    split at hm
    · simpa using hm
    · exact .inl hm
  constructor
  · intro i j a b hi hj hk
    exact hS.conn_unique (hlive hi).2 (hlive hj).2 hk
  · intro i x hi hm
    rcases hpend hm with hm | hm
    · exact hS.not_pending (hlive hi).2 hm
    · exact (hlive hi).1 (hS.conn_unique (hlive hi).2 he hm)
  · dsimp only
    split
    · refine List.Nodup.append hS.pending_nodup (List.nodup_singleton _) ?_
      simpa using hS.not_pending he
    · exact hS.pending_nodup
  · exact fun hi => hS.live_used (hlive hi).2
  · intro c hm
    rcases hpend hm with hm | rfl
    · exact hS.pending_used hm
    · exact hS.live_used he

theorem Step.owned {used : List Conn} {S S' : Sessions Id Conn Key Token Addr} {m : Move Id Conn Key Token Addr}
    (h : Step S m S') (hS : Owned used S) (hfresh : ∀ c ∈ accepted m, c ∉ used) : Owned (used ++ accepted m) S' := by
  have keep : ∀ {T : Sessions Id Conn Key Token Addr}, Owned used T → Owned (used ++ []) T := by
    intro T hT
    simpa using hT
  cases h with
  | accept c =>
    have hc : c ∉ used := hfresh c (by simp [accepted])
    constructor
    · exact hS.conn_unique
    · intro i e hi hm
      rcases List.mem_append.mp hm with hm | hm
      · exact hS.not_pending hi hm
      · rw [List.mem_singleton] at hm
        exact hc (hm ▸ hS.live_used hi)
    · refine List.Nodup.append hS.pending_nodup (List.nodup_singleton c) ?_
      simpa using fun hm => hc (hS.pending_used hm)
    · exact fun hi => List.mem_append_left _ (hS.live_used hi)
    · intro c' hm
      rcases List.mem_append.mp hm with hm | hm
      · exact List.mem_append_left _ (hS.pending_used hm)
      · exact List.mem_append_right _ hm
  | prune ps h => exact keep (hS.sublist h)
  | close c => exact keep (hS.sublist List.filter_sublist)
  | join e ps hc hps hkey hudp =>
    refine keep ?_
    by_cases hn : S.live S.next = none
    · simpa [hn] using hS.take hc hps
    · have := hS.sublist (hps.trans List.erase_sublist)
      simpa [hn] using { this with }
  | reconnect id c token e ps hc hps he => exact keep (hS.take (e := { e with conn := c, token := token, udp := none }) hc hps)
  | retoken id token e he => exact keep (hS.same_conn he ⟨e.conn, e.key, token, none⟩ rfl)
  | bind id a e he => exact keep (hS.same_conn he ⟨e.conn, e.key, e.token, some a⟩ rfl)
  | leave id k e host he hh => exact keep (hS.remove he k)
  | absent => exact keep hS

theorem Steps.owned {used : List Conn} {S S' : Sessions Id Conn Key Token Addr} {ms : List (Move Id Conn Key Token Addr)}
    (h : Steps S ms S') (hS : Owned used S) (hfresh : (used ++ ms.flatMap accepted).Nodup) (hu : used.Nodup) :
    Owned (used ++ ms.flatMap accepted) S' := by
  induction h generalizing used with
  | nil => simpa using hS
  | @cons S S' S'' m ms hm hs ih =>
    rw [List.flatMap_cons, ← List.append_assoc] at hfresh ⊢
    have hpre : (used ++ accepted m).Nodup := (List.nodup_append.mp hfresh).1
    refine ih (hm.owned hS ?_) hfresh hpre
    exact fun c hc hcu => List.disjoint_of_nodup_append hpre hcu hc

def issued : Move Id Conn Key Token Addr → List Id
  | .join id _ => [id]
  | _ => []

theorem Step.issued_next {S S' : Sessions Id Conn Key Token Addr} {m : Move Id Conn Key Token Addr} (h : Step S m S') :
    (issued m = [] ∧ S'.next = S.next) ∨ (issued m = [S.next] ∧ S'.next = S.next + 1) := by
  cases h with
  | join => exact .inr ⟨rfl, rfl⟩
  | _ => exact .inl ⟨rfl, rfl⟩

/-- Where an endpoint after a move comes from. -/
theorem Step.live_cases {S S' : Sessions Id Conn Key Token Addr} {m : Move Id Conn Key Token Addr} (h : Step S m S')
    {i : Id} {e' : Endpoint Conn Key Token Addr} (hi : S'.live i = some e') :
    S.live i = some e' ∨ (m = .join i e' ∧ S.live i = none) ∨
      ∃ e, S.live i = some e ∧ ((∃ c t, m = .reconnect i c t ∧ e' = { e with conn := c, token := t, udp := none }) ∨
        (∃ t, m = .retoken i t ∧ e' = { e with token := t, udp := none }) ∨ ∃ a, m = .bind i a ∧ e' = { e with udp := some a }) := by
  have upd : ∀ {id : Id} {x? : Option (Endpoint Conn Key Token Addr)}, Function.update S.live id x? i = some e' →
      (i = id ∧ x? = some e') ∨ S.live i = some e' := by
    intro id x? hx
    rcases eq_or_ne i id with rfl | hne
    · exact .inl ⟨rfl, by simpa using hx⟩
    · exact .inr (by simpa [hne] using hx)
  cases h with
  | accept c => exact .inl hi
  | prune ps h => exact .inl hi
  | close c => exact .inl hi
  | join e ps hc hps hkey hudp =>
    dsimp only at hi
    split at hi
    · rename_i hn
      rcases upd hi with ⟨hid, he⟩ | hi
      · cases he
        exact .inr (.inl ⟨by rw [hid], by rw [hid, hn]⟩)
      · exact .inl hi
    · exact .inl hi
  | reconnect id c token e ps hc hps he =>
    rcases upd hi with ⟨rfl, hx⟩ | hi
    · exact .inr (.inr ⟨e, he, .inl ⟨c, token, rfl, (Option.some.inj hx).symm⟩⟩)
    · exact .inl hi
  | retoken id token e he =>
    rcases upd hi with ⟨rfl, hx⟩ | hi
    · exact .inr (.inr ⟨e, he, .inr (.inl ⟨token, rfl, (Option.some.inj hx).symm⟩)⟩)
    · exact .inl hi
  | bind id a e he =>
    rcases upd hi with ⟨rfl, hx⟩ | hi
    · exact .inr (.inr ⟨e, he, .inr (.inr ⟨a, rfl, (Option.some.inj hx).symm⟩)⟩)
    · exact .inl hi
  | leave id keep e host he hh =>
    rcases upd hi with ⟨rfl, hx⟩ | hi
    · cases hx
    · exact .inl hi
  | absent => exact .inl hi

/-- A connection a session is on after some moves was its own, or a join or reconnect gave it. -/
theorem Steps.conn_origin {S S' : Sessions Id Conn Key Token Addr} {ms : List (Move Id Conn Key Token Addr)}
    (h : Steps S ms S') {i : Id} {e' : Endpoint Conn Key Token Addr} (hi : S'.live i = some e') :
    (∃ e, S.live i = some e ∧ e.conn = e'.conn) ∨ (∃ e, .join i e ∈ ms) ∨ ∃ c t, .reconnect i c t ∈ ms := by
  induction h with
  | nil => exact .inl ⟨e', hi, rfl⟩
  | cons hm _ ih =>
    rcases ih hi with ⟨e, he, hc⟩ | ⟨e, he⟩ | ⟨c, t, hmem⟩
    · rcases hm.live_cases he with he | ⟨rfl, -⟩ | ⟨x, hx, ⟨c, t, rfl, -⟩ | ⟨t, -, rfl⟩ | ⟨a, -, rfl⟩⟩
      · exact .inl ⟨e, he, hc⟩
      · exact .inr (.inl ⟨e, .head _⟩)
      · exact .inr (.inr ⟨c, t, .head _⟩)
      · exact .inl ⟨x, hx, hc⟩
      · exact .inl ⟨x, hx, hc⟩
    · exact .inr (.inl ⟨e, .tail _ he⟩)
    · exact .inr (.inr ⟨c, t, .tail _ hmem⟩)

def Renews (i : Id) : Move Id Conn Key Token Addr → Prop
  | .join j _ => j = i
  | .reconnect j _ _ => j = i
  | .retoken j _ => j = i
  | _ => False

/-- Moves that do not renew a session leave its token, and its address but for a bind. -/
theorem Steps.not_renewed {S S' : Sessions Id Conn Key Token Addr} {ms : List (Move Id Conn Key Token Addr)}
    (h : Steps S ms S') {i : Id} (hn : ∀ m ∈ ms, ¬ Renews i m) {e' : Endpoint Conn Key Token Addr} (hi : S'.live i = some e') :
    ∃ e, S.live i = some e ∧ e.token = e'.token ∧ (e.udp = e'.udp ∨ ∃ a, .bind i a ∈ ms ∧ e'.udp = some a) := by
  induction h with
  | nil => exact ⟨e', hi, rfl, .inl rfl⟩
  | @cons S S₁ S' m ms hm _ ih =>
    obtain ⟨e₁, he₁, htok, hudp⟩ := ih (fun m hmem => hn m (.tail _ hmem)) hi
    have hudp' : e₁.udp = e'.udp ∨ ∃ a, .bind i a ∈ m :: ms ∧ e'.udp = some a :=
      hudp.imp_right fun ⟨a, hmem, ha⟩ => ⟨a, List.mem_cons_of_mem _ hmem, ha⟩
    rcases hm.live_cases he₁ with he | ⟨rfl, -⟩ | ⟨e, he, ⟨c, t, rfl, -⟩ | ⟨t, rfl, -⟩ | ⟨a, rfl, rfl⟩⟩
    · exact ⟨e₁, he, htok, hudp'⟩
    · exact absurd rfl (hn _ (.head _))
    · exact absurd rfl (hn _ (.head _))
    · exact absurd rfl (hn _ (.head _))
    · refine ⟨e, he, htok, ?_⟩
      rcases hudp' with ha | ha
      · exact .inr ⟨a, .head _, ha.symm⟩
      · exact .inr ha

/-- A session has the address it had, or has been bound to it. -/
theorem Steps.address_cases {S S' : Sessions Id Conn Key Token Addr} {ms : List (Move Id Conn Key Token Addr)} (h : Steps S ms S')
    {i : Id} {a : Addr} {e' : Endpoint Conn Key Token Addr} (hi : S'.live i = some e') (ha : e'.udp = some a) :
    (∃ e, S.live i = some e ∧ e.udp = some a) ∨ .bind i a ∈ ms := by
  induction h with
  | nil => exact .inl ⟨e', hi, ha⟩
  | @cons S S₁ S' m ms hm _ ih =>
    rcases ih hi with ⟨e₁, he₁, ha₁⟩ | hmem
    · rcases hm.live_cases he₁ with he | ⟨rfl, -⟩ | ⟨e, he, ⟨c, t, rfl, rfl⟩ | ⟨t, rfl, rfl⟩ | ⟨b, rfl, rfl⟩⟩
      · exact .inl ⟨e₁, he, ha₁⟩
      · cases hm with
        | join e ps hc hps hkey hudp =>
          rw [hudp] at ha₁
          cases ha₁
      · cases ha₁
      · cases ha₁
      · cases ha₁
        exact .inr (.head _)
    · exact .inr (.tail _ hmem)

/-- A new token leaves the session without an address. -/
theorem Step.renewed_unbound {S S' : Sessions Id Conn Key Token Addr} {m : Move Id Conn Key Token Addr} (h : Step S m S')
    {i : Id} (hm : (∃ c t, m = .reconnect i c t) ∨ ∃ t, m = .retoken i t) {e' : Endpoint Conn Key Token Addr}
    (hi : S'.live i = some e') : e'.udp = none := by
  cases h with
  | reconnect id c token e ps hc hps he =>
    rcases hm with ⟨c, t, hm⟩ | ⟨t, hm⟩
    · cases hm
      dsimp only at hi
      rw [Function.update_self] at hi
      cases hi
      rfl
    · cases hm
  | retoken id token e he =>
    rcases hm with ⟨c, t, hm⟩ | ⟨t, hm⟩
    · cases hm
    · cases hm
      dsimp only at hi
      rw [Function.update_self] at hi
      cases hi
      rfl
  | _ => rcases hm with ⟨c, t, hm⟩ | ⟨t, hm⟩ <;> cases hm

/-- A session ends only by leaving. -/
theorem Step.live_stays {S S' : Sessions Id Conn Key Token Addr} {m : Move Id Conn Key Token Addr} (h : Step S m S')
    {i : Id} (hi : S.live i ≠ none) (hm : ∀ keep, m ≠ .leave i keep) : S'.live i ≠ none := by
  have upd : ∀ (id : Id) (x : Endpoint Conn Key Token Addr), Function.update S.live id (some x) i ≠ none := by
    intro id x
    rcases eq_or_ne i id with rfl | hne
    · simp
    · simpa [hne] using hi
  cases h with
  | accept c => exact hi
  | prune ps h => exact hi
  | close c => exact hi
  | join e ps hc hps hkey hudp =>
    dsimp only
    split
    · exact upd S.next e
    · exact hi
  | reconnect id c token e ps hc hps he => exact upd id _
  | retoken id token e he => exact upd id _
  | bind id a e he => exact upd id _
  | leave id keep e host he hh =>
    have hne : i ≠ id := by
      rintro rfl
      exact hm keep rfl
    simpa [hne] using hi
  | absent => exact hi

theorem Steps.live_stays {S S' : Sessions Id Conn Key Token Addr} {ms : List (Move Id Conn Key Token Addr)} (h : Steps S ms S')
    {i : Id} (hi : S.live i ≠ none) (hm : ∀ keep, .leave i keep ∉ ms) : S'.live i ≠ none :=
  h.invariant (I := fun T => T.live i ≠ none) (fun _ _ _ hmem hT hstep => hstep.live_stays hT fun keep he => hm keep (he ▸ hmem)) hi

/-- A session that is neither renewed nor removed stays on its connection with its token; its
address changes only by a bind. -/
theorem Steps.kept {S S' : Sessions Id Conn Key Token Addr} {ms : List (Move Id Conn Key Token Addr)} (h : Steps S ms S')
    {i : Id} (hr : ∀ m ∈ ms, ¬ Renews i m) (hl : ∀ keep, .leave i keep ∉ ms) {e : Endpoint Conn Key Token Addr}
    (hi : S.live i = some e) :
    ∃ e', S'.live i = some e' ∧ e'.conn = e.conn ∧ e'.token = e.token ∧
      (e'.udp = e.udp ∨ ∃ a, .bind i a ∈ ms ∧ e'.udp = some a) := by
  induction h generalizing e with
  | nil => exact ⟨e, hi, rfl, rfl, .inl rfl⟩
  | @cons S S₁ S' m ms hm hs ih =>
    have hstays : S₁.live i ≠ none :=
      hm.live_stays (by simp [hi]) fun keep he => hl keep (he ▸ List.mem_cons_self)
    obtain ⟨e₁, he₁⟩ := Option.ne_none_iff_exists'.mp hstays
    obtain ⟨e', he', hconn, htok, hudp⟩ :=
      ih (fun m hmem => hr m (List.mem_cons_of_mem _ hmem)) (fun keep hmem => hl keep (List.mem_cons_of_mem _ hmem)) he₁
    have hlater : ∀ {b}, e₁.udp = b → e'.udp = b ∨ ∃ a, .bind i a ∈ m :: ms ∧ e'.udp = some a := by
      rintro b rfl
      exact hudp.imp_right fun ⟨a, hmem, ha⟩ => ⟨a, List.mem_cons_of_mem _ hmem, ha⟩
    have hrenew := hr m List.mem_cons_self
    rcases hm.live_cases he₁ with he | ⟨rfl, -⟩ | ⟨x, hx, ⟨c, t, rfl, -⟩ | ⟨t, rfl, -⟩ | ⟨a, rfl, rfl⟩⟩
    · rw [hi] at he
      cases he
      exact ⟨e', he', hconn, htok, hlater rfl⟩
    · exact absurd rfl hrenew
    · exact absurd rfl hrenew
    · exact absurd rfl hrenew
    · rw [hi] at hx
      cases hx
      refine ⟨e', he', hconn, htok, ?_⟩
      rcases hlater rfl with ha | ha
      · exact .inr ⟨a, List.mem_cons_self, ha⟩
      · exact .inr ha

/-- A session that leaves and does not join again is gone. -/
theorem Steps.left {S S' : Sessions Id Conn Key Token Addr} {ms : List (Move Id Conn Key Token Addr)} (h : Steps S ms S')
    {i : Id} {keep : Bool} (hl : .leave i keep ∈ ms) (hr : ∀ m ∈ ms, ¬ Renews i m) : S'.live i = none := by
  induction h with
  | nil => cases hl
  | @cons S S₁ S' m ms hm hs ih =>
    rcases List.mem_cons.mp hl with rfl | hl
    · have hnone : S₁.live i = none := by
        cases hm with
        | leave id keep e host he hh => exact Function.update_self i none S.live
        | absent id keep he => exact he
      refine Option.eq_none_iff_forall_ne_some.mpr fun e' he' => ?_
      obtain ⟨e, he, -⟩ := hs.not_renewed (fun m hmem => hr m (List.mem_cons_of_mem _ hmem)) he'
      exact absurd (hnone.symm.trans he) nofun
    · exact ih hl fun m hmem => hr m (List.mem_cons_of_mem _ hmem)

/-- A connection waits because it did before, was accepted, or was left to wait. -/
theorem Step.pending_origin {S S' : Sessions Id Conn Key Token Addr} {m : Move Id Conn Key Token Addr} (h : Step S m S')
    {c : Conn} (hc : c ∈ S'.pending) : c ∈ S.pending ∨ m = .accept c ∨ ∃ i, m = .leave i true := by
  cases h with
  | accept a =>
    rcases List.mem_append.mp hc with hc | hc
    · exact .inl hc
    · exact .inr (.inl (by rw [List.mem_singleton.mp hc]))
  | prune ps h => exact .inl (h.subset hc)
  | close a => exact .inl (List.mem_filter.mp hc).1
  | join e ps hmem hps hkey hudp => exact .inl (List.mem_of_mem_erase (hps.subset hc))
  | reconnect id a token e ps hmem hps he => exact .inl (List.mem_of_mem_erase (hps.subset hc))
  | retoken id token e he => exact .inl hc
  | bind id a e he => exact .inl hc
  | leave id keep e host he hh =>
    dsimp only at hc
    split at hc
    · rename_i hk
      obtain ⟨rfl, -⟩ := hk
      exact .inr (.inr ⟨id, rfl⟩)
    · exact .inl hc
  | absent => exact .inl hc

theorem Steps.pending_origin {S S' : Sessions Id Conn Key Token Addr} {ms : List (Move Id Conn Key Token Addr)}
    (h : Steps S ms S') {c : Conn} (hc : c ∈ S'.pending) :
    c ∈ S.pending ∨ .accept c ∈ ms ∨ ∃ i, .leave i true ∈ ms := by
  induction h with
  | nil => exact .inl hc
  | cons hm _ ih =>
    rcases ih hc with hc | hc | ⟨i, hc⟩
    · rcases hm.pending_origin hc with hc | rfl | ⟨i, rfl⟩
      · exact .inl hc
      · exact .inr (.inl List.mem_cons_self)
      · exact .inr (.inr ⟨i, List.mem_cons_self⟩)
    · exact .inr (.inl (List.mem_cons_of_mem _ hc))
    · exact .inr (.inr ⟨i, List.mem_cons_of_mem _ hc⟩)

theorem Steps.tokens {P : Token → Prop} {S S' : Sessions Id Conn Key Token Addr} {ms : List (Move Id Conn Key Token Addr)}
    (h : Steps S ms S') (hjoin : ∀ i e, .join i e ∈ ms → P e.token) (hreconnect : ∀ i c t, .reconnect i c t ∈ ms → P t)
    (hretoken : ∀ i t, .retoken i t ∈ ms → P t) (hS : ∀ i e, S.live i = some e → P e.token) :
    ∀ i e, S'.live i = some e → P e.token := by
  refine h.invariant (I := fun S => ∀ i e, S.live i = some e → P e.token) ?_ hS
  intro S m S' hmem hI hm i e' he'
  rcases hm.live_cases he' with he | ⟨rfl, -⟩ | ⟨e, he, ⟨c, t, rfl, rfl⟩ | ⟨t, rfl, rfl⟩ | ⟨a, rfl, rfl⟩⟩
  · exact hI i e' he
  · exact hjoin i e' hmem
  · exact hreconnect i c t hmem
  · exact hretoken i t hmem
  · exact hI i e he

/-- A join under an id that is taken changes no session. -/
theorem Step.join_taken {S S' : Sessions Id Conn Key Token Addr} {i : Id} {e : Endpoint Conn Key Token Addr}
    (h : Step S (.join i e) S') (hi : S.live i ≠ none) : S'.live = S.live := by
  cases h with
  | join _ ps hc hps hkey hudp => exact if_neg hi

def Inverse (S : Sessions Id Conn Key Token Addr) : Prop :=
  ∀ a i, S.udp a = some i ↔ ∃ e, S.live i = some e ∧ e.udp = some a

/-- A bind whose address another session holds. -/
def Takes (S : Sessions Id Conn Key Token Addr) : Move Id Conn Key Token Addr → Prop
  | .bind id a => ∃ j e, j ≠ id ∧ S.live j = some e ∧ e.udp = some a
  | _ => False

theorem Inverse.address_unique {S : Sessions Id Conn Key Token Addr} (hS : Inverse S) {i j : Id}
    {e e' : Endpoint Conn Key Token Addr} {a : Addr} (hi : S.live i = some e) (hj : S.live j = some e')
    (ha : e.udp = some a) (ha' : e'.udp = some a) : i = j := by
  have h := (hS a i).mpr ⟨e, hi, ha⟩
  have h' := (hS a j).mpr ⟨e', hj, ha'⟩
  exact Option.some.inj (h.symm.trans h')

theorem Inverse.forget {S : Sessions Id Conn Key Token Addr} (hS : Inverse S) {id i : Id}
    {e x : Endpoint Conn Key Token Addr} {a : Addr} (he : S.live id = some e) (hne : i ≠ id) (hi : S.live i = some x)
    (ha : x.udp = some a) : SessionTable.forget S.udp e.udp a = some i := by
  have hu := (hS a i).mpr ⟨x, hi, ha⟩
  cases h : e.udp with
  | none => exact hu
  | some b =>
    have hab : a ≠ b := by
      rintro rfl
      exact hne (hS.address_unique hi he ha h)
    simpa [SessionTable.forget, hab] using hu

theorem Step.inverse {S S' : Sessions Id Conn Key Token Addr} {m : Move Id Conn Key Token Addr} (h : Step S m S')
    (hok : Ok S) (hS : Inverse S) (hm : ¬ Takes S m) : Inverse S' := by
  refine fun a i => ⟨(h.ok hok).udp_sound, ?_⟩
  rintro ⟨x, hx, ha⟩
  cases h with
  | accept c => exact (hS a i).mpr ⟨x, hx, ha⟩
  | prune ps h => exact (hS a i).mpr ⟨x, hx, ha⟩
  | close c => exact (hS a i).mpr ⟨x, hx, ha⟩
  | join e ps hc hps hkey hudp =>
    dsimp only at hx
    split at hx
    · rcases eq_or_ne i S.next with rfl | hne
      · simp only [Function.update_self, Option.some.injEq] at hx
        subst hx
        simp [hudp] at ha
      · exact (hS a i).mpr ⟨x, by simpa [hne] using hx, ha⟩
    · exact (hS a i).mpr ⟨x, hx, ha⟩
  | reconnect id c token e ps hc hps he =>
    rcases eq_or_ne i id with rfl | hne
    · simp only [Function.update_self, Option.some.injEq] at hx
      subst hx
      cases ha
    · exact hS.forget he hne (by simpa [hne] using hx) ha
  | retoken id token e he =>
    rcases eq_or_ne i id with rfl | hne
    · simp only [Function.update_self, Option.some.injEq] at hx
      subst hx
      cases ha
    · exact hS.forget he hne (by simpa [hne] using hx) ha
  | bind id b e he =>
    rcases eq_or_ne i id with rfl | hne
    · simp only [Function.update_self, Option.some.injEq] at hx
      subst hx
      cases ha
      simp
    · have hx' : S.live i = some x := by simpa [hne] using hx
      have hab : a ≠ b := by
        rintro rfl
        exact hm ⟨i, x, hne, hx', ha⟩
      simpa [hab] using hS.forget he hne hx' ha
  | leave id keep e host he hh =>
    rcases eq_or_ne i id with rfl | hne
    · simp at hx
    · exact hS.forget he hne (by simpa [hne] using hx) ha
  | absent => exact (hS a i).mpr ⟨x, hx, ha⟩

/-- After a bind that takes another session's address the table is no inverse. -/
theorem Step.not_inverse {S S' : Sessions Id Conn Key Token Addr} {m : Move Id Conn Key Token Addr} (h : Step S m S')
    (hm : Takes S m) : ¬ Inverse S' := by
  cases h with
  | bind id a e he =>
    obtain ⟨j, x, hne, hx, ha⟩ := hm
    intro hS
    have := (hS a j).mpr ⟨x, by simpa [hne] using hx, ha⟩
    simp only [Function.update_self, Option.some.injEq] at this
    exact hne this.symm
  | _ => exact absurd hm id

end SessionTable
