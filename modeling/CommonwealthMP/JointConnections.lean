import CommonwealthMP.ClientCalls

/-! # The connections of a client and the server

What holds of the client's connections and their numbers whatever is lost, refused or stamped:
every connection has one number, the server accepts it once, and the client closes its own. -/
namespace CommonwealthMP
open ByteLayout OrderedTables SessionTable StepRuns Plugin ServerRuntime
namespace Joint
open Call

def acceptsOf (up : List (ConnId × UpItem)) : List ConnId :=
  up.filterMap fun x => match x.2 with
    | .accept _ => some x.1
    | _ => none

/-- Every connection has one number, and the server accepts it once; it is about to accept
those that are `coming`. -/
structure Numbered (coming : List ConnId) (w : Joint) : Prop where
  wf : WellFormed w.server
  tokened : Tokened w.server
  owned : ∃ used, Owned used w.server.sessions ∧ (used ++ (coming ++ acceptsOf w.client.sockets.up)).Nodup ∧
    ∀ c ∈ used ++ (coming ++ acceptsOf w.client.sockets.up), c ∈ w.taken
  zero : 0 ∉ w.taken
  mine : w.mine ⊆ w.taken
  up_mine : ∀ x ∈ w.client.sockets.up, x.1 ∈ w.mine
  conn_mine : w.client.sockets.conn ≠ 0 → w.client.sockets.conn ∈ w.mine

/-- The client's side of its connection. -/
structure Attached (c : Plugin.Client Link) : Prop where
  conn : c.session.net.joined = true → c.sockets.conn ≠ 0
  udp : c.session.net.joined = true → c.sockets.udp ≠ none
  token : c.session.net.udpBound = true → c.session.net.udpToken ≠ 0
  welcomes : ∀ w ∈ Call.welcomes c, w.udpToken ≠ 0
  quiet : ∀ x ∈ c.sockets.up, x.1 = c.sockets.conn → x.2 ≠ .closed ∧ ∀ data, x.2 = .frame data → ¬ typeIs .Bye data

/-- The connections are in order. -/
structure Linked (w : Joint) : Prop where
  numbered : Numbered [] w
  attached : Attached w.client

theorem linked_start (b : Startup) (settings : Settings) : Linked (start b settings) where
  numbered := {
    wf := wellFormed_initial b
    tokened := fun p e h => by simp [start, sessions, liveOf, Startup.runtime, initial] at h
    owned := by
      have howned : SessionTable.Owned ([].flatMap acceptedConn) (runFrom b []).sessions :=
        run_owned b ⟨List.nodup_nil, List.not_mem_nil⟩
      exact ⟨[], howned, List.nodup_nil, fun _ h => by cases h⟩
    zero := List.not_mem_nil
    mine := fun _ h => h
    up_mine := fun _ h => by cases h
    conn_mine := fun h => absurd rfl h }
  attached := {
    conn := fun h => by cases h
    udp := fun h => by cases h
    token := fun h => by cases h
    welcomes := fun _ h => by cases h
    quiet := fun _ h => by cases h }

theorem acceptsOf_append (up up' : List (ConnId × UpItem)) : acceptsOf (up ++ up') = acceptsOf up ++ acceptsOf up' :=
  List.filterMap_append

theorem acceptsOf_framesOn (conn : ConnId) (frames : List Bytes) : acceptsOf (framesOn conn frames) = [] := by
  simp [acceptsOf, framesOn]

theorem acceptsOf_parting {conn : ConnId} {items : List (ConnId × UpItem)} (h : Parting conn items) : acceptsOf items = [] := by
  refine List.filterMap_eq_nil_iff.mpr fun x hm => ?_
  obtain ⟨-, -, hacc⟩ := h x hm
  obtain ⟨c, item⟩ := x
  cases item with
  | accept addr => exact absurd rfl (hacc addr)
  | _ => rfl

/-- The client puts items on its own connections, and new connections get new numbers. -/
theorem Numbered.call {w : Joint} (h : Numbered [] w) {c' : Plugin.Client Link} {new : List ConnId} {items : List (ConnId × UpItem)}
    (hnew : ∀ c ∈ new, c ≠ 0 ∧ c ∉ w.taken) (hup : c'.sockets.up = w.client.sockets.up ++ items)
    (hitems : ∀ x ∈ items, x.1 ∈ w.mine ++ new) (haccepts : acceptsOf items ⊆ new) (hnodup : (acceptsOf items).Nodup)
    (hconn : c'.sockets.conn ≠ 0 → c'.sockets.conn ∈ w.mine ++ new) :
    Numbered [] { w with client := c', mine := w.mine ++ new, taken := w.taken ++ new } where
  wf := h.wf
  tokened := h.tokened
  owned := by
    obtain ⟨used, ho, hnd, htaken⟩ := h.owned
    dsimp only
    rw [hup, acceptsOf_append]
    simp only [List.nil_append, ← List.append_assoc] at hnd htaken ⊢
    refine ⟨used, ho, hnd.append hnodup fun c hc hc' => (hnew c (haccepts hc')).2 (htaken c hc), fun c hc => ?_⟩
    rcases List.mem_append.mp hc with hc | hc
    · exact List.mem_append_left _ (htaken c hc)
    · exact List.mem_append_right _ (haccepts hc)
  zero h0 := (List.mem_append.mp h0).elim h.zero fun h0 => (hnew 0 h0).1 rfl
  mine c hc := (List.mem_append.mp hc).elim (fun hc => List.mem_append_left _ (h.mine hc)) (List.mem_append_right _)
  up_mine x hx := by
    dsimp only at hx
    rw [hup] at hx
    exact (List.mem_append.mp hx).elim (fun hx => List.mem_append_left _ (h.up_mine x hx)) (hitems x)
  conn_mine := hconn

theorem Attached.steady {c c' : Plugin.Client Link} (h : Attached c) (hk : Steady c c') : Attached c' where
  conn hj := by
    rw [hk.conn]
    exact h.conn (hk.joined hj)
  udp hj := by
    rw [hk.udp]
    exact h.udp (hk.joined hj)
  token := hk.token h.welcomes h.token
  welcomes w hm := h.welcomes w (hk.welcomes hm)
  quiet x hx hc := by
    obtain ⟨frames, hup, hbye, -⟩ := hk.up
    rw [hup] at hx
    rw [hk.conn] at hc
    rcases List.mem_append.mp hx with hx | hx
    · exact h.quiet x hx hc
    · obtain ⟨data, hd, rfl⟩ := List.mem_map.mp hx
      refine ⟨nofun, fun data' he => ?_⟩
      cases he
      exact hbye data hd

theorem Numbered.no_session {w : Joint} (h : Numbered [] w) {c : ConnId} (hc : c ∉ w.taken) {p : PeerId} {e : Endpoint}
    (he : w.server.sessions.live p = some e) : e.conn ≠ c := by
  obtain ⟨used, ho, -, htaken⟩ := h.owned
  rintro rfl
  exact hc (htaken _ (List.mem_append_left _ (ho.live_used he)))

theorem Numbered.ne_zero {w : Joint} {coming : List ConnId} (h : Numbered coming w) {c : ConnId} (hc : c ∈ w.mine) : c ≠ 0 :=
  fun h0 => h.zero (h.mine (h0 ▸ hc))

theorem CanCall.fresh {w : Joint} {os : Answers} {a : Call} (h : w.CanCall os a) : ∀ c ∈ opens os a, c ≠ 0 ∧ c ∉ w.taken := by
  intro c hc
  refine ⟨?_, h.2 c hc⟩
  cases a with
  | join game flags =>
    rw [List.mem_singleton.mp hc]
    exact h.1
  | _ => cases hc

theorem Attached.answered {c : Plugin.Client Link} (h : Attached c) (os : Answers) : Attached { c with sockets.os := os } :=
  ⟨h.conn, h.udp, h.token, h.welcomes, h.quiet⟩

theorem Linked.call {w : Joint} (h : Linked w) {os : Answers} {a : Call} (hcan : w.CanCall os a) :
    Linked { w with
      client := a.run { w.client with sockets.os := os }, mine := w.mine ++ opens os a, taken := w.taken ++ opens os a } := by
  have hfresh := hcan.fresh
  have hattached := h.attached.answered os
  have houtcome := run_outcome (a := a) (c := { w.client with sockets.os := os }) hattached.welcomes hattached.udp hcan.1
  generalize a.run { w.client with sockets.os := os } = c' at houtcome
  cases houtcome with
  | steady hsteady =>
    obtain ⟨frames, hup, -, h0⟩ := hsteady.up
    refine ⟨h.numbered.call hfresh hup (fun x hx => ?_) ?_ ?_ fun hc => ?_, hattached.steady hsteady⟩
    · obtain ⟨data, hd, rfl⟩ := List.mem_map.mp hx
      exact List.mem_append_left _ (h.numbered.conn_mine (h0 (List.ne_nil_of_mem hd)))
    · rw [acceptsOf_framesOn]
      exact List.nil_subset _
    · rw [acceptsOf_framesOn]
      exact List.nodup_nil
    · rw [hsteady.conn] at hc ⊢
      exact List.mem_append_left _ (h.numbered.conn_mine hc)
  | hung hhung =>
    obtain ⟨items, hup, hparting⟩ := hhung.up
    have hnumbered := h.numbered.call hfresh hup (fun x hx => ?_) ?_ ?_ fun hc => absurd hhung.conn hc
    · refine ⟨hnumbered, ⟨fun hj => ?_, fun hj => ?_, fun hb => ?_, fun w hm => ?_, fun x hx hc => ?_⟩⟩
      · exact absurd (hj.symm.trans hhung.joined) (by decide)
      · exact absurd (hj.symm.trans hhung.joined) (by decide)
      · exact absurd (hb.symm.trans hhung.udpBound) (by decide)
      · exact h.attached.welcomes w ((hhung.down.filterMap welcomeIn).subset hm)
      · exact absurd (hc.trans hhung.conn) (hnumbered.ne_zero (hnumbered.up_mine x hx))
    · obtain ⟨he, h0, -⟩ := hparting x hx
      rw [he]
      exact List.mem_append_left _ (h.numbered.conn_mine h0)
    · rw [acceptsOf_parting hparting]
      exact List.nil_subset _
    · rw [acceptsOf_parting hparting]
      exact List.nodup_nil
  | opened hopened h0 game flags ha =>
    subst ha
    obtain ⟨items, data, hup, hparting, hbye⟩ := hopened.up
    rw [List.append_assoc] at hup
    have haccepts : acceptsOf (items ++ [(os.newConn, .accept os.tcpAddr), (os.newConn, .frame data)]) = [os.newConn] := by
      rw [acceptsOf_append, acceptsOf_parting hparting]
      rfl
    have hnew : os.newConn ∉ w.taken := hcan.2 _ (List.mem_singleton.mpr rfl)
    refine ⟨h.numbered.call hfresh hup (fun x hx => ?_) ?_ ?_ fun _ => ?_, ⟨fun _ => ?_, fun _ => hopened.udp, fun hb => ?_, ?_,
      fun x hx hc => ?_⟩⟩
    · rcases List.mem_append.mp hx with hx | hx
      · obtain ⟨he, h0, -⟩ := hparting x hx
        rw [he]
        exact List.mem_append_left _ (h.numbered.conn_mine h0)
      · refine List.mem_append_right _ (List.mem_singleton.mpr ?_)
        rcases List.mem_cons.mp hx with rfl | hx
        · rfl
        · rw [List.mem_singleton.mp hx]
    · rw [haccepts]
      exact fun _ hm => hm
    · rw [haccepts]
      exact List.nodup_singleton _
    · rw [hopened.conn]
      exact List.mem_append_right _ (List.mem_singleton.mpr rfl)
    · rw [hopened.conn]
      exact h0
    · exact absurd (hb.symm.trans hopened.udpBound) (by decide)
    · rw [Call.welcomes, hopened.down]
      intro _ h
      cases h
    · dsimp only at hx
      rw [hopened.conn] at hc
      rw [hup] at hx
      rcases List.mem_append.mp hx with hx | hx
      · exact absurd (h.numbered.mine (h.numbered.up_mine x hx)) (hc ▸ hnew)
      · rcases List.mem_append.mp hx with hx | hx
        · obtain ⟨he, h0, -⟩ := hparting x hx
          exact absurd (h.numbered.mine (h.numbered.conn_mine h0)) (by rw [← show x.1 = w.client.sockets.conn from he, hc]; exact hnew)
        · rcases List.mem_cons.mp hx with rfl | hx
          · exact ⟨by simp, by simp⟩
          · rw [List.mem_singleton.mp hx]
            refine ⟨by simp, fun data' he => ?_⟩
            cases he
            exact hbye

theorem receive_link (w : Link) (cmds : List OutboundCmd) : (w.receive cmds).conn = w.conn ∧ (w.receive cmds).udp = w.udp ∧
    (w.receive cmds).up = w.up ∧ (w.receive cmds).air = w.air := by
  by_cases h0 : w.conn = 0
  · rw [Link.receive_of_none h0]
    exact ⟨rfl, rfl, rfl, rfl⟩
  · cases hopen : w.closed with
    | true =>
      rw [Link.receive_of_closed hopen]
      exact ⟨rfl, rfl, rfl, rfl⟩
    | false =>
      rcases Link.receive_cases h0 hopen cmds with ⟨-, he⟩ | ⟨frames, -, he⟩ <;> rw [he] <;> exact ⟨rfl, rfl, rfl, rfl⟩

theorem Numbered.tell {w : Joint} {i : Env × ServerRuntime.Input} (h : Numbered (acceptedConn i) w) : Numbered [] (w.tell i) where
  wf := h.wf.step i
  tokened := h.tokened.step h.wf i
  owned := by
    obtain ⟨used, ho, hnd, htaken⟩ := h.owned
    rw [← List.append_assoc] at hnd htaken
    have hused := (List.nodup_append.mp hnd).1
    rw [← accepted_stepMoves w.server i] at hused hnd htaken
    refine ⟨_, (step_simulates h.wf i).steps.owned ho hused (List.nodup_append.mp hused).1, ?_⟩
    rw [List.nil_append, Joint.tell, (receive_link w.client.sockets _).2.2.1]
    exact ⟨hnd, htaken⟩
  zero := h.zero
  mine := h.mine
  up_mine := by
    rw [Joint.tell, (receive_link w.client.sockets _).2.2.1]
    exact h.up_mine
  conn_mine := by
    rw [Joint.tell, (receive_link w.client.sockets _).1]
    exact h.conn_mine

theorem Attached.tell {w : Joint} {i : Env × ServerRuntime.Input} (hw : WellFormed w.server) (htokened : Tokened w.server)
    (h : Attached w.client) : Attached (w.tell i).client := by
  obtain ⟨hconn, hudp, hup, -⟩ := receive_link w.client.sockets (w.server.step i).outbound
  refine ⟨fun hj => ?_, fun hj => ?_, h.token, fun m hm => ?_, fun x hx hc => ?_⟩
  · exact hconn.symm ▸ h.conn hj
  · exact hudp.symm ▸ h.udp hj
  · by_cases h0 : w.client.sockets.conn = 0
    · rw [Joint.tell, Call.welcomes, Link.receive_of_none h0] at hm
      exact h.welcomes m hm
    · cases hopen : w.client.sockets.closed with
      | true =>
        rw [Joint.tell, Call.welcomes, Link.receive_of_closed hopen] at hm
        exact h.welcomes m hm
      | false =>
        obtain ⟨frames, hsub, he⟩ : ∃ frames, frames ⊆ framesTo w.client.sockets.conn (w.server.step i).outbound ∧
            (w.client.sockets.receive (w.server.step i).outbound).down = w.client.sockets.down ++ frames := by
          rcases Link.receive_cases h0 hopen (w.server.step i).outbound with ⟨-, he⟩ | ⟨frames, hsub, he⟩
          · exact ⟨_, List.Subset.refl _, by rw [he]⟩
          · exact ⟨frames, hsub, by rw [he]⟩
        rw [Joint.tell, Call.welcomes, he, List.filterMap_append] at hm
        rcases List.mem_append.mp hm with hm | hm
        · exact h.welcomes m hm
        · obtain ⟨data, hd, hin⟩ := List.mem_filterMap.mp hm
          obtain ⟨p, c, isNew, hl, rfl⟩ := welcomesTo_live hw h0 (List.mem_filterMap.mpr ⟨data, hsub hd, hin⟩)
          exact htokened.step hw i p _ (liveOf_some hl)
  · exact h.quiet x (hup ▸ hx) (hc.trans hconn)

theorem takeItem_spec {c : ConnId} {up rest : List (ConnId × UpItem)} {item : UpItem} (h : takeItem c up = some (item, rest)) :
    up.Perm ((c, item) :: rest) := by
  induction up generalizing item rest with
  | nil => cases h
  | cons x up ih =>
    rw [takeItem] at h
    split at h
    · rename_i hx
      cases h
      rw [← hx]
    · obtain ⟨⟨item', rest'⟩, hr, he⟩ := Option.map_eq_some_iff.mp h
      cases he
      exact ((ih hr).cons x).trans (.swap _ _ _)

theorem acceptedConn_event (env : Env) (c : ConnId) (stamp : PeerId) (item : UpItem) (t : Time) :
    acceptedConn (env, .inbound (item.event c stamp) t) = acceptsOf [(c, item)] := by
  cases item <;> rfl

theorem Linked.taken {w : Joint} (h : Linked w) {c : ConnId} {item : UpItem} {up : List (ConnId × UpItem)}
    (hr : takeItem c w.client.sockets.up = some (item, up)) (env : Env) (t : Time) (stamp : PeerId) :
    Numbered (acceptedConn (env, .inbound (item.event c stamp) t)) { w with client.sockets.up := up } ∧
      Attached { w.client with sockets.up := up } := by
  have hperm := takeItem_spec hr
  have hrest : ∀ x ∈ up, x ∈ w.client.sockets.up := fun x hx => hperm.mem_iff.mpr (List.mem_cons_of_mem _ hx)
  have haccepts : (acceptsOf w.client.sockets.up).Perm (acceptsOf [(c, item)] ++ acceptsOf up) := by
    rw [← acceptsOf_append]
    exact hperm.filterMap _
  obtain ⟨used, ho, hnd, htaken⟩ := h.numbered.owned
  rw [acceptedConn_event]
  refine ⟨⟨h.numbered.wf, h.numbered.tokened,
    ⟨used, ho, (haccepts.append_left used).nodup hnd, fun d hd => htaken d ((haccepts.append_left used).mem_iff.mpr hd)⟩,
    h.numbered.zero, h.numbered.mine, fun x hx => h.numbered.up_mine x (hrest x hx), h.numbered.conn_mine⟩, ?_⟩
  exact ⟨h.attached.conn, h.attached.udp, h.attached.token, h.attached.welcomes, fun x hx => h.attached.quiet x (hrest x hx)⟩

theorem Linked.aired {w : Joint} (h : Linked w) (air : List (SockAddr × Bytes)) : Linked { w with client.sockets.air := air } where
  numbered := ⟨h.numbered.wf, h.numbered.tokened, h.numbered.owned, h.numbered.zero, h.numbered.mine, h.numbered.up_mine,
    h.numbered.conn_mine⟩
  attached := ⟨h.attached.conn, h.attached.udp, h.attached.token, h.attached.welcomes, h.attached.quiet⟩

theorem Linked.numbered_other {w : Joint} (h : Linked w) {i : Env × ServerRuntime.Input} (hi : w.IsOther i.2) :
    Numbered (acceptedConn i) { w with taken := w.taken ++ acceptedConn i } := by
  have hfresh : ∀ c ∈ acceptedConn i, c ≠ 0 ∧ c ∉ w.taken := by
    intro c hc
    obtain ⟨env, i⟩ := i
    cases i with
    | inbound ev t =>
      rw [acceptedConn] at hc
      split at hc
      · rename_i hkind
        rw [List.mem_singleton.mp hc]
        exact hi.1 hkind
      · cases hc
    | _ => cases hc
  have hone : (acceptedConn i).Nodup := by
    obtain ⟨env, i⟩ := i
    cases i with
    | inbound ev t =>
      rw [acceptedConn]
      split
      · exact List.nodup_singleton _
      · exact List.nodup_nil
    | _ => exact List.nodup_nil
  obtain ⟨used, ho, hnd, htaken⟩ := h.numbered.owned
  rw [List.nil_append] at hnd htaken
  have hperm : (used ++ (acceptedConn i ++ acceptsOf w.client.sockets.up)).Perm
      (acceptedConn i ++ (used ++ acceptsOf w.client.sockets.up)) := by
    rw [← List.append_assoc, ← List.append_assoc]
    exact List.perm_append_comm.append_right _
  refine ⟨h.numbered.wf, h.numbered.tokened, ⟨used, ho, ?_, fun c hc => ?_⟩, fun h0 => ?_, fun c hc => ?_, h.numbered.up_mine,
    h.numbered.conn_mine⟩
  · exact hperm.nodup_iff.mpr (hone.append hnd fun c hc hc' => (hfresh c hc).2 (htaken c hc'))
  · rcases List.mem_append.mp (hperm.mem_iff.mp hc) with hc | hc
    · exact List.mem_append_right _ hc
    · exact List.mem_append_left _ (htaken c hc)
  · exact (List.mem_append.mp h0).elim h.numbered.zero fun h0 => (hfresh 0 h0).1 rfl
  · exact List.mem_append_left _ (h.numbered.mine hc)

theorem Linked.tell {w : Joint} {i : Env × ServerRuntime.Input} (hn : Numbered (acceptedConn i) w) (ha : Attached w.client) :
    Linked (w.tell i) := ⟨hn.tell, ha.tell hn.wf hn.tokened⟩

/-- The connections stay in order. -/
theorem Linked.step {w : Joint} (h : Linked w) (a : Action) : Linked (w.step a) := by
  cases a with
  | call os a =>
    rw [Joint.step]
    split
    · rename_i hcan
      exact h.call hcan
    · exact h
  | serve c env t stamp =>
    rw [Joint.step]
    split
    · exact h
    · rename_i item up hr
      obtain ⟨hnumbered, hattached⟩ := h.taken hr env t stamp
      exact .tell hnumbered hattached
  | arrive n env t =>
    rw [Joint.step]
    split
    · exact h
    · have haired := h.aired (w.client.sockets.air.eraseIdx n)
      exact .tell haired.numbered haired.attached
  | lose n => exact h.aired _
  | other i =>
    rw [Joint.step]
    split
    · rename_i hi
      exact .tell (h.numbered_other hi) h.attached
    · exact h

def outdoors : LocalGame := { world := { location := kCommonwealthWorldspace, inWorld := true } }

def firstAnswers : Answers := { newConn := 1, tcpAddr := ⟨10, 0, 0, 1, 1000⟩, udpAddr := ⟨10, 0, 0, 1, 2000⟩ }

def onePlayer : Joint := start freshStart { playerKey := ascii "a" }

end Joint
end CommonwealthMP
