import CommonwealthMP.MenuFlow

/-! # Where the menu's flow gets stuck

The forms open only from the idle state, while a flow that ended rests in `Done` or `Failed`: the
calls after which the player can neither join nor host, and that there are no others. -/
namespace CommonwealthMP.MenuFlow
open ByteLayout QueryVerdict StepRuns

variable {σ : Type} (S : Plugin.Sockets σ)

def Menu.Opens (form : MenuForm) (m : Menu σ) : Prop := m.menuForm = form ∧ m.menuPopupQueued = true

/-- With no join on the way and no session, either form opens. -/
def Reopens (m : Menu σ) : Prop :=
  m.joinPending = false → m.joined = false →
    ∀ ctx, (m.openJoinFlow ctx).Opens .Join ∧ (m.openHostFlow ctx).Opens .Host

def Flow.Ended (flow : Flow) : Prop := flow = .Done ∨ flow = .Failed

instance (flow : Flow) : Decidable flow.Ended := inferInstanceAs (Decidable (_ ∨ _))

/-- The calls that end the flow, or the session of a flow that has ended, with no session left. -/
def DeadEnd (m : Menu σ) : MenuCall σ → Prop
  | .tickFlow world =>
    match m.flow with
    | .Querying =>
      let polled := queryPoll S { info := blankInfo } m.query
      polled.1 = true ∧ polled.2.1.ok = true ∧ m.joinContext = .InGame ∧ (Plugin.join S world.game 0 polled.2.2.client).1 = false
    | .StartingGame => m.TimedOut S 30 ∧ m.joined = false
    | .WaitWorld => world.playerInCell = false ∧ m.TimedOut S 90 ∧ m.joined = false
    | .WaitSkip => world.inCommonwealth = false ∧ m.TimedOut S 60 ∧ m.joined = false
    | .Joining =>
      if world.inCommonwealth then (Plugin.join S world.game kHelloFlagRequireHost m.query.client).1 = false
      else m.TimedOut S 20 ∧ m.joined = false
    | _ => False
  | .menuHostJoinAfterLoad game =>
    m.flow.Ended ∧ m.pendingMenuHostJoin = true ∧ (Plugin.join S game 0 m.query.client).1 = false
  | .disconnectSession => m.flow.Ended
  | .netPoll game => m.flow.Ended ∧ (Plugin.netPoll S game m.query.client).session.net.joined = false
  | _ => False

section Calls
variable {S}

theorem join_joined (game : Plugin.LocalGame) (flags : UInt8) (c : Plugin.Client σ) :
    (Plugin.join S game flags c).2.session.net.joined = (Plugin.join S game flags c).1 := by
  have hleft := Plugin.leave_joined (S := S) c
  unfold Plugin.join
  dsimp only
  split
  · exact hleft
  · split
    · exact hleft
    · split
      · exact hleft
      · split
        · exact hleft
        · rfl

structure Joins (ok : Bool) (m m' : Menu σ) : Prop where
  joined : m'.joined = ok
  flow : m'.flow = m.flow
  menuForm : m'.menuForm = m.menuForm
  menuJoin : m'.menuJoin = false

/-- What a join that ends the flow leaves of it. -/
structure JoinEnds (ok : Bool) (m m' : Menu σ) : Prop where
  joined : m'.joined = ok
  flow : m'.flow = if ok then .Done else .Failed
  menuForm : m'.menuForm = m.menuForm
  menuJoin : m'.menuJoin = false

theorem Menu.join_cases (game : Plugin.LocalGame) (flags : UInt8) (m : Menu σ) :
    ∃ m', m.join S game flags = ((Plugin.join S game flags m.query.client).1, m') ∧
      Joins (Plugin.join S game flags m.query.client).1 m m' :=
  ⟨_, rfl, join_joined game flags m.query.client, rfl, rfl, rfl⟩

theorem Menu.joinAsHost_joins (game : Plugin.LocalGame) (m : Menu σ) :
    Joins (Plugin.join S game 0 m.query.client).1 m (m.joinAsHost S game) := by
  obtain ⟨m', hjoin, hm'⟩ := m.join_cases (S := S) game 0
  rw [Menu.joinAsHost, hjoin]
  generalize (Plugin.join S game 0 m.query.client).1 = ok at hm' ⊢
  cases ok with
  | true => exact ⟨hm'.joined, hm'.flow, hm'.menuForm, hm'.menuJoin⟩
  | false => exact ⟨hm'.joined, hm'.flow, hm'.menuForm, hm'.menuJoin⟩

theorem Menu.joinAfterQuery_ends (game : Plugin.LocalGame) (m : Menu σ) :
    JoinEnds (Plugin.join S game 0 m.query.client).1 m (m.joinAfterQuery S game) := by
  obtain ⟨m', hjoin, hm'⟩ := m.join_cases (S := S) game 0
  rw [Menu.joinAfterQuery, hjoin]
  generalize (Plugin.join S game 0 m.query.client).1 = ok at hm' ⊢
  cases ok with
  | true => exact ⟨hm'.joined, rfl, hm'.menuForm, hm'.menuJoin⟩
  | false => exact ⟨hm'.joined, rfl, hm'.menuForm, hm'.menuJoin⟩

theorem Menu.tickJoining_ends (world : FlowWorld) (m : Menu σ) (hthere : world.inCommonwealth = true) :
    JoinEnds (Plugin.join S world.game kHelloFlagRequireHost m.query.client).1 m (m.tickJoining S world) := by
  obtain ⟨m', hjoin, hm'⟩ := m.join_cases (S := S) world.game kHelloFlagRequireHost
  rw [Menu.tickJoining, if_neg (by simp [hthere]), hjoin]
  generalize (Plugin.join S world.game kHelloFlagRequireHost m.query.client).1 = ok at hm' ⊢
  cases ok with
  | true => exact ⟨hm'.joined, rfl, hm'.menuForm, rfl⟩
  | false => exact ⟨hm'.joined, rfl, hm'.menuForm, rfl⟩

end Calls

/-- A form is up only before a flow, and a new game is on the way only within one. -/
structure Tidy (m : Menu σ) : Prop where
  closed : m.flow ≠ .Idle → m.menuForm = .None
  menuJoin : m.menuJoin = true → m.joinPending = true

theorem tidy_started (settings : Plugin.Settings) (sockets : σ) : Tidy (started settings sockets) where
  closed := fun h => absurd rfl h
  menuJoin := fun h => absurd h Bool.false_ne_true

/-- The flow rests, and no form comes up in the middle of one. -/
theorem Tidy.rest {m m' : Menu σ} (h : Tidy m) (hflow : m'.flow = m.flow)
    (hform : m.flow ≠ .Idle → m'.menuForm = m.menuForm ∨ m'.menuForm = .None) (hjoin : m'.menuJoin = true → m.menuJoin = true) :
    Tidy m' where
  closed := by
    intro hne
    rw [hflow] at hne
    rcases hform hne with hf | hf
    · exact hf.trans (h.closed hne)
    · exact hf
  menuJoin := by
    intro hm
    rw [Menu.joinPending, hflow]
    exact h.menuJoin (hjoin hm)

theorem Tidy.move {m m' : Menu σ} (h : Tidy m) (hne : m.flow ≠ .Idle) (hform : m'.menuForm = m.menuForm)
    (hjoin : m'.menuJoin = true → m'.joinPending = true) : Tidy m' where
  closed := fun _ => hform.trans (h.closed hne)
  menuJoin := hjoin

theorem Tidy.ends {m m' : Menu σ} {ok : Bool} (h : Tidy m) (hne : m.flow ≠ .Idle) (hends : JoinEnds ok m m') : Tidy m' :=
  h.move hne hends.menuForm fun hjoin => absurd (hends.menuJoin.symm.trans hjoin) Bool.false_ne_true

theorem Tidy.fail {m : Menu σ} (h : Tidy m) (hne : m.flow ≠ .Idle) (text : Bytes) : Tidy (m.fail S text) :=
  h.move hne rfl fun hjoin => absurd hjoin Bool.false_ne_true

theorem Tidy.timeout {m : Menu σ} (h : Tidy m) (hne : m.flow ≠ .Idle) (text : Bytes) (seconds : Time) :
    Tidy (if m.TimedOut S seconds then m.fail S text else m) := by
  split
  · exact h.fail S hne text
  · exact h

theorem Tidy.onQueryFinished {m : Menu σ} (h : Tidy m) (hne : m.flow ≠ .Idle) (game : Plugin.LocalGame) (r : SessionQueryResult) :
    Tidy (m.onQueryFinished S game r) := by
  unfold Menu.onQueryFinished
  split
  · exact h.move hne rfl fun hjoin => absurd hjoin Bool.false_ne_true
  · dsimp only
    split
    · have hanswer : Tidy (m.setStatus (Menu.queryAnswer r)) := h.rest rfl (fun _ => .inl rfl) id
      exact hanswer.ends hne (Menu.joinAfterQuery_ends game _)
    · exact h.move hne rfl fun _ => rfl

theorem Tidy.tickWaitSkip {m : Menu σ} (h : Tidy m) (hne : m.flow ≠ .Idle) (world : FlowWorld) : Tidy (m.tickWaitSkip S world) := by
  have hpending : ∀ looksOpen : Bool, (m.setFlow S (if looksOpen then .WaitLooks else .Looks)).joinPending = true := by
    intro looksOpen
    cases looksOpen <;> rfl
  unfold Menu.tickWaitSkip
  cases world.inCommonwealth with
  | false => exact h.timeout S hne _ _
  | true =>
    rw [if_pos rfl]
    dsimp only
    generalize m.looksOpen = looksOpen
    have hlooks : Tidy (m.setFlow S (if looksOpen then .WaitLooks else .Looks)) := h.move hne rfl fun _ => hpending looksOpen
    have hmoving : ∀ looksOpen : Bool, (if looksOpen then Flow.WaitLooks else .Looks) ≠ .Idle := by decide
    exact hlooks.timeout S (hmoving looksOpen) _ _

theorem Tidy.tickJoining {m : Menu σ} (h : Tidy m) (hne : m.flow ≠ .Idle) (world : FlowWorld) : Tidy (m.tickJoining S world) := by
  cases hthere : world.inCommonwealth with
  | true => exact h.ends hne (m.tickJoining_ends world hthere)
  | false =>
    rw [Menu.tickJoining, if_pos (by simp [hthere])]
    exact h.timeout S hne _ _

theorem Tidy.tickFlow {m : Menu σ} (h : Tidy m) (world : FlowWorld) : Tidy (m.tickFlow S world) := by
  by_cases hne : m.flow = .Idle
  · rw [Menu.tickFlow, hne]
    exact h
  · unfold Menu.tickFlow
    split
    · exact h
    · exact h
    · exact h
    · unfold Menu.tickQuerying
      split
      · rename_i query _
        have hpolled : Tidy { m with query := query } := h.rest rfl (fun _ => .inl rfl) id
        exact hpolled.onQueryFinished S hne _ _
      · exact h.rest rfl (fun _ => .inl rfl) id
    · exact h.timeout S hne _ _
    · split
      · exact h.move hne rfl fun _ => rfl
      · exact h.timeout S hne _ _
    · exact h.move hne rfl fun _ => rfl
    · exact h.tickWaitSkip S hne world
    · exact h.move hne rfl fun _ => rfl
    · split
      · exact h.move hne rfl fun _ => rfl
      · exact h
    · exact h.move hne rfl fun _ => rfl
    · split
      · exact h.move hne rfl fun _ => rfl
      · exact h
    · refine h.move hne ?_ fun _ => rfl
      unfold Menu.copyChargenName
      split <;> rfl
    · exact h.tickJoining S hne world

theorem Tidy.joinAsHost {m : Menu σ} (h : Tidy m) (game : Plugin.LocalGame) : Tidy (m.joinAsHost S game) := by
  have hjoins := m.joinAsHost_joins (S := S) game
  exact h.rest hjoins.flow (fun _ => .inl hjoins.menuForm) fun hj => absurd (hjoins.menuJoin.symm.trans hj) Bool.false_ne_true

theorem Tidy.confirmHost {m : Menu σ} (h : Tidy m) (typed : JoinFields) (launched : Option Bytes) (game : Plugin.LocalGame) :
    Tidy (m.confirmHost S typed launched game) := by
  have hclosed : ∀ {m' : Menu σ}, m'.flow = m.flow → m'.menuJoin = m.menuJoin → m'.menuForm = m.menuForm ∨ m'.menuForm = .None →
      Tidy m' := fun hflow hjoin hform => h.rest hflow (fun _ => hform) fun hj => hjoin ▸ hj
  unfold Menu.confirmHost
  split
  · exact hclosed rfl rfl (.inl rfl)
  · split
    · exact hclosed rfl rfl (.inl rfl)
    · dsimp only
      split
      · exact hclosed rfl rfl (.inl rfl)
      · split
        · split
          · exact hclosed rfl rfl (.inl rfl)
          · exact hclosed rfl rfl (.inr rfl)
        · refine Tidy.joinAsHost S ?_ game
          exact hclosed rfl rfl (.inr rfl)

theorem Tidy.step {m : Menu σ} (h : Tidy m) (call : MenuCall σ) : Tidy (m.step S call) := by
  cases call with
  | openJoinFlow ctx =>
    change Tidy (m.openJoinFlow ctx)
    unfold Menu.openJoinFlow
    dsimp only
    split
    · exact h.rest rfl (fun _ => .inl rfl) id
    · rename_i hidle
      exact h.rest rfl (fun hne => absurd hne hidle) id
  | openHostFlow ctx =>
    change Tidy (m.openHostFlow ctx)
    unfold Menu.openHostFlow
    split
    · exact h.rest rfl (fun _ => .inl rfl) id
    · split
      · exact h
      · rename_i hidle
        exact h.rest rfl (fun hne => absurd hne hidle) id
  | confirmJoin typed steam =>
    change Tidy (m.confirmJoin S typed steam)
    unfold Menu.confirmJoin
    split
    · exact h.rest rfl (fun _ => .inl rfl) id
    · exact ⟨fun _ => rfl, fun _ => rfl⟩
  | confirmHost typed launched game => exact h.confirmHost S typed launched game
  | cancel => exact h.rest rfl (fun _ => .inr rfl) id
  | drawForms saves clicked =>
    change Tidy (m.drawForms saves clicked)
    unfold Menu.drawForms
    split
    · exact h
    · dsimp only
      split
      · exact h.rest rfl (fun _ => .inl rfl) id
      · split <;> exact h.rest rfl (fun _ => .inl rfl) id
  | tickFlow world => exact h.tickFlow S world
  | menuOnNewGame =>
    change Tidy (m.menuOnNewGame S)
    unfold Menu.menuOnNewGame
    split
    · rename_i hnew
      have hne : m.flow ≠ .Idle := by
        intro hidle
        rcases hnew with hf | hj
        · cases hidle.symm.trans hf
        · have hpending := h.menuJoin hj
          rw [Menu.joinPending, hidle] at hpending
          exact Bool.false_ne_true hpending
      exact h.move hne rfl fun _ => rfl
    · exact h
  | menuHostJoinAfterLoad game =>
    change Tidy (m.menuHostJoinAfterLoad S game)
    unfold Menu.menuHostJoinAfterLoad
    split
    · exact h
    · refine Tidy.joinAsHost S ?_ game
      exact h.rest rfl (fun _ => .inl rfl) id
  | disconnectSession => exact h.rest rfl (fun _ => .inl rfl) fun hj => absurd hj Bool.false_ne_true
  | netPoll game => exact h.rest rfl (fun _ => .inl rfl) fun hj => (Bool.and_eq_true_iff.mp hj).1
  | processEvent menu opening =>
    change Tidy (m.processEvent menu opening)
    cases menu with
    | MainMenu => cases opening <;> exact h.rest rfl (fun _ => .inr rfl) id
    | LooksMenu => exact h.rest rfl (fun _ => .inl rfl) id
    | SPECIALMenu => exact h.rest rfl (fun _ => .inl rfl) id
  | network sockets => exact h.rest rfl (fun _ => .inl rfl) id

/-- A flow that ended with no session. -/
structure Stuck (m : Menu σ) : Prop where
  ended : m.flow.Ended
  joined : m.joined = false

theorem reopens_iff {m : Menu σ} (h : Tidy m) : Reopens m ↔ ¬ Stuck m := by
  constructor
  · rintro hopens ⟨hended, hjoined⟩
    have hidle : m.flow ≠ .Idle := by
      rcases hended with hf | hf <;> rw [hf] <;> decide
    have hpending : m.joinPending = false := by
      rcases hended with hf | hf <;> rw [Menu.joinPending, hf] <;> rfl
    obtain ⟨⟨hform, -⟩, -⟩ := hopens hpending hjoined .InGame
    rw [Menu.openJoinFlow, if_pos hidle] at hform
    cases (h.closed hidle).symm.trans hform
  · intro hstuck hpending hjoined ctx
    have hidle : m.flow = .Idle := by
      by_contra hne
      have hended : ¬ m.flow.Ended := fun hf => hstuck ⟨hf, hjoined⟩
      rw [Flow.Ended, not_or] at hended
      exact absurd hpending (by simp [Menu.joinPending, hne, hended])
    constructor
    · rw [Menu.openJoinFlow, if_neg (not_not.mpr hidle)]
      exact ⟨rfl, rfl⟩
    · rw [Menu.openHostFlow, if_neg (by simp [hjoined]), if_neg (not_not.mpr hidle)]
      exact ⟨rfl, rfl⟩

/-- Opening a form leaves the flow and the session alone, as drawing one and the game's own menus do. -/
theorem Menu.openJoinFlow_flow (ctx : JoinContext) (m : Menu σ) :
    (m.openJoinFlow ctx).flow = m.flow ∧ (m.openJoinFlow ctx).joined = m.joined := by
  unfold Menu.openJoinFlow
  dsimp only
  split <;> exact ⟨rfl, rfl⟩

theorem Menu.openHostFlow_flow (ctx : JoinContext) (m : Menu σ) :
    (m.openHostFlow ctx).flow = m.flow ∧ (m.openHostFlow ctx).joined = m.joined := by
  unfold Menu.openHostFlow
  split
  · exact ⟨rfl, rfl⟩
  · split <;> exact ⟨rfl, rfl⟩

theorem Menu.drawForms_flow (saves : List ℤ) (clicked : Option ℤ) (m : Menu σ) :
    (m.drawForms saves clicked).flow = m.flow ∧ (m.drawForms saves clicked).joined = m.joined := by
  unfold Menu.drawForms
  split
  · exact ⟨rfl, rfl⟩
  · dsimp only
    split
    · exact ⟨rfl, rfl⟩
    · split <;> exact ⟨rfl, rfl⟩

theorem Menu.processEvent_flow (menu : GameMenu) (opening : Bool) (m : Menu σ) :
    (m.processEvent menu opening).flow = m.flow ∧ (m.processEvent menu opening).joined = m.joined := by
  cases menu with
  | MainMenu => cases opening <;> exact ⟨rfl, rfl⟩
  | LooksMenu => exact ⟨rfl, rfl⟩
  | SPECIALMenu => exact ⟨rfl, rfl⟩

/-- The host button: it does nothing to the flow, and nothing at all to a session that is on. -/
theorem Menu.confirmHost_flow (typed : JoinFields) (launched : Option Bytes) (game : Plugin.LocalGame) (m : Menu σ) :
    (m.confirmHost S typed launched game).flow = m.flow ∧
      (m.joined = true → (m.confirmHost S typed launched game).joined = true) := by
  unfold Menu.confirmHost
  by_cases hjoined : m.joined = true
  · rw [if_pos hjoined]
    exact ⟨rfl, fun h => h⟩
  · rw [if_neg hjoined]
    refine ⟨?_, fun h => absurd h hjoined⟩
    cases parsePortField typed.port with
    | error error => rfl
    | ok port =>
      cases launched with
      | some error => rfl
      | none =>
        dsimp only
        split
        · split <;> rfl
        · exact (Menu.joinAsHost_joins game _).flow

theorem Stuck.iff_of_same {m m' : Menu σ} (h : m'.flow = m.flow ∧ m'.joined = m.joined) : Stuck m' ↔ Stuck m := by
  constructor
  · rintro ⟨hended, hjoined⟩
    exact ⟨h.1 ▸ hended, h.2 ▸ hjoined⟩
  · rintro ⟨hended, hjoined⟩
    exact ⟨h.1.symm ▸ hended, h.2.symm ▸ hjoined⟩

theorem not_stuck_of_flow {m : Menu σ} (h : ¬ m.flow.Ended) : ¬ Stuck m := fun hm => h hm.ended

theorem stuck_confirmJoin (typed : JoinFields) (steam : Bytes) {m : Menu σ} (hm : ¬ Stuck m) :
    ¬ Stuck (m.confirmJoin S typed steam) := by
  unfold Menu.confirmJoin
  cases parseJoinAddress typed with
  | error error => exact fun h => hm ⟨h.ended, h.joined⟩
  | ok address => exact not_stuck_of_flow (by decide : ¬ Flow.Ended .Querying)

theorem stuck_fail (text : Bytes) (m : Menu σ) : Stuck (m.fail S text) ↔ m.joined = false :=
  ⟨fun h => h.joined, fun h => ⟨.inr rfl, h⟩⟩

theorem stuck_timeout (text : Bytes) (seconds : Time) {m : Menu σ} (hm : ¬ Stuck m) :
    Stuck (if m.TimedOut S seconds then m.fail S text else m) ↔ m.TimedOut S seconds ∧ m.joined = false := by
  split
  · rename_i h
    rw [stuck_fail]
    exact (and_iff_right h).symm
  · rename_i h
    exact iff_of_false hm fun hboth => h hboth.1

theorem JoinEnds.stuck_iff {m m' : Menu σ} {ok : Bool} (h : JoinEnds ok m m') : Stuck m' ↔ ok = false := by
  constructor
  · exact fun hstuck => h.joined.symm.trans hstuck.joined
  · rintro rfl
    exact ⟨.inr h.flow, h.joined⟩

theorem stuck_onQueryFinished (game : Plugin.LocalGame) (r : SessionQueryResult) (m : Menu σ) :
    Stuck (m.onQueryFinished S game r) ↔
      r.ok = true ∧ m.joinContext = .InGame ∧ (Plugin.join S game 0 m.query.client).1 = false := by
  unfold Menu.onQueryFinished
  cases r.ok with
  | false =>
    rw [if_pos (show (!false) = true from rfl)]
    exact iff_of_false (not_stuck_of_flow (by decide : ¬ Flow.Ended .Idle)) fun h => Bool.false_ne_true h.1
  | true =>
    rw [if_neg (by decide)]
    change Stuck (if m.joinContext = .InGame then _ else _) ↔ _
    by_cases hctx : m.joinContext = .InGame
    · rw [if_pos hctx, (Menu.joinAfterQuery_ends game _).stuck_iff]
      exact ⟨fun h => ⟨rfl, hctx, h⟩, fun h => h.2.2⟩
    · rw [if_neg hctx]
      exact iff_of_false (not_stuck_of_flow (by decide : ¬ Flow.Ended .StartingGame)) fun h => hctx h.2.1

theorem stuck_tickQuerying (world : FlowWorld) {m : Menu σ} (hf : m.flow = .Querying) :
    Stuck (m.tickQuerying S world) ↔ DeadEnd S m (.tickFlow world) := by
  have hnot : ¬ m.flow.Ended := by
    rw [hf]
    decide
  rw [DeadEnd, hf]
  dsimp only
  unfold Menu.tickQuerying
  rcases queryPoll S { info := blankInfo } m.query with ⟨_ | _, r, query⟩
  · exact iff_of_false (fun h => hnot h.ended) fun h => Bool.false_ne_true h.1
  · exact (stuck_onQueryFinished S world.game r { m with query := query }).trans (and_iff_right rfl).symm

theorem stuck_tickWaitSkip (world : FlowWorld) {m : Menu σ} (hm : ¬ Stuck m) :
    Stuck (m.tickWaitSkip S world) ↔ world.inCommonwealth = false ∧ m.TimedOut S 60 ∧ m.joined = false := by
  unfold Menu.tickWaitSkip
  dsimp only
  cases world.inCommonwealth with
  | false =>
    rw [if_neg Bool.false_ne_true, stuck_timeout S _ _ hm]
    exact (and_iff_right rfl).symm
  | true =>
    -- the clock of the new flow starts at the same reading
    have hearly : ∀ flow, ¬ (m.setFlow S flow).TimedOut S 60 := by
      intro flow h
      change (60 : ℚ) < m.nowSec S - m.nowSec S at h
      rw [sub_self] at h
      exact absurd h (by norm_num)
    rw [if_pos rfl, if_neg (hearly _)]
    have hnot : ∀ looksOpen : Bool, ¬ Flow.Ended (if looksOpen then .WaitLooks else .Looks) := by decide
    exact iff_of_false (fun h => hnot _ h.ended) fun h => Bool.false_ne_true h.1.symm

theorem stuck_tickJoining (world : FlowWorld) {m : Menu σ} (hm : ¬ Stuck m) :
    Stuck (m.tickJoining S world) ↔
      if world.inCommonwealth then (Plugin.join S world.game kHelloFlagRequireHost m.query.client).1 = false
      else m.TimedOut S 20 ∧ m.joined = false := by
  cases hthere : world.inCommonwealth with
  | true =>
    rw [if_pos rfl]
    exact (m.tickJoining_ends world hthere).stuck_iff
  | false =>
    rw [if_neg Bool.false_ne_true, Menu.tickJoining, if_pos (by simp [hthere])]
    exact stuck_timeout S _ _ hm

theorem stuck_tickFlow (world : FlowWorld) {m : Menu σ} (hm : ¬ Stuck m) :
    Stuck (m.tickFlow S world) ↔ DeadEnd S m (.tickFlow world) := by
  have hmove : ∀ {m' : Menu σ}, ¬ m'.flow.Ended → (Stuck m' ↔ False) := fun h => iff_of_false (not_stuck_of_flow h) id
  cases hf : m.flow with
  | Querying =>
    rw [← stuck_tickQuerying S world hf, Menu.tickFlow, hf]
  | StartingGame =>
    rw [DeadEnd, Menu.tickFlow, hf]
    exact stuck_timeout S _ _ hm
  | WaitWorld =>
    rw [DeadEnd, Menu.tickFlow, hf]
    dsimp only
    cases world.playerInCell with
    | true => exact iff_of_false (not_stuck_of_flow (by decide : ¬ Flow.Ended .SkipIntro)) fun h => Bool.false_ne_true h.1.symm
    | false => exact (stuck_timeout S _ _ hm).trans (and_iff_right rfl).symm
  | WaitSkip =>
    rw [DeadEnd, Menu.tickFlow, hf]
    exact stuck_tickWaitSkip S world hm
  | Joining =>
    rw [DeadEnd, Menu.tickFlow, hf]
    exact stuck_tickJoining S world hm
  | Idle | Done | Failed =>
    rw [DeadEnd, Menu.tickFlow, hf]
    exact iff_of_false hm id
  | SkipIntro =>
    rw [DeadEnd, Menu.tickFlow, hf]
    exact hmove (by decide : ¬ Flow.Ended .WaitSkip)
  | Looks =>
    rw [DeadEnd, Menu.tickFlow, hf]
    exact hmove (by decide : ¬ Flow.Ended .WaitLooks)
  | Special =>
    rw [DeadEnd, Menu.tickFlow, hf]
    exact hmove (by decide : ¬ Flow.Ended .WaitSpecial)
  | Strip =>
    rw [DeadEnd, Menu.tickFlow, hf]
    exact hmove (by decide : ¬ Flow.Ended .Joining)
  | WaitLooks =>
    rw [DeadEnd, Menu.tickFlow, hf]
    dsimp only
    split
    · exact hmove (by decide : ¬ Flow.Ended .Special)
    · exact iff_of_false hm id
  | WaitSpecial =>
    rw [DeadEnd, Menu.tickFlow, hf]
    dsimp only
    split
    · exact hmove (by decide : ¬ Flow.Ended .Strip)
    · exact iff_of_false hm id

/-- A call gets the flow stuck exactly where it is a dead end. -/
theorem stuck_step {m : Menu σ} (hm : ¬ Stuck m) (call : MenuCall σ) : Stuck (m.step S call) ↔ DeadEnd S m call := by
  cases call with
  | openJoinFlow ctx => exact iff_of_false (fun h => hm ((Stuck.iff_of_same (m.openJoinFlow_flow ctx)).mp h)) id
  | openHostFlow ctx => exact iff_of_false (fun h => hm ((Stuck.iff_of_same (m.openHostFlow_flow ctx)).mp h)) id
  | confirmJoin typed steam => exact iff_of_false (stuck_confirmJoin S typed steam hm) id
  | confirmHost typed launched game =>
    obtain ⟨hflow, hkept⟩ := m.confirmHost_flow S typed launched game
    refine iff_of_false (fun h => hm ⟨hflow ▸ h.ended, ?_⟩) id
    exact eq_false_of_ne_true fun hjoined => Bool.false_ne_true (h.joined.symm.trans (hkept hjoined))
  | cancel => exact iff_of_false (fun h => hm ⟨h.ended, h.joined⟩) id
  | drawForms saves clicked => exact iff_of_false (fun h => hm ((Stuck.iff_of_same (m.drawForms_flow saves clicked)).mp h)) id
  | tickFlow world => exact stuck_tickFlow S world hm
  | menuOnNewGame =>
    refine iff_of_false ?_ id
    change ¬ Stuck (m.menuOnNewGame S)
    unfold Menu.menuOnNewGame
    split
    · exact not_stuck_of_flow (by decide : ¬ Flow.Ended .WaitWorld)
    · exact hm
  | menuHostJoinAfterLoad game =>
    change Stuck (m.menuHostJoinAfterLoad S game) ↔ m.flow.Ended ∧ m.pendingMenuHostJoin = true ∧ _
    unfold Menu.menuHostJoinAfterLoad
    cases hpending : m.pendingMenuHostJoin with
    | false => exact iff_of_false hm fun h => Bool.false_ne_true h.2.1
    | true =>
      have hjoins := Menu.joinAsHost_joins (S := S) game { m with pendingMenuHostJoin := false }
      constructor
      · exact fun h => ⟨hjoins.flow ▸ h.ended, rfl, hjoins.joined.symm.trans h.joined⟩
      · exact fun h => ⟨hjoins.flow.symm ▸ h.1, hjoins.joined.trans h.2.2⟩
  | disconnectSession => exact ⟨fun h => h.ended, fun h => ⟨h, Plugin.leave_joined m.query.client⟩⟩
  | netPoll game => exact ⟨fun h => ⟨h.ended, h.joined⟩, fun h => ⟨h.1, h.2⟩⟩
  | processEvent menu opening =>
    exact iff_of_false (fun h => hm ((Stuck.iff_of_same (m.processEvent_flow menu opening)).mp h)) id
  | network sockets => exact iff_of_false (fun h => hm ⟨h.ended, h.joined⟩) id

theorem tidy_run (settings : Plugin.Settings) (sockets : σ) (calls : List (MenuCall σ)) :
    Tidy (run (Menu.step S) (started settings sockets) calls) :=
  run_invariant (P := fun _ _ => True) (fun _ call h _ => h.step S call) (tidy_started settings sockets)
    (allSteps_iff_split.mpr fun _ _ _ _ => trivial)

/-- In every run: the forms can be opened again in every state it passes through exactly when
no call of it is a dead end. -/
theorem menu_reopens_iff (settings : Plugin.Settings) (sockets : σ) (calls : List (MenuCall σ)) :
    (∀ before after, calls = before ++ after → Reopens (run (Menu.step S) (started settings sockets) before)) ↔
      AllSteps (Menu.step S) (fun m call => ¬ DeadEnd S m call) (started settings sockets) calls := by
  have htidy := tidy_run S settings sockets
  constructor
  · intro h
    refine allSteps_iff_split.mpr fun before call after hcalls hdead => ?_
    have hbefore := (reopens_iff (htidy before)).mp (h before (call :: after) hcalls)
    have hafter := (reopens_iff (htidy (before ++ [call]))).mp (h (before ++ [call]) after (by rw [hcalls, List.append_assoc]; rfl))
    rw [run_concat] at hafter
    exact hafter ((stuck_step S hbefore call).mpr hdead)
  · rintro h before after rfl
    have hbefore := ((allSteps_append before after).mp h).1
    refine (reopens_iff (htidy before)).mpr ?_
    refine run_invariant (I := fun m => ¬ Stuck m) (fun m call hm hcall hstuck => ?_) (fun hstuck => ?_) hbefore
    · exact hcall ((stuck_step S hm call).mp hstuck)
    · exact absurd hstuck.ended (by decide : ¬ Flow.Ended .Idle)

/-- A network on which a server with a host in the Commonwealth answers every query. -/
def answeringSockets : Plugin.Sockets Time where
  nowSec := id
  startup w := (true, w)
  shutdown := id
  tcpConnected _ := true
  tcpConnect w := (true, w)
  tcpSend _ w := (true, w)
  tcpRecvFrame w :=
    (.frame (makeSessionInfo 1 kCommonwealthWorldspace ⟨0⟩ ⟨0⟩ ⟨0⟩ 1 true false (ascii "server") 8 [] 0).encode, w)
  udpSend _ w := (true, w)
  udpRecv w := (none, w)

def inTheWorld : FlowWorld where
  playerInCell := true
  inCommonwealth := true
  displayName := []
  game := { world := { inWorld := true } }

/-- A guest joins from the pause menu and disconnects. -/
def joinAndLeave : List (MenuCall Time) :=
  [.openJoinFlow .InGame, .confirmJoin { host := ascii "127.0.0.1" } [], .tickFlow inTheWorld, .disconnectSession]

/-- The flow rests in `Done` with the session over: no form opens any more. -/
theorem not_reopens_joinAndLeave : ¬ Reopens (run (Menu.step answeringSockets) (started {} 0) joinAndLeave) := by
  rw [reopens_iff (tidy_run answeringSockets {} 0 joinAndLeave), not_not]
  exact ⟨by decide +kernel, by decide +kernel⟩

end CommonwealthMP.MenuFlow
