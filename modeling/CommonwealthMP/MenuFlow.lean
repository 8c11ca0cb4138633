import CommonwealthMP.QueryVerdict
import CommonwealthMP.StepRuns

/-! # The menu's join flow

From the join and host forms over the query and the new game to the session. The game answers
for what it does between two frames; the clock is a reading of the network's state. -/
namespace CommonwealthMP.MenuFlow
open ByteLayout QueryVerdict StepRuns

inductive Flow
  | Idle
  | Querying
  | StartingGame
  | WaitWorld
  | SkipIntro
  | WaitSkip
  | Looks
  | WaitLooks
  | Special
  | WaitSpecial
  | Strip
  | Joining
  | Done
  | Failed
  deriving DecidableEq, Repr

inductive MenuForm
  | None
  | Join
  | Host
  deriving DecidableEq, Repr

inductive JoinContext
  | TitleMenu
  | InGame
  deriving DecidableEq, Repr

structure Menu (σ : Type) where
  flow : Flow := .Idle
  flowAt : Time := 0
  menuForm : MenuForm := .None
  menuPopupQueued : Bool := false
  pendingMenuHostJoin : Bool := false
  hostSavesRefreshed : Bool := false
  hostSaveSelection : ℤ := -1
  /-- The list index of each row. -/
  hostSaves : List ℤ := []
  looksOpen : Bool := false
  specialOpen : Bool := false
  joinContext : JoinContext := .TitleMenu
  hostContext : JoinContext := .TitleMenu
  statusStorage : Bytes := []
  menuJoin : Bool := false
  query : QueryClient σ

structure JoinFields where
  host : Bytes := []
  port : Bytes := []
  name : Bytes := []
  password : Bytes := []

/-- What a tick finds the game to be: the player stands in a cell, it stands in the
Commonwealth, its name, and what a join reads. -/
structure FlowWorld where
  playerInCell : Bool
  inCommonwealth : Bool
  displayName : Bytes
  game : Plugin.LocalGame

def blank (c : UInt8) : Bool := c = 32 || c = 9

def trimCopy (s : Bytes) : Bytes := ((s.dropWhile blank).reverse.dropWhile blank).reverse

def isSpace (c : UInt8) : Bool := c = 32 || 9 ≤ c && c ≤ 13

def isDigit (c : UInt8) : Bool := 48 ≤ c && c ≤ 57

/-- `std::stoi`: none where it throws. -/
def stoi (s : Bytes) : Option ℤ :=
  let s := s.dropWhile isSpace
  let digits := (if s.head? = some 43 ∨ s.head? = some 45 then s.tail else s).takeWhile isDigit
  let magnitude : ℤ := digits.foldl (fun n c => 10 * n + (c.toNat - 48)) 0
  let value := if s.head? = some 45 then -magnitude else magnitude
  if digits = [] then none else if -2 ^ 31 ≤ value ∧ value < 2 ^ 31 then some value else none

def kDefaultPort : ℕ := 7777

def parsePortField (port : Bytes) : Except Bytes ℕ :=
  let portStr := trimCopy port
  match stoi (if portStr = [] then decimal kDefaultPort else portStr) with
  | none => .error (ascii "port must be a number")
  | some port => if port < 1 ∨ 65535 < port then .error (ascii "port must be 1-65535") else .ok port.toNat

def parseJoinAddress (typed : JoinFields) : Except Bytes (Bytes × ℕ) :=
  let host := trimCopy typed.host
  let portStr := if 58 ∈ host then (host.dropWhile (· ≠ 58)).tail else typed.port
  let host := if 58 ∈ host then trimCopy (host.takeWhile (· ≠ 58)) else host
  if host = [] then .error (ascii "server address is empty")
  else if 255 < host.length then .error (ascii "host too long")
  else (parsePortField portStr).map fun port => (host, port)

/-- `CMP_SavePlayerName`, with the name Steam has. -/
def savePlayerName (steam name : Bytes) : Bytes :=
  let trimmed := (trimCopy name).take 31
  if trimmed = [] ∨ trimmed = ascii "Player" then if steam = [] then ascii "Player" else steam else trimmed

def savePassword (password : Bytes) : Bytes := (trimCopy password).take 15

section Flow
variable {σ : Type} (S : Plugin.Sockets σ)

namespace Menu

def session (m : Menu σ) : Plugin.Session := m.query.client.session

def joined (m : Menu σ) : Bool := m.session.net.joined

def nowSec (m : Menu σ) : Time := S.nowSec m.query.client.sockets

def setFlow (flow : Flow) (m : Menu σ) : Menu σ := { m with flow := flow, flowAt := m.nowSec S }

def TimedOut (m : Menu σ) (seconds : Time) : Prop := seconds < m.nowSec S - m.flowAt

instance (m : Menu σ) (seconds : Time) : Decidable (m.TimedOut S seconds) := inferInstanceAs (Decidable (_ < _))

def setStatus (text : Bytes) (m : Menu σ) : Menu σ := { m with statusStorage := text }

def closeMenuForm (m : Menu σ) : Menu σ :=
  { m with menuForm := .None, menuPopupQueued := false, hostSavesRefreshed := false }

/-- `CMP_Leave`, which also clears `menuJoin`. -/
def leave (m : Menu σ) : Menu σ := { m with query.client := Plugin.leave S m.query.client, menuJoin := false }

/-- `CMP_Join`, which starts with a leave, and what it returned. -/
def join (game : Plugin.LocalGame) (flags : UInt8) (m : Menu σ) : Bool × Menu σ :=
  let (ok, client) := Plugin.join S game flags m.query.client
  (ok, { m with query.client := client, menuJoin := false })

/-- `CMP_QueryStart`, which leaves a session that is on. -/
def queryStart (m : Menu σ) : Menu σ :=
  { m with query := QueryVerdict.queryStart S m.query, menuJoin := !m.joined && m.menuJoin }

/-- `CMP_MenuJoinPending` -/
def joinPending (m : Menu σ) : Bool := m.flow ≠ .Idle ∧ m.flow ≠ .Done ∧ m.flow ≠ .Failed

def beginChargen (m : Menu σ) : Menu σ :=
  setStatus (ascii "starting new game for join") (setFlow S .StartingGame
    { m with menuJoin := true, query.client.session.menu.joinFlags := kHelloFlagRequireHost })

def queryError (r : SessionQueryResult) : Bytes :=
  let error := if r.error = [] then ascii "join failed" else r.error
  let serverName := cString r.info.serverName
  if serverName = [] then error else serverName ++ (ascii ": " ++ error)

def queryAnswer (r : SessionQueryResult) : Bytes :=
  let serverName := cString r.info.serverName
  let motd := cString r.info.motd
  (if serverName = [] then ascii "host ok" else serverName) ++ (ascii " (" ++ (decimal r.info.clientCount.toNat ++
    (ascii "/" ++ (decimal r.info.maxPlayers.toNat ++ (ascii ")" ++ if motd = [] then [] else 10 :: motd)))))

def joinAfterQuery (game : Plugin.LocalGame) (m : Menu σ) : Menu σ :=
  match m.join S game 0 with
  | (true, m) => setStatus (if m.session.net.isHost then ascii "Connected as host" else ascii "Connected as guest") (m.setFlow S .Done)
  | (false, m) => setStatus (ascii "join failed after query") (m.setFlow S .Failed)

def onQueryFinished (game : Plugin.LocalGame) (r : SessionQueryResult) (m : Menu σ) : Menu σ :=
  if !r.ok then
    let m := setStatus (queryError r) (m.setFlow S .Failed)
    { m.setFlow S .Idle with menuJoin := false }
  else
    let m := m.setStatus (queryAnswer r)
    if m.joinContext = .InGame then m.joinAfterQuery S game else m.beginChargen S

/-- `SetFlow(Flow::Failed)` with its text, and no join on the way any more. -/
def fail (text : Bytes) (m : Menu σ) : Menu σ := { setStatus text (m.setFlow S .Failed) with menuJoin := false }

def tickQuerying (world : FlowWorld) (m : Menu σ) : Menu σ :=
  match queryPoll S { info := blankInfo } m.query with
  | (true, r, query) => onQueryFinished S world.game r { m with query := query }
  | (false, _, query) => { m with query := query }

def tickWaitSkip (world : FlowWorld) (m : Menu σ) : Menu σ :=
  let m := if world.inCommonwealth then m.setFlow S (if m.looksOpen then .WaitLooks else .Looks) else m
  if m.TimedOut S 60 then m.fail S (ascii "could not reach Commonwealth") else m

def copyChargenName (world : FlowWorld) (m : Menu σ) : Menu σ :=
  if world.displayName = [] then m else { m with query.client.session.settings.playerName := world.displayName }

def tickJoining (world : FlowWorld) (m : Menu σ) : Menu σ :=
  if !world.inCommonwealth then
    if m.TimedOut S 20 then m.fail S (ascii "not in Commonwealth for Hello") else m
  else
    match m.join S world.game kHelloFlagRequireHost with
    | (true, m) => setStatus (ascii "joined host") ({ m with menuJoin := false }.setFlow S .Done)
    | (false, m) => { m.setFlow S .Failed with menuJoin := false }

def tickFlow (world : FlowWorld) (m : Menu σ) : Menu σ :=
  match m.flow with
  | .Idle | .Done | .Failed => m
  | .Querying => m.tickQuerying S world
  | .StartingGame => if m.TimedOut S 30 then m.fail S (ascii "new game did not start") else m
  | .WaitWorld =>
    if world.playerInCell then m.setFlow S .SkipIntro
    else if m.TimedOut S 90 then m.fail S (ascii "timed out waiting for world")
    else m
  | .SkipIntro => (m.setStatus (ascii "skipping vault, moving to Commonwealth")).setFlow S .WaitSkip
  | .WaitSkip => m.tickWaitSkip S world
  | .Looks => (m.setStatus (ascii "character looks")).setFlow S .WaitLooks
  | .WaitLooks => if (m.looksOpen = false ∧ m.TimedOut S 1) ∨ m.TimedOut S 600 then m.setFlow S .Special else m
  | .Special => (m.setStatus (ascii "SPECIAL and name")).setFlow S .WaitSpecial
  | .WaitSpecial => if (m.specialOpen = false ∧ m.TimedOut S 1) ∨ m.TimedOut S 600 then m.setFlow S .Strip else m
  | .Strip => (m.copyChargenName world).setFlow S .Joining
  | .Joining => m.tickJoining S world

def openJoinFlow (ctx : JoinContext) (m : Menu σ) : Menu σ :=
  let m := { m with joinContext := ctx }
  if m.flow ≠ .Idle then m else { m with menuForm := .Join, menuPopupQueued := true }

def openHostFlow (ctx : JoinContext) (m : Menu σ) : Menu σ :=
  if ctx = .InGame ∧ m.joined = true then m.setStatus (ascii "already in session")
  else if m.flow ≠ .Idle then m
  else
    { m with
      hostContext := ctx, hostSavesRefreshed := false, hostSaveSelection := -1, menuForm := .Host, menuPopupQueued := true }

/-- The name and the password of the join form in the settings. -/
def saveFields (typed : JoinFields) (steam : Bytes) (m : Menu σ) : Menu σ :=
  let name := trimCopy typed.name
  let refreshed := if steam = [] then m.session.settings.playerName else steam
  let name := if name = [] ∨ name = ascii "Player" then trimCopy (refreshed.take 63) else name
  { m with
    query.client.session.settings.playerName := savePlayerName steam name
    query.client.session.settings.password := savePassword typed.password }

def confirmJoin (typed : JoinFields) (steam : Bytes) (m : Menu σ) : Menu σ :=
  match parseJoinAddress typed with
  | .error error => m.setStatus error
  | .ok (host, port) =>
    let m := ((m.saveFields typed steam).closeMenuForm.setFlow S .Querying).setStatus
      (ascii "querying " ++ (host ++ (58 :: decimal port)))
    m.queryStart S

def joinAsHost (game : Plugin.LocalGame) (m : Menu σ) : Menu σ :=
  match m.join S game 0 with
  | (true, m) => m.setStatus (ascii "connected as host")
  | (false, m) => m.setStatus (ascii "host join failed")

/-- `ConfirmHost`. What `CMP_LaunchServer` reports is given, and none where it succeeds. -/
def confirmHost (typed : JoinFields) (launched : Option Bytes) (game : Plugin.LocalGame) (m : Menu σ) : Menu σ :=
  if m.joined then m.setStatus (ascii "already in session")
  else
    match parsePortField typed.port with
    | .error error => m.setStatus error
    | .ok _ =>
      let m : Menu σ := { m with query.client.session.settings.password := savePassword typed.password }
      match launched with
      | some error => m.setStatus error
      | none =>
        if m.hostContext = .TitleMenu then
          if m.hostSaveSelection < 0 ∨ m.hostSaves.length ≤ m.hostSaveSelection then m.setStatus (ascii "select a save")
          else { m with pendingMenuHostJoin := true }.closeMenuForm.setStatus (ascii "loading save for host...")
        else m.closeMenuForm.joinAsHost S game

/-- `CMP_MenuDrawForms` up to its buttons: the saves on the disk, and the row clicked at. -/
def drawForms (saves : List ℤ) (clicked : Option ℤ) (m : Menu σ) : Menu σ :=
  if m.menuForm = .None then m
  else
    let m := { m with menuPopupQueued := false }
    if m.menuForm = .Join ∨ m.hostContext ≠ .TitleMenu then m
    else
      let m : Menu σ := if m.hostSavesRefreshed then m else
        { m with hostSavesRefreshed := true, hostSaves := saves, hostSaveSelection := if saves = [] then -1 else 0 }
      { m with hostSaveSelection := (clicked.filter fun i : ℤ => 0 ≤ i ∧ i < m.hostSaves.length).getD m.hostSaveSelection }

def menuOnNewGame (m : Menu σ) : Menu σ :=
  if m.flow = .StartingGame ∨ m.menuJoin = true then
    (m.setFlow S .WaitWorld).setStatus (ascii "new game loaded, waiting for player")
  else m

def menuHostJoinAfterLoad (game : Plugin.LocalGame) (m : Menu σ) : Menu σ :=
  if !m.pendingMenuHostJoin then m else { m with pendingMenuHostJoin := false }.joinAsHost S game

def disconnectSession (m : Menu σ) : Menu σ := (m.leave S).setStatus (ascii "disconnected")

/-- `CMP_NetPoll`, which may leave the session. -/
def netPoll (game : Plugin.LocalGame) (m : Menu σ) : Menu σ :=
  let client := Plugin.netPoll S game m.query.client
  { m with query.client := client, menuJoin := m.menuJoin && client.session.net.joined == m.joined }

end Menu

inductive GameMenu
  | MainMenu
  | LooksMenu
  | SPECIALMenu
  deriving DecidableEq, Repr

def Menu.processEvent (menu : GameMenu) (opening : Bool) (m : Menu σ) : Menu σ :=
  match menu with
  | .MainMenu => if opening then { m with menuForm := .None } else m.closeMenuForm
  | .LooksMenu => { m with looksOpen := opening }
  | .SPECIALMenu => { m with specialOpen := opening }

inductive MenuCall (σ : Type)
  | openJoinFlow (ctx : JoinContext)
  | openHostFlow (ctx : JoinContext)
  | confirmJoin (typed : JoinFields) (steam : Bytes)
  | confirmHost (typed : JoinFields) (launched : Option Bytes) (game : Plugin.LocalGame)
  | cancel
  | drawForms (saves : List ℤ) (clicked : Option ℤ)
  | tickFlow (world : FlowWorld)
  | menuOnNewGame
  | menuHostJoinAfterLoad (game : Plugin.LocalGame)
  | disconnectSession
  | netPoll (game : Plugin.LocalGame)
  | processEvent (menu : GameMenu) (opening : Bool)
  /-- The network and its clock move on. -/
  | network (sockets : σ)

def Menu.step (m : Menu σ) : MenuCall σ → Menu σ
  | .openJoinFlow ctx => m.openJoinFlow ctx
  | .openHostFlow ctx => m.openHostFlow ctx
  | .confirmJoin typed steam => m.confirmJoin S typed steam
  | .confirmHost typed launched game => m.confirmHost S typed launched game
  | .cancel => m.closeMenuForm
  | .drawForms saves clicked => m.drawForms saves clicked
  | .tickFlow world => m.tickFlow S world
  | .menuOnNewGame => m.menuOnNewGame S
  | .menuHostJoinAfterLoad game => m.menuHostJoinAfterLoad S game
  | .disconnectSession => m.disconnectSession S
  | .netPoll game => m.netPoll S game
  | .processEvent menu opening => m.processEvent menu opening
  | .network sockets => { m with query.client.sockets := sockets }

/-- The menu when the plugin has loaded its settings. -/
def started (settings : Plugin.Settings) (sockets : σ) : Menu σ :=
  { query := { client := { session := { settings := settings }, sockets := sockets } } }

end Flow
end CommonwealthMP.MenuFlow
