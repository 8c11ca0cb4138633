import CommonwealthMP.ServerHandlers

/-! # The configuration file and the admin console -/
namespace CommonwealthMP
open ByteLayout Binary32 OrderedTables

/-- `std::isspace` of the C locale. -/
def isSpace (c : UInt8) : Bool := c == 32 || (9 ≤ c && c ≤ 13)

def lowerCopy (s : Bytes) : Bytes := s.map fun c => if 65 ≤ c && c ≤ 90 then c + 32 else c

/-- The words of a line; `word` is the one being read. -/
def splitWordsFrom (word : Bytes) : Bytes → List Bytes
  | [] => if word = [] then [] else [word]
  | c :: rest =>
    if isSpace c then
      if word = [] then splitWordsFrom [] rest else word :: splitWordsFrom [] rest
    else splitWordsFrom (word ++ [c]) rest

def splitWords (line : Bytes) : List Bytes := splitWordsFrom [] line

example : splitWords (ascii " kick  7\tban ") = [ascii "kick", ascii "7", ascii "ban"] := by decide

/-- `std::stoi`: white space, a sign and digits; `none` where it throws. -/
def stoi (s : Bytes) : Option ℤ :=
  let s := s.dropWhile isSpace
  let negative := s.head? == some 45
  let s := if s.head? == some 45 || s.head? == some 43 then s.tail else s
  let digits := s.takeWhile fun c => 48 ≤ c && c ≤ 57
  if digits = [] then none
  else
    let n : ℕ := digits.foldl (fun n c => 10 * n + (c.toNat - 48)) 0
    let i : ℤ := if negative then -n else n
    if -2147483648 ≤ i ∧ i ≤ 2147483647 then some i else none

example : stoi (ascii "-12x") = some (-12) ∧ stoi (ascii "x") = none := by decide

def isIniBlank (c : UInt8) : Bool := c == 32 || c == 9 || c == 13

def trimIni (s : Bytes) : Bytes := ((s.dropWhile isIniBlank).reverse.dropWhile isIniBlank).reverse

def parseBoolIni (v : Bytes) (fallback : Bool) : Bool :=
  if v = [] then fallback
  else if [ascii "1", ascii "true", ascii "True", ascii "TRUE", ascii "yes", ascii "on"].contains v then true
  else if [ascii "0", ascii "false", ascii "False", ascii "FALSE", ascii "no", ascii "off"].contains v then false
  else fallback

namespace ServerRuntime

def parseModHashIni (env : Env) (v : Bytes) : UInt32 :=
  let s := trimIni v
  let s := if 2 < s.length ∧ s.head? = some 48 ∧ (s[1]? = some 120 ∨ s[1]? = some 88) then s.drop 2 else s
  (env.stoul16 s).getD 0

/-- The lines `std::getline` returns. -/
def iniLines (text : Bytes) : List Bytes :=
  let parts := text.splitOn 10
  if parts.getLast? = some [] then parts.dropLast else parts

/-- One `key=value` line, for the settings a running server reads. -/
def iniLine (env : Env) (cfg : ServerConfig) (raw : Bytes) : ServerConfig :=
  let line := trimIni raw
  if line = [] ∨ line.head? = some 35 ∨ line.head? = some 59 ∨ (61 : UInt8) ∉ line then cfg
  else
    let key := trimIni (line.takeWhile (· ≠ 61))
    let val := trimIni ((line.dropWhile (· ≠ 61)).drop 1)
    if key = ascii "name" then { cfg with name := if val = [] then cfg.name else val }
    else if key = ascii "motd" then { cfg with motd := val }
    else if key = ascii "max_players" then { cfg with maxPlayers := (stoi val).getD cfg.maxPlayers }
    else if key = ascii "pvp" then { cfg with pvp := parseBoolIni val cfg.pvp }
    else if key = ascii "password" then { cfg with password := val }
    else if key = ascii "mod_hash" then { cfg with modHash := if val = [] then 0 else parseModHashIni env val }
    else if key = ascii "interest_uu" then { cfg with interestUu := (env.stof val).getD cfg.interestUu }
    else cfg

def loadServerIni (env : Env) (cfg : ServerConfig) : Option ServerConfig :=
  env.iniText.map fun text =>
    let cfg := (iniLines text).foldl (iniLine env) cfg
    { cfg with
      maxPlayers := if cfg.maxPlayers < 1 then 1 else cfg.maxPlayers
      interestUu := if lt cfg.interestUu ⟨0⟩ then ⟨0⟩ else cfg.interestUu
      password := cfg.password.take 15 }

def joinWords (words : List Bytes) : Bytes := (words.intersperse [32]).flatten

/-- The first client that the kick target names by id or by key. -/
def findKickTarget (s : ServerRuntime) (target : Bytes) : Option (Σ _ : PeerId, Client) :=
  s.clients.entries.find? fun e => decimal e.2.peerId.toNat = target ∨ e.2.playerKey = target

def banKey (s : ServerRuntime) (key : Bytes) : ServerRuntime :=
  persistBansAsync { s with bannedKeys := s.bannedKeys.insert key }

/-- The kick of one client: its own Bye, then its bookkeeping. -/
def kickClient (s : ServerRuntime) (id : PeerId) (client : Client) (doBan : Bool) : ServerRuntime :=
  let s := if doBan then banKey s client.playerKey else s
  let s := s.queue (sendTcp client (makeBye client.peerId).encode)
  let s := noteDeparture s client
  let s := s.unbindUdp id
  let s := s.queue (closeConn client.connId)
  electHost { s with clients := s.clients.erase id }

/-- Everything a kick writes. -/
theorem kickClient_eq {s : ServerRuntime} {id : PeerId} {client : Client} (h : s.clients.lookup id = some client)
    (doBan : Bool) :
    ∃ dirty, kickClient s id client doBan = { s with
      bannedKeys := if doBan then s.bannedKeys.insert client.playerKey else s.bannedKeys
      clients := s.clients.erase id
      udpPeerByAddr := forgetAddr s.udpPeerByAddr client
      world := (findHost (s.clients.erase id)
        (if client.peerId = s.world.hostPeerId then { s.world with hostPeerId := 0 } else s.world)).2
      outbound := s.outbound ++ (sendTcp client (makeBye client.peerId).encode ++ closeConn client.connId)
      dirtyPlayers := dirty
      persist := if doBan then (banKey s client.playerKey).persist else s.persist } := by
  let b := if doBan then banKey s client.playerKey else s
  have hb : b = { s with
      bannedKeys := if doBan then s.bannedKeys.insert client.playerKey else s.bannedKeys
      persist := if doBan then (banKey s client.playerKey).persist else s.persist } := by
    cases doBan <;> rfl
  have hl : (noteDeparture (b.queue (sendTcp client (makeBye client.peerId).encode)) client).clients.lookup id =
      some client := by
    simpa [noteDeparture_eq, queue, hb] using h
  have hu := unbindUdp_eq hl
  refine ⟨(kickClient s id client doBan).dirtyPlayers, ?_⟩
  rw [kickClient]
  dsimp only
  rw [show (if doBan then banKey s client.playerKey else s) = b from rfl, hu, hb]
  simp only [noteDeparture_eq, queue, electHost, Table.erase_modify, List.append_assoc]

def adminKick (s : ServerRuntime) (target : Bytes) (doBan : Bool) : ServerRuntime :=
  match findKickTarget s target with
  | some ⟨id, client⟩ => kickClient s id client doBan
  | none => s

def adminSay (s : ServerRuntime) (text : Bytes) : ServerRuntime :=
  s.queue (s.clients.values.flatMap fun client => sendTcp client (makeChat 0 text).encode)

def adminSave (s : ServerRuntime) : ServerRuntime :=
  flushDirtyAsync { s with
    dirtyPlayers := s.clients.values.foldl (fun dirty client => dirty.insert client.playerKey) s.dirtyPlayers
    worldDirty := true }

def adminReload (env : Env) (s : ServerRuntime) : ServerRuntime :=
  match loadServerIni env s.cfg with
  | none => s
  | some reloaded =>
    broadcastSessionRules { s with
      cfg := { reloaded with
        password := reloaded.password.take 15
        modHash := if reloaded.modHash ≠ 0 then reloaded.modHash else s.cfg.modHash }
      sessionModHash := if reloaded.modHash ≠ 0 then reloaded.modHash else s.sessionModHash }

def adminPvp (s : ServerRuntime) (arg : Bytes) : ServerRuntime :=
  if arg = ascii "on" then broadcastSessionRules { s with cfg := { s.cfg with pvp := true } }
  else if arg = ascii "off" then broadcastSessionRules { s with cfg := { s.cfg with pvp := false } }
  else s

def runAdminCommand (env : Env) (s : ServerRuntime) (cmdLine : Bytes) : ServerRuntime :=
  match splitWords cmdLine with
  | [] => s
  | word :: args =>
    let cmd := lowerCopy word
    match args with
    | [] =>
      if cmd = ascii "save" then adminSave s
      else if cmd = ascii "quit" ∨ cmd = ascii "exit" then { s with running := false }
      else if cmd = ascii "reload" then adminReload env s
      else s
    | arg :: rest =>
      if cmd = ascii "kick" then adminKick s arg ((rest.head?.map lowerCopy) == some (ascii "ban"))
      else if cmd = ascii "say" then adminSay s (joinWords args)
      else if cmd = ascii "save" then adminSave s
      else if cmd = ascii "quit" ∨ cmd = ascii "exit" then { s with running := false }
      else if cmd = ascii "maxplayers" then
        { s with cfg := { s.cfg with maxPlayers := (stoi arg).elim s.cfg.maxPlayers (max 1) } }
      else if cmd = ascii "reload" then adminReload env s
      else if cmd = ascii "pvp" then adminPvp s (lowerCopy arg)
      else if cmd = ascii "password" then
        broadcastSessionRules { s with cfg := { s.cfg with password := arg.take 15 } }
      else if cmd = ascii "ban" then banKey s (sanitizePlayerKey arg (ascii "player"))
      else if cmd = ascii "unban" then
        let key := sanitizePlayerKey arg (ascii "player")
        persistBansAsync { s with bannedKeys := s.bannedKeys.filter (· ≠ key) }
      else if cmd = ascii "motd" then { s with cfg := { s.cfg with motd := joinWords args } }
      else s

/-- What one line does: a kick of a client, a message, a save, the end, settings that are announced or
not, or a new list of bans. -/
theorem adminLine_cases {P : ServerRuntime → Prop} {env : Env} {s : ServerRuntime} {cmdLine : Bytes} (ignored : P s)
    (kick : ∀ word arg rest, splitWords cmdLine = word :: arg :: rest → lowerCopy word = ascii "kick" →
      ∀ id client doBan, findKickTarget s arg = some ⟨id, client⟩ → s.clients.lookup id = some client →
        P (kickClient s id client doBan))
    (say : ∀ word arg rest, splitWords cmdLine = word :: arg :: rest → lowerCopy word = ascii "say" →
      P (adminSay s (joinWords (arg :: rest))))
    (save : P (adminSave s))
    (quit : P { s with running := false })
    (settings : ∀ maxPlayers motd, P { s with cfg := { s.cfg with maxPlayers := maxPlayers, motd := motd } })
    (reload : ∀ reloaded, loadServerIni env s.cfg = some reloaded → P (broadcastSessionRules { s with
      cfg := { reloaded with
        password := reloaded.password.take 15
        modHash := if reloaded.modHash ≠ 0 then reloaded.modHash else s.cfg.modHash }
      sessionModHash := if reloaded.modHash ≠ 0 then reloaded.modHash else s.sessionModHash }))
    (rules : ∀ pvp password, P (broadcastSessionRules { s with cfg := { s.cfg with pvp := pvp, password := password } }))
    (ban : ∀ key, P (banKey s (sanitizePlayerKey key (ascii "player"))))
    (unban : ∀ key, P (persistBansAsync { s with bannedKeys := s.bannedKeys.filter (· ≠ key) })) :
    P (runAdminCommand env s cmdLine) := by
  have hreload : P (adminReload env s) := by
    unfold adminReload
    cases hload : loadServerIni env s.cfg with
    | none => exact ignored
    | some reloaded => exact reload reloaded hload
  have hpvp (arg : Bytes) : P (adminPvp s arg) :=
    iteInduction (fun _ => rules true s.cfg.password)
      fun _ => iteInduction (fun _ => rules false s.cfg.password) fun _ => ignored
  unfold runAdminCommand
  cases hw : splitWords cmdLine with
  | nil => exact ignored
  | cons word args =>
    cases args with
    | nil =>
      exact iteInduction (fun _ => save) fun _ => iteInduction (fun _ => quit) fun _ =>
        iteInduction (fun _ => hreload) fun _ => ignored
    | cons arg rest =>
      refine iteInduction (fun hkick => ?_) fun _ => iteInduction (fun hsay => say word arg rest hw hsay) fun _ =>
        iteInduction (fun _ => save) fun _ => iteInduction (fun _ => quit) fun _ =>
        iteInduction (fun _ => settings _ s.cfg.motd) fun _ => iteInduction (fun _ => hreload) fun _ =>
        iteInduction (fun _ => hpvp _) fun _ => iteInduction (fun _ => rules s.cfg.pvp _) fun _ =>
        iteInduction (fun _ => ban _) fun _ => iteInduction (fun _ => unban _) fun _ =>
        iteInduction (fun _ => settings s.cfg.maxPlayers _) fun _ => ignored
      unfold adminKick
      cases hf : findKickTarget s arg with
      | none => exact ignored
      | some e => exact kick word arg rest hw hkick e.1 e.2 _ hf (Table.mem_entries.mp (List.mem_of_find?_eq_some hf))

end ServerRuntime
end CommonwealthMP
