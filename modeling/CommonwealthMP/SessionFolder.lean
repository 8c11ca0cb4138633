import CommonwealthMP.JsonText
import Mathlib.Data.List.DropRight

/-! # The session folder: the world file and the players' files

Every write succeeds and distinct names are distinct files. The order in which a folder is
listed is the file system's. -/
namespace CommonwealthMP
open ByteLayout Binary32 OrderedTables QuotedText

/-- `world.json` and the files of `players`, by name; a missing folder has no file. -/
structure SessionFolder where
  worldJson : Option Bytes := none
  players : Table Bytes Bytes := ∅

/-- The order in which `directory_iterator` visits the files. -/
structure DirectoryOrder where
  visit : List (Σ _ : Bytes, Bytes) → List (Σ _ : Bytes, Bytes)
  perm : ∀ l, (visit l).Perm l

def jsonField (name value : Bytes) : Bytes := ascii "  " ++ quoted 34 name ++ ascii ": " ++ value

def worldJson (fmt : NumberText) (world : SessionWorld) : Bytes :=
  ascii "\x7b\n" ++
    jsonField (ascii "pluginVersion") (decimal kPluginVersion.toNat) ++ ascii ",\n" ++
    jsonField (ascii "spawnLocation") (decimal world.spawnLocation.toNat) ++ ascii ",\n" ++
    jsonField (ascii "spawnX") (fmt.print world.spawnX) ++ ascii ",\n" ++
    jsonField (ascii "spawnY") (fmt.print world.spawnY) ++ ascii ",\n" ++
    jsonField (ascii "spawnZ") (fmt.print world.spawnZ) ++ ascii ",\n" ++
    jsonField (ascii "gameHour") (fmt.print world.gameHour) ++ ascii ",\n" ++
    jsonField (ascii "gameDaysPassed") (fmt.print world.gameDaysPassed) ++ ascii ",\n" ++
    jsonField (ascii "weatherFormId") (decimal world.weatherFormId.toNat) ++ ascii "\n\x7d\n"

def playerJson (fmt : NumberText) (rec_ : PlayerRec) : Bytes :=
  ascii "\x7b\n" ++
    jsonField (ascii "key") (quoted 34 rec_.key) ++ ascii ",\n" ++
    jsonField (ascii "name") (quoted 34 rec_.name) ++ ascii ",\n" ++
    jsonField (ascii "havePose") (decimal (if rec_.havePose then 1 else 0)) ++ ascii ",\n" ++
    jsonField (ascii "locationFormId") (decimal rec_.locationFormId.toNat) ++ ascii ",\n" ++
    jsonField (ascii "x") (fmt.print rec_.x) ++ ascii ",\n" ++
    jsonField (ascii "y") (fmt.print rec_.y) ++ ascii ",\n" ++
    jsonField (ascii "z") (fmt.print rec_.z) ++ ascii ",\n" ++
    jsonField (ascii "yaw") (fmt.print rec_.yaw) ++ ascii "\n\x7d\n"

namespace SessionFolder

def persistWorld (fmt : NumberText) (world : SessionWorld) (folder : SessionFolder) : SessionFolder :=
  { folder with worldJson := some (CommonwealthMP.worldJson fmt world) }

/-- Create or truncate a file of `players` and write its content. -/
def write (folder : SessionFolder) (name content : Bytes) : SessionFolder :=
  { folder with players := folder.players.insert name content }

def persistPlayer (fmt : NumberText) (folder : SessionFolder) (rec_ : PlayerRec) : SessionFolder :=
  if rec_.key = [] then folder
  else
    let folder := folder.write (rec_.key ++ ascii ".json") (playerJson fmt rec_)
    let folder :=
      if rec_.appearance ≠ [] then folder.write (rec_.key ++ ascii ".appearance.bin") rec_.appearance else folder
    if rec_.inventory ≠ [] then folder.write (rec_.key ++ ascii ".inventory.bin") rec_.inventory else folder

def readBin (folder : SessionFolder) (name : Bytes) : Bytes :=
  match folder.players.lookup name with
  | none => []
  | some content => if 2 ^ 20 < content.length then [] else content

end SessionFolder

/-- `path::extension` of a file name: from its last dot on, unless that is its first character. -/
def extension (name : Bytes) : Bytes :=
  let tail := name.rtakeWhile (· ≠ 46)
  if name.length ≤ tail.length + 1 ∨ name = ascii ".." then [] else 46 :: tail

def stem (name : Bytes) : Bytes := name.take (name.length - (extension name).length)

def loadPlayer (fmt : NumberText) (folder : SessionFolder) (name text : Bytes) : PlayerRec :=
  let rec_ : PlayerRec := {}
  let key := jsonQuoted text (ascii "key")
  let key := if key = [] then stem name else key
  { rec_ with
    key := key
    name := jsonQuoted text (ascii "name")
    havePose := fmt.nonzero (jsonNumber fmt text (ascii "havePose") (fmt.ofUInt 0))
    locationFormId := fmt.toUInt (jsonNumber fmt text (ascii "locationFormId") (fmt.ofUInt rec_.locationFormId))
    x := fmt.toFloat (jsonNumber fmt text (ascii "x") (fmt.ofFloat rec_.x))
    y := fmt.toFloat (jsonNumber fmt text (ascii "y") (fmt.ofFloat rec_.y))
    z := fmt.toFloat (jsonNumber fmt text (ascii "z") (fmt.ofFloat rec_.z))
    yaw := fmt.toFloat (jsonNumber fmt text (ascii "yaw") (fmt.ofUInt 0))
    appearance := folder.readBin (key ++ ascii ".appearance.bin")
    inventory := folder.readBin (key ++ ascii ".inventory.bin") }

/-- One turn of the loop over the players' files. -/
def loadEntry (fmt : NumberText) (folder : SessionFolder) (players : Table Bytes PlayerRec)
    (entry : Σ _ : Bytes, Bytes) : Table Bytes PlayerRec :=
  if extension entry.1 ≠ ascii ".json" then players
  else
    let rec_ := loadPlayer fmt folder entry.1 entry.2
    players.insert rec_.key rec_

def loadWorldJson (fmt : NumberText) (text : Bytes) (world : SessionWorld) : SessionWorld :=
  { world with
    created := true
    spawnLocation := fmt.toUInt (jsonNumber fmt text (ascii "spawnLocation") (fmt.ofUInt world.spawnLocation))
    spawnX := fmt.toFloat (jsonNumber fmt text (ascii "spawnX") (fmt.ofFloat world.spawnX))
    spawnY := fmt.toFloat (jsonNumber fmt text (ascii "spawnY") (fmt.ofFloat world.spawnY))
    spawnZ := fmt.toFloat (jsonNumber fmt text (ascii "spawnZ") (fmt.ofFloat world.spawnZ))
    gameHour := fmt.toFloat (jsonNumber fmt text (ascii "gameHour") (fmt.ofFloat world.gameHour))
    gameDaysPassed := fmt.toFloat (jsonNumber fmt text (ascii "gameDaysPassed") (fmt.ofFloat world.gameDaysPassed))
    weatherFormId := fmt.toUInt (jsonNumber fmt text (ascii "weatherFormId") (fmt.ofUInt 0)) }

def loadWorld (fmt : NumberText) (order : DirectoryOrder) (folder : SessionFolder) (world : SessionWorld)
    (players : Table Bytes PlayerRec) : SessionWorld × Table Bytes PlayerRec :=
  (match folder.worldJson with
    | none => world
    | some text => loadWorldJson fmt text world,
   (order.visit folder.players.entries).foldl (loadEntry fmt folder) players)

end CommonwealthMP
