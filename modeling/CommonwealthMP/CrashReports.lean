import CommonwealthMP.CrashNotes
import CommonwealthMP.CrashParser

/-! # Crash reports

The text that the plugin writes when it crashes, and what the reporter finds in it. -/
namespace CommonwealthMP
open ByteLayout LineTexts
namespace Crash

def baseName (path : Bytes) : Bytes := (path.reverse.takeWhile (· ≠ 92)).reverse

/-- The file of a module, as it fits the buffer: a file name holds neither control letters nor a colon. -/
structure ModulePath where
  bytes : Bytes
  fits : bytes.length < 260
  legal : ∀ c ∈ bytes, 32 ≤ c
  noColon : 58 ∉ baseName bytes

structure Module where
  path : ModulePath
  baseOfDll : UInt64
  sizeOfImage : UInt32

structure VersionText where
  bytes : Bytes
  legal : ∀ c ∈ bytes, IsDigit c ∨ c = 45 ∨ c = 46

/-- A path in UTF-8; it holds no control letters. -/
structure DumpPath where
  bytes : Bytes
  legal : ∀ c ∈ bytes, 32 ≤ c

structure SystemTime where
  wYear : UInt16
  wMonth : UInt16
  wDay : UInt16
  wHour : UInt16
  wMinute : UInt16
  wSecond : UInt16

structure Context where
  rip : UInt64
  rsp : UInt64
  rbp : UInt64
  rax : UInt64
  rcx : UInt64
  rdx : UInt64

inductive CrashOrigin
  | veh
  | unhandled
  | terminate
  | abort
  deriving DecidableEq, Repr

def CrashOrigin.text : CrashOrigin → Bytes
  | veh => ascii "veh"
  | unhandled => ascii "unhandled"
  | terminate => ascii "terminate"
  | abort => ascii "abort"

/-- `moduleAt` is the module that holds an address, with its first address; `modules` is `none` where
the modules cannot be listed. -/
structure CrashScene where
  origin : CrashOrigin
  time : SystemTime
  threadId : UInt32
  pluginVersion : VersionText
  f4seVersion : VersionText
  context : Option Context
  moduleAt : UInt64 → Option (ModulePath × UInt64)
  backTrace : List UInt64
  modules : Option (List Module)
  dmpPath : DumpPath

/-- `%0wu` -/
def decimalPadded (w n : ℕ) : Bytes := List.replicate (w - (decimal n).length) 48 ++ decimal n

def writeHex (v : UInt64) : Bytes := hex v.toNat

/-- `FormatModAddr` with the buffers it is called with -/
def formatModAddr (scene : CrashScene) (addr : UInt64) : Bytes :=
  match scene.moduleAt addr with
  | none => (writeHex addr).take 291
  | some (path, base) => (baseName path.bytes ++ ascii "+" ++ writeHex (addr - base)).take 291

def describeAddr (scene : CrashScene) (addr : UInt64) : Bytes :=
  writeHex addr ++ ascii " " ++ formatModAddr scene addr ++ ascii "\n"

def whyText (record : ExceptionRecord) : Bytes :=
  let code := record.exceptionCode
  let text :=
    if code = 0xC0000005 then
      let op := if 1 ≤ record.numberParameters then record.exceptionInformation0 else 0
      let target := if 2 ≤ record.numberParameters then record.exceptionInformation1 else 0
      if target = 0 then
        ascii "Null pointer. The game " ++
          (if op = 1 then ascii "wrote to" else if op = 8 then ascii "tried to run code at" else ascii "read") ++
          ascii " address 0 (nothing was there)."
      else
        ascii "Bad memory " ++ (if op = 1 then ascii "write" else if op = 8 then ascii "execute" else ascii "read") ++
          ascii " at " ++ writeHex target ++ ascii ". That address is not valid."
    else if code = 0xC0000006 then ascii "A memory page failed to load from disk (paged-out or missing file)."
    else if code = 0xC000001D then ascii "Illegal instruction. Execution jumped into damaged or non-code memory."
    else if code = 0xC0000094 then ascii "Integer divide by zero."
    else if code = 0xC00000FD then ascii "Stack overflow. Likely infinite recursion or a huge local buffer."
    else if code = 0xC000008C then ascii "Array bounds exceeded."
    else if code = 0xC0000374 then ascii "Heap corruption. Memory was overwritten before this crash."
    else if code = 0xC0000409 then ascii "Stack buffer overrun (fast fail / security cookie)."
    else if code = 0x40000015 then ascii "The process aborted (Address Library mismatch or REX::FAIL)."
    else if code = 0xE06D7363 then ascii "Uncaught C++ exception."
    else ascii "Fatal exception " ++ codeName code ++ ascii " (" ++ hexPadded 8 code.toNat ++ ascii ")."
  text.take 319

def writeNotes (notes : CrashNotes) : Bytes :=
  ascii "notes (newest last):\n" ++ (writtenNotes notes).flatMap fun note => ascii "  " ++ note ++ ascii "\n"

def moduleLine (m : Module) : Bytes :=
  baseName m.path.bytes ++ ascii " base=" ++ writeHex m.baseOfDll ++ ascii " size=" ++ hex m.sizeOfImage.toNat

def writeModules (scene : CrashScene) : Bytes :=
  match scene.modules with
  | none => []
  | some mods => ascii "modules:\n" ++ (mods.take 384).flatMap fun m => ascii "  " ++ moduleLine m ++ ascii "\n"

def writeHeader (scene : CrashScene) : Bytes :=
  (ascii "CommonwealthMP crash origin=" ++ scene.origin.text ++ ascii " " ++
    decimalPadded 4 scene.time.wYear.toNat ++ ascii "-" ++ decimalPadded 2 scene.time.wMonth.toNat ++ ascii "-" ++
    decimalPadded 2 scene.time.wDay.toNat ++ ascii " " ++ decimalPadded 2 scene.time.wHour.toNat ++ ascii ":" ++
    decimalPadded 2 scene.time.wMinute.toNat ++ ascii ":" ++ decimalPadded 2 scene.time.wSecond.toNat ++
    ascii " tid=" ++ decimal scene.threadId.toNat ++ ascii "\n").take 159

def writeRecord (scene : CrashScene) : Option ExceptionRecord → Bytes
  | none => []
  | some record =>
    ascii "code " ++ codeName record.exceptionCode ++ ascii " " ++ hex record.exceptionCode.toNat ++
      ascii "\naddr " ++ describeAddr scene record.exceptionAddress ++
      (if record.exceptionCode = 0xC0000005 ∧ 2 ≤ record.numberParameters then
        (if record.exceptionInformation0 = 1 then ascii "write " else ascii "read ") ++
          writeHex record.exceptionInformation1 ++ ascii "\n"
      else []) ++
      ascii "why " ++ whyText record ++ ascii "\n"

def writeContext (scene : CrashScene) : Option Context → Bytes
  | none => []
  | some c =>
    ascii "rip " ++ describeAddr scene c.rip ++ ascii "rsp " ++ writeHex c.rsp ++ ascii " rbp " ++ writeHex c.rbp ++
      ascii " rax " ++ writeHex c.rax ++ ascii " rcx " ++ writeHex c.rcx ++ ascii " rdx " ++ writeHex c.rdx ++ ascii "\n"

/-- What `WriteCrash` writes to its file. -/
def writeCrashText (notes : CrashNotes) (scene : CrashScene) (record : Option ExceptionRecord) : Bytes :=
  writeHeader scene ++
    (ascii "plugin " ++ scene.pluginVersion.bytes ++ ascii " f4se " ++ scene.f4seVersion.bytes ++ ascii "\n") ++
    writeRecord scene record ++
    writeContext scene scene.context ++
    writeNotes notes ++
    (ascii "stack:\n" ++ (scene.backTrace.take 48).flatMap fun frame => ascii "  " ++ describeAddr scene frame) ++
    writeModules scene ++
    (ascii "minidump " ++ scene.dmpPath.bytes ++ ascii "\n")

end Crash
end CommonwealthMP
