import MailFilter.CommandLine
import MailFilter.Controller
import MailFilter.Settings.Load

/-
  This file defines the program: it reads the settings and
  standard input, runs the filter on them, and writes what
  the filter decided.

  The pipe engine takes one message from standard input. The
  SMTP engine takes the dialogue of one client from it and
  writes the replies to standard output. Spool files are kept
  in memory. The only file that is written is the one that
  messages are copied to, and the log goes to standard error.

  Key definitions include:
    * `Program.run`
    * `main`
-/

namespace MailFilter.Program

------------------------------------------------------------
-- The machine
------------------------------------------------------------

/- The bytes of a file, if it can be read. -/
def readFile?
    (path : String) : IO (Option Bytes) := do
  try
    return some (← IO.FS.readBinFile path).toList
  catch _ => return none

/- All of standard input. -/
def readInput : IO Bytes := do
  let stdin ← IO.getStdin
  let mut all : ByteArray := .empty
  repeat
    let chunk ← stdin.read 65536
    if chunk.isEmpty then break
    all := all ++ chunk
  return all.toList

/- The time that a new file is given, in milliseconds. -/
def now : IO Nat := do
  let (_, path) ← IO.FS.createTempFile
  let time := (← path.metadata).modified
  IO.FS.removeFile path
  return time.sec.toNat * 1000 + time.nsec.toNat / 1000000

/-
  What is read of the clock for a new message. The program
  does not ask for the zone of the machine, so its dates are
  those of universal time.
-/
def readClock : IO Stamp.Clock := do
  let random := (← IO.getRandomBytes 10).toList.foldl
    (fun n b => n * 256 + b.toNat) 0
  let milliseconds ← now
  let seconds := (← now) / 1000
  return {
    milliseconds := milliseconds
    random := random
    seconds := seconds }

/- The name of this machine. -/
def machineName : IO String := do
  match ← readFile? "/proc/sys/kernel/hostname" with
  | none => return "localhost"
  | some name => return Text.trim (Utf8.decodeLossy name)

/- Put a file of the machine among the files. -/
def addFile
    (path : String)
    (files : Files) : IO Files := do
  match ← readFile? path with
  | none => return files
  | some content =>
      let file : File := ⟨files.next, files.next, content⟩
      return { files.put (.named path) file with
        next := files.next + 1 }

------------------------------------------------------------
-- Running
------------------------------------------------------------

/- Modules are part of the program, so no library has any. -/
def loader : Loader :=
  fun path => .unusable
    (path ++ ": cannot open shared object file: " ++
      "No such file or directory")

/- Write the log, the oldest event first. -/
def writeLog
    (debug : Bool)
    (events : List Log.Event) : IO Unit :=
  events.reverse.forM fun event =>
    if debug || event.level.isNotable then
      IO.eprintln event.render
    else return

/- Write a file of the machine if it was changed. -/
def saveFile
    (path : String)
    (before after : Files) : IO Unit := do
  let path : Path := .named path
  match after.file? path with
  | none => return
  | some file =>
      if before.file? path = some file then return
      else
        IO.FS.writeBinFile path.render ⟨file.content.toArray⟩

/- Run the configured engine, and write its replies. -/
def runEngine
    (settings : Settings)
    (target : String)
    (world : World) : IO UInt32 := do
  let data ← readInput
  let input : Controller.Input := {
    standard := ⟨data, none⟩
    clients := [⟨"standard input", ⟨data, .closed⟩⟩] }
  let controller : Controller :=
    { settings := settings, loader := loader }
  let (result, after) := (controller.run input).run world
  writeLog settings.global.debug after.log
  match result with
  | .error e =>
      IO.eprintln e.text
      return 1
  | .ok result =>
      let stdout ← IO.getStdout
      result.outputs.forM fun written =>
        stdout.write ⟨written.reverse.flatten.toArray⟩
      stdout.flush
      saveFile target world.files after.files
      return UInt32.ofNat result.status.toNat

/- Run the filter with the settings in a file. -/
def run
    (options : CommandLine.Options) : IO UInt32 := do
  let files ← addFile options.file {}
  let clock ← readClock
  let world : World := {
    files := files
    stamp := .ofClock clock
    isPlain_stamp := Stamp.isPlain_ofClock clock
    machine := ← machineName }
  let (result, world) :=
    (Settings.load (.named options.file)).run world
  match result with
  | .error e =>
      IO.eprintln e.text
      return 1
  | .ok settings =>
      let debug := settings.global.debug || options.debug
      let settings := { settings with
        global := { settings.global with debug := debug } }
      let nexthop := Text.trim (settings.global.nexthop.getD "")
      let files ← addFile nexthop world.files
      -- Nothing is logged before the settings are known.
      runEngine settings nexthop { world with
        log := []
        files := { files with
          directories := [settings.global.queueDir] } }

end MailFilter.Program

open MailFilter in
def main
    (arguments : List String) : IO UInt32 := do
  match CommandLine.parse arguments with
  | .help =>
      IO.print CommandLine.usage
      return 0
  | .version =>
      IO.println CommandLine.versionText
      return 0
  | .refused reason =>
      IO.eprintln reason
      return 2
  | .start options => Program.run options
