import ModBus.ConfigFile
import ModBus.Files

/-! `logger-file.c`: the thread that writes the log. Its counters live in one
process and start over with the next; the files stay. -/

namespace ModBus

open Libc Files

def msgsz : Nat := 1024

inductive LogEffect
  | written (file text : String)
  | renamed (old new : String)
  | printed (text : String)
  deriving DecidableEq, Repr

structure Kernel where
  descriptor : Int32
  rename : Nat → Int32
  write : Nat → Int

/-- The static variables of the thread, the files, and what has been done so far.
No file is renamed while it is open, so that the descriptor always means
the file that the configuration names. -/
structure LogThread where
  fileCount : Nat
  bytesWrited : Int64
  fLog : Int32
  disk : Disk String Char
  effects : List LogEffect

def rolledName (conf : ConfigFile) (count : Nat) : String :=
  conf.logFile ++ "." ++ toString count

def logLine (text : String) : String := fitted (msgsz - 2) (text ++ "\r\n")

namespace LogThread

def openLog (conf : ConfigFile) (descriptor : Int32) (thread : LogThread) : LogThread :=
  { thread with
    fLog := descriptor
    disk := if descriptor < 0 then thread.disk else thread.disk.create conf.logFile }

def writeLog (conf : ConfigFile) (kernel : Kernel) (buf : String) (thread : LogThread) : LogThread :=
  let count := kernel.write buf.length
  let text := buf.toList.take count.toNat
  { thread with
    bytesWrited := thread.bytesWrited + Int64.ofInt count
    disk := thread.disk.append conf.logFile text
    effects := thread.effects ++ [.written conf.logFile (String.ofList text)] }

/-- The size that `log_max_size` megabytes are in a `long` is reached. -/
def Full (conf : ConfigFile) (thread : LogThread) : Prop :=
  conf.logMaxSize ≠ 0 ∧ (Int64.ofInt conf.logMaxSize * 1024 * 1024).toInt ≤
    (thread.disk.content conf.logFile).length

instance (conf : ConfigFile) (thread : LogThread) : Decidable (thread.Full conf) :=
  inferInstanceAs (Decidable (_ ∧ _))

def tryRename (conf : ConfigFile) (kernel : Kernel) :
    Nat → LogThread → Except Fault (Bool × LogThread)
  | 0, thread => .ok (false, thread)
  | tries + 1, thread =>
      let filename := rolledName conf thread.fileCount
      -- `sprintf` writes a longer name past the end of `filename`.
      if 256 ≤ filename.length then .error .outOfBounds
      else
        let counted := { thread with fileCount := thread.fileCount + 1 }
        if kernel.rename thread.fileCount = 0 then
          .ok (true, { counted with
            disk := thread.disk.rename conf.logFile filename
            effects := thread.effects ++ [.renamed conf.logFile filename] })
        else tryRename conf kernel tries counted

def roll (conf : ConfigFile) (kernel : Kernel) (buf : String) (thread : LogThread) :
    Except Fault LogThread :=
  match tryRename conf kernel (64 - thread.fileCount) { thread with fLog := -1 } with
  | .error fault => .error fault
  | .ok (false, thread) => .ok thread
  | .ok (true, thread) =>
      let opened := thread.openLog conf kernel.descriptor
      .ok (if 0 < opened.fLog then opened.writeLog conf kernel buf else opened)

def toFile (conf : ConfigFile) (kernel : Kernel) (buf : String) (thread : LogThread) :
    Except Fault LogThread :=
  if 0 < thread.fLog then
    if thread.Full conf then
      if conf.logMethod = "roll" then thread.roll conf kernel buf
      else if conf.logMethod = "none" then .ok (thread.writeLog conf kernel buf)
      else .ok thread
    else .ok (thread.writeLog conf kernel buf)
  else .ok thread

def toConsole (conf : ConfigFile) (buf : String) (thread : LogThread) : LogThread :=
  if conf.daemon = 0 then { thread with effects := thread.effects ++ [.printed buf] } else thread

end LogThread

def logText : Option (List String) → Option String
  | some (command :: frames) => if command = "LOG" then frames.head? else none
  | _ => none

def loggerThreadEvent (conf : ConfigFile) (kernel : Kernel) (msg : Option (List String))
    (thread : LogThread) : Except Fault LogThread :=
  match logText msg with
  | none => .ok thread
  | some text =>
      let buf := logLine text
      match thread.toFile conf kernel buf with
      | .error fault => .error fault
      | .ok thread => .ok (thread.toConsole conf buf)

def loggerFileThread (conf : ConfigFile) (descriptor : Int32) (thread : LogThread) : LogThread :=
  { thread with fileCount := 0, bytesWrited := 0, fLog := 0 }.openLog conf descriptor

inductive LogEvent
  | started (descriptor : Int32)
  | received (kernel : Kernel) (msg : Option (List String))

def LogEvent.step (conf : ConfigFile) (thread : LogThread) : LogEvent → Except Fault LogThread
  | .started descriptor => .ok (loggerFileThread conf descriptor thread)
  | .received kernel msg => loggerThreadEvent conf kernel msg thread

def logRun (conf : ConfigFile) (disk : Disk String Char) (descriptor : Int32)
    (events : List LogEvent) : Except Fault LogThread :=
  events.foldlM (LogEvent.step conf) (loggerFileThread conf descriptor ⟨0, 0, 0, disk, []⟩)

end ModBus
