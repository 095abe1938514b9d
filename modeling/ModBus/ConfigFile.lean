import ModBus.Object

/-! `config.c`: how an ini file becomes the configuration. Every value passes
through buffers of fixed sizes, and the module sections are read in a loop of
their own, with whatever of the server section has been read by then. -/

namespace ModBus

open Libc Czmq

/-- What the parser makes of a file: its sections in order, and the values of
their keys without quotes and comments. -/
structure Ini where
  sections : List String
  value? : String → String → Option String

def fitted (size : Nat) (text : String) : String := String.ofList (text.toList.take (size - 1))

theorem fitted_length (size : Nat) (text : String) : (fitted size text).length ≤ size - 1 := by
  rw [fitted, String.length_ofList]
  exact List.length_take_le _ _

theorem fitted_eq {size : Nat} (text : String) (positive : 0 < size) :
    fitted size text = text ↔ text.length < size := by
  constructor
  · intro same
    have bound := fitted_length size text
    rw [same] at bound
    omega
  · intro short
    rw [fitted, List.take_of_length_le (by rw [String.length_toList]; omega), String.ofList_toList]

theorem fitted_empty {size : Nat} (text : String) (room : 1 < size) :
    fitted size text = "" ↔ text = "" := by
  rw [fitted, ← String.toList_inj, String.toList_ofList, ← String.toList_inj]
  exact List.take_eq_nil_iff.trans ⟨fun either => either.resolve_left (by omega), Or.inr⟩

def iniGets (ini : Ini) (section' key default' : String) (size : Nat) : String :=
  fitted size ((ini.value? section' key).getD default')

def Ini.gets (ini : Ini) (section' key default' : String) : String :=
  iniGets ini section' key default' 256

def octal (text : String) : UInt32 :=
  let value (cs : List Char) : Int :=
    (cs.takeWhile fun c => decide ('0' ≤ c ∧ c ≤ '7')).foldl (fun n c => 8 * n + (c.toNat - 48)) 0
  match text.toList.dropWhile isSpace with
  | '-' :: cs => (Int32.ofInt (max longMin (-value cs))).toUInt32
  | '+' :: cs => (Int32.ofInt (min longMax (value cs))).toUInt32
  | cs => (Int32.ofInt (min longMax (value cs))).toUInt32

/-- `config_module_t`, without the buffers that only pass a value on. -/
structure ModuleSection where
  moduleName : String
  modulePath : String
  moduleWorkpath : String
  moduleUser : String
  moduleGroup : String
  moduleInstances : Int32
  moduleArgs : String
  moduleMaxmem : Int32
  moduleStartTimeout : Int32
  logErr : Bool
  logOut : Bool

structure ConfigFile where
  socket : String := ""
  socketFile : String := ""
  pidFile : String := ""
  logFile : String := ""
  modulesPath : String := ""
  modulesWorkpath : String := ""
  modulesLogErr : String := ""
  modulesLogOut : String := ""
  socketMode : UInt32 := 0
  socketUser : String := ""
  socketGroup : String := ""
  logLevel : Int32 := 0
  debug : Bool := false
  global : Int32 := 0
  daemon : Int32 := 0
  runas : String := ""
  iface : String := ""
  logMaxSize : Int := 0
  logMethod : String := ""
  logMode : UInt32 := 0
  modules : Option (ZHash ModuleSection) := none
  queuePoll : Int32 := 0
  inTimeout : Int32 := 0
  outTimeout : Int32 := 0
  processTimeout : Int32 := 0
  modlistPoll : Int32 := 0

def orKeep {α : Type} (value : String) (read : String → α) (old : α) : α :=
  if value = "" then old else read value

/-- The first two tokens of an owner, each in a buffer of eight bytes. `strtok`
returns NULL for a missing one, and `snprintf` is given it as a text. -/
def ownerParts (owner : String) : Except Fault (String × String) :=
  if owner = "" then .ok ("", "")
  else
    match strtok ':' owner with
    | user :: group :: _ => .ok (fitted 8 user, fitted 8 group)
    | _ => .error .nullDeref

def serverFields (ini : Ini) (owner : String × String) (config : ConfigFile) : ConfigFile :=
  let gets := ini.gets "server"
  let sName := gets "name" ""
  let sPath := gets "s_path" "./"
  { config with
    socket := fitted 256 ("ipc://" ++ sPath ++ sName ++ ".socket")
    socketFile := fitted 256 (sPath ++ sName ++ ".socket")
    socketUser := orKeep (gets "s_owner" "") (fun _ => owner.1) config.socketUser
    socketGroup := orKeep (gets "s_owner" "") (fun _ => owner.2) config.socketGroup
    socketMode := octal (gets "s_mode" "0666")
    pidFile := fitted 256 (gets "pid_path" "./" ++ sName ++ ".pid")
    logFile := fitted 256 (gets "log_path" "./" ++ sName ++ ".log")
    modulesPath := fitted 256 (gets "mod_path" "./")
    modulesWorkpath := fitted 256 (gets "mod_work_path" "./")
    debug := orKeep (gets "debug" "") (fun value => decide (atoi value ≠ 0)) config.debug
    logLevel := orKeep (gets "log_level" "") atoi config.logLevel
    global := orKeep (gets "global" "") atoi config.global
    daemon := orKeep (gets "daemon" "") atoi 0
    queuePoll := orKeep (gets "queue_poll" "10") atoi config.queuePoll
    modlistPoll := orKeep (gets "modlist_poll" "5000") atoi config.modlistPoll
    inTimeout := orKeep (gets "in_timeout" "1000") atoi config.inTimeout
    outTimeout := orKeep (gets "out_timeout" "1000") atoi config.outTimeout
    processTimeout := orKeep (gets "process_timeout" "10000") atoi config.processTimeout
    runas := orKeep (gets "runas" "") (fitted 16) config.runas
    iface := orKeep (gets "iface" "") (fitted 16) config.iface
    logMaxSize := orKeep (gets "log_max_size" "0") strtol config.logMaxSize
    -- `strncpy` leaves out the terminator of a text of 16 characters or more.
    logMethod := orKeep (gets "log_method" "none") (fitted 17) config.logMethod
    logMode := orKeep (gets "log_mode" "0666") octal config.logMode
    modulesLogErr := orKeep (gets "mod_log_err" "./") (fitted 256) config.modulesLogErr
    modulesLogOut := orKeep (gets "mod_log_out" "./") (fitted 256) config.modulesLogOut }

def readServer (ini : Ini) (config : ConfigFile) : Except Fault ConfigFile :=
  match ownerParts (ini.gets "server" "s_owner" "") with
  | .error fault => .error fault
  | .ok owner => .ok (serverFields ini owner config)

/-- What a module section says. The text of `instances` goes through a buffer of
two bytes. -/
def moduleFields (ini : Ini) (config : ConfigFile) (module : String) (owner : String × String) :
    ModuleSection :=
  let gets := ini.gets module
  { moduleName := fitted 32 module
    modulePath := fitted 256 (config.modulesPath ++ gets "exec" "")
    moduleWorkpath := orKeep (gets "workpath" "./")
      (fun value => fitted 256 (config.modulesWorkpath ++ value)) ""
    moduleUser := owner.1
    moduleGroup := owner.2
    moduleInstances := orKeep (iniGets ini module "instances" "1" 2) atoi 0
    moduleArgs := fitted 256 (config.socket ++ " " ++ gets "args" "")
    moduleMaxmem := orKeep (gets "maxmem" "0") atoi 0
    moduleStartTimeout := orKeep (gets "start_timeout" "10") atoi 0
    logErr := orKeep (gets "log_err" "0") (fun value => decide (atoi value ≠ 0)) false
    logOut := orKeep (gets "log_out" "0") (fun value => decide (atoi value ≠ 0)) false }

def moduleSection (ini : Ini) (config : ConfigFile) (module : String) :
    Except Fault (Option ModuleSection) :=
  if ini.gets module "exec" "" = "" then .ok none
  else
    match ownerParts (ini.gets module "owner" "") with
    | .error fault => .error fault
    | .ok owner => .ok (some (moduleFields ini config module owner))

def readModules (ini : Ini) (config : ConfigFile) :
    List String → ZHash ModuleSection → Except Fault (ZHash ModuleSection)
  | [], modules => .ok modules
  | name :: rest, modules =>
      let module := fitted 50 name
      if module = "" then .ok modules
      else
        match moduleSection ini config module with
        | .error fault => .error fault
        | .ok none => readModules ini config rest modules
        | .ok (some entry) =>
            readModules ini config rest (ZHash.insertNew modules module entry).2

def readSections (ini : Ini) : List String → ConfigFile → Except Fault ConfigFile
  | [], config => .ok config
  | name :: rest, config =>
      let name := fitted 50 name
      if name = "" then .ok config
      else if name = "server" then
        match readServer ini config with
        | .error fault => .error fault
        | .ok config => readSections ini rest config
      else if name = "modules" then
        match readModules ini config rest ∅ with
        | .error fault => .error fault
        | .ok modules => readSections ini rest { config with modules := some modules }
      else readSections ini rest config

def configNew (ini : Ini) : Except Fault ConfigFile := readSections ini ini.sections {}

end ModBus
