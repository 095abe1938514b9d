import ModBus.Object
import ModBus.Czmq.ZList

/-! `message_t`: how a message is read off a socket, the getters of its body,
and the messages that the fabric itself builds. -/

namespace ModBus

open Libc Czmq

/-- Addresses stand for the pointers that the program compares or follows. -/
abbrev Addr := Nat

structure Message where
  addr : Addr
  identity : String
  command : String
  actionid : String
  isLocal : Bool
  object : Object
  inTimestamp : UInt64
  outTimestamp : UInt64
  processTimestamp : UInt64
  routedVia : Option String
  /-- The pointer itself, where it leads into a module and not into `globals`. -/
  viaModule : Option Addr
  iface : Option Addr
  version : UInt64
  function : Option String
  module : Option String
  /-- The copy of the interface's globals. -/
  globals : Option (ZList String)

/-- One frame of a `zmsg_t`, with what `msgpack_unpack_next` makes of it. -/
structure Frame where
  data : List UInt8
  object : Option Object

def Frame.text (frame : Frame) : String :=
  String.ofList (frame.data.map fun byte => Char.ofNat byte.toNat)

/-- The buffer that `log_err`, `log_mod` and `log_tnx` print into has `MSGSZ - 128` bytes.
The model logs as the program does at level 0, without `log_info` and `log_debug`. -/
def logPrint (text : String) : Except Fault String := sprintfTo 896 text

def vsprintf : List Char → Except Fault (List Char)
  | [] => .ok []
  | '%' :: '%' :: rest => do return '%' :: (← vsprintf rest)
  | '%' :: _ => .error .missingArgument
  | c :: rest => do return c :: (← vsprintf rest)

/-- `log_err("unknown command %s", value)` and its like: the first argument is the
name, so that what a peer sent is the format. -/
def logAsFormat (format : String) : Except Fault String := do
  logPrint (String.ofList (← vsprintf format.toList))

def messageCheckCommand (object : Object) : Except Fault (Option String) := do
  match ← mGetString object "command" with
  | none => return none
  | some value =>
      if value ∈ ["introduce", "ping", "pong", "stop", "call", "request", "exception", "result"]
      then return some value
      else
        let _ ← logAsFormat value
        return none

def messageCheckActionid (object : Object) : Except Fault (Option String) := do
  match ← mGetString object "actionid" with
  | none => return none
  | some value => if value.length < 5 then return none else return some value

def messageNew (addr : Addr) (now : UInt64) (isLocal : Bool) (identity : String)
    (object : Object) (command actionid : String) : Message where
  addr := addr
  identity := identity
  command := command
  actionid := actionid
  isLocal := isLocal
  object := object
  inTimestamp := now
  outTimestamp := 0
  processTimestamp := 0
  routedVia := none
  viaModule := none
  iface := none
  version := 0
  function := none
  module := none
  globals := none

def frameIdentity (frame : Frame) (isLocal : Bool) : String :=
  if isLocal then strhex frame.data else cString frame.text

def messageFromzmq (zmsg : List Frame) (isLocal : Bool) (addr : Addr) (now : UInt64) :
    Except Fault (Option Message) :=
  match zmsg with
  | [identityFrame, payloadFrame] =>
      if payloadFrame.data.isEmpty then .ok none
      else
        match payloadFrame.object with
        | some (.map kvs) => do
            match ← messageCheckCommand (.map kvs) with
            | none => return none
            | some command =>
                match ← messageCheckActionid (.map kvs) with
                | none => return none
                | some actionid =>
                    return some (messageNew addr now isLocal
                      (frameIdentity identityFrame isLocal) (.map kvs) command actionid)
        | _ => .ok none
  | _ => .ok none

def messageTomsg (message : Message) : Object := message.object

def bodyString (message : Message) (key : String) : Except Fault (Option String) := do
  match ← mFindMap message.object "body" with
  | none => return none
  | some body => mGetString body key

def bodyInt (message : Message) (key : String) : Except Fault UInt64 := do
  match ← mFindMap message.object "body" with
  | none => return 0
  | some body => mGetInt body key

def toInt (value : UInt64) : Int32 := value.toUInt32.toInt32

def messageGetReqCommand (message : Message) := bodyString message "command"

def messageGetFunc (message : Message) := bodyString message "function"

def messageGetModule (message : Message) := bodyString message "module"

def messageGetExceptionString (message : Message) := bodyString message "string"

def messageGetMessage (message : Message) := bodyString message "message"

def messageGetName (message : Message) := bodyString message "name"

def messageGetDesc (message : Message) := bodyString message "desc"

def messageGetIfVersion (message : Message) : Except Fault UInt64 := bodyInt message "version"

def messageGetExceptionCode (message : Message) : Except Fault Int32 := do
  return toInt (← bodyInt message "exception")

def messageGetPid (message : Message) : Except Fault Int32 := do
  return toInt (← bodyInt message "pid")

def messageGetProvides (message : Message) : Except Fault (Option (ZHash Unpacked)) := do
  match ← mFindMap message.object "body" with
  | none => return none
  | some body =>
      match ← mFindMap body "provides" with
      | none => return none
      | some provides => return some (← mUnpackMap provides ∅)

def messageGetIfaceList (message : Message) : Except Fault (Option (List String)) := do
  match ← mFindMap message.object "body" with
  | none => return none
  | some body =>
      match ← mFindMap body "result" with
      | none => return none
      | some result =>
          match ← mFindMap result "IfaceList" with
          | none => return none
          | some modlist => return some (← mUnpackArray modlist)

def packed (command : String) (body : Object) (actionid : String) : Object :=
  .map [(.raw "command", .raw command), (.raw "body", body), (.raw "actionid", .raw actionid)]

def messageResponse (data actionid : String) : Object :=
  packed "result"
    (.map [(.raw "result", .map [(.raw "introduce", .raw data)]),
      (.raw "seqno", .positiveInteger 0)]) actionid

def messageException (actionid exMsg : String) (exNum : Int32) : Object :=
  packed "exception"
    (.map [(.raw "string", .raw exMsg), (.raw "exception", packFixInt32 exNum)]) actionid

def messageIfacelistRequest (actionid : String) : Object :=
  packed "request" (.map [(.raw "command", .raw "IfaceList")]) actionid

def messageStop (actionid : String) : Object :=
  packed "stop" (.map [(.raw "time", .raw "0")]) actionid

def packIfaceList (paths : List String) (actionid : String) : Object :=
  packed "result"
    (.map [(.raw "result", .map [(.raw "IfaceList", .array (paths.map .raw))]),
      (.raw "seqno", .positiveInteger 0)]) actionid

theorem messageFromzmq_some {zmsg : List Frame} {isLocal : Bool} {addr : Addr} {now : UInt64}
    {message : Message} (accepted : messageFromzmq zmsg isLocal addr now = .ok (some message)) :
    ∃ identityFrame payloadFrame object command actionid,
      zmsg = [identityFrame, payloadFrame] ∧
      message = messageNew addr now isLocal (frameIdentity identityFrame isLocal) object command
        actionid := by
  unfold messageFromzmq at accepted
  split at accepted
  · rename_i identityFrame payloadFrame
    split at accepted
    · simp at accepted
    · split at accepted
      · rename_i kvs _
        obtain ⟨command?, _, accepted⟩ := bind_ok.mp accepted
        cases command? with
        | none => simp [pure, Except.pure] at accepted
        | some command =>
            obtain ⟨actionid?, _, accepted⟩ := bind_ok.mp accepted
            cases actionid? with
            | none => simp [pure, Except.pure] at accepted
            | some actionid =>
                simp only [pure, Except.pure, Except.ok.injEq, Option.some.injEq] at accepted
                exact ⟨identityFrame, payloadFrame, .map kvs, command, actionid, rfl,
                  accepted.symm⟩
      · simp at accepted
  · simp at accepted

theorem messageFromzmq_object {identityFrame payloadFrame : Frame} {isLocal : Bool} {addr : Addr}
    {now : UInt64} {message : Message}
    (accepted : messageFromzmq [identityFrame, payloadFrame] isLocal addr now =
      .ok (some message)) : payloadFrame.object = some message.object := by
  simp only [messageFromzmq] at accepted
  split at accepted
  · cases accepted
  · split at accepted
    · rename_i kvs unpacked
      obtain ⟨command?, _, accepted⟩ := bind_ok.mp accepted
      cases command? with
      | none => cases accepted
      | some command =>
          obtain ⟨actionid?, _, accepted⟩ := bind_ok.mp accepted
          cases actionid? with
          | none => cases accepted
          | some actionid =>
              cases accepted
              exact unpacked
    · cases accepted

theorem messageFromzmq_command {zmsg : List Frame} {isLocal : Bool} {addr : Addr} {now : UInt64}
    {message : Message} (accepted : messageFromzmq zmsg isLocal addr now = .ok (some message)) :
    messageCheckCommand message.object = .ok (some message.command) := by
  unfold messageFromzmq at accepted
  split at accepted
  · split at accepted
    · cases accepted
    · split at accepted
      · rename_i kvs _
        obtain ⟨command?, checked, accepted⟩ := bind_ok.mp accepted
        cases command? with
        | none => cases accepted
        | some command =>
            obtain ⟨actionid?, _, accepted⟩ := bind_ok.mp accepted
            cases actionid? with
            | none => cases accepted
            | some actionid =>
                cases accepted
                exact checked
      · cases accepted
  · cases accepted

theorem messageCheckCommand_packed (command : String) (body : Object) (actionid : String) :
    messageCheckCommand (packed command body actionid) =
      if cString command ∈
        ["introduce", "ping", "pong", "stop", "call", "request", "exception", "result"]
      then .ok (some (cString command))
      else (logAsFormat (cString command)).map fun _ => none := by
  have first : mGetString (packed command body actionid) "command" =
      .ok (some (cString command)) := rfl
  simp only [messageCheckCommand, first, bind, Except.bind, pure, Except.pure]
  split
  · rfl
  · cases logAsFormat (cString command) <;> rfl

end ModBus
