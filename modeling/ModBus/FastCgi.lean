import ModBus.MLookup
import ModBus.Transition

/-! The FastCGI module: HTTP requests that become calls to the fabric, and the
replies that answer them. Requests are numbered as they are accepted; what is
written to a request is kept until it is finished. -/

namespace ModBus

open Libc Czmq

structure FastCgi where
  rqList : ZHash Nat := ∅
  accepted : Nat := 0
  /-- The actionids that `getActionid` gave. -/
  issued : List String := []
  /-- The messages that `zmsg_send` took, each with the request it is for. -/
  sent : List (Nat × Object) := []
  /-- The calls of `FCGX_Finish_r`, each with what the client receives. -/
  finished : List (Nat × String) := []

/-- What `upstream_event` meets: the return codes of `FCGX_InitRequest`,
`FCGX_Accept_r` and `zmsg_send`, the environment and the next actionid. -/
structure Upstream where
  initRequest : Int := 0
  acceptR : Int := 0
  envp : List String
  actionid : String
  zmsgSend : Int := 0

def http400 : String := "Status: 400 Bad Request\r\n\r\n"

def FastCgi.accept (fcgi : FastCgi) : FastCgi := { fcgi with accepted := fcgi.accepted + 1 }

def FastCgi.issue (fcgi : FastCgi) (actionid : String) : FastCgi :=
  { fcgi with issued := fcgi.issued ++ [actionid] }

def FastCgi.finish (fcgi : FastCgi) (request : Nat) (out : String) : FastCgi :=
  { fcgi with finished := fcgi.finished ++ [(request, out)] }

def FastCgi.store (fcgi : FastCgi) (actionid : String) (request : Nat) (msg : Object) : FastCgi :=
  { fcgi with
    sent := fcgi.sent ++ [(request, msg)]
    rqList := (fcgi.rqList.insertNew actionid request).2 }

def FastCgi.answer (fcgi : FastCgi) (actionid : String) (request : Nat) (out : String) : FastCgi :=
  { fcgi.finish request out with rqList := fcgi.rqList.erase actionid }

/-- An entry of the environment, copied into `param[256]` and `value[8192]`; its
two lengths are cut down to an `unsigned int`. -/
def packParameter (entry : String) : Except Fault (Object × Object) :=
  let chars := entry.toList
  if '=' ∉ chars then .error .nullDeref
  else
    let pos := (chars.takeWhile (· ≠ '=')).length % 2 ^ 32
    if pos = 0 then .ok (.raw "", .raw "")
    else
      let valPos := (chars.length - pos) % 2 ^ 32
      if 256 ≤ pos ∨ 8192 ≤ valPos then .error .outOfBounds
      else .ok (.raw (String.ofList (chars.take pos)),
        .raw (String.ofList ((chars.drop (pos + 1)).take valPos)))

def packRequest (command module function version actionid : String)
    (parameters : List (Object × Object)) : Object :=
  .map [(.raw "command", .raw command),
    (.raw "body", .map [(.raw "module", .raw module), (.raw "function", .raw function),
      (.raw "version", .positiveInteger (atoi version).toInt64.toUInt64),
      (.raw "parameters", .map parameters), (.raw "seqno", .positiveInteger 0)]),
    (.raw "actionid", .raw actionid)]

/-- A command, a module, a function and a version, separated by slashes. The
first character of the URI is skipped unseen. -/
def uriTokens (requestUri : String) : List String :=
  strtok '/' (String.ofList (requestUri.toList.drop 1))

section Module

-- `FCGX_GetParam` of the FastCGI library.
variable (fcgxGetParam : String → List String → Option String)

def upstreamEvent (fcgi : FastCgi) (event : Upstream) : Except Fault FastCgi :=
  if event.initRequest ≠ 0 then .ok fcgi
  else if event.acceptR < 0 then .ok fcgi
  else
    let request := fcgi.accepted
    match fcgxGetParam "REQUEST_URI" event.envp with
    | none => .ok (fcgi.accept.finish request "")
    | some requestUri =>
        if requestUri = "" then .error .outOfBounds
        else
          let fcgi := fcgi.accept.issue event.actionid
          match uriTokens requestUri with
          | command :: module :: function :: version :: _ => do
              let parameters ← event.envp.mapM packParameter
              let msg := packRequest command module function version event.actionid parameters
              if event.zmsgSend = 0 then return fcgi.store event.actionid request msg
              else return fcgi -- logged only
          | _ => .ok (fcgi.finish request http400)

def statusString (code : Int32) : String :=
  if code = 200 then "OK"
  else if code = 400 then "Bad Request"
  else if code = 404 then "Not Found"
  else "Internal server error"

def statusLine (code : Int32) (status : String) : String :=
  "Status: " ++ decimal code.toInt ++ " " ++ status ++ "\r\n"

def resultStatus (o : Object) : String :=
  match o with
  | .positiveInteger u64 =>
      let code := u64.toUInt32.toInt32
      statusLine code (statusString code)
  | _ => statusLine 503 "Internal server error"

def putRaw (o : Object) : Except Fault String :=
  match o with
  | .raw bytes => .ok bytes
  | _ => .error .wrongTag

/-- Two objects a line; of an odd number, the one after the last is read. -/
def putHeaders : List Object → Except Fault String
  | [] => .ok ""
  | [_] => .error .outOfBounds
  | name :: value :: rest => do
      return (← putRaw name) ++ ":" ++ (← putRaw value) ++ "\r\n" ++ (← putHeaders rest)

def putPayload : List Object → Except Fault String
  | [] => .ok ""
  | piece :: rest => do return (← putRaw piece) ++ (← putPayload rest)

def arrayItems : Object → List Object
  | .array items => items
  | _ => []

def putResult (object : Object) : Except Fault String := do
  match ← mLookup object "result" with
  | none => return ""
  | some (.object (.array [status, headers, payload])) =>
      return resultStatus status ++ (← putHeaders (arrayItems headers)) ++ "\r\n" ++
        (← putPayload (arrayItems payload)) ++ "\r\n"
  | some (.object _) => return ""
  | some _ => .error .wrongTag

def putException (object : Object) : Except Fault String := do
  let start := statusLine 500 "Internal server error" ++ "\r\n"
  match ← mLookup object "string" with
  | none => return start ++ "\r\n"
  | some (.text message) => return start ++ message ++ "\r\n"
  | some _ => .error .wrongTag

def putReply (object : Object) : Except Fault String := do
  match ← mLookup object "command" with
  | none => return statusLine 500 "Internal server error" ++ "\r\n" ++ "\r\n"
  | some (.text command) =>
      if command = "result" then putResult object
      else if command = "exception" then putException object
      else return ""
  | some _ => .error .wrongTag

/-- The payload is `none` when msgpack cannot unpack it. An actionid that is not
text is an address within the reply, which is freed in the end. -/
def zmqEvent (fcgi : FastCgi) (payload : Option Object) : Except Fault FastCgi :=
  match payload with
  | none => .ok fcgi
  | some object => do
      match ← mLookup object "actionid" with
      | none => return fcgi
      | some (.text actionid) =>
          match fcgi.rqList.lookup actionid with
          | none => return fcgi
          | some request =>
              let out ← putReply object
              return fcgi.answer actionid request out
      | some _ => .error .wrongTag

inductive FcgiEvent
  | upstream (event : Upstream)
  | zmq (payload : Option Object)

def fcgiEvent (fcgi : FastCgi) : FcgiEvent → Except Fault FastCgi
  | .upstream event => upstreamEvent fcgxGetParam fcgi event
  | .zmq payload => zmqEvent fcgi payload

def FreshActionid (fcgi : FastCgi) : FcgiEvent → Prop
  | .upstream event => event.actionid ∉ fcgi.issued
  | .zmq _ => True

def fastcgi : Transition.System FastCgi FcgiEvent where
  initial fcgi := fcgi = {}
  step fcgi event next := FreshActionid fcgi event ∧ fcgiEvent fcgxGetParam fcgi event = .ok next

end Module

/-- `FCGX_GetParam` as the library has it. -/
def namedParam (name : String) (envp : List String) : Option String :=
  envp.findSome? fun entry =>
    if (name ++ "=").toList.isPrefixOf entry.toList then
      some (String.ofList (entry.toList.drop (name.length + 1)))
    else none

end ModBus
