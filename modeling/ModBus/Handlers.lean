import ModBus.Introduce

/-! The handlers of `modbusd.c` for calls, their answers, the notifications of
the process manager and the queue's timer. -/

namespace ModBus

open Libc Czmq

/-- The end of an answer from a local module: it is restarted when that was
asked for meanwhile, else it is idle again and the queue is walked. -/
def putBack (env : Env) (identity : String) (p : Proxy) : Except Fault Proxy :=
  match p.modules.lookup identity with
  | none => .ok p
  | some mod =>
      if mod.needRestart then .ok (zstrSend (.restart mod.sPid) p)
      else placeAll env (p.setModule identity { mod with state := .idle })

def answerCaller (env : Env) (stored : Message) (payload : Object) (p : Proxy) : Proxy :=
  (sendMessage env (.reply stored) payload stored.identity p).2.deleteCall stored.actionid

def answerFabric (env : Env) (stored : Message) (payload : Object) (p : Proxy) : Proxy :=
  match p.fabList.lookup stored.identity with
  | some fab =>
      (sendMessage env (.reply stored) payload fab.identity.text p).2.deleteCall stored.actionid
  | none => p.deleteCall stored.actionid

/-- `%]` is no conversion: it is printed as it stands, and takes no argument. -/
def invalidText (message stored : Message) : String :=
  "invalid state [%] for [" ++ message.actionid ++ "-" ++ stored.identity ++ "]"

def invalidState (message stored : Message) (p : Proxy) : Except Fault Proxy :=
  match logPrint (invalidText message stored) with
  | .error fault => .error fault
  | .ok _ => .ok (p.deleteCall stored.actionid)

def processResult (env : Env) (message : Message) (p : Proxy) : Except Fault Proxy :=
  match p.queue.lookup message.actionid with
  | some stored =>
      match message.isLocal, stored.isLocal with
      | true, true =>
          putBack env message.identity (answerCaller env stored (messageTomsg message) p)
      | false, true => .ok (answerCaller env stored (messageTomsg message) p)
      | true, false =>
          putBack env message.identity (answerFabric env stored (messageTomsg message) p)
      | false, false => invalidState message stored p
  | none => processIfaceList message p

/-- A busy fabric's exception resets the route of the exception itself, so the
stored call is placed again with the route that it has. -/
def processException (env : Env) (message : Message) (p : Proxy) : Except Fault Proxy :=
  match p.queue.lookup message.actionid with
  | some stored =>
      match message.isLocal, stored.isLocal with
      | true, true =>
          if message.identity ∈ p.modules then
            putBack env message.identity (answerCaller env stored (messageTomsg message) p)
          else .ok p
      | false, true =>
          match messageGetExceptionCode message with
          | .error fault => .error fault
          | .ok code =>
              if code = modulesBusy then
                match placeQueued env message.actionid p with
                | .error fault => .error fault
                | .ok (_, p) => .ok p
              else .ok (answerCaller env stored (messageTomsg message) p)
      | true, false =>
          putBack env message.identity (answerFabric env stored (messageTomsg message) p)
      | false, false => invalidState message stored p
  | none =>
      match messageGetExceptionString message with
      | .error fault => .error fault
      | .ok _ => .ok p

def refuse (env : Env) (call : Message) (text : String) (code : Int32) (p : Proxy) : Proxy :=
  (sendMessage env (.reply call) (messageException call.actionid text code) call.identity p).2

/-- A call under an `actionid` that is queued already is not queued: the failed
insertion goes unnoticed. -/
def enqueue (call : Message) (p : Proxy) : Proxy :=
  { p with queue := (ZHash.insertNew p.queue call.actionid call).2 }

def readCall (message : Message) : Except Fault Message := do
  let version ← messageGetIfVersion message
  let module ← messageGetModule message
  let function ← messageGetFunc message
  return { message with version := version, module := module, function := function }

def Message.wellFormedCall (call : Message) : Bool :=
  call.module.isSome && call.function.isSome && call.version != 0

def Message.side (message : Message) : String := if message.isLocal then "local" else "global"

/-- What is logged of a call. The version is printed as an `int`. -/
def receivedText (call : Message) : String :=
  "received " ++ call.side ++ " CALL [" ++ call.module.getD "" ++ ":" ++
    call.function.getD "" ++ ":" ++ decimal (toInt call.version).toInt ++ "]"

def unplacedText (call : Message) : String :=
  "exception for " ++ call.side ++ " CALL " ++ call.module.getD "" ++ " - no modules found"

def malformedText (call : Message) : String :=
  "CALL [" ++ call.identity ++ "] have wrong structure, skip"

def processCall (env : Env) (message : Message) (p : Proxy) : Except Fault Proxy :=
  match readCall message with
  | .error fault => .error fault
  | .ok call =>
      if call.wellFormedCall then
        match logPrint (receivedText call) with
        | .error fault => .error fault
        | .ok _ =>
            match placeCall env call p with
            | .error fault => .error fault
            | .ok (rc, call, p) =>
                if rc ≠ -1 then
                  if !call.isLocal && call.routedVia.isNone then
                    .ok (refuse env call "No modules found" modulesBusy p)
                  else .ok (enqueue call p)
                else
                  match logPrint (unplacedText call) with
                  | .error fault => .error fault
                  | .ok _ => .ok (refuse env call "No modules found" modulesBusy p)
      else
        match logPrint (malformedText call) with
        | .error fault => .error fault
        | .ok _ => .ok (refuse env call "Wrong CALL structure" wrongCallStructure p)

def processReqIfaceList (env : Env) (message : Message) (p : Proxy) : Except Fault Proxy :=
  match p.fabList.lookup message.identity with
  | none => .ok p
  | some fab =>
      match messageIfacelistResponse p.ifaces p.heap message.actionid with
      | .error fault => .error fault
      | .ok msg => .ok (sendMessage env .ifaceListResponse msg fab.identity.text p).2

def processRequest (env : Env) (message : Message) (p : Proxy) : Except Fault Proxy :=
  match messageGetReqCommand message with
  | .error fault => .error fault
  | .ok none => .ok p
  | .ok (some command) =>
      if command = "IfaceList" then processReqIfaceList env message p else .ok p

def processMessage (message : Message) (p : Proxy) : Except Fault Proxy :=
  match messageGetMessage message with
  | .error fault => .error fault
  | .ok _ => .ok p

def processStop (_message : Message) (p : Proxy) : Except Fault Proxy := .ok p

def processCommand (conf : Config) (env : Env) (message : Message) (answer : String)
    (p : Proxy) : Except Fault Proxy :=
  if message.command = "request" then processRequest env message p
  else if message.command = "result" then processResult env message p
  else if message.command = "call" then processCall env message p
  else if message.command = "exception" then processException env message p
  else if message.command = "introduce" then processIntroduce conf env message answer p
  else if message.command = "ping" then .ok p
  else if message.command = "pong" then .ok p
  else if message.command = "message" then processMessage message p
  else if message.command = "stop" then processStop message p
  else .ok p

def sLocalEvent (conf : Config) (env : Env) (zmsg : List Frame) (answer : String) (p : Proxy) :
    Except Fault Proxy :=
  match messageFromzmq zmsg true p.brk env.now with
  | .error fault => .error fault
  | .ok none => .ok p
  | .ok (some message) => processCommand conf env message answer { p with brk := p.brk + 1 }

def Proxy.markAlive (p : Proxy) (identity : String) : Proxy :=
  match p.fabList.lookup identity with
  | none => p
  | some fab => { p with fabList := ZHash.update p.fabList identity { fab with alive := true } }

def sGlobalEvent (conf : Config) (env : Env) (zmsg : List Frame) (answer : String) (p : Proxy) :
    Except Fault Proxy :=
  match messageFromzmq zmsg false p.brk env.now with
  | .error fault => .error fault
  | .ok none => .ok p
  | .ok (some message) =>
      processCommand conf env message answer
        ({ p with brk := p.brk + 1 }.markAlive message.identity)

def procmanCheckpid (command : String) (pid : Int32) (key : String) (p : Proxy) :
    Except Fault (Int × Proxy) :=
  match p.modules.lookup key with
  | none => .ok (0, p)
  | some mod =>
      if mod.pid = pid then
        if command = "remove" then
          match p.removeModule mod with
          | .error fault => .error fault
          | .ok p => .ok (-1, p)
        else if command = "restart" then
          if mod.state = .idle then
            .ok (-1, zstrSend (.restart mod.sPid)
              (p.setModule key { mod with state := .restarting }))
          else .ok (-1, p.setModule key { mod with needRestart := true })
        else .ok (-1, p)
      else .ok (0, p)

def sProcmanEvent (env : Env) (command cPid : String) (p : Proxy) : Except Fault Proxy :=
  if atoi cPid = 0 then .ok p
  else ZHash.foreach (procmanCheckpid command (atoi cPid)) (env.visit p.modules.keys) p

/-- The product is an `int`, and is compared with a `uint64_t`. -/
def limit (timeout : Int32) : UInt64 := (timeout * 1000).toInt64.toUInt64

def getInTimeDelta (now : UInt64) (message : Message) : UInt64 := now - message.inTimestamp

def getOutTimeDelta (now : UInt64) (message : Message) : UInt64 := now - message.outTimestamp

def getProcessTimeDelta (now : UInt64) (message : Message) : UInt64 :=
  now - message.processTimestamp

def inTimedOut (conf : Config) (env : Env) (message : Message) : Bool :=
  limit conf.inTimeout < getInTimeDelta env.now message && message.processTimestamp = 0

def outTimedOut (conf : Config) (env : Env) (message : Message) : Bool :=
  message.outTimestamp ≠ 0 && limit conf.outTimeout < getOutTimeDelta env.now message &&
    message.routedVia.isSome

def processTimedOut (conf : Config) (env : Env) (message : Message) : Bool :=
  message.processTimestamp ≠ 0 &&
    limit conf.processTimeout < getProcessTimeDelta env.now message && message.routedVia.isSome

def timeoutException (conf : Config) (env : Env) (message : Message) : Option Object :=
  if processTimedOut conf env message then
    some (messageException message.actionid "Process timeout" processTimeoutCode)
  else if outTimedOut conf env message then
    some (messageException message.actionid "Global fabric not answered in time" globalTimeout)
  else if inTimedOut conf env message then
    some (messageException message.actionid "All modules are busy" modulesBusy)
  else none

def stuckModule (conf : Config) (env : Env) (message : Message) (p : Proxy) : Option Module :=
  if processTimedOut conf env message && !conf.debug then
    message.routedVia.bind p.modules.lookup
  else none

def restartStuck (mod : Module) (p : Proxy) : Except Fault Proxy :=
  (zstrSend (.restart mod.sPid) p).removeModule mod

/-- The module that `routed_via` leads into is gone, and its memory with it. -/
def Proxy.dangles (p : Proxy) (message : Message) : Bool :=
  message.viaModule.any fun addr => !p.modules.keys.any fun key =>
    (p.modules.lookup key).any fun mod => mod.identity.addr = addr

def overdueText (conf : Config) (via : String) : String :=
  "EXCEPTION - cannot return from " ++ via ++ " in time " ++ decimal conf.outTimeout.toInt

def readRoute (conf : Config) (env : Env) (message : Message) (p : Proxy) : Except Fault Unit :=
  match message.routedVia with
  | none => .ok ()
  | some via =>
      if outTimedOut conf env message || processTimedOut conf env message then
        if p.dangles message then .error .useAfterFree
        else (logPrint (overdueText conf via)).map fun _ => ()
      else .ok ()

def processQueueItem (conf : Config) (env : Env) (key : String) (p : Proxy) :
    Except Fault Proxy :=
  match p.queue.lookup key with
  | none => .ok p
  | some message =>
      match timeoutException conf env message with
      | none => .ok p
      | some msg =>
          match readRoute conf env message p with
          | .error fault => .error fault
          | .ok _ =>
              match (stuckModule conf env message p).elim (.ok p) (restartStuck · p) with
              | .error fault => .error fault
              | .ok cleared =>
                  .ok ((sendMessage env (.reply message) msg message.identity cleared).2.deleteCall
                    key)

def processQueue (conf : Config) (env : Env) (p : Proxy) : Except Fault Proxy :=
  ZHash.foreach (fun key p => (processQueueItem conf env key p).map fun p => (0, p))
    (env.visit p.queue.keys) p

/-- What the main loop reacts to. The timers' walks are told item by item, each
with the clock of its own callback. -/
inductive Event
  | localMsg (zmsg : List Frame) (answer : String)
  | globalMsg (zmsg : List Frame) (answer : String)
  | procman (command cPid : String)
  | queueItem (key : String)
  | fabItem (key : String)
  | beacon (msg : String)

def Proxy.step (conf : Config) (env : Env) (event : Event) (p : Proxy) : Except Fault Proxy :=
  match event with
  | .localMsg zmsg answer => sLocalEvent conf env zmsg answer p
  | .globalMsg zmsg answer => sGlobalEvent conf env zmsg answer p
  | .procman command cPid => sProcmanEvent env command cPid p
  | .queueItem key => processQueueItem conf env key p
  | .fabItem key => getIfaceListEventItem env key p
  | .beacon msg => sBeaconEvent env msg p

end ModBus
