import ModBus.PlaceCall

/-! How modules and fabrics come to be providers of interfaces: introductions,
the interface lists of other fabrics, and beacons. -/

namespace ModBus

open Libc Czmq

def Proxy.modifyIface (p : Proxy) (iface : Addr) (change : Iface → Iface) : Proxy :=
  { p with heap := Function.update p.heap iface (change (p.heap iface)) }

def ifaceFor (mod func : String) (ver : UInt64) (p : Proxy) : Except Fault (Addr × Proxy) :=
  match checkInterface p.ifaces p.heap mod func ver with
  | some iface => .ok (iface, p)
  | none =>
      match ifaceNew mod func ver with
      | none => .error .nullDeref
      | some fresh =>
          .ok (p.brk, { p with
            ifaces := p.ifaces.append p.brk
            heap := Function.update p.heap p.brk fresh
            brk := p.brk + 1 })

def provideLocal (identity : CStr) (name function : String) (ver : UInt64) (p : Proxy) :
    Except Fault Proxy :=
  match ifaceFor name function ver p with
  | .error fault => .error fault
  | .ok (iface, p) =>
      match ifacePrint (ifaceAppendLocal (p.heap iface) identity).2 with
      | .error fault => .error fault
      | .ok printed => .ok (p.modifyIface iface fun _ => printed)

def provideGlobal (fab : Fabric) (mod func : String) (ver : UInt64) (p : Proxy) :
    Except Fault Proxy :=
  match ifaceFor mod func ver p with
  | .error fault => .error fault
  | .ok (iface, p) =>
      match ifacePrint (ifaceAppendGlobal (p.heap iface) fab.identity p.brk).2 with
      | .error fault => .error fault
      | .ok printed => .ok { p.modifyIface iface (fun _ => printed) with brk := p.brk + 1 }

def Unpacked.version : Unpacked → Except Fault UInt64
  | .u64 value => .ok value
  | .i64 value => .ok value.toUInt64
  | _ => .error .wrongTag

def provideFunctions (identity : CStr) (name : String) (provides : ZHash Unpacked) :
    List String → Proxy → Except Fault Proxy
  | [], p => .ok p
  | function :: functions, p =>
      match provides.lookup function with
      | none => .error .nullDeref
      | some value =>
          match value.version with
          | .error fault => .error fault
          | .ok ver =>
              match provideLocal identity name function ver p with
              | .error fault => .error fault
              | .ok p => provideFunctions identity name provides functions p

def introduceRequest (message : Message) : Except Fault (Option (String × Int32)) := do
  match ← messageGetName message with
  | none => return none
  | some name =>
      let pid ← messageGetPid message
      if pid = 0 then return none else return some (name, pid)

/-- The object under `identity` when one is registered already is lost, with
the module that was to replace it. -/
def registerModule (mod : Module) (p : Proxy) : Proxy :=
  { p with
    modules := (ZHash.insertNew p.modules mod.identity.text mod).2
    introduced := ⟨mod.identity.text, mod.name, mod.provides⟩ :: p.introduced }

/-- `module_new`, with the fields that the introduction fills in. The module is
made idle once it was told "ok"; nothing looks at its state before. -/
def introducedModule (identity : CStr) (name : String) (desc : Option String) (pid : Int32)
    (provides : ZHash Unpacked) : Module where
  identity := identity
  name := name
  desc := desc
  pid := pid
  sPid := decimal pid.toInt
  provides := provides
  state := .idle
  needRestart := false

def introduceAnswered (conf : Config) (env : Env) (message : Message) (name : String)
    (pid : Int32) (answer : String) (p : Proxy) : Except Fault Proxy :=
  if !conf.debug && answer = "no" then .ok p
  else if 10 ≤ (decimal pid.toInt).length then .error .outOfBounds
  else
    match messageGetDesc message, messageGetProvides message with
    | .error fault, _ => .error fault
    | _, .error fault => .error fault
    | .ok _, .ok none => (logAsFormat name).map fun _ => p
    | .ok desc, .ok (some provides) =>
        if provides.keys.isEmpty then (logAsFormat name).map fun _ => p
        else
          let identity : CStr := ⟨p.brk, message.identity⟩
          match provideFunctions identity name provides (env.visit provides.keys)
              { p with brk := p.brk + 1 } with
          | .error fault => .error fault
          | .ok p =>
              let mod := introducedModule identity name desc pid provides
              let p := registerModule mod (zstrSend (.register mod.sPid name) p)
              .ok (sendMessage env (.introduced message.identity)
                (messageResponse "ok" message.actionid) message.identity p).2

def processIntroduce (conf : Config) (env : Env) (message : Message) (answer : String)
    (p : Proxy) : Except Fault Proxy :=
  match introduceRequest message with
  | .error fault => .error fault
  | .ok none => .ok p
  | .ok (some (name, pid)) =>
      introduceAnswered conf env message name pid answer
        (zstrSend (.checkPid (decimal pid.toInt)) p)

def providePath (fab : Fabric) (path : String) (p : Proxy) : Except Fault Proxy :=
  match strtok ':' path with
  | mod :: func :: ver :: _ => provideGlobal fab mod func (atoi ver).toInt64.toUInt64 p
  | _ => .ok p

def providePaths (fab : Fabric) : List String → Proxy → Except Fault Proxy
  | [], p => .ok p
  | path :: paths, p =>
      match providePath fab path p with
      | .error fault => .error fault
      | .ok p => providePaths fab paths p

/-- What `process_result` makes of a result that answers no call. The error
about an unknown fabric prints the identity of the fabric it did not find. -/
def processIfaceList (message : Message) (p : Proxy) : Except Fault Proxy :=
  match messageGetIfaceList message with
  | .error fault => .error fault
  | .ok none => .ok p
  | .ok (some paths) =>
      match p.fabList.lookup message.identity with
      | none => .error .nullDeref
      | some fab => providePaths fab paths p

def fabNew (msg : String) : Option String :=
  match strtok '@' msg with
  | _ :: identity :: _ => some identity
  | _ => none

/-- After a failed connect the fabric is destroyed by the table that owns it
and once more by hand. -/
def sBeaconEvent (env : Env) (msg : String) (p : Proxy) : Except Fault Proxy :=
  match fabNew msg with
  | none => .ok p
  | some identity =>
      if identity ∈ p.fabList then .ok p
      else if env.zsocketConnect identity then
        .ok { p with
          fabList := p.fabList.insert identity ⟨⟨p.brk, identity⟩, true⟩
          brk := p.brk + 1 }
      else .error .useAfterFree

def getIfaceListEventItem (env : Env) (key : String) (p : Proxy) : Except Fault Proxy :=
  match p.fabList.lookup key with
  | none => .ok p
  | some fab =>
      if fab.alive then
        let asked := (sendMessage env .ifaceListRequest (messageIfacelistRequest env.actionid)
          fab.identity.text p).2
        .ok { asked with fabList := ZHash.update p.fabList key { fab with alive := false } }
      else
        match p.unlistEverywhere fab.identity with
        | .error fault => .error fault
        | .ok left => .ok { left with fabList := p.fabList.erase key }

def getIfaceListEvent (env : Env) (p : Proxy) : Except Fault Proxy :=
  ZHash.foreach (fun key p => (getIfaceListEventItem env key p).map fun p => (0, p))
    (env.visit p.fabList.keys) p

end ModBus
