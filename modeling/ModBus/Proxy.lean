import ModBus.Interface

/-! The fabric's state `proxy_t`, and the operations on it that several handlers
share. -/

namespace ModBus

open Libc Czmq

inductive ModState
  | guest
  | idle
  | busy
  | stopping
  | restarting
  deriving DecidableEq, Repr

structure Module where
  identity : CStr
  name : String
  desc : Option String
  pid : Int32
  sPid : String
  provides : ZHash Unpacked
  state : ModState
  needRestart : Bool

structure Fabric where
  identity : CStr
  alive : Bool

structure ConfigModule where
  modulePath : String
  moduleInstances : Int32
  moduleMaxmem : Int32
  moduleStartTimeout : Int32

structure Config where
  debug : Bool
  inTimeout : Int32
  outTimeout : Int32
  processTimeout : Int32
  modules : ZHash ConfigModule

inductive Command
  | startall
  | checkPid (pid : String)
  | register (spid name : String)
  | kill (spid : String)
  | restart (spid : String)
  | stopAll
  | killall
  deriving DecidableEq, Repr

/-- Where a message goes: through the local ROUTER to an identity frame, of
which `sscanf` may have left bytes unset, or to a fabric's own socket. -/
inductive Dest
  | localFe (frame : List (Option UInt8))
  | peer (identity : String)
  deriving DecidableEq, Repr

/-- What a send is for. The program does not keep this; no handler reads it. -/
inductive Cause
  | reply (call : Message)
  | toModule (call : Message)
  | toFabric (call : Message)
  | introduced (identity : String)
  | ifaceListRequest
  | ifaceListResponse

structure Sent where
  cause : Cause
  dest : Dest
  payload : Object
  ok : Bool

structure Introduction where
  identity : String
  name : String
  provides : ZHash Unpacked

structure Proxy where
  fabList : ZHash Fabric
  modules : ZHash Module
  ifaces : ZList Addr
  heap : Heap
  queue : ZHash Message
  /-- Commands sent on the process manager's pipe, oldest first. -/
  procman : List Command
  sent : List Sent
  /-- The introductions of the modules now registered. -/
  introduced : List Introduction
  /-- The next address to be allocated. -/
  brk : Addr

structure Env where
  now : UInt64
  /-- `gettimeofday` counts from 1970, and zero stamps mean "never". -/
  now_ne : now ≠ 0
  /-- The order of a hash table's buckets. -/
  visit : List String → List String
  visit_perm : ∀ keys, (visit keys).Perm keys
  /-- Whether the `n`-th `zmsg_send` of the run succeeds. -/
  zmsgSend : Nat → Bool
  zsocketConnect : String → Bool
  /-- An endpoint is `transport://address`; no other text connects. -/
  zsocketConnect_endpoint : ∀ identity, zsocketConnect identity = true → ':' ∈ identity.toList
  /-- What `getActionid` returns. -/
  actionid : String

def modulesBusy : Int32 := 111
def processTimeoutCode : Int32 := 112
def globalTimeout : Int32 := 113
def wrongCallStructure : Int32 := 21

def proxyNew : Proxy where
  fabList := ∅
  modules := ∅
  ifaces := ZList.new
  heap := fun _ => blank
  queue := ∅
  procman := []
  sent := []
  introduced := []
  brk := 0

def identityFrame (identity : String) : List (Option UInt8) :=
  (List.range 5).map fun count => sscanfByte (identity.toList.drop (2 * count))

def Proxy.route (p : Proxy) (identity : String) : Option Dest :=
  if 10 < identity.length then
    (p.fabList.lookup identity).map fun _ => .peer identity
  else some (.localFe (identityFrame identity))

def sendMessage (env : Env) (cause : Cause) (payload : Object) (identity : String) (p : Proxy) :
    Int × Proxy :=
  match p.route identity with
  | none => (-1, p)
  | some dest =>
      let ok := env.zmsgSend p.sent.length
      (if ok then 0 else -1, { p with sent := p.sent ++ [⟨cause, dest, payload, ok⟩] })

def zstrSend (command : Command) (p : Proxy) : Proxy :=
  { p with procman := p.procman ++ [command] }

def Proxy.setModule (p : Proxy) (key : String) (mod : Module) : Proxy :=
  { p with modules := ZHash.update p.modules key mod }

def Proxy.deleteCall (p : Proxy) (key : String) : Proxy :=
  { p with queue := p.queue.erase key }

def Proxy.printed (p : Proxy) : Proxy :=
  { p with heap := fun iface =>
      if iface ∈ p.ifaces.items then (p.heap iface).printed else p.heap iface }

def Proxy.Printable (p : Proxy) : Prop := ∀ iface ∈ p.ifaces.items, (p.heap iface).Printable

instance (p : Proxy) : Decidable p.Printable :=
  inferInstanceAs (Decidable (∀ iface ∈ p.ifaces.items, (p.heap iface).Printable))

def Proxy.printIfaces (p : Proxy) : Except Fault Proxy :=
  if p.Printable then .ok p.printed else .error .outOfBounds

def Proxy.unlist (p : Proxy) (identity : CStr) : Proxy :=
  let removed := ifaceRemove p.ifaces identity p.heap
  { p with ifaces := removed.1, heap := removed.2 }

def Proxy.unlistEverywhere (p : Proxy) (identity : CStr) : Except Fault Proxy :=
  (p.unlist identity).printIfaces

def Proxy.deleteModule (p : Proxy) (identity : String) : Proxy :=
  { p with
    modules := p.modules.erase identity
    introduced := p.introduced.filter fun intro => decide (intro.identity ≠ identity) }

def Proxy.removeModule (p : Proxy) (mod : Module) : Except Fault Proxy :=
  match p.unlistEverywhere mod.identity with
  | .error fault => .error fault
  | .ok p => .ok (p.deleteModule mod.identity.text)

/-! What is left when the dumps fit. -/

def Proxy.unlisted (p : Proxy) (identity : CStr) : Proxy := (p.unlist identity).printed

def Proxy.withoutModule (p : Proxy) (mod : Module) : Proxy :=
  (p.unlisted mod.identity).deleteModule mod.identity.text

def Proxy.SameHeap (p q : Proxy) : Prop := ∀ iface, (p.heap iface).Same (q.heap iface)

/-- Five bytes come back, and those that the peer's identity lacks stay unset. -/
theorem identityFrame_strhex (bytes : List UInt8) :
    identityFrame (strhex bytes) = (List.range 5).map fun count => bytes[count]? := by
  apply List.map_congr_left
  intro count _
  rw [strhex_drop, sscanfByte_strhex, List.head?_drop]

theorem identityFrame_whole {bytes : List UInt8} (five : bytes.length = 5) :
    identityFrame (strhex bytes) = bytes.map some := by
  rw [identityFrame_strhex]
  apply List.ext_getElem
  · simp [five]
  · intro count bound inside
    have within : count < bytes.length := by simpa using inside
    simp [within]

/-- Only a frame of five bytes is what the local socket is given. -/
theorem route_strhex {p : Proxy} {bytes : List UInt8} :
    p.route (strhex bytes) = some (.localFe (bytes.map some)) ↔ bytes.length = 5 := by
  unfold Proxy.route
  rw [strhex_length]
  constructor
  · intro routed
    split at routed
    · obtain ⟨fab, _, other⟩ := Option.map_eq_some_iff.mp routed
      cases other
    · simp only [Option.some.injEq, Dest.localFe.injEq] at routed
      have lengths := congrArg List.length routed
      simpa [identityFrame] using lengths.symm
  · intro five
    rw [identityFrame_whole five, if_neg (by omega)]

theorem route_peer {p : Proxy} {identity : String} : p.route identity = some (.peer identity) ↔
    10 < identity.length ∧ identity ∈ p.fabList := by
  unfold Proxy.route
  split
  · rename_i long
    rw [← AList.lookup_isSome]
    cases p.fabList.lookup identity <;> simp [long]
  · rename_i short
    simp [short]

theorem unlistEverywhere_ok {p q : Proxy} {identity : CStr} :
    p.unlistEverywhere identity = .ok q ↔
      (p.unlist identity).Printable ∧ q = p.unlisted identity := by
  unfold Proxy.unlistEverywhere Proxy.printIfaces
  split
  · rename_i fits
    simp [fits, Proxy.unlisted, eq_comm]
  · rename_i long
    simp [long]

theorem removeModule_ok {p q : Proxy} {mod : Module} :
    p.removeModule mod = .ok q ↔
      (p.unlist mod.identity).Printable ∧ q = p.withoutModule mod := by
  unfold Proxy.removeModule Proxy.withoutModule
  cases ended : p.unlistEverywhere mod.identity with
  | error fault =>
      have long : ¬ (p.unlist mod.identity).Printable := by
        intro fits
        rw [unlistEverywhere_ok.mpr ⟨fits, rfl⟩] at ended
        cases ended
      simp [long]
  | ok left =>
      obtain ⟨fits, rfl⟩ := unlistEverywhere_ok.mp ended
      simp [fits, eq_comm]

/-- What an identity is taken off can still be dumped. -/
theorem unlist_printable {p : Proxy} (nodup : p.ifaces.items.Nodup) (printable : p.Printable)
    (identity : CStr) : (p.unlist identity).Printable := by
  intro iface listed
  have items : (p.unlist identity).ifaces.items = _ :=
    ifaceRemove_items p.ifaces identity p.heap nodup
  rw [items] at listed
  have old := List.mem_of_mem_filter listed
  have heap : (p.unlist identity).heap iface = (p.heap iface).unlist identity :=
    (ifaceRemove_heap p.ifaces identity p.heap nodup iface).trans (if_pos old)
  rw [heap]
  refine (printable iface old).shrinks rfl rfl rfl ?_ ?_
  · rw [unlist_locals]
    exact List.eraseP_sublist
  · rw [unlist_globals]
    exact List.eraseP_sublist

theorem printed_printable {p : Proxy} : p.printed.Printable ↔ p.Printable := by
  refine forall_congr' fun iface => imp_congr_right fun listed => ?_
  have heap : p.printed.heap iface = (p.heap iface).printed := if_pos listed
  rw [heap]
  exact (printed_same _).printable

theorem removeModule_total {p : Proxy} (nodup : p.ifaces.items.Nodup) (printable : p.Printable)
    (mod : Module) : p.removeModule mod = .ok (p.withoutModule mod) :=
  removeModule_ok.mpr ⟨unlist_printable nodup printable _, rfl⟩

section Frames

variable (env : Env) (cause : Cause) (payload : Object) (identity key : String) (mod : Module)
  (command : Command) (p : Proxy)

theorem sendMessage_cases :
    (p.route identity = none ∧ sendMessage env cause payload identity p = (-1, p)) ∨
    ∃ dest, p.route identity = some dest ∧
      sendMessage env cause payload identity p =
        (if env.zmsgSend p.sent.length then 0 else -1,
          { p with sent := p.sent ++ [⟨cause, dest, payload, env.zmsgSend p.sent.length⟩] }) := by
  unfold sendMessage
  cases p.route identity with
  | none => exact Or.inl ⟨rfl, rfl⟩
  | some dest => exact Or.inr ⟨dest, rfl, rfl⟩

theorem sendMessage_eq :
    (sendMessage env cause payload identity p).2 =
      { p with sent := (sendMessage env cause payload identity p).2.sent } := by
  rcases sendMessage_cases env cause payload identity p with ⟨_, same⟩ | ⟨dest, _, same⟩ <;>
    rw [same]

@[simp] theorem sendMessage_fabList :
    (sendMessage env cause payload identity p).2.fabList = p.fabList := by
  rw [sendMessage_eq]

@[simp] theorem sendMessage_modules :
    (sendMessage env cause payload identity p).2.modules = p.modules := by
  rw [sendMessage_eq]

@[simp] theorem sendMessage_ifaces :
    (sendMessage env cause payload identity p).2.ifaces = p.ifaces := by
  rw [sendMessage_eq]

@[simp] theorem sendMessage_heap :
    (sendMessage env cause payload identity p).2.heap = p.heap := by
  rw [sendMessage_eq]

@[simp] theorem sendMessage_queue :
    (sendMessage env cause payload identity p).2.queue = p.queue := by
  rw [sendMessage_eq]

@[simp] theorem sendMessage_procman :
    (sendMessage env cause payload identity p).2.procman = p.procman := by
  rw [sendMessage_eq]

@[simp] theorem sendMessage_introduced :
    (sendMessage env cause payload identity p).2.introduced = p.introduced := by
  rw [sendMessage_eq]

@[simp] theorem sendMessage_brk :
    (sendMessage env cause payload identity p).2.brk = p.brk := by
  rw [sendMessage_eq]

@[simp] theorem zstrSend_procman : (zstrSend command p).procman = p.procman ++ [command] := rfl
@[simp] theorem zstrSend_fabList : (zstrSend command p).fabList = p.fabList := rfl
@[simp] theorem zstrSend_modules : (zstrSend command p).modules = p.modules := rfl
@[simp] theorem zstrSend_ifaces : (zstrSend command p).ifaces = p.ifaces := rfl
@[simp] theorem zstrSend_heap : (zstrSend command p).heap = p.heap := rfl
@[simp] theorem zstrSend_queue : (zstrSend command p).queue = p.queue := rfl
@[simp] theorem zstrSend_sent : (zstrSend command p).sent = p.sent := rfl
@[simp] theorem zstrSend_introduced : (zstrSend command p).introduced = p.introduced := rfl
@[simp] theorem zstrSend_brk : (zstrSend command p).brk = p.brk := rfl

@[simp] theorem setModule_modules :
    (p.setModule key mod).modules = ZHash.update p.modules key mod := rfl
@[simp] theorem setModule_fabList : (p.setModule key mod).fabList = p.fabList := rfl
@[simp] theorem setModule_ifaces : (p.setModule key mod).ifaces = p.ifaces := rfl
@[simp] theorem setModule_heap : (p.setModule key mod).heap = p.heap := rfl
@[simp] theorem setModule_queue : (p.setModule key mod).queue = p.queue := rfl
@[simp] theorem setModule_procman : (p.setModule key mod).procman = p.procman := rfl
@[simp] theorem setModule_sent : (p.setModule key mod).sent = p.sent := rfl
@[simp] theorem setModule_introduced : (p.setModule key mod).introduced = p.introduced := rfl
@[simp] theorem setModule_brk : (p.setModule key mod).brk = p.brk := rfl

@[simp] theorem deleteCall_queue : (p.deleteCall key).queue = p.queue.erase key := rfl
@[simp] theorem deleteCall_fabList : (p.deleteCall key).fabList = p.fabList := rfl
@[simp] theorem deleteCall_modules : (p.deleteCall key).modules = p.modules := rfl
@[simp] theorem deleteCall_ifaces : (p.deleteCall key).ifaces = p.ifaces := rfl
@[simp] theorem deleteCall_heap : (p.deleteCall key).heap = p.heap := rfl
@[simp] theorem deleteCall_procman : (p.deleteCall key).procman = p.procman := rfl
@[simp] theorem deleteCall_sent : (p.deleteCall key).sent = p.sent := rfl
@[simp] theorem deleteCall_introduced : (p.deleteCall key).introduced = p.introduced := rfl
@[simp] theorem deleteCall_brk : (p.deleteCall key).brk = p.brk := rfl

end Frames

end ModBus
