import ModBus.Step

/-! Running the fabric on given events, and the pieces of small scenarios. -/

namespace ModBus

open Libc Czmq Transition

def Proxy.execute (conf : Config) : List (Env × Event) → Proxy → Except Fault Proxy
  | [], p => .ok p
  | (env, event) :: labels, p =>
      match p.step conf env event with
      | .error fault => .error fault
      | .ok next => Proxy.execute conf labels next

def fabricAfter (conf : Config) (labels : List (Env × Event)) : Proxy :=
  (proxyNew.execute conf labels).toOption.getD proxyNew

def Proxy.after (p : Proxy) (conf : Config) (env : Env) (event : Event) : Proxy :=
  (p.step conf env event).toOption.getD p

section

variable {conf : Config} {guard : Proxy → Env × Event → Prop} {p q : Proxy}

theorem execute_run {labels : List (Env × Event)}
    (allowed : ∀ label ∈ labels, ∀ state, guard state label)
    (run : p.execute conf labels = .ok q) : Run (fabric conf) guard p q := by
  induction labels generalizing p with
  | nil =>
      cases run
      exact .refl _
  | cons label labels ih =>
      simp only [Proxy.execute] at run
      split at run
      · cases run
      · rename_i middle move
        have first : Run (fabric conf) guard p middle :=
          .single (allowed label (by simp) p) move
        exact first.trans (ih (fun other member => allowed other (by simp [member])) run)

theorem step_after {env : Env} {event : Event}
    (ends : (p.step conf env event).toOption.isSome = true) :
    p.step conf env event = .ok (p.after conf env event) := by
  unfold Proxy.after
  cases result : p.step conf env event with
  | error => simp [result, Except.toOption] at ends
  | ok => rfl

theorem execute_fabricAfter {labels : List (Env × Event)}
    (ends : (proxyNew.execute conf labels).toOption.isSome = true) :
    proxyNew.execute conf labels = .ok (fabricAfter conf labels) := by
  unfold fabricAfter
  cases result : proxyNew.execute conf labels with
  | error => simp [result, Except.toOption] at ends
  | ok => rfl

theorem fabricAfter_reaches {labels : List (Env × Event)}
    (allowed : ∀ label ∈ labels, ∀ state, guard state label)
    (ends : (proxyNew.execute conf labels).toOption.isSome = true) :
    Reaches (fabric conf) guard (fabricAfter conf labels) :=
  ⟨proxyNew, rfl, execute_run allowed (execute_fabricAfter ends)⟩

/-! The timers' walks are runs, with one event for each item. -/

theorem map_walk {call : Except Fault Proxy} {rc : Int} :
    (call.map fun left => ((0 : Int), left)) = .ok (rc, q) ↔ rc = 0 ∧ call = .ok q := by
  cases call with
  | error fault => simp [Except.map]
  | ok left => simp [Except.map, eq_comm]

theorem processQueue_run {env : Env} (walk : processQueue conf env p = .ok q) :
    Run (fabric conf) anything p q := by
  refine ZHash.foreach_invariant (Run (fabric conf) anything p) ?_ walk (.refl p)
  rintro key _ state rc next call before
  have move : (fabric conf).step state (env, .queueItem key) next := (map_walk.mp call).2
  exact before.snoc trivial move

theorem getIfaceListEvent_run {env : Env} (walk : getIfaceListEvent env p = .ok q) :
    Run (fabric conf) anything p q := by
  refine ZHash.foreach_invariant (Run (fabric conf) anything p) ?_ walk (.refl p)
  rintro key _ state rc next call before
  have move : (fabric conf).step state (env, .fabItem key) next := (map_walk.mp call).2
  exact before.snoc trivial move

end

/-! Two modules, another fabric, and what they send. -/

def plainConf : Config where
  debug := false
  inTimeout := 5
  outTimeout := 5
  processTimeout := 5
  modules := ∅

def plainEnv (now : UInt64) (now_ne : now ≠ 0) : Env where
  now := now
  now_ne := now_ne
  visit keys := keys
  visit_perm _ := .refl _
  zmsgSend _ := true
  zsocketConnect identity := decide (':' ∈ identity.toList)
  zsocketConnect_endpoint := by simp
  actionid := "0123456789ABCDEF0123456789ABCDEF"

def early : Env := plainEnv 1000000 (by decide)

def late : Env := plainEnv 2000000 (by decide)

def worker : List UInt8 := [0, 1, 2, 3, 4]

def caller : List UInt8 := [0, 5, 6, 7, 8]

def peerName : String := "tcp://10.0.0.2:49152"

def bytesOf (text : String) : List UInt8 := text.toList.map fun c => UInt8.ofNat c.toNat

def framesOf (identity : List UInt8) (command : String) (body : Object) (actionid : String) :
    List Frame :=
  [⟨identity, none⟩, ⟨[0x83], some (packed command body actionid)⟩]

def introduceOf (identity : List UInt8) (name : String) (pid : UInt64)
    (provides : List (String × UInt64)) : List Frame :=
  framesOf identity "introduce" (.map [(.raw "name", .raw name), (.raw "pid", .positiveInteger pid),
    (.raw "provides", .map (provides.map fun entry =>
      (.raw entry.1, .positiveInteger entry.2)))]) "intro"

def callOf (identity : List UInt8) (module function : String) (version : UInt64)
    (actionid : String) : List Frame :=
  framesOf identity "call" (.map [(.raw "module", .raw module), (.raw "function", .raw function),
    (.raw "version", .positiveInteger version)]) actionid

def resultOf (identity : List UInt8) (actionid : String) : List Frame :=
  framesOf identity "result" (.map [(.raw "result", .map [])]) actionid

def ifaceListOf (identity : List UInt8) (paths : List String) : List Frame :=
  framesOf identity "result" (.map [(.raw "result", .map [(.raw "IfaceList",
    .array (paths.map .raw))])]) "ifaces"

def otherPeer : String := "tcp://10.0.0.3:49152"

def sentToPeer : List (Env × Event) := [
  (early, .beacon ("modbus@" ++ peerName)),
  (early, .beacon ("modbus@" ++ otherPeer)),
  (early, .globalMsg (ifaceListOf (bytesOf peerName) ["mod:f:1"]) ""),
  (early, .globalMsg (ifaceListOf (bytesOf otherPeer) ["mod:f:1"]) ""),
  (early, .localMsg (callOf caller "mod" "f" 1 "call-1") "")]

end ModBus
