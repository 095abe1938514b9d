import ModBus.Calm

/-! The fabric as a transition system, and the cases of its steps. -/

namespace ModBus

open Libc Czmq Transition

/-- Every order of events, each under any environment, from the start. -/
def fabric (conf : Config) : System Proxy (Env × Event) where
  initial p := p = proxyNew
  step p label q := p.step conf label.1 label.2 = .ok q

def Event.message (env : Env) (p : Proxy) : Event → Option Message
  | .localMsg zmsg _ => (messageFromzmq zmsg true p.brk env.now).toOption.join
  | .globalMsg zmsg _ => (messageFromzmq zmsg false p.brk env.now).toOption.join
  | _ => none

def Event.answer : Event → String
  | .localMsg _ answer => answer
  | .globalMsg _ answer => answer
  | _ => ""

def Proxy.arrived (p : Proxy) (message : Message) : Proxy :=
  if message.isLocal then { p with brk := p.brk + 1 }
  else { p with brk := p.brk + 1 }.markAlive message.identity

def namedModule (env : Env) (cPid : String) (p : Proxy) : Option (String × Module) :=
  (env.visit p.modules.keys).findSome? fun key =>
    (p.modules.lookup key).bind fun mod => if mod.pid = atoi cPid then some (key, mod) else none

def removedBy (conf : Config) (env : Env) (event : Event) (p : Proxy) : Option Module :=
  match event with
  | .procman command cPid =>
      if command = "remove" ∧ atoi cPid ≠ 0 then (namedModule env cPid p).map Prod.snd else none
  | .queueItem key => (p.queue.lookup key).bind fun message => stuckModule conf env message p
  | _ => none

def expiredBy (event : Event) (p : Proxy) : Option Fabric :=
  match event with
  | .fabItem key => (p.fabList.lookup key).filter fun fab => !fab.alive
  | _ => none

inductive StepCases (conf : Config) (env : Env) (event : Event) (p q : Proxy) : Prop
  | calm : Calm p q → StepCases conf env event p q
  | handled {message : Message} : event.message env p = some message → Calm (p.arrived message) q →
      StepCases conf env event p q
  | queued {message call placed middle} : event.message env p = some message →
      message.command = "call" → readCall message = .ok call → call.wellFormedCall = true →
      placeCall env call (p.arrived message) = .ok (0, placed, middle) →
      placed.isLocal = true ∨ placed.routedVia ≠ none → q = enqueue placed middle →
      StepCases conf env event p q
  | listed {message : Message} : event.message env p = some message → message.command = "result" →
      p.queue.lookup message.actionid = none →
      processIfaceList message (p.arrived message) = .ok q → StepCases conf env event p q
  | introduced {message : Message} : event.message env p = some message →
      message.command = "introduce" →
      processIntroduce conf env message event.answer (p.arrived message) = .ok q →
      StepCases conf env event p q
  | removed {mod} {before : Proxy} : removedBy conf env event p = some mod →
      before = { p with procman := before.procman } → Calm (before.withoutModule mod) q →
      (∀ key, event = .queueItem key → key ∉ q.queue) → StepCases conf env event p q
  | asked {key fab} : event = .fabItem key → p.fabList.lookup key = some fab → fab.alive = true →
      q = { p with
        sent := q.sent
        fabList := ZHash.update p.fabList key { fab with alive := false } } →
      StepCases conf env event p q
  | expired {key fab} : event = .fabItem key → p.fabList.lookup key = some fab →
      expiredBy event p = some fab →
      q = { p.unlisted fab.identity with fabList := p.fabList.erase key } →
      StepCases conf env event p q
  | connected {identity} : identity ∉ p.fabList → ':' ∈ identity.toList →
      q = { p with
        fabList := p.fabList.insert identity ⟨⟨p.brk, identity⟩, true⟩
        brk := p.brk + 1 } → StepCases conf env event p q

section

variable {conf : Config} {env : Env} {event : Event} {p q : Proxy} {message call : Message}

theorem readCall_ok (read : readCall message = .ok call) :
    call = { message with
      version := call.version, module := call.module, function := call.function } := by
  obtain ⟨version, _, read⟩ := bind_ok.mp read
  obtain ⟨module, _, read⟩ := bind_ok.mp read
  obtain ⟨function, _, read⟩ := bind_ok.mp read
  cases read
  rfl

theorem PlaceOutcome.code {rc : Int} {placed : Message}
    (outcome : PlaceOutcome env message p rc placed q) (found : rc ≠ -1) : rc = 0 := by
  cases outcome with
  | rejected => exact absurd rfl found
  | routed => rfl
  | waiting => rfl
  | toModule => rfl
  | toFabric => rfl

/-- Only a call that is bound to no interface is rejected. -/
theorem PlaceOutcome.zero {rc : Int} {placed : Message} {iface : Addr}
    (outcome : PlaceOutcome env message p rc placed q) (bound : message.iface = some iface) :
    rc = 0 := by
  refine outcome.code fun rejected => ?_
  subst rejected
  cases outcome with
  | rejected _ unbound =>
      rw [bound] at unbound
      cases unbound

theorem processCall_cases (run : processCall env message p = .ok q) :
    Calm p q ∨ ∃ call placed middle, readCall message = .ok call ∧
      call.wellFormedCall = true ∧ placeCall env call p = .ok (0, placed, middle) ∧
      (placed.isLocal = true ∨ placed.routedVia ≠ none) ∧ q = enqueue placed middle := by
  obtain ⟨call, read, ⟨_, rfl⟩ | ⟨shaped, rc, placed, middle, placement, outcome⟩⟩ :=
    processCall_ok run
  · exact Or.inl (refuse_calm _ _ _ p)
  · have calm := (placeCall_outcome placement).calm.1
    rcases outcome with ⟨_, rfl⟩ | ⟨found, accepted, rfl⟩
    · exact Or.inl (calm.trans (refuse_calm _ _ _ _))
    · rw [(placeCall_outcome placement).code found] at placement
      exact Or.inr ⟨call, placed, middle, read, shaped, placement, accepted, rfl⟩

def noticed (command key : String) (mod : Module) (p : Proxy) : Except Fault Proxy :=
  if command = "remove" then p.removeModule mod
  else .ok (
    if command = "restart" then
      if mod.state = .idle then
        zstrSend (.restart mod.sPid) (p.setModule key { mod with state := .restarting })
      else p.setModule key { mod with needRestart := true }
    else p)

theorem procmanCheckpid_named (command : String) {key : String} {pid : Int32} {mod : Module}
    (found : p.modules.lookup key = some mod) (same : mod.pid = pid) :
    procmanCheckpid command pid key p = (noticed command key mod p).map fun q => (-1, q) := by
  simp only [procmanCheckpid, found, same, if_true, noticed]
  split
  · cases p.removeModule mod <;> rfl
  · split
    · split <;> rfl
    · rfl

theorem foreach_named (command cPid : String) (keys : List String) (p : Proxy) :
    ZHash.foreach (procmanCheckpid command (atoi cPid)) keys p =
      match keys.findSome? fun key => (p.modules.lookup key).bind fun mod =>
        if mod.pid = atoi cPid then some (key, mod) else none with
      | none => .ok p
      | some (key, mod) => noticed command key mod p := by
  induction keys with
  | nil => rfl
  | cons key keys ih =>
      simp only [ZHash.foreach, List.findSome?_cons]
      cases found : p.modules.lookup key with
      | none => simpa [procmanCheckpid, found] using ih
      | some mod =>
          by_cases same : mod.pid = atoi cPid
          · rw [procmanCheckpid_named command found same]
            simp only [Option.bind_some, same, if_true]
            cases noticed command key mod p <;> rfl
          · simpa [procmanCheckpid, found, same] using ih

theorem sProcmanEvent_eq (env : Env) (command cPid : String) (p : Proxy) :
    sProcmanEvent env command cPid p =
      if atoi cPid = 0 then .ok p else
        match namedModule env cPid p with
        | none => .ok p
        | some (key, mod) => noticed command key mod p := by
  unfold sProcmanEvent
  split
  · rfl
  · exact foreach_named command cPid _ p

theorem namedModule_some {cPid key : String} {mod : Module}
    (named : namedModule env cPid p = some (key, mod)) :
    p.modules.lookup key = some mod ∧ mod.pid = atoi cPid := by
  obtain ⟨met, _, found⟩ := List.exists_of_findSome?_eq_some named
  obtain ⟨other, registered, same⟩ := Option.bind_eq_some_iff.mp found
  split at same
  · rename_i pid
    cases same
    exact ⟨registered, pid⟩
  · cases same

theorem namedModule_none {cPid key : String} {mod : Module}
    (named : namedModule env cPid p = none) (found : p.modules.lookup key = some mod) :
    mod.pid ≠ atoi cPid := by
  intro same
  have visited : key ∈ env.visit p.modules.keys :=
    (env.visit_perm _).mem_iff.mpr (AList.mem_keys.mp (ZHash.mem_of_lookup found))
  have passed := List.findSome?_eq_none_iff.mp named key visited
  simp [found, same] at passed

/-- A notification leaves calls, fabrics and what was sent alone. -/
theorem noticed_same {command key : String} {mod : Module}
    (run : noticed command key mod p = .ok q) :
    q = { p with
      modules := q.modules, ifaces := q.ifaces, heap := q.heap, procman := q.procman
      introduced := q.introduced } := by
  unfold noticed at run
  split at run
  · obtain ⟨_, rfl⟩ := removeModule_ok.mp run
    rfl
  · cases run
    split
    · split <;> rfl
    · rfl

theorem noticed_removes {key : String} {mod : Module} (run : noticed "remove" key mod p = .ok q) :
    q = p.withoutModule mod := by
  rw [noticed, if_pos rfl] at run
  exact (removeModule_ok.mp run).2

theorem noticed_keeps {command key : String} {mod : Module}
    (run : noticed command key mod p = .ok q) (other : command ≠ "remove") :
    q = if command = "restart" then
        if mod.state = .idle then
          zstrSend (.restart mod.sPid) (p.setModule key { mod with state := .restarting })
        else p.setModule key { mod with needRestart := true }
      else p := by
  rw [noticed, if_neg other] at run
  cases run
  rfl

theorem noticed_calm {command key : String} {mod : Module}
    (found : p.modules.lookup key = some mod) (other : command ≠ "remove")
    (run : noticed command key mod p = .ok q) : Calm p q := by
  have scheduled : Module.card { mod with needRestart := true } = mod.card := rfl
  have restarted : Module.card { mod with state := .restarting } = mod.card := rfl
  rw [noticed_keeps run other]
  split
  · split
    · exact (Calm.setModule found restarted).trans (.zstrSend _ _)
    · exact .setModule found scheduled
  · exact .refl p

/-! What the handlers of reports, timers and beacons do, where they do anything. -/

theorem sProcmanEvent_ok {command cPid : String}
    (run : sProcmanEvent env command cPid p = .ok q) :
    q = p ∨ ∃ key mod, atoi cPid ≠ 0 ∧ namedModule env cPid p = some (key, mod) ∧
      noticed command key mod p = .ok q := by
  rw [sProcmanEvent_eq] at run
  split at run
  · cases run
    exact Or.inl rfl
  · rename_i positive
    split at run
    · cases run
      exact Or.inl rfl
    · rename_i key mod named
      exact Or.inr ⟨key, mod, positive, named, run⟩

def Proxy.unstuck (conf : Config) (env : Env) (call : Message) (p : Proxy) : Proxy :=
  (stuckModule conf env call p).elim p fun mod =>
    (zstrSend (.restart mod.sPid) p).withoutModule mod

theorem unstuck_none (none : stuckModule conf env call p = .none) :
    p.unstuck conf env call = p := by
  rw [Proxy.unstuck, none, Option.elim_none]

theorem unstuck_some {mod : Module} (stuck : stuckModule conf env call p = some mod) :
    p.unstuck conf env call = (zstrSend (.restart mod.sPid) p).withoutModule mod := by
  rw [Proxy.unstuck, stuck, Option.elim_some]

section

variable (conf : Config) (env : Env) (call : Message) (p : Proxy)

@[simp] theorem unstuck_fabList : (p.unstuck conf env call).fabList = p.fabList := by
  unfold Proxy.unstuck
  cases stuckModule conf env call p <;> rfl

@[simp] theorem unstuck_queue : (p.unstuck conf env call).queue = p.queue := by
  unfold Proxy.unstuck
  cases stuckModule conf env call p <;> rfl

@[simp] theorem unstuck_sent : (p.unstuck conf env call).sent = p.sent := by
  unfold Proxy.unstuck
  cases stuckModule conf env call p <;> rfl

@[simp] theorem unstuck_brk : (p.unstuck conf env call).brk = p.brk := by
  unfold Proxy.unstuck
  cases stuckModule conf env call p <;> rfl

end

theorem processQueueItem_ok {key : String} (run : processQueueItem conf env key p = .ok q) :
    (q = p ∧ ∀ call, p.queue.lookup key = some call → timeoutException conf env call = none) ∨
    ∃ call msg, p.queue.lookup key = some call ∧ timeoutException conf env call = some msg ∧
      q = (sendMessage env (.reply call) msg call.identity
        (p.unstuck conf env call)).2.deleteCall key := by
  unfold processQueueItem at run
  cases queued : p.queue.lookup key with
  | none =>
      rw [queued] at run
      cases run
      exact Or.inl ⟨rfl, fun _ found => by cases found⟩
  | some call =>
      cases out : timeoutException conf env call with
      | none =>
          simp only [queued, out] at run
          cases run
          refine Or.inl ⟨rfl, ?_⟩
          rintro _ ⟨⟩
          exact out
      | some msg =>
          refine Or.inr ⟨call, msg, rfl, out, ?_⟩
          simp only [queued, out] at run
          split at run
          · cases run
          cases stuck : stuckModule conf env call p with
          | none =>
              rw [stuck] at run
              cases run
              rw [unstuck_none stuck]
          | some mod =>
              simp only [stuck, Option.elim_some, restartStuck] at run
              split at run
              · cases run
              · rename_i cleared removal
                cases run
                rw [unstuck_some stuck, (removeModule_ok.mp removal).2]

theorem stuckModule_some {call : Message} {mod : Module}
    (stuck : stuckModule conf env call p = some mod) :
    conf.debug = false ∧ ∃ via, call.routedVia = some via ∧ p.modules.lookup via = some mod := by
  unfold stuckModule at stuck
  split at stuck
  · rename_i late
    rw [Bool.and_eq_true, Bool.not_eq_true'] at late
    exact ⟨late.2, Option.bind_eq_some_iff.mp stuck⟩
  · cases stuck

theorem getIfaceListEventItem_ok {key : String}
    (run : getIfaceListEventItem env key p = .ok q) :
    q = p ∨ ∃ fab, p.fabList.lookup key = some fab ∧
      ((fab.alive = true ∧ q =
          { (sendMessage env .ifaceListRequest (messageIfacelistRequest env.actionid)
              fab.identity.text p).2 with
            fabList := ZHash.update p.fabList key { fab with alive := false } }) ∨
        (fab.alive = false ∧ q =
          { p.unlisted fab.identity with fabList := p.fabList.erase key })) := by
  unfold getIfaceListEventItem at run
  cases found : p.fabList.lookup key with
  | none =>
      rw [found] at run
      cases run
      exact Or.inl rfl
  | some fab =>
      right
      refine ⟨fab, rfl, ?_⟩
      cases alive : fab.alive with
      | true =>
          simp only [found, alive, if_true] at run
          cases run
          exact Or.inl ⟨rfl, rfl⟩
      | false =>
          simp only [found, alive, Bool.false_eq_true, if_false] at run
          split at run
          · cases run
          · rename_i left dropped
            cases run
            exact Or.inr ⟨rfl, by rw [(unlistEverywhere_ok.mp dropped).2]⟩

theorem sBeaconEvent_ok {msg : String} (run : sBeaconEvent env msg p = .ok q) :
    q = p ∨ ∃ identity, identity ∉ p.fabList ∧ env.zsocketConnect identity = true ∧
      q = { p with
        fabList := p.fabList.insert identity ⟨⟨p.brk, identity⟩, true⟩
        brk := p.brk + 1 } := by
  unfold sBeaconEvent at run
  split at run
  · cases run
    exact Or.inl rfl
  · rename_i identity _
    split at run
    · cases run
      exact Or.inl rfl
    · rename_i fresh
      split at run
      · rename_i connects
        cases run
        exact Or.inr ⟨identity, fresh, connects, rfl⟩
      · cases run

theorem sProcmanEvent_cases {command cPid : String}
    (run : sProcmanEvent env command cPid p = .ok q) :
    StepCases conf env (.procman command cPid) p q := by
  rcases sProcmanEvent_ok run with rfl | ⟨key, mod, positive, named, notice⟩
  · exact .calm (.refl _)
  · obtain ⟨found, _⟩ := namedModule_some named
    by_cases remove : command = "remove"
    · subst remove
      have removed : removedBy conf env (.procman "remove" cPid) p = some mod := by
        simp [removedBy, positive, named]
      have untouched : p = { p with procman := p.procman } := rfl
      rw [noticed_removes notice]
      exact .removed removed untouched (.refl _) (by simp)
    · exact .calm (noticed_calm found remove notice)

theorem processQueueItem_cases {key : String} (run : processQueueItem conf env key p = .ok q) :
    StepCases conf env (.queueItem key) p q := by
  rcases processQueueItem_ok run with ⟨rfl, _⟩ | ⟨call, msg, queued, _, rfl⟩
  · exact .calm (.refl _)
  · cases stuck : stuckModule conf env call p with
    | none =>
        rw [unstuck_none stuck]
        exact .calm ((Calm.sendMessage _ _ _ _ p).trans (.deleteCall _ _))
    | some mod =>
        rw [unstuck_some stuck]
        have removed : removedBy conf env (.queueItem key) p = some mod := by
          simp [removedBy, queued, stuck]
        have restarted : zstrSend (.restart mod.sPid) p =
            { p with procman := (zstrSend (.restart mod.sPid) p).procman } := rfl
        refine .removed removed restarted
          ((Calm.sendMessage _ _ _ _ _).trans (.deleteCall _ _)) ?_
        rintro other same
        cases same
        simp

theorem getIfaceListEventItem_cases {key : String}
    (run : getIfaceListEventItem env key p = .ok q) :
    StepCases conf env (.fabItem key) p q := by
  rcases getIfaceListEventItem_ok run with rfl | ⟨fab, found, ⟨alive, same⟩ | ⟨silent, same⟩⟩
  · exact .calm (.refl _)
  · refine .asked rfl found alive ?_
    rw [same, sendMessage_eq]
  · refine .expired rfl found ?_ same
    simp [expiredBy, found, silent]

theorem sBeaconEvent_cases {msg : String} (run : sBeaconEvent env msg p = .ok q) :
    StepCases conf env event p q := by
  rcases sBeaconEvent_ok run with rfl | ⟨identity, fresh, connects, same⟩
  · exact .calm (.refl _)
  · exact .connected fresh (env.zsocketConnect_endpoint identity connects) same

inductive Commanded (conf : Config) (env : Env) (message : Message) (answer : String)
    (p q : Proxy) : Prop
  | ignored : message.command ∉ ["request", "result", "call", "exception", "introduce"] → q = p →
      Commanded conf env message answer p q
  | request : message.command = "request" → processRequest env message p = .ok q →
      Commanded conf env message answer p q
  | result : message.command = "result" → processResult env message p = .ok q →
      Commanded conf env message answer p q
  | call : message.command = "call" → processCall env message p = .ok q →
      Commanded conf env message answer p q
  | exception : message.command = "exception" → processException env message p = .ok q →
      Commanded conf env message answer p q
  | introduce : message.command = "introduce" →
      processIntroduce conf env message answer p = .ok q → Commanded conf env message answer p q

theorem processCommand_handled {answer : String}
    (run : processCommand conf env message answer p = .ok q) :
    Commanded conf env message answer p q := by
  unfold processCommand at run
  split at run
  · exact .request ‹_› run
  split at run
  · exact .result ‹_› run
  split at run
  · exact .call ‹_› run
  split at run
  · exact .exception ‹_› run
  split at run
  · exact .introduce ‹_› run
  rename_i request result call exception introduce
  refine .ignored (by simp [request, result, call, exception, introduce]) ?_
  split at run
  · cases run
    rfl
  split at run
  · cases run
    rfl
  split at run
  · unfold processMessage at run
    split at run <;> cases run
    rfl
  split at run <;> cases run <;> rfl

theorem commanded_cases (read : event.message env p = some message)
    (commanded : Commanded conf env message event.answer (p.arrived message) q) :
    StepCases conf env event p q := by
  have queue : (p.arrived message).queue = p.queue := by
    unfold Proxy.arrived Proxy.markAlive
    split
    · rfl
    · split <;> rfl
  cases commanded with
  | ignored _ same => exact same ▸ .handled read (.refl _)
  | request _ run => exact .handled read (processRequest_calm run)
  | result isResult run =>
      cases queued : p.queue.lookup message.actionid with
      | some stored => exact .handled read (processResult_calm (queue ▸ queued) run)
      | none =>
          have listed : processIfaceList message (p.arrived message) = .ok q := by
            simpa only [processResult, queue, queued] using run
          exact .listed read isResult queued listed
  | call isCall run =>
      rcases processCall_cases run with calm | ⟨call, placed, middle, parsed, shaped, placement,
        accepted, result⟩
      · exact .handled read calm
      · exact .queued read isCall parsed shaped placement accepted result
  | exception _ run => exact .handled read (processException_calm run)
  | introduce isIntroduce run => exact .introduced read isIntroduce run

inductive Handled (conf : Config) (env : Env) (event : Event) (p q : Proxy) : Prop
  | unreadable : event.message env p = none → q = p → Handled conf env event p q
  | command {message : Message} : event.message env p = some message →
      Commanded conf env message event.answer (p.arrived message) q → Handled conf env event p q
  | procman {command cPid} : event = .procman command cPid →
      sProcmanEvent env command cPid p = .ok q → Handled conf env event p q
  | queueItem {key} : event = .queueItem key → processQueueItem conf env key p = .ok q →
      Handled conf env event p q
  | fabItem {key} : event = .fabItem key → getIfaceListEventItem env key p = .ok q →
      Handled conf env event p q
  | beacon {msg} : event = .beacon msg → sBeaconEvent env msg p = .ok q →
      Handled conf env event p q

theorem step_handled (run : p.step conf env event = .ok q) : Handled conf env event p q := by
  cases event with
  | localMsg zmsg answer =>
      simp only [Proxy.step, sLocalEvent] at run
      split at run
      · cases run
      · rename_i unread
        cases run
        exact .unreadable (by simp [Event.message, unread, Except.toOption]) rfl
      · rename_i message read
        obtain ⟨_, _, _, _, _, _, same⟩ := messageFromzmq_some read
        have arrived : p.arrived message = { p with brk := p.brk + 1 } := by
          simp [Proxy.arrived, same, messageNew]
        rw [← arrived] at run
        exact .command (by simp [Event.message, read, Except.toOption])
          (processCommand_handled run)
  | globalMsg zmsg answer =>
      simp only [Proxy.step, sGlobalEvent] at run
      split at run
      · cases run
      · rename_i unread
        cases run
        exact .unreadable (by simp [Event.message, unread, Except.toOption]) rfl
      · rename_i message read
        obtain ⟨_, _, _, _, _, _, same⟩ := messageFromzmq_some read
        have arrived : p.arrived message =
            { p with brk := p.brk + 1 }.markAlive message.identity := by
          simp [Proxy.arrived, same, messageNew]
        rw [← arrived] at run
        exact .command (by simp [Event.message, read, Except.toOption])
          (processCommand_handled run)
  | procman command cPid => exact .procman rfl run
  | queueItem key => exact .queueItem rfl run
  | fabItem key => exact .fabItem rfl run
  | beacon msg => exact .beacon rfl run

theorem step_commanded (read : event.message env p = some message)
    (run : p.step conf env event = .ok q) :
    Commanded conf env message event.answer (p.arrived message) q := by
  cases step_handled run with
  | unreadable unread => simp [read] at unread
  | command again commanded =>
      rw [read] at again
      cases again
      exact commanded
  | procman own => simp [own, Event.message] at read
  | queueItem own => simp [own, Event.message] at read
  | fabItem own => simp [own, Event.message] at read
  | beacon own => simp [own, Event.message] at read

theorem step_cases (run : p.step conf env event = .ok q) : StepCases conf env event p q := by
  cases step_handled run with
  | unreadable _ same => exact same ▸ .calm (.refl _)
  | command read commanded => exact commanded_cases read commanded
  | procman own run => exact own ▸ sProcmanEvent_cases run
  | queueItem own run => exact own ▸ processQueueItem_cases run
  | fabItem own run => exact own ▸ getIfaceListEventItem_cases run
  | beacon _ run => exact sBeaconEvent_cases run

end

end ModBus
