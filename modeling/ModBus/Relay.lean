import ModBus.Execute
import ModBus.FailedLookup
import ModBus.AtMostOnce

/-! The fabric as a relay: what it passes on are messages that it received, as they
were unpacked, and answers of its own are exceptions that it names. -/

namespace ModBus

open Libc Czmq Transition

def Message.letter (call : Message) :
    Addr × String × String × Bool × Object × UInt64 × Option String × Option String :=
  (call.addr, call.actionid, call.identity, call.isLocal, call.object, call.version, call.module,
    call.function)

def ownExceptions : List (String × Int32) := [
  ("Wrong CALL structure", wrongCallStructure),
  ("No modules found", modulesBusy),
  ("Process timeout", processTimeoutCode),
  ("Global fabric not answered in time", globalTimeout),
  ("All modules are busy", modulesBusy)]

def Proxy.received (conf : Config) : List (Env × Event) → Proxy → List Message
  | [], _ => []
  | (env, event) :: labels, p =>
      (event.message env p).toList ++
        match p.step conf env event with
        | .error _ => []
        | .ok next => Proxy.received conf labels next

/-- Where an identity is sent to, whatever fabrics are known. -/
def home (identity : String) : Dest :=
  if 10 < identity.length then .peer identity else .localFe (identityFrame identity)

def CameIn (received : List Message) (call : Message) : Prop :=
  ∃ message ∈ received, message.command = "call" ∧
    ∃ read, readCall message = .ok read ∧ call.letter = read.letter

/-- Where what is sent comes from. An answer arrives after the call, under its
`actionid`, and goes to the home of the caller's identity. -/
inductive Relayed (received : List Message) (sent : Sent) : Prop
  | call {call} : CameIn received call → sent.cause.dispatched = some call →
      sent.payload = call.object → Relayed received sent
  | answer {call message} : CameIn received call → sent.cause = .reply call →
      message ∈ received → message.command = "result" ∨ message.command = "exception" →
      message.actionid = call.actionid → call.addr < message.addr →
      sent.payload = message.object → sent.dest = home call.identity → Relayed received sent
  | exception {call text code} : CameIn received call → sent.cause = .reply call →
      (text, code) ∈ ownExceptions →
      sent.payload = messageException call.actionid text code →
      sent.dest = home call.identity → Relayed received sent
  | introduced {message} : message ∈ received → message.command = "introduce" →
      sent.cause = .introduced message.identity →
      sent.payload = messageResponse "ok" message.actionid →
      sent.dest = home message.identity → Relayed received sent
  | listed {message paths} : message ∈ received → message.command = "request" →
      sent.cause = .ifaceListResponse → sent.payload = packIfaceList paths message.actionid →
      sent.dest = home message.identity → Relayed received sent
  | asks {identity actionid} : sent.cause = .ifaceListRequest →
      sent.payload = messageIfacelistRequest actionid → sent.dest = home identity →
      Relayed received sent

structure Relays (received : List Message) (p : Proxy) : Prop where
  queued : ∀ key call, p.queue.lookup key = some call → CameIn received call
  sent : ∀ sent ∈ p.sent, Relayed received sent

section

variable {conf : Config} {env : Env} {event : Event} {p q : Proxy}
  {message call placed stored : Message} {received all : List Message}

theorem route_home {identity : String} {dest : Dest} (route : p.route identity = some dest) :
    dest = home identity := by
  unfold Proxy.route at route
  unfold home
  split at route
  · rename_i long
    obtain ⟨fab, _, same⟩ := Option.map_eq_some_iff.mp route
    rw [if_pos long, same]
  · rename_i short
    rw [if_neg short]
    exact (Option.some.inj route).symm

theorem CameIn.more (came : CameIn received call) (subset : received ⊆ all) : CameIn all call := by
  obtain ⟨message, member, isCall, read, parsed, same⟩ := came
  exact ⟨message, subset member, isCall, read, parsed, same⟩

theorem CameIn.carried (came : CameIn received call) (carried : call.Carried placed) :
    CameIn received placed := by
  obtain ⟨message, member, isCall, read, parsed, same⟩ := came
  refine ⟨message, member, isCall, read, parsed, Eq.trans ?_ same⟩
  rw [carried.same]
  rfl

theorem Relayed.more {sent : Sent} (relayed : Relayed received sent) (subset : received ⊆ all) :
    Relayed all sent := by
  cases relayed with
  | call came dispatched payload => exact .call (came.more subset) dispatched payload
  | answer came reply member answers named later payload dest =>
      exact .answer (came.more subset) reply (subset member) answers named later payload dest
  | exception came reply known payload dest =>
      exact .exception (came.more subset) reply known payload dest
  | introduced member introduces cause payload dest =>
      exact .introduced (subset member) introduces cause payload dest
  | listed member requests cause payload dest =>
      exact .listed (subset member) requests cause payload dest
  | asks cause payload dest => exact .asks cause payload dest

theorem PlaceOutcome.relays {rc : Int} (came : CameIn received message)
    (outcome : PlaceOutcome env message p rc placed q) : Sends (Relayed received) p q := by
  refine outcome.sends ?_
  intro iface via sent _ _ _ dispatched _ payload
  refine .call (came.carried outcome.carried) dispatched ?_
  rw [payload, outcome.carried.same]

theorem placesOnly_relays (came : ∀ key call, p.queue.lookup key = some call → CameIn received call) :
    PlacesOnly env (Relayed received) p := by
  intro middle key message rc placed after calm found outcome
  obtain ⟨before, there, carried⟩ := calm.queue key message found
  exact outcome.relays ((came key before there).carried carried)

theorem refuse_relays {text : String} {code : Int32} (came : CameIn received call)
    (known : (text, code) ∈ ownExceptions) :
    Sends (Relayed received) p (refuse env call text code p) :=
  Sends.sendMessage _ _ fun _ _ route => .exception came rfl known rfl (route_home route)

theorem processCall_relays (came : ∀ call, readCall message = .ok call → CameIn received call)
    (run : processCall env message p = .ok q) : Sends (Relayed received) p q := by
  obtain ⟨call, read, ⟨_, rfl⟩ | ⟨_, rc, placed, middle, placement, ends⟩⟩ := processCall_ok run
  · exact refuse_relays (came call read) (by simp [ownExceptions])
  · have outcome := placeCall_outcome placement
    have sends := outcome.relays (came call read)
    rcases ends with ⟨_, rfl⟩ | ⟨_, _, rfl⟩
    · exact sends.trans (refuse_relays ((came call read).carried outcome.carried)
        (by simp [ownExceptions]))
    · exact sends.trans (.of_eq rfl)

theorem Returned.relays {middle : Proxy} (registry : Registry p)
    (answer : ∀ ok, Relayed received ⟨.reply stored, home stored.identity, message.object, ok⟩)
    (returned : Returned env message stored p middle) : Sends (Relayed received) p middle := by
  have sends : Sends (Relayed received) p
      (sendMessage env (.reply stored) (messageTomsg message) stored.identity p).2 := by
    refine Sends.sendMessage _ _ fun dest ok route => ?_
    rw [route_home route]
    exact answer ok
  cases returned with
  | caller own => exact sends.trans (.of_eq rfl)
  | fabric foreign near =>
      rw [answerFabric]
      split
      · rename_i fab found
        rw [registry.fabKey _ _ found]
        exact sends.trans (.of_eq rfl)
      · exact .of_eq rfl
  | nowhere foreign far => exact .of_eq rfl

section

variable (registry : Registry p)
  (came : ∀ key call, p.queue.lookup key = some call → CameIn received call)
  (below : ∀ key call, p.queue.lookup key = some call → call.addr < message.addr)
  (member : message ∈ received)

include registry came below member

theorem answer_relays (answers : message.command = "result" ∨ message.command = "exception")
    (found : p.queue.lookup message.actionid = some stored) (ok : Bool) :
    Relayed received ⟨.reply stored, home stored.identity, message.object, ok⟩ :=
  .answer (came _ stored found) rfl member answers (registry.calls _ stored found).actionid.symm
    (below _ stored found) rfl rfl

theorem processResult_relays (isResult : message.command = "result")
    (run : processResult env message p = .ok q) : Sends (Relayed received) p q := by
  rcases processResult_ok run with ⟨_, brought⟩ | ⟨stored, middle, found, returned, ends⟩
  · exact .of_eq (by rw [(processIfaceList_extends registry brought).same])
  · have answer := answer_relays registry came below member (.inl isResult) found
    have back := returned.relays registry answer
    rcases ends with ⟨_, run⟩ | ⟨_, rfl⟩
    · exact back.trans (putBack_sends ((placesOnly_relays came).calm returned.calm) run)
    · exact back

theorem processException_relays (isException : message.command = "exception")
    (run : processException env message p = .ok q) : Sends (Relayed received) p q := by
  rcases processException_ok run with ⟨rfl, _⟩ | ⟨stored, found, ⟨_, _, _, rc, placement⟩ |
    ⟨middle, returned, ends⟩⟩
  · exact .refl _
  · exact placeQueued_sends (placesOnly_relays came) placement
  · have answer := answer_relays registry came below member (.inr isException) found
    have back := returned.relays registry answer
    rcases ends with ⟨_, run, _⟩ | ⟨_, rfl, _⟩
    · exact back.trans (putBack_sends ((placesOnly_relays came).calm returned.calm) run)
    · exact back

end

theorem CameIn.read (member : message ∈ received) (isCall : message.command = "call")
    (read : readCall message = .ok call) : CameIn received call :=
  ⟨message, member, isCall, call, read, rfl⟩

theorem timeoutException_own {msg : Object} (timedOut : timeoutException conf env call = some msg) :
    ∃ text code, (text, code) ∈ ownExceptions ∧ msg = messageException call.actionid text code := by
  unfold timeoutException at timedOut
  split at timedOut
  · cases timedOut
    exact ⟨_, _, by simp [ownExceptions], rfl⟩
  · split at timedOut
    · cases timedOut
      exact ⟨_, _, by simp [ownExceptions], rfl⟩
    · split at timedOut <;> cases timedOut
      exact ⟨_, _, by simp [ownExceptions], rfl⟩

/-- What an event sends comes from what was received up to then. -/
theorem step_relays (registry : Registry p) (once : OnceEach p)
    (came : ∀ key call, p.queue.lookup key = some call → CameIn received call)
    (member : ∀ message, event.message env p = some message → message ∈ received)
    (run : p.step conf env event = .ok q) : Sends (Relayed received) p q := by
  cases step_handled run with
  | unreadable _ same => exact .of_eq (same ▸ rfl)
  | @command message read commanded =>
      have registry' := registry.arrived message
      have here := member message read
      have came' : ∀ key call, (p.arrived message).queue.lookup key = some call →
          CameIn received call := by
        rw [arrived_queue]
        exact came
      have below : ∀ key call, (p.arrived message).queue.lookup key = some call →
          call.addr < message.addr := by
        rw [arrived_queue, (Event.message_arrives read).addr]
        exact once.below
      refine Sends.frame (p := p.arrived message) ?_ (arrived_sent message p).symm
      cases commanded with
      | ignored _ same => exact .of_eq (same ▸ rfl)
      | request isRequest requested =>
          rcases processRequest_ok requested with rfl | ⟨msg, fab, known, packs, rfl⟩
          · exact .refl _
          · obtain ⟨paths, _, same⟩ := bind_ok.mp packs
            cases same
            rw [registry'.fabKey _ fab known]
            exact Sends.sendMessage _ _ fun _ _ route =>
              .listed here isRequest rfl rfl (route_home route)
      | result isResult answered =>
          exact processResult_relays registry' came' below here isResult answered
      | call isCall called => exact processCall_relays (fun _ => .read here isCall) called
      | exception isException answered =>
          exact processException_relays registry' came' below here isException answered
      | introduce isIntroduce introduced =>
          rcases processIntroduce_ok introduced with asked | ⟨_, _, _, _, _, _, introduces⟩
          · exact .of_eq (by rw [asked])
          · have kept := (introduces.extends registry').same
            rw [introduces.registers]
            refine Sends.frame (Sends.sendMessage _ _ fun _ _ route =>
              .introduced here isIntroduce rfl rfl (route_home route)) ?_
            rw [registerModule, zstrSend_sent, kept]
            rfl
  | procman _ notified =>
      rcases sProcmanEvent_ok notified with same | ⟨key, mod, _, _, same⟩
      · exact .of_eq (same ▸ rfl)
      · exact .of_eq (by rw [noticed_same same])
  | @queueItem key _ run =>
      rcases processQueueItem_ok run with ⟨same, _⟩ | ⟨call, msg, found, timedOut, same⟩
      · exact .of_eq (by rw [same])
      · obtain ⟨text, code, known, rfl⟩ := timeoutException_own timedOut
        rw [same]
        exact Sends.frame (Sends.sendMessage _ _ fun _ _ route =>
          .exception (came key call found) rfl known rfl (route_home route))
          (unstuck_sent conf env call p).symm
  | @fabItem key _ run =>
      rcases getIfaceListEventItem_ok run with same | ⟨fab, _, ⟨_, same⟩ | ⟨_, same⟩⟩
      · exact .of_eq (by rw [same])
      · rw [same]
        exact Sends.sendMessage _ p fun _ _ route => .asks rfl rfl (route_home route)
      · refine .of_eq ?_
        rw [same]
        rfl
  | beacon _ announced =>
      rcases sBeaconEvent_ok announced with same | ⟨identity, _, _, same⟩
      · exact .of_eq (same ▸ rfl)
      · exact .of_eq (same ▸ rfl)

theorem Relays.sends (registry : Registry p) (once : OnceEach p) (relays : Relays received p)
    (run : p.step conf env event = .ok q) :
    Sends (Relayed (received ++ (event.message env p).toList)) p q := by
  refine step_relays registry once (fun key call found => ?_) (fun message read => ?_) run
  · exact (relays.queued key call found).more (List.subset_append_left _ _)
  · simp [read]

theorem Relays.step (registry : Registry p) (once : OnceEach p) (relays : Relays received p)
    (run : p.step conf env event = .ok q) :
    Relays (received ++ (event.message env p).toList) q := by
  have kept : received ⊆ received ++ (event.message env p).toList := List.subset_append_left _ _
  constructor
  · intro key placed found
    rcases step_entry registry run found with ⟨before, queued, carried⟩ | ⟨message, call, middle,
      read, isCall, parsed, placement, _⟩
    · exact ((relays.queued key before queued).more kept).carried carried
    · have member : message ∈ received ++ (event.message env p).toList := by simp [read]
      exact (CameIn.read member isCall parsed).carried (placeCall_outcome placement).carried
  · obtain ⟨more, grown, relayed⟩ := relays.sends registry once run
    intro sent member
    rw [grown] at member
    rcases List.mem_append.mp member with old | new
    · exact (relays.sent sent old).more kept
    · exact relayed sent new

theorem Relays.execute {labels : List (Env × Event)} (registry : Registry p) (once : OnceEach p)
    (relays : Relays received p) (run : p.execute conf labels = .ok q) :
    Relays (received ++ p.received conf labels) q := by
  induction labels generalizing p received with
  | nil =>
      cases run
      rwa [Proxy.received, List.append_nil]
  | cons label labels ih =>
      obtain ⟨env, event⟩ := label
      simp only [Proxy.execute] at run
      split at run
      · cases run
      · rename_i next move
        have later := ih (registry.step move) (once.step registry move)
          (relays.step registry once move) run
        simpa only [Proxy.received, move, List.append_assoc] using later

/-- Whatever the fabric sends in a run is a call that it received, or an answer that
it received later under the call's `actionid`, both as they were, or an exception of
its own, and answers go where the code looks for the caller. The rest acknowledges an
introduction, or asks for an interface list or brings it. -/
theorem execute_relays {labels : List (Env × Event)} (run : proxyNew.execute conf labels = .ok p) :
    ∀ sent ∈ p.sent, Relayed (proxyNew.received conf labels) sent := by
  have start : Relays [] proxyNew := by
    refine ⟨fun _ _ found => ?_, fun _ member => ?_⟩
    · cases found
    · cases member
  exact (start.execute registry_new onceEach_new run).sent

end

def served : List (Env × Event) := [
  (early, .localMsg (introduceOf worker "mod" 77 [("f", 1)]) "yes"),
  (early, .localMsg (callOf caller "mod" "f" 1 "call-1") ""),
  (early, .localMsg (resultOf worker "call-1") "")]

theorem execute_relays_served :
    (fabricAfter plainConf served).sent.length = 3 ∧
      ∀ sent ∈ (fabricAfter plainConf served).sent,
        Relayed (proxyNew.received plainConf served) sent :=
  ⟨by decide, execute_relays (execute_fabricAfter (by decide))⟩

end ModBus
