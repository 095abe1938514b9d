import ModBus.Provide

/-! The sends that a handler adds to the record. -/

namespace ModBus

open Libc Czmq Transition

def Cause.dispatched : Cause → Option Message
  | .toModule call => some call
  | .toFabric call => some call
  | _ => none

def Cause.answers : Cause → Option Message
  | .reply call => some call
  | _ => none

def NoIntroduction (payload : Object) : Prop :=
  messageCheckCommand payload ≠ .ok (some "introduce")

def Sends (Good : Sent → Prop) (p q : Proxy) : Prop :=
  ∃ more, q.sent = p.sent ++ more ∧ ∀ sent ∈ more, Good sent

def PlacesOnly (env : Env) (Good : Sent → Prop) (p : Proxy) : Prop :=
  ∀ middle key message rc placed after, Calm p middle → middle.queue.lookup key = some message →
    PlaceOutcome env message middle rc placed after → Sends Good middle after

section

variable {conf : Config} {env : Env} {event : Event} {Good : Sent → Prop} {p q r : Proxy}
  {message : Message}

theorem Sends.of_eq (same : q.sent = p.sent) : Sends Good p q :=
  ⟨[], by simp [same], by simp⟩

theorem Sends.refl (p : Proxy) : Sends Good p p := .of_eq rfl

theorem Sends.trans (left : Sends Good p q) (right : Sends Good q r) : Sends Good p r := by
  obtain ⟨first, grown, good⟩ := left
  obtain ⟨second, grown', good'⟩ := right
  refine ⟨first ++ second, by rw [grown', grown, List.append_assoc], ?_⟩
  intro sent member
  rcases List.mem_append.mp member with earlier | later
  · exact good sent earlier
  · exact good' sent later

theorem Sends.frame (sends : Sends Good p q) (start : r.sent = p.sent) : Sends Good r q := by
  obtain ⟨more, grown, good⟩ := sends
  exact ⟨more, by rw [grown, start], good⟩

theorem Sends.mono {Better : Sent → Prop} (weaker : ∀ sent, Good sent → Better sent)
    (sends : Sends Good p q) : Sends Better p q := by
  obtain ⟨more, grown, good⟩ := sends
  exact ⟨more, grown, fun sent member => weaker sent (good sent member)⟩

theorem Sends.added (sends : Sends Good p q) : ∀ sent ∈ q.sent.drop p.sent.length, Good sent := by
  obtain ⟨more, grown, good⟩ := sends
  intro sent member
  rw [grown, List.drop_left] at member
  exact good sent member

theorem Sends.sendMessage {cause : Cause} {payload : Object} (identity : String) (p : Proxy)
    (good : ∀ dest ok, p.route identity = some dest → Good ⟨cause, dest, payload, ok⟩) :
    Sends Good p (sendMessage env cause payload identity p).2 := by
  rcases sendMessage_cases env cause payload identity p with ⟨_, same⟩ | ⟨dest, found, same⟩
  · rw [same]
    exact .refl p
  · rw [same]
    refine ⟨_, rfl, ?_⟩
    intro sent member
    rw [List.mem_singleton.mp member]
    exact good dest _ found

theorem PlacesOnly.calm (only : PlacesOnly env Good p) (calm : Calm p q) :
    PlacesOnly env Good q :=
  fun middle key message rc placed after later => only middle key message rc placed after
    (calm.trans later)

theorem PlaceOutcome.sends {rc : Int} {placed : Message}
    (outcome : PlaceOutcome env message p rc placed q)
    (good : ∀ iface via sent, PlacedOn message p iface placed q →
      ChosenFrom message p iface placed → placed.routedVia = some via →
      sent.cause.dispatched = some placed → p.route via = some sent.dest →
      sent.payload = message.object → Good sent) : Sends Good p q := by
  cases outcome with
  | routed => exact .refl p
  | rejected => exact .refl p
  | waiting _ _ _ _ _ _ sent => exact .of_eq sent
  | @toModule iface _ _ via _ on chosen routed _ _ _ _ _ sent =>
      have given : Sends Good p (ModBus.sendMessage env (.toModule placed) message.object via p).2 :=
        .sendMessage via p fun dest ok route =>
          good iface via ⟨.toModule placed, dest, message.object, ok⟩ on chosen routed rfl route rfl
      obtain ⟨more, grown, all⟩ := given
      exact ⟨more, sent.trans grown, all⟩
  | @toFabric iface _ _ via on chosen routed _ _ _ _ sent =>
      have given : Sends Good p (ModBus.sendMessage env (.toFabric placed) message.object via p).2 :=
        .sendMessage via p fun dest ok route =>
          good iface via ⟨.toFabric placed, dest, message.object, ok⟩ on chosen routed rfl route rfl
      obtain ⟨more, grown, all⟩ := given
      exact ⟨more, sent.trans grown, all⟩

theorem placeQueued_sends {key : String} {rc : Int} (only : PlacesOnly env Good p)
    (run : placeQueued env key p = .ok (rc, q)) : Sends Good p q := by
  rcases placeQueued_ok run with ⟨_, _, rfl⟩ | ⟨call, placed, middle, queued, placement, same, _⟩
  · exact .refl _
  · rw [same]
    exact (only p key call _ _ _ (.refl p) queued (placeCall_outcome placement)).trans (.of_eq rfl)

theorem placeAll_sends (only : PlacesOnly env Good p) (run : placeAll env p = .ok q) :
    Sends Good p q :=
  (ZHash.foreach_invariant (fun state => Calm p state ∧ Sends Good p state)
    (fun _ _ _ _ _ call before =>
      ⟨before.1.trans (placeQueued_calm call),
        before.2.trans (placeQueued_sends (only.calm before.1) call)⟩)
    run ⟨.refl p, .refl p⟩).2

theorem putBack_sends {identity : String} (only : PlacesOnly env Good p)
    (run : putBack env identity p = .ok q) : Sends Good p q := by
  rcases putBack_ok run with ⟨_, rfl⟩ | ⟨mod, found, ⟨_, rfl⟩ | ⟨_, run⟩⟩
  · exact .refl _
  · exact .of_eq rfl
  · have same : Module.card { mod with state := .idle } = mod.card := rfl
    exact (placeAll_sends (only.calm (.setModule found same)) run).frame rfl

theorem noIntroduction_packed {command : String} (known : cString command ≠ "introduce")
    (body : Object) (actionid : String) : NoIntroduction (packed command body actionid) := by
  unfold NoIntroduction
  rw [messageCheckCommand_packed]
  split
  · simpa using known
  · cases logAsFormat (cString command) <;> simp [Except.map]

theorem timeoutException_plain {msg : Object}
    (timedOut : timeoutException conf env message = some msg) : NoIntroduction msg := by
  unfold timeoutException at timedOut
  (repeat' split at timedOut) <;> cases timedOut <;> exact noIntroduction_packed (by decide) _ _

theorem Event.message_command (read : event.message env p = some message) :
    messageCheckCommand message.object = .ok (some message.command) := by
  cases event with
  | localMsg => exact messageFromzmq_command (toOption_join read)
  | globalMsg => exact messageFromzmq_command (toOption_join read)
  | procman => cases read
  | queueItem => cases read
  | fabItem => cases read
  | beacon => cases read

theorem noIntroduction_of_command {payload : Object} {command : String}
    (checked : messageCheckCommand payload = .ok (some command)) (other : command ≠ "introduce") :
    NoIntroduction payload := by
  unfold NoIntroduction
  rw [checked]
  simpa using other

section

variable (replies : ∀ (sent : Sent) call, sent.cause.answers = some call →
  NoIntroduction sent.payload → Good sent)

include replies

theorem answerCaller_sends (stored : Message) {payload : Object} (plain : NoIntroduction payload)
    (p : Proxy) : Sends Good p (answerCaller env stored payload p) :=
  (Sends.sendMessage _ p fun _ _ _ => replies _ _ rfl plain).trans (.of_eq rfl)

theorem answerFabric_sends (stored : Message) {payload : Object} (plain : NoIntroduction payload)
    (p : Proxy) : Sends Good p (answerFabric env stored payload p) := by
  unfold answerFabric
  split
  · exact (Sends.sendMessage _ p fun _ _ _ => replies _ _ rfl plain).trans (.of_eq rfl)
  · exact .of_eq rfl

theorem Returned.sends {stored : Message} {middle : Proxy}
    (plain : NoIntroduction message.object) (returned : Returned env message stored p middle) : Sends Good p middle := by
  cases returned with
  | caller own => exact answerCaller_sends replies _ plain p
  | fabric foreign near => exact answerFabric_sends replies _ plain p
  | nowhere foreign far => exact .of_eq rfl

theorem processResult_sends (registry : Registry p) (only : PlacesOnly env Good p)
    (plain : NoIntroduction message.object) (run : processResult env message p = .ok q) : Sends Good p q := by
  rcases processResult_ok run with ⟨_, brought⟩ |
    ⟨stored, middle, _, returned, ⟨_, run⟩ | ⟨_, rfl⟩⟩
  · exact .of_eq (by rw [(processIfaceList_extends registry brought).same])
  · exact (returned.sends replies plain).trans (putBack_sends (only.calm returned.calm) run)
  · exact returned.sends replies plain

theorem processException_sends (only : PlacesOnly env Good p)
    (plain : NoIntroduction message.object) (run : processException env message p = .ok q) : Sends Good p q := by
  rcases processException_ok run with ⟨rfl, _⟩ | ⟨stored, _, ⟨_, _, _, rc, placement⟩ |
    ⟨middle, returned, ⟨_, run, _⟩ | ⟨_, rfl, _⟩⟩⟩
  · exact .refl _
  · exact placeQueued_sends only placement
  · exact (returned.sends replies plain).trans (putBack_sends (only.calm returned.calm) run)
  · exact returned.sends replies plain

theorem processCall_sends (run : processCall env message p = .ok q)
    (arriving : ∀ call rc placed middle, readCall message = .ok call →
      PlaceOutcome env call p rc placed middle → Sends Good p middle) : Sends Good p q := by
  have refused : ∀ call text code (state : Proxy), Sends Good state (refuse env call text code state) :=
    fun _ _ _ state => Sends.sendMessage _ state fun _ _ _ =>
      replies _ _ rfl (noIntroduction_packed (by decide) _ _)
  obtain ⟨call, read, ⟨_, rfl⟩ | ⟨_, rc, placed, middle, placement, outcome⟩⟩ :=
    processCall_ok run
  · exact refused _ _ _ p
  · have sent := arriving call rc placed middle read (placeCall_outcome placement)
    rcases outcome with ⟨_, rfl⟩ | ⟨_, _, rfl⟩
    · exact sent.trans (refused _ _ _ _)
    · exact sent.trans (.of_eq rfl)

end

section

variable (others : ∀ sent : Sent, sent.cause.dispatched = none → sent.cause.answers = none →
  NoIntroduction sent.payload → Good sent)

include others

theorem processIntroduce_sends {answer : String} (registry : Registry p)
    (run : processIntroduce conf env message answer p = .ok q) : Sends Good p q := by
  rcases processIntroduce_ok run with asked | ⟨_, _, _, _, _, _, introduces⟩
  · exact .of_eq (by rw [asked])
  · have kept := (introduces.extends registry).same
    rw [introduces.registers]
    refine Sends.frame (Sends.sendMessage _ _ fun _ _ _ =>
      others _ rfl rfl (noIntroduction_packed (by decide) _ _)) ?_
    rw [registerModule, zstrSend_sent, kept]
    rfl

theorem processRequest_sends (run : processRequest env message p = .ok q) : Sends Good p q := by
  rcases processRequest_ok run with rfl | ⟨msg, fab, _, packs, rfl⟩
  · exact .refl _
  · obtain ⟨paths, _, packs⟩ := bind_ok.mp packs
    cases packs
    exact Sends.sendMessage _ p fun _ _ _ =>
      others _ rfl rfl (noIntroduction_packed (by decide) _ _)

variable (replies : ∀ (sent : Sent) call, sent.cause.answers = some call →
  NoIntroduction sent.payload → Good sent)

include replies

theorem Commanded.sends {answer : String} (registry : Registry p)
    (only : PlacesOnly env Good p)
    (checked : messageCheckCommand message.object = .ok (some message.command))
    (arriving : ∀ call rc placed middle, message.command = "call" → readCall message = .ok call →
      PlaceOutcome env call p rc placed middle → Sends Good p middle)
    (commanded : Commanded conf env message answer p q) : Sends Good p q := by
  cases commanded with
  | ignored _ same => exact .of_eq (congrArg Proxy.sent same)
  | request _ run => exact processRequest_sends others run
  | result isResult run =>
      exact processResult_sends replies registry only
        (noIntroduction_of_command checked (by simp [isResult])) run
  | call isCall run =>
      exact processCall_sends replies run fun call rc placed middle =>
        arriving call rc placed middle isCall
  | exception isException run =>
      exact processException_sends replies only
        (noIntroduction_of_command checked (by simp [isException])) run
  | introduce _ run => exact processIntroduce_sends others registry run

/-- The event's sends are `Good` if those of its placements are. -/
theorem step_sends (registry : Registry p)
    (onlyArrived : ∀ message, PlacesOnly env Good (p.arrived message))
    (arriving : ∀ message call rc placed middle, event.message env p = some message →
      message.command = "call" → readCall message = .ok call → PlaceOutcome env call (p.arrived message) rc placed middle →
      Sends Good (p.arrived message) middle)
    (run : p.step conf env event = .ok q) : Sends Good p q := by
  cases step_handled run with
  | unreadable _ same => exact same ▸ .refl _
  | @command message read commanded =>
      exact (commanded.sends others replies (registry.arrived message) (onlyArrived message)
        (Event.message_command read) (fun call rc placed middle => arriving message call rc placed middle read)).frame
        (arrived_sent message p).symm
  | procman _ run =>
      rcases sProcmanEvent_ok run with same | ⟨key, mod, _, _, notice⟩
      · exact .of_eq (same ▸ rfl)
      · exact .of_eq (by rw [noticed_same notice])
  | queueItem _ run =>
      rcases processQueueItem_ok run with ⟨rfl, _⟩ | ⟨call, msg, _, timedOut, rfl⟩
      · exact .refl _
      · exact Sends.frame (Sends.sendMessage _ _ fun _ _ _ =>
          replies _ _ rfl (timeoutException_plain timedOut)) (unstuck_sent _ _ _ _).symm
  | fabItem _ run =>
      rcases getIfaceListEventItem_ok run with rfl | ⟨fab, _, ⟨_, same⟩ | ⟨_, same⟩⟩
      · exact .refl _
      · rw [same]
        exact Sends.sendMessage _ p fun _ _ _ =>
          others _ rfl rfl (noIntroduction_packed (by decide) _ _)
      · exact same ▸ .of_eq rfl
  | beacon _ run =>
      rcases sBeaconEvent_ok run with same | ⟨identity, _, _, same⟩
      · exact .of_eq (same ▸ rfl)
      · exact .of_eq (same ▸ rfl)

end

end

end ModBus
