import ModBus.Selection

/-! Calls that do not get through: the send fails, or the fabric they were sent to
refuses them. Both keep the route that they have. -/

namespace ModBus

open Libc Czmq Transition

def SendFails (env : Env) (message : Message) (p : Proxy) : Prop :=
  message.routedVia = none ∧ ∃ iface bound middle chosen last via cause,
    assignIface message p = .ok (some (iface, bound, middle)) ∧
    chooseRoute iface bound middle = .ok (chosen, last) ∧ chosen.routedVia = some via ∧
    (sendMessage env cause (messageTomsg chosen) via last).1 = -1

structure Undone (p : Proxy) (placed : Message) (q : Proxy) : Prop where
  unrouted : placed.routedVia = none
  outTimestamp : placed.outTimestamp = 0
  processTimestamp : placed.processTimestamp = 0
  states : ∀ id, (q.modules.lookup id).map Module.state = (p.modules.lookup id).map Module.state

structure AtFabric (key : String) (call : Message) (fabs : List String) (index : Nat) (p : Proxy) :
    Prop where
  queued : p.queue.lookup key = some call
  isLocal : call.isLocal = true
  nobody : ∃ iface, call.iface = some iface ∧ (p.heap iface).locals = []
  copied : call.globals.map ZList.items = some fabs
  routed : ∃ fab, fabs[index]? = some fab ∧ call.routedVia = some fab

structure Refusal (key : String) (message : Message) (p : Proxy) : Prop where
  foreign : message.isLocal = false
  answers : message.actionid = key
  code : messageGetExceptionCode message = .ok modulesBusy
  sender : ∃ call, p.queue.lookup key = some call ∧ call.routedVia = some message.identity

inductive Refusals (key : String) : Proxy → List (Env × Message) → Proxy → Prop
  | nil (p : Proxy) : Refusals key p [] p
  | cons {env message p q r rest} : Refusal key message p → processException env message p = .ok q →
      Refusals key q rest r → Refusals key p ((env, message) :: rest) r

structure Retried (key : String) (call : Message) (fabs : List String) (index : Nat)
    (refusals : List (Env × Message)) (p q : Proxy) : Prop where
  sends : ∃ sends, q.sent = p.sent ++ sends ∧ sends.length = refusals.length ∧
    ∀ count send, sends[count]? = some send → send.payload = call.object ∧
      ∃ fab, fabs[(index + count + 1) % fabs.length]? = some fab ∧ send.dest = .peer fab
  route : ∃ placed, q.queue.lookup key = some placed ∧
    placed.routedVia = fabs[(index + refusals.length) % fabs.length]? ∧
    ∀ env message, refusals.getLast? = some (env, message) → placed.outTimestamp = env.now

section

variable {conf : Config} {env : Env} {p q : Proxy} {message placed call : Message} {iface : Addr}
  {key : String} {refusals : List (Env × Message)}

theorem sendMessage_fails (cause : Cause) (payload : Object) (via : String) :
    (sendMessage env cause payload via p).1 = -1 ↔
      p.route via = none ∨ env.zmsgSend p.sent.length = false := by
  rcases sendMessage_cases env cause payload via p with ⟨nowhere, run⟩ | ⟨dest, there, run⟩
  · simp [run, nowhere]
  · cases ok : env.zmsgSend p.sent.length <;> simp [run, there, ok]

theorem dispatch_routes (env : Env) (message : Message) (via : String) (p : Proxy) :
    (dispatch env message via p).1.routedVia = message.routedVia ∧
      ((dispatch env message via p).1.outTimestamp = env.now ∨
        (dispatch env message via p).1.processTimestamp = env.now) := by
  unfold dispatch
  simp only []
  split
  · split
    · exact ⟨rfl, Or.inr rfl⟩
    · exact ⟨rfl, Or.inl rfl⟩
  · exact ⟨rfl, Or.inl rfl⟩

theorem sendFails_of_routed {rc : Int} {via : String} (unrouted : message.routedVia = none)
    (run : placeCall env message p = .ok (rc, placed, q)) (routed : placed.routedVia = some via)
    (fails : p.route via = none ∨ env.zmsgSend p.sent.length = false) : SendFails env message p := by
  refine ⟨unrouted, ?_⟩
  simp only [placeCall, unrouted] at run
  split at run
  · cases run
  · cases run
    rw [unrouted] at routed
    cases routed
  · rename_i iface bound middle assigned
    obtain ⟨_, same, _, middleSame, _⟩ := assignIface_ok assigned
    split at run
    · cases run
    · rename_i chosen last choice
      obtain ⟨_, _, lastSame, _, _⟩ := chooseRoute_ok (by rw [same]; exact unrouted) choice
      split at run
      · rename_i waits
        cases run
        rw [waits] at routed
        cases routed
      · rename_i fab chosenRoute
        cases run
        rw [(dispatch_routes _ _ _ _).1, chosenRoute, Option.some.injEq] at routed
        subst routed
        refine ⟨iface, bound, middle, chosen, last, fab, .toFabric chosen, assigned, choice,
          chosenRoute, (sendMessage_fails _ _ _).mpr ?_⟩
        rw [lastSame, middleSame]
        exact fails

/-- A call whose sending failed has a route and a stamp like one that was sent. -/
theorem failedSend_routes (fails : SendFails env message p) :
    ∃ placed q, placeCall env message p = .ok (0, placed, q) ∧ ¬ Undone p placed q ∧
      (placed.outTimestamp = env.now ∨ placed.processTimestamp = env.now) := by
  obtain ⟨unrouted, iface, bound, middle, chosen, last, via, cause, assigned, choice, routed, _⟩ :=
    fails
  obtain ⟨kept, stamped⟩ := dispatch_routes env chosen via last
  refine ⟨(dispatch env chosen via last).1, (dispatch env chosen via last).2, ?_, ?_, stamped⟩
  · simp only [placeCall, unrouted, assigned, choice, routed]
  · intro undone
    have waits := undone.unrouted
    rw [kept, routed] at waits
    cases waits

def deaf : Env := { late with zmsgSend := fun _ => false }

theorem deaf_fails : SendFails deaf (freshCall "call-1") (fabricAfter plainConf oneWorker) := by
  have routed : (placeCall deaf (freshCall "call-1") (fabricAfter plainConf oneWorker)).toOption.map
      (fun result => result.2.1.routedVia) = some (some "0001020304") := by
    decide +kernel
  cases run : placeCall deaf (freshCall "call-1") (fabricAfter plainConf oneWorker) with
  | error fault => simp [run, Except.toOption] at routed
  | ok result =>
      obtain ⟨rc, placed, q⟩ := result
      simp only [run, Except.toOption, Option.map_some, Option.some.injEq] at routed
      exact sendFails_of_routed rfl run routed (Or.inr rfl)

theorem failedSend_routes_deaf :
    ∃ placed q, placeCall deaf (freshCall "call-1") (fabricAfter plainConf oneWorker) =
      .ok (0, placed, q) ∧ ¬ Undone (fabricAfter plainConf oneWorker) placed q ∧
        (placed.outTimestamp = deaf.now ∨ placed.processTimestamp = deaf.now) :=
  failedSend_routes deaf_fails

theorem failedSend_counts :
    ¬ ∀ env message p, SendFails env message p → ∀ rc placed q,
      placeCall env message p = .ok (rc, placed, q) → Undone p placed q := by
  intro always
  have routed : (placeCall deaf (freshCall "call-1") (fabricAfter plainConf oneWorker)).toOption.map
      (fun result => result.2.1.routedVia.isSome) = some true := by
    decide +kernel
  cases run : placeCall deaf (freshCall "call-1") (fabricAfter plainConf oneWorker) with
  | error fault => simp [run, Except.toOption] at routed
  | ok result =>
      obtain ⟨rc, placed, q⟩ := result
      have waits := (always deaf _ _ deaf_fails rc placed q run).unrouted
      simp [run, Except.toOption, waits] at routed

/-- A refusal leaves the call with the fabric that refused it. -/
theorem refusal_keeps (queued : p.queue.lookup key = some call) (isLocal : call.isLocal = true)
    (refusal : Refusal key message p) (run : processException env message p = .ok q) :
    q.queue.lookup key = some call ∧ q.sent = p.sent := by
  obtain ⟨routedCall, found, routed⟩ := refusal.sender
  rw [queued, Option.some.injEq] at found
  subst found
  have answered : p.queue.lookup message.actionid = some call := by
    rw [refusal.answers]
    exact queued
  simp only [processException, answered, refusal.foreign, isLocal, refusal.code, if_true,
    placeQueued, placeCall, routed, Except.ok.injEq] at run
  subst run
  refine ⟨?_, rfl⟩
  rw [refusal.answers, ZHash.lookup_update (ZHash.mem_of_lookup queued), if_pos rfl]

theorem refusals_keep (run : Refusals key p refusals q) (queued : p.queue.lookup key = some call)
    (isLocal : call.isLocal = true) : q.queue.lookup key = some call ∧ q.sent = p.sent := by
  induction run with
  | nil p => exact ⟨queued, rfl⟩
  | cons refusal first _ ih =>
      obtain ⟨still, sent⟩ := refusal_keeps queued isLocal refusal first
      obtain ⟨last, more⟩ := ih still
      exact ⟨last, more.trans sent⟩

/-- However often a fabric refuses the call, the call is not sent again. -/
theorem refusals_unanswered {fabs : List String} {index : Nat}
    (sent : AtFabric key call fabs index p) (run : Refusals key p refusals q)
    (refused : refusals ≠ []) : ¬ Retried key call fabs index refusals p q := by
  intro retried
  obtain ⟨_, same⟩ := refusals_keep run sent.queued sent.isLocal
  obtain ⟨sends, more, count, _⟩ := retried.sends
  rw [same, List.self_eq_append_right] at more
  rw [more, List.length_nil] at count
  exact refused (List.length_eq_zero_iff.mp count.symm)

def busyReply : Message :=
  messageNew 0 2000000 false otherPeer
    (messageException "call-1" "All modules are busy" modulesBusy) "exception" "call-1"

/-- The call that went to the second of two fabrics. -/
theorem sentToPeer_atFabric : ∃ call,
    AtFabric "call-1" call [peerName, otherPeer] 1 (fabricAfter plainConf sentToPeer) := by
  have entry : ((fabricAfter plainConf sentToPeer).queue.lookup "call-1").map (fun call =>
      (call.isLocal, call.iface.map fun iface =>
          ((fabricAfter plainConf sentToPeer).heap iface).locals,
        call.globals.map ZList.items, call.routedVia)) =
      some (true, some [], some [peerName, otherPeer], some otherPeer) := by
    decide +kernel
  obtain ⟨call, queued, fields⟩ := Option.map_eq_some_iff.mp entry
  simp only [Prod.mk.injEq, Option.map_eq_some_iff] at fields
  obtain ⟨isLocal, nobody, ⟨globals, copied, items⟩, routed⟩ := fields
  exact ⟨call, queued, isLocal, nobody, by rw [copied, Option.map_some, items],
    otherPeer, rfl, routed⟩

theorem sentToPeer_refused : ∃ q,
    Refusals "call-1" (fabricAfter plainConf sentToPeer) [(late, busyReply)] q := by
  obtain ⟨call, sent⟩ := sentToPeer_atFabric
  obtain ⟨fab, listed, routed⟩ := sent.routed
  have same : otherPeer = fab := by simpa using listed
  subst same
  have refusal : Refusal "call-1" busyReply (fabricAfter plainConf sentToPeer) :=
    ⟨rfl, rfl, rfl, call, sent.queued, routed⟩
  have ends : (processException late busyReply
      (fabricAfter plainConf sentToPeer)).toOption.isSome = true := by
    decide +kernel
  cases run : processException late busyReply (fabricAfter plainConf sentToPeer) with
  | error fault => simp [run, Except.toOption] at ends
  | ok q => exact ⟨q, .cons refusal run (.nil q)⟩

theorem refusals_unanswered_once : ∃ call q,
    Refusals "call-1" (fabricAfter plainConf sentToPeer) [(late, busyReply)] q ∧
      ¬ Retried "call-1" call [peerName, otherPeer] 1 [(late, busyReply)]
        (fabricAfter plainConf sentToPeer) q := by
  obtain ⟨call, sent⟩ := sentToPeer_atFabric
  obtain ⟨q, run⟩ := sentToPeer_refused
  exact ⟨call, q, run, refusals_unanswered sent run (by simp)⟩

theorem refusals_not_retried :
    ¬ ∀ key call fabs index p refusals q, AtFabric key call fabs index p →
      Refusals key p refusals q → Retried key call fabs index refusals p q := by
  intro always
  obtain ⟨call, sent⟩ := sentToPeer_atFabric
  obtain ⟨q, run⟩ := sentToPeer_refused
  obtain ⟨_, same⟩ := refusals_keep run sent.queued sent.isLocal
  obtain ⟨sends, more, count, _⟩ := (always _ _ _ _ _ _ _ sent run).sends
  rw [same, List.self_eq_append_right] at more
  rw [more] at count
  cases count

end

end ModBus
