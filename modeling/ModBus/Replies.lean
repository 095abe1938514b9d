import ModBus.Integrity
import ModBus.Sends

/-! Reply conservation: a call is queued and unanswered, or answered once and
gone. -/

namespace ModBus

open Libc Czmq Transition

def Message.tag (message : Message) : Addr × String × Bool :=
  (message.addr, message.identity, message.isLocal)

def Message.origin (message : Message) : Dest :=
  if message.isLocal then .localFe (identityFrame message.identity) else .peer message.identity

def Event.origin : Event → Option Dest
  | .localMsg (frame :: _) _ => some (.localFe (frame.data.map some))
  | .globalMsg (frame :: _) _ => some (.peer (cString frame.text))
  | _ => none

def Proxy.repliesTo (p : Proxy) (call : Addr) : List Sent :=
  p.sent.filter fun sent => decide ((sent.cause.answers.map Message.addr) = some call)

def Accounted (p : Proxy) (call : Addr) (origin : Dest) : Prop :=
  ((∃ key entry, p.queue.lookup key = some entry ∧ entry.addr = call ∧ entry.origin = origin) ∧
      p.repliesTo call = []) ∨
    (∀ key entry, p.queue.lookup key = some entry → entry.addr ≠ call) ∧
      ∃ sent, p.repliesTo call = [sent] ∧ sent.ok = true ∧ sent.dest = origin

def KnownOrigin (p : Proxy) (message : Message) : Prop :=
  if message.isLocal then message.identity.length = 10
  else 10 < message.identity.length ∧ message.identity ∈ p.fabList

def Accepts (p : Proxy) (call : Message) : Prop :=
  ∃ module function iface, call.module = some module ∧ call.function = some function ∧
    checkInterface p.ifaces p.heap module function call.version = some iface ∧
    (call.isLocal = true ∨ ∃ item ∈ (p.heap iface).locals.head?.toList ++ (p.heap iface).globals,
      ∃ mod, p.modules.lookup item.text = some mod ∧ mod.state = .idle)

structure Delivers (p : Proxy) (label : Env × Event) : Prop where
  sends : ∀ n, label.1.zmsgSend n = true
  origin : ∀ message call, label.2.message label.1 p = some message → message.command = "call" →
    readCall message = .ok call → call.wellFormedCall = true → KnownOrigin p message

structure AnswersReachable (conf : Config) (p : Proxy) (label : Env × Event) : Prop
    extends Delivers p label where
  fresh : ∀ message call, label.2.message label.1 p = some message → message.command = "call" →
    readCall message = .ok call → call.wellFormedCall = true → message.actionid ∈ p.queue →
    ¬ Accepts p call
  answer : ∀ message stored, label.2.message label.1 p = some message →
    message.command = "result" ∨ message.command = "exception" →
    p.queue.lookup message.actionid = some stored → stored.isLocal = false →
    message.isLocal = true ∧ stored.identity ∈ p.fabList
  timeout : ∀ key call, label.2 = .queueItem key → p.queue.lookup key = some call →
    (timeoutException conf label.1 call).isSome = true → call.isLocal = false →
    call.identity ∈ p.fabList

structure Quiet (p q : Proxy) : Prop where
  calls : ∀ key, (q.queue.lookup key).map Message.tag = (p.queue.lookup key).map Message.tag
  sends : Sends (fun sent => sent.cause.answers = none) p q
  brk : p.brk ≤ q.brk

structure Answered (key : String) (call : Message) (p q : Proxy) : Prop where
  found : p.queue.lookup key = some call
  calls : ∀ other, (q.queue.lookup other).map Message.tag =
    if other = key then none else (p.queue.lookup other).map Message.tag
  sends : ∃ sent more, q.sent = p.sent ++ sent :: more ∧ sent.cause = .reply call ∧
    sent.ok = true ∧ sent.dest = call.origin ∧ ∀ other ∈ more, other.cause.answers = none
  brk : p.brk ≤ q.brk

section

variable {conf : Config} {env : Env} {event : Event} {p q r : Proxy} {message placed : Message}

theorem Quiet.refl (p : Proxy) : Quiet p p := ⟨fun _ => rfl, .refl p, Nat.le_refl _⟩

theorem Quiet.trans (left : Quiet p q) (right : Quiet q r) : Quiet p r :=
  ⟨fun key => (right.calls key).trans (left.calls key), left.sends.trans right.sends,
    Nat.le_trans left.brk right.brk⟩

theorem Quiet.frame (queue : q.queue = p.queue) (sent : q.sent = p.sent) (brk : p.brk ≤ q.brk) :
    Quiet p q :=
  ⟨fun key => by rw [queue], .of_eq sent, brk⟩

theorem Message.Carried.tag {before after : Message} (carried : before.Carried after) :
    after.tag = before.tag := by
  rw [carried.same]
  rfl

theorem PlaceOutcome.noReply {rc : Int} (outcome : PlaceOutcome env message p rc placed q) :
    Sends (fun sent => sent.cause.answers = none) p q := by
  refine outcome.sends ?_
  intro iface via sent _ _ _ dispatched _ _
  cases cause : sent.cause <;> simp [cause, Cause.dispatched, Cause.answers] at dispatched ⊢

theorem placesOnly_noReply (p : Proxy) :
    PlacesOnly env (fun sent => sent.cause.answers = none) p :=
  fun _ _ _ _ _ _ _ _ outcome => outcome.noReply

theorem placeQueued_quiet {key : String} {rc : Int}
    (run : placeQueued env key p = .ok (rc, q)) : Quiet p q := by
  refine ⟨?_, placeQueued_sends (placesOnly_noReply p) run, Nat.le_of_eq
    (placeQueued_calm run).brk.symm⟩
  rcases placeQueued_ok run with ⟨_, _, rfl⟩ | ⟨call, placed, middle, queued, placement, _, lookup⟩
  · exact fun _ => rfl
  · intro other
    rw [lookup]
    split
    · rename_i here
      rw [here, queued]
      exact congrArg some (placeCall_outcome placement).carried.tag
    · rfl

theorem placeAll_quiet (run : placeAll env p = .ok q) : Quiet p q :=
  ZHash.foreach_invariant (Quiet p)
    (fun _ _ _ _ _ call before => before.trans (placeQueued_quiet call)) run (.refl p)

theorem putBack_quiet {identity : String} (run : putBack env identity p = .ok q) : Quiet p q := by
  rcases putBack_ok run with ⟨_, rfl⟩ | ⟨mod, _, ⟨_, rfl⟩ | ⟨_, run⟩⟩
  · exact .refl _
  · exact .frame rfl rfl (Nat.le_refl _)
  · have placed := placeAll_quiet run
    exact ⟨placed.calls, placed.sends.frame rfl, placed.brk⟩

theorem Answered.quiet {key : String} {call : Message} (answered : Answered key call p q)
    (quiet : Quiet q r) : Answered key call p r := by
  obtain ⟨sent, more, grown, cause, ok, dest, others⟩ := answered.sends
  obtain ⟨later, grown', others'⟩ := quiet.sends
  refine ⟨answered.found, fun other => (quiet.calls other).trans (answered.calls other),
    ⟨sent, more ++ later, ?_, cause, ok, dest, ?_⟩, Nat.le_trans answered.brk quiet.brk⟩
  · rw [grown', grown]
    simp
  · intro other member
    rcases List.mem_append.mp member with earlier | late
    · exact others other earlier
    · exact others' other late

/-- A send over a known route, and the deletion of the call it answers. -/
theorem reply_answered {key : String} {call : Message} {payload : Object} {identity : String}
    (found : p.queue.lookup key = some call) (sends : ∀ n, env.zmsgSend n = true)
    (route : p.route identity = some call.origin) :
    Answered key call p ((sendMessage env (.reply call) payload identity p).2.deleteCall key) := by
  have result : (sendMessage env (.reply call) payload identity p).2 =
      { p with sent := p.sent ++ [⟨.reply call, call.origin, payload, true⟩] } := by
    simp [sendMessage, route, sends]
  rw [result]
  refine ⟨found, ?_, ⟨_, [], rfl, rfl, rfl, rfl, by simp⟩, Nat.le_refl _⟩
  intro other
  rw [deleteCall_queue, ZHash.lookup_erase]
  split <;> rfl

theorem route_origin (known : KnownOrigin p message) :
    p.route message.identity = some message.origin := by
  unfold KnownOrigin at known
  unfold Proxy.route Message.origin
  split at known
  · rename_i isLocal
    simp [isLocal, known]
  · rename_i foreign
    obtain ⟨fab, found⟩ := ZHash.lookup_of_mem known.2
    simp [foreign, known.1, found]

/-! What each handler does to the calls and their answers. -/

structure Enqueued (call : Message) (p q : Proxy) : Prop where
  fresh : call.actionid ∉ p.queue
  calls : ∀ other, (q.queue.lookup other).map Message.tag =
    if other = call.actionid then some call.tag else (p.queue.lookup other).map Message.tag
  sends : Sends (fun sent => sent.cause.answers = none) p q
  brk : p.brk ≤ q.brk

structure Refused (call : Message) (p q : Proxy) : Prop where
  calls : ∀ key, (q.queue.lookup key).map Message.tag = (p.queue.lookup key).map Message.tag
  sends : ∃ before sent reply, q.sent = p.sent ++ before ++ [sent] ∧
    (∀ other ∈ before, other.cause.answers = none) ∧ sent.cause = .reply reply ∧
    reply.addr = call.addr ∧ sent.ok = true ∧ sent.dest = call.origin
  brk : p.brk ≤ q.brk

theorem PlaceOutcome.quiet {rc : Int} (outcome : PlaceOutcome env message p rc placed q) :
    Quiet p q := by
  obtain ⟨calm, queue⟩ := outcome.calm
  exact ⟨fun key => by rw [queue], outcome.noReply, Nat.le_of_eq calm.brk.symm⟩

theorem KnownOrigin.named (known : KnownOrigin p message) :
    if message.isLocal then message.identity.length = 10 else 10 < message.identity.length := by
  unfold KnownOrigin at known
  cases isLocal : message.isLocal with
  | true => simpa [isLocal] using known
  | false =>
      simp only [isLocal, Bool.false_eq_true, if_false] at known ⊢
      exact known.1

theorem KnownOrigin.congr (known : KnownOrigin p message) (identity : placed.identity = message.identity)
    (isLocal : placed.isLocal = message.isLocal) (fabList : q.fabList = p.fabList) :
    KnownOrigin q placed := by
  unfold KnownOrigin at known ⊢
  rw [identity, isLocal, fabList]
  exact known

theorem origin_congr (identity : placed.identity = message.identity)
    (isLocal : placed.isLocal = message.isLocal) : placed.origin = message.origin := by
  unfold Message.origin
  rw [identity, isLocal]

theorem refuse_refused {text : String} {code : Int32} (quiet : Quiet p q)
    (carried : message.Carried placed) (known : KnownOrigin q placed)
    (sends : ∀ n, env.zmsgSend n = true) : Refused message p (refuse env placed text code q) := by
  obtain ⟨more, grown, others⟩ := quiet.sends
  have same := carried.same
  have result : refuse env placed text code q =
      { q with sent := q.sent ++ [⟨.reply placed, placed.origin,
        messageException placed.actionid text code, true⟩] } := by
    simp [refuse, sendMessage, route_origin known, sends]
  rw [result]
  refine ⟨quiet.calls, ⟨more, _, placed, by rw [grown], others, rfl, ?_, rfl, ?_⟩, quiet.brk⟩
  · rw [same]
  · exact origin_congr (by rw [same]) (by rw [same])

theorem PlacedOn.receives {iface : Addr} (on : PlacedOn message p iface placed q)
    (chosen : ChosenFrom message p iface placed)
    (accepted : placed.isLocal = false → ¬ placed.routedVia = none) :
    message.isLocal = true ∨ ∃ item ∈ (p.heap iface).locals.head?.toList ++ (p.heap iface).globals,
      ∃ mod, p.modules.lookup item.text = some mod ∧ mod.state = .idle := by
  cases isLocal : message.isLocal with
  | true => exact Or.inl rfl
  | false =>
      right
      have routed := accepted (by rw [on.same]; exact isLocal)
      obtain ⟨via, target⟩ := Option.ne_none_iff_exists'.mp routed
      rcases chosen with ⟨head, rest, later, locals, subset, scan⟩ | ⟨_, routes, _⟩
      · rw [target] at scan
        rcases scanIdle_some scan with none | ⟨id, member, mod, found, idle⟩
        · cases none
        · obtain ⟨item, listed, rfl⟩ := List.mem_map.mp member
          refine ⟨item, ?_, mod, found, idle⟩
          rw [locals]
          rcases List.mem_cons.mp listed with rfl | other
          · simp
          · exact List.mem_append_right _ (subset other)
      · rw [(routes via target).1] at isLocal
        cases isLocal

theorem processCall_ledger {call : Message} (fresh : message.iface = none)
    (unrouted : message.routedVia = none) (parsed : readCall message = .ok call)
    (shaped : call.wellFormedCall = true) (known : KnownOrigin p message)
    (sends : ∀ n, env.zmsgSend n = true)
    (distinct : message.actionid ∈ p.queue → ¬ Accepts p call)
    (run : processCall env message p = .ok q) : Enqueued message p q ∨ Refused message p q := by
  have parsedSame := readCall_ok parsed
  have unroutedCall : call.routedVia = none := by
    rw [parsedSame]
    exact unrouted
  have freshCall : call.iface = none := by
    rw [parsedSame]
    exact fresh
  obtain ⟨other, read, ⟨misshaped, _⟩ | ⟨_, rc, placed, middle, placement, ends⟩⟩ :=
    processCall_ok run
  · cases parsed.symm.trans read
    rw [shaped] at misshaped
    cases misshaped
  · cases parsed.symm.trans read
    have outcome := placeCall_outcome placement
    have quiet := outcome.quiet
    have same := outcome.carried.same
    have whole : message.tag = placed.tag := by
      rw [same, parsedSame]
      rfl
    have actionid : placed.actionid = message.actionid := by
      rw [same, parsedSame]
    rcases ends with ⟨_, rfl⟩ | ⟨found, accepted, rfl⟩
    · right
      have known' : KnownOrigin middle placed :=
        known.congr (by rw [same, parsedSame]) (by rw [same, parsedSame]) outcome.calm.1.fabList
      have refused : Refused call p
          (refuse env placed "No modules found" modulesBusy middle) :=
        refuse_refused quiet outcome.carried known' sends
      obtain ⟨before, sent, reply, grown, others, cause, addr, ok, dest⟩ := refused.sends
      refine ⟨refused.calls, ⟨before, sent, reply, grown, others, cause, ?_, ok, ?_⟩,
        refused.brk⟩
      · rw [addr, parsedSame]
      · rw [dest]
        exact origin_congr (by rw [parsedSame]) (by rw [parsedSame])
    · left
      have code := outcome.code found
      rw [code] at outcome
      have absent : message.actionid ∉ p.queue := by
        intro queued
        refine distinct queued ?_
        obtain ⟨iface, on, chosen⟩ := outcome.chosen unroutedCall
        rcases on.binds with assigned | ⟨_, module, function, named, called, checked⟩
        · simp [freshCall] at assigned
        · exact ⟨module, function, iface, named, called, checked,
            on.receives chosen fun foreign => accepted.resolve_left (by simp [foreign])⟩
      refine ⟨absent, ?_, quiet.sends.trans (.of_eq rfl), quiet.brk⟩
      intro other
      have absent' : placed.actionid ∉ middle.queue := by
        rw [outcome.calm.2, actionid]
        exact absent
      simp only [enqueue, ZHash.lookup_insertNew, absent', not_false_eq_true, and_true]
      rw [actionid]
      by_cases here : other = message.actionid
      · simp [here, whole]
      · simpa [here] using quiet.calls other

structure Booked (p : Proxy) : Prop where
  named : ∀ key call, p.queue.lookup key = some call →
    if call.isLocal then call.identity.length = 10 else 10 < call.identity.length
  below : ∀ key call, p.queue.lookup key = some call → call.addr < p.brk
  distinct : ∀ key other call entry, p.queue.lookup key = some call →
    p.queue.lookup other = some entry → call.addr = entry.addr → key = other
  unanswered : ∀ key call, p.queue.lookup key = some call → p.repliesTo call.addr = []
  known : ∀ sent ∈ p.sent, ∀ call, sent.cause.answers = some call → call.addr < p.brk

theorem Booked.origin (booked : Booked p) {key : String} {call : Message}
    (found : p.queue.lookup key = some call)
    (there : call.isLocal = false → call.identity ∈ p.fabList) : KnownOrigin p call := by
  have named := booked.named key call found
  unfold KnownOrigin
  split
  · rename_i isLocal
    simpa [isLocal] using named
  · rename_i foreign
    have isForeign : call.isLocal = false := by simpa using foreign
    exact ⟨by simpa [isForeign] using named, there isForeign⟩

theorem answerCaller_answered {key : String} {stored : Message} (registry : Registry p)
    (found : p.queue.lookup key = some stored) (known : KnownOrigin p stored)
    (sends : ∀ n, env.zmsgSend n = true) (payload : Object) :
    Answered key stored p (answerCaller env stored payload p) := by
  unfold answerCaller
  rw [(registry.calls key stored found).actionid]
  exact reply_answered found sends (route_origin known)

theorem answerFabric_answered {key : String} {stored : Message} (registry : Registry p)
    (found : p.queue.lookup key = some stored) (known : KnownOrigin p stored)
    (foreign : stored.isLocal = false) (sends : ∀ n, env.zmsgSend n = true) (payload : Object) :
    Answered key stored p (answerFabric env stored payload p) := by
  have there : stored.identity ∈ p.fabList := by
    simp only [KnownOrigin, foreign, Bool.false_eq_true, if_false] at known
    exact known.2
  obtain ⟨fab, listed⟩ := ZHash.lookup_of_mem there
  unfold answerFabric
  rw [listed, (registry.calls key stored found).actionid]
  simp only [registry.fabKey _ _ listed]
  exact reply_answered found sends (route_origin known)

section

variable (registry : Registry p) (booked : Booked p) (sends : ∀ n, env.zmsgSend n = true)
  (answer : ∀ stored, p.queue.lookup message.actionid = some stored → stored.isLocal = false →
    message.isLocal = true ∧ stored.identity ∈ p.fabList)

include registry booked sends answer

theorem Returned.answered {middle : Proxy}
    (found : p.queue.lookup message.actionid = some stored)
    (returned : Returned env message stored p middle) : Answered message.actionid stored p middle := by
  have known := booked.origin found fun foreign => (answer stored found foreign).2
  cases returned with
  | caller own => exact answerCaller_answered registry found known sends _
  | fabric foreign near => exact answerFabric_answered registry found known foreign sends _
  | nowhere foreign far =>
      rw [(answer stored found foreign).1] at far
      cases far

theorem processResult_ledger (run : processResult env message p = .ok q) :
    Quiet p q ∨ ∃ key call, Answered key call p q := by
  rcases processResult_ok run with ⟨_, brought⟩ |
    ⟨stored, middle, found, returned, ⟨_, run⟩ | ⟨_, rfl⟩⟩
  · have extended := processIfaceList_extends registry brought
    exact Or.inl (.frame (by rw [extended.same]) (by rw [extended.same]) extended.brk)
  · have answered := returned.answered registry booked sends answer found
    exact Or.inr ⟨message.actionid, stored, answered.quiet (putBack_quiet run)⟩
  · exact Or.inr ⟨message.actionid, stored, returned.answered registry booked sends answer found⟩

theorem processException_ledger (run : processException env message p = .ok q) :
    Quiet p q ∨ ∃ key call, Answered key call p q := by
  rcases processException_ok run with ⟨rfl, _⟩ | ⟨stored, found, ⟨_, _, _, rc, placement⟩ |
    ⟨middle, returned, ⟨_, run, _⟩ | ⟨_, rfl, _⟩⟩⟩
  · exact Or.inl (.refl _)
  · exact Or.inl (placeQueued_quiet placement)
  · have answered := returned.answered registry booked sends answer found
    exact Or.inr ⟨message.actionid, stored, answered.quiet (putBack_quiet run)⟩
  · exact Or.inr ⟨message.actionid, stored, returned.answered registry booked sends answer found⟩

end

theorem processQueueItem_ledger {key : String} (booked : Booked p)
    (sends : ∀ n, env.zmsgSend n = true)
    (there : ∀ call, p.queue.lookup key = some call →
      (timeoutException conf env call).isSome = true → call.isLocal = false →
      call.identity ∈ p.fabList) (run : processQueueItem conf env key p = .ok q) :
    Quiet p q ∨ ∃ call, Answered key call p q := by
  rcases processQueueItem_ok run with ⟨same, _⟩ | ⟨call, msg, found, timedOut, same⟩
  · rw [same]
    exact Or.inl (.refl p)
  · rw [same]
    refine Or.inr ⟨call, ?_⟩
    have known := booked.origin found (there call found (by rw [timedOut]; rfl))
    have still : (p.unstuck conf env call).queue.lookup key = some call := by
      rw [unstuck_queue, found]
    have answered : Answered key call (p.unstuck conf env call)
        ((sendMessage env (.reply call) msg call.identity (p.unstuck conf env call)).2.deleteCall
          key) :=
      reply_answered still sends (route_origin (known.congr rfl rfl (unstuck_fabList _ _ _ _)))
    obtain ⟨reply, more, grown, rest⟩ := answered.sends
    refine ⟨found, ?_, ⟨reply, more, by rw [grown, unstuck_sent], rest⟩,
      unstuck_brk conf env call p ▸ answered.brk⟩
    intro other
    rw [answered.calls, unstuck_queue]

inductive Ledger (p q : Proxy) : Prop
  | quiet : Quiet p q → Ledger p q
  | answered {key call} : Answered key call p q → Ledger p q
  | enqueued {call} : call.addr = p.brk → KnownOrigin p call → p.brk < q.brk →
      Enqueued call p q → Ledger p q
  | refused {call} : call.addr = p.brk → p.brk < q.brk → Refused call p q → Ledger p q
  | stray : (∀ key, (q.queue.lookup key).map Message.tag = (p.queue.lookup key).map Message.tag) →
      Sends (fun sent => ∀ call, sent.cause.answers = some call → call.addr = p.brk) p q →
      p.brk < q.brk → Ledger p q

theorem arrived_le (message : Message) (p : Proxy) : p.brk ≤ (p.arrived message).brk := by
  simp

theorem Quiet.arrived (quiet : Quiet (p.arrived message) q) : Quiet p q :=
  ⟨fun key => by rw [quiet.calls, arrived_queue], quiet.sends.frame (arrived_sent message p).symm,
    Nat.le_trans (arrived_le message p) quiet.brk⟩

theorem Answered.arrived {key : String} {call : Message}
    (answered : Answered key call (p.arrived message) q) : Answered key call p q := by
  obtain ⟨found, calls, sends, brk⟩ := answered
  rw [arrived_queue] at found
  rw [arrived_sent] at sends
  exact ⟨found, fun other => by rw [calls, arrived_queue], sends,
    Nat.le_trans (arrived_le message p) brk⟩

theorem call_ledger {call : Message} (allowed : AnswersReachable conf p (env, event))
    (read : event.message env p = some message) (isCall : message.command = "call")
    (parsed : readCall message = .ok call) (shaped : call.wellFormedCall = true)
    (run : p.step conf env event = .ok q) :
    message.addr = p.brk ∧ KnownOrigin p message ∧ p.brk < q.brk ∧
      (Enqueued message p q ∨ Refused message p q) := by
  have arrives := Event.message_arrives read
  have known := allowed.origin message call read isCall parsed shaped
  have there : KnownOrigin (p.arrived message) message := by
    simpa only [KnownOrigin, mem_arrived_fabList] using known
  have called : processCall env message (p.arrived message) = .ok q := by
    cases step_commanded read run with
    | call _ called => exact called
    | ignored other => simp [isCall] at other
    | request other => simp [isCall] at other
    | result other => simp [isCall] at other
    | exception other => simp [isCall] at other
    | introduce other => simp [isCall] at other
  have distinct : message.actionid ∈ (p.arrived message).queue → ¬ Accepts (p.arrived message) call := by
    rw [arrived_queue]
    intro queued accepts
    refine allowed.fresh message call read isCall parsed shaped queued ?_
    simpa [Accepts] using accepts
  refine ⟨arrives.addr, known, ?_⟩
  rcases processCall_ledger arrives.iface arrives.routedVia parsed shaped there allowed.sends
    distinct called with enqueued | refused
  · have brk := enqueued.brk
    rw [arrived_brk] at brk
    refine ⟨brk, Or.inl ⟨?_, ?_, enqueued.sends.frame (arrived_sent message p).symm,
      Nat.le_of_succ_le brk⟩⟩
    · simpa using enqueued.fresh
    · intro other
      rw [enqueued.calls, arrived_queue]
  · have brk := refused.brk
    have grown := refused.sends
    rw [arrived_brk] at brk
    rw [arrived_sent] at grown
    refine ⟨brk, Or.inr ⟨?_, grown, Nat.le_of_succ_le brk⟩⟩
    intro key
    rw [refused.calls, arrived_queue]

theorem malformed_ledger {call : Message} (arrives : message.Arrives p env)
    (parsed : readCall message = .ok call) (misshaped : call.wellFormedCall = false)
    (run : processCall env message (p.arrived message) = .ok q) : Ledger p q := by
  obtain ⟨other, read, ⟨_, rfl⟩ | ⟨shaped, _⟩⟩ := processCall_ok run
  · refine .stray ?_ ?_ ?_
    · intro key
      simp [refuse]
    · refine (Sends.sendMessage _ _ ?_).frame (arrived_sent message p).symm
      intro dest ok _ call' answers
      cases answers
      rw [readCall_ok read]
      exact arrives.addr
    · simp [refuse]
  · cases parsed.symm.trans read
    rw [misshaped] at shaped
    cases shaped

theorem repliesTo_append {more : List Sent} (grown : q.sent = p.sent ++ more) (call : Addr) :
    q.repliesTo call = p.repliesTo call ++
      more.filter fun sent => decide ((sent.cause.answers.map Message.addr) = some call) := by
  rw [Proxy.repliesTo, grown, List.filter_append]
  rfl

theorem repliesTo_others {call : Addr} (sends : Sends
    (fun sent => ∀ other, sent.cause.answers = some other → other.addr ≠ call) p q) :
    q.repliesTo call = p.repliesTo call := by
  obtain ⟨more, grown, others⟩ := sends
  rw [repliesTo_append grown, List.filter_eq_nil_iff.mpr, List.append_nil]
  intro sent member
  cases answers : sent.cause.answers with
  | none => simp
  | some other => simpa using others sent member other answers

theorem Sends.noReply (sends : Sends (fun sent => sent.cause.answers = none) p q)
    (call : Addr) : q.repliesTo call = p.repliesTo call := by
  refine repliesTo_others (sends.mono fun sent none other some => ?_)
  rw [none] at some
  cases some

theorem repliesTo_one {before after : List Sent} {sent : Sent} {answered : Message}
    (grown : q.sent = p.sent ++ before ++ sent :: after) (cause : sent.cause = .reply answered)
    (none : ∀ other ∈ before ++ after, other.cause.answers = none) (call : Addr) :
    q.repliesTo call = p.repliesTo call ++ if answered.addr = call then [sent] else [] := by
  have drops : ∀ more : List Sent, (∀ other ∈ more, other.cause.answers = Option.none) →
      more.filter (fun sent => decide ((sent.cause.answers.map Message.addr) = some call)) = [] := by
    intro more others
    rw [List.filter_eq_nil_iff]
    intro other member
    simp [others other member]
  rw [List.append_assoc] at grown
  rw [repliesTo_append grown, List.filter_append, List.filter_cons,
    drops before fun other member => none other (by simp [member]),
    drops after fun other member => none other (by simp [member])]
  by_cases same : answered.addr = call
  · simp [cause, Cause.answers, same]
  · simp [cause, Cause.answers, same]

theorem entry_of_tag {before after : ZHash Message} {key other : String} {entry : Message}
    (same : (after.lookup key).map Message.tag = (before.lookup other).map Message.tag)
    (found : after.lookup key = some entry) :
    ∃ old, before.lookup other = some old ∧ old.addr = entry.addr ∧
      old.identity = entry.identity ∧ old.isLocal = entry.isLocal := by
  rw [found] at same
  obtain ⟨old, there, tags⟩ := Option.map_eq_some_iff.mp same.symm
  simp only [Message.tag, Prod.mk.injEq] at tags
  exact ⟨old, there, tags⟩

theorem Booked.keep (booked : Booked p) (brk : p.brk ≤ q.brk)
    (entries : ∀ key entry, q.queue.lookup key = some entry →
      ∃ old, p.queue.lookup key = some old ∧ old.addr = entry.addr ∧
        old.identity = entry.identity ∧ old.isLocal = entry.isLocal)
    (replies : ∀ key entry, q.queue.lookup key = some entry →
      q.repliesTo entry.addr = p.repliesTo entry.addr)
    (known : ∀ sent ∈ q.sent, ∀ call, sent.cause.answers = some call → call.addr < q.brk) :
    Booked q where
  named key call found := by
    obtain ⟨old, there, _, identity, isLocal⟩ := entries key call found
    rw [← identity, ← isLocal]
    exact booked.named key old there
  below key call found := by
    obtain ⟨old, there, addr, _⟩ := entries key call found
    exact Nat.lt_of_lt_of_le (addr ▸ booked.below key old there) brk
  distinct key other call entry found found' same := by
    obtain ⟨old, there, addr, _⟩ := entries key call found
    obtain ⟨old', there', addr', _⟩ := entries other entry found'
    exact booked.distinct key other old old' there there' (addr.trans (same.trans addr'.symm))
  unanswered key call found := by
    obtain ⟨old, there, addr, _⟩ := entries key call found
    rw [replies key call found, ← addr]
    exact booked.unanswered key old there
  known := known

theorem Booked.unborn (booked : Booked p) : p.repliesTo p.brk = [] := by
  rw [Proxy.repliesTo, List.filter_eq_nil_iff]
  intro sent member
  cases answers : sent.cause.answers with
  | none => simp
  | some call => simpa using Nat.ne_of_lt (booked.known sent member call answers)

theorem Booked.knownOf (booked : Booked p) (brk : p.brk ≤ q.brk) {more : List Sent}
    (grown : q.sent = p.sent ++ more)
    (news : ∀ sent ∈ more, ∀ call, sent.cause.answers = some call → call.addr < q.brk) :
    ∀ sent ∈ q.sent, ∀ call, sent.cause.answers = some call → call.addr < q.brk := by
  intro sent member call answers
  rw [grown] at member
  rcases List.mem_append.mp member with old | new
  · exact Nat.lt_of_lt_of_le (booked.known sent old call answers) brk
  · exact news sent new call answers

theorem Booked.quiet (booked : Booked p) (quiet : Quiet p q) : Booked q := by
  obtain ⟨more, grown, none⟩ := quiet.sends
  refine booked.keep quiet.brk (fun key entry => entry_of_tag (quiet.calls key))
    (fun key entry _ => quiet.sends.noReply _) (booked.knownOf quiet.brk grown ?_)
  intro sent member call answers
  rw [none sent member] at answers
  cases answers

theorem Booked.answered {key : String} {call : Message} (booked : Booked p)
    (answered : Answered key call p q) : Booked q := by
  obtain ⟨sent, more, grown, cause, _, _, none⟩ := answered.sends
  have entries : ∀ other entry, q.queue.lookup other = some entry → other ≠ key ∧
      ∃ old, p.queue.lookup other = some old ∧ old.addr = entry.addr ∧
        old.identity = entry.identity ∧ old.isLocal = entry.isLocal := by
    intro other entry found
    have calls := answered.calls other
    split at calls
    · simp [found] at calls
    · rename_i different
      exact ⟨different, entry_of_tag calls found⟩
  refine booked.keep answered.brk (fun other entry found => (entries other entry found).2) ?_
    (booked.knownOf answered.brk grown ?_)
  · intro other entry found
    obtain ⟨different, old, there, addr, _⟩ := entries other entry found
    have apart : call.addr ≠ entry.addr := by
      intro same
      exact different (booked.distinct key other call old answered.found there
        (same.trans addr.symm)).symm
    have one : q.sent = p.sent ++ [] ++ sent :: more := by simpa using grown
    rw [repliesTo_one one cause none, if_neg apart, List.append_nil]
  · intro other member answeredCall answers
    rcases List.mem_cons.mp member with rfl | later
    · rw [cause] at answers
      cases answers
      exact Nat.lt_of_lt_of_le (booked.below key call answered.found) answered.brk
    · rw [none other later] at answers
      cases answers

theorem Booked.enqueued {call : Message} (booked : Booked p) (addr : call.addr = p.brk)
    (known : KnownOrigin p call) (brk : p.brk < q.brk) (enqueued : Enqueued call p q) :
    Booked q := by
  obtain ⟨more, grown, none⟩ := enqueued.sends
  have entries : ∀ key entry, q.queue.lookup key = some entry →
      (key = call.actionid ∧ entry.tag = call.tag) ∨
      ∃ old, p.queue.lookup key = some old ∧ old.addr = entry.addr ∧
        old.identity = entry.identity ∧ old.isLocal = entry.isLocal := by
    intro key entry found
    have calls := enqueued.calls key
    split at calls
    · rename_i here
      rw [found] at calls
      exact Or.inl ⟨here, Option.some.inj calls⟩
    · exact Or.inr (entry_of_tag calls found)
  have newAddr : ∀ entry : Message, entry.tag = call.tag → entry.addr = p.brk := by
    intro entry same
    rw [← addr]
    exact congrArg Prod.fst same
  refine ⟨?_, ?_, ?_, ?_, booked.knownOf (Nat.le_of_lt brk) grown ?_⟩
  · intro key entry found
    rcases entries key entry found with ⟨_, same⟩ | ⟨old, there, _, identity, isLocal⟩
    · simp only [Message.tag, Prod.mk.injEq] at same
      rw [same.2.1, same.2.2]
      exact known.named
    · rw [← identity, ← isLocal]
      exact booked.named key old there
  · intro key entry found
    rcases entries key entry found with ⟨_, same⟩ | ⟨old, there, oldAddr, _⟩
    · rw [newAddr entry same]
      exact brk
    · exact Nat.lt_trans (oldAddr ▸ booked.below key old there) brk
  · intro key other first second found found' same
    rcases entries key first found with ⟨here, fresh⟩ | ⟨old, there, oldAddr, _⟩ <;>
      rcases entries other second found' with ⟨here', fresh'⟩ | ⟨old', there', oldAddr', _⟩
    · rw [here, here']
    · have below := booked.below other old' there'
      rw [oldAddr', ← same, newAddr first fresh] at below
      exact absurd below (Nat.lt_irrefl _)
    · have below := booked.below key old there
      rw [oldAddr, same, newAddr second fresh'] at below
      exact absurd below (Nat.lt_irrefl _)
    · exact booked.distinct key other old old' there there'
        (oldAddr.trans (same.trans oldAddr'.symm))
  · intro key entry found
    rw [enqueued.sends.noReply]
    rcases entries key entry found with ⟨_, same⟩ | ⟨old, there, oldAddr, _⟩
    · rw [newAddr entry same]
      exact booked.unborn
    · rw [← oldAddr]
      exact booked.unanswered key old there
  · intro sent member answeredCall answers
    rw [none sent member] at answers
    cases answers

theorem Booked.below_calls (booked : Booked p)
    (calls : ∀ key, (q.queue.lookup key).map Message.tag = (p.queue.lookup key).map Message.tag) :
    ∀ key entry, q.queue.lookup key = some entry → entry.addr < p.brk := by
  intro key entry found
  obtain ⟨old, there, same, _⟩ := entry_of_tag (calls key) found
  exact same ▸ booked.below key old there

theorem Booked.refused {call : Message} (booked : Booked p) (addr : call.addr = p.brk)
    (brk : p.brk < q.brk) (refused : Refused call p q) : Booked q := by
  obtain ⟨before, sent, reply, grown, none, cause, same, _, _⟩ := refused.sends
  refine booked.keep (Nat.le_of_lt brk) (fun key entry => entry_of_tag (refused.calls key)) ?_
    (booked.knownOf (Nat.le_of_lt brk) (by rw [grown, List.append_assoc]) ?_)
  · intro key entry found
    rw [repliesTo_one grown cause (by simpa using none), if_neg, List.append_nil]
    rw [same, addr]
    exact Nat.ne_of_gt (booked.below_calls refused.calls key entry found)
  · intro other member answeredCall answers
    rcases List.mem_append.mp member with earlier | last
    · rw [none other earlier] at answers
      cases answers
    · rw [List.mem_singleton.mp last, cause] at answers
      cases answers
      rw [same, addr]
      exact brk

theorem Booked.step (booked : Booked p) (ledger : Ledger p q) : Booked q := by
  cases ledger with
  | quiet quiet => exact booked.quiet quiet
  | answered answered => exact booked.answered answered
  | enqueued addr known brk enqueued => exact booked.enqueued addr known brk enqueued
  | refused addr brk refused => exact booked.refused addr brk refused
  | stray calls sends brk =>
      obtain ⟨more, grown, own⟩ := sends
      refine booked.keep (Nat.le_of_lt brk) (fun key entry => entry_of_tag (calls key)) ?_
        (booked.knownOf (Nat.le_of_lt brk) grown ?_)
      · intro key entry found
        refine repliesTo_others ⟨more, grown, fun sent member other answers => ?_⟩
        rw [own sent member other answers]
        exact Nat.ne_of_gt (booked.below_calls calls key entry found)
      · intro sent member call answers
        rw [own sent member call answers]
        exact brk

theorem Quiet.sendMessage {cause : Cause} (payload : Object) (identity : String) (p : Proxy)
    (noReply : cause.answers = none) : Quiet p (sendMessage env cause payload identity p).2 :=
  ⟨fun key => by simp, Sends.sendMessage identity p fun _ _ _ => noReply, by simp⟩

theorem processRequest_quiet (run : processRequest env message p = .ok q) : Quiet p q := by
  rcases processRequest_ok run with rfl | ⟨msg, fab, _, _, rfl⟩
  · exact .refl _
  · exact .sendMessage _ _ p rfl

theorem processIntroduce_quiet {answer : String} (registry : Registry p)
    (run : processIntroduce conf env message answer p = .ok q) : Quiet p q := by
  rcases processIntroduce_ok run with asked | ⟨_, _, _, _, _, middle, introduces⟩
  · exact .frame (by rw [asked]) (by rw [asked]) (by rw [asked])
  · have extended := introduces.extends registry
    have kept := extended.same
    have registered : ∀ mod command, Quiet p (registerModule mod (zstrSend command middle)) := by
      intro mod command
      refine .frame ?_ ?_ (Nat.le_trans (Nat.le_succ _) extended.brk)
      · rw [registerModule, zstrSend_queue, kept]
        rfl
      · rw [registerModule, zstrSend_sent, kept]
        rfl
    rw [introduces.registers]
    exact (registered _ _).trans (.sendMessage _ _ _ rfl)

theorem step_ledger (registry : Registry p) (booked : Booked p)
    (allowed : AnswersReachable conf p (env, event)) (run : p.step conf env event = .ok q) :
    Ledger p q := by
  cases step_handled run with
  | unreadable _ same => exact .quiet (same ▸ .refl _)
  | @command message read commanded =>
      have arrives := Event.message_arrives read
      have booked' := booked.step (.quiet (Quiet.refl (p.arrived message)).arrived)
      have registry' := registry.arrived message
      have ledger : (Quiet (p.arrived message) q ∨ ∃ key call, Answered key call (p.arrived message) q) →
          Ledger p q := by
        rintro (quiet | ⟨key, call, answered⟩)
        · exact .quiet quiet.arrived
        · exact .answered answered.arrived
      have answer : message.command = "result" ∨ message.command = "exception" →
          ∀ stored, (p.arrived message).queue.lookup message.actionid = some stored →
            stored.isLocal = false → message.isLocal = true ∧ stored.identity ∈ (p.arrived message).fabList := by
        intro isAnswer stored found foreign
        rw [mem_arrived_fabList]
        rw [arrived_queue] at found
        exact allowed.answer message stored read isAnswer found foreign
      cases commanded with
      | ignored _ same => exact .quiet (same ▸ (Quiet.refl _).arrived)
      | request _ requested => exact .quiet (processRequest_quiet requested).arrived
      | result isResult answered =>
          exact ledger (processResult_ledger registry' booked' allowed.sends
            (answer (Or.inl isResult)) answered)
      | call isCall called =>
          cases parsed : readCall message with
          | error => simp [processCall, parsed] at called
          | ok call =>
              cases shaped : call.wellFormedCall with
              | false => exact malformed_ledger arrives parsed shaped called
              | true =>
                  obtain ⟨addr, known, brk, enqueued | refused⟩ :=
                    call_ledger allowed read isCall parsed shaped run
                  · exact .enqueued addr known brk enqueued
                  · exact .refused addr brk refused
      | exception isException answered =>
          exact ledger (processException_ledger registry' booked' allowed.sends
            (answer (Or.inr isException)) answered)
      | introduce _ introduced => exact .quiet (processIntroduce_quiet registry' introduced).arrived
  | procman _ notified =>
      rcases sProcmanEvent_ok notified with same | ⟨key, mod, _, _, notice⟩
      · exact same ▸ .quiet (.refl _)
      · rw [noticed_same notice]
        exact .quiet (.frame rfl rfl (Nat.le_refl _))
  | @queueItem key own run =>
      have ledger := processQueueItem_ledger booked allowed.sends
        (fun call => allowed.timeout key call own) run
      rcases ledger with quiet | ⟨call, answered⟩
      · exact .quiet quiet
      · exact .answered answered
  | @fabItem key _ run =>
      refine .quiet ?_
      rcases getIfaceListEventItem_ok run with same | ⟨fab, _, ⟨_, same⟩ | ⟨_, same⟩⟩
      · exact same ▸ .refl p
      · rw [same]
        exact (Quiet.sendMessage _ _ p rfl).trans (.frame rfl rfl (Nat.le_refl _))
      · rw [same]
        exact .frame rfl rfl (Nat.le_refl _)
  | beacon _ announced =>
      rcases sBeaconEvent_ok announced with same | ⟨identity, _, _, same⟩
      · exact same ▸ .quiet (.refl _)
      · rw [same]
        exact .quiet (.frame rfl rfl (Nat.le_succ _))

/-! Accounting for a call once it was handled. -/

theorem origin_of_tag {old entry : Message} (identity : old.identity = entry.identity)
    (isLocal : old.isLocal = entry.isLocal) : entry.origin = old.origin :=
  origin_congr identity.symm isLocal.symm

theorem Accounted.keep {call : Addr} {origin : Dest} (accounted : Accounted p call origin)
    (kept : ∀ key old, p.queue.lookup key = some old → old.addr = call →
      ∃ entry, q.queue.lookup key = some entry ∧ entry.addr = call ∧ entry.origin = old.origin)
    (entries : ∀ key entry, q.queue.lookup key = some entry → entry.addr = call →
      ∃ key old, p.queue.lookup key = some old ∧ old.addr = call)
    (replies : q.repliesTo call = p.repliesTo call) : Accounted q call origin := by
  rcases accounted with ⟨⟨key, old, there, same, from'⟩, none⟩ | ⟨gone, sent, one, ok, dest⟩
  · obtain ⟨entry, found, addr, origin⟩ := kept key old there same
    exact Or.inl ⟨⟨key, entry, found, addr, origin.trans from'⟩, replies.trans none⟩
  · refine Or.inr ⟨?_, sent, replies.trans one, ok, dest⟩
    intro key entry found addr
    obtain ⟨other, old, there, same⟩ := entries key entry found addr
    exact gone other old there same

theorem Accounted.calls {call : Addr} {origin : Dest} (accounted : Accounted p call origin)
    (calls : ∀ key, (q.queue.lookup key).map Message.tag = (p.queue.lookup key).map Message.tag)
    (replies : q.repliesTo call = p.repliesTo call) : Accounted q call origin := by
  refine accounted.keep ?_ ?_ replies
  · intro key old there same
    obtain ⟨entry, found, addr, identity, isLocal⟩ := entry_of_tag (calls key).symm there
    exact ⟨entry, found, addr.trans same, origin_of_tag identity.symm isLocal.symm⟩
  · intro key entry found same
    obtain ⟨old, there, addr, _⟩ := entry_of_tag (calls key) found
    exact ⟨key, old, there, addr.trans same⟩

theorem Accounted.step {call : Addr} {origin : Dest} (booked : Booked p) (ledger : Ledger p q)
    (older : call < p.brk) (accounted : Accounted p call origin) : Accounted q call origin := by
  cases ledger with
  | quiet quiet => exact accounted.calls quiet.calls (quiet.sends.noReply call)
  | @answered key entry answered =>
      obtain ⟨sent, more, grown, cause, ok, dest, none⟩ := answered.sends
      have one : q.sent = p.sent ++ [] ++ sent :: more := by simpa using grown
      have replies := repliesTo_one one cause none call
      by_cases same : entry.addr = call
      · right
        have empty := booked.unanswered key entry answered.found
        rw [same] at empty
        have from' : entry.origin = origin := by
          rcases accounted with ⟨⟨other, old, there, addr, from'⟩, _⟩ | ⟨gone, _⟩
          · have here := booked.distinct key other entry old answered.found there
              (same.trans addr.symm)
            have stored := answered.found
            rw [here, there] at stored
            rw [← Option.some.inj stored]
            exact from'
          · exact absurd same (gone key entry answered.found)
        refine ⟨?_, sent, ?_, ok, dest.trans from'⟩
        · intro other found there addr
          have calls := answered.calls other
          split at calls
          · simp [there] at calls
          · rename_i different
            obtain ⟨old, before, oldAddr, _⟩ := entry_of_tag calls there
            exact different (booked.distinct other key old entry before answered.found
              (oldAddr.trans (addr.trans same.symm)))
        · rw [replies, empty, if_pos same]
          rfl
      · rw [if_neg same, List.append_nil] at replies
        refine accounted.keep ?_ ?_ replies
        · intro other old there addr
          have calls := answered.calls other
          split at calls
          · rename_i here
            rw [here, answered.found] at there
            cases there
            exact absurd addr same
          · obtain ⟨entry, found, newAddr, identity, isLocal⟩ := entry_of_tag calls.symm there
            exact ⟨entry, found, newAddr.trans addr, origin_of_tag identity.symm isLocal.symm⟩
        · intro other found there addr
          have calls := answered.calls other
          split at calls
          · simp [there] at calls
          · obtain ⟨old, before, oldAddr, _⟩ := entry_of_tag calls there
            exact ⟨other, old, before, oldAddr.trans addr⟩
  | @enqueued fresh addr _ brk enqueued =>
      refine accounted.keep ?_ ?_ (enqueued.sends.noReply call)
      · intro key old there same
        have calls := enqueued.calls key
        split at calls
        · rename_i here
          exact absurd (here ▸ ZHash.mem_of_lookup there) enqueued.fresh
        · obtain ⟨entry, found, newAddr, identity, isLocal⟩ := entry_of_tag calls.symm there
          exact ⟨entry, found, newAddr.trans same, origin_of_tag identity.symm isLocal.symm⟩
      · intro key entry found same
        have calls := enqueued.calls key
        split at calls
        · rw [found] at calls
          have newAddr : entry.addr = fresh.addr := congrArg Prod.fst (Option.some.inj calls)
          rw [same, addr] at newAddr
          exact absurd newAddr (Nat.ne_of_lt older)
        · obtain ⟨old, there, oldAddr, _⟩ := entry_of_tag calls found
          exact ⟨key, old, there, oldAddr.trans same⟩
  | @refused fresh addr brk refused =>
      obtain ⟨before, sent, reply, grown, none, cause, same, _, _⟩ := refused.sends
      refine accounted.calls refused.calls ?_
      rw [repliesTo_one grown cause (by simpa using none), if_neg, List.append_nil]
      rw [same, addr]
      exact Nat.ne_of_gt older
  | stray calls sends brk =>
      refine accounted.calls calls (repliesTo_others (sends.mono fun sent own other answers => ?_))
      rw [own other answers]
      exact Nat.ne_of_gt older

theorem booked_new : Booked proxyNew where
  named _ _ found := by cases found
  below _ _ found := by cases found
  distinct _ _ _ _ found := by cases found
  unanswered _ _ found := by cases found
  known _ member := by cases member

theorem booked_reaches (reached : Reaches (fabric conf) (AnswersReachable conf) p) : Booked p := by
  refine fabric_invariant Booked reached booked_new ?_
  intro env event state next allowed move registry booked
  exact booked.step (step_ledger registry booked allowed move)

theorem Ledger.brk_le (ledger : Ledger p q) : p.brk ≤ q.brk := by
  cases ledger with
  | quiet quiet => exact quiet.brk
  | answered answered => exact answered.brk
  | enqueued _ _ brk => exact Nat.le_of_lt brk
  | refused _ brk => exact Nat.le_of_lt brk
  | stray _ _ brk => exact Nat.le_of_lt brk

theorem Accounted.run {call : Addr} {origin : Dest}
    (reached : Reaches (fabric conf) (AnswersReachable conf) p)
    (run : Run (fabric conf) (AnswersReachable conf) p q) (older : call < p.brk)
    (accounted : Accounted p call origin) : Accounted q call origin := by
  have whole : Reaches (fabric conf) (AnswersReachable conf) q ∧ call < q.brk ∧
      Accounted q call origin := by
    induction run with
    | refl => exact ⟨reached, older, accounted⟩
    | @snoc _ _ _ _ allowed move ih =>
        obtain ⟨there, older', accounted'⟩ := ih
        have booked := booked_reaches there
        have ledger := step_ledger (registry_reaches there) booked allowed move
        exact ⟨there.extend (.single allowed move), Nat.lt_of_lt_of_le older' ledger.brk_le,
          accounted'.step booked ledger older'⟩
  exact whole.2.2

theorem accounted_called (booked : Booked p) (addr : message.addr = p.brk)
    (called : Enqueued message p q ∨ Refused message p q) :
    Accounted q message.addr message.origin := by
  rcases called with enqueued | refused
  · left
    constructor
    · have calls := enqueued.calls message.actionid
      rw [if_pos rfl] at calls
      obtain ⟨entry, found, tags⟩ := Option.map_eq_some_iff.mp calls
      simp only [Message.tag, Prod.mk.injEq] at tags
      exact ⟨_, entry, found, tags.1, origin_congr tags.2.1 tags.2.2⟩
    · rw [enqueued.sends.noReply, addr]
      exact booked.unborn
  · obtain ⟨before, sent, reply, grown, none, cause, same, ok, dest⟩ := refused.sends
    right
    constructor
    · intro key entry found newAddr
      obtain ⟨old, there, oldAddr, _⟩ := entry_of_tag (refused.calls key) found
      have below := booked.below key old there
      rw [oldAddr, newAddr, addr] at below
      exact Nat.lt_irrefl _ below
    · refine ⟨sent, ?_, ok, dest⟩
      rw [repliesTo_one grown cause (by simpa using none), if_pos same, addr, booked.unborn]
      rfl

/-! The frame of a local origin. -/

theorem Event.origin_eq (read : event.message env q = some message)
    (known : KnownOrigin p message) : event.origin = some message.origin := by
  cases event with
  | localMsg zmsg answer =>
      obtain ⟨frame, payload, _, _, _, rfl, rfl⟩ := messageFromzmq_some (toOption_join read)
      have five : frame.data.length = 5 := by
        have length : (strhex frame.data).length = 10 := known
        rw [strhex_length] at length
        omega
      have scanned := identityFrame_whole five
      simp [Event.origin, Message.origin, messageNew, frameIdentity, scanned]
  | globalMsg zmsg answer =>
      obtain ⟨frame, payload, _, _, _, rfl, rfl⟩ := messageFromzmq_some (toOption_join read)
      rfl
  | procman => cases read
  | queueItem => cases read
  | fabItem => cases read
  | beacon => cases read

/-- An answer goes to the peer that a message was read from just when its frame has
five bytes, or it is a fabric in the list. -/
theorem route_eq_origin (read : event.message env q = some message) :
    p.route message.identity = event.origin ↔ KnownOrigin p message := by
  constructor
  · intro same
    cases event with
    | localMsg zmsg answer =>
        obtain ⟨frame, payload, _, _, _, rfl, rfl⟩ := messageFromzmq_some (toOption_join read)
        have five : frame.data.length = 5 := route_strhex.mp same
        show (strhex frame.data).length = 10
        rw [strhex_length, five]
    | globalMsg zmsg answer =>
        obtain ⟨frame, payload, _, _, _, rfl, rfl⟩ := messageFromzmq_some (toOption_join read)
        exact route_peer.mp same
    | procman => cases read
    | queueItem => cases read
    | fabItem => cases read
    | beacon => cases read
  · intro known
    rw [route_origin known, Event.origin_eq read known]

/-- Reply conservation: in a run without collisions of queued `actionid`s, in
which fabrics answer no fabrics and are there when they are answered, every
well-formed call is, from its handler on, queued and unanswered or gone and
answered once, to where it came from. -/
theorem reply_conservation {call : Message}
    (reached : Reaches (fabric conf) (AnswersReachable conf) p)
    (allowed : AnswersReachable conf p (env, event)) (read : event.message env p = some message)
    (isCall : message.command = "call") (parsed : readCall message = .ok call)
    (shaped : call.wellFormedCall = true) (run : p.step conf env event = .ok q)
    (after : Run (fabric conf) (AnswersReachable conf) q r) :
    ∃ origin, event.origin = some origin ∧ Accounted r message.addr origin := by
  obtain ⟨addr, known, brk, called⟩ := call_ledger allowed read isCall parsed shaped run
  refine ⟨message.origin, Event.origin_eq read known, ?_⟩
  exact Accounted.run (reached.extend (.single allowed run)) after (addr ▸ brk)
    (accounted_called (booked_reaches reached) addr called)

instance (p : Proxy) (message : Message) : Decidable (KnownOrigin p message) :=
  inferInstanceAs (Decidable (if message.isLocal then message.identity.length = 10
    else 10 < message.identity.length ∧ message.identity ∈ p.fabList))

theorem answersReachable_fresh (sends : ∀ n, env.zmsgSend n = true)
    (messages : ∀ key, event ≠ .queueItem key)
    (read : ∀ message ∈ event.message env p,
      KnownOrigin p message ∧ message.actionid ∉ p.queue) :
    AnswersReachable conf p (env, event) where
  sends := sends
  origin message _ here _ _ _ := (read message here).1
  fresh message _ here _ _ _ queued := absurd queued (read message here).2
  answer message _ here _ found := absurd (ZHash.mem_of_lookup found) (read message here).2
  timeout key _ same := absurd same (messages key)

theorem reply_conservation_queued :
    let p := proxyNew.after plainConf early
      (.localMsg (introduceOf worker "mod" 77 [("f", 2)]) "yes")
    let event := Event.localMsg (callOf caller "mod" "f" 1 "call-1") ""
    let q := p.after plainConf early event
    ∃ message origin, event.message early p = some message ∧ "call-1" ∈ q.queue ∧
      event.origin = some origin ∧ Accounted q message.addr origin := by
  intro p event q
  have first : AnswersReachable plainConf proxyNew
      (early, .localMsg (introduceOf worker "mod" 77 [("f", 2)]) "yes") :=
    answersReachable_fresh (fun _ => rfl) (by simp) (by decide)
  have second : AnswersReachable plainConf p (early, event) :=
    answersReachable_fresh (fun _ => rfl) (by simp [event]) (by decide)
  have reached : Reaches (fabric plainConf) (AnswersReachable plainConf) p :=
    (Reaches.initial rfl).extend (.single first (step_after (by decide)))
  obtain ⟨origin, came, accounted⟩ := reply_conservation reached second rfl (by decide) rfl
    (by decide) (step_after (by decide)) (.refl q)
  exact ⟨_, origin, rfl, by decide, came, accounted⟩

def collision : List (Env × Event) := [
  (early, .localMsg (introduceOf worker "mod" 77 [("f", 2)]) "yes"),
  (early, .localMsg (callOf caller "mod" "f" 1 "call-1") "")]

theorem reply_lost :
    ¬ ∀ conf env event p q r message call, Reaches (fabric conf) Delivers p →
      Delivers p (env, event) → event.message env p = some message → message.command = "call" →
      readCall message = .ok call → call.wellFormedCall = true → p.step conf env event = .ok q →
      Run (fabric conf) Delivers q r →
      ∃ origin, event.origin = some origin ∧ Accounted r message.addr origin := by
  intro always
  have delivers : ∀ label ∈ collision, ∀ state, Delivers state label := by
    intro label member state
    simp only [collision, List.mem_cons, List.not_mem_nil, or_false] at member
    rcases member with rfl | rfl
    · refine ⟨fun _ => rfl, fun message _ read _ _ _ => ?_⟩
      cases read
      exact (by decide : (strhex worker).length = 10)
    · refine ⟨fun _ => rfl, fun message _ read _ _ _ => ?_⟩
      cases read
      exact (by decide : (strhex caller).length = 10)
  have reached : Reaches (fabric plainConf) Delivers (fabricAfter plainConf collision) :=
    fabricAfter_reaches delivers (by decide)
  let again := Event.localMsg (callOf caller "mod" "f" 1 "call-1") ""
  let after := (fabricAfter plainConf collision).after plainConf early again
  have second : Delivers (fabricAfter plainConf collision) (early, again) :=
    delivers _ (by simp [collision, again]) _
  obtain ⟨origin, _, accounted⟩ := always plainConf early again _ after after _ _ reached second
    rfl (by decide) rfl (by decide) (step_after (by decide)) (.refl after)
  have unqueued : ∀ key ∈ after.queue.keys, ∀ entry ∈ after.queue.lookup key,
      entry.addr ≠ (fabricAfter plainConf collision).brk := by decide
  have unanswered : (after.repliesTo (fabricAfter plainConf collision).brk).length = 0 := by decide
  rcases accounted with ⟨⟨key, entry, found, same, _⟩, _⟩ | ⟨_, sent, replied, _⟩
  · exact unqueued key (AList.mem_keys.mpr (ZHash.mem_of_lookup found)) entry found same
  · have one := congrArg List.length replied
    exact absurd (unanswered.symm.trans one) (by simp)

end

end ModBus
