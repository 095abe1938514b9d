import ModBus.Occupancy

/-! A call is sent to a worker at most once: what is routed is never sent again,
and what leaves the queue never comes back. -/

namespace ModBus

open Libc Czmq Transition

def Proxy.dispatches (p : Proxy) (call : Addr) : List Sent :=
  p.sent.filter fun sent => decide (sent.cause.dispatched.map Message.addr = some call)

structure OnceEach (p : Proxy) : Prop where
  once : ∀ call, (p.dispatches call).length ≤ 1
  waiting : ∀ key call, p.queue.lookup key = some call → call.routedVia = none →
    p.dispatches call.addr = []
  unborn : ∀ call, p.brk ≤ call → p.dispatches call = []
  below : ∀ key call, p.queue.lookup key = some call → call.addr < p.brk
  distinct : ∀ left right first second, p.queue.lookup left = some first →
    p.queue.lookup right = some second → first.addr = second.addr → left = right

inductive Dispatches (message placed : Message) (p q : Proxy) : Prop
  | nothing : q.sent = p.sent → Dispatches message placed p q
  | message {sent} : message.routedVia = none → placed.routedVia ≠ none →
      sent.cause.dispatched.map Message.addr = some message.addr → q.sent = p.sent ++ [sent] →
      Dispatches message placed p q

section

variable {conf : Config} {env : Env} {event : Event} {p q r : Proxy} {message placed : Message}
  {call : Addr}

theorem dispatches_append {more : List Sent} (grown : q.sent = p.sent ++ more) (call : Addr) :
    q.dispatches call = p.dispatches call ++ more.filter fun sent =>
      decide (sent.cause.dispatched.map Message.addr = some call) := by
  rw [Proxy.dispatches, grown, List.filter_append]
  rfl

theorem dispatches_others {more : List Sent} (grown : q.sent = p.sent ++ more)
    (others : ∀ sent ∈ more, sent.cause.dispatched.map Message.addr ≠ some call) :
    q.dispatches call = p.dispatches call := by
  rw [dispatches_append grown, List.filter_eq_nil_iff.mpr, List.append_nil]
  intro sent member
  simpa using others sent member

theorem Sends.dispatches (sends : Sends (fun sent => sent.cause.dispatched = none) p q)
    (call : Addr) : q.dispatches call = p.dispatches call := by
  obtain ⟨more, grown, others⟩ := sends
  refine dispatches_others grown fun sent member => ?_
  simp [others sent member]

theorem PlaceOutcome.dispatches {rc : Int} (outcome : PlaceOutcome env message p rc placed q) :
    Dispatches message placed p q := by
  have addr : placed.addr = message.addr := by rw [outcome.carried.same]
  have given : ∀ cause payload via, cause.dispatched = some placed → message.routedVia = none →
      placed.routedVia = some via → q.sent = (sendMessage env cause payload via p).2.sent →
      Dispatches message placed p q := by
    intro cause payload via dispatched unrouted routed sent
    rcases sendMessage_cases env cause payload via p with ⟨_, same⟩ | ⟨dest, _, same⟩
    · rw [same] at sent
      exact .nothing sent
    · rw [same] at sent
      exact .message unrouted (by simp [routed]) (by simp [dispatched, addr]) sent
  cases outcome with
  | routed => exact .nothing rfl
  | rejected => exact .nothing rfl
  | waiting _ _ _ _ _ _ sent => exact .nothing sent
  | toModule on _ routed _ _ _ _ _ sent => exact given _ _ _ rfl on.unrouted routed sent
  | toFabric on _ routed _ _ _ _ sent => exact given _ _ _ rfl on.unrouted routed sent

theorem OnceEach.frame (once : OnceEach p)
    (queue : ∀ key call, q.queue.lookup key = some call → p.queue.lookup key = some call)
    (sends : Sends (fun sent => sent.cause.dispatched = none) p q) (brk : p.brk ≤ q.brk) :
    OnceEach q where
  once call := by
    rw [sends.dispatches]
    exact once.once call
  waiting key call found unrouted := by
    rw [sends.dispatches]
    exact once.waiting key call (queue key call found) unrouted
  unborn call high := by
    rw [sends.dispatches]
    exact once.unborn call (Nat.le_trans brk high)
  below key call found := Nat.lt_of_lt_of_le (once.below key call (queue key call found)) brk
  distinct left right first second here there :=
    once.distinct left right first second (queue left first here) (queue right second there)

theorem Dispatches.counts (dispatches : Dispatches message placed p q)
    (once : ∀ call, (p.dispatches call).length ≤ 1)
    (unsent : message.routedVia = none → p.dispatches message.addr = []) :
    (∀ call, (q.dispatches call).length ≤ 1) ∧
      (∀ call, call ≠ message.addr → q.dispatches call = p.dispatches call) ∧
      (placed.routedVia = none → q.dispatches message.addr = p.dispatches message.addr) := by
  cases dispatches with
  | nothing sent =>
      have same : ∀ call, q.dispatches call = p.dispatches call := by
        intro call
        rw [Proxy.dispatches, sent]
        rfl
      exact ⟨fun call => by rw [same]; exact once call, fun call _ => same call, fun _ => same _⟩
  | @message sent unrouted routed addr grown =>
      have others : ∀ call, call ≠ message.addr → q.dispatches call = p.dispatches call := by
        intro call other
        refine dispatches_others grown fun sent' member => ?_
        rw [List.mem_singleton.mp member, addr]
        exact fun same => other (Option.some.inj same).symm
      refine ⟨fun call => ?_, others, fun waits => absurd waits routed⟩
      by_cases here : call = message.addr
      · subst here
        rw [dispatches_append grown, unsent unrouted, List.nil_append]
        exact List.length_filter_le _ _
      · rw [others call here]
        exact once call

theorem OnceEach.placeQueued {key : String} {rc : Int} (once : OnceEach p)
    (run : placeQueued env key p = .ok (rc, q)) : OnceEach q := by
  unfold ModBus.placeQueued at run
  split at run
  · cases run
    exact once
  · rename_i message queued
    split at run
    · cases run
    · rename_i code placed middle placement
      cases run
      have outcome := placeCall_outcome placement
      obtain ⟨calm, queue⟩ := outcome.calm
      have addr : placed.addr = message.addr := by rw [outcome.carried.same]
      obtain ⟨counts, others, stays⟩ := outcome.dispatches.counts once.once
        (once.waiting key message queued)
      have entries : ∀ other entry,
          (ZHash.update middle.queue key placed).lookup other = some entry →
          (other = key ∧ entry = placed) ∨ other ≠ key ∧ p.queue.lookup other = some entry := by
        intro other entry found
        rw [ZHash.lookup_update (by rw [queue]; exact ZHash.mem_of_lookup queued), queue] at found
        split at found
        · rename_i here
          cases found
          exact Or.inl ⟨here, rfl⟩
        · rename_i elsewhere
          exact Or.inr ⟨elsewhere, found⟩
      have born : ∀ other entry, (ZHash.update middle.queue key placed).lookup other = some entry →
          ∃ old, p.queue.lookup other = some old ∧ old.addr = entry.addr := by
        intro other entry found
        rcases entries other entry found with ⟨rfl, rfl⟩ | ⟨_, old⟩
        · exact ⟨message, queued, addr.symm⟩
        · exact ⟨entry, old, rfl⟩
      constructor
      · exact counts
      · intro other entry found unrouted
        rcases entries other entry found with ⟨rfl, rfl⟩ | ⟨elsewhere, old⟩
        · have before : message.routedVia = none := by
            cases via : message.routedVia with
            | none => rfl
            | some name =>
                rw [outcome.carried.routed name via, via] at unrouted
                cases unrouted
          rw [addr]
          exact (stays unrouted).trans (once.waiting _ message queued before)
        · have different : entry.addr ≠ message.addr := fun same =>
            elsewhere (once.distinct other key entry message old queued same)
          exact (others _ different).trans (once.waiting other entry old unrouted)
      · intro call high
        have high' : p.brk ≤ call := calm.brk ▸ high
        have low := once.below key message queued
        exact (others call (Nat.ne_of_gt (Nat.lt_of_lt_of_le low high'))).trans
          (once.unborn call high')
      · intro other entry found
        obtain ⟨old, before, same⟩ := born other entry found
        rw [← same]
        exact calm.brk ▸ once.below other old before
      · intro left right first second here there same
        obtain ⟨old, before, sameFirst⟩ := born left first here
        obtain ⟨old', before', sameSecond⟩ := born right second there
        exact once.distinct left right old old' before before'
          (sameFirst.trans (same.trans sameSecond.symm))

theorem OnceEach.placeAll (once : OnceEach p) (run : placeAll env p = .ok q) : OnceEach q :=
  ZHash.foreach_invariant OnceEach (fun _ _ _ _ _ call before => before.placeQueued call) run once

theorem OnceEach.putBack {identity : String} (once : OnceEach p)
    (run : putBack env identity p = .ok q) : OnceEach q := by
  unfold ModBus.putBack at run
  split at run
  · cases run
    exact once
  · split at run
    · cases run
      exact once.frame (fun _ _ => id) (.of_eq rfl) (Nat.le_refl _)
    · rename_i mod _ _
      have idle : OnceEach (p.setModule identity { mod with state := .idle }) :=
        once.frame (fun _ _ => id) (.of_eq rfl) (Nat.le_refl _)
      exact idle.placeAll run

theorem OnceEach.arrived (once : OnceEach p) (message : Message) : OnceEach (p.arrived message) :=
  once.frame (fun key call found => by simpa using found) (.of_eq (by simp)) (by simp)

theorem answer_undispatched (sent : Sent) (call : Message) (answers : sent.cause.answers = some call) :
    sent.cause.dispatched = none := by
  cases cause : sent.cause <;> simp [cause, Cause.answers, Cause.dispatched] at answers ⊢

theorem OnceEach.deleteCall (once : OnceEach p) (key : String) : OnceEach (p.deleteCall key) :=
  once.frame (fun _ _ found => (ZHash.lookup_erase_some.mp found).2) (.of_eq rfl) (Nat.le_refl _)

theorem OnceEach.sendMessage {cause : Cause} (once : OnceEach p)
    (plain : cause.dispatched = none) (payload : Object) (identity : String) :
    OnceEach (sendMessage env cause payload identity p).2 :=
  once.frame (fun _ _ found => by simpa using found) (.sendMessage identity p fun _ _ _ => plain)
    (by simp)

theorem OnceEach.answerCaller (once : OnceEach p) (stored : Message) (payload : Object) :
    OnceEach (answerCaller env stored payload p) :=
  (once.sendMessage rfl payload stored.identity).deleteCall stored.actionid

theorem OnceEach.answerFabric (once : OnceEach p) (stored : Message) (payload : Object) :
    OnceEach (answerFabric env stored payload p) := by
  unfold ModBus.answerFabric
  split
  · exact (once.sendMessage rfl payload _).deleteCall stored.actionid
  · exact once.deleteCall stored.actionid

theorem OnceEach.extends (once : OnceEach p) (extended : Extends p q) : OnceEach q :=
  once.frame (fun key call found => by rwa [extended.same] at found)
    (.of_eq (by rw [extended.same])) extended.brk

theorem OnceEach.returned {stored : Message} {middle : Proxy} (once : OnceEach p)
    (returned : Returned env message stored p middle) : OnceEach middle := by
  cases returned with
  | caller own => exact once.answerCaller _ _
  | fabric foreign near => exact once.answerFabric _ _
  | nowhere foreign far => exact once.deleteCall _

theorem OnceEach.processResult (registry : Registry p) (once : OnceEach p)
    (run : processResult env message p = .ok q) : OnceEach q := by
  rcases processResult_ok run with ⟨_, brought⟩ |
    ⟨stored, middle, _, returned, ⟨_, run⟩ | ⟨_, rfl⟩⟩
  · exact once.extends (processIfaceList_extends registry brought)
  · exact (once.returned returned).putBack run
  · exact once.returned returned

theorem OnceEach.processException (once : OnceEach p)
    (run : processException env message p = .ok q) : OnceEach q := by
  rcases processException_ok run with ⟨rfl, _⟩ | ⟨stored, _, ⟨_, _, _, rc, placement⟩ |
    ⟨middle, returned, ⟨_, run, _⟩ | ⟨_, rfl, _⟩⟩⟩
  · exact once
  · exact once.placeQueued placement
  · exact (once.returned returned).putBack run
  · exact once.returned returned

theorem OnceEach.processCall (once : OnceEach p) (born : message.addr < p.brk)
    (unsent : p.dispatches message.addr = [])
    (unqueued : ∀ key call, p.queue.lookup key = some call → call.addr ≠ message.addr)
    (run : processCall env message p = .ok q) : OnceEach q := by
  obtain ⟨call, read, ⟨_, rfl⟩ | ⟨_, rc, placed, middle, placement, ends⟩⟩ := processCall_ok run
  · exact once.sendMessage rfl _ _
  · have callAddr : call.addr = message.addr := by rw [readCall_ok read]
    have outcome := placeCall_outcome placement
    obtain ⟨calm, queue⟩ := outcome.calm
    have addr : placed.addr = message.addr := by rw [outcome.carried.same, callAddr]
    obtain ⟨counts, others, stays⟩ := outcome.dispatches.counts once.once
      fun _ => callAddr ▸ unsent
    rw [callAddr] at others stays
    have placedOnce : OnceEach middle := by
      refine ⟨counts, ?_, ?_, ?_, ?_⟩
      · intro key entry found unrouted
        rw [queue] at found
        rw [others _ (unqueued key entry found)]
        exact once.waiting key entry found unrouted
      · intro other high
        rw [calm.brk] at high
        rw [others other (Nat.ne_of_gt (Nat.lt_of_lt_of_le born high))]
        exact once.unborn other high
      · intro key entry found
        rw [queue] at found
        rw [calm.brk]
        exact once.below key entry found
      · rw [queue]
        exact once.distinct
    rcases ends with ⟨_, rfl⟩ | ⟨_, _, rfl⟩
    · exact placedOnce.sendMessage rfl _ _
    · have entries : ∀ key entry, (enqueue placed middle).queue.lookup key = some entry →
          entry = placed ∧ key = placed.actionid ∨ p.queue.lookup key = some entry := by
        intro key entry found
        simp only [enqueue, ZHash.lookup_insertNew, queue] at found
        split at found
        · rename_i here
          cases found
          exact Or.inl ⟨rfl, here.1⟩
        · exact Or.inr found
      refine ⟨counts, ?_, placedOnce.unborn, ?_, ?_⟩
      · intro key entry found unrouted
        rcases entries key entry found with ⟨rfl, _⟩ | old
        · rw [addr]
          exact (stays unrouted).trans unsent
        · exact placedOnce.waiting key entry (queue ▸ old) unrouted
      · intro key entry found
        rcases entries key entry found with ⟨rfl, _⟩ | old
        · rw [addr]
          exact calm.brk ▸ born
        · exact placedOnce.below key entry (queue ▸ old)
      · intro left right first second here there same
        rcases entries left first here with ⟨rfl, atLeft⟩ | oldLeft
        · rcases entries right second there with ⟨rfl, atRight⟩ | oldRight
          · rw [atLeft, atRight]
          · exact absurd (same.symm.trans addr) (unqueued right second oldRight)
        · rcases entries right second there with ⟨rfl, _⟩ | oldRight
          · exact absurd (same.trans addr) (unqueued left first oldLeft)
          · exact once.distinct left right first second oldLeft oldRight same

theorem OnceEach.processIntroduce {answer : String} (registry : Registry p) (once : OnceEach p)
    (run : processIntroduce conf env message answer p = .ok q) : OnceEach q := by
  rcases processIntroduce_ok run with asked | ⟨_, _, _, _, _, middle, introduces⟩
  · rw [asked]
    exact once.frame (fun _ _ => id) (.of_eq rfl) (Nat.le_refl _)
  · have extended := introduces.extends registry
    rw [introduces.registers]
    refine OnceEach.sendMessage ?_ rfl _ _
    refine once.frame (fun key call found => ?_) (.of_eq ?_) ?_
    · rw [registerModule, zstrSend_queue, extended.same] at found
      exact found
    · rw [registerModule, zstrSend_sent, extended.same]
      rfl
    · exact Nat.le_trans (Nat.le_succ _) extended.brk

theorem OnceEach.commanded {answer : String} (registry : Registry p) (once : OnceEach p)
    (born : message.addr < p.brk) (unsent : p.dispatches message.addr = [])
    (unqueued : ∀ key call, p.queue.lookup key = some call → call.addr ≠ message.addr)
    (commanded : Commanded conf env message answer p q) : OnceEach q := by
  cases commanded with
  | ignored _ same => exact same ▸ once
  | request _ run =>
      have same := processRequest_frame run
      refine once.frame (fun key call found => ?_)
        (processRequest_sends (fun _ plain _ _ => plain) run) ?_
      · rwa [same] at found
      · rw [same]
  | result _ run => exact once.processResult registry run
  | call _ run => exact once.processCall born unsent unqueued run
  | exception _ run => exact once.processException run
  | introduce _ run => exact once.processIntroduce registry run

theorem OnceEach.step (registry : Registry p) (once : OnceEach p)
    (run : p.step conf env event = .ok q) : OnceEach q := by
  cases step_handled run with
  | unreadable _ same => exact same ▸ once
  | @command message read commanded =>
      have addr := (Event.message_arrives read).addr
      refine (once.arrived message).commanded (registry.arrived message) ?_ ?_ ?_ commanded
      · rw [addr, arrived_brk]
        exact Nat.lt_succ_self _
      · rw [addr, Proxy.dispatches, arrived_sent]
        exact once.unborn p.brk (Nat.le_refl _)
      · intro key call found
        rw [arrived_queue] at found
        rw [addr]
        exact Nat.ne_of_lt (once.below key call found)
  | procman _ run =>
      rcases sProcmanEvent_ok run with same | ⟨key, mod, _, _, notice⟩
      · exact same ▸ once
      · rw [noticed_same notice]
        exact once.frame (fun _ _ => id) (.of_eq rfl) (Nat.le_refl _)
  | @queueItem key _ run =>
      rcases processQueueItem_ok run with ⟨same, _⟩ | ⟨call, msg, _, _, same⟩
      · exact same ▸ once
      · rw [same]
        refine (OnceEach.sendMessage ?_ rfl _ _).deleteCall key
        exact once.frame (fun _ _ found => by rwa [unstuck_queue] at found)
          (.of_eq (unstuck_sent _ _ _ _)) (by rw [unstuck_brk])
  | @fabItem key _ run =>
      rcases getIfaceListEventItem_ok run with same | ⟨fab, _, ⟨_, same⟩ | ⟨_, same⟩⟩
      · exact same ▸ once
      · rw [same]
        exact OnceEach.frame (once.sendMessage rfl _ _) (fun _ _ => id) (.of_eq rfl)
          (Nat.le_refl _)
      · rw [same]
        exact once.frame (fun _ _ => id) (.of_eq rfl) (Nat.le_refl _)
  | beacon _ run =>
      rcases sBeaconEvent_ok run with same | ⟨identity, _, _, same⟩
      · exact same ▸ once
      · rw [same]
        exact once.frame (fun _ _ => id) (.of_eq rfl) (Nat.le_succ _)

theorem onceEach_new : OnceEach proxyNew where
  once _ := Nat.zero_le _
  waiting _ _ found := by cases found
  unborn _ _ := rfl
  below _ _ found := by cases found
  distinct _ _ _ _ found := by cases found

def PassesOn (p : Proxy) (sent : Sent) : Prop :=
  ∀ call, sent.cause.dispatched = some call → call.addr = p.brk ∨
    ∃ key before, p.queue.lookup key = some before ∧ before.routedVia = none ∧
      before.addr = call.addr

theorem step_passesOn (registry : Registry p) (run : p.step conf env event = .ok q) :
    Sends (PassesOn p) p q := by
  refine step_sends ?_ ?_ registry ?_ ?_ run
  · intro sent plain _ _ call passed
    rw [plain] at passed
    cases passed
  · intro sent call answers _ other passed
    rw [answer_undispatched sent call answers] at passed
    cases passed
  · intro message middle key before rc placed after calm found outcome
    refine outcome.sends ?_
    intro iface via sent on _ _ dispatched _ _ call passed
    rw [dispatched] at passed
    cases passed
    obtain ⟨old, queued, carried⟩ := calm.queue key before found
    refine Or.inr ⟨key, old, by simpa using queued, ?_, ?_⟩
    · cases routed : old.routedVia with
      | none => rfl
      | some name =>
          have same := carried.routed name routed
          rw [← same, on.unrouted] at routed
          cases routed
    · rw [on.same, carried.same]
  · intro message call rc placed middle read _ parsed outcome
    refine outcome.sends ?_
    intro iface via sent on _ _ dispatched _ _ other passed
    rw [dispatched] at passed
    cases passed
    left
    rw [on.same, readCall_ok parsed]
    exact (Event.message_arrives read).addr

theorem onceEach_reaches (reached : Reaches (fabric conf) anything p) : OnceEach p :=
  fabric_invariant OnceEach reached onceEach_new
    fun _ _ _ _ _ move registry once => once.step registry move

/-- No call is ever sent to a worker twice, and no event sends one that is routed
already. -/
theorem dispatched_once (reached : Reaches (fabric conf) anything p) :
    (∀ call, (p.dispatches call).length ≤ 1) ∧
      ∀ env event q key call, p.step conf env event = .ok q →
        p.queue.lookup key = some call → call.routedVia ≠ none →
        q.dispatches call.addr = p.dispatches call.addr := by
  have once := onceEach_reaches reached
  refine ⟨once.once, fun env event q key call run found routed => ?_⟩
  obtain ⟨more, grown, passes⟩ := step_passesOn (registry_reaches reached) run
  refine dispatches_others grown fun sent member same => ?_
  obtain ⟨passed, dispatched, addr⟩ := Option.map_eq_some_iff.mp same
  rcases passes sent member passed dispatched with new | ⟨other, before, queued, unrouted, own⟩
  · have below := once.below key call found
    rw [← addr, new] at below
    exact Nat.lt_irrefl _ below
  · have here := once.distinct other key before call queued found (own.trans addr)
    rw [here, found] at queued
    cases queued
    exact routed unrouted

end

theorem dispatched_once_called :
    let introduced := proxyNew.after plainConf early
      (.localMsg (introduceOf worker "mod" 77 [("f", 1)]) "yes")
    let called := introduced.after plainConf early
      (.localMsg (callOf caller "mod" "f" 1 "call-1") "")
    (∀ call, (called.dispatches call).length ≤ 1) ∧
      ∀ env event q key call, called.step plainConf env event = .ok q →
        called.queue.lookup key = some call → call.routedVia ≠ none →
        q.dispatches call.addr = called.dispatches call.addr := by
  intro introduced called
  have introduces : anything proxyNew
      (early, Event.localMsg (introduceOf worker "mod" 77 [("f", 1)]) "yes") := trivial
  have calls : anything introduced
      (early, Event.localMsg (callOf caller "mod" "f" 1 "call-1") "") := trivial
  have reached : Reaches (fabric plainConf) anything introduced :=
    (Reaches.initial rfl).extend (.single introduces (step_after (by decide)))
  exact dispatched_once (reached.extend (.single calls (step_after (by decide))))

end ModBus
