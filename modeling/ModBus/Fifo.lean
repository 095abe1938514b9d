import ModBus.AtMostOnce
import ModBus.FailedLookup
import ModBus.Replies
import ModBus.Wakeup

/-! The order of service. Calls wait in a hash table, and who of them is sent to
a worker first depends on the order of its buckets. -/

namespace ModBus

open Libc Czmq Transition

def servedBy (sends : List Sent) : List Addr :=
  sends.filterMap fun sent => sent.cause.dispatched.map Message.addr

structure Rivals (p : Proxy) (firstKey secondKey : String) (first second : Message) : Prop where
  firstQueued : p.queue.lookup firstKey = some first
  secondQueued : p.queue.lookup secondKey = some second
  firstWaits : first.routedVia = none
  secondWaits : second.routedVia = none
  iface : first.iface = second.iface
  received : first.addr < second.addr

def Placeable (p : Proxy) (call : Message) : Prop :=
  (∃ iface head rest mod, call.iface = some iface ∧ (p.heap iface).locals = head :: rest ∧
    p.modules.lookup head.text = some mod ∧ mod.state = .idle) ∨
  call.HasFabric ∧ ∃ iface, call.iface = some iface ∧ (p.heap iface).locals = []

/-- Whoever leaves the queue leaves it after its rivals that were received
before: the walk for a module that answered visits those first and sends them
too, and a busy fabric names no waiting call that has any. -/
structure InTurn (conf : Config) (p : Proxy) (label : Env × Event) : Prop where
  introductions : LocalIntroductions conf p label
  walk : ∀ message stored mod, label.2.message label.1 p = some message →
    message.isLocal = true → message.command = "result" ∨ message.command = "exception" →
    p.queue.lookup message.actionid = some stored →
    p.modules.lookup message.identity = some mod → mod.needRestart = false →
    ∀ firstKey secondKey first second,
      Rivals (p.deleteCall message.actionid) firstKey secondKey first second →
      Leaves label.1 (p.deleteCall message.actionid) message.identity secondKey second →
        Leaves label.1 (p.deleteCall message.actionid) message.identity firstKey first ∧
          [firstKey, secondKey].Sublist
            (label.1.visit (p.deleteCall message.actionid).queue.keys)
  busy : ∀ message stored, label.2.message label.1 p = some message →
    message.isLocal = false → message.command = "exception" →
    p.queue.lookup message.actionid = some stored → stored.isLocal = true →
    messageGetExceptionCode message = .ok modulesBusy → Placeable p stored →
    ∀ firstKey first, ¬ Rivals p firstKey message.actionid first stored

def WaitsAt (p : Proxy) (call : Addr) : Prop :=
  ∃ key entry, p.queue.lookup key = some entry ∧ entry.addr = call ∧ entry.routedVia = none

def QueuedAt (p : Proxy) (call : Addr) : Prop :=
  ∃ key entry, p.queue.lookup key = some entry ∧ entry.addr = call

structure Untouched (fresh : Addr) (p q : Proxy) : Prop where
  queue : ∀ key call, q.queue.lookup key = some call →
    p.queue.lookup key = some call ∨ call.addr = fresh ∧ key ∉ p.queue
  sends : Sends (fun sent => ∀ call, sent.cause.dispatched = some call → call.addr = fresh) p q

structure Ordered (p q : Proxy) (firstKey secondKey : String) (first second : Message) : Prop where
  routes : ∀ call placed, q.queue.lookup firstKey = some call →
    q.queue.lookup secondKey = some placed → placed.routedVia ≠ none → call.routedVia ≠ none
  sends : ∃ more, q.sent = p.sent ++ more ∧
    ¬ [second.addr, first.addr].Sublist (servedBy more)

inductive AnswerTurn (env : Env) (message stored : Message) (p q : Proxy) : Prop
  | unheard : q = p → AnswerTurn env message stored p q
  | placed {rc} : message.isLocal = false → message.command = "exception" →
      stored.isLocal = true → messageGetExceptionCode message = .ok modulesBusy →
      placeQueued env message.actionid p = .ok (rc, q) → AnswerTurn env message stored p q
  | settled {middle : Proxy} :
      middle = { p with queue := p.queue.erase stored.actionid, sent := middle.sent } →
      Sends (fun sent => sent.cause.dispatched = none) p middle →
      (message.isLocal = true → putBack env message.identity middle = .ok q) →
      (message.isLocal = false → q = middle) → AnswerTurn env message stored p q

section

variable {conf : Config} {env : Env} {event : Event} {p q r : Proxy}
  {message placed stored first second : Message} {key firstKey secondKey : String}

theorem sublist_pair_antisymm {α : Type} {a b : α} {items : List α} (nodup : items.Nodup)
    (forth : [a, b].Sublist items) (back : [b, a].Sublist items) : False := by
  induction items with
  | nil => cases forth
  | cons item items ih =>
      obtain ⟨absent, rest⟩ := List.nodup_cons.mp nodup
      cases forth with
      | cons _ forth =>
          cases back with
          | cons _ back => exact ih rest forth back
          | cons_cons _ back => exact absurd (forth.subset (by simp)) absent
      | cons_cons _ forth =>
          cases back with
          | cons _ back => exact absurd (back.subset (by simp)) absent
          | cons_cons _ back => exact absurd (back.subset (by simp)) absent

theorem sublist_pair_append {α : Type} {a b : α} {items more : List α} (absent : b ∉ more)
    (pair : [a, b].Sublist (items ++ more)) : [a, b].Sublist items := by
  induction items with
  | nil => exact absurd (pair.subset (by simp)) absent
  | cons item items ih =>
      cases pair with
      | cons _ pair => exact (ih pair).cons _
      | cons_cons _ pair =>
          have either : b ∈ items ++ more := pair.subset (by simp)
          have member := (List.mem_append.mp either).resolve_right absent
          exact (List.singleton_sublist.mpr member).cons_cons _

theorem sublist_pair_after {α : Type} {a b : α} {items more : List α} (absent : a ∉ items)
    (pair : [a, b].Sublist (items ++ more)) : [a, b].Sublist more := by
  induction items with
  | nil => exact pair
  | cons item items ih =>
      cases pair with
      | cons _ pair => exact ih (fun member => absent (by simp [member])) pair
      | cons_cons _ pair => exact absurd (by simp) absent

theorem servedBy_append (sends more : List Sent) :
    servedBy (sends ++ more) = servedBy sends ++ servedBy more :=
  List.filterMap_append

theorem mem_servedBy {sends : List Sent} {call : Addr} :
    call ∈ servedBy sends ↔ ∃ sent ∈ sends, sent.cause.dispatched.map Message.addr = some call :=
  List.mem_filterMap

theorem Untouched.frame {fresh : Addr}
    (queue : ∀ key call, q.queue.lookup key = some call → p.queue.lookup key = some call)
    (sends : Sends (fun sent => sent.cause.dispatched = none) p q) : Untouched fresh p q := by
  refine ⟨fun key call found => Or.inl (queue key call found), sends.mono ?_⟩
  intro sent undispatched call passed
  rw [undispatched] at passed
  cases passed

theorem Untouched.arrived {fresh : Addr} (untouched : Untouched fresh (p.arrived message) q) :
    Untouched fresh p q where
  queue key call found := by
    simpa using untouched.queue key call found
  sends := untouched.sends.frame (arrived_sent message p).symm

theorem processCall_untouched (run : processCall env message p = .ok q) :
    Untouched message.addr p q := by
  have addressed : ∀ call rc placed middle, readCall message = .ok call →
      PlaceOutcome env call p rc placed middle → placed.addr = message.addr := by
    intro call rc placed middle parsed outcome
    rw [outcome.carried.same, readCall_ok parsed]
  constructor
  · intro key entry found
    obtain ⟨call, parsed, ⟨_, rfl⟩ | ⟨_, rc, placed, middle, placement, ends⟩⟩ :=
      processCall_ok run
    · left
      rwa [refuse, sendMessage_queue] at found
    · have outcome := placeCall_outcome placement
      have queue := outcome.calm.2
      have addr := addressed call rc placed middle parsed outcome
      rcases ends with ⟨_, rfl⟩ | ⟨_, _, rfl⟩
      · left
        rwa [refuse, sendMessage_queue, queue] at found
      · simp only [enqueue, ZHash.lookup_insertNew, queue] at found
        split at found
        · rename_i here
          cases found
          exact Or.inr ⟨addr, here.1 ▸ here.2⟩
        · exact Or.inl found
  · refine processCall_sends ?_ run ?_
    · intro sent call answers _ other passed
      rw [answer_undispatched sent call answers] at passed
      cases passed
    · intro call rc placed middle parsed outcome
      refine outcome.sends ?_
      intro iface via sent _ _ _ dispatched _ _ other passed
      rw [dispatched] at passed
      cases passed
      exact addressed call rc placed middle parsed outcome

theorem Returned.undispatched {middle : Proxy} (returned : Returned env message stored p middle) :
    Sends (fun sent => sent.cause.dispatched = none) p middle := by
  have reply : ∀ (payload : Object) (dest : String),
      Sends (fun sent => sent.cause.dispatched = none) p
        (sendMessage env (.reply stored) payload dest p).2 :=
    fun _ _ => Sends.sendMessage _ p fun _ _ _ => rfl
  cases returned with
  | caller own => exact (reply _ _).trans (.of_eq rfl)
  | fabric foreign near =>
      unfold answerFabric
      split
      · exact (reply _ _).trans (.of_eq rfl)
      · exact .of_eq rfl
  | nowhere foreign far => exact .of_eq rfl

theorem processResult_turn (queued : p.queue.lookup message.actionid = some stored)
    (run : processResult env message p = .ok q) : AnswerTurn env message stored p q := by
  rcases processResult_ok run with ⟨unqueued, _⟩ | ⟨other, middle, found, returned, ends⟩
  · rw [queued] at unqueued
    cases unqueued
  · cases queued.symm.trans found
    refine .settled returned.same returned.undispatched (fun near => ?_) fun far => ?_
    · simpa [near] using ends
    · simpa [far] using ends

theorem processException_turn (isException : message.command = "exception")
    (queued : p.queue.lookup message.actionid = some stored)
    (run : processException env message p = .ok q) : AnswerTurn env message stored p q := by
  rcases processException_ok run with ⟨same, _⟩ | ⟨other, found,
    ⟨far, own, busy, rc, placement⟩ | ⟨middle, returned, ⟨near, run, _⟩ | ⟨far, same, _⟩⟩⟩
  · exact .unheard same
  · cases queued.symm.trans found
    exact .placed far isException own busy placement
  · cases queued.symm.trans found
    exact .settled returned.same returned.undispatched (fun _ => run) (by simp [near])
  · cases queued.symm.trans found
    exact .settled returned.same returned.undispatched (by simp [far]) fun _ => same

theorem Untouched.same {bound : Addr} (queue : q.queue = p.queue) (sent : q.sent = p.sent) :
    Untouched bound p q :=
  .frame (fun _ _ found => queue ▸ found) (.of_eq sent)

theorem processIntroduce_untouched {answer : String} {bound : Addr} (registry : Registry p)
    (run : processIntroduce conf env message answer p = .ok q) : Untouched bound p q := by
  rcases processIntroduce_ok run with asked | ⟨_, _, _, _, _, middle, introduces⟩
  · rw [asked]
    exact .same rfl rfl
  · have extended := (introduces.extends registry).same
    refine .frame (fun key call found => ?_) ?_
    · rwa [introduces.registers, sendMessage_queue, registerModule, zstrSend_queue,
        extended] at found
    · rw [introduces.registers]
      refine Sends.frame (Sends.sendMessage _ _ fun _ _ _ => rfl) ?_
      rw [registerModule, zstrSend_sent, extended]
      rfl

theorem processQueueItem_untouched {key : String} {bound : Addr}
    (run : processQueueItem conf env key p = .ok q) : Untouched bound p q := by
  rcases processQueueItem_ok run with ⟨same, _⟩ | ⟨call, msg, _, _, same⟩
  · rw [same]
    exact .same rfl rfl
  · rw [same]
    refine .frame (fun other call found => ?_) ?_
    · have kept := (ZHash.lookup_erase_some.mp found).2
      rwa [sendMessage_queue, unstuck_queue] at kept
    · exact Sends.frame (Sends.sendMessage _ _ fun _ _ _ => rfl)
        (unstuck_sent conf env call p).symm

theorem step_turn (registry : Registry p) (run : p.step conf env event = .ok q) :
    Untouched p.brk p q ∨ ∃ message stored, event.message env p = some message ∧
      (message.command = "result" ∨ message.command = "exception") ∧
      p.queue.lookup message.actionid = some stored ∧
      AnswerTurn env message stored (p.arrived message) q := by
  cases step_handled run with
  | unreadable _ unchanged => exact Or.inl (unchanged ▸ .same rfl rfl)
  | @command message read commanded =>
      have ready := registry.arrived message
      cases commanded with
      | ignored _ unchanged =>
          exact Or.inl (unchanged ▸ .same (arrived_queue message p) (arrived_sent message p))
      | request _ requested =>
          refine Or.inl (Untouched.arrived (.frame (fun key call found => ?_)
            (processRequest_sends (fun _ plain _ _ => plain) requested)))
          rwa [processRequest_frame requested] at found
      | result isResult finished =>
          cases queued : p.queue.lookup message.actionid with
          | some stored =>
              exact Or.inr ⟨message, stored, read, Or.inl isResult, queued,
                processResult_turn (by rwa [arrived_queue]) finished⟩
          | none =>
              simp only [processResult, arrived_queue, queued] at finished
              have extended := (processIfaceList_extends ready finished).same
              refine Or.inl (.same ?_ ?_)
              · rw [extended]
                exact arrived_queue message p
              · rw [extended]
                exact arrived_sent message p
      | call _ called =>
          have untouched := (processCall_untouched called).arrived
          rw [(Event.message_arrives read).addr] at untouched
          exact Or.inl untouched
      | exception isException failed =>
          cases queued : p.queue.lookup message.actionid with
          | some stored =>
              exact Or.inr ⟨message, stored, read, Or.inr isException, queued,
                processException_turn isException (by rwa [arrived_queue]) failed⟩
          | none =>
              simp only [processException, arrived_queue, queued] at failed
              split at failed
              · cases failed
              · cases failed
                exact Or.inl (.same (arrived_queue message p) (arrived_sent message p))
      | introduce _ introduction =>
          exact Or.inl (processIntroduce_untouched ready introduction).arrived
  | procman _ notified =>
      left
      rcases sProcmanEvent_ok notified with result | ⟨key, mod, _, _, result⟩
      · exact result ▸ .same rfl rfl
      · rw [noticed_same result]
        exact .same rfl rfl
  | queueItem _ run => exact Or.inl (processQueueItem_untouched run)
  | @fabItem key _ run =>
      left
      rcases getIfaceListEventItem_ok run with same | ⟨fab, _, ⟨_, same⟩ | ⟨_, same⟩⟩
      · rw [same]
        exact .same rfl rfl
      · rw [same]
        refine .frame (fun other call found => ?_) (Sends.sendMessage _ p fun _ _ _ => rfl)
        rwa [sendMessage_queue] at found
      · rw [same]
        exact .same rfl rfl
  | beacon _ announced =>
      left
      rcases sBeaconEvent_ok announced with result | ⟨identity, _, _, result⟩
      · exact result ▸ .same rfl rfl
      · exact result ▸ .same rfl rfl

/-! A walk sends the waiting calls in the order of its visits. -/

theorem dispatches_eq_nil {call : Addr} : p.dispatches call = [] ↔ call ∉ servedBy p.sent := by
  rw [Proxy.dispatches, List.filter_eq_nil_iff, mem_servedBy]
  simp

theorem servedBy_undispatched {sends : List Sent}
    (undispatched : ∀ sent ∈ sends, sent.cause.dispatched = none) : servedBy sends = [] := by
  rw [servedBy, List.filterMap_eq_nil_iff]
  intro sent member
  rw [undispatched sent member, Option.map_none]

theorem placeQueued_served {rc : Int} (run : placeQueued env key p = .ok (rc, q)) :
    ∃ more, q.sent = p.sent ++ more ∧
      (servedBy more).Sublist ((p.queue.lookup key).map Message.addr).toList := by
  rcases placeQueued_ok run with ⟨_, _, rfl⟩ | ⟨call, placed, middle, queued, placement, same, _⟩
  · exact ⟨[], by simp, List.nil_sublist _⟩
  · rw [queued, same]
    cases (placeCall_outcome placement).dispatches with
    | nothing sent => exact ⟨[], by simpa using sent, List.nil_sublist _⟩
    | @message sent _ _ addr grown =>
        refine ⟨[sent], grown, ?_⟩
        simp [servedBy, addr]

theorem walk_served {keys : List String} (walk : ZHash.foreach (placeQueued env) keys p = .ok q) :
    ∃ more, q.sent = p.sent ++ more ∧ (servedBy more).Sublist
      (keys.filterMap fun key => (p.queue.lookup key).map Message.addr) := by
  induction keys generalizing p with
  | nil =>
      cases walk
      exact ⟨[], by simp, List.nil_sublist _⟩
  | cons key keys ih =>
      simp only [ZHash.foreach] at walk
      split at walk
      · cases walk
      · rename_i rc next visit
        obtain ⟨more, sent, here⟩ := placeQueued_served visit
        have head : (key :: keys).filterMap (fun key => (p.queue.lookup key).map Message.addr) =
            ((p.queue.lookup key).map Message.addr).toList ++
              keys.filterMap fun key => (p.queue.lookup key).map Message.addr := by
          cases found : (p.queue.lookup key).map Message.addr with
          | none => simp [found]
          | some addr => simp [found]
        rw [head]
        split at walk
        · obtain ⟨later, sent', rest⟩ := ih walk
          have kept : ∀ other, (next.queue.lookup other).map Message.addr =
              (p.queue.lookup other).map Message.addr := by
            intro other
            have same := congrArg (Option.map Prod.fst) ((placeQueued_quiet visit).calls other)
            simpa [Message.tag, Function.comp_def] using same
          simp only [kept] at rest
          refine ⟨more ++ later, by rw [sent', sent, List.append_assoc], ?_⟩
          rw [servedBy_append]
          exact here.append rest
        · cases walk
          exact ⟨more, sent, here.trans (List.sublist_append_left _ _)⟩

theorem OnceEach.addresses (once : OnceEach p) {keys : List String} (nodup : keys.Nodup) :
    (keys.filterMap fun key => (p.queue.lookup key).map Message.addr).Nodup := by
  refine nodup.filterMap ?_
  intro left right call here there
  obtain ⟨entry, found, same⟩ := Option.map_eq_some_iff.mp here
  obtain ⟨other, found', same'⟩ := Option.map_eq_some_iff.mp there
  exact once.distinct left right entry other found found' (same.trans same'.symm)

theorem Ordered.quiet
    (queue : ∀ call, q.queue.lookup secondKey = some call → call.routedVia = none)
    (sends : Sends (fun sent => sent.cause.dispatched = none) p q) :
    Ordered p q firstKey secondKey first second := by
  refine ⟨fun call placed _ there routed => absurd (queue placed there) routed, ?_⟩
  obtain ⟨more, grown, undispatched⟩ := sends
  refine ⟨more, grown, ?_⟩
  rw [servedBy_undispatched undispatched]
  exact fun pair => (by cases pair)

theorem placeAll_ordered {identity : String} {mod : Module} (registry : Registry p)
    (separated : Separated p) (once : OnceEach p)
    (found : p.modules.lookup identity = some mod) (idle : mod.state = .idle)
    (rivals : Rivals p firstKey secondKey first second)
    (turn : Leaves env p identity secondKey second →
      Leaves env p identity firstKey first ∧
        [firstKey, secondKey].Sublist (env.visit p.queue.keys))
    (walk : placeAll env p = .ok q) : Ordered p q firstKey secondKey first second := by
  have stays : ¬ Leaves env p identity secondKey second →
      ∃ placed, q.queue.lookup secondKey = some placed ∧ placed.routedVia = none ∧
        second.Carried placed :=
    stays_unrouted registry separated walk rivals.secondQueued rivals.secondWaits
  constructor
  · intro call placed here there routed
    have leaves : Leaves env p identity secondKey second := by
      by_contra waits
      obtain ⟨still, same, unrouted, _⟩ := stays waits
      rw [there] at same
      cases same
      exact routed unrouted
    exact leaves_routed registry separated found idle walk rivals.firstQueued rivals.firstWaits
      (turn leaves).1 here
  · obtain ⟨more, grown, order⟩ := walk_served walk
    refine ⟨more, grown, fun pair => ?_⟩
    by_cases leaves : Leaves env p identity secondKey second
    · have nodup : (env.visit p.queue.keys).Nodup :=
        (env.visit_perm _).nodup_iff.mpr p.queue.keys_nodup
      have visits := (turn leaves).2.filterMap
        fun key => (p.queue.lookup key).map Message.addr
      simp only [List.filterMap_cons, rivals.firstQueued, rivals.secondQueued, Option.map_some,
        List.filterMap_nil] at visits
      exact sublist_pair_antisymm (once.addresses nodup) visits (pair.trans order)
    · obtain ⟨placed, there, unrouted, carried⟩ := stays leaves
      have unsent := (once.placeAll walk).waiting secondKey placed there unrouted
      have addr : placed.addr = second.addr := by rw [carried.same]
      rw [dispatches_eq_nil, grown, servedBy_append, addr] at unsent
      exact unsent (List.mem_append_right _ (pair.subset (by simp)))

theorem placeQueued_ordered {rc : Int} (registry : Registry p) (separated : Separated p)
    (rivals : Rivals p firstKey secondKey first second)
    (turn : ∀ stored, p.queue.lookup key = some stored → Placeable p stored →
      ∀ firstKey first, ¬ Rivals p firstKey key first stored)
    (run : placeQueued env key p = .ok (rc, q)) :
    Ordered p q firstKey secondKey first second := by
  constructor
  · intro call placed _ there routed
    by_cases here : secondKey = key
    · subst here
      obtain ⟨_, other, _, taken, queue⟩ :=
        placeQueued_turn registry separated rivals.secondQueued rivals.secondWaits run
      rw [queue, if_pos rfl] at there
      cases there
      have placeable : Placeable p second := by
        cases taken with
        | given bound locals found idle => exact Or.inl ⟨_, _, _, _, bound, locals, found, idle⟩
        | kept _ _ _ _ waits => exact absurd waits routed
        | headless bound locals _ either =>
            refine Or.inr ⟨?_, _, bound, locals⟩
            by_contra nowhere
            exact routed (either.mpr nowhere)
      exact absurd rivals (turn second rivals.secondQueued placeable firstKey first)
    · rw [placeQueued_elsewhere here run, rivals.secondQueued] at there
      cases there
      exact absurd rivals.secondWaits routed
  · obtain ⟨more, grown, order⟩ := placeQueued_served run
    refine ⟨more, grown, fun pair => ?_⟩
    have short := (pair.trans order).length_le
    cases queued : p.queue.lookup key <;> simp [queued] at short

theorem Ordered.after (sends : Sends (fun sent => sent.cause.dispatched = none) p r)
    (ordered : Ordered r q firstKey secondKey first second) :
    Ordered p q firstKey secondKey first second := by
  refine ⟨ordered.routes, ?_⟩
  obtain ⟨replies, grown, undispatched⟩ := sends
  obtain ⟨more, grown', order⟩ := ordered.sends
  refine ⟨replies ++ more, by rw [grown', grown, List.append_assoc], ?_⟩
  rwa [servedBy_append, servedBy_undispatched undispatched]

theorem placeAll_gone (gone : p.queue.lookup firstKey = none ∧
      (∀ key call, p.queue.lookup key = some call → call.addr ≠ first.addr) ∨
    p.queue.lookup secondKey = none ∧
      ∀ key call, p.queue.lookup key = some call → call.addr ≠ second.addr)
    (walk : placeAll env p = .ok q) : Ordered p q firstKey secondKey first second := by
  have calm := placeAll_calm walk
  obtain ⟨more, grown, order⟩ := walk_served walk
  have listed : ∀ call ∈ servedBy more, ∃ key entry, p.queue.lookup key = some entry ∧
      entry.addr = call := by
    intro call served
    obtain ⟨key, _, found⟩ := List.mem_filterMap.mp (order.subset served)
    obtain ⟨entry, queued, addr⟩ := Option.map_eq_some_iff.mp found
    exact ⟨key, entry, queued, addr⟩
  constructor
  · intro call placed here there _
    obtain ⟨before, queued, _⟩ := calm.queue firstKey call here
    obtain ⟨before', queued', _⟩ := calm.queue secondKey placed there
    rcases gone with ⟨none, _⟩ | ⟨none, _⟩
    · rw [none] at queued
      cases queued
    · rw [none] at queued'
      cases queued'
  · refine ⟨more, grown, fun pair => ?_⟩
    rcases gone with ⟨_, nowhere⟩ | ⟨_, nowhere⟩
    · obtain ⟨key, entry, queued, addr⟩ := listed first.addr (pair.subset (by simp))
      exact nowhere key entry queued addr
    · obtain ⟨key, entry, queued, addr⟩ := listed second.addr (pair.subset (by simp))
      exact nowhere key entry queued addr

theorem Rivals.congr (rivals : Rivals p firstKey secondKey first second)
    (queue : q.queue = p.queue) : Rivals q firstKey secondKey first second :=
  { rivals with
    firstQueued := queue ▸ rivals.firstQueued
    secondQueued := queue ▸ rivals.secondQueued }

theorem Rivals.erase (once : OnceEach p) (rivals : Rivals p firstKey secondKey first second)
    (gone : String) : Rivals (p.deleteCall gone) firstKey secondKey first second ∨
      (p.deleteCall gone).queue.lookup firstKey = none ∧
        (∀ key call, (p.deleteCall gone).queue.lookup key = some call →
          call.addr ≠ first.addr) ∨
      (p.deleteCall gone).queue.lookup secondKey = none ∧
        ∀ key call, (p.deleteCall gone).queue.lookup key = some call →
          call.addr ≠ second.addr := by
  have apart : ∀ key call, p.queue.lookup gone = some call →
      ∀ entry, (p.deleteCall gone).queue.lookup key = some entry → entry.addr ≠ call.addr := by
    intro key call here entry there same
    obtain ⟨different, queued⟩ := ZHash.lookup_erase_some.mp there
    exact different (once.distinct key gone entry call queued here same)
  by_cases firstGone : firstKey = gone
  · subst firstGone
    exact Or.inr (Or.inl ⟨by simp, fun key call =>
      apart key first rivals.firstQueued call⟩)
  · by_cases secondGone : secondKey = gone
    · subst secondGone
      exact Or.inr (Or.inr ⟨by simp, fun key call =>
        apart key second rivals.secondQueued call⟩)
    · exact Or.inl { rivals with
        firstQueued := ZHash.lookup_erase_some.mpr ⟨firstGone, rivals.firstQueued⟩
        secondQueued := ZHash.lookup_erase_some.mpr ⟨secondGone, rivals.secondQueued⟩ }

theorem AnswerTurn.ordered (registry : Registry p) (separated : Separated p) (once : OnceEach p)
    (queued : p.queue.lookup message.actionid = some stored)
    (walk : ∀ mod, message.isLocal = true → p.modules.lookup message.identity = some mod →
      mod.needRestart = false → ∀ firstKey secondKey first second,
        Rivals (p.deleteCall message.actionid) firstKey secondKey first second →
        Leaves env (p.deleteCall message.actionid) message.identity secondKey second →
          Leaves env (p.deleteCall message.actionid) message.identity firstKey first ∧
            [firstKey, secondKey].Sublist (env.visit (p.deleteCall message.actionid).queue.keys))
    (busy : message.isLocal = false → message.command = "exception" → stored.isLocal = true →
      messageGetExceptionCode message = .ok modulesBusy → Placeable p stored →
      ∀ firstKey first, ¬ Rivals p firstKey message.actionid first stored)
    (rivals : Rivals p firstKey secondKey first second)
    (answer : AnswerTurn env message stored p q) :
    Ordered p q firstKey secondKey first second := by
  have still : ∀ {state : Proxy} call, state.queue = p.queue.erase stored.actionid →
      state.queue.lookup secondKey = some call → call.routedVia = none := by
    intro state call erased there
    rw [erased] at there
    have before := (ZHash.lookup_erase_some.mp there).2
    rw [rivals.secondQueued] at before
    cases before
    exact rivals.secondWaits
  cases answer with
  | unheard same =>
      rw [same]
      refine .quiet (fun call there => ?_) (.refl p)
      rw [rivals.secondQueued] at there
      cases there
      exact rivals.secondWaits
  | placed foreign isException own coded placement =>
      refine placeQueued_ordered registry separated rivals ?_ placement
      intro call here placeable firstKey first
      rw [queued] at here
      cases here
      exact busy foreign isException own coded placeable firstKey first
  | @settled middle same replies back rest =>
      have erased : middle.queue = p.queue.erase stored.actionid := by rw [same]
      have silent : Ordered p middle firstKey secondKey first second :=
        .quiet (fun call => still call erased) replies
      cases isLocal : message.isLocal with
      | false =>
          rw [rest isLocal]
          exact silent
      | true =>
          have run := back isLocal
          rcases putBack_ok run with ⟨_, rfl⟩ | ⟨mod, found, ⟨_, rfl⟩ | ⟨needed, run⟩⟩
          · exact silent
          · exact .quiet (fun call => still call erased) (replies.trans (.of_eq rfl))
          · have modules : middle.modules = p.modules := by rw [same]
            rw [(registry.calls _ _ queued).actionid] at same
            rw [modules] at found
            have freed := freed_setModule same found
            have sends := replies.trans (.of_eq rfl : Sends _ middle
              (middle.setModule message.identity { mod with state := .idle }))
            refine Ordered.after sends ?_
            rcases rivals.erase once message.actionid with both | gone
            · refine placeAll_ordered (registry.calm freed.calm)
                (separated.calm registry freed.calm)
                (once.frame (fun key call there => ?_) sends (Nat.le_of_eq freed.calm.brk.symm))
                freed.idle rfl (both.congr freed.queue) (fun leaves => ?_) run
              · rw [freed.queue] at there
                exact (ZHash.lookup_erase_some.mp there).2
              · rw [leaves_congr freed.queue freed.heap freed.free] at leaves ⊢
                rw [freed.queue]
                exact walk mod isLocal found needed _ _ _ _ both leaves
            · rw [← freed.queue] at gone
              exact placeAll_gone gone run

theorem QueuedAt.quiet {call : Addr} (quiet : Quiet p q) (queued : QueuedAt p call) :
    QueuedAt q call := by
  obtain ⟨key, entry, found, addr⟩ := queued
  have same := congrArg (Option.map Prod.fst) (quiet.calls key)
  rw [found] at same
  obtain ⟨tag, tagged, first⟩ := Option.map_eq_some_iff.mp same
  obtain ⟨later, there, tag'⟩ := Option.map_eq_some_iff.mp tagged
  refine ⟨key, later, there, ?_⟩
  rw [← addr]
  rw [← tag'] at first
  exact first

theorem AnswerTurn.served (answer : AnswerTurn env message stored p q) :
    ∃ more, q.sent = p.sent ++ more ∧ ∀ call ∈ servedBy more, QueuedAt q call := by
  have silent : ∀ {state : Proxy}, Sends (fun sent => sent.cause.dispatched = none) p state →
      ∃ more, state.sent = p.sent ++ more ∧ ∀ call ∈ servedBy more, QueuedAt state call := by
    rintro state ⟨more, grown, undispatched⟩
    refine ⟨more, grown, fun call served => ?_⟩
    rw [servedBy_undispatched undispatched] at served
    cases served
  cases answer with
  | unheard same => exact same ▸ silent (.refl p)
  | placed _ _ _ _ placement =>
      obtain ⟨more, grown, order⟩ := placeQueued_served placement
      refine ⟨more, grown, fun call served => ?_⟩
      obtain ⟨entry, queued, addr⟩ :=
        Option.map_eq_some_iff.mp (Option.mem_toList.mp (order.subset served))
      exact QueuedAt.quiet (placeQueued_quiet placement) ⟨_, entry, queued, addr⟩
  | @settled middle _ replies back rest =>
      cases isLocal : message.isLocal with
      | false =>
          rw [rest isLocal]
          exact silent replies
      | true =>
          have run := back isLocal
          rcases putBack_ok run with ⟨_, rfl⟩ | ⟨mod, _, ⟨_, rfl⟩ | ⟨_, run⟩⟩
          · exact silent replies
          · exact silent (replies.trans (.of_eq rfl))
          · obtain ⟨sent, grown, undispatched⟩ := replies
            obtain ⟨more, grown', order⟩ := walk_served run
            refine ⟨sent ++ more, ?_, fun call served => ?_⟩
            · rw [grown', setModule_sent, grown, List.append_assoc]
            · rw [servedBy_append, servedBy_undispatched undispatched, List.nil_append] at served
              obtain ⟨key, _, found⟩ := List.mem_filterMap.mp (order.subset served)
              obtain ⟨entry, queued, addr⟩ := Option.map_eq_some_iff.mp found
              exact QueuedAt.quiet (placeAll_quiet run) ⟨key, entry, queued, addr⟩

/-- Every send to a worker is of a call that waited, or came with the event; and
it is queued when it is not the one that came. -/
theorem step_served (registry : Registry p) (run : p.step conf env event = .ok q) :
    ∃ more, q.sent = p.sent ++ more ∧ ∀ call ∈ servedBy more, call ≠ p.brk →
      WaitsAt p call ∧ QueuedAt q call := by
  obtain ⟨more, grown, passes⟩ := step_passesOn registry run
  refine ⟨more, grown, fun call served old => ?_⟩
  obtain ⟨sent, member, same⟩ := mem_servedBy.mp served
  obtain ⟨passed, dispatched, addr⟩ := Option.map_eq_some_iff.mp same
  constructor
  · rcases passes sent member passed dispatched with new | ⟨key, before, queued, waits, own⟩
    · exact absurd (addr.symm.trans new) old
    · exact ⟨key, before, queued, own.trans addr, waits⟩
  · rcases step_turn registry run with untouched | ⟨message, stored, _, _, _, answer⟩
    · obtain ⟨others, grown', fresh⟩ := untouched.sends
      rw [grown] at grown'
      rw [← List.append_cancel_left grown'] at fresh
      exact absurd (addr.symm.trans (fresh sent member passed dispatched)) old
    · obtain ⟨others, grown', queued⟩ := answer.served
      rw [grown, arrived_sent] at grown'
      rw [← List.append_cancel_left grown'] at queued
      exact queued call served

theorem step_came (registry : Registry p) (run : p.step conf env event = .ok q)
    (found : q.queue.lookup key = some placed) (old : placed.addr ≠ p.brk) :
    ∃ before, p.queue.lookup key = some before ∧ before.Carried placed := by
  rcases step_entry registry run found with kept | ⟨message, call, middle, read, _, parsed,
    placement, _⟩
  · exact kept
  · refine absurd ?_ old
    rw [(placeCall_outcome placement).carried.same, readCall_ok parsed]
    exact (Event.message_arrives read).addr

theorem Message.Carried.waited (carried : first.Carried second) (waits : second.routedVia = none) :
    first.routedVia = none := by
  cases routed : first.routedVia with
  | none => rfl
  | some via =>
      rw [carried.routed via routed, routed] at waits
      cases waits

theorem Message.Carried.addr (carried : first.Carried second) : second.addr = first.addr := by
  rw [carried.same]

theorem step_old (registry : Registry p) (run : p.step conf env event = .ok q) {call : Addr}
    (old : call ≠ p.brk) :
    (WaitsAt q call → WaitsAt p call) ∧ (QueuedAt q call → QueuedAt p call) := by
  constructor
  · rintro ⟨key, entry, found, rfl, waits⟩
    obtain ⟨before, queued, carried⟩ := step_came registry run found old
    exact ⟨key, before, queued, carried.addr.symm, carried.waited waits⟩
  · rintro ⟨key, entry, found, rfl⟩
    obtain ⟨before, queued, carried⟩ := step_came registry run found old
    exact ⟨key, before, queued, carried.addr.symm⟩

theorem Untouched.ordered (once : OnceEach p)
    (rivals : Rivals p firstKey secondKey first second) (untouched : Untouched p.brk p q) :
    Ordered p q firstKey secondKey first second := by
  constructor
  · intro call placed _ there routed
    rcases untouched.queue secondKey placed there with kept | ⟨_, absent⟩
    · rw [rivals.secondQueued] at kept
      cases kept
      exact absurd rivals.secondWaits routed
    · exact absurd (ZHash.mem_of_lookup rivals.secondQueued) absent
  · obtain ⟨more, grown, fresh⟩ := untouched.sends
    refine ⟨more, grown, fun pair => ?_⟩
    obtain ⟨sent, member, same⟩ := mem_servedBy.mp (pair.subset (by simp) : first.addr ∈ _)
    obtain ⟨call, dispatched, addr⟩ := Option.map_eq_some_iff.mp same
    have born := once.below firstKey first rivals.firstQueued
    rw [← addr, fresh sent member call dispatched] at born
    exact Nat.lt_irrefl _ born

theorem step_ordered (registry : Registry p) (separated : Separated p) (once : OnceEach p)
    (allowed : InTurn conf p (env, event)) (rivals : Rivals p firstKey secondKey first second)
    (run : p.step conf env event = .ok q) : Ordered p q firstKey secondKey first second := by
  rcases step_turn registry run with untouched | ⟨message, stored, read, answers, queued, answer⟩
  · exact untouched.ordered once rivals
  · have queue : ((p.arrived message).deleteCall message.actionid).queue =
        (p.deleteCall message.actionid).queue := by simp
    have heap : ((p.arrived message).deleteCall message.actionid).heap =
        (p.deleteCall message.actionid).heap := by simp
    have free : ∀ other, Free ((p.arrived message).deleteCall message.actionid) message.identity
        other ↔ Free (p.deleteCall message.actionid) message.identity other := by simp [Free]
    have ordered := answer.ordered (registry.arrived message) (separated.arrived message)
      (once.arrived message) (by rwa [arrived_queue]) ?_ ?_ (rivals.congr (arrived_queue message p))
    · exact ordered.after (.of_eq (arrived_sent message p))
    · intro mod isLocal found needed firstKey secondKey first second both leaves
      rw [leaves_congr queue heap free] at leaves ⊢
      rw [arrived_modules] at found
      rw [queue]
      exact allowed.walk message stored mod read isLocal answers queued found needed _ _ _ _
        (both.congr queue.symm) leaves
    · intro foreign isException own coded placeable firstKey first both
      refine allowed.busy message stored read foreign isException queued own coded ?_ firstKey first
        (both.congr (arrived_queue message p).symm)
      simpa [Placeable] using placeable

structure InRace (p : Proxy) (first second : Addr) : Prop where
  firstBorn : first < p.brk
  secondBorn : second < p.brk
  order : ¬ [second, first].Sublist (servedBy p.sent)
  race : ¬ WaitsAt p first ∨ second ∉ servedBy p.sent ∧ (¬ QueuedAt p second ∨
    ∃ firstKey secondKey head tail, Rivals p firstKey secondKey head tail ∧ head.addr = first ∧
      tail.addr = second)

theorem Rivals.inRace (once : OnceEach p) (rivals : Rivals p firstKey secondKey first second) :
    InRace p first.addr second.addr := by
  have unsent := dispatches_eq_nil.mp (once.waiting _ _ rivals.secondQueued rivals.secondWaits)
  exact ⟨once.below _ _ rivals.firstQueued, once.below _ _ rivals.secondQueued,
    fun pair => unsent (pair.subset (by simp)), Or.inr ⟨unsent, Or.inr ⟨_, _, _, _, rivals, rfl, rfl⟩⟩⟩

theorem InRace.step {firstAddr secondAddr : Addr} (registry : Registry p) (separated : Separated p)
    (once : OnceEach p) (allowed : InTurn conf p (env, event))
    (run : p.step conf env event = .ok q) (inRace : InRace p firstAddr secondAddr) :
    InRace q firstAddr secondAddr := by
  obtain ⟨firstBorn, secondBorn, order, race⟩ := inRace
  have brk := step_brk registry run
  have firstOld := step_old registry run (Nat.ne_of_lt firstBorn)
  have secondOld := step_old registry run (Nat.ne_of_lt secondBorn)
  obtain ⟨more, grown, serves⟩ := step_served registry run
  have sent : servedBy q.sent = servedBy p.sent ++ servedBy more := by rw [grown, servedBy_append]
  obtain ⟨order', race'⟩ : ¬ [secondAddr, firstAddr].Sublist (servedBy q.sent) ∧
      (¬ WaitsAt q firstAddr ∨ secondAddr ∉ servedBy q.sent ∧ (¬ QueuedAt q secondAddr ∨
        ∃ firstKey secondKey head tail, Rivals q firstKey secondKey head tail ∧
          head.addr = firstAddr ∧ tail.addr = secondAddr)) := by
    rw [sent]
    rcases race with left | ⟨unsent, absent | ⟨firstKey, secondKey, head, tail, rivals, rfl, rfl⟩⟩
    · refine ⟨fun pair => order (sublist_pair_append (fun served => ?_) pair),
        Or.inl fun waits => left (firstOld.1 waits)⟩
      exact left (serves firstAddr served (Nat.ne_of_lt firstBorn)).1
    · have silent : secondAddr ∉ servedBy p.sent ++ servedBy more := by
        intro served
        rcases List.mem_append.mp served with before | now
        · exact unsent before
        · exact absent (secondOld.2 (serves secondAddr now (Nat.ne_of_lt secondBorn)).2)
      exact ⟨fun pair => silent (pair.subset (by simp)),
        Or.inr ⟨silent, Or.inl fun queued => absent (secondOld.2 queued)⟩⟩
    · have ordered := step_ordered registry separated once allowed rivals run
      obtain ⟨more', grown', apart⟩ := ordered.sends
      rw [grown] at grown'
      rw [← List.append_cancel_left grown'] at apart
      refine ⟨fun pair => apart (sublist_pair_after unsent pair), ?_⟩
      by_cases waits : WaitsAt q head.addr
      · right
        by_cases queued : QueuedAt q tail.addr
        · obtain ⟨key, call, here, addr, unrouted⟩ := waits
          obtain ⟨other, placed, there, addr'⟩ := queued
          obtain ⟨before, was, carried⟩ := step_came registry run here
            (addr ▸ Nat.ne_of_lt firstBorn)
          obtain ⟨before', was', carried'⟩ := step_came registry run there
            (addr' ▸ Nat.ne_of_lt secondBorn)
          obtain rfl := once.distinct key firstKey before head was rivals.firstQueued
            (carried.addr.symm.trans addr)
          obtain rfl := once.distinct other secondKey before' tail was' rivals.secondQueued
            (carried'.addr.symm.trans addr')
          rw [rivals.firstQueued] at was
          rw [rivals.secondQueued] at was'
          cases was
          cases was'
          have unrouted' : placed.routedVia = none := by
            by_contra routed
            exact ordered.routes call placed here there routed unrouted
          have unsent' := dispatches_eq_nil.mp ((once.step registry run).waiting _ _ there unrouted')
          rw [sent, addr'] at unsent'
          obtain ⟨iface, bound, _⟩ := (registry.calls _ _ rivals.firstQueued).iface
          have same : call.iface = placed.iface := by
            rw [(carried.iface iface bound).1, (carried'.iface iface (rivals.iface ▸ bound)).1]
          exact ⟨unsent', Or.inr ⟨_, _, call, placed, ⟨here, there, unrouted, unrouted', same,
            by rw [addr, addr']; exact rivals.received⟩, addr, addr'⟩⟩
        · refine ⟨fun served => ?_, Or.inl queued⟩
          rcases List.mem_append.mp served with before | now
          · exact unsent before
          · exact queued (serves tail.addr now (Nat.ne_of_lt secondBorn)).2
      · exact Or.inl waits
  exact ⟨Nat.lt_of_lt_of_le firstBorn brk, Nat.lt_of_lt_of_le secondBorn brk, order', race'⟩

/-- A walk in the order of reception takes every call in turn, if it finds fabrics
copied by the earlier ones also. -/
theorem Rivals.inTurn {identity : String} (rivals : Rivals p firstKey secondKey first second)
    (order : [firstKey, secondKey].Sublist (env.visit p.queue.keys))
    (fabrics : second.HasFabric → first.HasFabric)
    (leaves : Leaves env p identity secondKey second) :
    Leaves env p identity firstKey first ∧
      [firstKey, secondKey].Sublist (env.visit p.queue.keys) := by
  refine ⟨?_, order⟩
  rcases leaves with ⟨other, before, after, _, split, waits, alone⟩ | ⟨fabric, iface, bound, empty⟩
  · obtain ⟨call, iface, head, rest, queued, _, bound, locals, same⟩ := waits
    rw [rivals.secondQueued] at queued
    cases queued
    have sooner : WaitsFor p other firstKey := ⟨first, iface, head, rest, rivals.firstQueued,
      rivals.firstWaits, rivals.iface ▸ bound, locals, same⟩
    rw [split] at order
    obtain ⟨absent, later⟩ := visit_apart split
    have met : [firstKey, secondKey].Sublist (before ++ [secondKey]) := by
      rw [List.append_cons] at order
      exact sublist_pair_append later order
    have distinct : firstKey ≠ secondKey := by
      rintro rfl
      have same := rivals.secondQueued
      rw [rivals.firstQueued] at same
      cases same
      exact Nat.lt_irrefl _ rivals.received
    have member : firstKey ∈ before ++ [secondKey] := met.subset (by simp)
    rcases List.mem_append.mp member with early | last
    · exact absurd sooner (alone firstKey early)
    · exact absurd (List.mem_singleton.mp last) distinct
  · exact Or.inr ⟨fabrics fabric, iface, rivals.iface ▸ bound, empty⟩

theorem inTurn_reaches (reached : Reaches (fabric conf) (InTurn conf) p) :
    Separated p ∧ OnceEach p := by
  refine fabric_invariant (fun state => Separated state ∧ OnceEach state) reached
    ⟨separated_new, onceEach_new⟩ ?_
  rintro env event state next allowed move registry ⟨separated, once⟩
  exact ⟨separated.step registry allowed.introductions move, once.step registry move⟩

/-- In runs whose every step takes calls in turn, of two calls that wait for one
interface the one that was received first is sent first: whenever the other has
a route, it waits no more, and its own send is not behind. -/
theorem fifo (reached : Reaches (fabric conf) (InTurn conf) p)
    (rivals : Rivals p firstKey secondKey first second)
    (run : Run (fabric conf) (InTurn conf) p q) :
    (∀ key placed, q.queue.lookup key = some placed → placed.addr = second.addr →
      placed.routedVia ≠ none → ¬ WaitsAt q first.addr) ∧
    ¬ [second.addr, first.addr].Sublist (servedBy q.sent) := by
  have race : Reaches (fabric conf) (InTurn conf) q ∧ InRace q first.addr second.addr := by
    refine run.invariant (fun state => Reaches (fabric conf) (InTurn conf) state ∧
      InRace state first.addr second.addr) ?_ ⟨reached, rivals.inRace (inTurn_reaches reached).2⟩
    rintro state ⟨env, event⟩ next allowed move ⟨before, inRace⟩
    obtain ⟨separated, once⟩ := inTurn_reaches before
    exact ⟨before.extend (.single allowed move),
      inRace.step (registry_reaches before) separated once allowed move⟩
  obtain ⟨reached', _, _, order, race⟩ := race
  refine ⟨?_, order⟩
  intro key placed found addr routed waits
  rcases race with left | ⟨_, absent | ⟨_, other, _, tail, both, _, same⟩⟩
  · exact left waits
  · exact absent ⟨key, placed, found, addr⟩
  · have once := (inTurn_reaches reached').2
    obtain rfl := once.distinct key other placed tail found both.secondQueued
      (addr.trans same.symm)
    rw [both.secondQueued] at found
    cases found
    exact routed both.secondWaits

def twoWaiting : List (Env × Event) :=
  overloaded ++ [(early, .localMsg (callOf caller "mod" "f" 1 "call-3") "")]

def inOrder : Env := { early with visit := List.reverse, visit_perm := List.reverse_perm }

theorem twoWaiting_rivals :
    ∃ first second, Rivals (fabricAfter plainConf twoWaiting) "call-2" "call-3" first second ∧
      first.addr = 4 ∧ second.addr = 5 := by
  have waiting : ∃ first ∈ (fabricAfter plainConf twoWaiting).queue.lookup "call-2",
      ∃ second ∈ (fabricAfter plainConf twoWaiting).queue.lookup "call-3",
        first.routedVia = none ∧ second.routedVia = none ∧ first.iface = second.iface ∧
          first.addr = 4 ∧ second.addr = 5 := by
    decide
  obtain ⟨first, here, second, there, waits, waits', iface, addr, addr'⟩ := waiting
  refine ⟨first, second, ⟨here, there, waits, waits', iface, ?_⟩, addr, addr'⟩
  rw [addr, addr']
  decide

theorem inTurn_quiet (read : ∀ message ∈ event.message env p, message.isLocal = true ∧
      message.command ∉ ["result", "exception"]) : InTurn conf p (env, event) where
  introductions message here _ _ := (read message here).1
  walk message _ _ here _ answers := by
    refine absurd ?_ (read message here).2
    simpa using answers
  busy message _ here foreign := by
    rw [(read message here).1] at foreign
    cases foreign

theorem twoWaiting_inTurn :
    InTurn plainConf (fabricAfter plainConf twoWaiting)
      (inOrder, .localMsg (resultOf worker "call-1") "") where
  introductions := localIntroductions_local _ _
  walk := by
    intro message stored mod read _ _ _ _ _ firstKey secondKey first second rivals
    have fields : ((Event.localMsg (resultOf worker "call-1") "").message inOrder
        (fabricAfter plainConf twoWaiting)).map Message.actionid = some "call-1" := by
      decide
    rw [read, Option.map_some, Option.some.injEq] at fields
    rw [fields] at rivals ⊢
    have keys : ((fabricAfter plainConf twoWaiting).deleteCall "call-1").queue.keys =
        ["call-3", "call-2"] := by decide
    have calls : ∀ key ∈ ["call-3", "call-2"], ∀ call ∈
        ((fabricAfter plainConf twoWaiting).deleteCall "call-1").queue.lookup key,
          call.addr = (if key = "call-2" then 4 else 5) ∧ call.globals = none := by decide
    have firstKnown : firstKey ∈ ["call-3", "call-2"] :=
      keys ▸ AList.mem_keys.mp (ZHash.mem_of_lookup rivals.firstQueued)
    have secondKnown : secondKey ∈ ["call-3", "call-2"] :=
      keys ▸ AList.mem_keys.mp (ZHash.mem_of_lookup rivals.secondQueued)
    obtain ⟨addr, _⟩ := calls firstKey firstKnown first rivals.firstQueued
    obtain ⟨addr', nowhere⟩ := calls secondKey secondKnown second rivals.secondQueued
    have received := rivals.received
    rw [addr, addr'] at received
    refine rivals.inTurn ?_ ?_
    · rw [keys]
      simp only [List.mem_cons, List.not_mem_nil, or_false] at firstKnown secondKnown
      rcases firstKnown with rfl | rfl <;> rcases secondKnown with rfl | rfl <;>
        revert received <;> decide
    · rintro ⟨_, globals, copied, _⟩
      rw [nowhere] at copied
      cases copied
  busy := by
    intro message stored read foreign
    obtain ⟨_, _, _, _, _, _, rfl⟩ := messageFromzmq_some (toOption_join read)
    cases foreign

theorem fifo_inOrder :
    let q := (fabricAfter plainConf twoWaiting).after plainConf inOrder
      (.localMsg (resultOf worker "call-1") "")
    (∀ key placed, q.queue.lookup key = some placed → placed.addr = 5 →
      placed.routedVia ≠ none → ¬ WaitsAt q 4) ∧ ¬ [5, 4].Sublist (servedBy q.sent) := by
  intro q
  have reached : Reaches (fabric plainConf) (InTurn plainConf)
      (fabricAfter plainConf twoWaiting) := by
    refine fabricAfter_reaches (fun label member state => ?_) (by decide)
    simp only [twoWaiting, overloaded, List.cons_append, List.nil_append, List.mem_cons,
      List.not_mem_nil, or_false] at member
    have introduces : cString "introduce" ∉ ["result", "exception"] := by decide
    have calls : cString "call" ∉ ["result", "exception"] := by decide
    rcases member with rfl | rfl | rfl | rfl <;> refine inTurn_quiet fun message read => ?_ <;>
      cases read
    · exact ⟨rfl, introduces⟩
    all_goals exact ⟨rfl, calls⟩
  obtain ⟨first, second, rivals, addr, addr'⟩ := twoWaiting_rivals
  have run : (fabricAfter plainConf twoWaiting).step plainConf inOrder
      (.localMsg (resultOf worker "call-1") "") = .ok q := step_after (by decide)
  have served := fifo reached rivals (.single twoWaiting_inTurn run)
  rwa [addr, addr'] at served

/-- Buckets may be in any other order too. -/
theorem overtaken :
    ¬ ∀ conf p q firstKey secondKey first second, Reaches (fabric conf) anything p →
      Rivals p firstKey secondKey first second → Run (fabric conf) anything p q →
      (∀ key placed, q.queue.lookup key = some placed → placed.addr = second.addr →
        placed.routedVia ≠ none → ¬ WaitsAt q first.addr) ∧
      ¬ [second.addr, first.addr].Sublist (servedBy q.sent) := by
  intro always
  obtain ⟨first, second, rivals, addr, addr'⟩ := twoWaiting_rivals
  have reached : Reaches (fabric plainConf) anything (fabricAfter plainConf twoWaiting) :=
    fabricAfter_reaches (fun _ _ _ => trivial) (by decide)
  let answer := Event.localMsg (resultOf worker "call-1") ""
  let after := (fabricAfter plainConf twoWaiting).after plainConf early answer
  have run : (fabricAfter plainConf twoWaiting).step plainConf early answer = .ok after :=
    step_after (by decide)
  have allowed : anything (fabricAfter plainConf twoWaiting) (early, answer) := trivial
  have served := (always plainConf _ after _ _ _ _ reached rivals (.single allowed run)).1
  have left : ∃ call ∈ after.queue.lookup "call-2", ∃ placed ∈ after.queue.lookup "call-3",
      call.addr = 4 ∧ call.routedVia = none ∧ placed.addr = 5 ∧ placed.routedVia ≠ none := by
    decide
  obtain ⟨call, here, placed, there, own, waits, own', routed⟩ := left
  exact served "call-3" placed there (own'.trans addr'.symm) routed
    ⟨"call-2", call, here, own.trans addr.symm, waits⟩

end

end ModBus
