import ModBus.Dispatch
import ModBus.Execute

/-! Module occupancy: a module is busy exactly while one queued call is routed
to it. -/

namespace ModBus

open Libc Czmq Transition

def RoutedTo (p : Proxy) (identity key : String) : Prop :=
  ∃ call, p.queue.lookup key = some call ∧ call.routedVia = some identity

def Occupied (p : Proxy) : Prop :=
  ∀ identity mod, p.modules.lookup identity = some mod → mod.needRestart = false →
    mod.state ≠ .restarting →
      (mod.state = .busy ↔ ∃! key, RoutedTo p identity key) ∧
        (mod.state = .idle ↔ ∀ key, ¬ RoutedTo p identity key)

def SentAtOnce (p : Proxy) (call : Message) : Prop :=
  ∃ module function iface head rest mod, call.module = some module ∧
    call.function = some function ∧
    checkInterface p.ifaces p.heap module function call.version = some iface ∧
    (p.heap iface).locals = head :: rest ∧ p.modules.lookup head.text = some mod ∧
    mod.state = .idle

def Settles (message stored : Message) (p : Proxy) : Prop :=
  message.command = "result" ∨ message.command = "exception" ∧
    (message.isLocal = true → stored.isLocal = true → message.identity ∈ p.modules) ∧
    (message.isLocal = false → stored.isLocal = true →
      messageGetExceptionCode message ≠ .ok modulesBusy)

/-- New modules have no calls yet; a call under the `actionid` of a queued one is
not given to a module; an answer leaves no other module without its call, nor
its sender with one; and no call is dropped from a module that goes on working. -/
structure OneCallEach (conf : Config) (p : Proxy) (label : Env × Event) : Prop where
  introductions : LocalIntroductions conf p label
  newcomer : ∀ message, label.2.message label.1 p = some message →
    message.command = "introduce" → (conf.debug = true ∨ label.2.answer ≠ "no") →
    message.identity ∉ p.modules → ∀ key, ¬ RoutedTo p message.identity key
  fresh : ∀ message call, label.2.message label.1 p = some message → message.command = "call" →
    readCall message = .ok call → call.wellFormedCall = true → message.actionid ∈ p.queue →
    ¬ SentAtOnce p call
  answer : ∀ message stored, label.2.message label.1 p = some message →
    p.queue.lookup message.actionid = some stored → Settles message stored p →
    (∀ via mod, stored.routedVia = some via → p.modules.lookup via = some mod →
      mod.needRestart = false → message.isLocal = true ∧ via = message.identity) ∧
    ∀ mod, message.isLocal = true → p.modules.lookup message.identity = some mod →
      mod.needRestart = false → ∀ key, RoutedTo p message.identity key → key = message.actionid
  timeout : conf.debug = true → ∀ key call via mod, label.2 = .queueItem key →
    p.queue.lookup key = some call → processTimedOut conf label.1 call = true →
    call.routedVia = some via → p.modules.lookup via = some mod → mod.needRestart = true

structure Occupancy (p : Proxy) : Prop where
  states : ∀ identity mod, p.modules.lookup identity = some mod →
    mod.state = .idle ∨ mod.state = .busy ∨ mod.state = .restarting
  busy : ∀ identity mod, p.modules.lookup identity = some mod → mod.needRestart = false →
    mod.state = .busy → ∃! key, RoutedTo p identity key
  free : ∀ identity mod, p.modules.lookup identity = some mod → mod.needRestart = false →
    mod.state ≠ .busy → ∀ key, ¬ RoutedTo p identity key
  stamped : ∀ key call via, p.queue.lookup key = some call → call.routedVia = some via →
    via ∈ p.modules → call.processTimestamp ≠ 0 ∧ call.outTimestamp = 0
  waiting : ∀ key call, p.queue.lookup key = some call → call.routedVia = none →
    call.outTimestamp = 0

inductive Taken (message placed : Message) (p q : Proxy) : Prop
  | waits : placed.routedVia = none → placed.outTimestamp = message.outTimestamp →
      q.modules = p.modules → Taken message placed p q
  | toModule {via mod} : placed.routedVia = some via → placed.processTimestamp ≠ 0 →
      placed.outTimestamp = message.outTimestamp → p.modules.lookup via = some mod →
      mod.state = .idle → q.modules = ZHash.update p.modules via { mod with state := .busy } →
      Taken message placed p q
  | toFabric {via} : placed.routedVia = some via → via ∉ p.modules → q.modules = p.modules →
      Taken message placed p q

inductive AnswerCases (env : Env) (message stored : Message) (p q : Proxy) : Prop
  | unheard : message.identity ∉ p.modules → q = p → AnswerCases env message stored p q
  | placed {rc} : message.isLocal = false → placeQueued env message.actionid p = .ok (rc, q) →
      AnswerCases env message stored p q
  | settled {middle : Proxy} : Settles message stored p →
      middle = { p with queue := p.queue.erase stored.actionid, sent := middle.sent } →
      (message.isLocal = true → putBack env message.identity middle = .ok q) →
      (message.isLocal = false → q = middle) → AnswerCases env message stored p q

section

variable {conf : Config} {env : Env} {event : Event} {p q r : Proxy}
  {message placed stored : Message} {identity key : String}

theorem Occupancy.occupied (occupancy : Occupancy p) : Occupied p := by
  intro identity mod found needed restarting
  have states := occupancy.states identity mod found
  have busy := occupancy.busy identity mod found needed
  have free := occupancy.free identity mod found needed
  constructor
  · refine ⟨busy, fun ⟨key, routed, _⟩ => ?_⟩
    by_contra other
    exact free other key routed
  · refine ⟨fun idle => free (by simp [idle]), fun none => ?_⟩
    rcases states with idle | isBusy | isRestarting
    · exact idle
    · obtain ⟨key, routed, _⟩ := busy isBusy
      exact absurd routed (none key)
    · exact absurd isRestarting restarting

theorem routedTo_congr (queue : ∀ key, q.queue.lookup key = p.queue.lookup key)
    (identity key : String) : RoutedTo q identity key ↔ RoutedTo p identity key := by
  unfold RoutedTo
  rw [queue]

theorem Occupancy.keep (occupancy : Occupancy p)
    (queue : ∀ key, q.queue.lookup key = p.queue.lookup key)
    (modules : ∀ identity new, q.modules.lookup identity = some new →
      ∃ old, p.modules.lookup identity = some old ∧
        (new.state = old.state ∨ old.state = .idle ∧ new.state = .restarting) ∧
        (new.needRestart = false → old.needRestart = false)) : Occupancy q where
  states identity new found := by
    obtain ⟨old, before, same | ⟨_, restarting⟩, _⟩ := modules identity new found
    · rw [same]
      exact occupancy.states identity old before
    · exact Or.inr (Or.inr restarting)
  busy identity new found needed isBusy := by
    obtain ⟨old, before, same | ⟨_, restarting⟩, kept⟩ := modules identity new found
    · simp only [routedTo_congr queue]
      exact occupancy.busy identity old before (kept needed) (same ▸ isBusy)
    · rw [isBusy] at restarting
      cases restarting
  free identity new found needed isFree key := by
    obtain ⟨old, before, same | ⟨idle, _⟩, kept⟩ := modules identity new found
    · rw [routedTo_congr queue]
      exact occupancy.free identity old before (kept needed) (same ▸ isFree) key
    · rw [routedTo_congr queue]
      exact occupancy.free identity old before (kept needed) (by simp [idle]) key
  stamped key call via found routed member := by
    obtain ⟨new, registered⟩ := ZHash.lookup_of_mem member
    obtain ⟨old, before, _⟩ := modules via new registered
    exact occupancy.stamped key call via (queue key ▸ found) routed (ZHash.mem_of_lookup before)
  waiting key call found unrouted := occupancy.waiting key call (queue key ▸ found) unrouted

theorem Occupancy.frame (occupancy : Occupancy p)
    (queue : ∀ key, q.queue.lookup key = p.queue.lookup key)
    (modules : ∀ identity mod, q.modules.lookup identity = some mod →
      p.modules.lookup identity = some mod) : Occupancy q :=
  occupancy.keep queue fun identity mod found =>
    ⟨mod, modules identity mod found, Or.inl rfl, id⟩

/-! Placements. -/

theorem PlaceOutcome.taken (registry : Registry p) (separated : Separated p)
    (copied : ∀ globals, message.globals = some globals → ∀ name ∈ globals.items, ':' ∈ name.toList)
    (unrouted : message.routedVia = none) (outcome : PlaceOutcome env message p 0 placed q) :
    Taken message placed p q := by
  cases outcome with
  | routed via => simp [unrouted] at via
  | waiting _ _ none stamp _ modules => exact .waits none stamp modules
  | toModule _ _ routed stamp sent found idle modules =>
      exact .toModule routed (sent ▸ env.now_ne) stamp found idle modules
  | @toFabric iface _ _ via on chosen routed _ _ busy modules =>
      refine .toFabric routed (fun member => ?_) modules
      rcases chosen with choice | ⟨_, routes, _⟩
      · obtain ⟨head, _, mod, _, found, target⟩ := choice.head registry separated
        rw [routed] at target
        split at target
        · rename_i idle
          cases target
          exact busy mod found idle
        · cases target
      · obtain ⟨_, globals, copies, listed⟩ := routes via routed
        exact separated.modules via member (on.endpoints separated copied copies via listed)

structure Places (key : String) (placed : Message) (p r : Proxy) : Prop where
  unrouted : ∀ old, p.queue.lookup key = some old → old.routedVia = none
  queue : ∀ other, r.queue.lookup other =
    if other = key then some placed else p.queue.lookup other

theorem Places.routes (places : Places key placed p r) (identity other : String) :
    RoutedTo r identity other ↔
      (other = key ∧ placed.routedVia = some identity) ∨ RoutedTo p identity other := by
  have before : ¬ RoutedTo p identity key := by
    rintro ⟨old, found, routed⟩
    rw [places.unrouted old found] at routed
    cases routed
  simp only [RoutedTo, places.queue]
  by_cases here : other = key
  · subst here
    simp only [RoutedTo] at before
    simp [before]
  · simp [here]

theorem Places.elsewhere (places : Places key placed p r)
    (different : placed.routedVia ≠ some identity) (other : String) :
    RoutedTo r identity other ↔ RoutedTo p identity other := by
  simp [places.routes, different]

theorem Places.entries (places : Places key placed p r) {other : String} {call : Message}
    (found : r.queue.lookup other = some call) :
    other = key ∧ call = placed ∨ p.queue.lookup other = some call := by
  rw [places.queue] at found
  split at found
  · rename_i here
    cases found
    exact Or.inl ⟨here, rfl⟩
  · exact Or.inr found

theorem Occupancy.pass (occupancy : Occupancy p) (places : Places key placed p r)
    (modules : r.modules = p.modules)
    (nobody : ∀ identity ∈ p.modules, placed.routedVia ≠ some identity)
    (stamp : placed.routedVia = none → placed.outTimestamp = 0) : Occupancy r where
  states := modules ▸ occupancy.states
  busy identity mod found needed isBusy := by
    rw [modules] at found
    simp only [places.elsewhere (nobody identity (ZHash.mem_of_lookup found))]
    exact occupancy.busy identity mod found needed isBusy
  free identity mod found needed isFree other := by
    rw [modules] at found
    rw [places.elsewhere (nobody identity (ZHash.mem_of_lookup found))]
    exact occupancy.free identity mod found needed isFree other
  stamped other call via found routed member := by
    rw [modules] at member
    rcases places.entries found with ⟨_, rfl⟩ | old
    · exact absurd routed (nobody via member)
    · exact occupancy.stamped other call via old routed member
  waiting other call found none := by
    rcases places.entries found with ⟨_, rfl⟩ | old
    · exact stamp none
    · exact occupancy.waiting other call old none

theorem Occupancy.give {via : String} {mod : Module} (occupancy : Occupancy p)
    (places : Places key placed p r)
    (modules : r.modules = ZHash.update p.modules via { mod with state := .busy })
    (there : p.modules.lookup via = some mod) (idle : mod.state = .idle)
    (routed : placed.routedVia = some via)
    (stamps : placed.processTimestamp ≠ 0 ∧ placed.outTimestamp = 0) : Occupancy r := by
  have lookup : ∀ identity, r.modules.lookup identity =
      if identity = via then some { mod with state := .busy } else p.modules.lookup identity := by
    intro identity
    rw [modules, ZHash.lookup_update (ZHash.mem_of_lookup there)]
  have others : ∀ identity, identity ≠ via → placed.routedVia ≠ some identity := by
    intro identity different same
    rw [routed] at same
    cases same
    exact different rfl
  constructor
  · intro identity new found
    rw [lookup] at found
    split at found
    · cases found
      exact Or.inr (Or.inl rfl)
    · exact occupancy.states identity new found
  · intro identity new found needed isBusy
    rw [lookup] at found
    split at found
    · rename_i here
      cases found
      refine ⟨key, (places.routes identity key).mpr (Or.inl ⟨rfl, here ▸ routed⟩), ?_⟩
      intro other given
      rcases (places.routes identity other).mp given with ⟨same, _⟩ | old
      · exact same
      · exact absurd old (occupancy.free identity mod (here ▸ there) needed (by simp [idle]) other)
    · rename_i different
      simp only [places.elsewhere (others identity different)]
      exact occupancy.busy identity new found needed isBusy
  · intro identity new found needed isFree other
    rw [lookup] at found
    split at found
    · cases found
      exact absurd rfl isFree
    · rename_i different
      rw [places.elsewhere (others identity different)]
      exact occupancy.free identity new found needed isFree other
  · intro other call target found given member
    rcases places.entries found with ⟨_, rfl⟩ | old
    · exact stamps
    · refine occupancy.stamped other call target old given ?_
      rwa [modules, ZHash.mem_update] at member
  · intro other call found none
    rcases places.entries found with ⟨_, rfl⟩ | old
    · exact stamps.2
    · exact occupancy.waiting other call old none

theorem Occupancy.place (occupancy : Occupancy p) (taken : Taken message placed p q)
    (stamp : message.outTimestamp = 0) (places : Places key placed p r)
    (modules : r.modules = q.modules) : Occupancy r := by
  cases taken with
  | waits none same kept =>
      exact occupancy.pass places (modules.trans kept) (by simp [none]) fun _ => same.trans stamp
  | toModule routed started same there idle changed =>
      exact occupancy.give places (modules.trans changed) there idle routed
        ⟨started, same.trans stamp⟩
  | @toFabric via routed absent kept =>
      refine occupancy.pass places (modules.trans kept) ?_ (by simp [routed])
      intro identity member same
      rw [routed] at same
      cases same
      exact absent member

theorem placeQueued_occupancy {rc : Int} (registry : Registry p) (separated : Separated p)
    (occupancy : Occupancy p) (run : placeQueued env key p = .ok (rc, q)) : Occupancy q := by
  rcases placeQueued_ok run with ⟨_, _, rfl⟩ | ⟨call, placed, middle, queued, placement, same, lookup⟩
  · exact occupancy
  · have outcome := placeCall_outcome placement
    have modules : q.modules = middle.modules := by rw [same]
    cases routed : call.routedVia with
    | some via =>
        have fixed : placed = call := outcome.carried.routed via routed
        have still : middle.modules = p.modules := by
          cases outcome with
          | routed => rfl
          | rejected unrouted => simp [routed] at unrouted
          | waiting on => exact absurd on.unrouted (by simp [routed])
          | toModule on => exact absurd on.unrouted (by simp [routed])
          | toFabric on => exact absurd on.unrouted (by simp [routed])
        refine occupancy.frame (fun other => ?_) fun identity mod found => ?_
        · rw [lookup, fixed]
          split
          · rename_i here
            rw [here, queued]
          · rfl
        · rwa [modules, still] at found
    | none =>
        obtain ⟨iface, bound, _⟩ := (registry.calls key call queued).iface
        have zero : rc = 0 := outcome.zero bound
        subst zero
        have taken := outcome.taken registry separated
          (fun globals => separated.copies key call globals queued) routed
        refine occupancy.place taken (occupancy.waiting key call queued routed) ⟨?_, lookup⟩ modules
        intro old found
        rw [queued] at found
        cases found
        exact routed

theorem placeAll_occupancy (registry : Registry p) (separated : Separated p)
    (occupancy : Occupancy p) (run : placeAll env p = .ok q) : Occupancy q := by
  have whole : Registry q ∧ Separated q ∧ Occupancy q := by
    refine ZHash.foreach_invariant (fun state => Registry state ∧ Separated state ∧ Occupancy state)
      ?_ run ⟨registry, separated, occupancy⟩
    rintro key _ state rc next call ⟨ready, apart, before⟩
    have calm := placeQueued_calm call
    exact ⟨ready.calm calm, apart.calm ready calm, placeQueued_occupancy ready apart before call⟩
  exact whole.2.2

/-! Answers and timeouts. -/

theorem Occupancy.drop (key : String) (occupancy : Occupancy p)
    (queue : ∀ other, q.queue.lookup other = if other = key then none else p.queue.lookup other)
    (modules : ∀ identity new, q.modules.lookup identity = some new →
      ∃ old, p.modules.lookup identity = some old ∧
        (new = old ∧ (new.needRestart = false → ¬ RoutedTo p identity key) ∨
          new.state = .idle ∧ ∀ other, RoutedTo p identity other → other = key)) :
    Occupancy q := by
  have routes : ∀ identity other, RoutedTo q identity other ↔
      other ≠ key ∧ RoutedTo p identity other := by
    intro identity other
    simp only [RoutedTo, queue]
    by_cases here : other = key
    · simp [here]
    · simp [here]
  constructor
  · intro identity new found
    obtain ⟨old, before, ⟨rfl, _⟩ | ⟨idle, _⟩⟩ := modules identity new found
    · exact occupancy.states identity new before
    · exact Or.inl idle
  · intro identity new found needed isBusy
    obtain ⟨old, before, ⟨rfl, spared⟩ | ⟨idle, _⟩⟩ := modules identity new found
    · obtain ⟨only, routed, unique⟩ := occupancy.busy identity new before needed isBusy
      refine ⟨only, (routes identity only).mpr ⟨?_, routed⟩, ?_⟩
      · rintro rfl
        exact spared needed routed
      · intro other given
        exact unique other ((routes identity other).mp given).2
    · simp [isBusy] at idle
  · intro identity new found needed isFree other given
    obtain ⟨different, routed⟩ := (routes identity other).mp given
    obtain ⟨old, before, ⟨rfl, _⟩ | ⟨_, alone⟩⟩ := modules identity new found
    · exact occupancy.free identity new before needed isFree other routed
    · exact different (alone other routed)
  · intro other call via found routed member
    rw [queue] at found
    split at found
    · cases found
    · obtain ⟨new, registered⟩ := ZHash.lookup_of_mem member
      obtain ⟨old, before, _⟩ := modules via new registered
      exact occupancy.stamped other call via found routed (ZHash.mem_of_lookup before)
  · intro other call found none
    rw [queue] at found
    split at found
    · cases found
    · exact occupancy.waiting other call found none

theorem answerCaller_eq (stored : Message) (payload : Object) (p : Proxy) :
    answerCaller env stored payload p = { p with
      queue := p.queue.erase stored.actionid
      sent := (answerCaller env stored payload p).sent } := by
  simp only [answerCaller, Proxy.deleteCall]
  rw [sendMessage_eq]

theorem answerFabric_eq (stored : Message) (payload : Object) (p : Proxy) :
    answerFabric env stored payload p = { p with
      queue := p.queue.erase stored.actionid
      sent := (answerFabric env stored payload p).sent } := by
  unfold answerFabric
  split
  · simp only [Proxy.deleteCall]
    rw [sendMessage_eq]
  · rfl

theorem Returned.same {middle : Proxy} (returned : Returned env message stored p middle) :
    middle = { p with queue := p.queue.erase stored.actionid, sent := middle.sent } := by
  cases returned with
  | caller own => exact answerCaller_eq _ _ p
  | fabric foreign near => exact answerFabric_eq _ _ p
  | nowhere foreign far => rfl

theorem processResult_answer (isResult : message.command = "result")
    (queued : p.queue.lookup message.actionid = some stored)
    (run : processResult env message p = .ok q) : AnswerCases env message stored p q := by
  rcases processResult_ok run with ⟨unqueued, _⟩ | ⟨other, middle, found, returned, ends⟩
  · rw [queued] at unqueued
    cases unqueued
  · cases queued.symm.trans found
    refine .settled (Or.inl isResult) returned.same (fun near => ?_) fun far => ?_
    · simpa [near] using ends
    · simpa [far] using ends

theorem processException_answer (isException : message.command = "exception")
    (queued : p.queue.lookup message.actionid = some stored)
    (run : processException env message p = .ok q) : AnswerCases env message stored p q := by
  rcases processException_ok run with ⟨same, ignored⟩ | ⟨other, found,
    ⟨far, _, _, rc, placement⟩ | ⟨middle, returned, ⟨near, run, member⟩ | ⟨far, same, other⟩⟩⟩
  · exact .unheard (ignored stored queued).2.2 same
  · exact .placed far placement
  · cases queued.symm.trans found
    have settles : Settles message stored p :=
      Or.inr ⟨isException, fun _ => member, by simp [near]⟩
    exact .settled settles returned.same (fun _ => run) (by simp [near])
  · cases queued.symm.trans found
    have settles : Settles message stored p :=
      Or.inr ⟨isException, by simp [far], fun _ => other⟩
    exact .settled settles returned.same (by simp [far]) fun _ => same

theorem putBack_occupancy (registry : Registry p) (separated : Separated p)
    (occupancy : Occupancy p) {middle : Proxy}
    (same : middle = { p with queue := p.queue.erase key, sent := middle.sent })
    (spares : ∀ via mod, p.modules.lookup via = some mod → mod.needRestart = false →
      RoutedTo p via key → via = identity)
    (alone : ∀ mod, p.modules.lookup identity = some mod → mod.needRestart = false →
      ∀ other, RoutedTo p identity other → other = key)
    (run : putBack env identity middle = .ok q) : Occupancy q := by
  have modules : middle.modules = p.modules := by rw [same]
  have queue : ∀ other, middle.queue.lookup other =
      if other = key then none else p.queue.lookup other := by
    intro other
    rw [same]
    exact ZHash.lookup_erase _ _ _
  have calm : Calm p middle := by
    rw [same]
    exact (Calm.deleteCall key p).trans ⟨rfl, Proxy.SameHeap.refl _, rfl, rfl, rfl, fun _ => rfl,
      fun _ call found => ⟨call, found, .refl call⟩⟩
  have back := putBack_ok run
  rw [modules] at back
  rcases back with ⟨absent, rfl⟩ | ⟨mod, found, ⟨needed, rfl⟩ | ⟨unneeded, run⟩⟩
  · refine occupancy.drop key queue fun via mod found => ⟨mod, modules ▸ found, Or.inl ⟨rfl, ?_⟩⟩
    intro needed routed
    rw [modules] at found
    rw [spares via mod found needed routed, absent] at found
    cases found
  · refine occupancy.drop key queue fun via other there => ⟨other, modules ▸ there, Or.inl ⟨rfl, ?_⟩⟩
    intro unneeded routed
    replace there : p.modules.lookup via = some other := modules ▸ there
    rw [spares via other there unneeded routed, found] at there
    cases there
    simp [unneeded] at needed
  · have card : Module.card { mod with state := .idle } = mod.card := rfl
    have freed : Calm p (middle.setModule identity { mod with state := .idle }) :=
      calm.trans (.setModule (modules ▸ found) card)
    have member : identity ∈ p.modules := ZHash.mem_of_lookup found
    refine placeAll_occupancy (registry.calm freed) (separated.calm registry freed) ?_ run
    refine occupancy.drop key queue fun via new there => ?_
    rw [setModule_modules, modules, ZHash.lookup_update member] at there
    split at there
    · rename_i here
      cases there
      exact ⟨mod, here ▸ found, Or.inr ⟨rfl, here ▸ alone mod found unneeded⟩⟩
    · rename_i different
      exact ⟨new, there, Or.inl ⟨rfl, fun unneeded routed =>
        different (spares via new there unneeded routed)⟩⟩

theorem AnswerCases.occupancy (registry : Registry p) (separated : Separated p)
    (occupancy : Occupancy p) (queued : p.queue.lookup message.actionid = some stored)
    (guarded : Settles message stored p →
      (∀ via mod, stored.routedVia = some via → p.modules.lookup via = some mod →
        mod.needRestart = false → message.isLocal = true ∧ via = message.identity) ∧
      ∀ mod, message.isLocal = true → p.modules.lookup message.identity = some mod →
        mod.needRestart = false → ∀ key, RoutedTo p message.identity key → key = message.actionid)
    (answer : AnswerCases env message stored p q) : Occupancy q := by
  have actionid := (registry.calls _ _ queued).actionid
  cases answer with
  | unheard _ same => exact same ▸ occupancy
  | placed _ placement => exact placeQueued_occupancy registry separated occupancy placement
  | @settled middle settles same back foreign =>
      obtain ⟨spares, alone⟩ := guarded settles
      rw [actionid] at same
      have routed : ∀ via, RoutedTo p via message.actionid → stored.routedVia = some via := by
        rintro via ⟨call, found, given⟩
        rw [queued] at found
        cases found
        exact given
      cases isLocal : message.isLocal with
      | true =>
          exact putBack_occupancy registry separated occupancy same
            (fun via mod found needed given => (spares via mod (routed via given) found needed).2)
            (fun mod => alone mod isLocal) (back isLocal)
      | false =>
          rw [foreign isLocal, same]
          refine occupancy.drop message.actionid (fun other => ZHash.lookup_erase _ _ _) fun via mod found =>
            ⟨mod, found, Or.inl ⟨rfl, fun needed given => ?_⟩⟩
          have sender := (spares via mod (routed via given) found needed).1
          simp [isLocal] at sender

theorem processQueueItem_occupancy (occupancy : Occupancy p)
    (guarded : conf.debug = true → ∀ call via mod, p.queue.lookup key = some call →
      processTimedOut conf env call = true → call.routedVia = some via →
      p.modules.lookup via = some mod → mod.needRestart = true)
    (registry : Registry p) (run : processQueueItem conf env key p = .ok q) : Occupancy q := by
  rcases processQueueItem_ok run with ⟨same, _⟩ | ⟨call, msg, queued, expired, same⟩
  · exact same ▸ occupancy
  · rw [same]
    -- a call that a module has can only run out of its processing time
    have stuck : ∀ via, call.routedVia = some via → via ∈ p.modules →
        processTimedOut conf env call = true := by
      intro via routed member
      obtain ⟨started, notOut⟩ := occupancy.stamped key call via queued routed member
      by_contra inTime
      simp [timeoutException, inTime, outTimedOut, notOut, inTimedOut, started] at expired
    have given : ∀ via, RoutedTo p via key → call.routedVia = some via := by
      rintro via ⟨other, found, routed⟩
      rw [queued] at found
      cases found
      exact routed
    cases removed : stuckModule conf env call p with
    | none =>
        rw [unstuck_none removed]
        refine occupancy.drop key (fun other => ?_) fun via mod found =>
          ⟨mod, by simpa using found, Or.inl ⟨rfl, fun needed routed => ?_⟩⟩
        · rw [deleteCall_queue, sendMessage_queue]
          exact ZHash.lookup_erase _ _ _
        · rw [deleteCall_modules, sendMessage_modules] at found
          have late := stuck via (given via routed) (ZHash.mem_of_lookup found)
          cases debug : conf.debug with
          | true =>
              have restarts := guarded debug call via mod queued late (given via routed) found
              simp [needed] at restarts
          | false => simp [stuckModule, late, debug, given via routed, found] at removed
    | some gone =>
        obtain ⟨_, via, routed, there⟩ := stuckModule_some removed
        have keyed := registry.moduleKey via gone there
        rw [unstuck_some removed]
        refine occupancy.drop key (fun other => ?_) fun identity mod found => ?_
        · rw [deleteCall_queue, sendMessage_queue]
          exact ZHash.lookup_erase _ _ _
        · rw [deleteCall_modules, sendMessage_modules] at found
          obtain ⟨different, old⟩ := ZHash.lookup_erase_some.mp found
          refine ⟨mod, old, Or.inl ⟨rfl, fun _ again => ?_⟩⟩
          have same := (given identity again).symm.trans routed
          cases same
          exact different keyed.symm

/-! Calls, introductions and notifications. -/

theorem PlaceOutcome.sentAtOnce {call : Message} {via : String} (registry : Registry p)
    (separated : Separated p) (arrives : call.iface = none ∧ call.globals = none)
    (unrouted : call.routedVia = none) (outcome : PlaceOutcome env call p 0 placed q)
    (routed : placed.routedVia = some via) (member : via ∈ p.modules) : SentAtOnce p call := by
  obtain ⟨iface, on, chosen⟩ := outcome.chosen unrouted
  rcases on.binds with assigned | ⟨_, module, function, named, called, found⟩
  · simp [arrives.1] at assigned
  · rcases chosen with choice | ⟨_, routes, _⟩
    · obtain ⟨head, rest, mod, locals, there, target⟩ := choice.head registry separated
      rw [routed] at target
      split at target
      · rename_i idle
        exact ⟨module, function, iface, head, rest, mod, named, called, found, locals, there, idle⟩
      · cases target
    · obtain ⟨_, globals, copies, listed⟩ := routes via routed
      have endpoint := on.endpoints separated (by simp [arrives.2]) copies via listed
      exact absurd endpoint (separated.modules via member)

theorem processCall_occupancy (registry : Registry p) (separated : Separated p)
    (occupancy : Occupancy p) (iface : message.iface = none) (globals : message.globals = none)
    (unrouted : message.routedVia = none) (stamp : message.outTimestamp = 0)
    (fresh : ∀ call, readCall message = .ok call → call.wellFormedCall = true →
      message.actionid ∈ p.queue → ¬ SentAtOnce p call)
    (run : processCall env message p = .ok q) : Occupancy q := by
  obtain ⟨call, parsed, ⟨_, rfl⟩ | ⟨shaped, rc, placed, middle, placement, ends⟩⟩ :=
    processCall_ok run
  · refine occupancy.frame (fun other => ?_) fun identity mod found => ?_
    · rw [refuse, sendMessage_queue]
    · rwa [refuse, sendMessage_modules] at found
  · have same := readCall_ok parsed
    have callUnrouted : call.routedVia = none := by
      rw [same]
      exact unrouted
    have callGlobals : call.globals = none := by
      rw [same]
      exact globals
    have outcome := placeCall_outcome placement
    have queue := outcome.calm.2
    rcases ends with ⟨rejected, rfl⟩ | ⟨bound, _, rfl⟩
    · have modules : middle.modules = p.modules := by
        cases outcome with
        | rejected => rfl
        | routed => rfl
        | waiting _ _ _ _ _ modules => exact modules
        | toFabric _ _ _ _ _ _ modules => exact modules
        | toModule _ _ routed => simp [routed] at rejected
      refine occupancy.frame (fun other => ?_) fun identity mod found => ?_
      · rw [refuse, sendMessage_queue, queue]
      · rwa [refuse, sendMessage_modules, modules] at found
    · rw [outcome.code bound] at outcome
      have taken := outcome.taken registry separated (by simp [callGlobals]) callUnrouted
      have actionid : placed.actionid = message.actionid := by
        rw [outcome.carried.same, same]
      by_cases queued : message.actionid ∈ p.queue
      · have sent := fresh call parsed shaped queued
        have modules : middle.modules = p.modules := by
          cases taken with
          | waits _ _ modules => exact modules
          | toFabric _ _ modules => exact modules
          | toModule routed _ _ there =>
              refine absurd (outcome.sentAtOnce registry separated ⟨?_, callGlobals⟩
                callUnrouted routed (ZHash.mem_of_lookup there)) sent
              rw [same]
              exact iface
        refine occupancy.frame (fun other => ?_) fun identity mod found => modules ▸ found
        rw [enqueue, ZHash.lookup_insertNew, queue, actionid]
        simp [queued]
      · have places : Places message.actionid placed p (enqueue placed middle) := by
          refine ⟨fun old found => absurd (ZHash.mem_of_lookup found) queued, fun other => ?_⟩
          rw [enqueue, ZHash.lookup_insertNew, queue, actionid]
          simp [queued]
        refine occupancy.place taken ?_ places rfl
        rw [same]
        exact stamp

theorem Introduces.occupancy {name : String} {pid : Int32} {desc : Option String}
    {provides : ZHash Unpacked} {middle : Proxy} (registry : Registry p)
    (introduces : Introduces env message name pid desc provides p middle q)
    (newcomer : message.identity ∉ p.modules → ∀ key, ¬ RoutedTo p message.identity key)
    (occupancy : Occupancy p) : Occupancy q := by
  have kept := (introduces.extends registry).same
  have queue : ∀ key, q.queue.lookup key = p.queue.lookup key := by
    intro key
    rw [introduces.registers, sendMessage_queue, registerModule, zstrSend_queue, kept]
    rfl
  have modules : ∀ identity new, q.modules.lookup identity = some new →
      p.modules.lookup identity = some new ∨ new.state = .idle ∧ ∀ key, ¬ RoutedTo p identity key := by
    intro identity new found
    rw [introduces.registers, sendMessage_modules] at found
    have before : ∀ mod, (zstrSend (.register (decimal pid.toInt) name) middle).modules.lookup
        identity = some mod → p.modules.lookup identity = some mod := by
      intro mod there
      rw [zstrSend_modules, kept] at there
      exact there
    rcases lookup_registerModule found with old | ⟨here, absent, rfl⟩
    · exact Or.inl (before new old)
    · refine Or.inr ⟨rfl, ?_⟩
      have same : identity = message.identity := here
      rw [same] at absent ⊢
      refine newcomer fun member => absent ?_
      rw [zstrSend_modules, kept]
      exact member
  constructor
  · intro identity new found
    rcases modules identity new found with old | ⟨idle, _⟩
    · exact occupancy.states identity new old
    · exact Or.inl idle
  · intro identity new found needed isBusy
    rcases modules identity new found with old | ⟨idle, _⟩
    · simp only [routedTo_congr queue]
      exact occupancy.busy identity new old needed isBusy
    · simp [isBusy] at idle
  · intro identity new found needed isFree key
    rw [routedTo_congr queue]
    rcases modules identity new found with old | ⟨_, none⟩
    · exact occupancy.free identity new old needed isFree key
    · exact none key
  · intro key call via found routed member
    rw [queue] at found
    obtain ⟨new, registered⟩ := ZHash.lookup_of_mem member
    rcases modules via new registered with old | ⟨_, none⟩
    · exact occupancy.stamped key call via found routed (ZHash.mem_of_lookup old)
    · exact absurd ⟨call, found, routed⟩ (none key)
  · intro key call found unrouted
    exact occupancy.waiting key call (queue key ▸ found) unrouted

theorem noticed_occupancy {command : String} {mod : Module} (occupancy : Occupancy p)
    (found : p.modules.lookup key = some mod) (run : noticed command key mod p = .ok q) :
    Occupancy q := by
  by_cases remove : command = "remove"
  · subst remove
    rw [noticed_removes run]
    exact occupancy.frame (fun _ => rfl) fun identity other there =>
      (ZHash.lookup_erase_some.mp there).2
  · have changed : ∀ new : Module, new.state = mod.state ∨ mod.state = .idle ∧ new.state = .restarting →
        (new.needRestart = false → mod.needRestart = false) → Occupancy (p.setModule key new) := by
      intro new state needed
      refine occupancy.keep (fun _ => rfl) fun identity other there => ?_
      rw [setModule_modules, ZHash.lookup_update (ZHash.mem_of_lookup found)] at there
      split at there
      · rename_i here
        cases there
        exact ⟨mod, here ▸ found, state, needed⟩
      · exact ⟨other, there, Or.inl rfl, id⟩
    rw [noticed_keeps run remove]
    split
    · split
      · rename_i idle
        have restarting := changed { mod with state := .restarting } (Or.inr ⟨idle, rfl⟩) id
        exact restarting.frame (fun _ => rfl) fun _ _ => id
      · exact changed _ (Or.inl rfl) (by simp)
    · exact occupancy

theorem processRequest_frame (run : processRequest env message p = .ok q) :
    q = { p with sent := q.sent } := by
  rcases processRequest_ok run with rfl | ⟨msg, fab, _, _, rfl⟩
  · rfl
  · exact sendMessage_eq _ _ _ _ p

theorem Occupancy.arrived (occupancy : Occupancy p) (message : Message) :
    Occupancy (p.arrived message) :=
  occupancy.frame (fun _ => by rw [arrived_queue]) fun _ _ found => by
    rwa [arrived_modules] at found

theorem routedTo_arrived (message : Message) (identity key : String) :
    RoutedTo (p.arrived message) identity key ↔ RoutedTo p identity key :=
  routedTo_congr (fun _ => by rw [arrived_queue]) identity key

theorem settles_arrived (message stored : Message) (p : Proxy) :
    Settles message stored (p.arrived message) ↔ Settles message stored p := by
  simp [Settles]

theorem Occupancy.step (registry : Registry p) (separated : Separated p)
    (occupancy : Occupancy p) (allowed : OneCallEach conf p (env, event))
    (run : p.step conf env event = .ok q) : Occupancy q := by
  cases step_handled run with
  | unreadable _ same => exact same ▸ occupancy
  | @command message read commanded =>
      have arrives := Event.message_arrives read
      have ready := registry.arrived message
      have apart := separated.arrived message
      have before := occupancy.arrived message
      have answered : ∀ stored, (p.arrived message).queue.lookup message.actionid = some stored →
          AnswerCases env message stored (p.arrived message) q → Occupancy q := by
        intro stored queued answer
        refine answer.occupancy ready apart before queued fun settles => ?_
        simp only [routedTo_arrived, arrived_modules]
        rw [arrived_queue] at queued
        exact allowed.answer message stored read queued ((settles_arrived _ _ _).mp settles)
      cases commanded with
      | ignored _ same => exact same ▸ before
      | request _ requested =>
          rw [processRequest_frame requested]
          exact before.frame (fun _ => rfl) fun _ _ => id
      | result isResult finished =>
          cases queued : (p.arrived message).queue.lookup message.actionid with
          | some stored => exact answered stored queued (processResult_answer isResult queued finished)
          | none =>
              simp only [processResult, queued] at finished
              rw [(processIfaceList_extends ready finished).same]
              exact before.frame (fun _ => rfl) fun _ _ => id
      | call isCall called =>
          refine processCall_occupancy ready apart before arrives.iface arrives.globals
            arrives.routedVia arrives.outTimestamp (fun call parsed shaped queued sent => ?_) called
          rw [arrived_queue] at queued
          exact allowed.fresh message call read isCall parsed shaped queued (by
            simpa [SentAtOnce] using sent)
      | exception isException failed =>
          cases queued : (p.arrived message).queue.lookup message.actionid with
          | some stored =>
              exact answered stored queued (processException_answer isException queued failed)
          | none =>
              simp only [processException, queued] at failed
              split at failed
              · cases failed
              · cases failed
                exact before
      | introduce isIntroduce introduction =>
          rcases processIntroduce_ok introduction with asked | ⟨accepted, _, _, _, _, _, introduces⟩
          · rw [asked]
            exact before.frame (fun _ => rfl) fun _ _ => id
          · refine introduces.occupancy ready (fun absent key => ?_) before
            rw [routedTo_arrived]
            rw [arrived_modules] at absent
            exact allowed.newcomer message read isIntroduce accepted absent key
  | procman _ notified =>
      rcases sProcmanEvent_ok notified with same | ⟨key, mod, _, named, notice⟩
      · exact same ▸ occupancy
      · exact noticed_occupancy occupancy (namedModule_some named).1 notice
  | @queueItem key own run =>
      exact processQueueItem_occupancy occupancy
        (fun debug call via mod => allowed.timeout debug key call via mod own) registry run
  | @fabItem key _ run =>
      rcases getIfaceListEventItem_ok run with same | ⟨fab, _, ⟨_, same⟩ | ⟨_, same⟩⟩
      · exact same ▸ occupancy
      · rw [same]
        refine occupancy.frame (fun _ => ?_) fun _ _ found => ?_
        · rw [sendMessage_queue]
        · rwa [sendMessage_modules] at found
      · rw [same]
        exact occupancy.frame (fun _ => rfl) fun _ _ => id
  | beacon _ announced =>
      rcases sBeaconEvent_ok announced with same | ⟨identity, _, _, same⟩
      · exact same ▸ occupancy
      · rw [same]
        exact occupancy.frame (fun _ => rfl) fun _ _ => id

theorem occupancy_new : Occupancy proxyNew where
  states _ _ found := by cases found
  busy _ _ found := by cases found
  free _ _ found := by cases found
  stamped _ _ _ found := by cases found
  waiting _ _ found := by cases found

/-- While `actionid`s, identities and answers keep calls apart, and no module that
goes on working loses its call to a timeout, every module is busy exactly with
one queued call. -/
theorem occupied_reaches (reached : Reaches (fabric conf) (OneCallEach conf) p) : Occupied p := by
  have both : Separated p ∧ Occupancy p := by
    refine fabric_invariant (fun state => Separated state ∧ Occupancy state) reached
      ⟨separated_new, occupancy_new⟩ ?_
    rintro env event state next allowed move registry ⟨separated, occupancy⟩
    exact ⟨separated.step registry allowed.introductions move,
      occupancy.step registry separated allowed move⟩
  exact both.2.occupied

theorem oneCallEach_quiet (messages : ∀ key, event ≠ .queueItem key)
    (read : ∀ message ∈ event.message env p, message.isLocal = true ∧
      message.actionid ∉ p.queue ∧ p.queue.keys.length = 0) :
    OneCallEach conf p (env, event) where
  introductions message here _ _ := (read message here).1
  newcomer message here _ _ _ key := by
    rintro ⟨call, found, _⟩
    have member := AList.mem_keys.mp (ZHash.mem_of_lookup found)
    rw [List.length_eq_zero_iff.mp (read message here).2.2] at member
    cases member
  fresh message _ here _ _ _ queued := absurd queued (read message here).2.1
  answer message _ here found := absurd (ZHash.mem_of_lookup found) (read message here).2.1
  timeout _ key _ _ _ same := absurd same (messages key)

theorem occupied_called :
    let introduced := proxyNew.after plainConf early
      (.localMsg (introduceOf worker "mod" 77 [("f", 1)]) "yes")
    let called := introduced.after plainConf early
      (.localMsg (callOf caller "mod" "f" 1 "call-1") "")
    Occupied called := by
  intro introduced called
  have first : OneCallEach plainConf proxyNew
      (early, .localMsg (introduceOf worker "mod" 77 [("f", 1)]) "yes") :=
    oneCallEach_quiet (by simp) (by decide)
  have second : OneCallEach plainConf introduced
      (early, .localMsg (callOf caller "mod" "f" 1 "call-1") "") :=
    oneCallEach_quiet (by simp) (by decide)
  have reached : Reaches (fabric plainConf) (OneCallEach plainConf) introduced :=
    (Reaches.initial rfl).extend (.single first (step_after (by decide)))
  exact occupied_reaches (reached.extend (.single second (step_after (by decide))))

def AnswersGiven (p : Proxy) (label : Env × Event) : Prop :=
  ∀ message ∈ label.2.message label.1 p, message.command ∈ ["result", "exception"] →
    RoutedTo p message.identity message.actionid

def doubled : List (Env × Event) := [
  (early, .localMsg (introduceOf worker "mod" 77 [("f", 1)]) "yes"),
  (early, .localMsg (introduceOf caller "mod" 78 [("g", 1)]) "yes"),
  (early, .localMsg (callOf caller "mod" "f" 1 "call-1") ""),
  (early, .localMsg (callOf worker "mod" "g" 1 "call-1") "")]

theorem occupied_lost :
    ¬ ∀ conf p, Reaches (fabric conf) AnswersGiven p → Occupied p := by
  intro always
  have reached : Reaches (fabric plainConf) AnswersGiven (fabricAfter plainConf doubled) := by
    refine fabricAfter_reaches (fun label member state message read answers => ?_) (by decide)
    simp only [doubled, List.mem_cons, List.not_mem_nil, or_false] at member
    rcases member with rfl | rfl | rfl | rfl <;> cases read
    · exact absurd answers (by decide : cString "introduce" ∉ ["result", "exception"])
    · exact absurd answers (by decide : cString "introduce" ∉ ["result", "exception"])
    · exact absurd answers (by decide : cString "call" ∉ ["result", "exception"])
    · exact absurd answers (by decide : cString "call" ∉ ["result", "exception"])
  have registered : ∃ mod, (fabricAfter plainConf doubled).modules.lookup "0005060708" = some mod ∧
      mod.needRestart = false ∧ mod.state = .busy := ⟨_, rfl, rfl, rfl⟩
  obtain ⟨mod, found, needed, isBusy⟩ := registered
  obtain ⟨key, ⟨call, queued, routed⟩, _⟩ :=
    ((always plainConf _ reached _ mod found needed (by simp [isBusy])).1.mp isBusy)
  have elsewhere : ∀ key ∈ (fabricAfter plainConf doubled).queue.keys,
      ∀ call ∈ (fabricAfter plainConf doubled).queue.lookup key,
        call.routedVia ≠ some "0005060708" := by decide
  exact elsewhere key (AList.mem_keys.mp (ZHash.mem_of_lookup queued)) call queued routed

end

end ModBus
