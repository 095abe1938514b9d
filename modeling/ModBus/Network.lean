import ModBus.AtMostOnce
import ModBus.FailedLookup

/-! Fabrics that send each other messages. A call crosses one link at most: a
fabric sends on to others what its own modules call only. -/

namespace ModBus

open Libc Czmq Transition

/-- The frames of what one fabric has sent to another, under the endpoint of the
sender. What was sent may be lost, overtaken or delivered more than once. -/
def Arrives {Index : Type} (endpoint : Index → String) (net : Index → Proxy) (target : Index)
    (zmsg : List Frame) : Prop :=
  ∃ source, ∃ sent ∈ (net source).sent, ∃ frame data, sent.ok = true ∧
    sent.dest = .peer (endpoint target) ∧ cString frame.text = endpoint source ∧
    zmsg = [frame, ⟨data, some sent.payload⟩]

def Receives {Index : Type} (endpoint : Index → String) (net : Index → Proxy) (target : Index)
    (label : Env × Event) : Prop :=
  ∀ zmsg answer, label.2 = .globalMsg zmsg answer → Arrives endpoint net target zmsg

def fabrics {Index : Type} [DecidableEq Index] (conf : Index → Config)
    (endpoint : Index → String) : System (Index → Proxy) (Index × Env × Event) :=
  network (fun part => fabric (conf part)) (Receives endpoint)

def OneLink (sent : Sent) : Prop :=
  ∀ call peer, sent.cause.dispatched = some call → sent.dest = .peer peer → call.isLocal = true

structure Neighbour (p : Proxy) : Prop where
  registry : Registry p
  separated : Separated p
  sends : ∀ sent ∈ p.sent, NoIntroduction sent.payload ∧ OneLink sent
  plain : ∀ key call, p.queue.lookup key = some call → NoIntroduction call.object
  routed : ∀ key call, p.queue.lookup key = some call → call.isLocal = false →
    call.routedVia ≠ none

structure ForeignCall (env : Env) (event : Event) (p : Proxy) (message call : Message) :
    Prop where
  read : event.message env p = some message
  command : message.command = "call"
  foreign : message.isLocal = false
  parsed : readCall message = .ok call
  wellFormed : call.wellFormedCall = true

def Untaken (p : Proxy) (call : Message) : Prop :=
  ∀ module function iface head rest mod, call.module = some module →
    call.function = some function →
    checkInterface p.ifaces p.heap module function call.version = some iface →
    (p.heap iface).locals = head :: rest → p.modules.lookup head.text = some mod →
    mod.state ≠ .idle

def TurnedAway (conf : Config) (env : Env) (event : Event) (message : Message) (p : Proxy) :
    Prop :=
  ∃ q call, p.step conf env event = .ok q ∧ call.addr = message.addr ∧
    q.sent = p.sent ++ [⟨.reply call, .peer message.identity,
      messageException message.actionid "No modules found" modulesBusy, true⟩] ∧
    q.queue = p.queue

structure Refusable (env : Env) (message call : Message) (p : Proxy) : Prop where
  known : p.route message.identity = some (.peer message.identity)
  sends : env.zmsgSend p.sent.length = true
  scannable : CallSafe message p
  received : (receivedText call).length < 896
  unplaced : ∀ module function, call.module = some module → call.function = some function →
    checkInterface p.ifaces p.heap module function call.version = none →
    (unplacedText call).length < 896

section

variable {conf : Config} {env : Env} {event : Event} {p q : Proxy} {message call placed : Message}

theorem Separated.route {name peer : String} (separated : Separated p)
    (registered : name ∈ p.modules) : p.route name ≠ some (.peer peer) := by
  unfold Proxy.route
  split
  · cases listed : p.fabList.lookup name with
    | none => simp
    | some fab =>
        exact absurd (separated.fabrics name (ZHash.mem_of_lookup listed))
          (separated.modules name registered)
  · simp

/-- What goes to a fabric was chosen among the fabrics of the interface, which
is done for local calls only. -/
theorem PlaceOutcome.oneLink {rc : Int} (registry : Registry p) (separated : Separated p)
    (plain : NoIntroduction message.object) (outcome : PlaceOutcome env message p rc placed q) :
    Sends (fun sent => NoIntroduction sent.payload ∧ OneLink sent) p q := by
  refine outcome.sends ?_
  intro iface via sent on chosen routed dispatched route payload
  refine ⟨payload ▸ plain, ?_⟩
  intro call peer passed target
  rw [dispatched] at passed
  cases passed
  rw [target] at route
  rcases chosen with choice | ⟨_, routes, _⟩
  · obtain ⟨head, rest, mod, _, found, result⟩ := choice.head registry separated
    rw [routed] at result
    split at result
    · cases result
      exact absurd route (separated.route (ZHash.mem_of_lookup found))
    · cases result
  · rw [on.same]
    exact (routes via routed).1

theorem Neighbour.placesOnly (neighbour : Neighbour p) (message : Message) :
    PlacesOnly env (fun sent => NoIntroduction sent.payload ∧ OneLink sent)
      (p.arrived message) := by
  intro middle key queued rc placed after calm found outcome
  have registry := neighbour.registry.arrived message
  refine outcome.oneLink (registry.calm calm)
    ((neighbour.separated.arrived message).calm registry calm) ?_
  obtain ⟨before, earlier, carried⟩ := calm.queue key queued found
  rw [carried.same]
  exact neighbour.plain key before (by simpa using earlier)

theorem ofCall_plain (read : event.message env p = some message)
    (isCall : message.command = "call") (parsed : readCall message = .ok call) :
    NoIntroduction call.object := by
  have same : call.object = message.object := by rw [readCall_ok parsed]
  rw [same]
  exact noIntroduction_of_command (Event.message_command read) (by simp [isCall])

theorem Neighbour.step (neighbour : Neighbour p) (allowed : LocalIntroductions conf p (env, event))
    (run : p.step conf env event = .ok q) : Neighbour q where
  registry := neighbour.registry.step run
  separated := neighbour.separated.step neighbour.registry allowed run
  sends := by
    have sends : Sends (fun sent => NoIntroduction sent.payload ∧ OneLink sent) p q := by
      refine step_sends ?_ ?_ neighbour.registry neighbour.placesOnly ?_ run
      · intro sent undispatched _ plain
        refine ⟨plain, fun call peer passed => ?_⟩
        rw [undispatched] at passed
        cases passed
      · intro sent call answers plain
        refine ⟨plain, fun other peer passed => ?_⟩
        rw [answer_undispatched sent call answers] at passed
        cases passed
      · intro message call rc placed middle read isCall parsed outcome
        exact outcome.oneLink (neighbour.registry.arrived message)
          (neighbour.separated.arrived message) (ofCall_plain read isCall parsed)
    obtain ⟨more, grown, good⟩ := sends
    intro sent member
    rw [grown] at member
    rcases List.mem_append.mp member with earlier | later
    · exact neighbour.sends sent earlier
    · exact good sent later
  plain key call found := by
    rcases step_entry neighbour.registry run found with ⟨before, queued, carried⟩ |
      ⟨message, read, middle, arrived, isCall, parsed, placement, _⟩
    · rw [carried.same]
      exact neighbour.plain key before queued
    · have same : call.object = read.object := by rw [(placeCall_outcome placement).carried.same]
      rw [same]
      exact ofCall_plain arrived isCall parsed
  routed key call found foreign := by
    rcases step_entry neighbour.registry run found with ⟨before, queued, carried⟩ |
      ⟨message, read, middle, arrived, isCall, parsed, placement, accepted⟩
    · have foreign' : before.isLocal = false := by
        rw [carried.same] at foreign
        exact foreign
      cases routed : before.routedVia with
      | none => exact absurd routed (neighbour.routed key before queued foreign')
      | some via =>
          rw [carried.routed via routed, routed]
          simp
    · refine accepted.resolve_left ?_
      simp [foreign]

theorem Neighbour.taken {key : String} (neighbour : Neighbour p)
    (run : p.step conf env event = .ok q) (found : q.queue.lookup key = some placed)
    (foreign : placed.isLocal = false) :
    p.queue.lookup key = some placed ∨ ∃ via mod, placed.routedVia = some via ∧
      p.modules.lookup via = some mod ∧ mod.state = .idle := by
  rcases step_entry neighbour.registry run found with ⟨before, queued, carried⟩ |
    ⟨message, call, middle, read, _, parsed, placement, accepted⟩
  · have foreign' : before.isLocal = false := by
      rw [carried.same] at foreign
      exact foreign
    cases routed : before.routedVia with
    | none => exact absurd routed (neighbour.routed key before queued foreign')
    | some via => exact Or.inl (carried.routed via routed ▸ queued)
  · right
    have outcome := placeCall_outcome placement
    have unrouted : call.routedVia = none := by
      rw [readCall_ok parsed]
      exact (Event.message_arrives read).routedVia
    have callForeign : call.isLocal = false := by
      rw [outcome.carried.same] at foreign
      exact foreign
    obtain ⟨via, routed⟩ :=
      Option.ne_none_iff_exists'.mp (accepted.resolve_left (by simp [foreign]))
    obtain ⟨iface, on, chosen⟩ := outcome.chosen unrouted
    rcases chosen with choice | ⟨_, routes, _⟩
    · obtain ⟨head, rest, mod, _, registered, result⟩ :=
        choice.head (neighbour.registry.arrived message) (neighbour.separated.arrived message)
      rw [routed] at result
      split at result
      · rename_i idle
        cases result
        exact ⟨head.text, mod, routed, by simpa using registered, idle⟩
      · cases result
    · rw [(routes via routed).1] at callForeign
      cases callForeign

theorem PlaceOutcome.logs {rc : Int} (outcome : PlaceOutcome env call p rc placed q)
    (unplaced : ∀ module function, call.module = some module → call.function = some function →
      checkInterface p.ifaces p.heap module function call.version = none →
      (unplacedText call).length < 896)
    (rejected : rc = -1) : logPrint (unplacedText placed) = .ok (unplacedText placed) := by
  subst rejected
  cases outcome with
  | rejected _ _ named called absent =>
      exact sprintfTo_ok.mpr ⟨unplaced _ _ named called absent, rfl⟩

/-- What was logged by a handler that returns was no longer than its buffer. -/
theorem processCall_logged (unbound : call.iface = none) (unrouted : call.routedVia = none)
    (parsed : readCall message = .ok call) (wellFormed : call.wellFormedCall = true)
    (run : processCall env message p = .ok q) :
    (receivedText call).length < 896 ∧
      ∀ module function, call.module = some module → call.function = some function →
        checkInterface p.ifaces p.heap module function call.version = none →
        (unplacedText call).length < 896 := by
  unfold processCall at run
  simp only [parsed, wellFormed, if_true] at run
  split at run
  · cases run
  · rename_i logged
    refine ⟨(sprintfTo_ok.mp logged).1, ?_⟩
    intro module function named called absent
    have placement : placeCall env call p = .ok (-1, call, p) := by
      simp [placeCall, unrouted, assignIface, unbound, named, called, absent]
    simp only [placement, ne_eq, not_true_eq_false, if_false] at run
    split at run
    · cases run
    · rename_i fits
      exact (sprintfTo_ok.mp fits).1

theorem processCall_refuses (registry : Registry p) (separated : Separated p)
    (unset : Unset p) (fresh : message.iface = none) (unrouted : message.routedVia = none)
    (foreign : message.isLocal = false) (parsed : readCall message = .ok call)
    (wellFormed : call.wellFormedCall = true) (untaken : Untaken p call)
    (logs : (receivedText call).length < 896)
    (unplaced : ∀ module function, call.module = some module → call.function = some function →
      checkInterface p.ifaces p.heap module function call.version = none →
      (unplacedText call).length < 896)
    (places : processCall env message p ≠ .error .nullDeref) :
    ∃ placed middle, processCall env message p =
        .ok (refuse env placed "No modules found" modulesBusy middle) ∧
      placed.addr = message.addr ∧ placed.identity = message.identity ∧
      placed.actionid = message.actionid ∧ middle.sent = p.sent ∧ middle.queue = p.queue ∧
      middle.fabList = p.fabList := by
  have same := readCall_ok parsed
  have fresh' : call.iface = none := by rw [same]; exact fresh
  have unrouted' : call.routedVia = none := by rw [same]; exact unrouted
  have foreign' : call.isLocal = false := by rw [same]; exact foreign
  have rejects : ∀ iface placed middle via, PlacedOn call p iface placed middle →
      ChosenFrom call p iface placed → placed.routedVia = some via → False := by
    intro iface placed middle via on chosen routed
    rcases chosen with choice | ⟨_, routes, _⟩
    · obtain ⟨head, rest, mod, locals, found, result⟩ := choice.head registry separated
      rw [routed] at result
      split at result
      · rename_i idle
        rcases on.binds with assigned | ⟨_, module, function, named, called, bound⟩
        · rw [fresh'] at assigned
          cases assigned
        · exact untaken module function iface head rest mod named called bound locals found idle
      · cases result
    · rw [(routes via routed).1] at foreign'
      cases foreign'
  have received : logPrint (receivedText call) = .ok (receivedText call) :=
    sprintfTo_ok.mpr ⟨logs, rfl⟩
  unfold processCall at places ⊢
  simp only [parsed, wellFormed, if_true, received] at places ⊢
  cases placement : placeCall env call p with
  | error fault =>
      rw [placement] at places
      rcases (placeCall_fails env unset call).2 fault placement with rfl | ⟨_, _, misshapen⟩
      · exact absurd rfl places
      · rw [wellFormed] at misshapen
        cases misshapen
  | ok result =>
      obtain ⟨rc, placed, middle⟩ := result
      have outcome := placeCall_outcome placement
      have carried := outcome.carried.same
      have calm := outcome.calm
      have unsent : middle.sent = p.sent ∧ (rc ≠ -1 → placed.routedVia = none) := by
        cases outcome with
        | routed via => simp [unrouted'] at via
        | rejected => exact ⟨rfl, fun found => absurd rfl found⟩
        | waiting _ _ routed _ _ _ sent => exact ⟨sent, fun _ => routed⟩
        | toModule on chosen routed => exact (rejects _ _ _ _ on chosen routed).elim
        | toFabric on chosen routed => exact (rejects _ _ _ _ on chosen routed).elim
      refine ⟨placed, middle, ?_, ?_, ?_, ?_, unsent.1, calm.2, calm.1.fabList⟩
      · simp only []
        split
        · rename_i found
          have placedForeign : placed.isLocal = false := by rw [carried]; exact foreign'
          rw [if_pos (by simp [placedForeign, unsent.2 found])]
        · rename_i none
          rw [outcome.logs unplaced (not_not.mp none)]
      all_goals rw [carried, same]

theorem route_congr {r : Proxy} (fabrics : q.fabList = r.fabList) (identity : String) :
    q.route identity = r.route identity := by
  simp [Proxy.route, fabrics]

theorem arrived_route (message : Message) (identity : String) :
    (p.arrived message).route identity = p.route identity := by
  have same := mem_arrived_fabList (p := p) message identity
  unfold Proxy.route
  split
  · rw [← AList.lookup_isSome, ← AList.lookup_isSome] at same
    cases before : p.fabList.lookup identity <;>
      cases after : (p.arrived message).fabList.lookup identity <;> simp_all
  · rfl

theorem CallSafe.arrived : CallSafe message (p.arrived message) ↔ CallSafe message p := by
  simp only [CallSafe, Scannable, arrived_ifaces, arrived_heap, arrived_modules]

/-- A foreign call that nobody takes is answered exactly when it is answerable. -/
theorem Neighbour.turnedAway (neighbour : Neighbour p) (unset : Unset p)
    (brings : ForeignCall env event p message call) (untaken : Untaken p call) :
    TurnedAway conf env event message p ↔ Refusable env message call p := by
  have arrives := Event.message_arrives brings.read
  have ready : Unset (p.arrived message) := unset.same (arrived_heap message p)
  have runs : p.step conf env event = processCall env message (p.arrived message) := by
    simp [step_read brings.read, processCommand, brings.command]
  have safe : CallSafe message p ↔ p.step conf env event ≠ .error .nullDeref := by
    rw [runs, Ne, processCall_fails ready arrives.iface arrives.routedVia, not_not,
      CallSafe.arrived]
  have same := readCall_ok brings.parsed
  have refused : CallSafe message p → (receivedText call).length < 896 →
      (∀ module function, call.module = some module → call.function = some function →
        checkInterface p.ifaces p.heap module function call.version = none →
        (unplacedText call).length < 896) →
      ∃ placed middle, p.step conf env event =
        .ok (refuse env placed "No modules found" modulesBusy middle) ∧
      placed.addr = message.addr ∧ placed.identity = message.identity ∧
      placed.actionid = message.actionid ∧ middle.sent = p.sent ∧ middle.queue = p.queue ∧
      middle.fabList = (p.arrived message).fabList := by
    intro scannable logs unplaced
    rw [safe, runs] at scannable
    rw [runs]
    simpa using processCall_refuses (neighbour.registry.arrived message)
      (neighbour.separated.arrived message) ready arrives.iface arrives.routedVia brings.foreign
      brings.parsed brings.wellFormed (by simpa [Untaken] using untaken) logs
      (by simpa using unplaced) scannable
  constructor
  · rintro ⟨q, answered, run, _, sent, _⟩
    have scannable : CallSafe message p := safe.mpr (by simp [run])
    rw [runs] at run
    obtain ⟨logs, unplaced⟩ := processCall_logged (by rw [same]; exact arrives.iface)
      (by rw [same]; exact arrives.routedVia) brings.parsed brings.wellFormed run
    simp only [arrived_ifaces, arrived_heap] at unplaced
    obtain ⟨placed, middle, run', _, identity, actionid, kept, _, fabrics⟩ :=
      refused scannable logs unplaced
    rw [← runs, run'] at run
    cases run
    have origin : middle.route placed.identity = p.route message.identity := by
      rw [identity]
      exact (route_congr fabrics _).trans (arrived_route message _)
    unfold refuse at sent
    rcases sendMessage_cases env (.reply placed)
        (messageException placed.actionid "No modules found" modulesBusy) placed.identity middle
      with ⟨_, unsent⟩ | ⟨dest, route, sends⟩
    · rw [unsent, kept] at sent
      simp at sent
    · rw [sends, kept] at sent
      simp only [List.append_cancel_left_eq, List.cons.injEq, and_true, Sent.mk.injEq] at sent
      exact ⟨by rw [← origin, route, sent.2.1], sent.2.2.2, scannable, logs, unplaced⟩
  · intro answerable
    obtain ⟨placed, middle, run, addr, identity, actionid, kept, queue, fabrics⟩ :=
      refused answerable.scannable answerable.received answerable.unplaced
    have origin : middle.route placed.identity = some (.peer message.identity) := by
      rw [identity, ← answerable.known]
      exact (route_congr fabrics _).trans (arrived_route message _)
    have sends : refuse env placed "No modules found" modulesBusy middle = { middle with
        sent := middle.sent ++ [⟨.reply placed, .peer message.identity, messageException
          placed.actionid "No modules found" modulesBusy, true⟩] } := by
      simp [refuse, sendMessage, origin, kept, answerable.sends]
    refine ⟨_, placed, run, addr, ?_, ?_⟩
    · rw [sends, ← kept, actionid]
    · rw [sends, ← queue]

theorem neighbour_new : Neighbour proxyNew where
  registry := registry_new
  separated := separated_new
  sends _ member := by cases member
  plain _ _ found := by cases found
  routed _ _ found := by cases found

end

section

variable {Index : Type} {endpoint : Index → String} {net : Index → Proxy} {part : Index}

theorem Receives.localIntroductions {label : Env × Event} {conf : Config}
    (neighbours : ∀ other, Neighbour (net other)) (received : Receives endpoint net part label) :
    LocalIntroductions conf (net part) label := by
  obtain ⟨env, event⟩ := label
  intro message read isIntroduce _
  cases event with
  | localMsg =>
      obtain ⟨_, _, _, _, _, _, rfl⟩ := messageFromzmq_some (toOption_join read)
      rfl
  | globalMsg zmsg answer =>
      obtain ⟨source, sent, member, frame, data, _, _, _, rfl⟩ := received zmsg answer rfl
      have object : some sent.payload = some message.object :=
        messageFromzmq_object (toOption_join read)
      have plain := ((neighbours source).sends sent member).1
      rw [NoIntroduction, Option.some.inj object, Event.message_command read, isIntroduce] at plain
      exact absurd rfl plain
  | procman => cases read
  | queueItem => cases read
  | fabItem => cases read
  | beacon => cases read

variable [DecidableEq Index] {conf : Index → Config}
  {guard : (Index → Proxy) → Index × Env × Event → Prop} {env : Env} {event : Event} {p q : Proxy}
  {message call placed : Message}

theorem neighbours (reached : Reaches (fabrics conf endpoint) guard net) :
    ∀ part, Neighbour (net part) := by
  refine reached.network_invariant (fun _ => Neighbour) ?_ ?_
  · rintro part state rfl
    exact neighbour_new
  · rintro net part ⟨env, event⟩ next all received move
    exact (all part).step (received.localIntroductions all) move

def RoutedHome (conf : Index → Config) (endpoint : Index → String) (net : Index → Proxy)
    (part : Index) (call : Message) : Prop :=
  ∃ earlier via mod, Reaches (fabrics conf endpoint) anything earlier ∧
    Run (fabrics conf endpoint) anything earlier net ∧ call.routedVia = some via ∧
    (earlier part).modules.lookup via = some mod ∧ mod.state = .idle

structure StaysHome (conf : Index → Config) (endpoint : Index → String) (net : Index → Proxy)
    (part : Index) : Prop where
  routed : ∀ key call, (net part).queue.lookup key = some call → call.isLocal = false →
    RoutedHome conf endpoint net part call
  taken : ∀ env event q key call, Receives endpoint net part (env, event) →
    (net part).step (conf part) env event = .ok q → q.queue.lookup key = some call →
    call.isLocal = false → (net part).queue.lookup key = some call ∨
      ∃ via mod, call.routedVia = some via ∧ (net part).modules.lookup via = some mod ∧
        mod.state = .idle
  oneLink : ∀ sent ∈ (net part).sent, OneLink sent

theorem RoutedHome.later {next : Index → Proxy} (home : RoutedHome conf endpoint net part call)
    (run : Run (fabrics conf endpoint) anything net next) :
    RoutedHome conf endpoint next part call := by
  obtain ⟨earlier, via, mod, reached, before, routed⟩ := home
  exact ⟨earlier, via, mod, reached, before.trans run, routed⟩

theorem routedHome (reached : Reaches (fabrics conf endpoint) anything net) :
    ∀ part key call, (net part).queue.lookup key = some call → call.isLocal = false →
      RoutedHome conf endpoint net part call := by
  refine reached.invariant_reached (fun net =>
    ∀ part key call, (net part).queue.lookup key = some call → call.isLocal = false →
      RoutedHome conf endpoint net part call) ?_ ?_
  · intro net start part key call found
    rw [show net part = proxyNew from start part] at found
    cases found
  · rintro net ⟨mover, env, event⟩ next before _ move home part key call found foreign
    have run : Run (fabrics conf endpoint) anything net next := .single trivial move
    obtain ⟨_, after, moved, rfl⟩ := move
    by_cases moves : part = mover
    · subst moves
      rw [Function.update_self] at found
      rcases (neighbours before part).taken moved found foreign with queued |
        ⟨via, mod, routed, registered, idle⟩
      · exact (home part key call queued foreign).later run
      · exact ⟨net, via, mod, before, run, routed, registered, idle⟩
    · rw [Function.update_of_ne moves] at found
      exact (home part key call found foreign).later run

/-- Calls from other fabrics stay where they arrive, and those that nobody takes
are answered exactly when they are answerable. -/
theorem single_hop (reached : Reaches (fabrics conf endpoint) anything net) (part : Index) :
    StaysHome conf endpoint net part ∧ ∀ env event message call,
      ForeignCall env event (net part) message call → Untaken (net part) call →
      (TurnedAway (conf part) env event message (net part) ↔
        Refusable env message call (net part)) := by
  have neighbour := neighbours reached part
  refine ⟨⟨routedHome reached part, ?_, fun sent member => (neighbour.sends sent member).2⟩, ?_⟩
  · intro env event q key call _ run found foreign
    exact neighbour.taken run found foreign
  · intro env event message call brings untaken
    exact neighbour.turnedAway (unset_reaches (reached.network_part part)) brings untaken

end

/-! Two fabrics. -/

inductive Move
  | own (part : Bool) (env : Env) (event : Event)
  | relay (target : Bool) (env : Env)

def endpoints (part : Bool) : String :=
  if part then peerName else "tcp://10.0.0.1:49152"

def deliverable (net : Bool → Proxy) (target : Bool) : Bool :=
  match (net !target).sent.getLast? with
  | none => false
  | some sent => sent.ok && decide (sent.dest = .peer (endpoints target))

def lastFrames (net : Bool → Proxy) (target : Bool) : List Frame :=
  match (net !target).sent.getLast? with
  | none => []
  | some sent => [⟨bytesOf (endpoints !target), none⟩, ⟨[0x83], some sent.payload⟩]

def Move.label (net : Bool → Proxy) : Move → Option (Bool × Env × Event)
  | .own _ _ (.globalMsg _ _) => none
  | .own part env event => some (part, env, event)
  | .relay target env =>
      if deliverable net target then some (target, env, .globalMsg (lastFrames net target) "")
      else none

def play (net : Bool → Proxy) : List Move → Option (Bool → Proxy)
  | [] => some net
  | move :: moves =>
      match move.label net with
      | none => none
      | some (part, env, event) =>
          match (net part).step plainConf env event with
          | .error _ => none
          | .ok after => play (Function.update net part after) moves

theorem endpoints_frame (part : Bool) :
    cString (Frame.text ⟨bytesOf (endpoints part), none⟩) = endpoints part := by
  cases part <;> decide

theorem lastFrames_arrive {net : Bool → Proxy} {target : Bool}
    (delivers : deliverable net target = true) :
    Arrives endpoints net target (lastFrames net target) := by
  cases last : (net !target).sent.getLast? with
  | none => simp [deliverable, last] at delivers
  | some sent =>
      simp only [deliverable, last, Bool.and_eq_true, decide_eq_true_eq] at delivers
      refine ⟨!target, sent, List.mem_of_getLast? last, _, [0x83], delivers.1, delivers.2,
        endpoints_frame _, ?_⟩
      simp only [lastFrames, last]

theorem Move.receives {net : Bool → Proxy} {move : Move} {part : Bool} {label : Env × Event}
    (next : move.label net = some (part, label)) : Receives endpoints net part label := by
  intro zmsg answer global
  cases move with
  | own mover env event =>
      cases event with
      | globalMsg => cases next
      | localMsg => cases next; cases global
      | procman => cases next; cases global
      | queueItem => cases next; cases global
      | fabItem => cases next; cases global
      | beacon => cases next; cases global
  | relay target env =>
      simp only [Move.label] at next
      split at next
      · rename_i delivers
        cases next
        cases global
        exact lastFrames_arrive delivers
      · cases next

theorem play_run {net last : Bool → Proxy} {moves : List Move} (played : play net moves = some last) :
    Run (fabrics (fun _ => plainConf) endpoints) anything net last := by
  induction moves generalizing net with
  | nil =>
      cases played
      exact .refl _
  | cons move moves ih =>
      simp only [play] at played
      split at played
      · cases played
      · rename_i part env event label
        split at played
        · cases played
        · rename_i after moved
          have first : (fabrics (fun _ => plainConf) endpoints).step net (part, env, event)
              (Function.update net part after) := ⟨move.receives label, after, moved, rfl⟩
          exact Run.trans (.single trivial first) (ih played)

@[irreducible]
def fabricsAfter (moves : List Move) : Bool → Proxy :=
  (play (fun _ => proxyNew) moves).getD fun _ => proxyNew

theorem fabricsAfter_reaches {moves : List Move}
    (played : (play (fun _ => proxyNew) moves).isSome = true) :
    Reaches (fabrics (fun _ => plainConf) endpoints) anything (fabricsAfter moves) := by
  obtain ⟨last, same⟩ := Option.isSome_iff_exists.mp played
  rw [fabricsAfter, same]
  exact ⟨fun _ => proxyNew, fun _ => rfl, play_run same⟩

def bothProvide : List Move := [
  .own false early (.beacon ("modbus@" ++ peerName)),
  .own true early (.beacon "modbus@tcp://10.0.0.1:49152"),
  .own false early (.localMsg (introduceOf worker "mod" 77 [("f", 1)]) "yes"),
  .own true early (.localMsg (introduceOf worker "mod" 77 [("f", 1)]) "yes"),
  .own false early (.localMsg (callOf caller "mod" "f" 1 "call-1") ""),
  .own false early (.fabItem peerName), .relay true early, .relay false early,
  .own true early (.fabItem "tcp://10.0.0.1:49152"), .relay false early, .relay true early,
  .own true early (.procman "remove" "77"),
  .own true early (.localMsg (callOf caller "mod" "f" 1 "call-2") "")]

theorem bothProvide_reaches :
    Reaches (fabrics (fun _ => plainConf) endpoints) anything (fabricsAfter bothProvide) :=
  fabricsAfter_reaches (by decide +kernel)

theorem single_hop_bothProvide :
    StaysHome (fun _ => plainConf) endpoints (fabricsAfter bothProvide) false ∧
      ∀ env event message call,
        ForeignCall env event (fabricsAfter bothProvide false) message call →
        Untaken (fabricsAfter bothProvide false) call →
        (TurnedAway plainConf env event message (fabricsAfter bothProvide false) ↔
          Refusable env message call (fabricsAfter bothProvide false)) :=
  single_hop bothProvide_reaches false

/-- The call that is passed on meets an interface whose module is busy. -/
theorem bothProvide_passedOn :
    let net := fabricsAfter bothProvide
    let event := Event.globalMsg (lastFrames net false) ""
    deliverable net false = true ∧
      ((event.message early (net false)).any fun message =>
        match readCall message with
        | .error _ => false
        | .ok call => decide (message.command = "call" ∧ message.isLocal = false ∧
            call.wellFormedCall = true ∧ call.module = some "mod" ∧ call.function = some "f" ∧
            call.version = 1)) = true ∧
      checkInterface (net false).ifaces (net false).heap "mod" "f" 1 = some 3 ∧
      ((net false).heap 3).locals.map CStr.text = [strhex worker] ∧
      ((net false).modules.lookup (strhex worker)).map Module.state = some .busy ∧
      ((net false).step plainConf early event).toOption.isSome = false := by
  decide +kernel

/-- The call that the second fabric passes on ends the first one. -/
theorem foreign_call_unanswered :
    ¬ ∀ (Index : Type) [DecidableEq Index] (conf : Index → Config) (endpoint : Index → String) net
      part, Reaches (fabrics conf endpoint) anything net →
      StaysHome conf endpoint net part ∧ ∀ env event message call,
        Receives endpoint net part (env, event) →
        ForeignCall env event (net part) message call → Untaken (net part) call →
        TurnedAway (conf part) env event message (net part) := by
  intro always
  obtain ⟨delivers, fields, only, first, busy, ends⟩ := bothProvide_passedOn
  have received : Receives endpoints (fabricsAfter bothProvide) false
      (early, .globalMsg (lastFrames (fabricsAfter bothProvide) false) "") := by
    intro zmsg answer global
    cases global
    exact lastFrames_arrive delivers
  obtain ⟨message, read, fields⟩ := (Option.any_eq_true _ _).mp fields
  obtain ⟨call, parsed, isCall, foreign, wellFormed, module, function, version⟩ :
      ∃ call, readCall message = .ok call ∧ message.command = "call" ∧ message.isLocal = false ∧
        call.wellFormedCall = true ∧ call.module = some "mod" ∧ call.function = some "f" ∧
        call.version = 1 := by
    cases parsed : readCall message with
    | error => simp [parsed] at fields
    | ok call =>
        simp only [parsed, decide_eq_true_eq] at fields
        exact ⟨call, rfl, fields⟩
  have brings : ForeignCall early _ _ message call := ⟨read, isCall, foreign, parsed, wellFormed⟩
  have untaken : Untaken (fabricsAfter bothProvide false) call := by
    intro module' function' iface head rest mod named called bound locals registered idle
    rw [module] at named
    rw [function] at called
    cases named
    cases called
    rw [version, only] at bound
    cases bound
    rw [locals, List.map_cons, List.cons.injEq] at first
    rw [← first.1, registered, Option.map_some, idle] at busy
    cases busy
  obtain ⟨q, _, run, _⟩ := (always Bool (fun _ => plainConf) endpoints _ false
    bothProvide_reaches).2 early _ message call received brings untaken
  rw [run] at ends
  cases ends

end ModBus
