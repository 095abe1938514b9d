import ModBus.Failover
import ModBus.Replies

/-! What becomes of a call that arrives: its caller is refused, or the call is in
the queue, and on its way if somebody can take it. -/

namespace ModBus

open Libc Czmq Transition

structure Rejected (event : Event) (message : Message) (p q : Proxy) : Prop where
  told : ∃ send text code, q.sent = p.sent ++ [send] ∧ event.origin = some send.dest ∧
    send.payload = messageException message.actionid text code ∧ send.ok = true
  queue : q.queue = p.queue
  modules : q.modules = p.modules
  ifaces : q.ifaces = p.ifaces
  lists : p.SameHeap q

def WaitsLocally (placed : Message) (p q : Proxy) : Prop :=
  placed.isLocal = true ∧ placed.routedVia = none ∧ q.modules = p.modules ∧ q.sent = p.sent

def IsOnItsWay (message placed : Message) (p q : Proxy) : Prop :=
  ∃ via, placed.routedVia = some via ∧ SentOnce message via p q ∧
    (q.modules = p.modules ∨ ∃ mod, p.modules.lookup via = some mod ∧ mod.state = .idle ∧
      q.modules = ZHash.update p.modules via { mod with state := .busy })

structure Accepted (message : Message) (p q : Proxy) : Prop where
  noReply : Sends (fun sent => sent.cause.answers = none) p q
  queued : ∃ placed iface, q.queue.lookup message.actionid = some placed ∧
    placed.tag = message.tag ∧ placed.object = message.object ∧ placed.iface = some iface ∧
    (WaitsLocally placed p q ∨ IsOnItsWay message placed p q)

def lastIdle (p : Proxy) (ids : List String) : Option String :=
  ids.reverse.findSome? fun id => (p.modules.lookup id).bind fun mod =>
    if mod.state = .idle then some mod.identity.text else none

def Proxy.target (p : Proxy) (iface : Addr) (isLocal : Bool) : Option String :=
  match (p.heap iface).locals, (p.heap iface).globals with
  | head :: _, globals => lastIdle p ((head :: globals).map CStr.text)
  | [], globals =>
      if isLocal then (globals[1]?.or globals.head?).map CStr.text else none

inductive Addressee
  | caller
  | provider (via : String)
  deriving DecidableEq

def addressee (p : Proxy) (call : Message) : Option Addressee :=
  match call.module, call.function with
  | some module, some function =>
      if call.version = 0 then some .caller
      else
        match checkInterface p.ifaces p.heap module function call.version with
        | none => some .caller
        | some iface =>
            match p.target iface call.isLocal with
            | some via => some (.provider via)
            | none => if call.isLocal then none else some .caller
  | _, _ => some .caller

def Sendable (env : Env) (p : Proxy) (via : String) : Prop :=
  p.route via ≠ none ∧ env.zmsgSend p.sent.length = true

def Reachable (env : Env) (p : Proxy) (message : Message) : Addressee → Prop
  | .caller => KnownOrigin p message ∧ env.zmsgSend p.sent.length = true
  | .provider via => Sendable env p via

section

variable {conf : Config} {env : Env} {event : Event} {start p q : Proxy}
  {message call placed : Message} {iface : Addr}

theorem LastIdle.lastIdle {ids : List String} {via : String} (last : LastIdle p ids via) :
    lastIdle p ids = some via := by
  obtain ⟨before, id, after, mod, rfl, found, idle, named, none⟩ := last
  have nobody : after.reverse.findSome? (fun id => (p.modules.lookup id).bind fun mod =>
      if mod.state = .idle then some mod.identity.text else Option.none) = Option.none := by
    rw [List.findSome?_eq_none_iff]
    intro other member
    cases registered : p.modules.lookup other with
    | none => rfl
    | some mod =>
        have busy : mod.state ≠ .idle := fun idle =>
          none other (List.mem_reverse.mp member) ⟨mod, registered, idle⟩
        simp [busy]
  simp [ModBus.lastIdle, List.reverse_append, List.findSome?_append, nobody, found, idle, named]

theorem lastIdle_idleless {ids : List String} (none : ∀ id ∈ ids, ¬ IdleModule p id) :
    lastIdle p ids = Option.none := by
  unfold lastIdle
  rw [List.findSome?_eq_none_iff]
  intro other member
  cases registered : p.modules.lookup other with
  | none => rfl
  | some mod =>
      have busy : mod.state ≠ .idle := fun idle =>
        none other (List.mem_reverse.mp member) ⟨mod, registered, idle⟩
      simp [busy]

theorem fabricsPassed_unset (unset : Unset p) (call : Message) (iface : Addr) :
    fabricsPassed call (p.heap iface) = (p.heap iface).globals.map CStr.text := by
  unfold fabricsPassed
  split
  · rfl
  · rw [ZList.drain_unset (unset iface)]
    rfl

theorem assignIface_copies {bound : Message} {middle : Proxy} (unbound : call.iface = none)
    (uncopied : call.globals = none)
    (run : assignIface call p = .ok (some (iface, bound, middle))) :
    bound.isLocal = call.isLocal ∧ bound.globals =
      if call.isLocal = true ∧ (p.heap iface).globals ≠ [] then
        some ⟨(p.heap iface).globals.map CStr.text, some 0⟩
      else none := by
  simp only [assignIface, unbound] at run
  split at run
  · split at run
    · cases run
    · rename_i found _
      split at run
      · rename_i copies
        cases run
        rw [Bool.and_eq_true] at copies
        have more : (p.heap iface).idGlobalList.items ≠ [] :=
          List.length_pos_iff.mp (of_decide_eq_true copies.2)
        refine ⟨rfl, ?_⟩
        rw [if_pos ⟨copies.1, more⟩]
        simp only [ZList.walk_eq, ZList.first, Iface.globals, List.isEmpty_iff, List.map_eq_nil_iff]
        rw [if_neg more]
      · rename_i copiesNot
        cases run
        refine ⟨rfl, ?_⟩
        rw [if_neg, uncopied]
        rintro ⟨isLocal, more⟩
        rw [isLocal, Bool.true_and] at copiesNot
        exact copiesNot (decide_eq_true (List.length_pos_iff.mpr more))
  · cases run

theorem chooseRoute_nobody {bound chosen : Message} {last : Proxy} {items : List String}
    (nobody : (p.heap iface).locals = [])
    (globals : bound.globals = if bound.isLocal = true ∧ items ≠ [] then some ⟨items, some 0⟩ else none)
    (unrouted : bound.routedVia = none)
    (run : chooseRoute iface bound p = .ok (chosen, last)) :
    chosen.routedVia = if bound.isLocal then items[1]?.or items.head? else none := by
  have empty : ¬ 0 < (p.heap iface).idLocalList.size := by
    have items : (p.heap iface).idLocalList.items = [] := nobody
    simp [ZList.size, items]
  simp only [chooseRoute, if_neg empty, globals] at run
  cases isLocal : bound.isLocal with
  | false =>
      simp only [isLocal, Bool.false_eq_true, false_and, if_false] at run ⊢
      cases run
      exact unrouted
  | true =>
      cases items with
      | nil =>
          simp [isLocal] at run ⊢
          obtain ⟨rfl, _⟩ := run
          exact unrouted
      | cons first rest =>
          have more : 0 < (⟨first :: rest, some 0⟩ : ZList String).size := Nat.succ_pos _
          simp only [isLocal, true_and, ne_eq, reduceCtorEq, not_false_eq_true, if_true, if_pos more,
            ZList.next] at run ⊢
          cases second : (first :: rest)[0 + 1]? with
          | none =>
              rw [second] at run
              cases run
              simp
          | some via =>
              rw [second] at run
              cases run
              simp

theorem scanIdle_lastIdle {ids : List String} {via : Option String}
    (scan : scanIdle p.modules ids none = .ok via) : via = lastIdle p ids := by
  have registered := scanIdle_ok scan
  rcases lastIdle_or_idleless p ids with ⟨chosen, last⟩ | none
  · rw [last.scan registered, Except.ok.injEq] at scan
    rw [last.lastIdle, scan]
  · rw [scanIdle_idleless registered none, Except.ok.injEq] at scan
    rw [lastIdle_idleless none, scan]

theorem placeCall_target {rc : Int} (unset : Unset p) (unrouted : call.routedVia = none)
    (unbound : call.iface = none) (uncopied : call.globals = none) (binds : Binds call p iface)
    (run : placeCall env call p = .ok (rc, placed, q)) :
    placed.routedVia = p.target iface call.isLocal := by
  cases locals : (p.heap iface).locals with
  | cons head rest =>
      have scans := placeCall_scans env unrouted binds locals
      simp only [Proxy.target, locals, List.map_cons]
      rw [fabricsPassed_unset unset] at scans
      cases scan : scanIdle p.modules (head.text :: (p.heap iface).globals.map CStr.text) none with
      | error fault =>
          rw [scan] at scans
          rw [scans] at run
          cases run
      | ok via =>
          have last := scanIdle_lastIdle scan
          rw [scan] at scans
          obtain ⟨chosen, middle, routed, _, _, _, _, placement⟩ := scans
          rw [placement] at run
          rw [← last, ← routed]
          cases via with
          | none =>
              cases run
              rfl
          | some via =>
              cases run
              exact (dispatch_routes _ _ _ _).1
  | nil =>
      obtain ⟨bound, middle, assigned⟩ := assignIface_binds binds
      obtain ⟨_, boundSame, _, _, sameHeap⟩ := assignIface_ok assigned
      obtain ⟨sameLocal, copied⟩ := assignIface_copies unbound uncopied assigned
      have unroutedBound : bound.routedVia = none := by
        rw [boundSame]
        exact unrouted
      have copies : bound.globals = if bound.isLocal = true ∧
          (p.heap iface).globals.map CStr.text ≠ [] then
          some ⟨(p.heap iface).globals.map CStr.text, some 0⟩ else none := by
        rw [copied, sameLocal]
        simp only [ne_eq, List.map_eq_nil_iff]
      simp only [placeCall, unrouted, assigned] at run
      cases choice : chooseRoute iface bound middle with
      | error fault =>
          rw [choice] at run
          cases run
      | ok result =>
          obtain ⟨chosen, last⟩ := result
          have routed := chooseRoute_nobody ((sameHeap iface).locals.trans locals) copies
            unroutedBound choice
          have target : p.target iface call.isLocal = chosen.routedVia := by
            rw [routed, sameLocal]
            simp only [Proxy.target, locals]
            split
            · cases (p.heap iface).globals with
              | nil => rfl
              | cons first rest => cases rest <;> rfl
            · rfl
          rw [target]
          rw [choice] at run
          simp only at run
          split at run
          · cases run
            rfl
          · cases run
            exact (dispatch_routes _ _ _ _).1

theorem rejected_iff {middle : Proxy} (read : event.message env start = some message)
    (identity : placed.identity = message.identity)
    (actionid : placed.actionid = message.actionid) (fabrics : middle.fabList = p.fabList)
    (sent : middle.sent = p.sent) (queue : middle.queue = p.queue)
    (modules : middle.modules = p.modules) (ifaces : middle.ifaces = p.ifaces)
    (lists : p.SameHeap middle) (text : String) (code : Int32) :
    Rejected event message p (refuse env placed text code middle) ↔
      Reachable env p message .caller := by
  have route : middle.route message.identity = p.route message.identity := by
    simp only [Proxy.route, fabrics]
  have back : p.route message.identity = event.origin ↔ KnownOrigin p message :=
    route_eq_origin read
  unfold refuse
  rw [identity, actionid]
  rcases sendMessage_cases env (.reply placed) (messageException message.actionid text code)
    message.identity middle with ⟨nowhere, same⟩ | ⟨dest, there, same⟩
  · rw [same]
    constructor
    · intro rejected
      obtain ⟨send, _, _, more, _⟩ := rejected.told
      rw [sent, List.self_eq_append_right] at more
      cases more
    · rintro ⟨known, _⟩
      rw [route, route_origin known] at nowhere
      cases nowhere
  · rw [same]
    constructor
    · intro rejected
      obtain ⟨send, _, _, more, origin, _, ok⟩ := rejected.told
      rw [sent, List.append_cancel_left_eq, List.singleton_inj] at more
      subst more
      exact ⟨back.mp ((route.symm.trans there).trans origin.symm), ok⟩
    · rintro ⟨known, succeeds⟩
      refine ⟨⟨_, text, code, by rw [sent], ?_, rfl, succeeds⟩, queue, modules, ifaces, lists⟩
      exact (back.mpr known).symm.trans (route.symm.trans there)

theorem not_accepted (fresh : message.actionid ∉ p.queue) (queue : q.queue = p.queue) :
    ¬ Accepted message p q := by
  intro accepted
  obtain ⟨_, _, queued, _⟩ := accepted.queued
  rw [queue] at queued
  exact fresh (ZHash.mem_of_lookup queued)

theorem not_rejected (fresh : message.actionid ∉ p.queue) (queued : message.actionid ∈ q.queue) :
    ¬ Rejected event message p q := fun rejected => fresh (rejected.queue ▸ queued)

theorem refuse_queue (call : Message) (text : String) (code : Int32) :
    (refuse env call text code p).queue = p.queue :=
  sendMessage_queue _ _ _ _ _

theorem addressee_malformed (malformed : call.wellFormedCall = false) :
    addressee p call = some .caller := by
  unfold addressee
  cases named : call.module with
  | none => rfl
  | some module =>
      cases called : call.function with
      | none => rfl
      | some function =>
          have zero : call.version = 0 := by
            simpa [Message.wellFormedCall, named, called] using malformed
          simp [zero]

theorem addressee_formed {module function : String} (formed : call.wellFormedCall = true)
    (named : call.module = some module) (called : call.function = some function) :
    addressee p call =
      match checkInterface p.ifaces p.heap module function call.version with
      | none => some .caller
      | some iface =>
          match p.target iface call.isLocal with
          | some via => some (.provider via)
          | none => if call.isLocal then none else some .caller := by
  have nonzero : call.version ≠ 0 := by
    simpa [Message.wellFormedCall, named, called] using formed
  simp only [addressee, named, called, if_neg nonzero]

theorem accepted_iff {cause : Cause} {via : String} (noReply : Sends (fun sent =>
      sent.cause.answers = none) p q) (queued : q.queue.lookup message.actionid = some placed)
    (tag : placed.tag = message.tag) (object : placed.object = message.object)
    (bound : placed.iface = some iface) (routed : placed.routedVia = some via)
    (sent : q.sent = (sendMessage env cause message.object via p).2.sent)
    (modules : q.modules = p.modules ∨ ∃ mod, p.modules.lookup via = some mod ∧
      mod.state = .idle ∧ q.modules = ZHash.update p.modules via { mod with state := .busy }) :
    Accepted message p q ↔ Sendable env p via := by
  rw [Sendable, ← sentOnce_iff sent]
  constructor
  · intro accepted
    obtain ⟨other, _, found, _, _, _, ends⟩ := accepted.queued
    rw [queued, Option.some.injEq] at found
    subst found
    rcases ends with waits | ⟨to', routed', once, _⟩
    · rw [waits.2.1] at routed
      cases routed
    · rw [routed, Option.some.injEq] at routed'
      rw [routed']
      exact once
  · intro once
    exact ⟨noReply, placed, iface, queued, tag, object, bound, Or.inr ⟨via, routed, once, modules⟩⟩

theorem enqueue_lookup {middle : Proxy} (fresh : message.actionid ∉ p.queue)
    (actionid : placed.actionid = message.actionid) (queue : middle.queue = p.queue) :
    (enqueue placed middle).queue.lookup message.actionid = some placed := by
  rw [enqueue, queue, ZHash.lookup_insertNew, actionid, if_pos ⟨rfl, fresh⟩]

/-- A refused call meets the one end if the caller hears of it, and never the other. -/
theorem exclusive_refused {middle : Proxy} {text : String} {code : Int32}
    (came : event.message env start = some message)
    (fresh : message.actionid ∉ p.queue) (identity : placed.identity = message.identity)
    (actionid : placed.actionid = message.actionid) (fabrics : middle.fabList = p.fabList)
    (sent : middle.sent = p.sent) (queue : middle.queue = p.queue)
    (modules : middle.modules = p.modules) (ifaces : middle.ifaces = p.ifaces)
    (lists : p.SameHeap middle) (result : q = refuse env placed text code middle) :
    Xor (Rejected event message p q) (Accepted message p q) ↔ Reachable env p message .caller := by
  have rejected : Rejected event message p q ↔ Reachable env p message .caller := by
    rw [result]
    exact rejected_iff came identity actionid fabrics sent queue modules ifaces lists text code
  have out : ¬ Accepted message p q := by
    refine not_accepted fresh ?_
    rw [result, refuse_queue, queue]
  rw [← rejected]
  simp [out, Xor]

/-- A call that is queued on its way meets the other end if it gets through. -/
theorem exclusive_sent {middle : Proxy} {cause : Cause} {via : String}
    (fresh : message.actionid ∉ p.queue) (actionid : placed.actionid = message.actionid)
    (queue : middle.queue = p.queue)
    (noReply : Sends (fun sent => sent.cause.answers = none) p middle)
    (tag : placed.tag = message.tag) (object : placed.object = message.object)
    (bound : placed.iface = some iface) (routed : placed.routedVia = some via)
    (sent : middle.sent = (sendMessage env cause message.object via p).2.sent)
    (modules : middle.modules = p.modules ∨ ∃ mod, p.modules.lookup via = some mod ∧
      mod.state = .idle ∧ middle.modules = ZHash.update p.modules via { mod with state := .busy })
    (result : q = enqueue placed middle) :
    Xor (Rejected event message p q) (Accepted message p q) ↔ Sendable env p via := by
  have queued : q.queue.lookup message.actionid = some placed := by
    rw [result]
    exact enqueue_lookup fresh actionid queue
  have out : ¬ Rejected event message p q := not_rejected fresh (ZHash.mem_of_lookup queued)
  have accepted : Accepted message p q ↔ Sendable env p via :=
    accepted_iff (by rw [result]; exact noReply) queued tag object bound routed
      (by rw [result]; exact sent) (by rw [result]; exact modules)
  rw [← accepted]
  simp [out, Xor]

/-- A local call that waits is queued, and nobody is sent anything. -/
theorem exclusive_waiting {middle : Proxy} (fresh : message.actionid ∉ p.queue)
    (actionid : placed.actionid = message.actionid) (queue : middle.queue = p.queue)
    (noReply : Sends (fun sent => sent.cause.answers = none) p middle)
    (tag : placed.tag = message.tag) (object : placed.object = message.object)
    (bound : placed.iface = some iface) (near : placed.isLocal = true)
    (waits : placed.routedVia = none) (modules : middle.modules = p.modules)
    (sent : middle.sent = p.sent) (result : q = enqueue placed middle) :
    Xor (Rejected event message p q) (Accepted message p q) := by
  have queued : q.queue.lookup message.actionid = some placed := by
    rw [result]
    exact enqueue_lookup fresh actionid queue
  have accepted : Accepted message p q := by
    refine ⟨by rw [result]; exact noReply, placed, _, queued, tag, object, bound,
      Or.inl ⟨near, waits, ?_, ?_⟩⟩
    · rw [result]
      exact modules
    · rw [result]
      exact sent
  exact Or.inr ⟨accepted, not_rejected fresh (ZHash.mem_of_lookup queued)⟩

theorem addressed_iff {whom : Addressee} (heard : addressee p call = some whom) :
    (∀ other, addressee p call = some other → Reachable env p message other) ↔
      Reachable env p message whom := by
  simp only [heard, Option.some.injEq, forall_eq']

/-- A new call meets exactly one of the two ends just when whoever is to hear of it
can be reached. -/
theorem processCall_exclusive (came : event.message env start = some message) (unset : Unset p)
    (read : readCall message = .ok call) (fresh : message.actionid ∉ p.queue)
    (run : processCall env message p = .ok q) :
    Xor (Rejected event message p q) (Accepted message p q) ↔
      ∀ whom, addressee p call = some whom → Reachable env p message whom := by
  have arrives := Event.message_arrives came
  have same := readCall_ok read
  simp only [processCall, read] at run
  cases formed : call.wellFormedCall with
  | false =>
      simp only [formed, Bool.false_eq_true, if_false] at run
      split at run
      · cases run
      · rw [addressed_iff (addressee_malformed formed)]
        exact exclusive_refused came fresh (by rw [same]) (by rw [same]) rfl rfl rfl rfl rfl
          (.refl p) (Except.ok.inj run).symm
  | true =>
      simp only [formed, if_true] at run
      have unroutedCall : call.routedVia = none := by rw [same]; exact arrives.routedVia
      have unboundCall : call.iface = none := by rw [same]; exact arrives.iface
      have uncopiedCall : call.globals = none := by rw [same]; exact arrives.globals
      split at run
      · cases run
      split at run
      · cases run
      · rename_i rc placed middle placement
        have outcome := placeCall_outcome placement
        have carried := outcome.carried.same
        have identity : placed.identity = message.identity := by rw [carried, same]
        have actionid : placed.actionid = message.actionid := by rw [carried, same]
        have isLocal : placed.isLocal = call.isLocal := by rw [carried]
        have object : placed.object = message.object := by rw [carried, same]
        have payload : call.object = message.object := by rw [same]
        have tag : placed.tag = message.tag := by
          rw [outcome.carried.tag, same]
          rfl
        obtain ⟨calm, queue⟩ := outcome.calm
        have noReply := outcome.noReply
        have heard {iface : Addr} (on : PlacedOn call p iface placed middle) : addressee p call =
            match placed.routedVia with
            | some via => some (.provider via)
            | none => if call.isLocal then none else some .caller := by
          rcases on.binds with bound | ⟨_, module, function, named, called, found⟩
          · rw [unboundCall] at bound
            cases bound
          · rw [placeCall_target unset unroutedCall unboundCall uncopiedCall on.binds placement,
              addressee_formed formed named called, found]
        have bound {iface : Addr} (on : PlacedOn call p iface placed middle) :
            placed.iface = some iface := by
          rw [on.same]
        cases outcome with
        | routed routed =>
            rw [unroutedCall] at routed
            cases routed
        | rejected _ _ named called absent =>
            simp only [ne_eq, not_true_eq_false, if_false] at run
            have whom : addressee p call = some .caller := by
              rw [addressee_formed formed named called, absent]
            rw [addressed_iff whom]
            split at run
            · cases run
            · exact exclusive_refused came fresh identity actionid rfl rfl rfl rfl rfl (.refl p)
                (Except.ok.inj run).symm
        | waiting on chosen waits _ _ modules sent =>
            have whom := heard on
            rw [waits] at whom
            cases socket : call.isLocal with
            | true =>
                simp only [isLocal, socket, waits] at run whom
                have result : q = enqueue placed middle := by simpa using run.symm
                have met : Xor (Rejected event message p q) (Accepted message p q) :=
                  exclusive_waiting fresh actionid queue noReply tag object (bound on)
                    (isLocal.trans socket) waits modules sent result
                simp [whom, met]
            | false =>
                simp only [isLocal, socket, waits] at run whom
                have result : q = refuse env placed "No modules found" modulesBusy middle := by
                  simpa using run.symm
                rw [addressed_iff (by simpa using whom)]
                exact exclusive_refused came fresh identity actionid calm.fabList sent queue modules
                  calm.ifaces calm.sameHeap result
        | toModule on chosen routed _ _ found idle modules sent =>
            rw [addressed_iff (by rw [heard on, routed])]
            refine exclusive_sent fresh actionid queue noReply tag object (bound on) routed
              (payload ▸ sent) (Or.inr ⟨_, found, idle, modules⟩) ?_
            simpa [routed] using run.symm
        | toFabric on chosen routed _ _ busy modules sent =>
            rw [addressed_iff (by rw [heard on, routed])]
            refine exclusive_sent fresh actionid queue noReply tag object (bound on) routed
              (payload ▸ sent) (Or.inl modules) ?_
            simpa [routed] using run.symm

/-- In every reachable state a new call is either refused, with nothing else done,
or queued, just when whoever is to hear of it can be reached. -/
theorem call_all_or_nothing {guard : Proxy → Env × Event → Prop}
    (reached : Reaches (fabric conf) guard start) (came : event.message env start = some message)
    (read : readCall message = .ok call) (fresh : message.actionid ∉ start.queue)
    (run : processCall env message (start.arrived message) = .ok q) :
    Xor (Rejected event message (start.arrived message) q)
        (Accepted message (start.arrived message) q) ↔
      ∀ whom, addressee (start.arrived message) call = some whom →
        Reachable env (start.arrived message) message whom := by
  have unset : Unset (start.arrived message) := (unset_reaches reached).same (by simp)
  exact processCall_exclusive came unset read (by simpa using fresh) run

def newCall (p : Proxy) (isLocal : Bool) (identity : String) : Message :=
  messageNew p.brk 2000000 isLocal identity
    (packed "call" (.map [(.raw "module", .raw "mod"), (.raw "function", .raw "f"),
      (.raw "version", .positiveInteger 1)]) "call-1") "call" "call-1"

theorem newCall_read (p : Proxy) (isLocal : Bool) (identity : String) :
    readCall (newCall p isLocal identity) = .ok { newCall p isLocal identity with
      version := 1, module := some "mod", function := some "f" } := rfl

def localCall : Event := .localMsg (callOf caller "mod" "f" 1 "call-1") ""

def workerCall : Message := newCall (fabricAfter plainConf oneWorker) true (strhex caller)

theorem call_all_or_nothing_worker :
    ∃ q, processCall late workerCall ((fabricAfter plainConf oneWorker).arrived workerCall) =
      .ok q ∧
      Xor (Rejected localCall workerCall ((fabricAfter plainConf oneWorker).arrived workerCall) q)
        (Accepted workerCall ((fabricAfter plainConf oneWorker).arrived workerCall) q) := by
  have reached : Reaches (fabric plainConf) anything (fabricAfter plainConf oneWorker) :=
    fabricAfter_reaches (fun _ _ _ => trivial) (by decide +kernel)
  have came : localCall.message late (fabricAfter plainConf oneWorker) = some workerCall := rfl
  have ends : (processCall late workerCall
      ((fabricAfter plainConf oneWorker).arrived workerCall)).toOption.isSome = true := by
    decide +kernel
  have whom : addressee ((fabricAfter plainConf oneWorker).arrived workerCall) { workerCall with
      version := 1, module := some "mod", function := some "f" } =
        some (.provider "0001020304") := by
    decide +kernel
  have short : ¬ 10 < "0001020304".length := by decide
  cases run : processCall late workerCall
      ((fabricAfter plainConf oneWorker).arrived workerCall) with
  | error fault => simp [run, Except.toOption] at ends
  | ok q =>
      refine ⟨q, rfl, (call_all_or_nothing reached came (newCall_read _ _ _)
        (by decide +kernel) run).mpr ?_⟩
      intro other heard
      have same : some other = some (Addressee.provider "0001020304") := heard.symm.trans whom
      cases same
      refine ⟨?_, rfl⟩
      rw [Proxy.route, if_neg short]
      exact Option.some_ne_none _

def strangersCall : Event := .globalMsg (callOf (bytesOf peerName) "mod" "f" 1 "call-1") ""

/-- A fabric that is not known is not told that its call is refused. -/
theorem call_unanswered :
    ¬ ∀ conf start env event message call q, Reaches (fabric conf) anything start →
      event.message env start = some message → readCall message = .ok call →
      message.actionid ∉ start.queue →
      processCall env message (start.arrived message) = .ok q →
      Xor (Rejected event message (start.arrived message) q)
        (Accepted message (start.arrived message) q) := by
  intro always
  let message := newCall proxyNew false peerName
  have came : strangersCall.message late proxyNew = some message := rfl
  have facts : (processCall late message (proxyNew.arrived message)).toOption.map
      (fun q => (q.sent.length, decide ("call-1" ∈ q.queue))) = some (0, false) := by
    decide +kernel
  cases run : processCall late message (proxyNew.arrived message) with
  | error fault => simp [run, Except.toOption] at facts
  | ok q =>
      simp only [run, Except.toOption, Option.map_some, Option.some.injEq, Prod.mk.injEq,
        decide_eq_false_iff_not] at facts
      rcases always plainConf proxyNew late strangersCall message _ q
        ⟨proxyNew, rfl, .refl proxyNew⟩ came (newCall_read _ _ _) List.not_mem_nil run with
        ⟨rejected, _⟩ | ⟨accepted, _⟩
      · obtain ⟨send, _, _, more, _⟩ := rejected.told
        have count := congrArg List.length more
        rw [facts.1, List.length_append, List.length_singleton] at count
        omega
      · obtain ⟨placed, _, queued, _⟩ := accepted.queued
        exact facts.2 (ZHash.mem_of_lookup queued)

end

end ModBus
