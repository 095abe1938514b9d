import ModBus.Handlers
import ModBus.Transition

/-! What one event can do to the fabric. Most handlers only place, answer and
drop calls and change the states of modules: they are `Calm`. The few that touch
the registry are told apart by `StepCases`. -/

namespace ModBus

open Libc Czmq

def Module.card (mod : Module) : Module := { mod with state := .guest, needRestart := false }

theorem card_fields {old new : Module} (same : old.card = new.card) :
    old.identity = new.identity ∧ old.name = new.name ∧ old.pid = new.pid ∧ old.sPid = new.sPid ∧
      old.provides = new.provides := by
  simp only [Module.card, Module.mk.injEq] at same
  exact ⟨same.1, same.2.1, same.2.2.2.1, same.2.2.2.2.1, same.2.2.2.2.2.1⟩

structure Message.Carried (before after : Message) : Prop where
  same : after = { before with
    iface := after.iface, globals := after.globals, routedVia := after.routedVia
    viaModule := after.viaModule
    outTimestamp := after.outTimestamp, processTimestamp := after.processTimestamp }
  iface : ∀ iface, before.iface = some iface → after.iface = some iface ∧
    after.globals.map ZList.items = before.globals.map ZList.items
  routed : ∀ via, before.routedVia = some via → after = before

inductive Returned (env : Env) (message stored : Message) (p : Proxy) : Proxy → Prop
  | caller (own : stored.isLocal = true) :
      Returned env message stored p (answerCaller env stored (messageTomsg message) p)
  | fabric (foreign : stored.isLocal = false) (near : message.isLocal = true) :
      Returned env message stored p (answerFabric env stored (messageTomsg message) p)
  | nowhere (foreign : stored.isLocal = false) (far : message.isLocal = false) :
      Returned env message stored p (p.deleteCall stored.actionid)

structure Calm (p q : Proxy) : Prop where
  ifaces : q.ifaces = p.ifaces
  sameHeap : p.SameHeap q
  fabList : q.fabList = p.fabList
  introduced : q.introduced = p.introduced
  brk : q.brk = p.brk
  modules : ∀ key, (q.modules.lookup key).map Module.card = (p.modules.lookup key).map Module.card
  queue : ∀ key after, q.queue.lookup key = some after →
    ∃ before, p.queue.lookup key = some before ∧ before.Carried after

theorem Message.Carried.refl (message : Message) : message.Carried message :=
  ⟨rfl, fun _ bound => ⟨bound, rfl⟩, fun _ _ => rfl⟩

theorem Message.Carried.trans {first second third : Message} (left : first.Carried second)
    (right : second.Carried third) : first.Carried third := by
  refine ⟨?_, ?_, ?_⟩
  · rw [right.same, left.same]
  · intro iface bound
    obtain ⟨between, globals⟩ := left.iface iface bound
    obtain ⟨after, globals'⟩ := right.iface iface between
    exact ⟨after, globals'.trans globals⟩
  · intro via routed
    have same := left.routed via routed
    rw [right.routed via (same ▸ routed), same]

theorem Calm.refl (p : Proxy) : Calm p p :=
  ⟨rfl, Proxy.SameHeap.refl p, rfl, rfl, rfl, fun _ => rfl, fun _ message queued =>
    ⟨message, queued, .refl message⟩⟩

theorem Calm.trans {p q r : Proxy} (left : Calm p q) (right : Calm q r) : Calm p r := by
  refine ⟨right.ifaces.trans left.ifaces, left.sameHeap.trans right.sameHeap,
    right.fabList.trans left.fabList, right.introduced.trans left.introduced,
    right.brk.trans left.brk, fun key => (right.modules key).trans (left.modules key), ?_⟩
  intro key after queued
  obtain ⟨middle, between, later⟩ := right.queue key after queued
  obtain ⟨before, first, earlier⟩ := left.queue key middle between
  exact ⟨before, first, earlier.trans later⟩

section

variable {env : Env} {conf : Config} {p q : Proxy} {message placed : Message}

theorem Calm.lookup {key : String} {mod : Module} (calm : Calm p q)
    (found : q.modules.lookup key = some mod) :
    ∃ old, p.modules.lookup key = some old ∧ old.card = mod.card := by
  have same := calm.modules key
  rw [found] at same
  simpa using same.symm

theorem Calm.mem_modules (calm : Calm p q) (key : String) : key ∈ q.modules ↔ key ∈ p.modules := by
  rw [← AList.lookup_isSome, ← AList.lookup_isSome, ← Option.isSome_map, calm.modules key,
    Option.isSome_map]

theorem Calm.sendMessage (env : Env) (cause : Cause) (payload : Object) (identity : String)
    (p : Proxy) : Calm p (sendMessage env cause payload identity p).2 := by
  rw [sendMessage_eq]
  exact ⟨rfl, Proxy.SameHeap.refl p, rfl, rfl, rfl, fun _ => rfl, fun _ message queued =>
    ⟨message, queued, .refl message⟩⟩

theorem Calm.procman (same : q = { p with procman := q.procman }) : Calm p q := by
  rw [same]
  exact ⟨rfl, Proxy.SameHeap.refl p, rfl, rfl, rfl, fun _ => rfl, fun _ message queued =>
    ⟨message, queued, .refl message⟩⟩

theorem Calm.zstrSend (command : Command) (p : Proxy) : Calm p (zstrSend command p) :=
  .procman rfl

theorem Calm.deleteCall (key : String) (p : Proxy) : Calm p (p.deleteCall key) := by
  refine ⟨rfl, Proxy.SameHeap.refl p, rfl, rfl, rfl, fun _ => rfl, ?_⟩
  intro other message queued
  exact ⟨message, (ZHash.lookup_erase_some.mp queued).2, .refl message⟩

theorem modules_card_update {modules : ZHash Module} {key : String} {old new : Module}
    (found : modules.lookup key = some old) (same : new.card = old.card) (other : String) :
    ((ZHash.update modules key new).lookup other).map Module.card =
      (modules.lookup other).map Module.card := by
  rw [ZHash.lookup_update (ZHash.mem_of_lookup found)]
  by_cases here : other = key
  · subst here
    simp [found, same]
  · simp [here]

theorem Calm.setModule {key : String} {old new : Module} (found : p.modules.lookup key = some old)
    (same : new.card = old.card) : Calm p (p.setModule key new) :=
  ⟨rfl, Proxy.SameHeap.refl p, rfl, rfl, rfl, modules_card_update found same,
    fun _ message queued => ⟨message, queued, .refl message⟩⟩

theorem PlacedOn.carried {iface : Addr} (on : PlacedOn message p iface placed q) :
    message.Carried placed := by
  refine ⟨?_, ?_, ?_⟩
  · rw [on.same]
  · intro bound same
    rcases on.binds with assigned | ⟨unassigned, _⟩
    · refine ⟨?_, on.globals.resolve_right ?_⟩
      · rw [on.same]
        exact assigned.symm.trans same
      · rintro ⟨unassigned, _⟩
        rw [unassigned] at same
        cases same
    · rw [unassigned] at same
      cases same
  · intro via routed
    rw [on.unrouted] at routed
    cases routed

theorem PlaceOutcome.carried {rc : Int} (outcome : PlaceOutcome env message p rc placed q) :
    message.Carried placed := by
  cases outcome with
  | routed => exact .refl message
  | rejected => exact .refl message
  | waiting on => exact on.carried
  | toModule on => exact on.carried
  | toFabric on => exact on.carried

theorem PlacedOn.calm {iface : Addr} (on : PlacedOn message p iface placed q)
    (modules : ∀ key, (q.modules.lookup key).map Module.card =
      (p.modules.lookup key).map Module.card) :
    Calm p q ∧ q.queue = p.queue := by
  have same := on.proxy
  refine ⟨⟨?_, on.sameHeap, ?_, ?_, ?_, modules, ?_⟩, by rw [same]⟩
  · rw [same]
  · rw [same]
  · rw [same]
  · rw [same]
  · intro key after queued
    rw [same] at queued
    exact ⟨after, queued, .refl after⟩

theorem PlaceOutcome.calm {rc : Int} (outcome : PlaceOutcome env message p rc placed q) :
    Calm p q ∧ q.queue = p.queue := by
  cases outcome with
  | routed => exact ⟨.refl p, rfl⟩
  | rejected => exact ⟨.refl p, rfl⟩
  | waiting on _ _ _ _ modules => exact on.calm (by simp [modules])
  | @toModule _ _ _ _ mod on _ _ _ _ found _ modules =>
      have same : Module.card { mod with state := .busy } = mod.card := rfl
      refine on.calm fun key => ?_
      rw [modules]
      exact modules_card_update found same key
  | toFabric on _ _ _ _ _ modules => exact on.calm (by simp [modules])

theorem placeQueued_ok {key : String} {rc : Int} (run : placeQueued env key p = .ok (rc, q)) :
    (p.queue.lookup key = none ∧ rc = 0 ∧ q = p) ∨
      ∃ call placed middle, p.queue.lookup key = some call ∧
        placeCall env call p = .ok (rc, placed, middle) ∧
        q = { middle with queue := ZHash.update middle.queue key placed } ∧
        ∀ other, q.queue.lookup other =
          if other = key then some placed else p.queue.lookup other := by
  unfold placeQueued at run
  split at run
  · rename_i absent
    cases run
    exact Or.inl ⟨absent, rfl, rfl⟩
  · rename_i call queued
    split at run
    · cases run
    · rename_i code placed middle placement
      cases run
      have same := (placeCall_outcome placement).calm.2
      refine Or.inr ⟨call, placed, middle, queued, placement, rfl, fun other => ?_⟩
      rw [ZHash.lookup_update (same ▸ ZHash.mem_of_lookup queued), same]

theorem placeQueued_calm {key : String} {rc : Int}
    (run : placeQueued env key p = .ok (rc, q)) : Calm p q := by
  rcases placeQueued_ok run with ⟨_, _, rfl⟩ | ⟨call, placed, middle, queued, placement, same, lookup⟩
  · exact .refl _
  · have outcome := placeCall_outcome placement
    obtain ⟨calm, _⟩ := outcome.calm
    rw [same] at lookup ⊢
    refine ⟨calm.ifaces, calm.sameHeap, calm.fabList, calm.introduced, calm.brk, calm.modules, ?_⟩
    intro other entry found
    rw [lookup] at found
    split at found
    · rename_i here
      cases found
      exact ⟨call, here ▸ queued, outcome.carried⟩
    · exact ⟨entry, found, .refl entry⟩

theorem placeAll_calm (run : placeAll env p = .ok q) : Calm p q :=
  ZHash.foreach_invariant (Calm p)
    (fun _ _ _ _ _ call before => before.trans (placeQueued_calm call)) run (.refl p)

/-- A module that answered is restarted if that is due, else it is given work. -/
theorem putBack_ok {identity : String} (run : putBack env identity p = .ok q) :
    (p.modules.lookup identity = none ∧ q = p) ∨
      ∃ mod, p.modules.lookup identity = some mod ∧
        ((mod.needRestart = true ∧ q = zstrSend (.restart mod.sPid) p) ∨
          (mod.needRestart = false ∧
            placeAll env (p.setModule identity { mod with state := .idle }) = .ok q)) := by
  unfold putBack at run
  split at run
  · rename_i absent
    cases run
    exact Or.inl ⟨absent, rfl⟩
  · rename_i mod found
    refine Or.inr ⟨mod, found, ?_⟩
    split at run
    · rename_i needed
      cases run
      exact Or.inl ⟨needed, rfl⟩
    · rename_i unneeded
      exact Or.inr ⟨Bool.eq_false_iff.mpr unneeded, run⟩

theorem putBack_calm {identity : String} (run : putBack env identity p = .ok q) : Calm p q := by
  rcases putBack_ok run with ⟨_, rfl⟩ | ⟨mod, found, ⟨_, rfl⟩ | ⟨_, run⟩⟩
  · exact .refl _
  · exact .zstrSend _ p
  · have same : Module.card { mod with state := .idle } = mod.card := rfl
    exact (Calm.setModule found same).trans (placeAll_calm run)

theorem answerCaller_calm (stored : Message) (payload : Object) (p : Proxy) :
    Calm p (answerCaller env stored payload p) :=
  (Calm.sendMessage _ _ _ _ p).trans (.deleteCall _ _)

theorem answerFabric_calm (stored : Message) (payload : Object) (p : Proxy) :
    Calm p (answerFabric env stored payload p) := by
  unfold answerFabric
  split
  · exact (Calm.sendMessage _ _ _ _ p).trans (.deleteCall _ _)
  · exact .deleteCall _ p

theorem refuse_calm (call : Message) (text : String) (code : Int32) (p : Proxy) :
    Calm p (refuse env call text code p) :=
  .sendMessage _ _ _ _ p

/-- A call is refused as it was read, or placed, and then refused or queued. -/
theorem processCall_ok (run : processCall env message p = .ok q) :
    ∃ call, readCall message = .ok call ∧
      ((call.wellFormedCall = false ∧
          q = refuse env call "Wrong CALL structure" wrongCallStructure p) ∨
        (call.wellFormedCall = true ∧ ∃ rc placed middle,
          placeCall env call p = .ok (rc, placed, middle) ∧
            (((rc = -1 ∨ placed.isLocal = false ∧ placed.routedVia = none) ∧
                q = refuse env placed "No modules found" modulesBusy middle) ∨
              (rc ≠ -1 ∧ (placed.isLocal = true ∨ placed.routedVia ≠ none) ∧
                q = enqueue placed middle)))) := by
  unfold processCall at run
  split at run
  · cases run
  · rename_i call read
    refine ⟨call, read, ?_⟩
    split at run
    · rename_i shaped
      split at run
      · cases run
      split at run
      · cases run
      · rename_i rc placed middle placement
        refine Or.inr ⟨shaped, rc, placed, middle, placement, ?_⟩
        split at run
        · rename_i found
          split at run
          · rename_i rejected
            cases run
            exact Or.inl ⟨Or.inr (by simpa using rejected), rfl⟩
          · rename_i accepted
            cases run
            refine Or.inr ⟨found, ?_, rfl⟩
            cases isLocal : placed.isLocal with
            | true => exact Or.inl rfl
            | false =>
                right
                intro unrouted
                simp [isLocal, unrouted] at accepted
        · rename_i rejected
          split at run
          · cases run
          · cases run
            exact Or.inl ⟨Or.inl (by simpa using rejected), rfl⟩
    · rename_i misshaped
      split at run
      · cases run
      · cases run
        exact Or.inl ⟨by simpa using misshaped, rfl⟩

theorem invalidState_ok {stored : Message} :
    invalidState message stored p = .ok q ↔
      (invalidText message stored).length < 896 ∧ q = p.deleteCall stored.actionid := by
  unfold invalidState
  split
  · rename_i fault unlogged
    have long := (sprintfTo_fault.mp unlogged).1
    simp [long]
  · rename_i logged
    have short := (sprintfTo_ok.mp logged).1
    simp [short, eq_comm]

theorem invalidState_fault {stored : Message} {fault : Fault}
    (fails : invalidState message stored p = .error fault) : fault = .outOfBounds := by
  unfold invalidState at fails
  split at fails
  · rename_i unlogged
    cases fails
    exact (sprintfTo_fault.mp unlogged).2
  · cases fails

theorem Returned.calm {stored : Message} {middle : Proxy}
    (returned : Returned env message stored p middle) : Calm p middle := by
  cases returned with
  | caller own => exact answerCaller_calm _ _ p
  | fabric foreign near => exact answerFabric_calm _ _ p
  | nowhere foreign far => exact .deleteCall _ p

/-- A result returns to its call, and then its module is given work; one that
answers no call is a list of interfaces. -/
theorem processResult_ok (run : processResult env message p = .ok q) :
    (p.queue.lookup message.actionid = none ∧ processIfaceList message p = .ok q) ∨
      ∃ stored middle, p.queue.lookup message.actionid = some stored ∧
        Returned env message stored p middle ∧
          ((message.isLocal = true ∧ putBack env message.identity middle = .ok q) ∨
            (message.isLocal = false ∧ q = middle)) := by
  unfold processResult at run
  split at run
  · rename_i stored queued
    refine Or.inr ⟨stored, ?_⟩
    split at run
    · rename_i near own
      exact ⟨_, queued, .caller own, Or.inl ⟨near, run⟩⟩
    · rename_i far own
      cases run
      exact ⟨_, queued, .caller own, Or.inr ⟨far, rfl⟩⟩
    · rename_i near foreign
      exact ⟨_, queued, .fabric foreign near, Or.inl ⟨near, run⟩⟩
    · rename_i far foreign
      obtain ⟨_, rfl⟩ := invalidState_ok.mp run
      exact ⟨_, queued, .nowhere foreign far, Or.inr ⟨far, rfl⟩⟩
  · rename_i unqueued
    exact Or.inl ⟨unqueued, run⟩

/-- An exception is ignored, places its call again, or returns to it as a result
does. -/
theorem processException_ok (run : processException env message p = .ok q) :
    (q = p ∧ ∀ stored, p.queue.lookup message.actionid = some stored →
        message.isLocal = true ∧ stored.isLocal = true ∧ message.identity ∉ p.modules) ∨
      ∃ stored, p.queue.lookup message.actionid = some stored ∧
        ((message.isLocal = false ∧ stored.isLocal = true ∧
            messageGetExceptionCode message = .ok modulesBusy ∧
              ∃ rc, placeQueued env message.actionid p = .ok (rc, q)) ∨
          ∃ middle, Returned env message stored p middle ∧
            ((message.isLocal = true ∧ putBack env message.identity middle = .ok q ∧
                (stored.isLocal = true → message.identity ∈ p.modules)) ∨
              (message.isLocal = false ∧ q = middle ∧
                (stored.isLocal = true → messageGetExceptionCode message ≠ .ok modulesBusy)))) := by
  unfold processException at run
  split at run
  · rename_i stored queued
    split at run
    · rename_i near own
      split at run
      · rename_i member
        exact Or.inr ⟨stored, queued, Or.inr
          ⟨_, .caller own, Or.inl ⟨near, run, fun _ => member⟩⟩⟩
      · rename_i absent
        cases run
        refine Or.inl ⟨rfl, fun other found => ?_⟩
        cases queued.symm.trans found
        exact ⟨near, own, absent⟩
    · rename_i far own
      refine Or.inr ⟨stored, queued, ?_⟩
      split at run
      · cases run
      · rename_i code coded
        split at run
        · rename_i busy
          split at run
          · cases run
          · rename_i rc _ placement
            cases run
            exact Or.inl ⟨far, own, busy ▸ coded, rc, placement⟩
        · rename_i other
          cases run
          refine Or.inr ⟨_, .caller own, Or.inr ⟨far, rfl, fun _ busy => other ?_⟩⟩
          exact Except.ok.inj (coded.symm.trans busy)
    · rename_i near foreign
      exact Or.inr ⟨stored, queued, Or.inr
        ⟨_, .fabric foreign near, Or.inl ⟨near, run, by simp [foreign]⟩⟩⟩
    · rename_i far foreign
      obtain ⟨_, rfl⟩ := invalidState_ok.mp run
      exact Or.inr ⟨stored, queued, Or.inr
        ⟨_, .nowhere foreign far, Or.inr ⟨far, rfl, by simp [foreign]⟩⟩⟩
  · rename_i unqueued
    split at run
    · cases run
    · cases run
      refine Or.inl ⟨rfl, fun stored found => ?_⟩
      rw [unqueued] at found
      cases found

theorem processResult_calm {stored : Message}
    (queued : p.queue.lookup message.actionid = some stored)
    (run : processResult env message p = .ok q) : Calm p q := by
  rcases processResult_ok run with ⟨unqueued, _⟩ |
    ⟨stored, middle, _, returned, ⟨_, run⟩ | ⟨_, rfl⟩⟩
  · rw [queued] at unqueued
    cases unqueued
  · exact returned.calm.trans (putBack_calm run)
  · exact returned.calm

theorem processException_calm (run : processException env message p = .ok q) : Calm p q := by
  rcases processException_ok run with ⟨rfl, _⟩ | ⟨stored, _, ⟨_, _, _, rc, placement⟩ |
    ⟨middle, returned, ⟨_, run, _⟩ | ⟨_, rfl, _⟩⟩⟩
  · exact .refl _
  · exact placeQueued_calm placement
  · exact returned.calm.trans (putBack_calm run)
  · exact returned.calm

/-- A request changes nothing but what is sent to a fabric that wants the list. -/
theorem processRequest_ok (run : processRequest env message p = .ok q) :
    q = p ∨ ∃ msg fab, p.fabList.lookup message.identity = some fab ∧
      messageIfacelistResponse p.ifaces p.heap message.actionid = .ok msg ∧
      q = (sendMessage env .ifaceListResponse msg fab.identity.text p).2 := by
  unfold processRequest at run
  split at run
  · cases run
  · cases run
    exact Or.inl rfl
  · split at run
    · unfold processReqIfaceList at run
      split at run
      · cases run
        exact Or.inl rfl
      · rename_i fab known
        split at run
        · cases run
        · rename_i msg packs
          cases run
          exact Or.inr ⟨msg, fab, known, packs, rfl⟩
    · cases run
      exact Or.inl rfl

theorem processRequest_calm (run : processRequest env message p = .ok q) : Calm p q := by
  rcases processRequest_ok run with rfl | ⟨msg, fab, _, _, rfl⟩
  · exact .refl _
  · exact .sendMessage _ _ _ _ p

end

end ModBus
