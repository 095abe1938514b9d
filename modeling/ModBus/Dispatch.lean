import ModBus.Integrity
import ModBus.Sends

/-! Who is given a call. With modules introducing themselves on the local socket
only, their keys and the names of fabrics never meet, and the one local module
that a placement looks at is the first of the list. -/

namespace ModBus

open Libc Czmq Transition

structure Separated (p : Proxy) : Prop where
  modules : ∀ key ∈ p.modules, ':' ∉ key.toList
  fabrics : ∀ key ∈ p.fabList, ':' ∈ key.toList
  lists : ListsOnly (fun _ => True) (fun name => ':' ∈ name.toList) p
  copies : ∀ key call globals, p.queue.lookup key = some call → call.globals = some globals →
    ∀ name ∈ globals.items, ':' ∈ name.toList

def LocalIntroductions (conf : Config) (p : Proxy) (label : Env × Event) : Prop :=
  ∀ message, label.2.message label.1 p = some message → message.command = "introduce" →
    (conf.debug = true ∨ label.2.answer ≠ "no") → message.isLocal = true

section

variable {conf : Config} {env : Env} {event : Event} {p q : Proxy} {message placed : Message}
  {iface : Addr}

theorem Event.message_local (read : event.message env p = some message)
    (isLocal : message.isLocal = true) : ∃ frame : Frame, message.identity = strhex frame.data := by
  cases event with
  | localMsg =>
      obtain ⟨frame, _, _, _, _, _, rfl⟩ := messageFromzmq_some (toOption_join read)
      exact ⟨frame, rfl⟩
  | globalMsg =>
      obtain ⟨_, _, _, _, _, _, rfl⟩ := messageFromzmq_some (toOption_join read)
      cases isLocal
  | procman => cases read
  | queueItem => cases read
  | fabItem => cases read
  | beacon => cases read

theorem Separated.calm (registry : Registry p) (separated : Separated p) (calm : Calm p q) :
    Separated q where
  modules key member := separated.modules key ((calm.mem_modules key).mp member)
  fabrics key member := separated.fabrics key (calm.fabList ▸ member)
  lists := separated.lists.heap calm.sameHeap
  copies key call globals found copied name member := by
    obtain ⟨before, queued, carried⟩ := calm.queue key call found
    obtain ⟨iface, bound, _⟩ := (registry.calls key before queued).iface
    have same := (carried.iface iface bound).2
    rw [copied] at same
    cases old : before.globals with
    | none => simp [old] at same
    | some earlier =>
        have items : globals.items = earlier.items := by simpa [old] using same
        exact separated.copies key before earlier queued old name (items ▸ member)

theorem Separated.arrived (separated : Separated p) (message : Message) :
    Separated (p.arrived message) where
  modules key member := separated.modules key (by simpa using member)
  fabrics key member := separated.fabrics key ((mem_arrived_fabList message key).mp member)
  lists := by
    refine separated.lists.heap fun iface => ?_
    rw [arrived_heap]
    exact Iface.Same.refl _
  copies key call globals found := separated.copies key call globals (by simpa using found)

theorem PlacedOn.endpoints (separated : Separated p)
    (copied : ∀ globals, message.globals = some globals → ∀ name ∈ globals.items, ':' ∈ name.toList)
    (on : PlacedOn message p iface placed q) {globals : ZList String}
    (copies : placed.globals = some globals) : ∀ name ∈ globals.items, ':' ∈ name.toList := by
  intro name member
  rcases on.globals with kept | ⟨_, listed⟩
  · rw [copies] at kept
    cases old : message.globals with
    | none => simp [old] at kept
    | some earlier =>
        have items : globals.items = earlier.items := by simpa [old] using kept
        exact copied earlier old name (items ▸ member)
  · rw [copies] at listed
    simp only [Option.map_some, Option.some.injEq] at listed
    rw [listed] at member
    obtain ⟨item, provided, rfl⟩ := List.mem_map.mp member
    exact separated.lists.globals iface item provided

theorem Separated.step (registry : Registry p) (allowed : LocalIntroductions conf p (env, event))
    (run : p.step conf env event = .ok q) (separated : Separated p) : Separated q := by
  cases step_cases run with
  | calm calm => exact separated.calm registry calm
  | handled _ calm => exact (separated.arrived _).calm (registry.arrived _) calm
  | @queued message call placed middle read _ parsed _ placement _ result =>
      have arrives := Event.message_arrives read
      have outcome := placeCall_outcome placement
      have parsedSame := readCall_ok parsed
      have there := separated.arrived message
      obtain ⟨iface, on⟩ := outcome.bound (by rw [parsedSame]; exact arrives.routedVia)
      have after := there.calm (registry.arrived message) outcome.calm.1
      subst result
      refine ⟨after.modules, after.fabrics, ⟨after.lists.locals, after.lists.globals⟩, ?_⟩
      intro key queued globals found copied
      simp only [enqueue, ZHash.lookup_insertNew] at found
      split at found
      · cases found
        refine on.endpoints there (fun globals copied => ?_) copied
        rw [parsedSame, arrives.globals] at copied
        cases copied
      · exact after.copies key queued globals found copied
  | @listed message _ _ _ listing =>
      have there := separated.arrived message
      have extended := (processIfaceList_extends (registry.arrived message) listing).same
      refine ⟨?_, ?_, there.lists.listed (registry.arrived message) listing
        (there.fabrics message.identity), ?_⟩
      · rw [extended]
        exact there.modules
      · rw [extended]
        exact there.fabrics
      · rw [extended]
        exact there.copies
  | @introduced message read isIntroduce introduction =>
      have there := separated.arrived message
      rcases processIntroduce_ok introduction with asked | ⟨accepted, _, pid, _, _, middle, introduces⟩
      · exact there.calm (registry.arrived _) (.procman asked)
      · have ready := registry.arrived message
        obtain ⟨frame, identity⟩ :=
          Event.message_local read (allowed message read isIntroduce accepted)
        have kept := (introduces.extends ready).same
        refine ⟨?_, ?_, there.lists.introduces ready introduces trivial, ?_⟩
        · intro key member
          rcases (introduces.mem_modules ready key).mp member with rfl | old
          · rw [identity]
            exact colon_notMem_strhex frame.data
          · exact there.modules key old
        · rw [introduces.fabList ready]
          exact there.fabrics
        · rw [introduces.registers, sendMessage_queue, registerModule, zstrSend_queue, kept]
          exact there.copies
  | @removed mod before _ same calm _ =>
      have middle : Registry before := by
        rw [same]
        exact registry.frame rfl rfl (Nat.le_refl _) (fun _ _ => id) (fun _ _ => id)
          registry.fabKey
      refine Separated.calm (middle.withoutModule mod) ⟨?_, ?_, ?_, ?_⟩ calm
      · intro key member
        refine separated.modules key ?_
        rw [same] at member
        exact (AList.mem_erase.mp member).2
      · rw [same]
        exact separated.fabrics
      · have lists : ListsOnly (fun _ => True) (fun name => ':' ∈ name.toList) before := by
          rw [same]
          exact ⟨separated.lists.locals, separated.lists.globals⟩
        have gone := lists.unlisted middle mod.identity
        exact ⟨gone.locals, gone.globals⟩
      · rw [same]
        exact separated.copies
  | asked _ _ _ same =>
      rw [same]
      exact ⟨separated.modules, fun key member => separated.fabrics key
        ((ZHash.mem_update _ _ _ _).mp member), ⟨separated.lists.locals, separated.lists.globals⟩,
        separated.copies⟩
  | @expired key fab _ _ _ same =>
      rw [same]
      have gone := separated.lists.unlisted registry fab.identity
      exact ⟨separated.modules, fun key member => separated.fabrics key (AList.mem_erase.mp member).2,
        ⟨gone.locals, gone.globals⟩, separated.copies⟩
  | connected _ endpoint same =>
      rw [same]
      refine ⟨separated.modules, ?_, ⟨separated.lists.locals, separated.lists.globals⟩,
        separated.copies⟩
      intro key member
      rcases (AList.mem_insert _).mp member with rfl | old
      · exact endpoint
      · exact separated.fabrics key old

theorem separated_new : Separated proxyNew := by
  refine ⟨fun _ member => ?_, fun _ member => ?_, ⟨fun _ _ _ => trivial, fun _ _ member => ?_⟩,
    fun _ _ _ found => ?_⟩
  · cases member
  · cases member
  · cases member
  · cases found

theorem scanIdle_ok {modules : ZHash Module} {ids : List String} {start last : Option String}
    (scan : scanIdle modules ids start = .ok last) : ∀ id ∈ ids, id ∈ modules := by
  induction ids generalizing start with
  | nil => simp
  | cons id ids ih =>
      simp only [scanIdle] at scan
      split at scan
      · cases scan
      · rename_i mod found
        intro other member
        rcases List.mem_cons.mp member with rfl | later
        · exact ZHash.mem_of_lookup found
        · exact ih scan other later

theorem LocalChoice.head (registry : Registry p) (separated : Separated p) {via : Option String}
    (choice : LocalChoice p iface via) :
    ∃ head rest mod, (p.heap iface).locals = head :: rest ∧
      p.modules.lookup head.text = some mod ∧
      via = if mod.state = .idle then some head.text else none := by
  obtain ⟨head, rest, later, locals, subset, scan⟩ := choice
  have registered := scanIdle_ok scan
  cases later with
  | cons item later =>
      have endpoint := separated.lists.globals iface item (subset (by simp))
      exact absurd endpoint (separated.modules item.text (registered item.text (by simp)))
  | nil =>
      simp only [List.map_cons, List.map_nil, scanIdle] at scan
      split at scan
      · cases scan
      · rename_i mod found
        cases scan
        refine ⟨head, rest, mod, locals, found, ?_⟩
        rw [registry.moduleKey head.text mod found]

end

end ModBus
