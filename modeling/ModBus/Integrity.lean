import ModBus.Execute
import ModBus.Provide

/-! Referential integrity of the registry: who is listed is registered. Names are
looked up by text and removed by pointer, so a name can outlive its module. -/

namespace ModBus

open Libc Czmq Transition

structure ListsOnly (mods fabs : String → Prop) (p : Proxy) : Prop where
  locals : ∀ iface, ∀ item ∈ (p.heap iface).locals, mods item.text
  globals : ∀ iface, ∀ item ∈ (p.heap iface).globals, fabs item.text

def Integrity (p : Proxy) : Prop :=
  ∀ iface ∈ p.ifaces.items,
    (∀ item ∈ (p.heap iface).locals, item.text ∈ p.modules) ∧
      ∀ item ∈ (p.heap iface).globals, item.text ∈ p.fabList

def ListedAlone (p : Proxy) (mod : Module) : Prop :=
  ∀ iface ∈ p.ifaces.items, ∀ item ∈ (p.heap iface).locals,
    item.text = mod.identity.text → item.addr = mod.identity.addr

def CleanRemoval (conf : Config) (p : Proxy) (label : Env × Event) : Prop :=
  (∀ mod, removedBy conf label.1 label.2 p = some mod → ListedAlone p mod) ∧
    ∀ fab, expiredBy label.2 p = some fab → ∀ iface ∈ p.ifaces.items,
      ∀ item ∈ (p.heap iface).globals, item.text ≠ fab.identity.text

section

variable {conf : Config} {env : Env} {event : Event} {p q : Proxy} {mods fabs : String → Prop}

/-- The induction rule of the fabric, with the registry in order throughout. -/
theorem fabric_invariant (Holds : Proxy → Prop) {guard : Proxy → Env × Event → Prop}
    (reached : Reaches (fabric conf) guard p) (initially : Holds proxyNew)
    (preserved : ∀ env event p q, guard p (env, event) → p.step conf env event = .ok q →
      Registry p → Holds p → Holds q) : Holds p := by
  refine reached.invariant_reached Holds ?_ ?_
  · rintro state rfl
    exact initially
  · rintro state ⟨env, event⟩ next before allowed move holds
    exact preserved env event state next allowed move (registry_reaches before) holds

theorem ListsOnly.heap (only : ListsOnly mods fabs p) (same : p.SameHeap q) :
    ListsOnly mods fabs q where
  locals iface item member := only.locals iface item ((same iface).locals ▸ member)
  globals iface item member := only.globals iface item ((same iface).globals ▸ member)

theorem ListsOnly.mono {mods' fabs' : String → Prop} (only : ListsOnly mods fabs p)
    (moreMods : ∀ name, mods name → mods' name) (moreFabs : ∀ name, fabs name → fabs' name) :
    ListsOnly mods' fabs' p where
  locals iface item member := moreMods _ (only.locals iface item member)
  globals iface item member := moreFabs _ (only.globals iface item member)

theorem ListsOnly.provided {mod func : String} {ver : UInt64} {loc glob : CStr → Prop}
    {iface : Addr} (only : ListsOnly mods fabs p)
    (provided : Provided mod func ver loc glob iface p q)
    (locals : ∀ item, loc item → mods item.text) (globals : ∀ item, glob item → fabs item.text) :
    ListsOnly mods fabs q where
  locals other item member := by
    rcases provided.locals other item member with old | ⟨_, new⟩
    · exact only.locals other item old
    · exact locals item new
  globals other item member := by
    rcases provided.globals other item member with old | ⟨_, new⟩
    · exact only.globals other item old
    · exact globals item new

theorem removedBy_registered (registry : Registry p) {mod : Module}
    (removed : removedBy conf env event p = some mod) :
    p.modules.lookup mod.identity.text = some mod := by
  have keyed : ∀ key, p.modules.lookup key = some mod →
      p.modules.lookup mod.identity.text = some mod := by
    intro key found
    rw [registry.moduleKey key mod found]
    exact found
  cases event with
  | procman command cPid =>
      simp only [removedBy] at removed
      split at removed
      · obtain ⟨⟨key, named⟩, walk, rfl⟩ := Option.map_eq_some_iff.mp removed
        exact keyed key (namedModule_some walk).1
      · cases removed
  | queueItem key =>
      obtain ⟨message, _, stuck⟩ := Option.bind_eq_some_iff.mp removed
      obtain ⟨_, via, _, found⟩ := stuckModule_some stuck
      exact keyed via found
  | localMsg => cases removed
  | globalMsg => cases removed
  | fabItem => cases removed
  | beacon => cases removed

theorem unlisted_forgets (registry : Registry p) {mod : Module}
    (found : p.modules.lookup mod.identity.text = some mod) (alone : ListedAlone p mod)
    (iface : Addr) :
    ∀ item ∈ ((p.unlisted mod.identity).heap iface).locals,
      item.text ≠ mod.identity.text := by
  rw [(unlisted_heap registry mod.identity iface).locals]
  refine unlist_forgets (registry.once iface) ?_
  intro item member
  constructor
  · have listed : iface ∈ p.ifaces.items := by
      by_contra absent
      rw [(registry.unlisted iface absent).1] at member
      cases member
    exact alone iface listed item member
  · exact registry.pointers item mod.identity (Or.inl ⟨iface, member⟩)
      (Or.inr ⟨_, mod, found, rfl⟩)

theorem ListsOnly.unlisted (registry : Registry p) (identity : CStr)
    (only : ListsOnly mods fabs p) : ListsOnly mods fabs (p.unlisted identity) where
  locals iface item member := by
    rw [unlisted_locals registry identity iface] at member
    exact only.locals iface item (List.mem_of_mem_eraseP member)
  globals iface item member := by
    rw [unlisted_globals registry identity iface] at member
    exact only.globals iface item (List.mem_of_mem_eraseP member)

theorem ListsOnly.introduces {message : Message} {name : String} {pid : Int32}
    {desc : Option String} {provides : ZHash Unpacked} {middle : Proxy} (registry : Registry p)
    (introduces : Introduces env message name pid desc provides p middle q)
    (only : ListsOnly mods fabs p) (self : mods message.identity) : ListsOnly mods fabs q := by
  obtain ⟨before, apart⟩ := registry.introducing message middle.procman
  have start : ListsOnly mods fabs (p.introducing middle.procman) := ⟨only.locals, only.globals⟩
  obtain ⟨after, _, _⟩ := provideFunctions_invariant (fun _ => ListsOnly mods fabs) (by
    intro function _ value ver iface state next _ _ _ provided only
    refine only.provided provided ?_ (fun _ => False.elim)
    rintro item rfl
    exact self) before apart introduces.functions start
  have registered : ListsOnly mods fabs (registerModule
      (introducedModule ⟨p.brk, message.identity⟩ name desc pid provides)
      (zstrSend (.register (decimal pid.toInt) name) middle)) := ⟨after.locals, after.globals⟩
  rw [introduces.registers]
  exact registered.heap (Calm.sendMessage _ _ _ _ _).sameHeap

theorem ListsOnly.listed {message : Message} (registry : Registry p)
    (listing : processIfaceList message p = .ok q) (only : ListsOnly mods fabs p)
    (known : message.identity ∈ p.fabList → fabs message.identity) : ListsOnly mods fabs q := by
  rcases processIfaceList_ok listing with rfl | ⟨paths, fab, _, found, provided⟩
  · exact only
  · have name := registry.fabKey _ fab found
    refine (providePaths_invariant (ListsOnly mods fabs) ?_ registry provided only).1
    intro mod func ver iface state next _ step only
    refine only.provided step (fun _ => False.elim) ?_
    intro item same
    rw [same, name]
    exact known (ZHash.mem_of_lookup found)

def Faithful (p : Proxy) : Prop := ListsOnly (· ∈ p.modules) (· ∈ p.fabList) p

theorem Faithful.calm (faithful : Faithful p) (calm : Calm p q) : Faithful q := by
  refine (ListsOnly.heap faithful calm.sameHeap).mono ?_ ?_
  · exact fun name => (calm.mem_modules name).mpr
  · exact fun name member => calm.fabList ▸ member

theorem Faithful.arrived (faithful : Faithful p) (message : Message) :
    Faithful (p.arrived message) := by
  have same : p.SameHeap (p.arrived message) := by
    intro iface
    rw [arrived_heap]
    exact Iface.Same.refl _
  refine (ListsOnly.heap faithful same).mono ?_ ?_
  · exact fun name member => (arrived_modules message p).symm ▸ member
  · exact fun name => (mem_arrived_fabList message name).mpr

theorem Introduces.mem_modules {message : Message} {name : String} {pid : Int32}
    {desc : Option String} {provides : ZHash Unpacked} {middle : Proxy} (registry : Registry p)
    (introduces : Introduces env message name pid desc provides p middle q) (key : String) :
    key ∈ q.modules ↔ key = message.identity ∨ key ∈ p.modules := by
  have kept : middle.modules = p.modules := by
    rw [(introduces.extends registry).same]
    rfl
  rw [introduces.registers, sendMessage_modules, registerModule, ZHash.mem_insertNew,
    zstrSend_modules, kept]
  rfl

theorem Introduces.fabList {message : Message} {name : String} {pid : Int32}
    {desc : Option String} {provides : ZHash Unpacked} {middle : Proxy} (registry : Registry p)
    (introduces : Introduces env message name pid desc provides p middle q) :
    q.fabList = p.fabList := by
  rw [introduces.registers, sendMessage_fabList, registerModule, zstrSend_fabList,
    (introduces.extends registry).same]
  rfl

theorem Faithful.introduces {message : Message} {name : String} {pid : Int32}
    {desc : Option String} {provides : ZHash Unpacked} {middle : Proxy} (registry : Registry p)
    (introduces : Introduces env message name pid desc provides p middle q)
    (faithful : Faithful p) : Faithful q := by
  have only : ListsOnly (fun name => name = message.identity ∨ name ∈ p.modules)
      (· ∈ p.fabList) q :=
    (ListsOnly.mono faithful (fun _ => Or.inr) (fun _ => id)).introduces registry introduces
      (Or.inl rfl)
  refine only.mono ?_ ?_
  · exact fun key => (introduces.mem_modules registry key).mpr
  · exact fun key member => (introduces.fabList registry).symm ▸ member

theorem Faithful.withoutModule (registry : Registry p) {mod : Module}
    (found : p.modules.lookup mod.identity.text = some mod) (alone : ListedAlone p mod)
    (faithful : Faithful p) : Faithful (p.withoutModule mod) where
  locals iface item member := by
    have old := (ListsOnly.unlisted registry mod.identity faithful).locals iface item member
    have other := unlisted_forgets registry found alone iface item member
    exact AList.mem_erase.mpr ⟨other, old⟩
  globals := (ListsOnly.unlisted registry mod.identity faithful).globals

theorem Faithful.step (registry : Registry p) (allowed : CleanRemoval conf p (env, event))
    (run : p.step conf env event = .ok q) (faithful : Faithful p) : Faithful q := by
  cases step_cases run with
  | calm calm => exact faithful.calm calm
  | handled _ calm => exact (faithful.arrived _).calm calm
  | queued _ _ _ _ placement _ result =>
      have calm := (placeCall_outcome placement).calm.1
      have after := (faithful.arrived _).calm calm
      subst result
      exact ⟨after.locals, after.globals⟩
  | @listed message _ _ _ listing =>
      have extended := processIfaceList_extends (registry.arrived message) listing
      have only := (ListsOnly.listed (registry.arrived message) listing (faithful.arrived message)
        id)
      refine only.mono ?_ ?_
      · exact fun key member => by rw [extended.same]; exact member
      · exact fun key member => by rw [extended.same]; exact member
  | introduced _ _ introduction =>
      rcases processIntroduce_ok introduction with asked | ⟨_, _, _, _, _, _, introduces⟩
      · exact (faithful.arrived _).calm (.procman asked)
      · exact (faithful.arrived _).introduces (registry.arrived _) introduces
  | @removed mod before removed same calm _ =>
      have found := removedBy_registered registry removed
      have gone := (faithful.withoutModule registry found (allowed.1 mod removed))
      have unchanged : before.withoutModule mod =
          { p.withoutModule mod with procman := before.procman } := by
        rw [same]
        rfl
      refine Faithful.calm ?_ calm
      rw [unchanged]
      exact ⟨gone.locals, gone.globals⟩
  | @asked key fab _ found _ same =>
      rw [same]
      exact ⟨faithful.locals, fun iface item member =>
        (ZHash.mem_update _ _ _ _).mpr (faithful.globals iface item member)⟩
  | @expired key fab _ found expired same =>
      rw [same]
      have gone := ListsOnly.unlisted registry fab.identity faithful
      refine ⟨gone.locals, fun iface item member => ?_⟩
      have old := gone.globals iface item member
      refine AList.mem_erase.mpr ⟨?_, old⟩
      rw [← registry.fabKey key fab found]
      rw [unlisted_globals registry] at member
      have listed := List.mem_of_mem_eraseP member
      refine allowed.2 fab expired iface ?_ item listed
      by_contra absent
      rw [(registry.unlisted iface absent).2] at listed
      cases listed
  | connected fresh _ same =>
      rw [same]
      exact ⟨faithful.locals, fun iface item member =>
        (AList.mem_insert _).mpr (Or.inr (faithful.globals iface item member))⟩

/-- While modules go cleanly and fabrics unlisted, the registry keeps its
referential integrity. -/
theorem integrity_reaches (reached : Reaches (fabric conf) (CleanRemoval conf) p) :
    Integrity p := by
  have faithful : Faithful p := by
    refine fabric_invariant Faithful reached ?_ ?_
    · exact ⟨fun _ _ member => (by cases member), fun _ _ member => (by cases member)⟩
    · intro env event state next allowed move registry faithful
      exact faithful.step registry allowed move
  exact fun iface _ => ⟨faithful.locals iface, faithful.globals iface⟩

theorem integrity_introduced :
    Integrity (fabricAfter plainConf
      [(early, .localMsg (introduceOf worker "mod" 77 [("f", 1), ("g", 2)]) "yes")]) := by
  refine integrity_reaches (fabricAfter_reaches ?_ (by decide))
  intro label member state
  rw [List.mem_singleton.mp member]
  exact ⟨fun _ removed => (by cases removed), fun _ expired => (by cases expired)⟩

def introducedTwice : List (Env × Event) := [
  (early, .localMsg (introduceOf worker "mod" 77 [("f", 1)]) "yes"),
  (early, .localMsg (introduceOf worker "mod" 77 [("g", 1)]) "yes"),
  (early, .procman "remove" "77")]

theorem integrity_lost :
    ¬ ∀ conf p, Reaches (fabric conf) anything p → Integrity p := by
  intro always
  have reached : Reaches (fabric plainConf) anything (fabricAfter plainConf introducedTwice) :=
    fabricAfter_reaches (fun _ _ _ => trivial) (by decide)
  obtain ⟨locals, _⟩ := always plainConf _ reached 5 (by decide)
  have registered := locals ⟨4, "0001020304"⟩ (by decide)
  revert registered
  decide

/-! Calls keep the interface they were bound to first, also when it is taken off
the registry. -/

def CallsListed (p : Proxy) : Prop :=
  ∀ key call, p.queue.lookup key = some call →
    ∃ iface ∈ p.ifaces.items, call.iface = some iface

def unlistedBy (conf : Config) (env : Env) (event : Event) (p : Proxy) : Option CStr :=
  ((removedBy conf env event p).map Module.identity).or
    ((expiredBy event p).map Fabric.identity)

def SparesCalls (conf : Config) (p : Proxy) (label : Env × Event) : Prop :=
  ∀ identity, unlistedBy conf label.1 label.2 p = some identity →
    ∀ key call iface, label.2 ≠ .queueItem key → p.queue.lookup key = some call →
      call.iface = some iface → ((p.heap iface).unlist identity).deserted = false

theorem CallsListed.calm (listed : CallsListed p) (calm : Calm p q) : CallsListed q := by
  intro key after found
  obtain ⟨before, queued, carried⟩ := calm.queue key after found
  obtain ⟨iface, member, bound⟩ := listed key before queued
  exact ⟨iface, calm.ifaces ▸ member, (carried.iface iface bound).1⟩

theorem CallsListed.more (listed : CallsListed p) (queue : q.queue = p.queue)
    (more : p.ifaces.items ⊆ q.ifaces.items) : CallsListed q := by
  intro key call found
  rw [queue] at found
  obtain ⟨iface, member, bound⟩ := listed key call found
  exact ⟨iface, more member, bound⟩

theorem CallsListed.unlist (registry : Registry p) (identity : CStr) (listed : CallsListed p)
    {key : String} {call : Message}
    (found : p.queue.lookup key = some call) (spared : ∀ iface, call.iface = some iface →
      ((p.heap iface).unlist identity).deserted = false) :
    ∃ iface ∈ (p.unlisted identity).ifaces.items, call.iface = some iface := by
  obtain ⟨iface, member, bound⟩ := listed key call found
  refine ⟨iface, ?_, bound⟩
  rw [unlisted_items registry, List.mem_filter]
  exact ⟨member, by simp [spared iface bound]⟩

theorem CallsListed.step (registry : Registry p) (allowed : SparesCalls conf p (env, event))
    (run : p.step conf env event = .ok q) (listed : CallsListed p) : CallsListed q := by
  have arrived : ∀ message, CallsListed (p.arrived message) := fun message =>
    listed.more (arrived_queue message p) (by rw [arrived_ifaces]; exact fun _ => id)
  cases step_cases run with
  | calm calm => exact listed.calm calm
  | handled _ calm => exact (arrived _).calm calm
  | @queued message call placed middle read _ parsed _ placement _ result =>
      have arrives := Event.message_arrives read
      have outcome := placeCall_outcome placement
      obtain ⟨calm, same⟩ := outcome.calm
      have parsedSame := readCall_ok parsed
      obtain ⟨iface, on⟩ := outcome.bound (by rw [parsedSame]; exact arrives.routedVia)
      obtain ⟨member, _⟩ := on.serves (by rw [parsedSame]; exact arrives.iface)
      have after := (arrived message).calm calm
      subst result
      intro key queued found
      simp only [enqueue, ZHash.lookup_insertNew] at found
      split at found
      · cases found
        exact ⟨iface, calm.ifaces ▸ member, by rw [on.same]⟩
      · exact after key queued found
  | @listed message _ _ _ listing =>
      have extended := processIfaceList_extends (registry.arrived message) listing
      exact (arrived message).more (by rw [extended.same]) extended.more
  | @introduced message _ _ introduction =>
      rcases processIntroduce_ok introduction with asked | ⟨_, _, pid, _, _, middle, introduces⟩
      · exact (arrived _).calm (.procman asked)
      · have extended := introduces.extends (registry.arrived message)
        have after : CallsListed middle :=
          (arrived message).more (by rw [extended.same]; rfl) extended.more
        have registered : ∀ mod command,
            CallsListed (registerModule mod (zstrSend command middle)) :=
          fun mod command => after.more rfl fun _ => id
        rw [introduces.registers]
        exact (registered _ _).calm (.sendMessage _ _ _ _ _)
  | @removed mod before removed same calm deleted =>
      intro key after found
      obtain ⟨call, queued, carried⟩ := calm.queue key after found
      have inQueue : p.queue.lookup key = some call := by
        rw [same] at queued
        exact queued
      have unlisted : unlistedBy conf env event p = some mod.identity := by
        simp [unlistedBy, removed]
      have other : event ≠ .queueItem key := by
        intro own
        exact deleted key own (ZHash.mem_of_lookup found)
      obtain ⟨iface, member, bound⟩ := listed.unlist registry mod.identity inQueue
        fun iface => allowed mod.identity unlisted key call iface other inQueue
      refine ⟨iface, ?_, (carried.iface iface bound).1⟩
      rw [calm.ifaces, same]
      exact member
  | @asked key fab _ found _ same =>
      rw [same]
      exact listed.more rfl fun _ => id
  | @expired key fab own found expired same =>
      subst own
      have unlisted : unlistedBy conf env (.fabItem key) p = some fab.identity := by
        simp [unlistedBy, expired, removedBy]
      rw [same]
      intro other call inQueue
      exact listed.unlist registry fab.identity inQueue
        fun iface => allowed fab.identity unlisted other call iface (by simp) inQueue
  | connected fresh _ same =>
      rw [same]
      exact listed.more rfl fun _ => id

/-- While nobody goes who is the last provider for a waiting or routed call,
queued calls stay bound to registered interfaces. -/
theorem callsListed_reaches (reached : Reaches (fabric conf) (SparesCalls conf) p) :
    CallsListed p := by
  refine fabric_invariant CallsListed reached ?_ ?_
  · intro key call found
    cases found
  · intro env event state next allowed move registry listed
    exact listed.step registry allowed move

theorem callsListed_queued :
    CallsListed (fabricAfter plainConf [
      (early, .localMsg (introduceOf worker "mod" 77 [("f", 1)]) "yes"),
      (early, .localMsg (callOf caller "mod" "f" 1 "call-1") "")]) := by
  refine callsListed_reaches (fabricAfter_reaches ?_ (by decide))
  intro label member state identity unlisted
  simp only [List.mem_cons, List.not_mem_nil, or_false] at member
  rcases member with rfl | rfl <;> cases unlisted

def deserted : List (Env × Event) := [
  (early, .localMsg (introduceOf worker "mod" 77 [("f", 1)]) "yes"),
  (early, .localMsg (callOf caller "mod" "f" 1 "call-1") ""),
  (early, .localMsg (callOf caller "mod" "f" 1 "call-2") ""),
  (early, .procman "remove" "77")]

theorem callsListed_lost :
    ¬ ∀ conf p, Reaches (fabric conf) anything p → CallsListed p := by
  intro always
  have reached : Reaches (fabric plainConf) anything (fabricAfter plainConf deserted) :=
    fabricAfter_reaches (fun _ _ _ => trivial) (by decide)
  have waits : "call-2" ∈ (fabricAfter plainConf deserted).queue := by decide
  obtain ⟨call, found⟩ := ZHash.lookup_of_mem waits
  obtain ⟨iface, listed, _⟩ := always plainConf _ reached "call-2" call found
  have empty : (fabricAfter plainConf deserted).ifaces.items = [] := by decide
  rw [empty] at listed
  cases listed

end

end ModBus
