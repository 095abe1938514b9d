import ModBus.Occupancy

/-! Wakeups: what a module that becomes idle finds waiting for it. -/

namespace ModBus

open Libc Czmq Transition

def WaitsFor (p : Proxy) (identity key : String) : Prop :=
  ∃ call iface head rest, p.queue.lookup key = some call ∧ call.routedVia = none ∧
    call.iface = some iface ∧ (p.heap iface).locals = head :: rest ∧ head.text = identity

def Serves (name : String) (provides : ZHash Unpacked) (call : Message) : Prop :=
  call.module = some name ∧ ∃ function value ver, call.function = some function ∧
    provides.lookup function = some value ∧ value.version = .ok ver ∧ call.version ≤ ver

def Message.HasFabric (call : Message) : Prop :=
  call.isLocal = true ∧ ∃ globals, call.globals = some globals ∧ globals.items ≠ []

def Free (p : Proxy) (identity other : String) : Prop :=
  other = identity ∨ ∃ mod, p.modules.lookup other = some mod ∧ mod.state = .idle

def Leaves (env : Env) (p : Proxy) (identity key : String) (call : Message) : Prop :=
  (∃ other before after, Free p identity other ∧
    env.visit p.queue.keys = before ++ key :: after ∧ WaitsFor p other key ∧
    ∀ earlier ∈ before, ¬ WaitsFor p other earlier) ∨
  call.HasFabric ∧ ∃ iface, call.iface = some iface ∧ (p.heap iface).locals = []

def Woken (p q : Proxy) (identity : String) : Prop :=
  ∃ mod, q.modules.lookup identity = some mod ∧
    ((mod.state = .busy ∧ ∃ key call, p.queue.lookup key = some call ∧ call.routedVia = none ∧
        RoutedTo q identity key) ∨
      ∀ key call, q.queue.lookup key = some call → call.routedVia = none →
        ¬ Serves mod.name mod.provides call)

def Frees (message : Message) (p q : Proxy) : Prop :=
  message.isLocal = true ∧
    (message.command = "introduce" ∧ message.identity ∉ p.modules ∧ message.identity ∈ q.modules ∨
      message.command ∈ ["result", "exception"] ∧ message.actionid ∈ p.queue ∧
        ∃ mod, p.modules.lookup message.identity = some mod ∧ mod.needRestart = false)

/-- An introduction finds no call waiting for it. An answer finds a call that
waits for its sender before all others, or else every call that the sender could
do goes elsewhere in the same walk. -/
def WakesUp (env : Env) (message : Message) (p : Proxy) : Prop :=
  if message.command = "introduce" then
    ∀ name provides, messageGetName message = .ok (some name) →
      messageGetProvides message = .ok (some provides) →
      ∀ key call, p.queue.lookup key = some call → call.routedVia = none →
        ¬ Serves name provides call
  else
    (∃ key, WaitsFor (p.deleteCall message.actionid) message.identity key) ∨
      ∀ mod, p.modules.lookup message.identity = some mod →
        ∀ key call, (p.deleteCall message.actionid).queue.lookup key = some call →
          call.routedVia = none → Serves mod.name mod.provides call →
          Leaves env (p.deleteCall message.actionid) message.identity key call

inductive Turn (call : Message) (p : Proxy) (placed : Message) (q : Proxy) : Prop
  | given {iface head rest mod} : call.iface = some iface → (p.heap iface).locals = head :: rest →
      p.modules.lookup head.text = some mod → mod.state = .idle →
      placed.routedVia = some head.text →
      q.modules = ZHash.update p.modules head.text { mod with state := .busy } →
      Turn call p placed q
  | kept {iface head rest mod} : call.iface = some iface → (p.heap iface).locals = head :: rest →
      p.modules.lookup head.text = some mod → mod.state ≠ .idle → placed.routedVia = none →
      q.modules = p.modules → Turn call p placed q
  | headless {iface} : call.iface = some iface → (p.heap iface).locals = [] →
      q.modules = p.modules → (placed.routedVia = none ↔ ¬ call.HasFabric) → Turn call p placed q

structure Walked (keys : List String) (p q : Proxy) : Prop where
  registry : Registry q
  separated : Separated q
  calm : Calm p q
  untouched : ∀ key, key ∉ keys → q.queue.lookup key = p.queue.lookup key
  kept : ∀ key call, p.queue.lookup key = some call →
    ∃ after, q.queue.lookup key = some after ∧ call.Carried after
  modules : ∀ identity new, q.modules.lookup identity = some new →
    ∃ old, p.modules.lookup identity = some old ∧
      (new = old ∨ old.state = .idle ∧ new = { old with state := .busy } ∧
        ∃ key ∈ keys, WaitsFor p identity key)

section

variable {conf : Config} {env : Env} {event : Event} {p q r : Proxy}
  {message placed call : Message} {identity key : String} {keys : List String}

theorem placeQueued_turn {rc : Int} (registry : Registry p) (separated : Separated p)
    (queued : p.queue.lookup key = some call) (unrouted : call.routedVia = none)
    (run : placeQueued env key p = .ok (rc, q)) :
    rc = 0 ∧ ∃ placed, call.Carried placed ∧ Turn call p placed q ∧
      ∀ other, q.queue.lookup other = if other = key then some placed else p.queue.lookup other := by
  simp only [placeQueued, queued] at run
  split at run
  · cases run
  · rename_i code placed middle placement
    cases run
    have outcome := placeCall_outcome placement
    have carried := outcome.carried
    obtain ⟨iface, bound, _⟩ := (registry.calls key call queued).iface
    have zero : rc = 0 := outcome.zero bound
    subst zero
    have member : key ∈ middle.queue := outcome.calm.2 ▸ ZHash.mem_of_lookup queued
    refine ⟨rfl, placed, carried, ?_, fun other => ?_⟩
    · have copies := (carried.iface iface bound).2
      have fabrics : ∀ globals, placed.globals = some globals →
          ∃ earlier, call.globals = some earlier ∧ earlier.items = globals.items := by
        intro globals copied
        rw [copied] at copies
        exact Option.map_eq_some_iff.mp copies.symm
      have copied : ∀ globals, call.globals = some globals →
          ∃ later, placed.globals = some later ∧ later.items = globals.items := by
        intro globals own
        rw [own] at copies
        exact Option.map_eq_some_iff.mp copies
      have here : ∀ other, PlacedOn call p other placed middle → other = iface := by
        intro other on
        rcases on.binds with same | ⟨unbound, _⟩
        · rw [bound] at same
          cases same
          rfl
        · simp [bound] at unbound
      cases outcome with
      | routed routed => simp [unrouted] at routed
      | waiting on chosen waits _ _ modules =>
          cases here _ on
          rcases chosen with choice | ⟨empty, _, nobody⟩
          · obtain ⟨head, rest, mod, locals, found, target⟩ := choice.head registry separated
            refine .kept bound locals found (fun idle => ?_) waits modules
            rw [waits, if_pos idle] at target
            cases target
          · refine .headless bound empty modules (iff_of_true waits ?_)
            rintro ⟨isLocal, globals, own, nonempty⟩
            obtain ⟨later, also, same⟩ := copied globals own
            exact nonempty (same ▸ nobody waits isLocal later also)
      | @toModule _ _ _ via mod on chosen routed _ _ found idle modules =>
          cases here _ on
          rcases chosen with choice | ⟨_, routes, _⟩
          · obtain ⟨head, rest, other, locals, _, target⟩ := choice.head registry separated
            rw [routed] at target
            split at target
            · cases target
              exact .given bound locals found idle routed modules
            · cases target
          · obtain ⟨_, globals, also, listed⟩ := routes via routed
            obtain ⟨earlier, own, same⟩ := fabrics globals also
            have endpoint := separated.copies key call earlier queued own via (same ▸ listed)
            exact absurd endpoint (separated.modules via (ZHash.mem_of_lookup found))
      | @toFabric _ _ _ via on chosen routed _ _ busy modules =>
          cases here _ on
          rcases chosen with choice | ⟨empty, routes, _⟩
          · obtain ⟨head, rest, mod, _, found, target⟩ := choice.head registry separated
            rw [routed] at target
            split at target
            · rename_i idle
              cases target
              exact absurd idle (busy mod found)
            · cases target
          · obtain ⟨isLocal, globals, also, listed⟩ := routes via routed
            obtain ⟨earlier, own, same⟩ := fabrics globals also
            refine .headless bound empty modules (iff_of_false (by simp [routed]) ?_)
            exact not_not.mpr ⟨isLocal, earlier, own, List.ne_nil_of_mem (same ▸ listed)⟩
    · rw [ZHash.lookup_update member, outcome.calm.2]

theorem placeQueued_routed {rc : Int} {via : String}
    (queued : p.queue.lookup key = some call) (routed : call.routedVia = some via)
    (run : placeQueued env key p = .ok (rc, q)) :
    rc = 0 ∧ q.modules = p.modules ∧ ∀ other, q.queue.lookup other = p.queue.lookup other := by
  simp only [placeQueued, queued, placeCall, routed] at run
  cases run
  refine ⟨rfl, rfl, fun other => ?_⟩
  rw [ZHash.lookup_update (ZHash.mem_of_lookup queued)]
  split
  · rename_i here
    rw [here, queued]
  · rfl

theorem Walked.refl (registry : Registry p) (separated : Separated p) : Walked keys p p :=
  ⟨registry, separated, .refl p, fun _ _ => rfl, fun _ call found => ⟨call, found, .refl call⟩,
    fun _ mod found => ⟨mod, found, Or.inl rfl⟩⟩

theorem Walked.waited (walked : Walked keys p q) (queued : q.queue.lookup key = some placed)
    (waits : placed.routedVia = none) :
    ∃ call, p.queue.lookup key = some call ∧ call.routedVia = none ∧ call.Carried placed := by
  obtain ⟨call, before, carried⟩ := walked.calm.queue key placed queued
  refine ⟨call, before, ?_, carried⟩
  cases routed : call.routedVia with
  | none => rfl
  | some via => rw [← carried.routed via routed, waits] at routed; cases routed

theorem Walked.waitsFor (registry : Registry p) (walked : Walked keys p q)
    (waits : WaitsFor q identity key) : WaitsFor p identity key := by
  obtain ⟨placed, iface, head, rest, queued, unrouted, bound, locals, same⟩ := waits
  obtain ⟨call, before, waited, carried⟩ := walked.waited queued unrouted
  obtain ⟨other, assigned, _⟩ := (registry.calls key call before).iface
  have here := (carried.iface other assigned).1
  rw [bound] at here
  cases here
  exact ⟨call, iface, head, rest, before, waited, assigned,
    (walked.calm.sameHeap iface).locals ▸ locals, same⟩

theorem Walked.visit {rc : Int} (registry : Registry p) (member : key ∈ keys)
    (walked : Walked keys p q) (run : placeQueued env key q = .ok (rc, r)) :
    rc = 0 ∧ Walked keys p r := by
  have calm := placeQueued_calm run
  have after := walked.registry.calm calm
  have apart := walked.separated.calm walked.registry calm
  cases found : q.queue.lookup key with
  | none =>
      simp only [placeQueued, found] at run
      cases run
      exact ⟨rfl, walked⟩
  | some call =>
      cases routed : call.routedVia with
      | some via =>
          obtain ⟨zero, modules, queue⟩ := placeQueued_routed found routed run
          refine ⟨zero, after, apart, walked.calm.trans calm, ?_, ?_, ?_⟩
          · intro other absent
            rw [queue, walked.untouched other absent]
          · intro other before queued
            rw [queue]
            exact walked.kept other before queued
          · rw [modules]
            exact walked.modules
      | none =>
          obtain ⟨zero, placed, carried, turn, queue⟩ :=
            placeQueued_turn walked.registry walked.separated found routed run
          refine ⟨zero, after, apart, walked.calm.trans calm, ?_, ?_, ?_⟩
          · intro other absent
            have different : other ≠ key := fun here => absent (here ▸ member)
            rw [queue, if_neg different, walked.untouched other absent]
          · intro other before queued
            obtain ⟨middle, there, first⟩ := walked.kept other before queued
            rw [queue]
            split
            · rename_i here
              rw [here, found] at there
              cases there
              exact ⟨placed, rfl, first.trans carried⟩
            · exact ⟨middle, there, first⟩
          · cases turn with
            | kept _ _ _ _ _ modules =>
                rw [modules]
                exact walked.modules
            | headless _ _ modules =>
                rw [modules]
                exact walked.modules
            | @given iface head rest mod bound locals there idle target modules =>
                intro other new registered
                rw [modules, ZHash.lookup_update (ZHash.mem_of_lookup there)] at registered
                split at registered
                · rename_i here
                  cases registered
                  obtain ⟨old, before, same | ⟨_, busy, _⟩⟩ := walked.modules head.text mod there
                  · subst same
                    have waits : WaitsFor q head.text key :=
                      ⟨call, iface, head, rest, found, routed, bound, locals, rfl⟩
                    exact ⟨mod, here ▸ before, Or.inr ⟨idle, rfl, key, member,
                      here ▸ walked.waitsFor registry waits⟩⟩
                  · rw [busy] at idle
                    cases idle
                · exact walked.modules other new registered

theorem walked_all (registry : Registry p) (separated : Separated p)
    (walk : ZHash.foreach (placeQueued env) keys p = .ok q) : Walked keys p q :=
  ZHash.foreach_invariant (Walked keys p)
    (fun _ member _ _ _ call walked => (walked.visit registry member call).2) walk
    (.refl registry separated)

theorem walked_at {before after : List String} (registry : Registry p) (separated : Separated p)
    (walk : ZHash.foreach (placeQueued env) (before ++ key :: after) p = .ok q) :
    ∃ first next, ZHash.foreach (placeQueued env) before p = .ok first ∧ Walked before p first ∧
      placeQueued env key first = .ok (0, next) ∧ Walked after next q := by
  obtain ⟨first, start, walked, rest⟩ := ZHash.foreach_append (Walked before p)
    (fun _ member _ _ _ call walked => walked.visit registry member call) walk
    (.refl registry separated)
  simp only [ZHash.foreach] at rest
  split at rest
  · cases rest
  · rename_i rc next call
    have reached : Walked [key] first first := .refl walked.registry walked.separated
    obtain ⟨rfl, visited⟩ := reached.visit walked.registry (by simp) call
    exact ⟨first, next, start, walked, call, walked_all visited.registry visited.separated rest⟩

theorem first_given {before after : List String} {mod : Module} (registry : Registry p)
    (separated : Separated p)
    (walk : ZHash.foreach (placeQueued env) (before ++ key :: after) p = .ok q)
    (apart : key ∉ before) (waits : WaitsFor p identity key)
    (first : ∀ earlier ∈ before, ¬ WaitsFor p identity earlier)
    (found : p.modules.lookup identity = some mod) (idle : mod.state = .idle) :
    RoutedTo q identity key ∧
      ∃ new, q.modules.lookup identity = some new ∧ new.state = .busy := by
  obtain ⟨middle, next, _, walked, visit, rest⟩ := walked_at registry separated walk
  obtain ⟨call, iface, head, tail, queued, unrouted, bound, locals, rfl⟩ := waits
  have there : middle.queue.lookup key = some call := (walked.untouched key apart).trans queued
  have still : middle.modules.lookup head.text = some mod := by
    obtain ⟨new, registered⟩ := ZHash.lookup_of_mem
      ((walked.calm.mem_modules head.text).mpr (ZHash.mem_of_lookup found))
    obtain ⟨old, same, rfl | ⟨_, _, earlier, member, taken⟩⟩ := walked.modules _ new registered
    · rw [registered, ← same, found]
    · exact absurd taken (first earlier member)
  have sameLocals : (middle.heap iface).locals = head :: tail := by
    rw [(walked.calm.sameHeap iface).locals, locals]
  obtain ⟨_, placed, _, turn, queue⟩ :=
    placeQueued_turn walked.registry walked.separated there unrouted visit
  cases turn with
  | @given other newHead newTail given bound' locals' there' idle' target modules =>
      rw [bound] at bound'
      cases bound'
      rw [sameLocals] at locals'
      cases locals'
      have placedThere : next.queue.lookup key = some placed := by rw [queue, if_pos rfl]
      constructor
      · obtain ⟨last, finally', carried⟩ := rest.kept key placed placedThere
        exact ⟨last, finally', by rw [carried.routed _ target]; exact target⟩
      · have busy : next.modules.lookup head.text = some { given with state := .busy } := by
          rw [modules, ZHash.lookup_update (ZHash.mem_of_lookup there'), if_pos rfl]
        obtain ⟨new, registered⟩ := ZHash.lookup_of_mem
          ((rest.calm.mem_modules head.text).mpr (ZHash.mem_of_lookup busy))
        obtain ⟨old, same, rfl | ⟨idle, _⟩⟩ := rest.modules _ new registered
        · rw [busy] at same
          cases same
          exact ⟨_, registered, rfl⟩
        · rw [busy] at same
          cases same
          cases idle
  | @kept other newHead newTail given bound' locals' there' busy =>
      rw [bound] at bound'
      cases bound'
      rw [sameLocals] at locals'
      cases locals'
      rw [still] at there'
      cases there'
      exact absurd idle busy
  | headless bound' locals' =>
      rw [bound] at bound'
      cases bound'
      rw [sameLocals] at locals'
      cases locals'

theorem first_of_mem {α : Type} {Good : α → Prop} {items : List α} {item : α}
    (member : item ∈ items) (good : Good item) :
    ∃ before first after, items = before ++ first :: after ∧ Good first ∧
      ∀ earlier ∈ before, ¬ Good earlier := by
  classical
  have found : (items.find? fun other => decide (Good other)).isSome = true :=
    List.find?_isSome.mpr ⟨item, member, by simpa using good⟩
  obtain ⟨first, same⟩ := Option.isSome_iff_exists.mp found
  obtain ⟨isGood, before, after, split, none⟩ := List.find?_eq_some_iff_append.mp same
  exact ⟨before, first, after, split, by simpa using isGood, by simpa using none⟩

theorem mem_visit (env : Env) (p : Proxy) (queued : p.queue.lookup key = some call) :
    key ∈ env.visit p.queue.keys :=
  (env.visit_perm _).mem_iff.mpr (AList.mem_keys.mp (ZHash.mem_of_lookup queued))

theorem visit_apart {before after : List String} (split : env.visit p.queue.keys = before ++ key :: after) :
    key ∉ before ∧ key ∉ after := by
  have nodup : (before ++ key :: after).Nodup :=
    split ▸ (env.visit_perm _).nodup_iff.mpr p.queue.keys_nodup
  obtain ⟨_, later, apart⟩ := List.nodup_append.mp nodup
  exact ⟨fun member => apart key member key (by simp) rfl, (List.nodup_cons.mp later).1⟩

section

variable {mod : Module} (registry : Registry p) (separated : Separated p)
  (found : p.modules.lookup identity = some mod) (idle : mod.state = .idle)
  (walk : placeAll env p = .ok q)

include registry separated walk

theorem placeAll_given (found : p.modules.lookup identity = some mod) (idle : mod.state = .idle)
    (waits : WaitsFor p identity key) :
    ∃ given, WaitsFor p identity given ∧ RoutedTo q identity given ∧
      ∃ new, q.modules.lookup identity = some new ∧ new.state = .busy := by
  have member : key ∈ env.visit p.queue.keys := by
    obtain ⟨call, _, _, _, queued, _⟩ := waits
    exact mem_visit env p queued
  obtain ⟨before, first, after, split, firstWaits, none⟩ := first_of_mem member waits
  unfold placeAll at walk
  rw [split] at walk
  exact ⟨first, firstWaits, first_given registry separated walk (visit_apart split).1 firstWaits
    none found idle⟩

include found idle in
theorem leaves_routed (queued : p.queue.lookup key = some call) (unrouted : call.routedVia = none)
    (leaves : Leaves env p identity key call) (there : q.queue.lookup key = some placed) :
    placed.routedVia ≠ none := by
  unfold placeAll at walk
  rcases leaves with ⟨other, before, after, free, split, waits, first⟩ | ⟨fabric, iface, bound, empty⟩
  · obtain ⟨host, registered, isIdle⟩ : ∃ host, p.modules.lookup other = some host ∧
        host.state = .idle := by
      rcases free with rfl | isIdle
      · exact ⟨mod, found, idle⟩
      · exact isIdle
    rw [split] at walk
    obtain ⟨⟨last, finally', routed⟩, _⟩ := first_given registry separated walk
      (visit_apart split).1 waits first registered isIdle
    rw [there] at finally'
    cases finally'
    simp [routed]
  · obtain ⟨before, after, split⟩ := List.append_of_mem (mem_visit env p queued)
    rw [split] at walk
    obtain ⟨middle, next, _, walked, visit, rest⟩ := walked_at registry separated walk
    have still := (walked.untouched key (visit_apart split).1).trans queued
    have nobody : (middle.heap iface).locals = [] := by
      rw [(walked.calm.sameHeap iface).locals, empty]
    obtain ⟨_, after', _, turn, queue⟩ :=
      placeQueued_turn walked.registry walked.separated still unrouted visit
    have routed : after'.routedVia ≠ none := by
      cases turn with
      | given bound' locals =>
          rw [bound] at bound'
          cases bound'
          simp [nobody] at locals
      | kept bound' locals =>
          rw [bound] at bound'
          cases bound'
          simp [nobody] at locals
      | headless _ _ _ either => exact fun none => either.mp none fabric
    obtain ⟨via, target⟩ := Option.ne_none_iff_exists'.mp routed
    obtain ⟨last, finally', carried⟩ := rest.kept key after' (by rw [queue, if_pos rfl])
    rw [there] at finally'
    cases finally'
    rw [carried.routed via target, target]
    simp

theorem stays_unrouted (queued : p.queue.lookup key = some call) (unrouted : call.routedVia = none)
    (stays : ¬ Leaves env p identity key call) :
    ∃ placed, q.queue.lookup key = some placed ∧ placed.routedVia = none ∧ call.Carried placed := by
  unfold placeAll at walk
  obtain ⟨before, after, split⟩ := List.append_of_mem (mem_visit env p queued)
  rw [split] at walk
  obtain ⟨middle, next, start, walked, visit, rest⟩ := walked_at registry separated walk
  obtain ⟨absent, later⟩ := visit_apart split
  have still := (walked.untouched key absent).trans queued
  obtain ⟨_, placed, carried, turn, queue⟩ :=
    placeQueued_turn walked.registry walked.separated still unrouted visit
  have waits : placed.routedVia = none := by
    cases turn with
    | kept _ _ _ _ waits => exact waits
    | @headless iface bound empty _ either =>
        refine either.mpr fun fabric => stays (Or.inr ⟨fabric, iface, bound, ?_⟩)
        rw [← (walked.calm.sameHeap iface).locals, empty]
    | @given iface head tail host bound locals there isIdle =>
        exfalso
        obtain ⟨old, registered, same | ⟨_, busy, _⟩⟩ := walked.modules head.text host there
        · subst same
          have waitsFor : WaitsFor p head.text key :=
            ⟨call, iface, head, tail, queued, unrouted, bound,
              (walked.calm.sameHeap iface).locals ▸ locals, rfl⟩
          refine stays (Or.inl ⟨head.text, before, after, Or.inr ⟨host, registered, isIdle⟩, split,
            waitsFor, fun earlier member sooner => ?_⟩)
          -- the first of the earlier ones took the module before the visit
          obtain ⟨start', first, _, parts, firstWaits, none⟩ := first_of_mem member sooner
          have firstApart : first ∉ start' := by
            have nodup : before.Nodup :=
              (List.nodup_append.mp (split ▸ (env.visit_perm _).nodup_iff.mpr p.queue.keys_nodup)).1
            rw [parts] at nodup
            exact fun twice => (List.nodup_append.mp nodup).2.2 first twice first (by simp) rfl
          rw [parts] at start
          obtain ⟨_, new, now, isBusy⟩ := first_given registry separated start firstApart firstWaits
            none registered isIdle
          rw [there] at now
          cases now
          rw [isIdle] at isBusy
          cases isBusy
        · rw [busy] at isIdle
          cases isIdle
  refine ⟨placed, ?_, waits, carried⟩
  rw [rest.untouched key later, queue, if_pos rfl]

end

theorem serves_carried {name : String} {provides : ZHash Unpacked} (carried : call.Carried placed) :
    Serves name provides placed ↔ Serves name provides call := by
  rw [Serves, carried.same]
  rfl

/-- A walk that finds a module idle wakes it, unless a call that it could do is
behind another one's. -/
theorem placeAll_woken {mod : Module} (registry : Registry p) (separated : Separated p)
    (found : p.modules.lookup identity = some mod) (idle : mod.state = .idle)
    (walk : placeAll env p = .ok q) :
    Woken p q identity ↔ (∃ key, WaitsFor p identity key) ∨
      ∀ key call, p.queue.lookup key = some call → call.routedVia = none →
        Serves mod.name mod.provides call → Leaves env p identity key call := by
  have walked := walked_all registry separated walk
  constructor
  · rintro ⟨new, now, woken⟩
    by_cases waits : ∃ key, WaitsFor p identity key
    · exact Or.inl waits
    · right
      obtain ⟨old, before, same | ⟨_, _, key, _, taken⟩⟩ := walked.modules identity new now
      · rw [found] at before
        cases before
        subst same
        rcases woken with ⟨busy, _⟩ | none
        · rw [idle] at busy
          cases busy
        · intro key call queued unrouted serves
          by_contra stays
          obtain ⟨placed, there, waiting, carried⟩ :=
            stays_unrouted registry separated walk queued unrouted stays
          exact none key placed there waiting ((serves_carried carried).mpr serves)
      · exact absurd ⟨key, taken⟩ waits
  · rintro (⟨key, waits⟩ | leaves)
    · obtain ⟨given, ⟨call, _, _, _, queued, unrouted, _⟩, routed, new, now, busy⟩ :=
        placeAll_given registry separated walk found idle waits
      exact ⟨new, now, Or.inl ⟨busy, given, call, queued, unrouted, routed⟩⟩
    · obtain ⟨new, now⟩ := ZHash.lookup_of_mem
        ((walked.calm.mem_modules identity).mpr (ZHash.mem_of_lookup found))
      obtain ⟨old, before, card⟩ := walked.calm.lookup now
      rw [found] at before
      cases before
      obtain ⟨_, sameName, _, _, sameProvides⟩ := card_fields card
      refine ⟨new, now, Or.inr fun key placed there waiting serves => ?_⟩
      obtain ⟨call, queued, unrouted, carried⟩ := walked.waited there waiting
      rw [← sameName, ← sameProvides, serves_carried carried] at serves
      exact leaves_routed registry separated found idle walk queued unrouted
        (leaves key call queued unrouted serves) there waiting

/-! The events that make a module idle. -/

theorem waitsFor_congr (queue : q.queue = p.queue) (heap : q.heap = p.heap) :
    WaitsFor q identity key ↔ WaitsFor p identity key := by
  unfold WaitsFor
  rw [queue, heap]

theorem leaves_congr (queue : q.queue = p.queue) (heap : q.heap = p.heap)
    (free : ∀ other, Free q identity other ↔ Free p identity other) :
    Leaves env q identity key call ↔ Leaves env p identity key call := by
  unfold Leaves
  simp only [waitsFor_congr queue heap, queue, heap, free]

theorem woken_congr (calm : Calm p r) (more : ∀ key call, p.queue.lookup key = some call →
      q.queue.lookup key = some call) : Woken q r identity ↔ Woken p r identity := by
  have same : ∀ key, RoutedTo r identity key →
      ((∃ call, q.queue.lookup key = some call ∧ call.routedVia = none) ↔
        ∃ call, p.queue.lookup key = some call ∧ call.routedVia = none) := by
    rintro key ⟨placed, there, _⟩
    obtain ⟨call, queued, _⟩ := calm.queue key placed there
    have before := more key call queued
    simp [queued, before]
  constructor
  · rintro ⟨mod, now, ⟨busy, key, call, queued, unrouted, routed⟩ | none⟩
    · obtain ⟨earlier, before, waits⟩ := (same key routed).mp ⟨call, queued, unrouted⟩
      exact ⟨mod, now, Or.inl ⟨busy, key, earlier, before, waits, routed⟩⟩
    · exact ⟨mod, now, Or.inr none⟩
  · rintro ⟨mod, now, ⟨busy, key, call, queued, unrouted, routed⟩ | none⟩
    · obtain ⟨later, after, waits⟩ := (same key routed).mpr ⟨call, queued, unrouted⟩
      exact ⟨mod, now, Or.inl ⟨busy, key, later, after, waits, routed⟩⟩
    · exact ⟨mod, now, Or.inr none⟩

structure Freed (p : Proxy) (key identity : String) (mod : Module) (freed : Proxy) : Prop where
  calm : Calm p freed
  idle : freed.modules.lookup identity = some { mod with state := .idle }
  queue : freed.queue = (p.deleteCall key).queue
  heap : freed.heap = (p.deleteCall key).heap
  free : ∀ other, Free freed identity other ↔ Free (p.deleteCall key) identity other

theorem freed_setModule {middle : Proxy} {mod : Module}
    (same : middle = { p with queue := p.queue.erase key, sent := middle.sent })
    (found : p.modules.lookup identity = some mod) :
    Freed p key identity mod (middle.setModule identity { mod with state := .idle }) := by
  have modules : middle.modules = p.modules := by rw [same]
  have member := ZHash.mem_of_lookup found
  refine ⟨?_, ?_, ?_, ?_, ?_⟩
  · have dropped : Calm p middle := by
      rw [same]
      exact (Calm.deleteCall key p).trans ⟨rfl, Proxy.SameHeap.refl _, rfl, rfl, rfl,
        fun _ => rfl, fun _ call there => ⟨call, there, .refl call⟩⟩
    have card : Module.card { mod with state := .idle } = mod.card := rfl
    exact dropped.trans (.setModule (modules ▸ found) card)
  · rw [setModule_modules, modules, ZHash.lookup_update member, if_pos rfl]
  · rw [setModule_queue, same]
    rfl
  · rw [same]
    rfl
  · intro other
    simp only [Free, setModule_modules, modules, ZHash.lookup_update member, deleteCall_modules]
    by_cases here : other = identity <;> simp [here]

theorem answer_woken {stored : Message} {mod : Module} (registry : Registry p)
    (separated : Separated p) (isLocal : message.isLocal = true)
    (queued : p.queue.lookup message.actionid = some stored)
    (found : p.modules.lookup message.identity = some mod) (needed : mod.needRestart = false)
    (answer : AnswerCases env message stored p q) :
    Woken p q message.identity ↔
      (∃ key, WaitsFor (p.deleteCall message.actionid) message.identity key) ∨
        ∀ key call, (p.deleteCall message.actionid).queue.lookup key = some call →
          call.routedVia = none → Serves mod.name mod.provides call →
          Leaves env (p.deleteCall message.actionid) message.identity key call := by
  cases answer with
  | unheard absent => exact absurd (ZHash.mem_of_lookup found) absent
  | placed foreign => simp [isLocal] at foreign
  | @settled middle _ same back =>
      rw [(registry.calls _ _ queued).actionid] at same
      have modules : middle.modules = p.modules := by rw [same]
      have freed := freed_setModule same found
      have walk : placeAll env (middle.setModule message.identity { mod with state := .idle }) =
          .ok q := by
        have run := back isLocal
        simp only [putBack, modules, found] at run
        rwa [if_neg (by simp [needed])] at run
      have less : ∀ key call, (middle.setModule message.identity
          { mod with state := .idle }).queue.lookup key = some call →
          p.queue.lookup key = some call := by
        intro key call there
        rw [freed.queue, deleteCall_queue] at there
        exact (ZHash.lookup_erase_some.mp there).2
      rw [woken_congr (placeAll_calm walk) less, placeAll_woken (registry.calm freed.calm)
        (separated.calm registry freed.calm) freed.idle rfl walk]
      simp only [waitsFor_congr freed.queue freed.heap,
        leaves_congr freed.queue freed.heap freed.free, freed.queue]

theorem Introduces.registered {name : String} {pid : Int32} {desc : Option String}
    {provides : ZHash Unpacked} {middle : Proxy} (registry : Registry p)
    (introduces : Introduces env message name pid desc provides p middle q)
    (absent : message.identity ∉ p.modules) :
    q.queue = p.queue ∧ q.modules.lookup message.identity =
      some (introducedModule ⟨p.brk, message.identity⟩ name desc pid provides) := by
  have kept := (introduces.extends registry).same
  constructor
  · rw [introduces.registers, sendMessage_queue, registerModule, zstrSend_queue, kept]
    rfl
  · rw [introduces.registers, sendMessage_modules, registerModule, ZHash.lookup_insertNew,
      zstrSend_modules, kept]
    exact if_pos ⟨rfl, absent⟩

theorem introduce_woken {answer : String} (registry : Registry p)
    (absent : message.identity ∉ p.modules) (registered : message.identity ∈ q.modules)
    (run : processIntroduce conf env message answer p = .ok q) :
    Woken p q message.identity ↔
      ∀ name provides, messageGetName message = .ok (some name) →
        messageGetProvides message = .ok (some provides) →
        ∀ key call, p.queue.lookup key = some call → call.routedVia = none →
          ¬ Serves name provides call := by
  rcases processIntroduce_ok run with asked | ⟨_, name, _, _, provides, _, introduces⟩
  · rw [asked] at registered
    exact absurd registered absent
  · obtain ⟨queue, there⟩ := introduces.registered registry absent
    have name' := introduces.named
    have provides' := introduces.provided
    constructor
    · rintro ⟨mod, now, woken⟩ other others named provided
      rw [name'] at named
      rw [provides'] at provided
      cases named
      cases provided
      rw [there] at now
      cases now
      rcases woken with ⟨busy, _⟩ | none
      · cases busy
      · rw [queue] at none
        exact none
    · intro none
      refine ⟨_, there, Or.inr ?_⟩
      rw [queue]
      exact none name provides name' provides'

/-- No lost wakeup, exactly: when an event makes a local module idle, it is woken
if and only if a call waits for it first, or no other call is for it. -/
theorem no_lost_wakeup (reached : Reaches (fabric conf) (LocalIntroductions conf) p)
    (read : event.message env p = some message) (run : p.step conf env event = .ok q)
    (frees : Frees message p q) : Woken p q message.identity ↔ WakesUp env message p := by
  have registry := registry_reaches reached
  have separated : Separated p :=
    fabric_invariant Separated reached separated_new fun _ _ _ _ allowed move before separated =>
      separated.step before allowed move
  have ready := registry.arrived message
  have apart := separated.arrived message
  have woken : Woken p q message.identity ↔ Woken (p.arrived message) q message.identity := by
    simp [Woken]
  obtain ⟨isLocal, ⟨isIntroduce, absent, registered⟩ | ⟨answers, member, mod, found, needed⟩⟩ := frees
  · have introduction : processIntroduce conf env message event.answer (p.arrived message) = .ok q := by
      cases step_commanded read run with
      | introduce _ run => exact run
      | ignored other => simp [isIntroduce] at other
      | request other => simp [isIntroduce] at other
      | result other => simp [isIntroduce] at other
      | call other => simp [isIntroduce] at other
      | exception other => simp [isIntroduce] at other
    rw [woken, introduce_woken ready (by simpa using absent) registered introduction, WakesUp,
      if_pos isIntroduce, arrived_queue]
  · obtain ⟨stored, queued⟩ := ZHash.lookup_of_mem member
    have there : (p.arrived message).queue.lookup message.actionid = some stored := by
      rw [arrived_queue]
      exact queued
    have answer : AnswerCases env message stored (p.arrived message) q := by
      cases step_commanded read run with
      | result isResult run => exact processResult_answer isResult there run
      | exception isException run => exact processException_answer isException there run
      | ignored other =>
          simp only [List.mem_cons, List.not_mem_nil, or_false] at answers
          rcases answers with same | same <;> simp [same] at other
      | request other => simp [other] at answers
      | call other => simp [other] at answers
      | introduce other => simp [other] at answers
    have other : message.command ≠ "introduce" := by
      rintro same
      simp [same] at answers
    have sameQueue : ((p.arrived message).deleteCall message.actionid).queue =
        (p.deleteCall message.actionid).queue := by simp
    have sameHeap : ((p.arrived message).deleteCall message.actionid).heap =
        (p.deleteCall message.actionid).heap := by simp
    have free : ∀ other, Free ((p.arrived message).deleteCall message.actionid) message.identity other ↔
        Free (p.deleteCall message.actionid) message.identity other := by simp [Free]
    rw [woken, answer_woken ready apart isLocal there (by simpa using found) needed answer, WakesUp,
      if_neg other]
    simp only [waitsFor_congr sameQueue sameHeap, leaves_congr sameQueue sameHeap free, sameQueue,
      found, Option.some.injEq, forall_eq']

theorem localIntroductions_local (zmsg : List Frame) (answer : String) :
    LocalIntroductions conf p (env, .localMsg zmsg answer) := by
  intro message read _ _
  obtain ⟨_, _, _, _, _, _, rfl⟩ := messageFromzmq_some (toOption_join read)
  rfl

def overloaded : List (Env × Event) := [
  (early, .localMsg (introduceOf worker "mod" 77 [("f", 1)]) "yes"),
  (early, .localMsg (callOf caller "mod" "f" 1 "call-1") ""),
  (early, .localMsg (callOf caller "mod" "f" 1 "call-2") "")]

theorem overloaded_reaches {guard : Proxy → Env × Event → Prop}
    (allowed : ∀ p zmsg answer, guard p (early, .localMsg zmsg answer)) :
    Reaches (fabric plainConf) guard (fabricAfter plainConf overloaded) := by
  refine fabricAfter_reaches (fun label member state => ?_) (by decide)
  simp only [overloaded, List.mem_cons, List.not_mem_nil, or_false] at member
  rcases member with rfl | rfl | rfl <;> exact allowed state _ _

theorem no_lost_wakeup_answered :
    let p := fabricAfter plainConf overloaded
    let q := p.after plainConf early (.localMsg (resultOf worker "call-1") "")
    "call-2" ∈ p.queue ∧ Woken p q "0001020304" := by
  intro p q
  have reached : Reaches (fabric plainConf) (LocalIntroductions plainConf) p :=
    overloaded_reaches fun _ => localIntroductions_local
  have idle : ∃ mod ∈ p.modules.lookup "0001020304", mod.needRestart = false := by decide
  have waits : ∃ call ∈ (p.deleteCall "call-1").queue.lookup "call-2", call.routedVia = none ∧
      ∃ iface ∈ call.iface, ∃ head ∈ (p.heap iface).locals.head?, head.text = "0001020304" := by
    decide
  obtain ⟨call, queued, unrouted, iface, bound, head, listed, same⟩ := waits
  obtain ⟨rest, locals⟩ := List.head?_eq_some_iff.mp listed
  have run : p.step plainConf early (.localMsg (resultOf worker "call-1") "") = .ok q :=
    step_after (by decide)
  have read : Event.message early p (.localMsg (resultOf worker "call-1") "") = some _ := rfl
  refine ⟨by decide, (no_lost_wakeup reached read run ⟨rfl, Or.inr ⟨by decide, by decide, idle⟩⟩).mpr
    (Or.inl ?_)⟩
  exact ⟨"call-2", call, iface, head, rest, queued, unrouted, bound, locals, same⟩

/-- A second module introduces itself while a call for it waits. -/
theorem wakeup_lost :
    ¬ ∀ conf env event p q message, Reaches (fabric conf) anything p →
      event.message env p = some message → p.step conf env event = .ok q → Frees message p q →
      Woken p q message.identity := by
  intro always
  have reached : Reaches (fabric plainConf) anything (fabricAfter plainConf overloaded) :=
    overloaded_reaches fun _ _ _ => trivial
  let joins := Event.localMsg (introduceOf caller "mod" 78 [("f", 1)]) "yes"
  let after := (fabricAfter plainConf overloaded).after plainConf early joins
  have run : (fabricAfter plainConf overloaded).step plainConf early joins = .ok after :=
    step_after (by decide)
  have read : joins.message early (fabricAfter plainConf overloaded) = some _ := rfl
  obtain ⟨mod, now, woken⟩ := always plainConf early joins _ after _ reached read run
    ⟨rfl, Or.inl ⟨rfl, by decide, by decide⟩⟩
  have idle : ∀ mod ∈ after.modules.lookup "0005060708", mod.state = .idle ∧ mod.name = "mod" ∧
      ∃ value ∈ mod.provides.lookup "f", value.version.toOption = some 1 := by decide
  have waits : ∃ call ∈ after.queue.lookup "call-2", call.routedVia = none ∧
      call.module = some "mod" ∧ call.function = some "f" ∧ call.version ≤ 1 := by decide
  obtain ⟨isIdle, name, value, provided, version⟩ := idle mod now
  obtain ⟨call, queued, unrouted, module, function, below⟩ := waits
  rcases woken with ⟨busy, _⟩ | none
  · rw [isIdle] at busy
    cases busy
  · refine none "call-2" call queued unrouted ⟨name ▸ module, "f", value, 1, function, provided, ?_,
      below⟩
    cases result : value.version with
    | error => simp [result, Except.toOption] at version
    | ok ver => simpa [result, Except.toOption] using version

end

end ModBus
