import ModBus.Step

/-! The registry: which interfaces are listed, who provides them and which calls
are bound to them. Its invariant holds in every reachable state, whatever
arrives. -/

namespace ModBus

open Libc Czmq Transition

def Proxy.Holds (p : Proxy) (identity : CStr) : Prop :=
  (∃ iface, identity ∈ (p.heap iface).locals) ∨
    ∃ key mod, p.modules.lookup key = some mod ∧ mod.identity = identity

structure Message.BoundIn (call : Message) (p : Proxy) (key : String) : Prop where
  actionid : call.actionid = key
  iface : ∃ iface, call.iface = some iface ∧ iface < p.brk ∧
    call.module = some (p.heap iface).mod ∧ call.function = some (p.heap iface).func ∧
    call.version ≤ (p.heap iface).ver

structure Registry (p : Proxy) : Prop where
  nodup : p.ifaces.items.Nodup
  allocated : ∀ iface ∈ p.ifaces.items, iface < p.brk
  unlisted : ∀ iface, iface ∉ p.ifaces.items →
    (p.heap iface).locals = [] ∧ (p.heap iface).globals = []
  once : ∀ iface, ((p.heap iface).locals.map CStr.text).Nodup
  pointers : ∀ left right, p.Holds left → p.Holds right → left.addr = right.addr →
    left.text = right.text
  below : ∀ identity, p.Holds identity → identity.addr < p.brk
  moduleKey : ∀ key mod, p.modules.lookup key = some mod → mod.identity.text = key
  fabKey : ∀ key fab, p.fabList.lookup key = some fab → fab.identity.text = key
  calls : ∀ key call, p.queue.lookup key = some call → call.BoundIn p key

theorem registry_new : Registry proxyNew where
  nodup := List.nodup_nil
  allocated := by simp [proxyNew, ZList.new]
  unlisted _ _ := ⟨rfl, rfl⟩
  once _ := List.nodup_nil
  pointers := by
    rintro left right (⟨iface, listed⟩ | ⟨key, mod, found, _⟩)
    · cases listed
    · cases found
  below := by
    rintro identity (⟨iface, listed⟩ | ⟨key, mod, found, _⟩)
    · cases listed
    · cases found
  moduleKey _ _ found := by cases found
  fabKey _ _ found := by cases found
  calls _ _ found := by cases found

section

variable {conf : Config} {env : Env} {event : Event} {p q : Proxy}

theorem Calm.holds (calm : Calm p q) {identity : CStr} (held : q.Holds identity) :
    p.Holds identity := by
  rcases held with ⟨iface, listed⟩ | ⟨key, mod, found, same⟩
  · exact Or.inl ⟨iface, (calm.sameHeap iface).locals ▸ listed⟩
  · obtain ⟨old, before, card⟩ := calm.lookup found
    exact Or.inr ⟨key, old, before, (card_fields card).1.trans same⟩

theorem Message.BoundIn.carried {before after : Message} {key : String}
    (bound : before.BoundIn p key) (carried : before.Carried after) (same : p.SameHeap q)
    (brk : p.brk ≤ q.brk) : after.BoundIn q key := by
  obtain ⟨actionid, iface, assigned, allocated, module, function, version⟩ := bound
  have kept := carried.same
  refine ⟨by rw [kept]; exact actionid, iface, (carried.iface iface assigned).1,
    Nat.lt_of_lt_of_le allocated brk, ?_⟩
  rw [(same iface).mod, (same iface).func, (same iface).ver, kept]
  exact ⟨module, function, version⟩

theorem Message.BoundIn.frame {call : Message} {key : String} (bound : call.BoundIn p key)
    (heap : q.heap = p.heap) (brk : p.brk ≤ q.brk) : call.BoundIn q key := by
  refine bound.carried (.refl call) ?_ brk
  intro iface
  rw [heap]
  exact Iface.Same.refl _

theorem Registry.calm (registry : Registry p) (calm : Calm p q) : Registry q where
  nodup := calm.ifaces ▸ registry.nodup
  allocated iface listed := by
    rw [calm.brk]
    exact registry.allocated iface (calm.ifaces ▸ listed)
  unlisted iface absent := by
    rw [(calm.sameHeap iface).locals, (calm.sameHeap iface).globals]
    exact registry.unlisted iface (calm.ifaces ▸ absent)
  once iface := by
    rw [(calm.sameHeap iface).locals]
    exact registry.once iface
  pointers left right heldLeft heldRight :=
    registry.pointers left right (calm.holds heldLeft) (calm.holds heldRight)
  below identity held := by
    rw [calm.brk]
    exact registry.below identity (calm.holds held)
  moduleKey key mod found := by
    obtain ⟨old, before, card⟩ := calm.lookup found
    rw [← (card_fields card).1]
    exact registry.moduleKey key old before
  fabKey key fab found := registry.fabKey key fab (calm.fabList ▸ found)
  calls key call found := by
    obtain ⟨before, queued, carried⟩ := calm.queue key call found
    exact (registry.calls key before queued).carried carried calm.sameHeap
      (Nat.le_of_eq calm.brk.symm)

theorem Registry.frame (registry : Registry p) (ifaces : q.ifaces = p.ifaces)
    (heap : q.heap = p.heap) (brk : p.brk ≤ q.brk)
    (modules : ∀ key mod, q.modules.lookup key = some mod → p.modules.lookup key = some mod)
    (queue : ∀ key call, q.queue.lookup key = some call → p.queue.lookup key = some call)
    (fabKey : ∀ key fab, q.fabList.lookup key = some fab → fab.identity.text = key) :
    Registry q := by
  have holds : ∀ identity, q.Holds identity → p.Holds identity := by
    rintro identity (⟨iface, listed⟩ | ⟨key, mod, found, same⟩)
    · exact Or.inl ⟨iface, heap ▸ listed⟩
    · exact Or.inr ⟨key, mod, modules key mod found, same⟩
  exact {
    nodup := ifaces ▸ registry.nodup
    allocated := fun iface listed =>
      Nat.lt_of_lt_of_le (registry.allocated iface (ifaces ▸ listed)) brk
    unlisted := fun iface absent => by
      rw [heap]
      exact registry.unlisted iface (ifaces ▸ absent)
    once := fun iface => by
      rw [heap]
      exact registry.once iface
    pointers := fun left right heldLeft heldRight =>
      registry.pointers left right (holds left heldLeft) (holds right heldRight)
    below := fun identity held =>
      Nat.lt_of_lt_of_le (registry.below identity (holds identity held)) brk
    moduleKey := fun key mod found => registry.moduleKey key mod (modules key mod found)
    fabKey := fabKey
    calls := fun key call found =>
      (registry.calls key call (queue key call found)).frame heap brk }

theorem arrived_fields (message : Message) (p : Proxy) :
    (p.arrived message).ifaces = p.ifaces ∧ (p.arrived message).heap = p.heap ∧
      (p.arrived message).modules = p.modules ∧ (p.arrived message).queue = p.queue ∧
      (p.arrived message).sent = p.sent ∧ (p.arrived message).introduced = p.introduced ∧
      (p.arrived message).procman = p.procman ∧ (p.arrived message).brk = p.brk + 1 := by
  unfold Proxy.arrived Proxy.markAlive
  split
  · exact ⟨rfl, rfl, rfl, rfl, rfl, rfl, rfl, rfl⟩
  · split <;> exact ⟨rfl, rfl, rfl, rfl, rfl, rfl, rfl, rfl⟩

section

variable (message : Message) (p : Proxy)

@[simp] theorem arrived_ifaces : (p.arrived message).ifaces = p.ifaces :=
  (arrived_fields message p).1
@[simp] theorem arrived_heap : (p.arrived message).heap = p.heap :=
  (arrived_fields message p).2.1
@[simp] theorem arrived_modules : (p.arrived message).modules = p.modules :=
  (arrived_fields message p).2.2.1
@[simp] theorem arrived_queue : (p.arrived message).queue = p.queue :=
  (arrived_fields message p).2.2.2.1
@[simp] theorem arrived_sent : (p.arrived message).sent = p.sent :=
  (arrived_fields message p).2.2.2.2.1
@[simp] theorem arrived_introduced : (p.arrived message).introduced = p.introduced :=
  (arrived_fields message p).2.2.2.2.2.1
@[simp] theorem arrived_procman : (p.arrived message).procman = p.procman :=
  (arrived_fields message p).2.2.2.2.2.2.1
@[simp] theorem arrived_brk : (p.arrived message).brk = p.brk + 1 :=
  (arrived_fields message p).2.2.2.2.2.2.2

end

theorem arrived_fabList (message : Message) {key : String} {fab : Fabric}
    (found : (p.arrived message).fabList.lookup key = some fab) :
    ∃ old, p.fabList.lookup key = some old ∧ old.identity = fab.identity := by
  unfold Proxy.arrived Proxy.markAlive at found
  split at found
  · exact ⟨fab, found, rfl⟩
  · split at found
    · exact ⟨fab, found, rfl⟩
    · rename_i old before
      simp only [] at before found
      rw [ZHash.lookup_update (ZHash.mem_of_lookup before)] at found
      split at found
      · rename_i here
        cases found
        exact ⟨old, here ▸ before, rfl⟩
      · exact ⟨fab, found, rfl⟩

theorem mem_arrived_fabList (message : Message) (key : String) :
    key ∈ (p.arrived message).fabList ↔ key ∈ p.fabList := by
  unfold Proxy.arrived Proxy.markAlive
  split
  · rfl
  · split
    · rfl
    · exact ZHash.mem_update _ _ _ _

theorem Registry.arrived (registry : Registry p) (message : Message) :
    Registry (p.arrived message) := by
  refine registry.frame (by simp) (by simp) (by simp) (by simp) (by simp) ?_
  intro key fab found
  obtain ⟨old, before, same⟩ := arrived_fabList message found
  exact same ▸ registry.fabKey key old before

/-! Removals. -/

theorem unlisted_items (registry : Registry p) (identity : CStr) :
    (p.unlisted identity).ifaces.items =
      p.ifaces.items.filter fun iface => !((p.heap iface).unlist identity).deserted :=
  ifaceRemove_items p.ifaces identity p.heap registry.nodup

/-- An unlisted interface has nothing to lose, so the removal is the same
everywhere. -/
theorem unlisted_heap (registry : Registry p) (identity : CStr) (iface : Addr) :
    ((p.heap iface).unlist identity).Same ((p.unlisted identity).heap iface) := by
  have removed : ((p.heap iface).unlist identity).Same
      ((ifaceRemove p.ifaces identity p.heap).2 iface) := by
    rw [ifaceRemove_heap _ _ _ registry.nodup]
    split
    · exact Iface.Same.refl _
    · rename_i absent
      obtain ⟨locals, globals⟩ := registry.unlisted iface absent
      exact ⟨rfl, rfl, rfl, by rw [unlist_locals, locals, List.eraseP_nil],
        by rw [unlist_globals, globals, List.eraseP_nil]⟩
  simp only [Proxy.unlisted, Proxy.printed]
  split
  · exact removed.trans (printed_same _)
  · exact removed

theorem unlisted_locals (registry : Registry p) (identity : CStr) (iface : Addr) :
    ((p.unlisted identity).heap iface).locals =
      (p.heap iface).locals.eraseP fun item => decide (item.addr = identity.addr) := by
  rw [(unlisted_heap registry identity iface).locals, unlist_locals]

theorem unlisted_globals (registry : Registry p) (identity : CStr) (iface : Addr) :
    ((p.unlisted identity).heap iface).globals =
      (p.heap iface).globals.eraseP fun item => decide (item.addr = identity.addr) := by
  rw [(unlisted_heap registry identity iface).globals, unlist_globals]

theorem Registry.without (registry : Registry p) (identity : CStr) :
    Registry (p.unlisted identity) := by
  have heap := unlisted_heap registry identity
  have items := unlisted_items registry identity
  have locals := unlisted_locals registry identity
  have holds : ∀ other, (p.unlisted identity).Holds other → p.Holds other := by
    rintro other (⟨iface, listed⟩ | registered)
    · rw [locals] at listed
      exact Or.inl ⟨iface, List.mem_of_mem_eraseP listed⟩
    · exact Or.inr registered
  exact {
    nodup := by
      rw [items]
      exact registry.nodup.filter _
    allocated := fun iface listed => by
      rw [items] at listed
      exact registry.allocated iface (List.mem_of_mem_filter listed)
    unlisted := fun iface absent => by
      rw [locals, unlisted_globals registry identity iface]
      by_cases before : iface ∈ p.ifaces.items
      · have deserted : ((p.heap iface).unlist identity).deserted = true := by
          by_contra kept
          apply absent
          rw [items, List.mem_filter]
          exact ⟨before, by simpa using kept⟩
        obtain ⟨noGlobals, noLocals⟩ := (deserted_iff _).mp deserted
        rw [← unlist_locals, ← unlist_globals]
        exact ⟨noLocals, noGlobals⟩
      · obtain ⟨noLocals, noGlobals⟩ := registry.unlisted iface before
        rw [noLocals, noGlobals]
        exact ⟨rfl, rfl⟩
    once := fun iface => by
      rw [locals]
      exact (registry.once iface).sublist (List.eraseP_sublist.map _)
    pointers := fun left right heldLeft heldRight =>
      registry.pointers left right (holds left heldLeft) (holds right heldRight)
    below := fun other held => registry.below other (holds other held)
    moduleKey := registry.moduleKey
    fabKey := registry.fabKey
    calls := fun key call found => by
      obtain ⟨actionid, iface, assigned, allocated, module, function, version⟩ :=
        registry.calls key call found
      refine ⟨actionid, iface, assigned, allocated, ?_⟩
      rw [(heap iface).mod, (heap iface).func, (heap iface).ver]
      exact ⟨module, function, version⟩ }

theorem Registry.withoutModule (registry : Registry p) (mod : Module) :
    Registry (p.withoutModule mod) := by
  have unlisted := registry.without mod.identity
  refine unlisted.frame rfl rfl (Nat.le_refl _) ?_ (fun _ _ => id) unlisted.fabKey
  intro key other found
  exact (ZHash.lookup_erase_some.mp found).2

end

end ModBus
