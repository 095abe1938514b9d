import ModBus.Integrity

/-! `iface_remove` on any list of interfaces. It compares pointers, and the pointers
that callers have are never those of an autofree list, which keeps copies. -/

namespace ModBus

open Libc Czmq Transition

def KeepsCopies (ifaces : List Addr) (heap : Heap) (identity : CStr) : Prop :=
  ∀ iface ∈ ifaces, ∀ item ∈ (heap iface).globals, item.addr ≠ identity.addr

def Iface.withoutLocal (iface : Iface) (identity : CStr) : Iface :=
  { iface with
    idLocalList := iface.idLocalList.remove fun item => decide (item.addr = identity.addr) }

theorem unlist_withoutLocal {iface : Iface} {identity : CStr}
    (copies : ∀ item ∈ iface.globals, item.addr ≠ identity.addr) :
    iface.unlist identity = iface.withoutLocal identity := by
  have absent : iface.idGlobalList.items.findIdx? (fun item => decide (item.addr = identity.addr)) =
      none := by
    rw [List.findIdx?_eq_none_iff]
    intro item member
    simpa using copies item member
  have untouched : iface.idGlobalList.remove (fun item => decide (item.addr = identity.addr)) =
      iface.idGlobalList := by
    unfold ZList.remove
    rw [absent]
  rw [Iface.unlist, untouched, Iface.withoutLocal]

theorem withoutLocal_locals {iface : Iface} {identity : CStr}
    (once : (iface.locals.map CStr.addr).Nodup) :
    (iface.withoutLocal identity).locals =
      iface.locals.filter fun item => decide (item.addr ≠ identity.addr) := by
  have removed : (iface.withoutLocal identity).locals =
      iface.locals.eraseP fun item => decide (item.addr = identity.addr) :=
    ZList.remove_items _ _
  rw [removed]
  revert once
  induction iface.locals with
  | nil => exact fun _ => rfl
  | cons item items ih =>
      intro once
      obtain ⟨fresh, rest⟩ := List.nodup_cons.mp once
      by_cases here : item.addr = identity.addr
      · have others : ∀ other ∈ items, other.addr ≠ identity.addr := by
          intro other member same
          exact fresh (List.mem_map.mpr ⟨other, member, same.trans here.symm⟩)
        rw [List.eraseP_cons_of_pos (by simpa using here), List.filter_cons_of_neg (by simpa using here)]
        exact (List.filter_eq_self.mpr fun other member => by simpa using others other member).symm
      · rw [List.eraseP_cons_of_neg (by simpa using here), List.filter_cons_of_pos (by simpa using here),
          ih rest]

structure Unlisted (identity : CStr) (ifaces : List Addr) (heap : Heap) (left : ZList Addr × Heap) :
    Prop where
  visited : ∀ iface ∈ ifaces, left.2 iface = (heap iface).withoutLocal identity
  removed : ∀ iface ∈ ifaces, ((heap iface).locals.map CStr.addr).Nodup →
    (left.2 iface).locals =
      (heap iface).locals.filter fun item => decide (item.addr ≠ identity.addr)
  elsewhere : ∀ iface, iface ∉ ifaces → left.2 iface = heap iface
  kept : left.1.items = ifaces.filter fun iface =>
    decide ¬ ((left.2 iface).globals = [] ∧ (left.2 iface).locals = [])

theorem ifaceRemove_unlisted {ifaces : ZList Addr} {identity : CStr} {heap : Heap}
    (distinct : ifaces.items.Nodup) (copies : KeepsCopies ifaces.items heap identity) :
    Unlisted identity ifaces.items heap (ifaceRemove ifaces identity heap) := by
  have visited : ∀ iface ∈ ifaces.items,
      (ifaceRemove ifaces identity heap).2 iface = (heap iface).withoutLocal identity := by
    intro iface listed
    rw [ifaceRemove_heap _ _ _ distinct, if_pos listed, unlist_withoutLocal (copies iface listed)]
  refine ⟨visited, ?_, ?_, ?_⟩
  · intro iface listed once
    rw [visited iface listed, withoutLocal_locals once]
  · intro iface absent
    rw [ifaceRemove_heap _ _ _ distinct, if_neg absent]
  · rw [ifaceRemove_items _ _ _ distinct]
    apply List.filter_congr
    intro iface listed
    rw [visited iface listed, ← unlist_withoutLocal (copies iface listed), Bool.eq_iff_iff]
    simp [← deserted_iff]

/-- The loop ends, visits each interface once, in order, and leaves those that
still have somebody listed. -/
theorem ifaceRemove_visits {ifaces : ZList Addr} {identity : CStr} {heap : Heap}
    (distinct : ifaces.items.Nodup) (copies : KeepsCopies ifaces.items heap identity) :
    (∀ visited left, ZList.Sweeps (ifaceVisit identity) ifaces.first heap visited left ↔
      visited = ifaces.items ∧ left = ifaceRemove ifaces identity heap) ∧
    Unlisted identity ifaces.items heap (ifaceRemove ifaces identity heap) :=
  ⟨fun _ _ => ZList.sweeps_iff _ distinct, ifaceRemove_unlisted distinct copies⟩

def threeIfaces : ZList Addr := ⟨[0, 1, 2], none⟩

def threeHeap : Heap := fun iface =>
  if iface < 2 then { blank with idLocalList := ⟨[⟨7, "0001020304"⟩], none⟩ }
  else { blank with
    idLocalList := ⟨[⟨7, "0001020304"⟩], none⟩, idGlobalList := ⟨[⟨8, peerName⟩], none⟩ }

theorem ifaceRemove_three :
    Unlisted ⟨7, "0001020304"⟩ [0, 1, 2] threeHeap
      (ifaceRemove threeIfaces ⟨7, "0001020304"⟩ threeHeap) := by
  have distinct : threeIfaces.items.Nodup := by decide
  have copies : KeepsCopies [0, 1, 2] threeHeap ⟨7, "0001020304"⟩ := by
    unfold KeepsCopies
    decide
  exact (ifaceRemove_visits distinct copies).2

/-! In the fabric every caller's pointer is told apart from the copies. -/

def Proxy.Points (p : Proxy) (identity : CStr) : Prop :=
  p.Holds identity ∨ ∃ key fab, p.fabList.lookup key = some fab ∧ fab.identity = identity

structure OwnCopies (p : Proxy) : Prop where
  fabs : ∀ key fab, p.fabList.lookup key = some fab → fab.identity.addr < p.brk
  below : ∀ iface, ∀ item ∈ (p.heap iface).globals, item.addr < p.brk
  apart : ∀ iface, ∀ item ∈ (p.heap iface).globals, ∀ identity, p.Points identity →
    item.addr ≠ identity.addr

section

variable {conf : Config} {env : Env} {event : Event} {p q : Proxy}

theorem OwnCopies.keepsCopies (own : OwnCopies p) {identity : CStr} (points : p.Points identity) :
    KeepsCopies p.ifaces.items p.heap identity :=
  fun iface _ item member => own.apart iface item member identity points

theorem OwnCopies.points_below (own : OwnCopies p) (registry : Registry p) {identity : CStr}
    (points : p.Points identity) : identity.addr < p.brk := by
  rcases points with held | ⟨key, fab, found, rfl⟩
  · exact registry.below identity held
  · exact own.fabs key fab found

/-- Copies stay where no list gains one, and every new pointer is newly allocated. -/
theorem OwnCopies.mono (own : OwnCopies p) (brk : p.brk ≤ q.brk)
    (fabs : ∀ key fab, q.fabList.lookup key = some fab →
      (∃ old, p.fabList.lookup key = some old ∧ old.identity = fab.identity) ∨
        p.brk ≤ fab.identity.addr ∧ fab.identity.addr < q.brk)
    (globals : ∀ iface item, item ∈ (q.heap iface).globals → item ∈ (p.heap iface).globals)
    (holds : ∀ identity, q.Holds identity → p.Holds identity ∨ p.brk ≤ identity.addr) :
    OwnCopies q where
  fabs key fab found := by
    rcases fabs key fab found with ⟨old, before, same⟩ | ⟨_, below⟩
    · rw [← same]
      exact Nat.lt_of_lt_of_le (own.fabs key old before) brk
    · exact below
  below iface item member := Nat.lt_of_lt_of_le (own.below iface item (globals iface item member)) brk
  apart iface item member identity points := by
    have before := globals iface item member
    have fresh : p.brk ≤ identity.addr → item.addr ≠ identity.addr := fun new =>
      Nat.ne_of_lt (Nat.lt_of_lt_of_le (own.below iface item before) new)
    rcases points with held | ⟨key, fab, found, rfl⟩
    · rcases holds identity held with old | new
      · exact own.apart iface item before identity (Or.inl old)
      · exact fresh new
    · rcases fabs key fab found with ⟨old, there, same⟩ | ⟨new, _⟩
      · exact own.apart iface item before _ (Or.inr ⟨key, old, there, same⟩)
      · exact fresh new

theorem OwnCopies.calm (own : OwnCopies p) (calm : Calm p q) : OwnCopies q := by
  refine own.mono (Nat.le_of_eq calm.brk.symm) ?_ ?_ fun identity held => Or.inl (calm.holds held)
  · intro key fab found
    exact Or.inl ⟨fab, calm.fabList ▸ found, rfl⟩
  · intro iface item member
    rw [(calm.sameHeap iface).globals] at member
    exact member

theorem OwnCopies.arrived (own : OwnCopies p) (message : Message) : OwnCopies (p.arrived message) := by
  refine own.mono (by simp) ?_ (by simp) ?_
  · intro key fab found
    exact Or.inl (arrived_fabList message found)
  · intro identity held
    simpa [Proxy.Holds] using Or.inl held

theorem OwnCopies.unlisted (own : OwnCopies p) (registry : Registry p) (identity : CStr) :
    OwnCopies (p.unlisted identity) := by
  refine own.mono (Nat.le_refl _) (fun key fab found => Or.inl ⟨fab, found, rfl⟩) ?_ ?_
  · intro iface item member
    rw [unlisted_globals registry] at member
    exact List.mem_of_mem_eraseP member
  · rintro other (⟨iface, member⟩ | registered)
    · rw [unlisted_locals registry] at member
      exact Or.inl (Or.inl ⟨iface, List.mem_of_mem_eraseP member⟩)
    · exact Or.inl (Or.inr registered)

theorem OwnCopies.provideGlobal {fab : Fabric} {mod func : String} {ver : UInt64}
    (own : OwnCopies p) (registry : Registry p) (run : provideGlobal fab mod func ver p = .ok q) :
    OwnCopies q := by
  obtain ⟨iface, middle, attaching, same, provided⟩ := provideGlobal_ok registry run
  have attached := ifaceFor_attached registry attaching
  have globals : ∀ other item, item ∈ (q.heap other).globals →
      item ∈ (p.heap other).globals ∨ item.addr = middle.brk := by
    intro other item member
    rw [same] at member
    by_cases here : other = iface
    · subst here
      simp only [Proxy.modifyIface, Function.update_self] at member
      rw [(printed_same _).globals, ifaceAppendGlobal_globals, attached.globals] at member
      split at member
      · exact Or.inl member
      · rcases List.mem_append.mp member with old | new
        · exact Or.inl old
        · rw [List.mem_singleton.mp new]
          exact Or.inr rfl
    · simp only [Proxy.modifyIface, Function.update_of_ne here] at member
      rw [attached.globals] at member
      exact Or.inl member
  have brk : middle.brk < q.brk := by
    rw [same]
    exact Nat.lt_succ_self _
  have fabs : q.fabList = p.fabList := by rw [provided.same]
  have holds : ∀ identity, q.Holds identity → p.Holds identity := by
    rintro identity (⟨other, member⟩ | ⟨key, mod, found, held⟩)
    · rcases provided.locals other identity member with old | ⟨_, no⟩
      · exact Or.inl ⟨other, old⟩
      · cases no
    · rw [provided.same] at found
      exact Or.inr ⟨key, mod, found, held⟩
  have points : ∀ identity, q.Points identity → p.Points identity := by
    rintro identity (held | ⟨key, other, found, held⟩)
    · exact Or.inl (holds identity held)
    · exact Or.inr ⟨key, other, fabs ▸ found, held⟩
  constructor
  · intro key other found
    exact Nat.lt_of_lt_of_le (own.fabs key other (fabs ▸ found)) provided.brk
  · intro other item member
    rcases globals other item member with old | new
    · exact Nat.lt_of_lt_of_le (own.below other item old) provided.brk
    · rw [new]
      exact brk
  · intro other item member identity pointing
    rcases globals other item member with old | new
    · exact own.apart other item old identity (points identity pointing)
    · have below := own.points_below registry (points identity pointing)
      rw [new]
      exact Nat.ne_of_gt (Nat.lt_of_lt_of_le below attached.brk)

theorem OwnCopies.paths {fab : Fabric} {paths : List String} (own : OwnCopies p)
    (registry : Registry p) (run : providePaths fab paths p = .ok q) : OwnCopies q := by
  induction paths generalizing p with
  | nil =>
      cases run
      exact own
  | cons path paths ih =>
      simp only [providePaths] at run
      split at run
      · cases run
      · rename_i middle provision
        unfold providePath at provision
        split at provision
        · exact ih (own.provideGlobal registry provision) (registry.provideGlobal provision) run
        · cases provision
          exact ih own registry run

theorem OwnCopies.introduces {message : Message} {name : String} {pid : Int32}
    {desc : Option String} {provides : ZHash Unpacked} {middle : Proxy} (own : OwnCopies p)
    (registry : Registry p)
    (introduces : Introduces env message name pid desc provides p middle q) : OwnCopies q := by
  obtain ⟨before, apart⟩ := registry.introducing message middle.procman
  obtain ⟨⟨globals, locals⟩, _, _⟩ := provideFunctions_invariant (fun _ state =>
      (∀ iface item, item ∈ (state.heap iface).globals → item ∈ (p.heap iface).globals) ∧
        ∀ iface item, item ∈ (state.heap iface).locals →
          item ∈ (p.heap iface).locals ∨ item = ⟨p.brk, message.identity⟩) (by
    intro function _ value ver iface state next _ _ _ provided start
    refine ⟨fun other item member => ?_, fun other item member => ?_⟩
    · exact start.1 other item ((provided.globals other item member).resolve_right And.right)
    · rcases provided.locals other item member with old | ⟨_, rfl⟩
      · exact start.2 other item old
      · exact Or.inr rfl) before apart introduces.functions
    ⟨fun _ _ => id, fun _ _ => Or.inl⟩
  have extended := introduces.extends registry
  have grown : p.brk ≤ middle.brk := Nat.le_trans (Nat.le_succ _) extended.brk
  have modules : middle.modules = p.modules := by
    rw [extended.same]
    rfl
  have fabs : middle.fabList = p.fabList := by
    rw [extended.same]
    rfl
  have registered : OwnCopies (registerModule
      (introducedModule ⟨p.brk, message.identity⟩ name desc pid provides)
      (zstrSend (.register (decimal pid.toInt) name) middle)) := by
    refine own.mono grown ?_ globals ?_
    · intro key fab found
      exact Or.inl ⟨fab, fabs ▸ found, rfl⟩
    · rintro identity (⟨iface, member⟩ | ⟨key, mod, found, held⟩)
      · rcases locals iface identity member with old | rfl
        · exact Or.inl (Or.inl ⟨iface, old⟩)
        · exact Or.inr (Nat.le_refl _)
      · rcases lookup_registerModule found with old | ⟨_, _, rfl⟩
        · exact Or.inl (Or.inr ⟨key, mod, modules ▸ old, held⟩)
        · rw [← held]
          exact Or.inr (Nat.le_refl _)
  rw [introduces.registers]
  exact registered.calm (.sendMessage _ _ _ _ _)

theorem OwnCopies.step (own : OwnCopies p) (registry : Registry p)
    (run : p.step conf env event = .ok q) : OwnCopies q := by
  cases step_cases run with
  | calm calm => exact own.calm calm
  | handled _ calm => exact (own.arrived _).calm calm
  | @queued message call placed middle _ _ _ _ placement _ result =>
      have after := (own.arrived message).calm (placeCall_outcome placement).calm.1
      rw [result]
      exact ⟨after.fabs, after.below, after.apart⟩
  | @listed message _ _ _ listing =>
      rcases processIfaceList_ok listing with rfl | ⟨paths, fab, _, _, provided⟩
      · exact own.arrived message
      · exact (own.arrived message).paths (registry.arrived message) provided
  | introduced _ _ introduction =>
      rcases processIntroduce_ok introduction with asked | ⟨_, _, _, _, _, _, introduces⟩
      · exact (own.arrived _).calm (.procman asked)
      · exact (own.arrived _).introduces (registry.arrived _) introduces
  | @removed mod before _ same calm =>
      have gone := own.unlisted registry mod.identity
      have left : OwnCopies (before.withoutModule mod) := by
        refine gone.mono ?_ ?_ ?_ ?_
        · rw [same]
          exact Nat.le_refl _
        · intro key fab found
          rw [same] at found
          exact Or.inl ⟨fab, found, rfl⟩
        · intro iface item member
          rw [same] at member
          exact member
        · rw [same]
          rintro identity (listed | ⟨key, other, found, held⟩)
          · exact Or.inl (Or.inl listed)
          · exact Or.inl (Or.inr ⟨key, other, (ZHash.lookup_erase_some.mp found).2, held⟩)
      exact left.calm calm
  | @asked key fab _ found _ same =>
      rw [same]
      refine own.mono (Nat.le_refl _) ?_ (fun _ _ => id) fun _ => Or.inl
      intro other after there
      rw [ZHash.lookup_update (ZHash.mem_of_lookup found)] at there
      split at there
      · rename_i here
        cases there
        exact Or.inl ⟨fab, here ▸ found, rfl⟩
      · exact Or.inl ⟨after, there, rfl⟩
  | @expired key fab _ _ _ same =>
      rw [same]
      refine (own.unlisted registry fab.identity).mono (Nat.le_refl _) ?_ (fun _ _ => id)
        fun _ => Or.inl
      intro other after there
      exact Or.inl ⟨after, (ZHash.lookup_erase_some.mp there).2, rfl⟩
  | connected _ _ same =>
      rw [same]
      refine own.mono (Nat.le_succ _) ?_ (fun _ _ => id) fun _ => Or.inl
      intro other fab found
      simp only [ZHash.lookup_insert] at found
      split at found
      · cases found
        exact Or.inr ⟨Nat.le_refl _, Nat.lt_succ_self _⟩
      · exact Or.inl ⟨fab, found, rfl⟩

/-- Whatever arrives, the fabric's own pointers are never those of a global list. -/
theorem ownCopies_reaches {guard : Proxy → Env × Event → Prop}
    (reached : Reaches (fabric conf) guard p) : OwnCopies p := by
  refine fabric_invariant OwnCopies reached ?_ ?_
  · constructor
    · rintro _ _ ⟨⟩
    · rintro _ _ ⟨⟩
    · rintro _ _ ⟨⟩
  · exact fun _ _ _ _ _ move registry own => own.step registry move

/-- Every removal that the fabric makes in a run unlists completely. -/
theorem ifaceRemove_reached {guard : Proxy → Env × Event → Prop}
    (reached : Reaches (fabric conf) guard p) {identity : CStr} (points : p.Points identity) :
    Unlisted identity p.ifaces.items p.heap (ifaceRemove p.ifaces identity p.heap) := by
  exact ifaceRemove_unlisted (registry_reaches reached).nodup
    ((ownCopies_reaches reached).keepsCopies points)

end

end ModBus
