import ModBus.Registry

/-! What an introduction or an interface list changes in the registry. -/

namespace ModBus

open Libc Czmq Transition

section

variable {conf : Config} {env : Env} {event : Event} {p q : Proxy}

theorem ifaceFor_ok {mod func : String} {ver : UInt64} {iface : Addr}
    (run : ifaceFor mod func ver p = .ok (iface, q)) :
    (checkInterface p.ifaces p.heap mod func ver = some iface ∧ q = p) ∨
      checkInterface p.ifaces p.heap mod func ver = none ∧ iface = p.brk ∧
        q = { p with
          ifaces := p.ifaces.append p.brk
          heap := Function.update p.heap p.brk ⟨mod, func, ver, ZList.new, ZList.new⟩
          brk := p.brk + 1 } := by
  unfold ifaceFor at run
  split at run
  · rename_i found
    cases run
    exact Or.inl ⟨found, rfl⟩
  · rename_i absent
    split at run
    · cases run
    · rename_i fresh created
      unfold ifaceNew at created
      split at created
      · cases created
      · cases created
        cases run
        exact Or.inr ⟨absent, rfl, rfl⟩

structure Attached (mod func : String) (ver : UInt64) (iface : Addr) (p q : Proxy) : Prop where
  listed : iface ∈ q.ifaces.items
  mod : (q.heap iface).mod = mod
  func : (q.heap iface).func = func
  ver : ver ≤ (q.heap iface).ver
  locals : ∀ other, (q.heap other).locals = (p.heap other).locals
  globals : ∀ other, (q.heap other).globals = (p.heap other).globals
  used : ∀ other < p.brk, q.heap other = p.heap other
  items : q.ifaces.items = p.ifaces.items ∨ q.ifaces.items = p.ifaces.items ++ [iface]
  brk : p.brk ≤ q.brk
  same : q = { p with ifaces := q.ifaces, heap := q.heap, brk := q.brk }

theorem ifaceFor_attached {mod func : String} {ver : UInt64} {iface : Addr}
    (registry : Registry p) (run : ifaceFor mod func ver p = .ok (iface, q)) :
    Attached mod func ver iface p q := by
  rcases ifaceFor_ok run with ⟨found, same⟩ | ⟨_, fresh, same⟩
  · obtain ⟨listed, sameMod, sameFunc, above⟩ := checkInterface_some found
    subst same
    exact ⟨listed, sameMod, sameFunc, above, fun _ => rfl, fun _ => rfl, fun _ _ => rfl,
      Or.inl rfl, Nat.le_refl _, rfl⟩
  · subst fresh
    have unused : p.brk ∉ p.ifaces.items := by
      intro listed
      exact Nat.lt_irrefl _ (registry.allocated _ listed)
    obtain ⟨noLocals, noGlobals⟩ := registry.unlisted _ unused
    subst same
    refine ⟨by simp, by simp, by simp, by simp, ?_, ?_, ?_, Or.inr rfl, by simp, rfl⟩
    · intro other
      by_cases here : other = p.brk
      · rw [here, noLocals]
        simp [Iface.locals, ZList.new]
      · simp [here]
    · intro other
      by_cases here : other = p.brk
      · rw [here, noGlobals]
        simp [Iface.globals, ZList.new]
      · simp [here]
    · intro other used
      exact Function.update_of_ne (Nat.ne_of_lt used) _ _

theorem subset_of_grown {items more : List Addr} {iface : Addr}
    (grown : more = items ∨ more = items ++ [iface]) : items ⊆ more := by
  rcases grown with rfl | rfl
  · exact fun _ => id
  · exact List.subset_append_left _ _

theorem Registry.ifaceFor {mod func : String} {ver : UInt64} {iface : Addr}
    (registry : Registry p) (run : ifaceFor mod func ver p = .ok (iface, q)) : Registry q := by
  have attached := ifaceFor_attached registry run
  have same := attached.same
  have holds : ∀ identity, q.Holds identity → p.Holds identity := by
    intro identity held
    rw [same] at held
    simpa only [Proxy.Holds, attached.locals] using held
  have listing : q.ifaces.items.Nodup ∧ ∀ other ∈ q.ifaces.items, other < q.brk := by
    rcases ifaceFor_ok run with ⟨_, same⟩ | ⟨_, _, same⟩
    · rw [same]
      exact ⟨registry.nodup, registry.allocated⟩
    · rw [same]
      constructor
      · rw [ZList.append_items, List.nodup_append]
        refine ⟨registry.nodup, List.nodup_singleton _, ?_⟩
        intro left member right single
        rw [List.mem_singleton.mp single]
        exact Nat.ne_of_lt (registry.allocated left member)
      · intro other member
        simp only [ZList.append_items, List.mem_append, List.mem_singleton] at member
        rcases member with earlier | rfl
        · exact Nat.lt_succ_of_lt (registry.allocated other earlier)
        · exact Nat.lt_succ_self _
  exact {
    nodup := listing.1
    allocated := listing.2
    unlisted := fun other absent => by
      rw [attached.locals, attached.globals]
      exact registry.unlisted other fun listed => absent (subset_of_grown attached.items listed)
    once := fun other => by
      rw [attached.locals]
      exact registry.once other
    pointers := fun left right heldLeft heldRight =>
      registry.pointers left right (holds left heldLeft) (holds right heldRight)
    below := fun identity held =>
      Nat.lt_of_lt_of_le (registry.below identity (holds identity held)) attached.brk
    moduleKey := fun key mod found =>
      registry.moduleKey key mod (by rw [same] at found; exact found)
    fabKey := fun key fab found => registry.fabKey key fab (by rw [same] at found; exact found)
    calls := fun key call found => by
      have bound := registry.calls key call (by rw [same] at found; exact found)
      obtain ⟨iface, assigned, allocated, rest⟩ := bound.iface
      refine ⟨bound.actionid, iface, assigned, Nat.lt_of_lt_of_le allocated attached.brk, ?_⟩
      rw [attached.used iface allocated]
      exact rest }

structure Provided (mod func : String) (ver : UInt64) (loc glob : CStr → Prop) (iface : Addr)
    (p q : Proxy) : Prop where
  listed : iface ∈ q.ifaces.items
  sameMod : (q.heap iface).mod = mod
  sameFunc : (q.heap iface).func = func
  above : ver ≤ (q.heap iface).ver
  found : checkInterface p.ifaces p.heap mod func ver = some iface ∨
    checkInterface p.ifaces p.heap mod func ver = none ∧ (q.heap iface).ver = ver
  locals : ∀ other item, item ∈ (q.heap other).locals →
    item ∈ (p.heap other).locals ∨ other = iface ∧ loc item
  globals : ∀ other item, item ∈ (q.heap other).globals →
    item ∈ (p.heap other).globals ∨ other = iface ∧ glob item
  kept : ∀ other < p.brk, (q.heap other).mod = (p.heap other).mod ∧
    (q.heap other).func = (p.heap other).func ∧ (q.heap other).ver = (p.heap other).ver
  items : q.ifaces.items = p.ifaces.items ∨ q.ifaces.items = p.ifaces.items ++ [iface]
  brk : p.brk ≤ q.brk
  same : q = { p with ifaces := q.ifaces, heap := q.heap, brk := q.brk }

theorem Attached.provided {mod func : String} {ver : UInt64} {iface : Addr} {middle : Proxy}
    {loc glob : CStr → Prop} (change : Iface → Iface)
    (attached : Attached mod func ver iface p middle)
    (run : ifaceFor mod func ver p = .ok (iface, middle))
    (kind : (change (middle.heap iface)).mod = mod ∧ (change (middle.heap iface)).func = func ∧
      (change (middle.heap iface)).ver = (middle.heap iface).ver)
    (locals : ∀ item ∈ (change (middle.heap iface)).locals,
      item ∈ (middle.heap iface).locals ∨ loc item)
    (globals : ∀ item ∈ (change (middle.heap iface)).globals,
      item ∈ (middle.heap iface).globals ∨ glob item)
    (brk : middle.brk ≤ q.brk)
    (same : q = { middle.modifyIface iface change with brk := q.brk }) :
    Provided mod func ver loc glob iface p q := by
  have heap : q.heap = Function.update middle.heap iface (change (middle.heap iface)) := by
    rw [same]
    rfl
  have ifaces : q.ifaces = middle.ifaces := by
    rw [same]
    rfl
  refine ⟨ifaces ▸ attached.listed, ?_, ?_, ?_, ?_, ?_, ?_, ?_, ifaces ▸ attached.items,
    Nat.le_trans attached.brk brk, ?_⟩
  · simp [heap, kind.1]
  · simp [heap, kind.2.1]
  · simpa [heap, kind.2.2] using attached.ver
  · rcases ifaceFor_ok run with ⟨found, _⟩ | ⟨absent, fresh, created⟩
    · exact Or.inl found
    · refine Or.inr ⟨absent, ?_⟩
      rw [heap, Function.update_self, kind.2.2, created, fresh]
      simp
  · intro other item member
    by_cases here : other = iface
    · rw [here] at member ⊢
      rw [heap, Function.update_self] at member
      rw [← attached.locals]
      exact (locals item member).imp_right (And.intro rfl)
    · rw [heap, Function.update_of_ne here, attached.locals] at member
      exact Or.inl member
  · intro other item member
    by_cases here : other = iface
    · rw [here] at member ⊢
      rw [heap, Function.update_self] at member
      rw [← attached.globals]
      exact (globals item member).imp_right (And.intro rfl)
    · rw [heap, Function.update_of_ne here, attached.globals] at member
      exact Or.inl member
  · intro other used
    by_cases here : other = iface
    · rw [here] at used ⊢
      rw [heap, Function.update_self, ← attached.used iface used, kind.1, kind.2.1, kind.2.2]
      exact ⟨attached.mod.symm, attached.func.symm, rfl⟩
    · rw [heap, Function.update_of_ne here, attached.used other used]
      exact ⟨rfl, rfl, rfl⟩
  · rw [same, attached.same]
    rfl

theorem provideLocal_iff {identity : CStr} {name function : String} {ver : UInt64} :
    provideLocal identity name function ver p = .ok q ↔ ∃ iface middle,
      ifaceFor name function ver p = .ok (iface, middle) ∧
        (ifaceAppendLocal (middle.heap iface) identity).2.Printable ∧
        q = middle.modifyIface iface fun entry => (ifaceAppendLocal entry identity).2.printed := by
  unfold provideLocal
  cases ifaceFor name function ver p with
  | error fault => simp
  | ok attached =>
      obtain ⟨iface, middle⟩ := attached
      simp only [Except.ok.injEq, Prod.mk.injEq]
      constructor
      · intro run
        split at run
        · cases run
        · rename_i printed dump
          obtain ⟨fits, rfl⟩ := ifacePrint_ok.mp dump
          cases run
          exact ⟨iface, middle, ⟨rfl, rfl⟩, fits, rfl⟩
      · rintro ⟨_, _, ⟨rfl, rfl⟩, fits, rfl⟩
        rw [ifacePrint_ok.mpr ⟨fits, rfl⟩]
        rfl

theorem provideLocal_ok {identity : CStr} {name function : String} {ver : UInt64}
    (registry : Registry p) (run : provideLocal identity name function ver p = .ok q) :
    ∃ iface middle, ifaceFor name function ver p = .ok (iface, middle) ∧
      q = middle.modifyIface iface (fun entry => Iface.printed (ifaceAppendLocal entry identity).2) ∧
      Provided name function ver (· = identity) (fun _ => False) iface p q := by
  obtain ⟨iface, middle, attaching, _, rfl⟩ := provideLocal_iff.mp run
  have attached := ifaceFor_attached registry attaching
  refine ⟨iface, middle, attaching, rfl,
    attached.provided (fun entry => Iface.printed (ifaceAppendLocal entry identity).2) attaching
      ?_ ?_ ?_ (Nat.le_refl _) rfl⟩
  · exact ⟨attached.mod, attached.func, rfl⟩
  · intro item member
    rw [(printed_same _).locals, ifaceAppendLocal_locals] at member
    split at member
    · exact Or.inl member
    · simpa using member
  · intro item member
    rw [(printed_same _).globals] at member
    exact Or.inl member

theorem provideGlobal_iff {fab : Fabric} {mod func : String} {ver : UInt64} :
    provideGlobal fab mod func ver p = .ok q ↔ ∃ iface middle,
      ifaceFor mod func ver p = .ok (iface, middle) ∧
        (ifaceAppendGlobal (middle.heap iface) fab.identity middle.brk).2.Printable ∧
        q = { middle.modifyIface iface (fun entry =>
          (ifaceAppendGlobal entry fab.identity middle.brk).2.printed) with
            brk := middle.brk + 1 } := by
  unfold provideGlobal
  cases ifaceFor mod func ver p with
  | error fault => simp
  | ok attached =>
      obtain ⟨iface, middle⟩ := attached
      simp only [Except.ok.injEq, Prod.mk.injEq]
      constructor
      · intro run
        split at run
        · cases run
        · rename_i printed dump
          obtain ⟨fits, rfl⟩ := ifacePrint_ok.mp dump
          cases run
          exact ⟨iface, middle, ⟨rfl, rfl⟩, fits, rfl⟩
      · rintro ⟨_, _, ⟨rfl, rfl⟩, fits, rfl⟩
        rw [ifacePrint_ok.mpr ⟨fits, rfl⟩]
        rfl

theorem provideGlobal_ok {fab : Fabric} {mod func : String} {ver : UInt64}
    (registry : Registry p) (run : provideGlobal fab mod func ver p = .ok q) :
    ∃ iface middle, ifaceFor mod func ver p = .ok (iface, middle) ∧
      q = { middle.modifyIface iface (fun entry =>
        Iface.printed (ifaceAppendGlobal entry fab.identity middle.brk).2) with
          brk := middle.brk + 1 } ∧
      Provided mod func ver (fun _ => False) (fun item => item.text = fab.identity.text) iface
        p q := by
  obtain ⟨iface, middle, attaching, _, rfl⟩ := provideGlobal_iff.mp run
  have attached := ifaceFor_attached registry attaching
  refine ⟨iface, middle, attaching, rfl, attached.provided _ attaching ?_ ?_ ?_ ?_ rfl⟩
  · exact ⟨attached.mod, attached.func, rfl⟩
  · intro item member
    rw [(printed_same _).locals] at member
    exact Or.inl member
  · intro item member
    rw [(printed_same _).globals, ifaceAppendGlobal_globals] at member
    split at member
    · exact Or.inl member
    · simp only [List.mem_append, List.mem_singleton] at member
      exact member.imp_right fun same => by rw [same]
  · exact Nat.le_succ _

/-- A change of one listed interface's lists that keeps local names apart, where
`loc` tells which local names it may add. -/
theorem Registry.modifyIface {iface : Addr} (change : Iface → Iface) (loc : CStr → Prop)
    (registry : Registry p) (listed : iface ∈ p.ifaces.items)
    (kind : (change (p.heap iface)).mod = (p.heap iface).mod ∧
      (change (p.heap iface)).func = (p.heap iface).func ∧
      (change (p.heap iface)).ver = (p.heap iface).ver)
    (once : ((change (p.heap iface)).locals.map CStr.text).Nodup)
    (locals : ∀ item ∈ (change (p.heap iface)).locals, item ∈ (p.heap iface).locals ∨ loc item)
    (apart : ∀ item, loc item → item.addr < p.brk ∧ ∀ other, p.Holds other ∨ loc other →
      other.addr = item.addr → other.text = item.text) :
    Registry (p.modifyIface iface change) := by
  have heap : (p.modifyIface iface change).heap =
      Function.update p.heap iface (change (p.heap iface)) := rfl
  have holds : ∀ identity, (p.modifyIface iface change).Holds identity →
      p.Holds identity ∨ loc identity := by
    rintro identity (⟨other, member⟩ | registered)
    · by_cases here : other = iface
      · rw [here, heap, Function.update_self] at member
        exact (locals identity member).imp_left fun old => Or.inl ⟨iface, old⟩
      · rw [heap, Function.update_of_ne here] at member
        exact Or.inl (Or.inl ⟨other, member⟩)
    · exact Or.inl (Or.inr registered)
  have kept : ∀ other, ((p.modifyIface iface change).heap other).mod = (p.heap other).mod ∧
      ((p.modifyIface iface change).heap other).func = (p.heap other).func ∧
      ((p.modifyIface iface change).heap other).ver = (p.heap other).ver := by
    intro other
    by_cases here : other = iface
    · rw [here, heap, Function.update_self]
      exact kind
    · rw [heap, Function.update_of_ne here]
      exact ⟨rfl, rfl, rfl⟩
  exact {
    nodup := registry.nodup
    allocated := registry.allocated
    unlisted := fun other absent => by
      have elsewhere : other ≠ iface := by
        rintro rfl
        exact absent listed
      rw [heap, Function.update_of_ne elsewhere]
      exact registry.unlisted other absent
    once := fun other => by
      by_cases here : other = iface
      · rw [here, heap, Function.update_self]
        exact once
      · rw [heap, Function.update_of_ne here]
        exact registry.once other
    pointers := fun left right heldLeft heldRight same => by
      rcases holds left heldLeft with oldLeft | newLeft
      · rcases holds right heldRight with oldRight | newRight
        · exact registry.pointers left right oldLeft oldRight same
        · exact (apart right newRight).2 left (Or.inl oldLeft) same
      · exact ((apart left newLeft).2 right (holds right heldRight) same.symm).symm
    below := fun identity held => by
      rcases holds identity held with old | new
      · exact registry.below identity old
      · exact (apart identity new).1
    moduleKey := registry.moduleKey
    fabKey := registry.fabKey
    calls := fun key call found => by
      obtain ⟨actionid, iface, assigned, allocated, module, function, version⟩ :=
        registry.calls key call found
      refine ⟨actionid, iface, assigned, allocated, ?_⟩
      rw [(kept iface).1, (kept iface).2.1, (kept iface).2.2]
      exact ⟨module, function, version⟩ }

def Proxy.Apart (p : Proxy) (identity : CStr) : Prop :=
  identity.addr < p.brk ∧ ∀ other, p.Holds other → other.addr = identity.addr →
    other.text = identity.text

theorem Registry.provideLocal {identity : CStr} {name function : String} {ver : UInt64}
    (registry : Registry p) (apart : p.Apart identity)
    (run : provideLocal identity name function ver p = .ok q) :
    Registry q ∧ q.Apart identity := by
  obtain ⟨iface, middle, attaching, same, provided⟩ := provideLocal_ok registry run
  have attached := ifaceFor_attached registry attaching
  have between := registry.ifaceFor attaching
  have middleHolds : ∀ other, middle.Holds other → p.Holds other := by
    intro other held
    rw [attached.same] at held
    simpa only [Proxy.Holds, attached.locals] using held
  have appended : ∀ item ∈ (Iface.printed (ifaceAppendLocal (middle.heap iface) identity).2).locals,
      item ∈ (middle.heap iface).locals ∨ item = identity := by
    intro item member
    rw [(printed_same _).locals, ifaceAppendLocal_locals] at member
    split at member
    · exact Or.inl member
    · simpa using member
  constructor
  · rw [same]
    refine between.modifyIface _ (· = identity) attached.listed ⟨rfl, rfl, rfl⟩ ?_ appended ?_
    · rw [(printed_same _).locals, ifaceAppendLocal_locals]
      split
      · exact between.once iface
      · exact nodup_append_fresh (between.once iface) (by assumption)
    · rintro item rfl
      refine ⟨Nat.lt_of_lt_of_le apart.1 attached.brk, ?_⟩
      rintro other (held | rfl) sameAddr
      · exact apart.2 other (middleHolds other held) sameAddr
      · rfl
  · refine ⟨Nat.lt_of_lt_of_le apart.1 provided.brk, ?_⟩
    rintro other (⟨holder, member⟩ | ⟨key, mod, found, held⟩) sameAddr
    · rcases provided.locals holder other member with old | ⟨_, rfl⟩
      · exact apart.2 other (Or.inl ⟨holder, old⟩) sameAddr
      · rfl
    · rw [provided.same] at found
      exact apart.2 other (Or.inr ⟨key, mod, found, held⟩) sameAddr

theorem Registry.provideGlobal {fab : Fabric} {mod func : String} {ver : UInt64}
    (registry : Registry p) (run : provideGlobal fab mod func ver p = .ok q) : Registry q := by
  obtain ⟨iface, middle, attaching, same, _⟩ := provideGlobal_ok registry run
  have attached := ifaceFor_attached registry attaching
  have between := registry.ifaceFor attaching
  have locals : (Iface.printed (ifaceAppendGlobal (middle.heap iface) fab.identity
      middle.brk).2).locals = (middle.heap iface).locals :=
    (printed_same _).locals
  have changed := between.modifyIface
    (fun entry => Iface.printed (ifaceAppendGlobal entry fab.identity middle.brk).2)
    (fun _ => False) attached.listed ⟨rfl, rfl, rfl⟩ (locals ▸ between.once iface)
    (fun item member => Or.inl (locals ▸ member)) (fun _ => False.elim)
  subst same
  exact changed.frame rfl rfl (Nat.le_succ _) (fun _ _ => id) (fun _ _ => id) changed.fabKey

structure Extends (p q : Proxy) : Prop where
  same : q = { p with ifaces := q.ifaces, heap := q.heap, brk := q.brk }
  grown : ∃ more, q.ifaces.items = p.ifaces.items ++ more
  kept : ∀ other < p.brk, (q.heap other).mod = (p.heap other).mod ∧
    (q.heap other).func = (p.heap other).func ∧ (q.heap other).ver = (p.heap other).ver
  brk : p.brk ≤ q.brk

theorem Extends.refl (p : Proxy) : Extends p p :=
  ⟨rfl, ⟨[], by simp⟩, fun _ _ => ⟨rfl, rfl, rfl⟩, Nat.le_refl _⟩

theorem Extends.more (extended : Extends p q) : p.ifaces.items ⊆ q.ifaces.items := by
  obtain ⟨more, grown⟩ := extended.grown
  rw [grown]
  exact List.subset_append_left _ _

theorem Extends.trans {r : Proxy} (left : Extends p q) (right : Extends q r) : Extends p r := by
  obtain ⟨first, grown⟩ := left.grown
  obtain ⟨second, grown'⟩ := right.grown
  refine ⟨?_, ⟨first ++ second, ?_⟩, ?_, Nat.le_trans left.brk right.brk⟩
  · rw [right.same, left.same]
  · rw [grown', grown, List.append_assoc]
  · intro other used
    obtain ⟨mod, func, ver⟩ := right.kept other (Nat.lt_of_lt_of_le used left.brk)
    obtain ⟨mod', func', ver'⟩ := left.kept other used
    exact ⟨mod.trans mod', func.trans func', ver.trans ver'⟩

theorem Provided.extends {mod func : String} {ver : UInt64} {loc glob : CStr → Prop} {iface : Addr}
    (provided : Provided mod func ver loc glob iface p q) : Extends p q :=
  ⟨provided.same, provided.items.elim (fun same => ⟨[], by simp [same]⟩) (fun grown => ⟨_, grown⟩),
    provided.kept, provided.brk⟩

/-- What every provision of an introduction preserves, all of them preserve;
`Holds` may speak of the functions that are still to be provided. -/
theorem provideFunctions_invariant (Holds : List String → Proxy → Prop) {identity : CStr}
    {name : String} {provides : ZHash Unpacked} {functions : List String}
    (preserved : ∀ function rest value ver iface middle next,
      provides.lookup function = some value → value.version = .ok ver → Registry middle →
      Provided name function ver (· = identity) (fun _ => False) iface middle next →
      Holds (function :: rest) middle → Holds rest next)
    (registry : Registry p) (apart : p.Apart identity)
    (run : provideFunctions identity name provides functions p = .ok q)
    (start : Holds functions p) : Holds [] q ∧ Registry q ∧ q.Apart identity := by
  induction functions generalizing p with
  | nil =>
      cases run
      exact ⟨start, registry, apart⟩
  | cons function functions ih =>
      simp only [provideFunctions] at run
      split at run
      · cases run
      · rename_i value found
        split at run
        · cases run
        · rename_i ver read
          split at run
          · cases run
          · rename_i middle provision
            obtain ⟨iface, _, _, _, provided⟩ := provideLocal_ok registry provision
            obtain ⟨between, still⟩ := registry.provideLocal apart provision
            exact ih between still run (preserved function functions value ver iface p middle found
              read registry provided start)

theorem providePaths_invariant (Holds : Proxy → Prop) {fab : Fabric} {paths : List String}
    (preserved : ∀ mod func ver iface middle next, Registry middle →
      Provided mod func ver (fun _ => False) (fun item => item.text = fab.identity.text) iface
        middle next → Holds middle → Holds next)
    (registry : Registry p) (run : providePaths fab paths p = .ok q) (start : Holds p) :
    Holds q ∧ Registry q := by
  induction paths generalizing p with
  | nil =>
      cases run
      exact ⟨start, registry⟩
  | cons path paths ih =>
      simp only [providePaths] at run
      split at run
      · cases run
      · rename_i middle provision
        unfold providePath at provision
        split at provision
        · obtain ⟨iface, _, _, _, provided⟩ := provideGlobal_ok registry provision
          exact ih (registry.provideGlobal provision) run
            (preserved _ _ _ iface p middle registry provided start)
        · cases provision
          exact ih registry run start

theorem processIfaceList_ok {message : Message} (run : processIfaceList message p = .ok q) :
    q = p ∨ ∃ paths fab, messageGetIfaceList message = .ok (some paths) ∧
      p.fabList.lookup message.identity = some fab ∧ providePaths fab paths p = .ok q := by
  unfold processIfaceList at run
  split at run
  · cases run
  · cases run
    exact Or.inl rfl
  · rename_i paths read
    split at run
    · cases run
    · rename_i fab found
      exact Or.inr ⟨paths, fab, read, found, run⟩

structure Introduces (env : Env) (message : Message) (name : String) (pid : Int32)
    (desc : Option String) (provides : ZHash Unpacked) (p middle q : Proxy) : Prop where
  named : messageGetName message = .ok (some name)
  numbered : messageGetPid message = .ok pid
  provided : messageGetProvides message = .ok (some provides)
  nonempty : provides.keys ≠ []
  short : (decimal pid.toInt).length < 10
  functions : provideFunctions ⟨p.brk, message.identity⟩ name provides
    (env.visit provides.keys) { p with procman := middle.procman, brk := p.brk + 1 } = .ok middle
  registers : q = (sendMessage env (.introduced message.identity)
    (messageResponse "ok" message.actionid) message.identity
    (registerModule (introducedModule ⟨p.brk, message.identity⟩ name desc pid provides)
      (zstrSend (.register (decimal pid.toInt) name) middle))).2

theorem provideFunctions_procman {identity : CStr} {name : String} {provides : ZHash Unpacked}
    {functions : List String} (run : provideFunctions identity name provides functions p = .ok q) :
    q.procman = p.procman := by
  induction functions generalizing p with
  | nil =>
      cases run
      rfl
  | cons function functions ih =>
      simp only [provideFunctions] at run
      split at run
      · cases run
      · split at run
        · cases run
        · split at run
          · cases run
          · rename_i middle provided
            obtain ⟨iface, found, assigned, _, rfl⟩ := provideLocal_iff.mp provided
            rw [ih run]
            rcases ifaceFor_ok assigned with ⟨_, rfl⟩ | ⟨_, _, rfl⟩ <;> rfl

theorem introduceAnswered_ok {message : Message} {name answer : String} {pid : Int32}
    (named : messageGetName message = .ok (some name)) (numbered : messageGetPid message = .ok pid)
    (run : introduceAnswered conf env message name pid answer p = .ok q) :
    (q = p ∧ ∀ provides, (conf.debug = true ∨ answer ≠ "no") →
        messageGetProvides message = .ok (some provides) → provides.keys = []) ∨
      (conf.debug = true ∨ answer ≠ "no") ∧
        ∃ desc provides middle, Introduces env message name pid desc provides p middle q := by
  unfold introduceAnswered at run
  split at run
  · rename_i refused
    cases run
    refine Or.inl ⟨rfl, fun provides accepted => ?_⟩
    simp only [Bool.and_eq_true, Bool.not_eq_true', decide_eq_true_eq] at refused
    simp [refused.1, refused.2] at accepted
  · rename_i allowed
    have accepted : conf.debug = true ∨ answer ≠ "no" := by
      cases debug : conf.debug with
      | true => exact Or.inl rfl
      | false => exact Or.inr (by simpa [debug] using allowed)
    split at run
    · cases run
    · rename_i short
      split at run
      · cases run
      · cases run
      · rename_i nothing
        obtain ⟨_, _, rfl⟩ := map_ok.mp run
        refine Or.inl ⟨rfl, fun provides _ read => ?_⟩
        rw [nothing] at read
        cases read
      · rename_i desc provides _ provided
        split at run
        · rename_i empty
          obtain ⟨_, _, rfl⟩ := map_ok.mp run
          refine Or.inl ⟨rfl, fun other _ read => ?_⟩
          rw [provided, Except.ok.injEq, Option.some.injEq] at read
          subst read
          simpa using empty
        · rename_i nonempty
          simp only [] at run
          split at run
          · cases run
          · rename_i middle functions
            cases run
            refine Or.inr ⟨accepted, desc, provides, middle, named, numbered, provided, ?_,
              Nat.lt_of_not_le short, ?_, rfl⟩
            · simpa [List.isEmpty_iff] using nonempty
            · rw [provideFunctions_procman functions]
              exact functions

theorem introduceRequest_some {message : Message} {name : String} {pid : Int32}
    (request : introduceRequest message = .ok (some (name, pid))) :
    messageGetName message = .ok (some name) ∧ messageGetPid message = .ok pid ∧ pid ≠ 0 := by
  obtain ⟨name?, named, request⟩ := bind_ok.mp request
  cases name? with
  | none => cases request
  | some found =>
      obtain ⟨read, numbered, request⟩ := bind_ok.mp request
      split at request
      · cases request
      · rename_i nonzero
        cases request
        exact ⟨named, numbered, nonzero⟩

theorem processIntroduce_ok {message : Message} {answer : String}
    (run : processIntroduce conf env message answer p = .ok q) :
    q = { p with procman := q.procman } ∨ (conf.debug = true ∨ answer ≠ "no") ∧
      ∃ name pid desc provides middle,
        Introduces env message name pid desc provides p middle q := by
  unfold processIntroduce at run
  split at run
  · cases run
  · cases run
    exact Or.inl rfl
  · rename_i name pid request
    obtain ⟨named, numbered, _⟩ := introduceRequest_some request
    rcases introduceAnswered_ok named numbered run with ⟨rfl, _⟩ | ⟨accepted, desc, provides, middle,
      introduces⟩
    · exact Or.inl rfl
    · exact Or.inr ⟨accepted, name, pid, desc, provides, middle, introduces.named,
        introduces.numbered, introduces.provided, introduces.nonempty, introduces.short,
        introduces.functions, introduces.registers⟩

/-- Where an introduction that the process manager has answered fails, other than
in a name that was taken for a format. -/
theorem introduceAnswered_error {message : Message} {name answer : String} {pid : Int32}
    {fault : Fault} (unprinted : logAsFormat name ≠ .error fault) :
    introduceAnswered conf env message name pid answer p = .error fault ↔
      (conf.debug = true ∨ answer ≠ "no") ∧
        (10 ≤ (decimal pid.toInt).length ∧ fault = .outOfBounds ∨
          (decimal pid.toInt).length < 10 ∧
            (messageGetDesc message = .error fault ∨ ∃ desc, messageGetDesc message = .ok desc ∧
              (messageGetProvides message = .error fault ∨
                ∃ provides, messageGetProvides message = .ok (some provides) ∧
                  provideFunctions ⟨p.brk, message.identity⟩ name provides
                    (env.visit provides.keys) { p with brk := p.brk + 1 } = .error fault))) := by
  have accepted : (!conf.debug && decide (answer = "no")) = true ↔
      ¬ (conf.debug = true ∨ answer ≠ "no") := by
    cases conf.debug <;> simp
  have skipped : (logAsFormat name).map (fun _ => p) ≠ .error fault := by
    intro failed
    cases printed : logAsFormat name with
    | error other =>
        rw [printed] at failed
        cases failed
        exact unprinted printed
    | ok text =>
        rw [printed] at failed
        cases failed
  unfold introduceAnswered
  by_cases refused : (!conf.debug && decide (answer = "no")) = true
  · rw [if_pos refused]
    exact iff_of_false (by simp) fun all => accepted.mp refused all.1
  · have goesOn : conf.debug = true ∨ answer ≠ "no" :=
      not_not.mp fun declined => refused (accepted.mpr declined)
    rw [if_neg refused]
    by_cases long : 10 ≤ (decimal pid.toInt).length
    · rw [if_pos long]
      have notShort : ¬ (decimal pid.toInt).length < 10 := Nat.not_lt.mpr long
      simp only [goesOn, long, notShort, true_and, false_and, or_false]
      exact ⟨fun failed => (by cases failed; rfl), fun same => same ▸ rfl⟩
    · rw [if_neg long]
      simp only [goesOn, long, Nat.not_le.mp long, true_and, false_and, false_or]
      cases messageGetDesc message with
      | error other => simp
      | ok desc =>
          cases messageGetProvides message with
          | error other => simp
          | ok provides? =>
              cases provides? with
              | none => simp [skipped]
              | some provides =>
                  by_cases empty : provides.keys.isEmpty = true
                  · have none' : env.visit provides.keys = [] := by
                      have perm := env.visit_perm provides.keys
                      rw [List.isEmpty_iff.mp empty] at perm ⊢
                      exact perm.eq_nil
                    simp [empty, none', provideFunctions, skipped]
                  · simp only []
                    rw [if_neg empty]
                    split
                    · rename_i other failed
                      simp [failed]
                    · rename_i middle ok
                      simp [ok]

def Proxy.introducing (p : Proxy) (commands : List Command) : Proxy :=
  { p with procman := commands, brk := p.brk + 1 }

theorem Registry.introducing (registry : Registry p) (message : Message)
    (commands : List Command) :
    Registry (p.introducing commands) ∧
      (p.introducing commands).Apart ⟨p.brk, message.identity⟩ := by
  constructor
  · exact registry.frame rfl rfl (Nat.le_succ _) (fun _ _ => id) (fun _ _ => id) registry.fabKey
  · refine ⟨Nat.lt_succ_self _, ?_⟩
    intro other held same
    exact absurd (registry.below other held) (by simp [same])

theorem lookup_registerModule {mod other : Module} {key : String}
    (found : (registerModule mod p).modules.lookup key = some other) :
    p.modules.lookup key = some other ∨
      key = mod.identity.text ∧ key ∉ p.modules ∧ other = mod := by
  rw [registerModule, ZHash.lookup_insertNew] at found
  split at found
  · rename_i fresh
    cases found
    exact Or.inr ⟨fresh.1, fresh.1 ▸ fresh.2, rfl⟩
  · exact Or.inl found

theorem Registry.register (mod : Module) (registry : Registry p) (apart : p.Apart mod.identity) :
    Registry (registerModule mod p) := by
  have holds : ∀ identity, (registerModule mod p).Holds identity →
      p.Holds identity ∨ identity = mod.identity := by
    rintro identity (listed | ⟨key, other, found, same⟩)
    · exact Or.inl (Or.inl listed)
    · rcases lookup_registerModule found with old | ⟨_, _, rfl⟩
      · exact Or.inl (Or.inr ⟨key, other, old, same⟩)
      · exact Or.inr same.symm
  exact {
    nodup := registry.nodup
    allocated := registry.allocated
    unlisted := registry.unlisted
    once := registry.once
    pointers := fun left right heldLeft heldRight same => by
      rcases holds left heldLeft with oldLeft | rfl
      · rcases holds right heldRight with oldRight | rfl
        · exact registry.pointers left right oldLeft oldRight same
        · exact apart.2 left oldLeft same
      · rcases holds right heldRight with oldRight | rfl
        · exact (apart.2 right oldRight same.symm).symm
        · rfl
    below := fun identity held => by
      rcases holds identity held with old | rfl
      · exact registry.below identity old
      · exact apart.1
    moduleKey := fun key other found => by
      rcases lookup_registerModule found with old | ⟨same, _, rfl⟩
      · exact registry.moduleKey key other old
      · exact same.symm
    fabKey := registry.fabKey
    calls := fun key call found => (registry.calls key call found).frame rfl (Nat.le_refl _) }

theorem Introduces.extends {message : Message} {name : String} {pid : Int32}
    {desc : Option String} {provides : ZHash Unpacked} {middle : Proxy} (registry : Registry p)
    (introduces : Introduces env message name pid desc provides p middle q) :
    Extends (p.introducing middle.procman) middle := by
  obtain ⟨before, apart⟩ := registry.introducing message middle.procman
  exact (provideFunctions_invariant (fun _ => Extends (p.introducing middle.procman))
    (fun _ _ _ _ _ _ _ _ _ _ provided reached => reached.trans provided.extends) before apart
    introduces.functions (.refl _)).1

theorem providePaths_extends {fab : Fabric} {paths : List String} (registry : Registry p)
    (run : providePaths fab paths p = .ok q) : Extends p q :=
  (providePaths_invariant (Extends p)
    (fun _ _ _ _ _ _ _ provided reached => reached.trans provided.extends) registry run
    (.refl _)).1

theorem processIfaceList_extends {message : Message} (registry : Registry p)
    (run : processIfaceList message p = .ok q) : Extends p q := by
  rcases processIfaceList_ok run with rfl | ⟨paths, fab, _, _, provided⟩
  · exact .refl _
  · exact providePaths_extends registry provided

theorem Registry.introduces {message : Message} {name : String} {pid : Int32}
    {desc : Option String} {provides : ZHash Unpacked} {middle : Proxy} (registry : Registry p)
    (introduces : Introduces env message name pid desc provides p middle q) : Registry q := by
  obtain ⟨before, apart⟩ := registry.introducing message middle.procman
  obtain ⟨_, between, still⟩ := provideFunctions_invariant (fun _ _ => True)
    (fun _ _ _ _ _ _ _ _ _ _ _ _ => trivial) before apart introduces.functions trivial
  have told := between.calm (.zstrSend (.register (decimal pid.toInt) name) middle)
  have registered := told.register (introducedModule ⟨p.brk, message.identity⟩ name desc pid
    provides) still
  rw [introduces.registers]
  exact registered.calm (.sendMessage _ _ _ _ _)

theorem Registry.expire {key : String} (registry : Registry p) (identity : CStr) :
    Registry { p.unlisted identity with fabList := p.fabList.erase key } := by
  have unlisted := registry.without identity
  refine unlisted.frame rfl rfl (Nat.le_refl _) (fun _ _ => id) (fun _ _ => id) ?_
  intro other fab found
  exact registry.fabKey other fab (ZHash.lookup_erase_some.mp found).2

/-! Calls that arrive. -/

structure Message.Arrives (message : Message) (p : Proxy) (env : Env) : Prop where
  addr : message.addr = p.brk
  inTimestamp : message.inTimestamp = env.now
  outTimestamp : message.outTimestamp = 0
  processTimestamp : message.processTimestamp = 0
  routedVia : message.routedVia = none
  iface : message.iface = none
  globals : message.globals = none

theorem messageFromzmq_arrives {zmsg : List Frame} {isLocal : Bool} {message : Message}
    (read : messageFromzmq zmsg isLocal p.brk env.now = .ok (some message)) :
    message.Arrives p env := by
  obtain ⟨_, _, _, _, _, _, rfl⟩ := messageFromzmq_some read
  exact ⟨rfl, rfl, rfl, rfl, rfl, rfl, rfl⟩

theorem toOption_join {α : Type} {result : Except Fault (Option α)} {value : α}
    (read : result.toOption.join = some value) : result = .ok (some value) := by
  cases result with
  | error => cases read
  | ok value? =>
      cases value? with
      | none => cases read
      | some => simpa [Except.toOption] using read

theorem Event.message_arrives {message : Message} (read : event.message env p = some message) :
    message.Arrives p env := by
  cases event with
  | localMsg => exact messageFromzmq_arrives (toOption_join read)
  | globalMsg => exact messageFromzmq_arrives (toOption_join read)
  | procman => cases read
  | queueItem => cases read
  | fabItem => cases read
  | beacon => cases read

theorem PlaceOutcome.chosen {call placed : Message} {middle : Proxy}
    (unrouted : call.routedVia = none) (outcome : PlaceOutcome env call p 0 placed middle) :
    ∃ iface, PlacedOn call p iface placed middle ∧ ChosenFrom call p iface placed := by
  cases outcome with
  | routed via => simp [unrouted] at via
  | waiting on chosen => exact ⟨_, on, chosen⟩
  | toModule on chosen => exact ⟨_, on, chosen⟩
  | toFabric on chosen => exact ⟨_, on, chosen⟩

theorem PlaceOutcome.bound {call placed : Message} {middle : Proxy}
    (unrouted : call.routedVia = none) (outcome : PlaceOutcome env call p 0 placed middle) :
    ∃ iface, PlacedOn call p iface placed middle := by
  obtain ⟨iface, on, _⟩ := outcome.chosen unrouted
  exact ⟨iface, on⟩

theorem PlacedOn.serves {call placed : Message} {middle : Proxy} {iface : Addr}
    (fresh : call.iface = none) (on : PlacedOn call p iface placed middle) :
    iface ∈ p.ifaces.items ∧ call.module = some (p.heap iface).mod ∧
      call.function = some (p.heap iface).func ∧ call.version ≤ (p.heap iface).ver := by
  rcases on.binds with assigned | ⟨_, module, function, named, called, found⟩
  · simp [fresh] at assigned
  · obtain ⟨listed, sameMod, sameFunc, above⟩ := checkInterface_some found
    exact ⟨listed, by rw [named, sameMod], by rw [called, sameFunc], above⟩

theorem Registry.enqueue {call placed : Message} {middle : Proxy} (registry : Registry p)
    (fresh : call.iface = none) (unrouted : call.routedVia = none)
    (placement : placeCall env call p = .ok (0, placed, middle)) :
    Registry (enqueue placed middle) := by
  have outcome := placeCall_outcome placement
  obtain ⟨calm, _⟩ := outcome.calm
  obtain ⟨iface, on⟩ := outcome.bound unrouted
  obtain ⟨listed, module, function, above⟩ := on.serves fresh
  have after := registry.calm calm
  have bound : placed.BoundIn middle placed.actionid := by
    refine ⟨rfl, iface, by rw [on.same], ?_, ?_⟩
    · rw [calm.brk]
      exact registry.allocated iface listed
    · rw [(on.sameHeap iface).mod, (on.sameHeap iface).func, (on.sameHeap iface).ver, on.same]
      exact ⟨module, function, above⟩
  exact { after with
    calls := fun key queued found => by
      simp only [ModBus.enqueue, ZHash.lookup_insertNew] at found
      split at found
      · rename_i here
        cases found
        exact (here.1 ▸ bound).frame rfl (Nat.le_refl _)
      · exact (after.calls key queued found).frame rfl (Nat.le_refl _) }

theorem Registry.step (registry : Registry p) (run : p.step conf env event = .ok q) :
    Registry q := by
  cases step_cases run with
  | calm calm => exact registry.calm calm
  | handled _ calm => exact (registry.arrived _).calm calm
  | @queued message call placed middle read _ parsed _ placement _ result =>
      have arrives := Event.message_arrives read
      have same := readCall_ok parsed
      subst result
      refine (registry.arrived message).enqueue ?_ ?_ placement
      · rw [same]
        exact arrives.iface
      · rw [same]
        exact arrives.routedVia
  | listed _ _ _ listing =>
      rcases processIfaceList_ok listing with rfl | ⟨paths, fab, _, _, provided⟩
      · exact registry.arrived _
      · exact (providePaths_invariant (fun _ => True) (fun _ _ _ _ _ _ _ _ _ => trivial)
          (registry.arrived _) provided trivial).2
  | introduced _ _ introduction =>
      rcases processIntroduce_ok introduction with asked | ⟨_, _, _, _, _, _, introduces⟩
      · exact (registry.arrived _).calm (.procman asked)
      · exact (registry.arrived _).introduces introduces
  | @removed mod before _ same calm =>
      have middle : Registry before := by
        rw [same]
        exact registry.frame rfl rfl (Nat.le_refl _) (fun _ _ => id) (fun _ _ => id)
          registry.fabKey
      exact (middle.withoutModule mod).calm calm
  | @asked key fab _ found _ same =>
      rw [same]
      refine registry.frame rfl rfl (Nat.le_refl _) (fun _ _ => id) (fun _ _ => id) ?_
      intro other known member
      rw [ZHash.lookup_update (ZHash.mem_of_lookup found)] at member
      split at member
      · rename_i here
        cases member
        exact registry.fabKey other fab (here ▸ found)
      · exact registry.fabKey other known member
  | expired _ _ _ same =>
      rw [same]
      exact registry.expire _
  | connected _ _ same =>
      rw [same]
      refine registry.frame rfl rfl (Nat.le_succ _) (fun _ _ => id) (fun _ _ => id) ?_
      intro other known member
      rw [ZHash.lookup_insert] at member
      split at member
      · rename_i here
        cases member
        exact here.symm
      · exact registry.fabKey other known member

theorem registry_reaches {guard : Proxy → Env × Event → Prop}
    (reached : Reaches (fabric conf) guard p) : Registry p := by
  refine reached.invariant Registry ?_ ?_
  · rintro state rfl
    exact registry_new
  · intro state label next _ move registry
    exact registry.step move

theorem step_brk (registry : Registry p) (run : p.step conf env event = .ok q) :
    p.brk ≤ q.brk := by
  cases step_cases run with
  | calm calm => exact Nat.le_of_eq calm.brk.symm
  | handled _ calm =>
      rw [calm.brk, arrived_brk]
      exact Nat.le_succ _
  | queued _ _ _ _ placement _ result =>
      rw [result, enqueue, (placeCall_outcome placement).calm.1.brk, arrived_brk]
      exact Nat.le_succ _
  | listed _ _ _ listing =>
      refine Nat.le_trans ?_ (processIfaceList_extends (registry.arrived _) listing).brk
      rw [arrived_brk]
      exact Nat.le_succ _
  | introduced _ _ introduction =>
      rcases processIntroduce_ok introduction with asked | ⟨_, _, _, _, _, _, introduces⟩
      · rw [asked]
        simp
      · have extended := (introduces.extends (registry.arrived _)).brk
        rw [introduces.registers, sendMessage_brk, registerModule, zstrSend_brk]
        simp only [Proxy.introducing, arrived_brk] at extended
        exact Nat.le_trans (Nat.le_add_right _ 2) extended
  | removed _ same calm =>
      rw [calm.brk]
      show _ ≤ Proxy.brk _
      rw [same]
      exact Nat.le_refl _
  | asked _ _ _ same => exact Nat.le_of_eq (by rw [same])
  | expired _ _ _ same => exact Nat.le_of_eq (by rw [same]; rfl)
  | connected _ _ same =>
      rw [same]
      exact Nat.le_succ _

theorem step_entry {placed : Message} {key : String} (registry : Registry p)
    (run : p.step conf env event = .ok q)
    (found : q.queue.lookup key = some placed) :
    (∃ before, p.queue.lookup key = some before ∧ before.Carried placed) ∨
      ∃ message call middle, event.message env p = some message ∧ message.command = "call" ∧
        readCall message = .ok call ∧
        placeCall env call (p.arrived message) = .ok (0, placed, middle) ∧
        (placed.isLocal = true ∨ placed.routedVia ≠ none) := by
  have kept : ∀ {state : Proxy}, state.queue = p.queue → state.queue.lookup key = some placed →
      ∃ before, p.queue.lookup key = some before ∧ before.Carried placed := by
    intro state same there
    exact ⟨placed, same ▸ there, .refl placed⟩
  cases step_cases run with
  | calm calm => exact Or.inl (calm.queue key placed found)
  | @handled message _ calm =>
      obtain ⟨before, queued, carried⟩ := calm.queue key placed found
      exact Or.inl ⟨before, by simpa using queued, carried⟩
  | @queued message call new middle read isCall parsed _ placement accepted result =>
      obtain ⟨calm, _⟩ := (placeCall_outcome placement).calm
      subst result
      simp only [enqueue, ZHash.lookup_insertNew] at found
      split at found
      · cases found
        exact Or.inr ⟨message, call, middle, read, isCall, parsed, placement, accepted⟩
      · obtain ⟨before, queued, carried⟩ := calm.queue key placed found
        exact Or.inl ⟨before, by simpa using queued, carried⟩
  | @listed message _ _ _ listing =>
      refine Or.inl (kept ?_ found)
      rw [(processIfaceList_extends (registry.arrived message) listing).same]
      exact arrived_queue message p
  | @introduced message _ _ introduction =>
      rcases processIntroduce_ok introduction with asked | ⟨_, _, _, _, _, _, introduces⟩
      · refine Or.inl (kept ?_ found)
        rw [asked]
        exact arrived_queue message p
      · refine Or.inl (kept ?_ found)
        rw [introduces.registers, sendMessage_queue, registerModule, zstrSend_queue,
          (introduces.extends (registry.arrived message)).same]
        exact arrived_queue message p
  | @removed mod before _ same calm _ =>
      obtain ⟨earlier, queued, carried⟩ := calm.queue key placed found
      refine Or.inl ⟨earlier, ?_, carried⟩
      rw [same] at queued
      exact queued
  | asked _ _ _ same => exact Or.inl (kept (by rw [same]) found)
  | expired _ _ _ same => exact Or.inl (kept (by rw [same]; rfl) found)
  | connected _ _ same => exact Or.inl (kept (by rw [same]) found)

end

end ModBus
