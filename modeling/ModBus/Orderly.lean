import ModBus.Integrity
import ModBus.Wire

/-! The order of the registry: the interfaces of one function stand by version,
nobody is listed twice, and no interface is listed that nobody provides. -/

namespace ModBus

open Libc Czmq Transition

structure Orderly (p : Proxy) : Prop where
  ascending : p.ifaces.items.Pairwise fun first later =>
    (p.heap first).mod = (p.heap later).mod → (p.heap first).func = (p.heap later).func →
      (p.heap first).ver < (p.heap later).ver
  locals : ∀ iface ∈ p.ifaces.items, ((p.heap iface).locals.map CStr.text).Nodup
  globals : ∀ iface ∈ p.ifaces.items, ((p.heap iface).globals.map CStr.text).Nodup
  provided : ∀ iface ∈ p.ifaces.items, (p.heap iface).locals ≠ [] ∨ (p.heap iface).globals ≠ []

structure Suits (p : Proxy) (mod func : String) (ver : UInt64) (iface : Addr) : Prop where
  listed : iface ∈ p.ifaces.items
  mod : (p.heap iface).mod = mod
  func : (p.heap iface).func = func
  above : ver ≤ (p.heap iface).ver

structure LooksUpLeast (p : Proxy) (mod func : String) (ver : UInt64) : Prop where
  found : ∀ iface, checkInterface p.ifaces p.heap mod func ver = some iface ↔
    Suits p mod func ver iface ∧
      ∀ other, Suits p mod func ver other → other ≠ iface → (p.heap iface).ver < (p.heap other).ver
  absent : checkInterface p.ifaces p.heap mod func ver = none ↔
    ∀ iface, ¬ Suits p mod func ver iface

def registrySystem (conf : Config) : System Proxy ((Env × Event) ⊕ CStr) where
  initial p := p = proxyNew
  step p label q :=
    match label with
    | .inl (env, event) => p.step conf env event = .ok q
    | .inr identity => q = p.unlisted identity

structure RegistryRule (Holds : Proxy → Prop) : Prop where
  frame : ∀ p q, q.ifaces = p.ifaces → p.SameHeap q → Holds p → Holds q
  provideLocal : ∀ p q identity name function ver, Registry p → Plain name → Plain function →
    provideLocal identity name function ver p = .ok q → Holds p → Holds q
  provideGlobal : ∀ p q fab mod func ver, Registry p → (Plain mod ∧ mod ≠ "") →
    (Plain func ∧ func ≠ "") → provideGlobal fab mod func ver p = .ok q → Holds p → Holds q
  unlist : ∀ p identity, Registry p → Holds p → Holds (p.unlisted identity)

section

variable {conf : Config} {env : Env} {event : Event} {p q : Proxy} {Holds : Proxy → Prop}

theorem RegistryRule.functions (rule : RegistryRule Holds) {identity : CStr} {name : String}
    {provides : ZHash Unpacked} {functions : List String} (registry : Registry p)
    (apart : p.Apart identity) (named : Plain name)
    (called : ∀ function ∈ functions, Plain function)
    (run : provideFunctions identity name provides functions p = .ok q) (holds : Holds p) :
    Holds q := by
  induction functions generalizing p with
  | nil =>
      cases run
      exact holds
  | cons function functions ih =>
      simp only [provideFunctions] at run
      split at run
      · cases run
      · split at run
        · cases run
        · rename_i ver _
          split at run
          · cases run
          · rename_i middle provision
            obtain ⟨between, still⟩ := registry.provideLocal apart provision
            exact ih between still (fun other member => called other (List.mem_cons_of_mem _ member))
              run (rule.provideLocal p middle identity name function ver registry named
                (called function List.mem_cons_self) provision holds)

theorem RegistryRule.paths (rule : RegistryRule Holds) {fab : Fabric} {paths : List String}
    (registry : Registry p) (plain : ∀ path ∈ paths, Plain path)
    (run : providePaths fab paths p = .ok q) (holds : Holds p) : Holds q := by
  induction paths generalizing p with
  | nil =>
      cases run
      exact holds
  | cons path paths ih =>
      simp only [providePaths] at run
      split at run
      · cases run
      · rename_i middle provision
        have later : ∀ other ∈ paths, Plain other := fun other member =>
          plain other (List.mem_cons_of_mem _ member)
        unfold providePath at provision
        split at provision
        · rename_i mod func ver _ tokens
          have words : ∀ word ∈ strtok ':' path, Plain word ∧ word ≠ "" := fun word member =>
            ⟨strtok_plain (plain path List.mem_cons_self) member,
              (strtokFrom_tokens List.not_mem_nil member).1⟩
          rw [tokens] at words
          exact ih (registry.provideGlobal provision) later run
            (rule.provideGlobal p middle fab mod func _ registry (words mod (by simp))
              (words func (by simp)) provision holds)
        · cases provision
          exact ih registry later run holds

theorem RegistryRule.calm (rule : RegistryRule Holds) (calm : Calm p q) (holds : Holds p) :
    Holds q :=
  rule.frame p q calm.ifaces calm.sameHeap holds

theorem RegistryRule.same (rule : RegistryRule Holds) (ifaces : q.ifaces = p.ifaces)
    (heap : q.heap = p.heap) (holds : Holds p) : Holds q := by
  refine rule.frame p q ifaces (fun iface => ?_) holds
  rw [heap]
  exact Iface.Same.refl _

theorem RegistryRule.introduces (rule : RegistryRule Holds) {message : Message} {name : String}
    {pid : Int32} {desc : Option String} {provides : ZHash Unpacked} {middle : Proxy}
    (registry : Registry p)
    (introduces : Introduces env message name pid desc provides p middle q) (holds : Holds p) :
    Holds q := by
  obtain ⟨before, apart⟩ := registry.introducing message middle.procman
  have keys : ∀ function ∈ env.visit provides.keys, Plain function := by
    intro function member
    have key : function ∈ provides := AList.mem_keys.mpr ((env.visit_perm _).mem_iff.mp member)
    exact messageGetProvides_plain introduces.provided function key
  have provided := rule.functions before apart (bodyString_plain introduces.named) keys
    introduces.functions (rule.same (p := p) rfl rfl holds)
  rw [introduces.registers]
  exact rule.calm (.sendMessage _ _ _ _ _) (rule.same (p := middle) rfl rfl provided)

theorem RegistryRule.step (rule : RegistryRule Holds) (registry : Registry p)
    (run : p.step conf env event = .ok q) (holds : Holds p) : Holds q := by
  have arrives : ∀ message, Holds (p.arrived message) := fun message =>
    rule.same (by simp) (by simp) holds
  cases step_cases run with
  | calm calm => exact rule.calm calm holds
  | handled _ calm => exact rule.calm calm (arrives _)
  | queued _ _ _ _ placement _ result =>
      have placed := rule.calm (placeCall_outcome placement).calm.1 (arrives _)
      exact rule.same (by rw [result]; rfl) (by rw [result]; rfl) placed
  | @listed message _ _ _ listing =>
      rcases processIfaceList_ok listing with rfl | ⟨paths, fab, read, _, provided⟩
      · exact arrives message
      · exact rule.paths (registry.arrived message) (messageGetIfaceList_plain read) provided
          (arrives message)
  | @introduced message _ _ introduction =>
      rcases processIntroduce_ok introduction with asked | ⟨_, _, _, _, _, _, introduces⟩
      · exact rule.calm (.procman asked) (arrives message)
      · exact rule.introduces (registry.arrived message) introduces (arrives message)
  | @removed mod before _ same calm _ =>
      have there : Registry before := by
        rw [same]
        exact registry.frame rfl rfl (Nat.le_refl _) (fun _ _ => id) (fun _ _ => id)
          registry.fabKey
      have start : Holds before := rule.same (by rw [same]) (by rw [same]) holds
      exact rule.calm calm (rule.same (p := before.unlisted mod.identity) rfl rfl
        (rule.unlist before mod.identity there start))
  | asked _ _ _ same => exact rule.same (by rw [same]) (by rw [same]) holds
  | @expired _ fab _ _ _ same =>
      rw [same]
      exact rule.same (p := p.unlisted fab.identity) rfl rfl
        (rule.unlist p fab.identity registry holds)
  | connected _ _ same => exact rule.same (by rw [same]) (by rw [same]) holds

/-- The induction rule of the registry's invariants. -/
theorem RegistryRule.reaches (rule : RegistryRule Holds)
    {guard : Proxy → (Env × Event) ⊕ CStr → Prop}
    (reached : Reaches (registrySystem conf) guard p) (initially : Holds proxyNew) : Holds p := by
  have both : Registry p ∧ Holds p := by
    refine reached.invariant (fun state => Registry state ∧ Holds state) ?_ ?_
    · rintro state rfl
      exact ⟨registry_new, initially⟩
    · rintro state label next _ move ⟨registry, holds⟩
      cases label with
      | inl label => exact ⟨registry.step move, rule.step registry move holds⟩
      | inr identity =>
          rw [show next = state.unlisted identity from move]
          exact ⟨registry.without identity, rule.unlist state identity registry holds⟩
  exact both.2

theorem Orderly.frame (orderly : Orderly p) (ifaces : q.ifaces = p.ifaces) (same : p.SameHeap q) :
    Orderly q where
  ascending := by
    rw [ifaces]
    refine orderly.ascending.imp fun {first later} ordered => ?_
    rw [(same first).mod, (same first).func, (same first).ver, (same later).mod,
      (same later).func, (same later).ver]
    exact ordered
  locals iface listed := by
    rw [(same iface).locals]
    exact orderly.locals iface (ifaces ▸ listed)
  globals iface listed := by
    rw [(same iface).globals]
    exact orderly.globals iface (ifaces ▸ listed)
  provided iface listed := by
    rw [(same iface).locals, (same iface).globals]
    exact orderly.provided iface (ifaces ▸ listed)

theorem Orderly.attach {mod func : String} {ver : UInt64} {iface : Addr} (registry : Registry p)
    (orderly : Orderly p) (attaching : ifaceFor mod func ver p = .ok (iface, q)) :
    q.ifaces.items.Pairwise (fun first later =>
      (q.heap first).mod = (q.heap later).mod → (q.heap first).func = (q.heap later).func →
        (q.heap first).ver < (q.heap later).ver) ∧
      (∀ other ∈ q.ifaces.items, ((q.heap other).locals.map CStr.text).Nodup) ∧
      (∀ other ∈ q.ifaces.items, ((q.heap other).globals.map CStr.text).Nodup) ∧
      ∀ other ∈ q.ifaces.items, other ≠ iface →
        (q.heap other).locals ≠ [] ∨ (q.heap other).globals ≠ [] := by
  rcases ifaceFor_ok attaching with ⟨_, rfl⟩ | ⟨absent, rfl, same⟩
  · exact ⟨orderly.ascending, orderly.locals, orderly.globals,
      fun other listed _ => orderly.provided other listed⟩
  · have attached := ifaceFor_attached registry attaching
    have used : ∀ other ∈ p.ifaces.items, q.heap other = p.heap other := fun other listed =>
      attached.used other (registry.allocated other listed)
    have items : q.ifaces.items = p.ifaces.items ++ [p.brk] := by
      rw [same]
      exact ZList.append_items _ _
    have fresh : q.heap p.brk = ⟨mod, func, ver, ZList.new, ZList.new⟩ := by
      rw [same]
      exact Function.update_self _ _ _
    rw [checkInterface_eq, List.find?_eq_none] at absent
    have among : ∀ other ∈ q.ifaces.items, other ∈ p.ifaces.items ∨ other = p.brk := by
      intro other listed
      rw [items] at listed
      simpa using listed
    refine ⟨?_, ?_, ?_, ?_⟩
    · rw [items, List.pairwise_append]
      refine ⟨?_, List.pairwise_singleton _ _, ?_⟩
      · refine orderly.ascending.imp_of_mem fun {first later} earlier after ordered => ?_
        rw [used first earlier, used later after]
        exact ordered
      · intro first listed later last
        rw [List.mem_singleton.mp last, used first listed, fresh]
        intro sameMod sameFunc
        have below := absent first listed
        simp only [decide_eq_true_eq, not_and] at below
        exact UInt64.not_le.mp (below sameMod sameFunc)
    · intro other listed
      rcases among other listed with old | rfl
      · rw [used other old]
        exact orderly.locals other old
      · rw [fresh]
        exact List.nodup_nil
    · intro other listed
      rcases among other listed with old | rfl
      · rw [used other old]
        exact orderly.globals other old
      · rw [fresh]
        exact List.nodup_nil
    · intro other listed different
      have old := (among other listed).resolve_right different
      rw [used other old]
      exact orderly.provided other old

theorem Orderly.provide {mod func : String} {ver : UInt64} {iface : Addr} {middle : Proxy}
    (registry : Registry p) (orderly : Orderly p)
    (attaching : ifaceFor mod func ver p = .ok (iface, middle)) (change : Iface → Iface)
    (kind : ∀ entry, (change entry).mod = entry.mod ∧ (change entry).func = entry.func ∧
      (change entry).ver = entry.ver)
    (locals : ∀ entry, (entry.locals.map CStr.text).Nodup →
      ((change entry).locals.map CStr.text).Nodup)
    (globals : ∀ entry, (entry.globals.map CStr.text).Nodup →
      ((change entry).globals.map CStr.text).Nodup)
    (provided : ∀ entry, (change entry).locals ≠ [] ∨ (change entry).globals ≠ []) :
    Orderly (middle.modifyIface iface change) := by
  obtain ⟨ascending, onceLocal, onceGlobal, others⟩ := orderly.attach registry attaching
  have kept : ∀ other, ((middle.modifyIface iface change).heap other).mod =
        (middle.heap other).mod ∧
      ((middle.modifyIface iface change).heap other).func = (middle.heap other).func ∧
      ((middle.modifyIface iface change).heap other).ver = (middle.heap other).ver := by
    intro other
    by_cases here : other = iface
    · subst here
      simpa [Proxy.modifyIface] using kind (middle.heap other)
    · simp [Proxy.modifyIface, here]
  refine ⟨?_, ?_, ?_, ?_⟩
  · refine List.Pairwise.imp (fun {first later} ordered => ?_) ascending
    rw [(kept first).1, (kept first).2.1, (kept first).2.2, (kept later).1, (kept later).2.1,
      (kept later).2.2]
    exact ordered
  · intro other listed
    by_cases here : other = iface
    · subst here
      simpa [Proxy.modifyIface] using locals _ (onceLocal other listed)
    · simpa [Proxy.modifyIface, here] using onceLocal other listed
  · intro other listed
    by_cases here : other = iface
    · subst here
      simpa [Proxy.modifyIface] using globals _ (onceGlobal other listed)
    · simpa [Proxy.modifyIface, here] using onceGlobal other listed
  · intro other listed
    by_cases here : other = iface
    · subst here
      simpa [Proxy.modifyIface] using provided (middle.heap other)
    · simpa [Proxy.modifyIface, here] using others other listed here

theorem Orderly.provideGlobal {fab : Fabric} {mod func : String} {ver : UInt64}
    (orderly : Orderly p) (registry : Registry p)
    (run : provideGlobal fab mod func ver p = .ok q) : Orderly q := by
  obtain ⟨iface, middle, attaching, rfl, _⟩ := provideGlobal_ok registry run
  have provided := orderly.provide registry attaching
    (fun entry => Iface.printed (ifaceAppendGlobal entry fab.identity middle.brk).2)
    (fun _ => ⟨rfl, rfl, rfl⟩) ?_ ?_ ?_
  · exact provided.frame rfl (Proxy.SameHeap.refl _)
  · intro entry once
    rw [(printed_same _).locals]
    exact once
  · intro entry once
    rw [(printed_same _).globals, ifaceAppendGlobal_globals]
    split
    · exact once
    · exact nodup_append_fresh once (by assumption)
  · intro entry
    right
    rw [(printed_same _).globals, ifaceAppendGlobal_globals]
    split
    · rename_i listed
      exact List.ne_nil_of_mem (List.mem_map.mp listed).choose_spec.1
    · simp

theorem orderly_rule : RegistryRule Orderly where
  frame _ _ ifaces same orderly := orderly.frame ifaces same
  provideLocal p q identity name function ver registry _ _ run orderly := by
    obtain ⟨iface, middle, attaching, rfl, _⟩ := provideLocal_ok registry run
    refine orderly.provide registry attaching _ (fun _ => ⟨rfl, rfl, rfl⟩) ?_ ?_ ?_
    · intro entry once
      rw [(printed_same _).locals, ifaceAppendLocal_locals]
      split
      · exact once
      · exact nodup_append_fresh once (by assumption)
    · intro entry once
      rw [(printed_same _).globals]
      exact once
    · intro entry
      left
      rw [(printed_same _).locals, ifaceAppendLocal_locals]
      split
      · rename_i listed
        exact List.ne_nil_of_mem (List.mem_map.mp listed).choose_spec.1
      · simp
  provideGlobal _ _ _ _ _ _ registry _ _ run orderly := orderly.provideGlobal registry run
  unlist p identity registry orderly := by
    have heap := unlisted_heap registry identity
    have items := unlisted_items registry identity
    refine ⟨?_, ?_, ?_, ?_⟩
    · rw [items]
      refine (orderly.ascending.filter _).imp fun {first later} ordered => ?_
      rw [(heap first).mod, (heap first).func, (heap first).ver, (heap later).mod,
        (heap later).func, (heap later).ver]
      exact ordered
    · intro iface listed
      rw [items] at listed
      rw [unlisted_locals registry]
      exact (orderly.locals iface (List.mem_of_mem_filter listed)).sublist
        (List.eraseP_sublist.map _)
    · intro iface listed
      rw [items] at listed
      rw [unlisted_globals registry]
      exact (orderly.globals iface (List.mem_of_mem_filter listed)).sublist
        (List.eraseP_sublist.map _)
    · intro iface listed
      rw [items, List.mem_filter] at listed
      rw [(heap iface).locals, (heap iface).globals]
      by_contra empty
      simp only [not_or, not_not] at empty
      have deserted := (deserted_iff ((p.heap iface).unlist identity)).mpr ⟨empty.2, empty.1⟩
      simp [deserted] at listed

theorem Orderly.looksUpLeast (orderly : Orderly p) (mod func : String) (ver : UInt64) :
    LooksUpLeast p mod func ver := by
  have suits : ∀ iface, (iface ∈ p.ifaces.items ∧ decide ((p.heap iface).mod = mod ∧
      (p.heap iface).func = func ∧ ver ≤ (p.heap iface).ver) = true) ↔
      Suits p mod func ver iface := by
    intro iface
    rw [decide_eq_true_eq]
    exact ⟨fun all => ⟨all.1, all.2.1, all.2.2.1, all.2.2.2⟩,
      fun all => ⟨all.listed, all.mod, all.func, all.above⟩⟩
  constructor
  · intro iface
    rw [checkInterface_eq, ZList.find?_least (fun left right => (p.heap left).ver < (p.heap right).ver)
      (fun _ _ first second => absurd first (UInt64.lt_asymm second)),
      ← and_assoc, suits]
    · refine and_congr_right fun _ => ?_
      exact ⟨fun least other suit => least other suit.listed ((suits other).mpr suit).2,
        fun least other listed same => least other ((suits other).mp ⟨listed, same⟩)⟩
    · refine orderly.ascending.imp fun {first later} ordered here there => ?_
      simp only [decide_eq_true_eq] at here there
      exact ordered (here.1.trans there.1.symm) (here.2.1.trans there.2.1.symm)
  · rw [checkInterface_eq, List.find?_eq_none]
    exact ⟨fun none iface suit => none iface suit.listed ((suits iface).mpr suit).2,
      fun none iface listed same => none iface ((suits iface).mp ⟨listed, same⟩)⟩

theorem orderly_new : Orderly proxyNew where
  ascending := List.Pairwise.nil
  locals _ listed := by cases listed
  globals _ listed := by cases listed
  provided _ listed := by cases listed

/-- In every reachable state the registry is in order, so that a lookup finds
the least version that will do. -/
theorem orderly_reaches {guard : Proxy → (Env × Event) ⊕ CStr → Prop}
    (reached : Reaches (registrySystem conf) guard p) :
    Orderly p ∧ ∀ mod func ver, LooksUpLeast p mod func ver := by
  have orderly := orderly_rule.reaches reached orderly_new
  exact ⟨orderly, orderly.looksUpLeast⟩

theorem reaches_registrySystem {guard : Proxy → Env × Event → Prop}
    (reached : Reaches (fabric conf) guard p) : Reaches (registrySystem conf) anything p := by
  obtain ⟨start, begins, run⟩ := reached
  refine ⟨start, begins, ?_⟩
  induction run with
  | refl => exact .refl start
  | @snoc middle last label _ _ move ih =>
      have again : (registrySystem conf).step middle (.inl label) last := move
      exact ih.snoc trivial again

def twoVersions : List (Env × Event) := [
  (early, .localMsg (introduceOf worker "mod" 77 [("f", 1)]) "yes"),
  (early, .localMsg (introduceOf caller "mod" 78 [("f", 3)]) "yes")]

theorem orderly_introduced :
    Orderly (fabricAfter plainConf twoVersions) ∧
      ∀ mod func ver, LooksUpLeast (fabricAfter plainConf twoVersions) mod func ver := by
  have reached : Reaches (fabric plainConf) anything (fabricAfter plainConf twoVersions) :=
    fabricAfter_reaches (fun _ _ _ => trivial) (by decide)
  exact orderly_reaches (reaches_registrySystem reached)

end

end ModBus
