import ModBus.Dumps
import ModBus.LostRestart
import ModBus.Orderly

/-! Removal by pid. The walk over the modules ends at the first one that has the
pid, and that module is unlisted by its own pointer only. -/

namespace ModBus

open Libc Czmq Transition

def HasPid (p : Proxy) (pid : Int32) (key : String) : Prop :=
  ∃ mod, p.modules.lookup key = some mod ∧ mod.pid = pid

def MemberOf (p : Proxy) (name : String) (iface : Addr) : Prop :=
  iface ∈ p.ifaces.items ∧ name ∈ (p.heap iface).locals.map CStr.text

structure RemovalComplete (pid : Int32) (p q : Proxy) : Prop where
  gone : ∀ key, ¬ HasPid q pid key
  unlisted : ∀ key, HasPid p pid key → ∀ iface, ¬ MemberOf q key iface
  provided : ∀ iface ∈ q.ifaces.items, (q.heap iface).locals ≠ [] ∨ (q.heap iface).globals ≠ []
  others : ∀ key mod, mod.pid ≠ pid →
    (q.modules.lookup key = some mod ↔ p.modules.lookup key = some mod)
  memberships : ∀ key, ¬ HasPid p pid key → ∀ iface, MemberOf q key iface ↔ MemberOf p key iface

def SoleHolder (p : Proxy) (pid : Int32) : Prop :=
  ∀ key mod, p.modules.lookup key = some mod → mod.pid = pid →
    ListedAlone p mod ∧ ∀ other, HasPid p pid other → other = key

section

variable {conf : Config} {p : Proxy} {mod : Module} {pid : Int32}

theorem pid_rule : CardRule fun mod => mod.pid ≠ 0 where
  card old new same nonzero := by
    rw [← (card_fields same).2.2.1]
    exact nonzero
  introduced _ _ _ _ _ nonzero := nonzero

theorem mem_eraseP_addr {items : List CStr} {item identity : CStr}
    (apart : item.addr ≠ identity.addr) :
    item ∈ items.eraseP (fun other => decide (other.addr = identity.addr)) ↔ item ∈ items :=
  List.mem_eraseP_of_neg (by simpa using apart)

theorem memberOf_withoutModule (registry : Registry p) (mod : Module) (name : String) (iface : Addr) :
    MemberOf (p.withoutModule mod) name iface ↔
      iface ∈ p.ifaces.items ∧ ((p.heap iface).unlist mod.identity).deserted = false ∧
        ∃ item ∈ ((p.heap iface).unlist mod.identity).locals, item.text = name := by
  have locals := (unlisted_heap registry mod.identity iface).locals
  have items := unlisted_items registry mod.identity
  unfold MemberOf
  rw [show (p.withoutModule mod).ifaces = (p.unlisted mod.identity).ifaces from rfl,
    show (p.withoutModule mod).heap = (p.unlisted mod.identity).heap from rfl, items, locals,
    List.mem_filter, List.mem_map, and_assoc]
  simp

theorem memberOf_removed (registry : Registry p) (mod : Module) (name : String) (iface : Addr) :
    MemberOf (p.withoutModule mod) name iface ↔
      iface ∈ p.ifaces.items ∧
        ∃ item ∈ ((p.heap iface).unlist mod.identity).locals, item.text = name := by
  rw [memberOf_withoutModule registry]
  constructor
  · rintro ⟨listed, _, named⟩
    exact ⟨listed, named⟩
  · rintro ⟨listed, item, member, same⟩
    refine ⟨listed, ?_, item, member, same⟩
    by_contra deserted
    have empty := (deserted_iff _).mp (by simpa using deserted)
    rw [empty.2] at member
    cases member

theorem memberOf_other (registry : Registry p) (found : p.modules.lookup mod.identity.text = some mod)
    {name : String} (different : name ≠ mod.identity.text) (iface : Addr) :
    MemberOf (p.withoutModule mod) name iface ↔ MemberOf p name iface := by
  have apart : ∀ item ∈ (p.heap iface).locals, item.text = name →
      item.addr ≠ mod.identity.addr := by
    intro item member same pointer
    have text := registry.pointers item mod.identity (Or.inl ⟨iface, member⟩)
      (Or.inr ⟨_, mod, found, rfl⟩) pointer
    exact different (same.symm.trans text)
  rw [memberOf_removed registry, MemberOf, unlist_locals, List.mem_map]
  refine and_congr_right fun _ => exists_congr fun item => ?_
  constructor
  · rintro ⟨member, same⟩
    exact ⟨List.mem_of_mem_eraseP member, same⟩
  · rintro ⟨member, same⟩
    exact ⟨(mem_eraseP_addr (apart item member same)).mpr member, same⟩

/-- The module's name stays listed where another pointer to it stands. -/
theorem memberOf_self (registry : Registry p)
    (found : p.modules.lookup mod.identity.text = some mod) :
    (∀ iface, ¬ MemberOf (p.withoutModule mod) mod.identity.text iface) ↔ ListedAlone p mod := by
  constructor
  · intro gone iface listed item member same
    by_contra pointer
    apply gone iface
    rw [memberOf_removed registry, unlist_locals]
    exact ⟨listed, item, (mem_eraseP_addr pointer).mpr member, same⟩
  · rintro alone iface ⟨_, named⟩
    obtain ⟨item, member, same⟩ := List.mem_map.mp named
    exact unlisted_forgets registry found alone iface item member same

theorem hasPid_withoutModule (mod : Module) (key : String) :
    HasPid (p.withoutModule mod) pid key ↔ key ≠ mod.identity.text ∧ HasPid p pid key := by
  constructor
  · rintro ⟨other, found, same⟩
    obtain ⟨different, there⟩ := ZHash.lookup_erase_some.mp found
    exact ⟨different, other, there, same⟩
  · rintro ⟨different, other, there, same⟩
    exact ⟨other, ZHash.lookup_erase_some.mpr ⟨different, there⟩, same⟩

theorem removal_nobody (orderly : Orderly p) (nobody : ∀ key, ¬ HasPid p pid key) :
    RemovalComplete pid p p where
  gone := nobody
  unlisted key holds := absurd holds (nobody key)
  provided := orderly.provided
  others _ _ _ := Iff.rfl
  memberships _ _ _ := Iff.rfl

/-- The first module with the pid is gone, so what is left to ask is whether it
was the only one and left no other pointer behind. -/
theorem removal_named (registry : Registry p) (orderly : Orderly p)
    (found : p.modules.lookup mod.identity.text = some mod) (same : mod.pid = pid) :
    RemovalComplete pid p (p.withoutModule mod) ↔
      ListedAlone p mod ∧ ∀ key, HasPid p pid key → key = mod.identity.text := by
  constructor
  · intro complete
    refine ⟨(memberOf_self registry found).mp (complete.unlisted _ ⟨mod, found, same⟩), ?_⟩
    intro key holds
    by_contra different
    exact complete.gone key ((hasPid_withoutModule mod key).mpr ⟨different, holds⟩)
  · rintro ⟨alone, sole⟩
    refine ⟨?_, ?_, ?_, ?_, ?_⟩
    · intro key holds
      obtain ⟨different, before⟩ := (hasPid_withoutModule mod key).mp holds
      exact different (sole key before)
    · intro key holds
      rw [sole key holds]
      exact (memberOf_self registry found).mpr alone
    · exact (orderly_rule.unlist p mod.identity registry orderly).provided
    · intro key other different
      refine ZHash.lookup_erase_some.trans ⟨And.right, fun there => ⟨?_, there⟩⟩
      rintro rfl
      rw [found, Option.some.injEq] at there
      exact different (there ▸ same)
    · intro key nobody iface
      refine memberOf_other registry found ?_ iface
      rintro rfl
      exact nobody ⟨mod, found, same⟩

/-- A report that a process is gone removes all there is of it just when one
module had the pid and was listed under one pointer. -/
theorem removal_complete {guard : Proxy → Env × Event → Prop}
    (reached : Reaches (fabric conf) guard p) (env : Env) (cPid : String) :
    ∃ q, sProcmanEvent env "remove" cPid p = .ok q ∧
      (RemovalComplete (atoi cPid) p q ↔ SoleHolder p (atoi cPid)) := by
  have registry := registry_reaches reached
  have orderly := orderly_rule.reaches (reaches_registrySystem reached) orderly_new
  have employed := pid_rule.reaches reached
  rw [sProcmanEvent_eq]
  have vacuous : (∀ key, ¬ HasPid p (atoi cPid) key) →
      (RemovalComplete (atoi cPid) p p ↔ SoleHolder p (atoi cPid)) := by
    intro nobody
    refine ⟨fun _ key mod found same => ?_, fun _ => removal_nobody orderly nobody⟩
    exact absurd ⟨mod, found, same⟩ (nobody key)
  split
  · rename_i zero
    refine ⟨p, rfl, vacuous ?_⟩
    rintro key ⟨mod, found, same⟩
    exact employed key mod found (same.trans zero)
  · cases named : namedModule env cPid p with
    | none =>
        refine ⟨p, rfl, vacuous ?_⟩
        rintro key ⟨mod, found, same⟩
        exact namedModule_none named found same
    | some entry =>
        obtain ⟨key, mod⟩ := entry
        obtain ⟨found, same⟩ := namedModule_some named
        have own := registry.moduleKey key mod found
        subst own
        refine ⟨p.withoutModule mod,
          removeModule_total registry.nodup (printable_reaches reached) mod, ?_⟩
        rw [removal_named registry orderly found same]
        constructor
        · rintro ⟨alone, sole⟩ key other there otherSame
          obtain rfl := sole key ⟨other, there, otherSame⟩
          rw [found, Option.some.injEq] at there
          subst there
          exact ⟨alone, sole⟩
        · intro holder
          exact holder _ mod found same

end

def twoIdentities : List (Env × Event) := [
  (early, .localMsg (introduceOf worker "mod" 77 [("f", 1)]) "yes"),
  (early, .localMsg (introduceOf caller "mod" 77 [("f", 1)]) "yes")]

def oneIdentity : List (Env × Event) := [
  (early, .localMsg (introduceOf worker "mod" 77 [("f", 1)]) "yes"),
  (early, .localMsg (introduceOf caller "mod" 78 [("f", 1)]) "yes")]

theorem removal_complete_one :
    ∃ q, sProcmanEvent early "remove" "77" (fabricAfter plainConf oneIdentity) = .ok q ∧
      (RemovalComplete 77 (fabricAfter plainConf oneIdentity) q ↔
        SoleHolder (fabricAfter plainConf oneIdentity) 77) := by
  have reached : Reaches (fabric plainConf) anything (fabricAfter plainConf oneIdentity) :=
    fabricAfter_reaches (fun _ _ _ => trivial) (by decide)
  exact removal_complete reached early "77"

/-- The process is gone, and one of its two modules stays. -/
theorem removal_incomplete :
    Reaches (fabric plainConf) anything (fabricAfter plainConf twoIdentities) ∧
      ∃ q, sProcmanEvent early "remove" "77" (fabricAfter plainConf twoIdentities) = .ok q ∧
        ¬ RemovalComplete 77 (fabricAfter plainConf twoIdentities) q := by
  have ran : (fabricAfter plainConf twoIdentities).step plainConf early (.procman "remove" "77") =
      .ok ((fabricAfter plainConf twoIdentities).after plainConf early (.procman "remove" "77")) :=
    step_after (by decide)
  refine ⟨fabricAfter_reaches (fun _ _ _ => trivial) (by decide), _, ran, ?_⟩
  intro complete
  have left : (((fabricAfter plainConf twoIdentities).after plainConf early
      (.procman "remove" "77")).modules.lookup "0001020304").map Module.pid = some 77 := by decide
  obtain ⟨mod, found, same⟩ := Option.map_eq_some_iff.mp left
  exact complete.gone "0001020304" ⟨mod, found, same⟩

end ModBus
