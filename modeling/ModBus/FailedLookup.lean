import ModBus.Cursors
import ModBus.Dumps
import ModBus.Readers
import ModBus.Snapshot

/-! Lookups that fail and are used all the same. -/

namespace ModBus

open Libc Czmq Transition

def Scannable (p : Proxy) (iface : Addr) : Prop :=
  ∀ head rest, (p.heap iface).locals = head :: rest →
    head.text ∈ p.modules ∧ ∀ item ∈ (p.heap iface).globals, item.text ∈ p.modules

def Stuck (p : Proxy) (key : String) : Prop :=
  ∃ call iface, p.queue.lookup key = some call ∧ call.routedVia = none ∧
    call.iface = some iface ∧ ¬ Scannable p iface

def WalkSafe (p : Proxy) (identity gone : String) : Prop :=
  ∀ mod, p.modules.lookup identity = some mod → mod.needRestart = false →
    ∀ key, key ≠ gone → ¬ Stuck p key

def Known (p : Proxy) (mod func : String) : Prop :=
  ∃ iface ∈ p.ifaces.items, (p.heap iface).mod = mod ∧ (p.heap iface).func = func

def IntroduceSafe (conf : Config) (env : Env) (message : Message) (answer : String)
    (p : Proxy) : Prop :=
  ∀ name pid desc provides before function after value,
    introduceRequest message = .ok (some (name, pid)) →
    (conf.debug = true ∨ answer ≠ "no") → (decimal pid.toInt).length < 10 →
    messageGetDesc message = .ok desc → messageGetProvides message = .ok (some provides) →
    env.visit provides.keys = before ++ function :: after →
    LocalDumpsFit p message.identity name provides before →
    provides.lookup function = some value → value.version = .ok 0 → Known p name function

def CallSafe (message : Message) (p : Proxy) : Prop :=
  ∀ call module function iface, readCall message = .ok call → call.wellFormedCall = true →
    (receivedText call).length < 896 → call.module = some module → call.function = some function →
    checkInterface p.ifaces p.heap module function call.version = some iface → Scannable p iface

def ListSafe (message : Message) (p : Proxy) : Prop :=
  ∀ paths, messageGetIfaceList message = .ok (some paths) → message.identity ∈ p.fabList ∧
    ∀ earlier mod func later, paths.filterMap pathTriple = earlier ++ (mod, func, 0) :: later →
      GlobalDumpsFit p message.identity earlier →
      Known p mod func ∨ ∃ ver, (mod, func, ver) ∈ earlier

def ResultSafe (message : Message) (p : Proxy) : Prop :=
  match p.queue.lookup message.actionid with
  | some _ => message.isLocal = true → WalkSafe p message.identity message.actionid
  | none => ListSafe message p

def ExceptionSafe (message : Message) (p : Proxy) : Prop :=
  match p.queue.lookup message.actionid with
  | some stored =>
      (message.isLocal = true → WalkSafe p message.identity message.actionid) ∧
        (message.isLocal = false → stored.isLocal = true →
          messageGetExceptionCode message = .ok modulesBusy → ¬ Stuck p message.actionid)
  | none => True

structure LookupsSafe (conf : Config) (env : Env) (message : Message) (answer : String)
    (p : Proxy) : Prop where
  introduce : message.command = "introduce" → IntroduceSafe conf env message answer p
  call : message.command = "call" → CallSafe message p
  result : message.command = "result" → ResultSafe message p
  exception : message.command = "exception" → ExceptionSafe message p

def IntegerProvides (message : Message) : Prop :=
  ∀ provides, messageGetProvides message = .ok (some provides) →
    ∀ function value, provides.lookup function = some value → ∃ ver, value.version = .ok ver

section

variable {conf : Config} {env : Env} {event : Event} {p q : Proxy} {message placed : Message}
  {iface : Addr}

theorem scanIdle_fails (modules : ZHash Module) (ids : List String) (start : Option String) :
    (scanIdle modules ids start = .error .nullDeref ↔ ∃ id ∈ ids, id ∉ modules) ∧
      ∀ fault, scanIdle modules ids start = .error fault → fault = .nullDeref := by
  induction ids generalizing start with
  | nil => simp [scanIdle]
  | cons id ids ih =>
      simp only [scanIdle]
      cases found : modules.lookup id with
      | none =>
          have absent : id ∉ modules := by
            rw [← AList.lookup_eq_none, found]
          refine ⟨⟨fun _ => ⟨id, List.mem_cons_self, absent⟩, fun _ => rfl⟩, ?_⟩
          intro fault failed
          cases failed
          rfl
      | some mod =>
          have present := ZHash.mem_of_lookup found
          refine ⟨(ih _).1.trans ?_, (ih _).2⟩
          simp [present]

theorem Scannable.congr (sameHeap : p.SameHeap q) (modules : ∀ key, key ∈ q.modules ↔ key ∈ p.modules)
    (iface : Addr) : Scannable q iface ↔ Scannable p iface := by
  simp only [Scannable, (sameHeap iface).locals, (sameHeap iface).globals, modules]

theorem Calm.scannable (calm : Calm p q) (iface : Addr) : Scannable q iface ↔ Scannable p iface :=
  Scannable.congr calm.sameHeap calm.mem_modules iface

theorem chooseRoute_fails (unset : Unset p) (iface : Addr) (message : Message) :
    (chooseRoute iface message p = .error .nullDeref ↔ ¬ Scannable p iface) ∧
      ∀ fault, chooseRoute iface message p = .error fault → fault = .nullDeref := by
  have scan := scanIdle_fails p.modules (scanned (p.heap iface)) none
  unfold chooseRoute
  simp only []
  cases locals : (p.heap iface).idLocalList.items with
  | nil =>
      have none' : ¬ 0 < (p.heap iface).idLocalList.size := by simp [ZList.size, locals]
      have scannable : Scannable p iface := by
        intro head rest listed
        simp [Iface.locals, locals] at listed
      rw [if_neg none']
      constructor
      · refine ⟨fun failed => ?_, fun unscannable => absurd scannable unscannable⟩
        (repeat' split at failed) <;> cases failed
      · intro fault failed
        (repeat' split at failed) <;> cases failed
  | cons head rest =>
      have some' : 0 < (p.heap iface).idLocalList.size := by simp [ZList.size, locals]
      have ids : scanned (p.heap iface) =
          head.text :: (p.heap iface).globals.map CStr.text := by
        simp [scanned, locals, ZList.drain_unset (unset iface), Iface.globals]
      have fails : (∃ id ∈ scanned (p.heap iface), id ∉ p.modules) ↔ ¬ Scannable p iface := by
        rw [ids]
        have whole : Scannable p iface ↔ head.text ∈ p.modules ∧
            ∀ item ∈ (p.heap iface).globals, item.text ∈ p.modules := by
          constructor
          · exact fun scannable => scannable head rest locals
          · intro both other more listed
            rw [Iface.locals, locals] at listed
            cases listed
            exact both
        rw [whole]
        simp only [List.mem_cons, List.mem_map, exists_eq_or_imp, not_and_or, not_forall]
        simp
      rw [if_pos some', ← fails, ← scan.1]
      constructor
      · split
        · rename_i fault failed
          obtain rfl := scan.2 fault failed
          exact ⟨fun _ => failed, fun _ => rfl⟩
        · rename_i via found
          simp [found]
      · intro fault failed
        split at failed
        · rename_i other broken
          cases failed
          exact scan.2 _ broken
        · cases failed

theorem assignIface_binds (binds : Binds message p iface) :
    ∃ bound middle, assignIface message p = .ok (some (iface, bound, middle)) := by
  unfold assignIface
  rcases binds with assigned | ⟨unassigned, module, function, named, called, found⟩
  · simp only [assigned]
    exact ⟨_, _, rfl⟩
  · simp only [unassigned, named, called, found]
    split <;> exact ⟨_, _, rfl⟩

theorem assignIface_fails {fault : Fault} (run : assignIface message p = .error fault) :
    fault = .assertFailed ∧ message.iface = none ∧ message.wellFormedCall = false := by
  unfold assignIface at run
  split at run
  · cases run
  · rename_i unassigned
    split at run
    · split at run
      · cases run
      · simp only [] at run
        split at run <;> cases run
    · rename_i unnamed
      cases run
      refine ⟨rfl, unassigned, ?_⟩
      cases module : message.module with
      | none => simp [Message.wellFormedCall, module]
      | some =>
          cases function : message.function with
          | none => simp [Message.wellFormedCall, function]
          | some => exact absurd function (unnamed _ _ module)

theorem placeCall_fails (env : Env) (unset : Unset p) (message : Message) :
    (placeCall env message p = .error .nullDeref ↔
      message.routedVia = none ∧ ∃ iface, Binds message p iface ∧ ¬ Scannable p iface) ∧
      ∀ fault, placeCall env message p = .error fault →
        fault = .nullDeref ∨
          fault = .assertFailed ∧ message.iface = none ∧ message.wellFormedCall = false := by
  unfold placeCall
  cases routed : message.routedVia with
  | some via => simp
  | none =>
      simp only [true_and]
      cases assigned : assignIface message p with
      | error fault =>
          obtain ⟨rfl, unassigned⟩ := assignIface_fails assigned
          constructor
          · refine ⟨fun failed => ?_, ?_⟩
            · cases failed
            · rintro ⟨iface, binds, _⟩
              obtain ⟨_, _, bound⟩ := assignIface_binds binds
              rw [assigned] at bound
              cases bound
          · intro fault failed
            cases failed
            exact Or.inr ⟨rfl, unassigned⟩
      | ok result =>
          cases result with
          | none =>
              constructor
              · refine ⟨fun failed => ?_, ?_⟩
                · cases failed
                · rintro ⟨iface, binds, _⟩
                  obtain ⟨_, _, bound⟩ := assignIface_binds binds
                  rw [assigned] at bound
                  cases bound
              · intro fault failed
                cases failed
          | some result =>
              obtain ⟨iface, bound, middle⟩ := result
              obtain ⟨binds, _, _, same, sameHeap⟩ := assignIface_ok assigned
              have choice := chooseRoute_fails (assignIface_unset unset assigned) iface bound
              have scannable : Scannable middle iface ↔ Scannable p iface :=
                Scannable.congr sameHeap (fun key => by rw [same]) iface
              simp only []
              constructor
              · have only : (∃ other, Binds message p other ∧ ¬ Scannable p other) ↔
                    ¬ Scannable p iface := by
                  refine ⟨?_, fun unscannable => ⟨iface, binds, unscannable⟩⟩
                  rintro ⟨other, binds', unscannable⟩
                  obtain ⟨_, _, bound'⟩ := assignIface_binds binds'
                  rw [assigned] at bound'
                  cases bound'
                  exact unscannable
                rw [only, ← scannable, ← choice.1]
                split
                · rename_i fault failed
                  obtain rfl := choice.2 fault failed
                  exact ⟨fun _ => failed, fun _ => rfl⟩
                · rename_i chosen last ok
                  simp only [ok]
                  constructor
                  · intro failed
                    split at failed <;> cases failed
                  · intro failed
                    cases failed
              · intro fault failed
                split at failed
                · rename_i other broken
                  cases failed
                  exact Or.inl (choice.2 _ broken)
                · split at failed <;> cases failed

theorem placeQueued_fails (env : Env) (registry : Registry p) (unset : Unset p) (key : String) :
    (placeQueued env key p = .error .nullDeref ↔ Stuck p key) ∧
      ∀ fault, placeQueued env key p = .error fault → fault = .nullDeref := by
  unfold placeQueued
  cases queued : p.queue.lookup key with
  | none =>
      refine ⟨⟨fun failed => (by cases failed), ?_⟩, fun fault failed => (by cases failed)⟩
      rintro ⟨call, _, found, _⟩
      rw [queued] at found
      cases found
  | some call =>
      obtain ⟨iface, assigned, _⟩ := (registry.calls key call queued).iface
      obtain ⟨fails, faults⟩ := placeCall_fails env unset call
      have stuck : Stuck p key ↔ placeCall env call p = .error .nullDeref := by
        rw [fails]
        constructor
        · rintro ⟨other, iface, found, unrouted, bound, unscannable⟩
          rw [queued] at found
          cases found
          exact ⟨unrouted, iface, Or.inl bound, unscannable⟩
        · rintro ⟨unrouted, other, binds, unscannable⟩
          rcases binds with bound | ⟨unassigned, _⟩
          · exact ⟨call, other, queued, unrouted, bound, unscannable⟩
          · rw [assigned] at unassigned
            cases unassigned
      have only : ∀ fault, placeCall env call p = .error fault → fault = .nullDeref := by
        intro fault failed
        refine (faults fault failed).resolve_right ?_
        rintro ⟨_, unassigned, _⟩
        rw [assigned] at unassigned
        cases unassigned
      rw [stuck]
      simp only []
      constructor
      · split
        · rename_i fault failed
          obtain rfl := only fault failed
          exact ⟨fun _ => failed, fun _ => rfl⟩
        · rename_i placed
          rw [placed]
          exact ⟨fun failed => (by cases failed), fun failed => (by cases failed)⟩
      · intro fault failed
        split at failed
        · rename_i other broken
          cases failed
          exact only _ broken
        · cases failed

/-- A queued call is bound, so that its placement does not end the walk. -/
theorem placeQueued_goesOn {key : String} {rc : Int} (registry : Registry p)
    (run : placeQueued env key p = .ok (rc, q)) : rc = 0 := by
  rcases placeQueued_ok run with ⟨_, zero, _⟩ | ⟨call, placed, middle, queued, placement, _, _⟩
  · exact zero
  · obtain ⟨iface, bound, _⟩ := (registry.calls key call queued).iface
    exact (placeCall_outcome placement).zero bound

theorem placeQueued_elsewhere {key other : String} {rc : Int} (different : other ≠ key)
    (run : placeQueued env key p = .ok (rc, q)) : q.queue.lookup other = p.queue.lookup other := by
  rcases placeQueued_ok run with ⟨_, _, rfl⟩ | ⟨call, placed, middle, _, _, _, lookup⟩
  · rfl
  · rw [lookup, if_neg different]

theorem Stuck.congr {key : String} (scannable : ∀ iface, Scannable q iface ↔ Scannable p iface)
    (queue : q.queue.lookup key = p.queue.lookup key) : Stuck q key ↔ Stuck p key := by
  simp only [Stuck, scannable, queue]

/-- The walk places one call after the other, and none of them unsticks another. -/
theorem walk_fails {keys : List String} (distinct : keys.Nodup) (registry : Registry p)
    (unset : Unset p) :
    ZHash.foreach (placeQueued env) keys p = .error .nullDeref ↔ ∃ key ∈ keys, Stuck p key := by
  induction keys generalizing p with
  | nil => simp [ZHash.foreach]
  | cons key keys ih =>
      obtain ⟨apart, distinct⟩ := List.nodup_cons.mp distinct
      obtain ⟨fails, only⟩ := placeQueued_fails env registry unset key
      rw [ZHash.foreach]
      cases placement : placeQueued env key p with
      | error fault =>
          obtain rfl := only fault placement
          exact ⟨fun _ => ⟨key, List.mem_cons_self, fails.mp placement⟩, fun _ => rfl⟩
      | ok result =>
          obtain ⟨rc, middle⟩ := result
          obtain rfl := placeQueued_goesOn registry placement
          have calm := placeQueued_calm placement
          have free : ¬ Stuck p key := fun stuck => by
            rw [fails.mpr stuck] at placement
            cases placement
          have others : ∀ other ∈ keys, (Stuck middle other ↔ Stuck p other) := by
            intro other member
            refine Stuck.congr calm.scannable (placeQueued_elsewhere ?_ placement)
            rintro rfl
            exact apart member
          simp only [if_true]
          rw [ih distinct (registry.calm calm) (placeQueued_unset unset placement)]
          constructor
          · rintro ⟨other, member, stuck⟩
            exact ⟨other, List.mem_cons_of_mem _ member, (others other member).mp stuck⟩
          · rintro ⟨other, member, stuck⟩
            rcases List.mem_cons.mp member with rfl | later
            · exact absurd stuck free
            · exact ⟨other, later, (others other later).mpr stuck⟩

theorem placeAll_fails (env : Env) (registry : Registry p) (unset : Unset p) :
    placeAll env p = .error .nullDeref ↔ ∃ key, Stuck p key := by
  have perm := env.visit_perm p.queue.keys
  rw [placeAll, walk_fails (perm.nodup_iff.mpr p.queue.keys_nodup) registry unset]
  constructor
  · rintro ⟨key, _, stuck⟩
    exact ⟨key, stuck⟩
  · rintro ⟨key, stuck⟩
    have held := stuck
    obtain ⟨call, _, queued, _⟩ := held
    exact ⟨key, perm.mem_iff.mpr (AList.mem_keys.mp (ZHash.mem_of_lookup queued)), stuck⟩

theorem putBack_fails (env : Env) (registry : Registry p) (unset : Unset p) (identity : String) :
    putBack env identity p = .error .nullDeref ↔
      ∃ mod, p.modules.lookup identity = some mod ∧ mod.needRestart = false ∧
        ∃ key, Stuck p key := by
  unfold putBack
  cases found : p.modules.lookup identity with
  | none => simp
  | some mod =>
      by_cases wanted : mod.needRestart = true
      · simp [wanted]
      · have card : Module.card { mod with state := .idle } = mod.card := rfl
        have calm := Calm.setModule found card
        have idle : Unset (p.setModule identity { mod with state := .idle }) := unset.same rfl
        simp only []
        rw [if_neg wanted, placeAll_fails env (registry.calm calm) idle]
        have same : ∀ key, Stuck (p.setModule identity { mod with state := .idle }) key ↔
            Stuck p key := fun key => Stuck.congr calm.scannable rfl
        simp only [same]
        constructor
        · intro stuck
          exact ⟨mod, rfl, by simpa using wanted, stuck⟩
        · rintro ⟨_, _, _, stuck⟩
          exact stuck

theorem answered_fails (env : Env) (registry : Registry p) (unset : Unset p) {gone : String}
    (calm : Calm p q) (heap : q.heap = p.heap) (modules : q.modules = p.modules)
    (queue : q.queue = p.queue.erase gone) (identity : String) :
    putBack env identity q = .error .nullDeref ↔ ¬ WalkSafe p identity gone := by
  rw [putBack_fails env (registry.calm calm) (unset.same heap), modules]
  have stuck : ∀ key, Stuck q key ↔ key ≠ gone ∧ Stuck p key := by
    intro key
    by_cases here : key = gone
    · subst here
      refine ⟨?_, fun both => absurd rfl both.1⟩
      rintro ⟨call, _, queued, _⟩
      rw [queue] at queued
      exact absurd rfl (ZHash.lookup_erase_some.mp queued).1
    · rw [Stuck.congr calm.scannable (by rw [queue, ZHash.lookup_erase, if_neg here])]
      exact ⟨fun held => ⟨here, held⟩, fun both => both.2⟩
  simp only [stuck, WalkSafe]
  constructor
  · rintro ⟨mod, found, stays, key, other, held⟩ safe
    exact safe mod found stays key other held
  · intro unsafe'
    simp only [not_forall, not_not] at unsafe'
    obtain ⟨mod, found, stays, key, other, held⟩ := unsafe'
    exact ⟨mod, found, stays, key, other, held⟩

theorem ifaceFor_fails (mod func : String) (ver : UInt64) (p : Proxy) :
    (ifaceFor mod func ver p = .error .nullDeref ↔ ver = 0 ∧ ¬ Known p mod func) ∧
      ∀ fault, ifaceFor mod func ver p = .error fault → fault = .nullDeref := by
  unfold ifaceFor
  cases found : checkInterface p.ifaces p.heap mod func ver with
  | some iface =>
      obtain ⟨listed, sameMod, sameFunc, _⟩ := checkInterface_some found
      have known : Known p mod func := ⟨iface, listed, sameMod, sameFunc⟩
      exact ⟨⟨fun failed => (by cases failed), fun both => absurd known both.2⟩,
        fun fault failed => (by cases failed)⟩
  | none =>
      unfold ifaceNew
      by_cases zero : ver = 0
      · subst zero
        have unknown : ¬ Known p mod func := by
          rintro ⟨iface, listed, sameMod, sameFunc⟩
          rw [checkInterface_eq, List.find?_eq_none] at found
          exact found iface listed (by simp [sameMod, sameFunc])
        simp [unknown]
      · simp [zero]

theorem provideLocal_fails (identity : CStr) (name function : String) (ver : UInt64) (p : Proxy) :
    (provideLocal identity name function ver p = .error .nullDeref ↔
      ver = 0 ∧ ¬ Known p name function) ∧
      ∀ fault, provideLocal identity name function ver p = .error fault → fault = .nullDeref ∨
        fault = .outOfBounds ∧ ¬ LocalDumpFits p identity.text (name, function, ver) := by
  obtain ⟨fails, only⟩ := ifaceFor_fails name function ver p
  rw [← fails]
  cases attaching : ifaceFor name function ver p with
  | error fault =>
      obtain rfl := only fault attaching
      simp [provideLocal, attaching]
  | ok attached =>
      obtain ⟨fit, long⟩ := provideLocal_attached identity attaching
      by_cases fits : LocalDumpFits p identity.text (name, function, ver)
      · obtain ⟨q, run⟩ := fit fits
        simp [run]
      · simp [long fits, fits]

theorem provideGlobal_fails (fab : Fabric) (mod func : String) (ver : UInt64) (p : Proxy) :
    (provideGlobal fab mod func ver p = .error .nullDeref ↔ ver = 0 ∧ ¬ Known p mod func) ∧
      ∀ fault, provideGlobal fab mod func ver p = .error fault → fault = .nullDeref ∨
        fault = .outOfBounds ∧ ¬ GlobalDumpFits p fab.identity.text [] (mod, func, ver) := by
  obtain ⟨fails, only⟩ := ifaceFor_fails mod func ver p
  rw [← fails]
  cases attaching : ifaceFor mod func ver p with
  | error fault =>
      obtain rfl := only fault attaching
      simp [provideGlobal, attaching]
  | ok attached =>
      obtain ⟨fit, long⟩ := provideGlobal_attached fab attaching
      by_cases fits : GlobalDumpFits p fab.identity.text [] (mod, func, ver)
      · obtain ⟨q, run⟩ := fit fits
        simp [run]
      · simp [long fits, fits]

theorem Provided.known {mod func : String} {ver : UInt64} {loc glob : CStr → Prop} {iface : Addr}
    (registry : Registry p) (provided : Provided mod func ver loc glob iface p q)
    (name function : String) :
    Known q name function ↔ Known p name function ∨ name = mod ∧ function = func := by
  constructor
  · rintro ⟨other, listed, sameMod, sameFunc⟩
    by_cases here : other = iface
    · rw [here, provided.sameMod] at sameMod
      rw [here, provided.sameFunc] at sameFunc
      exact Or.inr ⟨sameMod.symm, sameFunc.symm⟩
    · have old : other ∈ p.ifaces.items := by
        rcases provided.items with same | grown
        · exact same ▸ listed
        · rw [grown] at listed
          exact (List.mem_append.mp listed).resolve_right (by simpa using here)
      obtain ⟨mod', func', _⟩ := provided.kept other (registry.allocated other old)
      exact Or.inl ⟨other, old, mod'.symm.trans sameMod, func'.symm.trans sameFunc⟩
  · rintro (⟨other, listed, sameMod, sameFunc⟩ | ⟨rfl, rfl⟩)
    · obtain ⟨mod', func', _⟩ := provided.kept other (registry.allocated other listed)
      exact ⟨other, subset_of_grown provided.items listed, mod'.trans sameMod,
        func'.trans sameFunc⟩
    · exact ⟨iface, provided.listed, provided.sameMod, provided.sameFunc⟩

/-- The handler stops at the first function that it cannot attach, or that makes
an interface outgrow its dump. -/
theorem provideFunctions_fails (name : String) {identity : CStr} {provides : ZHash Unpacked}
    {functions : List String} (registry : Registry p) (apart : p.Apart identity)
    (distinct : functions.Nodup)
    (integers : ∀ function ∈ functions, ∃ value ver, provides.lookup function = some value ∧
      value.version = .ok ver) :
    provideFunctions identity name provides functions p = .error .nullDeref ↔
      ∃ before function after value, functions = before ++ function :: after ∧
        LocalDumpsFit p identity.text name provides before ∧
        provides.lookup function = some value ∧ value.version = .ok 0 ∧
        ¬ Known p name function := by
  induction functions generalizing p with
  | nil => simp [provideFunctions]
  | cons function functions ih =>
      obtain ⟨apart', distinct⟩ := List.nodup_cons.mp distinct
      obtain ⟨value, ver, found, version⟩ := integers function List.mem_cons_self
      obtain ⟨fails, only⟩ := provideLocal_fails identity name function ver p
      have later : ∀ other ∈ functions, ∃ value ver, provides.lookup other = some value ∧
          value.version = .ok ver := fun other member =>
        integers other (List.mem_cons_of_mem _ member)
      have head : ∀ value', provides.lookup function = some value' → value'.version = .ok 0 →
          ver = 0 := by
        intro value' found' version'
        rw [found] at found'
        cases found'
        rw [version] at version'
        cases version'
        rfl
      simp only [provideFunctions, found, version]
      cases provision : provideLocal identity name function ver p with
      | error fault =>
          rcases only fault provision with rfl | ⟨rfl, long⟩
          · obtain ⟨zero, unknown⟩ := fails.mp provision
            exact ⟨fun _ => ⟨[], function, functions, value, rfl, by simp [LocalDumpsFit], found,
              zero ▸ version, unknown⟩, fun _ => rfl⟩
          · constructor
            · intro failed
              cases failed
            · rintro ⟨before, other, after, value', split', fits, found', version', unknown⟩
              cases before with
              | nil =>
                  cases split'
                  rw [fails.mpr ⟨head value' found' version', unknown⟩] at provision
                  cases provision
              | cons first before =>
                  cases split'
                  exact absurd (fits _ List.mem_cons_self value ver found version) long
      | ok middle =>
          obtain ⟨iface, _, _, _, provided⟩ := provideLocal_ok registry provision
          obtain ⟨between, still⟩ := registry.provideLocal apart provision
          simp only []
          rw [ih between still distinct later]
          constructor
          · rintro ⟨before, other, after, value', rfl, fits, found', version', unknown⟩
            have aside : function ∉ before := fun member => apart' (List.mem_append_left _ member)
            refine ⟨function :: before, other, after, value', rfl, ?_, found', version',
              fun known => unknown ((provided.known registry _ _).mpr (Or.inl known))⟩
            intro first member
            rcases List.mem_cons.mp member with rfl | member
            · intro value'' ver'' found'' version''
              rw [found] at found''
              cases found''
              rw [version] at version''
              cases version''
              exact provideLocal_fits provision
            · exact (provideLocal_localDumpsFit registry provision aside _).mp fits first member
          · rintro ⟨before, other, after, value', split', fits, found', version', unknown⟩
            cases before with
            | nil =>
                cases split'
                rw [fails.mpr ⟨head value' found' version', unknown⟩] at provision
                cases provision
            | cons first before =>
                cases split'
                have aside : function ∉ before := fun member =>
                  apart' (List.mem_append_left _ member)
                refine ⟨before, other, after, value', rfl, ?_, found', version', fun known => ?_⟩
                · exact (provideLocal_localDumpsFit registry provision aside _).mpr
                    fun first member => fits first (List.mem_cons_of_mem _ member)
                · rcases (provided.known registry _ _).mp known with old | ⟨_, same⟩
                  · exact unknown old
                  · exact apart' (same ▸ by simp)

theorem introduceAnswered_fails {name answer : String} {pid : Int32} (registry : Registry p)
    (integers : IntegerProvides message) (commands : List Command) :
    introduceAnswered conf env message name pid answer { p with procman := commands } =
        .error .nullDeref ↔
      (conf.debug = true ∨ answer ≠ "no") ∧ (decimal pid.toInt).length < 10 ∧
        ∃ desc provides before function after value, messageGetDesc message = .ok desc ∧
          messageGetProvides message = .ok (some provides) ∧
          env.visit provides.keys = before ++ function :: after ∧
          LocalDumpsFit p message.identity name provides before ∧
          provides.lookup function = some value ∧ value.version = .ok 0 ∧
          ¬ Known p name function := by
  have described : messageGetDesc message ≠ .error .nullDeref := bodyString_noNull message "desc"
  have unpacked : messageGetProvides message ≠ .error .nullDeref := messageGetProvides_noNull message
  obtain ⟨before, apart⟩ := registry.introducing message commands
  have functions : ∀ provides, messageGetProvides message = .ok (some provides) →
      (provideFunctions ⟨p.brk, message.identity⟩ name provides (env.visit provides.keys)
          (p.introducing commands) = .error .nullDeref ↔
        ∃ before function after value, env.visit provides.keys = before ++ function :: after ∧
          LocalDumpsFit p message.identity name provides before ∧
          provides.lookup function = some value ∧ value.version = .ok 0 ∧
          ¬ Known p name function) := by
    intro provides provided
    have member : ∀ function, function ∈ env.visit provides.keys ↔ function ∈ provides :=
      fun function => ((env.visit_perm _).mem_iff).trans AList.mem_keys.symm
    have distinct : (env.visit provides.keys).Nodup :=
      (env.visit_perm _).nodup_iff.mpr provides.keys_nodup
    rw [provideFunctions_fails name before apart distinct]
    · rfl
    · intro function among
      obtain ⟨value, found⟩ := ZHash.lookup_of_mem ((member function).mp among)
      obtain ⟨ver, version⟩ := integers provides provided function value found
      exact ⟨value, ver, found, version⟩
  have unprinted : logAsFormat name ≠ .error .nullDeref := by
    intro failed
    rcases logAsFormat_fault failed with ⟨⟨⟩⟩ | ⟨⟨⟩⟩
  rw [introduceAnswered_error unprinted]
  constructor
  · rintro ⟨accepted, ⟨_, other⟩ | ⟨short, failed | ⟨desc, read, failed | ⟨provides, provided, failed⟩⟩⟩⟩
    · cases other
    · exact absurd failed described
    · exact absurd failed unpacked
    · obtain ⟨before, function, after, value, lacking⟩ := (functions provides provided).mp failed
      exact ⟨accepted, short, desc, provides, before, function, after, value, read, provided,
        lacking⟩
  · rintro ⟨accepted, short, desc, provides, before, function, after, value, read, provided,
      lacking⟩
    exact ⟨accepted, Or.inr ⟨short, Or.inr ⟨desc, read, Or.inr ⟨provides, provided,
      (functions provides provided).mpr ⟨before, function, after, value, lacking⟩⟩⟩⟩⟩

theorem processIntroduce_fails {answer : String} (registry : Registry p)
    (integers : IntegerProvides message) :
    processIntroduce conf env message answer p = .error .nullDeref ↔
      ¬ IntroduceSafe conf env message answer p := by
  unfold processIntroduce
  cases request : introduceRequest message with
  | error fault =>
      have other := (introduceRequest_noNull message).ne request
      have safe : IntroduceSafe conf env message answer p := by
        intro name pid desc provides before function after value asked
        rw [request] at asked
        cases asked
      simp [safe, other]
  | ok request? =>
      cases request? with
      | none =>
          have safe : IntroduceSafe conf env message answer p := by
            intro name pid desc provides before function after value asked
            rw [request] at asked
            cases asked
          simp [safe]
      | some asked =>
          obtain ⟨name, pid⟩ := asked
          simp only []
          rw [show zstrSend (.checkPid (decimal pid.toInt)) p =
            { p with procman := p.procman ++ [.checkPid (decimal pid.toInt)] } from rfl,
            introduceAnswered_fails registry integers]
          constructor
          · rintro ⟨accepted, short, desc, provides, before, function, after, value, described,
              provided, order, fits, found, version, unknown⟩ safe
            exact unknown (safe name pid desc provides before function after value request accepted
              short described provided order fits found version)
          · intro unsafe'
            simp only [IntroduceSafe, not_forall] at unsafe'
            obtain ⟨name', pid', desc, provides, before, function, after, value, asked, accepted,
              short, described, provided, order, fits, found, version, unknown⟩ := unsafe'
            rw [request] at asked
            cases asked
            exact ⟨accepted, short, desc, provides, before, function, after, value, described,
              provided, order, fits, found, version, unknown⟩

theorem provideTriples_fails {fab : Fabric} {triples : List (String × String × UInt64)}
    (registry : Registry p) :
    provideTriples fab triples p = .error .nullDeref ↔
      ∃ earlier mod func later, triples = earlier ++ (mod, func, 0) :: later ∧
        GlobalDumpsFit p fab.identity.text earlier ∧ ¬ Known p mod func ∧
          ∀ ver, (mod, func, ver) ∉ earlier := by
  induction triples generalizing p with
  | nil => simp [provideTriples]
  | cons triple triples ih =>
      obtain ⟨mod, func, ver⟩ := triple
      obtain ⟨fails, only⟩ := provideGlobal_fails fab mod func ver p
      simp only [provideTriples]
      cases provision : provideGlobal fab mod func ver p with
      | error fault =>
          rcases only fault provision with rfl | ⟨rfl, long⟩
          · obtain ⟨zero, unknown⟩ := fails.mp provision
            exact ⟨fun _ => ⟨[], mod, func, triples, by rw [zero, List.nil_append],
              by simp [GlobalDumpsFit], unknown, by simp⟩, fun _ => rfl⟩
          · constructor
            · intro failed
              cases failed
            · rintro ⟨earlier, name, function, later, split', fits, unknown, _⟩
              cases earlier with
              | nil =>
                  cases split'
                  rw [fails.mpr ⟨rfl, unknown⟩] at provision
                  cases provision
              | cons first earlier =>
                  cases split'
                  exact absurd (fits [] _ earlier rfl) long
      | ok middle =>
          obtain ⟨iface, _, _, _, provided⟩ := provideGlobal_ok registry provision
          simp only []
          rw [ih (registry.provideGlobal provision)]
          constructor
          · rintro ⟨earlier, name, function, later, rfl, fits, unknown, fresh⟩
            refine ⟨(mod, func, ver) :: earlier, name, function, later, rfl,
              (globalDumpsFit_cons registry provision).mpr fits,
              fun known => unknown ((provided.known registry _ _).mpr (Or.inl known)), ?_⟩
            intro version member
            rcases List.mem_cons.mp member with same | before
            · cases same
              exact unknown ((provided.known registry _ _).mpr (Or.inr ⟨rfl, rfl⟩))
            · exact fresh version before
          · rintro ⟨earlier, name, function, later, split', fits, unknown, fresh⟩
            cases earlier with
            | nil =>
                cases split'
                rw [fails.mpr ⟨rfl, unknown⟩] at provision
                cases provision
            | cons first earlier =>
                cases split'
                refine ⟨earlier, name, function, later, rfl,
                  (globalDumpsFit_cons registry provision).mp fits, fun known => ?_,
                  fun version before => fresh version (List.mem_cons_of_mem _ before)⟩
                rcases (provided.known registry _ _).mp known with old | ⟨rfl, rfl⟩
                · exact unknown old
                · exact fresh ver List.mem_cons_self

theorem processIfaceList_fails (registry : Registry p) :
    processIfaceList message p = .error .nullDeref ↔ ¬ ListSafe message p := by
  unfold processIfaceList
  cases read : messageGetIfaceList message with
  | error fault =>
      have other := (messageGetIfaceList_noNull message).ne read
      have safe : ListSafe message p := by
        intro paths brought
        rw [read] at brought
        cases brought
      simp [safe, other]
  | ok paths? =>
      cases paths? with
      | none =>
          have safe : ListSafe message p := by
            intro paths brought
            rw [read] at brought
            cases brought
          simp [safe]
      | some paths =>
          simp only []
          cases found : p.fabList.lookup message.identity with
          | none =>
              have absent : message.identity ∉ p.fabList := by
                rw [← AList.lookup_eq_none, found]
              simp only [true_iff]
              exact fun safe => absent (safe paths read).1
          | some fab =>
              have present := ZHash.mem_of_lookup found
              have name := registry.fabKey _ fab found
              simp only [providePaths_eq, provideTriples_fails registry, name]
              constructor
              · rintro ⟨earlier, mod, func, later, split', fits, unknown, fresh⟩ safe
                rcases (safe paths read).2 earlier mod func later split' fits with known | ⟨ver, before⟩
                · exact unknown known
                · exact fresh ver before
              · intro unsafe'
                by_contra none'
                refine unsafe' fun other brought => ?_
                rw [read] at brought
                cases brought
                refine ⟨present, fun earlier mod func later split' fits => ?_⟩
                by_contra neither
                rw [not_or, not_exists] at neither
                exact none' ⟨earlier, mod, func, later, split', fits, neither.1, neither.2⟩

theorem readCall_noNull (message : Message) : NoNull (readCall message) :=
  (bodyInt_noNull message "version").bind fun _ =>
    (bodyString_noNull message "module").bind fun _ =>
      (bodyString_noNull message "function").bind fun _ => noNull_ok _

theorem processCall_fails (unset : Unset p) (fresh : message.iface = none)
    (unrouted : message.routedVia = none) :
    processCall env message p = .error .nullDeref ↔ ¬ CallSafe message p := by
  unfold processCall
  cases read : readCall message with
  | error fault =>
      have other := (readCall_noNull message).ne read
      have safe : CallSafe message p := by
        intro call module function iface parsed
        rw [read] at parsed
        cases parsed
      simp [safe, other]
  | ok call =>
      have same := readCall_ok read
      simp only []
      by_cases shaped : call.wellFormedCall = true
      · rw [if_pos shaped]
        obtain ⟨fails, _⟩ := placeCall_fails env unset call
        have unsafe' : (receivedText call).length < 896 ∧
            placeCall env call p = .error .nullDeref ↔ ¬ CallSafe message p := by
          rw [fails]
          constructor
          · rintro ⟨short, _, iface, binds, unscannable⟩ safe
            rcases binds with assigned | ⟨_, module, function, named, called, found⟩
            · rw [same] at assigned
              simp [fresh] at assigned
            · exact unscannable
                (safe call module function iface read shaped short named called found)
          · intro broken
            simp only [CallSafe, not_forall] at broken
            obtain ⟨call', module, function, iface, parsed, _, short, named, called, found,
              unscannable⟩ := broken
            rw [read] at parsed
            cases parsed
            refine ⟨short, by rw [same]; exact unrouted, iface, Or.inr ⟨by rw [same]; exact fresh,
              module, function, named, called, found⟩, unscannable⟩
        rw [← unsafe']
        cases logged : logPrint (receivedText call) with
        | error fault =>
            obtain ⟨long, rfl⟩ := sprintfTo_fault.mp logged
            simp [long]
        | ok line =>
            have short := (sprintfTo_ok.mp logged).1
            simp only [short, true_and]
            split
            · rename_i fault failed
              rw [failed]
              simp
            · rename_i rc placed middle placement
              rw [placement]
              refine ⟨fun failed => ?_, fun failed => (by cases failed)⟩
              split at failed
              · split at failed <;> cases failed
              · split at failed
                · rename_i fault unlogged
                  obtain ⟨_, rfl⟩ := sprintfTo_fault.mp unlogged
                  cases failed
                · cases failed
      · rw [if_neg shaped]
        have safe : CallSafe message p := by
          intro call' module function iface parsed shaped'
          rw [read] at parsed
          cases parsed
          exact absurd shaped' shaped
        cases logged : logPrint (malformedText call) with
        | error fault =>
            obtain ⟨_, rfl⟩ := sprintfTo_fault.mp logged
            simp [safe]
        | ok => simp [safe]

theorem answerFabric_frame (env : Env) (stored : Message) (payload : Object) (p : Proxy) :
    (answerFabric env stored payload p).modules = p.modules ∧
      (answerFabric env stored payload p).queue = p.queue.erase stored.actionid := by
  unfold answerFabric
  split <;> simp

theorem processResult_fails (registry : Registry p) (unset : Unset p) :
    processResult env message p = .error .nullDeref ↔ ¬ ResultSafe message p := by
  unfold processResult ResultSafe
  cases queued : p.queue.lookup message.actionid with
  | none => exact processIfaceList_fails registry
  | some stored =>
      have key : stored.actionid = message.actionid := (registry.calls _ stored queued).actionid
      simp only []
      cases isLocal : message.isLocal with
      | false =>
          cases stored.isLocal with
          | true => simp
          | false =>
              have other : invalidState message stored p ≠ .error .nullDeref := by
                intro failed
                cases invalidState_fault failed
              simp [other]
      | true =>
          simp only [true_imp_iff]
          cases stored.isLocal with
          | true =>
              exact answered_fails env registry unset (answerCaller_calm stored _ p)
                (answerCaller_heap stored _ p) (by simp [answerCaller])
                (by simp [answerCaller, key]) _
          | false =>
              obtain ⟨modules, queue⟩ := answerFabric_frame env stored
                (messageTomsg message) p
              exact answered_fails env registry unset (answerFabric_calm stored _ p)
                (answerFabric_heap stored _ p) modules (key ▸ queue) _

theorem processException_fails (registry : Registry p) (unset : Unset p) :
    processException env message p = .error .nullDeref ↔ ¬ ExceptionSafe message p := by
  unfold processException ExceptionSafe
  cases queued : p.queue.lookup message.actionid with
  | none =>
      simp only []
      split
      · rename_i fault failed
        have other := (bodyString_noNull message "string").ne failed
        simp [other]
      · simp
  | some stored =>
      have key : stored.actionid = message.actionid := (registry.calls _ stored queued).actionid
      simp only []
      cases isLocal : message.isLocal with
      | true =>
          simp only [true_imp_iff, Bool.true_eq_false, false_imp_iff, and_true]
          cases stored.isLocal with
          | true =>
              simp only []
              by_cases registered : message.identity ∈ p.modules
              · rw [if_pos registered]
                exact answered_fails env registry unset (answerCaller_calm stored _ p)
                  (answerCaller_heap stored _ p) (by simp [answerCaller])
                  (by simp [answerCaller, key]) _
              · rw [if_neg registered]
                have safe : WalkSafe p message.identity message.actionid := fun mod found =>
                  absurd (ZHash.mem_of_lookup found) registered
                simp [safe]
          | false =>
              obtain ⟨modules, queue⟩ := answerFabric_frame env stored
                (messageTomsg message) p
              exact answered_fails env registry unset (answerFabric_calm stored _ p)
                (answerFabric_heap stored _ p) modules (key ▸ queue) _
      | false =>
          simp only [Bool.false_eq_true, false_imp_iff, true_and, true_imp_iff]
          cases stored.isLocal with
          | false =>
              have other : invalidState message stored p ≠ .error .nullDeref := by
                intro failed
                cases invalidState_fault failed
              simp [other]
          | true =>
              simp only [true_imp_iff]
              cases read : messageGetExceptionCode message with
              | error fault =>
                  have other := (messageGetExceptionCode_noNull message).ne read
                  simp [other]
              | ok code =>
                  simp only [Except.ok.injEq]
                  by_cases busy : code = modulesBusy
                  · rw [if_pos busy]
                    obtain ⟨fails, only⟩ := placeQueued_fails env registry unset
                      message.actionid
                    simp only [busy, true_imp_iff, not_not]
                    rw [← fails]
                    split
                    · rename_i fault failed
                      obtain rfl := only fault failed
                      exact ⟨fun _ => failed, fun _ => rfl⟩
                    · rename_i placed
                      rw [placed]
                      exact ⟨fun failed => (by cases failed), fun failed => (by cases failed)⟩
                  · rw [if_neg busy]
                    simp [busy]

theorem ifacePaths_noNull (heap : Heap) (ifaces : List Addr) :
    NoNull (ifacePaths heap ifaces) := by
  induction ifaces with
  | nil => exact noNull_ok []
  | cons iface ifaces ih =>
      rw [ifacePaths]
      split
      · split
        · exact ih.bind fun _ => noNull_ok _
        · intro failed
          cases failed
      · exact ih

theorem processRequest_noNull (env : Env) (message : Message) (p : Proxy) :
    NoNull (processRequest env message p) := by
  unfold processRequest
  split
  · rename_i fault failed
    intro same
    cases same
    exact bodyString_noNull message "command" failed
  · exact noNull_ok p
  · split
    · unfold processReqIfaceList
      split
      · exact noNull_ok p
      · split
        · rename_i fault failed
          intro same
          cases same
          exact ((ifacePaths_noNull p.heap p.ifaces.items).bind fun _ => noNull_ok _) failed
        · exact noNull_ok _
    · exact noNull_ok p

theorem processCommand_fails {answer : String} (registry : Registry p) (unset : Unset p)
    (fresh : message.iface = none) (unrouted : message.routedVia = none)
    (integers : IntegerProvides message) :
    processCommand conf env message answer p = .error .nullDeref ↔
      ¬ LookupsSafe conf env message answer p := by
  have parts : LookupsSafe conf env message answer p ↔
      (message.command = "introduce" → IntroduceSafe conf env message answer p) ∧
      (message.command = "call" → CallSafe message p) ∧
      (message.command = "result" → ResultSafe message p) ∧
      (message.command = "exception" → ExceptionSafe message p) :=
    ⟨fun safe => ⟨safe.introduce, safe.call, safe.result, safe.exception⟩,
      fun safe => ⟨safe.1, safe.2.1, safe.2.2.1, safe.2.2.2⟩⟩
  rw [parts]
  unfold processCommand
  by_cases isRequest : message.command = "request"
  · have safe : ¬ processRequest env message p = .error .nullDeref :=
      processRequest_noNull env message p
    rw [if_pos isRequest]
    simpa [isRequest] using safe
  rw [if_neg isRequest]
  by_cases isResult : message.command = "result"
  · rw [if_pos isResult, processResult_fails registry unset]
    simp [isResult]
  rw [if_neg isResult]
  by_cases isCall : message.command = "call"
  · rw [if_pos isCall, processCall_fails unset fresh unrouted]
    simp [isCall]
  rw [if_neg isCall]
  by_cases isException : message.command = "exception"
  · rw [if_pos isException, processException_fails registry unset]
    simp [isException]
  rw [if_neg isException]
  by_cases isIntroduce : message.command = "introduce"
  · rw [if_pos isIntroduce, processIntroduce_fails registry integers]
    simp [isIntroduce]
  rw [if_neg isIntroduce]
  have silent : NoNull (processMessage message p) := by
    unfold processMessage
    split
    · rename_i fault failed
      intro same
      cases same
      exact bodyString_noNull message "message" failed
    · exact noNull_ok p
  have safe : (message.command = "introduce" → IntroduceSafe conf env message answer p) ∧
      (message.command = "call" → CallSafe message p) ∧
      (message.command = "result" → ResultSafe message p) ∧
      (message.command = "exception" → ExceptionSafe message p) := by
    simp [isIntroduce, isCall, isResult, isException]
  refine ⟨fun failed => ?_, fun broken => absurd safe broken⟩
  split at failed
  · cases failed
  split at failed
  · cases failed
  split at failed
  · exact absurd failed silent
  split at failed <;> cases failed

theorem step_read (read : event.message env p = some message) :
    p.step conf env event = processCommand conf env message event.answer (p.arrived message) := by
  cases event with
  | localMsg zmsg answer =>
      have accepted : messageFromzmq zmsg true p.brk env.now = .ok (some message) :=
        toOption_join read
      obtain ⟨_, _, _, _, _, _, same⟩ := messageFromzmq_some accepted
      have arrived : p.arrived message = { p with brk := p.brk + 1 } := by
        simp [Proxy.arrived, same, messageNew]
      simp only [Proxy.step, sLocalEvent, accepted, arrived, Event.answer]
  | globalMsg zmsg answer =>
      have accepted : messageFromzmq zmsg false p.brk env.now = .ok (some message) :=
        toOption_join read
      obtain ⟨_, _, _, _, _, _, same⟩ := messageFromzmq_some accepted
      have arrived : p.arrived message =
          { p with brk := p.brk + 1 }.markAlive message.identity := by
        simp [Proxy.arrived, same, messageNew]
      simp only [Proxy.step, sGlobalEvent, accepted, arrived, Event.answer]
  | procman => cases read
  | queueItem => cases read
  | fabItem => cases read
  | beacon => cases read

/-- In every reachable state, the handler of an accepted message uses no failed
lookup exactly when what it is going to look up is there. -/
theorem no_failed_lookup {guard : Proxy → Env × Event → Prop}
    (reached : Reaches (fabric conf) guard p) (read : event.message env p = some message)
    (integers : IntegerProvides message) :
    p.step conf env event ≠ .error .nullDeref ↔
      LookupsSafe conf env message event.answer (p.arrived message) := by
  have arrives := Event.message_arrives read
  have unset : Unset (p.arrived message) := (unset_reaches reached).same (arrived_heap message p)
  rw [step_read read, Ne, processCommand_fails ((registry_reaches reached).arrived message) unset
    arrives.iface arrives.routedVia integers, not_not]

def offersOneFrames : List Frame :=
  [⟨bytesOf peerName, none⟩, ⟨[0x83], some (packIfaceList ["mod:f:1"] "ifaces")⟩]

def offersOneRead : Message :=
  messageNew 1 early.now false peerName (packIfaceList ["mod:f:1"] "ifaces") "result" "ifaces"

theorem offersOneFrames_read :
    (Event.globalMsg offersOneFrames "").message early (fabricAfter plainConf metPeer) =
      some offersOneRead := by
  rfl

theorem no_failed_lookup_listed :
    (fabricAfter plainConf metPeer).step plainConf early (.globalMsg offersOneFrames "") ≠
      .error .nullDeref := by
  have reached : Reaches (fabric plainConf) anything (fabricAfter plainConf metPeer) :=
    fabricAfter_reaches (fun _ _ _ => trivial) (by decide)
  have integers : IntegerProvides offersOneRead := by
    intro provides found
    cases found
  refine (no_failed_lookup reached offersOneFrames_read integers).mpr ⟨?_, ?_, ?_, ?_⟩
  · exact fun introduces => absurd introduces (by decide)
  · exact fun calls => absurd calls (by decide)
  · intro _ paths found
    cases found
    refine ⟨by decide, ?_⟩
    intro earlier mod func later offered _
    have triples : [cString "mod:f:1"].filterMap pathTriple = [("mod", "f", (1 : UInt64))] := by
      decide
    have zero : (mod, func, (0 : UInt64)) ∈ [("mod", "f", 1)] := by
      rw [← triples, offered]
      simp
    simp at zero
  · exact fun fails => absurd fails (by decide)

def versionZero : List Frame := introduceOf worker "mod" 77 [("f", 0)]

theorem failed_lookup :
    ¬ ∀ conf p env event message, Reaches (fabric conf) anything p →
      event.message env p = some message → IntegerProvides message →
      p.step conf env event ≠ .error .nullDeref := by
  intro always
  have read : (Event.localMsg versionZero "yes").message early proxyNew =
      some (messageNew 0 early.now true (strhex worker) (packed "introduce"
        (.map [(.raw "name", .raw "mod"), (.raw "pid", .positiveInteger 77),
          (.raw "provides", .map [(.raw "f", .positiveInteger 0)])]) "intro")
        "introduce" "intro") := by
    rfl
  refine always plainConf proxyNew early _ _ (.initial rfl) read ?_ rfl
  intro provides found function value listed
  cases found
  rw [ZHash.lookup_insertNew] at listed
  split at listed
  · cases listed
    exact ⟨0, rfl⟩
  · cases listed

end

end ModBus
