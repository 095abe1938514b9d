import ModBus.Dumps
import ModBus.Execute
import ModBus.Timeouts

/-! One sweep over the queue: which calls it takes off, and what their callers
are told. -/

namespace ModBus

open Libc Czmq Transition

inductive CallPhase
  | waiting
  | atFabric
  | atModule
  deriving DecidableEq, Repr

def Message.phase (call : Message) : Option CallPhase :=
  if call.routedVia = none then some .waiting
  else if call.processTimestamp ≠ 0 then some .atModule
  else if call.outTimestamp ≠ 0 then some .atFabric
  else none

def CallPhase.code : CallPhase → Int32
  | .waiting => modulesBusy
  | .atFabric => globalTimeout
  | .atModule => processTimeoutCode

def CallPhase.elapsed (conf : Config) (now : UInt64) (call : Message) : CallPhase → Prop
  | .waiting => Elapsed conf.inTimeout call.inTimestamp now
  | .atFabric => Elapsed conf.outTimeout call.outTimestamp now
  | .atModule => Elapsed conf.processTimeout call.processTimestamp now

def Expired (conf : Config) (now : UInt64) (call : Message) : Prop :=
  ∃ phase, call.phase = some phase ∧ phase.elapsed conf now call

def CameFrom (call : Message) (dest : Dest) : Prop :=
  if call.isLocal then ∃ frame, call.identity = strhex frame ∧ dest = .localFe (frame.map some)
  else dest = .peer call.identity

def TellsExpiry (p : Proxy) (key : String) (sent : Sent) : Prop :=
  ∃ call phase text, p.queue.lookup key = some call ∧ call.phase = some phase ∧
    sent.cause = .reply call ∧ CameFrom call sent.dest ∧ sent.ok = true ∧
    sent.payload = messageException call.actionid text phase.code

instance (timeout : Int32) (stamp now : UInt64) : Decidable (Elapsed timeout stamp now) :=
  inferInstanceAs (Decidable (_ < _))

instance (conf : Config) (now : UInt64) (call : Message) (phase : CallPhase) :
    Decidable (phase.elapsed conf now call) :=
  match phase with
  | .waiting => inferInstanceAs (Decidable (Elapsed _ _ _))
  | .atFabric => inferInstanceAs (Decidable (Elapsed _ _ _))
  | .atModule => inferInstanceAs (Decidable (Elapsed _ _ _))

instance (conf : Config) (now : UInt64) (call : Message) : Decidable (Expired conf now call) :=
  decidable_of_iff (call.phase.any fun phase => decide (phase.elapsed conf now call)) (by
    simp [Expired, Option.any_eq_true])

def expiredKeys (conf : Config) (now : UInt64) (p : Proxy) : List String :=
  p.queue.keys.filter fun key =>
    (p.queue.lookup key).any fun call => decide (Expired conf now call)

structure Swept (conf : Config) (now : UInt64) (p q : Proxy) : Prop where
  queue : ∀ key call, q.queue.lookup key = some call ↔
    p.queue.lookup key = some call ∧ ¬ Expired conf now call
  told : ∃ keys added, q.sent = p.sent ++ added ∧ keys.Nodup ∧
    (∀ key, key ∈ keys ↔ ∃ call, p.queue.lookup key = some call ∧ Expired conf now call) ∧
    List.Forall₂ (TellsExpiry p) keys added
  modules : conf.debug = true → q.modules = p.modules

def Fits (timeout : Int32) : Prop := 0 ≤ timeout.toInt ∧ 1000 * timeout.toInt < 2 ^ 31

structure Clocked (conf : Config) (now : UInt64) (p : Proxy) : Prop where
  inTimeout : Fits conf.inTimeout
  outTimeout : Fits conf.outTimeout
  processTimeout : Fits conf.processTimeout
  stamps : ∀ key call, p.queue.lookup key = some call →
    call.inTimestamp ≤ now ∧ call.outTimestamp ≤ now ∧ call.processTimestamp ≤ now

structure WellKept (p : Proxy) : Prop where
  moduleKey : ∀ key mod, p.modules.lookup key = some mod → mod.identity.text = key
  apart : ∀ key other mod twin, p.modules.lookup key = some mod →
    p.modules.lookup other = some twin → mod.identity.addr = twin.identity.addr → key = other
  nodup : p.ifaces.items.Nodup
  printable : p.Printable

structure Punctual (conf : Config) (now : UInt64) (call : Message) : Prop where
  others : ¬ Expired conf now call →
    ¬ (call.processTimestamp = 0 ∧ Elapsed conf.inTimeout call.inTimestamp now) ∧
    ¬ (call.outTimestamp ≠ 0 ∧ call.routedVia ≠ none ∧
      Elapsed conf.outTimeout call.outTimestamp now)
  waiting : Expired conf now call → call.routedVia = none → call.processTimestamp = 0

def Tellable (p : Proxy) (call : Message) : Prop :=
  if call.isLocal then ∃ frame : List UInt8, frame.length = 5 ∧ call.identity = strhex frame
  else 10 < call.identity.length ∧ call.identity ∈ p.fabList

structure RouteReadable (conf : Config) (p : Proxy) (call : Message) : Prop where
  alive : p.dangles call = false
  fits : ∀ via, call.routedVia = some via → (overdueText conf via).length < 896

def StuckAt (conf : Config) (now : UInt64) (p : Proxy) (call : Message) (mod : Module) : Prop :=
  conf.debug = false ∧ call.processTimestamp ≠ 0 ∧
    Elapsed conf.processTimeout call.processTimestamp now ∧
    ∃ via, call.routedVia = some via ∧ p.modules.lookup via = some mod

def LeavesRoute (conf : Config) (now : UInt64) (p : Proxy) (earlier later : String) : Prop :=
  ∀ first mod call, p.queue.lookup earlier = some first → StuckAt conf now p first mod →
    p.queue.lookup later = some call → Expired conf now call → call.routedVia ≠ none →
    call.viaModule ≠ some mod.identity.addr

/-- When one sweep does what it is for: each call is met by its own timeout only, the
routes that are printed can be read, and the callers can be told. -/
structure Sweepable (conf : Config) (env : Env) (p : Proxy) : Prop where
  punctual : ∀ key call, p.queue.lookup key = some call → Punctual conf env.now call
  readable : ∀ key call, p.queue.lookup key = some call → Expired conf env.now call →
    call.routedVia ≠ none → RouteReadable conf p call
  spares : (env.visit p.queue.keys).Pairwise (LeavesRoute conf env.now p)
  tellable : ∀ key call, p.queue.lookup key = some call → Expired conf env.now call →
    Tellable p call
  sends : ∀ n ∈ List.range' p.sent.length (expiredKeys conf env.now p).length,
    env.zmsgSend n = true

def expiry (conf : Config) (env : Env) (p : Proxy) (key : String) :
    Option (Cause × Dest × Object) := do
  let call ← p.queue.lookup key
  let msg ← timeoutException conf env call
  let dest ← p.route call.identity
  return (.reply call, dest, msg)

def TakenOff (conf : Config) (env : Env) (p : Proxy) (key : String) : Prop :=
  ∃ call msg, p.queue.lookup key = some call ∧ timeoutException conf env call = some msg

def Sent.content (sent : Sent) : Cause × Dest × Object := (sent.cause, sent.dest, sent.payload)

structure SweptOver (conf : Config) (env : Env) (keys : List String) (p q : Proxy) : Prop where
  fabList : q.fabList = p.fabList
  taken : ∀ key ∈ keys, TakenOff conf env p key → q.queue.lookup key = none
  kept : ∀ key, key ∉ keys ∨ ¬ TakenOff conf env p key → q.queue.lookup key = p.queue.lookup key
  sent : ∃ added, q.sent = p.sent ++ added ∧
    added.map Sent.content = keys.filterMap (expiry conf env p) ∧
    added.map Sent.ok = (List.range' p.sent.length added.length).map env.zmsgSend
  modules : conf.debug = true → q.modules = p.modules

section

variable {conf : Config} {env : Env} {p q r : Proxy} {key : String} {call : Message}

theorem route_fabList (same : q.fabList = p.fabList) (identity : String) :
    q.route identity = p.route identity := by
  unfold Proxy.route
  rw [same]

theorem sendMessage_content (env : Env) (cause : Cause) (payload : Object) (identity : String)
    (p : Proxy) :
    ∃ added, (sendMessage env cause payload identity p).2.sent = p.sent ++ added ∧
      added.map Sent.content =
        ((p.route identity).map fun dest => (cause, dest, payload)).toList ∧
      added.map Sent.ok = (List.range' p.sent.length added.length).map env.zmsgSend := by
  rcases sendMessage_cases env cause payload identity p with ⟨none', same⟩ | ⟨dest, some', same⟩
  · exact ⟨[], by simp [same], by simp [none'], rfl⟩
  · exact ⟨[⟨cause, dest, payload, env.zmsgSend p.sent.length⟩], by rw [same],
      by simp [some', Sent.content], rfl⟩

/-- What one callback does, with the module that it may find stuck. -/
theorem processQueueItem_sweeps (run : processQueueItem conf env key p = .ok q) :
    SweptOver conf env [key] p q := by
  rcases processQueueItem_ok run with ⟨same, fine⟩ | ⟨call, msg, queued, out, same⟩
  · rw [same]
    have silent : expiry conf env p key = none := by
      cases queued : p.queue.lookup key with
      | none => simp [expiry, queued]
      | some call => simp [expiry, queued, fine call queued]
    refine ⟨rfl, ?_, fun _ _ => rfl, ⟨[], by simp, by simp [silent], rfl⟩, fun _ => rfl⟩
    rintro other member ⟨call, msg, found, out⟩
    rw [List.mem_singleton.mp member] at found
    rw [fine call found] at out
    cases out
  · have goes : TakenOff conf env p key := ⟨call, msg, queued, out⟩
    obtain ⟨added, grown, content, oks⟩ :=
      sendMessage_content env (.reply call) msg call.identity (p.unstuck conf env call)
    rw [same]
    refine ⟨by simp, ?_, ?_, ⟨added, ?_, ?_, ?_⟩, fun debug => ?_⟩
    · intro other member _
      rw [List.mem_singleton.mp member, deleteCall_queue]
      exact AList.lookup_erase _ _
    · intro other apart
      have different : other ≠ key := by
        rintro rfl
        exact apart.elim (fun absent => absent (List.mem_singleton_self _))
          (fun stays => stays goes)
      rw [deleteCall_queue, sendMessage_queue, unstuck_queue]
      exact AList.lookup_erase_ne different
    · rw [deleteCall_sent, grown, unstuck_sent]
    · rw [content, route_fabList (unstuck_fabList conf env call p)]
      simp only [expiry, queued, out, List.filterMap_cons, List.filterMap_nil,
        Option.bind_eq_bind, Option.bind_some]
      cases p.route call.identity <;> rfl
    · rwa [unstuck_sent] at oks
    · have calm : stuckModule conf env call p = none := by
        cases stuck : stuckModule conf env call p with
        | none => rfl
        | some mod =>
            rw [(stuckModule_some stuck).1] at debug
            cases debug
      rw [deleteCall_modules, sendMessage_modules, unstuck_none calm]

theorem SweptOver.elsewhere (swept : SweptOver conf env [key] p q) {other : String}
    (apart : other ≠ key) : expiry conf env q other = expiry conf env p other ∧
      (TakenOff conf env q other ↔ TakenOff conf env p other) := by
  have same := swept.kept other (.inl fun member => apart (List.mem_singleton.mp member))
  simp only [expiry, TakenOff, same, route_fabList swept.fabList, true_and]

theorem SweptOver.cons {keys : List String} (first : SweptOver conf env [key] p q)
    (rest : SweptOver conf env keys q r) (fresh : key ∉ keys) :
    SweptOver conf env (key :: keys) p r := by
  have apart : ∀ other ∈ keys, other ≠ key := fun other member same => fresh (same ▸ member)
  refine ⟨rest.fabList.trans first.fabList, ?_, ?_, ?_, ?_⟩
  · intro other member goes
    by_cases here : other = key
    · subst here
      rw [rest.kept other (.inl fresh)]
      exact first.taken other (List.mem_singleton_self _) goes
    · have later := (List.mem_cons.mp member).resolve_left here
      exact rest.taken other later ((first.elsewhere here).2.mpr goes)
  · intro other stays
    by_cases here : other = key
    · subst here
      have still := stays.resolve_left fun absent => absent List.mem_cons_self
      rw [rest.kept other (.inl fresh), first.kept other (.inr still)]
    · rw [rest.kept other ?_, first.kept other (.inl (by simp [here]))]
      exact stays.imp (fun absent later => absent (List.mem_cons_of_mem _ later))
        fun still goes => still ((first.elsewhere here).2.mp goes)
  · obtain ⟨early, earlySent, earlyContent, earlyOks⟩ := first.sent
    obtain ⟨late, lateSent, lateContent, lateOks⟩ := rest.sent
    refine ⟨early ++ late, by rw [lateSent, earlySent, List.append_assoc], ?_, ?_⟩
    · have same : keys.filterMap (expiry conf env q) = keys.filterMap (expiry conf env p) :=
        List.filterMap_congr fun other member => (first.elsewhere (apart other member)).1
      rw [List.map_append, earlyContent, lateContent, same, ← List.filterMap_append,
        List.singleton_append]
    · rw [List.map_append, earlyOks, lateOks, earlySent, List.length_append, List.length_append,
        ← List.map_append, List.range'_append_1]
  · exact fun debug => (rest.modules debug).trans (first.modules debug)

theorem walk_cons {keys : List String} :
    ZHash.foreach (fun key p => (processQueueItem conf env key p).map fun p => (0, p))
        (key :: keys) p = .ok q ↔
      ∃ middle, processQueueItem conf env key p = .ok middle ∧
        ZHash.foreach (fun key p => (processQueueItem conf env key p).map fun p => (0, p))
          keys middle = .ok q := by
  simp only [ZHash.foreach]
  cases processQueueItem conf env key p with
  | error fault => simp [Except.map]
  | ok middle => simp [Except.map]

theorem walk_sweeps {keys : List String} (once : keys.Nodup)
    (walk : ZHash.foreach (fun key p => (processQueueItem conf env key p).map fun p => (0, p))
      keys p = .ok q) : SweptOver conf env keys p q := by
  induction keys generalizing p with
  | nil =>
      cases walk
      refine ⟨rfl, ?_, fun _ _ => rfl, ⟨[], by simp, rfl, rfl⟩, fun _ => rfl⟩
      intro key member
      cases member
  | cons key keys ih =>
      obtain ⟨fresh, rest⟩ := List.nodup_cons.mp once
      obtain ⟨middle, run, walk⟩ := walk_cons.mp walk
      exact (processQueueItem_sweeps run).cons (ih rest walk) fresh

theorem visit_nodup (env : Env) (p : Proxy) : (env.visit p.queue.keys).Nodup :=
  (env.visit_perm _).nodup_iff.mpr p.queue.nodupKeys

theorem processQueue_sweeps (run : processQueue conf env p = .ok q) :
    SweptOver conf env (env.visit p.queue.keys) p q :=
  walk_sweeps (visit_nodup env p) run

/-! When the walk ends: every route that it reads is still there. -/

theorem wellKept_reaches {guard : Proxy → Env × Event → Prop}
    (reached : Reaches (fabric conf) guard p) : WellKept p := by
  have registry := registry_reaches reached
  refine ⟨registry.moduleKey, ?_, registry.nodup, printable_reaches reached⟩
  intro key other mod twin found same addr
  have text := registry.pointers _ _ (.inr ⟨key, mod, found, rfl⟩) (.inr ⟨other, twin, same, rfl⟩)
    addr
  rw [← registry.moduleKey key mod found, ← registry.moduleKey other twin same, text]

def ReadsRoute (conf : Config) (env : Env) (call : Message) : Prop :=
  call.routedVia ≠ none ∧ (outTimedOut conf env call = true ∨ processTimedOut conf env call = true)

theorem logged_iff (text : String) :
    (logPrint text).map (fun _ => ()) = .ok () ↔ text.length < 896 := by
  unfold logPrint sprintfTo
  split <;> simp_all [Except.map]

theorem readRoute_ok : readRoute conf env call p = .ok () ↔
    (ReadsRoute conf env call → RouteReadable conf p call) := by
  unfold readRoute
  cases routed : call.routedVia with
  | none => simp [ReadsRoute, routed]
  | some via =>
      have late : (outTimedOut conf env call || processTimedOut conf env call) = true ↔
          ReadsRoute conf env call := by
        simp [ReadsRoute, routed]
      have readable : RouteReadable conf p call ↔
          p.dangles call = false ∧ (overdueText conf via).length < 896 :=
        ⟨fun route => ⟨route.alive, route.fits via routed⟩, fun route => ⟨route.1, fun other same =>
          Option.some.inj (routed.symm.trans same) ▸ route.2⟩⟩
      have logged := logged_iff (overdueText conf via)
      rw [readable]
      by_cases reads : ReadsRoute conf env call
      · simp only [if_pos (late.mpr reads), reads, true_imp_iff]
        cases p.dangles call with
        | true => simp
        | false => simpa using logged
      · simp only [if_neg (mt late.mp reads), reads, false_imp_iff]

theorem timeoutException_none : timeoutException conf env call = none ↔
    inTimedOut conf env call = false ∧ outTimedOut conf env call = false ∧
      processTimedOut conf env call = false := by
  unfold timeoutException
  cases inTimedOut conf env call <;> cases outTimedOut conf env call <;>
    cases processTimedOut conf env call <;> simp

/-- No module is found stuck, and no route read, without a timeout. -/
theorem ReadsRoute.out (reads : ReadsRoute conf env call) :
    timeoutException conf env call ≠ none := by
  intro fine
  obtain ⟨_, notOut, notProcess⟩ := timeoutException_none.mp fine
  rcases reads.2 with out | out
  · exact absurd out (by simp [notOut])
  · exact absurd out (by simp [notProcess])

theorem stuckModule_iff {mod : Module} : stuckModule conf env call p = some mod ↔
    (processTimedOut conf env call = true ∧ conf.debug = false) ∧
      ∃ via, call.routedVia = some via ∧ p.modules.lookup via = some mod := by
  rw [← Option.bind_eq_some_iff, ← Bool.not_eq_true', ← Bool.and_eq_true]
  unfold stuckModule
  split
  · rename_i late
    simp [late]
  · rename_i early
    simp [early]

theorem stuckModule_fine (fine : timeoutException conf env call = none) :
    stuckModule conf env call p = none := by
  simp [stuckModule, (timeoutException_none.mp fine).2.2]

theorem processQueueItem_total (kept : WellKept p) :
    (∃ q, processQueueItem conf env key p = .ok q) ↔
      ∀ call, p.queue.lookup key = some call → ReadsRoute conf env call →
        RouteReadable conf p call := by
  unfold processQueueItem
  cases queued : p.queue.lookup key with
  | none => simp
  | some call =>
      have same : (∀ other, some call = some other → ReadsRoute conf env other →
          RouteReadable conf p other) ↔ (ReadsRoute conf env call → RouteReadable conf p call) :=
        ⟨fun all => all call rfl, fun own other same => Option.some.inj same ▸ own⟩
      rw [same, ← readRoute_ok]
      cases out : timeoutException conf env call with
      | none =>
          have silent : readRoute conf env call p = .ok () :=
            readRoute_ok.mpr fun reads => absurd out reads.out
          simp [out, silent]
      | some msg =>
          have cleared : (stuckModule conf env call p).elim (.ok p) (restartStuck · p) =
              .ok (p.unstuck conf env call) := by
            cases stuck : stuckModule conf env call p with
            | none => simp [unstuck_none stuck]
            | some mod =>
                rw [unstuck_some stuck, Option.elim_some]
                show (zstrSend (.restart mod.sPid) p).removeModule mod = _
                have nodup : (zstrSend (.restart mod.sPid) p).ifaces.items.Nodup := kept.nodup
                exact removeModule_total nodup kept.printable mod
          cases read : readRoute conf env call p with
          | error fault => simp [out, read]
          | ok done => simp [out, read, cleared]

theorem dangles_iff : p.dangles call = false ↔ ∀ addr, call.viaModule = some addr →
    ∃ key mod, p.modules.lookup key = some mod ∧ mod.identity.addr = addr := by
  unfold Proxy.dangles
  cases via : call.viaModule with
  | none => simp
  | some addr =>
      simp only [Option.any_some, Bool.not_eq_false', List.any_eq_true, Option.any_eq_true,
        decide_eq_true_eq, Option.some.injEq, forall_eq']
      exact ⟨fun ⟨key, _, mod, found⟩ => ⟨key, mod, found⟩, fun ⟨key, mod, found, same⟩ =>
        ⟨key, AList.mem_keys.mp (ZHash.mem_of_lookup found), mod, found, same⟩⟩

theorem dangles_congr (call : Message) (same : q.modules = p.modules) :
    q.dangles call = p.dangles call := by
  unfold Proxy.dangles
  rw [same]

theorem WellKept.stuck_key (kept : WellKept p) {mod : Module}
    (stuck : stuckModule conf env call p = some mod) :
    p.modules.lookup mod.identity.text = some mod := by
  obtain ⟨_, via, _, found⟩ := stuckModule_some stuck
  rwa [kept.moduleKey via mod found]

theorem unstuck_modules {twin : Module} :
    (p.unstuck conf env call).modules.lookup key = some twin ↔
      (∀ mod, stuckModule conf env call p = some mod → key ≠ mod.identity.text) ∧
        p.modules.lookup key = some twin := by
  cases stuck : stuckModule conf env call p with
  | none => simp [unstuck_none stuck]
  | some mod =>
      rw [unstuck_some stuck]
      refine ZHash.lookup_erase_some.trans (and_congr_left fun _ => ?_)
      simp

theorem WellKept.unstuck (kept : WellKept p) (conf : Config) (env : Env) (call : Message) :
    WellKept (p.unstuck conf env call) := by
  refine ⟨fun key mod found => kept.moduleKey key mod (unstuck_modules.mp found).2, ?_, ?_, ?_⟩
  · intro key other mod twin found same
    exact kept.apart key other mod twin (unstuck_modules.mp found).2 (unstuck_modules.mp same).2
  · cases stuck : stuckModule conf env call p with
    | none => rw [unstuck_none stuck]; exact kept.nodup
    | some mod =>
        have items := ifaceRemove_items p.ifaces mod.identity p.heap kept.nodup
        rw [unstuck_some stuck]
        show (ifaceRemove p.ifaces mod.identity p.heap).1.items.Nodup
        rw [items]
        exact kept.nodup.filter _
  · cases stuck : stuckModule conf env call p with
    | none => rw [unstuck_none stuck]; exact kept.printable
    | some mod =>
        rw [unstuck_some stuck]
        show (p.unlist mod.identity).printed.Printable
        exact printed_printable.mpr (unlist_printable kept.nodup kept.printable mod.identity)

/-- A removed module takes the routes into it with it, and no others. -/
theorem WellKept.dangles_unstuck (kept : WellKept p) {first : Message} :
    (p.unstuck conf env first).dangles call = false ↔ p.dangles call = false ∧
      ∀ mod, stuckModule conf env first p = some mod →
        call.viaModule ≠ some mod.identity.addr := by
  rw [dangles_iff, dangles_iff]
  constructor
  · intro leads
    refine ⟨fun addr via => ?_, fun mod stuck via => ?_⟩
    · obtain ⟨key, mod, found, same⟩ := leads addr via
      exact ⟨key, mod, (unstuck_modules.mp found).2, same⟩
    · obtain ⟨key, twin, found, same⟩ := leads mod.identity.addr via
      obtain ⟨other, found⟩ := unstuck_modules.mp found
      exact other mod stuck (kept.apart _ _ _ _ found (kept.stuck_key stuck) same)
  · rintro ⟨leads, spared⟩ addr via
    obtain ⟨key, mod, found, same⟩ := leads addr via
    refine ⟨key, mod, unstuck_modules.mpr ⟨fun stuckMod stuck here => ?_, found⟩, same⟩
    have known := kept.stuck_key stuck
    rw [← here, found, Option.some.injEq] at known
    exact spared stuckMod stuck (by rw [via, ← same, known])

theorem processQueueItem_keeps (run : processQueueItem conf env key p = .ok q)
    (queued : p.queue.lookup key = some call) :
    q.modules = (p.unstuck conf env call).modules ∧ q.ifaces = (p.unstuck conf env call).ifaces ∧
      q.heap = (p.unstuck conf env call).heap := by
  rcases processQueueItem_ok run with ⟨rfl, fine⟩ | ⟨other, msg, found, _, rfl⟩
  · rw [unstuck_none (stuckModule_fine (fine call queued))]
    exact ⟨rfl, rfl, rfl⟩
  · rw [queued, Option.some.injEq] at found
    rw [found]
    simp

theorem WellKept.item_modules (kept : WellKept p) (run : processQueueItem conf env key p = .ok q)
    {other : String} {mod : Module} : q.modules.lookup other = some mod ↔
      p.modules.lookup other = some mod ∧ ∀ first, p.queue.lookup key = some first →
        stuckModule conf env first p ≠ some mod := by
  cases queued : p.queue.lookup key with
  | none =>
      rcases processQueueItem_ok run with ⟨rfl, _⟩ | ⟨first, _, found, _⟩
      · simp
      · rw [queued] at found
        cases found
  | some first =>
      rw [(processQueueItem_keeps run queued).1, unstuck_modules, and_comm]
      refine and_congr_right fun found => ⟨?_, ?_⟩
      · rintro others _ ⟨⟩ stuck
        exact others mod stuck (kept.moduleKey other mod found).symm
      · rintro others twin stuck rfl
        have known := kept.stuck_key stuck
        rw [found, Option.some.injEq] at known
        exact others first rfl (known ▸ stuck)

theorem WellKept.item (kept : WellKept p) (run : processQueueItem conf env key p = .ok q) :
    WellKept q := by
  cases queued : p.queue.lookup key with
  | none =>
      rcases processQueueItem_ok run with ⟨rfl, _⟩ | ⟨other, _, found, _⟩
      · exact kept
      · rw [queued] at found
        cases found
  | some call =>
      obtain ⟨modules, ifaces, heap⟩ := processQueueItem_keeps run queued
      have cleared := kept.unstuck conf env call
      refine ⟨?_, ?_, ?_, ?_⟩
      · rw [modules]
        exact cleared.moduleKey
      · rw [modules]
        exact cleared.apart
      · rw [ifaces]
        exact cleared.nodup
      · unfold Proxy.Printable
        rw [ifaces, heap]
        exact cleared.printable

def SparesRoute (conf : Config) (env : Env) (p : Proxy) (earlier later : String) : Prop :=
  ∀ first mod call, p.queue.lookup earlier = some first → stuckModule conf env first p = some mod →
    p.queue.lookup later = some call → ReadsRoute conf env call →
    call.viaModule ≠ some mod.identity.addr

structure Walkable (conf : Config) (env : Env) (keys : List String) (p : Proxy) : Prop where
  readable : ∀ key ∈ keys, ∀ call, p.queue.lookup key = some call → ReadsRoute conf env call →
    RouteReadable conf p call
  spares : keys.Pairwise (SparesRoute conf env p)

/-- A route that is intact after one callback was so before, and does not lead into the
module that the callback removed. -/
theorem processQueueItem_dangles (kept : WellKept p) (run : processQueueItem conf env key p = .ok q)
    (call : Message) :
    q.dangles call = false ↔ p.dangles call = false ∧
      ∀ first mod, p.queue.lookup key = some first → stuckModule conf env first p = some mod →
        call.viaModule ≠ some mod.identity.addr := by
  cases here : p.queue.lookup key with
  | none =>
      rcases processQueueItem_ok run with ⟨rfl, _⟩ | ⟨first, _, found, _⟩
      · simp
      · rw [here] at found
        cases found
  | some first =>
      have leads := dangles_congr call (processQueueItem_keeps run here).1
      rw [leads, kept.dangles_unstuck]
      exact and_congr_right fun _ => ⟨fun spared other mod found => Option.some.inj found ▸
        spared mod, fun spared mod => spared first mod rfl⟩

theorem Walkable.cons {keys : List String} (kept : WellKept p) (fresh : key ∉ keys)
    (run : processQueueItem conf env key p = .ok q) :
    Walkable conf env (key :: keys) p ↔ Walkable conf env keys q := by
  have swept := processQueueItem_sweeps run
  have same : ∀ other ∈ keys, q.queue.lookup other = p.queue.lookup other := fun other member =>
    swept.kept other (.inl fun here => fresh (List.mem_singleton.mp here ▸ member))
  have smaller : ∀ call mod, stuckModule conf env call q = some mod →
      stuckModule conf env call p = some mod := by
    intro call mod stuck
    obtain ⟨late, via, routed, found⟩ := stuckModule_iff.mp stuck
    exact stuckModule_iff.mpr ⟨late, via, routed, ((kept.item_modules run).mp found).1⟩
  constructor
  · rintro ⟨readable, spares⟩
    obtain ⟨first, rest⟩ := List.pairwise_cons.mp spares
    refine ⟨fun other member call queued reads => ?_, rest.imp_of_mem ?_⟩
    · rw [same other member] at queued
      have route := readable other (List.mem_cons_of_mem _ member) call queued reads
      exact ⟨(processQueueItem_dangles kept run call).mpr ⟨route.alive, fun head mod found stuck =>
        first other member head mod call found stuck queued reads⟩, route.fits⟩
    · intro one other member later spared head mod call found stuck queued reads
      rw [same one member] at found
      rw [same other later] at queued
      exact spared head mod call found (smaller head mod stuck) queued reads
  · rintro ⟨readable, spares⟩
    have leads : ∀ other ∈ keys, ∀ call, p.queue.lookup other = some call →
        ReadsRoute conf env call → RouteReadable conf p call ∧ ∀ first mod,
          p.queue.lookup key = some first → stuckModule conf env first p = some mod →
            call.viaModule ≠ some mod.identity.addr := by
      intro other member call queued reads
      have route := readable other member call (same other member ▸ queued) reads
      obtain ⟨alive, spared⟩ := (processQueueItem_dangles kept run call).mp route.alive
      exact ⟨⟨alive, route.fits⟩, spared⟩
    refine ⟨?_, List.pairwise_cons.mpr ⟨?_, spares.imp_of_mem ?_⟩⟩
    · rintro other member call queued reads
      rcases List.mem_cons.mp member with rfl | later
      · exact (processQueueItem_total kept).mp ⟨q, run⟩ call queued reads
      · exact (leads other later call queued reads).1
    · intro other member first mod call found stuck queued reads
      exact (leads other member call queued reads).2 first mod found stuck
    · intro one other member later spared head mod call found stuck queued reads
      obtain ⟨late, via, routed, known⟩ := stuckModule_iff.mp stuck
      by_cases gone : ∃ first, p.queue.lookup key = some first ∧
          stuckModule conf env first p = some mod
      · obtain ⟨first, here, removed⟩ := gone
        exact (leads other later call queued reads).2 first mod here removed
      · have still := (kept.item_modules run).mpr ⟨known, fun first here removed =>
          gone ⟨first, here, removed⟩⟩
        exact spared head mod call (same one member ▸ found)
          (stuckModule_iff.mpr ⟨late, via, routed, still⟩) (same other later ▸ queued) reads

theorem walk_total {keys : List String} (once : keys.Nodup) (kept : WellKept p) :
    (∃ q, ZHash.foreach (fun key p => (processQueueItem conf env key p).map fun p => (0, p))
      keys p = .ok q) ↔ Walkable conf env keys p := by
  induction keys generalizing p with
  | nil => exact ⟨fun _ => ⟨fun _ member => (List.not_mem_nil member).elim, .nil⟩, fun _ => ⟨p, rfl⟩⟩
  | cons key keys ih =>
      obtain ⟨fresh, rest⟩ := List.nodup_cons.mp once
      constructor
      · rintro ⟨q, walk⟩
        obtain ⟨middle, run, walk⟩ := walk_cons.mp walk
        exact (Walkable.cons kept fresh run).mpr ((ih rest (kept.item run)).mp ⟨q, walk⟩)
      · intro walkable
        obtain ⟨middle, run⟩ := (processQueueItem_total kept).mpr
          (walkable.readable key List.mem_cons_self)
        obtain ⟨q, walk⟩ := (ih rest (kept.item run)).mpr
          ((Walkable.cons kept fresh run).mp walkable)
        exact ⟨q, walk_cons.mpr ⟨middle, run, walk⟩⟩

/-! The three tests, over the integers. -/

structure Tests (conf : Config) (env : Env) (call : Message) : Prop where
  waiting : inTimedOut conf env call = true ↔
    call.processTimestamp = 0 ∧ Elapsed conf.inTimeout call.inTimestamp env.now
  atFabric : outTimedOut conf env call = true ↔ call.outTimestamp ≠ 0 ∧ call.routedVia ≠ none ∧
    Elapsed conf.outTimeout call.outTimestamp env.now
  atModule : processTimedOut conf env call = true ↔ call.processTimestamp ≠ 0 ∧
    call.routedVia ≠ none ∧ Elapsed conf.processTimeout call.processTimestamp env.now

theorem fits_compared {timeout : Int32} {stamp now : UInt64} (fits : Fits timeout)
    (forward : stamp ≤ now) : limit timeout < now - stamp ↔ Elapsed timeout stamp now :=
  (compared_iff timeout stamp now fits.1).mpr (.fits forward fits.2)

theorem Clocked.tests (clocked : Clocked conf env.now p)
    (queued : p.queue.lookup key = some call) : Tests conf env call := by
  obtain ⟨inStamp, outStamp, processStamp⟩ := clocked.stamps key call queued
  refine ⟨?_, ?_, ?_⟩
  · simp only [inTimedOut, getInTimeDelta, Bool.and_eq_true, decide_eq_true_eq,
      fits_compared clocked.inTimeout inStamp]
    exact and_comm
  · simp only [outTimedOut, getOutTimeDelta, Bool.and_eq_true, decide_eq_true_eq,
      Option.isSome_iff_ne_none, fits_compared clocked.outTimeout outStamp, and_assoc]
    exact and_congr_right fun _ => and_comm
  · simp only [processTimedOut, getProcessTimeDelta, Bool.and_eq_true, decide_eq_true_eq,
      Option.isSome_iff_ne_none, fits_compared clocked.processTimeout processStamp, and_assoc]
    exact and_congr_right fun _ => and_comm

theorem Tests.exception (tests : Tests conf env call) (expired : Expired conf env.now call)
    (waiting : call.routedVia = none → call.processTimestamp = 0) :
    ∃ phase text, call.phase = some phase ∧
      timeoutException conf env call = some (messageException call.actionid text phase.code) := by
  obtain ⟨phase, current, elapsed⟩ := expired
  refine ⟨phase, ?_⟩
  unfold Message.phase at current
  split at current
  · rename_i unrouted
    cases current
    have fires := tests.waiting.mpr ⟨waiting unrouted, elapsed⟩
    have notOut : ¬ outTimedOut conf env call = true := fun out =>
      (tests.atFabric.mp out).2.1 unrouted
    have notProcess : ¬ processTimedOut conf env call = true := fun out =>
      (tests.atModule.mp out).2.1 unrouted
    refine ⟨"All modules are busy", by simp [Message.phase, unrouted], ?_⟩
    rw [timeoutException, if_neg notProcess, if_neg notOut, if_pos fires]
    rfl
  · rename_i routed
    split at current
    · rename_i given
      cases current
      have fires := tests.atModule.mpr ⟨given, routed, elapsed⟩
      refine ⟨"Process timeout", by simp [Message.phase, routed, given], ?_⟩
      rw [timeoutException, if_pos fires]
      rfl
    · rename_i notGiven
      split at current
      · rename_i forwarded
        cases current
        have fires := tests.atFabric.mpr ⟨forwarded, routed, elapsed⟩
        have notProcess : ¬ processTimedOut conf env call = true := fun out =>
          notGiven (tests.atModule.mp out).1
        refine ⟨"Global fabric not answered in time",
          by simp [Message.phase, routed, forwarded, not_not.mp notGiven], ?_⟩
        rw [timeoutException, if_neg notProcess, if_pos fires]
        rfl
      · cases current

theorem Tests.quiet (tests : Tests conf env call) (punctual : Punctual conf env.now call)
    (going : ¬ Expired conf env.now call) : timeoutException conf env call = none := by
  obtain ⟨notIn, notOut⟩ := punctual.others going
  rw [timeoutException_none, ← Bool.not_eq_true, ← Bool.not_eq_true, ← Bool.not_eq_true]
  refine ⟨fun out => notIn (tests.waiting.mp out), fun out => notOut (tests.atFabric.mp out), ?_⟩
  intro out
  obtain ⟨given, routed, elapsed⟩ := tests.atModule.mp out
  exact going ⟨.atModule, by simp [Message.phase, routed, given], elapsed⟩

theorem Tests.punctual (tests : Tests conf env call)
    (agrees : timeoutException conf env call ≠ none ↔ Expired conf env.now call) :
    Punctual conf env.now call := by
  refine ⟨fun going => ?_, fun expired unrouted => ?_⟩
  · have fine := timeoutException_none.mp (not_not.mp fun out => going (agrees.mp out))
    refine ⟨fun elapsed => ?_, fun elapsed => ?_⟩
    · exact absurd (tests.waiting.mpr elapsed) (by simp [fine.1])
    · exact absurd (tests.atFabric.mpr elapsed) (by simp [fine.2.1])
  · by_contra given
    refine agrees.mpr expired (timeoutException_none.mpr ?_)
    rw [← Bool.not_eq_true, ← Bool.not_eq_true, ← Bool.not_eq_true]
    exact ⟨fun out => given (tests.waiting.mp out).1,
      fun out => (tests.atFabric.mp out).2.1 unrouted,
      fun out => (tests.atModule.mp out).2.1 unrouted⟩

theorem Tests.readsRoute (tests : Tests conf env call) (punctual : Punctual conf env.now call) :
    ReadsRoute conf env call ↔ Expired conf env.now call ∧ call.routedVia ≠ none := by
  constructor
  · intro reads
    refine ⟨?_, reads.1⟩
    by_contra going
    exact reads.out (tests.quiet punctual going)
  · rintro ⟨⟨phase, current, elapsed⟩, routed⟩
    refine ⟨routed, ?_⟩
    unfold Message.phase at current
    rw [if_neg routed] at current
    split at current
    · rename_i given
      cases current
      exact .inr (tests.atModule.mpr ⟨given, routed, elapsed⟩)
    · split at current
      · rename_i forwarded
        cases current
        exact .inl (tests.atFabric.mpr ⟨forwarded, routed, elapsed⟩)
      · cases current

theorem Tests.stuckAt (tests : Tests conf env call) {mod : Module} :
    stuckModule conf env call p = some mod ↔ StuckAt conf env.now p call mod := by
  rw [stuckModule_iff, tests.atModule]
  constructor
  · rintro ⟨⟨⟨given, _, elapsed⟩, debug⟩, found⟩
    exact ⟨debug, given, elapsed, found⟩
  · rintro ⟨debug, given, elapsed, via, routed, found⟩
    exact ⟨⟨⟨given, by simp [routed], elapsed⟩, debug⟩, via, routed, found⟩

theorem tellable_iff :
    Tellable p call ↔ ∃ dest, p.route call.identity = some dest ∧ CameFrom call dest := by
  unfold Tellable CameFrom
  cases call.isLocal with
  | true =>
      simp only [if_true]
      constructor
      · rintro ⟨frame, five, same⟩
        exact ⟨_, same ▸ route_strhex.mpr five, frame, same, rfl⟩
      · rintro ⟨_, routed, frame, same, rfl⟩
        exact ⟨frame, route_strhex.mp (same ▸ routed), same⟩
  | false =>
      simp only [Bool.false_eq_true, if_false]
      rw [← route_peer]
      exact ⟨fun routed => ⟨_, routed, rfl⟩, fun ⟨_, routed, same⟩ => same ▸ routed⟩

theorem takenOff_iff (queued : p.queue.lookup key = some call) :
    TakenOff conf env p key ↔ timeoutException conf env call ≠ none := by
  constructor
  · rintro ⟨late, msg, found, out⟩
    rw [queued, Option.some.injEq] at found
    rw [found, out]
    simp
  · intro out
    obtain ⟨msg, same⟩ := Option.ne_none_iff_exists'.mp out
    exact ⟨call, msg, queued, same⟩

theorem expiry_isSome : (expiry conf env p key).isSome = true ↔ ∃ call msg dest,
    p.queue.lookup key = some call ∧ timeoutException conf env call = some msg ∧
      p.route call.identity = some dest := by
  rw [Option.isSome_iff_exists]
  constructor
  · rintro ⟨_, sends⟩
    obtain ⟨call, queued, sends⟩ := Option.bind_eq_some_iff.mp sends
    obtain ⟨msg, out, sends⟩ := Option.bind_eq_some_iff.mp sends
    obtain ⟨dest, route, _⟩ := Option.bind_eq_some_iff.mp sends
    exact ⟨call, msg, dest, queued, out, route⟩
  · rintro ⟨call, msg, dest, queued, out, route⟩
    exact ⟨_, by simp only [expiry, queued, out, route, Option.bind_eq_bind, Option.bind_some]; rfl⟩

theorem mem_expiredKeys : key ∈ expiredKeys conf env.now p ↔
    ∃ call, p.queue.lookup key = some call ∧ Expired conf env.now call := by
  unfold expiredKeys
  simp only [List.mem_filter, Option.any_eq_true, decide_eq_true_eq]
  exact ⟨And.right, fun expired => ⟨AList.mem_keys.mp (ZHash.mem_of_lookup expired.choose_spec.1),
    expired⟩⟩

theorem expiredKeys_nodup : (expiredKeys conf env.now p).Nodup :=
  p.queue.nodupKeys.filter _

theorem visited_of_lookup (queued : p.queue.lookup key = some call) (env : Env) :
    key ∈ env.visit p.queue.keys :=
  (env.visit_perm _).mem_iff.mpr (AList.mem_keys.mp (ZHash.mem_of_lookup queued))

theorem forall₂_mem {α β : Type} {Rel : α → β → Prop} {left : List α} {right : List β}
    (related : List.Forall₂ Rel left right) {item : α} (member : item ∈ left) :
    ∃ other ∈ right, Rel item other := by
  induction related with
  | nil => cases member
  | cons first _ ih =>
      rcases List.mem_cons.mp member with rfl | later
      · exact ⟨_, List.mem_cons_self, first⟩
      · obtain ⟨other, there, rel⟩ := ih later
        exact ⟨other, List.mem_cons_of_mem _ there, rel⟩

/-- The entries that a walk reports, each with its own report. -/
theorem forall₂_filter {α β γ : Type} {f : α → Option γ} {g : β → γ} {Holds : β → Prop}
    {keys : List α} {added : List β} (same : added.map g = keys.filterMap f)
    (all : ∀ sent ∈ added, Holds sent) :
    List.Forall₂ (fun key sent => f key = some (g sent) ∧ Holds sent)
      (keys.filter fun key => (f key).isSome) added := by
  induction keys generalizing added with
  | nil =>
      rw [List.filterMap_nil, List.map_eq_nil_iff] at same
      rw [same]
      exact .nil
  | cons key keys ih =>
      cases value : f key with
      | none =>
          rw [List.filterMap_cons_none value] at same
          rw [List.filter_cons_of_neg (by simp [value])]
          exact ih same all
      | some first =>
          rw [List.filterMap_cons_some value] at same
          rw [List.filter_cons_of_pos (by simp [value])]
          cases added with
          | nil => cases same
          | cons sent added =>
              rw [List.map_cons, List.cons.injEq] at same
              exact .cons ⟨by rw [value, same.1], all sent List.mem_cons_self⟩
                (ih same.2 fun other member => all other (List.mem_cons_of_mem _ member))

theorem SweptOver.punctual (clocked : Clocked conf env.now p)
    (walked : SweptOver conf env (env.visit p.queue.keys) p q) (swept : Swept conf env.now p q)
    (queued : p.queue.lookup key = some call) : Punctual conf env.now call := by
  refine (clocked.tests queued).punctual ?_
  rw [← takenOff_iff queued]
  constructor
  · intro goes
    by_contra going
    have stays := (swept.queue key call).mpr ⟨queued, going⟩
    rw [walked.taken key (visited_of_lookup queued env) goes] at stays
    cases stays
  · intro expired
    by_contra stays
    have still := walked.kept key (.inr stays)
    rw [queued] at still
    exact ((swept.queue key call).mp still).2 expired

/-- Who is told is whom the fabric found a socket for. -/
theorem SweptOver.tellable (walked : SweptOver conf env (env.visit p.queue.keys) p q)
    (swept : Swept conf env.now p q) (queued : p.queue.lookup key = some call)
    (expired : Expired conf env.now call) : Tellable p call := by
  obtain ⟨keys, added, grown, _, members, told⟩ := swept.told
  obtain ⟨sends, same, content, _⟩ := walked.sent
  rw [grown, List.append_cancel_left_eq] at same
  subst same
  obtain ⟨sent, member, tells⟩ := forall₂_mem told ((members key).mpr ⟨call, queued, expired⟩)
  obtain ⟨other, _, _, found, _, cause, came, _⟩ := tells
  rw [queued, Option.some.injEq] at found
  subst found
  have reported : sent.content ∈ (env.visit p.queue.keys).filterMap (expiry conf env p) :=
    content ▸ List.mem_map_of_mem member
  obtain ⟨from', _, reports⟩ := List.mem_filterMap.mp reported
  obtain ⟨twin, _, reports⟩ := Option.bind_eq_some_iff.mp reports
  obtain ⟨msg, _, reports⟩ := Option.bind_eq_some_iff.mp reports
  obtain ⟨dest, route, reports⟩ := Option.bind_eq_some_iff.mp reports
  have parts := Option.some.inj reports
  simp only [Sent.content, Prod.mk.injEq, cause, Cause.reply.injEq] at parts
  exact tellable_iff.mpr ⟨dest, parts.1 ▸ route, parts.2.1 ▸ came⟩

theorem SweptOver.sends (walked : SweptOver conf env (env.visit p.queue.keys) p q)
    (swept : Swept conf env.now p q) :
    ∀ n ∈ List.range' p.sent.length (expiredKeys conf env.now p).length,
      env.zmsgSend n = true := by
  obtain ⟨keys, added, grown, nodup, members, told⟩ := swept.told
  obtain ⟨sends, same, _, oks⟩ := walked.sent
  rw [grown, List.append_cancel_left_eq] at same
  subst same
  have expired : keys.Perm (expiredKeys conf env.now p) :=
    (List.perm_ext_iff_of_nodup nodup expiredKeys_nodup).mpr fun key =>
      (members key).trans mem_expiredKeys.symm
  intro n member
  rw [← expired.length_eq, told.length_eq] at member
  have flag : env.zmsgSend n ∈ added.map Sent.ok := oks ▸ List.mem_map_of_mem member
  obtain ⟨sent, there, same⟩ := List.mem_map.mp flag
  obtain ⟨_, _, _, _, _, _, _, _, _, ok, _⟩ := forall₂_mem (List.Forall₂.flip told) there
  exact same ▸ ok

theorem Sweepable.takenOff (able : Sweepable conf env p) (clocked : Clocked conf env.now p)
    (queued : p.queue.lookup key = some call) :
    TakenOff conf env p key ↔ Expired conf env.now call := by
  rw [takenOff_iff queued]
  have tests := clocked.tests queued
  constructor
  · intro out
    by_contra going
    exact out (tests.quiet (able.punctual key call queued) going)
  · intro expired fine
    obtain ⟨_, _, _, out⟩ :=
      tests.exception expired ((able.punctual key call queued).waiting expired)
    rw [fine] at out
    cases out

theorem Sweepable.reports (able : Sweepable conf env p) (clocked : Clocked conf env.now p)
    (key : String) :
    (expiry conf env p key).isSome = true ↔
      ∃ call, p.queue.lookup key = some call ∧ Expired conf env.now call := by
  rw [expiry_isSome]
  constructor
  · rintro ⟨call, msg, _, queued, out, _⟩
    exact ⟨call, queued, (able.takenOff clocked queued).mp ⟨call, msg, queued, out⟩⟩
  · rintro ⟨call, queued, expired⟩
    obtain ⟨msg, out⟩ := Option.ne_none_iff_exists'.mp
      ((takenOff_iff queued).mp ((able.takenOff clocked queued).mpr expired))
    obtain ⟨dest, route, _⟩ := tellable_iff.mp (able.tellable key call queued expired)
    exact ⟨call, msg, dest, queued, out, route⟩

theorem SweptOver.swept (clocked : Clocked conf env.now p)
    (walked : SweptOver conf env (env.visit p.queue.keys) p q) (able : Sweepable conf env p) :
    Swept conf env.now p q := by
  refine ⟨fun key call => ?_, ?_, walked.modules⟩
  · constructor
    · intro still
      have stays : ¬ TakenOff conf env p key := by
        rintro ⟨late, msg, queued, out⟩
        rw [walked.taken key (visited_of_lookup queued env) ⟨late, msg, queued, out⟩] at still
        cases still
      rw [walked.kept key (.inr stays)] at still
      exact ⟨still, fun expired => stays ((able.takenOff clocked still).mpr expired)⟩
    · rintro ⟨queued, going⟩
      rw [walked.kept key (.inr fun goes => going ((able.takenOff clocked queued).mp goes)), queued]
  · obtain ⟨added, grown, content, oks⟩ := walked.sent
    have nodup := (visit_nodup env p).filter fun key => (expiry conf env p key).isSome
    have members : ∀ key, key ∈ (env.visit p.queue.keys).filter
        (fun key => (expiry conf env p key).isSome) ↔
        ∃ call, p.queue.lookup key = some call ∧ Expired conf env.now call := by
      intro key
      rw [List.mem_filter, able.reports clocked]
      exact ⟨And.right, fun expired =>
        ⟨visited_of_lookup expired.choose_spec.1 env, expired⟩⟩
    have count : added.length = (expiredKeys conf env.now p).length := by
      have perm := (List.perm_ext_iff_of_nodup nodup expiredKeys_nodup).mpr fun key =>
        (members key).trans mem_expiredKeys.symm
      rw [← perm.length_eq]
      exact (forall₂_filter content fun _ _ => trivial).length_eq.symm
    have sends : ∀ sent ∈ added, sent.ok = true := by
      intro sent member
      have known : sent.ok ∈ added.map Sent.ok := List.mem_map_of_mem member
      rw [oks, count] at known
      obtain ⟨n, range, same⟩ := List.mem_map.mp known
      exact same ▸ able.sends n range
    refine ⟨_, added, grown, nodup, members, (forall₂_filter content sends).imp ?_⟩
    rintro key sent ⟨told, ok⟩
    obtain ⟨call, queued, told⟩ := Option.bind_eq_some_iff.mp told
    obtain ⟨msg, out, told⟩ := Option.bind_eq_some_iff.mp told
    obtain ⟨dest, route, told⟩ := Option.bind_eq_some_iff.mp told
    have content := Option.some.inj told
    have expired := (able.takenOff clocked queued).mp ⟨call, msg, queued, out⟩
    obtain ⟨phase, text, current, exception⟩ := (clocked.tests queued).exception expired
      ((able.punctual key call queued).waiting expired)
    obtain ⟨known, there, came⟩ := tellable_iff.mp (able.tellable key call queued expired)
    rw [route, Option.some.injEq] at there
    rw [out, Option.some.injEq] at exception
    simp only [Sent.content, Prod.mk.injEq] at content
    exact ⟨call, phase, text, queued, current, content.1.symm, content.2.1 ▸ there ▸ came, ok,
      content.2.2 ▸ exception⟩

/-- One sweep ends the calls whose phase has taken too long, and no others,
exactly when none of them is met by another phase's timeout, no route that it reads
leads into a module that is gone, and their callers can be told. -/
theorem sweep_punctual (kept : WellKept p) (clocked : Clocked conf env.now p) :
    (∃ q, processQueue conf env p = .ok q ∧ Swept conf env.now p q) ↔ Sweepable conf env p := by
  constructor
  · rintro ⟨q, run, swept⟩
    have walked := processQueue_sweeps run
    obtain ⟨readable, spares⟩ := (walk_total (visit_nodup env p) kept).mp ⟨q, run⟩
    have punctual : ∀ key call, p.queue.lookup key = some call → Punctual conf env.now call :=
      fun key call queued => walked.punctual clocked swept queued
    have reads : ∀ key call, p.queue.lookup key = some call → Expired conf env.now call →
        call.routedVia ≠ none → ReadsRoute conf env call := fun key call queued expired routed =>
      ((clocked.tests queued).readsRoute (punctual key call queued)).mpr ⟨expired, routed⟩
    refine ⟨punctual, ?_, spares.imp ?_, fun key call => walked.tellable swept, walked.sends swept⟩
    · intro key call queued expired routed
      exact readable key (visited_of_lookup queued env) call queued
        (reads key call queued expired routed)
    · intro one other spared first mod call found stuck queued expired routed
      exact spared first mod call found ((clocked.tests found).stuckAt.mpr stuck) queued
        (reads other call queued expired routed)
  · intro able
    have reads : ∀ key call, p.queue.lookup key = some call → ReadsRoute conf env call →
        Expired conf env.now call ∧ call.routedVia ≠ none := fun key call queued =>
      ((clocked.tests queued).readsRoute (able.punctual key call queued)).mp
    have walkable : Walkable conf env (env.visit p.queue.keys) p := by
      refine ⟨fun key _ call queued route => ?_, able.spares.imp ?_⟩
      · obtain ⟨expired, routed⟩ := reads key call queued route
        exact able.readable key call queued expired routed
      · intro one other spared first mod call found stuck queued route
        obtain ⟨expired, routed⟩ := reads other call queued route
        exact spared first mod call found ((clocked.tests found).stuckAt.mp stuck) queued expired
          routed
    obtain ⟨q, run⟩ := (walk_total (visit_nodup env p) kept).mpr walkable
    exact ⟨q, run, (processQueue_sweeps run).swept clocked able⟩

end

def patient : Config where
  debug := false
  inTimeout := 1000
  outTimeout := 10000
  processTimeout := 10000
  modules := ∅

theorem sentToPeer_clocked {now : UInt64} (later : 1000000 ≤ now) :
    Clocked patient now (fabricAfter patient sentToPeer) := by
  have stamps : ∀ entry ∈ (fabricAfter patient sentToPeer).queue.entries,
      entry.2.inTimestamp ≤ 1000000 ∧ entry.2.outTimestamp ≤ 1000000 ∧
        entry.2.processTimestamp ≤ 1000000 := by decide +kernel
  refine ⟨⟨by decide, by decide⟩, ⟨by decide, by decide⟩, ⟨by decide, by decide⟩, ?_⟩
  refine ZHash.forall_lookup fun entry member => ?_
  obtain ⟨arrived, forwarded, given⟩ := stamps entry member
  exact ⟨UInt64.le_trans arrived later, UInt64.le_trans forwarded later,
    UInt64.le_trans given later⟩

theorem sentToPeer_call : ∃ call,
    (fabricAfter patient sentToPeer).queue.lookup "call-1" = some call ∧
      call.routedVia ≠ none ∧ call.inTimestamp = 1000000 ∧ call.outTimestamp = 1000000 ∧
      call.processTimestamp = 0 := by
  have entry : ((fabricAfter patient sentToPeer).queue.lookup "call-1").map (fun call =>
      (call.routedVia.isSome, call.inTimestamp, call.outTimestamp, call.processTimestamp)) =
        some (true, 1000000, 1000000, 0) := by decide +kernel
  obtain ⟨call, found, fields⟩ := Option.map_eq_some_iff.mp entry
  simp only [Prod.mk.injEq, Option.isSome_iff_ne_none] at fields
  exact ⟨call, found, fields⟩

theorem sentToPeer_kept : WellKept (fabricAfter patient sentToPeer) := by
  have reached : Reaches (fabric patient) anything (fabricAfter patient sentToPeer) :=
    fabricAfter_reaches (fun _ _ _ => trivial) (by decide +kernel)
  exact wellKept_reaches reached

/-- Eleven seconds later the fabric's time is over, too. -/
theorem sweep_punctual_late : ∃ q,
    processQueue patient (plainEnv 12000000 (by decide)) (fabricAfter patient sentToPeer) = .ok q ∧
      Swept patient 12000000 (fabricAfter patient sentToPeer) q := by
  have only : ∀ entry ∈ (fabricAfter patient sentToPeer).queue.entries,
      entry.2.routedVia = some otherPeer ∧ entry.2.viaModule = none ∧
        entry.2.outTimestamp = 1000000 ∧ entry.2.processTimestamp = 0 ∧
          entry.2.isLocal = true ∧ entry.2.identity = strhex caller := by
    decide +kernel
  have expired : ∀ entry ∈ (fabricAfter patient sentToPeer).queue.entries,
      Expired patient 12000000 entry.2 := by
    intro entry member
    obtain ⟨routed, _, forwarded, notGiven, _⟩ := only entry member
    refine ⟨.atFabric, by simp [Message.phase, routed, forwarded, notGiven], ?_⟩
    simp only [CallPhase.elapsed, forwarded, Elapsed]
    decide
  refine (sweep_punctual sentToPeer_kept (sentToPeer_clocked (by decide))).mpr
    ⟨ZHash.forall_lookup fun entry member => ?_, ZHash.forall_lookup fun entry member => ?_, ?_,
      ZHash.forall_lookup fun entry member => ?_, fun _ _ => rfl⟩
  · obtain ⟨routed, _⟩ := only entry member
    exact ⟨fun going => absurd (expired entry member) going, fun _ unrouted => by
      rw [routed] at unrouted
      cases unrouted⟩
  · obtain ⟨routed, direct, _⟩ := only entry member
    refine fun _ _ => ⟨by simp [Proxy.dangles, direct], fun via same => ?_⟩
    rw [routed, Option.some.injEq] at same
    subst same
    decide +kernel
  · have alone : (fabricAfter patient sentToPeer).queue.keys = ["call-1"] := by decide +kernel
    rw [alone]
    exact List.pairwise_singleton _ _
  · obtain ⟨_, _, _, _, isLocal, identity⟩ := only entry member
    intro _
    unfold Tellable
    rw [if_pos isLocal]
    exact ⟨caller, rfl, identity⟩

/-- A fabric has eight seconds left for the call when the time of calls that wait
is over. -/
theorem sweep_impatient :
    ¬ ∀ conf env p, WellKept p → Clocked conf env.now p →
      ∃ q, processQueue conf env p = .ok q ∧ Swept conf env.now p q := by
  intro always
  have clocked : Clocked patient 2500000 (fabricAfter patient sentToPeer) :=
    sentToPeer_clocked (by decide)
  obtain ⟨q, walk, swept⟩ := always patient (plainEnv 2500000 (by decide)) _ sentToPeer_kept clocked
  obtain ⟨call, queued, routed, arrived, forwarded, notGiven⟩ := sentToPeer_call
  have punctual := (processQueue_sweeps walk).punctual clocked swept queued
  refine (punctual.others ?_).1 ⟨notGiven, ?_⟩
  · rintro ⟨phase, current, elapsed⟩
    simp only [Message.phase, routed, notGiven, forwarded, if_false, ne_eq, not_true_eq_false]
      at current
    have own : phase = .atFabric := by
      simpa using current.symm
    rw [own] at elapsed
    simp only [CallPhase.elapsed, forwarded, Elapsed] at elapsed
    revert elapsed
    decide
  · rw [arrived]
    unfold Elapsed
    decide

end ModBus
