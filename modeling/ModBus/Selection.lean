import ModBus.Dispatch
import ModBus.Execute
import ModBus.FailedLookup

/-! Which of an interface's local modules a call is given to. -/

namespace ModBus

open Libc Czmq Transition

def IdleModule (p : Proxy) (id : String) : Prop :=
  ∃ mod, p.modules.lookup id = some mod ∧ mod.state = .idle

/-- The fabrics that the scan for an idle module goes on to after the first local
one: those behind the cursor, or all of them when the call was bound just now and
took a copy of the list. -/
def fabricsPassed (message : Message) (entry : Iface) : List String :=
  (if message.iface = none ∧ message.isLocal = true then entry.globals
    else entry.idGlobalList.drain.1).map CStr.text

def LastIdle (p : Proxy) (ids : List String) (via : String) : Prop :=
  ∃ before id after mod, ids = before ++ id :: after ∧ p.modules.lookup id = some mod ∧
    mod.state = .idle ∧ mod.identity.text = via ∧ ∀ other ∈ after, ¬ IdleModule p other

def SentOnce (message : Message) (via : String) (p q : Proxy) : Prop :=
  ∃ send, q.sent = p.sent ++ [send] ∧ p.route via = some send.dest ∧
    send.payload = message.object ∧ send.ok = true

structure Selected (message : Message) (p : Proxy) (iface : Addr) (placed : Message) (q : Proxy) :
    Prop where
  idle : (∃ item ∈ (p.heap iface).locals, IdleModule p item.text) →
    ∃ item ∈ (p.heap iface).locals, ∃ mod, p.modules.lookup item.text = some mod ∧
      mod.state = .idle ∧ placed.routedVia = some item.text ∧
      q.modules = ZHash.update p.modules item.text { mod with state := .busy } ∧
      SentOnce message item.text p q
  busy : (∀ item ∈ (p.heap iface).locals, ¬ IdleModule p item.text) →
    placed.routedVia = none ∧ q.modules = p.modules ∧ q.sent = p.sent

structure Selectable (env : Env) (message : Message) (p : Proxy) (iface : Addr) : Prop where
  registered : ∀ id ∈ fabricsPassed message (p.heap iface), id ∈ p.modules
  idle : ∀ head rest via, (p.heap iface).locals = head :: rest →
    LastIdle p (head.text :: fabricsPassed message (p.heap iface)) via →
      (∃ item ∈ (p.heap iface).locals, item.text = via) ∧ IdleModule p via ∧
        p.route via ≠ none ∧ env.zmsgSend p.sent.length = true
  busy : ∀ head rest, (p.heap iface).locals = head :: rest →
    (∀ id ∈ head.text :: fabricsPassed message (p.heap iface), ¬ IdleModule p id) →
      ∀ item ∈ rest, ¬ IdleModule p item.text

section

variable {conf : Config} {env : Env} {p q : Proxy} {message placed : Message} {iface : Addr}

theorem scanIdle_idleless {ids : List String} {start : Option String}
    (registered : ∀ id ∈ ids, id ∈ p.modules) (none : ∀ id ∈ ids, ¬ IdleModule p id) :
    scanIdle p.modules ids start = .ok start := by
  induction ids with
  | nil => rfl
  | cons id ids ih =>
      obtain ⟨mod, found⟩ := ZHash.lookup_of_mem (registered id (by simp))
      have busy : mod.state ≠ .idle := fun idle => none id (by simp) ⟨mod, found, idle⟩
      simp only [scanIdle, found, if_neg busy]
      exact ih (fun other member => registered other (by simp [member]))
        (fun other member => none other (by simp [member]))

/-- The scan takes the last idle module it comes by. -/
theorem LastIdle.scan {ids : List String} {via : String} (last : LastIdle p ids via)
    (registered : ∀ id ∈ ids, id ∈ p.modules) (start : Option String) :
    scanIdle p.modules ids start = .ok (some via) := by
  obtain ⟨before, id, after, mod, rfl, found, idle, named, none⟩ := last
  induction before generalizing start with
  | nil =>
      simp only [List.nil_append, scanIdle, found, if_pos idle, named]
      exact scanIdle_idleless (fun other member => registered other (by simp [member])) none
  | cons other before ih =>
      obtain ⟨earlier, found'⟩ := ZHash.lookup_of_mem (registered other (by simp))
      simp only [List.cons_append, scanIdle, found']
      exact ih _ fun other member => registered other (List.mem_cons_of_mem _ member)

theorem lastIdle_or_idleless (p : Proxy) (ids : List String) :
    (∃ via, LastIdle p ids via) ∨ ∀ id ∈ ids, ¬ IdleModule p id := by
  induction ids with
  | nil =>
      right
      simp
  | cons id ids ih =>
      rcases ih with ⟨via, before, chosen, after, mod, split, rest⟩ | none
      · exact Or.inl ⟨via, id :: before, chosen, after, mod, by simp [split], rest⟩
      · by_cases idle : IdleModule p id
        · obtain ⟨mod, found, state⟩ := idle
          exact Or.inl ⟨_, [], id, ids, mod, rfl, found, state, rfl, none⟩
        · right
          intro other member
          rcases List.mem_cons.mp member with rfl | later
          · exact idle
          · exact none other later

theorem assignIface_scanned {bound : Message} {middle : Proxy} {head : CStr} {rest : List CStr}
    (locals : (p.heap iface).locals = head :: rest)
    (run : assignIface message p = .ok (some (iface, bound, middle))) :
    scanned (middle.heap iface) = head.text :: fabricsPassed message (p.heap iface) := by
  have listed : (p.heap iface).idLocalList.items = head :: rest := locals
  unfold assignIface at run
  split at run
  · rename_i assigned
    cases run
    simp [scanned, fabricsPassed, listed, assigned]
  · rename_i unassigned
    split at run
    · split at run
      · cases run
      · simp only [] at run
        split at run
        · rename_i copies
          cases run
          have isLocal : message.isLocal = true := by simp_all
          simp [scanned, fabricsPassed, listed, unassigned, isLocal, ZList.walk_eq,
            ZList.drain_unset, Iface.globals]
        · rename_i copiesNot
          cases run
          by_cases isLocal : message.isLocal = true
          · have none : ¬ 0 < (p.heap iface).idGlobalList.size :=
              fun more => copiesNot (by simp [isLocal, more])
            have empty : (p.heap iface).idGlobalList.items = [] := by
              simpa [ZList.size] using none
            have nothing : (p.heap iface).idGlobalList.drain.1 = [] := by
              simpa [empty] using ZList.drain_subset (p.heap iface).idGlobalList
            simp [scanned, fabricsPassed, listed, unassigned, isLocal, nothing, Iface.globals, empty]
          · simp [scanned, fabricsPassed, listed, unassigned, isLocal]
    · cases run

/-- With a local module in the list, the scan alone decides. -/
theorem placeCall_scans (env : Env) {head : CStr} {rest : List CStr}
    (unrouted : message.routedVia = none) (binds : Binds message p iface) (locals : (p.heap iface).locals = head :: rest) :
    match scanIdle p.modules (head.text :: fabricsPassed message (p.heap iface)) none with
    | .error fault => placeCall env message p = .error fault
    | .ok via => ∃ chosen last, chosen.routedVia = via ∧ chosen.object = message.object ∧
        last.modules = p.modules ∧ last.fabList = p.fabList ∧ last.sent = p.sent ∧
        placeCall env message p = match via with
          | none => .ok (0, chosen, last)
          | some via => .ok (0, (dispatch env chosen via last).1, (dispatch env chosen via last).2) := by
  obtain ⟨bound, middle, assigned⟩ := assignIface_binds binds
  obtain ⟨_, boundSame, _, middleSame, sameHeap⟩ := assignIface_ok assigned
  have scannedIds := assignIface_scanned locals assigned
  have modules : middle.modules = p.modules := by rw [middleSame]
  have more : 0 < (middle.heap iface).idLocalList.size := by
    have items : (middle.heap iface).idLocalList.items = head :: rest :=
      (sameHeap iface).locals.trans locals
    simp [ZList.size, items]
  cases scan : scanIdle p.modules (head.text :: fabricsPassed message (p.heap iface)) none with
  | error fault => simp [placeCall, unrouted, assigned, chooseRoute, more, scannedIds, modules, scan]
  | ok via =>
      let moved := { middle.heap iface with
        idLocalList := (middle.heap iface).idLocalList.first.2
        idGlobalList := (middle.heap iface).idGlobalList.drain.2 }
      refine ⟨{ bound with routedVia := via, viaModule := moduleAddr middle via },
        { middle with heap := Function.update middle.heap iface moved }, rfl, ?_, modules, ?_, ?_, ?_⟩
      · rw [boundSame]
      · rw [middleSame]
      · rw [middleSame]
      · simp only [placeCall, unrouted, assigned, chooseRoute, more, if_true, scannedIds, modules,
          scan]
        cases via <;> rfl

theorem sentOnce_iff {cause : Cause} {via : String}
    (sent : q.sent = (sendMessage env cause message.object via p).2.sent) :
    SentOnce message via p q ↔ p.route via ≠ none ∧ env.zmsgSend p.sent.length = true := by
  rcases sendMessage_cases env cause message.object via p with ⟨nowhere, run⟩ | ⟨dest, there, run⟩
  · simp [SentOnce, nowhere]
  · rw [run] at sent
    constructor
    · rintro ⟨send, more, routed, _, ok⟩
      rw [sent, List.append_cancel_left_eq, List.singleton_inj] at more
      subst more
      exact ⟨by simp [there], ok⟩
    · rintro ⟨_, succeeds⟩
      exact ⟨_, sent, there, rfl, succeeds⟩

/-- A call that goes to an idle module of the fabric makes it busy; another one
changes no module. -/
theorem dispatch_modules (env : Env) (via : String) {last : Proxy} (modules : last.modules = p.modules)
    (fabrics : last.fabList = p.fabList) (sent : last.sent = p.sent)
    (object : placed.object = message.object) :
    ((∃ mod, p.modules.lookup via = some mod ∧ mod.state = .idle ∧
        (dispatch env placed via last).2.modules =
          ZHash.update p.modules via { mod with state := .busy }) ∨
      ¬ IdleModule p via ∧ (dispatch env placed via last).2.modules = p.modules) ∧
    (dispatch env placed via last).1.routedVia = placed.routedVia ∧
    ∃ cause, (dispatch env placed via last).2.sent =
      (sendMessage env cause message.object via p).2.sent := by
  unfold dispatch
  simp only [modules, messageTomsg, object]
  cases found : p.modules.lookup via with
  | none =>
      refine ⟨Or.inr ⟨?_, by simp [modules]⟩, rfl, _, sendMessage_sent_congr _ _ _ fabrics sent⟩
      rintro ⟨mod, registered, _⟩
      rw [found] at registered
      cases registered
  | some mod =>
      by_cases idle : mod.state = .idle
      · simp only [idle, if_true]
        exact ⟨Or.inl ⟨mod, rfl, idle, by simp [modules]⟩, trivial, _,
          sendMessage_sent_congr _ _ _ fabrics sent⟩
      · simp only [idle, if_false]
        refine ⟨Or.inr ⟨?_, by simp [modules]⟩, trivial, _, sendMessage_sent_congr _ _ _ fabrics sent⟩
        rintro ⟨other, registered, idle'⟩
        rw [found] at registered
        cases registered
        exact idle idle'

/-- A call is given to an idle module of its interface just when the scan, which
looks at the first one only, comes to the same choice. -/
theorem call_selects (unrouted : message.routedVia = none) (binds : Binds message p iface)
    (provided : (p.heap iface).locals ≠ [])
    (registered : ∀ item ∈ (p.heap iface).locals, item.text ∈ p.modules) :
    (∃ rc placed q, placeCall env message p = .ok (rc, placed, q) ∧
      Selected message p iface placed q) ↔ Selectable env message p iface := by
  obtain ⟨head, rest, locals⟩ := List.exists_cons_of_ne_nil provided
  have scans := placeCall_scans env unrouted binds locals
  have first : head.text ∈ p.modules := registered head (by simp [locals])
  have all (known : ∀ id ∈ fabricsPassed message (p.heap iface), id ∈ p.modules) :
      ∀ id ∈ head.text :: fabricsPassed message (p.heap iface), id ∈ p.modules := by
    intro id member
    rcases List.mem_cons.mp member with rfl | later
    · exact first
    · exact known id later
  constructor
  · rintro ⟨rc, placed, q, run, selected⟩
    have known : ∀ id ∈ fabricsPassed message (p.heap iface), id ∈ p.modules := by
      cases scan : scanIdle p.modules (head.text :: fabricsPassed message (p.heap iface)) none with
      | error fault =>
          rw [scan] at scans
          rw [scans] at run
          cases run
      | ok via => exact fun id member => scanIdle_ok scan id (by simp [member])
    refine ⟨known, ?_, ?_⟩
    · rintro head' rest' via locals' last
      rw [locals] at locals'
      cases locals'
      rw [last.scan (all known) none] at scans
      obtain ⟨chosen, middle, routed, object, modules, fabrics, sent, placement⟩ := scans
      rw [placement] at run
      cases run
      obtain ⟨-, kept, cause, sends⟩ :=
        dispatch_modules env via modules fabrics sent object
      have some' : ∃ item ∈ (p.heap iface).locals, IdleModule p item.text := by
        by_contra none
        simp only [not_exists, not_and] at none
        obtain ⟨waits, -⟩ := selected.busy none
        rw [kept, routed] at waits
        cases waits
      obtain ⟨item, member, mod, found, idle, routed', -, once⟩ := selected.idle some'
      rw [kept, routed, Option.some.injEq] at routed'
      subst routed'
      exact ⟨⟨item, member, rfl⟩, ⟨mod, found, idle⟩, (sentOnce_iff sends).mp once⟩
    · rintro head' rest' locals' none item member idle
      rw [locals] at locals'
      cases locals'
      rw [scanIdle_idleless (all known) none] at scans
      obtain ⟨chosen, middle, routed, -, -, -, -, placement⟩ := scans
      rw [placement] at run
      cases run
      obtain ⟨_, _, _, _, _, routed', -⟩ := selected.idle ⟨item, by simp [locals, member], idle⟩
      rw [routed] at routed'
      cases routed'
  · intro selectable
    rcases lastIdle_or_idleless p (head.text :: fabricsPassed message (p.heap iface)) with
      ⟨via, last⟩ | none
    · rw [last.scan (all selectable.registered) none] at scans
      obtain ⟨chosen, middle, routed, object, modules, fabrics, sent, placement⟩ := scans
      obtain ⟨⟨item, member, rfl⟩, idle, sendable⟩ := selectable.idle head rest via locals last
      obtain ⟨becomes, kept, cause, sends⟩ :=
        dispatch_modules env item.text modules fabrics sent object
      rcases becomes with ⟨mod, found, state, updated⟩ | ⟨busy, -⟩
      · refine ⟨_, _, _, placement, ⟨fun _ => ?_, fun none => absurd idle (none item member)⟩⟩
        exact ⟨item, member, mod, found, state, kept.trans routed, updated,
          (sentOnce_iff sends).mpr sendable⟩
      · exact absurd idle busy
    · rw [scanIdle_idleless (all selectable.registered) none] at scans
      obtain ⟨chosen, middle, routed, -, modules, -, sent, placement⟩ := scans
      refine ⟨_, _, _, placement, ⟨?_, fun _ => ⟨routed, modules, sent⟩⟩⟩
      rintro ⟨item, member, idle⟩
      rw [locals] at member
      rcases List.mem_cons.mp member with rfl | later
      · exact absurd idle (none _ List.mem_cons_self)
      · exact absurd idle (selectable.busy head rest locals none item later)

theorem LastIdle.among (registry : Registry p) {ids : List String} {via : String}
    (last : LastIdle p ids via) : via ∈ ids ∧ IdleModule p via := by
  obtain ⟨before, id, after, mod, rfl, found, idle, named, -⟩ := last
  have key := registry.moduleKey id mod found
  have same : via = id := named.symm.trans key
  subst same
  exact ⟨by simp, mod, found, idle⟩

def freshCall (actionid : String) : Message :=
  { messageNew 0 2000000 true (strhex caller)
      (packed "call" (.map [(.raw "module", .raw "mod"), (.raw "function", .raw "f"),
        (.raw "version", .positiveInteger 1)]) actionid) "call" actionid with
    module := some "mod"
    function := some "f"
    version := 1 }

def colleague : List UInt8 := [0, 9, 10, 11, 12]

def oneWorker : List (Env × Event) :=
  [(early, .localMsg (introduceOf worker "mod" 77 [("f", 1)]) "yes")]

def twoWorkers : List (Env × Event) :=
  oneWorker ++ [(early, .localMsg (introduceOf colleague "mod" 78 [("f", 1)]) "yes")]

def firstBusy : List (Env × Event) :=
  twoWorkers ++ [(early, .localMsg (callOf caller "mod" "f" 1 "call-1") "")]

theorem call_selects_worker :
    ∃ rc placed q, placeCall late (freshCall "call-1") (fabricAfter plainConf twoWorkers) =
      .ok (rc, placed, q) ∧
        Selected (freshCall "call-1") (fabricAfter plainConf twoWorkers) 2 placed q := by
  have reached : Reaches (fabric plainConf) anything (fabricAfter plainConf twoWorkers) :=
    fabricAfter_reaches (fun _ _ _ => trivial) (by decide +kernel)
  have binds : Binds (freshCall "call-1") (fabricAfter plainConf twoWorkers) 2 :=
    Or.inr ⟨rfl, "mod", "f", rfl, rfl, by decide +kernel⟩
  have locals : ((fabricAfter plainConf twoWorkers).heap 2).locals =
      [⟨1, "0001020304"⟩, ⟨4, "00090A0B0C"⟩] := by
    decide +kernel
  have globals : fabricsPassed (freshCall "call-1") ((fabricAfter plainConf twoWorkers).heap 2) =
      [] := by
    decide +kernel
  have first : IdleModule (fabricAfter plainConf twoWorkers) "0001020304" := by
    have state : ((fabricAfter plainConf twoWorkers).modules.lookup "0001020304").map
        Module.state = some .idle := by
      decide +kernel
    obtain ⟨mod, found, idle⟩ := Option.map_eq_some_iff.mp state
    exact ⟨mod, found, idle⟩
  refine (call_selects rfl binds (by simp [locals]) (by rw [locals]; decide +kernel)).mpr
    ⟨by simp [globals], ?_, ?_⟩
  · intro head rest via listed last
    rw [locals, List.cons.injEq] at listed
    obtain ⟨rfl, rfl⟩ := listed
    obtain ⟨chosen, idle⟩ := last.among (registry_reaches reached)
    rw [globals, List.mem_singleton] at chosen
    subst chosen
    exact ⟨by simp [locals], idle, by decide +kernel, rfl⟩
  · intro head rest listed none
    rw [locals, List.cons.injEq] at listed
    obtain ⟨rfl, rfl⟩ := listed
    exact absurd first (none _ List.mem_cons_self)

/-- The second module is idle, and the call waits for the first. -/
theorem call_waits_for_first :
    ¬ ∀ env message p iface, message.routedVia = none → Binds message p iface →
      (p.heap iface).locals ≠ [] → (∀ item ∈ (p.heap iface).locals, item.text ∈ p.modules) →
      ∃ rc placed q, placeCall env message p = .ok (rc, placed, q) ∧
        Selected message p iface placed q := by
  intro always
  have binds : Binds (freshCall "call-2") (fabricAfter plainConf firstBusy) 2 :=
    Or.inr ⟨rfl, "mod", "f", rfl, rfl, by decide +kernel⟩
  have locals : ((fabricAfter plainConf firstBusy).heap 2).locals =
      [⟨1, "0001020304"⟩, ⟨4, "00090A0B0C"⟩] := by
    decide +kernel
  have waits : (placeCall late (freshCall "call-2") (fabricAfter plainConf firstBusy)).toOption.map
      (fun result => result.2.1.routedVia) = some none := by
    decide +kernel
  have second : ((fabricAfter plainConf firstBusy).modules.lookup "00090A0B0C").map Module.state =
      some .idle := by
    decide +kernel
  obtain ⟨rc, placed, q, run, selected⟩ :=
    always late (freshCall "call-2") (fabricAfter plainConf firstBusy) 2 rfl binds
      (by simp [locals]) (by rw [locals]; decide +kernel)
  obtain ⟨mod, found, idle⟩ := Option.map_eq_some_iff.mp second
  obtain ⟨_, _, _, _, _, routed, -⟩ :=
    selected.idle ⟨⟨4, "00090A0B0C"⟩, by simp [locals], mod, found, idle⟩
  rw [run] at waits
  simp [Except.toOption, routed] at waits

end

end ModBus
