import ModBus.Proxy

/-! `placeCall`: binding a call to an interface and sending it to a module of
the fabric or to another fabric. -/

namespace ModBus

open Libc Czmq

/-- The scan over local modules. It does not stop at an idle one, so the last
idle one is taken; an identity that is not registered is dereferenced. -/
def scanIdle (modules : ZHash Module) : List String → Option String → Except Fault (Option String)
  | [], via => .ok via
  | id :: ids, via =>
      match modules.lookup id with
      | none => .error .nullDeref
      | some mod =>
          scanIdle modules ids (if mod.state = .idle then some mod.identity.text else via)

def assignIface (message : Message) (p : Proxy) :
    Except Fault (Option (Addr × Message × Proxy)) :=
  match message.iface with
  | some iface => .ok (some (iface, message, p))
  | none =>
      match message.module, message.function with
      | some module, some function =>
          match checkInterface p.ifaces p.heap module function message.version with
          | none => .ok none
          | some iface =>
              let list := (p.heap iface).idGlobalList
              if message.isLocal && 0 < list.size then
                let copied : ZList String := ⟨list.walk.1.map CStr.text, none⟩
                let bound := { message with iface := some iface, globals := some copied.first.2 }
                let walked := { p.heap iface with idGlobalList := list.walk.2 }
                .ok (some (iface, bound, { p with heap := Function.update p.heap iface walked }))
              else .ok (some (iface, { message with iface := some iface }, p))
      | _, _ => .error .assertFailed

/-- The identities that the scan goes through: the first local one, and then,
as the loop calls `zlist_next` on `id_global_list`, whatever that list has past
its cursor. -/
def scanned (iface : Iface) : List String :=
  (iface.idLocalList.first.1.toList ++ iface.idGlobalList.drain.1).map CStr.text

def moduleAddr (p : Proxy) (via : Option String) : Option Addr :=
  (via.bind p.modules.lookup).map fun mod => mod.identity.addr

def chooseRoute (iface : Addr) (message : Message) (p : Proxy) : Except Fault (Message × Proxy) :=
  let entry := p.heap iface
  if 0 < entry.idLocalList.size then
    match scanIdle p.modules (scanned entry) none with
    | .error fault => .error fault
    | .ok via =>
        let scanned := { entry with
          idLocalList := entry.idLocalList.first.2
          idGlobalList := entry.idGlobalList.drain.2 }
        .ok ({ message with routedVia := via, viaModule := moduleAddr p via },
          { p with heap := Function.update p.heap iface scanned })
  else
    match message.isLocal, message.globals with
    | true, some globals =>
        if 0 < globals.size then
          match globals.next with
          | (some via, moved) =>
              .ok ({ message with routedVia := some via, globals := some moved }, p)
          | (none, moved) =>
              .ok ({ message with routedVia := moved.first.1, globals := some moved.first.2 }, p)
        else .ok (message, p)
    | _, _ => .ok (message, p)

/-- Sending a routed message. What `send_message` returns is not looked at. -/
def dispatch (env : Env) (message : Message) (via : String) (p : Proxy) : Message × Proxy :=
  let toFabric := { message with outTimestamp := env.now }
  match p.modules.lookup via with
  | some mod =>
      if mod.state = .idle then
        let toModule := { message with processTimestamp := env.now }
        (toModule, (sendMessage env (.toModule toModule) (messageTomsg message) via
          (p.setModule via { mod with state := .busy })).2)
      else
        (toFabric, (sendMessage env (.toFabric toFabric) (messageTomsg message) via p).2)
  | none => (toFabric, (sendMessage env (.toFabric toFabric) (messageTomsg message) via p).2)

def placeCall (env : Env) (message : Message) (p : Proxy) : Except Fault (Int × Message × Proxy) :=
  match message.routedVia with
  | some _ => .ok (0, message, p)
  | none =>
      match assignIface message p with
      | .error fault => .error fault
      | .ok none => .ok (-1, message, p)
      | .ok (some (iface, message, p)) =>
          match chooseRoute iface message p with
          | .error fault => .error fault
          | .ok (message, p) =>
              match message.routedVia with
              | none => .ok (0, message, p)
              | some via =>
                  let placed := dispatch env message via p
                  .ok (0, placed.1, placed.2)

def placeQueued (env : Env) (key : String) (p : Proxy) : Except Fault (Int × Proxy) :=
  match p.queue.lookup key with
  | none => .ok (0, p)
  | some message =>
      match placeCall env message p with
      | .error fault => .error fault
      | .ok (rc, placed, q) => .ok (rc, { q with queue := ZHash.update q.queue key placed })

def placeAll (env : Env) (p : Proxy) : Except Fault Proxy :=
  ZHash.foreach (placeQueued env) (env.visit p.queue.keys) p

/-! What one placement does, case by case. -/

def Binds (message : Message) (p : Proxy) (iface : Addr) : Prop :=
  message.iface = some iface ∨
    message.iface = none ∧ ∃ module function, message.module = some module ∧
      message.function = some function ∧
      checkInterface p.ifaces p.heap module function message.version = some iface

def GlobalsFrom (message : Message) (p : Proxy) (iface : Addr) (globals : Option (ZList String)) :
    Prop :=
  globals.map ZList.items = message.globals.map ZList.items ∨
    message.iface = none ∧
      globals.map ZList.items = some ((p.heap iface).globals.map CStr.text)

structure PlacedOn (message : Message) (p : Proxy) (iface : Addr) (placed : Message) (q : Proxy) :
    Prop where
  unrouted : message.routedVia = none
  binds : Binds message p iface
  same : placed = { message with
    iface := some iface, globals := placed.globals, routedVia := placed.routedVia
    viaModule := placed.viaModule
    outTimestamp := placed.outTimestamp, processTimestamp := placed.processTimestamp }
  globals : GlobalsFrom message p iface placed.globals
  proxy : q = { p with modules := q.modules, heap := q.heap, sent := q.sent }
  sameHeap : p.SameHeap q

def LocalChoice (p : Proxy) (iface : Addr) (via : Option String) : Prop :=
  ∃ head rest later, (p.heap iface).locals = head :: rest ∧ later ⊆ (p.heap iface).globals ∧
    scanIdle p.modules ((head :: later).map CStr.text) none = .ok via

structure GlobalChoice (message : Message) (p : Proxy) (iface : Addr) (placed : Message) : Prop where
  empty : (p.heap iface).locals = []
  routes : ∀ via, placed.routedVia = some via →
    message.isLocal = true ∧ ∃ globals, placed.globals = some globals ∧ via ∈ globals.items
  waits : placed.routedVia = none → message.isLocal = true → ∀ globals,
    placed.globals = some globals → globals.items = []

def ChosenFrom (message : Message) (p : Proxy) (iface : Addr) (placed : Message) : Prop :=
  LocalChoice p iface placed.routedVia ∨ GlobalChoice message p iface placed

inductive PlaceOutcome (env : Env) (message : Message) (p : Proxy) :
    Int → Message → Proxy → Prop
  | routed {via} : message.routedVia = some via → PlaceOutcome env message p 0 message p
  | rejected {module function} : message.routedVia = none → message.iface = none →
      message.module = some module → message.function = some function →
      checkInterface p.ifaces p.heap module function message.version = none →
      PlaceOutcome env message p (-1) message p
  | waiting {iface placed q} : PlacedOn message p iface placed q →
      ChosenFrom message p iface placed → placed.routedVia = none →
      placed.outTimestamp = message.outTimestamp →
      placed.processTimestamp = message.processTimestamp →
      q.modules = p.modules → q.sent = p.sent → PlaceOutcome env message p 0 placed q
  | toModule {iface placed q via mod} : PlacedOn message p iface placed q →
      ChosenFrom message p iface placed → placed.routedVia = some via →
      placed.outTimestamp = message.outTimestamp → placed.processTimestamp = env.now →
      p.modules.lookup via = some mod → mod.state = .idle →
      q.modules = ZHash.update p.modules via { mod with state := .busy } →
      q.sent = (sendMessage env (.toModule placed) message.object via p).2.sent →
      PlaceOutcome env message p 0 placed q
  | toFabric {iface placed q via} : PlacedOn message p iface placed q →
      ChosenFrom message p iface placed → placed.routedVia = some via →
      placed.outTimestamp = env.now → placed.processTimestamp = message.processTimestamp →
      (∀ mod, p.modules.lookup via = some mod → mod.state ≠ .idle) →
      q.modules = p.modules →
      q.sent = (sendMessage env (.toFabric placed) message.object via p).2.sent →
      PlaceOutcome env message p 0 placed q

section Outcome

variable {env : Env} {message placed : Message} {p q : Proxy} {iface : Addr}

theorem Proxy.SameHeap.refl (p : Proxy) : p.SameHeap p := fun _ => Iface.Same.refl _

theorem Proxy.SameHeap.trans {r : Proxy} (left : p.SameHeap q) (right : q.SameHeap r) : p.SameHeap r :=
  fun iface => (left iface).trans (right iface)

theorem Proxy.SameHeap.write (p : Proxy) (iface : Addr) {moved : Iface} (same : (p.heap iface).Same moved) :
    p.SameHeap { p with heap := Function.update p.heap iface moved } := by
  intro other
  by_cases here : other = iface
  · subst here
    simpa using same
  · simp only [Function.update_of_ne here]
    exact Iface.Same.refl _

theorem sendMessage_sent_congr (cause : Cause) (payload : Object) (identity : String)
    (fabrics : q.fabList = p.fabList) (sent : q.sent = p.sent) :
    (sendMessage env cause payload identity q).2.sent =
      (sendMessage env cause payload identity p).2.sent := by
  have route : q.route identity = p.route identity := by simp [Proxy.route, fabrics]
  unfold sendMessage
  rw [route]
  cases p.route identity <;> simp [sent]

theorem assignIface_ok {bound : Message} (run : assignIface message p = .ok (some (iface, bound, q))) :
    Binds message p iface ∧ bound = { message with iface := some iface, globals := bound.globals } ∧
      GlobalsFrom message p iface bound.globals ∧ q = { p with heap := q.heap } ∧ p.SameHeap q := by
  unfold assignIface at run
  split at run
  · rename_i assigned
    cases run
    refine ⟨Or.inl assigned, ?_, Or.inl rfl, rfl, Proxy.SameHeap.refl p⟩
    rw [← assigned]
  · rename_i unassigned
    split at run
    · rename_i module function named called
      split at run
      · cases run
      · rename_i found checked
        have binds : Binds message p found :=
          Or.inr ⟨unassigned, module, function, named, called, checked⟩
        simp only [] at run
        split at run
        · cases run
          refine ⟨binds, rfl, Or.inr ⟨unassigned, ?_⟩, rfl, Proxy.SameHeap.write p iface ?_⟩
          · simp [ZList.walk_eq, Iface.globals]
          · constructor <;> simp [Iface.locals, Iface.globals, ZList.walk_eq]
        · cases run
          exact ⟨binds, rfl, Or.inl rfl, rfl, Proxy.SameHeap.refl p⟩
    · cases run

theorem chooseRoute_ok {bound : Message} (unrouted : bound.routedVia = none)
    (run : chooseRoute iface bound p = .ok (placed, q)) :
    placed = { bound with
      routedVia := placed.routedVia, viaModule := placed.viaModule, globals := placed.globals } ∧
      placed.globals.map ZList.items = bound.globals.map ZList.items ∧
      q = { p with heap := q.heap } ∧ p.SameHeap q ∧ ChosenFrom bound p iface placed := by
  unfold chooseRoute at run
  simp only [] at run
  split at run
  · rename_i more
    split at run
    · cases run
    · rename_i via scan
      cases run
      refine ⟨rfl, rfl, rfl, Proxy.SameHeap.write p iface ?_, Or.inl ?_⟩
      · constructor <;> simp [Iface.locals, Iface.globals]
      · cases items : (p.heap iface).idLocalList.items with
        | nil => simp [ZList.size, items] at more
        | cons head rest =>
            refine ⟨head, rest, (p.heap iface).idGlobalList.drain.1, items,
              ZList.drain_subset _, ?_⟩
            simpa [scanned, items] using scan
  · rename_i none
    have empty : (p.heap iface).locals = [] := by
      simpa [ZList.size, Iface.locals] using none
    split at run
    · rename_i globals isLocal listed
      split at run
      · split at run
        · rename_i via moved next
          cases run
          have items : moved.items = globals.items := by
            have := ZList.next_items globals
            rwa [next] at this
          refine ⟨rfl, by simp [listed, items], rfl, Proxy.SameHeap.refl p,
            Or.inr ⟨empty, ?_, by simp⟩⟩
          intro chosen same
          cases same
          refine ⟨isLocal, moved, rfl, ?_⟩
          rw [ZList.next_eq] at next
          simp only [Prod.mk.injEq] at next
          rw [items]
          exact List.mem_of_getElem? next.1
        · rename_i moved next
          cases run
          have items : moved.items = globals.items := by
            have := ZList.next_items globals
            rwa [next] at this
          refine ⟨rfl, by simp [listed, items], rfl, Proxy.SameHeap.refl p,
            Or.inr ⟨empty, ?_, ?_⟩⟩
          · intro chosen same
            refine ⟨isLocal, moved.first.2, rfl, ?_⟩
            simpa using List.mem_of_mem_head? same
          · intro waits _ copied same
            cases same
            simpa using waits
      · rename_i nothing
        cases run
        refine ⟨rfl, rfl, rfl, Proxy.SameHeap.refl p, Or.inr ⟨empty, by simp [unrouted], ?_⟩⟩
        intro _ _ copied same
        rw [listed] at same
        cases same
        simpa [ZList.size] using nothing
    · rename_i other
      cases run
      refine ⟨rfl, rfl, rfl, Proxy.SameHeap.refl p, Or.inr ⟨empty, by simp [unrouted], ?_⟩⟩
      intro _ isLocal copied same
      exact absurd same (other copied isLocal)

theorem LocalChoice.congr {via : Option String} (same : p.SameHeap q)
    (modules : q.modules = p.modules) (choice : LocalChoice q iface via) :
    LocalChoice p iface via := by
  obtain ⟨head, rest, later, locals, subset, scan⟩ := choice
  exact ⟨head, rest, later, (same iface).locals ▸ locals, (same iface).globals ▸ subset,
    modules ▸ scan⟩

theorem ChosenFrom.congr {bound : Message} (same : p.SameHeap q) (modules : q.modules = p.modules)
    (isLocal : bound.isLocal = message.isLocal) (chosen : ChosenFrom bound q iface placed) :
    ChosenFrom message p iface placed := by
  rcases chosen with choice | ⟨empty, routes, waits⟩
  · exact Or.inl (choice.congr same modules)
  · exact Or.inr ⟨(same iface).locals ▸ empty, isLocal ▸ routes, isLocal ▸ waits⟩

/-- Every way a placement can end, with all that it changes. -/
theorem placeCall_outcome {rc : Int} (run : placeCall env message p = .ok (rc, placed, q)) :
    PlaceOutcome env message p rc placed q := by
  unfold placeCall at run
  split at run
  · rename_i via routed
    cases run
    exact .routed routed
  · rename_i unrouted
    split at run
    · cases run
    · rename_i assigned
      cases run
      unfold assignIface at assigned
      split at assigned
      · cases assigned
      · rename_i unassigned
        split at assigned
        · rename_i module function named called
          split at assigned
          · rename_i checked
            exact .rejected unrouted unassigned named called checked
          · simp only [] at assigned
            split at assigned <;> cases assigned
        · cases assigned
    · rename_i iface bound middle assigned
      obtain ⟨binds, boundSame, boundGlobals, middleSame, boundHeap⟩ := assignIface_ok assigned
      have boundUnrouted : bound.routedVia = none := by rw [boundSame]; exact unrouted
      split at run
      · cases run
      · rename_i chosen last choice
        obtain ⟨chosenSame, chosenGlobals, lastSame, chosenHeap, chosenFrom⟩ :=
          chooseRoute_ok boundUnrouted choice
        have modules : last.modules = p.modules := by rw [lastSame, middleSame]
        have sent : last.sent = p.sent := by rw [lastSame, middleSame]
        have fabrics : last.fabList = p.fabList := by rw [lastSame, middleSame]
        have sameHeap := boundHeap.trans chosenHeap
        have from' : ∀ after : Message, after.routedVia = chosen.routedVia →
            after.globals = chosen.globals → ChosenFrom message p iface after := by
          intro after via globals
          have moved : ChosenFrom message p iface chosen :=
            chosenFrom.congr boundHeap (by rw [middleSame]) (by rw [boundSame])
          rcases moved with choice | ⟨empty, routes, waits⟩
          · exact Or.inl (via ▸ choice)
          · exact Or.inr ⟨empty, by rw [via, globals]; exact routes, by rw [via, globals]; exact waits⟩
        have on : ∀ (after : Message) (final : Proxy), after = { chosen with
              outTimestamp := after.outTimestamp, processTimestamp := after.processTimestamp } →
            final = { last with modules := final.modules, sent := final.sent } →
            PlacedOn message p iface after final := by
          intro after final afterSame finalSame
          refine ⟨unrouted, binds, ?_, ?_, ?_, ?_⟩
          · rw [afterSame, chosenSame, boundSame]
          · have globals : after.globals = chosen.globals := by rw [afterSame]
            rw [globals]
            rcases boundGlobals with kept | ⟨unassigned, copied⟩
            · exact Or.inl (chosenGlobals.trans kept)
            · exact Or.inr ⟨unassigned, chosenGlobals.trans copied⟩
          · rw [finalSame, lastSame, middleSame]
          · rw [finalSame]
            exact sameHeap
        have object : chosen.object = message.object := by rw [chosenSame, boundSame]
        have outStamp : chosen.outTimestamp = message.outTimestamp := by
          rw [chosenSame, boundSame]
        have processStamp : chosen.processTimestamp = message.processTimestamp := by
          rw [chosenSame, boundSame]
        split at run
        · rename_i idle
          cases run
          exact .waiting (on _ _ rfl rfl) (from' _ rfl rfl) idle outStamp processStamp modules sent
        · rename_i via routed
          simp only [dispatch, messageTomsg] at run
          have fabric : (∀ mod, p.modules.lookup via = some mod → mod.state ≠ .idle) →
              (rc, placed, q) = (0, { chosen with outTimestamp := env.now },
                (sendMessage env (.toFabric { chosen with outTimestamp := env.now })
                  chosen.object via last).2) →
              PlaceOutcome env message p rc placed q := by
            intro busy result
            cases result
            refine .toFabric (on _ _ rfl (sendMessage_eq _ _ _ _ _ ▸ rfl)) (from' _ rfl rfl) routed rfl
              processStamp busy (by simpa using modules) ?_
            rw [object]
            exact sendMessage_sent_congr _ _ _ fabrics sent
          split at run
          · rename_i mod found
            rw [modules] at found
            split at run
            · rename_i idle
              cases run
              refine .toModule (on _ _ rfl ?_) (from' _ rfl rfl) routed outStamp rfl found idle
                (by simp [modules]) ?_
              · rw [sendMessage_eq]
                rfl
              · rw [object]
                exact sendMessage_sent_congr _ _ _ fabrics sent
            · rename_i busy
              refine fabric ?_ (by cases run; rfl)
              intro other registered
              rw [found] at registered
              cases registered
              exact busy
          · rename_i absent
            rw [modules] at absent
            refine fabric ?_ (by cases run; rfl)
            intro other registered
            rw [absent] at registered
            cases registered

theorem scanIdle_some {modules : ZHash Module} {ids : List String} {start : Option String}
    {via : String} (scan : scanIdle modules ids start = .ok (some via)) :
    start = some via ∨ ∃ id ∈ ids, ∃ mod, modules.lookup id = some mod ∧ mod.state = .idle := by
  induction ids generalizing start with
  | nil =>
      simp only [scanIdle, Except.ok.injEq] at scan
      exact Or.inl scan
  | cons id ids ih =>
      simp only [scanIdle] at scan
      split at scan
      · cases scan
      · rename_i mod found
        rcases ih scan with now | ⟨other, member, rest⟩
        · split at now
          · rename_i idle
            exact Or.inr ⟨id, by simp, mod, found, idle⟩
          · exact Or.inl now
        · exact Or.inr ⟨other, by simp [member], rest⟩

end Outcome

end ModBus
