import Mathlib.Data.List.Find
import ModBus.Dispatch

/-! Version-sound dispatch: a module is only given calls that it introduced itself
for. The lookup by "at least this version" serves callers and providers alike, so
a provider of a lower version can join an interface of a higher one. -/

namespace ModBus

open Libc Czmq Transition

def Introduction.offers (intro : Introduction) (function : String) (ver : UInt64) : Bool :=
  match (intro.provides.lookup function).map Unpacked.version with
  | some (.ok offered) => decide (ver ≤ offered)
  | _ => false

def Authorized (introduced : List Introduction) (call : Message) (via : String) : Prop :=
  ∃ intro ∈ introduced, intro.identity = via ∧ call.module = some intro.name ∧
    ∃ function ∈ call.function, intro.offers function call.version = true

instance (introduced : List Introduction) (call : Message) (via : String) :
    Decidable (Authorized introduced call via) :=
  inferInstanceAs (Decidable (∃ intro ∈ introduced, intro.identity = via ∧
    call.module = some intro.name ∧
    ∃ function ∈ call.function, intro.offers function call.version = true))

/-- An accepted introduction comes from the local socket and from an identity that
no list still names, unless it is registered; and the interfaces that its lookups
find are not of a later version. -/
def ExactIntroductions (conf : Config) (p : Proxy) (label : Env × Event) : Prop :=
  ∀ message, label.2.message label.1 p = some message → message.command = "introduce" →
    (conf.debug = true ∨ label.2.answer ≠ "no") → message.isLocal = true ∧
      (message.identity ∉ p.modules → ∀ iface ∈ p.ifaces.items, ∀ item ∈ (p.heap iface).locals,
        item.text ≠ message.identity) ∧
      ∀ name provides function value ver iface, messageGetName message = .ok (some name) →
        messageGetProvides message = .ok (some provides) →
        provides.lookup function = some value → value.version = .ok ver →
        checkInterface p.ifaces p.heap name function ver = some iface → (p.heap iface).ver ≤ ver

def Introduction.Backs (intro : Introduction) (item : CStr) (iface : Iface) : Prop :=
  intro.identity = item.text ∧ intro.name = iface.mod ∧
    intro.offers iface.func iface.ver = true

def Backed (p : Proxy) : Prop :=
  ∀ iface, ∀ item ∈ (p.heap iface).locals, item.text ∈ p.modules →
    ∃ intro ∈ p.introduced, intro.Backs item (p.heap iface)

section

variable {conf : Config} {env : Env} {event : Event} {p q : Proxy} {message placed : Message}
  {iface : Addr}

theorem offers_of_version {intro : Introduction} {function : String} {value : Unpacked}
    {offered ver : UInt64} (found : intro.provides.lookup function = some value)
    (read : value.version = .ok offered) (above : ver ≤ offered) :
    intro.offers function ver = true := by
  simp [Introduction.offers, found, read, above]

theorem offers_earlier {intro : Introduction} {function : String} {ver earlier : UInt64}
    (offers : intro.offers function ver = true) (before : earlier ≤ ver) :
    intro.offers function earlier = true := by
  unfold Introduction.offers at offers ⊢
  split at offers
  · exact decide_eq_true (UInt64.le_trans before (of_decide_eq_true offers))
  · cases offers

theorem Introduction.Backs.same {intro : Introduction} {item : CStr} {old new : Iface}
    (backs : intro.Backs item old) (mod : new.mod = old.mod) (func : new.func = old.func)
    (ver : new.ver = old.ver) : intro.Backs item new := by
  obtain ⟨identity, name, offers⟩ := backs
  exact ⟨identity, by rw [mod, name], by rw [func, ver]; exact offers⟩

theorem Backed.calm (backed : Backed p) (calm : Calm p q) : Backed q := by
  intro iface item member registered
  have same := calm.sameHeap iface
  obtain ⟨intro, known, backs⟩ := backed iface item (same.locals ▸ member)
    ((calm.mem_modules item.text).mp registered)
  exact ⟨intro, calm.introduced ▸ known, backs.same same.mod same.func same.ver⟩

theorem Backed.frame (backed : Backed p) (heap : q.heap = p.heap)
    (modules : q.modules = p.modules) (introduced : q.introduced = p.introduced) : Backed q := by
  intro iface item member registered
  rw [heap] at member ⊢
  rw [modules] at registered
  rw [introduced]
  exact backed iface item member registered

theorem Backed.arrived (backed : Backed p) (message : Message) : Backed (p.arrived message) :=
  backed.frame (arrived_heap message p) (arrived_modules message p) (arrived_introduced message p)

theorem Registry.lists (registry : Registry p) {item : CStr}
    (member : item ∈ (p.heap iface).locals) : iface ∈ p.ifaces.items := by
  by_contra absent
  rw [(registry.unlisted iface absent).1] at member
  cases member

theorem Backed.extendGlobal {mod func : String} {ver : UInt64} {glob : CStr → Prop}
    (registry : Registry p) (provided : Provided mod func ver (fun _ => False) glob iface p q)
    (backed : Backed p) : Backed q := by
  intro other item member registered
  rcases provided.locals other item member with old | ⟨_, new⟩
  · have used := registry.allocated other (registry.lists old)
    obtain ⟨sameMod, sameFunc, sameVer⟩ := provided.kept other used
    have modules : q.modules = p.modules := by rw [provided.same]
    have introduced : q.introduced = p.introduced := by rw [provided.same]
    obtain ⟨intro, known, backs⟩ := backed other item old (modules ▸ registered)
    exact ⟨intro, introduced ▸ known, backs.same sameMod sameFunc sameVer⟩
  · exact new.elim

theorem Backed.listed (registry : Registry p) (listing : processIfaceList message p = .ok q)
    (backed : Backed p) : Backed q := by
  rcases processIfaceList_ok listing with rfl | ⟨paths, fab, _, _, provided⟩
  · exact backed
  · exact (providePaths_invariant Backed (fun _ _ _ _ _ _ registry provided =>
      Backed.extendGlobal registry provided) registry provided backed).1

/-! Introductions. -/

structure Introducing (p : Proxy) (new : Introduction) (rest : List String) (middle : Proxy) :
    Prop where
  distinct : rest.Nodup
  extended : Extends p middle
  created : ∀ iface ∈ middle.ifaces.items, iface ∉ p.ifaces.items →
    (middle.heap iface).func ∉ rest
  listings : ∀ iface, ∀ item ∈ (middle.heap iface).locals,
    (∃ intro ∈ p.introduced, intro.Backs item (middle.heap iface)) ∨
      new.Backs item (middle.heap iface) ∨
      item.text ∉ p.modules ∧ item.text ≠ new.identity

/-- A function that is still to be provided finds what it would have found at
the start: the interfaces created meanwhile are for other functions. -/
theorem Introducing.lookup {new : Introduction} {rest : List String} {middle : Proxy}
    {function : String} {ver : UInt64} (registry : Registry p) (between : Registry middle)
    (introducing : Introducing p new (function :: rest) middle) :
    checkInterface middle.ifaces middle.heap new.name function ver =
      checkInterface p.ifaces p.heap new.name function ver := by
  obtain ⟨more, grown⟩ := introducing.extended.grown
  have distinct := between.nodup
  rw [grown] at distinct
  have later : more.find? (fun iface => decide ((middle.heap iface).mod = new.name ∧
      (middle.heap iface).func = function ∧ ver ≤ (middle.heap iface).ver)) = none := by
    rw [List.find?_eq_none]
    intro iface member matching
    simp only [decide_eq_true_eq] at matching
    have fresh : iface ∉ p.ifaces.items :=
      fun old => (List.nodup_append.mp distinct).2.2 iface old iface member rfl
    refine introducing.created iface (by simp [grown, member]) fresh ?_
    rw [matching.2.1]
    exact List.mem_cons_self
  rw [checkInterface_eq, checkInterface_eq, grown, List.find?_append, later, Option.or_none]
  refine List.find?_congr fun iface member => ?_
  obtain ⟨mod, func, same⟩ := introducing.extended.kept iface (registry.allocated iface member)
  rw [mod, func, same]

theorem Introducing.provided {new : Introduction} {rest : List String} {middle next : Proxy}
    {identity : CStr} {function : String} {value : Unpacked} {ver : UInt64}
    (registry : Registry p) (between : Registry middle) (own : identity.text = new.identity)
    (found : new.provides.lookup function = some value) (read : value.version = .ok ver)
    (exact' : ∀ iface, checkInterface p.ifaces p.heap new.name function ver = some iface →
      (p.heap iface).ver ≤ ver)
    (provided : Provided new.name function ver (· = identity) (fun _ => False) iface middle next)
    (introducing : Introducing p new (function :: rest) middle) :
    Introducing p new rest next := by
  have distinct := List.nodup_cons.mp introducing.distinct
  have atMost : (next.heap iface).ver ≤ ver := by
    rcases provided.found with old | ⟨_, created⟩
    · have known := checkInterface_some old
      have kept := (provided.kept iface (between.allocated iface known.1)).2.2
      rw [introducing.lookup registry between] at old
      have start := registry.allocated iface (checkInterface_some old).1
      rw [kept, (introducing.extended.kept iface start).2.2]
      exact exact' iface old
    · rw [created]
      exact UInt64.le_refl _
  refine ⟨distinct.2, introducing.extended.trans provided.extends, ?_, ?_⟩
  · intro other listed fresh
    have choice : other = iface ∨ other ∈ middle.ifaces.items := by
      rcases provided.items with same | grown
      · exact Or.inr (same ▸ listed)
      · rw [grown] at listed
        simpa [or_comm] using listed
    rcases choice with rfl | old
    · rw [provided.sameFunc]
      exact distinct.1
    · rw [(provided.kept other (between.allocated other old)).2.1]
      exact fun member => introducing.created other old fresh (List.mem_cons_of_mem _ member)
  · intro other item member
    rcases provided.locals other item member with old | ⟨rfl, rfl⟩
    · obtain ⟨mod, func, same⟩ := provided.kept other (between.allocated other (between.lists old))
      rcases introducing.listings other item old with ⟨intro, known, backs⟩ | backs | outside
      · exact Or.inl ⟨intro, known, backs.same mod func same⟩
      · exact Or.inr (Or.inl (backs.same mod func same))
      · exact Or.inr (Or.inr outside)
    · refine Or.inr (Or.inl ⟨own.symm, provided.sameMod.symm, ?_⟩)
      rw [provided.sameFunc]
      exact offers_of_version found read atMost

theorem Backed.introduces {name : String} {pid : Int32} {desc : Option String}
    {provides : ZHash Unpacked} {middle : Proxy} (registry : Registry p)
    (introduces : Introduces env message name pid desc provides p middle q)
    (unlisted : message.identity ∉ p.modules → ∀ iface ∈ p.ifaces.items,
      ∀ item ∈ (p.heap iface).locals, item.text ≠ message.identity)
    (exact' : ∀ function value ver iface, provides.lookup function = some value →
      value.version = .ok ver → checkInterface p.ifaces p.heap name function ver = some iface →
      (p.heap iface).ver ≤ ver)
    (backed : Backed p) : Backed q := by
  let new : Introduction := ⟨message.identity, name, provides⟩
  obtain ⟨ready, apart⟩ := registry.introducing message middle.procman
  have start : Introducing (p.introducing middle.procman) new (env.visit provides.keys)
      (p.introducing middle.procman) := by
    refine ⟨?_, .refl _, fun iface listed fresh => absurd listed fresh, ?_⟩
    · exact (env.visit_perm _).nodup_iff.mpr provides.nodupKeys
    · intro iface item member
      by_cases registered : item.text ∈ p.modules
      · exact Or.inl (backed iface item member registered)
      · refine Or.inr (Or.inr ⟨registered, fun same => ?_⟩)
        rw [same] at registered
        exact unlisted registered iface (registry.lists member) item member same
  obtain ⟨done, _, _⟩ := provideFunctions_invariant (Introducing (p.introducing middle.procman) new)
    (fun function rest value ver iface state next found read between provided introducing =>
      introducing.provided ready between rfl found read
        (fun iface => exact' function value ver iface found read) provided)
    ready apart introduces.functions start
  have kept := done.extended.same
  intro iface item member registered
  have heap : q.heap = middle.heap := by
    rw [introduces.registers, sendMessage_heap]
    rfl
  have introduced : q.introduced = new :: p.introduced := by
    rw [introduces.registers, sendMessage_introduced, registerModule, zstrSend_introduced, kept]
    rfl
  rw [heap] at member ⊢
  rw [introduced]
  rcases done.listings iface item member with ⟨intro, known, backs⟩ | backs | ⟨absent, other⟩
  · exact ⟨intro, List.mem_cons_of_mem _ known, backs⟩
  · exact ⟨new, List.mem_cons_self, backs⟩
  · rcases (introduces.mem_modules registry item.text).mp registered with same | old
    · exact absurd same other
    · exact absurd old absent

theorem Backed.withoutModule (registry : Registry p) (mod : Module) (backed : Backed p) :
    Backed (p.withoutModule mod) := by
  intro iface item member registered
  have listed : item ∈ (p.heap iface).locals := by
    have here : item ∈ ((p.unlisted mod.identity).heap iface).locals := member
    rw [unlisted_locals registry] at here
    exact List.mem_of_mem_eraseP here
  obtain ⟨other, stays⟩ := AList.mem_erase.mp registered
  have same := unlisted_heap registry mod.identity iface
  obtain ⟨intro, known, backs⟩ := backed iface item listed stays
  refine ⟨intro, List.mem_filter.mpr ⟨known, ?_⟩, backs.same same.mod same.func same.ver⟩
  simpa [backs.1] using other

theorem Backed.step (registry : Registry p) (allowed : ExactIntroductions conf p (env, event))
    (run : p.step conf env event = .ok q) (backed : Backed p) : Backed q := by
  cases step_cases run with
  | calm calm => exact backed.calm calm
  | handled _ calm => exact (backed.arrived _).calm calm
  | queued _ _ _ _ placement _ result =>
      subst result
      exact ((backed.arrived _).calm (placeCall_outcome placement).calm.1).frame rfl rfl rfl
  | listed _ _ _ listing => exact (backed.arrived _).listed (registry.arrived _) listing
  | @introduced message read isIntroduce introduction =>
      rcases processIntroduce_ok introduction with asked | ⟨accepted, name, _, _, provides, _,
        introduces⟩
      · exact (backed.arrived _).calm (.procman asked)
      · obtain ⟨_, unlisted, offers⟩ := allowed message read isIntroduce accepted
        refine Backed.introduces (registry.arrived message) introduces ?_ ?_ (backed.arrived message)
        · simpa using unlisted
        · intro function value ver iface found offered
          simpa using offers name provides function value ver iface introduces.named
            introduces.provided found offered
  | @removed mod before _ same calm _ =>
      have middle : Registry before := by
        rw [same]
        exact registry.frame rfl rfl (Nat.le_refl _) (fun _ _ => id) (fun _ _ => id)
          registry.fabKey
      have start : Backed before := by
        rw [same]
        exact backed.frame rfl rfl rfl
      exact (start.withoutModule middle mod).calm calm
  | asked _ _ _ same =>
      rw [same]
      exact backed.frame rfl rfl rfl
  | @expired key fab _ _ _ same =>
      rw [same]
      intro iface item member registered
      have listed : item ∈ (p.heap iface).locals := by
        have here : item ∈ ((p.unlisted fab.identity).heap iface).locals := member
        rw [unlisted_locals registry] at here
        exact List.mem_of_mem_eraseP here
      have kept := unlisted_heap registry fab.identity iface
      obtain ⟨intro, known, backs⟩ := backed iface item listed registered
      exact ⟨intro, known, backs.same kept.mod kept.func kept.ver⟩
  | connected _ _ same =>
      rw [same]
      exact backed.frame rfl rfl rfl

/-! What a placement sends. -/

def SoundSend (p : Proxy) (sent : Sent) : Prop :=
  ∀ call, sent.cause.dispatched = some call → ∀ via, call.routedVia = some via → via ∈ p.modules →
    Authorized p.introduced call via

theorem ChosenFrom.first (registry : Registry p) (separated : Separated p) {via : String}
    (copied : ∀ globals, placed.globals = some globals → ∀ name ∈ globals.items, ':' ∈ name.toList)
    (chosen : ChosenFrom message p iface placed) (routed : placed.routedVia = some via)
    (registered : via ∈ p.modules) :
    ∃ head rest, (p.heap iface).locals = head :: rest ∧ head.text = via := by
  rcases chosen with choice | ⟨_, routes, _⟩
  · obtain ⟨head, rest, mod, locals, _, result⟩ := choice.head registry separated
    refine ⟨head, rest, locals, ?_⟩
    rw [routed] at result
    split at result
    · exact (Option.some.inj result).symm
    · cases result
  · obtain ⟨_, globals, copies, member⟩ := routes via routed
    exact absurd (copied globals copies via member) (separated.modules via registered)

theorem PlaceOutcome.sound {rc : Int} (registry : Registry p) (separated : Separated p)
    (backed : Backed p)
    (copied : ∀ globals, message.globals = some globals → ∀ name ∈ globals.items, ':' ∈ name.toList)
    (serves : ∀ iface, PlacedOn message p iface placed q → message.module = some (p.heap iface).mod ∧
      message.function = some (p.heap iface).func ∧ message.version ≤ (p.heap iface).ver)
    (outcome : PlaceOutcome env message p rc placed q) : Sends (SoundSend p) p q := by
  refine outcome.sends ?_
  intro iface via sent on chosen routed dispatched _ _ call same target routedCall registered
  rw [dispatched] at same
  cases same
  rw [routed] at routedCall
  cases routedCall
  obtain ⟨head, rest, locals, rfl⟩ := chosen.first registry separated
    (fun globals copies => on.endpoints separated copied copies) routed registered
  obtain ⟨module, function, version⟩ := serves iface on
  obtain ⟨intro, known, identity, name, offers⟩ := backed iface head (by simp [locals]) registered
  refine ⟨intro, known, identity, ?_, (p.heap iface).func, ?_, ?_⟩
  · rw [on.same, name]
    exact module
  · rw [on.same]
    exact function
  · rw [on.same]
    exact offers_earlier offers version

theorem placesOnly_sound (registry : Registry p) (separated : Separated p) (backed : Backed p) :
    PlacesOnly env (SoundSend p) p := by
  intro middle key queued rc placed after calm found outcome
  have between := registry.calm calm
  have apart := separated.calm registry calm
  have sound := outcome.sound between apart (backed.calm calm)
    (fun globals => apart.copies key queued globals found) (by
      intro iface on
      obtain ⟨bound, assigned, _, serves⟩ := (between.calls key queued found).iface
      rcases on.binds with same | ⟨unassigned, _⟩
      · rw [assigned] at same
        cases same
        exact serves
      · rw [assigned] at unassigned
        cases unassigned)
  refine sound.mono fun sent good call same via routed member => ?_
  rw [← calm.introduced]
  exact good call same via routed ((calm.mem_modules via).mpr member)

theorem step_sound (registry : Registry p) (separated : Separated p) (backed : Backed p)
    (run : p.step conf env event = .ok q) : Sends (SoundSend p) p q := by
  have same : ∀ message sent, SoundSend (p.arrived message) sent → SoundSend p sent := by
    intro message sent
    simp [SoundSend]
  refine step_sends ?_ ?_ registry ?_ ?_ run
  · intro sent none _ _ call some
    rw [none] at some
    cases some
  · intro sent answered answers _ call some
    cases cause : sent.cause <;> simp [cause, Cause.answers, Cause.dispatched] at answers some
  · intro message middle key queued rc placed after calm found outcome
    exact (placesOnly_sound (registry.arrived message) (separated.arrived message)
      (backed.arrived message) middle key queued rc placed after calm found outcome).mono
      (same message)
  · intro message call rc placed middle read _ parsed outcome
    have arrives := Event.message_arrives read
    have parsedSame := readCall_ok parsed
    refine (outcome.sound (registry.arrived message) (separated.arrived message)
      (backed.arrived message) ?_ ?_).mono (same message)
    · intro globals copied
      rw [parsedSame, arrives.globals] at copied
      cases copied
    · intro iface on
      exact (on.serves (by rw [parsedSame]; exact arrives.iface)).2

/-- While introductions find interfaces of no later version than they offer,
every call that a step sends to a registered module is one that the module
introduced itself for. -/
theorem dispatch_sound (reached : Reaches (fabric conf) (ExactIntroductions conf) p)
    (run : p.step conf env event = .ok q) {sent : Sent} {call : Message} {via : String}
    (added : sent ∈ q.sent.drop p.sent.length) (dispatched : sent.cause.dispatched = some call)
    (routed : call.routedVia = some via) (registered : via ∈ p.modules) :
    Authorized p.introduced call via := by
  have both : Separated p ∧ Backed p := by
    refine fabric_invariant (fun state => Separated state ∧ Backed state) reached
      ⟨separated_new, fun _ _ member => (by cases member)⟩ ?_
    rintro env event state next allowed move registry ⟨separated, backed⟩
    exact ⟨separated.step registry (fun message read isIntroduce accepted =>
      (allowed message read isIntroduce accepted).1) move, backed.step registry allowed move⟩
  exact (step_sound (registry_reaches reached) both.1 both.2 run).added sent added call dispatched
    via routed registered

theorem exactIntroductions_new (zmsg : List Frame) (answer : String) :
    ExactIntroductions conf proxyNew (env, .localMsg zmsg answer) := by
  intro message read _ _
  obtain ⟨_, _, _, _, _, _, rfl⟩ := messageFromzmq_some (toOption_join read)
  refine ⟨rfl, fun _ iface listed => (by cases listed), ?_⟩
  intro name provides function value ver iface _ _ _ _ found
  cases (checkInterface_some found).1

theorem dispatch_sound_single :
    let p := proxyNew.after plainConf early
      (.localMsg (introduceOf worker "mod" 77 [("f", 2)]) "yes")
    let q := p.after plainConf early (.localMsg (callOf caller "mod" "f" 1 "call-1") "")
    (q.sent.drop p.sent.length).length = 1 ∧
      ∀ sent ∈ q.sent.drop p.sent.length, ∀ call ∈ sent.cause.dispatched, ∀ via ∈ call.routedVia,
        Authorized p.introduced call via := by
  intro p q
  have reached : Reaches (fabric plainConf) (ExactIntroductions plainConf) p :=
    (Reaches.initial rfl).extend (.single (exactIntroductions_new _ _) (step_after (by decide)))
  have registered : ∀ sent ∈ q.sent.drop p.sent.length, ∀ call ∈ sent.cause.dispatched,
      ∀ via ∈ call.routedVia, via ∈ p.modules := by decide
  refine ⟨by decide, fun sent added call dispatched via routed => ?_⟩
  exact dispatch_sound reached (step_after (by decide)) added dispatched routed
    (registered sent added call dispatched via routed)

def joinedLater : List (Env × Event) := [
  (early, .localMsg (introduceOf worker "mod" 77 [("f", 2)]) "yes"),
  (early, .localMsg (introduceOf caller "mod" 78 [("f", 1)]) "yes"),
  (early, .procman "remove" "77")]

theorem dispatch_unsound :
    ¬ ∀ conf env event p q, Reaches (fabric conf) anything p → p.step conf env event = .ok q →
      ∀ sent ∈ q.sent.drop p.sent.length, ∀ call ∈ sent.cause.dispatched,
        ∀ via ∈ call.routedVia, via ∈ p.modules → Authorized p.introduced call via := by
  intro always
  have reached : Reaches (fabric plainConf) anything (fabricAfter plainConf joinedLater) :=
    fabricAfter_reaches (fun _ _ _ => trivial) (by decide)
  have sound := always plainConf early (.localMsg (callOf caller "mod" "f" 2 "call-1") "") _ _
    reached (step_after (by decide))
  revert sound
  decide

end

end ModBus
