import ModBus.Network
import ModBus.Snapshot

/-! What fabrics come to know of each other. Lists get lost, overtaken and
delivered twice, but nothing stands in a registry that was not advertised. -/

namespace ModBus

open Libc Czmq Transition

def listedIn (payload : Object) : List (String × String × UInt64) :=
  match messageGetIfaceList (messageNew 0 0 false "" payload "" "") with
  | .ok (some paths) => paths.filterMap pathTriple
  | _ => []

/-- The functions of local modules, as they are read from their printed paths. -/
def Proxy.advertised (p : Proxy) : List (String × String × UInt64) :=
  ((localPaths p.heap p.ifaces.items).map cString).filterMap pathTriple

def Covers (list : List (String × String × UInt64)) (iface : Iface) : Prop :=
  ∃ ver, (iface.mod, iface.func, ver) ∈ list ∧ ver ≤ iface.ver

def Sourced (told : String → Iface → Prop) (p : Proxy) : Prop :=
  ∀ iface ∈ p.ifaces.items, ∀ item ∈ (p.heap iface).globals, told item.text (p.heap iface)

def Nominal (told : String → Iface → Prop) : Prop :=
  ∀ name iface other, other.triple = iface.triple → told name iface → told name other

def Told {Index : Type} (endpoint : Index → String) (net : Index → Proxy) (part : Index)
    (name : String) (iface : Iface) : Prop :=
  ∃ source, endpoint source = name ∧ ∃ sent ∈ (net source).sent, sent.ok = true ∧
    sent.dest = .peer (endpoint part) ∧ Covers (listedIn sent.payload) iface

def Advertises (p : Proxy) (sent : Sent) : Prop :=
  sent.cause.answers = none → sent.cause.dispatched = none →
    listedIn sent.payload ⊆ p.advertised

def OnceAdvertised {Index : Type} [DecidableEq Index] (conf : Index → Config)
    (endpoint : Index → String) (net : Index → Proxy) (source : Index)
    (triple : String × String × UInt64) : Prop :=
  ∃ earlier, Reaches (fabrics conf endpoint) anything earlier ∧
    Run (fabrics conf endpoint) anything earlier net ∧ triple ∈ (earlier source).advertised

section

variable {conf : Config} {env : Env} {event : Event} {p q : Proxy} {message : Message} {fab : Fabric}
  {told : String → Iface → Prop} {mod func : String} {ver : UInt64} {iface : Addr}
  {loc glob : CStr → Prop}

theorem triple_eq {iface other : Iface} (mod : other.mod = iface.mod)
    (func : other.func = iface.func) (ver : other.ver = iface.ver) : other.triple = iface.triple := by
  rw [Iface.triple, Iface.triple, mod, func, ver]

theorem Sourced.provided (registry : Registry p) (nominal : Nominal told)
    (provided : Provided mod func ver loc glob iface p q)
    (new : ∀ item, glob item → told item.text (q.heap iface)) (sourced : Sourced told p) :
    Sourced told q := by
  intro other _ item member
  rcases provided.globals other item member with old | ⟨rfl, now⟩
  · have listed : other ∈ p.ifaces.items := by
      by_contra absent
      rw [(registry.unlisted other absent).2] at old
      cases old
    obtain ⟨sameMod, sameFunc, sameVer⟩ := provided.kept other (registry.allocated other listed)
    exact nominal _ _ _ (triple_eq sameMod sameFunc sameVer) (sourced other listed item old)
  · exact new item now

theorem Sourced.frame (nominal : Nominal told) (ifaces : q.ifaces = p.ifaces)
    (same : p.SameHeap q) (sourced : Sourced told p) : Sourced told q := by
  intro iface listed item member
  rw [(same iface).globals] at member
  exact nominal _ _ _ (triple_eq (same iface).mod (same iface).func (same iface).ver)
    (sourced iface (ifaces ▸ listed) item member)

theorem Sourced.unlist (registry : Registry p) (nominal : Nominal told) (identity : CStr)
    (sourced : Sourced told p) : Sourced told (p.unlisted identity) := by
  intro iface listed item member
  rw [unlisted_items registry] at listed
  rw [unlisted_globals registry] at member
  have heap := unlisted_heap registry identity iface
  exact nominal _ (p.heap iface) _ (triple_eq heap.mod heap.func heap.ver)
    (sourced iface (List.mem_of_mem_filter listed) item (List.mem_of_mem_eraseP member))

/-- Each path of the list leaves the fabric listed for what it was told of. -/
theorem Sourced.triples {triples : List (String × String × UInt64)} (registry : Registry p)
    (nominal : Nominal told)
    (heard : ∀ entry : Iface, Covers triples entry → told fab.identity.text entry)
    (run : provideTriples fab triples p = .ok q) (sourced : Sourced told p) : Sourced told q := by
  induction triples generalizing p with
  | nil =>
      cases run
      exact sourced
  | cons triple triples ih =>
      obtain ⟨mod, func, ver⟩ := triple
      simp only [provideTriples] at run
      split at run
      · cases run
      · rename_i middle provision
        obtain ⟨iface, _, _, _, provided⟩ := provideGlobal_ok registry provision
        refine ih (registry.provideGlobal provision) ?_ run
          (sourced.provided registry nominal provided ?_)
        · rintro entry ⟨ver', member, above⟩
          exact heard entry ⟨ver', List.mem_cons_of_mem _ member, above⟩
        · rintro item same
          rw [same]
          refine heard _ ⟨ver, ?_, provided.above⟩
          rw [provided.sameMod, provided.sameFunc]
          exact List.mem_cons_self

theorem messageGetIfaceList_object (message : Message) :
    messageGetIfaceList message =
      messageGetIfaceList (messageNew 0 0 false "" message.object "" "") := rfl

theorem Sourced.list (registry : Registry p) (nominal : Nominal told)
    (heard : ∀ entry : Iface, message.identity ∈ p.fabList →
      Covers (listedIn message.object) entry → told message.identity entry)
    (run : processIfaceList message p = .ok q) (sourced : Sourced told p) : Sourced told q := by
  rcases processIfaceList_ok run with rfl | ⟨paths, fab, read, found, provided⟩
  · exact sourced
  · rw [providePaths_eq] at provided
    have list : listedIn message.object = paths.filterMap pathTriple := by
      rw [listedIn, ← messageGetIfaceList_object, read]
    refine sourced.triples registry nominal ?_ provided
    rw [registry.fabKey _ _ found, ← list]
    exact fun entry => heard entry (ZHash.mem_of_lookup found)

theorem Sourced.introduces {name : String} {pid : Int32} {desc : Option String}
    {provides : ZHash Unpacked} {middle : Proxy} (registry : Registry p) (nominal : Nominal told)
    (introduces : Introduces env message name pid desc provides p middle q)
    (sourced : Sourced told p) : Sourced told q := by
  obtain ⟨before, apart⟩ := registry.introducing message middle.procman
  have start : Sourced told (p.introducing middle.procman) := sourced
  obtain ⟨after, _⟩ := provideFunctions_invariant (fun _ => Sourced told)
    (fun _ _ _ _ _ _ _ _ _ registry provided holds =>
      holds.provided registry nominal provided fun _ none => none.elim)
    before apart introduces.functions start
  rw [introduces.registers]
  refine Sourced.frame nominal ?_ ?_ after
  · rw [sendMessage_ifaces]
    rfl
  · intro iface
    rw [sendMessage_heap]
    exact Iface.Same.refl _

/-- A fabric that is listed after an event was listed before, or is one whose list
the event brings. -/
theorem Sourced.step (registry : Registry p) (nominal : Nominal told)
    (heard : ∀ message (entry : Iface), event.message env p = some message →
      message.command = "result" → message.identity ∈ p.fabList →
      Covers (listedIn message.object) entry → told message.identity entry)
    (run : p.step conf env event = .ok q) (sourced : Sourced told p) : Sourced told q := by
  have arrives : ∀ message, Sourced told (p.arrived message) := fun message =>
    sourced.frame nominal (by simp) fun iface => by
      rw [arrived_heap]
      exact Iface.Same.refl _
  cases step_cases run with
  | calm calm => exact sourced.frame nominal calm.ifaces calm.sameHeap
  | @handled message _ calm => exact (arrives message).frame nominal calm.ifaces calm.sameHeap
  | @queued message _ _ _ _ _ _ _ placement _ result =>
      have calm := (placeCall_outcome placement).calm.1
      rw [result]
      exact (arrives message).frame nominal calm.ifaces calm.sameHeap
  | @listed message read isResult _ listing =>
      refine (arrives message).list (registry.arrived message) nominal ?_ listing
      intro entry known covers
      rw [mem_arrived_fabList] at known
      exact heard message entry read isResult known covers
  | @introduced message _ _ introduction =>
      rcases processIntroduce_ok introduction with asked | ⟨_, _, _, _, _, _, introduces⟩
      · rw [asked]
        exact arrives message
      · exact (arrives message).introduces (registry.arrived message) nominal introduces
  | @removed mod before _ same calm _ =>
      have there : Registry before := by
        rw [same]
        exact registry.frame rfl rfl (Nat.le_refl _) (fun _ _ => id) (fun _ _ => id)
          registry.fabKey
      have start : Sourced told before := by
        rw [same]
        exact sourced
      have removed : Sourced told (before.withoutModule mod) :=
        start.unlist there nominal mod.identity
      exact removed.frame nominal calm.ifaces calm.sameHeap
  | asked _ _ _ same =>
      rw [same]
      exact sourced
  | @expired _ fab _ _ _ same =>
      rw [same]
      exact sourced.unlist registry nominal fab.identity
  | connected _ _ same =>
      rw [same]
      exact sourced

theorem listedIn_packed {paths : List String} {actionid : String}
    (plain : ∀ path ∈ paths, Plain path) :
    listedIn (packIfaceList paths actionid) = paths.filterMap pathTriple := by
  have read : ∀ message : Message, message.object = packIfaceList paths actionid →
      messageGetIfaceList message = .ok (some paths) := fun _ => messageGetIfaceList_packed plain
  rw [listedIn, read (messageNew 0 0 false "" (packIfaceList paths actionid) "" "") rfl]

theorem response_advertised {actionid : String} {object : Object}
    (packs : messageIfacelistResponse p.ifaces p.heap actionid = .ok object) :
    listedIn object = p.advertised := by
  obtain ⟨paths, listed, packs⟩ := bind_ok.mp packs
  cases packs
  obtain ⟨_, rfl⟩ := ifacePaths_iff.mp listed
  rw [listedIn_packed (localPaths_plain _ _), Proxy.advertised]

theorem advertises_replies (p : Proxy) (sent : Sent) (call : Message)
    (answers : sent.cause.answers = some call) : Advertises p sent := by
  intro none
  rw [answers] at none
  cases none

theorem advertises_dispatch (p : Proxy) (sent : Sent) {placed : Message}
    (dispatched : sent.cause.dispatched = some placed) : Advertises p sent := by
  intro _ none
  rw [dispatched] at none
  cases none

theorem advertises_places (p r : Proxy) : PlacesOnly env (Advertises p) r :=
  fun _ _ _ _ _ _ _ _ outcome =>
    outcome.sends fun _ _ sent _ _ _ dispatched _ _ => advertises_dispatch p sent dispatched

theorem advertises_nothing (p : Proxy) {sent : Sent} (silent : listedIn sent.payload = []) :
    Advertises p sent := by
  intro _ _
  rw [silent]
  exact List.nil_subset _

theorem step_advertises (registry : Registry p) (run : p.step conf env event = .ok q) :
    Sends (Advertises p) p q := by
  cases step_handled run with
  | unreadable _ same => exact .of_eq (same ▸ rfl)
  | @command message read commanded =>
      have registry' := registry.arrived message
      have plain : message.command ≠ "introduce" → NoIntroduction message.object := fun other =>
        noIntroduction_of_command (Event.message_command read) other
      refine Sends.frame (p := p.arrived message) ?_ (arrived_sent message p).symm
      cases commanded with
      | ignored _ same => exact .of_eq (same ▸ rfl)
      | request _ requested =>
          rcases processRequest_ok requested with rfl | ⟨msg, fab, _, packs, rfl⟩
          · exact .refl _
          · refine Sends.sendMessage _ _ fun _ _ _ _ _ => ?_
            rw [response_advertised packs]
            intro triple member
            simpa [Proxy.advertised] using member
      | result isResult answered =>
          exact processResult_sends (fun sent call answers _ => advertises_replies p sent call answers)
            registry' (advertises_places p _) (plain (by simp [isResult])) answered
      | call _ called =>
          refine processCall_sends (fun sent call answers _ => advertises_replies p sent call answers)
            called ?_
          intro call rc placed middle _ outcome
          exact outcome.sends fun _ _ sent _ _ _ dispatched _ _ => advertises_dispatch p sent dispatched
      | exception isException answered =>
          exact processException_sends (fun sent call answers _ => advertises_replies p sent call answers)
            (advertises_places p _) (plain (by simp [isException])) answered
      | introduce _ introduced =>
          rcases processIntroduce_ok introduced with asked | ⟨_, _, _, _, _, _, introduces⟩
          · exact .of_eq (by rw [asked])
          · have kept := (introduces.extends registry').same
            rw [introduces.registers]
            refine Sends.frame (Sends.sendMessage _ _ fun _ _ _ => advertises_nothing p rfl) ?_
            rw [registerModule, zstrSend_sent, kept]
            rfl
  | procman _ notified =>
      rcases sProcmanEvent_ok notified with same | ⟨key, mod, _, _, same⟩
      · exact .of_eq (same ▸ rfl)
      · exact .of_eq (by rw [noticed_same same])
  | @queueItem key _ run =>
      rcases processQueueItem_ok run with ⟨same, _⟩ | ⟨call, msg, _, _, same⟩
      · exact .of_eq (by rw [same])
      · rw [same]
        exact Sends.frame (Sends.sendMessage _ _ fun _ _ _ => advertises_replies p _ call rfl)
          (unstuck_sent conf env call p).symm
  | @fabItem key _ run =>
      rcases getIfaceListEventItem_ok run with same | ⟨fab, _, ⟨_, same⟩ | ⟨_, same⟩⟩
      · exact .of_eq (by rw [same])
      · rw [same]
        exact Sends.sendMessage _ p fun _ _ _ => advertises_nothing p rfl
      · refine .of_eq ?_
        rw [same]
        rfl
  | beacon _ announced =>
      rcases sBeaconEvent_ok announced with same | ⟨identity, _, _, same⟩
      · exact .of_eq (same ▸ rfl)
      · exact .of_eq (same ▸ rfl)

/-! A poll and its answer. -/

end

section

variable {Index : Type} {endpoint : Index → String} {net : Index → Proxy} {part : Index}

theorem told_nominal : Nominal (Told endpoint net part) := by
  rintro name iface other same ⟨source, named, sent, member, ok, dest, ver, listed, above⟩
  simp only [Iface.triple, Prod.mk.injEq] at same
  refine ⟨source, named, sent, member, ok, dest, ver, ?_, ?_⟩
  · rw [same.1, same.2.1]
    exact listed
  · rw [same.2.2]
    exact above

theorem arrives_told {env : Env} {event : Event} {message : Message} {entry : Iface}
    (separated : Separated (net part)) (received : Receives endpoint net part (env, event))
    (read : event.message env (net part) = some message)
    (known : message.identity ∈ (net part).fabList)
    (covers : Covers (listedIn message.object) entry) :
    Told endpoint net part message.identity entry := by
  cases event with
  | localMsg zmsg answer =>
      obtain ⟨frame, payload, _, _, _, _, rfl⟩ := messageFromzmq_some (toOption_join read)
      exact absurd (separated.fabrics _ known) (colon_notMem_strhex frame.data)
  | globalMsg zmsg answer =>
      obtain ⟨source, sent, member, frame, data, ok, dest, named, rfl⟩ := received zmsg answer rfl
      have object : some sent.payload = some message.object :=
        messageFromzmq_object (toOption_join read)
      refine ⟨source, ?_, sent, member, ok, dest, ?_⟩
      · obtain ⟨_, _, _, _, _, same, rfl⟩ := messageFromzmq_some (toOption_join read)
        rw [List.cons.injEq] at same
        rw [← named, same.1]
        rfl
      · rw [Option.some.inj object]
        exact covers
  | procman => cases read
  | queueItem => cases read
  | fabItem => cases read
  | beacon => cases read

variable [DecidableEq Index] {conf : Index → Config} {next : Index → Proxy}

theorem network_sent (reached : Reaches (fabrics conf endpoint) anything net)
    (run : Run (fabrics conf endpoint) anything net next) (source : Index) :
    (net source).sent ⊆ (next source).sent := by
  induction run with
  | refl => exact List.Subset.refl _
  | @snoc middle _ label before _ move ih =>
      obtain ⟨_, after, moved, rfl⟩ := move
      by_cases same : source = label.1
      · subst same
        have registry := (neighbours (reached.extend before) label.1).registry
        obtain ⟨more, grown, _⟩ := step_advertises registry moved
        rw [Function.update_self, grown]
        exact fun sent member => List.mem_append_left _ (ih member)
      · rw [Function.update_of_ne same]
        exact ih

theorem Told.later (reached : Reaches (fabrics conf endpoint) anything net)
    (run : Run (fabrics conf endpoint) anything net next) {name : String} {iface : Iface}
    (told : Told endpoint net part name iface) : Told endpoint next part name iface := by
  obtain ⟨source, named, sent, member, rest⟩ := told
  exact ⟨source, named, sent, network_sent reached run source member, rest⟩

theorem sourced_reaches (reached : Reaches (fabrics conf endpoint) anything net) :
    ∀ part, Sourced (Told endpoint net part) (net part) := by
  refine reached.invariant_reached (fun net =>
    ∀ part, Sourced (Told endpoint net part) (net part)) ?_ ?_
  · intro net start part iface listed
    rw [show net part = proxyNew from start part] at listed
    cases listed
  · rintro net ⟨mover, env, event⟩ next before _ move sourced part
    have run : Run (fabrics conf endpoint) anything net next := .single trivial move
    have kept : Sourced (Told endpoint next part) (net part) := fun iface listed item member =>
      (sourced part iface listed item member).later before run
    obtain ⟨received, after, moved, rfl⟩ := move
    by_cases moves : part = mover
    · subst moves
      have neighbour := neighbours before part
      rw [Function.update_self]
      refine kept.step neighbour.registry told_nominal ?_ moved
      intro message entry read _ known covers
      exact (arrives_told neighbour.separated received read known covers).later before run
    · rw [Function.update_of_ne moves]
      exact kept

theorem onceAdvertised_reaches (reached : Reaches (fabrics conf endpoint) anything net) :
    ∀ source, ∀ sent ∈ (net source).sent, sent.cause.answers = none →
      sent.cause.dispatched = none → ∀ triple ∈ listedIn sent.payload,
        OnceAdvertised conf endpoint net source triple := by
  refine reached.invariant_reached (fun net => ∀ source, ∀ sent ∈ (net source).sent,
    sent.cause.answers = none → sent.cause.dispatched = none → ∀ triple ∈ listedIn sent.payload,
      OnceAdvertised conf endpoint net source triple) ?_ ?_
  · intro net start source sent member
    rw [show net source = proxyNew from start source] at member
    cases member
  · rintro net ⟨mover, env, event⟩ next before _ move once source sent member own alone triple listed
    have run : Run (fabrics conf endpoint) anything net next := .single trivial move
    have later : OnceAdvertised conf endpoint net source triple →
        OnceAdvertised conf endpoint next source triple := by
      rintro ⟨earlier, there, since, advertised⟩
      exact ⟨earlier, there, since.trans run, advertised⟩
    obtain ⟨_, after, moved, rfl⟩ := move
    by_cases moves : source = mover
    · subst moves
      obtain ⟨more, grown, advertises⟩ := step_advertises (neighbours before source).registry moved
      rw [Function.update_self, grown] at member
      rcases List.mem_append.mp member with old | new
      · exact later (once source sent old own alone triple listed)
      · exact ⟨net, before, run, advertises sent new own alone listed⟩
    · rw [Function.update_of_ne moves] at member
      exact later (once source sent member own alone triple listed)

/-- Whoever a fabric lists for a function has sent it a list with that function, in
a version that is no newer; and unless that was somebody's call or answer that it
passed on, it advertised the function itself at some time before. -/
theorem discovery_sound (reached : Reaches (fabrics conf endpoint) anything net) (part : Index) :
    ∀ iface ∈ (net part).ifaces.items, ∀ item ∈ ((net part).heap iface).globals,
      ∃ source sent ver, endpoint source = item.text ∧ sent ∈ (net source).sent ∧
        sent.ok = true ∧ sent.dest = .peer (endpoint part) ∧
        ((((net part).heap iface).mod, ((net part).heap iface).func, ver) ∈
          listedIn sent.payload) ∧
        ver ≤ ((net part).heap iface).ver ∧
        (sent.cause.answers = none → sent.cause.dispatched = none →
          OnceAdvertised conf endpoint net source
            (((net part).heap iface).mod, ((net part).heap iface).func, ver)) := by
  intro iface listed item member
  obtain ⟨source, named, sent, sends, ok, dest, ver, covered, above⟩ :=
    sourced_reaches reached part iface listed item member
  exact ⟨source, sent, ver, named, sends, ok, dest, covered, above,
    fun own alone => onceAdvertised_reaches reached source sent sends own alone _ covered⟩

end

/-- Each of the two lists the other one. -/
theorem discovery_sound_bothProvide :
    (((fabricsAfter bothProvide true).heap 3).globals.map CStr.text = [endpoints false]) ∧
      ∀ iface ∈ (fabricsAfter bothProvide true).ifaces.items,
        ∀ item ∈ ((fabricsAfter bothProvide true).heap iface).globals,
        ∃ source sent ver, endpoints source = item.text ∧
          sent ∈ (fabricsAfter bothProvide source).sent ∧
          sent.ok = true ∧ sent.dest = .peer (endpoints true) ∧
          ((((fabricsAfter bothProvide true).heap iface).mod,
            ((fabricsAfter bothProvide true).heap iface).func, ver) ∈ listedIn sent.payload) ∧
          ver ≤ ((fabricsAfter bothProvide true).heap iface).ver ∧
          (sent.cause.answers = none → sent.cause.dispatched = none →
            OnceAdvertised (fun _ => plainConf) endpoints (fabricsAfter bothProvide) source
              (((fabricsAfter bothProvide true).heap iface).mod,
                ((fabricsAfter bothProvide true).heap iface).func, ver)) :=
  ⟨by decide +kernel, discovery_sound bothProvide_reaches true⟩

def provider : List (Env × Event) :=
  [(early, .beacon ("modbus@" ++ peerName)),
    (early, .localMsg (introduceOf worker "mod" 77 [("f", 1)]) "yes")]

end ModBus
