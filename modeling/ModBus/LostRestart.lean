import ModBus.Handshake
import ModBus.Integrity

/-! A process that is found dead is reported once. Who restarts it then, and when
nobody does. -/

namespace ModBus

open Libc Czmq Transition

def FoundDead (bus : Bus) (key : String) : Prop :=
  ∃ proc, bus.procman.procs.lookup key = some proc ∧ proc.onRestart = true

def Tended (bus : Bus) (key : String) : Prop :=
  ("restart", key) ∈ bus.messages ∨ .restart key ∈ bus.commands ∨
    ∃ id mod, bus.proxy.modules.lookup id = some mod ∧ mod.pid = atoi key ∧
      (mod.state = .restarting ∨ mod.needRestart = true ∨
        mod.state = .busy ∧ ∃ actionid call, bus.proxy.queue.lookup actionid = some call ∧
          call.routedVia = some id)

def NoLostRestart (bus : Bus) : Prop :=
  bus.procman.stopAll = false → ∀ key, FoundDead bus key → Tended bus key

def Underway (bus : Bus) (messages : List (String × String)) (key : String) : Prop :=
  ("restart", key) ∈ messages ∨ .restart key ∈ bus.commands ∨
    ∃ id mod, bus.proxy.modules.lookup id = some mod ∧ mod.pid = atoi key ∧
      mod.needRestart = true

/-- Until everything stops, the report of a dead process that no other restart is
underway for reaches the search for its module, not an introduction, and its
module is registered. -/
def Heard (bus : Bus) : BusEvent → Prop
  | .receive _ => bus.procman.stopAll = false →
      ∀ key rest, bus.messages = ("restart", key) :: rest → FoundDead bus key →
        Underway bus rest key ∨ bus.asked = none ∧
          ∃ id mod, bus.proxy.modules.lookup id = some mod ∧ mod.pid = atoi key
  | _ => True

def Followed (key : String) : List (String × String) → Prop
  | [] => True
  | message :: rest =>
      (message = ("remove", key) → ("restart", key) ∈ rest) ∧ Followed key rest

def Tending (bus : Bus) : Prop :=
  bus.procman.stopAll = false → ∀ key, FoundDead bus key → Followed key bus.messages ∧ Underway bus bus.messages key

section

variable {conf : Config} {env : Env} {p q : Proxy} {bus next : Bus} {key text id : String}
  {mod : Module}

theorem Followed.append {messages more : List (String × String)}
    (followed : Followed key messages) (other : ("remove", key) ∉ more) :
    Followed key (messages ++ more) := by
  induction messages with
  | nil =>
      induction more with
      | nil => trivial
      | cons message more ih =>
          rw [List.mem_cons, not_or] at other
          exact ⟨fun same => absurd same.symm other.1, ih other.2⟩
  | cons message messages ih =>
      obtain ⟨here, behind⟩ := followed
      exact ⟨fun same => List.mem_append_left _ (here same), ih behind⟩

theorem Followed.last (messages : List (String × String)) :
    Followed key (messages ++ [("restart", key)]) := by
  induction messages with
  | nil => exact ⟨fun same => by simp at same, trivial⟩
  | cons message messages ih => exact ⟨fun _ => by simp, ih⟩

def Numbered (p : Proxy) : Prop :=
  ∀ id mod, p.modules.lookup id = some mod → mod.sPid = decimal mod.pid.toInt

theorem Numbered.frame (numbered : Numbered p) (modules : q.modules = p.modules) : Numbered q :=
  fun id mod found => numbered id mod (modules ▸ found)

theorem Introduces.modules {message : Message} {name : String} {pid : Int32}
    {desc : Option String} {provides : ZHash Unpacked} {middle : Proxy} (registry : Registry p)
    (introduces : Introduces env message name pid desc provides p middle q) :
    q.modules = (ZHash.insertNew p.modules message.identity
      (introducedModule ⟨p.brk, message.identity⟩ name desc pid provides)).2 := by
  have extended := introduces.extends registry
  have same : middle.modules = p.modules := by
    rw [extended.same]
    rfl
  rw [introduces.registers, sendMessage_modules, registerModule, zstrSend_modules, same]
  rfl

structure CardRule (Holds : Module → Prop) : Prop where
  card : ∀ old new : Module, old.card = new.card → Holds old → Holds new
  introduced : ∀ identity name desc pid provides, pid ≠ 0 →
    Holds (introducedModule identity name desc pid provides)

section

variable {Holds : Module → Prop}

theorem CardRule.calm (rule : CardRule Holds) (calm : Calm p q)
    (holds : ∀ id mod, p.modules.lookup id = some mod → Holds mod) :
    ∀ id mod, q.modules.lookup id = some mod → Holds mod := by
  intro id mod found
  obtain ⟨old, before, card⟩ := calm.lookup found
  exact rule.card old mod card (holds id old before)

theorem processIntroduce_modules {message : Message} {answer : String} (registry : Registry p)
    (run : processIntroduce conf env message answer p = .ok q) :
    q.modules = p.modules ∨ ∃ name desc pid provides, pid ≠ 0 ∧
      q.modules = (ZHash.insertNew p.modules message.identity
        (introducedModule ⟨p.brk, message.identity⟩ name desc pid provides)).2 := by
  rcases processIntroduce_ok run with asked | ⟨_, name, pid, desc, provides, middle, introduces⟩
  · left
    rw [asked]
  · by_cases zero : pid = 0
    · left
      have refused : introduceRequest message = .ok none := by
        rw [introduceRequest, introduces.named]
        simp [bind, Except.bind, introduces.numbered, zero]
        rfl
      rw [processIntroduce, refused] at run
      cases run
      rfl
    · exact Or.inr ⟨name, desc, pid, provides, zero, introduces.modules registry⟩

theorem CardRule.step {event : Event} (rule : CardRule Holds) (registry : Registry p)
    (run : p.step conf env event = .ok q)
    (holds : ∀ id mod, p.modules.lookup id = some mod → Holds mod) :
    ∀ id mod, q.modules.lookup id = some mod → Holds mod := by
  have arrived : ∀ message, ∀ id mod, (p.arrived message).modules.lookup id = some mod →
      Holds mod := by
    intro message
    rw [arrived_modules]
    exact holds
  have same : q.modules = p.modules → ∀ id mod, q.modules.lookup id = some mod → Holds mod := by
    intro modules
    rw [modules]
    exact holds
  cases step_cases run with
  | calm calm => exact rule.calm calm holds
  | @handled message _ calm => exact rule.calm calm (arrived message)
  | @queued message _ _ middle _ _ _ _ placement _ result =>
      have placed := rule.calm (placeCall_outcome placement).calm.1 (arrived message)
      rw [result]
      exact placed
  | @listed message _ _ _ listing =>
      refine same ?_
      rw [(processIfaceList_extends (registry.arrived message) listing).same]
      simp
  | @introduced message _ _ introduction =>
      rcases processIntroduce_modules (registry.arrived message) introduction with kept |
        ⟨name, desc, pid, provides, nonzero, inserted⟩
      · exact same (by simpa using kept)
      · intro id mod found
        rw [inserted, ZHash.lookup_insertNew] at found
        split at found
        · cases found
          exact rule.introduced _ _ _ _ _ nonzero
        · exact arrived message id mod found
  | @removed mod before _ kept calm =>
      refine rule.calm calm fun id other found => ?_
      have there : before.modules.lookup id = some other := (ZHash.lookup_erase_some.mp found).2
      rw [kept] at there
      exact holds id other there
  | asked _ _ _ kept => exact same (by rw [kept])
  | expired _ _ _ kept => exact same (by rw [kept]; rfl)
  | connected _ _ kept => exact same (by rw [kept])

theorem CardRule.reaches {guard : Proxy → Env × Event → Prop} (rule : CardRule Holds)
    (reached : Reaches (fabric conf) guard p) :
    ∀ id mod, p.modules.lookup id = some mod → Holds mod := by
  refine fabric_invariant (fun state => ∀ id mod, state.modules.lookup id = some mod → Holds mod)
    reached ?_ ?_
  · rintro _ _ ⟨⟩
  · exact fun _ _ _ _ _ move registry holds => rule.step registry move holds

end

theorem numbered_rule : CardRule fun mod => mod.sPid = decimal mod.pid.toInt where
  card old new same numbered := by
    obtain ⟨_, _, pid, sPid, _⟩ := card_fields same
    rw [← sPid, ← pid]
    exact numbered
  introduced _ _ _ _ _ _ := rfl

theorem numbered_reaches {guard : Proxy → Env × Event → Prop}
    (reached : Reaches (fabric conf) guard p) : Numbered p :=
  numbered_rule.reaches reached

theorem Joined.numbered (joined : Joined conf bus) : Numbered bus.proxy := by
  obtain ⟨p, reached, ⟨_, same⟩ | ⟨asked, _, asks, same⟩⟩ := joined.main
  · exact same ▸ numbered_reaches reached
  · refine (numbered_reaches reached).frame ?_
    rw [same, checkPid, zstrSend_modules, arrived_modules]

/-! What a notification does to the modules. -/

/-- Unless it removes the module, a notification leaves one that needs a restart
as it is. -/
theorem sProcmanEvent_needs {command : String} (registry : Registry p)
    (run : sProcmanEvent env command text p = .ok q) (found : p.modules.lookup id = some mod)
    (needs : mod.needRestart = true) (stays : command = "remove" → mod.pid ≠ atoi text) :
    ∃ new, q.modules.lookup id = some new ∧ new.pid = mod.pid ∧ new.needRestart = true := by
  have same : ∃ new, p.modules.lookup id = some new ∧ new.pid = mod.pid ∧ new.needRestart = true :=
    ⟨mod, found, rfl, needs⟩
  rcases sProcmanEvent_ok run with rfl | ⟨key, other, _, named, result⟩
  · exact same
  · obtain ⟨there, pid⟩ := namedModule_some named
    have changed : ∀ new : Module, new.pid = other.pid →
        (other.needRestart = true → new.needRestart = true) →
        ∃ after, (ZHash.update p.modules key new).lookup id = some after ∧
          after.pid = mod.pid ∧ after.needRestart = true := by
      intro new samePid keeps
      rw [ZHash.lookup_update (ZHash.mem_of_lookup there)]
      by_cases here : id = key
      · subst here
        rw [found, Option.some.injEq] at there
        subst there
        exact ⟨new, by simp, samePid, keeps needs⟩
      · exact ⟨mod, by simp [here, found], rfl, needs⟩
    by_cases remove : command = "remove"
    · subst remove
      rw [noticed_removes result]
      have apart : id ≠ key := by
        rintro rfl
        rw [found, Option.some.injEq] at there
        exact stays rfl (there ▸ pid)
      have own := registry.moduleKey key other there
      have kept : (p.modules.erase other.identity.text).lookup id = some mod := by
        rw [own]
        exact ZHash.lookup_erase_some.mpr ⟨apart, found⟩
      exact ⟨mod, kept, rfl, needs⟩
    · rw [noticed_keeps result remove]
      split
      · split
        · exact changed { other with state := .restarting } rfl fun needed => needed
        · exact changed { other with needRestart := true } rfl fun _ => rfl
      · exact same

/-- The restart that a report brings about: at once if the module is idle. -/
theorem sProcmanEvent_restarts (numbered : Numbered p) (nonzero : atoi text ≠ 0)
    (run : sProcmanEvent env "restart" text p = .ok q) (found : p.modules.lookup id = some mod)
    (pid : mod.pid = atoi text) {commands : List Command}
    (sent : q.procman = p.procman ++ commands) :
    .restart (decimal (atoi text).toInt) ∈ commands ∨
      ∃ id new, q.modules.lookup id = some new ∧ new.pid = atoi text ∧ new.needRestart = true := by
  rw [sProcmanEvent_eq, if_neg nonzero] at run
  cases named : namedModule env text p with
  | none => exact absurd pid (namedModule_none named found)
  | some entry =>
      obtain ⟨key, other⟩ := entry
      obtain ⟨there, samePid⟩ := namedModule_some named
      rw [named] at run
      rw [noticed_keeps run (by decide), if_pos rfl] at sent ⊢
      split at sent
      · left
        have only : [.restart other.sPid] = commands := by
          simpa using sent
        rw [← only, numbered key other there, samePid]
        exact List.mem_singleton_self _
      · rename_i working
        right
        rw [if_neg working]
        refine ⟨key, { other with needRestart := true }, ?_, samePid, rfl⟩
        rw [setModule_modules, ZHash.lookup_update (ZHash.mem_of_lookup there), if_pos rfl]

theorem introduceAnswered_modules {message : Message} {name answer : String} {pid : Int32}
    (registry : Registry p) (asks : introduceRequest message = .ok (some (name, pid)))
    (run : introduceAnswered conf env message name pid answer p = .ok q)
    (found : p.modules.lookup id = some mod) : q.modules.lookup id = some mod := by
  obtain ⟨named, numbered, _⟩ := introduceRequest_some asks
  rcases introduceAnswered_ok named numbered run with
    ⟨rfl, _⟩ | ⟨_, desc, provides, middle, introduces⟩
  · exact found
  · rw [introduces.modules registry, ZHash.lookup_insertNew]
    split
    · rename_i fresh
      exact absurd (fresh.1 ▸ ZHash.mem_of_lookup found) fresh.2
    · exact found

theorem tending_new : Tending busNew := by
  rintro _ key ⟨_, found, _⟩
  cases found

theorem startall_stopAll {procEnv : ProcEnv} {before after : Procman}
    (run : startall conf procEnv before = .ok after) : after.stopAll = before.stopAll := by
  have instances : ∀ key count state,
      (startInstances procEnv key count state).stopAll = state.stopAll := by
    intro key count
    induction count with
    | zero => exact fun _ => rfl
    | succ count ih => exact fun state => (ih _).trans (startProc_stopAll state procEnv _)
  refine ZHash.foreach_invariant (fun state => state.stopAll = before.stopAll) ?_ run rfl
  rintro key _ state rc next call same
  cases call
  unfold startallItem
  split
  · exact same
  · split
    · exact (instances key _ state).trans same
    · exact same

theorem procman_stopAll {procEnv : ProcEnv} {event : ProcEvent} {before after : Procman}
    (run : before.step conf procEnv event = .ok after) (goes : after.stopAll = false) :
    before.stopAll = false := by
  cases event with
  | tick key =>
      simp only [Procman.step, checkpidItem] at run
      split at run
      · cases run
        exact goes
      · rename_i proc found
        split at run
        · cases run
          exact goes
        · rename_i going
          simpa using going
  | command command =>
      simp only [Procman.step] at run
      split at run
      · unfold sMainEvent at run
        split at run
        · cases run
          exact goes
        · cases run
          cases goes
        · split at run
          · cases run
            exact goes
          · split at run <;> cases run
            exact goes
        · cases run
          exact goes
        · split at run
          · cases run
            exact goes
          · split at run <;> cases run
            exact goes
        · split at run
          · cases run
            exact goes
          · split at run <;> cases run
            rw [startProc_stopAll] at goes
            exact goes
        · exact (killall_told run).2.2.2 ▸ goes
      · exact (startall_stopAll run) ▸ goes

theorem FoundDead.pidText (texts : Texts bus) (waits : FoundDead bus key) : PidText key := by
  obtain ⟨_, found, _⟩ := waits
  exact texts.keys key (ZHash.mem_of_lookup found)

/-- With the channel to the main loop as it was, all that matters is that no
restart is forgotten on the way to the process manager and in the registry. -/
theorem Underway.sent {messages : List (String × String)} {more : List Command}
    (underway : Underway bus messages key) (commands : next.commands = bus.commands ++ more)
    (modules : ∀ id mod, bus.proxy.modules.lookup id = some mod → mod.pid = atoi key →
      mod.needRestart = true → .restart key ∈ more ∨
        ∃ id new, next.proxy.modules.lookup id = some new ∧ new.pid = atoi key ∧
          new.needRestart = true) : Underway next messages key := by
  rcases underway with told | sent | ⟨id, mod, found, pid, needs⟩
  · exact .inl told
  · exact .inr (.inl (commands ▸ List.mem_append_left _ sent))
  · rcases modules id mod found pid needs with sent | still
    · exact .inr (.inl (commands ▸ List.mem_append_right _ sent))
    · exact .inr (.inr still)

theorem Tending.worked {after : Proxy} {commands : List Command}
    (joined : Joined conf bus) (texts : Texts bus) (tending : Tending bus)
    (restarts : RestartsBy commands bus.proxy after) :
    Tending { bus with proxy := after, commands := bus.commands ++ commands } := by
  intro goes key waits
  have pidText : PidText key := FoundDead.pidText texts waits
  obtain ⟨followed, underway⟩ := tending goes key waits
  refine ⟨followed, underway.sent rfl ?_⟩
  intro id mod found pid needs
  have own : mod.sPid = key := by
    rw [joined.numbered id mod found, pid, pidText.decimal_atoi]
  rcases restarts.needs id mod found needs with sent | ⟨new, there, card, still⟩
  · exact .inl (own ▸ sent)
  · exact .inr ⟨id, new, there, (card_fields card).2.2.1.trans pid, still⟩

/-- A notification that is taken for an answer was not the last hope. -/
theorem Tending.answered {asked : Asked} {command text : String} {rest : List (String × String)}
    {after : Proxy} {commands : List Command} {outcomes : List Outcome}
    (joined : Joined conf bus) (tending : Tending bus) (heard : Heard bus (.receive env))
    (waiting : bus.asked = some asked) (first : bus.messages = (command, text) :: rest)
    (run : introduceAnswered conf asked.env asked.message asked.name asked.pid text bus.proxy =
      .ok after) :
    Tending { bus with
      proxy := after
      commands := bus.commands ++ commands
      asked := none
      messages := rest
      outcomes := outcomes } := by
  intro goes key waits
  have waits : FoundDead bus key := waits
  obtain ⟨followed, underway⟩ := tending goes key waits
  rw [first] at followed underway
  have behind : Underway bus rest key := by
    rcases underway with told | elsewhere
    · rcases List.mem_cons.mp told with here | later
      · rcases heard goes key rest (here ▸ first) waits with behind | ⟨free, _⟩
        · exact behind
        · cases free.symm.trans waiting
      · exact .inl later
    · exact .inr elsewhere
  obtain ⟨_, _, asks, _⟩ := joined.waits waiting
  refine ⟨followed.2, behind.sent rfl ?_⟩
  intro id mod found pid needs
  have kept := introduceAnswered_modules joined.registry (asksFor_some asks).2.2 run found
  exact .inr ⟨id, mod, kept, pid, needs⟩

theorem Tending.notified {command text : String} {rest : List (String × String)}
    {after : Proxy} {commands : List Command} {handled : List (String × String)}
    (joined : Joined conf bus) (texts : Texts bus) (tending : Tending bus)
    (heard : Heard bus (.receive env)) (first : bus.messages = (command, text) :: rest)
    (run : sProcmanEvent env command text bus.proxy = .ok after)
    (sent : after.procman = bus.proxy.procman ++ commands) :
    Tending { bus with
      proxy := after
      commands := bus.commands ++ commands
      messages := rest
      handled := handled } := by
  intro goes key waits
  have waits : FoundDead bus key := waits
  have pidText := waits.pidText texts
  obtain ⟨followed, underway⟩ := tending goes key waits
  rw [first] at followed underway
  refine ⟨followed.2, ?_⟩
  by_cases removal : command = "remove" ∧ text = key
  · obtain ⟨rfl, rfl⟩ := removal
    exact .inl (followed.1 rfl)
  have kept : Underway bus rest key → Underway { bus with
      proxy := after, commands := bus.commands ++ commands, messages := rest,
      handled := handled } rest key := by
    intro behind
    refine behind.sent rfl ?_
    intro id mod found pid needs
    right
    have stays : command = "remove" → mod.pid ≠ atoi text := by
      rintro rfl same
      have head : ("remove", text) ∈ bus.messages := first ▸ List.mem_cons_self
      have told := (texts.notifications _ head rfl).decimal_atoi
      rw [← same, pid, pidText.decimal_atoi] at told
      exact removal ⟨rfl, told.symm⟩
    obtain ⟨new, there, samePid, still⟩ := sProcmanEvent_needs joined.registry run found needs stays
    exact ⟨id, new, there, samePid.trans pid, still⟩
  rcases underway with told | elsewhere
  · rcases List.mem_cons.mp told with here | later
    · cases here
      rcases heard goes text rest first waits with behind | ⟨_, id, mod, found, pid⟩
      · exact kept behind
      · rcases sProcmanEvent_restarts joined.numbered pidText.atoi_ne run found pid sent with
          restarts | needs
        · rw [pidText.decimal_atoi] at restarts
          exact .inr (.inl (List.mem_append_right _ restarts))
        · exact .inr (.inr needs)
    · exact kept (.inl later)
  · exact kept (.inr elsewhere)

theorem Tending.kept {told : List (String × String)} (tending : Tending bus)
    (goes : bus.procman.stopAll = false) (waits : FoundDead bus key) (proxy : next.proxy = bus.proxy)
    (messages : next.messages = bus.messages ++ told) (other : ("remove", key) ∉ told)
    (commands : .restart key ∈ bus.commands → .restart key ∈ next.commands) :
    Followed key next.messages ∧ Underway next next.messages key := by
  obtain ⟨followed, underway⟩ := tending goes key waits
  rw [messages]
  refine ⟨followed.append other, ?_⟩
  rcases underway with report | sent | needs
  · exact .inl (List.mem_append_left _ report)
  · exact .inr (.inl (commands sent))
  · exact .inr (.inr (by rw [proxy]; exact needs))

theorem Tending.obeyed {procEnv : ProcEnv} {command : Command} {rest : List Command}
    {after : Procman} {told : List (String × String)} {verdicts : List Bool}
    (joined : Joined conf bus) (tending : Tending bus) (first : bus.commands = command :: rest)
    (run : bus.procman.step conf procEnv (.command command) = .ok after)
    (said : after.told = bus.procman.told ++ told) :
    Tending { bus with
      procman := after
      messages := bus.messages ++ told
      commands := rest
      verdicts := verdicts } := by
  have behind : ∀ key, command ≠ .restart key → .restart key ∈ bus.commands →
      .restart key ∈ rest := by
    intro key other sent
    rw [first] at sent
    exact (List.mem_cons.mp sent).resolve_left fun here => other here.symm
  rintro goes key ⟨proc, found, waiting⟩
  have going := procman_stopAll run goes
  cases procman_cases run with
  | silent silent keeps _ idle =>
      have nothing := told_nil said silent
      have waits : FoundDead bus key := keeps key proc found waiting
      refine tending.kept going waits rfl rfl (by simp [nothing]) (behind key ?_)
      rintro rfl
      obtain ⟨_, there, _⟩ := waits
      obtain ⟨_, start⟩ := joined.start (idle key rfl (ZHash.mem_of_lookup there))
      rw [first] at start
      cases start
  | @checked spid question _ answer keeps =>
      cases question
      have only := told_eq said answer
      exact tending.kept going (keeps key proc found waiting) rfl rfl (by simp [only])
        (behind key (by simp))
  | @restarted spid restart _ _ removal keeps fresh =>
      cases restart
      have apart : key ≠ spid := by
        rintro rfl
        rw [fresh proc found] at waiting
        cases waiting
      have only := told_eq said removal
      exact tending.kept going (keeps key proc found waiting) rfl rfl (by simp [only, apart])
        (behind key (by simp [apart.symm]))
  | reported tick => cases tick

theorem Tending.ticked {procEnv : ProcEnv} {watched : String} {after : Procman}
    {told : List (String × String)} (tending : Tending bus)
    (run : bus.procman.step conf procEnv (.tick watched) = .ok after)
    (said : after.told = bus.procman.told ++ told) :
    Tending { bus with procman := after, messages := bus.messages ++ told } := by
  rintro goes key ⟨proc, found, waiting⟩
  have going := procman_stopAll run goes
  cases procman_cases run with
  | silent silent keeps =>
      have nothing := told_nil said silent
      exact tending.kept going (keeps key proc found waiting) rfl rfl (by simp [nothing])
        fun sent => sent
  | checked question => cases question
  | restarted restart => cases restart
  | @reported reported _ tick _ _ _ _ report others =>
      cases tick
      have only := told_eq said report
      by_cases here : key = watched
      · subst here
        have last : bus.messages ++ told = bus.messages ++ [("restart", key)] := by rw [only]
        exact ⟨last ▸ Followed.last bus.messages, .inl (by simp [only])⟩
      · exact tending.kept going (others key proc here found waiting) rfl rfl (by simp [only])
          fun sent => sent

theorem Tending.step {event : BusEvent} (joined : Joined conf bus) (texts : Texts bus)
    (tending : Tending bus) (heard : Heard bus event)
    (move : (twoParties conf).step bus event next) : Tending next := by
  cases bus_cases joined.registry move with
  | worked _ _ _ restarts => exact tending.worked joined texts restarts
  | asking _ _ =>
      intro goes key waits
      obtain ⟨followed, underway⟩ := tending goes key waits
      refine ⟨followed, underway.sent rfl ?_⟩
      intro id mod found pid needs
      refine .inr ⟨id, mod, ?_, pid, needs⟩
      rw [checkPid, zstrSend_modules, arrived_modules]
      exact found
  | answered waiting first run _ _ => exact tending.answered joined heard waiting first run
  | notified _ first run sent _ => exact tending.notified joined texts heard first run sent
  | obeyed first run said => exact tending.obeyed joined first run said
  | ticked _ run said => exact tending.ticked run said

/-- As long as each report of a dead process is heard, none of them is left alone. -/
theorem no_lost_restart (reached : Reaches (twoParties conf) Heard bus) : NoLostRestart bus := by
  have tending : Tending bus := by
    refine reached.invariant_reached Tending ?_ ?_
    · rintro state rfl
      exact tending_new
    · exact fun _ _ _ before heard move tending =>
        tending.step (joined_reaches before) (texts_reaches before) heard move
  intro goes key waits
  rcases (tending goes key waits).2 with told | sent | ⟨id, mod, found, pid, needs⟩
  · exact .inl told
  · exact .inr (.inl sent)
  · exact .inr (.inr ⟨id, mod, found, pid, .inr (.inl needs)⟩)

end

theorem no_lost_restart_known : NoLostRestart (busAfter oneModule diesKnown) := by
  have start : Reaches (twoParties oneModule) Heard (busAfter oneModule []) := by
    rw [busAfter_nil]
    exact .initial rfl
  have one := busAfter_reaches [] (.command starting) start trivial (by decide +kernel)
  have two := busAfter_reaches [.command starting] (introducing 77) one trivial
    (by decide +kernel)
  have three := busAfter_reaches [.command starting, introducing 77] (.command starting) two
    trivial (by decide +kernel)
  have answer : (busAfter oneModule
      [.command starting, introducing 77, .command starting]).messages =
        [("check_pid", "yes")] := by decide +kernel
  have four := busAfter_reaches [.command starting, introducing 77, .command starting]
    (.receive early) three (fun _ key rest first => by simp [answer] at first) (by decide +kernel)
  have five := busAfter_reaches
    [.command starting, introducing 77, .command starting, .receive early] (.command starting) four
    trivial (by decide +kernel)
  have six := busAfter_reaches introducesItself (.tick starting "77") five trivial
    (by decide +kernel)
  have report : (busAfter oneModule (introducesItself ++ [.tick starting "77"])).messages =
      [("restart", "77")] := by decide +kernel
  have free : (busAfter oneModule
      (introducesItself ++ [.tick starting "77"])).asked.isNone = true := by decide +kernel
  have registered : ((busAfter oneModule
      (introducesItself ++ [.tick starting "77"])).proxy.modules.lookup (strhex worker)).map
        Module.pid = some (atoi "77") := by decide +kernel
  have seven := busAfter_reaches (introducesItself ++ [.tick starting "77"]) (.receive early) six
    (fun _ key rest first _ => by
      rw [report] at first
      cases first
      obtain ⟨mod, found, pid⟩ := Option.map_eq_some_iff.mp registered
      exact .inr ⟨Option.isNone_iff_eq_none.mp free, _, mod, found, pid⟩) (by decide +kernel)
  exact no_lost_restart seven

def diesUnknown : List BusEvent := [.command starting, .tick starting "77", .receive early]

/-- Nobody is left who could restart a process that no module was registered for
when it was found dead. -/
theorem no_lost_restart_unknown :
    ¬ ∀ conf bus, Reaches (twoParties conf) anything bus → NoLostRestart bus := by
  intro always
  have reached := busAfter_anything oneModule diesUnknown (by decide +kernel)
  have dead : ((busAfter oneModule diesUnknown).procman.procs.lookup "77").map
      Process.onRestart = some true := by decide +kernel
  have quiet : (busAfter oneModule diesUnknown).procman.stopAll = false ∧
      (busAfter oneModule diesUnknown).messages = [] ∧
      (busAfter oneModule diesUnknown).commands = [] ∧
      (busAfter oneModule diesUnknown).proxy.modules.keys = [] := by decide +kernel
  obtain ⟨goes, messages, commands, modules⟩ := quiet
  obtain ⟨proc, found, waits⟩ := Option.map_eq_some_iff.mp dead
  rcases always _ _ reached goes "77" ⟨proc, found, waits⟩ with told | sent | ⟨id, mod, there, _⟩
  · rw [messages] at told
    cases told
  · rw [commands] at sent
    cases sent
  · have member := AList.mem_keys.mp (ZHash.mem_of_lookup there)
    rw [modules] at member
    cases member

end ModBus
