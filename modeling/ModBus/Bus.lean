import Mathlib.Data.List.Induction
import ModBus.Execute
import ModBus.Restarts
import ModBus.Population

/-! The main loop and the process manager, joined by two channels. An
introduction sends its `check_pid` and then takes the next message from the
process manager, whatever it is; nothing else happens in the main loop meanwhile. -/

namespace ModBus

open Libc Czmq Transition

structure Asked where
  env : Env
  event : Event
  message : Message
  name : String
  pid : Int32

structure Outcome where
  whole : Bool
  registered : Bool
  deriving DecidableEq, Repr

structure Bus where
  proxy : Proxy
  procman : Procman
  asked : Option Asked
  /-- The commands on their way to the process manager, oldest first. -/
  commands : List Command
  /-- The two-frame messages on their way to the main loop, oldest first. -/
  messages : List (String × String)
  /-- The notifications that the modules were searched for. -/
  handled : List (String × String)
  /-- For each `check_pid`, whether its pid was in `procs`. -/
  verdicts : List Bool
  outcomes : List Outcome

def busNew : Bus where
  proxy := proxyNew
  procman := procmanNew
  asked := none
  commands := [.startall]
  messages := []
  handled := []
  verdicts := []
  outcomes := []

inductive BusEvent
  /-- The main loop handles an event. -/
  | event (env : Env) (event : Event)
  /-- The main loop takes a message from the process manager. -/
  | receive (env : Env)
  /-- The process manager takes a command. -/
  | command (env : ProcEnv)
  | tick (env : ProcEnv) (key : String)

def Bus.main (bus : Bus) (next : Proxy) : Bus :=
  { bus with
    proxy := next
    commands := bus.commands ++ next.procman.drop bus.proxy.procman.length }

def Bus.manager (bus : Bus) (next : Procman) : Bus :=
  { bus with
    procman := next
    messages := bus.messages ++ next.told.drop bus.procman.told.length }

def checkPid (pid : Int32) (message : Message) (p : Proxy) : Proxy :=
  zstrSend (.checkPid (decimal pid.toInt)) (p.arrived message)

def Asked.whole (asked : Asked) (p : Proxy) : Bool :=
  decide (asked.message.identity ∉ p.modules) &&
    match messageGetProvides asked.message with
    | .ok (some provides) => !provides.keys.isEmpty
    | _ => false

def Asked.outcome (asked : Asked) (p next : Proxy) : Outcome where
  whole := asked.whole p
  registered := decide (asked.message.identity ∉ p.modules ∧ asked.message.identity ∈ next.modules)

def searched (command text : String) : List (String × String) :=
  if atoi text = 0 then [] else [(command, text)]

def verdictOf (command : Command) (p : Procman) : List Bool :=
  match command with
  | .checkPid spid => [decide (spid ∈ p.procs)]
  | _ => []

def Bus.step (conf : Config) (bus : Bus) : BusEvent → Except Fault (Option Bus)
  | .event env event =>
      if bus.asked.isSome || event.fromProcman then .ok none
      else
        match asksFor env event bus.proxy with
        | some (message, name, pid) =>
            .ok (some { bus.main (checkPid pid message bus.proxy) with
              asked := some ⟨env, event, message, name, pid⟩ })
        | none => do return some (bus.main (← bus.proxy.step conf env event))
  | .receive env =>
      match bus.messages, bus.asked with
      | [], _ => .ok none
      | (_, text) :: rest, some asked => do
          let next ← introduceAnswered conf asked.env asked.message asked.name asked.pid text
            bus.proxy
          return some { bus.main next with
            asked := none
            messages := rest
            outcomes := bus.outcomes ++ [asked.outcome bus.proxy next] }
      | (command, text) :: rest, none => do
          let next ← sProcmanEvent env command text bus.proxy
          return some { bus.main next with
            messages := rest
            handled := bus.handled ++ searched command text }
  | .command env =>
      match bus.commands with
      | [] => .ok none
      | command :: rest => do
          let next ← bus.procman.step conf env (.command command)
          return some { bus.manager next with
            commands := rest
            verdicts := bus.verdicts ++ verdictOf command bus.procman }
  | .tick env key =>
      if bus.procman.running then do
        return some (bus.manager (← bus.procman.step conf env (.tick key)))
      else .ok none

def twoParties (conf : Config) : System Bus BusEvent where
  initial bus := bus = busNew
  step bus event next := bus.step conf event = .ok (some next)

/-! What a step of the process manager does to its table and tells the main loop. -/

def KeepsRestarts (p q : Procman) : Prop :=
  ∀ key proc, q.procs.lookup key = some proc → proc.onRestart = true →
    ∃ old, p.procs.lookup key = some old ∧ old.onRestart = true

inductive ProcmanCases (conf : Config) (env : ProcEnv) (event : ProcEvent) (p q : Procman) : Prop
  | silent : q.told = p.told → KeepsRestarts p q →
      (∀ spid, event = .command (.checkPid spid) → p.running = false) →
      (∀ spid, event = .command (.restart spid) → spid ∈ p.procs → p.running = false) →
      ProcmanCases conf env event p q
  | checked {spid} : event = .command (.checkPid spid) → p.running = true →
      q.told = p.told ++ [("check_pid", if spid ∈ p.procs then "yes" else "no")] →
      KeepsRestarts p q → ProcmanCases conf env event p q
  | restarted {spid} : event = .command (.restart spid) → spid ∈ p.procs → p.running = true →
      q.told = p.told ++ [("remove", spid)] → KeepsRestarts p q →
      (∀ proc, q.procs.lookup spid = some proc → proc.onRestart = false) →
      ProcmanCases conf env event p q
  | reported {key proc} : event = .tick key → p.procs.lookup key = some proc →
      p.stopAll = false → proc.onRestart = false →
      health conf env key proc = .ok .gone ∨ health conf env key proc = .ok .tooBig →
      q.told = p.told ++ [("restart", key)] →
      (∀ other proc, other ≠ key → q.procs.lookup other = some proc → proc.onRestart = true →
        ∃ old, p.procs.lookup other = some old ∧ old.onRestart = true) →
      ProcmanCases conf env event p q

section

variable {conf : Config} {env : ProcEnv} {event : ProcEvent} {p q : Procman} {key spid : String}
  {proc : Process}

theorem KeepsRestarts.of_procs (procs : q.procs = p.procs) : KeepsRestarts p q :=
  fun _ proc found waits => ⟨proc, procs ▸ found, waits⟩

theorem KeepsRestarts.trans {r : Procman} (left : KeepsRestarts p q) (right : KeepsRestarts q r) :
    KeepsRestarts p r := by
  intro key proc found waits
  obtain ⟨middle, there, waiting⟩ := right key proc found waits
  exact left key middle there waiting

theorem KeepsRestarts.deleteProc (key : String) (p : Procman) :
    KeepsRestarts p (p.deleteProc key) :=
  fun _ proc found waits => ⟨proc, (ZHash.lookup_erase_some.mp found).2, waits⟩

theorem KeepsRestarts.setProc {new : Process} (found : p.procs.lookup key = some proc)
    (same : new.onRestart = proc.onRestart) : KeepsRestarts p (p.setProc key new) := by
  intro other entry there waits
  rw [setProc_procs, ZHash.lookup_update (ZHash.mem_of_lookup found)] at there
  split at there
  · rename_i here
    cases there
    exact ⟨proc, here ▸ found, same ▸ waits⟩
  · exact ⟨entry, there, waits⟩

/-- A new process does not wait to be restarted, and replaces none that does. -/
theorem KeepsRestarts.insertNew (proc : Process) (new : proc.onRestart = false)
    (procs : q.procs = (ZHash.insertNew p.procs key proc).2) : KeepsRestarts p q := by
  intro other entry there waits
  rw [procs, ZHash.lookup_insertNew] at there
  split at there
  · cases there
    rw [new] at waits
    cases waits
  · exact ⟨entry, there, waits⟩

theorem KeepsRestarts.startProc (new : proc.onRestart = false) (p : Procman) :
    KeepsRestarts p (startProc env proc p) := by
  refine .insertNew _ ?_ (startProc_procs env proc p)
  exact new

theorem startInstances_keeps (count : Nat) (p : Procman) :
    KeepsRestarts p (startInstances env key count p) ∧
      (startInstances env key count p).told = p.told := by
  induction count generalizing p with
  | zero => exact ⟨.of_procs rfl, rfl⟩
  | succ count ih =>
      obtain ⟨keeps, told⟩ := ih (startProc env { processNew key with mod := some key } p)
      have started : KeepsRestarts p (startProc env { processNew key with mod := some key } p) :=
        .startProc rfl p
      exact ⟨started.trans keeps, told.trans (startProc_told p env _)⟩

theorem startall_keeps (run : startall conf env p = .ok q) :
    KeepsRestarts p q ∧ q.told = p.told := by
  refine ZHash.foreach_invariant (fun state => KeepsRestarts p state ∧ state.told = p.told) ?_
    run ⟨.of_procs rfl, rfl⟩
  rintro key _ state rc next call ⟨keeps, told⟩
  cases call
  unfold startallItem
  split
  · exact ⟨keeps, told⟩
  · split
    · obtain ⟨more, same⟩ := startInstances_keeps _ state
      exact ⟨keeps.trans more, same.trans told⟩
    · exact ⟨keeps, told⟩

theorem killall_told {keys : List String} (run : ZHash.foreach killallItem keys p = .ok q) :
    q.procs = p.procs ∧ q.told = p.told ∧ q.running = p.running ∧ q.stopAll = p.stopAll := by
  refine ZHash.foreach_invariant
    (fun state => state.procs = p.procs ∧ state.told = p.told ∧ state.running = p.running ∧
      state.stopAll = p.stopAll) ?_ run ⟨rfl, rfl, rfl, rfl⟩
  rintro key _ state rc next call same
  unfold killallItem at call
  split at call
  · cases call
    exact same
  · split at call
    · cases call
    · split at call <;> cases call <;> exact same

theorem checkpidItem_cases (run : checkpidItem conf env key p = .ok q) :
    ProcmanCases conf env (.tick key) p q := by
  have silent : q.told = p.told → KeepsRestarts p q → ProcmanCases conf env (.tick key) p q :=
    fun told keeps => .silent told keeps (fun _ same => by cases same) (fun _ same => by cases same)
  unfold checkpidItem at run
  split at run
  · cases run
    exact silent rfl (.of_procs rfl)
  · rename_i proc found
    split at run
    · cases run
      exact silent rfl (.of_procs rfl)
    rename_i going
    split at run
    · cases run
    split at run
    · cases run
      exact silent rfl (.of_procs rfl)
    rename_i awake
    have stopAll : p.stopAll = false := by simpa using going
    have onRestart : proc.onRestart = false := by simpa using awake
    split at run <;> cases run
    · exact silent rfl (.deleteProc key (p.kill (atoi key) 9))
    · rename_i gone
      refine .reported rfl found stopAll onRestart (.inl gone) rfl ?_
      intro other entry different there waits
      rw [setProc_procs, ZHash.lookup_update_ne _ different] at there
      exact ⟨entry, there, waits⟩
    · rename_i tooBig
      exact .reported rfl found stopAll onRestart (.inr tooBig) rfl
        fun other entry _ there waits => ⟨entry, there, waits⟩
    · exact silent rfl (.of_procs rfl)

theorem sMainEvent_cases {command : Command} (running : p.running = true)
    (run : sMainEvent env command p = .ok q) :
    ProcmanCases conf env (.command command) p q := by
  have silent : q.told = p.told → KeepsRestarts p q → (∀ spid, command ≠ .checkPid spid) →
      (∀ spid, command = .restart spid → spid ∉ p.procs) →
      ProcmanCases conf env (.command command) p q := by
    intro told keeps unasked unknown
    refine .silent told keeps (fun spid same => ?_) (fun spid same member => ?_)
    · cases same
      exact absurd rfl (unasked spid)
    · cases same
      exact absurd member (unknown spid rfl)
  unfold sMainEvent at run
  split at run
  · cases run
    exact silent rfl (.of_procs rfl) (by simp) (by simp)
  · cases run
    exact silent rfl (.of_procs rfl) (by simp) (by simp)
  · rename_i spid
    split at run
    · rename_i unknown
      cases run
      have absent : spid ∉ p.procs := AList.lookup_eq_none.mp unknown
      exact .checked rfl running (by simp [absent]) (.of_procs rfl)
    · rename_i proc found
      split at run <;> cases run
      have present := ZHash.mem_of_lookup found
      have kept : KeepsRestarts p (p.setProc spid { proc with started := true }) :=
        .setProc found rfl
      exact .checked rfl running (by simp [present]) kept
  · rename_i spid name
    cases run
    exact silent rfl (.insertNew (processNew name) rfl rfl) (by simp) (by simp)
  · rename_i spid
    split at run
    · cases run
      exact silent rfl (.of_procs rfl) (by simp) (by simp)
    · split at run <;> cases run
      exact silent rfl (.deleteProc spid ((p.kill (atoi spid) 3).kill (atoi spid) 3)) (by simp)
        (by simp)
  · rename_i spid
    split at run
    · rename_i unknown
      cases run
      refine silent rfl (.of_procs rfl) (by simp) ?_
      rintro _ ⟨⟩
      exact AList.lookup_eq_none.mp unknown
    · rename_i proc found
      split at run <;> cases run
      let killed := ((p.kill (atoi spid) 3).kill (atoi spid) 9).tell "remove" spid
      have deleted : KeepsRestarts p (killed.deleteProc spid) := .deleteProc spid killed
      have started : KeepsRestarts (killed.deleteProc spid)
          (startProc env { processNew proc.name with mod := proc.mod } (killed.deleteProc spid)) :=
        .startProc rfl _
      refine .restarted rfl (ZHash.mem_of_lookup found) running (by simp)
        (deleted.trans started) ?_
      intro entry there
      rw [← Bool.not_eq_true]
      intro waits
      obtain ⟨old, kept, _⟩ := started spid entry there waits
      exact (ZHash.lookup_erase_some.mp kept).1 rfl
  · obtain ⟨procs, told, _⟩ := killall_told run
    exact silent told (.of_procs procs) (by simp) (by simp)

theorem startall_running (runs : p.running = true) (run : startall conf env p = .ok q) :
    q.running = true := by
  refine ZHash.foreach_invariant (fun state => state.running = true) ?_ run runs
  rintro key _ state rc next call running
  cases call
  exact startallItem_running key state running

theorem procman_running (run : p.step conf env event = .ok q)
    (started : p.running = true ∨ ∃ command, event = .command command) : q.running = true := by
  cases event with
  | tick key =>
      have running : p.running = true := by
        rcases started with running | ⟨_, same⟩
        · exact running
        · cases same
      simp only [Procman.step, checkpidItem] at run
      split at run
      · cases run
        exact running
      · split at run
        · cases run
          exact running
        split at run
        · cases run
        split at run
        · cases run
          exact running
        split at run <;> cases run <;> exact running
  | command command =>
      simp only [Procman.step] at run
      split at run
      · rename_i running
        unfold sMainEvent at run
        split at run
        · cases run
          exact running
        · cases run
          exact running
        · split at run
          · cases run
            exact running
          · split at run <;> cases run
            exact running
        · cases run
          exact running
        · split at run
          · cases run
            exact running
          · split at run <;> cases run
            exact running
        · split at run
          · cases run
            exact running
          · split at run <;> cases run
            rw [startProc_running]
            exact running
        · exact (killall_told run).2.2.1.trans running
      · exact startall_running rfl run

/-- A tick's walk is a run, with one event for each process. -/
theorem checkpidEvent_run (running : p.running = true) (walk : checkpidEvent conf env p = .ok q) :
    Run (processManager conf) anything p q := by
  have both : Run (processManager conf) anything p q ∧ q.running = true := by
    refine ZHash.foreach_invariant
      (fun state => Run (processManager conf) anything p state ∧ state.running = true) ?_ walk
      ⟨.refl p, running⟩
    rintro key _ state rc next call ⟨before, runs⟩
    split at call
    · cases call
    · rename_i after item
      cases call
      have ticked : state.step conf env (.tick key) = .ok next := item
      have move : (processManager conf).step state (env, .tick key) next :=
        ⟨fun stopped => absurd (runs.symm.trans stopped) (by simp), ticked⟩
      exact ⟨before.snoc trivial move, procman_running ticked (.inl runs)⟩
  exact both.1

theorem procman_cases (run : p.step conf env event = .ok q) : ProcmanCases conf env event p q := by
  cases event with
  | tick key => exact checkpidItem_cases run
  | command command =>
      simp only [Procman.step] at run
      split at run
      · rename_i running
        exact sMainEvent_cases running run
      · rename_i waiting
        have stopped : p.running = false := by simpa using waiting
        obtain ⟨keeps, told⟩ := startall_keeps run
        exact .silent told keeps (fun _ _ => stopped) (fun _ _ _ => stopped)

end

/-! The cases of a step of the two. -/

def Event.answered : Event → String → Event
  | .localMsg zmsg _, answer => .localMsg zmsg answer
  | .globalMsg zmsg _, answer => .globalMsg zmsg answer
  | event, _ => event

inductive BusCases (conf : Config) (bus : Bus) : BusEvent → Bus → Prop
  | worked {env event next commands} (free : bus.asked = none)
      (quiet : asksFor env event bus.proxy = none)
      (run : bus.proxy.step conf env event = .ok next)
      (restarts : RestartsBy commands bus.proxy next) :
      BusCases conf bus (.event env event)
        { bus with proxy := next, commands := bus.commands ++ commands }
  | asking {env event message name pid} (free : bus.asked = none)
      (asks : asksFor env event bus.proxy = some (message, name, pid)) :
      BusCases conf bus (.event env event)
        { bus with
          proxy := checkPid pid message bus.proxy
          commands := bus.commands ++ [.checkPid (decimal pid.toInt)]
          asked := some ⟨env, event, message, name, pid⟩ }
  | answered {env asked command text rest next commands} (waits : bus.asked = some asked)
      (first : bus.messages = (command, text) :: rest)
      (run : introduceAnswered conf asked.env asked.message asked.name asked.pid text bus.proxy =
        .ok next)
      (sent : next.procman = bus.proxy.procman ++ commands)
      (only : ∀ command ∈ commands,
        command = .register (decimal asked.pid.toInt) asked.name) :
      BusCases conf bus (.receive env)
        { bus with
          proxy := next
          commands := bus.commands ++ commands
          asked := none
          messages := rest
          outcomes := bus.outcomes ++ [asked.outcome bus.proxy next] }
  | notified {env command text rest next commands} (free : bus.asked = none)
      (first : bus.messages = (command, text) :: rest)
      (run : sProcmanEvent env command text bus.proxy = .ok next)
      (sent : next.procman = bus.proxy.procman ++ commands)
      (only : ∀ command ∈ commands, ∃ spid, command = .restart spid) :
      BusCases conf bus (.receive env)
        { bus with
          proxy := next
          commands := bus.commands ++ commands
          messages := rest
          handled := bus.handled ++ searched command text }
  | obeyed {env command rest next told} (first : bus.commands = command :: rest)
      (run : bus.procman.step conf env (.command command) = .ok next)
      (said : next.told = bus.procman.told ++ told) :
      BusCases conf bus (.command env)
        { bus with
          procman := next
          messages := bus.messages ++ told
          commands := rest
          verdicts := bus.verdicts ++ verdictOf command bus.procman }
  | ticked {env key next told} (running : bus.procman.running = true)
      (run : bus.procman.step conf env (.tick key) = .ok next)
      (said : next.told = bus.procman.told ++ told) :
      BusCases conf bus (.tick env key)
        { bus with procman := next, messages := bus.messages ++ told }

section

variable {conf : Config} {env : Env} {event : Event} {p q : Proxy} {message : Message}
  {name text : String} {pid : Int32} {bus next : Bus}

theorem asksFor_some (asks : asksFor env event p = some (message, name, pid)) :
    event.message env p = some message ∧ message.command = "introduce" ∧
      introduceRequest message = .ok (some (name, pid)) := by
  unfold asksFor at asks
  split at asks
  · cases asks
  · rename_i found read
    split at asks
    · rename_i isIntroduce
      split at asks
      · rename_i request
        cases asks
        exact ⟨read, isIntroduce, request⟩
      · cases asks
    · cases asks

/-- With the answer that it takes, an introduction is one event of the fabric. -/
theorem step_answered (asks : asksFor env event p = some (message, name, pid)) (text : String) :
    p.step conf env (event.answered text) =
      introduceAnswered conf env message name pid text (checkPid pid message p) := by
  obtain ⟨read, isIntroduce, request⟩ := asksFor_some asks
  have processed : ∀ state, processCommand conf env message text state =
      introduceAnswered conf env message name pid text
        (zstrSend (.checkPid (decimal pid.toInt)) state) := by
    intro state
    simp [processCommand, isIntroduce, processIntroduce, request]
  cases event with
  | localMsg zmsg answer =>
      have arrives := toOption_join read
      have isLocal : message.isLocal = true := by
        obtain ⟨_, _, _, _, _, _, same⟩ := messageFromzmq_some arrives
        rw [same]
        rfl
      simp only [Event.answered, Proxy.step, sLocalEvent, arrives, processed, checkPid,
        Proxy.arrived, isLocal, if_true]
  | globalMsg zmsg answer =>
      have arrives := toOption_join read
      have isLocal : message.isLocal = false := by
        obtain ⟨_, _, _, _, _, _, same⟩ := messageFromzmq_some arrives
        rw [same]
        rfl
      simp only [Event.answered, Proxy.step, sGlobalEvent, arrives, processed, checkPid,
        Proxy.arrived, isLocal, Bool.false_eq_true, if_false]
  | _ => cases read

theorem introduceAnswered_sends
    (run : introduceAnswered conf env message name pid text p = .ok q) :
    ∃ commands, q.procman = p.procman ++ commands ∧
      ∀ command ∈ commands, command = .register (decimal pid.toInt) name := by
  have nothing : p.procman = p.procman ++ [] := (List.append_nil _).symm
  unfold introduceAnswered at run
  split at run
  · cases run
    exact ⟨[], nothing, by simp⟩
  · split at run
    · cases run
    · split at run
      · cases run
      · cases run
      · obtain ⟨_, _, rfl⟩ := map_ok.mp run
        exact ⟨[], nothing, by simp⟩
      · split at run
        · obtain ⟨_, _, rfl⟩ := map_ok.mp run
          exact ⟨[], nothing, by simp⟩
        · simp only [] at run
          split at run
          · cases run
          · rename_i middle functions
            cases run
            have before := provideFunctions_procman functions
            refine ⟨[.register (decimal pid.toInt) name], ?_, by simp⟩
            rw [sendMessage_procman, registerModule, zstrSend_procman, before]
            rfl

theorem noticed_sends {command key : String} {mod : Module}
    (run : noticed command key mod p = .ok q) :
    ∃ commands, q.procman = p.procman ++ commands ∧
      ∀ command ∈ commands, ∃ spid, command = .restart spid := by
  have nothing : p.procman = p.procman ++ [] := (List.append_nil _).symm
  by_cases remove : command = "remove"
  · subst remove
    rw [noticed_removes run]
    exact ⟨[], nothing, by simp⟩
  · rw [noticed_keeps run remove]
    split
    · split
      · exact ⟨[.restart mod.sPid], rfl, by simp⟩
      · exact ⟨[], nothing, by simp⟩
    · exact ⟨[], nothing, by simp⟩

theorem sProcmanEvent_sends {command : String} (run : sProcmanEvent env command text p = .ok q) :
    ∃ commands, q.procman = p.procman ++ commands ∧
      ∀ command ∈ commands, ∃ spid, command = .restart spid := by
  rcases sProcmanEvent_ok run with rfl | ⟨key, mod, _, _, notice⟩
  · exact ⟨[], (List.append_nil _).symm, by simp⟩
  · exact noticed_sends notice

theorem procman_adds {env : ProcEnv} {event : ProcEvent} {p q : Procman}
    (run : p.step conf env event = .ok q) : ∃ told, q.told = p.told ++ told := by
  cases procman_cases run with
  | silent told => exact ⟨[], by simp [told]⟩
  | checked _ _ told => exact ⟨_, told⟩
  | restarted _ _ _ told => exact ⟨_, told⟩
  | reported _ _ _ _ _ told => exact ⟨_, told⟩

theorem main_sends {q : Proxy} {commands : List Command}
    (sent : q.procman = bus.proxy.procman ++ commands) :
    bus.main q = { bus with proxy := q, commands := bus.commands ++ commands } := by
  rw [Bus.main, sent, List.drop_left]

theorem manager_told {q : Procman} {told : List (String × String)}
    (said : q.told = bus.procman.told ++ told) :
    bus.manager q = { bus with procman := q, messages := bus.messages ++ told } := by
  rw [Bus.manager, said, List.drop_left]

theorem bus_cases {event : BusEvent} (registry : Registry bus.proxy)
    (move : (twoParties conf).step bus event next) : BusCases conf bus event next := by
  have move : bus.step conf event = .ok (some next) := move
  cases event with
  | event env event =>
      simp only [Bus.step] at move
      split at move
      · cases move
      · rename_i allowed
        obtain ⟨free, other⟩ : bus.asked = none ∧ event.fromProcman = false := by
          simpa using allowed
        split at move
        · rename_i message name pid asks
          cases move
          have sent : (checkPid pid message bus.proxy).procman =
              bus.proxy.procman ++ [.checkPid (decimal pid.toInt)] := by
            rw [checkPid, zstrSend_procman, arrived_procman]
          rw [main_sends sent]
          exact .asking free asks
        · rename_i quiet
          obtain ⟨after, run, same⟩ := bind_ok.mp move
          cases same
          obtain ⟨commands, restarts⟩ := step_restarts registry other quiet run
          rw [main_sends restarts.sent]
          exact .worked free quiet run restarts
  | receive env =>
      simp only [Bus.step] at move
      split at move
      · cases move
      · rename_i command text rest asked first waits
        obtain ⟨after, run, same⟩ := bind_ok.mp move
        cases same
        obtain ⟨commands, sent, only⟩ := introduceAnswered_sends run
        rw [main_sends sent]
        exact .answered waits first run sent only
      · rename_i command text rest first free
        obtain ⟨after, run, same⟩ := bind_ok.mp move
        cases same
        obtain ⟨commands, sent, only⟩ := sProcmanEvent_sends run
        rw [main_sends sent]
        exact .notified free first run sent only
  | command env =>
      simp only [Bus.step] at move
      split at move
      · cases move
      · rename_i command rest first
        obtain ⟨after, run, same⟩ := bind_ok.mp move
        cases same
        obtain ⟨told, said⟩ := procman_adds run
        rw [manager_told said]
        exact .obeyed first run said
  | tick env key =>
      simp only [Bus.step] at move
      split at move
      · rename_i running
        obtain ⟨after, run, same⟩ := bind_ok.mp move
        cases same
        obtain ⟨told, said⟩ := procman_adds run
        rw [manager_told said]
        exact .ticked running run said
      · cases move

structure Joined (conf : Config) (bus : Bus) : Prop where
  main : ∃ p, Reaches (fabric conf) anything p ∧ (bus.asked = none ∧ bus.proxy = p ∨
    ∃ asked, bus.asked = some asked ∧
      asksFor asked.env asked.event p = some (asked.message, asked.name, asked.pid) ∧
      bus.proxy = checkPid asked.pid asked.message p)
  manager : Reaches (processManager conf) anything bus.procman
  start : bus.procman.running = false → ∃ rest, bus.commands = .startall :: rest

theorem Joined.free (joined : Joined conf bus) (free : bus.asked = none) :
    Reaches (fabric conf) anything bus.proxy := by
  obtain ⟨p, reached, ⟨_, same⟩ | ⟨asked, waits, _⟩⟩ := joined.main
  · exact same ▸ reached
  · rw [free] at waits
    cases waits

theorem Joined.waits (joined : Joined conf bus) {asked : Asked} (waits : bus.asked = some asked) :
    ∃ p, Reaches (fabric conf) anything p ∧
      asksFor asked.env asked.event p = some (asked.message, asked.name, asked.pid) ∧
      bus.proxy = checkPid asked.pid asked.message p := by
  obtain ⟨p, reached, ⟨free, _⟩ | ⟨other, same, asks, proxy⟩⟩ := joined.main
  · rw [free] at waits
    cases waits
  · rw [same, Option.some.injEq] at waits
    subst waits
    exact ⟨p, reached, asks, proxy⟩

theorem Joined.registry (joined : Joined conf bus) : Registry bus.proxy := by
  obtain ⟨p, reached, ⟨_, same⟩ | ⟨asked, _, asks, same⟩⟩ := joined.main
  · exact same ▸ registry_reaches reached
  · have registry := (registry_reaches reached).arrived asked.message
    rw [same]
    exact registry.calm (.zstrSend _ _)

theorem fabric_goesOn (reached : Reaches (fabric conf) anything p)
    (run : p.step conf env event = .ok q) : Reaches (fabric conf) anything q := by
  have move : (fabric conf).step p (env, event) q := run
  exact reached.extend (.single trivial move)

theorem joined_new : Joined conf busNew where
  main := ⟨proxyNew, .initial rfl, .inl ⟨rfl, rfl⟩⟩
  manager := .initial rfl
  start _ := ⟨[], rfl⟩

theorem Joined.step {event : BusEvent} (joined : Joined conf bus)
    (move : (twoParties conf).step bus event next) : Joined conf next := by
  have begins : ∀ commands, bus.procman.running = false →
      ∃ rest, bus.commands ++ commands = .startall :: rest := by
    intro commands stopped
    obtain ⟨rest, first⟩ := joined.start stopped
    exact ⟨rest ++ commands, by rw [first, List.cons_append]⟩
  cases bus_cases joined.registry move with
  | worked free _ run _ =>
      have reached := fabric_goesOn (joined.free free) run
      exact ⟨⟨_, reached, .inl ⟨free, rfl⟩⟩, joined.manager, begins _⟩
  | asking free asks =>
      exact ⟨⟨_, joined.free free, .inr ⟨_, rfl, asks, rfl⟩⟩, joined.manager, begins _⟩
  | answered waits _ run _ _ =>
      obtain ⟨p, reached, asks, same⟩ := joined.waits waits
      rw [same, ← step_answered asks] at run
      exact ⟨⟨_, fabric_goesOn reached run, .inl ⟨rfl, rfl⟩⟩, joined.manager, begins _⟩
  | @notified env command text _ _ _ free _ run _ _ =>
      have handled : bus.proxy.step conf env (.procman command text) = .ok _ := run
      have reached := fabric_goesOn (joined.free free) handled
      exact ⟨⟨_, reached, .inl ⟨free, rfl⟩⟩, joined.manager, begins _⟩
  | @obeyed env command _ after _ first run _ =>
      have moves : (processManager conf).step bus.procman (env, .command command) after := by
        refine ⟨fun stopped => ?_, run⟩
        obtain ⟨rest, start⟩ := joined.start stopped
        rw [first] at start
        cases start
        rfl
      have running := procman_running run (.inr ⟨command, rfl⟩)
      refine ⟨joined.main, joined.manager.extend (.single trivial moves), fun stopped => ?_⟩
      exact absurd (running.symm.trans stopped) (by simp)
  | @ticked env key after _ running run _ =>
      have moves : (processManager conf).step bus.procman (env, .tick key) after :=
        ⟨fun stopped => absurd (running.symm.trans stopped) (by simp), run⟩
      have still := procman_running run (.inl running)
      refine ⟨joined.main, joined.manager.extend (.single trivial moves), fun stopped => ?_⟩
      exact absurd (still.symm.trans stopped) (by simp)

theorem joined_reaches {guard : Bus → BusEvent → Prop}
    (reached : Reaches (twoParties conf) guard bus) : Joined conf bus := by
  refine reached.invariant (Joined conf) ?_ ?_
  · rintro state rfl
    exact joined_new
  · exact fun _ _ _ _ move joined => joined.step move

end

/-! Pids as text: the keys of `procs`, and what the two send each other. -/

def PidText (text : String) : Prop := ∃ pid : Int32, pid ≠ 0 ∧ text = decimal pid.toInt

def isNotification (message : String × String) : Bool :=
  message.1 = "restart" || message.1 = "remove"

structure Texts (bus : Bus) : Prop where
  keys : ∀ key ∈ bus.procman.procs, PidText key
  registers : ∀ spid name, .register spid name ∈ bus.commands → PidText spid
  notifications : ∀ message ∈ bus.messages, isNotification message = true → PidText message.2

def NewKeys (event : ProcEvent) (p q : Procman) : Prop :=
  ∀ key ∈ q.procs, key ∈ p.procs ∨ PidText key ∨ ∃ name, event = .command (.register key name)

section

variable {conf : Config} {env : ProcEnv} {event : ProcEvent} {p q r : Procman} {key : String}
  {proc : Process} {bus next : Bus}

theorem PidText.atoi_ne (text : PidText key) : atoi key ≠ 0 := by
  obtain ⟨pid, nonzero, rfl⟩ := text
  rw [atoi_decimal]
  exact nonzero

theorem PidText.decimal_atoi (text : PidText key) : decimal (atoi key).toInt = key := by
  obtain ⟨pid, _, rfl⟩ := text
  rw [atoi_decimal]

theorem NewKeys.of_procs (procs : q.procs = p.procs) : NewKeys event p q := by
  intro key member
  exact .inl (procs ▸ member)

theorem NewKeys.trans (left : NewKeys event p q) (right : NewKeys event q r) :
    NewKeys event p r := by
  intro key member
  rcases right key member with old | new
  · exact left key old
  · exact .inr new

theorem NewKeys.deleteProc (key : String) (p : Procman) : NewKeys event p (p.deleteProc key) :=
  fun _ member => .inl (AList.mem_erase.mp member).2

theorem NewKeys.setProc (key : String) (proc : Process) (p : Procman) :
    NewKeys event p (p.setProc key proc) :=
  fun _ member => .inl ((ZHash.mem_update _ _ _ _).mp member)

theorem NewKeys.startProc (p : Procman) : NewKeys event p (startProc env proc p) := by
  intro key member
  rw [startProc_procs, ZHash.mem_insertNew] at member
  rcases member with rfl | old
  · exact .inr (.inl ⟨_, env.fork_ne _, rfl⟩)
  · exact .inl old

theorem startInstances_keys (count : Nat) (p : Procman) :
    NewKeys event p (startInstances env key count p) := by
  induction count generalizing p with
  | zero => exact .of_procs rfl
  | succ count ih => exact (NewKeys.startProc p).trans (ih _)

theorem startall_keys (run : startall conf env p = .ok q) : NewKeys event p q := by
  refine ZHash.foreach_invariant (NewKeys event p) ?_ run (.of_procs rfl)
  rintro key _ state rc next call before
  cases call
  unfold startallItem
  split
  · exact before
  · split
    · exact before.trans (startInstances_keys _ state)
    · exact before

theorem sMainEvent_keys {command : Command} (run : sMainEvent env command p = .ok q) :
    NewKeys (.command command) p q := by
  unfold sMainEvent at run
  split at run
  · cases run
    exact .of_procs rfl
  · cases run
    exact .of_procs rfl
  · rename_i spid
    split at run
    · cases run
      exact .of_procs rfl
    · rename_i proc found
      split at run <;> cases run
      exact .setProc spid { proc with started := true } p
  · rename_i spid name
    cases run
    intro key member
    rcases (ZHash.mem_insertNew _ _ _ _).mp member with rfl | old
    · exact .inr (.inr ⟨name, rfl⟩)
    · exact .inl old
  · rename_i spid
    split at run
    · cases run
      exact .of_procs rfl
    · split at run <;> cases run
      exact .deleteProc spid ((p.kill (atoi spid) 3).kill (atoi spid) 3)
  · rename_i spid
    split at run
    · cases run
      exact .of_procs rfl
    · split at run <;> cases run
      have deleted : NewKeys (.command (.restart spid)) p
          ((((p.kill (atoi spid) 3).kill (atoi spid) 9).tell "remove" spid).deleteProc spid) :=
        .deleteProc spid (((p.kill (atoi spid) 3).kill (atoi spid) 9).tell "remove" spid)
      exact deleted.trans (.startProc _)
  · exact .of_procs (killall_told run).1

theorem checkpidItem_keys (run : checkpidItem conf env key p = .ok q) :
    NewKeys (.tick key) p q := by
  unfold checkpidItem at run
  split at run
  · cases run
    exact .of_procs rfl
  · rename_i proc found
    split at run
    · cases run
      exact .of_procs rfl
    split at run
    · cases run
    split at run
    · cases run
      exact .of_procs rfl
    split at run <;> cases run
    · exact .deleteProc key (p.kill (atoi key) 9)
    · exact .setProc key { proc with onRestart := true } (p.tell "restart" key)
    · exact .of_procs rfl
    · exact .of_procs rfl

theorem procman_keys (run : p.step conf env event = .ok q) : NewKeys event p q := by
  cases event with
  | tick key => exact checkpidItem_keys run
  | command command =>
      simp only [Procman.step] at run
      split at run
      · exact sMainEvent_keys run
      · have started : NewKeys (.command command) p { p with running := true } := .of_procs rfl
        exact started.trans (startall_keys run)

theorem told_eq {told more : List (String × String)} (said : q.told = p.told ++ told)
    (other : q.told = p.told ++ more) : told = more :=
  List.append_cancel_left (said.symm.trans other)

theorem told_nil {told : List (String × String)} (said : q.told = p.told ++ told)
    (silent : q.told = p.told) : told = [] :=
  List.self_eq_append_right.mp (silent.symm.trans said)

theorem procman_tells (run : p.step conf env event = .ok q)
    {told : List (String × String)} (said : q.told = p.told ++ told) :
    ∀ message ∈ told, isNotification message = true → message.2 ∈ p.procs := by
  intro message member notifies
  cases procman_cases run with
  | silent silent =>
      rw [told_nil said silent] at member
      cases member
  | checked _ _ answer =>
      rw [told_eq said answer, List.mem_singleton] at member
      rw [member] at notifies
      cases notifies
  | restarted _ present _ removes =>
      rw [told_eq said removes, List.mem_singleton] at member
      rw [member]
      exact present
  | reported _ found _ _ _ reports =>
      rw [told_eq said reports, List.mem_singleton] at member
      rw [member]
      exact ZHash.mem_of_lookup found

theorem texts_new : Texts busNew where
  keys _ member := by cases member
  registers _ _ member := by
    rcases List.mem_singleton.mp member with ⟨⟩
  notifications _ member := by cases member

theorem Texts.managed {after : Procman} {told : List (String × String)} {rest : List Command}
    {verdicts : List Bool} (texts : Texts bus) (run : bus.procman.step conf env event = .ok after)
    (said : after.told = bus.procman.told ++ told) (fewer : rest ⊆ bus.commands)
    (taken : ∀ command, event = .command command → command ∈ bus.commands) :
    Texts { bus with
      procman := after
      messages := bus.messages ++ told
      commands := rest
      verdicts := verdicts } where
  keys key member := by
    rcases procman_keys run key member with old | pid | ⟨name, registers⟩
    · exact texts.keys key old
    · exact pid
    · exact texts.registers key name (taken _ registers)
  registers spid name member := texts.registers spid name (fewer member)
  notifications message member notifies := by
    rcases List.mem_append.mp member with old | new
    · exact texts.notifications message old notifies
    · exact texts.keys _ (procman_tells run said message new notifies)

theorem Texts.step {event : BusEvent} (joined : Joined conf bus) (texts : Texts bus)
    (move : (twoParties conf).step bus event next) : Texts next := by
  cases bus_cases joined.registry move with
  | worked _ _ _ restarts =>
      refine ⟨texts.keys, fun spid name member => ?_, texts.notifications⟩
      rcases List.mem_append.mp member with old | new
      · exact texts.registers spid name old
      · obtain ⟨_, other⟩ := restarts.only _ new
        cases other
  | asking _ _ =>
      refine ⟨texts.keys, fun spid name member => ?_, texts.notifications⟩
      rcases List.mem_append.mp member with old | new
      · exact texts.registers spid name old
      · cases List.mem_singleton.mp new
  | @answered _ asked command text rest _ _ waits first _ _ only =>
      obtain ⟨p, _, asks, _⟩ := joined.waits waits
      obtain ⟨_, _, nonzero⟩ := introduceRequest_some (asksFor_some asks).2.2
      refine ⟨texts.keys, fun spid name member => ?_, fun message member => ?_⟩
      · rcases List.mem_append.mp member with old | new
        · exact texts.registers spid name old
        · cases only _ new
          exact ⟨_, nonzero, rfl⟩
      · exact texts.notifications message (first ▸ List.mem_cons_of_mem _ member)
  | @notified _ command text rest _ _ _ first _ _ only =>
      refine ⟨texts.keys, fun spid name member => ?_, fun message member => ?_⟩
      · rcases List.mem_append.mp member with old | new
        · exact texts.registers spid name old
        · obtain ⟨_, other⟩ := only _ new
          cases other
      · exact texts.notifications message (first ▸ List.mem_cons_of_mem _ member)
  | obeyed first run said =>
      refine texts.managed run said (first ▸ List.subset_cons_self _ _) ?_
      rintro _ ⟨⟩
      rw [first]
      exact List.mem_cons_self
  | ticked _ run said => exact texts.managed run said (List.Subset.refl _) (fun _ same => by cases same)

theorem texts_reaches {guard : Bus → BusEvent → Prop}
    (reached : Reaches (twoParties conf) guard bus) : Texts bus := by
  refine reached.invariant_reached Texts ?_ ?_
  · rintro state rfl
    exact texts_new
  · exact fun _ _ _ before _ move texts => texts.step (joined_reaches before) move

end

/-! Runs on given events. -/

def Bus.play (conf : Config) : List BusEvent → Bus → Option Bus
  | [], bus => some bus
  | event :: events, bus =>
      match bus.step conf event with
      | .ok (some next) => next.play conf events
      | _ => none

@[irreducible]
def busAfter (conf : Config) (events : List BusEvent) : Bus :=
  (busNew.play conf events).getD busNew

theorem play_append (conf : Config) (before after : List BusEvent) (bus : Bus) :
    bus.play conf (before ++ after) = (bus.play conf before).bind fun next =>
      next.play conf after := by
  induction before generalizing bus with
  | nil => rfl
  | cons event before ih =>
      simp only [List.cons_append, Bus.play]
      split
      · exact ih _
      · rfl

theorem busAfter_reaches {conf : Config} {guard : Bus → BusEvent → Prop} (events : List BusEvent)
    (event : BusEvent) (reached : Reaches (twoParties conf) guard (busAfter conf events))
    (allowed : guard (busAfter conf events) event)
    (played : (busNew.play conf (events ++ [event])).isSome = true) :
    Reaches (twoParties conf) guard (busAfter conf (events ++ [event])) := by
  obtain ⟨last, ends⟩ := Option.isSome_iff_exists.mp played
  rw [play_append] at ends
  obtain ⟨middle, before, after⟩ := Option.bind_eq_some_iff.mp ends
  have start : busAfter conf events = middle := by
    rw [busAfter, before, Option.getD_some]
  have final : busAfter conf (events ++ [event]) = last := by
    rw [busAfter, play_append, before, Option.bind_some, after, Option.getD_some]
  rw [start] at reached allowed
  rw [final]
  simp only [Bus.play] at after
  split at after
  · rename_i next move
    cases after
    exact reached.extend (.single allowed move)
  · cases after

theorem busAfter_nil (conf : Config) : busAfter conf [] = busNew := by
  rw [busAfter]
  rfl

theorem busAfter_anything (conf : Config) (events : List BusEvent)
    (played : (busNew.play conf events).isSome = true) :
    Reaches (twoParties conf) anything (busAfter conf events) := by
  induction events using List.reverseRecOn with
  | nil =>
      rw [busAfter_nil]
      exact .initial rfl
  | append_singleton events event ih =>
      have earlier : (busNew.play conf events).isSome = true := by
        rw [play_append] at played
        exact Option.isSome_of_isSome_bind played
      exact busAfter_reaches events event (ih earlier) trivial played

end ModBus
