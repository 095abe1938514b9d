import ModBus.Bus

/-! The introduction's question to the process manager shares a channel with
notifications. As long as none of them is before the answer, each question gets
its own answer and no notification is lost. -/

namespace ModBus

open Libc Czmq Transition

def Follows (outcome : Outcome) (verdict : Bool) : Prop :=
  outcome.registered = (outcome.whole && verdict)

structure Handshake (bus : Bus) : Prop where
  notifications : bus.procman.told.filter isNotification =
    bus.handled ++ bus.messages.filter isNotification
  introductions : ∃ answered pending, bus.verdicts = answered ++ pending ∧ pending.length ≤ 1 ∧
    List.Forall₂ Follows bus.outcomes answered

/-- An introduction finds the channel empty, and until its question has been
looked at the process manager neither finds a process to report nor restarts one. -/
def Unmixed (conf : Config) (bus : Bus) : BusEvent → Prop
  | .event env event => (asksFor env event bus.proxy).isSome = true → bus.messages = []
  | .receive _ => True
  | .command _ => ∀ spid rest pid, bus.commands = .restart spid :: rest → .checkPid pid ∈ rest →
      spid ∉ bus.procman.procs
  | .tick env key => ∀ pid proc, .checkPid pid ∈ bus.commands →
      bus.procman.procs.lookup key = some proc → bus.procman.stopAll = false →
      proc.onRestart = false →
      health conf env key proc ≠ .ok .gone ∧ health conf env key proc ≠ .ok .tooBig

def answerText (verdict : Bool) : String := if verdict then "yes" else "no"

inductive Phase (bus : Bus) : Prop
  | free (unasked : bus.asked = none) (none : ∀ pid, .checkPid pid ∉ bus.commands)
      (messages : ∀ message ∈ bus.messages, isNotification message = true)
      (agree : List.Forall₂ Follows bus.outcomes bus.verdicts) : Phase bus
  | asked {asked before pid} (waits : bus.asked = some asked)
      (question : bus.commands = before ++ [.checkPid pid])
      (only : ∀ pid, .checkPid pid ∉ before) (empty : bus.messages = [])
      (agree : List.Forall₂ Follows bus.outcomes bus.verdicts) : Phase bus
  | answered {asked verdicts verdict rest} (waits : bus.asked = some asked)
      (none : ∀ pid, .checkPid pid ∉ bus.commands)
      (answer : bus.messages = ("check_pid", answerText verdict) :: rest)
      (messages : ∀ message ∈ rest, isNotification message = true)
      (last : bus.verdicts = verdicts ++ [verdict])
      (agree : List.Forall₂ Follows bus.outcomes verdicts) : Phase bus

section

variable {conf : Config} {env : Env} {p q : Proxy} {message : Message} {name text : String}
  {pid : Int32} {bus next : Bus}

/-- Without `debug`, a module is registered unless the answer is "no". -/
theorem introduceAnswered_registers (debug : conf.debug = false)
    (run : introduceAnswered conf env message name pid text p = .ok q) {asked : Asked}
    (same : asked.message = message) :
    (asked.outcome p q).registered = ((asked.outcome p q).whole && decide (text ≠ "no")) := by
  subst same
  have stays : decide (asked.message.identity ∉ p.modules ∧ asked.message.identity ∈ p.modules) =
      false := by simp
  unfold introduceAnswered at run
  split at run
  · rename_i refused
    have no : text = "no" := by simpa [debug] using refused
    cases run
    simp only [Asked.outcome, stays, no, ne_eq, not_true_eq_false, decide_false, Bool.and_false]
  · rename_i accepted
    have yes : text ≠ "no" := by simpa [debug] using accepted
    simp only [yes, ne_eq, not_false_eq_true, decide_true, Bool.and_true]
    split at run
    · cases run
    · split at run
      · cases run
      · cases run
      · rename_i provided
        obtain ⟨_, _, rfl⟩ := map_ok.mp run
        simp only [Asked.outcome, stays, Asked.whole, provided, Bool.and_false]
      · rename_i desc provides _ provided
        split at run
        · rename_i empty
          obtain ⟨_, _, rfl⟩ := map_ok.mp run
          simp only [Asked.outcome, stays, Asked.whole, provided, empty, Bool.not_true,
            Bool.and_false]
        · rename_i some
          simp only [] at run
          split at run
          · cases run
          · rename_i middle functions
            cases run
            have there : asked.message.identity ∈ (registerModule
                (introducedModule ⟨p.brk, asked.message.identity⟩ name desc pid provides)
                (zstrSend (.register (decimal pid.toInt) name) middle)).modules :=
              (ZHash.mem_insertNew _ _ _ _).mpr (.inl rfl)
            simp only [Asked.outcome, Asked.whole, provided, some, sendMessage_modules]
            simp only [introducedModule] at there ⊢
            simp [there]

theorem follows_of_answer (debug : conf.debug = false) {asked : Asked} {verdict : Bool}
    (run : introduceAnswered conf asked.env asked.message asked.name asked.pid
      (answerText verdict) p = .ok q) : Follows (asked.outcome p q) verdict := by
  have registers := introduceAnswered_registers debug run rfl
  have text : decide (answerText verdict ≠ "no") = verdict := by
    cases verdict <;> decide
  rw [text] at registers
  exact registers

theorem Phase.fits (phase : Phase bus) : ∃ answered pending, bus.verdicts = answered ++ pending ∧
    pending.length ≤ 1 ∧ List.Forall₂ Follows bus.outcomes answered := by
  cases phase with
  | free _ _ _ agree => exact ⟨_, [], (List.append_nil _).symm, by simp, agree⟩
  | asked _ _ _ _ agree => exact ⟨_, [], (List.append_nil _).symm, by simp, agree⟩
  | answered _ _ _ _ last agree => exact ⟨_, _, last, by simp, agree⟩

theorem Phase.worked (after : Proxy) {commands : List Command} (phase : Phase bus)
    (free : bus.asked = none) (only : ∀ command ∈ commands, ∃ spid, command = .restart spid) :
    Phase { bus with proxy := after, commands := bus.commands ++ commands } := by
  cases phase with
  | free _ none messages agree =>
      refine .free free ?_ messages agree
      intro pid member
      rcases List.mem_append.mp member with old | new
      · exact none pid old
      · obtain ⟨_, other⟩ := only _ new
        cases other
  | asked waits => cases free.symm.trans waits
  | answered waits => cases free.symm.trans waits

theorem Phase.asking {after : Proxy} {asked : Asked} (phase : Phase bus)
    (free : bus.asked = none) (empty : bus.messages = []) (pid : String) :
    Phase { bus with
      proxy := after
      commands := bus.commands ++ [.checkPid pid]
      asked := some asked } := by
  cases phase with
  | free _ none _ agree => exact .asked rfl rfl none empty agree
  | asked waits => cases free.symm.trans waits
  | answered waits => cases free.symm.trans waits

theorem Phase.takes {asked : Asked} {command text : String} {rest : List (String × String)}
    (phase : Phase bus) (waits : bus.asked = some asked)
    (first : bus.messages = (command, text) :: rest) :
    command = "check_pid" ∧ ∃ verdicts verdict, text = answerText verdict ∧
      bus.verdicts = verdicts ++ [verdict] ∧ List.Forall₂ Follows bus.outcomes verdicts ∧
      (∀ pid, .checkPid pid ∉ bus.commands) ∧
      ∀ message ∈ rest, isNotification message = true := by
  cases phase with
  | free unasked => cases unasked.symm.trans waits
  | asked _ _ _ empty => cases empty.symm.trans first
  | answered _ none answer messages last agree =>
      cases answer.symm.trans first
      exact ⟨rfl, _, _, rfl, last, agree, none, messages⟩

inductive Obeys (command : Command) (p : Procman) (told : List (String × String)) : Prop
  | answers {spid} (question : command = .checkPid spid)
      (answer : told = [("check_pid", answerText (decide (spid ∈ p.procs)))]) :
      Obeys command p told
  | removes {spid} (restart : command = .restart spid) (present : spid ∈ p.procs)
      (removal : told = [("remove", spid)]) : Obeys command p told
  | silent (other : ∀ spid, command ≠ .checkPid spid) (nothing : told = []) :
      Obeys command p told

theorem Joined.obeys {env : ProcEnv} {command : Command} {rest : List Command} {after : Procman}
    {told : List (String × String)} (joined : Joined conf bus)
    (first : bus.commands = command :: rest)
    (run : bus.procman.step conf env (.command command) = .ok after)
    (said : after.told = bus.procman.told ++ told) : Obeys command bus.procman told := by
  cases procman_cases run with
  | silent silent _ unasked _ =>
      refine .silent ?_ (told_nil said silent)
      intro spid question
      obtain ⟨_, start⟩ := joined.start (unasked spid (by rw [question]))
      rw [first, question] at start
      cases start
  | @checked spid question _ answer _ =>
      cases question
      refine .answers rfl ?_
      rw [told_eq said answer]
      by_cases present : spid ∈ bus.procman.procs <;> simp [answerText, present]
  | restarted restart present _ removal _ _ =>
      cases restart
      exact .removes rfl present (told_eq said removal)
  | reported tick => cases tick

theorem Obeys.notifies {command : Command} {p : Procman} {told : List (String × String)}
    (obeys : Obeys command p told) (other : ∀ spid, command ≠ .checkPid spid) :
    ∀ message ∈ told, isNotification message = true := by
  intro message member
  cases obeys with
  | answers question => exact absurd question (other _)
  | removes _ _ removal =>
      rw [removal, List.mem_singleton] at member
      rw [member]
      rfl
  | silent _ nothing =>
      rw [nothing] at member
      cases member

theorem verdictOf_other {command : Command} (other : ∀ spid, command ≠ .checkPid spid)
    (p : Procman) : verdictOf command p = [] := by
  cases command with
  | checkPid spid => exact absurd rfl (other spid)
  | _ => rfl

theorem Phase.obeyed {env : ProcEnv} {command : Command} {rest : List Command} {after : Procman}
    {told : List (String × String)} (joined : Joined conf bus) (phase : Phase bus)
    (first : bus.commands = command :: rest)
    (unmixed : ∀ spid pid, command = .restart spid → .checkPid pid ∈ rest →
      spid ∉ bus.procman.procs)
    (run : bus.procman.step conf env (.command command) = .ok after)
    (said : after.told = bus.procman.told ++ told) :
    Phase { bus with
      procman := after
      messages := bus.messages ++ told
      commands := rest
      verdicts := bus.verdicts ++ verdictOf command bus.procman } := by
  have obeys := joined.obeys first run said
  cases phase with
  | free unasked none messages agree =>
      have other : ∀ spid, command ≠ .checkPid spid := by
        rintro spid rfl
        exact none spid (first ▸ List.mem_cons_self)
      refine .free unasked (fun pid member => none pid (first ▸ List.mem_cons_of_mem _ member)) ?_ ?_
      · intro message member
        rcases List.mem_append.mp member with old | new
        · exact messages message old
        · exact obeys.notifies other message new
      · simp only [verdictOf_other other, List.append_nil]
        exact agree
  | @asked asked before pid waits question only empty agree =>
      rw [first] at question
      cases before with
      | nil =>
          cases question
          cases obeys with
          | answers question answer =>
              cases question
              have only : bus.messages ++ told =
                  [("check_pid", answerText (decide (pid ∈ bus.procman.procs)))] := by
                rw [empty, answer, List.nil_append]
              exact .answered waits (by simp) only (by simp) rfl agree
          | removes restart => cases restart
          | silent other => exact absurd rfl (other pid)
      | cons head before =>
          cases question
          have other : ∀ spid, command ≠ .checkPid spid := by
            rintro spid rfl
            exact only spid List.mem_cons_self
          have nothing : told = [] := by
            cases obeys with
            | answers question => exact absurd question (other _)
            | removes restart present =>
                exact absurd present (unmixed _ pid restart (by simp))
            | silent _ nothing => exact nothing
          refine .asked waits rfl (fun pid member => only pid (List.mem_cons_of_mem _ member)) ?_ ?_
          · rw [empty, nothing]
            rfl
          · simp only [verdictOf_other other, List.append_nil]
            exact agree
  | @answered asked verdicts verdict behind waits none answer messages last agree =>
      have other : ∀ spid, command ≠ .checkPid spid := by
        rintro spid rfl
        exact none spid (first ▸ List.mem_cons_self)
      have front : bus.messages ++ told =
          ("check_pid", answerText verdict) :: (behind ++ told) := by
        rw [answer, List.cons_append]
      refine .answered waits (fun pid member => none pid (first ▸ List.mem_cons_of_mem _ member))
        front ?_ ?_ agree
      · intro message member
        rcases List.mem_append.mp member with old | new
        · exact messages message old
        · exact obeys.notifies other message new
      · simp only [verdictOf_other other, List.append_nil]
        exact last

theorem Phase.ticked {env : ProcEnv} {key : String} {after : Procman}
    {told : List (String × String)} (phase : Phase bus)
    (unmixed : ∀ pid proc, .checkPid pid ∈ bus.commands →
      bus.procman.procs.lookup key = some proc → bus.procman.stopAll = false →
      proc.onRestart = false →
      health conf env key proc ≠ .ok .gone ∧ health conf env key proc ≠ .ok .tooBig)
    (run : bus.procman.step conf env (.tick key) = .ok after)
    (said : after.told = bus.procman.told ++ told) :
    Phase { bus with procman := after, messages := bus.messages ++ told } := by
  have reports : told = [] ∨ (∀ pid, .checkPid pid ∉ bus.commands) ∧
      ∀ message ∈ told, isNotification message = true := by
    cases procman_cases run with
    | silent silent => exact .inl (told_nil said silent)
    | checked question => cases question
    | restarted restart => cases restart
    | reported tick found going awake bad report =>
        cases tick
        rw [told_eq said report]
        refine .inr ⟨fun pid asked => ?_, ?_⟩
        · obtain ⟨notGone, notBig⟩ := unmixed pid _ asked found going awake
          exact bad.elim notGone notBig
        · intro message member
          rw [List.mem_singleton.mp member]
          rfl
  rcases reports with rfl | ⟨unasked, notifies⟩
  · simp only [List.append_nil]
    cases phase with
    | free unasked none messages agree => exact .free unasked none messages agree
    | asked waits question only empty agree => exact .asked waits question only empty agree
    | answered waits none answer messages last agree =>
        exact .answered waits none answer messages last agree
  · cases phase with
    | free free none messages agree =>
        refine .free free none ?_ agree
        intro message member
        exact (List.mem_append.mp member).elim (messages message) (notifies message)
    | @asked asked before pid _ question =>
        exact absurd (by simp [question]) (unasked pid)
    | @answered asked verdicts verdict behind waits none answer messages last agree =>
        have front : bus.messages ++ told =
            ("check_pid", answerText verdict) :: (behind ++ told) := by
          rw [answer, List.cons_append]
        refine .answered waits none front ?_ last agree
        intro message member
        exact (List.mem_append.mp member).elim (messages message) (notifies message)

structure Exchange (bus : Bus) : Prop where
  phase : Phase bus
  notifications : bus.procman.told.filter isNotification =
    bus.handled ++ bus.messages.filter isNotification

theorem exchange_new : Exchange busNew where
  phase := .free rfl (fun pid member => by cases List.mem_singleton.mp member) (by simp [busNew])
    .nil
  notifications := rfl

theorem Exchange.managed {after : Procman} {told : List (String × String)}
    (exchange : Exchange bus) (said : after.told = bus.procman.told ++ told) :
    after.told.filter isNotification =
      bus.handled ++ (bus.messages ++ told).filter isNotification := by
  rw [said, List.filter_append, List.filter_append, exchange.notifications, List.append_assoc]

theorem Exchange.step {event : BusEvent} (debug : conf.debug = false) (joined : Joined conf bus)
    (texts : Texts bus) (exchange : Exchange bus) (unmixed : Unmixed conf bus event)
    (move : (twoParties conf).step bus event next) : Exchange next := by
  have phase := exchange.phase
  cases bus_cases joined.registry move with
  | worked free _ _ restarts => exact ⟨phase.worked _ free restarts.only, exchange.notifications⟩
  | asking free asks =>
      exact ⟨phase.asking free (unmixed (by simp [asks])) _, exchange.notifications⟩
  | @answered _ asked command text rest _ _ waits first run _ only =>
      obtain ⟨rfl, verdicts, verdict, rfl, last, agree, none, messages⟩ := phase.takes waits first
      have follows := follows_of_answer debug run
      have kept := exchange.notifications
      rw [first] at kept
      refine ⟨.free rfl ?_ messages ?_, kept⟩
      · intro pid member
        rcases List.mem_append.mp member with old | new
        · exact none pid old
        · cases only _ new
      · rw [last]
        exact List.rel_append agree (.cons follows .nil)
  | @notified _ command text rest _ _ free first run _ only =>
      have head : (command, text) ∈ bus.messages := first ▸ List.mem_cons_self
      cases phase.worked bus.proxy free only with
      | free _ none messages agree =>
          have notifies := messages _ head
          have nonzero := (texts.notifications _ head notifies).atoi_ne
          refine ⟨.free free none ?_ agree, ?_⟩
          · exact fun message member => messages message (first ▸ List.mem_cons_of_mem _ member)
          · have kept := exchange.notifications
            rw [first, List.filter_cons_of_pos notifies] at kept
            simp only [searched, nonzero, if_false, List.append_assoc, List.singleton_append]
            exact kept
      | asked waits => cases free.symm.trans waits
      | answered waits => cases free.symm.trans waits
  | obeyed first run said =>
      refine ⟨phase.obeyed joined first ?_ run said, exchange.managed said⟩
      rintro spid pid rfl asked
      exact unmixed spid _ pid first asked
  | ticked _ run said => exact ⟨phase.ticked unmixed run said, exchange.managed said⟩

/-- Without `debug`, as long as no notification comes between a question and its
answer, none is lost and each introduction gets the answer to its own question. -/
theorem handshake (debug : conf.debug = false)
    (reached : Reaches (twoParties conf) (Unmixed conf) bus) : Handshake bus := by
  have exchange : Exchange bus := by
    refine reached.invariant_reached Exchange ?_ ?_
    · rintro state rfl
      exact exchange_new
    · exact fun _ _ _ before unmixed move exchange =>
        exchange.step debug (joined_reaches before) (texts_reaches before) unmixed move
  exact ⟨exchange.notifications, exchange.phase.fits⟩

end

def starting : ProcEnv := startsAs 77 (by decide)

def introducing (pid : UInt64) : BusEvent :=
  .event early (.localMsg (introduceOf worker "mod" pid [("f", 1)]) "")

def introducesItself : List BusEvent :=
  [.command starting, introducing 77, .command starting, .receive early, .command starting]

def diesKnown : List BusEvent := introducesItself ++ [.tick starting "77", .receive early]

theorem handshake_introduced : Handshake (busAfter oneModule diesKnown) ∧
    (busAfter oneModule diesKnown).handled = [("restart", "77")] ∧
    (busAfter oneModule diesKnown).verdicts = [true] := by
  have start : Reaches (twoParties oneModule) (Unmixed oneModule) (busAfter oneModule []) := by
    rw [busAfter_nil]
    exact .initial rfl
  have only : ∀ events command (env : ProcEnv), (busAfter oneModule events).commands = [command] →
      (∀ spid, command ≠ .restart spid) →
      Unmixed oneModule (busAfter oneModule events) (.command env) := by
    intro events command env single other spid rest pid first
    rw [single, List.cons.injEq] at first
    exact absurd first.1 (other spid)
  have one := busAfter_reaches [] (.command starting) start
    (only _ .startall _ (by decide +kernel) (by simp)) (by decide +kernel)
  have two := busAfter_reaches [.command starting] (introducing 77) one
    (fun _ => by decide +kernel) (by decide +kernel)
  have three := busAfter_reaches [.command starting, introducing 77] (.command starting) two
    (only _ (.checkPid "77") _ (by decide +kernel) (by simp)) (by decide +kernel)
  have four := busAfter_reaches [.command starting, introducing 77, .command starting]
    (.receive early) three trivial (by decide +kernel)
  have five := busAfter_reaches
    [.command starting, introducing 77, .command starting, .receive early] (.command starting) four
    (only _ (.register "77" "mod") _ (by decide +kernel) (by simp)) (by decide +kernel)
  have unasked : (busAfter oneModule introducesItself).commands = [] := by decide +kernel
  have six := busAfter_reaches introducesItself (.tick starting "77") five
    (fun _ _ question => by simp [unasked] at question) (by decide +kernel)
  have seven := busAfter_reaches (introducesItself ++ [.tick starting "77"]) (.receive early) six
    trivial (by decide +kernel)
  exact ⟨handshake rfl seven, by decide +kernel, by decide +kernel⟩

def strangerAsks : List BusEvent :=
  [.command starting, .tick starting "77", introducing 999, .receive early, .command starting]

/-- The report of the dead process is taken for the answer: the stranger is
registered, and nobody hears of the process again. -/
theorem handshake_mixed :
    ¬ ∀ conf bus, conf.debug = false → Reaches (twoParties conf) anything bus → Handshake bus := by
  intro always
  have reached := busAfter_anything oneModule strangerAsks (by decide +kernel)
  have outcomes : (busAfter oneModule strangerAsks).outcomes = [⟨true, true⟩] ∧
      (busAfter oneModule strangerAsks).verdicts = [false] := by decide +kernel
  obtain ⟨answered, pending, verdicts, _, agree⟩ := (always _ _ rfl reached).introductions
  rw [outcomes.1] at agree
  rw [outcomes.2] at verdicts
  cases agree with
  | @cons _ verdict _ rest follows more =>
      rw [List.cons_append, List.cons.injEq] at verdicts
      rw [← verdicts.1] at follows
      cases follows

end ModBus
