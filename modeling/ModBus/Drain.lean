import ModBus.Execute
import ModBus.Occupancy

/-! Restarting a busy module: from the request on it is given no more work, and
the answer to what it has is the last that it does. -/

namespace ModBus

open Libc Czmq Transition

def Draining (card : Module) (key : String) (p : Proxy) : Prop :=
  ∃ mod, p.modules.lookup key = some mod ∧ mod.card = card ∧ mod.needRestart = true ∧
    mod.state ≠ .idle

def NotGiven (key : String) (sent : Sent) : Prop :=
  ∀ call, sent.cause = .toModule call → call.routedVia ≠ some key

def NoneIdle (p : Proxy) : Prop :=
  ∀ key mod, p.modules.lookup key = some mod → mod.needRestart = true → mod.state ≠ .idle

structure Spares (card : Module) (key : String) (p q : Proxy) : Prop where
  draining : Draining card key p → Draining card key q ∧ Sends (NotGiven key) p q
  noneIdle : NoneIdle p → NoneIdle q

section

variable {conf : Config} {env : Env} {event : Event} {p q : Proxy} {message placed : Message}
  {card mod : Module} {key : String}

theorem Spares.refl (p : Proxy) : Spares card key p p :=
  ⟨fun draining => ⟨draining, .refl p⟩, id⟩

theorem Spares.trans {r : Proxy} (left : Spares card key p q) (right : Spares card key q r) :
    Spares card key p r := by
  refine ⟨fun draining => ?_, fun before => right.noneIdle (left.noneIdle before)⟩
  obtain ⟨still, first⟩ := left.draining draining
  obtain ⟨last, second⟩ := right.draining still
  exact ⟨last, first.trans second⟩

theorem Spares.frame (modules : q.modules = p.modules) (sends : Sends (NotGiven key) p q) :
    Spares card key p q := by
  refine ⟨?_, fun before key mod found => before key mod (modules ▸ found)⟩
  rintro ⟨mod, found, same⟩
  exact ⟨⟨mod, modules ▸ found, same⟩, sends⟩

theorem Spares.same (modules : q.modules = p.modules) (sent : q.sent = p.sent) :
    Spares card key p q := .frame modules (.of_eq sent)

theorem Spares.sendMessage {cause : Cause} (other : ∀ call, cause ≠ .toModule call)
    (payload : Object) (identity : String) (p : Proxy) :
    Spares card key p (sendMessage env cause payload identity p).2 :=
  .frame (by simp) (Sends.sendMessage _ p fun _ _ _ call same => absurd same (other call))

theorem Spares.setModule {other : String} {old : Module} (new : Module)
    (found : p.modules.lookup other = some old)
    (kept : old.needRestart = true → old.state ≠ .idle →
      new.card = old.card ∧ new.needRestart = true ∧ new.state ≠ .idle)
    (busy : new.needRestart = true → new.state ≠ .idle)
    (modules : q.modules = ZHash.update p.modules other new) (sent : q.sent = p.sent) :
    Spares card key p q := by
  have lookup := fun key => ZHash.lookup_update (ZHash.mem_of_lookup found) key new
  refine ⟨?_, fun before key mod there => ?_⟩
  · rintro ⟨mod, there, same, needs, working⟩
    refine ⟨?_, .of_eq sent⟩
    rw [Draining, modules, lookup]
    by_cases here : key = other
    · subst here
      cases found.symm.trans there
      obtain ⟨card, needed, working⟩ := kept needs working
      exact ⟨new, if_pos rfl, card.trans same, needed, working⟩
    · exact ⟨mod, by rw [if_neg here]; exact there, same, needs, working⟩
  · rw [modules, lookup] at there
    split at there
    · cases there
      exact busy
    · exact before key mod there

theorem PlaceOutcome.spares {rc : Int} (outcome : PlaceOutcome env message p rc placed q) :
    Spares card key p q := by
  cases outcome with
  | routed => exact .refl p
  | rejected => exact .refl p
  | waiting _ _ _ _ _ modules sent => exact .same modules sent
  | @toModule iface _ _ via mod on _ routed _ _ found idle modules sent =>
      have lookup := fun key => ZHash.lookup_update (ZHash.mem_of_lookup found) key
        { mod with state := .busy }
      constructor
      · rintro ⟨old, there, same, needs, working⟩
        have other : via ≠ key := by
          rintro rfl
          cases found.symm.trans there
          exact working idle
        constructor
        · refine ⟨old, ?_, same, needs, working⟩
          rw [modules, lookup, if_neg other.symm]
          exact there
        · have given : Sends (NotGiven key) p
              (ModBus.sendMessage env (.toModule placed) message.object via p).2 := by
            refine Sends.sendMessage _ p fun _ _ _ call handed => ?_
            cases handed
            rw [routed]
            simpa using other
          obtain ⟨more, grown, good⟩ := given
          exact ⟨more, sent.trans grown, good⟩
      · intro before key other there
        rw [modules, lookup] at there
        split at there
        · cases there
          intro _ same
          cases same
        · exact before key other there
  | @toFabric iface _ _ via on _ _ _ _ _ modules sent =>
      refine .frame modules ?_
      have given : Sends (NotGiven key) p
          (ModBus.sendMessage env (.toFabric placed) message.object via p).2 :=
        Sends.sendMessage _ p fun _ _ _ call handed => by cases handed
      obtain ⟨more, grown, good⟩ := given
      exact ⟨more, sent.trans grown, good⟩

theorem placeQueued_spares {other : String} {rc : Int}
    (run : placeQueued env other p = .ok (rc, q)) : Spares card key p q := by
  rcases placeQueued_ok run with ⟨_, _, rfl⟩ | ⟨call, placed, middle, _, placement, same, _⟩
  · exact .refl _
  · rw [same]
    exact (placeCall_outcome placement).spares.trans (.same rfl rfl)

theorem placeAll_spares (run : placeAll env p = .ok q) : Spares card key p q :=
  ZHash.foreach_invariant (Spares card key p)
    (fun _ _ _ _ _ call before => before.trans (placeQueued_spares call)) run (.refl p)

/-- A module that answered is idle again only if it is not to be restarted. -/
theorem putBack_spares {identity : String} (run : putBack env identity p = .ok q) :
    Spares card key p q := by
  rcases putBack_ok run with ⟨_, rfl⟩ | ⟨mod, found, ⟨_, rfl⟩ | ⟨unneeded, run⟩⟩
  · exact .refl _
  · exact .same rfl rfl
  · have idle : Spares card key p (p.setModule identity { mod with state := .idle }) := by
      have never : ∀ {P : Prop}, mod.needRestart = true → P := by
        intro P needs
        rw [unneeded] at needs
        cases needs
      exact .setModule { mod with state := .idle } found (fun needs _ => never needs) never rfl rfl
    exact idle.trans (placeAll_spares run)

theorem answerCaller_spares (stored : Message) (payload : Object) (p : Proxy) :
    Spares card key p (answerCaller env stored payload p) :=
  (Spares.sendMessage (fun _ same => by cases same) _ _ p).trans (.same rfl rfl)

theorem answerFabric_spares (stored : Message) (payload : Object) (p : Proxy) :
    Spares card key p (answerFabric env stored payload p) := by
  unfold answerFabric
  split
  · exact (Spares.sendMessage (fun _ same => by cases same) _ _ p).trans (.same rfl rfl)
  · exact .same rfl rfl

theorem Returned.spares {stored : Message} {middle : Proxy}
    (returned : Returned env message stored p middle) : Spares card key p middle := by
  cases returned with
  | caller own => exact answerCaller_spares _ _ p
  | fabric foreign near => exact answerFabric_spares _ _ p
  | nowhere foreign far => exact .same rfl rfl

theorem processResult_spares (registry : Registry p)
    (run : processResult env message p = .ok q) : Spares card key p q := by
  rcases processResult_ok run with ⟨_, brought⟩ |
    ⟨stored, middle, _, returned, ⟨_, run⟩ | ⟨_, rfl⟩⟩
  · have extended := processIfaceList_extends registry brought
    refine .same ?_ ?_ <;> rw [extended.same]
  · exact returned.spares.trans (putBack_spares run)
  · exact returned.spares

theorem processException_spares (run : processException env message p = .ok q) :
    Spares card key p q := by
  rcases processException_ok run with ⟨rfl, _⟩ | ⟨stored, _, ⟨_, _, _, rc, placement⟩ |
    ⟨middle, returned, ⟨_, run, _⟩ | ⟨_, rfl, _⟩⟩⟩
  · exact .refl _
  · exact placeQueued_spares placement
  · exact returned.spares.trans (putBack_spares run)
  · exact returned.spares

theorem refuse_spares (call : Message) (text : String) (code : Int32) (p : Proxy) :
    Spares card key p (refuse env call text code p) :=
  .sendMessage (fun _ same => by cases same) _ _ p

theorem processCall_spares (run : processCall env message p = .ok q) : Spares card key p q := by
  obtain ⟨call, _, ⟨_, rfl⟩ | ⟨_, rc, placed, middle, placement, outcome⟩⟩ := processCall_ok run
  · exact refuse_spares _ _ _ p
  · have before : Spares card key p middle := (placeCall_outcome placement).spares
    rcases outcome with ⟨_, rfl⟩ | ⟨_, _, rfl⟩
    · exact before.trans (refuse_spares _ _ _ _)
    · exact before.trans (.same rfl rfl)

theorem Introduces.spares {name : String} {pid : Int32} {desc : Option String}
    {provides : ZHash Unpacked} {middle : Proxy} (registry : Registry p)
    (introduces : Introduces env message name pid desc provides p middle q) :
    Spares card key p q := by
  have kept := (introduces.extends registry).same
  have before : Spares card key p middle := .same (by rw [kept]; rfl) (by rw [kept]; rfl)
  refine before.trans ?_
  rw [introduces.registers]
  refine Spares.trans ?_ (.sendMessage (fun _ same => by cases same) _ _ _)
  constructor
  · rintro ⟨mod, found, same⟩
    refine ⟨⟨mod, ?_, same⟩, .of_eq rfl⟩
    -- A second module under the same identity is not inserted.
    rw [registerModule, ZHash.lookup_insertNew, if_neg]
    · exact found
    · rintro ⟨rfl, new⟩
      exact new (ZHash.mem_of_lookup found)
  · intro before key mod found
    rw [registerModule, ZHash.lookup_insertNew] at found
    split at found
    · cases found
      intro needs
      cases needs
    · exact before key mod found

structure SparesOrLoses (card : Module) (key : String) (p q : Proxy) : Prop where
  draining : Draining card key p →
    (Draining card key q ∨ key ∉ q.modules) ∧ Sends (NotGiven key) p q
  noneIdle : NoneIdle p → NoneIdle q

theorem Spares.orLoses (spares : Spares card key p q) : SparesOrLoses card key p q := by
  refine ⟨fun draining => ?_, spares.noneIdle⟩
  obtain ⟨still, sends⟩ := spares.draining draining
  exact ⟨.inl still, sends⟩

theorem SparesOrLoses.removes (other : String) (modules : q.modules = p.modules.erase other)
    (sends : Sends (NotGiven key) p q) : SparesOrLoses card key p q := by
  constructor
  · rintro ⟨mod, found, same⟩
    refine ⟨?_, sends⟩
    by_cases here : key = other
    · right
      rw [modules, here]
      exact fun member => (AList.mem_erase.mp member).1 rfl
    · left
      exact ⟨mod, modules ▸ ZHash.lookup_erase_some.mpr ⟨here, found⟩, same⟩
  · intro before key mod found
    rw [modules] at found
    exact before key mod (ZHash.lookup_erase_some.mp found).2

theorem sProcmanEvent_spares {command cPid : String}
    (run : sProcmanEvent env command cPid p = .ok q) : SparesOrLoses card key p q := by
  rcases sProcmanEvent_ok run with rfl | ⟨other, mod, _, named, notice⟩
  · exact (Spares.refl _).orLoses
  · obtain ⟨found, _⟩ := namedModule_some named
    by_cases remove : command = "remove"
    · subst remove
      rw [noticed_removes notice]
      exact .removes mod.identity.text rfl (.of_eq rfl)
    · refine Spares.orLoses ?_
      rw [noticed_keeps notice remove]
      split
      · split
        · rename_i idle
          have restarting : Spares card key p
              (p.setModule other { mod with state := .restarting }) :=
            .setModule _ found (fun _ working => absurd idle working) (fun _ same => by cases same)
              rfl rfl
          exact restarting.trans (.same rfl rfl)
        · rename_i working
          have scheduled : Spares card key p
              (p.setModule other { mod with needRestart := true }) := by
            exact .setModule { mod with needRestart := true } found
              (fun _ working => ⟨rfl, rfl, working⟩) (fun _ => working) rfl rfl
          exact scheduled
      · exact .refl p

theorem processQueueItem_spares {other : String}
    (run : processQueueItem conf env other p = .ok q) : SparesOrLoses card key p q := by
  rcases processQueueItem_ok run with ⟨same, _⟩ | ⟨call, msg, _, _, same⟩
  · rw [same]
    exact (Spares.refl p).orLoses
  · rw [same]
    cases stuck : stuckModule conf env call p with
    | none =>
        rw [unstuck_none stuck]
        have replied : Spares card key p
            (sendMessage env (.reply call) msg call.identity p).2 :=
          .sendMessage (fun _ same => by cases same) _ _ p
        have dropped : Spares card key (sendMessage env (.reply call) msg call.identity p).2
            ((sendMessage env (.reply call) msg call.identity p).2.deleteCall other) :=
          .same rfl rfl
        exact (replied.trans dropped).orLoses
    | some mod =>
        have silent : ∀ dest ok, NotGiven key ⟨.reply call, dest, msg, ok⟩ := by
          intro dest ok other same
          cases same
        rw [unstuck_some stuck]
        refine .removes mod.identity.text ?_ ?_
        · rw [deleteCall_modules, sendMessage_modules]
          rfl
        · refine Sends.frame ((Sends.sendMessage _ _ fun dest ok _ => silent dest ok).trans
            (.of_eq rfl)) ?_
          rfl

theorem step_spares (registry : Registry p) (run : p.step conf env event = .ok q) :
    SparesOrLoses card key p q := by
  cases step_handled run with
  | unreadable _ same => exact (Spares.same (same ▸ rfl) (same ▸ rfl)).orLoses
  | @command message read commanded =>
      have still := registry.arrived message
      have arrived : Spares card key p (p.arrived message) :=
        .same (arrived_modules message p) (arrived_sent message p)
      refine (arrived.trans ?_).orLoses
      cases commanded with
      | ignored _ same =>
          rw [same]
          exact .refl _
      | request _ requested =>
          rcases processRequest_ok requested with rfl | ⟨msg, fab, _, _, rfl⟩
          · exact .refl _
          · exact .sendMessage (fun _ same => by cases same) _ _ _
      | result _ run => exact processResult_spares still run
      | call _ run => exact processCall_spares run
      | exception _ run => exact processException_spares run
      | introduce _ introduced =>
          rcases processIntroduce_ok introduced with asked | ⟨_, _, _, _, _, _, introduces⟩
          · exact .same (by rw [asked]) (by rw [asked])
          · exact introduces.spares still
  | procman _ notified => exact sProcmanEvent_spares notified
  | queueItem _ run => exact processQueueItem_spares run
  | fabItem _ run =>
      refine Spares.orLoses ?_
      rcases getIfaceListEventItem_ok run with same | ⟨fab, _, ⟨_, same⟩ | ⟨_, same⟩⟩
      · rw [same]
        exact .refl p
      · rw [same]
        exact (Spares.sendMessage (fun _ same => by cases same) _ _ p).trans (.same rfl rfl)
      · rw [same]
        exact .same rfl rfl
  | beacon _ announced =>
      rcases sBeaconEvent_ok announced with rfl | ⟨identity, _, _, same⟩
      · exact (Spares.refl _).orLoses
      · exact (Spares.same (same ▸ rfl) (same ▸ rfl)).orLoses

theorem noneIdle_reaches (reached : Reaches (fabric conf) anything p) : NoneIdle p := by
  have both : Registry p ∧ NoneIdle p := by
    refine reached.invariant (fun p => Registry p ∧ NoneIdle p) ?_ ?_
    · rintro state rfl
      exact ⟨registry_new, fun _ _ found => by cases found⟩
    · rintro state ⟨env, event⟩ next _ move ⟨registry, before⟩
      -- Which module the relation is about makes no difference here.
      have spares : SparesOrLoses (introducedModule ⟨0, ""⟩ "" none 0 ∅) "" state next :=
        step_spares registry move
      exact ⟨registry.step move, spares.noneIdle before⟩
  exact both.2

def Stays (conf : Config) (key : String) (labels : List (Env × Event)) (p : Proxy) : Prop :=
  ∀ before after q, labels = before ++ after → p.execute conf before = .ok q → key ∈ q.modules

theorem Stays.tail {label : Env × Event} {labels : List (Env × Event)}
    (stays : Stays conf key (label :: labels) p) (move : p.step conf label.1 label.2 = .ok q) :
    Stays conf key labels q := by
  intro before after r same run
  refine stays (label :: before) after r (by rw [same, List.cons_append]) ?_
  rw [Proxy.execute, move]
  exact run

theorem Draining.execute {labels : List (Env × Event)} (registry : Registry p)
    (draining : Draining card key p) (stays : Stays conf key labels p)
    (run : p.execute conf labels = .ok q) :
    Draining card key q ∧ Sends (NotGiven key) p q := by
  induction labels generalizing p with
  | nil =>
      cases run
      exact ⟨draining, .refl _⟩
  | cons label labels ih =>
      obtain ⟨env, event⟩ := label
      simp only [Proxy.execute] at run
      split at run
      · cases run
      · rename_i next move
        obtain ⟨now, first⟩ := (step_spares registry move).draining draining
        have rest := stays.tail move
        have there : key ∈ next.modules := rest [] labels next rfl rfl
        have still : Draining card key next := now.resolve_right (not_not_intro there)
        obtain ⟨last, second⟩ := ih (registry.step move) still rest run
        exact ⟨last, first.trans second⟩

/-- A module that is to be restarted is restarted when it answers. -/
theorem Draining.answers {stored : Message} (draining : Draining card key p)
    (read : event.message env p = some message) (near : message.isLocal = true)
    (own : message.identity = key)
    (isAnswer : message.command = "result" ∨ message.command = "exception")
    (queued : p.queue.lookup message.actionid = some stored)
    (run : p.step conf env event = .ok q) : q.procman = p.procman ++ [.restart card.sPid] := by
  obtain ⟨mod, found, same, needs, _⟩ := draining
  have there : (p.arrived message).modules.lookup message.identity = some mod := by
    rw [arrived_modules, own]
    exact found
  have waiting : (p.arrived message).queue.lookup message.actionid = some stored := by
    rw [arrived_queue]
    exact queued
  have cases' : AnswerCases env message stored (p.arrived message) q := by
    cases step_commanded read run with
    | result isResult ran => exact processResult_answer isResult waiting ran
    | exception isException ran => exact processException_answer isException waiting ran
    | ignored other _ => rcases isAnswer with isAnswer | isAnswer <;> simp [isAnswer] at other
    | request other _ => rcases isAnswer with isAnswer | isAnswer <;> simp [isAnswer] at other
    | call other _ => rcases isAnswer with isAnswer | isAnswer <;> simp [isAnswer] at other
    | introduce other _ => rcases isAnswer with isAnswer | isAnswer <;> simp [isAnswer] at other
  cases cases' with
  | unheard absent _ => exact absurd (ZHash.mem_of_lookup there) absent
  | placed far _ =>
      rw [near] at far
      cases far
  | @settled middle _ kept back _ =>
      have still : middle.modules.lookup message.identity = some mod := by
        rw [kept]
        exact there
      rcases putBack_ok (back near) with ⟨absent, _⟩ | ⟨other, again, ⟨_, rfl⟩ | ⟨unneeded, _⟩⟩
      · rw [still] at absent
        cases absent
      · cases still.symm.trans again
        rw [zstrSend_procman, kept, ← same]
        simp [Module.card]
      · cases still.symm.trans again
        rw [needs] at unneeded
        cases unneeded

/-- Once a restart is asked for while a module works, it is handed no further call
for as long as it is registered, whatever happens, and its next answer has it
restarted. -/
theorem restart_drains {labels : List (Env × Event)} (reached : Reaches (fabric conf) anything p)
    (found : p.modules.lookup key = some mod) (needs : mod.needRestart = true)
    (stays : Stays conf key labels p) (run : p.execute conf labels = .ok q) :
    Sends (NotGiven key) p q ∧
    (∃ now, q.modules.lookup key = some now ∧ now.card = mod.card ∧ now.needRestart = true ∧
      now.state ≠ .idle) ∧
    ∀ env event message stored next, event.message env q = some message →
      message.isLocal = true → message.identity = key →
      message.command = "result" ∨ message.command = "exception" →
      q.queue.lookup message.actionid = some stored → q.step conf env event = .ok next →
      next.procman = q.procman ++ [.restart mod.sPid] := by
  have working := noneIdle_reaches reached key mod found needs
  have draining : Draining mod.card key p := ⟨mod, found, rfl, needs, working⟩
  obtain ⟨still, sends⟩ := draining.execute (registry_reaches reached) stays run
  refine ⟨sends, still, ?_⟩
  intro env event message stored next read near own isAnswer queued move
  exact still.answers read near own isAnswer queued move

end

def tiredWorker : List (Env × Event) := [
  (early, .localMsg (introduceOf worker "mod" 77 [("f", 1)]) "yes"),
  (early, .localMsg (callOf caller "mod" "f" 1 "call-1") ""),
  (early, .procman "restart" "77")]

def nextCall : List (Env × Event) := [(early, .localMsg (callOf caller "mod" "f" 1 "call-2") "")]

def tired : Proxy := fabricAfter plainConf tiredWorker

theorem restart_drains_tired : ∃ q, tired.execute plainConf nextCall = .ok q ∧
    q.queue.keys.length = 2 ∧ Sends (NotGiven (strhex worker)) tired q := by
  have reached : Reaches (fabric plainConf) anything tired :=
    fabricAfter_reaches (fun _ _ _ => trivial) (by decide)
  have marked : ∃ mod ∈ tired.modules.lookup (strhex worker), mod.needRestart = true := by decide
  obtain ⟨mod, found, needs⟩ := marked
  have ends : ∃ q ∈ (tired.execute plainConf nextCall).toOption,
      strhex worker ∈ q.modules ∧ q.queue.keys.length = 2 := by decide
  obtain ⟨q, result, there, two⟩ := ends
  have run : tired.execute plainConf nextCall = .ok q := by
    cases outcome : tired.execute plainConf nextCall with
    | error => simp [outcome, Except.toOption] at result
    | ok => simpa [outcome, Except.toOption] using result
  have stays : Stays plainConf (strhex worker) nextCall tired := by
    intro before after r same ran
    cases before with
    | nil =>
        cases ran
        exact ZHash.mem_of_lookup found
    | cons label rest =>
        rw [nextCall, List.cons_append, List.cons.injEq] at same
        obtain ⟨rfl, none'⟩ := same
        rw [(List.append_eq_nil_iff.mp none'.symm).1] at ran
        cases run.symm.trans ran
        exact there
  exact ⟨q, run, two, (restart_drains reached found needs stays run).1⟩

end ModBus
