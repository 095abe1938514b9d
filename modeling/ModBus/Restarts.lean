import ModBus.Provide

/-! What the main loop sends to the process manager outside introductions:
restarts, without which no module that waits for one is forgotten. -/

namespace ModBus

open Libc Czmq Transition

structure RestartsBy (commands : List Command) (p q : Proxy) : Prop where
  sent : q.procman = p.procman ++ commands
  only : ∀ command ∈ commands, ∃ spid, command = .restart spid
  needs : ∀ key mod, p.modules.lookup key = some mod → mod.needRestart = true →
    .restart mod.sPid ∈ commands ∨
      ∃ new, q.modules.lookup key = some new ∧ new.card = mod.card ∧ new.needRestart = true

def Restarts (p q : Proxy) : Prop := ∃ commands, RestartsBy commands p q

section

variable {conf : Config} {env : Env} {event : Event} {p q : Proxy} {message placed : Message}
  {key : String} {mod : Module}

theorem Restarts.frame (procman : q.procman = p.procman) (modules : q.modules = p.modules) :
    Restarts p q := by
  refine ⟨[], by simp [procman], by simp, ?_⟩
  intro key mod found needs
  exact .inr ⟨mod, modules ▸ found, rfl, needs⟩

theorem Restarts.refl (p : Proxy) : Restarts p p := .frame rfl rfl

theorem Restarts.trans {r : Proxy} (left : Restarts p q) (right : Restarts q r) :
    Restarts p r := by
  obtain ⟨first, sentFirst, onlyFirst, needsFirst⟩ := left
  obtain ⟨second, sentSecond, onlySecond, needsSecond⟩ := right
  refine ⟨first ++ second, ?_, ?_, ?_⟩
  · rw [sentSecond, sentFirst, List.append_assoc]
  · intro command member
    rcases List.mem_append.mp member with early | late
    · exact onlyFirst command early
    · exact onlySecond command late
  · intro key mod found needs
    rcases needsFirst key mod found needs with sent | ⟨middle, kept, card, still⟩
    · exact .inl (List.mem_append_left _ sent)
    · rcases needsSecond key middle kept still with sent | ⟨new, later, card', needed⟩
      · rw [(card_fields card).2.2.2.1] at sent
        exact .inl (List.mem_append_right _ sent)
      · exact .inr ⟨new, later, card'.trans card, needed⟩

theorem Restarts.zstrSend (spid : String) (p : Proxy) :
    Restarts p (zstrSend (.restart spid) p) := by
  refine ⟨[.restart spid], rfl, by simp, ?_⟩
  intro key mod found needs
  exact .inr ⟨mod, found, rfl, needs⟩

theorem Restarts.setModule (new : Module) (found : p.modules.lookup key = some mod)
    (card : new.card = mod.card) (needs : mod.needRestart = true → new.needRestart = true)
    (procman : q.procman = p.procman) (modules : q.modules = ZHash.update p.modules key new) :
    Restarts p q := by
  refine ⟨[], by simp [procman], by simp, ?_⟩
  intro other old there needed
  right
  rw [modules, ZHash.lookup_update (ZHash.mem_of_lookup found)]
  by_cases here : other = key
  · subst here
    rw [found, Option.some.injEq] at there
    subst there
    exact ⟨new, by simp, card, needs needed⟩
  · exact ⟨old, by simp [here, there], rfl, needed⟩

theorem PlacedOn.procman {iface : Addr} (on : PlacedOn message p iface placed q) :
    q.procman = p.procman := by
  rw [on.proxy]

theorem PlaceOutcome.restarts {rc : Int} (outcome : PlaceOutcome env message p rc placed q) :
    Restarts p q := by
  cases outcome with
  | routed => exact .refl p
  | rejected => exact .refl p
  | waiting on _ _ _ _ modules => exact .frame on.procman modules
  | @toModule _ _ _ _ mod on _ _ _ _ found _ modules =>
      exact .setModule { mod with state := .busy } found rfl id on.procman modules
  | toFabric on _ _ _ _ _ modules => exact .frame on.procman modules

theorem placeQueued_restarts {rc : Int} (run : placeQueued env key p = .ok (rc, q)) :
    Restarts p q := by
  rcases placeQueued_ok run with ⟨_, _, rfl⟩ | ⟨call, placed, middle, _, placement, same, _⟩
  · exact .refl _
  · rw [same]
    exact (placeCall_outcome placement).restarts.trans (.frame rfl rfl)

theorem placeAll_restarts (run : placeAll env p = .ok q) : Restarts p q :=
  ZHash.foreach_invariant (Restarts p)
    (fun _ _ _ _ _ call before => before.trans (placeQueued_restarts call)) run (.refl p)

theorem putBack_restarts {identity : String} (run : putBack env identity p = .ok q) :
    Restarts p q := by
  rcases putBack_ok run with ⟨_, rfl⟩ | ⟨mod, found, ⟨_, rfl⟩ | ⟨_, run⟩⟩
  · exact .refl _
  · exact .zstrSend _ p
  · have idle : Restarts p (p.setModule identity { mod with state := .idle }) :=
      .setModule { mod with state := .idle } found rfl id rfl rfl
    exact idle.trans (placeAll_restarts run)

theorem answerCaller_restarts (stored : Message) (payload : Object) (p : Proxy) :
    Restarts p (answerCaller env stored payload p) :=
  .frame (by simp [answerCaller]) (by simp [answerCaller])

theorem answerFabric_restarts (stored : Message) (payload : Object) (p : Proxy) :
    Restarts p (answerFabric env stored payload p) := by
  unfold answerFabric
  split
  · exact .frame (by simp) (by simp)
  · exact .frame rfl rfl

theorem processIfaceList_restarts (registry : Registry p)
    (run : processIfaceList message p = .ok q) : Restarts p q := by
  have extended := processIfaceList_extends registry run
  refine .frame ?_ ?_ <;> rw [extended.same]

theorem Returned.restarts {stored : Message} {middle : Proxy}
    (returned : Returned env message stored p middle) : Restarts p middle := by
  cases returned with
  | caller own => exact answerCaller_restarts _ _ p
  | fabric foreign near => exact answerFabric_restarts _ _ p
  | nowhere foreign far => exact .frame rfl rfl

theorem processResult_restarts (registry : Registry p)
    (run : processResult env message p = .ok q) : Restarts p q := by
  rcases processResult_ok run with ⟨_, brought⟩ |
    ⟨stored, middle, _, returned, ⟨_, run⟩ | ⟨_, rfl⟩⟩
  · exact processIfaceList_restarts registry brought
  · exact returned.restarts.trans (putBack_restarts run)
  · exact returned.restarts

theorem processException_restarts (run : processException env message p = .ok q) :
    Restarts p q := by
  rcases processException_ok run with ⟨rfl, _⟩ | ⟨stored, _, ⟨_, _, _, rc, placement⟩ |
    ⟨middle, returned, ⟨_, run, _⟩ | ⟨_, rfl, _⟩⟩⟩
  · exact .refl _
  · exact placeQueued_restarts placement
  · exact returned.restarts.trans (putBack_restarts run)
  · exact returned.restarts

theorem refuse_restarts (call : Message) (text : String) (code : Int32) (p : Proxy) :
    Restarts p (refuse env call text code p) := by
  refine .frame ?_ ?_ <;> simp [refuse]

theorem processCall_restarts (run : processCall env message p = .ok q) : Restarts p q := by
  obtain ⟨call, _, ⟨_, rfl⟩ | ⟨_, rc, placed, middle, placement, outcome⟩⟩ := processCall_ok run
  · exact refuse_restarts _ _ _ p
  · have before := (placeCall_outcome placement).restarts
    rcases outcome with ⟨_, rfl⟩ | ⟨_, _, rfl⟩
    · exact before.trans (refuse_restarts _ _ _ _)
    · exact before.trans (.frame rfl rfl)

theorem processRequest_restarts (run : processRequest env message p = .ok q) : Restarts p q := by
  rcases processRequest_ok run with rfl | ⟨msg, fab, _, _, rfl⟩
  · exact .refl _
  · exact .frame (by simp) (by simp)

theorem unstuck_restarts (registry : Registry p) (call : Message) :
    Restarts p (p.unstuck conf env call) := by
  cases stuck : stuckModule conf env call p with
  | none =>
      rw [unstuck_none stuck]
      exact .refl p
  | some mod =>
  obtain ⟨_, key, _, found⟩ := stuckModule_some stuck
  rw [unstuck_some stuck]
  have own := registry.moduleKey key mod found
  refine ⟨[.restart mod.sPid], rfl, by simp, ?_⟩
  intro other old there needs
  by_cases here : other = key
  · subst here
    rw [found, Option.some.injEq] at there
    subst there
    exact .inl (List.mem_singleton_self _)
  · refine .inr ⟨old, ?_, rfl, needs⟩
    have kept : (p.modules.erase mod.identity.text).lookup other = some old := by
      rw [own]
      exact ZHash.lookup_erase_some.mpr ⟨here, there⟩
    exact kept

theorem processQueueItem_restarts (registry : Registry p)
    (run : processQueueItem conf env key p = .ok q) : Restarts p q := by
  have answers : ∀ (cause : Cause) (msg : Object) (identity : String) (state : Proxy),
      Restarts state ((sendMessage env cause msg identity state).2.deleteCall key) :=
    fun _ _ _ _ => .frame (by simp) (by simp)
  rcases processQueueItem_ok run with ⟨rfl, _⟩ | ⟨call, msg, _, _, rfl⟩
  · exact .refl _
  · exact (unstuck_restarts registry call).trans (answers _ _ _ _)

theorem getIfaceListEventItem_restarts (run : getIfaceListEventItem env key p = .ok q) :
    Restarts p q := by
  rcases getIfaceListEventItem_ok run with rfl | ⟨fab, _, ⟨_, same⟩ | ⟨_, same⟩⟩
  · exact .refl _
  · exact .frame (by simp [same]) (by simp [same])
  · rw [same]
    exact .frame rfl rfl

theorem sBeaconEvent_restarts {msg : String} (run : sBeaconEvent env msg p = .ok q) :
    Restarts p q := by
  rcases sBeaconEvent_ok run with rfl | ⟨identity, _, _, same⟩
  · exact .refl _
  · rw [same]
    exact .frame rfl rfl

def asksFor (env : Env) (event : Event) (p : Proxy) : Option (Message × String × Int32) :=
  match event.message env p with
  | none => none
  | some message =>
      if message.command = "introduce" then
        match introduceRequest message with
        | .ok (some (name, pid)) => some (message, name, pid)
        | _ => none
      else none

def Event.fromProcman : Event → Bool
  | .procman _ _ => true
  | _ => false

theorem step_restarts (registry : Registry p) (other : event.fromProcman = false)
    (quiet : asksFor env event p = none) (run : p.step conf env event = .ok q) :
    Restarts p q := by
  cases step_handled run with
  | unreadable _ same =>
      rw [same]
      exact .refl p
  | @command message read commanded =>
      have arrived : Restarts p (p.arrived message) := .frame (by simp) (by simp)
      have still := registry.arrived message
      refine arrived.trans ?_
      cases commanded with
      | ignored _ same =>
          rw [same]
          exact .refl _
      | request _ run => exact processRequest_restarts run
      | result _ run => exact processResult_restarts still run
      | call _ run => exact processCall_restarts run
      | exception _ run => exact processException_restarts run
      | introduce isIntroduce run =>
          simp only [asksFor, read, isIntroduce, if_true] at quiet
          unfold processIntroduce at run
          split at run
          · cases run
          · cases run
            exact .refl _
          · rename_i request
            rw [request] at quiet
            cases quiet
  | procman own =>
      rw [own] at other
      cases other
  | queueItem _ run => exact processQueueItem_restarts registry run
  | fabItem _ run => exact getIfaceListEventItem_restarts run
  | beacon _ run => exact sBeaconEvent_restarts run

end

end ModBus
