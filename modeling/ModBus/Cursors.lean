import ModBus.Integrity
import ModBus.Sends

/-! The shared cursors. Between two events the cursor of every `id_global_list`
is unset, so that a scan that goes on in it goes through the whole list. -/

namespace ModBus

open Libc Czmq Transition

def Unset (p : Proxy) : Prop := ∀ iface, (p.heap iface).idGlobalList.cursor = none

section

variable {conf : Config} {env : Env} {event : Event} {p q : Proxy} {message placed : Message}

theorem Unset.same (unset : Unset p) (heap : q.heap = p.heap) : Unset q := by
  intro iface
  rw [heap]
  exact unset iface

theorem Unset.write (unset : Unset p) {iface : Addr} {entry : Iface}
    (cursor : entry.idGlobalList.cursor = none)
    (heap : q.heap = Function.update p.heap iface entry) : Unset q := by
  intro other
  rw [heap]
  by_cases here : other = iface
  · rw [here, Function.update_self]
    exact cursor
  · rw [Function.update_of_ne here]
    exact unset other

theorem Iface.printed_cursor (iface : Iface) : (Iface.printed iface).idGlobalList.cursor = none := by
  simp [Iface.printed, ZList.walk_eq]

theorem assignIface_unset {iface : Addr} {bound : Message} (unset : Unset p)
    (run : assignIface message p = .ok (some (iface, bound, q))) : Unset q := by
  unfold assignIface at run
  split at run
  · cases run
    exact unset
  · split at run
    · split at run
      · cases run
      · simp only [] at run
        split at run
        · cases run
          exact unset.write (by simp [ZList.walk_eq]) rfl
        · cases run
          exact unset
    · cases run

theorem chooseRoute_unset {iface : Addr} (unset : Unset p)
    (run : chooseRoute iface message p = .ok (placed, q)) : Unset q := by
  unfold chooseRoute at run
  simp only [] at run
  split at run
  · split at run
    · cases run
    · cases run
      exact unset.write (ZList.drain_cursor _) rfl
  · split at run
    · split at run
      · split at run <;> cases run <;> exact unset
      · cases run
        exact unset
    · cases run
      exact unset

theorem dispatch_heap (env : Env) (message : Message) (via : String) (p : Proxy) :
    (dispatch env message via p).2.heap = p.heap := by
  unfold dispatch
  simp only []
  split
  · split <;> simp
  · simp

theorem placeCall_unset {rc : Int} (unset : Unset p)
    (run : placeCall env message p = .ok (rc, placed, q)) : Unset q := by
  unfold placeCall at run
  split at run
  · cases run
    exact unset
  · split at run
    · cases run
    · cases run
      exact unset
    · rename_i assigned
      have middle := assignIface_unset unset assigned
      split at run
      · cases run
      · rename_i choice
        have last := chooseRoute_unset middle choice
        split at run
        · cases run
          exact last
        · cases run
          exact last.same (dispatch_heap _ _ _ _)

theorem placeQueued_unset {key : String} {rc : Int} (unset : Unset p)
    (run : placeQueued env key p = .ok (rc, q)) : Unset q := by
  rcases placeQueued_ok run with ⟨_, _, rfl⟩ | ⟨call, placed, middle, _, placement, same, _⟩
  · exact unset
  · exact (placeCall_unset unset placement).same (by rw [same])

theorem placeAll_unset (unset : Unset p) (run : placeAll env p = .ok q) : Unset q :=
  ZHash.foreach_invariant Unset (fun _ _ _ _ _ call before => placeQueued_unset before call) run
    unset

theorem putBack_unset {identity : String} (unset : Unset p)
    (run : putBack env identity p = .ok q) : Unset q := by
  rcases putBack_ok run with ⟨_, rfl⟩ | ⟨mod, _, ⟨_, rfl⟩ | ⟨_, run⟩⟩
  · exact unset
  · exact unset.same rfl
  · have idle : Unset (p.setModule identity { mod with state := .idle }) := unset.same rfl
    exact placeAll_unset idle run

theorem answerCaller_heap (stored : Message) (payload : Object) (p : Proxy) :
    (answerCaller env stored payload p).heap = p.heap := by
  simp [answerCaller]

theorem answerFabric_heap (stored : Message) (payload : Object) (p : Proxy) :
    (answerFabric env stored payload p).heap = p.heap := by
  unfold answerFabric
  split <;> simp

theorem Unset.attach {mod func : String} {ver : UInt64} {iface : Addr} (unset : Unset p)
    (attaching : ifaceFor mod func ver p = .ok (iface, q)) : Unset q := by
  rcases ifaceFor_ok attaching with ⟨_, rfl⟩ | ⟨_, _, same⟩
  · exact unset
  · exact unset.write rfl (by rw [same])

theorem provideLocal_unset {identity : CStr} {name function : String} {ver : UInt64}
    (unset : Unset p) (run : provideLocal identity name function ver p = .ok q) : Unset q := by
  obtain ⟨_, _, attaching, _, rfl⟩ := provideLocal_iff.mp run
  exact (unset.attach attaching).write (Iface.printed_cursor _) rfl

theorem provideFunctions_unset {identity : CStr} {name : String} {provides : ZHash Unpacked}
    {functions : List String} (unset : Unset p)
    (run : provideFunctions identity name provides functions p = .ok q) : Unset q := by
  induction functions generalizing p with
  | nil =>
      cases run
      exact unset
  | cons function functions ih =>
      simp only [provideFunctions] at run
      split at run
      · cases run
      · split at run
        · cases run
        · split at run
          · cases run
          · rename_i provided
            exact ih (provideLocal_unset unset provided) run

theorem providePaths_unset {fab : Fabric} {paths : List String} (unset : Unset p)
    (run : providePaths fab paths p = .ok q) : Unset q := by
  induction paths generalizing p with
  | nil =>
      cases run
      exact unset
  | cons path paths ih =>
      simp only [providePaths] at run
      split at run
      · cases run
      · rename_i middle provided
        unfold providePath at provided
        split at provided
        · obtain ⟨_, _, attaching, _, rfl⟩ := provideGlobal_iff.mp provided
          exact ih ((unset.attach attaching).write (Iface.printed_cursor _) rfl) run
        · cases provided
          exact ih unset run

theorem processIfaceList_unset (unset : Unset p)
    (run : processIfaceList message p = .ok q) : Unset q := by
  rcases processIfaceList_ok run with rfl | ⟨_, _, _, _, provided⟩
  · exact unset
  · exact providePaths_unset unset provided

theorem Returned.heap {stored : Message} {middle : Proxy}
    (returned : Returned env message stored p middle) : middle.heap = p.heap := by
  cases returned with
  | caller own => exact answerCaller_heap _ _ p
  | fabric foreign near => exact answerFabric_heap _ _ p
  | nowhere foreign far => rfl

theorem processResult_unset (unset : Unset p) (run : processResult env message p = .ok q) :
    Unset q := by
  rcases processResult_ok run with ⟨_, brought⟩ |
    ⟨stored, middle, _, returned, ⟨_, run⟩ | ⟨_, rfl⟩⟩
  · exact processIfaceList_unset unset brought
  · exact putBack_unset (unset.same returned.heap) run
  · exact unset.same returned.heap

theorem processException_unset (unset : Unset p)
    (run : processException env message p = .ok q) : Unset q := by
  rcases processException_ok run with ⟨rfl, _⟩ | ⟨stored, _, ⟨_, _, _, rc, placement⟩ |
    ⟨middle, returned, ⟨_, run, _⟩ | ⟨_, rfl, _⟩⟩⟩
  · exact unset
  · exact placeQueued_unset unset placement
  · exact putBack_unset (unset.same returned.heap) run
  · exact unset.same returned.heap

theorem processCall_unset (unset : Unset p) (run : processCall env message p = .ok q) :
    Unset q := by
  obtain ⟨call, _, ⟨_, rfl⟩ | ⟨_, rc, placed, middle, placement, outcome⟩⟩ := processCall_ok run
  · exact unset.same (by simp [refuse])
  · have before := placeCall_unset unset placement
    rcases outcome with ⟨_, rfl⟩ | ⟨_, _, rfl⟩
    · exact before.same (by simp [refuse])
    · exact before.same rfl

theorem processRequest_heap (run : processRequest env message p = .ok q) : q.heap = p.heap := by
  rcases processRequest_ok run with rfl | ⟨msg, fab, _, _, rfl⟩
  · rfl
  · simp

theorem unlisted_unset (unset : Unset p) (registry : Registry p) (identity : CStr) :
    Unset (p.unlisted identity) := by
  intro iface
  have removed : ((ifaceRemove p.ifaces identity p.heap).2 iface).idGlobalList.cursor = none := by
    rw [ifaceRemove_heap _ _ _ registry.nodup]
    split
    · exact ZList.remove_cursor _ (unset iface)
    · exact unset iface
  simp only [Proxy.unlisted, Proxy.printed]
  split
  · exact Iface.printed_cursor _
  · exact removed

theorem Commanded.unset {answer : String} (unset : Unset p)
    (commanded : Commanded conf env message answer p q) : Unset q := by
  cases commanded with
  | ignored _ same => exact same ▸ unset
  | request _ run => exact unset.same (processRequest_heap run)
  | result _ run => exact processResult_unset unset run
  | call _ run => exact processCall_unset unset run
  | exception _ run => exact processException_unset unset run
  | introduce _ run =>
      rcases processIntroduce_ok run with asked | ⟨_, _, _, _, _, middle, introduces⟩
      · exact unset.same (by rw [asked])
      · have provided := provideFunctions_unset (p := p.introducing middle.procman)
          (unset.same rfl) introduces.functions
        exact provided.same (by rw [introduces.registers, sendMessage_heap]; rfl)

theorem Unset.step (registry : Registry p) (run : p.step conf env event = .ok q)
    (unset : Unset p) : Unset q := by
  have removal : ∀ mod, Unset (p.withoutModule mod) := fun mod =>
    (unlisted_unset unset registry mod.identity).same rfl
  cases step_handled run with
  | unreadable _ same => exact same ▸ unset
  | command _ commanded => exact commanded.unset (unset.same (arrived_heap _ p))
  | @procman command _ _ run =>
      rcases sProcmanEvent_ok run with same | ⟨key, mod, _, _, notice⟩
      · exact same ▸ unset
      · by_cases remove : command = "remove"
        · subst remove
          rw [noticed_removes notice]
          exact removal mod
        · rw [noticed_keeps notice remove]
          (repeat' split) <;> exact unset.same rfl
  | @queueItem key _ run =>
      rcases processQueueItem_ok run with ⟨same, _⟩ | ⟨call, msg, _, _, same⟩
      · exact same ▸ unset
      · rw [same]
        cases stuck : stuckModule conf env call p with
        | none =>
            rw [unstuck_none stuck]
            exact unset.same (by simp)
        | some mod =>
            rw [unstuck_some stuck]
            have told : Unset (zstrSend (.restart mod.sPid) p) := unset.same rfl
            have there : Registry (zstrSend (.restart mod.sPid) p) :=
              registry.calm (.zstrSend _ p)
            refine (unlisted_unset told there mod.identity).same ?_
            rw [deleteCall_heap, sendMessage_heap]
            rfl
  | @fabItem key _ run =>
      rcases getIfaceListEventItem_ok run with same | ⟨fab, _, ⟨_, same⟩ | ⟨_, same⟩⟩
      · exact same ▸ unset
      · exact unset.same (by simp [same])
      · rw [same]
        exact (unlisted_unset unset registry _).same rfl
  | beacon _ run =>
      rcases sBeaconEvent_ok run with same | ⟨identity, _, _, same⟩
      · exact same ▸ unset
      · rw [same]
        exact unset.same rfl

theorem unset_reaches {guard : Proxy → Env × Event → Prop}
    (reached : Reaches (fabric conf) guard p) : Unset p := by
  refine fabric_invariant Unset reached (fun _ => rfl) ?_
  intro env event state next _ move registry unset
  exact unset.step registry move

end

end ModBus
