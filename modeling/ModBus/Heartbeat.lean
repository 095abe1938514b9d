import ModBus.Execute
import ModBus.Integrity
import ModBus.Sweep

/-! The fabric's failure detector. Each poll clears a fabric's mark, any message
sets it, and the next poll drops the fabric if it is still clear. -/

namespace ModBus

open Libc Czmq Transition

def Event.sender (env : Env) : Event → Option String
  | .globalMsg zmsg _ => (messageFromzmq zmsg false 0 env.now).toOption.join.map Message.identity
  | _ => none

section

variable {conf : Config} {env first last : Env} {event : Event} {p polled q : Proxy}
  {message : Message} {identity : String} {fab : Fabric}

theorem Commanded.fabList {answer : String} (registry : Registry p)
    (commanded : Commanded conf env message answer p q) : q.fabList = p.fabList := by
  cases commanded with
  | ignored _ same => rw [same]
  | request _ run => exact (processRequest_calm run).fabList
  | result _ run =>
      cases queued : p.queue.lookup message.actionid with
      | some stored => exact (processResult_calm queued run).fabList
      | none =>
          simp only [processResult, queued] at run
          rw [(processIfaceList_extends registry run).same]
  | call _ run =>
      rcases processCall_cases run with calm | ⟨call, placed, middle, _, _, placement, _, result⟩
      · exact calm.fabList
      · rw [result, enqueue]
        exact (placeCall_outcome placement).calm.1.fabList
  | exception _ run => exact (processException_calm run).fabList
  | introduce _ run =>
      rcases processIntroduce_ok run with asked | ⟨_, _, _, _, _, _, introduces⟩
      · rw [asked]
      · exact introduces.fabList registry

end

def announced : List (Env × Event) := [(early, .beacon ("modbus@" ++ peerName))]

end ModBus
