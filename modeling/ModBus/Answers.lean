import ModBus.Replies
import ModBus.Selection

/-! Results and exceptions side by side: what the two handlers do with an answer
from the same sender to the same call. -/

namespace ModBus

open Libc Czmq Transition

def Proxy.replies (p : Proxy) : List Dest :=
  p.sent.filterMap fun sent => sent.cause.answers.map fun _ => sent.dest

structure HandledAlike (p q r : Proxy) : Prop where
  queue : q.queue = r.queue
  modules : q.modules = r.modules
  procman : q.procman = r.procman
  replies : ∃ added, added.length ≤ 1 ∧ q.replies = p.replies ++ added ∧
    r.replies = p.replies ++ added

def AddsOneReply (p q : Proxy) : Prop :=
  ∃ added, added.length ≤ 1 ∧ q.replies = p.replies ++ added

def Sent.envelope (sent : Sent) : Cause × Dest × Bool := (sent.cause, sent.dest, sent.ok)

structure SameButPayloads (p q : Proxy) : Prop where
  same : q = { p with sent := q.sent }
  sent : q.sent.map Sent.envelope = p.sent.map Sent.envelope

section

variable {conf : Config} {env : Env} {p q : Proxy} {message result exception call : Message}
  {key : String}

theorem SameButPayloads.refl (p : Proxy) : SameButPayloads p p := ⟨rfl, rfl⟩

theorem SameButPayloads.count (alike : SameButPayloads p q) : q.sent.length = p.sent.length := by
  simpa using congrArg List.length alike.sent

theorem SameButPayloads.setModule (alike : SameButPayloads p q) (key : String) (mod : Module) :
    SameButPayloads (p.setModule key mod) (q.setModule key mod) := by
  refine ⟨?_, alike.sent⟩
  rw [alike.same]
  rfl

theorem SameButPayloads.deleteCall (alike : SameButPayloads p q) (key : String) :
    SameButPayloads (p.deleteCall key) (q.deleteCall key) := by
  refine ⟨?_, alike.sent⟩
  rw [alike.same]
  rfl

theorem SameButPayloads.zstrSend (alike : SameButPayloads p q) (command : Command) :
    SameButPayloads (zstrSend command p) (zstrSend command q) := by
  refine ⟨?_, alike.sent⟩
  rw [alike.same]
  rfl

theorem SameButPayloads.replies (alike : SameButPayloads p q) : q.replies = p.replies := by
  have through (r : Proxy) : r.replies = (r.sent.map Sent.envelope).filterMap
      fun envelope => envelope.1.answers.map fun _ => envelope.2.1 := by
    simp only [Proxy.replies, List.filterMap_map, Function.comp_def, Sent.envelope]
  rw [through, through, alike.sent]

theorem Sends.replies (sends : Sends (fun sent => sent.cause.answers = none) p q) :
    q.replies = p.replies := by
  obtain ⟨more, grown, none⟩ := sends
  have nothing : more.filterMap (fun sent => sent.cause.answers.map fun _ => sent.dest) = [] := by
    rw [List.filterMap_eq_nil_iff]
    intro sent member
    rw [none sent member]
    rfl
  rw [Proxy.replies, grown, List.filterMap_append, nothing, List.append_nil]
  rfl

theorem SameButPayloads.handled {r : Proxy} (alike : SameButPayloads q r) (once : AddsOneReply p q) :
    HandledAlike p q r := by
  obtain ⟨added, one, grown⟩ := once
  refine ⟨?_, ?_, ?_, added, one, grown, alike.replies.trans grown⟩
  all_goals rw [alike.same]

end

end ModBus
