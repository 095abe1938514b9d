import ModBus.Execute

/-! The way back to a local peer. `message_fromzmq` writes the whole identity frame
as hex digits; `send_message` takes a text of more than ten characters for a fabric
and scans exactly five bytes out of any other. -/

namespace ModBus

open Libc Czmq

def SentBack (env : Env) (cause : Cause) (payload : Object) (identity : String)
    (frame : List UInt8) (p : Proxy) : Prop :=
  ∃ ok, (sendMessage env cause payload identity p).2.sent =
    p.sent ++ [⟨cause, .localFe (frame.map some), payload, ok⟩]

theorem sentBack_route (env : Env) (cause : Cause) (payload : Object) (identity : String)
    (frame : List UInt8) (p : Proxy) :
    SentBack env cause payload identity frame p ↔
      p.route identity = some (.localFe (frame.map some)) := by
  rcases sendMessage_cases env cause payload identity p with ⟨unrouted, same⟩ | ⟨dest, routed, same⟩
  · rw [SentBack, same, unrouted]
    simp
  · rw [SentBack, same, routed]
    simp

/-- A reply reaches the local peer that a message came from just when the peer's
identity is of five bytes. -/
theorem sentBack_iff {identityFrame payloadFrame : Frame} {addr : Addr} {now : UInt64}
    {message : Message}
    (accepted : messageFromzmq [identityFrame, payloadFrame] true addr now = .ok (some message)) :
    ∀ env cause payload p,
      SentBack env cause payload message.identity identityFrame.data p ↔
        identityFrame.data.length = 5 := by
  intro env cause payload p
  obtain ⟨first, second, object, command, actionid, frames, rfl⟩ := messageFromzmq_some accepted
  simp only [List.cons.injEq, and_true] at frames
  obtain ⟨rfl, rfl⟩ := frames
  rw [sentBack_route]
  exact route_strhex

def pingOf (identity : List UInt8) : List Frame := framesOf identity "ping" (.map []) "ping-1"

def pingFrom (identity : List UInt8) : Message :=
  messageNew 0 1000000 true (strhex identity) (packed "ping" (.map []) "ping-1") "ping" "ping-1"

theorem sentBack_worker :
    messageFromzmq (pingOf worker) true 0 1000000 = .ok (some (pingFrom worker)) ∧
      SentBack early .ifaceListRequest (.map []) (pingFrom worker).identity worker proxyNew := by
  have accepted : messageFromzmq (pingOf worker) true 0 1000000 = .ok (some (pingFrom worker)) := rfl
  exact ⟨accepted, (sentBack_iff accepted early .ifaceListRequest (.map []) proxyNew).mpr rfl⟩

/-- A peer that names itself with six bytes is taken for a fabric. -/
theorem notSentBack_named :
    messageFromzmq (pingOf (bytesOf "worker")) true 0 1000000 =
        .ok (some (pingFrom (bytesOf "worker"))) ∧
      ¬ SentBack early .ifaceListRequest (.map []) (pingFrom (bytesOf "worker")).identity
        (bytesOf "worker") proxyNew := by
  refine ⟨rfl, ?_⟩
  rw [sentBack_route]
  intro routed
  exact absurd (route_strhex.mp routed) (by decide)

end ModBus
