import ModBus.Lookup
import ModBus.Readers

/-! Which objects the getters read at a type that they do not have: the entries of
an object that is no map, or a key that is no string. -/

namespace ModBus

open Libc Czmq

mutual
/-- The object with every key that is no string made one that is not to be read. -/
def Object.guarded (o : Object) : Object :=
  match o with
  | .map kvs => .map (guardedFrom kvs)
  | _ => o
termination_by structural o

def guardedFrom (kvs : List (Object × Object)) : List (Object × Object) :=
  match kvs with
  | [] => []
  | (name, value) :: rest =>
      (if name.isRaw then name else .nil none, value.guarded) :: guardedFrom rest
termination_by structural kvs
end

inductive Finds (key : String) (value : Object) : List (Object × Object) → Prop
  | here {bytes rest} : memcmpEqual bytes.toList key.toList = .ok true →
      Finds key value ((.raw bytes, value) :: rest)
  | past {bytes other rest} : memcmpEqual bytes.toList key.toList = .ok false →
      Finds key value rest → Finds key value ((.raw bytes, other) :: rest)

section

variable {α β : Type} {stops : Object × Object → Prop} {key : String} {o value : Object}
  {kvs : List (Object × Object)} {fault : Fault}

/-! An object that is guarded already. -/

theorem guardedFrom_cons {name value : Object} {rest : List (Object × Object)}
    (guarded : guardedFrom ((name, value) :: rest) = (name, value) :: rest) :
    (name.isRaw = false → name = .nil none) ∧ value.guarded = value ∧ guardedFrom rest = rest := by
  simp only [guardedFrom, List.cons.injEq, Prod.mk.injEq] at guarded
  obtain ⟨⟨key, below⟩, later⟩ := guarded
  refine ⟨fun foreign => ?_, below, later⟩
  rw [foreign] at key
  exact key.symm

theorem Finds.guarded (finds : Finds key value kvs) (guarded : guardedFrom kvs = kvs) :
    value.guarded = value := by
  induction finds with
  | here _ => exact (guardedFrom_cons guarded).2.1
  | past _ _ ih => exact ih (guardedFrom_cons guarded).2.2

def Message.guarded (message : Message) : Message :=
  { message with object := message.object.guarded }

variable {message : Message}

section

variable (guarded : message.object.guarded = message.object)

include guarded

end

end

end ModBus
