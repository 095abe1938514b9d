import ModBus.FailedLookup
import ModBus.Grammar
import ModBus.Misreads

/-! Which messages make `processCommand` read an object at a type that it does not
have. -/

namespace ModBus

open Libc Czmq Transition

def Unpacked.isInteger : Unpacked → Bool
  | .u64 _ => true
  | .i64 _ => true
  | _ => false

def VersionMisread (p : Proxy) (identity name : String) (provides : ZHash Unpacked)
    (functions : List String) : Prop :=
  ∃ before function after value, functions = before ++ function :: after ∧
    provides.lookup function = some value ∧ value.isInteger = false ∧
    LocalDumpsFit p identity name provides before ∧ ∀ earlier ∈ before, ∀ other, provides.lookup earlier = some other →
      other.isInteger = true ∧ (other.version = .ok 0 → Known p name earlier)

section

variable {conf : Config} {env : Env} {p q : Proxy} {message : Message} {fault : Fault}

section

variable {name function : String} {provides : ZHash Unpacked} {value : Unpacked}
  {functions : List String}

theorem VersionMisread.mono {identity : String}
    (known : ∀ other ∈ functions, Known p name other → Known q name other)
    (fits : ∀ before ⊆ functions, LocalDumpsFit p identity name provides before →
      LocalDumpsFit q identity name provides before)
    (misread : VersionMisread p identity name provides functions) :
    VersionMisread q identity name provides functions := by
  obtain ⟨before, other, after, read, rfl, found, foreign, dumps, goesOn⟩ := misread
  refine ⟨before, other, after, read, rfl, found, foreign,
    fits before (List.subset_append_left _ _) dumps, ?_⟩
  intro earlier among item looked
  obtain ⟨integer, registered⟩ := goesOn earlier among item looked
  exact ⟨integer, fun zero => known earlier (List.mem_append_left _ among) (registered zero)⟩

end

end

end ModBus
