import ModBus.Introduce

/-! Reading a message fails on what stands in it, never on a lookup. -/

namespace ModBus

open Libc Czmq

def NoNull {α : Type} (run : Except Fault α) : Prop := run ≠ .error .nullDeref

section

variable {α β : Type}

theorem noNull_ok (value : α) : NoNull (.ok value) := by
  intro failed
  cases failed

theorem NoNull.bind {first : Except Fault α} {rest : α → Except Fault β} (start : NoNull first)
    (later : ∀ value, NoNull (rest value)) : NoNull (first >>= rest) := by
  intro failed
  cases result : first with
  | error fault =>
      rw [result] at failed start
      cases failed
      exact start rfl
  | ok value =>
      rw [result] at failed
      exact later value failed

theorem NoNull.ne {run : Except Fault α} {fault : Fault} (safe : NoNull run)
    (failed : run = .error fault) : fault ≠ .nullDeref := by
  rintro rfl
  exact safe failed

theorem noNull_of_fault {run : Except Fault α} {only : Fault}
    (faults : ∀ fault, run = .error fault → fault = only) (other : only ≠ .nullDeref) :
    NoNull run := by
  intro failed
  exact other (faults _ failed).symm

theorem memcmpEqual_fault {bytes key : List Char} {fault : Fault}
    (failed : memcmpEqual bytes key = .error fault) : fault = .outOfBounds := by
  induction bytes generalizing key with
  | nil => cases failed
  | cons c cs ih =>
      cases key with
      | nil =>
          rw [memcmpEqual] at failed
          split_ifs at failed
          cases failed
          rfl
      | cons k ks =>
          rw [memcmpEqual] at failed
          split at failed
          · exact ih failed
          · cases failed

theorem mFindEntry_noNull (key : String) (kvs : List (Object × Object)) :
    NoNull (mFindEntry key kvs) := by
  induction kvs with
  | nil => exact noNull_ok none
  | cons entry rest ih =>
      obtain ⟨name, value⟩ := entry
      cases name with
      | raw bytes =>
          rw [mFindEntry]
          split
          · rename_i fault failed
            rw [memcmpEqual_fault failed]
            intro same
            cases same
          · exact noNull_ok (some value)
          · exact ih
      | _ =>
          intro failed
          cases failed

theorem mFindMap_noNull (o : Object) (key : String) : NoNull (mFindMap o key) := by
  cases o with
  | map kvs => exact mFindEntry_noNull key kvs
  | _ => exact noNull_ok none

theorem bind_error {α β : Type} {first : Except Fault α} {rest : α → Except Fault β}
    {fault : Fault} :
    (first >>= rest) = .error fault ↔
      first = .error fault ∨ ∃ middle, first = .ok middle ∧ rest middle = .error fault := by
  cases first with
  | error other => simp [bind, Except.bind]
  | ok middle => simp [bind, Except.bind]

theorem vsprintf_fault {format : List Char} {fault : Fault}
    (fails : vsprintf format = .error fault) : fault = .missingArgument := by
  fun_induction vsprintf format with
  | case1 => cases fails
  | case2 rest ih =>
      rcases bind_error.mp fails with early | ⟨_, _, ⟨⟩⟩
      exact ih early
  | case3 => cases fails; rfl
  | case4 c rest other another ih =>
      rcases bind_error.mp fails with early | ⟨_, _, ⟨⟩⟩
      exact ih early

theorem logAsFormat_fault {format : String} {fault : Fault}
    (fails : logAsFormat format = .error fault) :
    fault = .missingArgument ∨ fault = .outOfBounds := by
  rcases bind_error.mp fails with early | ⟨_, _, long⟩
  · exact Or.inl (vsprintf_fault early)
  · exact Or.inr (sprintfTo_fault.mp long).2

theorem mGetStringFrom_fault {kvs : List (Object × Object)} {key : String} {fault : Fault}
    (failed : mGetStringFrom kvs key = .error fault) : fault = .wrongTag := by
  induction kvs using entries_induction with
  | nil => cases failed
  | entry name value rest below later =>
      rw [mGetStringFrom] at failed
      rcases bind_error.mp failed with misread | ⟨same, _, failed⟩
      · exact (keyMatches_fault misread).1
      · cases value with
        | raw text =>
            simp only [] at failed
            split at failed
            · cases failed
            · exact later failed
        | map inner =>
            rcases bind_error.mp failed with misread | ⟨found?, _, failed⟩
            · exact below inner rfl misread
            · cases found? with
              | some text => cases failed
              | none => exact later failed
        | _ => exact later failed

theorem mGetString_fault {o : Object} {key : String} {fault : Fault}
    (failed : mGetString o key = .error fault) : fault = .wrongTag := by
  cases o with
  | map kvs => exact mGetStringFrom_fault failed
  | _ =>
      cases failed
      rfl

theorem mGetIntFrom_fault {kvs : List (Object × Object)} {key : String} {fault : Fault}
    (failed : mGetIntFrom kvs key = .error fault) : fault = .wrongTag := by
  induction kvs using entries_induction with
  | nil => cases failed
  | entry name value rest below later =>
      rw [mGetIntFrom] at failed
      rcases bind_error.mp failed with misread | ⟨same, _, failed⟩
      · exact (keyMatches_fault misread).1
      · cases value with
        | positiveInteger u64 =>
            simp only [] at failed
            split at failed
            · cases failed
            · exact later failed
        | negativeInteger i64 =>
            simp only [] at failed
            split at failed
            · cases failed
            · exact later failed
        | map inner =>
            rcases bind_error.mp failed with misread | ⟨_, _, failed⟩
            · exact below inner rfl misread
            · exact later failed
        | _ => exact later failed

theorem mGetInt_fault {o : Object} {key : String} {fault : Fault}
    (failed : mGetInt o key = .error fault) : fault = .wrongTag := by
  cases o with
  | map kvs => exact mGetIntFrom_fault failed
  | _ =>
      cases failed
      rfl

theorem mUnpackMapFrom_fault {kvs : List (Object × Object)} {hash : ZHash Unpacked} {fault : Fault}
    (failed : mUnpackMapFrom kvs hash = .error fault) : fault = .wrongTag := by
  induction kvs using entries_induction generalizing hash with
  | nil => cases failed
  | entry name value rest below later =>
      cases name with
      | raw bytes =>
          cases value with
          | map inner =>
              simp only [mUnpackMapFrom] at failed
              split at failed
              · rename_i other broken
                cases failed
                exact below inner rfl broken
              · exact later failed
          | _ => exact later failed
      | _ =>
          cases failed
          rfl

theorem mUnpackMap_fault {o : Object} {hash : ZHash Unpacked} {fault : Fault}
    (failed : mUnpackMap o hash = .error fault) : fault = .wrongTag := by
  cases o with
  | map kvs => exact mUnpackMapFrom_fault failed
  | _ => cases failed

theorem integerText_noNull (value : UInt64) : NoNull (integerText value) := by
  unfold integerText
  simp only []
  split
  · intro failed
    cases failed
  · exact noNull_ok _

theorem mUnpackItems_noNull (items : List Object) : NoNull (mUnpackItems items) := by
  induction items with
  | nil => exact noNull_ok []
  | cons item items ih =>
      cases item with
      | raw text => exact ih.bind fun _ => noNull_ok _
      | positiveInteger value =>
          exact (integerText_noNull value).bind fun _ => ih.bind fun _ => noNull_ok _
      | negativeInteger value =>
          exact (integerText_noNull _).bind fun _ => ih.bind fun _ => noNull_ok _
      | _ => exact ih

theorem bodyString_noNull (message : Message) (key : String) : NoNull (bodyString message key) := by
  refine (mFindMap_noNull _ _).bind fun body? => ?_
  cases body? with
  | none => exact noNull_ok none
  | some body => exact noNull_of_fault (fun _ => mGetString_fault) (by decide)

theorem bodyInt_noNull (message : Message) (key : String) : NoNull (bodyInt message key) := by
  refine (mFindMap_noNull _ _).bind fun body? => ?_
  cases body? with
  | none => exact noNull_ok 0
  | some body => exact noNull_of_fault (fun _ => mGetInt_fault) (by decide)

theorem messageGetExceptionCode_noNull (message : Message) :
    NoNull (messageGetExceptionCode message) :=
  (bodyInt_noNull message "exception").bind fun _ => noNull_ok _

theorem messageGetPid_noNull (message : Message) : NoNull (messageGetPid message) :=
  (bodyInt_noNull message "pid").bind fun _ => noNull_ok _

theorem messageGetProvides_noNull (message : Message) : NoNull (messageGetProvides message) := by
  refine (mFindMap_noNull _ _).bind fun body? => ?_
  cases body? with
  | none => exact noNull_ok none
  | some body =>
      refine (mFindMap_noNull _ _).bind fun provides? => ?_
      cases provides? with
      | none => exact noNull_ok none
      | some provides =>
          exact (noNull_of_fault (fun _ => mUnpackMap_fault) (by decide)).bind fun _ => noNull_ok _

theorem messageGetIfaceList_noNull (message : Message) : NoNull (messageGetIfaceList message) := by
  refine (mFindMap_noNull _ _).bind fun body? => ?_
  cases body? with
  | none => exact noNull_ok none
  | some body =>
      refine (mFindMap_noNull _ _).bind fun result? => ?_
      cases result? with
      | none => exact noNull_ok none
      | some result =>
          refine (mFindMap_noNull _ _).bind fun modlist? => ?_
          cases modlist? with
          | none => exact noNull_ok none
          | some modlist =>
              have items : NoNull (mUnpackArray modlist) := by
                cases modlist with
                | array objects => exact mUnpackItems_noNull objects
                | _ => exact noNull_ok []
              exact items.bind fun _ => noNull_ok _

theorem introduceRequest_noNull (message : Message) : NoNull (introduceRequest message) := by
  refine (bodyString_noNull message "name").bind fun name? => ?_
  cases name? with
  | none => exact noNull_ok none
  | some name =>
      refine (messageGetPid_noNull message).bind fun pid => ?_
      split
      · exact noNull_ok none
      · exact noNull_ok _

end

end ModBus
