import ModBus.Lookup
import ModBus.MLookup

/-! The typed getters. `m_get_string` hands on what it finds in a nested map;
`m_get_int`, `m_get_double` and `m_get_bool` walk into nested maps too, but drop
what the walk returns. -/

namespace ModBus

open Libc Czmq

def Object.double? : Object → Option UInt64
  | .double bits => some bits
  | _ => none

def Object.boolean? : Object → Option Bool
  | .boolean value => some value
  | _ => none

section

variable {α : Type}

mutual
def mGetTyped (value? : Object → Option α) (zero : α) (o : Object) (key : String) :
    Except Fault α :=
  match o with
  | .map kvs => mGetTypedFrom value? zero kvs key
  | _ => .error .wrongTag
termination_by structural o

def mGetTypedFrom (value? : Object → Option α) (zero : α) (kvs : List (Object × Object))
    (key : String) : Except Fault α :=
  match kvs with
  | [] => .ok zero
  | (name, value) :: rest => do
      let same ← keyMatches key name
      match if same then value? value else none with
      | some found => return found
      | none =>
          match value with
          | .map inner =>
              let _ ← mGetTyped value? zero (.map inner) key
              mGetTypedFrom value? zero rest key
          | _ => mGetTypedFrom value? zero rest key
termination_by structural kvs
end

def mGetDouble (o : Object) (key : String) : Except Fault UInt64 :=
  mGetTyped Object.double? 0 o key

def mGetBool (o : Object) (key : String) : Except Fault Bool :=
  mGetTyped Object.boolean? false o key

theorem mGetIntFrom_typed (kvs : List (Object × Object)) (key : String) :
    mGetIntFrom kvs key = mGetTypedFrom Object.integer? 0 kvs key := by
  induction kvs using entries_induction with
  | nil => rfl
  | entry name value rest below later =>
      cases value with
      | map inner =>
          have nested : mGetInt (.map inner) key =
              mGetTyped Object.integer? 0 (.map inner) key := below inner rfl
          simp only [mGetIntFrom, mGetTypedFrom, nested, later, Object.integer?, ite_self]
      | _ =>
          simp only [mGetIntFrom, mGetTypedFrom]
          cases keyMatches key name with
          | error fault => rfl
          | ok same => cases same <;> first | rfl | exact later

theorem mGetInt_typed (o : Object) (key : String) :
    mGetInt o key = mGetTyped Object.integer? 0 o key := by
  cases o with
  | map kvs => exact mGetIntFrom_typed kvs key
  | _ => rfl

def RawKeys (kvs : List (Object × Object)) : Prop :=
  ∀ entry ∈ entriesFrom kvs, entry.1.isRaw = true

theorem RawKeys.head {name value : Object} {rest : List (Object × Object)}
    (raw : RawKeys ((name, value) :: rest)) : name.isRaw = true := by
  apply raw (name, value)
  rw [entriesFrom]
  exact List.mem_cons_self

theorem RawKeys.below {name : Object} {inner rest : List (Object × Object)}
    (raw : RawKeys ((name, .map inner) :: rest)) : RawKeys inner := by
  intro entry member
  apply raw entry
  rw [entriesFrom, entriesOf]
  exact List.mem_cons_of_mem _ (List.mem_append_left _ member)

theorem RawKeys.tail {name value : Object} {rest : List (Object × Object)}
    (raw : RawKeys ((name, value) :: rest)) : RawKeys rest := by
  intro entry member
  apply raw entry
  rw [entriesFrom]
  exact List.mem_cons_of_mem _ (List.mem_append_right _ member)

variable (value? : Object → Option α) (zero : α) (key : String)

theorem direct_append (before after : List (Object × Object)) :
    direct value? key (before ++ after) =
      (direct value? key before).or (direct value? key after) := by
  induction before with
  | nil => rfl
  | cons entry before ih =>
      rw [List.cons_append, direct_cons, direct_cons, ih]
      by_cases here : isDirect value? key entry = true
      · have typed : (value? entry.2).isSome = true := by
          obtain ⟨name, value⟩ := entry
          cases name with
          | raw bytes =>
              simp only [isDirect, Bool.and_eq_true] at here
              exact here.2
          | _ => cases here
        rw [if_pos here, if_pos here, Option.or_of_isSome typed]
      · rw [if_neg here, if_neg here]

theorem mGetTypedFrom_direct {kvs : List (Object × Object)} (raw : RawKeys kvs) :
    mGetTypedFrom value? zero kvs key = .ok ((direct value? key kvs).getD zero) := by
  induction kvs using entries_induction with
  | nil => rfl
  | entry name value rest below later =>
      have after := later raw.tail
      have isRaw := raw.head
      cases name with
      | raw bytes =>
          have here : isDirect value? key (.raw bytes, value) =
              (if decide (bytes = key) = true then value? value else none).isSome := by
            by_cases same : bytes = key <;> simp [isDirect, same]
          rw [direct_cons, here]
          cases value with
          | map inner =>
              have nested : mGetTyped value? zero (.map inner) key =
                  .ok ((direct value? key inner).getD zero) := below inner rfl raw.below
              simp only [mGetTypedFrom, keyMatches, bind, Except.bind, nested, after]
              by_cases same : decide (bytes = key) = true
              · rw [if_pos same]
                cases value? (.map inner) <;> rfl
              · rw [if_neg same]
                rfl
          | _ =>
              simp only [mGetTypedFrom, keyMatches, bind, Except.bind, after]
              by_cases same : decide (bytes = key) = true
              · rw [if_pos same]
                generalize value? _ = typed?
                cases typed? <;> rfl
              · rw [if_neg same]
                rfl
      | _ => cases isRaw

/-- `m_get_string` returns the first string under the key at any depth. -/
theorem mGetStringFrom_direct {kvs : List (Object × Object)} (raw : RawKeys kvs) :
    mGetStringFrom kvs key = .ok (direct Object.string? key (entriesFrom kvs)) := by
  induction kvs using entries_induction with
  | nil => rfl
  | entry name value rest below later =>
      have after := later raw.tail
      have isRaw := raw.head
      cases name with
      | raw bytes =>
          rw [entriesFrom, direct_cons, direct_append, mGetStringFrom]
          simp only [keyMatches, bind, Except.bind]
          cases value with
          | raw text =>
              by_cases same : bytes = key
              · simp [isDirect, Object.string?, same, pure, Except.pure]
              · simp [isDirect, same, after, entriesOf, direct]
          | map inner =>
              have nested : mGetString (.map inner) key =
                  .ok (direct Object.string? key (entriesFrom inner)) := below inner rfl raw.below
              simp only [isDirect, Object.string?, nested, entriesOf, after]
              cases direct Object.string? key (entriesFrom inner) <;> simp [pure, Except.pure]
          | _ => simp [isDirect, Object.string?, after, entriesOf, direct]
      | _ => cases isRaw

/-- The first match of the traversal stands in a nested map ahead of the map's own,
or is the map's own. -/
theorem direct_entriesFrom (kvs : List (Object × Object)) :
    direct value? key (entriesFrom kvs) =
      (direct value? key (entriesFrom (ahead value? key kvs))).or (direct value? key kvs) := by
  induction kvs with
  | nil => rfl
  | cons entry rest ih =>
      obtain ⟨name, value⟩ := entry
      by_cases here : isDirect value? key (name, value) = true
      · rw [entriesFrom, ahead_cons, if_pos here, direct_cons, if_pos here, direct_cons, if_pos here]
        rfl
      · rw [entriesFrom, ahead_cons, if_neg here, direct_cons, if_neg here, direct_cons, if_neg here,
          entriesFrom, direct_cons, if_neg here, direct_append, direct_append, ih, Option.or_assoc]

def SameBelow (kvs : List (Object × Object)) : Prop :=
  ∀ found, direct value? key (entriesFrom (ahead value? key kvs)) = some found →
    found = (direct value? key kvs).getD zero

def GetsFirst (got : Except Fault α) (kvs : List (Object × Object)) : Prop :=
  got = .ok ((direct value? key (entriesFrom kvs)).getD zero)

theorem mGetTyped_getsFirst {kvs : List (Object × Object)} (raw : RawKeys kvs) :
    GetsFirst value? zero key (mGetTyped value? zero (.map kvs) key) kvs ↔
      SameBelow value? zero key kvs := by
  have got : mGetTyped value? zero (.map kvs) key = .ok ((direct value? key kvs).getD zero) :=
    mGetTypedFrom_direct value? zero key raw
  rw [GetsFirst, SameBelow, got, direct_entriesFrom]
  cases direct value? key (entriesFrom (ahead value? key kvs)) with
  | none => simp
  | some found => simp [eq_comm]

end

/-- Each getter of a number or a boolean finds the first match just when no nested
map ahead of the map's own match says something else. -/
theorem typedGetters_first (key : String) {kvs : List (Object × Object)} (raw : RawKeys kvs) :
    mGetString (.map kvs) key = .ok (direct Object.string? key (entriesFrom kvs)) ∧
    (GetsFirst Object.integer? 0 key (mGetInt (.map kvs) key) kvs ↔
      SameBelow Object.integer? 0 key kvs) ∧
    (GetsFirst Object.double? 0 key (mGetDouble (.map kvs) key) kvs ↔
      SameBelow Object.double? 0 key kvs) ∧
    (GetsFirst Object.boolean? false key (mGetBool (.map kvs) key) kvs ↔
      SameBelow Object.boolean? false key kvs) := by
  refine ⟨mGetStringFrom_direct key raw, ?_, ?_, ?_⟩
  · rw [mGetInt_typed]
    exact mGetTyped_getsFirst Object.integer? 0 key raw
  · exact mGetTyped_getsFirst Object.double? 0 key raw
  · exact mGetTyped_getsFirst Object.boolean? false key raw

def nestedFlag : List (Object × Object) :=
  [(.raw "parameters", .map [(.raw "count", .positiveInteger 5), (.raw "flag", .boolean true)])]

def ownFlag : List (Object × Object) :=
  [(.raw "flag", .boolean true), (.raw "parameters", .map [(.raw "flag", .boolean false)])]

theorem typedGetters_first_own :
    RawKeys ownFlag ∧ GetsFirst Object.boolean? false "flag" (mGetBool (.map ownFlag) "flag") ownFlag := by
  have raw : RawKeys ownFlag := by
    unfold RawKeys
    decide
  refine ⟨raw, (typedGetters_first "flag" raw).2.2.2.mpr ?_⟩
  intro found below
  cases below

/-- What stands in a nested map is walked over and forgotten, though `m_get_string`
would return it. -/
theorem typedGetters_dropped :
    RawKeys nestedFlag ∧ mGetInt (.map nestedFlag) "count" = .ok 0 ∧
      direct Object.integer? "count" (entriesFrom nestedFlag) = some 5 ∧
      mGetBool (.map nestedFlag) "flag" = .ok false ∧
      direct Object.boolean? "flag" (entriesFrom nestedFlag) = some true := by
  refine ⟨?_, rfl, rfl, rfl, rfl⟩
  unfold RawKeys
  decide

end ModBus
