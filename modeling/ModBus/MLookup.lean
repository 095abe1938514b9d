import ModBus.Object

/-! `m_lookup`, which searches a message depth first. It compares only as many
bytes as the key of an entry has, so that a key which begins the one sought is
found in its place. -/

namespace ModBus

open Libc Czmq

/-- The pointer that `m_lookup` returns: to a copy of raw bytes, or into the
object itself. -/
inductive Found
  | text (bytes : String)
  | u64 (value : UInt64)
  | i64 (value : Int64)
  | object (o : Object)

/-- What is returned for an entry with this value; a nil, a boolean and a double
are passed over, and so is their key. -/
def dataOf : Object → Option Found
  | .raw bytes => some (.text (cString bytes))
  | .positiveInteger u64 => some (.u64 u64)
  | .negativeInteger i64 => some (.i64 i64)
  | .map kvs => some (.object (.map kvs))
  | .array items => some (.object (.array items))
  | _ => none

def keyEqual (name : Object) (key : String) : Except Fault Bool :=
  match name with
  | .raw bytes => memcmpEqual bytes.toList key.toList
  | _ => .error .wrongTag

mutual
def mLookup (o : Object) (key : String) : Except Fault (Option Found) :=
  match o with
  | .map kvs => mLookupFrom kvs key
  | _ => .ok none
termination_by structural o

def mLookupFrom (kvs : List (Object × Object)) (key : String) : Except Fault (Option Found) :=
  match kvs with
  | [] => .ok none
  | (name, value) :: rest =>
      match dataOf value with
      | none => mLookupFrom rest key
      | some data =>
          match keyEqual name key with
          | .error fault => .error fault
          | .ok true => .ok (some data)
          | .ok false =>
              match mLookup value key with
              | .error fault => .error fault
              | .ok (some below) => .ok (some below)
              | .ok none => mLookupFrom rest key
termination_by structural kvs
end

/-! The same search told by the list of all entries. -/

mutual
def entriesOf (o : Object) : List (Object × Object) :=
  match o with
  | .map kvs => entriesFrom kvs
  | _ => []
termination_by structural o

def entriesFrom (kvs : List (Object × Object)) : List (Object × Object) :=
  match kvs with
  | [] => []
  | (name, value) :: rest => (name, value) :: (entriesOf value ++ entriesFrom rest)
termination_by structural kvs
end

def keyBegins (name : Object) (key : String) : Bool :=
  match name with
  | .raw bytes => bytes.toList.isPrefixOf (key.toList ++ ['\x00'])
  | _ => false

def answersTo (key : String) (entry : Object × Object) : Bool :=
  (dataOf entry.2).isSome && keyBegins entry.1 key

theorem memcmpEqual_isPrefixOf {bytes key : List Char} {equal : Bool}
    (compared : memcmpEqual bytes key = .ok equal) :
    bytes.isPrefixOf (key ++ ['\x00']) = equal := by
  induction bytes generalizing key with
  | nil =>
      cases compared
      rfl
  | cons c cs ih =>
      cases key with
      | nil =>
          rw [memcmpEqual] at compared
          by_cases ends : c = '\x00'
          · rw [if_pos ends] at compared
            cases cs with
            | nil =>
                cases compared
                simp [ends]
            | cons next cs => cases compared
          · rw [if_neg ends] at compared
            cases compared
            simp [List.isPrefixOf, ends]
      | cons k ks =>
          rw [memcmpEqual] at compared
          by_cases same : c = k
          · rw [if_pos same] at compared
            simpa [List.isPrefixOf, same] using ih compared
          · rw [if_neg same] at compared
            cases compared
            simp [List.isPrefixOf, same]

theorem keyEqual_keyBegins {name : Object} {key : String} {equal : Bool}
    (compared : keyEqual name key = .ok equal) : keyBegins name key = equal := by
  cases name with
  | raw bytes => exact memcmpEqual_isPrefixOf compared
  | _ => cases compared

theorem entriesOf_passedOver {value : Object} (passed : dataOf value = none) :
    entriesOf value = [] := by
  cases value with
  | map kvs => cases passed
  | _ => rfl

theorem find_answers {key : String} {entries : List (Object × Object)}
    (nothing : ((entries.find? (answersTo key)).bind fun entry => dataOf entry.2) = none) :
    entries.find? (answersTo key) = none := by
  cases first : entries.find? (answersTo key) with
  | none => rfl
  | some entry =>
      have answers := List.find?_some first
      rw [first, Option.bind_some] at nothing
      rw [answersTo, nothing] at answers
      cases answers

mutual
theorem mLookup_entries (key : String) (o : Object) (found? : Option Found)
    (searched : mLookup o key = .ok found?) :
    found? = ((entriesOf o).find? (answersTo key)).bind fun entry => dataOf entry.2 := by
  cases o with
  | map kvs => exact mLookupFrom_entries key kvs found? searched
  | _ =>
      cases searched
      rfl
termination_by structural o

theorem mLookupFrom_entries (key : String) (kvs : List (Object × Object)) (found? : Option Found)
    (searched : mLookupFrom kvs key = .ok found?) :
    found? = ((entriesFrom kvs).find? (answersTo key)).bind fun entry => dataOf entry.2 := by
  cases kvs with
  | nil =>
      cases searched
      rfl
  | cons entry rest =>
      obtain ⟨name, value⟩ := entry
      have below := mLookup_entries key value
      have after := mLookupFrom_entries key rest
      rw [mLookupFrom] at searched
      rw [entriesFrom, List.find?_cons, List.find?_append]
      cases passed : dataOf value with
      | none =>
          rw [passed] at searched
          rw [entriesOf_passedOver passed, answersTo, passed]
          exact after found? searched
      | some data =>
          simp only [passed] at searched
          cases compared : keyEqual name key with
          | error fault =>
              rw [compared] at searched
              cases searched
          | ok equal =>
              have answers : answersTo key (name, value) = equal := by
                rw [answersTo, passed]
                exact keyEqual_keyBegins compared
              rw [compared] at searched
              rw [answers]
              cases equal with
              | true =>
                  cases searched
                  exact passed.symm
              | false =>
                  cases nested : mLookup value key with
                  | error fault =>
                      simp only [nested] at searched
                      cases searched
                  | ok inner? =>
                      simp only [nested] at searched
                      have inside := below inner? nested
                      cases inner? with
                      | some inner =>
                          cases searched
                          cases first : (entriesOf value).find? (answersTo key) with
                          | none =>
                              rw [first] at inside
                              cases inside
                          | some entry =>
                              rw [first] at inside
                              exact inside
                      | none =>
                          rw [find_answers inside.symm]
                          exact after found? searched
termination_by structural kvs
end

end ModBus
