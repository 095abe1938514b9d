import ModBus.Libc
import ModBus.Czmq.ZHash

/-! The msgpack objects of a message and the accessors of `modbus_helper.c`.
An access that C leaves undefined is a `Fault`, which ends the run. -/

namespace ModBus

open Libc Czmq

inductive Fault
  | nullDeref
  | wrongTag
  | outOfBounds
  | useAfterFree
  | assertFailed
  | missingArgument
  deriving DecidableEq, Repr

def sprintfTo (size : Nat) (text : String) : Except Fault String :=
  if text.length < size then .ok text else .error .outOfBounds

theorem sprintfTo_ok {size : Nat} {text out : String} :
    sprintfTo size text = .ok out ↔ text.length < size ∧ out = text := by
  unfold sprintfTo
  split
  · rename_i fits
    simp [fits, eq_comm]
  · rename_i long
    simp [long]

theorem sprintfTo_fault {size : Nat} {text : String} {fault : Fault} :
    sprintfTo size text = .error fault ↔ ¬ text.length < size ∧ fault = .outOfBounds := by
  unfold sprintfTo
  split
  · rename_i fits
    simp [fits]
  · rename_i long
    simp [long, eq_comm]

theorem bind_ok {α β : Type} {first : Except Fault α} {rest : α → Except Fault β} {last : β} :
    (first >>= rest) = .ok last ↔ ∃ middle, first = .ok middle ∧ rest middle = .ok last := by
  cases first with
  | error fault => simp [bind, Except.bind]
  | ok middle => simp [bind, Except.bind]

theorem map_ok {α β : Type} {first : Except Fault α} {f : α → β} {last : β} :
    first.map f = .ok last ↔ ∃ middle, first = .ok middle ∧ f middle = last := by
  cases first with
  | error fault => simp [Except.map]
  | ok middle => simp [Except.map]

/-- `msgpack_object`; a double is kept as its bits, which nothing here reads. The union
of a nil has any content, or `none`, which is not to be read. -/
inductive Object
  | nil (content : Option UInt32)
  | boolean (value : Bool)
  | positiveInteger (u64 : UInt64)
  | negativeInteger (i64 : Int64)
  | double (bits : UInt64)
  | raw (bytes : String)
  | array (items : List Object)
  | map (kvs : List (Object × Object))

/-- `memcmp(bytes, key, size of bytes) == 0` against a C string, which ends with
its NUL. The comparison is taken to stop at the first difference, as `memcmp` does in
use, although it may read all the bytes that it is given: almost every message has a
key before `body` that is longer. -/
def memcmpEqual : List Char → List Char → Except Fault Bool
  | [], _ => .ok true
  | c :: cs, [] =>
      if c = '\x00' then (if cs.isEmpty then .ok true else .error .outOfBounds) else .ok false
  | c :: cs, k :: ks => if c = k then memcmpEqual cs ks else .ok false

def mFindEntry (key : String) : List (Object × Object) → Except Fault (Option Object)
  | [] => .ok none
  | (.raw bytes, value) :: rest =>
      match memcmpEqual bytes.toList key.toList with
      | .error fault => .error fault
      | .ok true => .ok (some value)
      | .ok false => mFindEntry key rest
  | _ :: _ => .error .wrongTag

def mFindMap (o : Object) (key : String) : Except Fault (Option Object) :=
  match o with
  | .map kvs => mFindEntry key kvs
  | _ => .ok none

/-- What `via.raw.size` can read in an object that is no raw: the first four bytes of
its union, lowest first. msgpack leaves those of a nil unset, and sets one of a
boolean's. -/
def Object.readsAs (size : Nat) : Object → Bool
  | .nil content => content.all fun bytes => decide (bytes.toNat = size)
  | .boolean value => size % 256 = value.toNat
  | .positiveInteger u64 => u64.toUInt32.toNat = size
  | .negativeInteger i64 => i64.toUInt64.toUInt32.toNat = size
  | .double bits => bits.toUInt32.toNat = size
  | .raw bytes => bytes.length = size
  | .array items => items.length = size
  | .map kvs => kvs.length = size

/-- The test of the getters. A key that is no raw passes for one of the length that is
sought only if its union says so, and is then read through a pointer it does not have. -/
def keyMatches (key : String) (name : Object) : Except Fault Bool :=
  match name with
  | .raw bytes => .ok (bytes = key)
  | _ => if name.readsAs key.length then .error .wrongTag else .ok false

mutual
def mGetString (o : Object) (key : String) : Except Fault (Option String) :=
  match o with
  | .map kvs => mGetStringFrom kvs key
  | _ => .error .wrongTag
termination_by structural o

def mGetStringFrom (kvs : List (Object × Object)) (key : String) :
    Except Fault (Option String) :=
  match kvs with
  | [] => .ok none
  | (name, value) :: rest => do
      let same ← keyMatches key name
      match value with
      | .raw text => if same then return some (cString text) else mGetStringFrom rest key
      | .map inner =>
          match ← mGetString (.map inner) key with
          | some text => return some text
          | none => mGetStringFrom rest key
      | _ => mGetStringFrom rest key
termination_by structural kvs
end

mutual
/-- The result of the search in a nested map is dropped. -/
def mGetInt (o : Object) (key : String) : Except Fault UInt64 :=
  match o with
  | .map kvs => mGetIntFrom kvs key
  | _ => .error .wrongTag
termination_by structural o

def mGetIntFrom (kvs : List (Object × Object)) (key : String) : Except Fault UInt64 :=
  match kvs with
  | [] => .ok 0
  | (name, value) :: rest => do
      let same ← keyMatches key name
      match value with
      | .positiveInteger u64 => if same then return u64 else mGetIntFrom rest key
      | .negativeInteger i64 => if same then return i64.toUInt64 else mGetIntFrom rest key
      | .map inner =>
          let _ ← mGetInt (.map inner) key
          mGetIntFrom rest key
      | _ => mGetIntFrom rest key
termination_by structural kvs
end

/-- What `m_unpack_map` stores under a key: a pointer to a copy of the value.
The contents of nested maps and arrays are never read again. -/
inductive Unpacked
  | raw (text : String)
  | u64 (value : UInt64)
  | i64 (value : Int64)
  | hash
  | list
  deriving DecidableEq, Repr

mutual
def mUnpackMap (o : Object) (hash : ZHash Unpacked) : Except Fault (ZHash Unpacked) :=
  match o with
  | .map kvs => mUnpackMapFrom kvs hash
  | _ => .ok hash
termination_by structural o

def mUnpackMapFrom (kvs : List (Object × Object)) (hash : ZHash Unpacked) :
    Except Fault (ZHash Unpacked) :=
  match kvs with
  | [] => .ok hash
  | (.raw bytes, value) :: rest =>
      match value with
      | .raw text =>
          mUnpackMapFrom rest (ZHash.insertNew hash (cString bytes) (.raw (cString text))).2
      | .positiveInteger u64 =>
          mUnpackMapFrom rest (ZHash.insertNew hash (cString bytes) (.u64 u64)).2
      | .negativeInteger i64 =>
          mUnpackMapFrom rest (ZHash.insertNew hash (cString bytes) (.i64 i64)).2
      | .map inner =>
          match mUnpackMap (.map inner) ∅ with
          | .error fault => .error fault
          | .ok _ => mUnpackMapFrom rest (ZHash.insertNew hash (cString bytes) .hash).2
      | .array _ => mUnpackMapFrom rest (ZHash.insertNew hash (cString bytes) .list).2
      | _ => mUnpackMapFrom rest hash
  | _ :: _ => .error .wrongTag
termination_by structural kvs
end

/-- The copy that an autofree list makes of an integer it takes for a string:
its bytes, lowest first, up to a zero byte. -/
def integerText (value : UInt64) : Except Fault String :=
  let bytes := (List.range 8).map fun index => value.toNat / 256 ^ index % 256
  if bytes.all (· ≠ 0) then .error .outOfBounds
  else .ok (String.ofList ((bytes.takeWhile (· ≠ 0)).map Char.ofNat))

def mUnpackItems : List Object → Except Fault (List String)
  | [] => .ok []
  | item :: rest => do
      match item with
      | .raw text => return cString text :: (← mUnpackItems rest)
      | .positiveInteger u64 => return (← integerText u64) :: (← mUnpackItems rest)
      | .negativeInteger i64 => return (← integerText i64.toUInt64) :: (← mUnpackItems rest)
      | _ => mUnpackItems rest

def mUnpackArray (o : Object) : Except Fault (List String) :=
  match o with
  | .array items => mUnpackItems items
  | _ => .ok []

/-- `msgpack_pack_fix_int32`, as msgpack tags it when it is read back. -/
def packFixInt32 (value : Int32) : Object :=
  if value < 0 then .negativeInteger value.toInt64
  else .positiveInteger value.toInt64.toUInt64

def Object.isRaw : Object → Bool
  | .raw _ => true
  | _ => false

theorem keyMatches_foreign {key : String} {name : Object} (foreign : name.isRaw = false) :
    keyMatches key name =
      if name.readsAs key.length then .error .wrongTag else .ok false := by
  cases name with
  | raw bytes => cases foreign
  | _ => rfl

theorem keyMatches_fault {key : String} {name : Object} {fault : Fault}
    (failed : keyMatches key name = .error fault) :
    fault = .wrongTag ∧ name.isRaw = false ∧ name.readsAs key.length = true := by
  by_cases foreign : name.isRaw = false
  · rw [keyMatches_foreign foreign] at failed
    split at failed
    · rename_i reads
      cases failed
      exact ⟨rfl, foreign, reads⟩
    · cases failed
  · cases name with
    | raw bytes => cases failed
    | _ => exact absurd rfl foreign

/-- Only a raw key is ever the one that is sought. -/
theorem keyMatches_true {key : String} {name : Object} :
    keyMatches key name = .ok true ↔ name = .raw key := by
  by_cases foreign : name.isRaw = false
  · rw [keyMatches_foreign foreign]
    refine iff_of_false ?_ ?_
    · split <;> simp
    · rintro rfl
      cases foreign
  · cases name with
    | raw bytes => simp [keyMatches]
    | _ => exact absurd rfl foreign

mutual
theorem entries_below {motive : List (Object × Object) → Prop} (o : Object) (nil : motive [])
    (entry : ∀ name value rest, (∀ inner, value = .map inner → motive inner) → motive rest →
      motive ((name, value) :: rest)) :
    ∀ inner, o = .map inner → motive inner := by
  intro inner isMap
  cases o with
  | map kvs =>
      have below := entries_induction nil entry kvs
      cases isMap
      exact below
  | _ => cases isMap
termination_by structural o

/-- Entries are walked one by one, and the maps among their values on the way. -/
@[elab_as_elim]
theorem entries_induction {motive : List (Object × Object) → Prop} (nil : motive [])
    (entry : ∀ name value rest, (∀ inner, value = .map inner → motive inner) → motive rest →
      motive ((name, value) :: rest))
    (kvs : List (Object × Object)) : motive kvs := by
  cases kvs with
  | nil => exact nil
  | cons first rest =>
      obtain ⟨name, value⟩ := first
      exact entry name value rest (entries_below value nil entry)
        (entries_induction nil entry rest)
termination_by structural kvs
end

end ModBus
