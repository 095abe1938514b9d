import ModBus.Getters

/-! `m_find_map` and `m_lookup` compare as many bytes as the key of the entry has,
not as the key sought has. Both are one scan: the first over a map's entries, the
second over the entries at every depth. -/

namespace ModBus

open Libc Czmq

/-! The keys that are handed to `memcmp`, each with its own size. -/

def keyBytes : Object → List String
  | .raw bytes => [bytes]
  | _ => []

def differs (name : Object) (key : String) : Bool :=
  match keyEqual name key with
  | .ok false => true
  | _ => false

def foundNothing {α : Type} : Except Fault (Option α) → Bool
  | .ok none => true
  | _ => false

def mFindCompared (key : String) : List (Object × Object) → List String
  | [] => []
  | (name, _) :: rest =>
      keyBytes name ++ if differs name key then mFindCompared key rest else []

mutual
def mLookupCompared (o : Object) (key : String) : List String :=
  match o with
  | .map kvs => mLookupComparedFrom kvs key
  | _ => []
termination_by structural o

def mLookupComparedFrom (kvs : List (Object × Object)) (key : String) : List String :=
  match kvs with
  | [] => []
  | (name, value) :: rest =>
      if (dataOf value).isSome then
        keyBytes name ++
          if differs name key then
            mLookupCompared value key ++
              if foundNothing (mLookup value key) then mLookupComparedFrom rest key else []
          else []
      else mLookupComparedFrom rest key
termination_by structural kvs
end

section

variable {α : Type} (data : Object → Option α) (key : String)

def scan : List (Object × Object) → Except Fault (Option α)
  | [] => .ok none
  | (name, value) :: rest =>
      match data value with
      | none => scan rest
      | some found =>
          match keyEqual name key with
          | .error fault => .error fault
          | .ok true => .ok (some found)
          | .ok false => scan rest

def scanCompared : List (Object × Object) → List String
  | [] => []
  | (name, value) :: rest =>
      if (data value).isSome then
        keyBytes name ++ if differs name key then scanCompared rest else []
      else scanCompared rest

def orGoOn (first rest : Except Fault (Option α)) : Except Fault (Option α) :=
  match first with
  | .ok none => rest
  | _ => first

theorem scan_append (before after : List (Object × Object)) :
    scan data key (before ++ after) = orGoOn (scan data key before) (scan data key after) := by
  induction before with
  | nil => rfl
  | cons entry before ih =>
      obtain ⟨name, value⟩ := entry
      rw [List.cons_append, scan, scan]
      cases data value with
      | none => exact ih
      | some found =>
          cases keyEqual name key with
          | error fault => rfl
          | ok equal =>
              cases equal with
              | true => rfl
              | false => exact ih

theorem scanCompared_append (before after : List (Object × Object)) :
    scanCompared data key (before ++ after) = scanCompared data key before ++
      if foundNothing (scan data key before) then scanCompared data key after else [] := by
  induction before with
  | nil => rfl
  | cons entry before ih =>
      obtain ⟨name, value⟩ := entry
      rw [List.cons_append, scanCompared, scanCompared, scan]
      cases data value with
      | none => exact ih
      | some found =>
          simp only [Option.isSome_some, if_true]
          cases compared : keyEqual name key with
          | error fault => simp [differs, compared, foundNothing]
          | ok equal =>
              cases equal with
              | true => simp [differs, compared, foundNothing]
              | false => simp [differs, compared, ih]

theorem mFindCompared_scan (kvs : List (Object × Object)) :
    mFindCompared key kvs = scanCompared some key kvs := by
  induction kvs with
  | nil => rfl
  | cons entry rest ih => rw [mFindCompared, scanCompared, ih, Option.isSome_some, if_pos rfl]

theorem mFindEntry_scan (kvs : List (Object × Object)) :
    mFindEntry key kvs = scan some key kvs := by
  induction kvs with
  | nil => rfl
  | cons entry rest ih =>
      obtain ⟨name, value⟩ := entry
      cases name with
      | raw bytes =>
          rw [mFindEntry, scan, keyEqual]
          cases memcmpEqual bytes.toList key.toList with
          | error fault => rfl
          | ok equal =>
              cases equal with
              | true => rfl
              | false => exact ih
      | _ => rfl

mutual
theorem mLookup_scan (o : Object) : mLookup o key = scan dataOf key (entriesOf o) := by
  cases o with
  | map kvs => exact mLookupFrom_scan kvs
  | _ => rfl
termination_by structural o

theorem mLookupFrom_scan (kvs : List (Object × Object)) :
    mLookupFrom kvs key = scan dataOf key (entriesFrom kvs) := by
  cases kvs with
  | nil => rfl
  | cons entry rest =>
      obtain ⟨name, value⟩ := entry
      have below := mLookup_scan value
      have after := mLookupFrom_scan rest
      rw [mLookupFrom, entriesFrom, scan, scan_append]
      cases passed : dataOf value with
      | none =>
          rw [entriesOf_passedOver passed]
          exact after
      | some found =>
          cases keyEqual name key with
          | error fault => rfl
          | ok equal =>
              cases equal with
              | true => rfl
              | false =>
                  rw [← below, ← after]
                  simp only [orGoOn]
                  cases mLookup value key with
                  | error fault => rfl
                  | ok inner? => cases inner? <;> rfl
termination_by structural kvs
end

mutual
theorem mLookupCompared_scan (o : Object) :
    mLookupCompared o key = scanCompared dataOf key (entriesOf o) := by
  cases o with
  | map kvs => exact mLookupComparedFrom_scan kvs
  | _ => rfl
termination_by structural o

theorem mLookupComparedFrom_scan (kvs : List (Object × Object)) :
    mLookupComparedFrom kvs key = scanCompared dataOf key (entriesFrom kvs) := by
  cases kvs with
  | nil => rfl
  | cons entry rest =>
      obtain ⟨name, value⟩ := entry
      have below := mLookupCompared_scan value
      have after := mLookupComparedFrom_scan rest
      rw [mLookupComparedFrom, entriesFrom, scanCompared]
      cases passed : dataOf value with
      | none =>
          rw [entriesOf_passedOver passed, List.nil_append]
          exact after
      | some found =>
          rw [scanCompared_append, below, after, mLookup_scan]
          simp only [Option.isSome_some, if_true]
termination_by structural kvs
end

/-- The comparison does not tell the two apart: the entry's key begins the one
sought, or goes on after all of it and its NUL. -/
def confusable (name : Object) : Bool :=
  match name with
  | .raw bytes =>
      bytes.toList.isPrefixOf key.toList || (key.toList ++ ['\x00']).isPrefixOf bytes.toList
  | _ => false

theorem memcmpEqual_eq (bytes key : List Char) :
    memcmpEqual bytes key =
      if (bytes.isPrefixOf key || (key ++ ['\x00']).isPrefixOf bytes) = true then
        (if bytes.isPrefixOf (key ++ ['\x00']) = true then .ok true else .error .outOfBounds)
      else .ok false := by
  induction bytes generalizing key with
  | nil => cases key <;> rfl
  | cons c cs ih =>
      cases key with
      | nil =>
          by_cases ends : c = '\x00'
          · subst ends
            cases cs <;> simp [memcmpEqual, List.isPrefixOf]
          · simp [memcmpEqual, List.isPrefixOf, ends, Ne.symm ends]
      | cons k ks =>
          by_cases same : c = k
          · subst same
            simpa [memcmpEqual, List.isPrefixOf] using ih ks
          · simp [memcmpEqual, List.isPrefixOf, same, Ne.symm same]

theorem keyEqual_raw {name : Object} (raw : name.isRaw = true) :
    keyEqual name key =
      if confusable key name = true then
        (if keyBegins name key = true then .ok true else .error .outOfBounds)
      else .ok false := by
  cases name with
  | raw bytes => exact memcmpEqual_eq bytes.toList key.toList
  | _ => cases raw

def stopsAt (entry : Object × Object) : Bool :=
  (data entry.2).isSome && confusable key entry.1

theorem scan_stops {entries : List (Object × Object)}
    (raw : ∀ entry ∈ entries, entry.1.isRaw = true) :
    scan data key entries = (entries.find? (stopsAt data key)).elim (.ok none) fun entry =>
      if keyBegins entry.1 key = true then .ok (data entry.2) else .error .outOfBounds := by
  induction entries with
  | nil => rfl
  | cons entry rest ih =>
      have later := ih fun other member => raw other (List.mem_cons_of_mem _ member)
      have compared := keyEqual_raw key (raw entry List.mem_cons_self)
      obtain ⟨name, value⟩ := entry
      rw [scan, List.find?_cons, stopsAt]
      cases typed : data value with
      | none => exact later
      | some found =>
          simp only [compared]
          cases alike : confusable key name with
          | false => simpa using later
          | true =>
              by_cases begins : keyBegins name key = true
              · simp [begins, typed]
              · simp [begins]

theorem isDirect_stopsAt {entry : Object × Object} (direct : isDirect data key entry = true) :
    stopsAt data key entry = true := by
  obtain ⟨name, value⟩ := entry
  cases name with
  | raw bytes =>
      simp only [isDirect, Bool.and_eq_true, decide_eq_true_eq] at direct
      obtain ⟨rfl, typed⟩ := direct
      simp [stopsAt, confusable, typed]
  | _ => cases direct

theorem direct_stops {entries : List (Object × Object)} {entry : Object × Object}
    (first : entries.find? (stopsAt data key) = some entry) (exactly : entry.1 = .raw key) :
    direct data key entries = data entry.2 := by
  obtain ⟨stops, before, after, rfl, passed⟩ := List.find?_eq_some_iff_append.mp first
  have nothing : before.find? (isDirect data key) = none := by
    rw [List.find?_eq_none]
    intro other member same
    have free := passed other member
    rw [isDirect_stopsAt data key same] at free
    cases free
  have here : isDirect data key entry = true := by
    obtain ⟨name, value⟩ := entry
    cases exactly
    simp only [stopsAt, Bool.and_eq_true] at stops
    simp [isDirect, stops.1]
  rw [direct, List.find?_append, nothing, Option.none_or, List.find?_cons, here]
  rfl

theorem differs_eq {name : Object} (raw : name.isRaw = true) :
    differs name key = !confusable key name := by
  rw [differs, keyEqual_raw key raw]
  cases confusable key name with
  | false => rfl
  | true => by_cases begins : keyBegins name key = true <;> simp [begins]

def Within (compared : List String) : Prop := ∀ bytes ∈ compared, bytes.length ≤ key.length + 1

instance (compared : List String) : Decidable (Within key compared) :=
  inferInstanceAs (Decidable (∀ bytes ∈ compared, _))

def NoneLonger (entries : List (Object × Object)) : Prop :=
  ∀ before entry after, entries = before ++ entry :: after →
    before.find? (stopsAt data key) = none → (data entry.2).isSome →
      ∀ bytes, entry.1 = .raw bytes → bytes.length ≤ key.length + 1

theorem noneLonger_cons {entry : Object × Object} {rest : List (Object × Object)} :
    NoneLonger data key (entry :: rest) ↔
      ((data entry.2).isSome → ∀ bytes, entry.1 = .raw bytes → bytes.length ≤ key.length + 1) ∧
        (stopsAt data key entry = false → NoneLonger data key rest) := by
  constructor
  · intro none'
    refine ⟨none' [] entry rest rfl rfl, fun goes before other after same passed => ?_⟩
    refine none' (entry :: before) other after (by rw [same]; rfl) ?_
    rw [List.find?_cons, goes]
    exact passed
  · rintro ⟨here, later⟩ before other after same passed
    cases before with
    | nil =>
        cases same
        exact here
    | cons first before =>
        obtain ⟨rfl, others⟩ := List.cons.inj same
        rw [List.find?_cons] at passed
        split at passed
        · cases passed
        · rename_i goes
          exact later goes before other after others passed

theorem scanCompared_within {entries : List (Object × Object)}
    (raw : ∀ entry ∈ entries, entry.1.isRaw = true) :
    Within key (scanCompared data key entries) ↔ NoneLonger data key entries := by
  induction entries with
  | nil =>
      refine iff_of_true (fun _ member => absurd member List.not_mem_nil) ?_
      intro before entry after same
      simp at same
  | cons entry rest ih =>
      have later := ih fun other member => raw other (List.mem_cons_of_mem _ member)
      obtain ⟨name, value⟩ := entry
      have bytes? : ∃ bytes, name = .raw bytes := by
        have here := raw _ List.mem_cons_self
        cases name with
        | raw bytes => exact ⟨bytes, rfl⟩
        | _ => cases here
      obtain ⟨bytes, rfl⟩ := bytes?
      rw [noneLonger_cons, scanCompared, stopsAt, differs_eq key rfl]
      cases data value with
      | none => simpa using later
      | some found =>
          cases alike : confusable key (.raw bytes) with
          | true => simp [Within, keyBytes]
          | false => simpa [Within, keyBytes] using fun _ => later

def FindsExactly (entries : List (Object × Object)) (found : Except Fault (Option α)) : Prop :=
  found = .ok (direct data key entries)

def FirstExact (entries : List (Object × Object)) : Prop :=
  ∀ entry, entries.find? (stopsAt data key) = some entry →
    entry.1 = .raw key ∨
      keyBegins entry.1 key = true ∧ data entry.2 = direct data key entries

theorem scan_findsExactly {entries : List (Object × Object)}
    (raw : ∀ entry ∈ entries, entry.1.isRaw = true) :
    FindsExactly data key entries (scan data key entries) ↔ FirstExact data key entries := by
  rw [FindsExactly, FirstExact, scan_stops data key raw]
  cases first : entries.find? (stopsAt data key) with
  | none =>
      have nothing : entries.find? (isDirect data key) = none := by
        rw [List.find?_eq_none] at first ⊢
        intro entry member same
        exact first entry member (isDirect_stopsAt data key same)
      simp [direct, nothing]
  | some entry =>
      simp only [Option.elim_some, Option.some.injEq, forall_eq']
      constructor
      · intro same
        split_ifs at same with begins
        right
        exact ⟨begins, Except.ok.inj same⟩
      · rintro (exactly | ⟨begins, same⟩)
        · have begins : keyBegins entry.1 key = true := by
            simp [exactly, keyBegins]
          rw [if_pos begins, direct_stops data key first exactly]
        · rw [if_pos begins, same]

end

/-- Both searches find exactly the key and read no string beyond its end just when
no longer key comes first, nor an entry that is confused with the key and says
something else. -/
theorem exactKey_iff (key : String) {kvs : List (Object × Object)}
    (raw : ∀ entry ∈ kvs, entry.1.isRaw = true) :
    (FindsExactly some key kvs (mFindMap (.map kvs) key) ∧ Within key (mFindCompared key kvs) ↔
      FirstExact some key kvs ∧ NoneLonger some key kvs) ∧
      (RawKeys kvs →
        (FindsExactly dataOf key (entriesFrom kvs) (mLookup (.map kvs) key) ∧
            Within key (mLookupCompared (.map kvs) key) ↔
          FirstExact dataOf key (entriesFrom kvs) ∧ NoneLonger dataOf key (entriesFrom kvs))) := by
  constructor
  · rw [mFindMap, mFindEntry_scan, mFindCompared_scan, scanCompared_within some key raw,
      scan_findsExactly some key raw]
  · intro rawBelow
    rw [mLookup_scan, mLookupCompared_scan, entriesOf, scanCompared_within dataOf key rawBelow,
      scan_findsExactly dataOf key rawBelow]

def emptyFirst : List (Object × Object) :=
  [(.raw "", .raw "any"), (.raw "body", .raw "sought")]

def bodySecond : List (Object × Object) :=
  [(.raw "id", .raw "call-1"), (.raw "body", .raw "sought")]

def commandFirst : List (Object × Object) :=
  [(.raw "command", .raw "call"), (.raw "body", .raw "sought")]

theorem exactKey_bodySecond :
    (FindsExactly some "body" bodySecond (mFindMap (.map bodySecond) "body") ∧
        Within "body" (mFindCompared "body" bodySecond)) ∧
      FindsExactly dataOf "body" (entriesFrom bodySecond) (mLookup (.map bodySecond) "body") ∧
        Within "body" (mLookupCompared (.map bodySecond) "body") := by
  have raw : ∀ entry ∈ bodySecond, entry.1.isRaw = true := by decide
  have both := exactKey_iff "body" raw
  refine ⟨both.1.mpr ⟨?_, ?_⟩, (both.2 ?_).mpr ⟨?_, ?_⟩⟩
  · intro entry first
    cases first
    exact Or.inl rfl
  · exact (scanCompared_within some "body" raw).mp (by decide)
  · unfold RawKeys
    decide
  · intro entry first
    cases first
    exact Or.inl rfl
  · exact (scanCompared_within dataOf "body" (by decide)).mp (by decide)

/-- The empty key is taken for every other, a key that goes on after its NUL is
read past the end of the one sought, and so is `body` for every longer key. -/
theorem exactKey_fails :
    ¬ FindsExactly some "body" emptyFirst (mFindMap (.map emptyFirst) "body") ∧
      ¬ FindsExactly dataOf "body" (entriesFrom emptyFirst) (mLookup (.map emptyFirst) "body") ∧
      mFindMap (.map [(.raw "body\x00y", .raw "any")]) "body" = .error .outOfBounds ∧
      ¬ Within "body" (mFindCompared "body" commandFirst) := by
  refine ⟨?_, ?_, rfl, by decide⟩
  · intro found
    have same : some (Object.raw "any") = some (.raw "sought") := Except.ok.inj found
    simp at same
  · intro found
    have same : some (Found.text "any") = some (.text "sought") := Except.ok.inj found
    simp at same

end ModBus
