import ModBus.Handlers

/-! Which entries of a message its routing fields are read from. `m_get_string`
enters nested maps as it meets them, and `m_find_map` takes every prefix of a key
for the key, so what stands first may be user data. -/

namespace ModBus

open Libc Czmq

def directEntry (key : String) : List (Object × Object) → Option Object
  | [] => none
  | (.raw bytes, value) :: rest => if bytes = key then some value else directEntry key rest
  | _ :: rest => directEntry key rest

def Object.string? : Object → Option String
  | .raw text => some (cString text)
  | _ => none

def Object.integer? : Object → Option UInt64
  | .positiveInteger u64 => some u64
  | .negativeInteger i64 => some i64.toUInt64
  | _ => none

def Object.entries : Object → List (Object × Object)
  | .map kvs => kvs
  | _ => []

def isDirect {α : Type} (value? : Object → Option α) (key : String) : Object × Object → Bool
  | (.raw bytes, value) => decide (bytes = key) && (value? value).isSome
  | _ => false

def direct {α : Type} (value? : Object → Option α) (key : String) (kvs : List (Object × Object)) :
    Option α :=
  (kvs.find? (isDirect value? key)).bind fun entry => value? entry.2

def ahead {α : Type} (value? : Object → Option α) (key : String) (kvs : List (Object × Object)) :
    List (Object × Object) :=
  kvs.takeWhile fun entry => !isDirect value? key entry

mutual
def texts (key : String) (o : Object) : List (Except Fault String) :=
  match o with
  | .map kvs => textsFrom key kvs
  | _ => []
termination_by structural o

def textsFrom (key : String) (kvs : List (Object × Object)) : List (Except Fault String) :=
  match kvs with
  | [] => []
  | (name, value) :: rest =>
      (match keyMatches key name with
        | .error fault => [.error fault]
        | .ok same =>
            match value with
            | .raw text => if same then [.ok (cString text)] else []
            | .map inner => texts key (.map inner)
            | _ => []) ++ textsFrom key rest
termination_by structural kvs
end

def firstText : List (Except Fault String) → Except Fault (Option String)
  | [] => .ok none
  | .ok text :: _ => .ok (some text)
  | .error fault :: _ => .error fault

def intruder (key : String) (kvs : List (Object × Object)) : Option (Except Fault (Option String)) :=
  ((textsFrom key (ahead Object.string? key kvs)).head?).map (Except.map some)

def intIntruder (key : String) (kvs : List (Object × Object)) : Option (Except Fault UInt64) :=
  match mGetIntFrom (ahead Object.integer? key kvs) key with
  | .error fault => some (.error fault)
  | .ok _ => none

def bodyEntries (kvs : List (Object × Object)) : List (Object × Object) :=
  ((directEntry "body" kvs).map Object.entries).getD []

def bodyFirst : List (Object × Object) → Bool
  | [] => true
  | (.raw bytes, _) :: rest =>
      if bytes = "body" then true
      else
        match memcmpEqual bytes.toList "body".toList with
        | .ok false => bodyFirst rest
        | _ => false
  | _ :: _ => false

def searchBody {α : Type} (search : List (Object × Object) → Except Fault α) (absent : α)
    (kvs : List (Object × Object)) : Except Fault α :=
  match mFindEntry "body" kvs with
  | .error fault => .error fault
  | .ok none => .ok absent
  | .ok (some (.map inner)) => search inner
  | .ok (some _) => .error .wrongTag

def bodyIntruder {α : Type} (inside : List (Object × Object) → Option (Except Fault α))
    (search : List (Object × Object) → Except Fault α) (absent : α)
    (kvs : List (Object × Object)) : Option (Except Fault α) :=
  if bodyFirst kvs then
    match directEntry "body" kvs with
    | none => none
    | some (.map inner) => inside inner
    | some _ => some (.error .wrongTag)
  else some (searchBody search absent kvs)

def bodyTextIntruder (key : String) : List (Object × Object) → Option (Except Fault (Option String)) :=
  bodyIntruder (intruder key) (fun other => firstText (textsFrom key other)) none

def bodyIntIntruder (key : String) : List (Object × Object) → Option (Except Fault UInt64) :=
  bodyIntruder (intIntruder key) (fun other => mGetIntFrom other key) 0

def Undisturbed {α : Type} (entry : α) (left right : Option (Except Fault α)) : Prop :=
  (∀ fault, left ≠ some (.error fault) ∧ right ≠ some (.error fault)) ∧
    (left = right ∨ ∀ value, left = some (.ok value) ∨ right = some (.ok value) → value = entry)

def reading {α : Type} (entry : α) (intruder : Option (Except Fault α)) : Except Fault α :=
  intruder.getD (.ok entry)

theorem reading_ok {α : Type} {entry value : α} {intruder : Option (Except Fault α)} :
    reading entry intruder = .ok value ↔
      intruder = some (.ok value) ∨ intruder = none ∧ entry = value := by
  cases intruder <;> simp [reading]

theorem reading_sound {α : Type} (entry : α) {intruder : Option (Except Fault α)}
    (sound : ∀ fault, intruder ≠ some (.error fault)) :
    ∃ value, reading entry intruder = .ok value := by
  cases intruder with
  | none => exact ⟨entry, rfl⟩
  | some found =>
      cases found with
      | error fault => exact absurd rfl (sound fault)
      | ok value => exact ⟨value, rfl⟩

theorem reading_same {α : Type} (entry : α) (left right : Option (Except Fault α)) :
    (∃ value, reading entry left = .ok value ∧ reading entry right = .ok value) ↔
      Undisturbed entry left right := by
  constructor
  · rintro ⟨value, leftRead, rightRead⟩
    rcases reading_ok.mp leftRead with rfl | ⟨rfl, rfl⟩ <;>
      rcases reading_ok.mp rightRead with rfl | ⟨rfl, same⟩ <;> simp_all [Undisturbed]
  · rintro ⟨sound, agree⟩
    obtain ⟨value, leftRead⟩ := reading_sound entry fun fault => (sound fault).1
    obtain ⟨other, rightRead⟩ := reading_sound entry fun fault => (sound fault).2
    refine ⟨value, leftRead, ?_⟩
    rcases agree with same | plain
    · rw [← same, leftRead]
    · have first : value = entry := by
        rcases reading_ok.mp leftRead with found | ⟨_, same⟩
        · exact plain value (Or.inl found)
        · exact same.symm
      have second : other = entry := by
        rcases reading_ok.mp rightRead with found | ⟨_, same⟩
        · exact plain other (Or.inr found)
        · exact same.symm
      rw [rightRead, first, second]

theorem mGetStringFrom_eq (key : String) (kvs : List (Object × Object)) :
    mGetStringFrom kvs key = firstText (textsFrom key kvs) := by
  induction kvs using entries_induction with
  | nil => rfl
  | entry name value rest below ih =>
      rw [mGetStringFrom, textsFrom]
      cases keyMatches key name with
      | error fault => rfl
      | ok same =>
          cases value with
          | raw text =>
              cases same with
              | true => rfl
              | false => exact ih
          | map inner =>
              have nested : mGetString (.map inner) key = firstText (textsFrom key inner) :=
                below inner rfl
              simp only [bind, Except.bind, texts, nested]
              cases textsFrom key inner with
              | nil => exact ih
              | cons first others => cases first <;> rfl
          | _ => exact ih

section

variable {key : String} {kvs : List (Object × Object)}

theorem direct_cons {α : Type} (value? : Object → Option α) (entry : Object × Object) :
    direct value? key (entry :: kvs) =
      if isDirect value? key entry = true then value? entry.2 else direct value? key kvs := by
  by_cases here : isDirect value? key entry = true
  · simp [direct, here]
  · simp [direct, here]

theorem ahead_cons {α : Type} (value? : Object → Option α) (entry : Object × Object) :
    ahead value? key (entry :: kvs) =
      if isDirect value? key entry = true then [] else entry :: ahead value? key kvs := by
  by_cases here : isDirect value? key entry = true
  · simp [ahead, here]
  · simp [ahead, here]

/-- An entry that is not a direct one of the type is passed, misread or searched. -/
theorem not_isDirect {α : Type} {value? : Object → Option α} {name value : Object} {same : Bool}
    (tested : keyMatches key name = .ok same) (other : ¬ isDirect value? key (name, value) = true)
    (typed : (value? value).isSome = true) : same = false := by
  cases same with
  | false => rfl
  | true =>
      obtain rfl := keyMatches_true.mp tested
      simp [isDirect, typed] at other

theorem isDirect_matches {α : Type} {value? : Object → Option α} {name value : Object}
    (here : isDirect value? key (name, value) = true) :
    keyMatches key name = .ok true ∧ (value? value).isSome = true := by
  cases name with
  | raw bytes => simpa [isDirect, keyMatches] using here
  | _ => cases here

theorem textsFrom_reading (key : String) (kvs : List (Object × Object)) :
    firstText (textsFrom key kvs) = reading (direct Object.string? key kvs) (intruder key kvs) := by
  induction kvs with
  | nil => rfl
  | cons entry rest ih =>
      obtain ⟨name, value⟩ := entry
      simp only [intruder, ahead_cons, direct_cons] at ih ⊢
      by_cases here : isDirect Object.string? key (name, value) = true
      · obtain ⟨tested, typed⟩ := isDirect_matches here
        cases value with
        | raw text => simp [here, textsFrom, tested, Object.string?, firstText, reading]
        | _ => cases typed
      · rw [if_neg here, if_neg here, textsFrom, textsFrom]
        cases tested : keyMatches key name with
        | error fault => rfl
        | ok same =>
            cases value with
            | raw text =>
                obtain rfl := not_isDirect tested here rfl
                exact ih
            | map inner =>
                simp only [texts]
                cases textsFrom key inner with
                | nil => exact ih
                | cons first others => cases first <;> rfl
            | _ => exact ih

theorem mGetString_reading (key : String) (kvs : List (Object × Object)) :
    mGetString (.map kvs) key = reading (direct Object.string? key kvs) (intruder key kvs) := by
  rw [← textsFrom_reading, ← mGetStringFrom_eq]
  rfl

theorem mGetIntFrom_reading (key : String) (kvs : List (Object × Object)) :
    mGetIntFrom kvs key = reading ((direct Object.integer? key kvs).getD 0) (intIntruder key kvs) := by
  induction kvs with
  | nil => rfl
  | cons entry rest ih =>
      obtain ⟨name, value⟩ := entry
      simp only [intIntruder, ahead_cons, direct_cons] at ih ⊢
      by_cases here : isDirect Object.integer? key (name, value) = true
      · obtain ⟨tested, typed⟩ := isDirect_matches here
        cases value with
        | positiveInteger u64 =>
            simp [here, mGetIntFrom, tested, Object.integer?, reading, bind, Except.bind, pure,
              Except.pure]
        | negativeInteger i64 =>
            simp [here, mGetIntFrom, tested, Object.integer?, reading, bind, Except.bind, pure,
              Except.pure]
        | _ => cases typed
      · rw [if_neg here, if_neg here, mGetIntFrom, mGetIntFrom]
        cases tested : keyMatches key name with
        | error fault => rfl
        | ok same =>
            cases value with
            | positiveInteger u64 =>
                obtain rfl := not_isDirect tested here rfl
                exact ih
            | negativeInteger i64 =>
                obtain rfl := not_isDirect tested here rfl
                exact ih
            | map inner =>
                simp only [bind, Except.bind]
                cases mGetInt (.map inner) key with
                | error fault => rfl
                | ok value => exact ih
            | _ => exact ih

theorem mFindEntry_bodyFirst (first : bodyFirst kvs = true) :
    mFindEntry "body" kvs = .ok (directEntry "body" kvs) := by
  induction kvs with
  | nil => rfl
  | cons entry rest ih =>
      obtain ⟨name, value⟩ := entry
      cases name with
      | raw bytes =>
          by_cases same : bytes = "body"
          · subst same
            rfl
          · simp only [bodyFirst, same, if_false] at first
            simp only [mFindEntry, directEntry, same, if_false]
            split at first
            · rename_i different
              rw [different]
              exact ih first
            · cases first
      | _ => cases first

theorem searchBody_reading {α : Type} {inside : List (Object × Object) → Option (Except Fault α)}
    {search : List (Object × Object) → Except Fault α} (entry : List (Object × Object) → α)
    (searched : ∀ inner, search inner = reading (entry inner) (inside inner)) :
    searchBody search (entry []) kvs =
      reading (entry (bodyEntries kvs)) (bodyIntruder inside search (entry []) kvs) := by
  unfold bodyIntruder
  by_cases first : bodyFirst kvs = true
  · rw [if_pos first]
    unfold searchBody bodyEntries
    rw [mFindEntry_bodyFirst first]
    cases directEntry "body" kvs with
    | none => rfl
    | some body =>
        cases body with
        | map inner => exact searched inner
        | _ => rfl
  · rw [if_neg first]
    rfl

theorem bodyString_reading {message : Message} (isMap : message.object = .map kvs) (key : String) :
    bodyString message key =
      reading (direct Object.string? key (bodyEntries kvs)) (bodyTextIntruder key kvs) := by
  have searched : bodyString message key =
      searchBody (fun inner => firstText (textsFrom key inner)) none kvs := by
    simp only [bodyString, isMap, mFindMap, searchBody]
    cases mFindEntry "body" kvs with
    | error fault => rfl
    | ok found? =>
        cases found? with
        | none => rfl
        | some found =>
            cases found with
            | map inner => exact mGetStringFrom_eq key inner
            | _ => rfl
  rw [searched]
  exact searchBody_reading (direct Object.string? key) (textsFrom_reading key)

theorem bodyInt_reading {message : Message} (isMap : message.object = .map kvs) (key : String) :
    bodyInt message key =
      reading ((direct Object.integer? key (bodyEntries kvs)).getD 0) (bodyIntIntruder key kvs) := by
  have searched : bodyInt message key = searchBody (fun inner => mGetIntFrom inner key) 0 kvs := by
    simp only [bodyInt, isMap, mFindMap, searchBody]
    cases mFindEntry "body" kvs with
    | error fault => rfl
    | ok found? =>
        cases found? with
        | none => rfl
        | some found => cases found <;> rfl
  rw [searched]
  exact searchBody_reading (fun kvs => (direct Object.integer? key kvs).getD 0)
    (mGetIntFrom_reading key)

end

/-! Two messages that differ in user data. -/

inductive Reordered : Object → Object → Prop
  | refl (o) : Reordered o o
  | trans {first second third} : Reordered first second → Reordered second third →
      Reordered first third
  | order {kvs kvs'} : kvs.Perm kvs' → Reordered (.map kvs) (.map kvs')
  | value {before key old new after} : Reordered old new →
      Reordered (.map (before ++ (key, old) :: after)) (.map (before ++ (key, new) :: after))
  | item {before old new after} : Reordered old new →
      Reordered (.array (before ++ old :: after)) (.array (before ++ new :: after))

inductive Varied : Object → Object → Prop
  | reordered {old new} : Reordered old new → Varied old new
  | parameters {before after inside later} (old new : Object) :
      Varied
        (.map (before ++ (.raw "body", .map (inside ++ (.raw "parameters", old) :: later)) :: after))
        (.map (before ++ (.raw "body", .map (inside ++ (.raw "parameters", new) :: later)) :: after))
  | trans {first second third} : Varied first second → Varied second third → Varied first third

structure Alike (a b : List (Object × Object)) : Prop where
  command : direct Object.string? "command" b = direct Object.string? "command" a
  actionid : direct Object.string? "actionid" b = direct Object.string? "actionid" a
  module : direct Object.string? "module" (bodyEntries b) =
    direct Object.string? "module" (bodyEntries a)
  function : direct Object.string? "function" (bodyEntries b) =
    direct Object.string? "function" (bodyEntries a)
  version : direct Object.integer? "version" (bodyEntries b) =
    direct Object.integer? "version" (bodyEntries a)

structure Routing where
  command : Option String
  actionid : Option String
  module : Option String
  function : Option String
  version : UInt64

structure Looked (kvs : List (Object × Object)) (routing : Routing) : Prop where
  command : mGetString (.map kvs) "command" = .ok routing.command
  actionid : mGetString (.map kvs) "actionid" = .ok routing.actionid
  call : ∀ message : Message, message.object = .map kvs →
    messageGetModule message = .ok routing.module ∧
      messageGetFunc message = .ok routing.function ∧
      messageGetIfVersion message = .ok routing.version

structure Unmoved (a b : List (Object × Object)) : Prop where
  command : Undisturbed (direct Object.string? "command" a) (intruder "command" a)
    (intruder "command" b)
  actionid : Undisturbed (direct Object.string? "actionid" a) (intruder "actionid" a)
    (intruder "actionid" b)
  module : Undisturbed (direct Object.string? "module" (bodyEntries a))
    (bodyTextIntruder "module" a) (bodyTextIntruder "module" b)
  function : Undisturbed (direct Object.string? "function" (bodyEntries a))
    (bodyTextIntruder "function" a) (bodyTextIntruder "function" b)
  version : Undisturbed ((direct Object.integer? "version" (bodyEntries a)).getD 0)
    (bodyIntIntruder "version" a) (bodyIntIntruder "version" b)

def fromzmqFields (identityFrame : Frame) (data : List UInt8) (isLocal : Bool) (addr : Addr)
    (now : UInt64) (kvs : List (Object × Object)) : Except Fault (Option (String × String)) :=
  (messageFromzmq [identityFrame, ⟨data, some (.map kvs)⟩] isLocal addr now).map
    (Option.map fun message => (message.command, message.actionid))

def callFields (message : Message) (kvs : List (Object × Object)) :
    Except Fault (Option String × Option String × UInt64) :=
  (readCall { message with object := .map kvs }).map fun call =>
    (call.module, call.function, call.version)

section

variable {a b kvs : List (Object × Object)} {routing : Routing}

theorem Looked.fromzmqFields (looked : Looked kvs routing) (identityFrame : Frame)
    (data : List UInt8) (isLocal : Bool) (addr : Addr) (now : UInt64) :
    fromzmqFields identityFrame data isLocal addr now kvs =
      if data.isEmpty then .ok none
      else match routing.command with
        | none => .ok none
        | some command =>
            if command ∈
              ["introduce", "ping", "pong", "stop", "call", "request", "exception", "result"]
            then .ok (routing.actionid.bind fun actionid =>
              if actionid.length < 5 then none else some (command, actionid))
            else (logAsFormat command).map fun _ => none := by
  unfold ModBus.fromzmqFields messageFromzmq
  by_cases empty : data.isEmpty = true
  · simp [empty, Except.map]
  · simp only [empty, messageCheckCommand, messageCheckActionid, looked.command, looked.actionid]
    cases routing.command with
    | none => rfl
    | some command =>
        by_cases known : command ∈
            ["introduce", "ping", "pong", "stop", "call", "request", "exception", "result"]
        · cases routing.actionid with
          | none => simp [known, -List.mem_cons, bind, Except.bind, pure, Except.pure, Except.map]
          | some actionid =>
              by_cases short : actionid.length < 5 <;>
                simp [known, short, -List.mem_cons, bind, Except.bind, pure, Except.pure,
                  Except.map, messageNew]
        · cases refused : logAsFormat command <;>
            simp [known, refused, -List.mem_cons, bind, Except.bind, pure, Except.pure, Except.map]

theorem Looked.callFields (looked : Looked kvs routing) (message : Message) :
    callFields message kvs = .ok (routing.module, routing.function, routing.version) := by
  obtain ⟨module, function, version⟩ := looked.call { message with object := .map kvs } rfl
  simp [ModBus.callFields, readCall, module, function, version, bind, Except.bind, pure,
    Except.pure, Except.map]

theorem looked_iff :
    Looked kvs routing ↔
      reading (direct Object.string? "command" kvs) (intruder "command" kvs) = .ok routing.command ∧
      reading (direct Object.string? "actionid" kvs) (intruder "actionid" kvs) =
        .ok routing.actionid ∧
      reading (direct Object.string? "module" (bodyEntries kvs)) (bodyTextIntruder "module" kvs) =
        .ok routing.module ∧
      reading (direct Object.string? "function" (bodyEntries kvs))
        (bodyTextIntruder "function" kvs) = .ok routing.function ∧
      reading ((direct Object.integer? "version" (bodyEntries kvs)).getD 0)
        (bodyIntIntruder "version" kvs) = .ok routing.version := by
  have top := fun key => mGetString_reading key kvs
  constructor
  · rintro ⟨command, actionid, call⟩
    obtain ⟨module, function, version⟩ :=
      call (messageNew 0 0 true "" (.map kvs) "" "") rfl
    refine ⟨top _ ▸ command, top _ ▸ actionid, ?_, ?_, ?_⟩
    · rw [← module, messageGetModule, bodyString_reading rfl]
    · rw [← function, messageGetFunc, bodyString_reading rfl]
    · rw [← version, messageGetIfVersion, bodyInt_reading rfl]
  · rintro ⟨command, actionid, module, function, version⟩
    refine ⟨top _ ▸ command, top _ ▸ actionid, fun message isMap => ⟨?_, ?_, ?_⟩⟩
    · rw [messageGetModule, bodyString_reading isMap, module]
    · rw [messageGetFunc, bodyString_reading isMap, function]
    · rw [messageGetIfVersion, bodyInt_reading isMap, version]

theorem unmoved_iff (alike : Alike a b) :
    (∃ routing, Looked a routing ∧ Looked b routing) ↔ Unmoved a b := by
  simp only [looked_iff, alike.command, alike.actionid, alike.module, alike.function, alike.version]
  constructor
  · rintro ⟨routing, ⟨command, actionid, module, function, version⟩, command', actionid', module',
      function', version'⟩
    exact ⟨(reading_same _ _ _).mp ⟨_, command, command'⟩,
      (reading_same _ _ _).mp ⟨_, actionid, actionid'⟩,
      (reading_same _ _ _).mp ⟨_, module, module'⟩,
      (reading_same _ _ _).mp ⟨_, function, function'⟩,
      (reading_same _ _ _).mp ⟨_, version, version'⟩⟩
  · intro unmoved
    obtain ⟨command, first⟩ := (reading_same _ _ _).mpr unmoved.command
    obtain ⟨actionid, second⟩ := (reading_same _ _ _).mpr unmoved.actionid
    obtain ⟨module, third⟩ := (reading_same _ _ _).mpr unmoved.module
    obtain ⟨function, fourth⟩ := (reading_same _ _ _).mpr unmoved.function
    obtain ⟨version, fifth⟩ := (reading_same _ _ _).mpr unmoved.version
    exact ⟨⟨command, actionid, module, function, version⟩,
      ⟨first.1, second.1, third.1, fourth.1, fifth.1⟩,
      ⟨first.2, second.2, third.2, fourth.2, fifth.2⟩⟩

/-- Two messages that agree on the routing entries are looked up alike exactly
when no lookup is disturbed, and then they are accepted and read alike. -/
theorem routing_same (alike : Alike a b) :
    ((∃ routing, Looked a routing ∧ Looked b routing) ↔ Unmoved a b) ∧
      (Unmoved a b →
        (∀ identityFrame data isLocal addr now,
          fromzmqFields identityFrame data isLocal addr now a =
            fromzmqFields identityFrame data isLocal addr now b) ∧
        ∀ message, callFields message a = callFields message b) := by
  refine ⟨unmoved_iff alike, fun unmoved => ?_⟩
  obtain ⟨routing, left, right⟩ := (unmoved_iff alike).mpr unmoved
  constructor
  · intro identityFrame data isLocal addr now
    rw [left.fromzmqFields, right.fromzmqFields]
  · intro message
    rw [left.callFields, right.callFields]

end

def callWith (parameters : List (Object × Object)) : List (Object × Object) := [
  (.raw "command", .raw "call"),
  (.raw "body", .map [(.raw "parameters", .map parameters), (.raw "module", .raw "mod"),
    (.raw "function", .raw "f"), (.raw "version", .positiveInteger 1)]),
  (.raw "actionid", .raw "call-1")]

theorem callWith_varied (old new : List (Object × Object)) :
    Varied (.map (callWith old)) (.map (callWith new)) := by
  have one := @Varied.parameters [(.raw "command", .raw "call")]
    [(.raw "actionid", .raw "call-1")] []
    [(.raw "module", .raw "mod"), (.raw "function", .raw "f"),
      (.raw "version", .positiveInteger 1)] (.map old) (.map new)
  exact one

theorem callWith_alike (old new : List (Object × Object)) : Alike (callWith old) (callWith new) :=
  ⟨rfl, rfl, rfl, rfl, rfl⟩

theorem routing_same_parameters :
    let a := callWith []
    let b := callWith [(.raw "x", .positiveInteger 1)]
    ((∃ routing, Looked a routing ∧ Looked b routing) ↔ Unmoved a b) ∧
      (Unmoved a b →
        (∀ identityFrame data isLocal addr now,
          fromzmqFields identityFrame data isLocal addr now a =
            fromzmqFields identityFrame data isLocal addr now b) ∧
        ∀ message, callFields message a = callFields message b) :=
  routing_same (callWith_alike [] [(.raw "x", .positiveInteger 1)])

/-- A parameter called `module` is taken for the module that is called. -/
theorem routing_moved :
    ¬ ∀ a b, Varied (.map a) (.map b) → Alike a b →
      (∀ identityFrame data isLocal addr now,
        fromzmqFields identityFrame data isLocal addr now a =
          fromzmqFields identityFrame data isLocal addr now b) ∧
      ∀ message, callFields message a = callFields message b := by
  intro always
  have same := (always _ _ (callWith_varied [] [(.raw "module", .raw "other")])
    (callWith_alike [] [(.raw "module", .raw "other")])).2 (messageNew 0 0 true "" (.map []) "" "")
  have mod : callFields (messageNew 0 0 true "" (.map []) "" "") (callWith []) =
      .ok (some "mod", some "f", 1) := by rfl
  have other : callFields (messageNew 0 0 true "" (.map []) "" "")
      (callWith [(.raw "module", .raw "other")]) = .ok (some "other", some "f", 1) := by rfl
  rw [mod, other] at same
  exact absurd same (by decide)

end ModBus
