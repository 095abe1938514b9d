import ModBus.Lookup

/-! What `message_fromzmq` accepts, against what the message's own entries say
and what `processCommand` has a branch for. -/

namespace ModBus

open Libc Czmq

inductive Branch
  | request
  | result
  | call
  | exception
  | introduce
  | ping
  | pong
  | message
  | stop
  deriving DecidableEq

def branch (command : String) : Option Branch :=
  if command = "request" then some .request
  else if command = "result" then some .result
  else if command = "call" then some .call
  else if command = "exception" then some .exception
  else if command = "introduce" then some .introduce
  else if command = "ping" then some .ping
  else if command = "pong" then some .pong
  else if command = "message" then some .message
  else if command = "stop" then some .stop
  else none

def Branch.run (conf : Config) (env : Env) (message : Message) (answer : String) (p : Proxy) :
    Branch → Except Fault Proxy
  | .request => processRequest env message p
  | .result => processResult env message p
  | .call => processCall env message p
  | .exception => processException env message p
  | .introduce => processIntroduce conf env message answer p
  | .ping => .ok p
  | .pong => .ok p
  | .message => processMessage message p
  | .stop => processStop message p

/-- The validator's list and the dispatcher's chain differ in one command. -/
theorem validated_iff (command : String) :
    command ∈ ["introduce", "ping", "pong", "stop", "call", "request", "exception", "result"] ↔
      (branch command).isSome = true ∧ command ≠ "message" := by
  simp only [List.mem_cons, List.not_mem_nil, or_false]
  constructor
  · rintro (rfl | rfl | rfl | rfl | rfl | rfl | rfl | rfl) <;> exact ⟨rfl, by decide⟩
  · rintro ⟨dispatched, other⟩
    by_contra unlisted
    simp only [not_or] at unlisted
    obtain ⟨introduce, ping, pong, stop, call, request, exception, result⟩ := unlisted
    simp only [branch, introduce, ping, pong, stop, call, request, exception, result, other,
      if_false, Option.isSome_none, Bool.false_eq_true] at dispatched

structure OwnFields (kvs : List (Object × Object)) (command actionid : String) : Prop where
  ownCommand : direct Object.string? "command" kvs = some command
  dispatched : (branch command).isSome = true
  ownActionid : direct Object.string? "actionid" kvs = some actionid
  long : 5 ≤ actionid.length

def Grammatical (zmsg : List Frame) (command actionid : String) : Prop :=
  ∃ identityFrame data kvs, zmsg = [identityFrame, ⟨data, some (.map kvs)⟩] ∧ data ≠ [] ∧
    OwnFields kvs command actionid

def ByGrammar (zmsg : List Frame) (isLocal : Bool) (addr : Addr) (now : UInt64) : Prop :=
  ∃ result, messageFromzmq zmsg isLocal addr now = .ok result ∧
    ((∃ message, result = some message) ↔ ∃ command actionid, Grammatical zmsg command actionid) ∧
    ∀ message command actionid, result = some message → Grammatical zmsg command actionid →
      message.command = command ∧ message.actionid = actionid

def OwnFirst (key : String) (kvs : List (Object × Object)) : Prop :=
  ∀ found, intruder key kvs = some found → found = .ok (direct Object.string? key kvs)

/-- The search misreads no key: of those that are no strings, none that it comes to has
a union that reads as the length sought. -/
def Readable (key : String) (kvs : List (Object × Object)) : Prop :=
  ∀ fault, intruder key kvs ≠ some (.error fault)

def Foremost (key : String) (kvs : List (Object × Object)) (text : String) : Prop :=
  intruder key kvs = some (.ok (some text)) ∨
    intruder key kvs = none ∧ direct Object.string? key kvs = some text

def Loggable (command : String) : Prop :=
  ∃ text, vsprintf command.toList = .ok text ∧ text.length < 896

/-- Strings further inside stand for the message's own ones neither where these
make a message nor where they do not, and what is no command can be logged. -/
structure Unambiguous (kvs : List (Object × Object)) : Prop where
  own : ∀ command actionid, OwnFields kvs command actionid →
    command ≠ "message" ∧ OwnFirst "command" kvs ∧ OwnFirst "actionid" kvs
  other : (∀ command actionid, ¬ OwnFields kvs command actionid) →
    Readable "command" kvs ∧ ∀ command, Foremost "command" kvs command →
      if (branch command).isSome = true ∧ command ≠ "message" then
        Readable "actionid" kvs ∧ ∀ actionid, Foremost "actionid" kvs actionid →
          actionid.length < 5
      else Loggable command

section

variable {kvs : List (Object × Object)} {command actionid key text : String}
  {identityFrame : Frame} {data : List UInt8} {isLocal : Bool} {addr : Addr} {now : UInt64}

theorem ownFirst_iff :
    OwnFirst key kvs ↔ mGetString (.map kvs) key = .ok (direct Object.string? key kvs) := by
  rw [mGetString_reading, reading_ok]
  cases found : intruder key kvs with
  | none => simp [OwnFirst, found]
  | some other => simp [OwnFirst, found]

theorem readable_iff : Readable key kvs ↔ ∃ found, mGetString (.map kvs) key = .ok found := by
  rw [mGetString_reading]
  constructor
  · exact reading_sound _
  · rintro ⟨found, read⟩ fault misread
    rw [misread] at read
    cases read

theorem foremost_iff : Foremost key kvs text ↔ mGetString (.map kvs) key = .ok (some text) := by
  rw [mGetString_reading, reading_ok]
  rfl

theorem logAsFormat_ok :
    (∃ logged, logAsFormat command = .ok logged) ↔ Loggable command := by
  simp only [logAsFormat, bind_ok, logPrint, sprintfTo_ok, String.length_ofList, Loggable]
  constructor
  · rintro ⟨_, text, printed, fits, _⟩
    exact ⟨text, printed, fits⟩
  · rintro ⟨text, printed, fits⟩
    exact ⟨_, text, printed, fits, rfl⟩

theorem messageCheckCommand_some :
    messageCheckCommand (.map kvs) = .ok (some command) ↔
      mGetString (.map kvs) "command" = .ok (some command) ∧ (branch command).isSome = true ∧
        command ≠ "message" := by
  unfold messageCheckCommand
  rw [← validated_iff, bind_ok]
  constructor
  · rintro ⟨found?, read, checked⟩
    cases found? with
    | none => cases checked
    | some found =>
        simp only [] at checked
        split at checked
        · rename_i listed
          cases checked
          exact ⟨read, listed⟩
        · obtain ⟨_, _, ended⟩ := bind_ok.mp checked
          cases ended
  · rintro ⟨read, listed⟩
    exact ⟨some command, read, if_pos listed⟩

theorem messageCheckCommand_none :
    messageCheckCommand (.map kvs) = .ok none ↔
      Readable "command" kvs ∧ ∀ command, Foremost "command" kvs command →
        ¬ ((branch command).isSome = true ∧ command ≠ "message") ∧ Loggable command := by
  simp only [readable_iff, foremost_iff, ← validated_iff, ← logAsFormat_ok]
  unfold messageCheckCommand
  rw [bind_ok]
  constructor
  · rintro ⟨found?, read, checked⟩
    refine ⟨⟨found?, read⟩, fun command foremost => ?_⟩
    rw [read] at foremost
    cases foremost
    simp only [] at checked
    split at checked
    · cases checked
    · rename_i unlisted
      obtain ⟨logged, log, _⟩ := bind_ok.mp checked
      exact ⟨unlisted, logged, log⟩
  · rintro ⟨⟨found?, read⟩, refused⟩
    refine ⟨found?, read, ?_⟩
    cases found? with
    | none => rfl
    | some command =>
        obtain ⟨unlisted, logged, log⟩ := refused command read
        simp only [if_neg unlisted]
        exact bind_ok.mpr ⟨logged, log, rfl⟩

theorem messageCheckActionid_some :
    messageCheckActionid (.map kvs) = .ok (some actionid) ↔
      mGetString (.map kvs) "actionid" = .ok (some actionid) ∧ 5 ≤ actionid.length := by
  unfold messageCheckActionid
  rw [bind_ok]
  constructor
  · rintro ⟨found?, read, checked⟩
    cases found? with
    | none => cases checked
    | some found =>
        simp only [] at checked
        split at checked
        · cases checked
        · rename_i long
          cases checked
          exact ⟨read, Nat.not_lt.mp long⟩
  · rintro ⟨read, long⟩
    exact ⟨some actionid, read, if_neg (Nat.not_lt.mpr long)⟩

theorem messageCheckActionid_none :
    messageCheckActionid (.map kvs) = .ok none ↔
      Readable "actionid" kvs ∧ ∀ actionid, Foremost "actionid" kvs actionid →
        actionid.length < 5 := by
  simp only [readable_iff, foremost_iff]
  unfold messageCheckActionid
  rw [bind_ok]
  constructor
  · rintro ⟨found?, read, checked⟩
    refine ⟨⟨found?, read⟩, fun actionid foremost => ?_⟩
    rw [read] at foremost
    cases foremost
    by_contra long
    simp only [if_neg long] at checked
    cases checked
  · rintro ⟨⟨found?, read⟩, short⟩
    refine ⟨found?, read, ?_⟩
    cases found? with
    | none => rfl
    | some actionid => exact if_pos (short actionid read)

theorem messageFromzmq_ok (nonempty : data ≠ []) {result : Option Message} :
    messageFromzmq [identityFrame, ⟨data, some (.map kvs)⟩] isLocal addr now = .ok result ↔
      messageCheckCommand (.map kvs) = .ok none ∧ result = none ∨
      ∃ command, messageCheckCommand (.map kvs) = .ok (some command) ∧
        (messageCheckActionid (.map kvs) = .ok none ∧ result = none ∨
          ∃ actionid, messageCheckActionid (.map kvs) = .ok (some actionid) ∧
            result = some (messageNew addr now isLocal (frameIdentity identityFrame isLocal)
              (.map kvs) command actionid)) := by
  have full : data.isEmpty = false := by simpa using nonempty
  simp only [messageFromzmq, full, Bool.false_eq_true, if_false]
  cases messageCheckCommand (.map kvs) with
  | error fault => simp [bind, Except.bind]
  | ok command? =>
      cases command? with
      | none => simp [bind, Except.bind, pure, Except.pure, eq_comm]
      | some command =>
          cases messageCheckActionid (.map kvs) with
          | error fault => simp [bind, Except.bind]
          | ok actionid? =>
              cases actionid? <;> simp [bind, Except.bind, pure, Except.pure, eq_comm]

theorem messageFromzmq_rejects (nonempty : data ≠ []) :
    messageFromzmq [identityFrame, ⟨data, some (.map kvs)⟩] isLocal addr now = .ok none ↔
      Readable "command" kvs ∧ ∀ command, Foremost "command" kvs command →
        if (branch command).isSome = true ∧ command ≠ "message" then
          Readable "actionid" kvs ∧ ∀ actionid, Foremost "actionid" kvs actionid →
            actionid.length < 5
        else Loggable command := by
  rw [messageFromzmq_ok nonempty, messageCheckCommand_none, ← messageCheckActionid_none]
  constructor
  · rintro (⟨⟨readable, refused⟩, _⟩ | ⟨command, checked, outcome⟩)
    · refine ⟨readable, fun command foremost => ?_⟩
      obtain ⟨unlisted, loggable⟩ := refused command foremost
      rwa [if_neg unlisted]
    · obtain ⟨read, listed⟩ := messageCheckCommand_some.mp checked
      refine ⟨readable_iff.mpr ⟨_, read⟩, fun command' foremost => ?_⟩
      obtain rfl := Option.some.inj (Except.ok.inj (read.symm.trans (foremost_iff.mp foremost)))
      rw [if_pos listed]
      rcases outcome with ⟨refused, _⟩ | ⟨actionid, _, none'⟩
      · exact refused
      · cases none'
  · rintro ⟨readable, later⟩
    by_cases refused : ∀ command, Foremost "command" kvs command →
        ¬ ((branch command).isSome = true ∧ command ≠ "message")
    · refine Or.inl ⟨⟨readable, fun command foremost => ⟨refused command foremost, ?_⟩⟩, rfl⟩
      have loggable := later command foremost
      rwa [if_neg (refused command foremost)] at loggable
    · simp only [not_forall, not_not] at refused
      obtain ⟨command, foremost, listed⟩ := refused
      have checked := messageCheckCommand_some.mpr ⟨foremost_iff.mp foremost, listed⟩
      have short := later command foremost
      rw [if_pos listed] at short
      exact Or.inr ⟨command, checked, Or.inl ⟨short, rfl⟩⟩

theorem messageFromzmq_accepts (nonempty : data ≠ []) :
    (∃ message, messageFromzmq [identityFrame, ⟨data, some (.map kvs)⟩] isLocal addr now =
        .ok (some message) ∧ message.command = command ∧ message.actionid = actionid) ↔
      (mGetString (.map kvs) "command" = .ok (some command) ∧
        (branch command).isSome = true ∧ command ≠ "message") ∧
      mGetString (.map kvs) "actionid" = .ok (some actionid) ∧ 5 ≤ actionid.length := by
  simp only [messageFromzmq_ok nonempty, ← messageCheckCommand_some, ← messageCheckActionid_some]
  constructor
  · rintro ⟨message, (⟨_, none'⟩ | ⟨command', checked, (⟨_, none'⟩ | ⟨actionid', long, same⟩)⟩),
      rfl, rfl⟩
    · cases none'
    · cases none'
    · cases same
      exact ⟨checked, long⟩
  · rintro ⟨checked, long⟩
    exact ⟨_, Or.inr ⟨command, checked, Or.inr ⟨actionid, long, rfl⟩⟩, rfl, rfl⟩

theorem OwnFields.unique {command' actionid' : String} (fields : OwnFields kvs command actionid)
    (others : OwnFields kvs command' actionid') : command' = command ∧ actionid' = actionid := by
  have sameCommand := others.ownCommand.symm.trans fields.ownCommand
  have sameActionid := others.ownActionid.symm.trans fields.ownActionid
  exact ⟨Option.some.inj sameCommand, Option.some.inj sameActionid⟩

theorem grammatical_map (nonempty : data ≠ []) :
    Grammatical [identityFrame, ⟨data, some (.map kvs)⟩] command actionid ↔
      OwnFields kvs command actionid := by
  constructor
  · rintro ⟨_, _, _, same, _, fields⟩
    cases same
    exact fields
  · exact fun fields => ⟨_, _, _, rfl, nonempty, fields⟩

/-- The message's own entries make a message: it is the one that is read. -/
theorem byGrammar_own (nonempty : data ≠ []) (fields : OwnFields kvs command actionid) :
    ByGrammar [identityFrame, ⟨data, some (.map kvs)⟩] isLocal addr now ↔
      command ≠ "message" ∧ OwnFirst "command" kvs ∧ OwnFirst "actionid" kvs := by
  have accepted : ByGrammar [identityFrame, ⟨data, some (.map kvs)⟩] isLocal addr now ↔
      ∃ message, messageFromzmq [identityFrame, ⟨data, some (.map kvs)⟩] isLocal addr now =
        .ok (some message) ∧ message.command = command ∧ message.actionid = actionid := by
    simp only [ByGrammar, grammatical_map nonempty]
    constructor
    · rintro ⟨result, returned, exactly, same⟩
      obtain ⟨message, rfl⟩ := exactly.mpr ⟨command, actionid, fields⟩
      exact ⟨message, returned, same message command actionid rfl fields⟩
    · rintro ⟨message, returned, rfl, rfl⟩
      refine ⟨some message, returned, ⟨fun _ => ⟨_, _, fields⟩, fun _ => ⟨message, rfl⟩⟩, ?_⟩
      rintro _ command' actionid' ⟨⟩ others
      obtain ⟨rfl, rfl⟩ := fields.unique others
      exact ⟨rfl, rfl⟩
  rw [accepted, messageFromzmq_accepts nonempty, ownFirst_iff, ownFirst_iff, fields.ownCommand,
    fields.ownActionid]
  have dispatched := fields.dispatched
  have long := fields.long
  tauto

/-- They do not: nothing is read. -/
theorem byGrammar_other (nonempty : data ≠ [])
    (none' : ∀ command actionid, ¬ OwnFields kvs command actionid) :
    ByGrammar [identityFrame, ⟨data, some (.map kvs)⟩] isLocal addr now ↔
      messageFromzmq [identityFrame, ⟨data, some (.map kvs)⟩] isLocal addr now = .ok none := by
  simp only [ByGrammar, grammatical_map nonempty]
  constructor
  · rintro ⟨result, returned, exactly, _⟩
    cases result with
    | none => exact returned
    | some message =>
        obtain ⟨command, actionid, fields⟩ := exactly.mp ⟨message, rfl⟩
        exact absurd fields (none' command actionid)
  · intro returned
    refine ⟨none, returned, ⟨?_, ?_⟩, ?_⟩
    · rintro ⟨_, ⟨⟩⟩
    · rintro ⟨command, actionid, fields⟩
      exact absurd fields (none' command actionid)
    · rintro _ _ _ ⟨⟩

theorem byGrammar_map (nonempty : data ≠ []) :
    ByGrammar [identityFrame, ⟨data, some (.map kvs)⟩] isLocal addr now ↔ Unambiguous kvs := by
  by_cases some' : ∃ command actionid, OwnFields kvs command actionid
  · obtain ⟨command, actionid, fields⟩ := some'
    rw [byGrammar_own nonempty fields]
    constructor
    · intro read
      refine ⟨fun command' actionid' others => ?_, fun none' => absurd fields (none' _ _)⟩
      obtain ⟨rfl, rfl⟩ := fields.unique others
      exact read
    · exact fun unambiguous => unambiguous.own command actionid fields
  · have none' : ∀ command actionid, ¬ OwnFields kvs command actionid := by
      intro command actionid fields
      exact some' ⟨command, actionid, fields⟩
    rw [byGrammar_other nonempty none', messageFromzmq_rejects nonempty]
    constructor
    · exact fun read => ⟨fun _ _ fields => absurd fields (none' _ _), fun _ => read⟩
    · exact fun unambiguous => unambiguous.other none'

/-- Anything but two frames with a map in the second is turned down. -/
theorem byGrammar_elsewhere {zmsg : List Frame}
    (other : ∀ identityFrame data kvs, zmsg = [identityFrame, ⟨data, some (.map kvs)⟩] →
      data = []) : ByGrammar zmsg isLocal addr now := by
  have ungrammatical : ∀ command actionid, ¬ Grammatical zmsg command actionid := by
    rintro command actionid ⟨identityFrame, data, kvs, same, nonempty, _⟩
    exact nonempty (other identityFrame data kvs same)
  have rejected : messageFromzmq zmsg isLocal addr now = .ok none := by
    unfold messageFromzmq
    split
    · rename_i identityFrame payloadFrame
      split
      · rfl
      · rename_i full
        split
        · rename_i kvs unpacked
          have empty := other identityFrame payloadFrame.data kvs (by rw [← unpacked])
          simp [empty] at full
        · rfl
    · rfl
  refine ⟨none, rejected, ⟨?_, ?_⟩, ?_⟩
  · rintro ⟨_, ⟨⟩⟩
  · rintro ⟨command, actionid, grammatical⟩
    exact absurd grammatical (ungrammatical command actionid)
  · rintro _ _ _ ⟨⟩

end

/-- `message_fromzmq` accepts what the message's own entries say exactly when
nothing inside the message stands for them and the command is not the one that
the validator leaves out. -/
theorem fromzmq_grammar (zmsg : List Frame) (isLocal : Bool) (addr : Addr) (now : UInt64) :
    ByGrammar zmsg isLocal addr now ↔
      ∀ identityFrame data kvs, zmsg = [identityFrame, ⟨data, some (.map kvs)⟩] → data ≠ [] →
        Unambiguous kvs := by
  by_cases shaped : ∃ identityFrame data kvs,
      zmsg = [identityFrame, ⟨data, some (.map kvs)⟩] ∧ data ≠ []
  · obtain ⟨identityFrame, data, kvs, rfl, nonempty⟩ := shaped
    rw [byGrammar_map nonempty]
    constructor
    · rintro unambiguous _ _ _ ⟨⟩ _
      exact unambiguous
    · exact fun all => all identityFrame data kvs rfl nonempty
  · have other : ∀ identityFrame data kvs, zmsg = [identityFrame, ⟨data, some (.map kvs)⟩] →
        data = [] := by
      intro identityFrame data kvs same
      by_contra nonempty
      exact shaped ⟨identityFrame, data, kvs, same, nonempty⟩
    refine ⟨fun _ identityFrame data kvs same nonempty => ?_, fun _ => byGrammar_elsewhere other⟩
    exact absurd (other identityFrame data kvs same) nonempty

/-- The command has a branch, and the validator does not know it. -/
theorem fromzmq_undispatched :
    ¬ ∀ zmsg isLocal addr now, ByGrammar zmsg isLocal addr now := by
  intro always
  obtain ⟨result, returned, exactly, _⟩ := always [⟨[1], none⟩, ⟨[0x82], some (.map [
    (.raw "command", .raw "message"), (.raw "actionid", .raw "msg-1")])⟩] true 0 0
  have fields : OwnFields [(.raw "command", .raw "message"), (.raw "actionid", .raw "msg-1")]
      "message" "msg-1" := ⟨rfl, rfl, rfl, by decide⟩
  obtain ⟨message, accepted⟩ := exactly.mpr ⟨_, _, _, _, _, rfl, by simp, fields⟩
  rw [accepted] at returned
  cases returned

end ModBus
