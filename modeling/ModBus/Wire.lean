import ModBus.Execute

/-! The messages that the fabric builds, read off a socket again. -/

namespace ModBus

open Libc Czmq

/-- However a payload that holds `object` arrives, it is accepted, under the
given command and `actionid`, and what is read from it satisfies `Reads`. -/
def ReadsBack (object : Object) (command actionid : String) (Reads : Message → Prop) : Prop :=
  ∀ (identity payload : Frame) isLocal addr now, payload.data ≠ [] →
    payload.object = some object →
    ∃ message, messageFromzmq [identity, payload] isLocal addr now = .ok (some message) ∧
      message.identity = frameIdentity identity isLocal ∧ message.command = command ∧
      message.actionid = actionid ∧ Reads message

def Plain (text : String) : Prop := '\x00' ∉ text.toList

instance (text : String) : Decidable (Plain text) :=
  inferInstanceAs (Decidable ('\x00' ∉ text.toList))

/-! Whatever is read from a message is a C string. -/

theorem mGetStringFrom_plain {key text : String} {kvs : List (Object × Object)}
    (found : mGetStringFrom kvs key = .ok (some text)) : Plain text := by
  induction kvs using entries_induction with
  | nil => cases found
  | entry name value rest below ih =>
      rw [mGetStringFrom] at found
      obtain ⟨same, _, found⟩ := bind_ok.mp found
      cases value with
      | raw direct =>
          simp only [] at found
          split at found
          · cases found
            exact nul_notMem_cString direct
          · exact ih found
      | map inner =>
          obtain ⟨nested?, nested, found⟩ := bind_ok.mp found
          cases nested? with
          | some inside =>
              cases found
              exact below inner rfl nested
          | none => exact ih found
      | _ => exact ih found

theorem mGetString_plain {key text : String} {o : Object}
    (found : mGetString o key = .ok (some text)) : Plain text := by
  cases o with
  | map kvs => exact mGetStringFrom_plain found
  | _ => cases found

theorem bodyString_plain {message : Message} {key text : String}
    (read : bodyString message key = .ok (some text)) : Plain text := by
  obtain ⟨body?, _, read⟩ := bind_ok.mp read
  cases body? with
  | none => cases read
  | some body => exact mGetString_plain read

theorem mUnpackMapFrom_plain {kvs : List (Object × Object)} {hash after : ZHash Unpacked}
    (unpacked : mUnpackMapFrom kvs hash = .ok after) (plain : ∀ key ∈ hash, Plain key) :
    ∀ key ∈ after, Plain key := by
  induction kvs generalizing hash with
  | nil =>
      cases unpacked
      exact plain
  | cons entry rest ih =>
      obtain ⟨name, value⟩ := entry
      cases name with
      | raw bytes =>
          have added : ∀ item : Unpacked, ∀ key ∈ (ZHash.insertNew hash (cString bytes) item).2,
              Plain key := by
            intro item key member
            rcases (ZHash.mem_insertNew _ _ _ _).mp member with rfl | old
            · exact nul_notMem_cString bytes
            · exact plain key old
          cases value with
          | raw text => exact ih unpacked (added _)
          | positiveInteger value => exact ih unpacked (added _)
          | negativeInteger value => exact ih unpacked (added _)
          | array items => exact ih unpacked (added _)
          | map inner =>
              simp only [mUnpackMapFrom] at unpacked
              split at unpacked
              · cases unpacked
              · exact ih unpacked (added _)
          | _ => exact ih unpacked plain
      | _ => cases unpacked

theorem messageGetProvides_plain {message : Message} {provides : ZHash Unpacked}
    (read : messageGetProvides message = .ok (some provides)) : ∀ key ∈ provides, Plain key := by
  obtain ⟨body?, _, read⟩ := bind_ok.mp read
  cases body? with
  | none => cases read
  | some body =>
      obtain ⟨provides?, _, read⟩ := bind_ok.mp read
      cases provides? with
      | none => cases read
      | some object =>
          obtain ⟨unpacked, run, read⟩ := bind_ok.mp read
          cases read
          cases object with
          | map kvs => exact mUnpackMapFrom_plain run fun _ member => absurd member (AList.notMem_empty _)
          | _ =>
              cases run
              exact fun _ member => absurd member (AList.notMem_empty _)

theorem byte_of_nul {byte : Nat} (small : byte < 256) (nul : Char.ofNat byte = '\x00') :
    byte = 0 := by
  have valid : byte.isValidChar := Or.inl (by omega)
  have same := congrArg Char.toNat nul
  rw [Char.ofNat, dif_pos valid] at same
  exact same

theorem integerText_plain {value : UInt64} {text : String}
    (read : integerText value = .ok text) : Plain text := by
  unfold integerText at read
  simp only [] at read
  split at read
  · cases read
  · cases read
    rw [Plain, String.toList_ofList, List.mem_map]
    rintro ⟨byte, member, nul⟩
    have nonzero := List.mem_takeWhile_imp member
    obtain ⟨index, _, rfl⟩ := List.mem_map.mp (List.takeWhile_subset _ member)
    have small : value.toNat / 256 ^ index % 256 < 256 := Nat.mod_lt _ (by omega)
    have same := byte_of_nul small nul
    simp [same] at nonzero

theorem mUnpackItems_plain {items : List Object} {texts : List String}
    (unpacked : mUnpackItems items = .ok texts) : ∀ text ∈ texts, Plain text := by
  induction items generalizing texts with
  | nil =>
      cases unpacked
      exact fun _ member => absurd member List.not_mem_nil
  | cons item items ih =>
      have ahead : ∀ (text : String) (rest : List String), Plain text →
          mUnpackItems items = .ok rest → ∀ other ∈ text :: rest, Plain other := by
        intro text rest plain more other member
        rcases List.mem_cons.mp member with rfl | later
        · exact plain
        · exact ih more other later
      cases item with
      | raw text =>
          obtain ⟨rest, more, unpacked⟩ := bind_ok.mp unpacked
          cases unpacked
          exact ahead _ rest (nul_notMem_cString text) more
      | positiveInteger value =>
          obtain ⟨text, read, unpacked⟩ := bind_ok.mp unpacked
          obtain ⟨rest, more, unpacked⟩ := bind_ok.mp unpacked
          cases unpacked
          exact ahead text rest (integerText_plain read) more
      | negativeInteger value =>
          obtain ⟨text, read, unpacked⟩ := bind_ok.mp unpacked
          obtain ⟨rest, more, unpacked⟩ := bind_ok.mp unpacked
          cases unpacked
          exact ahead text rest (integerText_plain read) more
      | _ => exact ih unpacked

theorem messageGetIfaceList_plain {message : Message} {paths : List String}
    (read : messageGetIfaceList message = .ok (some paths)) : ∀ path ∈ paths, Plain path := by
  obtain ⟨body?, _, read⟩ := bind_ok.mp read
  cases body? with
  | none => cases read
  | some body =>
      obtain ⟨result?, _, read⟩ := bind_ok.mp read
      cases result? with
      | none => cases read
      | some result =>
          obtain ⟨modlist?, _, read⟩ := bind_ok.mp read
          cases modlist? with
          | none => cases read
          | some modlist =>
              obtain ⟨items, unpacked, read⟩ := bind_ok.mp read
              cases read
              cases modlist with
              | array objects => exact mUnpackItems_plain unpacked
              | _ =>
                  cases unpacked
                  exact fun _ member => absurd member List.not_mem_nil

theorem strtok_plain {separator : Char} {text word : String} (plain : Plain text)
    (member : word ∈ strtok separator text) : Plain word := by
  intro nul
  obtain ⟨_, _, chars⟩ := strtokFrom_tokens List.not_mem_nil member
  exact plain ((chars _ nul).resolve_left List.not_mem_nil)

def localPaths (heap : Heap) (ifaces : List Addr) : List String :=
  (ifaces.filter fun iface => decide (0 < (heap iface).idLocalList.size)).map fun iface =>
    ifacePath (heap iface)

section

variable {actionid text command : String} {kvs : List (Object × Object)} {message : Message}
  {body : Object} {Reads : Message → Prop}

theorem mGetString_packed_actionid (command : String) (kvs : List (Object × Object))
    (actionid : String) (clear : mGetStringFrom kvs "actionid" = .ok none) :
    mGetString (packed command (.map kvs) actionid) "actionid" =
      .ok (some (cString actionid)) := by
  have named : keyMatches "actionid" (.raw "command") = .ok false := rfl
  have below : keyMatches "actionid" (.raw "body") = .ok false := rfl
  have own : keyMatches "actionid" (.raw "actionid") = .ok true := rfl
  simp only [packed, mGetString, mGetStringFrom, clear, named, below, own, bind, Except.bind, pure,
    Except.pure, Bool.false_eq_true, if_false, if_true]

theorem messageCheckActionid_packed (long : 5 ≤ actionid.length) (plain : Plain actionid)
    (clear : mGetStringFrom kvs "actionid" = .ok none) (command : String) :
    messageCheckActionid (packed command (.map kvs) actionid) = .ok (some actionid) := by
  have length : ¬ actionid.length < 5 := by omega
  simp only [messageCheckActionid, mGetString_packed_actionid command kvs actionid clear,
    cString_eq plain, bind, Except.bind, length, if_false, pure, Except.pure]

theorem mFindMap_packed (command : String) (body : Object) (actionid : String) :
    mFindMap (packed command body actionid) "body" = .ok (some body) := rfl

/-- A packed message is read back as it was packed, unless its body hides the
`actionid`. -/
theorem readsBack_packed (known : messageCheckCommand (packed command (.map kvs) actionid) =
      .ok (some command))
    (long : 5 ≤ actionid.length) (plain : Plain actionid)
    (clear : mGetStringFrom kvs "actionid" = .ok none)
    (reads : ∀ message : Message, message.object = packed command (.map kvs) actionid →
      Reads message) :
    ReadsBack (packed command (.map kvs) actionid) command actionid Reads := by
  intro identity payload isLocal addr now nonempty unpacked
  have checked := messageCheckActionid_packed long plain clear command
  have size : payload.data.isEmpty = false := by simpa [List.isEmpty_eq_false_iff] using nonempty
  let message := messageNew addr now isLocal (frameIdentity identity isLocal)
    (packed command (.map kvs) actionid) command actionid
  refine ⟨message, ?_, rfl, rfl, rfl, reads message rfl⟩
  rw [packed] at known checked unpacked
  simp only [messageFromzmq, size, unpacked, known, checked, bind, Except.bind, pure, Except.pure]
  rfl

theorem bodyString_packed (object : message.object = packed command body actionid)
    (key : String) : bodyString message key = mGetString body key := by
  simp only [bodyString, object, mFindMap_packed, bind, Except.bind]

theorem bodyInt_packed (object : message.object = packed command body actionid)
    (key : String) : bodyInt message key = mGetInt body key := by
  simp only [bodyInt, object, mFindMap_packed, bind, Except.bind]

theorem toInt_toInt64 (value : Int32) : toInt value.toInt64.toUInt64 = value := by
  apply Int32.toBitVec_inj.mp
  have narrowed : BitVec.setWidth 32 (BitVec.signExtend 64 value.toBitVec) = value.toBitVec := by
    ext index bound
    have inside : index < 64 := by omega
    simp [BitVec.getElem_signExtend, inside, bound]
  simpa [toInt] using narrowed

theorem mGetInt_exception (text : String) (code : Int32) :
    mGetInt (.map [(.raw "string", .raw text), (.raw "exception", packFixInt32 code)])
      "exception" = .ok code.toInt64.toUInt64 := by
  unfold packFixInt32
  split
  · rfl
  · rfl

theorem readsBack_exception (long : 5 ≤ actionid.length) (plain : Plain actionid)
    (plainText : Plain text) (code : Int32) :
    ReadsBack (messageException actionid text code) "exception" actionid fun message =>
      messageGetExceptionString message = .ok (some text) ∧
        messageGetExceptionCode message = .ok code := by
  have clear : mGetStringFrom [(.raw "string", .raw text), (.raw "exception", packFixInt32 code)]
      "actionid" = .ok none := by
    unfold packFixInt32
    split <;> rfl
  refine readsBack_packed (messageCheckCommand_packed _ _ _) long plain clear ?_
  intro message object
  constructor
  · have first : mGetString (.map [(.raw "string", .raw text),
        (.raw "exception", packFixInt32 code)]) "string" = .ok (some (cString text)) := rfl
    rw [messageGetExceptionString, bodyString_packed object, first, cString_eq plainText]
  · simp only [messageGetExceptionCode, bodyInt_packed object, mGetInt_exception, bind,
      Except.bind, pure, Except.pure, toInt_toInt64]

theorem readsBack_response (long : 5 ≤ actionid.length) (plain : Plain actionid)
    (plainText : Plain text) :
    ReadsBack (messageResponse text actionid) "result" actionid fun message =>
      bodyString message "introduce" = .ok (some text) := by
  refine readsBack_packed (messageCheckCommand_packed _ _ _) long plain rfl ?_
  intro message object
  have nested : mGetString (.map [(.raw "result", .map [(.raw "introduce", .raw text)]),
      (.raw "seqno", .positiveInteger 0)]) "introduce" = .ok (some (cString text)) := rfl
  rw [bodyString_packed object, nested, cString_eq plainText]

theorem readsBack_request (long : 5 ≤ actionid.length) (plain : Plain actionid) :
    ReadsBack (messageIfacelistRequest actionid) "request" actionid fun message =>
      messageGetReqCommand message = .ok (some "IfaceList") := by
  refine readsBack_packed (messageCheckCommand_packed _ _ _) long plain rfl ?_
  intro message object
  rw [messageGetReqCommand, bodyString_packed object]
  rfl

theorem readsBack_stop (long : 5 ≤ actionid.length) (plain : Plain actionid) :
    ReadsBack (messageStop actionid) "stop" actionid fun message =>
      bodyString message "time" = .ok (some "0") := by
  refine readsBack_packed (messageCheckCommand_packed _ _ _) long plain rfl ?_
  intro message object
  rw [bodyString_packed object]
  rfl

theorem mUnpackItems_raw {texts : List String} (plain : ∀ text ∈ texts, Plain text) :
    mUnpackItems (texts.map .raw) = .ok texts := by
  induction texts with
  | nil => rfl
  | cons text texts ih =>
      have rest := ih fun other member => plain other (List.mem_cons_of_mem _ member)
      simp only [List.map_cons, mUnpackItems, rest, cString_eq (plain text List.mem_cons_self),
        bind, Except.bind, pure, Except.pure]

theorem messageGetIfaceList_packed {paths : List String} (plain : ∀ path ∈ paths, Plain path)
    (object : message.object = packIfaceList paths actionid) :
    messageGetIfaceList message = .ok (some paths) := by
  have unfolds : messageGetIfaceList message =
      (mUnpackItems (paths.map .raw) >>= fun items => .ok (some items)) := by
    rw [messageGetIfaceList, object]
    rfl
  rw [unfolds, mUnpackItems_raw plain]
  rfl

theorem readsBack_ifaceList {paths : List String} (long : 5 ≤ actionid.length)
    (plain : Plain actionid) (plainPaths : ∀ path ∈ paths, Plain path) :
    ReadsBack (packIfaceList paths actionid) "result" actionid fun message =>
      messageGetIfaceList message = .ok (some paths) := by
  refine readsBack_packed (messageCheckCommand_packed _ _ _) long plain rfl ?_
  intro message object
  exact messageGetIfaceList_packed plainPaths object

/-- The paths are printed whole exactly when each fits its buffer. -/
theorem ifacePaths_iff {heap : Heap} {ifaces : List Addr} {paths : List String} :
    ifacePaths heap ifaces = .ok paths ↔
      (∀ path ∈ localPaths heap ifaces, path.length < 256) ∧
        paths = (localPaths heap ifaces).map cString := by
  induction ifaces generalizing paths with
  | nil => simp [ifacePaths, localPaths, eq_comm]
  | cons iface ifaces ih =>
      by_cases provided : 0 < (heap iface).idLocalList.size
      · have head : localPaths heap (iface :: ifaces) =
            ifacePath (heap iface) :: localPaths heap ifaces := by
          simp [localPaths, provided]
        rw [head, List.forall_mem_cons, List.map_cons]
        by_cases fits : (ifacePath (heap iface)).length < 256
        · simp only [ifacePaths, provided, fits, if_true, true_and]
          constructor
          · intro listed
            obtain ⟨rest, more, listed⟩ := bind_ok.mp listed
            cases listed
            obtain ⟨short, same⟩ := ih.mp more
            exact ⟨short, same ▸ rfl⟩
          · rintro ⟨short, rfl⟩
            exact bind_ok.mpr ⟨_, ih.mpr ⟨short, rfl⟩, rfl⟩
        · simp [ifacePaths, provided, fits]
      · have same : localPaths heap (iface :: ifaces) = localPaths heap ifaces := by
          simp [localPaths, provided]
        simp only [ifacePaths, provided, if_false, same]
        exact ih

theorem localPaths_plain (heap : Heap) (ifaces : List Addr) :
    ∀ path ∈ (localPaths heap ifaces).map cString, Plain path := by
  intro path member
  obtain ⟨long, _, rfl⟩ := List.mem_map.mp member
  exact nul_notMem_cString long

theorem readsBack_response_iff (long : 5 ≤ actionid.length) (plain : Plain actionid)
    (ifaces : ZList Addr) (heap : Heap) :
    (∃ object, messageIfacelistResponse ifaces heap actionid = .ok object ∧
      ReadsBack object "result" actionid fun message =>
        messageGetIfaceList message = .ok (some ((localPaths heap ifaces.items).map cString))) ↔
      ∀ path ∈ localPaths heap ifaces.items, path.length < 256 := by
  constructor
  · rintro ⟨object, packs, _⟩
    obtain ⟨paths, listed, _⟩ := bind_ok.mp packs
    exact (ifacePaths_iff.mp listed).1
  · intro short
    have listed := ifacePaths_iff.mpr ⟨short, rfl⟩
    exact ⟨_, bind_ok.mpr ⟨_, listed, rfl⟩,
      readsBack_ifaceList long plain (localPaths_plain heap ifaces.items)⟩

/-- Whatever the fabric packs is read back by whoever it is sent to, and its
interfaces can be packed exactly when their paths have less than 256 characters. -/
theorem built_readsBack (long : 5 ≤ actionid.length) (plain : Plain actionid) :
    (∀ text code, Plain text →
      ReadsBack (messageException actionid text code) "exception" actionid fun message =>
        messageGetExceptionString message = .ok (some text) ∧
          messageGetExceptionCode message = .ok code) ∧
    (∀ text, Plain text →
      ReadsBack (messageResponse text actionid) "result" actionid fun message =>
        bodyString message "introduce" = .ok (some text)) ∧
    (ReadsBack (messageIfacelistRequest actionid) "request" actionid fun message =>
      messageGetReqCommand message = .ok (some "IfaceList")) ∧
    (∀ paths, (∀ path ∈ paths, Plain path) →
      ReadsBack (packIfaceList paths actionid) "result" actionid fun message =>
        messageGetIfaceList message = .ok (some paths)) ∧
    (∀ ifaces heap, (∃ object, messageIfacelistResponse ifaces heap actionid = .ok object ∧
      ReadsBack object "result" actionid fun message =>
        messageGetIfaceList message = .ok (some ((localPaths heap ifaces.items).map cString))) ↔
      ∀ path ∈ localPaths heap ifaces.items, path.length < 256) ∧
    ReadsBack (messageStop actionid) "stop" actionid fun message =>
      bodyString message "time" = .ok (some "0") :=
  ⟨fun _ code plainText => readsBack_exception long plain plainText code,
    fun _ => readsBack_response long plain, readsBack_request long plain,
    fun _ => readsBack_ifaceList long plain, readsBack_response_iff long plain,
    readsBack_stop long plain⟩

theorem built_readsBack_refusal :
    ReadsBack (messageException "call-1" "All modules are busy" (-111)) "exception" "call-1"
      fun message => messageGetExceptionString message = .ok (some "All modules are busy") ∧
        messageGetExceptionCode message = .ok (-111) := by
  have plain : Plain "call-1" := by decide
  exact (built_readsBack (by decide) plain).1 "All modules are busy" (-111) (by decide)

end

def longNamed : List (Env × Event) := [
  (early, .localMsg (introduceOf worker (String.ofList (List.replicate 127 'm')) 77
    [(String.ofList (List.replicate 127 'f'), 1)]) "yes")]

/-- It is registered, and its path needs 258 bytes with the NUL. -/
theorem built_overrun :
    ¬ ∀ conf p actionid, Transition.Reaches (fabric conf) Transition.anything p →
      5 ≤ actionid.length → Plain actionid →
      ∃ object, messageIfacelistResponse p.ifaces p.heap actionid = .ok object ∧
        ReadsBack object "result" actionid fun message => messageGetIfaceList message =
          .ok (some ((localPaths p.heap p.ifaces.items).map cString)) := by
  intro always
  have registered : (proxyNew.execute plainConf longNamed).toOption.isSome = true ∧
      ¬ ∀ path ∈ localPaths (fabricAfter plainConf longNamed).heap
        (fabricAfter plainConf longNamed).ifaces.items, path.length < 256 := by
    decide +kernel
  have reached : Transition.Reaches (fabric plainConf) Transition.anything
      (fabricAfter plainConf longNamed) :=
    fabricAfter_reaches (fun _ _ _ => trivial) registered.1
  have plain : Plain "call-1" := by decide
  exact registered.2 ((readsBack_response_iff (by decide) plain _ _).mp
    (always plainConf _ "call-1" reached (by decide) plain))

end ModBus
