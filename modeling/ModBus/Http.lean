import ModBus.FastCgi

/-! What the FastCGI module makes of an HTTP request and of the reply to it. The
environment goes through two buffers of fixed size, and the reply's arrays are
walked as if every element were a string and the headers came in pairs. -/

namespace ModBus

open Libc Czmq

/-! The environment of a request. -/

def envEntry (entry : String × String) : String := entry.1 ++ "=" ++ entry.2

def rawPair (entry : String × String) : Object × Object := (.raw entry.1, .raw entry.2)

def parCount (envp : List String) : UInt32 := envp.foldl (fun count _ => count + 1) 0

structure PacksExactly (entries : List (String × String)) : Prop where
  pairs : (entries.map envEntry).mapM packParameter = .ok (entries.map rawPair)
  declared : (parCount (entries.map envEntry)).toNat = entries.length

def FitsBuffers (entry : String × String) : Prop := entry.1.length < 256 ∧ entry.2.length < 8191

theorem parCount_eq (envp : List String) : parCount envp = UInt32.ofNat envp.length := by
  have counted : ∀ start : Nat, envp.foldl (fun count _ => count + 1) (UInt32.ofNat start) =
      UInt32.ofNat (start + envp.length) := by
    induction envp with
    | nil => exact fun _ => rfl
    | cons entry envp ih =>
        intro start
        have next := ih (start + 1)
        rw [UInt32.ofNat_add] at next
        rw [List.foldl_cons, List.length_cons, Nat.add_comm envp.length, ← Nat.add_assoc]
        exact next
  have fromZero := counted 0
  rw [Nat.zero_add] at fromZero
  exact fromZero

theorem parCount_exact (envp : List String) :
    (parCount envp).toNat = envp.length ↔ envp.length < 2 ^ 32 := by
  rw [parCount_eq, UInt32.toNat_ofNat']
  constructor
  · intro same
    omega
  · exact Nat.mod_eq_of_lt

theorem envEntry_toList (entry : String × String) :
    (envEntry entry).toList = entry.1.toList ++ '=' :: entry.2.toList := by
  simp [envEntry]

/-- What the code makes of an entry, by the two lengths that it computes. -/
theorem packParameter_envEntry {entry : String × String} {pos valPos : Nat}
    (plain : '=' ∉ entry.1.toList) (isPos : pos = entry.1.length % 2 ^ 32)
    (isValPos : valPos = (entry.1.length + 1 + entry.2.length - pos) % 2 ^ 32) :
    packParameter (envEntry entry) =
      if pos = 0 then .ok (.raw "", .raw "")
      else if 256 ≤ pos ∨ 8192 ≤ valPos then .error .outOfBounds
      else .ok (.raw (String.ofList ((envEntry entry).toList.take pos)),
        .raw (String.ofList (((envEntry entry).toList.drop (pos + 1)).take valPos))) := by
  have before : (envEntry entry).toList.takeWhile (· ≠ '=') = entry.1.toList := by
    rw [envEntry_toList, List.takeWhile_append_of_pos]
    · simp
    · intro c member
      have different : c ≠ '=' := by
        rintro rfl
        exact plain member
      simpa using different
  have total : (envEntry entry).toList.length = entry.1.length + 1 + entry.2.length := by
    rw [envEntry_toList, List.length_append, List.length_cons, String.length_toList,
      String.length_toList]
    omega
  have separated : '=' ∈ (envEntry entry).toList := by simp [envEntry_toList]
  subst isPos
  subst isValPos
  rw [packParameter, if_neg (not_not_intro separated), before, total, String.length_toList]

theorem packParameter_exact {entry : String × String} (nonempty : entry.1 ≠ "")
    (plain : '=' ∉ entry.1.toList) :
    packParameter (envEntry entry) = .ok (rawPair entry) ↔ FitsBuffers entry := by
  have packed := packParameter_envEntry plain rfl rfl
  generalize isPos : entry.1.length % 2 ^ 32 = pos at packed
  generalize isValPos : (entry.1.length + 1 + entry.2.length - pos) % 2 ^ 32 = valPos at packed
  rw [packed]
  constructor
  · intro same
    split_ifs at same with zero
    · simp only [rawPair, Except.ok.injEq, Prod.mk.injEq, Object.raw.injEq] at same
      exact absurd same.1.symm nonempty
    · rename_i short
      simp only [rawPair, Except.ok.injEq, Prod.mk.injEq, Object.raw.injEq] at same
      have keyLength := congrArg String.length same.1
      have valueLength := congrArg String.length same.2
      rw [String.length_ofList, List.length_take] at keyLength valueLength
      constructor
      · omega
      · omega
  · rintro ⟨shortKey, shortValue⟩
    have positive : 0 < entry.1.length := by
      rw [← String.length_toList]
      apply List.length_pos_of_ne_nil
      intro empty
      apply nonempty
      rw [← String.toList_inj, empty]
      rfl
    have wholeKey : pos = entry.1.toList.length := by
      rw [String.length_toList]
      omega
    have wholeValue : valPos = entry.2.toList.length + 1 := by
      rw [String.length_toList]
      omega
    have wholeChars : ((entry.1.toList ++ '=' :: entry.2.toList).drop
        (entry.1.toList.length + 1)).take (entry.2.toList.length + 1) = entry.2.toList := by
      rw [List.drop_append, List.drop_eq_nil_of_le (by omega), List.nil_append,
        Nat.add_sub_cancel_left, List.drop_one, List.tail_cons, List.take_of_length_le (by omega)]
    rw [if_neg (by omega), if_neg (by omega), envEntry_toList, wholeKey, wholeValue, wholeChars,
      List.take_left, String.ofList_toList, String.ofList_toList]
    rfl

theorem mapM_exact {entries : List (String × String)}
    (named : ∀ entry ∈ entries, entry.1 ≠ "" ∧ '=' ∉ entry.1.toList) :
    (entries.map envEntry).mapM packParameter = .ok (entries.map rawPair) ↔
      ∀ entry ∈ entries, FitsBuffers entry := by
  induction entries with
  | nil => simp [pure, Except.pure]
  | cons entry rest ih =>
      have here := packParameter_exact (named entry List.mem_cons_self).1
        (named entry List.mem_cons_self).2
      have later := ih fun other member => named other (List.mem_cons_of_mem _ member)
      rw [List.forall_mem_cons, ← here, ← later]
      simp only [List.map_cons, List.mapM_cons]
      constructor
      · intro packed
        obtain ⟨first, packs, packed⟩ := bind_ok.mp packed
        obtain ⟨others, pack, packed⟩ := bind_ok.mp packed
        have same : first :: others = rawPair entry :: rest.map rawPair := Except.ok.inj packed
        rw [List.cons.injEq] at same
        rw [packs, pack, same.1, same.2]
        exact ⟨rfl, rfl⟩
      · rintro ⟨packs, pack⟩
        rw [packs, pack]
        rfl

structure Forwarded (fcgxGetParam : String → List String → Option String) (event : Upstream)
    (command module function version : String) : Prop where
  initRequest : event.initRequest = 0
  acceptR : 0 ≤ event.acceptR
  uri : ∃ requestUri rest, fcgxGetParam "REQUEST_URI" event.envp = some requestUri ∧
    requestUri ≠ "" ∧ uriTokens requestUri = command :: module :: function :: version :: rest
  zmsgSend : event.zmsgSend = 0

theorem upstreamEvent_forwarded {fcgxGetParam : String → List String → Option String}
    {event : Upstream} {command module function version : String}
    (forwarded : Forwarded fcgxGetParam event command module function version) (fcgi : FastCgi) :
    upstreamEvent fcgxGetParam fcgi event = do
      let parameters ← event.envp.mapM packParameter
      return (fcgi.accept.issue event.actionid).store event.actionid fcgi.accepted
        (packRequest command module function version event.actionid parameters) := by
  obtain ⟨requestUri, rest, found, nonempty, tokens⟩ := forwarded.uri
  unfold upstreamEvent
  have accepted : ¬ event.acceptR < 0 := by
    have lower := forwarded.acceptR
    omega
  rw [if_neg (not_not_intro forwarded.initRequest), if_neg accepted]
  simp only [found, nonempty, tokens, forwarded.zmsgSend, if_true, if_false]

/-- The environment reaches the fabric as it is just when every name and every
value fits its buffer and msgpack can count the entries. -/
theorem environment_packed {entries : List (String × String)}
    (named : ∀ entry ∈ entries, entry.1 ≠ "" ∧ '=' ∉ entry.1.toList) :
    (PacksExactly entries ↔ entries.length < 2 ^ 32 ∧ ∀ entry ∈ entries, FitsBuffers entry) ∧
    ∀ fcgxGetParam fcgi event command module function version,
      Forwarded fcgxGetParam event command module function version →
      event.envp = entries.map envEntry →
      ((∃ next, upstreamEvent fcgxGetParam fcgi event = .ok next ∧
          next.sent = fcgi.sent ++ [(fcgi.accepted,
            packRequest command module function version event.actionid (entries.map rawPair))]) ↔
        ∀ entry ∈ entries, FitsBuffers entry) := by
  constructor
  · rw [← mapM_exact named, and_comm]
    have counted := parCount_exact (entries.map envEntry)
    rw [List.length_map] at counted
    rw [← counted]
    exact ⟨fun packs => ⟨packs.pairs, packs.declared⟩, fun both => ⟨both.1, both.2⟩⟩
  · intro fcgxGetParam fcgi event command module function version forwarded environment
    rw [upstreamEvent_forwarded forwarded, environment, ← mapM_exact named]
    constructor
    · rintro ⟨next, sends, sent⟩
      obtain ⟨parameters, packs, stored⟩ := bind_ok.mp sends
      cases stored
      have message := List.append_cancel_left sent
      simp only [packRequest, List.cons.injEq, Prod.mk.injEq, Object.map.injEq, true_and,
        and_true] at message
      rw [packs, message]
    · intro packs
      rw [packs]
      exact ⟨_, rfl, rfl⟩

/-- Of the parameters one is empty, and one has a sign of equality in its value. -/
def pageEntries : List (String × String) :=
  [("REQUEST_METHOD", "GET"), ("HTTP_REFERER", ""), ("QUERY_STRING", "a=b"),
    ("REQUEST_URI", "/call/mod/f/1?a=b")]

theorem environment_packed_method : PacksExactly pageEntries ∧
    ∃ next, upstreamEvent namedParam {}
        { envp := pageEntries.map envEntry, actionid := "call-1" } = .ok next ∧
      next.sent = [(0, packRequest "call" "mod" "f" "1?a=b" "call-1" (pageEntries.map rawPair))] := by
  have named : ∀ entry ∈ pageEntries, entry.1 ≠ "" ∧ '=' ∉ entry.1.toList := by decide
  have fit : ∀ entry ∈ pageEntries, FitsBuffers entry := by
    unfold FitsBuffers
    decide
  have forwarded : Forwarded namedParam
      { envp := pageEntries.map envEntry, actionid := "call-1" } "call" "mod" "f" "1?a=b" :=
    ⟨rfl, by decide, ⟨"/call/mod/f/1?a=b", [], by decide, by decide, by decide⟩, rfl⟩
  obtain ⟨packs, forwards⟩ := environment_packed named
  exact ⟨packs.mpr ⟨by decide, fit⟩, (forwards namedParam {} _ _ _ _ _ forwarded rfl).mpr fit⟩

def longCookie : String × String := ("HTTP_COOKIE", String.ofList (List.replicate 8191 'c'))

theorem longCookie_length : longCookie.2.length = 8191 := by
  rw [longCookie, String.length_ofList, List.length_replicate]

/-- The terminator of such a value is written behind the buffer. -/
theorem environment_overrun :
    ¬ PacksExactly [longCookie] ∧ packParameter (envEntry longCookie) = .error .outOfBounds := by
  have plain : '=' ∉ longCookie.1.toList := by decide
  constructor
  · intro packs
    have named : ∀ entry ∈ [longCookie], entry.1 ≠ "" ∧ '=' ∉ entry.1.toList := by
      intro entry member
      rw [List.mem_singleton.mp member]
      exact ⟨by decide, plain⟩
    have short := ((mapM_exact named).mp packs.pairs longCookie (by simp)).2
    rw [longCookie_length] at short
    omega
  · rw [packParameter_envEntry plain rfl rfl, longCookie_length, if_neg (by decide),
      if_pos (by decide)]

/-! The reply to a request. -/

def headerItems (pairs : List (String × String)) : List Object :=
  pairs.flatMap fun pair => [.raw pair.1, .raw pair.2]

def headerLine (pair : String × String) : String := pair.1 ++ ":" ++ pair.2 ++ "\r\n"

def rendered (status : Object) (pairs : List (String × String)) (pieces : List String) : String :=
  resultStatus status ++ String.join (pairs.map headerLine) ++ "\r\n" ++ String.join pieces ++ "\r\n"

def AllRaw (items : List Object) : Prop := ∀ item ∈ items, item.isRaw = true

theorem putRaw_ok (o : Object) : (∃ text, putRaw o = .ok text) ↔ o.isRaw = true := by
  cases o <;> simp [putRaw, Object.isRaw]

theorem putPayload_ok (items : List Object) :
    (∃ text, putPayload items = .ok text) ↔ AllRaw items := by
  induction items with
  | nil => simp [putPayload, AllRaw]
  | cons piece rest ih =>
      rw [AllRaw, List.forall_mem_cons, ← putRaw_ok, ← AllRaw, ← ih]
      constructor
      · rintro ⟨text, put⟩
        obtain ⟨first, written, put⟩ := bind_ok.mp put
        obtain ⟨others, later, _⟩ := bind_ok.mp put
        exact ⟨⟨first, written⟩, others, later⟩
      · rintro ⟨⟨first, written⟩, others, later⟩
        refine ⟨first ++ others, ?_⟩
        rw [putPayload, written, later]
        rfl

theorem putHeaders_ok (items : List Object) :
    (∃ text, putHeaders items = .ok text) ↔ items.length % 2 = 0 ∧ AllRaw items := by
  induction items using putHeaders.induct with
  | case1 => simp [putHeaders, AllRaw]
  | case2 single => simp [putHeaders]
  | case3 name value rest ih =>
      have parity : (name :: value :: rest).length % 2 = 0 ↔ rest.length % 2 = 0 := by
        rw [List.length_cons, List.length_cons]
        omega
      rw [AllRaw, List.forall_mem_cons, List.forall_mem_cons, ← putRaw_ok, ← putRaw_ok, ← AllRaw,
        parity]
      constructor
      · rintro ⟨text, put⟩
        obtain ⟨first, written, put⟩ := bind_ok.mp put
        obtain ⟨second, after, put⟩ := bind_ok.mp put
        obtain ⟨others, later, _⟩ := bind_ok.mp put
        obtain ⟨even, raw⟩ := ih.mp ⟨others, later⟩
        exact ⟨even, ⟨first, written⟩, ⟨second, after⟩, raw⟩
      · rintro ⟨even, ⟨first, written⟩, ⟨second, after⟩, raw⟩
        obtain ⟨others, later⟩ := ih.mpr ⟨even, raw⟩
        refine ⟨first ++ ":" ++ second ++ "\r\n" ++ others, ?_⟩
        rw [putHeaders, written, after, later]
        rfl

theorem putHeaders_pairs (pairs : List (String × String)) :
    putHeaders (headerItems pairs) = .ok (String.join (pairs.map headerLine)) := by
  induction pairs with
  | nil => rfl
  | cons pair rest ih =>
      rw [headerItems, List.flatMap_cons, ← headerItems]
      simp only [List.cons_append, List.nil_append, putHeaders, putRaw, ih, List.map_cons,
        String.join_cons, headerLine]
      rfl

theorem putPayload_pieces (pieces : List String) :
    putPayload (pieces.map .raw) = .ok (String.join pieces) := by
  induction pieces with
  | nil => rfl
  | cons piece rest ih =>
      simp only [List.map_cons, putPayload, putRaw, ih, String.join_cons]
      rfl

structure ReplyTo (fcgi : FastCgi) (object : Object) (actionid : String) (request : Nat)
    (status headers payload : Object) : Prop where
  named : mLookup object "actionid" = .ok (some (.text actionid))
  waiting : fcgi.rqList.lookup actionid = some request
  command : mLookup object "command" = .ok (some (.text "result"))
  result : mLookup object "result" = .ok (some (.object (.array [status, headers, payload])))

structure RendersReply (fcgi : FastCgi) (object : Object) (actionid : String) (request : Nat)
    (status headers payload : Object) : Prop where
  reads : ∃ next, zmqEvent fcgi (some object) = .ok next
  writes : ∀ pairs pieces, headers = .array (headerItems pairs) → payload = .array (pieces.map .raw) →
    zmqEvent fcgi (some object) = .ok (fcgi.answer actionid request (rendered status pairs pieces))

theorem zmqEvent_answers {fcgi : FastCgi} {object : Object} {actionid : String} {request : Nat}
    {status headers payload : Object}
    (answers : ReplyTo fcgi object actionid request status headers payload) :
    zmqEvent fcgi (some object) = do
      let lines ← putHeaders (arrayItems headers)
      let body ← putPayload (arrayItems payload)
      return fcgi.answer actionid request
        (resultStatus status ++ lines ++ "\r\n" ++ body ++ "\r\n") := by
  simp only [zmqEvent, answers.named, answers.waiting, putReply, answers.command, putResult,
    answers.result, bind, Except.bind, pure, Except.pure]
  cases putHeaders (arrayItems headers) with
  | error fault => rfl
  | ok lines =>
      cases putPayload (arrayItems payload) with
      | error fault => rfl
      | ok body => rfl

/-- A reply is read safely and rendered just when its headers come in pairs and
all that stands in its two arrays is raw. -/
theorem reply_rendered {fcgi : FastCgi} {object : Object} {actionid : String} {request : Nat}
    {status headers payload : Object}
    (answers : ReplyTo fcgi object actionid request status headers payload) :
    RendersReply fcgi object actionid request status headers payload ↔
      (arrayItems headers).length % 2 = 0 ∧ AllRaw (arrayItems headers) ∧
        AllRaw (arrayItems payload) := by
  have event := zmqEvent_answers answers
  constructor
  · rintro ⟨⟨next, reads⟩, _⟩
    rw [event] at reads
    obtain ⟨lines, headed, reads⟩ := bind_ok.mp reads
    obtain ⟨body, filled, _⟩ := bind_ok.mp reads
    obtain ⟨even, raw⟩ := (putHeaders_ok _).mp ⟨lines, headed⟩
    exact ⟨even, raw, (putPayload_ok _).mp ⟨body, filled⟩⟩
  · rintro ⟨even, rawHeaders, rawPayload⟩
    obtain ⟨lines, headed⟩ := (putHeaders_ok _).mpr ⟨even, rawHeaders⟩
    obtain ⟨body, filled⟩ := (putPayload_ok _).mpr rawPayload
    constructor
    · rw [event, headed, filled]
      exact ⟨_, rfl⟩
    · rintro pairs pieces rfl rfl
      rw [event, arrayItems, arrayItems, putHeaders_pairs, putPayload_pieces]
      rfl

def replyWith (headers payload : List Object) : Object :=
  .map [(.raw "command", .raw "result"),
    (.raw "body", .map [(.raw "result", .array [.positiveInteger 200, .array headers, .array payload])]),
    (.raw "actionid", .raw "call-1")]

def waitingForReply : FastCgi := { rqList := (∅ : ZHash Nat).insert "call-1" 0, accepted := 1 }

theorem replyWith_answers (headers payload : List Object) :
    ReplyTo waitingForReply (replyWith headers payload) "call-1" 0 (.positiveInteger 200)
      (.array headers) (.array payload) :=
  ⟨rfl, rfl, rfl, rfl⟩

theorem reply_rendered_page :
    RendersReply waitingForReply (replyWith [.raw "Content-Type", .raw "text/plain"] [.raw "ok"])
      "call-1" 0 (.positiveInteger 200) (.array [.raw "Content-Type", .raw "text/plain"])
      (.array [.raw "ok"]) := by
  refine (reply_rendered (replyWith_answers _ _)).mpr ⟨rfl, ?_, ?_⟩
  · unfold AllRaw
    decide
  · unfold AllRaw
    decide

/-- A header without a value makes the module read past the end of the array, and
an integer in the payload is taken for a string. -/
theorem reply_misread :
    zmqEvent waitingForReply (some (replyWith [.raw "Content-Type"] [.raw "ok"])) =
        .error .outOfBounds ∧
      zmqEvent waitingForReply (some (replyWith [] [.positiveInteger 7])) = .error .wrongTag ∧
      ¬ RendersReply waitingForReply (replyWith [.raw "Content-Type"] [.raw "ok"]) "call-1" 0
        (.positiveInteger 200) (.array [.raw "Content-Type"]) (.array [.raw "ok"]) := by
  have odd : zmqEvent waitingForReply (some (replyWith [.raw "Content-Type"] [.raw "ok"])) =
      .error .outOfBounds := rfl
  refine ⟨odd, rfl, ?_⟩
  rintro ⟨⟨next, reads⟩, _⟩
  rw [odd] at reads
  cases reads

end ModBus
