import ModBus.Correlation
import ModBus.Relay

/-! The FastCGI module and its fabric, among any other modules and fabrics: what
becomes of an HTTP request on its way to whoever serves it, and back. -/

namespace ModBus

open Libc Czmq Transition

structure Site where
  fcgi : FastCgi := {}
  fabric : Proxy := proxyNew
  requests : List Upstream := []
  received : List Message := []

inductive SiteEvent
  | upstream (event : Upstream)
  | zmq (payload : Option Object)
  | fabric (env : Env) (event : Event)

def Upstream.Accepted (event : Upstream) : Prop := event.initRequest = 0 ∧ 0 ≤ event.acceptR

instance (event : Upstream) : Decidable event.Accepted :=
  inferInstanceAs (Decidable (_ ∧ _))

def fcgiIntroduce (pid : UInt64) (actionid : String) : Object :=
  packed "introduce" (.map [(.raw "pid", .positiveInteger pid), (.raw "name", .raw "modbus_fastcgi"),
    (.raw "desc", .raw "modbus FastCGI upstream module"), (.raw "debug", .boolean true),
    (.raw "provides", .map [(.raw "stop", packFixInt32 1)])]) actionid

def Posted (fcgi : FastCgi) (object : Object) : Prop :=
  (∃ request, (request, object) ∈ fcgi.sent) ∨
    ∃ pid actionid, object = fcgiIntroduce pid actionid

def SentTo (me : List UInt8) (p : Proxy) (object : Object) : Prop :=
  ∃ sent ∈ p.sent, sent.dest = .localFe (me.map some) ∧ sent.payload = object

def IsFrom (me : List UInt8) (message : Message) : Prop :=
  message.isLocal = true ∧ message.identity = strhex me

section

-- `FCGX_GetParam`, and the identity that the local ROUTER gave the module.
variable (fcgxGetParam : String → List String → Option String) (me : List UInt8)

/-- Messages between the two are lost, repeated and reordered at will, and the
fabric may read anything else from anybody else. -/
def site (conf : Config) : System Site SiteEvent where
  initial s := s = {}
  step s event next :=
    match event with
    | .upstream event => ∃ fcgi, (fastcgi fcgxGetParam).step s.fcgi (.upstream event) fcgi ∧
        next = { s with
          fcgi := fcgi
          requests := if event.Accepted then s.requests ++ [event] else s.requests }
    | .zmq payload => (∀ object, payload = some object → SentTo me s.fabric object) ∧
        ∃ fcgi, (fastcgi fcgxGetParam).step s.fcgi (.zmq payload) fcgi ∧
          next = { s with fcgi := fcgi }
    | .fabric env event =>
        (∀ message, event.message env s.fabric = some message → IsFrom me message →
          Posted s.fcgi message.object) ∧
        ∃ fabric, s.fabric.step conf env event = .ok fabric ∧
          next = { s with
            fabric := fabric
            received := s.received ++ (event.message env s.fabric).toList }

def PacksInto (event : Upstream) (object : Object) : Prop :=
  ∃ requestUri command module function version more parameters,
    fcgxGetParam "REQUEST_URI" event.envp = some requestUri ∧
    uriTokens requestUri = command :: module :: function :: version :: more ∧
    event.envp.mapM packParameter = .ok parameters ∧
    object = packRequest command module function version event.actionid parameters

def OwnActionid (event : Upstream) : Prop :=
  Plain event.actionid ∧ ∀ parameters, event.envp.mapM packParameter = .ok parameters →
    ∀ entry ∈ parameters, entry.1 ≠ .raw "actionid"

/-- Messages name what they are about in one way only. The module's search goes by
the beginning of a key, the fabric's by the whole key. A fabric's identity is its
endpoint, which is longer than any local one. -/
def Unmistaken (s : Site) : SiteEvent → Prop
  | .upstream event => OwnActionid event
  | .zmq none => True
  | .zmq (some object) => ∀ actionid, addressed object = some actionid →
      messageCheckActionid object = .ok (some actionid)
  | .fabric env event => ∀ message, event.message env s.fabric = some message →
      message.isLocal = false → 10 < message.identity.length

def CallOf (s : Site) (request : Nat) (call : Message) : Prop :=
  ∃ event, s.requests[request]? = some event ∧ PacksInto fcgxGetParam event call.object ∧
    call.actionid = event.actionid

end

inductive AnswerTo (received : List Message) (call : Message) : Object → Prop
  | passedOn {message} : message ∈ received →
      message.command = "result" ∨ message.command = "exception" →
      message.actionid = call.actionid → call.addr < message.addr →
      AnswerTo received call message.object
  | thrown {text code} : (text, code) ∈ ownExceptions →
      AnswerTo received call (messageException call.actionid text code)

inductive Response (fcgxGetParam : String → List String → Option String) (me : List UInt8)
    (s : Site) (request : Nat) (out : String) : Prop
  | refused {event} : s.requests[request]? = some event → ¬ Packs fcgxGetParam event →
      out = "" ∨ out = http400 → Response fcgxGetParam me s request out
  | rendered {sent} : sent ∈ s.fabric.sent → sent.dest = .localFe (me.map some) →
      putReply sent.payload = .ok out →
      (∀ call, sent.cause.answers = some call →
        CallOf fcgxGetParam s request call ∧ AnswerTo s.received call sent.payload) →
      Response fcgxGetParam me s request out

inductive HttpTurn (fcgxGetParam : String → List String → Option String) (fcgi : FastCgi)
    (event : Upstream) : FastCgi → Prop
  | idle : ¬ event.Accepted → HttpTurn fcgxGetParam fcgi event fcgi
  | refused {issued out} : event.Accepted → ¬ Packs fcgxGetParam event →
      out = "" ∨ out = http400 → fcgi.issued ⊆ issued →
      HttpTurn fcgxGetParam fcgi event
        ({ fcgi.accept with issued := issued }.finish fcgi.accepted out)
  | stored {object} : event.Accepted → PacksInto fcgxGetParam event object →
      HttpTurn fcgxGetParam fcgi event
        ((fcgi.accept.issue event.actionid).store event.actionid fcgi.accepted object)
  | dropped : event.Accepted →
      HttpTurn fcgxGetParam fcgi event (fcgi.accept.issue event.actionid)

/-! What the two read off each other's messages. -/

section

variable {fcgxGetParam : String → List String → Option String} {me : List UInt8} {conf : Config}
  {fcgi next : FastCgi} {event : Upstream} {payload : Option Object} {object : Object}
  {actionid : String} {message call : Message}

theorem mapM_packParameter_raw {envp : List String} {parameters : List (Object × Object)}
    (packs : envp.mapM packParameter = .ok parameters) :
    ∀ entry ∈ parameters, ∃ name value, entry = (.raw name, .raw value) := by
  induction envp generalizing parameters with
  | nil =>
      cases packs
      exact fun _ member => absurd member List.not_mem_nil
  | cons text envp ih =>
      rw [List.mapM_cons] at packs
      obtain ⟨first, packed, packs⟩ := bind_ok.mp packs
      obtain ⟨others, more, packs⟩ := bind_ok.mp packs
      cases packs
      intro entry member
      rcases List.mem_cons.mp member with rfl | later
      · unfold packParameter at packed
        simp only [] at packed
        split at packed
        · cases packed
        · split at packed
          · cases packed
            exact ⟨_, _, rfl⟩
          · split at packed <;> cases packed
            exact ⟨_, _, rfl⟩
      · exact ih more entry later

theorem mGetStringFrom_absent {key : String} {kvs : List (Object × Object)}
    (raw : ∀ entry ∈ kvs, ∃ name value, entry = (.raw name, .raw value))
    (absent : ∀ entry ∈ kvs, entry.1 ≠ .raw key) : mGetStringFrom kvs key = .ok none := by
  induction kvs with
  | nil => rfl
  | cons entry kvs ih =>
      obtain ⟨name, value, rfl⟩ := raw entry List.mem_cons_self
      have other : name ≠ key := by
        rintro rfl
        exact absent _ List.mem_cons_self rfl
      have unmatched : keyMatches key (.raw name) = .ok false := by simp [keyMatches, other]
      simp only [mGetStringFrom, unmatched, bind, Except.bind, Bool.false_eq_true, if_false]
      exact ih (fun entry member => raw entry (List.mem_cons_of_mem _ member))
        (fun entry member => absent entry (List.mem_cons_of_mem _ member))

theorem packed_names {command other : String} {kvs : List (Object × Object)}
    (clear : mGetStringFrom kvs "actionid" = .ok none) (plain : Plain actionid)
    (read : messageCheckActionid (packed command (.map kvs) actionid) = .ok (some other)) :
    other = actionid := by
  have found := mGetString_packed_actionid command kvs actionid clear
  obtain ⟨text?, text, read⟩ := bind_ok.mp read
  cases found.symm.trans text
  rw [cString_eq plain] at read
  simp only [] at read
  split at read <;> cases read
  rfl

theorem PacksInto.names (packs : PacksInto fcgxGetParam event object) (own : OwnActionid event)
    (read : messageCheckActionid object = .ok (some actionid)) : actionid = event.actionid := by
  obtain ⟨_, command, module, function, version, _, parameters, _, _, packed, rfl⟩ := packs
  have absent := mGetStringFrom_absent (mapM_packParameter_raw packed) (own.2 parameters packed)
  have clear : mGetStringFrom [(.raw "module", .raw module), (.raw "function", .raw function),
      (.raw "version", .positiveInteger (atoi version).toInt64.toUInt64),
      (.raw "parameters", .map parameters), (.raw "seqno", .positiveInteger 0)] "actionid" =
        .ok none := by
    simp [mGetStringFrom, mGetString, keyMatches, absent, bind, Except.bind]
  exact packed_names clear own.1 read

theorem PacksInto.top (packs : PacksInto fcgxGetParam event object) :
    topActionid object = some event.actionid := by
  obtain ⟨_, command, module, function, version, _, parameters, _, _, _, rfl⟩ := packs
  exact topActionid_packRequest command module function version event.actionid parameters

theorem messageException_names {other text : String} {code : Int32} (plain : Plain actionid)
    (read : messageCheckActionid (messageException actionid text code) = .ok (some other)) :
    other = actionid := by
  refine packed_names ?_ plain read
  unfold packFixInt32
  split <;> rfl

structure ReadOff (message : Message) : Prop where
  command : messageCheckCommand message.object = .ok (some message.command)
  actionid : messageCheckActionid message.object = .ok (some message.actionid)
  sender : message.isLocal = true → ∃ frame, message.identity = strhex frame

theorem messageFromzmq_readOff {zmsg : List Frame} {isLocal : Bool} {addr : Addr} {now : UInt64}
    (accepted : messageFromzmq zmsg isLocal addr now = .ok (some message)) : ReadOff message := by
  obtain ⟨sender, payload, object, command, actionid, rfl, same⟩ := messageFromzmq_some accepted
  refine ⟨messageFromzmq_command accepted, ?_, ?_⟩
  · unfold messageFromzmq at accepted
    simp only [] at accepted
    split at accepted
    · cases accepted
    · split at accepted
      · obtain ⟨command?, _, accepted⟩ := bind_ok.mp accepted
        cases command? with
        | none => cases accepted
        | some command =>
            obtain ⟨actionid?, checked, accepted⟩ := bind_ok.mp accepted
            cases actionid? with
            | none => cases accepted
            | some actionid =>
                cases accepted
                exact checked
      · cases accepted
  · intro near
    rw [same] at near ⊢
    have near : isLocal = true := near
    subst near
    exact ⟨sender.data, rfl⟩

theorem Event.message_readOff {env : Env} {p : Proxy} {event : Event}
    (read : event.message env p = some message) : ReadOff message := by
  cases event with
  | localMsg => exact messageFromzmq_readOff (toOption_join read)
  | globalMsg => exact messageFromzmq_readOff (toOption_join read)
  | procman => cases read
  | queueItem => cases read
  | fabItem => cases read
  | beacon => cases read

theorem ReadOff.plain (readOff : ReadOff message) : Plain message.actionid := by
  obtain ⟨text?, text, read⟩ := bind_ok.mp readOff.actionid
  cases text? with
  | none => cases read
  | some value =>
      simp only [] at read
      split at read <;> cases read
      exact mGetString_plain text

theorem ReadOff.introduces (readOff : ReadOff message) {pid : UInt64}
    (introduces : message.object = fcgiIntroduce pid actionid) : message.command = "introduce" := by
  have command := readOff.command
  rw [introduces, fcgiIntroduce, messageCheckCommand_packed] at command
  have known : cString "introduce" = "introduce" := rfl
  rw [known, if_pos (by simp)] at command
  exact (Option.some.inj (Except.ok.inj command)).symm

theorem ReadOff.isFrom (readOff : ReadOff message) (five : me.length = 5)
    (far : message.isLocal = false → 10 < message.identity.length)
    (back : home message.identity = .localFe (me.map some)) : IsFrom me message := by
  have short : ¬ 10 < message.identity.length := by
    intro long
    rw [home, if_pos long] at back
    cases back
  rw [home, if_neg short] at back
  have near : message.isLocal = true := by
    cases near : message.isLocal with
    | true => rfl
    | false => exact absurd (far near) short
  obtain ⟨frame, identity⟩ := readOff.sender near
  refine ⟨near, ?_⟩
  rw [identity] at back short ⊢
  rw [strhex_length] at short
  rw [identityFrame_strhex] at back
  have same := Dest.localFe.inj back
  have whole : frame = me := by
    apply List.ext_getElem?
    intro count
    by_cases inside : count < 5
    · have at' := congrArg (fun frames => frames[count]?) same
      simpa [inside, five] using at'
    · rw [List.getElem?_eq_none (by omega), List.getElem?_eq_none (by omega)]
  rw [whole]

/-! What one event changes. -/

theorem upstreamEvent_httpTurn (ran : upstreamEvent fcgxGetParam fcgi event = .ok next) :
    HttpTurn fcgxGetParam fcgi event next := by
  unfold upstreamEvent at ran
  split at ran
  · rename_i failed
    cases ran
    exact .idle fun accepted => failed accepted.1
  · rename_i initialised
    split at ran
    · rename_i failed
      cases ran
      exact .idle fun accepted => absurd accepted.2 (by omega)
    · rename_i unfailed
      have accepted : event.Accepted := ⟨by omega, by omega⟩
      split at ran
      · rename_i missing
        cases ran
        refine .refused accepted ?_ (.inl rfl) (List.Subset.refl _)
        rintro ⟨_, _, requestUri, given, _⟩
        rw [missing] at given
        cases given
      · rename_i requestUri given
        split at ran
        · cases ran
        · split at ran
          · rename_i command module function version more tokens
            obtain ⟨parameters, packed, ran⟩ := bind_ok.mp ran
            split at ran
            · cases ran
              exact .stored accepted ⟨requestUri, command, module, function, version, more,
                parameters, given, tokens, packed, rfl⟩
            · cases ran
              exact .dropped accepted
          · rename_i short
            cases ran
            refine .refused accepted ?_ (.inr rfl) (List.subset_append_left _ _)
            rintro ⟨_, _, other, same, enough⟩
            cases given.symm.trans same
            obtain ⟨command, module, function, version, more, tokens⟩ := four_tokens enough
            exact short command module function version more tokens

theorem zmqEvent_renders (ran : zmqEvent fcgi payload = .ok next) :
    next = fcgi ∨ ∃ object actionid request out, payload = some object ∧
      addressed object = some actionid ∧ fcgi.rqList.lookup actionid = some request ∧
      putReply object = .ok out ∧ next = fcgi.answer actionid request out := by
  cases payload with
  | none =>
      cases ran
      exact .inl rfl
  | some object =>
      obtain ⟨found?, searched, ran⟩ := bind_ok.mp ran
      have names := addressed_found searched
      split at ran
      · cases ran
        exact .inl rfl
      · split at ran
        · cases ran
          exact .inl rfl
        · rename_i request stored
          obtain ⟨out, put, ran⟩ := bind_ok.mp ran
          cases ran
          exact .inr ⟨object, _, request, out, rfl, names, stored, put, rfl⟩
      · cases ran

end

/-! The invariant of the two. -/

structure Filed (fcgxGetParam : String → List String → Option String) (fcgi : FastCgi)
    (requests : List Upstream) : Prop where
  numbered : requests.length = fcgi.accepted
  packed : ∀ request object, (request, object) ∈ fcgi.sent → ∃ event,
    requests[request]? = some event ∧ PacksInto fcgxGetParam event object ∧ OwnActionid event ∧
      event.actionid ∈ fcgi.issued
  distinct : ∀ first second actionid, SentWith fcgi first actionid →
    SentWith fcgi second actionid → first = second
  stored : ∀ actionid request, fcgi.rqList.lookup actionid = some request →
    SentWith fcgi request actionid

structure Tied (fcgxGetParam : String → List String → Option String) (me : List UInt8)
    (s : Site) : Prop where
  registry : Registry s.fabric
  once : OnceEach s.fabric
  relays : Relays s.received s.fabric
  filed : Filed fcgxGetParam s.fcgi s.requests
  readOff : ∀ message ∈ s.received, ReadOff message
  far : ∀ message ∈ s.received, message.isLocal = false → 10 < message.identity.length
  posted : ∀ message ∈ s.received, IsFrom me message → Posted s.fcgi message.object
  finished : ∀ request out, (request, out) ∈ s.fcgi.finished →
    Response fcgxGetParam me s request out

section

variable {fcgxGetParam : String → List String → Option String} {me : List UInt8} {conf : Config}
  {s t : Site} {request : Nat} {out : String} {call message : Message} {object : Object}

structure Site.Later (s t : Site) : Prop where
  requests : ∀ (request : Nat) event, s.requests[request]? = some event →
    t.requests[request]? = some event
  sent : s.fabric.sent ⊆ t.fabric.sent
  received : s.received ⊆ t.received

theorem CallOf.later (later : s.Later t) (callOf : CallOf fcgxGetParam s request call) :
    CallOf fcgxGetParam t request call := by
  obtain ⟨event, found, packs, names⟩ := callOf
  exact ⟨event, later.requests _ _ found, packs, names⟩

theorem AnswerTo.later {received all : List Message} (subset : received ⊆ all)
    (answer : AnswerTo received call object) : AnswerTo all call object := by
  cases answer with
  | passedOn member answers names after => exact .passedOn (subset member) answers names after
  | thrown known => exact .thrown known

theorem Response.later (later : s.Later t) (response : Response fcgxGetParam me s request out) :
    Response fcgxGetParam me t request out := by
  cases response with
  | refused found idle empty =>
      exact .refused (later.requests _ _ found) idle empty
  | rendered member dest put answers =>
      refine .rendered (later.sent member) dest put fun call answered => ?_
      obtain ⟨callOf, answer⟩ := answers call answered
      exact ⟨callOf.later later, answer.later later.received⟩

def ReadsUri (fcgxGetParam : String → List String → Option String) (event : Upstream)
    (call : Message) : Prop :=
  ∃ requestUri command module function version more,
    fcgxGetParam "REQUEST_URI" event.envp = some requestUri ∧
    uriTokens requestUri = command :: module :: function :: version :: more ∧
    cString command = "call" ∧ call.module = some (cString module) ∧
    call.function = some (cString function) ∧ call.version = (atoi version).toInt64.toUInt64

theorem PacksInto.readsUri {event : Upstream} {read : Message}
    (packs : PacksInto fcgxGetParam event message.object) (readOff : ReadOff message)
    (isCall : message.command = "call") (parsed : readCall message = .ok read) :
    ReadsUri fcgxGetParam event read := by
  obtain ⟨requestUri, command, module, function, version, more, parameters, given, tokens, _,
    object⟩ := packs
  have sent := readOff.command
  rw [object, packRequest, ← packed, messageCheckCommand_packed, isCall] at sent
  have commands : cString command = "call" := by
    split at sent
    · exact Option.some.inj (Except.ok.inj sent)
    · cases logged : logAsFormat (cString command) <;> rw [logged] at sent <;> cases sent
  obtain ⟨ver, versions, parsed⟩ := bind_ok.mp parsed
  obtain ⟨mod?, modules, parsed⟩ := bind_ok.mp parsed
  obtain ⟨func?, functions, parsed⟩ := bind_ok.mp parsed
  cases parsed
  rw [messageGetIfVersion, bodyInt_packed object] at versions
  rw [messageGetModule, bodyString_packed object] at modules
  rw [messageGetFunc, bodyString_packed object] at functions
  cases versions
  cases modules
  cases functions
  exact ⟨requestUri, command, module, function, version, more, given, tokens, commands, rfl, rfl,
    rfl⟩

theorem Tied.asked (tied : Tied fcgxGetParam me s) (came : CameIn s.received call)
    (near : ∀ message ∈ s.received, message.identity = call.identity →
      message.isLocal = call.isLocal → IsFrom me message) :
    ∃ request event, s.requests[request]? = some event ∧
      PacksInto fcgxGetParam event call.object ∧ call.actionid = event.actionid ∧
      ReadsUri fcgxGetParam event call ∧ SentWith s.fcgi request call.actionid := by
  obtain ⟨message, member, isCall, read, parsed, same⟩ := came
  have readOff := tied.readOff message member
  rw [readCall_ok parsed] at same
  simp only [Message.letter, Prod.mk.injEq] at same
  obtain ⟨_, actionid, identity, side, object, version, module, function⟩ := same
  rcases tied.posted message member (near message member identity.symm side.symm) with
    ⟨request, sent⟩ | ⟨pid, other, introduces⟩
  · obtain ⟨event, found, packs, own, _⟩ := tied.filed.packed request _ sent
    have names := packs.names own readOff.actionid
    have uri := packs.readsUri readOff isCall parsed
    refine ⟨request, event, found, ?_, actionid.trans names, ?_, message.object, sent, ?_⟩
    · rwa [object]
    · rwa [ReadsUri, version, module, function]
    · rw [packs.top, actionid, names]
  · rw [readOff.introduces introduces] at isCall
    simp at isCall

theorem Tied.answered {actionid : String} {sent : Sent} (tied : Tied fcgxGetParam me s)
    (five : me.length = 5) (member : sent ∈ s.fabric.sent)
    (dest : sent.dest = .localFe (me.map some)) (answers : sent.cause.answers = some call)
    (named : messageCheckActionid sent.payload = .ok (some actionid))
    (waits : s.fcgi.rqList.lookup actionid = some request) :
    CallOf fcgxGetParam s request call ∧ AnswerTo s.received call sent.payload := by
  have own : ∀ {other}, CameIn s.received other → home other.identity = .localFe (me.map some) →
      other.actionid = actionid → CallOf fcgxGetParam s request other := by
    intro other came back same
    have near : ∀ message ∈ s.received, message.identity = other.identity →
        message.isLocal = other.isLocal → IsFrom me message := by
      intro message member identity _
      rw [← identity] at back
      exact (tied.readOff message member).isFrom five (tied.far message member) back
    obtain ⟨asked, event, found, packs, names, _, sentWith⟩ := tied.asked came near
    rw [same] at sentWith
    rw [tied.filed.distinct _ _ _ (tied.filed.stored _ _ waits) sentWith]
    exact ⟨event, found, packs, names⟩
  cases tied.relays.sent sent member with
  | call _ dispatched _ => cases cause : sent.cause <;> simp_all [Cause.dispatched, Cause.answers]
  | introduced _ _ cause => simp [cause, Cause.answers] at answers
  | listed _ _ cause => simp [cause, Cause.answers] at answers
  | asks cause => simp [cause, Cause.answers] at answers
  | @answer other message came cause there isAnswer names later payload back =>
      rw [cause] at answers
      cases answers
      rw [payload] at named ⊢
      cases (tied.readOff message there).actionid.symm.trans named
      exact ⟨own came (back.symm.trans dest) names.symm, .passedOn there isAnswer names later⟩
  | @exception other text code came cause known payload back =>
      rw [cause] at answers
      cases answers
      rw [payload] at named ⊢
      have plain : Plain call.actionid := by
        obtain ⟨message, there, _, read, parsed, same⟩ := came
        rw [readCall_ok parsed] at same
        have names : call.actionid = message.actionid :=
          congrArg (fun letter => letter.2.1) same
        rw [names]
        exact (tied.readOff message there).plain
      exact ⟨own came (back.symm.trans dest) (messageException_names plain named).symm,
        .thrown known⟩

/-! The module's part of the invariant. -/

section

variable {fcgi : FastCgi} {requests : List Upstream} {event : Upstream}

theorem filed_start : Filed fcgxGetParam {} [] where
  numbered := rfl
  packed _ _ member := by cases member
  distinct _ _ _ sent := by
    obtain ⟨_, member, _⟩ := sent
    cases member
  stored _ _ found := by cases found

theorem Filed.names (filed : Filed fcgxGetParam fcgi requests) {actionid : String}
    (sent : SentWith fcgi request actionid) :
    request < fcgi.accepted ∧ actionid ∈ fcgi.issued := by
  obtain ⟨object, member, top⟩ := sent
  obtain ⟨event, found, packs, _, known⟩ := filed.packed request object member
  cases packs.top.symm.trans top
  obtain ⟨inside, _⟩ := List.getElem?_eq_some_iff.mp found
  exact ⟨filed.numbered ▸ inside, known⟩

theorem Filed.accepts {issued : List String} (filed : Filed fcgxGetParam fcgi requests)
    (event : Upstream) (grows : fcgi.issued ⊆ issued) :
    Filed fcgxGetParam { fcgi.accept with issued := issued } (requests ++ [event]) where
  numbered := by
    rw [List.length_append, filed.numbered]
    rfl
  packed request object member := by
    obtain ⟨event, found, packs, own, known⟩ := filed.packed request object member
    obtain ⟨inside, _⟩ := List.getElem?_eq_some_iff.mp found
    exact ⟨event, by rwa [List.getElem?_append_left inside], packs, own, grows known⟩
  distinct := filed.distinct
  stored := filed.stored

theorem Filed.stores (filed : Filed fcgxGetParam fcgi requests) (own : OwnActionid event)
    (fresh : event.actionid ∉ fcgi.issued) (packs : PacksInto fcgxGetParam event object) :
    Filed fcgxGetParam ((fcgi.accept.issue event.actionid).store event.actionid fcgi.accepted object)
      (requests ++ [event]) := by
  have unused : ∀ request, ¬ SentWith fcgi request event.actionid :=
    fun request sent => fresh (filed.names sent).2
  have free : event.actionid ∉ fcgi.rqList := by
    intro member
    obtain ⟨request, found⟩ := ZHash.lookup_of_mem member
    exact unused request (filed.stored _ _ found)
  have sends : ∀ request other, SentWith
      ((fcgi.accept.issue event.actionid).store event.actionid fcgi.accepted object) request other ↔
        SentWith fcgi request other ∨ (request = fcgi.accepted ∧ other = event.actionid) :=
    sentWith_store packs.top
  have accepted := filed.accepts event (List.subset_append_left fcgi.issued [event.actionid])
  constructor
  case numbered => exact accepted.numbered
  case packed =>
    intro request other member
    rcases List.mem_append.mp member with old | new
    · exact accepted.packed request other old
    · cases List.mem_singleton.mp new
      refine ⟨event, ?_, packs, own, List.mem_append_right _ (List.mem_singleton_self _)⟩
      rw [← filed.numbered, List.getElem?_concat_length]
  case distinct =>
    intro first second other sent again
    rcases (sends _ _).mp sent with old | ⟨rfl, rfl⟩ <;>
      rcases (sends _ _).mp again with older | ⟨rfl, new⟩
    · exact filed.distinct _ _ _ old older
    · exact absurd (new ▸ old) (unused _)
    · exact absurd older (unused _)
    · rfl
  case stored =>
    intro other request found
    have inserted := ZHash.lookup_insertNew fcgi.rqList event.actionid other fcgi.accepted
    simp only [free, not_false_eq_true, and_true] at inserted
    have found := inserted.symm.trans found
    rw [sends]
    split at found
    · cases found
      exact .inr ⟨rfl, ‹_›⟩
    · exact .inl (filed.stored _ _ found)

theorem Filed.answers {actionid : String} (filed : Filed fcgxGetParam fcgi requests) :
    Filed fcgxGetParam (fcgi.answer actionid request out) requests where
  numbered := filed.numbered
  packed := filed.packed
  distinct := filed.distinct
  stored other _ found := filed.stored other _ (ZHash.lookup_erase_some.mp found).2

end

/-! The invariant along a run. -/

theorem tied_start : Tied fcgxGetParam me {} where
  registry := registry_new
  once := onceEach_new
  relays := ⟨fun _ _ found => (by cases found), fun _ member => (by cases member)⟩
  filed := filed_start
  readOff _ member := by cases member
  far _ member := by cases member
  posted _ member := by cases member
  finished _ _ member := by cases member

/-- The module does something, and finishes no request but as it should. -/
theorem Tied.serves {fcgi : FastCgi} {requests : List Upstream} (tied : Tied fcgxGetParam me s)
    (filed : Filed fcgxGetParam fcgi requests) (sent : s.fcgi.sent ⊆ fcgi.sent)
    (kept : ∀ (request : Nat) event, s.requests[request]? = some event →
      requests[request]? = some event)
    (finished : ∀ request out, (request, out) ∈ fcgi.finished →
      (request, out) ∈ s.fcgi.finished ∨
        Response fcgxGetParam me { s with fcgi := fcgi, requests := requests } request out) :
    Tied fcgxGetParam me { s with fcgi := fcgi, requests := requests } where
  registry := tied.registry
  once := tied.once
  relays := tied.relays
  filed := filed
  readOff := tied.readOff
  far := tied.far
  posted message member isFrom := by
    rcases tied.posted message member isFrom with ⟨request, posted⟩ | introduces
    · exact .inl ⟨request, sent posted⟩
    · exact .inr introduces
  finished request out member := by
    rcases finished request out member with old | new
    · exact (tied.finished request out old).later ⟨kept, List.Subset.refl _, List.Subset.refl _⟩
    · exact new

theorem Tied.upstream {event : Upstream} {fcgi : FastCgi} (tied : Tied fcgxGetParam me s)
    (own : OwnActionid event) (fresh : event.actionid ∉ s.fcgi.issued)
    (ran : upstreamEvent fcgxGetParam s.fcgi event = .ok fcgi) :
    Tied fcgxGetParam me { s with
      fcgi := fcgi
      requests := if event.Accepted then s.requests ++ [event] else s.requests } := by
  have kept : ∀ (request : Nat) other, s.requests[request]? = some other →
      (s.requests ++ [event])[request]? = some other := by
    intro request other found
    obtain ⟨inside, _⟩ := List.getElem?_eq_some_iff.mp found
    rwa [List.getElem?_append_left inside]
  have numbered := tied.filed.numbered
  cases upstreamEvent_httpTurn ran with
  | idle ignored =>
      rw [if_neg ignored]
      exact tied
  | refused accepted idle empty grows =>
      rw [if_pos accepted]
      have filed := tied.filed.accepts event grows
      refine tied.serves ⟨filed.numbered, filed.packed, filed.distinct, filed.stored⟩
        (List.Subset.refl _) kept fun request out member => ?_
      rcases List.mem_append.mp member with old | new
      · exact .inl old
      · cases List.mem_singleton.mp new
        refine .inr (.refused ?_ idle empty)
        rw [← numbered, List.getElem?_concat_length]
  | stored accepted packs =>
      rw [if_pos accepted]
      exact tied.serves (tied.filed.stores own fresh packs) (List.subset_append_left _ _) kept
        fun _ _ member => .inl member
  | dropped accepted =>
      rw [if_pos accepted]
      exact tied.serves (tied.filed.accepts _ (List.subset_append_left _ _)) (List.Subset.refl _) kept
        fun _ _ member => .inl member

theorem Tied.zmq {payload : Option Object} {fcgi : FastCgi} (tied : Tied fcgxGetParam me s)
    (five : me.length = 5)
    (sent : ∀ object, payload = some object → SentTo me s.fabric object)
    (named : Unmistaken s (.zmq payload)) (ran : zmqEvent s.fcgi payload = .ok fcgi) :
    Tied fcgxGetParam me { s with fcgi := fcgi } := by
  rcases zmqEvent_renders ran with rfl |
    ⟨object, actionid, request, out, rfl, names, waits, put, rfl⟩
  · exact tied
  · refine tied.serves tied.filed.answers (List.Subset.refl _) (fun _ _ => id)
      fun other text member => ?_
    rcases List.mem_append.mp member with old | new
    · exact .inl old
    · cases List.mem_singleton.mp new
      obtain ⟨one, there, dest, rfl⟩ := sent object rfl
      refine .inr (.rendered there dest put fun call answers => ?_)
      exact tied.answered five there dest answers (named actionid names) waits

theorem Tied.reads {env : Env} {event : Event} {p : Proxy} (tied : Tied fcgxGetParam me s)
    (posted : ∀ message, event.message env s.fabric = some message → IsFrom me message →
      Posted s.fcgi message.object)
    (far : Unmistaken s (.fabric env event)) (ran : s.fabric.step conf env event = .ok p) :
    Tied fcgxGetParam me { s with
      fabric := p, received := s.received ++ (event.message env s.fabric).toList } := by
  have relays := tied.relays.step tied.registry tied.once ran
  have brought : ∀ message, message ∈ s.received ++ (event.message env s.fabric).toList →
      message ∈ s.received ∨ event.message env s.fabric = some message := by
    intro message member
    rcases List.mem_append.mp member with old | new
    · exact .inl old
    · exact .inr (Option.mem_toList.mp new)
  constructor
  case registry => exact tied.registry.step ran
  case once => exact tied.once.step tied.registry ran
  case relays => exact relays
  case filed => exact tied.filed
  case readOff =>
    intro message member
    rcases brought message member with old | new
    · exact tied.readOff message old
    · exact Event.message_readOff new
  case far =>
    intro message member
    rcases brought message member with old | new
    · exact tied.far message old
    · exact far message new
  case posted =>
    intro message member
    rcases brought message member with old | new
    · exact tied.posted message old
    · exact posted message new
  case finished =>
    intro request out member
    obtain ⟨more, grown, _⟩ := tied.relays.sends tied.registry tied.once ran
    have later : s.Later { s with
        fabric := p, received := s.received ++ (event.message env s.fabric).toList } :=
      ⟨fun _ _ => id, grown ▸ List.subset_append_left _ _, List.subset_append_left _ _⟩
    exact (tied.finished request out member).later later

theorem tied_reaches (five : me.length = 5)
    (reached : Reaches (site fcgxGetParam me conf) Unmistaken s) : Tied fcgxGetParam me s := by
  refine reached.invariant (Tied fcgxGetParam me) ?_ ?_
  · rintro state rfl
    exact tied_start
  · intro state event next allowed move tied
    cases event with
    | upstream event =>
        obtain ⟨fcgi, ⟨fresh, ran⟩, rfl⟩ := move
        exact tied.upstream allowed fresh ran
    | zmq payload =>
        obtain ⟨sent, fcgi, ⟨_, ran⟩, rfl⟩ := move
        exact tied.zmq five sent allowed ran
    | fabric env event =>
        obtain ⟨posted, p, ran, rfl⟩ := move
        exact tied.reads posted allowed ran

/-- Whatever the fabric passes on as a call of the module's is the message that an
HTTP request was packed into, and was looked up by what the URI names. -/
theorem site_forwards (five : me.length = 5)
    (reached : Reaches (site fcgxGetParam me conf) Unmistaken s) :
    ∀ sent ∈ s.fabric.sent, ∀ call, sent.cause.dispatched = some call → IsFrom me call →
      ∃ (request : Nat) (event : Upstream), s.requests[request]? = some event ∧
        PacksInto fcgxGetParam event sent.payload ∧ call.actionid = event.actionid ∧
        ReadsUri fcgxGetParam event call := by
  intro sent member call dispatched isFrom
  have tied := tied_reaches five reached
  have near : ∀ message ∈ s.received, message.identity = call.identity →
      message.isLocal = call.isLocal → IsFrom me message := by
    intro message _ identity side
    exact ⟨side.trans isFrom.1, identity.trans isFrom.2⟩
  cases tied.relays.sent sent member with
  | @call other came passed payload =>
      cases passed.symm.trans dispatched
      obtain ⟨request, event, found, packs, names, uri, _⟩ := tied.asked came near
      rw [payload]
      exact ⟨request, event, found, packs, names, uri⟩
  | introduced _ _ cause => simp [cause, Cause.dispatched] at dispatched
  | listed _ _ cause => simp [cause, Cause.dispatched] at dispatched
  | asks cause => simp [cause, Cause.dispatched] at dispatched
  | answer _ cause => simp [cause, Cause.dispatched] at dispatched
  | exception _ cause => simp [cause, Cause.dispatched] at dispatched

/-- A request is refused at once, or finished with what is written of an answer to
its own call: nobody gets another's page. What is no answer, such as a call to the
module itself, may finish it too. -/
theorem site_serves (five : me.length = 5)
    (reached : Reaches (site fcgxGetParam me conf) Unmistaken s) :
    ∀ request out, (request, out) ∈ s.fcgi.finished → Response fcgxGetParam me s request out :=
  (tied_reaches five reached).finished

/-- What the fabric does alone is a run of the two. -/
theorem site_execute {labels : List (Env × Event)} {p : Proxy}
    (allowed : ∀ label ∈ labels, ∀ p message, label.2.message label.1 p = some message →
      message.isLocal = true ∧ (IsFrom me message → Posted s.fcgi message.object))
    (run : s.fabric.execute conf labels = .ok p) :
    Run (site fcgxGetParam me conf) Unmistaken s
      { s with fabric := p, received := s.received ++ s.fabric.received conf labels } := by
  induction labels generalizing s with
  | nil =>
      cases run
      rw [Proxy.received, List.append_nil]
      exact .refl _
  | cons label labels ih =>
      obtain ⟨env, event⟩ := label
      simp only [Proxy.execute] at run
      split at run
      · cases run
      · rename_i middle move
        have here := allowed _ List.mem_cons_self s.fabric
        let after : Site := { s with
          fabric := middle, received := s.received ++ (event.message env s.fabric).toList }
        have near : Unmistaken s (.fabric env event) := by
          intro message read far
          rw [(here message read).1] at far
          cases far
        have turn : (site fcgxGetParam me conf).step s (.fabric env event) after :=
          ⟨fun message read => (here message read).2, middle, move, rfl⟩
        have rest : Run (site fcgxGetParam me conf) Unmistaken after _ :=
          ih (fun other member => allowed other (List.mem_cons_of_mem _ member)) run
        simp only [after, List.append_assoc] at rest
        simp only [Proxy.received, move]
        exact (Run.single near turn).trans rest

end

/-! A page is asked for, and a worker makes it. -/

def pageRequest : Upstream where
  envp := ["REQUEST_METHOD=GET", "REQUEST_URI=/call/mod/f/1"]
  actionid := "call-1"

def pageFrames (identity : List UInt8) (object : Object) : List Frame :=
  [⟨identity, none⟩, ⟨[0x83], some object⟩]

def pageLabels : List (Env × Event) := [
  (early, .localMsg (introduceOf worker "mod" 77 [("f", 1)]) "yes"),
  (early, .localMsg (pageFrames caller (callMessage "call-1")) ""),
  (early, .localMsg (pageFrames worker (callResult "call-1" "seqno" "0")) "")]

def pageMade : Site where
  fcgi := calledOnce
  fabric := fabricAfter plainConf pageLabels
  requests := [pageRequest]
  received := proxyNew.received plainConf pageLabels

def pageServed : Site :=
  { pageMade with fcgi := { calledOnce with rqList := ∅, finished := [(0, okText)] } }

theorem pageMade_run : Run (site namedParam caller plainConf) Unmistaken {} pageMade := by
  let asked : Site := { fcgi := calledOnce, requests := [pageRequest] }
  have own : Unmistaken {} (.upstream pageRequest) := by
    refine ⟨by decide, ?_⟩
    intro parameters packed entry member
    have pairs : parameters = [(.raw "REQUEST_METHOD", .raw "GET"),
        (.raw "REQUEST_URI", .raw "/call/mod/f/1")] := (Except.ok.inj packed).symm
    rw [pairs] at member
    simp only [List.mem_cons, List.not_mem_nil, or_false] at member
    rcases member with rfl | rfl <;> simp
  have upstream : (site namedParam caller plainConf).step {} (.upstream pageRequest) asked :=
    ⟨calledOnce, ⟨List.not_mem_nil, rfl⟩, rfl⟩
  have made : asked.fabric.execute plainConf pageLabels = .ok pageMade.fabric :=
    execute_fabricAfter (by decide)
  have posted : ∀ label ∈ pageLabels, ∀ p message, label.2.message label.1 p = some message →
      message.isLocal = true ∧ (IsFrom caller message → Posted asked.fcgi message.object) := by
    intro label member p message read
    simp only [pageLabels, List.mem_cons, List.not_mem_nil, or_false] at member
    have other : strhex worker ≠ strhex caller := by decide
    rcases member with rfl | rfl | rfl <;> cases read
    · exact ⟨rfl, fun isFrom => absurd isFrom.2 other⟩
    · exact ⟨rfl, fun _ => .inl ⟨0, List.mem_singleton_self _⟩⟩
    · exact ⟨rfl, fun isFrom => absurd isFrom.2 other⟩
  have whole : { asked with
      fabric := pageMade.fabric
      received := asked.received ++ asked.fabric.received plainConf pageLabels } = pageMade := by
    simp only [asked, pageMade, List.nil_append]
  have run : Run (site namedParam caller plainConf) Unmistaken asked _ :=
    site_execute posted made
  rw [whole] at run
  exact (Run.single own upstream).trans run

theorem pageServed_reaches : Reaches (site namedParam caller plainConf) Unmistaken pageServed := by
  have sent : SentTo caller pageMade.fabric (callResult "call-1" "seqno" "0") := by
    have last : pageMade.fabric.sent.getLast?.map (fun sent => (sent.dest, sent.payload)) =
        some (.localFe (caller.map some), callResult "call-1" "seqno" "0") := rfl
    obtain ⟨sent, found, same⟩ := Option.map_eq_some_iff.mp last
    exact ⟨sent, List.mem_of_getLast? found, (Prod.mk.inj same).1, (Prod.mk.inj same).2⟩
  have named : Unmistaken pageMade (.zmq (some (callResult "call-1" "seqno" "0"))) := by
    intro actionid top
    cases Option.some.inj top
    rfl
  have reply : (site namedParam caller plainConf).step pageMade
      (.zmq (some (callResult "call-1" "seqno" "0"))) pageServed := by
    refine ⟨?_, _, ⟨trivial, rfl⟩, rfl⟩
    rintro _ ⟨⟩
    exact sent
  exact ⟨{}, rfl, pageMade_run.snoc named reply⟩

theorem site_forwards_page : pageServed.fabric.sent.length = 3 ∧
    ∀ sent ∈ pageServed.fabric.sent, ∀ call, sent.cause.dispatched = some call →
      IsFrom caller call → ∃ (request : Nat) (event : Upstream),
        pageServed.requests[request]? = some event ∧ PacksInto namedParam event sent.payload ∧
          call.actionid = event.actionid ∧ ReadsUri namedParam event call :=
  ⟨by decide, site_forwards rfl pageServed_reaches⟩

/-- The page that the worker made is the one that is shown. -/
theorem site_serves_page : pageServed.fcgi.finished = [(0, okText)] ∧
    Response namedParam caller pageServed 0 okText :=
  ⟨rfl, site_serves rfl pageServed_reaches 0 okText (List.mem_singleton_self _)⟩

end ModBus
