import ModBus.FastCgi

/-! Each HTTP request that the FastCGI module accepts waits for its reply or has
been finished, and a reply finishes the request it is for. -/

namespace ModBus

open Libc Czmq Transition

variable {fcgxGetParam : String → List String → Option String} {fcgi next : FastCgi}
  {event : Upstream} {payload : Option Object}

def topActionid : Object → Option String
  | .map kvs => kvs.findSome? fun
      | (.raw key, .raw text) => if key = "actionid" then some text else none
      | _ => none
  | _ => none

/-- The text of the first entry, nested maps included, whose key begins
`actionid`. -/
def addressed (object : Object) : Option String :=
  match (entriesOf object).find? (answersTo "actionid") with
  | some (_, .raw text) => some (cString text)
  | _ => none

def SentWith (fcgi : FastCgi) (request : Nat) (actionid : String) : Prop :=
  ∃ message, (request, message) ∈ fcgi.sent ∧ topActionid message = some actionid

def Awaits (fcgi : FastCgi) (request : Nat) : Prop :=
  ∃ actionid, SentWith fcgi request actionid ∧ fcgi.rqList.lookup actionid = some request

def timesFinished (fcgi : FastCgi) (request : Nat) : Nat :=
  (fcgi.finished.map Prod.fst).count request

structure Correlated (fcgi : FastCgi) : Prop where
  own : ∀ actionid request, fcgi.rqList.lookup actionid = some request →
    SentWith fcgi request actionid
  settled : ∀ request < fcgi.accepted, (Awaits fcgi request ∧ timesFinished fcgi request = 0) ∨
    ((∀ actionid, fcgi.rqList.lookup actionid ≠ some request) ∧ timesFinished fcgi request = 1)

def AnsweredOnly (fcgi : FastCgi) (event : FcgiEvent) (next : FastCgi) : Prop :=
  ∀ object actionid, event = .zmq (some object) → topActionid object = some actionid →
    (∀ request, SentWith fcgi request actionid → timesFinished next request = 1) ∧
    (∀ request, ¬ SentWith fcgi request actionid →
      timesFinished next request = timesFinished fcgi request)

def Packs (fcgxGetParam : String → List String → Option String) (event : Upstream) : Prop :=
  event.initRequest = 0 ∧ 0 ≤ event.acceptR ∧
    ∃ requestUri, fcgxGetParam "REQUEST_URI" event.envp = some requestUri ∧
      4 ≤ (uriTokens requestUri).length

def Answerable (fcgxGetParam : String → List String → Option String) (fcgi : FastCgi) :
    FcgiEvent → Prop
  | .upstream event => Packs fcgxGetParam event → event.zmsgSend = 0
  | .zmq none => True
  | .zmq (some object) => ∀ actionid, topActionid object = some actionid →
      (addressed object).bind fcgi.rqList.lookup = fcgi.rqList.lookup actionid

inductive UpstreamTurn (fcgxGetParam : String → List String → Option String) (fcgi : FastCgi)
    (event : Upstream) : FastCgi → Prop
  | ignored (idle : ¬ Packs fcgxGetParam event) : UpstreamTurn fcgxGetParam fcgi event fcgi
  | refused (idle : ¬ Packs fcgxGetParam event) (issued : List String) (out : String)
      (grows : fcgi.issued ⊆ issued) :
      UpstreamTurn fcgxGetParam fcgi event
        ({ fcgi.accept with issued := issued }.finish fcgi.accepted out)
  | sent (packs : Packs fcgxGetParam event) (took : event.zmsgSend = 0) (message : Object)
      (named : topActionid message = some event.actionid) :
      UpstreamTurn fcgxGetParam fcgi event
        ((fcgi.accept.issue event.actionid).store event.actionid fcgi.accepted message)
  | dropped (packs : Packs fcgxGetParam event) (failed : event.zmsgSend ≠ 0) :
      UpstreamTurn fcgxGetParam fcgi event (fcgi.accept.issue event.actionid)

theorem topActionid_packRequest (command module function version actionid : String)
    (parameters : List (Object × Object)) :
    topActionid (packRequest command module function version actionid parameters) =
      some actionid := rfl

theorem four_tokens {tokens : List String} (enough : 4 ≤ tokens.length) :
    ∃ command module function version more,
      tokens = command :: module :: function :: version :: more := by
  match tokens, enough with
  | command :: module :: function :: version :: more, _ =>
      exact ⟨command, module, function, version, more, rfl⟩

theorem upstreamEvent_turn (ran : upstreamEvent fcgxGetParam fcgi event = .ok next) :
    UpstreamTurn fcgxGetParam fcgi event next := by
  unfold upstreamEvent at ran
  split at ran
  · rename_i failed
    cases ran
    exact .ignored fun packs => failed packs.1
  · rename_i initialised
    split at ran
    · rename_i failed
      cases ran
      exact .ignored fun packs => absurd packs.2.1 (by omega)
    · rename_i accepted
      split at ran
      · rename_i missing
        cases ran
        refine .refused ?_ _ _ (List.Subset.refl _)
        rintro ⟨_, _, requestUri, given, _⟩
        rw [missing] at given
        cases given
      · rename_i requestUri given
        split at ran
        · cases ran
        · split at ran
          · rename_i command module function version more tokens
            have packs : Packs fcgxGetParam event :=
              ⟨by omega, by omega, requestUri, given, by simp [tokens]⟩
            obtain ⟨parameters, _, ran⟩ := bind_ok.mp ran
            split at ran
            · rename_i took
              cases ran
              exact .sent packs took _ (topActionid_packRequest ..)
            · rename_i failed
              cases ran
              exact .dropped packs failed
          · rename_i short
            cases ran
            refine .refused ?_ _ _ (List.subset_append_left _ _)
            rintro ⟨_, _, other, same, enough⟩
            rw [given] at same
            cases same
            obtain ⟨command, module, function, version, more, tokens⟩ := four_tokens enough
            exact short command module function version more tokens

def foundText : Found → Option String
  | .text text => some text
  | _ => none

theorem addressed_found {object : Object} {found? : Option Found}
    (searched : mLookup object "actionid" = .ok found?) :
    addressed object = found?.bind foundText := by
  have first := mLookup_entries "actionid" object found? searched
  rw [addressed]
  cases matched : (entriesOf object).find? (answersTo "actionid") with
  | none =>
      rw [matched] at first
      rw [first]
      rfl
  | some entry =>
      obtain ⟨name, value⟩ := entry
      rw [matched] at first
      rw [first]
      cases value <;> rfl

theorem zmqEvent_cases (ran : zmqEvent fcgi payload = .ok next) :
    (next = fcgi ∧ ∀ object, payload = some object →
      (addressed object).bind fcgi.rqList.lookup = none) ∨
    ∃ object actionid request out, payload = some object ∧
      addressed object = some actionid ∧ fcgi.rqList.lookup actionid = some request ∧
      next = fcgi.answer actionid request out := by
  cases payload with
  | none =>
      cases ran
      exact .inl ⟨rfl, by simp⟩
  | some object =>
      obtain ⟨found?, searched, ran⟩ := bind_ok.mp ran
      have names := addressed_found searched
      split at ran
      · cases ran
        refine .inl ⟨rfl, ?_⟩
        rintro _ ⟨⟩
        rw [names]
        rfl
      · rename_i actionid
        split at ran
        · rename_i unknown
          cases ran
          refine .inl ⟨rfl, ?_⟩
          rintro _ ⟨⟩
          rw [names]
          exact unknown
        · rename_i request stored
          obtain ⟨out, _, ran⟩ := bind_ok.mp ran
          cases ran
          exact .inr ⟨object, actionid, request, out, rfl, names, stored, rfl⟩
      · cases ran

/-! What the requests, their messages and their actionids have to do with each
other. -/

structure Paired (fcgi : FastCgi) : Prop extends Correlated fcgi where
  known : ∀ request actionid, SentWith fcgi request actionid →
    request < fcgi.accepted ∧ actionid ∈ fcgi.issued
  single : ∀ request first second, SentWith fcgi request first →
    SentWith fcgi request second → first = second
  distinct : ∀ first second actionid, SentWith fcgi first actionid →
    SentWith fcgi second actionid → first = second
  unborn : ∀ request, fcgi.accepted ≤ request → timesFinished fcgi request = 0

theorem paired_initial : Paired {} where
  own _ _ stored := by cases stored
  settled _ accepted := by cases accepted
  known _ _ sent := by
    obtain ⟨_, member, _⟩ := sent
    cases member
  single _ _ _ sent := by
    obtain ⟨_, member, _⟩ := sent
    cases member
  distinct _ _ _ sent := by
    obtain ⟨_, member, _⟩ := sent
    cases member
  unborn _ _ := rfl

theorem timesFinished_finish (fcgi : FastCgi) (request other : Nat) (out : String) :
    timesFinished (fcgi.finish request out) other =
      timesFinished fcgi other + if other = request then 1 else 0 := by
  by_cases same : other = request
  · subst same
    simp [timesFinished, FastCgi.finish]
  · have different : request ≠ other := fun equal => same equal.symm
    simp [timesFinished, FastCgi.finish, same, different]

theorem sentWith_store {message : Object} {new : Nat} {actionid : String}
    (named : topActionid message = some actionid) (request : Nat) (other : String) :
    SentWith (fcgi.store actionid new message) request other ↔
      SentWith fcgi request other ∨ (request = new ∧ other = actionid) := by
  constructor
  · rintro ⟨found, member, carries⟩
    rw [FastCgi.store, List.mem_append, List.mem_singleton, Prod.mk.injEq] at member
    rcases member with old | ⟨rfl, rfl⟩
    · exact .inl ⟨found, old, carries⟩
    · rw [named, Option.some.injEq] at carries
      exact .inr ⟨rfl, carries.symm⟩
  · rintro (⟨found, old, carries⟩ | ⟨rfl, rfl⟩)
    · exact ⟨found, List.mem_append_left _ old, carries⟩
    · exact ⟨message, List.mem_append_right _ (List.mem_singleton_self _), named⟩

theorem Paired.stored (paired : Paired fcgi) {actionid : String} {request : Nat}
    (found : fcgi.rqList.lookup actionid = some request) :
    request < fcgi.accepted ∧ timesFinished fcgi request = 0 := by
  have born := (paired.known _ _ (paired.own _ _ found)).1
  refine ⟨born, ?_⟩
  rcases paired.settled request born with ⟨_, unfinished⟩ | ⟨absent, _⟩
  · exact unfinished
  · exact absurd found (absent actionid)

theorem Paired.sent (paired : Paired fcgi) {actionid : String} {request : Nat}
    (sent : SentWith fcgi request actionid) :
    fcgi.rqList.lookup actionid = some request ∨ timesFinished fcgi request = 1 := by
  rcases paired.settled request (paired.known _ _ sent).1 with
    ⟨⟨other, otherSent, found⟩, _⟩ | ⟨_, finished⟩
  · rw [paired.single _ _ _ sent otherSent]
    exact .inl found
  · exact .inr finished

theorem Paired.refused (paired : Paired fcgi) {issued : List String}
    (grows : fcgi.issued ⊆ issued) (out : String) :
    Paired ({ fcgi.accept with issued := issued }.finish fcgi.accepted out) := by
  have times := fun other => timesFinished_finish fcgi fcgi.accepted other out
  constructor
  case toCorrelated =>
    refine ⟨paired.own, ?_⟩
    intro request born
    rcases Nat.lt_succ_iff_lt_or_eq.mp born with old | rfl
    · have same := times request
      rw [if_neg (by omega), Nat.add_zero] at same
      rcases paired.settled request old with ⟨waits, unfinished⟩ | ⟨absent, finished⟩
      · exact .inl ⟨waits, same.trans unfinished⟩
      · exact .inr ⟨absent, same.trans finished⟩
    · refine .inr ⟨?_, ?_⟩
      · intro actionid found
        have := (paired.stored found).1
        omega
      · have once := times fcgi.accepted
        rw [if_pos rfl, paired.unborn _ (Nat.le_refl _)] at once
        exact once
  case known =>
    intro request actionid sent
    obtain ⟨born, given⟩ := paired.known request actionid sent
    exact ⟨Nat.lt_succ_of_lt born, grows given⟩
  case single => exact paired.single
  case distinct => exact paired.distinct
  case unborn =>
    intro request later
    have later : fcgi.accepted < request := later
    have same := times request
    rw [if_neg (by omega), paired.unborn _ (by omega)] at same
    exact same

theorem Paired.stores (paired : Paired fcgi) {actionid : String} {message : Object}
    (fresh : actionid ∉ fcgi.issued) (named : topActionid message = some actionid) :
    Paired ((fcgi.accept.issue actionid).store actionid fcgi.accepted message) := by
  have unused : ∀ request, ¬ SentWith fcgi request actionid :=
    fun request sent => fresh (paired.known request actionid sent).2
  have unborn : ∀ other, ¬ SentWith fcgi fcgi.accepted other :=
    fun other sent => Nat.lt_irrefl _ (paired.known _ other sent).1
  have free : actionid ∉ fcgi.rqList := by
    intro member
    obtain ⟨request, found⟩ := ZHash.lookup_of_mem member
    exact unused request (paired.own _ _ found)
  have lookup : ∀ other,
      ((fcgi.accept.issue actionid).store actionid fcgi.accepted message).rqList.lookup other =
        if other = actionid then some fcgi.accepted else fcgi.rqList.lookup other := by
    intro other
    have inserted := ZHash.lookup_insertNew fcgi.rqList actionid other fcgi.accepted
    simp only [free, not_false_eq_true, and_true] at inserted
    exact inserted
  have sends : ∀ request other,
      SentWith ((fcgi.accept.issue actionid).store actionid fcgi.accepted message) request other ↔
        SentWith fcgi request other ∨ (request = fcgi.accepted ∧ other = actionid) :=
    sentWith_store named
  constructor
  case toCorrelated =>
    constructor
    · intro other request found
      rw [lookup] at found
      rw [sends]
      split at found
      · cases found
        exact .inr ⟨rfl, ‹_›⟩
      · exact .inl (paired.own _ _ found)
    · intro request born
      rcases Nat.lt_succ_iff_lt_or_eq.mp born with old | rfl
      · rcases paired.settled request old with ⟨⟨other, sent, found⟩, unfinished⟩ |
          ⟨absent, finished⟩
        · refine .inl ⟨⟨other, (sends _ _).mpr (.inl sent), ?_⟩, unfinished⟩
          rw [lookup, if_neg (fun same : other = actionid => unused request (same ▸ sent))]
          exact found
        · refine .inr ⟨?_, finished⟩
          intro other
          rw [lookup]
          split
          · rw [ne_eq, Option.some.injEq]
            omega
          · exact absent other
      · refine .inl ⟨⟨actionid, (sends _ _).mpr (.inr ⟨rfl, rfl⟩), ?_⟩, ?_⟩
        · rw [lookup, if_pos rfl]
        · exact paired.unborn _ (Nat.le_refl _)
  case known =>
    intro request other sent
    rcases (sends _ _).mp sent with old | ⟨rfl, rfl⟩
    · obtain ⟨born, given⟩ := paired.known request other old
      exact ⟨Nat.lt_succ_of_lt born, List.mem_append_left _ given⟩
    · exact ⟨Nat.lt_succ_self _, List.mem_append_right _ (List.mem_singleton_self _)⟩
  case single =>
    intro request first second sent again
    rcases (sends _ _).mp sent with old | ⟨rfl, rfl⟩ <;>
      rcases (sends _ _).mp again with older | ⟨new, rfl⟩
    · exact paired.single _ _ _ old older
    · exact absurd (new ▸ old) (unborn _)
    · exact absurd older (unborn _)
    · rfl
  case distinct =>
    intro first second other sent again
    rcases (sends _ _).mp sent with old | ⟨rfl, rfl⟩ <;>
      rcases (sends _ _).mp again with older | ⟨rfl, new⟩
    · exact paired.distinct _ _ _ old older
    · exact absurd (new ▸ old) (unused _)
    · exact absurd older (unused _)
    · rfl
  case unborn =>
    intro request later
    exact paired.unborn request (Nat.le_of_succ_le later)

theorem Paired.answered (paired : Paired fcgi) {actionid : String} {request : Nat}
    (found : fcgi.rqList.lookup actionid = some request) (out : String) :
    Paired (fcgi.answer actionid request out) := by
  have times := fun other => timesFinished_finish fcgi request other out
  have own := paired.own _ _ found
  constructor
  case toCorrelated =>
    constructor
    · intro other waiting kept
      exact paired.own _ _ (ZHash.lookup_erase_some.mp kept).2
    · intro other born
      by_cases same : other = request
      · subst same
        refine .inr ⟨?_, ?_⟩
        · intro key kept
          obtain ⟨different, stored⟩ := ZHash.lookup_erase_some.mp kept
          exact different (paired.single _ _ _ (paired.own _ _ stored) own)
        · have once := times other
          rw [if_pos rfl, (paired.stored found).2] at once
          exact once
      · have kept := times other
        rw [if_neg same, Nat.add_zero] at kept
        rcases paired.settled other born with ⟨⟨key, sent, stored⟩, unfinished⟩ |
          ⟨absent, finished⟩
        · refine .inl ⟨⟨key, sent, ZHash.lookup_erase_some.mpr ⟨?_, stored⟩⟩,
            kept.trans unfinished⟩
          rintro rfl
          rw [found, Option.some.injEq] at stored
          exact same stored.symm
        · refine .inr ⟨?_, kept.trans finished⟩
          intro key again
          exact absent key (ZHash.lookup_erase_some.mp again).2
  case known => exact paired.known
  case single => exact paired.single
  case distinct => exact paired.distinct
  case unborn =>
    intro other later
    have later : fcgi.accepted ≤ other := later
    have born := (paired.stored found).1
    have same := times other
    rw [if_neg (by omega), paired.unborn _ later] at same
    exact same

theorem Paired.not_dropped (paired : Paired fcgi) (issued : List String) :
    ¬ Correlated { fcgi.accept with issued := issued } := by
  intro correlated
  rcases correlated.settled fcgi.accepted (Nat.lt_succ_self _) with
    ⟨⟨actionid, _, found⟩, _⟩ | ⟨_, finished⟩
  · exact Nat.lt_irrefl _ (paired.stored found).1
  · have unfinished := paired.unborn _ (Nat.le_refl _)
    exact absurd (finished.symm.trans unfinished) (by omega)

theorem Paired.upstream (paired : Paired fcgi) (fresh : event.actionid ∉ fcgi.issued)
    (ran : upstreamEvent fcgxGetParam fcgi event = .ok next) :
    (Packs fcgxGetParam event → event.zmsgSend = 0) ∧ Paired next ∨
      ¬ (Packs fcgxGetParam event → event.zmsgSend = 0) ∧ ¬ Correlated next := by
  cases upstreamEvent_turn ran with
  | ignored idle => exact .inl ⟨fun packs => absurd packs idle, paired⟩
  | refused idle issued out grows =>
      exact .inl ⟨fun packs => absurd packs idle, paired.refused grows out⟩
  | sent _ took message named => exact .inl ⟨fun _ => took, paired.stores fresh named⟩
  | dropped packs failed =>
      exact .inr ⟨fun all => failed (all packs), paired.not_dropped _⟩

theorem Paired.zmq (paired : Paired fcgi) (ran : zmqEvent fcgi payload = .ok next) :
    Paired next := by
  rcases zmqEvent_cases ran with ⟨rfl, _⟩ | ⟨_, _, _, out, _, _, found, rfl⟩
  · exact paired
  · exact paired.answered found out

/-- A reply under `actionid` finishes what it should and nothing else exactly if
the search leads to the request that `actionid` stands for. -/
theorem Paired.answers {object : Object} (paired : Paired fcgi)
    (ran : zmqEvent fcgi (some object) = .ok next) (actionid : String) :
    ((∀ request, SentWith fcgi request actionid → timesFinished next request = 1) ∧
      ∀ request, ¬ SentWith fcgi request actionid →
        timesFinished next request = timesFinished fcgi request) ↔
    (addressed object).bind fcgi.rqList.lookup = fcgi.rqList.lookup actionid := by
  rcases zmqEvent_cases ran with ⟨rfl, nothing⟩ | ⟨_, key, request, out, ⟨⟩, names, found, rfl⟩
  · rw [nothing object rfl]
    constructor
    · intro answers
      cases stored : next.rqList.lookup actionid with
      | none => rfl
      | some request =>
          have finished := answers.1 request (paired.own _ _ stored)
          have unfinished := (paired.stored stored).2
          omega
    · intro absent
      refine ⟨?_, fun _ _ => rfl⟩
      intro request sent
      rcases paired.sent sent with stored | finished
      · rw [← absent] at stored
        cases stored
      · exact finished
  · have times := fun other => timesFinished_finish fcgi request other out
    have unfinished := (paired.stored found).2
    rw [names, Option.bind_some, found]
    constructor
    · intro answers
      by_cases sent : SentWith fcgi request actionid
      · rw [← paired.single _ _ _ (paired.own _ _ found) sent, found]
      · have kept := answers.2 request sent
        have once := times request
        rw [if_pos rfl] at once
        exact absurd (once.symm.trans kept) (by omega)
    · intro stored
      have own := paired.own _ _ stored.symm
      constructor
      · intro other sent
        rw [paired.distinct _ _ _ sent own]
        have once := times request
        rw [if_pos rfl, unfinished] at once
        exact once
      · intro other unsent
        have kept := times other
        rw [if_neg (fun same : other = request => unsent (same ▸ own))] at kept
        exact kept

theorem Paired.step {event : FcgiEvent} (paired : Paired fcgi)
    (move : (fastcgi fcgxGetParam).step fcgi event next) :
    Correlated next ∧ AnsweredOnly fcgi event next ↔ Answerable fcgxGetParam fcgi event := by
  obtain ⟨fresh, ran⟩ := move
  cases event with
  | upstream event =>
      rcases paired.upstream fresh ran with ⟨sent, after⟩ | ⟨unsent, lost⟩
      · refine ⟨fun _ => sent, fun _ => ⟨after.toCorrelated, ?_⟩⟩
        rintro _ _ ⟨⟩
      · exact ⟨fun both => absurd both.1 lost, fun sent => absurd sent unsent⟩
  | zmq payload =>
      have after := (paired.zmq ran).toCorrelated
      cases payload with
      | none =>
          refine ⟨fun _ => trivial, fun _ => ⟨after, ?_⟩⟩
          rintro _ _ ⟨⟩
      | some object =>
          constructor
          · rintro ⟨_, answered⟩ actionid top
            exact (paired.answers ran actionid).mp (answered object actionid rfl top)
          · intro agrees
            refine ⟨after, ?_⟩
            rintro _ actionid ⟨⟩ top
            exact (paired.answers ran actionid).mpr (agrees actionid top)

theorem paired_reaches
    (reached : Reaches (fastcgi fcgxGetParam) (Answerable fcgxGetParam) fcgi) :
    Paired fcgi := by
  refine reached.invariant Paired ?_ ?_
  · rintro state rfl
    exact paired_initial
  · rintro state event next allowed ⟨fresh, ran⟩ paired
    cases event with
    | upstream event =>
        rcases paired.upstream fresh ran with ⟨_, after⟩ | ⟨unsent, _⟩
        · exact after
        · exact absurd allowed unsent
    | zmq payload => exact paired.zmq ran

/-- In every run in which each message is sent and each reply found to be for the
request it names, the requests and the replies are correlated. One step that
is otherwise ends that. -/
theorem correlated
    (reached : Reaches (fastcgi fcgxGetParam) (Answerable fcgxGetParam) fcgi) :
    Correlated fcgi ∧ ∀ event next, (fastcgi fcgxGetParam).step fcgi event next →
      (Correlated next ∧ AnsweredOnly fcgi event next ↔ Answerable fcgxGetParam fcgi event) :=
  ⟨(paired_reaches reached).toCorrelated, fun _ _ move => (paired_reaches reached).step move⟩


def callRequest (actionid : String) (zmsgSend : Int) : FcgiEvent :=
  .upstream {
    envp := ["REQUEST_METHOD=GET", "REQUEST_URI=/call/mod/f/1"]
    actionid := actionid
    zmsgSend := zmsgSend }

def callMessage (actionid : String) : Object :=
  packRequest "call" "mod" "f" "1" actionid
    [(.raw "REQUEST_METHOD", .raw "GET"), (.raw "REQUEST_URI", .raw "/call/mod/f/1")]

def callResult (actionid key text : String) : Object :=
  .map [(.raw "command", .raw "result"),
    (.raw "body", .map [(.raw key, .raw text),
      (.raw "result", .array [.positiveInteger 200,
        .array [.raw "Content-Type", .raw "text/plain"], .array [.raw "ok"]])]),
    (.raw "actionid", .raw actionid)]

def okText : String := "Status: 200 OK\r\nContent-Type:text/plain\r\n\r\nok\r\n"

def calledOnce : FastCgi where
  rqList := (∅ : ZHash Nat).insert "call-1" 0
  accepted := 1
  issued := ["call-1"]
  sent := [(0, callMessage "call-1")]

def calledTwice : FastCgi where
  rqList := ((∅ : ZHash Nat).insert "call-1" 0).insert "call-2" 1
  accepted := 2
  issued := ["call-1", "call-2"]
  sent := [(0, callMessage "call-1"), (1, callMessage "call-2")]

def secondAnswered : FastCgi :=
  { calledTwice with
    rqList := (∅ : ZHash Nat).insert "call-1" 0
    finished := [(1, okText)] }

theorem calledTwice_run {guard : FastCgi → FcgiEvent → Prop}
    (first : guard {} (callRequest "call-1" 0))
    (second : guard calledOnce (callRequest "call-2" 0)) :
    Run (fastcgi namedParam) guard {} calledTwice := by
  have one : (fastcgi namedParam).step {} (callRequest "call-1" 0) calledOnce :=
    ⟨List.not_mem_nil, rfl⟩
  have two : (fastcgi namedParam).step calledOnce (callRequest "call-2" 0) calledTwice :=
    ⟨(by decide : "call-2" ∉ ["call-1"]), rfl⟩
  exact (Run.single first one).snoc second two

theorem correlated_secondAnswered :
    Correlated secondAnswered ∧ ∀ event next,
      (fastcgi namedParam).step secondAnswered event next →
      (Correlated next ∧ AnsweredOnly secondAnswered event next ↔
        Answerable namedParam secondAnswered event) := by
  have called : Run (fastcgi namedParam) (Answerable namedParam) {} calledTwice :=
    calledTwice_run (fun _ => rfl) (fun _ => rfl)
  have names : Answerable namedParam calledTwice
      (.zmq (some (callResult "call-2" "seqno" "0"))) := by
    intro actionid top
    cases Option.some.inj top
    rfl
  exact correlated ⟨{}, rfl, called.snoc names ⟨trivial, rfl⟩⟩

/-- A request whose message `zmsg_send` does not take is forgotten, and a reply
to the first call finishes the second when a key of its body begins `actionid`. -/
theorem uncorrelated :
    (∃ fcgi, Reaches (fastcgi namedParam) anything fcgi ∧ ¬ Correlated fcgi) ∧
    ∃ fcgi event next, Reaches (fastcgi namedParam) anything fcgi ∧
      (fastcgi namedParam).step fcgi event next ∧ ¬ AnsweredOnly fcgi event next := by
  constructor
  · have unsent : (fastcgi namedParam).step {} (callRequest "call-1" (-1))
        { accepted := 1, issued := ["call-1"] } := ⟨List.not_mem_nil, rfl⟩
    exact ⟨_, ⟨{}, rfl, .single trivial unsent⟩, paired_initial.not_dropped ["call-1"]⟩
  · have called : Run (fastcgi namedParam) anything {} calledTwice :=
      calledTwice_run trivial trivial
    refine ⟨calledTwice, .zmq (some (callResult "call-1" "a" "call-2")), secondAnswered,
      ⟨{}, rfl, called⟩, ⟨trivial, rfl⟩, ?_⟩
    intro answered
    have first : SentWith calledTwice 0 "call-1" := ⟨callMessage "call-1", by simp [calledTwice], rfl⟩
    have finished := (answered _ "call-1" rfl rfl).1 0 first
    cases finished

end ModBus
