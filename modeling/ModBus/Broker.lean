import ModBus.Fifo
import ModBus.Simulation

/-! What the fabric is for: a broker, at which a call is taken in, given to a
worker and closed, each of them once at most. -/

namespace ModBus

open Libc Czmq Transition

inductive Stage
  | unborn
  | waiting
  | given (via : String)
  | closed
deriving DecidableEq

structure Docket where
  stage : Stage
  given : Nat
  answered : Nat
deriving DecidableEq

inductive Deed
  | accept
  | give (via : String) (out : Bool)
  | close (out : Bool)
  | dismiss (out : Bool)

def Docket.after (docket : Docket) : Deed → Option Docket
  | .accept => if docket.stage = .unborn then some { docket with stage := .waiting } else none
  | .give via out =>
      if docket.stage = .waiting then
        some { docket with stage := .given via, given := docket.given + out.toNat }
      else none
  | .close out =>
      if docket.stage = .unborn ∨ docket.stage = .closed then none
      else some { docket with stage := .closed, answered := docket.answered + out.toNat }
  | .dismiss out =>
      if docket.stage = .unborn then
        some { docket with stage := .closed, answered := docket.answered + out.toNat }
      else none

def desk : System Docket Deed where
  initial docket := docket = ⟨.unborn, 0, 0⟩
  step docket deed next := docket.after deed = some next

def broker : System (Addr → Docket) (Addr × Deed) := network (fun _ => desk) independent

structure Docket.Sound (docket : Docket) : Prop where
  given : docket.given ≤ 1
  answered : docket.answered ≤ 1
  ungiven : docket.stage = .unborn ∨ docket.stage = .waiting → docket.given = 0
  unanswered : docket.stage ≠ .closed → docket.answered = 0

def answeredBy (sends : List Sent) : List Addr :=
  sends.filterMap fun sent => sent.cause.answers.map Message.addr

def Proxy.entryOf (p : Proxy) (call : Addr) : Option Message :=
  (p.queue.entries.map Sigma.snd).find? fun entry => decide (entry.addr = call)

def Proxy.stage (p : Proxy) (call : Addr) : Stage :=
  match p.entryOf call with
  | some entry => entry.routedVia.elim .waiting .given
  | none => if call < p.brk then .closed else .unborn

def Proxy.docket (p : Proxy) (call : Addr) : Docket :=
  ⟨p.stage call, (p.dispatches call).length, (p.repliesTo call).length⟩

inductive Closes (fresh : Addr) (p q : Proxy) : Prop
  | quiet : answeredBy q.sent = answeredBy p.sent → Closes fresh p q
  | closed {call} : call = fresh ∨ QueuedAt p call → call < q.brk → ¬ QueuedAt q call →
      answeredBy q.sent = answeredBy p.sent ++ [call] → Closes fresh p q

section

variable {conf : Config} {env : Env} {event : Event} {p q r : Proxy}
  {message placed stored entry : Message} {docket next : Docket} {deed : Deed} {call fresh : Addr}
  {key : String}

/-! The broker by itself. -/

theorem Docket.Sound.after (sound : docket.Sound) (move : docket.after deed = some next) :
    next.Sound := by
  obtain ⟨given, answered, ungiven, unanswered⟩ := sound
  cases deed with
  | accept =>
      simp only [Docket.after, Option.ite_none_right_eq_some, Option.some.injEq] at move
      obtain ⟨unborn, rfl⟩ := move
      exact ⟨given, answered, fun _ => ungiven (.inl unborn),
        fun _ => unanswered (by simp [unborn])⟩
  | give via out =>
      simp only [Docket.after, Option.ite_none_right_eq_some, Option.some.injEq] at move
      obtain ⟨waiting, rfl⟩ := move
      have none : docket.given = 0 := ungiven (.inr waiting)
      have bit := Bool.toNat_le out
      exact ⟨by simp only [none]; omega, answered, by simp,
        fun _ => unanswered (by simp [waiting])⟩
  | close out =>
      simp only [Docket.after, Option.ite_none_left_eq_some, Option.some.injEq, not_or] at move
      obtain ⟨⟨_, unclosed⟩, rfl⟩ := move
      have none : docket.answered = 0 := unanswered unclosed
      have bit := Bool.toNat_le out
      exact ⟨given, by simp only [none]; omega, by simp, by simp⟩
  | dismiss out =>
      simp only [Docket.after, Option.ite_none_right_eq_some, Option.some.injEq] at move
      obtain ⟨unborn, rfl⟩ := move
      have none : docket.answered = 0 := unanswered (by simp [unborn])
      have bit := Bool.toNat_le out
      exact ⟨given, by simp only [none]; omega, by simp, by simp⟩

theorem Docket.after_closed (closed : docket.stage = .closed) : docket.after deed = none := by
  cases deed <;> simp [Docket.after, closed]

theorem desk_closed (run : Run desk anything docket next) (closed : docket.stage = .closed) :
    next = docket := by
  induction run with
  | refl => rfl
  | snoc _ _ move ih =>
      have stuck : docket.after _ = some _ := ih ▸ move
      rw [Docket.after_closed closed] at stuck
      cases stuck

theorem broker_sound {dockets : Addr → Docket} (reached : Reaches broker anything dockets)
    (call : Addr) : (dockets call).Sound := by
  refine reached.network_invariant (fun _ docket => docket.Sound) ?_ ?_ call
  · rintro _ _ rfl
    exact ⟨Nat.zero_le _, Nat.zero_le _, fun _ => rfl, fun _ => rfl⟩
  · exact fun dockets call _ _ sound _ move => (sound call).after move

/-! The queue by the addresses of its calls. -/

theorem entryOf_some (found : p.entryOf call = some entry) :
    ∃ key, p.queue.lookup key = some entry ∧ entry.addr = call := by
  obtain ⟨⟨key, stored⟩, member, rfl⟩ := List.mem_map.mp (List.mem_of_find?_eq_some found)
  refine ⟨key, AList.mem_lookup_iff.mpr member, ?_⟩
  simpa using List.find?_some found

theorem entryOf_none : p.entryOf call = none ↔ ¬ QueuedAt p call := by
  rw [Proxy.entryOf, List.find?_eq_none]
  constructor
  · rintro absent ⟨key, entry, found, same⟩
    have member := AList.mem_lookup_iff.mp found
    exact absent entry (List.mem_map.mpr ⟨_, member, rfl⟩) (by simpa using same)
  · intro unqueued entry member
    obtain ⟨⟨key, stored⟩, listed, rfl⟩ := List.mem_map.mp member
    intro same
    exact unqueued ⟨key, stored, AList.mem_lookup_iff.mpr listed, by simpa using same⟩

theorem OnceEach.entryOf (once : OnceEach p) (found : p.queue.lookup key = some entry) :
    p.entryOf entry.addr = some entry := by
  cases looked : p.entryOf entry.addr with
  | none => exact absurd ⟨key, entry, found, rfl⟩ (entryOf_none.mp looked)
  | some other =>
      obtain ⟨here, there, same⟩ := entryOf_some looked
      obtain rfl := once.distinct here key other entry there found same
      rw [found] at there
      exact there.symm

theorem OnceEach.stage (once : OnceEach p) (found : p.queue.lookup key = some entry) :
    p.stage entry.addr = entry.routedVia.elim .waiting .given := by
  simp [Proxy.stage, once.entryOf found]

theorem stage_unqueued (unqueued : ¬ QueuedAt p call) :
    p.stage call = if call < p.brk then .closed else .unborn := by
  simp [Proxy.stage, entryOf_none.mpr unqueued]

theorem stage_closed (closed : p.stage call = .closed) : ¬ QueuedAt p call := by
  intro queued
  cases found : p.entryOf call with
  | none => exact entryOf_none.mp found queued
  | some entry => cases routed : entry.routedVia <;> simp [Proxy.stage, found, routed] at closed

theorem OnceEach.queued_below (once : OnceEach p) (queued : QueuedAt p call) : call < p.brk := by
  obtain ⟨key, entry, found, rfl⟩ := queued
  exact once.below key entry found

/-! Who is answered. -/

theorem answeredBy_append (sends more : List Sent) :
    answeredBy (sends ++ more) = answeredBy sends ++ answeredBy more :=
  List.filterMap_append

theorem Sends.answeredBy (sends : Sends (fun sent => sent.cause.answers = none) p q) :
    answeredBy q.sent = answeredBy p.sent := by
  obtain ⟨more, grown, none⟩ := sends
  have silent : ModBus.answeredBy more = [] := by
    refine List.filterMap_eq_nil_iff.mpr fun sent member => ?_
    rw [none sent member]
    rfl
  rw [grown, answeredBy_append, silent, List.append_nil]

theorem sendMessage_answered (env : Env) (stored : Message) (payload : Object) (identity : String)
    (p : Proxy) :
    answeredBy (sendMessage env (.reply stored) payload identity p).2.sent = answeredBy p.sent ∨
      answeredBy (sendMessage env (.reply stored) payload identity p).2.sent =
        answeredBy p.sent ++ [stored.addr] := by
  rcases sendMessage_cases env (.reply stored) payload identity p with ⟨_, same⟩ | ⟨dest, _, same⟩
  · rw [same]
    exact Or.inl rfl
  · rw [same]
    exact Or.inr (answeredBy_append _ _)

theorem queuedAt_calm (calm : Calm p q) (queued : QueuedAt q call) : QueuedAt p call := by
  obtain ⟨key, after, found, rfl⟩ := queued
  obtain ⟨before, there, carried⟩ := calm.queue key after found
  exact ⟨key, before, there, carried.addr.symm⟩

theorem queuedAt_congr (queue : q.queue = p.queue) : QueuedAt q call ↔ QueuedAt p call := by
  simp [QueuedAt, queue]

theorem Closes.calm (closes : Closes fresh p q) (calm : Calm q r)
    (sends : Sends (fun sent => sent.cause.answers = none) q r) : Closes fresh p r := by
  cases closes with
  | quiet same => exact .quiet (sends.answeredBy.trans same)
  | closed from' below gone grown =>
      exact .closed from' (calm.brk ▸ below) (fun queued => gone (queuedAt_calm calm queued))
        (sends.answeredBy.trans grown)

theorem Closes.frame (closes : Closes fresh q r) (queue : q.queue = p.queue)
    (sent : q.sent = p.sent) : Closes fresh p r := by
  cases closes with
  | quiet same => exact .quiet (sent ▸ same)
  | closed from' below gone grown =>
      exact .closed (from'.imp_right (queuedAt_congr queue).mp) below gone (sent ▸ grown)

theorem reply_closes (once : OnceEach p) (found : p.queue.lookup key = some stored)
    (payload : Object) (identity : String) :
    Closes fresh p ((sendMessage env (.reply stored) payload identity p).2.deleteCall key) := by
  have gone : ¬ QueuedAt ((sendMessage env (.reply stored) payload identity p).2.deleteCall key)
      stored.addr := by
    rintro ⟨other, entry, there, same⟩
    rw [deleteCall_queue, sendMessage_queue, ZHash.lookup_erase] at there
    split at there
    · cases there
    · rename_i different
      exact different (once.distinct other key entry stored there found same)
  have below := once.below key stored found
  rcases sendMessage_answered env stored payload identity p with
    same | grown
  · exact .quiet same
  · exact .closed (.inr ⟨key, stored, found, rfl⟩) (by simpa using below) gone grown

theorem Returned.closes {middle : Proxy} (registry : Registry p) (once : OnceEach p)
    (found : p.queue.lookup message.actionid = some stored)
    (returned : Returned env message stored p middle) : Closes fresh p middle := by
  have key := (registry.calls _ stored found).actionid
  cases returned with
  | caller own =>
      rw [answerCaller, key]
      exact reply_closes once found _ _
  | fabric foreign near =>
      rw [answerFabric, key]
      split
      · exact reply_closes once found _ _
      · exact .quiet rfl
  | nowhere foreign far => exact .quiet rfl

theorem putBack_noReply {identity : String} (run : putBack env identity p = .ok q) :
    Sends (fun sent => sent.cause.answers = none) p q :=
  putBack_sends (placesOnly_noReply p) run

theorem processResult_closes (registry : Registry p) (once : OnceEach p)
    (run : processResult env message p = .ok q) : Closes fresh p q := by
  rcases processResult_ok run with ⟨_, brought⟩ |
    ⟨stored, middle, found, returned, ⟨_, run⟩ | ⟨_, rfl⟩⟩
  · exact .quiet (by rw [(processIfaceList_extends registry brought).same])
  · exact (returned.closes registry once found).calm (putBack_calm run) (putBack_noReply run)
  · exact returned.closes registry once found

theorem processException_closes (registry : Registry p) (once : OnceEach p)
    (run : processException env message p = .ok q) : Closes fresh p q := by
  rcases processException_ok run with ⟨rfl, _⟩ | ⟨stored, found, ⟨_, _, _, rc, placement⟩ |
    ⟨middle, returned, ⟨_, run, _⟩ | ⟨_, rfl, _⟩⟩⟩
  · exact .quiet rfl
  · exact .quiet (placeQueued_sends (placesOnly_noReply p) placement).answeredBy
  · exact (returned.closes registry once found).calm (putBack_calm run) (putBack_noReply run)
  · exact returned.closes registry once found

theorem refuse_closes {text : String} {code : Int32} (born : message.addr < p.brk)
    (unqueued : ¬ QueuedAt p message.addr) :
    Closes message.addr p (refuse env message text code p) := by
  unfold refuse
  rcases sendMessage_answered env message _ message.identity p with
    same | grown
  · exact .quiet same
  · refine .closed (.inl rfl) (by simpa using born) ?_ grown
    rwa [queuedAt_congr (sendMessage_queue _ _ _ _ _)]

theorem processCall_closes (born : message.addr < p.brk) (unqueued : ¬ QueuedAt p message.addr)
    (run : processCall env message p = .ok q) : Closes message.addr p q := by
  obtain ⟨call, read, ends⟩ := processCall_ok run
  have own : call.addr = message.addr := by rw [readCall_ok read]
  rw [← own] at born unqueued ⊢
  rcases ends with ⟨_, rfl⟩ | ⟨_, rc, placed, middle, placement, outcome⟩
  · exact refuse_closes born unqueued
  · have placed' := placeCall_outcome placement
    obtain ⟨calm, queue⟩ := placed'.calm
    have same : placed.addr = call.addr := placed'.carried.addr
    rcases outcome with ⟨_, rfl⟩ | ⟨_, _, rfl⟩
    · have refused : Closes placed.addr middle
          (refuse env placed "No modules found" modulesBusy middle) := by
        refine refuse_closes (by rw [same, calm.brk]; exact born) ?_
        rwa [same, queuedAt_congr queue]
      rw [same] at refused
      cases refused with
      | quiet silent => exact .quiet (silent.trans placed'.noReply.answeredBy)
      | closed from' below gone grown =>
          exact .closed (from'.imp_right (queuedAt_congr queue).mp) below gone
            (grown.trans (by rw [placed'.noReply.answeredBy]))
    · exact .quiet placed'.noReply.answeredBy

theorem step_closes (registry : Registry p) (once : OnceEach p)
    (run : p.step conf env event = .ok q) : Closes p.brk p q := by
  cases step_handled run with
  | unreadable _ same => exact .quiet (same ▸ rfl)
  | @command message read commanded =>
      have arrives := Event.message_arrives read
      have registry' := registry.arrived message
      have once' := once.arrived message
      refine Closes.frame (q := p.arrived message) ?_ (arrived_queue message p)
        (arrived_sent message p)
      cases commanded with
      | ignored _ same => exact .quiet (same ▸ rfl)
      | request _ requested =>
          exact .quiet (processRequest_sends (fun _ _ none _ => none) requested).answeredBy
      | result _ answered => exact processResult_closes registry' once' answered
      | call _ called =>
          rw [← arrives.addr]
          refine processCall_closes (by rw [arrives.addr, arrived_brk]; exact Nat.lt_succ_self _) ?_
            called
          rw [arrives.addr, queuedAt_congr (arrived_queue message p)]
          exact fun queued => Nat.lt_irrefl _ (once.queued_below queued)
      | exception _ answered => exact processException_closes registry' once' answered
      | introduce _ introduced =>
          exact .quiet (processIntroduce_sends (fun _ _ none _ => none) registry'
            introduced).answeredBy
  | procman _ notified =>
      rcases sProcmanEvent_ok notified with same | ⟨key, mod, _, _, same⟩
      · exact .quiet (same ▸ rfl)
      · exact .quiet (by rw [noticed_same same])
  | @queueItem key _ run =>
      rcases processQueueItem_ok run with ⟨same, _⟩ | ⟨call, msg, found, _, same⟩
      · exact .quiet (by rw [same])
      · rw [same]
        have queue := unstuck_queue conf env call p
        have once' : OnceEach (p.unstuck conf env call) :=
          once.frame (fun _ _ found => queue ▸ found) (.of_eq (unstuck_sent _ _ _ _))
            (Nat.le_of_eq (unstuck_brk _ _ _ _).symm)
        exact Closes.frame (reply_closes once' (queue ▸ found) msg call.identity) queue
          (unstuck_sent _ _ _ _)
  | @fabItem key _ run =>
      rcases getIfaceListEventItem_ok run with same | ⟨fab, _, ⟨_, same⟩ | ⟨_, same⟩⟩
      · exact .quiet (by rw [same])
      · refine .quiet (Sends.answeredBy ?_)
        rw [same]
        exact Sends.sendMessage _ p fun _ _ _ => rfl
      · refine .quiet ?_
        rw [same]
        rfl
  | beacon _ announced =>
      rcases sBeaconEvent_ok announced with same | ⟨identity, _, _, same⟩
      · exact .quiet (same ▸ rfl)
      · exact .quiet (same ▸ rfl)

/-! One event is a run of the broker. -/

def AnsweredBelow (p : Proxy) : Prop := ∀ call ∈ answeredBy p.sent, call < p.brk

theorem repliesTo_length (p : Proxy) (call : Addr) :
    (p.repliesTo call).length = (answeredBy p.sent).count call := by
  rw [Proxy.repliesTo, answeredBy, List.count, List.countP_filterMap, List.countP_eq_length_filter]
  congr 2
  funext sent
  cases sent.cause.answers.map Message.addr <;> simp [Bool.beq_eq_decide_eq]

theorem Closes.replies (closes : Closes fresh p q) (call : Addr) :
    ∃ out : Bool, (q.repliesTo call).length = (p.repliesTo call).length + out.toNat ∧
      (out = true → (call = fresh ∨ QueuedAt p call) ∧ ¬ QueuedAt q call) := by
  rw [repliesTo_length, repliesTo_length]
  cases closes with
  | quiet same => exact ⟨false, by rw [same]; rfl, by simp⟩
  | @closed answered from' _ gone grown =>
      rw [grown, List.count_append]
      by_cases same : answered = call
      · subst same
        exact ⟨true, by simp, fun _ => ⟨from', gone⟩⟩
      · exact ⟨false, by simp [same], by simp⟩

theorem AnsweredBelow.step (answeredBelow : AnsweredBelow p) (registry : Registry p) (once : OnceEach p)
    (run : p.step conf env event = .ok q) : AnsweredBelow q := by
  have brk := step_brk registry run
  intro call member
  cases step_closes registry once run with
  | quiet same => exact Nat.lt_of_lt_of_le (answeredBelow call (same ▸ member)) brk
  | closed _ below _ grown =>
      rw [grown] at member
      rcases List.mem_append.mp member with before | now
      · exact Nat.lt_of_lt_of_le (answeredBelow call before) brk
      · rw [List.mem_singleton.mp now]
        exact below

theorem step_routed (registry : Registry p) (run : p.step conf env event = .ok q) :
    Sends (fun sent => ∀ call, sent.cause.dispatched = some call → call.routedVia ≠ none) p q := by
  refine step_sends ?_ ?_ registry ?_ ?_ run
  · intro sent plain _ _ call passed
    rw [plain] at passed
    cases passed
  · intro sent call answers _ other passed
    rw [answer_undispatched sent call answers] at passed
    cases passed
  · intro message middle key before rc placed after _ _ outcome
    refine outcome.sends ?_
    intro iface via sent _ _ routed dispatched _ _ call passed
    rw [dispatched] at passed
    cases passed
    simp [routed]
  · intro message call rc placed middle _ _ _ outcome
    refine outcome.sends ?_
    intro iface via sent _ _ routed dispatched _ _ other passed
    rw [dispatched] at passed
    cases passed
    simp [routed]

/-- Nothing but a waiting call that stays in the queue is sent on. -/
theorem step_ungiven (registry : Registry p) (run : p.step conf env event = .ok q)
    (old : call ≠ p.brk) (idle : ¬ (WaitsAt p call ∧ QueuedAt q call)) :
    q.dispatches call = p.dispatches call := by
  obtain ⟨more, grown, serves⟩ := step_served registry run
  refine dispatches_others grown fun sent member same => idle (serves call ?_ old)
  exact mem_servedBy.mpr ⟨sent, member, same⟩

theorem docket_unborn (once : OnceEach p) (answeredBelow : AnsweredBelow p) (high : p.brk ≤ call) :
    p.docket call = ⟨.unborn, 0, 0⟩ := by
  have unqueued : ¬ QueuedAt p call := fun queued =>
    Nat.lt_irrefl _ (Nat.lt_of_lt_of_le (once.queued_below queued) high)
  have unanswered : call ∉ answeredBy p.sent := fun member =>
    Nat.lt_irrefl _ (Nat.lt_of_lt_of_le (answeredBelow call member) high)
  have replies : (p.repliesTo call).length = 0 := by
    rw [repliesTo_length]
    exact List.count_eq_zero_of_not_mem unanswered
  rw [Proxy.docket, stage_unqueued unqueued, once.unborn call high, replies,
    if_neg (Nat.not_lt.mpr high)]
  rfl

theorem bit_of_le_one {count : Nat} (low : count ≤ 1) : ∃ out : Bool, out.toNat = count := by
  rcases Nat.le_one_iff_eq_zero_or_eq_one.mp low with rfl | rfl
  · exact ⟨false, rfl⟩
  · exact ⟨true, rfl⟩

theorem deed_run (deed : Deed) (move : docket.after deed = some next) : Run desk anything docket next :=
  .single trivial move

theorem desk_waits : Run desk anything ⟨.unborn, 0, 0⟩ ⟨.waiting, 0, 0⟩ :=
  deed_run .accept rfl

theorem desk_given (via : String) (out : Bool) :
    Run desk anything ⟨.unborn, 0, 0⟩ ⟨.given via, out.toNat, 0⟩ :=
  desk_waits.trans (deed_run (.give via out) (by simp [Docket.after]))

theorem step_gives (registry : Registry p) (once : OnceEach p)
    (run : p.step conf env event = .ok q) (fresh : call = p.brk)
    (given : (q.dispatches call).length = 1) :
    ∃ sent placed via, q.dispatches call = [sent] ∧ sent.cause.dispatched = some placed ∧
      placed.routedVia = some via := by
  obtain ⟨more, grown, routes⟩ := step_routed registry run
  have added := dispatches_append grown call
  rw [once.unborn call (Nat.le_of_eq fresh.symm), List.nil_append] at added
  obtain ⟨sent, only⟩ := List.length_eq_one_iff.mp given
  have member : sent ∈ more.filter fun sent =>
      decide (sent.cause.dispatched.map Message.addr = some call) := by
    rw [← added, only]
    exact List.mem_singleton_self sent
  obtain ⟨here, passes⟩ := List.mem_filter.mp member
  obtain ⟨placed, dispatched, _⟩ := Option.map_eq_some_iff.mp (of_decide_eq_true passes)
  obtain ⟨via, routed⟩ := Option.ne_none_iff_exists'.mp (routes sent here placed dispatched)
  exact ⟨sent, placed, via, only, dispatched, routed⟩

theorem desk_enters (registry : Registry p) (once : OnceEach p) (answeredBelow : AnsweredBelow p)
    (run : p.step conf env event = .ok q) (fresh : call = p.brk) (born : call < q.brk) :
    Run desk anything (p.docket call) (q.docket call) := by
  have once' := once.step registry run
  obtain ⟨replied, replies, answered⟩ := (step_closes registry once run).replies call
  have unborn : p.docket call = ⟨.unborn, 0, 0⟩ :=
    docket_unborn once answeredBelow (Nat.le_of_eq fresh.symm)
  have none : (p.repliesTo call).length = 0 := congrArg Docket.answered unborn
  obtain ⟨sent, sends⟩ := bit_of_le_one (once'.once call)
  rw [none, Nat.zero_add] at replies
  rw [unborn, Proxy.docket, replies, ← sends]
  by_cases queued : QueuedAt q call
  · have silent : replied = false := by
      cases replied with
      | false => rfl
      | true => exact absurd queued (answered rfl).2
    obtain ⟨key, entry, found, rfl⟩ := queued
    rw [once'.stage found, silent]
    cases routed : entry.routedVia with
    | none =>
        rw [once'.waiting key entry found routed] at sends
        rw [sends]
        exact desk_waits
    | some via => exact desk_given via sent
  · rw [stage_unqueued queued, if_pos born]
    cases sent with
    | false => exact deed_run (.dismiss replied) (by simp [Docket.after])
    | true =>
        -- It was sent on and is gone: another call is queued under its `actionid`.
        obtain ⟨_, _, via, _⟩ := step_gives registry once run fresh sends.symm
        exact (desk_given via true).trans (deed_run (.close replied) (by simp [Docket.after]))

theorem desk_step (registry : Registry p) (once : OnceEach p) (answeredBelow : AnsweredBelow p)
    (run : p.step conf env event = .ok q) (call : Addr) :
    Run desk anything (p.docket call) (q.docket call) := by
  have brk := step_brk registry run
  have once' := once.step registry run
  have answeredBelow' := answeredBelow.step registry once run
  by_cases high : q.brk ≤ call
  · rw [docket_unborn once answeredBelow (Nat.le_trans brk high), docket_unborn once' answeredBelow' high]
    exact .refl _
  have born := Nat.not_le.mp high
  by_cases fresh : call = p.brk
  · exact desk_enters registry once answeredBelow run fresh born
  obtain ⟨replied, replies, answered⟩ := (step_closes registry once run).replies call
  rw [Proxy.docket, Proxy.docket, replies]
  by_cases queued : QueuedAt q call
  · have silent : replied = false := by
      cases replied with
      | false => rfl
      | true => exact absurd queued (answered rfl).2
    obtain ⟨key, entry, found, rfl⟩ := queued
    obtain ⟨before, was, carried⟩ := step_came registry run found fresh
    have stage := once.stage was
    rw [← carried.addr] at stage
    rw [stage, once'.stage found, silent]
    cases routed : before.routedVia with
    | none =>
        have none := once.waiting key before was routed
        rw [← carried.addr] at none
        rw [none]
        cases gets : entry.routedVia with
        | none =>
            rw [once'.waiting key entry found gets]
            exact .refl _
        | some via =>
            obtain ⟨sent, sends⟩ := bit_of_le_one (once'.once entry.addr)
            rw [← sends]
            exact deed_run (.give via sent) (by simp [Docket.after])
    | some via =>
        have kept : q.dispatches entry.addr = p.dispatches entry.addr := by
          refine step_ungiven registry run fresh ?_
          rintro ⟨⟨other, call, there, same, waits⟩, _⟩
          obtain rfl := once.distinct other key call before there was
            (same.trans carried.addr)
          rw [was] at there
          cases there
          rw [routed] at waits
          cases waits
        rw [kept, carried.routed via routed, routed]
        exact .refl _
  · have kept := step_ungiven registry run fresh fun both => queued both.2
    rw [kept, stage_unqueued queued, if_pos born]
    by_cases was : QueuedAt p call
    · obtain ⟨key, entry, found, rfl⟩ := was
      rw [once.stage found]
      refine deed_run (.close replied) ?_
      cases entry.routedVia <;> simp [Docket.after]
    · have silent : replied = false := by
        cases replied with
        | false => rfl
        | true => exact absurd (answered rfl).1 (by simp [fresh, was])
      rw [stage_unqueued was, silent]
      by_cases old : call < p.brk
      · rw [if_pos old]
        exact .refl _
      · rw [if_neg old]
        exact deed_run (.dismiss false) (by simp [Docket.after])

/-! Runs of the fabric are runs of the broker. -/

theorem answeredBelow_reaches (reached : Reaches (fabric conf) anything p) : AnsweredBelow p := by
  have both : OnceEach p ∧ AnsweredBelow p := by
    refine fabric_invariant (fun state => OnceEach state ∧ AnsweredBelow state) reached
      ⟨onceEach_new, fun _ member => by cases member⟩ ?_
    rintro env event state next _ move registry ⟨once, answeredBelow⟩
    exact ⟨once.step registry move, answeredBelow.step registry once move⟩
  exact both.2

theorem broker_step (reached : Reaches (fabric conf) anything p)
    (run : p.step conf env event = .ok q) : Run broker anything p.docket q.docket := by
  have registry := registry_reaches reached
  have once := onceEach_reaches reached
  have answeredBelow := answeredBelow_reaches reached
  refine Run.network (List.range q.brk) ?_ (desk_step registry once answeredBelow run)
  intro call unmoved
  have high : q.brk ≤ call := Nat.not_lt.mp fun low => unmoved (List.mem_range.mpr low)
  rw [docket_unborn once answeredBelow (Nat.le_trans (step_brk registry run) high),
    docket_unborn (once.step registry run) (answeredBelow.step registry once run) high]

theorem docket_new : proxyNew.docket = fun _ => ⟨.unborn, 0, 0⟩ := by
  funext call
  exact docket_unborn onceEach_new (fun _ member => by cases member) (Nat.zero_le _)

theorem broker_simulation (conf : Config) :
    Simulation (fabric conf) anything broker Proxy.docket where
  start state new := by
    cases new
    intro call
    exact congrFun docket_new call
  step _ _ _ reached _ move := broker_step reached move

/-- Every run of the fabric is one of the broker, for whatever calls there are. -/
theorem broker_refined (reached : Reaches (fabric conf) anything p)
    (run : Run (fabric conf) anything p q) :
    Reaches broker anything p.docket ∧ Run broker anything p.docket q.docket :=
  ⟨(broker_simulation conf).reaches reached, (broker_simulation conf).run reached run⟩

theorem run_sent (reached : Reaches (fabric conf) anything p)
    (run : Run (fabric conf) anything p q) : Sends (fun _ => True) p q := by
  induction run with
  | refl => exact .refl _
  | snoc before _ move ih =>
      obtain ⟨more, grown, _⟩ := step_served (registry_reaches (reached.extend before)) move
      exact ih.trans ⟨more, grown, fun _ _ => trivial⟩

/-- A call is answered once at most, as it leaves the queue, and is never queued,
sent on or answered again. -/
theorem answered_last (reached : Reaches (fabric conf) anything p)
    (run : Run (fabric conf) anything p q) (call : Addr) :
    (q.repliesTo call).length ≤ 1 ∧ (p.repliesTo call ≠ [] →
      ¬ QueuedAt p call ∧ ¬ QueuedAt q call ∧ q.repliesTo call = p.repliesTo call ∧
        q.dispatches call = p.dispatches call) := by
  have simulated := (broker_simulation conf).run reached run
  have before := (broker_simulation conf).reaches reached
  have sound := broker_sound (before.extend simulated) call
  refine ⟨sound.answered, fun answered => ?_⟩
  have closed : p.stage call = .closed := by
    by_contra open'
    have silent := (broker_sound before call).unanswered open'
    exact answered (List.length_eq_zero_iff.mp silent)
  have same : q.docket call = p.docket call := desk_closed (simulated.part call) closed
  obtain ⟨more, grown, _⟩ := run_sent reached run
  have replies := congrArg Docket.answered same
  have sends := congrArg Docket.given same
  simp only [Proxy.docket, repliesTo_append grown, dispatches_append grown, List.length_append,
    Nat.add_eq_left, List.length_eq_zero_iff] at replies sends
  refine ⟨stage_closed closed, stage_closed ((congrArg Docket.stage same).trans closed), ?_, ?_⟩
  · rw [repliesTo_append grown, replies, List.append_nil]
  · rw [dispatches_append grown, sends, List.append_nil]

def oneAnswered : Proxy :=
  (fabricAfter plainConf overloaded).after plainConf early (.localMsg (resultOf worker "call-1") "")

theorem oneAnswered_run :
    Reaches (fabric plainConf) anything (fabricAfter plainConf overloaded) ∧
      Run (fabric plainConf) anything (fabricAfter plainConf overloaded) oneAnswered := by
  have answers : anything (fabricAfter plainConf overloaded)
      (early, Event.localMsg (resultOf worker "call-1") "") := trivial
  exact ⟨overloaded_reaches fun _ _ _ => trivial, .single answers (step_after (by decide))⟩

theorem broker_refined_oneAnswered :
    Reaches broker anything (fabricAfter plainConf overloaded).docket ∧
      Run broker anything (fabricAfter plainConf overloaded).docket oneAnswered.docket :=
  broker_refined oneAnswered_run.1 oneAnswered_run.2

theorem answered_last_oneAnswered :
    oneAnswered.repliesTo 3 ≠ [] ∧ ∀ q, Run (fabric plainConf) anything oneAnswered q →
      (q.repliesTo 3).length ≤ 1 ∧ ¬ QueuedAt q 3 ∧ q.dispatches 3 = oneAnswered.dispatches 3 := by
  have answered : oneAnswered.repliesTo 3 ≠ [] := by decide
  refine ⟨answered, fun q later => ?_⟩
  have reached := oneAnswered_run.1.extend oneAnswered_run.2
  obtain ⟨one, afterwards⟩ := answered_last reached later 3
  obtain ⟨_, gone, _, sends⟩ := afterwards answered
  exact ⟨one, gone, sends⟩

end

end ModBus
