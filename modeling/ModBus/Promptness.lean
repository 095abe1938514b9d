import ModBus.Fifo
import ModBus.Sweep

/-! How long a call can stay in the queue, when its clock never goes back and
`process_queue` runs once in every period. -/

namespace ModBus

open Libc Czmq Transition

structure Message.Stamped (env : Env) (before after : Message) : Prop where
  arrival : after.inTimestamp = before.inTimestamp
  routed : before.routedVia ≠ none → after = before
  waits : after.routedVia = none → after.outTimestamp = before.outTimestamp ∧
    after.processTimestamp = before.processTimestamp
  sent : before.routedVia = none → after.routedVia ≠ none →
    after.outTimestamp = before.outTimestamp ∧ after.processTimestamp = env.now ∨
    after.outTimestamp = env.now ∧ after.processTimestamp = before.processTimestamp

def StampedQueue (env : Env) (p q : Proxy) : Prop :=
  ∀ key after, q.queue.lookup key = some after →
    ∃ before, p.queue.lookup key = some before ∧ before.Stamped env after

structure Timed where
  proxy : Proxy
  now : UInt64
  swept : UInt64

inductive Tick
  | event (env : Env) (event : Event)
  | sweep (env : Env)

def Tick.env : Tick → Env
  | .event env _ => env
  | .sweep env => env

def sweeping (conf : Config) : System Timed Tick where
  initial t := t.proxy = proxyNew ∧ t.swept = t.now
  step t tick u := u.now = tick.env.now ∧
    match tick with
    | .event env event => t.proxy.step conf env event = .ok u.proxy ∧ u.swept = t.swept
    | .sweep env => processQueue conf env t.proxy = .ok u.proxy ∧ u.swept = env.now

structure OnTime (period : Nat) (t : Timed) (tick : Tick) : Prop where
  forward : t.now ≤ tick.env.now
  due : tick.env.now.toNat ≤ t.swept.toNat + period

def since (stamp now : UInt64) : Int := (now.toNat : Int) - stamp.toNat

structure Timely (conf : Config) (period : Nat) (t : Timed) (call : Message) : Prop where
  arrival : call.inTimestamp ≤ t.now
  waiting : call.processTimestamp = 0 →
    since call.inTimestamp t.swept ≤ 1000 * conf.inTimeout.toInt
  atFabric : call.outTimestamp ≠ 0 → call.routedVia ≠ none ∧ call.outTimestamp ≤ t.now ∧
    since call.outTimestamp t.swept ≤ 1000 * conf.outTimeout.toInt
  atModule : call.processTimestamp ≠ 0 → call.routedVia ≠ none ∧ call.processTimestamp ≤ t.now ∧
    since call.inTimestamp call.processTimestamp ≤ 1000 * conf.inTimeout.toInt + period ∧
    since call.processTimestamp t.swept ≤ 1000 * conf.processTimeout.toInt

structure Prompt (conf : Config) (period : Nat) (t : Timed) : Prop where
  registry : Registry t.proxy
  order : t.swept ≤ t.now
  recent : t.now.toNat ≤ t.swept.toNat + period
  calls : ∀ key call, t.proxy.queue.lookup key = some call → Timely conf period t call

section

variable {conf : Config} {env : Env} {event : Event} {p q r : Proxy} {key : String}
  {message call placed first second third : Message} {period : Nat} {t u : Timed} {tick : Tick}

theorem Message.Stamped.refl (env : Env) (call : Message) : call.Stamped env call :=
  ⟨rfl, fun _ => rfl, fun _ => ⟨rfl, rfl⟩, fun waits routed => absurd waits routed⟩

theorem Message.Stamped.trans (left : first.Stamped env second) (right : second.Stamped env third) :
    first.Stamped env third := by
  refine ⟨right.arrival.trans left.arrival, fun routed => ?_, fun waits => ?_, fun waits routed => ?_⟩
  · have same := left.routed routed
    rw [right.routed (same ▸ routed), same]
  · have between : second.routedVia = none := by
      by_contra routed
      rw [right.routed routed] at waits
      exact routed waits
    obtain ⟨out, process⟩ := right.waits waits
    obtain ⟨outBefore, processBefore⟩ := left.waits between
    exact ⟨out.trans outBefore, process.trans processBefore⟩
  · by_cases between : second.routedVia = none
    · obtain ⟨outBefore, processBefore⟩ := left.waits between
      rw [← outBefore, ← processBefore]
      exact right.sent between routed
    · rw [right.routed between]
      exact left.sent waits between

theorem PlaceOutcome.stamped {rc : Int} (outcome : PlaceOutcome env message p rc placed q) :
    message.Stamped env placed := by
  cases outcome with
  | routed => exact .refl env message
  | rejected => exact .refl env message
  | waiting on _ waits out process =>
      refine ⟨by rw [on.same], fun routed => absurd on.unrouted routed, fun _ => ⟨out, process⟩, ?_⟩
      exact fun _ routed => absurd waits routed
  | toModule on _ via out process =>
      refine ⟨by rw [on.same], fun routed => absurd on.unrouted routed, ?_, ?_⟩
      · rw [via]
        rintro ⟨⟩
      · exact fun _ _ => Or.inl ⟨out, process⟩
  | toFabric on _ via out process =>
      refine ⟨by rw [on.same], fun routed => absurd on.unrouted routed, ?_, ?_⟩
      · rw [via]
        rintro ⟨⟩
      · exact fun _ _ => Or.inr ⟨out, process⟩

theorem StampedQueue.frame
    (queue : ∀ key call, q.queue.lookup key = some call → p.queue.lookup key = some call) :
    StampedQueue env p q := fun key after found => ⟨after, queue key after found, .refl env after⟩

theorem StampedQueue.trans (left : StampedQueue env p q) (right : StampedQueue env q r) :
    StampedQueue env p r := by
  intro key after found
  obtain ⟨middle, between, later⟩ := right key after found
  obtain ⟨before, queued, earlier⟩ := left key middle between
  exact ⟨before, queued, earlier.trans later⟩

theorem placeQueued_stamped {rc : Int} (run : placeQueued env key p = .ok (rc, q)) :
    StampedQueue env p q := by
  rcases placeQueued_ok run with ⟨_, _, rfl⟩ | ⟨call, placed, middle, queued, placement, _, lookup⟩
  · exact .frame fun _ _ found => found
  · intro other after found
    rw [lookup] at found
    split at found
    · rename_i here
      cases found
      exact ⟨call, here ▸ queued, (placeCall_outcome placement).stamped⟩
    · exact ⟨after, found, .refl env after⟩

theorem placeAll_stamped (run : placeAll env p = .ok q) : StampedQueue env p q :=
  ZHash.foreach_invariant (StampedQueue env p)
    (fun _ _ _ _ _ call before => before.trans (placeQueued_stamped call)) run
    (.frame fun _ _ found => found)

theorem putBack_stamped {identity : String} (run : putBack env identity p = .ok q) :
    StampedQueue env p q := by
  rcases putBack_ok run with ⟨_, rfl⟩ | ⟨mod, _, ⟨_, rfl⟩ | ⟨_, run⟩⟩
  · exact .frame fun _ _ found => found
  · exact .frame fun _ _ found => found
  · exact placeAll_stamped (p := p.setModule identity { mod with state := .idle }) run

theorem AnswerTurn.stamped {stored : Message} (answer : AnswerTurn env message stored p q) :
    StampedQueue env p q := by
  cases answer with
  | unheard same => exact same ▸ .frame fun _ _ found => found
  | placed _ _ _ _ placement => exact placeQueued_stamped placement
  | @settled middle same _ back rest =>
      have erased : StampedQueue env p middle := by
        refine .frame fun key call found => ?_
        rw [same] at found
        exact (ZHash.lookup_erase_some.mp found).2
      cases isLocal : message.isLocal with
      | false => exact rest isLocal ▸ erased
      | true => exact erased.trans (putBack_stamped (back isLocal))

/-- In one step a queued call is stamped as a placement does it, and so is a call
that just came in. -/
theorem step_stamped (registry : Registry p) (run : p.step conf env event = .ok q)
    (found : q.queue.lookup key = some placed) :
    ∃ before, before.Stamped env placed ∧ (p.queue.lookup key = some before ∨
      before.inTimestamp = env.now ∧ before.outTimestamp = 0 ∧ before.processTimestamp = 0 ∧
        before.routedVia = none) := by
  rcases step_turn registry run with untouched | ⟨message, stored, _, _, _, answer⟩
  · rcases untouched.queue key placed found with kept | ⟨_, absent⟩
    · exact ⟨placed, .refl env placed, Or.inl kept⟩
    · rcases step_entry registry run found with ⟨before, queued, _⟩ | ⟨message, call, middle, read, _,
        parsed, placement, _⟩
      · exact absurd (ZHash.mem_of_lookup queued) absent
      · have arrives := Event.message_arrives read
        have same := readCall_ok parsed
        refine ⟨call, (placeCall_outcome placement).stamped, Or.inr ⟨?_, ?_, ?_, ?_⟩⟩
        · rw [same, arrives.inTimestamp]
        · rw [same, arrives.outTimestamp]
        · rw [same, arrives.processTimestamp]
        · rw [same, arrives.routedVia]
  · obtain ⟨before, queued, stamped⟩ := answer.stamped key placed found
    rw [arrived_queue] at queued
    exact ⟨before, stamped, Or.inl queued⟩

/-! Over the integers. -/

theorem le_of_later {stamp now : UInt64} (order : stamp ≤ now) : stamp.toNat ≤ now.toNat :=
  UInt64.le_iff_toNat_le.mp order

/-- A call that waited is placed by now, before the next sweep is due. -/
theorem Timely.step (outTimeout : 0 ≤ conf.outTimeout.toInt)
    (processTimeout : 0 ≤ conf.processTimeout.toInt) (order : t.swept ≤ t.now)
    (onTime : OnTime period t tick) (now : u.now = tick.env.now) (swept : u.swept = t.swept)
    (timely : Timely conf period t call) (stamped : call.Stamped tick.env placed) :
    Timely conf period u placed := by
  obtain ⟨forward, due⟩ := onTime
  have later := le_of_later forward
  have before := le_of_later order
  have arrived := le_of_later timely.arrival
  have ahead : ∀ stamp : UInt64, stamp ≤ t.now → stamp ≤ u.now := fun stamp earlier =>
    now ▸ UInt64.le_trans earlier forward
  by_cases routed : call.routedVia = none
  · have unsent : call.outTimestamp = 0 ∧ call.processTimestamp = 0 := by
      constructor
      · by_contra out
        exact (timely.atFabric out).1 routed
      · by_contra process
        exact (timely.atModule process).1 routed
    have waited := timely.waiting unsent.2
    by_cases waits : placed.routedVia = none
    · obtain ⟨out, process⟩ := stamped.waits waits
      rw [unsent.1] at out
      rw [unsent.2] at process
      refine ⟨?_, fun _ => ?_, fun sent => absurd out sent, fun sent => absurd process sent⟩
      · rw [stamped.arrival]
        exact ahead _ timely.arrival
      · rw [stamped.arrival, swept]
        exact waited
    · rcases stamped.sent routed waits with ⟨out, process⟩ | ⟨out, process⟩
      · rw [unsent.1] at out
        refine ⟨?_, fun zero => ?_, fun sent => absurd out sent, fun _ => ⟨waits, ?_, ?_, ?_⟩⟩
        · rw [stamped.arrival]
          exact ahead _ timely.arrival
        · rw [zero] at process
          exact absurd process.symm tick.env.now_ne
        · rw [process, now]
        · rw [stamped.arrival, process]
          unfold since at waited ⊢
          omega
        · rw [process, swept]
          unfold since
          omega
      · rw [unsent.2] at process
        refine ⟨?_, fun _ => ?_, fun _ => ⟨waits, ?_, ?_⟩, fun sent => absurd process sent⟩
        · rw [stamped.arrival]
          exact ahead _ timely.arrival
        · rw [stamped.arrival, swept]
          exact waited
        · rw [out, now]
        · rw [out, swept]
          unfold since
          omega
  · rw [stamped.routed routed]
    refine ⟨ahead _ timely.arrival, swept ▸ timely.waiting, fun sent => ?_, fun sent => ?_⟩
    · obtain ⟨via, earlier, bound⟩ := timely.atFabric sent
      exact ⟨via, ahead _ earlier, swept ▸ bound⟩
    · obtain ⟨via, earlier, bound, last⟩ := timely.atModule sent
      exact ⟨via, ahead _ earlier, bound, swept ▸ last⟩

theorem Timely.survives (inFits : Fits conf.inTimeout) (outFits : Fits conf.outTimeout)
    (processFits : Fits conf.processTimeout) (forward : t.now ≤ env.now)
    (timely : Timely conf period t call) (kept : timeoutException conf env call = none)
    (now : u.now = env.now) (swept : u.swept = env.now) : Timely conf period u call := by
  obtain ⟨arrival, waiting, atFabric, atModule⟩ := timely
  have ahead : ∀ stamp : UInt64, stamp ≤ t.now → stamp ≤ env.now := fun stamp earlier =>
    UInt64.le_trans earlier forward
  obtain ⟨inside, outside, processed⟩ := timeoutException_none.mp kept
  have bound : ∀ {timeout : Int32} {stamp : UInt64}, Fits timeout → stamp ≤ t.now →
      ¬ limit timeout < env.now - stamp → since stamp u.swept ≤ 1000 * timeout.toInt := by
    intro timeout stamp fits earlier within
    rw [fits_compared fits (ahead stamp earlier), Elapsed] at within
    rw [swept, since]
    omega
  refine ⟨now ▸ ahead _ arrival, fun zero => ?_, fun sent => ?_, fun sent => ?_⟩
  · apply bound inFits arrival
    intro late
    simp [inTimedOut, getInTimeDelta, late, zero] at inside
  · obtain ⟨via, earlier, _⟩ := atFabric sent
    refine ⟨via, now ▸ ahead _ earlier, bound outFits earlier fun late => ?_⟩
    simp [outTimedOut, getOutTimeDelta, late, sent, via] at outside
  · obtain ⟨via, earlier, before, _⟩ := atModule sent
    refine ⟨via, now ▸ ahead _ earlier, before, bound processFits earlier fun late => ?_⟩
    simp [processTimedOut, getProcessTimeDelta, late, sent, via] at processed

theorem Prompt.step (inFits : Fits conf.inTimeout) (outFits : Fits conf.outTimeout)
    (processFits : Fits conf.processTimeout) (prompt : Prompt conf period t)
    (onTime : OnTime period t tick) (move : (sweeping conf).step t tick u) :
    Prompt conf period u := by
  obtain ⟨now, moves⟩ := move
  have later := le_of_later onTime.forward
  have before := le_of_later prompt.order
  cases tick with
  | event env event =>
      obtain ⟨run, swept⟩ := moves
      refine ⟨prompt.registry.step run, ?_, ?_, fun key placed found => ?_⟩
      · rw [now, swept]
        exact UInt64.le_trans prompt.order onTime.forward
      · rw [now, swept]
        exact onTime.due
      · obtain ⟨call, stamped, queued | ⟨arrival, out, process, _⟩⟩ :=
          step_stamped prompt.registry run found
        · exact (prompt.calls key call queued).step outFits.1 processFits.1 prompt.order onTime
            now swept stamped
        · -- The call came with this event, as if it had been queued just before it.
          have fresh : Timely conf period { t with now := env.now } call := by
            refine ⟨arrival ▸ UInt64.le_refl _, fun _ => ?_, fun sent => absurd out sent,
              fun sent => absurd process sent⟩
            have early := inFits.1
            rw [arrival]
            simp only [since]
            change t.now.toNat ≤ env.now.toNat at later
            omega
          have order : t.swept ≤ env.now := UInt64.le_trans prompt.order onTime.forward
          have due : OnTime period { t with now := env.now } (.event env event) :=
            ⟨UInt64.le_refl _, onTime.due⟩
          exact fresh.step outFits.1 processFits.1 order due now swept stamped
  | sweep env =>
      obtain ⟨run, swept⟩ := moves
      have sweeps := processQueue_sweeps run
      have survivor : ∀ key call, u.proxy.queue.lookup key = some call →
          t.proxy.queue.lookup key = some call ∧ timeoutException conf env call = none := by
        intro key call found
        have visited : key ∈ t.proxy.queue →
            key ∈ env.visit t.proxy.queue.keys := fun member =>
          (env.visit_perm _).mem_iff.mpr (AList.mem_keys.mp member)
        by_cases goes : TakenOff conf env t.proxy key
        · obtain ⟨old, msg, queued, out⟩ := goes
          have gone := sweeps.taken key (visited (ZHash.mem_of_lookup queued)) ⟨old, msg, queued, out⟩
          rw [found] at gone
          cases gone
        · rw [sweeps.kept key (Or.inr goes)] at found
          refine ⟨found, ?_⟩
          cases out : timeoutException conf env call with
          | none => rfl
          | some msg => exact absurd ⟨call, msg, found, out⟩ goes
      refine ⟨?_, ?_, ?_, fun key call found => ?_⟩
      · refine ZHash.foreach_invariant Registry (fun key _ before rc _ call holds => ?_) run
          prompt.registry
        have move : before.step conf env (.queueItem key) = .ok _ := (map_walk.mp call).2
        exact holds.step move
      · rw [now, swept]
        exact UInt64.le_refl _
      · rw [now, swept]
        exact Nat.le_add_right _ _
      · obtain ⟨queued, kept⟩ := survivor key call found
        exact (prompt.calls key call queued).survives inFits outFits processFits onTime.forward kept
          now swept

theorem prompt_reaches (reached : Reaches (sweeping conf) (OnTime period) t)
    (inFits : Fits conf.inTimeout) (outFits : Fits conf.outTimeout)
    (processFits : Fits conf.processTimeout) : Prompt conf period t := by
  refine reached.invariant (Prompt conf period) ?_ ?_
  · rintro state ⟨start, swept⟩
    refine ⟨start ▸ registry_new, ?_, ?_, ?_⟩
    · rw [swept]
    · rw [swept]
      exact Nat.le_add_right _ _
    · intro key call found
      rw [start] at found
      cases found
  · intro state tick next allowed move prompt
    exact prompt.step inFits outFits processFits allowed move

/-- No call outlives its timeouts by more than the time between sweeps: while it
waits, while a fabric has it, while a module has it, and all in all. -/
theorem calls_prompt (reached : Reaches (sweeping conf) (OnTime period) t)
    (inFits : Fits conf.inTimeout) (outFits : Fits conf.outTimeout)
    (processFits : Fits conf.processTimeout) (queued : t.proxy.queue.lookup key = some call) :
    (call.processTimestamp = 0 →
      since call.inTimestamp t.now ≤ 1000 * conf.inTimeout.toInt + period) ∧
    (call.outTimestamp ≠ 0 →
      since call.outTimestamp t.now ≤ 1000 * conf.outTimeout.toInt + period) ∧
    (call.processTimestamp ≠ 0 →
      since call.processTimestamp t.now ≤ 1000 * conf.processTimeout.toInt + period) ∧
    since call.inTimestamp t.now ≤
      1000 * conf.inTimeout.toInt + 1000 * conf.processTimeout.toInt + 2 * period := by
  have prompt := prompt_reaches reached inFits outFits processFits
  obtain ⟨_, waiting, atFabric, atModule⟩ := prompt.calls key call queued
  have recent := prompt.recent
  have early := processFits.1
  unfold since at waiting atFabric atModule ⊢
  refine ⟨fun zero => ?_, fun sent => ?_, fun sent => ?_, ?_⟩
  · have bound := waiting zero
    omega
  · have bound := (atFabric sent).2.2
    omega
  · have bound := (atModule sent).2.2.2
    omega
  · by_cases zero : call.processTimestamp = 0
    · have bound := waiting zero
      omega
    · obtain ⟨_, _, before, after⟩ := atModule zero
      omega

theorem execute_timed {labels : List (Env × Event)} {now swept : UInt64}
    (clock : ∀ label ∈ labels, label.1.now = now) (due : now.toNat ≤ swept.toNat + period)
    (run : p.execute conf labels = .ok q) :
    Run (sweeping conf) (OnTime period) ⟨p, now, swept⟩ ⟨q, now, swept⟩ := by
  induction labels generalizing p with
  | nil =>
      cases run
      exact .refl _
  | cons label labels ih =>
      obtain ⟨env, event⟩ := label
      have same : env.now = now := clock (env, event) List.mem_cons_self
      simp only [Proxy.execute] at run
      split at run
      · cases run
      · rename_i middle move
        have first : Run (sweeping conf) (OnTime period) ⟨p, now, swept⟩ ⟨middle, now, swept⟩ := by
          have allowed : OnTime period ⟨p, now, swept⟩ (.event env event) := by
            refine ⟨same ▸ UInt64.le_refl _, ?_⟩
            simpa only [Tick.env, same] using due
          exact .single allowed ⟨same.symm, move, rfl⟩
        exact first.trans (ih (fun other member => clock other (List.mem_cons_of_mem _ member)) run)

end

theorem calls_prompt_sentToPeer : ∃ call,
    (fabricAfter patient sentToPeer).queue.lookup "call-1" = some call ∧
      since call.outTimestamp 1000000 ≤ 1000 * patient.outTimeout.toInt + 10000 := by
  obtain ⟨call, queued, _, _, out, _⟩ := sentToPeer_call
  have ends : (proxyNew.execute patient sentToPeer).toOption.isSome = true := by decide +kernel
  have clock : ∀ label ∈ sentToPeer, label.1.now = 1000000 := by
    simp [sentToPeer, early, plainEnv]
  have reached : Reaches (sweeping patient) (OnTime 10000)
      ⟨fabricAfter patient sentToPeer, 1000000, 1000000⟩ :=
    ⟨⟨proxyNew, 1000000, 1000000⟩, ⟨rfl, rfl⟩,
      execute_timed clock (by decide) (execute_fabricAfter ends)⟩
  have sent : call.outTimestamp ≠ 0 := by
    rw [out]
    decide
  exact ⟨call, queued, (calls_prompt reached ⟨by decide, by decide⟩ ⟨by decide, by decide⟩
    ⟨by decide, by decide⟩ queued).2.1 sent⟩

end ModBus
