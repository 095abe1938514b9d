import ModBus.Execute
import ModBus.Population

/-! How the fabric ends. It has the process manager kill everything, and no
process that was ever forked is left out. -/

namespace ModBus

open Libc Czmq Transition

def stopallItem (env : Env) (key : String) (p : Proxy) : Option (Dest × Object) :=
  (p.modules.lookup key).bind fun mod =>
    (p.route mod.identity.text).map fun dest => (dest, messageStop env.actionid)

/-- What `finalize` sends: the modules' stops, and the commands to the process
manager, with waits of two seconds in between. -/
def finalize (visit : List String → List String) (each : String → Env) (p : Proxy) :
    List (Dest × Object) × Proxy :=
  ((visit p.modules.keys).filterMap fun key => stopallItem (each key) key p,
    zstrSend .killall (zstrSend .stopAll p))

def forkedBy (env : ProcEnv) (p q : Procman) : List Int32 :=
  (List.range (q.forks - p.forks)).map fun n => env.fork (p.forks + n)

structure Brood where
  procman : Procman
  forked : List Int32

def brood (conf : Config) : System Brood (ProcEnv × ProcEvent) where
  initial b := b = ⟨procmanNew, []⟩
  step b label c := (processManager conf).step b.procman label c.procman ∧
    c.forked = b.forked ++ forkedBy label.1 b.procman c.procman

/-- Forks are fresh, and of the two kinds of kills the main loop sends none that is
for one process. -/
structure Shepherds (conf : Config) (p : Procman) (label : ProcEnv × ProcEvent) : Prop where
  start : p.running = false →
    FreshForks label.1 p ((label.1.visit conf.modules.keys).map (instancesOf conf label.1)).sum
  restart : ∀ spid, label.2 = .command (.restart spid) → spid ∈ p.procs →
    FreshForks label.1 (p.deleteProc spid) 1
  commands : ∀ spid, label.2 ≠ .command (.kill spid)

structure Closing where
  brood : Brood
  pending : List Command

def closing (conf : Config) : System Closing (ProcEnv × ProcEvent) where
  initial c := Reaches (brood conf) (fun b label => Shepherds conf b.procman label) c.brood ∧
    ∃ visit each p sent, c.pending = sent ++ (finalize visit each p).2.procman.drop p.procman.length
  step c label d := (brood conf).step c.brood label d.brood ∧
    match label.2 with
    | .command command => c.pending = command :: d.pending
    | .tick _ => d.pending = c.pending

def Tracked (p : Procman) (pid : Int32) : Prop :=
  ⟨pid, 9⟩ ∈ p.kills ∨
    ∃ proc, p.procs.lookup (decimal pid.toInt) = some proc ∧ proc.pid = pid.toInt64.toUInt64

structure Raises (env : ProcEnv) (p q : Procman) : Prop where
  forks : p.forks ≤ q.forks
  kept : ∀ pid, Tracked p pid → Tracked q pid
  born : ∀ n < q.forks - p.forks, Tracked q (env.fork (p.forks + n))

section

variable {conf : Config} {env : ProcEnv} {event : ProcEvent} {p q r : Procman} {key spid : String}
  {proc : Process} {count rest : Nat} {pid : Int32}

theorem Raises.quiet (forks : q.forks = p.forks) (kept : ∀ pid, Tracked p pid → Tracked q pid) :
    Raises env p q :=
  ⟨forks.ge, kept, fun n inside => by omega⟩

theorem Raises.refl (p : Procman) : Raises env p p := .quiet rfl fun _ => id

theorem Raises.trans (left : Raises env p q) (right : Raises env q r) : Raises env p r := by
  refine ⟨left.forks.trans right.forks, fun pid known => right.kept pid (left.kept pid known), ?_⟩
  intro n inside
  have first := left.forks
  by_cases early : n < q.forks - p.forks
  · exact right.kept _ (left.born n early)
  · have late := right.born (n - (q.forks - p.forks)) (by omega)
    have same : q.forks + (n - (q.forks - p.forks)) = p.forks + n := by omega
    rwa [same] at late

theorem tracked_frame
    (procs : ∀ key proc, p.procs.lookup key = some proc →
      ∃ new, q.procs.lookup key = some new ∧ new.pid = proc.pid)
    (kills : p.kills ⊆ q.kills) (known : Tracked p pid) : Tracked q pid := by
  rcases known with killed | ⟨proc, found, same⟩
  · exact Or.inl (kills killed)
  · obtain ⟨new, there, pid⟩ := procs _ proc found
    exact Or.inr ⟨new, there, pid.trans same⟩

theorem tracked_setProc (found : p.procs.lookup key = some proc) {new : Process}
    (same : new.pid = proc.pid) (known : Tracked p pid) : Tracked (p.setProc key new) pid := by
  refine tracked_frame (p := p) (fun other old there => ?_) (List.Subset.refl _) known
  rw [setProc_procs, ZHash.lookup_update (ZHash.mem_of_lookup found)]
  split
  · rename_i here
    rw [here, found, Option.some.injEq] at there
    exact ⟨new, rfl, there ▸ same⟩
  · exact ⟨old, there, rfl⟩

theorem tracked_insertNew (proc : Process) (known : Tracked p pid) :
    Tracked { p with procs := (ZHash.insertNew p.procs key proc).2 } pid := by
  refine tracked_frame (p := p) (fun other old there => ⟨old, ?_, rfl⟩) (List.Subset.refl _) known
  simp only [ZHash.lookup_insertNew]
  rw [if_neg]
  · exact there
  · rintro ⟨here, absent⟩
    exact absent (here ▸ ZHash.mem_of_lookup there)

theorem tracked_deleteProc (killed : ⟨atoi key, 9⟩ ∈ q.kills) (kills : p.kills ⊆ q.kills)
    (procs : q.procs = p.procs) (known : Tracked p pid) : Tracked (q.deleteProc key) pid := by
  rcases known with before | ⟨proc, found, same⟩
  · exact Or.inl (kills before)
  · by_cases here : decimal pid.toInt = key
    · left
      rw [← here, atoi_decimal] at killed
      exact killed
    · right
      refine ⟨proc, ?_, same⟩
      rw [deleteProc_procs, procs]
      exact ZHash.lookup_erase_some.mpr ⟨here, found⟩

theorem startProc_raises (proc : Process) (fresh : FreshForks env p 1) :
    Raises env p (startProc env proc p) := by
  have absent := fresh.absent 0 Nat.one_pos
  rw [Nat.add_zero] at absent
  refine ⟨by rw [startProc_forks]; omega, fun pid known => ?_, fun n inside => ?_⟩
  · refine tracked_frame (fun other old there => ⟨old, ?_, rfl⟩) ?_ known
    · rw [startProc_procs, ZHash.lookup_insertNew, if_neg]
      · exact there
      · rintro ⟨here, _⟩
        exact absent (here ▸ ZHash.mem_of_lookup there)
    · rw [startProc_kills]
      exact List.Subset.refl _
  · rw [startProc_forks] at inside
    have first : n = 0 := by omega
    subst first
    right
    refine ⟨{ proc with
      startTimestamp := env.zclockTime, pid := (env.fork p.forks).toInt64.toUInt64
      freed := decide (env.fork p.forks = -1) }, ?_, rfl⟩
    rw [startProc_procs, ZHash.lookup_insertNew]
    exact if_pos ⟨rfl, absent⟩

theorem FreshForks.one (fresh : FreshForks env p (count + 1)) : FreshForks env p 1 :=
  ⟨fun n inside => fresh.positive n (by omega), fun n inside => fresh.absent n (by omega),
    fun m n less inside => fresh.distinct m n less (by omega)⟩

theorem startInstances_raises (fresh : FreshForks env p (count + rest)) :
    Raises env p (startInstances env key count p) := by
  induction count generalizing p with
  | zero => exact .refl p
  | succ count ih =>
      rw [Nat.add_right_comm] at fresh
      exact (startProc_raises { processNew key with mod := some key } fresh.one).trans
        (ih fresh.startProc)

theorem startallItem_raises (fresh : FreshForks env p (instancesOf conf env key + rest)) :
    Raises env p (startallItem conf env key p) := by
  unfold startallItem
  split
  · exact .refl p
  · rename_i mod known
    split
    · rename_i there
      simp only [instancesOf, known, if_pos there] at fresh
      exact startInstances_raises fresh
    · exact .refl p

theorem startall_raises {keys : List String}
    (fresh : FreshForks env p (keys.map (instancesOf conf env)).sum)
    (run : ZHash.foreach (fun key p => .ok (0, startallItem conf env key p)) keys p =
      (.ok q : Except Fault Procman)) : Raises env p q := by
  induction keys generalizing p with
  | nil =>
      cases run
      exact .refl _
  | cons key keys ih =>
      rw [List.map_cons, List.sum_cons] at fresh
      exact (startallItem_raises fresh).trans (ih (startallItem_population fresh).1 run)

/-! The two ways to kill. -/

theorem killallItem_kills {rc : Int} (run : killallItem key p = .ok (rc, q)) :
    q.procs = p.procs ∧ q.forks = p.forks ∧ q.stopAll = p.stopAll ∧ rc = 0 ∧ p.kills ⊆ q.kills ∧
      ∀ proc, p.procs.lookup key = some proc → proc.pid ≠ 0 → ⟨toInt proc.pid, 9⟩ ∈ q.kills := by
  unfold killallItem at run
  split at run
  · rename_i absent
    cases run
    refine ⟨rfl, rfl, rfl, rfl, List.Subset.refl _, fun proc found => ?_⟩
    rw [absent] at found
    cases found
  · rename_i entry found
    split at run
    · cases run
    · split at run
      · rename_i zero
        cases run
        refine ⟨rfl, rfl, rfl, rfl, List.Subset.refl _, fun proc there nonzero => ?_⟩
        rw [found, Option.some.injEq] at there
        exact absurd (there ▸ zero) nonzero
      · cases run
        refine ⟨rfl, rfl, rfl, rfl, by simp, fun proc there _ => ?_⟩
        rw [found, Option.some.injEq] at there
        simp [there]

theorem killall_kills {keys : List String} (run : ZHash.foreach killallItem keys p = .ok q) :
    q.procs = p.procs ∧ q.forks = p.forks ∧ q.stopAll = p.stopAll ∧ p.kills ⊆ q.kills ∧
      ∀ key ∈ keys, ∀ proc, p.procs.lookup key = some proc → proc.pid ≠ 0 →
        ⟨toInt proc.pid, 9⟩ ∈ q.kills := by
  induction keys generalizing p with
  | nil =>
      cases run
      exact ⟨rfl, rfl, rfl, List.Subset.refl _, fun _ member => by cases member⟩
  | cons key keys ih =>
      rw [ZHash.foreach] at run
      split at run
      · cases run
      · rename_i rc middle item
        obtain ⟨procs, forks, stopAll, zero, kills, killed⟩ := killallItem_kills item
        rw [if_pos zero] at run
        obtain ⟨laterProcs, laterForks, laterStop, laterKills, laterKilled⟩ := ih run
        refine ⟨laterProcs.trans procs, laterForks.trans forks, laterStop.trans stopAll,
          List.Subset.trans kills laterKills, fun other member proc found nonzero => ?_⟩
        rcases List.mem_cons.mp member with rfl | later
        · exact laterKills (killed proc found nonzero)
        · exact laterKilled other later proc (procs ▸ found) nonzero

theorem checkpidItem_raises (run : checkpidItem conf env key p = .ok q) : Raises env p q := by
  unfold checkpidItem at run
  split at run
  · cases run
    exact .refl _
  · rename_i proc found
    split at run
    · cases run
      exact .refl _
    split at run
    · cases run
    split at run
    · cases run
      exact .refl _
    split at run <;> cases run
    · refine .quiet rfl fun pid known => ?_
      exact tracked_deleteProc (by simp) (by simp) (kill_procs p (atoi key) 9) known
    · exact .quiet rfl fun pid known =>
        tracked_setProc (p := p.tell "restart" key) found rfl known
    · exact .quiet rfl fun _ known => known
    · exact .refl _

theorem sMainEvent_raises {command : Command} (other : ∀ spid, command ≠ .kill spid)
    (restart : ∀ spid, command = .restart spid → spid ∈ p.procs →
      FreshForks env (p.deleteProc spid) 1)
    (run : sMainEvent env command p = .ok q) : Raises env p q := by
  cases command with
  | startall =>
      cases run
      exact .refl _
  | stopAll =>
      cases run
      exact .quiet rfl fun _ known => known
  | checkPid spid =>
      simp only [sMainEvent] at run
      split at run
      · cases run
        exact .quiet rfl fun _ known => known
      · rename_i proc found
        split at run <;> cases run
        exact .quiet rfl fun pid known => tracked_setProc found rfl known
  | register spid name =>
      cases run
      exact .quiet rfl fun pid known => tracked_insertNew _ known
  | kill spid => exact absurd rfl (other spid)
  | restart spid =>
      simp only [sMainEvent] at run
      split at run
      · cases run
        exact .refl _
      · rename_i proc found
        split at run <;> cases run
        have fresh := restart spid rfl (ZHash.mem_of_lookup found)
        have gone : Raises env p
            ((((p.kill (atoi spid) 3).kill (atoi spid) 9).tell "remove" spid).deleteProc spid) := by
          refine .quiet rfl fun pid known => ?_
          exact tracked_deleteProc (by simp) (by simp) (by simp) known
        exact gone.trans (startProc_raises _ ⟨fresh.positive, fresh.absent, fresh.distinct⟩)
  | killall =>
      obtain ⟨procs, forks, _, kills, _⟩ := killall_kills run
      refine .quiet forks fun pid known => ?_
      exact tracked_frame (fun key proc found => ⟨proc, procs ▸ found, rfl⟩) kills known

theorem procman_raises (allowed : Shepherds conf p (env, event))
    (run : p.step conf env event = .ok q) : Raises env p q := by
  cases event with
  | command command =>
      simp only [Procman.step] at run
      split at run
      · refine sMainEvent_raises (fun spid same => ?_) (fun spid same => ?_) run
        · exact allowed.commands spid (congrArg ProcEvent.command same)
        · exact allowed.restart spid (congrArg ProcEvent.command same)
      · rename_i idle
        have fresh := allowed.start (Bool.eq_false_iff.mpr idle)
        have awake : Raises env p { p with running := true } := .quiet rfl fun _ known => known
        exact awake.trans (startall_raises ⟨fresh.positive, fresh.absent, fresh.distinct⟩ run)
  | tick key => exact checkpidItem_raises run

def Kept (b : Brood) : Prop := ∀ pid ∈ b.forked, pid ≠ 0 ∧ Tracked b.procman pid

theorem Kept.step {b c : Brood} {label : ProcEnv × ProcEvent} (kept : Kept b)
    (allowed : Shepherds conf b.procman label) (move : (brood conf).step b label c) : Kept c := by
  obtain ⟨⟨_, run⟩, grown⟩ := move
  have raises := procman_raises allowed run
  intro pid member
  rw [grown] at member
  rcases List.mem_append.mp member with old | new
  · exact ⟨(kept pid old).1, raises.kept pid (kept pid old).2⟩
  · obtain ⟨n, inside, rfl⟩ := List.mem_map.mp new
    exact ⟨label.1.fork_ne _, raises.born n (List.mem_range.mp inside)⟩

theorem kept_reaches {b : Brood}
    (reached : Reaches (brood conf) (fun b label => Shepherds conf b.procman label) b) : Kept b := by
  refine reached.invariant Kept ?_ fun b label c allowed move kept => kept.step allowed move
  rintro b rfl pid member
  cases member

inductive Ending (c : Closing) : Prop
  | before {sent} : Kept c.brood → c.pending = sent ++ [.stopAll, .killall] → Ending c
  | stopped : Kept c.brood → c.brood.procman.stopAll = true → c.pending = [.killall] → Ending c
  | ended : (∀ pid ∈ c.brood.forked, ⟨pid, 9⟩ ∈ c.brood.procman.kills) →
      c.brood.procman.stopAll = true → c.pending = [] → Ending c

theorem fork_toUInt64_ne {pid : Int32} (nonzero : pid ≠ 0) : pid.toInt64.toUInt64 ≠ 0 :=
  UInt64.pos_iff_ne_zero.mp (fork_ne_zero nonzero)

theorem killall_over {b c : Brood} (kept : Kept b) (forked : c.forked = b.forked)
    (kills : b.procman.kills ⊆ c.procman.kills)
    (killed : ∀ key ∈ b.procman.procs, ∀ proc, b.procman.procs.lookup key = some proc →
      proc.pid ≠ 0 → ⟨toInt proc.pid, 9⟩ ∈ c.procman.kills) :
    ∀ pid ∈ c.forked, ⟨pid, 9⟩ ∈ c.procman.kills := by
  intro pid member
  rw [forked] at member
  obtain ⟨nonzero, before | ⟨proc, found, same⟩⟩ := kept pid member
  · exact kills before
  · have hit := killed _ (ZHash.mem_of_lookup found) proc found (same ▸ fork_toUInt64_ne nonzero)
    rwa [same, toInt_fork] at hit

theorem stopped_tick (stopped : p.stopAll = true) (run : p.step conf env (.tick key) = .ok q) :
    q = p := by
  simp only [Procman.step, checkpidItem, stopped, if_true] at run
  split at run <;> cases run <;> rfl

theorem Ending.step {c d : Closing} {label : ProcEnv × ProcEvent} (ending : Ending c)
    (allowed : Shepherds conf c.brood.procman label) (move : (closing conf).step c label d) :
    Ending d := by
  obtain ⟨within, taken⟩ := move
  have moved := within
  obtain ⟨⟨start, run⟩, grown⟩ := moved
  obtain ⟨env, event⟩ := label
  cases event with
  | tick key =>
      cases ending with
      | before kept pending => exact .before (kept.step allowed within) (taken.trans pending)
      | stopped kept stops pending =>
          have same := stopped_tick stops run
          exact .stopped (kept.step allowed within) (same ▸ stops) (taken.trans pending)
      | ended killed stops pending =>
          have same := stopped_tick stops run
          have none : d.brood.forked = c.brood.forked := by
            rw [grown, forkedBy, same, Nat.sub_self]
            simp
          exact .ended (none ▸ same ▸ killed) (same ▸ stops) (taken.trans pending)
  | command command =>
      have runs : command ≠ .startall → c.brood.procman.running = true := by
        intro other
        by_contra idle
        have first := start (Bool.eq_false_iff.mpr idle)
        exact other (ProcEvent.command.inj first)
      cases ending with
      | @before sent kept pending =>
          simp only [pending] at taken
          cases sent with
          | cons first sent =>
              obtain ⟨rfl, rest⟩ := List.cons.inj taken
              exact .before (kept.step allowed within) rest.symm
          | nil =>
              obtain ⟨rfl, rest⟩ := List.cons.inj taken
              have running := runs (by simp)
              simp only [Procman.step, running, if_true, sMainEvent, Except.ok.injEq] at run
              exact .stopped (kept.step allowed within) (run ▸ rfl) rest.symm
      | stopped kept stops pending =>
          simp only [pending] at taken
          obtain ⟨rfl, rest⟩ := List.cons.inj taken
          have running := runs (by simp)
          simp only [Procman.step, running, if_true, sMainEvent] at run
          obtain ⟨procs, forks, stopAll, kills, killed⟩ := killall_kills run
          have none : d.brood.forked = c.brood.forked := by
            rw [grown, forkedBy, forks, Nat.sub_self]
            simp
          refine .ended (killall_over kept none kills fun key member => ?_)
            (stopAll.trans stops) rest.symm
          exact killed key ((env.visit_perm _).mem_iff.mpr (AList.mem_keys.mp member))
      | ended killed stops pending =>
          simp only [pending] at taken
          cases taken

/-- Once the process manager has taken all commands up to the last two, every
process that it ever forked has been killed, and so it stays. -/
theorem shutdown_kills {c : Closing}
    (reached : Reaches (closing conf) (fun c label => Shepherds conf c.brood.procman label) c)
    (done : c.pending = []) : ∀ pid ∈ c.brood.forked, ⟨pid, 9⟩ ∈ c.brood.procman.kills := by
  have ending : Ending c := by
    refine reached.invariant Ending ?_ fun c label d allowed move ending => ending.step allowed move
    rintro c ⟨bred, visit, each, p, sent, pending⟩
    have commands : (finalize visit each p).2.procman.drop p.procman.length = [.stopAll, .killall] := by
      simp [finalize]
    exact .before (kept_reaches bred) (pending.trans (by rw [commands]))
  cases ending with
  | before _ pending =>
      rw [done] at pending
      simp at pending
  | stopped _ _ pending =>
      rw [done] at pending
      cases pending
  | ended killed _ _ => exact killed

end

/-- One process was started, and the fabric ends at once. -/
theorem shutdown_kills_started :
    let env := startsAs 77 (by decide)
    let started := procmanNew.after oneModule env (.command .startall)
    let stopped := started.after oneModule env (.command .stopAll)
    let ended := stopped.after oneModule env (.command .killall)
    ⟨77, 9⟩ ∈ ended.kills := by
  intro env started stopped ended
  have startRun : procmanNew.step oneModule env (.command .startall) = .ok started :=
    procman_after (by decide)
  have stopRun : started.step oneModule env (.command .stopAll) = .ok stopped :=
    procman_after (by decide)
  have killRun : stopped.step oneModule env (.command .killall) = .ok ended :=
    procman_after (by decide)
  have fresh : Shepherds oneModule procmanNew (env, .command .startall) := by
    refine ⟨fun _ => ⟨fun _ _ => (by decide : (0 : Int32) < 77), fun _ _ member => ?_,
      fun m n less inside => ?_⟩, fun _ _ member => ?_, by simp⟩
    · cases member
    · have one : ((env.visit oneModule.modules.keys).map (instancesOf oneModule env)).sum = 1 := by
        decide
      change n < ((env.visit oneModule.modules.keys).map (instancesOf oneModule env)).sum at inside
      omega
    · cases member
  have bred : Reaches (brood oneModule) (fun b label => Shepherds oneModule b.procman label)
      ⟨started, [77]⟩ := by
    have move : (brood oneModule).step ⟨procmanNew, []⟩ (env, .command .startall) ⟨started, [77]⟩ :=
      ⟨⟨fun _ => rfl, startRun⟩, by decide⟩
    exact (Reaches.initial rfl).extend (.single fresh move)
  have calm : ∀ p command, p.running = true → command = .stopAll ∨ command = .killall →
      Shepherds oneModule p (env, .command command) := by
    rintro p command running either
    refine ⟨fun idle => ?_, fun spid same => ?_, fun spid same => ?_⟩
    · rw [running] at idle
      cases idle
    · rcases either with rfl | rfl <;> cases same
    · rcases either with rfl | rfl <;> cases same
  have start : (closing oneModule).initial ⟨⟨started, [77]⟩, [.stopAll, .killall]⟩ :=
    ⟨bred, id, fun _ => early, proxyNew, [], by simp [finalize]⟩
  have stop : (closing oneModule).step ⟨⟨started, [77]⟩, [.stopAll, .killall]⟩
      (env, .command .stopAll) ⟨⟨stopped, [77]⟩, [.killall]⟩ :=
    ⟨⟨⟨fun idle => absurd idle (by decide), stopRun⟩, by decide⟩, rfl⟩
  have kill : (closing oneModule).step ⟨⟨stopped, [77]⟩, [.killall]⟩
      (env, .command .killall) ⟨⟨ended, [77]⟩, []⟩ :=
    ⟨⟨⟨fun idle => absurd idle (by decide), killRun⟩, by decide⟩, rfl⟩
  have reached : Reaches (closing oneModule)
      (fun c label => Shepherds oneModule c.brood.procman label) ⟨⟨ended, [77]⟩, []⟩ :=
    ((Reaches.initial start).extend (.single (calm started .stopAll (by decide) (Or.inl rfl)) stop)).extend
      (.single (calm stopped .killall (by decide) (Or.inr rfl)) kill)
  exact shutdown_kills reached rfl 77 (List.mem_singleton_self _)

end ModBus
