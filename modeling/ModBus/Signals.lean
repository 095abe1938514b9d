import ModBus.Procman

/-! Whom the process manager signals: processes of its table, under the pids that
`fork` gave or that the main loop registered. -/

namespace ModBus

open Libc Czmq Transition

def PositivePid (key : String) : Prop := ∃ pid : Int32, 0 < pid ∧ key = decimal pid.toInt

structure ForksAndPids (p : Procman) (label : ProcEnv × ProcEvent) : Prop where
  start : p.running = false → ∀ n, 0 < label.1.fork n
  restart : ∀ spid, label.2 = .command (.restart spid) → spid ∈ p.procs →
    0 < label.1.fork p.forks
  register : ∀ spid name, label.2 = .command (.register spid name) → spid ∉ p.procs →
    PositivePid spid

structure Signals (p : Procman) : Prop where
  keys : ∀ key ∈ p.procs, PositivePid key
  pids : ∀ key proc, p.procs.lookup key = some proc → proc.pid = 0 ∨ 0 < toInt proc.pid
  kills : ∀ kill ∈ p.kills, 0 < kill.pid

section

variable {conf : Config} {env : ProcEnv} {event : ProcEvent} {p q : Procman} {key spid : String}
  {proc : Process}

theorem PositivePid.atoi (positive : PositivePid key) : 0 < atoi key := by
  obtain ⟨pid, above, rfl⟩ := positive
  simpa using above

theorem signals_new : Signals procmanNew where
  keys _ member := by cases member
  pids _ _ found := by cases found
  kills _ member := by cases member

theorem Signals.frame (signals : Signals p)
    (procs : ∀ key proc, q.procs.lookup key = some proc →
      ∃ old, p.procs.lookup key = some old ∧ proc.pid = old.pid)
    (kills : q.kills = p.kills) : Signals q where
  keys key member := by
    obtain ⟨proc, found⟩ := ZHash.lookup_of_mem member
    obtain ⟨old, before, _⟩ := procs key proc found
    exact signals.keys key (ZHash.mem_of_lookup before)
  pids key proc found := by
    obtain ⟨old, before, same⟩ := procs key proc found
    rw [same]
    exact signals.pids key old before
  kills := kills ▸ signals.kills

theorem Signals.same (signals : Signals p) (procs : q.procs = p.procs) (kills : q.kills = p.kills) :
    Signals q :=
  signals.frame (fun _ proc found => ⟨proc, procs ▸ found, rfl⟩) kills

theorem Signals.kill {pid : Int32} (signal : Nat) (signals : Signals p) (positive : 0 < pid) :
    Signals (p.kill pid signal) where
  keys := signals.keys
  pids := signals.pids
  kills kill member := by
    rcases List.mem_append.mp member with old | new
    · exact signals.kills kill old
    · rw [List.mem_singleton.mp new]
      exact positive

theorem Signals.deleteProc (key : String) (signals : Signals p) : Signals (p.deleteProc key) :=
  signals.frame (fun _ proc found => ⟨proc, (ZHash.lookup_erase_some.mp found).2, rfl⟩) rfl

theorem Signals.setProc (signals : Signals p) (found : p.procs.lookup key = some proc)
    {new : Process} (same : new.pid = proc.pid) : Signals (p.setProc key new) := by
  refine signals.frame (fun other entry there => ?_) rfl
  rw [setProc_procs, ZHash.lookup_update (ZHash.mem_of_lookup found)] at there
  split at there
  · rename_i here
    cases there
    exact ⟨proc, here ▸ found, same⟩
  · exact ⟨entry, there, rfl⟩

theorem Signals.insertNew (signals : Signals p) (positive : key ∉ p.procs → PositivePid key)
    (pid : proc.pid = 0 ∨ 0 < toInt proc.pid)
    (procs : q.procs = (ZHash.insertNew p.procs key proc).2) (kills : q.kills = p.kills) :
    Signals q := by
  have lookup : ∀ other entry, q.procs.lookup other = some entry →
      p.procs.lookup other = some entry ∨ other = key ∧ key ∉ p.procs ∧ entry = proc := by
    intro other entry found
    rw [procs, ZHash.lookup_insertNew] at found
    split at found
    · rename_i fresh
      cases found
      exact Or.inr ⟨fresh.1, fresh.2, rfl⟩
    · exact Or.inl found
  constructor
  · intro other member
    obtain ⟨entry, found⟩ := ZHash.lookup_of_mem member
    rcases lookup other entry found with old | ⟨rfl, fresh, _⟩
    · exact signals.keys other (ZHash.mem_of_lookup old)
    · exact positive fresh
  · intro other entry found
    rcases lookup other entry found with old | ⟨_, _, rfl⟩
    · exact signals.pids other entry old
    · exact pid
  · rw [kills]
    exact signals.kills

theorem Signals.startProc (signals : Signals p) (forks : 0 < env.fork p.forks) :
    Signals (startProc env proc p) :=
  signals.insertNew (fun _ => ⟨_, forks, rfl⟩) (Or.inr (by rwa [toInt_fork]))
    (startProc_procs env proc p) (startProc_kills p env proc)

theorem Signals.startInstances (count : Nat) (signals : Signals p) (forks : ∀ n, 0 < env.fork n) :
    Signals (startInstances env key count p) := by
  induction count generalizing p with
  | zero => exact signals
  | succ count ih => exact ih (signals.startProc (forks _))

theorem Signals.startall (signals : Signals p) (forks : ∀ n, 0 < env.fork n)
    (run : startall conf env p = .ok q) : Signals q := by
  refine ZHash.foreach_invariant Signals ?_ run signals
  rintro key _ state rc next call signals
  cases call
  unfold startallItem
  split
  · exact signals
  · split
    · exact signals.startInstances _ forks
    · exact signals

theorem Signals.checkpidItem (signals : Signals p) (run : checkpidItem conf env key p = .ok q) :
    Signals q := by
  unfold ModBus.checkpidItem at run
  split at run
  · cases run
    exact signals
  · rename_i proc found
    have positive := (signals.keys key (ZHash.mem_of_lookup found)).atoi
    split at run
    · cases run
      exact signals
    split at run
    · cases run
    split at run
    · cases run
      exact signals
    split at run <;> cases run
    · exact (signals.kill 9 positive).deleteProc key
    · exact (signals.same rfl rfl : Signals (p.tell "restart" key)).setProc found rfl
    · exact signals.same rfl rfl
    · exact signals

theorem Signals.killall (signals : Signals p) {keys : List String}
    (run : ZHash.foreach killallItem keys p = .ok q) : Signals q := by
  refine ZHash.foreach_invariant Signals ?_ run signals
  rintro key _ state rc next call signals
  unfold killallItem at call
  split at call
  · cases call
    exact signals
  · rename_i proc found
    split at call
    · cases call
    split at call <;> cases call
    · exact signals
    · rename_i nonzero
      have positive := (signals.pids key proc found).resolve_left nonzero
      exact (signals.kill 3 positive).kill 9 positive

theorem Signals.sMainEvent {command : Command} (signals : Signals p)
    (restart : ∀ spid, command = .restart spid → spid ∈ p.procs → 0 < env.fork p.forks)
    (register : ∀ spid name, command = .register spid name → spid ∉ p.procs → PositivePid spid)
    (run : sMainEvent env command p = .ok q) : Signals q := by
  unfold ModBus.sMainEvent at run
  split at run
  · cases run
    exact signals
  · cases run
    exact signals.same rfl rfl
  · rename_i spid
    split at run
    · cases run
      exact signals.same rfl rfl
    · rename_i proc found
      split at run <;> cases run
      have asked : Signals (p.setProc spid { proc with started := true }) :=
        signals.setProc found rfl
      exact asked.same rfl rfl
  · rename_i spid name
    cases run
    exact signals.insertNew (register spid name rfl) (Or.inl rfl) rfl rfl
  · rename_i spid
    split at run
    · cases run
      exact signals
    · rename_i proc found
      have positive := (signals.keys spid (ZHash.mem_of_lookup found)).atoi
      split at run <;> cases run
      exact ((signals.kill 3 positive).kill 3 positive).deleteProc spid
  · rename_i spid
    split at run
    · cases run
      exact signals
    · rename_i proc found
      have member := ZHash.mem_of_lookup found
      have positive := (signals.keys spid member).atoi
      split at run <;> cases run
      have killed := (signals.kill 3 positive).kill 9 positive
      have told : Signals (((p.kill (atoi spid) 3).kill (atoi spid) 9).tell "remove" spid) :=
        killed.same rfl rfl
      exact (told.deleteProc spid).startProc (restart spid rfl member)
  · exact signals.killall run

theorem Signals.step (signals : Signals p) (allowed : ForksAndPids p (env, event))
    (run : p.step conf env event = .ok q) : Signals q := by
  cases event with
  | tick key => exact signals.checkpidItem run
  | command command =>
      simp only [Procman.step] at run
      split at run
      · refine signals.sMainEvent (fun spid same => ?_) (fun spid name same => ?_) run
        · exact allowed.restart spid (by rw [same])
        · exact allowed.register spid name (by rw [same])
      · rename_i waiting
        have start : Signals { p with running := true } := signals.same rfl rfl
        exact start.startall (allowed.start (by simpa using waiting)) run

/-- A failed `fork` always leaves its mark on a table of processes. -/
theorem startProc_failed (signals : Signals p) (failed : env.fork p.forks = -1) :
    (startProc env proc p).procs ≠ p.procs := by
  have absent : "-1" ∉ p.procs := by
    intro member
    obtain ⟨pid, positive, same⟩ := signals.keys "-1" member
    have minus : pid = -1 := decimal_injective_int32 (same.symm.trans (by decide))
    rw [minus] at positive
    exact absurd positive (by decide)
  intro same
  apply absent
  rw [← same, startProc_procs, ZHash.mem_insertNew, failed]
  exact Or.inl (by decide)

/-- While no `fork` fails and only positive pids are registered, the table holds
positive pids, and only positive pids are signalled. No failed `fork` would leave
the table as it was. -/
theorem signals_positive (reached : Reaches (processManager conf) ForksAndPids p) :
    (∀ key ∈ p.procs, PositivePid key) ∧ (∀ kill ∈ p.kills, 0 < kill.pid) ∧
      ∀ env proc, env.fork p.forks = -1 → (startProc env proc p).procs ≠ p.procs := by
  have signals : Signals p := by
    refine reached.invariant Signals ?_ ?_
    · rintro state rfl
      exact signals_new
    · rintro state ⟨env, event⟩ next allowed ⟨_, move⟩ signals
      exact signals.step allowed move
  exact ⟨signals.keys, signals.kills, fun env proc => startProc_failed signals⟩

end

/-! A process manager with one configured module. -/

def oneModule : Config where
  debug := false
  inTimeout := 5
  outTimeout := 5
  processTimeout := 5
  modules := (∅ : ZHash ConfigModule).insert "mod" ⟨"/opt/mod", 1, 0, 3⟩

def forking (zclockTime : Int64) (pid : Int32) (parent : 0 < pid ∨ pid = -1)
    (files : List String) : ProcEnv where
  zclockTime := zclockTime
  visit keys := keys
  visit_perm _ := .refl _
  fork _ := pid
  fork_parent _ := parent
  access file := decide (file ∈ files)
  rss _ := none
  pageSize := 4096

def startsAs (pid : Int32) (parent : 0 < pid ∨ pid = -1) : ProcEnv :=
  forking 1000 pid parent ["/opt/mod"]

def Procman.after (p : Procman) (conf : Config) (env : ProcEnv) (event : ProcEvent) : Procman :=
  (p.step conf env event).toOption.getD p

theorem procman_after {conf : Config} {env : ProcEnv} {event : ProcEvent} {p : Procman}
    (ends : (p.step conf env event).toOption.isSome = true) :
    p.step conf env event = .ok (p.after conf env event) := by
  unfold Procman.after
  cases result : p.step conf env event with
  | error => simp [result, Except.toOption] at ends
  | ok => rfl

theorem signals_positive_started :
    let p := procmanNew.after oneModule (startsAs 77 (by decide)) (.command .startall)
    (∀ key ∈ p.procs, PositivePid key) ∧ (∀ kill ∈ p.kills, 0 < kill.pid) ∧
      ∀ env proc, env.fork p.forks = -1 → (startProc env proc p).procs ≠ p.procs := by
  intro p
  have allowed : ForksAndPids procmanNew (startsAs 77 (by decide), .command .startall) :=
    ⟨fun _ _ => (by decide : (0 : Int32) < 77), fun _ same => (by cases same),
      fun _ _ same => (by cases same)⟩
  have run : procmanNew.step oneModule (startsAs 77 (by decide)) (.command .startall) = .ok p :=
    procman_after (by decide)
  exact signals_positive ((Reaches.initial rfl).extend (.single allowed ⟨fun _ => rfl, run⟩))

/-- The table holds a failed `fork` as the process -1. -/
theorem signals_failed_fork :
    ¬ ∀ conf p, Reaches (processManager conf) anything p →
      (∀ key ∈ p.procs, PositivePid key) ∧ (∀ kill ∈ p.kills, 0 < kill.pid) ∧
        ∀ env proc, env.fork p.forks = -1 → (startProc env proc p).procs = p.procs := by
  intro always
  let p := procmanNew.after oneModule (startsAs (-1) (by decide)) (.command .startall)
  have run : procmanNew.step oneModule (startsAs (-1) (by decide)) (.command .startall) = .ok p :=
    procman_after (by decide)
  have allowed : anything procmanNew (startsAs (-1) (by decide), ProcEvent.command .startall) :=
    trivial
  have reached : Reaches (processManager oneModule) anything p :=
    (Reaches.initial rfl).extend (.single allowed ⟨fun _ => rfl, run⟩)
  obtain ⟨pid, positive, same⟩ := (always oneModule p reached).1 "-1" (by decide)
  have minus : pid = -1 := decimal_injective_int32 (same.symm.trans (by decide))
  rw [minus] at positive
  exact absurd positive (by decide)

end ModBus
