import ModBus.Signals

/-! How many processes of each configured module the process manager keeps. -/

namespace ModBus

open Libc Czmq Transition

def Procman.population (p : Procman) (key : String) : Nat :=
  ZHash.count (fun proc => decide (proc.mod = some key)) p.procs

def instancesOf (conf : Config) (env : ProcEnv) (key : String) : Nat :=
  match conf.modules.lookup key with
  | none => 0
  | some mod => if env.access mod.modulePath then mod.moduleInstances.toInt.toNat else 0

structure FreshForks (env : ProcEnv) (p : Procman) (count : Nat) : Prop where
  positive : ∀ n < count, 0 < env.fork (p.forks + n)
  absent : ∀ n < count, decimal (env.fork (p.forks + n)).toInt ∉ p.procs
  distinct : ∀ m n, m < n → n < count → env.fork (p.forks + m) ≠ env.fork (p.forks + n)

structure Attended (conf : Config) (accessible : String → Bool) (p : Procman)
    (label : ProcEnv × ProcEvent) : Prop where
  start : p.running = false →
    FreshForks label.1 p ((label.1.visit conf.modules.keys).map (instancesOf conf label.1)).sum ∧
      ∀ key mod, conf.modules.lookup key = some mod →
        label.1.access mod.modulePath = accessible mod.modulePath
  restart : ∀ spid, label.2 = .command (.restart spid) → spid ∈ p.procs →
    FreshForks label.1 (p.deleteProc spid) 1
  commands : ∀ command, label.2 = .command command →
    command = .startall ∨ (∃ pid, command = .checkPid pid) ∨
      (∃ spid name, command = .register spid name) ∨ ∃ spid, command = .restart spid

structure Supervised (conf : Config) (accessible : String → Bool) (p : Procman)
    (label : ProcEnv × ProcEvent) : Prop extends Attended conf accessible p label where
  prompt : ∀ key proc, label.2 = .tick key → p.procs.lookup key = some proc →
    proc.onRestart = false → startTimedOut conf label.1 proc = false

structure Populated (conf : Config) (accessible : String → Bool) (p : Procman) : Prop where
  before : p.running = false → p = procmanNew
  after : p.running = true → ∀ key mod, conf.modules.lookup key = some mod →
    accessible mod.modulePath = true → p.population key = mod.moduleInstances.toInt.toNat

section

variable {conf : Config} {accessible : String → Bool} {env : ProcEnv} {event : ProcEvent}
  {p q : Procman} {key spid : String} {proc : Process} {count rest : Nat}

theorem FreshForks.startProc (fresh : FreshForks env p (count + 1)) :
    FreshForks env (startProc env proc p) count := by
  have next : ∀ n, (ModBus.startProc env proc p).forks + n = p.forks + (n + 1) := by
    intro n
    rw [startProc_forks]
    omega
  constructor
  · intro n inside
    rw [next]
    exact fresh.positive (n + 1) (by omega)
  · intro n inside member
    rw [next, startProc_procs, ZHash.mem_insertNew] at member
    rcases member with same | old
    · refine fresh.distinct 0 (n + 1) (by omega) (by omega) ?_
      exact (decimal_injective_int32 same).symm
    · exact fresh.absent (n + 1) (by omega) old
  · intro m n less inside
    rw [next, next]
    exact fresh.distinct (m + 1) (n + 1) (by omega) (by omega)

theorem startProc_population (fresh : FreshForks env p (count + 1)) (other : String) :
    (startProc env proc p).population other =
      p.population other + if proc.mod = some other then 1 else 0 := by
  have absent : decimal (env.fork p.forks).toInt ∉ p.procs := fresh.absent 0 (by omega)
  simp only [Procman.population, startProc_procs, ZHash.insertNew, absent, if_false]
  rw [ZHash.count_insert _ _ absent]
  simp

theorem startInstances_population (fresh : FreshForks env p (count + rest)) :
    FreshForks env (startInstances env key count p) rest ∧ ∀ other,
      (startInstances env key count p).population other =
        p.population other + if other = key then count else 0 := by
  induction count generalizing p with
  | zero =>
      rw [Nat.zero_add] at fresh
      exact ⟨fresh, fun other => by simp [startInstances]⟩
  | succ count ih =>
      have more : FreshForks env p (count + rest + 1) := by
        rw [Nat.add_right_comm] at fresh
        exact fresh
      have started : FreshForks env (startProc env { processNew key with mod := some key } p)
          (count + rest) := more.startProc
      obtain ⟨left, population⟩ := ih started
      refine ⟨left, fun other => ?_⟩
      rw [startInstances, population, startProc_population more]
      by_cases here : other = key
      · subst here
        simp
        omega
      · simp [here, Ne.symm here]

theorem startallItem_population (fresh : FreshForks env p (instancesOf conf env key + rest)) :
    FreshForks env (startallItem conf env key p) rest ∧ ∀ other,
      (startallItem conf env key p).population other =
        p.population other + if other = key then instancesOf conf env key else 0 := by
  cases known : conf.modules.lookup key with
  | none =>
      simp only [startallItem, instancesOf, known, Nat.zero_add] at fresh ⊢
      exact ⟨fresh, fun other => by simp⟩
  | some mod =>
      simp only [startallItem, instancesOf, known] at fresh ⊢
      by_cases there : env.access mod.modulePath = true
      · rw [if_pos there] at fresh
        simp only [if_pos there]
        exact startInstances_population fresh
      · rw [if_neg there, Nat.zero_add] at fresh
        simp only [if_neg there]
        exact ⟨fresh, fun other => by simp⟩

theorem startallItem_running (key : String) (p : Procman) (running : p.running = true) :
    (startallItem conf env key p).running = true := by
  have loop : ∀ count (state : Procman), state.running = true →
      (startInstances env key count state).running = true := by
    intro count
    induction count with
    | zero => exact fun _ => id
    | succ count ih => exact fun state runs => ih _ (by rw [startProc_running]; exact runs)
  unfold startallItem
  split
  · exact running
  · split
    · exact loop _ p running
    · exact running

theorem startall_population {keys : List String} (nodup : keys.Nodup)
    (fresh : FreshForks env p (keys.map (instancesOf conf env)).sum)
    (run : ZHash.foreach (fun key p => .ok (0, startallItem conf env key p)) keys p =
      (.ok q : Except Fault Procman)) (other : String) :
    q.population other = p.population other + if other ∈ keys then instancesOf conf env other else 0 := by
  induction keys generalizing p with
  | nil =>
      cases run
      simp
  | cons key keys ih =>
      obtain ⟨absent, distinct⟩ := List.nodup_cons.mp nodup
      rw [List.map_cons, List.sum_cons] at fresh
      obtain ⟨left, population⟩ := startallItem_population fresh
      rw [ih distinct left run, population]
      by_cases here : other = key
      · subst here
        simp [absent]
      · simp [here]

/-! What the handlers do to the numbers. -/

theorem population_setProc (found : p.procs.lookup key = some proc) {new : Process}
    (same : new.mod = proc.mod) (other : String) :
    (p.setProc key new).population other = p.population other :=
  ZHash.count_update _ new found (by rw [same])

theorem population_deleteProc (found : p.procs.lookup key = some proc) (other : String) :
    (p.deleteProc key).population other + (if proc.mod = some other then 1 else 0) =
      p.population other := by
  have erased := ZHash.count_erase (fun proc => decide (proc.mod = some other)) found
  simpa [Procman.population] using erased

theorem checkpidItem_population (run : checkpidItem conf env key p = .ok q)
    (prompt : ∀ proc, p.procs.lookup key = some proc → proc.onRestart = false →
      startTimedOut conf env proc = false) (other : String) :
    q.running = p.running ∧ q.population other = p.population other := by
  unfold checkpidItem at run
  split at run
  · cases run
    exact ⟨rfl, rfl⟩
  · rename_i proc found
    split at run
    · cases run
      exact ⟨rfl, rfl⟩
    split at run
    · cases run
    split at run
    · cases run
      exact ⟨rfl, rfl⟩
    · rename_i asleep
      split at run <;> cases run
      · rename_i late
        have inTime := prompt proc found (by simpa using asleep)
        unfold health at late
        rw [inTime] at late
        simp only [Bool.false_eq_true, if_false] at late
        (repeat' split at late) <;> cases late
      · refine ⟨rfl, ?_⟩
        have told : (p.tell "restart" key).procs.lookup key = some proc := found
        have same : ({ proc with onRestart := true } : Process).mod = proc.mod := rfl
        exact population_setProc told same other
      · exact ⟨rfl, rfl⟩
      · exact ⟨rfl, rfl⟩

theorem sMainEvent_population {command : Command} (run : sMainEvent env command p = .ok q)
    (commands : command = .startall ∨ (∃ pid, command = .checkPid pid) ∨
      (∃ spid name, command = .register spid name) ∨ ∃ spid, command = .restart spid)
    (restart : ∀ spid, command = .restart spid → spid ∈ p.procs →
      FreshForks env (p.deleteProc spid) 1) (other : String) :
    q.running = p.running ∧ q.population other = p.population other := by
  rcases commands with rfl | ⟨spid, rfl⟩ | ⟨spid, name, rfl⟩ | ⟨spid, rfl⟩
  · cases run
    exact ⟨rfl, rfl⟩
  · simp only [sMainEvent] at run
    split at run
    · cases run
      exact ⟨rfl, rfl⟩
    · rename_i proc found
      split at run <;> cases run
      have asked := population_setProc found (rfl : { proc with started := true }.mod = proc.mod) other
      exact ⟨rfl, asked⟩
  · cases run
    refine ⟨rfl, ?_⟩
    simp only [Procman.population, ZHash.insertNew]
    split
    · rfl
    · rename_i fresh
      rw [ZHash.count_insert _ _ fresh]
      simp [processNew]
  · simp only [sMainEvent] at run
    split at run
    · cases run
      exact ⟨rfl, rfl⟩
    · rename_i proc found
      split at run <;> cases run
      refine ⟨by simp [Procman.deleteProc, Procman.tell, Procman.kill], ?_⟩
      have fresh : FreshForks env
          ((((p.kill (atoi spid) 3).kill (atoi spid) 9).tell "remove" spid).deleteProc spid) 1 := by
        obtain ⟨positive, absent, distinct⟩ := restart spid rfl (ZHash.mem_of_lookup found)
        exact ⟨positive, absent, distinct⟩
      have erased := population_deleteProc found other
      exact (startProc_population fresh other).trans erased

theorem Populated.step (populated : Populated conf accessible p)
    (allowed : Supervised conf accessible p (env, event))
    (first : p.running = false → event = .command .startall)
    (run : p.step conf env event = .ok q) : Populated conf accessible q := by
  cases running : p.running with
  | false =>
      obtain rfl := populated.before running
      obtain rfl := first running
      obtain ⟨fresh, agrees⟩ := allowed.start running
      simp only [Procman.step, running, Bool.false_eq_true, if_false] at run
      have nodup : (env.visit conf.modules.keys).Nodup :=
        (env.visit_perm _).nodup_iff.mpr conf.modules.keys_nodup
      have begun : FreshForks env { procmanNew with running := true }
          ((env.visit conf.modules.keys).map (instancesOf conf env)).sum :=
        ⟨fresh.positive, fresh.absent, fresh.distinct⟩
      have started : q.running = true := by
        refine ZHash.foreach_invariant (fun state => state.running = true) ?_ run rfl
        rintro key _ state rc next call runs
        cases call
        exact startallItem_running key state runs
      refine ⟨by simp [started], fun _ key mod known there => ?_⟩
      rw [startall_population nodup begun run key]
      have visited : key ∈ env.visit conf.modules.keys :=
        (env.visit_perm _).mem_iff.mpr (AList.mem_keys.mp (ZHash.mem_of_lookup known))
      have nobody : ({ procmanNew with running := true } : Procman).population key = 0 := rfl
      have file : env.access mod.modulePath = true := (agrees key mod known).trans there
      rw [nobody, if_pos visited, Nat.zero_add]
      simp only [instancesOf, known, file, if_true]
  | true =>
      have kept : ∀ other, q.running = p.running ∧ q.population other = p.population other := by
        cases event with
        | tick key =>
            exact checkpidItem_population run fun proc found => allowed.prompt key proc rfl found
        | command command =>
            simp only [Procman.step, running, if_true] at run
            exact sMainEvent_population run (allowed.commands command rfl)
              fun spid same => allowed.restart spid (by rw [same])
      refine ⟨fun stopped => ?_, fun _ key mod known there => ?_⟩
      · rw [(kept "").1, running] at stopped
        cases stopped
      · rw [(kept key).2]
        exact populated.after running key mod known there

/-- While forks are fresh and no process is late with its introduction, every
accessible module keeps its instances. -/
theorem instances_kept {mod : ConfigModule}
    (reached : Reaches (processManager conf) (Supervised conf accessible) p)
    (running : p.running = true) (known : conf.modules.lookup key = some mod)
    (there : accessible mod.modulePath = true) (wanted : 0 ≤ mod.moduleInstances.toInt) :
    (p.population key : Int) = mod.moduleInstances.toInt := by
  have populated : Populated conf accessible p := by
    refine reached.invariant (Populated conf accessible) ?_ ?_
    · rintro state rfl
      exact ⟨fun _ => rfl, fun runs => by cases runs⟩
    · rintro state ⟨env, event⟩ next allowed ⟨first, move⟩ populated
      exact populated.step allowed first move
  rw [populated.after running key mod known there]
  omega

end

theorem attended_start :
    Attended oneModule (fun _ => true) procmanNew
      (startsAs 77 (by decide), .command .startall) := by
  refine ⟨fun _ => ⟨⟨?_, ?_, ?_⟩, ?_⟩, ?_, ?_⟩
  · exact fun _ _ => (by decide : (0 : Int32) < 77)
  · intro n _ member
    cases member
  · intro m n less inside
    have one : n < 1 := inside
    omega
  · intro key mod known
    have file : ∀ key ∈ oneModule.modules.keys, ∀ mod ∈ oneModule.modules.lookup key,
        mod.modulePath = "/opt/mod" := by decide
    rw [file key (AList.mem_keys.mp (ZHash.mem_of_lookup known)) mod known]
    rfl
  · intro _ same
    cases same
  · intro _ same
    cases same
    exact Or.inl rfl

/-- The process is found dead, and another one takes its place. -/
theorem instances_kept_started :
    let started := procmanNew.after oneModule (startsAs 77 (by decide)) (.command .startall)
    let found := started.after oneModule (startsAs 77 (by decide)) (.tick "77")
    let p := found.after oneModule (startsAs 78 (by decide)) (.command (.restart "77"))
    "77" ∉ p.procs ∧ "78" ∈ p.procs ∧ (p.population "mod" : Int) = 1 := by
  intro started found p
  have first : (processManager oneModule).step procmanNew
      (startsAs 77 (by decide), .command .startall) started :=
    ⟨fun _ => rfl, procman_after (by decide)⟩
  have second : (processManager oneModule).step started (startsAs 77 (by decide), .tick "77") found :=
    ⟨fun stopped => (by cases stopped), procman_after (by decide)⟩
  have third : (processManager oneModule).step found
      (startsAs 78 (by decide), .command (.restart "77")) p :=
    ⟨fun stopped => (by cases stopped), procman_after (by decide)⟩
  have starts : Supervised oneModule (fun _ => true) procmanNew
      (startsAs 77 (by decide), .command .startall) :=
    ⟨attended_start, fun _ _ same => (by cases same)⟩
  have looks : Supervised oneModule (fun _ => true) started
      (startsAs 77 (by decide), .tick "77") := by
    refine ⟨⟨fun stopped => (by cases stopped), fun _ same => (by cases same),
      fun _ same => (by cases same)⟩, fun key proc same there _ => ?_⟩
    cases same
    have inTime : ∀ proc ∈ started.procs.lookup "77",
        startTimedOut oneModule (startsAs 77 (by decide)) proc = false := by decide
    exact inTime proc there
  have restarts : Supervised oneModule (fun _ => true) found
      (startsAs 78 (by decide), .command (.restart "77")) := by
    refine ⟨⟨fun stopped => (by cases stopped), fun spid same _ => ?_, fun command same => ?_⟩,
      fun _ _ same => (by cases same)⟩
    · cases same
      refine ⟨fun _ _ => (by decide : (0 : Int32) < 78), fun n _ => ?_, fun m n less inside => ?_⟩
      · have absent : decimal (78 : Int32).toInt ∉ (found.deleteProc "77").procs := by decide
        exact absent
      · omega
    · cases same
      exact .inr (.inr (.inr ⟨_, rfl⟩))
  have reached : Reaches (processManager oneModule) (Supervised oneModule fun _ => true) p :=
    (((Reaches.initial rfl).extend (.single starts first)).extend (.single looks second)).extend
      (.single restarts third)
  have known : oneModule.modules.lookup "mod" = some ⟨"/opt/mod", 1, 0, 3⟩ := rfl
  exact ⟨by decide, by decide, instances_kept reached (by decide) known rfl (by decide)⟩

/-- A process that is late with its introduction is killed, and nobody takes its
place. -/
theorem instances_lost :
    ¬ ∀ conf accessible p key mod, Reaches (processManager conf) (Attended conf accessible) p →
      p.running = true → conf.modules.lookup key = some mod →
      accessible mod.modulePath = true → 0 ≤ mod.moduleInstances.toInt →
      (p.population key : Int) = mod.moduleInstances.toInt := by
  intro always
  let started := procmanNew.after oneModule (startsAs 77 (by decide)) (.command .startall)
  let later := forking 5000 78 (by decide) ["/opt/mod", cmdline "77"]
  let p := started.after oneModule later (.tick "77")
  have first : (processManager oneModule).step procmanNew
      (startsAs 77 (by decide), .command .startall) started :=
    ⟨fun _ => rfl, procman_after (by decide)⟩
  have second : (processManager oneModule).step started (later, .tick "77") p :=
    ⟨fun stopped => (by cases stopped), procman_after (by decide)⟩
  have waits : Attended oneModule (fun _ => true) started (later, .tick "77") :=
    ⟨fun stopped => (by cases stopped), fun _ same => (by cases same), fun _ same => (by cases same)⟩
  have reached : Reaches (processManager oneModule) (Attended oneModule fun _ => true) p :=
    ((Reaches.initial rfl).extend (.single attended_start first)).extend (.single waits second)
  have known : oneModule.modules.lookup "mod" = some ⟨"/opt/mod", 1, 0, 3⟩ := rfl
  have kept := always oneModule (fun _ => true) p "mod" _ reached (by decide) known rfl (by decide)
  revert kept
  decide

end ModBus
