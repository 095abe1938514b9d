import ModBus.Proxy
import ModBus.Transition

/-! `procman.c`: the thread that starts the modules' processes, watches them and
carries out the main loop's commands. -/

namespace ModBus

open Libc Czmq Transition

/-- A `process_t`. Its module is a key of the configuration, which the program
points into; `freed` tells that the object is gone and only the pointer is left. -/
structure Process where
  name : String
  pid : UInt64
  mod : Option String
  startTimestamp : Int64
  started : Bool
  onRestart : Bool
  freed : Bool

structure Kill where
  pid : Int32
  signal : Nat
  deriving DecidableEq, Repr

structure Procman where
  /-- The start message has come. -/
  running : Bool
  procs : ZHash Process
  stopAll : Bool
  /-- The two-frame messages sent to the main loop, oldest first. -/
  told : List (String × String)
  kills : List Kill
  /-- How many times `fork` was called. -/
  forks : Nat

structure ProcEnv where
  zclockTime : Int64
  /-- The order of a hash table's buckets. -/
  visit : List String → List String
  visit_perm : ∀ keys, (visit keys).Perm keys
  /-- What the parent gets from the `n`-th `fork` of the run. -/
  fork : Nat → Int32
  fork_parent : ∀ n, 0 < fork n ∨ fork n = -1
  access : String → Bool
  /-- The resident pages that `/proc/<pid>/statm` tells, if it does. -/
  rss : String → Option Int64
  pageSize : UInt64

def processNew (name : String) : Process where
  name := name
  pid := 0
  mod := none
  startTimestamp := 0
  started := false
  onRestart := false
  freed := false

def procmanNew : Procman where
  running := false
  procs := ∅
  stopAll := false
  told := []
  kills := []
  forks := 0

def strpid (pid : UInt64) : String := decimal pid.toInt64.toInt

def forkFailed : UInt64 := (-1 : Int32).toInt64.toUInt64

/-- A failed `fork` is taken for a process first: what is inserted is freed. -/
def startProc (env : ProcEnv) (proc : Process) (p : Procman) : Procman :=
  let forkRv := (env.fork p.forks).toInt64.toUInt64
  let forked := { p with forks := p.forks + 1 }
  if 0 < forkRv then
    let entry := { proc with
      startTimestamp := env.zclockTime, pid := forkRv, freed := decide (forkRv = forkFailed) }
    { forked with procs := (ZHash.insertNew p.procs (strpid forkRv) entry).2 }
  else forked

def startInstances (env : ProcEnv) (key : String) : Nat → Procman → Procman
  | 0, p => p
  | count + 1, p =>
      startInstances env key count (startProc env { processNew key with mod := some key } p)

def startallItem (conf : Config) (env : ProcEnv) (key : String) (p : Procman) : Procman :=
  match conf.modules.lookup key with
  | none => p
  | some mod =>
      if env.access mod.modulePath then startInstances env key mod.moduleInstances.toInt.toNat p
      else p

def startall (conf : Config) (env : ProcEnv) (p : Procman) : Except Fault Procman :=
  ZHash.foreach (fun key p => .ok (0, startallItem conf env key p))
    (env.visit conf.modules.keys) p

def Procman.tell (p : Procman) (command text : String) : Procman :=
  { p with told := p.told ++ [(command, text)] }

def Procman.kill (p : Procman) (pid : Int32) (signal : Nat) : Procman :=
  { p with kills := p.kills ++ [⟨pid, signal⟩] }

def Procman.setProc (p : Procman) (key : String) (proc : Process) : Procman :=
  { p with procs := ZHash.update p.procs key proc }

def Procman.deleteProc (p : Procman) (key : String) : Procman :=
  { p with procs := p.procs.erase key }

def cmdline (key : String) : String := "/proc/" ++ key ++ "/cmdline"

inductive Health
  | late
  | gone
  | tooBig
  | fine
  deriving DecidableEq, Repr

def startTimedOut (conf : Config) (env : ProcEnv) (proc : Process) : Bool :=
  match proc.mod.bind conf.modules.lookup with
  | none => false
  | some mod =>
      !proc.started && proc.startTimestamp ≠ 0 &&
        (mod.moduleStartTimeout * 1000).toInt64 < env.zclockTime - proc.startTimestamp

/-- A process that was only ever registered has no module to tell its limit. -/
def health (conf : Config) (env : ProcEnv) (key : String) (proc : Process) :
    Except Fault Health :=
  if startTimedOut conf env proc then .ok .late
  else if !env.access (cmdline key) then .ok .gone
  else if proc.started then
    match proc.mod.bind conf.modules.lookup with
    | none => .error .nullDeref
    | some mod =>
        if mod.moduleMaxmem = 0 then .ok .fine
        else
          match env.rss key with
          | none => .ok .fine
          | some rss =>
              if mod.moduleMaxmem.toInt64.toUInt64 < rss.toUInt64 * env.pageSize / (1024 * 1024)
              then .ok .tooBig
              else .ok .fine
  else .ok .fine

def checkpidItem (conf : Config) (env : ProcEnv) (key : String) (p : Procman) :
    Except Fault Procman :=
  match p.procs.lookup key with
  | none => .ok p
  | some proc =>
      if p.stopAll then .ok p
      else if proc.freed then .error .useAfterFree
      else if proc.onRestart then .ok p
      else
        match health conf env key proc with
        | .error fault => .error fault
        | .ok .late => .ok ((p.kill (atoi key) 9).deleteProc key)
        | .ok .gone => .ok ((p.tell "restart" key).setProc key { proc with onRestart := true })
        | .ok .tooBig => .ok (p.tell "restart" key)
        | .ok .fine => .ok p

def checkpidEvent (conf : Config) (env : ProcEnv) (p : Procman) : Except Fault Procman :=
  ZHash.foreach
    (fun key p =>
      match checkpidItem conf env key p with
      | .error fault => .error fault
      | .ok p => .ok (0, p))
    (env.visit p.procs.keys) p

def killallItem (key : String) (p : Procman) : Except Fault (Int × Procman) :=
  match p.procs.lookup key with
  | none => .ok (0, p)
  | some proc =>
      if proc.freed then .error .useAfterFree
      else if proc.pid = 0 then .ok (0, p)
      else .ok (0, (p.kill (toInt proc.pid) 3).kill (toInt proc.pid) 9)

/-- The commands of the main loop. The hard kill of `kill` is the soft one again,
and what started the thread is ignored later. -/
def sMainEvent (env : ProcEnv) (command : Command) (p : Procman) : Except Fault Procman :=
  match command with
  | .startall => .ok p
  | .stopAll => .ok { p with stopAll := true }
  | .checkPid spid =>
      match p.procs.lookup spid with
      | none => .ok (p.tell "check_pid" "no")
      | some proc =>
          if proc.freed then .error .useAfterFree
          else .ok ((p.setProc spid { proc with started := true }).tell "check_pid" "yes")
  | .register spid name =>
      .ok { p with procs := (ZHash.insertNew p.procs spid (processNew name)).2 }
  | .kill spid =>
      match p.procs.lookup spid with
      | none => .ok p
      | some proc =>
          if proc.freed then .error .useAfterFree
          else .ok (((p.kill (atoi spid) 3).kill (atoi spid) 3).deleteProc spid)
  | .restart spid =>
      match p.procs.lookup spid with
      | none => .ok p
      | some proc =>
          if proc.freed then .error .useAfterFree
          else
            let killed := ((p.kill (atoi spid) 3).kill (atoi spid) 9).tell "remove" spid
            .ok (startProc env { processNew proc.name with mod := proc.mod }
              (killed.deleteProc spid))
  | .killall => ZHash.foreach killallItem (env.visit p.procs.keys) p

inductive ProcEvent
  | command (command : Command)
  | tick (key : String)

/-- The thread starts all modules on the first message that it gets. -/
def Procman.step (conf : Config) (env : ProcEnv) (event : ProcEvent) (p : Procman) :
    Except Fault Procman :=
  match event with
  | .command command =>
      if p.running then sMainEvent env command p else startall conf env { p with running := true }
  | .tick key => checkpidItem conf env key p

def processManager (conf : Config) : System Procman (ProcEnv × ProcEvent) where
  initial p := p = procmanNew
  step p label q := (p.running = false → label.2 = .command .startall) ∧
    p.step conf label.1 label.2 = .ok q

section Frames

variable (p : Procman) (env : ProcEnv) (proc : Process) (pid : Int32) (signal : Nat)
  (command text key : String)

@[simp] theorem kill_procs : (p.kill pid signal).procs = p.procs := rfl
@[simp] theorem kill_kills : (p.kill pid signal).kills = p.kills ++ [⟨pid, signal⟩] := rfl
@[simp] theorem kill_told : (p.kill pid signal).told = p.told := rfl
@[simp] theorem tell_procs : (p.tell command text).procs = p.procs := rfl
@[simp] theorem tell_kills : (p.tell command text).kills = p.kills := rfl
@[simp] theorem tell_told : (p.tell command text).told = p.told ++ [(command, text)] := rfl
@[simp] theorem setProc_procs :
    (p.setProc key proc).procs = ZHash.update p.procs key proc := rfl
@[simp] theorem setProc_kills : (p.setProc key proc).kills = p.kills := rfl
@[simp] theorem setProc_told : (p.setProc key proc).told = p.told := rfl
@[simp] theorem deleteProc_procs : (p.deleteProc key).procs = p.procs.erase key := rfl
@[simp] theorem deleteProc_kills : (p.deleteProc key).kills = p.kills := rfl
@[simp] theorem deleteProc_told : (p.deleteProc key).told = p.told := rfl
@[simp] theorem deleteProc_forks : (p.deleteProc key).forks = p.forks := rfl

@[simp] theorem startProc_kills : (startProc env proc p).kills = p.kills := by
  unfold startProc
  simp only []
  split <;> rfl

@[simp] theorem startProc_told : (startProc env proc p).told = p.told := by
  unfold startProc
  simp only []
  split <;> rfl

@[simp] theorem startProc_running : (startProc env proc p).running = p.running := by
  unfold startProc
  simp only []
  split <;> rfl

@[simp] theorem startProc_stopAll : (startProc env proc p).stopAll = p.stopAll := by
  unfold startProc
  simp only []
  split <;> rfl

@[simp] theorem startProc_forks : (startProc env proc p).forks = p.forks + 1 := by
  unfold startProc
  simp only []
  split <;> rfl

end Frames

/-! What `fork` returns, in the variables that hold it. -/

theorem toInt_fork (pid : Int32) : toInt pid.toInt64.toUInt64 = pid := by
  apply Int32.toBitVec_inj.mp
  apply BitVec.eq_of_getLsbD_eq
  intro i inside
  have within : i < 64 := by omega
  have bits : (pid.toBitVec.signExtend 64).getLsbD i = pid.toBitVec.getLsbD i := by
    simp only [BitVec.getLsbD_signExtend, inside, within, if_true, decide_true, Bool.true_and]
  have low : ((pid.toBitVec.signExtend 64).setWidth 32).getLsbD i = pid.toBitVec.getLsbD i := by
    rw [BitVec.getLsbD_setWidth, bits]
    simp [inside]
  exact low

theorem strpid_fork (pid : Int32) : strpid pid.toInt64.toUInt64 = decimal pid.toInt := by
  simp [strpid]

theorem fork_ne_zero {pid : Int32} (parent : pid ≠ 0) : 0 < pid.toInt64.toUInt64 := by
  rw [UInt64.pos_iff_ne_zero]
  intro same
  have zero := congrArg UInt64.toInt64 same
  have wide : pid.toInt = 0 := by simpa using congrArg Int64.toInt zero
  exact parent (Int32.toInt_inj.mp wide)

theorem ProcEnv.fork_ne (env : ProcEnv) (n : Nat) : env.fork n ≠ 0 := by
  rcases env.fork_parent n with positive | failed
  · rintro same
    simp [same] at positive
  · rw [failed]
    decide

theorem fork_failed {pid : Int32} : pid.toInt64.toUInt64 = forkFailed ↔ pid = -1 := by
  constructor
  · intro same
    rw [← toInt_fork pid, same]
    rfl
  · rintro rfl
    rfl

/-- In the parent every `fork` reaches the insertion. -/
theorem startProc_procs (env : ProcEnv) (proc : Process) (p : Procman) :
    (startProc env proc p).procs = (ZHash.insertNew p.procs (decimal (env.fork p.forks).toInt)
      { proc with
        startTimestamp := env.zclockTime, pid := (env.fork p.forks).toInt64.toUInt64
        freed := decide (env.fork p.forks = -1) }).2 := by
  simp only [startProc, fork_ne_zero (env.fork_ne p.forks), if_true, strpid_fork, fork_failed]

end ModBus
