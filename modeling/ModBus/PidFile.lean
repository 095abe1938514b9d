import ModBus.ConfigFile
import ModBus.Transition

/-! Several instances of the program on one host, up to their main loop and after
it: how each makes, locks and in the end removes the pid-file it is configured with,
and what the one who starts a daemon learns of it. -/

namespace ModBus

open Libc Transition

/-- The pid-files on the host: what the directories have under each name, what was
written to every file made so far, and who has a lock in it. -/
structure PidFiles where
  entry : String → Option Nat
  made : Nat
  written : Nat → List Char
  lock : Nat → Option Nat

/-- Where an instance is: before `daemonize`, in `pause`, in `createPidFile`, before
`setsid`, in `execute`, and in `finalize` once `zctx_interrupted` is set. From `open`
on it has the file's descriptor in `f_lock`, which is 0 before. -/
inductive Point
  | starting
  | waiting
  | opening
  | testing (fLock : Nat)
  | locking (fLock : Nat)
  | writing (fLock : Nat)
  | detaching (fLock : Nat)
  | executing (fLock : Option Nat)
  | finalizing (fLock : Option Nat)
  | unlinking (fLock : Option Nat)
  | leaving
  | exited (status : Option Int32)

inductive Signal
  | chld
  | usr1
  | alrm
  | term
  | kill

structure Instance where
  conf : ConfigFile
  pid : Int32
  point : Point
  child : Option Nat := none
  trapped : Bool := false
  ignoring : Bool := false

structure Host where
  files : PidFiles
  instances : Nat → Option Instance

inductive HostEvent
  | launch (pid : Int32) (conf : Option ConfigFile)
  | daemonize (getppid : Int32) (fork : Option (Nat × Int32))
  | openExcl (refused : Bool)
  | lockf (refused : Bool)
  | write (count : Nat)
  | setsid (refused : Bool)
  | procman
  | fails (status : Int32)
  | loopEnds
  | unlink (refused : Bool)
  | exit
  | signal (signum : Signal)

namespace PidFiles

variable (files : PidFiles) (name : String) (inode owner : Nat)

def create : PidFiles :=
  { files with
    entry := Function.update files.entry name (some files.made)
    made := files.made + 1
    written := Function.update files.written files.made [] }

def unlink : PidFiles := { files with entry := Function.update files.entry name none }

def append (text : List Char) : PidFiles :=
  { files with written := Function.update files.written inode (files.written inode ++ text) }

def locked : Bool := (files.lock inode).any (· ≠ owner)

def take : PidFiles := { files with lock := Function.update files.lock inode (some owner) }

/-- `F_ULOCK` from where the last `write` ended: what was written stays locked. -/
def unlock : PidFiles :=
  if files.written inode = [] then { files with lock := Function.update files.lock inode none }
  else files

def release : PidFiles :=
  { files with
    lock := fun inode => if files.lock inode = some owner then none else files.lock inode }

end PidFiles

def exitSuccess : Int32 := 0

def exitFailure : Int32 := 1

namespace Host

variable (host : Host) (id : Nat) (self : Instance)

def put : Host := { host with instances := Function.update host.instances id (some self) }

def ended (status : Option Int32) : Host :=
  { files := host.files.release id
    instances := Function.update host.instances id (some { self with point := .exited status }) }

end Host

def modbusdMain (pid : Int32) : Option ConfigFile → Instance
  | none => { conf := {}, pid := pid, point := .exited (some (-1)) }
  | some conf =>
      { conf := conf, pid := pid, point := if conf.daemon = 0 then .opening else .starting }

/-- Whoever has process 1 as its parent is taken for a daemon already, and goes on
without a pid-file. -/
def daemonize (host : Host) (id : Nat) (self : Instance) (getppid : Int32) :
    Option (Nat × Int32) → Option Host
  | fork =>
    if getppid = 1 then some (host.put id { self with point := .executing none })
    else
      match fork with
      | none => some (host.ended id self (some exitFailure))
      | some (child, pid) =>
          if child = id ∨ (host.instances child).isSome then none
          else
            let parent := { self with point := .waiting, child := some child, trapped := true }
            let daemon := { self with point := .opening, pid := pid, trapped := true }
            some ((host.put id parent).put child daemon)

def pidText (pid : Int32) : List Char := (fitted 10 (decimal pid.toInt)).toList

def createPidFile (host : Host) (id : Nat) (self : Instance) (event : HostEvent) : Option Host :=
  match self.point, event with
  | .opening, .openExcl refused =>
      some <|
        if refused ∨ (host.files.entry self.conf.pidFile).isSome then
          host.ended id self (some exitFailure)
        else
          { host.put id { self with point := .testing host.files.made } with
            files := host.files.create self.conf.pidFile }
  | .testing fLock, .lockf refused =>
      some <|
        if refused ∨ host.files.locked fLock id then host.ended id self (some exitFailure)
        else host.put id { self with point := .locking fLock }
  | .locking fLock, .lockf refused =>
      some <|
        if refused ∨ host.files.locked fLock id then host.ended id self (some exitFailure)
        else
          { host.put id { self with point := .writing fLock } with
            files := host.files.take fLock id }
  | .writing fLock, .write count =>
      let buf := pidText self.pid
      let point := if self.conf.daemon = 0 then .executing (some fLock) else .detaching fLock
      if count ≤ buf.length then
        some { host.put id { self with point := point } with
          files := host.files.append fLock (buf.take count) }
      else none
  | _, _ => none

def finalizeFile (host : Host) (id : Nat) (self : Instance) (event : HostEvent) : Option Host :=
  match self.point, event with
  | .finalizing fLock, .lockf refused =>
      let files := if refused then host.files else fLock.elim host.files host.files.unlock
      some { host.put id { self with point := .unlinking fLock } with files := files }
  | .unlinking _, .unlink refused =>
      let files := if refused then host.files else host.files.unlink self.conf.pidFile
      some { host.put id { self with point := .leaving } with files := files }
  | .leaving, .exit => some (host.ended id self (some 0))
  | _, _ => none

/-- `execute` as a whole: the process manager's thread sets `SIGCHLD` to be ignored,
a socket that cannot be had ends the program, and so does the end of the loop. -/
def executeFabric (host : Host) (id : Nat) (self : Instance) (fLock : Option Nat) :
    HostEvent → Option Host
  | .procman => some (host.put id { self with ignoring := true })
  | .fails status => some (host.ended id self (some status))
  | .loopEnds => some (host.put id { self with point := .finalizing fLock })
  | _ => none

def parentHandler : Signal → Int32
  | .chld => exitSuccess
  | _ => exitFailure

def sSignalHandler (host : Host) (id : Nat) (self : Instance) : Host :=
  match self.point with
  | .executing fLock => host.put id { self with point := .finalizing fLock }
  | .finalizing _ | .unlinking _ | .leaving => host.ended id self (some 0)
  -- not set yet
  | _ => host.ended id self none

namespace Host

variable (host : Host) (id : Nat) (self : Instance)

def signal (signum : Signal) : Host :=
  match signum with
  | .chld =>
      if self.trapped ∧ ¬self.ignoring then host.ended id self (some (parentHandler .chld))
      else host
  | .usr1 | .alrm => host.ended id self (if self.trapped then some (parentHandler signum) else none)
  | .term => sSignalHandler host id self
  | .kill => host.ended id self none

def proceed (event : HostEvent) : Option Host :=
  match self.point, event with
  | .exited _, _ => none
  | _, .signal signum => some (host.signal id self signum)
  | .starting, .daemonize getppid fork => daemonize host id self getppid fork
  -- `finalize` uses the proxy, which is not there yet
  | .detaching fLock, .setsid refused =>
      some (if refused then host.ended id self none
        else host.put id { self with point := .executing (some fLock) })
  | .executing fLock, event => executeFabric host id self fLock event
  | .finalizing _, event | .unlinking _, event | .leaving, event => finalizeFile host id self event
  | _, event => createPidFile host id self event

def step (event : HostEvent) : Option Host :=
  match host.instances id, event with
  | none, .launch pid conf => some (host.put id (modbusdMain pid conf))
  | none, _ => none
  | some self, event => host.proceed id self event

end Host

def hosts : System Host (Nat × HostEvent) where
  initial host := (∀ id, host.instances id = none) ∧ ∀ inode, host.files.lock inode = none
  step host label next := host.step label.1 label.2 = some next

def NotAdopted (_ : Host) (label : Nat × HostEvent) : Prop :=
  ∀ getppid fork, label.2 = .daemonize getppid fork → getppid ≠ 1

def Point.held : Point → Option Nat
  | .testing fLock | .locking fLock | .writing fLock | .detaching fLock => some fLock
  | .executing fLock | .finalizing fLock | .unlinking fLock => fLock
  | _ => none

def Point.Idle : Point → Prop
  | .starting | .waiting | .opening | .leaving | .exited _ => True
  | _ => False

def Point.Keeps (files : PidFiles) (id : Nat) (pid : Int32) : Point → Prop
  | .testing inode | .locking inode =>
      inode < files.made ∧ files.lock inode = none ∧ files.written inode = []
  | .writing inode => inode < files.made ∧ files.lock inode = some id ∧ files.written inode = []
  | .detaching inode | .executing (some inode) | .finalizing (some inode) =>
      inode < files.made ∧ files.lock inode = some id ∧ files.written inode <+: pidText pid
  | .unlinking (some inode) =>
      inode < files.made ∧ (files.lock inode = none ∨ files.lock inode = some id) ∧
        files.written inode <+: pidText pid
  | .executing none | .finalizing none | .unlinking none => False
  | _ => True

inductive Effect (host : Host) (id : Nat) : HostEvent → Host → Prop
  | unmoved {event} : Effect host id event host
  | launches {event self} (new : host.instances id = none) (idle : self.point.Idle)
      (alone : self.child = none) : Effect host id event (host.put id self)
  | adopts {fork self} (found : host.instances id = some self) (point : self.point = .starting) :
      Effect host id (.daemonize 1 fork) (host.put id { self with point := .executing none })
  | forks {event self child pid} (found : host.instances id = some self)
      (point : self.point = .starting) (other : child ≠ id) (new : host.instances child = none) :
      Effect host id event
        ((host.put id
          { self with point := .waiting, child := some child, trapped := true }).put child
          { self with point := .opening, pid := pid, trapped := true })
  | opens {event self} (found : host.instances id = some self) (point : self.point = .opening)
      (free : host.files.entry self.conf.pidFile = none) :
      Effect host id event { host.put id { self with point := .testing host.files.made } with
        files := host.files.create self.conf.pidFile }
  | goesOn {event self point ignoring files} (found : host.instances id = some self)
      (running : ∀ status, self.point ≠ .exited status) (awake : self.point ≠ .waiting)
      (held : point.held = self.point.held) (entry : files.entry = host.files.entry)
      (made : files.made = host.files.made)
      (elsewhere : ∀ inode, self.point.held ≠ some inode →
        files.lock inode = host.files.lock inode ∧ files.written inode = host.files.written inode)
      (keeps : self.point.Keeps host.files id self.pid → point.Keeps files id self.pid) :
      Effect host id event { host.put id { self with point := point, ignoring := ignoring } with
        files := files }
  | removes {event self fLock} (found : host.instances id = some self)
      (point : self.point = .unlinking fLock) :
      Effect host id event { host.put id { self with point := .leaving } with
        files := host.files.unlink self.conf.pidFile }
  | keepsFile {event self fLock} (found : host.instances id = some self)
      (point : self.point = .unlinking fLock) :
      Effect host id event (host.put id { self with point := .leaving })
  | ends {event self status} (found : host.instances id = some self)
      (running : ∀ status, self.point ≠ .exited status)
      (told : self.point = .waiting → status = some exitSuccess ∧ event = .signal .chld ∨
        status = some exitFailure ∨ status = none) :
      Effect host id event (host.ended id self status)

section

variable {host next : Host} {id : Nat} {self : Instance} {event : HostEvent} {point : Point}
  {files : PidFiles} {inode other owner : Nat} {text : List Char}

@[simp] theorem put_self : (host.put id self).instances id = some self := Function.update_self ..

theorem put_other (different : other ≠ id) :
    (host.put id self).instances other = host.instances other :=
  Function.update_of_ne different ..

@[simp] theorem ended_self (status : Option Int32) : (host.ended id self status).instances id =
    some { self with point := .exited status } :=
  Function.update_self ..

theorem take_elsewhere (different : other ≠ inode) :
    (files.take inode owner).lock other = files.lock other ∧
      (files.take inode owner).written other = files.written other :=
  ⟨Function.update_of_ne different .., rfl⟩

theorem append_elsewhere (different : other ≠ inode) :
    (files.append inode text).lock other = files.lock other ∧
      (files.append inode text).written other = files.written other :=
  ⟨rfl, Function.update_of_ne different ..⟩

theorem append_written :
    (files.append inode text).written inode = files.written inode ++ text :=
  Function.update_self ..

@[simp] theorem unlock_entry : (files.unlock inode).entry = files.entry := by
  unfold PidFiles.unlock
  split <;> rfl

@[simp] theorem unlock_made : (files.unlock inode).made = files.made := by
  unfold PidFiles.unlock
  split <;> rfl

@[simp] theorem unlock_written : (files.unlock inode).written = files.written := by
  unfold PidFiles.unlock
  split <;> rfl

theorem unlock_lock (files : PidFiles) (inode : Nat) : (files.unlock inode).lock inode = none ∨
    (files.unlock inode).lock inode = files.lock inode := by
  unfold PidFiles.unlock
  split
  · exact .inl (Function.update_self ..)
  · exact .inr rfl

theorem unlock_elsewhere (different : other ≠ inode) :
    (files.unlock inode).lock other = files.lock other ∧
      (files.unlock inode).written other = files.written other := by
  unfold PidFiles.unlock
  split
  · exact ⟨Function.update_of_ne different .., rfl⟩
  · exact ⟨rfl, rfl⟩

theorem Effect.finish (event : HostEvent) (found : host.instances id = some self)
    (running : ∀ status, self.point ≠ .exited status) (awake : self.point ≠ .waiting) (status : Option Int32) :
    Effect host id event (host.ended id self status) :=
  .ends found running fun waits => absurd waits awake

theorem Effect.advances (found : host.instances id = some self)
    (running : ∀ status, self.point ≠ .exited status) (awake : self.point ≠ .waiting)
    (held : point.held = self.point.held)
    (keeps : self.point.Keeps host.files id self.pid → point.Keeps host.files id self.pid) :
    Effect host id event (host.put id { self with point := point }) :=
  .goesOn found running awake held rfl rfl (fun _ _ => ⟨rfl, rfl⟩) keeps

theorem daemonize_effect {getppid : Int32} {fork : Option (Nat × Int32)}
    (found : host.instances id = some self) (point : self.point = .starting)
    (ran : daemonize host id self getppid fork = some next) :
    Effect host id (.daemonize getppid fork) next := by
  unfold daemonize at ran
  split at ran
  · rename_i adopted
    subst adopted
    cases ran
    exact .adopts found point
  · cases fork with
    | none =>
        cases ran
        exact .finish _ found (by simp [point]) (by simp [point]) _
    | some child =>
        dsimp only at ran
        split at ran
        · cases ran
        · rename_i fresh
          rw [not_or, Bool.not_eq_true, Option.isSome_eq_false_iff,
            Option.isNone_iff_eq_none] at fresh
          cases ran
          exact .forks found point fresh.1 fresh.2

theorem createPidFile_effect (found : host.instances id = some self)
    (ran : createPidFile host id self event = some next) : Effect host id event next := by
  unfold createPidFile at ran
  split at ran
  · rename_i refused point
    cases ran
    split
    · exact .finish _ found (by simp [point]) (by simp [point]) _
    · rename_i free
      rw [not_or, Bool.not_eq_true (Option.isSome _), Option.isSome_eq_false_iff,
        Option.isNone_iff_eq_none] at free
      exact .opens found point free.2
  · rename_i fLock refused point
    cases ran
    split
    · exact .finish _ found (by simp [point]) (by simp [point]) _
    · refine .advances found (by simp [point]) (by simp [point]) (by simp [point, Point.held]) ?_
      rw [point]
      exact fun keeps => keeps
  · rename_i fLock refused point
    cases ran
    split
    · exact .finish _ found (by simp [point]) (by simp [point]) _
    · refine .goesOn found (by simp [point]) (by simp [point]) (by simp [point, Point.held]) rfl
        rfl ?_ ?_
      · intro inode elsewhere
        refine take_elsewhere fun same => elsewhere ?_
        rw [point, same]
        rfl
      · rw [point]
        exact fun ⟨inside, _, empty⟩ => ⟨inside, Function.update_self .., empty⟩
  · rename_i fLock count point
    dsimp only at ran
    split at ran
    · cases ran
      have writes : self.point.Keeps host.files id self.pid →
          fLock < host.files.made ∧ host.files.lock fLock = some id ∧
            (host.files.append fLock ((pidText self.pid).take count)).written fLock <+:
              pidText self.pid := by
        rw [point]
        rintro ⟨inside, mine, empty⟩
        refine ⟨inside, mine, ?_⟩
        rw [append_written, empty, List.nil_append]
        exact List.take_prefix _ _
      refine .goesOn found (by simp [point]) (by simp [point]) ?_ rfl rfl ?_ ?_
      · rw [point]
        split <;> rfl
      · intro inode elsewhere
        refine append_elsewhere fun same => elsewhere ?_
        rw [point, same]
        rfl
      · split <;> exact writes
    · cases ran
  · cases ran

theorem finalizeFile_effect (found : host.instances id = some self)
    (ran : finalizeFile host id self event = some next) : Effect host id event next := by
  unfold finalizeFile at ran
  split at ran
  · rename_i fLock refused point
    cases ran
    have held : (Point.unlinking fLock).held = self.point.held := by rw [point]; rfl
    have still : self.point.Keeps host.files id self.pid →
        (Point.unlinking fLock).Keeps host.files id self.pid := by
      rw [point]
      cases fLock with
      | none => exact fun keeps => keeps
      | some inode => exact fun ⟨inside, mine, text⟩ => ⟨inside, .inr mine, text⟩
    split
    · exact .advances found (by simp [point]) (by simp [point]) held still
    cases fLock with
    | none => exact .advances found (by simp [point]) (by simp [point]) held still
    | some inode =>
        refine .goesOn found (by simp [point]) (by simp [point]) held (unlock_entry ..)
          (unlock_made ..) ?_ ?_
        · intro other elsewhere
          refine unlock_elsewhere fun same => elsewhere ?_
          rw [point, same]
          rfl
        · intro keeps
          obtain ⟨inside, mine, text⟩ := still keeps
          refine ⟨by simpa using inside, ?_, by simpa using text⟩
          rcases unlock_lock host.files inode with gone | same
          · exact .inl gone
          · rw [Option.elim_some, same]
            exact mine
  · rename_i fLock refused point
    cases ran
    split
    · exact .keepsFile found point
    · exact .removes found point
  · rename_i point
    cases ran
    exact .finish _ found (by simp [point]) (by simp [point]) _
  · cases ran

theorem executeFabric_effect {fLock : Option Nat} (found : host.instances id = some self)
    (point : self.point = .executing fLock)
    (ran : executeFabric host id self fLock event = some next) : Effect host id event next := by
  have finish : ∀ status, Effect host id event (host.ended id self status) :=
    .finish _ found (by simp [point]) (by simp [point])
  unfold executeFabric at ran
  split at ran
  · cases ran
    exact .goesOn found (by simp [point]) (by simp [point]) rfl rfl rfl (fun _ _ => ⟨rfl, rfl⟩)
      fun keeps => keeps
  · cases ran
    exact finish _
  · cases ran
    refine .advances found (by simp [point]) (by simp [point]) (by simp [point, Point.held]) ?_
    rw [point]
    cases fLock <;> exact fun keeps => keeps
  · cases ran

theorem signal_effect {signum : Signal} (found : host.instances id = some self)
    (running : ∀ status, self.point ≠ .exited status) (awake : self.point ≠ .waiting) :
    Effect host id event (host.signal id self signum) := by
  have finish := Effect.finish event found running awake
  unfold Host.signal
  split
  · split
    · exact finish _
    · exact .unmoved
  · exact finish _
  · exact finish _
  · unfold sSignalHandler
    split
    · rename_i fLock point
      refine .advances found running awake (by simp [point, Point.held]) ?_
      rw [point]
      cases fLock <;> exact fun keeps => keeps
    all_goals exact finish _
  · exact finish _

/-- In `pause` an instance ends by every signal, well only by `SIGCHLD`. -/
theorem signal_waiting {signum : Signal} (found : host.instances id = some self)
    (point : self.point = .waiting) :
    Effect host id (.signal signum) (host.signal id self signum) := by
  have fails : ∀ status, status = some exitFailure ∨ status = none →
      Effect host id (.signal signum) (host.ended id self status) := by
    intro status failed
    exact .ends found (by simp [point]) fun _ => .inr failed
  cases signum with
  | chld =>
      unfold Host.signal
      dsimp only
      split
      · exact .ends found (by simp [point]) fun _ => .inl ⟨rfl, rfl⟩
      · exact .unmoved
  | usr1 | alrm =>
      refine fails _ ?_
      split
      · exact .inl rfl
      · exact .inr rfl
  | term =>
      rw [Host.signal, sSignalHandler, point]
      exact fails none (.inr rfl)
  | kill => exact fails none (.inr rfl)

theorem proceed_effect (found : host.instances id = some self)
    (ran : host.proceed id self event = some next) : Effect host id event next := by
  unfold Host.proceed at ran
  split at ran
  · cases ran
  · rename_i signum running
    cases ran
    by_cases point : self.point = .waiting
    · exact signal_waiting found point
    · exact signal_effect found running point
  · rename_i getppid fork point
    exact daemonize_effect found point ran
  · rename_i fLock refused point
    cases ran
    split
    · exact .finish _ found (by simp [point]) (by simp [point]) _
    · refine .advances found (by simp [point]) (by simp [point]) (by simp [point, Point.held]) ?_
      rw [point]
      exact fun keeps => keeps
  · rename_i fLock point _
    exact executeFabric_effect found point ran
  · exact finalizeFile_effect found ran
  · exact finalizeFile_effect found ran
  · exact finalizeFile_effect found ran
  · exact createPidFile_effect found ran

theorem step_effect (moved : host.step id event = some next) : Effect host id event next := by
  unfold Host.step at moved
  split at moved
  · rename_i pid conf new
    cases moved
    refine .launches new ?_ ?_
    · cases conf with
      | none => trivial
      | some conf =>
          dsimp only [modbusdMain]
          split <;> trivial
    · cases conf <;> rfl
  · cases moved
  · rename_i self found
    exact proceed_effect found moved

end

end ModBus
