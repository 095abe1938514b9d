import ModBus.PidFile
import ModBus.Simulation
import ModBus.Tenancy

/-! At most one instance for each pid-file, and what becomes of a pid-file whose
instance is gone. -/

namespace ModBus

open Libc Transition

def Point.Busy : Point → Prop
  | .testing _ | .locking _ | .writing _ | .detaching _ => True
  | .executing _ | .finalizing _ | .unlinking _ => True
  | _ => False

def Instance.tenure (self : Instance) : Option (String × Nat) :=
  self.point.held.map fun inode => (self.conf.pidFile, inode)

def Host.tenancies (host : Host) : Tenancy.Tenancies Nat String Nat where
  entry := host.files.entry
  tenure id := (host.instances id).bind Instance.tenure

structure Sound (host : Host) : Prop where
  unlocked : ∀ inode, host.files.made ≤ inode → host.files.lock inode = none
  apart : ∀ id other self rival inode, host.instances id = some self →
    host.instances other = some rival → self.point.held = some inode →
    rival.point.held = some inode → id = other
  keeps : ∀ id self, host.instances id = some self → self.point.Keeps host.files id self.pid

structure Sole (host : Host) (id : Nat) (holder : Instance) : Prop where
  file : ∃ inode, host.files.entry holder.conf.pidFile = some inode ∧
    holder.point.held = some inode ∧ host.files.locked inode id = false ∧
    host.files.written inode <+: pidText holder.pid ∧
    ∀ fLock, holder.point = .executing fLock → host.files.lock inode = some id
  alone : ∀ other rival, host.instances other = some rival →
    rival.conf.pidFile = holder.conf.pidFile → rival.point.Busy → other = id
  refused : ∀ other rival answer next, host.instances other = some rival →
    rival.conf.pidFile = holder.conf.pidFile → rival.point = .opening →
    host.step other (.openExcl answer) = some next →
      next = host.ended other rival (some exitFailure)

def Host.HasEnded (host : Host) (id : Nat) : Prop :=
  ∃ self status, host.instances id = some self ∧ self.point = .exited status

/-- What `SIGCHLD` tells a parent in `pause` is the end of its daemon: none is stopped,
no other child ends, and nobody sends the signal by hand. -/
def ToldTrue (host : Host) (label : Nat × HostEvent) : Prop :=
  ∀ self child, label.2 = .signal .chld → host.instances label.1 = some self →
    self.point = .waiting → self.child = some child → host.HasEnded child

structure Informed (host : Host) (parent : Instance) (child : Nat) : Prop where
  forked : (host.instances child).isSome
  paused : parent.point = .waiting ∨ parent.point = .exited (some exitFailure) ∨
    parent.point = .exited none ∨
    parent.point = .exited (some exitSuccess) ∧ host.HasEnded child

structure Alone (guard : Host → Nat × HostEvent → Prop) (host next : Host) (id : Nat)
    (mover : Instance) : Prop where
  run : Run hosts guard host next
  here : next.instances id = some mover
  others : ∀ other, other ≠ id → next.instances other = host.instances other

section

variable {host next : Host} {id other : Nat} {self after : Instance} {event : HostEvent}
  {point : Point} {files : PidFiles} {inode : Nat} {pid : Int32} {text : List Char}

theorem Point.Idle.held (idle : point.Idle) : point.held = none := by
  cases point <;> first | rfl | contradiction

theorem Point.Idle.keeps (idle : point.Idle) : point.Keeps files id pid := by
  cases point <;> trivial

theorem Point.Busy.held (busy : point.Busy) (keeps : point.Keeps files id pid) :
    ∃ inode, point.held = some inode := by
  cases point with
  | starting | waiting | opening | leaving | exited => cases busy
  | testing inode | locking inode | writing inode | detaching inode => exact ⟨inode, rfl⟩
  | executing fLock | finalizing fLock | unlinking fLock =>
      cases fLock with
      | none => cases keeps
      | some inode => exact ⟨inode, rfl⟩

theorem Point.Keeps.holds (keeps : point.Keeps files id pid) (held : point.held = some inode) :
    inode < files.made ∧ (files.lock inode = none ∨ files.lock inode = some id) ∧
      files.written inode <+: pidText pid := by
  have empty : files.written inode = [] → files.written inode <+: pidText pid := fun none => by
    rw [none]
    exact List.nil_prefix
  cases point with
  | starting | waiting | opening | leaving | exited => cases held
  | testing | locking =>
      cases held
      exact ⟨keeps.1, .inl keeps.2.1, empty keeps.2.2⟩
  | writing =>
      cases held
      exact ⟨keeps.1, .inr keeps.2.1, empty keeps.2.2⟩
  | detaching =>
      cases held
      exact ⟨keeps.1, .inr keeps.2.1, keeps.2.2⟩
  | executing | finalizing =>
      cases held
      exact ⟨keeps.1, .inr keeps.2.1, keeps.2.2⟩
  | unlinking =>
      cases held
      exact keeps

theorem Point.Keeps.frame {before : PidFiles} (keeps : point.Keeps before id pid)
    (made : before.made ≤ files.made)
    (same : ∀ inode, point.held = some inode →
      files.lock inode = before.lock inode ∧ files.written inode = before.written inode) :
    point.Keeps files id pid := by
  have moved : ∀ inode, point.held = some inode → inode < files.made := fun inode held =>
    (keeps.holds held).1.trans_le made
  cases point with
  | starting | waiting | opening | leaving | exited => trivial
  | testing | locking | writing | detaching =>
      obtain ⟨lock, written⟩ := same _ rfl
      refine ⟨moved _ rfl, ?_⟩
      rw [lock, written]
      exact keeps.2
  | executing fLock | finalizing fLock | unlinking fLock =>
      cases fLock with
      | none => cases keeps
      | some inode =>
          obtain ⟨lock, written⟩ := same _ rfl
          refine ⟨moved _ rfl, ?_⟩
          rw [lock, written]
          exact keeps.2

theorem Sound.keepsFile (sound : Sound host) (found : host.instances id = some self)
    (busy : self.point.Busy) : ∃ inode, self.point.held = some inode :=
  busy.held (sound.keeps id self found)

theorem Sound.update (sound : Sound host) (made : host.files.made ≤ files.made)
    (unlocked : ∀ inode, files.made ≤ inode → files.lock inode = none)
    (elsewhere : ∀ other rival inode, other ≠ id → host.instances other = some rival →
      rival.point.held = some inode →
      files.lock inode = host.files.lock inode ∧ files.written inode = host.files.written inode)
    (holds : ∀ inode, after.point.held = some inode → host.files.made ≤ inode ∨
      ∃ self, host.instances id = some self ∧ self.point.held = some inode)
    (keeps : after.point.Keeps files id after.pid) :
    Sound { host.put id after with files := files } := by
  -- nobody else holds what the instance holds now
  have alone : ∀ other rival inode, other ≠ id → host.instances other = some rival →
      rival.point.held = some inode → after.point.held ≠ some inode := by
    intro other rival inode different there held mine
    rcases holds inode mine with new | ⟨self, found, before⟩
    · have inside := ((sound.keeps other rival there).holds held).1
      omega
    · exact different (sound.apart id other self rival inode found there before held).symm
  constructor
  case unlocked => exact unlocked
  case apart =>
    intro one two first second inode there also held rivals
    by_cases mine : one = id <;> by_cases yours : two = id
    · rw [mine, yours]
    · subst mine
      cases (Function.update_self ..).symm.trans there
      exact absurd held (alone two second inode yours
        ((Function.update_of_ne yours ..).symm.trans also) rivals)
    · subst yours
      cases (Function.update_self ..).symm.trans also
      exact absurd rivals (alone one first inode mine
        ((Function.update_of_ne mine ..).symm.trans there) held)
    · exact sound.apart one two first second inode
        ((Function.update_of_ne mine ..).symm.trans there) ((Function.update_of_ne yours ..).symm.trans also) held rivals
  case keeps =>
    intro other rival there
    by_cases mine : other = id
    · subst mine
      cases (Function.update_self ..).symm.trans there
      exact keeps
    · have before := (Function.update_of_ne mine ..).symm.trans there
      exact (sound.keeps other rival before).frame made fun inode held =>
        elsewhere other rival inode mine before held

/-- Who holds nothing any more may change the directory, and lose its locks. -/
theorem Sound.idle (sound : Sound host) (idle : after.point.Idle)
    (made : files.made = host.files.made) (written : files.written = host.files.written)
    (lock : ∀ inode, files.lock inode = host.files.lock inode ∨
      files.lock inode = none ∧ host.files.lock inode = some id) :
    Sound { host.put id after with files := files } := by
  refine sound.update made.ge ?_ ?_ ?_ idle.keeps
  · intro inode outside
    rcases lock inode with same | ⟨gone, _⟩
    · exact same.trans (sound.unlocked inode (made ▸ outside))
    · exact gone
  · intro other rival inode different there held
    refine ⟨?_, congrFun written inode⟩
    rcases lock inode with same | ⟨_, mine⟩
    · exact same
    · obtain ⟨_, free | yours, _⟩ := (sound.keeps other rival there).holds held
      · rw [free] at mine
        cases mine
      · rw [yours] at mine
        cases mine
        exact absurd rfl different
  · intro inode held
    rw [idle.held] at held
    cases held

theorem Sound.effect (sound : Sound host) (effect : Effect host id event next)
    (allowed : NotAdopted host (id, event)) : Sound next := by
  cases effect with
  | unmoved => exact sound
  | launches new idle alone => exact sound.idle idle rfl rfl fun _ => .inl rfl
  | @adopts fork self found point => exact absurd rfl (allowed 1 fork rfl)
  | @forks event self child pid found point other new =>
      have parent : Sound (host.put id
          { self with point := .waiting, child := some child, trapped := true }) :=
        sound.idle trivial rfl rfl fun _ => .inl rfl
      exact parent.idle trivial rfl rfl fun _ => .inl rfl
  | opens found point free =>
      have fresh := sound.unlocked host.files.made le_rfl
      refine sound.update (Nat.le_succ _) ?_ ?_ ?_ ?_
      · exact fun inode outside => sound.unlocked inode (Nat.le_of_succ_le outside)
      · intro other rival inode _ there held
        have inside := ((sound.keeps other rival there).holds held).1
        exact ⟨rfl, Function.update_of_ne inside.ne ..⟩
      · intro inode held
        cases held
        exact .inl le_rfl
      · exact ⟨Nat.lt_succ_self _, fresh, Function.update_self ..⟩
  | @goesOn event self point ignoring files found running awake held entry made elsewhere keeps =>
      have before := sound.keeps id self found
      refine sound.update made.ge ?_ ?_ ?_ (keeps before)
      · intro inode outside
        rw [made] at outside
        have other : self.point.held ≠ some inode := by
          intro mine
          have inside := (before.holds mine).1
          omega
        exact (elsewhere inode other).1.trans (sound.unlocked inode outside)
      · intro other rival inode different there rivals
        refine elsewhere inode fun mine => different ?_
        exact (sound.apart id other self rival inode found there mine rivals).symm
      · intro inode mine
        exact .inr ⟨self, found, held ▸ mine⟩
  | removes found point => exact sound.idle trivial rfl rfl fun _ => .inl rfl
  | keepsFile found point => exact sound.idle trivial rfl rfl fun _ => .inl rfl
  | ends found running told =>
      refine sound.idle trivial rfl rfl fun inode => ?_
      by_cases mine : host.files.lock inode = some id
      · exact .inr ⟨if_pos mine, mine⟩
      · exact .inl (if_neg mine)

theorem sound_reached (reached : Reaches hosts NotAdopted host) : Sound host := by
  refine reached.invariant Sound ?_ ?_
  · rintro host ⟨nobody, unlocked⟩
    refine ⟨fun inode _ => unlocked inode, fun id _ self _ _ found => ?_,
      fun id self found => ?_⟩ <;>
      · rw [nobody id] at found
        cases found
  · exact fun host label next allowed moved sound => sound.effect (step_effect moved) allowed

theorem tenancies_put (files : PidFiles) :
    ({ host.put id after with files := files } : Host).tenancies =
      ⟨files.entry, Function.update host.tenancies.tenure id after.tenure⟩ := by
  unfold Host.tenancies
  congr 1
  funext other
  by_cases mine : other = id
  · subst mine
    simp [Host.put]
  · simp [Host.put, mine]

theorem tenure_found (found : host.instances id = some self) :
    host.tenancies.tenure id = self.tenure := by
  simp [Host.tenancies, found]

theorem tenure_held (found : host.instances id = some self) (held : self.point.held = some inode) :
    host.tenancies.tenure id = some (self.conf.pidFile, inode) := by
  rw [tenure_found found, Instance.tenure, held, Option.map_some]

theorem tenure_absent (new : host.instances id = none) : host.tenancies.tenure id = none := by
  simp [Host.tenancies, new]

theorem Point.Idle.tenure (idle : self.point.Idle) : self.tenure = none := by
  rw [Instance.tenure, idle.held, Option.map_none]

theorem tenancies_same (tenure : host.tenancies.tenure id = after.tenure)
    (entry : files.entry = host.files.entry) :
    ({ host.put id after with files := files } : Host).tenancies = host.tenancies := by
  rw [tenancies_put, ← tenure, Function.update_eq_self, entry]
  rfl

/-- A step takes a pid-file, leaves it or vacates it, or is none of its business. -/
theorem effect_tenancies (sound : Sound host) (effect : Effect host id event next)
    (allowed : NotAdopted host (id, event)) :
    next.tenancies = host.tenancies ∨
      ∃ change, Tenancy.Moves host.tenancies id change next.tenancies := by
  cases effect with
  | unmoved => exact .inl rfl
  | launches new idle alone =>
      exact .inl (tenancies_same ((tenure_absent new).trans idle.tenure.symm) rfl)
  | @adopts fork self found point => exact absurd rfl (allowed 1 fork rfl)
  | @forks event self child pid found point other new =>
      let parent := { self with point := .waiting, child := some child, trapped := true }
      have first : (host.put id parent).tenancies = host.tenancies := by
        refine tenancies_same ?_ rfl
        rw [tenure_found found, Instance.tenure, point]
        rfl
      refine .inl ((tenancies_same ?_ rfl).trans first)
      rw [first, tenure_absent new]
      rfl
  | @opens event self found point free =>
      refine .inr ⟨.take self.conf.pidFile host.files.made, ?_⟩
      rw [tenancies_put]
      refine .take ?_ free
      rw [tenure_found found, Instance.tenure, point]
      rfl
  | goesOn found running awake held entry made elsewhere keeps =>
      refine .inl (tenancies_same ?_ entry)
      rw [tenure_found found, Instance.tenure, Instance.tenure, held]
  | @removes event self fLock found point =>
      obtain ⟨inode, held⟩ := sound.keepsFile found (by rw [point]; trivial)
      refine .inr ⟨.vacate, ?_⟩
      rw [tenancies_put]
      exact .vacate (tenure_held found held)
  | keepsFile found point =>
      exact .inr ⟨.leave, tenancies_put host.files ▸ .leave⟩
  | ends found running told =>
      exact .inr ⟨.leave, tenancies_put (host.files.release id) ▸ .leave⟩

theorem tenancies_simulated :
    Simulation hosts NotAdopted Tenancy.tenancies Host.tenancies where
  start host begins id := tenure_absent (begins.1 id)
  step host label next reached allowed moved := by
    rcases effect_tenancies (sound_reached reached) (step_effect moved) allowed with
      same | ⟨change, moves⟩
    · rw [same]
      exact .refl _
    · exact (Run.refl _).snoc trivial (show Tenancy.tenancies.step _ (label.1, change) _ from moves)

theorem Alone.step {guard : Host → Nat × HostEvent → Prop} (alone : Alone guard host next id self)
    (event : HostEvent) (after : Instance) (files : PidFiles) (allowed : guard next (id, event))
    (moved : next.step id event = some { next.put id after with files := files }) :
    Alone guard host { next.put id after with files := files } id after where
  run := alone.run.snoc allowed (show hosts.step next (id, event) _ from moved)
  here := put_self
  others other different := (put_other different).trans (alone.others other different)

theorem launched (new : host.instances id = none) (pid : Int32) (conf : ConfigFile) :
    Alone NotAdopted host (host.put id (modbusdMain pid (some conf))) id
      (modbusdMain pid (some conf)) := by
  have moved : host.step id (.launch pid (some conf)) =
      some (host.put id (modbusdMain pid (some conf))) := by
    simp [Host.step, new]
  have allowed : NotAdopted host (id, .launch pid (some conf)) := nofun
  exact ⟨.single allowed (show hosts.step host (id, .launch pid (some conf)) _ from moved),
    put_self, fun other different => put_other different⟩

theorem starts_free {conf : ConfigFile} (new : host.instances id = none) (pid : Int32)
    (plain : conf.daemon = 0) (free : host.files.entry conf.pidFile = none)
    (unlocked : host.files.lock host.files.made = none) :
    ∃ last, Alone NotAdopted host last id
      { conf := conf, pid := pid, point := .executing (some host.files.made) } := by
  have started := launched new pid conf
  rw [modbusdMain, if_pos plain] at started
  have opened := started.step (.openExcl false)
    { conf := conf, pid := pid, point := .testing host.files.made }
    (host.files.create conf.pidFile) nofun
    (by simp [Host.step, Host.proceed, createPidFile, Host.put, free])
  have tested := opened.step (.lockf false)
    { conf := conf, pid := pid, point := .locking host.files.made }
    (host.files.create conf.pidFile) nofun
    (by simp [Host.step, Host.proceed, createPidFile, Host.put, PidFiles.locked, PidFiles.create,
      unlocked])
  have locked := tested.step (.lockf false)
    { conf := conf, pid := pid, point := .writing host.files.made }
    ((host.files.create conf.pidFile).take host.files.made id) nofun
    (by simp [Host.step, Host.proceed, createPidFile, Host.put, PidFiles.locked, PidFiles.create,
      unlocked])
  exact ⟨_, locked.step (.write (pidText pid).length)
    { conf := conf, pid := pid, point := .executing (some host.files.made) }
    (((host.files.create conf.pidFile).take host.files.made id).append host.files.made
      (pidText pid)) nofun
    (by simp [Host.step, Host.proceed, createPidFile, Host.put, plain])⟩

def bareHost : Host where
  files := { entry := fun _ => none, made := 0, written := fun _ => [], lock := fun _ => none }
  instances _ := none

theorem bareHost_initial : hosts.initial bareHost := ⟨fun _ => rfl, fun _ => rfl⟩

theorem bareHost_starts : ∃ last, Alone NotAdopted bareHost last 0
    { conf := {}, pid := 731, point := .executing (some 0) } :=
  starts_free rfl 731 rfl rfl rfl

theorem open_taken {refused : Bool} (found : host.instances id = some self)
    (point : self.point = .opening) (taken : host.files.entry self.conf.pidFile = some inode)
    (moved : host.step id (.openExcl refused) = some next) :
    next = host.ended id self (some exitFailure) := by
  simp only [Host.step, found, Host.proceed, point, createPidFile, taken, Option.isSome_some,
    or_true, ↓reduceIte, Option.some.injEq] at moved
  exact moved.symm

/-- In all interleavings of starting, running and ending instances, one that has made
its pid-file and not yet removed it is the only one of that pid-file. -/
theorem pidFile_exclusive (reached : Reaches hosts NotAdopted host)
    (found : host.instances id = some self) (busy : self.point.Busy) : Sole host id self := by
  have sound := sound_reached reached
  have exclusive := Tenancy.exclusive (tenancies_simulated.reaches reached)
  obtain ⟨inode, held⟩ := sound.keepsFile found busy
  have mine := tenure_held found held
  have entered : host.files.entry self.conf.pidFile = some inode := exclusive.entered id _ _ mine
  have keeps := sound.keeps id self found
  obtain ⟨_, lock, written⟩ := keeps.holds held
  constructor
  case file =>
    refine ⟨inode, entered, held, ?_, written, fun fLock executing => ?_⟩
    · rcases lock with free | own
      · simp [PidFiles.locked, free]
      · simp [PidFiles.locked, own]
    · rw [executing] at held keeps
      cases held
      exact keeps.2.1
  case alone =>
    intro other rival there same rivals
    obtain ⟨file, has⟩ := sound.keepsFile there rivals
    exact exclusive.single id other _ inode file mine (same ▸ tenure_held there has)
  case refused =>
    intro other rival answer next there same point moved
    exact open_taken there point (same ▸ entered) moved

theorem pidFile_exclusive_first : ∃ (host next : Host) (first second : Instance),
    host.instances 0 = some first ∧ first.point = .executing (some 0) ∧ Sole host 0 first ∧
      host.instances 1 = some second ∧ second.point = .opening ∧
      host.step 1 (.openExcl false) = some next ∧
      next = host.ended 1 second (some exitFailure) := by
  obtain ⟨host, started⟩ := bareHost_starts
  have new : host.instances 1 = none := started.others 1 (by decide)
  have joined := launched new 732 {}
  have first := (joined.others 0 (by decide)).trans started.here
  have sole := pidFile_exclusive ⟨bareHost, bareHost_initial, started.run.trans joined.run⟩
    first trivial
  generalize host.put 1 (modbusdMain 732 (some {})) = later at joined first sole
  have opens : ∃ next, later.step 1 (.openExcl false) = some next := by
    unfold Host.step
    rw [joined.here]
    exact ⟨_, rfl⟩
  obtain ⟨next, moved⟩ := opens
  exact ⟨later, next, _, _, first, rfl, sole, joined.here, rfl, moved,
    sole.refused 1 _ false next joined.here rfl rfl moved⟩

theorem daemonize_starting {getppid : Int32} {fork : Option (Nat × Int32)}
    (found : host.instances id = some self)
    (moved : host.step id (.daemonize getppid fork) = some next) : self.point = .starting := by
  unfold Host.step at moved
  rw [found] at moved
  cases point : self.point <;>
    simp_all [Host.proceed, createPidFile, finalizeFile, executeFabric]

theorem ended_entry {status : Option Int32} (effect : Effect host id event next)
    (found : host.instances id = some self) (busy : self.point.Busy)
    (gone : next.instances id = some after) (exited : after.point = .exited status) :
    next.files.entry = host.files.entry := by
  cases effect with
  | unmoved | launches | adopts | forks | keepsFile | ends => rfl
  | opens there point =>
      cases found.symm.trans there
      rw [point] at busy
      cases busy
  | goesOn _ _ _ _ entry => exact entry
  | removes =>
      cases gone.symm.trans (Function.update_self ..)
      cases exited

theorem moves_tenure {change : Tenancy.Change String Nat}
    {t after : Tenancy.Tenancies Nat String Nat}
    (moves : Tenancy.Moves t id change after) (different : other ≠ id) :
    after.tenure other = t.tenure other := by
  cases moves <;> exact Function.update_of_ne different ..

/-- An instance that ends before its `unlink` leaves its pid-file for good, and
nobody gets past the `open` of that file again. -/
theorem pidFile_abandoned {last : Host} {status : Option Int32}
    (reached : Reaches hosts NotAdopted host) (found : host.instances id = some self)
    (busy : self.point.Busy) (moved : host.step id event = some next)
    (gone : next.instances id = some after) (exited : after.point = .exited status)
    (run : Run hosts NotAdopted next last) :
    (host.files.entry self.conf.pidFile).isSome ∧
      last.files.entry self.conf.pidFile = host.files.entry self.conf.pidFile ∧
      ∀ other rival, last.instances other = some rival →
        rival.conf.pidFile = self.conf.pidFile → ¬rival.point.Busy := by
  have allowed : NotAdopted host (id, event) := by
    rintro getppid fork rfl
    rw [daemonize_starting found moved] at busy
    cases busy
  have sound := sound_reached reached
  have exclusive := Tenancy.exclusive (tenancies_simulated.reaches reached)
  have effect := step_effect moved
  obtain ⟨inode, held⟩ := sound.keepsFile found busy
  have mine := tenure_held found held
  have entered : host.files.entry self.conf.pidFile = some inode := exclusive.entered id _ _ mine
  have left : Tenancy.Abandoned self.conf.pidFile inode next.tenancies := by
    constructor
    case entered => exact (congrFun (ended_entry effect found busy gone exited) _).trans entered
    case unheld =>
      intro other file has
      by_cases same : other = id
      · subst same
        have idle : after.point.Idle := by rw [exited]; trivial
        rw [tenure_found gone, idle.tenure] at has
        cases has
      · -- the others hold what they held before
        have before : host.tenancies.tenure other = some (self.conf.pidFile, file) := by
          rcases effect_tenancies sound effect allowed with unmoved | ⟨change, moves⟩
          · exact unmoved ▸ has
          · exact (moves_tenure moves same).symm.trans has
        exact same (exclusive.single id other _ inode file mine before)
  have onward : Reaches hosts NotAdopted next := reached.extend (.single allowed moved)
  have still := Tenancy.abandoned (tenancies_simulated.run onward run) left
  refine ⟨by rw [entered]; rfl, still.entered.trans entered.symm, ?_⟩
  intro other rival there same rivals
  obtain ⟨file, has⟩ := (sound_reached (onward.extend run)).keepsFile there rivals
  exact still.unheld other file (same ▸ tenure_held there has)

theorem pidFile_abandoned_killed : ∃ host : Host, (host.files.entry "").isSome ∧
    ∀ (other : Nat) (rival : Instance), host.instances other = some rival →
      rival.conf.pidFile = "" → ¬rival.point.Busy := by
  obtain ⟨host, started⟩ := bareHost_starts
  have killed : host.step 0 (.signal .kill) =
      some (host.ended 0 { conf := {}, pid := 731, point := .executing (some 0) } none) := by
    simp only [Host.step, started.here]
    rfl
  obtain ⟨entered, same, nobody⟩ := pidFile_abandoned ⟨bareHost, bareHost_initial, started.run⟩
    started.here trivial killed (ended_self none) rfl (.refl _)
  exact ⟨_, same ▸ entered, nobody⟩

theorem step_running (found : host.instances id = some self)
    (moved : host.step id event = some next) (status : Option Int32) :
    self.point ≠ .exited status := by
  intro exited
  simp [Host.step, found, Host.proceed, exited] at moved

theorem effect_others (effect : Effect host id event next)
    (there : host.instances other = some self) (different : other ≠ id) :
    next.instances other = some self := by
  have same : ∀ after, Function.update host.instances id (some after) other = some self :=
    fun after => (Function.update_of_ne different ..).trans there
  cases effect with
  | unmoved => exact there
  | @forks _ _ daemon _ _ _ _ new =>
      have grown : other ≠ daemon := by
        rintro rfl
        rw [new] at there
        cases there
      exact (Function.update_of_ne grown ..).trans (same _)
  | launches | adopts | opens | goesOn | removes | keepsFile | ends => exact same _

theorem step_hasEnded (moved : host.step id event = some next) (ended : host.HasEnded other) :
    next.HasEnded other := by
  obtain ⟨self, status, there, exited⟩ := ended
  have different : other ≠ id := by
    rintro rfl
    exact step_running there moved status exited
  exact ⟨self, status, effect_others (step_effect moved) there different, exited⟩

theorem step_isSome (moved : host.step id event = some next)
    (there : (host.instances other).isSome) : (next.instances other).isSome := by
  obtain ⟨self, found⟩ := Option.isSome_iff_exists.mp there
  by_cases same : other = id
  · subst same
    have put : ∀ after, (Function.update host.instances other (some after) other).isSome := by
      intro after
      rw [Function.update_self, Option.isSome_some]
    cases step_effect moved with
    | unmoved => exact there
    | forks _ _ new =>
        rw [put_other new.symm]
        exact put _
    | launches | adopts | opens | goesOn | removes | keepsFile | ends => exact put _
  · rw [effect_others (step_effect moved) found same]
    rfl

theorem Informed.step {child : Nat} (informed : Informed host self child)
    (moved : host.step id event = some next) : Informed next self child where
  forked := step_isSome moved informed.forked
  paused := by
    rcases informed.paused with waits | failed | killed | ⟨well, ended⟩
    · exact .inl waits
    · exact .inr (.inl failed)
    · exact .inr (.inr (.inl killed))
    · exact .inr (.inr (.inr ⟨well, step_hasEnded moved ended⟩))

theorem Informed.waits {child : Nat} (informed : Informed host self child)
    (running : ∀ status, self.point ≠ .exited status) : self.point = .waiting := by
  rcases informed.paused with waits | failed | killed | ⟨well, _⟩
  · exact waits
  · exact absurd failed (running _)
  · exact absurd killed (running _)
  · exact absurd well (running _)

theorem Informed.childless (informed : ∀ child, self.child = some child → Informed host self child)
    (running : ∀ status, self.point ≠ .exited status) (awake : self.point ≠ .waiting) :
    self.child = none := by
  cases forked : self.child with
  | none => rfl
  | some child => exact absurd ((informed child forked).waits running) awake

theorem informed_step (informed : ∀ id self child, host.instances id = some self →
      self.child = some child → Informed host self child)
    (allowed : ToldTrue host (id, event)) (moved : host.step id event = some next) (other : Nat)
    (rival : Instance) (child : Nat) (there : next.instances other = some rival) (forked : rival.child = some child) :
    Informed next rival child := by
  have put : ∀ after : Instance, (after.child = some child → Informed next after child) →
      Function.update host.instances id (some after) other = some rival →
      Informed next rival child := by
    intro after mine found
    by_cases same : other = id
    · subst same
      cases (Function.update_self ..).symm.trans found
      exact mine forked
    · exact (informed other rival child ((Function.update_of_ne same ..).symm.trans found)
        forked).step moved
  -- one that neither waits nor has ended has not forked
  have childless : ∀ {self : Instance}, host.instances id = some self →
      self.point ≠ .waiting → self.child = none := fun found awake =>
    Informed.childless (informed id _ · found) (step_running found moved) awake
  have goesOn : ∀ {self after : Instance}, host.instances id = some self →
      Function.update host.instances id (some after) other = some rival →
      self.point ≠ .waiting → after.child = self.child → Informed next rival child := by
    intro self after found there awake same
    refine put after (fun has => ?_) there
    rw [same, childless found awake] at has
    cases has
  cases step_effect moved with
  | unmoved => exact informed other rival child there forked
  | launches new idle alone =>
      exact put _ (fun has => by rw [alone] at has; cases has) there
  | adopts found point => exact goesOn found there (by simp [point]) rfl
  | @forks event self daemon pid found point different new =>
      by_cases born : other = daemon
      · subst born
        cases (Function.update_self ..).symm.trans there
        rw [childless found (by simp [point])] at forked
        cases forked
      · refine put _ (fun has => ?_) ((Function.update_of_ne born ..).symm.trans there)
        cases has
        refine ⟨?_, .inl rfl⟩
        rw [put_self, Option.isSome_some]
  | opens found point free => exact goesOn found there (by simp [point]) rfl
  | goesOn found running awake => exact goesOn found there awake rfl
  | removes found point => exact goesOn found there (by simp [point]) rfl
  | keepsFile found point => exact goesOn found there (by simp [point]) rfl
  | @ends event self status found running told =>
      refine put _ (fun has => ?_) there
      have before := informed id self child found has
      have waits := before.waits running
      refine ⟨step_isSome moved before.forked, ?_⟩
      rcases told waits with ⟨rfl, chld⟩ | rfl | rfl
      · exact .inr (.inr (.inr ⟨rfl, step_hasEnded moved (allowed self child chld found waits has)⟩))
      · exact .inr (.inl rfl)
      · exact .inr (.inr (.inl rfl))

/-- While its daemon is up, a parent waits, has failed or was killed: it reports
success only when the daemon is gone. -/
theorem launcher_status {child : Nat} (reached : Reaches hosts ToldTrue host)
    (found : host.instances id = some self) (forked : self.child = some child) :
    self.point = .waiting ∨ self.point = .exited (some exitFailure) ∨
      self.point = .exited none ∨
      self.point = .exited (some exitSuccess) ∧
        ∃ daemon status, host.instances child = some daemon ∧ daemon.point = .exited status := by
  suffices informed : Informed host self child from informed.paused
  refine reached.invariant (fun host => ∀ id self child, host.instances id = some self →
    self.child = some child → Informed host self child) ?_ ?_ id self child found forked
  · intro start begins id self child found
    rw [begins.1 id] at found
    cases found
  · exact fun host label next allowed moved informed => informed_step informed allowed moved

theorem launcher_status_killed : ∃ (host : Host) (self daemon : Instance) (status : Option Int32),
    host.instances 0 = some self ∧ self.point = .exited (some exitSuccess) ∧
      host.instances 1 = some daemon ∧ daemon.point = .exited status := by
  let parent : Instance := { conf := { daemon := 1 }, pid := 731, point := .starting }
  let waiting : Instance := { parent with point := .waiting, child := some 1, trapped := true }
  let daemon : Instance := { parent with point := .opening, pid := 732, trapped := true }
  let host := (bareHost.put 0 parent)
  let forked := (host.put 0 waiting).put 1 daemon
  let killed := forked.ended 1 daemon none
  let last := killed.ended 0 waiting (some exitSuccess)
  have launch : hosts.step bareHost (0, .launch 731 (some parent.conf)) host := rfl
  have fork : hosts.step host (0, .daemonize 500 (some (1, 732))) forked := rfl
  have kill : hosts.step forked (1, .signal .kill) killed := rfl
  have told : hosts.step killed (0, .signal .chld) last := rfl
  have here : killed.instances 0 = some waiting := rfl
  have allowed : ToldTrue killed (0, .signal .chld) := by
    intro self child _ found _ forked
    rw [here, Option.some.injEq] at found
    rw [← found, Option.some.injEq] at forked
    exact ⟨{ daemon with point := .exited none }, none, forked ▸ rfl, rfl⟩
  have run : Run hosts ToldTrue bareHost last :=
    (((Run.single (fun _ _ other => nomatch other) launch).snoc
      (fun _ _ other => nomatch other) fork).snoc (fun _ _ other => nomatch other) kill).snoc
      allowed told
  have status := launcher_status ⟨bareHost, bareHost_initial, run⟩
    (ended_self (some exitSuccess)) rfl
  rcases status with waits | failed | killed | ⟨_, gone, status, there, exited⟩
  · cases waits
  · cases failed
  · cases killed
  · exact ⟨_, _, gone, status, rfl, rfl, there, exited⟩

structure Unmade (host : Host) : Prop where
  unlocked : ∀ inode, host.files.made ≤ inode → host.files.lock inode = none
  held : ∀ id self inode, host.instances id = some self → self.point.held = some inode →
    inode < host.files.made

theorem Unmade.put (unmade : Unmade host) (files : PidFiles) (made : host.files.made ≤ files.made)
    (unlocked : ∀ inode, files.made ≤ inode → files.lock inode = none)
    (held : ∀ inode, after.point.held = some inode → inode < files.made) :
    Unmade { host.put id after with files := files } where
  unlocked := unlocked
  held other rival inode there has := by
    by_cases mine : other = id
    · subst mine
      cases (Function.update_self ..).symm.trans there
      exact held inode has
    · have before := (Function.update_of_ne mine ..).symm.trans there
      exact (unmade.held other rival inode before has).trans_le made

theorem Unmade.idle (unmade : Unmade host) (idle : after.point.Idle) :
    Unmade (host.put id after) :=
  unmade.put host.files le_rfl unmade.unlocked fun inode held => by
    rw [idle.held] at held
    cases held

theorem Unmade.effect (unmade : Unmade host) (effect : Effect host id event next) :
    Unmade next := by
  cases effect with
  | unmoved => exact unmade
  | launches new idle alone => exact unmade.idle idle
  | adopts found point => exact unmade.put host.files le_rfl unmade.unlocked nofun
  | @forks event self child pid found point other new =>
      have parent : Unmade (host.put id
          { self with point := .waiting, child := some child, trapped := true }) :=
        unmade.idle trivial
      exact parent.idle trivial
  | opens found point free =>
      refine unmade.put _ (Nat.le_succ _) ?_ ?_
      · exact fun inode outside => unmade.unlocked inode (Nat.le_of_succ_le outside)
      · rintro inode ⟨⟩
        exact Nat.lt_succ_self _
  | @goesOn event self point ignoring files found running awake held entry made elsewhere keeps =>
      refine unmade.put files made.ge ?_ ?_
      · intro inode outside
        rw [made] at outside
        have other : self.point.held ≠ some inode := fun mine =>
          absurd (unmade.held id self inode found mine) (Nat.not_lt.mpr outside)
        exact (elsewhere inode other).1.trans (unmade.unlocked inode outside)
      · intro inode mine
        rw [made]
        exact unmade.held id self inode found (held ▸ mine)
  | removes found point =>
      exact unmade.put (host.files.unlink _) le_rfl unmade.unlocked nofun
  | keepsFile found point => exact unmade.idle trivial
  | ends found running told =>
      refine unmade.put (host.files.release id) le_rfl ?_ nofun
      intro inode outside
      simp [PidFiles.release, unmade.unlocked inode outside]

theorem unmade_reached {guard : Host → Nat × HostEvent → Prop}
    (reached : Reaches hosts guard host) : Unmade host := by
  refine reached.invariant Unmade ?_ ?_
  · rintro host ⟨nobody, unlocked⟩
    refine ⟨fun inode _ => unlocked inode, fun id self _ found => ?_⟩
    rw [nobody id] at found
    cases found
  · exact fun host label next _ moved unmade => unmade.effect (step_effect moved)

/-- What was taken for a daemon runs without a pid-file, and removes the one that its
configuration names, whoever made that. -/
theorem adopted_unlinks {conf : ConfigFile} (new : host.instances id = none) (pid : Int32)
    (daemon : conf.daemon ≠ 0) :
    ∃ running last,
      Alone anything host running id { conf := conf, pid := pid, point := .executing none } ∧
      running.files = host.files ∧ Run hosts anything running last ∧
      Alone anything host last id { conf := conf, pid := pid, point := .leaving } ∧
      last.files = host.files.unlink conf.pidFile := by
  have launch := launched new pid conf
  rw [modbusdMain, if_neg daemon] at launch
  have started : Alone anything host _ id _ :=
    ⟨launch.run.mono fun _ _ _ => trivial, launch.here, launch.others⟩
  have adopted := started.step (.daemonize 1 none)
    { conf := conf, pid := pid, point := .executing none } host.files trivial
    (by simp [Host.step, Host.proceed, daemonize, Host.put])
  have start : Alone anything _ _ id _ := ⟨.refl _, adopted.here, fun _ _ => rfl⟩
  have ended := start.step .loopEnds
    { conf := conf, pid := pid, point := .finalizing none } host.files trivial
    (by simp [Host.step, Host.proceed, executeFabric, Host.put])
  have unlocked := ended.step (.lockf false)
    { conf := conf, pid := pid, point := .unlinking none } host.files trivial
    (by simp [Host.step, Host.proceed, finalizeFile, Host.put])
  have removed := unlocked.step (.unlink false)
    { conf := conf, pid := pid, point := .leaving } (host.files.unlink conf.pidFile) trivial
    (by simp [Host.step, Host.proceed, finalizeFile, Host.put])
  refine ⟨_, _, adopted, rfl, removed.run, ⟨adopted.run.trans removed.run, removed.here, ?_⟩, rfl⟩
  exact fun other different => (removed.others other different).trans (adopted.others other different)

/-- One instance that was taken for a daemon is enough: it runs without a pid-file,
removes another's as it ends, and a third one comes to run beside the first. -/
theorem adopted_breaks {guard : Host → Nat × HostEvent → Prop} {second third : Nat}
    (daemon plain : ConfigFile) (reached : Reaches hosts guard host)
    (found : host.instances id = some self) (new : host.instances second = none)
    (fresh : host.instances third = none) (apart : second ≠ third) (pid other : Int32)
    (adopted : daemon.daemon ≠ 0) (removes : daemon.pidFile = self.conf.pidFile)
    (foreground : plain.daemon = 0) (same : plain.pidFile = self.conf.pidFile) :
    ∃ running removed last inode,
      Run hosts anything host running ∧ running.instances id = some self ∧
      running.instances second = some { conf := daemon, pid := pid, point := .executing none } ∧
      running.files = host.files ∧
      Run hosts anything running removed ∧ removed.instances id = some self ∧
      removed.instances second = some { conf := daemon, pid := pid, point := .leaving } ∧
      removed.files = host.files.unlink self.conf.pidFile ∧
      Run hosts anything removed last ∧ last.instances id = some self ∧
      last.instances third =
        some { conf := plain, pid := other, point := .executing (some inode) } := by
  have elsewhere : id ≠ second ∧ id ≠ third := by
    constructor <;>
      · rintro rfl
        simp_all
  obtain ⟨running, middle, runs, untouched, onward, removed, files⟩ :=
    adopted_unlinks new pid adopted
  rw [removes] at files
  have free : middle.files.entry plain.pidFile = none := by
    rw [files, same]
    exact Function.update_self ..
  have unlocked : middle.files.lock middle.files.made = none := by
    rw [files]
    exact (unmade_reached reached).unlocked _ le_rfl
  obtain ⟨last, started⟩ :=
    starts_free ((removed.others third apart.symm).trans fresh) other foreground free unlocked
  have still := (removed.others id elsewhere.1).trans found
  exact ⟨running, middle, last, _, runs.run, (runs.others id elsewhere.1).trans found, runs.here,
    untouched, onward, still, removed.here, files, started.run.mono fun _ _ _ => trivial,
    (started.others id elsewhere.2).trans still, started.here⟩

theorem adopted_breaks_third : ∃ (host removed last : Host) (first third : Instance) (inode : Nat),
    host.instances 0 = some first ∧ first.point = .executing (some 0) ∧
      removed.files.entry first.conf.pidFile = none ∧
      last.instances 0 = some first ∧ last.instances 2 = some third ∧ third.conf = first.conf ∧
      third.point = .executing (some inode) := by
  obtain ⟨host, started⟩ := bareHost_starts
  have reached : Reaches hosts NotAdopted host := ⟨bareHost, bareHost_initial, started.run⟩
  have others : ∀ other, other ≠ 0 → host.instances other = none := started.others
  obtain ⟨_, removed, last, inode, _, _, _, _, _, _, _, files, _, first, there⟩ :=
    adopted_breaks { daemon := 1 } {} reached started.here (others 1 (by decide))
      (others 2 (by decide)) (by decide) 732 733 (by decide) rfl rfl rfl
  refine ⟨host, removed, last, _, _, inode, started.here, rfl, ?_, first, there, rfl, rfl⟩
  rw [files]
  simp [PidFiles.unlink]

end

end ModBus
