import Mathlib.Data.List.Induction
import ModBus.LoggerFile

/-! What is left of the log after any number of rolls and restarts. The number in
a rolled file's name starts over with each process, and no process uses one twice. -/

namespace ModBus

open Libc Files

/-! What has been done to the files. -/

def LogEffect.write? : LogEffect → Option (String × String)
  | .written file text => some (file, text)
  | _ => none

def LogEffect.target? : LogEffect → Option String
  | .renamed _ new => some new
  | _ => none

def LogThread.writes (thread : LogThread) : List (String × String) :=
  thread.effects.filterMap LogEffect.write?

def LogThread.rolled (thread : LogThread) : List String :=
  thread.effects.filterMap LogEffect.target?

structure Kernel.Succeeds (kernel : Kernel) : Prop where
  descriptor : 0 ≤ kernel.descriptor
  rename : ∀ count, kernel.rename count = 0
  write : ∀ count, kernel.write count = count

def LogEvent.Succeeds : LogEvent → Prop
  | .started descriptor => 0 ≤ descriptor
  | .received kernel _ => kernel.Succeeds

def LogEvent.text : LogEvent → Option String
  | .started _ => none
  | .received _ msg => logText msg

theorem logLine_whole (text : String) : logLine text = text ++ "\r\n" ↔ text.length < 1020 := by
  have ending : ("\r\n" : String).length = 2 := rfl
  rw [logLine, fitted_eq _ (by decide), String.length_append, ending, msgsz]
  omega

theorem rolledName_ne (conf : ConfigFile) (count : Nat) : conf.logFile ≠ rolledName conf count := by
  intro same
  have lengths := congrArg String.length same
  have dot : (".": String).length = 1 := rfl
  rw [rolledName, String.length_append, String.length_append, dot] at lengths
  omega

namespace LogThread

variable {conf : ConfigFile} {kernel : Kernel} {buf : String} {thread after : LogThread}
  {descriptor : Int32}

def rolledOver (conf : ConfigFile) (kernel : Kernel) (thread : LogThread) : LogThread :=
  openLog conf kernel.descriptor { thread with
    fLog := -1
    fileCount := thread.fileCount + 1
    disk := thread.disk.rename conf.logFile (rolledName conf thread.fileCount)
    effects := thread.effects ++ [.renamed conf.logFile (rolledName conf thread.fileCount)] }

theorem roll_eq (succeeds : kernel.Succeeds) :
    thread.roll conf kernel buf =
      if 64 ≤ thread.fileCount then .ok { thread with fLog := -1 }
      else if 256 ≤ (rolledName conf thread.fileCount).length then .error .outOfBounds
      else
        let opened := thread.rolledOver conf kernel
        .ok (if 0 < opened.fLog then opened.writeLog conf kernel buf else opened) := by
  by_cases spent : 64 ≤ thread.fileCount
  · have none' : 64 - thread.fileCount = 0 := by omega
    rw [if_pos spent, roll, none', tryRename]
  · obtain ⟨tries, left⟩ := Nat.exists_eq_succ_of_ne_zero (show 64 - thread.fileCount ≠ 0 by omega)
    rw [if_neg spent, roll, left, tryRename]
    by_cases long : 256 ≤ (rolledName conf thread.fileCount).length
    · simp only [if_pos long]
    · simp only [if_neg long, succeeds.rename, if_true]
      rfl

@[simp] theorem openLog_writes : (thread.openLog conf descriptor).writes = thread.writes := rfl

@[simp] theorem openLog_rolled : (thread.openLog conf descriptor).rolled = thread.rolled := rfl

@[simp] theorem closed_writes : ({ thread with fLog := descriptor } : LogThread).writes =
    thread.writes := rfl

@[simp] theorem closed_rolled : ({ thread with fLog := descriptor } : LogThread).rolled =
    thread.rolled := rfl

theorem writeLog_writes (succeeds : kernel.Succeeds) :
    (thread.writeLog conf kernel buf).writes = thread.writes ++ [(conf.logFile, buf)] := by
  have whole : buf.toList.take buf.length = buf.toList :=
    List.take_of_length_le (by rw [String.length_toList])
  simp [writes, writeLog, LogEffect.write?, succeeds.write, whole]

theorem writeLog_disk (succeeds : kernel.Succeeds) :
    (thread.writeLog conf kernel buf).disk = thread.disk.append conf.logFile buf.toList := by
  have whole : buf.toList.take buf.length = buf.toList :=
    List.take_of_length_le (by rw [String.length_toList])
  simp [writeLog, succeeds.write, whole]

@[simp] theorem writeLog_rolled : (thread.writeLog conf kernel buf).rolled = thread.rolled := by
  simp [rolled, writeLog, LogEffect.target?]

theorem writeLog_same (conf : ConfigFile) (kernel : Kernel) (buf : String) (thread : LogThread) :
    (thread.writeLog conf kernel buf).fLog = thread.fLog ∧
      (thread.writeLog conf kernel buf).fileCount = thread.fileCount := ⟨rfl, rfl⟩

@[simp] theorem rolledOver_writes : (thread.rolledOver conf kernel).writes = thread.writes := by
  simp [writes, rolledOver, openLog, LogEffect.write?]

theorem rolledOver_rolled : (thread.rolledOver conf kernel).rolled =
    thread.rolled ++ [rolledName conf thread.fileCount] := by
  simp [rolled, rolledOver, openLog, LogEffect.target?]

@[simp] theorem toConsole_writes : (thread.toConsole conf buf).writes = thread.writes := by
  unfold toConsole
  split
  · simp [writes, LogEffect.write?]
  · rfl

@[simp] theorem toConsole_rolled : (thread.toConsole conf buf).rolled = thread.rolled := by
  unfold toConsole
  split
  · simp [rolled, LogEffect.target?]
  · rfl

theorem toConsole_same (conf : ConfigFile) (buf : String) (thread : LogThread) :
    (thread.toConsole conf buf).disk = thread.disk ∧
    (thread.toConsole conf buf).fLog = thread.fLog ∧
      (thread.toConsole conf buf).fileCount = thread.fileCount := by
  unfold toConsole
  split
  · exact ⟨rfl, rfl, rfl⟩
  · exact ⟨rfl, rfl, rfl⟩

structure Sound (conf : ConfigFile) (disk : Disk String Char) (thread : LogThread) : Prop where
  opened : 0 < thread.fLog → (thread.disk conf.logFile).isSome
  files : ∀ name, name ≠ conf.logFile →
    ((thread.disk name).isSome ↔ (disk name).isSome ∨ name ∈ thread.rolled)
  apart : conf.logFile ∉ thread.rolled
  kept : thread.rolled.Nodup → thread.disk.kept thread.rolled conf.logFile =
    disk.content conf.logFile ++ thread.writes.flatMap fun write => write.2.toList

variable {disk : Disk String Char}

theorem Sound.closed (sound : Sound conf disk thread) :
    Sound conf disk { thread with fLog := -1 } := by
  refine ⟨?_, sound.files, sound.apart, sound.kept⟩
  intro (positive : (0 : Int32) < -1)
  exact absurd positive (by decide)

theorem Sound.toConsole (sound : Sound conf disk thread) :
    Sound conf disk (thread.toConsole conf buf) := by
  obtain ⟨opened, files, apart, kept⟩ := sound
  obtain ⟨same, log, _⟩ := toConsole_same conf buf thread
  constructor
  · rw [same, log]
    exact opened
  · rw [toConsole_rolled, same]
    exact files
  · rw [toConsole_rolled]
    exact apart
  · rw [toConsole_rolled, toConsole_writes, same]
    exact kept

theorem Sound.openLog (sound : Sound conf disk thread) :
    Sound conf disk (thread.openLog conf descriptor) := by
  obtain ⟨_, files, apart, kept⟩ := sound
  refine ⟨?_, ?_, apart, ?_⟩
  · intro positive
    have nonnegative : ¬ descriptor < 0 := by
      have positive' : 0 < descriptor := positive
      exact Int32.not_lt.mpr (Int32.le_of_lt positive')
    simp only [LogThread.openLog, if_neg nonnegative]
    exact Disk.create_isSome _ _
  · intro name other
    have same : (thread.openLog conf descriptor).disk name = thread.disk name := by
      simp only [LogThread.openLog]
      split
      · rfl
      · exact Disk.create_other other
    rw [same]
    exact files name other
  · intro distinct
    have same : (thread.openLog conf descriptor).disk.kept thread.rolled conf.logFile =
        thread.disk.kept thread.rolled conf.logFile := by
      simp only [LogThread.openLog]
      split
      · rfl
      · exact Disk.kept_create _ _ _ _
    rw [openLog_rolled, openLog_writes, same]
    exact kept distinct

theorem Sound.writeLog (sound : Sound conf disk thread) (succeeds : kernel.Succeeds)
    (positive : 0 < thread.fLog) : Sound conf disk (thread.writeLog conf kernel buf) := by
  obtain ⟨opened, files, apart, kept⟩ := sound
  have there := opened positive
  constructor
  · intro _
    rw [writeLog_disk succeeds, Disk.append_isSome]
    exact there
  · intro name other
    rw [writeLog_rolled, writeLog_disk succeeds, Disk.append_other other]
    exact files name other
  · rw [writeLog_rolled]
    exact apart
  · intro distinct
    rw [writeLog_rolled] at distinct
    rw [writeLog_rolled, writeLog_disk succeeds, writeLog_writes succeeds,
      Disk.kept_append there apart, kept distinct, List.flatMap_append, List.flatMap_singleton,
      List.append_assoc]

theorem Sound.rolledOver (sound : Sound conf disk thread) (positive : 0 < thread.fLog) :
    Sound conf disk (thread.rolledOver conf kernel) := by
  obtain ⟨opened, files, apart, kept⟩ := sound
  have there := opened positive
  have different := rolledName_ne conf thread.fileCount
  have added : (thread.effects ++ [LogEffect.renamed conf.logFile
      (rolledName conf thread.fileCount)]).filterMap LogEffect.target? =
        thread.rolled ++ [rolledName conf thread.fileCount] := by
    simp [rolled, LogEffect.target?]
  apply Sound.openLog
  refine ⟨?_, fun name other => ?_, ?_, ?_⟩
  · intro (closed : (0 : Int32) < -1)
    exact absurd closed (by decide)
  · show (thread.disk.rename conf.logFile _ name).isSome ↔ _ ∨
      name ∈ (thread.effects ++ [LogEffect.renamed conf.logFile
        (rolledName conf thread.fileCount)]).filterMap LogEffect.target?
    rw [Disk.rename_isSome there other, files name other, added, List.mem_append,
      List.mem_singleton, or_comm, or_assoc]
  · rw [rolled, added, List.mem_append, List.mem_singleton, not_or]
    exact ⟨apart, different⟩
  · intro distinct
    rw [rolled, added] at distinct
    obtain ⟨before, _, disjoint⟩ := List.nodup_append.mp distinct
    have fresh : rolledName conf thread.fileCount ∉ thread.rolled := by
      intro member
      exact disjoint _ member _ List.mem_cons_self rfl
    rw [rolled, added, Disk.kept_rename there apart fresh different, kept before]
    simp [writes, LogEffect.write?]

theorem Sound.started (sound : Sound conf disk thread) :
    Sound conf disk (loggerFileThread conf descriptor thread) := by
  obtain ⟨_, files, apart, kept⟩ := sound
  apply Sound.openLog
  refine ⟨?_, files, apart, kept⟩
  intro (positive : (0 : Int32) < 0)
  exact absurd positive (by decide)

/-- What becomes of the files in one call, by the state that it finds. -/
theorem toFile_ok (method : conf.logMethod = "roll") (succeeds : kernel.Succeeds) :
    thread.toFile conf kernel buf = .ok after ↔
      (¬ 0 < thread.fLog ∧ after = thread) ∨
        (0 < thread.fLog ∧ ¬ thread.Full conf ∧ after = thread.writeLog conf kernel buf) ∨
          (0 < thread.fLog ∧ thread.Full conf ∧ 64 ≤ thread.fileCount ∧
            after = { thread with fLog := -1 }) ∨
            (0 < thread.fLog ∧ thread.Full conf ∧ thread.fileCount < 64 ∧
              (rolledName conf thread.fileCount).length < 256 ∧
                after = if 0 < kernel.descriptor
                  then (thread.rolledOver conf kernel).writeLog conf kernel buf
                  else thread.rolledOver conf kernel) := by
  rw [toFile]
  by_cases positive : 0 < thread.fLog
  · rw [if_pos positive]
    by_cases full : thread.Full conf
    · rw [if_pos full, if_pos method, roll_eq succeeds]
      by_cases spent : 64 ≤ thread.fileCount
      · rw [if_pos spent, Except.ok.injEq]
        simp [positive, full, spent, Nat.not_lt.mpr spent, eq_comm]
      · rw [if_neg spent]
        by_cases long : 256 ≤ (rolledName conf thread.fileCount).length
        · rw [if_pos long]
          simp [positive, full, spent, Nat.not_lt.mpr long]
        · rw [if_neg long, Except.ok.injEq]
          simp only [positive, full, spent, Nat.lt_of_not_le spent, Nat.lt_of_not_le long, not_true,
            false_and, true_and, false_or]
          exact eq_comm
    · rw [if_neg full, Except.ok.injEq]
      simp [positive, full, eq_comm]
  · rw [if_neg positive, Except.ok.injEq]
    simp [positive, eq_comm]

theorem toFile_sound (sound : Sound conf disk thread) (method : conf.logMethod = "roll")
    (succeeds : kernel.Succeeds) (run : thread.toFile conf kernel buf = .ok after) :
    Sound conf disk after := by
  rcases (toFile_ok method succeeds).mp run with ⟨_, rfl⟩ | ⟨positive, _, rfl⟩ |
      ⟨_, _, _, rfl⟩ | ⟨positive, _, _, _, rfl⟩
  · exact sound
  · exact sound.writeLog succeeds positive
  · exact sound.closed
  · have renewed : Sound conf disk (thread.rolledOver conf kernel) := sound.rolledOver positive
    split
    · rename_i opened
      exact renewed.writeLog succeeds opened
    · exact renewed

/-- One call appends once or not at all, and forgets no rename. -/
theorem toFile_grows (method : conf.logMethod = "roll") (succeeds : kernel.Succeeds)
    (run : thread.toFile conf kernel buf = .ok after) :
    (after.writes = thread.writes ∨ after.writes = thread.writes ++ [(conf.logFile, buf)]) ∧
      thread.rolled <+: after.rolled := by
  rcases (toFile_ok method succeeds).mp run with ⟨_, rfl⟩ | ⟨_, _, rfl⟩ | ⟨_, _, _, rfl⟩ |
      ⟨_, _, _, _, rfl⟩
  · exact ⟨Or.inl rfl, List.prefix_rfl⟩
  · rw [writeLog_rolled]
    exact ⟨Or.inr (writeLog_writes succeeds), List.prefix_rfl⟩
  · exact ⟨Or.inl rfl, List.prefix_rfl⟩
  · split
    · rw [writeLog_writes succeeds, writeLog_rolled, rolledOver_writes, rolledOver_rolled]
      exact ⟨Or.inr rfl, List.prefix_append _ _⟩
    · rw [rolledOver_writes, rolledOver_rolled]
      exact ⟨Or.inl rfl, List.prefix_append _ _⟩

structure Free (disk : Disk String Char) (names : List String) : Prop where
  nodup : names.Nodup
  absent : ∀ name ∈ names, disk name = none

theorem Free.sublist {names more : List String} (free : Free disk more)
    (sublist : names.Sublist more) : Free disk names :=
  ⟨free.nodup.sublist sublist, fun name member => free.absent name (sublist.subset member)⟩

structure Room (conf : ConfigFile) (kernel : Kernel) (thread : LogThread) : Prop where
  opened : 0 < thread.fLog
  left : thread.Full conf → thread.fileCount < 64
  fits : thread.Full conf → (rolledName conf thread.fileCount).length < 256
  descriptor : thread.Full conf → kernel.descriptor ≠ 0
  vacant : thread.Full conf → thread.disk (rolledName conf thread.fileCount) = none

/-- The next name is free just when there is no file under it now. -/
theorem Sound.free (sound : Sound conf disk thread) (free : Free disk thread.rolled) :
    Free disk (thread.rolled ++ [rolledName conf thread.fileCount]) ↔
      thread.disk (rolledName conf thread.fileCount) = none := by
  have files := sound.files _ (rolledName_ne conf thread.fileCount).symm
  rw [← Option.isNone_iff_eq_none, Option.isNone_iff_eq_none, ← Option.not_isSome_iff_eq_none,
    files, not_or, Option.not_isSome_iff_eq_none]
  constructor
  · rintro ⟨nodup, absent⟩
    obtain ⟨_, _, disjoint⟩ := List.nodup_append.mp nodup
    exact ⟨absent _ (by simp), fun member => disjoint _ member _ List.mem_cons_self rfl⟩
  · rintro ⟨absent, unused⟩
    refine ⟨free.nodup.append (List.nodup_singleton _) ?_, ?_⟩
    · simpa using unused
    · intro name member
      rcases List.mem_append.mp member with old | new
      · exact free.absent name old
      · rw [List.mem_singleton.mp new]
        exact absent

theorem toFile_room (kernel : Kernel) (buf : String) (sound : Sound conf disk thread)
    (method : conf.logMethod = "roll") (succeeds : kernel.Succeeds) (free : Free disk thread.rolled) :
    (∃ after, thread.toFile conf kernel buf = .ok after ∧ Free disk after.rolled ∧
      after.writes = thread.writes ++ [(conf.logFile, buf)]) ↔ Room conf kernel thread := by
  have grows : thread.writes ≠ thread.writes ++ [(conf.logFile, buf)] := by simp
  constructor
  · rintro ⟨after, run, free', written⟩
    rcases (toFile_ok method succeeds).mp run with ⟨_, rfl⟩ | ⟨positive, spare, rfl⟩ |
        ⟨_, _, _, rfl⟩ | ⟨positive, full, left, fits, rfl⟩
    · exact absurd written grows
    · exact ⟨positive, fun full => absurd full spare, fun full => absurd full spare,
        fun full => absurd full spare, fun full => absurd full spare⟩
    · exact absurd written grows
    · split at free' <;> split at written
      · rename_i opened _
        rw [writeLog_rolled, rolledOver_rolled] at free'
        refine ⟨positive, fun _ => left, fun _ => fits, ?_, fun _ => (sound.free free).mp free'⟩
        rintro _ zero
        rw [zero] at opened
        exact absurd opened (by decide)
      · contradiction
      · contradiction
      · rw [rolledOver_writes] at written
        exact absurd written grows
  · rintro ⟨positive, left, fits, descriptor, vacant⟩
    by_cases full : thread.Full conf
    · have opened : 0 < kernel.descriptor :=
        Int32.lt_of_le_of_ne succeeds.descriptor (Ne.symm (descriptor full))
      refine ⟨(thread.rolledOver conf kernel).writeLog conf kernel buf, ?_, ?_, ?_⟩
      · refine (toFile_ok method succeeds).mpr (Or.inr (Or.inr (Or.inr ?_)))
        exact ⟨positive, full, left full, fits full, by rw [if_pos opened]⟩
      · rw [writeLog_rolled, rolledOver_rolled]
        exact (sound.free free).mpr (vacant full)
      · rw [writeLog_writes succeeds, rolledOver_writes]
    · refine ⟨thread.writeLog conf kernel buf, ?_, ?_, writeLog_writes succeeds⟩
      · exact (toFile_ok method succeeds).mpr (Or.inr (Or.inl ⟨positive, full, rfl⟩))
      · rw [writeLog_rolled]
        exact free

end LogThread

/-! Runs. -/

structure Lossless (conf : ConfigFile) (disk : Disk String Char) (texts : List String)
    (thread : LogThread) : Prop where
  appended : thread.writes = texts.map fun text => (conf.logFile, text ++ "\r\n")
  spared : LogThread.Free disk thread.rolled
  kept : thread.disk.kept thread.rolled conf.logFile =
    disk.content conf.logFile ++ texts.flatMap fun text => (text ++ "\r\n").toList

def LosesNothing (conf : ConfigFile) (disk : Disk String Char) (descriptor : Int32)
    (events : List LogEvent) : Prop :=
  ∃ thread, logRun conf disk descriptor events = .ok thread ∧
    Lossless conf disk (events.filterMap LogEvent.text) thread

def LogEvent.HasRoom (conf : ConfigFile) (thread : LogThread) : LogEvent → Prop
  | .started _ => True
  | .received kernel msg => ∀ text, logText msg = some text →
      text.length < 1020 ∧ thread.Room conf kernel

section

variable {conf : ConfigFile} {disk : Disk String Char} {thread after : LogThread}
  {event : LogEvent} {events : List LogEvent} {descriptor : Int32} {texts : List String}

theorem LogThread.Sound.lossless (sound : thread.Sound conf disk)
    (appended : thread.writes = texts.map fun text => (conf.logFile, text ++ "\r\n"))
    (spared : LogThread.Free disk thread.rolled) : Lossless conf disk texts thread := by
  refine ⟨appended, spared, ?_⟩
  rw [sound.kept spared.nodup, appended, List.flatMap_map]

theorem received_ok {kernel : Kernel} {msg : Option (List String)} :
    LogEvent.step conf thread (.received kernel msg) = .ok after ↔
      (logText msg = none ∧ after = thread) ∨
        ∃ text filed, logText msg = some text ∧
          thread.toFile conf kernel (logLine text) = .ok filed ∧
            after = filed.toConsole conf (logLine text) := by
  rw [LogEvent.step, loggerThreadEvent]
  cases logText msg with
  | none => simp [eq_comm]
  | some text =>
      cases filed : thread.toFile conf kernel (logLine text) with
      | error fault => simp [filed]
      | ok filed' => simp [filed, eq_comm]

theorem LogEvent.step_sound (event : LogEvent) (method : conf.logMethod = "roll") (succeeds : event.Succeeds)
    (sound : thread.Sound conf disk) (run : event.step conf thread = .ok after) :
    after.Sound conf disk := by
  cases event with
  | started descriptor =>
      cases run
      exact sound.started
  | received kernel msg =>
      rcases received_ok.mp run with ⟨_, rfl⟩ | ⟨text, filed, _, filing, rfl⟩
      · exact sound
      · exact (LogThread.toFile_sound sound method succeeds filing).toConsole

/-- One event appends one text at most, and that only for a message. -/
theorem LogEvent.step_grows (method : conf.logMethod = "roll") (succeeds : event.Succeeds)
    (run : event.step conf thread = .ok after) :
    (after.writes = thread.writes ∨ ∃ text, event.text = some text ∧
      after.writes = thread.writes ++ [(conf.logFile, logLine text)]) ∧
      thread.rolled <+: after.rolled := by
  cases event with
  | started descriptor =>
      cases run
      exact ⟨Or.inl rfl, List.prefix_rfl⟩
  | received kernel msg =>
      rcases received_ok.mp run with ⟨_, rfl⟩ | ⟨text, filed, logged, filing, rfl⟩
      · exact ⟨Or.inl rfl, List.prefix_rfl⟩
      · obtain ⟨written, rolled⟩ := LogThread.toFile_grows method succeeds filing
        rw [LogThread.toConsole_writes, LogThread.toConsole_rolled]
        exact ⟨written.imp_right fun grown => ⟨text, logged, grown⟩, rolled⟩

/-- What was lossless after an event was so before. -/
theorem LogEvent.lossless_before (method : conf.logMethod = "roll") (succeeds : event.Succeeds)
    (sound : thread.Sound conf disk) (run : event.step conf thread = .ok after)
    (bounded : thread.writes.length ≤ texts.length)
    (lossless : Lossless conf disk (texts ++ event.text.toList) after) :
    Lossless conf disk texts thread := by
  obtain ⟨grown, rolled⟩ := event.step_grows method succeeds run
  refine sound.lossless ?_ (lossless.spared.sublist rolled.sublist)
  have appended := lossless.appended
  rw [List.map_append] at appended
  rcases grown with same | ⟨text, logged, grown⟩
  · rw [same] at appended
    have lengths := congrArg List.length appended
    rw [List.length_append, List.length_map] at lengths
    have nothing : (event.text.toList.map fun text => (conf.logFile, text ++ "\r\n")) = [] :=
      List.eq_nil_of_length_eq_zero (by omega)
    rw [appended, nothing, List.append_nil]
  · rw [grown, logged] at appended
    exact (List.append_inj' appended rfl).1

/-- A message to be logged loses nothing just when it is short enough and the file
takes its line. -/
theorem received_lossless {kernel : Kernel} {msg : Option (List String)} {text : String}
    (method : conf.logMethod = "roll") (succeeds : kernel.Succeeds)
    (sound : thread.Sound conf disk) (lossless : Lossless conf disk texts thread)
    (logged : logText msg = some text) :
    (∃ after, LogEvent.step conf thread (.received kernel msg) = .ok after ∧
      Lossless conf disk (texts ++ [text]) after) ↔
      text.length < 1020 ∧ thread.Room conf kernel := by
  have room := LogThread.toFile_room kernel (logLine text) sound method succeeds lossless.spared
  have line : thread.writes ++ [(conf.logFile, text ++ "\r\n")] =
      (texts ++ [text]).map fun text => (conf.logFile, text ++ "\r\n") := by
    rw [List.map_append, lossless.appended]
    rfl
  constructor
  · rintro ⟨after, run, appended, spared, _⟩
    rcases received_ok.mp run with ⟨none', _⟩ | ⟨text', filed, logged', filing, rfl⟩
    · rw [logged] at none'
      cases none'
    · cases logged.symm.trans logged'
      rw [LogThread.toConsole_writes, ← line] at appended
      rw [LogThread.toConsole_rolled] at spared
      rcases (LogThread.toFile_grows method succeeds filing).1 with same | grown
      · rw [same] at appended
        exact absurd appended (by simp)
      · have written := grown.symm.trans appended
        have whole : logLine text = text ++ "\r\n" := by simpa using written
        exact ⟨(logLine_whole text).mp whole, room.mp ⟨filed, filing, spared, grown⟩⟩
  · rintro ⟨brief, found⟩
    obtain ⟨filed, filing, spared, grown⟩ := room.mpr found
    have run : LogEvent.step conf thread (.received kernel msg) =
        .ok (filed.toConsole conf (logLine text)) :=
      received_ok.mpr (Or.inr ⟨text, filed, logged, filing, rfl⟩)
    have sound' := LogEvent.step_sound (.received kernel msg) method succeeds sound run
    refine ⟨_, run, sound'.lossless ?_ ?_⟩
    · rw [LogThread.toConsole_writes, grown, (logLine_whole text).mpr brief]
      exact line
    · rw [LogThread.toConsole_rolled]
      exact spared

/-- From a sound state that has lost nothing, an event loses nothing just when it
finds room. -/
theorem LogEvent.step_lossless (method : conf.logMethod = "roll") (succeeds : event.Succeeds)
    (sound : thread.Sound conf disk) (lossless : Lossless conf disk texts thread) :
    (∃ after, event.step conf thread = .ok after ∧
      Lossless conf disk (texts ++ event.text.toList) after) ↔ event.HasRoom conf thread := by
  cases event with
  | started descriptor =>
      refine iff_of_true ⟨_, rfl, ?_⟩ trivial
      rw [LogEvent.text, Option.toList_none, List.append_nil]
      exact sound.started.lossless lossless.appended lossless.spared
  | received kernel msg =>
      rw [LogEvent.HasRoom, LogEvent.text]
      cases logged : logText msg with
      | none =>
          refine iff_of_true ⟨thread, received_ok.mpr (Or.inl ⟨logged, rfl⟩), ?_⟩ ?_
          · rw [Option.toList_none, List.append_nil]
            exact lossless
          · rintro text ⟨⟩
      | some text =>
          rw [Option.toList_some, received_lossless method succeeds sound lossless logged]
          constructor
          · rintro found text' ⟨⟩
            exact found
          · exact fun found => found text rfl

theorem logRun_concat :
    logRun conf disk descriptor (events ++ [event]) = .ok after ↔
      ∃ thread, logRun conf disk descriptor events = .ok thread ∧
        event.step conf thread = .ok after := by
  simp only [logRun, List.foldlM_append, List.foldlM_cons, List.foldlM_nil, bind_pure]
  exact bind_ok

theorem logRun_sound (method : conf.logMethod = "roll")
    (succeeds : ∀ event ∈ events, event.Succeeds)
    (run : logRun conf disk descriptor events = .ok thread) :
    thread.Sound conf disk ∧
      thread.writes.length ≤ (events.filterMap LogEvent.text).length := by
  induction events using List.reverseRecOn generalizing thread with
  | nil =>
      cases run
      have empty : LogThread.Sound conf disk ⟨0, 0, 0, disk, []⟩ := by
        refine ⟨?_, fun _ _ => by simp [LogThread.rolled], List.not_mem_nil, fun _ => ?_⟩
        · intro (positive : (0 : Int32) < 0)
          exact absurd positive (by decide)
        · exact (List.append_nil _).symm
      exact ⟨empty.started, Nat.le_refl _⟩
  | append_singleton events event ih =>
      obtain ⟨before, run, step⟩ := logRun_concat.mp run
      have succeeds' := succeeds event (List.mem_append_right _ List.mem_cons_self)
      obtain ⟨sound, bounded⟩ :=
        ih (fun other member => succeeds other (List.mem_append_left _ member)) run
      refine ⟨event.step_sound method succeeds' sound step, ?_⟩
      rw [List.filterMap_append, List.length_append]
      rcases (event.step_grows method succeeds' step).1 with same | ⟨text, logged, grown⟩
      · rw [same]
        omega
      · rw [grown, List.length_append, List.filterMap_cons, logged]
        simpa using bounded

/-- One more event loses nothing if the run so far did not, and it finds room. -/
theorem losesNothing_concat (method : conf.logMethod = "roll")
    (succeeds : ∀ event' ∈ events ++ [event], event'.Succeeds) :
    LosesNothing conf disk descriptor (events ++ [event]) ↔
      LosesNothing conf disk descriptor events ∧
        ∀ thread, logRun conf disk descriptor events = .ok thread → event.HasRoom conf thread := by
  have last : event.Succeeds := succeeds event (List.mem_append_right _ List.mem_cons_self)
  have others : ∀ event' ∈ events, event'.Succeeds := fun event' member =>
    succeeds event' (List.mem_append_left _ member)
  have texts : (events ++ [event]).filterMap LogEvent.text =
      events.filterMap LogEvent.text ++ event.text.toList := by
    rw [List.filterMap_append, List.filterMap_cons]
    cases event.text with
    | none => rfl
    | some text => rfl
  constructor
  · rintro ⟨after, run, lossless⟩
    obtain ⟨thread, run, step⟩ := logRun_concat.mp run
    obtain ⟨sound, bounded⟩ := logRun_sound method others run
    rw [texts] at lossless
    have before := event.lossless_before method last sound step bounded lossless
    refine ⟨⟨thread, run, before⟩, fun thread' run' => ?_⟩
    cases run.symm.trans run'
    exact (event.step_lossless method last sound before).mp ⟨after, step, lossless⟩
  · rintro ⟨⟨thread, run, before⟩, room⟩
    have sound := (logRun_sound method others run).1
    obtain ⟨after, step, lossless⟩ :=
      (event.step_lossless method last sound before).mpr (room thread run)
    refine ⟨after, logRun_concat.mpr ⟨thread, run, step⟩, ?_⟩
    rw [texts]
    exact lossless

theorem losesNothing_start (method : conf.logMethod = "roll") :
    LosesNothing conf disk descriptor [] := by
  have run : logRun conf disk descriptor [] =
      .ok (loggerFileThread conf descriptor ⟨0, 0, 0, disk, []⟩) := rfl
  have sound := (logRun_sound method (fun _ member => absurd member List.not_mem_nil) run).1
  exact ⟨_, run, sound.lossless rfl ⟨List.nodup_nil, fun _ member => absurd member List.not_mem_nil⟩⟩

/-- Rolling loses no line of a run just when each message is short enough and
finds the file open, and a full file is found only by a process that has a number
left, and under the number's name there is no file. -/
theorem rolling_lossless (method : conf.logMethod = "roll")
    (succeeds : ∀ event ∈ events, event.Succeeds) :
    LosesNothing conf disk descriptor events ↔
      ∀ before event, before ++ [event] <+: events → ∀ thread,
        logRun conf disk descriptor before = .ok thread → event.HasRoom conf thread := by
  induction events using List.reverseRecOn with
  | nil =>
      refine iff_of_true (losesNothing_start method) fun before event early => ?_
      exact absurd (List.prefix_nil.mp early) (by simp)
  | append_singleton events event ih =>
      rw [losesNothing_concat method succeeds,
        ih fun other member => succeeds other (List.mem_append_left _ member)]
      constructor
      · rintro ⟨earlier, last⟩ before event' early
        rcases List.prefix_concat_iff.mp early with same | early
        · obtain ⟨rfl, single⟩ := List.append_inj' same rfl
          rw [(List.cons.inj single).1]
          exact last
        · exact earlier before event' early
      · intro all
        refine ⟨fun before event' early => ?_, all events event List.prefix_rfl⟩
        exact all before event' (early.trans (List.prefix_append _ _))

end

def oneMegabyte : ConfigFile := { logFile := "bus.log", logMethod := "roll", logMaxSize := 1 }

def steady : Kernel := ⟨3, fun _ => 0, fun count => count⟩

theorem steady_succeeds : steady.Succeeds := ⟨by decide, fun _ => rfl, fun _ => rfl⟩

theorem oneMegabyte_full (thread : LogThread) :
    thread.Full oneMegabyte ↔ 1048576 ≤ (thread.disk.content oneMegabyte.logFile).length := by
  have limit : (Int64.ofInt oneMegabyte.logMaxSize * 1024 * 1024).toInt = 1048576 := by decide
  have positive : oneMegabyte.logMaxSize ≠ 0 := by decide
  rw [LogThread.Full, limit]
  constructor
  · rintro ⟨_, reached⟩
    exact Int.ofNat_le.mp reached
  · intro reached
    exact ⟨positive, Int.ofNat_le.mpr reached⟩

/-- A file that is full from the start is rolled, and the message is in the new one. -/
theorem rolling_lossless_once :
    LosesNothing oneMegabyte
      (fun name => if name = "bus.log" then some (List.replicate 1048576 'x') else none) 3
      [.received steady (some ["LOG", "started"])] := by
  refine (rolling_lossless rfl ?_).mpr ?_
  · intro event member
    cases List.mem_singleton.mp member
    exact steady_succeeds
  · intro before event early thread run
    cases before with
    | cons head tail =>
        have lengths := early.length_le
        simp at lengths
    | nil =>
        cases run
        have same := List.cons_prefix_cons.mp early
        cases same.1
        rintro text ⟨⟩
        exact ⟨by decide, by decide, fun _ => by decide, fun _ => by decide, fun _ => by decide,
          fun _ => rfl⟩

def longText : String := String.ofList (List.replicate 1000 'x')

def thousand : LogEvent := .received steady (some ["LOG", longText])

def restartedRun : List LogEvent :=
  List.replicate 1048 thousand ++ .started 3 :: List.replicate 1047 thousand

structure Stands (names : List String) (count size : Nat) (thread : LogThread) : Prop where
  opened : 0 < thread.fLog
  there : (thread.disk oneMegabyte.logFile).isSome
  rolled : thread.rolled = names
  counted : thread.fileCount = count
  sized : (thread.disk.content oneMegabyte.logFile).length = size

section

variable {names : List String} {count size : Nat} {thread after : LogThread}

theorem longText_line : (logLine longText).toList.length = 1002 := by
  have size : longText.length = 1000 := String.length_ofList.trans List.length_replicate
  have ending : ("\r\n" : String).length = 2 := rfl
  have brief : longText.length < 1020 := by omega
  rw [(logLine_whole _).mpr brief, String.length_toList, String.length_append, size, ending]

theorem thousand_written (filed : LogThread)
    (run : thread.toFile oneMegabyte steady (logLine longText) = .ok filed)
    (stands : Stands names count size filed) :
    ∃ after, thousand.step oneMegabyte thread = .ok after ∧ Stands names count size after := by
  obtain ⟨opened, there, rolled, counted, sized⟩ := stands
  obtain ⟨files, log, number⟩ := LogThread.toConsole_same oneMegabyte (logLine longText) filed
  have logged : logText (some ["LOG", longText]) = some longText := by rw [logText, if_pos rfl]; rfl
  refine ⟨_, received_ok.mpr (Or.inr ⟨longText, filed, logged, run, rfl⟩), ?_⟩
  constructor
  · rwa [log]
  · rwa [files]
  · rwa [LogThread.toConsole_rolled]
  · rwa [number]
  · rwa [files]

theorem Stands.writeLog (stands : Stands names count size thread) :
    Stands names count (size + 1002) (thread.writeLog oneMegabyte steady
      (logLine longText)) := by
  obtain ⟨opened, there, rolled, counted, sized⟩ := stands
  obtain ⟨log, number⟩ := LogThread.writeLog_same oneMegabyte steady (logLine longText) thread
  constructor
  · rw [log]
    exact opened
  · rw [LogThread.writeLog_disk steady_succeeds, Disk.append_isSome]
    exact there
  · rw [LogThread.writeLog_rolled, rolled]
  · rw [number, counted]
  · rw [LogThread.writeLog_disk steady_succeeds, Disk.content_append there, List.length_append,
      sized, longText_line]

theorem Stands.burst (messages : Nat) (stands : Stands names count size thread)
    (spare : size + 1002 * messages < 1048576 + 1002) :
    ∃ after, (List.replicate messages thousand).foldlM (LogEvent.step oneMegabyte) thread =
        .ok after ∧ Stands names count (size + 1002 * messages) after := by
  induction messages generalizing thread size with
  | zero => exact ⟨thread, rfl, stands⟩
  | succ messages ih =>
      have below : ¬ thread.Full oneMegabyte := by
        rw [oneMegabyte_full, stands.sized]
        omega
      have run : thread.toFile oneMegabyte steady (logLine longText) = .ok _ :=
        (LogThread.toFile_ok rfl steady_succeeds).mpr (Or.inr (Or.inl ⟨stands.opened, below, rfl⟩))
      obtain ⟨next, step, stands'⟩ := thousand_written _ run stands.writeLog
      obtain ⟨after, run', stands''⟩ := ih stands' (by omega)
      refine ⟨after, ?_, ?_⟩
      · rw [List.replicate_succ, List.foldlM_cons, step]
        exact run'
      · have total : size + 1002 + 1002 * messages = size + 1002 * (messages + 1) := by omega
        rwa [total] at stands''

theorem Stands.started (stands : Stands names count size thread) :
    Stands names 0 size (loggerFileThread oneMegabyte 3 thread) := by
  obtain ⟨_, _, rolled, _, sized⟩ := stands
  have positive : (0 : Int32) < 3 := by decide
  have created : (loggerFileThread oneMegabyte 3 thread).disk =
      thread.disk.create oneMegabyte.logFile := rfl
  refine ⟨positive, ?_, rolled, rfl, ?_⟩
  · rw [created]
    exact Disk.create_isSome _ _
  · rw [created, Disk.content_create, sized]

theorem Stands.roll (stands : Stands [] 0 size thread) (reached : 1048576 ≤ size) :
    ∃ after, thousand.step oneMegabyte thread = .ok after ∧
      Stands ["bus.log.0"] 1 1002 after := by
  obtain ⟨opened, there, rolled, counted, sized⟩ := stands
  have full : thread.Full oneMegabyte := (oneMegabyte_full thread).mpr (sized ▸ reached)
  have renewed : Stands ["bus.log.0"] 1 0 (thread.rolledOver oneMegabyte steady) := by
    have positive : (0 : Int32) < 3 := by decide
    have created : (thread.rolledOver oneMegabyte steady).disk =
        (thread.disk.rename oneMegabyte.logFile (rolledName oneMegabyte thread.fileCount)).create
          oneMegabyte.logFile := rfl
    refine ⟨positive, ?_, ?_, congrArg (· + 1) counted, ?_⟩
    · rw [created]
      exact Disk.create_isSome _ _
    · rw [LogThread.rolledOver_rolled, rolled, counted]
      decide
    · rw [created, Disk.content_create,
        Disk.content_rename_old there (rolledName_ne oneMegabyte thread.fileCount), List.length_nil]
  refine thousand_written _ ?_ renewed.writeLog
  refine (LogThread.toFile_ok rfl steady_succeeds).mpr (Or.inr (Or.inr (Or.inr ?_)))
  refine ⟨opened, full, by omega, ?_, rfl⟩
  rw [counted]
  decide

theorem logRun_append {conf : ConfigFile} {disk : Disk String Char} {descriptor : Int32}
    {events more : List LogEvent} :
    logRun conf disk descriptor (events ++ more) = .ok after ↔
      ∃ thread, logRun conf disk descriptor events = .ok thread ∧
        more.foldlM (LogEvent.step conf) thread = .ok after := by
  simp only [logRun, List.foldlM_append]
  exact bind_ok

end

/-- Each process fills the file, and both put it aside as `bus.log.0`. -/
theorem rolling_overwrites :
    (∀ event ∈ restartedRun, event.Succeeds) ∧
      ¬ LosesNothing oneMegabyte (fun _ => none) 3 restartedRun := by
  have succeeds : ∀ event ∈ restartedRun, event.Succeeds := by
    intro event member
    rcases List.mem_append.mp member with first | second
    · rw [List.eq_of_mem_replicate first]
      exact steady_succeeds
    · rcases List.mem_cons.mp second with rfl | second
      · exact (by decide : (0 : Int32) ≤ 3)
      · rw [List.eq_of_mem_replicate second]
        exact steady_succeeds
  have split' : restartedRun = (List.replicate 1047 thousand ++ [thousand] ++ [.started 3] ++
      List.replicate 1046 thousand) ++ [thousand] := by
    rw [restartedRun, List.replicate_succ', List.replicate_succ' (n := 1046)]
    simp only [List.append_assoc, List.cons_append, List.nil_append]
  refine ⟨succeeds, fun lossless => ?_⟩
  rw [split'] at succeeds lossless
  obtain ⟨_, room⟩ := (losesNothing_concat rfl succeeds).mp lossless
  have begun : Stands [] 0 0 (loggerFileThread oneMegabyte 3 ⟨0, 0, 0, fun _ => none, []⟩) :=
    ⟨by decide, by decide, rfl, rfl, rfl⟩
  obtain ⟨filled, run, stands⟩ := begun.burst 1047 (by omega)
  obtain ⟨renewed, step, stands⟩ := stands.roll (by omega)
  obtain ⟨again, run', stands'⟩ := stands.started.burst 1046 (by omega)
  have rolled := logRun_concat.mpr ⟨filled, run, step⟩
  have begins : LogEvent.step oneMegabyte renewed (.started 3) =
      .ok (loggerFileThread oneMegabyte 3 renewed) := rfl
  have restarted := logRun_concat.mpr ⟨renewed, rolled, begins⟩
  have whole := logRun_append.mpr ⟨_, restarted, run'⟩
  obtain ⟨_, room'⟩ := room again whole longText (by rw [logText, if_pos rfl]; rfl)
  have full : again.Full oneMegabyte := by
    rw [oneMegabyte_full, stands'.sized]
    omega
  have vacant := room'.vacant full
  have others : ∀ event ∈ List.replicate 1047 thousand ++ [thousand] ++ [.started 3] ++
      List.replicate 1046 thousand, event.Succeeds := fun event member =>
    succeeds event (List.mem_append_left _ member)
  have there := ((logRun_sound rfl others whole).1.files "bus.log.0" (by decide)).mpr
    (.inr (by rw [stands'.rolled]; exact List.mem_cons_self))
  rw [stands'.counted] at vacant
  have name : rolledName oneMegabyte 0 = "bus.log.0" := by decide
  rw [name] at vacant
  rw [vacant] at there
  cases there

end ModBus
