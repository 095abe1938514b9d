import ModBus.ConfigFile
import ModBus.IniText

/-! `config.c` on the bytes of a file: each of its reads opens the file again, and
a section is asked for by its number. All of them together see what the text says. -/

namespace ModBus

open Libc Czmq

def fileLines (file : Option (List Char)) : List (List Char) :=
  (file.map (lines MinIni.iniBuffersize)).getD []

def iniOf (file : Option (List Char)) : Ini where
  sections := (MinIni.headers (fileLines file)).map String.ofList
  value? := fun section' key =>
    (MinIni.value? (fileLines file) section'.toList key.toList).map String.ofList

/-- Where the buffers of `config_new` lie: those for the names of sections, and for
each section and key the one that takes the value. -/
structure Buffers where
  sectionName : MinIni.Gap
  module : MinIni.Gap
  value : String → String → MinIni.Gap

def serverReads : List (String × Nat) :=
  ["name", "s_path", "s_owner", "s_mode", "pid_path", "log_path", "mod_path", "mod_work_path",
    "debug", "log_level", "global", "daemon", "queue_poll", "modlist_poll", "in_timeout",
    "out_timeout", "process_timeout", "runas", "iface", "log_max_size", "log_method", "log_mode",
    "mod_log_err", "mod_log_out"].map (·, 256)

def moduleReads (exec : String) : List (String × Nat) :=
  ("exec", 256) ::
    if exec = "" then []
    else [("workpath", 256), ("args", 256), ("instances", 2), ("start_timeout", 256),
      ("maxmem", 256), ("owner", 256), ("log_err", 256), ("log_out", 256)]

def readAll (buffers : Buffers) (file : Option (List Char)) (section' : String) :
    List (String × Nat) → Except Fault Unit
  | [] => .ok ()
  | (key, size) :: rest =>
      match MinIni.iniGets (buffers.value section' key) section'.toList key.toList [] size file with
      | .error fault => .error fault
      | .ok _ => readAll buffers file section' rest

def configModules (buffers : Buffers) (file : Option (List Char)) (config : ConfigFile) :
    Nat → Nat → ZHash ModuleSection → Option (Except Fault (ZHash ModuleSection))
  | 0, _, _ => none
  | fuel + 1, k, modules =>
      match MinIni.iniGetsection buffers.module k 50 file with
      | .error fault => some (.error fault)
      | .ok name =>
          let module := String.ofList name
          if module = "" then some (.ok modules)
          else
            match readAll buffers file module (moduleReads ((iniOf file).gets module "exec" "")) with
            | .error fault => some (.error fault)
            | .ok () =>
                match moduleSection (iniOf file) config module with
                | .error fault => some (.error fault)
                | .ok none => configModules buffers file config fuel (k + 1) modules
                | .ok (some entry) =>
                    configModules buffers file config fuel (k + 1)
                      (ZHash.insertNew modules module entry).2

def configSections (buffers : Buffers) (file : Option (List Char)) :
    Nat → Nat → ConfigFile → Option (Except Fault ConfigFile)
  | 0, _, _ => none
  | fuel + 1, s, config =>
      match MinIni.iniGetsection buffers.sectionName s 50 file with
      | .error fault => some (.error fault)
      | .ok name =>
          let section' := String.ofList name
          if section' = "" then some (.ok config)
          else if section' = "server" then
            match readAll buffers file "server" serverReads with
            | .error fault => some (.error fault)
            | .ok () =>
                match readServer (iniOf file) config with
                | .error fault => some (.error fault)
                | .ok config => configSections buffers file fuel (s + 1) config
          else if section' = "modules" then
            match configModules buffers file config fuel (s + 1) ∅ with
            | none => none
            | some (.error fault) => some (.error fault)
            | some (.ok modules) =>
                configSections buffers file fuel (s + 1) { config with modules := some modules }
          else configSections buffers file fuel (s + 1) config

section

variable {buffers : Buffers} {gap : MinIni.Gap} {file : Option (List Char)} {fuel k : Nat}

theorem value?_unreadable (section' key : List Char) : MinIni.value? [] section' key = none := by
  rw [MinIni.value?, MinIni.searched]
  split
  · rfl
  · split <;> rfl

theorem iniGets_file (early : ∀ line ∈ fileLines file, MinIni.Early line)
    (section' key default' : String) {size : Nat} (fits : size ≤ 256) :
    MinIni.iniGets gap section'.toList key.toList default'.toList size file =
      .ok (iniGets (iniOf file) section' key default' size).toList := by
  rw [iniGets, fitted, MinIni.iniGets.eq_def, String.toList_ofList]
  split
  · rename_i empty
    simp [empty]
  · rename_i positive
    cases file with
    | none => simp [iniOf, fileLines, value?_unreadable, MinIni.copied]
    | some text =>
        simp only [fileLines, Option.map_some, Option.getD_some] at early ⊢
        rw [MinIni.getkeystring_value early _ _ (Nat.pos_of_ne_zero positive) fits]
        simp only [iniOf, fileLines, Option.map_some, Option.getD_some]
        cases MinIni.value? (lines MinIni.iniBuffersize text) section'.toList key.toList <;>
          simp [MinIni.copied, Except.map]

theorem readAll_file (early : ∀ line ∈ fileLines file, MinIni.Early line) (section' : String)
    {reads : List (String × Nat)} (fit : ∀ read ∈ reads, read.2 ≤ 256) :
    readAll buffers file section' reads = .ok () := by
  induction reads with
  | nil => rfl
  | cons read rest ih =>
      rw [readAll]
      have gets : MinIni.iniGets (buffers.value section' read.1) section'.toList read.1.toList
          "".toList read.2 file = .ok _ :=
        iniGets_file early section' read.1 "" (fit read List.mem_cons_self)
      rw [String.toList_empty] at gets
      rw [gets]
      exact ih fun read member => fit read (List.mem_cons_of_mem _ member)

theorem moduleReads_fit (exec : String) : ∀ read ∈ moduleReads exec, read.2 ≤ 256 := by
  intro read member
  rw [moduleReads] at member
  split at member <;> revert read <;> decide

theorem iniGetsection_file (early : ∀ line ∈ fileLines file, MinIni.Early line)
    (before : ∀ name ∈ (iniOf file).sections.take k, name ≠ "") :
    MinIni.iniGetsection gap k 50 file =
      .ok (fitted 50 ((iniOf file).sections[k]?.getD "")).toList := by
  have names : ∀ name ∈ (MinIni.headers (fileLines file)).take k, name ≠ [] := by
    rintro name member rfl
    refine before "" ?_ rfl
    rw [iniOf, ← List.map_take]
    exact List.mem_map.mpr ⟨[], member, rfl⟩
  have read : MinIni.iniGetsection gap k 50 file =
      .ok (((MinIni.headers (fileLines file))[k]?.getD []).take 49) := by
    cases file with
    | none => simp [MinIni.iniGetsection, fileLines, MinIni.headers]
    | some text =>
        rw [MinIni.iniGetsection_named k early (by decide) (by decide), ← MinIni.named_next names]
        rfl
  rw [read, fitted, iniOf, List.getElem?_map, String.toList_ofList]
  cases (MinIni.headers (fileLines file))[k]? <;> simp

theorem drop_next {α : Type} {list rest : List α} {first : α} (left : list.drop k = first :: rest) :
    list[k]? = some first ∧ list.drop (k + 1) = rest := by
  constructor
  · rw [← List.head?_drop, left, List.head?_cons]
  · rw [← List.drop_drop, left]
    rfl

/-- The names before the next one stay those the loop has passed. -/
theorem before_next {list : List String} {first : String} {rest : List String}
    (before : ∀ name ∈ list.take k, name ≠ "") (left : list.drop k = first :: rest)
    (passed : first ≠ "") : ∀ name ∈ list.take (k + 1), name ≠ "" := by
  intro name member
  rw [List.take_add_one, (drop_next left).1] at member
  rcases List.mem_append.mp member with earlier | last
  · exact before name earlier
  · simp only [Option.toList_some, List.mem_singleton] at last
    exact last ▸ passed

theorem passed_of_fitted {name : String} (passed : ¬ fitted 50 name = "") : name ≠ "" := by
  rintro rfl
  exact passed rfl

theorem configModules_file (early : ∀ line ∈ fileLines file, MinIni.Early line)
    (config : ConfigFile) (rest : List String) (modules : ZHash ModuleSection) (left : (iniOf file).sections.drop k = rest)
    (before : ∀ name ∈ (iniOf file).sections.take k, name ≠ "") (enough : rest.length < fuel) :
    configModules buffers file config fuel k modules =
      some (readModules (iniOf file) config rest modules) := by
  induction rest generalizing fuel k modules with
  | nil =>
      obtain ⟨fuel, rfl⟩ := Nat.exists_eq_add_one_of_ne_zero (Nat.ne_zero_of_lt enough)
      have beyond : (iniOf file).sections[k]? = none := by rw [← List.head?_drop, left]; rfl
      rw [configModules, iniGetsection_file early before, beyond]
      rfl
  | cons name rest ih =>
      obtain ⟨fuel, rfl⟩ := Nat.exists_eq_add_one_of_ne_zero (Nat.ne_zero_of_lt enough)
      obtain ⟨next, later⟩ := drop_next left
      rw [configModules, readModules, iniGetsection_file early before, next, Option.getD_some]
      simp only [String.ofList_toList]
      split
      · rfl
      · rename_i passed
        have more := before_next before left (passed_of_fitted passed)
        have fewer : rest.length < fuel := Nat.lt_of_succ_lt_succ enough
        rw [readAll_file early _ (moduleReads_fit _)]
        cases moduleSection (iniOf file) config (fitted 50 name) with
        | error fault => rfl
        | ok entry =>
            cases entry with
            | none => exact ih modules later more fewer
            | some entry => exact ih _ later more fewer

theorem configSections_file (early : ∀ line ∈ fileLines file, MinIni.Early line)
    (config : ConfigFile) (rest : List String)
    (left : (iniOf file).sections.drop k = rest)
    (before : ∀ name ∈ (iniOf file).sections.take k, name ≠ "") (enough : rest.length < fuel) :
    configSections buffers file fuel k config = some (readSections (iniOf file) rest config) := by
  induction rest generalizing fuel k config with
  | nil =>
      obtain ⟨fuel, rfl⟩ := Nat.exists_eq_add_one_of_ne_zero (Nat.ne_zero_of_lt enough)
      have beyond : (iniOf file).sections[k]? = none := by rw [← List.head?_drop, left]; rfl
      rw [configSections, iniGetsection_file early before, beyond]
      rfl
  | cons name rest ih =>
      obtain ⟨fuel, rfl⟩ := Nat.exists_eq_add_one_of_ne_zero (Nat.ne_zero_of_lt enough)
      obtain ⟨next, later⟩ := drop_next left
      rw [configSections, readSections, iniGetsection_file early before, next, Option.getD_some]
      simp only [String.ofList_toList]
      split
      · rfl
      · rename_i passed
        have more := before_next before left (passed_of_fitted passed)
        have fewer : rest.length < fuel := Nat.lt_of_succ_lt_succ enough
        split
        · rw [readAll_file early _ (by decide)]
          cases readServer (iniOf file) config with
          | error fault => rfl
          | ok config => exact ih config later more fewer
        · split
          · rw [configModules_file early config rest ∅ later more fewer]
            cases readModules (iniOf file) config rest ∅ with
            | error fault => rfl
            | ok modules => exact ih _ later more fewer
          · exact ih config later more fewer

/-- Reading a file by section numbers and keys gives the same configuration as what
its text says, read once; and wherever the buffers lie, no assertion fails. -/
theorem configNew_file (buffers : Buffers) (file : Option (List Char))
    (early : ∀ line ∈ fileLines file, MinIni.Early line)
    (enough : (iniOf file).sections.length < fuel) :
    (∀ gap section' key default' size, size ≤ 256 →
      MinIni.iniGets gap section'.toList key.toList default'.toList size file =
        .ok (iniGets (iniOf file) section' key default' size).toList) ∧
    configSections buffers file fuel 0 {} = some (configNew (iniOf file)) :=
  ⟨fun _ section' key default' _ fits => iniGets_file early section' key default' fits,
    configSections_file early {} (iniOf file).sections rfl (by simp) enough⟩

def smallFile : List Char :=
  "[server]\nname = bus ; ours\n[modules]\n[worker]\nexec = \"/bin/w\"\n".toList

def closeBuffers : Buffers :=
  let gap : MinIni.Gap := { bytes := 512, disjoint := Or.inr (by decide) }
  { sectionName := gap, module := gap, value := fun _ _ => gap }

theorem configNew_file_small :
    MinIni.iniGets closeBuffers.module "worker".toList "exec".toList "".toList 256 (some smallFile) =
        .ok (iniGets (iniOf (some smallFile)) "worker" "exec" "" 256).toList ∧
      configSections closeBuffers (some smallFile) 4 0 {} =
        some (configNew (iniOf (some smallFile))) := by
  have early : ∀ line ∈ fileLines (some smallFile), MinIni.Early line := by decide
  have enough : (iniOf (some smallFile)).sections.length < 4 := by decide
  obtain ⟨gets, reads⟩ := configNew_file closeBuffers (some smallFile) early enough
  exact ⟨gets closeBuffers.module "worker" "exec" "" 256 (by decide), reads⟩

end

end ModBus
