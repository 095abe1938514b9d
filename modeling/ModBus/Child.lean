import ModBus.ConfigFile

/-! What a forked child does before it becomes the module: where its streams go,
who it runs as and which arguments it is given. -/

namespace ModBus

open Libc Czmq

inductive Stream
  | stdin
  | stdout
  | stderr

inductive Syscall
  | chdir (path : String)
  | freopen (path : String) (stream : Stream)
  | seteuid (uid : UInt32)
  | setegid (gid : UInt32)
  | execv (path : String) (args : List String)
  | exit

structure ChildEnv where
  chdir : String → Bool
  execv : Bool
  root : Bool
  getpwnam : String → Option (UInt32 × UInt32)

def devnull : String := "/dev/null"

def fillArgs (args : List String) : List String → Except Fault (List String)
  | [] => if args.length < 16 then .ok args else .error .outOfBounds
  | arg :: rest => if args.length < 16 then fillArgs (args ++ [arg]) rest else .error .outOfBounds

def outFile (config : ConfigFile) (mod : ModuleSection) : String :=
  config.modulesLogOut ++ mod.moduleName ++ "-out.log"

def errFile (config : ConfigFile) (mod : ModuleSection) : String :=
  config.modulesLogErr ++ mod.moduleName ++ "-err.log"

/-- The group is the user's own, whatever the configured one is. -/
def switchUser (env : ChildEnv) (mod : ModuleSection) : List Syscall :=
  if env.root ∧ mod.moduleUser ≠ "" ∧ mod.moduleGroup ≠ "" then
    match env.getpwnam mod.moduleUser with
    | some (uid, gid) => [.seteuid uid, .setegid gid]
    | none => []
  else []

def child (env : ChildEnv) (config : ConfigFile) (mod : ModuleSection) :
    Except Fault (List Syscall) :=
  if env.chdir mod.moduleWorkpath then do
    let out ← sprintfTo 256 (outFile config mod)
    let err ← sprintfTo 256 (errFile config mod)
    let args ← fillArgs [mod.modulePath] (strtok ' ' mod.moduleArgs)
    return [.chdir mod.moduleWorkpath, .freopen devnull .stdin,
      .freopen (if mod.logOut then out else devnull) .stdout,
      .freopen (if mod.logErr then err else devnull) .stderr] ++ switchUser env mod ++
        .execv mod.modulePath args :: if env.execv then [] else [.exit]
  else .ok [.chdir mod.moduleWorkpath, .exit]

def LogsFit (config : ConfigFile) (mod : ModuleSection) : Prop :=
  (outFile config mod).length < 256 ∧ (errFile config mod).length < 256

def serverSocket (ini : Ini) : String :=
  fitted 256 ("ipc://" ++ ini.gets "server" "s_path" "./" ++ ini.gets "server" "name" "" ++
    ".socket")

def argWords (ini : Ini) (module : String) : List String :=
  strtok ' ' (serverSocket ini) ++ strtok ' ' (ini.gets module "args" "")

def ReadAfterServer (ini : Ini) (key : String) (mod : ModuleSection) : Prop :=
  ∃ config owner, config.socket = serverSocket ini ∧ mod = moduleFields ini config key owner

section

variable {env : ChildEnv} {ini : Ini} {config after : ConfigFile} {mod : ModuleSection}
  {key : String} {calls : List Syscall}

theorem fillArgs_ok {args words out : List String} (room : args.length ≤ 16) :
    fillArgs args words = .ok out ↔ args.length + words.length < 16 ∧ out = args ++ words := by
  induction words generalizing args with
  | nil =>
      unfold fillArgs
      split
      · rename_i fits
        simp [fits, eq_comm]
      · rename_i full
        simp [full]
  | cons arg rest ih =>
      rw [fillArgs]
      split
      · rename_i fits
        have shorter : (args ++ [arg]).length ≤ 16 := by
          rw [List.length_append, List.length_singleton]
          omega
        rw [ih shorter, List.length_append, List.length_singleton, List.length_cons,
          List.append_assoc, List.singleton_append, Nat.add_right_comm, Nat.add_assoc]
      · rename_i full
        simp only [reduceCtorEq, List.length_cons, false_iff, not_and]
        omega

theorem strtokFrom_append {separator : Char} (token cs rest : List Char) :
    strtokFrom separator token (cs ++ separator :: rest) =
      strtokFrom separator token cs ++ strtokFrom separator [] rest := by
  induction cs generalizing token with
  | nil => simp [strtokFrom]
  | cons c cs ih =>
      rw [List.cons_append, strtokFrom, strtokFrom, ih, ih]
      split
      · rw [List.append_assoc]
      · rfl

theorem moduleArgs_words {owner : String × String} (server : config.socket = serverSocket ini)
    (short : (serverSocket ini ++ " " ++ ini.gets key "args" "").length < 256) :
    strtok ' ' (moduleFields ini config key owner).moduleArgs = argWords ini key := by
  have whole : (moduleFields ini config key owner).moduleArgs =
      serverSocket ini ++ " " ++ ini.gets key "args" "" := by
    rw [← server] at short ⊢
    exact (fitted_eq _ (by omega)).mpr short
  have chars : (serverSocket ini ++ " " ++ ini.gets key "args" "").toList =
      (serverSocket ini).toList ++ ' ' :: (ini.gets key "args" "").toList := by
    simp
  rw [whole, strtok, chars, strtokFrom_append]
  rfl

/-! What `config_new` leaves behind. -/

theorem moduleSection_ok (read : moduleSection ini config key = .ok (some mod)) :
    ∃ owner, mod = moduleFields ini config key owner := by
  unfold moduleSection at read
  split at read
  · exact absurd (Except.ok.inj read) (by simp)
  · split at read
    · cases read
    · rename_i owner _
      exact ⟨owner, (Option.some.inj (Except.ok.inj read)).symm⟩

theorem readModules_entries {names : List String} {modules table : ZHash ModuleSection}
    (server : config.socket = serverSocket ini)
    (good : ∀ key mod, modules.lookup key = some mod → ReadAfterServer ini key mod)
    (run : readModules ini config names modules = .ok table) :
    ∀ key mod, table.lookup key = some mod → ReadAfterServer ini key mod := by
  induction names generalizing modules with
  | nil =>
      cases run
      exact good
  | cons name names ih =>
      simp only [readModules] at run
      split at run
      · cases run
        exact good
      · split at run
        · cases run
        · exact ih good run
        · rename_i entry read
          refine ih (fun key mod found => ?_) run
          rw [ZHash.lookup_insertNew] at found
          split at found
          · rename_i new
            cases found
            obtain ⟨owner, same⟩ := moduleSection_ok read
            rw [new.1]
            exact ⟨config, owner, server, same⟩
          · exact good key mod found

theorem no_entries (key : String) (mod : ModuleSection)
    (found : (∅ : ZHash ModuleSection).lookup key = some mod) : ReadAfterServer ini key mod := by
  rw [AList.lookup_empty] at found
  cases found

theorem serverFields_socket (owner : String × String) :
    (serverFields ini owner config).socket = serverSocket ini := rfl

theorem serverFields_modules (owner : String × String) :
    (serverFields ini owner config).modules = config.modules := by
  simp only [serverFields]

theorem readServer_split (run : readServer ini config = .ok after) :
    ∃ owner, after = serverFields ini owner config := by
  unfold readServer at run
  split at run
  · cases run
  · rename_i owner _
    exact ⟨owner, (Except.ok.inj run).symm⟩

def GoodEntries (ini : Ini) (config : ConfigFile) : Prop :=
  ∀ modules, config.modules = some modules → ∀ key mod,
    modules.lookup key = some mod → ReadAfterServer ini key mod

theorem readSections_entries {names : List String} (server : config.socket = serverSocket ini)
    (good : GoodEntries ini config) (run : readSections ini names config = .ok after) :
    GoodEntries ini after := by
  induction names generalizing config with
  | nil => exact Except.ok.inj run ▸ good
  | cons name names ih =>
      rw [readSections] at run
      by_cases ends : fitted 50 name = ""
      · rw [if_pos ends] at run
        exact Except.ok.inj run ▸ good
      · rw [if_neg ends] at run
        by_cases again : fitted 50 name = "server"
        · rw [if_pos again] at run
          cases read : readServer ini config with
          | error fault =>
              rw [read] at run
              cases run
          | ok next =>
              rw [read] at run
              obtain ⟨owner, rfl⟩ := readServer_split read
              refine ih (serverFields_socket owner) (fun modules same => ?_) run
              exact good modules ((serverFields_modules owner).symm.trans same)
        · rw [if_neg again] at run
          by_cases lists : fitted 50 name = "modules"
          · rw [if_pos lists] at run
            cases read : readModules ini config names ∅ with
            | error fault =>
                rw [read] at run
                cases run
            | ok table =>
                rw [read] at run
                have entries := readModules_entries server no_entries read
                have server' : { config with modules := some table }.socket = serverSocket ini :=
                  server
                refine ih server' (fun modules same => ?_) run
                exact Option.some.inj same ▸ entries
          · rw [if_neg lists] at run
            exact ih server good run

theorem configNew_entries {rest : List String} (first : ini.sections = "server" :: rest)
    (run : configNew ini = .ok config) : GoodEntries ini config := by
  have server : fitted 50 "server" = "server" := (fitted_eq "server" (by omega)).mpr (by decide)
  rw [configNew, first, readSections, server, if_neg (by decide), if_pos rfl] at run
  cases read : readServer ini {} with
  | error fault =>
      rw [read] at run
      cases run
  | ok next =>
      rw [read] at run
      obtain ⟨owner, rfl⟩ := readServer_split read
      refine readSections_entries (serverFields_socket owner) (fun modules none' => ?_) run
      rw [serverFields_modules] at none'
      cases none'

theorem child_ok (entered : env.chdir mod.moduleWorkpath = true) :
    child env config mod = .ok calls ↔
      LogsFit config mod ∧ (strtok ' ' mod.moduleArgs).length ≤ 14 ∧
        calls = [.chdir mod.moduleWorkpath, .freopen devnull .stdin,
          .freopen (if mod.logOut then outFile config mod else devnull) .stdout,
          .freopen (if mod.logErr then errFile config mod else devnull) .stderr] ++
            switchUser env mod ++
            .execv mod.modulePath (mod.modulePath :: strtok ' ' mod.moduleArgs) ::
              if env.execv then [] else [.exit] := by
  have one : [mod.modulePath].length = 1 := rfl
  rw [child, if_pos entered]
  constructor
  · intro run
    obtain ⟨out, outFits, run⟩ := bind_ok.mp run
    obtain ⟨err, errFits, run⟩ := bind_ok.mp run
    obtain ⟨args, filled, run⟩ := bind_ok.mp run
    obtain ⟨outShort, rfl⟩ := sprintfTo_ok.mp outFits
    obtain ⟨errShort, rfl⟩ := sprintfTo_ok.mp errFits
    obtain ⟨few, rfl⟩ := (fillArgs_ok (by omega)).mp filled
    exact ⟨⟨outShort, errShort⟩, by omega, (Except.ok.inj run).symm⟩
  · rintro ⟨⟨outShort, errShort⟩, few, rfl⟩
    rw [sprintfTo_ok.mpr ⟨outShort, rfl⟩, sprintfTo_ok.mpr ⟨errShort, rfl⟩,
      (fillArgs_ok (by omega)).mpr ⟨by omega, rfl⟩]
    rfl

theorem argWords_socket (plain : ' ' ∉ (serverSocket ini).toList) :
    argWords ini key = serverSocket ini :: strtok ' ' (ini.gets key "args" "") := by
  have starts : (serverSocket ini).toList ≠ [] := by
    intro empty
    have none' : serverSocket ini = "" := by rw [← String.toList_inj, empty]; rfl
    have whole := (fitted_empty _ (by omega)).mp none'
    have lengths := congrArg String.length whole
    simp only [String.length_append] at lengths
    have scheme : "ipc://".length = 6 := rfl
    have empty' : "".length = 0 := rfl
    omega
  have one : strtok ' ' (serverSocket ini) = [serverSocket ini] := by
    rw [strtok, strtokFrom_last plain]
    simp [starts]
  rw [argWords, one]
  rfl

/-- The child of a configured module runs its executable with the socket as first
argument and the words of its `args` behind it, unless they are too many for the
array or the name of a log is too long for its buffer. -/
theorem child_execs {rest : List String} {modules : ZHash ModuleSection}
    (first : ini.sections = "server" :: rest) (run : configNew ini = .ok config)
    (listed : config.modules = some modules) (found : modules.lookup key = some mod)
    (short : (serverSocket ini ++ " " ++ ini.gets key "args" "").length < 256)
    (entered : env.chdir mod.moduleWorkpath = true) :
    ((∃ calls, child env config mod = .ok calls) ↔
      LogsFit config mod ∧ (argWords ini key).length ≤ 14) ∧
    (∀ calls, child env config mod = .ok calls → ∃ before after,
      calls = before ++ switchUser env mod ++
        .execv mod.modulePath (mod.modulePath :: argWords ini key) :: after ∧
      ∀ path args, .execv path args ∉ before ++ after) ∧
    (' ' ∉ (serverSocket ini).toList →
      argWords ini key = serverSocket ini :: strtok ' ' (ini.gets key "args" "")) := by
  obtain ⟨read, owner, server, entry⟩ := configNew_entries first run modules listed key mod found
  have words : strtok ' ' mod.moduleArgs = argWords ini key := by
    rw [entry]
    exact moduleArgs_words server short
  refine ⟨⟨?_, ?_⟩, ?_, argWords_socket⟩
  · rintro ⟨calls, ran⟩
    obtain ⟨fit, few, _⟩ := (child_ok entered).mp ran
    exact ⟨fit, words ▸ few⟩
  · rintro ⟨fit, few⟩
    exact ⟨_, (child_ok entered).mpr ⟨fit, words ▸ few, rfl⟩⟩
  · intro calls ran
    obtain ⟨_, _, same⟩ := (child_ok entered).mp ran
    rw [words] at same
    refine ⟨_, _, same, ?_⟩
    intro path args member
    split at member <;> simp at member

end

def webIni : Ini where
  sections := ["server", "modules", "web"]
  value? section' key := List.lookup (section', key)
    [(("server", "name"), "bus"), (("web", "exec"), "web"), (("web", "args"), ":9000 fast")]

def webChild : ChildEnv where
  chdir _ := true
  execv := true
  root := false
  getpwnam _ := none

def webConfig : ConfigFile := (configNew webIni).toOption.getD {}

def webModule : ModuleSection :=
  moduleFields webIni (serverFields webIni ("", "") {}) "web" ("", "")

theorem child_execs_web : ∃ calls, child webChild webConfig webModule = .ok calls ∧
    .execv "./web" ["./web", "ipc://./bus.socket", ":9000", "fast"] ∈ calls := by
  have run : configNew webIni = .ok webConfig := rfl
  have listed : webConfig.modules = some (webConfig.modules.getD ∅) := rfl
  have found : (webConfig.modules.getD ∅).lookup "web" = some webModule := rfl
  have short : (serverSocket webIni ++ " " ++ webIni.gets "web" "args" "").length < 256 := by decide
  have enters : webChild.chdir webModule.moduleWorkpath = true := rfl
  obtain ⟨runs, execs, _⟩ := child_execs rfl run listed found short enters
  have words : argWords webIni "web" = ["ipc://./bus.socket", ":9000", "fast"] := by decide
  have fit : LogsFit webConfig webModule := by
    unfold LogsFit
    decide
  obtain ⟨calls, ran⟩ := runs.mpr ⟨fit, by rw [words]; decide⟩
  obtain ⟨before, after, same, _⟩ := execs calls ran
  refine ⟨calls, ran, ?_⟩
  have path : webModule.modulePath = "./web" := by decide
  rw [same, words, path]
  simp

end ModBus
