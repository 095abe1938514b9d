import ModBus.ConfigFile

/-! What of a file the configuration is true to. -/

namespace ModBus

open Libc Czmq

/-! Numbers. -/

def digits? (cs : List Char) : Option Int :=
  if cs ≠ [] ∧ cs.all Char.isDigit then some (leadingDigits cs) else none

def decimalInteger? (text : String) : Option Int :=
  match text.toList with
  | '-' :: cs => (digits? cs).map fun n => -n
  | '+' :: cs => digits? cs
  | cs => digits? cs

theorem digits?_some {cs : List Char} {n : Int} (digits : digits? cs = some n) :
    cs ≠ [] ∧ (∀ c ∈ cs, c.isDigit = true) ∧ n = Nat.ofDigitChars 10 cs 0 := by
  unfold digits? at digits
  split at digits
  · rename_i all
    have each : ∀ c ∈ cs, c.isDigit = true := List.all_eq_true.mp all.2
    have whole : cs.takeWhile Char.isDigit = cs := List.takeWhile_eq_self_iff.mpr each
    cases digits
    exact ⟨all.1, each, by rw [leadingDigits, whole]⟩
  · cases digits

theorem digit_value {c : Char} (digit : c.isDigit = true) : 48 ≤ c.toNat ∧ c.toNat ≤ 57 := by
  simp only [Char.isDigit, Bool.and_eq_true, decide_eq_true_eq, ge_iff_le, UInt32.le_iff_toNat_le]
    at digit
  exact digit

theorem digit_visible {c : Char} (digit : c.isDigit = true) :
    isSpace c = false ∧ c ≠ '-' ∧ c ≠ '+' := by
  refine ⟨?_, ?_, ?_⟩
  · by_contra space
    simp only [Bool.not_eq_false, isSpace, Bool.or_eq_true, decide_eq_true_eq] at space
    rcases space with ((((space | space) | space) | space) | space) | space <;>
      subst space <;> simp at digit
  · rintro rfl
    simp at digit
  · rintro rfl
    simp at digit

theorem strtol_char (c : Char) :
    strtol (String.ofList [c]) = if c.isDigit then ((c.toNat - 48 : Nat) : Int) else 0 := by
  by_cases digit : c.isDigit = true
  · obtain ⟨visible, minus, plus⟩ := digit_visible digit
    have bounds := digit_value digit
    have value : leadingDigits [c] = ((c.toNat - 48 : Nat) : Int) := by
      simp [leadingDigits, digit, Nat.ofDigitChars_cons]
    have read : strtol (String.ofList [c]) = min longMax (leadingDigits [c]) := by
      simp [strtol, visible, minus, plus]
    rw [read, value, if_pos digit, longMax]
    omega
  · have nothing : leadingDigits [c] = 0 := by simp [leadingDigits, digit]
    have zero : min longMax 0 = 0 := rfl
    rw [if_neg digit]
    by_cases space : isSpace c = true
    · simp [strtol, space, leadingDigits, zero]
    · by_cases minus : c = '-'
      · subst minus
        rfl
      · by_cases plus : c = '+'
        · subst plus
          rfl
        · simp [strtol, space, minus, plus, nothing, zero]

theorem atoi_char (c : Char) :
    (atoi (String.ofList [c])).toInt = if c.isDigit then ((c.toNat - 48 : Nat) : Int) else 0 := by
  rw [atoi, strtol_char]
  split
  · rename_i digit
    have bounds := digit_value digit
    apply Int32.toInt_ofInt_of_le
    · omega
    · omega
  · rfl

/-- More digits leave the first one's value only where all of them are zero. -/
theorem digits_first {c : Char} {cs : List Char} (digit : c.isDigit = true) (more : cs ≠ []) :
    Nat.ofDigitChars 10 (c :: cs) 0 = c.toNat - 48 ↔ Nat.ofDigitChars 10 (c :: cs) 0 = 0 := by
  have bounds := digit_value digit
  have first : Nat.ofDigitChars 10 (c :: cs) 0 =
      10 ^ cs.length * (c.toNat - 48) + Nat.ofDigitChars 10 cs 0 := by
    rw [Nat.ofDigitChars_cons, Nat.ofDigitChars_eq_ofDigitChars_zero]
    simp
  have wide : 10 ≤ 10 ^ cs.length :=
    Nat.le_self_pow (fun empty => more (List.length_eq_zero_iff.mp empty)) 10
  have grows : 10 * (c.toNat - 48) ≤ 10 ^ cs.length * (c.toNat - 48) := Nat.mul_le_mul_right _ wide
  rw [first]
  constructor
  · intro same
    have none' : c.toNat - 48 = 0 := by omega
    rw [none', Nat.mul_zero] at same ⊢
    omega
  · intro zero
    omega

/-- Of a sign and digits only the sign is read, which is no number. -/
theorem first_sign {c : Char} {cs : List Char} (sign : c.isDigit = false) (more : cs ≠ []) (n : Int) :
    (atoi (String.ofList [c])).toInt = n ↔ (c :: cs).length = 1 ∨ n = 0 := by
  have long : (c :: cs).length ≠ 1 := by
    intro one
    exact more (List.length_eq_zero_iff.mp (Nat.succ.inj one))
  rw [atoi_char, sign]
  simp only [Bool.false_eq_true, if_false, long, false_or]
  exact eq_comm

theorem first_character {text : String} {n : Int} (integer : decimalInteger? text = some n) :
    (atoi (fitted 2 text)).toInt = n ↔ text.length = 1 ∨ n = 0 := by
  rw [fitted, ← String.length_toList]
  unfold decimalInteger? at integer
  split at integer
  · rename_i cs chars
    obtain ⟨m, digits, _⟩ := Option.map_eq_some_iff.mp integer
    rw [chars]
    exact first_sign rfl (digits?_some digits).1 n
  · rename_i cs chars
    rw [chars]
    exact first_sign rfl (digits?_some integer).1 n
  · obtain ⟨nonempty, digits, rfl⟩ := digits?_some integer
    cases chars : text.toList with
    | nil => exact absurd chars nonempty
    | cons c cs =>
        rw [chars] at digits
        have digit := digits c List.mem_cons_self
        rw [List.take_succ_cons, List.take_zero, atoi_char, if_pos digit]
        cases cs with
        | nil =>
            have single : Nat.ofDigitChars 10 [c] 0 = c.toNat - 48 := by
              simp [Nat.ofDigitChars_cons]
            rw [single]
            simp
        | cons next cs =>
            have first := digits_first digit (List.cons_ne_nil next cs)
            rw [Nat.cast_inj, eq_comm, first]
            simp

/-! Owners. -/

theorem ownerParts_ok (owner : String) :
    (∃ parts, ownerParts owner = .ok parts) ↔ owner = "" ∨ 2 ≤ (strtok ':' owner).length := by
  unfold ownerParts
  by_cases empty : owner = ""
  · simp [empty]
  · rw [if_neg empty]
    simp only [empty, false_or]
    cases strtok ':' owner with
    | nil => simp
    | cons user rest =>
        cases rest with
        | nil => simp
        | cons group rest => simp

theorem strtok_two {user group : String} (plainUser : ':' ∉ user.toList)
    (plainGroup : ':' ∉ group.toList) :
    strtok ':' (user ++ ":" ++ group) =
      (if user = "" then [] else [user]) ++ (if group = "" then [] else [group]) := by
  have chars : (user ++ ":" ++ group).toList = user.toList ++ ':' :: group.toList := by simp
  have whole : ∀ text : String, (if ([].reverse ++ text.toList).isEmpty = true then []
      else [String.ofList ([].reverse ++ text.toList)]) = if text = "" then [] else [text] := by
    intro text
    have empty : ([].reverse ++ text.toList).isEmpty = true ↔ text = "" := by
      rw [List.isEmpty_iff, ← String.toList_inj]
      simp
    by_cases none' : text = ""
    · rw [if_pos (empty.mpr none'), if_pos none']
    · rw [if_neg (fun long => none' (empty.mp long)), if_neg none']
      simp
  rw [strtok, chars, strtokFrom_word plainUser, strtokFrom_last plainGroup, whole, whole]

theorem ownerParts_two {user group : String} {parts : String × String}
    (plainUser : ':' ∉ user.toList) (plainGroup : ':' ∉ group.toList)
    (split' : ownerParts (user ++ ":" ++ group) = .ok parts) :
    parts.1 = user ∧ parts.2 = group ↔ user.length < 8 ∧ group.length < 8 := by
  have nonempty : user ++ ":" ++ group ≠ "" := by
    intro empty
    have chars := congrArg String.toList empty
    simp at chars
  unfold ownerParts at split'
  rw [if_neg nonempty, strtok_two plainUser plainGroup] at split'
  by_cases noUser : user = ""
  · by_cases noGroup : group = "" <;> simp [noUser, noGroup] at split'
  · by_cases noGroup : group = ""
    · simp [noUser, noGroup] at split'
    · simp only [noUser, noGroup, if_false, List.singleton_append] at split'
      cases split'
      rw [fitted_eq user (by omega), fitted_eq group (by omega)]

/-! The entries for the module sections. -/

section

variable {ini : Ini} {config : ConfigFile} {name : String}

def modPath (ini : Ini) : String := (ini.value? "server" "mod_path").getD "./"

def ShortValues (ini : Ini) : Prop :=
  ∀ section' key value, ini.value? section' key = some value → value.length < 256

theorem gets_eq (short : ShortValues ini) (section' key default' : String)
    (brief : default'.length < 256) :
    ini.gets section' key default' = (ini.value? section' key).getD default' := by
  rw [Ini.gets, iniGets, fitted_eq _ (by omega)]
  cases found : ini.value? section' key with
  | none => exact brief
  | some value => exact short section' key value found

theorem moduleSection_none (absent : ini.gets name "exec" "" = "") :
    moduleSection ini config name = .ok none := by
  rw [moduleSection, if_pos absent]

theorem moduleSection_some {entry : ModuleSection}
    (read : moduleSection ini config name = .ok (some entry)) :
    ini.gets name "exec" "" ≠ "" ∧
      entry.modulePath = fitted 256 (config.modulesPath ++ ini.gets name "exec" "") ∧
      entry.moduleInstances = orKeep (iniGets ini name "instances" "1" 2) atoi 0 ∧
      ownerParts (ini.gets name "owner" "") = .ok (entry.moduleUser, entry.moduleGroup) := by
  unfold moduleSection at read
  split at read
  · cases read
  · rename_i present
    split at read
    · cases read
    · rename_i owner split'
      cases read
      exact ⟨present, rfl, rfl, split'⟩

structure Entered (ini : Ini) (name exec : String) (entry : ModuleSection) : Prop where
  path : entry.modulePath = modPath ini ++ exec
  instances : ∀ text n, ini.value? name "instances" = some text → decimalInteger? text = some n →
    entry.moduleInstances.toInt = n
  owner : ∀ user group, ':' ∉ user.toList → ':' ∉ group.toList →
    ini.value? name "owner" = some (user ++ ":" ++ group) →
    entry.moduleUser = user ∧ entry.moduleGroup = group

structure ValuesFit (ini : Ini) (name : String) : Prop where
  instances : ∀ text n, ini.value? name "instances" = some text → decimalInteger? text = some n →
    text.length = 1 ∨ n = 0
  owner : ∀ user group, ':' ∉ user.toList → ':' ∉ group.toList →
    ini.value? name "owner" = some (user ++ ":" ++ group) → user.length < 8 ∧ group.length < 8

theorem entered_iff {exec : String} {entry : ModuleSection} (short : ShortValues ini)
    (read : moduleSection ini config name = .ok (some entry))
    (executable : ini.value? name "exec" = some exec) :
    Entered ini name exec entry ↔
      fitted 256 (config.modulesPath ++ exec) = modPath ini ++ exec ∧ ValuesFit ini name := by
  obtain ⟨_, path, instances, owner⟩ := moduleSection_some read
  have execText : ini.gets name "exec" "" = exec := by
    rw [gets_eq short _ _ _ (by decide), executable, Option.getD_some]
  rw [execText] at path
  have counts : ∀ text n, ini.value? name "instances" = some text →
      decimalInteger? text = some n →
      (entry.moduleInstances.toInt = n ↔ text.length = 1 ∨ n = 0) := by
    intro text n written integer
    have nonempty : fitted 2 text ≠ "" := by
      rw [Ne, fitted_empty text (by omega)]
      rintro rfl
      cases integer
    have read' : entry.moduleInstances = atoi (fitted 2 text) := by
      rw [instances, iniGets, written, Option.getD_some, orKeep, if_neg nonempty]
    rw [read', first_character integer]
  have parts : ∀ user group, ':' ∉ user.toList → ':' ∉ group.toList →
      ini.value? name "owner" = some (user ++ ":" ++ group) →
      (entry.moduleUser = user ∧ entry.moduleGroup = group ↔
        user.length < 8 ∧ group.length < 8) := by
    intro user group plainUser plainGroup written
    rw [gets_eq short _ _ _ (by decide), written, Option.getD_some] at owner
    exact ownerParts_two plainUser plainGroup owner
  constructor
  · intro entered
    refine ⟨path ▸ entered.path, ?_, ?_⟩
    · intro text n written integer
      exact (counts text n written integer).mp (entered.instances text n written integer)
    · intro user group plainUser plainGroup written
      exact (parts user group plainUser plainGroup written).mp
        (entered.owner user group plainUser plainGroup written)
  · rintro ⟨whole, fit⟩
    refine ⟨path.trans whole, ?_, ?_⟩
    · intro text n written integer
      exact (counts text n written integer).mpr (fit.instances text n written integer)
    · intro user group plainUser plainGroup written
      exact (parts user group plainUser plainGroup written).mpr
        (fit.owner user group plainUser plainGroup written)

/-! The two loops. -/

def Named (names : List String) : Prop := ∀ name ∈ names, name ≠ "" ∧ name.length < 32

theorem Named.fitted {names : List String} (named : Named names) {name : String}
    (member : name ∈ names) : fitted 50 name = name ∧ name ≠ "" := by
  obtain ⟨nonempty, short⟩ := named name member
  exact ⟨(fitted_eq name (by omega)).mpr (by omega), nonempty⟩

theorem Named.tail {name : String} {names : List String} (named : Named (name :: names)) :
    Named names := fun other member => named other (List.mem_cons_of_mem _ member)

theorem readModules_ok {names : List String} (named : Named names) (table : ZHash ModuleSection) :
    (∃ modules, readModules ini config names table = .ok modules) ↔
      ∀ name ∈ names, ∃ entry, moduleSection ini config name = .ok entry := by
  induction names generalizing table with
  | nil => simp [readModules]
  | cons name names ih =>
      obtain ⟨whole, nonempty⟩ := named.fitted List.mem_cons_self
      rw [List.forall_mem_cons, readModules, whole, if_neg nonempty]
      cases moduleSection ini config name with
      | error fault => simp
      | ok entry =>
          cases entry with
          | none => simp [ih named.tail]
          | some entry => simp [ih named.tail]

/-- Each section's entry is the one under its name, where the table had none. -/
theorem readModules_lookup {names : List String} {table modules : ZHash ModuleSection}
    (named : Named names) (distinct : names.Nodup) (fresh : ∀ name ∈ names, name ∉ table)
    (read : readModules ini config names table = .ok modules) :
    (∀ name ∈ names, moduleSection ini config name = .ok (modules.lookup name)) ∧
      ∀ key, key ∉ names → modules.lookup key = table.lookup key := by
  induction names generalizing table with
  | nil =>
      cases read
      exact ⟨fun _ member => absurd member List.not_mem_nil, fun _ _ => rfl⟩
  | cons name names ih =>
      obtain ⟨whole, nonempty⟩ := named.fitted List.mem_cons_self
      obtain ⟨alone, rest⟩ := List.nodup_cons.mp distinct
      have absent := fresh name List.mem_cons_self
      have later : ∀ other ∈ names, other ∉ table := fun other member =>
        fresh other (List.mem_cons_of_mem _ member)
      rw [readModules, whole, if_neg nonempty] at read
      split at read
      · cases read
      · rename_i none'
        obtain ⟨entries, kept⟩ := ih named.tail rest later read
        refine ⟨?_, fun key outside => kept key fun member => outside (List.mem_cons_of_mem _ member)⟩
        intro other member
        rcases List.mem_cons.mp member with rfl | member
        · rw [kept other alone, none', AList.lookup_eq_none.mpr absent]
        · exact entries other member
      · rename_i entry found
        have unused : ∀ other ∈ names, other ∉ (ZHash.insertNew table name entry).2 := by
          intro other member
          rw [ZHash.mem_insertNew, not_or]
          refine ⟨?_, later other member⟩
          rintro rfl
          exact alone member
        obtain ⟨entries, kept⟩ := ih named.tail rest unused read
        constructor
        · intro other member
          rcases List.mem_cons.mp member with rfl | member
          · rw [kept other alone, found, ZHash.lookup_insertNew, if_pos ⟨rfl, absent⟩]
          · exact entries other member
        · intro key outside
          rw [List.mem_cons, not_or] at outside
          rw [kept key outside.2, ZHash.lookup_insertNew, if_neg fun same => outside.1 same.1]

theorem readServer_ok (ini : Ini) (config : ConfigFile) :
    (∃ after, readServer ini config = .ok after) ↔
      ∃ parts, ownerParts (ini.gets "server" "s_owner" "") = .ok parts := by
  unfold readServer
  cases ownerParts (ini.gets "server" "s_owner" "") with
  | error fault => simp
  | ok parts => simp

theorem readServer_fields {after : ConfigFile} (read : readServer ini config = .ok after) :
    after.modulesPath = fitted 256 (ini.gets "server" "mod_path" "./") ∧
      after.modules = config.modules := by
  unfold readServer at read
  split at read
  · cases read
  · rename_i owner _
    have fields : serverFields ini owner config = after := Except.ok.inj read
    rw [← fields]
    simp only [serverFields, and_self]

/-- Past the `modules` section the outer loop only looks for the server's. -/
theorem readSections_rest {names : List String} (named : Named names) (distinct : names.Nodup)
    (past : "modules" ∉ names) (config : ConfigFile) :
    readSections ini names config =
      if "server" ∈ names then readServer ini config else .ok config := by
  induction names generalizing config with
  | nil => rfl
  | cons name names ih =>
      obtain ⟨whole, nonempty⟩ := named.fitted List.mem_cons_self
      obtain ⟨alone, rest⟩ := List.nodup_cons.mp distinct
      rw [List.mem_cons, not_or] at past
      have later := ih named.tail rest past.2
      rw [readSections, whole, if_neg nonempty]
      by_cases server : name = "server"
      · subst server
        rw [if_pos rfl, if_pos List.mem_cons_self]
        cases readServer ini config with
        | error fault => rfl
        | ok after =>
            simp only [later, if_neg alone]
      · rw [if_neg server, if_neg (Ne.symm past.1), later]
        have same : "server" ∈ name :: names ↔ "server" ∈ names := by
          rw [List.mem_cons]
          exact or_iff_right (Ne.symm server)
        simp only [same]

/-! The table. -/

structure TrueTo (ini : Ini) (mods : List String) (modules : ZHash ModuleSection) : Prop where
  keys : ∀ name, name ∈ modules ↔ name ∈ mods ∧ ∃ exec, ini.value? name "exec" = some exec
  entries : ∀ name exec entry, ini.value? name "exec" = some exec →
    modules.lookup name = some entry → Entered ini name exec entry

def OwnerSplits (owner : Option String) : Prop :=
  owner.getD "" = "" ∨ 2 ≤ (strtok ':' (owner.getD "")).length

structure SectionFits (ini : Ini) (modulesPath name exec : String) : Prop where
  nonempty : exec ≠ ""
  splits : OwnerSplits (ini.value? name "owner")
  path : fitted 256 (modulesPath ++ exec) = modPath ini ++ exec
  values : ValuesFit ini name

theorem ownerSplits_iff (short : ShortValues ini) (section' key : String) :
    (∃ parts, ownerParts (ini.gets section' key "") = .ok parts) ↔
      OwnerSplits (ini.value? section' key) := by
  rw [gets_eq short _ _ _ (by decide)]
  exact ownerParts_ok _

theorem moduleSection_entry (short : ShortValues ini) {exec : String}
    (executable : ini.value? name "exec" = some exec) :
    (∃ entry, moduleSection ini config name = .ok (some entry) ∧ Entered ini name exec entry) ↔
      SectionFits ini config.modulesPath name exec := by
  have execText : ini.gets name "exec" "" = exec := by
    rw [gets_eq short _ _ _ (by decide), executable, Option.getD_some]
  have splits := ownerSplits_iff short name "owner"
  constructor
  · rintro ⟨entry, read, entered⟩
    obtain ⟨present, _, _, owner⟩ := moduleSection_some read
    obtain ⟨path, values⟩ := (entered_iff short read executable).mp entered
    exact ⟨execText ▸ present, splits.mp ⟨_, owner⟩, path, values⟩
  · rintro ⟨nonempty, owner, path, values⟩
    obtain ⟨parts, split'⟩ := splits.mpr owner
    have read : moduleSection ini config name = .ok (some (moduleFields ini config name parts)) := by
      rw [moduleSection, execText, if_neg nonempty, split']
    exact ⟨_, read, (entered_iff short read executable).mpr ⟨path, values⟩⟩

theorem execKey_present (short : ShortValues ini) (present : ini.gets name "exec" "" ≠ "") :
    ∃ exec, ini.value? name "exec" = some exec := by
  rw [gets_eq short _ _ _ (by decide)] at present
  cases executable : ini.value? name "exec" with
  | none =>
      rw [executable] at present
      exact absurd rfl present
  | some exec => exact ⟨exec, rfl⟩

theorem moduleSection_isSome {entry : Option ModuleSection}
    (read : moduleSection ini config name = .ok entry) :
    entry.isSome ↔ ini.gets name "exec" "" ≠ "" := by
  by_cases absent : ini.gets name "exec" "" = ""
  · rw [moduleSection_none absent] at read
    cases read
    simp [absent]
  · rw [moduleSection, if_neg absent] at read
    split at read
    · cases read
    · cases read
      simp [absent]

section

variable {names mods : List String} {modules : ZHash ModuleSection}

theorem mem_modules (named : Named names) (distinct : names.Nodup)
    (read : readModules ini config names ∅ = .ok modules) :
    name ∈ modules ↔ name ∈ names ∧ ini.gets name "exec" "" ≠ "" := by
  obtain ⟨entries, kept⟩ := readModules_lookup named distinct (fun _ _ => AList.notMem_empty _) read
  rw [← AList.lookup_isSome]
  by_cases member : name ∈ names
  · rw [moduleSection_isSome (entries name member)]
    exact (and_iff_right member).symm
  · rw [kept name member, AList.lookup_empty]
    simp [member]

/-- No section stops the inner loop if the modules' sections fit and the others
name no executable. -/
theorem readModules_fits (short : ShortValues ini) (named : Named names)
    (others : ∀ name ∈ names, name ∉ mods → ini.gets name "exec" "" = "")
    (fits : ∀ name ∈ mods, ∀ exec, ini.value? name "exec" = some exec →
      SectionFits ini config.modulesPath name exec) :
    ∃ modules, readModules ini config names ∅ = .ok modules := by
  refine (readModules_ok named ∅).mpr fun name member => ?_
  by_cases absent : ini.gets name "exec" "" = ""
  · exact ⟨none, moduleSection_none absent⟩
  · have module : name ∈ mods := by_contra fun other => absent (others name member other)
    obtain ⟨exec, executable⟩ := execKey_present short absent
    obtain ⟨entry, read, _⟩ :=
      (moduleSection_entry short executable).mpr (fits name module exec executable)
    exact ⟨some entry, read⟩

/-- The inner loop makes a true table just when the sections it reads allow that,
and those that are no modules have no executable. -/
theorem table_true (config : ConfigFile) (short : ShortValues ini) (named : Named names)
    (distinct : names.Nodup) (among : ∀ name ∈ mods, name ∈ names) :
    (∃ modules, readModules ini config names ∅ = .ok modules ∧ TrueTo ini mods modules) ↔
      (∀ name ∈ names, name ∉ mods → ini.gets name "exec" "" = "") ∧
        ∀ name ∈ mods, ∀ exec, ini.value? name "exec" = some exec →
          SectionFits ini config.modulesPath name exec := by
  have fresh : ∀ name ∈ names, name ∉ (∅ : ZHash ModuleSection) := fun _ _ => AList.notMem_empty _
  constructor
  · rintro ⟨modules, read, keys, entries⟩
    have read' := (readModules_lookup named distinct fresh read).1
    constructor
    · intro name member other
      by_contra present
      exact other ((keys name).mp ((mem_modules named distinct read).mpr ⟨member, present⟩)).1
    · intro name member exec executable
      have inside := (keys name).mpr ⟨member, exec, executable⟩
      obtain ⟨entry, held⟩ := Option.isSome_iff_exists.mp (AList.lookup_isSome.mpr inside)
      refine (moduleSection_entry short executable).mp ⟨entry, ?_, entries _ _ _ executable held⟩
      rw [read' name (among name member), held]
  · rintro ⟨others, fits⟩
    obtain ⟨modules, read⟩ := readModules_fits short named others fits
    have read' := (readModules_lookup named distinct fresh read).1
    have module : ∀ name, name ∈ modules → name ∈ names ∧ name ∈ mods := by
      intro name inside
      obtain ⟨member, present⟩ := (mem_modules named distinct read).mp inside
      exact ⟨member, by_contra fun other => present (others name member other)⟩
    refine ⟨modules, read, fun name => ⟨fun inside => ?_, ?_⟩, ?_⟩
    · have present := ((mem_modules named distinct read).mp inside).2
      exact ⟨(module name inside).2, execKey_present short present⟩
    · rintro ⟨member, exec, executable⟩
      have nonempty := (fits name member exec executable).nonempty
      refine (mem_modules named distinct read).mpr ⟨among name member, ?_⟩
      rw [gets_eq short _ _ _ (by decide), executable]
      exact nonempty
    · intro name exec entry executable held
      obtain ⟨member, member'⟩ := module name (AList.lookup_isSome.mp (held ▸ rfl))
      obtain ⟨entry', found, entered⟩ :=
        (moduleSection_entry short executable).mpr (fits name member' exec executable)
      rw [read' name member, held] at found
      cases found
      exact entered

end

end

/-! The whole file. -/

section

variable {ini : Ini} {config : ConfigFile} {name : String}

inductive Order (mods : List String) : List String → Bool → Prop
  | serverFirst : Order mods ("server" :: "modules" :: mods) true
  | modulesFirst (before after : List String) : mods = before ++ after →
      Order mods ("modules" :: (before ++ "server" :: after)) false

structure Layout (ini : Ini) (mods : List String) (first : Bool) : Prop where
  order : Order mods ini.sections first
  named : Named mods
  distinct : mods.Nodup
  others : "server" ∉ mods ∧ "modules" ∉ mods
  short : ShortValues ini

def ReadFaithfully (ini : Ini) (mods : List String) : Prop :=
  ∃ config modules, configNew ini = .ok config ∧ config.modules = some modules ∧
    TrueTo ini mods modules

structure ReadsWell (ini : Ini) (mods : List String) (first : Bool) : Prop where
  server : OwnerSplits (ini.value? "server" "s_owner")
  -- The inner loop takes a later server section for a module.
  alone : first = false → (ini.value? "server" "exec").getD "" = ""
  modules : ∀ name ∈ mods, ∀ exec, ini.value? name "exec" = some exec →
    exec ≠ "" ∧ OwnerSplits (ini.value? name "owner") ∧ ValuesFit ini name ∧
      if first then (modPath ini ++ exec).length < 256 else modPath ini = ""

variable {mods : List String}

theorem modPath_gets (short : ShortValues ini) :
    fitted 256 (ini.gets "server" "mod_path" "./") = modPath ini := by
  have brief : ("./" : String).length < 256 := by decide
  rw [gets_eq short _ _ _ brief]
  refine (fitted_eq _ (by omega)).mpr ?_
  cases found : ini.value? "server" "mod_path" with
  | none => exact brief
  | some value => exact short _ _ value found

theorem configNew_serverFirst (named : Named mods) (distinct : mods.Nodup)
    (noServer : "server" ∉ mods) (noModules : "modules" ∉ mods)
    (sections : ini.sections = "server" :: "modules" :: mods) (config' : ConfigFile) :
    configNew ini = .ok config' ↔
      ∃ config modules, readServer ini {} = .ok config ∧
        readModules ini config mods ∅ = .ok modules ∧
          { config with modules := some modules } = config' := by
  have server : fitted 50 "server" = "server" := by decide
  have modules' : fitted 50 "modules" = "modules" := by decide
  rw [configNew, sections, readSections, server, if_neg (by decide), if_pos rfl]
  cases readServer ini {} with
  | error fault => simp
  | ok config =>
      simp only [readSections, modules']
      rw [if_neg (by decide), if_neg (by decide), if_pos trivial]
      cases loop : readModules ini config mods ∅ with
      | error fault => simp [loop]
      | ok modules =>
          simp only [readSections_rest named distinct noModules, if_neg noServer]
          simp [loop]

theorem configNew_modulesFirst {names : List String} (named : Named names)
    (distinct : names.Nodup) (server : "server" ∈ names) (noModules : "modules" ∉ names)
    (sections : ini.sections = "modules" :: names) (config' : ConfigFile) :
    configNew ini = .ok config' ↔
      ∃ modules : ZHash ModuleSection, readModules ini {} names ∅ = .ok modules ∧
        readServer ini { modules := some modules } = .ok config' := by
  have modules' : fitted 50 "modules" = "modules" := by decide
  rw [configNew, sections, readSections, modules', if_neg (by decide), if_neg (by decide),
    if_pos rfl]
  cases readModules ini {} names ∅ with
  | error fault => simp
  | ok modules =>
      simp only [readSections_rest named distinct noModules, if_pos server]
      simp

theorem faithful_serverFirst (layout : Layout ini mods true)
    (sections : ini.sections = "server" :: "modules" :: mods) :
    ReadFaithfully ini mods ↔ ReadsWell ini mods true := by
  obtain ⟨_, named, distinct, ⟨noServer, noModules⟩, short⟩ := layout
  have whole := configNew_serverFirst named distinct noServer noModules sections
  have path := modPath_gets short
  have splits := ownerSplits_iff short "server" "s_owner"
  have fits : ∀ exec : String, fitted 256 (modPath ini ++ exec) = modPath ini ++ exec ↔
      (modPath ini ++ exec).length < 256 := fun exec => fitted_eq _ (by omega)
  constructor
  · rintro ⟨config', table, read, held, true'⟩
    obtain ⟨config, modules, server, loop, rfl⟩ := (whole config').mp read
    cases held
    have same := (readServer_fields server).1.trans path
    obtain ⟨_, sections'⟩ := (table_true config short named distinct fun _ inside => inside).mp
      ⟨table, loop, true'⟩
    refine ⟨splits.mp ((readServer_ok ini {}).mp ⟨config, server⟩), ?_, ?_⟩
    · intro later
      cases later
    · intro name member exec executable
      obtain ⟨nonempty, owner, cut, values⟩ := sections' name member exec executable
      rw [same] at cut
      exact ⟨nonempty, owner, values, (fits exec).mp cut⟩
  · rintro ⟨owner, _, sections'⟩
    obtain ⟨config, server⟩ := (readServer_ok ini {}).mpr (splits.mpr owner)
    have same := (readServer_fields server).1.trans path
    have fits' : ∀ name ∈ mods, ∀ exec, ini.value? name "exec" = some exec →
        SectionFits ini config.modulesPath name exec := by
      intro name member exec executable
      obtain ⟨nonempty, owner, values, cut⟩ := sections' name member exec executable
      exact ⟨nonempty, owner, same ▸ (fits exec).mpr cut, values⟩
    obtain ⟨modules, loop, true'⟩ := (table_true config short named distinct fun _ inside => inside).mpr
      ⟨fun name inside other => absurd inside other, fits'⟩
    exact ⟨_, modules, (whole _).mpr ⟨config, modules, server, loop, rfl⟩, rfl, true'⟩

theorem path_alone (short : ShortValues ini) {exec : String}
    (executable : ini.value? name "exec" = some exec) :
    fitted 256 (({} : ConfigFile).modulesPath ++ exec) = modPath ini ++ exec ↔ modPath ini = "" := by
  rw [String.empty_append, (fitted_eq exec (by omega)).mpr (short _ _ _ executable)]
  constructor
  · intro same
    rw [← String.toList_inj, String.toList_append] at same
    exact String.toList_inj.mp (List.self_eq_append_left.mp same)
  · intro nothing
    rw [nothing, String.empty_append]

theorem Layout.between (layout : Layout ini mods false) {before after : List String}
    (parts : mods = before ++ after) :
    (∀ name, name ∈ before ++ "server" :: after ↔ name = "server" ∨ name ∈ mods) ∧
      Named (before ++ "server" :: after) ∧ (before ++ "server" :: after).Nodup ∧
        "modules" ∉ before ++ "server" :: after := by
  obtain ⟨_, named, distinct, ⟨noServer, noModules⟩, _⟩ := layout
  have member : ∀ name, name ∈ before ++ "server" :: after ↔ name = "server" ∨ name ∈ mods := by
    intro name
    rw [parts, List.mem_append, List.mem_cons, List.mem_append]
    exact or_left_comm
  refine ⟨member, ?_, ?_, ?_⟩
  · intro name inside
    rcases (member name).mp inside with rfl | inside
    · decide
    · exact named name inside
  · apply List.nodup_middle.mpr
    rw [← parts]
    exact List.nodup_cons.mpr ⟨noServer, distinct⟩
  · rw [member, not_or]
    exact ⟨by decide, noModules⟩

theorem faithful_modulesFirst (layout : Layout ini mods false) {before after : List String}
    (parts : mods = before ++ after)
    (sections : ini.sections = "modules" :: (before ++ "server" :: after)) :
    ReadFaithfully ini mods ↔ ReadsWell ini mods false := by
  obtain ⟨member, named, distinct, noModules⟩ := layout.between parts
  have noServer := layout.others.1
  have short := layout.short
  have whole := configNew_modulesFirst named distinct ((member "server").mpr (Or.inl rfl))
    noModules sections
  have table := table_true {} short named distinct
    fun name inside => (member name).mpr (Or.inr inside)
  have splits := ownerSplits_iff short "server" "s_owner"
  have serverText : ini.gets "server" "exec" "" = (ini.value? "server" "exec").getD "" :=
    gets_eq short _ _ _ (by decide)
  constructor
  · rintro ⟨config', modules, read, held, true'⟩
    obtain ⟨modules', loop, server⟩ := (whole config').mp read
    have kept := (readServer_fields server).2
    rw [held] at kept
    cases kept
    obtain ⟨others, sections'⟩ := table.mp ⟨modules, loop, true'⟩
    refine ⟨splits.mp ((readServer_ok ini _).mp ⟨config', server⟩), fun _ => ?_, ?_⟩
    · rw [← serverText]
      exact others "server" ((member _).mpr (Or.inl rfl)) noServer
    · intro name inside exec executable
      obtain ⟨nonempty, owner, cut, values⟩ := sections' name inside exec executable
      exact ⟨nonempty, owner, values, (path_alone short executable).mp cut⟩
  · rintro ⟨owner, alone, sections'⟩
    have others : ∀ name ∈ before ++ "server" :: after, name ∉ mods →
        ini.gets name "exec" "" = "" := by
      intro name inside other
      rw [(member name).mp inside |>.resolve_right other, serverText]
      exact alone rfl
    have fits : ∀ name ∈ mods, ∀ exec, ini.value? name "exec" = some exec →
        SectionFits ini ({} : ConfigFile).modulesPath name exec := by
      intro name inside exec executable
      obtain ⟨nonempty, owner, values, cut⟩ := sections' name inside exec executable
      exact ⟨nonempty, owner, (path_alone short executable).mpr cut, values⟩
    obtain ⟨modules, loop, true'⟩ := table.mpr ⟨others, fits⟩
    obtain ⟨config', server⟩ := (readServer_ok ini { modules := some modules }).mpr
      (splits.mpr owner)
    exact ⟨config', modules, (whole config').mpr ⟨modules, loop, server⟩,
      (readServer_fields server).2, true'⟩

/-- The configuration is true to a file just where no buffer is too small for a
value and no order hides one: an empty executable, an instance count of more than
one character, an owner's part of more than seven, a path of more than 255, or a
server section that comes too late to give the path. -/
theorem configNew_faithful {first : Bool} (layout : Layout ini mods first) :
    ReadFaithfully ini mods ↔ ReadsWell ini mods first := by
  obtain ⟨order, rest⟩ := id layout
  cases first with
  | true =>
      have sections : ini.sections = "server" :: "modules" :: mods := by
        cases order' : ini.sections with
        | nil => rw [order'] at order; cases order
        | cons head tail =>
            rw [order'] at order
            cases order
            rfl
      exact faithful_serverFirst layout sections
  | false =>
      obtain ⟨before, after, parts, sections⟩ :
          ∃ before after, mods = before ++ after ∧
            ini.sections = "modules" :: (before ++ "server" :: after) := by
        cases order' : ini.sections with
        | nil => rw [order'] at order; cases order
        | cons head tail =>
            rw [order'] at order
            cases order with
            | modulesFirst before after parts => exact ⟨before, after, parts, rfl⟩
      exact faithful_modulesFirst layout parts sections

def listedIni (sections : List String) (values : List ((String × String) × String)) : Ini where
  sections := sections
  value? section' key := values.lookup (section', key)

theorem listedIni_short {sections : List String} {values : List ((String × String) × String)}
    (brief : ∀ entry ∈ values, entry.2.length < 256) : ShortValues (listedIni sections values) := by
  intro section' key value found
  obtain ⟨before, after, whole, _⟩ := List.lookup_eq_some_iff.mp found
  exact brief ((section', key), value) (by simp [whole])

def oneSection (instances : String) : Ini :=
  listedIni ["server", "modules", "echo"]
    [(("server", "name"), "bus"), (("server", "mod_path"), "modules/"), (("echo", "exec"), "echo.sh"),
      (("echo", "instances"), instances), (("echo", "owner"), "www:www")]

theorem oneSection_layout {instances : String} (brief : instances.length < 256) :
    Layout (oneSection instances) ["echo"] true where
  order := .serverFirst
  named := by
    intro name member
    cases List.mem_singleton.mp member
    decide
  distinct := by decide
  others := by decide
  short := by
    refine listedIni_short fun entry member => ?_
    simp only [List.mem_cons, List.not_mem_nil, or_false] at member
    rcases member with rfl | rfl | rfl | rfl | rfl
    · decide
    · decide
    · decide
    · exact brief
    · decide

/-- The server section stands between two modules, and names no path for them. -/
def serverBetween : Ini :=
  listedIni ["modules", "echo", "server", "web"]
    [(("server", "name"), "bus"), (("server", "mod_path"), ""), (("echo", "exec"), "/bin/echo.sh"),
      (("echo", "instances"), "4"), (("web", "exec"), "/bin/web"), (("web", "owner"), "www:www")]

theorem serverBetween_layout : Layout serverBetween ["echo", "web"] false where
  order := .modulesFirst ["echo"] ["web"] rfl
  named := by
    intro name member
    simp only [List.mem_cons, List.not_mem_nil, or_false] at member
    rcases member with rfl | rfl <;> decide
  distinct := by decide
  others := by decide
  short := listedIni_short (by decide)

theorem ownerParts_short {owner : Option String} {user group whole : String}
    (written : owner = some whole) (brief : whole.length ≤ 8)
    (same : owner = some (user ++ ":" ++ group)) : user.length < 8 ∧ group.length < 8 := by
  have lengths := congrArg String.length (Option.some.inj (written.symm.trans same))
  have colon : (":" : String).length = 1 := rfl
  rw [String.length_append, String.length_append, colon] at lengths
  omega

theorem configNew_oneSection :
    ReadFaithfully (oneSection "4") ["echo"] ∧ ReadFaithfully serverBetween ["echo", "web"] := by
  constructor
  · refine (configNew_faithful (oneSection_layout (by decide))).mpr ⟨Or.inl rfl, ?_, ?_⟩
    · intro later
      cases later
    · intro name member exec executable
      cases List.mem_singleton.mp member
      cases executable
      refine ⟨by decide, Or.inr (by decide), ⟨?_, ?_⟩, by decide⟩
      · intro text n written _
        cases written
        exact Or.inl rfl
      · exact fun user group _ _ written => ownerParts_short rfl (by decide) written
  · refine (configNew_faithful serverBetween_layout).mpr ⟨Or.inl rfl, fun _ => rfl, ?_⟩
    intro name member exec executable
    simp only [List.mem_cons, List.not_mem_nil, or_false] at member
    rcases member with rfl | rfl
    · cases executable
      refine ⟨by decide, Or.inl rfl, ⟨?_, ?_⟩, rfl⟩
      · intro text n written _
        cases written
        exact Or.inl rfl
      · rintro user group _ _ ⟨⟩
    · cases executable
      refine ⟨by decide, Or.inr (by decide), ⟨?_, ?_⟩, rfl⟩
      · rintro text n ⟨⟩
      · exact fun user group _ _ written => ownerParts_short rfl (by decide) written

/-- Ten instances are read as one. -/
theorem configNew_unfaithful :
    Layout (oneSection "10") ["echo"] true ∧ ¬ ReadFaithfully (oneSection "10") ["echo"] := by
  have layout : Layout (oneSection "10") ["echo"] true := oneSection_layout (by decide)
  refine ⟨layout, fun faithful => ?_⟩
  have well := (faithful_serverFirst layout rfl).mp faithful
  obtain ⟨_, _, values, _⟩ := well.modules "echo" List.mem_cons_self "echo.sh" rfl
  rcases values.instances "10" 10 rfl (by decide) with single | zero
  · exact absurd single (by decide)
  · exact absurd zero (by decide)

end

end ModBus
