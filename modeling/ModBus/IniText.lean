import ModBus.MinIni

/-! What the text of an ini file says, whatever the sizes of the buffers: its
headers in order, and for each section and key the first value. The parser's
loops find just that, cut to the buffer, unless they end in an assertion: a name or
value far to the right of its line, for a buffer just above the line's. -/

namespace MinIni

open Libc

def SameName (first second : List Char) : Prop := first.map upcase = second.map upcase

instance (first second : List Char) : Decidable (SameName first second) :=
  inferInstanceAs (Decidable (_ = _))

def sectionLines (section' : List Char) : List (List Char) → Option (List (List Char))
  | [] => none
  | line :: file =>
      match headerName line with
      | none => sectionLines section' file
      | some name => if SameName name section' then some file else sectionLines section' file

def opensSection (line : List Char) : Bool := decide ((skipleading line).head? = some '[')

def isComment (line : List Char) : Bool :=
  decide ((skipleading line).head? = some ';' ∨ (skipleading line).head? = some '#')

def entry (line : List Char) : Option (List Char × List Char) :=
  if isComment line then none
  else (splitEntry (skipleading line)).map fun both => (striptrailing both.1, both.2)

def entries (file : List (List Char)) : List (List Char × List Char) :=
  (file.takeWhile fun line => !opensSection line).filterMap entry

/-- Neither a name nor a value of the line starts so far to the right that a buffer of
fifty bytes for the one or 256 for the other could be too near. -/
def Early (line : List Char) : Prop :=
  (headerName line ≠ none → behind line (skipleading line) + 51 ≤ iniBuffersize) ∧
  (opensSection line = false → isComment line = false →
    ∀ both ∈ splitEntry (skipleading line),
      behind line (skipleading both.2) + 257 ≤ iniBuffersize)

instance (line : List Char) : Decidable (Early line) := inferInstanceAs (Decidable (_ ∧ _))

def plainValue (text : List Char) : List Char :=
  match cleanstring (skipleading text) with
  | (string, .dequote) => unescaped string.length string
  | (string, _) => string

def headers (file : List (List Char)) : List (List Char) := file.filterMap headerName

def named (file : List (List Char)) : List (List Char) := (headers file).takeWhile (· ≠ [])

def searched (section' : List Char) (file : List (List Char)) : Option (List (List Char)) :=
  if section' = [] then some file else sectionLines section' file

def value? (file : List (List Char)) (section' key : List Char) : Option (List Char) :=
  if key = [] then none
  else (searched section' file).bind fun inside =>
    ((entries inside).find? fun entry => decide (SameName entry.1 key)).map
      fun entry => plainValue entry.2

section

variable {file inside : List (List Char)} {section' key name line string : List Char} {gap : Gap}
  {room bufferSize start : Nat}

theorem strnicmp_zero (enough : key.length ≤ string.length) :
    strnicmp string key key.length = 0 ↔ SameName (string.take key.length) key := by
  induction key generalizing string with
  | nil => simp [strnicmp, SameName]
  | cons d key ih =>
      cases string with
      | nil => simp at enough
      | cons c string =>
          rw [List.length_cons, List.take_succ_cons, strnicmp]
          have rest : strnicmp string key key.length = 0 ↔ SameName (string.take key.length) key :=
            ih (by simpa using enough)
          rw [SameName] at rest ⊢
          rw [List.map_cons, List.map_cons, List.cons.injEq]
          split
          · rename_i same
            rw [rest]
            exact (and_iff_right same).symm
          · rename_i different
            refine iff_of_false (fun zero => different ?_) fun both => different both.1
            apply Char.toNat_inj.mp
            omega

theorem SameName.length (same : SameName name key) : name.length = key.length := by
  simpa using congrArg List.length same

theorem sameName_iff : name.length = key.length ∧ strnicmp name key key.length = 0 ↔
    SameName name key := by
  constructor
  · rintro ⟨lengths, zero⟩
    rwa [strnicmp_zero lengths.ge, List.take_of_length_le lengths.le] at zero
  · intro same
    have lengths := same.length
    rw [strnicmp_zero lengths.ge, List.take_of_length_le lengths.le]
    exact ⟨lengths, same⟩

theorem unescaped_take (source : List Char) (room more : Nat) (enough : source.length ≤ more) :
    unescaped room source = (unescaped more source).take room := by
  induction room, source using unescaped.induct generalizing more with
  | case1 source => simp [unescaped]
  | case2 room => cases more <;> simp [unescaped]
  | case3 room c =>
      obtain ⟨more, rfl⟩ := Nat.exists_eq_add_one_of_ne_zero (n := more) (by simp at enough; omega)
      simp [unescaped]
  | case4 room c d source quoted ih =>
      simp only [List.length_cons] at enough
      obtain ⟨more, rfl⟩ := Nat.exists_eq_add_one_of_ne_zero (n := more) (by omega)
      rw [unescaped, unescaped, if_pos quoted, if_pos quoted, List.take_succ_cons, ih more (by omega)]
  | case5 room c d source plain ih =>
      simp only [List.length_cons] at enough
      obtain ⟨more, rfl⟩ := Nat.exists_eq_add_one_of_ne_zero (n := more) (by omega)
      rw [unescaped, unescaped, if_neg plain, if_neg plain, List.take_succ_cons,
        ih more (by simp; omega)]

theorem copied_value (text : List Char) (bufferSize : Nat) :
    copied (cleanstring (skipleading text)).1 bufferSize (cleanstring (skipleading text)).2 =
      (plainValue text).take (bufferSize - 1) := by
  rw [plainValue]
  have shape : ∀ string option, cleanstring (skipleading text) = (string, option) →
      option ≠ .enquote := by
    intro string option cleaned
    rw [cleanstring] at cleaned
    split at cleaned
    · split at cleaned <;> cases cleaned <;> simp
    · cases cleaned
      simp
  rcases cleaned : cleanstring (skipleading text) with ⟨string, option⟩
  cases option with
  | none => rfl
  | enquote => exact absurd rfl (shape string .enquote cleaned)
  | dequote => exact unescaped_take string _ _ (Nat.le_refl _)

/-- Wherever the caller's buffer lies, the copy is made just where the text starts early
enough. -/
theorem saveStrncpy_iff (positive : 0 < bufferSize) (inside : start < iniBuffersize)
    (source : List Char) (option : QuoteOption) :
    (∀ gap, saveStrncpy gap start source bufferSize option =
      .ok (copied source bufferSize option)) ↔ start + bufferSize ≤ iniBuffersize := by
  constructor
  · intro everywhere
    have above := everywhere { bytes := iniBuffersize, disjoint := Or.inr (Int.le_refl _) }
    rw [saveStrncpy] at above
    split at above
    · rename_i apart
      rcases apart.2 with below | near
      · exact absurd below (by simpa using inside)
      · exact Int.ofNat_le.mp near
    · cases above
  · intro near gap
    rw [saveStrncpy, if_pos]
    refine ⟨positive, ?_⟩
    rcases gap.disjoint with below | above
    · exact Or.inl (by omega)
    · exact Or.inr (by omega)

theorem seekSection_named (file : List (List Char)) (section' : List Char) (idx : Int) (start : -1 ≤ idx) :
    (seekSection section' (-1) idx file).map (fun found => found.2.2.2) =
      sectionLines section' file := by
  induction file generalizing idx with
  | nil => rfl
  | cons line file ih =>
      rw [seekSection, sectionLines]
      cases headerName line with
      | none => exact ih idx start
      | some name =>
          simp only [sameName_iff]
          split
          · rfl
          · rw [if_neg (by omega)]
            exact ih (idx + 1) (by omega)

theorem splitEntry_start {text : List Char} (split : splitEntry line = some (name, text)) :
    name <+: line := by
  unfold splitEntry at split
  split at split
  · cases split
    exact List.takeWhile_prefix _
  · split at split
    · cases split
      exact List.takeWhile_prefix _
    · cases split

theorem sameKey_iff (nonempty : key ≠ []) (stripped : name <+: line) :
    (key.length ≠ 0 ∧ name.length = key.length ∧ strnicmp line key key.length = 0) ↔
      SameName name key := by
  have positive : key.length ≠ 0 := by simpa using nonempty
  constructor
  · rintro ⟨_, lengths, zero⟩
    have enough := stripped.length_le
    rw [strnicmp_zero (by omega), ← lengths, ← List.prefix_iff_eq_take.mp stripped] at zero
    exact zero
  · intro same
    have lengths := same.length
    have enough := stripped.length_le
    refine ⟨positive, lengths, ?_⟩
    rw [strnicmp_zero (by omega), ← lengths, ← List.prefix_iff_eq_take.mp stripped]
    exact same

theorem seekKey_named (file : List (List Char)) (nonempty : key ≠ []) (idx : Int) (start : -1 ≤ idx) :
    (seekKey key (-1) idx file).map (fun found => found.2.2.2) =
      ((entries file).find? fun entry => decide (SameName entry.1 key)).map Prod.snd := by
  induction file generalizing idx with
  | nil => rfl
  | cons line file ih =>
      rw [seekKey]
      simp only []
      split
      · rename_i opens
        have ends : opensSection line = true := by simpa [opensSection] using opens
        simp [entries, ends]
      · rename_i inside
        have goes : opensSection line = false := by simpa [opensSection] using inside
        have more : entries (line :: file) = (entry line).toList ++ entries file := by
          rw [entries, List.takeWhile_cons, goes]
          simp only [Bool.not_false, if_true, List.filterMap_cons]
          cases entry line <;> rfl
        rw [more]
        split
        · rename_i comment
          have skipped : entry line = none := by simp [entry, isComment, comment]
          rw [skipped]
          exact ih idx start
        · rename_i plain
          have read : entry line =
              (splitEntry (skipleading line)).map fun both => (striptrailing both.1, both.2) := by
            simp [entry, isComment, plain]
          rw [read]
          cases split' : splitEntry (skipleading line) with
          | none => exact ih idx start
          | some both =>
              obtain ⟨name, text⟩ := both
              have trimmed : striptrailing name <+: name := List.rdropWhile_prefix _ _
              have stripped := trimmed.trans (splitEntry_start split')
              simp only [sameKey_iff nonempty stripped, Option.map_some, Option.toList_some,
                List.cons_append, List.nil_append, List.find?_cons]
              split
              · rename_i same
                simp [same]
              · rename_i different
                rw [if_neg (by omega)]
                simpa [different] using ih (idx + 1) (by omega)

theorem seekKey_empty (idx : Int) (start : -1 ≤ idx) : seekKey [] (-1) idx file = none := by
  induction file generalizing idx with
  | nil => rfl
  | cons line file ih =>
      rw [seekKey]
      simp only []
      split
      · rfl
      · split
        · exact ih idx start
        · split
          · exact ih idx start
          · rw [if_neg (by simp), if_neg (by omega)]
            exact ih (idx + 1) (by omega)

/-- The loop stops at a line whose value starts early. -/
theorem seekKey_early (early : ∀ line ∈ file, Early line) {idxKey idx i : Int}
    {text : List Char} (found : seekKey key idxKey idx file = some (i, line, name, text)) :
    behind line (skipleading text) + 257 ≤ iniBuffersize := by
  induction file generalizing idx with
  | nil => cases found
  | cons first file ih =>
      have later := fun {idx} => @ih (fun line member => early line (List.mem_cons_of_mem _ member)) idx
      rw [seekKey] at found
      simp only [] at found
      split at found
      · cases found
      · rename_i inside
        split at found
        · exact later found
        · rename_i plain
          split at found
          · exact later found
          · rename_i both split'
            have near := (early first List.mem_cons_self).2 (by simpa [opensSection] using inside)
              (by simpa [isComment] using plain) _ split'
            split at found
            · cases found
              exact near
            · split at found
              · cases found
                exact near
              · exact later found

theorem seekSection_early (early : ∀ line ∈ file, Early line) {idxSection idx i : Int}
    (found : seekSection section' idxSection idx file = some (i, line, name, inside)) :
    behind line (skipleading line) + 51 ≤ iniBuffersize ∧ ∀ line ∈ inside, Early line := by
  induction file generalizing idx with
  | nil => cases found
  | cons first file ih =>
      have rest : ∀ line ∈ file, Early line := fun line member =>
        early line (List.mem_cons_of_mem _ member)
      rw [seekSection] at found
      split at found
      · exact ih rest found
      · rename_i header
        have near := (early first List.mem_cons_self).1 (by simp [header])
        split at found
        · cases found
          exact ⟨near, rest⟩
        · split at found
          · cases found
            exact ⟨near, rest⟩
          · exact ih rest found

theorem keyFrom_value (early : ∀ line ∈ inside, Early line) (key : List Char)
    (positive : 0 < bufferSize) (fits : bufferSize ≤ 256) :
    keyFrom gap inside key (-1) bufferSize =
      .ok (if key = [] then none
        else ((entries inside).find? fun entry => decide (SameName entry.1 key)).map
          fun entry => (plainValue entry.2).take (bufferSize - 1)) := by
  rw [keyFrom]
  by_cases empty : key = []
  · rw [if_pos empty, empty, seekKey_empty (-1) (Int.le_refl _)]
  · rw [if_neg empty]
    have found := seekKey_named inside empty (-1) (Int.le_refl _)
    cases sought : seekKey key (-1) (-1) inside with
    | none =>
        rw [sought, Option.map_none, eq_comm, Option.map_eq_none_iff] at found
        rw [found]
        rfl
    | some result =>
        obtain ⟨idx, line, name, text⟩ := result
        have near := seekKey_early early sought
        rw [sought, Option.map_some, eq_comm, Option.map_eq_some_iff] at found
        obtain ⟨entry, first, rfl⟩ := found
        rw [first, Option.map_some, ← copied_value]
        simp only [Int.reduceNeg, Int.reduceLE, if_false]
        rw [(saveStrncpy_iff positive (by split <;> omega) _ _).mpr]
        · rfl
        · split <;> omega

/-- The parser finds what the text says, cut to the buffer. -/
theorem getkeystring_value (early : ∀ line ∈ file, Early line) (section' key : List Char)
    (positive : 0 < bufferSize) (fits : bufferSize ≤ 256) :
    getkeystring gap file section' key (-1) (-1) bufferSize =
      .ok ((value? file section' key).map (List.take (bufferSize - 1))) := by
  have inside : ∀ lines : List (List Char), (∀ line ∈ lines, Early line) →
      keyFrom gap lines key (-1) bufferSize =
        .ok ((if key = [] then none
          else ((entries lines).find? fun entry => decide (SameName entry.1 key)).map
            fun entry => plainValue entry.2).map (List.take (bufferSize - 1))) := by
    intro lines early
    rw [keyFrom_value early key positive fits]
    split
    · rfl
    · rw [Option.map_map]
      rfl
  rw [getkeystring, value?, searched]
  by_cases nameless : section' = []
  · rw [if_neg (by simp [nameless]), if_pos nameless, inside file early]
    rfl
  · have nonempty : 0 < section'.length := List.length_pos_iff.mpr nameless
    rw [if_pos (Or.inl nonempty), if_neg nameless]
    have found := seekSection_named file section' (-1) (Int.le_refl _)
    cases sought : seekSection section' (-1) (-1) file with
    | none =>
        rw [sought, Option.map_none] at found
        simp [← found]
    | some result =>
        obtain ⟨idx, line, name, rest⟩ := result
        have later := (seekSection_early early sought).2
        rw [sought, Option.map_some] at found
        simp only [Int.reduceNeg, Int.reduceLE, if_false, ← found, Option.bind_some,
          inside rest later]

theorem seekSection_nth (file : List (List Char)) (i : Nat) (idx k : Int) (left : k = idx + 1 + i) :
    ((seekSection [] k idx file).filter fun found => decide (found.1 = k)).map
      (fun found => found.2.2.1) = (named file)[i]? := by
  induction file generalizing idx i with
  | nil => rfl
  | cons line file ih =>
      rw [seekSection, named, headers, List.filterMap_cons]
      cases headerName line with
      | none => exact ih i idx left
      | some name =>
          simp only [List.takeWhile_cons]
          by_cases empty : name = []
          · have other : ¬ idx = k := by omega
            simp [empty, strnicmp, other]
          · have positive : ¬ name.length = 0 := by simpa using empty
            simp only [List.length_nil, positive, false_and, if_false]
            cases i with
            | zero =>
                rw [if_pos (by omega)]
                simp [empty, left]
            | succ i =>
                rw [if_neg (by omega)]
                simpa [empty, named, headers] using ih i (idx + 1) (by omega)

theorem iniGetsection_named (i : Nat) {text : List Char}
    (early : ∀ line ∈ lines iniBuffersize text, Early line) (positive : 0 < bufferSize)
    (fits : bufferSize ≤ 50) :
    iniGetsection gap i bufferSize (some text) =
      .ok (((named (lines iniBuffersize text))[i]?.getD []).take (bufferSize - 1)) := by
  have found := seekSection_nth (lines iniBuffersize text) i (-1) i (by omega)
  rw [iniGetsection, if_neg (by omega), getkeystring, if_pos (Or.inr (by omega)), ← found]
  cases sought : seekSection [] i (-1) (lines iniBuffersize text) with
  | none => simp [Except.map]
  | some result =>
      obtain ⟨idx, line, name, inside⟩ := result
      have near := (seekSection_early early sought).1
      simp only [Int.natCast_nonneg, if_true, Option.filter_some, decide_eq_true_eq]
      rw [(saveStrncpy_iff positive (by omega) _ _).mpr (by omega)]
      split
      · rfl
      · simp [Except.map]

theorem named_next {i : Nat} (before : ∀ name ∈ (headers file).take i, name ≠ []) :
    (named file)[i]?.getD [] = (headers file)[i]?.getD [] := by
  rw [named]
  generalize headers file = names at before ⊢
  induction names generalizing i with
  | nil => rfl
  | cons name rest ih =>
      rw [List.takeWhile_cons]
      cases i with
      | zero =>
          by_cases empty : name = []
          · simp [empty]
          · simp [empty]
      | succ i =>
          have first : name ≠ [] := before name (by simp)
          have later := ih (i := i) fun other member =>
            before other (List.mem_cons_of_mem _ member)
          simpa [first] using later

end

end MinIni
