import ModBus.ConfigText

/-! Files as people write them: settings with or without quotes, with comments and
blanks around them. What such a file lays out is what the parser reads. -/

namespace MinIni

open Libc

def quotedText : List Char → List Char
  | [] => []
  | c :: text => if c = '"' then '\\' :: '"' :: quotedText text else c :: quotedText text

def isMark (c : Char) : Prop := c = ';' ∨ c = '#'

inductive Value
  | plain (text : List Char)
  | quoted (text : List Char)

def Value.text : Value → List Char
  | .plain text => text
  | .quoted text => text

def Value.written : Value → List Char
  | .plain text => text
  | .quoted text => '"' :: (quotedText text ++ ['"'])

/-- A last backslash would hide the closing quote from the search for a comment. -/
def Value.Readable (comment : List Char) : Value → Prop
  | .plain text =>
      (∀ c ∈ text, ¬ isMark c ∧ c ≠ '"') ∧ (∀ c, text.head? = some c → isBlank c = false) ∧
      ∀ c, text.getLast? = some c → isBlank c = false
  | .quoted text => comment = [] ∨ text.getLast? ≠ some '\\'

structure Remark where
  indent : List Char
  comment : List Char
  blank : ∀ c ∈ indent, isBlank c = true
  marked : ∀ c, comment.head? = some c → isMark c

structure Header where
  indent : List Char
  name : List Char
  after : List Char
  blank : ∀ c ∈ indent, isBlank c = true
  closed : ']' ∉ name

structure Setting where
  indent : List Char
  key : List Char
  gap : List Char
  sign : Char
  lead : List Char
  value : Value
  after : List Char
  comment : List Char
  indented : ∀ c ∈ indent, isBlank c = true
  spaced : ∀ c ∈ gap ++ lead ++ after, isBlank c = true
  starts : ∃ c, key.head? = some c ∧ isBlank c = false ∧ c ≠ '[' ∧ ¬ isMark c
  ends : ∀ c, key.getLast? = some c → isBlank c = false
  marked : ∀ c, comment.head? = some c → isMark c
  signed : sign = '=' ∧ '=' ∉ key ∨
    sign = ':' ∧ ':' ∉ key ∧ '=' ∉ key ++ lead ++ value.written ++ comment
  readable : value.Readable comment

inductive Row
  | remark (remark : Remark)
  | header (header : Header)
  | setting (setting : Setting)

def Setting.rest (setting : Setting) : List Char :=
  setting.lead ++ (setting.value.written ++ (setting.after ++ setting.comment))

def Row.text : Row → List Char
  | .remark line => line.indent ++ line.comment
  | .header line => line.indent ++ '[' :: (line.name ++ ']' :: line.after)
  | .setting line => line.indent ++ (line.key ++ (line.gap ++ line.sign :: line.rest))

structure Layout where
  rows : List Row
  early : ∀ row ∈ rows, Early (row.text ++ ['\n'])
  short : ∀ row ∈ rows, '\n' ∉ row.text ∧ '\x00' ∉ row.text ∧ row.text.length + 1 < iniBuffersize

def Layout.text (layout : Layout) : List Char := (layout.rows.map Row.text).flatMap (· ++ ['\n'])

def Row.header? : Row → Option (List Char)
  | .header line => some line.name
  | _ => none

def Row.setting? : Row → Option (List Char × List Char)
  | .setting line => some (line.key, line.value.text)
  | _ => none

def rowsUnder (section' : List Char) : List Row → Option (List Row)
  | [] => none
  | row :: rows =>
      match row.header? with
      | none => rowsUnder section' rows
      | some name => if SameName name section' then some rows else rowsUnder section' rows

def settingIn (rows : List Row) (key : List Char) : Option (List Char) :=
  (((rows.takeWhile fun row => row.header?.isNone).filterMap Row.setting?).find?
    fun setting => decide (SameName setting.1 key)).map Prod.snd

def Layout.value? (layout : Layout) (section' key : List Char) : Option (List Char) :=
  if section' = [] then settingIn layout.rows key
  else (rowsUnder section' layout.rows).bind fun rows => settingIn rows key

def Layout.sections (layout : Layout) : List (List Char) := layout.rows.filterMap Row.header?

section

variable {text blanks rest comment : List Char} {room : Nat} {isstring : Bool}

theorem quotedText_head (text : List Char) : (quotedText text).head? ≠ some '"' := by
  cases text with
  | nil => simp [quotedText]
  | cons c text =>
      rw [quotedText]
      split
      · simp
      · rename_i other
        simpa using other

theorem unescaped_quotedText (fits : text.length ≤ room) :
    unescaped room (quotedText text) = text := by
  induction text generalizing room with
  | nil => cases room <;> rfl
  | cons c text ih =>
      obtain ⟨room, rfl⟩ := Nat.exists_eq_add_one_of_ne_zero (Nat.ne_zero_of_lt fits)
      have later := ih (Nat.le_of_succ_le_succ fits)
      rw [quotedText]
      split
      · rename_i quote
        rw [unescaped, if_pos ⟨Or.inr rfl, rfl⟩, later, quote]
      · have first := quotedText_head text
        cases more : quotedText text with
        | nil =>
            rw [more] at later
            rw [unescaped, ← later]
            cases room <;> rfl
        | cons d source =>
            rw [more] at later first
            rw [unescaped, if_neg (by simpa using fun _ => first), later]

theorem quotedText_length : text.length ≤ (quotedText text).length := by
  induction text with
  | nil => exact Nat.le_refl _
  | cons c text ih =>
      rw [quotedText]
      split
      · simp only [List.length_cons]
        omega
      · exact Nat.succ_le_succ ih

theorem blank_other {c : Char} (blank : isBlank c = true) :
    ¬ isMark c ∧ c ≠ '"' ∧ c ≠ '\\' ∧ c ≠ '=' ∧ c ≠ ':' ∧ c ≠ '[' := by
  refine ⟨?_, ?_, ?_, ?_, ?_, ?_⟩
  · rintro (rfl | rfl) <;> cases blank
  all_goals rintro rfl; cases blank

theorem uncommented_cons {c : Char} (mark : isMark c → isstring = true) (quote : c ≠ '"')
    (next : c = '\\' → text.head? ≠ some '"') :
    uncommented isstring (c :: text) = c :: uncommented isstring text := by
  have kept : ¬ ((c = ';' ∨ c = '#') ∧ isstring = false) := by
    rintro ⟨marked, closed⟩
    rw [mark marked] at closed
    cases closed
  cases text with
  | nil => simp only [uncommented, if_neg kept]
  | cons d text =>
      have single : ¬ ((c = '"' ∨ c = '\\') ∧ d = '"') := by
        rintro ⟨either, rfl⟩
        exact next (either.resolve_left quote) rfl
      rw [uncommented, if_neg kept, if_neg single, if_neg quote]

theorem uncommented_plain (plain : ∀ c ∈ text, ¬ isMark c ∧ c ≠ '"') (next : rest.head? ≠ some '"') :
    uncommented isstring (text ++ rest) = text ++ uncommented isstring rest := by
  induction text with
  | nil => rfl
  | cons c text ih =>
      obtain ⟨mark, quote⟩ := plain c List.mem_cons_self
      have later := ih fun d member => plain d (List.mem_cons_of_mem _ member)
      rw [List.cons_append, uncommented_cons (fun marked => absurd marked mark) quote, later,
        List.cons_append]
      intro _
      cases text with
      | nil => exact next
      | cons d text => simpa using (plain d (by simp)).2

/-- Behind a closing quote the text counts as quoted only where a backslash hides it. -/
theorem uncommented_quotedText (next : rest.head? ≠ some '"') (more : rest ≠ []) :
    uncommented true (quotedText text ++ '"' :: rest) =
      quotedText text ++ '"' :: uncommented (decide (text.getLast? = some '\\')) rest := by
  induction text with
  | nil =>
      cases rest with
      | nil => exact absurd rfl more
      | cons d rest =>
          have other : d ≠ '"' := by simpa using next
          simp [quotedText, uncommented, other]
  | cons c text ih =>
      have last : text ≠ [] → (c :: text).getLast? = text.getLast? := by
        cases text <;> simp
      rw [quotedText]
      split
      · rename_i quote
        rw [List.cons_append, List.cons_append, uncommented, if_neg (by simp),
          if_pos ⟨Or.inr rfl, rfl⟩, ih]
        cases text with
        | nil => simp [quote]
        | cons d text => rw [last (by simp)]; rfl
      · rename_i other
        cases text with
        | nil =>
            by_cases backslash : c = '\\'
            · subst backslash
              simp [quotedText, uncommented]
            · rw [quotedText, List.cons_append, List.nil_append,
                uncommented_cons (fun _ => rfl) other (fun same => absurd same backslash)]
              have closing := ih
              rw [quotedText, List.nil_append] at closing
              rw [closing]
              simp [backslash]
        | cons d text =>
            rw [List.cons_append, uncommented_cons (fun _ => rfl) other, ih, last (by simp)]
            · rfl
            · intro _
              have first := quotedText_head (d :: text)
              cases written : quotedText (d :: text) with
              | nil =>
                  rw [quotedText] at written
                  split at written <;> cases written
              | cons e source =>
                  rw [written] at first
                  simpa using first

theorem skipleading_blanks (blank : ∀ c ∈ blanks, isBlank c = true) :
    skipleading (blanks ++ rest) = skipleading rest := List.dropWhile_append_of_pos blank

theorem skipleading_start (visible : ∀ c, text.head? = some c → isBlank c = false) :
    skipleading text = text := by
  cases text with
  | nil => rfl
  | cons c text => rw [skipleading, List.dropWhile_cons, if_neg (by simp [visible c rfl])]

theorem striptrailing_blanks (blank : ∀ c ∈ blanks, isBlank c = true)
    (visible : ∀ c, text.getLast? = some c → isBlank c = false) :
    striptrailing (text ++ blanks) = text := by
  have start : text.reverse.dropWhile isBlank = text.reverse :=
    skipleading_start fun c first => visible c (by simpa using first)
  rw [striptrailing, List.rdropWhile, List.reverse_append,
    List.dropWhile_append_of_pos (by simpa using blank), start, List.reverse_reverse]

theorem uncommented_tail (blank : ∀ c ∈ blanks, isBlank c = true)
    (marked : ∀ c, comment.head? = some c → isMark c)
    (seen : comment = [] ∨ isstring = false) :
    ∀ c ∈ uncommented isstring (blanks ++ (comment ++ ['\n'])), isBlank c = true := by
  have plain : ∀ c ∈ blanks, ¬ isMark c ∧ c ≠ '"' :=
    fun c member => ⟨(blank_other (blank c member)).1, (blank_other (blank c member)).2.1⟩
  cases comment with
  | nil =>
      rw [List.nil_append, uncommented_plain plain (by simp)]
      have newline : uncommented isstring ['\n'] = ['\n'] := by simp [uncommented]
      rw [newline]
      intro c member
      rcases List.mem_append.mp member with earlier | last
      · exact blank c earlier
      · simp only [List.mem_singleton] at last
        exact last ▸ rfl
  | cons mark comment =>
      have closed := seen.resolve_left (by simp)
      have first : isMark mark := marked mark rfl
      have quote : mark ≠ '"' := by
        rintro rfl
        rcases first with same | same <;> cases same
      have nothing : uncommented isstring (mark :: (comment ++ ['\n'])) = [] := by
        cases more : comment ++ ['\n'] with
        | nil => simp at more
        | cons d text => rw [uncommented, if_pos ⟨first, closed⟩]
      rw [List.cons_append, uncommented_plain plain (by simpa using quote), nothing, List.append_nil]
      exact blank

theorem tail_head (blank : ∀ c ∈ blanks, isBlank c = true)
    (marked : ∀ c, comment.head? = some c → isMark c) :
    (blanks ++ (comment ++ ['\n'])).head? ≠ some '"' := by
  cases blanks with
  | nil =>
      cases comment with
      | nil => simp
      | cons mark comment =>
          rcases marked mark rfl with rfl | rfl <;> simp
  | cons c blanks => simpa using (blank_other (blank c List.mem_cons_self)).2.1

theorem cleanstring_plain (blank : ∀ c ∈ blanks, isBlank c = true)
    (marked : ∀ c, comment.head? = some c → isMark c)
    (plain : ∀ c ∈ text, ¬ isMark c ∧ c ≠ '"')
    (visible : ∀ c, text.getLast? = some c → isBlank c = false) :
    cleanstring (text ++ (blanks ++ (comment ++ ['\n']))) = (text, .none) := by
  rw [cleanstring, uncommented_plain plain (tail_head blank marked),
    striptrailing_blanks (uncommented_tail blank marked (Or.inr rfl)) visible]
  split
  · exact absurd rfl (plain '"' List.mem_cons_self).2
  · rfl

theorem cleanstring_quoted (blank : ∀ c ∈ blanks, isBlank c = true)
    (marked : ∀ c, comment.head? = some c → isMark c)
    (seen : comment = [] ∨ text.getLast? ≠ some '\\') :
    cleanstring ('"' :: (quotedText text ++ '"' :: (blanks ++ (comment ++ ['\n'])))) =
      (quotedText text, .dequote) := by
  have next := tail_head blank marked
  have more : blanks ++ (comment ++ ['\n']) ≠ [] := by simp
  generalize tail : blanks ++ (comment ++ ['\n']) = rest at next more
  have opened : ∃ isstring, (comment = [] ∨ isstring = false) ∧
      uncommented false ('"' :: (quotedText text ++ '"' :: rest)) =
        '"' :: (quotedText text ++ '"' :: uncommented isstring rest) := by
    cases text with
    | nil => exact ⟨false, Or.inr rfl, by simp [quotedText, uncommented]⟩
    | cons c text =>
        refine ⟨decide ((c :: text).getLast? = some '\\'), ?_, ?_⟩
        · simpa using seen
        · rw [← uncommented_quotedText next more]
          have first := quotedText_head (c :: text)
          cases written : quotedText (c :: text) with
          | nil =>
              rw [quotedText] at written
              split at written <;> cases written
          | cons d source =>
              rw [written] at first
              have other : d ≠ '"' := by simpa using first
              simp [uncommented, other]
  obtain ⟨isstring, kept, cut⟩ := opened
  have ends : ∀ c, ('"' :: (quotedText text ++ ['"'])).getLast? = some c → isBlank c = false := by
    intro c last
    rw [← List.cons_append, List.getLast?_concat] at last
    cases last
    rfl
  have left := striptrailing_blanks (tail ▸ uncommented_tail blank marked kept) ends
  rw [cleanstring, cut, ← List.singleton_append (l := uncommented isstring rest), ← List.append_assoc,
    ← List.cons_append, left]
  have closing : ('"' :: (quotedText text ++ ['"'])).getLast? = some '"' := by
    rw [← List.cons_append, List.getLast?_concat]
  simp [closing]

theorem plainValue_written {value : Value} {lead after : List Char}
    (spaced : ∀ c ∈ lead ++ after, isBlank c = true)
    (marked : ∀ c, comment.head? = some c → isMark c) (readable : value.Readable comment) :
    plainValue (lead ++ (value.written ++ (after ++ (comment ++ ['\n'])))) = value.text := by
  have leads : ∀ c ∈ lead, isBlank c = true := fun c member => spaced c (by simp [member])
  have afters : ∀ c ∈ after, isBlank c = true := fun c member => spaced c (by simp [member])
  rw [plainValue, skipleading_blanks leads]
  cases value with
  | plain text =>
      obtain ⟨plain, starts, ends⟩ := readable
      have cleaned : cleanstring (skipleading (text ++ (after ++ (comment ++ ['\n'])))) =
          (text, .none) := by
        cases text with
        | nil =>
            rw [List.nil_append, skipleading_blanks afters]
            cases comment with
            | nil => rfl
            | cons mark comment =>
                have visible : ∀ c, (mark :: comment ++ ['\n']).head? = some c → isBlank c = false := by
                  rintro c first
                  cases first
                  rcases marked _ rfl with rfl | rfl <;> rfl
                rw [skipleading_start visible]
                have cleaned : cleanstring ([] ++ ([] ++ (mark :: comment ++ ['\n']))) = ([], .none) :=
                  cleanstring_plain (by simp) marked plain ends
                exact cleaned
        | cons c text =>
            rw [skipleading_start (fun d first => starts d (by simpa using first))]
            exact cleanstring_plain afters marked plain ends
      simp only [Value.written, cleaned, Value.text]
  | quoted text =>
      have cleaned := cleanstring_quoted afters marked readable
      have shape : Value.written (.quoted text) ++ (after ++ (comment ++ ['\n'])) =
          '"' :: (quotedText text ++ '"' :: (after ++ (comment ++ ['\n']))) := by
        simp [Value.written]
      rw [shape, skipleading_start (by simp [isBlank]), cleaned]
      exact unescaped_quotedText quotedText_length

structure Row.Read (row : Row) : Prop where
  headerName : headerName (row.text ++ ['\n']) = row.header?
  opens : opensSection (row.text ++ ['\n']) = row.header?.isSome
  entry : row.header? = none →
    (entry (row.text ++ ['\n'])).map (fun both => (both.1, plainValue both.2)) = row.setting?

theorem remark_read (line : Remark) : Row.Read (.remark line) := by
  have seen : skipleading (Row.text (.remark line) ++ ['\n']) = [] ∨
      ∃ c text, isMark c ∧ skipleading (Row.text (.remark line) ++ ['\n']) = c :: text := by
    rw [Row.text, List.append_assoc, skipleading_blanks line.blank]
    cases comment : line.comment with
    | nil => exact Or.inl rfl
    | cons c text =>
        have mark := line.marked c (by rw [comment]; rfl)
        refine Or.inr ⟨c, text ++ ['\n'], mark, ?_⟩
        rw [List.cons_append, skipleading_start]
        rintro d first
        cases first
        rcases mark with rfl | rfl <;> rfl
  rcases seen with nothing | ⟨c, text, mark, start⟩
  · constructor
    · simp [MinIni.headerName, nothing, Row.header?]
    · simp [opensSection, nothing, Row.header?]
    · simp [MinIni.entry, isComment, nothing, splitEntry, Row.setting?]
  · have other : c ≠ '[' := by
      rintro rfl
      rcases mark with same | same <;> cases same
    constructor
    · rw [MinIni.headerName, start, Row.header?]
      split
      · rename_i same
        cases same
        exact absurd rfl other
      · rfl
      · rintro _ same
        cases same
    · simp [opensSection, start, other, Row.header?]
    · have skipped : isComment (Row.text (.remark line) ++ ['\n']) = true := by
        simpa [isComment, start, isMark] using mark
      simp [MinIni.entry, skipped, Row.setting?]

theorem header_read (line : Header) : Row.Read (.header line) := by
  have start : skipleading (Row.text (.header line) ++ ['\n']) =
      '[' :: (line.name ++ ']' :: (line.after ++ ['\n'])) := by
    rw [Row.text, List.append_assoc, skipleading_blanks line.blank, skipleading_start]
    · simp
    · rintro c first
      cases first
      rfl
  have name : (line.name ++ ']' :: (line.after ++ ['\n'])).takeWhile (· ≠ ']') = line.name := by
    rw [List.takeWhile_append_of_pos]
    · simp
    · intro c member
      have different : c ≠ ']' := fun same => line.closed (same ▸ member)
      simpa using different
  constructor
  · simp only [MinIni.headerName, start, Row.header?]
    rw [if_pos (by simp), name]
  · simp [opensSection, start, Row.header?]
  · rintro ⟨⟩

theorem splitEntry_signed {name text : List Char} {sign : Char}
    (signed : sign = '=' ∧ '=' ∉ name ∨ sign = ':' ∧ ':' ∉ name ∧ '=' ∉ name ++ text) :
    splitEntry (name ++ sign :: text) = some (name, text) := by
  have cut : ∀ sign, sign ∉ name →
      (name ++ sign :: text).takeWhile (· ≠ sign) = name ∧
      ((name ++ sign :: text).dropWhile (· ≠ sign)).tail = text := by
    intro sign free
    have others : ∀ c ∈ name, decide (c ≠ sign) = true := by
      intro c member
      have different : c ≠ sign := fun same => free (same ▸ member)
      simpa using different
    rw [List.takeWhile_append_of_pos others, List.dropWhile_append_of_pos others]
    simp
  rcases signed with ⟨rfl, free⟩ | ⟨rfl, free, none⟩
  · rw [splitEntry, if_pos (by simp), (cut _ free).1, (cut _ free).2]
  · have plain : '=' ∉ name ++ ':' :: text := by
      simpa using none
    rw [splitEntry, if_neg plain, if_pos (by simp), (cut _ free).1, (cut _ free).2]

theorem setting_read (line : Setting) : Row.Read (.setting line) := by
  obtain ⟨first, starts, visible, bracket, mark⟩ := line.starts
  have gaps : ∀ c ∈ line.gap, isBlank c = true := fun c member => line.spaced c (by simp [member])
  have spaced : ∀ c ∈ line.lead ++ line.after, isBlank c = true := by
    intro c member
    apply line.spaced c
    rw [List.append_assoc]
    exact List.mem_append_right _ member
  have start : skipleading (Row.text (.setting line) ++ ['\n']) =
      (line.key ++ line.gap) ++ line.sign :: (line.rest ++ ['\n']) := by
    rw [Row.text, List.append_assoc, skipleading_blanks line.indented, skipleading_start]
    · simp
    · intro c head
      have same : c = first := by
        rw [List.head?_append, List.head?_append, starts] at head
        exact (Option.some.inj head).symm
      exact same ▸ visible
  have head : (skipleading (Row.text (.setting line) ++ ['\n'])).head? = some first := by
    rw [start, List.append_assoc, List.head?_append, starts]
    rfl
  constructor
  · rw [MinIni.headerName, Row.header?]
    split
    · rename_i same
      rw [same] at head
      exact absurd (Option.some.inj head).symm bracket
    · rfl
    · rintro _ ⟨⟩
  · simp [opensSection, head, bracket, Row.header?]
  · intro _
    have kept : isComment (Row.text (.setting line) ++ ['\n']) = false := by
      simpa [isComment, head, isMark] using mark
    have split : splitEntry (skipleading (Row.text (.setting line) ++ ['\n'])) =
        some (line.key ++ line.gap, line.rest ++ ['\n']) := by
      rw [start]
      apply splitEntry_signed
      rcases line.signed with ⟨same, free⟩ | ⟨same, free, none⟩
      · refine Or.inl ⟨same, fun member => ?_⟩
        rcases List.mem_append.mp member with inside | blank
        · exact free inside
        · exact (blank_other (gaps _ blank)).2.2.2.1 rfl
      · refine Or.inr ⟨same, fun member => ?_, fun member => ?_⟩
        · rcases List.mem_append.mp member with inside | blank
          · exact free inside
          · exact (blank_other (gaps _ blank)).2.2.2.2.1 rfl
        · have blanks : ∀ c, c ∈ line.gap ∨ c ∈ line.after → c ≠ '=' := by
            intro c either
            have blank : isBlank c = true := by
              rcases either with inside | inside
              · exact gaps c inside
              · exact spaced c (by simp [inside])
            exact (blank_other blank).2.2.2.1
          have gap : '=' ∉ line.gap := fun inside => blanks '=' (Or.inl inside) rfl
          have after : '=' ∉ line.after := fun inside => blanks '=' (Or.inr inside) rfl
          simp only [List.mem_append, not_or] at none
          simp [Setting.rest, none, gap, after] at member
    rw [MinIni.entry, kept, split]
    have key : striptrailing (line.key ++ line.gap) = line.key := striptrailing_blanks gaps line.ends
    have value : plainValue (line.rest ++ ['\n']) = line.value.text := by
      have read := plainValue_written spaced line.marked line.readable
      simpa [Setting.rest] using read
    simp [key, value, Row.setting?]

theorem row_read (row : Row) : row.Read := by
  cases row with
  | remark line => exact remark_read line
  | header line => exact header_read line
  | setting line => exact setting_read line

end

section

variable {rows : List Row}

def rowLines (rows : List Row) : List (List Char) := rows.map fun row => row.text ++ ['\n']

theorem lines_layout (layout : Layout) :
    lines iniBuffersize layout.text = rowLines layout.rows := by
  rw [Layout.text, lines_written, rowLines, List.map_map]
  · rfl
  · intro text member
    obtain ⟨row, inside, rfl⟩ := List.mem_map.mp member
    exact layout.short row inside

theorem headers_layout : headers (rowLines rows) = rows.filterMap Row.header? := by
  rw [headers, rowLines, List.filterMap_map]
  exact congrArg (rows.filterMap ·) (funext fun row => (row_read row).headerName)

theorem sectionLines_layout (section' : List Char) :
    sectionLines section' (rowLines rows) = (rowsUnder section' rows).map rowLines := by
  induction rows with
  | nil => rfl
  | cons row rows ih =>
      rw [rowLines, List.map_cons, sectionLines, rowsUnder, (row_read row).headerName]
      cases row.header? with
      | none => exact ih
      | some name =>
          simp only []
          split
          · rfl
          · exact ih

theorem entries_layout :
    (entries (rowLines rows)).map (fun both => (both.1, plainValue both.2)) =
      (rows.takeWhile fun row => row.header?.isNone).filterMap Row.setting? := by
  induction rows with
  | nil => rfl
  | cons row rows ih =>
      have read := row_read row
      rw [entries, rowLines, List.map_cons, List.takeWhile_cons, List.takeWhile_cons, read.opens]
      cases header : row.header? with
      | some name => rfl
      | none =>
          have setting := read.entry header
          simp only [Option.isSome_none, Bool.not_false, if_true, Option.isNone_none,
            List.filterMap_cons, ← setting]
          cases entry (row.text ++ ['\n']) with
          | none => exact ih
          | some both => simpa [entries, rowLines] using ih

theorem find?_layout (key : List Char) :
    ((entries (rowLines rows)).find? fun entry => decide (SameName entry.1 key)).map
      (fun entry => plainValue entry.2) = settingIn rows key := by
  rw [settingIn, ← entries_layout, List.find?_map, Option.map_map]
  rfl

end

/-- Any such file is read as it is laid out: the sections in order, and for each
section and key the first value, without its quotes. -/
theorem iniOf_layout (layout : Layout) :
    (∀ line ∈ ModBus.fileLines (some layout.text), Early line) ∧
    ModBus.iniOf (some layout.text) =
      { sections := layout.sections.map String.ofList
        value? := fun section' key =>
          if key = "" then none
          else (layout.value? section'.toList key.toList).map String.ofList } := by
  have early : ∀ line ∈ ModBus.fileLines (some layout.text), Early line := by
    intro line member
    rw [ModBus.fileLines, Option.map_some, Option.getD_some, lines_layout] at member
    obtain ⟨row, inside, rfl⟩ := List.mem_map.mp member
    exact layout.early row inside
  refine ⟨early, ?_⟩
  rw [ModBus.iniOf]
  simp only [ModBus.fileLines, Option.map_some, Option.getD_some, lines_layout, headers_layout]
  congr 1
  funext section' key
  rw [value?, Layout.value?, searched]
  have empty : key.toList = [] ↔ key = "" := String.toList_eq_nil_iff
  by_cases nameless : key = ""
  · rw [if_pos nameless, if_pos (empty.mpr nameless)]
    rfl
  · rw [if_neg nameless, if_neg (fun same => nameless (empty.mp same))]
    split
    · rw [Option.bind_some, find?_layout]
    · rw [sectionLines_layout]
      cases rowsUnder section'.toList layout.rows with
      | none => rfl
      | some rows => rw [Option.map_some, Option.bind_some, Option.bind_some, find?_layout]

def quotedLayout : Layout where
  rows :=
    [ .remark
        { indent := [], comment := "; ours".toList
          blank := by simp, marked := by rintro _ ⟨⟩; exact Or.inl rfl }
    , .header
        { indent := [' '], name := "worker".toList, after := []
          blank := by simp [isBlank], closed := by decide }
    , .setting
        { indent := ['\t'], key := "args".toList, gap := [' '], sign := '=', lead := [' ']
          value := .quoted "-c \"a;b\"".toList, after := [' '], comment := "# two".toList
          indented := by simp [isBlank], spaced := by simp [isBlank]
          starts := ⟨'a', rfl, by simp [isMark, isBlank]⟩
          ends := by rintro _ ⟨⟩; rfl, marked := by rintro _ ⟨⟩; exact Or.inr rfl
          signed := Or.inl ⟨rfl, by decide⟩, readable := Or.inr (by decide) } ]
  early := by decide
  short := by decide

theorem iniOf_layout_quoted :
    (∀ line ∈ ModBus.fileLines (some quotedLayout.text), Early line) ∧
    (ModBus.iniOf (some quotedLayout.text)).sections = ["worker"] ∧
    (ModBus.iniOf (some quotedLayout.text)).value? "worker" "ARGS" = some "-c \"a;b\"" := by
  obtain ⟨early, read⟩ := iniOf_layout quotedLayout
  rw [read]
  exact ⟨early, rfl, by decide⟩

end MinIni
