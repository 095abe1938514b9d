import Mathlib.Data.List.TakeWhile
import Mathlib.Tactic.Common

/-! A text file as `fgets` reads it: line by line, into a buffer that a long line
does not fit. -/

namespace Libc

def takeLine : Nat → List Char → List Char × List Char
  | 0, cs => ([], cs)
  | _ + 1, [] => ([], [])
  | room + 1, c :: cs =>
      if c = '\n' then ([c], cs)
      else (c :: (takeLine room cs).1, (takeLine room cs).2)

def fgets (size : Nat) (file : List Char) : Option (List Char × List Char) :=
  if file = [] then none else some (takeLine (size - 1) file)

def cText (buffer : List Char) : List Char := buffer.takeWhile (· ≠ '\x00')

def linesFrom (size : Nat) : Nat → List Char → List (List Char)
  | 0, _ => []
  | fuel + 1, file =>
      match fgets size file with
      | none => []
      | some (line, rest) => cText line :: linesFrom size fuel rest

def lines (size : Nat) (file : List Char) : List (List Char) := linesFrom size file.length file

section

variable {size room fuel : Nat} {file line rest text : List Char}

theorem takeLine_append (room : Nat) (file : List Char) :
    (takeLine room file).1 ++ (takeLine room file).2 = file := by
  induction file generalizing room with
  | nil => cases room <;> rfl
  | cons c cs ih =>
      cases room with
      | zero => rfl
      | succ room =>
          rw [takeLine]
          split
          · rfl
          · rw [List.cons_append, ih room]

theorem takeLine_shorter (positive : 0 < room) (more : file ≠ []) :
    (takeLine room file).2.length < file.length := by
  obtain ⟨room, rfl⟩ := Nat.exists_eq_add_one_of_ne_zero (Nat.ne_of_gt positive)
  cases file with
  | nil => exact absurd rfl more
  | cons c cs =>
      have whole := congrArg List.length (takeLine_append room cs)
      rw [List.length_append] at whole
      have fewer : (takeLine room cs).2.length ≤ cs.length := by omega
      rw [takeLine]
      split
      · exact Nat.lt_succ_self _
      · exact Nat.lt_succ_of_le fewer

theorem takeLine_newline (free : '\n' ∉ text) (fits : text.length < room) (rest : List Char) :
    takeLine room (text ++ '\n' :: rest) = (text ++ ['\n'], rest) := by
  induction text generalizing room with
  | nil =>
      obtain ⟨room, rfl⟩ := Nat.exists_eq_add_one_of_ne_zero (Nat.ne_of_gt fits)
      rfl
  | cons c text ih =>
      obtain ⟨room, rfl⟩ := Nat.exists_eq_add_one_of_ne_zero (Nat.ne_zero_of_lt fits)
      have different : c ≠ '\n' := fun same => free (same ▸ List.mem_cons_self)
      have later := ih (fun member => free (List.mem_cons_of_mem _ member))
        (Nat.lt_of_succ_lt_succ fits)
      rw [List.cons_append, takeLine, if_neg different, later]
      rfl

theorem fgets_shorter (enough : 2 ≤ size) (read : fgets size file = some (line, rest)) :
    rest.length < file.length := by
  unfold fgets at read
  split at read
  · cases read
  · rename_i more
    have shorter : (takeLine (size - 1) file).2.length < file.length :=
      takeLine_shorter (by omega) more
    rw [Option.some.injEq] at read
    rw [read] at shorter
    exact shorter

theorem linesFrom_enough (enough : 2 ≤ size) (fuel : file.length ≤ room) :
    linesFrom size room file = lines size file := by
  unfold lines
  induction room using Nat.strongRecOn generalizing file with
  | _ room ih =>
      cases left : file.length with
      | zero =>
          rw [List.eq_nil_of_length_eq_zero left]
          cases room <;> rfl
      | succ length =>
          obtain ⟨room, rfl⟩ := Nat.exists_eq_add_one_of_ne_zero (n := room) (by omega)
          rw [linesFrom, linesFrom]
          cases read : fgets size file with
          | none => rfl
          | some both =>
              obtain ⟨line, rest⟩ := both
              have shorter := fgets_shorter enough read
              have more : linesFrom size room rest = linesFrom size rest.length rest :=
                ih room (by omega) (by omega)
              have fewer : linesFrom size length rest = linesFrom size rest.length rest :=
                ih length (by omega) (by omega)
              simp only [more, fewer]

theorem lines_fgets (enough : 2 ≤ size) (read : fgets size file = some (line, rest)) :
    lines size file = cText line :: lines size rest := by
  have shorter := fgets_shorter enough read
  obtain ⟨length, left⟩ := Nat.exists_eq_add_one_of_ne_zero (Nat.ne_zero_of_lt shorter)
  rw [lines, left, linesFrom, read]
  simp only [linesFrom_enough enough (show rest.length ≤ length by omega)]

theorem fgets_newline (free : '\n' ∉ text) (fits : text.length + 1 < size) (rest : List Char) :
    fgets size (text ++ '\n' :: rest) = some (text ++ ['\n'], rest) := by
  rw [fgets, if_neg (by simp), takeLine_newline free (by omega)]

theorem cText_eq (plain : '\x00' ∉ text) : cText text = text := by
  rw [cText, List.takeWhile_eq_self_iff]
  intro c member
  have different : c ≠ '\x00' := fun same => plain (same ▸ member)
  simpa using different

/-- Lines that fit the buffer come back as they were written. -/
theorem lines_written {texts : List (List Char)}
    (short : ∀ text ∈ texts, '\n' ∉ text ∧ '\x00' ∉ text ∧ text.length + 1 < size) :
    lines size (texts.flatMap fun text => text ++ ['\n']) = texts.map fun text => text ++ ['\n'] := by
  induction texts with
  | nil => rfl
  | cons text texts ih =>
      obtain ⟨free, plain, fits⟩ := short text List.mem_cons_self
      have read := fgets_newline free fits (texts.flatMap fun text => text ++ ['\n'])
      rw [List.flatMap_cons, List.append_assoc, List.singleton_append,
        lines_fgets (by omega) read, ih fun other member => short other (List.mem_cons_of_mem _ member),
        cText_eq (by simpa using plain), List.map_cons]

end

end Libc
