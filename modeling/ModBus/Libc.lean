import Mathlib.Algebra.Ring.Int.Defs
import Mathlib.Algebra.Ring.Nat
import Mathlib.Data.List.TakeWhile
import Mathlib.Tactic.Common

/-! C strings and the conversions of the C library between text and numbers.
A C string is a `String` whose characters are its bytes, without the
terminating NUL. -/

namespace Libc

def cString (bytes : String) : String :=
  String.ofList (bytes.toList.takeWhile (· ≠ '\x00'))

def decimal (n : Int) : String :=
  String.ofList (if n < 0 then '-' :: Nat.toDigits 10 n.natAbs else Nat.toDigits 10 n.natAbs)

def longMax : Int := 2 ^ 63 - 1

def longMin : Int := -2 ^ 63

def isSpace (c : Char) : Bool :=
  c = ' ' || c = '\t' || c = '\n' || c = '\x0b' || c = '\x0c' || c = '\r'

def leadingDigits (cs : List Char) : Int :=
  Nat.ofDigitChars 10 (cs.takeWhile Char.isDigit) 0

/-- `strtol` in base ten, which saturates at the ends of `long`. -/
def strtol (text : String) : Int :=
  match text.toList.dropWhile isSpace with
  | '-' :: cs => max longMin (-leadingDigits cs)
  | '+' :: cs => min longMax (leadingDigits cs)
  | cs => min longMax (leadingDigits cs)

def atoi (text : String) : Int32 := Int32.ofInt (strtol text)

/-- All the tokens that repeated `strtok` calls give: runs of separators count
as one, and an empty token is never given. -/
def strtokFrom (separator : Char) : List Char → List Char → List String
  | token, [] => if token.isEmpty then [] else [String.ofList token.reverse]
  | token, c :: cs =>
      if c = separator then
        (if token.isEmpty then [] else [String.ofList token.reverse]) ++
          strtokFrom separator [] cs
      else strtokFrom separator (c :: token) cs

def strtok (separator : Char) (text : String) : List String :=
  strtokFrom separator [] text.toList

def upperHexDigit (n : Nat) : Char :=
  if n < 10 then Char.ofNat (48 + n) else Char.ofNat (55 + n)

def hexValue? (c : Char) : Option Nat :=
  if '0' ≤ c ∧ c ≤ '9' then some (c.toNat - 48)
  else if 'A' ≤ c ∧ c ≤ 'F' then some (c.toNat - 55)
  else if 'a' ≤ c ∧ c ≤ 'f' then some (c.toNat - 87)
  else none

def strhex (bytes : List UInt8) : String :=
  String.ofList (bytes.flatMap fun byte =>
    [upperHexDigit (byte.toNat / 16), upperHexDigit (byte.toNat % 16)])

/-- `sscanf` with `%2hhx`: at most two characters after any white space; `none`
when no byte is assigned. -/
def sscanfByte (text : List Char) : Option UInt8 :=
  match (text.dropWhile isSpace).take 2 with
  | [] => none
  | [c] => (hexValue? c).map UInt8.ofNat
  | c :: d :: _ =>
      if c = '-' then (hexValue? d).map fun low => 0 - UInt8.ofNat low
      else if c = '+' then (hexValue? d).map UInt8.ofNat
      else (hexValue? c).map fun high =>
        match hexValue? d with
        | some low => UInt8.ofNat (16 * high + low)
        | none => UInt8.ofNat high

theorem cString_eq {text : String} (plain : '\x00' ∉ text.toList) : cString text = text := by
  have whole : text.toList.takeWhile (· ≠ '\x00') = text.toList := by
    rw [List.takeWhile_eq_self_iff]
    intro c member
    have different : c ≠ '\x00' := by
      rintro rfl
      exact plain member
    simpa using different
  rw [cString, whole, String.ofList_toList]

theorem nul_notMem_cString (bytes : String) : '\x00' ∉ (cString bytes).toList := by
  rw [cString, String.toList_ofList]
  intro member
  simpa using List.mem_takeWhile_imp member

theorem strtokFrom_tokens {separator : Char} {token cs : List Char} {word : String}
    (inside : separator ∉ token) (member : word ∈ strtokFrom separator token cs) :
    word ≠ "" ∧ separator ∉ word.toList ∧ ∀ c ∈ word.toList, c ∈ token ∨ c ∈ cs := by
  induction cs generalizing token with
  | nil =>
      cases token with
      | nil => cases member
      | cons c token =>
          rw [strtokFrom, List.isEmpty_cons, if_neg (by simp), List.mem_singleton] at member
          subst member
          refine ⟨?_, ?_, ?_⟩
          · simp [← String.toList_inj]
          · simpa [and_comm] using inside
          · intro other among
            simpa [or_comm] using among
  | cons c cs ih =>
      simp only [strtokFrom] at member
      split at member
      · rcases List.mem_append.mp member with now | later
        · cases token with
          | nil => cases now
          | cons first token =>
              rw [List.isEmpty_cons, if_neg (by simp), List.mem_singleton] at now
              subst now
              refine ⟨?_, ?_, ?_⟩
              · simp [← String.toList_inj]
              · simpa [and_comm] using inside
              · intro other among
                left
                simpa [or_comm] using among
        · obtain ⟨full, free, chars⟩ := ih List.not_mem_nil later
          refine ⟨full, free, fun other among => Or.inr ?_⟩
          exact List.mem_cons_of_mem _ ((chars other among).resolve_left List.not_mem_nil)
      · rename_i different
        have still : separator ∉ c :: token := by
          rw [List.mem_cons, not_or]
          exact ⟨fun same => different same.symm, inside⟩
        obtain ⟨full, free, chars⟩ := ih still member
        refine ⟨full, free, fun other among => ?_⟩
        rcases chars other among with before | after
        · rcases List.mem_cons.mp before with rfl | before
          · exact Or.inr List.mem_cons_self
          · exact Or.inl before
        · exact Or.inr (List.mem_cons_of_mem _ after)

theorem strtokFrom_word {separator : Char} {word : List Char} (free : separator ∉ word)
    (token rest : List Char) :
    strtokFrom separator token (word ++ separator :: rest) =
      (if (token.reverse ++ word).isEmpty then [] else [String.ofList (token.reverse ++ word)]) ++
        strtokFrom separator [] rest := by
  induction word generalizing token with
  | nil => simp [strtokFrom]
  | cons c word ih =>
      have different : c ≠ separator := fun same => free (same ▸ List.mem_cons_self)
      have later := ih (fun member => free (List.mem_cons_of_mem _ member)) (c :: token)
      rw [List.cons_append, strtokFrom, if_neg different, later]
      simp

theorem strtokFrom_last {separator : Char} {word : List Char} (free : separator ∉ word)
    (token : List Char) :
    strtokFrom separator token word =
      if (token.reverse ++ word).isEmpty then [] else [String.ofList (token.reverse ++ word)] := by
  induction word generalizing token with
  | nil => simp [strtokFrom]
  | cons c word ih =>
      have different : c ≠ separator := fun same => free (same ▸ List.mem_cons_self)
      have later := ih (fun member => free (List.mem_cons_of_mem _ member)) (c :: token)
      rw [strtokFrom, if_neg different, later]
      simp

theorem leadingDigits_toDigits (n : Nat) : leadingDigits (Nat.toDigits 10 n) = n := by
  have digits : (Nat.toDigits 10 n).takeWhile Char.isDigit = Nat.toDigits 10 n := by
    rw [List.takeWhile_eq_self_iff]
    intro c member
    exact Nat.isDigit_of_mem_toDigits (by omega) (by omega) member
  rw [leadingDigits, digits, Nat.ofDigitChars_toDigits (by omega) (by omega)]

theorem strtol_decimal (n : Int) (lower : longMin ≤ n) (upper : n ≤ longMax) :
    strtol (decimal n) = n := by
  by_cases negative : n < 0
  · have start : (decimal n).toList.dropWhile isSpace = '-' :: Nat.toDigits 10 n.natAbs := by
      simp [decimal, negative, isSpace]
    simp only [strtol, start, leadingDigits_toDigits]
    omega
  · have start : (decimal n).toList.dropWhile isSpace = Nat.toDigits 10 n.natAbs := by
      simp only [decimal, negative, if_false, String.toList_ofList]
      cases digits : Nat.toDigits 10 n.natAbs with
      | nil => rfl
      | cons c cs =>
          have digit : c.isDigit = true :=
            Nat.isDigit_of_mem_toDigits (b := 10) (n := n.natAbs) (by omega) (by omega)
              (by simp [digits])
          have visible : isSpace c = false := by
            by_contra space
            simp only [Bool.not_eq_false, isSpace, Bool.or_eq_true, decide_eq_true_eq] at space
            rcases space with ((((space | space) | space) | space) | space) | space <;>
              subst space <;> simp at digit
          simp [visible]
    have value := leadingDigits_toDigits n.natAbs
    simp only [strtol, start]
    split
    · rename_i cs shape
      have digit : ('-' : Char).isDigit = true :=
        Nat.isDigit_of_mem_toDigits (b := 10) (n := n.natAbs) (by omega) (by omega)
          (by simp [shape])
      simp at digit
    · rename_i cs shape
      have digit : ('+' : Char).isDigit = true :=
        Nat.isDigit_of_mem_toDigits (b := 10) (n := n.natAbs) (by omega) (by omega)
          (by simp [shape])
      simp at digit
    · rw [value]
      omega

theorem int32_bounds (n : Int32) : longMin ≤ n.toInt ∧ n.toInt ≤ longMax := by
  have lower := n.le_toInt
  have upper := n.toInt_lt
  simp only [longMin, longMax]
  omega

@[simp] theorem strtol_decimal_int32 (n : Int32) : strtol (decimal n.toInt) = n.toInt :=
  strtol_decimal _ (int32_bounds n).1 (int32_bounds n).2

@[simp] theorem atoi_decimal (n : Int32) : atoi (decimal n.toInt) = n := by
  rw [atoi, strtol_decimal_int32, Int32.ofInt_toInt]

/-- A 64-bit number printed as `long` and read as `int` comes back if it is one. -/
theorem atoi_version (ver : UInt64) :
    (atoi (decimal ver.toInt64.toInt)).toInt64.toUInt64 = ver ↔
      ver.toNat < 2 ^ 31 ∨ 2 ^ 64 - 2 ^ 31 ≤ ver.toNat := by
  have small := ver.toNat_lt
  have read : strtol (decimal ver.toInt64.toInt) = ver.toInt64.toInt := by
    have lower := ver.toInt64.le_toInt
    have upper := ver.toInt64.toInt_lt
    apply strtol_decimal
    · simp only [longMin]
      omega
    · simp only [longMax]
      omega
  have signed : ver.toInt64.toInt = (ver.toNat : Int).bmod (2 ^ 64) := by
    rw [← Int64.toInt_toBitVec, UInt64.toBitVec_toInt64, BitVec.toInt_eq_toNat_bmod,
      UInt64.toNat_toBitVec]
  have cut : (atoi (decimal ver.toInt64.toInt)).toInt64.toInt =
      (ver.toInt64.toInt).bmod (2 ^ 32) := by
    rw [atoi, read]
    simp
  constructor
  · intro same
    have equal : (atoi (decimal ver.toInt64.toInt)).toInt64.toInt = ver.toInt64.toInt := by
      rw [← same]
      simp
    rw [cut, signed, Int.bmod_def, Int.bmod_def] at equal
    omega
  · intro range
    have equal : (atoi (decimal ver.toInt64.toInt)).toInt64.toInt = ver.toInt64.toInt := by
      rw [cut, signed, Int.bmod_def, Int.bmod_def]
      omega
    rw [Int64.toInt_inj.mp equal]
    simp

theorem decimal_chars (n : Int) : ∀ c ∈ (decimal n).toList, c = '-' ∨ c.isDigit = true := by
  intro c member
  have digit : c ∈ Nat.toDigits 10 n.natAbs → c.isDigit = true := fun among =>
    Nat.isDigit_of_mem_toDigits (by omega) (by omega) among
  rw [decimal, String.toList_ofList] at member
  split at member
  · exact (List.mem_cons.mp member).imp_right digit
  · exact Or.inr (digit member)

theorem colon_notMem_decimal (n : Int) : ':' ∉ (decimal n).toList := by
  intro member
  rcases decimal_chars n ':' member with minus | digit <;> simp at *

theorem nul_notMem_decimal (n : Int) : '\x00' ∉ (decimal n).toList := by
  intro member
  rcases decimal_chars n '\x00' member with minus | digit <;> simp at *

theorem decimal_ne_empty (n : Int) : decimal n ≠ "" := by
  rw [decimal, Ne, ← String.toList_inj, String.toList_ofList]
  split
  · simp
  · simp

theorem decimal_injective_int32 {n m : Int32} (same : decimal n.toInt = decimal m.toInt) :
    n = m := by
  rw [← atoi_decimal n, same, atoi_decimal]

theorem upperHexDigit_scans : ∀ n < 16, hexValue? (upperHexDigit n) = some n ∧
    isSpace (upperHexDigit n) = false ∧ upperHexDigit n ≠ '-' ∧ upperHexDigit n ≠ '+' ∧
    upperHexDigit n ≠ ':' := by
  decide

@[simp] theorem strhex_nil : strhex [] = "" := rfl

theorem strhex_toList_cons (byte : UInt8) (bytes : List UInt8) :
    (strhex (byte :: bytes)).toList =
      upperHexDigit (byte.toNat / 16) :: upperHexDigit (byte.toNat % 16) :: (strhex bytes).toList := by
  simp [strhex]

theorem strhex_length (bytes : List UInt8) : (strhex bytes).length = 2 * bytes.length := by
  induction bytes with
  | nil => rfl
  | cons byte bytes ih =>
      rw [← String.length_toList, strhex_toList_cons, List.length_cons, List.length_cons,
        String.length_toList, ih, List.length_cons]
      omega

/-- No text of hex digits is an endpoint `transport://address`. -/
theorem colon_notMem_strhex (bytes : List UInt8) : ':' ∉ (strhex bytes).toList := by
  induction bytes with
  | nil => simp
  | cons byte bytes ih =>
      have small := byte.toNat_lt
      rw [strhex_toList_cons]
      intro member
      rcases List.mem_cons.mp member with same | member
      · exact (upperHexDigit_scans _ (by omega)).2.2.2.2 same.symm
      · rcases List.mem_cons.mp member with same | member
        · exact (upperHexDigit_scans _ (by omega)).2.2.2.2 same.symm
        · exact ih member

theorem sscanfByte_hex (byte : UInt8) (rest : List Char) :
    sscanfByte (upperHexDigit (byte.toNat / 16) :: upperHexDigit (byte.toNat % 16) :: rest) =
      some byte := by
  have small := byte.toNat_lt
  obtain ⟨high, highSpace, minus, plus, _⟩ := upperHexDigit_scans (byte.toNat / 16) (by omega)
  obtain ⟨low, _⟩ := upperHexDigit_scans (byte.toNat % 16) (by omega)
  have joined : 16 * (byte.toNat / 16) + byte.toNat % 16 = byte.toNat := by omega
  simp [sscanfByte, highSpace, minus, plus, high, low, joined, -UInt8.ofNat_add, -UInt8.ofNat_mul]

theorem strhex_drop (bytes : List UInt8) (count : Nat) :
    (strhex bytes).toList.drop (2 * count) = (strhex (bytes.drop count)).toList := by
  induction count generalizing bytes with
  | zero => rfl
  | succ count ih =>
      cases bytes with
      | nil => simp
      | cons byte bytes =>
          rw [strhex_toList_cons, Nat.mul_succ, List.drop_succ_cons, List.drop_succ_cons,
            List.drop_succ_cons]
          exact ih bytes

theorem sscanfByte_strhex (bytes : List UInt8) :
    sscanfByte (strhex bytes).toList = bytes.head? := by
  cases bytes with
  | nil => rfl
  | cons byte bytes =>
      rw [strhex_toList_cons, sscanfByte_hex]
      rfl

end Libc
