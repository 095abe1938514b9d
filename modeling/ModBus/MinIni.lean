import Mathlib.Data.List.DropRight
import ModBus.Lines
import ModBus.Object

/-! `ini.c`: the parser of configuration files. Texts are C strings, a file is
read by lines of `INI_BUFFERSIZE` bytes, and the first section and key that match
count. -/

namespace MinIni

open Libc ModBus

def iniBuffersize : Nat := 512

inductive QuoteOption
  | none
  | enquote
  | dequote
  deriving DecidableEq, Repr

def isBlank (c : Char) : Bool := decide (0 < c.toNat ∧ c.toNat ≤ 32)

def skipleading (str : List Char) : List Char := str.dropWhile isBlank

def striptrailing (str : List Char) : List Char := str.rdropWhile isBlank

def upcase (c : Char) : Char := if 'a' ≤ c ∧ c ≤ 'z' then Char.ofNat (c.toNat - 32) else c

/-- Zero for equal texts; of other results nobody looks at the sign. -/
def strnicmp : List Char → List Char → Nat → Int
  | _, _, 0 => 0
  | [], [], _ + 1 => 0
  | c :: _, [], _ + 1 => (upcase c).toNat
  | [], c :: _, _ + 1 => -(upcase c).toNat
  | c :: s1, d :: s2, n + 1 =>
      if upcase c = upcase d then strnicmp s1 s2 n
      else ((upcase c).toNat : Int) - (upcase d).toNat

def escaped : Nat → List Char → List Char
  | 0, _ => []
  | _ + 1, [] => []
  | room + 1, c :: source =>
      if c = '"' then
        -- There must be space for the escape character and the one that follows.
        if room = 0 then [] else '\\' :: '"' :: escaped (room - 1) source
      else c :: escaped room source

def unescaped : Nat → List Char → List Char
  | 0, _ => []
  | _ + 1, [] => []
  | _ + 1, [c] => [c]
  | room + 1, c :: d :: source =>
      if (c = '"' ∨ c = '\\') ∧ d = '"' then '"' :: unescaped room source
      else c :: unescaped room (d :: source)

def copied (source : List Char) (maxlen : Nat) (option : QuoteOption) : List Char :=
  match option with
  | .none => source.take (maxlen - 1)
  | .enquote =>
      if maxlen < 3 then source.take (maxlen - 1)
      else '"' :: (escaped (maxlen - 3) source ++ ['"'])
  | .dequote => unescaped (maxlen - 1) source

/-- Bytes from the line buffer to the caller's, with which it does not overlap. -/
structure Gap where
  bytes : Int
  disjoint : bytes ≤ 0 ∨ (iniBuffersize : Int) ≤ bytes

/-- `source` starts that far into the line buffer. The assertion counts `maxlen`
bytes from there, also where the text is short. -/
def saveStrncpy (gap : Gap) (start : Nat) (source : List Char) (maxlen : Nat)
    (option : QuoteOption) : Except Fault (List Char) :=
  if 0 < maxlen ∧ (gap.bytes ≤ start ∨ (start + maxlen : Int) ≤ gap.bytes) then
    .ok (copied source maxlen option)
  else .error .assertFailed

def uncommented : Bool → List Char → List Char
  | _, [] => []
  | isstring, [c] => if (c = ';' ∨ c = '#') ∧ isstring = false then [] else [c]
  | isstring, c :: d :: text =>
      if (c = ';' ∨ c = '#') ∧ isstring = false then []
      else if (c = '"' ∨ c = '\\') ∧ d = '"' then c :: d :: uncommented isstring text
      else if c = '"' then c :: uncommented (!isstring) (d :: text)
      else c :: uncommented isstring (d :: text)

def cleanstring (string : List Char) : List Char × QuoteOption :=
  match striptrailing (uncommented false string) with
  | '"' :: rest =>
      if ('"' :: rest).getLast? = some '"' then (rest.dropLast, .dequote) else ('"' :: rest, .none)
  | other => (other, .none)

def behind (line rest : List Char) : Nat := line.length - rest.length

def headerName (line : List Char) : Option (List Char) :=
  match skipleading line with
  | '[' :: rest => if ']' ∈ rest then some (rest.takeWhile (· ≠ ']')) else none
  | _ => none

def splitEntry (line : List Char) : Option (List Char × List Char) :=
  if '=' ∈ line then some (line.takeWhile (· ≠ '='), (line.dropWhile (· ≠ '=')).tail)
  else if ':' ∈ line then some (line.takeWhile (· ≠ ':'), (line.dropWhile (· ≠ ':')).tail)
  else none

def seekSection (section' : List Char) (idxSection : Int) :
    Int → List (List Char) → Option (Int × List Char × List Char × List (List Char))
  | _, [] => none
  | idx, line :: file =>
      match headerName line with
      | none => seekSection section' idxSection idx file
      | some name =>
          if name.length = section'.length ∧ strnicmp name section' section'.length = 0 then
            some (idx, line, name, file)
          else if idx + 1 = idxSection then some (idx + 1, line, name, file)
          else seekSection section' idxSection (idx + 1) file

def seekKey (key : List Char) (idxKey : Int) :
    Int → List (List Char) → Option (Int × List Char × List Char × List Char)
  | _, [] => none
  | idx, line :: file =>
      let sp := skipleading line
      if sp.head? = some '[' then none
      else if sp.head? = some ';' ∨ sp.head? = some '#' then seekKey key idxKey idx file
      else
        match splitEntry sp with
        | none => seekKey key idxKey idx file
        | some (name, text) =>
            let name := striptrailing name
            if key.length ≠ 0 ∧ name.length = key.length ∧ strnicmp sp key key.length = 0 then
              some (idx, line, name, text)
            else if idx + 1 = idxKey then some (idx + 1, line, name, text)
            else seekKey key idxKey (idx + 1) file

def keyFrom (gap : Gap) (file : List (List Char)) (key : List Char) (idxKey : Int)
    (bufferSize : Nat) : Except Fault (Option (List Char)) :=
  match seekKey key idxKey (-1) file with
  | none => .ok none
  | some (idx, line, name, text) =>
      if 0 ≤ idxKey then
        if idx = idxKey then
          (saveStrncpy gap (behind line (skipleading line)) name bufferSize .none).map some
        else .ok none
      else
        let value := cleanstring (skipleading text)
        -- The opening quote is skipped.
        let start := behind line (skipleading text) + if value.2 = .dequote then 1 else 0
        (saveStrncpy gap start value.1 bufferSize value.2).map some

/-- `none` stands for the return value 0; a section or key that is NULL has no
characters. -/
def getkeystring (gap : Gap) (fp : List (List Char)) (section' key : List Char)
    (idxSection idxKey : Int) (bufferSize : Nat) : Except Fault (Option (List Char)) :=
  if 0 < section'.length ∨ 0 ≤ idxSection then
    match seekSection section' idxSection (-1) fp with
    | none => .ok none
    | some (idx, line, name, file) =>
        if 0 ≤ idxSection then
          if idx = idxSection then
            (saveStrncpy gap (behind line (skipleading line) + 1) name bufferSize .none).map some
          else .ok none
        else keyFrom gap file key idxKey bufferSize
  else keyFrom gap fp key idxKey bufferSize

/-- A file that cannot be opened is `none`; a default is a literal, which no buffer is
near. -/
def iniGets (gap : Gap) (section' key defValue : List Char) (bufferSize : Nat)
    (file : Option (List Char)) : Except Fault (List Char) :=
  if bufferSize = 0 then .ok []
  else
    match file with
    | none => .ok (copied defValue bufferSize .none)
    | some text =>
        (getkeystring gap (lines iniBuffersize text) section' key (-1) (-1) bufferSize).map
          fun found => found.getD (copied defValue bufferSize .none)

def iniGetsection (gap : Gap) (idx : Nat) (bufferSize : Nat) (file : Option (List Char)) :
    Except Fault (List Char) :=
  if bufferSize = 0 then .ok []
  else
    match file with
    | none => .ok []
    | some text =>
        (getkeystring gap (lines iniBuffersize text) [] [] idx (-1) bufferSize).map (·.getD [])

end MinIni
