import Mathlib.Data.List.Basic

/-!
# Text

The functions on texts that the parsers call, on lists of characters.
-/

namespace RatatoskrTelegram

/-- `str::split_once`. -/
def splitOnce (separator : Char) (text : List Char) : Option (List Char × List Char) :=
  if separator ∈ text then
    some (text.takeWhile (· ≠ separator),(text.dropWhile (· ≠ separator)).tail)
  else none

/-- `str::parse` into an unsigned integer below `bound`; a leading plus sign is admitted. -/
def parseUnsigned (bound : ℕ) (text : List Char) : Option ℕ :=
  let digits := if text.head? = some '+' then text.tail else text
  let value := digits.foldl (fun n c => 10 * n + (c.toNat - '0'.toNat)) 0
  if digits ≠ [] ∧ digits.all Char.isDigit = true ∧ value < bound then some value else none

/-- `str::trim`, on ASCII text. -/
def trimAscii (text : List Char) : List Char :=
  ((text.dropWhile Char.isWhitespace).reverse.dropWhile Char.isWhitespace).reverse

/-- `str::strip_prefix` of one character, or the text itself. -/
def stripPrefix (c : Char) (text : List Char) : List Char :=
  if text.head? = some c then text.tail else text

/-- `str::strip_suffix` of one character, or the text itself. -/
def stripSuffix (c : Char) (text : List Char) : List Char :=
  if text.getLast? = some c then text.dropLast else text

/-- `str::split_inclusive` at line feeds. -/
def splitInclusive : List Char → List (List Char)
  | [] => []
  | c :: rest =>
    if c = '\n' then [c] :: splitInclusive rest
    else
      match splitInclusive rest with
      | [] => [[c]]
      | line :: more => (c :: line) :: more

/-- `str::lines`: a carriage return goes with the line feed it stands before. -/
def textLines (text : List Char) : List (List Char) :=
  (splitInclusive text).map fun line =>
    if line.getLast? = some '\n' then stripSuffix '\r' line.dropLast else line

end RatatoskrTelegram
