import ClassScript.Json.Fault

/-!
The words of JSON text: blanks, literal words, numbers and strings. A scanner
takes the rest of the text and returns what it read with what is left, or the
first fault.
-/

namespace ClassScript.Json

/-- A reader of JSON text; its state is the text not yet read. -/
abbrev Decoder (α : Type) := StateT (List Char) (Except Fault) α

def isBlank (c : Char) : Bool :=
  c = ' ' || c = '\n' || c = '\t' || c = '\r'

/-- The next character that is not blank. Blanks before it are dropped, the
character itself stays. -/
def peek : Decoder (Option Char) := fun text =>
  let rest := text.dropWhile isBlank
  .ok (rest.head?, rest)

/-- Drops the next character. -/
def advance : Decoder Unit := fun text => .ok ((), text.drop 1)

/-- The rest of a literal word whose first letter has been read. -/
def word : List Char → Decoder Unit
  | [] => pure ()
  | c :: rest => do
      match ← get with
      | [] => throw (.unfinished .value)
      | d :: text =>
          if c = d then
            set text
            word rest
          else throw .expectedWord

/-! Numbers are scanned into their digits first and valued afterwards. -/

/-- A scanned number: the digits before and after the point, and the exponent.
`isWhole` tells that there was neither a point nor an exponent. -/
structure NumberToken where
  negative : Bool
  whole : List Char
  fraction : List Char
  exponent : Int
  isWhole : Bool

/-- The longest run of digits. -/
def digitRun : Decoder (List Char) := fun text =>
  .ok (text.takeWhile Char.isDigit, text.dropWhile Char.isDigit)

/-- A run of digits that may not be empty. A skipped number does not tell the
end of the text from a wrong character. -/
def someDigits (skipped : Bool) : Decoder (List Char) := do
  let ended := (← get).isEmpty
  let digits ← digitRun
  if digits.isEmpty then
    throw (if ended && !skipped then .unfinished .value else .invalidNumber)
  return digits

/-- The digits before the point. A zero stands alone. -/
def wholeDigits (skipped : Bool) : Decoder (List Char) := do
  let digits ← someDigits skipped
  if digits.head? = some '0' && 1 < digits.length then throw .invalidNumber
  return digits

def fractionDigits (skipped : Bool) : Decoder (Option (List Char)) := do
  if (← get).head? = some '.' then
    advance
    return some (← someDigits skipped)
  else return none

def exponentPart (skipped : Bool) : Decoder (Option Int) := do
  let head := (← get).head?
  if head = some 'e' || head = some 'E' then
    advance
    let sign := (← get).head?
    if sign = some '-' || sign = some '+' then advance
    let value := Text.digitsValue (← someDigits skipped)
    return some (if sign = some '-' then -(value : Int) else value)
  else return none

/-- A number, from its sign or first digit on. -/
def numberToken (skipped : Bool) : Decoder NumberToken := do
  let negative : Bool := (← get).head? = some '-'
  if negative then advance
  let whole ← wholeDigits skipped
  let fraction ← fractionDigits skipped
  let exponent ← exponentPart skipped
  return {
    negative, whole
    fraction := fraction.getD []
    exponent := exponent.getD 0
    isWhole := fraction.isNone && exponent.isNone }

/-- A number that has been read: an integer of the 64-bit ranges, or a real. -/
inductive Numeral where
  | integer (value : Int)
  | real (bits : Nat)

/-- The nearest real number; it has to be finite. -/
def NumberToken.real (t : NumberToken) : Except Fault Numeral :=
  let magnitude := Number.double.ofDecimal (Text.digitsValue (t.whole ++ t.fraction))
    (t.exponent - t.fraction.length)
  if Number.double.infinity ≤ magnitude then .error .numberOutOfRange
  else .ok (.real (Number.double.withSign t.negative magnitude))

/-- The value of a number. Whole numbers outside the 64-bit ranges are reals,
and so is zero with a minus sign. -/
def NumberToken.value (t : NumberToken) : Except Fault Numeral :=
  let whole := Text.digitsValue t.whole
  if t.isWhole && !t.negative && whole < UInt64.size then .ok (.integer whole)
  else if t.isWhole && t.negative && 0 < whole && Int64.minValue.toInt ≤ -(whole : Int) then
    .ok (.integer (-whole))
  else t.real

def numeral : Decoder Numeral := do
  StateT.lift (← numberToken false).value

/-! Strings are scanned from behind the opening quote to behind the closing
one. -/

/-- The number written by four hexadecimal digits. The text has ended when
fewer than four bytes are left, whatever they are. -/
def hexEscape : List Char → Except Fault (Nat × List Char)
  | a :: b :: c :: d :: rest =>
      match [a, b, c, d].mapM Text.hexValue? with
      | some digits => .ok (digits.foldl (fun value d => value * 16 + d) 0, rest)
      | none => .error .invalidEscape
  | short =>
      if (String.ofList short).utf8ByteSize < 4 then .error (.unfinished .string)
      else .error .invalidEscape

/-- The character of a `\u` escape. Two surrogates make up one character;
neither may stand alone. -/
def unicodeEscape (text : List Char) : Except Fault (Char × List Char) := do
  let (first, rest) ← hexEscape text
  if 0xDC00 ≤ first && first ≤ 0xDFFF then throw .loneSurrogate
  else if 0xD800 ≤ first && first ≤ 0xDBFF then
    match rest with
    | [] => throw (.unfinished .string)
    | ['\\'] => throw (.unfinished .string)
    | '\\' :: 'u' :: rest =>
        let (second, rest) ← hexEscape rest
        if 0xDC00 ≤ second && second ≤ 0xDFFF then
          return (Char.ofNat (0x10000 + (first - 0xD800) * 0x400 + (second - 0xDC00)), rest)
        else throw .loneSurrogate
    | _ => throw .unfinishedPair
  else return (Char.ofNat first, rest)

/-- The character of an escape other than `\u`. -/
def simpleEscape? : Char → Option Char
  | '"' => some '"'
  | '\\' => some '\\'
  | '/' => some '/'
  | 'b' => some '\x08'
  | 'f' => some '\x0c'
  | 'n' => some '\n'
  | 'r' => some '\r'
  | 't' => some '\t'
  | _ => none

/-- What follows a backslash: the character meant and the rest. -/
def escapeSequence : List Char → Except Fault (Char × List Char)
  | [] => .error (.unfinished .string)
  | 'u' :: rest => unicodeEscape rest
  | c :: rest =>
      match simpleEscape? c with
      | some meant => .ok (meant, rest)
      | none => .error .invalidEscape

/-- As `escapeSequence`, for a text that is skipped: surrogates go unchecked. -/
def skippedEscape : List Char → Except Fault (Char × List Char)
  | 'u' :: rest => do
      let (_, rest) ← hexEscape rest
      return ('u', rest)
  | text => escapeSequence text

/-- The characters up to the closing quote. `escaped` reads what follows a
backslash, and `fuel` bounds the number of characters. -/
def stringChars (escaped : List Char → Except Fault (Char × List Char)) :
    Nat → List Char → Except Fault (List Char × List Char)
  | 0, _ => .error (.unfinished .string)
  | _ + 1, [] => .error (.unfinished .string)
  | fuel + 1, c :: rest =>
      if c = '"' then .ok ([], rest)
      else if c = '\\' then do
        let (meant, rest) ← escaped rest
        let (chars, rest) ← stringChars escaped fuel rest
        return (meant :: chars, rest)
      else if c.toNat < 0x20 then .error .controlCharacter
      else do
        let (chars, rest) ← stringChars escaped fuel rest
        return (c :: chars, rest)

/-- A string, its opening quote still unread. -/
def quotedString : Decoder String := fun text => do
  let (chars, rest) ← stringChars escapeSequence text.length (text.drop 1)
  return (String.ofList chars, rest)

end ClassScript.Json
