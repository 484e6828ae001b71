import Conditions.Json.Tree
import Conditions.Number.Decimal
import Conditions.Number.Scaling

/-!
# Numbers and texts of a document

The two kinds of leaf, each read once for its content and once to be passed over. Where the content
can be read the leaf can be passed over, and both ways end at the same place.
-/

namespace Conditions.Json

/-! ### Numbers -/

/-- The parts of a number as they are written. -/
structure Numeral where
  /-- Whether a minus sign comes first. -/
  negative : Bool
  /-- The digits before the point. -/
  whole : List Char
  /-- The digits after the point, if there is one. -/
  fraction : Option (List Char)
  /-- The power of ten, if one is written. -/
  exponent : Option Int

/-- The fault where a digit should stand. -/
def noDigit : List Char → Fault
  | [] => .truncated
  | _ :: _ => .malformed

/-- Some digits, and what follows them. -/
def readDigits (s : List Char) : Except Fault (List Char × List Char) :=
  match s.takeWhile Char.isDigit with
  | [] => .error (noDigit s)
  | d :: ds => .ok (d :: ds, s.dropWhile Char.isDigit)

/-- The digits before the point, which begin with a zero only if that is all of them. -/
def readWhole (s : List Char) : Except Fault (List Char × List Char) := do
  let (ds, rest) ← readDigits s
  match ds with
  | '0' :: _ :: _ => .error .malformed
  | _ => .ok (ds, rest)

/-- The digits after a point, if a point comes first. -/
def readFraction : List Char → Except Fault (Option (List Char) × List Char)
  | '.' :: s => do
    let (ds, rest) ← readDigits s
    .ok (some ds, rest)
  | s => .ok (none, s)

/-- The power of ten, if its letter comes first. -/
def readExponent : List Char → Except Fault (Option Int × List Char)
  | [] => .ok (none, [])
  | c :: s =>
    if c = 'e' ∨ c = 'E' then do
      let (negative, s) := splitSign s
      let (ds, rest) ← readDigits s
      .ok (some (if negative then -(decimalValue ds : Int) else decimalValue ds), rest)
    else .ok (none, c :: s)

/-- The parts of a number, and what follows it. -/
def readNumeral (s : List Char) : Except Fault (Numeral × List Char) := do
  let (negative, s) := match s with
    | '-' :: s => (true, s)
    | s => (false, s)
  let (whole, s) ← readWhole s
  let (fraction, s) ← readFraction s
  let (exponent, s) ← readExponent s
  .ok (⟨negative, whole, fraction, exponent⟩, s)

/-- Appends digits to a whole number as long as 64 bits hold it, and gives the digits that are
left. -/
def takeDigits (m : Nat) : List Char → Nat × List Char
  | [] => (m, [])
  | d :: ds =>
    let next := 10 * m + (d.toNat - '0'.toNat)
    if next < 0x10000000000000000 then takeDigits next ds else (m, d :: ds)

/-- The digits of a numeral that are kept, as a whole number of 64 bits, and the power of ten that
goes with them. Digits before the point that are left scale the others up; the digits after the
point are appended all the same, as far as there is room, and what is left of them is dropped. -/
def Numeral.scaled (n : Numeral) : Nat × Int :=
  let fraction := n.fraction.getD []
  let (whole, left) := takeDigits 0 n.whole
  let (digits, dropped) := takeDigits whole fraction
  (digits, n.exponent.getD 0 + left.length - (fraction.length - dropped.length : Nat))

/-- The binary64 number that a numeral is read as. It is near to what the numeral denotes, but need
not be nearest: the digits that are kept are rounded before they are scaled. -/
def Numeral.toBinary64 (n : Numeral) : Binary64 :=
  .ofScaled n.negative n.scaled.1 n.scaled.2

/-- The whole number that a numeral without point and power of ten denotes, if 64 bits hold it.
A zero with a minus sign is no whole number. -/
def Numeral.toWhole? (n : Numeral) : Option Int :=
  let m := decimalValue n.whole
  if n.fraction.isSome || n.exponent.isSome then none
  else if n.negative then
    if 0 < m ∧ m ≤ 0x8000000000000000 then some (-(m : Int)) else none
  else if m < 0x10000000000000000 then some m else none

/-- The number that a numeral is read as; one past the largest finite number is malformed. -/
def Numeral.value (n : Numeral) : Except Fault JsonNumber :=
  match n.toWhole? with
  | some i => .ok (.whole i)
  | none => if n.toBinary64.isFinite then .ok (.real n.toBinary64) else .error .malformed

/-- The number at the head of a text, and what follows it. -/
def readNumber (s : List Char) : Leaf JsonNumber × List Char :=
  match readNumeral s with
  | .ok (n, rest) => (⟨n.value, .ok ()⟩, rest)
  | .error fault => (⟨.error fault, .error .malformed⟩, [])

/-! ### Texts -/

/-- The number of a hexadecimal numeral of any length. -/
def hexValue? (s : List Char) : Option Nat :=
  (s.mapM fun c => (digitValue? c).filter (· < 16)).map (·.foldl (fun n d => 16 * n + d) 0)

/-- The number of bytes that encode a text. -/
def byteCount (s : List Char) : Nat := s.foldl (fun n c => n + c.utf8Size) 0

/-- The code unit that four hexadecimal digits give, and what follows them. A text of fewer than
four bytes has ended too early. -/
def readUnit (s : List Char) : Except Fault (Nat × List Char) :=
  if byteCount s < 4 then .error .truncated
  else if (s.take 4).length < 4 then .error .malformed
  else match hexValue? (s.take 4) with
    | some n => .ok (n, s.drop 4)
    | none => .error .malformed

/-- The character that a letter after a backslash stands for, the letter u apart. -/
def shortEscape? : Char → Option Char
  | '"' => some '"'
  | '\\' => some '\\'
  | '/' => some '/'
  | 'b' => some '\x08'
  | 'f' => some '\x0c'
  | 'n' => some '\n'
  | 'r' => some '\r'
  | 't' => some '\t'
  | _ => none

/-- Whether a code unit is the first of a pair. -/
def isHighUnit (n : Nat) : Bool := 0xd800 ≤ n && n ≤ 0xdbff

/-- Whether a code unit is the second of a pair. -/
def isLowUnit (n : Nat) : Bool := 0xdc00 ≤ n && n ≤ 0xdfff

/-- The character of a pair of code units. -/
def ofUnitPair (high low : Nat) : Char :=
  Char.ofNat (0x10000 + (high - 0xd800) * 0x400 + (low - 0xdc00))

/-- The second unit of a pair, which has to follow as an escape of its own. -/
def readLowUnit : List Char → Except Fault (Nat × List Char)
  | [] => .error .truncated
  | ['\\'] => .error .truncated
  | '\\' :: 'u' :: s => do
    let (n, rest) ← readUnit s
    if isLowUnit n then .ok (n, rest) else .error .malformed
  | _ => .error .malformed

/-- The character given by an escape, and what follows it, from after the backslash. -/
def readEscape : List Char → Except Fault (Char × List Char)
  | [] => .error .truncated
  | 'u' :: s => do
    let (n, rest) ← readUnit s
    if isLowUnit n then .error .malformed
    else if isHighUnit n then do
      let (m, rest) ← readLowUnit rest
      .ok (ofUnitPair n m, rest)
    else .ok (Char.ofNat n, rest)
  | c :: s =>
    match shortEscape? c with
    | some d => .ok (d, s)
    | none => .error .malformed

/-- What follows an escape that is passed over, from after the backslash: its code units are not
looked at. -/
def passEscape : List Char → Except Fault (List Char)
  | [] => .error .truncated
  | 'u' :: s => (readUnit s).map (·.2)
  | c :: s => if (shortEscape? c).isSome then .ok s else .error .malformed

/-- The content of a text from after its opening quote, and what follows its closing quote. -/
def readContent : Nat → List Char → Except Fault (List Char × List Char)
  | 0, _ => .error .truncated
  | _ + 1, [] => .error .truncated
  | _ + 1, '"' :: s => .ok ([], s)
  | fuel + 1, '\\' :: s => do
    let (c, s) ← readEscape s
    let (cs, rest) ← readContent fuel s
    .ok (c :: cs, rest)
  | fuel + 1, c :: s =>
    if c.toNat < 0x20 then .error .malformed
    else do
      let (cs, rest) ← readContent fuel s
      .ok (c :: cs, rest)

/-- What follows the closing quote of a text that is passed over, from after its opening quote. -/
def passContent : Nat → List Char → Except Fault (List Char)
  | 0, _ => .error .truncated
  | _ + 1, [] => .error .truncated
  | _ + 1, '"' :: s => .ok s
  | fuel + 1, '\\' :: s => do passContent fuel (← passEscape s)
  | fuel + 1, c :: s => if c.toNat < 0x20 then .error .malformed else passContent fuel s

/-- The text at the head, from after its opening quote, and what follows it. -/
def readText (s : List Char) : Leaf String × List Char :=
  let content := (readContent (s.length + 1) s).map fun read => String.ofList read.1
  match passContent (s.length + 1) s with
  | .ok rest => (⟨content, .ok ()⟩, rest)
  | .error fault => (⟨content, .error fault⟩, [])

end Conditions.Json
