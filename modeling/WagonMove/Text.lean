import Mathlib.Algebra.Group.Nat.Defs
import Mathlib.Data.Int.Notation
import Mathlib.Data.List.DropRight

/-!
# Text built-ins of the scripts

`Trim`, `Integer` and the regular expressions of `NormalizeHex`, with the numeric notation that
AutoHotkey accepts in strings, the units that `StrLen` and `SubStr` count, and the colour arithmetic
that works on the parsed number.
-/

namespace WagonMove

/-- What `Trim` takes away at both ends. -/
def isBlank (c : Char) : Bool := c = ' ' || c = '\t'

def trimChars (cs : List Char) : List Char := (cs.dropWhile isBlank).rdropWhile isBlank

def trim (s : String) : String := String.ofList (trimChars s.toList)

/-- The class `\s` of the regular expressions. The vertical tab is not in it. -/
def isSpace (c : Char) : Bool :=
  c = ' ' || c = '\t' || c = '\n' || c = '\x0c' || c = '\r'

def isDecDigit (c : Char) : Bool := '0' ≤ c && c ≤ '9'

/-- The class `[0-9a-f]` under the option `i)`. -/
def isHexDigit (c : Char) : Bool :=
  isDecDigit c || ('a' ≤ c && c ≤ 'f') || ('A' ≤ c && c ≤ 'F')

def digitValue (c : Char) : ℕ :=
  if isDecDigit c then c.toNat - '0'.toNat
  else if 'a' ≤ c then c.toNat - 'a'.toNat + 10
  else c.toNat - 'A'.toNat + 10

def digitsValue (base : ℕ) (cs : List Char) : ℕ :=
  cs.foldl (fun n c => n * base + digitValue c) 0

def takeSign : List Char → ℤ × List Char
  | '-' :: cs => (-1, cs)
  | '+' :: cs => (1, cs)
  | cs => (1, cs)

/-- The digits before and after the decimal point, if that is all there is. -/
def readMantissa (cs : List Char) : Option (List Char × List Char) :=
  let whole := cs.takeWhile (· ≠ '.')
  let fraction := (cs.dropWhile (· ≠ '.')).drop 1
  if (whole ++ fraction).all isDecDigit && whole ++ fraction ≠ [] then some (whole, fraction)
  else none

def readExponent : List Char → Option ℤ
  | [] => some 0
  | _ :: cs =>
    let (sign, digits) := takeSign cs
    if digits.all isDecDigit && digits ≠ [] then some (sign * digitsValue 10 digits) else none

/-- An unsigned number, cut off to an integer. -/
def readUnsigned (cs : List Char) : Option ℕ :=
  match cs with
  | '0' :: x :: hex =>
    if x = 'x' || x = 'X' then
      if hex.all isHexDigit && hex ≠ [] then some (digitsValue 16 hex) else none
    else readDecimal cs
  | cs => readDecimal cs
where
  readDecimal (cs : List Char) : Option ℕ := do
    let isExponent := fun c : Char => c = 'e' || c = 'E'
    let (whole, fraction) ← readMantissa (cs.takeWhile (!isExponent ·))
    let exponent ← readExponent (cs.dropWhile (!isExponent ·))
    let digits := digitsValue 10 (whole ++ fraction)
    let shift := exponent - fraction.length
    if 0 ≤ shift then some (digits * 10 ^ shift.toNat)
    else some (digits / 10 ^ (-shift).toNat)

/-- `Integer` of a string; `none` where it throws. -/
def integer (s : String) : Option ℤ := do
  let (sign, cs) := takeSign (trimChars s.toList)
  let n ← readUnsigned cs
  return sign * n

/-- `RegExReplace(h, "i)^#", "")`. -/
def dropHash : List Char → List Char
  | '#' :: cs => cs
  | cs => cs

/-- `RegExReplace(h, "i)^0x", "")`. -/
def dropHexPrefix : List Char → List Char
  | '0' :: x :: cs => if x = 'x' || x = 'X' then cs else '0' :: x :: cs
  | cs => cs

def normalizeHex (hex : String) (withPrefix : Bool := true) : String :=
  let h := trimChars hex.toList
  let h := dropHash h
  let h := dropHexPrefix h
  let h := h.filter (!isSpace ·)
  if !(h.all isHexDigit && h.length = 6) then ""
  else
    let h := h.map Char.toUpper
    String.ofList (if withPrefix then '0' :: 'x' :: h else h)

/-- The units that strings consist of: a character beyond the first 2 ^ 16 takes a pair of them. -/
def utf16Units (s : String) : List UInt16 :=
  s.toList.flatMap fun c =>
    if c.toNat < 0x10000 then [.ofNat c.toNat]
    else
      let rest := c.toNat - 0x10000
      [.ofNat (0xd800 + rest / 0x400), .ofNat (0xdc00 + rest % 0x400)]

def rgbToBgr (rgb : ℕ) : ℕ :=
  let r := (rgb >>> 16) &&& 255
  let g := (rgb >>> 8) &&& 255
  let b := rgb &&& 255
  (b <<< 16) ||| (g <<< 8) ||| r

def specialColorNear (c1 c2 : ℕ) (tol : ℤ) : Bool :=
  let r1 : ℤ := ((c1 >>> 16) &&& 255 : ℕ)
  let g1 : ℤ := ((c1 >>> 8) &&& 255 : ℕ)
  let b1 : ℤ := (c1 &&& 255 : ℕ)
  let r2 : ℤ := ((c2 >>> 16) &&& 255 : ℕ)
  let g2 : ℤ := ((c2 >>> 8) &&& 255 : ℕ)
  let b2 : ℤ := (c2 &&& 255 : ℕ)
  (r1 - r2).natAbs ≤ tol && (g1 - g2).natAbs ≤ tol && (b1 - b2).natAbs ≤ tol

example : integer " -0x1F" = some (-31) := by decide
example : integer "12.75e1" = some 127 := by decide
example : integer "0         ; tolerance" = none := by decide

end WagonMove
