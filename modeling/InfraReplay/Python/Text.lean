import Mathlib.Data.List.DropRight
import Mathlib.Data.Nat.Notation

/-!
# Strings and regular expressions as Python reads them

The pieces of `str` and `re` that decide something in the modelled code. They work on the list
of characters of a string.

* `lower` is `str.lower`. Every use compares the result with ASCII names, so a character whose
  lower-case form is not ASCII is left alone; the two others are the Kelvin sign, which becomes
  `k`, and the dotted capital I, which becomes two characters.
* `isDecimal`, `isHex` and `isLetter` are the character classes `\d`, `[0-9a-f]` and `[a-z]`, the
  last two under `re.I`, where `[a-z]` also matches four letters outside ASCII.
* `atEnd` is `$`: the end of the string, or a final newline.
-/

namespace Python

/-- `c.lower()` for one character. -/
def lowerChar (c : Char) : List Char :=
  if c = '\u212A' then ['k']
  else if c = '\u0130' then ['i', '\u0307']
  else [c.toLower]

/-- `s.lower()`. -/
def lower (s : String) : String := String.ofList (s.toList.flatMap lowerChar)

/-- `s.startswith(p)`. -/
def startsWith (s p : String) : Bool := p.toList.isPrefixOf s.toList

/-- `s.rstrip("/")`. -/
def rstripSlash (s : String) : String := String.ofList (s.toList.rdropWhile (· = '/'))

/-- `c.isspace()`. -/
def isSpace (c : Char) : Bool :=
  (0x09 ≤ c.toNat && c.toNat ≤ 0x0D) || (0x1C ≤ c.toNat && c.toNat ≤ 0x20) ||
    (0x2000 ≤ c.toNat && c.toNat ≤ 0x200A) ||
    c.toNat ∈ [0x85, 0xA0, 0x1680, 0x2028, 0x2029, 0x202F, 0x205F, 0x3000]

/-- `s.strip()`. -/
def strip (s : String) : String :=
  String.ofList ((s.toList.dropWhile isSpace).rdropWhile isSpace)

/-! ### Representation -/

/-- A hexadecimal digit, in lower case. -/
def hexDigit (n : ℕ) : Char := "0123456789abcdef".toList.getD n '0'

/-- One character of `repr(s)` between the quotes. -/
def reprChar (quote c : Char) : List Char :=
  if c = quote ∨ c = '\\' then ['\\', c]
  else if c = '\n' then ['\\', 'n']
  else if c = '\r' then ['\\', 'r']
  else if c = '\t' then ['\\', 't']
  else if c.toNat < 0x20 ∨ c.toNat = 0x7F then
    ['\\', 'x', hexDigit (c.toNat / 16), hexDigit (c.toNat % 16)]
  else [c]

/-- `repr(s)`, where every character beyond ASCII counts as printable. -/
def quoted (s : String) : String :=
  let quote := if '\'' ∈ s.toList ∧ '"' ∉ s.toList then '"' else '\''
  String.ofList (quote :: s.toList.flatMap (reprChar quote) ++ [quote])

/-! ### Character classes -/

/-- The zeros of the runs of ten decimal digits (Unicode 14, category `Nd`). -/
def decimalZeros : List ℕ :=
  [0x30, 0x660, 0x6F0, 0x7C0, 0x966, 0x9E6, 0xA66, 0xAE6, 0xB66, 0xBE6, 0xC66, 0xCE6, 0xD66,
    0xDE6, 0xE50, 0xED0, 0xF20, 0x1040, 0x1090, 0x17E0, 0x1810, 0x1946, 0x19D0, 0x1A80, 0x1A90,
    0x1B50, 0x1BB0, 0x1C40, 0x1C50, 0xA620, 0xA8D0, 0xA900, 0xA9D0, 0xA9F0, 0xAA50, 0xABF0,
    0xFF10, 0x104A0, 0x10D30, 0x11066, 0x110F0, 0x11136, 0x111D0, 0x112F0, 0x11450, 0x114D0,
    0x11650, 0x116C0, 0x11730, 0x118E0, 0x11950, 0x11C50, 0x11D50, 0x11DA0, 0x16A60, 0x16AC0,
    0x16B50, 0x1D7CE, 0x1D7D8, 0x1D7E2, 0x1D7EC, 0x1D7F6, 0x1E140, 0x1E2F0, 0x1E950, 0x1FBF0]

/-- `\d` in a `str` pattern. -/
def isDecimal (c : Char) : Bool := decimalZeros.any fun z => z ≤ c.toNat && c.toNat < z + 10

/-- `[0-9a-f]` under `re.I`. -/
def isHex (c : Char) : Bool :=
  ('0' ≤ c && c ≤ '9') || ('a' ≤ c && c ≤ 'f') || ('A' ≤ c && c ≤ 'F')

/-- `[a-z]` under `re.I`. -/
def isLetter (c : Char) : Bool :=
  ('a' ≤ c && c ≤ 'z') || ('A' ≤ c && c ≤ 'Z') ||
    c = '\u0130' || c = '\u0131' || c = '\u017F' || c = '\u212A'

/-- A single literal character. -/
def lit (c : Char) : Char → Bool := fun d => d = c

/-- `$` without `re.M`. -/
def atEnd : List Char → Bool
  | [] => true
  | ['\n'] => true
  | _ => false

/-- Match one character for each class, and return what is left. -/
def matchSeq : List (Char → Bool) → List Char → Option (List Char)
  | [], cs => some cs
  | p :: ps, c :: cs => if p c then matchSeq ps cs else none
  | _ :: _, [] => none

/-- A string that starts like a sequence of classes has, at each place, a character of the class
that stands there. -/
theorem matchSeq_getElem? {ps : List (Char → Bool)} {cs rest : List Char} {i : ℕ}
    {p : Char → Bool} (h : matchSeq ps cs = some rest) (hp : ps[i]? = some p) :
    ∃ c, cs[i]? = some c ∧ p c = true := by
  induction ps generalizing cs i with
  | nil => simp at hp
  | cons q ps ih =>
    cases cs with
    | nil => simp [matchSeq] at h
    | cons c cs =>
      rw [matchSeq] at h
      split_ifs at h with hq
      -- the first class stands for `c`, the others for what follows
      cases i with
      | zero =>
        have : q = p := by simpa using hp
        exact ⟨c, rfl, this ▸ hq⟩
      | succ i => simpa using ih h (by simpa using hp)

end Python
