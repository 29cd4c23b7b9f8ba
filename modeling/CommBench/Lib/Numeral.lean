import Mathlib.Computability.RegularExpressions
import Mathlib.Data.List.Infix

set_option relaxedAutoImplicit false
set_option autoImplicit false

/-!
# Numerals in a text

The grammars of the numbers that the C library reads from a text, as regular expressions, and
the way in which it reads them: leading blanks are skipped, and the longest prefix that is a
number is converted. A text that is a number as a whole is read as a whole.

## Main definitions

* `Numeral.intLiteral`, `Numeral.floatLiteral` — the numbers that `strtol` and `strtod` read.
* `Numeral.scan` — the number that is read from a text.

## Main results

* `Numeral.mem_letters` — a match consists of letters of the expression.
* `Numeral.scan_eq_self` — a text that is a number is read as a whole.
-/

namespace Numeral

open RegularExpression

/-! ## The grammars -/

/-- One of the given characters. -/
def oneOf (cs : List Char) : RegularExpression Char := cs.foldr (fun c r => char c + r) 0

/-- A match or nothing. -/
def optional (r : RegularExpression Char) : RegularExpression Char := 1 + r

/-- At least one match. -/
def many1 (r : RegularExpression Char) : RegularExpression Char := r * star r

/-- A word in lower case, read without regard to case. -/
def word (cs : List Char) : RegularExpression Char :=
  cs.foldr (fun c r => oneOf [c, c.toUpper] * r) 1

/-- The decimal digits. -/
def decDigits : List Char := ['0', '1', '2', '3', '4', '5', '6', '7', '8', '9']

/-- The hexadecimal digits. -/
def hexDigits : List Char :=
  decDigits ++ ['a', 'b', 'c', 'd', 'e', 'f', 'A', 'B', 'C', 'D', 'E', 'F']

/-- An optional sign. -/
def sign : RegularExpression Char := optional (oneOf ['+', '-'])

/-- Digits with an optional point, with at least one digit. -/
def mantissa (digits : List Char) : RegularExpression Char :=
  many1 (oneOf digits) * optional (char '.' * star (oneOf digits)) +
    char '.' * many1 (oneOf digits)

/-- An exponent behind one of the given letters. -/
def exponent (letters : List Char) : RegularExpression Char :=
  optional (oneOf letters * sign * many1 (oneOf decDigits))

/-- The letters, digits and underscores between the parentheses of a `nan(…)`. -/
def nanChars : List Char :=
  "abcdefghijklmnopqrstuvwxyzABCDEFGHIJKLMNOPQRSTUVWXYZ0123456789_".toList

/-- The numbers that `strtol` reads in base 10. -/
def intLiteral : RegularExpression Char := sign * many1 (oneOf decDigits)

/-- The numbers that `strtod` reads: decimal, hexadecimal, infinite, and no number. -/
def floatLiteral : RegularExpression Char :=
  sign *
    (mantissa decDigits * exponent ['e', 'E'] +
      char '0' * oneOf ['x', 'X'] * mantissa hexDigits * exponent ['p', 'P'] +
      word ['i', 'n', 'f'] * optional (word ['i', 'n', 'i', 't', 'y']) +
      word ['n', 'a', 'n'] * optional (char '(' * star (oneOf nanChars) * char ')'))

/-- The value of a list of decimal digits. -/
def digitsValue (ds : List Char) : ℤ := ds.foldl (fun n d => 10 * n + (d.toNat - '0'.toNat : ℤ)) 0

/-- The value of an integer literal. -/
def intValue : List Char → ℤ
  | '-' :: ds => -digitsValue ds
  | '+' :: ds => digitsValue ds
  | ds => digitsValue ds

/-- The letters that occur in a regular expression. -/
def letters {α : Type} : RegularExpression α → List α
  | zero => []
  | epsilon => []
  | char a => [a]
  | plus p q => letters p ++ letters q
  | comp p q => letters p ++ letters q
  | RegularExpression.star p => letters p

/-! ## Reading -/

/-- `isspace` in the C locale. -/
def isSpace (c : Char) : Bool :=
  c ∈ [' ', '\t', '\n', Char.ofNat 11, Char.ofNat 12, '\r']

/-- The longest prefix of a text that matches. -/
def longestPrefix (r : RegularExpression Char) (s : List Char) : Option (List Char) :=
  s.inits.reverse.find? r.rmatch

/-- Skip the leading blanks and read the longest prefix that matches. -/
def scan (r : RegularExpression Char) (s : List Char) : Option (List Char) :=
  longestPrefix r (s.dropWhile isSpace)

section Scan

variable {α : Type} {r : RegularExpression Char} {s : List Char}

/-- **A match consists of letters of the expression.**

**Proof sketch.** Induction on the expression, with one case for each operation: a match of a
product is a concatenation of two matches, and a match of a star one of several. -/
theorem mem_letters {p : RegularExpression α} {x : List α} (h : x ∈ p.matches') {a : α}
    (ha : a ∈ x) : a ∈ letters p := by
  induction p generalizing x with
  | zero => exact absurd h (Language.notMem_zero x)
  | epsilon =>
    rw [(Language.mem_one x).mp h] at ha
    cases ha
  | char b =>
    obtain rfl : x = [b] := h
    exact ha
  | plus p q hp hq =>
    rcases h with h | h
    · exact List.mem_append_left _ (hp h ha)
    · exact List.mem_append_right _ (hq h ha)
  | comp p q hp hq =>
    obtain ⟨y, hy, z, hz, rfl⟩ := Language.mem_mul.mp h
    rcases List.mem_append.mp ha with hay | haz
    · exact List.mem_append_left _ (hp hy hay)
    · exact List.mem_append_right _ (hq hz haz)
  | star p hp =>
    obtain ⟨ys, rfl, hys⟩ := Language.mem_kstar.mp h
    obtain ⟨y, hy, hay⟩ := List.mem_flatten.mp ha
    exact hp (hys y hy) hay

/-- A text that matches is its own longest prefix that does. -/
lemma longestPrefix_eq_self (h : r.rmatch s = true) : longestPrefix r s = some s := by
  have hinits : s.inits.reverse = s.reverse.tails.map List.reverse := by
    rw [List.inits_eq_tails, List.reverse_reverse]
  have hhead : s.reverse.tails = s.reverse :: s.reverse.tails.tail := by
    cases s.reverse <;> rfl
  rw [longestPrefix, hinits, hhead, List.map_cons, List.reverse_reverse, List.find?_cons_of_pos h]

/-- **A text that is a number is read as a whole**, when numbers contain no blanks. -/
theorem scan_eq_self (hblank : (letters r).any isSpace = false) (h : r.rmatch s = true) :
    scan r s = some s := by
  have hmatch := (rmatch_iff_matches' r s).mp h
  have hdrop : s.dropWhile isSpace = s := by
    cases s with
    | nil => rfl
    | cons c s =>
      rw [List.dropWhile_cons_of_neg]
      exact List.any_eq_false.mp hblank c (mem_letters hmatch List.mem_cons_self)
  rw [scan, hdrop, longestPrefix_eq_self h]

/-- No blank occurs in an integer. -/
lemma letters_intLiteral : (letters intLiteral).any isSpace = false := by decide +kernel

/-- No blank occurs in a number that `strtod` reads. -/
lemma letters_floatLiteral : (letters floatLiteral).any isSpace = false := by decide +kernel

example : scan floatLiteral " 2.5e3Hz".toList = some "2.5e3".toList := by decide

end Scan

end Numeral
