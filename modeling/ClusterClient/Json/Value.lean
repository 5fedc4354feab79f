/-!
# JSON values

A JSON text as a tree. A number keeps its digits and a string its code units, so that a value that
nobody reads costs no checking beyond its form: whether a number is in range and whether a string's
surrogates pair up is asked only of the values that are read.
-/

namespace ClusterClient

/-- A JSON value. A string is the list of its code points, in which an escape of four hexadecimal
digits stands for the UTF-16 unit that it names. -/
inductive Json where
  | null
  | bool (value : Bool)
  -- `whole` is false for a number with a fraction or an exponent.
  | number (negative : Bool) (digits : List Char) (whole : Bool)
  | string (units : List Nat)
  | array (items : List Json)
  | object (members : List (List Nat × Json))

namespace Json

/-! ## Strings -/

def isHighSurrogate (u : Nat) : Bool := 0xd800 ≤ u && u < 0xdc00

def isLowSurrogate (u : Nat) : Bool := 0xdc00 ≤ u && u < 0xe000

/-- The code point that a pair of surrogates stands for. -/
def ofSurrogates (high low : Nat) : Nat := 0x10000 + (high - 0xd800) * 0x400 + (low - 0xdc00)

/-- The characters of a string after those read so far, latest first; `high` is a high surrogate
that waits for its partner. A surrogate without its partner has no characters. -/
def charsAfter (done : List Char) : Option Nat → List Nat → Option (List Char)
  | none, [] => some done.reverse
  | some _, [] => none
  | none, u :: rest =>
    if isHighSurrogate u then charsAfter done (some u) rest
    else if isLowSurrogate u then none
    else charsAfter (Char.ofNat u :: done) none rest
  | some high, u :: rest =>
    if isLowSurrogate u then charsAfter (Char.ofNat (ofSurrogates high u) :: done) none rest
    else none

def unitsText? (units : List Nat) : Option String :=
  (charsAfter [] none units).map String.ofList

/-! ## Typed reading -/

def text? : Json → Option String
  | string units => unitsText? units
  | _ => none

/-- The value of a run of decimal digits, the most significant first. -/
def digitsValue (digits : List Char) : Nat :=
  digits.foldl (fun n c => 10 * n + (c.toNat - '0'.toNat)) 0

/-- A whole number in a closed range. Minus zero is not a whole number. -/
def int? (low high : Int) : Json → Option Int
  | number negative digits true =>
    let n := digitsValue digits
    let value : Int := if negative then -n else n
    if negative && n == 0 then none
    else if low ≤ value ∧ value ≤ high then some value else none
  | _ => none

/-- A whole number from zero up to a limit. -/
def nat? (high : Nat) (j : Json) : Option Nat := (j.int? 0 high).map Int.toNat

def items? : Json → Option (List Json)
  | array items => some items
  | _ => none

/-- An array, each of whose items is read alike. -/
def list? {α : Type} (read : Json → Option α) (j : Json) : Option (List α) :=
  j.items?.bind (·.mapM read)

/-- `null` for nothing, anything else as it is read. -/
def nullable? {α : Type} (read : Json → Option α) : Json → Option (Option α)
  | null => some none
  | j => (read j).map some

end Json

end ClusterClient
