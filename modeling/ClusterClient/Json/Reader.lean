import ClusterClient.Json.Value
/-!
# Reading JSON

A machine that takes a JSON text one character at a time. Its stack holds the containers that wait
for the value being read, so nesting has no limit. White space is the space, the tab, the line feed
and the carriage return.
-/

namespace ClusterClient.Json

/-- A container that waits for the value of one of its places; what it holds so far, latest
first. -/
inductive Frame where
  | item (before : List Json)
  | member (before : List (List Nat × Json)) (name : List Nat)

/-- Where the machine stands inside a string: the backslash and the digits of an escape come one at
a time. -/
inductive Escape where
  | plain
  | backslash
  | digits (count value : Nat)

inductive NumberPart where
  | sign
  -- After a single zero, to which no digit may be added.
  | zero
  | whole
  | point
  | fraction
  | exponent
  | exponentSign
  | exponentDigits

/-- Where the machine stands inside the innermost container. What a container or a string holds so
far is listed latest first. -/
inductive Mode where
  -- A value comes next.
  | value
  -- After an opening bracket.
  | firstItem
  | afterItem (items : List Json)
  -- After an opening brace.
  | firstName
  -- After a comma in an object.
  | nextName (members : List (List Nat × Json))
  | name (members : List (List Nat × Json)) (units : List Nat) (escape : Escape)
  | afterName (members : List (List Nat × Json)) (name : List Nat)
  | afterMember (members : List (List Nat × Json))
  | string (units : List Nat) (escape : Escape)
  | number (negative : Bool) (digits : List Char) (part : NumberPart)
  -- The rest of `null`, `true` or `false`.
  | literal (rest : List Char) (value : Json)
  -- The whole text has been read but for white space.
  | done (value : Json)

structure State where
  stack : List Frame
  mode : Mode

def isSpace (c : Char) : Bool := c == ' ' || c == '\t' || c == '\n' || c == '\r'

/-- The value of a hexadecimal digit of either case. -/
def hexValue? (c : Char) : Option Nat :=
  if '0' ≤ c ∧ c ≤ '9' then some (c.toNat - '0'.toNat)
  else if 'a' ≤ c ∧ c ≤ 'f' then some (c.toNat - 'a'.toNat + 10)
  else if 'A' ≤ c ∧ c ≤ 'F' then some (c.toNat - 'A'.toNat + 10)
  else none

/-- The character that a backslash and a letter stand for. -/
def escaped? : Char → Option Char
  | '"' => some '"'
  | '\\' => some '\\'
  | '/' => some '/'
  | 'b' => some '\x08'
  | 'f' => some '\x0c'
  | 'n' => some '\n'
  | 'r' => some '\r'
  | 't' => some '\t'
  | _ => none

/-- What a character does to a string: it closes it, or the string goes on. -/
inductive StringStep where
  | closed
  | more (units : List Nat) (escape : Escape)

/-- One character of a string. Control characters have to be escaped. -/
def stringStep (units : List Nat) (escape : Escape) (c : Char) : Option StringStep :=
  match escape with
  | .plain =>
    if c = '"' then some .closed
    else if c = '\\' then some (.more units .backslash)
    else if c.toNat < 0x20 then none
    else some (.more (c.toNat :: units) .plain)
  | .backslash =>
    if c = 'u' then some (.more units (.digits 0 0))
    else (escaped? c).map fun e => .more (e.toNat :: units) .plain
  | .digits count value =>
    (hexValue? c).map fun d =>
      if count = 3 then .more ((16 * value + d) :: units) .plain
      else .more units (.digits (count + 1) (16 * value + d))

/-- One character of a number, if it belongs to it. Only digits before a point or an exponent are
kept. -/
def numberStep (negative : Bool) (digits : List Char) (part : NumberPart) (c : Char) :
    Option Mode :=
  match part with
  | .sign =>
    if c = '0' then some (.number negative [c] .zero)
    else if c.isDigit then some (.number negative [c] .whole)
    else none
  | .zero =>
    if c = '.' then some (.number negative digits .point)
    else if c = 'e' ∨ c = 'E' then some (.number negative digits .exponent)
    else none
  | .whole =>
    if c.isDigit then some (.number negative (c :: digits) .whole)
    else if c = '.' then some (.number negative digits .point)
    else if c = 'e' ∨ c = 'E' then some (.number negative digits .exponent)
    else none
  | .point => if c.isDigit then some (.number negative digits .fraction) else none
  | .fraction =>
    if c.isDigit then some (.number negative digits .fraction)
    else if c = 'e' ∨ c = 'E' then some (.number negative digits .exponent)
    else none
  | .exponent =>
    if c = '+' ∨ c = '-' then some (.number negative digits .exponentSign)
    else if c.isDigit then some (.number negative digits .exponentDigits)
    else none
  | .exponentSign | .exponentDigits =>
    if c.isDigit then some (.number negative digits .exponentDigits) else none

/-- The number read so far, where it may end. -/
def number? (negative : Bool) (digits : List Char) : NumberPart → Option Json
  | .zero | .whole => some (.number negative digits.reverse true)
  | .fraction | .exponentDigits => some (.number negative digits.reverse false)
  | .sign | .point | .exponent | .exponentSign => none

/-- The state after a whole value: it takes its place in the innermost container. -/
def deliver (value : Json) : List Frame → State
  | [] => ⟨[], .done value⟩
  | .item before :: stack => ⟨stack, .afterItem (value :: before)⟩
  | .member before name :: stack => ⟨stack, .afterMember ((name, value) :: before)⟩

def beginValue (stack : List Frame) (c : Char) : Option State :=
  if c = '{' then some ⟨stack, .firstName⟩
  else if c = '[' then some ⟨stack, .firstItem⟩
  else if c = '"' then some ⟨stack, .string [] .plain⟩
  else if c = '-' then some ⟨stack, .number true [] .sign⟩
  else if c = 'n' then some ⟨stack, .literal ['u', 'l', 'l'] .null⟩
  else if c = 't' then some ⟨stack, .literal ['r', 'u', 'e'] (.bool true)⟩
  else if c = 'f' then some ⟨stack, .literal ['a', 'l', 's', 'e'] (.bool false)⟩
  else (numberStep false [] .sign c).map fun mode => ⟨stack, mode⟩

/-- The first character that does not belong to the value before it. -/
def stepAfter (stack : List Frame) (mode : Mode) (c : Char) : Option State :=
  if isSpace c then some ⟨stack, mode⟩
  else match mode with
    | .afterItem items =>
      if c = ',' then some ⟨.item items :: stack, .value⟩
      else if c = ']' then some (deliver (.array items.reverse) stack)
      else none
    | .afterMember members =>
      if c = ',' then some ⟨stack, .nextName members⟩
      else if c = '}' then some (deliver (.object members.reverse) stack)
      else none
    | _ => none

def step (s : State) (c : Char) : Option State :=
  match s.mode with
  | .value => if isSpace c then some s else beginValue s.stack c
  | .firstItem =>
    if isSpace c then some s
    else if c = ']' then some (deliver (.array []) s.stack)
    else beginValue (.item [] :: s.stack) c
  | .firstName =>
    if isSpace c then some s
    else if c = '}' then some (deliver (.object []) s.stack)
    else if c = '"' then some ⟨s.stack, .name [] [] .plain⟩
    else none
  | .nextName members =>
    if isSpace c then some s
    else if c = '"' then some ⟨s.stack, .name members [] .plain⟩
    else none
  | .name members units escape =>
    (stringStep units escape c).map fun
      | .closed => ⟨s.stack, .afterName members units.reverse⟩
      | .more units escape => ⟨s.stack, .name members units escape⟩
  | .afterName members name =>
    if isSpace c then some s
    else if c = ':' then some ⟨.member members name :: s.stack, .value⟩
    else none
  | .string units escape =>
    (stringStep units escape c).map fun
      | .closed => deliver (.string units.reverse) s.stack
      | .more units escape => ⟨s.stack, .string units escape⟩
  | .number negative digits part =>
    match numberStep negative digits part c with
    | some mode => some ⟨s.stack, mode⟩
    | none => (number? negative digits part).bind fun value =>
      let after := deliver value s.stack
      stepAfter after.stack after.mode c
  | .literal [] value =>
    let after := deliver value s.stack
    stepAfter after.stack after.mode c
  | .literal (expected :: rest) value =>
    if c = expected then
      match rest with
      | [] => some (deliver value s.stack)
      | _ => some ⟨s.stack, .literal rest value⟩
    else none
  | .afterItem _ | .afterMember _ | .done _ => stepAfter s.stack s.mode c

def run (s : State) : List Char → Option State
  | [] => some s
  | c :: rest => (step s c).bind fun s => run s rest

def start : State := ⟨[], .value⟩

/-- The value of a text that ends here. -/
def finish? (s : State) : Option Json :=
  match s.stack, s.mode with
  | [], .done value => some value
  | [], .number negative digits part => number? negative digits part
  | _, _ => none

/-- The value that a text holds, with nothing but white space around it. -/
def read? (text : List Char) : Option Json := (run start text).bind finish?

-- Running over two texts is running over the second from where the first ends.
theorem run_append (s : State) (a b : List Char) :
    run s (a ++ b) = (run s a).bind fun s => run s b := by
  induction a generalizing s with
  | nil => rfl
  | cons c a ih =>
    simp only [List.cons_append, run]
    cases step s c <;> simp [ih]

end ClusterClient.Json
