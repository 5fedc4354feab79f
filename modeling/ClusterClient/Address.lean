/-!
# Node addresses

An address is a host and a port with a colon between them. A host may hold colons of its own, so the
port is what follows the last one.
-/

namespace ClusterClient.Address

/-- The parts before and after the last colon, if there is a colon. -/
def splitLast (s : List Char) : Option (List Char × List Char) :=
  match s.reverse.dropWhile (· != ':') with
  | [] => none
  | _ :: before => some (before.reverse, (s.reverse.takeWhile (· != ':')).reverse)

/-- The part before the last colon, or all of a text without one. -/
def host (s : String) : String :=
  match splitLast s.toList with
  | some (before, _) => String.ofList before
  | none => s

/-- The value of a run of decimal digits, the most significant first. -/
def decimalValue (digits : List Char) : Nat :=
  digits.foldl (fun n c => 10 * n + (c.toNat - '0'.toNat)) 0

/-- Whether a text is an unsigned decimal number below 65536: at least one ASCII digit, zeros in
front allowed, and one plus sign allowed before them. -/
def isPort (s : List Char) : Bool :=
  let digits := match s with
    | '+' :: rest => rest
    | _ => s
  !digits.isEmpty && digits.all Char.isDigit && decimalValue digits < 65536

/-- An address is valid when something stands before its last colon and a port after it. -/
def isValid (s : String) : Bool :=
  match splitLast s.toList with
  | some (before, after) => !before.isEmpty && isPort after
  | none => false

/-- The address of a host at a port. -/
def ofHostPort (host : String) (port : Nat) : String := host ++ ":" ++ toString port

end ClusterClient.Address
