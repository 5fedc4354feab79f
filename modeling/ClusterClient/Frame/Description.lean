import ClusterClient.Frame.Message
import ClusterClient.Text.Quoted
/-!
# Messages in words

How an error shows a message that was not expected, and the id of a request.
-/

namespace ClusterClient

def KeyState.name : KeyState → String
  | foundNotPersisted => "FoundNotPersisted"
  | foundPersisted => "FoundPersisted"
  | notFoundNotPersisted => "NotFoundNotPersisted"
  | notFoundPersisted => "NotFoundPersisted"

def GetStatus.name : GetStatus → String
  | success => "Success"
  | notFound => "NotFound"
  | notMyPartition => "NotMyPartition"
  | failure => "Failure"

def optionText {α : Type} (text : α → String) : Option α → String
  | none => "None"
  | some a => "Some(" ++ text a ++ ")"

/-- A record under its name, its fields in order. -/
def recordText (name : String) (fields : List (String × String)) : String :=
  name ++ " \x7b " ++ ", ".intercalate (fields.map fun (field, value) => field ++ ": " ++ value) ++
    " \x7d"

def bytesText (bytes : List UInt8) : String :=
  "[" ++ ", ".intercalate (bytes.map fun b => toString b.toNat) ++ "]"

def Message.text : Message → String
  | getConfig => "GetConfig"
  | config descriptor => recordText "Config" [("descriptor", optionText Text.quoted descriptor)]
  | observe key cas partition =>
    recordText "Observe"
      [("key", Text.quoted key), ("cas", toString cas), ("partition", toString partition)]
  | observeResponse key cas state =>
    recordText "ObserveResponse"
      [("key", Text.quoted key), ("cas", toString cas), ("state", state.name)]
  | get key partition =>
    recordText "Get" [("key", Text.quoted key), ("partition", toString partition)]
  | replicaGet key partition replicaIndex =>
    recordText "ReplicaGet"
      [("key", Text.quoted key), ("partition", toString partition),
        ("replica_index", toString replicaIndex)]
  | getResponse status cas value =>
    recordText "GetResponse"
      [("status", status.name), ("cas", toString cas), ("value", optionText bytesText value)]

def byteText (b : UInt8) : String :=
  String.ofList [Nat.digitChar (b.toNat / 16), Nat.digitChar (b.toNat % 16)]

/-- The groups of 4, 2, 2, 2 and 6 bytes of an id, in hexadecimal digits. -/
def RequestId.text (id : RequestId) : String :=
  let digits (place length : Nat) : String :=
    String.join (((id.bytes.toList.drop place).take length).map byteText)
  "-".intercalate [digits 0 4, digits 4 2, digits 6 2, digits 8 2, digits 10 6]

end ClusterClient
