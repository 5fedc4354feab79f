import ClusterClient.Provider.Acquisition
import ClusterClient.Transport.Exchange
/-!
# Asking all seeds at once

The binary source asks every seed for its descriptor at once. The first descriptor that is not blank
wins; seeds that fail, have none or never answer do not hold it up.
-/

namespace ClusterClient

namespace SeedRace

/-- A seed with its address and what comes of asking it. -/
structure Seed where
  address : String
  reply : Delivery (Except TransportError Message)

def usable? : Except TransportError Message → Option String
  | .ok (.config (some text)) => if Text.isBlank text then none else some text
  | _ => none

/-- The descriptor of a seed and the tick at which it is there. -/
def Seed.finish? (s : Seed) : Option (Nat × RawDescriptor) :=
  match s.reply.after, usable? s.reply.result with
  | some tick, some text => some (tick, ⟨Address.host s.address, text⟩)
  | _, _ => none

/-- The earliest of some results; of several at one tick the first. -/
def earliest? {α : Type} : List (Nat × α) → Option (Nat × α)
  | [] => none
  | x :: rest =>
    match earliest? rest with
    | some y => if y.1 < x.1 then some y else some x
    | none => some x

/-- The tick at which the last seed has answered, if all do. -/
def lastReply? (seeds : List Seed) : Option Nat :=
  seeds.foldl (fun latest s => (latest.bind fun a => s.reply.after.map (max a ·))) (some 0)

/-- The descriptor of the seed that is first to have one. Without one, the fetch ends when the last
seed has answered. -/
def fetch (seeds : List Seed) : Delivery FetchResult :=
  match earliest? (seeds.filterMap Seed.finish?) with
  | some (tick, d) => ⟨some tick, .descriptors [d]⟩
  | none => ⟨lastReply? seeds, .failed .noResponse⟩

end SeedRace

end ClusterClient
