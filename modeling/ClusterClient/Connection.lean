import ClusterClient.Provider.Basic
/-!
# Connections

What a client keeps from connecting: the kind of the table that its bootstrap took over, recorded
once.
-/

namespace ClusterClient

structure Connection where
  kind : TableKind
  deriving DecidableEq, Repr

def Connection.ofBootstrap (answer : Except ConfigurationError Table) :
    Except ConfigurationError Connection :=
  answer.map fun t => ⟨t.kind⟩

end ClusterClient
