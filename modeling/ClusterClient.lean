import ClusterClient.Proofs.Connection
import ClusterClient.Proofs.Durability.Cancelled
import ClusterClient.Proofs.Durability.Outcomes
import ClusterClient.Proofs.Durability.Satisfiable
import ClusterClient.Proofs.Durability.Starts
import ClusterClient.Proofs.Durability.Sums
import ClusterClient.Proofs.Durability.Weaker
import ClusterClient.Proofs.Frame.Contained
import ClusterClient.Proofs.Provider.Bootstrap
import ClusterClient.Proofs.Provider.Expanded
import ClusterClient.Proofs.Provider.Fruitless
import ClusterClient.Proofs.Provider.Marks
import ClusterClient.Proofs.Provider.Routes
import ClusterClient.Proofs.Provider.Sources
import ClusterClient.Proofs.ReplicaRead.Answered
import ClusterClient.Proofs.Topology.HostNames
import ClusterClient.Proofs.Topology.Placement
import ClusterClient.Proofs.Topology.UnknownMembers
import ClusterClient.Proofs.Transport.AttemptTime
import ClusterClient.Proofs.Transport.Replies
