import ClusterClient.Proofs.Json.Carried
import ClusterClient.Topology.Descriptor
/-!
# The texts of a descriptor

A descriptor with each of its texts changed by a function, and when it is read of a changed value:
where the values of the fields are read with their texts changed, so is the record.
-/

namespace ClusterClient

open Json

def NodeEntry.mapTexts (change : String → String) (n : NodeEntry) : NodeEntry :=
  { n with hostname := change n.hostname }

def ServerMap.mapTexts (change : String → String) (map : ServerMap) : ServerMap :=
  { map with hashAlgorithm := change map.hashAlgorithm, serverList := map.serverList.map change }

/-- The descriptor with another name, node locator, host names, hash algorithm and server
addresses; its revision, ports and partition map are as they were. -/
def Descriptor.mapTexts (change : String → String) (d : Descriptor) : Descriptor :=
  { d with
    name := change d.name
    nodeLocator := d.nodeLocator.map change
    nodes := d.nodes.map (NodeEntry.mapTexts change)
    serverMap := d.serverMap.map (ServerMap.mapTexts change) }

theorem NodeEntry.mapTexts_id : NodeEntry.mapTexts id = id := rfl

theorem ServerMap.mapTexts_id : ServerMap.mapTexts id = id := by
  funext map
  rw [mapTexts, List.map_id]
  rfl

theorem Descriptor.mapTexts_id : Descriptor.mapTexts id = id := by
  funext d
  simp only [mapTexts, NodeEntry.mapTexts_id, ServerMap.mapTexts_id, List.map_id, Option.map_id, id]

section Carried

variable {R : String → Json → Json → Prop} {change : String → String} {j j' : Json}

-- There is no text in the ports of a node.
theorem NodeEntry.readPorts?_carried (h : RecordsRel R ["direct"] j j')
    (hdirect : Carries (R "direct") id (nullable? (nat? 65535))) :
    readPorts? j' = (readPorts? j).map id := by
  refine h.bind_eq fun form fields fields' hfields => ?_
  obtain _ | ⟨hfirst, ⟨⟩⟩ := hfields
  cases hfirst with
  | none => cases form <;> rfl
  | some hport => cases form <;> exact hdirect _ _ hport

theorem NodeEntry.ofJson?_carried (h : RecordsRel R ["hostname", "ports"] j j')
    (hhostname : Carries (R "hostname") change text?) (hports : Carries (R "ports") id readPorts?) :
    ofJson? j' = (ofJson? j).map (mapTexts change) := by
  refine h.bind_eq fun form fields fields' hfields => ?_
  obtain _ | ⟨hfirst, _ | ⟨hsecond, ⟨⟩⟩⟩ := hfields
  refine bind_eq_map_bind (hhostname.required _ _ hfirst) fun hostname => ?_
  exact bind_eq_map_bind (hports.orDefault rfl _ _ hsecond) fun direct => rfl

theorem ServerMap.ofJson?_carried
    (h : RecordsRel R ["hashAlgorithm", "numReplicas", "serverList", "vBucketMap"] j j')
    (hdefault : change "CRC" = "CRC") (hhash : Carries (R "hashAlgorithm") change text?)
    (hreplicas : Carries (R "numReplicas") id (nat? 0xffffffffffffffff))
    (hservers : Carries (R "serverList") (List.map change) (list? text?))
    (hrows : Carries (R "vBucketMap") id (list? (list? int64?))) :
    ofJson? j' = (ofJson? j).map (mapTexts change) := by
  refine h.bind_eq fun form fields fields' hfields => ?_
  obtain _ | ⟨hfirst, _ | ⟨hsecond, _ | ⟨hthird, _ | ⟨hfourth, ⟨⟩⟩⟩⟩⟩ := hfields
  refine bind_eq_map_bind (hhash.orDefault hdefault _ _ hfirst) fun hashAlgorithm => ?_
  refine bind_eq_map_bind (hreplicas.orDefault rfl _ _ hsecond) fun numReplicas => ?_
  refine bind_eq_map_bind (hservers.required _ _ hthird) fun serverList => ?_
  exact bind_eq_map_bind (hrows.required _ _ hfourth) fun rows => rfl

theorem Descriptor.ofJson?_carried
    (h : RecordsRel R ["name", "rev", "nodeLocator", "nodes", "vBucketServerMap"] j j')
    (hdefault : change "" = "") (hname : Carries (R "name") change text?)
    (hrev : Carries (R "rev") id int64?)
    (hlocator : Carries (R "nodeLocator") (Option.map change) (nullable? text?))
    (hnodes : Carries (R "nodes") (List.map (NodeEntry.mapTexts change)) (list? NodeEntry.ofJson?))
    (hmap : Carries (R "vBucketServerMap") (Option.map (ServerMap.mapTexts change))
      (nullable? ServerMap.ofJson?)) :
    ofJson? j' = (ofJson? j).map (mapTexts change) := by
  refine h.bind_eq fun form fields fields' hfields => ?_
  obtain _ | ⟨hfirst, _ | ⟨hsecond, _ | ⟨hthird, _ | ⟨hfourth, _ | ⟨hfifth, ⟨⟩⟩⟩⟩⟩⟩ := hfields
  refine bind_eq_map_bind (hname.orDefault hdefault _ _ hfirst) fun name => ?_
  refine bind_eq_map_bind (hrev.orDefault rfl _ _ hsecond) fun rev => ?_
  refine bind_eq_map_bind (hlocator.orDefault rfl _ _ hthird) fun nodeLocator => ?_
  refine bind_eq_map_bind (hnodes.orDefault rfl _ _ hfourth) fun nodes => ?_
  exact bind_eq_map_bind (hmap.orDefault rfl _ _ hfifth) fun serverMap => rfl

end Carried

end ClusterClient
