import ClusterClient.Proofs.Json.Denotation
import ClusterClient.Proofs.Json.Exact
import ClusterClient.Proofs.Topology.WholeTexts
import Mathlib.Algebra.Group.Int.Defs
import Mathlib.Algebra.Group.Nat.Defs
/-!
# Written descriptors

Which texts are a descriptor written down: in any spelling that the grammar of JSON allows, each
record as an object with its members in any order or as an array of its fields. A text that is a
descriptor written down gives the table that is built from what it says, and no other text gives
one.
-/

namespace ClusterClient

open Json

/-! ## What a descriptor's values denote -/

/-- The ports of a node, of which one is used. -/
inductive IsPorts : Json → Option Nat → Prop where
  | left {j : Json} (hrecord : IsRecord ["direct"] j .named [none]) : IsPorts j none
  | written {j port : Json} {form : Form} {direct : Option Nat}
      (hrecord : IsRecord ["direct"] j form [some port])
      (hport : IsNullable (IsNat 65535) port direct) : IsPorts j direct

def IsNode (j : Json) (n : NodeEntry) : Prop :=
  ∃ form hostname ports, IsRecord ["hostname", "ports"] j form [hostname, ports] ∧
    Required IsText hostname n.hostname ∧ OrDefault none IsPorts ports n.direct

def IsInt64 : Json → Int → Prop := IsInt (-2 ^ 63) (2 ^ 63 - 1)

def IsServerMap (j : Json) (map : ServerMap) : Prop :=
  ∃ form hashAlgorithm numReplicas serverList rows,
    IsRecord ["hashAlgorithm", "numReplicas", "serverList", "vBucketMap"] j form
      [hashAlgorithm, numReplicas, serverList, rows] ∧
    OrDefault "CRC" IsText hashAlgorithm map.hashAlgorithm ∧
    OrDefault 0 (IsNat (2 ^ 64 - 1)) numReplicas map.numReplicas ∧
    Required (IsList IsText) serverList map.serverList ∧
    Required (IsList (IsList IsInt64)) rows map.rows

def IsDescriptor (j : Json) (d : Descriptor) : Prop :=
  ∃ form name rev nodeLocator nodes serverMap,
    IsRecord ["name", "rev", "nodeLocator", "nodes", "vBucketServerMap"] j form
      [name, rev, nodeLocator, nodes, serverMap] ∧
    OrDefault "" IsText name d.name ∧ OrDefault 0 IsInt64 rev d.rev ∧
    OrDefault none (IsNullable IsText) nodeLocator d.nodeLocator ∧
    OrDefault [] (IsList IsNode) nodes d.nodes ∧
    OrDefault none (IsNullable IsServerMap) serverMap d.serverMap

/-- The text is a descriptor written down. -/
def Descriptor.Written (text : String) (d : Descriptor) : Prop :=
  ∃ j, Spells (.padded j) text.toList ∧ IsDescriptor j d

/-! ## Reading -/

theorem recognizes_ports : Recognizes NodeEntry.readPorts? IsPorts := by
  intro j direct
  constructor
  · intro h
    obtain ⟨⟨form, fields⟩, hrecord, h⟩ := Option.bind_eq_some_iff.mp h
    rw [record?_eq_some_iff] at hrecord
    dsimp only at h
    split at h
    · cases h
      exact .left hrecord
    · exact .written hrecord (((recognizes_nat _).nullable _ _).mp h)
    · cases h
  · intro h
    cases h with
    | left hrecord =>
      exact Option.bind_eq_some_iff.mpr ⟨_, (record?_eq_some_iff _ _ _ _).mpr hrecord, rfl⟩
    | @written port form _ hrecord hport =>
      refine Option.bind_eq_some_iff.mpr ⟨_, (record?_eq_some_iff _ _ _ _).mpr hrecord, ?_⟩
      cases form <;> exact ((recognizes_nat _).nullable _ _).mpr hport

theorem recognizes_node : Recognizes NodeEntry.ofJson? IsNode := by
  intro j n
  constructor
  · intro h
    obtain ⟨⟨form, fields⟩, hrecord, h⟩ := Option.bind_eq_some_iff.mp h
    rw [record?_eq_some_iff] at hrecord
    dsimp only at h
    split at h
    · obtain ⟨hostname, hhostname, h⟩ := Option.bind_eq_some_iff.mp h
      obtain ⟨direct, hdirect, h⟩ := Option.bind_eq_some_iff.mp h
      cases h
      exact ⟨form, _, _, hrecord, (recognizes_text.required _ _).mp hhostname,
        (recognizes_ports.orDefault none _ _).mp hdirect⟩
    · cases h
  · rintro ⟨form, hostname, ports, hrecord, hhostname, hports⟩
    refine Option.bind_eq_some_iff.mpr ⟨_, (record?_eq_some_iff _ _ _ _).mpr hrecord, ?_⟩
    refine Option.bind_eq_some_iff.mpr ⟨_, (recognizes_text.required _ _).mpr hhostname, ?_⟩
    exact Option.bind_eq_some_iff.mpr ⟨_, (recognizes_ports.orDefault none _ _).mpr hports, rfl⟩

theorem recognizes_int64 : Recognizes int64? IsInt64 := recognizes_int _ _

theorem recognizes_serverMap : Recognizes ServerMap.ofJson? IsServerMap := by
  intro j map
  constructor
  · intro h
    obtain ⟨⟨form, fields⟩, hrecord, h⟩ := Option.bind_eq_some_iff.mp h
    rw [record?_eq_some_iff] at hrecord
    dsimp only at h
    split at h
    · obtain ⟨hashAlgorithm, hhash, h⟩ := Option.bind_eq_some_iff.mp h
      obtain ⟨numReplicas, hreplicas, h⟩ := Option.bind_eq_some_iff.mp h
      obtain ⟨serverList, hservers, h⟩ := Option.bind_eq_some_iff.mp h
      obtain ⟨rows, hrows, h⟩ := Option.bind_eq_some_iff.mp h
      cases h
      exact ⟨form, _, _, _, _, hrecord, (recognizes_text.orDefault "CRC" _ _).mp hhash,
        ((recognizes_nat _).orDefault 0 _ _).mp hreplicas,
        (recognizes_text.list.required _ _).mp hservers,
        (recognizes_int64.list.list.required _ _).mp hrows⟩
    · cases h
  · rintro ⟨form, hashAlgorithm, numReplicas, serverList, rows, hrecord, hhash, hreplicas,
      hservers, hrows⟩
    refine Option.bind_eq_some_iff.mpr ⟨_, (record?_eq_some_iff _ _ _ _).mpr hrecord, ?_⟩
    refine Option.bind_eq_some_iff.mpr ⟨_, (recognizes_text.orDefault "CRC" _ _).mpr hhash, ?_⟩
    refine Option.bind_eq_some_iff.mpr
      ⟨_, ((recognizes_nat _).orDefault 0 _ _).mpr hreplicas, ?_⟩
    refine Option.bind_eq_some_iff.mpr
      ⟨_, (recognizes_text.list.required _ _).mpr hservers, ?_⟩
    exact Option.bind_eq_some_iff.mpr
      ⟨_, (recognizes_int64.list.list.required _ _).mpr hrows, rfl⟩

theorem recognizes_descriptor : Recognizes Descriptor.ofJson? IsDescriptor := by
  intro j d
  constructor
  · intro h
    obtain ⟨⟨form, fields⟩, hrecord, h⟩ := Option.bind_eq_some_iff.mp h
    rw [record?_eq_some_iff] at hrecord
    dsimp only at h
    split at h
    · obtain ⟨name, hname, h⟩ := Option.bind_eq_some_iff.mp h
      obtain ⟨rev, hrev, h⟩ := Option.bind_eq_some_iff.mp h
      obtain ⟨nodeLocator, hlocator, h⟩ := Option.bind_eq_some_iff.mp h
      obtain ⟨nodes, hnodes, h⟩ := Option.bind_eq_some_iff.mp h
      obtain ⟨serverMap, hmap, h⟩ := Option.bind_eq_some_iff.mp h
      cases h
      exact ⟨form, _, _, _, _, _, hrecord, (recognizes_text.orDefault "" _ _).mp hname,
        (recognizes_int64.orDefault 0 _ _).mp hrev,
        (recognizes_text.nullable.orDefault none _ _).mp hlocator,
        (recognizes_node.list.orDefault [] _ _).mp hnodes,
        (recognizes_serverMap.nullable.orDefault none _ _).mp hmap⟩
    · cases h
  · rintro ⟨form, name, rev, nodeLocator, nodes, serverMap, hrecord, hname, hrev, hlocator, hnodes,
      hmap⟩
    refine Option.bind_eq_some_iff.mpr ⟨_, (record?_eq_some_iff _ _ _ _).mpr hrecord, ?_⟩
    refine Option.bind_eq_some_iff.mpr ⟨_, (recognizes_text.orDefault "" _ _).mpr hname, ?_⟩
    refine Option.bind_eq_some_iff.mpr ⟨_, (recognizes_int64.orDefault 0 _ _).mpr hrev, ?_⟩
    refine Option.bind_eq_some_iff.mpr
      ⟨_, (recognizes_text.nullable.orDefault none _ _).mpr hlocator, ?_⟩
    refine Option.bind_eq_some_iff.mpr
      ⟨_, (recognizes_node.list.orDefault [] _ _).mpr hnodes, ?_⟩
    exact Option.bind_eq_some_iff.mpr
      ⟨_, (recognizes_serverMap.nullable.orDefault none _ _).mpr hmap, rfl⟩

theorem Descriptor.read?_eq_some_iff_written (text : String) (d : Descriptor) :
    read? text = some d ↔ d.Written text := by
  rw [read?, Option.bind_eq_some_iff]
  exact exists_congr fun j =>
    and_congr (read?_eq_some_iff text.toList j) (recognizes_descriptor j d)

/-! ## Tables -/

namespace Table

theorem parse_of_written {text : String} {d : Descriptor} (h : d.Written text)
    (maxReplicas : Nat) : parse text maxReplicas = d.table maxReplicas := by
  rw [parse, (Descriptor.read?_eq_some_iff_written text d).mpr h]

-- A text that is no descriptor written down is not read, and it alone.
theorem parse_eq_unreadable_iff_not_written (text : String) (maxReplicas : Nat) :
    parse text maxReplicas = .error .unreadable ↔ ∀ d : Descriptor, ¬d.Written text := by
  rw [parse_eq_unreadable_iff, Option.eq_none_iff_forall_ne_some]
  exact forall_congr' fun d => not_congr (Descriptor.read?_eq_some_iff_written text d)

/-- A descriptor written down in whatever way gives the table, or the defect, that building it from
its values gives: from its server map where it has one, and otherwise from the addresses of its
nodes. -/
theorem parse_written {text : String} {d : Descriptor} (h : d.Written text) (maxReplicas : Nat) :
    (∀ map, d.serverMap = some map → map.hashAlgorithm.toList.map Char.toLower = ['c', 'r', 'c'] →
        parse text maxReplicas =
          partitioned d.name d.rev map.serverList map.numReplicas map.rows maxReplicas) ∧
      (d.serverMap = none → d.nodeLocator ≠ some "vbucket" →
        parse text maxReplicas = simple d.name d.rev (d.nodes.map fun n =>
          Address.ofHostPort (Address.host n.hostname) (n.direct.getD 11210))) ∧
      parse text maxReplicas ≠ .error .unreadable := by
  rw [parse_of_written h]
  refine ⟨fun map hmap hcrc => ?_, fun hmap hlocator => ?_, table_ne_unreadable d maxReplicas⟩
  · have hequal : equalsIgnoringCase map.hashAlgorithm "CRC" = true := beq_iff_eq.mpr hcrc
    simp only [Descriptor.table, hmap, if_pos hequal]
  · simp only [Descriptor.table, hmap, if_neg hlocator]
    rfl

-- A server map as an array in an object out of order, with a member of another name, white space,
-- a name that is escaped, and a pair of surrogates.
theorem parse_written_pair :
    let text := " \x7b\"vBucketServerMap\" : [\"cRc\",1,[\"a:1\",\"b:2\"],[[0,1],[-1]]],\n" ++
      "\"x\":[-0.5e+3,\"\\ud800\"], \"\\u0072ev\":-7,\"name\":\"\\ud83d\\ude00\\/\" \x7d\t"
    let map : ServerMap := ⟨"cRc", 1, ["a:1", "b:2"], [[0, 1], [-1]]⟩
    let d : Descriptor := ⟨"😀/", -7, none, [], some map⟩
    d.Written text ∧
      parse text 3 = partitioned "😀/" (-7) ["a:1", "b:2"] 1 [[0, 1], [-1]] 3 := by
  intro text map d
  have hwritten : d.Written text :=
    (Descriptor.read?_eq_some_iff_written text d).mp (by decide +kernel)
  exact ⟨hwritten, (parse_written hwritten 3).1 map rfl (by decide +kernel)⟩

end Table

end ClusterClient
