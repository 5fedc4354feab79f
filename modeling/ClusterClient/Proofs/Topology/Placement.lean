import ClusterClient.Proofs.Hash.Steering
import ClusterClient.Topology.Table
/-!
# Where keys fall

A key falls into a partition by fifteen bits of its checksum. Whatever a key begins with, it can be
continued so that it falls into any partition that fifteen bits can number; none falls into another.
-/

namespace ClusterClient

/-! ## Bytes as text -/

/-- The text of ASCII characters. -/
def asciiText (bytes : List UInt8) : String := String.ofList (bytes.map Char.ofUInt8)

theorem utf8EncodeChar_ofUInt8 {b : UInt8} (h : b.toNat < 2 ^ 7) :
    String.utf8EncodeChar (Char.ofUInt8 b) = [b] := by
  have hsize : (Char.ofUInt8 b).utf8Size = 1 := by
    rw [Char.utf8Size_eq_one_iff, UInt32.le_iff_toNat_le]
    exact Nat.le_of_lt_succ h
  rw [String.utf8EncodeChar_eq_singleton hsize]
  exact congrArg (fun c => [c]) (UInt8.toUInt8_toUInt32 b)

theorem utf8_asciiText {bytes : List UInt8} (h : ∀ b ∈ bytes, b.toNat < 2 ^ 7) :
    (asciiText bytes).toUTF8.data.toList = bytes := by
  show (asciiText bytes).toByteArray.data.toList = bytes
  rw [asciiText, String.toByteArray_ofList, List.utf8Encode, List.data_toByteArray,
    List.toList_toArray, List.flatMap_map]
  induction bytes with
  | nil => rfl
  | cons b bytes ih =>
    rw [List.forall_mem_cons] at h
    rw [List.flatMap_cons, utf8EncodeChar_ofUInt8 h.1, ih h.2, List.singleton_append]

theorem utf8_append (s e : String) :
    (s ++ e).toUTF8.data.toList = s.toUTF8.data.toList ++ e.toUTF8.data.toList := by
  show (s ++ e).toByteArray.data.toList = s.toByteArray.data.toList ++ e.toByteArray.data.toList
  rw [String.toByteArray_append, ByteArray.data_append, Array.toList_append]

/-! ## The partition of a key -/

namespace Table

open Hash

variable {t : Table}

theorem partitionOf_eq (hcount : t.partitionCount < 2 ^ 32) (key : String) :
    t.partitionOf key =
      (keyBits (crc32 key.toUTF8.data.toList)).toNat % t.partitionCount := by
  rw [partitionOf, UInt32.toNat_mod, UInt32.toNat_ofNat', Nat.mod_eq_of_lt hcount]
  rfl

-- Three characters behind a key give its bits any value.
theorem exists_extension (s : String) {value : Nat} (h : value < 2 ^ 15) :
    ∃ e : String, e.length = 3 ∧ (keyBits (crc32 (s ++ e).toUTF8.data.toList)).toNat = value := by
  obtain ⟨bytes, hlength, hascii, hbits⟩ :=
    exists_suffix (crcBytes 0xFFFFFFFF s.toUTF8.data.toList) h
  refine ⟨asciiText bytes, ?_, ?_⟩
  · rw [asciiText, String.length_ofList, List.length_map, hlength]
  · rw [utf8_append, utf8_asciiText hascii, crc32, crcBytes_append, hbits]

/-- Every partition that fifteen bits can number is reached by continuing a key, whatever it begins
with, and no key falls into any other partition. Three more characters are enough. -/
theorem every_partition_reached (t : Table) (hcount : t.partitionCount < 2 ^ 32) :
    (∀ (s : String) (p : Nat), p < min t.partitionCount 32768 →
      ∃ e : String, e.length = 3 ∧ t.partitionOf (s ++ e) = p) ∧
    ∀ key : String, t.partitionOf key < 32768 := by
  refine ⟨fun s p hp => ?_, fun key => ?_⟩
  · have hlt : p < t.partitionCount := Nat.lt_of_lt_of_le hp (Nat.min_le_left _ _)
    obtain ⟨e, hlength, hbits⟩ := exists_extension s (Nat.lt_of_lt_of_le hp (Nat.min_le_right _ _))
    refine ⟨e, hlength, ?_⟩
    rw [partitionOf_eq hcount, hbits, Nat.mod_eq_of_lt hlt]
  · rw [partitionOf_eq hcount]
    exact Nat.lt_of_le_of_lt (Nat.mod_le _ _) (toNat_keyBits_lt _)

-- Keys with one beginning come to the last of three nodes as well.
theorem every_partition_reached_three :
    ∃ t, Table.simple "" 0 ["a:1", "b:1", "c:1"] = .ok t ∧ t.partitionCount = 3 ∧
      (∃ e : String, e.length = 3 ∧ t.partitionOf ("user::" ++ e) = 2) ∧
      ∀ key : String, t.partitionOf key < 32768 := by
  let t : Table :=
    { kind := .simple, name := "", rev := 0, replicaCount := 0,
      partitions := [⟨some 0, []⟩, ⟨some 1, []⟩, ⟨some 2, []⟩],
      registry := .ofAddresses ["a:1", "b:1", "c:1"] }
  obtain ⟨hreached, hbelow⟩ := every_partition_reached t (by decide)
  exact ⟨t, by decide +kernel, rfl, hreached "user::" 2 (by decide), hbelow⟩

end Table

end ClusterClient
