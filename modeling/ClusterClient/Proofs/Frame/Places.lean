import ClusterClient.Frame.Archive
import Mathlib.Data.List.Basic
/-!
# Bytes at places

What stands at a place of an archive is read back there: a run of bytes, a number, an offset, a text
or a value. A run that is written in parts stands where its parts stand one after another.
-/

namespace ClusterClient.Frame

variable {bytes part front back : List UInt8} {place root : Nat}

/-- A run of bytes stands at a place of others. -/
def Stands (bytes : List UInt8) (place : Nat) (part : List UInt8) : Prop :=
  part <+: bytes.drop place

theorem stands_append_iff :
    Stands bytes place (front ++ back) ↔
      Stands bytes place front ∧ Stands bytes (place + front.length) back := by
  unfold Stands
  rw [← List.drop_drop]
  constructor
  · rintro ⟨later, h⟩
    rw [← h, List.append_assoc]
    refine ⟨List.prefix_append front _, ?_⟩
    rw [List.drop_left]
    exact List.prefix_append back later
  · rintro ⟨⟨later, h⟩, hback⟩
    rw [← h, List.drop_left] at hback
    rw [← h]
    exact (List.prefix_append_right_inj front).mpr hback

-- The bytes after the first ones stand where those end.
theorem stands_of_append (before part : List UInt8) :
    Stands (before ++ part) before.length part := by
  unfold Stands
  exact ⟨[], by rw [List.append_nil, List.drop_left]⟩

/-! ## Runs of bytes -/

theorem slice_of_stands {length : Nat} (h : Stands bytes place part)
    (hlength : part.length = length) : slice bytes place length = part := by
  subst hlength
  exact (List.prefix_iff_eq_take.mp h).symm

theorem byteAt_of_stands {b : UInt8} (h : Stands bytes place (b :: back)) :
    byteAt bytes place = b := by
  obtain ⟨later, h⟩ := h
  unfold byteAt
  rw [List.getD_eq_getElem?_getD, ← Nat.add_zero place, ← List.getElem?_drop, ← h]
  rfl

theorem length_slice_le (bytes : List UInt8) (place length : Nat) :
    (slice bytes place length).length ≤ length :=
  List.length_take_le _ _

/-! ## Numbers -/

theorem numberAt_of_stands {width n : Nat} (h : Stands bytes place (littleEndian width n))
    (hn : n < 1 <<< (8 * width)) : numberAt bytes place width = n := by
  unfold numberAt
  rw [slice_of_stands h (length_littleEndian width n), ofLittleEndian_littleEndian,
    Nat.mod_eq_of_lt hn]

@[simp]
theorem length_offsetBytes (n : Int) : (offsetBytes n).length = 4 :=
  length_littleEndian 4 _

theorem ofOffsetBytes_offsetBytes {n : Int} (hlo : -0x80000000 ≤ n) (hhi : n < 0x80000000) :
    ofOffsetBytes (offsetBytes n) = n := by
  have hbase : (1 : Nat) <<< (8 * 4) = 0x100000000 := by decide
  unfold ofOffsetBytes offsetBytes
  rw [ofLittleEndian_littleEndian, hbase]
  by_cases hn : 0 ≤ n
  · have hmod : (n % 0x100000000).toNat % 0x100000000 = n.toNat := by omega
    rw [hmod, if_pos (by omega)]
    omega
  · have hmod : (n % 0x100000000).toNat % 0x100000000 = (n + 0x100000000).toNat := by omega
    rw [hmod, if_neg (by omega)]
    omega

-- An offset back shows in the top bit of its last byte.
theorem stands_offsetBytes_neg {n : Nat} (h : Stands bytes place (offsetBytes (-(n : Int))))
    (hpos : 0 < n) (hmax : n ≤ 0x80000000) : 128 ≤ (byteAt bytes (place + 3)).toNat := by
  let m := (-(n : Int) % 0x100000000).toNat
  have hm : 0x80000000 ≤ m ∧ m < 0x100000000 := by omega
  have hbytes : offsetBytes (-(n : Int)) =
      [UInt8.ofNat m, UInt8.ofNat (m / 256), UInt8.ofNat (m / 256 / 256)] ++
        [UInt8.ofNat (m / 256 / 256 / 256)] := rfl
  rw [hbytes, stands_append_iff] at h
  have hlast : byteAt bytes (place + 3) = UInt8.ofNat (m / 256 / 256 / 256) := byteAt_of_stands h.2
  rw [hlast, UInt8.toNat_ofNat']
  omega

end ClusterClient.Frame
