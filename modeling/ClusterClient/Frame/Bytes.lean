/-!
# Numbers as bytes

Fixed-width numbers in either byte order, and signed offsets of four bytes.
-/

namespace ClusterClient.Frame

/-- The lowest `width` bytes of a number, the lowest first. -/
def littleEndian : (width : Nat) → Nat → List UInt8
  | 0, _ => []
  | width + 1, n => UInt8.ofNat n :: littleEndian width (n / 256)

/-- The number that a run of bytes writes, the lowest first. -/
def ofLittleEndian : List UInt8 → Nat
  | [] => 0
  | b :: rest => b.toNat + 256 * ofLittleEndian rest

/-- The lowest `width` bytes of a number, the lowest last. -/
def bigEndian (width n : Nat) : List UInt8 := (littleEndian width n).reverse

def ofBigEndian (bytes : List UInt8) : Nat := ofLittleEndian bytes.reverse

/-- A signed number in four bytes, a negative one by its complement to `0x100000000`. -/
def offsetBytes (n : Int) : List UInt8 := littleEndian 4 (n % 0x100000000).toNat

def ofOffsetBytes (bytes : List UInt8) : Int :=
  let n := ofLittleEndian bytes
  if n < 0x80000000 then n else (n : Int) - 0x100000000

@[simp]
theorem length_littleEndian (width n : Nat) : (littleEndian width n).length = width := by
  induction width generalizing n with
  | zero => rfl
  | succ width ih => simp [littleEndian, ih]

-- A number that fits is read back.
theorem ofLittleEndian_littleEndian (width n : Nat) :
    ofLittleEndian (littleEndian width n) = n % (1 <<< (8 * width)) := by
  induction width generalizing n with
  | zero => exact (Nat.mod_one n).symm
  | succ width ih =>
    have h : (UInt8.ofNat n).toNat = n % 256 := by simp
    have hbase : 1 <<< (8 * (width + 1)) = 256 * 1 <<< (8 * width) := by
      rw [Nat.mul_succ, Nat.add_comm, Nat.one_shiftLeft, Nat.one_shiftLeft, Nat.pow_add]
    rw [littleEndian, ofLittleEndian, ih, h, hbase, Nat.mod_mul]

end ClusterClient.Frame
