import ClusterClient.Hash.Checksum
import Mathlib.Data.List.Basic
import Mathlib.Data.Nat.Bitwise
/-!
# Steering a checksum

The remainder is linear over exclusive or: in what it was before, and in the bytes that it takes in.
So bytes at the end of a text change its checksum in a way that does not depend on what stands in
front of them, and three ASCII characters give any value to the bits by which keys are placed.
-/

namespace ClusterClient.Hash

/-! ## Linearity -/

theorem and_xor (a b m : UInt32) : (a ^^^ b) &&& m = (a &&& m) ^^^ (b &&& m) := by
  apply UInt32.toNat_inj.mp
  rw [UInt32.toNat_and, UInt32.toNat_xor, UInt32.toNat_xor, UInt32.toNat_and, UInt32.toNat_and]
  exact Nat.and_xor_distrib_right

theorem xor_xor_xor_comm (a b c d : UInt32) : a ^^^ b ^^^ (c ^^^ d) = a ^^^ c ^^^ (b ^^^ d) := by
  ac_rfl

theorem and_one_cases (r : UInt32) : r &&& 1 = 0 ∨ r &&& 1 = 1 := by
  have hlow : (r &&& 1).toNat = r.toNat % 2 := by
    rw [UInt32.toNat_and]
    exact Nat.and_one_is_mod _
  rcases Nat.mod_two_eq_zero_or_one r.toNat with h | h
  · exact .inl (UInt32.toNat_inj.mp (hlow.trans h))
  · exact .inr (UInt32.toNat_inj.mp (hlow.trans h))

/-- What is added to a remainder that moves down one place. -/
def added (r : UInt32) : UInt32 := if r &&& 1 = 0 then 0 else 0xEDB88320

theorem shift_eq (r : UInt32) : shift r = (r >>> 1) ^^^ added r := by
  unfold shift added
  split
  · exact UInt32.xor_zero.symm
  · rfl

theorem added_xor (a b : UInt32) : added (a ^^^ b) = added a ^^^ added b := by
  unfold added
  rw [and_xor]
  rcases and_one_cases a with ha | ha <;> rcases and_one_cases b with hb | hb <;>
    rw [ha, hb] <;> rfl

theorem shift_xor (a b : UInt32) : shift (a ^^^ b) = shift a ^^^ shift b := by
  rw [shift_eq, shift_eq, shift_eq, added_xor, UInt32.shiftRight_xor, xor_xor_xor_comm]

theorem crcByte_xor (r d : UInt32) (b e : UInt8) :
    crcByte (r ^^^ d) (b ^^^ e) = crcByte r b ^^^ crcByte d e := by
  unfold crcByte
  rw [UInt8.toUInt32_xor, xor_xor_xor_comm]
  simp only [shift_xor]

theorem crcBytes_xor (r d : UInt32) {xs ys : List UInt8} (h : xs.length = ys.length) :
    crcBytes (r ^^^ d) (List.zipWith (· ^^^ ·) xs ys) = crcBytes r xs ^^^ crcBytes d ys := by
  induction xs generalizing ys r d with
  | nil =>
    obtain rfl := List.eq_nil_of_length_eq_zero h.symm
    rfl
  | cons x xs ih =>
    cases ys with
    | nil => cases h
    | cons y ys =>
      have hrest := ih (crcByte r x) (crcByte d y) (Nat.succ.inj h)
      rw [← crcByte_xor] at hrest
      exact hrest

/-! ## The bits of a key -/

/-- The fifteen bits of a checksum by which a key is placed. -/
def keyBits (r : UInt32) : UInt32 := (r >>> 16) &&& 0x7fff

theorem keyBits_xor (a b : UInt32) : keyBits (a ^^^ b) = keyBits a ^^^ keyBits b := by
  rw [keyBits, UInt32.shiftRight_xor, and_xor]
  rfl

theorem toNat_keyBits_lt (r : UInt32) : (keyBits r).toNat < 2 ^ 15 := by
  rw [keyBits, UInt32.toNat_and]
  exact Nat.lt_of_le_of_lt Nat.and_le_right (by decide)

/-! ## Three characters -/

/-- Three ASCII characters, taken in by a remainder of zeros, leave a value in the bits of a key. -/
structure Steers (bytes : List UInt8) (value : Nat) : Prop where
  length_eq : bytes.length = 3
  ascii : ∀ b ∈ bytes, b.toNat < 2 ^ 7
  leaves : (keyBits (crcBytes 0 bytes)).toNat = value

theorem Steers.xor {xs ys : List UInt8} {v w : Nat} (hx : Steers xs v) (hy : Steers ys w) :
    Steers (List.zipWith (· ^^^ ·) xs ys) (v ^^^ w) where
  length_eq := by rw [List.length_zipWith, hx.length_eq, hy.length_eq, Nat.min_self]
  ascii := by
    intro b hb
    obtain ⟨k, hk, rfl⟩ := List.getElem_of_mem hb
    rw [List.getElem_zipWith, UInt8.toNat_xor]
    exact Nat.xor_lt_two_pow (hx.ascii _ (List.getElem_mem _)) (hy.ascii _ (List.getElem_mem _))
  leaves := by
    have h := crcBytes_xor 0 0 (hx.length_eq.trans hy.length_eq.symm)
    rw [UInt32.xor_self] at h
    rw [h, keyBits_xor, UInt32.toNat_xor, hx.leaves, hy.leaves]

/-- Three characters for each bit of a key, the lowest bit first. They solve the linear equations
that say that no other bit of the key is set. -/
def steering : Vector (List UInt8) 15 := #v[
  [83, 15, 6], [46, 12, 7], [19, 0, 7], [93, 4, 0], [46, 13, 4], [39, 30, 6], [48, 30, 5],
  [121, 13, 2], [102, 31, 0], [14, 18, 5], [98, 6, 3], [55, 26, 3], [95, 14, 6], [101, 1, 1],
  [94, 7, 6]]

theorem steers_steering (place : Fin 15) : Steers steering[place] (2 ^ place.val) where
  length_eq := by revert place; decide
  ascii := by revert place; decide +kernel
  leaves := by revert place; decide +kernel

-- Exclusive or with its highest bit takes that bit from a number.
theorem xor_two_pow_lt {value width : Nat} (hlow : 2 ^ width ≤ value)
    (h : value < 2 ^ (width + 1)) : value ^^^ 2 ^ width < 2 ^ width := by
  apply Nat.lt_pow_two_of_testBit
  intro place hplace
  rw [Nat.testBit_xor, Nat.testBit_two_pow]
  rcases Nat.eq_or_lt_of_le hplace with rfl | hlt
  · rw [Nat.testBit_of_two_pow_le_and_two_pow_add_one_gt hlow h, decide_eq_true rfl]
    rfl
  · have hle : 2 ^ (width + 1) ≤ 2 ^ place := Nat.pow_le_pow_right (by decide) hlt
    rw [Nat.testBit_eq_false_of_lt (Nat.lt_of_lt_of_le h hle), decide_eq_false (Nat.ne_of_lt hlt)]
    rfl

-- A value is the exclusive or of its bits, so that the characters for these make those for it.
theorem exists_steers {width : Nat} (hwidth : width ≤ 15) {value : Nat} (h : value < 2 ^ width) :
    ∃ bytes, Steers bytes value := by
  induction width generalizing value with
  | zero =>
    obtain rfl : value = 0 := by omega
    exact ⟨[0, 0, 0], rfl, by decide +kernel, by decide +kernel⟩
  | succ width ih =>
    by_cases hlow : value < 2 ^ width
    · exact ih (by omega) hlow
    · have hrest := xor_two_pow_lt (Nat.le_of_not_lt hlow) h
      obtain ⟨xs, hxs⟩ := ih (by omega) hrest
      have hboth := hxs.xor (steers_steering ⟨width, by omega⟩)
      rw [Nat.xor_assoc, Nat.xor_self, Nat.xor_zero] at hboth
      exact ⟨_, hboth⟩

-- What characters leave of a remainder is what zeros in their places leave, changed by what the
-- characters leave of nothing.
theorem crcBytes_of_zeros (r : UInt32) {bytes : List UInt8} (h : bytes.length = 3) :
    crcBytes r bytes = crcBytes r [0, 0, 0] ^^^ crcBytes 0 bytes := by
  have hzeros : List.zipWith (· ^^^ ·) [0, 0, 0] bytes = bytes := by
    obtain ⟨a, b, c, rfl⟩ := List.length_eq_three.mp h
    simp only [List.zipWith_cons_cons, List.zipWith_nil_right, UInt8.zero_xor]
  have hlength : ([0, 0, 0] : List UInt8).length = bytes.length := h.symm
  have hsum := crcBytes_xor r 0 hlength
  rw [UInt32.xor_zero, hzeros] at hsum
  exact hsum

/-- Whatever a remainder is, three ASCII characters give any value to the bits of the key. -/
theorem exists_suffix (r : UInt32) {value : Nat} (h : value < 2 ^ 15) :
    ∃ bytes : List UInt8, bytes.length = 3 ∧ (∀ b ∈ bytes, b.toNat < 2 ^ 7) ∧
      (keyBits (~~~ crcBytes r bytes)).toNat = value := by
  -- the characters make up for what zeros in their places would leave
  obtain ⟨bytes, hbytes⟩ := exists_steers (Nat.le_refl 15)
    (Nat.xor_lt_two_pow h (toNat_keyBits_lt (~~~ crcBytes r [0, 0, 0])))
  refine ⟨bytes, hbytes.length_eq, hbytes.ascii, ?_⟩
  rw [crcBytes_of_zeros r hbytes.length_eq, ← UInt32.not_xor, keyBits_xor, UInt32.toNat_xor,
    hbytes.leaves, Nat.xor_comm value, ← Nat.xor_assoc, Nat.xor_self, Nat.zero_xor]

end ClusterClient.Hash
