import Duplex.Bytes

/-!
# Numbers in bytes

`Bytes.ofNat` and `Bytes.toNat` are inverse to each other: a number that fits into so many bytes is
read back from them (`toNat_ofNat`), and so many bytes are written again for the number that they
hold (`ofNat_toNat`).

What holds of each of the 256 bytes holds of every byte (`forall_byte`).
-/

namespace Duplex.Bytes

open scoped Numbers

theorem forall_byte {p : UInt8 → Prop} (h : ∀ n : Fin 256, p (.ofNat n)) (byte : UInt8) :
    p byte := by
  have hb := h ⟨byte.toNat, byte.toNat_lt⟩
  rwa [UInt8.ofNat_toNat] at hb

@[simp] theorem toNat_nil : toNat [] = 0 := rfl

theorem foldl_toNat (bs : Bytes) (n : Nat) :
    bs.foldl (fun n b => n * 256 + b.toNat) n = n * 256 ^ bs.length + toNat bs := by
  induction bs generalizing n with
  | nil => simp
  | cons b bs ih =>
    rw [toNat, List.foldl_cons, List.foldl_cons, ih, ih (0 * 256 + b.toNat), List.length_cons,
      Nat.pow_succ, Nat.zero_mul, Nat.zero_add, Nat.add_mul, Nat.add_assoc, Nat.mul_assoc,
      Nat.mul_comm 256]

/-- The first byte counts most. -/
theorem toNat_cons (b : UInt8) (bs : Bytes) :
    toNat (b :: bs) = b.toNat * 256 ^ bs.length + toNat bs := by
  rw [toNat, List.foldl_cons, foldl_toNat, Nat.zero_mul, Nat.zero_add]

theorem toNat_lt (bs : Bytes) : toNat bs < 256 ^ bs.length := by
  induction bs with
  | nil => exact Nat.one_pos
  | cons b bs ih =>
    have hb : b.toNat + 1 ≤ 256 := b.toNat_lt
    calc toNat (b :: bs)
      _ = b.toNat * 256 ^ bs.length + toNat bs := toNat_cons b bs
      _ < b.toNat * 256 ^ bs.length + 256 ^ bs.length := Nat.add_lt_add_left ih _
      _ = (b.toNat + 1) * 256 ^ bs.length := (Nat.succ_mul _ _).symm
      _ ≤ 256 * 256 ^ bs.length := Nat.mul_le_mul_right _ hb
      _ = 256 ^ (b :: bs).length := by rw [List.length_cons, Nat.pow_succ, Nat.mul_comm]

theorem toNat_ofNat (width n : Nat) : toNat (ofNat width n) = n % 256 ^ width := by
  induction width with
  | zero => rw [Nat.pow_zero, Nat.mod_one]; rfl
  | succ width ih =>
    have hb : (UInt8.ofNat (n / 256 ^ width)).toNat = n / 256 ^ width % 256 := UInt8.toNat_ofNat'
    rw [ofNat, toNat_cons, length_ofNat, ih, hb, Nat.pow_succ, Nat.mod_mul, Nat.add_comm,
      Nat.mul_comm]

theorem toNat_ofNat_of_lt {width n : Nat} (h : n < 256 ^ width) : toNat (ofNat width n) = n := by
  rw [toNat_ofNat, Nat.mod_eq_of_lt h]

/-- The low bytes of a number do not depend on what stands above them. -/
theorem ofNat_add (width n m : Nat) : ofNat width (n * 256 ^ width + m) = ofNat width m := by
  induction width generalizing n with
  | zero => rfl
  | succ width ih =>
    have hp : 0 < 256 ^ width := Nat.pow_pos (by decide)
    have hs : n * 256 ^ (width + 1) + m = n * 256 * 256 ^ width + m := by
      rw [Nat.pow_succ, Nat.mul_assoc, Nat.mul_comm 256]
    have hd : (n * 256 * 256 ^ width + m) / 256 ^ width = m / 256 ^ width + n * 256 := by
      rw [Nat.add_comm, Nat.add_mul_div_right _ _ hp]
    have hb : UInt8.ofNat (m / 256 ^ width + n * 256) = UInt8.ofNat (m / 256 ^ width) := by
      apply UInt8.toNat_inj.mp
      rw [UInt8.toNat_ofNat', UInt8.toNat_ofNat', Nat.add_mul_mod_self_right]
    rw [ofNat, ofNat, hs, ih, hd, hb]

theorem ofNat_toNat (bs : Bytes) : ofNat bs.length (toNat bs) = bs := by
  induction bs with
  | nil => rfl
  | cons b bs ih =>
    have hp : 0 < 256 ^ bs.length := Nat.pow_pos (by decide)
    have hb : (b.toNat * 256 ^ bs.length + toNat bs) / 256 ^ bs.length = b.toNat := by
      rw [Nat.add_comm, Nat.add_mul_div_right _ _ hp, Nat.div_eq_of_lt (toNat_lt bs), Nat.zero_add]
    rw [List.length_cons, ofNat, toNat_cons, hb, ofNat_add, ih, UInt8.ofNat_toNat]

end Duplex.Bytes
