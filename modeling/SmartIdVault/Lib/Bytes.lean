import Mathlib.Tactic.Ring
import Mathlib.Data.List.Basic
import Mathlib.Data.List.Induction

/-! Byte lists and the big-endian fields of wire formats. -/

abbrev Bytes := List UInt8

namespace Bytes

/-- The number `n` in `w` bytes, most significant first; what does not fit is cut off. -/
def bigEndian : Nat → Nat → Bytes
  | 0, _ => []
  | w + 1, n => bigEndian w (n / 256) ++ [UInt8.ofNat n]

def ofBigEndian (bs : Bytes) : Nat := bs.foldl (fun n b => n * 256 + b.toNat) 0

@[simp] theorem length_bigEndian (w n : Nat) : (bigEndian w n).length = w := by
  induction w generalizing n with
  | zero => rfl
  | succ w ih => simp [bigEndian, ih]

theorem ofBigEndian_append_singleton (bs : Bytes) (b : UInt8) :
    ofBigEndian (bs ++ [b]) = ofBigEndian bs * 256 + b.toNat := by
  simp [ofBigEndian]

theorem ofBigEndian_bigEndian (w n : Nat) : ofBigEndian (bigEndian w n) = n % 256 ^ w := by
  induction w generalizing n with
  | zero => simp [bigEndian, ofBigEndian, Nat.mod_one]
  | succ w ih =>
    have low : (UInt8.ofNat n).toNat = n % 256 := by simp
    rw [bigEndian, ofBigEndian_append_singleton, ih, low, pow_succ', Nat.mod_mul]
    omega

theorem ofBigEndian_bigEndian_of_lt {w n : Nat} (h : n < 256 ^ w) :
    ofBigEndian (bigEndian w n) = n := by
  rw [ofBigEndian_bigEndian, Nat.mod_eq_of_lt h]

theorem ofBigEndian_lt (bs : Bytes) : ofBigEndian bs < 256 ^ bs.length := by
  induction bs using List.reverseRecOn with
  | nil => exact Nat.one_pos
  | append_singleton bs b ih =>
    have hb := b.toNat_lt
    rw [ofBigEndian_append_singleton, List.length_append, List.length_singleton, pow_succ]
    omega

theorem bigEndian_ofBigEndian {w : Nat} {bs : Bytes} (h : bs.length = w) :
    bigEndian w (ofBigEndian bs) = bs := by
  induction w generalizing bs with
  | zero => exact (List.eq_nil_of_length_eq_zero h).symm
  | succ w ih =>
    obtain ⟨bs, b, rfl⟩ := (List.eq_nil_or_concat' bs).resolve_left (by rintro rfl; cases h)
    have hb := b.toNat_lt
    have hdiv : (ofBigEndian bs * 256 + b.toNat) / 256 = ofBigEndian bs := by omega
    have hlow : UInt8.ofNat (ofBigEndian bs * 256 + b.toNat) = b := by
      apply UInt8.toNat_inj.mp
      rw [UInt8.toNat_ofNat']
      omega
    rw [ofBigEndian_append_singleton, bigEndian, hdiv, hlow, ih (by simpa using h)]

theorem bigEndian_inj {w m n : Nat} (hm : m < 256 ^ w) (hn : n < 256 ^ w)
    (h : bigEndian w m = bigEndian w n) : m = n := by
  rw [← ofBigEndian_bigEndian_of_lt hm, h, ofBigEndian_bigEndian_of_lt hn]

/-- The number `n` in `w` bytes, least significant first. -/
def littleEndian (w n : Nat) : Bytes := (bigEndian w n).reverse

@[simp] theorem length_littleEndian (w n : Nat) : (littleEndian w n).length = w := by
  simp [littleEndian]

theorem littleEndian_inj {w m n : Nat} (hm : m < 256 ^ w) (hn : n < 256 ^ w)
    (h : littleEndian w m = littleEndian w n) : m = n :=
  bigEndian_inj hm hn (List.reverse_inj.mp h)

def ofLittleEndian (bs : Bytes) : Nat := ofBigEndian bs.reverse

theorem ofLittleEndian_littleEndian_of_lt {w n : Nat} (h : n < 256 ^ w) :
    ofLittleEndian (littleEndian w n) = n := by
  rw [ofLittleEndian, littleEndian, List.reverse_reverse, ofBigEndian_bigEndian_of_lt h]

end Bytes
