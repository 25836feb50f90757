import Mathlib.Algebra.Group.Nat.Defs
import ScriptMachine.Binary.LittleEndian

/-!
# Packed words

A word that holds several numbers, each in bits of its own, is the sum of the numbers in their
places. So the numbers are found again by division.

* `toNat_or_shiftLeft` – a number placed above another one.
* `toNat_and_mask` – the number in the lowest bits.
* `LittleEndian.decode_encode`, `LittleEndian.encode_decode` – words and their four bytes.
-/

namespace ScriptMachine

/-- A number placed above the bits of another one adds to it. -/
theorem toNat_or_shiftLeft {x y k : UInt32} (hk : k.toNat < 32) (hx : x.toNat < 2 ^ k.toNat)
    (hy : y.toNat * 2 ^ k.toNat < 2 ^ 32) :
    (x ||| y <<< k).toNat = x.toNat + y.toNat * 2 ^ k.toNat := by
  have hshift : (y <<< k).toNat = y.toNat <<< k.toNat := by
    rw [UInt32.toNat_shiftLeft, Nat.mod_eq_of_lt hk, Nat.shiftLeft_eq, Nat.mod_eq_of_lt hy]
  rw [UInt32.toNat_or, hshift, Nat.or_comm, ← Nat.shiftLeft_add_eq_or_of_lt hx, Nat.shiftLeft_eq,
    Nat.add_comm]

/-- The lowest bits of a word are its remainder. -/
theorem toNat_and_mask (x : UInt32) {m : UInt32} {n : Nat} (hm : m.toNat = 2 ^ n - 1) :
    (x &&& m).toNat = x.toNat % 2 ^ n := by
  rw [UInt32.toNat_and, hm, Nat.and_two_pow_sub_one_eq_mod]

theorem toNat_shiftRight (x : UInt32) {k : UInt32} (hk : k.toNat < 32) :
    (x >>> k).toNat = x.toNat / 2 ^ k.toNat := by
  rw [UInt32.toNat_shiftRight, Nat.mod_eq_of_lt hk, Nat.shiftRight_eq_div_pow]

namespace LittleEndian

theorem toNat_decode (a b c d : UInt8) :
    (decode a b c d).toNat = a.toNat + b.toNat * 2 ^ 8 + c.toNat * 2 ^ 16 + d.toNat * 2 ^ 24 := by
  have ha := a.toNat_lt
  have hb := b.toNat_lt
  have hc := c.toNat_lt
  have hd := d.toNat_lt
  -- each byte lies above those before it, and below the end of the word
  have hb' : b.toUInt32.toNat * 2 ^ (8 : UInt32).toNat < 2 ^ 32 := by
    simp only [UInt8.toNat_toUInt32, UInt32.reduceToNat, Nat.reducePow]
    omega
  have hc' : c.toUInt32.toNat * 2 ^ (16 : UInt32).toNat < 2 ^ 32 := by
    simp only [UInt8.toNat_toUInt32, UInt32.reduceToNat, Nat.reducePow]
    omega
  have hd' : d.toUInt32.toNat * 2 ^ (24 : UInt32).toNat < 2 ^ 32 := by
    simp only [UInt8.toNat_toUInt32, UInt32.reduceToNat, Nat.reducePow]
    omega
  have h₁ : (a.toUInt32 ||| b.toUInt32 <<< 8).toNat = a.toNat + b.toNat * 2 ^ 8 :=
    toNat_or_shiftLeft (by decide) ha hb'
  have hlt₁ : (a.toUInt32 ||| b.toUInt32 <<< 8).toNat < 2 ^ 16 := by omega
  have h₂ : (a.toUInt32 ||| b.toUInt32 <<< 8 ||| c.toUInt32 <<< 16).toNat =
      a.toNat + b.toNat * 2 ^ 8 + c.toNat * 2 ^ 16 := by
    rw [toNat_or_shiftLeft (by decide) hlt₁ hc', h₁]
    rfl
  have hlt₂ : (a.toUInt32 ||| b.toUInt32 <<< 8 ||| c.toUInt32 <<< 16).toNat < 2 ^ 24 := by omega
  rw [decode, toNat_or_shiftLeft (by decide) hlt₂ hd', h₂]
  rfl

/-- The bytes of a word are read as the word. -/
theorem decode_encode (w : UInt32) :
    decode w.toUInt8 (w >>> 8).toUInt8 (w >>> 16).toUInt8 (w >>> 24).toUInt8 = w := by
  refine UInt32.toNat_inj.1 ?_
  have hw := w.toNat_lt
  rw [toNat_decode]
  simp only [UInt32.toNat_toUInt8, UInt32.toNat_shiftRight, Nat.shiftRight_eq_div_pow,
    UInt32.reduceToNat, Nat.reduceMod, Nat.reducePow]
  omega

end LittleEndian

end ScriptMachine
