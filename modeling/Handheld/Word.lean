/-!
Sixteen-bit words as a high and a low byte, and the sign extension of a byte offset.
-/
namespace Handheld

/-- Bytes are few enough to be tried one after the other. -/
theorem forall_byte {P : UInt8 → Prop} (h : ∀ n : Fin 256, P (UInt8.ofNat n)) (v : UInt8) :
    P v := by
  have hv := h ⟨v.toNat, v.toNat_lt⟩
  rwa [UInt8.ofNat_toNat] at hv

namespace Word

/-- The word whose upper half is `high` and whose lower half is `low`. -/
def join (high low : UInt8) : UInt16 :=
  UInt16.ofNat (256 * high.toNat + low.toNat)

def high (w : UInt16) : UInt8 := UInt8.ofNat (w.toNat / 256)

def low (w : UInt16) : UInt8 := UInt8.ofNat w.toNat

/-- A byte read as a signed offset in two's complement. -/
def signExtend (offset : UInt8) : UInt16 :=
  if offset < 0x80 then offset.toUInt16 else offset.toUInt16 + 0xFF00

theorem toNat_join (h l : UInt8) : (join h l).toNat = 256 * h.toNat + l.toNat := by
  have hh := h.toNat_lt
  have hl := l.toNat_lt
  rw [join, UInt16.toNat_ofNat']
  exact Nat.mod_eq_of_lt (by omega)

theorem toNat_high (w : UInt16) : (high w).toNat = w.toNat / 256 := by
  have hw := w.toNat_lt
  rw [high, UInt8.toNat_ofNat']
  exact Nat.mod_eq_of_lt (by omega)

theorem toNat_low (w : UInt16) : (low w).toNat = w.toNat % 256 := by
  rw [low, UInt8.toNat_ofNat']

@[simp] theorem high_join (h l : UInt8) : high (join h l) = h := by
  apply UInt8.toNat_inj.mp
  have hl := l.toNat_lt
  rw [toNat_high, toNat_join]
  omega

@[simp] theorem low_join (h l : UInt8) : low (join h l) = l := by
  apply UInt8.toNat_inj.mp
  have hl := l.toNat_lt
  rw [toNat_low, toNat_join]
  omega

@[simp] theorem join_high_low (w : UInt16) : join (high w) (low w) = w := by
  apply UInt16.toNat_inj.mp
  rw [toNat_join, toNat_high, toNat_low]
  omega

end Word

end Handheld
