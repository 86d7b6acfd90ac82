/-!
Byte memories of a fixed size. A read of the cell just written returns the written
byte, and a read of any other cell returns what it returned before.
-/
namespace Handheld

@[ext] structure Memory (n : Nat) where
  bytes : ByteArray
  size_bytes : bytes.size = n

namespace Memory

variable {n : Nat}

def zero (n : Nat) : Memory n :=
  ⟨⟨Array.replicate n 0⟩, by simp [ByteArray.size]⟩

/-- The bytes as a memory, if there are exactly `n` of them. -/
def ofBytes? (n : Nat) (bytes : ByteArray) : Option (Memory n) :=
  if h : bytes.size = n then some ⟨bytes, h⟩ else none

def get (m : Memory n) (i : Fin n) : UInt8 :=
  m.bytes.get i.val (by rw [m.size_bytes]; exact i.isLt)

def set (m : Memory n) (i : Fin n) (v : UInt8) : Memory n where
  bytes := m.bytes.set i.val v (by rw [m.size_bytes]; exact i.isLt)
  size_bytes := (Array.size_set _).trans m.size_bytes

@[simp] theorem get_zero (i : Fin n) : (zero n).get i = 0 := by
  exact Array.getElem_replicate _

theorem get_set (m : Memory n) (i j : Fin n) (v : UInt8) :
    (m.set i v).get j = if i = j then v else m.get j := by
  have hi : i.val < m.bytes.size := Nat.lt_of_lt_of_eq i.isLt m.size_bytes.symm
  have hj : j.val < (m.set i v).bytes.size := Nat.lt_of_lt_of_eq j.isLt (m.set i v).size_bytes.symm
  simp only [Fin.ext_iff]
  exact Array.getElem_set hi hj

@[simp] theorem get_set_same (m : Memory n) (i : Fin n) (v : UInt8) :
    (m.set i v).get i = v := by simp [get_set]

theorem get_set_of_ne (m : Memory n) {i j : Fin n} (v : UInt8) (h : i ≠ j) :
    (m.set i v).get j = m.get j := by simp [get_set, h]

@[simp] theorem ofBytes?_bytes (m : Memory n) : ofBytes? n m.bytes = some m := by
  simp [ofBytes?, m.size_bytes]

end Memory

end Handheld
