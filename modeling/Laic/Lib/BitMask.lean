/-! # Masks of flag bits

Setting, clearing and reading the bits of a mask in a 32-bit word. -/

namespace BitMask

theorem or_and_self (flags mask : UInt32) : (flags ||| mask) &&& mask = mask := by
  apply UInt32.toBitVec_inj.mp
  ext bit inside
  simp only [UInt32.toBitVec_and, UInt32.toBitVec_or, BitVec.getElem_and, BitVec.getElem_or]
  grind

theorem and_not_and_self (flags mask : UInt32) : (flags &&& ~~~mask) &&& mask = 0 := by
  apply UInt32.toBitVec_inj.mp
  ext bit inside
  simp

/-- Setting bits changes no bit outside the mask. -/
theorem or_and_not (flags mask : UInt32) : (flags ||| mask) &&& ~~~mask = flags &&& ~~~mask := by
  apply UInt32.toBitVec_inj.mp
  ext bit inside
  simp only [UInt32.toBitVec_and, UInt32.toBitVec_or, UInt32.toBitVec_not, BitVec.getElem_and,
    BitVec.getElem_or, BitVec.getElem_not]
  grind

theorem and_not_and_not (flags mask : UInt32) :
    (flags &&& ~~~mask) &&& ~~~mask = flags &&& ~~~mask := by
  rw [UInt32.and_assoc, UInt32.and_self]

/-- What agrees outside a mask agrees on every other mask. -/
theorem and_eq_of_and_not_eq {flags flags' mask other : UInt32}
    (agree : flags &&& ~~~mask = flags' &&& ~~~mask) (disjoint : mask &&& other = 0) :
    flags &&& other = flags' &&& other := by
  have inside : ~~~mask &&& other = other := by
    apply UInt32.toBitVec_inj.mp
    have apart := congrArg UInt32.toBitVec disjoint
    ext bit inside
    have apartHere := congrArg (fun bits => bits[bit]) apart
    simp only [UInt32.toBitVec_and, BitVec.getElem_and, UInt32.toBitVec_ofNat,
      BitVec.getElem_zero] at apartHere
    simp only [UInt32.toBitVec_and, UInt32.toBitVec_not, BitVec.getElem_and, BitVec.getElem_not]
    grind
  calc flags &&& other = flags &&& (~~~mask &&& other) := by rw [inside]
    _ = flags' &&& (~~~mask &&& other) := by rw [← UInt32.and_assoc, agree, UInt32.and_assoc]
    _ = flags' &&& other := by rw [inside]

end BitMask
