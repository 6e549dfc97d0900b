import Mathlib.Data.Sym.Sym2

namespace MuduoIm.Common

/-! # The routing key of a private conversation

Two user ids are packed into one signed 64-bit word, the smaller one in the high
half, so that the key does not depend on who writes to whom.
-/

namespace Protocol

def privateRoutingKey (userIdA userIdB : Int64) : Int64 :=
  let lo := min userIdA userIdB
  let hi := max userIdA userIdB
  (lo <<< 32) ||| (hi &&& 0xFFFFFFFF)

/-- The instance, out of `instances`, that handles what one user sends to the other. -/
def routedTo (instances fromUserId toUserId : Int64) : Int64 :=
  privateRoutingKey fromUserId toUserId % instances

/-- Two ids of 32 bits, the smaller one of 31. -/
structure InRange (userIdA userIdB : Int64) : Prop where
  positiveA : 0 < userIdA
  positiveB : 0 < userIdB
  widthA : userIdA.toInt < 2 ^ 32
  widthB : userIdB.toInt < 2 ^ 32
  widthMin : (min userIdA userIdB).toInt < 2 ^ 31

theorem toInt_min (userIdA userIdB : Int64) :
    (min userIdA userIdB).toInt = min userIdA.toInt userIdB.toInt := by
  simp only [Min.min, Int64.le_iff_toInt_le]
  split <;> rfl

theorem toInt_max (userIdA userIdB : Int64) :
    (max userIdA userIdB).toInt = max userIdA.toInt userIdB.toInt := by
  simp only [Max.max, Int64.le_iff_toInt_le]
  split <;> rfl

theorem min_comm_int64 (userIdA userIdB : Int64) : min userIdA userIdB = min userIdB userIdA := by
  rw [← Int64.toInt_inj, toInt_min, toInt_min, min_comm]

theorem max_comm_int64 (userIdA userIdB : Int64) : max userIdA userIdB = max userIdB userIdA := by
  rw [← Int64.toInt_inj, toInt_max, toInt_max, max_comm]

theorem privateRoutingKey_comm (userIdA userIdB : Int64) :
    privateRoutingKey userIdA userIdB = privateRoutingKey userIdB userIdA := by
  simp only [privateRoutingKey, min_comm_int64 userIdA, max_comm_int64 userIdA]

/-! ## The arithmetic of the packing -/

/-- A word that is not negative is the number that its bits write. -/
theorem toNat_toBitVec {word : Int64} (nonnegative : 0 ≤ word.toInt) :
    (word.toBitVec.toNat : Int) = word.toInt := by
  have value : word.toInt = word.toBitVec.toInt := rfl
  rw [value, BitVec.toInt_eq_toNat_cond] at nonnegative ⊢
  have below := word.toBitVec.isLt
  split at nonnegative <;> omega

/-- Bits below `2 ^ 63` write a word that is not negative. -/
theorem toInt_of_toNat {word : Int64} {value : Nat} (bits : word.toBitVec.toNat = value)
    (small : value < 2 ^ 63) : word.toInt = value := by
  have unfolded : word.toInt = word.toBitVec.toInt := rfl
  rw [unfolded, BitVec.toInt_eq_toNat_cond, bits]
  split <;> omega

/-- A field over `width` low bits does not meet the bits above them. -/
theorem shiftLeft_or_eq {high low width : Nat} (fits : low < 2 ^ width) :
    (high <<< width) ||| low = high * 2 ^ width + low := by
  rw [← Nat.shiftLeft_add_eq_or_of_lt fits, Nat.shiftLeft_eq]

/-- The shift of a word of 31 bits leaves the sign alone. -/
theorem toInt_shiftLeft {lo : Int64} (nonnegative : 0 ≤ lo.toInt) (width : lo.toInt < 2 ^ 31) :
    (lo <<< 32).toInt = lo.toInt * 2 ^ 32 := by
  have bits := toNat_toBitVec nonnegative
  have shifted : (lo <<< 32).toBitVec.toNat = lo.toBitVec.toNat * 2 ^ 32 := by
    simp only [Int64.toBitVec_shiftLeft, Int64.toBitVec_ofNat]
    simp [Nat.shiftLeft_eq]
    omega
  rw [toInt_of_toNat shifted (by omega)]
  omega

theorem toInt_packed {lo hi : Int64} (nonnegativeLo : 0 ≤ lo.toInt) (widthLo : lo.toInt < 2 ^ 31)
    (nonnegativeHi : 0 ≤ hi.toInt) (widthHi : hi.toInt < 2 ^ 32) :
    ((lo <<< 32) ||| (hi &&& 0xFFFFFFFF)).toInt = lo.toInt * 2 ^ 32 + hi.toInt := by
  have bitsLo := toNat_toBitVec nonnegativeLo
  have bitsHi := toNat_toBitVec nonnegativeHi
  have shifted : (lo <<< 32).toBitVec.toNat = lo.toBitVec.toNat <<< 32 := by
    have value := @toNat_toBitVec (lo <<< 32)
    rw [toInt_shiftLeft nonnegativeLo widthLo] at value
    rw [Nat.shiftLeft_eq]
    omega
  have masked : (hi &&& 0xFFFFFFFF).toBitVec.toNat = hi.toBitVec.toNat := by
    have below : hi.toBitVec.toNat < 2 ^ 32 := by omega
    have kept := Nat.and_two_pow_sub_one_eq_mod hi.toBitVec.toNat 32
    rw [Nat.mod_eq_of_lt below] at kept
    simpa using kept
  have packed : ((lo <<< 32) ||| (hi &&& 0xFFFFFFFF)).toBitVec.toNat =
      lo.toBitVec.toNat * 2 ^ 32 + hi.toBitVec.toNat := by
    rw [Int64.toBitVec_or, BitVec.toNat_or, shifted, masked, shiftLeft_or_eq (by omega)]
  rw [toInt_of_toNat packed (by omega)]
  omega

/-- The two ids stand side by side in the key. -/
theorem toInt_privateRoutingKey {userIdA userIdB : Int64} (range : InRange userIdA userIdB) :
    (privateRoutingKey userIdA userIdB).toInt =
      min userIdA.toInt userIdB.toInt * 2 ^ 32 + max userIdA.toInt userIdB.toInt := by
  obtain ⟨positiveA, positiveB, widthA, widthB, widthMin⟩ := range
  rw [Int64.lt_iff_toInt_lt, Int64.toInt_zero] at positiveA positiveB
  rw [← toInt_min, ← toInt_max]
  have atMin := toInt_min userIdA userIdB
  have atMax := toInt_max userIdA userIdB
  exact toInt_packed (by omega) widthMin (by omega) (by omega)

/-! ## What the key identifies -/

theorem shiftLeft_min {userIdA userIdB : Int64} (range : InRange userIdA userIdB) :
    (min userIdA userIdB <<< 32).toInt = (min userIdA userIdB).toInt * 2 ^ 32 := by
  obtain ⟨positiveA, positiveB, _, _, widthMin⟩ := range
  rw [Int64.lt_iff_toInt_lt, Int64.toInt_zero] at positiveA positiveB
  have atMin := toInt_min userIdA userIdB
  exact toInt_shiftLeft (by omega) widthMin

theorem privateRoutingKey_pos {userIdA userIdB : Int64} (range : InRange userIdA userIdB) :
    0 < privateRoutingKey userIdA userIdB := by
  have value := toInt_privateRoutingKey range
  obtain ⟨positiveA, positiveB, _, _, _⟩ := range
  rw [Int64.lt_iff_toInt_lt, Int64.toInt_zero] at positiveA positiveB ⊢
  omega

/-- Two pairs with one key are one pair. -/
theorem privateRoutingKey_injective {userIdA userIdB userIdC userIdD : Int64}
    (range : InRange userIdA userIdB) (other : InRange userIdC userIdD)
    (same : privateRoutingKey userIdA userIdB = privateRoutingKey userIdC userIdD) :
    s(userIdA, userIdB) = s(userIdC, userIdD) := by
  have value := toInt_privateRoutingKey range
  rw [same, toInt_privateRoutingKey other] at value
  obtain ⟨positiveA, positiveB, widthA, widthB, _⟩ := range
  obtain ⟨positiveC, positiveD, widthC, widthD, _⟩ := other
  rw [Int64.lt_iff_toInt_lt, Int64.toInt_zero] at positiveA positiveB positiveC positiveD
  rw [Sym2.eq_iff, ← Int64.toInt_inj, ← Int64.toInt_inj, ← Int64.toInt_inj, ← Int64.toInt_inj]
  omega

/-- Whoever of the two writes, one and the same instance handles it. -/
theorem routedTo_eq {fromUserId toUserId userIdA userIdB : Int64}
    (between : s(fromUserId, toUserId) = s(userIdA, userIdB)) (instances : Int64) :
    routedTo instances fromUserId toUserId = routedTo instances userIdA userIdB := by
  obtain ⟨rfl, rfl⟩ | ⟨rfl, rfl⟩ := Sym2.eq_iff.mp between
  · rfl
  · rw [routedTo, privateRoutingKey_comm, routedTo]

theorem routedTo_bounds {userIdA userIdB : Int64} (range : InRange userIdA userIdB)
    {instances : Int64} (some : 0 < instances) :
    0 ≤ routedTo instances userIdA userIdB ∧ routedTo instances userIdA userIdB < instances := by
  have positive := privateRoutingKey_pos range
  rw [Int64.lt_iff_toInt_lt, Int64.toInt_zero] at positive some
  rw [Int64.le_iff_toInt_le, Int64.lt_iff_toInt_lt, routedTo, Int64.toInt_mod, Int64.toInt_zero]
  exact ⟨Int.tmod_nonneg _ positive.le, Int.tmod_lt_of_pos _ some⟩

theorem privateRoutingKey_identifies (userIdA userIdB : Int64) (range : InRange userIdA userIdB) :
    privateRoutingKey userIdA userIdB = privateRoutingKey userIdB userIdA ∧
    (∀ userIdC userIdD, InRange userIdC userIdD →
      privateRoutingKey userIdA userIdB = privateRoutingKey userIdC userIdD →
      s(userIdA, userIdB) = s(userIdC, userIdD)) ∧
    (min userIdA userIdB <<< 32).toInt = (min userIdA userIdB).toInt * 2 ^ 32 ∧
    0 < privateRoutingKey userIdA userIdB ∧
    ∀ instances : Int64, 0 < instances →
      0 ≤ routedTo instances userIdA userIdB ∧ routedTo instances userIdA userIdB < instances ∧
      ∀ fromUserId toUserId, s(fromUserId, toUserId) = s(userIdA, userIdB) →
        routedTo instances fromUserId toUserId = routedTo instances userIdA userIdB := by
  refine ⟨privateRoutingKey_comm userIdA userIdB, fun _ _ => privateRoutingKey_injective range,
    shiftLeft_min range, privateRoutingKey_pos range, ?_⟩
  intro instances positive
  have bounds := routedTo_bounds range positive
  exact ⟨bounds.1, bounds.2, fun _ _ between => routedTo_eq between instances⟩

/-- At the boundary that the routing test samples. -/
theorem privateRoutingKey_identifies_boundary :
    privateRoutingKey 0xFFFFFFFF 0x7FFFFFFF = privateRoutingKey 0x7FFFFFFF 0xFFFFFFFF ∧
    0 < privateRoutingKey 0xFFFFFFFF 0x7FFFFFFF := by
  have identified := privateRoutingKey_identifies 0xFFFFFFFF 0x7FFFFFFF
    ⟨by decide, by decide, by decide, by decide, by decide⟩
  exact ⟨identified.1, identified.2.2.2.1⟩

end Protocol

end MuduoIm.Common
