import Mathlib.Data.Prod.Lex
import Mathlib.Data.String.Basic
import MuduoIm.Data.Number
import MuduoIm.Data.StableInsert
import MuduoIm.Web.MessageCache

namespace MuduoIm.Web.MessageOrder

open MuduoIm.Data MuduoIm.Data.StableInsert

/-! # The order of messages over all numbers

The page reads ids and timestamps from JSON, so either may be absent and a
timestamp may be any number.
-/

/-- The members that the order looks at; `rest` stands for the others. -/
structure Message (Rest : Type) where
  msgId : Option String
  timestamp : Option Number
  rest : Rest
deriving DecidableEq

variable {Rest : Type}

/-- `msgId && /^\d+$/.test(msgId)` -/
def Message.isSnow (message : Message Rest) : Bool := message.msgId.any MessageCache.isSnow

def cmpByMsgId (a b : Message Rest) : Number :=
  if a.isSnow && b.isSnow then
    let aId := a.msgId.getD ""
    let bId := b.msgId.getD ""
    if aId.length ≠ bId.length then (Number.ofInt aId.length).sub (Number.ofInt bId.length)
    else if aId < bId then Number.ofInt (-1)
    else if bId < aId then Number.ofInt 1
    else Number.ofInt 0
  else if a.isSnow && !b.isSnow then Number.ofInt (-1)
  else if !a.isSnow && b.isSnow then Number.ofInt 1
  else (Number.orZero a.timestamp).sub (Number.orZero b.timestamp)

/-- The new array and the index that is returned; `place` is `i + 1` where the loop ends. -/
def insertMessageSorted (arr : List (Message Rest)) (msg : Message Rest) : List (Message Rest) × ℕ :=
  if arr.getLast?.all (fun last => (cmpByMsgId last msg).atMostZero) then (arr ++ [msg], arr.length)
  else
    let index := place (fun other => (cmpByMsgId other msg).aboveZero) arr arr.length
    (insertAt arr msg index, index)

/-- No message compares greater than a later one. -/
def Sorted (arr : List (Message Rest)) : Prop := arr.Pairwise (fun a b => (cmpByMsgId a b).atMostZero = true)

instance (arr : List (Message Rest)) : Decidable (Sorted arr) :=
  inferInstanceAs (Decidable (arr.Pairwise _))

/-- Where the timestamp is looked at, it is not infinite. -/
def Timed (message : Message Rest) : Prop := message.isSnow = true ∨ (Number.orZero message.timestamp).IsFinite

def units : Number → ℤ
  | .finite units => units
  | _ => 0

/-- Digit strings by length and digits come first, then the other messages by their time. -/
def rank (message : Message Rest) : ℕ ×ₗ ℤ ×ₗ String :=
  if message.isSnow then
    toLex (0, toLex (((message.msgId.getD "").length : ℤ), message.msgId.getD ""))
  else toLex (1, toLex (units (Number.orZero message.timestamp), ""))

variable {a b c msg : Message Rest} {arr : List (Message Rest)}

theorem orderSign_toLex_of_eq {First Second : Type} [LinearOrder First] [LinearOrder Second] (head : First)
    (first second : Second) : orderSign (toLex (head, first)) (toLex (head, second)) = orderSign first second := by
  simp [orderSign, Prod.Lex.toLex_lt_toLex]

theorem orderSign_int (first second : ℤ) : orderSign first second = (first - second).sign := by
  rcases lt_trichotomy first second with below | rfl | above
  · rw [Int.sign_eq_neg_one_of_neg (by omega), orderSign, if_pos below]
  · simp [orderSign]
  · rw [Int.sign_eq_one_of_pos (by omega), orderSign, if_neg above.asymm, if_pos above]

/-- The comparison is that of the ranks. -/
theorem sign_cmpByMsgId (timedA : Timed a) (timedB : Timed b) :
    (cmpByMsgId a b).sign = some (orderSign (rank a) (rank b)) := by
  rw [cmpByMsgId, rank, rank]
  cases snowA : a.isSnow <;> cases snowB : b.isSnow
  · -- two other messages
    obtain ⟨timeA, knownA⟩ := timedA.resolve_left (by simp [snowA])
    obtain ⟨timeB, knownB⟩ := timedB.resolve_left (by simp [snowB])
    simp only [Bool.and_self, Bool.not_false, Bool.and_true, Bool.and_false, Bool.false_eq_true, if_false, knownA,
      knownB, units]
    rw [Number.sign_sub, orderSign_toLex_of_eq, ← orderSign_int]
    simp [orderSign, Prod.Lex.toLex_lt_toLex]
  · simp [Number.sign_ofInt, orderSign, Prod.Lex.toLex_lt_toLex]
  · simp [Number.sign_ofInt, orderSign, Prod.Lex.toLex_lt_toLex]
  · -- two server ids
    simp only [Bool.and_self, if_true, orderSign_toLex_of_eq]
    generalize a.msgId.getD "" = aId
    generalize b.msgId.getD "" = bId
    by_cases equal : aId.length = bId.length
    · rw [if_neg (not_not.mpr equal), equal, orderSign_toLex_of_eq]
      rcases lt_trichotomy aId bId with below | rfl | above
      · simp [Number.sign_ofInt, orderSign, below]
      · simp [Number.sign_ofInt, orderSign]
      · simp [Number.sign_ofInt, orderSign, above, above.asymm]
    · have apart : (aId.length : ℤ) ≠ bId.length := by exact_mod_cast equal
      rw [if_pos equal, Number.sign_sub_ofInt, ← orderSign_int]
      simp [orderSign, Prod.Lex.toLex_lt_toLex, apart, apart.symm]

theorem atMostZero_iff (timedA : Timed a) (timedB : Timed b) :
    (cmpByMsgId a b).atMostZero = true ↔ rank a ≤ rank b := by
  rw [Number.atMostZero, sign_cmpByMsgId timedA timedB, Option.any_some, decide_eq_true_eq, orderSign_nonpos]

theorem aboveZero_iff (timedA : Timed a) (timedB : Timed b) :
    (cmpByMsgId a b).aboveZero = true ↔ rank b < rank a := by
  rw [Number.aboveZero, sign_cmpByMsgId timedA timedB, Option.any_some, decide_eq_true_eq, orderSign_pos]

theorem sorted_iff (timed : ∀ message ∈ arr, Timed message) :
    Sorted arr ↔ arr.Pairwise (fun a b => rank a ≤ rank b) :=
  List.Pairwise.iff_of_mem fun member other => atMostZero_iff (timed _ member) (timed _ other)

/-- The fast path puts the message where the scan would, whatever the timestamps. -/
theorem insertMessageSorted_eq (arr : List (Message Rest)) (msg : Message Rest) :
    insertMessageSorted arr msg =
      (insertAt arr msg (place (fun other => (cmpByMsgId other msg).aboveZero) arr arr.length),
        place (fun other => (cmpByMsgId other msg).aboveZero) arr arr.length) := by
  rw [insertMessageSorted]
  split
  · next fast =>
      have last : ∀ item ∈ arr.getLast?, (cmpByMsgId item msg).aboveZero = false := by
        intro item member
        rw [member, Option.all_some] at fast
        exact Number.not_aboveZero fast
      rw [place_length last, insertAt_length]
  · rfl

/-- The message parts the array: what is behind it is greater. -/
theorem parts_of_sorted (timed : ∀ message ∈ arr, Timed message) (timedMsg : Timed msg) (sorted : Sorted arr) :
    (∀ other ∈ arr.take (insertMessageSorted arr msg).2, rank other ≤ rank msg) ∧
      ∀ other ∈ arr.drop (insertMessageSorted arr msg).2, rank msg < rank other := by
  rw [insertMessageSorted_eq]
  exact place_parts ((sorted_iff timed).mp sorted) fun other member => aboveZero_iff (timed other member) timedMsg

theorem sorted_insertMessageSorted (timed : ∀ message ∈ arr, Timed message) (timedMsg : Timed msg)
    (sorted : Sorted arr) : Sorted (insertMessageSorted arr msg).1 := by
  have parts := parts_of_sorted timed timedMsg sorted
  have all : ∀ message ∈ (insertMessageSorted arr msg).1, Timed message := by
    intro message member
    rw [insertMessageSorted_eq] at member
    rcases List.mem_cons.mp (insertAt_perm.mem_iff.mp member) with rfl | old
    · exact timedMsg
    · exact timed message old
  rw [sorted_iff all]
  rw [insertMessageSorted_eq] at parts ⊢
  exact sorted_insertAt ((sorted_iff timed).mp sorted) parts.1 parts.2

theorem index_le_length (arr : List (Message Rest)) (msg : Message Rest) :
    (insertMessageSorted arr msg).2 ≤ arr.length := by
  rw [insertMessageSorted_eq]
  exact place_le _ _ _

/-- What compares equal to the message is in front of it. -/
theorem le_index_of_equal (timed : ∀ message ∈ arr, Timed message) (timedMsg : Timed msg) (sorted : Sorted arr)
    {index : ℕ} {other : Message Rest} (found : (insertMessageSorted arr msg).1[index]? = some other)
    (equal : (cmpByMsgId other msg).sign = some 0) : index ≤ (insertMessageSorted arr msg).2 := by
  by_contra behind
  have within := index_le_length arr msg
  have parts := (parts_of_sorted timed timedMsg sorted).2
  rw [insertMessageSorted_eq] at found within parts behind
  have member := mem_drop_of_insertAt within (Nat.lt_of_not_le behind) found
  have greater := orderSign_pos.mpr (parts other member)
  rw [sign_cmpByMsgId (timed other (List.mem_of_mem_drop member)) timedMsg, Option.some_inj] at equal
  omega

/-- A message whose timestamp is looked at and infinite does not compare equal to itself. -/
theorem sign_self_iff (a : Message Rest) : (cmpByMsgId a a).sign = some 0 ↔ Timed a := by
  refine ⟨fun equal => ?_, fun timed => by rw [sign_cmpByMsgId timed timed, orderSign_self]⟩
  rw [cmpByMsgId] at equal
  cases snow : a.isSnow with
  | true => exact .inl snow
  | false =>
      simp only [snow, Bool.and_self, Bool.not_false, Bool.and_true, Bool.false_eq_true, if_false] at equal
      cases time : Number.orZero a.timestamp with
      | nan => simp [time, Number.sub, Number.sign] at equal
      | infinite negative => simp [time, Number.sub, Number.sign] at equal
      | finite units => exact .inr ⟨units, time⟩

/-- On the messages whose timestamps are not infinite the comparison is a total preorder, and an
insertion keeps the order of the array, returns the index of the message and puts it behind all that
is equal to it. -/
theorem cmpByMsgId_orders_and_inserts :
    (∀ a : Message Rest, (cmpByMsgId a a).sign = some 0 ↔ Timed a) ∧
    (∀ a b : Message Rest, Timed a → Timed b →
      ∃ sign, (cmpByMsgId a b).sign = some sign ∧ (cmpByMsgId b a).sign = some (-sign)) ∧
    (∀ a b c : Message Rest, Timed a → Timed b → Timed c → (cmpByMsgId a b).atMostZero = true →
      (cmpByMsgId b c).atMostZero = true → (cmpByMsgId a c).atMostZero = true) ∧
    (∀ a b : Message Rest, Timed a → Timed b →
      (cmpByMsgId a b).atMostZero = true ∨ (cmpByMsgId b a).atMostZero = true) ∧
    ∀ (arr : List (Message Rest)) (msg : Message Rest), (∀ message ∈ arr, Timed message) → Timed msg → Sorted arr →
      Sorted (insertMessageSorted arr msg).1 ∧ (insertMessageSorted arr msg).1.Perm (msg :: arr) ∧
      (insertMessageSorted arr msg).1[(insertMessageSorted arr msg).2]? = some msg ∧
      ∀ (index : ℕ) (other : Message Rest), (insertMessageSorted arr msg).1[index]? = some other →
        (cmpByMsgId other msg).sign = some 0 → index ≤ (insertMessageSorted arr msg).2 := by
  refine ⟨sign_self_iff, ?_, ?_, ?_, ?_⟩
  · intro a b timedA timedB
    refine ⟨_, sign_cmpByMsgId timedA timedB, ?_⟩
    rw [sign_cmpByMsgId timedB timedA, orderSign_swap]
  · intro a b c timedA timedB timedC first second
    rw [atMostZero_iff timedA timedB] at first
    rw [atMostZero_iff timedB timedC] at second
    exact (atMostZero_iff timedA timedC).mpr (first.trans second)
  · intro a b timedA timedB
    rw [atMostZero_iff timedA timedB, atMostZero_iff timedB timedA]
    exact le_total _ _
  · intro arr msg timed timedMsg sorted
    have within := index_le_length arr msg
    refine ⟨sorted_insertMessageSorted timed timedMsg sorted, ?_, ?_,
      fun _ _ => le_index_of_equal timed timedMsg sorted⟩
    · rw [insertMessageSorted_eq]
      exact insertAt_perm
    · rw [insertMessageSorted_eq] at within ⊢
      exact getElem?_insertAt within

/-! ## Whole timestamps -/

/-- A message of the cache, whose timestamps are whole numbers. -/
def ofCache (message : MessageCache.Message) : Message MessageCache.Message :=
  { msgId := some message.msgId, timestamp := some (Number.ofInt message.timestamp), rest := message }

theorem sign_ofCache (a b : MessageCache.Message) :
    (cmpByMsgId (ofCache a) (ofCache b)).sign = some (MessageCache.cmpByMsgId a b).sign := by
  have same (message : MessageCache.Message) : (ofCache message).isSnow = MessageCache.isSnow message.msgId := rfl
  have time (message : MessageCache.Message) :
      Number.orZero (ofCache message).timestamp = Number.ofInt message.timestamp := rfl
  have text (message : MessageCache.Message) : (ofCache message).msgId.getD "" = message.msgId := rfl
  rw [cmpByMsgId, MessageCache.cmpByMsgId, same, same, time, time]
  cases snowA : MessageCache.isSnow a.msgId <;> cases snowB : MessageCache.isSnow b.msgId
  · simp only [Bool.and_self, Bool.not_false, Bool.and_true, Bool.and_false, Bool.false_eq_true, if_false]
    exact Number.sign_sub_ofInt a.timestamp b.timestamp
  · simp only [Bool.false_and, Bool.not_false, Bool.true_and, Bool.not_true, Bool.false_eq_true, if_false, if_true]
    exact Number.sign_ofInt 1
  · simp only [Bool.and_false, Bool.not_false, Bool.true_and, Bool.false_eq_true, if_false, if_true]
    exact Number.sign_ofInt (-1)
  · simp only [Bool.and_self, if_true, text]
    by_cases apart : a.msgId.length ≠ b.msgId.length
    · rw [if_pos apart, if_pos apart, Number.sign_sub_ofInt]
    rw [if_neg apart, if_neg apart]
    by_cases below : a.msgId < b.msgId
    · rw [if_pos below, if_pos below, Number.sign_ofInt]
    rw [if_neg below, if_neg below]
    by_cases above : b.msgId < a.msgId
    · rw [if_pos above, if_pos above, Number.sign_ofInt]
    · rw [if_neg above, if_neg above, Number.sign_ofInt]

theorem aboveZero_ofCache (a b : MessageCache.Message) :
    (cmpByMsgId (ofCache a) (ofCache b)).aboveZero = decide (0 < MessageCache.cmpByMsgId a b) := by
  rw [Number.aboveZero, sign_ofCache, Option.any_some]
  exact decide_eq_decide.mpr Int.sign_pos_iff

/-- On whole timestamps the insertion is that of the cache. -/
theorem insertMessageSorted_ofCache (arr : List MessageCache.Message) (msg : MessageCache.Message) :
    insertMessageSorted (arr.map ofCache) (ofCache msg) =
      ((MessageCache.insertMessageSorted arr msg).1.map ofCache, (MessageCache.insertMessageSorted arr msg).2) := by
  have above : (fun other => (cmpByMsgId other (ofCache msg)).aboveZero) ∘ ofCache =
      fun other => decide (0 < MessageCache.cmpByMsgId other msg) := funext fun other => aboveZero_ofCache other msg
  have scanned : MessageCache.insertMessageSorted arr msg =
      (insertAt arr msg (place (fun other => decide (0 < MessageCache.cmpByMsgId other msg)) arr arr.length),
        place (fun other => decide (0 < MessageCache.cmpByMsgId other msg)) arr arr.length) := by
    rw [MessageCache.insertMessageSorted]
    split
    · next fast =>
        have last : ∀ item ∈ arr.getLast?, decide (0 < MessageCache.cmpByMsgId item msg) = false := by
          intro item member
          rw [member, Option.all_some, decide_eq_true_eq] at fast
          exact decide_eq_false (not_lt.mpr fast)
        rw [place_length last, insertAt_length]
    · rw [insertAt_place, place_eq_length]
  rw [insertMessageSorted_eq, scanned, List.length_map, place_map, above, insertAt_map]

def written (msgId : Option String) (timestamp : Option Number) : Message Unit :=
  { msgId, timestamp, rest := () }

/-- Two server ids and a local message; what is inserted is equal to the last, for a NaN and an
absent timestamp both count as 0. -/
theorem cmpByMsgId_orders_and_inserts_equal :
    (insertMessageSorted [written (some "9") none, written (some "10") none, written (some "a-b") (some .nan)]
      (written none none)).1[3]? = some (written none none) := by
  have timed : ∀ message ∈ [written (some "9") none, written (some "10") none, written (some "a-b") (some .nan)],
      Timed message := by
    simp only [List.forall_mem_cons, List.not_mem_nil, false_implies, implies_true, and_true]
    exact ⟨.inl (by decide), .inl (by decide), .inr ⟨0, rfl⟩⟩
  have spec := cmpByMsgId_orders_and_inserts.2.2.2.2 _ (written none none) timed (.inr ⟨0, rfl⟩) (by decide +kernel)
  have index : (insertMessageSorted [written (some "9") none, written (some "10") none,
      written (some "a-b") (some .nan)] (written none none)).2 = 3 := by decide +kernel
  exact index ▸ spec.2.2.1

/-- The timestamp that `JSON.parse` reads from `1e999`. -/
def endless : Message Unit := written none (some (.infinite false))

theorem endless_not_ordered :
    (cmpByMsgId endless endless).sign = none ∧
      ¬ (∀ a b : Message Unit, (cmpByMsgId a b).atMostZero = true ∨ (cmpByMsgId b a).atMostZero = true) ∧
      Sorted [endless] ∧ ¬ Sorted (insertMessageSorted [endless] endless).1 := by
  refine ⟨by decide +kernel, fun comparable => ?_, by decide +kernel, by decide +kernel⟩
  exact absurd (comparable endless endless) (by decide +kernel)

end MuduoIm.Web.MessageOrder
