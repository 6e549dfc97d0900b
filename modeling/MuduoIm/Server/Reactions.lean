import Mathlib.Data.Finset.Filter
import MuduoIm.Data.Toggles
import MuduoIm.Server.Conversations
import MuduoIm.Server.FriendService

namespace MuduoIm.Server.Reactions

open MuduoIm.Transition MuduoIm.Data.Text MuduoIm.Data.Toggles MuduoIm.Server.FriendService
open MuduoIm.Server.Conversations (Reaction)

/-! # Reaction toggles

Any number of calls of `toggleReaction`, one SQL statement a step.  There is no
transaction, so each statement commits by itself.  The statements and the unique
key compare texts by the collation of the table.
-/

/-- `msg_id` is a VARCHAR(36). -/
def msgIdLimit : Nat := 36

/-- The row that INSERT IGNORE stores; it cuts a text that does not fit. -/
def stored (reaction : Reaction) : Reaction :=
  { reaction with msgId := cut msgIdLimit reaction.msgId }

/-- The checks that precede the first statement. -/
def Accepted (reaction : Reaction) : Prop :=
  reaction.msgId ≠ "" ∧ reaction.emoji ≠ "" ∧ reaction.emoji.utf8ByteSize ≤ 16

instance (reaction : Reaction) : Decidable (Accepted reaction) := by
  unfold Accepted
  infer_instance

inductive Phase where
  | idle
  | acquired
  | selected (found : Bool)
  | returned (ok : Bool) (outAdded : Option Bool)
deriving DecidableEq, Repr

/-- The rows of `message_reactions`, without duplicates by its unique key, and
the calls. -/
structure State (Call : Type) where
  reactions : Finset Reaction := ∅
  calls : Call → Phase := fun _ => .idle

inductive Event (Call : Type) where
  | toggleReaction (call : Call) (connected : Bool)
  | select (call : Call) (answered : Bool)
  -- the DELETE or the INSERT IGNORE
  | change (call : Call) (answer : CommitAnswer)
deriving DecidableEq, Repr

variable {Call : Type} [DecidableEq Call] (weightString : String → List Nat) (reactionOf : Call → Reaction)

def State.goto (state : State Call) (call : Call) (phase : Phase) : State Call :=
  { state with calls := Function.update state.calls call phase }

def changed (reactions : Finset Reaction) (reaction : Reaction) (found : Bool) : Finset Reaction :=
  if found then reactions.filter (fun row => ¬row.SameKey weightString reaction)
  -- INSERT IGNORE
  else if ∃ row ∈ reactions, row.SameKey weightString (stored reaction) then reactions
  else insert (stored reaction) reactions

def step (state : State Call) : Event Call → Option (State Call)
  | .toggleReaction call connected =>
      match state.calls call with
      | .idle =>
          if Accepted (reactionOf call) ∧ connected then some (state.goto call .acquired)
          else some (state.goto call (.returned false none))
      | _ => none
  | .select call answered =>
      match state.calls call with
      | .acquired => some (state.goto call (.selected (answered &&
          decide (∃ row ∈ state.reactions, row.SameKey weightString (reactionOf call)))))
      | _ => none
  | .change call answer =>
      match state.calls call with
      | .selected found =>
          some { state.goto call (.returned (decide (answer = .committed)) (some !found)) with
            reactions := if answer = .refused then state.reactions
              else changed weightString state.reactions (reactionOf call) found }
      | _ => none

def machine : Machine (State Call) (Event Call) := ⟨step weightString reactionOf⟩

def Event.call : Event Call → Call
  | .toggleReaction call _ | .select call _ | .change call _ => call

/-! ## What a step does -/

variable {weightString} {reactionOf} {state next : State Call} {call other : Call} {event : Event Call} {phase : Phase}
variable {reactions : Finset Reaction} {reaction : Reaction} {found : Bool}

theorem goto_self : (state.goto call phase).calls call = phase := Function.update_self _ _ _

theorem goto_of_ne (different : other ≠ call) : (state.goto call phase).calls other = state.calls other :=
  Function.update_of_ne different _ _

/-- A step that leaves the rows alone and reports no success, or a statement
that changes them. -/
theorem step_cases (stepped : step weightString reactionOf state event = some next) :
    (∃ phase, next = state.goto event.call phase ∧ (∀ ok outAdded, state.calls event.call ≠ .returned ok outAdded) ∧
      (∀ outAdded, phase ≠ .returned true outAdded) ∧ ∀ call, event ≠ .change call .committed) ∨
    ∃ call answer found, event = .change call answer ∧ answer ≠ .refused ∧ state.calls call = .selected found ∧
      next = { state.goto call (.returned (decide (answer = .committed)) (some !found)) with
        reactions := changed weightString state.reactions (reactionOf call) found } := by
  cases event with
  | toggleReaction call connected =>
      simp only [step] at stepped
      split at stepped
      · rename_i idle
        refine .inl ?_
        split at stepped
        · cases stepped
          exact ⟨_, rfl, fun ok outAdded => by simp only [Event.call, idle]; nofun, nofun, nofun⟩
        · cases stepped
          exact ⟨_, rfl, fun ok outAdded => by simp only [Event.call, idle]; nofun, nofun, nofun⟩
      · cases stepped
  | select call answered =>
      simp only [step] at stepped
      split at stepped
      · rename_i acquired
        cases stepped
        exact .inl ⟨_, rfl, fun ok outAdded => by simp only [Event.call, acquired]; nofun, nofun, nofun⟩
      · cases stepped
  | change call answer =>
      simp only [step] at stepped
      split at stepped
      · rename_i found selected
        by_cases refused : answer = .refused
        · subst refused
          cases stepped
          exact .inl ⟨_, rfl, fun ok outAdded => by simp only [Event.call, selected]; nofun, nofun, nofun⟩
        · rw [if_neg refused] at stepped
          cases stepped
          exact .inr ⟨call, answer, found, rfl, refused, selected, rfl⟩
      · cases stepped

/-- Among the rows, the collation takes no other for this reaction. -/
def Alone (weightString : String → List Nat) (reactions : Finset Reaction) (reaction : Reaction) : Prop :=
  ∀ row ∈ reactions, row.SameKey weightString reaction → row = reaction

theorem sameKey_self : reaction.SameKey weightString reaction := ⟨rfl, rfl, rfl⟩

theorem Alone.exists_iff (alone : Alone weightString reactions reaction) :
    (∃ row ∈ reactions, row.SameKey weightString reaction) ↔ reaction ∈ reactions := by
  constructor
  · intro given
    obtain ⟨row, member, same⟩ := given
    exact alone row member same ▸ member
  · intro member
    exact ⟨reaction, member, sameKey_self⟩

/-- A change is a toggle exactly if it finds the row as its SELECT did and no
other row for it, and stores the text whole. -/
theorem changed_eq_toggle_iff : changed weightString reactions reaction found = toggle reactions reaction ↔
    found = decide (reaction ∈ reactions) ∧ Alone weightString reactions reaction ∧
      (found = false → stored reaction = reaction) := by
  constructor
  · intro same
    have row (other : Reaction) := iff_of_eq (congrArg (other ∈ ·) same)
    have flipped := (row reaction).trans mem_toggle_self
    cases found with
    | true =>
        simp only [changed, if_true, Finset.mem_filter] at flipped row
        have member : reaction ∈ reactions := by
          by_contra absent
          exact absent (flipped.mpr absent).1
        refine ⟨(decide_eq_true member).symm, fun other listed equal => ?_, nofun⟩
        by_contra different
        exact ((row other).mpr ((mem_toggle_of_ne different).mpr listed)).2 equal
    | false =>
        simp only [changed, Bool.false_eq_true, if_false] at flipped
        split at flipped
        · exact absurd flipped iff_not_self
        · rename_i missing
          have absent : reaction ∉ reactions := fun member => flipped.mp (Finset.mem_insert_of_mem member) member
          have whole : reaction = stored reaction :=
            (Finset.mem_insert.mp (flipped.mpr absent)).resolve_right absent
          rw [← whole] at missing
          refine ⟨(decide_eq_false absent).symm, fun other listed equal => ?_, fun _ => whole.symm⟩
          exact absurd ⟨other, listed, equal⟩ missing
  · intro given
    obtain ⟨current, alone, whole⟩ := given
    by_cases member : reaction ∈ reactions
    · rw [current, toggle, if_pos member, changed, if_pos (decide_eq_true member)]
      ext row
      rw [Finset.mem_filter, Finset.mem_erase, and_comm]
      refine and_congr_left fun listed => not_congr ⟨alone row listed, ?_⟩
      intro same
      exact same ▸ sameKey_self
    · have absent : found = false := current.trans (decide_eq_false member)
      rw [absent, toggle, if_neg member, changed, if_neg Bool.false_ne_true, whole absent,
        if_neg (fun present => member (alone.exists_iff.mp present))]

/-- A call with no other call in between toggles its reaction. -/
theorem run_alone (idle : state.calls call = .idle) (accepted : Accepted (reactionOf call))
    (alone : Alone weightString state.reactions (reactionOf call))
    (whole : stored (reactionOf call) = reactionOf call) :
    ∃ after, (machine weightString reactionOf).run state [.toggleReaction call true, .select call true, .change call .committed] =
        some after ∧
      after.reactions = toggle state.reactions (reactionOf call) ∧
      after.calls call = .returned true (some (decide (reactionOf call ∉ state.reactions))) := by
  let found := decide (reactionOf call ∈ state.reactions)
  let acquired := state.goto call .acquired
  let selected := acquired.goto call (.selected found)
  have first : step weightString reactionOf state (.toggleReaction call true) = some acquired := by
    simp only [step, idle, accepted, and_self, if_true, acquired]
  have second : step weightString reactionOf acquired (.select call true) = some selected := by
    simp only [step, acquired, goto_self, Bool.true_and, selected, found]
    have same : (acquired.reactions = state.reactions) := rfl
    simp only [same, alone.exists_iff, acquired]
  have third : step weightString reactionOf selected (.change call .committed) =
      some { selected.goto call (.returned true (some !found)) with
        reactions := changed weightString state.reactions (reactionOf call) found } := by
    simp only [step, selected, goto_self, reduceCtorEq, if_false]
    rfl
  refine ⟨_, Machine.run_cons_eq_some.mpr ⟨_, first, Machine.run_cons_eq_some.mpr ⟨_, second,
    Machine.run_cons_eq_some.mpr ⟨_, third, rfl⟩⟩⟩, ?_, ?_⟩
  · exact changed_eq_toggle_iff.mpr ⟨rfl, alone, fun _ => whole⟩
  · refine goto_self.trans ?_
    rw [decide_not]

end MuduoIm.Server.Reactions
