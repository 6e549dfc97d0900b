import MuduoIm.Server.Reactions

namespace MuduoIm.Server.Reactions

open MuduoIm.Transition MuduoIm.Data.Text MuduoIm.Data.Toggles MuduoIm.Server.FriendService
open MuduoIm.Server.Conversations (Reaction)

/-! # When concurrent toggles are linearizable

The SELECT and the statement that acts on it are apart, so another call of the
same reaction can come in between.
-/

variable {Call : Type} [DecidableEq Call] {weightString : String → List Nat} {reactionOf : Call → Reaction}
variable {start state next alone : State Call}
variable {call other : Call} {event : Event Call} {events : List (Event Call)} {order : List Call}
variable {reaction : Reaction} {reactions : Finset Reaction} {found : Bool}

/-- No call has reported a failure. -/
def Succeeded (state : State Call) : Prop := ∀ call outAdded, state.calls call ≠ .returned false outAdded

def State.outAdded (state : State Call) (call : Call) : Option Bool :=
  match state.calls call with
  | .returned _ outAdded => outAdded
  | _ => none

/-- Toggling for the calls that returned, one after the other in this order,
gives the rows and their results. -/
structure InOrder (reactionOf : Call → Reaction) (start state : State Call) (order : List Call) : Prop where
  nodup : order.Nodup
  calls : ∀ call, call ∈ order ↔ ∃ outAdded, state.calls call = .returned true outAdded
  reactions : state.reactions = toggleAll start.reactions (order.map reactionOf)
  results : order.map state.outAdded = (added start.reactions (order.map reactionOf)).map some

/-- Some order of the calls explains the state, and a reaction is present
exactly if it was at the start or was toggled an odd number of times, not both. -/
def Linearized (reactionOf : Call → Reaction) (start state : State Call) : Prop :=
  Succeeded state → ∃ order, InOrder reactionOf start state order ∧ ∀ reaction,
    reaction ∈ state.reactions ↔
      Xor (reaction ∈ start.reactions) (Odd ((order.map reactionOf).count reaction))

/-- Without the calls of the other reactions, a run does the same to this one. -/
def Independent (weightString : String → List Nat) (reactionOf : Call → Reaction) (start : State Call)
    (events : List (Event Call)) : Prop :=
  ∀ state, (machine weightString reactionOf).run start events = some state → Succeeded state → ∀ reaction,
    ∃ alone, (machine weightString reactionOf).run start
        (events.filter fun event => reactionOf event.call = reaction) = some alone ∧
      (reaction ∈ alone.reactions ↔ reaction ∈ state.reactions) ∧
      ∀ call, reactionOf call = reaction → alone.calls call = state.calls call

/-- The statement that acts finds the row as the SELECT of its call reported
it and no other row that the collation takes for it, and the message id of an
added row fits its column. -/
def ActsOnCurrent (weightString : String → List Nat) (reactionOf : Call → Reaction) (state : State Call) :
    Event Call → Prop
  | .change call .committed => Succeeded state → ∀ found, state.calls call = .selected found →
      found = decide (reactionOf call ∈ state.reactions) ∧
        Alone weightString state.reactions (reactionOf call) ∧
        (found = false → stored (reactionOf call) = reactionOf call)
  | _ => True

/-- The collation tells the different reactions of the calls and of the rows at
the start apart. -/
structure Apart (weightString : String → List Nat) (reactionOf : Call → Reaction) (start : State Call) : Prop where
  rows : ∀ call, Alone weightString start.reactions (reactionOf call)
  calls : ∀ call other, (reactionOf other).SameKey weightString (reactionOf call) → reactionOf other = reactionOf call

/-! ## Calls that returned -/

theorem returned_kept {ok : Bool} {outAdded : Option Bool} (stepped : step weightString reactionOf state event = some next)
    (returned : state.calls call = .returned ok outAdded) : next.calls call = .returned ok outAdded := by
  rcases step_cases stepped with ⟨phase, rfl, running, _, _⟩ | ⟨mover, answer, found, rfl, _, selected, rfl⟩
  · have different : call ≠ event.call := by
      rintro rfl
      exact running ok outAdded returned
    rw [goto_of_ne different]
    exact returned
  · have different : call ≠ mover := by
      rintro rfl
      rw [selected] at returned
      cases returned
    exact (goto_of_ne different).trans returned

theorem Succeeded.before (succeeded : Succeeded next) (stepped : step weightString reactionOf state event = some next) :
    Succeeded state :=
  fun call outAdded failed => succeeded call outAdded (returned_kept stepped failed)

theorem Succeeded.before_run (succeeded : Succeeded next)
    (completed : (machine weightString reactionOf).run state events = some next) : Succeeded state := by
  induction events generalizing state with
  | nil =>
      cases completed
      exact succeeded
  | cons event rest ih =>
      obtain ⟨between, stepped, completed⟩ := Machine.run_cons_eq_some.mp completed
      exact (ih completed).before stepped

/-! ## The order of the statements that act -/

omit [DecidableEq Call] in
theorem InOrder.parity (ordered : InOrder reactionOf start state order) (reaction : Reaction) :
    reaction ∈ state.reactions ↔
      Xor (reaction ∈ start.reactions) (Odd ((order.map reactionOf).count reaction)) := by
  rw [ordered.reactions]
  exact mem_toggleAll

omit [DecidableEq Call] in
theorem InOrder.absent (ordered : InOrder reactionOf start state order)
    (running : ∀ outAdded, state.calls call ≠ .returned true outAdded) : call ∉ order := by
  intro member
  obtain ⟨outAdded, returned⟩ := (ordered.calls call).mp member
  exact running outAdded returned

/-- One more call has returned. -/
theorem returned_goto_iff {answer : Option Bool} :
    (∃ outAdded, (state.goto call (.returned true answer)).calls other = .returned true outAdded) ↔
      other = call ∨ ∃ outAdded, state.calls other = .returned true outAdded := by
  by_cases same : other = call
  · subst same
    exact iff_of_true ⟨_, goto_self⟩ (.inl rfl)
  · rw [or_iff_right same]
    simp only [goto_of_ne same]

theorem InOrder.goto {phase : Phase} (ordered : InOrder reactionOf start state order)
    (running : ∀ ok outAdded, state.calls call ≠ .returned ok outAdded)
    (unsuccessful : ∀ outAdded, phase ≠ .returned true outAdded) :
    InOrder reactionOf start (state.goto call phase) order := by
  have absent : call ∉ order := ordered.absent (running true)
  refine ⟨ordered.nodup, fun other => ?_, ordered.reactions, ?_⟩
  · by_cases same : other = call
    · subst same
      refine iff_of_false absent ?_
      rintro ⟨outAdded, returned⟩
      rw [goto_self] at returned
      exact unsuccessful outAdded returned
    · rw [goto_of_ne same]
      exact ordered.calls other
  · rw [← ordered.results]
    refine List.map_congr_left fun other member => ?_
    have different : other ≠ call := fun same => absent (same ▸ member)
    simp only [State.outAdded, goto_of_ne different]

/-- A current change comes last in the order. -/
theorem InOrder.concat (ordered : InOrder reactionOf start state order) (selected : state.calls call = .selected found)
    (current : found = decide (reactionOf call ∈ state.reactions))
    (toggles : changed weightString state.reactions (reactionOf call) found =
      toggle state.reactions (reactionOf call)) :
    InOrder reactionOf start { state.goto call (.returned true (some !found)) with
      reactions := changed weightString state.reactions (reactionOf call) found } (order ++ [call]) := by
  have absent : call ∉ order := ordered.absent (by simp [selected])
  refine ⟨?_, fun other => ?_, ?_, ?_⟩
  · refine List.nodup_append.mpr ⟨ordered.nodup, List.nodup_singleton call, fun other member last inLast => ?_⟩
    cases List.mem_singleton.mp inLast
    exact fun same => absent (same ▸ member)
  · rw [List.mem_append, List.mem_singleton, ordered.calls, or_comm]
    exact returned_goto_iff.symm
  · rw [List.map_append, List.map_singleton, toggleAll_concat, ← ordered.reactions]
    exact toggles
  · have earlier : order.map (State.outAdded { state.goto call (.returned true (some !found)) with
        reactions := changed weightString state.reactions (reactionOf call) found }) = order.map state.outAdded := by
      refine List.map_congr_left fun other member => ?_
      have different : other ≠ call := fun same => absent (same ▸ member)
      simp only [State.outAdded, goto_of_ne different]
    have last : State.outAdded { state.goto call (.returned true (some !found)) with
        reactions := changed weightString state.reactions (reactionOf call) found } call =
          some (decide (reactionOf call ∉ state.reactions)) := by
      simp only [State.outAdded, goto_self, current, decide_not]
    rw [List.map_append, List.map_append, List.map_singleton, List.map_singleton, added_append, List.map_append,
      ← ordered.results, ← ordered.reactions, earlier, last]
    rfl

/-! ## One step -/

omit [DecidableEq Call] in
/-- A call that has returned besides comes last in an order of the same calls. -/
theorem perm_of_returned {later : List Call} (ordered : InOrder reactionOf start state order)
    (laterOrdered : InOrder reactionOf start next later) (absent : call ∉ order)
    (added : ∀ other, (∃ outAdded, next.calls other = .returned true outAdded) ↔
      other = call ∨ ∃ outAdded, state.calls other = .returned true outAdded) :
    later.Perm (order ++ [call]) := by
  have distinct : (call :: order).Nodup := List.nodup_cons.mpr ⟨absent, ordered.nodup⟩
  have same : later.Perm (call :: order) := by
    refine (List.perm_ext_iff_of_nodup laterOrdered.nodup distinct).mpr fun other => ?_
    rw [laterOrdered.calls, added, List.mem_cons, ordered.calls]
  exact same.trans (List.perm_append_singleton call order).symm

theorem linearized_change_iff (linearized : Linearized reactionOf start state) (succeeded : Succeeded state)
    (selected : state.calls call = .selected found) :
    Linearized reactionOf start { state.goto call (.returned true (some !found)) with
        reactions := changed weightString state.reactions (reactionOf call) found } ↔
      changed weightString state.reactions (reactionOf call) found = toggle state.reactions (reactionOf call) := by
  obtain ⟨order, ordered, _⟩ := linearized succeeded
  constructor
  · intro later
    have stillSucceeded : Succeeded { state.goto call (.returned true (some !found)) with
        reactions := changed weightString state.reactions (reactionOf call) found } := by
      intro other outAdded failed
      by_cases same : other = call
      · subst same
        have contradiction := goto_self.symm.trans failed
        cases contradiction
      · exact succeeded other outAdded ((goto_of_ne same).symm.trans failed)
    obtain ⟨laterOrder, laterOrdered, _⟩ := later stillSucceeded
    have absent : call ∉ order := ordered.absent (by simp [selected])
    have same := (perm_of_returned ordered laterOrdered absent fun _ => returned_goto_iff).map reactionOf
    rw [List.map_append, List.map_singleton] at same
    calc changed weightString state.reactions (reactionOf call) found
        = toggleAll start.reactions (laterOrder.map reactionOf) := laterOrdered.reactions
      _ = toggleAll start.reactions (order.map reactionOf ++ [reactionOf call]) := toggleAll_perm same
      _ = toggle state.reactions (reactionOf call) := by rw [toggleAll_concat, ← ordered.reactions]
  · intro toggles _
    have current := (changed_eq_toggle_iff.mp toggles).1
    have later := ordered.concat selected current toggles
    exact ⟨order ++ [call], later, later.parity⟩

theorem linearized_step_iff (linearized : Linearized reactionOf start state)
    (stepped : step weightString reactionOf state event = some next) :
    Linearized reactionOf start next ↔ ActsOnCurrent weightString reactionOf state event := by
  rcases step_cases stepped with
    ⟨phase, rfl, running, unsuccessful, acts⟩ | ⟨mover, answer, found, rfl, applied, selected, rfl⟩
  · have unconditional : ActsOnCurrent weightString reactionOf state event := by
      rcases event with ⟨call, _⟩ | ⟨call, _⟩ | ⟨call, _ | _ | _⟩
      · trivial
      · trivial
      · exact absurd rfl (acts call)
      · trivial
      · trivial
    refine iff_of_true (fun succeeded => ?_) unconditional
    obtain ⟨order, ordered, _⟩ := linearized (succeeded.before stepped)
    have later := ordered.goto running unsuccessful
    exact ⟨order, later, later.parity⟩
  · cases answer with
    | refused => exact absurd rfl applied
    | lost => exact iff_of_true (fun succeeded => absurd goto_self (succeeded mover _)) trivial
    | committed =>
        by_cases succeeded : Succeeded state
        · refine (linearized_change_iff linearized succeeded selected).trans
            (changed_eq_toggle_iff.trans ⟨fun current _ other here => ?_, fun current => ?_⟩)
          · rw [selected] at here
            cases here
            exact current
          · exact current succeeded found selected
        · exact iff_of_true (fun later => absurd (later.before stepped) succeeded) fun given => absurd given succeeded

/-! ## Calls of other reactions -/

/-- The two runs agree about the reaction and its calls, and in both of them the
collation takes no row for the reaction of a call but that reaction. -/
structure Agrees (weightString : String → List Nat) (reactionOf : Call → Reaction) (reaction : Reaction)
    (state alone : State Call) : Prop where
  row : reaction ∈ alone.reactions ↔ reaction ∈ state.reactions
  calls : ∀ call, reactionOf call = reaction → alone.calls call = state.calls call
  distinct : ∀ call, Alone weightString state.reactions (reactionOf call)
  aloneDistinct : ∀ call, Alone weightString alone.reactions (reactionOf call)

theorem Agrees.goto {phase : Phase} (agrees : Agrees weightString reactionOf reaction state alone) :
    Agrees weightString reactionOf reaction (state.goto call phase) (alone.goto call phase) := by
  refine ⟨agrees.row, fun other concerned => ?_, agrees.distinct, agrees.aloneDistinct⟩
  by_cases same : other = call
  · subst same
    rw [goto_self, goto_self]
  · rw [goto_of_ne same, goto_of_ne same]
    exact agrees.calls other concerned

omit [DecidableEq Call] in
/-- A toggle of the reaction of a call adds no row that could be taken for
another. -/
theorem Apart.toggle (apart : Apart weightString reactionOf start)
    (distinct : Alone weightString reactions (reactionOf other)) :
    Alone weightString (toggle reactions (reactionOf call)) (reactionOf other) := by
  intro row member same
  by_cases added : row = reactionOf call
  · subst added
    exact apart.calls other call same
  · exact distinct row ((mem_toggle_of_ne added).mp member) same

theorem Agrees.step_concerned (agrees : Agrees weightString reactionOf reaction state alone)
    (apart : Apart weightString reactionOf start) (concerned : reactionOf event.call = reaction)
    (succeeded : Succeeded next) (current : ActsOnCurrent weightString reactionOf state event)
    (stepped : step weightString reactionOf state event = some next) :
    ∃ after, step weightString reactionOf alone event = some after ∧
      Agrees weightString reactionOf reaction next after := by
  cases event with
  | toggleReaction call connected =>
      have sameCall := agrees.calls call concerned
      simp only [step] at stepped
      split at stepped
      · rename_i idle
        have here := sameCall.trans idle
        split at stepped
        · rename_i accepted
          cases stepped
          refine ⟨alone.goto call .acquired, ?_, agrees.goto⟩
          simp only [step, here]
          exact if_pos accepted
        · rename_i rejected
          cases stepped
          refine ⟨alone.goto call (.returned false none), ?_, agrees.goto⟩
          simp only [step, here]
          exact if_neg rejected
      · cases stepped
  | select call answered =>
      have sameCall := agrees.calls call concerned
      simp only [step] at stepped
      split at stepped
      · rename_i acquired
        have here := sameCall.trans acquired
        have sameRow : reactionOf call ∈ state.reactions ↔ reactionOf call ∈ alone.reactions := by
          cases concerned
          exact agrees.row.symm
        cases stepped
        simp only [(agrees.distinct call).exists_iff, sameRow, step, here, (agrees.aloneDistinct call).exists_iff]
        exact ⟨_, rfl, agrees.goto⟩
      · cases stepped
  | change call answer =>
      have sameCall := agrees.calls call concerned
      simp only [step] at stepped
      split at stepped
      · rename_i found selected
        have here := sameCall.trans selected
        let phase : Phase := .returned (decide (answer = .committed)) (some !found)
        have moved : Agrees weightString reactionOf reaction (state.goto call phase) (alone.goto call phase) :=
          agrees.goto
        cases stepped
        simp only [step, here]
        cases answer with
        | refused => exact ⟨_, rfl, moved⟩
        | lost => exact absurd goto_self (succeeded call _)
        | committed =>
            have before : Succeeded state := by
              intro other outAdded failed
              have different : other ≠ call := by
                intro same
                rw [same, selected] at failed
                cases failed
              exact succeeded other outAdded ((goto_of_ne different).trans failed)
            obtain ⟨asFound, distinct, whole⟩ := current before found selected
            cases concerned
            have aloneFound : found = decide (reactionOf call ∈ alone.reactions) :=
              asFound.trans (decide_eq_decide.mpr agrees.row.symm)
            have toggles := changed_eq_toggle_iff.mpr ⟨asFound, distinct, whole⟩
            have aloneToggles := changed_eq_toggle_iff.mpr ⟨aloneFound, agrees.aloneDistinct call, whole⟩
            refine ⟨_, rfl, ?_, moved.calls, fun other => ?_, fun other => ?_⟩
            · simp only [reduceCtorEq, if_false, toggles, aloneToggles, Event.call]
              rw [mem_toggle_self, mem_toggle_self]
              exact not_congr agrees.row
            · simp only [reduceCtorEq, if_false, toggles]
              exact apart.toggle (agrees.distinct other)
            · simp only [reduceCtorEq, if_false, aloneToggles]
              exact apart.toggle (agrees.aloneDistinct other)
      · cases stepped

theorem Agrees.step_other (agrees : Agrees weightString reactionOf reaction state alone)
    (apart : Apart weightString reactionOf start) (unconcerned : reactionOf event.call ≠ reaction)
    (succeeded : Succeeded next) (current : ActsOnCurrent weightString reactionOf state event)
    (stepped : step weightString reactionOf state event = some next) :
    Agrees weightString reactionOf reaction next alone := by
  have different {other : Call} (concerned : reactionOf other = reaction) : other ≠ event.call := by
    intro same
    exact unconcerned (same ▸ concerned)
  rcases step_cases stepped with ⟨phase, rfl, _, _, _⟩ | ⟨mover, answer, found, rfl, applied, selected, rfl⟩
  · refine ⟨agrees.row, fun other concerned => ?_, agrees.distinct, agrees.aloneDistinct⟩
    rw [goto_of_ne (different concerned)]
    exact agrees.calls other concerned
  · cases answer with
    | refused => exact absurd rfl applied
    | lost => exact absurd goto_self (succeeded mover _)
    | committed =>
        have toggles := changed_eq_toggle_iff.mpr (current (succeeded.before stepped) found selected)
        refine ⟨agrees.row.trans ?_, fun other concerned => ?_, fun other => ?_, agrees.aloneDistinct⟩
        · simp only [toggles]
          exact (mem_toggle_of_ne (Ne.symm unconcerned)).symm
        · exact (agrees.calls other concerned).trans (goto_of_ne (different concerned)).symm
        · simp only [toggles]
          exact apart.toggle (agrees.distinct other)

theorem Agrees.run (agrees : Agrees weightString reactionOf reaction state alone)
    (apart : Apart weightString reactionOf start) (succeeded : Succeeded next)
    (met : (machine weightString reactionOf).Meets (ActsOnCurrent weightString reactionOf) state events)
    (completed : (machine weightString reactionOf).run state events = some next) :
    ∃ after, (machine weightString reactionOf).run alone
        (events.filter fun event => reactionOf event.call = reaction) = some after ∧
      Agrees weightString reactionOf reaction next after := by
  induction events generalizing state alone with
  | nil =>
      cases completed
      exact ⟨alone, rfl, agrees⟩
  | cons event rest ih =>
      obtain ⟨between, stepped, completed⟩ := Machine.run_cons_eq_some.mp completed
      obtain ⟨current, later⟩ := met between stepped
      have soFar := succeeded.before_run completed
      by_cases concerned : reactionOf event.call = reaction
      · obtain ⟨after, aloneStepped, still⟩ := agrees.step_concerned apart concerned soFar current stepped
        obtain ⟨last, aloneCompleted, agreed⟩ := ih still later completed
        rw [List.filter_cons_of_pos (by simpa using concerned)]
        exact ⟨last, Machine.run_cons_eq_some.mpr ⟨after, aloneStepped, aloneCompleted⟩, agreed⟩
      · rw [List.filter_cons_of_neg (by simpa using concerned)]
        exact ih (agrees.step_other apart concerned soFar current stepped) later completed

/-- From idle calls, a run is linearizable throughout exactly if every statement
that acts finds the row as its SELECT did and no other one for it.  Where the
collation tells the reactions apart, they are independent in these runs. -/
theorem toggles_linearizable_iff (start : State Call) (idle : ∀ call, start.calls call = .idle)
    (events : List (Event Call)) :
    ((machine weightString reactionOf).Always (Linearized reactionOf start) start events ↔
      (machine weightString reactionOf).Meets (ActsOnCurrent weightString reactionOf) start events) ∧
    (Apart weightString reactionOf start →
      (((machine weightString reactionOf).Always (Linearized reactionOf start) start events ∧
          Independent weightString reactionOf start events) ↔
        (machine weightString reactionOf).Meets (ActsOnCurrent weightString reactionOf) start events)) := by
  have initial : InOrder reactionOf start start [] := by
    refine ⟨List.nodup_nil, fun call => ?_, rfl, rfl⟩
    refine iff_of_false List.not_mem_nil ?_
    intro given
    obtain ⟨outAdded, returned⟩ := given
    rw [idle] at returned
    cases returned
  have linearized : Linearized reactionOf start start := fun _ => ⟨[], initial, initial.parity⟩
  have always_iff : (machine weightString reactionOf).Always (Linearized reactionOf start) start events ↔
      (machine weightString reactionOf).Meets (ActsOnCurrent weightString reactionOf) start events :=
    Machine.always_iff_meets (fun _ => True) linearized trivial (fun _ _ _ _ _ => trivial)
      fun _ _ _ _ held stepped => linearized_step_iff held stepped
  refine ⟨always_iff, fun apart => ?_⟩
  rw [always_iff]
  refine and_iff_left_of_imp fun met state completed succeeded reaction => ?_
  have same : Agrees weightString reactionOf reaction start start :=
    ⟨Iff.rfl, fun _ _ => rfl, apart.rows, apart.rows⟩
  obtain ⟨alone, aloneCompleted, agrees⟩ := same.run apart succeeded met completed
  exact ⟨alone, aloneCompleted, agrees.row, agrees.calls⟩

/-! ## One user with two devices -/

/-- A collation for which a variation selector weighs nothing. -/
def withoutSelectors (text : String) : List Nat := codePoints (String.ofList (text.toList.filter (· ≠ '\uFE0F')))

private def like : Reaction := { msgId := "m1", uid := 7, emoji := "+1" }

private def likes : Nat → Reaction := fun _ => like

private def wholeCall (call : Nat) : List (Event Nat) :=
  [.toggleReaction call true, .select call true, .change call .committed]

/-- The second call selects after the first has inserted. -/
theorem toggles_in_turn_linearizable :
    (machine withoutSelectors likes).Always (Linearized likes {}) {} (wholeCall 0 ++ wholeCall 1) ∧
      Independent withoutSelectors likes {} (wholeCall 0 ++ wholeCall 1) := by
  have apart : Apart withoutSelectors likes {} :=
    ⟨fun _ row member => absurd member (Finset.notMem_empty row), fun _ _ _ => rfl⟩
  refine ((toggles_linearizable_iff {} (fun _ => rfl) _).2 apart).mpr ?_
  refine .cons rfl trivial <| .cons rfl trivial <| .cons rfl ?_ <|
    .cons rfl trivial <| .cons rfl trivial <| .cons rfl ?_ trivial
  · intro _ found selected
    cases selected
    exact ⟨by decide, fun row member => absurd member (Finset.notMem_empty row), fun _ => by decide⟩
  · intro _ found selected
    cases selected
    refine ⟨by decide, fun row member _ => ?_, nofun⟩
    rcases Finset.mem_insert.mp member with same | none
    · exact same.trans (by decide)
    · exact absurd none (Finset.notMem_empty row)

/-- Both calls select before one of them inserts. -/
private def bothSelect : List (Event Nat) :=
  [.toggleReaction 0 true, .toggleReaction 1 true, .select 0 true, .select 1 true,
    .change 0 .committed, .change 1 .committed]

/-- The same heart from a device that writes no variation selector and from one
that does. -/
private def hearts : Nat → Reaction
  | 0 => { msgId := "m1", uid := 7, emoji := "\u2764" }
  | _ => { msgId := "m1", uid := 7, emoji := "\u2764\uFE0F" }

/-- Both calls report that they added the reaction, which stays.  A heart that
is toggled in turn with the other one removes it. -/
theorem concurrent_toggles_not_linearizable :
    ¬ ((machine withoutSelectors likes).Always (Linearized likes {}) {} bothSelect ∧
        Independent withoutSelectors likes {} bothSelect) ∧
      ¬ ((machine withoutSelectors hearts).Always (Linearized hearts {}) {} (wholeCall 0 ++ wholeCall 1) ∧
        Independent withoutSelectors hearts {} (wholeCall 0 ++ wholeCall 1)) := by
  constructor
  · intro both
    have second := ((((both.1.2 _ rfl).2 _ rfl).2 _ rfl).2 _ rfl).2 _ rfl
    have exact_step := @linearized_step_iff _ _ withoutSelectors likes {} _ _ (.change 1 .committed) second.head rfl
    have current := exact_step.mp (second.2 _ rfl).head
    refine absurd (current ?_ false rfl).1 (by decide)
    intro call outAdded failed
    match call with
    | 0 => cases failed
    | 1 => cases failed
    | call + 2 => cases failed
  · intro both
    have second := ((((both.1.2 _ rfl).2 _ rfl).2 _ rfl).2 _ rfl).2 _ rfl
    have exact_step := @linearized_step_iff _ _ withoutSelectors hearts {} _ _ (.change 1 .committed) second.head rfl
    have current := exact_step.mp (second.2 _ rfl).head
    refine absurd (current ?_ true rfl).1 (by decide)
    intro call outAdded failed
    match call with
    | 0 => cases failed
    | 1 => cases failed
    | call + 2 => cases failed

end MuduoIm.Server.Reactions
