import Mathlib.Data.List.Basic

namespace MuduoIm.Data.LogReader

/-! # Reading a log by offset

A reader takes the items of a log in their order, and commits the offset behind
each that it is done with.  A crash takes it back to the committed offset, so
that an item may be handled more than once.
-/

/-- `handled` is history: the offsets that were handled, with the results. -/
structure Reader (Result : Type) where
  committedOffset : ℕ := 0
  position : Option ℕ := none
  handled : List (ℕ × Result) := []

variable {Item Result : Type}

def Reader.start (reader : Reader Result) : Option (Reader Result) :=
  match reader.position with
  | none => some { reader with position := some reader.committedOffset }
  | some _ => none

def Reader.crash (reader : Reader Result) : Reader Result := { reader with position := none }

/-- The item at the position is handled, and the result returned.  `none` from
`handle` is an exception, which ends the process; an item with which the callback
is not done is taken again. -/
def Reader.take (reader : Reader Result) (log : List Item) (handle : Item → Option (Result × Bool)) (crashes : Bool) :
    Option (Reader Result × Option Result) :=
  match reader.position with
  | none => none
  | some position =>
      match log[position]? with
      | none => none
      | some item =>
          match handle item with
          | none => some (reader.crash, none)
          | some (result, isDone) =>
              let handled := reader.handled ++ [(position, result)]
              if crashes then some ({ reader with handled, position := none }, some result)
              else if isDone then
                some ({ committedOffset := position + 1, position := some (position + 1), handled }, some result)
              else some ({ reader with handled }, some result)

variable {reader next : Reader Result} {outcome : Option Result} {log : List Item}
  {handle : Item → Option (Result × Bool)} {crashes : Bool}

theorem start_eq_some (started : reader.start = some next) :
    next = { reader with position := some reader.committedOffset } := by
  unfold Reader.start at started
  split at started
  · exact (Option.some.inj started).symm
  · cases started

/-- An item was handled, and the offset committed or not; or an exception left
all as it was. -/
theorem take_cases (taken : reader.take log handle crashes = some (next, outcome)) :
    ∃ position item, reader.position = some position ∧ log[position]? = some item ∧
      ((handle item = none ∧ outcome = none ∧ next = reader.crash) ∨
        ∃ result isDone, handle item = some (result, isDone) ∧ outcome = some result ∧
          next.handled = reader.handled ++ [(position, result)] ∧
          ((next.committedOffset = reader.committedOffset ∧
              (next.position = none ∨ next.position = some position)) ∨
            (isDone = true ∧ next.committedOffset = position + 1 ∧ next.position = some (position + 1)))) := by
  unfold Reader.take at taken
  cases running : reader.position with
  | none => simp [running] at taken
  | some position =>
      cases found : log[position]? with
      | none => simp [running, found] at taken
      | some item =>
          refine ⟨position, item, rfl, found, ?_⟩
          simp only [running, found] at taken
          cases handled : handle item with
          | none =>
              simp only [handled, Option.some.injEq, Prod.mk.injEq] at taken
              exact .inl ⟨rfl, taken.2.symm, taken.1.symm⟩
          | some answer =>
              obtain ⟨result, isDone⟩ := answer
              simp only [handled] at taken
              refine .inr ⟨result, isDone, rfl, ?_⟩
              split at taken
              · cases taken
                exact ⟨rfl, rfl, .inl ⟨rfl, .inl rfl⟩⟩
              · split at taken
                · rename_i returned
                  cases taken
                  exact ⟨rfl, rfl, .inr ⟨returned, rfl, rfl⟩⟩
                · cases taken
                  exact ⟨rfl, rfl, .inl ⟨rfl, .inr rfl⟩⟩

/-! ## The committed offset -/

/-- A running reader stands at the committed offset, and all items before it
were handled as `Done` asks. -/
structure Covers (Done : ℕ → Result → Prop) (reader : Reader Result) : Prop where
  position : ∀ position, reader.position = some position → position = reader.committedOffset
  handled : ∀ offset < reader.committedOffset, ∃ result, (offset, result) ∈ reader.handled ∧ Done offset result

variable {Done : ℕ → Result → Prop}

theorem covers_new : Covers Done ({} : Reader Result) where
  position _ running := by cases running
  handled _ below := absurd below (Nat.not_lt_zero _)

theorem Covers.start (covers : Covers Done reader) (started : reader.start = some next) : Covers Done next := by
  rw [start_eq_some started]
  exact ⟨fun position same => (Option.some.inj same).symm, covers.handled⟩

theorem Covers.crash (covers : Covers Done reader) : Covers Done reader.crash where
  position _ running := by cases running
  handled := covers.handled

theorem Covers.mono {Weaker : ℕ → Result → Prop} (covers : Covers Done reader)
    (weaker : ∀ offset result, Done offset result → Weaker offset result) : Covers Weaker reader where
  position := covers.position
  handled := fun offset below =>
    have ⟨result, member, done⟩ := covers.handled offset below
    ⟨result, member, weaker offset result done⟩

theorem Covers.take (covers : Covers Done reader)
    (done : ∀ position item result, log[position]? = some item → handle item = some (result, true) →
      Done position result)
    (taken : reader.take log handle crashes = some (next, outcome)) : Covers Done next := by
  obtain ⟨position, item, running, found, ⟨_, _, rfl⟩ | ⟨result, isDone, handled, _, history, rest⟩⟩ := take_cases taken
  · exact covers.crash
  · have kept (offset : ℕ) (below : offset < reader.committedOffset) :
        ∃ result, (offset, result) ∈ next.handled ∧ Done offset result := by
      obtain ⟨before, member, good⟩ := covers.handled offset below
      exact ⟨before, by rw [history]; exact List.mem_append_left _ member, good⟩
    have here := covers.position position running
    obtain ⟨sameOffset, stopped | stays⟩ | ⟨returned, moved, further⟩ := rest
    · refine ⟨fun other same => ?_, fun offset below => kept offset (sameOffset ▸ below)⟩
      rw [stopped] at same
      cases same
    · refine ⟨fun other same => ?_, fun offset below => kept offset (sameOffset ▸ below)⟩
      rw [stays] at same
      rw [← Option.some.inj same, sameOffset, here]
    · refine ⟨fun other same => ?_, fun offset below => ?_⟩
      · rw [further] at same
        rw [← Option.some.inj same, moved]
      · rw [moved] at below
        by_cases before : offset < reader.committedOffset
        · exact kept offset before
        · have last : offset = position := by omega
          subst last
          rw [returned] at handled
          exact ⟨result, by rw [history]; exact List.mem_append_right _ (.head _), done offset item result found handled⟩

/-! ## What was handled -/

/-- Every result is one of its item, as `Source` describes it. -/
def Sourced (Source : ℕ → Result → Prop) (reader : Reader Result) : Prop :=
  ∀ offset result, (offset, result) ∈ reader.handled → Source offset result

variable {Source : ℕ → Result → Prop}

theorem Sourced.start (sourced : Sourced Source reader) (started : reader.start = some next) : Sourced Source next := by
  rw [start_eq_some started]
  exact sourced

theorem Sourced.take (sourced : Sourced Source reader)
    (source : ∀ position item result isDone, log[position]? = some item → handle item = some (result, isDone) →
      Source position result)
    (taken : reader.take log handle crashes = some (next, outcome)) : Sourced Source next := by
  obtain ⟨position, item, _, found, ⟨_, _, rfl⟩ | ⟨result, isDone, handled, _, history, _⟩⟩ := take_cases taken
  · exact sourced
  · intro offset other member
    rw [history] at member
    obtain before | new := List.mem_append.mp member
    · exact sourced offset other before
    · cases List.mem_singleton.mp new
      exact source position item result isDone found handled

theorem Sourced.mono {Weaker : ℕ → Result → Prop} (sourced : Sourced Source reader)
    (weaker : ∀ offset result, Source offset result → Weaker offset result) : Sourced Weaker reader :=
  fun offset result member => weaker offset result (sourced offset result member)

end MuduoIm.Data.LogReader
