import Mathlib.Data.List.Basic

namespace MuduoIm.Data.Membership

/-! # Membership known by its changes

One member of a set is followed through a sequence of events, the oldest first.
An event that concerns the member tells whether it belongs to the set from then
on, so only the last such event matters.
-/

variable {Event : Type} (tells : Event → Option Bool)

/-- Whether the member belongs to the set after the events. -/
def memberAfter : Bool → List Event → Bool
  | member, [] => member
  | member, event :: rest => memberAfter ((tells event).getD member) rest

variable {tells} {member other : Bool} {event : Event} {earlier later events : List Event}

theorem memberAfter_append : memberAfter tells member (earlier ++ later) =
    memberAfter tells (memberAfter tells member earlier) later := by
  induction earlier generalizing member with
  | nil => rfl
  | cons event rest ih =>
      rw [List.cons_append, memberAfter, memberAfter]
      exact ih

theorem memberAfter_concat : memberAfter tells member (events ++ [event]) =
    (tells event).getD (memberAfter tells member events) := by
  rw [memberAfter_append]
  rfl

/-- Once an event concerns the member, it does not matter what was before. -/
theorem memberAfter_of_tells (concerned : ∃ event ∈ events, (tells event).isSome) :
    memberAfter tells member events = memberAfter tells other events := by
  induction events generalizing member other with
  | nil =>
      obtain ⟨event, absurdly, _⟩ := concerned
      cases absurdly
  | cons event rest ih =>
      rw [memberAfter, memberAfter]
      cases told : tells event with
      | some now => rfl
      | none =>
          apply ih
          obtain ⟨found, listed, concerns⟩ := concerned
          rcases List.mem_cons.mp listed with rfl | listed
          · rw [told] at concerns
            cases concerns
          · exact ⟨found, listed, concerns⟩

theorem memberAfter_of_silent (silent : ∀ event ∈ events, tells event = none) :
    memberAfter tells member events = member := by
  induction events with
  | nil => rfl
  | cons event rest ih =>
      rw [memberAfter, silent event List.mem_cons_self, Option.getD_none]
      exact ih fun event listed => silent event (List.mem_cons_of_mem _ listed)

/-- A follower that has missed the earlier events, whatever it knows, is right in
the end about a member that a later event concerns, or that it knows rightly. -/
theorem memberAfter_corrected {target : Bool} (right : memberAfter tells member (earlier ++ later) = target)
    (corrected : (∃ event ∈ later, (tells event).isSome) ∨ other = target) :
    memberAfter tells other later = target := by
  by_cases mentioned : ∃ event ∈ later, (tells event).isSome
  · rw [← right, memberAfter_append]
    exact memberAfter_of_tells mentioned
  · have silent : ∀ event ∈ later, tells event = none := by
      intro event listed
      cases told : tells event with
      | none => rfl
      | some now => exact absurd ⟨event, listed, by rw [told]; rfl⟩ mentioned
    rw [memberAfter_of_silent silent]
    exact corrected.resolve_left mentioned

end MuduoIm.Data.Membership
