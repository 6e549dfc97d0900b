import MuduoIm.Data.LogSegment
import MuduoIm.PushRouter.Route
import MuduoIm.Transition.Machine

namespace MuduoIm.PushRouter.Transactional

open MuduoIm.Data MuduoIm.Transition

/-! # The transactional loop

One iteration of the loop of `runTransactional` is up to three steps: it begins
a transaction unless one is open, consumes, and ends the transaction when the
batch is due.  The answers of Kafka are arguments of the steps.
-/

def BATCH_MAX : Nat := 100

/-- What `consumeOnce` returns; a null message counts as a timeout.  `accepts`
are the results of `produce` on the commands of the record. -/
inductive Consumed where
  | timeout
  | partitionEof
  | error
  | record (accepts : PushOut → Bool)

/-- The variables of a running process.  `position` is the consumer's, `ending`
the argument of an `endTx` that is due, `buffer` the output of the open
transaction, and `txStart` the position at which it was begun. -/
structure Process where
  position : Nat
  inTx : Bool := false
  inBatch : Nat := 0
  ending : Option Bool := none
  buffer : List (Nat × PushOut) := []
  txStart : Nat := position

/-- `log` is `im.messages` and `commands` the committed contents of
`im.push.commands`, each command with the offset of its record. -/
structure State where
  log : List Record := []
  committedOffset : Nat := 0
  commands : List (Nat × PushOut) := []
  process : Option Process := none

inductive Event where
  | publish (record : Record)
  | start
  | beginTransaction (began : Bool)
  | consumeOnce (consumed : Consumed)
  | endTx (offsetsSent committed : Bool)
  | crash

/-- `none` when there is no record to return; an inner `none` is a process that
an exception of `route` has ended. -/
def Process.consumeOnce (process : Process) (log : List Record) : Consumed → Option (Option Process)
  | .timeout | .partitionEof =>
      if 0 < process.inBatch then some (some { process with ending := some true })
      else some (some { process with inTx := false })
  | .error => some (some { process with ending := some false })
  | .record accepts =>
      match log[process.position]? with
      | none => none
      | some record =>
          match route record with
          | none => some none
          | some outs =>
              if outs.all accepts then
                some (some { process with
                  position := process.position + 1
                  inBatch := process.inBatch + 1
                  buffer := process.buffer ++ outs.map (Prod.mk process.position)
                  ending := if BATCH_MAX ≤ process.inBatch + 1 then some true else none })
              else some (some { process with position := process.position + 1, ending := some false })

/-- The consumer keeps its position when a transaction is aborted, and the
result of `sendOffsetsToTransaction` is not looked at. -/
def endTx (state : State) (process : Process) (ok offsetsSent committed : Bool) : State :=
  let closed : Process := { process with inTx := false, inBatch := 0, ending := none, buffer := [] }
  if ok && committed then
    { state with
      process := some closed
      commands := state.commands ++ process.buffer
      committedOffset := if offsetsSent then process.position else state.committedOffset }
  else { state with process := some closed }

def step (state : State) : Event → Option State
  | .publish record => some { state with log := state.log ++ [record] }
  | .start =>
      match state.process with
      | none => some { state with process := some { position := state.committedOffset } }
      | some _ => none
  | .beginTransaction began =>
      match state.process with
      | none => none
      | some process =>
          if process.inTx then none
          else if began then
            some { state with process := some { process with
              inTx := true, inBatch := 0, buffer := [], txStart := process.position } }
          else some state
  | .consumeOnce consumed =>
      match state.process with
      | none => none
      | some process =>
          if process.inTx ∧ process.ending = none then
            (process.consumeOnce state.log consumed).map fun process => { state with process }
          else none
  | .endTx offsetsSent committed =>
      match state.process with
      | none => none
      | some process =>
          process.ending.map fun ok => endTx state process ok offsetsSent committed
  -- an open transaction is aborted; the shutdown of the loop ends it likewise
  | .crash => some { state with process := none }

def machine : Machine State Event := ⟨step⟩

/-- `im.push.commands` has the commands of each record before the committed
offset exactly once. -/
def ExactlyOnce (state : State) : Prop :=
  ∀ offset < state.committedOffset, ∀ record, state.log[offset]? = some record →
    (state.commands.filter (fun output => output.1 = offset)).map Prod.snd = pushCommands record

/-- A transaction is committed with its offsets, unless it is empty, and no
record that is to be routed lies between the committed offset and its start. -/
def CommitsInSequence (state : State) : Event → Prop
  | .endTx offsetsSent committed => ∀ process ∈ state.process,
      process.ending = some true → committed = true →
        (offsetsSent = true ∨ process.buffer = []) ∧
          outputs pushCommands state.log state.committedOffset process.txStart = []
  | _ => True

/-! ## One step -/

/-- The open transaction holds the commands of all records since its start,
unless it is about to be aborted. -/
structure Sound (log : List Record) (committedOffset : Nat) (process : Process) : Prop where
  ahead : committedOffset ≤ process.position
  within : process.position ≤ log.length
  open_of_ending : ∀ ok, process.ending = some ok → process.inTx = true
  started : process.inTx = true → committedOffset ≤ process.txStart ∧ process.txStart ≤ process.position
  complete : process.inTx = true → process.ending ≠ some false →
    process.buffer = outputs pushCommands log process.txStart process.position

structure InSequence (state : State) : Prop where
  within : state.committedOffset ≤ state.log.length
  commands : state.commands = outputs pushCommands state.log 0 state.committedOffset
  process : ∀ process ∈ state.process, Sound state.log state.committedOffset process

variable {state next : State} {process : Process}

theorem InSequence.exactlyOnce (inSequence : InSequence state) : ExactlyOnce state := by
  intro offset below record found
  rw [inSequence.commands, filter_outputs (Nat.zero_le offset) below, outputsAt, found]
  simp only [List.map_map, Function.comp_def, List.map_id']

/-- The invariant asks for soundness of the process if there is one. -/
theorem Sound.running {log : List Record} {committedOffset : Nat}
    (sound : Sound log committedOffset process) :
    ∀ running ∈ some process, Sound log committedOffset running := by
  intro running member
  cases member
  exact sound

theorem Sound.publish {log : List Record} {committedOffset : Nat} {record : Record}
    (sound : Sound log committedOffset process) : Sound (log ++ [record]) committedOffset process where
  ahead := sound.ahead
  within := by
    have within := sound.within
    rw [List.length_append]
    omega
  open_of_ending := sound.open_of_ending
  started := sound.started
  complete := fun inTx unaborted => by
    rw [outputs_publish sound.within]
    exact sound.complete inTx unaborted

theorem Sound.beginTransaction {log : List Record} {committedOffset : Nat}
    (sound : Sound log committedOffset process) :
    Sound log committedOffset { process with
      inTx := true, inBatch := 0, buffer := [], txStart := process.position } where
  ahead := sound.ahead
  within := sound.within
  open_of_ending := fun _ _ => rfl
  started := fun _ => ⟨sound.ahead, Nat.le_refl _⟩
  complete := fun _ _ => outputs_self.symm

/-- A process whose transaction is closed. -/
theorem Sound.closed {log : List Record} {committedOffset : Nat}
    (ahead : committedOffset ≤ process.position) (within : process.position ≤ log.length)
    (closed : process.inTx = false) (settled : process.ending = none) :
    Sound log committedOffset process where
  ahead := ahead
  within := within
  open_of_ending := by simp [settled]
  started := by simp [closed]
  complete := by simp [closed]

theorem Sound.record {log : List Record} {committedOffset : Nat} {record : Record}
    {outs : List PushOut} {inBatch : Nat} {ending : Option Bool}
    (sound : Sound log committedOffset process) (inTx : process.inTx = true)
    (idle : process.ending = none) (found : log[process.position]? = some record)
    (routed : route record = some outs) :
    Sound log committedOffset { process with
      position := process.position + 1, inBatch, ending
      buffer := process.buffer ++ outs.map (Prod.mk process.position) } where
  ahead := Nat.le_succ_of_le sound.ahead
  within := (List.getElem?_eq_some_iff.mp found).1
  open_of_ending := fun _ _ => inTx
  started := fun _ => ⟨(sound.started inTx).1, Nat.le_succ_of_le (sound.started inTx).2⟩
  complete := fun _ _ => by
    have before := sound.complete inTx (by simp [idle])
    rw [outputs_succ (sound.started inTx).2, ← before, outputsAt, found]
    simp only [pushCommands, routed, Option.getD_some]

theorem Sound.aborting {log : List Record} {committedOffset position : Nat}
    (sound : Sound log committedOffset process) (inTx : process.inTx = true)
    (grows : process.position ≤ position) (within : position ≤ log.length) :
    Sound log committedOffset { process with position, ending := some false } where
  ahead := Nat.le_trans sound.ahead grows
  within := within
  open_of_ending := fun _ _ => inTx
  started := fun _ => ⟨(sound.started inTx).1, Nat.le_trans (sound.started inTx).2 grows⟩
  complete := by simp

theorem Sound.consumeOnce {log : List Record} {committedOffset : Nat} {consumed : Consumed}
    {after : Option Process} (sound : Sound log committedOffset process) (inTx : process.inTx = true)
    (idle : process.ending = none) (returned : process.consumeOnce log consumed = some after) :
    ∀ process ∈ after, Sound log committedOffset process := by
  have quiet (result : (if 0 < process.inBatch then some (some { process with ending := some true })
      else some (some { process with inTx := false })) = some after) :
      ∀ process ∈ after, Sound log committedOffset process := by
    split at result
    · cases result
      have due : Sound log committedOffset { process with ending := some true } := { sound with
        open_of_ending := fun _ _ => inTx
        complete := fun _ _ => sound.complete inTx (by simp [idle]) }
      exact due.running
    · cases result
      exact Sound.running (Sound.closed sound.ahead sound.within rfl idle)
  cases consumed with
  | timeout => exact quiet returned
  | partitionEof => exact quiet returned
  | error =>
      cases returned
      exact (sound.aborting inTx (Nat.le_refl _) sound.within).running
  | record accepts =>
      simp only [Process.consumeOnce] at returned
      cases found : log[process.position]? with
      | none => simp [found] at returned
      | some record =>
          cases routed : route record with
          | none =>
              simp only [found, routed, Option.some.injEq] at returned
              subst returned
              nofun
          | some outs =>
              simp only [found, routed] at returned
              split at returned
              · cases returned
                exact (sound.record inTx idle found routed).running
              · cases returned
                have within : process.position < log.length := (List.getElem?_eq_some_iff.mp found).1
                exact (sound.aborting inTx (Nat.le_succ _) within).running

theorem InSequence.endTx {ok offsetsSent committed : Bool} (inSequence : InSequence state)
    (running : state.process = some process) (due : process.ending = some ok)
    (keeps : CommitsInSequence state (.endTx offsetsSent committed)) :
    InSequence (endTx state process ok offsetsSent committed) := by
  have sound := inSequence.process process running
  have inTx := sound.open_of_ending ok due
  simp only [Transactional.endTx]
  split
  · rename_i commits
    obtain ⟨rfl, rfl⟩ := Bool.and_eq_true_iff.mp commits
    obtain ⟨sentOrEmpty, noGap⟩ := keeps process running due rfl
    have batch := sound.complete inTx (by simp [due])
    obtain ⟨lower, upper⟩ := sound.started inTx
    have joined : state.commands ++ process.buffer =
        outputs pushCommands state.log 0 process.position := by
      calc
        state.commands ++ process.buffer
            = outputs pushCommands state.log 0 state.committedOffset ++
                (outputs pushCommands state.log state.committedOffset process.txStart ++
                  outputs pushCommands state.log process.txStart process.position) := by
              rw [inSequence.commands, noGap, ← batch, List.nil_append]
        _ = outputs pushCommands state.log 0 process.position := by
              rw [outputs_append lower upper, outputs_append (Nat.zero_le _) sound.ahead]
    cases offsetsSent with
    | true =>
        exact ⟨sound.within, joined, Sound.running (Sound.closed (Nat.le_refl _) sound.within rfl rfl)⟩
    | false =>
        have empty : process.buffer = [] := sentOrEmpty.resolve_left nofun
        have unchanged : state.commands ++ process.buffer =
            outputs pushCommands state.log 0 state.committedOffset := by
          rw [empty, List.append_nil]
          exact inSequence.commands
        exact ⟨inSequence.within, unchanged, Sound.running (Sound.closed sound.ahead sound.within rfl rfl)⟩
  · exact ⟨inSequence.within, inSequence.commands,
      Sound.running (Sound.closed sound.ahead sound.within rfl rfl)⟩

theorem InSequence.preserved {event : Event} (inSequence : InSequence state)
    (keeps : CommitsInSequence state event) (stepped : step state event = some next) :
    InSequence next := by
  cases event with
  | publish record =>
      cases stepped
      refine ⟨?_, ?_, fun process running => (inSequence.process process running).publish⟩
      · exact Nat.le_trans inSequence.within (by simp)
      · rw [outputs_publish inSequence.within]
        exact inSequence.commands
  | start =>
      simp only [step] at stepped
      split at stepped
      · cases stepped
        exact ⟨inSequence.within, inSequence.commands,
          Sound.running (Sound.closed (Nat.le_refl _) inSequence.within rfl rfl)⟩
      · contradiction
  | beginTransaction began =>
      cases running : state.process with
      | none => simp [step, running] at stepped
      | some process =>
          have sound := inSequence.process process running
          simp only [step, running] at stepped
          split at stepped
          · contradiction
          · split at stepped
            · cases stepped
              exact ⟨inSequence.within, inSequence.commands, sound.beginTransaction.running⟩
            · cases stepped
              exact inSequence
  | consumeOnce consumed =>
      cases running : state.process with
      | none => simp [step, running] at stepped
      | some process =>
          simp only [step, running] at stepped
          split at stepped
          · rename_i working
            obtain ⟨after, returned, rfl⟩ := Option.map_eq_some_iff.mp stepped
            exact ⟨inSequence.within, inSequence.commands,
              (inSequence.process process running).consumeOnce working.1 working.2 returned⟩
          · contradiction
  | endTx offsetsSent committed =>
      cases running : state.process with
      | none => simp [step, running] at stepped
      | some process =>
          simp only [step, running] at stepped
          obtain ⟨ok, due, rfl⟩ := Option.map_eq_some_iff.mp stepped
          exact inSequence.endTx running due keeps
  | crash =>
      cases stepped
      exact ⟨inSequence.within, inSequence.commands, nofun⟩

/-! ## Runs -/

/-- In every run whose committed transactions are in sequence, the push commands
are routed exactly once. -/
theorem exactly_once_of_commitsInSequence {events : List Event}
    (met : machine.Meets CommitsInSequence {} events) : machine.Always ExactlyOnce {} events := by
  have start : InSequence {} := ⟨Nat.le_refl 0, outputs_self.symm, nofun⟩
  exact (Machine.always_of_meets InSequence start
    (fun _ _ _ inSequence keeps stepped => inSequence.preserved keeps stepped) met).mono
      fun _ inSequence => inSequence.exactlyOnce

private def toUserTwo (content : String) : Record :=
  some (.object [("type", .string "private"), ("msgId", .string "101"), ("from", .integer 1),
    ("to", .integer 2), ("content", .string content), ("timestamp", .integer 0)])

/-- The process crashes with a batch in hand and routes the record again. -/
private def crashedBatch : List Event :=
  [.publish (toUserTwo "hello"), .start, .beginTransaction true, .consumeOnce (.record fun _ => true),
    .crash, .start, .beginTransaction true, .consumeOnce (.record fun _ => true),
    .consumeOnce .timeout, .endTx true true]

theorem crashed_batch_exactly_once :
    ∃ state, machine.run {} crashedBatch = some state ∧ state.committedOffset = 1 ∧ ExactlyOnce state := by
  have met : machine.Meets CommitsInSequence {} crashedBatch :=
    .cons rfl trivial <| .cons rfl trivial <| .cons rfl trivial <| .cons rfl trivial <|
    .cons rfl trivial <| .cons rfl trivial <| .cons rfl trivial <| .cons rfl trivial <|
    .cons rfl trivial <| .cons rfl (fun process running _ _ => by
      cases running
      exact ⟨.inl rfl, rfl⟩) trivial
  exact ⟨_, rfl, rfl, (exactly_once_of_commitsInSequence met).atEnd rfl⟩

/-! ## An aborted batch -/

/-- The first command is refused and its transaction aborted; the next one
starts behind the record and commits the offset of both. -/
private def abortedBatch : List Event :=
  [.publish (toUserTwo "hello"), .publish (toUserTwo "again"), .start, .beginTransaction true,
    .consumeOnce (.record fun _ => false), .endTx true true, .beginTransaction true,
    .consumeOnce (.record fun _ => true), .consumeOnce .timeout, .endTx true true]

theorem aborted_batch_is_skipped :
    ∃ state, machine.run {} abortedBatch = some state ∧ state.committedOffset = 2 ∧
      ¬ ExactlyOnce state := by
  refine ⟨_, rfl, rfl, fun exactlyOnce => ?_⟩
  have routed := exactlyOnce 0 (by decide) (toUserTwo "hello") rfl
  exact absurd (congrArg List.length routed) (by decide)

end MuduoIm.PushRouter.Transactional
