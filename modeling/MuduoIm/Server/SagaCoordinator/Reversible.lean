import MuduoIm.Server.SagaCoordinator.Execute

namespace MuduoIm.Server.SagaCoordinator

/-! # Sagas whose steps can be undone

`effect sagaId i tables` counts how often the tables show forward step `i` of a
saga.  `records i payload` says that the payload has what the compensation of
step `i` reads of it.
-/

variable {Env Tables Payload : Type}
variable (effect : Int → Nat → Tables → Nat) (records : Nat → Payload → Prop)

/-- What a step function leaves alone, whatever its result. -/
structure Confined (fn : StepFn Env Tables Payload) : Prop where
  sagaId : ∀ env context tables, (fn env context tables).context.sagaId = context.sagaId
  others : ∀ env context tables other i, other ≠ context.sagaId →
    effect other i (fn env context tables).tables = effect other i tables
  recorded : ∀ env context tables i, records i context.payload →
    records i (fn env context tables).context.payload

/-- A forward step that succeeds takes effect once; its compensation undoes it,
also when there is nothing left to undo.  Only the last step may lack one. -/
structure Reversible (definition : Definition Env Tables Payload) : Prop where
  forwardConfined : ∀ step ∈ definition.steps, Confined effect records step.forward
  undoConfined : ∀ step ∈ definition.steps, ∀ undo ∈ step.compensate, Confined effect records undo
  applies : ∀ i step, definition.steps[i]? = some step → ∀ env context tables,
    (step.forward env context tables).ok = true →
      records i (step.forward env context tables).context.payload ∧
      effect context.sagaId i (step.forward env context tables).tables =
        effect context.sagaId i tables + 1 ∧
      ∀ j, j ≠ i → effect context.sagaId j (step.forward env context tables).tables =
        effect context.sagaId j tables
  undoes : ∀ i step undo, definition.steps[i]? = some step → step.compensate = some undo →
    ∀ env context tables, records i context.payload → effect context.sagaId i tables ≤ 1 →
      (undo env context tables).ok = true →
        effect context.sagaId i (undo env context tables).tables = 0 ∧
        ∀ j, j ≠ i → effect context.sagaId j (undo env context tables).tables =
          effect context.sagaId j tables
  compensable : ∀ i step, definition.steps[i]? = some step → i + 1 < definition.steps.length →
    ∃ undo, step.compensate = some undo

/-- Exactly the steps below `count` are applied, each once. -/
def AppliedBelow (count : Nat) (applied : Nat → Nat) : Prop :=
  ∀ i, applied i = if i < count then 1 else 0

/-- The context can serve the compensations of the steps below `count`. -/
structure Ready (sagaId : Int) (count : Nat) (context : Context Payload) : Prop where
  sagaId : context.sagaId = sagaId
  recorded : ∀ i < count, records i context.payload

variable {effect records}
variable {definition : Definition Env Tables Payload} {sagaId : Int} {tables : Tables}
variable {applied : Nat → Nat} {context : Context Payload} {row : Row Payload}
variable {step : Step Env Tables Payload} {i count : Nat}

theorem Ready.of_confined {fn : StepFn Env Tables Payload}
    (ready : Ready records sagaId count context) (confined : Confined effect records fn)
    (env : Env) (tables : Tables) :
    Ready records sagaId count (fn env context tables).context where
  sagaId := (confined.sagaId env context tables).trans ready.sagaId
  recorded := fun i below => confined.recorded env context tables i (ready.recorded i below)

theorem AppliedBelow.succ {more : Nat → Nat} (below : AppliedBelow count applied)
    (once : more count = applied count + 1) (rest : ∀ i, i ≠ count → more i = applied i) :
    AppliedBelow (count + 1) more := by
  intro i
  by_cases same : i = count
  · subst same
    rw [once, below, if_neg (Nat.lt_irrefl _), if_pos (Nat.lt_succ_self _)]
  · rw [rest i same, below]
    exact if_congr (by omega) rfl rfl

theorem AppliedBelow.pred {less : Nat → Nat} (below : AppliedBelow (count + 1) applied)
    (none_left : less count = 0) (rest : ∀ i, i ≠ count → less i = applied i) :
    AppliedBelow count less := by
  intro i
  by_cases same : i = count
  · subst same
    rw [none_left, if_neg (Nat.lt_irrefl _)]
  · rw [rest i same, below]
    exact if_congr (by omega) rfl rfl

/-! ## One forward step -/

theorem forward_cases (step : Step Env Tables Payload) (i : Nat) (context : Context Payload)
    (row : Row Payload) (tables : Tables) (outcome : ForwardOutcome Env) :
    let attempt := forward step i context row tables outcome
    (attempt.ok = false ∧ attempt.committed = false ∧ attempt.row = row ∧ attempt.tables = tables ∧
      ∃ entered lastError, attempt.context = { entered with lastError } ∧
        (entered = { context with currentStep := i } ∨
          ∃ env, entered = (step.forward env { context with currentStep := i } tables).context)) ∨
    (attempt.committed = true ∧
      attempt.row = { row with currentStep := i + 1, payload := attempt.context.payload } ∧
      ∃ env, let result := step.forward env { context with currentStep := i } tables
        result.ok = true ∧ attempt.tables = result.tables ∧
        (attempt.ok = true ∧ attempt.context = result.context ∨
          outcome = .answerLost env ∧ attempt.ok = false ∧
            ∃ lastError, attempt.context = { result.context with lastError })) := by
  cases outcome with
  | noConnection => exact .inl ⟨rfl, rfl, rfl, rfl, _, _, rfl, .inl rfl⟩
  | beginFailed => exact .inl ⟨rfl, rfl, rfl, rfl, _, _, rfl, .inl rfl⟩
  | attempt env updated committed =>
      simp only [forward]
      by_cases failed : (!(step.forward env { context with currentStep := i } tables).ok) = true
      · rw [if_pos failed]
        exact .inl ⟨rfl, rfl, rfl, rfl, _, _, rfl, .inr ⟨env, rfl⟩⟩
      · rw [if_neg failed]
        by_cases rolledBack : (!updated || !committed) = true
        · rw [if_pos rolledBack]
          exact .inl ⟨rfl, rfl, rfl, rfl, _, _, rfl, .inr ⟨env, rfl⟩⟩
        · rw [if_neg rolledBack]
          exact .inr ⟨rfl, rfl, env, by simpa using failed, rfl, .inl ⟨rfl, rfl⟩⟩
  | answerLost env =>
      simp only [forward]
      by_cases failed : (!(step.forward env { context with currentStep := i } tables).ok) = true
      · rw [if_pos failed]
        exact .inl ⟨rfl, rfl, rfl, rfl, _, _, rfl, .inr ⟨env, rfl⟩⟩
      · rw [if_neg failed]
        exact .inr ⟨rfl, rfl, env, by simpa using failed, rfl, .inr ⟨rfl, rfl, _, rfl⟩⟩

theorem forward_failed {outcome : ForwardOutcome Env} (reversible : Reversible effect records definition)
    (found : definition.steps[i]? = some step) (ready : Ready records sagaId count context)
    (failed : (forward step i context row tables outcome).committed = false) :
    let attempt := forward step i context row tables outcome
    attempt.ok = false ∧ attempt.row = row ∧ attempt.tables = tables ∧
      Ready records sagaId count attempt.context := by
  have confined := reversible.forwardConfined step (List.mem_of_getElem? found)
  have started : Ready records sagaId count { context with currentStep := i } :=
    ⟨ready.sagaId, ready.recorded⟩
  rcases forward_cases step i context row tables outcome with
    ⟨refused, _, sameRow, sameTables, entered, lastError, left, origin⟩ | ⟨committed, _⟩
  · refine ⟨refused, sameRow, sameTables, ?_⟩
    rw [left]
    rcases origin with rfl | ⟨env, rfl⟩
    · exact ⟨started.sagaId, started.recorded⟩
    · have after := started.of_confined confined env tables
      exact ⟨after.sagaId, after.recorded⟩
  · rw [failed] at committed
    contradiction

theorem forward_committed {outcome : ForwardOutcome Env}
    (reversible : Reversible effect records definition)
    (found : definition.steps[i]? = some step) (ready : Ready records sagaId i context)
    (committed : (forward step i context row tables outcome).committed = true) :
    let attempt := forward step i context row tables outcome
    attempt.row = { row with currentStep := i + 1, payload := attempt.context.payload } ∧
      Ready records sagaId (i + 1) attempt.context ∧
      effect sagaId i attempt.tables = effect sagaId i tables + 1 ∧
      ∀ j, j ≠ i → effect sagaId j attempt.tables = effect sagaId j tables := by
  have confined := reversible.forwardConfined step (List.mem_of_getElem? found)
  have started : Ready records sagaId i { context with currentStep := i } :=
    ⟨ready.sagaId, ready.recorded⟩
  rcases forward_cases step i context row tables outcome with
    ⟨_, failed, _⟩ | ⟨_, newRow, env, ok, written, left⟩
  · rw [committed] at failed
    contradiction
  · have after := started.of_confined confined env tables
    obtain ⟨recorded, once, rest⟩ := reversible.applies i step found env _ tables ok
    have served : Ready records sagaId (i + 1)
        (step.forward env { context with currentStep := i } tables).context := by
      refine ⟨after.sagaId, fun j below => ?_⟩
      rcases Nat.lt_succ_iff_lt_or_eq.mp below with earlier | rfl
      · exact after.recorded j earlier
      · exact recorded
    obtain rfl := ready.sagaId
    refine ⟨newRow, ?_, by rw [written]; exact once, fun j other => by rw [written]; exact rest j other⟩
    rcases left with ⟨_, left⟩ | ⟨_, _, lastError, left⟩
    · rw [left]
      exact served
    · rw [left]
      exact ⟨served.sagaId, served.recorded⟩

theorem forward_others {outcome : ForwardOutcome Env} (reversible : Reversible effect records definition)
    (found : definition.steps[i]? = some step) {other : Int} (apart : other ≠ context.sagaId)
    (j : Nat) :
    effect other j (forward step i context row tables outcome).tables = effect other j tables := by
  have confined := reversible.forwardConfined step (List.mem_of_getElem? found)
  rcases forward_cases step i context row tables outcome with
    ⟨_, _, _, same, _⟩ | ⟨_, _, env, _, written, _⟩
  · rw [same]
  · rw [written]
    exact confined.others env { context with currentStep := i } tables other j apart

/-! ## One compensation -/

theorem compensate_cases (step : Step Env Tables Payload) (context : Context Payload) (tables : Tables)
    (outcome : CompensateOutcome Env) :
    let compensation := compensate step context tables outcome
    (compensation.context = context ∧ compensation.tables = tables ∧ compensation.wrote = false ∧
      (compensation.complete = true → step.compensate = none)) ∨
    ∃ undo, step.compensate = some undo ∧ ∃ env,
      compensation.context = (undo env context tables).context ∧
      ((compensation.tables = tables ∧ compensation.wrote = false ∧ compensation.complete = false) ∨
        (compensation.tables = (undo env context tables).tables ∧ compensation.wrote = true ∧
          (compensation.complete = true → (undo env context tables).ok = true))) := by
  cases given : step.compensate with
  | none => exact .inl (by simp [compensate, given])
  | some undo =>
      cases outcome with
      | noConnection => exact .inl (by simp [compensate, given])
      | attempt env began committed =>
          refine .inr ⟨undo, rfl, env, ?_⟩
          simp only [compensate, given]
          cases began with
          | false => simp
          | true =>
              cases committed <;> cases result : (undo env context tables).ok <;> simp

theorem compensate_ready {outcome : CompensateOutcome Env}
    (reversible : Reversible effect records definition)
    (found : definition.steps[i]? = some step) (ready : Ready records sagaId count context) :
    Ready records sagaId count (compensate step context tables outcome).context := by
  have confined := reversible.undoConfined step (List.mem_of_getElem? found)
  rcases compensate_cases step context tables outcome with
    ⟨same, _⟩ | ⟨undo, given, env, left, _⟩
  · rw [same]
    exact ready
  · rw [left]
    exact ready.of_confined (confined undo given) env tables

theorem compensate_others {outcome : CompensateOutcome Env}
    (reversible : Reversible effect records definition)
    (found : definition.steps[i]? = some step) {other : Int} (apart : other ≠ context.sagaId)
    (j : Nat) :
    effect other j (compensate step context tables outcome).tables = effect other j tables := by
  have confined := reversible.undoConfined step (List.mem_of_getElem? found)
  rcases compensate_cases step context tables outcome with
    ⟨_, same, _⟩ | ⟨undo, given, env, _, ⟨same, _⟩ | ⟨written, _⟩⟩
  · rw [same]
  · rw [same]
  · rw [written]
    exact (confined undo given).others env context tables other j apart

theorem compensate_idle {outcome : CompensateOutcome Env}
    (untouched : (compensate step context tables outcome).wrote = false) :
    (compensate step context tables outcome).tables = tables := by
  rcases compensate_cases step context tables outcome with
    ⟨_, same, _⟩ | ⟨undo, given, env, _, ⟨same, _⟩ | ⟨_, wrote, _⟩⟩
  · exact same
  · exact same
  · rw [untouched] at wrote
    contradiction

theorem compensate_complete {outcome : CompensateOutcome Env}
    (reversible : Reversible effect records definition)
    (found : definition.steps[i]? = some step) (notLast : i + 1 < definition.steps.length)
    (ready : Ready records sagaId count context) (within : i < count)
    (below : AppliedBelow (i + 1) (fun j => effect sagaId j tables))
    (complete : (compensate step context tables outcome).complete = true) :
    AppliedBelow i (fun j => effect sagaId j (compensate step context tables outcome).tables) := by
  obtain ⟨undo, given⟩ := reversible.compensable i step found notLast
  rcases compensate_cases step context tables outcome with
    ⟨_, _, _, absent⟩ | ⟨undo, given, env, _, ⟨_, _, incomplete⟩ | ⟨written, _, ok⟩⟩
  · rw [absent complete] at given
    contradiction
  · rw [complete] at incomplete
    contradiction
  · obtain rfl := ready.sagaId
    have once : effect context.sagaId i tables = 1 := by
      simpa using below i
    obtain ⟨none_left, rest⟩ := reversible.undoes i step undo found given env context tables
      (ready.recorded i within) (Nat.le_of_eq once) (ok complete)
    rw [written]
    exact below.pred none_left rest

end MuduoIm.Server.SagaCoordinator
