import MuduoIm.Moderation.ContentModerationService.Verdict
import MuduoIm.Transition.Machine

namespace MuduoIm.Moderation.ContentModerationService

open Data AhoCorasick Transition

/-! # The reload thread

The word list is changed at any time; a tick of the thread compares the latest
`updated_at` of the enabled rows with that of the last load, and reloads where
they differ.  The query of the check and that of the reload are two statements.
-/

abbrev WordList := Table ℕ WordRow

/-- `WHERE enabled=1`. -/
def enabledRows (list : WordList) : List WordRow := list.select WordRow.enabled

/-- `IFNULL(UNIX_TIMESTAMP(MAX(updated_at))*1000, 0)` of the enabled rows. -/
def queryMaxUpdatedAt (list : WordList) : ℕ :=
  (enabledRows list).foldl (fun latest row => max latest row.version) 0

/-- A statement on the word list; disabling and re-enabling are updates too. -/
inductive Change where
  | insert (id : ℕ) (word category : Option Bytes) (enabled : Bool)
  | update (id : ℕ) (word category : Option Bytes)
  | setEnabled (id : ℕ) (enabled : Bool)
  | delete (id : ℕ)

def Change.apply (second : ℕ) (list : WordList) : Change → Option WordList
  | .insert id word category enabled =>
      if (list.lookup id).isSome then none
      else some (list.insert id { word, category, enabled, updatedAt := second })
  | .update id word category =>
      (list.lookup id).map (fun row =>
        list.insert id { row with word, category, updatedAt := second })
  | .setEnabled id enabled =>
      (list.lookup id).map (fun row => list.insert id { row with enabled, updatedAt := second })
  | .delete id => some (list.erase id)

inductive Phase where
  | idle
  | reloading
deriving DecidableEq

/-- `checked` are the rows that were enabled at the last check, or at the start;
no step reads them. -/
structure State where
  list : WordList
  second : ℕ
  service : Service
  phase : Phase
  checked : List WordRow

inductive Event where
  | elapse (seconds : ℕ)
  | change (change : Change)
  | check
  | load (traversal : Traversal) (rows : List WordRow)

/-- Whether a check leads to a reload. -/
def notices (list : WordList) (service : Service) : Bool :=
  0 < queryMaxUpdatedAt list && queryMaxUpdatedAt list ≠ service.lastVersion

def step (state : State) : Event → Option State
  | .elapse seconds => some { state with second := state.second + seconds }
  | .change change =>
      (change.apply state.second state.list).map (fun list => { state with list })
  | .check =>
      if state.phase = .idle then
        some
          { state with
            phase := if notices state.list state.service then .reloading else .idle
            checked := enabledRows state.list }
      else none
  | .load traversal rows =>
      if state.phase = .reloading ∧ rows.Perm (enabledRows state.list) then
        (reload traversal rows).map (fun service => { state with service, phase := .idle })
      else none

def machine : Machine State Event := ⟨step⟩

/-- The service after its constructor, which has loaded the list. -/
def start (list : WordList) (second : ℕ) (service : Service) : State where
  list := list
  second := second
  service := service
  phase := .idle
  checked := enabledRows list

/-- The automaton in use was built from the entries of the rows, in some order. -/
def BuiltFrom (rows : List WordRow) (service : Service) : Prop :=
  ∃ traversal calls built, calls.Perm (listedWords rows) ∧
    build traversal (addWords fresh calls) = some built ∧ service.current = some built

/-- Between two ticks, the automaton is that of the rows of the last check. -/
def Follows (state : State) : Prop :=
  state.phase = .idle → BuiltFrom state.checked state.service

/-- The words are those of the previous check wherever a check does not notice
a change, and the words that a reload reads are those of its check. -/
def Noticed (state : State) : Event → Prop
  | .check => notices state.list state.service = false →
      (listedWords (enabledRows state.list)).Perm (listedWords state.checked)
  | .load _ _ => (listedWords (enabledRows state.list)).Perm (listedWords state.checked)
  | _ => True

variable {rows other : List WordRow} {service : Service} {state next : State} {event : Event}
  {list : WordList} {second : ℕ} {traversal : Traversal} {events : List Event}

/-- Calls with an empty word leave the automaton as it is. -/
theorem addWords_added (nodes : List Node) (calls : List (Bytes × Bytes)) :
    addWords nodes (added calls) = addWords nodes calls := by
  induction calls generalizing nodes with
  | nil => rfl
  | cons call calls ih =>
      by_cases empty : call.1 = []
      · have skipped : added (call :: calls) = added calls := by simp [added, empty]
        rw [skipped, ih, addWords, addWords, List.foldl_cons, addWord, if_pos empty]
      · have kept : added (call :: calls) = call :: added calls := by simp [added, empty]
        rw [kept, addWords, List.foldl_cons]
        exact ih _

theorem added_perm {calls : List (Bytes × Bytes)} (same : calls.Perm (listedWords rows)) :
    (added calls).Perm (listedWords rows) := by
  have whole : added (listedWords rows) = listedWords rows := by simp [listedWords, added]
  rw [← whole]
  exact same.filter _

theorem builtFrom_of_reload (loaded : reload traversal rows = some service) :
    BuiltFrom rows service := by
  obtain ⟨_, built, again, current, result⟩ := reload_built traversal rows
  obtain rfl := Option.some.inj (loaded.symm.trans again)
  refine ⟨traversal, listedWords rows, built, List.Perm.refl _, ?_, current⟩
  rw [listedWords, addWords_added]
  exact result

/-- The automaton determines the words it was built from. -/
theorem builtFrom_iff (held : BuiltFrom rows service) :
    BuiltFrom other service ↔ (listedWords other).Perm (listedWords rows) := by
  obtain ⟨traversal, calls, built, same, result, current⟩ := held
  constructor
  · rintro ⟨traversal', calls', built', same', result', current'⟩
    obtain rfl := Option.some.inj (current.symm.trans current')
    exact (added_perm same').symm.trans
      ((added_perm_of_built result' result).trans (added_perm same))
  · intro equal
    exact ⟨traversal, calls, built, same.trans equal.symm, result, current⟩

theorem step_follows_iff (held : Follows state) (stepped : step state event = some next) :
    Follows next ↔ Noticed state event := by
  cases event with
  | elapse seconds =>
      cases stepped
      exact iff_of_true held trivial
  | change change =>
      obtain ⟨list, _, rfl⟩ := Option.map_eq_some_iff.mp stepped
      exact iff_of_true held trivial
  | check =>
      rw [step] at stepped
      split at stepped
      · next idle =>
        cases stepped
        cases noticed : notices state.list state.service with
        | true => simp [Follows, Noticed, noticed]
        | false =>
            simp only [Follows, Noticed, noticed, forall_const, Bool.false_eq_true, if_false]
            exact builtFrom_iff (held idle)
      · cases stepped
  | load traversal rows =>
      rw [step] at stepped
      split at stepped
      · next allowed =>
        obtain ⟨service, loaded, rfl⟩ := Option.map_eq_some_iff.mp stepped
        simp only [Follows, Noticed, forall_const]
        have words : (listedWords rows).Perm (listedWords (enabledRows state.list)) :=
          (allowed.2.filterMap _).filter _
        rw [builtFrom_iff (builtFrom_of_reload loaded)]
        exact ⟨fun same => words.symm.trans same.symm, fun same => (words.trans same).symm⟩
      · cases stepped

/-- In a run, the automaton follows the list exactly if no check overlooks a
change of the words and none changes between a check and its reload. -/
theorem follows_iff (listed : rows.Perm (enabledRows list))
    (loaded : reload traversal rows = some service) :
    machine.Always Follows (start list second service) events ↔
      machine.Meets Noticed (start list second service) events := by
  have held : Follows (start list second service) := by
    intro _
    have words : (listedWords (enabledRows list)).Perm (listedWords rows) :=
      (listed.symm.filterMap _).filter _
    exact (builtFrom_iff (builtFrom_of_reload loaded)).mpr words
  exact Machine.always_iff_meets (fun _ => True) held trivial (fun _ _ _ _ _ => trivial)
    (fun _ _ _ _ held stepped => step_follows_iff held stepped)

def banned : WordRow where
  word := some (ascii "bad")
  category := some ban
  enabled := true
  updatedAt := 10

def oneWord : WordList := (∅ : WordList).insert 1 banned

def worse : WordRow where
  word := some (ascii "worse")
  category := some ban
  enabled := true
  updatedAt := 20

def twoWords : WordList := oneWord.insert 2 worse

/-- A word is added, and the next tick loads the list again. -/
def wordAdded : List Event :=
  [.change (.insert 2 (some (ascii "worse")) (some ban) true), .elapse 60, .check, .load .plain (enabledRows twoWords)]

theorem added_word_followed : ∃ service after, reload .plain [banned] = some service ∧
    machine.run (start oneWord 20 service) wordAdded = some after ∧ Follows after ∧
      after.phase = .idle ∧ after.checked = enabledRows twoWords := by
  obtain ⟨service, _, loaded, _⟩ := reload_built .plain [banned]
  obtain ⟨later, _, again, _⟩ := reload_built .plain (enabledRows twoWords)
  have version : service.lastVersion = 10000 := by
    obtain ⟨_, _, rfl⟩ : ∃ next, _ ∧ _ = service := by
      simpa only [reload, Option.bind_eq_bind, Option.bind_eq_some_iff, Option.some.injEq] using loaded
    simp [Loading.add, WordRow.entry, WordRow.version, banned]
  have noticed : notices twoWords service = true := by
    rw [notices, version]
    decide
  let changed : State := { start oneWord 20 service with list := twoWords }
  let checked : State := { changed with second := 80, phase := .reloading, checked := enabledRows twoWords }
  have first : step (start oneWord 20 service) (.change (.insert 2 (some (ascii "worse")) (some ban) true)) =
      some changed := rfl
  have second : step changed (.elapse 60) = some { changed with second := 80 } := rfl
  have third : step { changed with second := 80 } .check = some checked := by
    simp [step, noticed, changed, checked, start]
  have fourth : step checked (.load .plain (enabledRows twoWords)) =
      some { checked with service := later, phase := .idle } := by
    simp [step, again, changed, checked]
  have met : machine.Meets Noticed (start oneWord 20 service) wordAdded := by
    refine .cons first trivial (.cons second trivial (.cons third (fun quiet => ?_)
      (.cons fourth (List.Perm.refl _) trivial)))
    cases noticed.symm.trans quiet
  have completed : machine.run (start oneWord 20 service) wordAdded =
      some { checked with service := later, phase := .idle } := by
    rw [wordAdded, Machine.run_cons_eq_some]
    refine ⟨_, first, Machine.run_cons_eq_some.mpr ⟨_, second, Machine.run_cons_eq_some.mpr ⟨_, third, ?_⟩⟩⟩
    exact Machine.run_cons_eq_some.mpr ⟨_, fourth, rfl⟩
  exact ⟨service, _, loaded, completed, ((follows_iff (List.Perm.of_eq rfl) loaded).mpr met).atEnd completed, rfl, rfl⟩

/-- The only word is deleted; the next tick finds no enabled row and leaves the
word in force. -/
theorem deleted_word_blocks : ∃ service after response,
    reload .plain [banned] = some service ∧
      machine.run (start oneWord 20 service) [.change (.delete 1), .elapse 60, .check] =
        some after ∧
      enabledRows after.list = [] ∧ ¬Follows after ∧
      checkText after.service (ascii "bad") = some response ∧ response.result = .block := by
  obtain ⟨service, _, loaded, current, result⟩ := reload_built .plain [banned]
  obtain ⟨response, checked, verdict, _⟩ := checkText_built current result (ascii "bad")
  refine ⟨service, _, response, loaded, rfl, rfl, ?_, checked, verdict.trans (by decide)⟩
  intro follows
  have none : ¬(listedWords []).Perm (listedWords [banned]) := by decide
  exact none ((builtFrom_iff (builtFrom_of_reload loaded)).mp (follows rfl))

end MuduoIm.Moderation.ContentModerationService
