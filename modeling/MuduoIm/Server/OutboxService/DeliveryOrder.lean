import MuduoIm.Server.OutboxService.Custody

namespace MuduoIm.Server.OutboxService

open MuduoIm.Transition

/-! # Delivery order within a key -/

variable {Payload : Type} {batchSize : Nat} {state next : State Unit Payload}
variable {entry other : Entry Payload} {executed queued ok : Bool} {context : Nat}

/-- `other` is a later row of the same key. -/
def Later (entry other : Entry Payload) : Prop :=
  other.msgKey = entry.msgKey ∧ entry.id < other.id

/-- At the first delivery of a row no later row of its key was delivered yet. -/
def InOrder (delivered : List (Entry Payload)) : Prop :=
  ∀ before entry after, delivered = before ++ entry :: after → entry ∉ before →
    ∀ other ∈ before, ¬ Later entry other

/-- The rows that the relay is busy with, in the order in which their reports
are due. -/
def Relay.hand (process : Relay Payload) : List (Entry Payload) :=
  process.outstanding ++ process.claimed ++ process.rows

/-- The row is still to be delivered, and the relay is busy with a later row of
its key or has delivered one. -/
def Overtaken (state : State Unit Payload) (entry : Entry Payload) : Prop :=
  entry ∉ state.delivered ∧ ∃ other ∈ (state.relays ()).hand ++ state.delivered, Later entry other

instance : Decidable (Later entry other) := by
  unfold Later
  infer_instance

instance [DecidableEq Payload] : Decidable (Overtaken state entry) := by
  unfold Overtaken
  infer_instance

/-- A row that becomes pending, again or for the first time, and a row whose
claim is skipped are not overtaken; a success is not reported before the report
on an earlier row of the key that was produced before. -/
def KeepsOrder (state : State Unit Payload) : Event Unit Payload → Prop
  | .commit row => ¬ Overtaken state row.toEntry
  | .start _ executed => executed = true → ∀ row ∈ state.outbox, row.Stuck state.now →
      ¬ Overtaken state row.toEntry
  | .claim _ executed => executed = false → ∀ entry ∈ (state.relays ()).rows.head?,
      ¬ Overtaken state entry
  | .produce _ queued executed => queued = false → executed = true →
      ∀ entry ∈ (state.relays ()).claimed.head?, ¬ Overtaken state entry
  | .callback _ context true _ => ∀ entry ∈ (state.relays ()).outstanding[context]?,
      ∀ other ∈ (state.relays ()).outstanding.take context,
        other ∉ state.delivered → ¬ Later other entry
  | .callback _ context false executed => executed = true →
      ∀ entry ∈ (state.relays ()).outstanding[context]?, ¬ Overtaken state entry
  | _ => True

/-! ## Lists -/

theorem inOrder_append {delivered : List (Entry Payload)} (inOrder : InOrder delivered)
    (first : entry ∉ delivered → ∀ other ∈ delivered, ¬ Later entry other) :
    InOrder (delivered ++ [entry]) := by
  intro before head after split fresh other member
  rcases List.eq_nil_or_concat after with rfl | ⟨rest, last, rfl⟩
  · obtain ⟨rfl, same⟩ := List.append_inj' split rfl
    cases same
    exact first fresh other member
  · rw [List.concat_eq_append, ← List.cons_append, ← List.append_assoc] at split
    obtain ⟨rfl, _⟩ := List.append_inj' split rfl
    exact inOrder before head rest rfl fresh other member

/-- A batch leaves out no pending row that precedes one of its rows. -/
theorem selectPending_earlier {outbox : List (Row Payload)} {row : Row Payload}
    (sorted : outbox.Pairwise (fun row other => row.id < other.id)) (member : row ∈ outbox)
    (pending : row.status = .pending) (selected : other ∈ selectPending outbox batchSize)
    (earlier : row.id < other.id) : row.toEntry ∈ selectPending outbox batchSize := by
  obtain ⟨second, taken, rfl⟩ := List.mem_map.mp selected
  have pendings := sorted.sublist (List.filter_sublist (p := fun row => row.status = .pending))
  have found : row ∈ outbox.filter (fun row => row.status = .pending) :=
    List.mem_filter.mpr ⟨member, by simpa using pending⟩
  rw [← List.take_append_drop batchSize (outbox.filter _)] at found pendings
  rcases List.mem_append.mp found with inBatch | left
  · exact List.mem_map.mpr ⟨row, inBatch, rfl⟩
  · have after := (List.pairwise_append.mp pendings).2.2 second taken row left
    exact absurd earlier (Nat.not_lt.mpr (Nat.le_of_lt after))

theorem sorted_orderedInsert {outbox : List (Row Payload)} {row : Row Payload}
    (sorted : outbox.Pairwise (fun row other => row.id < other.id))
    (fresh : ∀ other ∈ outbox, other.id ≠ row.id) :
    (outbox.orderedInsert (fun row other => row.id ≤ other.id) row).Pairwise
      (fun row other => row.id < other.id) := by
  induction outbox with
  | nil => simp
  | cons head rest ih =>
      obtain ⟨below, tail⟩ := List.pairwise_cons.mp sorted
      have apart := fresh head List.mem_cons_self
      rw [List.orderedInsert_cons]
      split
      · rename_i before
        refine List.pairwise_cons.mpr ⟨fun other member => ?_, sorted⟩
        rcases List.mem_cons.mp member with rfl | later
        · omega
        · have := below other later
          omega
      · rename_i before
        refine List.pairwise_cons.mpr ⟨fun other member => ?_,
          ih tail fun other later => fresh other (.tail _ later)⟩
        rcases List.mem_cons.mp ((List.perm_orderedInsert _ row rest).mem_iff.mp member) with rfl | later
        · omega
        · exact below other later

theorem sorted_of_entries {outbox changed : List (Row Payload)}
    (same : entries changed = entries outbox)
    (sorted : outbox.Pairwise (fun row other => row.id < other.id)) :
    changed.Pairwise (fun row other => row.id < other.id) := by
  have ordered : (entries changed).Pairwise (fun entry other => entry.id < other.id) := by
    rw [same]
    exact List.pairwise_map.mpr sorted
  simpa only [entries, List.pairwise_map] using ordered

/-! ## One step -/

/-- No row that waits to be selected is overtaken, and no row in hand comes
after a later row of its key, in hand or delivered. -/
structure Ordered (state : State Unit Payload) : Prop where
  custody : Custody state
  sorted : state.outbox.Pairwise (fun row other => row.id < other.id)
  waiting : ∀ row ∈ state.outbox, row.status = .pending → row.toEntry ∉ (state.relays ()).rows →
    ¬ Overtaken state row.toEntry
  queue : (state.relays ()).hand.Pairwise (fun other entry => entry ∉ state.delivered → ¬ Later entry other)
  ahead : ∀ entry ∈ (state.relays ()).hand, entry ∉ state.delivered →
    ∀ other ∈ state.delivered, ¬ Later entry other
  inOrder : InOrder state.delivered

theorem ordered_init : Ordered ({} : State Unit Payload) where
  custody := custody_init
  sorted := .nil
  waiting := nofun
  queue := .nil
  ahead := nofun
  inOrder := by
    intro before entry after split
    exact absurd split (by simp)

theorem Overtaken.of_subset (overtaken : Overtaken next entry)
    (kept : ∀ entry ∈ state.delivered, entry ∈ next.delivered)
    (known : ∀ other ∈ (next.relays ()).hand ++ next.delivered,
      other ∈ (state.relays ()).hand ++ state.delivered) : Overtaken state entry := by
  obtain ⟨undelivered, other, found, later⟩ := overtaken
  exact ⟨fun delivered => undelivered (kept entry delivered), other, known other found, later⟩

/-- The relay drops rows of its hand, and nothing is delivered. -/
theorem Ordered.of_sublist (ordered : Ordered state) (custody : Custody next)
    (sorted : next.outbox.Pairwise (fun row other => row.id < other.id))
    (shrinks : ((next.relays ()).hand).Sublist (state.relays ()).hand)
    (same : next.delivered = state.delivered)
    (waiting : ∀ row ∈ next.outbox, row.status = .pending → row.toEntry ∉ (next.relays ()).rows →
      ¬ Overtaken state row.toEntry) : Ordered next where
  custody := custody
  sorted := sorted
  waiting := fun row member pending unselected overtaken => by
    refine waiting row member pending unselected (overtaken.of_subset (by simp [same]) ?_)
    rw [same]
    exact (shrinks.append_right _).subset
  queue := by
    rw [same]
    exact ordered.queue.sublist shrinks
  ahead := by
    rw [same]
    exact fun entry held => ordered.ahead entry (shrinks.subset held)
  inOrder := by
    rw [same]
    exact ordered.inOrder

theorem Ordered.commit {row : Row Payload} (ordered : Ordered state)
    (keeps : KeepsOrder state (.commit row))
    (stepped : step batchSize state (.commit row) = some next) : Ordered next := by
  have custody := ordered.custody.single stepped
  obtain ⟨_, fresh, rfl⟩ := commit_eq_some stepped
  refine ordered.of_sublist custody (sorted_orderedInsert ordered.sorted fresh) (.refl _) rfl
    fun other member pending unselected => ?_
  rcases List.mem_cons.mp ((List.perm_orderedInsert _ row state.outbox).mem_iff.mp member)
    with rfl | earlier
  · exact keeps
  · exact ordered.waiting other earlier pending unselected

theorem Ordered.start (ordered : Ordered state) (keeps : KeepsOrder state (.start () executed))
    (stepped : step batchSize state (.start () executed) = some next) : Ordered next := by
  have custody := ordered.custody.single stepped
  obtain ⟨stopped, rfl⟩ := start_eq_some stepped
  have idle := ordered.custody.down () stopped
  have unselected (entry : Entry Payload) : entry ∉ (state.relays ()).rows := by simp [idle]
  refine ordered.of_sublist custody (sorted_of_entries entries_reclaimStuckSending ordered.sorted)
    (by simp [Relay.hand]) rfl fun row member pending _ => ?_
  simp only [reclaimStuckSending] at member
  split at member
  · rename_i reclaims
    obtain ⟨old, found, rfl⟩ := List.mem_map.mp member
    by_cases stuck : old.Stuck state.now
    · rw [if_pos stuck]
      exact keeps reclaims old found stuck
    · rw [if_neg stuck] at pending ⊢
      exact ordered.waiting old found pending (unselected _)
  · exact ordered.waiting row member pending (unselected _)

theorem Ordered.crash (ordered : Ordered state)
    (stepped : step batchSize state (.crash ()) = some next) : Ordered next := by
  have custody := ordered.custody.single stepped
  cases stepped
  exact {
    custody
    sorted := ordered.sorted
    waiting := fun row member pending _ overtaken => by
      obtain ⟨undelivered, other, found, later⟩ := overtaken
      simp only [setRelay_self, Relay.hand, List.append_nil, List.nil_append] at found
      by_cases selected : row.toEntry ∈ (state.relays ()).rows
      · have held : row.toEntry ∈ (state.relays ()).hand := List.mem_append_right _ selected
        exact ordered.ahead row.toEntry held undelivered other found later
      · exact ordered.waiting row member pending selected
          ⟨undelivered, other, List.mem_append_right _ found, later⟩
    queue := by simp [Relay.hand]
    ahead := by simp [Relay.hand]
    inOrder := ordered.inOrder }

theorem Ordered.select (ordered : Ordered state)
    (stepped : step batchSize state (.select () executed) = some next) : Ordered next := by
  have custody := ordered.custody.single stepped
  obtain ⟨_, noRows, noClaimed, rows, selected, rfl⟩ := select_eq_some stepped
  have waiting (row : Row Payload) (member : row ∈ state.outbox) (pending : row.status = .pending) :
      ¬ Overtaken state row.toEntry :=
    ordered.waiting row member pending (by simp [noRows])
  have hand : ((state.setRelay () { state.relays () with rows }).relays ()).hand =
      (state.relays ()).hand ++ rows := by
    simp [Relay.hand, noRows, noClaimed]
  have fetched (entry : Entry Payload) (member : entry ∈ rows) :
      ∃ row ∈ state.outbox, row.status = .pending ∧ row.toEntry = entry := by
    rcases selected with rfl | rfl
    · contradiction
    · exact mem_selectPending member
  have inIdOrder : rows.Pairwise (fun entry other => entry.id < other.id) := by
    rcases selected with rfl | rfl
    · exact .nil
    · have pendings := ordered.sorted.sublist
        ((List.take_sublist batchSize _).trans (List.filter_sublist (p := fun row => row.status = .pending)))
      simpa only [selectPending, List.pairwise_map] using pendings
  refine ⟨custody, ordered.sorted, fun row member pending unselected overtaken => ?_, ?_, ?_,
    ordered.inOrder⟩
  · obtain ⟨undelivered, other, found, later⟩ := overtaken
    rw [hand] at found
    rw [setRelay_self] at unselected
    rcases List.mem_append.mp found with busy | delivered
    · rcases List.mem_append.mp busy with held | batched
      · exact waiting row member pending ⟨undelivered, other, List.mem_append_left _ held, later⟩
      · rcases selected with rfl | rfl
        · contradiction
        · exact unselected (selectPending_earlier ordered.sorted member pending batched later.2)
    · exact waiting row member pending ⟨undelivered, other, List.mem_append_right _ delivered, later⟩
  · rw [hand]
    refine List.pairwise_append.mpr ⟨ordered.queue, ?_, fun other held entry batched undelivered later => ?_⟩
    · exact inIdOrder.imp fun below _ later => Nat.lt_asymm below later.2
    · obtain ⟨row, member, pending, rfl⟩ := fetched entry batched
      exact waiting row member pending ⟨undelivered, other, List.mem_append_left _ held, later⟩
  · rw [hand]
    intro entry busy undelivered other delivered later
    rcases List.mem_append.mp busy with held | batched
    · exact ordered.ahead entry held undelivered other delivered later
    · obtain ⟨row, member, pending, rfl⟩ := fetched entry batched
      exact waiting row member pending ⟨undelivered, other, List.mem_append_right _ delivered, later⟩

theorem Ordered.claim (ordered : Ordered state) (keeps : KeepsOrder state (.claim () executed))
    (stepped : step batchSize state (.claim () executed) = some next) : Ordered next := by
  have custody := ordered.custody.single stepped
  obtain ⟨entry, rest, rows, ⟨_, _, rfl⟩ | ⟨skipped, rfl⟩⟩ := claim_eq_some stepped
  · have sorted : (setStatus state.outbox entry.id .sending).Pairwise
        (fun row other => row.id < other.id) := sorted_of_entries entries_setStatus ordered.sorted
    refine ordered.of_sublist custody sorted (by simp [Relay.hand, rows]) rfl
      fun row member pending unselected => ?_
    simp only [setRelay_self] at unselected
    obtain ⟨old, found, sameEntry, ⟨_, now⟩ | ⟨apart, now⟩⟩ := mem_setStatus member
    · rw [now] at pending
      contradiction
    · rw [sameEntry] at unselected ⊢
      apply ordered.waiting old found (now ▸ pending)
      rw [rows]
      exact List.not_mem_cons_of_ne_of_not_mem (fun same => apart (congrArg Entry.id same)) unselected
  · refine ordered.of_sublist custody ordered.sorted (by simp [Relay.hand, rows]) rfl
      fun row member pending unselected => ?_
    simp only [setRelay_self] at unselected
    by_cases same : row.toEntry = entry
    · rw [same]
      refine keeps ?_ entry (by simp [rows])
      rw [not_and] at skipped
      refine Bool.eq_false_iff.mpr fun executed => skipped executed ?_
      exact ⟨row, member, congrArg Entry.id same, pending⟩
    · apply ordered.waiting row member pending
      rw [rows]
      exact List.not_mem_cons_of_ne_of_not_mem same unselected

theorem Ordered.waiting_report {row : Row Payload} (ordered : Ordered state)
    (known : entry ∈ state.committed) (keeps : ok = false → executed = true → ¬ Overtaken state entry)
    (member : row ∈ onDelivery state.outbox entry.id ok executed) (pending : row.status = .pending)
    (unselected : row.toEntry ∉ (state.relays ()).rows) : ¬ Overtaken state row.toEntry := by
  simp only [onDelivery] at member
  split at member
  · rename_i answered
    obtain ⟨old, found, sameEntry, ⟨named, now⟩ | ⟨_, now⟩⟩ := mem_setStatus member
    · cases ok with
      | true =>
          rw [now] at pending
          contradiction
      | false =>
          rw [sameEntry, ordered.custody.sound.mem_outbox_unique found known named]
          exact keeps rfl answered
    · rw [sameEntry] at unselected ⊢
      exact ordered.waiting old found (now ▸ pending) unselected
  · exact ordered.waiting row member pending unselected

theorem Ordered.produce (ordered : Ordered state)
    (keeps : KeepsOrder state (.produce () queued executed))
    (stepped : step batchSize state (.produce () queued executed) = some next) : Ordered next := by
  have custody := ordered.custody.single stepped
  obtain ⟨entry, rest, rows, claimed, ⟨_, rfl⟩ | ⟨refused, rfl⟩⟩ := produce_eq_some stepped
  · refine ordered.of_sublist custody ordered.sorted ?_ rfl ordered.waiting
    simp [Relay.hand, claimed]
  · have known : entry ∈ state.committed :=
      ordered.custody.sound.inFlight () entry (by simp [claimed])
    refine ordered.of_sublist custody (sorted_of_entries entries_onDelivery ordered.sorted) ?_ rfl
      fun row member pending unselected => ?_
    · simp [Relay.hand, claimed, rows]
    · refine ordered.waiting_report known (fun _ answered => ?_) member pending unselected
      exact keeps refused answered entry (by simp [claimed])

theorem Ordered.callback_failed (ordered : Ordered state)
    (keeps : KeepsOrder state (.callback () context false executed))
    (stepped : step batchSize state (.callback () context false executed) = some next) :
    Ordered next := by
  have custody := ordered.custody.single stepped
  obtain ⟨entry, before, later, outstanding, rfl, rfl⟩ := callback_eq_some stepped
  have known : entry ∈ state.committed :=
    ordered.custody.sound.inFlight () entry (by simp [outstanding])
  refine ordered.of_sublist custody (sorted_of_entries entries_onDelivery ordered.sorted) ?_ rfl
    fun row member pending unselected => ?_
  · simp [Relay.hand, outstanding]
  · refine ordered.waiting_report known (fun _ answered => ?_) member pending unselected
    exact keeps answered entry (by simp [outstanding])

theorem Ordered.callback_delivered (ordered : Ordered state)
    (keeps : KeepsOrder state (.callback () context true executed))
    (stepped : step batchSize state (.callback () context true executed) = some next) :
    Ordered next := by
  have custody := ordered.custody.single stepped
  obtain ⟨entry, before, later, outstanding, rfl, rfl⟩ := callback_eq_some stepped
  have known : entry ∈ state.committed :=
    ordered.custody.sound.inFlight () entry (by simp [outstanding])
  have split : (state.relays ()).hand =
      before ++ entry :: (later ++ (state.relays ()).claimed ++ (state.relays ()).rows) := by
    simp [Relay.hand, outstanding]
  have queue := ordered.queue
  rw [split, List.pairwise_append, List.pairwise_cons] at queue
  have mine : entry ∈ (state.relays ()).hand := by simp [split]
  have remaining : ((before ++ later) ++ (state.relays ()).claimed ++ (state.relays ()).rows).Sublist
      (state.relays ()).hand := by
    simp [split]
  have first (other : Entry Payload)
      (held : other ∈ (before ++ later) ++ (state.relays ()).claimed ++ (state.relays ()).rows)
      (undelivered : other ∉ state.delivered) : ¬ Later other entry := by
    rw [List.append_assoc, List.append_assoc, List.mem_append] at held
    rcases held with produced | behind
    · exact keeps entry (by simp [outstanding]) other (by simpa [outstanding] using produced) undelivered
    · exact queue.2.1.1 other (by simpa using behind) undelivered
  refine ⟨custody, sorted_of_entries entries_onDelivery ordered.sorted,
    fun row member pending unselected overtaken => ?_, ?_, fun other held undelivered => ?_, ?_⟩
  · refine ordered.waiting_report known ?_ member pending unselected (overtaken.of_subset ?_ ?_)
    · exact nofun
    · exact fun _ => List.mem_append_left _
    · intro other found
      simp only [setRelay_self, if_true, Relay.hand, List.mem_append, List.mem_singleton] at found
      simp only [split, List.mem_append, List.mem_cons]
      tauto
  · refine (ordered.queue.sublist remaining).imp fun ordered undelivered => ?_
    exact ordered fun delivered => undelivered (List.mem_append_left _ delivered)
  · intro last delivered
    have before : other ∉ state.delivered := fun delivered => undelivered (List.mem_append_left _ delivered)
    rcases List.mem_append.mp delivered with earlier | now
    · exact ordered.ahead other (remaining.subset held) before last earlier
    · rw [List.mem_singleton.mp now]
      exact first other held before
  · exact inOrder_append ordered.inOrder (ordered.ahead entry mine)

theorem Ordered.preserved {event : Event Unit Payload} (ordered : Ordered state)
    (keeps : KeepsOrder state event) (stepped : step batchSize state event = some next) :
    Ordered next := by
  cases event with
  | commit row => exact ordered.commit keeps stepped
  | tick elapsed =>
      have custody := ordered.custody.single stepped
      cases stepped
      exact ordered.of_sublist custody ordered.sorted (.refl _) rfl ordered.waiting
  | start relay executed => exact ordered.start keeps stepped
  | select relay executed => exact ordered.select stepped
  | claim relay executed => exact ordered.claim keeps stepped
  | produce relay queued executed => exact ordered.produce keeps stepped
  | callback relay context ok executed =>
      cases ok with
      | true => exact ordered.callback_delivered keeps stepped
      | false => exact ordered.callback_failed keeps stepped
  | crash relay => exact ordered.crash stepped

/-! ## Runs -/

/-- In every run of a single relay whose steps keep the order, the rows of each
key are first delivered in the order of their ids. -/
theorem delivery_in_order {events : List (Event Unit Payload)}
    (met : (machine Unit Payload batchSize).Meets KeepsOrder {} events) :
    (machine Unit Payload batchSize).Always (fun state => InOrder state.delivered) {} events :=
  (Machine.always_of_meets Ordered ordered_init
    (fun _ _ _ ordered keeps stepped => ordered.preserved keeps stepped) met).mono
      fun _ ordered => ordered.inOrder

private def talkRow (id : Nat) : Row String :=
  { id, topic := "im.messages", msgKey := "1:2", payload := "hello", createdAt := 0 }

/-- The second row of the key fails and is retried after the first went through. -/
private def lastRowRetried : List (Event Unit String) :=
  [.start () true, .commit (talkRow 1), .commit (talkRow 2), .select () true, .claim () true,
    .claim () true, .produce () true true, .produce () true true, .callback () 0 true true,
    .callback () 0 false true, .select () true, .claim () true, .produce () true true,
    .callback () 0 true true]

theorem last_row_retried_in_order :
    ∃ state, (machine Unit String 100).run {} lastRowRetried = some state ∧
      state.delivered = [(talkRow 1).toEntry, (talkRow 2).toEntry] ∧ InOrder state.delivered := by
  have met : (machine Unit String 100).Meets KeepsOrder {} lastRowRetried :=
    .cons rfl (fun _ _ member => absurd member List.not_mem_nil) <|
    .cons rfl (show ¬ Overtaken _ _ by decide) <| .cons rfl (show ¬ Overtaken _ _ by decide) <|
    .cons rfl trivial <| .cons rfl nofun <| .cons rfl nofun <|
    .cons rfl nofun <| .cons rfl nofun <|
    .cons rfl (fun _ _ _ member => absurd member List.not_mem_nil) <|
    .cons rfl (fun _ => show ∀ entry ∈ _, ¬ Overtaken _ entry by decide) <|
    .cons rfl trivial <| .cons rfl nofun <| .cons rfl nofun <|
    .cons rfl (fun _ _ _ member => absurd member List.not_mem_nil) trivial
  exact ⟨_, rfl, rfl, (delivery_in_order met).atEnd rfl⟩

/-! ## A failed first row -/

/-- Two rows of one key are in flight; the first fails and is retried after the
second went through. -/
private def firstRowRetried : List (Event Unit String) :=
  [.start () true, .commit (talkRow 1), .commit (talkRow 2), .select () true, .claim () true,
    .claim () true, .produce () true true, .produce () true true, .callback () 0 false true,
    .callback () 0 true true, .select () true, .claim () true, .produce () true true,
    .callback () 0 true true]

theorem first_row_retried_out_of_order :
    ∃ state, (machine Unit String 100).run {} firstRowRetried = some state ∧
      state.delivered = [(talkRow 2).toEntry, (talkRow 1).toEntry] ∧ ¬ InOrder state.delivered := by
  refine ⟨_, rfl, rfl, fun inOrder => ?_⟩
  exact inOrder [(talkRow 2).toEntry] (talkRow 1).toEntry [] rfl (by decide) (talkRow 2).toEntry
    (.head _) (by decide)

end MuduoIm.Server.OutboxService
