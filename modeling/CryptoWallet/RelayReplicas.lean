import CryptoWallet.Events
import CryptoWallet.Transaction
import Mathlib.Data.List.Nodup

/-!
# Replicas of the outbox relay

A replica locks the rows of its batch, offers them to the bus one after another, and
marks them when it commits.  What the bus has accepted stays accepted, also when the
transaction is rolled back; the row is then offered again.
-/

namespace CryptoWallet

/-- What became of an envelope; what raised may have arrived all the same. -/
inductive BusAnswer where
  | accepted
  | raised (error : String) (arrived : Bool)
  deriving DecidableEq

namespace BusAnswer

def error? : BusAnswer → Option String
  | accepted => none
  | raised error _ => some error

def arrived : BusAnswer → Bool
  | accepted => true
  | raised _ arrived => arrived

/-- The error fits the column `last_error`. -/
def storable : BusAnswer → Bool
  | accepted => true
  | raised error _ => recordable error

theorem storable_iff {answer : BusAnswer} : answer.storable = true ↔
    ∀ error, answer.error? = some error → recordable error = true := by
  cases answer with
  | accepted => simp [storable, error?]
  | raised error arrived => simp [storable, error?]

end BusAnswer

/-- The transaction of a replica: its locked rows, and the answers to the first of them.
`sentBefore` is how much had arrived when it began. -/
structure RelayTx where
  replica : Nat
  now : Nat
  rows : List OutboxRow
  answers : List BusAnswer
  sentBefore : Nat

/-- The committed outbox, the transactions underway, and what has arrived at the bus. -/
structure RelayWorld where
  outbox : Outbox
  underway : Table Nat RelayTx RelayTx.replica
  sent : List Envelope

inductive RelayStep where
  | enqueue (envelope : Envelope)
  | claim (replica now : Nat)
  | publish (replica : Nat) (answer : BusAnswer)
  | commit (replica : Nat)
  | crash (replica : Nat)

def RelayStep.replica? : RelayStep → Option Nat
  | .enqueue _ => none
  | .claim replica _ | .publish replica _ | .commit replica | .crash replica => some replica

/-- The step is no failure of the bus with an error that the column cannot take. -/
def RelayStep.recordable : RelayStep → Bool
  | .publish _ answer => answer.storable
  | _ => true

namespace RelayWorld

def start : RelayWorld := ⟨.empty, .empty, []⟩

def locked (w : RelayWorld) : List EventId :=
  w.underway.rows.flatMap fun tx => tx.rows.map OutboxRow.eventId

/-- `FOR UPDATE SKIP LOCKED LIMIT :limit`. -/
def freeRows (settings : RelaySettings) (now : Nat) (w : RelayWorld) : List OutboxRow :=
  (w.outbox.select fun row => row.due now && !w.locked.contains row.eventId).take
    settings.batchSize

/-- The rollback, and the end of every transaction: its locks are gone. -/
def ended (replica : Nat) (w : RelayWorld) : RelayWorld :=
  { w with
    underway := w.underway.filterMapRows
      (fun tx => if tx.replica = replica then none else some tx) (by
        intro tx tx' h
        split at h
        · cases h
        · cases h
          rfl) }

end RelayWorld

/-- The answer to a row of the batch. -/
def RelayTx.answerTo (tx : RelayTx) (row : OutboxRow) : Option BusAnswer :=
  ((tx.rows.zip tx.answers).find? fun pair => pair.1.eventId = row.eventId).map Prod.snd

/-- The two UPDATE statements. -/
def RelayTx.marked (settings : RelaySettings) (tx : RelayTx) (outbox : Outbox) : Outbox :=
  outbox.mapRows
    (fun row =>
      match tx.answerTo row with
      | some answer => row.attempted settings tx.now answer.error?
      | none => row)
    (by
      intro row
      split
      · unfold OutboxRow.eventId
        rw [OutboxRow.attempted_envelope]
      · rfl)

namespace RelayWorld

def step (settings : RelaySettings) (s : RelayStep) (w : RelayWorld) : RelayWorld :=
  match s with
  | .enqueue envelope =>
    match enqueueEvent w.outbox envelope with
    | .ok outbox => { w with outbox }
    | .error _ => w
  | .claim replica now =>
    match w.underway.insert? ⟨replica, now, w.freeRows settings now, [], w.sent.length⟩ with
    | some underway => { w with underway }
    | none => w
  | .publish replica answer =>
    match w.underway.find? replica with
    | none => w
    | some tx =>
      match tx.rows[tx.answers.length]? with
      | none => w
      | some row =>
        let sent := if answer.arrived then w.sent ++ [row.envelope] else w.sent
        if answer.storable then
          { w with
            underway := w.underway.replace { tx with answers := tx.answers ++ [answer] }
            sent }
        -- the UPDATE with the error raises
        else ended replica { w with sent }
  | .commit replica =>
    match w.underway.find? replica with
    | none => w
    | some tx =>
      if tx.answers.length = tx.rows.length then
        ended replica { w with outbox := tx.marked settings w.outbox }
      else w
  | .crash replica => w.ended replica

end RelayWorld

/-! ## The answers of a batch -/

theorem zip_fst_sublist {α β : Type} (xs : List α) (ys : List β) :
    ((xs.zip ys).map Prod.fst).Sublist xs := by
  induction xs generalizing ys with
  | nil => simp
  | cons x xs ih =>
      cases ys with
      | nil => simp
      | cons y ys => exact (ih ys).cons_cons x

section Answers

variable {tx : RelayTx} {row : OutboxRow} {answer : BusAnswer}

theorem RelayTx.answerTo_of_mem (honce : (tx.rows.map OutboxRow.eventId).Nodup)
    (hpair : (row, answer) ∈ tx.rows.zip tx.answers) : tx.answerTo row = some answer := by
  unfold RelayTx.answerTo
  cases hfind : (tx.rows.zip tx.answers).find? fun pair => pair.1.eventId = row.eventId with
  | none =>
      have hnot := List.find?_eq_none.mp hfind _ hpair
      simp at hnot
  | some pair =>
      have hmem := List.mem_of_find?_eq_some hfind
      have hkey : pair.1.eventId = row.eventId := by simpa using List.find?_some hfind
      have hkeys : ((tx.rows.zip tx.answers).map fun pair => pair.1.eventId).Nodup := by
        have hsub := List.Nodup.sublist
          ((zip_fst_sublist tx.rows tx.answers).map OutboxRow.eventId) honce
        rwa [List.map_map] at hsub
      have hsame := List.inj_on_of_nodup_map hkeys hmem hpair hkey
      rw [hsame]
      rfl

theorem RelayTx.answerTo_of_other (hother : ∀ locked ∈ tx.rows, locked.eventId ≠ row.eventId) :
    tx.answerTo row = none := by
  unfold RelayTx.answerTo
  rw [Option.map_eq_none_iff, List.find?_eq_none]
  intro pair hpair
  have hmem := (List.of_mem_zip hpair).1
  simpa using hother pair.1 hmem

theorem RelayTx.marked_find? (settings : RelaySettings) (tx : RelayTx) (outbox : Outbox)
    (id : EventId) :
    (tx.marked settings outbox).find? id = (outbox.find? id).map fun row =>
      match tx.answerTo row with
      | some answer => row.attempted settings tx.now answer.error?
      | none => row := by
  unfold RelayTx.marked
  exact Table.find?_mapRows _ _ _ id

end Answers

theorem enqueueEvent_find? {outbox outbox' : Outbox} {envelope : Envelope}
    (henqueue : enqueueEvent outbox envelope = .ok outbox') {id : EventId} {row : OutboxRow}
    (hfind : outbox.find? id = some row) : outbox'.find? id = some row := by
  unfold enqueueEvent at henqueue
  simp only [bind_eq_ok] at henqueue
  obtain ⟨_, _, _, _, hok⟩ := henqueue
  cases hok
  cases hinsert : outbox.insert? ⟨envelope, none, 0, none, none⟩ with
  | none => exact hfind
  | some outbox' =>
      rw [Option.getD_some, Table.find?_insert? hinsert]
      split
      next hkey =>
        rw [hkey, Table.insert?_free hinsert] at hfind
        cases hfind
      next => exact hfind

/-! ## Locks -/

namespace RelayWorld

/-- Locked rows are unpublished and belong to one transaction, and what a transaction was
told to be accepted has arrived since it began. -/
structure Inv (w : RelayWorld) : Prop where
  unpublished : ∀ tx ∈ w.underway.rows, ∀ row ∈ tx.rows,
    w.outbox.find? row.eventId = some row ∧ row.publishedAt = none
  once : ∀ tx ∈ w.underway.rows, (tx.rows.map OutboxRow.eventId).Nodup
  apart : ∀ tx ∈ w.underway.rows, ∀ tx' ∈ w.underway.rows, tx.replica ≠ tx'.replica →
    ∀ row ∈ tx.rows, ∀ row' ∈ tx'.rows, row.eventId ≠ row'.eventId
  answered : ∀ tx ∈ w.underway.rows, tx.answers.length ≤ tx.rows.length
  before : ∀ tx ∈ w.underway.rows, tx.sentBefore ≤ w.sent.length
  arrived : ∀ tx ∈ w.underway.rows, ∀ row, (row, .accepted) ∈ tx.rows.zip tx.answers →
    row.envelope ∈ w.sent.drop tx.sentBefore

theorem mem_ended {replica : Nat} {w : RelayWorld} {tx : RelayTx} :
    tx ∈ (w.ended replica).underway.rows ↔ tx ∈ w.underway.rows ∧ tx.replica ≠ replica := by
  have hrows : (w.ended replica).underway.rows = w.underway.rows.filterMap fun tx =>
      if tx.replica = replica then none else some tx := rfl
  rw [hrows, List.mem_filterMap]
  constructor
  · rintro ⟨old, hold, hkept⟩
    split at hkept
    · cases hkept
    next hne =>
      cases hkept
      exact ⟨hold, hne⟩
  · rintro ⟨hold, hne⟩
    exact ⟨tx, hold, if_neg hne⟩

theorem Inv.start : start.Inv := by
  constructor <;> simp [RelayWorld.start]

theorem sent_later {sent sent' : List Envelope} (h : sent <+: sent') {n : Nat}
    (hn : n ≤ sent.length) {envelope : Envelope} (hin : envelope ∈ sent.drop n) :
    envelope ∈ sent'.drop n := by
  obtain ⟨later, rfl⟩ := h
  rw [List.drop_append_of_le_length hn]
  exact List.mem_append_left later hin

/-- The invariant speaks of the transactions underway only. -/
theorem Inv.of_underway {w w' : RelayWorld} (h : w.Inv)
    (hunderway : ∀ tx ∈ w'.underway.rows, tx ∈ w.underway.rows)
    (hrows : ∀ tx ∈ w'.underway.rows, ∀ row ∈ tx.rows,
      w'.outbox.find? row.eventId = w.outbox.find? row.eventId)
    (hsent : w.sent <+: w'.sent) : w'.Inv where
  unpublished := by
    intro tx htx row hrow
    rw [hrows tx htx row hrow]
    exact h.unpublished tx (hunderway tx htx) row hrow
  once tx htx := h.once tx (hunderway tx htx)
  apart tx htx tx' htx' := h.apart tx (hunderway tx htx) tx' (hunderway tx' htx')
  answered tx htx := h.answered tx (hunderway tx htx)
  before tx htx := (h.before tx (hunderway tx htx)).trans hsent.length_le
  arrived := by
    intro tx htx row hpair
    have hold := hunderway tx htx
    exact sent_later hsent (h.before tx hold) (h.arrived tx hold row hpair)

theorem Inv.enqueued {w : RelayWorld} (h : w.Inv) {envelope : Envelope} {outbox : Outbox}
    (henqueue : enqueueEvent w.outbox envelope = .ok outbox) :
    ({ w with outbox } : RelayWorld).Inv := by
  have hrows : ∀ tx ∈ w.underway.rows, ∀ row ∈ tx.rows,
      outbox.find? row.eventId = w.outbox.find? row.eventId := by
    intro tx htx row hrow
    have hfind := (h.unpublished tx htx row hrow).1
    rw [hfind]
    exact enqueueEvent_find? henqueue hfind
  exact h.of_underway (fun _ htx => htx) hrows List.prefix_rfl

theorem mem_freeRows {settings : RelaySettings} {now : Nat} {w : RelayWorld}
    {row : OutboxRow} (h : row ∈ w.freeRows settings now) :
    row ∈ w.outbox.rows ∧ row.publishedAt = none ∧ row.eventId ∉ w.locked := by
  obtain ⟨hmem, hfree⟩ := List.mem_filter.mp (List.mem_of_mem_take h)
  simp only [OutboxRow.due, Bool.and_eq_true, Bool.not_eq_true', Option.isNone_iff_eq_none,
    List.contains_eq_mem, decide_eq_false_iff_not] at hfree
  exact ⟨hmem, hfree.1.1, hfree.2⟩

theorem Inv.claimed {settings : RelaySettings} {w : RelayWorld} (h : w.Inv)
    {replica now : Nat} {underway : Table Nat RelayTx RelayTx.replica}
    (hinsert : w.underway.insert?
      ⟨replica, now, w.freeRows settings now, [], w.sent.length⟩ = some underway) :
    ({ w with underway } : RelayWorld).Inv := by
  have hmem : ∀ tx, tx ∈ underway.rows ↔ tx ∈ w.underway.rows ∨
      tx = ⟨replica, now, w.freeRows settings now, [], w.sent.length⟩ := by
    intro tx
    exact Table.mem_insert? hinsert
  have hapart : ∀ tx ∈ w.underway.rows, ∀ row ∈ tx.rows,
      ∀ row' ∈ w.freeRows settings now, row.eventId ≠ row'.eventId := by
    intro tx htx row hrow row' hrow' hsame
    apply (mem_freeRows hrow').2.2
    rw [← hsame]
    exact List.mem_flatMap.mpr ⟨tx, htx, List.mem_map_of_mem hrow⟩
  constructor
  · intro tx htx row hrow
    rcases (hmem tx).mp htx with hold | rfl
    · exact h.unpublished tx hold row hrow
    · obtain ⟨hin, hnone, _⟩ := mem_freeRows hrow
      exact ⟨w.outbox.find?_of_mem hin, hnone⟩
  · intro tx htx
    rcases (hmem tx).mp htx with hold | rfl
    · exact h.once tx hold
    · exact w.outbox.nodup.sublist
        (((List.take_sublist _ _).trans List.filter_sublist).map OutboxRow.eventId)
  · intro tx htx tx' htx' hne row hrow row' hrow'
    rcases (hmem tx).mp htx with hold | rfl
    · rcases (hmem tx').mp htx' with hold' | rfl
      · exact h.apart tx hold tx' hold' hne row hrow row' hrow'
      · exact hapart tx hold row hrow row' hrow'
    · rcases (hmem tx').mp htx' with hold' | rfl
      · exact (hapart tx' hold' row' hrow' row hrow).symm
      · exact (hne rfl).elim
  · intro tx htx
    rcases (hmem tx).mp htx with hold | rfl
    · exact h.answered tx hold
    · exact Nat.zero_le _
  · intro tx htx
    rcases (hmem tx).mp htx with hold | rfl
    · exact h.before tx hold
    · exact Nat.le_refl _
  · intro tx htx row hpair
    rcases (hmem tx).mp htx with hold | rfl
    · exact h.arrived tx hold row hpair
    · simp at hpair

/-- The next answer to a transaction which is underway. -/
theorem Inv.told {w : RelayWorld} (h : w.Inv) {tx : RelayTx}
    (htx : w.underway.find? tx.replica = some tx) {row : OutboxRow}
    (hrow : tx.rows[tx.answers.length]? = some row) {answer : BusAnswer} :
    ({ w with
      underway := w.underway.replace { tx with answers := tx.answers ++ [answer] }
      sent := if answer.arrived then w.sent ++ [row.envelope] else w.sent } :
        RelayWorld).Inv := by
  have hin := Table.mem_of_find? htx
  have hfind : w.underway.find?
      ({ tx with answers := tx.answers ++ [answer] } : RelayTx).replica = some tx := htx
  have hmem : ∀ other, other ∈ (w.underway.replace
      { tx with answers := tx.answers ++ [answer] }).rows ↔
        other = { tx with answers := tx.answers ++ [answer] } ∨
          (other ∈ w.underway.rows ∧ other.replica ≠ tx.replica) :=
    fun other => Table.mem_replace _ hfind
  have hsent : w.sent <+: if answer.arrived then w.sent ++ [row.envelope] else w.sent := by
    split
    · exact List.prefix_append _ _
    · exact List.prefix_rfl
  obtain ⟨hindex, hget⟩ := List.getElem?_eq_some_iff.mp hrow
  have hbefore := h.before tx hin
  constructor
  · intro other hother locked hlocked
    rcases (hmem other).mp hother with rfl | ⟨hold, _⟩
    · exact h.unpublished tx hin locked hlocked
    · exact h.unpublished other hold locked hlocked
  · intro other hother
    rcases (hmem other).mp hother with rfl | ⟨hold, _⟩
    · exact h.once tx hin
    · exact h.once other hold
  · intro other hother other' hother' hne
    rcases (hmem other).mp hother with rfl | ⟨hold, _⟩
    · rcases (hmem other').mp hother' with rfl | ⟨hold', _⟩
      · exact (hne rfl).elim
      · exact h.apart tx hin other' hold' hne
    · rcases (hmem other').mp hother' with rfl | ⟨hold', _⟩
      · exact h.apart other hold tx hin hne
      · exact h.apart other hold other' hold' hne
  · intro other hother
    rcases (hmem other).mp hother with rfl | ⟨hold, _⟩
    · dsimp only
      rw [List.length_append, List.length_singleton]
      omega
    · exact h.answered other hold
  · intro other hother
    rcases (hmem other).mp hother with rfl | ⟨hold, _⟩
    · exact hbefore.trans hsent.length_le
    · exact (h.before other hold).trans hsent.length_le
  · intro other hother locked hpair
    rcases (hmem other).mp hother with rfl | ⟨hold, _⟩
    · -- the pair is an old one, or this row with this answer
      have hsplit : tx.rows = tx.rows.take tx.answers.length ++
          tx.rows.drop tx.answers.length := (List.take_append_drop _ _).symm
      have hlength : (tx.rows.take tx.answers.length).length = tx.answers.length := by
        rw [List.length_take]
        omega
      dsimp only at hpair ⊢
      rw [hsplit, List.zip_append hlength, List.drop_eq_getElem_cons hindex, hget] at hpair
      rcases List.mem_append.mp hpair with hold | hnew
      · apply sent_later hsent hbefore
        apply h.arrived tx hin locked
        rw [hsplit]
        have hzip : (tx.rows.take tx.answers.length ++
            tx.rows.drop tx.answers.length).zip (tx.answers ++ []) =
              (tx.rows.take tx.answers.length).zip tx.answers ++
                (tx.rows.drop tx.answers.length).zip [] := List.zip_append hlength
        rw [List.append_nil] at hzip
        rw [hzip]
        exact List.mem_append_left _ hold
      · simp only [List.zip_cons_cons, List.zip_nil_right, List.mem_singleton,
          Prod.mk.injEq] at hnew
        obtain ⟨rfl, rfl⟩ := hnew
        have harrived : BusAnswer.accepted.arrived = true := rfl
        rw [if_pos harrived, List.drop_append_of_le_length hbefore]
        exact List.mem_append_right _ (List.mem_singleton_self _)
    · exact sent_later hsent (h.before other hold) (h.arrived other hold locked hpair)

theorem Inv.ended {w : RelayWorld} (h : w.Inv) (replica : Nat) : (w.ended replica).Inv :=
  h.of_underway (fun _ htx => (mem_ended.mp htx).1) (fun _ _ _ _ => rfl) List.prefix_rfl

/-- The rows of the other transactions are not marked. -/
theorem Inv.committed {settings : RelaySettings} {w : RelayWorld} (h : w.Inv) {tx : RelayTx}
    (htx : w.underway.find? tx.replica = some tx) :
    (RelayWorld.ended tx.replica
      { w with outbox := tx.marked settings w.outbox }).Inv := by
  have hin := Table.mem_of_find? htx
  refine h.of_underway (fun _ hother => (mem_ended.mp hother).1) ?_ List.prefix_rfl
  intro other hother row hrow
  obtain ⟨hold, hne⟩ := mem_ended.mp hother
  have hfind := (h.unpublished other hold row hrow).1
  have hnone : tx.answerTo row = none := by
    apply RelayTx.answerTo_of_other
    intro locked hlocked
    exact h.apart tx hin other hold (Ne.symm hne) locked hlocked row hrow
  have hmarked := tx.marked_find? settings w.outbox row.eventId
  rw [hfind, Option.map_some, hnone] at hmarked
  rw [hfind]
  exact hmarked

theorem Inv.step {settings : RelaySettings} {w : RelayWorld} (h : w.Inv) (s : RelayStep) :
    (step settings s w).Inv := by
  cases s with
  | enqueue envelope =>
      dsimp only [RelayWorld.step]
      split
      next outbox henqueue => exact h.enqueued henqueue
      next => exact h
  | claim replica now =>
      dsimp only [RelayWorld.step]
      split
      next underway hinsert => exact h.claimed hinsert
      next => exact h
  | publish replica answer =>
      dsimp only [RelayWorld.step]
      split
      next => exact h
      next tx htx =>
        have hkey := Table.key_of_find? htx
        subst hkey
        split
        next => exact h
        next row hrow =>
          split
          · exact h.told htx hrow
          · have hsent : w.sent <+:
                if answer.arrived then w.sent ++ [row.envelope] else w.sent := by
              split
              · exact List.prefix_append _ _
              · exact List.prefix_rfl
            exact h.of_underway (fun _ hother => (mem_ended.mp hother).1)
              (fun _ _ _ _ => rfl) hsent
  | commit replica =>
      dsimp only [RelayWorld.step]
      split
      next => exact h
      next tx htx =>
        have hkey := Table.key_of_find? htx
        subst hkey
        split
        · exact h.committed htx
        · exact h
  | crash replica => exact h.ended replica

/-! ## What the steps do -/

/-- The row after the commit of the batch. -/
def Marked (settings : RelaySettings) (now : Nat) (row : OutboxRow) (answer : BusAnswer)
    (row' : OutboxRow) : Prop :=
  match answer with
  | .accepted => row'.publishedAt = some now
  | .raised _ _ => row'.publishedAt = none ∧ row'.attempts = row.attempts + 1 ∧
      row'.nextAttemptAt = some (now + min settings.maxBackoff (2 ^ min row.attempts 6))

theorem step_commit_outbox (settings : RelaySettings) {w : RelayWorld} {replica : Nat}
    {tx : RelayTx} (htx : w.underway.find? replica = some tx)
    (hall : tx.answers.length = tx.rows.length) :
    (step settings (.commit replica) w).outbox = tx.marked settings w.outbox := by
  simp only [step, htx, hall, if_true]
  rfl

theorem Inv.commit_marks {settings : RelaySettings} {w : RelayWorld} (h : w.Inv)
    {replica : Nat} {tx : RelayTx} (htx : w.underway.find? replica = some tx)
    (hall : tx.answers.length = tx.rows.length) {row : OutboxRow} {answer : BusAnswer}
    (hpair : (row, answer) ∈ tx.rows.zip tx.answers) :
    ∃ row', (RelayWorld.step settings (.commit replica) w).outbox.find? row.eventId =
      some row' ∧ Marked settings tx.now row answer row' := by
  have hin := Table.mem_of_find? htx
  obtain ⟨hfind, hnone⟩ := h.unpublished tx hin row (List.of_mem_zip hpair).1
  have hanswer := RelayTx.answerTo_of_mem (h.once tx hin) hpair
  have hmarked := tx.marked_find? settings w.outbox row.eventId
  rw [hfind, Option.map_some, hanswer] at hmarked
  have hstep := step_commit_outbox settings htx hall
  refine ⟨row.attempted settings tx.now answer.error?, by rw [hstep]; exact hmarked, ?_⟩
  cases answer with
  | accepted => exact rfl
  | raised error arrived => exact ⟨hnone, rfl, rfl⟩

/-- Only a commit marks, and what it marks has been accepted since it began. -/
theorem Inv.published_by_commit {settings : RelaySettings} {w : RelayWorld} (h : w.Inv)
    {s : RelayStep} {row row' : OutboxRow} (hrow : w.outbox.find? row.eventId = some row)
    (hnone : row.publishedAt = none)
    (hrow' : (RelayWorld.step settings s w).outbox.find? row.eventId = some row')
    (hpublished : row'.publishedAt ≠ none) :
    ∃ replica tx, s = .commit replica ∧ w.underway.find? replica = some tx ∧
      (row, .accepted) ∈ tx.rows.zip tx.answers ∧
      row.envelope ∈ w.sent.drop tx.sentBefore := by
  have hsame : ∀ outbox : Outbox, outbox.find? row.eventId = some row →
      (RelayWorld.step settings s w).outbox = outbox → False := by
    intro outbox hfind houtbox
    rw [houtbox, hfind, Option.some.injEq] at hrow'
    rw [← hrow'] at hpublished
    exact hpublished hnone
  cases s with
  | enqueue envelope =>
      have hstep : (RelayWorld.step settings (.enqueue envelope) w).outbox.find? row.eventId =
          some row := by
        dsimp only [RelayWorld.step]
        split
        next outbox henqueue => exact enqueueEvent_find? henqueue hrow
        next => exact hrow
      exact (hsame _ hstep rfl).elim
  | claim replica now =>
      apply (hsame w.outbox hrow _).elim
      dsimp only [RelayWorld.step]
      split <;> rfl
  | publish replica answer =>
      apply (hsame w.outbox hrow _).elim
      dsimp only [RelayWorld.step]
      split
      · rfl
      · split
        · rfl
        · split <;> rfl
  | crash replica => exact (hsame w.outbox hrow rfl).elim
  | commit replica =>
      cases htx : w.underway.find? replica with
      | none =>
          apply (hsame w.outbox hrow _).elim
          simp only [RelayWorld.step, htx]
      | some tx =>
          by_cases hall : tx.answers.length = tx.rows.length
          · have hmarked := tx.marked_find? settings w.outbox row.eventId
            have hstep := step_commit_outbox settings htx hall
            cases hanswer : tx.answerTo row with
            | none =>
                rw [hrow, Option.map_some, hanswer] at hmarked
                exact (hsame _ hmarked hstep).elim
            | some answer =>
                -- the answered row is the locked one
                obtain ⟨pair, hpair, hsnd⟩ := Option.map_eq_some_iff.mp hanswer
                have hkey : pair.1.eventId = row.eventId := by
                  simpa using List.find?_some hpair
                have hmem := List.mem_of_find?_eq_some hpair
                have hin := Table.mem_of_find? htx
                have hlocked := (h.unpublished tx hin pair.1 (List.of_mem_zip hmem).1).1
                rw [hkey, hrow, Option.some.injEq] at hlocked
                have hpairEq : pair = (row, answer) := Prod.ext hlocked.symm hsnd
                rw [hpairEq] at hmem
                cases answer with
                | accepted =>
                    exact ⟨replica, tx, rfl, htx, hmem, h.arrived tx hin row hmem⟩
                | raised error arrived =>
                    obtain ⟨marked, hfound, hfailed⟩ :=
                      h.commit_marks htx hall hmem
                    rw [hrow', Option.some.injEq] at hfound
                    rw [hfound] at hpublished
                    exact (hpublished hfailed.1).elim
          · apply (hsame w.outbox hrow _).elim
            simp only [RelayWorld.step, htx, hall, if_false]

/-! ## Whole batches -/

/-- The other replicas leave a transaction alone. -/
theorem step_underway_other {settings : RelaySettings} {w : RelayWorld} {s : RelayStep}
    {replica : Nat} (hother : s.replica? ≠ some replica) {tx : RelayTx}
    (htx : w.underway.find? replica = some tx) :
    (step settings s w).underway.find? replica = some tx := by
  have hended : ∀ (w : RelayWorld) (other : Nat), other ≠ replica →
      w.underway.find? replica = some tx →
        (w.ended other).underway.find? replica = some tx := by
    intro w other hne hfind
    have hkey := Table.key_of_find? hfind
    subst hkey
    apply Table.find?_of_mem
    exact mem_ended.mpr ⟨Table.mem_of_find? hfind, Ne.symm hne⟩
  have hne : ∀ other, s.replica? = some other → other ≠ replica := by
    rintro other hsome rfl
    exact hother hsome
  cases s with
  | enqueue envelope =>
      dsimp only [step]
      split <;> exact htx
  | claim other now =>
      dsimp only [step]
      split
      next underway hinsert =>
        have hfind : underway.find? replica = w.underway.find? replica := by
          rw [Table.find?_insert? hinsert, if_neg]
          exact Ne.symm (hne other rfl)
        exact hfind.trans htx
      next => exact htx
  | publish other answer =>
      dsimp only [step]
      split
      next => exact htx
      next found hfound =>
        have hkey := Table.key_of_find? hfound
        split
        next => exact htx
        next row hrow =>
          split
          · dsimp only
            rw [Table.find?_replace_of_ne]
            · exact htx
            · dsimp only
              rw [hkey]
              exact Ne.symm (hne other rfl)
          · exact hended _ other (hne other rfl) htx
  | commit other =>
      dsimp only [step]
      split
      next => exact htx
      next found hfound =>
        split
        · exact hended _ other (hne other rfl) htx
        · exact htx
  | crash other => exact hended w other (hne other rfl) htx

/-- An answer which can be recorded does not end the transaction. -/
theorem step_publish (settings : RelaySettings) {w : RelayWorld} {replica : Nat}
    {tx : RelayTx} (htx : w.underway.find? replica = some tx) (answer : BusAnswer)
    (hopen : tx.answers.length < tx.rows.length) (hstorable : answer.storable = true) :
    (step settings (.publish replica answer) w).underway.find? replica =
      some { tx with answers := tx.answers ++ [answer] } := by
  have hkey := Table.key_of_find? htx
  subst hkey
  have hrow : tx.rows[tx.answers.length]? = some tx.rows[tx.answers.length] :=
    List.getElem?_eq_getElem hopen
  have hsame : ({ tx with answers := tx.answers ++ [answer] } : RelayTx).replica =
      tx.replica := rfl
  simp only [step, htx, hrow, hstorable, if_true]
  exact Table.find?_replace_of_key _ hsame htx

/-- Whatever the others do between the answers to a replica, it has its answers. -/
theorem runSteps_answers (settings : RelaySettings) {replica : Nat} (steps : List RelayStep) :
    ∀ (w : RelayWorld) (tx : RelayTx) (answers : List BusAnswer),
      w.underway.find? replica = some tx →
      steps.filter (fun s => s.replica? = some replica) =
        answers.map (.publish replica) →
      tx.answers.length + answers.length ≤ tx.rows.length →
      (∀ answer ∈ answers, answer.storable = true) →
        (runSteps (step settings) w steps).underway.find? replica =
          some { tx with answers := tx.answers ++ answers } := by
  induction steps with
  | nil =>
      intro w tx answers htx hown _ _
      cases answers with
      | nil => simpa using htx
      | cons answer answers => simp at hown
  | cons s steps ih =>
      intro w tx answers htx hown hlength hstorable
      rw [runSteps_cons]
      by_cases hs : s.replica? = some replica
      · rw [List.filter_cons_of_pos (by simpa using hs)] at hown
        cases answers with
        | nil => cases hown
        | cons answer answers =>
            rw [List.map_cons, List.cons.injEq] at hown
            obtain ⟨rfl, hown⟩ := hown
            rw [List.length_cons] at hlength
            have htold := step_publish settings htx answer (by omega)
              (hstorable answer List.mem_cons_self)
            have hrest := ih _ _ answers htold hown (by
              dsimp only
              rw [List.length_append, List.length_singleton]
              omega) fun answer hanswer => hstorable answer (List.mem_cons_of_mem _ hanswer)
            rw [hrest, List.append_assoc]
            rfl
      · rw [List.filter_cons_of_neg (by simpa using hs)] at hown
        exact ih _ tx answers (step_underway_other hs htx) hown hlength hstorable

/-- What holds of the relay in a state, and of the batches which the steps after it
complete. -/
structure Correct (settings : RelaySettings) (w : RelayWorld) (later : List RelayStep) :
    Prop where
  /-- No row is handled by two replicas. -/
  exclusive : ∀ tx ∈ w.underway.rows, ∀ tx' ∈ w.underway.rows, tx.replica ≠ tx'.replica →
    ∀ row ∈ tx.rows, ∀ row' ∈ tx'.rows, row.eventId ≠ row'.eventId
  /-- A row is marked by the commit of a transaction in which the bus accepted it. -/
  published : ∀ s row row', w.outbox.find? row.eventId = some row → row.publishedAt = none →
    (step settings s w).outbox.find? row.eventId = some row' → row'.publishedAt ≠ none →
      ∃ replica tx, s = .commit replica ∧ w.underway.find? replica = some tx ∧
        (row, .accepted) ∈ tx.rows.zip tx.answers ∧
        row.envelope ∈ w.sent.drop tx.sentBefore
  /-- Whatever the bus answers and the others do, the batch goes on to its commit, which
  marks each row by its own answer. -/
  batch : ∀ replica tx answers, w.underway.find? replica = some tx →
    later.filter (fun s => s.replica? = some replica) = answers.map (.publish replica) →
    tx.answers.length + answers.length = tx.rows.length →
      ∀ row answer, (row, answer) ∈ tx.rows.zip (tx.answers ++ answers) →
        ∃ row', (step settings (.commit replica)
          (runSteps (step settings) w later)).outbox.find? row.eventId = some row' ∧
            Marked settings tx.now row answer row'
  /-- A crash leaves the rows of the batch as they are, and unpublished. -/
  crash : ∀ replica tx, w.underway.find? replica = some tx →
    (step settings (.crash replica) w).outbox = w.outbox ∧
      ∀ row ∈ tx.rows, w.outbox.find? row.eventId = some row ∧ row.publishedAt = none

theorem answers_storable {replica : Nat} {steps : List RelayStep} {answers : List BusAnswer}
    (hrecordable : ∀ s ∈ steps, s.recordable = true)
    (hown : steps.filter (fun s => s.replica? = some replica) =
      answers.map (.publish replica)) :
    ∀ answer ∈ answers, answer.storable = true := by
  intro answer hanswer
  have hmem : RelayStep.publish replica answer ∈
      steps.filter fun s => s.replica? = some replica := by
    rw [hown]
    exact List.mem_map_of_mem hanswer
  exact hrecordable _ (List.mem_filter.mp hmem).1

/-- In every run in which the errors of the bus can be recorded. -/
theorem relay_replicas_are_correct (settings : RelaySettings) (steps later : List RelayStep)
    (hrecordable : ∀ s ∈ steps ++ later, s.recordable = true) :
    (runSteps (step settings) start steps).Correct settings later := by
  have hinv : ∀ (w : RelayWorld) (steps : List RelayStep), w.Inv →
      (runSteps (step settings) w steps).Inv := fun w steps h =>
    runSteps_preserves (fun _ s h => h.step s) h steps
  have h := hinv start steps .start
  refine ⟨h.apart, ?_, ?_, ?_⟩
  · intro s row row' hrow hnone hrow' hpublished
    exact h.published_by_commit hrow hnone hrow' hpublished
  · intro replica tx answers htx hown hlength row answer hpair
    have hstorable := answers_storable
      (fun s hs => hrecordable s (List.mem_append_right steps hs)) hown
    have htold := runSteps_answers settings later _ tx answers htx hown
      hlength.le hstorable
    apply (hinv _ later h).commit_marks htold ?_ hpair
    rw [List.length_append]
    exact hlength
  · intro replica tx htx
    exact ⟨rfl, h.unpublished tx (Table.mem_of_find? htx)⟩

section Runs

def requested (name : String) : Envelope :=
  ⟨.uuid5 name, .transferRequested, "wallet-service", "correlation", [], []⟩

/-- A replica has claimed two events. -/
def claimedTwo : List RelayStep :=
  [.enqueue (requested "first"), .enqueue (requested "second"), .claim 1 0]

/-- The bus refuses the first event with this error. -/
def firstRefused (error : String) : List RelayStep :=
  [.publish 1 (.raised error false), .publish 1 .accepted]

def queued (name : String) : OutboxRow := ⟨requested name, none, 0, none, none⟩

def claimedTx : RelayTx := ⟨1, 0, [queued "first", queued "second"], [], 0⟩

theorem claimedTwo_underway :
    (runSteps (step ⟨2, 60⟩) start claimedTwo).underway.find? 1 = some claimedTx := rfl

/-- What the commit of the batch makes of an event. -/
def afterCommit (error name : String) : Option OutboxRow :=
  (step ⟨2, 60⟩ (.commit 1)
    (runSteps (step ⟨2, 60⟩) (runSteps (step ⟨2, 60⟩) start claimedTwo)
      (firstRefused error))).outbox.find? (.uuid5 name)

/-- The second event is published beside the refused one. -/
theorem refused_event_is_postponed :
    (∃ row, afterCommit "timeout" "first" = some row ∧ row.publishedAt = none ∧
      row.attempts = 1 ∧ row.nextAttemptAt = some 1) ∧
    ∃ row, afterCommit "timeout" "second" = some row ∧ row.publishedAt = some 0 := by
  have hcorrect := relay_replicas_are_correct ⟨2, 60⟩ claimedTwo (firstRefused "timeout")
    (by decide)
  have hbatch := hcorrect.batch 1 claimedTx [.raised "timeout" false, .accepted]
    claimedTwo_underway rfl rfl
  exact ⟨hbatch (queued "first") (.raised "timeout" false) (by decide),
    hbatch (queued "second") .accepted (by decide)⟩

/-- With a NUL in the error the round is rolled back, for the second event too. -/
theorem nul_undoes_the_batch :
    afterCommit "\x00" "second" = some (queued "second") ∧
      ¬(runSteps (step ⟨2, 60⟩) start claimedTwo).Correct ⟨2, 60⟩ (firstRefused "\x00") := by
  have hrolledBack : afterCommit "\x00" "second" = some (queued "second") := by decide
  refine ⟨hrolledBack, ?_⟩
  intro hcorrect
  have hbatch := hcorrect.batch 1 claimedTx [.raised "\x00" false, .accepted]
    claimedTwo_underway rfl rfl
  obtain ⟨row, hrow, hpublished⟩ := hbatch (queued "second") .accepted (by decide)
  have hsame : some (queued "second") = some row := hrolledBack.symm.trans hrow
  rw [← Option.some.inj hsame] at hpublished
  cases hpublished

end Runs

/-! ## One replica alone -/

theorem freeRows_idle {settings : RelaySettings} {now : Nat} {w : RelayWorld}
    (hidle : w.underway.rows = []) :
    w.freeRows settings now = claimBatch settings now w.outbox := by
  have hlocked : w.locked = [] := by
    rw [locked, hidle]
    rfl
  unfold freeRows claimBatch
  rw [hlocked]
  simp

theorem step_publish_outbox (settings : RelaySettings) (w : RelayWorld) (replica : Nat)
    (answer : BusAnswer) : (step settings (.publish replica answer) w).outbox = w.outbox := by
  dsimp only [step]
  split
  · rfl
  · split
    · rfl
    · split <;> rfl

theorem runSteps_publish_outbox (settings : RelaySettings) (replica : Nat)
    (answers : List BusAnswer) (w : RelayWorld) :
    (runSteps (step settings) w (answers.map (.publish replica))).outbox = w.outbox := by
  induction answers generalizing w with
  | nil => rfl
  | cons answer answers ih =>
      rw [List.map_cons, runSteps_cons, ih, step_publish_outbox]

theorem zip_map_self {α β : Type} (f : α → β) (xs : List α) :
    xs.zip (xs.map f) = xs.map fun x => (x, f x) := by
  induction xs with
  | nil => rfl
  | cons x xs ih => rw [List.map_cons, List.zip_cons_cons, ih, List.map_cons]

/-- A batch which was claimed alone is marked as in one step of the service. -/
theorem marked_claimBatch (settings : RelaySettings) (now : Nat) (outbox : Outbox)
    (answerOf : EventId → BusAnswer) {tx : RelayTx} (hnow : tx.now = now)
    (hrows : tx.rows = claimBatch settings now outbox)
    (hanswers : tx.answers = tx.rows.map fun row => answerOf row.eventId)
    (hcompleted : (publishAll (fun id => (answerOf id).error?)
      (claimBatch settings now outbox)).2 = true) :
    tx.marked settings outbox =
      (relayOnce settings now (fun id => (answerOf id).error?) outbox).1 := by
  have honce : (tx.rows.map OutboxRow.eventId).Nodup := by
    rw [hrows]
    exact List.Nodup.sublist
      (((List.take_sublist _ _).trans List.filter_sublist).map OutboxRow.eventId) outbox.nodup
  apply Table.eq_of_rows_eq
  rw [relayOnce_rows hcompleted]
  apply List.map_congr_left
  intro row hrow
  unfold relayed
  by_cases hin : row ∈ tx.rows
  · have hpair : (row, answerOf row.eventId) ∈ tx.rows.zip tx.answers := by
      rw [hanswers, zip_map_self]
      exact List.mem_map_of_mem hin
    rw [RelayTx.answerTo_of_mem honce hpair, if_pos (hrows ▸ hin), hnow]
  · have hnone : tx.answerTo row = none := by
      apply RelayTx.answerTo_of_other
      intro locked hlocked hsame
      have hmem : locked ∈ outbox.rows := by
        rw [hrows] at hlocked
        exact (List.mem_filter.mp (List.mem_of_mem_take hlocked)).1
      exact hin (outbox.eq_of_mem_of_key_eq hmem hrow hsame ▸ hlocked)
    rw [hnone, if_neg (hrows ▸ hin)]

/-- The loop over the batch comes to its end when every answer can be recorded. -/
theorem publishAll_answers_iff {answerOf : EventId → BusAnswer} {batch : List OutboxRow} :
    (publishAll (fun id => (answerOf id).error?) batch).2 = true ↔
      ∀ answer ∈ batch.map (fun row => answerOf row.eventId), answer.storable = true := by
  rw [publishAll_completed_iff, List.forall_mem_map]
  apply forall₂_congr
  intro row _
  exact BusAnswer.storable_iff.symm

theorem find?_ended (replica : Nat) (w : RelayWorld) :
    (w.ended replica).underway.find? replica = none := by
  rw [Table.find?_eq_none_iff]
  intro tx htx
  exact (mem_ended.mp htx).2

theorem step_publish_absent (settings : RelaySettings) {w : RelayWorld} {replica : Nat}
    (h : w.underway.find? replica = none) (answer : BusAnswer) :
    step settings (.publish replica answer) w = w := by
  simp only [step, h]

theorem runSteps_publish_absent (settings : RelaySettings) {w : RelayWorld} {replica : Nat}
    (h : w.underway.find? replica = none) (answers : List BusAnswer) :
    runSteps (step settings) w (answers.map (.publish replica)) = w := by
  induction answers with
  | nil => rfl
  | cons answer answers ih =>
      rw [List.map_cons, runSteps_cons, step_publish_absent settings h, ih]

/-- An answer which cannot be recorded ends the transaction. -/
theorem runSteps_publish_rolledBack (settings : RelaySettings) {replica : Nat}
    {answers : List BusAnswer} {w : RelayWorld} {tx : RelayTx}
    (htx : w.underway.find? replica = some tx)
    (hlength : tx.answers.length + answers.length ≤ tx.rows.length)
    (hbad : ∃ answer ∈ answers, answer.storable = false) :
    (runSteps (step settings) w (answers.map (.publish replica))).underway.find? replica =
      none := by
  induction answers generalizing w tx with
  | nil =>
      obtain ⟨_, hmem, _⟩ := hbad
      cases hmem
  | cons answer answers ih =>
      rw [List.length_cons] at hlength
      have hopen : tx.answers.length < tx.rows.length := by omega
      rw [List.map_cons, runSteps_cons]
      cases hstorable : answer.storable with
      | true =>
          have htold := step_publish settings htx answer hopen hstorable
          apply ih htold
          · dsimp only
            rw [List.length_append, List.length_singleton]
            omega
          · obtain ⟨bad, hmem, hfalse⟩ := hbad
            rcases List.mem_cons.mp hmem with rfl | hrest
            · rw [hstorable] at hfalse
              cases hfalse
            · exact ⟨bad, hrest, hfalse⟩
      | false =>
          have hended : (step settings (.publish replica answer) w).underway.find? replica =
              none := by
            have hrow : tx.rows[tx.answers.length]? = some tx.rows[tx.answers.length] :=
              List.getElem?_eq_getElem hopen
            simp only [step, htx, hrow, hstorable, Bool.false_eq_true, if_false]
            exact find?_ended replica _
          rw [runSteps_publish_absent settings hended]
          exact hended

theorem step_commit_absent (settings : RelaySettings) {w : RelayWorld} {replica : Nat}
    (h : w.underway.find? replica = none) : step settings (.commit replica) w = w := by
  simp only [step, h]

/-- An undisturbed replica does what the relay does in one step of the service. -/
theorem lone_replica_relays (settings : RelaySettings) {w : RelayWorld}
    (hidle : w.underway.rows = []) (replica now : Nat) (answerOf : EventId → BusAnswer) :
    let answers := (claimBatch settings now w.outbox).map fun row => answerOf row.eventId
    (runSteps (step settings) w
      (.claim replica now :: answers.map (.publish replica) ++ [.commit replica])).outbox =
      (relayOnce settings now (fun id => (answerOf id).error?) w.outbox).1 := by
  intro answers
  let tx : RelayTx := ⟨replica, now, claimBatch settings now w.outbox, [], w.sent.length⟩
  have hfree : w.underway.find? tx.replica = none := by
    rw [Table.find?_eq_none_iff, hidle]
    simp
  obtain ⟨underway, hinsert⟩ := Table.exists_insert? w.underway tx hfree
  have hclaim : step settings (.claim replica now) w = { w with underway } := by
    simp only [step, freeRows_idle hidle]
    rw [hinsert]
  have htx : ({ w with underway } : RelayWorld).underway.find? replica = some tx :=
    (Table.find?_insert? hinsert replica).trans (if_pos rfl)
  have hlength : tx.answers.length + answers.length = tx.rows.length := by
    simp [tx, answers]
  have houtbox := runSteps_publish_outbox settings replica answers { w with underway }
  rw [List.cons_append, runSteps_cons, runSteps_append, hclaim, runSteps_cons, runSteps_nil]
  cases hcompleted : (publishAll (fun id => (answerOf id).error?)
      (claimBatch settings now w.outbox)).2 with
  | true =>
      have hanswers : ∀ answer ∈ answers, answer.storable = true :=
        publishAll_answers_iff.mp hcompleted
      have hown : (answers.map (RelayStep.publish replica)).filter
          (fun s => s.replica? = some replica) = answers.map (.publish replica) := by
        apply List.filter_eq_self.mpr
        intro s hs
        obtain ⟨answer, _, rfl⟩ := List.mem_map.mp hs
        simp [RelayStep.replica?]
      have htold := runSteps_answers settings (answers.map (.publish replica))
        { w with underway } tx answers htx hown hlength.le hanswers
      rw [step_commit_outbox settings htold (by simp [tx, answers]), houtbox]
      exact marked_claimBatch settings now w.outbox answerOf rfl rfl (by simp [tx, answers])
        hcompleted
  | false =>
      have hbad : ∃ answer ∈ answers, answer.storable = false := by
        have hnot : ¬∀ answer ∈ answers, answer.storable = true := by
          rw [← publishAll_answers_iff, hcompleted]
          exact Bool.false_ne_true
        simpa using hnot
      have hended := runSteps_publish_rolledBack settings htx hlength.le hbad
      rw [step_commit_absent settings hended, houtbox, relayOnce_rolledBack hcompleted]

end RelayWorld

end CryptoWallet
