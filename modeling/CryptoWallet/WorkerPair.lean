import CryptoWallet.TransferRuns

/-!
# One broadcaster and one watcher

Each of the two loops takes its rows one after another and waits for the node in
between; requests, the other loop and crashes may come at any of these points.  While
there is only one of each, a row in hand is the row in the database.
-/

namespace CryptoWallet.Blockchain

open Tx

/-- Where the watcher is with the first id of its list. -/
inductive WatchPhase where
  | next
  | asking (seen : SeenRecord)
  | told (seen : SeenRecord) (receipt : Option TxReceipt)

def WatchPhase.seen? : WatchPhase → Option SeenRecord
  | .next => none
  | .asking seen | .told seen _ => some seen

/-- The rows the broadcaster has claimed and not finished, the answer to the first of
them, and the ids the watcher has not finished.  `claims` are all claims so far. -/
structure WorkerPair where
  db : Db
  claimed : List OutgoingTransaction
  answer : Option (Except ChainError ChainHash)
  head : Nat
  listed : List Uuid
  phase : WatchPhase
  claims : List Uuid

/-- The node gives any answer and any receipt, or raises. -/
inductive PairStep where
  | request (scope : Scope) (envelope : Envelope)
  | claim (now limit : Nat)
  | send (answer : Except ChainError ChainHash)
  | record (scope : Scope)
  | crash
  | list (head : Nat)
  | read
  | receipt (receipt : Option TxReceipt)
  | check (scope : Scope)
  | leave

namespace WorkerPair

def start (addresses : Table String Address Address.owner) : WorkerPair :=
  ⟨{ Db.empty with addresses }, [], none, 0, [], .next, []⟩

/-- The scope of what is done for a claimed row. -/
def rowScope (scope : Scope) (row : OutgoingTransaction) : Scope :=
  correlationScope scope (row.correlationId.map Subtype.val)

def step (settings : Settings) (action : PairStep) (w : WorkerPair) : WorkerPair :=
  match action with
  | .request scope envelope => { w with db := (commit (dispatch scope envelope) w.db).2 }
  | .claim now limit =>
    match w.claimed with
    | [] =>
      let (claimed, db) := claimDue now limit w.db
      { w with
        db, claimed
        answer := none
        claims := w.claims ++ claimed.map (·.transferId) }
    | _ :: _ => w
  | .send answer =>
    match w.claimed, w.answer with
    | _ :: _, none => { w with answer := some answer }
    | _, _ => w
  | .record scope =>
    match w.claimed, w.answer with
    | row :: rest, some answer =>
      match commit (broadcastTx settings (rowScope scope row) row answer) w.db with
      | (.ok _, db) => { w with db, claimed := rest, answer := none }
      -- the exception leaves the loop over the rows
      | (.error _, db) => { w with db, claimed := [], answer := none }
    | _, _ => w
  | .crash => { w with claimed := [], answer := none }
  | .list head =>
    match w.listed with
    | [] => { w with head, listed := candidates settings head w.db, phase := .next }
    | _ :: _ => w
  | .read =>
    match w.listed, w.phase with
    | transferId :: rest, .next =>
      match (w.db.outgoing.find? transferId).bind OutgoingTransaction.seen with
      | none => { w with listed := rest }
      | some seen => { w with phase := .asking seen }
    | _, _ => w
  | .receipt receipt =>
    match w.phase with
    | .asking seen => { w with phase := .told seen receipt }
    | _ => w
  | .check scope =>
    match w.listed, w.phase with
    | transferId :: rest, .told seen receipt =>
      match commit (checkTx settings scope w.head transferId seen receipt) w.db with
      | (.ok _, db) => { w with db, listed := rest, phase := .next }
      | (.error _, db) => { w with db, listed := [], phase := .next }
    | _, _ => w
  | .leave => { w with listed := [], phase := .next }

/-! ## What a step can do -/

/-- The list of the watcher after a step which writes nothing. -/
inductive Looked (settings : Settings) (w : WorkerPair) : List Uuid → WatchPhase → Prop where
  | listed (head : Nat) : Looked settings w (candidates settings head w.db) .next
  | left (n : Nat) : Looked settings w (w.listed.drop n) .next
  | read (transferId : Uuid) (rest : List Uuid) (seen : SeenRecord)
      (hlisted : w.listed = transferId :: rest)
      (hseen : (w.db.outgoing.find? transferId).bind OutgoingTransaction.seen = some seen) :
      Looked settings w w.listed (.asking seen)
  | told (seen : SeenRecord) (receipt : Option TxReceipt) (hphase : w.phase = .asking seen) :
      Looked settings w w.listed (.told seen receipt)

inductive Stepped (settings : Settings) (w : WorkerPair) : PairStep → WorkerPair → Prop where
  | idle (action : PairStep) : Stepped settings w action w
  | requested (scope : Scope) (envelope : Envelope) (db : Db)
      (hdispatched : Dispatched scope envelope w.db db) :
      Stepped settings w (.request scope envelope) { w with db }
  | claimed (now limit : Nat) (hfree : w.claimed = []) :
      Stepped settings w (.claim now limit)
        { w with
          db := (claimDue now limit w.db).2
          claimed := (claimDue now limit w.db).1
          answer := none
          claims := w.claims ++ (claimDue now limit w.db).1.map (·.transferId) }
  | answered (answer : Except ChainError ChainHash) :
      Stepped settings w (.send answer) { w with answer := some answer }
  | recorded (scope : Scope) (row : OutgoingTransaction) (rest : List OutgoingTransaction)
      (answer : Except ChainError ChainHash) (record : OutgoingTransaction) (db : Db)
      (hclaimed : w.claimed = row :: rest)
      (hrecord : w.db.outgoing.find? row.transferId = some record)
      (hanswered : Answered settings (rowScope scope row) row w.db record answer db) :
      Stepped settings w (.record scope) { w with db, claimed := rest, answer := none }
  | missing (scope : Scope) (row : OutgoingTransaction) (rest : List OutgoingTransaction)
      (hclaimed : w.claimed = row :: rest)
      (hnone : w.db.outgoing.find? row.transferId = none) :
      Stepped settings w (.record scope) { w with claimed := rest, answer := none }
  | raised (scope : Scope) (row : OutgoingTransaction) (rest : List OutgoingTransaction)
      (answer : Except ChainError ChainHash) (e : Failure) (hclaimed : w.claimed = row :: rest)
      (hanswer : w.answer = some answer)
      (hraised : commit (broadcastTx settings (rowScope scope row) row answer) w.db =
        (.error e, w.db)) :
      Stepped settings w (.record scope) { w with claimed := [], answer := none }
  | crashed : Stepped settings w .crash { w with claimed := [], answer := none }
  | looked (action : PairStep) (head : Nat) (listed : List Uuid) (phase : WatchPhase)
      (hlooked : Looked settings w listed phase) :
      Stepped settings w action { w with head, listed, phase }
  | checked (scope : Scope) (transferId : Uuid) (rest : List Uuid) (seen : SeenRecord)
      (receipt : Option TxReceipt) (record : OutgoingTransaction) (db : Db)
      (hlisted : w.listed = transferId :: rest) (hphase : w.phase = .told seen receipt)
      (hrecord : w.db.outgoing.find? transferId = some record)
      (hchecked : Checked settings
        (correlationScope scope (record.correlationId.map Subtype.val)) w.head seen w.db
        record receipt db) :
      Stepped settings w (.check scope) { w with db, listed := rest, phase := .next }

theorem step_stepped (settings : Settings) (action : PairStep) (w : WorkerPair) :
    Stepped settings w action (step settings action w) := by
  cases action with
  | request scope envelope =>
      dsimp only [step]
      cases hcommit : commit (dispatch scope envelope) w.db with
      | mk result db =>
          cases result with
          | ok outcome =>
              have hdispatched := (dispatch_ensures scope envelope w.db).commit_ok hcommit
              exact .requested scope envelope db hdispatched
          | error e =>
              have hsame := commit_error hcommit
              subst hsame
              exact .idle _
  | claim now limit =>
      dsimp only [step]
      split
      next hfree => exact .claimed now limit hfree
      next => exact .idle _
  | send answer =>
      dsimp only [step]
      split
      · exact .answered answer
      · exact .idle _
  | record scope =>
      dsimp only [step]
      split
      next row rest answer hclaimed hanswer =>
        cases hcommit : commit (broadcastTx settings (rowScope scope row) row answer) w.db with
        | mk result db =>
            cases result with
            | ok outcome =>
                rcases (broadcastTx_ensures settings _ row answer w.db).commit_ok hcommit with
                  ⟨hnone, rfl⟩ | ⟨record, hrecord, hanswered⟩
                · exact .missing scope row rest hclaimed hnone
                · exact .recorded scope row rest answer record db hclaimed hrecord hanswered
            | error e =>
                have hsame := commit_error hcommit
                subst hsame
                exact .raised scope row rest answer e hclaimed hanswer hcommit
      next => exact .idle _
  | crash => exact .crashed
  | list head =>
      dsimp only [step]
      split
      · exact .looked _ head _ _ (.listed head)
      · exact .idle _
  | read =>
      dsimp only [step]
      split
      next transferId rest hlisted hphase =>
        split
        next =>
          have hleft : Looked settings w (w.listed.drop 1) .next := .left 1
          rw [hlisted, List.drop_one, List.tail_cons, ← hphase] at hleft
          exact .looked _ w.head rest w.phase hleft
        next seen hseen =>
          exact .looked _ w.head w.listed _ (.read transferId rest seen hlisted hseen)
      next => exact .idle _
  | receipt receipt =>
      dsimp only [step]
      split
      next seen hphase => exact .looked _ w.head w.listed _ (.told seen receipt hphase)
      next => exact .idle _
  | check scope =>
      dsimp only [step]
      split
      next transferId rest seen receipt hlisted hphase =>
        have hleft : ∀ n, Looked settings w (w.listed.drop n) .next := .left
        cases hcommit : commit (checkTx settings scope w.head transferId seen receipt) w.db with
        | mk result db =>
            cases result with
            | ok outcome =>
                rcases (checkTx_ensures settings scope w.head transferId seen receipt
                  w.db).commit_ok hcommit with ⟨_, _, rfl⟩ | ⟨record, hrecord, hchecked⟩
                · have hrest := hleft 1
                  rw [hlisted, List.drop_one, List.tail_cons] at hrest
                  exact .looked _ w.head rest .next hrest
                · exact .checked scope transferId rest seen receipt record db hlisted hphase
                    hrecord hchecked
            | error e =>
                have hsame := commit_error hcommit
                subst hsame
                have hnone := hleft w.listed.length
                rw [List.drop_length] at hnone
                exact .looked _ w.head [] .next hnone
      next => exact .idle _
  | leave =>
      have hnone : Looked settings w (w.listed.drop w.listed.length) .next := .left _
      rw [List.drop_length] at hnone
      exact .looked _ w.head [] .next hnone

/-! ## Rows in hand -/

section Rows

variable {settings : Settings} {scope : Scope} {db db' : Db}

theorem answered_find?_other {row record : OutgoingTransaction}
    {answer : Except ChainError ChainHash}
    (h : Answered settings scope row db record answer db') {transferId : Uuid}
    (hid : transferId ≠ record.transferId) :
    db'.outgoing.find? transferId = db.outgoing.find? transferId := by
  rcases h.written with hsame | ⟨record', hrequest, _, hreplace⟩
  · rw [hsame]
  · rw [hreplace]
    apply Table.find?_replace_of_ne
    rwa [hrequest.transferId]

theorem dispatched_find? {envelope : Envelope} (h : Dispatched scope envelope db db')
    {transferId : Uuid} {record : OutgoingTransaction}
    (hrecord : db.outgoing.find? transferId = some record) :
    db'.outgoing.find? transferId = some record := by
  cases h with
  | duplicate => exact hrecord
  | ignored processedEvents => exact hrecord
  | accepted processedEvents hrequested db' haccepted =>
      have hinserted : ∀ {proposed : OutgoingTransaction} {outgoing}, db.outgoing.insert? proposed =
          some outgoing → transferId ≠ proposed.transferId ∧
            outgoing.find? transferId = some record := by
        intro proposed outgoing hinsert
        have hne : transferId ≠ proposed.transferId := by
          intro hsame
          rw [hsame, Table.insert?_free hinsert] at hrecord
          cases hrecord
        refine ⟨hne, ?_⟩
        rw [Table.find?_insert? hinsert, if_neg hne]
        exact hrecord
      cases haccepted with
      | duplicate proposed hproposed htaken => exact hrecord
      | accepted proposed hproposed hknown outgoing hinsert => exact (hinserted hinsert).2
      | unknown proposed hproposed hunknown outgoing hinsert failed hpayload db' hannounces =>
          obtain ⟨outbox, _, rfl⟩ := hannounces
          obtain ⟨hne, hfind⟩ := hinserted hinsert
          have hother : (outgoing.replace (proposed.failedFor unknownAddressReason)).find?
              transferId = outgoing.find? transferId :=
            Table.find?_replace_of_ne outgoing _ hne
          exact hother.trans hfind

/-- The claim writes the due rows and no other. -/
theorem claimDue_find? (now limit : Nat) (db : Db) (transferId : Uuid) :
    (claimDue now limit db).2.outgoing.find? transferId =
      (db.outgoing.find? transferId).map fun record =>
        if record ∈ dueRecords now limit db then record.claimed now else record := by
  have hkeys : ∀ record : OutgoingTransaction,
      (if record ∈ dueRecords now limit db then record.claimed now else record).transferId =
        record.transferId := by
    intro record
    split <;> rfl
  exact Table.find?_mapRows db.outgoing _ hkeys transferId

theorem dueRecords_nodup (now limit : Nat) (db : Db) :
    ((dueRecords now limit db).map OutgoingTransaction.transferId).Nodup := by
  have hall : ((db.outgoing.select (·.due now)).map OutgoingTransaction.transferId).Nodup :=
    db.outgoing.nodup.sublist (List.filter_sublist.map _)
  have hsorted := List.perm_insertionSort (fun r r' : OutgoingTransaction =>
    r.createdAt ≤ r'.createdAt) (db.outgoing.select (·.due now))
  have hnodup := (hsorted.map OutgoingTransaction.transferId).nodup_iff.mpr hall
  exact hnodup.sublist ((List.take_sublist limit _).map _)

theorem claimDue_claimed (now limit : Nat) (db : Db) {row : OutgoingTransaction}
    (hrow : row ∈ (claimDue now limit db).1) :
    ∃ record, record ∈ dueRecords now limit db ∧ row = record.claimed now ∧
      (claimDue now limit db).2.outgoing.find? row.transferId = some row := by
  obtain ⟨record, hrecord, rfl⟩ := List.mem_map.mp hrow
  refine ⟨record, hrecord, rfl, ?_⟩
  have hfind : db.outgoing.find? (record.claimed now).transferId = some record :=
    db.outgoing.find?_of_mem (mem_dueRecords hrecord).1
  rw [claimDue_find?, hfind, Option.map_some, if_pos hrecord]

end Rows

/-- What the two loops have in hand, while nobody else works. -/
structure Orderly (w : WorkerPair) : Prop where
  claimed : ∀ row ∈ w.claimed,
    w.db.outgoing.find? row.transferId = some row ∧ row.status = .pending
  claimedOnce : (w.claimed.map OutgoingTransaction.transferId).Nodup
  listed : ∀ transferId ∈ w.listed, ∃ record,
    w.db.outgoing.find? transferId = some record ∧
      (record.status = .broadcasted ∨ record.status = .confirmed)
  listedOnce : w.listed.Nodup
  seen : ∀ seen, w.phase.seen? = some seen → ∃ transferId rest record,
    w.listed = transferId :: rest ∧ w.db.outgoing.find? transferId = some record ∧
      record.seen = some seen

theorem Orderly.start (addresses : Table String Address Address.owner) :
    (start addresses).Orderly where
  claimed := by simp [WorkerPair.start]
  claimedOnce := by simp [WorkerPair.start]
  listed := by simp [WorkerPair.start]
  listedOnce := by simp [WorkerPair.start]
  seen := by simp [WorkerPair.start, WatchPhase.seen?]

/-- A write which leaves the rows in hand as they are. -/
theorem Orderly.kept {w : WorkerPair} (h : w.Orderly) {db : Db}
    {claimed : List OutgoingTransaction} {answer : Option (Except ChainError ChainHash)}
    {listed : List Uuid} {phase : WatchPhase} {claims : List Uuid}
    (hclaimed : claimed.Sublist w.claimed) (hlisted : listed.Sublist w.listed)
    (hphase : phase = .next ∨ (phase = w.phase ∧ listed = w.listed))
    (hrows : ∀ row ∈ claimed, db.outgoing.find? row.transferId =
      w.db.outgoing.find? row.transferId)
    (hids : ∀ transferId ∈ listed, db.outgoing.find? transferId =
      w.db.outgoing.find? transferId) :
    (⟨db, claimed, answer, w.head, listed, phase, claims⟩ : WorkerPair).Orderly where
  claimed := by
    intro row hrow
    have hin := h.claimed row (hclaimed.subset hrow)
    rw [hrows row hrow]
    exact hin
  claimedOnce := h.claimedOnce.sublist (hclaimed.map _)
  listed := by
    intro transferId hid
    rw [hids transferId hid]
    exact h.listed transferId (hlisted.subset hid)
  listedOnce := h.listedOnce.sublist hlisted
  seen := by
    intro seen hseen
    rcases hphase with rfl | ⟨rfl, rfl⟩
    · cases hseen
    · obtain ⟨transferId, rest, record, hhead, hrecord, hsame⟩ := h.seen seen hseen
      refine ⟨transferId, rest, record, hhead, ?_, hsame⟩
      rw [hids transferId (by rw [hhead]; exact List.mem_cons_self)]
      exact hrecord

/-- No row is in the hands of both loops. -/
theorem Orderly.apart {w : WorkerPair} (h : w.Orderly) {row : OutgoingTransaction}
    (hrow : row ∈ w.claimed) : row.transferId ∉ w.listed := by
  intro hlisted
  obtain ⟨hfind, hpending⟩ := h.claimed row hrow
  obtain ⟨record, hrecord, hstatus⟩ := h.listed _ hlisted
  rw [hfind, Option.some.injEq] at hrecord
  subst hrecord
  rcases hstatus with hbroadcasted | hconfirmed
  · rw [hpending] at hbroadcasted
    cases hbroadcasted
  · rw [hpending] at hconfirmed
    cases hconfirmed

/-- The record a check finds is the one which was read. -/
theorem Orderly.checking {w : WorkerPair} (h : w.Orderly) {transferId : Uuid}
    {rest : List Uuid} {seen : SeenRecord} {receipt : Option TxReceipt}
    {record : OutgoingTransaction} (hlisted : w.listed = transferId :: rest)
    (hphase : w.phase = .told seen receipt)
    (hrecord : w.db.outgoing.find? transferId = some record) :
    (record.status = .broadcasted ∨ record.status = .confirmed) ∧
      record.seen = some seen := by
  obtain ⟨other, hother, hstatus⟩ := h.listed transferId (by
    rw [hlisted]
    exact List.mem_cons_self)
  rw [hrecord, Option.some.injEq] at hother
  subst hother
  obtain ⟨first, _, found, hhead, hfound, hseen⟩ := h.seen seen (by
    rw [hphase]
    rfl)
  rw [hlisted, List.cons.injEq] at hhead
  rw [← hhead.1, hrecord, Option.some.injEq] at hfound
  subst hfound
  exact ⟨hstatus, hseen⟩

theorem Orderly.stepped {settings : Settings} {w w' : WorkerPair} {action : PairStep}
    (h : w.Orderly) (hstep : Stepped settings w action w') : w'.Orderly := by
  cases hstep with
  | idle => exact h
  | requested scope envelope db hdispatched =>
      refine h.kept (List.Sublist.refl _) (List.Sublist.refl _) (Or.inr ⟨rfl, rfl⟩) ?_ ?_
      · intro row hrow
        have hfind := (h.claimed row hrow).1
        rw [hfind]
        exact dispatched_find? hdispatched hfind
      · intro transferId hid
        obtain ⟨record, hfind, _⟩ := h.listed transferId hid
        rw [hfind]
        exact dispatched_find? hdispatched hfind
  | claimed now limit hfree =>
      have hkept : ∀ transferId record, w.db.outgoing.find? transferId = some record →
          (record.status = .broadcasted ∨ record.status = .confirmed) →
            (claimDue now limit w.db).2.outgoing.find? transferId = some record := by
        intro transferId record hfind hstatus
        rw [claimDue_find?, hfind, Option.map_some, if_neg]
        intro hdue
        have hopen := (mem_dueRecords hdue).2
        unfold OutgoingTransaction.due at hopen
        rcases hstatus with hstatus | hstatus <;> simp [hstatus] at hopen
      constructor
      · intro row hrow
        obtain ⟨record, _, rfl, hfind⟩ := claimDue_claimed now limit w.db hrow
        exact ⟨hfind, rfl⟩
      · have hids : (claimDue now limit w.db).1.map OutgoingTransaction.transferId =
            (dueRecords now limit w.db).map OutgoingTransaction.transferId := by
          simp [claimDue, OutgoingTransaction.claimed]
        dsimp only
        rw [hids]
        exact dueRecords_nodup now limit w.db
      · intro transferId hid
        obtain ⟨record, hfind, hstatus⟩ := h.listed transferId hid
        exact ⟨record, hkept transferId record hfind hstatus, hstatus⟩
      · exact h.listedOnce
      · intro seen hseen
        obtain ⟨transferId, rest, record, hhead, hfind, hsame⟩ := h.seen seen hseen
        obtain ⟨other, hother, hstatus⟩ := h.listed transferId
          (by rw [hhead]; exact List.mem_cons_self)
        rw [hfind, Option.some.injEq] at hother
        subst hother
        exact ⟨transferId, rest, record, hhead, hkept transferId record hfind hstatus, hsame⟩
  | answered answer =>
      exact h.kept (.refl _) (.refl _) (Or.inr ⟨rfl, rfl⟩) (fun _ _ => rfl) fun _ _ => rfl
  | recorded scope row rest answer record db hclaimed hrecord hanswered =>
      have hkey := Table.key_of_find? hrecord
      have hrow : row ∈ w.claimed := by
        rw [hclaimed]
        exact List.mem_cons_self
      have honce := h.claimedOnce
      rw [hclaimed, List.map_cons, List.nodup_cons] at honce
      refine h.kept (by rw [hclaimed]; exact List.sublist_cons_self row rest) (.refl _)
        (Or.inr ⟨rfl, rfl⟩) ?_ ?_
      · intro other hother
        apply answered_find?_other hanswered
        rw [hkey]
        intro hsame
        exact honce.1 (hsame ▸ List.mem_map_of_mem hother)
      · intro transferId hid
        apply answered_find?_other hanswered
        rw [hkey]
        rintro rfl
        exact h.apart hrow hid
  | missing scope row rest hclaimed hnone =>
      exact h.kept (by rw [hclaimed]; exact List.sublist_cons_self row rest) (.refl _)
        (Or.inr ⟨rfl, rfl⟩) (fun _ _ => rfl) fun _ _ => rfl
  | raised scope row rest answer e hclaimed hanswer hraised =>
      exact h.kept (List.nil_sublist _) (.refl _) (Or.inr ⟨rfl, rfl⟩) (fun _ _ => rfl)
        fun _ _ => rfl
  | crashed =>
      exact h.kept (List.nil_sublist _) (.refl _) (Or.inr ⟨rfl, rfl⟩) (fun _ _ => rfl)
        fun _ _ => rfl
  | looked action head listed phase hlooked =>
      have hhead : ∀ w : WorkerPair, w.Orderly → ({ w with head } : WorkerPair).Orderly :=
        fun w h => ⟨h.claimed, h.claimedOnce, h.listed, h.listedOnce, h.seen⟩
      cases hlooked with
      | listed head' =>
          constructor
          · exact h.claimed
          · exact h.claimedOnce
          · intro transferId hid
            obtain ⟨record, hrecord, hcandidate⟩ := mem_candidates.mp hid
            simp only [OutgoingTransaction.candidate, Bool.and_eq_true, Bool.or_eq_true,
              decide_eq_true_eq] at hcandidate
            exact ⟨record, hrecord, hcandidate.1⟩
          · exact candidates_nodup settings head' w.db
          · intro seen hseen
            cases hseen
      | left n =>
          exact hhead _ (h.kept (.refl _) (List.drop_sublist n _) (Or.inl rfl)
            (fun _ _ => rfl) fun _ _ => rfl)
      | read transferId rest seen hlisted hseen =>
          refine ⟨h.claimed, h.claimedOnce, h.listed, h.listedOnce, ?_⟩
          intro seen' hseen'
          cases hseen'
          obtain ⟨record, hrecord, hsame⟩ := Option.bind_eq_some_iff.mp hseen
          exact ⟨transferId, rest, record, hlisted, hrecord, hsame⟩
      | told seen receipt hphase =>
          refine ⟨h.claimed, h.claimedOnce, h.listed, h.listedOnce, ?_⟩
          intro seen' hseen'
          cases hseen'
          exact h.seen seen (by rw [hphase]; rfl)
  | checked scope transferId rest seen receipt record db hlisted hphase hrecord hchecked =>
      have hkey := Table.key_of_find? hrecord
      have honce := h.listedOnce
      rw [hlisted, List.nodup_cons] at honce
      refine h.kept (.refl _) (by rw [hlisted]; exact List.sublist_cons_self transferId rest)
        (Or.inl rfl) ?_ ?_
      · intro row hrow
        apply hchecked.find?_other
        rw [hkey]
        rintro rfl
        exact h.apart hrow (by rw [hlisted]; exact List.mem_cons_self)
      · intro other hother
        apply hchecked.find?_other
        rw [hkey]
        rintro rfl
        exact honce.1 hother

end WorkerPair
end CryptoWallet.Blockchain
