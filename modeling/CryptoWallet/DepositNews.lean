import CryptoWallet.DepositEvents
import CryptoWallet.OutgoingCases
import CryptoWallet.PromotedDeposits

/-!
# The deposit events in the outbox

Two events tell the wallet to post: that a deposit is confirmed, and that a
confirmed one disappeared.  As long as neither is lost to an event id which is
taken, the events about a deposit add up to what its row says.
-/

namespace CryptoWallet.Blockchain

open Tx
open Wallet (postsDeposit)

variable {σ : Type}

/-! ## The ids of the events -/

def reorgedEventId (id : DepositId) (blockHash : ChainHash) : EventId :=
  .uuid5 (EventType.depositReorged.name ++ "|" ++
    (DepositId.inBlock id blockHash ++ ":reorg"))

theorem reorgedEvent_eventId (scope : Scope) (d : Deposit) (payload : Payload) :
    (reorgedEvent scope d payload).eventId = reorgedEventId d.identity d.blockHash := by
  simp [reorgedEvent, depositEvent, newEvent, reorgedEventId]

theorem confirmedEventId_inj {id id' : DepositId} {blockHash blockHash' : ChainHash}
    (h : confirmedEventId id blockHash = confirmedEventId id' blockHash') :
    id = id' ∧ blockHash = blockHash' := by
  simp only [confirmedEventId, EventId.uuid5.injEq, String.append_right_inj] at h
  exact DepositId.inBlock_inj h

theorem reorgedEventId_inj {id id' : DepositId} {blockHash blockHash' : ChainHash}
    (h : reorgedEventId id blockHash = reorgedEventId id' blockHash') :
    id = id' ∧ blockHash = blockHash' := by
  simp only [reorgedEventId, EventId.uuid5.injEq, String.append_right_inj,
    String.append_left_inj] at h
  exact DepositId.inBlock_inj h

theorem confirmedEventId_ne_reorged (id id' : DepositId) (blockHash blockHash' : ChainHash) :
    confirmedEventId id blockHash ≠ reorgedEventId id' blockHash' := by
  intro h
  simp only [confirmedEventId, reorgedEventId, EventId.uuid5.injEq] at h
  have hlist := congrArg String.toList h
  simp [EventType.name] at hlist

/-! ## What an event adds to the ledger -/

/-- The events which post a deposit are these two. -/
inductive DepositNews : Envelope → Prop where
  | confirmed (scope : Scope) (d : Deposit) (confirmations : Nat) (payload : Payload)
      (hpayload : depositPayload d confirmations = .ok payload) :
      DepositNews (confirmedEvent scope d payload)
  | reorged (scope : Scope) (d : Deposit) (confirmations : Nat) (payload : Payload)
      (hpayload : depositPayload d confirmations = .ok payload) :
      DepositNews (reorgedEvent scope d payload)

/-- The reference is to the deposit in some block. -/
def refersTo (id : DepositId) : Except Failure String → Bool
  | .ok text => id.refers text
  | .error _ => false

def amountUnits (payload : Payload) : Int :=
  match payload.item "amount_units" with
  | .ok value =>
    match pyIntOf value with
    | .ok amount => amount
    | .error _ => 0
  | .error _ => 0

/-- What an event tells the wallet to post for the deposit. -/
def postedUnits (id : DepositId) (envelope : Envelope) : Int :=
  match envelope.eventType with
  | .depositConfirmed =>
    if refersTo id (Wallet.referenceId envelope.payload) then amountUnits envelope.payload
    else 0
  | .depositReorged =>
    if envelope.payload.getD "was_confirmed" .null = .bool true &&
        refersTo id (Wallet.reversalReferenceId envelope.payload) then
      -amountUnits envelope.payload
    else 0
  | _ => 0

theorem postedUnits_of_beside (id : DepositId) {envelope : Envelope}
    (h : postsDeposit envelope.eventType = false) : postedUnits id envelope = 0 := by
  unfold postedUnits
  cases htype : envelope.eventType with
  | depositConfirmed | depositReorged => simp [htype, postsDeposit] at h
  | _ => rfl

theorem amountUnits_carried {payload : Payload} {d : Deposit} (h : Carries payload d) :
    amountUnits payload = d.amount := by
  simp only [amountUnits, h.amountUnits, pyIntOf, Json.toInt?, pyInt_toString d.amountFits]

theorem refersTo_inBlock (id id' : DepositId) (blockHash : ChainHash) :
    refersTo id (.ok (DepositId.inBlock id' blockHash)) = decide (id = id') := by
  rw [refersTo, Bool.eq_iff_iff, DepositId.refers_inBlock_iff, decide_eq_true_iff]

theorem postedUnits_confirmed (id : DepositId) (scope : Scope) {d : Deposit}
    {confirmations : Nat} {payload : Payload}
    (h : depositPayload d confirmations = .ok payload) :
    postedUnits id (confirmedEvent scope d payload) =
      if id = d.identity then (d.amount : Int) else 0 := by
  obtain ⟨hcarries, hreference⟩ := depositPayload_carries h
  show (if refersTo id (Wallet.referenceId payload) then amountUnits payload else 0) = _
  rw [hreference, refersTo_inBlock, amountUnits_carried hcarries]
  simp only [decide_eq_true_iff]

theorem postedUnits_reorged (id : DepositId) (scope : Scope) {d : Deposit}
    {confirmations : Nat} {payload : Payload}
    (h : depositPayload d confirmations = .ok payload) :
    postedUnits id (reorgedEvent scope d payload) =
      if d.status = .confirmed ∧ id = d.identity then -(d.amount : Int) else 0 := by
  obtain ⟨hcarries, hconfirmed, hreference⟩ :=
    reorgedPayload_carries h (d.status = .confirmed) d.blockHash
  show (if (reorgedPayload payload _ _).getD "was_confirmed" .null = .bool true &&
      refersTo id (Wallet.reversalReferenceId (reorgedPayload payload _ _)) then
    -amountUnits (reorgedPayload payload _ _) else 0) = _
  rw [hconfirmed, hreference, refersTo_inBlock, amountUnits_carried hcarries]
  simp

/-! ## The rows -/

/-- What the ledger should hold for the row. -/
def Deposit.standing (d : Deposit) : Int :=
  if d.status = .confirmed then d.amount else 0

def standing (db : Db) (id : DepositId) : Int :=
  ((db.deposits.find? id).map Deposit.standing).getD 0

theorem standing_of_find? {db : Db} {id : DepositId} {d : Deposit}
    (hd : db.deposits.find? id = some d) : standing db id = d.standing := by
  simp [standing, hd]

theorem Deposit.standing_of_open {d : Deposit} (h : d.status ≠ .confirmed) :
    d.standing = 0 := if_neg h

theorem standing_replace {db db' : Db} {d : Deposit}
    (hd : db.deposits.find? d.identity = some d) (d' : Deposit)
    (hkey : d'.identity = d.identity) (hdeposits : db'.deposits = db.deposits.replace d')
    (id : DepositId) :
    standing db' id = if id = d.identity then d'.standing else standing db id := by
  unfold standing
  rw [hdeposits]
  by_cases hid : id = d.identity
  · rw [if_pos hid, hid, Table.find?_replace_of_key _ hkey hd]
    rfl
  · rw [if_neg hid, Table.find?_replace_of_ne _ d' (hkey.symm ▸ hid)]

/-! ## What the outbox tells -/

/-- The events about the deposit add up to what its row says. -/
structure Told (id : DepositId) (db : Db) : Prop where
  news : ∀ envelope ∈ db.outbox.envelopes,
    postsDeposit envelope.eventType = true → DepositNews envelope
  balance : db.outbox.sumOf (postedUnits id) = standing db id

theorem Told.empty (id : DepositId) : Told id .empty :=
  ⟨by simp [Db.empty, Outbox.envelopes], rfl⟩

/-- Only events which post nothing are added. -/
def Beside (outbox outbox' : Outbox) : Prop :=
  ∃ added, outbox'.envelopes = outbox.envelopes ++ added ∧
    ∀ envelope ∈ added, postsDeposit envelope.eventType = false

theorem Beside.refl (outbox : Outbox) : Beside outbox outbox :=
  ⟨[], by simp, by simp⟩

theorem Beside.trans {outbox outbox' outbox'' : Outbox} (h : Beside outbox outbox')
    (h' : Beside outbox' outbox'') : Beside outbox outbox'' := by
  obtain ⟨added, hadded, hquiet⟩ := h
  obtain ⟨added', hadded', hquiet'⟩ := h'
  refine ⟨added ++ added', by rw [hadded', hadded, List.append_assoc], ?_⟩
  intro envelope hmem
  rcases List.mem_append.mp hmem with hmem | hmem
  · exact hquiet envelope hmem
  · exact hquiet' envelope hmem

theorem Beside.grows {outbox outbox' : Outbox} (h : Beside outbox outbox') :
    outbox.Grows outbox' := by
  obtain ⟨added, hadded, _⟩ := h
  exact ⟨added, hadded.symm⟩

theorem Beside.of_enqueue {outbox outbox' : Outbox} {envelope : Envelope}
    (h : enqueueEvent outbox envelope = .ok outbox')
    (htype : postsDeposit envelope.eventType = false) : Beside outbox outbox' := by
  rcases enqueueEvent_cases h with ⟨_, rfl⟩ | ⟨_, hrows⟩
  · exact .refl outbox'
  · exact ⟨[envelope], hrows, by simpa using htype⟩

/-- The outbox of a step, and what it tells then. -/
structure Tells (id : DepositId) (db db' : Db) : Prop where
  grows : db.outbox.Grows db'.outbox
  told : Told id db → Told id db'

theorem Tells.refl (id : DepositId) (db : Db) : Tells id db db :=
  ⟨.refl db.outbox, fun h => h⟩

theorem Tells.trans {id : DepositId} {db db' db'' : Db} (h : Tells id db db')
    (h' : Tells id db' db'') : Tells id db db'' :=
  ⟨h.grows.trans h'.grows, fun htold => h'.told (h.told htold)⟩

theorem Tells.of_beside {id : DepositId} {db db' : Db} (h : Beside db.outbox db'.outbox)
    (hstanding : standing db' id = standing db id) : Tells id db db' := by
  refine ⟨h.grows, fun htold => ?_⟩
  obtain ⟨added, hadded, hquiet⟩ := h
  constructor
  · intro envelope hmem htype
    rw [hadded] at hmem
    rcases List.mem_append.mp hmem with hold | hnew
    · exact htold.news envelope hold htype
    · rw [hquiet envelope hnew] at htype
      cases htype
  · have hzero : ∀ value ∈ added.map (postedUnits id), value = 0 := by
      intro value hvalue
      obtain ⟨envelope, hmem, rfl⟩ := List.mem_map.mp hvalue
      exact postedUnits_of_beside id (hquiet envelope hmem)
    rw [hstanding, ← htold.balance, Outbox.sumOf, hadded, List.map_append, List.sum_append,
      List.sum_eq_zero hzero, add_zero]
    rfl

/-- A deposit event which is not lost accounts for the change of the row. -/
theorem Tells.of_news {id : DepositId} {db db' : Db} {envelope : Envelope}
    (henqueue : enqueueEvent db.outbox envelope = .ok db'.outbox)
    (hnews : DepositNews envelope)
    (hstanding : standing db' id = standing db id + postedUnits id envelope)
    (hfresh : postedUnits id envelope ≠ 0 → ¬db.outbox.Has envelope.eventId) :
    Tells id db db' := by
  refine ⟨enqueueEvent_grows henqueue, fun htold => ?_⟩
  rcases enqueueEvent_cases henqueue with ⟨htaken, hsame⟩ | ⟨_, hrows⟩
  · have hzero : postedUnits id envelope = 0 := by
      by_contra hne
      exact hfresh hne htaken
    rw [hzero, add_zero] at hstanding
    exact ⟨hsame ▸ htold.news, by rw [hsame, hstanding, htold.balance]⟩
  · constructor
    · intro other hmem htype
      rw [hrows] at hmem
      rcases List.mem_append.mp hmem with hold | hnew
      · exact htold.news other hold htype
      · rw [List.mem_singleton.mp hnew]
        exact hnews
    · rw [hstanding, ← htold.balance]
      simp [Outbox.sumOf, hrows]

/-! ## The deposit workers -/

theorem Upserted.tells {scope : Scope} {newId : Uuid} {entry : TransferLog} {db db' : Db}
    (h : Upserted scope newId entry db db') (id : DepositId) : Tells id db db' := by
  cases h with
  | inserted proposed hproposed deposits hinsert payload hpayload outbox houtbox =>
      apply Tells.of_beside (Beside.of_enqueue houtbox rfl)
      have hfind := Table.find?_insert? hinsert id
      unfold standing
      dsimp only
      rw [hfind]
      by_cases hid : id = proposed.identity
      · rw [if_pos hid, hid, Table.insert?_free hinsert]
        exact Deposit.standing_of_open (by simp [hproposed.status])
      · rw [if_neg hid]
  | revived proposed hproposed stored hstored hreorged payload hpayload outbox houtbox =>
      have hkey := Table.key_of_find? hstored
      rw [← hkey] at hstored
      apply Tells.of_beside (Beside.of_enqueue houtbox rfl)
      rw [standing_replace hstored (stored.revived entry) rfl rfl]
      split
      next hid =>
        rw [hid, standing_of_find? hstored]
        exact (Deposit.standing_of_open (by simp [hreorged])).symm
      next => rfl
  | known proposed hproposed stored hstored hlive => exact .refl id db

theorem UpsertedAll.tells {scope : Scope} {newId : TransferLog → Uuid}
    {logs : List TransferLog} {db db' : Db} (h : UpsertedAll scope newId logs db db')
    (id : DepositId) : Tells id db db' := by
  induction h with
  | nil db => exact .refl id db
  | cons hfirst hrest ih => exact (hfirst.tells id).trans ih

/-- What was found makes the watcher announce nothing it announced before. -/
def Deposit.FreshAt (settings : Settings) (head : Nat) (outbox : Outbox) (d : Deposit) :
    Option (Nat × ChainHash) → Prop
  | none => d.status = .confirmed → ¬outbox.Has (reorgedEventId d.identity d.blockHash)
  | some (blockNumber, blockHash) =>
    d.ripe settings head blockNumber → ¬outbox.Has (confirmedEventId d.identity blockHash)

instance (settings : Settings) (head : Nat) (outbox : Outbox) (d : Deposit)
    (found : Option (Nat × ChainHash)) :
    Decidable (d.FreshAt settings head outbox found) :=
  match found with
  | none => inferInstanceAs (Decidable (_ → _))
  | some (_, _) => inferInstanceAs (Decidable (_ → _))

theorem Reverified.tells {settings : Settings} {scope : Scope} {head : Nat} {db db' : Db}
    {d : Deposit} {found : Option (Nat × ChainHash)}
    (h : Reverified settings scope head db d found db')
    (hd : db.deposits.find? d.identity = some d) {id : DepositId}
    (hfresh : d.identity = id → d.FreshAt settings head db.outbox found) :
    Tells id db db' := by
  cases h with
  | reorged payload hpayload outbox houtbox =>
      have hpayload' : depositPayload d d.confirmations = .ok payload := hpayload
      have hunits := postedUnits_reorged id scope hpayload'
      apply Tells.of_news houtbox (.reorged scope d d.confirmations payload hpayload')
      · rw [standing_replace hd (d.reorgedAtTime scope.now) rfl rfl, hunits]
        by_cases hid : id = d.identity
        · have hgone : (d.reorgedAtTime scope.now).status ≠ .confirmed := by
            simp [Deposit.reorgedAtTime]
          rw [if_pos hid, hid, standing_of_find? hd, Deposit.standing_of_open hgone]
          by_cases hconfirmed : d.status = .confirmed
          · simp [Deposit.standing, hconfirmed]
          · simp [Deposit.standing, hconfirmed]
        · simp [hid]
      · intro hne
        rw [hunits, ite_ne_right_iff] at hne
        rw [reorgedEvent_eventId]
        exact hfresh hne.1.2.symm hne.1.1
  | confirmed blockNumber blockHash hripe payload hpayload outbox houtbox =>
      have hpayload' : depositPayload (d.movedTo head blockNumber blockHash)
        (head + 1 - blockNumber) = .ok payload := hpayload
      have hunits := postedUnits_confirmed id scope hpayload'
      apply Tells.of_news houtbox (.confirmed scope _ _ payload hpayload')
      · have hidentity : (d.movedTo head blockNumber blockHash).identity = d.identity := rfl
        rw [hidentity] at hunits
        rw [standing_replace hd ((d.movedTo head blockNumber blockHash).confirmedAtTime
          scope.now) rfl rfl, hunits]
        by_cases hid : id = d.identity
        · have hopen : d.status ≠ .confirmed := by simp [hripe.1]
          rw [if_pos hid, if_pos hid, hid, standing_of_find? hd,
            Deposit.standing_of_open hopen, zero_add]
          rfl
        · rw [if_neg hid, if_neg hid, add_zero]
      · intro hne
        rw [hunits, ite_ne_right_iff] at hne
        rw [confirmedEvent_eventId]
        exact hfresh hne.1.symm hripe
  | moved blockNumber blockHash hripe =>
      refine Tells.of_beside ⟨[], by simp, by simp⟩ ?_
      rw [standing_replace hd (d.movedTo head blockNumber blockHash) rfl rfl]
      split
      next hid =>
        rw [hid, standing_of_find? hd]
        rfl
      next => rfl

/-- One of the two events about the deposit, in some block. -/
def EventAbout (id : DepositId) (event : EventId) : Prop :=
  ∃ blockHash, event = confirmedEventId id blockHash ∨ event = reorgedEventId id blockHash

theorem EventAbout.same {id id' : DepositId} {event : EventId} (h : EventAbout id event)
    (h' : EventAbout id' event) : id = id' := by
  obtain ⟨blockHash, h⟩ := h
  obtain ⟨blockHash', h'⟩ := h'
  rcases h with rfl | rfl
  · rcases h' with h' | h'
    · exact (confirmedEventId_inj h').1
    · exact (confirmedEventId_ne_reorged _ _ _ _ h').elim
  · rcases h' with h' | h'
    · exact (confirmedEventId_ne_reorged _ _ _ _ h'.symm).elim
    · exact (reorgedEventId_inj h').1

theorem Deposit.FreshAt.of_outbox {settings : Settings} {head : Nat} {outbox outbox' : Outbox}
    {d : Deposit} {found : Option (Nat × ChainHash)}
    (h : d.FreshAt settings head outbox found)
    (hback : ∀ event, EventAbout d.identity event → outbox'.Has event → outbox.Has event) :
    d.FreshAt settings head outbox' found := by
  cases found with
  | none => exact fun hconfirmed hhas => h hconfirmed (hback _ ⟨_, Or.inr rfl⟩ hhas)
  | some place => exact fun hripe hhas => h hripe (hback _ ⟨_, Or.inl rfl⟩ hhas)

section Loop

variable {adapter : ChainAdapter σ} {settings : Settings} {scope : Scope} {head : Nat}
  {calls : DepositId → LookupCalls σ} {db : Db}

theorem Reverified.has_other {d : Deposit} {found : Option (Nat × ChainHash)} {db' : Db}
    (h : Reverified settings scope head db d found db') {id : DepositId}
    (hid : id ≠ d.identity) {event : EventId} (hevent : EventAbout id event)
    (hhas : db'.outbox.Has event) : db.outbox.Has event := by
  cases h with
  | reorged payload hpayload outbox houtbox =>
      rcases enqueueEvent_has_cases houtbox hhas with hold | rfl
      · exact hold
      · rw [reorgedEvent_eventId] at hevent
        exact (hid (hevent.same ⟨_, Or.inr rfl⟩)).elim
  | confirmed blockNumber blockHash hripe payload hpayload outbox houtbox =>
      rcases enqueueEvent_has_cases houtbox hhas with hold | rfl
      · exact hold
      · rw [confirmedEvent_eventId] at hevent
        exact (hid (hevent.same ⟨_, Or.inl rfl⟩)).elim
  | moved blockNumber blockHash hripe => exact hhas

theorem reverify_has_other {key id : DepositId} (hid : id ≠ key) {event : EventId}
    (hevent : EventAbout id event)
    (hhas : (reverify adapter settings scope (calls key) head key db).2.outbox.Has event) :
    db.outbox.Has event := by
  rcases reverify_cases adapter settings scope (calls key) head key db with
    hraised | ⟨_, hgone⟩ | ⟨d, found, verdict, db', hd, _, hreverified, hreturned⟩
  · rwa [hraised] at hhas
  · rwa [hgone] at hhas
  · rw [hreturned] at hhas
    rw [← Table.key_of_find? hd] at hid
    exact hreverified.has_other hid hevent hhas

/-- The watcher announces nothing about the deposit which it announced before. -/
def FreshFor (adapter : ChainAdapter σ) (settings : Settings) (calls : LookupCalls σ)
    (head : Nat) (id : DepositId) (db : Db) : Prop :=
  ∀ d ∈ db.deposits.find? id, ∀ found ∈ (locate adapter calls d).toOption,
    d.FreshAt settings head db.outbox found

instance (adapter : ChainAdapter σ) (settings : Settings) (calls : LookupCalls σ)
    (head : Nat) (id : DepositId) (db : Db) :
    Decidable (FreshFor adapter settings calls head id db) :=
  inferInstanceAs (Decidable (∀ _ ∈ _, ∀ _ ∈ _, _))

theorem reverify_tells {key id : DepositId}
    (hfresh : key = id → FreshFor adapter settings (calls key) head key db) :
    Tells id db (reverify adapter settings scope (calls key) head key db).2 := by
  rcases reverify_cases adapter settings scope (calls key) head key db with
    hraised | ⟨_, hgone⟩ | ⟨d, found, verdict, db', hd, hfound, hreverified, hreturned⟩
  · rw [hraised]
    exact .refl id db
  · rw [hgone]
    exact .refl id db
  · rw [hreturned]
    have hkey := Table.key_of_find? hd
    subst hkey
    apply hreverified.tells hd
    intro hid
    apply hfresh hid d hd found
    rw [hfound]
    rfl

theorem reverifyAll_tells {ids : List DepositId} (hnodup : ids.Nodup) {id : DepositId}
    (hfresh : id ∈ ids → FreshFor adapter settings (calls id) head id db) :
    Tells id db (reverifyAll adapter settings scope calls head ids db).2 := by
  apply visitAll_relies (I := Tells id db)
    (P := fun key db => key = id → FreshFor adapter settings (calls key) head key db)
    ?_ ?_ hnodup (.refl id db)
  · rintro key hkey rfl
    exact hfresh hkey
  · intro key other before hother hbefore hid d hd found hfound
    have hsame : (reverify adapter settings scope (calls key) head key
        before).2.deposits.find? other = before.deposits.find? other :=
      reverify_ownRow adapter settings scope calls head key other before hother
    rw [hsame] at hd
    apply (hbefore hid d hd found hfound).of_outbox
    intro event hevent hhas
    rw [Table.key_of_find? hd] at hevent
    exact reverify_has_other hother hevent hhas
  · intro key before hbefore hrow
    exact hbefore.trans (reverify_tells hrow)

end Loop

/-! ## The other workers -/

/-- The deposits are left alone. -/
structure Apart (db db' : Db) : Prop where
  deposits : db'.deposits = db.deposits
  outbox : Beside db.outbox db'.outbox

theorem Apart.refl (db : Db) : Apart db db := ⟨rfl, .refl db.outbox⟩

theorem Apart.trans {db db' db'' : Db} (h : Apart db db') (h' : Apart db' db'') :
    Apart db db'' :=
  ⟨h'.deposits.trans h.deposits, h.outbox.trans h'.outbox⟩

theorem Apart.tells {db db' : Db} (h : Apart db db') (id : DepositId) : Tells id db db' :=
  .of_beside h.outbox (by rw [standing, standing, h.deposits])

theorem Apart.saved (db : Db) (record : OutgoingTransaction) : Apart db (db.saved record) :=
  ⟨rfl, .refl db.outbox⟩

theorem Apart.of_announces {db db' : Db} {record : OutgoingTransaction} {envelope : Envelope}
    (h : db.Announces record envelope db')
    (htype : postsDeposit envelope.eventType = false) : Apart db db' := by
  obtain ⟨outbox, houtbox, rfl⟩ := h
  exact ⟨rfl, .of_enqueue houtbox htype⟩

theorem Accepted.apart {scope : Scope} {payload : Payload} {correlationId : String}
    {db db' : Db} (h : Accepted scope payload correlationId db db') : Apart db db' := by
  cases h with
  | duplicate record hproposed htaken => exact .refl db
  | accepted record hproposed hknown outgoing hinsert => exact ⟨rfl, .refl db.outbox⟩
  | unknown record hproposed hunknown outgoing hinsert failed hpayload db' hannounces =>
      have hinserted : Apart db { db with outgoing } := ⟨rfl, .refl db.outbox⟩
      exact hinserted.trans (.of_announces hannounces rfl)

theorem dispatch_apart (scope : Scope) (envelope : Envelope) (db : Db) :
    Apart db (commit (dispatch scope envelope) db).2 := by
  apply commit_preserves (I := Apart db) (.refl db)
  apply (dispatch_ensures scope envelope db).mono
  · intro _ db' hdispatched
    cases hdispatched with
    | duplicate => exact .refl db
    | ignored processedEvents => exact ⟨rfl, .refl db.outbox⟩
    | accepted processedEvents hrequested db' haccepted =>
        have hclaimed : Apart db { db with processedEvents } := ⟨rfl, .refl db.outbox⟩
        exact hclaimed.trans haccepted.apart
  · exact fun _ _ => trivial

theorem Answered.apart {settings : Settings} {scope : Scope} {row record : OutgoingTransaction}
    {answer : Except ChainError ChainHash} {db db' : Db}
    (h : Answered settings scope row db record answer db') : Apart db db' := by
  cases h with
  | closed txHash hstatus => exact .refl db
  | broadcast txHash hopen payload hpayload db' hannounces => exact .of_announces hannounces rfl
  | confirmed answer habandoned hstatus => exact .refl db
  | failed answer habandoned hopen reason code payload hpayload db' hannounces =>
      exact .of_announces hannounces rfl
  | retried answer hretriable reason => exact .saved db _

theorem Checked.apart {settings : Settings} {scope : Scope} {head : Nat} {seen : SeenRecord}
    {record : OutgoingTransaction} {receipt : Option TxReceipt} {db db' : Db}
    (h : Checked settings scope head seen db record receipt db') : Apart db db' := by
  cases h with
  | reverted receipt hreverted hopen payload hpayload db' hannounces =>
      exact .of_announces hannounces rfl
  | confirmed receipt hripe payload hpayload db' hannounces => exact .of_announces hannounces rfl
  | mined receipt hreverted hripe => exact .saved db _
  | reorged hseen payload hpayload dedupeKey db' hannounces => exact .of_announces hannounces rfl
  | waiting hseen hstuck => exact .refl db
  | requeued hseen hstuck hattempts => exact .saved db _
  | abandoned hseen hstuck hattempts reason payload hpayload db' hannounces =>
      exact .of_announces hannounces rfl

theorem broadcastOnce_apart (adapter : ChainAdapter σ) (settings : Settings) (scope : Scope)
    (limit : Nat) (chain : σ) (db : Db) :
    Apart db (broadcastOnce adapter settings scope limit chain db).2.2 := by
  apply visitAll_preserves (I := fun state : σ × Db => Apart db state.2)
  · intro row hrow state hstate
    apply hstate.trans
    apply commit_preserves (I := Apart state.2) (.refl state.2)
    apply (broadcastTx_ensures settings _ row _ state.2).mono
    · rintro _ db' (⟨_, hsame⟩ | ⟨record, _, hanswered⟩)
      · rw [hsame]
        exact .refl state.2
      · exact hanswered.apart
    · exact fun _ _ => trivial
  · exact ⟨rfl, .refl db.outbox⟩

theorem watchOutgoingOnce_apart (adapter : ChainAdapter σ) (settings : Settings)
    (scope : Scope) (headCall : σ) (calls : Uuid → σ) (db : Db) :
    Apart db (watchOutgoingOnce adapter settings scope headCall calls db).2 := by
  unfold watchOutgoingOnce
  cases hhead : adapter.getBlockNumber headCall with
  | error e => cases e <;> exact .refl db
  | ok head =>
      apply visitAll_preserves (I := Apart db)
      · intro transferId hmem before hbefore
        apply hbefore.trans
        rcases checkOne_cases adapter settings scope (calls transferId) head transferId before
          with hraised | ⟨_, hskipped⟩ |
            ⟨record, seen, receipt, outcome, db', _, _, _, hchecked, hreturned⟩
        · rw [hraised]
          exact .refl before
        · rw [hskipped]
          exact .refl before
        · rw [hreturned]
          exact hchecked.apart
      · exact .refl db

/-! ## A task of the service -/

inductive ServiceTask (σ : Type) where
  | deposits (task : DepositTask σ)
  | request (scope : Scope) (envelope : Envelope)
  | broadcast (scope : Scope) (limit : Nat) (chain : σ)
  | watchOutgoing (scope : Scope) (headCall : σ) (calls : Uuid → σ)
  | relay (relaySettings : RelaySettings) (now : Nat) (publishError : EventId → Option String)

def ServiceTask.run (adapter : ChainAdapter σ) (settings : Settings) (task : ServiceTask σ)
    (db : Db) : Db :=
  match task with
  | .deposits task => task.run adapter settings db
  | .request scope envelope => (commit (dispatch scope envelope) db).2
  | .broadcast scope limit chain => (broadcastOnce adapter settings scope limit chain db).2.2
  | .watchOutgoing scope headCall calls =>
    (watchOutgoingOnce adapter settings scope headCall calls db).2
  | .relay relaySettings now publishError =>
    { db with outbox := (relayOnce relaySettings now publishError db.outbox).1 }

/-- A run of the watcher does not find the deposit to be confirmed in a block in which it
was confirmed before, nor, when it is confirmed, to be gone from a block from which it
was gone before. -/
def ServiceTask.Fresh (adapter : ChainAdapter σ) (settings : Settings) (id : DepositId)
    (db : Db) : ServiceTask σ → Prop
  | .deposits (.watch _ headCall calls) =>
    id ∈ listedDeposits adapter settings headCall db →
      ∀ head ∈ (adapter.getBlockNumber headCall).toOption,
        FreshFor adapter settings (calls id) head id db
  | _ => True

instance (adapter : ChainAdapter σ) (settings : Settings) (id : DepositId) (db : Db)
    (task : ServiceTask σ) : Decidable (task.Fresh adapter settings id db) :=
  match task with
  | .deposits (.watch _ _ _) => inferInstanceAs (Decidable (_ → ∀ _ ∈ _, _))
  | .deposits (.scan _ _ _) => .isTrue trivial
  | .deposits (.issueAddress _ _ _) => .isTrue trivial
  | .request _ _ => .isTrue trivial
  | .broadcast _ _ _ => .isTrue trivial
  | .watchOutgoing _ _ _ => .isTrue trivial
  | .relay _ _ _ => .isTrue trivial

theorem DepositTask.run_tells {adapter : ChainAdapter σ} {settings : Settings}
    {id : DepositId} {db : Db} (task : DepositTask σ)
    (hfresh : (ServiceTask.deposits task).Fresh adapter settings id db) :
    Tells id db (task.run adapter settings db) := by
  cases task with
  | issueAddress ownerRef network generated =>
      apply commit_preserves (I := Tells id db) (.refl id db)
      apply (getOrCreateAddress_ensures ownerRef network generated db).mono
      · rintro _ db' ⟨addresses, rfl, _⟩
        exact Tells.of_beside ⟨[], by simp, by simp⟩ rfl
      · exact fun _ h => h
  | scan scope newId calls =>
      show Tells id db (scanOnce adapter settings scope newId calls db).2
      rcases scanOnce_cases adapter settings scope newId calls db with
        ⟨hsame, _⟩ | ⟨plan, mid, _, hmid, hresult⟩
      · rw [hsame]
        exact .refl id db
      · rw [hresult]
        have hcursor : Tells id mid (mid.moveCursor (plan.state settings)) :=
          Tells.of_beside ⟨[], by simp [Db.moveCursor], by simp⟩ rfl
        exact (hmid.tells id).trans hcursor
  | watch scope headCall calls =>
      show Tells id db (watchDepositsOnce adapter settings scope headCall calls db).2
      rcases watchDepositsOnce_cases adapter settings scope headCall calls db with
        hsame | ⟨head, hhead, hpositive, hresult⟩
      · rw [hsame]
        exact .refl id db
      · rw [hresult]
        apply reverifyAll_tells (watchlist_nodup settings head db)
        intro hmem
        apply hfresh
        · simpa [listedDeposits, hhead, hpositive] using hmem
        · rw [hhead]
          rfl

theorem ServiceTask.run_tells {adapter : ChainAdapter σ} {settings : Settings}
    {id : DepositId} {db : Db} (task : ServiceTask σ)
    (hfresh : task.Fresh adapter settings id db) :
    Tells id db (task.run adapter settings db) := by
  cases task with
  | deposits task => exact task.run_tells hfresh
  | request scope envelope => exact (dispatch_apart scope envelope db).tells id
  | broadcast scope limit chain =>
      exact (broadcastOnce_apart adapter settings scope limit chain db).tells id
  | watchOutgoing scope headCall calls =>
      exact (watchOutgoingOnce_apart adapter settings scope headCall calls db).tells id
  | relay relaySettings now publishError =>
      refine Tells.of_beside ⟨[], ?_, by simp⟩ rfl
      rw [List.append_nil]
      exact relayOnce_envelopes relaySettings now publishError db.outbox

end CryptoWallet.Blockchain
