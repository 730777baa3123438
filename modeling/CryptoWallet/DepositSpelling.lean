import CryptoWallet.DepositEvents
import CryptoWallet.PromotedDeposits

/-!
# The spelling of the address of a deposit

The chain and the scanner match addresses whatever their letter case is.  The
wallet looks the address of an event up as it is spelled, so a deposit is
credited if and only if the chain reports the address as it was issued.
-/

namespace CryptoWallet

open Tx
open Blockchain (Deposit depositPayload proposedDeposit confirmedEvent)
open Wallet (Directory Moved Posting WalletRow ensureBalance ensureBalance_ensures
  insertEntry insertEntry_ensures lockBalance lockBalance_ensures updateBalance)

/-! ## Nothing stops a credit -/

section Succeeds

variable {db : Wallet.Db} {userId : Int} {asset : Varchar 16}

theorem ensureBalance_succeeds (huser : ∃ user, db.users.find? userId = some user) :
    Ensures (ensureBalance userId asset.val) db (fun _ _ => True) fun _ => False := by
  unfold ensureBalance
  rw [varchar_ok asset.property.1 asset.property.2]
  apply Ensures.orRaise_bind ?_ (fun _ he => by cases he)
  intro stored _
  apply Ensures.query_bind
  cases hfind : db.balances.find? (userId, stored.val) with
  | some b => exact Ensures.pure trivial
  | none =>
      obtain ⟨user, huser⟩ := huser
      apply Ensures.query_bind
      rw [huser]
      exact Ensures.modifyDb trivial

theorem lockBalance_succeeds (huser : ∃ user, db.users.find? userId = some user) :
    Ensures (lockBalance userId asset.val) db
      (fun b db' => Moved db db' [] 0 ∧ db'.balances.find? (userId, asset.val) = some b)
      fun _ => False := by
  have hensure := (ensureBalance_succeeds huser).and
    (ensureBalance_ensures db userId asset.val)
  unfold lockBalance
  apply Ensures.bind (hensure.mono (fun _ _ h => h) fun _ h => h.1)
  rintro _ db₁ ⟨_, hmoved, stored, hstored, b, hb⟩
  rw [varchar_eq asset.property.1 hstored] at hb
  apply Ensures.query_bind
  rw [hb]
  apply Ensures.lockRow_bind
  exact Ensures.pure ⟨hmoved, hb⟩

theorem insertEntry_succeeds {scope : Scope} {posting : Posting}
    (huser : ∃ user, db.users.find? posting.userId = some user)
    (hamount : posting.amount ≠ 0) {reference : Varchar 200}
    (hreference : varchar 200 posting.referenceId = .ok reference)
    {correlationId : Option String} (hcorrelation : Wallet.bindCorrelation scope =
      .ok correlationId) :
    Ensures (insertEntry scope asset.val posting) db (fun _ _ => True) fun _ => False := by
  unfold insertEntry
  rw [varchar_ok asset.property.1 asset.property.2, hreference, hcorrelation]
  apply Ensures.orRaise_bind ?_ (fun _ he => by cases he)
  intro stored _
  apply Ensures.orRaise_bind ?_ (fun _ he => by cases he)
  intro reference' _
  apply Ensures.orRaise_bind ?_ (fun _ he => by cases he)
  intro correlationId' _
  rw [dif_pos hamount]
  apply Ensures.query_bind
  split
  next => exact Ensures.pure trivial
  next ledger _ =>
    obtain ⟨user, huser⟩ := huser
    apply Ensures.query_bind
    rw [huser]
    apply Ensures.modifyDb_bind
    exact Ensures.pure trivial

/-- A movement which the available balance covers breaks no CHECK constraint. -/
theorem updateBalance_succeeds {b : Wallet.Balance} {amount : Int}
    (hcovered : 0 ≤ b.posted + amount - b.reserved)
    (hb : db.balances.find? (userId, asset.val) = some b) :
    Ensures (updateBalance (userId, asset.val) (fun _ => true)
      (fun b => b.posted + amount) fun b => b.reserved) db (fun _ _ => True)
      fun _ => False := by
  have hupdated : ∃ b', b.updated (b.posted + amount) b.reserved = .ok b' := by
    unfold Wallet.Balance.updated
    rw [dif_pos hcovered, dif_pos b.reservedNonNegative]
    exact ⟨_, rfl⟩
  obtain ⟨b', hb'⟩ := hupdated
  unfold updateBalance
  apply Ensures.query_bind
  simp only [hb, if_true, hb']
  apply Ensures.lockRow_bind
  apply Ensures.orRaise_bind ?_ (fun _ he => by cases he)
  intro _ _
  apply Ensures.modifyDb_bind
  exact Ensures.pure trivial

theorem postDeposit_succeeds {scope : Scope} {posting : Posting}
    (huser : ∃ user, db.users.find? posting.userId = some user)
    (hamount : posting.amount ≠ 0)
    (hcovered : 0 ≤ db.availableOf (posting.userId, asset.val) + posting.amount)
    {reference : Varchar 200} (hreference : varchar 200 posting.referenceId = .ok reference)
    {correlationId : Option String} (hcorrelation : Wallet.bindCorrelation scope =
      .ok correlationId) :
    Ensures (Wallet.postDeposit scope (.str asset.val) posting) db (fun _ _ => True)
      fun _ => False := by
  have hentry : Ensures (Wallet.postEntry scope asset.val posting) db (fun _ _ => True)
      fun _ => False := by
    unfold Wallet.postEntry
    apply Ensures.bind (lockBalance_succeeds huser)
    rintro b db₁ ⟨hmoved, hb⟩
    have huser₁ : ∃ user, db₁.users.find? posting.userId = some user := by
      rw [hmoved.frame.users]
      exact huser
    have havailable : 0 ≤ b.posted + posting.amount - b.reserved := by
      have hsame := hmoved.available (posting.userId, asset.val)
      simp only [Wallet.entriesSum_nil, Pi.zero_apply] at hsame
      rw [Wallet.Db.availableOf, Wallet.Db.postedOf_of_find hb,
        Wallet.Db.reservedOf_of_find hb] at hsame
      omega
    have hinsert := (insertEntry_succeeds huser₁ hamount hreference hcorrelation).and
      (insertEntry_ensures db₁ scope asset.property.1 posting)
    apply Ensures.bind (hinsert.mono (fun _ _ h => h) fun _ h => h.1)
    rintro inserted db₂ ⟨_, e, _, ⟨rfl, rfl, _⟩ | ⟨rfl, ledger, _, rfl⟩⟩
    · exact Ensures.pure trivial
    · have hb₂ : ({ db₁ with ledger } : Wallet.Db).balances.find?
          (posting.userId, asset.val) = some b := hb
      apply Ensures.bind (updateBalance_succeeds havailable hb₂)
      intro _ _ _
      exact Ensures.pure trivial
  have hasset : Wallet.assetText (.str asset.val) = .ok asset.val := by
    simp [Wallet.assetText, bindText, bindString, asset.property.2, Except.map, bind,
      Except.bind]
  unfold Wallet.postDeposit
  rw [hasset]
  refine Ensures.orRaise_ok ?_
  have hentries : Ensures (Wallet.postEntries scope asset.val [posting]) db
      (fun _ _ => True) fun _ => False := by
    apply Ensures.bind hentry
    intro _ _ _
    exact Ensures.pure trivial
  apply Ensures.bind hentries
  intro _ _ _
  exact Ensures.pure trivial

end Succeeds

/-! ## The event of one deposit -/

section Event

variable {db : Wallet.Db} {d : Deposit} {confirmations : Nat} {payload : Payload}

theorem reference_nul_not_mem (d : Deposit) (blockHash : ChainHash) :
    '\x00' ∉ (DepositId.inBlock d.identity blockHash).toList := by
  have hnetwork := d.network.property.2
  have htxHash := d.txHash.nul_not_mem
  have hblockHash := blockHash.nul_not_mem
  have hindex : '\x00' ∉ Nat.toDigits 10 d.logIndex := by
    intro hmem
    have hdigit : ('\x00').isDigit = true :=
      Nat.isDigit_of_mem_toDigits (by omega) (by omega) hmem
    revert hdigit
    decide
  simp [DepositId.inBlock_toList, DepositId.text_toList, Deposit.identity, hnetwork,
    htxHash, hblockHash, hindex]

theorem walletByAddress_succeeds {address : String} (haddress : '\x00' ∉ address.toList) :
    Ensures (Wallet.walletByAddress (.str address)) db
      (fun wallet db' => db' = db ∧ wallet = db.wallets.rows.find? (·.address = address))
      fun _ => False := by
  have hbound : bindText (.str address) = .ok (some address) := by
    simp [bindText, bindString, haddress, Except.map]
  unfold Wallet.walletByAddress
  rw [hbound]
  refine Ensures.orRaise_ok ?_
  exact Ensures.query ⟨rfl, rfl⟩

theorem entryPosting_succeeds {wallet : WalletRow} {scope : Scope}
    {correlationId : Option String}
    (howner : ∃ user, db.users.find? wallet.userId = some user)
    (entryType : Wallet.EntryType) {amount : Int} (hamount : amount ≠ 0)
    (hcovered : 0 ≤ db.availableOf (wallet.userId, d.asset.val) + amount)
    (hcorrelation : Wallet.bindCorrelation scope = .ok correlationId) :
    Ensures (Wallet.postDeposit scope (.str d.asset.val) ⟨wallet.userId, amount, entryType,
      .deposit, DepositId.inBlock d.identity d.blockHash⟩) db (fun _ _ => True)
      fun _ => False := by
  have hstored := varchar_ok (reference_length d d.blockHash)
    (reference_nul_not_mem d d.blockHash)
  let posting : Posting := ⟨wallet.userId, amount, entryType, .deposit,
    DepositId.inBlock d.identity d.blockHash⟩
  have hposting : Ensures (Wallet.postDeposit scope (.str d.asset.val) posting) db
      (fun _ _ => True) fun _ => False :=
    postDeposit_succeeds howner hamount hcovered hstored hcorrelation
  exact hposting

theorem creditDeposit_succeeds
    (howners : ∀ wallet, db.wallets.rows.find? (·.address = d.toAddress.val) = some wallet →
      ∃ user, db.users.find? wallet.userId = some user)
    (hpayload : depositPayload d confirmations = .ok payload) {scope : Scope}
    {correlationId : Option String}
    (hcorrelation : Wallet.bindCorrelation scope = .ok correlationId) :
    Ensures (Wallet.creditDeposit scope payload) db (fun _ _ => True) fun _ => False := by
  obtain ⟨hcarries, hreference⟩ := depositPayload_carries hpayload
  have hamount : pyIntOf (.str (toString (d.amount : Int))) = .ok (d.amount : Int) := by
    simp only [pyIntOf, Json.toInt?, pyInt_toString d.amountFits]
  unfold Wallet.creditDeposit
  rw [hcarries.toAddress]
  refine Ensures.orRaise_ok ?_
  apply Ensures.bind (walletByAddress_succeeds d.toAddress.property.2)
  rintro _ db' ⟨rfl, rfl⟩
  split
  next => exact Ensures.pure trivial
  next wallet hwallet =>
    have howner := howners wallet hwallet
    rw [hcarries.amountUnits]
    refine Ensures.orRaise_ok ?_
    rw [hamount]
    refine Ensures.orRaise_ok ?_
    rw [hcarries.asset]
    refine Ensures.orRaise_ok ?_
    rw [hreference]
    refine Ensures.orRaise_ok ?_
    have hpositive := d.amountPositive
    have havailable := Wallet.Db.availableOf_nonneg db' (wallet.userId, d.asset.val)
    exact entryPosting_succeeds howner .deposit (by omega) (by omega) hcorrelation

theorem depositCorrelation_fits (txHash : ChainHash) :
    Blockchain.depositCorrelation txHash ≠ "" ∧
      ∃ stored, varchar 64 (Blockchain.depositCorrelation txHash) = .ok stored := by
  have hlist : (Blockchain.depositCorrelation txHash).toList =
      "dep-".toList ++ (txHash.val.toList.drop 2).take 12 := by
    simp [Blockchain.depositCorrelation]
  constructor
  · intro hempty
    rw [hempty] at hlist
    simp at hlist
  · have hlength : (Blockchain.depositCorrelation txHash).length ≤ 64 := by
      rw [← String.length_toList, hlist, List.length_append, List.length_take]
      have hdep : "dep-".toList.length = 4 := rfl
      omega
    have hnul : '\x00' ∉ (Blockchain.depositCorrelation txHash).toList := by
      rw [hlist, List.mem_append, not_or]
      refine ⟨by decide, ?_⟩
      intro hmem
      exact txHash.nul_not_mem (List.mem_of_mem_drop (List.mem_of_mem_take hmem))
    exact ⟨_, varchar_ok hlength hnul⟩

theorem confirmedEvent_correlationId (scope : Scope) (d : Deposit) (payload : Payload) :
    (confirmedEvent scope d payload).correlationId =
      Blockchain.depositCorrelation d.txHash := by
  have hfilter : (some (Blockchain.depositCorrelation d.txHash)).filter (· ≠ "") =
      some (Blockchain.depositCorrelation d.txHash) := by
    simp [Option.filter, (depositCorrelation_fits d.txHash).1]
  simp only [confirmedEvent, Blockchain.depositEvent, newEvent, hfilter]

theorem claimEvent_succeeds {envelope : Envelope} {name : String}
    (hid : envelope.eventId = .uuid5 name)
    (htype : ∃ stored, varchar 64 envelope.eventType.name = .ok stored)
    (hfresh : ¬db.Recorded envelope.eventId) :
    Ensures (Wallet.claimEvent envelope) db
      (fun claimed db' => claimed = true ∧ ∃ processedEvents, db' = { db with processedEvents })
      fun _ => False := by
  obtain ⟨stored, hstored⟩ := htype
  have hinsert : ∃ processedEvents, db.processedEvents.insert?
      ⟨Wallet.consumerName, envelope.eventId, envelope.eventType⟩ = some processedEvents := by
    cases hinsert : db.processedEvents.insert?
        ⟨Wallet.consumerName, envelope.eventId, envelope.eventType⟩ with
    | none => exact (hfresh ((db.processedEvents.insert?_eq_none_iff _).mp hinsert)).elim
    | some processedEvents => exact ⟨processedEvents, rfl⟩
  obtain ⟨processedEvents, hinsert⟩ := hinsert
  unfold Wallet.claimEvent
  rw [hid] at hinsert ⊢
  rw [hstored]
  apply Ensures.orRaise_bind ?_ (fun _ he => by cases he)
  intro _ _
  apply Ensures.query_bind
  rw [hinsert]
  apply Ensures.modifyDb_bind
  exact Ensures.pure ⟨rfl, processedEvents, rfl⟩

/-- A deposit event is claimed and posted in one transaction which does not fail. -/
theorem dispatch_confirmed (hdirectory : Directory db)
    (hpayload : depositPayload d confirmations = .ok payload) (scope scope' : Scope)
    (hfresh : ¬db.Recorded (Blockchain.confirmedEventId d.identity d.blockHash)) :
    ∃ outcome db' processedEvents,
      commit (Wallet.dispatch scope (confirmedEvent scope' d payload)) db =
        (.ok outcome, db') ∧
      PostsFor d .deposit d.amount d.blockHash { db with processedEvents } db' := by
  obtain ⟨hcarries, hreference⟩ := depositPayload_carries hpayload
  obtain ⟨hcorrelation, stored, hstored⟩ := depositCorrelation_fits d.txHash
  have hbind : Wallet.bindCorrelation
      (Wallet.deliveryScope scope (confirmedEvent scope' d payload)) =
        .ok (some stored.val) := by
    simp only [Wallet.bindCorrelation, Wallet.deliveryScope, confirmedEvent_correlationId,
      if_neg hcorrelation, hstored, Except.map]
  have hid := Blockchain.confirmedEvent_eventId scope' d payload
  have htype : ∃ stored, varchar 64 (EventType.name .depositConfirmed) = .ok stored :=
    ⟨_, varchar_ok (by decide) (by decide)⟩
  have hdispatch : Ensures (Wallet.dispatch scope (confirmedEvent scope' d payload)) db
      (fun _ db' => ∃ processedEvents,
        PostsFor d .deposit d.amount d.blockHash { db with processedEvents } db')
      fun _ => False := by
    unfold Wallet.dispatch
    apply Ensures.bind (claimEvent_succeeds hid htype (hid ▸ hfresh))
    rintro _ _ ⟨rfl, processedEvents, rfl⟩
    have howners : ∀ wallet, ({ db with processedEvents } : Wallet.Db).wallets.rows.find?
        (·.address = d.toAddress.val) = some wallet →
        ∃ user, db.users.find? wallet.userId = some user :=
      fun wallet hwallet => hdirectory.owners wallet (List.mem_of_find?_eq_some hwallet)
    have hclaimed : Ensures (Wallet.creditDeposit (Wallet.deliveryScope scope
        (confirmedEvent scope' d payload)) payload) { db with processedEvents }
        (fun _ _ => True) fun _ => False :=
      creditDeposit_succeeds howners hpayload hbind
    have hcredit := hclaimed.and
      (creditDeposit_posts hcarries hreference)
    apply hcredit.mono
    · exact fun _ db' hposts => ⟨processedEvents, hposts.2⟩
    · exact fun _ h => h.1
  obtain ⟨outcome, db', hcommit, processedEvents, hposts⟩ := hdispatch.commit_returns
  exact ⟨outcome, db', processedEvents, hcommit, hposts⟩

end Event

/-! ## Who is credited -/

/-- The user gets the amount, and the ledger says for which deposit. -/
def Credited (w : WalletRow) (asset reference : String) (amount : Int)
    (db db' : Wallet.Db) : Prop :=
  db'.postedOf (w.userId, asset) = db.postedOf (w.userId, asset) + amount ∧
    ∃ e ∈ db'.ledger.rows, e.userId = w.userId ∧ e.asset = asset ∧ e.amount = amount ∧
      e.entryType = .deposit ∧ e.referenceType = .deposit ∧ e.referenceId = reference

/-- The event of the deposit was not handled, and the ledger has no entry for it. -/
def Unseen (d : Deposit) (db : Wallet.Db) : Prop :=
  ¬db.Recorded (Blockchain.confirmedEventId d.identity d.blockHash) ∧
    ∀ e ∈ db.ledger.rows, e.referenceId ≠ DepositId.inBlock d.identity d.blockHash

instance (d : Deposit) (db : Wallet.Db) : Decidable (Unseen d db) :=
  inferInstanceAs (Decidable (
    ¬db.Recorded (Blockchain.confirmedEventId d.identity d.blockHash) ∧
      ∀ e ∈ db.ledger.rows, e.referenceId ≠ DepositId.inBlock d.identity d.blockHash))

theorem PostsFor.credited {d : Deposit} {w : WalletRow} {db db' : Wallet.Db}
    (h : PostsFor d .deposit d.amount d.blockHash db db')
    (hwallet : db.wallets.rows.find? (·.address = d.toAddress.val) = some w)
    (hfresh : ∀ e ∈ db.ledger.rows,
      e.referenceId ≠ DepositId.inBlock d.identity d.blockHash) :
    Credited w d.asset.val (DepositId.inBlock d.identity d.blockHash) d.amount db db' := by
  rcases h with ⟨hnone, _⟩ | ⟨w', e, hw', hentry, hmoved⟩
  · rw [hwallet] at hnone
    cases hnone
  rw [hwallet, Option.some.injEq] at hw'
  subst hw'
  have hfree : e.key ∉ db.entryKeys := by
    intro hmem
    obtain ⟨row, hrow, hkey⟩ := List.mem_map.mp hmem
    have hreference : row.referenceId = e.referenceId := congrArg (·.2.2.2) hkey
    exact hfresh row hrow (hreference.trans hentry.referenceId)
  have hwritten : Wallet.unabsorbed db.entryKeys [e] = [e] := by
    simp [Wallet.unabsorbed, hfree]
  rw [hwritten] at hmoved
  constructor
  · have haccount : e.account = (w.userId, d.asset.val) := by
      rw [Wallet.LedgerEntry.account, hentry.userId, hentry.asset]
    rw [hmoved.posted]
    simp [haccount, hentry.amount]
  · refine ⟨e, ?_, hentry.userId, hentry.asset, hentry.amount, hentry.entryType,
      hentry.referenceType, hentry.referenceId⟩
    rw [hmoved.ledger]
    simp

/-- A deposit to an address in custody is credited to the owner of its wallet if and
only if the chain spells the address as it was issued.  The spelling of an issued
address is determined by its letters in lower case. -/
theorem credited_iff_spelled_as_issued {config : Wallet.Config} {steps : List Wallet.Step}
    {w : WalletRow} (hw : w ∈ (Wallet.run config steps).wallets.rows)
    (letterCase : LetterCase) (spelling : String → String)
    (hissued : ∀ row ∈ (Wallet.run config steps).wallets.rows,
      row.address = spelling (letterCase.lower row.address))
    {entry : TransferLog} (haddress : letterCase.lower entry.toAddress =
      letterCase.lower w.address) (hfits : entry.toAddress.length ≤ 64)
    {newId : Uuid} {row d : Deposit} (hrow : proposedDeposit newId entry = .ok row)
    (hsame : row.SameLog d) {confirmations : Nat} {payload : Payload}
    (hpayload : depositPayload d confirmations = .ok payload)
    (hunseen : Unseen d (Wallet.run config steps)) (scope scope' : Scope) :
    Credited w d.asset.val (DepositId.inBlock d.identity d.blockHash) entry.amount
        (Wallet.run config steps)
        (commit (Wallet.dispatch scope (confirmedEvent scope' d payload))
          (Wallet.run config steps)).2 ↔
      entry.toAddress = w.address := by
  have hdirectory := Wallet.run_directory config steps
  generalize Wallet.run config steps = db at *
  have hproposes := Blockchain.proposedDeposit_ok hrow
  have hto : d.toAddress.val = entry.toAddress := by
    rw [hsame.toAddress]
    exact varchar_eq hfits hproposes.toAddress
  have hamount : d.amount = entry.amount := hsame.amount.trans hproposes.amount
  obtain ⟨outcome, db', processedEvents, hcommit, hposts⟩ :=
    dispatch_confirmed hdirectory hpayload scope scope' hunseen.1
  rw [hcommit]
  constructor
  · rintro ⟨hposted, _⟩
    by_contra hspelled
    have hpositive := d.amountPositive
    rcases hposts with ⟨_, rfl⟩ | ⟨w', _, hw', _, _⟩
    · have hsamePosted : ({ db with processedEvents } : Wallet.Db).postedOf
          (w.userId, d.asset.val) = db.postedOf (w.userId, d.asset.val) := rfl
      simp only at hposted
      omega
    · have hmem : w' ∈ db.wallets.rows := List.mem_of_find?_eq_some hw'
      have haddress' : w'.address = entry.toAddress := by
        have hfound := List.find?_some hw'
        simpa [hto] using hfound
      apply hspelled
      rw [← haddress', hissued w' hmem, haddress', haddress, ← hissued w hw]
  · intro hspelled
    have hfound := hdirectory.find?_address hw
    rw [← hspelled, ← hto] at hfound
    rw [← hamount]
    exact hposts.credited hfound hunseen.2

/-! ### One deposit in two spellings -/

/-- A user with a wallet at the address in custody. -/
def registeredSteps : List Wallet.Step :=
  [.createUser 1 "Alice" "alice@example.com",
    .attachWallet (someUuid 1) 1 "BSC" "USDT"
      Blockchain.custodyAddress.address.val]

@[irreducible] def registeredDb : Wallet.Db := Wallet.run Wallet.spentConfig registeredSteps

/-- A transfer of 500 units to the address, as the chain spells it. -/
def spelledLog (toAddress : String) : TransferLog :=
  Blockchain.payoutLog .alone 0 toAddress 500

def lowerSpelling : String := "0x5aaeb6053f3e94c9b9a09f33669435e7ef1beaed"

/-- The row of the log and the payload of its event after three blocks. -/
def spelledEvent (toAddress : String) : Except Failure (Deposit × Payload) := do
  let row ← proposedDeposit (someUuid 9) (spelledLog toAddress)
  let payload ← depositPayload row 3
  return (row, payload)

def deliver (event : Deposit × Payload) : Except Failure Wallet.Outcome × Wallet.Db :=
  commit (Wallet.dispatch Wallet.spentScope
    (confirmedEvent Wallet.spentScope event.1 event.2)) registeredDb

def postedOf (w : WalletRow) (event : Deposit × Payload) (db : Wallet.Db) : Int :=
  db.postedOf (w.userId, event.1.asset.val)

theorem spelled_runs :
    (∃ w ∈ registeredDb.wallets.rows,
      LetterCase.ascii.lower lowerSpelling = LetterCase.ascii.lower w.address ∧
      ∃ event ∈ (spelledEvent lowerSpelling).toOption, Unseen event.1 registeredDb ∧
        (deliver event).1 = .ok .ignored ∧
        postedOf w event (deliver event).2 = postedOf w event registeredDb) ∧
    ∃ w ∈ registeredDb.wallets.rows, (spelledEvent w.address).toOption.isSome = true ∧
      (∀ row ∈ registeredDb.wallets.rows,
        row.address = Blockchain.custodyAddress.address.val) ∧ w.address.length ≤ 64 ∧
      ∀ event ∈ (spelledEvent w.address).toOption, Unseen event.1 registeredDb := by
  decide +kernel

/-- In lower case, as topics are decoded, the deposit is acknowledged and lost. -/
theorem lower_case_deposit_is_lost :
    ∃ w ∈ registeredDb.wallets.rows,
      LetterCase.ascii.lower lowerSpelling = LetterCase.ascii.lower w.address ∧
      ∃ event ∈ (spelledEvent lowerSpelling).toOption, Unseen event.1 registeredDb ∧
        (deliver event).1 = .ok .ignored ∧
        ¬Credited w event.1.asset.val
          (DepositId.inBlock event.1.identity event.1.blockHash) 500 registeredDb
          (deliver event).2 := by
  obtain ⟨⟨w, hw, haddress, event, hevent, hunseen, hignored, hposted⟩, _⟩ := spelled_runs
  refine ⟨w, hw, haddress, event, hevent, hunseen, hignored, ?_⟩
  rintro ⟨hcredit, _⟩
  unfold postedOf at hposted
  omega

/-- As issued, it is credited. -/
theorem issued_spelling_is_credited :
    ∃ w ∈ registeredDb.wallets.rows, ∃ event ∈ (spelledEvent w.address).toOption,
      Credited w event.1.asset.val (DepositId.inBlock event.1.identity event.1.blockHash)
        500 registeredDb (deliver event).2 := by
  obtain ⟨_, w, hw, hsome, hissued, hfits, hunseen⟩ := spelled_runs
  obtain ⟨event, hevent⟩ := Option.isSome_iff_exists.mp hsome
  have hunseen' := hunseen event hevent
  refine ⟨w, hw, event, hevent, ?_⟩
  have hok : spelledEvent w.address = .ok event := by
    cases h : spelledEvent w.address with
    | error e => simp [h, Except.toOption] at hevent
    | ok event' =>
        simp only [h, Except.toOption, Option.some.injEq] at hevent
        rw [hevent]
  obtain ⟨row, hrow, hrest⟩ := bind_eq_ok.mp hok
  obtain ⟨payload, hpayload, hpair⟩ := bind_eq_ok.mp hrest
  cases hpair
  unfold deliver
  -- which steps they were does not matter
  obtain ⟨steps, hsteps⟩ : ∃ steps, registeredDb = Wallet.run Wallet.spentConfig steps :=
    ⟨registeredSteps, by unfold registeredDb; rfl⟩
  rw [hsteps] at hw hissued hunseen' ⊢
  -- there is one address, so every lookup of a spelling gives this one
  refine (credited_iff_spelled_as_issued hw .ascii
    (fun _ => Blockchain.custodyAddress.address.val) hissued ?_ ?_ hrow (.refl row)
    hpayload hunseen' Wallet.spentScope Wallet.spentScope).mpr ?_
  · rfl
  · exact hfits
  · rfl

end CryptoWallet
