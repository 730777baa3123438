import CryptoWallet.WalletSystem

/-!
# Users, wallets and the deposits in the ledger

Users and wallets are only added, so an address leads to one wallet for ever
and its owner exists.  The ledger entries of deposits are written by deposit
events only: every other step leaves them as they are.
-/

namespace CryptoWallet.Wallet

open Tx

def Db.depositEntries (db : Db) : List LedgerEntry :=
  db.ledger.select (·.referenceType = .deposit)

/-- No user is lost, and at most one wallet is added. -/
structure Extends (db db' : Db) : Prop where
  users : ∀ id user, db.users.find? id = some user → db'.users.find? id = some user
  wallets : db'.wallets = db.wallets ∨ ∃ wallet, WalletInserted db wallet db'.wallets

theorem Extends.of_frame {db db' : Db} (husers : db'.users = db.users)
    (hwallets : db'.wallets = db.wallets) : Extends db db' := by
  refine ⟨?_, Or.inl hwallets⟩
  intro id user huser
  rw [husers]
  exact huser

/-- The books of the deposits and the record of deliveries stay as they are. -/
structure Steady (db db' : Db) : Prop extends Extends db db' where
  deposits : db'.depositEntries = db.depositEntries
  processedEvents : db'.processedEvents = db.processedEvents

/-- The directory stays as it is too. -/
structure Undisturbed (db db' : Db) : Prop where
  users : db'.users = db.users
  wallets : db'.wallets = db.wallets
  deposits : db'.depositEntries = db.depositEntries
  processedEvents : db'.processedEvents = db.processedEvents

theorem Undisturbed.refl (db : Db) : Undisturbed db db := ⟨rfl, rfl, rfl, rfl⟩

theorem Undisturbed.steady {db db' : Db} (h : Undisturbed db db') : Steady db db' :=
  ⟨.of_frame h.users h.wallets, h.deposits, h.processedEvents⟩

/-- An address leads to one wallet, and its owner exists. -/
structure Directory (db : Db) : Prop where
  addresses : ∀ w ∈ db.wallets.rows, ∀ w' ∈ db.wallets.rows, w.address = w'.address → w = w'
  owners : ∀ w ∈ db.wallets.rows, ∃ user, db.users.find? w.userId = some user

theorem Directory.empty : Directory Db.empty := by
  constructor <;> simp [Db.empty]

theorem Directory.extends {db db' : Db} (h : Directory db) (hextends : Extends db db') :
    Directory db' := by
  have howners : ∀ w ∈ db.wallets.rows, ∃ user, db'.users.find? w.userId = some user := by
    intro w hw
    obtain ⟨user, huser⟩ := h.owners w hw
    exact ⟨user, hextends.users _ _ huser⟩
  rcases hextends.wallets with hsame | ⟨wallet, hinserted⟩
  · constructor
    · rw [hsame]
      exact h.addresses
    · rw [hsame]
      exact howners
  · have hmem : ∀ w ∈ db'.wallets.rows, w ∈ db.wallets.rows ∨ w = wallet :=
      fun w hw => (Table.mem_insert? hinserted.insert).mp hw
    constructor
    · intro w hw w' hw' haddress
      rcases hmem w hw with hold | rfl
      · rcases hmem w' hw' with hold' | rfl
        · exact h.addresses w hold w' hold' haddress
        · exact (hinserted.freshAddress w hold haddress).elim
      · rcases hmem w' hw' with hold' | rfl
        · exact (hinserted.freshAddress w' hold' haddress.symm).elim
        · rfl
    · intro w hw
      rcases hmem w hw with hold | rfl
      · exact howners w hold
      · obtain ⟨user, huser⟩ := hinserted.owner
        exact ⟨user, hextends.users _ _ huser⟩

theorem Directory.find?_address {db : Db} (h : Directory db) {w : WalletRow}
    (hw : w ∈ db.wallets.rows) :
    db.wallets.rows.find? (·.address = w.address) = some w := by
  have hsome : (db.wallets.rows.find? (·.address = w.address)).isSome = true :=
    List.find?_isSome.mpr ⟨w, hw, by simp⟩
  obtain ⟨found, hfound⟩ := Option.isSome_iff_exists.mp hsome
  have haddress : found.address = w.address := by simpa using List.find?_some hfound
  rw [hfound, h.addresses found (List.mem_of_find?_eq_some hfound) w hw haddress]

/-! ## What each step does -/

theorem Moved.depositEntries {db db' : Db} {entries : List LedgerEntry}
    {hold : Account → Int} (h : Moved db db' entries hold) :
    db'.depositEntries =
      db.depositEntries ++ entries.filter (·.referenceType = .deposit) := by
  unfold Db.depositEntries Table.select
  rw [h.ledger, List.filter_append]

/-- Entries of transfers do not show up among the deposits. -/
theorem Undisturbed.of_moved {db db' : Db} {entries : List LedgerEntry}
    {hold : Account → Int} (h : Moved db db' entries hold)
    (hentries : ∀ e ∈ entries, e.referenceType = .transfer) : Undisturbed db db' := by
  refine ⟨h.frame.users, h.frame.wallets, ?_, h.frame.processedEvents⟩
  have hnone : entries.filter (·.referenceType = .deposit) = [] := by
    apply List.filter_eq_nil_iff.mpr
    intro e he
    simp [hentries e he]
  rw [h.depositEntries, hnone, List.append_nil]

theorem Undisturbed.of_transition {db db' : Db} {t t' : Transfer} {entries : List LedgerEntry}
    {hold : Account → Int} (h : Transition db db' t t' entries hold)
    (hentries : ∀ e ∈ entries, e.referenceType = .transfer) : Undisturbed db db' := by
  obtain ⟨mid, hmoved, rfl⟩ := h.change
  have hsame := Undisturbed.of_moved hmoved hentries
  exact ⟨hsame.users, hsame.wallets, hsame.deposits, hsame.processedEvents⟩

theorem transfer_of_unabsorbed {scope : Scope} {t : Transfer} {postings : List Posting}
    {candidates : List LedgerEntry} {taken : List EntryKey}
    (hpostings : ∀ p ∈ postings, p.referenceType = .transfer ∧ p.referenceId = t.id.str)
    (h : List.Forall₂ (EntryOf scope t.asset) (sortPostings postings) candidates) :
    ∀ e ∈ unabsorbed taken candidates, e.referenceType = .transfer := by
  intro e he
  exact ((batch_of_entries hpostings h).reference e (mem_of_mem_unabsorbed he)).1

/-- The events which may post a deposit. -/
def postsDeposit : EventType → Bool
  | .depositConfirmed | .depositReorged => true
  | _ => false

theorem handle_undisturbed {db : Db} (h : Sound db) (scope : Scope) {eventType : EventType}
    (htype : postsDeposit eventType = false) (payload : Payload) :
    Ensures (handle scope eventType payload) db (fun _ => Undisturbed db) fun _ => True := by
  cases eventType with
  | depositDetected => exact Ensures.pure (.refl db)
  | depositConfirmed => cases htype
  | depositReorged => cases htype
  | txBroadcasted =>
      apply (markBroadcasted_ensures db scope payload).mono
      · rintro _ db' (⟨rfl, _⟩ | ⟨t, t', _, _, _, htransition⟩)
        · exact .refl db'
        · exact Undisturbed.of_transition htransition (by simp)
      · exact fun _ _ => trivial
  | txConfirmed =>
      apply (settleTransfer_ensures h.holdsCovered scope payload).mono
      · rintro _ db' (⟨rfl, _⟩ | ⟨t, t', candidates, _, _, _, hcandidates, htransition⟩)
        · exact .refl db'
        · exact Undisturbed.of_transition htransition
            (transfer_of_unabsorbed (settlementPostings_reference t) hcandidates)
      · exact fun _ _ => trivial
  | txFailed =>
      apply (failTransfer_ensures h.holdsCovered scope payload).mono
      · rintro _ db' (⟨rfl, _⟩ | ⟨t, t', _, _, hcases⟩)
        · exact .refl db'
        · rcases hcases with ⟨_, htransition⟩ | ⟨_, candidates, hcandidates, htransition⟩
          · exact Undisturbed.of_transition htransition (by simp)
          · exact Undisturbed.of_transition htransition
              (transfer_of_unabsorbed (reversalPostings_reference t) hcandidates)
      · exact fun _ _ => trivial
  | transferRequested => exact Ensures.pure (.refl db)
  | unknown name => exact Ensures.pure (.refl db)

theorem TransferCreated.undisturbed {scope : Scope} {newId : Uuid} {request : TransferRequest}
    {db db' : Db} {t : Transfer} (h : TransferCreated scope newId request db t db') :
    Undisturbed db db' := by
  obtain ⟨asset, mid, transfers, outbox, _, _, hmoved, _, _, rfl⟩ := h.change
  have hsame := Undisturbed.of_moved hmoved (by simp)
  exact ⟨hsame.users, hsame.wallets, hsame.deposits, hsame.processedEvents⟩

theorem Posted.undisturbed {settings : ApiSettings} {scope : Scope} {newId : Uuid}
    {request : TransferRequest} {db db' : Db} {response : PostResponse}
    (h : Posted settings scope newId request db response db') : Undisturbed db db' := by
  cases h with
  | replayed => exact .refl db
  | created hcreated _ _ =>
      have hsame := hcreated.undisturbed
      exact ⟨hsame.users, hsame.wallets, hsame.deposits, hsame.processedEvents⟩

def Step.delivers : Step → Bool
  | .dispatch _ _ => true
  | _ => false

theorem stepTx_steady (db : Db) (config : Config) {s : Step} (hs : s.delivers = false) :
    Ensures (stepTx config s) db (fun _ => Steady db) fun _ => True := by
  cases s with
  | createUser newId name email =>
      apply Ensures.discard
      apply (createUser_ensures db config.letterCase newId name email).mono
      · rintro user db' ⟨_, users, hinsert, rfl⟩
        refine ⟨⟨?_, Or.inl rfl⟩, rfl, rfl⟩
        intro id old hold
        have hfind := Table.find?_insert? hinsert id
        have hne : id ≠ user.id := by
          intro heq
          rw [heq, Table.insert?_free hinsert] at hold
          cases hold
        rw [if_neg hne] at hfind
        exact hfind.trans hold
      · exact fun _ _ => trivial
  | attachWallet newId userId network asset address =>
      apply Ensures.discard
      apply (attachWallet_ensures db newId userId network asset address).mono
      · rintro _ db' ⟨_, wallets, hmoved, hwallets⟩
        have hsame := Undisturbed.of_moved hmoved (by simp)
        refine ⟨⟨?_, ?_⟩, hsame.deposits, hsame.processedEvents⟩
        · intro id user huser
          rw [hsame.users]
          exact huser
        · rw [hsame.wallets]
          exact hwallets
      · exact fun _ _ => trivial
  | createTransfer scope newId request =>
      apply Ensures.discard
      exact (createTransfer_ensures db scope newId request).mono
        (fun _ _ hcreated => hcreated.undisturbed.steady) (fun _ _ => trivial)
  | postTransfer scope newId body =>
      apply Ensures.discard
      apply (postTransfer_ensures db config.api scope newId body).mono
      · rintro _ _ ⟨request, _, hposted⟩
        exact hposted.undisturbed.steady
      · exact fun _ _ => trivial
  | relay now publishError =>
      unfold stepTx
      apply Ensures.modifyDb
      exact ⟨.of_frame rfl rfl, rfl, rfl⟩
  | progress now =>
      apply Ensures.discard
      apply (progressOnce_ensures db now).mono
      · rintro _ _ rfl
        exact ⟨.of_frame rfl rfl, rfl, rfl⟩
      · exact fun _ _ => trivial
  | dispatch scope envelope => cases hs

/-! ## Every reachable directory -/

theorem Extends.of_posted {scope : Scope} {db db' : Db} (h : DepositPosted scope db db') :
    Extends db db' := by
  rcases h with rfl | ⟨_, _, _, _, _, hmoved⟩
  · exact .of_frame rfl rfl
  · exact .of_frame hmoved.frame.users hmoved.frame.wallets

theorem handle_extends {db : Db} (h : Sound db) (scope : Scope) (eventType : EventType)
    (payload : Payload) :
    Ensures (handle scope eventType payload) db (fun _ => Extends db) fun _ => True := by
  cases htype : postsDeposit eventType with
  | false =>
      exact (handle_undisturbed h scope htype payload).mono
        (fun _ _ hsame => hsame.steady.toExtends) fun _ h => h
  | true =>
      cases eventType with
      | depositConfirmed =>
          exact (creditDeposit_ensures db scope payload).mono
            (fun _ _ hposted => .of_posted hposted) fun _ _ => trivial
      | depositReorged =>
          exact (reverseDeposit_ensures db scope payload).mono
            (fun _ _ hposted => .of_posted hposted) fun _ _ => trivial
      | _ => cases htype

theorem dispatch_extends {db : Db} (h : Sound db) (scope : Scope) (envelope : Envelope) :
    Ensures (dispatch scope envelope) db (fun _ => Extends db) fun _ => True := by
  unfold dispatch
  apply Ensures.bind ((claimEvent_ensures db envelope).mono (fun _ _ h => h)
    (fun _ _ => trivial))
  rintro claimed db₁ (⟨rfl, rfl, _⟩ | ⟨rfl, processedEvents, _, rfl⟩)
  · exact Ensures.pure (.of_frame rfl rfl)
  · have hclaimed : Sound { db with processedEvents } := h.congr rfl rfl rfl
    apply (handle_extends hclaimed (deliveryScope scope envelope) envelope.eventType
      envelope.payload).mono ?_ (fun _ h => h)
    intro _ db' hextends
    refine ⟨hextends.users, ?_⟩
    rcases hextends.wallets with hsame | ⟨wallet, hinserted⟩
    · exact Or.inl hsame
    · exact Or.inr ⟨wallet, hinserted.insert, hinserted.freshId, hinserted.freshAddress,
        hinserted.owner⟩

theorem stepTx_extends {db : Db} (h : Sound db) (config : Config) (s : Step) :
    Ensures (stepTx config s) db (fun _ => Extends db) fun _ => True := by
  cases hs : s.delivers with
  | false =>
      exact (stepTx_steady db config hs).mono (fun _ _ hsteady => hsteady.toExtends)
        fun _ h => h
  | true =>
      cases s with
      | dispatch scope envelope => exact Ensures.discard (dispatch_extends h scope envelope)
      | _ => cases hs

theorem step_directory {db : Db} (hsound : Sound db) (h : Directory db) (config : Config)
    (s : Step) : Directory (step config s db) := by
  apply commit_preserves (I := Directory) h
  exact (stepTx_extends hsound config s).mono (fun _ _ hextends => h.extends hextends)
    fun _ h => h

theorem run_directory (config : Config) (steps : List Step) :
    Directory (run config steps) := by
  have hboth : Sound (run config steps) ∧ Directory (run config steps) := by
    apply runSteps_preserves (I := fun db => Sound db ∧ Directory db)
    · exact fun db s h => ⟨step_sound h.1 config s, step_directory h.1 h.2 config s⟩
    · exact ⟨Sound.empty, Directory.empty⟩
  exact hboth.2

end CryptoWallet.Wallet
