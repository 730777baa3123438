import CryptoWallet.CanonicalJson
import CryptoWallet.DepositSpelling
import CryptoWallet.ServiceTransactions

/-!
# The watchers look at every row of their lists

While the node is reachable, no transaction of a watcher raises: what it announces is
about an asset the service knows, and every text it writes fits its column.  So a run
completes, and each row of the list has its turn.
-/

namespace CryptoWallet

open Tx

variable {σ : Type}

/-- `new_correlation_id()` for a random UUID. -/
def newCorrelationId (draw : Uuid) : String :=
  "cid-" ++ String.ofList ((Uuid.hexDigits 32 draw.int).take 16)

/-- The fresh correlation id is one which the library draws. -/
def Scope.Generated (scope : Scope) : Prop :=
  ∃ draw, scope.freshCorrelationId = newCorrelationId draw

theorem newCorrelationId_fits (draw : Uuid) :
    ∃ stored, varchar 64 (newCorrelationId draw) = .ok stored := by
  have hlist : (newCorrelationId draw).toList =
      "cid-".toList ++ (Uuid.hexDigits 32 draw.int).take 16 := by
    simp [newCorrelationId]
  have hlength : (newCorrelationId draw).length ≤ 64 := by
    rw [← String.length_toList, hlist, List.length_append, List.length_take]
    have hprefix : "cid-".toList.length = 4 := rfl
    omega
  have hnul : '\x00' ∉ (newCorrelationId draw).toList := by
    rw [hlist, List.mem_append, not_or]
    refine ⟨by decide, ?_⟩
    intro hmem
    obtain ⟨digit, hdigit, heq⟩ := Uuid.mem_hexDigits (List.mem_of_mem_take hmem)
    revert digit
    decide
  exact ⟨_, varchar_ok hlength hnul⟩

/-- The columns of the outbox hold the event. -/
def Envelope.Fits (envelope : Envelope) : Prop :=
  (∃ stored, varchar 64 envelope.eventType.name = .ok stored) ∧
    ∃ stored, varchar 64 envelope.correlationId = .ok stored

namespace Blockchain

/-! ## Events which fit the outbox -/

theorem enqueue_succeeds {envelope : Envelope} (h : envelope.Fits) (db : Db) :
    Ensures (enqueue envelope) db (fun _ _ => True) fun _ => False := by
  obtain ⟨⟨stored, hstored⟩, stored', hstored'⟩ := h
  have henqueue : ∃ outbox, enqueueEvent db.outbox envelope = .ok outbox := by
    simp [enqueueEvent, hstored, hstored', bind, Except.bind, pure, Except.pure]
  obtain ⟨outbox, houtbox⟩ := henqueue
  unfold enqueue
  apply Ensures.query_bind
  rw [houtbox]
  apply Ensures.orRaise_bind ?_ (fun _ he => by cases he)
  intro _ _
  exact Ensures.modifyDb trivial

theorem depositEvent_fits (scope : Scope) {eventType : EventType}
    (htype : ∃ stored, varchar 64 eventType.name = .ok stored) (payload : Payload)
    (txHash : ChainHash) (dedupeKey : String) :
    (depositEvent scope eventType payload txHash dedupeKey).Fits := by
  obtain ⟨hnonempty, hfits⟩ := depositCorrelation_fits txHash
  have hfilter : (some (depositCorrelation txHash)).filter (· ≠ "") =
      some (depositCorrelation txHash) := by
    simp [Option.filter, hnonempty]
  refine ⟨htype, ?_⟩
  simp only [depositEvent, newEvent, hfilter]
  exact hfits

/-- An event about a transfer carries the correlation id of the record, or a fresh one
when the record has none. -/
theorem transferEvent_fits {scope : Scope} (hscope : scope.Generated)
    {eventType : EventType} (htype : ∃ stored, varchar 64 eventType.name = .ok stored)
    (payload : Payload) (dedupeKey : String) (correlationId : Option (Varchar 64)) :
    (newEvent (correlationScope scope (correlationId.map Subtype.val))
      eventType payload producer (some dedupeKey) (correlationId.map Subtype.val)).Fits := by
  obtain ⟨draw, hdraw⟩ := hscope
  refine ⟨htype, ?_⟩
  have hfresh := newCorrelationId_fits draw
  rw [← hdraw] at hfresh
  simp only [newEvent, correlationScope]
  cases hid : (correlationId.map Subtype.val).filter (· ≠ "") with
  | some id =>
      obtain ⟨hmap, _⟩ := Option.filter_eq_some_iff.mp hid
      obtain ⟨stored, _, rfl⟩ := Option.map_eq_some_iff.mp hmap
      exact ⟨stored, varchar_ok stored.property.1 stored.property.2⟩
  | none =>
      cases hdrawn : (some scope.freshCorrelationId).filter (· ≠ "") with
      | some id =>
          obtain ⟨hsome, _⟩ := Option.filter_eq_some_iff.mp hdrawn
          cases hsome
          exact hfresh
      | none => exact hfresh

/-! ## The deposits -/

section Deposits

variable {settings : Settings} {scope : Scope} {head : Nat}

theorem depositPayload_succeeds {d : Deposit} (hasset : (getAsset d.asset.val).isSome = true)
    (confirmations : Nat) : ∃ payload, depositPayload d confirmations = .ok payload := by
  obtain ⟨asset, hfound⟩ := Option.isSome_iff_exists.mp hasset
  simp [depositPayload, hfound]

theorem reverifyTx_succeeds (found : Option (Nat × ChainHash)) {id : DepositId} {db : Db}
    (hassets : ∀ d, db.deposits.find? id = some d → (getAsset d.asset.val).isSome = true) :
    Ensures (reverifyTx settings scope head found id) db (fun _ _ => True)
      fun _ => False := by
  have hannounced : ∀ (d : Deposit) confirmations (k : Payload → ServiceTx Verdict) db',
      (getAsset d.asset.val).isSome = true →
      (∀ payload, Ensures (k payload) db' (fun _ _ => True) fun _ => False) →
      Ensures (orRaise (depositPayload d confirmations) >>= k) db' (fun _ _ => True)
        fun _ => False := by
    intro d confirmations k db' hasset hk
    obtain ⟨payload, hpayload⟩ := depositPayload_succeeds hasset confirmations
    rw [hpayload]
    apply Ensures.orRaise_bind ?_ (fun _ he => by cases he)
    exact fun payload _ => hk payload
  have hname : ∀ eventType ∈ [EventType.depositReorged, .depositConfirmed],
      ∃ stored, varchar 64 eventType.name = .ok stored := by
    intro eventType hmem
    simp only [List.mem_cons, List.not_mem_nil, or_false] at hmem
    rcases hmem with rfl | rfl
    · exact ⟨_, varchar_ok (by decide) (by decide)⟩
    · exact ⟨_, varchar_ok (by decide) (by decide)⟩
  unfold reverifyTx
  apply Ensures.query_bind
  cases hfind : db.deposits.find? id with
  | none => exact Ensures.pure trivial
  | some d =>
      have hasset := hassets d hfind
      cases found with
      | none =>
          unfold markReorged
          apply hannounced (d.reorgedAtTime scope.now) _ _ _ hasset
          intro payload
          apply Ensures.modifyDb_bind
          apply Ensures.bind (enqueue_succeeds (depositEvent_fits scope
            (hname .depositReorged (by simp)) _ _ _) _)
          intro _ _ _
          exact Ensures.pure trivial
      | some place =>
          dsimp only
          split
          next =>
            unfold confirmDeposit
            apply hannounced ((d.movedTo head place.1 place.2).confirmedAtTime scope.now)
              _ _ _ hasset
            intro payload
            apply Ensures.modifyDb_bind
            apply Ensures.bind (enqueue_succeeds (depositEvent_fits scope
              (hname .depositConfirmed (by simp)) _ _ _) _)
            intro _ _ _
            exact Ensures.pure trivial
          next =>
            apply Ensures.modifyDb_bind
            exact Ensures.pure trivial

theorem locate_answers {adapter : ChainAdapter σ} {letterCase : LetterCase} {chain : σ}
    {view : ChainView} (hshows : Shows adapter letterCase chain view) (d : Deposit) :
    ∃ found, locate adapter (.fixed chain) d = .ok found := by
  simp only [locate, LookupCalls.fixed, hshows.receipt, bind, Except.bind]
  cases view.receiptOf d.txHash with
  | none => exact ⟨none, rfl⟩
  | some receipt =>
      dsimp only
      split
      · exact ⟨_, rfl⟩
      · obtain ⟨logs, hlogs, _⟩ := hshows.logs receipt.blockNumber receipt.blockNumber
          [d.toAddress.val]
        rw [hlogs]
        exact ⟨_, rfl⟩

/-- A run of the watcher against a node which answers completes. -/
theorem watchDepositsOnce_completes {adapter : ChainAdapter σ} {letterCase : LetterCase}
    {chain : σ} {view : ChainView} (hshows : Shows adapter letterCase chain view)
    (settings : Settings) (scope : Scope) {db : Db} (hassets : db.AssetsKnown) :
    (watchDepositsOnce adapter settings scope chain (fun _ => .fixed chain) db).1 =
      .completed := by
  unfold watchDepositsOnce
  simp only [hshows.head]
  split
  · rfl
  apply visitAll_completes (P := fun id db => ∀ d, db.deposits.find? id = some d →
    (getAsset d.asset.val).isSome = true) ?_ ?_ (watchlist_nodup settings view.head db)
  · intro id _ d hd
    exact hassets.deposits d (Table.mem_of_find? hd)
  · intro key other before hother hbefore
    have hsame : (reverify adapter settings scope (.fixed chain) view.head key
        before).2.deposits.find? other = before.deposits.find? other :=
      reverify_ownRow adapter settings scope (fun _ => .fixed chain) view.head key other
        before hother
    rwa [hsame]
  · intro id before hbefore
    unfold reverify
    cases hfind : before.deposits.find? id with
    | none => exact ⟨.gone, rfl⟩
    | some d =>
        obtain ⟨found, hfound⟩ := locate_answers hshows d
        have hsucceeds : Ensures (reverifyTx settings scope view.head found id) before
            (fun _ _ => True) fun _ => False := reverifyTx_succeeds found hbefore
        obtain ⟨verdict, after, hcommit, _⟩ := hsucceeds.commit_returns
        simp only [hfound, hcommit]
        exact ⟨verdict, rfl⟩

end Deposits

/-! ## The outgoing transactions -/

section Outgoing

variable {settings : Settings} {scope : Scope} {head : Nat}

theorem announceFailure_succeeds (hscope : scope.Generated) {record : OutgoingTransaction}
    (hasset : (getAsset record.asset.val).isSome = true) (wasConfirmed : Bool)
    {reason : String} (hreason : '\x00' ∉ reason.toList) (code dedupeKey : String) (db : Db) :
    Ensures (announceFailure
      (correlationScope scope (record.correlationId.map Subtype.val)) record wasConfirmed
      reason code dedupeKey) db (fun _ _ => True) fun _ => False := by
  obtain ⟨asset, hfound⟩ := Option.isSome_iff_exists.mp hasset
  have hpayload : ∃ payload, failurePayload record wasConfirmed reason code =
      .ok payload := by
    simp [failurePayload, hfound]
  obtain ⟨payload, hpayload⟩ := hpayload
  have hbound : bindString reason = .ok reason := by
    simp [bindString, hreason]
  have hname : ∃ stored, varchar 64 EventType.txFailed.name = .ok stored :=
    ⟨_, varchar_ok (by decide) (by decide)⟩
  unfold announceFailure
  rw [hpayload, hbound]
  refine Ensures.orRaise_ok ?_
  apply Ensures.orRaise_bind ?_ (fun _ he => by cases he)
  intro _ _
  apply Ensures.modifyDb_bind
  exact enqueue_succeeds (transferEvent_fits hscope hname payload dedupeKey
    record.correlationId) _

theorem stuckReason_nul_not_mem (age : Int) (attempts : Nat) :
    '\x00' ∉ ("still pending after " ++ toString age ++ "s and " ++
      toString attempts ++ " attempts").toList := by
  have hnumber : ∀ n : Int, '\x00' ∉ (toString n).toList := by
    intro n hmem
    have hchar := CanonicalJson.isNumberChar_of_mem hmem
    revert hchar
    decide
  have hattempts : '\x00' ∉ (toString attempts).toList := hnumber attempts
  simp only [String.toList_append, List.mem_append, not_or]
  exact ⟨⟨⟨⟨by decide, hnumber age⟩, by decide⟩, hattempts⟩, by decide⟩

theorem handleReceipt_succeeds (hscope : scope.Generated) {record : OutgoingTransaction}
    (hasset : (getAsset record.asset.val).isSome = true) (txHash : ChainHash)
    (receipt : TxReceipt) (db : Db) :
    Ensures (handleReceipt settings
      (correlationScope scope (record.correlationId.map Subtype.val)) head record txHash
      receipt) db (fun _ _ => True) fun _ => False := by
  unfold handleReceipt
  dsimp only
  split
  · split
    · apply Ensures.modifyDb_bind
      exact Ensures.pure trivial
    · have hreason : '\x00' ∉ revertReason.toList := by decide
      have hfailed : (getAsset ((record.minedIn head receipt).failedFor
          revertReason).asset.val).isSome = true := hasset
      apply Ensures.bind (announceFailure_succeeds hscope hfailed false hreason
        "REVERTED_ON_CHAIN" _ db)
      intro _ _ _
      exact Ensures.pure trivial
  · split
    · obtain ⟨asset, hfound⟩ := Option.isSome_iff_exists.mp hasset
      have hpayload : ∃ payload, confirmedPayload
          { record.minedIn head receipt with status := .confirmed } txHash receipt =
            .ok payload := by
        simp [confirmedPayload, OutgoingTransaction.minedIn, hfound]
      obtain ⟨payload, hpayload⟩ := hpayload
      have hname : ∃ stored, varchar 64 EventType.txConfirmed.name = .ok stored :=
        ⟨_, varchar_ok (by decide) (by decide)⟩
      rw [hpayload]
      refine Ensures.orRaise_ok ?_
      apply Ensures.modifyDb_bind
      apply Ensures.bind (enqueue_succeeds (transferEvent_fits hscope hname payload _
        record.correlationId) _)
      intro _ _ _
      exact Ensures.pure trivial
    · apply Ensures.modifyDb_bind
      exact Ensures.pure trivial

theorem checkTx_succeeds (hscope : scope.Generated) {transferId : Uuid}
    (seen : SeenRecord) (receipt : Option TxReceipt) {db : Db}
    (hassets : ∀ record, db.outgoing.find? transferId = some record →
      (getAsset record.asset.val).isSome = true) :
    Ensures (checkTx settings scope head transferId seen receipt) db (fun _ _ => True)
      fun _ => False := by
  unfold checkTx
  apply Ensures.query_bind
  cases hfind : db.outgoing.find? transferId with
  | none => exact Ensures.pure trivial
  | some record =>
      have hasset := hassets record hfind
      cases receipt with
      | some receipt => exact handleReceipt_succeeds hscope hasset seen.txHash receipt db
      | none =>
          dsimp only
          split
          next =>
            have hreason : '\x00' ∉ reorgReason.toList := by decide
            have hreorged : (getAsset record.reorged.asset.val).isSome = true := hasset
            unfold markOutgoingReorged
            apply Ensures.bind (announceFailure_succeeds hscope hreorged true hreason
              "CHAIN_REORG" _ db)
            intro _ _ _
            exact Ensures.pure trivial
          next =>
            unfold handleStuck
            cases seen.broadcastAt with
            | none => exact Ensures.pure trivial
            | some broadcastAt =>
                dsimp only
                split
                · exact Ensures.pure trivial
                · split
                  · apply Ensures.modifyDb_bind
                    exact Ensures.pure trivial
                  · have hreason := stuckReason_nul_not_mem
                      (scope.now - broadcastAt) seen.attempts
                    have hfailed : ∀ reason,
                        (getAsset (record.failedFor reason).asset.val).isSome = true :=
                      fun _ => hasset
                    apply Ensures.bind (announceFailure_succeeds hscope (hfailed _) false
                      hreason "STUCK_PENDING" _ db)
                    intro _ _ _
                    exact Ensures.pure trivial

theorem watchOutgoingOnce_completes {adapter : ChainAdapter σ} {letterCase : LetterCase}
    {chain : σ} {view : ChainView} (hshows : Shows adapter letterCase chain view)
    (settings : Settings) (hscope : scope.Generated) {db : Db} (hassets : db.AssetsKnown) :
    (watchOutgoingOnce adapter settings scope chain (fun _ => chain) db).1 =
      .completed := by
  unfold watchOutgoingOnce
  simp only [hshows.head]
  apply visitAll_completes (P := fun id db => ∀ record, db.outgoing.find? id = some record →
    (getAsset record.asset.val).isSome = true) ?_ ?_ (candidates_nodup settings view.head db)
  · intro id hid record hrecord
    obtain ⟨record', hrecord', hcandidate⟩ := mem_candidates.mp hid
    rw [hrecord, Option.some.injEq] at hrecord'
    subst hrecord'
    apply hassets.outgoing record (Table.mem_of_find? hrecord)
    simp only [OutgoingTransaction.candidate, Bool.and_eq_true, Bool.or_eq_true,
      decide_eq_true_eq] at hcandidate
    exact hcandidate.1
  · intro key other before hother hbefore
    have hsame : (checkOne adapter settings scope chain view.head key
        before).2.outgoing.find? other = before.outgoing.find? other :=
      checkOne_ownRow adapter settings scope (fun _ => chain) view.head key other before
        hother
    rwa [hsame]
  · intro id before hbefore
    unfold checkOne
    cases hseen : (before.outgoing.find? id).bind OutgoingTransaction.seen with
    | none => exact ⟨.skipped, rfl⟩
    | some seen =>
        have hsucceeds : Ensures (checkTx settings scope view.head id seen
            (view.receiptOf seen.txHash)) before (fun _ _ => True) fun _ => False :=
          checkTx_succeeds hscope seen _ hbefore
        obtain ⟨outcome, after, hcommit, _⟩ := hsucceeds.commit_returns
        simp only [hshows.receipt, hcommit]
        exact ⟨outcome, rfl⟩

end Outgoing

end Blockchain
end CryptoWallet
