import CryptoWallet.TransferReports
import CryptoWallet.WalletReports

/-!
# The two services together

The services meet in the events of their outboxes alone: each may be handed any event of
the other's outbox, at any time, in any order and any number of times.  The chain
answers the workers as it likes.
-/

namespace CryptoWallet

open Tx
open Blockchain (DepositTask OutgoingTransaction PairStep WorkerPair)
open Wallet (Placed Transfer)

variable {σ : Type}

def Blockchain.PairStep.delivers : PairStep → Bool
  | .request _ _ => true
  | _ => false

/-- The database of the wallet service, and the service with its two loops. -/
structure Platform where
  wallet : Wallet.Db
  service : WorkerPair

inductive PlatformStep (σ : Type) where
  | wallet (s : { s : Wallet.Step // s.delivers = false })
  | worker (action : { action : PairStep // action.delivers = false })
  | deposits (task : DepositTask σ)
  | relay (relaySettings : RelaySettings) (now : Nat) (publishError : EventId → Option String)
  | request (scope : Scope) (eventId : EventId)
  | deliver (scope : Scope) (eventId : EventId)

namespace Platform

def start : Platform := ⟨.empty, .start .empty⟩

variable (adapter : ChainAdapter σ) (settings : Blockchain.Settings)
  (config : Wallet.Config)

def step (action : PlatformStep σ) (w : Platform) : Platform :=
  match action with
  | .wallet s => { w with wallet := Wallet.step config s.val w.wallet }
  | .worker action => { w with service := WorkerPair.step settings action.val w.service }
  | .deposits task =>
    { w with service := { w.service with db := task.run adapter settings w.service.db } }
  | .relay relaySettings now publishError =>
    let outbox := (relayOnce relaySettings now publishError w.service.db.outbox).1
    { w with service := { w.service with db := { w.service.db with outbox } } }
  | .request scope eventId =>
    match w.wallet.outbox.find? eventId with
    | none => w
    | some row =>
      { w with service := WorkerPair.step settings (.request scope row.envelope) w.service }
  | .deliver scope eventId =>
    match w.service.db.outbox.find? eventId with
    | none => w
    | some row =>
      { w with wallet := Wallet.step config (.dispatch scope row.envelope) w.wallet }

end Platform

/-! ## What the service is told to send -/

/-- The record orders what the transfer says. -/
structure Orders (t : Transfer) (record : OutgoingTransaction) : Prop where
  transferId : record.transferId = t.id
  network : record.network.val = t.network
  asset : record.asset.val = t.asset
  fromAddress : record.fromAddress.val = t.fromAddress
  toAddress : record.toAddress.val = t.toAddress
  amount : (record.amount : Int) = t.amount

theorem Orders.sendRequest {t : Transfer} {record : OutgoingTransaction}
    (h : Orders t record) :
    record.sendRequest = ⟨t.fromAddress, t.toAddress, t.amount.toNat, t.id.str⟩ := by
  have hamount : record.amount = t.amount.toNat := by
    have hunits := h.amount
    omega
  rw [OutgoingTransaction.sendRequest, h.fromAddress, h.toAddress, hamount, h.transferId]

theorem Orders.same {t t' : Transfer} {record record' : OutgoingTransaction}
    (h : Orders t record) (hterms : Wallet.SameTerms t t')
    (hrequest : record.SameRequest record') : Orders t' record' where
  transferId := by rw [hrequest.transferId, h.transferId, hterms.id]
  network := by rw [hrequest.network, h.network, hterms.network]
  asset := by rw [hrequest.asset, h.asset, hterms.asset]
  fromAddress := by rw [hrequest.fromAddress, h.fromAddress, hterms.fromAddress]
  toAddress := by rw [hrequest.toAddress, h.toAddress, hterms.toAddress]
  amount := by rw [hrequest.amount, h.amount, hterms.amount]

theorem bindText_str {text text' : String} (h : bindText (.str text) = .ok (some text')) :
    text' = text := by
  rw [bindText, bindString] at h
  split at h
  · cases h
  · exact (Option.some.inj (Except.ok.inj h)).symm

theorem requiredColumn_eq {limit : Nat} {text : String} {stored : Varchar limit}
    (hlength : text.length ≤ limit)
    (h : Blockchain.requiredColumn limit (.str text) = .ok stored) : stored.val = text := by
  unfold Blockchain.requiredColumn at h
  obtain ⟨bound, hbound, hstored⟩ := bind_eq_ok.mp h
  cases bound with
  | none => cases hstored
  | some text' =>
      have htext : text' = text := bindText_str hbound
      rw [← htext]
      exact varchar_eq (htext ▸ hlength) hstored

theorem proposed_orders {t : Transfer} {asset : Asset} {now : Nat} {correlationId : String}
    {record : OutgoingTransaction}
    (h : Blockchain.proposedOutgoing now (Wallet.requestedPayload t asset) correlationId =
      .ok record)
    (hasset : asset.symbol = t.asset) (hnetwork : t.network.length ≤ 32)
    (hsymbol : t.asset.length ≤ 16) (hfrom : t.fromAddress.length ≤ 64)
    (hto : t.toAddress.length ≤ 64) : Orders t record := by
  unfold Blockchain.proposedOutgoing at h
  simp only [bind_eq_ok] at h
  obtain ⟨idValue, hidValue, transferId, htransferId, fromValue, hfromValue, toValue, htoValue,
    amountValue, hamountValue, amount, hamount, network, hnetworkColumn, symbol, hsymbolColumn,
    fromAddress, hfromColumn, toAddress, htoColumn, correlation, _, h⟩ := h
  cases hidValue
  cases hfromValue
  cases htoValue
  cases hamountValue
  have hid : transferId = t.id := by
    simp only [uuidOf, Json.toStr, Uuid.parse?_str, Except.ok.injEq] at htransferId
    exact htransferId.symm
  have hunits : amount = t.amount := by
    have htoNat : ((t.amount.toNat : Nat) : Int) = t.amount :=
      Int.toNat_of_nonneg (le_of_lt t.amountPositive)
    unfold pyIntOf at hamount
    split at hamount
    next n hn =>
      cases hamount
      simp only [Json.toInt?] at hn
      rw [← htoNat] at hn
      rw [pyInt_toString_eq hn, htoNat]
    next => cases hamount
  split at h
  next =>
    split at h
    next hpositive =>
      cases h
      have hsymbol' : asset.symbol.length ≤ 16 := by
        rw [hasset]
        exact hsymbol
      refine ⟨hid, requiredColumn_eq hnetwork hnetworkColumn, ?_,
        requiredColumn_eq hfrom hfromColumn, requiredColumn_eq hto htoColumn, ?_⟩
      · rw [← hasset]
        exact requiredColumn_eq hsymbol' hsymbolColumn
      · rw [← hunits]
        exact Int.natAbs_of_nonneg (le_of_lt hpositive)
    next => cases h
  next => cases h

namespace Blockchain

/-- Every record afterwards comes from one before, or from the request. -/
def Comes (requested : OutgoingTransaction → Prop) (db db' : Db) : Prop :=
  ∀ record' ∈ db'.outgoing.rows,
    (∃ record ∈ db.outgoing.rows, record.SameRequest record') ∨
      ∃ proposed, requested proposed ∧ proposed.SameRequest record'

theorem OutgoingTransaction.SameRequest.refl (record : OutgoingTransaction) :
    record.SameRequest record := ⟨rfl, rfl, rfl, rfl, rfl, rfl, rfl, rfl⟩

section Comes

variable {requested : OutgoingTransaction → Prop} {db db' : Db}

theorem Comes.of_same (houtgoing : db'.outgoing = db.outgoing) : Comes requested db db' := by
  intro record hrecord
  rw [houtgoing] at hrecord
  exact Or.inl ⟨record, hrecord, .refl record⟩

theorem Comes.of_written {record : OutgoingTransaction}
    (hrecord : db.outgoing.find? record.transferId = some record)
    (hwritten : db'.outgoing = db.outgoing ∨ ∃ record', record.SameRequest record' ∧
      db'.outgoing = db.outgoing.replace record') : Comes requested db db' := by
  rcases hwritten with hsame | ⟨record', hrequest, hreplace⟩
  · exact .of_same hsame
  · have hfind : db.outgoing.find? record'.transferId = some record := by
      rw [hrequest.transferId]
      exact hrecord
    intro row hrow
    rw [hreplace, Table.mem_replace _ hfind] at hrow
    rcases hrow with rfl | ⟨hold, _⟩
    · exact Or.inl ⟨record, Table.mem_of_find? hrecord, hrequest⟩
    · exact Or.inl ⟨row, hold, .refl row⟩

theorem Dispatched.comes {scope : Scope} {envelope : Envelope}
    (h : Dispatched scope envelope db db') :
    Comes (fun proposed => envelope.eventType = .transferRequested ∧ ∃ now correlationId,
      proposedOutgoing now envelope.payload correlationId = .ok proposed) db db' := by
  cases h with
  | duplicate => exact .of_same rfl
  | ignored processedEvents => exact .of_same rfl
  | accepted processedEvents hrequested db' haccepted =>
      cases haccepted with
      | duplicate proposed hproposed htaken => exact .of_same rfl
      | accepted proposed hproposed hknown outgoing hinsert =>
          intro record hrecord
          rcases (Table.mem_insert? hinsert).mp hrecord with hold | rfl
          · exact Or.inl ⟨record, hold, .refl record⟩
          · exact Or.inr ⟨record, ⟨hrequested, _, _, hproposed⟩, .refl record⟩
      | unknown proposed hproposed hunknown outgoing hinsert failed hpayload db' hannounces =>
          obtain ⟨outbox, _, rfl⟩ := hannounces
          have hstored : outgoing.find? (proposed.failedFor unknownAddressReason).transferId =
              some proposed := (Table.find?_insert? hinsert _).trans (if_pos rfl)
          intro record hrecord
          rcases (Table.mem_replace _ hstored).mp hrecord with rfl | ⟨hold, hne⟩
          · exact Or.inr ⟨proposed, ⟨hrequested, _, _, hproposed⟩,
              ⟨rfl, rfl, rfl, rfl, rfl, rfl, rfl, rfl⟩⟩
          · rcases (Table.mem_insert? hinsert).mp hold with hbefore | rfl
            · exact Or.inl ⟨record, hbefore, .refl record⟩
            · exact (hne rfl).elim

theorem Dispatched.apart {scope : Scope} {envelope : Envelope}
    (h : Dispatched scope envelope db db') : Apart db db' := by
  cases h with
  | duplicate => exact .refl db
  | ignored processedEvents => exact ⟨rfl, .refl db.outbox⟩
  | accepted processedEvents hrequested db' haccepted =>
      have hclaimed : Apart db { db with processedEvents } := ⟨rfl, .refl db.outbox⟩
      exact hclaimed.trans haccepted.apart

end Comes

namespace WorkerPair

variable {settings : Settings} {w w' : WorkerPair} {action : PairStep}

theorem stepped_apart (hstep : Stepped settings w action w') : Apart w.db w'.db := by
  cases hstep with
  | requested scope envelope db hdispatched => exact hdispatched.apart
  | claimed now limit hfree => exact ⟨rfl, .refl w.db.outbox⟩
  | recorded scope row rest answer record db hclaimed hrecord hanswered =>
      exact hanswered.apart
  | checked scope transferId rest seen receipt record db hlisted hphase hrecord hchecked =>
      exact hchecked.apart
  | idle | answered answer | missing scope row rest hclaimed hnone
  | raised scope row rest answer e hclaimed hanswer hraised | crashed
  | looked action head listed phase hlooked => exact .refl w.db

/-- The request comes with the step, if it is one. -/
def requestOf (action : PairStep) (proposed : OutgoingTransaction) : Prop :=
  ∃ scope envelope, action = .request scope envelope ∧
    envelope.eventType = .transferRequested ∧ ∃ now correlationId,
      proposedOutgoing now envelope.payload correlationId = .ok proposed

theorem stepped_comes (hstep : Stepped settings w action w') :
    Comes (requestOf action) w.db w'.db := by
  cases hstep with
  | requested scope envelope db hdispatched =>
      intro record hrecord
      rcases hdispatched.comes record hrecord with hold | ⟨proposed, hproposed, hsame⟩
      · exact Or.inl hold
      · exact Or.inr ⟨proposed, ⟨scope, envelope, rfl, hproposed⟩, hsame⟩
  | claimed now limit hfree =>
      intro record hrecord
      obtain ⟨old, hold, rfl⟩ := List.mem_map.mp hrecord
      refine Or.inl ⟨old, hold, ?_⟩
      split
      · exact ⟨rfl, rfl, rfl, rfl, rfl, rfl, rfl, rfl⟩
      · exact .refl old
  | recorded scope row rest answer record db hclaimed hrecord hanswered =>
      have hkey := Table.key_of_find? hrecord
      rw [← hkey] at hrecord
      apply Comes.of_written hrecord
      exact hanswered.written.imp (fun h => h) fun ⟨record', hrequest, _, hreplace⟩ =>
        ⟨record', hrequest, hreplace⟩
  | checked scope transferId rest seen receipt record db hlisted hphase hrecord hchecked =>
      have hkey := Table.key_of_find? hrecord
      rw [← hkey] at hrecord
      exact .of_written hrecord hchecked.written
  | idle | answered answer | missing scope row rest hclaimed hnone
  | raised scope row rest answer e hclaimed hanswer hraised | crashed
  | looked action head listed phase hlooked => exact .of_same rfl

/-- A write beside the records keeps what the loops have in hand. -/
theorem Orderly.beside (h : w.Orderly) {db : Db} (houtgoing : db.outgoing = w.db.outgoing) :
    ({ w with db } : WorkerPair).Orderly := by
  apply h.kept (.refl w.claimed) (.refl w.listed) (Or.inr ⟨rfl, rfl⟩)
  · intro row _
    rw [houtgoing]
  · intro transferId _
    rw [houtgoing]

end WorkerPair

end Blockchain

/-! ## The orders in every run -/

namespace Platform

/-- What the two services hold against each other. -/
structure Inv (w : Platform) : Prop where
  sound : Wallet.Sound w.wallet
  placed : Placed w.wallet
  orderly : w.service.Orderly
  reports : w.service.db.Reports
  orders : ∀ record ∈ w.service.db.outgoing.rows, ∃ t ∈ w.wallet.transfers.rows,
    Orders t record

theorem Inv.start : Inv .start where
  sound := .empty
  placed := .empty
  orderly := .start _
  reports := .empty _
  orders := by simp [Platform.start, WorkerPair.start, Blockchain.Db.empty]

variable {adapter : ChainAdapter σ} {settings : Blockchain.Settings}
  {config : Wallet.Config} {w : Platform}

theorem Inv.wallet (h : Inv w) {wallet : Wallet.Db} (hsound : Wallet.Sound wallet)
    (hplaced : Placed wallet) (hgrows : Wallet.Grows w.wallet wallet) :
    Inv { w with wallet } := by
  refine ⟨hsound, hplaced, h.orderly, h.reports, ?_⟩
  intro record hrecord
  obtain ⟨t, ht, horders⟩ := h.orders record hrecord
  obtain ⟨t', ht', hforward⟩ := hgrows t ht
  exact ⟨t', ht', horders.same hforward.terms (.refl record)⟩

/-- The request is in the outbox of the wallet. -/
def Requested (w : Platform) (action : PairStep) : Prop :=
  ∀ scope envelope, action = .request scope envelope →
    envelope ∈ w.wallet.outbox.envelopes

theorem Inv.worker (h : Inv w) {action : PairStep} (hrequested : w.Requested action) :
    Inv { w with service := WorkerPair.step settings action w.service } := by
  have hstep := WorkerPair.step_stepped settings action w.service
  refine ⟨h.sound, h.placed, h.orderly.stepped hstep,
    WorkerPair.step_reports h.orderly h.reports action, ?_⟩
  intro record hrecord
  rcases WorkerPair.stepped_comes hstep record hrecord with ⟨old, hold, hsame⟩ | ⟨proposed,
    ⟨scope, envelope, haction, htype, now, correlationId, hproposed⟩, hsame⟩
  · obtain ⟨t, ht, horders⟩ := h.orders old hold
    exact ⟨t, ht, horders.same (.refl t) hsame⟩
  · obtain ⟨t, ht, hrequested⟩ :=
      h.placed.requested envelope (hrequested scope envelope haction)
    obtain ⟨_, asset, _, hsymbol, rfl⟩ := hrequested.request
    obtain ⟨sender, hsender, recipient, hrecipient, hkey, hfrom, hkey', hto⟩ :=
      h.placed.addressed t ht
    have hstored := h.placed.stored sender hsender
    have hstored' := h.placed.stored recipient hrecipient
    simp only [Wallet.WalletRow.key, Prod.mk.injEq] at hkey
    have horders : Orders t proposed := by
      apply proposed_orders hproposed hsymbol
      · exact hkey.2.1 ▸ hstored.network.1
      · exact hkey.2.2 ▸ hstored.asset.1
      · exact hfrom ▸ hstored.address.1
      · exact hto ▸ hstored'.address.1
    exact ⟨t, ht, horders.same (.refl t) hsame⟩

theorem Inv.beside (h : Inv w) {db : Blockchain.Db} (hquiet : Blockchain.Quiet w.service.db db) :
    Inv { w with service := { w.service with db } } := by
  refine ⟨h.sound, h.placed, h.orderly.beside hquiet.outgoing, h.reports.quiet hquiet, ?_⟩
  intro record hrecord
  have hold : record ∈ w.service.db.outgoing.rows := by
    rw [← hquiet.outgoing]
    exact hrecord
  exact h.orders record hold

theorem relay_quiet (relaySettings : RelaySettings) (now : Nat)
    (publishError : EventId → Option String) (db : Blockchain.Db) :
    Blockchain.Quiet db
      { db with outbox := (relayOnce relaySettings now publishError db.outbox).1 } := by
  refine ⟨rfl, rfl, [], ?_, by simp⟩
  rw [List.append_nil]
  exact relayOnce_envelopes relaySettings now publishError db.outbox

theorem Inv.step (h : Inv w) (action : PlatformStep σ) :
    Inv (step adapter settings config action w) := by
  cases action with
  | wallet s =>
      apply h.wallet (Wallet.step_sound h.sound config s.val) ?_
        (Wallet.step_grows h.sound config s.val)
      exact h.placed.proceeds (Wallet.step_proceeds h.placed config s.property)
  | worker action =>
      apply h.worker
      intro scope envelope haction
      have hdelivers := action.property
      rw [haction] at hdelivers
      cases hdelivers
  | deposits task => exact h.beside (task.run_quiet w.service.db)
  | relay relaySettings now publishError =>
      exact h.beside (relay_quiet relaySettings now publishError w.service.db)
  | request scope eventId =>
      simp only [Platform.step]
      cases hrow : w.wallet.outbox.find? eventId with
      | none => exact h
      | some row =>
          apply h.worker
          intro scope' envelope haction
          cases haction
          exact List.mem_map_of_mem (Table.mem_of_find? hrow)
  | deliver scope eventId =>
      simp only [Platform.step]
      cases hrow : w.service.db.outbox.find? eventId with
      | none => exact h
      | some row =>
          apply h.wallet (Wallet.step_sound h.sound config _) ?_
            (Wallet.step_grows h.sound config _)
          have hheard := Wallet.step_heard h.sound config scope row.envelope
          generalize Wallet.step config _ w.wallet = wallet at hheard ⊢
          cases hheard with
          | idle => exact h.placed
          | heeded hfresh db' hrecorded hheeds => exact h.placed.heeds hheeds

theorem Inv.step_grows (h : Inv w) (action : PlatformStep σ) :
    Wallet.Grows w.wallet (Platform.step adapter settings config action w).wallet := by
  cases action with
  | wallet s => exact Wallet.step_grows h.sound config s.val
  | worker action => exact .refl w.wallet
  | deposits task => exact .refl w.wallet
  | relay relaySettings now publishError => exact .refl w.wallet
  | request scope eventId =>
      simp only [Platform.step]
      cases w.wallet.outbox.find? eventId with
      | none => exact .refl w.wallet
      | some row => exact .refl w.wallet
  | deliver scope eventId =>
      simp only [Platform.step]
      cases w.service.db.outbox.find? eventId with
      | none => exact .refl w.wallet
      | some row => exact Wallet.step_grows h.sound config _

theorem run_inv (actions : List (PlatformStep σ)) :
    Inv (runSteps (step adapter settings config) .start actions) :=
  runSteps_preserves (I := Inv) (fun _ action h => h.step action) .start actions

/-- In every run, whatever the broadcaster has claimed is a transfer of the wallet, sent
from the address of the sender's wallet to that of the recipient's, in full. -/
theorem sends_are_transfers (actions : List (PlatformStep σ)) :
    ∀ row ∈ (runSteps (step adapter settings config) .start actions).service.claimed,
      ∃ t ∈ (runSteps (step adapter settings config) .start actions).wallet.transfers.rows,
        row.sendRequest = ⟨t.fromAddress, t.toAddress, t.amount.toNat, t.id.str⟩ ∧
        row.asset.val = t.asset ∧ row.network.val = t.network ∧
        (runSteps (step adapter settings config) .start actions).wallet.Addressed t := by
  intro row hrow
  have hinv : Inv (runSteps (step adapter settings config) .start actions) := run_inv actions
  obtain ⟨hfind, _⟩ := hinv.orderly.claimed row hrow
  obtain ⟨t, ht, horders⟩ := hinv.orders row (Table.mem_of_find? hfind)
  exact ⟨t, ht, horders.sendRequest, horders.asset, horders.network,
    hinv.placed.addressed t ht⟩

end Platform

end CryptoWallet
