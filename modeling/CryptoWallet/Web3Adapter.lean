import CryptoWallet.OutgoingCases
import Mathlib.Data.List.Infix

/-!
# The EVM backend

A transfer is signed with the nonce allocated for it and with fees taken from the gas
price the node names at that moment.  The hash is known before the transaction is sent,
and it is also returned when the answer of the node is read as "already broadcast".

Two attempts at one transfer are the same transaction when they read the same gas price.
-/

namespace CryptoWallet.Blockchain

/-! ## The stored hash -/

theorem Answered.txHash {settings : Settings} {scope : Scope} {row before : OutgoingTransaction}
    {db db' : Db} {answer : Except ChainError ChainHash} {record : OutgoingTransaction}
    {txHash : ChainHash} (h : Answered settings scope row db before answer db')
    (hbefore : db.outgoing.find? row.transferId = some before)
    (hfind : db'.outgoing.find? row.transferId = some record)
    (hhash : record.txHash = some txHash) :
    before.txHash = some txHash ∨ answer = .ok txHash := by
  have hkey : before.transferId = row.transferId := db.outgoing.key_of_find? hbefore
  have hsame : db' = db → before.txHash = some txHash := by
    rintro rfl
    rw [hbefore] at hfind
    cases hfind
    exact hhash
  have hwritten : ∀ written : OutgoingTransaction, written.transferId = before.transferId →
      db'.outgoing = db.outgoing.replace written → written.txHash = some txHash := by
    intro written hwrittenKey houtgoing
    rw [houtgoing, db.outgoing.find?_replace_of_key (hwrittenKey.trans hkey) hbefore] at hfind
    cases hfind
    exact hhash
  cases h with
  | closed txHash' hstatus => exact Or.inl (hsame rfl)
  | broadcast txHash' hopen payload hpayload db' hannounces =>
      obtain ⟨outbox, -, rfl⟩ := hannounces
      right
      have hstored := hwritten (before.broadcastedAs scope.now txHash') rfl rfl
      have hequal : txHash' = txHash := Option.some.inj hstored
      rw [hequal]
  | confirmed answer habandoned hstatus => exact Or.inl (hsame rfl)
  | failed answer habandoned hopen reason code payload hpayload db' hannounces =>
      obtain ⟨outbox, -, rfl⟩ := hannounces
      exact Or.inl (hwritten (before.failedBroadcast reason) rfl rfl)
  | retried answer hretriable reason =>
      exact Or.inl (hwritten (before.retried scope.now row.attempts reason) rfl rfl)

/-- The hash in the record is the one of before, or the one that was returned. -/
theorem broadcastOne_txHash {σ : Type} {port : ChainAdapter σ} {settings : Settings}
    {scope : Scope} {row record : OutgoingTransaction} {chain : σ} {db : Db} {txHash : ChainHash}
    (hfind : (broadcastOne port settings scope row (chain, db)).2.2.outgoing.find?
      row.transferId = some record) (hhash : record.txHash = some txHash) :
    (∃ before, db.outgoing.find? row.transferId = some before ∧
      before.txHash = some txHash) ∨
      (port.sendTransfer row.sendRequest chain).1 = .ok txHash := by
  unfold broadcastOne at hfind
  dsimp only at hfind
  generalize (port.sendTransfer row.sendRequest chain).1 = answer at hfind ⊢
  generalize correlationScope scope (row.correlationId.map Subtype.val) = bound at hfind
  have hanswered := broadcastTx_ensures settings bound row answer db
  cases hcommit : Tx.commit (broadcastTx settings bound row answer) db with
  | mk result db' =>
      rw [hcommit] at hfind
      cases result with
      | error failure =>
          rw [Tx.commit_error hcommit] at hfind
          exact Or.inl ⟨record, hfind, hhash⟩
      | ok outcome =>
          rcases hanswered.commit_ok hcommit with ⟨-, rfl⟩ | ⟨before, hbefore, h⟩
          · exact Or.inl ⟨record, hfind, hhash⟩
          · rcases h.txHash hbefore hfind hhash with hold | hnew
            · exact Or.inl ⟨before, hbefore, hold⟩
            · exact Or.inr hnew

/-! ## The adapter -/

/-- The dictionary `build_transaction` fills in. -/
structure UnsignedTransfer where
  chainId : Nat
  sender : String
  nonce : Nat
  gas : Nat
  maxFeePerGas : Nat
  maxPriorityFeePerGas : Nat
  token : String
  data : String
  deriving DecidableEq

/-- What `eth_sendRawTransaction` comes to.  A node may have taken a transaction though the
call failed. -/
inductive SendReply where
  | accepted
  | error (text : String) (taken : Bool)
  deriving DecidableEq

/-- A node at the moment of a call: the gas price it names, the transactions in its pool
and its chain, and how it takes another. -/
structure EvmNode (Tx : Type) where
  gasPrice : Except ChainError Nat
  holds : List Tx
  reply : Tx → SendReply

def EvmNode.take {Tx : Type} (node : EvmNode Tx) (tx : Tx) : EvmNode Tx :=
  { node with holds := tx :: node.holds }

/-- The configuration of the adapter.  Addresses, call data and keys come from outside;
signing and hashing lose nothing. -/
structure Web3ChainAdapter (Key Tx Hash : Type) where
  chainId : Nat
  tokenAddress : String
  gasLimit : Nat
  letters : LetterCase
  toChecksumAddress : String → Except ChainError String
  nonceAllocator : String → String → Except ChainError Nat
  keyResolver : String → Except ChainError Key
  encodeTransfer : String → Int → Except ChainError String
  sign : UnsignedTransfer → Key → Tx
  hash : Tx → Hash
  sign_injective : ∀ key, Function.Injective fun tx => sign tx key
  hash_injective : Function.Injective hash

/-- `part in text`. -/
def mentions (part text : String) : Bool := decide (part.toList <:+: text.toList)

namespace Web3ChainAdapter

variable {Key Tx Hash : Type} (adapter : Web3ChainAdapter Key Tx Hash)

/-- The transaction that is signed for a request once the gas price was read. -/
def signed (request : SendRequest) (gasPrice : Except ChainError Nat) :
    Except ChainError Tx := do
  let sender ← adapter.toChecksumAddress request.fromAddress
  let recipient ← adapter.toChecksumAddress request.toAddress
  let nonce ← adapter.nonceAllocator sender request.clientRef
  let privateKey ← adapter.keyResolver sender
  let baseFee ← gasPrice
  let data ← adapter.encodeTransfer recipient request.amount
  return adapter.sign {
    chainId := adapter.chainId
    sender
    nonce
    gas := adapter.gasLimit
    maxFeePerGas := baseFee * 2
    maxPriorityFeePerGas := baseFee
    token := adapter.tokenAddress
    data } privateKey

/-- Previously broadcast, as far as the message goes. -/
def readAsKnown (text : String) : Bool :=
  let message := adapter.letters.lower text
  mentions "already known" message || mentions "nonce too low" message

def sendTransfer (request : SendRequest) (node : EvmNode Tx) :
    Except ChainError Hash × EvmNode Tx :=
  match adapter.signed request node.gasPrice with
  | .error e => (.error e, node)
  | .ok tx =>
    match node.reply tx with
    | .accepted => (.ok (adapter.hash tx), node.take tx)
    | .error text taken =>
      let message := adapter.letters.lower text
      let answer :=
        if adapter.readAsKnown text then .ok (adapter.hash tx)
        else if mentions "insufficient" message || mentions "revert" message then
          .error (.transactionRejected text)
        else .error (.rpcUnavailable text)
      (answer, if taken then node.take tx else node)

/-- The port of the service; hashes appear in it as text, and `reads` are its other
methods. -/
def port (hashText : Hash → ChainHash) (reads : ChainAdapter (EvmNode Tx)) :
    ChainAdapter (EvmNode Tx) :=
  { reads with
    sendTransfer := fun request node =>
      ((adapter.sendTransfer request node).1.map hashText,
        (adapter.sendTransfer request node).2) }

/-! ## One call -/

variable {adapter}

/-- The transaction without the fees that depend on the node. -/
theorem signed_eq_ok_iff {request : SendRequest} {gasPrice : Except ChainError Nat} {tx : Tx} :
    adapter.signed request gasPrice = .ok tx ↔
      ∃ sender recipient nonce privateKey baseFee data,
        adapter.toChecksumAddress request.fromAddress = .ok sender ∧
        adapter.toChecksumAddress request.toAddress = .ok recipient ∧
        adapter.nonceAllocator sender request.clientRef = .ok nonce ∧
        adapter.keyResolver sender = .ok privateKey ∧
        gasPrice = .ok baseFee ∧
        adapter.encodeTransfer recipient request.amount = .ok data ∧
        adapter.sign ⟨adapter.chainId, sender, nonce, adapter.gasLimit, baseFee * 2, baseFee,
          adapter.tokenAddress, data⟩ privateKey = tx := by
  unfold signed
  simp only [bind_eq_ok, pure, Except.pure, Except.ok.injEq]
  constructor
  · rintro ⟨sender, hsender, recipient, hrecipient, nonce, hnonce, key, hkey, fee, hfee,
      data, hdata, htx⟩
    exact ⟨sender, recipient, nonce, key, fee, data, hsender, hrecipient, hnonce, hkey, hfee,
      hdata, htx⟩
  · rintro ⟨sender, recipient, nonce, key, fee, data, hsender, hrecipient, hnonce, hkey, hfee,
      hdata, htx⟩
    exact ⟨sender, hsender, recipient, hrecipient, nonce, hnonce, key, hkey, fee, hfee,
      data, hdata, htx⟩

/-- A request that can be signed at one price can be at every other, and the price can be
told from the transaction. -/
theorem signed_at {request : SendRequest} {baseFee : Nat} {tx : Tx}
    (h : adapter.signed request (.ok baseFee) = .ok tx) (baseFee' : Nat) :
    ∃ tx', adapter.signed request (.ok baseFee') = .ok tx' ∧
      (tx = tx' → baseFee = baseFee') := by
  obtain ⟨sender, recipient, nonce, key, fee, data, hsender, hrecipient, hnonce, hkey, hfee,
    hdata, htx⟩ := signed_eq_ok_iff.mp h
  cases hfee
  refine ⟨_, signed_eq_ok_iff.mpr ⟨sender, recipient, nonce, key, baseFee', data, hsender,
    hrecipient, hnonce, hkey, rfl, hdata, rfl⟩, ?_⟩
  intro heq
  rw [← htx] at heq
  have hunsigned := adapter.sign_injective key heq
  simp only [UnsignedTransfer.mk.injEq] at hunsigned
  exact hunsigned.2.2.2.2.2.1

/-- What is returned is the hash of the transaction that was signed. -/
theorem sendTransfer_ok {request : SendRequest} {node : EvmNode Tx} {h : Hash}
    (hsend : (adapter.sendTransfer request node).1 = .ok h) :
    ∃ tx, adapter.signed request node.gasPrice = .ok tx ∧ adapter.hash tx = h := by
  unfold sendTransfer at hsend
  cases hsigned : adapter.signed request node.gasPrice with
  | error e => simp [hsigned] at hsend
  | ok tx =>
      refine ⟨tx, rfl, ?_⟩
      simp only [hsigned] at hsend
      split at hsend
      · exact Except.ok.inj hsend
      · dsimp only at hsend
        split_ifs at hsend
        exact Except.ok.inj hsend

variable (adapter)

/-- The message claims a transaction as known only when the node has that transaction. -/
def Truthful (request : SendRequest) (node : EvmNode Tx) : Prop :=
  ∀ tx text, adapter.signed request node.gasPrice = .ok tx →
    node.reply tx = .error text false → adapter.readAsKnown text = true → tx ∈ node.holds

/-- A returned hash is that of a transaction the node accepted or already has. -/
def NamesHeld (request : SendRequest) (node : EvmNode Tx) : Prop :=
  ∀ h, (adapter.sendTransfer request node).1 = .ok h →
    ∃ tx ∈ (adapter.sendTransfer request node).2.holds, adapter.hash tx = h

variable {adapter}

theorem namesHeld_iff {request : SendRequest} {node : EvmNode Tx} :
    adapter.NamesHeld request node ↔ adapter.Truthful request node := by
  constructor
  · intro h tx text hsigned hreply hknown
    have hanswer : adapter.sendTransfer request node = (.ok (adapter.hash tx), node) := by
      simp [sendTransfer, hsigned, hreply, hknown]
    obtain ⟨held, hheld, hhash⟩ := h (adapter.hash tx) (by rw [hanswer])
    rw [hanswer] at hheld
    rw [adapter.hash_injective hhash] at hheld
    exact hheld
  · intro h hash hsend
    obtain ⟨tx, hsigned, rfl⟩ := sendTransfer_ok hsend
    refine ⟨tx, ?_, rfl⟩
    cases hreply : node.reply tx with
    | accepted => simp [sendTransfer, hsigned, hreply, EvmNode.take]
    | error text taken =>
        cases taken with
        | true => simp [sendTransfer, hsigned, hreply, EvmNode.take]
        | false =>
            have hknown : adapter.readAsKnown text = true := by
              by_contra hunknown
              have hread : adapter.readAsKnown text = false := by simpa using hunknown
              simp only [sendTransfer, hsigned, hreply, hread, Bool.false_eq_true,
                if_false] at hsend
              split_ifs at hsend
            have hheld := h tx text hsigned hreply hknown
            simpa [sendTransfer, hsigned, hreply] using hheld

/-! ## What the worker stores -/

variable (adapter) in
/-- What the worker writes as the hash of the transfer names a transaction the node has. -/
def StoresHeld (hashText : Hash → ChainHash) (reads : ChainAdapter (EvmNode Tx))
    (request : SendRequest) (node : EvmNode Tx) : Prop :=
  ∀ settings scope row db record txHash, row.sendRequest = request →
    (broadcastOne (adapter.port hashText reads) settings scope row
      (node, db)).2.2.outgoing.find? row.transferId = some record →
    record.txHash = some txHash →
      (∃ before, db.outgoing.find? row.transferId = some before ∧
        before.txHash = some txHash) ∨
      ∃ tx ∈ (broadcastOne (adapter.port hashText reads) settings scope row
        (node, db)).2.1.holds, hashText (adapter.hash tx) = txHash

theorem NamesHeld.stores {request : SendRequest} {node : EvmNode Tx}
    (h : adapter.NamesHeld request node) (hashText : Hash → ChainHash)
    (reads : ChainAdapter (EvmNode Tx)) : adapter.StoresHeld hashText reads request node := by
  rintro settings scope row db record txHash rfl hfind hhash
  rcases broadcastOne_txHash hfind hhash with hold | hreturned
  · exact Or.inl hold
  · have hchain : (broadcastOne (adapter.port hashText reads) settings scope row
        (node, db)).2.1 = (adapter.sendTransfer row.sendRequest node).2 := rfl
    have hanswer : ((adapter.port hashText reads).sendTransfer row.sendRequest node).1 =
        (adapter.sendTransfer row.sendRequest node).1.map hashText := rfl
    rw [hanswer] at hreturned
    cases hsend : (adapter.sendTransfer row.sendRequest node).1 with
    | error e => simp [hsend, Except.map] at hreturned
    | ok hash =>
        rw [hsend] at hreturned
        have htext : hashText hash = txHash := Except.ok.inj hreturned
        obtain ⟨tx, htx, hheld⟩ := h hash hsend
        right
        rw [hchain]
        exact ⟨tx, htx, by rw [hheld, htext]⟩

/-! ## Two calls -/

variable (adapter)

/-- Two calls for one request send the same transaction and return its hash, which the
node has; and so has it what the worker stores. -/
structure SameTransaction (hashText : Hash → ChainHash) (reads : ChainAdapter (EvmNode Tx))
    (request : SendRequest) (node node' : EvmNode Tx) : Prop where
  signedAlike : ∀ tx tx', adapter.signed request node.gasPrice = .ok tx →
    adapter.signed request node'.gasPrice = .ok tx' → tx = tx'
  returnedAlike : ∀ h h', (adapter.sendTransfer request node).1 = .ok h →
    (adapter.sendTransfer request node').1 = .ok h' → h = h'
  held : ∀ called ∈ [node, node'], adapter.NamesHeld request called
  stored : ∀ called ∈ [node, node'], adapter.StoresHeld hashText reads request called

/-- The prices the two calls read agree, if the request can be signed at all. -/
def SamePrice (request : SendRequest) (node node' : EvmNode Tx) : Prop :=
  ∀ baseFee baseFee' tx, node.gasPrice = .ok baseFee → node'.gasPrice = .ok baseFee' →
    adapter.signed request (.ok baseFee) = .ok tx → baseFee = baseFee'

variable {adapter}

theorem signed_alike_iff {request : SendRequest} {node node' : EvmNode Tx} :
    (∀ tx tx', adapter.signed request node.gasPrice = .ok tx →
      adapter.signed request node'.gasPrice = .ok tx' → tx = tx') ↔
      adapter.SamePrice request node node' := by
  constructor
  · intro h baseFee baseFee' tx hprice hprice' hsigned
    obtain ⟨tx', hsigned', hfee⟩ := signed_at hsigned baseFee'
    rw [← hprice] at hsigned
    rw [← hprice'] at hsigned'
    exact hfee (h tx tx' hsigned hsigned')
  · intro h tx tx' hsigned hsigned'
    obtain ⟨_, _, _, _, baseFee, _, _, _, _, _, hprice, _⟩ := signed_eq_ok_iff.mp hsigned
    obtain ⟨_, _, _, _, baseFee', _, _, _, _, _, hprice', _⟩ := signed_eq_ok_iff.mp hsigned'
    rw [hprice] at hsigned
    rw [hprice'] at hsigned'
    rw [h baseFee baseFee' tx hprice hprice' hsigned, hsigned'] at hsigned
    exact (Except.ok.inj hsigned).symm

/-- A rebroadcast is the same transaction, and its hash that of one the node has, exactly
when the price did not move between the calls and the messages that are read as "already
broadcast" are true of it. -/
theorem rebroadcast_is_the_same_iff (adapter : Web3ChainAdapter Key Tx Hash)
    (hashText : Hash → ChainHash) (reads : ChainAdapter (EvmNode Tx)) (request : SendRequest)
    (node node' : EvmNode Tx) :
    adapter.SameTransaction hashText reads request node node' ↔
      adapter.SamePrice request node node' ∧ adapter.Truthful request node ∧
        adapter.Truthful request node' := by
  constructor
  · intro h
    refine ⟨signed_alike_iff.mp h.signedAlike, namesHeld_iff.mp ?_, namesHeld_iff.mp ?_⟩
    · exact h.held node (by simp)
    · exact h.held node' (by simp)
  · rintro ⟨hprice, htruthful, htruthful'⟩
    have hsigned := signed_alike_iff.mpr hprice
    have hheld : ∀ called ∈ [node, node'], adapter.NamesHeld request called := by
      intro called hcalled
      simp only [List.mem_cons, List.not_mem_nil, or_false] at hcalled
      rcases hcalled with rfl | rfl
      · exact namesHeld_iff.mpr htruthful
      · exact namesHeld_iff.mpr htruthful'
    refine ⟨hsigned, ?_, hheld, fun called hcalled => (hheld called hcalled).stores hashText reads⟩
    intro h h' hsend hsend'
    obtain ⟨tx, htx, rfl⟩ := sendTransfer_ok hsend
    obtain ⟨tx', htx', rfl⟩ := sendTransfer_ok hsend'
    rw [hsigned tx tx' htx htx']

/-! ## The price moves -/

def plainAdapter : Web3ChainAdapter Unit UnsignedTransfer UnsignedTransfer where
  chainId := 97
  tokenAddress := "0xtoken"
  gasLimit := 120000
  letters := LetterCase.ascii
  toChecksumAddress := .ok
  nonceAllocator _ _ := .ok 7
  keyResolver _ := .ok ()
  encodeTransfer recipient amount := .ok (recipient ++ ":" ++ toString amount)
  sign tx _ := tx
  hash tx := tx
  sign_injective _ := fun _ _ h => h
  hash_injective := fun _ _ h => h

def paidRequest : SendRequest := ⟨"0xsender", "0xrecipient", 250, "transfer"⟩

def firstNode : EvmNode UnsignedTransfer := ⟨.ok 10, [], fun _ => .accepted⟩

/-- The first transaction was mined and the price rose. -/
def laterNode : EvmNode UnsignedTransfer where
  gasPrice := .ok 11
  holds := (plainAdapter.sendTransfer paidRequest firstNode).2.holds
  reply _ := .error "nonce too low" false

/-- The second attempt returns the hash of a transaction the node does not have. -/
theorem second_attempt_is_another_transaction :
    (∃ h, (plainAdapter.sendTransfer paidRequest laterNode).1 = .ok h ∧
      (plainAdapter.sendTransfer paidRequest firstNode).1 ≠ .ok h ∧
      h ∉ (plainAdapter.sendTransfer paidRequest laterNode).2.holds) ∧
    ∀ (hashText : UnsignedTransfer → ChainHash)
      (reads : ChainAdapter (EvmNode UnsignedTransfer)),
      ¬plainAdapter.SameTransaction hashText reads paidRequest firstNode laterNode := by
  have hsecond : (plainAdapter.sendTransfer paidRequest laterNode).1 =
      .ok ⟨97, "0xsender", 7, 120000, 22, 11, "0xtoken", "0xrecipient:250"⟩ := by
    decide +kernel
  have hfirst : (plainAdapter.sendTransfer paidRequest firstNode).1 =
      .ok ⟨97, "0xsender", 7, 120000, 20, 10, "0xtoken", "0xrecipient:250"⟩ := by
    decide +kernel
  refine ⟨⟨_, hsecond, ?_, ?_⟩, ?_⟩
  · rw [hfirst]
    simp
  · decide +kernel
  · intro hashText reads h
    have hsame := h.returnedAlike _ _ hfirst hsecond
    simp at hsame

end Web3ChainAdapter
end CryptoWallet.Blockchain
