import CryptoWallet.Failures

/-!
# The chain port

The blockchain service talks to a chain through one interface.  An adapter
reads the state of the chain, of whatever type that is, and submits transfers
to it; every call may fail.
-/

namespace CryptoWallet

def isHashChar (c : Char) : Bool :=
  c ∈ "0123456789abcdefx".toList

/-- The hexadecimal text of a hash of 32 bytes, with or without `0x`. -/
abbrev ChainHash :=
  { text : String //
    text ≠ "" ∧ text.length ≤ 66 ∧ ∀ c ∈ text.toList, isHashChar c = true }

def ChainHash.literal (text : String)
    (h : text ≠ "" ∧ text.length ≤ 66 ∧ text.toList.all isHashChar = true) : ChainHash :=
  ⟨text, h.1, h.2.1, List.all_eq_true.mp h.2.2⟩

theorem ChainHash.colon_not_mem (hash : ChainHash) : ':' ∉ hash.val.toList := by
  intro hmem
  have hchar := hash.property.2.2 ':' hmem
  revert hchar
  decide

theorem ChainHash.nul_not_mem (hash : ChainHash) : '\x00' ∉ hash.val.toList := by
  intro hmem
  have hchar := hash.property.2.2 '\x00' hmem
  revert hchar
  decide

inductive ChainError where
  | rpcUnavailable (message : String)
  | transactionRejected (message : String)
  | other (message : String)
  deriving DecidableEq

def ChainError.message : ChainError → String
  | rpcUnavailable message | transactionRejected message | other message => message

/-- A decoded `Transfer` event. -/
structure TransferLog where
  network : String
  asset : String
  txHash : ChainHash
  logIndex : Nat
  blockNumber : Nat
  blockHash : ChainHash
  fromAddress : String
  toAddress : String
  amount : Nat
  deriving DecidableEq

structure TxReceipt where
  txHash : ChainHash
  blockNumber : Nat
  blockHash : ChainHash
  status : Nat
  deriving DecidableEq

structure SendRequest where
  fromAddress : String
  toAddress : String
  amount : Int
  clientRef : String

/-- What a backend offers to the service, as functions of the chain's state. -/
structure ChainAdapter (σ : Type) where
  network : String
  asset : String
  getBlockNumber : σ → Except ChainError Nat
  getBlockHash : σ → Nat → Except ChainError (Option ChainHash)
  getTransferLogs : σ → Nat → Nat → List String → Except ChainError (List TransferLog)
  getReceipt : σ → ChainHash → Except ChainError (Option TxReceipt)
  sendTransfer : SendRequest → σ → Except ChainError ChainHash × σ

/-! ## The natural key of a deposit -/

/-- Network, transaction hash and log index. -/
abbrev DepositId := String × ChainHash × Nat

def DepositId.text (id : DepositId) : String :=
  id.1 ++ ":" ++ id.2.1.val ++ ":" ++ toString id.2.2

def TransferLog.identity (entry : TransferLog) : DepositId :=
  (entry.network, entry.txHash, entry.logIndex)

/-- The identity together with the hash of a block. -/
def DepositId.inBlock (id : DepositId) (blockHash : ChainHash) : String :=
  DepositId.text id ++ ":" ++ blockHash.val

/-- The text is the identity together with the hash of some block. -/
def DepositId.refers (id : DepositId) (text : String) : Bool :=
  let start := (DepositId.text id ++ ":").toList
  start.isPrefixOf text.toList && decide (':' ∉ text.toList.drop start.length)

/-! ### The texts determine their parts -/

/-- Two texts split at their last colon. -/
theorem append_colon_inj {x y x' y' : List Char}
    (h : x ++ ':' :: y = x' ++ ':' :: y') (hy : ':' ∉ y) (hy' : ':' ∉ y') :
    x = x' ∧ y = y' := by
  have hrest : ∀ {u v rest : List Char}, ':' ∉ v →
      ':' :: v = rest ++ ':' :: u → rest = [] := by
    intro u v rest hv heq
    cases rest with
    | nil => rfl
    | cons c rest =>
        rw [List.cons_append, List.cons.injEq] at heq
        rw [heq.2] at hv
        simp at hv
  rcases List.append_eq_append_iff.mp h with ⟨rest, hx, hsplit⟩ | ⟨rest, hx, hsplit⟩
  · rw [hrest hy hsplit] at hx hsplit
    simp_all
  · rw [hrest hy' hsplit] at hx hsplit
    simp_all

theorem colon_not_mem_toString (n : Nat) : ':' ∉ (toString n).toList := by
  intro hmem
  have htext : (toString n).toList = Nat.toDigits 10 n := Nat.toList_repr
  rw [htext] at hmem
  have hdigit : (':').isDigit = true :=
    Nat.isDigit_of_mem_toDigits (by omega) (by omega) hmem
  revert hdigit
  decide

theorem toString_inj {n m : Nat} (h : toString n = toString m) : n = m := by
  have hdigits : Nat.toDigits 10 n = Nat.toDigits 10 m := by
    rw [← Nat.toList_repr, ← Nat.toList_repr]
    exact congrArg String.toList h
  have hread := readDigits_toDigits n
  rw [hdigits, readDigits_toDigits m] at hread
  exact (Option.some.inj hread).symm

namespace DepositId

theorem text_toList (id : DepositId) :
    (text id).toList = (id.1.toList ++ ':' :: id.2.1.val.toList) ++
      ':' :: (toString id.2.2).toList := by
  simp [text]

theorem inBlock_toList (id : DepositId) (blockHash : ChainHash) :
    (inBlock id blockHash).toList =
      (text id).toList ++ ':' :: blockHash.val.toList := by
  simp [inBlock]

theorem text_inj {id id' : DepositId} (h : text id = text id') : id = id' := by
  have hlist := congrArg String.toList h
  rw [text_toList, text_toList] at hlist
  obtain ⟨hfront, hindex⟩ := append_colon_inj hlist
    (colon_not_mem_toString id.2.2) (colon_not_mem_toString id'.2.2)
  obtain ⟨hnetwork, hhash⟩ := append_colon_inj hfront
    id.2.1.colon_not_mem id'.2.1.colon_not_mem
  have hindex := toString_inj (String.toList_inj.mp hindex)
  have hnetwork := String.toList_inj.mp hnetwork
  have hhash := Subtype.ext (String.toList_inj.mp hhash)
  exact Prod.ext hnetwork (Prod.ext hhash hindex)

theorem inBlock_inj {id id' : DepositId} {blockHash blockHash' : ChainHash}
    (h : inBlock id blockHash = inBlock id' blockHash') :
    id = id' ∧ blockHash = blockHash' := by
  have hlist := congrArg String.toList h
  rw [inBlock_toList, inBlock_toList] at hlist
  obtain ⟨htext, hhash⟩ := append_colon_inj hlist blockHash.colon_not_mem
    blockHash'.colon_not_mem
  exact ⟨text_inj (String.toList_inj.mp htext),
    Subtype.ext (String.toList_inj.mp hhash)⟩

theorem refers_inBlock_iff (id id' : DepositId) (blockHash : ChainHash) :
    refers id (inBlock id' blockHash) = true ↔ id = id' := by
  have hstart : ∀ id : DepositId, (text id ++ ":").toList = (text id).toList ++ [':'] := by
    intro id
    simp
  constructor
  · intro h
    simp only [refers, Bool.and_eq_true, decide_eq_true_eq] at h
    obtain ⟨hstarts, hcolon⟩ := h
    obtain ⟨rest, hrest⟩ := List.isPrefixOf_iff_prefix.mp hstarts
    rw [← hrest, List.drop_left] at hcolon
    rw [hstart, inBlock_toList, List.append_assoc] at hrest
    obtain ⟨htext, _⟩ := append_colon_inj hrest hcolon blockHash.colon_not_mem
    exact text_inj (String.toList_inj.mp htext)
  · rintro rfl
    have hsplit : (inBlock id blockHash).toList =
        (text id ++ ":").toList ++ blockHash.val.toList := by
      rw [hstart, inBlock_toList, List.append_assoc]
      rfl
    simp only [refers, Bool.and_eq_true, decide_eq_true_eq, hsplit, List.drop_left]
    exact ⟨List.isPrefixOf_iff_prefix.mpr (List.prefix_append _ _),
      blockHash.colon_not_mem⟩

end DepositId
end CryptoWallet
