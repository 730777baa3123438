import CryptoWallet.PythonValue

/-!
# Failures of requests and statements

Application errors carry a stable code, the HTTP status belonging to it and a
detail text.  Everything else a statement or a Python primitive can raise is
kept apart by its cause: a violated constraint, a value the column or the
driver does not take, a missing payload key, a malformed number or UUID.
-/

namespace CryptoWallet

inductive ErrorKind where
  | validation
  | unauthorized
  | notFound
  | conflict
  | walletInactive
  | insufficientFunds
  | idempotencyConflict
  | idempotencyInProgress
  | upstreamUnavailable
  deriving DecidableEq

namespace ErrorKind

def statusCode : ErrorKind → Nat
  | validation => 422
  | unauthorized => 401
  | notFound => 404
  | conflict | walletInactive | insufficientFunds | idempotencyConflict
  | idempotencyInProgress => 409
  | upstreamUnavailable => 503

def code : ErrorKind → String
  | validation => "VALIDATION_ERROR"
  | unauthorized => "UNAUTHORIZED"
  | notFound => "NOT_FOUND"
  | conflict => "CONFLICT"
  | walletInactive => "WALLET_INACTIVE"
  | insufficientFunds => "INSUFFICIENT_FUNDS"
  | idempotencyConflict => "IDEMPOTENCY_KEY_REUSED"
  | idempotencyInProgress => "IDEMPOTENT_REQUEST_IN_PROGRESS"
  | upstreamUnavailable => "UPSTREAM_UNAVAILABLE"

end ErrorKind

structure AppError where
  kind : ErrorKind
  detail : String
  errors : List (List (String × String))
  deriving DecidableEq

inductive Constraint where
  | usersPkey
  | usersEmailKey
  | walletsPkey
  | walletsAddressKey
  | walletsUserIdFkey
  | balancesUserIdFkey
  | balancesAssetNotNull
  | ckBalanceReservedNonNegative
  | ckBalanceAvailableNonNegative
  | ledgerEntriesUserIdFkey
  | ckLedgerAmountNonZero
  | addressesAddressKey
  | ckDepositAmountPositive
  | ckOutgoingAmountPositive
  | outgoingTransactionsNotNull
  | outgoingTransactionsTxHashKey
  | blocksPkey
  deriving DecidableEq

inductive Failure where
  | app (error : AppError)
  | keyError (key : String)
  | valueError
  | integrity (constraint : Constraint)
  | dataError
  | notAdaptable
  | noResult
  | assertionError
  | arithmeticError
  deriving DecidableEq

/-- Rejected by one of the two CHECK constraints on `balances`. -/
def Failure.isBalanceCheck : Failure → Bool
  | .integrity .ckBalanceReservedNonNegative => true
  | .integrity .ckBalanceAvailableNonNegative => true
  | _ => false

/-! ## Binding values to columns -/

-- PostgreSQL text takes every character but NUL.
def bindString (text : String) : Except Failure String :=
  if '\x00' ∈ text.toList then .error .dataError else .ok text

/-- What a column of type VARCHAR can hold. -/
abbrev Varchar (limit : Nat) :=
  { text : String // text.length ≤ limit ∧ '\x00' ∉ text.toList }

-- Characters beyond the limit are an error, except for spaces, which are cut.
def varchar (limit : Nat) (text : String) : Except Failure (Varchar limit) :=
  if hnul : '\x00' ∈ text.toList then .error .dataError
  else if h : text.length ≤ limit then .ok ⟨text, h, hnul⟩
  else if (text.toList.drop limit).all (· = ' ') then
    .ok ⟨String.ofList (text.toList.take limit), by simp [String.length_ofList], by
      rw [String.toList_ofList]
      exact fun hmem => hnul (List.mem_of_mem_take hmem)⟩
  else .error .dataError

/-- A payload value bound where the statement expects text; `none` is `NULL`. -/
def bindText : Json → Except Failure (Option String)
  | .null => .ok none
  | .bool b => .ok (some (if b then "true" else "false"))
  | .int n => .ok (some (toString n))
  | .str s => (bindString s).map some
  | .other o =>
    match o.bound with
    | some text => (bindString text).map some
    | none => .error .notAdaptable

def bindVarchar (limit : Nat) (value : Json) : Except Failure (Option String) := do
  match ← bindText value with
  | none => .ok none
  | some text => (varchar limit text).map fun stored => some stored.val

/-- `payload[key]`. -/
def Payload.item (payload : Payload) (key : String) : Except Failure Json :=
  match payload.get? key with
  | some value => .ok value
  | none => .error (.keyError key)

/-- `int(value)`. -/
def pyIntOf (value : Json) : Except Failure Int :=
  match value.toInt? with
  | some n => .ok n
  | none => .error .valueError

/-- `uuid.UUID(str(value))`. -/
def uuidOf (value : Json) : Except Failure Uuid :=
  match Uuid.parse? value.toStr with
  | some u => .ok u
  | none => .error .valueError

theorem bind_eq_ok {ε α β : Type} {x : Except ε α} {f : α → Except ε β} {b : β} :
    x >>= f = .ok b ↔ ∃ a, x = .ok a ∧ f a = .ok b := by
  cases x with
  | error e => simp [bind, Except.bind]
  | ok a => simp [bind, Except.bind]

theorem Payload.Same.item {payload payload' : Payload}
    (h : payload.Same payload') (key : String) :
    payload.item key = payload'.item key := by
  unfold Payload.item
  rw [h key]

theorem varchar_eq {limit : Nat} {text : String} {stored : Varchar limit}
    (hlength : text.length ≤ limit)
    (h : varchar limit text = .ok stored) : stored.val = text := by
  unfold varchar at h
  split at h
  · cases h
  · cases h
    rfl

theorem varchar_ok {limit : Nat} {text : String} (hlength : text.length ≤ limit)
    (hnul : '\x00' ∉ text.toList) :
    varchar limit text = .ok ⟨text, hlength, hnul⟩ := by
  rw [varchar, dif_neg hnul, dif_pos hlength]

/-- Binding never fails for a reason which concerns balances. -/
theorem varchar_not_balanceCheck {limit : Nat} {text : String} {e : Failure}
    (h : varchar limit text = .error e) : e.isBalanceCheck = false := by
  unfold varchar at h
  split_ifs at h <;> cases h <;> rfl

theorem bindText_not_balanceCheck {value : Json} {e : Failure}
    (h : bindText value = .error e) : e.isBalanceCheck = false := by
  cases value with
  | null => cases h
  | bool b => cases h
  | int n => cases h
  | str s =>
      simp only [bindText, bindString] at h
      split at h <;> cases h
      rfl
  | other o =>
      simp only [bindText, bindString] at h
      split at h
      · split at h <;> cases h
        rfl
      · cases h
        rfl

theorem bindVarchar_not_balanceCheck {limit : Nat} {value : Json} {e : Failure}
    (h : bindVarchar limit value = .error e) : e.isBalanceCheck = false := by
  unfold bindVarchar at h
  cases htext : bindText value with
  | error e' =>
      simp only [htext, bind, Except.bind, Except.error.injEq] at h
      subst h
      exact bindText_not_balanceCheck htext
  | ok text =>
      simp only [htext, bind, Except.bind] at h
      cases text with
      | none => cases h
      | some text =>
          cases hvarchar : varchar limit text with
          | ok _ => simp [hvarchar, Except.map] at h
          | error e' =>
              simp only [hvarchar, Except.map, Except.error.injEq] at h
              subst h
              exact varchar_not_balanceCheck hvarchar

theorem item_not_balanceCheck {payload : Payload} {key : String} {e : Failure}
    (h : payload.item key = .error e) : e.isBalanceCheck = false := by
  unfold Payload.item at h
  split at h <;> cases h
  rfl

theorem pyIntOf_not_balanceCheck {value : Json} {e : Failure}
    (h : pyIntOf value = .error e) : e.isBalanceCheck = false := by
  unfold pyIntOf at h
  split at h <;> cases h
  rfl

theorem uuidOf_not_balanceCheck {value : Json} {e : Failure}
    (h : uuidOf value = .error e) : e.isBalanceCheck = false := by
  unfold uuidOf at h
  split at h <;> cases h
  rfl

end CryptoWallet
