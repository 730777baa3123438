import Mathlib.Logic.Relation
import Mathlib.Tactic.Common

/-!
# Database transactions

A transaction is a program over a session: the uncommitted view of a store and
the row locks taken so far.  Statements read and write the view, lock rows, or
raise.  `commit` runs a whole transaction against a committed store; a raised
exception rolls every write back.

Two program logics are provided.  `Ensures` is the unary one: what holds of
the result when the transaction returns and of the exception when it raises.
`Agree` is the binary one: two transactions return the same value in related
views or raise the same exception.  The last section
packages the induction over runs.
-/

namespace CryptoWallet

structure Session (δ κ : Type) where
  db : δ
  locked : List κ

abbrev Tx (δ κ ε α : Type) := EStateM ε (Session δ κ) α

namespace Tx

variable {δ κ ε α β : Type}

/-- Read from the uncommitted view. -/
def query (f : δ → α) : Tx δ κ ε α :=
  fun s => .ok (f s.db) s

/-- Write the uncommitted view. -/
def modifyDb (f : δ → δ) : Tx δ κ ε Unit :=
  fun s => .ok () { s with db := f s.db }

/-- Take the lock of one row; it is held until the transaction ends. -/
def lockRow (row : κ) : Tx δ κ ε Unit :=
  fun s => .ok () { s with locked := s.locked ++ [row] }

/-- The locks one statement takes on several rows. -/
def lockRows (rows : List κ) : Tx δ κ ε Unit :=
  fun s => .ok () { s with locked := s.locked ++ rows }

/-- An exception which is already decided. -/
def orRaise : Except ε α → Tx δ κ ε α
  | .ok a => pure a
  | .error e => throw e

/-- The value or exception of a run. -/
def outcome : EStateM.Result ε (Session δ κ) α → Except ε α
  | .ok a _ => .ok a
  | .error e _ => .error e

/-- The session at the end of a run, before commit or rollback. -/
def session : EStateM.Result ε (Session δ κ) α → Session δ κ
  | .ok _ s => s
  | .error _ s => s

/-- Run a transaction against a committed store: the writes become visible
when it returns and are rolled back when it raises. -/
def commit (tx : Tx δ κ ε α) (db : δ) : Except ε α × δ :=
  match tx.run ⟨db, []⟩ with
  | .ok a s => (.ok a, s.db)
  | .error e _ => (.error e, db)

/-- The row locks requested by a transaction, in order and with repetitions. -/
def lockTrace (tx : Tx δ κ ε α) (db : δ) : List κ :=
  (session (tx.run ⟨db, []⟩)).locked

/-! ## Unary specifications -/

/-- Started from `db` under any locks, the transaction returns a value and a
view satisfying `post`, or raises an exception satisfying `raises`. -/
def Ensures (tx : Tx δ κ ε α) (db : δ) (post : α → δ → Prop)
    (raises : ε → Prop) : Prop :=
  ∀ locked, match tx.run ⟨db, locked⟩ with
    | .ok a s => post a s.db
    | .error e _ => raises e

section Ensures

variable {db : δ} {post : α → δ → Prop} {raises : ε → Prop}

theorem Ensures.pure {a : α} (h : post a db) :
    Ensures (pure a : Tx δ κ ε α) db post raises :=
  fun _ => h

theorem Ensures.throw {e : ε} (h : raises e) :
    Ensures (throw e : Tx δ κ ε α) db post raises :=
  fun _ => h

theorem Ensures.query {f : δ → α} (h : post (f db) db) :
    Ensures (query f : Tx δ κ ε α) db post raises :=
  fun _ => h

theorem Ensures.modifyDb {f : δ → δ} {post : Unit → δ → Prop}
    (h : post () (f db)) :
    Ensures (modifyDb f : Tx δ κ ε Unit) db post raises :=
  fun _ => h

theorem Ensures.lockRow {row : κ} {post : Unit → δ → Prop}
    (h : post () db) :
    Ensures (lockRow row : Tx δ κ ε Unit) db post raises :=
  fun _ => h

theorem Ensures.orRaise {x : Except ε α}
    (hok : ∀ a, x = .ok a → post a db)
    (herror : ∀ e, x = .error e → raises e) :
    Ensures (orRaise x : Tx δ κ ε α) db post raises := by
  cases x with
  | ok a => exact Ensures.pure (hok a rfl)
  | error e => exact Ensures.throw (herror e rfl)

theorem Ensures.bind {x : Tx δ κ ε α} {f : α → Tx δ κ ε β}
    {mid : α → δ → Prop} {post : β → δ → Prop}
    (hx : Ensures x db mid raises)
    (hf : ∀ a db', mid a db' → Ensures (f a) db' post raises) :
    Ensures (x >>= f) db post raises := by
  intro locked
  have hx := hx locked
  rw [EStateM.run_bind]
  cases hrun : x.run ⟨db, locked⟩ with
  | ok a s =>
      rw [hrun] at hx
      exact hf a s.db hx s.locked
  | error e s =>
      rw [hrun] at hx
      exact hx

section Prefix

variable {post : β → δ → Prop}

theorem Ensures.query_bind {f : δ → α} {k : α → Tx δ κ ε β}
    (h : Ensures (k (f db)) db post raises) :
    Ensures (Tx.query f >>= k) db post raises :=
  fun locked => h locked

theorem Ensures.modifyDb_bind {f : δ → δ} {k : Unit → Tx δ κ ε β}
    (h : Ensures (k ()) (f db) post raises) :
    Ensures (Tx.modifyDb f >>= k) db post raises :=
  fun locked => h locked

theorem Ensures.lockRow_bind {row : κ} {k : Unit → Tx δ κ ε β}
    (h : Ensures (k ()) db post raises) :
    Ensures (Tx.lockRow row >>= k) db post raises :=
  fun locked => h (locked ++ [row])

theorem Ensures.lockRows_bind {rows : List κ} {k : Unit → Tx δ κ ε β}
    (h : Ensures (k ()) db post raises) :
    Ensures (Tx.lockRows rows >>= k) db post raises :=
  fun locked => h (locked ++ rows)

theorem Ensures.orRaise_bind {x : Except ε α} {k : α → Tx δ κ ε β}
    (hok : ∀ a, x = .ok a → Ensures (k a) db post raises)
    (herror : ∀ e, x = .error e → raises e) :
    Ensures (Tx.orRaise x >>= k) db post raises := by
  cases x with
  | ok a => exact fun locked => hok a rfl locked
  | error e => exact fun _ => herror e rfl

theorem Ensures.orRaise_ok {a : α} {k : α → Tx δ κ ε β} (h : Ensures (k a) db post raises) :
    Ensures (Tx.orRaise (.ok a) >>= k) db post raises :=
  Ensures.orRaise_bind (fun _ hok => by cases hok; exact h) fun _ herror => by cases herror

end Prefix

theorem Ensures.mono {tx : Tx δ κ ε α} {post' : α → δ → Prop}
    {raises' : ε → Prop}
    (h : Ensures tx db post raises)
    (hpost : ∀ a db', post a db' → post' a db')
    (hraises : ∀ e, raises e → raises' e) :
    Ensures tx db post' raises' := by
  intro locked
  have h := h locked
  cases hrun : tx.run ⟨db, locked⟩ with
  | ok a s =>
      rw [hrun] at h
      exact hpost a s.db h
  | error e s =>
      rw [hrun] at h
      exact hraises e h

theorem Ensures.and {tx : Tx δ κ ε α} {post' : α → δ → Prop} {raises' : ε → Prop}
    (h : Ensures tx db post raises) (h' : Ensures tx db post' raises') :
    Ensures tx db (fun a db' => post a db' ∧ post' a db')
      (fun e => raises e ∧ raises' e) := by
  intro locked
  have h := h locked
  have h' := h' locked
  cases hrun : tx.run ⟨db, locked⟩ with
  | ok a s =>
      rw [hrun] at h h'
      exact ⟨h, h'⟩
  | error e s =>
      rw [hrun] at h h'
      exact ⟨h, h'⟩

/-- A specification read off the committed result. -/
theorem Ensures.commit_ok {tx : Tx δ κ ε α}
    (h : Ensures tx db post raises) {a : α} {db' : δ}
    (hcommit : commit tx db = (.ok a, db')) : post a db' := by
  have h := h []
  unfold commit at hcommit
  cases hrun : tx.run ⟨db, []⟩ with
  | ok a₁ s =>
      rw [hrun] at h hcommit
      cases hcommit
      exact h
  | error e s =>
      rw [hrun] at hcommit
      cases hcommit

theorem Ensures.commit_error {tx : Tx δ κ ε α}
    (h : Ensures tx db post raises) {e : ε} {db' : δ}
    (hcommit : commit tx db = (.error e, db')) : raises e := by
  have h := h []
  unfold commit at hcommit
  cases hrun : tx.run ⟨db, []⟩ with
  | ok a s =>
      rw [hrun] at hcommit
      cases hcommit
  | error e₁ s =>
      rw [hrun] at h hcommit
      cases hcommit
      exact h

/-- A transaction which never raises is committed. -/
theorem Ensures.commit_returns {tx : Tx δ κ ε α}
    (h : Ensures tx db post fun _ => False) :
    ∃ a db', commit tx db = (.ok a, db') ∧ post a db' := by
  have h := h []
  unfold commit
  cases hrun : tx.run ⟨db, []⟩ with
  | ok a s =>
      rw [hrun] at h
      exact ⟨a, s.db, rfl, h⟩
  | error e s =>
      rw [hrun] at h
      exact h.elim

end Ensures

/-- Rollback: a raised exception leaves the committed store as it was. -/
theorem commit_error {tx : Tx δ κ ε α} {db db' : δ} {e : ε}
    (h : commit tx db = (.error e, db')) : db' = db := by
  unfold commit at h
  cases hrun : tx.run ⟨db, []⟩ with
  | ok a s =>
      rw [hrun] at h
      cases h
  | error e₁ s =>
      rw [hrun] at h
      cases h
      rfl

/-- A property kept by every statement which returns holds of the committed
store, whether the transaction returns or is rolled back. -/
theorem commit_preserves {tx : Tx δ κ ε α} {db : δ} {I : δ → Prop}
    {raises : ε → Prop}
    (hdb : I db) (h : Ensures tx db (fun _ db' => I db') raises) :
    I (commit tx db).2 := by
  have h := h []
  unfold commit
  cases hrun : tx.run ⟨db, []⟩ with
  | ok a s =>
      rw [hrun] at h
      exact h
  | error e s => exact hdb

/-! ## Runs with a known result -/

/-- Started from `db` the transaction returns `a` and leaves the view `db'`. -/
def Returns (tx : Tx δ κ ε α) (db : δ) (a : α) (db' : δ) : Prop :=
  ∀ locked, ∃ locked', tx.run ⟨db, locked⟩ = .ok a ⟨db', locked'⟩

/-- Started from `db` the transaction raises `e`. -/
def Raises (tx : Tx δ κ ε α) (db : δ) (e : ε) : Prop :=
  ∀ locked, ∃ s, tx.run ⟨db, locked⟩ = .error e s

section Result

variable {db db₁ db₂ : δ} {x : Tx δ κ ε α} {f : α → Tx δ κ ε β} {a : α} {b : β}
  {e : ε}

theorem Returns.pure (a : α) (db : δ) :
    Returns (pure a : Tx δ κ ε α) db a db :=
  fun locked => ⟨locked, rfl⟩

theorem Returns.query (f : δ → α) (db : δ) :
    Returns (query f : Tx δ κ ε α) db (f db) db :=
  fun locked => ⟨locked, rfl⟩

theorem Returns.modifyDb (f : δ → δ) (db : δ) :
    Returns (modifyDb f : Tx δ κ ε Unit) db () (f db) :=
  fun locked => ⟨locked, rfl⟩

theorem Returns.lockRow (row : κ) (db : δ) :
    Returns (lockRow row : Tx δ κ ε Unit) db () db :=
  fun locked => ⟨locked ++ [row], rfl⟩

theorem Returns.orRaise {y : Except ε α} (hy : y = .ok a) (db : δ) :
    Returns (orRaise y : Tx δ κ ε α) db a db := by
  subst hy
  exact Returns.pure a db

theorem Raises.throw (e : ε) (db : δ) :
    Raises (throw e : Tx δ κ ε α) db e :=
  fun locked => ⟨⟨db, locked⟩, rfl⟩

theorem Returns.bind (hx : Returns x db a db₁) (hf : Returns (f a) db₁ b db₂) :
    Returns (x >>= f) db b db₂ := by
  intro locked
  obtain ⟨locked₁, hrun⟩ := hx locked
  obtain ⟨locked₂, hrun'⟩ := hf locked₁
  exact ⟨locked₂, by rw [EStateM.run_bind, hrun]; exact hrun'⟩

theorem Returns.bind_raises (hx : Returns x db a db₁) (hf : Raises (f a) db₁ e) :
    Raises (x >>= f) db e := by
  intro locked
  obtain ⟨locked₁, hrun⟩ := hx locked
  obtain ⟨s, hrun'⟩ := hf locked₁
  exact ⟨s, by rw [EStateM.run_bind, hrun]; exact hrun'⟩

theorem Raises.bind (hx : Raises x db e) (f : α → Tx δ κ ε β) :
    Raises (x >>= f) db e := by
  intro locked
  obtain ⟨s, hrun⟩ := hx locked
  exact ⟨s, by rw [EStateM.run_bind, hrun]⟩

theorem Returns.commit (hx : Returns x db a db₁) : commit x db = (.ok a, db₁) := by
  obtain ⟨locked, hrun⟩ := hx []
  rw [Tx.commit, hrun]

theorem Raises.commit (hx : Raises x db e) : commit x db = (.error e, db) := by
  obtain ⟨s, hrun⟩ := hx []
  rw [Tx.commit, hrun]

theorem Returns.ensures_bind {post : β → δ → Prop} {raises : ε → Prop}
    (hx : Returns x db a db₁) (hf : Ensures (f a) db₁ post raises) :
    Ensures (x >>= f) db post raises := by
  intro locked
  obtain ⟨locked₁, hrun⟩ := hx locked
  rw [EStateM.run_bind, hrun]
  exact hf locked₁

end Result

/-! ## Agreement of two runs -/

/-- Started from `db` and `db'`, both transactions return the same value in
views related by `post`, or both raise the same exception. -/
def Agree (tx tx' : Tx δ κ ε α) (db db' : δ) (post : α → δ → δ → Prop) : Prop :=
  ∀ locked locked',
    match tx.run ⟨db, locked⟩, tx'.run ⟨db', locked'⟩ with
    | .ok a s, .ok a' s' => a = a' ∧ post a s.db s'.db
    | .error e _, .error e' _ => e = e'
    | _, _ => False

section Agree

variable {db db' : δ} {post : α → δ → δ → Prop}

theorem Agree.pure {a : α} (h : post a db db') :
    Agree (pure a : Tx δ κ ε α) (pure a) db db' post :=
  fun _ _ => ⟨rfl, h⟩

theorem Agree.throw (e : ε) :
    Agree (throw e : Tx δ κ ε α) (throw e) db db' post :=
  fun _ _ => rfl

theorem Agree.modifyDb {f f' : δ → δ} {post : Unit → δ → δ → Prop}
    (h : post () (f db) (f' db')) :
    Agree (modifyDb f : Tx δ κ ε Unit) (modifyDb f') db db' post :=
  fun _ _ => ⟨rfl, h⟩

theorem Agree.query {f f' : δ → α} (hf : f db = f' db') (h : post (f db) db db') :
    Agree (query f : Tx δ κ ε α) (query f') db db' post :=
  fun _ _ => ⟨hf, h⟩

/-- Beginnings with known results, which need not be equal. -/
theorem Agree.returns_bind {x x' : Tx δ κ ε α} {f f' : α → Tx δ κ ε β} {a a' : α}
    {db₁ db₁' : δ} {post : β → δ → δ → Prop} (hx : Returns x db a db₁)
    (hx' : Returns x' db' a' db₁') (hf : Agree (f a) (f' a') db₁ db₁' post) :
    Agree (x >>= f) (x' >>= f') db db' post := by
  intro locked locked'
  obtain ⟨locked₁, hrun⟩ := hx locked
  obtain ⟨locked₁', hrun'⟩ := hx' locked'
  rw [EStateM.run_bind, EStateM.run_bind, hrun, hrun']
  exact hf locked₁ locked₁'

theorem Agree.bind {x x' : Tx δ κ ε α} {f f' : α → Tx δ κ ε β}
    {mid : α → δ → δ → Prop} {post : β → δ → δ → Prop}
    (hx : Agree x x' db db' mid)
    (hf : ∀ a db₁ db₁', mid a db₁ db₁' → Agree (f a) (f' a) db₁ db₁' post) :
    Agree (x >>= f) (x' >>= f') db db' post := by
  intro locked locked'
  have hx := hx locked locked'
  rw [EStateM.run_bind, EStateM.run_bind]
  cases hrun : x.run ⟨db, locked⟩ with
  | ok a s =>
      cases hrun' : x'.run ⟨db', locked'⟩ with
      | ok a' s' =>
          rw [hrun, hrun'] at hx
          obtain ⟨rfl, hmid⟩ := hx
          exact hf a s.db s'.db hmid s.locked s'.locked
      | error e' s' =>
          rw [hrun, hrun'] at hx
          exact hx.elim
  | error e s =>
      cases hrun' : x'.run ⟨db', locked'⟩ with
      | ok a' s' =>
          rw [hrun, hrun'] at hx
          exact hx.elim
      | error e' s' =>
          rw [hrun, hrun'] at hx
          exact hx

section Prefix

variable {post : β → δ → δ → Prop}

theorem Agree.query_bind {f f' : δ → α} {k k' : α → Tx δ κ ε β}
    (h : Agree (k (f db)) (k' (f' db')) db db' post) :
    Agree (Tx.query f >>= k) (Tx.query f' >>= k') db db' post :=
  fun locked locked' => h locked locked'

theorem Agree.modifyDb_bind {f f' : δ → δ} {k k' : Unit → Tx δ κ ε β}
    (h : Agree (k ()) (k' ()) (f db) (f' db') post) :
    Agree (Tx.modifyDb f >>= k) (Tx.modifyDb f' >>= k') db db' post :=
  fun locked locked' => h locked locked'

theorem Agree.lockRow_bind {row row' : κ} {k k' : Unit → Tx δ κ ε β}
    (h : Agree (k ()) (k' ()) db db' post) :
    Agree (Tx.lockRow row >>= k) (Tx.lockRow row' >>= k') db db' post :=
  fun locked locked' => h (locked ++ [row]) (locked' ++ [row'])

theorem Agree.orRaise_bind {x : Except ε α} {k k' : α → Tx δ κ ε β}
    (h : ∀ a, x = .ok a → Agree (k a) (k' a) db db' post) :
    Agree (Tx.orRaise x >>= k) (Tx.orRaise x >>= k') db db' post := by
  cases x with
  | ok a => exact fun locked locked' => h a rfl locked locked'
  | error e => exact Agree.throw e

end Prefix

/-- Agreeing transactions are committed or rolled back together. -/
theorem Agree.commit {tx tx' : Tx δ κ ε α} (h : Agree tx tx' db db' post) :
    (∃ a db₁ db₁', commit tx db = (.ok a, db₁) ∧ commit tx' db' = (.ok a, db₁') ∧
      post a db₁ db₁') ∨
    ∃ e, commit tx db = (.error e, db) ∧ commit tx' db' = (.error e, db') := by
  have h := h [] []
  unfold Tx.commit
  cases hrun : tx.run ⟨db, []⟩ with
  | ok a s =>
      cases hrun' : tx'.run ⟨db', []⟩ with
      | ok a' s' =>
          rw [hrun, hrun'] at h
          obtain ⟨rfl, hpost⟩ := h
          exact Or.inl ⟨a, s.db, s'.db, rfl, rfl, hpost⟩
      | error e' s' =>
          rw [hrun, hrun'] at h
          exact h.elim
  | error e s =>
      cases hrun' : tx'.run ⟨db', []⟩ with
      | ok a' s' =>
          rw [hrun, hrun'] at h
          exact h.elim
      | error e' s' =>
          rw [hrun, hrun'] at h
          obtain rfl := h
          exact Or.inr ⟨e, rfl, rfl⟩

end Agree

end Tx

/-! ## Runs -/

/-- The state after a list of steps. -/
def runSteps {σ τ : Type} (step : τ → σ → σ) (init : σ) (steps : List τ) : σ :=
  steps.foldl (fun s t => step t s) init

section Runs

variable {σ τ : Type} {step : τ → σ → σ}

@[simp] theorem runSteps_nil (init : σ) : runSteps step init [] = init := rfl

@[simp] theorem runSteps_cons (init : σ) (t : τ) (rest : List τ) :
    runSteps step init (t :: rest) = runSteps step (step t init) rest := rfl

theorem runSteps_append (init : σ) (before after : List τ) :
    runSteps step init (before ++ after) =
      runSteps step (runSteps step init before) after := by
  simp [runSteps]

/-- Every step of the run is admitted in the state it starts from. -/
def AdmittedRun (step : τ → σ → σ) (admitted : σ → τ → Prop) : σ → List τ → Prop
  | _, [] => True
  | s, t :: rest => admitted s t ∧ AdmittedRun step admitted (step t s) rest

theorem admittedRun_append {admitted : σ → τ → Prop} {init : σ} {before after : List τ} :
    AdmittedRun step admitted init (before ++ after) ↔
      AdmittedRun step admitted init before ∧
        AdmittedRun step admitted (runSteps step init before) after := by
  induction before generalizing init with
  | nil => simp [AdmittedRun]
  | cons t rest ih => simp [AdmittedRun, ih, and_assoc]

theorem AdmittedRun.mono_of_invariant {I : σ → Prop} {admitted admitted' : σ → τ → Prop}
    (hstep : ∀ s t, I s → I (step t s))
    (hadmits : ∀ s t, I s → admitted s t → admitted' s t) {init : σ} (hinit : I init)
    {steps : List τ} (h : AdmittedRun step admitted init steps) :
    AdmittedRun step admitted' init steps := by
  induction steps generalizing init with
  | nil => trivial
  | cons t rest ih => exact ⟨hadmits init t hinit h.1, ih (hstep init t hinit) h.2⟩

theorem AdmittedRun.mono {admitted admitted' : σ → τ → Prop}
    (hadmits : ∀ s t, admitted s t → admitted' s t) {init : σ} {steps : List τ}
    (h : AdmittedRun step admitted init steps) : AdmittedRun step admitted' init steps :=
  h.mono_of_invariant (I := fun _ => True) (fun _ _ _ => trivial)
    (fun s t _ => hadmits s t) trivial

/-- A property kept by every admitted step holds at the end of every run of
admitted steps. -/
theorem AdmittedRun.invariant {I : σ → Prop} {admitted : σ → τ → Prop}
    (hstep : ∀ s t, I s → admitted s t → I (step t s)) {init : σ} (hinit : I init)
    {steps : List τ} (hsteps : AdmittedRun step admitted init steps) :
    I (runSteps step init steps) := by
  induction steps generalizing init with
  | nil => exact hinit
  | cons t rest ih => exact ih (hstep init t hinit hsteps.1) hsteps.2

instance AdmittedRun.decide (step : τ → σ → σ) (admitted : σ → τ → Prop)
    [∀ s t, Decidable (admitted s t)] :
    ∀ (init : σ) (steps : List τ), Decidable (AdmittedRun step admitted init steps)
  | _, [] => .isTrue trivial
  | s, t :: rest =>
    have := AdmittedRun.decide step admitted (step t s) rest
    inferInstanceAs (Decidable (admitted s t ∧ AdmittedRun step admitted (step t s) rest))

/-- The unconditional case: every step keeps the property. -/
theorem runSteps_preserves {I : σ → Prop}
    (hstep : ∀ s t, I s → I (step t s))
    {init : σ} (hinit : I init) (steps : List τ) :
    I (runSteps step init steps) := by
  induction steps generalizing init with
  | nil => exact hinit
  | cons t rest ih => exact ih (hstep init t hinit)

end Runs
end CryptoWallet
