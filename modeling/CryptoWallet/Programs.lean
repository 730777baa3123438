import Mathlib.Tactic.Common

/-!
# Programs over atomic commands

A process is a program which issues commands, one at a time, and continues with
the answer; a command may raise, and a program may catch.  Commands are atomic,
everything between two of them is local to the process.  A machine says what a
command does to the shared state; what the environment decides about a command
is an argument of its own.

A program can be executed alone, up to a point where the process stops for good,
or be one of several processes which take turns.  For the first there is a
weakest precondition, for the second a rely and guarantee rule: all processes
promise to stay within one transitive relation, and may rely on it between their
own commands.  Where a process has to find the shared state fit for a command, the
others promise to leave it so.
-/

namespace CryptoWallet

/-- A program whose commands `c` are answered by values of type `ρ c`. -/
inductive Program {γ : Type} (ρ : γ → Type) (ε α : Type) where
  | done (result : Except ε α)
  | call (command : γ) (next : Except ε (ρ command) → Program ρ ε α)

namespace Program

variable {γ : Type} {ρ : γ → Type} {ε α β : Type}

def bind (program : Program ρ ε α) (next : α → Program ρ ε β) : Program ρ ε β :=
  match program with
  | .done (.ok a) => next a
  | .done (.error e) => .done (.error e)
  | .call command continue' => .call command fun answer => (continue' answer).bind next

/-- `try ... except`. -/
def tryCatch (program : Program ρ ε α) (handler : ε → Program ρ ε α) :
    Program ρ ε α :=
  match program with
  | .done (.ok a) => .done (.ok a)
  | .done (.error e) => handler e
  | .call command continue' =>
    .call command fun answer => (continue' answer).tryCatch handler

def perform (command : γ) : Program ρ ε (ρ command) := .call command .done

def ofExcept (result : Except ε α) : Program ρ ε α := .done result

instance : Monad (Program ρ ε) where
  pure a := .done (.ok a)
  bind := bind

instance : MonadExceptOf ε (Program ρ ε) where
  throw e := .done (.error e)
  tryCatch := tryCatch

end Program

/-- What a command answers and does to the shared state, given what the environment
decides about it. -/
structure Machine {γ : Type} (ρ : γ → Type) (ω ε σ : Type) where
  perform : ω → (command : γ) → σ → Except ε (ρ command) × σ

/-- A command goes through, or raises without an effect, or has its effect and the
answer is lost. -/
inductive Fate (ε : Type) where
  | through
  | refused (error : ε)
  | lost (error : ε)
  deriving DecidableEq

/-- The machine whose commands may fail. -/
def Machine.faulty {γ : Type} {ρ : γ → Type} {ω ε σ : Type} (m : Machine ρ ω ε σ) :
    Machine ρ (Fate ε × ω) ε σ where
  perform turn command s :=
    match turn.1 with
    | .through => m.perform turn.2 command s
    | .refused error => (.error error, s)
    | .lost error => (.error error, (m.perform turn.2 command s).2)

/-! ## One process alone -/

/-- The state when the process ended or stopped, and its result if it ended. -/
structure Execution (ε α σ : Type) where
  state : σ
  result : Option (Except ε α)

namespace Program

variable {γ : Type} {ρ : γ → Type} {ω ε σ α β : Type}

/-- One turn for each command; the process stops where they run out. -/
def execute (m : Machine ρ ω ε σ) : Program ρ ε α → List ω → σ → Execution ε α σ
  | .done result, _, s => ⟨s, some result⟩
  | .call _ _, [], s => ⟨s, none⟩
  | .call command next, turn :: turns, s =>
    execute m (next (m.perform turn command s).1) turns (m.perform turn command s).2

/-- Whatever the environment decides: `post` holds of the result and the state if the
program ends, and `stopped` of the state wherever it stops before. -/
def Ensures (m : Machine ρ ω ε σ) (stopped : σ → Prop) (post : Except ε α → σ → Prop) :
    Program ρ ε α → σ → Prop
  | .done result, s => post result s
  | .call command next, s => stopped s ∧
    ∀ turn, Ensures m stopped post (next (m.perform turn command s).1)
      (m.perform turn command s).2

section Ensures

variable {m : Machine ρ ω ε σ} {stopped : σ → Prop} {post : Except ε α → σ → Prop}
  {program : Program ρ ε α} {s : σ}

theorem Ensures.execute (h : program.Ensures m stopped post s) (turns : List ω) :
    match (program.execute m turns s).result with
    | some result => post result (program.execute m turns s).state
    | none => stopped (program.execute m turns s).state := by
  induction program generalizing s turns with
  | done result => exact h
  | call command next ih =>
      cases turns with
      | nil => exact h.1
      | cons turn turns => exact ih _ (h.2 turn) turns

theorem Ensures.mono {stopped' : σ → Prop} {post' : Except ε α → σ → Prop}
    (h : program.Ensures m stopped post s) (hstopped : ∀ s, stopped s → stopped' s)
    (hpost : ∀ result s, post result s → post' result s) :
    program.Ensures m stopped' post' s := by
  induction program generalizing s with
  | done result => exact hpost result s h
  | call command next ih => exact ⟨hstopped s h.1, fun turn => ih _ (h.2 turn)⟩

theorem Ensures.pure {a : α} (h : post (.ok a) s) :
    (Pure.pure a : Program ρ ε α).Ensures m stopped post s := h

theorem Ensures.ofExcept {result : Except ε α} (h : post result s) :
    (ofExcept result : Program ρ ε α).Ensures m stopped post s := h

theorem Ensures.perform {command : γ} {post : Except ε (ρ command) → σ → Prop}
    (hstopped : stopped s)
    (h : ∀ turn, post (m.perform turn command s).1 (m.perform turn command s).2) :
    (Program.perform command).Ensures m stopped post s := ⟨hstopped, h⟩

theorem Ensures.bind {next : α → Program ρ ε β} {post : Except ε β → σ → Prop}
    (h : program.Ensures m stopped
      (fun result s' =>
        match result with
        | .ok a => (next a).Ensures m stopped post s'
        | .error e => post (.error e) s') s) :
    (program >>= next).Ensures m stopped post s := by
  induction program generalizing s with
  | done result =>
      cases result with
      | ok a => exact h
      | error e => exact h
  | call command continue' ih => exact ⟨h.1, fun turn => ih _ (h.2 turn)⟩

theorem Ensures.tryCatch {handler : ε → Program ρ ε α}
    (h : program.Ensures m stopped
      (fun result s' =>
        match result with
        | .ok a => post (.ok a) s'
        | .error e => (handler e).Ensures m stopped post s') s) :
    (program.tryCatch handler).Ensures m stopped post s := by
  induction program generalizing s with
  | done result =>
      cases result with
      | ok a => exact h
      | error e => exact h
  | call command continue' ih => exact ⟨h.1, fun turn => ih _ (h.2 turn)⟩

theorem Ensures.and {post' : Except ε α → σ → Prop} (h : program.Ensures m stopped post s)
    (h' : program.Ensures m stopped post' s) :
    program.Ensures m stopped (fun result s => post result s ∧ post' result s) s := by
  induction program generalizing s with
  | done result => exact ⟨h, h'⟩
  | call command next ih => exact ⟨h.1, fun turn => ih _ (h.2 turn) (h'.2 turn)⟩

end Ensures

/-- The program carries out one command for each turn, and then ends so. -/
def Ends (m : Machine ρ ω ε σ) : Program ρ ε α → List ω → σ → Except ε α → σ → Prop
  | .done result, [], s, result', s' => result = result' ∧ s = s'
  | .done _, _ :: _, _, _, _ => False
  | .call _ _, [], _, _, _ => False
  | .call command next, turn :: turns, s, result, s' =>
    Ends m (next (m.perform turn command s).1) turns (m.perform turn command s).2 result s'

section Ends

variable {m : Machine ρ ω ε σ} {program : Program ρ ε α} {turns turns' : List ω}
  {s t t' : σ} {a : α}

theorem Ends.execute {result : Except ε α} (h : program.Ends m turns s result t)
    (spare : List ω) : program.execute m (turns ++ spare) s = ⟨t, some result⟩ := by
  induction program generalizing turns s with
  | done result' =>
      cases turns with
      | nil =>
          obtain ⟨hresult, hstate⟩ := h
          rw [← hresult, ← hstate]
          cases spare <;> rfl
      | cons turn rest => exact h.elim
  | call command next ih =>
      cases turns with
      | nil => exact h.elim
      | cons turn rest => exact ih _ h

theorem Ends.pure (a : α) (s : σ) :
    (Pure.pure a : Program ρ ε α).Ends m [] s (.ok a) s := ⟨rfl, rfl⟩

theorem Ends.ofExcept (result : Except ε α) (s : σ) :
    (Program.ofExcept result : Program ρ ε α).Ends m [] s result s := ⟨rfl, rfl⟩

theorem Ends.perform {turn : ω} {command : γ} {result : Except ε (ρ command)}
    (h : m.perform turn command s = (result, t)) :
    (Program.perform command).Ends m [turn] s result t :=
  ⟨congrArg Prod.fst h, congrArg Prod.snd h⟩

theorem Ends.bind (turns turns' : List ω) {next : α → Program ρ ε β} {result : Except ε β}
    (h : program.Ends m turns s (.ok a) t) (hnext : (next a).Ends m turns' t result t') :
    (program >>= next).Ends m (turns ++ turns') s result t' := by
  induction program generalizing turns s with
  | done result' =>
      cases turns with
      | nil =>
          obtain ⟨hresult, hstate⟩ := h
          rw [hresult, hstate]
          exact hnext
      | cons turn rest => exact h.elim
  | call command continue' ih =>
      cases turns with
      | nil => exact h.elim
      | cons turn rest => exact ih _ rest h

theorem Ends.bind_error {next : α → Program ρ ε β} {e : ε}
    (h : program.Ends m turns s (.error e) t) :
    (program >>= next).Ends m turns s (.error e) t := by
  induction program generalizing turns s with
  | done result' =>
      cases turns with
      | nil =>
          obtain ⟨hresult, hstate⟩ := h
          rw [hresult, hstate]
          exact ⟨rfl, rfl⟩
      | cons turn rest => exact h.elim
  | call command continue' ih =>
      cases turns with
      | nil => exact h.elim
      | cons turn rest => exact ih _ h

theorem Ends.tryCatch_error (turns turns' : List ω) {handler : ε → Program ρ ε α} {e : ε}
    {result : Except ε α}
    (h : program.Ends m turns s (.error e) t)
    (hhandler : (handler e).Ends m turns' t result t') :
    (program.tryCatch handler).Ends m (turns ++ turns') s result t' := by
  induction program generalizing turns s with
  | done result' =>
      cases turns with
      | nil =>
          obtain ⟨hresult, hstate⟩ := h
          rw [hresult, hstate]
          exact hhandler
      | cons turn rest => exact h.elim
  | call command continue' ih =>
      cases turns with
      | nil => exact h.elim
      | cons turn rest => exact ih _ rest h

end Ends

/-! ## Several processes -/

/-- The program stays within `guarantee` for as long as the others do, when every turn
it is given is `allowed`; what it returns satisfies `post`. -/
def Keeps (m : Machine ρ ω ε σ) (allowed : ω → γ → σ → Prop)
    (guarantee : σ → σ → Prop) (post : α → σ → Prop) : Program ρ ε α → σ → Prop
  | .done (.ok a), s => post a s
  | .done (.error _), _ => True
  | .call command next, s => ∀ s', guarantee s s' → ∀ turn, allowed turn command s' →
    guarantee s' (m.perform turn command s').2 ∧
      Keeps m allowed guarantee post (next (m.perform turn command s').1)
        (m.perform turn command s').2

section Keeps

variable {m : Machine ρ ω ε σ} {allowed : ω → γ → σ → Prop} {guarantee : σ → σ → Prop}
  {post : α → σ → Prop} {program : Program ρ ε α} {s : σ}

/-- What others do within the relation does not matter. -/
theorem Keeps.later
    (htrans : ∀ {s s' s''}, guarantee s s' → guarantee s' s'' → guarantee s s'')
    (hpost : ∀ a s s', guarantee s s' → post a s → post a s')
    (h : program.Keeps m allowed guarantee post s) {s' : σ} (hs : guarantee s s') :
    program.Keeps m allowed guarantee post s' := by
  cases program with
  | done result =>
      cases result with
      | ok a => exact hpost a s s' hs h
      | error e => trivial
  | call command next => exact fun s'' hs' => h s'' (htrans hs hs')

theorem Keeps.mono {post' : α → σ → Prop} (h : program.Keeps m allowed guarantee post s)
    (hpost : ∀ a s, post a s → post' a s) :
    program.Keeps m allowed guarantee post' s := by
  induction program generalizing s with
  | done result =>
      cases result with
      | ok a => exact hpost a s h
      | error e => trivial
  | call command next ih =>
      intro s' hs turn hturn
      exact ⟨(h s' hs turn hturn).1, ih _ (h s' hs turn hturn).2⟩

/-- What holds now and stays within the relation holds at the end. -/
theorem Keeps.frame {F : σ → Prop} (hfact : ∀ s s', guarantee s s' → F s → F s')
    (h : program.Keeps m allowed guarantee post s) (hs : F s) :
    program.Keeps m allowed guarantee (fun a s' => post a s' ∧ F s') s := by
  induction program generalizing s with
  | done result =>
      cases result with
      | ok a => exact ⟨h, hs⟩
      | error e => trivial
  | call command next ih =>
      intro s' hs' turn hturn
      obtain ⟨hstep, hnext⟩ := h s' hs' turn hturn
      exact ⟨hstep, ih _ hnext (hfact _ _ hstep (hfact s s' hs' hs))⟩

theorem Keeps.pure {a : α} (h : post a s) :
    (Pure.pure a : Program ρ ε α).Keeps m allowed guarantee post s := h

theorem Keeps.ofExcept {result : Except ε α} (h : ∀ a, result = .ok a → post a s) :
    (ofExcept result : Program ρ ε α).Keeps m allowed guarantee post s := by
  cases result with
  | ok a => exact h a rfl
  | error e => trivial

theorem Keeps.bind {P : α → σ → Prop} {next : α → Program ρ ε β} {post : β → σ → Prop}
    (h : program.Keeps m allowed guarantee P s)
    (hnext : ∀ a s', P a s' → (next a).Keeps m allowed guarantee post s') :
    (program >>= next).Keeps m allowed guarantee post s := by
  induction program generalizing s with
  | done result =>
      cases result with
      | ok a => exact hnext a s h
      | error e => trivial
  | call command continue' ih =>
      intro s' hs turn hturn
      exact ⟨(h s' hs turn hturn).1, ih _ (h s' hs turn hturn).2⟩

/-- A fact needed by the handler is one which stays within the relation. -/
theorem Keeps.tryCatch {handler : ε → Program ρ ε α} {F : σ → Prop}
    (hfact : ∀ s s', guarantee s s' → F s → F s') (hs : F s)
    (h : program.Keeps m allowed guarantee post s)
    (hhandler : ∀ e s', F s' → (handler e).Keeps m allowed guarantee post s') :
    (program.tryCatch handler).Keeps m allowed guarantee post s := by
  induction program generalizing s with
  | done result =>
      cases result with
      | ok a => exact h
      | error e => exact hhandler e s hs
  | call command continue' ih =>
      intro s' hs' turn hturn
      obtain ⟨hstep, hnext⟩ := h s' hs' turn hturn
      exact ⟨hstep, ih _ (hfact _ _ hstep (hfact s s' hs' hs)) hnext⟩

end Keeps

/-- Whenever the program issues a command the state is `ready` for it, provided the
others stay within their relation and leave a state ready for the command which is
about to be carried out. -/
def Heeds (m : Machine ρ ω ε σ) (allowed : ω → γ → σ → Prop) (others : σ → σ → Prop)
    (ready : γ → σ → Prop) (post : Except ε α → σ → Prop) : Program ρ ε α → σ → Prop
  | .done result, s => post result s
  | .call command next, s => ready command s ∧
    ∀ s', others s s' → ready command s' → ∀ turn, allowed turn command s' →
      Heeds m allowed others ready post (next (m.perform turn command s').1)
        (m.perform turn command s').2

section Heeds

variable {m : Machine ρ ω ε σ} {allowed : ω → γ → σ → Prop} {others : σ → σ → Prop}
  {ready : γ → σ → Prop} {post : Except ε α → σ → Prop} {program : Program ρ ε α} {s : σ}

/-- What others do does not matter as long as the next command can be issued. -/
theorem Heeds.later (htrans : ∀ {s s' s''}, others s s' → others s' s'' → others s s'')
    (h : program.Heeds m allowed others ready (fun _ _ => True) s) {s' : σ}
    (hs : others s s')
    (hready : ∀ command next, program = .call command next → ready command s') :
    program.Heeds m allowed others ready (fun _ _ => True) s' := by
  cases program with
  | done result => trivial
  | call command next =>
      exact ⟨hready command next rfl, fun s'' hs' => h.2 s'' (htrans hs hs')⟩

theorem Heeds.mono {post' : Except ε α → σ → Prop}
    (h : program.Heeds m allowed others ready post s)
    (hpost : ∀ result s, post result s → post' result s) :
    program.Heeds m allowed others ready post' s := by
  induction program generalizing s with
  | done result => exact hpost result s h
  | call command next ih =>
      refine ⟨h.1, ?_⟩
      intro s' hs hready turn hturn
      exact ih _ (h.2 s' hs hready turn hturn)

theorem Heeds.pure {a : α} (h : post (.ok a) s) :
    (Pure.pure a : Program ρ ε α).Heeds m allowed others ready post s := h

theorem Heeds.ofExcept {result : Except ε α} (h : post result s) :
    (ofExcept result : Program ρ ε α).Heeds m allowed others ready post s := h

theorem Heeds.perform {command : γ} {post : Except ε (ρ command) → σ → Prop}
    (hready : ready command s)
    (h : ∀ s', others s s' → ready command s' → ∀ turn, allowed turn command s' →
      post (m.perform turn command s').1 (m.perform turn command s').2) :
    (Program.perform command).Heeds m allowed others ready post s := ⟨hready, h⟩

theorem Heeds.bind {next : α → Program ρ ε β} {post : Except ε β → σ → Prop}
    (h : program.Heeds m allowed others ready
      (fun result s' =>
        match result with
        | .ok a => (next a).Heeds m allowed others ready post s'
        | .error e => post (.error e) s') s) :
    (program >>= next).Heeds m allowed others ready post s := by
  induction program generalizing s with
  | done result =>
      cases result with
      | ok a => exact h
      | error e => exact h
  | call command continue' ih =>
      refine ⟨h.1, ?_⟩
      intro s' hs hready turn hturn
      exact ih _ (h.2 s' hs hready turn hturn)

theorem Heeds.tryCatch {handler : ε → Program ρ ε α}
    (h : program.Heeds m allowed others ready
      (fun result s' =>
        match result with
        | .ok a => post (.ok a) s'
        | .error e => (handler e).Heeds m allowed others ready post s') s) :
    (program.tryCatch handler).Heeds m allowed others ready post s := by
  induction program generalizing s with
  | done result =>
      cases result with
      | ok a => exact h
      | error e => exact h
  | call command continue' ih =>
      refine ⟨h.1, ?_⟩
      intro s' hs hready turn hturn
      exact ih _ (h.2 s' hs hready turn hturn)

end Heeds

/-! ## The commands of a program -/

/-- The program issues only commands of one kind. -/
def Only (Q : γ → Prop) : Program ρ ε α → Prop
  | .done _ => True
  | .call command next => Q command ∧ ∀ answer, Only Q (next answer)

section Only

variable {Q : γ → Prop} {program : Program ρ ε α}

theorem Only.pure (a : α) : (Pure.pure a : Program ρ ε α).Only Q := trivial

theorem Only.ofExcept (result : Except ε α) :
    (Program.ofExcept result : Program ρ ε α).Only Q := trivial

theorem Only.perform {command : γ} (h : Q command) :
    (Program.perform command : Program ρ ε (ρ command)).Only Q := ⟨h, fun _ => trivial⟩

theorem Only.bind {next : α → Program ρ ε β} (h : program.Only Q)
    (hnext : ∀ a, (next a).Only Q) : (program >>= next).Only Q := by
  induction program with
  | done result =>
      cases result with
      | ok a => exact hnext a
      | error e => trivial
  | call command continue' ih => exact ⟨h.1, fun answer => ih answer (h.2 answer)⟩

theorem Only.tryCatch {handler : ε → Program ρ ε α} (h : program.Only Q)
    (hhandler : ∀ e, (handler e).Only Q) : (program.tryCatch handler).Only Q := by
  induction program with
  | done result =>
      cases result with
      | ok a => trivial
      | error e => exact hhandler e
  | call command continue' ih => exact ⟨h.1, fun answer => ih answer (h.2 answer)⟩

theorem Only.ite {c : Prop} [Decidable c] {program' : Program ρ ε α} (h : program.Only Q)
    (h' : program'.Only Q) : (if c then program else program').Only Q := by
  split
  · exact h
  · exact h'

/-- Commands for which every state is ready. -/
theorem Only.heeds {m : Machine ρ ω ε σ} {allowed : ω → γ → σ → Prop}
    {others : σ → σ → Prop} {ready : γ → σ → Prop} (h : program.Only Q)
    (hready : ∀ command, Q command → ∀ s, ready command s) (s : σ) :
    program.Heeds m allowed others ready (fun _ _ => True) s := by
  induction program generalizing s with
  | done result => trivial
  | call command next ih =>
      refine ⟨hready command h.1 s, ?_⟩
      intro s' _ _ turn _
      exact ih _ (h.2 _) _

end Only

/-! ## One process under a condition on its commands -/

/-- Every command of the execution is `allowed` where it is carried out. -/
def Meets (m : Machine ρ ω ε σ) (allowed : ω → γ → σ → Prop) :
    Program ρ ε α → List ω → σ → Prop
  | .done _, _, _ => True
  | .call _ _, [], _ => True
  | .call command next, turn :: turns, s => allowed turn command s ∧
    Meets m allowed (next (m.perform turn command s).1) turns (m.perform turn command s).2

instance Meets.decide (m : Machine ρ ω ε σ) (allowed : ω → γ → σ → Prop)
    [∀ turn command s, Decidable (allowed turn command s)] :
    ∀ (program : Program ρ ε α) (turns : List ω) (s : σ),
      Decidable (program.Meets m allowed turns s)
  | .done _, _, _ => .isTrue trivial
  | .call _ _, [], _ => .isTrue trivial
  | .call command next, turn :: turns, s =>
    have := Meets.decide m allowed (next (m.perform turn command s).1) turns
      (m.perform turn command s).2
    inferInstanceAs (Decidable (allowed turn command s ∧ _))

/-- Nobody else acts, and every state is ready. -/
abbrev Alone (m : Machine ρ ω ε σ) (allowed : ω → γ → σ → Prop)
    (post : Except ε α → σ → Prop) (program : Program ρ ε α) (s : σ) : Prop :=
  program.Heeds m allowed Eq (fun _ _ => True) post s

theorem Alone.perform {m : Machine ρ ω ε σ} {allowed : ω → γ → σ → Prop} {command : γ}
    {post : Except ε (ρ command) → σ → Prop} {s : σ}
    (h : ∀ turn, allowed turn command s →
      post (m.perform turn command s).1 (m.perform turn command s).2) :
    (Program.perform command).Alone m allowed post s := by
  apply Heeds.perform trivial
  intro s' hs _ turn hturn
  rw [← hs] at hturn ⊢
  exact h turn hturn

theorem Alone.execute {m : Machine ρ ω ε σ} {allowed : ω → γ → σ → Prop}
    {post : Except ε α → σ → Prop} {program : Program ρ ε α} {s : σ}
    (h : program.Alone m allowed post s) {turns : List ω}
    (hmeets : program.Meets m allowed turns s) {result : Except ε α}
    (hresult : (program.execute m turns s).result = some result) :
    post result (program.execute m turns s).state := by
  induction program generalizing s turns with
  | done result' =>
      cases hresult
      exact h
  | call command next ih =>
      cases turns with
      | nil => cases hresult
      | cons turn rest => exact ih _ (h.2 s rfl trivial turn hmeets.1) hmeets.2 hresult

end Program
end CryptoWallet
