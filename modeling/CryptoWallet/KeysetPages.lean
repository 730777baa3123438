import Mathlib.Data.List.Basic
import Mathlib.Order.Lattice

/-!
# Pages behind a key

A table is read from its greatest key downwards, one page at a time.  A page starts
behind the last key of the page before it, and a page which is not full is the last.

Rows with greater keys may be inserted between the pages.  The pages then still add up
to the rows there were at the first one.
-/

namespace CryptoWallet.KeysetPages

variable {κ ρ : Type} [LinearOrder κ] (key : ρ → κ)

/-- The rows in front of the cursor, which are at most `limit`. -/
def page (limit : Nat) (cursor : Option κ) (rows : List ρ) : List ρ :=
  (rows.filter fun row => cursor.all fun c => key row < c).take limit

/-- The cursor of the next page; none behind a page which is not full. -/
def nextCursor (limit : Nat) (items : List ρ) : Option κ :=
  if items.length = limit then items.getLast?.map key else none

/-- Reading from a cursor on gives these items; `views` and `limits` are the rows and the
limit each request finds. -/
inductive Followed (views : Nat → List ρ) (limits : Nat → Nat) :
    Nat → Option κ → List ρ → Prop where
  | last (i : Nat) (cursor : Option κ)
      (hnext : nextCursor key (limits i) (page key (limits i) cursor (views i)) = none) :
      Followed views limits i cursor (page key (limits i) cursor (views i))
  | more (i : Nat) (cursor : Option κ) (c : κ) (rest : List ρ)
      (hnext : nextCursor key (limits i) (page key (limits i) cursor (views i)) = some c)
      (hrest : Followed views limits (i + 1) (some c) rest) :
      Followed views limits i cursor (page key (limits i) cursor (views i) ++ rest)

variable {key} {views : Nat → List ρ} {limits : Nat → Nat}

theorem Followed.unique {i : Nat} {cursor : Option κ} {items items' : List ρ}
    (h : Followed key views limits i cursor items)
    (h' : Followed key views limits i cursor items') : items = items' := by
  induction h generalizing items' with
  | last i cursor hnext =>
      cases h' with
      | last => rfl
      | more _ _ c rest hnext' hrest =>
          rw [hnext] at hnext'
          cases hnext'
  | more i cursor c rest hnext hrest ih =>
      cases h' with
      | last _ _ hnext' =>
          rw [hnext] at hnext'
          cases hnext'
      | more _ _ c' rest' hnext' hrest' =>
          rw [hnext, Option.some.injEq] at hnext'
          subst hnext'
          rw [ih hrest']

/-- Behind the last row of what was read there is the rest. -/
theorem filter_behind {before rest : List ρ} {last : ρ}
    (hdescending : (before ++ last :: rest).Pairwise (key · > key ·)) :
    ((before ++ last :: rest).filter fun row => key row < key last) = rest := by
  rw [List.pairwise_append, List.pairwise_cons] at hdescending
  obtain ⟨_, ⟨hrest, _⟩, hbefore⟩ := hdescending
  have hnone : before.filter (fun row => key row < key last) = [] := by
    apply List.filter_eq_nil_iff.mpr
    intro row hrow
    have hgt := hbefore row hrow last List.mem_cons_self
    simpa using le_of_lt hgt
  have hall : rest.filter (fun row => key row < key last) = rest := by
    apply List.filter_eq_self.mpr
    intro row hrow
    simpa using hrest row hrow
  rw [List.filter_append, hnone, List.nil_append, List.filter_cons, hall]
  simp

/-- One page, when the rest can be read from the last row of it. -/
theorem followed_page {i : Nat} {cursor : Option κ} {rest : List ρ}
    (hlimit : 1 ≤ limits i)
    (hview : ((views i).filter fun row => cursor.all fun c => key row < c) = rest)
    (hrest : ∀ before last after, rest = before ++ last :: after →
      Followed key views limits (i + 1) (some (key last)) after) :
    Followed key views limits i cursor rest := by
  have hpage : page key (limits i) cursor (views i) = rest.take (limits i) := by
    rw [page, hview]
  by_cases hfull : limits i ≤ rest.length
  · have htake : (rest.take (limits i)).length = limits i := by
      rw [List.length_take]
      omega
    have hne : rest.take (limits i) ≠ [] := by
      intro hnil
      rw [hnil] at htake
      simp only [List.length_nil] at htake
      omega
    have hnext : nextCursor key (limits i) (page key (limits i) cursor (views i)) =
        some (key ((rest.take (limits i)).getLast hne)) := by
      rw [hpage, nextCursor, if_pos htake, List.getLast?_eq_some_getLast hne]
      rfl
    have hsplit : rest = (rest.take (limits i)).dropLast ++
        (rest.take (limits i)).getLast hne :: rest.drop (limits i) := by
      rw [← List.singleton_append, ← List.append_assoc, List.dropLast_append_getLast,
        List.take_append_drop]
    have hfollowed := Followed.more i cursor _ _ hnext (hrest _ _ _ hsplit)
    rw [hpage, List.take_append_drop] at hfollowed
    exact hfollowed
  · have hall : rest.take (limits i) = rest := List.take_of_length_le (by omega)
    have hnext : nextCursor key (limits i) (page key (limits i) cursor (views i)) = none := by
      rw [hpage, hall, nextCursor, if_neg (by omega)]
    have hfollowed := Followed.last i cursor hnext
    rw [hpage, hall] at hfollowed
    exact hfollowed

theorem followed_behind (hlimits : ∀ i, 1 ≤ limits i)
    (hdescending : ∀ i, (views i).Pairwise (key · > key ·)) (n : Nat) :
    ∀ (i : Nat) (before : List ρ) (last : ρ) (rest : List ρ), rest.length < n →
      (∀ j, i ≤ j → (before ++ last :: rest) <:+ views j) →
        Followed key views limits i (some (key last)) rest := by
  induction n with
  | zero =>
      intro i before last rest hlength
      exact absurd hlength (Nat.not_lt_zero _)
  | succ n ih =>
      intro i before last rest hlength hkept
      obtain ⟨newer, hview⟩ := hkept i (Nat.le_refl i)
      apply followed_page (hlimits i)
      · have hbehind := hdescending i
        rw [← hview, ← List.append_assoc] at hbehind ⊢
        exact filter_behind hbehind
      · intro before' last' after hsplit
        rw [hsplit, List.length_append, List.length_cons] at hlength
        apply ih (i + 1) (before ++ last :: before') last' after (by omega)
        intro j hj
        have hsuffix := hkept j (by omega)
        rw [hsplit] at hsuffix
        simpa using hsuffix

/-- Whatever the limits are: the pages add up to the rows of the first view, when every
later view has them below its own rows. -/
theorem followed_all (hlimits : ∀ i, 1 ≤ limits i)
    (hdescending : ∀ i, (views i).Pairwise (key · > key ·))
    (hkept : ∀ i, views 0 <:+ views i) :
    Followed key views limits 0 none (views 0) := by
  apply followed_page (hlimits 0)
  · simp
  · intro before last after hsplit
    apply followed_behind hlimits hdescending (after.length + 1) 1 before last after
      (Nat.lt_succ_self _)
    intro j _
    rw [← hsplit]
    exact hkept j

end CryptoWallet.KeysetPages
