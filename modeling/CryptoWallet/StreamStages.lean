import CryptoWallet.AttemptBudget
import CryptoWallet.StreamGroup

/-!
# The stages of one entry of a stream

Reading hands an unread entry out for the first time, claiming hands a pending one
out again, and an entry which is acknowledged or evicted is handed out no more.  In
between an entry stays where it is.
-/

namespace CryptoWallet

theorem lookup_of_mem {α β : Type} [BEq α] [LawfulBEq α] {pairs : List (α × β)}
    (hnodup : (pairs.map Prod.fst).Nodup) {pair : α × β} (h : pair ∈ pairs) :
    pairs.lookup pair.1 = some pair.2 := by
  induction pairs with
  | nil => cases h
  | cons first rest ih =>
      rw [List.map_cons, List.nodup_cons] at hnodup
      rcases List.mem_cons.mp h with hfirst | hrest
      · rw [hfirst]
        exact List.lookup_cons_self
      · have hne : ¬ (pair.1 == first.1) = true := by
          intro heq
          apply hnodup.1
          rw [← eq_of_beq heq]
          exact List.mem_map_of_mem hrest
        rw [List.lookup_cons, Bool.eq_false_iff.mpr hne]
        exact ih hnodup.2 hrest

namespace StreamGroup

variable {β : Type} (s : StreamGroup β) (id : Nat)

def stage : Stage :=
  match s.pending? id with
  | some p => .pending p.timesDelivered
  | none => if s.cursor < id then .unread else .gone

variable {s id}

theorem stage_of_pending {p : Pending} (h : s.pending? id = some p) :
    s.stage id = .pending p.timesDelivered := by
  unfold stage
  rw [h]

theorem stage_of_none (h : s.pending? id = none) :
    s.stage id = if s.cursor < id then .unread else .gone := by
  unfold stage
  rw [h]

/-- A pending entry is behind the cursor. -/
theorem le_cursor {p : Pending} (h : s.pending? id = some p) : id ≤ s.cursor := by
  have hid : p.id = id := Table.key_of_find? h
  rw [← hid]
  exact s.pendingLe p (Table.mem_of_find? h)

theorem stage_add (s : StreamGroup β) (id limit evicted : Nat) (body : β) :
    (s.add limit evicted body).stage id = s.stage id := rfl

/-- The entries with this id among the ones handed out. -/
abbrev named (id : Nat) (messages : List (Nat × β)) : List (Nat × β) :=
  messages.filter (·.1 = id)

theorem named_of_ascending {messages : List (Nat × β)}
    (h : messages.Pairwise (·.1 < ·.1)) (id : Nat) :
    named id messages = [] ∨ ∃ body, named id messages = [(id, body)] := by
  induction messages with
  | nil => exact Or.inl rfl
  | cons message rest ih =>
      rw [List.pairwise_cons] at h
      by_cases hid : message.1 = id
      · right
        have hrest : named id rest = [] := by
          apply List.filter_eq_nil_iff.mpr
          intro other hother
          have hlt := h.1 other hother
          simp only [decide_eq_true_eq]
          omega
        refine ⟨message.2, ?_⟩
        rw [named, List.filter_cons_of_pos (by simpa using hid)]
        rw [show rest.filter (·.1 = id) = [] from hrest, ← hid]
      · rw [named, List.filter_cons_of_neg (by simpa using hid)]
        exact ih h.2

theorem mem_of_named {messages : List (Nat × β)} {body : β}
    (h : named id messages = [(id, body)]) : (id, body) ∈ messages := by
  have hmem : (id, body) ∈ named id messages := by
    rw [h]
    exact List.mem_singleton.mpr rfl
  exact (List.mem_filter.mp hmem).1

theorem not_mem_of_named {messages : List (Nat × β)} (h : named id messages = []) :
    ∀ body, (id, body) ∉ messages := by
  intro body hmem
  have hnone := List.filter_eq_nil_iff.mp h (id, body) hmem
  simp at hnone

/-! ## Reading -/

theorem stage_read (s : StreamGroup β) (id : Nat) (consumer : String) (now count : Nat) :
    (named id (s.read consumer now count).2 = [] ∧
      ((s.read consumer now count).1.stage id = s.stage id ∨
        s.stage id = .unread ∧ (s.read consumer now count).1.stage id = .gone)) ∨
    ∃ body, s.stage id = .unread ∧ named id (s.read consumer now count).2 = [(id, body)] ∧
      (s.read consumer now count).1.stage id = .pending 1 := by
  rcases named_of_ascending (s.fresh_ascending count) id with hnone | ⟨body, hbody⟩
  · left
    refine ⟨hnone, ?_⟩
    have hsame : (s.read consumer now count).1.pending? id = s.pending? id :=
      pending?_read_of_not_mem s id (not_mem_of_named hnone)
    cases hfind : s.pending? id with
    | some p =>
        left
        rw [stage_of_pending (hsame.trans hfind), stage_of_pending hfind]
    | none =>
        rw [stage_of_none (hsame.trans hfind), stage_of_none hfind]
        by_cases hcursor : s.cursor < id
        · rw [if_pos hcursor]
          by_cases hlater : (s.read consumer now count).1.cursor < id
          · exact Or.inl (if_pos hlater)
          · exact Or.inr ⟨rfl, if_neg hlater⟩
        · left
          have hle : s.cursor ≤ (s.read consumer now count).1.cursor := le_advanced _ _
          rw [if_neg hcursor, if_neg (by omega)]
  · right
    have hmem := mem_of_named hbody
    have hcursor := (mem_fresh hmem).2
    have hfree : s.pending? id = none := by
      cases hfind : s.pending? id with
      | none => rfl
      | some p =>
          have hle := le_cursor hfind
          simp only at hcursor
          omega
    refine ⟨body, ?_, hbody, ?_⟩
    · rw [stage_of_none hfree, if_pos hcursor]
    · exact stage_of_pending (pending?_read_of_mem s id hmem)

/-! ## Claiming -/

theorem idlePending_nodup (s : StreamGroup β) (now minIdle count : Nat) :
    ((s.idlePending now minIdle count).map Prod.fst).Nodup := by
  have hids : (s.idlePending now minIdle count).map Prod.fst =
      ((s.pending.select (Pending.idle now minIdle)).take count).map Pending.id := by
    unfold idlePending
    rw [List.map_map]
    rfl
  rw [hids]
  exact List.Nodup.sublist
    (((List.take_sublist _ _).trans List.filter_sublist).map Pending.id) s.pending.nodup

/-- `XPENDING` reports how often an entry was delivered so far. -/
theorem idlePending_lookup {now minIdle count k : Nat} (hstage : s.stage id = .pending k)
    (hid : id ∈ (s.idlePending now minIdle count).map Prod.fst) :
    (s.idlePending now minIdle count).lookup id = some k := by
  obtain ⟨pair, hpair, hfst⟩ := List.mem_map.mp hid
  have hlookup : (s.idlePending now minIdle count).lookup pair.1 = some pair.2 :=
    lookup_of_mem (idlePending_nodup s now minIdle count) hpair
  rw [← hfst, hlookup]
  obtain ⟨p, hp, hsame⟩ := List.mem_map.mp hpair
  have hrow := (List.mem_filter.mp (List.mem_of_mem_take hp)).1
  have hfind : s.pending? id = some p := by
    have hkey : p.id = id := by
      rw [← hfst, ← hsame]
    rw [← hkey]
    exact s.pending.find?_of_mem hrow
  rw [stage_of_pending hfind] at hstage
  rw [← hsame]
  cases hstage
  rfl

theorem claimable_id {now minIdle : Nat} {entry : Nat × β}
    (h : s.claimable now minIdle id = some entry) : entry.1 = id := by
  unfold claimable at h
  split at h
  · cases h
  · split at h
    · obtain ⟨body, _, hentry⟩ := Option.map_eq_some_iff.mp h
      rw [← hentry]
    · cases h

theorem claimable_named (s : StreamGroup β) (id now minIdle : Nat) {ids : List Nat}
    (hnodup : ids.Nodup) :
    named id (ids.filterMap (s.claimable now minIdle)) =
      if id ∈ ids then (s.claimable now minIdle id).toList else [] := by
  induction ids with
  | nil => rfl
  | cons first rest ih =>
      rw [List.nodup_cons] at hnodup
      have hrest := ih hnodup.2
      by_cases hfirst : first = id
      · have hlater : named id (rest.filterMap (s.claimable now minIdle)) = [] := by
          rw [hrest, if_neg (hfirst ▸ hnodup.1)]
        rw [if_pos (by simp [hfirst])]
        cases hclaim : s.claimable now minIdle first with
        | none =>
            rw [List.filterMap_cons_none hclaim, hlater, ← hfirst, hclaim]
            rfl
        | some entry =>
            have hid : entry.1 = id := (claimable_id hclaim).trans hfirst
            rw [List.filterMap_cons_some hclaim, named,
              List.filter_cons_of_pos (by simpa using hid)]
            rw [show (rest.filterMap (s.claimable now minIdle)).filter (·.1 = id) = [] from
              hlater, ← hfirst, hclaim]
            rfl
      · have hmem : id ∈ first :: rest ↔ id ∈ rest := by
          rw [List.mem_cons]
          exact or_iff_right fun h => hfirst h.symm
        simp only [hmem]
        rw [← hrest]
        cases hclaim : s.claimable now minIdle first with
        | none => rw [List.filterMap_cons_none hclaim]
        | some entry =>
            have hid : ¬ entry.1 = id := fun h => hfirst ((claimable_id hclaim).symm.trans h)
            rw [List.filterMap_cons_some hclaim, named,
              List.filter_cons_of_neg (by simpa using hid)]

theorem stage_claim (s : StreamGroup β) (id : Nat) (consumer : String) (now minIdle : Nat)
    {ids : List Nat} (hnodup : ids.Nodup) :
    (named id (s.claim consumer now minIdle ids).2 = [] ∧
      ((s.claim consumer now minIdle ids).1.stage id = s.stage id ∨
        (∃ k, s.stage id = .pending k) ∧
          (s.claim consumer now minIdle ids).1.stage id = .gone)) ∨
    ∃ body k, s.stage id = .pending k ∧ id ∈ ids ∧
      named id (s.claim consumer now minIdle ids).2 = [(id, body)] ∧
      (s.claim consumer now minIdle ids).1.stage id = .pending (k + 1) := by
  have hnamed : named id (s.claim consumer now minIdle ids).2 =
      if id ∈ ids then (s.claimable now minIdle id).toList else [] :=
    claimable_named s id now minIdle hnodup
  have hafter := pending?_claim s id consumer now minIdle ids
  rw [hnamed]
  cases hfind : s.pending? id with
  | none =>
      left
      have hclaimable : s.claimable now minIdle id = none := by
        unfold claimable
        rw [hfind]
      rw [hfind, Option.bind_none] at hafter
      rw [hclaimable, Option.toList_none, ite_self]
      exact ⟨rfl, Or.inl (by rw [stage_of_none hafter, stage_of_none hfind, cursor_claim])⟩
  | some p =>
      have hkey : p.id = id := Table.key_of_find? hfind
      have hstage := stage_of_pending hfind
      rw [hfind, Option.bind_some, reclaimed, hkey] at hafter
      by_cases hclaimed : id ∈ ids ∧ p.idle now minIdle = true
      · rw [if_pos hclaimed] at hafter
        have hclaimable : s.claimable now minIdle id = (s.entry? id).map (id, ·) := by
          unfold claimable
          rw [hfind]
          exact if_pos hclaimed.2
        rw [if_pos hclaimed.1, hclaimable]
        cases hentry : s.entry? id with
        | none =>
            left
            rw [hentry] at hafter
            have hcursor := le_cursor hfind
            refine ⟨rfl, Or.inr ⟨⟨_, hstage⟩, ?_⟩⟩
            rw [stage_of_none hafter, cursor_claim, if_neg (by omega)]
        | some body =>
            right
            rw [hentry] at hafter
            exact ⟨body, p.timesDelivered, hstage, hclaimed.1, rfl, stage_of_pending hafter⟩
      · left
        rw [if_neg hclaimed] at hafter
        have hnone : (if id ∈ ids then (s.claimable now minIdle id).toList else []) = [] := by
          split
          case isTrue hmem =>
            have hidle : ¬ p.idle now minIdle = true := fun hidle => hclaimed ⟨hmem, hidle⟩
            unfold claimable
            rw [hfind]
            simp [hidle]
          case isFalse => rfl
        exact ⟨hnone, Or.inl (by rw [stage_of_pending hafter, hstage])⟩

/-! ## Acknowledging -/

theorem stage_ack (s : StreamGroup β) (id other : Nat) :
    (s.ack other).stage id =
      if other = id then (match s.stage id with | .pending _ => .gone | stage => stage)
      else s.stage id := by
  have hafter := pending?_ack s other id
  by_cases hsame : id = other
  · rw [if_pos hsame] at hafter
    rw [if_pos hsame.symm, stage_of_none hafter, cursor_ack]
    cases hfind : s.pending? id with
    | some p =>
        have hcursor := le_cursor hfind
        rw [stage_of_pending hfind, if_neg (by omega)]
    | none =>
        rw [stage_of_none hfind]
        by_cases hcursor : s.cursor < id
        · rw [if_pos hcursor]
        · rw [if_neg hcursor]
  · rw [if_neg hsame] at hafter
    rw [if_neg (fun h => hsame h.symm)]
    unfold stage
    rw [hafter, cursor_ack]

end StreamGroup
end CryptoWallet
