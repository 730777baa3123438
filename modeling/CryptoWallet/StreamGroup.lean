import CryptoWallet.KeyedTable

/-!
# A stream with a consumer group

An append-only stream of entries with ascending ids, read by the consumers of one
group.  Reading hands out the entries behind the cursor of the group and keeps each
of them pending until it is acknowledged.  A pending entry which has been idle for
long enough can be claimed by another consumer; every delivery is counted.

Appending with a limit evicts the oldest entries, whether or not the group has read
or acknowledged them.  The limit is approximate: at least that many entries are
kept, and how many of the others go is up to the server.  Pending deliveries of an
evicted entry stay behind until they are claimed.
-/

namespace CryptoWallet

/-- A delivery which is not acknowledged. -/
structure Pending where
  id : Nat
  consumer : String
  deliveredAt : Nat
  timesDelivered : Nat
  deriving DecidableEq

def Pending.idle (now minIdle : Nat) (p : Pending) : Bool := minIdle ≤ now - p.deliveredAt

structure StreamGroup (β : Type) where
  entries : List (Nat × β)
  lastId : Nat
  cursor : Nat
  pending : Table Nat Pending Pending.id
  ascending : entries.Pairwise (·.1 < ·.1)
  entriesLe : ∀ entry ∈ entries, entry.1 ≤ lastId
  cursorLe : cursor ≤ lastId
  pendingLe : ∀ p ∈ pending.rows, p.id ≤ cursor
  deriving DecidableEq

namespace StreamGroup

variable {β : Type}

/-- The group is created at id 0: it reads the stream from its beginning. -/
def empty : StreamGroup β where
  entries := []
  lastId := 0
  cursor := 0
  pending := .empty
  ascending := .nil
  entriesLe := by simp
  cursorLe := le_refl 0
  pendingLe := by simp

def entry? (s : StreamGroup β) (id : Nat) : Option β :=
  (s.entries.find? (·.1 = id)).map Prod.snd

def pending? (s : StreamGroup β) (id : Nat) : Option Pending := s.pending.find? id

/-- `XADD ... MAXLEN ~ limit`, where the server evicts `evicted` entries if so many are
beyond the limit. -/
def add (s : StreamGroup β) (limit evicted : Nat) (body : β) : StreamGroup β where
  entries :=
    (s.entries ++ [(s.lastId + 1, body)]).drop
      (min evicted (s.entries.length + 1 - limit))
  lastId := s.lastId + 1
  cursor := s.cursor
  pending := s.pending
  ascending := by
    apply List.Pairwise.sublist (List.drop_sublist _ _)
    rw [List.pairwise_append]
    refine ⟨s.ascending, List.pairwise_singleton _ _, ?_⟩
    intro entry hentry last hlast
    have hle := s.entriesLe entry hentry
    rw [List.mem_singleton.mp hlast]
    exact Nat.lt_succ_of_le hle
  entriesLe := by
    intro entry hentry
    rcases List.mem_append.mp (List.mem_of_mem_drop hentry) with hold | hnew
    · exact Nat.le_succ_of_le (s.entriesLe entry hold)
    · exact (List.mem_singleton.mp hnew) ▸ le_refl _
  cursorLe := Nat.le_succ_of_le s.cursorLe
  pendingLe := s.pendingLe

/-- The entries the next read of the group hands out. -/
def fresh (s : StreamGroup β) (count : Nat) : List (Nat × β) :=
  (s.entries.filter fun entry => s.cursor < entry.1).take count

theorem mem_fresh {s : StreamGroup β} {count : Nat} {entry : Nat × β}
    (h : entry ∈ s.fresh count) : entry ∈ s.entries ∧ s.cursor < entry.1 := by
  have hfilter := List.mem_filter.mp (List.mem_of_mem_take h)
  exact ⟨hfilter.1, by simpa using hfilter.2⟩

theorem fresh_ascending (s : StreamGroup β) (count : Nat) :
    (s.fresh count).Pairwise (·.1 < ·.1) :=
  s.ascending.sublist ((List.take_sublist _ _).trans List.filter_sublist)

/-- The cursor behind the entries just read. -/
def advanced (cursor : Nat) (read : List (Nat × β)) : Nat :=
  (read.map Prod.fst).foldl max cursor

theorem advanced_le {cursor limit : Nat} {read : List (Nat × β)} (hcursor : cursor ≤ limit)
    (hread : ∀ entry ∈ read, entry.1 ≤ limit) : advanced cursor read ≤ limit := by
  induction read generalizing cursor with
  | nil => exact hcursor
  | cons entry rest ih =>
      apply ih (max_le hcursor (hread entry List.mem_cons_self))
      exact fun other hother => hread other (List.mem_cons_of_mem entry hother)

theorem le_advanced (cursor : Nat) (read : List (Nat × β)) :
    cursor ≤ advanced cursor read := by
  induction read generalizing cursor with
  | nil => exact le_refl cursor
  | cons entry rest ih => exact (le_max_left cursor entry.1).trans (ih _)

theorem mem_le_advanced (cursor : Nat) {read : List (Nat × β)} {entry : Nat × β}
    (h : entry ∈ read) : entry.1 ≤ advanced cursor read := by
  induction read generalizing cursor with
  | nil => cases h
  | cons first rest ih =>
      rcases List.mem_cons.mp h with rfl | hrest
      · exact (le_max_right cursor entry.1).trans (le_advanced _ rest)
      · exact ih _ hrest

/-- `XREADGROUP ... >`. -/
def read (s : StreamGroup β) (consumer : String) (now count : Nat) :
    StreamGroup β × List (Nat × β) :=
  ({ s with
    cursor := advanced s.cursor (s.fresh count)
    pending := {
      rows := s.pending.rows ++ (s.fresh count).map fun entry => ⟨entry.1, consumer, now, 1⟩
      nodup := by
        rw [List.map_append, List.nodup_append, List.map_map]
        refine ⟨s.pending.nodup, ?_, ?_⟩
        · have hlt := (s.fresh_ascending count).map Prod.fst (S := (· < ·)) fun _ _ h => h
          exact hlt.imp fun h => Nat.ne_of_lt h
        · intro id hid id' hid' heq
          obtain ⟨p, hp, rfl⟩ := List.mem_map.mp hid
          obtain ⟨entry, hentry, rfl⟩ := List.mem_map.mp hid'
          have hle := s.pendingLe p hp
          have hlt := (mem_fresh hentry).2
          simp only [Function.comp] at heq
          omega }
    cursorLe := advanced_le s.cursorLe fun entry hentry =>
      s.entriesLe entry (mem_fresh hentry).1
    pendingLe := by
      intro p hp
      rcases List.mem_append.mp hp with hold | hnew
      · exact (s.pendingLe p hold).trans (le_advanced _ _)
      · obtain ⟨entry, hentry, rfl⟩ := List.mem_map.mp hnew
        exact mem_le_advanced _ hentry },
   s.fresh count)

/-- `XPENDING ... IDLE`: the ids, and how often each was delivered. -/
def idlePending (s : StreamGroup β) (now minIdle count : Nat) : List (Nat × Nat) :=
  ((s.pending.select (Pending.idle now minIdle)).take count).map fun p =>
    (p.id, p.timesDelivered)

/-- A claim of one pending delivery; nothing is left of it when the entry is gone. -/
def reclaimed (s : StreamGroup β) (consumer : String) (now minIdle : Nat) (ids : List Nat)
    (p : Pending) : Option Pending :=
  if p.id ∈ ids ∧ p.idle now minIdle = true then
    if (s.entry? p.id).isSome then
      some ⟨p.id, consumer, now, p.timesDelivered + 1⟩
    else none
  else some p

theorem reclaimed_id {s : StreamGroup β} {consumer : String} {now minIdle : Nat}
    {ids : List Nat} (p p' : Pending)
    (h : s.reclaimed consumer now minIdle ids p = some p') : p'.id = p.id := by
  unfold reclaimed at h
  split at h
  · split at h
    · exact Option.some.inj h ▸ rfl
    · cases h
  · exact Option.some.inj h ▸ rfl

/-- The entry a claim hands out for an id. -/
def claimable (s : StreamGroup β) (now minIdle id : Nat) : Option (Nat × β) :=
  match s.pending? id with
  | none => none
  | some p => if p.idle now minIdle then (s.entry? id).map (id, ·) else none

/-- `XCLAIM`. -/
def claim (s : StreamGroup β) (consumer : String) (now minIdle : Nat) (ids : List Nat) :
    StreamGroup β × List (Nat × β) :=
  ({ s with
    pending := s.pending.filterMapRows (s.reclaimed consumer now minIdle ids) reclaimed_id
    pendingLe := by
      intro p' hp'
      obtain ⟨p, hp, hmap⟩ := List.mem_filterMap.mp hp'
      rw [reclaimed_id p p' hmap]
      exact s.pendingLe p hp },
   ids.filterMap (s.claimable now minIdle))

/-- `XACK`. -/
def ack (s : StreamGroup β) (id : Nat) : StreamGroup β :=
  { s with
    pending := s.pending.filterMapRows (fun p => if p.id = id then none else some p) (by
      intro p p' h
      split at h
      · cases h
      · exact Option.some.inj h ▸ rfl)
    pendingLe := by
      intro p' hp'
      obtain ⟨p, hp, hmap⟩ := List.mem_filterMap.mp hp'
      split at hmap
      · cases hmap
      · exact Option.some.inj hmap ▸ s.pendingLe p hp }

/-! ## What the operations do to one entry -/

section Entry

variable (s : StreamGroup β) (id : Nat)

theorem entry?_eq_some_iff {body : β} :
    s.entry? id = some body ↔ (id, body) ∈ s.entries := by
  unfold entry?
  constructor
  · intro h
    obtain ⟨entry, hfind, rfl⟩ := Option.map_eq_some_iff.mp h
    have hid : entry.1 = id := by simpa using List.find?_some hfind
    exact hid ▸ List.mem_of_find?_eq_some hfind
  · intro h
    obtain ⟨before, after, hsplit⟩ := List.append_of_mem h
    have hbefore : ∀ entry ∈ before, ¬(entry.1 = id) := by
      intro entry hentry
      have hlt := (List.pairwise_append.mp (hsplit ▸ s.ascending)).2.2 entry hentry (id, body)
        List.mem_cons_self
      exact Nat.ne_of_lt hlt
    rw [hsplit, List.find?_append, List.find?_eq_none.mpr (by simpa using hbefore)]
    simp

@[simp] theorem entries_read (consumer : String) (now count : Nat) :
    (s.read consumer now count).1.entries = s.entries := rfl

@[simp] theorem entries_claim (consumer : String) (now minIdle : Nat) (ids : List Nat) :
    (s.claim consumer now minIdle ids).1.entries = s.entries := rfl

@[simp] theorem entries_ack : (s.ack id).entries = s.entries := rfl

@[simp] theorem cursor_claim (consumer : String) (now minIdle : Nat) (ids : List Nat) :
    (s.claim consumer now minIdle ids).1.cursor = s.cursor := rfl

@[simp] theorem cursor_ack : (s.ack id).cursor = s.cursor := rfl

theorem pending?_ack (other : Nat) :
    (s.ack id).pending? other = if other = id then none else s.pending? other := by
  unfold pending? ack
  rw [Table.find?_filterMapRows]
  cases hfind : s.pending.find? other with
  | none => simp
  | some p =>
      have hid : p.id = other := Table.key_of_find? hfind
      simp [hid]

theorem pending?_claim (consumer : String) (now minIdle : Nat) (ids : List Nat) :
    (s.claim consumer now minIdle ids).1.pending? id =
      (s.pending? id).bind (s.reclaimed consumer now minIdle ids) :=
  Table.find?_filterMapRows s.pending reclaimed_id id

theorem pending?_read_of_mem {consumer : String} {now count : Nat} {body : β}
    (h : (id, body) ∈ (s.read consumer now count).2) :
    (s.read consumer now count).1.pending? id = some ⟨id, consumer, now, 1⟩ := by
  apply (Table.find?_eq_some_iff _).mpr
  refine ⟨List.mem_append.mpr (Or.inr ?_), rfl⟩
  exact List.mem_map.mpr ⟨(id, body), h, rfl⟩

theorem pending?_read_of_not_mem {consumer : String} {now count : Nat}
    (h : ∀ body, (id, body) ∉ (s.read consumer now count).2) :
    (s.read consumer now count).1.pending? id = s.pending? id := by
  unfold pending?
  cases hfind : s.pending.find? id with
  | some p =>
      rw [Table.find?_eq_some_iff] at hfind ⊢
      exact ⟨List.mem_append.mpr (Or.inl hfind.1), hfind.2⟩
  | none =>
      rw [Table.find?_eq_none_iff] at hfind ⊢
      intro p hp
      rcases List.mem_append.mp hp with hold | hnew
      · exact hfind p hold
      · obtain ⟨entry, hentry, rfl⟩ := List.mem_map.mp hnew
        intro hid
        exact h entry.2 (hid ▸ hentry)

/-- What is not read yet stays in front of the cursor. -/
theorem read_cursor_lt {consumer : String} {now count : Nat} {body : β}
    (hentry : (id, body) ∈ s.entries) (hcursor : s.cursor < id)
    (h : (id, body) ∉ (s.read consumer now count).2) :
    (s.read consumer now count).1.cursor < id := by
  have hmem : (id, body) ∈ s.entries.filter fun entry => s.cursor < entry.1 :=
    List.mem_filter.mpr ⟨hentry, by simpa using hcursor⟩
  have hlater : (id, body) ∈
      (s.entries.filter fun entry => s.cursor < entry.1).drop count := by
    rw [← List.take_append_drop count
      (s.entries.filter fun entry => s.cursor < entry.1)] at hmem
    exact (List.mem_append.mp hmem).resolve_left h
  have hordered := s.ascending.sublist (List.filter_sublist
    (p := fun entry : Nat × β => s.cursor < entry.1))
  rw [← List.take_append_drop count
    (s.entries.filter fun entry => s.cursor < entry.1), List.pairwise_append] at hordered
  have hle : advanced s.cursor (s.fresh count) ≤ id - 1 := by
    apply advanced_le
    · omega
    · intro entry hread
      have hlt := hordered.2.2 entry hread (id, body) hlater
      simp only at hlt
      omega
  change advanced s.cursor (s.fresh count) < id
  omega

end Entry

/-! ## Entries which the group still has to deal with -/

section Outstanding

variable {s : StreamGroup β} {id : Nat} {body : β}

/-- The entry is not read yet, or pending. -/
def Outstanding (s : StreamGroup β) (id : Nat) (body : β) : Prop :=
  (id, body) ∈ s.entries ∧ (s.cursor < id ∨ (s.pending? id).isSome = true)

/-- The id was given to this body, and is not given to another one. -/
def Names (s : StreamGroup β) (id : Nat) (body : β) : Prop :=
  id ≤ s.lastId ∧ ∀ body', (id, body') ∈ s.entries → body' = body

/-- The entries which appending evicts; the new one may be among them. -/
def evicted (s : StreamGroup β) (limit count : Nat) (body : β) : List (Nat × β) :=
  (s.entries ++ [(s.lastId + 1, body)]).take (min count (s.entries.length + 1 - limit))

theorem names_of_mem (h : (id, body) ∈ s.entries) : s.Names id body := by
  refine ⟨s.entriesLe _ h, ?_⟩
  intro body' h'
  rw [← entry?_eq_some_iff] at h h'
  exact Option.some.inj (h'.symm.trans h)

theorem Names.add (h : s.Names id body) (limit count : Nat) (new : β) :
    (s.add limit count new).Names id body := by
  refine ⟨Nat.le_succ_of_le h.1, ?_⟩
  intro body' hmem
  rcases List.mem_append.mp (List.mem_of_mem_drop hmem) with hold | hnew
  · exact h.2 body' hold
  · have hid : id = s.lastId + 1 := congrArg Prod.fst (List.mem_singleton.mp hnew)
    have hle := h.1
    omega

theorem mem_add (s : StreamGroup β) (limit count : Nat) (new : β) {entry : Nat × β}
    (h : entry ∈ s.entries ++ [(s.lastId + 1, new)])
    (hkept : entry ∉ s.evicted limit count new) :
    entry ∈ (s.add limit count new).entries := by
  rw [← List.take_append_drop (min count (s.entries.length + 1 - limit))
    (s.entries ++ [(s.lastId + 1, new)])] at h
  exact (List.mem_append.mp h).resolve_left hkept

theorem Outstanding.add (h : s.Outstanding id body) {limit count : Nat} {new : β}
    (hkept : (id, body) ∉ s.evicted limit count new) :
    (s.add limit count new).Outstanding id body :=
  ⟨s.mem_add limit count new (List.mem_append.mpr (Or.inl h.1)) hkept, h.2⟩

theorem outstanding_add (s : StreamGroup β) {limit count : Nat} {new : β}
    (hkept : (s.lastId + 1, new) ∉ s.evicted limit count new) :
    (s.add limit count new).Outstanding (s.lastId + 1) new :=
  ⟨s.mem_add limit count new (by simp) hkept, Or.inl (Nat.lt_succ_of_le s.cursorLe)⟩

theorem Outstanding.read (h : s.Outstanding id body) (consumer : String)
    (now count : Nat) : (s.read consumer now count).1.Outstanding id body := by
  obtain ⟨hentry, hopen⟩ := h
  refine ⟨hentry, ?_⟩
  by_cases hread : ∃ body', (id, body') ∈ (s.read consumer now count).2
  · obtain ⟨body', hread⟩ := hread
    rw [pending?_read_of_mem s id hread]
    exact Or.inr rfl
  · have hread : ∀ body', (id, body') ∉ (s.read consumer now count).2 := by
      simpa using hread
    rcases hopen with hcursor | hpending
    · exact Or.inl (read_cursor_lt s id hentry hcursor (hread body))
    · rw [pending?_read_of_not_mem s id hread]
      exact Or.inr hpending

theorem Outstanding.claim (h : s.Outstanding id body) (consumer : String)
    (now minIdle : Nat) (ids : List Nat) :
    (s.claim consumer now minIdle ids).1.Outstanding id body := by
  obtain ⟨hentry, hopen⟩ := h
  refine ⟨hentry, ?_⟩
  rcases hopen with hcursor | hpending
  · exact Or.inl hcursor
  · obtain ⟨p, hp⟩ := Option.isSome_iff_exists.mp hpending
    have hid : p.id = id := Table.key_of_find? hp
    have hfound : (s.entry? p.id).isSome = true := by
      rw [hid, (entry?_eq_some_iff s id).mpr hentry]
      rfl
    right
    rw [pending?_claim, hp, Option.bind_some]
    unfold reclaimed
    rw [if_pos hfound]
    split <;> rfl

theorem Outstanding.ack (h : s.Outstanding id body) {other : Nat} (hother : id ≠ other) :
    (s.ack other).Outstanding id body := by
  refine ⟨h.1, ?_⟩
  rw [pending?_ack, if_neg hother]
  exact h.2

theorem mem_claim {now minIdle : Nat} {ids : List Nat} {entry : Nat × β}
    (h : entry ∈ ids.filterMap (s.claimable now minIdle)) : entry ∈ s.entries := by
  obtain ⟨id, _, hid⟩ := List.mem_filterMap.mp h
  unfold claimable at hid
  split at hid
  · cases hid
  · split at hid
    · obtain ⟨body, hbody, rfl⟩ := Option.map_eq_some_iff.mp hid
      exact (entry?_eq_some_iff s id).mp hbody
    · cases hid

end Outstanding

end StreamGroup
end CryptoWallet
