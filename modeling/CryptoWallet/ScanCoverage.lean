import CryptoWallet.ChainView
import CryptoWallet.DepositCases

/-!
# What the cursor of the scanner vouches for

The cursor is written with the hash of its block, and with it the scanner has
read every log up to there.  So a log which was canonical when the cursor was
written and is canonical now has a row which is not reorged.  The runs of the
two deposit workers and the steps of the chain keep this, each under a condition
of its own.
-/

namespace CryptoWallet.Blockchain

open MockChain (ChainStep Consistent Later OnChain canonicalAt canonicalAt_iff
  chainStep chainStep_consistent getReceipt headNumber)

/-! ## The upserts of one run -/

section Upserts

variable {scope : Scope}

theorem Upserted.scanState {newId : Uuid} {entry : TransferLog} {db db' : Db}
    (h : Upserted scope newId entry db db') : db'.scanState = db.scanState := by
  cases h <;> rfl

theorem Upserted.addresses {newId : Uuid} {entry : TransferLog} {db db' : Db}
    (h : Upserted scope newId entry db db') : db'.addresses = db.addresses := by
  cases h <;> rfl

/-- A live row is not written. -/
theorem Upserted.live_kept {newId : Uuid} {entry : TransferLog} {db db' : Db}
    (h : Upserted scope newId entry db db') {id : DepositId} {d : Deposit}
    (hd : db.deposits.find? id = some d) (hlive : d.status ≠ .reorged) :
    db'.deposits.find? id = some d := by
  cases h with
  | inserted proposed hproposed deposits hinsert payload hpayload outbox houtbox =>
      have hfree := Table.insert?_free hinsert
      have hne : id ≠ proposed.identity := by
        intro heq
        rw [heq, hfree] at hd
        cases hd
      have hfind := Table.find?_insert? hinsert id
      rw [if_neg hne] at hfind
      exact hfind.trans hd
  | revived proposed hproposed stored hstored hreorged payload hpayload outbox houtbox =>
      have hne : id ≠ (stored.revived entry).identity := by
        intro heq
        have hkey := Table.key_of_find? hstored
        have hsame : id = proposed.identity := heq.trans hkey
        rw [hsame, hstored, Option.some.injEq] at hd
        exact hlive (hd ▸ hreorged)
      exact (Table.find?_replace_of_ne _ _ hne).trans hd
  | known proposed hproposed stored hstored hlive' => exact hd

/-- The log which was upserted has a live row. -/
theorem Upserted.live_after {newId : Uuid} {entry : TransferLog} {db db' : Db}
    (h : Upserted scope newId entry db db') (hnetwork : entry.network.length ≤ 32) :
    ∃ d, db'.deposits.find? entry.identity = some d ∧ d.status ≠ .reorged := by
  cases h with
  | inserted proposed hproposed deposits hinsert payload hpayload outbox houtbox =>
      have hfind := Table.find?_insert? hinsert proposed.identity
      rw [if_pos rfl, hproposed.identity hnetwork] at hfind
      refine ⟨proposed, hfind, ?_⟩
      rw [hproposed.status]
      simp
  | revived proposed hproposed stored hstored hreorged payload hpayload outbox houtbox =>
      rw [hproposed.identity hnetwork] at hstored
      have hkey := Table.key_of_find? hstored
      have hfind : (db.deposits.replace (stored.revived entry)).find? entry.identity =
          some (stored.revived entry) := Table.find?_replace_of_key _ hkey hstored
      refine ⟨stored.revived entry, hfind, ?_⟩
      simp [Deposit.revived]
  | known proposed hproposed stored hstored hlive =>
      rw [hproposed.identity hnetwork] at hstored
      exact ⟨stored, hstored, hlive⟩

/-- Every row was there before or repeats the log. -/
theorem Upserted.origin {newId : Uuid} {entry : TransferLog} {db db' : Db}
    (h : Upserted scope newId entry db db') {d' : Deposit} (hd' : d' ∈ db'.deposits.rows) :
    (∃ d ∈ db.deposits.rows, d.SameLog d') ∨ d'.Proposes entry := by
  cases h with
  | inserted proposed hproposed deposits hinsert payload hpayload outbox houtbox =>
      rcases (Table.mem_insert? hinsert).mp hd' with hd' | rfl
      · exact Or.inl ⟨d', hd', .refl d'⟩
      · exact Or.inr hproposed
  | revived proposed hproposed stored hstored hreorged payload hpayload outbox houtbox =>
      left
      have hstored' : db.deposits.find? (stored.revived entry).identity = some stored := by
        have hkey := Table.key_of_find? hstored
        rw [← hkey] at hstored
        exact hstored
      rcases (Table.mem_replace _ hstored').mp hd' with rfl | ⟨hd', _⟩
      · exact ⟨stored, Table.mem_of_find? hstored, ⟨rfl, rfl, rfl, rfl, rfl⟩⟩
      · exact ⟨d', hd', .refl d'⟩
  | known proposed hproposed stored hstored hlive => exact Or.inl ⟨d', hd', .refl d'⟩

variable {newId : TransferLog → Uuid} {logs : List TransferLog} {db db' : Db}

theorem UpsertedAll.frame (h : UpsertedAll scope newId logs db db') :
    db'.scanState = db.scanState ∧ db'.addresses = db.addresses := by
  induction h with
  | nil db => exact ⟨rfl, rfl⟩
  | cons hfirst hrest ih =>
      exact ⟨ih.1.trans hfirst.scanState, ih.2.trans hfirst.addresses⟩

theorem UpsertedAll.live_kept (h : UpsertedAll scope newId logs db db') {id : DepositId}
    {d : Deposit} (hd : db.deposits.find? id = some d) (hlive : d.status ≠ .reorged) :
    db'.deposits.find? id = some d := by
  induction h with
  | nil db => exact hd
  | cons hfirst hrest ih => exact ih (hfirst.live_kept hd hlive)

theorem UpsertedAll.live_after (h : UpsertedAll scope newId logs db db')
    (hnetwork : ∀ entry ∈ logs, entry.network.length ≤ 32) {entry : TransferLog}
    (hentry : entry ∈ logs) :
    ∃ d, db'.deposits.find? entry.identity = some d ∧ d.status ≠ .reorged := by
  induction h with
  | nil db => simp at hentry
  | cons hfirst hrest ih =>
      rcases List.mem_cons.mp hentry with rfl | hentry
      · obtain ⟨d, hd, hlive⟩ := hfirst.live_after (hnetwork entry List.mem_cons_self)
        exact ⟨d, hrest.live_kept hd hlive, hlive⟩
      · exact ih (fun e he => hnetwork e (List.mem_cons_of_mem _ he)) hentry

theorem UpsertedAll.origin (h : UpsertedAll scope newId logs db db') {d' : Deposit}
    (hd' : d' ∈ db'.deposits.rows) :
    ∃ d, d.SameLog d' ∧ (d ∈ db.deposits.rows ∨ ∃ entry ∈ logs, d.Proposes entry) := by
  induction h with
  | nil db => exact ⟨d', .refl d', Or.inl hd'⟩
  | cons hfirst hrest ih =>
      obtain ⟨d, hsame, horigin⟩ := ih hd'
      rcases horigin with hmem | ⟨entry, hentry, hproposes⟩
      · rcases hfirst.origin hmem with ⟨old, hold, hsame'⟩ | hproposes
        · exact ⟨old, hsame'.trans hsame, Or.inl hold⟩
        · exact ⟨d, hsame, Or.inr ⟨_, List.mem_cons_self, hproposes⟩⟩
      · exact ⟨d, hsame, Or.inr ⟨entry, List.mem_cons_of_mem _ hentry, hproposes⟩⟩

end Upserts

/-! ## The claim of the cursor -/

/-- Between an address in custody and one outside, towards custody. -/
def Watches (config : MockChain.Config) (settings : Settings) (db : Db)
    (fromAddress toAddress : String) : Prop :=
  config.letterCase.lower toAddress ∈
      (activeAddresses db).map config.letterCase.lower ∧
    settings.letterCase.lower fromAddress ∉
      (activeAddresses db).map settings.letterCase.lower

instance (config : MockChain.Config) (settings : Settings) (db : Db)
    (fromAddress toAddress : String) :
    Decidable (Watches config settings db fromAddress toAddress) :=
  inferInstanceAs (Decidable (_ ∧ _))

def Db.HasLive (db : Db) (id : DepositId) : Prop :=
  ∃ d, db.deposits.find? id = some d ∧ d.status ≠ .reorged

/-- `seen` is the chain the cursor was written for, `chain` the chain now. -/
structure Coverage (config : MockChain.Config) (settings : Settings) (db : Db)
    (seen chain : MockChain.State) : Prop where
  seen_consistent : Consistent seen
  chain_consistent : Consistent chain
  later : Later seen chain
  certified : ∀ state, db.scanState.find? settings.network = some state →
    ∃ b, canonicalAt seen state.lastScannedBlock = some b ∧
      state.lastScannedHash = some b.hash
  vouched : ∀ state, db.scanState.find? settings.network = some state →
    ∀ entry, OnChain config seen entry → OnChain config chain entry →
      entry.blockNumber ≤ state.lastScannedBlock →
      Watches config settings db entry.fromAddress entry.toAddress →
      db.HasLive entry.identity
  /-- Every row is about a transaction between such addresses. -/
  traced : ∀ d ∈ db.deposits.rows, d.network.val = config.network.val ∧
    ∃ tx ∈ chain.transactions.rows, tx.hash = d.txHash ∧
      tx.toAddress.val = d.toAddress.val ∧
      Watches config settings db tx.fromAddress.val tx.toAddress.val

/-- A log which was on the chain and is again was there in between. -/
theorem onChain_between {config : MockChain.Config} {s s' s'' : MockChain.State}
    (h : Later s s') (h' : Later s' s'') {entry : TransferLog}
    (hbefore : OnChain config s entry) (hafter : OnChain config s'' entry) :
    OnChain config s' entry := by
  obtain ⟨tx, block, hemitted⟩ := hbefore
  obtain ⟨b, hb, hhash⟩ := h.hash_kept block hemitted.block_mem
  obtain rfl := hemitted.entry_eq
  exact h'.onChain_before hafter ⟨b, hb, hhash⟩

section Preserved

variable {config : MockChain.Config} {settings : Settings} {db : Db}
  {seen chain : MockChain.State}

theorem Coverage.chainStep (h : Coverage config settings db seen chain)
    (step : ChainStep) :
    Coverage config settings db seen (chainStep config step chain) := by
  have hnext : Later chain (MockChain.chainStep config step chain) :=
    (Later.refl chain).step h.chain_consistent step
  refine ⟨h.seen_consistent, chainStep_consistent config chain step h.chain_consistent,
    h.later.trans hnext, h.certified, ?_, ?_⟩
  · intro state hstate entry hseen hentry hheight hwatches
    have hbetween := onChain_between h.later hnext hseen hentry
    exact h.vouched state hstate entry hseen hbetween hheight hwatches
  · intro d hd
    obtain ⟨hnetwork, tx, htx, hhash, hto, hwatches⟩ := h.traced d hd
    obtain ⟨tx', htx', hsame⟩ := hnext.submitted_kept tx htx
    refine ⟨hnetwork, tx', htx', hsame.hash.trans hhash, ?_, ?_⟩
    · rw [hsame.toAddress, hto]
    · rw [hsame.fromAddress, hsame.toAddress]
      exact hwatches

theorem watches_congr {db db' : Db} (haddresses : db'.addresses = db.addresses)
    (fromAddress toAddress : String) :
    Watches config settings db' fromAddress toAddress ↔
      Watches config settings db fromAddress toAddress := by
  simp only [Watches, activeAddresses, haddresses]

/-- What the watcher writes costs a log its row only if it was not found. -/
theorem Coverage.reverified (h : Coverage config settings db seen chain) {scope : Scope}
    {head : Nat} {d : Deposit} {found : Option (Nat × ChainHash)} {db' : Db}
    (hd : db.deposits.find? d.identity = some d)
    (hreverified : Reverified settings scope head db d found db')
    (hfound : found = none → ∀ state, db.scanState.find? settings.network = some state →
      ∀ entry, OnChain config seen entry → OnChain config chain entry →
        entry.blockNumber ≤ state.lastScannedBlock → entry.identity ≠ d.identity) :
    Coverage config settings db' seen chain := by
  obtain ⟨row, hsame, hdeposits, hscanState, haddresses, hlive⟩ := hreverified.written
  have hwatches := @watches_congr config settings db db' haddresses
  have hrow : db.deposits.find? row.identity = some d := by
    rw [hsame.identity]
    exact hd
  refine ⟨h.seen_consistent, h.chain_consistent, h.later, ?_, ?_, ?_⟩
  · rw [hscanState]
    exact h.certified
  · intro state hstate entry hseen hentry hheight hwatch
    rw [hscanState] at hstate
    obtain ⟨old, hold, hlive'⟩ :=
      h.vouched state hstate entry hseen hentry hheight ((hwatches _ _).mp hwatch)
    by_cases hid : entry.identity = d.identity
    · rw [hid, hd, Option.some.injEq] at hold
      subst hold
      refine ⟨row, ?_, hlive ?_ hlive'⟩
      · rw [hdeposits, hid, ← hsame.identity]
        exact Table.find?_replace_self _ hrow
      · intro hnone
        exact hfound hnone state hstate entry hseen hentry hheight hid
    · refine ⟨old, ?_, hlive'⟩
      rw [hdeposits, Table.find?_replace_of_ne _ _ (by rw [hsame.identity]; exact hid)]
      exact hold
  · intro d' hd'
    rw [hdeposits] at hd'
    rcases (Table.mem_replace _ hrow).mp hd' with rfl | ⟨hd', _⟩
    · obtain ⟨hnetwork, tx, htx, hhash, hto, hwatch⟩ := h.traced d (Table.mem_of_find? hd)
      have hid := hsame.identity
      simp only [Deposit.identity, Prod.mk.injEq] at hid
      refine ⟨hid.1.trans hnetwork, tx, htx, hhash.trans hid.2.1.symm, ?_,
        (hwatches _ _).mpr hwatch⟩
      rw [hsame.toAddress]
      exact hto
    · obtain ⟨hnetwork, tx, htx, hhash, hto, hwatch⟩ := h.traced d' hd'
      exact ⟨hnetwork, tx, htx, hhash, hto, (hwatches _ _).mpr hwatch⟩

/-! ## A run of the scanner -/

/-- The block the run took for the head is there until its last call. -/
def ScanCalls.HeadKept (calls : ScanCalls MockChain.State) : Prop :=
  ∀ b, MockChain.head? calls.head = some b → canonicalAt calls.tip b.number = some b

instance ScanCalls.decidableHeadKept (calls : ScanCalls MockChain.State) :
    Decidable calls.HeadKept :=
  inferInstanceAs (Decidable (∀ b ∈ MockChain.head? calls.head,
    canonicalAt calls.tip b.number = some b))

/-- No block which is deep enough below the cursor has changed. -/
def ForkBounded (settings : Settings) (db : Db) (seen chain : MockChain.State) : Prop :=
  ∀ state, db.scanState.find? settings.network = some state →
    ∀ number ≤ state.lastScannedBlock - settings.reorgSafetyBlocks,
      (canonicalAt chain number).map MockChain.MockBlock.hash =
        (canonicalAt seen number).map MockChain.MockBlock.hash

instance ForkBounded.decide (settings : Settings) (db : Db) (seen chain : MockChain.State) :
    Decidable (ForkBounded settings db seen chain) :=
  inferInstanceAs (Decidable (∀ state ∈ db.scanState.find? settings.network,
    ∀ number ≤ state.lastScannedBlock - settings.reorgSafetyBlocks,
      (canonicalAt chain number).map MockChain.MockBlock.hash =
        (canonicalAt seen number).map MockChain.MockBlock.hash))

/-- The calls of a run, one after another. -/
structure ScanCalls.InOrder (calls : ScanCalls MockChain.State)
    (seen chain : MockChain.State) : Prop where
  head_consistent : Consistent calls.head
  cursor_consistent : Consistent calls.cursor
  logs_consistent : Consistent calls.logs
  tip_consistent : Consistent calls.tip
  seen_head : Later seen calls.head
  head_cursor : Later calls.head calls.cursor
  cursor_logs : Later calls.cursor calls.logs
  logs_tip : Later calls.logs calls.tip
  tip_chain : Later calls.tip chain

theorem mem_fetchLogs {logs fetched : List TransferLog} {chain : MockChain.State}
    (hchain : Consistent chain) {fromBlock toBlock : Nat}
    (hfetched : fetchLogs (MockChain.adapter config) chain fromBlock toBlock
      (activeAddresses db) = .ok fetched)
    (hlogs : logs = externalLogs settings (activeAddresses db) fetched)
    {entry : TransferLog} :
    entry ∈ logs ↔ OnChain config chain entry ∧
      (fromBlock ≤ entry.blockNumber ∧ entry.blockNumber ≤ toBlock) ∧
      Watches config settings db entry.fromAddress entry.toAddress := by
  unfold fetchLogs at hfetched
  rw [hlogs]
  unfold externalLogs Watches
  simp only [List.mem_filter, decide_eq_true_eq]
  split at hfetched
  next hnone =>
    cases hfetched
    simp [hnone]
  next hsome =>
    have hcall : MockChain.getTransferLogs config chain fromBlock toBlock
        (activeAddresses db) = .ok fetched := hfetched
    rw [MockChain.mem_getTransferLogs hchain hcall]
    simp only [hsome, false_or]
    tauto

theorem Db.moveCursor_find? (db : Db) (settings : Settings) (plan : ScanPlan) :
    (db.moveCursor (plan.state settings)).scanState.find? settings.network =
      some (plan.state settings) := by
  unfold Db.moveCursor
  cases hinsert : db.scanState.insert? (plan.state settings) with
  | none =>
      have hsome := (db.scanState.insert?_eq_none_iff _).mp hinsert
      obtain ⟨old, hold⟩ := Option.isSome_iff_exists.mp hsome
      exact Table.find?_replace_of_key _ rfl hold
  | some scanState =>
      exact (Table.find?_insert? hinsert settings.network).trans (if_pos rfl)

/-- Below where the scan starts the chain is still the one the cursor was written
for. -/
theorem Coverage.below_cursor (h : Coverage config settings db seen chain)
    {s : MockChain.State} (hs : Consistent s) (hlater : Later seen s)
    (hbounded : ForkBounded settings db seen s) {cursor : Nat}
    (hcursor : scanCursor (MockChain.adapter config) settings s
      (db.scanState.find? settings.network) = .ok cursor)
    {entry : TransferLog} (hentry : OnChain config s entry)
    (hheight : entry.blockNumber ≤ cursor) :
    ∃ state, db.scanState.find? settings.network = some state ∧
      entry.blockNumber ≤ state.lastScannedBlock ∧ OnChain config seen entry := by
  obtain ⟨tx, block, hemitted⟩ := hentry
  have hblock := hemitted.block_mem
  have hcanonical := hemitted.canonical
  have hentry : OnChain config s entry := ⟨tx, block, hemitted⟩
  obtain rfl := hemitted.entry_eq
  have hpositive := hs.linked.height_positive block hblock hcanonical
  have hnumber : (tx.log config block).blockNumber = block.number := rfl
  rw [hnumber] at hheight ⊢
  unfold scanCursor at hcursor
  cases hstate : db.scanState.find? settings.network with
  | none =>
      simp only [hstate, pure, Except.pure, Except.ok.injEq] at hcursor
      unfold MockChain.genesisNumber at hpositive
      omega
  | some state =>
      obtain ⟨b, hb, hlast⟩ := h.certified state hstate
      obtain ⟨hmem, hbcanonical, hbnumber⟩ := (canonicalAt_iff h.seen_consistent).mp hb
      refine ⟨state, rfl, ?_⟩
      simp only [hstate, hlast] at hcursor
      cases hread : (MockChain.adapter config).getBlockHash s state.lastScannedBlock with
      | error e => simp [hread, bind, Except.bind] at hcursor
      | ok currentHash =>
          simp only [hread, bind, Except.bind] at hcursor
          have hcurrent := MockChain.getBlockHash_ok hread
          by_cases hsame : currentHash = some b.hash
          · -- the block of the cursor is still there, and so is everything below
            simp only [hsame, if_true, pure, Except.pure, Except.ok.injEq] at hcursor
            rw [hcurrent] at hsame
            obtain ⟨b', hb', hhash⟩ := Option.map_eq_some_iff.mp hsame
            obtain ⟨hmem', hcanonical', _⟩ := (canonicalAt_iff hs).mp hb'
            have heq := hlater.canonical_before b' hmem' hcanonical' b hmem hhash.symm
            subst heq
            have hold := hlater.same_below h.seen_consistent hs hmem hmem' hbcanonical
              hblock hcanonical (by omega)
            exact ⟨by omega, hlater.onChain_before hentry ⟨block, hold, rfl⟩⟩
          · -- the scan starts where the forks do not reach
            simp only [hsame, if_false, pure, Except.pure, Except.ok.injEq] at hcursor
            have hat := (canonicalAt_iff hs).mpr ⟨hblock, hcanonical, rfl⟩
            have hkept := hbounded state hstate block.number (by omega)
            rw [hat, Option.map_some] at hkept
            obtain ⟨b', hb', hhash⟩ := Option.map_eq_some_iff.mp hkept.symm
            obtain ⟨hmem', _, _⟩ := (canonicalAt_iff h.seen_consistent).mp hb'
            exact ⟨by omega, hlater.onChain_before hentry ⟨b', hmem', hhash⟩⟩

/-- What the last call of a run sees up to the head of its first call, all calls
see. -/
theorem ScanCalls.InOrder.onChain_logs {calls : ScanCalls MockChain.State}
    (horder : calls.InOrder seen chain) (hkept : calls.HeadKept)
    {entry : TransferLog} (hentry : OnChain config calls.tip entry)
    (hheight : entry.blockNumber ≤ headNumber calls.head)
    (hhead : headNumber calls.head ≠ 0) :
    OnChain config calls.cursor entry ∧ OnChain config calls.logs entry := by
  obtain ⟨b, hb, hnumber⟩ := MockChain.head?_of_headNumber hhead
  have htop := MockChain.head?_top hb
  obtain ⟨hmem, _, _⟩ := (canonicalAt_iff horder.tip_consistent).mp (hkept b hb)
  have hlogs := horder.head_cursor.trans horder.cursor_logs
  have hlater := hlogs.trans horder.logs_tip
  obtain ⟨tx, block, hemitted⟩ := hentry
  have hblock := hemitted.block_mem
  have hentry : OnChain config calls.tip entry := ⟨tx, block, hemitted⟩
  obtain rfl := hemitted.entry_eq
  have hle : block.number ≤ b.number := by
    rw [hnumber]
    exact hheight
  have hold := hlater.same_below horder.head_consistent horder.tip_consistent htop.mem hmem
    htop.canonical hblock hemitted.canonical hle
  have hstart := hlater.onChain_before hentry ⟨block, hold, rfl⟩
  refine ⟨?_, onChain_between hlogs horder.logs_tip hstart hentry⟩
  exact onChain_between horder.head_cursor (horder.cursor_logs.trans horder.logs_tip) hstart
    hentry

/-- A committed run moves the claim to the chain of its last call. -/
theorem Coverage.scanned (h : Coverage config settings db seen chain)
    {calls : ScanCalls MockChain.State} (horder : calls.InOrder seen chain)
    (hkept : calls.HeadKept) (hbounded : ForkBounded settings db seen calls.cursor)
    {plan : ScanPlan}
    (hplan : scanPlan (MockChain.adapter config) settings calls db = .ok (some plan))
    {scope : Scope} {newId : TransferLog → Uuid} {mid : Db}
    (hmid : UpsertedAll scope newId plan.logs db mid) :
    Coverage config settings (mid.moveCursor (plan.state settings)) calls.tip chain := by
  obtain ⟨head, cursor, fetched, hhead, hpositive, hcursor, hto, hrange, hfetched, hlogs,
    htip⟩ := scanPlan_some hplan
  have hheadNumber := MockChain.getBlockNumber_ok hhead
  subst hheadNumber
  have hle : plan.toBlock ≤ headNumber calls.head := by omega
  have hread : ∀ entry, entry ∈ plan.logs ↔ OnChain config calls.logs entry ∧
      (cursor + 1 ≤ entry.blockNumber ∧ entry.blockNumber ≤ plan.toBlock) ∧
      Watches config settings db entry.fromAddress entry.toAddress :=
    fun entry => mem_fetchLogs horder.logs_consistent hfetched hlogs
  have haddresses : (mid.moveCursor (plan.state settings)).addresses = db.addresses :=
    hmid.frame.2
  have hwatches := @watches_congr config settings db _ haddresses
  have hcursorLater := horder.seen_head.trans horder.head_cursor
  refine ⟨horder.tip_consistent, h.chain_consistent, horder.tip_chain, ?_, ?_, ?_⟩
  · intro state hstate
    rw [Db.moveCursor_find?, Option.some.injEq] at hstate
    subst hstate
    obtain ⟨b, hb, hnumber⟩ := MockChain.head?_of_headNumber hpositive
    obtain ⟨hmem, hcanonical, _⟩ :=
      (canonicalAt_iff horder.tip_consistent).mp (hkept b hb)
    have hgenesis : MockChain.genesisNumber ≤ plan.toBlock := by
      unfold MockChain.genesisNumber
      omega
    obtain ⟨b', hb', hcanonical', hnumber'⟩ :=
      horder.tip_consistent.linked.exists_at hmem hcanonical hgenesis (by omega)
    have hat := (canonicalAt_iff horder.tip_consistent).mpr ⟨hb', hcanonical', hnumber'⟩
    refine ⟨b', hat, ?_⟩
    have hhash := MockChain.getBlockHash_ok htip
    rw [hat] at hhash
    exact hhash
  · intro state hstate entry htipEntry hentry hheight hwatch
    rw [Db.moveCursor_find?, Option.some.injEq] at hstate
    subst hstate
    change entry.blockNumber ≤ plan.toBlock at hheight
    obtain ⟨hcursorEntry, hlogsEntry⟩ :=
      horder.onChain_logs hkept htipEntry (by omega) hpositive
    by_cases hscanned : cursor + 1 ≤ entry.blockNumber
    · have hmem : entry ∈ plan.logs :=
        (hread entry).mpr ⟨hlogsEntry, ⟨hscanned, hheight⟩, (hwatches _ _).mp hwatch⟩
      refine hmid.live_after ?_ hmem
      intro other hother
      obtain ⟨⟨tx, block, hemitted⟩, _⟩ := (hread other).mp hother
      obtain rfl := hemitted.entry_eq
      exact config.network.property.1
    · obtain ⟨state, hstate, hbelow, hseen⟩ := h.below_cursor horder.cursor_consistent
        hcursorLater hbounded hcursor hcursorEntry (by omega)
      obtain ⟨d, hd, hlive⟩ :=
        h.vouched state hstate entry hseen hentry hbelow ((hwatches _ _).mp hwatch)
      exact ⟨d, hmid.live_kept hd hlive, hlive⟩
  · intro d' hd'
    obtain ⟨d, hsame, horigin⟩ := hmid.origin hd'
    have hid := hsame.identity
    simp only [Deposit.identity, Prod.mk.injEq] at hid
    rw [hid.1, hid.2.1, hsame.toAddress]
    rcases horigin with hd | ⟨entry, hentry, hproposes⟩
    · obtain ⟨hnetwork, tx, htx, hhash, hto, hwatch⟩ := h.traced d hd
      exact ⟨hnetwork, tx, htx, hhash, hto, (hwatches _ _).mpr hwatch⟩
    · obtain ⟨⟨tx, block, hemitted⟩, _, hwatch⟩ := (hread entry).mp hentry
      obtain rfl := hemitted.entry_eq
      have hlater := horder.logs_tip.trans horder.tip_chain
      obtain ⟨tx', htx', hsame'⟩ := hlater.submitted_kept tx hemitted.tx_mem
      have hto := varchar_eq tx.toAddress.property.1 hproposes.toAddress
      refine ⟨varchar_eq config.network.property.1 hproposes.network, tx', htx',
        hsame'.hash.trans hproposes.txHash.symm, ?_, ?_⟩
      · rw [hsame'.toAddress]
        exact hto.symm
      · rw [hsame'.fromAddress, hsame'.toAddress]
        exact (hwatches _ _).mpr hwatch

end Preserved
end CryptoWallet.Blockchain
