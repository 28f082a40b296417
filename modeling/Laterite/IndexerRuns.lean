import Laterite.FinalizedTransactions
import Mathlib.Logic.Relation

/-!
# Runs of the indexer

While transactions are finalized the indexer reads the signatures after its cursor and stores them
batch by batch. A run interleaves the two in any order and ends a poll anywhere: a crash before a
batch commits leaves the tables as they were, one after it leaves them with the cursor moved.
-/

namespace Laterite.Indexer

open CheckedComputation KeyedTables PagedListings

structure IndexerState where
  finalized : List FinalizedTransaction
  chain : Chain
  tables : Tables
  pending : List ListedSignature

/-- What restricts the batches that are stored, and what the node returned for them. -/
abbrev BatchRule := (Signature → Option FetchedTransaction) → List FinalizedTransaction → Prop

/-- One step; `Allowed` restricts the batches that are stored. -/
inductive IndexerStep (d : Deployment) (Allowed : BatchRule) : IndexerState → IndexerState → Prop
  | finalize {state : IndexerState} {t : FinalizedTransaction} {after : Chain}
    (hnew : ∀ earlier ∈ state.finalized, earlier.signature ≠ t.signature)
    (hmoves : t.Moves d state.chain after) :
    IndexerStep d Allowed state
      { state with finalized := state.finalized ++ [t], chain := after }
  | outside {state : IndexerState} (accounts : Accounts) :
    IndexerStep d Allowed state { state with chain := state.chain.setAccounts accounts }
  | read {state : IndexerState} {listing : ℕ → List ListedSignature}
    (hfirst : listing 0 = (state.finalized.map FinalizedTransaction.listed).reverse)
    (hgrows : ∀ n, ∃ newer, listing (n + 1) = newer ++ listing n)
    (hdistinct : ∀ n, ((listing n).map ListedSignature.signature).Nodup) :
    IndexerStep d Allowed state
      { state with
        pending := signaturesSince listing (state.tables.indexerState.map ListedSignature.signature) }
  | commit {state : IndexerState} {fetch : Signature → Option FetchedTransaction}
    {batch : List FinalizedTransaction} {tables : Tables}
    (hbatch : batch.map FinalizedTransaction.listed = state.pending.take batchSize)
    (hfinalized : ∀ t ∈ batch, t ∈ state.finalized)
    (hfetch : ∀ t ∈ batch, ∀ x ∈ fetch t.signature, t.Returned x)
    (hstore : store fetch state.tables (state.pending.take batchSize) = some tables)
    (hallowed : Allowed fetch batch) :
    IndexerStep d Allowed state
      { state with tables := tables, pending := state.pending.drop batchSize }
  | stop {state : IndexerState} : IndexerStep d Allowed state { state with pending := [] }

def IndexerRun (d : Deployment) (accounts : Accounts) (Allowed : BatchRule)
    (state : IndexerState) : Prop :=
  Relation.ReflTransGen (IndexerStep d Allowed) ⟨[], Chain.genesis accounts, .empty, []⟩ state

/-- No close of a record comes before an attest of the same record. -/
def Separate (batch : List FinalizedTransaction) : Prop :=
  (batch.flatMap FinalizedTransaction.changes).Pairwise fun earlier later =>
    ∀ close ∈ earlier.marked, ∀ row ∈ later.entered, close.record ≠ row.record

instance (batch : List FinalizedTransaction) : Decidable (Separate batch) :=
  inferInstanceAs (Decidable (List.Pairwise _ _))

/-- The transaction attested, closed a record or made a user's own control. -/
def FinalizedTransaction.Stores (t : FinalizedTransaction) : Prop :=
  t.changes ≠ [] ∨ t.userEventRows ≠ []

/-- A batch that is stored as its transactions ran: those with rows to store came back with their
block time and metadata, and no close comes before an attest of its record. -/
structure Storable (fetch : Signature → Option FetchedTransaction)
    (batch : List FinalizedTransaction) : Prop where
  complete : ∀ t ∈ batch, t.Stores → ∀ x ∈ fetch t.signature,
    x.blockTime.isSome = true ∧ x.transactionMeta.isSome = true
  separate : Separate batch

variable {d : Deployment} {accounts : Accounts} {Allowed : BatchRule}
  {state state' : IndexerState} {ts batch done rest : List FinalizedTransaction}
  {t : FinalizedTransaction} {tables tables' : Tables}

theorem decodeTransaction_returned {before after : Chain} {x : FetchedTransaction}
    (hreturned : t.Returned x) (hmoves : t.Moves d before after)
    (hcomplete : t.Stores → x.blockTime.isSome = true ∧ x.transactionMeta.isSome = true) :
    decodeTransaction t.signature x =
      some ⟨t.changes.filterMap Change.entered, t.changes.filterMap Change.marked, t.userEventRows⟩ := by
  cases hreturned with
  | whole => exact FinalizedTransaction.decodeTransaction_eq hmoves
  | lacking hlacking =>
    have hnothing : ¬ t.Stores := by
      intro hstores
      obtain ⟨hblock, hmeta⟩ := hcomplete hstores
      rcases hlacking with h | h
      · rw [h] at hblock
        cases hblock
      · rw [h] at hmeta
        cases hmeta
    obtain ⟨hchanges, hevents⟩ := not_or.mp hnothing
    rw [FinalizedTransaction.decodeTransaction_lacking hlacking, not_not.mp hchanges, not_not.mp hevents]
    rfl

/-- A store that succeeds had every transaction and applied what they decode to. -/
theorem decoded_eq {fetch : Signature → Option FetchedTransaction}
    (hfetch : ∀ t ∈ batch, ∀ x ∈ fetch t.signature, t.Returned x)
    (hcomplete : ∀ t ∈ batch, t.Stores → ∀ x ∈ fetch t.signature,
      x.blockTime.isSome = true ∧ x.transactionMeta.isSome = true)
    (hmoves : ∀ t ∈ batch, ∃ before after, t.Moves d before after) {decoded : List Decoded}
    (h : (batch.map FinalizedTransaction.listed).mapM (fun listed => do
      let transaction ← fetch listed.signature
      decodeTransaction listed.signature transaction) = some decoded) :
    decoded = batch.map fun t => ⟨t.changes.filterMap Change.entered,
      t.changes.filterMap Change.marked, t.userEventRows⟩ := by
  induction batch generalizing decoded with
  | nil =>
    cases h
    rfl
  | cons t batch ih =>
    rw [List.map_cons, List.mapM_cons] at h
    simp only [Option.bind_eq_bind, Option.bind_eq_some_iff, Option.pure_def, Option.some.injEq] at h
    obtain ⟨first, ⟨x, hx, hfirst⟩, others, hothers, rfl⟩ := h
    obtain ⟨before, after, hmove⟩ := hmoves t List.mem_cons_self
    have hdecoded := decodeTransaction_returned (hfetch t List.mem_cons_self x hx) hmove
      (fun hstores => hcomplete t List.mem_cons_self hstores x hx)
    have hrest := ih (fun other hother => hfetch other (List.mem_cons_of_mem _ hother))
      (fun other hother => hcomplete other (List.mem_cons_of_mem _ hother))
      (fun other hother => hmoves other (List.mem_cons_of_mem _ hother)) hothers
    rw [List.map_cons, ← hrest, ← Option.some.inj (hfirst.symm.trans hdecoded)]

theorem store_ok {fetch : Signature → Option FetchedTransaction}
    (hfetch : ∀ t ∈ batch, ∀ x ∈ fetch t.signature, t.Returned x)
    (hcomplete : ∀ t ∈ batch, t.Stores → ∀ x ∈ fetch t.signature,
      x.blockTime.isSome = true ∧ x.transactionMeta.isSome = true)
    (hmoves : ∀ t ∈ batch, ∃ before after, t.Moves d before after)
    (h : store fetch tables (batch.map FinalizedTransaction.listed) = some tables') :
    tables' = {
      attestations := ((batch.flatMap FinalizedTransaction.changes).filterMap Change.marked).foldl
        (fun rows close => rows.map (closeRow close))
        (insertMissing AttestationRow.key
          ((batch.flatMap FinalizedTransaction.changes).filterMap Change.entered) tables.attestations)
      userEvents := insertMissing UserEventRow.key (batch.flatMap FinalizedTransaction.userEventRows)
        tables.userEvents
      indexerState := batch.getLast?.map FinalizedTransaction.listed } := by
  simp only [store, Option.bind_eq_bind, Option.bind_eq_some_iff, Option.pure_def,
    Option.some.injEq] at h
  obtain ⟨decoded, hdecoded, last, hlast, rfl⟩ := h
  rw [decoded_eq hfetch hcomplete hmoves hdecoded]
  rw [List.getLast?_map] at hlast
  simp only [List.flatMap_map, List.filterMap_flatMap, hlast]

def rowsOf (t : FinalizedTransaction) : List AttestationRow := t.changes.filterMap Change.entered

theorem entered_changesFrom_key (steps : List Ran) (eventIndex : ℕ) :
    ((t.changesFrom eventIndex steps).filterMap Change.entered).map AttestationRow.key =
      (List.range' eventIndex
        ((t.changesFrom eventIndex steps).filterMap Change.entered).length).map (t.signature, ·) := by
  induction steps generalizing eventIndex with
  | nil => rfl
  | cons ran steps ih =>
    unfold FinalizedTransaction.changesFrom
    split
    · rename_i hcons
      cases hcons
    · rename_i hcons
      cases hcons
      have hentered (row : AttestationRow) (changes : List (Change AttestationRow Close)) :
          (Change.enter row :: changes).filterMap Change.entered =
            row :: changes.filterMap Change.entered := rfl
      rw [hentered, List.map_cons, List.length_cons, List.range'_succ, List.map_cons, ih]
      rfl
    · rename_i hcons
      cases hcons
      exact ih eventIndex
    · rename_i hcons
      cases hcons
      exact ih eventIndex

theorem controlsFrom_key (steps : List Ran) (eventIndex : ℕ) :
    (t.controlsFrom eventIndex steps).map UserEventRow.key =
      (List.range' eventIndex (t.controlsFrom eventIndex steps).length).map (t.signature, ·) := by
  induction steps generalizing eventIndex with
  | nil => rfl
  | cons ran steps ih =>
    rw [FinalizedTransaction.controlsFrom]
    split
    · rw [List.map_cons, List.length_cons, List.range'_succ, List.map_cons, ih]
      rfl
    · exact ih eventIndex

theorem closeRow_key (close : Close) (row : AttestationRow) :
    (closeRow close row).key = row.key := by
  unfold closeRow
  split <;> rfl

/-- Rows told apart by their transaction and their index in it have distinct keys. -/
theorem nodup_keys {β : Type} {key : β → Signature × ℕ} {rows : FinalizedTransaction → List β}
    (hkey : ∀ t, (rows t).map key = (List.range' 0 (rows t).length).map (t.signature, ·))
    (hdistinct : (ts.map FinalizedTransaction.signature).Nodup) :
    ((ts.flatMap rows).map key).Nodup := by
  rw [List.map_flatMap, List.nodup_flatMap]
  constructor
  · intro t _
    rw [hkey]
    exact (List.nodup_range').map fun i j hij => (Prod.mk.inj hij).2
  · rw [List.Nodup, List.pairwise_map] at hdistinct
    apply hdistinct.imp
    intro s t hne k hs ht
    dsimp only at hs ht
    rw [hkey, List.mem_map] at hs ht
    obtain ⟨i, -, rfl⟩ := hs
    obtain ⟨j, -, hj⟩ := ht
    exact hne (Prod.mk.inj hj).1.symm

theorem rowsOf_key (t : FinalizedTransaction) :
    (rowsOf t).map AttestationRow.key =
      (List.range' 0 (rowsOf t).length).map (t.signature, ·) := by
  unfold rowsOf FinalizedTransaction.changes
  split
  · exact entered_changesFrom_key _ _
  · rfl

theorem userEventRows_key (t : FinalizedTransaction) :
    t.userEventRows.map UserEventRow.key =
      (List.range' 0 t.userEventRows.length).map (t.signature, ·) := by
  unfold FinalizedTransaction.userEventRows
  split
  · exact controlsFrom_key _ _
  · rfl

theorem Ledger.distinct {chain : Chain} (h : Ledger d accounts ts chain) :
    (ts.map FinalizedTransaction.signature).Nodup := by
  induction h with
  | genesis => exact List.nodup_nil
  | outside _ _ ih => exact ih
  | finalize _ hnew _ ih =>
    rw [List.map_append, List.nodup_append]
    refine ⟨ih, List.nodup_singleton _, ?_⟩
    intro s hs s' hs' heq
    obtain ⟨earlier, hearlier, rfl⟩ := List.mem_map.mp hs
    rw [List.map_singleton, List.mem_singleton] at hs'
    exact hnew earlier hearlier (heq.trans hs')

theorem Ledger.moves {chain : Chain} (h : Ledger d accounts ts chain) :
    ∀ t ∈ ts, ∃ before after, t.Moves d before after := by
  induction h with
  | genesis => exact fun _ h => nomatch h
  | outside _ _ ih => exact ih
  | finalize _ _ hmoves ih =>
    intro t ht
    rcases List.mem_append.mp ht with ht | ht
    · exact ih t ht
    · rw [List.mem_singleton] at ht
      subst ht
      exact ⟨_, _, hmoves⟩

theorem Ledger.before {chain : Chain} {first last : List FinalizedTransaction}
    (h : Ledger d accounts (first ++ last) chain) :
    ∃ earlier, Ledger d accounts first earlier ∧ (last = [] → earlier = chain) := by
  generalize hall : first ++ last = all at h
  induction h generalizing last with
  | genesis =>
    have hfirst := (List.append_eq_nil_iff.mp hall).1
    exact ⟨_, hfirst ▸ Ledger.genesis, fun _ => rfl⟩
  | outside h changed ih =>
    by_cases hlast : last = []
    · rw [hlast, List.append_nil] at hall
      exact ⟨_, hall ▸ h.outside changed, fun _ => rfl⟩
    · obtain ⟨earlier, hearlier, -⟩ := ih hall
      exact ⟨earlier, hearlier, fun hnil => absurd hnil hlast⟩
  | finalize h hnew hmoves ih =>
    rcases List.eq_nil_or_concat last with hlast | ⟨init, x, hlast⟩
    · rw [hlast, List.append_nil] at hall
      exact ⟨_, hall ▸ h.finalize hnew hmoves, fun _ => rfl⟩
    · rw [hlast, List.concat_eq_append, ← List.append_assoc] at hall
      obtain ⟨earlier, hearlier, -⟩ := ih (List.append_inj' hall rfl).1
      refine ⟨earlier, hearlier, fun hnil => ?_⟩
      rw [hlast, List.concat_eq_append] at hnil
      exact absurd hnil (by simp)

/-- The tables hold the history of `done`, each transaction's changes applied in order; `rest` is
still to be stored, and the current poll has its first part left. -/
structure Follows (d : Deployment) (accounts : Accounts) (done rest : List FinalizedTransaction)
    (state : IndexerState) : Prop where
  finalized : state.finalized = done ++ rest
  ledger : Ledger d accounts state.finalized state.chain
  attestations : state.tables.attestations =
    Change.replay closeRow (done.flatMap FinalizedTransaction.changes) []
  userEvents : state.tables.userEvents = done.flatMap FinalizedTransaction.userEventRows
  cursor : state.tables.indexerState = done.getLast?.map FinalizedTransaction.listed
  pending : state.pending <+: rest.map FinalizedTransaction.listed

theorem Separate.keeps (h : Separate batch) :
    (batch.flatMap FinalizedTransaction.changes).Pairwise (Change.Keeps closeRow) := by
  apply h.imp
  rintro _ _ hne close row rfl rfl
  exact if_neg fun hmatch => hne close rfl row rfl hmatch.1.symm

/-- A poll reads the signatures still to be stored. -/
theorem Follows.read (h : Follows d accounts done rest state)
    {listing : ℕ → List ListedSignature}
    (hfirst : listing 0 = (state.finalized.map FinalizedTransaction.listed).reverse)
    (hgrows : ∀ n, ∃ newer, listing (n + 1) = newer ++ listing n)
    (hdistinct : ∀ n, ((listing n).map ListedSignature.signature).Nodup) :
    signaturesSince listing (state.tables.indexerState.map ListedSignature.signature) =
      rest.map FinalizedTransaction.listed := by
  have hcollect := @collect_eq _ _ _ ListedSignature.signature listing
    (state.tables.indexerState.map ListedSignature.signature) 1000 (fun _ => false) hgrows hdistinct
    (by decide) _ (Nat.lt_succ_self _)
  obtain ⟨left, hleft, hstop⟩ := hcollect
  have hnone : left = [] := by
    by_contra hne
    obtain ⟨a, -, ha⟩ := hstop hne
    cases ha
  rw [hnone, List.append_nil] at hleft
  have hnewer : newerThan ListedSignature.signature
      (state.tables.indexerState.map ListedSignature.signature) (listing 0) =
        (rest.map FinalizedTransaction.listed).reverse := by
    have hkeys := hdistinct 0
    rw [hfirst, h.finalized] at hkeys ⊢
    rw [h.cursor]
    rcases List.eq_nil_or_concat done with hdone | ⟨init, t, hdone⟩
    · rw [hdone]
      rfl
    · rw [List.concat_eq_append] at hdone
      have hsplit : ((done ++ rest).map FinalizedTransaction.listed).reverse =
          (rest.map FinalizedTransaction.listed).reverse ++
            t.listed :: (init.map FinalizedTransaction.listed).reverse := by
        rw [hdone]
        simp
      rw [hsplit] at hkeys ⊢
      rw [hdone, List.getLast?_concat]
      exact newerThan_eq hkeys
  rw [signaturesSince, ← hleft, hnewer, List.reverse_reverse]

theorem eq_of_map_eq {α β : Type} {f : α → β} {all xs ys : List α} (hdistinct : (all.map f).Nodup)
    (hxs : ∀ x ∈ xs, x ∈ all) (hys : ∀ y ∈ ys, y ∈ all) (h : xs.map f = ys.map f) : xs = ys := by
  induction xs generalizing ys with
  | nil => exact (List.map_eq_nil_iff.mp h.symm).symm
  | cons x xs ih =>
    cases ys with
    | nil => cases h
    | cons y ys =>
      rw [List.map_cons, List.map_cons, List.cons.injEq] at h
      rw [List.inj_on_of_nodup_map hdistinct (hxs x List.mem_cons_self) (hys y List.mem_cons_self) h.1,
        ih (fun x hx => hxs x (List.mem_cons_of_mem _ hx))
          (fun y hy => hys y (List.mem_cons_of_mem _ hy)) h.2]

/-- A batch is the next part of what is still to be stored. -/
theorem Follows.batch_isPrefix (h : Follows d accounts done rest state)
    (hbatch : batch.map FinalizedTransaction.listed = state.pending.take batchSize)
    (hfinalized : ∀ t ∈ batch, t ∈ state.finalized) : ∃ left, rest = batch ++ left ∧
      state.pending.drop batchSize <+: left.map FinalizedTransaction.listed := by
  obtain ⟨later, hlater⟩ := h.pending
  have hlength : batch.length = min batchSize state.pending.length := by
    rw [← List.length_take, ← hbatch, List.length_map]
  have hfits : batch.length ≤ state.pending.length := by
    rw [hlength]
    exact Nat.min_le_right _ _
  have htaken : (rest.take batch.length).map FinalizedTransaction.listed =
      batch.map FinalizedTransaction.listed := by
    rw [List.map_take, ← hlater, List.take_append_of_le_length hfits, hbatch, hlength]
    exact List.take_eq_take_iff.mpr (by omega)
  have hdistinct : (state.finalized.map FinalizedTransaction.listed).Nodup := by
    have hsignatures := h.ledger.distinct
    apply List.Nodup.of_map ListedSignature.signature
    rw [List.map_map]
    exact hsignatures
  have hsame : rest.take batch.length = batch := by
    apply eq_of_map_eq hdistinct ?_ hfinalized htaken
    intro t ht
    rw [h.finalized]
    exact List.mem_append_right _ (List.mem_of_mem_take ht)
  refine ⟨rest.drop batch.length, ?_, ?_⟩
  · exact (List.take_append_drop batch.length rest).symm.trans (by rw [hsame])
  · have hdrop : state.pending.drop batchSize = state.pending.drop batch.length := by
      rcases le_total batchSize state.pending.length with hle | hle
      · rw [hlength, Nat.min_eq_left hle]
      · rw [hlength, Nat.min_eq_right hle, List.drop_eq_nil_of_le hle, List.drop_length]
    rw [hdrop, List.map_drop, ← hlater, List.drop_append_of_le_length hfits]
    exact List.prefix_append _ _

theorem store_last {fetch : Signature → Option FetchedTransaction}
    (h : store fetch tables (batch.map FinalizedTransaction.listed) = some tables') :
    ∃ last, batch.getLast? = some last := by
  cases hlast : batch.getLast? with
  | some last => exact ⟨last, rfl⟩
  | none =>
    simp only [store, List.getLast?_map, hlast, Option.map_none, Option.bind_eq_bind,
      Option.bind_none, Option.bind_fun_none] at h
    cases h

theorem Follows.commit (h : Follows d accounts done rest state)
    {fetch : Signature → Option FetchedTransaction}
    (hbatch : batch.map FinalizedTransaction.listed = state.pending.take batchSize)
    (hfinalized : ∀ t ∈ batch, t ∈ state.finalized)
    (hfetch : ∀ t ∈ batch, ∀ x ∈ fetch t.signature, t.Returned x)
    (hstore : store fetch state.tables (state.pending.take batchSize) = some tables)
    (hstorable : Storable fetch batch) :
    ∃ done' rest', Follows d accounts done' rest'
      { state with tables := tables, pending := state.pending.drop batchSize } := by
  obtain ⟨left, hleft, hpending⟩ := h.batch_isPrefix hbatch hfinalized
  have hmoves : ∀ t ∈ batch, ∃ before after, t.Moves d before after :=
    fun t ht => h.ledger.moves t (hfinalized t ht)
  rw [← hbatch] at hstore
  have hstored := store_ok hfetch hstorable.complete hmoves hstore
  have hfinal : state.finalized = (done ++ batch) ++ left := by
    rw [h.finalized, hleft, List.append_assoc]
  have hdistinct : ((done ++ batch).map FinalizedTransaction.signature).Nodup := by
    have hall := h.ledger.distinct
    rw [hfinal, List.map_append, List.nodup_append] at hall
    exact hall.1
  have hrows (ts : List FinalizedTransaction) :
      (ts.flatMap FinalizedTransaction.changes).filterMap Change.entered = ts.flatMap rowsOf :=
    List.filterMap_flatMap
  have hfresh : ((state.tables.attestations ++ batch.flatMap rowsOf).map AttestationRow.key).Nodup := by
    rw [List.map_append, h.attestations, Change.map_replay closeRow_key, hrows, List.map_nil,
      List.nil_append, ← List.map_append, ← List.flatMap_append]
    exact nodup_keys rowsOf_key hdistinct
  have hfreshEvents : ((state.tables.userEvents ++
      batch.flatMap FinalizedTransaction.userEventRows).map UserEventRow.key).Nodup := by
    rw [h.userEvents, ← List.flatMap_append]
    exact nodup_keys userEventRows_key hdistinct
  refine ⟨done ++ batch, left, ?_⟩
  rw [hrows, insertMissing_of_fresh hfresh, insertMissing_of_fresh hfreshEvents, ← hrows,
    ← Change.replay_eq_batched hstorable.separate.keeps] at hstored
  exact {
    finalized := hfinal
    ledger := h.ledger
    attestations := by
      rw [hstored, List.flatMap_append, Change.replay_append, ← h.attestations]
    userEvents := by
      rw [hstored, List.flatMap_append, ← h.userEvents]
    cursor := by
      obtain ⟨last, hlast⟩ := store_last hstore
      rw [hstored, List.getLast?_append, hlast, Option.some_or]
    pending := hpending }

theorem Follows.step (h : Follows d accounts done rest state)
    (hstep : IndexerStep d Storable state state') :
    ∃ done' rest', Follows d accounts done' rest' state' := by
  cases hstep with
  | @finalize t after hnew hmoves =>
    refine ⟨done, rest ++ [t], ?_, h.ledger.finalize hnew hmoves, h.attestations, h.userEvents,
      h.cursor, ?_⟩
    · rw [h.finalized, List.append_assoc]
    · rw [List.map_append]
      exact h.pending.trans (List.prefix_append _ _)
  | outside changed =>
    exact ⟨done, rest, h.finalized, h.ledger.outside changed, h.attestations, h.userEvents, h.cursor,
      h.pending⟩
  | read hfirst hgrows hdistinct =>
    have hpending := h.read hfirst hgrows hdistinct
    exact ⟨done, rest, h.finalized, h.ledger, h.attestations, h.userEvents, h.cursor,
      hpending ▸ List.prefix_refl _⟩
  | commit hbatch hfinalized hfetch hstore hallowed =>
    exact h.commit hbatch hfinalized hfetch hstore hallowed
  | stop =>
    exact ⟨done, rest, h.finalized, h.ledger, h.attestations, h.userEvents, h.cursor,
      List.nil_prefix⟩

theorem IndexerRun.follows (h : IndexerRun d accounts Storable state) :
    ∃ done rest, Follows d accounts done rest state := by
  induction h with
  | refl => exact ⟨[], [], rfl, .genesis, rfl, rfl, rfl, List.prefix_refl _⟩
  | tail _ hstep ih =>
    obtain ⟨done, rest, hfollows⟩ := ih
    exact hfollows.step hstep

theorem foldl_close_eq (closes : List Close) (rows : List AttestationRow) :
    closes.foldl (fun rows close => rows.map (closeRow close)) rows = rows ↔
      ∀ close ∈ closes, close.record ∉ openRecords rows := by
  have hclosed : ∀ closes : List Close, ∀ rows : List AttestationRow, ∀ id,
      id ∈ openRecords (closes.foldl (fun rows close => rows.map (closeRow close)) rows) →
        id ∈ openRecords rows ∧ ∀ close ∈ closes, close.record ≠ id := by
    intro closes
    induction closes with
    | nil => exact fun _ _ hid => ⟨hid, fun _ h => nomatch h⟩
    | cons close closes ih =>
      intro rows id hid
      obtain ⟨hmem, hrest⟩ := ih _ _ hid
      rw [openRecords_close, List.mem_filter, decide_eq_true_eq] at hmem
      refine ⟨hmem.1, fun other hother => ?_⟩
      rcases List.mem_cons.mp hother with rfl | hother
      · exact hmem.2.symm
      · exact hrest other hother
  constructor
  · intro hsame close hclose hopen
    rw [← hsame] at hopen
    exact (hclosed _ _ _ hopen).2 close hclose rfl
  · intro hnone
    induction closes with
    | nil => rfl
    | cons close closes ih =>
      have hkept : rows.map (closeRow close) = rows := by
        apply (List.map_congr_left ?_).trans (List.map_id _)
        intro row hrow
        apply if_neg
        rintro ⟨hrecord, hopen⟩
        apply hnone close List.mem_cons_self
        rw [← hrecord]
        exact List.mem_map_of_mem
          (List.mem_filter.mpr ⟨hrow, Option.isNone_iff_eq_none.mpr hopen⟩)
      rw [List.foldl_cons, hkept]
      exact ih fun other hother => hnone other (List.mem_cons_of_mem _ hother)

theorem mapM_listed {fetch : Signature → Option FetchedTransaction} {x : FetchedTransaction}
    {decoded : Decoded} (hfetch : fetch t.signature = some x)
    (hdecoded : decodeTransaction t.signature x = some decoded) :
    [t.listed].mapM (fun listed => do
      let transaction ← fetch listed.signature
      decodeTransaction listed.signature transaction) = some [decoded] := by
  rw [List.mapM_cons, List.mapM_nil]
  change (fetch t.signature >>= decodeTransaction t.signature) >>= _ = _
  rw [hfetch]
  change decodeTransaction t.signature x >>= _ = _
  rw [hdecoded]
  rfl

/-- A stored transaction's rows are there already: only its closes are applied again. -/
theorem Follows.store_again (h : Follows d accounts done rest state) (ht : t ∈ done)
    {fetch : Signature → Option FetchedTransaction}
    (hfetch : fetch t.signature = some t.fetched) {before after : Chain} (hmoves : t.Moves d before after) :
    store fetch state.tables [t.listed] = some {
      attestations := (t.changes.filterMap Change.marked).foldl
        (fun rows close => rows.map (closeRow close)) state.tables.attestations
      userEvents := state.tables.userEvents
      indexerState := some t.listed } := by
  have hrows : ∀ row ∈ t.changes.filterMap Change.entered,
      row.key ∈ state.tables.attestations.map AttestationRow.key := by
    intro row hrow
    have hall : (done.flatMap FinalizedTransaction.changes).filterMap Change.entered =
        done.flatMap rowsOf := List.filterMap_flatMap
    rw [h.attestations, Change.map_replay closeRow_key, hall]
    exact List.mem_append_right _ (List.mem_map_of_mem (List.mem_flatMap.mpr ⟨t, ht, hrow⟩))
  have hevents : ∀ row ∈ t.userEventRows,
      row.key ∈ state.tables.userEvents.map UserEventRow.key := by
    intro row hrow
    rw [h.userEvents]
    exact List.mem_map_of_mem (List.mem_flatMap.mpr ⟨t, ht, hrow⟩)
  rw [store, mapM_listed hfetch (FinalizedTransaction.decodeTransaction_eq hmoves)]
  change some _ = _
  rw [List.flatMap_singleton, List.flatMap_singleton, List.flatMap_singleton,
    insertMissing_of_present hrows, insertMissing_of_present hevents]
  rfl

/-- Storing a transaction again leaves the users' events alone, and the attestations unless it came
back whole and closes one that is open. -/
theorem Follows.restore (h : Follows d accounts done rest state) (ht : t ∈ done)
    {fetch : Signature → Option FetchedTransaction} {x : FetchedTransaction}
    (hfetch : fetch t.signature = some x) (hreturned : t.Returned x) :
    ∃ tables, store fetch state.tables [t.listed] = some tables ∧
      tables.userEvents = state.tables.userEvents ∧
      (tables.attestations = state.tables.attestations ↔
        (x.blockTime.isSome = true → x.transactionMeta.isSome = true →
          ∀ close, Change.mark close ∈ t.changes →
            close.record ∉ openRecords state.tables.attestations)) := by
  cases hreturned with
  | lacking hlacking =>
    refine ⟨{ state.tables with indexerState := some t.listed }, ?_, rfl, iff_of_true rfl ?_⟩
    · rw [store, mapM_listed hfetch (FinalizedTransaction.decodeTransaction_lacking hlacking)]
      rfl
    · intro hblock hmeta
      rcases hlacking with hnone | hnone
      · rw [hnone] at hblock
        cases hblock
      · rw [hnone] at hmeta
        cases hmeta
  | whole =>
    have hfinalized : t ∈ state.finalized := by
      rw [h.finalized]
      exact List.mem_append_left _ ht
    obtain ⟨before, after, hmoves⟩ := h.ledger.moves t hfinalized
    refine ⟨_, h.store_again ht hfetch hmoves, rfl, ?_⟩
    dsimp only
    rw [foldl_close_eq]
    constructor
    · intro hnone _ _ close hclose
      exact hnone close (List.mem_filterMap.mpr ⟨_, hclose, rfl⟩)
    · intro hnone close hclose
      obtain ⟨change, hchange, hmarked⟩ := List.mem_filterMap.mp hclose
      cases change with
      | enter row => cases hmarked
      | mark m =>
        cases hmarked
        exact hnone t.fetched_complete.1 t.fetched_complete.2 _ hchange

/-- Every batch stored is `Storable`: then the rows are those of the stored transactions' changes in
order, an attestation is open exactly when its record is there after the last of them, and storing
one of them again changes a row only when it closes a record that is. -/
theorem indexed_history (h : IndexerRun d accounts Storable state) :
    ∃ done rest chain, state.finalized = done ++ rest ∧ Ledger d accounts done chain ∧
      (rest = [] → chain = state.chain) ∧
      state.tables.attestations =
        Change.replay closeRow (done.flatMap FinalizedTransaction.changes) [] ∧
      state.tables.userEvents = done.flatMap FinalizedTransaction.userEventRows ∧
      state.tables.indexerState = done.getLast?.map FinalizedTransaction.listed ∧
      OpenOn state.tables.attestations chain ∧
      ∀ t ∈ done, ∀ (fetch : Signature → Option FetchedTransaction) (x : FetchedTransaction),
        fetch t.signature = some x → t.Returned x →
          ∃ tables, store fetch state.tables [t.listed] = some tables ∧
            tables.userEvents = state.tables.userEvents ∧
            (tables.attestations = state.tables.attestations ↔
              (x.blockTime.isSome = true → x.transactionMeta.isSome = true →
                ∀ close, Change.mark close ∈ t.changes →
                  (chain.records close.record).isSome = false)) := by
  obtain ⟨done, rest, hfollows⟩ := h.follows
  have hledger := hfollows.ledger
  rw [hfollows.finalized] at hledger
  obtain ⟨chain, hchain, hlast⟩ := hledger.before
  have hopen := hchain.openOn
  rw [← hfollows.attestations] at hopen
  refine ⟨done, rest, chain, hfollows.finalized, hchain, hlast, hfollows.attestations,
    hfollows.userEvents, hfollows.cursor, hopen, fun t ht fetch x hfetch hreturned => ?_⟩
  obtain ⟨tables, hstored, hevents, hattestations⟩ := hfollows.restore ht hfetch hreturned
  refine ⟨tables, hstored, hevents, hattestations.trans ?_⟩
  simp only [hopen.2, Bool.not_eq_true]

def node (ts : List FinalizedTransaction) (signature : Signature) : Option FetchedTransaction :=
  (ts.find? fun t => t.signature = signature).map FinalizedTransaction.fetched

theorem node_storable (h : Separate batch) : Storable (node ts) batch where
  complete := by
    intro t _ _ x hx
    obtain ⟨s, -, rfl⟩ := Option.map_eq_some_iff.mp hx
    exact s.fetched_complete
  separate := h

theorem IndexerRun.stored {chain : Chain} (hrun : IndexerRun d accounts Allowed ⟨ts, chain, .empty, []⟩)
    (hledger : Ledger d accounts ts chain) (hlength : ts.length ≤ batchSize)
    (hallowed : Allowed (node ts) ts)
    (hstore : store (node ts) .empty (ts.map FinalizedTransaction.listed) = some tables) :
    IndexerRun d accounts Allowed ⟨ts, chain, tables, []⟩ := by
  have hdistinct := hledger.distinct
  have hlisted : (((ts.map FinalizedTransaction.listed).reverse).map
      ListedSignature.signature).Nodup := by
    rw [List.map_reverse, List.nodup_reverse, List.map_map]
    exact hdistinct
  have hfollows : Follows d accounts [] ts ⟨ts, chain, .empty, []⟩ :=
    ⟨rfl, hledger, rfl, rfl, rfl, List.nil_prefix⟩
  have hread : signaturesSince (fun _ => (ts.map FinalizedTransaction.listed).reverse) none =
      ts.map FinalizedTransaction.listed :=
    hfollows.read rfl (fun _ => ⟨[], rfl⟩) fun _ => hlisted
  have hpending : IndexerRun d accounts Allowed ⟨ts, chain, .empty,
      signaturesSince (fun _ => (ts.map FinalizedTransaction.listed).reverse) none⟩ :=
    hrun.tail (.read rfl (fun _ => ⟨[], rfl⟩) fun _ => hlisted)
  rw [hread] at hpending
  have htake : (ts.map FinalizedTransaction.listed).take batchSize =
      ts.map FinalizedTransaction.listed :=
    List.take_of_length_le (by rw [List.length_map]; exact hlength)
  have hdrop : (ts.map FinalizedTransaction.listed).drop batchSize = [] :=
    List.drop_eq_nil_of_le (by rw [List.length_map]; exact hlength)
  have hfetch : ∀ t ∈ ts, ∀ x ∈ node ts t.signature, t.Returned x := by
    intro t ht x hx
    obtain ⟨s, hs, rfl⟩ := Option.map_eq_some_iff.mp hx
    have hsame : s.signature = t.signature := of_decide_eq_true
      (@List.find?_some _ (fun u : FinalizedTransaction => decide (u.signature = t.signature)) _ _ hs)
    rw [List.inj_on_of_nodup_map hdistinct (List.mem_of_find?_eq_some hs) ht hsame]
    exact .whole
  have hcommit := hpending.tail (.commit htake.symm (fun _ ht => ht) hfetch
    (by rw [htake]; exact hstore) hallowed)
  rw [hdrop] at hcommit
  exact hcommit

namespace IndexerRehearsal

open Rehearsal

/-- The calls, the latest first, each as a transaction of its own, and the ledger they leave. -/
def finalizedCalls : List (Invocation × Call) → List FinalizedTransaction × Chain
  | [] => ([], Chain.genesis Rehearsal.accounts)
  | c :: earlier =>
    let (ts, chain) := finalizedCalls earlier
    let (result, after) := submit deployment c.1 chain c.2
    let t : FinalizedTransaction := {
      signature := Vector.replicate 64 (UInt8.ofNat ts.length)
      slot := ts.length
      blockTime := c.1.now
      outcome :=
        match result with
        | .ok event => .landed [(c.2, event)]
        | .error _ => .failed [c.2] [] }
    (ts ++ [t], after)

theorem run_finalized {calls : List (Invocation × Call)}
    (hdistinct : ((finalizedCalls calls).1.map FinalizedTransaction.signature).Nodup) :
    IndexerRun deployment Rehearsal.accounts Allowed
        ⟨(finalizedCalls calls).1, (finalizedCalls calls).2, .empty, []⟩ ∧
      Ledger deployment Rehearsal.accounts (finalizedCalls calls).1 (finalizedCalls calls).2 := by
  induction calls with
  | nil => exact ⟨.refl, .genesis⟩
  | cons c earlier ih =>
    rw [finalizedCalls] at hdistinct ⊢
    generalize finalizedCalls earlier = done at ih hdistinct ⊢
    obtain ⟨ts, chain⟩ := done
    dsimp only at ih hdistinct ⊢
    rw [List.map_append, List.nodup_append] at hdistinct
    obtain ⟨hrun, hledger⟩ := ih hdistinct.1
    have hnew := fun t (ht : t ∈ ts) =>
      hdistinct.2.2 _ (List.mem_map_of_mem ht) _ List.mem_cons_self
    cases hresult : execute deployment c.1 chain c.2 with
    | ok after =>
      have hsubmit : submit deployment c.1 chain c.2 = (.ok after.1, after.2) := by
        rw [submit, hresult]
      rw [hsubmit] at hnew ⊢
      have hexecutes := Executes.step rfl hresult (.done after.2)
      have hmoves := @FinalizedTransaction.Moves.landed deployment
        ⟨Vector.replicate 64 (UInt8.ofNat ts.length), ts.length, c.1.now, .landed [(c.2, after.1)]⟩
        _ _ _ rfl hexecutes
      exact ⟨hrun.tail (.finalize hnew hmoves), hledger.finalize hnew hmoves⟩
    | error fault =>
      have hsubmit : submit deployment c.1 chain c.2 = (.error fault, chain) := by
        rw [submit, hresult]
      rw [hsubmit] at hnew ⊢
      have hmoves := @FinalizedTransaction.Moves.failed deployment
        ⟨Vector.replicate 64 (UInt8.ofNat ts.length), ts.length, c.1.now, .failed [c.2] []⟩
        chain _ _ rfl
      exact ⟨hrun.tail (.finalize hnew hmoves), hledger.finalize hnew hmoves⟩

/-- The transfer attested again under a later time, once its record is closed. -/
def reattestation : Attestation := { attestation with eventTime := 1700700000 }

def reattesting : Invocation × Call :=
  let message := attestationMessage deployment params.genesisHash reattestation
  let header := [signatureOffset, 65535, publicKeyOffset, 65535, messageOffset, message.length, 65535]
  (surroundings 1700700100 ⟨[founder], founder_signs⟩ (some ⟨address 206, [1, 0] ++
      header.flatMap (LittleEndian.bytes 2) ++ attestor.toList ++ List.replicate 64 0 ++ message⟩)
    (by decide), .attest founder reattestation)

end IndexerRehearsal

open IndexerRehearsal Rehearsal in
/-- Stored with the attestation after it, a close also closes that one. -/
theorem indexed_history_batched :
    ∃ state : IndexerState, IndexerRun deployment Rehearsal.accounts (fun _ _ => True) state ∧
      state.tables.indexerState = state.finalized.getLast?.map FinalizedTransaction.listed ∧
      state.tables.attestations ≠
        Change.replay closeRow (state.finalized.flatMap FinalizedTransaction.changes) [] ∧
      (state.chain.records attestation.transferId).isSome = true ∧
      openRecords state.tables.attestations = [] := by
  have hall : let done := finalizedCalls [reattesting, closing, attesting, enrolling, initializing]
      done.1.length ≤ batchSize ∧ (done.1.map FinalizedTransaction.signature).Nodup ∧
      (done.2.records attestation.transferId).isSome = true ∧
      (store (node done.1) .empty (done.1.map FinalizedTransaction.listed)).map
        (fun tables => (tables.indexerState, openRecords tables.attestations)) =
          some (done.1.getLast?.map FinalizedTransaction.listed, []) := by
    decide +kernel
  obtain ⟨hlength, hdistinct, hsome, htables⟩ := hall
  obtain ⟨hrun, hledger⟩ := @run_finalized (fun _ _ => True) _ hdistinct
  generalize finalizedCalls _ = done at *
  obtain ⟨tables, hstore, htables⟩ := Option.map_eq_some_iff.mp htables
  rw [Prod.mk.injEq] at htables
  refine ⟨_, hrun.stored hledger hlength trivial hstore, htables.1, ?_, hsome, htables.2⟩
  intro hsame
  have hopen := (hledger.openOn.2 attestation.transferId).mpr hsome
  rw [← hsame, htables.2] at hopen
  cases hopen

open IndexerRehearsal Rehearsal in
theorem indexed_history_closed :
    ∃ state done rest chain, IndexerRun deployment Rehearsal.accounts Storable state ∧
      state.tables.attestations.length = 1 ∧ state.finalized = done ++ rest ∧
      Ledger deployment Rehearsal.accounts done chain ∧ OpenOn state.tables.attestations chain := by
  have hall : let done := finalizedCalls [closing, attesting, enrolling, initializing]
      done.1.length ≤ batchSize ∧ (done.1.map FinalizedTransaction.signature).Nodup ∧
      Separate done.1 ∧
      (store (node done.1) .empty (done.1.map FinalizedTransaction.listed)).map
        (fun tables => tables.attestations.length) = some 1 := by
    decide +kernel
  obtain ⟨hlength, hdistinct, hseparate, htables⟩ := hall
  obtain ⟨hrun, hledger⟩ := @run_finalized Storable _ hdistinct
  generalize finalizedCalls _ = done at *
  obtain ⟨tables, hstore, htables⟩ := Option.map_eq_some_iff.mp htables
  have hstored := hrun.stored hledger hlength (node_storable hseparate) hstore
  obtain ⟨done, rest, chain, hfinalized, hdone, -, -, -, -, hopen, -⟩ := indexed_history hstored
  exact ⟨_, done, rest, chain, hstored, htables, hfinalized, hdone, hopen⟩

end Laterite.Indexer
