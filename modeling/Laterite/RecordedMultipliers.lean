import Laterite.DecodedTransactions

/-!
# The multipliers recorded with sweeps

The mint of an asset scales the amounts it shows by a multiplier, which its issuer updates, at once
or from a later time on. The indexer stores each sweep with the multiplier in force at its block
time, worked out from the mint as it is when the sweep is stored. The mint remembers two
multipliers and one time, so updates made since the sweep can replace the one it needs.
-/

namespace Laterite.Multipliers

open Operator

/-- The extension of a mint that scales its amounts. -/
structure ScaledUiAmountConfig (M : Type) where
  multiplier : M
  newMultiplier : M
  newMultiplierEffectiveTimestamp : ℤ

abbrev Mint (M : Type) := Option (ScaledUiAmountConfig M)

section

variable {M : Type}

/-- The multiplier the mint applies at a time. -/
def ScaledUiAmountConfig.at (config : ScaledUiAmountConfig M) (timestamp : ℤ) : M :=
  if config.newMultiplierEffectiveTimestamp ≤ timestamp then config.newMultiplier
  else config.multiplier

def scaledUiAmountMultiplier [One M] (mint : Mint M) (timestamp : ℤ) : M :=
  match mint with
  | none => 1
  | some config => config.at timestamp

structure Update (M : Type) where
  asset : ℕ
  multiplier : M
  effective : ℤ
  now : ℤ

/-- The update is in force when it is made. -/
def Update.isImmediate (update : Update M) : Bool := update.effective ≤ update.now

abbrev UpdateMultiplier (M : Type) := ScaledUiAmountConfig M → Update M → ScaledUiAmountConfig M

/-- Token-2022's update. The new multiplier and its time replace the ones held, scheduled or not; an
update in force when it is made replaces the other multiplier too. A time before 1970 is any time
before it. -/
structure UpdateMultiplier.Documented (updateMultiplier : UpdateMultiplier M) : Prop where
  newMultiplier : ∀ config update,
    (updateMultiplier config update).newMultiplier = update.multiplier
  effective : ∀ config update timestamp, 0 ≤ timestamp →
    ((updateMultiplier config update).newMultiplierEffectiveTimestamp ≤ timestamp ↔
      update.effective ≤ timestamp)
  multiplier : ∀ config update, (updateMultiplier config update).multiplier =
    if update.isImmediate then update.multiplier else config.multiplier

def withMultipliers [One M] (mints : List (Mint M)) (rows : List SweepRow) :
    Option (List (SweepRow × M)) :=
  rows.mapM fun row =>
    mints[row.event.asset.toNat]?.map fun mint => (row, scaledUiAmountMultiplier mint row.blockTime)

def mintsAfter (updateMultiplier : UpdateMultiplier M) (mints : List (Mint M))
    (updates : List (Update M)) : List (Mint M) :=
  updates.foldl (fun mints update =>
    mints.modify update.asset fun mint => mint.map fun config => updateMultiplier config update) mints

structure Landed where
  row : SweepRow
  place : ℕ

structure Recorded (M : Type) extends Landed where
  multiplier : M
  read : ℕ

/-- The updates made so far, the clock, the sweeps to store and those stored. -/
structure History (M : Type) where
  updates : List (Update M)
  clock : ℤ
  landed : List Landed
  recorded : List (Recorded M)

/-- What happens: an update of a mint, a sweep, or a batch of sweeps stored. -/
inductive HistoryStep [One M] (updateMultiplier : UpdateMultiplier M) (mints : List (Mint M)) :
    History M → History M → Prop
  | update {s : History M} (update : Update M) (hclock : s.clock ≤ update.now) :
      HistoryStep updateMultiplier mints s
        { s with updates := s.updates ++ [update], clock := update.now }
  | sweep {s : History M} (row : SweepRow) (hclock : s.clock ≤ row.blockTime) :
      HistoryStep updateMultiplier mints s
        { s with landed := s.landed ++ [⟨row, s.updates.length⟩], clock := row.blockTime }
  | store {s : History M} (batch : ℕ) {rows : List (SweepRow × M)}
      (hrows : withMultipliers (mintsAfter updateMultiplier mints s.updates)
        ((s.landed.take batch).map Landed.row) = some rows) :
      HistoryStep updateMultiplier mints s
        { s with
          landed := s.landed.drop batch
          recorded := s.recorded ++ List.zipWith (fun landed row =>
            { landed with multiplier := row.2, read := s.updates.length }) (s.landed.take batch) rows }

/-- Everything that happens from a time on. -/
inductive HistoryRun [One M] (updateMultiplier : UpdateMultiplier M) (mints : List (Mint M))
    (start : ℤ) : History M → Prop
  | start : HistoryRun updateMultiplier mints start ⟨[], start, [], []⟩
  | step {s s' : History M} (hrun : HistoryRun updateMultiplier mints start s)
      (hstep : HistoryStep updateMultiplier mints s s') : HistoryRun updateMultiplier mints start s'

/-- The multiplier the mint will answer with for an earlier time is the one it applied then: no
update was made since, or the last one holds from that time on, or it is the `multiplier` field's,
which the last update in force when it was made left. -/
def Kept (config : ScaledUiAmountConfig M) (timestamp : ℤ) (since : List (Update M)) : Prop :=
  match since.getLast? with
  | none => True
  | some last =>
    if last.effective ≤ timestamp then last.multiplier = config.at timestamp
    else ((since.filter Update.isImmediate).getLast?.map Update.multiplier).getD config.multiplier =
      config.at timestamp

/-- The updates of an asset made after the first `place` ones, up to the first `read` ones. -/
def updatesBetween (updates : List (Update M)) (asset place read : ℕ) : List (Update M) :=
  ((updates.take read).drop place).filter fun update => update.asset = asset

variable {updateMultiplier : UpdateMultiplier M} {mints : List (Mint M)} {updates : List (Update M)}
  {config : ScaledUiAmountConfig M} {timestamp start : ℤ}

theorem mintsAfter_getElem (asset : ℕ) :
    (mintsAfter updateMultiplier mints updates)[asset]? = mints[asset]?.map fun mint =>
      mint.map fun config =>
        (updates.filter fun update => update.asset = asset).foldl updateMultiplier config := by
  induction updates generalizing mints with
  | nil => simp [mintsAfter]
  | cons update updates ih =>
    rw [mintsAfter, List.foldl_cons, ← mintsAfter, ih, List.getElem?_modify]
    by_cases hasset : update.asset = asset
    · simp [hasset, Function.comp_def]
    · simp [hasset]

/-- The `multiplier` field is the one of the last update in force when it was made. -/
theorem multiplier_foldl (hupdate : updateMultiplier.Documented)
    (config : ScaledUiAmountConfig M) (since : List (Update M)) :
    (since.foldl updateMultiplier config).multiplier =
      ((since.filter Update.isImmediate).getLast?.map Update.multiplier).getD config.multiplier := by
  induction since using List.reverseRecOn with
  | nil => rfl
  | append_singleton since last ih =>
    rw [List.foldl_append, List.foldl_cons, List.foldl_nil, hupdate.multiplier, List.filter_append]
    cases himmediate : last.isImmediate with
    | true => simp [himmediate]
    | false => simpa [himmediate] using ih

theorem foldl_at_iff (hupdate : updateMultiplier.Documented) (htime : 0 ≤ timestamp)
    (since : List (Update M)) :
    (since.foldl updateMultiplier config).at timestamp = config.at timestamp ↔
      Kept config timestamp since := by
  rw [Kept]
  rcases List.eq_nil_or_concat since with rfl | ⟨earlier, last, rfl⟩
  · simp
  · have hmultiplier := multiplier_foldl hupdate config (earlier ++ [last])
    have heffective := hupdate.effective (earlier.foldl updateMultiplier config) last timestamp htime
    rw [List.concat_eq_append, List.getLast?_concat]
    rw [List.foldl_append] at hmultiplier ⊢
    dsimp only [List.foldl_cons, List.foldl_nil] at hmultiplier ⊢
    rw [ScaledUiAmountConfig.at, hmultiplier, hupdate.newMultiplier]
    by_cases hin : last.effective ≤ timestamp
    · rw [if_pos (heffective.mpr hin), if_pos hin]
    · rw [if_neg (fun h => hin (heffective.mp h)), if_neg hin]

variable [One M]

theorem mem_batch {batch : List Landed} {rows : List (SweepRow × M)} {read : ℕ} {recorded : Recorded M}
    (hrows : withMultipliers mints (batch.map Landed.row) = some rows)
    (hmem : recorded ∈ List.zipWith (fun landed row =>
      { landed with multiplier := row.2, read := read }) batch rows) :
    recorded.toLanded ∈ batch ∧ recorded.read = read ∧
      ∃ mint, mints[recorded.row.event.asset.toNat]? = some mint ∧
        recorded.multiplier = scaledUiAmountMultiplier mint recorded.row.blockTime := by
  induction batch generalizing rows with
  | nil => cases hmem
  | cons landed batch ih =>
    rw [withMultipliers, List.map_cons, List.mapM_cons, ← withMultipliers] at hrows
    rcases Option.bind_eq_some_iff.mp hrows with ⟨row, hrow, hrest⟩
    rcases Option.bind_eq_some_iff.mp hrest with ⟨others, hothers, hcons⟩
    obtain rfl := Option.some.inj hcons
    rcases Option.map_eq_some_iff.mp hrow with ⟨mint, hmint, rfl⟩
    rcases List.mem_cons.mp hmem with rfl | hlater
    · exact ⟨List.mem_cons_self, rfl, mint, hmint, rfl⟩
    · rcases ih hothers hlater with ⟨hbatch, hread, hanswer⟩
      exact ⟨List.mem_cons_of_mem _ hbatch, hread, hanswer⟩

structure Recorded.Read (updateMultiplier : UpdateMultiplier M) (mints : List (Mint M))
    (updates : List (Update M)) (recorded : Recorded M) : Prop where
  time : 0 ≤ recorded.row.blockTime
  place_le : recorded.place ≤ recorded.read
  read_le : recorded.read ≤ updates.length
  answer : ∃ mint,
    (mintsAfter updateMultiplier mints
      (updates.take recorded.read))[recorded.row.event.asset.toNat]? = some mint ∧
    recorded.multiplier = scaledUiAmountMultiplier mint recorded.row.blockTime

structure Sound (updateMultiplier : UpdateMultiplier M) (mints : List (Mint M)) (s : History M) :
    Prop where
  clock : 0 ≤ s.clock
  landed : ∀ landed ∈ s.landed, 0 ≤ landed.row.blockTime ∧ landed.place ≤ s.updates.length
  recorded : ∀ recorded ∈ s.recorded, recorded.Read updateMultiplier mints s.updates

theorem Recorded.Read.update {recorded : Recorded M}
    (hread : recorded.Read updateMultiplier mints updates) (update : Update M) :
    recorded.Read updateMultiplier mints (updates ++ [update]) where
  time := hread.time
  place_le := hread.place_le
  read_le := hread.read_le.trans (List.length_append ▸ Nat.le_add_right _ _)
  answer := by
    rw [List.take_append_of_le_length hread.read_le]
    exact hread.answer

theorem HistoryStep.sound {s s' : History M} (hstep : HistoryStep updateMultiplier mints s s')
    (hsound : Sound updateMultiplier mints s) : Sound updateMultiplier mints s' := by
  cases hstep with
  | update update hclock =>
    constructor
    · exact hsound.clock.trans hclock
    · intro landed hlanded
      rcases hsound.landed landed hlanded with ⟨htime, hplace⟩
      exact ⟨htime, hplace.trans (List.length_append ▸ Nat.le_add_right _ _)⟩
    · intro recorded hrecorded
      exact (hsound.recorded recorded hrecorded).update update
  | sweep row hclock =>
    constructor
    · exact hsound.clock.trans hclock
    · intro landed hlanded
      rcases List.mem_append.mp hlanded with hold | hnew
      · exact hsound.landed landed hold
      · rw [List.mem_singleton.mp hnew]
        exact ⟨hsound.clock.trans hclock, le_rfl⟩
    · exact hsound.recorded
  | store batch hrows =>
    constructor
    · exact hsound.clock
    · intro landed hlanded
      exact hsound.landed landed (List.mem_of_mem_drop hlanded)
    · intro recorded hrecorded
      rcases List.mem_append.mp hrecorded with hold | hnew
      · exact hsound.recorded recorded hold
      · rcases mem_batch hrows hnew with ⟨hbatch, hread, hanswer⟩
        rcases hsound.landed _ (List.mem_of_mem_take hbatch) with ⟨htime, hplace⟩
        constructor
        · exact htime
        · rw [hread]
          exact hplace
        · exact hread.le
        · rw [hread, List.take_length]
          exact hanswer

theorem HistoryRun.sound {s : History M} (hrun : HistoryRun updateMultiplier mints start s)
    (hstart : 0 ≤ start) : Sound updateMultiplier mints s := by
  induction hrun with
  | start =>
    constructor
    · exact hstart
    · intro landed hlanded
      cases hlanded
    · intro recorded hrecorded
      cases hrecorded
  | step hrun hstep ih => exact hstep.sound ih

/-- In every run, a sweep is stored with the multiplier its asset's mint applied when it landed
exactly when the updates made until the mint was read kept it. -/
theorem recorded_multiplier_in_force (updateMultiplier : UpdateMultiplier M)
    (hupdate : updateMultiplier.Documented) (mints : List (Mint M)) (start : ℤ) (hstart : 0 ≤ start)
    (s : History M) (hrun : HistoryRun updateMultiplier mints start s) :
    ∀ recorded ∈ s.recorded, ∃ mint,
      (mintsAfter updateMultiplier mints
        (s.updates.take recorded.place))[recorded.row.event.asset.toNat]? = some mint ∧
      (recorded.multiplier = scaledUiAmountMultiplier mint recorded.row.blockTime ↔
        ∀ config ∈ mint, Kept config recorded.row.blockTime
          (updatesBetween s.updates recorded.row.event.asset.toNat recorded.place recorded.read)) := by
  intro recorded hrecorded
  rcases (hrun.sound hstart).recorded recorded hrecorded with ⟨htime, hplace, -, after, hafter, hanswer⟩
  have hsplit : s.updates.take recorded.read = s.updates.take recorded.place ++
      (s.updates.take recorded.read).drop recorded.place := by
    conv_lhs => rw [← List.take_append_drop recorded.place (s.updates.take recorded.read)]
    rw [List.take_take, Nat.min_eq_left hplace]
  rw [hsplit, mintsAfter, List.foldl_append, ← mintsAfter, ← mintsAfter, mintsAfter_getElem] at hafter
  rcases Option.map_eq_some_iff.mp hafter with ⟨mint, hmint, hmap⟩
  refine ⟨mint, hmint, ?_⟩
  rw [hanswer, ← hmap]
  cases mint with
  | none => simp [scaledUiAmountMultiplier]
  | some config =>
    rw [Option.map_some]
    dsimp only [scaledUiAmountMultiplier]
    rw [foldl_at_iff hupdate htime, updatesBetween]
    simp

end

namespace MultiplierRehearsal

def updateMultiplier : UpdateMultiplier ℕ := fun config update =>
  { multiplier := if update.isImmediate then update.multiplier else config.multiplier
    newMultiplier := update.multiplier
    newMultiplierEffectiveTimestamp := max update.effective 0 }

theorem documented : updateMultiplier.Documented where
  newMultiplier _ _ := rfl
  effective _ _ _ htime := by simp [updateMultiplier, htime]
  multiplier _ _ := rfl

/-- One asset, shown as it is held. -/
def mints : List (Mint ℕ) := [some ⟨1, 1, 0⟩]

def row : SweepRow where
  signature := Vector.replicate 64 1
  eventIndex := 0
  slot := 7
  blockTime := 1000
  event := {
    user := Vector.replicate 32 2
    asset := 0
    paymentToken := 0
    engine := 1000000
    pending := 0
    assetPrice := 60000000000
    assetExponent := -8
    received := 160000
    minOut := 150000 }
  feePayer := none

def stored (update : Update ℕ) (multiplier : ℕ) : History ℕ :=
  ⟨[update], update.now, [], [{ row := row, place := 0, multiplier := multiplier, read := 1 }]⟩

theorem stored_run (update : Update ℕ) (hlater : 1000 ≤ update.now) (multiplier : ℕ)
    (hrows : withMultipliers (mintsAfter updateMultiplier mints [update]) [row] =
      some [(row, multiplier)]) :
    HistoryRun updateMultiplier mints 0 (stored update multiplier) := by
  have hswept : HistoryRun updateMultiplier mints 0 ⟨[], 1000, [⟨row, 0⟩], []⟩ :=
    HistoryRun.start.step (.sweep (s := ⟨[], 0, [], []⟩) row (by decide))
  have hupdated : HistoryRun updateMultiplier mints 0 ⟨[update], update.now, [⟨row, 0⟩], []⟩ :=
    hswept.step (.update (s := ⟨[], 1000, [⟨row, 0⟩], []⟩) update hlater)
  exact hupdated.step (.store (s := ⟨[update], update.now, [⟨row, 0⟩], []⟩) 1 hrows)

/-- Twice as many are shown from now on. -/
def doubled : Update ℕ := ⟨0, 2, 2000, 2000⟩

/-- Twice as many are shown from a later time on. -/
def announced : Update ℕ := ⟨0, 2, 9000, 2000⟩

end MultiplierRehearsal

open MultiplierRehearsal in
/-- An announcement keeps the multiplier in force, so the sweep is stored with it. -/
theorem recorded_multiplier_in_force_announced :
    HistoryRun updateMultiplier mints 0 (stored announced 1) ∧
      Kept ⟨1, 1, 0⟩ 1000 (updatesBetween [announced] 0 0 1) ∧
      1 = scaledUiAmountMultiplier (some (⟨1, 1, 0⟩ : ScaledUiAmountConfig ℕ)) 1000 := by
  have hrun := stored_run announced (by decide) 1 rfl
  have hkept : Kept ⟨1, 1, 0⟩ 1000 (updatesBetween [announced] 0 0 1) := by
    simp [Kept, updatesBetween, announced, Update.isImmediate, ScaledUiAmountConfig.at]
  rcases recorded_multiplier_in_force updateMultiplier documented mints 0 le_rfl _ hrun _
    List.mem_cons_self with ⟨mint, hmint, hiff⟩
  obtain rfl := Option.some.inj hmint
  refine ⟨hrun, hkept, hiff.mpr ?_⟩
  intro config hconfig
  obtain rfl := Option.some.inj hconfig
  exact hkept

open MultiplierRehearsal in
/-- The mint applied 1 when the sweep landed; the update made before the poll has it stored with 2. -/
theorem not_recorded_multiplier_in_force :
    HistoryRun updateMultiplier mints 0 (stored doubled 2) ∧
      ¬∀ recorded ∈ (stored doubled 2).recorded, ∃ mint,
        (mintsAfter updateMultiplier mints
          ((stored doubled 2).updates.take recorded.place))[recorded.row.event.asset.toNat]? =
            some mint ∧
        recorded.multiplier = scaledUiAmountMultiplier mint recorded.row.blockTime := by
  refine ⟨stored_run doubled (by decide) 2 rfl, ?_⟩
  intro hall
  rcases hall _ List.mem_cons_self with ⟨mint, hmint, hstored⟩
  obtain rfl := Option.some.inj hmint
  exact absurd hstored (by decide)

end Laterite.Multipliers
