import Laterite.CrankRuns

/-!
# The crank's final words

Whatever the crank meets and wherever its process ends, a token has at most one final word a day, and a
word of a closed day exactly one. Nothing is handed to the sender for a token on a day that has its word,
the failed attempts of a day stay below the bound by what one sweep may add, and each word was said on
grounds a build met, or on the failed attempts a closed day was left with.

The invariant says of each token left in a tick that it has no word, and fewer failed attempts than the
bound, on the tick's day and every later one: only its own sweep records under it before the tick ends.
-/

namespace Laterite.Crank

open Client Failures FinalWords TimedRuns

abbrev Key := Pubkey × ℕ × ℤ

abbrev HasWord (rows : List SweepAttempt) (k : Key) : Prop :=
  Decided SweepAttempt.key SweepAttempt.isFinal rows k

abbrev finalWords (rows : List SweepAttempt) (k : Key) : ℕ :=
  words SweepAttempt.key SweepAttempt.isFinal rows k

abbrev failedAttempts (rows : List SweepAttempt) (k : Key) : ℕ :=
  attempts SweepAttempt.key SweepAttempt.isFinal rows k

/-- The most failed attempts a token may have on a day: below the bound before its last sweep. -/
def mostFailed : ℕ := maxFailedAttemptsPerDay + maxBuilds - 1

def Next.GoesOn : Next → Prop
  | .again _ => True
  | _ => False

/-- The rows a build leaves: none added, one, or a landed sweep's and the failure recorded because that
one could not be. -/
inductive Records (candidate : Candidate) (clocks : List ℤ) (rows : List SweepAttempt) :
    List SweepAttempt → Next → Prop
  | none (next : Next) : Records candidate clocks rows rows next
  | one {clock : ℤ} {attempt : Attempt} {next : Next} (read : clock ∈ clocks)
    (ends : attempt.outcome ≠ .failed → ¬next.GoesOn) :
    Records candidate clocks rows (candidate.row (today clock) attempt :: rows) next
  | two {clock : ℤ} {first second : Attempt} {next : Next} (read : clock ∈ clocks)
    (word : first.outcome ≠ .failed) (failed : second.outcome = .failed) (ends : ¬next.GoesOn) :
    Records candidate clocks rows
      (candidate.row (today clock) second :: candidate.row (today clock) first :: rows) next

section

variable {setup : Setup} {paused : List Pubkey} {candidate : Candidate} {failures builds : ℕ}
  {locals : Locals} {r : Readings} {plan : Plan} {rows rows' : List SweepAttempt} {memory : Memory}
  {next : Next} {clocks : List ℤ} {k : Key} {now clock : ℤ}

theorem perform_records (h : plan.Sound setup paused candidate locals r) :
    Records candidate r.clocks rows (perform setup candidate failures r plan rows memory).1
      (perform setup candidate failures r plan rows memory).2.2 := by
  unfold perform
  cases hrow : plan.row with
  | none => exact .none _
  | some dated =>
    rcases dated with ⟨day, attempt⟩
    rcases h.dated day attempt hrow with ⟨clock, hread, rfl⟩
    have hends : attempt.outcome ≠ .failed → ¬plan.next.GoesOn := by
      intro hword
      rcases (h.ends _ attempt hrow hword).1 with hnext | hnext
      · simp [hnext, Next.GoesOn]
      · simp [hnext, Next.GoesOn]
    cases r.insertion with
    | stored => exact .one hread hends
    | failed message kept =>
      cases hotherwise : plan.otherwise with
      | none =>
        cases kept with
        | false => exact .none _
        | true => exact .one hread fun _ => id
      | some second =>
        rcases h.otherwise second hotherwise with ⟨hfailed, hword⟩
        cases r.reinsertion with
        | stored =>
          cases kept with
          | false => exact .one hread fun hne => absurd hfailed hne
          | true => exact .two hread (hword _ attempt hrow) hfailed id
        | failed other keptToo =>
          cases kept with
          | false =>
            cases keptToo with
            | false => exact .none _
            | true => exact .one hread fun hne => absurd hfailed hne
          | true =>
            cases keptToo with
            | false => exact .one hread fun _ => id
            | true => exact .two hread (hword _ attempt hrow) hfailed id

theorem isFinal_row {day : ℤ} {attempt : Attempt} :
    (candidate.row day attempt).isFinal = true ↔ attempt.outcome ≠ .failed := decide_eq_true_iff

theorem isFinal_row_eq_false {day : ℤ} {attempt : Attempt} :
    (candidate.row day attempt).isFinal = false ↔ attempt.outcome = .failed :=
  decide_eq_false_iff_not.trans not_not

theorem hasWord_cons {row : SweepAttempt} :
    HasWord (row :: rows) k ↔ row.key = k ∧ row.isFinal = true ∨ HasWord rows k := decided_cons

theorem failedAttempts_cons {row : SweepAttempt} : failedAttempts (row :: rows) k =
    failedAttempts rows k + if row.key = k ∧ row.isFinal = false then 1 else 0 := attempts_cons

def Open (rows : List SweepAttempt) (now : ℤ) (candidate : Candidate) (bound : ℕ) : Prop :=
  ∀ day, today now ≤ day →
    ¬HasWord rows (candidate.user.user, candidate.paymentToken, day) ∧
      failedAttempts rows (candidate.user.user, candidate.paymentToken, day) ≤ bound

theorem today_mono {a b : ℤ} (h : a ≤ b) : today a ≤ today b := by
  unfold today
  rw [divEuclid_eq _ (by decide), divEuclid_eq _ (by decide)]
  exact Int.ediv_le_ediv (by decide) h

/-- A build keeps the words single. -/
theorem Records.once (h : Records candidate clocks rows rows' next) {bound : ℕ}
    (hopen : Open rows now candidate bound) (hlater : ∀ clock ∈ clocks, now ≤ clock)
    (honce : Once SweepAttempt.key SweepAttempt.isFinal rows) :
    Once SweepAttempt.key SweepAttempt.isFinal rows' := by
  cases h with
  | none => exact honce
  | @one clock attempt _ hread _ =>
    exact honce.cons fun _ => (hopen (today clock) (today_mono (hlater clock hread))).1
  | @two clock first second _ hread _ hfailed _ =>
    have hnone : ¬HasWord rows (candidate.row (today clock) first).key :=
      (hopen (today clock) (today_mono (hlater clock hread))).1
    exact (honce.cons fun _ => hnone).cons fun hfinal => absurd hfailed (isFinal_row.mp hfinal)

/-- A build adds at most one failed attempt, to a day of its own token. -/
theorem Records.failedAttempts_le (h : Records candidate clocks rows rows' next) (k : Key) :
    failedAttempts rows' k ≤ failedAttempts rows k + 1 := by
  cases h with
  | none => exact Nat.le_succ _
  | one =>
    rw [failedAttempts_cons]
    split <;> omega
  | two _ hword _ _ =>
    rw [failedAttempts_cons, failedAttempts_cons]
    simp only [isFinal_row_eq_false, hword, and_false, ite_false]
    split <;> omega

/-- A build touches its own token alone, on the days it read. -/
theorem Records.other (h : Records candidate clocks rows rows' next)
    (hother : ∀ clock ∈ clocks, (candidate.user.user, candidate.paymentToken, today clock) ≠ k) :
    (HasWord rows' k ↔ HasWord rows k) ∧ failedAttempts rows' k = failedAttempts rows k := by
  cases h with
  | none => exact ⟨Iff.rfl, rfl⟩
  | @one clock attempt _ hread _ =>
    have hkey : ¬(candidate.row (today clock) attempt).key = k := hother clock hread
    rw [hasWord_cons, failedAttempts_cons]
    simp [hkey]
  | @two clock first second _ hread _ _ _ =>
    have hfirst : ¬(candidate.row (today clock) first).key = k := hother clock hread
    have hsecond : ¬(candidate.row (today clock) second).key = k := hother clock hread
    rw [hasWord_cons, hasWord_cons, failedAttempts_cons, failedAttempts_cons]
    simp [hfirst, hsecond]

theorem Records.undecided (h : Records candidate clocks rows rows' next) (hnext : next.GoesOn)
    (hnone : ¬HasWord rows k) : ¬HasWord rows' k := by
  cases h with
  | none => exact hnone
  | one _ hends =>
    rw [hasWord_cons, isFinal_row]
    intro hword
    rcases hword with ⟨-, hfinal⟩ | hold
    · exact hends hfinal hnext
    · exact hnone hold
  | two _ _ _ hends => exact absurd hnext hends

theorem Records.dated (h : Records candidate clocks rows rows' next) {row : SweepAttempt}
    (hrow : row ∈ rows') : row ∈ rows ∨ ∃ clock ∈ clocks, row.day = today clock := by
  cases h with
  | none => exact .inl hrow
  | @one clock attempt _ hread _ =>
    rcases List.mem_cons.mp hrow with rfl | hold
    · exact .inr ⟨clock, hread, rfl⟩
    · exact .inl hold
  | @two clock first second _ hread _ _ _ =>
    rcases List.mem_cons.mp hrow with rfl | hrow
    · exact .inr ⟨clock, hread, rfl⟩
    · rcases List.mem_cons.mp hrow with rfl | hold
      · exact .inr ⟨clock, hread, rfl⟩
      · exact .inl hold

theorem Records.hasWord (h : Records candidate clocks rows rows' next) (hword : HasWord rows k) :
    HasWord rows' k := by
  cases h with
  | none => exact hword
  | one => exact hasWord_cons.mpr (.inr hword)
  | two => exact hasWord_cons.mpr (.inr (hasWord_cons.mpr (.inr hword)))

end

def Due.token (due : Due) : Pubkey × ℕ := (due.candidate.user.user, due.candidate.paymentToken)

/-- The builds the first sweep of a tick's rest has made. -/
def made (progress : Option (Locals × ℕ)) : ℕ := (progress.map Prod.snd).getD 0

/-- What holds of a tick wherever it stands. -/
def Phase.Sound (rows : List SweepAttempt) (clock : ℤ) : Phase → Prop
  | .idle => True
  | .listing _ now => now ≤ clock ∧ ∀ row ∈ rows, row.day ≤ today now
  | .sweeping batch due progress =>
    batch.now ≤ clock ∧ (due.map Due.token).Nodup ∧
      (∀ one ∈ due.tail, Open rows batch.now one.candidate (maxFailedAttemptsPerDay - 1)) ∧
      ∀ one ∈ due.head?, made progress < maxBuilds ∧
        Open rows batch.now one.candidate (maxFailedAttemptsPerDay - 1 + made progress)

structure State.Sound (s : State) : Prop where
  clock : 0 ≤ s.clock
  once : Once SweepAttempt.key SweepAttempt.isFinal s.world.rows
  bounded : ∀ k, failedAttempts s.world.rows k ≤ mostFailed
  dated : ∀ row ∈ s.world.rows, 0 ≤ row.day ∧ row.day ≤ today s.clock
  closed : ∀ row ∈ s.world.rows, row.day < s.world.memory.closedBefore → HasWord s.world.rows row.key
  closing : s.world.memory.closedBefore ≤ today s.clock
  phase : s.world.phase.Sound s.world.rows s.clock

section

variable {setup : Setup} {world : World} {clock now : ℤ} {rows : List SweepAttempt} {row : SweepAttempt}
  {day : ℤ} {k : Key}

theorem today_nonneg {a : ℤ} (h : 0 ≤ a) : 0 ≤ today a := today_mono h

theorem State.Sound.start (h : 0 ≤ clock) : (State.start clock).Sound where
  clock := h
  once k := Nat.zero_le _
  bounded k := Nat.zero_le _
  dated := by simp [State.start]
  closed := by simp [State.start]
  closing := today_nonneg h
  phase := trivial

theorem mem_closeDays : row ∈ closeDays day rows ↔
    (∃ k, (∃ old ∈ rows, old.key = k) ∧ k.2.2 < day ∧ ¬HasWord rows k ∧ skip rows k = row) ∨
      row ∈ rows := by
  unfold closeDays
  rw [mem_close]
  simp only [mem_unclosed, decide_eq_true_eq]
  grind

theorem isFinal_skip (k : Key) : (skip rows k).isFinal = true := rfl

theorem key_skip (k : Key) : (skip rows k).key = k := rfl

/-- Closing leaves each earlier day of a token with a row its final word. -/
theorem hasWord_closeDays (h : row ∈ closeDays day rows) (hday : row.day < day) :
    HasWord (closeDays day rows) row.key := by
  apply decided_close key_skip isFinal_skip (decide_eq_true hday)
  rcases mem_closeDays.mp h with ⟨k, hold, -, -, rfl⟩ | hold
  · exact hold
  · exact ⟨row, hold, rfl⟩

theorem closeDays_hasWord (h : HasWord rows k) : HasWord (closeDays day rows) k :=
  Decided.append_left h

theorem once_closeDays (h : Once SweepAttempt.key SweepAttempt.isFinal rows) :
    Once SweepAttempt.key SweepAttempt.isFinal (closeDays day rows) := h.close key_skip

theorem failedAttempts_closeDays : failedAttempts (closeDays day rows) k = failedAttempts rows k :=
  attempts_close isFinal_skip

theorem day_closeDays (h : row ∈ closeDays day rows) : ∃ old ∈ rows, old.day = row.day := by
  rcases mem_closeDays.mp h with ⟨k, ⟨old, hold, rfl⟩, -, -, rfl⟩ | hold
  · exact ⟨old, hold, rfl⟩
  · exact ⟨row, hold, rfl⟩

/-- Closing, whatever days were closed before, leaves these closed. -/
theorem closed_closeDays {closedBefore : ℤ}
    (h : ∀ row ∈ rows, row.day < closedBefore → HasWord rows row.key) :
    ∀ row ∈ closeDays day rows, row.day < closedBefore → HasWord (closeDays day rows) row.key := by
  intro row hrow hday
  rcases mem_closeDays.mp hrow with ⟨k, -, -, -, rfl⟩ | hold
  · exact ⟨skip rows k, hrow, rfl, rfl⟩
  · exact closeDays_hasWord (h row hold hday)

/-- What a waking process leaves: it ends its tick with days closed or not, or it read the config and
the clock and closed every day before. -/
theorem wake_cases (r : Waking) :
    ((world.wake r).phase = .idle ∧ (world.wake r).memory.closedBefore = world.memory.closedBefore ∧
      ((world.wake r).rows = world.rows ∨
        ∃ now, r.clock = some now ∧ (world.wake r).rows = closeDays (today now) world.rows)) ∨
    ∃ config now, r.config = some config ∧ r.clock = some now ∧
      ((world.wake r).phase = .idle ∨ (world.wake r).phase = .listing config now) ∧
      (world.memory.closedBefore < today now ∧ (world.wake r).memory.closedBefore = today now ∧
          (world.wake r).rows = closeDays (today now) world.rows ∨
        today now ≤ world.memory.closedBefore ∧
          (world.wake r).memory.closedBefore = world.memory.closedBefore ∧
          (world.wake r).rows = world.rows) := by
  unfold World.wake
  cases hconfig : r.config with
  | none => exact .inl ⟨rfl, rfl, .inl rfl⟩
  | some config =>
    cases hclock : r.clock with
    | none => exact .inl ⟨rfl, rfl, .inl rfl⟩
    | some now =>
      dsimp only
      by_cases hday : world.memory.closedBefore < today now
      · rw [if_pos hday]
        cases r.closing with
        | stored =>
          dsimp only
          refine .inr ⟨config, now, rfl, rfl, ?_, .inl ⟨hday, ?_, ?_⟩⟩
          · split
            · exact .inl rfl
            · exact .inr rfl
          · split <;> rfl
          · split <;> rfl
        | failed message kept =>
          cases kept with
          | false => exact .inl ⟨rfl, rfl, .inl rfl⟩
          | true => exact .inl ⟨rfl, rfl, .inr ⟨now, rfl, rfl⟩⟩
      · rw [if_neg hday]
        refine .inr ⟨config, now, rfl, rfl, ?_, .inr ⟨not_lt.mp hday, ?_, ?_⟩⟩
        · split
          · exact .inl rfl
          · exact .inr rfl
        · split <;> rfl
        · split <;> rfl

/-- A world whose rows are the ones before, or these closed, is sound if its tick is. -/
theorem State.Sound.closes {s : State} (h : s.Sound) {next : World} (hlater : s.clock ≤ clock)
    (hrows : next.rows = s.world.rows ∨ ∃ day, next.rows = closeDays day s.world.rows)
    (hclosed : ∀ row ∈ next.rows, row.day < next.memory.closedBefore → HasWord next.rows row.key)
    (hclosing : next.memory.closedBefore ≤ today clock) (hphase : next.phase.Sound next.rows clock) :
    State.Sound ⟨next, clock⟩ := by
  have hsame : Once SweepAttempt.key SweepAttempt.isFinal next.rows ∧
      (∀ k, failedAttempts next.rows k = failedAttempts s.world.rows k) ∧
      ∀ row ∈ next.rows, ∃ old ∈ s.world.rows, old.day = row.day := by
    rcases hrows with heq | ⟨day, heq⟩
    · rw [heq]
      exact ⟨h.once, fun _ => rfl, fun row hrow => ⟨row, hrow, rfl⟩⟩
    · rw [heq]
      exact ⟨once_closeDays h.once, fun _ => failedAttempts_closeDays, fun _ => day_closeDays⟩
  refine ⟨h.clock.trans hlater, hsame.1, fun k => ?_, fun row hrow => ?_, hclosed, hclosing, hphase⟩
  · exact (hsame.2.1 k).le.trans (h.bounded k)
  · rcases hsame.2.2 row hrow with ⟨old, hold, hday⟩
    rw [← hday]
    exact ⟨(h.dated old hold).1, (h.dated old hold).2.trans (today_mono hlater)⟩

theorem State.Sound.wake {s : State} (h : s.Sound) {r : Waking} (hlater : s.clock ≤ clock)
    (hread : ∀ now ∈ r.clock.toList, s.clock ≤ now ∧ now ≤ clock) :
    State.Sound ⟨s.world.wake r, clock⟩ := by
  have hclosingSame : s.world.memory.closedBefore ≤ today clock :=
    h.closing.trans (today_mono hlater)
  have hcases := @wake_cases s.world r
  generalize s.world.wake r = next at hcases
  rcases hcases with ⟨hphase, hbefore, hrows⟩ | ⟨config, now, -, hclock, hphase, hcases⟩
  · have hclosed : ∀ row ∈ next.rows, row.day < next.memory.closedBefore → HasWord next.rows row.key := by
      rw [hbefore]
      rcases hrows with heq | ⟨now, -, heq⟩
      · rw [heq]
        exact h.closed
      · rw [heq]
        exact closed_closeDays h.closed
    have hsome : next.rows = s.world.rows ∨ ∃ day, next.rows = closeDays day s.world.rows :=
      hrows.imp id fun hclose => ⟨_, hclose.choose_spec.2⟩
    exact h.closes hlater hsome hclosed (hbefore.le.trans hclosingSame) (by rw [hphase]; trivial)
  · have hnow := hread now (by simp [hclock])
    have hphaseSound : next.phase.Sound next.rows clock := by
      rcases hphase with hidle | hlisting
      · rw [hidle]
        trivial
      · rw [hlisting]
        refine ⟨hnow.2, fun row hrow => ?_⟩
        have hold : ∃ old ∈ s.world.rows, old.day = row.day := by
          rcases hcases with ⟨-, -, heq⟩ | ⟨-, -, heq⟩
          · exact day_closeDays (heq ▸ hrow)
          · exact ⟨row, heq ▸ hrow, rfl⟩
        rcases hold with ⟨old, hmem, hday⟩
        rw [← hday]
        exact (h.dated old hmem).2.trans (today_mono hnow.1)
    rcases hcases with ⟨-, hbefore, hrows⟩ | ⟨-, hbefore, hrows⟩
    · refine h.closes hlater (.inr ⟨_, hrows⟩) ?_ (hbefore.le.trans (today_mono hnow.2)) hphaseSound
      rw [hbefore, hrows]
      exact fun row hrow hday => hasWord_closeDays hrow hday
    · refine h.closes hlater (.inl hrows) ?_ (hbefore.le.trans hclosingSame) hphaseSound
      rw [hbefore, hrows]
      exact h.closed

theorem failuresOn_key {candidate : Candidate} : failuresOn rows day candidate.key =
    failedAttempts rows (candidate.user.user, candidate.paymentToken, day) := by
  unfold failuresOn
  apply List.countP_congr
  intro row _
  simp only [Bool.and_eq_true, decide_eq_true_eq, Bool.not_eq_true', SweepAttempt.key, Prod.mk.injEq]
  constructor
  · intro h
    rcases key_injective h.1.2 with ⟨huser, htoken⟩
    exact ⟨⟨huser, htoken, h.1.1⟩, h.2⟩
  · intro h
    rcases h with ⟨⟨huser, htoken, hday⟩, hfailed⟩
    exact ⟨⟨hday, congrArg₂ key huser htoken⟩, hfailed⟩

theorem open_of_not_decidedOn {candidate : Candidate} (hdays : ∀ row ∈ rows, row.day ≤ today now)
    (h : ¬decidedOn rows (today now) candidate.key) :
    Open rows now candidate (maxFailedAttemptsPerDay - 1) := by
  intro day hday
  rcases not_or.mp h with ⟨hword, hfailures⟩
  rw [failuresOn_key] at hfailures
  rcases hday.eq_or_lt with rfl | hlater
  · refine ⟨fun hhas => hword ?_, by omega⟩
    rcases hhas with ⟨row, hrow, hkey, hfinal⟩
    simp only [SweepAttempt.key, Prod.mk.injEq] at hkey
    exact ⟨row, hrow, hkey.2.2, congrArg₂ key hkey.1 hkey.2.1, hfinal⟩
  · have hnone (row : SweepAttempt) (hrow : row ∈ rows) :
        row.key ≠ (candidate.user.user, candidate.paymentToken, day) := by
      intro hkey
      have hdays := hdays row hrow
      simp only [SweepAttempt.key, Prod.mk.injEq] at hkey
      omega
    refine ⟨?_, ?_⟩
    · intro hhas
      rcases hhas with ⟨row, hrow, hkey, -⟩
      exact hnone row hrow hkey
    · have hzero : failedAttempts rows (candidate.user.user, candidate.paymentToken, day) = 0 := by
        apply List.countP_eq_zero.mpr
        intro row hrow
        simp [hnone row hrow]
      omega

theorem mem_due {config : Laterite.Config} {hostNow : ℤ} {users : List User} {one : Due}
    (h : one ∈ due world config now hostNow users) :
    ¬decidedOn world.rows (today now) one.candidate.key := by
  rcases List.mem_map.mp h with ⟨candidate, hmem, rfl⟩
  have hfilter := (List.mem_filter.mp hmem).2
  rw [Bool.and_eq_true, Bool.not_eq_true', decide_eq_false_iff_not] at hfilter
  exact hfilter.1

theorem nodup_due {config : Laterite.Config} {hostNow : ℤ} {users : List User}
    (h : (users.map fun user => user.user).Nodup) :
    ((due world config now hostNow users).map Due.token).Nodup := by
  unfold due
  rw [List.map_map]
  have hcandidates := @nodup_sweepCandidates (users.map User.toEnrolledUser)
    (Client.Config.of config) now (by rwa [List.map_map])
  exact hcandidates.sublist (List.filter_sublist.map _)

theorem State.Sound.list {s : State} (h : s.Sound) {config : Laterite.Config} {r : Listing}
    (hlisting : s.world.phase = .listing config now) (hlater : s.clock ≤ clock)
    (husers : ∀ users, r.users = some users → (users.map fun user => user.user).Nodup) :
    State.Sound ⟨s.world.list config now r, clock⟩ := by
  have hphase := h.phase
  rw [hlisting] at hphase
  unfold World.list
  split
  · rename_i users mints hread hmints hattempts
    refine h.closes hlater (.inl rfl) h.closed (h.closing.trans (today_mono hlater)) ?_
    have hopen : ∀ one ∈ due s.world config now r.hostNow users,
        Open s.world.rows now one.candidate (maxFailedAttemptsPerDay - 1) := fun one hone =>
      open_of_not_decidedOn hphase.2 (mem_due hone)
    refine ⟨hphase.1.trans hlater, nodup_due (husers users hread), fun one hone => ?_, fun one hone => ?_⟩
    · exact hopen one (List.mem_of_mem_tail hone)
    · exact ⟨by decide, hopen one (List.mem_of_mem_head? hone)⟩
  · exact h.closes hlater (.inl rfl) h.closed (h.closing.trans (today_mono hlater)) trivial

theorem closedBefore_perform {candidate : Candidate} {failures : ℕ} {r : Readings} {plan : Plan}
    {memory : Memory} :
    (perform setup candidate failures r plan rows memory).2.1.closedBefore = memory.closedBefore := by
  unfold perform
  cases plan.repegAlarm <;> cases plan.row <;> cases r.insertion <;> cases plan.otherwise <;>
    cases r.reinsertion <;> cases plan.alarm <;> cases plan.excludes <;> rfl

theorem closedBefore_follow {key : String} {failures builds : ℕ} {hostNow : ℤ} {memory : Memory}
    {next : Next} :
    (follow setup key failures builds hostNow memory next).1.closedBefore = memory.closedBefore := by
  cases next with
  | again locals =>
    rw [follow]
    split <;> rfl
  | _ => rfl

theorem follow_cases {key : String} {failures builds : ℕ} {hostNow : ℤ} {memory : Memory} {next : Next} :
    (follow setup key failures builds hostNow memory next).2 = none ∨
      ∃ locals, next.GoesOn ∧ builds + 1 < maxBuilds ∧
        (follow setup key failures builds hostNow memory next).2 = some (locals, builds + 1) := by
  cases next with
  | again locals =>
    rw [follow]
    split
    · rename_i hmore
      exact .inr ⟨locals, trivial, hmore, rfl⟩
    · exact .inl rfl
  | _ => exact .inl rfl

theorem State.Sound.records {s : State} (h : s.Sound) {batch : Batch} {current : Due} {rest : List Due}
    {progress : Option (Locals × ℕ)} {clocks : List ℤ} {next : Next} {memory : Memory}
    (hphase : (Phase.sweeping batch (current :: rest) progress).Sound s.world.rows s.clock)
    (hrecords : Records current.candidate clocks s.world.rows rows next)
    (hlater : s.clock ≤ clock) (hread : ∀ at_ ∈ clocks, s.clock ≤ at_ ∧ at_ ≤ clock)
    (hbefore : memory.closedBefore = s.world.memory.closedBefore)
    {progress' : Option (Locals × ℕ)} (hprogress : progress' = none ∨
      ∃ locals, next.GoesOn ∧ made progress + 1 < maxBuilds ∧ progress' = some (locals, made progress + 1)) :
    State.Sound ⟨⟨rows, memory, .sweeping batch (if progress'.isSome then current :: rest else rest)
      progress'⟩, clock⟩ := by
  rcases hphase with ⟨hnow, hnodup, hrest, hcurrent⟩
  rcases hcurrent current rfl with ⟨hmade, hopen⟩
  have hafter : ∀ at_ ∈ clocks, batch.now ≤ at_ := fun at_ hat => hnow.trans (hread at_ hat).1
  have hothers : ∀ one ∈ rest, Open rows batch.now one.candidate (maxFailedAttemptsPerDay - 1) := by
    intro one hone day hday
    have htoken : one.token ≠ current.token := by
      rw [List.map_cons, List.nodup_cons] at hnodup
      intro heq
      exact hnodup.1 (heq ▸ List.mem_map_of_mem hone)
    have hsame : ∀ at_ ∈ clocks, (current.candidate.user.user, current.candidate.paymentToken,
        today at_) ≠ (one.candidate.user.user, one.candidate.paymentToken, day) := by
      intro at_ _ heq
      rw [Prod.mk.injEq, Prod.mk.injEq] at heq
      exact htoken (Prod.ext heq.1.symm heq.2.1.symm)
    rw [(hrecords.other hsame).1, (hrecords.other hsame).2]
    exact hrest one hone day hday
  refine ⟨h.clock.trans hlater, hrecords.once hopen hafter h.once, ?_, ?_, ?_, ?_, ?_⟩
  · intro k
    by_cases hmine : ∃ at_ ∈ clocks, (current.candidate.user.user, current.candidate.paymentToken,
        today at_) = k
    · rcases hmine with ⟨at_, hat, rfl⟩
      have hfew := (hopen (today at_) (today_mono (hafter at_ hat))).2
      have hadds := hrecords.failedAttempts_le (current.candidate.user.user,
        current.candidate.paymentToken, today at_)
      unfold mostFailed
      unfold maxFailedAttemptsPerDay maxBuilds at *
      exact hadds.trans (by omega)
    · rw [(hrecords.other fun at_ hat heq => hmine ⟨at_, hat, heq⟩).2]
      exact h.bounded k
  · intro row hrow
    rcases hrecords.dated hrow with hold | ⟨at_, hat, hday⟩
    · exact ⟨(h.dated row hold).1, (h.dated row hold).2.trans (today_mono hlater)⟩
    · rw [hday]
      exact ⟨today_nonneg (h.clock.trans (hread at_ hat).1), today_mono (hread at_ hat).2⟩
  · intro row hrow hclosed
    change row.day < memory.closedBefore at hclosed
    rw [hbefore] at hclosed
    rcases hrecords.dated hrow with hold | ⟨at_, hat, hday⟩
    · exact hrecords.hasWord (h.closed row hold hclosed)
    · have hlate := h.closing.trans (today_mono (hread at_ hat).1)
      omega
  · exact hbefore.le.trans (h.closing.trans (today_mono hlater))
  · rcases hprogress with rfl | ⟨locals, hgoes, hmore, rfl⟩
    · refine ⟨hnow.trans hlater, (List.nodup_cons.mp hnodup).2, ?_, ?_⟩
      · exact fun one hone => hothers one (List.mem_of_mem_tail hone)
      · exact fun one hone => ⟨by decide, hothers one (List.mem_of_mem_head? hone)⟩
    · refine ⟨hnow.trans hlater, hnodup, hothers, ?_⟩
      intro one hone
      obtain rfl : current = one := Option.some.inj hone
      refine ⟨hmore, fun day hday => ⟨hrecords.undecided hgoes (hopen day hday).1, ?_⟩⟩
      have hadds := hrecords.failedAttempts_le (current.candidate.user.user,
        current.candidate.paymentToken, day)
      have hfew := (hopen day hday).2
      change failedAttempts rows _ ≤ maxFailedAttemptsPerDay - 1 + (made progress + 1)
      omega

theorem State.Sound.build {s : State} (h : s.Sound) {batch : Batch} {current : Due} {rest : List Due}
    {progress : Option (Locals × ℕ)} {r : Readings}
    (hphase : s.world.phase = .sweeping batch (current :: rest) progress)
    (hlater : s.clock ≤ clock) (hread : ∀ at_ ∈ r.clocks, s.clock ≤ at_ ∧ at_ ≤ clock) :
    State.Sound ⟨s.world.build setup batch current rest progress r, clock⟩ := by
  have hsound := h.phase
  rw [hphase] at hsound
  have hrecords := @perform_records setup batch.paused current.candidate
    (batch.failed current.candidate.key) (carried batch current progress) r
    (s.world.plan setup batch current progress r) s.world.rows s.world.memory build_sound
  exact h.records hsound hrecords hlater hread (closedBefore_follow.trans closedBefore_perform)
    follow_cases

theorem State.Sound.step {t : Transition State Event} (h : t.before.Sound) (hstep : Step setup t) :
    t.after.Sound := by
  have htaken := hstep.taken
  have hdistinct := hstep.distinct
  have hlater := hstep.later
  have hread := hstep.read
  have hafter (world : World) (heq : world = t.after.world)
      (hsound : State.Sound ⟨world, t.after.clock⟩) : t.after.Sound := by
    rw [heq] at hsound
    exact hsound
  cases hevent : t.event with
  | crashed =>
    rw [hevent, World.step, Option.some.injEq] at htaken
    refine hafter _ htaken (h.closes hlater (.inl rfl) ?_ ?_ trivial)
    · intro row hrow hday
      exact absurd (h.dated row hrow).1 (not_le.mpr hday)
    · exact today_nonneg (h.clock.trans hlater)
  | woke r =>
    rw [hevent] at htaken hread
    simp only [World.step] at htaken
    split at htaken
    · rw [Option.some.injEq] at htaken
      exact hafter _ htaken (h.wake hlater hread)
    · cases htaken
  | listed r =>
    rw [hevent] at htaken hdistinct
    simp only [World.step] at htaken
    split at htaken
    · rename_i config now hphase
      rw [Option.some.injEq] at htaken
      exact hafter _ htaken (h.list hphase hlater hdistinct)
    · cases htaken
  | built r =>
    rw [hevent] at htaken hread
    simp only [World.step] at htaken
    split at htaken
    · rename_i batch current rest progress hphase
      rw [Option.some.injEq] at htaken
      exact hafter _ htaken (h.build hphase hlater hread)
    · cases htaken
  | rested hostNow =>
    rw [hevent] at htaken
    simp only [World.step] at htaken
    split at htaken
    · rw [Option.some.injEq] at htaken
      exact hafter _ htaken (h.closes hlater (.inl rfl) h.closed
        (h.closing.trans (today_mono hlater)) trivial)
    · cases htaken

abbrev CrankRun (setup : Setup) (clock : ℤ) (h : List (Transition State Event)) (s : State) : Prop :=
  Run (Step setup) (State.start clock) h s

variable {h : List (Transition State Event)} {s : State}

theorem CrankRun.sound (hrun : CrankRun setup clock h s) (hclock : 0 ≤ clock) : s.Sound :=
  hrun.invariant (.start hclock) fun _ hstep hsound => hsound.step hstep

def handedBy (setup : Setup) (t : Transition State Event) : Option (Candidate × SweepState × BuiltSweep) :=
  match t.before.world.phase, t.event with
  | .sweeping batch (current :: _) progress, .built r =>
    (t.before.world.plan setup batch current progress r).handed.map fun handed =>
      (current.candidate, handed)
  | _, _ => none

theorem handedBy_eq_some {t : Transition State Event} {candidate : Candidate} {state : SweepState}
    {built : BuiltSweep} (h : handedBy setup t = some (candidate, state, built)) :
    ∃ batch current rest progress r, t.before.world.phase = .sweeping batch (current :: rest) progress ∧
      t.event = .built r ∧ current.candidate = candidate ∧
      (t.before.world.plan setup batch current progress r).handed = some (state, built) := by
  unfold handedBy at h
  split at h
  · rename_i batch current rest progress r hphase hevent
    rcases Option.map_eq_some_iff.mp h with ⟨handed, hhanded, heq⟩
    cases heq
    exact ⟨batch, current, rest, progress, r, hphase, hevent, rfl, hhanded⟩
  · cases h

/-- Each token has at most one final word a day. -/
theorem one_final_word (hrun : CrankRun setup clock h s) (hclock : 0 ≤ clock) (user : Pubkey)
    (paymentToken : ℕ) (day : ℤ) : finalWords s.world.rows (user, paymentToken, day) ≤ 1 :=
  (hrun.sound hclock).once (user, paymentToken, day)

/-- Nothing is handed over for a token on a day that has its final word. -/
theorem nothing_sent_after_final_word (hrun : CrankRun setup clock h s) (hclock : 0 ≤ clock)
    {t : Transition State Event} (ht : t ∈ h) {candidate : Candidate} {state : SweepState}
    {built : BuiltSweep} (hands : handedBy setup t = some (candidate, state, built)) :
    ¬HasWord t.before.world.rows (candidate.user.user, candidate.paymentToken, today state.now) := by
  rcases handedBy_eq_some hands with ⟨batch, current, rest, progress, r, hphase, hevent, rfl, hhanded⟩
  rcases hrun.at_mem ht with ⟨older, -, hbefore, hstep, -⟩
  have hsound := (CrankRun.sound hbefore hclock).phase
  rw [hphase] at hsound
  have hread := hstep.read
  rw [hevent] at hread
  have hclocks := (build_sound.handed state built hhanded).1
  exact ((hsound.2.2.2 current rfl).2 (today state.now)
    (today_mono (hsound.1.trans (hread _ hclocks).1))).1

/-- Past a check that fails comes what is built after it. -/
theorem of_unless {ε α : Type} {c : Prop} [Decidable c] {error : ε} {rest : Except ε α} {value : α}
    (h : (if c then .error error else rest) = .ok value) : rest = .ok value := by
  split at h
  · cases h
  · exact h

theorem pullTotal_ne_zero {state : SweepState} {pull : Client.Pull} (h : getSweepPull state = .ok pull) :
    pullTotal pull ≠ 0 := by
  have hswept := of_unless (of_unless h)
  have hstanding := of_unless (of_unless (of_unless (of_unless (of_unless hswept))))
  have hcapped := of_unless (of_unless hstanding)
  dsimp only at hcapped
  split at hcapped
  · cases hcapped
  · rename_i hzero
    have hpull := of_unless hcapped
    cases hpull
    exact hzero

/-- What is handed over was built past every check, of a pull that is not empty. -/
theorem handed_sweep_ready {t : Transition State Event} {candidate : Candidate} {state : SweepState}
    {built : BuiltSweep} (hands : handedBy setup t = some (candidate, state, built)) :
    ∃ batch current rest progress r, t.before.world.phase = .sweeping batch (current :: rest) progress ∧
      t.event = .built r ∧ pullTotal built.pull ≠ 0 ∧
      Ready setup batch.paused candidate (carried batch current progress) r state built := by
  rcases handedBy_eq_some hands with ⟨batch, current, rest, progress, r, hphase, hevent, rfl, hhanded⟩
  have hready := (build_sound.handed state built hhanded).2
  exact ⟨batch, current, rest, progress, r, hphase, hevent, pullTotal_ne_zero hready.pull, hready⟩

/-- A day's failed attempts on a token are at most the bound and what its last sweep adds past it. -/
theorem failed_attempts_bounded (hrun : CrankRun setup clock h s) (hclock : 0 ≤ clock) (user : Pubkey)
    (paymentToken : ℕ) (day : ℤ) :
    failedAttempts s.world.rows (user, paymentToken, day) ≤
      maxFailedAttemptsPerDay - 1 + maxBuilds :=
  (hrun.sound hclock).bounded (user, paymentToken, day)

/-- Once the crank woke, each earlier day of a token it ever recorded under has exactly one final word,
unless the days could not be closed. -/
theorem closed_days_have_one_word (hrun : CrankRun setup clock h s) (hclock : 0 ≤ clock)
    {t : Transition State Event} (ht : t ∈ h) {r : Waking} (hwoke : t.event = .woke r) {now : ℤ}
    (hread : r.clock = some now) (hconfig : r.config.isSome = true) (hclosing : r.closing = .stored)
    {row : SweepAttempt} (hrow : row ∈ t.after.world.rows) (hday : row.day < today now) :
    finalWords t.after.world.rows row.key = 1 := by
  rcases hrun.at_mem ht with ⟨older, hafter, hbefore, hstep, -⟩
  have hsound := CrankRun.sound hafter hclock
  have htaken := hstep.taken
  rw [hwoke] at htaken
  simp only [World.step] at htaken
  split at htaken
  · rw [Option.some.injEq] at htaken
    have hword : HasWord t.after.world.rows row.key := by
      apply hsound.closed row hrow
      rw [← htaken]
      have hlate : today now ≤ (t.before.world.wake r).memory.closedBefore := by
        rcases Option.isSome_iff_exists.mp hconfig with ⟨config, hsome⟩
        unfold World.wake
        rw [hsome, hread, hclosing]
        dsimp only
        split
        · split <;> exact le_refl _
        · rename_i hclosed
          split <;> exact not_lt.mp hclosed
      exact hday.trans_le hlate
    have hpositive := decided_iff_words.mp hword
    exact Nat.le_antisymm (hsound.once row.key) hpositive
  · cases htaken

theorem mem_perform {paused : List Pubkey} {candidate : Candidate} {failures : ℕ} {locals : Locals}
    {r : Readings} {plan : Plan} {memory : Memory} (hsound : plan.Sound setup paused candidate locals r)
    (hrow : row ∈ (perform setup candidate failures r plan rows memory).1) :
    row ∈ rows ∨ row.isFinal = false ∨
      ∃ day attempt, row = candidate.row day attempt ∧ Grounds setup paused candidate locals r attempt := by
  have hadded {day : ℤ} {attempt : Attempt} (hplan : plan.row = some (day, attempt)) :
      (candidate.row day attempt).isFinal = false ∨ ∃ other said, candidate.row day attempt =
        candidate.row other said ∧ Grounds setup paused candidate locals r said := by
    by_cases hword : attempt.outcome = .failed
    · exact .inl (isFinal_row_eq_false.mpr hword)
    · exact .inr ⟨day, attempt, rfl, (hsound.ends day attempt hplan hword).2⟩
  have hagain {day : ℤ} {attempt : Attempt} {message : String} (hplan : plan.otherwise = some attempt) :
      (candidate.row day { attempt with reason := some message }).isFinal = false :=
    isFinal_row_eq_false.mpr (hsound.otherwise attempt hplan).1
  unfold perform at hrow
  cases hplan : plan.row with
  | none =>
    rw [hplan] at hrow
    exact .inl hrow
  | some dated =>
    rcases dated with ⟨day, attempt⟩
    rw [hplan] at hrow
    have hfirst := hadded hplan
    cases hinsertion : r.insertion with
    | stored =>
      rw [hinsertion] at hrow
      rcases List.mem_cons.mp hrow with rfl | hold
      · exact .inr hfirst
      · exact .inl hold
    | failed message kept =>
      have hkept : ∀ row ∈ (if kept = true then candidate.row day attempt :: rows else rows), row ∈ rows ∨
          row.isFinal = false ∨ ∃ other said, row = candidate.row other said ∧
            Grounds setup paused candidate locals r said := by
        intro row hrow
        cases kept with
        | false => exact .inl hrow
        | true =>
          rcases List.mem_cons.mp hrow with rfl | hold
          · exact .inr hfirst
          · exact .inl hold
      rw [hinsertion] at hrow
      cases hotherwise : plan.otherwise with
      | none =>
        rw [hotherwise] at hrow
        exact hkept row hrow
      | some second =>
        rw [hotherwise] at hrow
        cases hreinsertion : r.reinsertion with
        | stored =>
          rw [hreinsertion] at hrow
          rcases List.mem_cons.mp hrow with rfl | hold
          · exact .inr (.inl (hagain hotherwise))
          · exact hkept row hold
        | failed other keptToo =>
          rw [hreinsertion] at hrow
          cases keptToo with
          | false => exact hkept row hrow
          | true =>
            rcases List.mem_cons.mp hrow with rfl | hold
            · exact .inr (.inl (hagain hotherwise))
            · exact hkept row hold

/-- A transition's build said the row's word, on grounds it met. -/
def Says (setup : Setup) (t : Transition State Event) (row : SweepAttempt) : Prop :=
  ∃ batch current rest progress r day attempt,
    t.before.world.phase = .sweeping batch (current :: rest) progress ∧ t.event = .built r ∧
    row = current.candidate.row day attempt ∧
    Grounds setup batch.paused current.candidate (carried batch current progress) r attempt

def Closes (t : Transition State Event) (row : SweepAttempt) : Prop :=
  ∃ r now, t.event = .woke r ∧ r.clock = some now ∧ row.day < today now ∧ row.outcome = .skipped ∧
    0 < failedAttempts t.before.world.rows row.key ∧ ¬HasWord t.before.world.rows row.key

theorem closes_of_mem_closeDays {t : Transition State Event} {r : Waking} (hwoke : t.event = .woke r)
    (hread : r.clock = some now) (hrow : row ∈ closeDays (today now) t.before.world.rows) :
    row ∈ t.before.world.rows ∨ Closes t row := by
  rcases mem_closeDays.mp hrow with ⟨k, ⟨old, hold, hkey⟩, hday, hnone, rfl⟩ | hold
  · have hattempt : old.isFinal = false := by
      rw [Bool.eq_false_iff]
      intro hfinal
      exact hnone ⟨old, hold, hkey, hfinal⟩
    exact .inr ⟨r, now, hwoke, hread, hday, rfl, attempts_pos hold hkey hattempt, hnone⟩
  · exact .inl hold

theorem Step.final_row {t : Transition State Event} (hstep : Step setup t)
    (hrow : row ∈ t.after.world.rows) (hfinal : row.isFinal = true) :
    row ∈ t.before.world.rows ∨ Says setup t row ∨ Closes t row := by
  have htaken := hstep.taken
  cases hevent : t.event with
  | crashed =>
    rw [hevent, World.step, Option.some.injEq] at htaken
    rw [← htaken] at hrow
    exact .inl hrow
  | woke r =>
    rw [hevent] at htaken
    simp only [World.step] at htaken
    split at htaken
    · rw [Option.some.injEq] at htaken
      rw [← htaken] at hrow
      rcases @wake_cases t.before.world r with ⟨-, -, hrows⟩ | ⟨config, now, -, hclock, -, hcases⟩
      · rcases hrows with heq | ⟨now, hclock, heq⟩
        · exact .inl (heq ▸ hrow)
        · exact (closes_of_mem_closeDays hevent hclock (heq ▸ hrow)).imp id .inr
      · rcases hcases with ⟨-, -, heq⟩ | ⟨-, -, heq⟩
        · exact (closes_of_mem_closeDays hevent hclock (heq ▸ hrow)).imp id .inr
        · exact .inl (heq ▸ hrow)
    · cases htaken
  | listed r =>
    rw [hevent] at htaken
    simp only [World.step] at htaken
    split at htaken
    · rename_i config now hphase
      rw [Option.some.injEq] at htaken
      rw [← htaken] at hrow
      left
      unfold World.list at hrow
      split at hrow
      · exact hrow
      · exact hrow
    · cases htaken
  | built r =>
    rw [hevent] at htaken
    simp only [World.step] at htaken
    split at htaken
    · rename_i batch current rest progress hphase
      rw [Option.some.injEq] at htaken
      rw [← htaken] at hrow
      rcases mem_perform build_sound hrow with hold | hfailed | ⟨day, attempt, heq, hgrounds⟩
      · exact .inl hold
      · rw [hfailed] at hfinal
        cases hfinal
      · exact .inr (.inl ⟨batch, current, rest, progress, r, day, attempt, hphase, hevent, heq, hgrounds⟩)
    · cases htaken
  | rested hostNow =>
    rw [hevent] at htaken
    simp only [World.step] at htaken
    split at htaken
    · rw [Option.some.injEq] at htaken
      rw [← htaken] at hrow
      exact .inl hrow
    · cases htaken

/-- Every final word was said by a build, on grounds it met, or is the skip of a closed day whose
attempts all failed. -/
theorem final_words_grounded (hrun : CrankRun setup clock h s) {row : SweepAttempt}
    (hrow : row ∈ s.world.rows) (hfinal : row.isFinal = true) :
    ∃ t ∈ h, Says setup t row ∨ Closes t row := by
  have hall := hrun.induct (J := fun h s => ∀ row ∈ s.world.rows, row.isFinal = true →
    ∃ t ∈ h, Says setup t row ∨ Closes t row) (by simp [State.start]) (by
      intro h t _ _ hstep ih row hrow hfinal
      rcases hstep.final_row hrow hfinal with hold | hnew
      · rcases ih row hold hfinal with ⟨p, hp, hsaid⟩
        exact ⟨p, List.mem_cons_of_mem t hp, hsaid⟩
      · exact ⟨t, List.mem_cons_self, hnew⟩)
  exact hall row hrow hfinal

end

namespace CrankRehearsal

open Rehearsal (address)

def setup : Setup where
  addresses := SweepRehearsal.addresses
  transactionSize := fun _ _ _ => some 1200
  programs := ⟨address 201, address 203, address 204, address 205, address 208, address 209, address 6, 400⟩
  crank := address 13
  retryAfterMs := retryAfterMs

/-- An update of the first asset's feed, at 600 dollars. -/
def message : List UInt8 :=
  let payload := LittleEndian.bytes 4 payloadFormatMagic ++ List.replicate 9 0 ++ [1] ++
    LittleEndian.bytes 4 7 ++ [4] ++ 0 :: LittleEndian.bytes 8 60000000000 ++
    4 :: LittleEndian.bytes 2 65528 ++ 5 :: LittleEndian.bytes 8 1000 ++
    12 :: 1 :: LittleEndian.bytes 8 1700000090000000
  LittleEndian.bytes 4 solanaFormatMagic ++ List.replicate 96 0 ++
    LittleEndian.bytes 2 payload.length ++ payload

def readings (send : Sent) : Readings where
  started := 0
  clock := some 1700000100
  asset := fun _ _ => some (some ⟨message, 1700000090, 0⟩)
  state := some (newcomerState, 0)
  payment := fun _ _ => none
  repeg := fun _ _ _ _ => .ok ()
  pythTreasury := some (address 11)
  routes := fun _ => .ok ⟨⟨SweepRehearsal.config.router, none, none⟩, 400000, ["Whirlpool"]⟩
  send := fun _ _ => send
  confirmedAt := 900
  config := none
  insertion := .stored
  reinsertion := .stored
  hostNow := 1000

def customer : User := ⟨EnrolledUser.of newcomer, 0⟩

/-- A sweep too large to send, another that lands, and the next day. -/
def events : List (ℤ × Event) :=
  [(1700086500, .woke ⟨some SweepRehearsal.config, some 1700086500, .stored, 86401000⟩),
    (1700000100, .rested 1000),
    (1700000100, .built (readings (.landed ⟨400000, 390000, 5000, 70000, 0, "5s1g", 1200⟩ none))),
    (1700000100, .built (readings (.computeLimitExceeded 500000 490000))),
    (1700000100, .listed ⟨some [customer], some [], true, 1000⟩),
    (1700000100, .woke ⟨some SweepRehearsal.config, some 1700000100, .stored, 1000⟩)]

def after (s : State) (step : ℤ × Event) : State := ⟨(s.world.step setup step.2).getD s.world, step.1⟩

/-- The history and the state that events lead to, the latest first. -/
def past : List (ℤ × Event) → List (Transition State Event) × State
  | [] => ([], State.start 1700000100)
  | step :: earlier =>
    let (h, s) := past earlier
    (⟨step.1, step.2, s, after s step⟩ :: h, after s step)

/-- Each event can happen where the ones before lead, and reads the clock in order. -/
def Fits : List (ℤ × Event) → Prop
  | [] => True
  | step :: earlier =>
    Fits earlier ∧ ((past earlier).2.world.step setup step.2).isSome = true ∧
      (past earlier).2.clock ≤ step.1 ∧
      (∀ clock ∈ step.2.clocks, (past earlier).2.clock ≤ clock ∧ clock ≤ step.1) ∧
      (∀ p ∈ (past earlier).1, p.now ≤ step.1) ∧ step.2.Distinct

theorem past_run {events : List (ℤ × Event)} (h : Fits events) :
    CrankRun setup 1700000100 (past events).1 (past events).2 := by
  induction events with
  | nil => exact .start
  | cons step earlier ih =>
    rcases h with ⟨hearlier, htaken, hlater, hread, hnow, hdistinct⟩
    rcases Option.isSome_iff_exists.mp htaken with ⟨next, hnext⟩
    apply Run.next (ih hearlier) hnow
    refine ⟨?_, hlater, hread, rfl, hdistinct⟩
    change (past earlier).2.world.step setup step.2 = some (after (past earlier).2 step).world
    rw [after, hnext]
    rfl

theorem events_fit : Fits events := by
  refine ⟨⟨⟨⟨⟨⟨trivial, ?_⟩, ?_⟩, ?_⟩, ?_⟩, ?_⟩, ?_⟩
  all_goals
    refine ⟨by decide +kernel, by decide +kernel, by decide +kernel, by decide +kernel, ?_⟩
  · trivial
  · intro users husers
    cases husers
    decide
  · trivial
  · trivial
  · trivial
  · trivial

theorem events_run : CrankRun setup 1700000100 (past events).1 (past events).2 := past_run events_fit

end CrankRehearsal

open CrankRehearsal in
theorem one_final_word_landed :
    finalWords (past events).2.world.rows (newcomer.user, 0, 19675) = 1 ∧
      finalWords (past events).2.world.rows (newcomer.user, 0, 19675) ≤ 1 :=
  ⟨by decide +kernel, one_final_word events_run (by decide) newcomer.user 0 19675⟩

open CrankRehearsal in
theorem failed_attempts_bounded_landed :
    failedAttempts (past events).2.world.rows (newcomer.user, 0, 19675) = 1 ∧
      failedAttempts (past events).2.world.rows (newcomer.user, 0, 19675) ≤ 14 :=
  ⟨by decide +kernel, failed_attempts_bounded events_run (by decide) newcomer.user 0 19675⟩

open CrankRehearsal in
/-- The sweep that lands is handed over with no word for the day yet. -/
theorem nothing_sent_after_final_word_landed :
    ∃ t ∈ (past events).1, ∃ candidate state built,
      handedBy setup t = some (candidate, state, built) ∧
      ¬HasWord t.before.world.rows (candidate.user.user, candidate.paymentToken, today state.now) := by
  have ht : (past events).1[2] ∈ (past events).1 := List.getElem_mem _
  have hsome : (handedBy setup (past events).1[2]).isSome = true := by decide +kernel
  rcases Option.isSome_iff_exists.mp hsome with ⟨⟨candidate, state, built⟩, hands⟩
  exact ⟨_, ht, candidate, state, built, hands, nothing_sent_after_final_word events_run (by decide) ht hands⟩

open CrankRehearsal in
theorem handed_sweep_ready_landed :
    ∃ candidate state built, handedBy setup (past events).1[2] = some (candidate, state, built) ∧
      pullTotal built.pull ≠ 0 := by
  have hsome : (handedBy setup (past events).1[2]).isSome = true := by decide +kernel
  rcases Option.isSome_iff_exists.mp hsome with ⟨⟨candidate, state, built⟩, hands⟩
  rcases handed_sweep_ready hands with ⟨_, _, _, _, _, -, -, hpull, -⟩
  exact ⟨candidate, state, built, hands, hpull⟩

open CrankRehearsal in
/-- The next day finds the landed sweep's word. -/
theorem closed_days_have_one_word_landed :
    ∃ row ∈ (past events).2.world.rows, finalWords (past events).2.world.rows row.key = 1 := by
  have ht : (past events).1[0] ∈ (past events).1 := List.getElem_mem _
  have hany : (past events).2.world.rows.any (fun row => row.day < today 1700086500) = true := by
    decide +kernel
  rcases List.any_eq_true.mp hany with ⟨row, hrow, hday⟩
  exact ⟨row, hrow, closed_days_have_one_word events_run (by decide) ht rfl rfl rfl rfl hrow
    (of_decide_eq_true hday)⟩

open CrankRehearsal in
theorem final_words_grounded_landed :
    ∃ row ∈ (past events).2.world.rows, row.isFinal = true ∧
      ∃ t ∈ (past events).1, Says setup t row ∨ Closes t row := by
  have hany : (past events).2.world.rows.any SweepAttempt.isFinal = true := by decide +kernel
  rcases List.any_eq_true.mp hany with ⟨row, hrow, hfinal⟩
  exact ⟨row, hrow, hfinal, final_words_grounded events_run hrow hfinal⟩

end Laterite.Crank
