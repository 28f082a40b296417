import Mathlib.Data.List.Nodup
import Mathlib.Logic.Function.Basic
import Mathlib.Tactic.Linarith

/-!
# The operations alarms

An alarm is one stored row for each key. A call of `set` brings the alarms it reports to their state
and tells the operator, who may not be reached: a notice is attempted when an alarm starts, every
`repeatMs` while it fires and once when it resolves.

What the operator is owed is told for each key from its episodes alone. The row also remembers when
an earlier episode was notified, and an episode whose first notice was not delivered is then taken
for one that was.
-/

namespace Laterite.Alarms

structure Row where
  changedAt : ℤ
  firing : Bool
  message : String
  notifiedAt : Option ℤ

abbrev Table := String → Option Row

inductive Label where
  | firing
  | stillFiring
  | resolved
  deriving DecidableEq

def Label.text : Label → String
  | .firing => "FIRING"
  | .stillFiring => "STILL FIRING"
  | .resolved => "RESOLVED"

structure Notice where
  label : Label
  key : String
  message : String
  deriving DecidableEq

/-- The line sent to the operator, under the deployment's heading. -/
def Notice.text (heading : String) (notice : Notice) : String :=
  heading ++ " " ++ notice.label.text ++ " " ++ notice.key ++ ": " ++ notice.message

example : Notice.text "[laterite devnet]" ⟨.stillFiring, "indexer", "stalled"⟩ =
    "[laterite devnet] STILL FIRING indexer: stalled" := by decide

/-- One call: what it reports of each alarm, a message that fires it or nothing, its clock, and
whether the notice it attempts for a key is delivered. -/
structure SetCall where
  states : List (String × Option String)
  now : ℤ
  delivered : String → Bool
  nodup : (states.map Prod.fst).Nodup

section

variable (repeatMs : ℤ)

/-- One alarm brought to its state: the notice attempted, and the row left. -/
def setOne (now : ℤ) (delivered : Bool) (key : String) (row : Option Row) :
    Option String → Option Notice × Option Row
  | none =>
    match row with
    | none => (none, none)
    | some row =>
      if row.firing then
        (some ⟨.resolved, key, row.message⟩, some { row with changedAt := now, firing := false })
      else (none, some row)
  | some message =>
    let started := row.all fun row => !row.firing
    let notifiedAt := row.bind Row.notifiedAt
    let due := started || notifiedAt.all fun last => now - last ≥ repeatMs
    let label := if started || notifiedAt.isNone then Label.firing else .stillFiring
    let notified := due && delivered
    (if due then some ⟨label, key, message⟩ else none,
      some {
        changedAt := if started then now else (row.map Row.changedAt).getD now
        firing := true
        message := message
        notifiedAt := if notified then some now else notifiedAt })

/-- The alarms reported, one after another, over the rows read when the call began. -/
def setEach (call : SetCall) (stored : Table) :
    List (String × Option String) → Table → List Notice × Table
  | [], table => ([], table)
  | (key, message) :: states, table =>
    let one := setOne repeatMs call.now (call.delivered key) key (stored key) message
    let rest := setEach call stored states (Function.update table key one.2)
    (one.1.toList ++ rest.1, rest.2)

def set (call : SetCall) (table : Table) : List Notice × Table :=
  setEach repeatMs call table call.states table

def notices : Table → List SetCall → List (List Notice)
  | _, [] => []
  | table, call :: calls => (set repeatMs call table).1 :: notices (set repeatMs call table).2 calls

end

def SetCall.report (call : SetCall) (key : String) : Option (Option String) := call.states.lookup key

/-- Where a key's current episode stands: none, none of its notices delivered, or one delivered at
`since` and the next one attempted since then without success or not. -/
inductive Phase where
  | quiet
  | unnotified (message : String)
  | notified (message : String) (since : ℤ) (overdue : Bool)

namespace Phase

variable (repeatMs : ℤ)

def owed (now : ℤ) (key : String) : Phase → Option (Option String) → Option Notice
  | _, none => none
  | .quiet, some none => none
  | .unnotified last, some none => some ⟨.resolved, key, last⟩
  | .notified last _ _, some none => some ⟨.resolved, key, last⟩
  | .quiet, some (some message) => some ⟨.firing, key, message⟩
  | .unnotified _, some (some message) => some ⟨.firing, key, message⟩
  | .notified _ since overdue, some (some message) =>
    if overdue = true ∨ repeatMs ≤ now - since then some ⟨.stillFiring, key, message⟩ else none

/-- The episode after a report. -/
def after (now : ℤ) (delivered : Bool) : Phase → Option (Option String) → Phase
  | phase, none => phase
  | _, some none => .quiet
  | .quiet, some (some message) =>
    if delivered then .notified message now false else .unnotified message
  | .unnotified _, some (some message) =>
    if delivered then .notified message now false else .unnotified message
  | .notified _ since overdue, some (some message) =>
    if overdue = true ∨ repeatMs ≤ now - since then
      if delivered then .notified message now false else .notified message since true
    else .notified message since overdue

/-- One of the episode's notices was delivered. -/
def isNotified : Phase → Bool
  | .notified _ _ _ => true
  | _ => false

/-- The episode began and none of its notices was delivered. -/
def isUnnotified : Phase → Bool
  | .unnotified _ => true
  | _ => false

end Phase

section

variable (repeatMs : ℤ) (key : String)

def owedNotices : Phase → List SetCall → List (List Notice)
  | _, [] => []
  | phase, call :: calls =>
    (phase.owed repeatMs call.now key (call.report key)).toList ::
      owedNotices (phase.after repeatMs call.now (call.delivered key) (call.report key)) calls

/-- No report of the key comes in an episode of which every notice failed once an earlier episode's
was delivered; `told` when one was. -/
def Unmistaken : Phase → Bool → List SetCall → Prop
  | _, _, [] => True
  | phase, told, call :: calls =>
    ¬(told = true ∧ phase.isUnnotified = true ∧ ∃ message, call.report key = some (some message)) ∧
      Unmistaken (phase.after repeatMs call.now (call.delivered key) (call.report key))
        (told || (phase.after repeatMs call.now (call.delivered key) (call.report key)).isNotified) calls

end

variable {repeatMs now : ℤ} {key : String} {delivered : Bool} {row : Option Row} {call : SetCall}
  {calls : List SetCall} {table stored : Table} {states : List (String × Option String)}

/-- An alarm that does not fire is left as it is. -/
theorem setOne_quiet (hquiet : ∀ held ∈ row, held.firing = false) :
    setOne repeatMs now delivered key row none = (none, row) := by
  cases row with
  | none => rfl
  | some held => exact if_neg (Bool.eq_false_iff.mp (hquiet held rfl))

theorem setOne_resolved {held : Row} (hfiring : held.firing = true) :
    setOne repeatMs now delivered key (some held) none =
      (some ⟨.resolved, key, held.message⟩, some { held with changedAt := now, firing := false }) :=
  if_pos hfiring

theorem setOne_key {message : Option String} {notice : Notice}
    (h : (setOne repeatMs now delivered key row message).1 = some notice) : notice.key = key := by
  cases message with
  | none =>
    cases row with
    | none => cases h
    | some row =>
      unfold setOne at h
      dsimp only at h
      split at h
      · rw [← Option.some.inj h]
      · cases h
  | some message =>
    unfold setOne at h
    dsimp only at h
    split at h
    · rw [← Option.some.inj h]
    · cases h

/-- What the call does to a key it reports, and what it leaves alone. -/
theorem setEach_key (repeatMs : ℤ) (key : String) (call : SetCall) (stored table : Table)
    (hnodup : (states.map Prod.fst).Nodup) :
    ((setEach repeatMs call stored states table).1.filter (fun notice => notice.key = key) =
      match states.lookup key with
      | none => []
      | some message =>
        (setOne repeatMs call.now (call.delivered key) key (stored key) message).1.toList) ∧
    (setEach repeatMs call stored states table).2 key =
      match states.lookup key with
      | none => table key
      | some message =>
        (setOne repeatMs call.now (call.delivered key) key (stored key) message).2 := by
  induction states generalizing table with
  | nil => exact ⟨rfl, rfl⟩
  | cons entry states ih =>
    rcases entry with ⟨other, message⟩
    rw [List.map_cons, List.nodup_cons] at hnodup
    rcases ih (Function.update table other
      (setOne repeatMs call.now (call.delivered other) other (stored other) message).2) hnodup.2 with
      ⟨hnotices, hrow⟩
    rw [setEach]
    dsimp only
    rw [List.filter_append, hnotices, hrow]
    by_cases hsame : key = other
    · subst hsame
      have hrest : states.lookup key = none := by
        apply List.lookup_eq_none_iff.mpr
        intro entry hentry
        have hne : key ≠ entry.1 := by
          intro heq
          exact hnodup.1 (List.mem_map.mpr ⟨entry, hentry, heq.symm⟩)
        simpa using hne
      rw [hrest, List.lookup_cons_self]
      dsimp only
      rw [Function.update_self, List.append_nil]
      refine ⟨?_, rfl⟩
      apply List.filter_eq_self.mpr
      intro notice hnotice
      rw [decide_eq_true_eq]
      exact setOne_key (Option.mem_toList.mp hnotice)
    · have hlookup : ((other, message) :: states).lookup key = states.lookup key := by
        rw [List.lookup_cons, beq_false_of_ne hsame]
      have hnone : (setOne repeatMs call.now (call.delivered other) other (stored other)
          message).1.toList.filter (fun notice => notice.key = key) = [] := by
        apply List.filter_eq_nil_iff.mpr
        intro notice hnotice hkey
        rw [decide_eq_true_eq] at hkey
        exact hsame (hkey.symm.trans (setOne_key (Option.mem_toList.mp hnotice)))
      rw [hlookup, hnone, List.nil_append, Function.update_of_ne hsame]
      exact ⟨rfl, rfl⟩

/-- The row holds the episode, and when a notice was last delivered: of this episode once it was
notified, else of an earlier one if any was. -/
def Holds (repeatMs : ℤ) (row : Option Row) (told : Bool) (calls : List SetCall) : Phase → Prop
  | .quiet => (∀ held ∈ row, held.firing = false) ∧ (row.bind Row.notifiedAt).isSome = told
  | .unnotified message => ∃ held, row = some held ∧ held.firing = true ∧ held.message = message ∧
      held.notifiedAt.isSome = told
  | .notified message since overdue => ∃ held, row = some held ∧ held.firing = true ∧
      held.message = message ∧ held.notifiedAt = some since ∧ told = true ∧
      (overdue = true → ∀ call ∈ calls, repeatMs ≤ call.now - since)

variable {told : Bool} {phase : Phase}

/-- A report at which the operator is owed what the row says. -/
theorem setOne_owed (hholds : Holds repeatMs row told (call :: calls) phase)
    (hclock : ∀ later ∈ calls, call.now ≤ later.now) {message : Option String}
    (hfresh : ¬(told = true ∧ phase.isUnnotified = true ∧ message.isSome)) :
    (setOne repeatMs call.now delivered key row message).1 =
      phase.owed repeatMs call.now key (some message) ∧
    Holds repeatMs (setOne repeatMs call.now delivered key row message).2
      (told || (phase.after repeatMs call.now delivered (some message)).isNotified) calls
      (phase.after repeatMs call.now delivered (some message)) := by
  cases phase with
  | quiet =>
    rcases hholds with ⟨hquiet, htold⟩
    have hstarted : (row.all fun held => !held.firing) = true := by
      cases row with
      | none => rfl
      | some held => simp [hquiet held rfl]
    cases message with
    | none =>
      rw [setOne_quiet hquiet]
      refine ⟨rfl, hquiet, ?_⟩
      simpa [Phase.after, Phase.isNotified] using htold
    | some message =>
      simp only [setOne, hstarted, Bool.true_or, if_true, Bool.true_and]
      cases delivered with
      | true =>
        refine ⟨rfl, _, rfl, rfl, rfl, rfl, ?_, ?_⟩
        · simp [Phase.after, Phase.isNotified]
        · intro hoverdue
          cases hoverdue
      | false =>
        refine ⟨rfl, _, rfl, rfl, rfl, ?_⟩
        simpa [Phase.after, Phase.isNotified] using htold
  | unnotified last =>
    rcases hholds with ⟨held, rfl, hfiring, rfl, htold⟩
    cases message with
    | none =>
      rw [setOne_resolved hfiring]
      refine ⟨rfl, ?_, ?_⟩
      · intro other hother
        obtain rfl := Option.some.inj hother
        rfl
      · simpa [Phase.after, Phase.isNotified] using htold
    | some message =>
      have hnever : held.notifiedAt = none := by
        cases hheld : held.notifiedAt with
        | none => rfl
        | some since =>
          rw [hheld] at htold
          exact absurd ⟨htold.symm, rfl, rfl⟩ hfresh
      rw [hnever] at htold
      simp only [setOne, Option.all_some, hfiring, Bool.not_true, Bool.false_or, Option.bind_some,
        hnever, Option.all_none, Option.isNone_none, if_true, Bool.true_and]
      cases delivered with
      | true =>
        refine ⟨rfl, _, rfl, rfl, rfl, rfl, ?_, ?_⟩
        · simp [Phase.after, Phase.isNotified]
        · intro hoverdue
          cases hoverdue
      | false =>
        refine ⟨rfl, _, rfl, rfl, rfl, ?_⟩
        simpa [Phase.after, Phase.isNotified] using htold
  | notified last since overdue =>
    rcases hholds with ⟨held, rfl, hfiring, rfl, hsince, rfl, hoverdue⟩
    cases message with
    | none =>
      rw [setOne_resolved hfiring]
      refine ⟨rfl, ?_, ?_⟩
      · intro other hother
        obtain rfl := Option.some.inj hother
        rfl
      · simp [hsince]
    | some message =>
      simp only [setOne, Option.all_some, hfiring, Bool.not_true, Bool.false_or, Option.bind_some,
        hsince, Option.isNone_some, Phase.owed, Phase.after]
      have hdue : (overdue = true ∨ repeatMs ≤ call.now - since) ↔ call.now - since ≥ repeatMs := by
        constructor
        · rintro (hlate | hpast)
          · exact hoverdue hlate call List.mem_cons_self
          · exact hpast
        · exact .inr
      by_cases hpast : call.now - since ≥ repeatMs
      · rw [if_pos (hdue.mpr hpast), if_pos (hdue.mpr hpast)]
        simp only [ge_iff_le.mp hpast, decide_true, if_true, Bool.true_and]
        cases delivered with
        | true =>
          refine ⟨rfl, _, rfl, rfl, rfl, rfl, rfl, ?_⟩
          intro hlate
          cases hlate
        | false =>
          refine ⟨rfl, _, rfl, rfl, rfl, rfl, rfl, ?_⟩
          intro _ later hlater
          have hnow := hclock later hlater
          omega
      · rw [if_neg (mt hdue.mp hpast), if_neg (mt hdue.mp hpast)]
        simp only [hpast, decide_false, Bool.false_eq_true, if_false, Bool.false_and]
        refine ⟨trivial, _, rfl, rfl, rfl, rfl, rfl, ?_⟩
        intro hlate later hlater
        exact hoverdue hlate later (List.mem_cons_of_mem _ hlater)

/-- The row of an earlier episode's notice: the operator is owed the episode's first and is sent
none, or one that says it is not the first. -/
theorem setOne_mistaken (hholds : Holds repeatMs row true (call :: calls) phase)
    (hunnotified : phase.isUnnotified = true) {message : String} :
    (setOne repeatMs call.now delivered key row (some message)).1 ≠
      phase.owed repeatMs call.now key (some (some message)) := by
  cases phase with
  | quiet => cases hunnotified
  | notified last since overdue => cases hunnotified
  | unnotified last =>
    rcases hholds with ⟨held, rfl, hfiring, rfl, htold⟩
    rcases Option.isSome_iff_exists.mp htold with ⟨since, hsince⟩
    simp only [setOne, Option.all_some, hfiring, Bool.not_true, Bool.false_or, Option.bind_some, hsince,
      Option.isNone_some, Phase.owed]
    split
    · intro h
      cases h
    · intro h
      cases h

theorem Holds.skip (hholds : Holds repeatMs row told (call :: calls) phase) :
    Holds repeatMs row (told || phase.isNotified) calls phase := by
  cases phase with
  | quiet => simpa [Holds, Phase.isNotified] using hholds
  | unnotified last => simpa [Holds, Phase.isNotified] using hholds
  | notified last since overdue =>
    rcases hholds with ⟨held, hheld, hfiring, hmessage, hsince, rfl, hoverdue⟩
    refine ⟨held, hheld, hfiring, hmessage, hsince, rfl, ?_⟩
    intro hlate later hlater
    exact hoverdue hlate later (List.mem_cons_of_mem _ hlater)

/-- A call that does not mistake the episode attempts what is owed on the key. -/
theorem set_owed (hholds : Holds repeatMs (table key) told (call :: calls) phase)
    (hclock : ∀ later ∈ calls, call.now ≤ later.now)
    (hfresh : ¬(told = true ∧ phase.isUnnotified = true ∧
      ∃ message, call.report key = some (some message))) :
    (set repeatMs call table).1.filter (fun notice => notice.key = key) =
      (phase.owed repeatMs call.now key (call.report key)).toList ∧
    Holds repeatMs ((set repeatMs call table).2 key)
      (told || (phase.after repeatMs call.now (call.delivered key) (call.report key)).isNotified) calls
      (phase.after repeatMs call.now (call.delivered key) (call.report key)) := by
  rcases setEach_key repeatMs key call table table call.nodup with ⟨hnotices, hrow⟩
  rw [set, hnotices, hrow]
  change ¬(told = true ∧ phase.isUnnotified = true ∧
    ∃ message, call.states.lookup key = some (some message)) at hfresh
  unfold SetCall.report
  cases hreport : call.states.lookup key with
  | none =>
    have hkept : phase.after repeatMs call.now (call.delivered key) none = phase := by
      cases phase <;> rfl
    have hnothing : phase.owed repeatMs call.now key none = none := by
      cases phase <;> rfl
    rw [hkept, hnothing]
    exact ⟨rfl, hholds.skip⟩
  | some message =>
    have hheeds : ¬(told = true ∧ phase.isUnnotified = true ∧ message.isSome) := by
      rintro ⟨htold, hunnotified, hsome⟩
      rcases Option.isSome_iff_exists.mp hsome with ⟨text, rfl⟩
      exact hfresh ⟨htold, hunnotified, text, hreport⟩
    rcases setOne_owed hholds hclock hheeds with ⟨howed, hleft⟩
    dsimp only
    rw [howed]
    exact ⟨rfl, hleft⟩

/-- A call that takes an earlier episode's notice for this one's attempts something else. -/
theorem set_mistaken (hholds : Holds repeatMs (table key) true (call :: calls) phase)
    (hunnotified : phase.isUnnotified = true) {message : String}
    (hreport : call.report key = some (some message)) :
    (set repeatMs call table).1.filter (fun notice => notice.key = key) ≠
      (phase.owed repeatMs call.now key (call.report key)).toList := by
  rcases setEach_key repeatMs key call table table call.nodup with ⟨hnotices, -⟩
  rw [set, hnotices, hreport]
  change call.states.lookup key = some (some message) at hreport
  rw [hreport]
  intro h
  have hsame : (setOne repeatMs call.now (call.delivered key) key (table key) (some message)).1 =
      phase.owed repeatMs call.now key (some (some message)) := by
    apply Option.ext
    intro notice
    rw [← Option.mem_toList, ← Option.mem_toList]
    exact iff_of_eq (congrArg (notice ∈ ·) h)
  exact setOne_mistaken hholds hunnotified hsame

/-- A run from any rows that hold the episode. -/
theorem notices_owed_from (hholds : Holds repeatMs (table key) told calls phase)
    (hclock : calls.Pairwise fun call later => call.now ≤ later.now) :
    (notices repeatMs table calls).map (fun attempted => attempted.filter fun notice => notice.key = key) =
        owedNotices repeatMs key phase calls ↔
      Unmistaken repeatMs key phase told calls := by
  induction calls generalizing table told phase with
  | nil => exact iff_of_true rfl trivial
  | cons call calls ih =>
    rcases List.pairwise_cons.mp hclock with ⟨hlater, hrest⟩
    rw [notices, List.map_cons, owedNotices, List.cons.injEq, Unmistaken]
    by_cases hfresh : told = true ∧ phase.isUnnotified = true ∧
        ∃ message, call.report key = some (some message)
    · rcases hfresh with ⟨rfl, hunnotified, message, hreport⟩
      apply iff_of_false
      · intro h
        exact set_mistaken hholds hunnotified hreport h.1
      · intro h
        exact h.1 ⟨rfl, hunnotified, message, hreport⟩
    · rcases set_owed hholds hlater hfresh with ⟨howed, hleft⟩
      rw [and_iff_right howed, and_iff_right hfresh]
      exact ih hleft hrest

/-- Over every sequence of calls at non-decreasing times, whichever notices are delivered: what is
attempted on a key is what its episodes are owed, exactly when no episode whose every notice failed
is reported again once an earlier one was delivered. -/
theorem notices_owed (repeatMs : ℤ) (key : String) (calls : List SetCall)
    (hclock : calls.Pairwise fun call later => call.now ≤ later.now) :
    (notices repeatMs (fun _ => none) calls).map
        (fun attempted => attempted.filter fun notice => notice.key = key) =
      owedNotices repeatMs key .quiet calls ↔ Unmistaken repeatMs key .quiet false calls := by
  apply notices_owed_from _ hclock
  refine ⟨?_, rfl⟩
  intro held hheld
  cases hheld

def reporting (message : Option String) (now : ℤ) (delivered : Bool) : SetCall :=
  ⟨[("indexer", message)], now, fun _ => delivered, List.nodup_singleton _⟩

/-- How often a firing alarm is repeated to the operator. -/
def repeatMsDefault : ℤ := 6 * 60 * 60 * 1000

/-- The first notice fails and the next is delivered; six hours later the alarm still fires. -/
theorem notices_owed_retried :
    (notices repeatMsDefault (fun _ => none) [reporting (some "stalled") 0 false,
        reporting (some "stalled") 60000 true, reporting (some "stalled") 21660000 true,
        reporting none 21720000 true]).map
        (fun attempted => attempted.filter fun notice => notice.key = "indexer") =
      owedNotices repeatMsDefault "indexer" .quiet [reporting (some "stalled") 0 false,
        reporting (some "stalled") 60000 true, reporting (some "stalled") 21660000 true,
        reporting none 21720000 true] := by
  apply (notices_owed repeatMsDefault "indexer" _ _).mpr
  · simp [Unmistaken, Phase.after, Phase.isUnnotified, Phase.isNotified, reporting, SetCall.report]
  · simp [reporting]

/-- An alarm that was told and resolved fires again: its first notice fails, and a minute later none
is attempted. -/
theorem not_notices_owed_again :
    ∃ calls : List SetCall, (calls.Pairwise fun call later => call.now ≤ later.now) ∧
      (notices repeatMsDefault (fun _ => none) calls).map
          (fun attempted => attempted.filter fun notice => notice.key = "indexer") =
        [[⟨.firing, "indexer", "stalled"⟩], [⟨.resolved, "indexer", "stalled"⟩],
          [⟨.firing, "indexer", "stalled"⟩], []] ∧
      owedNotices repeatMsDefault "indexer" .quiet calls =
        [[⟨.firing, "indexer", "stalled"⟩], [⟨.resolved, "indexer", "stalled"⟩],
          [⟨.firing, "indexer", "stalled"⟩], [⟨.firing, "indexer", "stalled"⟩]] := by
  refine ⟨[reporting (some "stalled") 0 true, reporting none 60000 true,
    reporting (some "stalled") 120000 false, reporting (some "stalled") 180000 true], ?_, ?_, ?_⟩
  · simp [reporting]
  · decide
  · decide

end Laterite.Alarms
