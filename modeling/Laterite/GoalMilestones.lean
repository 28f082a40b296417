import Mathlib.Data.Finset.Max
import Mathlib.Data.Prod.Lex
import Mathlib.Tactic.Linarith
import Mathlib.Algebra.BigOperators.Group.List.Basic

/-!
# The goal's milestones

A linked chat is told of each of the user's sweeps once, and of a share of the goal when a sweep's
running total reaches it. The total is worked out when the sweep is read for its notice, from the
sweeps stored by then that come before it. A sweep can be stored after a later one of its slot was
read, and a notice of a milestone that is not sent is not tried again: its sweep has been told.
-/

namespace Laterite.Notices

structure Sweep (σ : Type) where
  slot : ℕ
  signature : σ
  eventIndex : ℕ
  blockTime : ℤ
  engine : ℕ
  pending : ℕ
  deriving DecidableEq

variable {σ : Type} [LinearOrder σ]

omit [LinearOrder σ] in
def Sweep.key (self : Sweep σ) : σ × ℕ := (self.signature, self.eventIndex)

/-- Where a sweep comes in the order of the query. -/
def Sweep.place (self : Sweep σ) : ℕ ×ₗ σ ×ₗ ℕ :=
  toLex (self.slot, toLex (self.signature, self.eventIndex))

def Sweep.amount (self : Sweep σ) : ℕ := self.engine + self.pending

def total (sweeps : List (Sweep σ)) : ℕ := (sweeps.map Sweep.amount).sum

def invested (stored : List (Sweep σ)) (row : Sweep σ) : ℕ :=
  total (stored.filter fun sweep => sweep.place ≤ row.place)

def goalMilestones : List ℕ := [25, 50, 75, 100]

def reached (goal : ℕ) (invested : ℤ) (row : Sweep σ) : Option ℕ :=
  (goalMilestones.filter fun percent => goal > 0 ∧
    invested - row.engine - row.pending < (goal * percent / 100 : ℕ) ∧
    invested ≥ (goal * percent / 100 : ℕ)).getLast?

/-- A tick: the sweeps stored when it began, those read and not yet judged, and those to tell. -/
structure Tick (σ : Type) where
  seen : List (Sweep σ)
  rows : List (Sweep σ)
  notices : List (Sweep σ × Option ℕ)

structure World (σ : Type) where
  stored : List (Sweep σ)
  told : List (σ × ℕ)
  sent : List ℕ
  tick : Option (Tick σ)

def World.genesis : World σ := ⟨[], [], [], none⟩

/-- How a sweep's notices fare: the purchase's is refused, or it is sent and the milestone's is
refused or, when it is new, sent. -/
inductive Outcome where
  | delivered
  | purchaseRefused
  | goalRefused
  deriving DecidableEq

/-- The goal messages after a milestone is told, which is not told again. -/
def announce (sent : List ℕ) : Option ℕ → List ℕ
  | none => sent
  | some percent => if percent ∈ sent then sent else sent ++ [percent]

/-- What happens: the indexer commits some sweeps, a tick begins, judges a sweep, tells the oldest
one judged, stops at another notice that is not sent, or is over. -/
inductive Action (σ : Type) where
  | store (batch : List (Sweep σ))
  | start
  | judge (row : Sweep σ)
  | deliver (row : Sweep σ) (outcome : Outcome)
  | stop
  | finish

inductive Step (goal : ℕ) : World σ → Action σ → World σ → Prop
  | store {w : World σ} (batch : List (Sweep σ))
      (horder : ∀ old ∈ w.stored, ∀ sweep ∈ batch, old.slot ≤ sweep.slot)
      (hnew : ((w.stored ++ batch).map Sweep.key).Nodup) :
      Step goal w (.store batch) { w with stored := w.stored ++ batch }
  | start {w : World σ} (hidle : w.tick = none) :
      Step goal w .start
        { w with tick := some ⟨w.stored, w.stored.filter fun row => row.key ∉ w.told, []⟩ }
  | judge {w : World σ} {seen before after : List (Sweep σ)} {notices : List (Sweep σ × Option ℕ)}
      (row : Sweep σ) (htick : w.tick = some ⟨seen, before ++ row :: after, notices⟩) :
      Step goal w (.judge row)
        { w with tick := some ⟨seen, before ++ after,
            notices ++ [(row, reached goal (invested w.stored row) row)]⟩ }
  | delivered {w : World σ} {seen : List (Sweep σ)} {before after : List (Sweep σ × Option ℕ)}
      {percent : Option ℕ} (row : Sweep σ)
      (htick : w.tick = some ⟨seen, [], before ++ (row, percent) :: after⟩)
      (holdest : ∀ notice ∈ before ++ after, row.blockTime ≤ notice.1.blockTime) :
      Step goal w (.deliver row .delivered)
        { w with told := row.key :: w.told, sent := announce w.sent percent,
                 tick := some ⟨seen, [], before ++ after⟩ }
  | purchaseRefused {w : World σ} {seen : List (Sweep σ)} {before after : List (Sweep σ × Option ℕ)}
      {percent : Option ℕ} (row : Sweep σ)
      (htick : w.tick = some ⟨seen, [], before ++ (row, percent) :: after⟩)
      (holdest : ∀ notice ∈ before ++ after, row.blockTime ≤ notice.1.blockTime) :
      Step goal w (.deliver row .purchaseRefused) { w with tick := none }
  | goalRefused {w : World σ} {seen : List (Sweep σ)} {before after : List (Sweep σ × Option ℕ)}
      {percent : ℕ} (row : Sweep σ)
      (htick : w.tick = some ⟨seen, [], before ++ (row, some percent) :: after⟩)
      (holdest : ∀ notice ∈ before ++ after, row.blockTime ≤ notice.1.blockTime)
      (hnew : percent ∉ w.sent) :
      Step goal w (.deliver row .goalRefused) { w with told := row.key :: w.told, tick := none }
  | stop {w : World σ} : Step goal w .stop { w with tick := none }
  | finish {w : World σ} {seen : List (Sweep σ)} (htick : w.tick = some ⟨seen, [], []⟩) :
      Step goal w .finish { w with tick := none }

inductive Reached (goal : ℕ) (allowed : World σ → Action σ → Prop) : World σ → Prop
  | start : Reached goal allowed .genesis
  | step {w w' : World σ} {action : Action σ} (hreached : Reached goal allowed w)
      (hallowed : allowed w action) (hstep : Step goal w action w') : Reached goal allowed w'

def World.Judged (self : World σ) (row : Sweep σ) : Prop :=
  row.key ∈ self.told ∨ ∃ tick ∈ self.tick, ∃ percent, (row, percent) ∈ tick.notices

/-- No sweep is stored after one that comes later was judged, and every milestone's message that is
tried is sent. -/
def Careful (w : World σ) : Action σ → Prop
  | .store batch => ∀ row ∈ w.stored, w.Judged row → ∀ sweep ∈ batch, ¬sweep.place < row.place
  | .deliver _ .goalRefused => False
  | _ => True

section

variable {goal : ℕ} {w w' : World σ} {stored batch : List (Sweep σ)} {row sweep : Sweep σ}
  {action : Action σ} {percent threshold : ℕ} {allowed : World σ → Action σ → Prop}

theorem Reached.mono {allowed' : World σ → Action σ → Prop} (hreached : Reached goal allowed w)
    (hmore : ∀ w action, allowed w action → allowed' w action) : Reached goal allowed' w := by
  induction hreached with
  | start => exact .start
  | step hreached hallowed hstep ih => exact ih.step (hmore _ _ hallowed) hstep

omit [LinearOrder σ] in
theorem nodup_announce {sent : List ℕ} (h : sent.Nodup) (percent : Option ℕ) :
    (announce sent percent).Nodup := by
  cases percent with
  | none => exact h
  | some percent =>
    rw [announce]
    split
    · exact h
    · rename_i hnew
      exact List.nodup_append.mpr ⟨h, List.nodup_singleton _, by
        intro old hold other hother heq
        rw [List.mem_singleton.mp hother] at heq
        exact hnew (heq ▸ hold)⟩

/-- No goal message is sent twice, whatever happens. -/
theorem Reached.nodup (hreached : Reached goal allowed w) : w.sent.Nodup := by
  induction hreached with
  | start => exact List.nodup_nil
  | step hreached hallowed hstep ih =>
    cases hstep with
    | delivered row htick holdest => exact nodup_announce ih _
    | _ => exact ih

omit [LinearOrder σ] in
theorem key_of_place (h : sweep.place = row.place) : sweep.key = row.key := by
  have hsplit := congrArg ofLex h
  have hrest : toLex (sweep.signature, sweep.eventIndex) = toLex (row.signature, row.eventIndex) :=
    (Prod.mk.inj hsplit).2
  exact congrArg ofLex hrest

theorem invested_eq (hnodup : (stored.map Sweep.key).Nodup) (hrow : row ∈ stored) :
    invested stored row = total (stored.filter fun sweep => sweep.place < row.place) + row.amount := by
  induction stored with
  | nil => cases hrow
  | cons first stored ih =>
    rw [List.map_cons, List.nodup_cons] at hnodup
    have hsplit (sweeps : List (Sweep σ)) (other : Sweep σ) :
        total (other :: sweeps) = other.amount + total sweeps := rfl
    rcases List.mem_cons.mp hrow with rfl | hrow
    · have hsame : (stored.filter fun sweep => sweep.place ≤ row.place) =
          stored.filter fun sweep => sweep.place < row.place := by
        apply List.filter_congr
        intro sweep hsweep
        have hne : sweep.place ≠ row.place := fun heq =>
          hnodup.1 (key_of_place heq ▸ List.mem_map_of_mem hsweep)
        simp [hne.le_iff_lt]
      rw [invested, List.filter_cons_of_pos (by simp), hsplit, hsame,
        List.filter_cons_of_neg (by simp), Nat.add_comm]
    · have hrest := ih hnodup.2 hrow
      have hne : first.place ≠ row.place := fun heq =>
        hnodup.1 (key_of_place heq ▸ List.mem_map_of_mem hrow)
      rw [invested] at hrest ⊢
      by_cases hlt : first.place < row.place
      · rw [List.filter_cons_of_pos (by simpa using hlt.le), List.filter_cons_of_pos (by simpa using hlt),
          hsplit, hsplit, hrest, Nat.add_assoc]
      · have hle : ¬first.place ≤ row.place := fun hle => hlt (lt_of_le_of_ne hle hne)
        rw [List.filter_cons_of_neg (by simpa using hle), List.filter_cons_of_neg (by simpa using hlt),
          hrest]

theorem exists_last (hpos : 0 < threshold) (htotal : threshold ≤ total stored) :
    ∃ row ∈ stored, (stored.filter fun sweep => sweep.place ≤ row.place) = stored := by
  have hne : stored.toFinset.Nonempty := by
    rw [List.toFinset_nonempty_iff]
    rintro rfl
    exact absurd htotal (not_le.mpr hpos)
  rcases stored.toFinset.exists_max_image Sweep.place hne with ⟨row, hrow, hmax⟩
  refine ⟨row, List.mem_toFinset.mp hrow, List.filter_eq_self.mpr ?_⟩
  intro sweep hsweep
  simpa using hmax sweep (List.mem_toFinset.mpr hsweep)

theorem exists_crossing (hpos : 0 < threshold) (htotal : threshold ≤ total stored) :
    ∃ row ∈ stored, total (stored.filter fun sweep => sweep.place < row.place) < threshold ∧
      threshold ≤ invested stored row := by
  rcases exists_last hpos htotal with ⟨last, hlast, hall⟩
  have hne : (stored.toFinset.filter fun row => threshold ≤ invested stored row).Nonempty := by
    refine ⟨last, Finset.mem_filter.mpr ⟨List.mem_toFinset.mpr hlast, ?_⟩⟩
    rw [invested, hall]
    exact htotal
  rcases Finset.exists_min_image _ Sweep.place hne with ⟨row, hrow, hmin⟩
  rcases Finset.mem_filter.mp hrow with ⟨hmem, hreaches⟩
  refine ⟨row, List.mem_toFinset.mp hmem, ?_, hreaches⟩
  by_contra hbefore
  rcases exists_last hpos (not_lt.mp hbefore) with ⟨earlier, hearlier, hsame⟩
  rcases List.mem_filter.mp hearlier with ⟨hin, hlt⟩
  rw [decide_eq_true_eq] at hlt
  have hupto : (stored.filter fun sweep => sweep.place ≤ earlier.place) =
      stored.filter fun sweep => sweep.place < row.place := by
    rw [← hsame, List.filter_filter]
    apply List.filter_congr
    intro sweep hsweep
    by_cases hle : sweep.place ≤ earlier.place
    · simp [hle, hle.trans_lt hlt]
    · simp [hle]
  have hagain : earlier ∈ stored.toFinset.filter fun row => threshold ≤ invested stored row := by
    refine Finset.mem_filter.mpr ⟨List.mem_toFinset.mpr hin, ?_⟩
    rw [invested, hupto]
    exact not_lt.mp hbefore
  exact absurd (hmin earlier hagain) (not_le.mpr hlt)

theorem exists_reached {amount : ℕ} (hpercent : percent ∈ goalMilestones) (hgoal : 0 < goal)
    (hinvested : invested stored row = amount + row.amount) (hbefore : amount < goal * percent / 100)
    (hreaches : goal * percent / 100 ≤ invested stored row) :
    ∃ higher, reached goal (invested stored row) row = some higher ∧ percent ≤ higher := by
  have hin : percent ∈ goalMilestones.filter fun percent => goal > 0 ∧
      (invested stored row : ℤ) - row.engine - row.pending < (goal * percent / 100 : ℕ) ∧
      (invested stored row : ℤ) ≥ (goal * percent / 100 : ℕ) := by
    refine List.mem_filter.mpr ⟨hpercent, ?_⟩
    rw [decide_eq_true_eq]
    rw [Sweep.amount] at hinvested
    refine ⟨hgoal, ?_, Int.ofNat_le.mpr hreaches⟩
    omega
  have hsorted : (goalMilestones.filter fun percent => goal > 0 ∧
      (invested stored row : ℤ) - row.engine - row.pending < (goal * percent / 100 : ℕ) ∧
      (invested stored row : ℤ) ≥ (goal * percent / 100 : ℕ)).Pairwise (· ≤ ·) :=
    (by decide : goalMilestones.Pairwise (· ≤ ·)).filter _
  rw [reached]
  generalize goalMilestones.filter _ = milestones at hin hsorted ⊢
  rcases List.eq_nil_or_concat milestones with rfl | ⟨lower, last, rfl⟩
  · cases hin
  · rw [List.concat_eq_append] at hin hsorted ⊢
    refine ⟨last, List.getLast?_concat, ?_⟩
    rcases List.mem_append.mp hin with hlower | hlast
    · exact (List.pairwise_append.mp hsorted).2.2 percent hlower last List.mem_cons_self
    · exact (List.mem_singleton.mp hlast).le

structure Sound (goal : ℕ) (w : World σ) : Prop where
  nodup : (w.stored.map Sweep.key).Nodup
  told : ∀ key ∈ w.told, ∃ row ∈ w.stored, row.key = key
  milestones : ∀ row ∈ w.stored, row.key ∈ w.told →
    ∀ percent, reached goal (invested w.stored row) row = some percent → percent ∈ w.sent
  rows : ∀ tick ∈ w.tick, ∀ row ∈ tick.rows, row ∈ w.stored
  notices : ∀ tick ∈ w.tick, ∀ notice ∈ tick.notices, notice.1 ∈ w.stored ∧
    notice.2 = reached goal (invested w.stored notice.1) notice.1
  seen : ∀ tick ∈ w.tick, ∀ row ∈ tick.seen, row ∈ w.stored ∧
    (row.key ∈ w.told ∨ row ∈ tick.rows ∨ ∃ percent, (row, percent) ∈ tick.notices)

theorem Sound.genesis : Sound goal (World.genesis : World σ) where
  nodup := List.nodup_nil
  told := by
    intro key h
    cases h
  milestones := by
    intro row h
    cases h
  rows := by
    intro tick h
    cases h
  notices := by
    intro tick h
    cases h
  seen := by
    intro tick h
    cases h

omit [LinearOrder σ] in
theorem eq_of_key (hnodup : (stored.map Sweep.key).Nodup) (hsweep : sweep ∈ stored) (hrow : row ∈ stored)
    (h : sweep.key = row.key) : sweep = row :=
  List.inj_on_of_nodup_map hnodup hsweep hrow h

/-- Sweeps stored after a sweep, none of which comes before it, leave its total. -/
theorem invested_append (hnodup : ((stored ++ batch).map Sweep.key).Nodup) (hrow : row ∈ stored)
    (hlater : ∀ sweep ∈ batch, ¬sweep.place < row.place) :
    invested (stored ++ batch) row = invested stored row := by
  have hnone : (batch.filter fun sweep => sweep.place ≤ row.place) = [] := by
    apply List.filter_eq_nil_iff.mpr
    intro sweep hsweep hle
    rw [decide_eq_true_eq] at hle
    rw [List.map_append, List.nodup_append] at hnodup
    have hsame := key_of_place (hle.eq_of_not_lt (hlater sweep hsweep))
    exact hnodup.2.2 _ (List.mem_map_of_mem hrow) _ (List.mem_map_of_mem hsweep) hsame.symm
  rw [invested, List.filter_append, hnone, List.append_nil, invested]

theorem mem_announce {sent : List ℕ} (h : percent ∈ sent) (added : Option ℕ) :
    percent ∈ announce sent added := by
  cases added with
  | none => exact h
  | some added =>
    rw [announce]
    split
    · exact h
    · exact List.mem_append_left _ h

theorem announce_self (sent : List ℕ) (percent : ℕ) : percent ∈ announce sent (some percent) := by
  rw [announce]
  split
  · assumption
  · exact List.mem_append_right _ List.mem_cons_self

theorem Sound.ended (hsound : Sound goal w) : Sound goal { w with tick := none } where
  nodup := hsound.nodup
  told := hsound.told
  milestones := hsound.milestones
  rows := by
    intro tick h
    cases h
  notices := by
    intro tick h
    cases h
  seen := by
    intro tick h
    cases h

theorem Step.sound (hstep : Step goal w action w') (hcareful : Careful w action)
    (hsound : Sound goal w) : Sound goal w' := by
  cases hstep with
  | store batch horder hnew =>
    have hkept (row : Sweep σ) (hrow : row ∈ w.stored) (hjudged : w.Judged row) :
        invested (w.stored ++ batch) row = invested w.stored row :=
      invested_append hnew hrow (hcareful row hrow hjudged)
    constructor
    · exact hnew
    · intro key hkey
      rcases hsound.told key hkey with ⟨row, hrow, hsame⟩
      exact ⟨row, List.mem_append_left _ hrow, hsame⟩
    · intro row hrow htold percent hreached
      rcases hsound.told _ htold with ⟨old, hold, hsame⟩
      obtain rfl := eq_of_key hnew (List.mem_append_left _ hold) hrow hsame
      rw [hkept old hold (.inl htold)] at hreached
      exact hsound.milestones old hold htold percent hreached
    · intro tick htick row hrow
      exact List.mem_append_left _ (hsound.rows tick htick row hrow)
    · intro tick htick notice hnotice
      rcases hsound.notices tick htick notice hnotice with ⟨hrow, hpercent⟩
      refine ⟨List.mem_append_left _ hrow, ?_⟩
      rw [hkept notice.1 hrow (.inr ⟨tick, htick, notice.2, hnotice⟩)]
      exact hpercent
    · intro tick htick row hrow
      rcases hsound.seen tick htick row hrow with ⟨hthere, hcovered⟩
      exact ⟨List.mem_append_left _ hthere, hcovered⟩
  | start hidle =>
    constructor
    · exact hsound.nodup
    · exact hsound.told
    · exact hsound.milestones
    · intro tick htick row hrow
      obtain rfl := Option.some.inj htick
      exact List.mem_of_mem_filter hrow
    · intro tick htick notice hnotice
      obtain rfl := Option.some.inj htick
      cases hnotice
    · intro tick htick row hrow
      obtain rfl := Option.some.inj htick
      refine ⟨hrow, ?_⟩
      by_cases htold : row.key ∈ w.told
      · exact .inl htold
      · exact .inr (.inl (List.mem_filter.mpr ⟨hrow, by simpa using htold⟩))
  | @judge seen before after notices row htick =>
    have hrow : row ∈ w.stored :=
      hsound.rows _ htick row (List.mem_append_right _ List.mem_cons_self)
    constructor
    · exact hsound.nodup
    · exact hsound.told
    · exact hsound.milestones
    · intro tick hnext other hother
      obtain rfl := Option.some.inj hnext
      apply hsound.rows _ htick other
      rcases List.mem_append.mp hother with hbefore | hafter
      · exact List.mem_append_left _ hbefore
      · exact List.mem_append_right _ (List.mem_cons_of_mem _ hafter)
    · intro tick hnext notice hnotice
      obtain rfl := Option.some.inj hnext
      rcases List.mem_append.mp hnotice with hold | hadded
      · exact hsound.notices _ htick notice hold
      · obtain rfl := List.mem_singleton.mp hadded
        exact ⟨hrow, rfl⟩
    · intro tick hnext other hother
      obtain rfl := Option.some.inj hnext
      rcases hsound.seen _ htick other hother with ⟨hthere, htold | hwaits | ⟨percent, hjudged⟩⟩
      · exact ⟨hthere, .inl htold⟩
      · refine ⟨hthere, .inr ?_⟩
        rcases List.mem_append.mp hwaits with hbefore | hafter
        · exact .inl (List.mem_append_left _ hbefore)
        · rcases List.mem_cons.mp hafter with rfl | hafter
          · exact .inr ⟨_, List.mem_append_right _ List.mem_cons_self⟩
          · exact .inl (List.mem_append_right _ hafter)
      · exact ⟨hthere, .inr (.inr ⟨percent, List.mem_append_left _ hjudged⟩)⟩
  | @delivered seen before after percent row htick holdest =>
    rcases hsound.notices _ htick (row, percent) (List.mem_append_right _ List.mem_cons_self) with
      ⟨hrow, hpercent⟩
    have hkept {notice : Sweep σ × Option ℕ} (hnotice : notice ∈ before ++ after) :
        notice ∈ before ++ (row, percent) :: after := by
      rcases List.mem_append.mp hnotice with hbefore | hafter
      · exact List.mem_append_left _ hbefore
      · exact List.mem_append_right _ (List.mem_cons_of_mem _ hafter)
    constructor
    · exact hsound.nodup
    · intro key hkey
      rcases List.mem_cons.mp hkey with rfl | hold
      · exact ⟨row, hrow, rfl⟩
      · exact hsound.told key hold
    · intro other hother htold higher hreached
      rcases List.mem_cons.mp htold with hsame | hold
      · obtain rfl := eq_of_key hsound.nodup hother hrow hsame
        dsimp only at hpercent
        rw [hpercent, hreached]
        exact announce_self w.sent higher
      · exact mem_announce (hsound.milestones other hother hold higher hreached) percent
    · intro tick hnext other hother
      obtain rfl := Option.some.inj hnext
      cases hother
    · intro tick hnext notice hnotice
      obtain rfl := Option.some.inj hnext
      exact hsound.notices _ htick notice (hkept hnotice)
    · intro tick hnext other hother
      obtain rfl := Option.some.inj hnext
      rcases hsound.seen _ htick other hother with ⟨hthere, htold | hwaits | ⟨higher, hjudged⟩⟩
      · exact ⟨hthere, .inl (List.mem_cons_of_mem _ htold)⟩
      · cases hwaits
      · refine ⟨hthere, ?_⟩
        rcases List.mem_append.mp hjudged with hbefore | hafter
        · exact .inr (.inr ⟨higher, List.mem_append_left _ hbefore⟩)
        · rcases List.mem_cons.mp hafter with hsame | hafter
          · obtain rfl := (Prod.mk.inj hsame).1
            exact .inl List.mem_cons_self
          · exact .inr (.inr ⟨higher, List.mem_append_right _ hafter⟩)
  | purchaseRefused row htick holdest => exact hsound.ended
  | goalRefused row htick holdest hnew => exact absurd hcareful id
  | stop => exact hsound.ended
  | finish htick => exact hsound.ended

theorem Reached.sound (hreached : Reached goal Careful w) : Sound goal w := by
  induction hreached with
  | start => exact Sound.genesis
  | step hreached hallowed hstep ih => exact hstep.sound hallowed ih

/-- No goal message is sent twice, in any run. In every careful run, when a tick has handled every
sweep there is, a goal message has been sent for each milestone the total reached, at its percentage
or a higher one. -/
theorem milestones_announced (goal : ℕ) (hgoal : 0 < goal) :
    (∀ w : World σ, Reached goal (fun _ _ => True) w → w.sent.Nodup) ∧
    ∀ (w : World σ) (tick : Tick σ), Reached goal Careful w → w.tick = some tick →
      tick.rows = [] → tick.notices = [] → tick.seen = w.stored →
      ∀ percent ∈ goalMilestones, goal * percent ≤ 100 * total w.stored →
        ∃ higher ∈ w.sent, percent ≤ higher := by
  refine ⟨fun w hreached => hreached.nodup, ?_⟩
  intro w tick hreached htick hrows hnotices hseen percent hpercent htotal
  have hsound := hreached.sound
  -- a milestone at the total or below it, at least one unit
  have hpassed : ∃ passed ∈ goalMilestones, percent ≤ passed ∧ 0 < goal * passed / 100 ∧
      goal * passed / 100 ≤ total w.stored := by
    by_cases hunit : 0 < goal * percent / 100
    · exact ⟨percent, hpercent, le_rfl, hunit, by omega⟩
    · have hsome : 0 < total w.stored := by
        have : 0 < goal * percent := by
          apply Nat.mul_pos hgoal
          simp only [goalMilestones, List.mem_cons, List.not_mem_nil, or_false] at hpercent
          omega
        omega
      simp only [goalMilestones, List.mem_cons, List.not_mem_nil, or_false] at hpercent
      by_cases hone : goal = 1
      · exact ⟨100, by decide, by omega, by omega, by omega⟩
      · have hquarter : percent = 25 := by
          rcases hpercent with rfl | rfl | rfl | rfl
          · rfl
          all_goals omega
        subst hquarter
        exact ⟨50, by decide, by decide, by omega, by omega⟩
  rcases hpassed with ⟨passed, hmem, hle, hunit, hreaches⟩
  rcases exists_crossing hunit hreaches with ⟨row, hrow, hbefore, hafter⟩
  rcases exists_reached hmem hgoal (invested_eq hsound.nodup hrow) hbefore hafter with
    ⟨higher, hhigher, hpassed⟩
  have htold : row.key ∈ w.told := by
    rcases (hsound.seen tick htick row (hseen ▸ hrow)).2 with htold | hwaits | ⟨other, hjudged⟩
    · exact htold
    · rw [hrows] at hwaits
      cases hwaits
    · rw [hnotices] at hjudged
      cases hjudged
  exact ⟨higher, hsound.milestones row hrow htold higher hhigher, hle.trans hpassed⟩

end

namespace MilestoneRehearsal

/-- Thirty dollars, in a slot with another sweep. -/
def bought (signature : ℕ) : Sweep ℕ := ⟨7, signature, 0, 1000, 30, 0⟩

/-- The later sweep, told with the first milestone. -/
def one : World ℕ := ⟨[bought 2], [(2, 0)], [25], some ⟨[bought 2], [], []⟩⟩

theorem one_reached : Reached 100 Careful one := by
  have hstored : Reached 100 Careful ⟨[bought 2], [], [], none⟩ :=
    Reached.start.step (by simp [Careful, World.genesis])
      (.store [bought 2] (by simp [World.genesis]) (by simp [World.genesis]))
  have hbegun : Reached 100 Careful ⟨[bought 2], [], [], some ⟨[bought 2], [bought 2], []⟩⟩ :=
    hstored.step (by trivial) (.start rfl)
  have hjudged : Reached 100 Careful
      ⟨[bought 2], [], [], some ⟨[bought 2], [], [(bought 2, some 25)]⟩⟩ :=
    hbegun.step (by trivial) (@Step.judge _ _ _ _ [bought 2] [] [] [] (bought 2) rfl)
  exact hjudged.step (by trivial) (@Step.delivered _ _ _ _ [bought 2] [] [] (some 25) (bought 2) rfl (by simp))

/-- The earlier sweep is stored next, and told: it reaches the first milestone again. -/
def both : World ℕ :=
  ⟨[bought 2, bought 1], [(1, 0), (2, 0)], [25], some ⟨[bought 2, bought 1], [], []⟩⟩

theorem both_reached : Reached 100 (fun _ _ => True) both := by
  have hone : Reached 100 (fun _ _ => True) ⟨[bought 2], [(2, 0)], [25], none⟩ :=
    (one_reached.mono fun _ _ _ => trivial).step trivial (.finish rfl)
  have hstored : Reached 100 (fun _ _ => True) ⟨[bought 2, bought 1], [(2, 0)], [25], none⟩ :=
    hone.step trivial (.store [bought 1] (by decide) (by decide))
  have hbegun : Reached 100 (fun _ _ => True)
      ⟨[bought 2, bought 1], [(2, 0)], [25], some ⟨[bought 2, bought 1], [bought 1], []⟩⟩ :=
    hstored.step trivial (.start rfl)
  have hjudged : Reached 100 (fun _ _ => True)
      ⟨[bought 2, bought 1], [(2, 0)], [25], some ⟨[bought 2, bought 1], [], [(bought 1, some 25)]⟩⟩ :=
    hbegun.step trivial (@Step.judge _ _ _ _ [bought 2, bought 1] [] [] [] (bought 1) rfl)
  exact hjudged.step trivial
    (@Step.delivered _ _ _ _ [bought 2, bought 1] [] [] (some 25) (bought 1) rfl (by simp))

end MilestoneRehearsal

open MilestoneRehearsal in
theorem milestones_announced_one : ∃ higher ∈ one.sent, 25 ≤ higher :=
  (milestones_announced (σ := ℕ) 100 (by decide)).2 one ⟨[bought 2], [], []⟩ one_reached rfl rfl rfl rfl 25
    (by decide) (by decide)

open MilestoneRehearsal in
/-- Sixty dollars of a hundred are invested and told, and only the message of the first quarter was
sent. -/
theorem not_milestones_announced :
    Reached 100 (fun _ _ => True) both ∧ both.tick = some ⟨both.stored, [], []⟩ ∧
      ¬∀ percent ∈ goalMilestones, 100 * percent ≤ 100 * total both.stored →
        ∃ higher ∈ both.sent, percent ≤ higher := by
  refine ⟨both_reached, rfl, ?_⟩
  intro hall
  rcases hall 50 (by decide) (by decide) with ⟨higher, hhigher, hle⟩
  obtain rfl := List.mem_singleton.mp hhigher
  exact absurd hle (by decide)

end Laterite.Notices
