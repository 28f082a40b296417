import Laterite.MarketSession

/-!
# The amount engine

How much a sweep may pull, derived only from the user's signed rules, the transfers
attested for them, the clock, the market calendar and the token balance.
-/

namespace Laterite

open CheckedComputation

/-- The share of each incoming payment invested, in basis points. -/
def incomeShareBps : ℕ := 1000

/-- Smaller incoming payments are ignored. -/
def incomeMin : UInt64 := 50000000

def changeStep : UInt64 := 1000000

/-- The least invested per payment, before the multiplier. -/
def changeMin : UInt64 := 500000

structure Pull where
  engine : UInt64
  pending : UInt64
  deriving DecidableEq, Repr

namespace Pull

def default : Pull := ⟨0, 0⟩

def total (self : Pull) : Result UInt64 := self.engine.checkedAdd self.pending

def capped (self : Pull) (limit : UInt64) : Result Pull := do
  let engine := min self.engine limit
  return ⟨engine, min self.pending (← limit.checkedSub engine)⟩

theorem total_eq_ok {self : Pull} {t : UInt64} :
    self.total = .ok t ↔ t.toNat = self.engine.toNat + self.pending.toNat :=
  UInt64.checkedAdd_eq_ok

theorem noPanic_total {self : Pull} (h : self.engine.toNat + self.pending.toNat < 2 ^ 64) :
    NoPanic self.total := UInt64.NoPanic.checkedAdd h

/-- Capping only lowers either part, keeps their sum within the limit, and takes from the
pending part first. -/
theorem capped_spec {self p : Pull} {limit : UInt64} (h : self.capped limit = .ok p) :
    p.engine.toNat = min self.engine.toNat limit.toNat ∧
      p.pending.toNat = min self.pending.toNat (limit.toNat - p.engine.toNat) := by
  simp only [capped, bind_eq_ok, pure_eq_ok, UInt64.checkedSub_eq_ok] at h
  obtain ⟨rest, ⟨-, hrest⟩, rfl⟩ := h
  exact ⟨UInt64.toNat_min _ _, by rw [UInt64.toNat_min, hrest]⟩

theorem noPanic_capped (self : Pull) (limit : UInt64) : NoPanic (self.capped limit) := by
  refine NoPanic.bind (UInt64.NoPanic.checkedSub ?_) fun _ _ => NoPanic.pure _
  rw [UInt64.toNat_min]
  exact Nat.min_le_right _ _

end Pull

namespace UserConfig

def incomeShare (self : UserConfig) (income : UInt64) : UInt64 :=
  if !self.incomeRule ∨ income < incomeMin then 0
  else UInt64.ofNat (income.toNat * incomeShareBps / 10000)

/-- What change per payment adds for an outgoing payment. -/
def change (self : UserConfig) (payment : UInt64) : Result UInt64 := do
  let toNext ← changeStep.checkedSub (payment % changeStep)
  let roundUp := toNext % changeStep
  (max roundUp changeMin).checkedMul self.changeMultiplier.toUInt64

/-- Index of the user's week at `now`, counted from enrollment. -/
def weekAt (self : UserConfig) (now : ℤ) : UInt32 :=
  UInt32.ofInt (max (I64.saturatingSub now self.enrolledAt) 0 / weekSeconds)

/-- The combined cap across both payment tokens for the week of `now`. -/
def weeklyCap (self : UserConfig) (betaCap : UInt64) (now : ℤ) : UInt64 :=
  let cap := if now < I64.saturatingAdd self.enrolledAt trialSeconds then trialCap
    else tiers[self.tier.toNat]?.getD 0
  min cap betaCap

/-- Pulled so far in the week of `now`, across both payment tokens. -/
def spentAt (self : UserConfig) (now : ℤ) : UInt64 :=
  if self.weekAt now = self.week then self.weekSpent else 0

/-- The daily engine buys once per UTC day; the weekly engine once per week, during a
regular session. -/
def engineDue (self : UserConfig) (calendar : MarketCalendar) (now : ℤ) : Bool :=
  let ran : Bool := self.engineRanAt ≥ self.enrolledAt
  match self.engine with
  | .daily => !ran || now / daySeconds > self.engineRanAt / daySeconds
  | .weekly =>
    (!ran || self.weekAt now > self.weekAt self.engineRanAt) && usMarketOpen now calendar

def pull (self : UserConfig) (paymentToken : ℕ) (balance betaCap : UInt64)
    (calendar : MarketCalendar) (now : ℤ) : Result Pull :=
  if self.status ≠ .active then return Pull.default
  else do
    let cushion := self.cushions[paymentToken]?.getD UInt64.maxValue
    let room := min ((self.weeklyCap betaCap now).saturatingSub (self.spentAt now))
      (balance.saturatingSub cushion)
    let engine := if self.engineDue calendar now then min self.engineAmount room else 0
    return ⟨engine, min self.pending (← room.checkedSub engine)⟩

/-- Records a completed pull: rolls the week over, counts the pull against it, consumes the
pending amount and marks the engine as run. -/
def record (self : UserConfig) (pull : Pull) (now : ℤ) : Result UserConfig := do
  let week := self.weekAt now
  let self := if week ≠ self.week then { self with week := week, weekSpent := 0 } else self
  let total ← pull.total
  let self := { self with
    weekSpent := self.weekSpent.saturatingAdd total
    pending := self.pending.saturatingSub pull.pending }
  return if pull.engine > 0 then { self with engineRanAt := now } else self

/-- The bounds of a pull: it comes from an active user, within the week's room, above the
cushion, takes no more pending than there is, and has an engine part only when one is due. -/
structure Allows (user : UserConfig) (paymentToken : ℕ) (balance betaCap : UInt64)
    (calendar : MarketCalendar) (now : ℤ) (p : Pull) : Prop where
  active : user.status = .active
  room : p.engine.toNat + p.pending.toNat ≤
    (user.weeklyCap betaCap now).toNat - (user.spentAt now).toNat
  cushion : p.engine.toNat + p.pending.toNat ≤
    balance.toNat - (user.cushions[paymentToken]?.getD UInt64.maxValue).toNat
  pending : p.pending.toNat ≤ user.pending.toNat
  engine : 0 < p.engine.toNat → user.engineDue calendar now = true

variable {self : UserConfig} {paymentToken : ℕ} {balance betaCap limit : UInt64}
  {calendar : MarketCalendar} {now : ℤ} {p q : Pull}

/-- A pull of anything at all keeps every bound. -/
theorem pull_allows (h : self.pull paymentToken balance betaCap calendar now = .ok p)
    (hp : 0 < p.engine.toNat + p.pending.toNat) :
    self.Allows paymentToken balance betaCap calendar now p := by
  unfold pull at h
  split at h
  · rw [pure_eq_ok] at h
    subst h
    simp [Pull.default] at hp
  · rename_i hactive
    simp only [bind_eq_ok, pure_eq_ok, UInt64.checkedSub_eq_ok, UInt64.toNat_min,
      UInt64.toNat_saturatingSub] at h
    obtain ⟨rest, ⟨hle, hrest⟩, rfl⟩ := h
    have hpending : (min self.pending rest).toNat = min self.pending.toNat rest.toNat :=
      UInt64.toNat_min _ _
    refine ⟨not_not.mp hactive, ?_, ?_, ?_, ?_⟩
    · dsimp only
      omega
    · dsimp only
      omega
    · dsimp only
      omega
    · intro hengine
      by_contra hdue
      simp [hdue] at hengine

/-- Whatever the payment and the multiplier, the change is computed: the round-up is at most a
dollar, so neither its subtraction nor the product leaves a word. -/
theorem exists_change (self : UserConfig) (payment : UInt64) :
    ∃ v, self.change payment = .ok v ∧ v.toNat =
      max ((1000000 - payment.toNat % 1000000) % 1000000) 500000 * self.changeMultiplier.toNat := by
  have hpast : (payment % changeStep).toNat = payment.toNat % 1000000 := UInt64.toNat_mod _ _
  have hsub : changeStep.checkedSub (payment % changeStep) =
      (.ok (changeStep - payment % changeStep) : Result UInt64) := by
    refine if_pos (UInt64.le_iff_toNat_le.mpr ?_)
    rw [hpast]
    exact (Nat.mod_lt _ (by decide)).le
  have hnext : (changeStep - payment % changeStep).toNat = 1000000 - payment.toNat % 1000000 := by
    rw [(UInt64.checkedSub_eq_ok.mp hsub).2, hpast]
    rfl
  have hbase : (max ((changeStep - payment % changeStep) % changeStep) changeMin).toNat =
      max ((1000000 - payment.toNat % 1000000) % 1000000) 500000 := by
    rw [UInt64.toNat_max, UInt64.toNat_mod, hnext]
    rfl
  have hmultiplier := self.changeMultiplier.toNat_lt
  have hlt : max ((1000000 - payment.toNat % 1000000) % 1000000) 500000 < 1000000 :=
    max_lt (Nat.mod_lt _ (by decide)) (by decide)
  have hproduct := Nat.mul_lt_mul'' hlt hmultiplier
  obtain ⟨v, hv, hvalue⟩ : ∃ v, (max ((changeStep - payment % changeStep) % changeStep)
      changeMin).checkedMul self.changeMultiplier.toUInt64 = (.ok v : Result UInt64) ∧ _ :=
    UInt64.checkedMul_of_lt (by rw [hbase, UInt8.toNat_toUInt64]; omega)
  rw [hbase, UInt8.toNat_toUInt64] at hvalue
  exact ⟨v, by rw [change, hsub, ok_bind]; exact hv, hvalue⟩

/-- Whatever the state, the pull is computed. -/
theorem noPanic_pull (self : UserConfig) (paymentToken : ℕ) (balance betaCap : UInt64)
    (calendar : MarketCalendar) (now : ℤ) :
    NoPanic (self.pull paymentToken balance betaCap calendar now) := by
  unfold pull
  refine NoPanic.ite (fun _ => NoPanic.pure _) fun _ => ?_
  refine NoPanic.bind (UInt64.NoPanic.checkedSub ?_) fun _ _ => NoPanic.pure _
  split
  · rw [UInt64.toNat_min]
    exact Nat.min_le_right _ _
  · exact Nat.zero_le _

theorem Allows.capped (ha : self.Allows paymentToken balance betaCap calendar now p)
    (h : p.capped limit = .ok q) : self.Allows paymentToken balance betaCap calendar now q := by
  obtain ⟨hengine, hpending⟩ := Pull.capped_spec h
  obtain ⟨active, room, cushion, pending, engine⟩ := ha
  exact ⟨active, by omega, by omega, by omega, fun hq => engine (by omega)⟩

/-- The parts of a pull fit one word together. -/
theorem Allows.fits (ha : self.Allows paymentToken balance betaCap calendar now p) :
    p.engine.toNat + p.pending.toNat < 2 ^ 64 := by
  have hroom := ha.room
  have hcap := (self.weeklyCap betaCap now).toNat_lt
  omega

/-- The pull computed for any state fits one word. -/
theorem pull_fits (h : self.pull paymentToken balance betaCap calendar now = .ok p) :
    p.engine.toNat + p.pending.toNat < 2 ^ 64 := by
  by_cases hp : 0 < p.engine.toNat + p.pending.toNat
  · exact (pull_allows h hp).fits
  · omega

/-- What recording a pull leaves: the week of the clock with the pull counted in it, the
pending amount less its part, and the engine's time moved when it bought. -/
theorem record_eq {self' : UserConfig} (h : self.record p now = .ok self') :
    ∃ total : UInt64, total.toNat = p.engine.toNat + p.pending.toNat ∧
      self' = { self with
        week := self.weekAt now
        weekSpent := (self.spentAt now).saturatingAdd total
        pending := self.pending.saturatingSub p.pending
        engineRanAt := if p.engine > 0 then now else self.engineRanAt } := by
  simp only [record, bind_eq_ok, pure_eq_ok, Pull.total_eq_ok] at h
  obtain ⟨total, htotal, rfl⟩ := h
  refine ⟨total, htotal, ?_⟩
  by_cases hweek : self.weekAt now = self.week
  · by_cases hengine : p.engine > 0 <;> simp [spentAt, hweek, hengine]
  · by_cases hengine : p.engine > 0 <;> simp [spentAt, hweek, hengine]

theorem noPanic_record (hp : p.engine.toNat + p.pending.toNat < 2 ^ 64) :
    NoPanic (self.record p now) :=
  NoPanic.bind (Pull.noPanic_total hp) fun _ _ => NoPanic.pure _

end UserConfig

end Laterite
