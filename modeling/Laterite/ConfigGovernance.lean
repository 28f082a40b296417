import Laterite.ReplayedRuns
import Laterite.SeatCount

/-!
# Who changes the config

The tables, the router and the genesis hash never change. Every other change but a seat's is
signed by the admin of the moment, and the admin changes only by a handover: a proposal the
admin signed, not replaced since, that the proposed key accepts.
-/

namespace Laterite

open CheckedComputation TimedRuns

structure ConfigChange (signers : Signers) (action : ConfigAction) (b a : Config) : Prop where
  router : a.router = b.router
  assets : a.assets = b.assets
  paymentTokens : a.paymentTokens = b.paymentTokens
  genesisHash : a.genesisHash = b.genesisHash
  handover : a.admin ≠ b.admin →
    action = .acceptAdmin a.admin ∧ a.admin ∈ signers.keys ∧ b.pendingAdmin = a.admin
  proposal : a.pendingAdmin ≠ b.pendingAdmin →
    a.pendingAdmin = Pubkey.default ∨ action = .proposeAdmin a.pendingAdmin
  rules : b.admin ∉ signers.keys → a.attestor = b.attestor ∧ a.sponsor = b.sponsor ∧
    a.userWeeklyCap = b.userWeeklyCap ∧ a.maxUsers = b.maxUsers ∧ a.paused = b.paused ∧
    a.marketCalendar = b.marketCalendar
  unsigned : b.admin ∉ signers.keys → b.pendingAdmin ∉ signers.keys →
    a = { b with userCount := a.userCount }
  seats : a.userCount ≠ b.userCount →
    ∃ user, action = .takeSeat user ∨ action = .freeSeat user

theorem ConfigStep.change {t : Transition (Option Config) (Signers × ConfigAction)} {b : Config}
    (ht : ConfigStep t) (hb : t.before = some b) :
    ∃ a, t.after = some a ∧ ConfigChange t.event.1 t.event.2 b a := by
  cases ht with
  | initializeConfig => cases hb
  | acceptAdmin signed =>
    cases hb
    exact ⟨_, rfl, rfl, rfl, rfl, rfl, fun _ => ⟨rfl, signed, rfl⟩, fun _ => .inl rfl,
      fun _ => ⟨rfl, rfl, rfl, rfl, rfl, rfl⟩, fun _ hpending => absurd signed hpending,
      fun h => absurd rfl h⟩
  | proposeAdmin signed =>
    cases hb
    exact ⟨_, rfl, rfl, rfl, rfl, rfl, fun h => absurd rfl h, fun _ => .inr rfl,
      fun h => absurd signed h, fun h => absurd signed h, fun h => absurd rfl h⟩
  | updateConfig signed | setPaused signed | setMarketCalendar signed =>
    cases hb
    exact ⟨_, rfl, rfl, rfl, rfl, rfl, fun h => absurd rfl h, fun h => absurd rfl h,
      fun h => absurd signed h, fun h => absurd signed h, fun h => absurd rfl h⟩
  | takeSeat =>
    cases hb
    exact ⟨_, rfl, rfl, rfl, rfl, rfl, fun h => absurd rfl h, fun h => absurd rfl h,
      fun _ => ⟨rfl, rfl, rfl, rfl, rfl, rfl⟩, fun _ _ => rfl, fun _ => ⟨_, .inl rfl⟩⟩
  | freeSeat =>
    cases hb
    exact ⟨_, rfl, rfl, rfl, rfl, rfl, fun h => absurd rfl h, fun h => absurd rfl h,
      fun _ => ⟨rfl, rfl, rfl, rfl, rfl, rfl⟩, fun _ _ => rfl, fun _ => ⟨_, .inr rfl⟩⟩

variable {d : Deployment} {inv : Invocation} {accounts : Accounts}
  {history newer older : List (Transition Chain Happening)} {chain : Chain}
  {t : Transition Chain Happening} {b : Config} {key : Pubkey}

theorem configAction_eq_some {signers : Signers} {action : ConfigAction}
    (h : configAction t = some (signers, action)) :
    ∃ inv call event, t.event = .called inv call (.ok event) ∧ inv.signers = signers ∧
      call.configAction = some action := by
  unfold configAction at h
  split at h
  · rename_i inv call event hevent
    obtain ⟨action', haction, heq⟩ := Option.map_eq_some_iff.mp h
    cases heq
    exact ⟨inv, call, event, hevent, rfl, haction⟩
  · cases h

/-- A step of the program leaves a config as it was or changes it as one step may. -/
theorem Step.configChange (ht : Step d t) (hb : t.before.config = some b) :
    (configAction t = none ∧ t.after.config = some b) ∨
      ∃ inv call event action a, t.event = .called inv call (.ok event) ∧
        configAction t = some (inv.signers, action) ∧ call.configAction = some action ∧
        t.after.config = some a ∧ ConfigChange inv.signers action b a := by
  obtain ⟨hnone, hsame⟩ | ⟨⟨signers, action⟩, haction, hstep⟩ := ht.configStep
  · exact .inl ⟨hnone, hsame.trans hb⟩
  · obtain ⟨inv, call, event, hcalled, rfl, hcall⟩ := configAction_eq_some haction
    obtain ⟨a, ha, hchange⟩ := hstep.change hb
    exact .inr ⟨inv, call, event, action, a, hcalled, haction, hcall, ha, hchange⟩

def Proposes (key : Pubkey) (t : Transition Chain Happening) : Prop :=
  ∃ inv admin event, t.event = .called inv (.proposeAdmin admin key) (.ok event)

def Accepts (key : Pubkey) (t : Transition Chain Happening) : Prop :=
  ∃ inv event, t.event = .called inv (.acceptAdmin key) (.ok event)

/-- The last successful proposal of a history, with no acceptance since, named the key and was
signed by the admin of its time. -/
def LastProposed (key : Pubkey) (history : List (Transition Chain Happening)) : Prop :=
  ∃ newer t older, history = newer ++ t :: older ∧
    (∃ inv admin event c, t.event = .called inv (.proposeAdmin admin key) (.ok event) ∧
      t.before.config = some c ∧ c.admin = admin ∧ admin ∈ inv.signers.keys) ∧
    ∀ q ∈ newer, (∀ key', ¬Proposes key' q) ∧ ∀ key', ¬Accepts key' q

private def WritesPending (t : Transition Chain Happening) : Prop :=
  (∃ key, Proposes key t) ∨ (∃ key, Accepts key t) ∨
    ∃ inv authority params mints event,
      t.event = .called inv (.initializeConfig authority params mints) (.ok event)

private theorem pendingAdmin_kept (ht : Step d t) (hw : ¬WritesPending t) :
    t.after.config.map Config.pendingAdmin = t.before.config.map Config.pendingAdmin := by
  obtain ⟨-, hsame⟩ | ⟨⟨signers, action⟩, haction, hstep⟩ := ht.configStep
  · rw [hsame]
  · obtain ⟨inv, call, event, hcalled, rfl, hcall⟩ := configAction_eq_some haction
    generalize t.before.config = before at hstep
    generalize t.after.config = after at hstep
    cases hstep with
    | initializeConfig =>
      cases call <;> cases hcall
      exact absurd (.inr (.inr ⟨_, _, _, _, _, hcalled⟩)) hw
    | proposeAdmin =>
      cases call <;> cases hcall
      exact absurd (.inl ⟨_, _, _, _, hcalled⟩) hw
    | acceptAdmin =>
      cases call <;> cases hcall
      exact absurd (.inr (.inl ⟨_, _, _, hcalled⟩)) hw
    | _ => rfl

theorem ProgramRun.lastProposed (run : ProgramRun d accounts history chain)
    (hb : chain.config = some b) (hkey : b.pendingAdmin ≠ Pubkey.default) :
    LastProposed b.pendingAdmin history := by
  obtain ⟨-, hslot⟩ | ⟨newer, t, older, rfl, hnewer, hw, hslot⟩ :=
    Run.last_write (fun c : Chain => c.config.map Config.pendingAdmin) run
      fun t ht => pendingAdmin_kept ht
  · simp [hb, Chain.genesis] at hslot
  · obtain ⟨-, -, taken, -, -⟩ := Run.split run
    rw [hb, Option.map_some] at hslot
    obtain ⟨key, inv, admin, event, hcalled⟩ | ⟨key, inv, event, hcalled⟩ |
      ⟨inv, authority, params, mints, event, hcalled⟩ := hw
    · obtain ⟨-, hok⟩ := taken.execute_of_ok hcalled
      rw [execute, emitting_eq_ok] at hok
      obtain ⟨_, -, hok⟩ := hok
      obtain ⟨c, hadmin, hafter⟩ := proposeAdmin_ok hok
      obtain ⟨hs, hc, hadmin⟩ := adminOnly_eq_ok.mp hadmin
      rw [hafter, Chain.setConfig_config, Option.map_some] at hslot
      obtain rfl : b.pendingAdmin = key := Option.some.inj hslot
      refine ⟨newer, t, older, rfl, ⟨inv, admin, event, c, hcalled, hc, hadmin, hs⟩, fun q hq => ?_⟩
      exact ⟨fun key' hp => hnewer q hq (.inl ⟨key', hp⟩),
        fun key' ha => hnewer q hq (.inr (.inl ⟨key', ha⟩))⟩
    · obtain ⟨-, hok⟩ := taken.execute_of_ok hcalled
      rw [execute, emitting_eq_ok] at hok
      obtain ⟨_, -, hok⟩ := hok
      obtain ⟨c, -, -, -, hafter⟩ := acceptAdmin_ok hok
      rw [hafter, Chain.setConfig_config, Option.map_some] at hslot
      exact absurd (Option.some.inj hslot) hkey
    · obtain ⟨-, hok⟩ := taken.execute_of_ok hcalled
      rw [execute, emitting_eq_ok] at hok
      obtain ⟨_, -, hok⟩ := hok
      obtain ⟨-, -, -, -, hafter⟩ := initializeConfig_ok hok
      rw [hafter, Chain.setConfig_config, Option.map_some] at hslot
      exact absurd (Option.some.inj hslot) hkey

def Config.HoldsOffice (c : Config) (key : Pubkey) : Prop := c.admin = key ∨ c.pendingAdmin = key

theorem Step.not_holdsOffice (ht : Step d t) (hb : t.before.config = some b)
    (hdefault : key ≠ Pubkey.default) (hout : ¬b.HoldsOffice key) (hnot : ¬Proposes key t) :
    ∃ a, t.after.config = some a ∧ ¬a.HoldsOffice key := by
  obtain ⟨-, hafter⟩ | ⟨inv, call, event, action, a, hcalled, -, hcall, hafter, hchange⟩ :=
    ht.configChange hb
  · exact ⟨b, hafter, hout⟩
  · refine ⟨a, hafter, ?_⟩
    rintro (rfl | rfl)
    · by_cases hsame : a.admin = b.admin
      · exact hout (.inl hsame.symm)
      · exact hout (.inr (hchange.handover hsame).2.2)
    · by_cases hsame : a.pendingAdmin = b.pendingAdmin
      · exact hout (.inr hsame.symm)
      · obtain hnone | rfl := hchange.proposal hsame
        · exact hdefault hnone
        · cases call <;> cases hcall
          exact hnot ⟨inv, _, event, hcalled⟩

/-- A key that lost its office gets none back in a run that does not propose it again. -/
theorem not_holdsOffice_since {s : Chain} (run : Run (Step d) s newer chain)
    (hs : s.config = some b) (hdefault : key ≠ Pubkey.default) (hout : ¬b.HoldsOffice key)
    (hnot : ∀ q ∈ newer, ¬Proposes key q) : ∃ c, chain.config = some c ∧ ¬c.HoldsOffice key := by
  induction run with
  | start => exact ⟨b, hs, hout⟩
  | @next newer t past later taken ih =>
    obtain ⟨c, hc, hnone⟩ := ih fun q hq => hnot q (by simp [hq])
    exact taken.not_holdsOffice hc hdefault hnone (hnot t (by simp))

theorem ProgramRun.fixed (run : ProgramRun d accounts history chain) :
    ∀ t ∈ history, ∀ b, t.before.config = some b → ∃ c, chain.config = some c ∧
      c.router = b.router ∧ c.assets = b.assets ∧ c.paymentTokens = b.paymentTokens ∧
      c.genesisHash = b.genesisHash := by
  refine Run.induct (J := fun h s => ∀ t ∈ h, ∀ b, t.before.config = some b →
    ∃ c, s.config = some c ∧ c.router = b.router ∧ c.assets = b.assets ∧
      c.paymentTokens = b.paymentTokens ∧ c.genesisHash = b.genesisHash) run (by simp) ?_
  intro h t _ _ taken ih p hp b hb
  have hstep : ∀ c, t.before.config = some c → ∃ a, t.after.config = some a ∧
      a.router = c.router ∧ a.assets = c.assets ∧ a.paymentTokens = c.paymentTokens ∧
      a.genesisHash = c.genesisHash := by
    intro c hc
    obtain ⟨-, hafter⟩ | ⟨_, _, _, _, a, -, -, -, hafter, hchange⟩ := taken.configChange hc
    · exact ⟨c, hafter, rfl, rfl, rfl, rfl⟩
    · exact ⟨a, hafter, hchange.router, hchange.assets, hchange.paymentTokens, hchange.genesisHash⟩
  rcases List.mem_cons.mp hp with rfl | hp
  · exact hstep b hb
  · obtain ⟨c, hc, h₁, h₂, h₃, h₄⟩ := ih p hp b hb
    obtain ⟨a, ha, k₁, k₂, k₃, k₄⟩ := hstep c hc
    exact ⟨a, ha, k₁.trans h₁, k₂.trans h₂, k₃.trans h₃, k₄.trans h₄⟩

/-- A call signed by neither the admin nor the key waiting to become it moves only the count. -/
theorem unsigned_call {call : Call} {event : Option Event} {after : Chain}
    (h : execute d inv chain call = .ok (event, after)) (hb : chain.config = some b)
    (hadmin : b.admin ∉ inv.signers.keys) (hpending : b.pendingAdmin ∉ inv.signers.keys) :
    ∃ userCount, after.config = some { b with userCount := userCount } := by
  obtain ⟨-, hafter⟩ | ⟨_, _, _, _, a, hcalled, -, -, hafter, hchange⟩ :=
    (Step.of_execute h).configChange hb
  · exact ⟨b.userCount, hafter⟩
  · cases hcalled
    exact ⟨a.userCount, hafter.trans (congrArg some (hchange.unsigned hadmin hpending))⟩

theorem Step.governed (past : ProgramRun d accounts older t.before) (ht : Step d t)
    (hb : t.before.config = some b) :
    ∃ a, t.after.config = some a ∧
      (a.admin ≠ b.admin → ∃ inv event, t.event = .called inv (.acceptAdmin a.admin) (.ok event) ∧
        a.admin ∈ inv.signers.keys ∧ LastProposed a.admin older) ∧
      ((a.attestor ≠ b.attestor ∨ a.sponsor ≠ b.sponsor ∨ a.userWeeklyCap ≠ b.userWeeklyCap ∨
          a.maxUsers ≠ b.maxUsers ∨ a.paused ≠ b.paused ∨ a.marketCalendar ≠ b.marketCalendar) →
        ∃ inv call event, t.event = .called inv call (.ok event) ∧ b.admin ∈ inv.signers.keys) ∧
      (a.userCount ≠ b.userCount →
        ∃ user, SeatTaken user b a t.before t.after ∨ SeatFreed user b a t.before t.after) := by
  obtain ⟨-, hafter⟩ | ⟨inv, call, event, action, a, hcalled, -, hcall, hafter, hchange⟩ :=
    ht.configChange hb
  · exact ⟨b, hafter, fun h => absurd rfl h, by simp, fun h => absurd rfl h⟩
  · refine ⟨a, hafter, fun hne => ?_, fun hne => ?_, fun hne => ?_⟩
    · obtain ⟨haction, hsigned, hpending⟩ := hchange.handover hne
      subst haction
      cases call <;> cases hcall
      refine ⟨inv, event, hcalled, hsigned, ?_⟩
      rw [← hpending] at hsigned ⊢
      exact past.lastProposed hb fun hdefault => inv.signers.default_notMem (hdefault ▸ hsigned)
    · refine ⟨inv, call, event, hcalled, ?_⟩
      by_contra hadmin
      obtain ⟨h₁, h₂, h₃, h₄, h₅, h₆⟩ := hchange.rules hadmin
      simp [h₁, h₂, h₃, h₄, h₅, h₆] at hne
    · obtain ⟨user, rfl | rfl⟩ := hchange.seats hne
      · have htakes : call.takesSeat = some user := by
          cases call <;> cases hcall <;> rfl
        obtain ⟨b', a', htaken⟩ := ht.seatTaken hcalled htakes
        obtain rfl := Option.some.inj (hb.symm.trans htaken.configBefore)
        obtain rfl := Option.some.inj (hafter.symm.trans htaken.configAfter)
        exact ⟨user, .inl htaken⟩
      · have hfrees : call.freesSeat = some user := by
          cases call <;> cases hcall
          rfl
        obtain ⟨b', a', hfreed⟩ := ht.seatFreed hcalled hfrees
        obtain rfl := Option.some.inj (hb.symm.trans hfreed.configBefore)
        obtain rfl := Option.some.inj (hafter.symm.trans hfreed.configAfter)
        exact ⟨user, .inr hfreed⟩

/-- The governance of the config over every run. The tables, the router and the genesis hash
stay as they were created, no key is unset and no cap is zero. The admin changes only to a key
that signs an acceptance after the then admin's last proposal named it; the settings, the
pause and the calendar only in a call the admin of the moment signed; the count only with a
seat. A key that lost the admin's or the candidate's office and is not proposed again can, on
its own, change nothing but the count. -/
theorem config_governance (run : ProgramRun d accounts history chain) :
    (∀ c, chain.config = some c → c.attestor ≠ Pubkey.default ∧ c.sponsor ≠ Pubkey.default ∧
      0 < c.userWeeklyCap ∧ 0 < c.maxUsers) ∧
    (∀ t ∈ history, ∀ b, t.before.config = some b → ∃ c, chain.config = some c ∧
      c.router = b.router ∧ c.assets = b.assets ∧ c.paymentTokens = b.paymentTokens ∧
      c.genesisHash = b.genesisHash) ∧
    (∀ newer t older b, history = newer ++ t :: older → t.before.config = some b →
      ∃ a, t.after.config = some a ∧
        (a.admin ≠ b.admin → ∃ inv event, t.event = .called inv (.acceptAdmin a.admin) (.ok event) ∧
          a.admin ∈ inv.signers.keys ∧ LastProposed a.admin older) ∧
        ((a.attestor ≠ b.attestor ∨ a.sponsor ≠ b.sponsor ∨ a.userWeeklyCap ≠ b.userWeeklyCap ∨
            a.maxUsers ≠ b.maxUsers ∨ a.paused ≠ b.paused ∨ a.marketCalendar ≠ b.marketCalendar) →
          ∃ inv call event, t.event = .called inv call (.ok event) ∧ b.admin ∈ inv.signers.keys) ∧
        (a.userCount ≠ b.userCount →
          ∃ user, SeatTaken user b a t.before t.after ∨ SeatFreed user b a t.before t.after)) ∧
    ∀ newer t older b a key, history = newer ++ t :: older → t.before.config = some b →
      t.after.config = some a → b.HoldsOffice key → ¬a.HoldsOffice key → key ≠ Pubkey.default →
      (∀ q ∈ newer, ¬Proposes key q) →
      ∃ c, chain.config = some c ∧ ¬c.HoldsOffice key ∧
        ∀ inv call event after, execute d inv chain call = .ok (event, after) →
          (∀ k ∈ inv.signers.keys, k = key) →
          ∃ userCount, after.config = some { c with userCount := userCount } := by
  refine ⟨fun c hc => ?_, run.fixed, ?_, ?_⟩
  · have hwell := (hc ▸ run.configRun : ConfigRun _ (some c)).wellFormed
    exact ⟨hwell.attestor, hwell.sponsor, hwell.userWeeklyCap, hwell.maxUsers⟩
  · rintro newer t older b rfl hb
    obtain ⟨past, -, taken, -⟩ := Run.split run
    exact Step.governed past taken hb
  · rintro newer t older b a key rfl hb ha - hout hdefault hnot
    obtain ⟨m, hm, hnewer⟩ := Run.suffix run
    obtain rfl := (Run.last hm).2.2.2
    obtain ⟨c, hc, hnone⟩ := not_holdsOffice_since hnewer ha hdefault hout hnot
    refine ⟨c, hc, hnone, fun inv call event after hok hkeys => unsigned_call hok hc ?_ ?_⟩
    · exact fun hmem => hnone (.inl (hkeys _ hmem))
    · exact fun hmem => hnone (.inr (hkeys _ hmem))

/-- In the rehearsed handover the role passes to the key last proposed. -/
theorem config_governance_rehearsed :
    ∃ a, (Rehearsal.ledger Rehearsal.handover).config = some a ∧ a.admin = Rehearsal.admin ∧
      LastProposed a.admin (Rehearsal.history [Rehearsal.proposing, Rehearsal.initializing]) := by
  have hbefore : (Rehearsal.ledger [Rehearsal.proposing, Rehearsal.initializing]).config.any
      (fun b => b.admin = Rehearsal.founder) = true := by
    decide +kernel
  have hafter : (Rehearsal.ledger Rehearsal.handover).config.any
      (fun a => a.admin = Rehearsal.admin) = true := by
    decide +kernel
  obtain ⟨b, hb, hfounder⟩ := (Option.any_eq_true _ _).mp hbefore
  obtain ⟨a, ha, hadmin⟩ := (Option.any_eq_true _ _).mp hafter
  have hmoves := (config_governance (Rehearsal.ledger_run Rehearsal.handover (by decide))).2.2.1 []
    (moment Rehearsal.deployment Rehearsal.accounts Rehearsal.accepting
      [Rehearsal.proposing, Rehearsal.initializing])
    (Rehearsal.history [Rehearsal.proposing, Rehearsal.initializing]) b rfl hb
  obtain ⟨a', ha', hhandover, -⟩ := hmoves
  obtain rfl := Option.some.inj (ha.symm.trans ha')
  have hne : a.admin ≠ b.admin := by
    rw [of_decide_eq_true hadmin, of_decide_eq_true hfounder]
    decide
  obtain ⟨_, _, -, -, hproposed⟩ := hhandover hne
  exact ⟨a, ha, of_decide_eq_true hadmin, hproposed⟩

end Laterite
