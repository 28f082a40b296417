import Laterite.SponsoredSends

/-!
# What lands stays within the limits

A claimed message that may still land is counted by its row, unless the route settled the row as
failed. So when only dead transactions are settled as failed, each claim is weighed against all
that landed or may land, and the windows of the limits hold at every moment.
-/

namespace Laterite.Sponsor

open AdmissionWindows

variable {rows rows' : List Sponsorship} {submissions newer older : List Submission}
  {claiming : Option Reads} {state state' : SponsorState}

theorem countP_submissions_le {p : Submission → Bool} {q : Sponsorship → Bool}
    (hclaimed : (submissions.map fun s => s.row.id).Nodup)
    (h : ∀ s ∈ submissions, p s = true → ∃ row ∈ rows, row.id = s.row.id ∧ q row = true) :
    submissions.countP p ≤ (rows.filter q).length := by
  have hnodup : ((submissions.filter p).map fun s => s.row.id).Nodup :=
    hclaimed.sublist (List.filter_sublist.map _)
  have hsubset : (submissions.filter p).map (fun s => s.row.id) ⊆
      (rows.filter q).map Sponsorship.id := by
    intro id hid
    rcases List.mem_map.mp hid with ⟨s, hs, rfl⟩
    rcases List.mem_filter.mp hs with ⟨hs, hp⟩
    rcases h s hs hp with ⟨row, hrow, heq, hq⟩
    exact List.mem_map.mpr ⟨row, List.mem_filter.mpr ⟨hrow, hq⟩, heq⟩
  have hle := (hnodup.subperm hsubset).length_le
  rw [List.length_map, List.length_map] at hle
  rw [List.countP_eq_length_filter]
  exact hle

theorem eq_of_id {a b : Sponsorship} (hids : (rows.map Sponsorship.id).Nodup) (ha : a ∈ rows)
    (hb : b ∈ rows) (h : a.id = b.id) : a = b :=
  List.inj_on_of_nodup_map hids ha hb h

@[simp] theorem settled_id (row : Sponsorship) (settlement : Settlement) :
    (row.settled settlement).id = row.id := by
  cases settlement <;> rfl

@[simp] theorem settled_message (row : Sponsorship) (settlement : Settlement) :
    (row.settled settlement).message = row.message := by
  cases settlement <;> rfl

@[simp] theorem claimed_id (row : Sponsorship) (ip : Option String) (now : ℤ) :
    (row.claimed ip now).id = row.id := rfl

@[simp] theorem claimed_message (row : Sponsorship) (ip : Option String) (now : ℤ) :
    (row.claimed ip now).message = row.message := rfl

theorem claimed_outcome_ne (row : Sponsorship) (ip : Option String) (now : ℤ) :
    (row.claimed ip now).outcome ≠ .prepared := Outcome.noConfusion

theorem settled_outcome_ne (row : Sponsorship) (settlement : Settlement) :
    (row.settled settlement).outcome ≠ .prepared := by
  cases settlement <;> exact Outcome.noConfusion

theorem map_change {β : Type} {key : Sponsorship → β} {change : Sponsorship → Sponsorship}
    (hkey : ∀ row, key (change row) = key row) (id : ℕ) :
    (rows.map fun row => if row.id = id then change row else row).map key = rows.map key := by
  rw [List.map_map]
  apply List.map_congr_left
  intro row _
  dsimp only [Function.comp]
  split
  · exact hkey row
  · rfl

theorem mem_change {change : Sponsorship → Sponsorship} {row : Sponsorship} {id : ℕ}
    (h : row ∈ rows) (hid : row.id ≠ id) :
    row ∈ rows.map fun row => if row.id = id then change row else row :=
  List.mem_map.mpr ⟨row, h, if_neg hid⟩

theorem Listed.change {change : Sponsorship → Sponsorship} {s : Submission}
    (h : Listed rows s) (hid : ∀ row, (change row).id = row.id)
    (hmessage : ∀ row, (change row).message = row.message)
    (houtcome : ∀ row, (change row).outcome ≠ .prepared) (id : ℕ) :
    Listed (rows.map fun row => if row.id = id then change row else row) s := by
  rcases h with ⟨row, hrow, heq, hsame, hout⟩
  refine ⟨_, List.mem_map_of_mem hrow, ?_⟩
  split
  · exact ⟨(hid row).trans heq, (hmessage row).trans hsame, houtcome row⟩
  · exact ⟨heq, hsame, hout⟩

theorem Recorded.change {change : Sponsorship → Sponsorship} {s : Submission} {id : ℕ}
    (h : Recorded rows s) (hne : s.row.id ≠ id) :
    Recorded (rows.map fun row => if row.id = id then change row else row) s := by
  rcases h with ⟨row, hrow, heq, hrest⟩
  exact ⟨row, mem_change hrow (heq ▸ hne), heq, hrest⟩

theorem Recorded.landed {s : Submission} (h : Recorded rows s) (id : ℕ) (signature : String) :
    Recorded (settleSend rows id (.landed signature)) s := by
  rcases h with ⟨row, hrow, heq, hwallet, hkind, hasset, hsent, hip, hspent⟩
  refine ⟨_, List.mem_map_of_mem hrow, ?_⟩
  split
  · exact ⟨heq, hwallet, hkind, hasset, hsent, hip, rfl⟩
  · exact ⟨heq, hwallet, hkind, hasset, hsent, hip, hspent⟩

structure Staged (s t : Submission) : Prop where
  counts : t.counts = true → s.counts = true
  row : t.row = s.row
  ip : t.ip = s.ip
  claimedAt : t.claimedAt = s.claimedAt

theorem Staged.refl (s : Submission) : Staged s s := ⟨id, rfl, rfl, rfl⟩

theorem Staged.recorded {s t : Submission} (h : Staged s t) (hs : Recorded rows s) :
    Recorded rows t := by
  rcases hs with ⟨row, hrow, hrest⟩
  refine ⟨row, hrow, ?_⟩
  rw [h.row, h.ip, h.claimedAt]
  exact hrest

theorem Staged.listed {s t : Submission} (h : Staged s t) (hs : Listed rows s) : Listed rows t := by
  rcases hs with ⟨row, hrow, hrest⟩
  refine ⟨row, hrow, ?_⟩
  rw [h.row]
  exact hrest

theorem Staged.fades {s t : Submission} (h : Staged s t) {among : Submission → Bool}
    (hamong : among t = among s) {recent : Submission → Submission → Bool}
    (hleft : ∀ z, recent t z = recent s z) (hright : ∀ z, recent z t = recent z s) :
    Fades (fun s => s.counts && among s) recent s t where
  counts ht := by
    rw [Bool.and_eq_true] at ht ⊢
    exact ⟨h.counts ht.1, hamong ▸ ht.2⟩
  recent_left := hleft
  recent_right := hright

theorem Staged.fades_within {s t : Submission} (h : Staged s t) {among : Submission → Bool}
    (hamong : among t = among s) (window : ℤ) :
    Fades (fun s => s.counts && among s) (within window) s t :=
  h.fades hamong (fun z => by rw [within, within, h.claimedAt])
    (fun z => by rw [within, within, h.claimedAt])

theorem Limits.staged (h : Limits submissions) {changed : List Submission}
    (hstaged : List.Forall₂ Staged submissions changed) : Limits changed where
  wallet wallet :=
    (h.wallet wallet).fades (hstaged.imp fun _ _ hst => hst.fades_within (by rw [hst.row]) _)
  ip address := (h.ip address).fades (hstaged.imp fun _ _ hst => hst.fades_within (by rw [hst.ip]) _)
  all := by
    apply h.all.fades
    apply hstaged.imp
    intro s t hst
    have hfades := @Staged.fades_within s t hst (fun _ => true) rfl dayMs
    simp only [Bool.and_true] at hfades
    exact hfades
  returns wallet :=
    (h.returns wallet).fades (hstaged.imp fun _ _ hst => hst.fades_within (by rw [hst.row]) _)
  assetAccount wallet mint :=
    (h.assetAccount wallet mint).fades
      (hstaged.imp fun _ _ hst => hst.fades (by rw [hst.row]) (fun _ => rfl) fun _ => rfl)

theorem forall₂_at {s : Submission} {stage : Stage}
    (hcounts : (s.at stage).counts = true → s.counts = true) :
    List.Forall₂ Staged (newer ++ s :: older) (newer ++ s.at stage :: older) :=
  List.rel_append (List.forall₂_same.mpr fun t _ => Staged.refl t)
    (List.Forall₂.cons ⟨hcounts, rfl, rfl, rfl⟩ (List.forall₂_same.mpr fun t _ => Staged.refl t))

theorem mem_at {s t : Submission} {stage : Stage}
    (hcounts : (s.at stage).counts = true → s.counts = true)
    (ht : t ∈ newer ++ s.at stage :: older) :
    ∃ t₀ ∈ newer ++ s :: older, Staged t₀ t := by
  rcases List.mem_append.mp ht with hnewer | hrest
  · exact ⟨t, List.mem_append_left _ hnewer, Staged.refl t⟩
  · rcases List.mem_cons.mp hrest with rfl | holder
    · exact ⟨s, List.mem_append_right _ List.mem_cons_self, hcounts, rfl, rfl, rfl⟩
    · exact ⟨t, List.mem_append_right _ (List.mem_cons_of_mem _ holder), Staged.refl t⟩

theorem others_ne {s : Submission}
    (hclaimed : ((newer ++ s :: older).map fun t => t.row.id).Nodup) :
    ∀ t ∈ newer ++ older, t.row.id ≠ s.row.id := by
  rw [List.map_append, List.map_cons, List.nodup_middle, ← List.map_append] at hclaimed
  intro t ht heq
  exact (List.nodup_cons.mp hclaimed).1 (List.mem_map.mpr ⟨t, ht, heq⟩)

theorem Sound.prepared_ne (h : Sound ⟨rows, submissions, claiming⟩) {s : Submission}
    (hs : s ∈ submissions) {row : Sponsorship} (hrow : row ∈ rows)
    (hprepared : row.outcome = .prepared) : row.id ≠ s.row.id := by
  rcases h.listed s hs with ⟨other, hother, heq, _, hne⟩
  intro hid
  have hsame := eq_of_id h.ids hrow hother (hid.trans heq.symm)
  exact hne (hsame ▸ hprepared)

theorem Sound.restage {s : Submission} {stage : Stage}
    (h : Sound ⟨rows, newer ++ s :: older, claiming⟩)
    (hcounts : (s.at stage).counts = true → s.counts = true)
    (hids : rows'.map Sponsorship.id = rows.map Sponsorship.id)
    (hmessages : rows'.map Sponsorship.message = rows.map Sponsorship.message)
    (hlisted : ∀ t, Listed rows t → Listed rows' t)
    (hrecorded : ∀ t ∈ newer ++ s.at stage :: older, t.counts = true → Recorded rows t →
      Recorded rows' t)
    (hprepared : ∀ row ∈ rows, row.outcome = .prepared → row ∈ rows') :
    Sound ⟨rows', newer ++ s.at stage :: older, claiming⟩ where
  ids := by
    dsimp only
    rw [hids]
    exact h.ids
  messages := by
    dsimp only
    rw [hmessages]
    exact h.messages
  claimed := by
    have hclaimed := h.claimed
    rw [List.map_append, List.map_cons] at hclaimed ⊢
    exact hclaimed
  listed t ht := by
    rcases mem_at hcounts ht with ⟨t₀, ht₀, hst⟩
    exact hlisted t (hst.listed (h.listed t₀ ht₀))
  recorded t ht hcount := by
    rcases mem_at hcounts ht with ⟨t₀, ht₀, hst⟩
    exact hrecorded t ht hcount (hst.recorded (h.recorded t₀ ht₀ (hst.counts hcount)))
  reads reads hreads statement t ht hcount := by
    rcases mem_at hcounts ht with ⟨t₀, ht₀, hst⟩
    exact hst.recorded (h.reads reads hreads statement t₀ ht₀ (hst.counts hcount))
  prepared reads hreads statement row hrow hout :=
    hprepared row (h.prepared reads hreads statement row hrow hout) hout
  limits := h.limits.staged (forall₂_at hcounts)

theorem Sound.settle {s : Submission} {stage : Stage}
    (h : Sound ⟨rows, newer ++ s :: older, claiming⟩) (settlement : Settlement)
    (hcounts : (s.at stage).counts = true → s.counts = true)
    (hspent : (s.at stage).counts = true → Recorded rows (s.at stage) →
      Recorded (settleSend rows s.row.id settlement) (s.at stage)) :
    Sound ⟨settleSend rows s.row.id settlement, newer ++ s.at stage :: older, claiming⟩ := by
  have hs : s ∈ newer ++ s :: older := List.mem_append_right _ List.mem_cons_self
  apply h.restage hcounts
  · exact map_change (fun row => settled_id row settlement) _
  · exact map_change (fun row => settled_message row settlement) _
  · intro t ht
    exact ht.change (fun row => settled_id row settlement)
      (fun row => settled_message row settlement) (fun row => settled_outcome_ne row settlement) _
  · intro t ht hcount hrec
    have hothers := others_ne h.claimed
    rcases List.mem_append.mp ht with hnewer | hrest
    · exact hrec.change (hothers t (List.mem_append_left _ hnewer))
    · rcases List.mem_cons.mp hrest with rfl | holder
      · exact hspent hcount hrec
      · exact hrec.change (hothers t (List.mem_append_right _ holder))
  · intro row hrow hout
    exact mem_change hrow (h.prepared_ne hs hrow hout)

theorem Sound.countP_lt {reads : Reads} (h : Sound ⟨rows, submissions, some reads⟩) {now : ℤ}
    {check : Check}
    (hlimit : (spentSince (reads (.limit check.limit)) (now - check.window) check.among).length <
      check.most) {p : Submission → Bool}
    (hcounts : ∀ t, p t = true → t.counts = true)
    (hwithin : ∀ t, p t = true → now - check.window < t.claimedAt)
    (hamong : ∀ t, p t = true → ∀ row : Sponsorship, row.wallet = t.row.wallet →
      row.kind = t.row.kind → (∀ address, t.ip = some address → row.ip = some address) →
      check.among row = true) :
    submissions.countP p < check.most := by
  have hle : submissions.countP p ≤
      (spentSince (reads (.limit check.limit)) (now - check.window) check.among).length := by
    apply countP_submissions_le h.claimed
    intro t ht hp
    rcases h.reads reads rfl (.limit check.limit) t ht (hcounts t hp) with
      ⟨row, hrow, hid, hwallet, hkind, _, hsent, hip, hspent⟩
    refine ⟨row, hrow, hid, ?_⟩
    rw [hsent, hspent, Option.any_some, decide_eq_true (hwithin t hp),
      hamong t hp row hwallet hkind hip]
    rfl
  omega

theorem Sound.countP_assetAccount {reads : Reads} (h : Sound ⟨rows, submissions, some reads⟩)
    {wallet mint : Pubkey} {id : ℕ} (hid : ∀ t ∈ submissions, id ≠ t.row.id)
    (hpaid : assetAccountPaid (reads .assetAccount) wallet mint (some id) = false) :
    submissions.countP
      (fun t => t.counts && (t.row.wallet = wallet && t.row.assetAccount = some mint)) = 0 := by
  rw [List.countP_eq_zero]
  intro t ht hp
  simp only [Bool.and_eq_true, decide_eq_true_eq] at hp
  rcases h.reads reads rfl .assetAccount t ht hp.1 with
    ⟨row, hrow, heq, hwallet, _, hasset, _, _, hspent⟩
  have hne : (some id : Option ℕ) ≠ some row.id := by
    rw [heq]
    exact fun hsame => hid t ht (Option.some.inj hsame)
  have hpaid' := List.any_eq_false.mp hpaid row hrow
  rw [hwallet, hp.2.1, hasset, hp.2.2, hspent, decide_eq_true hne] at hpaid'
  simp only [decide_true, Bool.and_self, not_true_eq_false] at hpaid'

theorem Sound.limits_claim {reads : Reads} (h : Sound ⟨rows, submissions, some reads⟩)
    {s : Submission} (hid : ∀ t ∈ submissions, s.row.id ≠ t.row.id)
    (hnone : sendLimit reads s.row.wallet s.ip s.row.kind s.claimedAt = none)
    (hpaid : ∀ mint, s.row.assetAccount = some mint →
      assetAccountPaid (reads .assetAccount) s.row.wallet mint (some s.row.id) = false) :
    Limits (s :: submissions) where
  wallet wallet := by
    refine ⟨fun hs => ?_, h.limits.wallet wallet⟩
    simp only [Bool.and_eq_true, decide_eq_true_eq] at hs
    have hlimit := sendLimit_eq_none hnone
      ⟨.wallet, fun row => row.wallet = s.row.wallet, SponsorLimits.wallet, dayMs⟩
      (List.mem_append_left _ (List.mem_append_left _ List.mem_cons_self))
    apply h.countP_lt hlimit
    · intro t ht
      simp only [Bool.and_eq_true] at ht
      exact ht.1.1
    · intro t ht
      simp only [Bool.and_eq_true, within, decide_eq_true_eq] at ht
      exact ht.2
    · intro t ht row hwallet hkind hip
      simp only [Bool.and_eq_true, decide_eq_true_eq] at ht ⊢
      rw [hwallet, ht.1.2, hs.2]
  ip address := by
    refine ⟨fun hs => ?_, h.limits.ip address⟩
    simp only [Bool.and_eq_true, decide_eq_true_eq] at hs
    have hlimit := sendLimit_eq_none hnone
      ⟨.ip, fun row => row.ip = some address, SponsorLimits.ip, dayMs⟩ (by
        rw [hs.2]
        exact List.mem_append_left _ (List.mem_append_right _ List.mem_cons_self))
    apply h.countP_lt hlimit
    · intro t ht
      simp only [Bool.and_eq_true] at ht
      exact ht.1.1
    · intro t ht
      simp only [Bool.and_eq_true, within, decide_eq_true_eq] at ht
      exact ht.2
    · intro t ht row hwallet hkind hip
      simp only [Bool.and_eq_true, decide_eq_true_eq] at ht ⊢
      exact hip address ht.1.2
  all := by
    refine ⟨fun _ => ?_, h.limits.all⟩
    have hlimit := sendLimit_eq_none hnone ⟨.all, fun _ => true, SponsorLimits.all, dayMs⟩
      (List.mem_append_left _ (List.mem_append_left _ (List.mem_cons_of_mem _ List.mem_cons_self)))
    apply h.countP_lt hlimit
    · intro t ht
      simp only [Bool.and_eq_true] at ht
      exact ht.1
    · intro t ht
      simp only [Bool.and_eq_true, within, decide_eq_true_eq] at ht
      exact ht.2
    · exact fun _ _ _ _ _ _ => rfl
  returns wallet := by
    refine ⟨fun hs => ?_, h.limits.returns wallet⟩
    simp only [Bool.and_eq_true, decide_eq_true_eq] at hs
    have hlimit := sendLimit_eq_none hnone
      ⟨.returns, fun row => row.wallet = s.row.wallet && row.kind = .reactivate, returnLimit,
        returnWindowMs⟩ (by
        apply List.mem_append_right
        rw [if_pos hs.2.2]
        exact List.mem_cons_self)
    apply h.countP_lt hlimit
    · intro t ht
      simp only [Bool.and_eq_true] at ht
      exact ht.1.1
    · intro t ht
      simp only [Bool.and_eq_true, within, decide_eq_true_eq] at ht
      exact ht.2
    · intro t ht row hwallet hkind hip
      simp only [Bool.and_eq_true, decide_eq_true_eq] at ht ⊢
      rw [hwallet, hkind, ht.1.2.1, ht.1.2.2, hs.2.1]
      exact ⟨rfl, rfl⟩
  assetAccount wallet mint := by
    refine ⟨fun hs => ?_, h.limits.assetAccount wallet mint⟩
    simp only [Bool.and_eq_true, decide_eq_true_eq] at hs
    have hzero := h.countP_assetAccount hid (hpaid mint hs.2.2)
    rw [hs.2.1] at hzero
    simp only [Bool.and_true]
    omega

theorem Sound.claim {reads : Reads} {request : Request} {now : ℤ} {claimed : Sponsorship}
    (h : Sound ⟨rows, submissions, some reads⟩)
    (hclaim : claimSend reads rows request now = (.ok claimed, rows')) :
    Sound ⟨rows', ⟨claimed, request.ip, now, .claimed⟩ :: submissions, none⟩ := by
  rcases claimSend_ok hclaim with
    ⟨row, hread, hmessage, hwallet, hprepared, rfl, hnone, hpaid, rfl⟩
  have hrow := h.prepared reads rfl .row row hread hprepared
  have hid : ∀ t ∈ submissions, row.id ≠ t.row.id := fun t ht => h.prepared_ne ht hrow hprepared
  constructor
  · exact Eq.mpr (congrArg List.Nodup (map_change (fun row => claimed_id row _ now) _)) h.ids
  · exact Eq.mpr (congrArg List.Nodup (map_change (fun row => claimed_message row _ now) _))
      h.messages
  · apply List.nodup_cons.mpr ⟨?_, h.claimed⟩
    intro hmem
    rcases List.mem_map.mp hmem with ⟨t, ht, heq⟩
    exact hid t ht heq.symm
  · intro t ht
    rcases List.mem_cons.mp ht with rfl | ht
    · refine ⟨_, List.mem_map_of_mem hrow, ?_⟩
      rw [if_pos rfl]
      exact ⟨rfl, rfl, Outcome.noConfusion⟩
    · exact (h.listed t ht).change (fun row => claimed_id row _ now)
        (fun row => claimed_message row _ now) (fun row => claimed_outcome_ne row _ now) _
  · intro t ht hcount
    rcases List.mem_cons.mp ht with rfl | ht
    · refine ⟨_, List.mem_map_of_mem hrow, ?_⟩
      rw [if_pos rfl]
      refine ⟨rfl, rfl, rfl, rfl, rfl, fun address haddress => ?_, rfl⟩
      have hip : request.ip = some address := haddress
      dsimp only [Sponsorship.claimed]
      rw [hip, Option.some_or]
    · exact (h.recorded t ht hcount).change (hid t ht).symm
  · exact fun reads hreads => absurd hreads (Option.not_mem_none _)
  · exact fun reads hreads => absurd hreads (Option.not_mem_none _)
  · rw [← hwallet] at hnone hpaid
    exact h.limits_claim hid hnone hpaid

theorem Sound.prepare {prepared : Sponsorship} (h : Sound ⟨rows, submissions, claiming⟩)
    (hid : ∀ row ∈ rows, row.id ≠ prepared.id) :
    Sound ⟨recordPrepared rows prepared, submissions, claiming⟩ := by
  unfold recordPrepared
  split
  · exact h
  · rename_i hnew
    have hmessage : ∀ row ∈ rows, row.message ≠ prepared.message := by
      intro row hrow heq
      exact hnew (List.any_eq_true.mpr ⟨row, hrow, decide_eq_true heq⟩)
    constructor
    · rw [List.map_append, List.map_singleton]
      apply List.nodup_append.mpr ⟨h.ids, List.nodup_singleton _, ?_⟩
      intro id hmem other hother
      rcases List.mem_map.mp hmem with ⟨row, hrow, rfl⟩
      rw [List.mem_singleton.mp hother]
      exact hid row hrow
    · rw [List.map_append, List.map_singleton]
      apply List.nodup_append.mpr ⟨h.messages, List.nodup_singleton _, ?_⟩
      intro message hmem other hother
      rcases List.mem_map.mp hmem with ⟨row, hrow, rfl⟩
      rw [List.mem_singleton.mp hother]
      exact hmessage row hrow
    · exact h.claimed
    · intro s hs
      rcases h.listed s hs with ⟨row, hrow, hrest⟩
      exact ⟨row, List.mem_append_left _ hrow, hrest⟩
    · intro s hs hcount
      rcases h.recorded s hs hcount with ⟨row, hrow, hrest⟩
      exact ⟨row, List.mem_append_left _ hrow, hrest⟩
    · exact h.reads
    · intro reads hreads statement row hrow hout
      exact List.mem_append_left _ (h.prepared reads hreads statement row hrow hout)
    · exact h.limits

/-- The claim that holds the lock reads what the table holds, or has read it since. -/
theorem Sound.reading (h : Sound ⟨rows, submissions, claiming⟩) {reads : Reads}
    (hreads : ∀ statement, reads statement = rows ∨
      ∃ before ∈ claiming, reads statement = before statement) :
    Sound ⟨rows, submissions, some reads⟩ := by
  refine ⟨h.ids, h.messages, h.claimed, h.listed, h.recorded, ?_, ?_, h.limits⟩
  · intro found hfound statement s hs hcount
    rw [← Option.some.inj hfound]
    rcases hreads statement with heq | ⟨before, hbefore, heq⟩
    · rw [heq]
      exact h.recorded s hs hcount
    · rw [heq]
      exact h.reads before hbefore statement s hs hcount
  · intro found hfound statement row hrow hout
    rw [← Option.some.inj hfound] at hrow
    rcases hreads statement with heq | ⟨before, hbefore, heq⟩
    · rw [heq] at hrow
      exact hrow
    · rw [heq] at hrow
      exact h.prepared before hbefore statement row hrow hout

theorem Sound.release (h : Sound ⟨rows, submissions, claiming⟩) :
    Sound ⟨rows, submissions, none⟩ :=
  ⟨h.ids, h.messages, h.claimed, h.listed, h.recorded,
    fun _ hreads => absurd hreads (Option.not_mem_none _),
    fun _ hreads => absurd hreads (Option.not_mem_none _), h.limits⟩

theorem Sound.stage {s : Submission} {stage : Stage}
    (h : Sound ⟨rows, newer ++ s :: older, claiming⟩)
    (hcounts : (s.at stage).counts = true → s.counts = true) :
    Sound ⟨rows, newer ++ s.at stage :: older, claiming⟩ :=
  h.restage hcounts rfl rfl (fun _ ht => ht) (fun _ _ _ ht => ht) fun _ hrow _ => hrow

theorem counts_of_stage {s : Submission} {stage : Stage} (hstage : s.stage = stage) :
    s.counts = (s.at stage).counts := by
  rw [← hstage]
  rfl

theorem counts_cosigned (s : Submission) (fate : Fate) (settled settled' : Bool) :
    (s.at (.cosigned fate settled)).counts = (s.at (.cosigned fate settled')).counts := by
  cases fate <;> rfl

theorem SponsorStep.sound (hstep : SponsorStep (· = .dead) state state') (h : Sound state) :
    Sound state' := by
  cases hstep with
  | prepare hid houtcome => exact h.prepare hid
  | lock => exact h.reading fun _ => Or.inl rfl
  | @read rows submissions reads statement =>
    apply h.reading
    intro other
    by_cases hother : other = statement
    · rw [hother, Function.update_self]
      exact Or.inl rfl
    · rw [Function.update_of_ne hother]
      exact Or.inr ⟨reads, rfl, rfl⟩
  | claim hclaim => exact h.claim hclaim
  | release => exact h.release
  | refuse hstage shape =>
    apply h.settle
    · exact fun hcount => absurd hcount Bool.false_ne_true
    · exact fun hcount => absurd hcount Bool.false_ne_true
  | cosign hstage =>
    apply h.stage
    rw [counts_of_stage hstage]
    exact fun _ => rfl
  | decide hstage fate =>
    apply h.stage
    rw [counts_of_stage hstage]
    exact fun _ => rfl
  | @settleLanded rows newer older claiming s fate hstage signature =>
    apply h.settle
    · rw [counts_of_stage hstage, counts_cosigned s fate true false]
      exact id
    · exact fun _ hrec => hrec.landed _ signature
  | @settleFailed rows newer older claiming s fate hstage hfails reason signature =>
    subst hfails
    apply h.settle
    · exact fun hcount => absurd hcount Bool.false_ne_true
    · exact fun hcount => absurd hcount Bool.false_ne_true

theorem SponsorRun.sound (hrun : SponsorRun (· = .dead) state) : Sound state := by
  induction hrun with
  | refl =>
    exact ⟨List.nodup_nil, List.nodup_nil, List.nodup_nil, by simp [SponsorState.start],
      by simp [SponsorState.start], by simp [SponsorState.start], by simp [SponsorState.start],
      ⟨fun _ => trivial, fun _ => trivial, trivial, fun _ => trivial, fun _ _ => trivial⟩⟩
  | tail _ hstep ih => exact hstep.sound ih

/-- The submissions that landed or may land, claimed within the window before the moment. -/
def landable (submissions : List Submission) (window moment : ℤ) (among : Submission → Bool) : ℕ :=
  submissions.countP fun s =>
    s.live && (moment - window < s.claimedAt && s.claimedAt ≤ moment) && among s

structure WithinLimits (submissions : List Submission) : Prop where
  once : ((submissions.filter Submission.cosigned).map fun s => s.row.message).Nodup
  wallet : ∀ moment wallet,
    landable submissions dayMs moment (fun s => s.row.wallet = wallet) ≤ SponsorLimits.wallet
  ip : ∀ moment address,
    landable submissions dayMs moment (fun s => s.ip = some address) ≤ SponsorLimits.ip
  all : ∀ moment, landable submissions dayMs moment (fun _ => true) ≤ SponsorLimits.all
  returns : ∀ moment wallet, landable submissions returnWindowMs moment
    (fun s => s.row.wallet = wallet && s.row.kind = .reactivate) ≤ returnLimit
  assetAccount : ∀ wallet mint, submissions.countP
    (fun s => s.live && (s.row.wallet = wallet && s.row.assetAccount = some mint)) ≤ 1

theorem counts_of_live {s : Submission} (h : s.live = true) : s.counts = true := by
  rw [Submission.counts, h, Bool.true_or]

theorem landable_le {among : Submission → Bool} {window : ℤ} {limit : ℕ}
    (h : Admitted (fun s => s.counts && among s) (within window) limit submissions) (moment : ℤ) :
    landable submissions window moment among ≤ limit := by
  apply h.countP_le
  · intro s hs
    simp only [Bool.and_eq_true] at hs ⊢
    exact ⟨counts_of_live hs.1.1, hs.2⟩
  · intro s t hs ht
    simp only [Bool.and_eq_true, decide_eq_true_eq] at hs ht
    rw [within, decide_eq_true_eq]
    omega

theorem Sound.messages_nodup (h : Sound state) :
    (state.submissions.map fun s => s.row.message).Nodup := by
  apply List.Nodup.map_on _ (List.Nodup.of_map _ h.claimed)
  intro s hs t ht heq
  rcases h.listed s hs with ⟨row, hrow, hid, hmessage, _⟩
  rcases h.listed t ht with ⟨row', hrow', hid', hmessage', _⟩
  have hsame : row = row' := List.inj_on_of_nodup_map h.messages hrow hrow'
    (hmessage.trans (heq.trans hmessage'.symm))
  have hids : s.row.id = t.row.id := by rw [← hid, ← hid', hsame]
  exact List.inj_on_of_nodup_map h.claimed hs ht hids

/-- While only transactions that can no longer land are settled as failed, each message is co-signed
at most once and what landed or may land stays within the sponsor's limits. -/
theorem landable_within_limits (state : SponsorState) (hrun : SponsorRun (· = .dead) state) :
    WithinLimits state.submissions := by
  have h := hrun.sound
  constructor
  · exact h.messages_nodup.sublist (List.filter_sublist.map _)
  · exact fun moment wallet => landable_le (h.limits.wallet wallet) moment
  · exact fun moment address => landable_le (h.limits.ip address) moment
  · intro moment
    apply landable_le _ moment
    simp only [Bool.and_true]
    exact h.limits.all
  · exact fun moment wallet => landable_le (h.limits.returns wallet) moment
  · intro wallet mint
    apply (h.limits.assetAccount wallet mint).countP_le
    · intro s hs
      simp only [Bool.and_eq_true] at hs ⊢
      exact ⟨counts_of_live hs.1, hs.2⟩
    · exact fun _ _ _ _ => rfl

theorem SponsorRun.round {Fails : Fate → Prop} {prepared claimed : Sponsorship} {request : Request}
    {now : ℤ} (hrun : SponsorRun Fails ⟨rows, submissions, none⟩)
    (hid : ∀ row ∈ rows, row.id ≠ prepared.id) (houtcome : prepared.outcome = .prepared)
    (hclaim : claimSend (fun _ => recordPrepared rows prepared) (recordPrepared rows prepared)
      request now = (.ok claimed, rows')) (fate : Fate) :
    SponsorRun Fails
      ⟨rows', ⟨claimed, request.ip, now, .cosigned fate false⟩ :: submissions, none⟩ := by
  have hprepared := Relation.ReflTransGen.tail hrun (SponsorStep.prepare hid houtcome)
  have hlocked := Relation.ReflTransGen.tail hprepared SponsorStep.lock
  have hclaimed := Relation.ReflTransGen.tail hlocked (SponsorStep.claim hclaim)
  have hcosigned := Relation.ReflTransGen.tail hclaimed
    (@SponsorStep.cosign _ _ [] submissions none ⟨claimed, request.ip, now, .claimed⟩ rfl)
  exact Relation.ReflTransGen.tail hcosigned
    (@SponsorStep.decide _ _ [] submissions none
      ⟨claimed, request.ip, now, .cosigned .pending false⟩ false rfl fate)

/-- A wallet that sends from one address. -/
def returning : Pubkey := Vector.replicate 32 7

def returningPrepared (id : ℕ) (kind : Kind) (message : String) (now : ℤ) : Sponsorship :=
  { id, wallet := returning, ip := some "192.0.2.1", kind, message, assetAccount := none,
    preparedAt := now, sentAt := none, signature := none, outcome := .prepared, reason := none }

def returningSent (id : ℕ) (kind : Kind) (message : String) (now : ℤ) : Sponsorship :=
  (returningPrepared id kind message now).claimed (some "192.0.2.1") now

theorem SponsorRun.lost {Fails : Fate → Prop} {claimed : Sponsorship} {ip : Option String} {now : ℤ}
    {fate : Fate} (hrun : SponsorRun Fails
      ⟨rows, ⟨claimed, ip, now, .cosigned fate false⟩ :: submissions, none⟩) (hfails : Fails fate)
    (reason : String) :
    SponsorRun Fails ⟨settleSend rows claimed.id (.failed reason none),
      ⟨claimed, ip, now, .cosigned fate true⟩ :: submissions, none⟩ :=
  Relation.ReflTransGen.tail hrun
    (@SponsorStep.settleFailed _ _ [] submissions none ⟨claimed, ip, now, .cosigned fate false⟩ _ rfl
      hfails reason none)

/-- A first return expires, so its wallet has two more within thirty days of it. -/
theorem landable_within_limits_returns :
    WithinLimits
      [⟨returningSent 4 .reactivate "c" (2 * dayMs), some "192.0.2.1", 2 * dayMs,
          .cosigned .landed false⟩,
        ⟨returningSent 3 .reactivate "b" dayMs, some "192.0.2.1", dayMs, .cosigned .landed false⟩,
        ⟨returningSent 2 .reactivate "a" 1000, some "192.0.2.1", 1000, .cosigned .dead true⟩,
        ⟨returningSent 1 .enroll "enroll" 0, some "192.0.2.1", 0, .cosigned .landed false⟩] := by
  have henrolled := @SponsorRun.round [] [returningSent 1 .enroll "enroll" 0] [] (· = .dead)
    (returningPrepared 1 .enroll "enroll" 0) _ ⟨some "192.0.2.1", "enroll", returning⟩ 0
    Relation.ReflTransGen.refl (fun _ h => absurd h List.not_mem_nil) rfl rfl .landed
  have hexpired := @SponsorRun.round _
    [returningSent 1 .enroll "enroll" 0, returningSent 2 .reactivate "a" 1000] _ (· = .dead)
    (returningPrepared 2 .reactivate "a" 1000) _ ⟨some "192.0.2.1", "a", returning⟩ 1000
    henrolled (by decide) rfl rfl .dead
  have hexpired := hexpired.lost rfl "expired"
  have hfirst := @SponsorRun.round _
    [returningSent 1 .enroll "enroll" 0,
      (returningSent 2 .reactivate "a" 1000).settled (.failed "expired" none),
      returningSent 3 .reactivate "b" dayMs] _ (· = .dead)
    (returningPrepared 3 .reactivate "b" dayMs) _ ⟨some "192.0.2.1", "b", returning⟩ dayMs
    hexpired (by decide) rfl rfl .landed
  have hsecond := @SponsorRun.round _
    [returningSent 1 .enroll "enroll" 0,
      (returningSent 2 .reactivate "a" 1000).settled (.failed "expired" none),
      returningSent 3 .reactivate "b" dayMs, returningSent 4 .reactivate "c" (2 * dayMs)] _
    (· = .dead) (returningPrepared 4 .reactivate "c" (2 * dayMs)) _
    ⟨some "192.0.2.1", "c", returning⟩ (2 * dayMs) hfirst (by decide) rfl rfl .landed
  exact landable_within_limits _ hsecond

/-- Three returns of one wallet within thirty days land, the sends of the first two reported as
transport errors. -/
theorem landable_within_limits_lost :
    ¬ ∀ state, SponsorRun (fun _ => True) state → WithinLimits state.submissions := by
  intro hall
  have hfirst := @SponsorRun.round [] [returningSent 1 .reactivate "a" 0] [] (fun _ => True)
    (returningPrepared 1 .reactivate "a" 0) _ ⟨some "192.0.2.1", "a", returning⟩ 0
    Relation.ReflTransGen.refl (fun _ h => absurd h List.not_mem_nil) rfl rfl .landed
  have hfirst := hfirst.lost trivial "fetch failed"
  have hsecond := @SponsorRun.round _
    [(returningSent 1 .reactivate "a" 0).settled (.failed "fetch failed" none),
      returningSent 2 .reactivate "b" dayMs] _
    (fun _ => True) (returningPrepared 2 .reactivate "b" dayMs) _
    ⟨some "192.0.2.1", "b", returning⟩ dayMs hfirst (by decide) rfl rfl .landed
  have hsecond := hsecond.lost trivial "fetch failed"
  have hthird := @SponsorRun.round _
    [(returningSent 1 .reactivate "a" 0).settled (.failed "fetch failed" none),
      (returningSent 2 .reactivate "b" dayMs).settled (.failed "fetch failed" none),
      returningSent 3 .reactivate "c" (2 * dayMs)] _
    (fun _ => True) (returningPrepared 3 .reactivate "c" (2 * dayMs)) _
    ⟨some "192.0.2.1", "c", returning⟩ (2 * dayMs) hsecond (by decide) rfl rfl .landed
  have hlimits := (hall _ hthird).returns (2 * dayMs) returning
  exact absurd hlimits (by decide)

end Laterite.Sponsor
