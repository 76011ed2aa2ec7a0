import Conductress.Runner.Served

/-!
# The contract of the runner

Every outside event and every command the runner may call keeps the
invariants, the first also what the runner relies on. The lemmas follow the
commands: the journal's moves and clearings, the queue directory, the logs,
the requests. `World.contract` is the discipline they make up.
-/

namespace Conductress

open Lib

namespace World

variable {R : Regime} {d : Deployment} {w : World}

/-! ## Small facts -/

theorem has_iff {taskId : String} : w.has taskId = true ↔ ∃ f, w.queue.find? taskId = some f :=
  Option.isSome_iff_exists

/-- A recorded task was accepted. -/
theorem Custody.accepted_of_recorded (h : w.Custody R d) {taskId : String}
    (hrec : w.Recorded taskId) : .staged taskId .accepted ∈ w.history := by
  obtain ⟨task, hmem, hover⟩ := hrec
  have hordered := h.order
  generalize w.history = events at hmem hordered
  induction events with
  | nil => cases hmem
  | cons e h ih =>
    rcases List.mem_cons.mp hmem with rfl | hmem
    · exact List.mem_cons_of_mem _ (hordered.1 taskId hover)
    · exact List.mem_cons_of_mem _ (ih hmem hordered.2)

/-! ## The queue directory -/

/-- Another queue with no imported file that was not there. -/
theorem Inv.of_queue (hInv : Inv R d w) {queue : Table QueueFile.id}
    (hmem : ∀ file ∈ queue, file.fromClaim = true → file ∈ w.queue)
    (hhas : R.recovers → ∀ a, w.journal = some a → a.stage = .accepted →
      { w with queue }.has a.taskId = true) : Inv R d { w with queue } := by
  have hclaim : ∀ taskId, { w with queue }.ClaimFile taskId → w.ClaimFile taskId := by
    rintro taskId ⟨file, hfile, hfrom⟩
    obtain ⟨hin, hid⟩ := Table.find?_eq_some_iff.mp hfile
    exact ⟨file, Table.find?_eq_some_iff.mpr ⟨hmem file hin hfrom, hid⟩, hfrom⟩
  exact {
    issued := ⟨hInv.issued.rows, hInv.issued.journal, hInv.issued.sent⟩
    ownership := ⟨hInv.ownership.handed, hInv.ownership.accepts, hInv.ownership.held,
      hInv.ownership.refusals⟩
    custody := { hInv.custody with
      sidecar := fun file hin hfrom => hInv.custody.sidecar file (hmem file hin hfrom) hfrom
      file := fun taskId hfile => hInv.custody.file taskId (hclaim taskId hfile)
      imported := fun a ha hstage => hInv.custody.imported a ha
        (hstage.imp_right fun h => ⟨h.1, hclaim _ h.2⟩) }
    once := ⟨fun hR taskId hfile => hInv.once.file hR taskId (hclaim taskId hfile), hInv.once.found⟩
    settled := { hInv.settled with }
    recoverable := ⟨hInv.recoverable.clean, hhas⟩ }

/-- What is left of a file in the queue when another one is removed. -/
theorem has_erase {taskId removed : String} (hne : taskId ≠ removed)
    (h : w.has taskId = true) : { w with queue := w.queue.erase removed }.has taskId = true := by
  obtain ⟨f, hf⟩ := has_iff.mp h
  exact has_iff.mpr ⟨f, by rw [Table.find?_erase, if_neg hne, hf]⟩

/-- The queue after a removal. -/
theorem Inv.erase (hInv : Inv R d w) {taskId : String}
    (hguard : R.recovers → ∀ a, w.journal = some a → a.stage = .accepted → a.taskId ≠ taskId) :
    Inv R d { w with queue := w.queue.erase taskId } := by
  refine hInv.of_queue (fun file hin _ => (Table.mem_erase.mp hin).1) fun hR a ha hstage => ?_
  exact has_erase (hguard hR a ha hstage) (hInv.recoverable.file hR a ha hstage)

/-- Storing a file keeps every file's place taken. -/
theorem has_put {taskId : String} {file : QueueFile} (h : w.has taskId = true) :
    { w with queue := w.queue.put file }.has taskId = true := by
  obtain ⟨f, hf⟩ := has_iff.mp h
  refine has_iff.mpr ?_
  rw [Table.find?_put]
  split
  · exact ⟨file, rfl⟩
  · exact ⟨f, hf⟩

theorem claimFile_put_local {taskId : String} {file : QueueFile} (hlocal : file.fromClaim = false)
    (h : { w with queue := w.queue.put file }.ClaimFile taskId) : w.ClaimFile taskId := by
  obtain ⟨f, hf, hfrom⟩ := h
  rw [Table.find?_put] at hf
  split at hf
  · cases hf
    rw [hlocal] at hfrom
    cases hfrom
  · exact ⟨f, hf, hfrom⟩

/-! ## Outside events -/

/-- Time that passes ends leases, and nothing else. -/
theorem Inv.pass (hInv : Inv R d w) (micros : ℕ) : Inv R d { w with now := w.now + micros } := by
  have hlive : ∀ taskId token, { w with now := w.now + micros }.Live taskId token →
      w.Live taskId token := by
    rintro taskId token ⟨row, hrow, hstate, htoken, lease, hlease, hlt⟩
    exact ⟨row, hrow, hstate, htoken, lease, hlease, lt_of_le_of_lt (Nat.le_add_right _ _) hlt⟩
  exact {
    issued := ⟨hInv.issued.rows, hInv.issued.journal, hInv.issued.sent⟩
    ownership := ⟨hInv.ownership.handed, fun taskId token hsent hl =>
      hInv.ownership.accepts taskId token hsent (hlive taskId token hl), hInv.ownership.held,
      hInv.ownership.refusals⟩
    custody := { hInv.custody with }
    once := ⟨hInv.once.file, hInv.once.found⟩
    settled := { hInv.settled with }
    recoverable := ⟨hInv.recoverable.clean, hInv.recoverable.file⟩ }

/-- **The outside keeps the invariants and what the runner relies on.** -/
theorem interfere_ok {e : Outside} (hInv : Inv R d w) (hok : w.OutsideOk R d e) :
    Inv R d (w.interfere d e) ∧ Rely R d w (w.interfere d e) := by
  cases e with
  | operation op github =>
    rw [interfere]
    split
    · next hforeign =>
      obtain ⟨cs, hrun, hp⟩ := foreign_changes (R := R) github hforeign hok
      have hserved := Served.of_run hInv hrun hp
      exact ⟨hserved.inv hInv, hserved.rely hInv⟩
    · exact ⟨hInv, .refl w⟩
  | redeliver req =>
    rw [interfere]
    split
    · next hsent => exact serve_ok hInv req hsent
    · exact ⟨hInv, .refl w⟩
  | pass micros =>
    have hlive : ∀ taskId token, ¬ w.Live taskId token →
        ¬ { w with now := w.now + micros }.Live taskId token := by
      rintro taskId token hnot ⟨row, hrow, hstate, htoken, lease, hlease, hlt⟩
      exact hnot ⟨row, hrow, hstate, htoken, lease, hlease,
        lt_of_le_of_lt (Nat.le_add_right _ _) hlt⟩
    exact ⟨hInv.pass micros, { Rely.refl w with
      notLive := fun taskId token _ => hlive taskId token
      untaken := fun taskId h => ⟨h.1, fun token hsent => hlive taskId token (h.2 token hsent)⟩ }⟩
  | submitLocal file =>
    rw [interfere]
    split
    · exact ⟨hInv, .refl w⟩
    · next hfrom =>
      have hlocal : file.fromClaim = false := by simpa using hfrom
      refine ⟨hInv.of_queue (fun f hin hf => ?_) fun hR a ha hstage =>
          has_put (hInv.recoverable.file hR a ha hstage), { Rely.refl w with
        claimFile := fun taskId => claimFile_put_local hlocal
        has := fun _ a _ => has_put
        absent := fun hR a ha hstage habs => ?_ }⟩
      · rcases Table.mem_put.mp hin with rfl | ⟨hin, -⟩
        · rw [hlocal] at hf
          cases hf
        · exact hin
      · have hne : a.taskId ≠ file.id := Ne.symm (hok hR a ha hstage habs)
        rw [has, Table.find?_put, if_neg hne]
        exact habs
  | removeLocal taskId =>
    refine ⟨hInv.erase fun hR a ha _ => hok hR a ha, { Rely.refl w with
      claimFile := ?_
      has := fun hR a ha => has_erase (hok hR a ha)
      absent := fun _ a _ _ habs => ?_ }⟩
    · rintro id ⟨f, hf, hfrom⟩
      simp only [interfere] at hf
      rw [Table.find?_erase] at hf
      split at hf
      · cases hf
      · exact ⟨f, hf, hfrom⟩
    · simp only [interfere, has, Table.find?_erase]
      split
      · rfl
      · exact habs

/-! ## The journal's moves -/

/-- The world after the entry is written. -/
def setActive (w : World) (a : Active) : World :=
  { w with journal := some a }.log (.staged a.taskId a.stage)

/-- A new stage of the active delivery, or a new delivery. -/
theorem Move.cases_of {a' : Active} (h : w.Move R d a') :
    (w.journal = none ∧ a'.stage = .claimed ∧ w.Claimable R d a') ∨
    ∃ a, w.journal = some a ∧ a'.taskId = a.taskId ∧ a'.claimToken = a.claimToken ∧
      a'.envelope = a.envelope ∧ a'.stage ≠ .claimed ∧
      (a'.stage = .imported → a.stage = .claimed) ∧
      (a.stage = .imported → w.Stands d TaskState.isPast a.taskId) := by
  cases h with
  | claim hnone hstage hclaim => exact .inl ⟨hnone, hstage, hclaim⟩
  | «import» ha hstage => exact .inr ⟨_, ha, rfl, rfl, rfl, by simp, fun _ => hstage, by simp [hstage]⟩
  | accept ha hstage hpast =>
    exact .inr ⟨_, ha, rfl, rfl, rfl, by simp, by simp, fun _ => hpast⟩
  | outcome ha hstage =>
    exact .inr ⟨_, ha, rfl, rfl, rfl, by simp, by simp, fun h => absurd h hstage⟩

theorem Issued.setActive (hInv : Inv R d w) {a' : Active} (hmove : w.Move R d a') :
    (w.setActive a').Issued where
  rows := hInv.issued.rows
  journal := by
    rintro _ ⟨⟩ token htoken
    rcases hmove.cases_of with ⟨-, -, hclaim⟩ | ⟨a, ha, -, hsame, -⟩
    · exact hclaim.issued token htoken
    · exact hInv.issued.journal a ha token (hsame ▸ htoken)
  sent := hInv.issued.sent

/-- Once the entry has moved on, no acceptance on the wire can succeed. -/
theorem Move.not_live (hInv : Inv R d w) {a' : Active} (hmove : w.Move R d a') {taskId : String}
    {token : ClaimToken} (hsent : .accept taskId (some token) ∈ w.sent) :
    ¬ w.Live taskId token := by
  intro hlive
  obtain ⟨a, ha, hstage, hid, -⟩ := hInv.ownership.accepts taskId token hsent hlive
  rcases hmove.cases_of with ⟨hnone, -, -⟩ | ⟨a₀, ha₀, -, -, -, -, -, hpast⟩
  · rw [ha] at hnone
    cases hnone
  · cases ha.symm.trans ha₀
    obtain ⟨row, hrow, hclaimed, -⟩ := hlive
    obtain ⟨row', hrow', -, hs⟩ := hpast hstage
    rw [hid, hrow] at hrow'
    cases hrow'
    simp [TaskState.isPast, hclaimed] at hs

theorem Ownership.setActive (hInv : Inv R d w) {a' : Active} (hmove : w.Move R d a') :
    (w.setActive a').Ownership R d where
  handed := by
    rintro _ ⟨⟩
    rcases hmove.cases_of with ⟨-, -, hclaim⟩ | ⟨a, ha, hid, -⟩
    · exact hclaim.handed
    · rw [hid]
      exact hInv.ownership.handed a ha
  accepts taskId token hsent hlive := absurd hlive (hmove.not_live hInv hsent)
  held := by
    intro row hrow hmine hheld
    have hevent : ∀ e, e ∈ w.history → e ∈ (w.setActive a').history :=
      fun e he => List.mem_cons_of_mem _ he
    rcases hInv.ownership.held row hrow hmine hheld with
      ⟨a, ha, hid, hclaimed, -⟩ | ⟨hdropped, hother⟩
    · rcases hmove.cases_of with ⟨hnone, -⟩ | ⟨a₀, ha₀, hid', -, -, hstage', himported, -⟩
      · rw [ha] at hnone
        cases hnone
      · cases ha.symm.trans ha₀
        refine .inl ⟨a', rfl, hid'.trans hid, hstage', fun h => ?_⟩
        exact absurd (himported h) hclaimed
    · refine .inr ⟨hevent _ hdropped, ?_⟩
      rintro _ ⟨⟩ hid
      rcases hmove.cases_of with ⟨-, -, hclaim⟩ | ⟨a, ha, hid', -⟩
      · -- a held row is no task that is claimed
        exact hclaim.notHeld row (by rw [hid]; exact Database.task?_of_mem hrow) hmine hheld
      · exact hother a ha (hid'.symm.trans hid)
  refusals a code row? now hmem := by
    rcases List.mem_cons.mp hmem with h | h
    · cases h
    · exact hInv.ownership.refusals a code row? now h

/-- Acceptances in the history after the entry is written. -/
theorem staged_setActive {a' : Active} {taskId : String} :
    .staged taskId .accepted ∈ (w.setActive a').history ↔
      (taskId = a'.taskId ∧ a'.stage = .accepted) ∨ .staged taskId .accepted ∈ w.history := by
  rw [World.setActive, World.log, List.mem_cons, Event.staged.injEq]
  exact or_congr_left (and_congr_right fun _ => eq_comm)

theorem recorded_setActive {a' : Active} {taskId : String} :
    (w.setActive a').Recorded taskId ↔ w.Recorded taskId := by
  simp [Recorded, World.setActive, World.log]

theorem Custody.setActive (hInv : Inv R d w) {a' : Active} (hmove : w.Move R d a') :
    (w.setActive a').Custody R d where
  sidecar := hInv.custody.sidecar
  file taskId hfile := by
    rcases hInv.custody.file taskId hfile with hold | ⟨a, ha, hid, hstage⟩
    · exact .inl (staged_setActive.mpr (.inr hold))
    · cases hmove with
      | claim hnone =>
        rw [ha] at hnone
        cases hnone
      | «import» ha₀ _ =>
        cases ha.symm.trans ha₀
        exact .inr ⟨_, rfl, hid, .inr rfl⟩
      | accept ha₀ =>
        cases ha.symm.trans ha₀
        exact .inl (staged_setActive.mpr (.inl ⟨hid.symm, rfl⟩))
      | outcome ha₀ himported hnofile =>
        cases ha.symm.trans ha₀
        exact absurd (hid ▸ hfile) (hnofile (hstage.resolve_right himported))
  fresh := by
    rintro _ ⟨⟩ hstage hmem
    rcases staged_setActive.mp hmem with ⟨-, haccepted⟩ | hold
    · simp [haccepted] at hstage
    · rcases hmove.cases_of with ⟨-, -, hclaim⟩ | ⟨a, ha, hid, -, -, hclaimed, himported, -⟩
      · exact hclaim.fresh hold
      · have := himported (hstage.resolve_left hclaimed)
        exact hInv.custody.fresh a ha (.inl this) (hid ▸ hold)
  accepted := by
    rintro _ ⟨⟩ hstage
    exact staged_setActive.mpr (.inl ⟨rfl, hstage⟩)
  past taskId hmem := by
    rcases staged_setActive.mp hmem with ⟨rfl, haccepted⟩ | hold
    · cases hmove with
      | claim _ hstage => simp [hstage] at haccepted
      | accept _ _ hpast => exact hpast
      | _ => simp at haccepted
    · exact hInv.custody.past taskId hold
  loads := by
    rintro _ ⟨⟩ haccepted
    cases hmove with
    | claim _ hstage => simp [hstage] at haccepted
    | accept ha hstage => exact (hInv.custody.imported _ ha (.inl hstage)).1
    | _ => simp at haccepted
  safe taskId hmem := by
    rcases staged_setActive.mp hmem with ⟨rfl, haccepted⟩ | hold
    · cases hmove with
      | claim _ hstage => simp [hstage] at haccepted
      | accept ha hstage =>
        obtain ⟨⟨task, htask⟩, -⟩ := hInv.custody.imported _ ha (.inl hstage)
        exact TaskClasses.isSafePath_of_fromDict htask
      | _ => simp at haccepted
    · exact hInv.custody.safe taskId hold
  imported := by
    rintro _ ⟨⟩ hstage
    cases hmove with
    | claim hnone hclaimed hclaim =>
      -- a file of this task would have been accepted before
      obtain ⟨-, hfile⟩ : a'.stage = .claimed ∧ w.ClaimFile a'.taskId := by
        rcases hstage with h | h
        · simp [hclaimed] at h
        · exact h
      rcases hInv.custody.file a'.taskId hfile with hold | ⟨a, ha, -⟩
      · exact absurd hold hclaim.fresh
      · rw [hnone] at ha
        cases ha
    | «import» _ _ hloads hnone => exact ⟨hloads, hnone⟩
    | _ => simp at hstage
  order := by
    refine ⟨?_, hInv.custody.order⟩
    cases hmove with
    | claim _ hstage => rw [hstage]; trivial
    | accept _ _ _ hgranted => exact hgranted
    | _ => trivial

theorem Once.setActive (hInv : Inv R d w) {a' : Active} (hmove : w.Move R d a') :
    (w.setActive a').Once R where
  file hR taskId hfile := by
    obtain ⟨a, ha, hid⟩ := hInv.once.file hR taskId hfile
    rcases hmove.cases_of with ⟨hnone, -⟩ | ⟨a₀, ha₀, hid', -⟩
    · rw [ha] at hnone
      cases hnone
    · cases ha.symm.trans ha₀
      exact ⟨a', rfl, hid'.trans hid⟩
  found := by
    rintro hR _ ⟨⟩ haccepted hrec
    have hbefore := hInv.custody.accepted_of_recorded (recorded_setActive.mp hrec)
    cases hmove with
    | claim _ hstage => simp [hstage] at haccepted
    | @accept a ha hstage => exact absurd hbefore (hInv.custody.fresh a ha (.inr hstage))
    | _ => simp at haccepted

theorem Settled.setActive (hInv : Inv R d w) {a' : Active} (hmove : w.Move R d a') :
    (w.setActive a').Settled R d where
  claimed := by
    rintro hR _ ⟨⟩ hstage
    rcases hmove.cases_of with ⟨-, -, hclaim⟩ | ⟨a, -, -, -, -, hclaimed, -⟩
    · exact hclaim.settles hR
    · exact absurd hstage hclaimed
  accepted := by
    rintro hR _ ⟨⟩ haccepted
    cases hmove with
    | claim _ hstage => simp [hstage] at haccepted
    | accept _ _ _ _ hopen => exact hopen hR
    | _ => simp at haccepted
  pending := by
    rintro hR _ o rejections ⟨⟩ hpending
    cases hmove with
    | claim _ hstage => simp [hstage] at hpending
    | @outcome a _ _ ha _ _ hsettles =>
      cases hpending
      obtain ⟨hid, hrunner, hsettles⟩ := hsettles hR
      refine ⟨?_, hid, hrunner, staged_setActive.mpr (.inr ?_)⟩
      · rcases hsettles with haccepted | ⟨o', rejections', hstage, hrej⟩
        · obtain ⟨row, hrow, hmine, hopen⟩ := hInv.settled.accepted hR a ha haccepted
          exact ⟨row, hrow, hmine, .inl hopen⟩
        · -- a refused outcome is not the one the row holds
          obtain ⟨⟨row, hrow, hmine, hopen | ⟨-, -, hok⟩⟩, -⟩ :=
            hInv.settled.pending hR a o' rejections' ha hstage
          · exact ⟨row, hrow, hmine, .inl hopen⟩
          · exact absurd hrej hok
      · rcases hsettles with haccepted | ⟨o', rejections', hstage, -⟩
        · exact hInv.custody.accepted a ha haccepted
        · exact (hInv.settled.pending hR a o' rejections' ha hstage).2.2.2
    | _ => simp at hpending
  done hR row hrow hmine hdone :=
    staged_setActive.mpr (.inr (hInv.settled.done hR row hrow hmine hdone))
  reports hR taskId o hsent := by
    obtain ⟨hstaged, hreport⟩ := hInv.settled.reports hR taskId o hsent
    refine ⟨staged_setActive.mpr (.inr hstaged), ?_⟩
    rintro _ ⟨⟩ hid
    cases hmove with
    | claim _ _ hclaim => exact absurd (hid ▸ hstaged) hclaim.fresh
    | «import» ha hstage =>
      obtain ⟨o', rejections, hpending, -⟩ := hreport _ ha hid
      simp [hstage] at hpending
    | accept ha hstage =>
      obtain ⟨o', rejections, hpending, -⟩ := hreport _ ha hid
      simp [hstage] at hpending
    | outcome ha _ _ hsettles =>
      refine ⟨_, _, rfl, .inr ?_⟩
      obtain ⟨o', rejections, hpending, hsame⟩ := hreport _ ha hid
      rcases (hsettles hR).2.2 with haccepted | ⟨o'', rejections'', hstage, hrej⟩
      · simp [haccepted] at hpending
      · rw [hpending] at hstage
        cases hstage
        rcases hsame with rfl | h
        · exact hrej
        · exact h

theorem Recoverable.setActive (hInv : Inv R d w) {a' : Active} (hmove : w.Move R d a') :
    (w.setActive a').Recoverable R d where
  clean := by
    rintro hR _ ⟨⟩
    rcases hmove.cases_of with ⟨-, -, hclaim⟩ | ⟨a, ha, hid, -, henv, -⟩
    · exact hclaim.recovers hR
    · have hclean := hInv.recoverable.clean hR a ha
      rw [Active.Recoverable, Active.Loads, hid, henv]
      exact hclean
  file := by
    rintro hR _ ⟨⟩ haccepted
    cases hmove with
    | claim _ hstage => simp [hstage] at haccepted
    | accept _ _ _ _ _ hhas => exact hhas hR
    | _ => simp at haccepted

/-- **The journal's moves keep the invariants.** -/
theorem Inv.setActive (hInv : Inv R d w) {a' : Active} (hmove : w.Move R d a') :
    Inv R d (w.setActive a') :=
  ⟨.setActive hInv hmove, .setActive hInv hmove, .setActive hInv hmove, .setActive hInv hmove,
    .setActive hInv hmove, .setActive hInv hmove⟩

/-! ## Clearing the journal -/

/-- The world after the entry is cleared. -/
def clearActive (w : World) (a : Active) (why : Clearing) : World :=
  { w with journal := none }.log (.cleared a why (w.db.task? a.taskId) w.now)

section Clear

variable {a : Active} {why : Clearing}

/-- A cleared entry owns no row any more: the row is done, dropped or given up. -/
theorem Clears.not_held (h : w.Clears R d a why) :
    w.NotHeld R d a.taskId ∨ .downgraded a.taskId .dropped ∈ w.history := by
  cases why with
  | delivered =>
    refine .inl fun row hrow hmine hheld => ?_
    obtain ⟨row', hrow', -, hdone⟩ := h.2.1
    rw [hrow] at hrow'
    cases hrow'
    rcases hdone with hs | hs <;> simp [Held, hs] at hheld
  | dropped => exact .inr h.2.1
  | refused code => exact .inl h.2.1

/-- No acceptance of a cleared entry can succeed. -/
theorem Clears.not_live (hInv : Inv R d w) (ha : w.journal = some a) (h : w.Clears R d a why)
    {taskId : String} {token : ClaimToken} (hsent : .accept taskId (some token) ∈ w.sent) :
    ¬ w.Live taskId token := by
  intro hlive
  obtain ⟨a', ha', hstage, hid, htoken⟩ := hInv.ownership.accepts taskId token hsent hlive
  cases ha.symm.trans ha'
  cases why with
  | refused code =>
    obtain ⟨-, -, -, token', htoken', hnot⟩ := h
    rw [htoken] at htoken'
    cases htoken'
    exact hnot (hid ▸ hlive)
  | _ =>
    have hpending := h.1
    simp [hstage, Stage.isPending] at hpending

theorem Ownership.clearActive (hInv : Inv R d w) (ha : w.journal = some a)
    (h : w.Clears R d a why) : (w.clearActive a why).Ownership R d where
  handed := by rintro _ ⟨⟩
  accepts taskId token hsent hlive := absurd hlive (h.not_live hInv ha hsent)
  held := by
    intro row hrow hmine hheld
    refine .inr ⟨List.mem_cons_of_mem _ ?_, by rintro _ ⟨⟩⟩
    rcases hInv.ownership.held row hrow hmine hheld with ⟨a', ha', hid, -⟩ | ⟨hdropped, -⟩
    · cases ha.symm.trans ha'
      rcases h.not_held with hnot | hdropped
      · exact absurd hheld (hnot row (by rw [hid]; exact Database.task?_of_mem hrow) hmine)
      · exact hid ▸ hdropped
    · exact hdropped
  refusals := by
    intro a' code row? now hmem
    rcases List.mem_cons.mp hmem with heq | hold
    · cases heq
      obtain ⟨row, hrow, hmine, hpending⟩ := hInv.ownership.handed a ha
      obtain ⟨-, hnot, -, token, htoken, hdead⟩ := h
      refine ⟨row, hrow, hmine, hpending, hnot row hrow hmine, fun hclaimed hsame lease hlease => ?_⟩
      by_contra hlt
      exact hdead ⟨row, hrow, hclaimed, hsame.trans htoken, lease, hlease, not_le.mp hlt⟩
    · exact hInv.ownership.refusals a' code row? now hold

theorem Custody.clearActive (hInv : Inv R d w) (ha : w.journal = some a)
    (h : w.Clears R d a why) : (w.clearActive a why).Custody R d where
  sidecar := hInv.custody.sidecar
  file taskId hfile := by
    rcases hInv.custody.file taskId hfile with hold | ⟨a', ha', rfl, hstage⟩
    · exact .inl (List.mem_cons_of_mem _ hold)
    · cases ha.symm.trans ha'
      cases why with
      | refused code => exact absurd hfile h.2.2.1
      | _ =>
        have hpending := h.1
        rcases hstage with hs | hs <;> simp [hs, Stage.isPending] at hpending
  fresh := by rintro _ ⟨⟩
  accepted := by rintro _ ⟨⟩
  past taskId hmem := by
    rcases List.mem_cons.mp hmem with heq | hold
    · cases heq
    · exact hInv.custody.past taskId hold
  loads := by rintro _ ⟨⟩
  safe taskId hmem := hInv.custody.safe taskId ((List.mem_cons.mp hmem).resolve_left (by simp))
  imported := by rintro _ ⟨⟩
  order := ⟨trivial, hInv.custody.order⟩

/-- **Clearing the journal keeps the invariants.** -/
theorem Inv.clearActive (hInv : Inv R d w) (ha : w.journal = some a) (h : w.Clears R d a why) :
    Inv R d (w.clearActive a why) where
  issued := ⟨hInv.issued.rows, by rintro _ ⟨⟩, hInv.issued.sent⟩
  ownership := .clearActive hInv ha h
  custody := .clearActive hInv ha h
  once := by
    refine ⟨fun hR taskId hfile => ?_, by rintro _ _ ⟨⟩⟩
    obtain ⟨a', ha', rfl⟩ := hInv.once.file hR taskId hfile
    cases ha.symm.trans ha'
    cases why with
    | refused code => exact absurd hfile h.2.2.1
    | _ => exact absurd hfile (h.2.2 hR)
  settled := by
    refine ⟨by rintro _ _ ⟨⟩, by rintro _ _ ⟨⟩, by rintro _ _ _ _ ⟨⟩, fun hR row hrow hmine hdone =>
      List.mem_cons_of_mem _ (hInv.settled.done hR row hrow hmine hdone), fun hR taskId o hsent => ?_⟩
    exact ⟨List.mem_cons_of_mem _ (hInv.settled.reports hR taskId o hsent).1, by rintro _ ⟨⟩⟩
  recoverable := ⟨by rintro _ _ ⟨⟩, by rintro _ _ ⟨⟩⟩

end Clear

/-! ## Files, logs and requests -/

/-- An event that is no write of the journal and no record. -/
theorem Inv.log (hInv : Inv R d w) {e : Event} (hfollows : e.Follows R w.history)
    (hstaged : ∀ taskId stage, e ≠ .staged taskId stage)
    (hcleared : ∀ a why row now, e ≠ .cleared a why row now)
    (hrecorded : ∀ task, e ≠ .recorded task) : Inv R d (w.log e) := by
  have hmem : ∀ e', e' ∈ w.history → e' ∈ (w.log e).history := fun e' => List.mem_cons_of_mem _
  have hstaged' : ∀ taskId, .staged taskId .accepted ∈ (w.log e).history →
      .staged taskId .accepted ∈ w.history := by
    intro taskId h
    rcases List.mem_cons.mp h with heq | h
    · exact absurd heq.symm (hstaged taskId .accepted)
    · exact h
  have hrec : ∀ taskId, (w.log e).Recorded taskId → w.Recorded taskId := by
    rintro taskId ⟨task, h, hover⟩
    rcases List.mem_cons.mp h with heq | h
    · exact absurd heq.symm (hrecorded task)
    · exact ⟨task, h, hover⟩
  exact {
    issued := ⟨hInv.issued.rows, hInv.issued.journal, hInv.issued.sent⟩
    ownership := {
      handed := hInv.ownership.handed
      accepts := hInv.ownership.accepts
      held := fun row hrow hmine hheld => (hInv.ownership.held row hrow hmine hheld).imp_right
        fun h => ⟨hmem _ h.1, h.2⟩
      refusals := fun a code row? now h => by
        rcases List.mem_cons.mp h with heq | h
        · exact absurd heq.symm (hcleared a (.refused code) row? now)
        · exact hInv.ownership.refusals a code row? now h }
    custody := {
      sidecar := hInv.custody.sidecar
      file := fun taskId hfile => (hInv.custody.file taskId hfile).imp_left (hmem _)
      fresh := fun a ha hstage h => hInv.custody.fresh a ha hstage (hstaged' _ h)
      accepted := fun a ha hstage => hmem _ (hInv.custody.accepted a ha hstage)
      past := fun taskId h => hInv.custody.past taskId (hstaged' taskId h)
      loads := hInv.custody.loads
      safe := fun taskId h => hInv.custody.safe taskId (hstaged' taskId h)
      imported := hInv.custody.imported
      order := ⟨hfollows, hInv.custody.order⟩ }
    once := ⟨hInv.once.file, fun hR a ha hstage h => hInv.once.found hR a ha hstage (hrec _ h)⟩
    settled := {
      claimed := hInv.settled.claimed
      accepted := hInv.settled.accepted
      pending := fun hR a o rejections ha hstage => by
        obtain ⟨hs, hid, hrunner, h⟩ := hInv.settled.pending hR a o rejections ha hstage
        exact ⟨hs, hid, hrunner, hmem _ h⟩
      done := fun hR row hrow hmine hdone => hmem _ (hInv.settled.done hR row hrow hmine hdone)
      reports := fun hR taskId o hsent =>
        (hInv.settled.reports hR taskId o hsent).imp_left (hmem _) }
    recoverable := ⟨hInv.recoverable.clean, hInv.recoverable.file⟩ }

/-- The import of a claimed task. -/
theorem Inv.install (hInv : Inv R d w) {a : Active} (ha : w.journal = some a)
    (hstage : a.stage = .claimed) (hloads : a.Loads d.classes) (hnone : w.NoRecord a.taskId) :
    Inv R d { w with queue := w.queue.put ⟨a.taskId, some (.obj
      (TaskQueue.persisted a.envelope.task a.taskId))⟩ } := by
  have hclaim : ∀ taskId, { w with queue := w.queue.put ⟨a.taskId, some (.obj
      (TaskQueue.persisted a.envelope.task a.taskId))⟩ }.ClaimFile taskId →
      taskId = a.taskId ∨ w.ClaimFile taskId := by
    rintro taskId ⟨f, hf, hfrom⟩
    rw [Table.find?_put] at hf
    split at hf
    · next hid => exact .inl hid
    · exact .inr ⟨f, hf, hfrom⟩
  exact {
    issued := ⟨hInv.issued.rows, hInv.issued.journal, hInv.issued.sent⟩
    ownership := ⟨hInv.ownership.handed, hInv.ownership.accepts, hInv.ownership.held,
      hInv.ownership.refusals⟩
    custody := { hInv.custody with
      sidecar := fun f hin hfrom => by
        rcases Table.mem_put.mp hin with rfl | ⟨hin, -⟩
        · exact ⟨_, rfl, TaskQueue.lookup_persisted _ _⟩
        · exact hInv.custody.sidecar f hin hfrom
      file := fun taskId hfile => by
        rcases hclaim taskId hfile with rfl | hold
        · exact .inr ⟨a, ha, rfl, .inl hstage⟩
        · exact hInv.custody.file taskId hold
      imported := fun a' ha' hs => by
        cases ha.symm.trans ha'
        exact ⟨hloads, hnone⟩ }
    once := by
      refine ⟨fun hR taskId hfile => ?_, hInv.once.found⟩
      rcases hclaim taskId hfile with rfl | hold
      · exact ⟨a, ha, rfl⟩
      · exact hInv.once.file hR taskId hold
    settled := { hInv.settled with }
    recoverable := ⟨hInv.recoverable.clean, fun hR a' ha' hs =>
      has_put (hInv.recoverable.file hR a' ha' hs)⟩ }

/-- A record of a task that may run: other logs, and the event. -/
theorem Inv.record (hInv : Inv R d w) {task : Task} (hrun : w.Runnable task)
    {output : List (LogLine Fields)} {failed : List (LogLine String)}
    (hfound : R.exact → ¬ { w with output, failed }.NoRecord task.taskId) :
    Inv R d ({ w with output, failed }.log (.recorded task)) := by
  have hstaged : ∀ taskId, .staged taskId .accepted ∈ (Event.recorded task :: w.history) ↔
      .staged taskId .accepted ∈ w.history := by simp
  exact {
    issued := ⟨hInv.issued.rows, hInv.issued.journal, hInv.issued.sent⟩
    ownership := {
      handed := hInv.ownership.handed
      accepts := hInv.ownership.accepts
      held := fun row hrow hmine hheld => (hInv.ownership.held row hrow hmine hheld).imp_right
        fun h => ⟨List.mem_cons_of_mem _ h.1, h.2⟩
      refusals := fun a code row? now h => hInv.ownership.refusals a code row? now
        ((List.mem_cons.mp h).resolve_left (by simp)) }
    custody := {
      sidecar := hInv.custody.sidecar
      file := fun taskId hfile => (hInv.custody.file taskId hfile).imp_left (hstaged taskId).mpr
      fresh := fun a ha hs h => hInv.custody.fresh a ha hs ((hstaged _).mp h)
      accepted := fun a ha hs => (hstaged _).mpr (hInv.custody.accepted a ha hs)
      past := fun taskId h => hInv.custody.past taskId ((hstaged taskId).mp h)
      loads := hInv.custody.loads
      safe := fun taskId h => hInv.custody.safe taskId ((hstaged taskId).mp h)
      imported := fun a ha hs => by
        -- no delivery waits for its acceptance while a task runs
        have := hrun.blocked a ha
        rcases hs with hs | ⟨hs, -⟩ <;> simp [hs] at this
      order := ⟨hrun.accepted, hInv.custody.order⟩ }
    once := by
      refine ⟨hInv.once.file, fun hR a ha hs _ => ?_⟩
      have hid : task.taskId = a.taskId := by
        rw [Task.taskId, hrun.delivery a ha hs]
        rfl
      rw [← hid]
      exact hfound hR
    settled := {
      claimed := fun _ a ha hs => absurd hs (hrun.blocked a ha).1
      accepted := hInv.settled.accepted
      pending := fun hR a o rejections ha hs => by
        obtain ⟨h, hid, hrunner, hmem⟩ := hInv.settled.pending hR a o rejections ha hs
        exact ⟨h, hid, hrunner, (hstaged _).mpr hmem⟩
      done := fun hR row hrow hmine hdone =>
        (hstaged _).mpr (hInv.settled.done hR row hrow hmine hdone)
      reports := fun hR taskId o hsent =>
        (hInv.settled.reports hR taskId o hsent).imp_left (hstaged _).mpr }
    recoverable := ⟨hInv.recoverable.clean, hInv.recoverable.file⟩ }

/-- A request goes on the wire. -/
theorem Inv.send (hInv : Inv R d w) {req : RunnerRequest} (hasks : w.Asks req) :
    Inv R d { w with sent := req :: w.sent } where
  issued := by
    refine ⟨hInv.issued.rows, hInv.issued.journal, fun taskId token hmem => ?_⟩
    rcases List.mem_cons.mp hmem with heq | hold
    · subst heq
      obtain ⟨a, ha, -, -, htoken⟩ := hasks
      exact hInv.issued.journal a ha token htoken
    · exact hInv.issued.sent taskId token hold
  ownership := by
    refine ⟨hInv.ownership.handed, fun taskId token hmem hlive => ?_, hInv.ownership.held,
      hInv.ownership.refusals⟩
    rcases List.mem_cons.mp hmem with heq | hold
    · subst heq
      exact hasks
    · exact hInv.ownership.accepts taskId token hold hlive
  custody := { hInv.custody with }
  once := ⟨hInv.once.file, hInv.once.found⟩
  settled := by
    refine ⟨hInv.settled.claimed, hInv.settled.accepted, hInv.settled.pending, hInv.settled.done,
      fun hR taskId o hmem => ?_⟩
    rcases List.mem_cons.mp hmem with heq | hold
    · subst heq
      obtain ⟨a, rejections, ha, rfl, hstage⟩ := hasks
      refine ⟨(hInv.settled.pending hR a o rejections ha hstage).2.2.2, fun a' ha' _ => ?_⟩
      cases ha.symm.trans ha'
      exact ⟨o, rejections, hstage, .inl rfl⟩
    · exact hInv.settled.reports hR taskId o hold
  recoverable := ⟨hInv.recoverable.clean, hInv.recoverable.file⟩

/-! ## The commands together -/

/-- The lines an execution appends hide nothing: its own newest line is found. -/
theorem findRecord_resultLines {task : Task} {results : List (ℕ × Fields)}
    (hresults : results.isEmpty = false) (hsize : ∀ r ∈ results, r.1 ≤ findRecordMaxBytes)
    (output : List (LogLine Fields)) :
    findRecord task.taskId findRecordMaxBytes (resultLines task results ++ output) ≠ none := by
  have hlines : ∀ line ∈ resultLines task results,
      line.taskId = task.taskId ∧ line.size ≤ findRecordMaxBytes := by
    intro line hline
    obtain ⟨r, hr, rfl⟩ := List.mem_map.mp (List.mem_reverse.mp hline)
    exact ⟨rfl, hsize r hr⟩
  cases h : resultLines task results with
  | nil =>
    rw [resultLines, List.reverse_eq_nil_iff, List.map_eq_nil_iff] at h
    simp [h] at hresults
  | cons line lines =>
    obtain ⟨hid, hfits⟩ := hlines line (by rw [h]; exact List.mem_cons_self)
    rw [List.cons_append, findRecord, if_neg (not_lt.mpr hfits), if_pos hid]
    simp

/-- **Every command keeps the invariants when the runner keeps its promise.** -/
theorem exec_ok {β : Type} {c : Command β} {x : Choice} (hInv : Inv R d w)
    (hguard : w.Guard R d c) (hchoice : w.ChoiceOk R d c x) : Inv R d (w.exec d c x).2 := by
  cases c with
  | setActive a => exact hInv.setActive hguard
  | clearActive why =>
    obtain ⟨a, ha, hclears⟩ := hguard
    simp only [exec, ha]
    exact hInv.clearActive ha hclears
  | recordDowngrade taskId stage =>
    exact hInv.log trivial (by simp) (by simp) (by simp)
  | installTask taskId document =>
    obtain ⟨a, ha, hstage, rfl, rfl, hloads, hnone⟩ := hguard
    exact hInv.install ha hstage hloads hnone
  | unlinkTask taskId | parkTask taskId => exact hInv.erase hguard
  | request req =>
    have hsent := hInv.send hguard
    have hserved := (serve_ok hsent req List.mem_cons_self).1
    simp only [exec, attempt]
    cases x.network with
    | passed =>
      dsimp only
      split
      · exact hserved.log trivial (by simp) (by simp) (by simp)
      · exact hserved
      · exact hserved
    | lost delivered | proxy delivered status | garbled delivered | cut delivered error =>
      cases delivered
      · exact hsent
      · exact hserved
  | starting task => exact hInv.log hguard (by simp) (by simp) (by simp)
  | execute task =>
    simp only [exec]
    split
    · exact hInv
    · next hresults =>
      refine hInv.record hguard fun hR hnone => ?_
      exact findRecord_resultLines (by simpa using hresults) (hchoice hR) w.output hnone.1
  | recordFailure task error =>
    refine hInv.record hguard fun hR hnone => ?_
    have hfits : x.size ≤ findRecordMaxBytes := hchoice hR
    have hfind := hnone.2
    rw [findFailure, findRecord, if_neg (not_lt.mpr hfits), if_pos rfl] at hfind
    cases hfind
  | active | hasTask _ | taskIds | readTask _ | findResult _ | findFailure _ | utcText | pollDue =>
    exact hInv

/-- The contract between the runner and everything beside it, in a regime. -/
def contract (R : Regime) (d : Deployment) : Discipline (effects d) where
  Inv          := Inv R d
  Rely         := Rely R d
  envOk e w    := w.OutsideOk R d e
  choiceOk c x w := w.ChoiceOk R d c x
  guard c w    := w.Guard R d c
  rely_refl    := Rely.refl
  rely_trans   := Rely.trans
  interfere_ok := interfere_ok
  exec_ok      := exec_ok

end World

end Conductress
