import Conductress.Lib.Transition
import Conductress.Control.DriftAnalyzer
import Conductress.Control.Lifecycle

/-!
# The reference window of a drift series

What `ingest_outcome` stores, over any sequence of calls. Rows are appended, so
the rows before an accepted observation are what was present when it was
ingested.

* `IsWindow` — the latest 28 accepted observations with a strictly earlier
  date, said of a list of rows and without the query;
* `Recorded` — what every accepted row says about the rows before it, for every
  sequence of calls (`recorded`);
* `seriesSound_iff` — a series is as its rows say if and only if no observation
  arrived after more than 28 of earlier dates: `ref_sample_count` counts all of
  them, the statistics are of the latest 28.
-/

namespace Conductress

open Lib

namespace DriftAnalyzer

/-- The accepted observations of a series among some rows, in the order of the
rows. -/
def acceptedOf (rows : List Observation) (series : SeriesKey) : List Observation :=
  rows.filter fun o => decide (o.series = series ∧ o.accepted = true)

/-- Those of a strictly earlier date. -/
def earlierOf (rows : List Observation) (series : SeriesKey) (utcDate : String) :
    List Observation :=
  (acceptedOf rows series).filter fun o => decide (o.utcDate < utcDate)

/-- The latest accepted observations with a strictly earlier date, at most 28. -/
structure IsWindow (rows : List Observation) (series : SeriesKey) (utcDate : String)
    (window : List Observation) : Prop where
  ordered : window.Pairwise fun a b => a.utcDate < b.utcDate
  earlier : ∀ o ∈ window, o ∈ earlierOf rows series utcDate
  latest  : ∀ o ∈ earlierOf rows series utcDate, o ∉ window → ∀ r ∈ window, o.utcDate < r.utcDate
  size    : window.length = min rollingWindow (earlierOf rows series utcDate).length

/-- The statistics and bounds of an observation are those of a window. -/
structure RefersTo (o : Observation) (window : List Observation) : Prop where
  median : o.refMedian = median (window.filterMap Observation.score)
  mad    : o.refMad = mad (window.filterMap Observation.score)
  start  : o.windowStart = window.head?.map Observation.utcDate
  last   : o.windowEnd = window.getLast?.map Observation.utcDate

/-- What an accepted observation says about the rows before it. -/
structure RecordedAfter (rows : List Observation) (o : Observation) : Prop where
  newDate   : ∀ r ∈ acceptedOf rows o.series, r.utcDate ≠ o.utcDate
  ordinal   : o.seriesOrdinal = some ((acceptedOf rows o.series).length + 1)
  phase     : o.phase = phaseOf ((acceptedOf rows o.series).length + 1)
  count     : o.refSampleCount = some (earlierOf rows o.series o.utcDate).length
  reference : ∃ window, IsWindow rows o.series o.utcDate window ∧ RefersTo o window

/-- A relation between every accepted row and the rows before it. -/
def AtArrivals (P : List Observation → Observation → Prop) (rows : List Observation) : Prop :=
  ∀ before o after, rows = before ++ o :: after → o.accepted = true → P before o

/-- Every accepted row is recorded after the rows before it. -/
def Recorded (rows : List Observation) : Prop := AtArrivals RecordedAfter rows

/-- No accepted row arrived after more than 28 of earlier dates. -/
def FewEarlier (rows : List Observation) : Prop :=
  AtArrivals (fun before o => (earlierOf before o.series o.utcDate).length ≤ rollingWindow) rows

variable {now : Instant} {i : Ingestion} {t t' : DriftTables} {rows : List Observation}
  {series : SeriesKey} {utcDate : String} {P : List Observation → Observation → Prop}

theorem mem_acceptedOf {o : Observation} :
    o ∈ acceptedOf rows series ↔ o ∈ rows ∧ o.series = series ∧ o.accepted = true := by
  simp [acceptedOf]

/-! ## The query -/

/-- The accepted observations of a series are of different dates. -/
theorem nodup_acceptedOf (t : DriftTables) (series : SeriesKey) :
    ((acceptedOf t.observations.rows series).map Observation.utcDate).Nodup := by
  have hrows : (acceptedOf t.observations.rows series).Nodup :=
    (List.Nodup.of_map _ t.observations.nodup).filter _
  refine List.Nodup.map_on (fun a ha b hb hdate => ?_) hrows
  obtain ⟨ha, haseries, haccepted⟩ := mem_acceptedOf.mp ha
  obtain ⟨hb, hbseries, hbaccepted⟩ := mem_acceptedOf.mp hb
  exact t.oneAccepted a ha b hb haccepted hbaccepted (haseries.trans hbseries.symm) hdate

theorem acceptedRows_perm (t : DriftTables) (series : SeriesKey) :
    (t.acceptedRows series).Perm (acceptedOf t.observations.rows series) :=
  List.perm_insertionSort _ _

/-- The query's order is that of the dates, as no two are the same. -/
theorem acceptedRows_ordered (t : DriftTables) (series : SeriesKey) :
    (t.acceptedRows series).Pairwise fun a b => a.utcDate < b.utcDate := by
  have htotal : Std.Total fun a b : Observation =>
      a.utcDate < b.utcDate ∨ (a.utcDate = b.utcDate ∧ a.taskId ≤ b.taskId) := by
    refine ⟨fun a b => ?_⟩
    rcases lt_trichotomy a.utcDate b.utcDate with hlt | heq | hgt
    · exact .inl (.inl hlt)
    · rcases le_total a.taskId b.taskId with hle | hle
      · exact .inl (.inr ⟨heq, hle⟩)
      · exact .inr (.inr ⟨heq.symm, hle⟩)
    · exact .inr (.inl hgt)
  have htrans : IsTrans Observation fun a b =>
      a.utcDate < b.utcDate ∨ (a.utcDate = b.utcDate ∧ a.taskId ≤ b.taskId) := by
    refine ⟨fun a b c hab hbc => ?_⟩
    rcases hab with hab | ⟨hab, hle⟩
    · rcases hbc with hbc | ⟨hbc, -⟩
      · exact .inl (hab.trans hbc)
      · exact .inl (hbc ▸ hab)
    · rcases hbc with hbc | ⟨hbc, hle'⟩
      · exact .inl (hab ▸ hbc)
      · exact .inr ⟨hab.trans hbc, hle.trans hle'⟩
  have hsorted := List.pairwise_insertionSort (fun a b : Observation =>
    a.utcDate < b.utcDate ∨ (a.utcDate = b.utcDate ∧ a.taskId ≤ b.taskId))
    (acceptedOf t.observations.rows series)
  have hdates : (t.acceptedRows series).Pairwise fun a b => a.utcDate ≠ b.utcDate :=
    List.pairwise_map.mp (((acceptedRows_perm t series).map _).nodup_iff.mpr
      (nodup_acceptedOf t series))
  refine (hsorted.and hdates).imp fun {a b} h => ?_
  rcases h.1 with hlt | ⟨heq, -⟩
  · exact hlt
  · exact absurd heq h.2

/-- **The query finds the window**: what it keeps of the prior rows is the
latest 28 of them. -/
theorem isWindow_recent (t : DriftTables) (series : SeriesKey) (utcDate : String)
    {prior : List Observation}
    (hprior : prior = (t.acceptedRows series).filter fun o => decide (o.utcDate < utcDate)) :
    prior.length = (earlierOf t.observations.rows series utcDate).length ∧
      IsWindow t.observations.rows series utcDate (prior.drop (prior.length - rollingWindow)) := by
  have hperm : prior.Perm (earlierOf t.observations.rows series utcDate) :=
    hprior ▸ (acceptedRows_perm t series).filter _
  have hordered : prior.Pairwise fun a b => a.utcDate < b.utcDate :=
    hprior ▸ (acceptedRows_ordered t series).filter _
  refine ⟨hperm.length_eq, hordered.drop, fun o ho => ?_, fun o ho hout r hr => ?_, ?_⟩
  · exact hperm.mem_iff.mp (List.mem_of_mem_drop ho)
  · -- what is not among the latest comes before all of them
    have hsplit := List.take_append_drop (prior.length - rollingWindow) prior
    rw [← hsplit, List.pairwise_append] at hordered
    have hmem := hperm.mem_iff.mpr ho
    rw [← hsplit, List.mem_append] at hmem
    exact hordered.2.2 o (hmem.resolve_right hout) r hr
  · rw [List.length_drop, hperm.length_eq]
    omega

/-! ## One call -/

/-- The row is stored: the score is finite and positive, and neither the task nor
another one has the day. -/
structure Accepts (i : Ingestion) (t : DriftTables) (score : Rat) : Prop where
  named    : i.profileId ≠ "" ∧ i.utcDate ≠ ""
  finite   : finiteScore i.score = .ok (some score)
  positive : 0 < score
  version  : fitsInteger i.profileVersion = true
  newTask  : t.observations.find? (i.series, i.utcDate, i.taskId) = none
  newDate  : t.acceptedOn i.series i.utcDate = none

/-- What a call does to the rows. -/
inductive Stored (now : Instant) (i : Ingestion) (t : DriftTables) : List Observation → Prop where
  | none : Stored now i t t.observations.rows
  | rejected (reason : RejectionReason) :
      Stored now i t (t.observations.rows ++ [rejectedObservation now i reason])
  | accepted (score : Rat) : Accepts i t score →
      Stored now i t (t.observations.rows ++ [acceptedObservation now i score t])

theorem DriftTables.insert?_rows {o : Observation} (h : t.insert? o = some t') :
    t'.observations.rows = t.observations.rows ++ [o] := by
  unfold DriftTables.insert? at h
  split at h
  · cases h
  · next hins =>
    split at h
    · obtain rfl := Option.some.inj h
      exact (Table.insert?_eq_some hins).2
    · cases h

theorem recordRejectedObservation_stored {reason : RejectionReason}
    (h : recordRejectedObservation now i reason t = .ok t') :
    Stored now i t t'.observations.rows := by
  unfold recordRejectedObservation at h
  split at h
  · cases h
  split at h
  · exact Except.ok.inj h ▸ .none
  split at h
  · next hins =>
    obtain rfl := Except.ok.inj h
    rw [DriftTables.insert?_rows hins]
    exact .rejected reason
  · cases h

theorem acceptObservation_stored {score : Rat} (hnamed : i.profileId ≠ "" ∧ i.utcDate ≠ "")
    (hfinite : finiteScore i.score = .ok (some score)) (hpositive : 0 < score)
    (h : acceptObservation now i score t = .ok t') : Stored now i t t'.observations.rows := by
  unfold acceptObservation at h
  split at h
  · cases h
  next hversion =>
  split at h
  · exact Except.ok.inj h ▸ .none
  next htask =>
  split at h
  · exact Except.ok.inj h ▸ .none
  next hdate =>
  split at h
  · cases h
  dsimp only at h
  split at h
  · cases h
  next t₁ hins =>
  have haccepts : Accepts i t score :=
    ⟨hnamed, hfinite, hpositive, by simpa using hversion, by simpa using htask, by simpa using hdate⟩
  have hrows : t'.observations.rows = t.observations.rows ++ [acceptedObservation now i score t] := by
    rw [← DriftTables.insert?_rows hins]
    split at h
    · rw [generateCalibrationReport_observations h]
    · rw [Except.ok.inj h]
  rw [hrows]
  exact .accepted score haccepts

/-- **One call** stores a rejected row, an accepted one for a day that had none,
or nothing. -/
theorem ingestOutcome_stored (h : ingestOutcome now i t = .ok t') :
    Stored now i t t'.observations.rows := by
  unfold ingestOutcome at h
  split at h
  · exact Except.ok.inj h ▸ .none
  next hempty =>
  rw [not_or] at hempty
  obtain ⟨score, hscore, h⟩ := except_bind_ok.mp h
  split at h
  · exact recordRejectedObservation_stored h
  · split at h
    · exact recordRejectedObservation_stored h
    · next hpositive => exact acceptObservation_stored hempty hscore (Rat.not_le.mp hpositive) h

/-- The row of an accepted observation is recorded after the rows there are. -/
theorem acceptedObservation_recorded {score : Rat} (h : t.acceptedOn i.series i.utcDate = none) :
    RecordedAfter t.observations.rows (acceptedObservation now i score t) := by
  have hcount : (t.acceptedRows i.series).length =
      (acceptedOf t.observations.rows i.series).length := (acceptedRows_perm t i.series).length_eq
  obtain ⟨hprior, hwindow⟩ := isWindow_recent t i.series i.utcDate rfl
  refine ⟨fun r hr hdate => ?_, ?_, ?_, ?_, _, hwindow, rfl, rfl, rfl, rfl⟩
  · obtain ⟨hmem, hseries, haccepted⟩ := mem_acceptedOf.mp hr
    rw [DriftTables.acceptedOn_none h hmem hseries hdate] at haccepted
    cases haccepted
  · exact congrArg (fun n => some (n + 1)) hcount
  · exact congrArg (fun n => phaseOf (n + 1)) hcount
  · exact congrArg some hprior

/-- Before the first row. -/
theorem AtArrivals.nil : AtArrivals P [] := fun before o after hsplit => by simp at hsplit

/-- A row at the end. -/
theorem AtArrivals.snoc {o : Observation} (h : AtArrivals P rows) (ho : o.accepted = true → P rows o) :
    AtArrivals P (rows ++ [o]) := by
  intro before o' after hsplit haccepted
  rcases List.eq_nil_or_concat after with rfl | ⟨after, last, rfl⟩
  · obtain ⟨rfl, heq⟩ := List.append_inj' hsplit rfl
    obtain rfl := List.singleton_inj.mp heq
    exact ho haccepted
  · rw [List.concat_eq_append, ← List.cons_append, ← List.append_assoc] at hsplit
    exact h before o' after (List.append_inj' hsplit rfl).1 haccepted

theorem AtArrivals.of_snoc {o : Observation} (h : AtArrivals P (rows ++ [o])) :
    AtArrivals P rows ∧ (o.accepted = true → P rows o) := by
  refine ⟨fun before o' after hsplit => ?_, fun haccepted => h rows o [] rfl haccepted⟩
  refine h before o' (after ++ [o]) ?_
  rw [hsplit, List.append_assoc, List.cons_append]

/-- **A call keeps it** when it holds of the row the call accepts. -/
theorem AtArrivals.stored {stored : List Observation} (h : AtArrivals P t.observations.rows)
    (hstored : Stored now i t stored) (haccepted : ∀ score, Accepts i t score →
      P t.observations.rows (acceptedObservation now i score t)) : AtArrivals P stored := by
  cases hstored with
  | none => exact h
  | rejected reason => exact h.snoc fun hrejected => by cases hrejected
  | accepted score haccepts => exact h.snoc fun _ => haccepted score haccepts

/-! ## Sequences of calls -/

/-- A call of `ingest_outcome`. -/
structure Call where
  now       : Instant
  ingestion : Ingestion

/-- A call that raises rolls back. -/
def ingest (t : DriftTables) (c : Call) : DriftTables :=
  match ingestOutcome c.now c.ingestion t with
  | .ok t' => t'
  | .error _ => t

theorem ingest_stored (t : DriftTables) (c : Call) :
    Stored c.now c.ingestion t (ingest t c).observations.rows := by
  unfold ingest
  cases hingest : ingestOutcome c.now c.ingestion t with
  | ok t' => exact ingestOutcome_stored hingest
  | error _ => exact .none

/-- Stored rows stay as they are, in place. -/
theorem ingest_keeps_rows (t : DriftTables) (c : Call) :
    t.observations.rows <+: (ingest t c).observations.rows := by
  have hstored := ingest_stored t c
  generalize (ingest t c).observations.rows = stored at hstored
  cases hstored with
  | none => exact List.prefix_rfl
  | rejected | accepted => exact List.prefix_append _ _

/-- **Every sequence of calls.** -/
theorem recorded {cs : List Call} (h : Run (fun t c t' => t' = ingest t c) .empty cs t) :
    Recorded t.observations.rows := by
  have hempty : Recorded DriftTables.empty.observations.rows := AtArrivals.nil
  refine h.invariant (fun t => Recorded t.observations.rows) hempty ?_
  rintro a c _ rfl ih
  exact AtArrivals.stored ih (ingest_stored a c) fun _ haccepts =>
    acceptedObservation_recorded haccepts.newDate

theorem run_keeps_rows {cs : List Call} (h : Run (fun t c t' => t' = ingest t c) t cs t') :
    t.observations.rows <+: t'.observations.rows := by
  refine h.invariant (fun t' => t.observations.rows <+: t'.observations.rows) List.prefix_rfl ?_
  rintro a c _ rfl ih
  exact ih.trans (ingest_keeps_rows a c)

/-! ## Series -/

/-- A series is as its rows say: one accepted observation a date, numbered from 1
in the order of arrival, each in its number's phase and with the reference window
of the rows before it. -/
structure SeriesSound (rows : List Observation) (series : SeriesKey) : Prop where
  onePerDate : ((acceptedOf rows series).map Observation.utcDate).Nodup
  ordinals   : (acceptedOf rows series).map Observation.seriesOrdinal =
    (List.range' 1 (acceptedOf rows series).length).map some
  phases     : ∀ o ∈ acceptedOf rows series, ∃ n, o.seriesOrdinal = some n ∧ o.phase = phaseOf n
  reference  : ∀ before o after, rows = before ++ o :: after → o ∈ acceptedOf rows series →
    ∃ window, IsWindow before series o.utcDate window ∧ RefersTo o window ∧
      o.refSampleCount = some window.length

theorem acceptedOf_snoc (rows : List Observation) (o : Observation) (series : SeriesKey) :
    acceptedOf (rows ++ [o]) series =
      acceptedOf rows series ++ if o.series = series ∧ o.accepted = true then [o] else [] := by
  unfold acceptedOf
  rw [List.filter_append]
  congr 1
  simp [List.filter_cons]

/-- The ordinals count the accepted rows, by induction on the arrivals. -/
theorem Recorded.ordinals (h : Recorded rows) (series : SeriesKey) :
    (acceptedOf rows series).map Observation.seriesOrdinal =
      (List.range' 1 (acceptedOf rows series).length).map some := by
  induction rows using List.reverseRecOn with
  | nil => rfl
  | append_singleton rows o ih =>
    obtain ⟨hrows, ho⟩ := AtArrivals.of_snoc h
    rw [acceptedOf_snoc]
    split
    · next hown =>
      obtain ⟨rfl, haccepted⟩ := hown
      rw [List.map_append, ih hrows, List.map_singleton, (ho haccepted).ordinal, List.length_append,
        List.length_singleton, List.range'_concat, List.map_append, List.map_singleton]
      simp [Nat.add_comm]
    · rw [List.append_nil]
      exact ih hrows

/-- No two dates are the same, by the same induction. -/
theorem Recorded.onePerDate (h : Recorded rows) (series : SeriesKey) :
    ((acceptedOf rows series).map Observation.utcDate).Nodup := by
  induction rows using List.reverseRecOn with
  | nil => exact List.nodup_nil
  | append_singleton rows o ih =>
    obtain ⟨hrows, ho⟩ := AtArrivals.of_snoc h
    rw [acceptedOf_snoc]
    split
    · next hown =>
      obtain ⟨rfl, haccepted⟩ := hown
      rw [List.map_append, List.map_singleton]
      refine (ih hrows).append (List.nodup_singleton _) fun date hdate hsame => ?_
      obtain ⟨r, hr, rfl⟩ := List.mem_map.mp hdate
      exact (ho haccepted).newDate r hr (List.mem_singleton.mp hsame)
    · rw [List.append_nil]
      exact ih hrows

theorem Recorded.phases (h : Recorded rows) {o : Observation} (ho : o ∈ acceptedOf rows series) :
    ∃ n, o.seriesOrdinal = some n ∧ o.phase = phaseOf n := by
  obtain ⟨hmem, -, haccepted⟩ := mem_acceptedOf.mp ho
  obtain ⟨before, after, hsplit⟩ := List.append_of_mem hmem
  have hrecorded := h before o after hsplit haccepted
  exact ⟨_, hrecorded.ordinal, hrecorded.phase⟩

/-- **When the sample count is that of the window**: with recorded rows, every
series is as its rows say if and only if no observation arrived after more than
28 of earlier dates. -/
theorem seriesSound_iff (h : Recorded rows) :
    (∀ series, SeriesSound rows series) ↔ FewEarlier rows := by
  constructor
  · intro hsound before o after hsplit haccepted
    have hmem : o ∈ acceptedOf rows o.series := by
      refine mem_acceptedOf.mpr ⟨?_, rfl, haccepted⟩
      rw [hsplit]
      exact List.mem_append_right _ List.mem_cons_self
    obtain ⟨window, hwindow, -, hcount⟩ := (hsound o.series).reference before o after hsplit hmem
    rw [(h before o after hsplit haccepted).count] at hcount
    have hsize := hwindow.size
    have hlength := Option.some.inj hcount
    omega
  · intro hfew series
    refine ⟨h.onePerDate series, h.ordinals series, fun o ho => h.phases ho, ?_⟩
    intro before o after hsplit ho
    obtain ⟨-, rfl, haccepted⟩ := mem_acceptedOf.mp ho
    have hrecorded := h before o after hsplit haccepted
    obtain ⟨window, hwindow, hrefers⟩ := hrecorded.reference
    refine ⟨window, hwindow, hrefers, ?_⟩
    rw [hrecorded.count, hwindow.size, Nat.min_eq_right (hfew before o after hsplit haccepted)]

/-- The condition on a call: one that stores an observation finds at most 28
accepted observations with a strictly earlier date. -/
def WithinWindow (t : DriftTables) (c : Call) : Prop :=
  ∀ score, Accepts c.ingestion t score →
    (earlierOf t.observations.rows c.ingestion.series c.ingestion.utcDate).length ≤ rollingWindow

/-- **Every series is as its rows say**, in every state reached by calls that
each find at most 28 earlier observations for what they store; and whatever is
called then, the stored rows stay as they are. -/
theorem series_sound {cs ds : List Call}
    (h : Run (fun t c t' => WithinWindow t c ∧ t' = ingest t c) .empty cs t)
    (h' : Run (fun t c t' => t' = ingest t c) t ds t') :
    (∀ series, SeriesSound t.observations.rows series) ∧
      t.observations.rows <+: t'.observations.rows := by
  have hrecorded : Recorded t.observations.rows := recorded (h.monotone fun _ _ _ h => h.2)
  have hfew : FewEarlier t.observations.rows := by
    have hempty : FewEarlier DriftTables.empty.observations.rows := AtArrivals.nil
    refine h.invariant (fun t => FewEarlier t.observations.rows) hempty ?_
    rintro a c _ ⟨hwithin, rfl⟩ ih
    exact AtArrivals.stored ih (ingest_stored a c) hwithin
  exact ⟨(seriesSound_iff hrecorded).mpr hfew, run_keeps_rows h'⟩

end DriftAnalyzer

namespace SmallDeployment

open DriftAnalyzer

/-- The canary of the `n`-th day of 2026 is ingested, with a score. -/
def ingestDay (n : ℕ) : Call where
  now       := start + n * microsPerDay
  ingestion :=
    { taskId         := "canary:runner-1:standard:" ++ dateText (dayOf start + n)
      runnerId       := "runner-1"
      outcome        :=
        { taskId      := "canary:runner-1:standard:" ++ dateText (dayOf start + n)
          runnerId    := "runner-1"
          state       := .completed
          completedAt := utcText (start + n * microsPerDay)
          result      := .value [("score", .float (.finite 1000))]
          error       := .absent }
      profileId      := "standard"
      profileVersion := 1
      utcDate        := dateText (dayOf start + n) }

end SmallDeployment

open SmallDeployment DriftAnalyzer in
/-- Three days, the second of them ingested last. -/
theorem series_sound_late :
    (∀ series, SeriesSound
        ([0, 2, 1].map ingestDay |>.foldl ingest .empty).observations.rows series) ∧
      ([0, 2, 1].map ingestDay |>.foldl ingest .empty).observations.rows <+:
        ([0, 2, 1, 1].map ingestDay |>.foldl ingest .empty).observations.rows := by
  have hwithin : ∀ (t : DriftTables) (c : Call), t.observations.rows.length ≤ 28 →
      WithinWindow t c := by
    intro t c hfew score _
    exact ((List.length_filter_le _ _).trans (List.length_filter_le _ _)).trans hfew
  refine series_sound (Run.of_guarded ingest WithinWindow _ _ ⟨?_, ?_, ?_, trivial⟩)
    (Run.of_fun ingest _ [ingestDay 1])
  · exact hwithin _ _ (by decide)
  · exact hwithin _ _ (by decide +kernel)
  · exact hwithin _ _ (by decide +kernel)

open SmallDeployment DriftAnalyzer in
/-- Thirty days in order: the last row's statistics are of 28 observations, and
its sample count is 29. -/
theorem thirtieth_observation :
    ¬ ∀ (cs : List Call) (t : DriftTables), Run (fun t c t' => t' = ingest t c) .empty cs t →
      ∀ series, SeriesSound t.observations.rows series := by
  intro h
  have hlast : (((List.range 30).map ingestDay |>.foldl ingest .empty).observations.rows.getLast?.map
      fun o => (o.accepted, o.refSampleCount)) = some (true, some 29) := by decide +kernel
  obtain ⟨o, ho, hrow⟩ := Option.map_eq_some_iff.mp hlast
  obtain ⟨haccepted, hcount⟩ := Prod.mk.inj hrow
  obtain ⟨before, hsplit⟩ := List.getLast?_eq_some_iff.mp ho
  have hmem : o ∈ acceptedOf ((List.range 30).map ingestDay |>.foldl ingest .empty).observations.rows
      o.series := by
    refine mem_acceptedOf.mpr ⟨?_, rfl, haccepted⟩
    rw [hsplit]
    exact List.mem_append_right _ List.mem_cons_self
  obtain ⟨window, hwindow, -, hlength⟩ :=
    (h _ _ (Run.of_fun ingest .empty ((List.range 30).map ingestDay)) o.series).reference _ _ _ hsplit
      hmem
  have hsize := hwindow.size
  have hsame : 29 = window.length := Option.some.inj (hcount.symm.trans hlength)
  have hrolling : rollingWindow = 28 := rfl
  omega

end Conductress
