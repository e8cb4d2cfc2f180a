/-
  Week run: the wake-ups of a symbol over the weeks.

  Model. `wake k` is when the timer of tick `k` fires and `done k` when the scheduler re-arms:
  after the callback, or at once if `_run` finds the market closed. The clock is exact, and
  `datetime` knows every instant the run asks for. `scheduleDelayMs` is the delay
  `_schedule_next` sleeps: over the weekend, or to the next boundary.

  Proved: `weekRun_ticks`: no callback starts in a closed market; every candle close that a run
  passes over between a callback's end and the boundary of the next wake-up falls on the weekend;
  and where the weekend is longer than a candle, the first callback after it starts within a
  second of the reopening and the buffer, unless one still runs.
-/
import SignalEngine.Interfaces.Ticks
import SignalEngine.Interfaces.Weekend

namespace SignalEngine

/-! ## Runs -/

/-- The delay of `_schedule_next`. -/
def WeekendSettings.scheduleDelayMs (cfg : WeekendSettings) (minLtf : ℕ) (nowMs : ℤ) :
    Except ClockError ℤ :=
  (cfg.weekendSleepDelayMs nowMs).map fun delay => delay.getD (msUntilNextBoundary minLtf nowMs)

/-- The weekend sleep is on, and the market closed. -/
def WeekendSettings.Asleep (cfg : WeekendSettings) (nowMs : ℤ) : Prop :=
  cfg.weekendSleepEnabled = true ∧ cfg.MarketClosed nowMs

instance (cfg : WeekendSettings) (nowMs : ℤ) : Decidable (cfg.Asleep nowMs) :=
  inferInstanceAs (Decidable (_ ∧ _))

/-- The length of the closed interval. -/
def WeekendSettings.closedMs (cfg : WeekendSettings) : ℤ :=
  (cfg.weekendReopen.secondsOfWeek * 1000 - cfg.weekendClose.secondsOfWeek * 1000) % weekMs

/-- The check of `_run` lets the callback of a tick start. -/
def WeekendSettings.Starts (cfg : WeekendSettings) (nowMs : ℤ) : Prop :=
  cfg.weekendSleepDelayMs nowMs = .ok none

/-- The ticks of a symbol up to tick `n`, one after the other. -/
structure WeekRun (cfg : WeekendSettings) (minLtf n : ℕ) (wake done : ℕ → ℤ) : Prop where
  checked : ∀ k ≤ n, ∃ delay, cfg.weekendSleepDelayMs (wake k) = .ok delay
  skipped : ∀ k ≤ n, ¬ cfg.Starts (wake k) → done k = wake k
  wake_le : ∀ k ≤ n, wake k ≤ done k
  wake_succ : ∀ k < n,
    ∃ d, cfg.scheduleDelayMs minLtf (done k) = .ok d ∧ wake (k + 1) = done k + d

variable {cfg : WeekendSettings} {minLtf n k : ℕ} {wake done : ℕ → ℤ} {nowMs t B : ℤ}

/-! ## The closed interval -/

theorem sleepDelay_eq {delay : Option ℤ} (h : cfg.weekendSleepDelayMs nowMs = .ok delay) :
    delay = if cfg.Asleep nowMs then
      some (cfg.secondsUntilReopen nowMs * 1000 + cfg.candleBufferMs) else none := by
  rcases (weekendSleepDelayMs_returns_iff cfg nowMs).mp ⟨delay, h⟩ with hoff | hclock
  · have hnone : cfg.weekendSleepDelayMs nowMs = .ok none := if_neg (by rw [hoff]; simp)
    rw [hnone] at h
    rw [if_neg fun hasleep => by rw [hasleep.1] at hoff; cases hoff]
    exact (Except.ok.inj h).symm
  · rw [weekendSleepDelayMs_eq hclock] at h
    exact (Except.ok.inj h).symm

theorem starts_iff {delay : Option ℤ} (h : cfg.weekendSleepDelayMs nowMs = .ok delay) :
    cfg.Starts nowMs ↔ ¬ cfg.Asleep nowMs := by
  have hdelay := sleepDelay_eq h
  rw [WeekendSettings.Starts, h, Except.ok.injEq, hdelay]
  split <;> simp_all

/-- A market that is closed stays so until it reopens. -/
theorem closed_until_reopen (hclosed : cfg.MarketClosed nowMs)
    (ht : IsLeast (cfg.ReopensAfter nowMs) t) (hle : nowMs ≤ B) (hlt : B < t) :
    cfg.MarketClosed B := by
  have hr := cfg.weekendReopen.secondsOfWeek_lt
  have hr0 := cfg.weekendReopen.secondsOfWeek_nonneg
  have hleast : t ≤ nowMs + (cfg.weekendReopen.secondsOfWeek * 1000 - cfg.weekPosition nowMs - 1) %
      weekMs + 1 := by
    refine ht.2 ⟨?_, ?_⟩
    · unfold weekMs
      omega
    · unfold WeekendSettings.weekPosition weekMs
      omega
  unfold WeekendSettings.MarketClosed WeekendSettings.weekPosition weekMs at *
  omega

/-- Before a reopening the market is closed for its length, and not for longer. -/
theorem closed_before_reopen
    (ht : cfg.weekPosition t = cfg.weekendReopen.secondsOfWeek * 1000)
    (hle : t - cfg.closedMs ≤ B) (hlt : B < t) : cfg.MarketClosed B := by
  unfold WeekendSettings.closedMs WeekendSettings.MarketClosed WeekendSettings.weekPosition
    weekMs at *
  omega

/-- Two reopenings are a week apart. -/
theorem reopen_week {s : ℤ} (hs : cfg.weekPosition s = cfg.weekendReopen.secondsOfWeek * 1000)
    (ht : cfg.weekPosition t = cfg.weekendReopen.secondsOfWeek * 1000) (hlt : s < t) :
    s + weekMs ≤ t := by
  unfold WeekendSettings.weekPosition weekMs at *
  omega

/-! ## The next wake-up -/

/-- Over the weekend a tick sleeps to the reopening, else to the next boundary. -/
theorem WeekRun.wake_cases (hrun : WeekRun cfg minLtf n wake done) (hk : k < n) :
    (¬ cfg.Asleep (done k) ∧
      wake (k + 1) = analysisClose minLtf (done k) + minLtf * 60 * 1000 + candleBufferMs) ∨
    (cfg.Asleep (done k) ∧
      wake (k + 1) = done k + (cfg.secondsUntilReopen (done k) * 1000 + cfg.candleBufferMs)) := by
  obtain ⟨d, hd, hwake⟩ := hrun.wake_succ k hk
  unfold WeekendSettings.scheduleDelayMs at hd
  cases hsleep : cfg.weekendSleepDelayMs (done k) with
  | error e =>
      rw [hsleep] at hd
      cases hd
  | ok delay =>
      rw [hsleep] at hd
      obtain rfl := Except.ok.inj hd
      have hdelay := sleepDelay_eq hsleep
      by_cases hasleep : cfg.Asleep (done k)
      · rw [if_pos hasleep] at hdelay
        rw [hdelay] at hwake
        exact Or.inr ⟨hasleep, hwake⟩
      · rw [if_neg hasleep] at hdelay
        dsimp only at hwake
        rw [hdelay, Option.getD_none, add_msUntilNextBoundary] at hwake
        exact Or.inl ⟨hasleep, hwake⟩

/-- The reopening a sleeping tick wakes for. -/
theorem WeekRun.reopen_of_asleep (hrun : WeekRun cfg minLtf n wake done)
    (hbuffer : (cfg.candleBufferMs : ℤ) = candleBufferMs) (hk : k < n)
    (hasleep : cfg.Asleep (done k)) :
    ∃ t, IsLeast (cfg.ReopensAfter (done k)) t ∧ t + candleBufferMs ≤ wake (k + 1) ∧
      wake (k + 1) < t + candleBufferMs + 1000 := by
  rcases hrun.wake_cases hk with ⟨hawake, -⟩ | ⟨-, hwake⟩
  · exact absurd hasleep hawake
  · refine ⟨_, isLeast_reopensAfter cfg (done k), ?_, ?_⟩ <;> omega

/-- A boundary passed over after the end of a tick falls on the weekend. -/
theorem WeekRun.asleep_of_passed (hrun : WeekRun cfg minLtf n wake done)
    (hbuffer : (cfg.candleBufferMs : ℤ) = candleBufferMs) (h : 0 < minLtf) (hk : k < n)
    (hB : (minLtf * 60 * 1000 : ℤ) ∣ B) (hafter : done k < B)
    (hpassed : B < analysisClose minLtf (wake (k + 1))) : cfg.Asleep B := by
  have hgap : B + minLtf * 60 * 1000 ≤ analysisClose minLtf (wake (k + 1)) := by
    have hdvd := dvd_sub (analysisClose_dvd minLtf (wake (k + 1))) hB
    have hle := Int.le_of_dvd (by omega) hdvd
    omega
  have hclose := analysisClose_le h (wake (k + 1))
  rcases hrun.wake_cases hk with ⟨-, hwake⟩ | ⟨hasleep, -⟩
  · have hdvd := dvd_sub hB (analysisClose_dvd minLtf (done k))
    have hdone := analysisClose_le h (done k)
    have hle := Int.le_of_dvd (by omega) hdvd
    rw [candleBufferMs] at hwake
    omega
  · obtain ⟨t, ht, -, hlt⟩ := hrun.reopen_of_asleep hbuffer hk hasleep
    refine ⟨hasleep.1, closed_until_reopen hasleep.2 ht hafter.le ?_⟩
    rw [candleBufferMs] at hlt
    omega

/-- The last tick that is over before an instant. -/
theorem exists_done_around (hfirst : done 0 < t) (hlast : t ≤ done n) :
    ∃ k < n, done k < t ∧ t ≤ done (k + 1) := by
  classical
  have hex : ∃ k, t ≤ done k := ⟨n, hlast⟩
  obtain ⟨k, hk⟩ : ∃ k, Nat.find hex = k + 1 := by
    refine Nat.exists_eq_succ_of_ne_zero fun hzero => ?_
    have hspec := Nat.find_spec hex
    rw [hzero] at hspec
    omega
  have hle : k + 1 ≤ n := hk ▸ Nat.find_min' hex hlast
  refine ⟨k, hle, not_le.mp (Nat.find_min hex (by omega)), ?_⟩
  rw [← hk]
  exact Nat.find_spec hex

/-- The first wake-up after a weekend that is longer than a candle. -/
theorem WeekRun.wake_of_reopen (hrun : WeekRun cfg minLtf n wake done)
    (hbuffer : (cfg.candleBufferMs : ℤ) = candleBufferMs) (h : 0 < minLtf)
    (hclose : cfg.weekendClose.time.second = 0) (hreopen : cfg.weekendReopen.time.second = 0)
    (hon : cfg.weekendSleepEnabled = true)
    (hlong : minLtf * 60 * 1000 + candleBufferMs ≤ cfg.closedMs)
    (ht : cfg.weekPosition t = cfg.weekendReopen.secondsOfWeek * 1000) (hfirst : done 0 < t)
    (hlast : t ≤ done n) (hfree : ∀ k ≤ n, wake k < t → done k < t) :
    ∃ k ≤ n, t + candleBufferMs ≤ wake k ∧ wake k < t + candleBufferMs + 1000 ∧
      cfg.Starts (wake k) := by
  obtain ⟨k, hk, hbefore, hafter⟩ := exists_done_around hfirst hlast
  have hwake : t ≤ wake (k + 1) := by
    by_contra hlt
    exact absurd (hfree (k + 1) hk (not_le.mp hlt)) (not_lt.mpr hafter)
  rcases hrun.wake_cases hk with ⟨hawake, hnext⟩ | ⟨hasleep, hnext⟩
  · -- the boundary after the tick comes before the market closes
    exfalso
    have hopen : done k < t - cfg.closedMs := by
      by_contra hge
      exact hawake ⟨hon, closed_before_reopen ht (not_lt.mp hge) hbefore⟩
    have hdone := analysisClose_le h (done k)
    omega
  · obtain ⟨s, hs, hlo, hhi⟩ := hrun.reopen_of_asleep hbuffer hk hasleep
    have hst : s = t := by
      refine (hs.2 ⟨hbefore, ht⟩).eq_or_lt.resolve_right fun hlt => ?_
      have hweek := reopen_week hs.1.2 ht hlt
      rw [candleBufferMs] at hhi
      rw [weekMs] at hweek
      omega
    rw [hst] at hlo hhi
    refine ⟨k + 1, hk, hlo, hhi, ?_⟩
    obtain ⟨delay, hdelay⟩ := hrun.checked (k + 1) hk
    rw [starts_iff hdelay, hnext]
    rintro ⟨-, hclosed⟩
    refine not_marketClosed_wake cfg (done k) hclose hreopen ?_ hclosed
    rw [candleBufferMs] at hbuffer
    omega

/-- **The week of a symbol**: callbacks start in an open market only; a candle close passed over
    between two ticks falls on the weekend; and after a weekend longer than a candle that no
    callback outlasts, a callback starts within a second of the reopening and the buffer. -/
theorem weekRun_ticks (hbuffer : (cfg.candleBufferMs : ℤ) = candleBufferMs) (h : 0 < minLtf)
    (hclose : cfg.weekendClose.time.second = 0) (hreopen : cfg.weekendReopen.time.second = 0)
    (hrun : WeekRun cfg minLtf n wake done) :
    (∀ k ≤ n, cfg.Starts (wake k) → ¬ cfg.Asleep (wake k)) ∧
    (∀ k < n, ∀ B, (minLtf * 60 * 1000 : ℤ) ∣ B → done k < B →
      B < analysisClose minLtf (wake (k + 1)) → cfg.Asleep B) ∧
    (cfg.weekendSleepEnabled = true → minLtf * 60 * 1000 + candleBufferMs ≤ cfg.closedMs →
      ∀ t, cfg.weekPosition t = cfg.weekendReopen.secondsOfWeek * 1000 → done 0 < t →
        t ≤ done n → (∀ k ≤ n, wake k < t → done k < t) →
        ∃ k ≤ n, t + candleBufferMs ≤ wake k ∧ wake k < t + candleBufferMs + 1000 ∧
          cfg.Starts (wake k)) := by
  refine ⟨fun k hk hstarts => ?_, fun k hk B hB hafter hpassed => ?_, ?_⟩
  · obtain ⟨delay, hdelay⟩ := hrun.checked k hk
    exact (starts_iff hdelay).mp hstarts
  · exact hrun.asleep_of_passed hbuffer h hk hB hafter hpassed
  · exact fun hon hlong t ht hfirst hlast hfree =>
      hrun.wake_of_reopen hbuffer h hclose hreopen hon hlong ht hfirst hlast hfree

/-- Hourly candles: the last tick of Friday, one on Saturday 00:00 that is skipped, and the first
    of Monday. -/
def overWeekend : WeekendSettings := { weekendSample with candleBufferMs := 400 }

def weekendWakes : List ℤ := [1780689600400, 1780693200400, 1780869600800]

def weekendEnds : List ℤ := [1780689601400, 1780693200400, 1780869602000]

theorem weekRun_overWeekend :
    WeekRun overWeekend 60 2 (fun k => weekendWakes.getD k 0) fun k => weekendEnds.getD k 0 := by
  have hstarts : ∀ k ≤ 2, overWeekend.weekendSleepDelayMs (weekendWakes.getD k 0) =
      .ok (if k = 1 then some 176400400 else none) := by decide +kernel
  refine ⟨fun k hk => ⟨_, hstarts k hk⟩, fun k hk hskip => ?_, by decide +kernel,
    fun k hk => ?_⟩
  · have hone : k = 1 := by
      by_contra hne
      exact hskip ((hstarts k hk).trans (by rw [if_neg hne]))
    subst hone
    rfl
  · have hdelays : ∀ k < 2, overWeekend.scheduleDelayMs 60 (weekendEnds.getD k 0) =
        .ok (weekendWakes.getD (k + 1) 0 - weekendEnds.getD k 0) := by decide +kernel
    exact ⟨_, hdelays k hk, by ring⟩

/-- Monday 01:00 on the broker's clock. -/
theorem overWeekend_wakes :
    ∃ k ≤ 2, (1780869600000 : ℤ) + candleBufferMs ≤ weekendWakes.getD k 0 ∧
      weekendWakes.getD k 0 < 1780869600000 + candleBufferMs + 1000 ∧
      overWeekend.Starts (weekendWakes.getD k 0) :=
  (weekRun_ticks rfl (by decide) rfl rfl weekRun_overWeekend).2.2 rfl (by decide +kernel)
    1780869600000 (by decide +kernel) (by decide +kernel) (by decide +kernel) (by decide +kernel)

end SignalEngine
