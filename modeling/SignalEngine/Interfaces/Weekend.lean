/-
  Weekend: how long the scheduler sleeps while the market is closed.

  Model. A week is a week of the broker's clock and starts on Monday. `fromtimestamp` gives the
  calendar fields of an instant to the second, and raises outside the years of `datetime`; the
  first day of the epoch is a Thursday. `weekPosition` is the time since the start of the week
  in milliseconds, `MarketClosed` the cyclic interval from the close to the reopening.

  Proved: `weekendSleepDelayMs_spec`. The scheduler sleeps exactly in a closed market, wakes in
  the second after the first reopening there is (and the buffer), and finds the market open.
-/
import SignalEngine.Persistence.ClosedColumns

namespace SignalEngine

/-! ## Settings -/

/-- `datetime.time`, without its microseconds. -/
structure DayTime where
  hour : ℕ
  minute : ℕ
  second : ℕ
  hour_lt : hour < 24
  minute_lt : minute < 60
  second_lt : second < 60
  deriving DecidableEq

/-- A weekday, Monday first, and a time. -/
structure WeekTime where
  weekday : ℕ
  time : DayTime
  weekday_lt : weekday < 7
  deriving DecidableEq

/-- The fields of the settings that are read; the buffer is a waiting time. -/
structure WeekendSettings where
  brokerTimeOffsetMs : ℤ
  candleBufferMs : ℕ
  weekendSleepEnabled : Bool
  weekendClose : WeekTime
  weekendReopen : WeekTime

/-- `fromtimestamp` of a time that `datetime` does not have. -/
inductive ClockError where
  | timestampOutOfRange
  deriving DecidableEq, Repr

/-! ## The delay -/

/-- `weekday() * 86_400 + hour * 3_600 + minute * 60 + second`. -/
def secondsOfWeek (weekday hour minute second : ℤ) : ℤ :=
  weekday * 86400 + hour * 3600 + minute * 60 + second

/-- `_broker_seconds_of_week`. -/
def WeekendSettings.brokerSecondsOfWeek (cfg : WeekendSettings) (nowMs : ℤ) :
    Except ClockError ℤ :=
  let brokerMs := nowMs + cfg.brokerTimeOffsetMs
  if IsDatetime brokerMs then
    let brokerS := brokerMs / 1000
    .ok (secondsOfWeek ((brokerS / 86400 + 3) % 7) (brokerS % 86400 / 3600)
      (brokerS % 3600 / 60) (brokerS % 60))
  else .error .timestampOutOfRange

/-- `_configured_seconds_of_week`. -/
def WeekTime.secondsOfWeek (t : WeekTime) : ℤ :=
  SignalEngine.secondsOfWeek t.weekday t.time.hour t.time.minute t.time.second

/-- `_weekend_sleep_delay_ms`. -/
def WeekendSettings.weekendSleepDelayMs (cfg : WeekendSettings) (nowMs : ℤ) :
    Except ClockError (Option ℤ) :=
  if cfg.weekendSleepEnabled then
    let weekS : ℤ := 7 * 86400
    match cfg.brokerSecondsOfWeek nowMs with
    | .error e => .error e
    | .ok nowS =>
        let closeS := cfg.weekendClose.secondsOfWeek
        let reopenS := cfg.weekendReopen.secondsOfWeek
        if closeS = reopenS then .ok none
        else if closeS < reopenS then
          if closeS ≤ nowS ∧ nowS < reopenS then
            .ok (some ((reopenS - nowS) * 1000 + cfg.candleBufferMs))
          else .ok none
        else
          if closeS ≤ nowS ∨ nowS < reopenS then
            .ok (some ((if nowS < reopenS then reopenS - nowS else weekS - nowS + reopenS) * 1000
              + cfg.candleBufferMs))
          else .ok none
  else .ok none

/-! ## The week -/

/-- The milliseconds of a week. -/
def weekMs : ℤ := 7 * 86400 * 1000

/-- The time since the broker's Monday 00:00. -/
def WeekendSettings.weekPosition (cfg : WeekendSettings) (nowMs : ℤ) : ℤ :=
  (nowMs + cfg.brokerTimeOffsetMs + 3 * 86400 * 1000) % weekMs

/-- From the close on, and before the reopening comes round. -/
def WeekendSettings.MarketClosed (cfg : WeekendSettings) (nowMs : ℤ) : Prop :=
  (cfg.weekPosition nowMs - cfg.weekendClose.secondsOfWeek * 1000) % weekMs <
    (cfg.weekendReopen.secondsOfWeek * 1000 - cfg.weekendClose.secondsOfWeek * 1000) % weekMs

instance (cfg : WeekendSettings) (nowMs : ℤ) : Decidable (cfg.MarketClosed nowMs) :=
  inferInstanceAs (Decidable (_ < _))

/-- The instants after `nowMs` at which the market opens. -/
def WeekendSettings.ReopensAfter (cfg : WeekendSettings) (nowMs : ℤ) : Set ℤ :=
  {t | nowMs < t ∧ cfg.weekPosition t = cfg.weekendReopen.secondsOfWeek * 1000}

variable {cfg : WeekendSettings} {nowMs : ℤ}

theorem WeekTime.secondsOfWeek_nonneg (t : WeekTime) : 0 ≤ t.secondsOfWeek := by
  unfold WeekTime.secondsOfWeek SignalEngine.secondsOfWeek
  omega

theorem WeekTime.secondsOfWeek_lt (t : WeekTime) : t.secondsOfWeek < 7 * 86400 := by
  have hday := t.weekday_lt
  have hhour := t.time.hour_lt
  have hminute := t.time.minute_lt
  have hsecond := t.time.second_lt
  unfold WeekTime.secondsOfWeek SignalEngine.secondsOfWeek
  omega

/-- A time without seconds is a whole number of minutes. -/
theorem WeekTime.secondsOfWeek_dvd {t : WeekTime} (h : t.time.second = 0) :
    t.secondsOfWeek % 60 = 0 := by
  unfold WeekTime.secondsOfWeek SignalEngine.secondsOfWeek
  omega

/-- The calendar fields count the seconds of the week. -/
theorem secondsOfWeek_fields (brokerS : ℤ) :
    secondsOfWeek ((brokerS / 86400 + 3) % 7) (brokerS % 86400 / 3600) (brokerS % 3600 / 60)
      (brokerS % 60) = (brokerS + 3 * 86400) % (7 * 86400) := by
  unfold secondsOfWeek
  omega

theorem brokerSecondsOfWeek_eq (hclock : IsDatetime (nowMs + cfg.brokerTimeOffsetMs)) :
    cfg.brokerSecondsOfWeek nowMs = .ok (cfg.weekPosition nowMs / 1000) := by
  unfold WeekendSettings.brokerSecondsOfWeek WeekendSettings.weekPosition weekMs
  dsimp only
  rw [if_pos hclock, secondsOfWeek_fields]
  congr 1
  omega

theorem weekPosition_nonneg (cfg : WeekendSettings) (nowMs : ℤ) : 0 ≤ cfg.weekPosition nowMs :=
  Int.emod_nonneg _ (by decide)

theorem weekPosition_lt (cfg : WeekendSettings) (nowMs : ℤ) :
    cfg.weekPosition nowMs < 7 * 86400 * 1000 :=
  Int.emod_lt_of_pos _ (by decide)

/-- The market is closed on the two sides of the reopening that the code tells apart. -/
theorem marketClosed_iff :
    cfg.MarketClosed nowMs ↔
      cfg.weekendClose.secondsOfWeek ≠ cfg.weekendReopen.secondsOfWeek ∧
      if cfg.weekendClose.secondsOfWeek < cfg.weekendReopen.secondsOfWeek then
        cfg.weekendClose.secondsOfWeek ≤ cfg.weekPosition nowMs / 1000 ∧
          cfg.weekPosition nowMs / 1000 < cfg.weekendReopen.secondsOfWeek
      else
        cfg.weekendClose.secondsOfWeek ≤ cfg.weekPosition nowMs / 1000 ∨
          cfg.weekPosition nowMs / 1000 < cfg.weekendReopen.secondsOfWeek := by
  have hc := cfg.weekendClose.secondsOfWeek_lt
  have hc0 := cfg.weekendClose.secondsOfWeek_nonneg
  have hr := cfg.weekendReopen.secondsOfWeek_lt
  have hr0 := cfg.weekendReopen.secondsOfWeek_nonneg
  have hp := weekPosition_lt cfg nowMs
  have hp0 := weekPosition_nonneg cfg nowMs
  unfold WeekendSettings.MarketClosed weekMs
  generalize cfg.weekPosition nowMs = p at *
  generalize cfg.weekendClose.secondsOfWeek = c at *
  generalize cfg.weekendReopen.secondsOfWeek = r at *
  split_ifs <;> omega

/-- The seconds to the reopening, from the whole second `nowMs` is in. -/
def WeekendSettings.secondsUntilReopen (cfg : WeekendSettings) (nowMs : ℤ) : ℤ :=
  let nowS := cfg.weekPosition nowMs / 1000
  let reopenS := cfg.weekendReopen.secondsOfWeek
  if nowS < reopenS then reopenS - nowS else 7 * 86400 - nowS + reopenS

/-- The scheduler sleeps in a closed market, to the reopening. -/
theorem weekendSleepDelayMs_eq (hclock : IsDatetime (nowMs + cfg.brokerTimeOffsetMs)) :
    cfg.weekendSleepDelayMs nowMs =
      .ok (if cfg.weekendSleepEnabled = true ∧ cfg.MarketClosed nowMs then
        some (cfg.secondsUntilReopen nowMs * 1000 + cfg.candleBufferMs)
      else none) := by
  unfold WeekendSettings.weekendSleepDelayMs
  cases cfg.weekendSleepEnabled with
  | false => simp
  | true =>
      rw [if_pos rfl, brokerSecondsOfWeek_eq hclock]
      dsimp only
      simp only [true_and, marketClosed_iff]
      by_cases heq : cfg.weekendClose.secondsOfWeek = cfg.weekendReopen.secondsOfWeek
      · simp [heq]
      · rw [if_neg heq]
        simp only [ne_eq, heq, not_false_eq_true, true_and]
        unfold WeekendSettings.secondsUntilReopen
        dsimp only
        split_ifs <;> first | omega | rfl

/-! ## The reopening -/

theorem secondsUntilReopen_eq (cfg : WeekendSettings) (nowMs : ℤ) : cfg.secondsUntilReopen nowMs =
    if cfg.weekPosition nowMs / 1000 < cfg.weekendReopen.secondsOfWeek then
      cfg.weekendReopen.secondsOfWeek - cfg.weekPosition nowMs / 1000
    else 7 * 86400 - cfg.weekPosition nowMs / 1000 + cfg.weekendReopen.secondsOfWeek := rfl

theorem secondsUntilReopen_bounds (cfg : WeekendSettings) (nowMs : ℤ) :
    1 ≤ cfg.secondsUntilReopen nowMs ∧ cfg.secondsUntilReopen nowMs ≤ 7 * 86400 := by
  have hr := cfg.weekendReopen.secondsOfWeek_lt
  have hr0 := cfg.weekendReopen.secondsOfWeek_nonneg
  have hp := weekPosition_lt cfg nowMs
  have hp0 := weekPosition_nonneg cfg nowMs
  rw [secondsUntilReopen_eq]
  split_ifs <;> omega

/-- The first reopening comes before the end of the second it is counted from. -/
theorem isLeast_reopensAfter (cfg : WeekendSettings) (nowMs : ℤ) :
    IsLeast (cfg.ReopensAfter nowMs)
      (nowMs + cfg.secondsUntilReopen nowMs * 1000 - cfg.weekPosition nowMs % 1000) := by
  have hr := cfg.weekendReopen.secondsOfWeek_lt
  have hr0 := cfg.weekendReopen.secondsOfWeek_nonneg
  have hbounds := secondsUntilReopen_bounds cfg nowMs
  have hsecs := secondsUntilReopen_eq cfg nowMs
  generalize cfg.secondsUntilReopen nowMs = secs at *
  unfold WeekendSettings.ReopensAfter WeekendSettings.weekPosition weekMs at *
  generalize cfg.weekendReopen.secondsOfWeek = r at *
  refine ⟨⟨by omega, ?_⟩, ?_⟩
  · split_ifs at hsecs <;> omega
  · rintro t ⟨hlt, hpos⟩
    split_ifs at hsecs <;> omega

/-- The time of the week at the wake-up: the reopening, the part of the second and the buffer. -/
theorem weekPosition_wake (cfg : WeekendSettings) (nowMs : ℤ)
    (hminute : cfg.weekendReopen.time.second = 0) (hbuffer : cfg.candleBufferMs < 59000) :
    cfg.weekPosition (nowMs + (cfg.secondsUntilReopen nowMs * 1000 + cfg.candleBufferMs)) =
      cfg.weekendReopen.secondsOfWeek * 1000 + cfg.weekPosition nowMs % 1000
        + cfg.candleBufferMs := by
  have hr := cfg.weekendReopen.secondsOfWeek_lt
  have hr0 := cfg.weekendReopen.secondsOfWeek_nonneg
  have hdvd := WeekTime.secondsOfWeek_dvd hminute
  have hsecs := secondsUntilReopen_eq cfg nowMs
  generalize cfg.secondsUntilReopen nowMs = secs at *
  unfold WeekendSettings.weekPosition weekMs at *
  generalize cfg.weekendReopen.secondsOfWeek = r at *
  split_ifs at hsecs <;> omega

/-- The market is open at the wake-up. -/
theorem not_marketClosed_wake (cfg : WeekendSettings) (nowMs : ℤ)
    (hclose : cfg.weekendClose.time.second = 0) (hreopen : cfg.weekendReopen.time.second = 0)
    (hbuffer : cfg.candleBufferMs < 59000) :
    ¬ cfg.MarketClosed
      (nowMs + (cfg.secondsUntilReopen nowMs * 1000 + cfg.candleBufferMs)) := by
  have hwake := weekPosition_wake cfg nowMs hreopen hbuffer
  have hc := WeekTime.secondsOfWeek_dvd hclose
  have hr := WeekTime.secondsOfWeek_dvd hreopen
  rw [marketClosed_iff, hwake]
  split_ifs <;> omega

/-- It returns unless it asks for the fields of an instant that `datetime` does not have. -/
theorem weekendSleepDelayMs_returns_iff (cfg : WeekendSettings) (nowMs : ℤ) :
    (∃ delay, cfg.weekendSleepDelayMs nowMs = .ok delay) ↔
      cfg.weekendSleepEnabled = false ∨ IsDatetime (nowMs + cfg.brokerTimeOffsetMs) := by
  by_cases hclock : IsDatetime (nowMs + cfg.brokerTimeOffsetMs)
  · exact iff_of_true ⟨_, weekendSleepDelayMs_eq hclock⟩ (Or.inr hclock)
  · unfold WeekendSettings.weekendSleepDelayMs
    cases cfg.weekendSleepEnabled with
    | false => exact iff_of_true ⟨none, rfl⟩ (Or.inl rfl)
    | true => simp [WeekendSettings.brokerSecondsOfWeek, hclock]

/-- **The weekend sleep**: what is returned is `none` exactly in an open market, else up to the
    first reopening. -/
theorem weekendSleepDelayMs_spec (cfg : WeekendSettings) (nowMs : ℤ)
    (hclose : cfg.weekendClose.time.second = 0) (hreopen : cfg.weekendReopen.time.second = 0)
    (hbuffer : cfg.candleBufferMs < 59000) :
    ((∃ delay, cfg.weekendSleepDelayMs nowMs = .ok delay) ↔
      cfg.weekendSleepEnabled = false ∨ IsDatetime (nowMs + cfg.brokerTimeOffsetMs)) ∧
    ∀ delay, cfg.weekendSleepDelayMs nowMs = .ok delay →
      (delay = none ↔ cfg.weekendSleepEnabled = false ∨
        cfg.weekendClose.secondsOfWeek = cfg.weekendReopen.secondsOfWeek ∨
        ¬ cfg.MarketClosed nowMs) ∧
      ∀ d, delay = some d →
        (∃ t, IsLeast (cfg.ReopensAfter nowMs) t ∧ t + cfg.candleBufferMs ≤ nowMs + d ∧
          nowMs + d < t + cfg.candleBufferMs + 1000) ∧
        d ≤ weekMs + cfg.candleBufferMs ∧
        (IsDatetime (nowMs + d + cfg.brokerTimeOffsetMs) →
          cfg.weekendSleepDelayMs (nowMs + d) = .ok none) := by
  refine ⟨weekendSleepDelayMs_returns_iff cfg nowMs, fun delay hdelay => ?_⟩
  by_cases hon : cfg.weekendSleepEnabled = true
  swap
  · have hoff : cfg.weekendSleepDelayMs nowMs = .ok none := if_neg hon
    cases hoff.symm.trans hdelay
    exact ⟨iff_of_true rfl (Or.inl (Bool.eq_false_iff.mpr hon)), fun d hd => by cases hd⟩
  have hclock := ((weekendSleepDelayMs_returns_iff cfg nowMs).mp ⟨delay, hdelay⟩).resolve_left
    (by rw [hon]; decide)
  cases (weekendSleepDelayMs_eq hclock).symm.trans hdelay
  refine ⟨?_, fun d hd => ?_⟩
  · have hdistinct : cfg.MarketClosed nowMs →
        cfg.weekendClose.secondsOfWeek ≠ cfg.weekendReopen.secondsOfWeek := fun h =>
      (marketClosed_iff.mp h).1
    rw [ite_eq_right_iff]
    simp only [reduceCtorEq, imp_false, not_and_or, Bool.not_eq_true]
    exact or_congr_right ⟨Or.inr, fun h => h.elim (fun heq hclosed => hdistinct hclosed heq) id⟩
  · split_ifs at hd with hsleep
    cases hd
    have hbounds := secondsUntilReopen_bounds cfg nowMs
    refine ⟨⟨_, isLeast_reopensAfter cfg nowMs, by omega, by omega⟩, ?_, fun hwake => ?_⟩
    · unfold weekMs
      omega
    · rw [weekendSleepDelayMs_eq hwake, if_neg]
      exact fun h => not_marketClosed_wake cfg nowMs hclose hreopen hbuffer h.2

/-- From Saturday 00:00 to Monday 01:00, on a clock three hours ahead. -/
def weekendSample : WeekendSettings where
  brokerTimeOffsetMs := 10800000
  candleBufferMs := 1500
  weekendSleepEnabled := true
  weekendClose := ⟨5, ⟨0, 0, 0, by decide, by decide, by decide⟩, by decide⟩
  weekendReopen := ⟨0, ⟨1, 0, 0, by decide, by decide, by decide⟩, by decide⟩

/-- Saturday 2026-06-06, 12:00 UTC. -/
theorem weekendSleepDelayMs_saturday :
    (∃ delay, weekendSample.weekendSleepDelayMs 1780747200000 = .ok delay) ∧
    ∀ delay, weekendSample.weekendSleepDelayMs 1780747200000 = .ok delay →
      (delay = none ↔ weekendSample.weekendSleepEnabled = false ∨
        weekendSample.weekendClose.secondsOfWeek = weekendSample.weekendReopen.secondsOfWeek ∨
        ¬ weekendSample.MarketClosed 1780747200000) ∧
      ∀ d, delay = some d →
        (∃ t, IsLeast (weekendSample.ReopensAfter 1780747200000) t ∧ t + 1500 ≤ 1780747200000 + d ∧
          1780747200000 + d < t + 1500 + 1000) ∧
        d ≤ weekMs + 1500 ∧
        (IsDatetime (1780747200000 + d + 10800000) →
          weekendSample.weekendSleepDelayMs (1780747200000 + d) = .ok none) := by
  have hspec := weekendSleepDelayMs_spec weekendSample 1780747200000 rfl rfl (by decide)
  exact ⟨hspec.1.mpr (Or.inr (by decide)), hspec.2⟩

example : weekendSample.weekendSleepDelayMs 1780747200000 = .ok (some (34 * 3600000 + 1500)) := by
  decide +kernel

end SignalEngine
