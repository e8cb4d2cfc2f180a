/-
  MarketData: the clock of `infrastructure/data_providers/market_data.py`.

  Model. A call of `symbol_info_tick` and of `_now_ms` is an input of the method that makes it,
  and so is what the terminal answers to a request for rates. Symbols are taken as resolved.

  Proved: a broker clock `hours` away from UTC is read right exactly when the last tick is at
  most half an hour old (`roundOffset_eq_iff`), whence `clientCalls_right_iff` on every
  sequence of calls. A bad reading replaces the cached one.
-/
import SignalEngine.Domain.Entities
import SignalEngine.Lib.Table

namespace SignalEngine

open Lib

/-! ## Client -/

/-- The clock fields of an MT5 tick; zero means not set. -/
structure TickTime where
  timeMsc : ℤ
  time : ℤ
  deriving DecidableEq, Repr

def TickTime.ms (tick : TickTime) : ℤ :=
  if tick.timeMsc ≠ 0 then tick.timeMsc
  else if tick.time ≠ 0 then tick.time * 1000
  else 0

/-- A row of the rates MT5 returns; its `time` is in broker seconds. -/
structure Rate where
  time : ℤ
  openPrice : ℚ
  high : ℚ
  low : ℚ
  close : ℚ
  tickVolume : Option ℚ := none
  realVolume : Option ℚ := none
  deriving DecidableEq, Repr

/-- `_broker_time_offset_ms_by_symbol`. -/
structure MarketDataClient where
  offsets : List (String × ℤ) := []
  deriving DecidableEq, Repr

inductive MarketDataError where
  | noRates
  deriving DecidableEq, Repr

/-- `round(raw_offset / 3_600_000) * 3_600_000`. -/
def roundOffset (rawOffset : ℤ) : ℤ := pyRound ((rawOffset : ℚ) / msPerHour) * 3600000

/-- The last good offset, or 0. -/
def MarketDataClient.cachedOffset (c : MarketDataClient) (symbol : String) : ℤ :=
  ((lookup Prod.fst symbol c.offsets).map Prod.snd).getD 0

/-- `_broker_time_offset_ms`. -/
def MarketDataClient.brokerTimeOffsetMs (c : MarketDataClient) (symbol : String)
    (tick : Option TickTime) (systemMs : ℤ) : MarketDataClient × ℤ :=
  match tick with
  | none => (c, c.cachedOffset symbol)
  | some tick =>
      if tick.ms ≠ 0 then
        ({ c with
            offsets := put Prod.fst (symbol, roundOffset (tick.ms - systemMs)) c.offsets },
          roundOffset (tick.ms - systemMs))
      else (c, c.cachedOffset symbol)

/-- `now_ms`; the offset is estimated on a second tick, `again`. -/
def MarketDataClient.nowMs (c : MarketDataClient) (symbol : String)
    (tick again : Option TickTime) (systemMs : ℤ) : MarketDataClient × ℤ :=
  match tick with
  | none => (c, systemMs)
  | some tick =>
      if tick.ms ≠ 0 then
        let r := c.brokerTimeOffsetMs symbol again systemMs
        (r.1, tick.ms - r.2)
      else (c, systemMs)

def Rate.candle (brokerTimeOffset : ℤ) (row : Rate) : Candle where
  timestamp := row.time * 1000 - brokerTimeOffset
  openPrice := row.openPrice
  high := row.high
  low := row.low
  close := row.close
  volume := row.tickVolume.getD (row.realVolume.getD 0)

/-- `_parse_rates`. -/
def parseRates (rates : Option (List Rate)) (brokerTimeOffset : ℤ) :
    Except MarketDataError (List Candle) :=
  match rates with
  | none => .error .noRates
  | some rates =>
      .ok ((rates.map (Rate.candle brokerTimeOffset)).insertionSort
        (fun a b => a.timestamp ≤ b.timestamp))

/-- `fetch_candles`. -/
def MarketDataClient.fetchCandles (c : MarketDataClient) (symbol : String)
    (tick : Option TickTime) (systemMs : ℤ) (rates : Option (List Rate)) :
    MarketDataClient × Except MarketDataError (List Candle) :=
  let r := c.brokerTimeOffsetMs symbol tick systemMs
  (r.1, parseRates rates r.2)

/-- `fetch_candles_range`; the terminal answers a request in broker time. -/
def MarketDataClient.fetchCandlesRange (c : MarketDataClient) (symbol : String)
    (tick : Option TickTime) (systemMs : ℤ) (startTs : ℤ) (endTs : Option ℤ)
    (rates : ℤ → ℤ → Option (List Rate)) :
    MarketDataClient × Except MarketDataError (List Candle) :=
  let r := c.brokerTimeOffsetMs symbol tick systemMs
  let endTs := pyOr endTs systemMs
  (r.1, parseRates (rates (startTs + r.2) (endTs + r.2)) r.2)

/-! ## The estimated offset -/

theorem pyRound_le_floor_add_one (q : ℚ) : pyRound q ≤ ⌊q⌋ + 1 := by
  unfold pyRound roundEven
  dsimp only
  split
  · omega
  split
  · omega
  split <;> omega

/-- Rounding `n - a` gives `n` back up to a half, and at the half when `n` is even. -/
theorem pyRound_sub_eq_iff (n : ℤ) {a : ℚ} (ha : 0 ≤ a) :
    pyRound (n - a) = n ↔ a < 1 / 2 ∨ (a = 1 / 2 ∧ Even n) := by
  rcases ha.eq_or_lt with rfl | hpos
  · have hfloor : ⌊(n : ℚ) - 0⌋ = n := by rw [sub_zero, Int.floor_intCast]
    unfold pyRound roundEven
    dsimp only
    rw [hfloor, sub_zero, sub_self, if_pos (by norm_num)]
    exact ⟨fun _ => Or.inl (by norm_num), fun _ => rfl⟩
  by_cases hle : a ≤ 1
  · have hfloor : ⌊(n : ℚ) - a⌋ = n - 1 := by
      rw [Int.floor_eq_iff]
      push_cast
      constructor <;> linarith
    have hfrac : (n : ℚ) - a - ((n - 1 : ℤ) : ℚ) = 1 - a := by
      push_cast
      ring
    unfold pyRound roundEven
    dsimp only
    rw [hfloor, hfrac]
    rcases lt_trichotomy a (1 / 2) with hlt | rfl | hgt
    · rw [if_neg (by linarith), if_pos (by linarith)]
      exact ⟨fun _ => Or.inl hlt, fun _ => by omega⟩
    · rw [if_neg (by norm_num), if_neg (by norm_num)]
      constructor
      · intro h
        refine Or.inr ⟨rfl, ?_⟩
        split at h
        · omega
        · next hodd =>
            rw [Int.even_iff]
            omega
      · rintro (h | ⟨-, heven⟩)
        · exact absurd h (lt_irrefl _)
        · rw [Int.even_iff] at heven
          rw [if_neg (by omega)]
          omega
    · rw [if_pos (by linarith)]
      constructor
      · intro h
        omega
      · rintro (h | ⟨h, -⟩)
        · exact absurd h (not_lt.mpr hgt.le)
        · exact absurd h hgt.ne'
  · have hfloor : ⌊(n : ℚ) - a⌋ < n - 1 := by
      rw [Int.floor_lt]
      push_cast
      linarith
    have hround := pyRound_le_floor_add_one ((n : ℚ) - a)
    constructor
    · intro h
      omega
    · rintro (h | ⟨h, -⟩)
      · linarith
      · linarith

/-- The last tick, at `tickUtc`, is young enough at `systemMs` for the offset to round back. -/
def TickFresh (hours tickUtc systemMs : ℤ) : Prop :=
  systemMs - tickUtc < 1800000 ∨ (systemMs - tickUtc = 1800000 ∧ Even hours)

instance (hours tickUtc systemMs : ℤ) : Decidable (TickFresh hours tickUtc systemMs) :=
  inferInstanceAs (Decidable (_ ∨ (_ ∧ _)))

theorem roundOffset_eq_iff (hours : ℤ) {tickUtc systemMs : ℤ} (hle : tickUtc ≤ systemMs) :
    roundOffset (tickUtc + hours * 3600000 - systemMs) = hours * 3600000 ↔
      TickFresh hours tickUtc systemMs := by
  have hsplit : ((tickUtc + hours * 3600000 - systemMs : ℤ) : ℚ) / msPerHour =
      hours - ((systemMs - tickUtc : ℤ) : ℚ) / 3600000 := by
    rw [msPerHour]
    push_cast
    ring
  have hage : (0 : ℚ) ≤ ((systemMs - tickUtc : ℤ) : ℚ) / 3600000 := by
    have : (0 : ℤ) ≤ systemMs - tickUtc := by omega
    positivity
  have hlt : ((systemMs - tickUtc : ℤ) : ℚ) / 3600000 < 1 / 2 ↔ systemMs - tickUtc < 1800000 := by
    rw [div_lt_div_iff₀ (by norm_num) (by norm_num)]
    constructor
    · intro h
      have : (systemMs - tickUtc) * 2 < 1 * 3600000 := by exact_mod_cast h
      omega
    · intro h
      have : (systemMs - tickUtc) * 2 < 1 * 3600000 := by omega
      exact_mod_cast this
  have heq : ((systemMs - tickUtc : ℤ) : ℚ) / 3600000 = 1 / 2 ↔ systemMs - tickUtc = 1800000 := by
    rw [div_eq_div_iff (by norm_num) (by norm_num)]
    constructor
    · intro h
      have : (systemMs - tickUtc) * 2 = 1 * 3600000 := by exact_mod_cast h
      omega
    · intro h
      have : (systemMs - tickUtc) * 2 = 1 * 3600000 := by omega
      exact_mod_cast this
  rw [TickFresh, ← hlt, ← heq, ← pyRound_sub_eq_iff hours hage, roundOffset, hsplit]
  constructor
  · intro h
    omega
  · intro h
    rw [h]

/-! ## Sequences of calls -/

/-- What the terminal and the system show at one moment: the last tick, at its true UTC time. -/
structure Reading (hours : ℤ) where
  tickUtc : ℤ
  systemMs : ℤ
  time : ℤ
  tick_le : tickUtc ≤ systemMs
  isSet : tickUtc + hours * 3600000 ≠ 0

/-- The tick as a broker that is `hours` away from UTC stamps it. -/
def Reading.tick {hours : ℤ} (r : Reading hours) : TickTime :=
  ⟨r.tickUtc + hours * 3600000, r.time⟩

/-- A call of the client, with the moments it reads the clocks at. -/
inductive ClientCall (hours : ℤ) where
  | brokerTimeOffsetMs (symbol : String) (r : Reading hours)
  | nowMs (symbol : String) (first r : Reading hours) (ordered : first.systemMs ≤ r.systemMs)
  | fetchCandles (symbol : String) (r : Reading hours) (rates : Option (List Rate))
  | fetchCandlesRange (symbol : String) (r : Reading hours) (startTs : ℤ) (endTs : Option ℤ)
      (rates : ℤ → ℤ → Option (List Rate))

variable {hours : ℤ}

/-- The moment the offset is estimated at. -/
def ClientCall.reading : ClientCall hours → Reading hours
  | .brokerTimeOffsetMs _ r | .nowMs _ _ r _ | .fetchCandles _ r _ | .fetchCandlesRange _ r _ _ _ => r

def ClientCall.symbol : ClientCall hours → String
  | .brokerTimeOffsetMs symbol _ | .nowMs symbol _ _ _ | .fetchCandles symbol _ _
  | .fetchCandlesRange symbol _ _ _ _ => symbol

/-- The client after a call. -/
def ClientCall.run (c : MarketDataClient) : ClientCall hours → MarketDataClient
  | .brokerTimeOffsetMs symbol r => (c.brokerTimeOffsetMs symbol (some r.tick) r.systemMs).1
  | .nowMs symbol first r _ => (c.nowMs symbol (some first.tick) (some r.tick) r.systemMs).1
  | .fetchCandles symbol r rates => (c.fetchCandles symbol (some r.tick) r.systemMs rates).1
  | .fetchCandlesRange symbol r startTs endTs rates =>
      (c.fetchCandlesRange symbol (some r.tick) r.systemMs startTs endTs rates).1

def clientAfter (calls : List (ClientCall hours)) : MarketDataClient :=
  calls.foldl ClientCall.run {}

/-- The call's offset is the true one, its time is not ahead of the system's, and its candles
    are stamped with the UTC times their rates stand for. -/
def ClientCall.Right (c : MarketDataClient) (call : ClientCall hours) : Prop :=
  (c.brokerTimeOffsetMs call.symbol (some call.reading.tick) call.reading.systemMs).2 =
      hours * 3600000 ∧
    match call with
    | .brokerTimeOffsetMs _ _ => True
    | .nowMs symbol first r _ =>
        (c.nowMs symbol (some first.tick) (some r.tick) r.systemMs).2 ≤ r.systemMs
    | .fetchCandles symbol r rates =>
        (c.fetchCandles symbol (some r.tick) r.systemMs rates).2 =
          parseRates rates (hours * 3600000)
    | .fetchCandlesRange symbol r startTs endTs rates =>
        (c.fetchCandlesRange symbol (some r.tick) r.systemMs startTs endTs rates).2 =
          parseRates (rates (startTs + hours * 3600000)
            (pyOr endTs r.systemMs + hours * 3600000)) (hours * 3600000)

/-- The tick read at the moment is fresh. -/
def Reading.Fresh (r : Reading hours) : Prop := TickFresh hours r.tickUtc r.systemMs

theorem Reading.tick_ms (r : Reading hours) : r.tick.ms = r.tickUtc + hours * 3600000 :=
  if_pos r.isSet

theorem Reading.tick_ms_ne (r : Reading hours) : r.tick.ms ≠ 0 := by
  rw [r.tick_ms]
  exact r.isSet

/-- With a tick at hand the cache is not read. -/
theorem brokerTimeOffsetMs_reading (c : MarketDataClient) (symbol : String) (r : Reading hours) :
    (c.brokerTimeOffsetMs symbol (some r.tick) r.systemMs).2 =
      roundOffset (r.tickUtc + hours * 3600000 - r.systemMs) := by
  unfold MarketDataClient.brokerTimeOffsetMs
  dsimp only
  rw [if_pos r.tick_ms_ne, r.tick_ms]

theorem nowMs_reading (c : MarketDataClient) (symbol : String) (first r : Reading hours) :
    (c.nowMs symbol (some first.tick) (some r.tick) r.systemMs).2 =
      first.tickUtc + hours * 3600000 -
        (c.brokerTimeOffsetMs symbol (some r.tick) r.systemMs).2 := by
  unfold MarketDataClient.nowMs
  dsimp only
  rw [if_pos first.tick_ms_ne, first.tick_ms]

/-- A call is right exactly when it reads a fresh tick, whatever the client has cached. -/
theorem ClientCall.right_iff (c : MarketDataClient) (call : ClientCall hours) :
    call.Right c ↔ call.reading.Fresh := by
  rw [Reading.Fresh, ← roundOffset_eq_iff hours call.reading.tick_le,
    ← brokerTimeOffsetMs_reading c call.symbol]
  refine ⟨fun h => h.1, fun h => ⟨h, ?_⟩⟩
  cases call with
  | brokerTimeOffsetMs symbol r => trivial
  | nowMs symbol first r ordered =>
      have hoffset : (c.brokerTimeOffsetMs symbol (some r.tick) r.systemMs).2 =
          hours * 3600000 := h
      have htick := first.tick_le
      show (c.nowMs symbol _ _ _).2 ≤ _
      rw [nowMs_reading, hoffset]
      omega
  | fetchCandles symbol r rates =>
      have hoffset : (c.brokerTimeOffsetMs symbol (some r.tick) r.systemMs).2 =
          hours * 3600000 := h
      show parseRates _ (c.brokerTimeOffsetMs symbol (some r.tick) r.systemMs).2 = _
      rw [hoffset]
  | fetchCandlesRange symbol r startTs endTs rates =>
      have hoffset : (c.brokerTimeOffsetMs symbol (some r.tick) r.systemMs).2 =
          hours * 3600000 := h
      show parseRates
        (rates (startTs + (c.brokerTimeOffsetMs symbol (some r.tick) r.systemMs).2)
          (pyOr endTs r.systemMs + (c.brokerTimeOffsetMs symbol (some r.tick) r.systemMs).2))
        (c.brokerTimeOffsetMs symbol (some r.tick) r.systemMs).2 = _
      rw [hoffset]

/-- **When the client reads the broker's clock right**: in every sequence of calls, exactly when
    the last tick is fresh at each of them. -/
theorem clientCalls_right_iff (calls : List (ClientCall hours)) :
    (∀ n, (hn : n < calls.length) → calls[n].Right (clientAfter (calls.take n))) ↔
      ∀ call ∈ calls, call.reading.Fresh := by
  constructor
  · intro h call hcall
    obtain ⟨n, hn, rfl⟩ := List.getElem_of_mem hcall
    exact (ClientCall.right_iff _ _).mp (h n hn)
  · intro h n hn
    exact (ClientCall.right_iff _ _).mpr (h _ (List.getElem_mem hn))

/-- A quarter past two, on a broker clock two hours ahead, with the last tick at 13:30 UTC. -/
def staleReading : Reading 2 := ⟨48600000, 51300000, 55800, by decide, by decide⟩

/-- The client takes the broker to be one hour ahead, and the time to be 14:30. -/
theorem stale_tick_misread :
    ¬ ∀ (hours : ℤ) (calls : List (ClientCall hours)) (n : ℕ) (hn : n < calls.length),
      calls[n].Right (clientAfter (calls.take n)) := by
  intro h
  have hlate : (MarketDataClient.nowMs {} "XAUUSD" (some staleReading.tick)
      (some staleReading.tick) staleReading.systemMs).2 ≤ staleReading.systemMs :=
    (h 2 [.nowMs "XAUUSD" staleReading staleReading le_rfl] 0 (by decide)).2
  revert hlate
  decide +kernel

end SignalEngine
