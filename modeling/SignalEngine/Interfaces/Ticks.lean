/-
  Ticks: which boundary a scheduled tick analyses.

  Model. `wake k` and `done k` are when the callback of tick `k` starts and ends, on an exact
  clock and in an open market; `_on_done` then sleeps until the next boundary. A tick analyses
  the boundary below the time it is given: the clock's, or for `_on_candle_close` the one
  `now_ms` takes from the last market tick.

  Proved: `ltfCloses_met_iff`, when no close of a pair's LTF is passed over, and
  `firedAt_eq_iff`, when the boundary analysed is the one the tick was scheduled for.
-/
import SignalEngine.Config.Settings
import SignalEngine.Infrastructure.MarketData

namespace SignalEngine

/-! ## Boundaries -/

/-- `candle_buffer_ms`, the constant `_CANDLE_BUFFER_MS`. -/
def candleBufferMs : ℤ := 400

/-- `min(interval_to_minutes(ltf) for _, ltf in tf_pairs)`, which raises on no pairs. -/
def Settings.minLtf (cfg : Settings) : Option ℕ :=
  (cfg.tfPairs.map (fun pair => intervalToMinutes pair.2)).min?

/-- `_ms_until_next_boundary`. -/
def msUntilNextBoundary (intervalMinutes : ℕ) (nowMs : ℤ) : ℤ :=
  let nowS := nowMs / 1000
  let ivS : ℤ := intervalMinutes * 60
  let nextS := (nowS / ivS + 1) * ivS
  (nextS * 1000 - nowMs) + candleBufferMs

/-- `analysis_close` of `_on_candle_close`. -/
def analysisClose (minLtf : ℕ) (nowMs : ℤ) : ℤ :=
  let ltfMs : ℤ := minLtf * 60 * 1000
  nowMs / ltfMs * ltfMs

/-- The ticks of a scheduler: each sleeps until the boundary after the last one's end, and ends
    before the wake-up of the boundary after its own. -/
structure TickRun (minLtf : ℕ) (wake done : ℕ → ℤ) : Prop where
  wake_succ : ∀ k, wake (k + 1) = done k + msUntilNextBoundary minLtf (done k)
  wake_le : ∀ k, wake k ≤ done k
  done_lt : ∀ k, done k < analysisClose minLtf (wake k) + minLtf * 60 * 1000 + candleBufferMs

variable {cfg : Settings} {minLtf : ℕ} {ltf : Interval} {wake done : ℕ → ℤ}

theorem minLtf_pos (h : cfg.minLtf = some minLtf) : 0 < minLtf := by
  have hmem := List.min?_mem h
  obtain ⟨pair, -, rfl⟩ := List.mem_map.mp hmem
  exact intervalToMinutes_pos pair.2

theorem analysisClose_dvd (minLtf : ℕ) (nowMs : ℤ) :
    (minLtf * 60 * 1000 : ℤ) ∣ analysisClose minLtf nowMs :=
  Dvd.intro_left _ rfl

theorem analysisClose_le (h : 0 < minLtf) (nowMs : ℤ) : analysisClose minLtf nowMs ≤ nowMs :=
  Int.ediv_mul_le nowMs (by omega)

theorem lt_analysisClose_add (h : 0 < minLtf) (nowMs : ℤ) :
    nowMs < analysisClose minLtf nowMs + minLtf * 60 * 1000 := by
  have hlt := Int.lt_ediv_add_one_mul_self nowMs (show (0 : ℤ) < minLtf * 60 * 1000 by omega)
  rw [Int.add_mul, Int.one_mul] at hlt
  exact hlt

/-- The boundary is the only multiple in its interval. -/
theorem analysisClose_eq_iff (h : 0 < minLtf) {nowMs B : ℤ}
    (hB : (minLtf * 60 * 1000 : ℤ) ∣ B) :
    analysisClose minLtf nowMs = B ↔ B ≤ nowMs ∧ nowMs < B + minLtf * 60 * 1000 := by
  have hle := analysisClose_le h nowMs
  have hlt := lt_analysisClose_add h nowMs
  constructor
  · rintro rfl
    exact ⟨hle, hlt⟩
  · rintro ⟨hlo, hhi⟩
    obtain ⟨a, ha⟩ := analysisClose_dvd minLtf nowMs
    obtain ⟨b, rfl⟩ := hB
    rw [ha] at hle hlt ⊢
    have hiv : (0 : ℤ) < minLtf * 60 * 1000 := by omega
    have hab : a < b + 1 := by
      by_contra hge
      have := Int.mul_le_mul_of_nonneg_left (not_lt.mp hge) hiv.le
      rw [Int.mul_add, Int.mul_one] at this
      omega
    have hba : b < a + 1 := by
      by_contra hge
      have := Int.mul_le_mul_of_nonneg_left (not_lt.mp hge) hiv.le
      rw [Int.mul_add, Int.mul_one] at this
      omega
    rw [show a = b by omega]

/-- A tick wakes the buffer after the next boundary. -/
theorem add_msUntilNextBoundary (minLtf : ℕ) (nowMs : ℤ) :
    nowMs + msUntilNextBoundary minLtf nowMs =
      analysisClose minLtf nowMs + minLtf * 60 * 1000 + candleBufferMs := by
  have hdiv : nowMs / 1000 / (minLtf * 60 : ℤ) = nowMs / (minLtf * 60 * 1000 : ℤ) := by
    rw [Int.ediv_ediv_of_nonneg (by norm_num), Int.mul_comm 1000]
  unfold msUntilNextBoundary analysisClose
  dsimp only
  rw [hdiv]
  ring

/-! ## The boundaries of a run -/

theorem TickRun.wake_succ_eq (hrun : TickRun minLtf wake done) (k : ℕ) :
    wake (k + 1) = analysisClose minLtf (done k) + minLtf * 60 * 1000 + candleBufferMs := by
  rw [hrun.wake_succ, add_msUntilNextBoundary]

/-- The boundary analysed next is the one after the callback's end. -/
theorem TickRun.close_succ (hrun : TickRun minLtf wake done) (h : 0 < minLtf) (k : ℕ) :
    analysisClose minLtf (wake (k + 1)) = analysisClose minLtf (done k) + minLtf * 60 * 1000 := by
  have hdvd : (minLtf * 60 * 1000 : ℤ) ∣ analysisClose minLtf (done k) + minLtf * 60 * 1000 :=
    dvd_add (analysisClose_dvd minLtf (done k)) (dvd_refl _)
  rw [analysisClose_eq_iff h hdvd, hrun.wake_succ_eq, candleBufferMs]
  constructor <;> omega

/-- A callback that ends before the next boundary leads to it, a later one to the boundary after
    that. -/
theorem TickRun.close_cases (hrun : TickRun minLtf wake done) (h : 0 < minLtf) (k : ℕ) :
    let B := analysisClose minLtf (wake k)
    (done k < B + minLtf * 60 * 1000 ∧
        analysisClose minLtf (wake (k + 1)) = B + minLtf * 60 * 1000) ∨
      (B + minLtf * 60 * 1000 ≤ done k ∧
        analysisClose minLtf (wake (k + 1)) = B + 2 * (minLtf * 60 * 1000)) := by
  intro B
  have hdvd : (minLtf * 60 * 1000 : ℤ) ∣ B := analysisClose_dvd minLtf (wake k)
  have hlo : B ≤ wake k := analysisClose_le h (wake k)
  have hwake := hrun.wake_le k
  have hhi : done k < B + minLtf * 60 * 1000 + candleBufferMs := hrun.done_lt k
  rw [candleBufferMs] at hhi
  rw [hrun.close_succ h k]
  by_cases hin : done k < B + minLtf * 60 * 1000
  · have hclose := (analysisClose_eq_iff h hdvd).mpr ⟨hlo.trans hwake, hin⟩
    exact Or.inl ⟨hin, by rw [hclose]⟩
  · have hclose : analysisClose minLtf (done k) = B + minLtf * 60 * 1000 := by
      rw [analysisClose_eq_iff h (dvd_add hdvd (dvd_refl _))]
      omega
    exact Or.inr ⟨not_lt.mp hin, by rw [hclose]; omega⟩

theorem TickRun.close_lt (hrun : TickRun minLtf wake done) (h : 0 < minLtf) (k : ℕ) :
    analysisClose minLtf (wake k) + minLtf * 60 * 1000 ≤ analysisClose minLtf (wake (k + 1)) := by
  rcases hrun.close_cases h k with ⟨-, heq⟩ | ⟨-, heq⟩ <;> omega

theorem TickRun.close_strictMono (hrun : TickRun minLtf wake done) (h : 0 < minLtf) :
    StrictMono (fun k => analysisClose minLtf (wake k)) := by
  apply strictMono_nat_of_lt_succ
  intro k
  have := hrun.close_lt h k
  show analysisClose minLtf (wake k) < analysisClose minLtf (wake (k + 1))
  omega

/-- The boundaries of a run pass every instant. -/
theorem TickRun.exists_lt_close (hrun : TickRun minLtf wake done) (h : 0 < minLtf) (B : ℤ) :
    ∃ k, B < analysisClose minLtf (wake k) := by
  have hgrow : ∀ k : ℕ, analysisClose minLtf (wake 0) + k ≤ analysisClose minLtf (wake k) := by
    intro k
    induction k with
    | zero => omega
    | succ k ih =>
        have := hrun.close_lt h k
        omega
  refine ⟨(B - analysisClose minLtf (wake 0)).toNat + 1, ?_⟩
  have := hgrow ((B - analysisClose minLtf (wake 0)).toNat + 1)
  omega

/-- The tick whose boundary is the last one not after `B`. -/
theorem TickRun.exists_around (hrun : TickRun minLtf wake done) (h : 0 < minLtf) {B : ℤ}
    (hB : analysisClose minLtf (wake 0) ≤ B) :
    ∃ k, analysisClose minLtf (wake k) ≤ B ∧ B < analysisClose minLtf (wake (k + 1)) := by
  have hex := hrun.exists_lt_close h B
  have hspec := Nat.find_spec hex
  have hne : Nat.find hex ≠ 0 := by
    intro hzero
    rw [hzero] at hspec
    omega
  obtain ⟨k, hk⟩ := Nat.exists_eq_succ_of_ne_zero hne
  rw [hk] at hspec
  refine ⟨k, ?_, hspec⟩
  have hmin := Nat.find_min hex (show k < Nat.find hex by omega)
  exact not_lt.mp hmin

/-! ## No close is passed over -/

theorem intervalMs_eq (i : Interval) : intervalMs i = intervalToMinutes i * 60 * 1000 := rfl

/-- Multiples of the smallest LTF are analysed unless a callback is running over them. -/
theorem TickRun.close_met (hrun : TickRun minLtf wake done) (h : 0 < minLtf) {B : ℤ}
    (hdvd : (minLtf * 60 * 1000 : ℤ) ∣ B) (hB : analysisClose minLtf (wake 0) ≤ B)
    (hfree : ∀ k, ¬ (wake k < B ∧ B ≤ done k)) :
    ∃ k, analysisClose minLtf (wake k) = B := by
  obtain ⟨k, hle, hlt⟩ := hrun.exists_around h hB
  refine ⟨k, ?_⟩
  have hwake := lt_analysisClose_add h (wake k)
  have hnear : B < analysisClose minLtf (wake k) + minLtf * 60 * 1000 := by
    rcases hrun.close_cases h k with ⟨-, heq⟩ | ⟨hdone, heq⟩
    · rw [heq] at hlt
      exact hlt
    · -- the callback ran over the boundary in between
      by_contra hge
      have hnext : analysisClose minLtf B = analysisClose minLtf (wake k) + minLtf * 60 * 1000 := by
        rw [analysisClose_eq_iff h (dvd_add (analysisClose_dvd minLtf (wake k)) (dvd_refl _))]
        omega
      have hself : analysisClose minLtf B = B :=
        (analysisClose_eq_iff h hdvd).mpr ⟨le_refl B, by omega⟩
      exact hfree k ⟨by omega, by omega⟩
  have hself : analysisClose minLtf B = B :=
    (analysisClose_eq_iff h hdvd).mpr ⟨le_refl B, by omega⟩
  rw [← hself]
  symm
  rw [analysisClose_eq_iff h (analysisClose_dvd minLtf (wake k))]
  exact ⟨hle, hnear⟩

/-- A boundary a callback runs over is never analysed. -/
theorem TickRun.close_missed (hrun : TickRun minLtf wake done) (h : 0 < minLtf) {B : ℤ}
    {k : ℕ} (hwake : wake k < B) (hdone : B ≤ done k) :
    analysisClose minLtf (wake 0) ≤ B ∧ ∀ j, analysisClose minLtf (wake j) ≠ B := by
  have hmono := hrun.close_strictMono h
  have hlo := analysisClose_le h (wake k)
  have hhi := hrun.done_lt k
  rw [candleBufferMs] at hhi
  have hfirst : analysisClose minLtf (wake 0) ≤ analysisClose minLtf (wake k) :=
    hmono.monotone (Nat.zero_le k)
  refine ⟨by omega, fun j hj => ?_⟩
  rcases Nat.lt_or_ge k j with hkj | hjk
  · have hlater : analysisClose minLtf (wake (k + 1)) ≤ analysisClose minLtf (wake j) :=
      hmono.monotone hkj
    have hend := lt_analysisClose_add h (done k)
    rw [hrun.close_succ h k] at hlater
    omega
  · have hearlier : analysisClose minLtf (wake j) ≤ analysisClose minLtf (wake k) :=
      hmono.monotone hjk
    omega

/-- If every close of the LTF is analysed, the smallest LTF divides it. -/
theorem minLtf_dvd_of_met (h : 0 < minLtf)
    (hmet : ∀ B, analysisClose minLtf (wake 0) ≤ B → B % intervalMs ltf = 0 →
      ∃ k, analysisClose minLtf (wake k) = B) :
    minLtf ∣ intervalToMinutes ltf := by
  -- a late close that is one LTF away from a multiple of the smallest
  obtain ⟨n, hn⟩ : ∃ n : ℕ, analysisClose minLtf (wake 0) ≤ n := ⟨_, Int.le_natAbs⟩
  have hlate : analysisClose minLtf (wake 0) ≤ intervalMs ltf * (minLtf * 60 * 1000 * n + 1) := by
    have hpos := intervalMs_pos ltf
    have hgrow : (n : ℤ) ≤ minLtf * 60 * 1000 * n + 1 := by
      nlinarith [Int.natCast_nonneg n, show (1 : ℤ) ≤ minLtf by omega]
    have hscale : (minLtf * 60 * 1000 * n + 1 : ℤ) ≤
        intervalMs ltf * (minLtf * 60 * 1000 * n + 1) := by
      nlinarith [Int.natCast_nonneg n]
    exact hn.trans (hgrow.trans hscale)
  obtain ⟨k, hk⟩ := hmet _ hlate (Int.mul_emod_right _ _)
  have hdvd := analysisClose_dvd minLtf (wake k)
  rw [hk, Int.mul_add, Int.mul_one, intervalMs_eq] at hdvd
  have hltf : (minLtf * 60 * 1000 : ℤ) ∣ intervalToMinutes ltf * 60 * 1000 := by
    refine (Int.dvd_add_right ?_).mp hdvd
    exact Dvd.dvd.mul_left (Dvd.intro _ rfl) _
  have hnat : minLtf * 60 * 1000 ∣ intervalToMinutes ltf * 60 * 1000 := by exact_mod_cast hltf
  exact Nat.dvd_of_mul_dvd_mul_right (by norm_num : 0 < 60)
    (Nat.dvd_of_mul_dvd_mul_right (by norm_num : 0 < 1000) hnat)

/-- **When every close of a pair's LTF is analysed**: exactly when the smallest LTF divides it
    and no close comes while a callback is running. -/
theorem ltfCloses_met_iff (hmin : cfg.minLtf = some minLtf) (hrun : TickRun minLtf wake done) :
    (∀ B, analysisClose minLtf (wake 0) ≤ B → B % intervalMs ltf = 0 →
        ∃ k, analysisClose minLtf (wake k) = B) ↔
      minLtf ∣ intervalToMinutes ltf ∧
        ∀ B, B % intervalMs ltf = 0 → ∀ k, ¬ (wake k < B ∧ B ≤ done k) := by
  have h := minLtf_pos hmin
  have hmultiple : minLtf ∣ intervalToMinutes ltf → ∀ B, B % intervalMs ltf = 0 →
      (minLtf * 60 * 1000 : ℤ) ∣ B := by
    intro hdvd B hB
    refine dvd_trans ?_ (Int.dvd_of_emod_eq_zero hB)
    rw [intervalMs_eq]
    exact_mod_cast Nat.mul_dvd_mul_right (Nat.mul_dvd_mul_right hdvd 60) 1000
  constructor
  · intro hmet
    have hdvd := minLtf_dvd_of_met h hmet
    refine ⟨hdvd, fun B hB k hk => ?_⟩
    obtain ⟨hfirst, hmissed⟩ := hrun.close_missed h hk.1 hk.2
    obtain ⟨j, hj⟩ := hmet B hfirst hB
    exact hmissed j hj
  · rintro ⟨hdvd, hfree⟩ B hfirst hB
    exact hrun.close_met h (hmultiple hdvd B hB) hfirst (hfree B hB)

/-- Callbacks that take a second each. -/
theorem tickRun_steady (h : 0 < minLtf) :
    TickRun minLtf (fun k => minLtf * 60 * 1000 * k + 400)
      (fun k => minLtf * 60 * 1000 * k + 1400) := by
  have hclose : ∀ (k : ℕ) (ms : ℤ), 0 ≤ ms → ms < 60000 →
      analysisClose minLtf (minLtf * 60 * 1000 * k + ms) = minLtf * 60 * 1000 * k := by
    intro k ms hlo hhi
    rw [analysisClose_eq_iff h (Dvd.intro _ rfl)]
    omega
  constructor
  · intro k
    rw [add_msUntilNextBoundary, hclose k 1400 (by omega) (by omega), candleBufferMs]
    push_cast
    ring
  · intro k
    omega
  · intro k
    rw [hclose k 400 (by omega) (by omega), candleBufferMs]
    omega

/-- Ticks every five minutes, for a pair on 5-minute and one on 15-minute candles. -/
def nestedPairs : Settings where
  tfPairs := [(oneHour, fiveMin), (oneHour, fifteenMin)]

theorem nestedPairs_met :
    ∃ k : ℕ, analysisClose 5 (((5 : ℕ) : ℤ) * 60 * 1000 * k + 400) = 2700000 := by
  have hmet : ∀ B, analysisClose 5 (((5 : ℕ) : ℤ) * 60 * 1000 * (0 : ℕ) + 400) ≤ B →
      B % intervalMs fifteenMin = 0 →
      ∃ k : ℕ, analysisClose 5 (((5 : ℕ) : ℤ) * 60 * 1000 * k + 400) = B := by
    refine (ltfCloses_met_iff (show nestedPairs.minLtf = some 5 by decide)
      (tickRun_steady (by decide))).mpr ⟨by decide, fun B hB k hk => ?_⟩
    have hltf : intervalMs fifteenMin = 900000 := by decide
    rw [hltf] at hB
    omega
  exact hmet 2700000 (by decide) (by decide)

def twoMin : Interval := ⟨2, .min, by decide⟩

def threeMin : Interval := ⟨3, .min, by decide⟩

/-- Ticks every two minutes pass over every other close of a 3-minute pair. -/
theorem three_minute_close_missed :
    ¬ ∀ (cfg : Settings) (minLtf : ℕ) (htf ltf : Interval) (wake done : ℕ → ℤ),
      cfg.minLtf = some minLtf → (htf, ltf) ∈ cfg.tfPairs → TickRun minLtf wake done →
      ∀ B, analysisClose minLtf (wake 0) ≤ B → B % intervalMs ltf = 0 →
        ∃ k, analysisClose minLtf (wake k) = B := by
  intro h
  obtain ⟨k, hk⟩ := h { tfPairs := [(oneHour, twoMin), (oneHour, threeMin)] } 2 oneHour threeMin
    _ _ (by decide) (by decide) (tickRun_steady (by decide)) 180000 (by decide) (by decide)
  have hdvd := analysisClose_dvd 2 (((2 : ℕ) : ℤ) * 60 * 1000 * k + 400)
  rw [hk] at hdvd
  revert hdvd
  decide

/-! ## The boundary analysed -/

/-- `fired_at` of `_on_candle_close`; no value stands for the exception of `min`. -/
def onCandleClose (cfg : Settings) (c : MarketDataClient) (symbol : String)
    (tick again : Option TickTime) (systemMs : ℤ) : Option ℤ :=
  cfg.minLtf.map (fun minLtf => analysisClose minLtf (c.nowMs symbol tick again systemMs).2)

/-- **When a tick analyses the boundary it was scheduled for**: exactly when the market has ticked
    since. -/
theorem firedAt_eq_iff (hmin : cfg.minLtf = some minLtf) {B now offset : ℤ}
    (hB : B % (minLtf * 60 * 1000) = 0) (hhi : now < B + minLtf * 60 * 1000)
    {c : MarketDataClient} {symbol : String} {tick : TickTime} {again : Option TickTime}
    (hset : tick.ms ≠ 0) (hcalibrated : (c.brokerTimeOffsetMs symbol again now).2 = offset)
    (hpast : tick.ms - offset ≤ now) :
    onCandleClose cfg c symbol (some tick) again now = some B ↔ B ≤ tick.ms - offset := by
  have h := minLtf_pos hmin
  have htime : (c.nowMs symbol (some tick) again now).2 = tick.ms - offset := by
    unfold MarketDataClient.nowMs
    dsimp only
    rw [if_pos hset, hcalibrated]
  rw [onCandleClose, hmin, Option.map_some, htime, Option.some_inj,
    analysisClose_eq_iff h (Int.dvd_of_emod_eq_zero hB)]
  exact ⟨fun hin => hin.1, fun hle => ⟨hle, by omega⟩⟩

/-- The last tick two seconds after the boundary, on a broker clock in UTC. -/
theorem tick_after_boundary :
    onCandleClose sampleSettings {} "XAUUSD" (some ⟨38102000, 38102⟩) (some ⟨38102000, 38102⟩)
      38103000 = some 38100000 :=
  (firedAt_eq_iff (show sampleSettings.minLtf = some 5 by decide) (by decide) (by decide)
    (by decide) (show _ = (0 : ℤ) by decide +kernel) (by decide)).mpr (by decide)

/-- Two seconds before it, the boundary analysed is the one before. -/
theorem tick_before_boundary :
    ¬ ∀ (cfg : Settings) (minLtf : ℕ) (B now offset : ℤ) (c : MarketDataClient) (symbol : String)
      (tick : TickTime) (again : Option TickTime),
      cfg.minLtf = some minLtf → B % (minLtf * 60 * 1000) = 0 → B + candleBufferMs ≤ now →
      now < B + minLtf * 60 * 1000 → tick.ms ≠ 0 →
      (c.brokerTimeOffsetMs symbol again now).2 = offset → tick.ms - offset ≤ now →
      onCandleClose cfg c symbol (some tick) again now = some B := by
  intro h
  have hfired := h sampleSettings 5 38100000 38100400 0 {} "XAUUSD" ⟨38098000, 38098⟩
    (some ⟨38098000, 38098⟩) (by decide) (by decide) (by decide) (by decide) (by decide)
    (by decide +kernel) (by decide)
  revert hfired
  decide +kernel

end SignalEngine
