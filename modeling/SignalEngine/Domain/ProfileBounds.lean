/-
  ProfileBounds: whether accepted settings give profiles within the bounds of the TP1 rules.

  `__post_init__` looks for the two percentages in a symbol's map, where the parser has put
  timeframes; `get` reads them one level below. So what a profile takes from the settings
  themselves is checked, except for being a number, and what it takes from an override is not.

  Proved: `firstOverride_eq`: the loop of `get` takes the first entry that is not empty.
  `get_pctInRange_iff`: a profile of accepted settings is within the bounds exactly when what that
  entry sets is, and what it leaves to the settings is a number.
-/
import SignalEngine.Domain.Profiles
import SignalEngine.Domain.TradeManagement

namespace SignalEngine

open Lib

variable {upper : String → String} {r : AssetRegistry} {symbol : String} {htf ltf : Option Interval}
  {p : ResolvedProfile}

/-- The entry at `(sym, tf)`, unless it is empty. -/
def entryAt (overrides : PyDict (PyDict OverrideNode)) (candidate : String × String) :
    Option TradeOverride :=
  match (overrides.get candidate.1).bind (fun symMap => symMap.get candidate.2) with
  | some (.entry o) => if o = {} then none else some o
  | _ => none

/-- The most specific entry for a pair. -/
def AppSettings.overrideFor (cfg : AppSettings) (symbol : String) (htf ltf : Interval) :
    Option TradeOverride :=
  (tfCandidates symbol (tfKey htf ltf)).findSome? (entryAt cfg.tradeManagementTfOverrides)

/-- The profile is within the bounds. -/
structure ResolvedProfile.PctInRange (p : ResolvedProfile) : Prop where
  trigger : TriggerInRange p.tp1TriggerPct
  close : CloseInRange p.tp1ClosePct

/-- What the entry sets is within the bounds, and what it leaves to the settings is a number. -/
structure TradeOverride.KeepsInRange (o : TradeOverride) (cfg : AppSettings) : Prop where
  trigger : ∀ x ∈ o.tp1TriggerPct, TriggerInRange x
  close : ∀ x ∈ o.tp1ClosePct, CloseInRange x
  trigger_number : o.tp1TriggerPct = none → cfg.tp1TriggerPct ≠ .nan
  close_number : o.tp1ClosePct = none → cfg.tp1ClosePct ≠ .nan

/-- Within the bounds, the percentages are numbers, and the profile is one that trades are managed
    by. -/
theorem ResolvedProfile.PctInRange.toAssetProfile (h : p.PctInRange) :
    ∃ q, p.toAssetProfile = some q ∧ q.PctInRange := by
  obtain ⟨htrigger, hclose⟩ := h
  unfold ResolvedProfile.toAssetProfile
  cases ht : p.tp1TriggerPct with
  | finite trigger =>
      cases hc : p.tp1ClosePct with
      | finite close =>
          rw [ht, triggerInRange_finite] at htrigger
          rw [hc, closeInRange_finite] at hclose
          exact ⟨_, rfl, htrigger.1, htrigger.2, hclose.1, hclose.2⟩
      | posInf | negInf | nan =>
          rw [hc] at hclose
          exact absurd hclose (by simp [CloseInRange, PyFloat.le])
  | posInf | negInf | nan =>
      rw [ht] at htrigger
      exact absurd htrigger (by simp [TriggerInRange, PyFloat.lt])

/-- A candidate loop that returns has taken the first entry, or `{}` without one. -/
theorem firstOverride_eq {overrides : PyDict (PyDict OverrideNode)}
    {candidates : List (String × String)} {o : TradeOverride}
    (h : firstOverride overrides candidates = .ok o) :
    o = (candidates.findSome? (entryAt overrides)).getD {} := by
  induction candidates with
  | nil =>
      cases h
      rfl
  | cons c rest ih =>
      obtain ⟨sym, tf⟩ := c
      rw [firstOverride] at h
      rw [List.findSome?_cons, entryAt]
      dsimp only
      cases hnode : (overrides.get sym).bind (fun symMap => symMap.get tf) with
      | none =>
          rw [hnode] at h
          exact ih h
      | some node =>
          rw [hnode] at h
          cases node with
          | num x =>
              dsimp only at h ⊢
              split at h
              · exact ih h
              · cases h
          | entry o' =>
              dsimp only at h ⊢
              split at h
              · next hempty =>
                  rw [if_pos hempty]
                  exact ih h
              · next hempty =>
                  rw [if_neg hempty]
                  cases h
                  rfl

/-- Over settings that pass, an entry gives a profile within the bounds exactly when it keeps
    to them. -/
theorem TradeOverride.update_pctInRange_iff {o : TradeOverride} {base : ResolvedProfile}
    {cfg : AppSettings} (hcfg : cfg.Accepted) (htrigger : base.tp1TriggerPct = cfg.tp1TriggerPct)
    (hclose : base.tp1ClosePct = cfg.tp1ClosePct) :
    (o.update base).PctInRange ↔ o.KeepsInRange cfg := by
  have htriggers : TriggerInRange (o.tp1TriggerPct.getD base.tp1TriggerPct) ↔
      (∀ x ∈ o.tp1TriggerPct, TriggerInRange x) ∧
        (o.tp1TriggerPct = none → cfg.tp1TriggerPct ≠ .nan) := by
    cases o.tp1TriggerPct with
    | none => simp [htrigger, triggerInRange_iff, hcfg.trigger_passes]
    | some x => simp
  have hcloses : CloseInRange (o.tp1ClosePct.getD base.tp1ClosePct) ↔
      (∀ x ∈ o.tp1ClosePct, CloseInRange x) ∧
        (o.tp1ClosePct = none → cfg.tp1ClosePct ≠ .nan) := by
    cases o.tp1ClosePct with
    | none => simp [hclose, closeInRange_iff, hcfg.close_passes]
    | some x => simp
  constructor
  · intro h
    obtain ⟨htrig, htnum⟩ := htriggers.mp h.trigger
    obtain ⟨hcl, hcnum⟩ := hcloses.mp h.close
    exact ⟨htrig, hcl, htnum, hcnum⟩
  · intro h
    exact ⟨htriggers.mpr ⟨h.trigger, h.trigger_number⟩, hcloses.mpr ⟨h.close, h.close_number⟩⟩

/-- The last step of `get` touches the ratios only. -/
theorem AssetRegistry.filtered_pctInRange_iff (r : AssetRegistry) (symbol : String)
    (pair : Option (Interval × Interval)) (base : ResolvedProfile) :
    (r.filtered symbol pair base).PctInRange ↔ base.PctInRange :=
  ⟨fun h => ⟨h.1, h.2⟩, fun h => ⟨h.1, h.2⟩⟩

/-- Without a pair no override is read. -/
theorem get_pctInRange_of_noPair {repr : String → String} (haccepted : r.cfg.postInit repr = .ok ())
    (hpair : bothIntervals htf ltf = none) (h : r.get upper symbol htf ltf = .ok p) :
    p.PctInRange ↔ r.cfg.tp1TriggerPct ≠ .nan ∧ r.cfg.tp1ClosePct ≠ .nan := by
  have hcfg := (postInit_eq_ok_iff repr r.cfg).mp haccepted
  obtain ⟨base, hbase, rfl⟩ := AssetRegistry.get_eq_ok h
  rw [r.filtered_pctInRange_iff]
  rw [hpair] at hbase
  cases hbase
  constructor
  · intro hp
    exact ⟨(triggerInRange_iff.mp hp.trigger).2, (closeInRange_iff.mp hp.close).2⟩
  · intro hnum
    exact ⟨triggerInRange_iff.mpr ⟨hcfg.trigger_passes, hnum.1⟩,
      closeInRange_iff.mpr ⟨hcfg.close_passes, hnum.2⟩⟩

/-- **When accepted settings give a valid profile.** For a pair, exactly when the most specific
    override entry keeps to the bounds in what it sets, and what it leaves to the settings, all of
    it without an entry, is no NaN. -/
theorem get_pctInRange_iff {repr : String → String} {htf ltf : Interval}
    (haccepted : r.cfg.postInit repr = .ok ())
    (h : r.get upper symbol (some htf) (some ltf) = .ok p) :
    p.PctInRange ↔
      ((r.cfg.overrideFor (normalizeSymbol upper symbol) htf ltf).getD {}).KeepsInRange r.cfg := by
  have hcfg := (postInit_eq_ok_iff repr r.cfg).mp haccepted
  obtain ⟨base, hbase, rfl⟩ := AssetRegistry.get_eq_ok h
  rw [r.filtered_pctInRange_iff]
  rw [bothIntervals, AssetRegistry.managed, AssetRegistry.resolveTfTradeManagement] at hbase
  cases ho : firstOverride r.cfg.tradeManagementTfOverrides
      (tfCandidates (normalizeSymbol upper symbol) (tfKey htf ltf)) with
  | error e =>
      rw [ho] at hbase
      cases hbase
  | ok o =>
      rw [ho] at hbase
      cases hbase
      rw [AppSettings.overrideFor, ← firstOverride_eq ho]
      exact TradeOverride.update_pctInRange_iff hcfg rfl rfl

/-! ## An override that is not checked -/

/-- `XAUUSD: {"60/5": {tp1_trigger_pct: x}}`. -/
def goldTriggerYaml (x : PyFloat) : YamlValue :=
  .map [("XAUUSD", .map [("60/5", .map [("tp1_trigger_pct", .num x)])])]

/-- The settings with what the parser makes of it. -/
def goldTrigger (x : PyFloat) : AppSettings :=
  { sampleSettings with
    tradeManagementTfOverrides := [("XAUUSD", [("60/5", .entry { tp1TriggerPct := some x })])] }

/-- Python's functions on the texts of this file. -/
def sampleText : PyText where
  upper := String.toUpper
  stripLower := String.toLower
  repr := fun t => "'" ++ t ++ "'"
  float := fun _ => none

/-- Parsed and accepted, a trigger of 150 puts TP1 of a gold trade beyond TP2. -/
theorem accepted_trigger_past_100 :
    ¬ ∀ (text : PyText) (raw : YamlValue) (cfg : AppSettings) (symbol : String)
      (htf ltf : Interval) (p : ResolvedProfile),
      text.parseTradeManagementTfOverrides raw = .ok cfg.tradeManagementTfOverrides →
      cfg.postInit text.repr = .ok () →
      (AssetRegistry.mk cfg).get text.upper symbol (some htf) (some ltf) = .ok p →
      p.PctInRange := by
  intro h
  have hparse : sampleText.parseTradeManagementTfOverrides (goldTriggerYaml (.finite 150)) =
      .ok (goldTrigger (.finite 150)).tradeManagementTfOverrides := by decide +kernel
  have haccepted : (goldTrigger (.finite 150)).postInit sampleText.repr = .ok () := by
    decide +kernel
  have hget : ((AssetRegistry.mk (goldTrigger (.finite 150))).get sampleText.upper "XAUUSD"
      (some oneHour) (some fiveMin)).map ResolvedProfile.tp1TriggerPct = .ok (.finite 150) := by
    decide +kernel
  cases hp : (AssetRegistry.mk (goldTrigger (.finite 150))).get sampleText.upper "XAUUSD"
      (some oneHour) (some fiveMin) with
  | error e =>
      rw [hp] at hget
      cases hget
  | ok p =>
      have htrigger := (h _ _ _ _ _ _ p hparse haccepted hp).trigger
      rw [hp] at hget
      have hpct : p.tp1TriggerPct = .finite 150 := Except.ok.inj hget
      rw [hpct, triggerInRange_finite] at htrigger
      norm_num at htrigger

/-- A trigger of 55 keeps the profile within the bounds; the close share stays that of the
    settings. -/
theorem get_pctInRange_goldTrigger :
    ∃ p, (AssetRegistry.mk (goldTrigger (.finite 55))).get sampleText.upper "XAUUSD" (some oneHour)
      (some fiveMin) = .ok p ∧ p.PctInRange := by
  have hparse : sampleText.parseTradeManagementTfOverrides (goldTriggerYaml (.finite 55)) =
      .ok (goldTrigger (.finite 55)).tradeManagementTfOverrides := by
    decide +kernel
  obtain ⟨p, hp⟩ := AssetRegistry.get_ok (r := ⟨goldTrigger (.finite 55)⟩)
    (PyText.nested_of_parse hparse) sampleText.upper "XAUUSD" (some oneHour) (some fiveMin)
  have haccepted : (goldTrigger (.finite 55)).postInit sampleText.repr = .ok () := by
    decide +kernel
  refine ⟨p, hp, (get_pctInRange_iff haccepted hp).mpr ?_⟩
  have hentry : (goldTrigger (.finite 55)).overrideFor
      (normalizeSymbol sampleText.upper "XAUUSD") oneHour fiveMin =
        some { tp1TriggerPct := some (.finite 55) } := by
    decide +kernel
  show (((goldTrigger (.finite 55)).overrideFor (normalizeSymbol sampleText.upper "XAUUSD") oneHour
    fiveMin).getD {}).KeepsInRange (goldTrigger (.finite 55))
  rw [hentry]
  refine ⟨?_, ?_, ?_, ?_⟩
  · rintro x ⟨⟩
    exact triggerInRange_finite.mpr (by norm_num)
  · rintro x ⟨⟩
  · rintro ⟨⟩
  · exact fun _ => by decide

/-- A NaN in the settings is accepted, and every profile without an override then has it. -/
def nanTrigger : AppSettings := { sampleSettings with tp1TriggerPct := .nan }

example : nanTrigger.postInit sampleText.repr = .ok () ∧
    ((AssetRegistry.mk nanTrigger).get sampleText.upper "XAUUSD" (some oneHour)
      (some fiveMin)).map ResolvedProfile.tp1TriggerPct = .ok .nan := by
  decide +kernel

end SignalEngine
