/-
  AppSettings: the settings a profile is resolved from, `__post_init__`, and the parser of the
  trade-management overrides.

  Model. `AppSettings` adds the fields these read to `Settings`. A dict is a list of pairs in
  insertion order; a mapping of the YAML file may hold two keys that become one. `PyText` is
  what is used of Python's text functions. The two percentages and what the parser makes of a
  number are floats (`PyFloat`), which may be NaN or infinite; the other numbers are rationals.

  Proved: `postInit_eq_ok_iff`: what is accepted. `triggerInRange_iff`, `closeInRange_iff`: a
  percentage that passes is within its bounds unless it is NaN. `PyText.nested_of_parse`: the
  parser nests every value under its timeframe, so none stands where `__post_init__` looks for it.
-/
import SignalEngine.Config.Settings
import SignalEngine.Lib.Loop
import SignalEngine.Lib.Table

namespace SignalEngine

open Lib

/-! ## Values -/

abbrev PyDict (ν : Type) := List (String × ν)

def PyDict.get {ν : Type} (d : PyDict ν) (k : String) : Option ν :=
  (lookup Prod.fst k d).map Prod.snd

/-- `d[k] = v`. -/
def PyDict.set {ν : Type} (d : PyDict ν) (k : String) (v : ν) : PyDict ν := put Prod.fst (k, v) d

/-- A float, its finite values taken exactly. -/
inductive PyFloat where
  | finite (q : ℚ)
  | posInf
  | negInf
  | nan
  deriving DecidableEq, Repr

/-- `x <= y`, which is false of NaN. -/
def PyFloat.le : PyFloat → PyFloat → Bool
  | .nan, _ | _, .nan => false
  | .negInf, _ | _, .posInf => true
  | .finite x, .finite y => decide (x ≤ y)
  | .posInf, _ | _, .negInf => false

/-- `x < y`. -/
def PyFloat.lt : PyFloat → PyFloat → Bool
  | .nan, _ | _, .nan => false
  | .finite x, .finite y => decide (x < y)
  | .negInf, .negInf | .posInf, _ | .finite _, .negInf => false
  | .negInf, _ | .finite _, .posInf => true

/-- What YAML gives for one value; the keys of a mapping are taken as `str`. -/
inductive YamlValue where
  | null
  | bool (b : Bool)
  | num (x : PyFloat)
  | str (text : String)
  | seq (items : List YamlValue)
  | map (entries : List (String × YamlValue))

/-- `str.upper`, `text.strip().lower()`, `repr` and `float` of a text. -/
structure PyText where
  upper : String → String
  stripLower : String → String
  repr : String → String
  float : String → Option PyFloat

/-- `text.replace("/", "")`. -/
def stripSlash (text : String) : String := String.ofList (text.toList.filter (fun ch => ch ≠ '/'))

inductive SettingsError where
  | valueError (msg : String)
  | typeError
  deriving DecidableEq, Repr

/-- An entry of `trade_management_tf_overrides`; a missing key is `none`. -/
structure TradeOverride where
  tp1TriggerPct : Option PyFloat := none
  tp1ClosePct : Option PyFloat := none
  moveSlToBeOnTp1 : Option Bool := none
  deriving DecidableEq, Repr

/-- What a symbol's map holds under a key: a number, or the entry of a timeframe. -/
inductive OverrideNode where
  | num (x : PyFloat)
  | entry (o : TradeOverride)
  deriving DecidableEq, Repr

/-- An entry of `symbol_rr_filter`. -/
structure RrEntry where
  minRr : Option ℚ := none
  maxRr : Option ℚ := none
  deriving DecidableEq, Repr

/-- `_default_sessions`. -/
def defaultSessions : List TradingSession :=
  [⟨0, 8, false, []⟩, ⟨8, 16, true, [9]⟩, ⟨16, 0, true, [17, 19]⟩]

structure AppSettings extends Settings where
  tfEntryModels : PyDict String := []
  stopPlacementMethod : String := "wick"
  maxSlZoneMult : ℚ := 2
  maxSpreadToSlRatio : ℚ := 35 / 100
  minRr : ℚ := 3 / 2
  maxRr : ℚ := 9
  tfMaxRr : PyDict ℚ := []
  symbolRrFilter : PyDict (PyDict RrEntry) := []
  apexEnv : String := "paper"
  apexLiveConfirm : String := ""
  useTrendFilter : Bool := true
  tp1TriggerPct : PyFloat := .finite 50
  tp1ClosePct : PyFloat := .finite 0
  moveSlToBeOnTp1 : Bool := true
  tradeManagementTfOverrides : PyDict (PyDict OverrideNode) := []
  entryModel : String := "crt"
  crtMode : String := "previous_candle"
  signalPriceSource : PriceSource := .candleClose
  useSessionFilter : Bool := true
  sessions : List TradingSession := defaultSessions

/-! ## `__post_init__` -/

def IntervalUnit.text : IntervalUnit → String
  | .min => "min"
  | .h => "h"
  | .day => "day"
  | .week => "week"

def Interval.text (i : Interval) : String := toString i.count ++ i.unit.text

def raiseIf (c : Prop) [Decidable c] (msg : String) : Except SettingsError Unit :=
  if c then .error (.valueError msg) else .ok ()

/-- One pair of `tf_pairs`. -/
def checkTfPair (pair : Interval × Interval) : Except SettingsError Unit :=
  raiseIf (intervalToMinutes pair.1 < intervalToMinutes pair.2)
    ("tf_pairs: htf (" ++ pair.1.text ++ "=" ++ toString (intervalToMinutes pair.1) ++
      "min) must be at least as large as ltf (" ++ pair.2.text ++ "=" ++
      toString (intervalToMinutes pair.2) ++ "min).")

def checkEntryModel (repr : String → String) (item : String × String) : Except SettingsError Unit :=
  raiseIf (item.2 ≠ "crt")
    ("timeframes.pairs entry_model for " ++ item.1 ++ " must be 'crt', got " ++ repr item.2 ++ ".")

/-- `pct <= 0.0 or pct >= 100.0`, of a `tp1_trigger_pct`. -/
def triggerOutside (pct : PyFloat) : Bool := pct.le (.finite 0) || PyFloat.le (.finite 100) pct

/-- `pct < 0.0 or pct > 100.0`, of a `tp1_close_pct`. -/
def closeOutside (pct : PyFloat) : Bool := pct.lt (.finite 0) || PyFloat.lt (.finite 100) pct

/-- A bounded number of an override; comparing a dict with a number raises. -/
def checkOverrideValue (node : Option OverrideNode) (outside : PyFloat → Bool) (msg : String) :
    Except SettingsError Unit :=
  match node with
  | none => .ok ()
  | some (.entry _) => .error .typeError
  | some (.num x) => raiseIf (outside x = true) msg

/-- One item of `trade_management_tf_overrides`. -/
def checkOverride (item : String × PyDict OverrideNode) : Except SettingsError Unit := do
  checkOverrideValue (item.2.get "tp1_trigger_pct") triggerOutside
    ("trade_management.tf_overrides." ++ item.1 ++ ".tp1_trigger_pct must be > 0 and < 100.")
  checkOverrideValue (item.2.get "tp1_close_pct") closeOutside
    ("trade_management.tf_overrides." ++ item.1 ++ ".tp1_close_pct must be between 0 and 100.")

/-- One entry of `symbol_rr_filter`. -/
def checkRrEntry (symKey : String) (item : String × RrEntry) : Except SettingsError Unit := do
  let loc := "signal_quality.rrr." ++ symKey ++ "." ++ item.1
  raiseIf (∃ m ∈ item.2.minRr, m ≤ 0) (loc ++ ".min_rr must be > 0.")
  raiseIf (∃ m ∈ item.2.maxRr, m < 0) (loc ++ ".max_rr must be >= 0 (0 = disabled).")

/-- `__post_init__`. -/
def AppSettings.postInit (repr : String → String) (cfg : AppSettings) :
    Except SettingsError Unit := do
  cfg.tfPairs.forM checkTfPair
  raiseIf (cfg.entryModel ≠ "crt")
    ("entry_model must be 'crt', got " ++ repr cfg.entryModel ++ ".")
  cfg.tfEntryModels.forM (checkEntryModel repr)
  raiseIf (cfg.crtMode ≠ "previous_candle")
    ("crt.mode must be 'previous_candle', got " ++ repr cfg.crtMode ++ ".")
  raiseIf (cfg.stopPlacementMethod ≠ "wick")
    ("signal_quality.stop_model must be 'wick', got " ++ repr cfg.stopPlacementMethod ++ ".")
  raiseIf (cfg.maxSignalCountPerZone < 1) "zones.max_signal_count must be >= 1."
  raiseIf (cfg.maxSpreadToSlRatio < 0) "signal_quality.max_spread_to_sl_ratio must be >= 0."
  raiseIf (cfg.apexEnv ≠ "paper" ∧ cfg.apexEnv ≠ "live") "apex_env must be 'paper' or 'live'."
  raiseIf (cfg.apexEnv = "live" ∧ cfg.apexLiveConfirm ≠ "YES_I_ACCEPT_RISK")
    "APEX_ENV=live requires APEX_LIVE_CONFIRM=YES_I_ACCEPT_RISK."
  raiseIf (triggerOutside cfg.tp1TriggerPct = true)
    "trade_management.tp1_trigger_pct must be > 0 and < 100."
  raiseIf (closeOutside cfg.tp1ClosePct = true)
    "trade_management.tp1_close_pct must be between 0 and 100."
  cfg.tradeManagementTfOverrides.forM checkOverride
  cfg.symbolRrFilter.forM (fun item => item.2.forM (checkRrEntry item.1))

/-! ## What is accepted -/

@[simp] theorem raiseIf_eq_ok {c : Prop} [Decidable c] {msg : String} :
    raiseIf c msg = .ok () ↔ ¬ c := by
  unfold raiseIf
  split <;> simp [*]

theorem checks_eq_ok {first second : Except SettingsError Unit} :
    (do first; second) = .ok () ↔ first = .ok () ∧ second = .ok () := by
  cases first with
  | error e => exact ⟨fun h => (by cases h), fun h => (by cases h.1)⟩
  | ok u => exact ⟨fun h => ⟨rfl, h⟩, fun h => h.2⟩

theorem forM_eq_ok {α : Type} {check : α → Except SettingsError Unit} {xs : List α} :
    xs.forM check = .ok () ↔ ∀ x ∈ xs, check x = .ok () := by
  induction xs with
  | nil => exact iff_of_true rfl (by simp)
  | cons x xs ih =>
      rw [List.forall_mem_cons, ← ih]
      exact checks_eq_ok

/-- `0 < pct < 100`. -/
def TriggerInRange (pct : PyFloat) : Prop :=
  PyFloat.lt (.finite 0) pct = true ∧ pct.lt (.finite 100) = true

/-- `0 <= pct <= 100`. -/
def CloseInRange (pct : PyFloat) : Prop :=
  PyFloat.le (.finite 0) pct = true ∧ pct.le (.finite 100) = true

/-- NaN passes a test for being outside, and is within no bounds. -/
theorem triggerInRange_iff {pct : PyFloat} :
    TriggerInRange pct ↔ triggerOutside pct = false ∧ pct ≠ .nan := by
  cases pct <;> simp [TriggerInRange, triggerOutside, PyFloat.le, PyFloat.lt]

theorem closeInRange_iff {pct : PyFloat} :
    CloseInRange pct ↔ closeOutside pct = false ∧ pct ≠ .nan := by
  cases pct <;> simp [CloseInRange, closeOutside, PyFloat.le, PyFloat.lt]

theorem triggerInRange_finite {q : ℚ} : TriggerInRange (.finite q) ↔ 0 < q ∧ q < 100 := by
  simp [TriggerInRange, PyFloat.lt]

theorem closeInRange_finite {q : ℚ} : CloseInRange (.finite q) ↔ 0 ≤ q ∧ q ≤ 100 := by
  simp [CloseInRange, PyFloat.le]

/-- `__post_init__` finds nothing, or a number that is not outside. -/
def NodePasses (outside : PyFloat → Bool) : Option OverrideNode → Prop
  | none => True
  | some (.num x) => outside x = false
  | some (.entry _) => False

theorem checkOverrideValue_eq_ok {node : Option OverrideNode} {outside : PyFloat → Bool}
    {msg : String} :
    checkOverrideValue node outside msg = .ok () ↔ NodePasses outside node := by
  rcases node with _ | (q | o)
  · exact iff_of_true rfl trivial
  · simp [checkOverrideValue, NodePasses]
  · exact ⟨fun h => (by cases h), False.elim⟩

/-- The settings `__post_init__` accepts. -/
structure AppSettings.Accepted (cfg : AppSettings) : Prop where
  pairs : ∀ pair ∈ cfg.tfPairs, intervalToMinutes pair.2 ≤ intervalToMinutes pair.1
  entryModel_eq : cfg.entryModel = "crt"
  entryModels_eq : ∀ item ∈ cfg.tfEntryModels, item.2 = "crt"
  crtMode_eq : cfg.crtMode = "previous_candle"
  stopPlacementMethod_eq : cfg.stopPlacementMethod = "wick"
  one_le_signalCount : 1 ≤ cfg.maxSignalCountPerZone
  spread_nonneg : 0 ≤ cfg.maxSpreadToSlRatio
  env : cfg.apexEnv = "paper" ∨ cfg.apexEnv = "live" ∧ cfg.apexLiveConfirm = "YES_I_ACCEPT_RISK"
  trigger_passes : triggerOutside cfg.tp1TriggerPct = false
  close_passes : closeOutside cfg.tp1ClosePct = false
  override_trigger : ∀ item ∈ cfg.tradeManagementTfOverrides,
    NodePasses triggerOutside (item.2.get "tp1_trigger_pct")
  override_close : ∀ item ∈ cfg.tradeManagementTfOverrides,
    NodePasses closeOutside (item.2.get "tp1_close_pct")
  rr_min : ∀ item ∈ cfg.symbolRrFilter, ∀ e ∈ item.2, ∀ m ∈ e.2.minRr, 0 < m
  rr_max : ∀ item ∈ cfg.symbolRrFilter, ∀ e ∈ item.2, ∀ m ∈ e.2.maxRr, 0 ≤ m

theorem checkRrEntry_eq_ok {symKey : String} {item : String × RrEntry} :
    checkRrEntry symKey item = .ok () ↔
      (∀ m ∈ item.2.minRr, 0 < m) ∧ ∀ m ∈ item.2.maxRr, 0 ≤ m := by
  unfold checkRrEntry
  rw [checks_eq_ok, raiseIf_eq_ok, raiseIf_eq_ok]
  simp only [not_exists, not_and, not_le, not_lt]

/-- **What `__post_init__` accepts.** -/
theorem postInit_eq_ok_iff (repr : String → String) (cfg : AppSettings) :
    cfg.postInit repr = .ok () ↔ cfg.Accepted := by
  unfold AppSettings.postInit
  simp only [checks_eq_ok, forM_eq_ok, checkTfPair, checkEntryModel, checkOverride,
    checkOverrideValue_eq_ok, checkRrEntry_eq_ok, raiseIf_eq_ok, not_lt, not_not,
    Bool.not_eq_true]
  constructor
  · rintro ⟨h1, h2, h3, h4, h5, h6, h7, h8, h9, h10, h11, h12, h13⟩
    refine ⟨h1, h2, h3, h4, h5, h6, h7, ?_, h10, h11, fun i hi => (h12 i hi).1,
      fun i hi => (h12 i hi).2, fun i hi e he => (h13 i hi e he).1,
      fun i hi e he => (h13 i hi e he).2⟩
    by_cases hpaper : cfg.apexEnv = "paper"
    · exact Or.inl hpaper
    · have hlive : cfg.apexEnv = "live" := not_not.mp fun hne => h8 ⟨hpaper, hne⟩
      exact Or.inr ⟨hlive, not_not.mp fun hne => h9 ⟨hlive, hne⟩⟩
  · intro h
    refine ⟨h.pairs, h.entryModel_eq, h.entryModels_eq, h.crtMode_eq, h.stopPlacementMethod_eq,
      h.one_le_signalCount, h.spread_nonneg, ?_, ?_, h.trigger_passes, h.close_passes,
      fun i hi => ⟨h.override_trigger i hi, h.override_close i hi⟩,
      fun i hi e he => ⟨h.rr_min i hi e he, h.rr_max i hi e he⟩⟩
    · rintro ⟨hpaper, hlive⟩
      rcases h.env with henv | henv
      · exact hpaper henv
      · exact hlive henv.1
    · rintro ⟨hlive, hconfirm⟩
      rcases h.env with henv | henv
      · rw [henv] at hlive
        exact absurd hlive (by decide)
      · exact hconfirm henv.2

/-! ## The parser -/

/-- `float(value)`. -/
def PyText.toFloat (text : PyText) : YamlValue → Except SettingsError PyFloat
  | .num x => .ok x
  | .bool b => .ok (.finite (if b then 1 else 0))
  | .str t =>
      match text.float t with
      | some x => .ok x
      | none => .error (.valueError ("could not convert string to float: " ++ text.repr t))
  | _ => .error .typeError

/-- `_as_bool`; the `str` of a list or a mapping is none of the four words. -/
def PyText.asBool (text : PyText) : YamlValue → Bool
  | .null => false
  | .bool b => b
  | .num x => decide (x ≠ .finite 0)
  | .str t => decide (text.stripLower t ∉ ["false", "0", "no", "off"])
  | .seq _ | .map _ => true

/-- One item of `values`; `path` is that of the entry. -/
def PyText.parseField (text : PyText) (path : String) (override : TradeOverride)
    (item : String × YamlValue) : Except SettingsError TradeOverride :=
  if item.1 = "move_sl_to_be_on_tp1" then
    .ok { override with moveSlToBeOnTp1 := some (text.asBool item.2) }
  else if item.1 = "tp1_trigger_pct" then
    (text.toFloat item.2).map (fun x => { override with tp1TriggerPct := some x })
  else if item.1 = "tp1_close_pct" then
    (text.toFloat item.2).map (fun x => { override with tp1ClosePct := some x })
  else .error (.valueError (path ++ "." ++ item.1 ++ " is not supported."))

/-- One item of `tf_map`. -/
def PyText.parseTf (text : PyText) (path : String) (parsedTf : PyDict OverrideNode)
    (item : String × YamlValue) : Except SettingsError (PyDict OverrideNode) :=
  match item.2 with
  | .map values =>
      (values.foldlM (text.parseField (path ++ "." ++ item.1)) {}).map (fun override =>
        if override = {} then parsedTf else parsedTf.set item.1 (.entry override))
  | _ => .error (.valueError (path ++ "." ++ item.1 ++ " must be a mapping."))

/-- One item of `raw`. -/
def PyText.parseSymbol (text : PyText) (result : PyDict (PyDict OverrideNode))
    (item : String × YamlValue) : Except SettingsError (PyDict (PyDict OverrideNode)) :=
  let path := "trade_management.tf_overrides." ++ item.1
  match item.2 with
  | .map tfMap =>
      let symbol := if item.1 = "*" then item.1 else stripSlash (text.upper item.1)
      (tfMap.foldlM (text.parseTf path) []).map (fun parsedTf =>
        if parsedTf = [] then result else result.set symbol parsedTf)
  | _ => .error (.valueError (path ++ " must be a mapping."))

/-- `_parse_trade_management_tf_overrides`. -/
def PyText.parseTradeManagementTfOverrides (text : PyText) :
    YamlValue → Except SettingsError (PyDict (PyDict OverrideNode))
  | .null => .ok []
  | .map raw => raw.foldlM text.parseSymbol []
  | _ => .error (.valueError "trade_management.tf_overrides must be a mapping.")

/-! ## What the parser gives -/

/-- Every symbol's map holds non-empty entries, and nothing else. -/
def Nested (overrides : PyDict (PyDict OverrideNode)) : Prop :=
  ∀ item ∈ overrides, ∀ e ∈ item.2, ∃ o : TradeOverride, e.2 = .entry o ∧ o ≠ {}

theorem PyText.entries_of_parseTf {text : PyText} {path : String} {item : String × YamlValue}
    {parsedTf parsedTf' : PyDict OverrideNode}
    (h : text.parseTf path parsedTf item = .ok parsedTf')
    (hold : ∀ e ∈ parsedTf, ∃ o : TradeOverride, e.2 = .entry o ∧ o ≠ {}) :
    ∀ e ∈ parsedTf', ∃ o : TradeOverride, e.2 = .entry o ∧ o ≠ {} := by
  unfold PyText.parseTf at h
  split at h
  · next values _ =>
      cases hfold : values.foldlM (text.parseField (path ++ "." ++ item.1)) {} with
      | error e =>
          rw [hfold] at h
          cases h
      | ok override =>
          rw [hfold] at h
          cases h
          dsimp only
          split
          · exact hold
          · next hne =>
              intro e he
              rcases mem_of_mem_put he with rfl | he
              · exact ⟨override, rfl, hne⟩
              · exact hold e he
  · cases h

theorem PyText.nested_of_parseSymbol {text : PyText} {item : String × YamlValue}
    {result result' : PyDict (PyDict OverrideNode)}
    (h : text.parseSymbol result item = .ok result') (hold : Nested result) : Nested result' := by
  unfold PyText.parseSymbol at h
  dsimp only at h
  split at h
  · next tfMap _ =>
      cases hfold : tfMap.foldlM
          (text.parseTf ("trade_management.tf_overrides." ++ item.1)) [] with
      | error e =>
          rw [hfold] at h
          cases h
      | ok parsedTf =>
          rw [hfold] at h
          cases h
          have hentries := foldlM_invariant
            (fun d : PyDict OverrideNode => ∀ e ∈ d, ∃ o : TradeOverride, e.2 = .entry o ∧ o ≠ {})
            (fun _ _ _ hd hstep => PyText.entries_of_parseTf hstep hd) (by simp) hfold
          dsimp only
          by_cases hempty : parsedTf = []
          · rw [if_pos hempty]
            exact hold
          · rw [if_neg hempty]
            intro i hi
            rcases mem_of_mem_put hi with rfl | hi
            · exact hentries
            · exact hold i hi
  · cases h

/-- **The parser nests every value under its timeframe.** -/
theorem PyText.nested_of_parse {text : PyText} {raw : YamlValue}
    {overrides : PyDict (PyDict OverrideNode)}
    (h : text.parseTradeManagementTfOverrides raw = .ok overrides) : Nested overrides := by
  cases raw with
  | null =>
      cases h
      exact fun i hi => (by cases hi)
  | map raw =>
      exact foldlM_invariant Nested (fun _ _ _ hd hstep => PyText.nested_of_parseSymbol hstep hd)
        (fun i hi => (by cases hi)) h
  | _ => cases h

theorem PyDict.mem_of_get {ν : Type} {d : PyDict ν} {k : String} {v : ν} (h : d.get k = some v) :
    (k, v) ∈ d := by
  obtain ⟨e, he, hv⟩ := Option.map_eq_some_iff.mp h
  obtain ⟨hmem, hkey⟩ := lookup_eq_some he
  rw [← hv, ← hkey]
  exact hmem

end SignalEngine
