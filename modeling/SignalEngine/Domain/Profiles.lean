/-
  Profiles: `AssetRegistry` of `domain/assets/profiles.py`.

  Model. `upper` is `str.upper`. The override dicts of a class or a symbol hold the keys the
  source sets or names. `dict(entry)` raises on a number, so `get` may fail on settings that were
  not parsed. The profile it returns has floats for percentages (`ResolvedProfile`); where they are
  numbers it is an `AssetProfile`.

  Proved: `get_resolves_rr`: which entry each reward ratio comes from. The two are looked up in
  one loop that stops when both are found; `resolveLoop_resolved` says that it stops too early
  for neither.
-/
import SignalEngine.Config.AppSettings

namespace SignalEngine

open Lib

/-! ## Symbols and classes -/

inductive AssetClass where
  | forex
  | commodity
  | indices
  | asiaIndices
  | crypto
  deriving DecidableEq, Repr

def assetClassMap : PyDict AssetClass := [("XAUUSD", .commodity), ("XAGUSD", .commodity)]

def supportedSymbols : List String := assetClassMap.map Prod.fst

/-- `_STRIP_MAP`. -/
def stripMap : PyDict String := supportedSymbols.map (fun k => (stripSlash k, k))

def normalizeSymbol (upper : String → String) (symbol : String) : String :=
  (stripMap.get (stripSlash (upper symbol))).getD (upper symbol)

/-- `_CLASS_SESSIONS`; there are none for `CRYPTO`. -/
def classSessions : AssetClass → Option (List TradingSession)
  | .forex | .indices => some [⟨8, 16, true, [9]⟩, ⟨16, 0, true, [17, 19]⟩]
  | .commodity => some [⟨0, 8, true, []⟩, ⟨8, 16, true, [9]⟩, ⟨16, 0, true, [17, 19]⟩]
  | .asiaIndices => some [⟨0, 8, true, []⟩, ⟨8, 16, true, [9]⟩]
  | .crypto => none

/-- The keys that differ from the settings for a class or a symbol. -/
structure ProfileOverride where
  minRr : Option ℚ := none
  maxRr : Option ℚ := none
  stopBufferPct : Option ℚ := none
  deriving DecidableEq, Repr

/-- `_CLASS_OVERRIDES`. -/
def classOverrides : AssetClass → ProfileOverride
  | .forex => { maxRr := some (5 / 2) }
  | .commodity | .indices | .asiaIndices => { maxRr := some 8 }
  | .crypto => { maxRr := some 8, stopBufferPct := some (2 / 100) }

/-- `SYMBOL_OVERRIDES`. -/
def symbolOverrides : PyDict ProfileOverride := []

/-- The profile as `get` puts it together, its percentages as they were read. -/
structure ResolvedProfile where
  minRr : ℚ
  maxRr : ℚ
  useSessionFilter : Bool
  sessions : List TradingSession
  stopBufferPct : ℚ
  maxSlZoneMult : ℚ
  tp1TriggerPct : PyFloat
  tp1ClosePct : PyFloat
  moveSlToBeOnTp1 : Bool
  signalExpiryHours : ℚ
  useTrendFilter : Bool
  htfLookback : ℤ
  multiTfIndependentPositions : Bool
  signalPriceSource : PriceSource := .candleClose
  deriving DecidableEq, Repr

/-- The profile with numbers for percentages, where they are. -/
def ResolvedProfile.toAssetProfile (p : ResolvedProfile) : Option AssetProfile :=
  match p.tp1TriggerPct, p.tp1ClosePct with
  | .finite trigger, .finite close =>
      some
        { minRr := p.minRr
          maxRr := p.maxRr
          useSessionFilter := p.useSessionFilter
          sessions := p.sessions
          stopBufferPct := p.stopBufferPct
          maxSlZoneMult := p.maxSlZoneMult
          tp1TriggerPct := trigger
          tp1ClosePct := close
          moveSlToBeOnTp1 := p.moveSlToBeOnTp1
          signalExpiryHours := p.signalExpiryHours
          useTrendFilter := p.useTrendFilter
          htfLookback := p.htfLookback
          multiTfIndependentPositions := p.multiTfIndependentPositions
          signalPriceSource := p.signalPriceSource }
  | _, _ => none

/-- `base.update(override)`. -/
def ProfileOverride.update (o : ProfileOverride) (base : ResolvedProfile) : ResolvedProfile :=
  { base with
    minRr := o.minRr.getD base.minRr
    maxRr := o.maxRr.getD base.maxRr
    stopBufferPct := o.stopBufferPct.getD base.stopBufferPct }

/-! ## Registry -/

/-- `_STOP_BUFFER_PCT`. -/
def stopBufferPct : ℚ := 1 / 100000

/-- `resolve_htf_lookback(htf or "*", ltf or "*")`. -/
def AppSettings.htfLookbackFor (cfg : AppSettings) : Option Interval → Option Interval → ℤ
  | some htf, some ltf => cfg.resolveHtfLookback htf ltf
  | _, _ =>
      match cfg.htfLookback with
      | .scalar bars => bars
      | .perPair _ star => star.getD 120

/-- `f"{HTF_min}/{LTF_min}"`, the key of a timeframe pair. -/
def tfKey (htf ltf : Interval) : String :=
  toString (intervalToMinutes htf) ++ "/" ++ toString (intervalToMinutes ltf)

structure AssetRegistry where
  cfg : AppSettings

/-- The `base` of `get` before any override. -/
def AssetRegistry.base (r : AssetRegistry) (htf ltf : Option Interval) : ResolvedProfile where
  minRr := r.cfg.minRr
  maxRr := r.cfg.maxRr
  useSessionFilter := r.cfg.useSessionFilter
  sessions := r.cfg.sessions
  stopBufferPct := stopBufferPct
  maxSlZoneMult := r.cfg.maxSlZoneMult
  tp1TriggerPct := r.cfg.tp1TriggerPct
  tp1ClosePct := r.cfg.tp1ClosePct
  moveSlToBeOnTp1 := r.cfg.moveSlToBeOnTp1
  signalExpiryHours := r.cfg.signalExpiryHours
  useTrendFilter := r.cfg.useTrendFilter
  htfLookback := r.cfg.htfLookbackFor htf ltf
  multiTfIndependentPositions := r.cfg.multiTfIndependentPositions
  signalPriceSource := r.cfg.signalPriceSource

/-- `_resolve_tf_max_rr`. -/
def AssetRegistry.resolveTfMaxRr (r : AssetRegistry) (htf ltf : Interval) (fallback : ℚ) : ℚ :=
  (r.cfg.tfMaxRr.get (tfKey htf ltf)).getD fallback

/-- The four places of an entry, most specific first. -/
def tfCandidates (symbol tf : String) : List (String × String) :=
  [(symbol, tf), (symbol, "*"), ("*", tf), ("*", "*")]

inductive RegistryError where
  | typeError
  deriving DecidableEq, Repr

/-- The candidate loop of `_resolve_tf_trade_management`; zero and `{}` are passed over. -/
def firstOverride (overrides : PyDict (PyDict OverrideNode)) :
    List (String × String) → Except RegistryError TradeOverride
  | [] => .ok {}
  | (sym, tf) :: rest =>
      match (overrides.get sym).bind (fun symMap => symMap.get tf) with
      | none => firstOverride overrides rest
      | some (.num x) => if x = .finite 0 then firstOverride overrides rest else .error .typeError
      | some (.entry o) => if o = {} then firstOverride overrides rest else .ok o

/-- `_resolve_tf_trade_management`. -/
def AssetRegistry.resolveTfTradeManagement (r : AssetRegistry) (symbol : String)
    (htf ltf : Interval) : Except RegistryError TradeOverride :=
  firstOverride r.cfg.tradeManagementTfOverrides (tfCandidates symbol (tfKey htf ltf))

/-- `base.update(entry)`. -/
def TradeOverride.update (o : TradeOverride) (base : ResolvedProfile) : ResolvedProfile :=
  { base with
    tp1TriggerPct := o.tp1TriggerPct.getD base.tp1TriggerPct
    tp1ClosePct := o.tp1ClosePct.getD base.tp1ClosePct
    moveSlToBeOnTp1 := o.moveSlToBeOnTp1.getD base.moveSlToBeOnTp1 }

/-- The candidates of `_resolve_symbol_rr`; `tf` is `tf_key`. -/
def rrCandidates (symbol : String) (tf : Option String) : List (String × String) :=
  tf.toList.map (fun t => (symbol, t)) ++ [(symbol, "*")] ++ tf.toList.map (fun t => ("*", t)) ++
    [("*", "*")]

/-- The locals of the candidate loop. -/
structure RrSearch where
  resolvedMin : ℚ
  resolvedMax : ℚ
  minFound : Bool := false
  maxFound : Bool := false
  deriving DecidableEq, Repr

/-- What one entry adds to the search. -/
def RrSearch.visit (st : RrSearch) (entry : RrEntry) : RrSearch where
  resolvedMin := if st.minFound then st.resolvedMin else entry.minRr.getD st.resolvedMin
  resolvedMax := if st.maxFound then st.resolvedMax else entry.maxRr.getD st.resolvedMax
  minFound := st.minFound || entry.minRr.isSome
  maxFound := st.maxFound || entry.maxRr.isSome

/-- The candidate loop of `_resolve_symbol_rr`. -/
def resolveLoop (filters : PyDict (PyDict RrEntry)) (st : RrSearch) :
    List (String × String) → RrSearch
  | [] => st
  | (sym, tf) :: rest =>
      if st.minFound && st.maxFound then st
      else
        match (filters.get sym).bind (fun symMap => symMap.get tf) with
        | none => resolveLoop filters st rest
        | some entry => resolveLoop filters (st.visit entry) rest

/-- `_resolve_symbol_rr`. -/
def AssetRegistry.resolveSymbolRr (r : AssetRegistry) (symbol : String) (tf : Option String)
    (currentMin currentMax : ℚ) : ℚ × ℚ :=
  let st := resolveLoop r.cfg.symbolRrFilter { resolvedMin := currentMin, resolvedMax := currentMax }
    (rrCandidates symbol tf)
  (st.resolvedMin, st.resolvedMax)

/-- `htf_interval and ltf_interval`. -/
def bothIntervals : Option Interval → Option Interval → Option (Interval × Interval)
  | some htf, some ltf => some (htf, ltf)
  | _, _ => none

/-- Steps 1 to 4 of `get`: the settings, the class, the symbol, the sessions of the class. -/
def AssetRegistry.layered (r : AssetRegistry) (symbol : String) (htf ltf : Option Interval) :
    ResolvedProfile :=
  let classKey := (assetClassMap.get symbol).getD .forex
  let base := (classOverrides classKey).update (r.base htf ltf)
  let base := ((symbolOverrides.get symbol).getD {}).update base
  { base with sessions := (classSessions classKey).getD r.cfg.sessions }

/-- Step 5 of `get`. -/
def AssetRegistry.managed (r : AssetRegistry) (symbol : String)
    (pair : Option (Interval × Interval)) (base : ResolvedProfile) :
    Except RegistryError ResolvedProfile :=
  match pair with
  | none => .ok base
  | some (htf, ltf) =>
      (r.resolveTfTradeManagement symbol htf ltf).map (fun o =>
        o.update { base with maxRr := r.resolveTfMaxRr htf ltf base.maxRr })

/-- Step 6 of `get`. -/
def AssetRegistry.filtered (r : AssetRegistry) (symbol : String)
    (pair : Option (Interval × Interval)) (base : ResolvedProfile) : ResolvedProfile :=
  let rr := r.resolveSymbolRr symbol (pair.map (fun x => tfKey x.1 x.2)) base.minRr base.maxRr
  { base with minRr := rr.1, maxRr := rr.2 }

/-- `get`. -/
def AssetRegistry.get (r : AssetRegistry) (upper : String → String) (symbol : String)
    (htf ltf : Option Interval) : Except RegistryError ResolvedProfile :=
  let symbol := normalizeSymbol upper symbol
  let pair := bothIntervals htf ltf
  (r.managed symbol pair (r.layered symbol htf ltf)).map (r.filtered symbol pair)

variable {upper : String → String} {r : AssetRegistry} {symbol : String} {htf ltf : Option Interval}
  {p : ResolvedProfile}

/-! ## The profile of a call -/

theorem AssetRegistry.get_eq_ok (h : r.get upper symbol htf ltf = .ok p) :
    ∃ base, r.managed (normalizeSymbol upper symbol) (bothIntervals htf ltf)
        (r.layered (normalizeSymbol upper symbol) htf ltf) = .ok base ∧
      p = r.filtered (normalizeSymbol upper symbol) (bothIntervals htf ltf) base := by
  unfold AssetRegistry.get at h
  dsimp only at h
  cases hbase : r.managed (normalizeSymbol upper symbol) (bothIntervals htf ltf)
      (r.layered (normalizeSymbol upper symbol) htf ltf) with
  | error e =>
      rw [hbase] at h
      cases h
  | ok base =>
      rw [hbase] at h
      cases h
      exact ⟨base, rfl, rfl⟩

/-- Any spelling of a supported symbol is read as that symbol. -/
theorem normalizeSymbol_of_supported (upper : String → String) {symbol canonical : String}
    (hmem : canonical ∈ supportedSymbols) (h : stripSlash (upper symbol) = canonical) :
    normalizeSymbol upper symbol = canonical := by
  rw [normalizeSymbol, h]
  have hmem' : canonical = "XAUUSD" ∨ canonical = "XAGUSD" := by
    simpa [supportedSymbols, assetClassMap] using hmem
  rcases hmem' with rfl | rfl
  · have hget : stripMap.get "XAUUSD" = some "XAUUSD" := by decide +kernel
    rw [hget]
    rfl
  · have hget : stripMap.get "XAGUSD" = some "XAGUSD" := by decide +kernel
    rw [hget]
    rfl

/-! ## Reward ratios -/

/-- What the entry at `(sym, tf)` sets of a ratio. -/
def rrAt (filters : PyDict (PyDict RrEntry)) (value : RrEntry → Option ℚ)
    (candidate : String × String) : Option ℚ :=
  ((filters.get candidate.1).bind (fun symMap => symMap.get candidate.2)).bind value

/-- One of the two ratios: where an entry sets it, and what the search knows of it. -/
structure RrChannel where
  value : RrEntry → Option ℚ
  resolved : RrSearch → ℚ
  found : RrSearch → Bool
  resolved_visit : ∀ st entry, resolved (st.visit entry) =
    if found st then resolved st else (value entry).getD (resolved st)
  found_visit : ∀ st entry, found (st.visit entry) = (found st || (value entry).isSome)
  found_of_both : ∀ st, (st.minFound && st.maxFound) = true → found st = true

def RrChannel.min : RrChannel where
  value := RrEntry.minRr
  resolved := RrSearch.resolvedMin
  found := RrSearch.minFound
  resolved_visit _ _ := rfl
  found_visit _ _ := rfl
  found_of_both _ h := (Bool.and_eq_true _ _ ▸ h).1

def RrChannel.max : RrChannel where
  value := RrEntry.maxRr
  resolved := RrSearch.resolvedMax
  found := RrSearch.maxFound
  resolved_visit _ _ := rfl
  found_visit _ _ := rfl
  found_of_both _ h := (Bool.and_eq_true _ _ ▸ h).2

/-- The joint search resolves each ratio as a search for that ratio alone would. -/
theorem resolveLoop_resolved (ch : RrChannel) (filters : PyDict (PyDict RrEntry)) (st : RrSearch)
    (candidates : List (String × String)) :
    ch.resolved (resolveLoop filters st candidates) =
      if ch.found st then ch.resolved st
      else (candidates.findSome? (rrAt filters ch.value)).getD (ch.resolved st) := by
  induction candidates generalizing st with
  | nil => cases ch.found st <;> rfl
  | cons c rest ih =>
      obtain ⟨sym, tf⟩ := c
      rw [resolveLoop, List.findSome?_cons]
      cases hboth : st.minFound && st.maxFound with
      | true => simp only [ch.found_of_both st hboth, if_true]
      | false =>
          simp only [Bool.false_eq_true, if_false, rrAt]
          cases (filters.get sym).bind (fun symMap => symMap.get tf) with
          | none => exact ih st
          | some entry =>
              simp only [ih, ch.resolved_visit, ch.found_visit, Option.bind_some]
              cases hfound : ch.found st with
              | true => simp only [Bool.true_or, if_true]
              | false => cases hvalue : ch.value entry <;> simp

/-- The places of an entry for a call, most specific first; only those of every timeframe
    without a pair. -/
def rrPlaces (symbol : String) : Option (Interval × Interval) → List (String × String)
  | some (htf, ltf) => tfCandidates symbol (tfKey htf ltf)
  | none => [(symbol, "*"), ("*", "*")]

theorem rrCandidates_eq (symbol : String) (pair : Option (Interval × Interval)) :
    rrCandidates symbol (pair.map (fun x => tfKey x.1 x.2)) = rrPlaces symbol pair := by
  cases pair <;> rfl

/-- The value of the first place whose entry sets it. -/
def firstRr (cfg : AppSettings) (value : RrEntry → Option ℚ) (symbol : String)
    (pair : Option (Interval × Interval)) : Option ℚ :=
  (rrPlaces symbol pair).findSome? (rrAt cfg.symbolRrFilter value)

/-- A value of the settings under the class and the symbol. -/
def layeredRr (value : ProfileOverride → Option ℚ) (global : ℚ) (symbol : String) : ℚ :=
  let classKey := (assetClassMap.get symbol).getD .forex
  (value ((symbolOverrides.get symbol).getD {})).getD ((value (classOverrides classKey)).getD global)

/-- The default of `max_rr`: what `tf_max_rr` has for the pair, else the layered value. -/
def defaultMaxRr (cfg : AppSettings) (symbol : String) : Option (Interval × Interval) → ℚ
  | some (htf, ltf) =>
      (cfg.tfMaxRr.get (tfKey htf ltf)).getD (layeredRr ProfileOverride.maxRr cfg.maxRr symbol)
  | none => layeredRr ProfileOverride.maxRr cfg.maxRr symbol

/-- Steps 1 to 5 leave the defaults. -/
theorem AssetRegistry.managed_rr {base : ResolvedProfile}
    (h : r.managed symbol (bothIntervals htf ltf) (r.layered symbol htf ltf) = .ok base) :
    base.minRr = layeredRr ProfileOverride.minRr r.cfg.minRr symbol ∧
      base.maxRr = defaultMaxRr r.cfg symbol (bothIntervals htf ltf) := by
  cases hpair : bothIntervals htf ltf with
  | none =>
      rw [hpair] at h
      cases h
      exact ⟨rfl, rfl⟩
  | some x =>
      obtain ⟨htf', ltf'⟩ := x
      rw [hpair, AssetRegistry.managed] at h
      cases ho : r.resolveTfTradeManagement symbol htf' ltf' with
      | error e =>
          rw [ho] at h
          cases h
      | ok o =>
          rw [ho] at h
          cases h
          exact ⟨rfl, rfl⟩

theorem AssetRegistry.filtered_rr (r : AssetRegistry) (symbol : String)
    (pair : Option (Interval × Interval)) (base : ResolvedProfile) :
    (r.filtered symbol pair base).minRr =
        (firstRr r.cfg RrEntry.minRr symbol pair).getD base.minRr ∧
      (r.filtered symbol pair base).maxRr =
        (firstRr r.cfg RrEntry.maxRr symbol pair).getD base.maxRr := by
  unfold AssetRegistry.filtered AssetRegistry.resolveSymbolRr firstRr
  rw [rrCandidates_eq]
  exact ⟨resolveLoop_resolved RrChannel.min _ _ _, resolveLoop_resolved RrChannel.max _ _ _⟩

/-- On settings whose overrides were parsed, no call raises. -/
theorem firstOverride_ok {overrides : PyDict (PyDict OverrideNode)} (h : Nested overrides)
    (candidates : List (String × String)) : ∃ o, firstOverride overrides candidates = .ok o := by
  induction candidates with
  | nil => exact ⟨{}, rfl⟩
  | cons c rest ih =>
      obtain ⟨sym, tf⟩ := c
      rw [firstOverride]
      cases hnode : (overrides.get sym).bind (fun symMap => symMap.get tf) with
      | none => exact ih
      | some node =>
          obtain ⟨symMap, hsym, htf⟩ := Option.bind_eq_some_iff.mp hnode
          obtain ⟨o, ho, hne⟩ := h _ (PyDict.mem_of_get hsym) _ (PyDict.mem_of_get htf)
          dsimp only at ho
          subst ho
          simp only [if_neg hne]
          exact ⟨o, rfl⟩

theorem AssetRegistry.get_ok (h : Nested r.cfg.tradeManagementTfOverrides)
    (upper : String → String) (symbol : String) (htf ltf : Option Interval) :
    ∃ p, r.get upper symbol htf ltf = .ok p := by
  unfold AssetRegistry.get AssetRegistry.managed
  dsimp only
  cases bothIntervals htf ltf with
  | none => exact ⟨_, rfl⟩
  | some x =>
      obtain ⟨htf', ltf'⟩ := x
      obtain ⟨o, ho⟩ := firstOverride_ok h
        (tfCandidates (normalizeSymbol upper symbol) (tfKey htf' ltf'))
      simp only [AssetRegistry.resolveTfTradeManagement, ho]
      exact ⟨_, rfl⟩

/-- **The precedence of the reward ratios.** Each ratio of a profile is that of the most specific
    entry that sets it, whatever the other one comes from, and the layered default without one. A
    supported symbol is found under any spelling; on parsed overrides the call returns. -/
theorem get_resolves_rr (r : AssetRegistry) (upper : String → String) (symbol : String)
    (htf ltf : Option Interval) :
    (∀ p, r.get upper symbol htf ltf = .ok p →
      p.minRr = (firstRr r.cfg RrEntry.minRr (normalizeSymbol upper symbol)
          (bothIntervals htf ltf)).getD
        (layeredRr ProfileOverride.minRr r.cfg.minRr (normalizeSymbol upper symbol)) ∧
      p.maxRr = (firstRr r.cfg RrEntry.maxRr (normalizeSymbol upper symbol)
          (bothIntervals htf ltf)).getD
        (defaultMaxRr r.cfg (normalizeSymbol upper symbol) (bothIntervals htf ltf))) ∧
    (∀ canonical ∈ supportedSymbols, stripSlash (upper symbol) = canonical →
      normalizeSymbol upper symbol = canonical) ∧
    (Nested r.cfg.tradeManagementTfOverrides → ∃ p, r.get upper symbol htf ltf = .ok p) := by
  refine ⟨fun p hp => ?_, fun canonical hmem h => normalizeSymbol_of_supported upper hmem h,
    fun h => r.get_ok h upper symbol htf ltf⟩
  obtain ⟨base, hbase, rfl⟩ := AssetRegistry.get_eq_ok hp
  obtain ⟨hmin, hmax⟩ := AssetRegistry.managed_rr hbase
  rw [← hmin, ← hmax]
  exact r.filtered_rr _ _ base

/-- A minimum under the symbol and a maximum under the pair: each is taken. -/
def mixedRr : AppSettings :=
  { sampleSettings with
    symbolRrFilter :=
      [("XAUUSD", [("*", { minRr := some 3 })]), ("*", [("60/5", { maxRr := some 4 })])] }

theorem get_resolves_mixedRr :
    ∃ p, (AssetRegistry.mk mixedRr).get String.toUpper "xau/usd" (some oneHour) (some fiveMin) =
      .ok p ∧ p.minRr = 3 ∧ p.maxRr = 4 := by
  obtain ⟨hrr, hspelling, hreturns⟩ := get_resolves_rr ⟨mixedRr⟩ String.toUpper "xau/usd"
    (some oneHour) (some fiveMin)
  obtain ⟨p, hp⟩ := hreturns (fun item hitem => (by cases hitem))
  obtain ⟨hmin, hmax⟩ := hrr p hp
  have hkey := hspelling "XAUUSD" (by decide +kernel) (by decide +kernel)
  rw [hkey] at hmin hmax
  refine ⟨p, hp, hmin.trans ?_, hmax.trans ?_⟩
  · decide +kernel
  · decide +kernel

end SignalEngine
