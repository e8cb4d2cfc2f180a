/-
  No repaint: breaks of structure on a candle list and on its extensions.

  A candle among the last `pivotBars` of a list has too few neighbours to be a pivot there, but
  may be one once the list goes on. The walk reads pivots at their own position, so a pivot
  confirmed late changes what the walk does from that position on.

  Proved: where a pivot is one (`pivotTs_iff`), that pivots confirmed late cannot be broken
  inside the tail (`event_cases`), and from both exactly when the events of the list are kept
  by the extension (`noRepaint_iff`).
-/
import SignalEngine.Domain.Market

namespace SignalEngine

/-- Opens in chronological order, no two at one time. -/
def Chronological (cs : List Candle) : Prop :=
  cs.Pairwise (fun a b => a.timestamp < b.timestamp)

/-- The candles that can still become pivots: the last `pivotBars`. -/
def bosTail (cs : List Candle) (pivotBars : ℕ) : List Candle := cs.drop (cs.length - pivotBars)

def bosHead (cs : List Candle) (pivotBars : ℕ) : List Candle := cs.take (cs.length - pivotBars)

/-- The references the walk holds before the tail. -/
def refsBeforeTail (cs : List Candle) (pivotBars : ℕ) : BosRefs :=
  bosRefs (pivotHighTs cs pivotBars) (pivotLowTs cs pivotBars) {} (bosHead cs pivotBars)

/-- The events of `cs` stay as they are in `cs ++ ext`, and new ones are dated later. -/
def NoRepaint (cs ext : List Candle) (pivotBars : ℕ) : Prop :=
  ∃ new, detectBosEvents (cs ++ ext) pivotBars = detectBosEvents cs pivotBars ++ new ∧
    ∀ e ∈ new, ∀ c ∈ cs, c.timestamp < e.timestamp

/-- The close of `c` goes through a reference. -/
def Breaks (h l : Candle) (c : Candle) : Prop := h.high < c.close ∨ c.close < l.low

instance (h l c : Candle) : Decidable (Breaks h l c) :=
  inferInstanceAs (Decidable (h.high < c.close ∨ c.close < l.low))

/-- The tail's late pivots, at the timestamps `highTs` and `lowTs`, change no event. -/
def TailSettled (highTs lowTs : List ℤ) (r : BosRefs) (tail : List Candle) : Prop :=
  match r.high, r.low with
  | none, none => True
  | some h, some l =>
      -- no late pivot up to the first candle that breaks a reference
      ∀ pre c post, tail = pre ++ c :: post → Breaks h l c → (∀ d ∈ pre, ¬ Breaks h l d) →
        ∀ d ∈ pre ++ [c], d.timestamp ∉ highTs ∧ d.timestamp ∉ lowTs
  | none, some l =>
      -- a late high would pair with `l`, unless a late low has replaced `l`
      ∀ pre c post, tail = pre ++ c :: post → c.close < l.low →
        (∃ d ∈ pre ++ [c], d.timestamp ∈ highTs) → ∃ d ∈ pre ++ [c], d.timestamp ∈ lowTs
  | some h, none =>
      ∀ pre c post, tail = pre ++ c :: post → h.high < c.close →
        (∃ d ∈ pre ++ [c], d.timestamp ∈ lowTs) → ∃ d ∈ pre ++ [c], d.timestamp ∈ highTs

/-! ## Where pivots are -/

theorem mem_findPivots {beats : Candle → Candle → Bool} {cs : List Candle} {left right : ℕ}
    {c : Candle} :
    c ∈ findPivots beats cs left right ↔ ∃ i, left ≤ i ∧ i + right < cs.length ∧
      cs[i]? = some c ∧ ∀ d ∈ neighbours cs left right i, beats c d = true := by
  unfold findPivots
  rw [List.mem_filterMap]
  constructor
  · rintro ⟨i, hi, hc⟩
    rw [List.mem_range'_1] at hi
    obtain ⟨hget, hall⟩ := Option.filter_eq_some_iff.mp hc
    exact ⟨i, hi.1, by omega, hget, List.all_eq_true.mp hall⟩
  · rintro ⟨i, hleft, hright, hget, hall⟩
    refine ⟨i, List.mem_range'_1.mpr ⟨hleft, by omega⟩, ?_⟩
    exact Option.filter_eq_some_iff.mpr ⟨hget, List.all_eq_true.mpr hall⟩

theorem neighbours_split (pre post : List Candle) (c : Candle) (left right : ℕ) :
    neighbours (pre ++ c :: post) left right pre.length =
      pre.drop (pre.length - left) ++ post.take right := by
  have h1 : (pre ++ c :: post).take pre.length = pre := by simp
  have h2 : (pre ++ c :: post).drop (pre.length + 1) = post := by
    rw [← List.drop_drop, List.drop_left]
    rfl
  rw [neighbours, h1, h2]

/-- In chronological lists a position is known by its timestamp. -/
theorem position_unique {pre post : List Candle} {c d : Candle} {i : ℕ}
    (hs : Chronological (pre ++ c :: post)) (hd : (pre ++ c :: post)[i]? = some d)
    (hts : d.timestamp = c.timestamp) : i = pre.length ∧ d = c := by
  obtain ⟨hi, hget⟩ := List.getElem?_eq_some_iff.mp hd
  have hmid : pre.length < (pre ++ c :: post).length := by simp
  have hc : (pre ++ c :: post)[pre.length] = c := by simp
  have hpair := List.pairwise_iff_getElem.mp hs
  have heq : i = pre.length := by
    rcases lt_trichotomy i pre.length with hlt | heq | hgt
    · have := hpair i pre.length hi hmid hlt
      rw [hget, hc] at this
      omega
    · exact heq
    · have := hpair pre.length i hmid hi hgt
      rw [hget, hc] at this
      omega
  subst heq
  exact ⟨rfl, hget.symm.trans hc⟩

/-- A candle is a pivot when it has enough neighbours and beats them. -/
theorem pivotTs_iff {beats : Candle → Candle → Bool} {pre post : List Candle} {c : Candle}
    {left right : ℕ} (hs : Chronological (pre ++ c :: post)) :
    c.timestamp ∈ (findPivots beats (pre ++ c :: post) left right).map Candle.timestamp ↔
      left ≤ pre.length ∧ right ≤ post.length ∧
        ∀ d ∈ pre.drop (pre.length - left) ++ post.take right, beats c d = true := by
  rw [List.mem_map]
  constructor
  · rintro ⟨d, hd, hts⟩
    obtain ⟨i, hleft, hright, hget, hall⟩ := mem_findPivots.mp hd
    obtain ⟨rfl, rfl⟩ := position_unique hs hget hts
    rw [neighbours_split] at hall
    simp only [List.length_append, List.length_cons] at hright
    exact ⟨hleft, by omega, hall⟩
  · rintro ⟨hleft, hright, hall⟩
    refine ⟨c, mem_findPivots.mpr ⟨pre.length, hleft, ?_, by simp, ?_⟩, rfl⟩
    · simp only [List.length_append, List.length_cons]
      omega
    · rw [neighbours_split]
      exact hall

section Extension

variable {beats : Candle → Candle → Bool} {pre post ext : List Candle} {c : Candle}
  {pivotBars : ℕ}

/-- With enough candles after it, a candle is a pivot of a list or of any extension alike. -/
theorem pivotTs_extend_of_head (hs : Chronological (pre ++ c :: post ++ ext))
    (hpost : pivotBars ≤ post.length) :
    c.timestamp ∈
        (findPivots beats (pre ++ c :: post ++ ext) pivotBars pivotBars).map Candle.timestamp ↔
      c.timestamp ∈
        (findPivots beats (pre ++ c :: post) pivotBars pivotBars).map Candle.timestamp := by
  have hs₀ : Chronological (pre ++ c :: post) := (List.pairwise_append.mp hs).1
  have hassoc : pre ++ c :: post ++ ext = pre ++ c :: (post ++ ext) := by simp
  rw [hassoc] at hs ⊢
  rw [pivotTs_iff hs, pivotTs_iff hs₀, List.take_append_of_le_length hpost, List.length_append]
  constructor
  · rintro ⟨h1, _, h3⟩
    exact ⟨h1, hpost, h3⟩
  · rintro ⟨h1, _, h3⟩
    exact ⟨h1, by omega, h3⟩

/-- A candle of the tail is no pivot of the list itself. -/
theorem pivotTs_of_tail (hs : Chronological (pre ++ c :: post)) (hpost : post.length < pivotBars) :
    c.timestamp ∉
      (findPivots beats (pre ++ c :: post) pivotBars pivotBars).map Candle.timestamp := by
  rw [pivotTs_iff hs]
  rintro ⟨_, h2, _⟩
  omega

/-- A late pivot beats every later candle of the tail. -/
theorem beats_of_late_pivot (hs : Chronological (pre ++ c :: post ++ ext))
    (hpost : post.length < pivotBars)
    (hc : c.timestamp ∈
      (findPivots beats (pre ++ c :: post ++ ext) pivotBars pivotBars).map Candle.timestamp) :
    ∀ d ∈ post, beats c d = true := by
  have hassoc : pre ++ c :: post ++ ext = pre ++ c :: (post ++ ext) := by simp
  rw [hassoc] at hs hc
  obtain ⟨_, _, hall⟩ := (pivotTs_iff hs).mp hc
  intro d hd
  refine hall d (List.mem_append_right _ ?_)
  rw [List.take_append]
  exact List.mem_append_left _ (by rw [List.take_of_length_le hpost.le]; exact hd)

end Extension

/-! ## Walks without events -/

/-- The references after pivot tests alone. -/
def pivotRefs (highTs lowTs : List ℤ) (r : BosRefs) (cs : List Candle) : BosRefs :=
  cs.foldl (BosRefs.update highTs lowTs) r

variable {highTs lowTs : List ℤ} {r : BosRefs} {c : Candle} {cs : List Candle}

theorem pivotRefs_cons (r : BosRefs) (c : Candle) (cs : List Candle) :
    pivotRefs highTs lowTs r (c :: cs) = pivotRefs highTs lowTs (r.update highTs lowTs c) cs := rfl

/-- A reference that every candle among `ts` replaces is the last such candle, if there is one. -/
theorem pivotRefs_of_update (ref : BosRefs → Option Candle) (ts : List ℤ)
    (hupdate : ∀ r c, ref (BosRefs.update highTs lowTs r c) =
      if c.timestamp ∈ ts then some c else ref r) (r : BosRefs) (cs : List Candle) :
    (∃ d ∈ cs, d.timestamp ∈ ts ∧ ref (pivotRefs highTs lowTs r cs) = some d) ∨
      (∀ d ∈ cs, d.timestamp ∉ ts) ∧ ref (pivotRefs highTs lowTs r cs) = ref r := by
  induction cs generalizing r with
  | nil => exact Or.inr ⟨by simp, rfl⟩
  | cons c cs ih =>
      rw [pivotRefs_cons]
      rcases ih (r.update highTs lowTs c) with ⟨d, hd, hts, heq⟩ | ⟨hnone, heq⟩
      · exact Or.inl ⟨d, List.mem_cons_of_mem _ hd, hts, heq⟩
      · rw [heq, hupdate]
        by_cases hc : c.timestamp ∈ ts
        · exact Or.inl ⟨c, List.mem_cons_self, hc, if_pos hc⟩
        · exact Or.inr ⟨List.forall_mem_cons.mpr ⟨hc, hnone⟩, if_neg hc⟩

theorem pivotRefs_high (highTs lowTs : List ℤ) (r : BosRefs) (cs : List Candle) :
    (∃ d ∈ cs, d.timestamp ∈ highTs ∧ (pivotRefs highTs lowTs r cs).high = some d) ∨
      (∀ d ∈ cs, d.timestamp ∉ highTs) ∧ (pivotRefs highTs lowTs r cs).high = r.high :=
  pivotRefs_of_update BosRefs.high highTs (fun _ _ => rfl) r cs

theorem pivotRefs_low (highTs lowTs : List ℤ) (r : BosRefs) (cs : List Candle) :
    (∃ d ∈ cs, d.timestamp ∈ lowTs ∧ (pivotRefs highTs lowTs r cs).low = some d) ∨
      (∀ d ∈ cs, d.timestamp ∉ lowTs) ∧ (pivotRefs highTs lowTs r cs).low = r.low :=
  pivotRefs_of_update BosRefs.low lowTs (fun _ _ => rfl) r cs

/-- Without pivots of its kind a walk keeps a reference. -/
theorem pivotRefs_high_of_none (hno : ∀ d ∈ cs, d.timestamp ∉ highTs) :
    (pivotRefs highTs lowTs r cs).high = r.high := by
  rcases pivotRefs_high highTs lowTs r cs with ⟨d, hd, hts, -⟩ | ⟨-, heq⟩
  · exact absurd hts (hno d hd)
  · exact heq

theorem pivotRefs_low_of_none (hno : ∀ d ∈ cs, d.timestamp ∉ lowTs) :
    (pivotRefs highTs lowTs r cs).low = r.low := by
  rcases pivotRefs_low highTs lowTs r cs with ⟨d, hd, hts, -⟩ | ⟨-, heq⟩
  · exact absurd hts (hno d hd)
  · exact heq

theorem pivotRefs_high_of_mem {d : Candle} (hd : d ∈ cs) (hts : d.timestamp ∈ highTs) :
    ∃ a, (pivotRefs highTs lowTs r cs).high = some a := by
  rcases pivotRefs_high highTs lowTs r cs with ⟨a, -, -, heq⟩ | ⟨hno, -⟩
  · exact ⟨a, heq⟩
  · exact absurd hts (hno d hd)

theorem pivotRefs_low_of_mem {d : Candle} (hd : d ∈ cs) (hts : d.timestamp ∈ lowTs) :
    ∃ b, (pivotRefs highTs lowTs r cs).low = some b := by
  rcases pivotRefs_low highTs lowTs r cs with ⟨b, -, -, heq⟩ | ⟨hno, -⟩
  · exact ⟨b, heq⟩
  · exact absurd hts (hno d hd)

theorem bosStep_of_none (h : (r.update highTs lowTs c).event c = none) :
    bosStep highTs lowTs r c = (r.update highTs lowTs c, none) := by
  rw [bosStep, h]

theorem bosStep_of_some {e : BosEvent} (h : (r.update highTs lowTs c).event c = some e) :
    bosStep highTs lowTs r c = ({}, some e) := by
  rw [bosStep, h]

/-- A walk has no event exactly if no candle breaks the references its pivots have set. -/
theorem bosWalk_eq_nil_iff (r : BosRefs) (cs : List Candle) :
    bosWalk highTs lowTs r cs = [] ↔ ∀ pre c post, cs = pre ++ c :: post →
      (pivotRefs highTs lowTs r (pre ++ [c])).event c = none := by
  induction cs generalizing r with
  | nil => simp [bosWalk]
  | cons c cs ih =>
      rw [bosWalk, List.append_eq_nil_iff, bosStep_snd, Option.toList_eq_nil_iff]
      constructor
      · rintro ⟨hnone, hrest⟩ pre d post heq
        cases pre with
        | nil =>
            obtain ⟨rfl, rfl⟩ := List.cons.inj heq
            exact hnone
        | cons x pre =>
            obtain ⟨rfl, rfl⟩ := List.cons.inj heq
            rw [bosStep_of_none hnone] at hrest
            exact (ih _).mp hrest pre d post rfl
      · intro hall
        have hnone := hall [] c cs rfl
        refine ⟨hnone, ?_⟩
        rw [bosStep_of_none hnone]
        exact (ih _).mpr (fun pre d post heq => hall (c :: pre) d post (by rw [heq]; rfl))

theorem bosRefs_of_nil (h : bosWalk highTs lowTs r cs = []) :
    bosRefs highTs lowTs r cs = pivotRefs highTs lowTs r cs := by
  induction cs generalizing r with
  | nil => rfl
  | cons c cs ih =>
      rw [bosWalk, List.append_eq_nil_iff, bosStep_snd, Option.toList_eq_nil_iff] at h
      obtain ⟨hnone, hrest⟩ := h
      rw [bosStep_of_none hnone] at hrest
      rw [bosRefs, List.foldl_cons, bosStep_of_none hnone]
      exact ih hrest

theorem bosRefs_mem (highTs lowTs : List ℤ) (r : BosRefs) (cs : List Candle) :
    (∀ h, (bosRefs highTs lowTs r cs).high = some h → h ∈ cs ∨ r.high = some h) ∧
      ∀ l, (bosRefs highTs lowTs r cs).low = some l → l ∈ cs ∨ r.low = some l := by
  induction cs generalizing r with
  | nil => exact ⟨fun h hh => Or.inr hh, fun l hl => Or.inr hl⟩
  | cons c cs ih =>
      obtain ⟨hhigh, hlow⟩ := ih (bosStep highTs lowTs r c).1
      have hstep : (∀ h, (bosStep highTs lowTs r c).1.high = some h → h = c ∨ r.high = some h) ∧
          ∀ l, (bosStep highTs lowTs r c).1.low = some l → l = c ∨ r.low = some l := by
        cases hev : (r.update highTs lowTs c).event c with
        | some e => rw [bosStep_of_some hev]; simp
        | none =>
            rw [bosStep_of_none hev]
            constructor
            · intro h hh
              simp only [BosRefs.update] at hh
              split at hh
              · exact Or.inl (Option.some.inj hh).symm
              · exact Or.inr hh
            · intro l hl
              simp only [BosRefs.update] at hl
              split at hl
              · exact Or.inl (Option.some.inj hl).symm
              · exact Or.inr hl
      constructor
      · intro h hh
        rcases hhigh h hh with hmem | heq
        · exact Or.inl (List.mem_cons_of_mem _ hmem)
        · exact (hstep.1 h heq).imp (fun hc => List.mem_cons.mpr (Or.inl hc)) id
      · intro l hl
        rcases hlow l hl with hmem | heq
        · exact Or.inl (List.mem_cons_of_mem _ hmem)
        · exact (hstep.2 l heq).imp (fun hc => List.mem_cons.mpr (Or.inl hc)) id

/-! ## Walks over the tail -/

/-- The tail as the walk meets it: late pivots beat what follows them in it, and the
    references held come from earlier candles. -/
structure TailWalk (highTs lowTs : List ℤ) (r : BosRefs) (tail : List Candle) : Prop where
  chronological : Chronological tail
  ohlc : ∀ c ∈ tail, c.OhlcConsistent
  beats : tail.Pairwise (fun c d => (c.timestamp ∈ highTs → d.high < c.high) ∧
    (c.timestamp ∈ lowTs → c.low < d.low))
  high_earlier : ∀ h, r.high = some h → ∀ c ∈ tail, h.timestamp < c.timestamp
  low_earlier : ∀ l, r.low = some l → ∀ c ∈ tail, l.timestamp < c.timestamp

variable {tail pre post : List Candle}

/-- A late pivot high is not broken in the tail. -/
theorem TailWalk.high_holds (h : TailWalk highTs lowTs r (pre ++ c :: post)) {d : Candle}
    (hd : d ∈ pre ++ [c]) (hts : d.timestamp ∈ highTs) :
    ¬ (d.timestamp < c.timestamp ∧ d.high < c.close) := by
  rintro ⟨hlt, hbreak⟩
  rcases List.mem_append.mp hd with hd | hd
  · have hbeats := (List.pairwise_append.mp h.beats).2.2 d hd c List.mem_cons_self
    have hclose := (h.ohlc c (by simp)).close_le_high
    exact absurd (hbreak.trans_le hclose) (not_lt.mpr (hbeats.1 hts).le)
  · rw [List.mem_singleton.mp hd] at hlt
    exact lt_irrefl _ hlt

theorem TailWalk.low_holds (h : TailWalk highTs lowTs r (pre ++ c :: post)) {d : Candle}
    (hd : d ∈ pre ++ [c]) (hts : d.timestamp ∈ lowTs) :
    ¬ (d.timestamp < c.timestamp ∧ c.close < d.low) := by
  rintro ⟨hlt, hbreak⟩
  rcases List.mem_append.mp hd with hd | hd
  · have hbeats := (List.pairwise_append.mp h.beats).2.2 d hd c List.mem_cons_self
    have hclose := (h.ohlc c (by simp)).low_le_close
    exact absurd (hclose.trans_lt hbreak) (not_lt.mpr (hbeats.2 hts).le)
  · rw [List.mem_singleton.mp hd] at hlt
    exact lt_irrefl _ hlt

/-- What an event in the tail is: a break of a reference held before the tail, and not
    replaced since, with whatever reference is on the other side. -/
theorem TailWalk.event_cases (h : TailWalk highTs lowTs r (pre ++ c :: post)) {e : BosEvent}
    (he : (pivotRefs highTs lowTs r (pre ++ [c])).event c = some e) :
    (∃ a b, r.high = some a ∧ (∀ d ∈ pre ++ [c], d.timestamp ∉ highTs) ∧ a.high < c.close ∧
        (pivotRefs highTs lowTs r (pre ++ [c])).low = some b ∧
        e = ⟨c.timestamp, .bullish, a.high, b⟩) ∨
      (∃ a b, r.low = some b ∧ (∀ d ∈ pre ++ [c], d.timestamp ∉ lowTs) ∧ c.close < b.low ∧
        (pivotRefs highTs lowTs r (pre ++ [c])).high = some a ∧
        e = ⟨c.timestamp, .bearish, b.low, a⟩) := by
  unfold BosRefs.event at he
  split at he
  · next a b ha hb =>
      split at he
      · next hbreak =>
          cases he
          rcases pivotRefs_high highTs lowTs r (pre ++ [c]) with
            ⟨d, hd, hts, heq⟩ | ⟨hnone, heq⟩
          · obtain rfl : a = d := Option.some.inj (ha.symm.trans heq)
            exact absurd hbreak (h.high_holds hd hts)
          · exact Or.inl ⟨a, b, heq.symm.trans ha, hnone, hbreak.2, hb, rfl⟩
      · split at he
        · next hbreak =>
            cases he
            rcases pivotRefs_low highTs lowTs r (pre ++ [c]) with
              ⟨d, hd, hts, heq⟩ | ⟨hnone, heq⟩
            · obtain rfl : b = d := Option.some.inj (hb.symm.trans heq)
              exact absurd hbreak (h.low_holds hd hts)
            · exact Or.inr ⟨a, b, heq.symm.trans hb, hnone, hbreak.2, ha, rfl⟩
        · cases he
  · cases he

/-- Without references from before, the tail has no event. -/
theorem TailWalk.nil_of_no_refs (h : TailWalk highTs lowTs {} tail) :
    bosWalk highTs lowTs {} tail = [] := by
  rw [bosWalk_eq_nil_iff]
  rintro pre c post rfl
  cases he : (pivotRefs highTs lowTs {} (pre ++ [c])).event c with
  | none => rfl
  | some e =>
      rcases h.event_cases he with ⟨a, _, ha, _⟩ | ⟨_, b, hb, _⟩
      · cases ha
      · cases hb

theorem TailWalk.of_nil (h : TailWalk highTs lowTs r tail) : TailWalk [] [] r tail where
  chronological := h.chronological
  ohlc := h.ohlc
  beats := h.beats.imp (fun _ => ⟨by simp, by simp⟩)
  high_earlier := h.high_earlier
  low_earlier := h.low_earlier

/-! ## When the tail is settled -/

/-- With one reference missing before it, the tail itself has no event. -/
theorem TailWalk.nil_of_missing (h : TailWalk [] [] r tail)
    (hr : r.high = none ∨ r.low = none) : bosWalk [] [] r tail = [] := by
  rw [bosWalk_eq_nil_iff]
  rintro pre c post rfl
  cases he : (pivotRefs [] [] r (pre ++ [c])).event c with
  | none => rfl
  | some e =>
      have hhigh : (pivotRefs [] [] r (pre ++ [c])).high = r.high :=
        pivotRefs_high_of_none (by simp)
      have hlow : (pivotRefs [] [] r (pre ++ [c])).low = r.low :=
        pivotRefs_low_of_none (by simp)
      rcases h.event_cases he with ⟨a, b, ha, _, _, hb, _⟩ | ⟨a, b, hb, _, _, ha, _⟩ <;>
        rcases hr with hr | hr <;> simp_all

/-- A low reference alone: an event needs a late high and a break of the low reference. -/
theorem TailWalk.nil_iff_of_low (h : TailWalk highTs lowTs ⟨none, some l⟩ tail) :
    bosWalk highTs lowTs ⟨none, some l⟩ tail = [] ↔
      TailSettled highTs lowTs ⟨none, some l⟩ tail := by
  rw [bosWalk_eq_nil_iff]
  constructor
  · intro hnone pre c post heq hbreak ⟨d, hd, hts⟩
    by_contra hlow
    have hl : (pivotRefs highTs lowTs ⟨none, some l⟩ (pre ++ [c])).low = some l :=
      pivotRefs_low_of_none (fun x hx hxts => hlow ⟨x, hx, hxts⟩)
    have hh : ∃ a, (pivotRefs highTs lowTs ⟨none, some l⟩ (pre ++ [c])).high = some a :=
      pivotRefs_high_of_mem hd hts
    obtain ⟨a, ha⟩ := hh
    have hlt : l.timestamp < c.timestamp := h.low_earlier l rfl c (by rw [heq]; simp)
    have hev := hnone pre c post heq
    rw [BosRefs.event, ha, hl] at hev
    dsimp only at hev
    split at hev
    · cases hev
    · rw [if_pos ⟨hlt, hbreak⟩] at hev
      cases hev
  · rintro hset pre c post rfl
    cases he : (pivotRefs highTs lowTs ⟨none, some l⟩ (pre ++ [c])).event c with
    | none => rfl
    | some e =>
        rcases h.event_cases he with ⟨a, _, ha, _⟩ | ⟨a, b, hb, hno, hbreak, ha, _⟩
        · cases ha
        · obtain rfl : l = b := Option.some.inj hb
          rcases pivotRefs_high highTs lowTs ⟨none, some l⟩ (pre ++ [c])
            with ⟨d, hd, hts, _⟩ | ⟨_, heq⟩
          · obtain ⟨x, hx, hxts⟩ := hset pre c post rfl hbreak ⟨d, hd, hts⟩
            exact absurd hxts (hno x hx)
          · rw [heq] at ha
            cases ha

/-- A high reference alone, the same way. -/
theorem TailWalk.nil_iff_of_high {h₀ : Candle}
    (h : TailWalk highTs lowTs ⟨some h₀, none⟩ tail) :
    bosWalk highTs lowTs ⟨some h₀, none⟩ tail = [] ↔
      TailSettled highTs lowTs ⟨some h₀, none⟩ tail := by
  rw [bosWalk_eq_nil_iff]
  constructor
  · intro hnone pre c post heq hbreak ⟨d, hd, hts⟩
    by_contra hhigh
    have hh : (pivotRefs highTs lowTs ⟨some h₀, none⟩ (pre ++ [c])).high = some h₀ :=
      pivotRefs_high_of_none (fun x hx hxts => hhigh ⟨x, hx, hxts⟩)
    have hl : ∃ b, (pivotRefs highTs lowTs ⟨some h₀, none⟩ (pre ++ [c])).low = some b :=
      pivotRefs_low_of_mem hd hts
    obtain ⟨b, hb⟩ := hl
    have hlt : h₀.timestamp < c.timestamp := h.high_earlier h₀ rfl c (by rw [heq]; simp)
    have hev := hnone pre c post heq
    rw [BosRefs.event, hh, hb] at hev
    dsimp only at hev
    rw [if_pos ⟨hlt, hbreak⟩] at hev
    cases hev
  · rintro hset pre c post rfl
    cases he : (pivotRefs highTs lowTs ⟨some h₀, none⟩ (pre ++ [c])).event c with
    | none => rfl
    | some e =>
        rcases h.event_cases he with ⟨a, b, ha, hno, hbreak, hb, _⟩ | ⟨_, b, hb, _⟩
        · obtain rfl : h₀ = a := Option.some.inj ha
          rcases pivotRefs_low highTs lowTs ⟨some h₀, none⟩ (pre ++ [c])
            with ⟨d, hd, hts, _⟩ | ⟨_, heq⟩
          · obtain ⟨x, hx, hxts⟩ := hset pre c post rfl hbreak ⟨d, hd, hts⟩
            exact absurd hxts (hno x hx)
          · rw [heq] at hb
            cases hb
        · cases hb

/-- With both references, candles that break neither have no event. -/
theorem TailWalk.nil_of_unbroken {h₀ l₀ : Candle}
    (h : TailWalk highTs lowTs ⟨some h₀, some l₀⟩ tail)
    (hun : ∀ d ∈ tail, ¬ Breaks h₀ l₀ d) :
    bosWalk highTs lowTs ⟨some h₀, some l₀⟩ tail = [] := by
  rw [bosWalk_eq_nil_iff]
  rintro pre c post rfl
  cases he : (pivotRefs highTs lowTs ⟨some h₀, some l₀⟩ (pre ++ [c])).event c with
  | none => rfl
  | some e =>
      have hc := hun c (by simp)
      rcases h.event_cases he with ⟨a, _, ha, _, hbreak, _⟩ | ⟨_, b, hb, _, hbreak, _⟩
      · obtain rfl : h₀ = a := Option.some.inj ha
        exact absurd (Or.inl hbreak) hc
      · obtain rfl : l₀ = b := Option.some.inj hb
        exact absurd (Or.inr hbreak) hc

theorem TailWalk.prefix (h : TailWalk highTs lowTs r (pre ++ post)) :
    TailWalk highTs lowTs r pre where
  chronological := (List.pairwise_append.mp h.chronological).1
  ohlc := fun c hc => h.ohlc c (List.mem_append_left _ hc)
  beats := (List.pairwise_append.mp h.beats).1
  high_earlier := fun x hx c hc => h.high_earlier x hx c (List.mem_append_left _ hc)
  low_earlier := fun x hx c hc => h.low_earlier x hx c (List.mem_append_left _ hc)

theorem TailWalk.suffix (h : TailWalk highTs lowTs r (pre ++ post)) :
    TailWalk highTs lowTs {} post where
  chronological := (List.pairwise_append.mp h.chronological).2.1
  ohlc := fun c hc => h.ohlc c (List.mem_append_right _ hc)
  beats := (List.pairwise_append.mp h.beats).2.1
  high_earlier := by simp
  low_earlier := by simp

/-- The event of the first candle that breaks a reference, when no late pivot is in force. -/
def breakEvent (h₀ l₀ c : Candle) : BosEvent :=
  if h₀.high < c.close then ⟨c.timestamp, .bullish, h₀.high, l₀⟩
  else ⟨c.timestamp, .bearish, l₀.low, h₀⟩

theorem event_of_breaks {h₀ l₀ : Candle} (hh : h₀.timestamp < c.timestamp)
    (hl : l₀.timestamp < c.timestamp) (hb : Breaks h₀ l₀ c) :
    (BosRefs.mk (some h₀) (some l₀)).event c = some (breakEvent h₀ l₀ c) := by
  rw [BosRefs.event, breakEvent]
  dsimp only
  by_cases hup : h₀.high < c.close
  · rw [if_pos ⟨hh, hup⟩, if_pos hup]
  · rw [if_neg (fun hx => hup hx.2), if_neg hup, if_pos ⟨hl, hb.resolve_left hup⟩]

theorem breakEvent_timestamp (h₀ l₀ c : Candle) : (breakEvent h₀ l₀ c).timestamp = c.timestamp := by
  unfold breakEvent
  split <;> rfl

/-- While the event of `c` still names `h₀` and `l₀`, no late pivot has taken their place. -/
theorem TailWalk.no_late_pivot {h₀ l₀ : Candle}
    (h : TailWalk highTs lowTs ⟨some h₀, some l₀⟩ (pre ++ c :: post))
    (he : (pivotRefs highTs lowTs ⟨some h₀, some l₀⟩ (pre ++ [c])).event c =
      some (breakEvent h₀ l₀ c)) :
    ∀ d ∈ pre ++ [c], d.timestamp ∉ highTs ∧ d.timestamp ∉ lowTs := by
  have hmem : ∀ d ∈ pre ++ [c], d ∈ pre ++ c :: post := fun d hd => by
    simp at hd ⊢
    tauto
  rcases h.event_cases he with ⟨a, b, ha, hno, hup, hlow, heq⟩ |
    ⟨a, b, hlow, hno, hdown, hhigh, heq⟩
  · obtain rfl : h₀ = a := Option.some.inj ha
    rw [breakEvent, if_pos hup] at heq
    obtain rfl : l₀ = b := (BosEvent.mk.inj heq).2.2.2
    rcases pivotRefs_low highTs lowTs ⟨some h₀, some l₀⟩ (pre ++ [c]) with
      ⟨d, hd, _, hdl⟩ | ⟨hnone, _⟩
    · obtain rfl : l₀ = d := Option.some.inj (hlow.symm.trans hdl)
      exact absurd (h.low_earlier l₀ rfl l₀ (hmem l₀ hd)) (lt_irrefl _)
    · exact fun d hd => ⟨hno d hd, hnone d hd⟩
  · obtain rfl : l₀ = b := Option.some.inj hlow
    have hnup : ¬ h₀.high < c.close := by
      intro hup
      rw [breakEvent, if_pos hup] at heq
      cases (BosEvent.mk.inj heq).2.1
    rw [breakEvent, if_neg hnup] at heq
    obtain rfl : h₀ = a := (BosEvent.mk.inj heq).2.2.2
    rcases pivotRefs_high highTs lowTs ⟨some h₀, some l₀⟩ (pre ++ [c]) with
      ⟨d, hd, _, hdh⟩ | ⟨hnone, _⟩
    · obtain rfl : h₀ = d := Option.some.inj (hhigh.symm.trans hdh)
      exact absurd (h.high_earlier h₀ rfl h₀ (hmem h₀ hd)) (lt_irrefl _)
    · exact fun d hd => ⟨hnone d hd, hno d hd⟩

/-- The tail up to its first break: either no late pivot came before, and there is the one
    event, or one did, and there is another list of events. -/
theorem TailWalk.eq_breakEvent_iff {h₀ l₀ : Candle}
    (h : TailWalk highTs lowTs ⟨some h₀, some l₀⟩ (pre ++ c :: post)) (hb : Breaks h₀ l₀ c)
    (hpre : ∀ d ∈ pre, ¬ Breaks h₀ l₀ d) :
    bosWalk highTs lowTs ⟨some h₀, some l₀⟩ (pre ++ c :: post) = [breakEvent h₀ l₀ c] ↔
      ∀ d ∈ pre ++ [c], d.timestamp ∉ highTs ∧ d.timestamp ∉ lowTs := by
  have hwalk : bosWalk highTs lowTs ⟨some h₀, some l₀⟩ pre = [] :=
    h.prefix.nil_of_unbroken hpre
  have hrefs : (bosRefs highTs lowTs ⟨some h₀, some l₀⟩ pre).update highTs lowTs c =
      pivotRefs highTs lowTs ⟨some h₀, some l₀⟩ (pre ++ [c]) := by
    rw [bosRefs_of_nil hwalk, pivotRefs, pivotRefs, List.foldl_append]
    rfl
  rw [bosWalk_append, hwalk, List.nil_append, bosWalk, bosStep_snd, hrefs]
  constructor
  · intro hwalk1
    refine h.no_late_pivot ?_
    cases he : (pivotRefs highTs lowTs ⟨some h₀, some l₀⟩ (pre ++ [c])).event c with
    | none =>
        -- the event is dated at `c`, what follows is dated later
        rw [he, Option.toList_none, List.nil_append] at hwalk1
        obtain ⟨d, hd, hts⟩ := bosWalk_timestamp (e := breakEvent h₀ l₀ c)
          (by rw [hwalk1]; exact List.mem_singleton.mpr rfl)
        have hlt : c.timestamp < d.timestamp :=
          (List.pairwise_cons.mp (List.pairwise_append.mp h.chronological).2.1).1 d hd
        rw [breakEvent_timestamp] at hts
        omega
    | some e =>
        rw [he, Option.toList_some, List.singleton_append, List.cons.injEq] at hwalk1
        rw [hwalk1.1]
  · intro hno
    have hsame : pivotRefs highTs lowTs ⟨some h₀, some l₀⟩ (pre ++ [c]) =
        ⟨some h₀, some l₀⟩ :=
      BosRefs.ext (pivotRefs_high_of_none fun d hd => (hno d hd).1)
        (pivotRefs_low_of_none fun d hd => (hno d hd).2)
    have hev := event_of_breaks (h.high_earlier h₀ rfl c (by simp))
      (h.low_earlier l₀ rfl c (by simp)) hb
    have hrest : TailWalk highTs lowTs {} post := by
      have hassoc : pre ++ c :: post = (pre ++ [c]) ++ post := by simp
      rw [hassoc] at h
      exact h.suffix
    rw [hsame, hev, bosStep_of_some (hrefs.symm ▸ hsame.symm ▸ hev), hrest.nil_of_no_refs]
    rfl

/-- Late pivots leave the events of the tail alone exactly when the tail is settled. -/
theorem TailWalk.settled_iff (h : TailWalk highTs lowTs r tail) :
    bosWalk highTs lowTs r tail = bosWalk [] [] r tail ↔ TailSettled highTs lowTs r tail := by
  obtain ⟨high, low⟩ := r
  cases high with
  | none =>
      cases low with
      | none => exact ⟨fun _ => trivial, fun _ => by rw [h.nil_of_no_refs, h.of_nil.nil_of_no_refs]⟩
      | some l => rw [h.of_nil.nil_of_missing (Or.inl rfl), h.nil_iff_of_low]
  | some h₀ =>
      cases low with
      | none => rw [h.of_nil.nil_of_missing (Or.inr rfl), h.nil_iff_of_high]
      | some l₀ =>
          constructor
          · rintro heq pre c post rfl hb hpre
            have hbase := (h.of_nil.eq_breakEvent_iff hb hpre).mpr (by simp)
            exact (h.eq_breakEvent_iff hb hpre).mp (heq.trans hbase)
          · intro hset
            cases hfirst : tail.find? (fun c => decide (Breaks h₀ l₀ c)) with
            | none =>
                have hun : ∀ d ∈ tail, ¬ Breaks h₀ l₀ d := by simpa using hfirst
                rw [h.nil_of_unbroken hun, h.of_nil.nil_of_unbroken hun]
            | some c =>
                obtain ⟨hb, pre, post, rfl, hpre⟩ := List.find?_eq_some_iff_append.mp hfirst
                have hb : Breaks h₀ l₀ c := of_decide_eq_true hb
                have hpre : ∀ d ∈ pre, ¬ Breaks h₀ l₀ d := by simpa using hpre
                rw [(h.of_nil.eq_breakEvent_iff hb hpre).mpr (by simp)]
                exact (h.eq_breakEvent_iff hb hpre).mpr (hset pre c post rfl hb hpre)

/-! ## The list and its extension -/

section Extension

variable {cs ext : List Candle} {pivotBars : ℕ}

theorem bosHead_append_bosTail (cs : List Candle) (pivotBars : ℕ) :
    bosHead cs pivotBars ++ bosTail cs pivotBars = cs :=
  List.take_append_drop _ _

/-- On the head, the pivots of the list and of the extension are the same. -/
theorem samePivots_of_head (hs : Chronological (cs ++ ext)) (hc : c ∈ bosHead cs pivotBars) :
    SamePivots (pivotHighTs (cs ++ ext) pivotBars) (pivotLowTs (cs ++ ext) pivotBars)
      (pivotHighTs cs pivotBars) (pivotLowTs cs pivotBars) c := by
  obtain ⟨pre, mid, hhead⟩ := List.append_of_mem hc
  have hcs : cs = pre ++ c :: (mid ++ bosTail cs pivotBars) := by
    conv_lhs => rw [← bosHead_append_bosTail cs pivotBars, hhead]
    simp
  have hlen : pivotBars ≤ (mid ++ bosTail cs pivotBars).length := by
    have h1 : (bosHead cs pivotBars).length = cs.length - pivotBars := by simp [bosHead]
    rw [hhead, List.length_append, List.length_cons] at h1
    have h2 : (bosTail cs pivotBars).length = cs.length - (cs.length - pivotBars) := by
      simp [bosTail]
    rw [List.length_append]
    omega
  generalize mid ++ bosTail cs pivotBars = post at hcs hlen
  subst hcs
  exact ⟨pivotTs_extend_of_head hs hlen, pivotTs_extend_of_head hs hlen⟩

/-- A candle of the tail has fewer than `pivotBars` candles after it. -/
theorem bosTail_split {pre post : List Candle} (htail : bosTail cs pivotBars = pre ++ c :: post) :
    post.length < pivotBars := by
  have h : (bosTail cs pivotBars).length = cs.length - (cs.length - pivotBars) := by
    simp [bosTail]
  rw [htail, List.length_append, List.length_cons] at h
  omega

theorem cs_split {pre post : List Candle} (htail : bosTail cs pivotBars = pre ++ c :: post) :
    cs = bosHead cs pivotBars ++ pre ++ c :: post := by
  rw [List.append_assoc, ← htail, bosHead_append_bosTail]

/-- On the tail, the list itself has no pivots. -/
theorem samePivots_of_tail (hs : Chronological cs) (hc : c ∈ bosTail cs pivotBars) :
    SamePivots (pivotHighTs cs pivotBars) (pivotLowTs cs pivotBars) [] [] c := by
  obtain ⟨pre, post, htail⟩ := List.append_of_mem hc
  have hlt := bosTail_split htail
  have hcs := cs_split htail
  generalize bosHead cs pivotBars ++ pre = before at hcs
  subst hcs
  have h1 : c.timestamp ∉ pivotHighTs (before ++ c :: post) pivotBars := pivotTs_of_tail hs hlt
  have h2 : c.timestamp ∉ pivotLowTs (before ++ c :: post) pivotBars := pivotTs_of_tail hs hlt
  exact ⟨by simpa using h1, by simpa using h2⟩

theorem pairwise_of_splits {R : Candle → Candle → Prop} {xs : List Candle}
    (h : ∀ pre c post, xs = pre ++ c :: post → ∀ d ∈ post, R c d) : xs.Pairwise R := by
  induction xs with
  | nil => exact List.Pairwise.nil
  | cons x xs ih =>
      refine List.pairwise_cons.mpr ⟨h [] x xs rfl, ih (fun pre c post heq => ?_)⟩
      exact h (x :: pre) c post (by rw [heq]; rfl)

/-- The tail under the extension's pivots and the references before it. -/
theorem tailWalk_of_extension (pivotBars : ℕ) (hs : Chronological (cs ++ ext))
    (hohlc : ∀ c ∈ cs, c.OhlcConsistent) :
    TailWalk (pivotHighTs (cs ++ ext) pivotBars) (pivotLowTs (cs ++ ext) pivotBars)
      (refsBeforeTail cs pivotBars) (bosTail cs pivotBars) := by
  have hs₀ : Chronological cs := (List.pairwise_append.mp hs).1
  have hsplit := hs₀
  rw [← bosHead_append_bosTail cs pivotBars] at hsplit
  obtain ⟨_, htail, hcross⟩ := List.pairwise_append.mp hsplit
  have hrefs := bosRefs_mem (pivotHighTs cs pivotBars) (pivotLowTs cs pivotBars) {}
    (bosHead cs pivotBars)
  refine ⟨htail, fun c hc => hohlc c (List.mem_of_mem_drop hc), ?_, ?_, ?_⟩
  · refine pairwise_of_splits fun pre c post heq d hd => ?_
    have hlt := bosTail_split heq
    have hcs := cs_split heq
    generalize bosHead cs pivotBars ++ pre = before at hcs
    subst hcs
    exact ⟨fun hts => of_decide_eq_true (beats_of_late_pivot hs hlt hts d hd),
      fun hts => of_decide_eq_true (beats_of_late_pivot hs hlt hts d hd)⟩
  · intro h hh c hc
    rcases hrefs.1 h hh with hmem | hnone
    · exact hcross h hmem c hc
    · cases hnone
  · intro l hl c hc
    rcases hrefs.2 l hl with hmem | hnone
    · exact hcross l hmem c hc
    · cases hnone

/-- Keeping the events is walking `cs` alike under both lists' pivots. -/
theorem noRepaint_iff_walk (hs : Chronological (cs ++ ext)) :
    NoRepaint cs ext pivotBars ↔
      bosWalk (pivotHighTs (cs ++ ext) pivotBars) (pivotLowTs (cs ++ ext) pivotBars) {} cs =
        detectBosEvents cs pivotBars := by
  have hcross := (List.pairwise_append.mp hs).2.2
  rw [NoRepaint, detectBosEvents, bosWalk_append]
  generalize hw : bosWalk (pivotHighTs (cs ++ ext) pivotBars) (pivotLowTs (cs ++ ext) pivotBars)
    {} cs = w
  generalize hv : bosWalk (pivotHighTs (cs ++ ext) pivotBars) (pivotLowTs (cs ++ ext) pivotBars)
    (bosRefs (pivotHighTs (cs ++ ext) pivotBars) (pivotLowTs (cs ++ ext) pivotBars) {} cs) ext = v
  have hwts : ∀ e ∈ w, ∃ c ∈ cs, e.timestamp = c.timestamp :=
    fun e he => bosWalk_timestamp (hw.symm ▸ he)
  have hvts : ∀ e ∈ v, ∀ c ∈ cs, c.timestamp < e.timestamp := by
    intro e he c hc
    obtain ⟨d, hd, heq⟩ := bosWalk_timestamp (hv.symm ▸ he)
    rw [heq]
    exact hcross c hc d hd
  constructor
  · rintro ⟨new, heq, hnew⟩
    -- whatever one list has beyond the other would be dated both in `cs` and after it
    rcases List.append_eq_append_iff.mp heq with ⟨xs, hxs, hv'⟩ | ⟨xs, hxs, hnew'⟩
    · cases xs with
      | nil => rw [hxs, List.append_nil]
      | cons x xs =>
          have hx : x ∈ detectBosEvents cs pivotBars := by rw [hxs]; simp
          obtain ⟨c, hc, hts⟩ := bosWalk_timestamp hx
          have := hvts x (by rw [hv']; simp) c hc
          omega
    · cases xs with
      | nil => rw [hxs, List.append_nil]
      | cons x xs =>
          obtain ⟨c, hc, hts⟩ := hwts x (by rw [hxs]; simp)
          have := hnew x (by rw [hnew']; simp) c hc
          omega
  · intro heq
    exact ⟨v, by rw [heq], hvts⟩

/-- **When detection does not repaint**: exactly when no pivot confirmed late, among the last
    `pivotBars` candles, gets in the way of the references held before them. -/
theorem noRepaint_iff (cs ext : List Candle) (pivotBars : ℕ) (hs : Chronological (cs ++ ext))
    (hohlc : ∀ c ∈ cs ++ ext, c.OhlcConsistent) :
    NoRepaint cs ext pivotBars ↔
      TailSettled (pivotHighTs (cs ++ ext) pivotBars) (pivotLowTs (cs ++ ext) pivotBars)
        (refsBeforeTail cs pivotBars) (bosTail cs pivotBars) := by
  have hs₀ : Chronological cs := (List.pairwise_append.mp hs).1
  have hhead := fun c (hc : c ∈ bosHead cs pivotBars) => samePivots_of_head hs hc
  have htail := fun c (hc : c ∈ bosTail cs pivotBars) => samePivots_of_tail hs₀ hc
  have hwalk := tailWalk_of_extension pivotBars hs
    (fun c hc => hohlc c (List.mem_append_left _ hc))
  rw [noRepaint_iff_walk hs, detectBosEvents, ← hwalk.settled_iff]
  have hsplit := fun highTs lowTs => bosWalk_append highTs lowTs {}
    (bosHead cs pivotBars) (bosTail cs pivotBars)
  rw [bosHead_append_bosTail] at hsplit
  rw [hsplit, hsplit, bosWalk_congr hhead, bosRefs_congr hhead, List.append_cancel_left_eq,
    bosWalk_congr htail]
  exact Iff.rfl

end Extension

/-! ## A break that disappears -/

/-- A low, a high, and a last candle that closes above the high. -/
def breakout : List Candle :=
  [⟨0, 10, 11, 9, 10, 0⟩, ⟨1, 10, 21 / 2, 7, 9, 0⟩, ⟨2, 9, 13, 8, 12, 0⟩, ⟨3, 11, 12, 10, 11, 0⟩,
    ⟨4, 11, 15, 10, 14, 0⟩]

/-- One candle more that stays below the last high: the breaking candle becomes a pivot high,
    replaces the high it broke, and its event is gone. -/
theorem breakout_repaints :
    ¬ ∀ (cs ext : List Candle) (pivotBars : ℕ), 1 ≤ pivotBars → Chronological (cs ++ ext) →
      (∀ c ∈ cs ++ ext, c.OhlcConsistent) → NoRepaint cs ext pivotBars := by
  intro h
  obtain ⟨new, heq, _⟩ := h breakout [⟨5, 14, 14, 11, 12, 0⟩] 1 le_rfl
    (by unfold Chronological; decide +kernel) (by decide +kernel)
  have hafter : detectBosEvents (breakout ++ [⟨5, 14, 14, 11, 12, 0⟩]) 1 = [] := by
    decide +kernel
  have hbefore : (detectBosEvents breakout 1).length = 1 := by decide +kernel
  have hlen := congrArg List.length heq
  rw [hafter, List.length_append, hbefore, List.length_nil] at hlen
  omega

/-- One candle more that goes on above the last high leaves the event as it is. -/
theorem breakout_continued : NoRepaint breakout [⟨5, 14, 16, 12, 15, 0⟩] 1 := by
  refine (noRepaint_iff breakout [⟨5, 14, 16, 12, 15, 0⟩] 1
    (by unfold Chronological; decide +kernel) (by decide +kernel)).mpr ?_
  have hrefs : refsBeforeTail breakout 1 =
      ⟨some ⟨2, 9, 13, 8, 12, 0⟩, some ⟨1, 10, 21 / 2, 7, 9, 0⟩⟩ := by decide +kernel
  have hnone : ∀ d ∈ bosTail breakout 1,
      d.timestamp ∉ pivotHighTs (breakout ++ [⟨5, 14, 16, 12, 15, 0⟩]) 1 ∧
        d.timestamp ∉ pivotLowTs (breakout ++ [⟨5, 14, 16, 12, 15, 0⟩]) 1 := by decide +kernel
  rw [hrefs]
  intro pre c post heq _ _ d hd
  refine hnone d ?_
  rw [heq]
  simp only [List.mem_append, List.mem_cons] at hd ⊢
  tauto

end SignalEngine
