/-
  Layering: the configuration files merged into one, and the settings read from it.

  Model. A configuration is a dict of layers whose keys are distinct; keys are of any type `κ`
  into which the parts of a dotted path go, values that are no dicts of any type `ν`.
  `deepMerge` and `getCfg` compute on these values. `mergeObjects` is `_deep_merge` on a heap of
  dict objects: `base.copy()` is a new object, and every assignment goes to it. It is given a
  recursion limit, which a file nested less deep does not reach.

  Proved: what is read under a path of the merged configuration, for every kind of conflict on
  the way, from the laws of `Lib.Layers`; the object `mergeObjects` returns reads as the merge of
  the two (`mergeObjects_reads`), and no object that was there is written to.
-/
import SignalEngine.Lib.Layers

namespace SignalEngine

open Lib

variable {κ ν : Type}

/-! ## Configurations -/

/-- A nested dict. -/
structure Config (κ ν : Type) where
  entries : List (κ × Layer κ ν)
  distinct : (Layer.node entries).Distinct

/-- `{}`. -/
def Config.empty : Config κ ν := ⟨[], Layer.distinct_nil⟩

@[ext] theorem Config.ext {c c' : Config κ ν} (h : c.entries = c'.entries) : c = c' := by
  cases c
  cases c'
  cases h
  rfl

/-! ## Dict objects -/

/-- What a dict object holds under a key: a value, or the address of another dict. -/
inductive Slot (ν : Type) where
  | value (v : ν)
  | ref (addr : ℕ)

abbrev DictObject (κ ν : Type) := List (κ × Slot ν)

abbrev DictHeap (κ ν : Type) := List (DictObject κ ν)

mutual

/-- The layer that a slot stands for, read from objects that are `ok`. -/
def ReadsIn (h : DictHeap κ ν) (ok : ℕ → Prop) : Layer κ ν → Slot ν → Prop
  | .leaf v, s => s = .value v
  | .node es, s => ∃ a obj, s = .ref a ∧ ok a ∧ h[a]? = some obj ∧ ItemsIn h ok es obj

def ItemsIn (h : DictHeap κ ν) (ok : ℕ → Prop) :
    List (κ × Layer κ ν) → DictObject κ ν → Prop
  | [], obj => obj = []
  | (k, t) :: es, obj => ∃ s rest, obj = (k, s) :: rest ∧ ReadsIn h ok t s ∧ ItemsIn h ok es rest

end

/-- The dict object at an address reads as the configuration. -/
def ReadsAs (h : DictHeap κ ν) (c : Config κ ν) (a : ℕ) : Prop :=
  ReadsIn h (fun b => b < h.length) (.node c.entries) (.ref a)

variable {h h' : DictHeap κ ν} {ok ok' : ℕ → Prop}

mutual

/-- A layer reads the same as long as the objects it is read from are there. -/
theorem ReadsIn.mono (hobj : ∀ a obj, ok a → h[a]? = some obj → ok' a ∧ h'[a]? = some obj) :
    ∀ (t : Layer κ ν) (s : Slot ν), ReadsIn h ok t s → ReadsIn h' ok' t s
  | .leaf _, _, hr => hr
  | .node es, _, ⟨a, obj, hs, ha, hget, hitems⟩ =>
      ⟨a, obj, hs, (hobj a obj ha hget).1, (hobj a obj ha hget).2,
        ItemsIn.mono hobj es obj hitems⟩

theorem ItemsIn.mono (hobj : ∀ a obj, ok a → h[a]? = some obj → ok' a ∧ h'[a]? = some obj) :
    ∀ (es : List (κ × Layer κ ν)) (obj : DictObject κ ν),
      ItemsIn h ok es obj → ItemsIn h' ok' es obj
  | [], _, hr => hr
  | (_, t) :: es, _, ⟨s, rest, hobj', ht, hes⟩ =>
      ⟨s, rest, hobj', ReadsIn.mono hobj t s ht, ItemsIn.mono hobj es rest hes⟩

end

/-- Every object is there as it was. -/
def Kept (h h' : DictHeap κ ν) : Prop := ∀ (a : ℕ) obj, h[a]? = some obj → h'[a]? = some obj

theorem lt_of_getElem? {obj : DictObject κ ν} {a : ℕ} (hget : h[a]? = some obj) : a < h.length :=
  (List.getElem?_eq_some_iff.mp hget).1

/-- A dict that was there reads as before. -/
theorem ReadsAs.kept {c : Config κ ν} {a : ℕ} (hread : ReadsAs h c a) (hkept : Kept h h') :
    ReadsAs h' c a :=
  ReadsIn.mono (fun b obj _ hget => ⟨lt_of_getElem? (hkept b obj hget), hkept b obj hget⟩) _ _ hread

/-! ## Recursion limits -/

/-- The nesting of dicts is at most `limit`. -/
def Within : ℕ → Layer κ ν → Prop
  | _, .leaf _ => True
  | 0, .node _ => False
  | limit + 1, .node es => ∀ e ∈ es, Within limit e.2

theorem Within.mono {limit limit' : ℕ} (hle : limit ≤ limit') {t : Layer κ ν}
    (ht : Within limit t) : Within limit' t := by
  induction limit generalizing limit' t with
  | zero =>
      cases t with
      | leaf value => cases limit' <;> trivial
      | node es => exact ht.elim
  | succ limit ih =>
      obtain ⟨n, rfl⟩ := Nat.exists_eq_succ_of_ne_zero (show limit' ≠ 0 by omega)
      cases t with
      | leaf value => trivial
      | node es => exact fun e he => ih (Nat.le_of_succ_le_succ hle) (ht e he)

/-- No dict is nested without end. -/
theorem exists_within {t : Layer κ ν} (ht : t.Distinct) : ∃ limit, Within limit t := by
  induction ht with
  | leaf value => exact ⟨0, trivial⟩
  | @node es _ _ ih =>
      have hall : ∃ limit, ∀ e ∈ es, Within limit e.2 := by
        clear * - ih
        induction es with
        | nil => exact ⟨0, fun _ h => absurd h List.not_mem_nil⟩
        | cons e es ihes =>
            obtain ⟨n, hn⟩ := ih e List.mem_cons_self
            obtain ⟨m, hm⟩ := ihes fun e he => ih e (List.mem_cons_of_mem _ he)
            refine ⟨max n m, List.forall_mem_cons.mpr ⟨hn.mono (le_max_left n m), fun e he => ?_⟩⟩
            exact (hm e he).mono (le_max_right n m)
      obtain ⟨limit, hlimit⟩ := hall
      exact ⟨limit + 1, hlimit⟩

/-! ## The functions -/

variable [DecidableEq κ]

/-- `_deep_merge`. -/
def deepMerge (base override : Config κ ν) : Config κ ν where
  entries := Layer.merge base.entries override.entries
  distinct := Layer.distinct_merge base.distinct override.distinct

/-- The loop of `_get`. -/
def getParts (cur : Layer κ ν) (parts : List κ) (default : Layer κ ν) : Layer κ ν :=
  match parts with
  | [] => cur
  | p :: ps =>
      match cur with
      | .leaf _ => default
      | .node es =>
          match Layer.entry p es with
          | none => default
          | some t => getParts t ps default

/-- `key.split(".")`. -/
def dottedParts (ofStr : String → κ) (key : String) : List κ := (key.splitOn ".").map ofStr

/-- `_get`. -/
def getCfg (ofStr : String → κ) (data : Config κ ν) (key : String) (default : Layer κ ν) :
    Layer κ ν :=
  getParts (.node data.entries) (dottedParts ofStr key) default

/-- What a configuration has at a path. -/
def Config.at? (c : Config κ ν) (path : List κ) : Option (Layer κ ν) :=
  (Layer.node c.entries).at? path

theorem getParts_eq (cur : Layer κ ν) (parts : List κ) (default : Layer κ ν) :
    getParts cur parts default = (cur.at? parts).getD default := by
  induction parts generalizing cur with
  | nil => rfl
  | cons p ps ih =>
      cases cur with
      | leaf value => rfl
      | node es =>
          rw [getParts, Layer.at?]
          cases Layer.entry p es with
          | none => rfl
          | some t => exact ih t

theorem getCfg_eq (ofStr : String → κ) (data : Config κ ν) (key : String)
    (default : Layer κ ν) :
    getCfg ofStr data key default = (data.at? (dottedParts ofStr key)).getD default :=
  getParts_eq _ _ _

theorem deepMerge_entries (base override : Config κ ν) :
    Layer.node (deepMerge base override).entries =
      Layer.overlay (some (.node base.entries)) (.node override.entries) := by
  rw [Layer.overlay]
  rfl

/-- `d.get(key)`. -/
def slotOf (key : κ) (obj : DictObject κ ν) : Option (Slot ν) :=
  (lookup Prod.fst key obj).map Prod.snd

/-- `result[key] = s`. -/
def setItem (h : DictHeap κ ν) (r : ℕ) (key : κ) (s : Slot ν) : DictHeap κ ν :=
  h.modify r (put Prod.fst (key, s))

/-- The body of the loop; `merge` is `_deep_merge` itself. -/
def mergeItem (merge : DictHeap κ ν → ℕ → ℕ → Option (DictHeap κ ν × ℕ)) (result : ℕ)
    (h : DictHeap κ ν) (item : κ × Slot ν) : Option (DictHeap κ ν) :=
  match (h[result]?).bind (slotOf item.1), item.2 with
  | some (.ref c), .ref d =>
      (merge h c d).map fun out => setItem out.1 result item.1 (.ref out.2)
  | _, val => some (setItem h result item.1 val)

/-- `_deep_merge` on addresses. -/
def mergeObjects : ℕ → DictHeap κ ν → ℕ → ℕ → Option (DictHeap κ ν × ℕ)
  | 0, _, _, _ => none
  | limit + 1, h, base, override =>
      match h[base]?, h[override]? with
      | some bs, some os =>
          -- result = base.copy()
          (os.foldlM (mergeItem (mergeObjects limit) h.length) (h ++ [bs])).map fun h' =>
            (h', h.length)
      | _, _ => none

/-! ## Objects and layers -/

theorem slotOf_cons (key : κ) (e : κ × Slot ν) (obj : DictObject κ ν) :
    slotOf key (e :: obj) = if e.1 = key then some e.2 else slotOf key obj := by
  unfold slotOf lookup
  by_cases he : e.1 = key <;> simp [he]

/-- A key is in the object where it is in the dict, and its slot reads as the layer there. -/
theorem ItemsIn.slotOf {es : List (κ × Layer κ ν)} {obj : DictObject κ ν}
    (hitems : ItemsIn h ok es obj) (key : κ) :
    Option.Rel (ReadsIn h ok) (Layer.entry key es) (slotOf key obj) := by
  induction es generalizing obj with
  | nil =>
      cases hitems
      exact .none
  | cons e es ih =>
      obtain ⟨k, t⟩ := e
      obtain ⟨s, rest, rfl, ht, hes⟩ := hitems
      rw [Layer.entry_cons, slotOf_cons]
      split_ifs
      · exact .some ht
      · exact ih hes

/-- Writing under a key. -/
theorem ItemsIn.put {es : List (κ × Layer κ ν)} {obj : DictObject κ ν}
    (hitems : ItemsIn h ok es obj) {key : κ} {t : Layer κ ν} {s : Slot ν}
    (ht : ReadsIn h ok t s) :
    ItemsIn h ok (put Prod.fst (key, t) es) (put Prod.fst (key, s) obj) := by
  induction es generalizing obj with
  | nil =>
      cases hitems
      exact ⟨s, [], rfl, ht, rfl⟩
  | cons e es ih =>
      obtain ⟨k, t'⟩ := e
      obtain ⟨s', rest, rfl, ht', hes⟩ := hitems
      unfold Lib.put upsert
      by_cases hk : k = key
      · rw [if_pos hk, if_pos hk]
        exact ⟨s, rest, rfl, ht, hes⟩
      · rw [if_neg hk, if_neg hk]
        exact ⟨s', _, rfl, ht', ih hes⟩

theorem getElem?_setItem_ne {r a : ℕ} (hne : r ≠ a) (key : κ) (s : Slot ν) :
    (setItem h r key s)[a]? = h[a]? :=
  List.getElem?_modify_ne _ h hne

theorem getElem?_setItem_self {r : ℕ} {obj : DictObject κ ν} (hget : h[r]? = some obj) (key : κ)
    (s : Slot ν) : (setItem h r key s)[r]? = some (put Prod.fst (key, s) obj) := by
  have hmod : (setItem h r key s)[r]? = h[r]?.map (put Prod.fst (key, s)) := by
    exact List.getElem?_modify_eq _ _ _
  rw [hmod, hget, Option.map_some]

/-- What a call that merges `bs` with `os` leaves behind. -/
structure MergedAt (h : DictHeap κ ν) (ok : ℕ → Prop) (bs os : List (κ × Layer κ ν))
    (out : DictHeap κ ν × ℕ) : Prop where
  fresh : h.length ≤ out.2
  kept : Kept h out.1
  reads : ReadsIn out.1 (fun a => ok a ∨ h.length ≤ a) (.node (Layer.merge bs os)) (.ref out.2)

/-- `merge` does so for any two objects, the upper one within the limit. -/
def Merges (limit : ℕ) (merge : DictHeap κ ν → ℕ → ℕ → Option (DictHeap κ ν × ℕ)) : Prop :=
  ∀ (h : DictHeap κ ν) (ok : ℕ → Prop) (base override : ℕ) (bs os : List (κ × Layer κ ν)),
    (∀ a, ok a → a < h.length) → ReadsIn h ok (.node bs) (.ref base) →
    ReadsIn h ok (.node os) (.ref override) → Within limit (.node os) →
    ∃ out, merge h base override = some out ∧ MergedAt h ok bs os out

/-- `result` while the loop runs: nothing refers to it, and what was there before is as it was. -/
structure Underway (h₀ : DictHeap κ ν) (ok : ℕ → Prop) (h : DictHeap κ ν)
    (es : List (κ × Layer κ ν)) (obj : DictObject κ ν) : Prop where
  kept : Kept h₀ h
  object : h[h₀.length]? = some obj
  items : ItemsIn h (fun a => ok a ∨ h₀.length < a) es obj

variable {h₀ : DictHeap κ ν} {es : List (κ × Layer κ ν)} {obj : DictObject κ ν}

/-- An assignment to `result`. -/
theorem Underway.setItem (hu : Underway h₀ ok h es obj) (hok : ∀ a, ok a → a < h₀.length)
    {key : κ} {t : Layer κ ν} {s : Slot ν}
    (ht : ReadsIn h (fun a => ok a ∨ h₀.length < a) t s) :
    Underway h₀ ok (setItem h h₀.length key s) (put Prod.fst (key, t) es)
      (put Prod.fst (key, s) obj) where
  kept := fun a o hget => by
    rw [getElem?_setItem_ne (lt_of_getElem? hget).ne']
    exact hu.kept a o hget
  object := getElem?_setItem_self hu.object key s
  items := by
    refine ItemsIn.mono (fun a o ha hget => ⟨ha, ?_⟩) _ _ (hu.items.put ht)
    have hne : h₀.length ≠ a := by
      rcases ha with ha | ha
      · exact (hok a ha).ne'
      · exact ha.ne
    rw [getElem?_setItem_ne hne, hget]

/-- A key that is no dict on both sides: the slot of the override is taken. -/
theorem Underway.replace {merge : DictHeap κ ν → ℕ → ℕ → Option (DictHeap κ ν × ℕ)}
    (hu : Underway h₀ ok h es obj) (hok : ∀ a, ok a → a < h₀.length) {key : κ} {t : Layer κ ν}
    {s : Slot ν} (ht : ReadsIn h (fun a => ok a ∨ h₀.length < a) t s)
    (hoverlay : Layer.overlay (Layer.entry key es) t = t)
    (hitem : mergeItem merge h₀.length h (key, s) = some (SignalEngine.setItem h h₀.length key s)) :
    ∃ h' obj', mergeItem merge h₀.length h (key, s) = some h' ∧
      Underway h₀ ok h' (put Prod.fst (key, Layer.overlay (Layer.entry key es) t) es) obj' := by
  rw [hoverlay]
  exact ⟨_, _, hitem, hu.setItem hok ht⟩

/-- A key that is a dict on both sides: the nested call makes a new object. -/
theorem Underway.nest {limit : ℕ}
    {merge : DictHeap κ ν → ℕ → ℕ → Option (DictHeap κ ν × ℕ)} (hmerge : Merges limit merge)
    (hu : Underway h₀ ok h es obj) (hok : ∀ a, ok a → a < h₀.length) (key : κ)
    {cs ds : List (κ × Layer κ ν)} {c d : ℕ}
    (hc : ReadsIn h (fun a => ok a ∨ h₀.length < a) (.node cs) (.ref c))
    (hd : ReadsIn h (fun a => ok a ∨ h₀.length < a) (.node ds) (.ref d))
    (hlimit : Within limit (.node ds)) :
    ∃ out, merge h c d = some out ∧
      Underway h₀ ok (SignalEngine.setItem out.1 h₀.length key (.ref out.2))
        (put Prod.fst (key, .node (Layer.merge cs ds)) es)
        (put Prod.fst (key, .ref out.2) obj) := by
  have hin : ∀ (t : Layer κ ν) s, ReadsIn h (fun a => ok a ∨ h₀.length < a) t s →
      ReadsIn h (fun a => (ok a ∨ h₀.length < a) ∧ a < h.length) t s :=
    ReadsIn.mono fun a o ha hget => ⟨⟨ha, lt_of_getElem? hget⟩, hget⟩
  obtain ⟨out, hout, hmerged⟩ := hmerge h _ c d cs ds (fun a ha => ha.2) (hin _ _ hc)
    (hin _ _ hd) hlimit
  have hr : h₀.length < h.length := lt_of_getElem? hu.object
  have hunder : Underway h₀ ok out.1 es obj :=
    { kept := fun a o hget => hmerged.kept a o (hu.kept a o hget)
      object := hmerged.kept _ _ hu.object
      items := ItemsIn.mono (fun a o ha hget => ⟨ha, hmerged.kept a o hget⟩) _ _ hu.items }
  have hreads : ReadsIn out.1 (fun a => ok a ∨ h₀.length < a) (.node (Layer.merge cs ds))
      (.ref out.2) :=
    ReadsIn.mono (fun a o ha hget =>
      ⟨ha.elim (fun ha => ha.1) fun ha => Or.inr (hr.trans_le ha), hget⟩) _ _ hmerged.reads
  exact ⟨out, hout, hunder.setItem hok hreads⟩

/-- One item of the override. -/
theorem Underway.mergeItem {limit : ℕ}
    {merge : DictHeap κ ν → ℕ → ℕ → Option (DictHeap κ ν × ℕ)} (hmerge : Merges limit merge)
    (hu : Underway h₀ ok h es obj) (hok : ∀ a, ok a → a < h₀.length) (key : κ) {t : Layer κ ν}
    {s : Slot ν} (ht : ReadsIn h₀ ok t s) (hlimit : Within limit t) :
    ∃ h' obj', mergeItem merge h₀.length h (key, s) = some h' ∧
      Underway h₀ ok h' (put Prod.fst (key, Layer.overlay (Layer.entry key es) t) es) obj' := by
  have hnow : ReadsIn h (fun a => ok a ∨ h₀.length < a) t s :=
    ReadsIn.mono (fun a o ha hget => ⟨Or.inl ha, hu.kept a o hget⟩) _ _ ht
  have hslot : (h[h₀.length]?).bind (slotOf key) = slotOf key obj := by
    rw [hu.object, Option.bind_some]
  have hrel := hu.items.slotOf key
  cases t with
  | leaf value =>
      cases ht
      refine hu.replace hok hnow (by simp only [Layer.overlay]) ?_
      rw [SignalEngine.mergeItem, hslot]
      rcases slotOf key obj with - | - | - <;> rfl
  | node ds =>
      obtain ⟨d, -, rfl, -⟩ := id ht
      cases hentry : Layer.entry key es with
      | none =>
          rw [hentry] at hrel
          cases hs : slotOf key obj with
          | some s => rw [hs] at hrel; cases hrel
          | none =>
              rw [← hentry]
              refine hu.replace hok hnow (by rw [hentry, Layer.overlay_none]) ?_
              rw [SignalEngine.mergeItem, hslot, hs]
      | some l =>
          rw [hentry] at hrel
          cases hs : slotOf key obj with
          | none => rw [hs] at hrel; cases hrel
          | some s =>
              rw [hs] at hrel
              cases hrel with
              | some hl =>
                  cases l with
                  | leaf value =>
                      cases hl
                      rw [← hentry]
                      refine hu.replace hok hnow (by rw [hentry]; simp only [Layer.overlay]) ?_
                      rw [SignalEngine.mergeItem, hslot, hs]
                  | node cs =>
                      obtain ⟨c, -, rfl, -⟩ := id hl
                      obtain ⟨out, hout, hu'⟩ := hu.nest hmerge hok key hl hnow hlimit
                      refine ⟨_, _, ?_, by rw [Layer.overlay]; exact hu'⟩
                      rw [SignalEngine.mergeItem, hslot, hs]
                      show (merge h c d).map _ = _
                      rw [hout, Option.map_some]

/-- The items of the override, one after the other. -/
theorem Underway.foldlM {limit : ℕ}
    {merge : DictHeap κ ν → ℕ → ℕ → Option (DictHeap κ ν × ℕ)} (hmerge : Merges limit merge)
    (hok : ∀ a, ok a → a < h₀.length) {os : List (κ × Layer κ ν)} {items : DictObject κ ν}
    (hitems : ItemsIn h₀ ok os items) (hlimit : ∀ e ∈ os, Within limit e.2)
    (hu : Underway h₀ ok h es obj) :
    ∃ h' obj', items.foldlM (SignalEngine.mergeItem merge h₀.length) h = some h' ∧
      Underway h₀ ok h' (Layer.merge es os) obj' := by
  induction os generalizing items h es obj with
  | nil =>
      cases hitems
      exact ⟨h, obj, rfl, by rwa [Layer.merge]⟩
  | cons e os ih =>
      obtain ⟨k, t⟩ := e
      obtain ⟨s, rest, rfl, ht, hrest⟩ := hitems
      obtain ⟨hk, hlimit⟩ := List.forall_mem_cons.mp hlimit
      obtain ⟨h₁, obj₁, hstep, hu₁⟩ := hu.mergeItem hmerge hok k ht hk
      obtain ⟨h', obj', hfold, hu'⟩ := ih hrest hlimit hu₁
      refine ⟨h', obj', ?_, by rwa [Layer.merge]⟩
      rw [List.foldlM_cons, hstep]
      exact hfold

/-- A call within the limit returns a new object that reads as the merge. -/
theorem merges_mergeObjects (limit : ℕ) :
    Merges limit (mergeObjects limit : DictHeap κ ν → ℕ → ℕ → Option (DictHeap κ ν × ℕ)) := by
  induction limit with
  | zero => exact fun _ _ _ _ _ _ _ _ _ h => h.elim
  | succ limit ih =>
      intro h ok base override bs os hok hbase hoverride hlimit
      obtain ⟨b, bobj, hb, hokb, hgetb, hbs⟩ := hbase
      obtain ⟨o, oobj, ho, hoko, hgeto, hos⟩ := hoverride
      cases hb
      cases ho
      have hcopy : Underway h ok (h ++ [bobj]) bs bobj :=
        { kept := fun a obj hget => by
            rw [List.getElem?_append_left (lt_of_getElem? hget), hget]
          object := List.getElem?_concat_length
          items := ItemsIn.mono (fun a obj ha hget => ⟨Or.inl ha, by
            rw [List.getElem?_append_left (lt_of_getElem? hget), hget]⟩) _ _ hbs }
      obtain ⟨h', obj', hfold, hu⟩ := hcopy.foldlM ih hok hos hlimit
      refine ⟨(h', h.length), ?_, le_rfl, hu.kept, ?_⟩
      · simp only [mergeObjects, hgetb, hgeto, hfold, Option.map_some]
      · exact ⟨h.length, obj', rfl, Or.inr le_rfl, hu.object,
          ItemsIn.mono (fun a obj ha hget => ⟨ha.imp_right le_of_lt, hget⟩) _ _ hu.items⟩

/-- The objects of `base` and `override` stay as they are, and a new one reads as the merge. -/
theorem mergeObjects_reads {base override : Config κ ν} {b o : ℕ} (hb : ReadsAs h base b)
    (ho : ReadsAs h override o) :
    ∃ enough, ∀ limit, enough ≤ limit → ∃ h' r, mergeObjects limit h b o = some (h', r) ∧
      Kept h h' ∧ h.length ≤ r ∧ ReadsAs h' (deepMerge base override) r := by
  obtain ⟨enough, henough⟩ := exists_within override.distinct
  refine ⟨enough, fun limit hlimit => ?_⟩
  obtain ⟨⟨h', r⟩, hout, hmerged⟩ := merges_mergeObjects limit h _ b o base.entries
    override.entries (fun _ ha => ha) hb ho (henough.mono hlimit)
  exact ⟨h', r, hout, hmerged.kept, hmerged.fresh,
    ReadsIn.mono (fun a obj _ hget => ⟨lt_of_getElem? hget, hget⟩) _ _ hmerged.reads⟩

/-! ## The laws of layering -/

/-- What `_get` reads from a merge, by what the override has on the way. -/
structure Layered (ofStr : String → κ) (base ov : Config κ ν) (key : String)
    (default : Layer κ ν) : Prop where
  value : ∀ v, ov.at? (dottedParts ofStr key) = some (.leaf v) →
    getCfg ofStr (deepMerge base ov) key default = .leaf v
  absent : ov.at? (dottedParts ofStr key) = none →
    ¬ (Layer.node ov.entries).Blocks (dottedParts ofStr key) →
    getCfg ofStr (deepMerge base ov) key default = getCfg ofStr base key default
  blocked : (Layer.node ov.entries).Blocks (dottedParts ofStr key) →
    getCfg ofStr (deepMerge base ov) key default = default
  dicts : ∀ bs os, base.at? (dottedParts ofStr key) = some (.node bs) →
    ov.at? (dottedParts ofStr key) = some (.node os) →
    getCfg ofStr (deepMerge base ov) key default = .node (Layer.merge bs os)

theorem layered (ofStr : String → κ) (base ov : Config κ ν) (key : String)
    (default : Layer κ ν) : Layered ofStr base ov key default := by
  have hmerged : ∀ path, (deepMerge base ov).at? path =
      (Layer.overlay (some (.node base.entries)) (.node ov.entries)).at? path := by
    intro path
    rw [Config.at?, deepMerge_entries]
  constructor
  · intro v hv
    rw [getCfg_eq, hmerged, Layer.at?_overlay_of_some ov.distinct hv, Layer.overlay,
      Option.getD_some]
  · intro hnone hfree
    rw [getCfg_eq, getCfg_eq, hmerged, Layer.at?_overlay_of_none ov.distinct hnone hfree]
    rfl
  · intro hblocks
    rw [getCfg_eq, hmerged, Layer.at?_overlay_of_blocks ov.distinct hblocks, Option.getD_none]
  · intro bs os hbs hos
    rw [getCfg_eq, hmerged, Layer.at?_overlay_of_some ov.distinct hos, Option.bind_some,
      show (Layer.node base.entries).at? (dottedParts ofStr key) = some (.node bs) from hbs,
      Layer.overlay, Option.getD_some]

theorem deepMerge_empty (base : Config κ ν) : deepMerge base .empty = base := by
  ext1
  show Layer.merge base.entries [] = base.entries
  rw [Layer.merge]

theorem empty_deepMerge (ov : Config κ ν) : deepMerge .empty ov = ov := by
  ext1
  exact Layer.merge_nil_left ov.distinct.keys_nodup

theorem deepMerge_deepMerge (base ov : Config κ ν) :
    deepMerge (deepMerge base ov) ov = deepMerge base ov := by
  have h := Layer.overlay_overlay ov.distinct (some (.node base.entries))
  rw [← deepMerge_entries, ← deepMerge_entries] at h
  ext1
  exact (Layer.node.inj h)

/-- The override wins where it says something, and the base is only read. -/
theorem config_layering (ofStr : String → κ) (base ov : Config κ ν) :
    (∀ key default, Layered ofStr base ov key default) ∧
    (∀ (h : DictHeap κ ν) (b o : ℕ), ReadsAs h base b → ReadsAs h ov o →
      ∃ enough, ∀ limit, enough ≤ limit → ∃ h' r, mergeObjects limit h b o = some (h', r) ∧
        ReadsAs h' (deepMerge base ov) r ∧ ReadsAs h' base b ∧ Kept h h') ∧
    deepMerge base .empty = base ∧ deepMerge .empty ov = ov ∧
    deepMerge (deepMerge base ov) ov = deepMerge base ov := by
  refine ⟨layered ofStr base ov, fun h b o hb ho => ?_, deepMerge_empty base, empty_deepMerge ov,
    deepMerge_deepMerge base ov⟩
  obtain ⟨enough, henough⟩ := mergeObjects_reads hb ho
  refine ⟨enough, fun limit hlimit => ?_⟩
  obtain ⟨h', r, hout, hkept, -, hreads⟩ := henough limit hlimit
  exact ⟨h', r, hout, hreads, hb.kept hkept, hkept⟩

/-- `{"a": {"b": 1, "c": 2}}`. -/
def baseSample : Config String ℕ where
  entries := [("a", .node [("b", .leaf 1), ("c", .leaf 2)])]
  distinct := by
    refine .node (by decide) ?_
    rintro e (_ | ⟨_, ⟨⟩⟩)
    refine .node (by decide) ?_
    rintro e (_ | ⟨_, _ | ⟨_, ⟨⟩⟩⟩) <;> exact .leaf _

/-- `{"a": {"c": 3}}`. -/
def overrideSample : Config String ℕ where
  entries := [("a", .node [("c", .leaf 3)])]
  distinct := by
    refine .node (by decide) ?_
    rintro e (_ | ⟨_, ⟨⟩⟩)
    refine .node (by decide) ?_
    rintro e (_ | ⟨_, ⟨⟩⟩)
    exact .leaf _

/-- The objects of the two samples. -/
def heapSample : DictHeap String ℕ :=
  [[("b", .value 1), ("c", .value 2)], [("a", .ref 0)], [("c", .value 3)], [("a", .ref 2)]]

theorem baseSample_reads : ReadsAs heapSample baseSample 1 :=
  ⟨1, _, rfl, by decide, rfl, .ref 0, [], rfl,
    ⟨0, _, rfl, by decide, rfl, .value 1, _, rfl, rfl, .value 2, [], rfl, rfl, rfl⟩, rfl⟩

theorem overrideSample_reads : ReadsAs heapSample overrideSample 3 :=
  ⟨3, _, rfl, by decide, rfl, .ref 2, [], rfl,
    ⟨2, _, rfl, by decide, rfl, .value 3, [], rfl, rfl, rfl⟩, rfl⟩

theorem config_layering_sample :
    Layered id baseSample overrideSample "a.c" (.leaf 0) ∧
      ∃ enough, ∀ limit, enough ≤ limit → ∃ h' r,
        mergeObjects limit heapSample 1 3 = some (h', r) ∧
        ReadsAs h' (deepMerge baseSample overrideSample) r ∧ ReadsAs h' baseSample 1 ∧
        Kept heapSample h' :=
  have hlaws := config_layering id baseSample overrideSample
  ⟨hlaws.1 "a.c" (.leaf 0), hlaws.2.1 heapSample 1 3 baseSample_reads overrideSample_reads⟩

end SignalEngine
