/-
  Keyed tables: a list of rows in insertion order, read and written by a key.

  `upsert` overwrites the row of a key in place or appends a new one, `insertIgnore` keeps an
  old row, `erase` drops a key, `lookup` reads one. A dict is a table written by `put`, the
  upsert that keeps nothing of the old row; `overwrite` is a dict whose row was mutated.

  Proved: which keys each write leaves (`mem_keys_*`), which rows (`mem_overwrite`,
  `mem_erase`), what a lookup reads after it (`lookup_put`, `lookup_erase`), and that writes keep
  the keys distinct (`nodup_keys_*`).
-/
import Mathlib

namespace SignalEngine.Lib

universe u v

variable {κ : Type u} {ρ : Type v}

/-- The keys of a table, in row order. -/
def keys (key : ρ → κ) (rows : List ρ) : List κ := rows.map key

@[simp] theorem keys_nil {key : ρ → κ} : keys key [] = [] := rfl

@[simp] theorem keys_cons {key : ρ → κ} (x : ρ) (xs : List ρ) :
    keys key (x :: xs) = key x :: keys key xs := rfl

@[simp] theorem keys_append {key : ρ → κ} (xs ys : List ρ) :
    keys key (xs ++ ys) = keys key xs ++ keys key ys :=
  List.map_append

/-- A row with a new key leaves the keys distinct. -/
theorem nodup_keys_concat {key : ρ → κ} {r : ρ} {rows : List ρ} (h : (keys key rows).Nodup)
    (hr : key r ∉ keys key rows) : (keys key (rows ++ [r])).Nodup := by
  rw [keys_append, keys_cons, keys_nil]
  refine List.nodup_append.mpr ⟨h, List.nodup_singleton _, ?_⟩
  rintro a ha b hb rfl
  exact hr (List.mem_singleton.mp hb ▸ ha)

theorem mem_keys {key : ρ → κ} {k : κ} {rows : List ρ} :
    k ∈ keys key rows ↔ ∃ x ∈ rows, key x = k :=
  List.mem_map

variable [DecidableEq κ]

def lookup (key : ρ → κ) (k : κ) (rows : List ρ) : Option ρ :=
  rows.find? (fun r => decide (key r = k))

/-- Insert `r`; on a conflict the old row becomes `merge old r`. -/
def upsert (key : ρ → κ) (merge : ρ → ρ → ρ) (r : ρ) : List ρ → List ρ
  | [] => [r]
  | x :: xs => if key x = key r then merge x r :: xs else x :: upsert key merge r xs

def insertIgnore (key : ρ → κ) (r : ρ) (rows : List ρ) : List ρ :=
  if key r ∈ keys key rows then rows else rows ++ [r]

def erase (key : ρ → κ) (k : κ) (rows : List ρ) : List ρ :=
  rows.filter (fun r => decide (key r ≠ k))

variable {key : ρ → κ} {merge : ρ → ρ → ρ} {r : ρ} {k : κ} {rows : List ρ}

/-! ## Upsert -/

/-- An upsert of a new key appends the row. -/
theorem upsert_of_new (h : key r ∉ keys key rows) : upsert key merge r rows = rows ++ [r] := by
  induction rows with
  | nil => rfl
  | cons x xs ih =>
      rw [keys_cons, List.mem_cons, not_or] at h
      rw [upsert, if_neg (Ne.symm h.1), ih h.2]
      rfl

/-- An upsert of a known key leaves the list of keys alone. -/
theorem keys_upsert_of_mem (hmerge : ∀ x, key x = key r → key (merge x r) = key r)
    (h : key r ∈ keys key rows) : keys key (upsert key merge r rows) = keys key rows := by
  induction rows with
  | nil => cases h
  | cons x xs ih =>
      by_cases hx : key x = key r
      · rw [upsert, if_pos hx, keys_cons, keys_cons, hmerge x hx, hx]
      · have hxs : key r ∈ keys key xs := (List.mem_cons.mp h).resolve_left (Ne.symm hx)
        rw [upsert, if_neg hx, keys_cons, keys_cons, ih hxs]

theorem mem_keys_upsert (hmerge : ∀ x, key x = key r → key (merge x r) = key r) :
    k ∈ keys key (upsert key merge r rows) ↔ k = key r ∨ k ∈ keys key rows := by
  by_cases h : key r ∈ keys key rows
  · rw [keys_upsert_of_mem hmerge h]
    exact ⟨Or.inr, fun hk => hk.elim (fun heq => heq ▸ h) id⟩
  · rw [upsert_of_new h, keys_append, List.mem_append, keys_cons, keys_nil,
      List.mem_singleton]
    exact or_comm

/-- An upsert changes nothing that merging keeps. -/
theorem map_upsert_of_mem {β : Type*} {f : ρ → β}
    (h : ∀ x ∈ rows, key x = key r → f (merge x r) = f x) (hr : key r ∈ keys key rows) :
    (upsert key merge r rows).map f = rows.map f := by
  induction rows with
  | nil => cases hr
  | cons x xs ih =>
      by_cases hx : key x = key r
      · rw [upsert, if_pos hx, List.map_cons, List.map_cons, h x List.mem_cons_self hx]
      · have hxs : key r ∈ keys key xs := (List.mem_cons.mp hr).resolve_left (Ne.symm hx)
        rw [upsert, if_neg hx, List.map_cons, List.map_cons,
          ih (fun y hy => h y (List.mem_cons_of_mem _ hy)) hxs]

/-- A row of an upserted table is an old one or the merged one. -/
theorem mem_of_mem_upsert {x : ρ} (h : x ∈ upsert key merge r rows) :
    x = r ∨ x ∈ rows ∨ ∃ y ∈ rows, key y = key r ∧ x = merge y r := by
  induction rows with
  | nil => exact Or.inl (List.mem_singleton.mp h)
  | cons y ys ih =>
      rw [upsert] at h
      split at h
      · next hy =>
          rcases List.mem_cons.mp h with rfl | h
          · exact Or.inr (Or.inr ⟨y, List.mem_cons_self, hy, rfl⟩)
          · exact Or.inr (Or.inl (List.mem_cons_of_mem _ h))
      · rcases List.mem_cons.mp h with rfl | h
        · exact Or.inr (Or.inl List.mem_cons_self)
        · rcases ih h with h | h | ⟨w, hw, hk, heq⟩
          · exact Or.inl h
          · exact Or.inr (Or.inl (List.mem_cons_of_mem _ h))
          · exact Or.inr (Or.inr ⟨w, List.mem_cons_of_mem _ hw, hk, heq⟩)

/-- What an upsert puts in place of the old row is read back under its key. -/
theorem map_lookup_upsert {β : Type*} {f : ρ → β}
    (hmerge : ∀ x, key x = key r → key (merge x r) = key r) (hf : ∀ x, f (merge x r) = f r)
    (rows : List ρ) : (lookup key (key r) (upsert key merge r rows)).map f = some (f r) := by
  unfold lookup
  induction rows with
  | nil => simp [upsert]
  | cons y ys ih =>
      rw [upsert]
      split
      · next hy => simp [hmerge y hy, hf]
      · next hy => simpa [hy] using ih

theorem nodup_keys_upsert (hmerge : ∀ x, key x = key r → key (merge x r) = key r)
    (h : (keys key rows).Nodup) : (keys key (upsert key merge r rows)).Nodup := by
  by_cases hr : key r ∈ keys key rows
  · rwa [keys_upsert_of_mem hmerge hr]
  · rw [upsert_of_new hr]
    exact nodup_keys_concat h hr

/-! ## Dicts -/

/-- `d[key] = r`. -/
def put (key : ρ → κ) (r : ρ) (rows : List ρ) : List ρ :=
  upsert key (fun _ new => new) r rows

theorem put_of_new (h : key r ∉ keys key rows) : put key r rows = rows ++ [r] :=
  upsert_of_new h

theorem mem_keys_put : k ∈ keys key (put key r rows) ↔ k = key r ∨ k ∈ keys key rows :=
  mem_keys_upsert (fun _ _ => rfl)

theorem mem_of_mem_put {x : ρ} (h : x ∈ put key r rows) : x = r ∨ x ∈ rows := by
  rcases mem_of_mem_upsert h with h | h | ⟨y, -, -, h⟩
  · exact Or.inl h
  · exact Or.inr h
  · exact Or.inl h

/-- Replacing a row changes nothing that the rows of its key agree on. -/
theorem map_put_of_mem {β : Type*} {f : ρ → β} (h : ∀ x ∈ rows, key x = key r → f x = f r)
    (hr : key r ∈ keys key rows) : (put key r rows).map f = rows.map f :=
  map_upsert_of_mem (fun x hx hk => (h x hx hk).symm) hr

theorem nodup_keys_put (h : (keys key rows).Nodup) : (keys key (put key r rows)).Nodup :=
  nodup_keys_upsert (fun _ _ => rfl) h

/-! ## Rows mutated in place -/

/-- The row of `r`'s key, if there is one, becomes `r`. -/
def overwrite (key : ρ → κ) (r : ρ) (rows : List ρ) : List ρ :=
  rows.map (fun x => if key x = key r then r else x)

/-- Overwriting changes nothing that the rows of the key agree on. -/
theorem map_overwrite {β : Type*} {f : ρ → β} (h : ∀ x ∈ rows, key x = key r → f x = f r) :
    (overwrite key r rows).map f = rows.map f := by
  rw [overwrite, List.map_map]
  refine List.map_congr_left (fun x hx => ?_)
  dsimp only [Function.comp_apply]
  split
  · next heq => exact (h x hx heq).symm
  · rfl

@[simp] theorem keys_overwrite : keys key (overwrite key r rows) = keys key rows :=
  map_overwrite (fun _ _ heq => heq)

theorem mem_overwrite {x : ρ} (h : x ∈ overwrite key r rows) :
    (x = r ∧ key r ∈ keys key rows) ∨ (x ∈ rows ∧ key x ≠ key r) := by
  obtain ⟨y, hy, rfl⟩ := List.mem_map.mp h
  split
  · next heq => exact Or.inl ⟨rfl, heq ▸ List.mem_map_of_mem hy⟩
  · next hne => exact Or.inr ⟨hy, hne⟩

theorem mem_overwrite_self (h : key r ∈ keys key rows) : r ∈ overwrite key r rows := by
  obtain ⟨x, hx, heq⟩ := mem_keys.mp h
  exact List.mem_map.mpr ⟨x, hx, if_pos heq⟩

theorem mem_overwrite_of_ne {x : ρ} (hx : x ∈ rows) (hne : key x ≠ key r) :
    x ∈ overwrite key r rows :=
  List.mem_map.mpr ⟨x, hx, if_neg hne⟩

/-- The rows of other keys are the old ones. -/
theorem mem_overwrite_iff_of_ne {x : ρ} (hne : key x ≠ key r) :
    x ∈ overwrite key r rows ↔ x ∈ rows := by
  refine ⟨fun h => ?_, fun hx => mem_overwrite_of_ne hx hne⟩
  rcases mem_overwrite h with ⟨rfl, -⟩ | ⟨hx, -⟩
  · exact absurd rfl hne
  · exact hx

/-- The row of a key, where keys are distinct, is overwritten in its place. -/
theorem overwrite_between {x : ρ} {before rest : List ρ} (hk : key r = key x)
    (h : (keys key (before ++ x :: rest)).Nodup) :
    overwrite key r (before ++ x :: rest) = before ++ r :: rest := by
  rw [keys_append, keys_cons, List.nodup_append] at h
  obtain ⟨-, htail, hcross⟩ := h
  have hbefore : overwrite key r before = before := by
    refine (List.map_congr_left fun y hy => if_neg fun heq => ?_).trans (List.map_id before)
    exact hcross (key y) (List.mem_map_of_mem hy) (key x) List.mem_cons_self (heq.trans hk)
  have hrest : overwrite key r rest = rest := by
    refine (List.map_congr_left fun y hy => if_neg fun heq => ?_).trans (List.map_id rest)
    exact (List.nodup_cons.mp htail).1 (heq.trans hk ▸ List.mem_map_of_mem hy)
  rw [overwrite, List.map_append, List.map_cons, if_pos hk.symm]
  exact congrArg₂ _ hbefore (congrArg _ hrest)

/-! ## Insert or ignore -/

theorem mem_keys_insertIgnore :
    k ∈ keys key (insertIgnore key r rows) ↔ k = key r ∨ k ∈ keys key rows := by
  unfold insertIgnore
  split
  · next h => exact ⟨Or.inr, fun hk => hk.elim (fun heq => heq ▸ h) id⟩
  · rw [keys_append, List.mem_append, keys_cons, keys_nil, List.mem_singleton]
    exact or_comm

/-! ## Erase -/

theorem mem_erase {x : ρ} : x ∈ erase key k rows ↔ x ∈ rows ∧ key x ≠ k := by
  simp [erase]

/-- A row and the table without it, where keys are distinct. -/
theorem perm_cons_erase {x : ρ} (h : (keys key rows).Nodup) (hx : x ∈ rows) :
    rows.Perm (x :: erase key (key x) rows) := by
  have hnodup : (x :: erase key (key x) rows).Nodup :=
    List.nodup_cons.mpr ⟨fun hmem => (mem_erase.mp hmem).2 rfl, h.of_map.filter _⟩
  refine (List.perm_ext_iff_of_nodup h.of_map hnodup).mpr (fun y => ?_)
  rw [List.mem_cons, mem_erase]
  constructor
  · intro hy
    by_cases hk : key y = key x
    · exact Or.inl (List.inj_on_of_nodup_map h hy hx hk)
    · exact Or.inr ⟨hy, hk⟩
  · rintro (rfl | ⟨hy, -⟩)
    · exact hx
    · exact hy

theorem mem_keys_erase {k' : κ} :
    k' ∈ keys key (erase key k rows) ↔ k' ∈ keys key rows ∧ k' ≠ k := by
  rw [mem_keys, mem_keys]
  constructor
  · rintro ⟨x, hx, rfl⟩
    exact ⟨⟨x, (mem_erase.mp hx).1, rfl⟩, (mem_erase.mp hx).2⟩
  · rintro ⟨⟨x, hx, rfl⟩, hne⟩
    exact ⟨x, mem_erase.mpr ⟨hx, hne⟩, rfl⟩

/-- Erasing a row makes what was written to it irrelevant. -/
theorem erase_overwrite (h : key r = k) :
    erase key k (overwrite key r rows) = erase key k rows := by
  subst h
  induction rows with
  | nil => rfl
  | cons x xs ih =>
      by_cases hx : key x = key r
      · simpa [erase, overwrite, hx] using ih
      · simpa [erase, overwrite, hx] using ih

/-- Where keys are distinct, erasing a key takes its row out and no other. -/
theorem erase_between {x : ρ} {before rest : List ρ}
    (h : (keys key (before ++ x :: rest)).Nodup) :
    erase key (key x) (before ++ x :: rest) = before ++ rest := by
  rw [keys_append, keys_cons, List.nodup_append] at h
  obtain ⟨-, htail, hcross⟩ := h
  rw [erase, List.filter_append, List.filter_cons_of_neg (by simp), List.filter_eq_self.mpr,
    List.filter_eq_self.mpr]
  · refine fun y hy => decide_eq_true fun heq => (List.nodup_cons.mp htail).1 ?_
    exact heq ▸ List.mem_map_of_mem hy
  · refine fun y hy => decide_eq_true fun heq => ?_
    exact hcross (key y) (List.mem_map_of_mem hy) (key x) List.mem_cons_self heq

theorem nodup_keys_erase (h : (keys key rows).Nodup) : (keys key (erase key k rows)).Nodup :=
  List.Nodup.sublist (List.Sublist.map key List.filter_sublist) h

/-! ## Lookup -/

theorem lookup_eq_some {x : ρ} (h : lookup key k rows = some x) : x ∈ rows ∧ key x = k := by
  have hk := List.find?_some (p := fun r => decide (key r = k)) h
  exact ⟨List.mem_of_find?_eq_some h, of_decide_eq_true hk⟩

theorem lookup_eq_none : lookup key k rows = none ↔ k ∉ keys key rows := by
  rw [lookup, List.find?_eq_none, mem_keys]
  simp

/-- A row is read back under its own key. -/
theorem lookup_of_mem {x : ρ} (h : (keys key rows).Nodup) (hx : x ∈ rows) :
    lookup key (key x) rows = some x := by
  cases hrow : lookup key (key x) rows with
  | none => exact absurd (List.mem_map_of_mem hx) (lookup_eq_none.mp hrow)
  | some y =>
      obtain ⟨hy, heq⟩ := lookup_eq_some hrow
      rw [List.inj_on_of_nodup_map h hy hx heq]

/-- Reading a dict after a write. -/
theorem lookup_put : lookup key k (put key r rows) =
    if key r = k then some r else lookup key k rows := by
  induction rows with
  | nil => by_cases h : key r = k <;> simp [put, upsert, lookup, h]
  | cons x xs ih =>
      rw [put] at ih
      rw [put, upsert]
      by_cases hx : key x = key r
      · rw [if_pos hx]
        by_cases h : key r = k
        · simp [lookup, h]
        · have hxk : key x ≠ k := fun heq => h (hx.symm.trans heq)
          simp [lookup, h, hxk]
      · rw [if_neg hx]
        by_cases hxk : key x = k
        · have h : key r ≠ k := fun heq => hx (hxk.trans heq.symm)
          simp [lookup, hxk, h]
        · simpa [lookup, hxk] using ih

theorem lookup_erase {k' : κ} : lookup key k (erase key k' rows) =
    if k = k' then none else lookup key k rows := by
  by_cases h : k = k'
  · subst h
    rw [if_pos rfl, lookup_eq_none, mem_keys_erase]
    exact fun hk => hk.2 rfl
  · rw [if_neg h]
    induction rows with
    | nil => rfl
    | cons x xs ih =>
        by_cases hx : key x = k'
        · have hxk : key x ≠ k := fun heq => h (heq.symm.trans hx)
          simpa [lookup, erase, hx, hxk, Ne.symm h] using ih
        · by_cases hxk : key x = k
          · simp [lookup, erase, hxk, h]
          · simpa [lookup, erase, hx, hxk] using ih

/-- Where keys are distinct, a row selected by its key passes the filter or is not there. -/
theorem lookup_filter (h : (keys key rows).Nodup) (p : ρ → Bool) :
    lookup key k (rows.filter p) = (lookup key k rows).filter p := by
  induction rows with
  | nil => rfl
  | cons x xs ih =>
      rw [keys_cons, List.nodup_cons] at h
      by_cases hxk : key x = k
      · have hnone : lookup key k xs = none := by
          rw [lookup_eq_none]
          exact hxk ▸ h.1
        have hxs := ih h.2
        rw [hnone] at hxs
        cases hp : p x with
        | true => simp [lookup, hxk, hp, Option.filter]
        | false =>
            rw [List.filter_cons_of_neg (by simp [hp]), hxs]
            simp [lookup, hxk, hp, Option.filter]
      · have hskip : lookup key k (x :: xs) = lookup key k xs := by simp [lookup, hxk]
        rw [hskip, ← ih h.2, List.filter_cons]
        split
        · simp [lookup, hxk]
        · rfl

theorem countP_key_of_nodup (h : (keys key rows).Nodup) (k : κ) :
    rows.countP (fun r => decide (key r = k)) = if (lookup key k rows).isSome then 1 else 0 := by
  have hcount : rows.countP (fun r => decide (key r = k)) = (keys key rows).count k := by
    rw [keys, List.count, List.countP_map]
    exact List.countP_congr (fun r _ => by simp)
  rw [hcount]
  cases hk : lookup key k rows with
  | none => exact List.count_eq_zero_of_not_mem (lookup_eq_none.mp hk)
  | some x =>
      obtain ⟨hx, rfl⟩ := lookup_eq_some hk
      exact List.count_eq_one_of_mem h (List.mem_map_of_mem hx)

/-- Erasing a key that a counted row has lowers the count. -/
theorem countP_erase_lt {p : ρ → Bool} {x : ρ} (hx : x ∈ rows) (hk : key x = k)
    (hp : p x = true) : (erase key k rows).countP p < rows.countP p := by
  have hsplit := List.length_eq_countP_add_countP (fun y => decide (key y ≠ k))
    (l := rows.filter p)
  rw [List.countP_filter, ← List.countP_eq_length_filter] at hsplit
  have hkept : (erase key k rows).countP p =
      rows.countP (fun y => decide (key y ≠ k) && p y) := by
    rw [erase, List.countP_filter]
    exact List.countP_congr (fun y _ => by rw [Bool.and_comm])
  have hdropped : 0 < (rows.filter p).countP (fun y => decide ¬ (decide (key y ≠ k) = true)) :=
    List.countP_pos_iff.mpr ⟨x, List.mem_filter.mpr ⟨hx, hp⟩, by simp [hk]⟩
  rw [hkept]
  omega

end SignalEngine.Lib
