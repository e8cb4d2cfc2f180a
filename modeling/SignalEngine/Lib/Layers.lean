/-
  Layers: nested dicts, one laid over another.

  A `Layer` is a value or a dict of layers. `overlay` merges two dicts key by key and lets the
  upper layer win everywhere else; `at?` follows a path of keys.

  Proved, for layers whose keys are distinct: what is read under one key after a merge
  (`entry_merge`), and from it by induction on the path what is read under a path (`at?_overlay`);
  a dict laid twice over another changes nothing more (`overlay_overlay`).
-/
import SignalEngine.Lib.Table

namespace SignalEngine.Lib

universe u v

/-- A value or a dict. -/
inductive Layer (κ : Type u) (ν : Type v) where
  | leaf (value : ν)
  | node (entries : List (κ × Layer κ ν))

namespace Layer

variable {κ : Type u} {ν : Type v}

/-- The keys of every dict are distinct. -/
inductive Distinct : Layer κ ν → Prop where
  | leaf (value : ν) : Distinct (.leaf value)
  | node {es : List (κ × Layer κ ν)} (keys_nodup : (keys Prod.fst es).Nodup)
      (nested : ∀ e ∈ es, Distinct e.2) : Distinct (.node es)

theorem Distinct.keys_nodup {es : List (κ × Layer κ ν)} (h : Distinct (.node es)) :
    (keys Prod.fst es).Nodup := by
  cases h
  assumption

theorem Distinct.nested {es : List (κ × Layer κ ν)} (h : Distinct (.node es)) :
    ∀ e ∈ es, Distinct e.2 := by
  cases h
  assumption

theorem distinct_nil : Distinct (.node ([] : List (κ × Layer κ ν))) :=
  .node List.nodup_nil fun _ h => absurd h List.not_mem_nil

variable [DecidableEq κ]

/-- The layer under a key. -/
def entry (k : κ) (es : List (κ × Layer κ ν)) : Option (Layer κ ν) :=
  (lookup Prod.fst k es).map Prod.snd

mutual

/-- What stands under a key after `upper` is laid over `lower`. -/
def overlay (lower : Option (Layer κ ν)) : Layer κ ν → Layer κ ν
  | .leaf value => .leaf value
  | .node os =>
      match lower with
      | some (.node bs) => .node (merge bs os)
      | _ => .node os

/-- Each entry of the upper dict is laid over the one of its key. -/
def merge (bs : List (κ × Layer κ ν)) : List (κ × Layer κ ν) → List (κ × Layer κ ν)
  | [] => bs
  | (k, t) :: os => merge (put Prod.fst (k, overlay (entry k bs) t) bs) os

end

/-- The layer at the end of a path. -/
def at? (cur : Layer κ ν) : List κ → Option (Layer κ ν)
  | [] => some cur
  | p :: ps =>
      match cur with
      | .leaf _ => none
      | .node es => (entry p es).bind fun t => at? t ps

/-- A value stands on the way. -/
def Blocks (t : Layer κ ν) (path : List κ) : Prop :=
  ∃ pre value, pre <+: path ∧ pre ≠ path ∧ t.at? pre = some (.leaf value)

/-! ## Single keys -/

variable {k : κ} {t : Layer κ ν} {bs os : List (κ × Layer κ ν)}

@[simp] theorem entry_nil (k : κ) : entry k ([] : List (κ × Layer κ ν)) = none := rfl

theorem entry_cons (k : κ) (e : κ × Layer κ ν) (es : List (κ × Layer κ ν)) :
    entry k (e :: es) = if e.1 = k then some e.2 else entry k es := by
  unfold entry lookup
  by_cases h : e.1 = k <;> simp [h]

theorem entry_put (k' : κ) (t : Layer κ ν) :
    entry k (put Prod.fst (k', t) bs) = if k' = k then some t else entry k bs := by
  unfold entry
  rw [lookup_put]
  split_ifs <;> rfl

theorem mem_of_entry (h : entry k bs = some t) : (k, t) ∈ bs := by
  obtain ⟨e, he, rfl⟩ := Option.map_eq_some_iff.mp h
  obtain ⟨hmem, rfl⟩ := lookup_eq_some he
  exact hmem

theorem entry_of_mem (hbs : (keys Prod.fst bs).Nodup) (h : (k, t) ∈ bs) :
    entry k bs = some t := by
  rw [entry, show k = Prod.fst (k, t) from rfl, lookup_of_mem hbs h]
  rfl

/-- Writing what is there already changes nothing. -/
theorem put_of_entry (h : entry k bs = some t) : put Prod.fst (k, t) bs = bs := by
  induction bs with
  | nil => cases h
  | cons e bs ih =>
      rw [entry_cons] at h
      rw [put, upsert]
      split_ifs at h ⊢ with he
      · cases h
        exact congrArg (· :: bs) (Prod.ext he.symm rfl)
      · exact congrArg (List.cons e) (ih h)

@[simp] theorem overlay_none (t : Layer κ ν) : overlay none t = t := by
  cases t <;> simp only [overlay]

/-- What stands under a key after a merge. -/
theorem entry_merge (hos : (keys Prod.fst os).Nodup) :
    entry k (merge bs os) = ((entry k os).map (overlay (entry k bs))).or (entry k bs) := by
  induction os generalizing bs with
  | nil => simp only [merge, entry_nil, Option.map_none, Option.none_or]
  | cons e os ih =>
      obtain ⟨k', t⟩ := e
      obtain ⟨hk', hos⟩ := List.nodup_cons.mp hos
      rw [merge, ih hos, entry_put, entry_cons]
      by_cases hk : k' = k
      · have hnone : entry k os = none := by
          rw [entry, ← hk, lookup_eq_none.mpr hk']
          rfl
        simp [hk, hnone]
      · simp [hk]

/-- Merging what is there already changes nothing. -/
theorem merge_of_entries (h : ∀ e ∈ os, entry e.1 bs = some (overlay (entry e.1 bs) e.2)) :
    merge bs os = bs := by
  induction os with
  | nil => rw [merge]
  | cons e os ih =>
      obtain ⟨he, hos⟩ := List.forall_mem_cons.mp h
      rw [merge, put_of_entry he, ih hos]

/-! ## Paths -/

variable {lower : Option (Layer κ ν)} {upper : Layer κ ν} {p : κ} {path : List κ}

theorem at?_cons (t : Layer κ ν) (p : κ) (ps : List κ) :
    t.at? (p :: ps) = (t.at? [p]).bind fun t' => t'.at? ps := by
  cases t with
  | leaf value => rfl
  | node es => cases h : entry p es <;> simp [at?, h]

@[simp] theorem at?_leaf (value : ν) (p : κ) (ps : List κ) :
    (Layer.leaf value).at? (p :: ps) = none := rfl

theorem at?_node (p : κ) : (Layer.node os).at? [p] = entry p os := by
  cases h : entry p os <;> simp [at?, h]

theorem blocks_leaf (value : ν) (p : κ) (ps : List κ) : Blocks (.leaf value) (p :: ps) :=
  ⟨[], value, List.nil_prefix, by simp, rfl⟩

theorem blocks_node (p : κ) (ps : List κ) :
    Blocks (.node os) (p :: ps) ↔ ∃ t, entry p os = some t ∧ Blocks t ps := by
  constructor
  · rintro ⟨pre, value, hpre, hne, hat⟩
    cases pre with
    | nil => cases hat
    | cons q qs =>
        obtain ⟨rfl, hqs⟩ := List.cons_prefix_cons.mp hpre
        rw [at?_cons, at?_node] at hat
        obtain ⟨t, ht, hat⟩ := Option.bind_eq_some_iff.mp hat
        exact ⟨t, ht, qs, value, hqs, fun h => hne (by rw [h]), hat⟩
  · rintro ⟨t, ht, pre, value, hpre, hne, hat⟩
    refine ⟨p :: pre, value, List.cons_prefix_cons.mpr ⟨rfl, hpre⟩,
      fun h => hne (List.cons.inj h).2, ?_⟩
    rw [at?_cons, at?_node, ht]
    exact hat

/-- Under one key of a dict that is laid over something. -/
theorem at?_overlay_key (hos : (keys Prod.fst os).Nodup) :
    (overlay lower (.node os)).at? [p] =
      ((entry p os).map (overlay (lower.bind fun l => l.at? [p]))).or
        (lower.bind fun l => l.at? [p]) := by
  have halone : ∀ o : Option (Layer κ ν), (o.map (overlay none)).or none = o := by
    intro o
    cases o <;> simp
  cases lower with
  | none => rw [overlay_none, at?_node, Option.bind_none, halone]
  | some l =>
      cases l with
      | leaf value => simp only [overlay, at?_node, Option.bind_some, at?_leaf, halone]
      | node bs => rw [overlay, at?_node, Option.bind_some, at?_node, entry_merge hos]

/-- Where the upper layer has something, it is laid over what the lower one has there. -/
theorem at?_overlay_of_some (hupper : Distinct upper) {t : Layer κ ν}
    (h : upper.at? path = some t) :
    (overlay lower upper).at? path =
      some (overlay (lower.bind fun l => l.at? path) t) := by
  induction path generalizing lower upper with
  | nil =>
      cases h
      cases lower <;> rfl
  | cons p ps ih =>
      cases upper with
      | leaf value => cases h
      | node os =>
          rw [at?_cons, at?_node] at h
          obtain ⟨t', ht', h⟩ := Option.bind_eq_some_iff.mp h
          rw [at?_cons, at?_overlay_key hupper.keys_nodup, ht', Option.map_some, Option.some_or,
            Option.bind_some, ih (hupper.nested _ (mem_of_entry ht')) h, Option.bind_assoc]
          simp only [at?_cons _ p ps]

/-- Past a value of the upper layer there is nothing. -/
theorem at?_overlay_of_blocks (hupper : Distinct upper) (h : Blocks upper path) :
    (overlay lower upper).at? path = none := by
  induction path generalizing lower upper with
  | nil =>
      obtain ⟨pre, -, hpre, hne, -⟩ := h
      exact absurd (List.prefix_nil.mp hpre) hne
  | cons p ps ih =>
      cases upper with
      | leaf value => rw [overlay, at?_leaf]
      | node os =>
          obtain ⟨t, ht, hblocks⟩ := (blocks_node p ps).mp h
          rw [at?_cons, at?_overlay_key hupper.keys_nodup, ht, Option.map_some, Option.some_or,
            Option.bind_some, ih (hupper.nested _ (mem_of_entry ht)) hblocks]

/-- Where the upper layer has nothing and is not in the way, the lower one is read. -/
theorem at?_overlay_of_none (hupper : Distinct upper) (h : upper.at? path = none)
    (hfree : ¬ Blocks upper path) :
    (overlay lower upper).at? path = lower.bind fun l => l.at? path := by
  induction path generalizing lower upper with
  | nil => cases h
  | cons p ps ih =>
      cases upper with
      | leaf value => exact absurd (blocks_leaf value p ps) hfree
      | node os =>
          rw [at?_cons, at?_overlay_key hupper.keys_nodup]
          simp only [at?_cons _ p ps] at h ⊢
          rw [at?_node] at h
          cases ht : entry p os with
          | none => rw [Option.map_none, Option.none_or, Option.bind_assoc]
          | some t =>
              rw [ht, Option.bind_some] at h
              have hfree' : ¬ Blocks t ps := fun hb => hfree ((blocks_node p ps).mpr ⟨t, ht, hb⟩)
              rw [Option.map_some, Option.some_or, Option.bind_some,
                ih (hupper.nested _ (mem_of_entry ht)) h hfree', Option.bind_assoc]

/-! ## Merging again -/

/-- Laid over the same layer twice. -/
theorem overlay_overlay (hupper : Distinct upper) (lower : Option (Layer κ ν)) :
    overlay (some (overlay lower upper)) upper = overlay lower upper := by
  induction hupper generalizing lower with
  | leaf value => simp only [overlay]
  | @node os hnodup _ ih =>
      -- every entry is already what the second merge would make of it
      have hfix : ∀ bs, (∀ e ∈ os, ∃ l, entry e.1 bs = some (overlay l e.2)) →
          merge bs os = bs := by
        intro bs hbs
        refine merge_of_entries fun e he => ?_
        obtain ⟨l, hl⟩ := hbs e he
        rw [hl, ih e he l]
      have hown : ∀ e ∈ os, entry e.1 os = some e.2 := fun e he => entry_of_mem hnodup he
      have halone : merge os os = os :=
        hfix os fun e he => ⟨none, by rw [overlay_none]; exact hown e he⟩
      cases lower with
      | none => rw [overlay_none, overlay, halone]
      | some l =>
          cases l with
          | leaf value => simp only [overlay, halone]
          | node bs =>
              simp only [overlay]
              rw [hfix (merge bs os) fun e he => ⟨entry e.1 bs, by
                rw [entry_merge hnodup, hown e he, Option.map_some, Option.some_or]⟩]

theorem merge_nil_left (hos : (keys Prod.fst os).Nodup) : merge [] os = os := by
  suffices h : ∀ bs : List (κ × Layer κ ν), (keys Prod.fst (bs ++ os)).Nodup →
      merge bs os = bs ++ os from h [] hos
  induction os with
  | nil => intro bs _; rw [merge, List.append_nil]
  | cons e os ih =>
      intro bs hbs
      obtain ⟨k, t⟩ := e
      have hnew : k ∉ keys Prod.fst bs := by
        rw [keys_append] at hbs
        exact fun hmem => (List.nodup_append.mp hbs).2.2 k hmem k List.mem_cons_self rfl
      have hnone : entry k bs = none := by
        rw [entry, lookup_eq_none.mpr hnew]
        rfl
      have hassoc : bs ++ (k, t) :: os = bs ++ [(k, t)] ++ os := by simp
      rw [merge, hnone, overlay_none, put_of_new hnew, hassoc]
      rw [hassoc] at hbs
      exact ih (List.nodup_cons.mp hos).2 _ hbs

/-- A merge keeps the keys distinct. -/
theorem distinct_overlay (hupper : Distinct upper) :
    (∀ l, lower = some l → Distinct l) → Distinct (overlay lower upper) := by
  induction hupper generalizing lower with
  | leaf value =>
      intro _
      rw [overlay]
      exact .leaf value
  | @node os hnodup hnested ih =>
      intro hlower
      -- the entries are laid over one after the other
      have hmerge : ∀ os' : List (κ × Layer κ ν), (∀ e ∈ os', e ∈ os) →
          ∀ bs, Distinct (.node bs) → Distinct (.node (merge bs os')) := by
        intro os'
        induction os' with
        | nil => intro _ bs hbs; rwa [merge]
        | cons e os' ih' =>
            intro hsub bs hbs
            obtain ⟨he, hsub⟩ := List.forall_mem_cons.mp hsub
            rw [merge]
            refine ih' hsub _ (.node (nodup_keys_put hbs.keys_nodup) fun x hx => ?_)
            rcases mem_of_mem_put hx with rfl | hx
            · exact ih e he fun l hl => hbs.nested _ (mem_of_entry hl)
            · exact hbs.nested x hx
      cases lower with
      | none => simpa only [overlay] using Distinct.node hnodup hnested
      | some l =>
          cases l with
          | leaf value => simpa only [overlay] using Distinct.node hnodup hnested
          | node bs =>
              rw [overlay]
              exact hmerge os (fun _ he => he) bs (hlower _ rfl)

theorem distinct_merge (hbs : Distinct (.node bs)) (hos : Distinct (.node os)) :
    Distinct (.node (merge bs os)) := by
  have h : Distinct (overlay (some (.node bs)) (.node os)) :=
    distinct_overlay hos fun l hl => by cases hl; exact hbs
  rwa [overlay] at h

end Layer

end SignalEngine.Lib
