/-
  Traces: lists of events that grow at their end.

  `EachAfter R` relates every event to the events before it. An `a` is `Outstanding` while no
  `b` has followed it, and `Separated` says that between any two `a` there is a `b`.

  Proved: what each of them becomes when one event is added (`eachAfter_concat`,
  `outstanding_concat`), and that an `a` is only added when none is outstanding
  (`separated_iff`).
-/
import Mathlib

namespace SignalEngine.Lib

universe u

variable {ε : Type u} {R : List ε → ε → Prop} {a b : ε → Prop} {events : List ε} {e : ε}

def EachAfter (R : List ε → ε → Prop) (events : List ε) : Prop :=
  ∀ pre e post, events = pre ++ e :: post → R pre e

def Outstanding (a b : ε → Prop) (events : List ε) : Prop :=
  ∃ pre e post, events = pre ++ e :: post ∧ a e ∧ ∀ t ∈ post, ¬ b t

def Separated (a b : ε → Prop) (events : List ε) : Prop :=
  ∀ pre e mid e' post, events = pre ++ e :: (mid ++ e' :: post) → a e → a e' → ∃ t ∈ mid, b t

/-- The added event is the one chosen, or stands at the end of what follows it. -/
theorem concat_eq_append_cons {x : ε} {pre post : List ε} :
    events ++ [e] = pre ++ x :: post ↔
      (events = pre ∧ e = x ∧ post = []) ∨
        ∃ post', post = post' ++ [e] ∧ events = pre ++ x :: post' := by
  constructor
  · intro h
    rcases List.eq_nil_or_concat post with rfl | ⟨post', y, rfl⟩
    · obtain ⟨hevents, rfl⟩ := List.append_singleton_inj.mp h
      exact Or.inl ⟨hevents, rfl, rfl⟩
    · rw [List.concat_eq_append, ← List.cons_append, ← List.append_assoc] at h
      obtain ⟨hevents, rfl⟩ := List.append_singleton_inj.mp h
      exact Or.inr ⟨post', List.concat_eq_append, hevents⟩
  · rintro (⟨rfl, rfl, rfl⟩ | ⟨post', rfl, rfl⟩)
    · rfl
    · rw [List.append_assoc, List.cons_append]

theorem eachAfter_nil : EachAfter R [] := by
  intro pre e post h
  exact absurd h.symm (by simp)

theorem eachAfter_concat : EachAfter R (events ++ [e]) ↔ EachAfter R events ∧ R events e := by
  constructor
  · intro h
    refine ⟨fun pre x post heq => h pre x (post ++ [e]) ?_, h events e [] rfl⟩
    exact concat_eq_append_cons.mpr (Or.inr ⟨post, rfl, heq⟩)
  · rintro ⟨h, he⟩ pre x post heq
    rcases concat_eq_append_cons.mp heq with ⟨rfl, rfl, -⟩ | ⟨post', -, heq⟩
    · exact he
    · exact h pre x post' heq

theorem not_outstanding_nil : ¬ Outstanding a b [] := by
  rintro ⟨pre, e, post, h, -⟩
  exact absurd h.symm (by simp)

theorem outstanding_concat :
    Outstanding a b (events ++ [e]) ↔ a e ∨ Outstanding a b events ∧ ¬ b e := by
  constructor
  · rintro ⟨pre, x, post, heq, ha, hb⟩
    rcases concat_eq_append_cons.mp heq with ⟨-, rfl, -⟩ | ⟨post', rfl, hevents⟩
    · exact Or.inl ha
    · refine Or.inr ⟨⟨pre, x, post', hevents, ha, fun t ht => hb t (List.mem_append_left _ ht)⟩, ?_⟩
      exact hb e (List.mem_append_right _ (List.mem_singleton_self e))
  · rintro (ha | ⟨⟨pre, x, post, heq, ha, hb⟩, hbe⟩)
    · exact ⟨events, e, [], rfl, ha, fun t ht => absurd ht List.not_mem_nil⟩
    · refine ⟨pre, x, post ++ [e], concat_eq_append_cons.mpr (Or.inr ⟨post, rfl, heq⟩), ha, ?_⟩
      intro t ht
      rcases List.mem_append.mp ht with ht | ht
      · exact hb t ht
      · exact List.mem_singleton.mp ht ▸ hbe

/-- Separated events are those added while none is outstanding. -/
theorem separated_iff :
    Separated a b events ↔ EachAfter (fun pre e => a e → ¬ Outstanding a b pre) events := by
  constructor
  · rintro h pre e' post heq hae' ⟨pre', e, mid, rfl, hae, hb⟩
    obtain ⟨t, ht, hbt⟩ := h pre' e mid e' post (by simp [heq]) hae hae'
    exact hb t ht hbt
  · intro h pre e mid e' post heq hae hae'
    by_contra hnot
    push Not at hnot
    exact h (pre ++ e :: mid) e' post (by simp [heq]) hae' ⟨pre, e, mid, rfl, hae, hnot⟩

end SignalEngine.Lib
