import Changelog.Markdown.Stash
import Mathlib.Tactic.Common

/-!
# Steps that store markup

What reading a document does to the stash is to store more markup behind what is there.  A step is
steady when all else about it is settled by the count of the stash, and when it does not look at the
count either as long as it stores nothing.  Steps that follow each other are steady when each of them
is.
-/

namespace Changelog

namespace Stash

/-- The stash once more markup was stored, one piece after the other. -/
def storeAll (s : Stash) (markup : List Text) : Stash :=
  ⟨s.entries ++ markup, s.count + markup.length⟩

theorem storeAll_nil (s : Stash) : s.storeAll [] = s := by
  simp only [storeAll, List.append_nil, List.length_nil, Nat.add_zero]

theorem storeAll_append (s : Stash) (first later : List Text) :
    (s.storeAll first).storeAll later = s.storeAll (first ++ later) := by
  simp only [storeAll, List.append_assoc, List.length_append, Nat.add_assoc]

end Stash

/-- Data with a stash in it, which can be put in place of the one that is there. -/
class Holder (σ : Type) where
  withStash : σ → Stash → σ

instance : Holder Stash :=
  ⟨fun _ stash => stash⟩

instance {α σ : Type} [Holder σ] : Holder (α × σ) :=
  ⟨fun x stash => (x.1, Holder.withStash x.2 stash)⟩

open Holder (withStash)

theorem Holder.withStash_fst {α σ : Type} [Holder σ] (x : α × σ) (stash : Stash) :
    (withStash x stash).1 = x.1 :=
  rfl

theorem Holder.withStash_snd {α σ : Type} [Holder σ] (x : α × σ) (stash : Stash) :
    (withStash x stash).2 = withStash x.2 stash :=
  rfl

section

variable {σ τ : Type} [Holder σ] [Holder τ]

/-- A step that is settled by the count of the stash: its other outcome and the markup that it stores.
A step that stores nothing does not depend on the count either. -/
def Steady (step : Stash → σ) : Prop :=
  ∃ run : Nat → σ × List Text,
    (∀ stash, step stash = withStash (run stash.count).1 (stash.storeAll (run stash.count).2)) ∧
      ∀ n, (run n).2 = [] → ∀ m, run m = run n

namespace Steady

/-- A step that does not look at the stash. -/
theorem idle (x : σ) : Steady fun stash => withStash x stash :=
  ⟨fun _ => (x, []), fun stash => by rw [Stash.storeAll_nil], fun _ _ _ => rfl⟩

/-- A step behind another one. -/
theorem bind {step : Stash → σ} {f : σ → τ} (hs : Steady step)
    (hf : ∀ x, Steady fun stash => f (withStash x stash)) :
    Steady fun stash => f (step stash) := by
  obtain ⟨run, hrun, hquiet⟩ := hs
  choose later hlater hlaterQuiet using hf
  refine ⟨fun n =>
    let first := run n
    let second := later first.1 (n + first.2.length)
    (second.1, first.2 ++ second.2), fun stash => ?_, fun n hnil m => ?_⟩
  · have hnext := hlater (run stash.count).1 (stash.storeAll (run stash.count).2)
    dsimp only at hnext
    rw [Stash.storeAll_append, ← hrun] at hnext
    exact hnext
  · obtain ⟨hfirst, hsecond⟩ := List.append_eq_nil_iff.mp hnil
    dsimp only
    rw [hquiet n hfirst m, hlaterQuiet _ _ hsecond (m + (run n).2.length)]

/-- A step with something else made of its outcome. -/
theorem map {α β : Type} {step : Stash → α × σ} (hs : Steady step) (image : α → β) :
    Steady fun stash => (image (step stash).1, (step stash).2) :=
  hs.bind (f := fun r => (image r.1, r.2)) fun x => idle (image x.1, x.2)

theorem ite {c : Prop} [Decidable c] {yes no : Stash → σ} (hy : c → Steady yes)
    (hn : ¬c → Steady no) : Steady fun stash => if c then yes stash else no stash := by
  by_cases hc : c
  · simp only [if_pos hc]
    exact hy hc
  · simp only [if_neg hc]
    exact hn hc

theorem congr {step step' : Stash → σ} (h : Steady step) (he : ∀ stash, step' stash = step stash) :
    Steady step' := by
  rwa [funext he]

/-- Storing markup, with a use of its mark. -/
theorem store (markup : Text) (use : Nat → σ) :
    Steady fun stash => withStash (use stash.count) (stash.store markup).2 :=
  ⟨fun n => (use n, [markup]), fun _ => rfl, fun _ hnil => nomatch hnil⟩

end Steady

end

end Changelog
