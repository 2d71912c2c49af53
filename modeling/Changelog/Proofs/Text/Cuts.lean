import Changelog.Text.Scan
import Changelog.Text.Space

/-!
# Where texts are cut

A recogniser gives a front part of a text, what follows it, or both; here it is said of which
characters the parts are made and with which character the one behind begins.
-/

namespace Changelog.Text

theorem spanWhile_spec {p : Char → Bool} {cs front rest : Text}
    (h : spanWhile p cs = (front, rest)) :
    cs = front ++ rest ∧ (∀ c ∈ front, p c = true) ∧ ∀ c ∈ rest.head?, p c = false := by
  induction cs generalizing front with
  | nil =>
    cases h
    exact ⟨rfl, List.forall_mem_nil _, fun c hc => nomatch hc⟩
  | cons d cs ih =>
    unfold spanWhile at h
    split at h
    · next hd =>
      cases h
      obtain ⟨hcs, hall, hhead⟩ := ih rfl
      exact ⟨congrArg (d :: ·) hcs, List.forall_mem_cons.mpr ⟨hd, hall⟩, hhead⟩
    · next hd =>
      cases h
      refine ⟨rfl, List.forall_mem_nil _, fun c hc => ?_⟩
      cases hc
      exact Bool.eq_false_iff.mpr hd

theorem spanWhile_suffix (p : Char → Bool) (cs : Text) : (spanWhile p cs).2 <:+ cs :=
  ⟨(spanWhile p cs).1, spanWhile_append p cs⟩

theorem after?_suffix {lead cs rest : Text} (h : after? lead cs = some rest) : rest <:+ cs :=
  ⟨lead, ((after?_eq_some_iff lead cs rest).mp h).symm⟩

theorem dropEndWhile_spec (p : Char → Bool) (cs : Text) :
    ∃ behind, cs = dropEndWhile p cs ++ behind ∧ ∀ c ∈ behind, p c = true := by
  refine ⟨(cs.reverse.takeWhile p).reverse, ?_, ?_⟩
  · rw [dropEndWhile, ← List.reverse_append, List.takeWhile_append_dropWhile, List.reverse_reverse]
  · intro c hc
    exact List.all_eq_true.mp List.all_takeWhile c (List.mem_reverse.mp hc)

theorem splitFirst?_suffix {sep cs before rest : Text}
    (h : splitFirst? sep cs = some (before, rest)) : rest <:+ cs := by
  rw [splitFirst?_eq sep cs before rest h]
  exact List.suffix_append _ _

theorem splitChar_append (sep : Char) (cs ds : Text) :
    splitChar sep (cs ++ sep :: ds) = splitChar sep cs ++ splitChar sep ds := by
  induction cs with
  | nil => simp only [List.nil_append, splitChar, if_true, List.singleton_append]
  | cons c cs ih =>
    by_cases hc : c = sep
    · simp only [List.cons_append, splitChar, if_pos hc, ih]
    · simp only [List.cons_append, splitChar, if_neg hc, ih]
      cases hs : splitChar sep cs with
      | nil =>
        cases cs with
        | nil => cases hs
        | cons d cs =>
          unfold splitChar at hs
          split at hs
          · cases hs
          · split at hs
            · cases hs
            · cases hs
      | cons piece pieces => rfl

theorem splitChar_plain (sep : Char) (cs : Text) (h : sep ∉ cs) :
    splitChar sep cs = [cs] := by
  induction cs with
  | nil => rfl
  | cons c cs ih =>
    rw [List.mem_cons, not_or] at h
    obtain ⟨hc, hcs⟩ := h
    simp only [splitChar, if_neg (Ne.symm hc), ih hcs]

theorem joinWith_cons_cons (sep first next : Text) (pieces : List Text) :
    joinWith sep (first :: next :: pieces) =
      first ++ sep ++ joinWith sep (next :: pieces) := rfl

theorem joinWith_concat (sep first last : Text) (pieces : List Text) :
    joinWith sep (first :: (pieces ++ [last])) =
      joinWith sep (first :: pieces) ++ sep ++ last := by
  induction pieces generalizing first with
  | nil => rfl
  | cons next pieces ih =>
    rw [List.cons_append, joinWith_cons_cons, ih, joinWith_cons_cons]
    simp only [List.append_assoc]

theorem mem_joinWith {sep : Text} {pieces : List Text} {c : Char} (h : c ∈ joinWith sep pieces) :
    c ∈ sep ∨ ∃ piece ∈ pieces, c ∈ piece := by
  induction pieces with
  | nil => cases h
  | cons piece pieces ih =>
    cases pieces with
    | nil => exact Or.inr ⟨piece, List.mem_cons_self, h⟩
    | cons next others =>
      rcases List.mem_append.mp h with h | h
      · rcases List.mem_append.mp h with h | h
        · exact Or.inr ⟨piece, List.mem_cons_self, h⟩
        · exact Or.inl h
      · refine (ih h).imp id fun ⟨other, ho, hc⟩ => ?_
        exact ⟨other, List.mem_cons_of_mem piece ho, hc⟩

theorem mem_lines {cs line : Text} {c : Char} (hl : line ∈ lines cs) (h : c ∈ line) : c ∈ cs := by
  have hjoin {pieces : List Text} (hl : line ∈ pieces) : c ∈ joinWith ['\n'] pieces := by
    induction pieces with
    | nil => cases hl
    | cons piece pieces ih =>
      cases pieces with
      | nil =>
        rw [List.mem_singleton.mp hl] at h
        exact h
      | cons next others =>
        rcases List.mem_cons.mp hl with hl | hl
        · exact List.mem_append_left _ (List.mem_append_left _ (hl ▸ h))
        · exact List.mem_append_right _ (ih hl)
  rw [← joinWith_splitChar '\n' cs]
  exact hjoin hl

end Changelog.Text
