import Changelog.Markdown.Source
import Changelog.Proofs.Text.Replace
import Changelog.Text.Space

/-!
# Line ends

Making each line end a line feed is the same as replacing pairs of a carriage return and a line feed
first, and the carriage returns that are left after that.  A text without carriage returns stays as
it is, so a text whose line ends have been made line feeds has the clean form of the text itself.
-/

namespace Changelog.Source

/-- The text with `"\r\n"` and then `"\r"` turned into a line feed. -/
def replaceReturns (cs : Text) : Text :=
  Text.replaceText ['\r'] ['\n'] (Text.replaceText ['\r', '\n'] ['\n'] cs)

theorem replaceReturns_pair (cs : Text) :
    replaceReturns ('\r' :: '\n' :: cs) = '\n' :: replaceReturns cs := by
  have hpair : Text.replaceText ['\r', '\n'] ['\n'] ('\r' :: '\n' :: cs) =
      '\n' :: Text.replaceText ['\r', '\n'] ['\n'] cs :=
    Text.replaceText_part ['\r', '\n'] ['\n'] cs (by simp)
  unfold replaceReturns
  rw [hpair]
  exact Text.replaceText_append '\r' [] ['\n'] ['\n'] _ (by decide)

theorem replaceReturns_single {cs : Text} (h : ∀ ds, cs ≠ '\n' :: ds) :
    replaceReturns ('\r' :: cs) = '\n' :: replaceReturns cs := by
  have hnone : Text.after? ['\r', '\n'] ('\r' :: cs) = none := by
    cases cs with
    | nil => rfl
    | cons d ds =>
      have hd : '\n' ≠ d := fun hd => h ds (by rw [hd])
      simp [Text.after?, hd]
  have hkeep : Text.replaceText ['\r', '\n'] ['\n'] ('\r' :: cs) =
      '\r' :: Text.replaceText ['\r', '\n'] ['\n'] cs :=
    Text.replaceAll_keep '\r' cs (by rw [hnone]; rfl)
  unfold replaceReturns
  rw [hkeep]
  exact Text.replaceText_part ['\r'] ['\n'] _ (by simp)

theorem replaceReturns_cons {c : Char} (h : c ≠ '\r') (cs : Text) :
    replaceReturns (c :: cs) = c :: replaceReturns cs := by
  have hc : '\r' ∉ [c] := by simpa using h.symm
  have hpairs : Text.replaceText ['\r', '\n'] ['\n'] (c :: cs) =
      c :: Text.replaceText ['\r', '\n'] ['\n'] cs :=
    Text.replaceText_append '\r' ['\n'] ['\n'] [c] cs hc
  unfold replaceReturns
  rw [hpairs]
  exact Text.replaceText_append '\r' [] ['\n'] [c] _ hc

/-- Reading line ends once from the left, and replacing them in two passes. -/
theorem normalizeLines_eq_replaceReturns (cs : Text) : normalizeLines cs = replaceReturns cs := by
  fun_induction normalizeLines cs with
  | case1 => rfl
  | case2 cs ih => rw [replaceReturns_pair, ih]
  | case3 cs hfeed ih => rw [replaceReturns_single hfeed, ih]
  | case4 c cs _ hreturn ih => rw [replaceReturns_cons hreturn, ih]

theorem mem_normalizeLines {c : Char} {cs : Text} (h : c ∈ normalizeLines cs) :
    c ∈ cs ∨ c = '\n' := by
  fun_induction normalizeLines cs with
  | case1 => cases h
  | case2 cs ih =>
    rcases List.mem_cons.mp h with h | h
    · exact Or.inr h
    · exact (ih h).imp (fun h => List.mem_cons_of_mem _ (List.mem_cons_of_mem _ h)) id
  | case3 cs _ ih =>
    rcases List.mem_cons.mp h with h | h
    · exact Or.inr h
    · exact (ih h).imp (List.mem_cons_of_mem _) id
  | case4 d cs _ _ ih =>
    rcases List.mem_cons.mp h with h | h
    · exact Or.inl (h ▸ List.mem_cons_self)
    · exact (ih h).imp (List.mem_cons_of_mem _) id

theorem mem_normalizeLines_of_mem {c : Char} {cs : Text} (hc : c ≠ '\r') (h : c ∈ cs) :
    c ∈ normalizeLines cs := by
  fun_induction normalizeLines cs with
  | case1 => cases h
  | case2 cs ih =>
    simp only [List.mem_cons, hc, false_or] at h ⊢
    exact h.imp id ih
  | case3 cs _ ih =>
    simp only [List.mem_cons, hc, false_or] at h ⊢
    exact Or.inr (ih h)
  | case4 d cs _ _ ih =>
    simp only [List.mem_cons] at h ⊢
    exact h.imp id ih

theorem not_mem_normalizeLines {c : Char} {cs : Text} (hc : c ≠ '\n') (h : c ∉ cs) :
    c ∉ normalizeLines cs := by
  intro hm
  rcases mem_normalizeLines hm with hm | hm
  · exact h hm
  · exact hc hm

theorem not_mem_of_normalizeLines {c : Char} {cs ds : Text}
    (h : normalizeLines ds = normalizeLines cs) (hr : c ≠ '\r') (hf : c ≠ '\n') (hc : c ∉ cs) :
    c ∉ ds := by
  intro hm
  have hlines : c ∈ normalizeLines cs := h ▸ mem_normalizeLines_of_mem hr hm
  exact not_mem_normalizeLines hf hc hlines

theorem return_not_mem_normalizeLines (cs : Text) : '\r' ∉ normalizeLines cs := by
  fun_induction normalizeLines cs with
  | case1 => simp
  | case2 cs ih => simp [ih]
  | case3 cs _ ih => simp [ih]
  | case4 d cs _ hreturn ih => simp [ih, Ne.symm hreturn]

theorem normalizeLines_eq {cs : Text} (h : '\r' ∉ cs) : normalizeLines cs = cs := by
  fun_induction normalizeLines cs with
  | case1 => rfl
  | case2 cs ih => simp at h
  | case3 cs _ ih => simp at h
  | case4 d cs _ _ ih => rw [ih (List.not_mem_of_not_mem_cons h)]

/-- Line ends are white space, whatever their kind. -/
theorem isBlank_normalizeLines (cs : Text) :
    Text.isBlank (normalizeLines cs) = Text.isBlank cs := by
  have hfeed : Text.isSpace '\n' = true := by decide
  have hreturn : Text.isSpace '\r' = true := by decide
  unfold Text.isBlank
  fun_induction normalizeLines cs with
  | case1 => rfl
  | case2 cs ih => simp [ih, hfeed, hreturn]
  | case3 cs _ ih => simp [ih, hfeed, hreturn]
  | case4 d cs _ _ ih => simp [ih]

theorem dropMarks_eq {cs : Text} (ho : Mark.opening ∉ cs) (hc : Mark.closing ∉ cs) :
    dropMarks cs = cs := by
  unfold dropMarks
  rw [List.filter_eq_self]
  intro c hm
  have hopening : c ≠ Mark.opening := ne_of_mem_of_not_mem hm ho
  have hclosing : c ≠ Mark.closing := ne_of_mem_of_not_mem hm hc
  simp [hopening, hclosing]

/-- The clean form of a text without marks depends on its lines only. -/
theorem clean_normalizeLines {cs : Text} (ho : Mark.opening ∉ cs) (hc : Mark.closing ∉ cs) :
    clean (normalizeLines cs) = clean cs := by
  have ho' : Mark.opening ∉ normalizeLines cs := not_mem_normalizeLines (by decide) ho
  have hc' : Mark.closing ∉ normalizeLines cs := not_mem_normalizeLines (by decide) hc
  unfold clean
  rw [dropMarks_eq ho' hc', dropMarks_eq ho hc,
    normalizeLines_eq (return_not_mem_normalizeLines cs)]

end Changelog.Source
