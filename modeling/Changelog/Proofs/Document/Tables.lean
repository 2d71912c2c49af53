import Changelog.Markdown.Table
import Changelog.Proofs.Document.Lines
import Changelog.Proofs.Document.Sound

/-!
# Tables of a grade

The cells of a row are its pieces between bars, so that no mark is cut when a row is parted.
-/

namespace Changelog.Table

open Text Line Element

theorem replicate_ticks {cs : Text} :
    List.replicate (spanWhile (· == '\x60') cs).1.length '\x60' =
      (spanWhile (· == '\x60') cs).1 :=
  (List.eq_replicate_iff.mpr ⟨rfl, fun c hc =>
    eq_of_beq (List.all_eq_true.mp (spanWhile_all (· == '\x60') cs) c hc)⟩).symm

theorem tokensWithin_chars (fuel : Nat) (cs : Text) (h : cs.length ≤ fuel) :
    (tokensWithin fuel cs).flatMap Token.chars = cs := by
  have hrun {cs : Text} {n : Nat} (hn : cs.length ≤ n) :
      (spanWhile (· == '\x60') cs).2.length ≤ n :=
    Nat.le_trans (spanWhile_suffix _ cs).length_le hn
  fun_induction tokensWithin fuel cs with
  | case1 =>
    rw [List.length_eq_zero_iff.mp (Nat.le_zero.mp h)]
    rfl
  | case2 => rfl
  | case3 fuel cs ih =>
    have hcs := ih (by simp only [List.length_cons] at h; omega)
    rw [List.flatMap_cons, hcs]
    rfl
  | case4 fuel cs ih =>
    have hcs := ih (by simp only [List.length_cons] at h; omega)
    rw [List.flatMap_cons, hcs]
    rfl
  | case5 fuel cs run ih =>
    have hcs := ih (hrun (by simp only [List.length_cons] at h; omega))
    rw [List.flatMap_cons, hcs]
    show '\\' :: '\x60' :: List.replicate (spanWhile (· == '\x60') cs).1.length '\x60' ++
      (spanWhile (· == '\x60') cs).2 = _
    rw [replicate_ticks, List.cons_append, List.cons_append, spanWhile_append]
  | case6 fuel cs ih =>
    have hcs := ih (by simp only [List.length_cons] at h; omega)
    rw [List.flatMap_cons, hcs]
    rfl
  | case7 fuel cs run ih =>
    have hcs := ih (hrun (by simp only [List.length_cons] at h; omega))
    rw [List.flatMap_cons, hcs]
    show '\x60' :: List.replicate (spanWhile (· == '\x60') cs).1.length '\x60' ++
      (spanWhile (· == '\x60') cs).2 = _
    rw [replicate_ticks, List.cons_append, spanWhile_append]
  | case8 =>
    next ih =>
    have hcs := ih (by simp only [List.length_cons] at h; omega)
    rw [List.flatMap_cons, hcs]
    rfl

theorem tokens_chars (row : Text) : (tokens row).flatMap Token.chars = row :=
  tokensWithin_chars row.length row (Nat.le_refl _)

theorem closeCode?_eq {size : Nat} {ts inside rest : List Token}
    (h : closeCode? size ts = some (inside, rest)) : ts = inside ++ rest := by
  induction ts generalizing inside with
  | nil => cases h
  | cons t ts ih =>
    have hlater {inside : List Token}
        (h : (closeCode? size ts).map (fun r => (t :: r.1, r.2)) = some (inside, rest)) :
        t :: ts = inside ++ rest := by
      obtain ⟨r, hr, heq⟩ := Option.map_eq_some_iff.mp h
      cases heq
      exact congrArg (t :: ·) (ih hr)
    unfold closeCode? at h
    split at h
    · split at h
      · cases h
        rfl
      · exact hlater h
    · exact hlater h

theorem joinWith_prependFirst (sep : Char) (chars : Text) (cells : List Text) :
    joinWith [sep] (prependFirst chars cells) = chars ++ joinWith [sep] cells := by
  cases cells with
  | nil => exact (List.append_nil chars).symm
  | cons cell cells =>
    cases cells with
    | nil => rfl
    | cons next others =>
      show chars ++ cell ++ [sep] ++ joinWith [sep] (next :: others) =
        chars ++ (cell ++ [sep] ++ joinWith [sep] (next :: others))
      simp only [List.append_assoc]

theorem cellsWithin_ne_nil (fuel : Nat) (ts : List Token) : cellsWithin fuel ts ≠ [] := by
  have hprepend (chars : Text) (cells : List Text) : prependFirst chars cells ≠ [] := by
    cases cells with
    | nil => exact List.cons_ne_nil _ _
    | cons cell cells => exact List.cons_ne_nil _ _
  fun_cases cellsWithin fuel ts with
  | case1 => exact List.cons_ne_nil _ _
  | case2 => exact List.cons_ne_nil _ _
  | case3 => exact List.cons_ne_nil _ _
  | case4 =>
    split
    · exact hprepend _ _
    · exact hprepend _ _
  | case5 =>
    split
    · exact hprepend _ _
    · exact hprepend _ _

/-- The cells of a row with bars between them are the row. -/
theorem joinWith_cellsWithin (fuel : Nat) (ts : List Token) (h : ts.length < fuel) :
    joinWith ['|'] (cellsWithin fuel ts) = ts.flatMap Token.chars := by
  induction fuel generalizing ts with
  | zero => cases h
  | succ fuel ih =>
    cases ts with
    | nil => rfl
    | cons t ts =>
      have hts : ts.length < fuel := Nat.lt_of_succ_lt_succ h
      unfold cellsWithin
      split
      · have hcells := ih ts hts
        show joinWith ['|'] ([] :: cellsWithin fuel ts) = ['|'] ++ ts.flatMap Token.chars
        rw [← hcells]
        obtain ⟨cell, cells, hc⟩ := List.exists_cons_of_ne_nil (cellsWithin_ne_nil fuel ts)
        rw [hc]
        rfl
      · split
        · next inside rest hc =>
          obtain ⟨size, -, hclose⟩ := Option.bind_eq_some_iff.mp hc
          have heq := closeCode?_eq hclose
          have hrest : rest.length < fuel := by
            rw [heq, List.length_append] at hts
            omega
          rw [joinWith_prependFirst, ih rest hrest, heq, List.flatMap_cons, List.flatMap_append,
            List.append_assoc]
        · rw [joinWith_prependFirst, ih ts hts, List.flatMap_cons]

variable {g : Grade}

theorem running_cells {row : Text} (h : g.running row) : ∀ cell ∈ cells row, g.running cell := by
  have hjoin := joinWith_cellsWithin (tokens row).length.succ (tokens row) (Nat.lt_succ_self _)
  rw [tokens_chars] at hjoin
  rw [← hjoin] at h
  exact Grade.of_joinWith (by decide) h

theorem running_dropEndBar {row : Text} (h : g.running row) :
    g.running ((dropEndBar? row).getD row) := by
  unfold dropEndBar?
  split
  · next before hr =>
    dsimp only
    split
    · show g.running (spanWhile (· == '\\') before).2.reverse
      have hrow : row = (spanWhile (· == '\\') before).2.reverse ++
          ((spanWhile (· == '\\') before).1.reverse ++ ['|']) := by
        rw [← List.reverse_reverse row, hr, List.reverse_cons, ← List.append_assoc,
          ← List.reverse_append, spanWhile_append]
      rw [hrow] at h
      refine g.cut h fun c hc => ?_
      rcases List.mem_append.mp (List.mem_of_mem_head? hc) with hc | hc
      · have hall := List.all_eq_true.mp (spanWhile_all (· == '\\') before) c (List.mem_reverse.mp hc)
        rw [eq_of_beq hall]
        decide
      · rw [List.mem_singleton.mp hc]
        decide
    · exact h
  · exact h

theorem running_splitRow (bordered : Bool) {row : Text} (h : g.running row) :
    ∀ cell ∈ splitRow bordered row, g.running cell := by
  unfold splitRow
  split
  · refine running_cells (running_dropEndBar ?_)
    split
    · exact g.suffix h (List.drop_suffix 1 row)
    · exact h
  · exact running_cells h

/-! ### The draft of a table -/

theorem sound_cellDraft {tag : String} (ht : tag ∈ documentTags) {align : Option String}
    (ha : ∀ side ∈ align, side ∈ ["center", "left", "right"]) {text : Text} (h : g.running text) :
    Sound g (cellDraft tag align text) := by
  unfold cellDraft
  cases align with
  | none => exact sound_ofText ht h
  | some side =>
    refine (sound_ofText ht h).set (by decide) (g.value_of_running (g.free ?_))
    have hall : ∀ side ∈ ["center", "left", "right"],
        Mark.opening ∉ "text-align: ".toList ++ side.toList ++ [';'] := by decide
    exact hall side (ha side rfl)

theorem alignment?_mem (separator : Text) :
    ∀ side ∈ alignment? separator, side ∈ ["center", "left", "right"] := by
  intro side hs
  unfold alignment? at hs
  dsimp only at hs
  split at hs
  · cases hs
    decide
  · split at hs
    · cases hs
      decide
    · split at hs
      · cases hs
        decide
      · cases hs

theorem sound_rowDraft {tag : String} (ht : tag ∈ documentTags) (frame : Frame) {row : Text}
    (h : g.running row) : Sound g (rowDraft frame tag row) := by
  refine sound_inner (by decide) ?_
  intro cell hcell
  obtain ⟨⟨align, i⟩, hm, rfl⟩ := List.mem_map.mp hcell
  refine sound_cellDraft ht ?_ (running_trimSpaces ?_)
  · obtain ⟨separator, -, hs⟩ := List.mem_map.mp (List.fst_mem_of_mem_zipIdx hm)
    cases hs
    exact alignment?_mem separator
  · cases hi : (splitRow frame.bordered row)[i]? with
    | none => exact Grade.empty
    | some text => exact running_splitRow frame.bordered h text (List.mem_of_getElem? hi)

theorem sound_emptyRow (frame : Frame) : Sound g (emptyRow frame) := by
  refine sound_inner (by decide) ?_
  intro cell hcell
  obtain ⟨separator, -, rfl⟩ := List.mem_map.mp hcell
  exact sound_bare (by decide)

theorem sound_draft (frame : Frame) {block : Text} (h : g.running block) :
    Sound g (draft frame block) := by
  have hlines := Grade.lines h
  unfold draft
  split
  · exact sound_bare (by decide)
  · next header below hb =>
    rw [hb] at hlines
    obtain ⟨hheader, hbelow⟩ := List.forall_mem_cons.mp hlines
    have hhead : Sound g (⟨"thead", [], none, none,
        [rowDraft frame "th" (trimSpaces header)]⟩ : Draft) :=
      sound_inner (by decide) (List.forall_mem_singleton.mpr
        (sound_rowDraft (by decide) frame (running_trimSpaces hheader)))
    refine sound_inner (by decide) (List.forall_mem_cons.mpr ⟨hhead,
      List.forall_mem_singleton.mpr (sound_inner (by decide) ?_)⟩)
    intro row hrow
    split at hrow
    · rw [List.mem_singleton.mp hrow]
      exact sound_emptyRow frame
    · obtain ⟨line, hline, rfl⟩ := List.mem_map.mp hrow
      exact sound_rowDraft (by decide) frame
        (running_trimSpaces (hbelow line (List.drop_subset 1 below hline)))

end Changelog.Table
