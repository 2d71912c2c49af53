import Changelog.Proofs.History.Scanning
import Changelog.Proofs.Marks.Extracted

/-!
# Blocks of markup are looked for to the end

Each construct of a source takes at least one character, and so does each attribute of a tag and each
comma behind it.  So the bound on the steps is never met, and more steps would change nothing.
-/

namespace Changelog.Raw

open Text

/-! ### Tags -/

namespace Cursor

variable {a b : Cursor}

theorem Leads.total (h : a.Leads b) : b.taken + b.rest.length = a.taken + a.rest.length := by
  obtain ⟨front, hrest, htaken, -⟩ := h
  rw [hrest, htaken, List.length_append, Nat.add_assoc]

theorem Leads.length_le (h : a.Leads b) : b.rest.length ≤ a.rest.length := by
  obtain ⟨front, hrest, -, -⟩ := h
  rw [hrest, List.length_append]
  exact Nat.le_add_left _ _

theorem skip_length_le (p : Char → Bool) (a : Cursor) :
    (a.skip p).rest.length ≤ a.rest.length := by
  obtain ⟨front, hrest, -⟩ := skip_spec p a
  rw [hrest, List.length_append]
  exact Nat.le_add_left _ _

theorem pass?_lt {p : Char → Bool} (h : a.pass? p = some b) : b.rest.length < a.rest.length := by
  obtain ⟨c, -, hrest, -⟩ := pass?_spec h
  rw [hrest]
  exact Nat.lt_succ_self _

end Cursor

open Cursor

section

variable {a b : Cursor} {steps steps' : Nat}

theorem comma_lt (h : (a.skip isSpace).pass? (· == ',') = some b) :
    b.rest.length < a.rest.length :=
  Nat.lt_of_lt_of_le (pass?_lt h) (skip_length_le isSpace a)

theorem skipCommas_done (h : a.rest.length ≤ 0) (steps : Nat) : skipCommas steps a = a := by
  cases steps with
  | zero => rfl
  | succ steps =>
    unfold skipCommas
    split
    · next after hafter => exact absurd (Nat.lt_of_lt_of_le (comma_lt hafter) h) (Nat.not_lt_zero _)
    · rfl

theorem skipCommas_congr (h : a.rest.length ≤ steps) (h' : a.rest.length ≤ steps') :
    skipCommas steps a = skipCommas steps' a := by
  induction steps generalizing steps' a with
  | zero => rw [skipCommas_done h, skipCommas_done h]
  | succ steps ih =>
    cases steps' with
    | zero => rw [skipCommas_done h', skipCommas_done h']
    | succ steps' =>
      unfold skipCommas
      split
      · next after hafter =>
        have hlt := comma_lt hafter
        exact ih (by omega) (by omega)
      · rfl

theorem passValue_congr (manner : Manner) (h : a.rest.length ≤ steps)
    (h' : a.rest.length ≤ steps') : passValue manner steps a = passValue manner steps' a := by
  unfold passValue
  dsimp only
  split
  · split
    · next after hafter =>
      have hle := ((leads_skip parts_space a).trans (leads_value? hafter)).length_le
      rw [skipCommas_congr (Nat.le_trans hle h) (Nat.le_trans hle h')]
    · rfl
  · rfl

theorem attribute?_congr (manner : Manner) (h : a.rest.length ≤ steps + 1)
    (h' : a.rest.length ≤ steps' + 1) : attribute? manner steps a = attribute? manner steps' a := by
  unfold attribute?
  split
  · refine Option.map_congr fun named hnamed => ?_
    have hlt := Nat.lt_of_le_of_lt
      (skip_length_le (fun c => !(isSpace c || c == '/' || c == '=' || c == '>')) named)
      (pass?_lt hnamed)
    rw [passValue_congr manner (Nat.le_of_lt_succ (Nat.lt_of_lt_of_le hlt h))
      (Nat.le_of_lt_succ (Nat.lt_of_lt_of_le hlt h'))]
  · rfl

theorem attribute?_lt {manner : Manner} (h : attribute? manner steps a = some b) :
    b.rest.length < a.rest.length := by
  unfold attribute? at h
  split at h
  · obtain ⟨named, hnamed, rfl⟩ := Option.map_eq_some_iff.mp h
    have hvalue (named : Cursor) :
        (passValue manner steps named).skipGap.rest.length ≤ named.rest.length :=
      ((leads_passValue manner steps named).trans (leads_skipGap _)).length_le
    exact Nat.lt_of_le_of_lt (Nat.le_trans (hvalue _) (skip_length_le _ named)) (pass?_lt hnamed)
  · cases h

/-- Two limits that are the same, or both behind the end of the text. -/
def SameLimit (a : Cursor) (limit limit' : Nat) : Prop :=
  limit = limit' ∨ a.taken + a.rest.length < limit ∧ a.taken + a.rest.length < limit'

theorem SameLimit.leads {limit limit' : Nat} (h : SameLimit a limit limit') (hb : a.Leads b) :
    SameLimit b limit limit' := by
  unfold SameLimit
  rwa [hb.total]

theorem skipAttributes_done (manner : Manner) (limit : Nat) (h : a.rest.length ≤ 0) (steps : Nat) :
    skipAttributes manner limit steps a = a := by
  cases steps with
  | zero => rfl
  | succ steps =>
    unfold skipAttributes
    split
    · split
      · next after hafter =>
        exact absurd (Nat.lt_of_lt_of_le (attribute?_lt hafter) h) (Nat.not_lt_zero _)
      · rfl
    · rfl

theorem skipAttributes_congr (manner : Manner) {limit limit' : Nat} (hl : SameLimit a limit limit')
    (h : a.rest.length ≤ steps) (h' : a.rest.length ≤ steps') :
    skipAttributes manner limit steps a = skipAttributes manner limit' steps' a := by
  induction steps generalizing steps' a with
  | zero => rw [skipAttributes_done _ _ h, skipAttributes_done _ _ h]
  | succ steps ih =>
    cases steps' with
    | zero => rw [skipAttributes_done _ _ h', skipAttributes_done _ _ h']
    | succ steps' =>
      have hlimit : a.taken < limit ↔ a.taken < limit' := by
        unfold SameLimit at hl
        omega
      unfold skipAttributes
      simp only [hlimit, attribute?_congr manner h h']
      split
      · split
        · next after hafter =>
          have hlt := attribute?_lt hafter
          exact ih (hl.leads (leads_attribute? hafter)) (by omega) (by omega)
        · rfl
      · rfl

theorem tagLength?_congr {cs : Text} (h : cs.length ≤ steps) (h' : cs.length ≤ steps') :
    tagLength? steps cs = tagLength? steps' cs := by
  unfold tagLength?
  dsimp only
  generalize hspaced : (Cursor.skip _ (Cursor.skip (isTagChar .strict) ⟨'<', 1, cs.drop 1⟩)) = spaced
  have hle : spaced.rest.length ≤ cs.length := by
    rw [← hspaced]
    refine Nat.le_trans (skip_length_le _ _) (Nat.le_trans (skip_length_le _ _) ?_)
    exact (List.drop_suffix 1 cs).length_le
  have hlimit : SameLimit spaced (spaced.taken + steps + 1) (spaced.taken + steps' + 1) :=
    Or.inr ⟨by omega, by omega⟩
  rw [skipAttributes_congr .strict hlimit (Nat.le_trans hle h) (Nat.le_trans hle h')]

theorem readTag_congr (length : Nat) {cs : Text} (h : cs.length ≤ steps) (h' : cs.length ≤ steps') :
    readTag steps length cs = readTag steps' length cs := by
  have hle : ((Cursor.mk '<' 1 (cs.drop 1)).skip (isTagChar .loose)).skipGap.rest.length ≤
      cs.length :=
    Nat.le_trans (leads_skipGap _).length_le (Nat.le_trans (skip_length_le _ _)
      (List.drop_suffix 1 cs).length_le)
  unfold readTag
  dsimp only
  rw [skipAttributes_congr .loose (Or.inl rfl) (Nat.le_trans hle h) (Nat.le_trans hle h')]

/-- A tag takes at least its bracket. -/
theorem tagLength?_pos {cs : Text} {length : Nat} (h : tagLength? steps cs = some length) :
    0 < length := by
  have htaken {a b : Cursor} (hb : a.Leads b) (h : 0 < a.taken) : 0 < b.taken := by
    obtain ⟨front, -, htaken, -⟩ := hb
    omega
  have hskip (p : Char → Bool) {a : Cursor} (h : 0 < a.taken) : 0 < (a.skip p).taken := by
    obtain ⟨front, -, htaken, -⟩ := skip_spec p a
    omega
  unfold tagLength? at h
  dsimp only at h
  generalize hfinal : Cursor.skip isSpace _ = final at h
  have hpos : 0 < final.taken := by
    rw [← hfinal]
    exact hskip _ (htaken (leads_skipAttributes _ _ _ _) (hskip _ (hskip _ Nat.one_pos)))
  split at h
  · cases h
  · cases h
    exact Nat.succ_pos _
  · cases h
    exact Nat.succ_pos _
  · split at h
    · cases h
    · cases h
      exact hpos

end

/-! ### Constructs -/

namespace Scan

variable {s : Scan}

theorem rest_advance (s : Scan) (n : Nat) : (s.advance n).rest = s.rest.drop n := by
  fun_induction Scan.advance s n with
  | case1 => rfl
  | case2 s n hr => rw [hr, List.drop_nil]
  | case3 s n cs hr ih => rw [ih, hr, List.drop_succ_cons]
  | case4 s n c cs hr _ ih => rw [ih, hr, List.drop_succ_cons]

theorem rest_atLineStart (s : Scan) : s.atLineStart.2.rest = s.rest := by
  unfold atLineStart
  split
  · rfl
  · split
    · rfl
    · rfl

theorem rest_started (s : Scan) : s.started.2.rest = s.rest := by
  unfold started
  split
  · rfl
  · exact rest_atLineStart s

theorem rest_readData (s : Scan) (data : Text) : (s.readData data).rest = s.rest := by
  have hput (s : Scan) : (if s.inBlock then s.hold data
      else if occursIn ['\n', '\n'] data then { s.put data with inline := [] }
      else s.put data).rest = s.rest := by
    split
    · rfl
    · split
      · rfl
      · rfl
  unfold readData
  cases data.contains '\n' with
  | true => exact hput { s with inTail := false }
  | false => exact hput s

theorem rest_storeEmpty (s : Scan) (data : Text) : (s.storeEmpty data).rest = s.rest := by
  have hbreak (s : Scan) (data : Text) :
      ((if s.endsWithOneBreak then s.put ['\n'] else s).storeBlock data).rest = s.rest := by
    split
    · rfl
    · rfl
  unfold storeEmpty
  split
  next data' t heq =>
  split at heq
  · cases heq
    exact hbreak s _
  · cases heq
    exact hbreak { s with inTail := true } _

theorem rest_readEmpty (s : Scan) (data : Text) (mayBlock : Bool) :
    (s.readEmpty data mayBlock).rest = s.rest := by
  rw [readEmpty_eq]
  split
  · rfl
  · split
    · exact (rest_storeEmpty _ data).trans (rest_atLineStart s)
    · exact rest_atLineStart s

theorem rest_readOpening (s : Scan) (tag : String) (text : Text) :
    (s.readOpening tag text).rest = s.rest := by
  have hopened (s : Scan) : (if s.inBlock then { s.hold text with opened := tag :: s.opened }
      else { s.put text with
        verbatim := none,
        inline := if voidTags.contains tag then s.inline else tag :: s.inline }).rest = s.rest := by
    split
    · rfl
    · rfl
  have hfound : (if isBlockTag tag.toList then if s.inTail then (true, s) else s.atLineStart
      else (false, s)).2.rest = s.rest := by
    split
    · exact rest_started s
    · rfl
  unfold readOpening
  generalize (if isBlockTag tag.toList then if s.inTail then (true, s) else s.atLineStart
    else (false, s)) = found at hfound
  obtain ⟨starts, t⟩ := found
  cases starts with
  | true => exact (hopened (({ t with inBlock := true } : Scan).put ['\n'])).trans hfound
  | false => exact (hopened t).trans hfound

theorem rest_readClosing (s : Scan) (tag : String) : (s.readClosing tag).rest = s.rest := by
  unfold readClosing
  dsimp only
  split
  · split
    · split
      · rfl
      · rfl
    · rfl
  · rfl

/-! ### Turns -/

/-- A construct that is read leaves the scan where it is, and takes at least one character. -/
def Goes (s : Scan) (turn : Turn) : Prop :=
  turn.1.rest = s.rest ∧ 0 < turn.2

theorem goes_readUnclosed (s : Scan) : s.Goes s.readUnclosed :=
  ⟨rest_readData s ['<'], Nat.succ_pos _⟩

theorem goes_readTagTurn (s : Scan) (steps : Nat) : s.Goes (s.readTagTurn steps) := by
  unfold readTagTurn
  split
  · exact ⟨rest_readData s _, Nat.succ_pos _⟩
  · split
    · exact goes_readUnclosed s
    · next length hlength =>
      have hpos := tagLength?_pos hlength
      dsimp only
      split
      · exact ⟨rest_readData s _, hpos⟩
      · exact ⟨rest_readEmpty s _ _, hpos⟩
      · next tag _ =>
        have hopened : (if verbatimTags.contains tag then { s with verbatim := some tag }
            else s).rest = s.rest := by
          split
          · rfl
          · rfl
        split
        · exact ⟨(rest_readEmpty _ _ _).trans hopened, hpos⟩
        · exact ⟨(rest_readOpening _ _ _).trans hopened, hpos⟩

theorem goes_readClosingTurn (s : Scan) : s.Goes s.readClosingTurn := by
  unfold readClosingTurn
  split
  · split
    · exact ⟨rest_readData s _, Nat.succ_pos _⟩
    · split
      · exact goes_readUnclosed s
      · next inside _ _ _ =>
        dsimp only
        generalize (if (spanWhile isClosingChar inside).2.all isSpace then _ else _) = tag
        split
        · split
          · exact ⟨rest_readClosing s _, Nat.succ_pos _⟩
          · exact ⟨rest_readData s _, Nat.succ_pos _⟩
        · exact ⟨rest_readClosing s _, Nat.succ_pos _⟩
  · exact ⟨rest_readData s _, Nat.succ_pos _⟩

theorem goes_readCommentTurn (s : Scan) : s.Goes s.readCommentTurn := by
  unfold readCommentTurn
  dsimp only
  split
  · exact goes_readUnclosed s
  · split
    · exact ⟨rest_readEmpty s.lookUp _ _, Nat.add_pos_left (Nat.succ_pos _) _⟩
    · exact goes_readUnclosed s.lookUp

theorem goes_readInstructionTurn (s : Scan) : s.Goes s.readInstructionTurn := by
  have hstarted := rest_started s
  rw [readInstructionTurn_eq]
  split
  · split
    · exact ⟨(rest_readData _ _).trans hstarted, Nat.succ_pos _⟩
    · exact ⟨(rest_readEmpty _ _ _).trans hstarted, Nat.succ_pos _⟩
  · exact ⟨(rest_readData _ _).trans hstarted, Nat.succ_pos _⟩

theorem goes_readBogus (s : Scan) : s.Goes s.readBogus := by
  unfold readBogus
  split
  · exact goes_readUnclosed s
  · exact ⟨rest_readEmpty s _ _, Nat.succ_pos _⟩

theorem goes_readDeclaration (s : Scan) : s.Goes s.readDeclaration := by
  unfold readDeclaration
  split
  · split
    · exact goes_readUnclosed s
    · exact ⟨rest_readEmpty s _ _, Nat.add_pos_left (Nat.succ_pos _) _⟩
  · split
    · exact goes_readBogus s
    · split
      · split
        · exact goes_readUnclosed s
        · exact ⟨rest_readEmpty s _ _, Nat.succ_pos _⟩
      · exact goes_readBogus s

theorem goes_readDeclarationTurn (s : Scan) : s.Goes s.readDeclarationTurn := by
  have hstarted := rest_started s
  rw [readDeclarationTurn_eq]
  split
  · exact ⟨(rest_readData _ _).trans hstarted, Nat.succ_pos _⟩
  · obtain ⟨hrest, hpos⟩ := goes_readDeclaration s.started.2
    exact ⟨hrest.trans hstarted, hpos⟩

theorem goes_readBracket (s : Scan) (steps : Nat) : s.Goes (s.readBracket steps) := by
  unfold readBracket
  split
  · exact goes_readTagTurn s steps
  split
  · exact goes_readClosingTurn s
  split
  · exact goes_readCommentTurn s
  split
  · exact goes_readInstructionTurn s
  split
  · exact goes_readDeclarationTurn s
  · exact ⟨rest_readData s _, Nat.succ_pos _⟩

theorem goes_readReference {turn : Turn} (h : s.readReference = .ok turn) : s.Goes turn := by
  unfold readReference at h
  split at h
  · split at h
    · cases h
      exact ⟨rest_readEmpty s _ _, Nat.succ_pos _⟩
    · cases h
  · split at h
    · cases h
      exact ⟨rest_readEmpty s _ _, Nat.succ_pos _⟩
    · split at h
      · cases h
      · cases h
        exact ⟨rest_readData s _, Nat.succ_pos _⟩
  · cases h

theorem rest_stop {t : Scan} (h : s.readReference = .error t) : t.rest <:+ s.rest := by
  unfold readReference at h
  split at h
  · split at h
    · cases h
    · cases h
      split
      · rw [rest_advance, rest_readData]
        exact List.drop_suffix _ _
      · exact List.suffix_refl _
  · split at h
    · cases h
    · split at h
      · cases h
        exact List.suffix_refl _
      · cases h
  · cases h
    exact List.suffix_refl _

theorem Goes.suffix {turn : Turn} (h : s.Goes turn) :
    (turn.1.advance turn.2).rest <:+ s.rest := by
  rw [rest_advance, h.1]
  exact List.drop_suffix _ _

theorem Goes.lt {turn : Turn} (h : s.Goes turn) (hne : s.rest ≠ []) :
    (turn.1.advance turn.2).rest.length < s.rest.length := by
  have hpos := List.length_pos_iff.mpr hne
  rw [rest_advance, h.1, List.length_drop]
  exact Nat.sub_lt hpos h.2

/-! ### Whole scans -/

theorem readTagTurn_congr {steps steps' : Nat} (h : s.rest.length ≤ steps)
    (h' : s.rest.length ≤ steps') : s.readTagTurn steps = s.readTagTurn steps' := by
  unfold readTagTurn
  rw [tagLength?_congr h h']
  simp only [readTag_congr _ h h']

theorem readBracket_congr {steps steps' : Nat} (h : s.rest.length ≤ steps)
    (h' : s.rest.length ≤ steps') : s.readBracket steps = s.readBracket steps' := by
  unfold readBracket
  rw [readTagTurn_congr h h']

theorem rest_plain (s : Scan) (text : Text) :
    (if text = [] then s else (s.readData text).advance text.length).rest <:+ s.rest := by
  split
  · exact List.suffix_refl _
  · rw [rest_advance, rest_readData]
    exact List.drop_suffix _ _

theorem proceed_congr {steps steps' : Nat} (h : s.rest.length ≤ steps)
    (h' : s.rest.length ≤ steps')
    (hrun : ∀ t : Scan, t.rest.length < s.rest.length → t.run steps = t.run steps') :
    s.proceed steps = s.proceed steps' := by
  unfold proceed
  split
  · rfl
  · next more hrest =>
    split
    · rfl
    · have hne : s.rest ≠ [] := by
        rw [hrest]
        exact List.cons_ne_nil _ _
      dsimp only
      rw [readBracket_congr h h']
      exact hrun _ ((goes_readBracket s steps').lt hne)
  · next hnil _ =>
    cases ht : s.readReference with
    | ok turn => exact hrun _ ((goes_readReference ht).lt hnil)
    | error t => rfl

theorem run_congr {steps steps' : Nat} (h : s.rest.length < steps) (h' : s.rest.length < steps') :
    s.run steps = s.run steps' := by
  induction steps generalizing steps' s with
  | zero => exact absurd h (Nat.not_lt_zero _)
  | succ steps ih =>
    obtain ⟨steps', rfl⟩ := Nat.exists_eq_succ_of_ne_zero (Nat.ne_zero_of_lt h')
    rw [run_succ, run_succ]
    split
    · rfl
    · split
      · rfl
      · next text _ =>
        have hle := (rest_plain s text).length_le
        exact proceed_congr (by omega) (by omega) fun t ht => ih (by omega) (by omega)

theorem rest_run (s : Scan) (steps : Nat) : (s.run steps).rest <:+ s.rest := by
  induction steps generalizing s with
  | zero => exact List.suffix_refl _
  | succ steps ih =>
    rw [run_succ]
    split
    · exact List.suffix_refl _
    · split
      · exact List.suffix_refl _
      · next text _ =>
        refine List.IsSuffix.trans ?_ (rest_plain s text)
        generalize (if text = [] then s else (s.readData text).advance text.length) = s
        unfold proceed
        split
        · exact List.suffix_refl _
        · split
          · exact List.suffix_refl _
          · exact (ih _).trans (goes_readBracket s steps).suffix
        · split
          · next turn ht => exact (ih _).trans (goes_readReference ht).suffix
          · next t ht => exact rest_stop ht

end Scan

/-- With more steps than the bound the same markup is stored: both scans come to their end before
it. -/
theorem store_of_stepsFor {steps : Nat} {source : Text} (h : Scan.stepsFor source ≤ steps)
    (stash : Stash) :
    let first := (Scan.start stash source).run steps
    let final := (first.renew.run steps).finish
    (final.pieces.reverse.flatten, final.stash) = store stash source := by
  have hlt : source.length < Scan.stepsFor source := Nat.lt_succ_self _
  have hfirst : (Scan.start stash source).run steps =
      (Scan.start stash source).run (Scan.stepsFor source) :=
    Scan.run_congr (Nat.lt_of_lt_of_le hlt h) hlt
  have hrest := (Scan.rest_run (Scan.start stash source) (Scan.stepsFor source)).length_le
  have hlater : ((Scan.start stash source).run (Scan.stepsFor source)).renew.rest.length <
      Scan.stepsFor source :=
    Nat.lt_of_le_of_lt hrest hlt
  dsimp only
  rw [hfirst, Scan.run_congr (Nat.lt_of_lt_of_le hlater h) hlater]
  rfl

end Changelog.Raw
