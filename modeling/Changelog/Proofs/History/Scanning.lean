import Changelog.Markdown.Fence
import Changelog.Markdown.Raw.Extract
import Changelog.Proofs.History.Steady

/-!
# Storing fenced code and blocks of markup

The scans that store fenced code and blocks of markup look at the source only: each construct leaves
the stash alone, or stores one piece of markup and puts its mark out.
-/

namespace Changelog

open Text Holder

/-- Storing markup, the outcome being its mark. -/
theorem Steady.storeMarkup (markup : Text) : Steady fun stash => stash.store markup :=
  .store markup fun n => (Mark.raw n, Stash.empty)

/-! ### Fenced code -/

namespace Fence

theorem steady_storeLines (steps : Nat) (pieces : List Text) :
    Steady fun stash => storeLines steps stash pieces := by
  induction steps generalizing pieces with
  | zero => exact .idle (pieces, Stash.empty)
  | succ steps ih =>
    cases pieces with
    | nil => exact .idle (([] : List Text), Stash.empty)
    | cons line following =>
      unfold storeLines
      dsimp only
      split
      · next markup after _ =>
        exact (Steady.storeMarkup markup).bind
          (f := fun stored =>
            let rest := storeLines steps stored.2 after
            ([] :: stored.1 :: [] :: rest.1, rest.2))
          fun stored => (ih after).map ([] :: stored.1 :: [] :: ·)
      · exact (ih following).map (line :: ·)

theorem steady_store (source : Text) : Steady fun stash => store stash source :=
  (steady_storeLines _ (lines source)).map (joinWith ['\n'])

end Fence

/-! ### Blocks of markup -/

namespace Raw

instance : Holder Scan :=
  ⟨fun s stash => { s with stash }⟩

instance : Holder Scan.Turn :=
  ⟨fun turn stash => (withStash turn.1 stash, turn.2)⟩

namespace Scan

/-! The scan moves on, looks lines up and reads text whatever is stored. -/

section

variable (s : Scan) (stash : Stash)

theorem withStash_eq : withStash s stash = { s with stash } := rfl

theorem withStash_rest : (withStash s stash).rest = s.rest := rfl

theorem withStash_inBlock : (withStash s stash).inBlock = s.inBlock := rfl

theorem withStash_inTail : (withStash s stash).inTail = s.inTail := rfl

theorem withStash_advance (n : Nat) :
    (withStash s stash).advance n = withStash (s.advance n) stash := by
  induction n generalizing s with
  | zero => rfl
  | succ n ih =>
    unfold advance
    cases s.rest with
    | nil => rfl
    | cons c cs =>
      dsimp only
      split
      · exact ih { s with rest := cs, line := s.line + 1, column := 0 }
      · exact ih { s with rest := cs, column := s.column + 1 }

theorem withStash_lookUp : (withStash s stash).lookUp = withStash s.lookUp stash :=
  rfl

theorem withStash_atLineStart :
    (withStash s stash).atLineStart = withStash s.atLineStart stash := by
  simp only [withStash_eq, atLineStart]
  split
  · rfl
  · split
    · rfl
    · rfl

theorem withStash_readData (data : Text) :
    (withStash s stash).readData data = withStash (s.readData data) stash := by
  have hput (s : Scan) : (if (withStash s stash).inBlock then (withStash s stash).hold data
      else if occursIn ['\n', '\n'] data then { (withStash s stash).put data with inline := [] }
      else (withStash s stash).put data) =
      withStash (if s.inBlock then s.hold data
        else if occursIn ['\n', '\n'] data then { s.put data with inline := [] }
        else s.put data) stash := by
    rw [withStash_inBlock]
    split
    · rfl
    · split
      · rfl
      · rfl
  unfold readData
  cases data.contains '\n' with
  | true => exact hput { s with inTail := false }
  | false => exact hput s

theorem withStash_readOpening (tag : String) (text : Text) :
    (withStash s stash).readOpening tag text = withStash (s.readOpening tag text) stash := by
  have hopened (s : Scan) : (if (withStash s stash).inBlock then
      { (withStash s stash).hold text with opened := tag :: (withStash s stash).opened }
      else { (withStash s stash).put text with
        verbatim := none,
        inline := if voidTags.contains tag then (withStash s stash).inline
          else tag :: (withStash s stash).inline }) =
      withStash (if s.inBlock then { s.hold text with opened := tag :: s.opened }
        else { s.put text with
          verbatim := none,
          inline := if voidTags.contains tag then s.inline else tag :: s.inline }) stash := by
    rw [withStash_inBlock]
    split
    · rfl
    · rfl
  have hstarts (s : Scan) (starts : Bool) : (if starts then
      ({ withStash s stash with inBlock := true } : Scan).put ['\n'] else withStash s stash) =
      withStash (if starts then ({ s with inBlock := true } : Scan).put ['\n'] else s) stash := by
    cases starts with
    | true => rfl
    | false => rfl
  unfold readOpening
  rw [withStash_atLineStart, withStash_inTail]
  cases isBlockTag tag.toList with
  | false => exact hopened s
  | true =>
    cases s.inTail with
    | true => exact hopened (({ s with inBlock := true } : Scan).put ['\n'])
    | false =>
      generalize s.atLineStart = found
      obtain ⟨starts, s⟩ := found
      cases starts with
      | true => exact hopened (({ s with inBlock := true } : Scan).put ['\n'])
      | false => exact hopened s

end

/-! ### Constructs -/

theorem steady_storeBlock (s : Scan) (markup : Text) :
    Steady fun stash => (withStash s stash).storeBlock markup :=
  .store markup fun n => { s with pieces := ['\n', '\n'] :: Mark.raw n :: s.pieces }

/-- Markup without content stored, at the start of a line. -/
def storeEmpty (s : Scan) (data : Text) : Scan :=
  let (data, s) : Text × Scan :=
    if beginsBlank (s.ahead data.length) then (data ++ ['\n'], s)
    else (data, { s with inTail := true })
  let s := if s.endsWithOneBreak then s.put ['\n'] else s
  s.storeBlock data

theorem readEmpty_eq (s : Scan) (data : Text) (mayBlock : Bool) :
    s.readEmpty data mayBlock =
      if s.inBlock || s.inTail then s.hold data
      else if s.atLineStart.1 && mayBlock then s.atLineStart.2.lookUp.storeEmpty data
      else s.atLineStart.2.put data :=
  rfl

theorem steady_storeEmpty (s : Scan) (data : Text) :
    Steady fun stash => (withStash s stash).storeEmpty data := by
  have hbreak (s : Scan) (data : Text) : Steady fun stash =>
      (if (withStash s stash).endsWithOneBreak then (withStash s stash).put ['\n']
        else withStash s stash).storeBlock data := by
    cases hb : s.endsWithOneBreak with
    | true =>
      have hb' (stash : Stash) : (withStash s stash).endsWithOneBreak = true := hb
      simp only [hb', if_true]
      exact steady_storeBlock (s.put ['\n']) data
    | false =>
      have hb' (stash : Stash) : (withStash s stash).endsWithOneBreak = false := hb
      simp only [hb', Bool.false_eq_true, if_false]
      exact steady_storeBlock s data
  cases hb : beginsBlank (s.ahead data.length) with
  | true =>
    have hb' (stash : Stash) : beginsBlank ((withStash s stash).ahead data.length) = true := hb
    simp only [storeEmpty, hb', if_true]
    exact hbreak s (data ++ ['\n'])
  | false =>
    have hb' (stash : Stash) : beginsBlank ((withStash s stash).ahead data.length) = false := hb
    simp only [storeEmpty, hb', Bool.false_eq_true, if_false]
    exact hbreak { s with inTail := true } data

theorem steady_readEmpty (s : Scan) (data : Text) (mayBlock : Bool) :
    Steady fun stash => (withStash s stash).readEmpty data mayBlock := by
  simp only [readEmpty_eq, withStash_atLineStart]
  refine .ite (c := (s.inBlock || s.inTail) = true) (fun _ => .idle (s.hold data)) fun _ => ?_
  refine .ite (c := (s.atLineStart.1 && mayBlock) = true) (fun _ => ?_)
    fun _ => .idle (s.atLineStart.2.put data)
  exact steady_storeEmpty s.atLineStart.2.lookUp data

theorem steady_readClosing (s : Scan) (tag : String) :
    Steady fun stash => (withStash s stash).readClosing tag := by
  have hclose (s : Scan) (n : Nat) : Steady fun stash =>
      let ended : Scan := if beginsBlank ((withStash s stash).ahead n) then
        (withStash s stash).hold ['\n'] else { withStash s stash with inTail := true }
      ({ ended.storeBlock ended.held with inBlock := false, held := [] } : Scan) := by
    have hstore (s : Scan) : Steady fun stash => ({ (withStash s stash).storeBlock s.held with
        inBlock := false, held := [] } : Scan) :=
      .store s.held fun n =>
        { s with pieces := ['\n', '\n'] :: Mark.raw n :: s.pieces, inBlock := false, held := [] }
    cases hb : beginsBlank (s.ahead n) with
    | true =>
      have hb' (stash : Stash) : beginsBlank ((withStash s stash).ahead n) = true := hb
      simp only [hb', if_true]
      exact hstore (s.hold ['\n'])
    | false =>
      have hb' (stash : Stash) : beginsBlank ((withStash s stash).ahead n) = false := hb
      simp only [hb', Bool.false_eq_true, if_false]
      exact hstore { s with inTail := true }
  let looked := s.lookUp
  let text := looked.closingText tag
  let held : Scan := { looked.hold text with opened := close tag looked.opened }
  refine .ite (c := looked.inBlock = true) (fun _ => ?_)
    fun _ => .idle { looked.put text with inline := close tag looked.inline }
  exact .ite (c := held.opened = []) (fun _ => hclose held text.length) fun _ => .idle held

theorem steady_count {step : Stash → Scan} (h : Steady step) (count : Nat) :
    Steady fun stash => ((step stash, count) : Turn) :=
  h.bind (f := fun s => ((s, count) : Turn)) fun s => .idle ((s, count) : Turn)

theorem steady_readData (s : Scan) (data : Text) (count : Nat) :
    Steady fun stash => (((withStash s stash).readData data, count) : Turn) := by
  simp only [withStash_readData]
  exact .idle ((s.readData data, count) : Turn)

theorem steady_readUnclosed (s : Scan) : Steady fun stash => (withStash s stash).readUnclosed :=
  steady_readData s ['<'] 1

theorem steady_readTagTurn (steps : Nat) (s : Scan) :
    Steady fun stash => readTagTurn steps (withStash s stash) := by
  unfold readTagTurn
  refine .ite (c := startsWith s.rest "</>".toList = true)
    (fun _ => steady_readData s "</>".toList 3) fun _ => ?_
  simp only [withStash_rest]
  cases tagLength? steps s.rest with
  | none => exact steady_readUnclosed s
  | some length =>
    have hempty (s : Scan) (tag : String) := steady_count
      (steady_readEmpty s (s.rest.take length) (isBlockTag tag.toList)) length
    dsimp only
    cases readTag steps length s.rest with
    | mk tag tagEnd =>
      cases tagEnd with
      | broken => exact steady_readData s (s.rest.take length) length
      | closes => exact hempty s tag
      | opens =>
        have hopen (s : Scan) : Steady fun stash =>
            ((withStash s stash).readOpening tag (s.rest.take length), length) := by
          simp only [withStash_readOpening]
          exact .idle ((s.readOpening tag (s.rest.take length), length) : Turn)
        dsimp only
        generalize verbatimTags.contains tag = opensVerbatim
        refine .ite (fun _ => ?_) fun _ => ?_
        · cases opensVerbatim with
          | true => exact hempty { s with verbatim := some tag } tag
          | false => exact hempty s tag
        · cases opensVerbatim with
          | true => exact hopen { s with verbatim := some tag }
          | false => exact hopen s

theorem steady_readClosingTurn (s : Scan) :
    Steady fun stash => readClosingTurn (withStash s stash) := by
  by_cases hr : ∃ c more, s.rest = '<' :: '/' :: c :: more
  case neg =>
    refine (steady_readData s ['<', '/'] 2).congr fun stash => ?_
    unfold readClosingTurn
    split
    · next c more hrest => exact absurd ⟨c, more, hrest⟩ hr
    · rfl
  obtain ⟨c, more, hr⟩ := hr
  have hr' (stash : Stash) : (withStash s stash).rest = '<' :: '/' :: c :: more := hr
  simp only [readClosingTurn, hr']
  refine .ite (fun _ => steady_readData s ['<', '/'] 2) fun _ => ?_
  cases spanWhile (· != '>') (c :: more) with
  | mk inside behind =>
    cases behind with
    | nil => exact steady_readUnclosed s
    | cons d behind =>
      dsimp only
      generalize (if (spanWhile isClosingChar inside).2.all isSpace = true then
        String.ofList (Text.lower (spanWhile isClosingChar inside).1)
        else String.ofList (Text.lower (spanWhile (isTagChar .loose) inside).1)) = tag
      have hclosing := steady_count (steady_readClosing s tag) (inside.length + 3)
      have hverbatim (stash : Stash) : (withStash s stash).verbatim = s.verbatim := rfl
      simp only [hverbatim]
      cases s.verbatim with
      | none => exact hclosing
      | some element =>
        refine .ite (fun _ => ?_) fun _ => steady_readData s _ _
        exact (steady_readClosing s tag).bind
          (f := fun closed => (({ closed with verbatim := none }, inside.length + 3) : Turn))
          fun closed => .idle (({ closed with verbatim := none }, inside.length + 3) : Turn)

theorem steady_readCommentTurn (s : Scan) :
    Steady fun stash => readCommentTurn (withStash s stash) := by
  unfold readCommentTurn
  simp only [withStash_rest, withStash_lookUp]
  cases (commentEnd? 0 (s.rest.drop 4)).or (abruptEnd? (s.rest.drop 4)) with
  | none => exact steady_readUnclosed s
  | some found =>
    obtain ⟨length, closing⟩ := found
    refine .ite (c := startsWith (s.lookUp.ahead (length + 4)) "-->".toList = true) (fun _ => ?_)
      fun _ => steady_readUnclosed s.lookUp
    exact steady_count (steady_readEmpty s.lookUp _ (s.lookUp.inline == [])) _

/-- Whether a construct begins a line, or follows a block in its line. -/
def started (s : Scan) : Bool × Scan :=
  if s.inTail then (true, s) else s.atLineStart

theorem withStash_started (s : Scan) (stash : Stash) :
    (withStash s stash).started = withStash s.started stash := by
  unfold started
  rw [withStash_atLineStart, withStash_inTail]
  split
  · rfl
  · rfl

theorem readInstructionTurn_eq (s : Scan) :
    s.readInstructionTurn =
      if s.started.1 then
        match splitFirst? "?>".toList (s.started.2.rest.drop 2) with
        | none => s.started.2.readUnclosed
        | some (inside, _) =>
          (s.started.2.readEmpty ("<?".toList ++ inside ++ "?>".toList) true, inside.length + 4)
      else (s.started.2.readData "<?".toList, 2) := rfl

theorem steady_readInstructionTurn (s : Scan) :
    Steady fun stash => readInstructionTurn (withStash s stash) := by
  simp only [readInstructionTurn_eq, withStash_started]
  generalize s.started = found
  obtain ⟨starts, s⟩ := found
  refine .ite (c := starts = true) (fun _ => ?_) fun _ => steady_readData s "<?".toList 2
  simp only [withStash_snd, withStash_rest]
  cases splitFirst? "?>".toList (s.rest.drop 2) with
  | none => exact steady_readUnclosed s
  | some r => exact steady_count (steady_readEmpty s ("<?".toList ++ r.1 ++ "?>".toList) true) _

theorem steady_readBogus (s : Scan) : Steady fun stash => (withStash s stash).readBogus := by
  unfold readBogus
  simp only [withStash_rest]
  cases spanWhile (· != '>') (s.rest.drop 2) with
  | mk inside behind =>
    cases behind with
    | nil => exact steady_readUnclosed s
    | cons c behind => exact steady_count (steady_readEmpty s _ false) (inside.length + 3)

/-- The declaration or section at a scan read, where it may begin. -/
def readDeclaration (s : Scan) : Turn :=
  if startsWith s.rest "<![CDATA[".toList then
    match sectionEnd? (s.rest.drop 3) with
    | none => s.readUnclosed
    | some (inside, closing) =>
      (s.readEmpty ("<![".toList ++ inside ++ "]]>".toList) true, inside.length + 3 + closing)
  else if startsWith s.rest "<![".toList then s.readBogus
  else if lowerAscii (s.rest.take 9) = "<!doctype".toList then
    match spanWhile (· != '>') (s.rest.drop 9) with
    | (_, []) => s.readUnclosed
    | (inside, _ :: _) =>
      (s.readEmpty (s.rest.take (inside.length + 10)) true, inside.length + 10)
  else s.readBogus

theorem steady_readDeclaration (s : Scan) :
    Steady fun stash => (withStash s stash).readDeclaration := by
  unfold readDeclaration
  simp only [withStash_rest]
  refine .ite (fun _ => ?_) fun _ => .ite (fun _ => steady_readBogus s) fun _ =>
    .ite (fun _ => ?_) fun _ => steady_readBogus s
  · cases sectionEnd? (s.rest.drop 3) with
    | none => exact steady_readUnclosed s
    | some r =>
      exact steady_count (steady_readEmpty s ("<![".toList ++ r.1 ++ "]]>".toList) true) _
  · cases spanWhile (· != '>') (s.rest.drop 9) with
    | mk inside behind =>
      cases behind with
      | nil => exact steady_readUnclosed s
      | cons c behind => exact steady_count (steady_readEmpty s _ true) (inside.length + 10)

theorem readDeclarationTurn_eq (s : Scan) : s.readDeclarationTurn =
    if !s.started.1 then (s.started.2.readData "<!".toList, 2)
    else s.started.2.readDeclaration := rfl

theorem steady_readDeclarationTurn (s : Scan) :
    Steady fun stash => readDeclarationTurn (withStash s stash) := by
  simp only [readDeclarationTurn_eq, withStash_started]
  generalize s.started = found
  obtain ⟨starts, s⟩ := found
  exact .ite (c := (!starts) = true) (fun _ => steady_readData s "<!".toList 2)
    fun _ => steady_readDeclaration s

theorem steady_readBracket (steps : Nat) (s : Scan) :
    Steady fun stash => readBracket steps (withStash s stash) := by
  have hstarts (lead : Text) {yes no : Stash → Turn} (hy : Steady yes) (hn : Steady no) :
      Steady fun stash => if startsWith (withStash s stash).rest lead then yes stash
        else no stash :=
    .ite (c := startsWith s.rest lead = true) (fun _ => hy) fun _ => hn
  refine .ite (c := beginsTag s.rest = true) (fun _ => steady_readTagTurn steps s) fun _ => ?_
  refine hstarts "</".toList (steady_readClosingTurn s) ?_
  refine hstarts "<!--".toList (steady_readCommentTurn s) ?_
  refine hstarts "<?".toList (steady_readInstructionTurn s) ?_
  exact hstarts "<!".toList (steady_readDeclarationTurn s) (steady_readData s ['<'] 1)

/-! ### Whole scans -/

instance : Holder (Except Scan Turn) where
  withStash
    | .ok turn, stash => .ok (withStash turn stash)
    | .error s, stash => .error (withStash s stash)

theorem steady_ok {step : Stash → Turn} (h : Steady step) :
    Steady fun stash => (.ok (step stash) : Except Scan Turn) :=
  h.bind (f := fun turn => (.ok turn : Except Scan Turn)) fun turn =>
    .idle (.ok turn : Except Scan Turn)

theorem steady_stop (s : Scan) :
    Steady fun stash => (.error (withStash s stash) : Except Scan Turn) :=
  .idle (.error s : Except Scan Turn)

/-- What is read behind an ampersand that begins no number. -/
theorem readReference_name {s : Scan} {more : Text} (hr : s.rest = '&' :: more)
    (hmore : ∀ ds, more ≠ '#' :: ds) :
    s.readReference =
      match readName? more with
      | some name => .ok (s.readEmpty ('&' :: name ++ [';']) false, name.length + 2)
      | none => if more = [] then .error s else .ok (s.readData ['&'], 1) := by
  unfold readReference
  rw [hr]
  split
  · next ds hd => exact absurd (List.cons.inj hd).2 (hmore ds)
  · next ds _ hd =>
    cases (List.cons.inj hd).2
    rfl
  · next h => exact absurd rfl (h more)

theorem steady_readReference (s : Scan) :
    Steady fun stash => (withStash s stash).readReference := by
  by_cases hnumber : ∃ more, s.rest = '&' :: '#' :: more
  · obtain ⟨more, hr⟩ := hnumber
    have hr' (stash : Stash) : (withStash s stash).rest = '&' :: '#' :: more := hr
    simp only [readReference, hr']
    cases readNumber? more with
    | some r =>
      exact steady_ok (steady_count (steady_readEmpty s ("&#".toList ++ r.1 ++ [';']) false) _)
    | none =>
      by_cases hm : more.contains ';' = true
      · simp only [hm, if_true, withStash_readData, withStash_advance]
        exact steady_stop ((s.readData "&#".toList).advance 2)
      · simp only [hm, Bool.false_eq_true, if_false]
        exact steady_stop s
  · by_cases hname : ∃ more, s.rest = '&' :: more
    · obtain ⟨more, hr⟩ := hname
      have hmore : ∀ ds, more ≠ '#' :: ds := fun ds hd => hnumber ⟨ds, by rw [hr, hd]⟩
      have hturn (stash : Stash) :=
        readReference_name (show (withStash s stash).rest = '&' :: more from hr) hmore
      simp only [hturn]
      cases readName? more with
      | some name =>
        exact steady_ok (steady_count (steady_readEmpty s ('&' :: name ++ [';']) false) _)
      | none =>
        exact .ite (c := more = []) (fun _ => steady_stop s)
          fun _ => steady_ok (steady_readData s ['&'] 1)
    · refine (steady_stop s).congr fun stash => ?_
      unfold readReference
      split
      · next ds hd => exact absurd ⟨'#' :: ds, hd⟩ hname
      · next ds _ hd => exact absurd ⟨ds, hd⟩ hname
      · rfl

/-- What a scan reads after the text before it, and the scan goes on. -/
def proceed (steps : Nat) (s : Scan) : Scan :=
  match s.rest with
  | [] => s
  | '<' :: more =>
    if more = [] then s
    else
      let turn := readBracket steps s
      run steps (turn.1.advance turn.2)
  | _ =>
    match readReference s with
    | .ok turn => run steps (turn.1.advance turn.2)
    | .error s => s

theorem run_succ (steps : Nat) (s : Scan) : s.run (steps + 1) =
    if s.rest = [] then s
    else match s.plainText? with
      | none => s
      | some text =>
        (if text = [] then s else (s.readData text).advance text.length).proceed steps :=
  rfl

theorem steady_proceed {steps : Nat}
    (ih : ∀ s : Scan, Steady fun stash => (withStash s stash).run steps) (s : Scan) :
    Steady fun stash => (withStash s stash).proceed steps := by
  have hgo (turn : Turn) : Steady fun stash =>
      ((withStash turn stash).1.advance (withStash turn stash).2).run steps :=
    (ih (turn.1.advance turn.2)).congr fun stash =>
      congrArg (run steps) (withStash_advance turn.1 stash turn.2)
  by_cases hbracket : ∃ more, s.rest = '<' :: more
  · obtain ⟨more, hr⟩ := hbracket
    have hr' (stash : Stash) : (withStash s stash).rest = '<' :: more := hr
    simp only [proceed, hr']
    exact .ite (c := more = []) (fun _ => .idle s) fun _ =>
      (steady_readBracket steps s).bind
        (f := fun turn => run steps (turn.1.advance turn.2)) hgo
  · by_cases hnil : s.rest = []
    · have hr' (stash : Stash) : (withStash s stash).rest = [] := hnil
      simp only [proceed, hr']
      exact .idle s
    · let follow (r : Except Scan Turn) : Scan :=
        match r with
        | .ok turn => run steps (turn.1.advance turn.2)
        | .error s => s
      refine ((steady_readReference s).bind (f := follow) fun r => ?_).congr fun stash => ?_
      · cases r with
        | ok turn => exact hgo turn
        | error s => exact .idle s
      · unfold proceed
        split
        · next h => exact absurd h hnil
        · next more h => exact absurd ⟨more, h⟩ hbracket
        · rfl

theorem steady_run (steps : Nat) (s : Scan) :
    Steady fun stash => (withStash s stash).run steps := by
  induction steps generalizing s with
  | zero => exact .idle s
  | succ steps ih =>
    have hplain (stash : Stash) : (withStash s stash).plainText? = s.plainText? := rfl
    simp only [run_succ, hplain]
    refine .ite (c := s.rest = []) (fun _ => .idle s) fun _ => ?_
    cases s.plainText? with
    | none => exact .idle s
    | some text =>
      by_cases ht : text = []
      · simp only [ht, if_true]
        exact steady_proceed ih s
      · simp only [ht, if_false, withStash_readData, withStash_advance]
        exact steady_proceed ih ((s.readData text).advance text.length)

/-- A block that is still open stored. -/
def storeHeld (s : Scan) : Scan :=
  if s.held = [] then s
  else { s with
    stash := (s.stash.store s.held).2, held := [], pieces := Mark.raw s.stash.count :: s.pieces }

theorem finish_eq (s : Scan) : s.finish =
    (if s.rest = [] then s else (s.readData s.rest).advance s.rest.length).storeHeld :=
  rfl

theorem steady_storeHeld (s : Scan) : Steady fun stash => (withStash s stash).storeHeld :=
  .ite (c := s.held = []) (fun _ => .idle s) fun _ =>
    .store s.held fun n => { s with held := [], pieces := Mark.raw n :: s.pieces }

theorem steady_finish (s : Scan) : Steady fun stash => (withStash s stash).finish := by
  simp only [finish_eq, withStash_rest, withStash_readData, withStash_advance]
  by_cases hr : s.rest = []
  · simp only [hr, if_true]
    exact steady_storeHeld s
  · simp only [hr, if_false]
    exact steady_storeHeld ((s.readData s.rest).advance s.rest.length)

end Scan

open Scan

/-- Storing blocks of markup is steady. -/
theorem steady_store (source : Text) : Steady fun stash => store stash source := by
  have hscan := (steady_run (stepsFor source) (start Stash.empty source)).bind
    (f := fun first => (first.renew.run (stepsFor source)).finish) fun first =>
      (steady_run (stepsFor source) first.renew).bind (f := Scan.finish) steady_finish
  exact hscan.bind (f := fun final => (final.pieces.reverse.flatten, final.stash)) fun final =>
    .idle (final.pieces.reverse.flatten, Stash.empty)

end Raw

end Changelog
